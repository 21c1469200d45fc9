/-
# Reasons of statements

Most statements may be issued at any time.  The others are issued by few handlers
and only after certain answers: those that create sessions, tokens, codes and
clients, that sign a token, that lock, unlock, verify, disable or enable a user, that
change a password, and those about second factors.  For each of them there is a
reason, a property of the request and of the log so far; `Justified` collects them.
-/

import IdentityPlatform.Protocol.Grants

namespace IdentityPlatform

open Interleaving Program

variable {P : Platform} {request : Request} {l : ServerLog}

/-! ### Statements without a reason -/

/-- The statements that need no reason. -/
def Stmt.Plain (_ : ServerLog) : Stmt → Prop
  | .users (.markVerified _) | .users (.clearLockAndFailures _) | .users (.updatePasswordHash ..)
  | .users (.recordFailedLogin _) | .users (.lockUntil ..) | .users (.setStatus ..)
  | .users (.setMfaRequired ..) | .sessions (.insert _) | .sessions (.markMfaPassed _)
  | .refreshTokens (.insert _) | .refreshTokens (.revokeForReplay ..) | .codes (.insert ..)
  | .kms (.sign ..) | .clients (.insert ..)
  | .mfaMethods (.upsertPending ..) | .mfaMethods (.activate _) | .mfaMethods (.disable _)
  | .redis (.set (.mfaChallenge _) ..) | .redis (.set (.jtiRevoked _) ..)
  | .redis (.set (.riskFailed _) ..) => False
  | _ => True

/-- Logging needs no reason. -/
@[simp] theorem Stmt.plain_log {s : LogStmt} : Stmt.Plain l (.log s) := by
  simp [Stmt.Plain]

/-- Neither do the clock, the generators and the hashes. -/
@[simp] theorem Stmt.plain_runtime {s : RuntimeStmt} : Stmt.Plain l (.runtime s) := by
  simp [Stmt.Plain]

/-! ### Sessions, tokens and codes -/

/-- Why a session is created: a login has passed its gates, or a code has been
consumed. -/
inductive SessionReason (P : Platform) (request : Request) (l : ServerLog)
    (data : CreateSessionData) : Prop
  | login {email password row} (hrequest : request = .login email password)
      (gates : PassedGates P l email password row) (user : data.userId = row.id)
  | exchange {form basicAuth id codeRow} (hrequest : request = .token form basicAuth)
      (consumed : l.Saw (.codes (.consume id)) (.ok (some codeRow)))
      (user : data.userId = codeRow.userId)

/-- A login has created its session, right after it was told whether the user has an
active second factor. -/
def CreatedAtLogin (l : ServerLog) (hasMfa : Bool) (data : CreateSessionData)
    (session : SessionRow) : Prop :=
  ∃ l₁ l₂ l₃ : ServerLog, Log.Next l₁ l₂ (.mfaMethods (.hasActive data.userId)) (.ok hasMfa) ∧
    Log.Next l₂ l₃ (.sessions (.insert data)) (.ok session) ∧ l₃ <:+ l

theorem CreatedAtLogin.mono {hasMfa : Bool} {data : CreateSessionData} {session : SessionRow}
    {l' : ServerLog} (h : CreatedAtLogin l hasMfa data session) (hl : l <:+ l') :
    CreatedAtLogin l' hasMfa data session := by
  obtain ⟨l₁, l₂, l₃, hread, hinsert, hs⟩ := h
  exact ⟨l₁, l₂, l₃, hread, hinsert, hs.trans hl⟩

theorem CreatedAtLogin.saw {hasMfa : Bool} {data : CreateSessionData} {session : SessionRow}
    (h : CreatedAtLogin l hasMfa data session) :
    l.Saw (.sessions (.insert data)) (.ok session) := by
  obtain ⟨_, _, _, _, ⟨n, pre, post, rfl⟩, hs⟩ := h
  exact ⟨n, pre, post, hs.subset (List.mem_cons_self ..)⟩

/-- A login challenge has been passed: its payload was read, and a secret of its
user, active when it was read, accepted the code. -/
structure PassedChallenge (l : ServerLog) (mfaChallengeId code : String)
    (challenge : MfaChallengePayload) : Prop where
  read : l.Saw (.redis (.getChallenge (.mfaChallenge mfaChallengeId))) (.ok (some challenge))
  validated : ∃ method : MfaMethodRow, method.secret ≠ "" ∧
    l.Saw (.mfaMethods (.selectByStatus challenge.userId .active)) (.ok (some method)) ∧
    l.Saw (.runtime (.totpCheck code method.secret)) (.ok true)

/-- Why a refresh token is stored: it succeeds a rotated one, or it is the first
one of a session after a login, a challenge or an exchange. -/
inductive RefreshReason (P : Platform) (request : Request) (l : ServerLog) :
    IssueRefreshData → Prop
  | rotation {hash row token}
      (rotated : l.Saw (.refreshTokens (.rotate hash)) (.ok (some row))) :
      RefreshReason P request l
        (RefreshTokenService.issueData P (RefreshTokenService.successor row) token row.familyId)
  | login {email password data session userId roles token familyId}
      (hrequest : request = .login email password)
      (created : CreatedAtLogin l false data session) (user : data.userId = userId) :
      RefreshReason P request l
        (RefreshTokenService.issueData P
          { sessionId := session.id, userId := userId, scope := defaultScopeForRoles roles }
          token familyId)
  | challenge {bearer mfaChallengeId code challenge session roles token familyId}
      (hrequest : request = .mfaVerify bearer (.challenge mfaChallengeId code))
      (passed : PassedChallenge l mfaChallengeId code challenge)
      (found : l.Saw (.sessions (.selectById challenge.sessionId)) (.ok (some session)))
      (active : session.status = .active) :
      RefreshReason P request l
        (RefreshTokenService.issueData P
          { sessionId := session.id, userId := session.userId, scope := defaultScopeForRoles roles }
          token familyId)
  | exchange {form basicAuth clientId client code redirectUri} {row : JoinedRow} {codeRow data}
      {session : SessionRow} {token familyId}
      (hrequest : request = .token form basicAuth)
      (identified : Identified l form basicAuth clientId client)
      (presented : form.code = some code)
      (peeked : AuthorizationCodeRepository.Peeked P l ⟨code, clientId, redirectUri⟩ row)
      (consumed : l.Saw (.codes (.consume row.code.id)) (.ok (some codeRow)))
      (inserted : l.Saw (.sessions (.insert data)) (.ok session))
      (user : data.userId = codeRow.userId) :
      RefreshReason P request l
        (RefreshTokenService.issueData P
          { sessionId := session.id, userId := codeRow.userId, clientId := some client.id
            scope := codeRow.scope } token familyId)

/-- A replay of `code` has been noticed: its row had been consumed, or the race for
it was lost.  (An `Err.codeReplay` that a statement throws would do as well.) -/
def Replayed (P : Platform) (l : ServerLog) (code userId clientRef : String) : Prop :=
  (∃ row, l.Saw (.codes (.selectJoined (P.sha256Hex code))) (.ok (some row)) ∧
      row.code.userId = userId ∧ row.clientRef = clientRef ∧
      (row.code.consumedAt.isSome = true ∨
        ∃ l', l'.Saw (.codes (.selectJoined (P.sha256Hex code))) (.ok (some row)) ∧
          l.Step l' (.codes (.consume row.code.id)) (.ok none))) ∨
    ∃ s : Stmt, l.Saw s (.error (.codeReplay userId clientRef))

/-- Why the live tokens of a user and a client are revoked. -/
structure ReplayReason (P : Platform) (request : Request) (l : ServerLog)
    (userId clientRef : String) : Prop where
  replayed : ∃ form basicAuth code, request = .token form basicAuth ∧ form.code = some code ∧
    Replayed P l code userId clientRef

/-- Why a code is stored: an authenticated user has authorized it, for scopes that its
client may have. -/
structure CodeReason (P : Platform) (request : Request) (l : ServerLog) (hash : String)
    (data : IssueCodeData) : Prop where
  authorized : ∃ bearer input state payload, request = .authorize (some (.jws bearer)) input state ∧
    JwtService.Accepted l bearer payload ∧
    (∃ row, l.Saw (.users (.findById payload.sub)) (.ok (some row)) ∧ row.status = .active) ∧
    data =
      { clientId := input.clientId, userId := payload.sub, redirectUri := input.redirectUri
        scope := input.scope, nonce := input.nonce, codeChallenge := some input.codeChallenge
        codeChallengeMethod := some input.codeChallengeMethod
        ttlSeconds := P.config.authorizationCodeTtl }
  allowed : ∃ client, l.Saw (.clients (.findByClientId data.clientId)) (.ok (some client)) ∧
    ∀ s ∈ words data.scope, s ∈ client.allowedScopes
  fresh : ∃ code, l.Saw (.runtime .randomToken) (.ok code) ∧ hash = P.sha256Hex code

/-! ### Refresh tokens -/

/-- What the insertion of a refresh token directly follows: the generation of its
family, or the rotation of its predecessor and the generation of its text. -/
inductive Lineage (P : Platform) (l : ServerLog) (data : IssueRefreshData) : Prop
  | first {l' : ServerLog} (root : data.previousTokenId = none)
      (family : Log.Next l' l (.runtime .randomUuid) (.ok data.familyId))
  | successor {l₁ l₂ : ServerLog} {hash row token}
      (rotated : Log.Next l₁ l₂ (.refreshTokens (.rotate hash)) (.ok (some row)))
      (generated : Log.Next l₂ l (.runtime .randomToken) (.ok token))
      (stored : data =
        RefreshTokenService.issueData P (RefreshTokenService.successor row) token row.familyId)

/-! ### Signed tokens -/

/-- Why an access token is signed. -/
inductive TokenReason (P : Platform) (request : Request) (l : ServerLog) : AccessTokenInput → Prop
  | login {email password data session userId roles permissions}
      (hrequest : request = .login email password)
      (created : CreatedAtLogin l false data session) (user : data.userId = userId)
      (granted : l.Saw (.rbac (.rolesOf userId)) (.ok roles)) :
      TokenReason P request l
        { sub := userId, scope := defaultScopeForRoles roles, roles := roles
          permissions := permissions, sid := some session.id, amr := some ["pwd"] }
  | challenge {bearer mfaChallengeId code challenge session roles permissions}
      (hrequest : request = .mfaVerify bearer (.challenge mfaChallengeId code))
      (passed : PassedChallenge l mfaChallengeId code challenge)
      (found : l.Saw (.sessions (.selectById challenge.sessionId)) (.ok (some session)))
      (active : session.status = .active)
      (granted : l.Saw (.rbac (.rolesOf session.userId)) (.ok roles)) :
      TokenReason P request l
        { sub := session.userId, scope := defaultScopeForRoles roles, roles := roles
          permissions := permissions, sid := some session.id, amr := some ["pwd", "mfa"] }
  | refresh {refreshToken row session roles permissions amr}
      (hrequest : request = .refresh refreshToken)
      (rotated : ∃ l', l'.Saw (.refreshTokens (.rotate (P.sha256Hex refreshToken)))
        (.ok (some row)) ∧ Log.SawSince l' l (.sessions (.selectById row.sessionId))
          (.ok (some session)))
      (active : session.status = .active)
      (granted : l.Saw (.rbac (.rolesOf row.userId)) (.ok roles)) :
      TokenReason P request l
        { sub := row.userId, scope := row.scope, roles := roles, permissions := permissions
          sid := some session.id, clientId := row.clientId, amr := some amr }
  | exchange {form basicAuth clientId client code redirectUri} {row : JoinedRow} {codeRow data}
      {session : SessionRow} {roles permissions}
      (hrequest : request = .token form basicAuth) (grant : form.grantType = .authorizationCode)
      (identified : Identified l form basicAuth clientId client)
      (presented : form.code = some code)
      (peeked : AuthorizationCodeRepository.Peeked P l ⟨code, clientId, redirectUri⟩ row)
      (consumed : l.Saw (.codes (.consume row.code.id)) (.ok (some codeRow)))
      (inserted : l.Saw (.sessions (.insert data)) (.ok session))
      (user : data.userId = codeRow.userId)
      (granted : l.Saw (.rbac (.rolesOf codeRow.userId)) (.ok roles)) :
      TokenReason P request l
        { sub := codeRow.userId, scope := codeRow.scope, roles := roles
          permissions := permissions, sid := some session.id, clientId := some client.clientId
          amr := some ["oauth"] }
  | oauthRefresh {form basicAuth clientId client refreshToken row session scope roles permissions}
      (hrequest : request = .token form basicAuth) (grant : form.grantType = .refreshToken)
      (identified : Identified l form basicAuth clientId client)
      (bound : row.clientId = some client.id)
      (presented : form.refreshToken = some refreshToken)
      (rotated : ∃ l', l'.Saw (.refreshTokens (.rotate (P.sha256Hex refreshToken)))
        (.ok (some row)) ∧ Log.SawSince l' l (.sessions (.selectById row.sessionId))
          (.ok (some session)))
      (active : session.status = .active)
      (narrowed : OAuthService.narrowScope row.scope form.scope = .ok scope)
      (granted : l.Saw (.rbac (.rolesOf row.userId)) (.ok roles)) :
      TokenReason P request l
        { sub := row.userId, scope := scope, roles := roles, permissions := permissions
          sid := some row.sessionId, clientId := some client.clientId, amr := some ["oauth"] }
  | clientCredentials {form basicAuth clientId client}
      (hrequest : request = .token form basicAuth) (grant : form.grantType = .clientCredentials)
      (identified : Identified l form basicAuth clientId client)
      (allowed : ∀ s ∈ words (form.scope.getD ""), s ∈ client.allowedScopes) :
      TokenReason P request l
        { sub := client.clientId, scope := joinWords (words (form.scope.getD ""))
          roles := ["service"], clientId := some client.clientId, amr := some ["client_secret"] }

/-- Why something is signed: an access token with a new identifier and the time of
the clock, or an ID token. -/
def SignReason (P : Platform) (request : Request) (l : ServerLog) (payload : JwtPayload) : Prop :=
  (∃ input jti now, TokenReason P request l input ∧ l.Saw (.runtime .randomUuid) (.ok jti) ∧
      l.Saw (.runtime .dateNow) (.ok now) ∧ payload =
        JwtService.accessTokenPayload P input jti (now / 1000) P.config.accessTokenTtl) ∨
    ∃ claims audience subject now ttl,
      payload = JwtService.idTokenPayload P claims audience subject now ttl

/-! ### Accounts -/

/-- The check of a password has failed for `row`, which was not disabled when it was
read. -/
structure FailedCheck (P : Platform) (request : Request) (l : ServerLog) (row : UserRow) :
    Prop where
  login : ∃ email password, request = .login email password ∧
    l.Saw (.users (.findByEmail email.toLower)) (.ok (some row)) ∧
    verifyPassword P row.passwordHash password = false
  enabled : row.status ≠ .disabled

/-- Why an account is locked: the check has failed once too often, and the failure is
recorded. -/
structure LockReason (P : Platform) (request : Request) (l : ServerLog) (id : String)
    (until_ : ℕ) : Prop where
  failed : ∃ row, FailedCheck P request l row ∧ row.id = id ∧
    P.config.maxFailedLogins ≤ row.failedLoginCount + 1
  recorded : l.Saw (.users (.recordFailedLogin id)) (.ok ())
  clock : ∃ now, l.Saw (.runtime .dateNow) (.ok now) ∧
    until_ = now + P.config.lockoutMinutes * 60000

/-- Why the status of an account is set: by a request with the permission to. -/
structure StatusReason (request : Request) (l : ServerLog) (id : String) (status : UserStatus) :
    Prop where
  administered : ∃ token payload id' disabled,
    request = .setUserStatus (some (.jws token)) id' disabled ∧
    JwtService.Accepted l token payload ∧ passes "users:write" payload = true ∧
    id = canonicalUuid id' ∧ status = if disabled then .disabled else .active

/-! ### Second factors -/

/-- A method of the user with a given status was read, and its secret accepted a
code. -/
def CheckedMethod (l : ServerLog) (userId code : String) (status : MfaStatus)
    (method : MfaMethodRow) : Prop :=
  l.Saw (.mfaMethods (.selectByStatus userId status)) (.ok (some method)) ∧
    l.Saw (.runtime (.totpCheck code method.secret)) (.ok true)

/-- Why a login challenge is stored: a login has created its session, or a code was
wrong. -/
inductive ChallengeReason (request : Request) (l : ServerLog) (mfaChallengeId : String) :
    RedisValue → Prop
  | login {email password data session} {l' : ServerLog}
      (hrequest : request = .login email password)
      (created : CreatedAtLogin l true data session)
      (generated : Log.Next l' l (.runtime .randomUuid) (.ok mfaChallengeId)) :
      ChallengeReason request l mfaChallengeId (.challenge ⟨data.userId, session.id, 0⟩)
  | wrongCode {bearer code challenge}
      (hrequest : request = .mfaVerify bearer (.challenge mfaChallengeId code))
      (read : l.Saw (.redis (.getChallenge (.mfaChallenge mfaChallengeId)))
        (.ok (some challenge))) :
      ChallengeReason request l mfaChallengeId
        (.challenge { challenge with attempts := challenge.attempts + 1 })

/-- Why `mfa_required` is set: the method of the user has just been activated or
disabled. -/
inductive MfaRequiredReason (request : Request) (l : ServerLog) (userId : String) : Bool → Prop
  | enabled {l' : ServerLog} (activated : Log.Next l' l (.mfaMethods (.activate userId)) (.ok ())) :
      MfaRequiredReason request l userId true
  | disabled {bearer code method} {l' : ServerLog} (hrequest : request = .mfaDisable bearer code)
      (checked : CheckedMethod l userId code .active method)
      (disabled : Log.Next l' l (.mfaMethods (.disable method.id)) (.ok ())) :
      MfaRequiredReason request l userId false

/-- Why a session is marked: a login challenge of it has been passed. -/
structure MarkReason (request : Request) (l : ServerLog) (id : String) : Prop where
  challenged : ∃ bearer mfaChallengeId code challenge,
    request = .mfaVerify bearer (.challenge mfaChallengeId code) ∧
    PassedChallenge l mfaChallengeId code challenge ∧ challenge.sessionId = id

/-- Why the list of revoked tokens gets an entry: the token itself was presented and
verified. -/
structure DenylistReason (P : Platform) (request : Request) (l : ServerLog) (jti : String)
    (value : RedisValue) (ttl : Option ℕ) : Prop where
  revoked : ∃ token payload now, request = .revoke (.jws token) ∧
    JwtService.Accepted l token payload ∧ payload.jti = some jti ∧
    l.Saw (.runtime .dateNow) (.ok now) ∧ value = .text "1" ∧
    ttl = some (TokenRevocationService.ttl payload.exp now)

/-- **What a call may issue after the log `l`.** -/
def Justified (P : Platform) (request : Request) (l : ServerLog) : Stmt → Prop
  | .users (.markVerified id) => ∃ hash row,
      l.Saw (.emailTokens (.consumeVerification hash)) (.ok (some row)) ∧ row.userId = id
  | .users (.clearLockAndFailures id) => ∃ data,
      l.Saw (.refreshTokens (.insert data)) (.ok ()) ∧ data.userId = id
  | .users (.updatePasswordHash _ hash) => ∃ token password,
      request = .resetPassword token password ∧
        l.Saw (.runtime (.argon2Hash password)) (.ok hash)
  | .sessions (.insert data) => SessionReason P request l data
  | .sessions (.markMfaPassed id) => MarkReason request l id
  | .users (.recordFailedLogin id) => ∃ row, FailedCheck P request l row ∧ row.id = id
  | .users (.lockUntil id until_) => LockReason P request l id until_
  | .users (.setStatus id status) => StatusReason request l id status
  | .users (.setMfaRequired id value) => MfaRequiredReason request l id value
  | .refreshTokens (.insert data) => RefreshReason P request l data ∧ Lineage P l data ∧
      ∃ token, l.Saw (.runtime .randomToken) (.ok token) ∧ data.tokenHash = P.sha256Hex token
  | .refreshTokens (.revokeForReplay userId clientRef) => ReplayReason P request l userId clientRef
  | .codes (.insert hash data) => CodeReason P request l hash data
  | .kms (.sign _ payload) => SignReason P request l payload
  | .clients (.insert clientId _ data) => ∃ bearer input, request = .createClient bearer input ∧
      data.allowedScopes = input.allowedScopes ∧ l.Saw (.runtime .newClientId) (.ok clientId)
  | .mfaMethods (.upsertPending _ _) => ∃ bearer, request = .mfaEnroll bearer
  | .mfaMethods (.activate userId) => ∃ bearer code method,
      request = .mfaVerify bearer (.enrollment code) ∧ CheckedMethod l userId code .pending method
  | .mfaMethods (.disable id) => ∃ bearer code userId method,
      request = .mfaDisable bearer code ∧ CheckedMethod l userId code .active method ∧
      method.id = id
  | .redis (.set (.mfaChallenge id) value _) => ChallengeReason request l id value
  | .redis (.set (.jtiRevoked jti) value ttl) => DenylistReason P request l jti value ttl
  | .redis (.set (.riskFailed _) ..) => False
  | _ => True

end IdentityPlatform
