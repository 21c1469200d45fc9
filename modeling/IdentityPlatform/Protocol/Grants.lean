/-
# How tokens are obtained

`Granted` lists the six ways a request can be answered with tokens, each with
what its log then contains: the gates a login has passed, the session a
challenge or a refresh has found active, the code an exchange has consumed, the
client that has authenticated, and the statements that stored and signed the
tokens.  `granted` says that there is no other way.
-/

import IdentityPlatform.Protocol.Services

namespace IdentityPlatform

open Interleaving Program

variable {P : Platform} {l₀ l : ServerLog} {ctx : RequestContext}

/-- The access token of an answer. -/
def Response.accessToken? : Response → Option Jws
  | .session result => some result.accessToken
  | .tokens response => some response.accessToken
  | _ => none

/-- The refresh token of an answer. -/
def Response.refreshToken? : Response → Option String
  | .session result => some result.refreshToken
  | .tokens response => response.refreshToken
  | _ => none

/-- What `checkCredentials` has established of the row it returns. -/
structure PassedGates (P : Platform) (l : ServerLog) (email password : String) (row : UserRow) :
    Prop where
  clock : ∃ l' now, l.Step l' (.runtime .dateNow) (.ok now) ∧
    l'.Saw (.users (.findByEmail email.toLower)) (.ok (some row)) ∧
    row.lockedUntil.any (· > now) = false
  enabled : row.status ≠ .disabled
  verified : row.status ≠ .pendingVerification
  password : verifyPassword P row.passwordHash password = true

theorem PassedGates.mono {email password : String} {row : UserRow} {l' : ServerLog}
    (h : PassedGates P l email password row) (hl : l <:+ l') :
    PassedGates P l' email password row :=
  { h with
    clock := by
      obtain ⟨l₁, now, hs, hr, hn⟩ := h.clock
      exact ⟨l₁, now, hs.mono hl, hr, hn⟩ }

/-- The tokens `issueSessionTokensForSession` has issued. -/
structure SessionTokens (P : Platform) (l : ServerLog) (sessionId userId : String)
    (amr : List String) (result : LoginResultSuccess) : Prop where
  access : ∃ roles permissions, l.Saw (.rbac (.permissionsOf userId)) (.ok permissions) ∧
    JwtService.Signed P l
      { sub := userId, scope := defaultScopeForRoles roles, roles := roles
        permissions := permissions, sid := some sessionId, amr := some amr } result.accessToken
  refresh : ∃ familyId, l.Saw (.refreshTokens (.insert (RefreshTokenService.issueData P
    { sessionId := sessionId, userId := userId, scope := result.scope } result.refreshToken
    familyId))) (.ok ())

theorem SessionTokens.mono {sessionId userId : String} {amr : List String}
    {result : LoginResultSuccess} {l' : ServerLog}
    (h : SessionTokens P l sessionId userId amr result) (hl : l <:+ l') :
    SessionTokens P l' sessionId userId amr result where
  access := by
    obtain ⟨roles, permissions, hp, hs⟩ := h.access
    exact ⟨roles, permissions, hp.mono hl, hs.mono hl⟩
  refresh := by
    obtain ⟨familyId, hi⟩ := h.refresh
    exact ⟨familyId, hi.mono hl⟩

namespace AuthService

theorem rejectPassword_fails {user : UserRow} :
    ¬(rejectPassword P user ctx).Returns l₀ l (.ok ()) := by
  intro h
  obtain ⟨_, _, _, _, h⟩ := h.of_bind
  obtain ⟨_, _, _, _, h⟩ := h.of_bind
  obtain ⟨_, _, _, _, h⟩ := h.of_bind
  cases (returns_throw.1 h).2

theorem rejectUnknown_fails {user : UserRow} : ¬(rejectUnknown ctx).Returns l₀ l (.ok user) := by
  intro h
  obtain ⟨_, _, _, _, h⟩ := h.of_bind
  cases (returns_throw.1 h).2

/-- **The gates of a login.** -/
theorem checkCredentials_ok {email password : String} {row : UserRow}
    (h : (checkCredentials P email password ctx).Returns l₀ l (.ok row)) :
    PassedGates P l email password row := by
  obtain ⟨l₁, found, h₁, _, h⟩ := h.of_bind
  obtain ⟨l₂, user, h₂, _, h⟩ := h.of_bind
  obtain ⟨l₃, now, h₃, hs₃, h⟩ := h.of_bind
  obtain ⟨l₄, _, h₄, _, h⟩ := h.of_bind
  obtain ⟨l₅, _, h₅, _, h⟩ := h.of_bind
  obtain ⟨l₆, _, h₆, _, h⟩ := h.of_bind
  obtain ⟨l₇, _, h₇, _, h⟩ := h.of_bind
  cases (returns_pure.1 h).2
  obtain ⟨rfl, rfl⟩ : found = some row ∧ l₂ = l₁ := by
    rcases returns_orDo_ok.1 h₂ with hf | ⟨_, hf⟩
    · exact hf
    · exact (rejectUnknown_fails hf).elim
  refine ⟨⟨l₂, now, h₃.step.mono hs₃, h₁.saw, ?_⟩, (returns_throwIf_ok.1 h₄).2,
    (returns_throwIf_ok.1 h₇).2, ?_⟩
  · simpa using (returns_throwIf_ok.1 h₅).2
  · rcases returns_onlyIf_ok.1 h₆ with ⟨_, hr⟩ | ⟨hp, _⟩
    · exact (rejectPassword_fails hr).elim
    · simpa using hp

/-- The tokens of a session. -/
theorem issueSessionTokensForSession_ok {sessionId userId : String} {amr : List String}
    {result : LoginResultSuccess}
    (h : (issueSessionTokensForSession P sessionId userId amr ctx).Returns l₀ l (.ok result)) :
    SessionTokens P l sessionId userId amr result := by
  obtain ⟨l₁, found, _, _, h⟩ := h.of_bind
  obtain ⟨l₂, user, _, _, h⟩ := h.of_bind
  obtain ⟨l₃, roles, _, _, h⟩ := h.of_bind
  obtain ⟨l₄, permissions, h₄, hs₄, h⟩ := h.of_bind
  obtain ⟨l₅, signed, h₅, hs₅, h⟩ := h.of_bind
  obtain ⟨l₆, refresh, h₆, hs₆, h⟩ := h.of_bind
  obtain ⟨l₇, _, _, _, h⟩ := h.of_bind
  obtain ⟨l₈, _, _, _, h⟩ := h.of_bind
  obtain ⟨l₉, _, _, _, h⟩ := h.of_bind
  obtain ⟨l₁₀, _, _, _, h⟩ := h.of_bind
  obtain ⟨l₁₁, expires, _, _, h⟩ := h.of_bind
  cases (returns_pure.1 h).2
  obtain ⟨_, familyId, _, hi⟩ := RefreshTokenService.issue_ok h₆
  exact ⟨⟨roles, permissions, h₄.saw.mono hs₄, (JwtService.signAccessToken_ok h₅).mono hs₅⟩,
    ⟨familyId, hi.mono hs₆⟩⟩

end AuthService

/-! ### The six ways -/

/-- A login with the right password of a user without a second factor. -/
structure LoginGrant (P : Platform) (l : ServerLog) (email password : String) (row : UserRow)
    (session : SessionRow) (result : LoginResultSuccess) : Prop where
  gates : PassedGates P l email password row
  created : ∃ data : CreateSessionData, data.userId = row.id ∧
    l.Saw (.sessions (.insert data)) (.ok session)
  tokens : SessionTokens P l session.id row.id ["pwd"] result

/-- The completion of a login challenge. -/
structure ChallengeGrant (P : Platform) (l : ServerLog) (session : SessionRow)
    (result : LoginResultSuccess) : Prop where
  found : ∃ id, l.Saw (.sessions (.selectById id)) (.ok (some session))
  active : session.status = .active
  tokens : SessionTokens P l session.id session.userId ["pwd", "mfa"] result

/-- A refresh at `/auth/refresh`. -/
structure RefreshGrant (P : Platform) (l : ServerLog) (refreshToken : String)
    (row : RefreshTokenRow) (session : SessionRow) (result : LoginResultSuccess) : Prop where
  rotated : ∃ l', l'.Saw (.refreshTokens (.rotate (P.sha256Hex refreshToken))) (.ok (some row)) ∧
    Log.SawSince l' l (.sessions (.selectById row.sessionId)) (.ok (some session))
  active : session.status = .active
  access : ∃ roles permissions amr, l.Saw (.rbac (.permissionsOf row.userId)) (.ok permissions) ∧
    JwtService.Signed P l
      { sub := row.userId, scope := row.scope, roles := roles, permissions := permissions
        sid := some session.id, clientId := row.clientId, amr := some amr } result.accessToken
  refresh : l.Saw (.refreshTokens (.insert (RefreshTokenService.issueData P
    (RefreshTokenService.successor row) result.refreshToken row.familyId))) (.ok ())

theorem RefreshGrant.rotation {refreshToken : String} {row : RefreshTokenRow} {session : SessionRow}
    {result : LoginResultSuccess} (h : RefreshGrant P l refreshToken row session result) :
    l.Saw (.refreshTokens (.rotate (P.sha256Hex refreshToken))) (.ok (some row)) := by
  obtain ⟨l', hrotate, hfound⟩ := h.rotated
  exact hrotate.mono hfound.suffix

theorem RefreshGrant.found {refreshToken : String} {row : RefreshTokenRow} {session : SessionRow}
    {result : LoginResultSuccess} (h : RefreshGrant P l refreshToken row session result) :
    l.Saw (.sessions (.selectById row.sessionId)) (.ok (some session)) := by
  obtain ⟨l', _, hfound⟩ := h.rotated
  exact hfound.saw

/-- The client a token request names, found active. -/
structure Identified (l : ServerLog) (form : TokenForm) (basicAuth : Option BasicAuth)
    (clientId : String) (client : OAuthClientRow) : Prop where
  named : (basicAuth.map BasicAuth.clientId).or form.clientId = some clientId
  read : l.Saw (.clients (.findByClientId clientId)) (.ok (some client))
  active : client.status = .active

/-- The secret a token request presents. -/
def presentedSecret (form : TokenForm) (basicAuth : Option BasicAuth) : Option String :=
  (basicAuth.map BasicAuth.clientSecret).or form.clientSecret

/-- The tokens `issueUserTokens` has issued. -/
structure UserTokens (P : Platform) (l : ServerLog) (userId : String) (client : OAuthClientRow)
    (scope : String) (nonce : Option String) (session : SessionRow) (response : TokenResponse) :
    Prop where
  created : ∃ data : CreateSessionData, data.userId = userId ∧
    l.Saw (.sessions (.insert data)) (.ok session)
  access : ∃ roles permissions, l.Saw (.rbac (.permissionsOf userId)) (.ok permissions) ∧
    JwtService.Signed P l
      { sub := userId, scope := scope, roles := roles, permissions := permissions
        sid := some session.id, clientId := some client.clientId, amr := some ["oauth"] }
      response.accessToken
  refresh : ∃ refreshToken familyId, response.refreshToken = some refreshToken ∧
    l.Saw (.refreshTokens (.insert (RefreshTokenService.issueData P
      { sessionId := session.id, userId := userId, clientId := some client.id, scope := scope }
      refreshToken familyId))) (.ok ())
  idToken : ∀ token, response.idToken = some token → ∃ kid now claims,
    l.Saw (.kms (.sign kid (JwtService.idTokenPayload P claims client.clientId userId now
      P.config.idTokenTtl))) (.ok token) ∧ claims.nonce = nonce.filter (· ≠ "")
  scope : response.scope = scope

/-- The code a form presents: found by its first read `row`, matched against the
verifier, found again by the second read `row'`, and consumed. -/
structure PresentedAndConsumed (P : Platform) (l : ServerLog) (form : TokenForm)
    (params : PresentedCode) (row row' : JoinedRow) (codeRow : AuthorizationCodeRow) : Prop where
  code : form.code = some params.code
  redirectUri : form.redirectUri = some params.redirectUri
  peeked : AuthorizationCodeRepository.Peeked P l params row
  verifier : ∃ codeVerifier codeChallenge, form.codeVerifier = some codeVerifier ∧
    row.code.codeChallenge = some codeChallenge ∧
    PkceUtil.matches P codeVerifier codeChallenge row.code.codeChallengeMethod = true
  consumed : ∃ l', AuthorizationCodeRepository.Peeked P l' params row' ∧
    l.Step l' (.codes (.consume row'.code.id)) (.ok (some codeRow))

/-- The exchange of an authorization code. -/
structure CodeGrant (P : Platform) (l : ServerLog) (form : TokenForm) (basicAuth : Option BasicAuth)
    (client : OAuthClientRow) (codeRow : AuthorizationCodeRow) (session : SessionRow)
    (response : TokenResponse) : Prop where
  presented : ∃ params row row', Identified l form basicAuth params.clientId client ∧
    PresentedAndConsumed P l form params row row' codeRow
  authenticated : OAuthService.Authenticated P client (presentedSecret form basicAuth)
  tokens : UserTokens P l codeRow.userId client codeRow.scope codeRow.nonce session response

/-- The code has been consumed. -/
theorem CodeGrant.consumed {form : TokenForm} {basicAuth : Option BasicAuth}
    {client : OAuthClientRow} {codeRow : AuthorizationCodeRow} {session : SessionRow}
    {response : TokenResponse} (h : CodeGrant P l form basicAuth client codeRow session response) :
    ∃ id, l.Saw (.codes (.consume id)) (.ok (some codeRow)) := by
  obtain ⟨_, _, row', _, hpresented⟩ := h.presented
  obtain ⟨_, _, hconsume⟩ := hpresented.consumed
  exact ⟨row'.code.id, hconsume.saw⟩

/-- A refresh at the token endpoint. -/
structure OAuthRefreshGrant (P : Platform) (l : ServerLog) (form : TokenForm)
    (basicAuth : Option BasicAuth) (client : OAuthClientRow) (row : RefreshTokenRow)
    (session : SessionRow) (response : TokenResponse) : Prop where
  identified : ∃ clientId, Identified l form basicAuth clientId client
  authenticated : OAuthService.Authenticated P client (presentedSecret form basicAuth)
  bound : row.clientId = some client.id
  rotated : ∃ refreshToken, form.refreshToken = some refreshToken ∧ ∃ l',
    l'.Saw (.refreshTokens (.rotate (P.sha256Hex refreshToken))) (.ok (some row)) ∧
      Log.SawSince l' l (.sessions (.selectById row.sessionId)) (.ok (some session))
  active : session.status = .active
  access : ∃ scope roles permissions, OAuthService.narrowScope row.scope form.scope = .ok scope ∧
    l.Saw (.rbac (.permissionsOf row.userId)) (.ok permissions) ∧
    JwtService.Signed P l
      { sub := row.userId, scope := scope, roles := roles, permissions := permissions
        sid := some row.sessionId, clientId := some client.clientId, amr := some ["oauth"] }
      response.accessToken
  refresh : ∃ refreshToken, response.refreshToken = some refreshToken ∧
    l.Saw (.refreshTokens (.insert (RefreshTokenService.issueData P
      (RefreshTokenService.successor row) refreshToken row.familyId))) (.ok ())

section OAuthRefreshGrant

variable {form : TokenForm} {basicAuth : Option BasicAuth} {client : OAuthClientRow}
  {row : RefreshTokenRow} {session : SessionRow} {response : TokenResponse}

theorem OAuthRefreshGrant.rotation
    (h : OAuthRefreshGrant P l form basicAuth client row session response) :
    ∃ refreshToken, form.refreshToken = some refreshToken ∧
      l.Saw (.refreshTokens (.rotate (P.sha256Hex refreshToken))) (.ok (some row)) := by
  obtain ⟨refreshToken, htoken, l', hrotate, hfound⟩ := h.rotated
  exact ⟨refreshToken, htoken, hrotate.mono hfound.suffix⟩

theorem OAuthRefreshGrant.found
    (h : OAuthRefreshGrant P l form basicAuth client row session response) :
    l.Saw (.sessions (.selectById row.sessionId)) (.ok (some session)) := by
  obtain ⟨_, _, l', _, hfound⟩ := h.rotated
  exact hfound.saw

end OAuthRefreshGrant

/-- A token of a client for itself. -/
structure ClientCredentialsGrant (P : Platform) (l : ServerLog) (form : TokenForm)
    (basicAuth : Option BasicAuth) (client : OAuthClientRow) (response : TokenResponse) : Prop where
  identified : ∃ clientId, Identified l form basicAuth clientId client
  access : ∃ scope, JwtService.Signed P l
    { sub := client.clientId, scope := scope, roles := ["service"]
      clientId := some client.clientId, amr := some ["client_secret"] } response.accessToken
  noRefresh : response.refreshToken = none

/-- The ways a request is answered with tokens. -/
inductive Granted (P : Platform) (l : ServerLog) : Request → Response → Prop
  | login {email password row session result}
      (grant : LoginGrant P l email password row session result) :
      Granted P l (.login email password) (.session result)
  | challenge {bearer mfaChallengeId code session result}
      (grant : ChallengeGrant P l session result) :
      Granted P l (.mfaVerify bearer (.challenge mfaChallengeId code)) (.session result)
  | refresh {refreshToken row session result}
      (grant : RefreshGrant P l refreshToken row session result) :
      Granted P l (.refresh refreshToken) (.session result)
  | code {form basicAuth client codeRow session response}
      (hform : form.grantType = .authorizationCode)
      (grant : CodeGrant P l form basicAuth client codeRow session response) :
      Granted P l (.token form basicAuth) (.tokens response)
  | oauthRefresh {form basicAuth client row session response}
      (hform : form.grantType = .refreshToken)
      (grant : OAuthRefreshGrant P l form basicAuth client row session response) :
      Granted P l (.token form basicAuth) (.tokens response)
  | clientCredentials {form basicAuth client response}
      (hform : form.grantType = .clientCredentials)
      (grant : ClientCredentialsGrant P l form basicAuth client response) :
      Granted P l (.token form basicAuth) (.tokens response)

namespace AuthService

theorem login_ok {email password : String} {result : LoginResultSuccess}
    (h : (login P email password ctx).Returns l₀ l (.ok (.success result))) :
    ∃ row session, LoginGrant P l email password row session result := by
  obtain ⟨l₁, row, h₁, hs₁, h⟩ := h.of_bind
  obtain ⟨l₂, action, _, _, h⟩ := h.of_bind
  obtain ⟨l₃, hasMfa, _, _, h⟩ := h.of_bind
  split_ifs at h
  · obtain ⟨_, _, _, _, h⟩ := Returns.of_bind h
    obtain ⟨_, _, _, _, h⟩ := Returns.of_bind h
    obtain ⟨_, _, _, _, h⟩ := Returns.of_bind h
    cases (returns_pure.1 h).2
  · obtain ⟨l₄, _, h₄, hs₄, h⟩ := Returns.of_bind h
    cases (returns_pure.1 h).2
    obtain ⟨l₅, session, h₅, hs₅, h₄⟩ := Returns.of_bind h₄
    exact ⟨row, session, (checkCredentials_ok h₁).mono hs₁, ⟨_, rfl, (h₅.saw.mono hs₅).mono hs₄⟩,
      (issueSessionTokensForSession_ok h₄).mono hs₄⟩

theorem completeMfaChallenge_ok {mfaChallengeId code : String} {result : LoginResultSuccess}
    (h : (completeMfaChallenge P mfaChallengeId code ctx).Returns l₀ l (.ok result)) :
    ∃ session, ChallengeGrant P l session result := by
  obtain ⟨l₁, sessionId, _, _, h⟩ := h.of_bind
  obtain ⟨l₂, found, h₂, hs₂, h⟩ := h.of_bind
  obtain ⟨l₃, session, h₃, _, h⟩ := h.of_bind
  obtain ⟨l₄, _, _, _, h⟩ := h.of_bind
  obtain ⟨hfound, hact⟩ := Option.filter_eq_some_iff.1 (returns_orThrow_ok.1 h₃).2
  have hactive : session.status = .active := by simpa using hact
  exact ⟨session, ⟨_, (SessionRepository.findById_active (hfound ▸ h₂) hactive).saw.mono hs₂⟩,
    hactive, issueSessionTokensForSession_ok h⟩

theorem refresh_ok {refreshToken : String} {result : LoginResultSuccess}
    (h : (refresh P refreshToken ctx).Returns l₀ l (.ok result)) :
    ∃ row session, RefreshGrant P l refreshToken row session result := by
  rcases returns_tryCatch.1 h with ⟨a, h, heq⟩ | ⟨l₁, e, _, h⟩
  · cases heq
    obtain ⟨l₁, consumed, h₁, hs₁, h⟩ := h.of_bind
    obtain ⟨l₂, session, h₂, hs₂, h⟩ := h.of_bind
    obtain ⟨l₃, roles, _, _, h⟩ := h.of_bind
    obtain ⟨l₄, permissions, h₄, hs₄, h⟩ := h.of_bind
    obtain ⟨l₅, signed, h₅, hs₅, h⟩ := h.of_bind
    obtain ⟨l₆, _, _, _, h⟩ := h.of_bind
    obtain ⟨l₇, _, _, _, h⟩ := h.of_bind
    obtain ⟨l₈, _, _, _, h⟩ := h.of_bind
    cases (returns_pure.1 h).2
    obtain ⟨hr, hi⟩ := RefreshTokenService.consume_ok h₁
    obtain ⟨hf, hact⟩ := OAuthService.requireActiveSession_ok h₂
    exact ⟨consumed.row, session, ⟨l₁, hr, hf.mono (List.suffix_refl _) hs₂⟩, hact,
      ⟨_, _, _, h₄.saw.mono hs₄, (JwtService.signAccessToken_ok h₅).mono hs₅⟩, hi.mono hs₁⟩
  · obtain ⟨_, _, _, _, h⟩ := h.of_bind
    cases (returns_throw.1 h).2

end AuthService

namespace OAuthService

theorem issueIdToken_ok {userId : String} {client : OAuthClientRow} {scope : String}
    {nonce : Option String} {r : Option Jws} {token : Jws}
    (h : (issueIdToken P userId client scope nonce).Returns l₀ l (.ok r)) (ht : r = some token) :
    ∃ kid now claims, l.Saw (.kms (.sign kid (JwtService.idTokenPayload P claims client.clientId
      userId now P.config.idTokenTtl))) (.ok token) ∧ claims.nonce = nonce.filter (· ≠ "") := by
  unfold issueIdToken at h
  split at h
  · obtain ⟨l₁, user, _, _, h⟩ := Returns.of_bind h
    obtain ⟨l₂, idToken, h₂, hs₂, h⟩ := Returns.of_bind h
    cases (returns_pure.1 h).2
    cases ht
    obtain ⟨kid, now, hsign⟩ := JwtService.signIdToken_ok h₂
    exact ⟨kid, now, _, hsign.mono hs₂, rfl⟩
  · cases (returns_pure.1 h).2
    cases ht

theorem issueUserTokens_ok {userId : String} {client : OAuthClientRow} {scope : String}
    {nonce : Option String} {response : TokenResponse}
    (h : (issueUserTokens P userId client scope nonce ctx).Returns l₀ l (.ok response)) :
    ∃ session, UserTokens P l userId client scope nonce session response := by
  obtain ⟨l₁, roles, _, _, h⟩ := h.of_bind
  obtain ⟨l₂, permissions, h₂, hs₂, h⟩ := h.of_bind
  obtain ⟨l₃, session, h₃, hs₃, h⟩ := h.of_bind
  obtain ⟨l₄, signed, h₄, hs₄, h⟩ := h.of_bind
  obtain ⟨l₅, refresh, h₅, hs₅, h⟩ := h.of_bind
  obtain ⟨l₆, idToken, h₆, hs₆, h⟩ := h.of_bind
  obtain ⟨l₇, _, _, _, h⟩ := h.of_bind
  obtain ⟨l₈, expires, _, _, h⟩ := h.of_bind
  cases (returns_pure.1 h).2
  obtain ⟨_, familyId, _, hinsert⟩ := RefreshTokenService.issue_ok h₅
  exact ⟨session,
    { created := ⟨_, rfl, h₃.saw.mono hs₃⟩
      access := ⟨roles, permissions, h₂.saw.mono hs₂, (JwtService.signAccessToken_ok h₄).mono hs₄⟩
      refresh := ⟨refresh.token, familyId, rfl, hinsert.mono hs₅⟩
      idToken := fun token ht => by
        obtain ⟨kid, now, claims, hsign, hnonce⟩ := issueIdToken_ok h₆ ht
        exact ⟨kid, now, claims, hsign.mono hs₆, hnonce⟩
      scope := rfl }⟩

/-- **An exchange**: the checks of the branch, then the tokens of the consumed
row. -/
theorem authorizationCodeGrant_ok {form : TokenForm} {basicAuth : Option BasicAuth}
    {clientId : String} {client : OAuthClientRow} {response : TokenResponse}
    (hid : ∀ {l}, l₀ <:+ l → Identified l form basicAuth clientId client)
    (h : (authorizationCodeGrant P form clientId client
      (presentedSecret form basicAuth) ctx).Returns l₀ l (.ok response)) :
    ∃ codeRow session, CodeGrant P l form basicAuth client codeRow session response := by
  have hsuffix := h.suffix
  obtain ⟨l₁, code, h₁, _, h⟩ := h.of_bind
  obtain ⟨l₂, redirectUri, h₂, _, h⟩ := h.of_bind
  obtain ⟨l₃, codeVerifier, h₃, _, h⟩ := h.of_bind
  obtain ⟨l₄, _, h₄, _, h⟩ := h.of_bind
  obtain ⟨l₅, found, h₅, hs₅, h⟩ := h.of_bind
  obtain ⟨l₆, row, h₆, _, h⟩ := h.of_bind
  obtain ⟨l₇, codeChallenge, h₇, _, h⟩ := h.of_bind
  obtain ⟨l₈, _, h₈, _, h⟩ := h.of_bind
  obtain ⟨l₉, consumed, h₉, hs₉, h⟩ := h.of_bind
  obtain ⟨l₁₀, codeRow, h₁₀, hs₁₀, h⟩ := h.of_bind
  obtain ⟨session, htokens⟩ := issueUserTokens_ok h
  obtain ⟨-, rfl⟩ := returns_orThrow_ok.1 h₆
  obtain ⟨-, rfl⟩ := returns_orThrow_ok.1 h₁₀
  have hpeeked := (AuthorizationCodeRepository.peek_ok (catchReplay_ok h₅)).mono hs₅
  obtain ⟨row', l', hpeeked', hconsume⟩ :=
    AuthorizationCodeRepository.consume_ok (catchReplay_ok h₉)
  have hpkce := (returns_throwIf_ok.1 h₈).2
  exact ⟨codeRow, session,
    { presented := ⟨⟨code, clientId, redirectUri⟩, row, row', hid hsuffix,
        { code := (requireText_ok h₁).1
          redirectUri := (requireText_ok h₂).1
          peeked := hpeeked
          verifier := ⟨codeVerifier, codeChallenge, (requireText_ok h₃).1, (requireText_ok h₇).1,
            by simpa using hpkce⟩
          consumed := ⟨l', hpeeked', hconsume.mono hs₉⟩ }⟩
      authenticated := authenticateClient_ok h₄
      tokens := htokens }⟩

theorem refreshTokenGrant_ok {form : TokenForm} {basicAuth : Option BasicAuth}
    {clientId : String} {client : OAuthClientRow} {response : TokenResponse}
    (hid : ∀ {l}, l₀ <:+ l → Identified l form basicAuth clientId client)
    (h : (refreshTokenGrant P form client (presentedSecret form basicAuth) ctx).Returns
      l₀ l (.ok response)) :
    ∃ row session, OAuthRefreshGrant P l form basicAuth client row session response := by
  have hsuffix := h.suffix
  obtain ⟨l₁, refreshToken, h₁, _, h⟩ := h.of_bind
  obtain ⟨l₂, _, h₂, _, h⟩ := h.of_bind
  obtain ⟨l₃, consumed, h₃, hs₃, h⟩ := h.of_bind
  obtain ⟨l₄, _, h₄, _, h⟩ := h.of_bind
  have hl₄ : l₃ <:+ l₄ := h₄.suffix
  obtain ⟨l₅, session, h₅, hs₅, h⟩ := h.of_bind
  obtain ⟨l₆, scope, h₆, _, h⟩ := h.of_bind
  obtain ⟨l₇, roles, _, _, h⟩ := h.of_bind
  obtain ⟨l₈, permissions, h₈, hs₈, h⟩ := h.of_bind
  obtain ⟨l₉, signed, h₉, hs₉, h⟩ := h.of_bind
  obtain ⟨l₁₀, _, _, _, h⟩ := h.of_bind
  obtain ⟨l₁₁, expires, _, _, h⟩ := h.of_bind
  cases (returns_pure.1 h).2
  obtain ⟨hr, hi⟩ := RefreshTokenService.consume_ok (catchRefreshErrors_ok h₃)
  obtain ⟨hf, hact⟩ := requireActiveSession_ok h₅
  exact ⟨consumed.row, session,
    { identified := ⟨clientId, hid hsuffix⟩
      authenticated := authenticateClient_ok h₂
      bound := checkBinding_ok h₄
      rotated := ⟨refreshToken, (requireText_ok h₁).1, l₃, hr, hf.mono hl₄ hs₅⟩
      active := hact
      access := ⟨_, roles, permissions, (returns_done.1 h₆).2.symm, h₈.saw.mono hs₈,
        (JwtService.signAccessToken_ok h₉).mono hs₉⟩
      refresh := ⟨consumed.nextToken, rfl, hi.mono hs₃⟩ }⟩

theorem clientCredentialsGrant_ok {form : TokenForm} {basicAuth : Option BasicAuth}
    {clientId : String} {client : OAuthClientRow} {response : TokenResponse}
    (hid : ∀ {l}, l₀ <:+ l → Identified l form basicAuth clientId client)
    (h : (clientCredentialsGrant P form client (presentedSecret form basicAuth) ctx).Returns
      l₀ l (.ok response)) :
    ClientCredentialsGrant P l form basicAuth client response := by
  have hsuffix := h.suffix
  obtain ⟨_, _, _, _, h⟩ := h.of_bind
  obtain ⟨_, _, _, _, h⟩ := h.of_bind
  obtain ⟨_, _, _, _, h⟩ := h.of_bind
  obtain ⟨_, _, _, _, h⟩ := h.of_bind
  obtain ⟨_, _, _, _, h⟩ := h.of_bind
  obtain ⟨_, _, _, _, h⟩ := h.of_bind
  obtain ⟨l₇, signed, h₇, hs₇, h⟩ := h.of_bind
  obtain ⟨_, _, _, _, h⟩ := h.of_bind
  obtain ⟨_, _, _, _, h⟩ := h.of_bind
  cases (returns_pure.1 h).2
  exact ⟨⟨clientId, hid hsuffix⟩, ⟨_, (JwtService.signAccessToken_ok h₇).mono hs₇⟩, rfl⟩

theorem token_ok {form : TokenForm} {basicAuth : Option BasicAuth} {response : TokenResponse}
    (h : (token P form basicAuth ctx).Returns l₀ l (.ok response)) :
    Granted P l (.token form basicAuth) (.tokens response) := by
  obtain ⟨l₁, clientId, h₁, _, h⟩ := h.of_bind
  obtain ⟨l₂, found, h₂, hs₂, h⟩ := h.of_bind
  obtain ⟨l₃, client, h₃, _, h⟩ := h.of_bind
  obtain ⟨hl₃, hfound⟩ := returns_orThrow_ok.1 h₃
  obtain ⟨hread, hact⟩ := Option.filter_eq_some_iff.1 hfound
  have hid : ∀ {l}, l₃ <:+ l → Identified l form basicAuth clientId client := fun hl =>
    ⟨(requireText_ok h₁).1, hread ▸ h₂.saw.mono (hl₃ ▸ hl), by simpa using hact⟩
  split at h
  · rename_i hform
    obtain ⟨codeRow, session, grant⟩ := authorizationCodeGrant_ok hid h
    exact .code hform grant
  · rename_i hform
    obtain ⟨row, session, grant⟩ := refreshTokenGrant_ok hid h
    exact .oauthRefresh hform grant
  · rename_i hform
    exact .clientCredentials hform (clientCredentialsGrant_ok hid h)

end OAuthService

/-- **There is no other way to a token.** -/
theorem granted {incoming : Incoming} {response : Response} {token : Jws}
    (h : (AuthServer.handler P incoming).Returns l₀ l (.ok response))
    (ht : response.accessToken? = some token) : Granted P l incoming.request response := by
  obtain ⟨request, ctx⟩ := incoming
  cases request with
  | login email password =>
      obtain ⟨l₁, result, h₁, hs₁, h⟩ := h.of_bind
      obtain ⟨rfl, hr⟩ := returns_pure.1 h
      cases hr
      cases result with
      | mfaRequired mfaChallengeId => cases ht
      | success result =>
          obtain ⟨row, session, grant⟩ := AuthService.login_ok h₁
          exact .login grant
  | refresh refreshToken =>
      obtain ⟨l₁, result, h₁, hs₁, h⟩ := h.of_bind
      obtain ⟨rfl, hr⟩ := returns_pure.1 h
      cases hr
      obtain ⟨row, session, grant⟩ := AuthService.refresh_ok h₁
      exact .refresh grant
  | mfaVerify bearer body =>
      obtain ⟨l₁, user, _, _, h⟩ := h.of_bind
      cases body with
      | challenge mfaChallengeId code =>
          obtain ⟨l₂, result, h₂, _, h⟩ := h.of_bind
          obtain ⟨rfl, hr⟩ := returns_pure.1 h
          cases hr
          obtain ⟨session, grant⟩ := AuthService.completeMfaChallenge_ok h₂
          exact .challenge grant
      | enrollment code =>
          obtain ⟨_, _, _, _, h⟩ := h.of_bind
          obtain ⟨_, _, _, _, h⟩ := h.of_bind
          obtain ⟨_, _, _, _, h⟩ := h.of_bind
          cases (returns_pure.1 h).2
          cases ht
  | token form basicAuth =>
      obtain ⟨l₁, result, h₁, _, h⟩ := h.of_bind
      obtain ⟨rfl, hr⟩ := returns_pure.1 h
      cases hr
      exact OAuthService.token_ok h₁
  | _ =>
      have hnone : response.accessToken? = none := by
        refine h.ensured (Q := fun r => r.accessToken? = none) ?_
        repeat refine .bind fun _ => ?_
        exact .pure rfl
      rw [hnone] at ht
      cases ht

end IdentityPlatform
