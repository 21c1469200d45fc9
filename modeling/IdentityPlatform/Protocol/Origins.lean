/-
# Origins of accounts, mails and privileges

`Justified` says why a token or a session comes to be.  This is the same for what it leaves
open: the statements that create an account, change a password or mark an address as verified,
the tokens that are mailed, the statements of the administration, and the permissions that are
signed.  `handler_origins` says after what each of them is issued, and that nothing takes a token
off the list of revoked ones.
-/

import IdentityPlatform.Interleaving.Effects
import IdentityPlatform.Protocol.Justified

namespace IdentityPlatform

open Interleaving Program

variable {P : Platform} {request : Request} {l₀ l : ServerLog} {ctx : RequestContext}

/-! ### Origins -/

/-- The mail of a registration. -/
def verificationMail (address token : String) : Mail where
  toAddress := address
  subject := "Verify your email address"
  text := "Welcome! Verify your email with this token:\n\n" ++ token ++
    "\n\nPOST it to /auth/verify-email within 24 hours."
  html := some ("<p>Welcome!</p><p>Verify your email by posting this token to " ++
    "<code>/auth/verify-email</code>:</p><pre>" ++ token ++ "</pre>")

/-- The mail of a forgotten password. -/
def resetMail (P : Platform) (address token : String) : Mail where
  toAddress := address
  subject := "Reset your password"
  text := "Use this token to reset your password:\n\n" ++ token ++ "\n\nExpires in " ++
    toString (P.config.passwordResetTtl / 60) ++ " minutes."

/-- The call has registered the account `row`. -/
def Registered (request : Request) (l : ServerLog) (row : UserRow) : Prop :=
  ∃ input hash, request = .register input ∧
    l.Saw (.users (.insert input.email.toLower hash input.firstName input.lastName)) (.ok row)

/-- The call has read the account `row`, which is not disabled, for a forgotten password. -/
def Forgotten (request : Request) (l : ServerLog) (row : UserRow) : Prop :=
  ∃ email, request = .forgotPassword email ∧
    l.Saw (.users (.findByEmail email.toLower)) (.ok (some row)) ∧ row.status ≠ .disabled

/-- The call has drawn `token`, whose hash is `hash`. -/
def Drawn (P : Platform) (l : ServerLog) (token hash : String) : Prop :=
  l.Saw (.runtime .randomToken) (.ok token) ∧ hash = P.sha256Hex token

/-- Why a mail is sent: it has a token that the call has stored for the account with that
address. -/
inductive MailOrigin (P : Platform) (request : Request) (l : ServerLog) : Mail → Prop
  | verification {row token} (registered : Registered request l row)
      (drawn : l.Saw (.runtime .randomToken) (.ok token))
      (stored : l.Saw (.emailTokens (.insertVerification row.id (P.sha256Hex token)
        row.email.toLower P.config.emailVerificationTtl)) (.ok ())) :
      MailOrigin P request l (verificationMail row.email token)
  | reset {row token} (forgotten : Forgotten request l row)
      (drawn : l.Saw (.runtime .randomToken) (.ok token))
      (stored : l.Saw (.emailTokens (.insertReset row.id (P.sha256Hex token)
        P.config.passwordResetTtl)) (.ok ())) :
      MailOrigin P request l (resetMail P row.email token)

theorem Forgotten.mono {row : UserRow} (h : Forgotten request l₀ row) (hl : l₀ <:+ l) :
    Forgotten request l row := by
  obtain ⟨email, hrequest, hsaw, hstatus⟩ := h
  exact ⟨email, hrequest, hsaw.mono hl, hstatus⟩

theorem Registered.mono {row : UserRow} (h : Registered request l₀ row) (hl : l₀ <:+ l) :
    Registered request l row := by
  obtain ⟨input, hash, hrequest, hsaw⟩ := h
  exact ⟨input, hash, hrequest, hsaw.mono hl⟩

theorem MailOrigin.mono {mail : Mail} (h : MailOrigin P request l₀ mail) (hl : l₀ <:+ l) :
    MailOrigin P request l mail := by
  cases h with
  | verification registered drawn stored =>
      exact .verification (registered.mono hl) (drawn.mono hl) (stored.mono hl)
  | reset forgotten drawn stored =>
      exact .reset (forgotten.mono hl) (drawn.mono hl) (stored.mono hl)

/-- The bearer token of the request was accepted, and has the permission. -/
def Administered (l : ServerLog) (bearer : Option WireToken) (permission : String) : Prop :=
  ∃ token payload, bearer = some (.jws token) ∧ JwtService.Accepted l token payload ∧
    passes permission payload = true

/-- **Why a call issues a statement** after the log `l`. -/
def Origin (P : Platform) (request : Request) (l : ServerLog) : Stmt → Prop
  | .users (.insert email hash _ _) => ∃ input, request = .register input ∧
      email = input.email.toLower ∧
      passwordPolicyError P.config.passwordMinLength input.password = none ∧
      l.Saw (.runtime (.argon2Hash input.password)) (.ok hash)
  | .users (.markVerified id) => ∃ token row, request = .verifyEmail token ∧
      l.Saw (.emailTokens (.consumeVerification (P.sha256Hex token))) (.ok (some row)) ∧
      row.userId = id
  | .users (.updatePasswordHash id hash) => ∃ token password row,
      request = .resetPassword token password ∧
      passwordPolicyError P.config.passwordMinLength password = none ∧
      l.Saw (.emailTokens (.consumeReset (P.sha256Hex token))) (.ok (some row)) ∧
      row.userId = id ∧ l.Saw (.runtime (.argon2Hash password)) (.ok hash)
  | .emailTokens (.insertVerification id hash address ttl) => ∃ row token,
      Registered request l row ∧ Drawn P l token hash ∧ row.id = id ∧ address = row.email.toLower ∧
      ttl = P.config.emailVerificationTtl
  | .emailTokens (.insertReset id hash ttl) => ∃ row token, Forgotten request l row ∧
      Drawn P l token hash ∧ row.id = id ∧ ttl = P.config.passwordResetTtl
  | .emailTokens (.consumeVerification hash) => ∃ token, request = .verifyEmail token ∧
      hash = P.sha256Hex token
  | .emailTokens (.consumeReset hash) => ∃ token password,
      request = .resetPassword token password ∧ hash = P.sha256Hex token
  | .runtime (.sendMail mail) => MailOrigin P request l mail
  | .rbac (.addRole id role) => role = "user" ∧ ∃ row, Registered request l row ∧ row.id = id
  | .rbac (.setUserRoles id roles) => ∃ bearer id', request = .setUserRoles bearer id' roles ∧
      Administered l bearer "users:write" ∧ id = canonicalUuid id'
  | .rbac (.setRolePermissions id names) => ∃ bearer id',
      request = .setRolePermissions bearer id' names ∧ Administered l bearer "roles:write" ∧
      id = canonicalUuid id'
  | .clients (.insert clientId hash data) => ∃ bearer input,
      request = .createClient bearer input ∧ Administered l bearer "clients:write" ∧
      data.clientType = input.clientType ∧ data.allowedScopes = input.allowedScopes ∧
      l.Saw (.runtime .newClientId) (.ok clientId) ∧
      (match data.clientType with
        | .publicClient => hash = none
        | .confidential => ∃ secret hash', hash = some hash' ∧
            l.Saw (.runtime .newClientSecret) (.ok secret) ∧
            l.Saw (.runtime (.argon2Hash secret)) (.ok hash'))
  | .clients (.rotateSecret id hash) => ∃ bearer id' secret,
      request = .rotateClientSecret bearer id' ∧ Administered l bearer "clients:write" ∧
      id = canonicalUuid id' ∧ l.Saw (.runtime .newClientSecret) (.ok secret) ∧
      l.Saw (.runtime (.argon2Hash secret)) (.ok hash)
  | .clients (.setStatus id status) => ∃ bearer id',
      request = .setClientStatus bearer id' status ∧ Administered l bearer "clients:write" ∧
      id = canonicalUuid id'
  | .kms (.sign _ payload) => payload.permissions.getD [] = [] ∨
      l.Saw (.rbac (.permissionsOf payload.sub)) (.ok (payload.permissions.getD []))
  | .redis (.del (.jtiRevoked _)) | .redis (.setAdd (.jtiRevoked _) _)
  | .redis (.setExpire (.jtiRevoked _) _) => False
  | _ => True

/-- The statements that need no origin. -/
def Stmt.Common : Stmt → Prop
  | .users (.insert ..) | .users (.markVerified _) | .users (.updatePasswordHash ..)
  | .emailTokens _ | .runtime (.sendMail _)
  | .rbac (.addRole ..) | .rbac (.setUserRoles ..) | .rbac (.setRolePermissions ..)
  | .clients (.insert ..) | .clients (.rotateSecret ..) | .clients (.setStatus ..)
  | .kms (.sign ..)
  | .redis (.del (.jtiRevoked _)) | .redis (.setAdd (.jtiRevoked _) _)
  | .redis (.setExpire (.jtiRevoked _) _) => False
  | _ => True

theorem Stmt.Common.origin {s : Stmt} (h : s.Common) : Origin P request l s := by
  unfold Origin
  split <;> trivial

theorem origin_of_common {α : Type} {p : Prog α} (h : p.Issues Stmt.Common) :
    Respects (Origin P request) l₀ p :=
  h.respects.mono fun _ _ _ hs => hs.origin

/-! ### Common functions -/

theorem record_common {event : AuditEvent} : (AuditLogService.record event).Issues Stmt.Common :=
  .tryCatch (.perform trivial) fun _ => .pure

theorem signingKey_common {kid : Option String} :
    (JwtService.signingKey kid).Issues Stmt.Common := by
  unfold JwtService.signingKey
  split
  · exact .bind (.perform trivial) fun _ => .pure
  · exact .perform trivial

theorem verifyAccessToken_common {token : WireToken} :
    (JwtService.verifyAccessToken token).Issues Stmt.Common := by
  refine .tryCatch ?_ fun _ => .throw
  cases token with
  | raw => exact .throw
  | jws token =>
      refine .bind .throwIf fun _ => .bind signingKey_common fun _ => .bind .orThrow fun _ => ?_
      refine .bind (.perform trivial) fun _ => .bind (.whenSome fun _ => ?_) fun _ => .pure
      exact .bind (.bind (.perform trivial) fun _ => .pure) fun _ => .throwIf

theorem authenticate_common {bearer : Option WireToken} :
    (authenticate bearer).Issues Stmt.Common :=
  .bind .orThrow fun _ => .bind verifyAccessToken_common fun _ => .pure

theorem maybeAuthenticate_common {bearer : Option WireToken} :
    (maybeAuthenticate bearer).Issues Stmt.Common := by
  cases bearer with
  | none => exact .pure
  | some token => exact .bind authenticate_common fun _ => .pure

theorem admin_common {bearer : Option WireToken} {permission : String} :
    (AuthServer.admin bearer permission).Issues Stmt.Common :=
  .bind authenticate_common fun _ => .bind .throwIf fun _ => .pure

theorem recordAdmin_common {eventType : String} {user : AuthenticatedUser}
    {metadata : List (String × AuditValue)} :
    (AuthServer.recordAdmin eventType user ctx metadata).Issues Stmt.Common := record_common

theorem loadFresh_common {id : String} : (SessionRepository.loadFresh id).Issues Stmt.Common := by
  refine .bind (.perform trivial) fun row => ?_
  cases row with
  | none => exact .pure
  | some session => exact .bind (.perform trivial) fun _ => .pure

theorem findSession_common {id : String} : (SessionRepository.findById id).Issues Stmt.Common := by
  refine .bind (.perform trivial) fun cached => ?_
  cases cached with
  | none => exact loadFresh_common
  | some session =>
      refine .ite .pure (.bind loadFresh_common fun fresh => ?_)
      cases fresh with
      | none => exact .bind (.perform trivial) fun _ => .pure
      | some session => exact .pure

theorem revokeSession_common {id reason : String} :
    (SessionRepository.revoke id reason).Issues Stmt.Common :=
  .bind (.perform trivial) fun _ => .bind (.perform trivial) fun _ => .perform trivial

theorem revokeAllForUser_common {id reason : String} :
    (SessionRepository.revokeAllForUser id reason).Issues Stmt.Common :=
  .bind (.perform trivial) fun _ => .bind (.perform trivial) fun _ =>
    .bind (.perform trivial) fun _ => .bind (.perform trivial) fun _ => .pure

theorem expiresIn_common {signed : SignedToken} : (expiresIn signed).Issues Stmt.Common :=
  .bind (.perform trivial) fun _ => .pure

theorem issueRefresh_common {params : RefreshIssue} :
    (RefreshTokenService.issue P params).Issues Stmt.Common :=
  .bind (.perform trivial) fun _ => .bind (.orDo (.perform trivial)) fun _ =>
    .bind (.perform trivial) fun _ => .bind (.perform trivial) fun _ => .pure

theorem handleReuseOrInvalid_common {hash : String} :
    (RefreshTokenService.handleReuseOrInvalid hash).Issues Stmt.Common := by
  refine .bind (.perform trivial) fun known => ?_
  cases known with
  | none => exact .pure
  | some row => exact .bind (.perform trivial) fun _ => .bind (.perform trivial) fun _ => .throw

theorem consumeRefresh_common {token : String} :
    (RefreshTokenService.consume P token).Issues Stmt.Common := by
  refine .bind (.perform trivial) fun rotated => ?_
  cases rotated with
  | none => exact .bind handleReuseOrInvalid_common fun _ => .throw
  | some row => exact .bind issueRefresh_common fun _ => .pure

theorem revokeByToken_common {token : WireToken} :
    (RefreshTokenService.revokeByToken P token).Issues Stmt.Common :=
  .bind (.perform trivial) fun _ => .pure

theorem requireActiveSession_common {row : RefreshTokenRow} {e : Err} :
    (OAuthService.requireActiveSession row e).Issues Stmt.Common := by
  refine .bind findSession_common fun found => ?_
  split
  · exact .pure
  · exact .bind (.perform trivial) fun _ => .throw

theorem verifySecret_common {client : OAuthClientRow} {secret : String} :
    (ClientRepository.verifySecret P client secret).Issues Stmt.Common := by
  unfold ClientRepository.verifySecret
  split
  · exact .pure
  · exact .orThrow

theorem requireSecret_common {client : OAuthClientRow} {secret : Option String} :
    (OAuthService.requireSecret P client secret ctx).Issues Stmt.Common := by
  refine .bind ?_ fun _ => .onlyIf (.bind record_common fun _ => .throw)
  unfold OAuthService.secretVerifies
  split
  · exact .pure
  · exact verifySecret_common

theorem authenticateClient_common {client : OAuthClientRow} {secret : Option String} :
    (OAuthService.authenticateClient P client secret ctx).Issues Stmt.Common := by
  unfold OAuthService.authenticateClient
  split
  · exact requireSecret_common
  · exact .throwIf

/-! ### Common handlers -/

theorem evaluateLogin_common {input : LoginRiskInput} :
    (RulesRiskEngine.evaluateLogin P input).Issues Stmt.Common := by
  refine .bind (.bind (.perform trivial) fun _ => .pure) fun _ => .bind ?frequency fun _ =>
    .bind ?travel fun _ => .pure
  case frequency =>
    unfold RulesRiskEngine.ipFrequencySignal
    split
    · exact .pure
    · exact .bind (.perform trivial) fun _ => .bind (.perform trivial) fun _ =>
        .bind (.perform trivial) fun _ => .pure
  case travel =>
    unfold RulesRiskEngine.travelSignal
    split
    · exact .bind (.perform trivial) fun _ => .bind (.perform trivial) fun _ => .pure
    · exact .pure

theorem evaluateRisk_common {userId : String} :
    (AuthService.evaluateRisk P userId ctx).Issues Stmt.Common := by
  refine .bind ?known fun _ => .bind evaluateLogin_common fun _ => .bind (.onlyIf record_common)
    fun _ => .bind (.perform trivial) fun _ =>
      .bind (.onlyIf (.bind record_common fun _ => .throw)) fun _ => .pure
  unfold AuthService.isKnownDevice
  split
  · refine .bind (.perform trivial) fun seen => ?_
    split
    · exact .pure
    · exact .bind (.perform trivial) fun _ => .pure
  · exact .pure

theorem checkCredentials_common {email password : String} :
    (AuthService.checkCredentials P email password ctx).Issues Stmt.Common := by
  refine .bind (.perform trivial) fun _ => .bind (.orDo (.bind record_common fun _ => .throw))
    fun _ => .bind (.perform trivial) fun _ => .bind .throwIf fun _ => .bind .throwIf fun _ =>
      .bind (.onlyIf ?rejected) fun _ => .bind .throwIf fun _ => .pure
  refine .bind (.perform trivial) fun _ => .bind (.onlyIf ?_) fun _ =>
    .bind record_common fun _ => .throw
  exact .bind (.perform trivial) fun _ => .bind (.perform trivial) fun _ => record_common

theorem logout_common {userId : String} {sessionId token : Option String} {all : Bool} :
    (AuthService.logout P userId sessionId all token ctx).Issues Stmt.Common :=
  .ite (.bind revokeAllForUser_common fun _ => .bind record_common fun _ => .pure)
    (.bind (.whenSome fun _ => revokeSession_common) fun _ =>
      .bind (.whenSome fun _ => .bind revokeByToken_common fun _ => .pure) fun _ =>
        .bind record_common fun _ => .pure)

theorem verifyLoginChallenge_common {challengeId code : String} :
    (MfaService.verifyLoginChallenge P challengeId code).Issues Stmt.Common := by
  have hreject : ∀ challenge, (MfaService.rejectCode P challengeId challenge).Issues Stmt.Common :=
    fun _ => .bind (.perform trivial) fun _ => .throw
  refine .bind (.perform trivial) fun _ => .bind .orThrow fun _ =>
    .bind (.onlyIf (.bind (.perform trivial) fun _ => .throw)) fun _ => .bind ?checked fun _ =>
      .bind (.perform trivial) fun _ => .bind (.perform trivial) fun _ =>
        .bind (.perform trivial) fun _ => .pure
  refine .bind (.perform trivial) fun _ => ?_
  split
  · exact hreject _
  · exact .bind (.perform trivial) fun _ => .ite .pure (hreject _)

theorem checkAuthorizeRequest_common {input : AuthorizeInput} {userId : Option String} :
    (OAuthService.checkAuthorizeRequest input userId ctx).Issues Stmt.Common :=
  .bind (.perform trivial) fun _ => .bind .orThrow fun _ =>
    .bind (.onlyIf (.bind record_common fun _ => .throw)) fun _ =>
      .bind (.onlyIf (.bind record_common fun _ => .throw)) fun _ => .bind .throwIf fun _ =>
        .bind .throwIf fun _ => .bind .throwIf fun _ => .pure

theorem authorize_common {bearer : Option WireToken} {input : AuthorizeInput}
    {state : Option String} :
    (AuthServer.authorize P bearer input state ctx).Issues Stmt.Common :=
  .bind maybeAuthenticate_common fun _ => .bind (.bind checkAuthorizeRequest_common fun _ =>
    .bind .orThrow fun _ => .bind (.perform trivial) fun _ => .bind .throwIf fun _ =>
      .bind (.bind (.perform trivial) fun _ => .bind (.perform trivial) fun _ => .pure) fun _ =>
        .bind record_common fun _ => .pure) fun _ => .pure

theorem peek_common {params : PresentedCode} :
    (AuthorizationCodeRepository.peek P params).Issues Stmt.Common := by
  refine .bind (.perform trivial) fun existing => ?_
  cases existing with
  | none => exact .pure
  | some row => exact .ite .pure (.ite .throw (.bind (.perform trivial) fun _ => .ite .pure .pure))

theorem consumeCode_common {params : PresentedCode} :
    (AuthorizationCodeRepository.consume P params).Issues Stmt.Common := by
  refine .bind peek_common fun checked => ?_
  cases checked with
  | none => exact .pure
  | some row =>
      refine .bind (.perform trivial) fun updated => ?_
      cases updated with
      | none => exact .throw
      | some row => exact .pure

theorem catchReplay_common {α : Type} {p : Prog α} (h : p.Issues Stmt.Common) :
    (OAuthService.catchReplay p ctx).Issues Stmt.Common := by
  refine .tryCatch h fun err => ?_
  split
  · exact .bind (.bind (.perform trivial) fun _ => record_common) fun _ => .throw
  · exact .throw

theorem introspect_common {token : WireToken} {basicAuth : Option BasicAuth} :
    (AuthServer.introspect P token basicAuth ctx).Issues Stmt.Common := by
  refine .bind .orThrow fun _ => .bind (.perform trivial) fun client => .bind ?_ fun _ =>
    .bind (.onlyIf (.bind record_common fun _ => .throw)) fun _ =>
      .bind (.tryCatch (.bind verifyAccessToken_common fun _ => .pure) fun _ => .pure) fun _ =>
        .pure
  cases client with
  | none => exact .pure
  | some client => exact verifySecret_common

theorem revoke_common {token : WireToken} : (OAuthService.revoke P token ctx).Issues Stmt.Common :=
  .bind revokeByToken_common fun _ => .ite record_common <| .tryCatch
    (.bind verifyAccessToken_common fun _ => .bind (.whenSome fun _ => revokeSession_common)
      fun _ => .bind (.whenSome fun _ => .onlyIf (.bind (.perform trivial) fun _ =>
        .perform trivial)) fun _ => record_common) fun _ => .pure

/-- The requests whose handlers issue statements with an origin. -/
def Request.originates : Request → Bool
  | .register _ | .verifyEmail _ | .forgotPassword _ | .resetPassword .. | .setRolePermissions ..
  | .setUserRoles .. | .createClient .. | .rotateClientSecret .. | .setClientStatus ..
  | .login .. | .refresh _ | .mfaVerify .. | .token .. => true
  | _ => false

/-- All other handlers are common. -/
theorem handler_common {incoming : Incoming} (h : incoming.request.originates = false) :
    (AuthServer.handler P incoming).Issues Stmt.Common := by
  obtain ⟨request, ctx⟩ := incoming
  cases request with
  | register | verifyEmail | forgotPassword | resetPassword | setRolePermissions | setUserRoles
  | createClient | rotateClientSecret | setClientStatus | login | refresh | mfaVerify | token =>
      cases h
  | logout => exact .bind authenticate_common fun _ => .bind logout_common fun _ => .pure
  | me =>
      exact .bind authenticate_common fun _ => .bind (.bind (.perform trivial) fun _ =>
        .bind .orThrow fun _ => .bind (.perform trivial) fun _ => .bind (.perform trivial) fun _ =>
          .bind (.perform trivial) fun _ => .pure) fun _ => .pure
  | mfaEnroll =>
      exact .bind authenticate_common fun _ => .bind (.bind (.perform trivial) fun _ => .orThrow)
        fun _ => .bind (.bind (.perform trivial) fun _ => .bind (.perform trivial) fun _ => .pure)
          fun _ => .bind record_common fun _ => .pure
  | mfaDisable =>
      refine .bind authenticate_common fun _ => .bind ?_ fun _ => .bind record_common fun _ => .pure
      exact .bind (.perform trivial) fun _ => .bind .orThrow fun _ => .bind (.perform trivial)
        fun _ => .bind .throwIf fun _ => .bind (.perform trivial) fun _ => .perform trivial
  | setUserStatus =>
      exact .bind admin_common fun _ => .bind (.perform trivial) fun _ =>
        .bind recordAdmin_common fun _ => .pure
  | authorize => exact authorize_common
  | introspect => exact introspect_common
  | revoke => exact .bind revoke_common fun _ => .pure
  | userinfo =>
      exact .bind authenticate_common fun _ => .bind .throwIf fun _ => .bind (.perform trivial)
        fun _ => .bind .orThrow fun _ => .pure

/-! ### Originating handlers -/

theorem checkPasswordPolicy_common {password : String} :
    (checkPasswordPolicy P password).Issues Stmt.Common := by
  unfold checkPasswordPolicy
  split
  · exact .throw
  · exact .pure

/-- A checked password meets the policy. -/
theorem policy_of_checked {password : String} {u : Unit}
    (h : (checkPasswordPolicy P password).Returns l₀ l (.ok u)) :
    passwordPolicyError P.config.passwordMinLength password = none := by
  unfold checkPasswordPolicy at h
  split at h
  · cases (returns_throw.1 h).2
  · assumption

theorem issueEmailVerification_ok {userId address token : String}
    (h : (EmailTokenService.issueEmailVerification P userId address).Returns l₀ l (.ok token)) :
    l.Saw (.runtime .randomToken) (.ok token) ∧
      l.Saw (.emailTokens (.insertVerification userId (P.sha256Hex token) address.toLower
        P.config.emailVerificationTtl)) (.ok ()) := by
  obtain ⟨l₁, drawn, hdrawn, hs₁, h⟩ := h.of_bind
  obtain ⟨l₂, _, hstored, _, h⟩ := h.of_bind
  obtain ⟨rfl, htoken⟩ := returns_pure.1 h
  obtain rfl := Except.ok.inj htoken
  exact ⟨hdrawn.saw.mono hs₁, hstored.saw⟩

theorem issuePasswordReset_ok {userId token : String}
    (h : (EmailTokenService.issuePasswordReset P userId).Returns l₀ l (.ok token)) :
    l.Saw (.runtime .randomToken) (.ok token) ∧
      l.Saw (.emailTokens (.insertReset userId (P.sha256Hex token)
        P.config.passwordResetTtl)) (.ok ()) := by
  obtain ⟨l₁, drawn, hdrawn, hs₁, h⟩ := h.of_bind
  obtain ⟨l₂, _, hstored, _, h⟩ := h.of_bind
  obtain ⟨rfl, htoken⟩ := returns_pure.1 h
  obtain rfl := Except.ok.inj htoken
  exact ⟨hdrawn.saw.mono hs₁, hstored.saw⟩

theorem register_origins {input : RegisterInput} (hrequest : request = .register input) :
    Respects (Origin P request) l₀ (UserService.register P input ctx) := by
  refine .bind (origin_of_common checkPasswordPolicy_common) fun l₁ _ hpolicy => ?_
  refine .bind (origin_of_common (.perform trivial)) fun l₂ _ _ => ?_
  refine .bind (origin_of_common .throwIf) fun l₃ _ _ => ?_
  refine .bind (origin_of_common (.perform trivial)) fun l₄ hash hhash => ?_
  refine .bind (respects_query.2 ⟨input, hrequest, rfl, policy_of_checked hpolicy, hhash.saw⟩)
    fun l₅ row hrow => ?_
  have hregistered : Registered request l₅ row := ⟨input, hash, hrequest, hrow.saw⟩
  refine .bind (respects_query.2 ⟨rfl, row, hregistered, rfl⟩) fun l₆ _ h₆ => ?_
  refine .bind (origin_of_common record_common) fun l₇ _ h₇ => ?_
  have hs₇ : l₅ <:+ l₇ := h₆.suffix.trans h₇.suffix
  refine .bind (.bind (origin_of_common (.perform trivial)) fun l₈ token hdrawn =>
    .bind (respects_query.2 ⟨row, token, hregistered.mono (hs₇.trans hdrawn.suffix),
      ⟨hdrawn.saw, rfl⟩, rfl, rfl, rfl⟩) fun l₉ _ _ => by simp) fun l₁₀ token hissued => ?_
  obtain ⟨hdrawn, hstored⟩ := issueEmailVerification_ok hissued
  refine .bind (respects_query.2 ?_) fun l₁₁ _ _ => by simp
  exact .verification (hregistered.mono (hs₇.trans hissued.suffix)) hdrawn hstored

theorem forgotPassword_origins {email : String} (hrequest : request = .forgotPassword email) :
    Respects (Origin P request) l₀ (AuthService.forgotPassword P email ctx) := by
  refine .bind (origin_of_common (.perform trivial)) fun l₁ found hfound => ?_
  cases hfilter : found.filter (·.status ≠ .disabled) with
  | none => exact origin_of_common .pure
  | some row =>
      obtain ⟨rfl, hstatus⟩ := Option.filter_eq_some_iff.1 hfilter
      have hforgotten : Forgotten request l₁ row :=
        ⟨email, hrequest, hfound.saw, of_decide_eq_true hstatus⟩
      refine .bind (.bind (origin_of_common (.perform trivial)) fun l₂ token hdrawn =>
        .bind (respects_query.2 ⟨row, token, hforgotten.mono hdrawn.suffix, ⟨hdrawn.saw, rfl⟩, rfl,
          rfl⟩) fun l₃ _ _ => by simp) fun l₄ token hissued => ?_
      obtain ⟨hdrawn, hstored⟩ := issuePasswordReset_ok hissued
      refine .bind (respects_query.2 ?_) fun l₅ _ _ => origin_of_common record_common
      exact .reset (hforgotten.mono hissued.suffix) hdrawn hstored

theorem verifyEmail_origins {token : String} (hrequest : request = .verifyEmail token) :
    Respects (Origin P request) l₀ (UserService.verifyEmail P token ctx) := by
  refine .bind (.bind (respects_query.2 ⟨token, hrequest, rfl⟩) fun l₁ _ _ => by simp)
    fun l₂ consumed hconsumed => .bind (by simp) fun l₃ userId huser =>
      .bind (respects_query.2 ?_) fun l₄ _ _ => origin_of_common record_common
  obtain ⟨l₁, found, hfound, _, hpure⟩ := hconsumed.of_bind
  obtain ⟨rfl, hvalue⟩ := returns_pure.1 hpure
  obtain ⟨rfl, hsome⟩ := returns_orThrow_ok.1 huser
  rw [Except.ok.inj hvalue] at hsome
  obtain ⟨row, rfl, hid⟩ := Option.map_eq_some_iff.1 hsome
  exact ⟨token, row, hrequest, hfound.saw, hid⟩

theorem resetPassword_origins {token password : String}
    (hrequest : request = .resetPassword token password) :
    Respects (Origin P request) l₀ (AuthService.resetPassword P token password ctx) := by
  refine .bind (origin_of_common checkPasswordPolicy_common) fun l₁ _ hpolicy => ?_
  refine .bind (.bind (respects_query.2 ⟨token, password, hrequest, rfl⟩) fun l₂ _ _ => by simp)
    fun l₃ consumed hconsumed => .bind (by simp) fun l₄ userId huser => ?_
  obtain ⟨l₂, found, hfound, _, hpure⟩ := hconsumed.of_bind
  obtain ⟨rfl, hvalue⟩ := returns_pure.1 hpure
  obtain ⟨rfl, hsome⟩ := returns_orThrow_ok.1 huser
  rw [Except.ok.inj hvalue] at hsome
  obtain ⟨row, rfl, hid⟩ := Option.map_eq_some_iff.1 hsome
  refine .bind (origin_of_common (.perform trivial)) fun l₅ hash hhash => ?_
  refine .bind (respects_query.2 ⟨token, password, row, hrequest, policy_of_checked hpolicy,
    hfound.saw.mono hhash.suffix, hid, hhash.saw⟩) fun l₆ _ _ => origin_of_common ?_
  exact .bind revokeAllForUser_common fun _ => .bind record_common fun _ => record_common

/-- The bearer token of an administrative call is an accepted one with the permission. -/
theorem administered {bearer : Option WireToken} {permission : String} {user : AuthenticatedUser}
    (h : (AuthServer.admin bearer permission).Returns l₀ l (.ok user)) :
    Administered l bearer permission := admin_ok h

theorem Administered.mono {l l' : ServerLog} {bearer : Option WireToken} {permission : String}
    (h : Administered l bearer permission) (hs : l <:+ l') : Administered l' bearer permission := by
  obtain ⟨token, payload, hbearer, haccepted, hpasses⟩ := h
  exact ⟨token, payload, hbearer, haccepted.mono hs, hpasses⟩

theorem createClient_origins {bearer : Option WireToken} {input : CreateClientData}
    (hrequest : request = .createClient bearer input) :
    Respects (Origin P request) l₀ (AuthServer.createClient bearer input ctx) := by
  refine .bind (origin_of_common admin_common) fun l₁ _ h₁ => .bind (by simp) fun l₂ _ h₂ =>
    .bind (.bind (origin_of_common (.perform trivial)) fun l₃ clientId h₃ => ?_) fun _ _ _ =>
      origin_of_common (.bind recordAdmin_common fun _ => .pure)
  have hadministered := (administered h₁).mono (h₂.suffix.trans h₃.suffix)
  split
  · rename_i htype
    change input.clientType = .confidential at htype
    refine .bind (origin_of_common (.perform trivial)) fun l₄ secret h₄ =>
      .bind (origin_of_common (.perform trivial)) fun l₅ hash h₅ =>
        .bind (respects_query.2 ?_) fun _ _ _ => by simp
    have hs := h₄.suffix.trans h₅.suffix
    refine ⟨bearer, input, hrequest, hadministered.mono hs, rfl, rfl, h₃.saw.mono hs, ?_⟩
    simp only [htype]
    exact ⟨secret, hash, rfl, h₄.saw.mono h₅.suffix, h₅.saw⟩
  · rename_i htype
    change input.clientType = .publicClient at htype
    refine .bind (respects_query.2 ⟨bearer, input, hrequest, hadministered, rfl, rfl, h₃.saw, ?_⟩)
      fun _ _ _ => by simp
    simp only [htype]

/-! ### Signing handlers -/

/-- The permissions a token is signed with are none, or were read for its subject. -/
theorem signAccessToken_origins {input : AccessTokenInput}
    (h : input.permissions = [] ∨
      l₀.Saw (.rbac (.permissionsOf input.sub)) (.ok input.permissions)) :
    Respects (Origin P request) l₀ (JwtService.signAccessToken P input) := by
  refine .bind (origin_of_common (.perform trivial)) fun l₁ kid h₁ =>
    .bind (origin_of_common (.perform trivial)) fun l₂ ms h₂ =>
      .bind (origin_of_common (.perform trivial)) fun l₃ jti h₃ =>
        .bind (respects_query.2 ?_) fun _ _ _ => by simp
  have hpermissions : (JwtService.accessTokenPayload P input jti (ms / 1000)
      P.config.accessTokenTtl).permissions.getD [] = input.permissions := by
    unfold JwtService.accessTokenPayload
    by_cases hnil : input.permissions = [] <;> simp [hnil]
  change _ ∨ l₃.Saw (.rbac (.permissionsOf input.sub)) _
  rw [hpermissions]
  exact h.imp_right fun hsaw => hsaw.mono (h₁.suffix.trans (h₂.suffix.trans h₃.suffix))

theorem issueIdToken_origins {userId scope : String} {client : OAuthClientRow}
    {nonce : Option String} :
    Respects (Origin P request) l₀ (OAuthService.issueIdToken P userId client scope nonce) := by
  refine respects_ite.2 ⟨fun _ => ?_, fun _ => origin_of_common .pure⟩
  refine .bind (origin_of_common (.perform trivial)) fun _ _ _ => .bind ?_ fun _ _ _ => by simp
  exact .bind (origin_of_common (.perform trivial)) fun _ _ _ =>
    .bind (origin_of_common (.perform trivial)) fun _ _ _ => respects_query.2 (.inl rfl)

theorem issueSessionTokensForSession_origins {id userId : String} {amr : List String} :
    Respects (Origin P request) l₀
      (AuthService.issueSessionTokensForSession P id userId amr ctx) := by
  refine .bind (origin_of_common (.perform trivial)) fun l₁ _ _ =>
    .bind (origin_of_common .orThrow) fun l₂ _ _ =>
      .bind (origin_of_common (.perform trivial)) fun l₃ _ _ =>
        .bind (origin_of_common (.perform trivial)) fun l₄ permissions h₄ =>
          .bind (signAccessToken_origins (.inr h₄.saw)) fun l₅ _ _ => origin_of_common ?_
  exact .bind issueRefresh_common fun _ => .bind (.perform trivial) fun _ =>
    .bind (.perform trivial) fun _ => .bind record_common fun _ => .bind record_common fun _ =>
      .bind expiresIn_common fun _ => .pure

theorem login_origins {email password : String} :
    Respects (Origin P request) l₀ (AuthService.login P email password ctx) := by
  refine .bind (origin_of_common checkCredentials_common) fun _ _ _ =>
    .bind (origin_of_common evaluateRisk_common) fun _ _ _ =>
      .bind (origin_of_common (.perform trivial)) fun _ _ _ =>
        respects_ite.2 ⟨fun _ => origin_of_common ?challenge, fun _ =>
          .bind ?tokens fun _ _ _ => ?_⟩
  case challenge =>
    exact .bind .throwIf fun _ => .bind (.perform trivial) fun _ =>
      .bind (.bind (.perform trivial) fun _ => .bind (.perform trivial) fun _ => .pure) fun _ =>
        .pure
  case tokens =>
    exact .bind (origin_of_common (.perform trivial)) fun _ _ _ =>
      issueSessionTokensForSession_origins
  · exact origin_of_common .pure

theorem refresh_origins {token : String} :
    Respects (Origin P request) l₀ (AuthService.refresh P token ctx) := by
  refine respects_tryCatch.2 ⟨?_, fun _ _ _ =>
    origin_of_common (.bind (.onlyIf record_common) fun _ => .throw)⟩
  refine .bind (origin_of_common consumeRefresh_common) fun _ _ _ =>
    .bind (origin_of_common requireActiveSession_common) fun _ _ _ =>
      .bind (origin_of_common (.perform trivial)) fun _ _ _ =>
        .bind (origin_of_common (.perform trivial)) fun l₄ permissions h₄ =>
          .bind (signAccessToken_origins (.inr h₄.saw)) fun _ _ _ => origin_of_common ?_
  exact .bind (.perform trivial) fun _ => .bind record_common fun _ =>
    .bind expiresIn_common fun _ => .pure

theorem mfaVerify_origins {bearer : Option WireToken} {body : MfaVerifyBody} :
    Respects (Origin P request) l₀ (AuthServer.mfaVerify P bearer body ctx) := by
  refine .bind (origin_of_common maybeAuthenticate_common) fun _ _ _ => ?_
  cases body with
  | challenge challengeId code =>
      refine .bind (.bind (origin_of_common verifyLoginChallenge_common) fun _ _ _ =>
        .bind (origin_of_common findSession_common) fun _ _ _ => .bind (origin_of_common .orThrow)
          fun _ _ _ => .bind (origin_of_common record_common) fun _ _ _ => ?_) fun _ _ _ =>
            origin_of_common .pure
      exact issueSessionTokensForSession_origins
  | enrollment code =>
      refine origin_of_common (.bind .orThrow fun _ => .bind ?_ fun _ =>
        .bind record_common fun _ => .pure)
      exact .bind (.perform trivial) fun _ => .bind .orThrow fun _ => .bind (.perform trivial)
        fun _ => .bind .throwIf fun _ => .bind (.perform trivial) fun _ => .perform trivial

theorem issueUserTokens_origins {userId scope : String} {client : OAuthClientRow}
    {nonce : Option String} :
    Respects (Origin P request) l₀
      (OAuthService.issueUserTokens P userId client scope nonce ctx) := by
  refine .bind (origin_of_common (.perform trivial)) fun _ _ _ =>
    .bind (origin_of_common (.perform trivial)) fun l₂ permissions h₂ =>
      .bind (origin_of_common (.perform trivial)) fun l₃ _ h₃ =>
        .bind (signAccessToken_origins (.inr (h₂.saw.mono h₃.suffix))) fun _ _ _ =>
          .bind (origin_of_common issueRefresh_common) fun _ _ _ =>
            .bind issueIdToken_origins fun _ _ _ => origin_of_common ?_
  exact .bind record_common fun _ => .bind expiresIn_common fun _ => .pure

theorem authorizationCodeGrant_origins {form : TokenForm} {clientId : String}
    {client : OAuthClientRow} {secret : Option String} :
    Respects (Origin P request) l₀
      (OAuthService.authorizationCodeGrant P form clientId client secret ctx) :=
  .bind (origin_of_common .orThrow) fun _ _ _ => .bind (origin_of_common .orThrow) fun _ _ _ =>
    .bind (origin_of_common .orThrow) fun _ _ _ =>
      .bind (origin_of_common authenticateClient_common) fun _ _ _ =>
        .bind (origin_of_common (catchReplay_common peek_common)) fun _ _ _ =>
          .bind (origin_of_common .orThrow) fun _ _ _ =>
            .bind (origin_of_common .orThrow) fun _ _ _ =>
              .bind (origin_of_common .throwIf) fun _ _ _ =>
                .bind (origin_of_common (catchReplay_common consumeCode_common)) fun _ _ _ =>
                  .bind (origin_of_common .orThrow) fun _ _ _ => issueUserTokens_origins

theorem refreshTokenGrant_origins {form : TokenForm} {client : OAuthClientRow}
    {secret : Option String} :
    Respects (Origin P request) l₀ (OAuthService.refreshTokenGrant P form client secret ctx) := by
  have hconsume : ∀ {token}, (OAuthService.catchRefreshErrors (RefreshTokenService.consume P token)
      client ctx).Issues Stmt.Common := .tryCatch consumeRefresh_common fun _ =>
    .ite (.bind record_common fun _ => .throw) (.ite .throw .throw)
  have hbinding : ∀ {token row},
      (OAuthService.checkBinding P token row client ctx).Issues Stmt.Common :=
    .onlyIf (.bind revokeByToken_common fun _ => .bind record_common fun _ => .throw)
  refine .bind (origin_of_common .orThrow) fun _ _ _ =>
    .bind (origin_of_common authenticateClient_common) fun _ _ _ =>
      .bind (origin_of_common hconsume) fun _ _ _ =>
        .bind (origin_of_common hbinding) fun _ _ _ =>
          .bind (origin_of_common requireActiveSession_common) fun _ _ _ =>
            .bind (origin_of_common trivial) fun _ _ _ =>
              .bind (origin_of_common (.perform trivial)) fun _ _ _ =>
                .bind (origin_of_common (.perform trivial)) fun l permissions h =>
                  .bind (signAccessToken_origins (.inr h.saw)) fun _ _ _ => origin_of_common ?_
  exact .bind record_common fun _ => .bind expiresIn_common fun _ => .pure

theorem clientCredentialsGrant_origins {form : TokenForm} {client : OAuthClientRow}
    {secret : Option String} :
    Respects (Origin P request) l₀
      (OAuthService.clientCredentialsGrant P form client secret ctx) := by
  refine .bind (origin_of_common .throwIf) fun _ _ _ => .bind (origin_of_common .throwIf)
    fun _ _ _ => .bind (origin_of_common requireSecret_common) fun _ _ _ =>
      .bind (origin_of_common .throwIf) fun _ _ _ => .bind (origin_of_common .throwIf) fun _ _ _ =>
        .bind (origin_of_common .throwIf) fun _ _ _ =>
          .bind (signAccessToken_origins (.inl rfl)) fun _ _ _ => origin_of_common ?_
  exact .bind record_common fun _ => .bind expiresIn_common fun _ => .pure

theorem token_origins {form : TokenForm} {basicAuth : Option BasicAuth} :
    Respects (Origin P request) l₀ (OAuthService.token P form basicAuth ctx) := by
  refine .bind (origin_of_common .orThrow) fun _ _ _ =>
    .bind (origin_of_common (.perform trivial)) fun _ _ _ =>
      .bind (origin_of_common .orThrow) fun _ _ _ => ?_
  cases form.grantType with
  | authorizationCode => exact authorizationCodeGrant_origins
  | refreshToken => exact refreshTokenGrant_origins
  | clientCredentials => exact clientCredentialsGrant_origins

/-- **Every statement of every handler has its origin.** -/
theorem handler_origins (incoming : Incoming) :
    Respects (Origin P incoming.request) [] (AuthServer.handler P incoming) := by
  cases horiginates : incoming.request.originates with
  | false => exact origin_of_common (handler_common horiginates)
  | true =>
      obtain ⟨request, ctx⟩ := incoming
      cases request with
      | register input => exact .bind (register_origins rfl) fun _ _ _ => by simp
      | verifyEmail token => exact .bind (verifyEmail_origins rfl) fun _ _ _ => by simp
      | forgotPassword email => exact .bind (forgotPassword_origins rfl) fun _ _ _ => by simp
      | resetPassword token password => exact .bind (resetPassword_origins rfl) fun _ _ _ => by simp
      | createClient bearer input => exact createClient_origins rfl
      | login email password => exact .bind login_origins fun _ _ _ => by simp
      | refresh token => exact .bind refresh_origins fun _ _ _ => by simp
      | token form basicAuth => exact .bind token_origins fun _ _ _ => by simp
      | mfaVerify bearer body => exact mfaVerify_origins
      | setRolePermissions bearer id names =>
          refine .bind (origin_of_common admin_common) fun l₁ _ h₁ =>
            .bind (respects_query.2 ⟨bearer, id, rfl, administered h₁, rfl⟩) fun _ _ _ =>
              origin_of_common (.bind recordAdmin_common fun _ => .pure)
      | setUserRoles bearer id roles =>
          refine .bind (origin_of_common admin_common) fun l₁ _ h₁ =>
            .bind (respects_query.2 ⟨bearer, id, rfl, administered h₁, rfl⟩) fun _ _ _ =>
              origin_of_common (.bind recordAdmin_common fun _ => .pure)
      | setClientStatus bearer id status =>
          refine .bind (origin_of_common admin_common) fun l₁ _ h₁ =>
            .bind (respects_query.2 ⟨bearer, id, rfl, administered h₁, rfl⟩) fun _ _ _ =>
              origin_of_common (.bind recordAdmin_common fun _ => .pure)
      | rotateClientSecret bearer id =>
          refine .bind (origin_of_common admin_common) fun l₁ _ h₁ =>
            .bind (.bind (origin_of_common (.perform trivial)) fun l₂ secret h₂ =>
              .bind (origin_of_common (.perform trivial)) fun l₃ hash h₃ =>
                .bind (respects_query.2 ?_) fun _ _ _ => by simp) fun _ _ _ =>
              origin_of_common (.bind recordAdmin_common fun _ => .pure)
          exact ⟨bearer, id, secret, rfl, (administered h₁).mono (h₂.suffix.trans h₃.suffix), rfl,
            h₂.saw.mono h₃.suffix, h₃.saw⟩
      | logout | me | mfaEnroll | mfaDisable | setUserStatus | authorize | introspect | revoke
      | userinfo => cases horiginates

end IdentityPlatform
