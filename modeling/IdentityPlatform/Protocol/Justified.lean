/-
# Why a statement is issued

`handler_justified`: every handler has a reason for each statement it issues that
needs one.  From there on invariants are proved over reasons, not over handlers.
-/

import IdentityPlatform.Protocol.Reasons

namespace IdentityPlatform

open Interleaving Program

variable {P : Platform} {request : Request} {l₀ l : ServerLog} {ctx : RequestContext}

theorem justified_of_plain {α : Type} {p : Prog α} (h : Respects Stmt.Plain l₀ p) :
    Respects (Justified P request) l₀ p :=
  h.mono fun l s _ hs => by
    unfold Justified
    split <;> trivial

/-! ### Plain functions -/

@[simp] theorem respects_query {Q : ServerLog → Stmt → Prop} {s : Stmt} :
    @Respects statements Err World (no_index s.Ans) Q l₀ (query s) ↔ Q l₀ s :=
  respects_perform

@[simp] theorem record_plain {event : AuditEvent} :
    Respects Stmt.Plain l₀ (AuditLogService.record event) := by
  simp [AuditLogService.record, Stmt.Plain]

@[simp] theorem signingKey_plain {kid : Option String} :
    Respects Stmt.Plain l₀ (JwtService.signingKey kid) := by
  unfold JwtService.signingKey
  split <;> simp [Stmt.Plain]

@[simp] theorem verifyAccessToken_plain {token : WireToken} :
    Respects Stmt.Plain l₀ (JwtService.verifyAccessToken token) := by
  cases token <;>
    simp [JwtService.verifyAccessToken, JwtService.checkAccessToken,
      TokenRevocationService.isRevoked, Stmt.Plain]

@[simp] theorem authenticate_plain {bearer : Option WireToken} :
    Respects Stmt.Plain l₀ (authenticate bearer) := by
  simp [authenticate]

@[simp] theorem maybeAuthenticate_plain {bearer : Option WireToken} :
    Respects Stmt.Plain l₀ (maybeAuthenticate bearer) := by
  cases bearer <;> simp [maybeAuthenticate]

@[simp] theorem admin_plain {bearer : Option WireToken} {permission : String} :
    Respects Stmt.Plain l₀ (AuthServer.admin bearer permission) := by
  simp [AuthServer.admin, requirePermission]

@[simp] theorem loadFresh_plain {id : String} :
    Respects Stmt.Plain l₀ (SessionRepository.loadFresh id) := by
  refine .bind (by simp [Stmt.Plain]) fun l row _ => ?_
  cases row <;> simp [Stmt.Plain]

@[simp] theorem findById_plain {id : String} :
    Respects Stmt.Plain l₀ (SessionRepository.findById id) := by
  refine .bind (by simp [Stmt.Plain]) fun l cached _ => ?_
  cases cached with
  | none => simp
  | some session =>
      refine respects_ite.2 ⟨fun _ => by simp, fun _ => .bind (by simp) fun l fresh _ => ?_⟩
      cases fresh <;> simp [Stmt.Plain]

@[simp] theorem revoke_plain {id reason : String} :
    Respects Stmt.Plain l₀ (SessionRepository.revoke id reason) := by
  simp [SessionRepository.revoke, Stmt.Plain]

@[simp] theorem revokeAllForUser_plain {id reason : String} :
    Respects Stmt.Plain l₀ (SessionRepository.revokeAllForUser id reason) := by
  simp [SessionRepository.revokeAllForUser, Stmt.Plain]

@[simp] theorem handleReuseOrInvalid_plain {hash : String} :
    Respects Stmt.Plain l₀ (RefreshTokenService.handleReuseOrInvalid hash) := by
  refine .bind (by simp [Stmt.Plain]) fun l known _ => ?_
  cases known <;> simp [Stmt.Plain]

@[simp] theorem revokeByToken_plain {token : WireToken} :
    Respects Stmt.Plain l₀ (RefreshTokenService.revokeByToken P token) := by
  simp [RefreshTokenService.revokeByToken, Stmt.Plain]

@[simp] theorem requireActiveSession_plain {row : RefreshTokenRow} {e : Err} :
    Respects Stmt.Plain l₀ (OAuthService.requireActiveSession row e) := by
  refine .bind (by simp) fun l found _ => ?_
  split <;> simp [RefreshTokenService.revokeFamily, Stmt.Plain]

@[simp] theorem verifySecret_plain {client : OAuthClientRow} {secret : String} :
    Respects Stmt.Plain l₀ (ClientRepository.verifySecret P client secret) := by
  unfold ClientRepository.verifySecret
  split <;> simp

@[simp] theorem secretVerifies_plain {client : OAuthClientRow} {secret : Option String} :
    Respects Stmt.Plain l₀ (OAuthService.secretVerifies P client secret) := by
  unfold OAuthService.secretVerifies
  split <;> simp

@[simp] theorem requireSecret_plain {client : OAuthClientRow} {secret : Option String} :
    Respects Stmt.Plain l₀ (OAuthService.requireSecret P client secret ctx) := by
  simp [OAuthService.requireSecret, OAuthService.recordClientAuthFailure]

@[simp] theorem authenticateClient_plain {client : OAuthClientRow} {secret : Option String} :
    Respects Stmt.Plain l₀ (OAuthService.authenticateClient P client secret ctx) := by
  unfold OAuthService.authenticateClient
  split <;> simp

@[simp] theorem checkBinding_plain {token : String} {row : RefreshTokenRow}
    {client : OAuthClientRow} :
    Respects Stmt.Plain l₀ (OAuthService.checkBinding P token row client ctx) := by
  simp [OAuthService.checkBinding]

@[simp] theorem expiresIn_plain {signed : SignedToken} :
    Respects Stmt.Plain l₀ (expiresIn signed) := by
  simp [expiresIn, Stmt.Plain]

@[simp] theorem requireText_plain {value : Option String} {e : Err} :
    Respects Stmt.Plain l₀ (requireText value e) := by
  simp [requireText]

@[simp] theorem peek_plain {params : PresentedCode} :
    Respects Stmt.Plain l₀ (AuthorizationCodeRepository.peek P params) := by
  refine .bind (by simp [Stmt.Plain]) fun l existing _ => ?_
  cases existing with
  | none => simp
  | some row => simp [AuthorizationCodeRepository.checkRow, Stmt.Plain]

@[simp] theorem consume_plain {params : PresentedCode} :
    Respects Stmt.Plain l₀ (AuthorizationCodeRepository.consume P params) := by
  refine .bind (by simp) fun l checked _ => ?_
  cases checked with
  | none => simp
  | some row =>
      refine .bind (by simp [Stmt.Plain]) fun l updated _ => ?_
      cases updated <;> simp

@[simp] theorem isKnownDevice_plain {userId : String} :
    Respects Stmt.Plain l₀ (AuthService.isKnownDevice P userId ctx) := by
  unfold AuthService.isKnownDevice
  split
  · refine .bind (by simp [Stmt.Plain]) fun l seen _ => ?_
    split <;> simp [Stmt.Plain]
  · simp

@[simp] theorem evaluateLogin_plain {input : LoginRiskInput} :
    Respects Stmt.Plain l₀ (RulesRiskEngine.evaluateLogin P input) := by
  have hfrequency : ∀ l : ServerLog, Respects Stmt.Plain l
      (RulesRiskEngine.ipFrequencySignal input.userId input.ip) := by
    intro l
    unfold RulesRiskEngine.ipFrequencySignal
    split <;> simp [Stmt.Plain]
  have htravel : ∀ l : ServerLog, Respects Stmt.Plain l (RulesRiskEngine.travelSignal P input) := by
    intro l
    unfold RulesRiskEngine.travelSignal
    split <;> simp [Stmt.Plain]
  simp [RulesRiskEngine.evaluateLogin, RulesRiskEngine.failedLoginsSignal, hfrequency, htravel,
    Stmt.Plain]

@[simp] theorem evaluateRisk_plain {userId : String} :
    Respects Stmt.Plain l₀ (AuthService.evaluateRisk P userId ctx) := by
  simp [AuthService.evaluateRisk, recordRiskEvent, Stmt.Plain]

@[simp] theorem checkPasswordPolicy_plain {password : String} :
    Respects Stmt.Plain l₀ (checkPasswordPolicy P password) := by
  unfold checkPasswordPolicy
  split <;> simp

@[simp] theorem checkAuthorizeRequest_plain {input : AuthorizeInput} {userId : Option String} :
    Respects Stmt.Plain l₀ (OAuthService.checkAuthorizeRequest input userId ctx) := by
  simp [OAuthService.checkAuthorizeRequest, ClientRepository.findByClientId,
    OAuthService.recordDenied, Stmt.Plain]

@[simp] theorem recordAdmin_plain {eventType : String} {user : AuthenticatedUser}
    {metadata : List (String × AuditValue)} :
    Respects Stmt.Plain l₀ (AuthServer.recordAdmin eventType user ctx metadata) := by
  simp [AuthServer.recordAdmin]

/-! ### Plain handlers -/

@[simp] theorem register_plain {input : RegisterInput} :
    Respects Stmt.Plain l₀ (UserService.register P input ctx) := by
  simp [UserService.register, UserRepository.findByEmail, hashPassword, UserRepository.create,
    UserRepository.addRole, EmailTokenService.issueEmailVerification, Stmt.Plain]

@[simp] theorem logout_plain {userId : String} {sessionId refreshToken : Option String}
    {allSessions : Bool} :
    Respects Stmt.Plain l₀
      (AuthService.logout P userId sessionId allSessions refreshToken ctx) := by
  cases allSessions <;> simp [AuthService.logout]

@[simp] theorem forgotPassword_plain {email : String} :
    Respects Stmt.Plain l₀ (AuthService.forgotPassword P email ctx) := by
  refine .bind ?_ fun l found _ => ?_
  · simp [UserRepository.findByEmail, Stmt.Plain]
  · split <;> simp [EmailTokenService.issuePasswordReset, Stmt.Plain]

@[simp] theorem introspect_plain {token : WireToken} {basicAuth : Option BasicAuth} :
    Respects Stmt.Plain l₀ (AuthServer.introspect P token basicAuth ctx) := by
  refine .bind (by simp) fun l basic _ => ?_
  refine .bind (by simp [ClientRepository.findByClientId, Stmt.Plain]) fun l client _ => ?_
  cases client <;> simp [AuthServer.introspectionSecretVerifies, OAuthService.introspect]

@[simp] theorem me_plain {userId : String} : Respects Stmt.Plain l₀ (AuthService.me userId) := by
  simp [AuthService.me, UserRepository.findById, UserRepository.rolesOf,
    UserRepository.permissionsOf, MfaService.hasActiveMethod, Stmt.Plain]

@[simp] theorem userinfo_plain {bearer : Option WireToken} :
    Respects Stmt.Plain l₀ (AuthServer.userinfo bearer) := by
  refine .bind (by simp) fun l user _ => ?_
  simp [UserRepository.findById, Stmt.Plain]

/-! ### Tokens -/

/-- The insertion of a first token directly follows the generation of its family. -/
theorem issue_first {params : RefreshIssue} (hroot : params.previousTokenId = none)
    (hfamily : params.familyId = none) (h : ∀ l token familyId, l₀ <:+ l →
      RefreshReason P request l (RefreshTokenService.issueData P params token familyId)) :
    Respects (Justified P request) l₀ (RefreshTokenService.issue P params) := by
  refine .bind (by simp [Justified]) fun l₁ token h₁ => ?_
  refine .bind (by simp [Justified]) fun l₂ familyId h₂ => ?_
  have hgenerated : Log.Next l₁ l₂ (.runtime .randomUuid) (.ok familyId) := by
    rcases returns_orDo_ok.1 h₂ with ⟨hf, _⟩ | ⟨_, hf⟩
    · rw [hfamily] at hf
      cases hf
    · exact hf.next
  refine .bind (respects_query.2 ⟨?_, .first hroot hgenerated, token, h₁.saw.mono h₂.suffix, rfl⟩)
    fun l₃ _ _ => by simp [Justified]
  exact h l₂ token familyId (h₁.suffix.trans h₂.suffix)

/-- The insertion of a successor directly follows the rotation of `row`. -/
theorem issue_successor {hash : String} {row : RefreshTokenRow}
    (hrotated : Log.Next l l₀ (.refreshTokens (.rotate hash)) (.ok (some row))) :
    Respects (Justified P request) l₀
      (RefreshTokenService.issue P (RefreshTokenService.successor row)) := by
  refine .bind (by simp [Justified]) fun l₁ token h₁ => ?_
  refine .bind (by simp [Justified]) fun l₂ familyId h₂ => ?_
  obtain ⟨hfamily, rfl⟩ : some row.familyId = some familyId ∧ l₂ = l₁ := by
    rcases returns_orDo_ok.1 h₂ with hf | ⟨hn, _⟩
    · exact hf
    · cases hn
  obtain rfl := Option.some.inj hfamily
  have hsaw : l₂.Saw (.refreshTokens (.rotate hash)) (.ok (some row)) := by
    obtain ⟨n, pre, post, rfl⟩ := hrotated
    exact ⟨n, pre, post, h₁.suffix.subset (List.mem_cons_self ..)⟩
  refine .bind (respects_query.2 ⟨.rotation hsaw, .successor hrotated h₁.next rfl, token, h₁.saw,
    rfl⟩) fun l₃ _ _ => by simp [Justified]

/-- The statements of `consume`. -/
theorem consume_justified {token : String} :
    Respects (Justified P request) l₀ (RefreshTokenService.consume P token) := by
  refine .bind (by simp [Justified]) fun l₁ rotated h₁ => ?_
  cases rotated with
  | none => exact .bind (justified_of_plain (by simp)) fun l _ _ => by simp
  | some row => exact .bind (issue_successor h₁.next) fun l₂ next _ => by simp

theorem signAccessToken_justified {input : AccessTokenInput}
    (h : ∀ l, l₀ <:+ l → TokenReason P request l input) :
    Respects (Justified P request) l₀ (JwtService.signAccessToken P input) := by
  refine .bind (by simp [Justified]) fun l₁ kid h₁ => ?_
  refine .bind (by simp [Justified]) fun l₂ ms h₂ => ?_
  refine .bind (by simp [Justified]) fun l₃ jti h₃ => ?_
  refine .bind (respects_query.2 (.inl ⟨input, jti, ms, ?_, h₃.saw, h₂.saw.mono h₃.suffix, rfl⟩))
    fun l₄ token _ => by simp
  exact h l₃ (h₁.suffix.trans (h₂.suffix.trans h₃.suffix))

theorem signIdToken_justified {claims : IdTokenClaims} {audience subject : String} {ttl : ℕ} :
    Respects (Justified P request) l₀ (JwtService.signIdToken P claims audience subject ttl) := by
  refine .bind (by simp [Justified]) fun l₁ kid _ => ?_
  refine .bind (by simp [Justified]) fun l₂ ms _ => ?_
  exact respects_query.2 (.inr ⟨claims, audience, subject, _, ttl, rfl⟩)

/-! ### Passwords and second factors -/

theorem FailedCheck.mono {row : UserRow} {l' : ServerLog} (h : FailedCheck P request l row)
    (hl : l <:+ l') : FailedCheck P request l' row := by
  obtain ⟨email, password, hrequest, hread, hwrong⟩ := h.login
  exact ⟨⟨email, password, hrequest, hread.mono hl, hwrong⟩, h.enabled⟩

/-- A wrong password is recorded, and locks the account once there are too many. -/
theorem rejectPassword_justified {row : UserRow} (hfailed : FailedCheck P request l₀ row) :
    Respects (Justified P request) l₀ (AuthService.rejectPassword P row ctx) := by
  refine .bind (respects_query.2 ⟨row, hfailed, rfl⟩) fun l₁ _ h₁ => ?_
  refine .bind (respects_onlyIf.2 fun hmax => ?_) fun l₂ _ _ => justified_of_plain (by simp)
  refine .bind (by simp [Justified]) fun l₃ now h₃ => ?_
  refine .bind (respects_query.2 ⟨⟨row, ?_, rfl, hmax⟩, ?_, now, h₃.saw, rfl⟩) fun l₄ _ _ =>
    justified_of_plain (by simp)
  · exact hfailed.mono (h₁.suffix.trans h₃.suffix)
  · exact h₁.saw.mono h₃.suffix

theorem checkCredentials_justified {email password : String}
    (hrequest : request = .login email password) :
    Respects (Justified P request) l₀ (AuthService.checkCredentials P email password ctx) := by
  refine .bind (by simp [UserRepository.findByEmail, Justified]) fun l₁ found h₁ => ?_
  refine .bind ?_ fun l₂ user h₂ => ?_
  · simp [AuthService.rejectUnknown, justified_of_plain]
  obtain ⟨rfl, rfl⟩ : found = some user ∧ l₂ = l₁ := by
    rcases returns_orDo_ok.1 h₂ with hf | ⟨_, hf⟩
    · exact hf
    · exact (AuthService.rejectUnknown_fails hf).elim
  refine .bind (by simp [Justified]) fun l₃ now h₃ => ?_
  refine .bind (by simp) fun l₄ _ h₄ => ?_
  refine .bind (by simp) fun l₅ _ h₅ => ?_
  refine .bind (respects_onlyIf.2 fun hwrong => ?_) fun l₆ _ _ => by simp
  obtain ⟨hl₄, henabled⟩ := returns_throwIf_ok.1 h₄
  refine rejectPassword_justified ⟨⟨email, password, hrequest, ?_, hwrong⟩, henabled⟩
  exact h₁.saw.mono (h₃.suffix.trans (h₄.suffix.trans h₅.suffix))

/-- A wrong code only makes the challenge fail. -/
theorem rejectCode_fails {mfaChallengeId : String} {challenge : MfaChallengePayload}
    {method : MfaMethodRow} :
    ¬(MfaService.rejectCode P mfaChallengeId challenge).Returns l₀ l (.ok method) := by
  intro h
  obtain ⟨_, _, _, _, h⟩ := h.of_bind
  cases (returns_throw.1 h).2

/-- The method that accepts a code was active when it was read. -/
theorem checkChallengeCode_ok {mfaChallengeId code : String} {challenge : MfaChallengePayload}
    {method : MfaMethodRow}
    (h : (MfaService.checkChallengeCode P mfaChallengeId code challenge).Returns l₀ l
      (.ok method)) :
    method.secret ≠ "" ∧
      l.Saw (.mfaMethods (.selectByStatus challenge.userId .active)) (.ok (some method)) ∧
      l.Saw (.runtime (.totpCheck code method.secret)) (.ok true) := by
  obtain ⟨l₁, active, h₁, hs₁, h⟩ := h.of_bind
  split at h
  · exact (rejectCode_fails h).elim
  · rename_i method' hmethod
    obtain ⟨rfl, hsecret⟩ := Option.filter_eq_some_iff.1 hmethod
    obtain ⟨l₂, ok, h₂, hs₂, h⟩ := h.of_bind
    split_ifs at h with hok
    · cases (returns_pure.1 h).2
      exact ⟨by simpa using hsecret, h₁.saw.mono hs₁, hok ▸ h₂.saw.mono hs₂⟩
    · exact (rejectCode_fails h).elim

/-- The session of a challenge that has been passed. -/
theorem MfaService.verifyLoginChallenge_ok {mfaChallengeId code sessionId : String}
    (h : (MfaService.verifyLoginChallenge P mfaChallengeId code).Returns l₀ l (.ok sessionId)) :
    ∃ challenge, challenge.sessionId = sessionId ∧
      PassedChallenge l mfaChallengeId code challenge := by
  obtain ⟨l₁, stored, h₁, hs₁, h⟩ := h.of_bind
  obtain ⟨l₂, challenge, h₂, hs₂, h⟩ := h.of_bind
  obtain ⟨l₃, _, _, _, h⟩ := h.of_bind
  obtain ⟨l₄, method, h₄, hs₄, h⟩ := h.of_bind
  obtain ⟨l₅, _, _, _, h⟩ := h.of_bind
  obtain ⟨l₆, _, _, _, h⟩ := h.of_bind
  obtain ⟨l₇, _, _, _, h⟩ := h.of_bind
  cases (returns_pure.1 h).2
  obtain rfl := (returns_orThrow_ok.1 h₂).2
  obtain ⟨hsecret, hselected, hchecked⟩ := checkChallengeCode_ok h₄
  exact ⟨challenge, rfl, h₁.saw.mono hs₁, method, hsecret, hselected.mono hs₄, hchecked.mono hs₄⟩

theorem PassedChallenge.mono {mfaChallengeId code : String} {challenge : MfaChallengePayload}
    {l' : ServerLog} (h : PassedChallenge l mfaChallengeId code challenge) (hl : l <:+ l') :
    PassedChallenge l' mfaChallengeId code challenge := by
  obtain ⟨hread, method, hsecret, hselected, hchecked⟩ := h
  exact ⟨hread.mono hl, method, hsecret, hselected.mono hl, hchecked.mono hl⟩

/-- A wrong code is counted. -/
theorem rejectCode_justified {bearer : Option WireToken} {mfaChallengeId code : String}
    {challenge : MfaChallengePayload}
    (hrequest : request = .mfaVerify bearer (.challenge mfaChallengeId code))
    (hread : l₀.Saw (.redis (.getChallenge (.mfaChallenge mfaChallengeId)))
      (.ok (some challenge))) :
    Respects (Justified P request) l₀ (MfaService.rejectCode P mfaChallengeId challenge) :=
  .bind (respects_query.2 (.wrongCode hrequest hread)) fun l _ _ => by simp

theorem verifyLoginChallenge_justified {bearer : Option WireToken} {mfaChallengeId code : String}
    (hrequest : request = .mfaVerify bearer (.challenge mfaChallengeId code)) :
    Respects (Justified P request) l₀
      (MfaService.verifyLoginChallenge P mfaChallengeId code) := by
  refine .bind (by simp [Justified]) fun l₁ stored h₁ => ?_
  refine .bind (by simp) fun l₂ challenge h₂ => ?_
  refine .bind (by simp [Justified]) fun l₃ _ h₃ => ?_
  obtain ⟨rfl, rfl⟩ := returns_orThrow_ok.1 h₂
  refine .bind ?_ fun l₄ method h₄ => .bind (respects_query.2 ?_) fun l _ _ => by simp [Justified]
  · refine .bind (by simp [Justified]) fun l₅ active h₅ => ?_
    have hread := h₁.saw.mono (h₃.suffix.trans h₅.suffix)
    split
    · exact rejectCode_justified hrequest hread
    · refine .bind (by simp [Justified]) fun l₆ ok h₆ => ?_
      exact respects_ite.2 ⟨fun _ => by simp, fun _ =>
        rejectCode_justified hrequest (hread.mono h₆.suffix)⟩
  · refine ⟨bearer, mfaChallengeId, code, challenge, hrequest, ?_, rfl⟩
    exact ⟨h₁.saw.mono (h₃.suffix.trans h₄.suffix), method, checkChallengeCode_ok h₄⟩

/-- An enrollment that a code confirms. -/
theorem confirmEnroll_justified {bearer : Option WireToken} {userId code : String}
    (hrequest : request = .mfaVerify bearer (.enrollment code)) :
    Respects (Justified P request) l₀ (MfaService.confirmEnroll userId code) := by
  refine .bind (by simp [Justified]) fun l₁ pending h₁ => ?_
  refine .bind (by simp) fun l₂ method h₂ => ?_
  refine .bind (by simp [Justified]) fun l₃ ok h₃ => ?_
  refine .bind (by simp) fun l₄ _ h₄ => ?_
  obtain ⟨rfl, rfl⟩ := returns_orThrow_ok.1 h₂
  obtain ⟨rfl, hok⟩ := returns_throwIf_ok.1 h₄
  obtain rfl : ok = true := by simpa using hok
  refine .bind (respects_query.2 ⟨bearer, code, method, hrequest, h₁.saw.mono h₃.suffix, h₃.saw⟩)
    fun l₅ _ h₅ => respects_query.2 (.enabled h₅.next)

theorem disable_justified {bearer : Option WireToken} {userId code : String}
    (hrequest : request = .mfaDisable bearer code) :
    Respects (Justified P request) l₀ (MfaService.disable userId code) := by
  refine .bind (by simp [Justified]) fun l₁ active h₁ => ?_
  refine .bind (by simp) fun l₂ method h₂ => ?_
  refine .bind (by simp [Justified]) fun l₃ ok h₃ => ?_
  refine .bind (by simp) fun l₄ _ h₄ => ?_
  obtain ⟨rfl, rfl⟩ := returns_orThrow_ok.1 h₂
  obtain ⟨rfl, hok⟩ := returns_throwIf_ok.1 h₄
  obtain rfl : ok = true := by simpa using hok
  have hchecked : CheckedMethod l₄ userId code .active method := ⟨h₁.saw.mono h₃.suffix, h₃.saw⟩
  refine .bind (respects_query.2 ⟨bearer, code, userId, method, hrequest, hchecked, rfl⟩)
    fun l₅ _ h₅ => respects_query.2 (.disabled hrequest ?_ h₅.next)
  exact ⟨hchecked.1.mono h₅.suffix, hchecked.2.mono h₅.suffix⟩

/-! ### Logins and refreshes -/

theorem issueSessionTokensForSession_justified {sessionId userId : String} {amr : List String}
    (hsign : ∀ (l : ServerLog) roles permissions, l₀ <:+ l →
      l.Saw (.rbac (.rolesOf userId)) (.ok roles) →
      TokenReason P request l
        { sub := userId, scope := defaultScopeForRoles roles, roles := roles
          permissions := permissions, sid := some sessionId, amr := some amr })
    (hreason : ∀ l roles token familyId, l₀ <:+ l → RefreshReason P request l
      (RefreshTokenService.issueData P
        { sessionId := sessionId, userId := userId, scope := defaultScopeForRoles roles }
        token familyId)) :
    Respects (Justified P request) l₀
      (AuthService.issueSessionTokensForSession P sessionId userId amr ctx) := by
  refine .bind (by simp [UserRepository.findById, Justified]) fun l₁ found h₁ => ?_
  refine .bind (by simp) fun l₂ user h₂ => ?_
  refine .bind (by simp [UserRepository.rolesOf, Justified]) fun l₃ roles h₃ => ?_
  refine .bind (by simp [UserRepository.permissionsOf, Justified]) fun l₄ permissions h₄ => ?_
  have hl₄ := h₁.suffix.trans (h₂.suffix.trans (h₃.suffix.trans h₄.suffix))
  refine .bind (signAccessToken_justified fun l hl => ?_) fun l₅ signed h₅ => ?_
  · exact hsign l roles permissions (hl₄.trans hl) (h₃.saw.mono (h₄.suffix.trans hl))
  refine .bind (issue_first rfl rfl fun l token familyId hl => ?_) fun l₆ refresh h₆ => ?_
  · exact hreason l roles token familyId (hl₄.trans (h₅.suffix.trans hl))
  refine .bind (by simp [UserRepository.setLastLogin, Justified]) fun l₇ _ h₇ => ?_
  refine .bind (respects_query.2 ?_) fun l₈ _ _ => ?_
  · obtain ⟨_, familyId, _, hinsert⟩ := RefreshTokenService.issue_ok h₆
    exact ⟨_, hinsert.mono h₇.suffix, rfl⟩
  · exact justified_of_plain (by simp)

theorem login_justified {email password : String} (hrequest : request = .login email password) :
    Respects (Justified P request) [] (AuthService.login P email password ctx) := by
  refine .bind (checkCredentials_justified hrequest) fun l₁ row h₁ => ?_
  refine .bind (justified_of_plain (by simp)) fun l₂ action h₂ => ?_
  refine .bind (by simp [MfaService.hasActiveMethod, Justified]) fun l₃ hasMfa h₃ => ?_
  have hgates : ∀ {l}, l₃ <:+ l → PassedGates P l email password row := fun hl =>
    (AuthService.checkCredentials_ok h₁).mono (h₂.suffix.trans (h₃.suffix.trans hl))
  have hreason : ∀ {l data}, l₃ <:+ l → data.userId = row.id → SessionReason P request l data :=
    fun hl huser => .login hrequest (hgates hl) huser
  refine respects_ite.2 ⟨fun _ => ?_, fun hno => ?_⟩
  · refine .bind (by simp) fun l₄ _ h₄ => ?_
    obtain ⟨rfl, hfactor⟩ := returns_throwIf_ok.1 h₄
    refine .bind (respects_query.2 (hreason h₄.suffix rfl)) fun l₅ session h₅ => ?_
    refine .bind (.bind (by simp [Justified]) fun l₆ challengeId h₆ => ?_) fun l _ _ => by simp
    obtain rfl : hasMfa = true := by grind
    exact .bind (respects_query.2 (.login hrequest ⟨_, _, _, h₃.next, h₅.next, h₆.suffix⟩ h₆.next))
      fun l _ _ => by simp
  · refine .bind ?_ fun l₄ result _ => by simp
    refine .bind (respects_query.2 (hreason (List.suffix_refl _) rfl)) fun l₅ session h₅ => ?_
    obtain rfl : hasMfa = false := by grind
    have hcreated : ∀ {l}, l₅ <:+ l → CreatedAtLogin l false _ session := fun hl =>
      ⟨_, _, _, h₃.next, h₅.next, hl⟩
    refine issueSessionTokensForSession_justified (fun l roles permissions hl hroles => ?_) ?_
    · exact .login hrequest (hcreated hl) rfl hroles
    · exact fun l roles token familyId hl => .login hrequest (hcreated hl) rfl

theorem completeMfaChallenge_justified {bearer : Option WireToken} {mfaChallengeId code : String}
    (hrequest : request = .mfaVerify bearer (.challenge mfaChallengeId code)) :
    Respects (Justified P request) l₀
      (AuthService.completeMfaChallenge P mfaChallengeId code ctx) := by
  refine .bind (verifyLoginChallenge_justified hrequest) fun l₁ sessionId h₁ => ?_
  refine .bind (justified_of_plain (by simp)) fun l₂ found h₂ => ?_
  refine .bind (by simp) fun l₃ session h₃ => ?_
  refine .bind (justified_of_plain (by simp)) fun l₄ _ h₄ => ?_
  obtain ⟨challenge, rfl, hpassed⟩ := MfaService.verifyLoginChallenge_ok h₁
  obtain ⟨hfound, hact⟩ := Option.filter_eq_some_iff.1 (returns_orThrow_ok.1 h₃).2
  have hactive : session.status = .active := by simpa using hact
  have hsaw := (SessionRepository.findById_active (hfound ▸ h₂) hactive).saw.mono
    (h₃.suffix.trans h₄.suffix)
  have hl₄ := h₂.suffix.trans (h₃.suffix.trans h₄.suffix)
  refine issueSessionTokensForSession_justified (fun l roles permissions hl hroles => ?_) ?_
  · exact .challenge hrequest (hpassed.mono (hl₄.trans hl)) (hsaw.mono hl) hactive hroles
  · exact fun l roles token familyId hl =>
      .challenge hrequest (hpassed.mono (hl₄.trans hl)) (hsaw.mono hl) hactive

theorem refresh_justified {refreshToken : String} (hrequest : request = .refresh refreshToken) :
    Respects (Justified P request) l₀ (AuthService.refresh P refreshToken ctx) := by
  refine respects_tryCatch.2 ⟨?_, fun l e _ => justified_of_plain (by simp)⟩
  refine .bind consume_justified fun l₁ consumed h₁ => ?_
  refine .bind (justified_of_plain (by simp)) fun l₂ session h₂ => ?_
  refine .bind (by simp [UserRepository.rolesOf, Justified]) fun l₃ roles h₃ => ?_
  refine .bind (by simp [UserRepository.permissionsOf, Justified]) fun l₄ permissions h₄ => ?_
  obtain ⟨hsaw, hactive⟩ := OAuthService.requireActiveSession_ok h₂
  refine .bind (signAccessToken_justified fun l hl => ?_) fun l₅ signed _ => ?_
  · have hl₃ := h₄.suffix.trans hl
    exact .refresh hrequest ⟨l₁, (RefreshTokenService.consume_ok h₁).1,
      hsaw.mono (List.suffix_refl _) (h₃.suffix.trans hl₃)⟩ hactive (h₃.saw.mono hl₃)
  · exact justified_of_plain (by simp [SessionRepository.touch, Stmt.Plain])

/-! ### The token endpoint -/

theorem peek_replayed {params : PresentedCode} {userId clientRef : String}
    (h : (AuthorizationCodeRepository.peek P params).Returns l₀ l
      (.error (.codeReplay userId clientRef))) :
    Replayed P l params.code userId clientRef := by
  rcases h.error_of_bind with h₁ | ⟨l₁, existing, h₁, hs₁, h⟩
  · exact .inr ⟨_, h₁.saw⟩
  · cases existing with
    | none => cases (returns_pure.1 h).2
    | some row =>
        simp only [AuthorizationCodeRepository.checkRow] at h
        split_ifs at h with hb hc
        · cases (returns_pure.1 h).2
        · cases (returns_throw.1 h).2
          exact .inl ⟨row, h₁.saw.mono hs₁, rfl, rfl, .inl hc⟩
        · rcases Returns.error_of_bind h with h₂ | ⟨l₂, now, _, _, h⟩
          · exact .inr ⟨_, h₂.saw⟩
          · split_ifs at h <;> cases (returns_pure.1 h).2

theorem consume_replayed {params : PresentedCode} {userId clientRef : String}
    (h : (AuthorizationCodeRepository.consume P params).Returns l₀ l
      (.error (.codeReplay userId clientRef))) :
    Replayed P l params.code userId clientRef := by
  rcases h.error_of_bind with h₁ | ⟨l₁, checked, h₁, hs₁, h⟩
  · exact peek_replayed h₁
  · cases checked with
    | none => cases (returns_pure.1 h).2
    | some row =>
        have hpeeked := AuthorizationCodeRepository.peek_ok h₁
        rcases Returns.error_of_bind h with h₂ | ⟨l₂, updated, h₂, hs₂, h⟩
        · exact .inr ⟨_, h₂.saw⟩
        · cases updated with
          | none =>
              cases (returns_throw.1 h).2
              exact .inl ⟨row, hpeeked.read.mono hs₁, rfl, rfl,
                .inr ⟨l₁, hpeeked.read, h₂.step.mono hs₂⟩⟩
          | some codeRow => cases (returns_pure.1 h).2

/-- The revocation after a replay. -/
theorem catchReplay_justified {α : Type} {p : Prog α} {form : TokenForm}
    {basicAuth : Option BasicAuth} {code : String} (hrequest : request = .token form basicAuth)
    (hcode : form.code = some code) (hp : Respects Stmt.Plain l₀ p)
    (hreplay : ∀ l userId clientRef, p.Returns l₀ l (.error (.codeReplay userId clientRef)) →
      Replayed P l code userId clientRef) :
    Respects (Justified P request) l₀ (OAuthService.catchReplay p ctx) := by
  refine respects_tryCatch.2 ⟨justified_of_plain hp, fun l e h => ?_⟩
  cases e with
  | codeReplay userId clientRef =>
      have hreason : ReplayReason P request l userId clientRef :=
        ⟨form, basicAuth, code, hrequest, hcode, hreplay l userId clientRef h⟩
      refine .bind (.bind (respects_query.2 hreason) fun l₁ _ _ => ?_) fun l₂ _ _ => by simp
      exact justified_of_plain (by simp)
  | _ => simp

theorem issueUserTokens_justified {form : TokenForm} {basicAuth : Option BasicAuth}
    {clientId code redirectUri : String} {client : OAuthClientRow} {row : JoinedRow}
    {codeRow : AuthorizationCodeRow} (hrequest : request = .token form basicAuth)
    (hgrant : form.grantType = .authorizationCode)
    (hid : Identified l₀ form basicAuth clientId client) (hcode : form.code = some code)
    (hpeeked : AuthorizationCodeRepository.Peeked P l₀ ⟨code, clientId, redirectUri⟩ row)
    (hconsumed : l₀.Saw (.codes (.consume row.code.id)) (.ok (some codeRow))) :
    Respects (Justified P request) l₀ (OAuthService.issueUserTokens P codeRow.userId client
      codeRow.scope codeRow.nonce ctx) := by
  refine .bind (by simp [UserRepository.rolesOf, Justified]) fun l₁ roles h₁ => ?_
  refine .bind (by simp [UserRepository.permissionsOf, Justified]) fun l₂ permissions h₂ => ?_
  have hl₂ := h₁.suffix.trans h₂.suffix
  refine .bind (respects_query.2 ?_) fun l₃ session h₃ => ?_
  · exact .exchange hrequest (hconsumed.mono hl₂) rfl
  have hroles := h₁.saw.mono (h₂.suffix.trans h₃.suffix)
  refine .bind (signAccessToken_justified fun l hl => ?_) fun l₄ signed h₄ => ?_
  · have hl₀ := hl₂.trans (h₃.suffix.trans hl)
    exact .exchange hrequest hgrant { hid with read := hid.read.mono hl₀ } hcode (hpeeked.mono hl₀)
      (hconsumed.mono hl₀) (h₃.saw.mono hl) rfl (hroles.mono hl)
  refine .bind (issue_first rfl rfl fun l token familyId hl => ?_) fun l₅ refresh _ => ?_
  · have hl₀ := hl₂.trans (h₃.suffix.trans (h₄.suffix.trans hl))
    have hid' : Identified l form basicAuth clientId client :=
      { hid with read := hid.read.mono hl₀ }
    exact .exchange hrequest hid' hcode (hpeeked.mono hl₀) (hconsumed.mono hl₀)
      (h₃.saw.mono (h₄.suffix.trans hl)) rfl
  refine .bind ?_ fun l₆ idToken _ => justified_of_plain (by simp)
  unfold OAuthService.issueIdToken
  refine respects_ite.2 ⟨fun _ => ?_, fun _ => by simp⟩
  refine .bind (by simp [UserRepository.findById, Justified]) fun l₇ user _ => ?_
  exact .bind signIdToken_justified fun l₈ token _ => by simp

theorem authorizationCodeGrant_justified {form : TokenForm} {basicAuth : Option BasicAuth}
    {clientId : String} {client : OAuthClientRow} {secret : Option String}
    (hrequest : request = .token form basicAuth) (hgrant : form.grantType = .authorizationCode)
    (hid : ∀ {l}, l₀ <:+ l → Identified l form basicAuth clientId client) :
    Respects (Justified P request) l₀
      (OAuthService.authorizationCodeGrant P form clientId client secret ctx) := by
  refine .bind (by simp [requireText]) fun l₁ code h₁ => ?_
  refine .bind (by simp [requireText]) fun l₂ redirectUri h₂ => ?_
  refine .bind (by simp [requireText]) fun l₃ codeVerifier h₃ => ?_
  refine .bind (justified_of_plain (by simp)) fun l₄ _ h₄ => ?_
  have hcode := (requireText_ok h₁).1
  refine .bind (catchReplay_justified hrequest hcode (by simp) fun _ _ _ => peek_replayed)
    fun l₅ found h₅ => ?_
  refine .bind (by simp) fun l₆ peeked h₆ => ?_
  refine .bind (by simp [requireText]) fun l₇ codeChallenge h₇ => ?_
  refine .bind (by simp) fun l₈ _ h₈ => ?_
  refine .bind (catchReplay_justified hrequest hcode (by simp) fun _ _ _ => consume_replayed)
    fun l₉ consumed h₉ => ?_
  refine .bind (by simp) fun l₁₀ codeRow h₁₀ => ?_
  have hl₉ := h₁.suffix.trans (h₂.suffix.trans (h₃.suffix.trans (h₄.suffix.trans (h₅.suffix.trans
    (h₆.suffix.trans (h₇.suffix.trans (h₈.suffix.trans h₉.suffix)))))))
  obtain ⟨hl₁₀, hrow⟩ := returns_orThrow_ok.1 h₁₀
  obtain ⟨row, l', hpeeked, hstep⟩ :=
    AuthorizationCodeRepository.consume_ok (OAuthService.catchReplay_ok (hrow ▸ h₉))
  subst hl₁₀
  exact issueUserTokens_justified hrequest hgrant (hid hl₉) hcode
    (hpeeked.mono hstep.suffix) hstep.saw

theorem refreshTokenGrant_justified {form : TokenForm} {basicAuth : Option BasicAuth}
    {clientId : String} {client : OAuthClientRow} {secret : Option String}
    (hrequest : request = .token form basicAuth) (hgrant : form.grantType = .refreshToken)
    (hid : ∀ {l}, l₀ <:+ l → Identified l form basicAuth clientId client) :
    Respects (Justified P request) l₀
      (OAuthService.refreshTokenGrant P form client secret ctx) := by
  refine .bind (by simp [requireText]) fun l₁ refreshToken h₁ => ?_
  refine .bind (justified_of_plain (by simp)) fun l₂ _ h₂ => ?_
  refine .bind (respects_tryCatch.2 ⟨consume_justified, fun l e _ => justified_of_plain (by simp)⟩)
    fun l₃ consumed h₃ => ?_
  refine .bind (justified_of_plain (by simp)) fun l₄ _ h₄ => ?_
  refine .bind (justified_of_plain (by simp)) fun l₅ session h₅ => ?_
  refine .bind (fun _ _ h => h.elim) fun l₆ scope h₆ => ?_
  refine .bind (by simp [UserRepository.rolesOf, Justified]) fun l₇ roles h₇ => ?_
  refine .bind (by simp [UserRepository.permissionsOf, Justified]) fun l₈ permissions h₈ => ?_
  obtain ⟨hsaw, hactive⟩ := OAuthService.requireActiveSession_ok h₅
  obtain ⟨rfl, hnarrow⟩ := h₆
  refine .bind (signAccessToken_justified fun l hl => ?_) fun l₉ signed _ => ?_
  · have hl₇ := h₈.suffix.trans hl
    have hl₆ := h₇.suffix.trans hl₇
    have hl₀ := h₁.suffix.trans (h₂.suffix.trans (h₃.suffix.trans (h₄.suffix.trans
      (h₅.suffix.trans hl₆))))
    exact .oauthRefresh hrequest hgrant (hid hl₀) (OAuthService.checkBinding_ok h₄)
      (requireText_ok h₁).1
      ⟨l₃, (RefreshTokenService.consume_ok (OAuthService.catchRefreshErrors_ok h₃)).1,
        hsaw.mono h₄.suffix hl₆⟩ hactive hnarrow.symm (h₇.saw.mono hl₇)
  · exact justified_of_plain (by simp)

theorem clientCredentialsGrant_justified {form : TokenForm} {basicAuth : Option BasicAuth}
    {clientId : String} {client : OAuthClientRow} {secret : Option String}
    (hrequest : request = .token form basicAuth) (hgrant : form.grantType = .clientCredentials)
    (hid : ∀ {l}, l₀ <:+ l → Identified l form basicAuth clientId client) :
    Respects (Justified P request) l₀
      (OAuthService.clientCredentialsGrant P form client secret ctx) := by
  refine .bind (by simp) fun l₁ _ h₁ => .bind (by simp) fun l₂ _ h₂ => ?_
  refine .bind (justified_of_plain (by simp)) fun l₃ _ h₃ => ?_
  refine .bind (by simp) fun l₄ _ h₄ => .bind (by simp) fun l₅ _ h₅ => ?_
  refine .bind (by simp) fun l₆ _ h₆ => ?_
  refine .bind (signAccessToken_justified fun l hl => ?_) fun l₇ signed _ =>
    justified_of_plain (by simp)
  have hl₀ := h₁.suffix.trans (h₂.suffix.trans (h₃.suffix.trans (h₄.suffix.trans
    (h₅.suffix.trans (h₆.suffix.trans hl)))))
  have hallowed := (returns_throwIf_ok.1 h₆).2
  exact .clientCredentials hrequest hgrant (hid hl₀) (by simpa using hallowed)

theorem token_justified {form : TokenForm} {basicAuth : Option BasicAuth}
    (hrequest : request = .token form basicAuth) :
    Respects (Justified P request) l₀ (OAuthService.token P form basicAuth ctx) := by
  refine .bind (by simp [requireText]) fun l₁ clientId h₁ => ?_
  refine .bind (by simp [ClientRepository.findByClientId, Justified]) fun l₂ found h₂ => ?_
  refine .bind (by simp) fun l₃ client h₃ => ?_
  obtain ⟨hl₃, hfound⟩ := returns_orThrow_ok.1 h₃
  obtain ⟨hread, hact⟩ := Option.filter_eq_some_iff.1 hfound
  have hid : ∀ {l}, l₃ <:+ l → Identified l form basicAuth clientId client := fun hl =>
    ⟨(requireText_ok h₁).1, hread ▸ h₂.saw.mono (hl₃ ▸ hl), by simpa using hact⟩
  split
  · exact authorizationCodeGrant_justified hrequest ‹_› hid
  · exact refreshTokenGrant_justified hrequest ‹_› hid
  · exact clientCredentialsGrant_justified hrequest ‹_› hid

/-! ### Every handler -/

/-- Who an authenticated request is from. -/
theorem authenticate_ok {bearer : Option WireToken} {user : AuthenticatedUser}
    (h : (authenticate bearer).Returns l₀ l (.ok user)) :
    ∃ token payload, bearer = some (.jws token) ∧ JwtService.Accepted l token payload ∧
      user = .ofPayload payload := by
  obtain ⟨l₁, presented, h₁, _, h⟩ := h.of_bind
  obtain ⟨l₂, payload, h₂, hs₂, h⟩ := h.of_bind
  cases (returns_pure.1 h).2
  obtain ⟨token, rfl, haccepted⟩ := JwtService.verifyAccessToken_ok h₂
  exact ⟨token, payload, (returns_orThrow_ok.1 h₁).2, haccepted.mono hs₂, rfl⟩

/-- Who an authorization request is from. -/
theorem maybeAuthenticate_ok {bearer : Option WireToken} {user : AuthenticatedUser}
    (h : (maybeAuthenticate bearer).Returns l₀ l (.ok (some user))) :
    ∃ token payload, bearer = some (.jws token) ∧ JwtService.Accepted l token payload ∧
      user = .ofPayload payload := by
  cases bearer with
  | none => cases (returns_pure.1 h).2
  | some wire =>
      obtain ⟨l₁, user', h₁, hs₁, h⟩ := h.of_bind
      cases (returns_pure.1 h).2
      obtain ⟨token, payload, hbearer, haccepted, huser⟩ := authenticate_ok h₁
      exact ⟨token, payload, hbearer, haccepted.mono hs₁, huser⟩

/-- The scopes of an authorization request that has been checked are allowed. -/
theorem checkAuthorizeRequest_ok {input : AuthorizeInput} {userId : Option String}
    {client : OAuthClientRow}
    (h : (OAuthService.checkAuthorizeRequest input userId ctx).Returns l₀ l (.ok client)) :
    l.Saw (.clients (.findByClientId input.clientId)) (.ok (some client)) ∧
      ∀ s ∈ words input.scope, s ∈ client.allowedScopes := by
  obtain ⟨l₁, found, h₁, hs₁, h⟩ := h.of_bind
  obtain ⟨l₂, client', h₂, _, h⟩ := h.of_bind
  obtain ⟨l₃, _, _, _, h⟩ := h.of_bind
  obtain ⟨l₄, _, _, _, h⟩ := h.of_bind
  obtain ⟨l₅, _, h₅, _, h⟩ := h.of_bind
  obtain ⟨l₆, _, _, _, h⟩ := h.of_bind
  obtain ⟨l₇, _, _, _, h⟩ := h.of_bind
  obtain rfl : client = client' := Except.ok.inj (returns_pure.1 h).2
  have hfound := (returns_orThrow_ok.1 h₂).2
  have hallowed := (returns_throwIf_ok.1 h₅).2
  exact ⟨hfound ▸ h₁.saw.mono hs₁, by simpa using hallowed⟩

theorem authorize_justified {bearer : Option WireToken} {input : AuthorizeInput}
    {state : Option String} (hrequest : request = .authorize bearer input state) :
    Respects (Justified P request) l₀ (AuthServer.authorize P bearer input state ctx) := by
  refine .bind (justified_of_plain (by simp)) fun l₁ user h₁ => ?_
  refine .bind ?_ fun l₂ redirect _ => by simp
  refine .bind (justified_of_plain (by simp)) fun l₃ client h₃ => ?_
  refine .bind (by simp [requireText]) fun l₄ userId h₄ => ?_
  refine .bind (by simp [UserRepository.findById, Justified]) fun l₅ found h₅ => ?_
  refine .bind (by simp) fun l₆ _ h₆ => ?_
  refine .bind ?_ fun l₇ code _ => justified_of_plain (by simp)
  refine .bind (by simp [Justified]) fun l₈ code h₈ => ?_
  refine .bind (respects_query.2 ?_) fun l₉ _ _ => by simp
  -- the user is the subject of the presented token
  obtain ⟨user, rfl, hsub⟩ := Option.map_eq_some_iff.1 (requireText_ok h₄).1
  obtain ⟨token, payload, rfl, haccepted, rfl⟩ := maybeAuthenticate_ok h₁
  obtain rfl : payload.sub = userId := hsub
  obtain ⟨hread, hallowed⟩ := checkAuthorizeRequest_ok h₃
  have hl₃ := h₄.suffix.trans (h₅.suffix.trans (h₆.suffix.trans h₈.suffix))
  have hl₄ := h₃.suffix.trans hl₃
  obtain ⟨row, hfound, hactive⟩ : ∃ row, found = some row ∧ row.status = .active := by
    have hany := (returns_throwIf_ok.1 h₆).2
    cases found with
    | none => simp at hany
    | some row => exact ⟨row, rfl, by simpa using hany⟩
  exact ⟨⟨token, input, state, payload, hrequest, haccepted.mono hl₄,
    ⟨row, hfound ▸ h₅.saw.mono (h₆.suffix.trans h₈.suffix), hactive⟩, rfl⟩,
    ⟨client, hread.mono hl₃, hallowed⟩, code, h₈.saw, rfl⟩

/-! ### Administration -/

/-- Who an administrative request is from. -/
theorem admin_ok {bearer : Option WireToken} {permission : String} {user : AuthenticatedUser}
    (h : (AuthServer.admin bearer permission).Returns l₀ l (.ok user)) :
    ∃ token payload, bearer = some (.jws token) ∧ JwtService.Accepted l token payload ∧
      passes permission payload = true := by
  obtain ⟨l₁, user', h₁, hs₁, h⟩ := h.of_bind
  obtain ⟨l₂, _, h₂, hs₂, h⟩ := h.of_bind
  obtain ⟨token, payload, hbearer, haccepted, rfl⟩ := authenticate_ok h₁
  refine ⟨token, payload, hbearer, haccepted.mono hs₁, ?_⟩
  have hgranted := (returns_throwIf_ok.1 h₂).2
  simpa [passes] using hgranted

theorem create_justified {bearer : Option WireToken} {input data : CreateClientData}
    (hrequest : request = .createClient bearer input)
    (hscopes : data.allowedScopes = input.allowedScopes) :
    Respects (Justified P request) l₀ (ClientRepository.create data) := by
  refine .bind (by simp [Justified]) fun l₁ clientId h₁ => ?_
  have hinsert : ∀ {l : ServerLog} {secretHash : Option String}, l₁ <:+ l → Justified P request l
      (.clients (.insert clientId secretHash data)) := fun hl =>
    ⟨bearer, input, hrequest, hscopes, h₁.saw.mono hl⟩
  split
  · refine .bind (by simp [Justified]) fun l₂ secret h₂ => ?_
    refine .bind (by simp [Justified]) fun l₃ secretHash h₃ => ?_
    exact .bind (respects_query.2 (hinsert (h₂.suffix.trans h₃.suffix))) fun l₄ row _ => by simp
  · exact .bind (respects_query.2 (hinsert (List.suffix_refl _))) fun l₂ row _ => by simp

/-- A revoked access token is entered in the list of revoked tokens. -/
theorem revokeAccessToken_justified {token : WireToken} (hrequest : request = .revoke token) :
    Respects (Justified P request) l₀ (OAuthService.revokeAccessToken token ctx) := by
  refine .bind (justified_of_plain (by simp)) fun l₁ payload h₁ => ?_
  obtain ⟨jws, rfl, haccepted⟩ := JwtService.verifyAccessToken_ok h₁
  refine .bind (justified_of_plain (by simp)) fun l₂ _ h₂ => ?_
  refine .bind (respects_whenSome.2 fun jti hjti => respects_onlyIf.2 fun _ => ?_) fun l₃ _ _ =>
    justified_of_plain (by simp)
  refine .bind (by simp [Justified]) fun l₄ now h₄ => ?_
  refine respects_query.2 ⟨jws, payload, now, hrequest, ?_, ?_, h₄.saw, rfl, rfl⟩
  · exact haccepted.mono (h₂.suffix.trans h₄.suffix)
  · exact (Option.filter_eq_some_iff.1 hjti).1

/-! ### The handlers -/

/-- **Every statement of every handler has its reason.** -/
theorem handler_justified (incoming : Incoming) :
    Respects (Justified P incoming.request) [] (AuthServer.handler P incoming) := by
  obtain ⟨request, ctx⟩ := incoming
  cases request with
  | register input => exact justified_of_plain (.bind register_plain fun l user _ => by simp)
  | verifyEmail token =>
      refine .bind (.bind ?_ fun l₁ consumed h₁ => ?_) fun l _ _ => by simp
      · simp [EmailTokenService.consumeEmailVerification, Justified]
      refine .bind (by simp) fun l₂ userId h₂ => ?_
      refine .bind (respects_query.2 ?_) fun l₃ _ _ => justified_of_plain (by simp)
      obtain ⟨l', row, hrow, hs, h₁⟩ := h₁.of_bind
      obtain ⟨rfl, hc⟩ := returns_pure.1 h₁
      obtain ⟨hl₂, hsome⟩ := returns_orThrow_ok.1 h₂
      rw [Except.ok.inj hc] at hsome
      obtain ⟨row, rfl, huser⟩ := Option.map_eq_some_iff.1 hsome
      exact ⟨_, row, hl₂ ▸ hrow.saw, huser⟩
  | login email password => exact .bind (login_justified rfl) fun l _ _ => by simp
  | refresh refreshToken => exact .bind (refresh_justified rfl) fun l _ _ => by simp
  | logout bearer allSessions refreshToken =>
      exact justified_of_plain (.bind (by simp) fun l user _ => by simp)
  | forgotPassword email =>
      exact justified_of_plain (.bind forgotPassword_plain fun l _ _ => by simp)
  | resetPassword token password =>
      refine .bind ?_ fun l _ _ => by simp
      refine .bind (justified_of_plain (by simp)) fun l₁ _ _ => ?_
      refine .bind (by simp [EmailTokenService.consumePasswordReset, Justified]) fun l₂ _ _ => ?_
      refine .bind (by simp) fun l₃ userId _ => ?_
      refine .bind (by simp [hashPassword, Justified]) fun l₄ hash h₄ => ?_
      refine .bind (respects_query.2 ⟨token, password, rfl, h₄.saw⟩) fun l₅ _ _ => ?_
      exact justified_of_plain (by simp)
  | mfaVerify bearer body =>
      refine .bind (justified_of_plain (by simp)) fun l₁ user _ => ?_
      cases body with
      | challenge mfaChallengeId code =>
          exact .bind (completeMfaChallenge_justified rfl) fun l _ _ => by simp
      | enrollment code =>
          refine .bind (by simp) fun l₂ user _ => ?_
          exact .bind (confirmEnroll_justified rfl) fun l _ _ => justified_of_plain (by simp)
  | authorize bearer input state => exact authorize_justified rfl
  | token form basicAuth => exact .bind (token_justified rfl) fun l _ _ => by simp
  | introspect token basicAuth => exact justified_of_plain introspect_plain
  | revoke token =>
      refine .bind (.bind (by simp [RefreshTokenService.revokeByToken, Justified]) ?_) fun l _ _ =>
        by simp
      intro l₁ wasRefresh _
      refine respects_ite.2 ⟨fun _ => justified_of_plain (by simp), fun _ => ?_⟩
      exact respects_tryCatch.2 ⟨revokeAccessToken_justified rfl, fun l e _ => by simp⟩
  | me bearer => exact justified_of_plain (.bind (by simp) fun l user _ => by simp)
  | userinfo bearer => exact justified_of_plain userinfo_plain
  | mfaEnroll bearer =>
      refine .bind (justified_of_plain (by simp)) fun l₁ user _ => ?_
      refine .bind (by simp [MfaService.getEmailForUser, Justified]) fun l₂ email _ => ?_
      refine .bind (.bind (by simp [Justified]) fun l₃ secret _ => ?_) fun l₄ enrollment _ =>
        justified_of_plain (by simp)
      exact .bind (respects_query.2 ⟨bearer, rfl⟩) fun l _ _ => by simp
  | mfaDisable bearer code =>
      refine .bind (justified_of_plain (by simp)) fun l₁ user _ => ?_
      exact .bind (disable_justified rfl) fun l₂ _ _ => justified_of_plain (by simp)
  | setRolePermissions bearer id names | setUserRoles bearer id names =>
      refine justified_of_plain (.bind (by simp) fun l user _ => ?_)
      simp [RbacRepository.setRolePermissions, RbacRepository.setUserRoles, Stmt.Plain]
  | setUserStatus bearer id disabled =>
      refine .bind (justified_of_plain (by simp)) fun l₁ user h₁ => ?_
      refine .bind (respects_query.2 ?_) fun l₂ _ _ => justified_of_plain (by simp)
      obtain ⟨token, payload, rfl, haccepted, hpasses⟩ := admin_ok h₁
      exact ⟨token, payload, id, disabled, rfl, haccepted, hpasses, rfl, rfl⟩
  | createClient bearer data =>
      refine .bind (justified_of_plain (by simp)) fun l₁ user _ => ?_
      refine .bind (by simp) fun l₂ _ _ => ?_
      exact .bind (create_justified rfl rfl) fun l₃ _ _ => justified_of_plain (by simp)
  | rotateClientSecret bearer id | setClientStatus bearer id status =>
      refine justified_of_plain (.bind (by simp) fun l user _ => ?_)
      simp [ClientRepository.rotateSecret, ClientRepository.setStatus, Stmt.Plain]

end IdentityPlatform
