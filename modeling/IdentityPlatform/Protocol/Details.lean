/-
# Details of statements

What the reasons of a statement leave out: the key a token is signed with, what an access
token that claims a second factor rests on, and which sessions are created as behind a
second factor.
-/

import IdentityPlatform.Protocol.Justified

namespace IdentityPlatform

open Interleaving Program

variable {P : Platform} {request : Request} {l₀ l : ServerLog} {ctx : RequestContext}

/-- The claims list the authentication method `mfa`. -/
def JwtPayload.ClaimsMfa (payload : JwtPayload) : Prop := "mfa" ∈ payload.amr.getD []

instance {payload : JwtPayload} : Decidable payload.ClaimsMfa :=
  inferInstanceAs (Decidable (_ ∈ _))

/-- What a claimed second factor rests on: the request verifies a challenge, or the session
was read as one behind a second factor. -/
def FactorSeen (request : Request) (l : ServerLog) (sid : Option String) : Prop :=
  (∃ bearer body, request = .mfaVerify bearer body) ∨
    ∃ id session, l.Saw (.sessions (.selectById id)) (.ok (some session)) ∧
      session.mfaPassed = true ∧ sid = some session.id

/-- A token is signed with a key that was the current one when the call asked, and claims a
second factor only where one was seen.  A session is created as behind a second factor only
for a client. -/
def Stmt.Detailed (request : Request) (l : ServerLog) : Stmt → Prop
  | .kms (.sign kid payload) => l.Saw (.kms .currentSigningKey) (.ok kid) ∧
      (payload.ClaimsMfa → ∃ sid, FactorSeen request l sid ∧ payload.sid = sid.filter (· ≠ ""))
  | .sessions (.insert data) => data.mfaPassed = true → data.clientId.isSome = true
  | _ => True

theorem detailed_of_plain {α : Type} {p : Prog α} (h : Respects Stmt.Plain l₀ p) :
    Respects (Stmt.Detailed request) l₀ p :=
  h.mono fun l s _ hs => by
    unfold Stmt.Detailed
    split
    · exact hs.elim
    · exact hs.elim
    · trivial

theorem FactorSeen.mono {sid : Option String} {l' : ServerLog} (h : FactorSeen request l sid)
    (hl : l <:+ l') : FactorSeen request l' sid := by
  rcases h with h | ⟨id, session, hread, hpassed, hsid⟩
  · exact .inl h
  · exact .inr ⟨id, session, hread.mono hl, hpassed, hsid⟩

theorem signAccessToken_detailed {input : AccessTokenInput}
    (h : "mfa" ∈ input.amr.getD [] → FactorSeen request l₀ input.sid) :
    Respects (Stmt.Detailed request) l₀ (JwtService.signAccessToken P input) := by
  refine .bind (by simp [Stmt.Detailed]) fun l₁ kid h₁ => ?_
  refine .bind (by simp [Stmt.Detailed]) fun l₂ ms h₂ => ?_
  refine .bind (by simp [Stmt.Detailed]) fun l₃ jti h₃ => ?_
  refine .bind (respects_query.2 ⟨?_, fun hclaims => ⟨input.sid, ?_, rfl⟩⟩) fun l₄ _ _ => by simp
  · exact h₁.saw.mono (h₂.suffix.trans h₃.suffix)
  · exact (h hclaims).mono (h₁.suffix.trans (h₂.suffix.trans h₃.suffix))

theorem signIdToken_detailed {claims : IdTokenClaims} {audience subject : String} {ttl : ℕ} :
    Respects (Stmt.Detailed request) l₀ (JwtService.signIdToken P claims audience subject ttl) := by
  refine .bind (by simp [Stmt.Detailed]) fun l₁ kid h₁ => ?_
  refine .bind (by simp [Stmt.Detailed]) fun l₂ ms h₂ => respects_query.2 ⟨?_, fun hclaims => ?_⟩
  · exact h₁.saw.mono h₂.suffix
  · cases hclaims

@[simp] theorem issue_detailed {params : RefreshIssue} :
    Respects (Stmt.Detailed request) l₀ (RefreshTokenService.issue P params) := by
  simp [RefreshTokenService.issue, Stmt.Detailed]

@[simp] theorem consume_detailed {token : String} :
    Respects (Stmt.Detailed request) l₀ (RefreshTokenService.consume P token) := by
  refine .bind (by simp [Stmt.Detailed]) fun l₁ rotated _ => ?_
  cases rotated with
  | none => exact detailed_of_plain (by simp)
  | some row => simp

theorem issueSessionTokensForSession_detailed {sessionId userId : String} {amr : List String}
    (h : "mfa" ∈ amr → ∃ bearer body, request = .mfaVerify bearer body) :
    Respects (Stmt.Detailed request) l₀
      (AuthService.issueSessionTokensForSession P sessionId userId amr ctx) := by
  refine .bind (by simp [UserRepository.findById, Stmt.Detailed]) fun l₁ found _ => ?_
  refine .bind (by simp) fun l₂ user _ => ?_
  refine .bind (by simp [UserRepository.rolesOf, Stmt.Detailed]) fun l₃ roles _ => ?_
  refine .bind (by simp [UserRepository.permissionsOf, Stmt.Detailed]) fun l₄ permissions _ => ?_
  refine .bind (signAccessToken_detailed fun hclaims => .inl (h hclaims)) fun l₅ signed _ => ?_
  refine .bind (by simp) fun l₆ refresh _ => ?_
  refine .bind (by simp [UserRepository.setLastLogin, Stmt.Detailed]) fun l₇ _ _ => ?_
  refine .bind (by simp [UserRepository.clearLockAndFailures, Stmt.Detailed]) fun l₈ _ _ => ?_
  exact detailed_of_plain (by simp)

theorem login_detailed {email password : String} :
    Respects (Stmt.Detailed request) l₀ (AuthService.login P email password ctx) := by
  refine .bind ?_ fun l₁ row _ => .bind (detailed_of_plain (by simp)) fun l₂ action _ => ?_
  · refine .bind (by simp [UserRepository.findByEmail, Stmt.Detailed]) fun l found _ => ?_
    simp [AuthService.rejectUnknown, AuthService.rejectPassword, UserRepository.recordFailedLogin,
      UserRepository.lockUntil, detailed_of_plain, Stmt.Detailed]
  refine .bind (by simp [MfaService.hasActiveMethod, Stmt.Detailed]) fun l₃ hasMfa _ => ?_
  refine respects_ite.2 ⟨fun _ => ?_, fun _ => ?_⟩
  · simp [AuthService.createLoginSession, SessionRepository.create, MfaService.createLoginChallenge,
      Stmt.Detailed]
  · refine .bind (.bind ?_ fun l₄ session _ => ?_) fun l _ _ => by simp
    · simp [AuthService.createLoginSession, SessionRepository.create, Stmt.Detailed]
    · exact issueSessionTokensForSession_detailed (by simp)

theorem completeMfaChallenge_detailed {bearer : Option WireToken} {mfaChallengeId code : String}
    (hrequest : request = .mfaVerify bearer (.challenge mfaChallengeId code)) :
    Respects (Stmt.Detailed request) l₀
      (AuthService.completeMfaChallenge P mfaChallengeId code ctx) := by
  refine .bind ?_ fun l₁ sessionId _ => .bind (detailed_of_plain (by simp)) fun l₂ found _ => ?_
  · refine .bind (by simp [Stmt.Detailed]) fun l stored _ => .bind (by simp) fun l challenge _ => ?_
    refine .bind (by simp [Stmt.Detailed]) fun l _ _ =>
      .bind ?_ fun l _ _ => by simp [Stmt.Detailed]
    refine .bind (by simp [Stmt.Detailed]) fun l active _ => ?_
    split <;> simp [MfaService.rejectCode, Stmt.Detailed]
  refine .bind (by simp) fun l₃ session _ => .bind (detailed_of_plain (by simp)) fun l₄ _ _ => ?_
  exact issueSessionTokensForSession_detailed fun _ => ⟨bearer, _, hrequest⟩

theorem refresh_detailed {refreshToken : String} :
    Respects (Stmt.Detailed request) l₀ (AuthService.refresh P refreshToken ctx) := by
  refine respects_tryCatch.2 ⟨?_, fun l e _ => detailed_of_plain (by simp)⟩
  refine .bind consume_detailed fun l₁ consumed _ => ?_
  refine .bind (detailed_of_plain (by simp)) fun l₂ session h₂ => ?_
  refine .bind (by simp [UserRepository.rolesOf, Stmt.Detailed]) fun l₃ roles h₃ => ?_
  refine .bind (by simp [UserRepository.permissionsOf, Stmt.Detailed]) fun l₄ permissions h₄ => ?_
  refine .bind (signAccessToken_detailed fun hclaims => .inr ?_) fun l₅ signed _ => ?_
  · obtain ⟨hread, _⟩ := OAuthService.requireActiveSession_ok h₂
    refine ⟨_, session, hread.saw.mono (h₃.suffix.trans h₄.suffix), ?_, rfl⟩
    by_contra hpassed
    simp [hpassed] at hclaims
  · exact detailed_of_plain (by simp [SessionRepository.touch, Stmt.Plain])

/-! ### The token endpoint -/

theorem catchReplay_detailed {α : Type} {p : Prog α} (hp : Respects Stmt.Plain l₀ p) :
    Respects (Stmt.Detailed request) l₀ (OAuthService.catchReplay p ctx) := by
  refine respects_tryCatch.2 ⟨detailed_of_plain hp, fun l e h => ?_⟩
  cases e with
  | codeReplay userId clientRef =>
      simp [OAuthService.handleCodeReplay, AuthorizationCodeRepository.revokeTokensForReplay,
        detailed_of_plain, Stmt.Detailed]
  | _ => simp

theorem issueUserTokens_detailed {userId scope : String} {client : OAuthClientRow}
    {nonce : Option String} :
    Respects (Stmt.Detailed request) l₀
      (OAuthService.issueUserTokens P userId client scope nonce ctx) := by
  refine .bind (by simp [UserRepository.rolesOf, Stmt.Detailed]) fun l₁ roles _ => ?_
  refine .bind (by simp [UserRepository.permissionsOf, Stmt.Detailed]) fun l₂ permissions _ => ?_
  refine .bind (by simp [SessionRepository.create, Stmt.Detailed]) fun l₃ session _ => ?_
  refine .bind (signAccessToken_detailed (by simp)) fun l₄ signed _ => ?_
  refine .bind (by simp) fun l₅ refresh _ => ?_
  refine .bind ?_ fun l₆ idToken _ => detailed_of_plain (by simp)
  unfold OAuthService.issueIdToken
  refine respects_ite.2 ⟨fun _ => ?_, fun _ => by simp⟩
  refine .bind (by simp [UserRepository.findById, Stmt.Detailed]) fun l₇ user _ => ?_
  exact .bind signIdToken_detailed fun l₈ token _ => by simp

theorem token_detailed {form : TokenForm} {basicAuth : Option BasicAuth} :
    Respects (Stmt.Detailed request) l₀ (OAuthService.token P form basicAuth ctx) := by
  refine .bind (by simp [requireText]) fun l₁ clientId _ => ?_
  refine .bind (by simp [ClientRepository.findByClientId, Stmt.Detailed]) fun l₂ found _ => ?_
  refine .bind (by simp) fun l₃ client _ => ?_
  split
  · refine .bind (by simp [requireText]) fun l _ _ => .bind (by simp [requireText]) fun l _ _ => ?_
    refine .bind (by simp [requireText]) fun l _ _ =>
      .bind (detailed_of_plain (by simp)) fun l _ _ => ?_
    refine .bind (catchReplay_detailed (by simp)) fun l _ _ => .bind (by simp) fun l _ _ => ?_
    refine .bind (by simp [requireText]) fun l _ _ => .bind (by simp) fun l _ _ => ?_
    refine .bind (catchReplay_detailed (by simp)) fun l _ _ => .bind (by simp) fun l _ _ => ?_
    exact issueUserTokens_detailed
  · refine .bind (by simp [requireText]) fun l _ _ =>
      .bind (detailed_of_plain (by simp)) fun l _ _ => ?_
    refine .bind (respects_tryCatch.2 ⟨consume_detailed, fun l e _ => detailed_of_plain (by simp)⟩)
      fun l _ _ => ?_
    refine .bind (detailed_of_plain (by simp)) fun l _ _ =>
      .bind (detailed_of_plain (by simp)) fun l _ _ => ?_
    refine .bind (fun _ _ h => h.elim) fun l scope _ => ?_
    refine .bind (by simp [UserRepository.rolesOf, Stmt.Detailed]) fun l roles _ => ?_
    refine .bind (by simp [UserRepository.permissionsOf, Stmt.Detailed]) fun l permissions _ => ?_
    refine .bind (signAccessToken_detailed (by simp)) fun l signed _ => ?_
    exact detailed_of_plain (by simp)
  · refine .bind (by simp) fun l _ _ => .bind (by simp) fun l _ _ => ?_
    refine .bind (detailed_of_plain (by simp)) fun l _ _ => .bind (by simp) fun l _ _ => ?_
    refine .bind (by simp) fun l _ _ => .bind (by simp) fun l _ _ => ?_
    refine .bind (signAccessToken_detailed (by simp)) fun l signed _ => ?_
    exact detailed_of_plain (by simp)

/-! ### Every handler -/

/-- **Every statement of every handler has its details.** -/
theorem handler_detailed (incoming : Incoming) :
    Respects (Stmt.Detailed incoming.request) [] (AuthServer.handler P incoming) := by
  obtain ⟨request, ctx⟩ := incoming
  cases request with
  | login email password => exact .bind login_detailed fun l _ _ => by simp
  | refresh refreshToken => exact .bind refresh_detailed fun l _ _ => by simp
  | token form basicAuth => exact .bind token_detailed fun l _ _ => by simp
  | mfaVerify bearer body =>
      refine .bind (detailed_of_plain (by simp)) fun l user _ => ?_
      cases body with
      | challenge mfaChallengeId code => 
          exact .bind (completeMfaChallenge_detailed rfl) fun l _ _ => by simp
      | enrollment code =>
          simp [MfaService.confirmEnroll, detailed_of_plain, Stmt.Detailed]
  | register input => exact detailed_of_plain (.bind register_plain fun l user _ => by simp)
  | logout bearer allSessions refreshToken =>
      exact detailed_of_plain (.bind (by simp) fun l user _ => by simp)
  | forgotPassword email =>
      exact detailed_of_plain (.bind forgotPassword_plain fun l _ _ => by simp)
  | introspect token basicAuth => exact detailed_of_plain introspect_plain
  | me bearer => exact detailed_of_plain (.bind (by simp) fun l user _ => by simp)
  | userinfo bearer => exact detailed_of_plain userinfo_plain
  | verifyEmail token =>
      simp [AuthServer.handler, UserService.verifyEmail, EmailTokenService.consumeEmailVerification,
        UserRepository.markVerified, detailed_of_plain, Stmt.Detailed]
  | resetPassword token password =>
      simp [AuthServer.handler, AuthService.resetPassword, EmailTokenService.consumePasswordReset,
        hashPassword, UserRepository.updatePasswordHash, detailed_of_plain, Stmt.Detailed]
  | mfaEnroll bearer =>
      simp [AuthServer.handler, AuthServer.mfaEnroll, MfaService.getEmailForUser,
        MfaService.beginEnroll, detailed_of_plain, Stmt.Detailed]
  | mfaDisable bearer code =>
      simp [AuthServer.handler, AuthServer.mfaDisable, MfaService.disable, detailed_of_plain,
        Stmt.Detailed]
  | setRolePermissions bearer id names =>
      simp [AuthServer.handler, RbacRepository.setRolePermissions, detailed_of_plain, Stmt.Detailed]
  | setUserRoles bearer id names =>
      simp [AuthServer.handler, RbacRepository.setUserRoles, detailed_of_plain, Stmt.Detailed]
  | setUserStatus bearer id disabled =>
      simp [AuthServer.handler, RbacRepository.setUserStatus, detailed_of_plain, Stmt.Detailed]
  | createClient bearer data =>
      refine .bind (detailed_of_plain (by simp)) fun l user _ => .bind (by simp) fun l _ _ => ?_
      refine .bind ?_ fun l _ _ => detailed_of_plain (by simp)
      refine .bind (by simp [Stmt.Detailed]) fun l clientId _ => ?_
      split <;> simp [Stmt.Detailed]
  | rotateClientSecret bearer id =>
      simp [AuthServer.handler, ClientRepository.rotateSecret, detailed_of_plain, Stmt.Detailed]
  | setClientStatus bearer id status =>
      simp [AuthServer.handler, ClientRepository.setStatus, detailed_of_plain, Stmt.Detailed]
  | authorize bearer input state =>
      simp [AuthServer.handler, AuthServer.authorize, OAuthService.authorize,
        UserRepository.findById, requireText, AuthorizationCodeRepository.issue,
        detailed_of_plain, Stmt.Detailed]
  | revoke token =>
      simp [AuthServer.handler, OAuthService.revoke, OAuthService.revokeAccessToken,
        TokenRevocationService.revokeUntil, detailed_of_plain, Stmt.Detailed]

end IdentityPlatform
