/-
# Parameters of UUID columns

Which identifiers the server passes to UUID columns, followed through every handler: those
of rows it has read or inserted, those of paths that the route has checked, and the subject
of the access token of the request.  The first two are UUIDs.  So is the subject of a token
with a session; the subject of a token without one, which a client has been issued for
itself, is the public identifier of the client.
-/

import IdentityPlatform.Interleaving.Contracts
import IdentityPlatform.Protocol.Columns
import IdentityPlatform.Protocol.LoginRoots

namespace IdentityPlatform

open Interleaving Program Relational Machine AuthServer

variable {P : Platform} {ctx : RequestContext} {request : Request} {G : Prop}
  {L : String → Prop} {id userId sessionId : String}

/-! ### What a request does with the subject of its token -/

/-- `authorize` comes to the user: it has to record a refusal, or has no reason for one. -/
def AuthorizeInput.ReachesUser (input : AuthorizeInput) (client : OAuthClientRow) : Prop :=
  client.status ≠ .active ∨ input.redirectUri ∉ client.redirectUris ∨
    (words input.scope).all (· ∈ client.allowedScopes) ∧
      ¬(input.codeChallengeMethod = .plain ∧ client.requirePkce = true) ∧
      isCodeChallenge input.codeChallenge = true

/-- With these claims the request goes on to use their subject as the identifier of a user. -/
def Request.UsesAtOnce : Request → JwtPayload → Prop
  | .logout .. | .me .. | .mfaEnroll .. | .mfaVerify _ (.enrollment _) | .mfaDisable ..
  | .revoke .. => fun _ => True
  | .userinfo .. => fun payload => "openid" ∈ words (payload.scope.getD "")
  | _ => fun _ => False

/-- The answer with which a request goes on to use the subject of its token: that of the
verification; at `authorize` the client; of an administrator the change, which is recorded. -/
def Request.Admits : Request → (s : Stmt) → s.Ans → Prop
  | .authorize _ input _, .clients (.findByClientId _) => fun found =>
      ∃ client, found = some client ∧ input.ReachesUser client
  | .setRolePermissions .., .rbac (.setRolePermissions ..) => fun _ => True
  | .setUserRoles .., .rbac (.setUserRoles ..) => fun _ => True
  | .setUserStatus .., .users (.setStatus ..) => fun _ => True
  | .createClient .., .clients (.insert ..) => fun _ => True
  | .rotateClientSecret .., .clients (.rotateSecret ..) => fun _ => True
  | .setClientStatus .., .clients (.setStatus ..) => fun _ => True
  | request, .kms (.jwtVerify ..) => request.UsesAtOnce
  | _, _ => fun _ => False

/-- A subject that is used is a UUID, unless the token is refused for its identifier, one of
`L`. -/
def Stmt.SubjectUuid (G : Prop) (L : String → Prop) : (s : Stmt) → s.Ans → Prop
  | .kms (.jwtVerify ..) => fun payload => G → isUuid payload.sub = false →
      ∃ jti, payload.jti.filter (· ≠ "") = some jti ∧ L jti
  | .redis (.getText (.jtiRevoked jti)) => fun value => L jti → value = some "1"
  | _ => fun _ => True

/-- What is assumed of the answers to a call, `G` saying that it uses the subject of its
token. -/
structure Stmt.Hands (request : Request) (G : Prop) (L : String → Prop) (s : Stmt) (a : s.Ans) :
    Prop where
  uuids : s.AnswerUuids a
  admits : request.Admits s a → G
  subject : s.SubjectUuid G L a

/-- A replay is reported for a user. -/
def Err.ReplayUuid : Err → Prop
  | .codeReplay userId _ => isUuid userId = true
  | _ => True

/-- Given UUIDs, a program passes on UUIDs.  What fails is the database, the key service or
the JWT library. -/
def typing (request : Request) (G : Prop) (L : String → Prop) : Contract statements Err where
  answers s
    | .ok a => s.Hands request G L a
    | .error e => e.isForeign = true
  issues s := s.uuidParams.all isUuid = true
  fails := Err.ReplayUuid
  failed := by
    rintro s (_ | _ | _ | _ | _ | _) h <;> trivial

theorem all_single (h : isUuid id = true) : [id].all isUuid = true := by simp [h]

theorem all_toList {o : Option String} (h : ∀ id, o = some id → isUuid id = true) :
    o.toList.all isUuid = true := by
  cases o with
  | none => rfl
  | some id => exact all_single (h id rfl)

theorem some_uuid (h : isUuid id = true) : ∀ id', some id = some id' → isUuid id' = true :=
  fun _ heq => Option.some.inj heq ▸ h

/-! ### Common functions -/

theorem record_typed {event : AuditEvent} (h : ∀ id, event.userId = some id → isUuid id = true) :
    (AuditLogService.record event).Meets (typing request G L) fun _ => True :=
  .tryCatch (.any (.perform (all_toList h))) fun _ _ => .pure trivial

theorem signingKey_typed {kid : Option String} :
    (JwtService.signingKey kid).Meets (typing request G L) fun _ => True := by
  unfold JwtService.signingKey
  split
  · exact .bind (.perform rfl) fun _ _ => .pure trivial
  · exact .any (.perform rfl)

theorem isRevoked_typed {jti : String} : (TokenRevocationService.isRevoked jti).Meets
    (typing request G L) fun revoked => L jti → revoked = true :=
  .bind (.perform rfl) fun _ hvalue => .pure fun hjti => decide_eq_true (hvalue.subject hjti)

/-- The UUIDs of a verified payload: the session, and the subject if it is used. -/
structure JwtPayload.Typed (request : Request) (G : Prop) (payload : JwtPayload) : Prop where
  session : ∀ sid, payload.sid = some sid → isUuid sid = true
  atOnce : request.UsesAtOnce payload → G
  subject : G → isUuid payload.sub = true

theorem checkAccessToken_typed {token : WireToken} :
    (JwtService.checkAccessToken token).Meets (typing request G L)
      (JwtPayload.Typed request G) := by
  cases token with
  | raw => exact .throw trivial
  | jws token =>
      refine .bind (.throwIf trivial) fun _ _ => .bind signingKey_typed fun _ _ =>
        .bind (.orThrow trivial) fun kid _ => .bind (.perform rfl) fun payload hpayload => ?_
      have hatOnce : request.UsesAtOnce payload → G := fun h =>
        hpayload.admits (by cases request <;> exact h)
      -- an identifier on the list ends the request, so what follows may assume a UUID
      have hlisted : (whenSome (payload.jti.filter (· ≠ "")) fun jti => do
          let revoked ← TokenRevocationService.isRevoked jti
          throwIf (revoked = true) (.authError "Token has been revoked" "TOKEN_REVOKED")).Meets
          (typing request G L) fun _ => G → isUuid payload.sub = true := by
        cases hjti : payload.jti.filter (· ≠ "") with
        | none =>
            refine .pure fun hG => ?_
            by_contra hsub
            obtain ⟨jti, hsome, _⟩ := hpayload.subject hG (by simpa using hsub)
            exact absurd (hjti.symm.trans hsome) nofun
        | some jti =>
            refine .bind isRevoked_typed fun revoked hrevoked =>
              (Program.Meets.throwIf trivial).mono fun _ hnot hG => ?_
            by_contra hsub
            obtain ⟨jti', hsome, hL⟩ := hpayload.subject hG (by simpa using hsub)
            obtain rfl := Option.some.inj (hjti.symm.trans hsome)
            exact hnot (hrevoked hL)
      exact .bind hlisted fun _ hsub =>
        .pure ⟨fun sid hsid => (hpayload.uuids sid hsid).1, hatOnce, hsub⟩

theorem verifyAccessToken_typed {token : WireToken} : (JwtService.verifyAccessToken token).Meets
    (typing request G L) (JwtPayload.Typed request G) := by
  refine .tryCatch checkAccessToken_typed fun e _ => .throw ?_
  unfold JwtService.mapJoseError
  split <;> trivial

/-- The user of a verified payload. -/
def AuthenticatedUser.Typed (request : Request) (G : Prop) (user : AuthenticatedUser) : Prop :=
  ∃ payload, user = .ofPayload payload ∧ payload.Typed request G

theorem AuthenticatedUser.Typed.session {user : AuthenticatedUser} (h : user.Typed request G) :
    ∀ sid, user.sid = some sid → isUuid sid = true := by
  obtain ⟨payload, rfl, hpayload⟩ := h
  exact hpayload.session

theorem AuthenticatedUser.Typed.subject {user : AuthenticatedUser} (h : user.Typed request G)
    (hG : G) : isUuid user.sub = true := by
  obtain ⟨payload, rfl, hpayload⟩ := h
  exact hpayload.subject hG

/-- A request that uses the subject, whatever the token is. -/
theorem AuthenticatedUser.Typed.subject_atOnce {user : AuthenticatedUser}
    (h : user.Typed request G) (hatOnce : ∀ payload, request.UsesAtOnce payload) :
    isUuid user.sub = true := by
  obtain ⟨payload, rfl, hpayload⟩ := h
  exact hpayload.subject (hpayload.atOnce (hatOnce payload))

theorem authenticate_typed {bearer : Option WireToken} : (authenticate bearer).Meets
    (typing request G L) (AuthenticatedUser.Typed request G) :=
  .bind (.orThrow trivial) fun _ _ => .bind verifyAccessToken_typed fun payload hpayload =>
    .pure ⟨payload, rfl, hpayload⟩

theorem maybeAuthenticate_typed {bearer : Option WireToken} : (maybeAuthenticate bearer).Meets
    (typing request G L) fun found => ∀ user, found = some user → user.Typed request G := by
  cases bearer with
  | none => exact .pure nofun
  | some token =>
      exact .bind authenticate_typed fun user huser =>
        .pure fun _ heq => Option.some.inj heq ▸ huser

theorem expiresIn_typed {signed : SignedToken} :
    (expiresIn signed).Meets (typing request G L) fun _ => True :=
  .bind (.perform rfl) fun _ _ => .pure trivial

theorem requireText_typed {value : Option String} {e : Err} (he : e.ReplayUuid) :
    (requireText value e).Meets (typing request G L) fun text => value = some text :=
  (Program.Meets.orThrow he).mono fun _ h => (Option.filter_eq_some_iff.1 h).1

theorem signAccessToken_typed {input : AccessTokenInput} :
    (JwtService.signAccessToken P input).Meets (typing request G L) fun _ => True :=
  .bind (.perform rfl) fun _ _ => .bind (.perform rfl) fun _ _ => .bind (.perform rfl) fun _ _ =>
    .bind (.perform rfl) fun _ _ => .pure trivial

/-! ### Sessions -/

theorem loadFresh_typed (h : isUuid id = true) :
    (SessionRepository.loadFresh id).Meets (typing request G L) fun found =>
      ∀ s, found = some s → isUuid s.id = true ∧ isUuid s.userId = true := by
  refine .bind (.perform (all_single h)) fun row hrow => ?_
  cases row with
  | none => exact .pure nofun
  | some session => exact .bind (.perform rfl) fun _ _ => .pure hrow.uuids

/-- A copy in the cache is not looked at further, unless it is of an active session. -/
theorem findSession_typed (h : isUuid id = true) :
    (SessionRepository.findById id).Meets (typing request G L) fun found =>
      ∀ s, found = some s → s.status = .active → isUuid s.id = true ∧ isUuid s.userId = true := by
  have hload : (SessionRepository.loadFresh id).Meets (typing request G L) fun found =>
      ∀ s, found = some s → s.status = .active → isUuid s.id = true ∧ isUuid s.userId = true :=
    (loadFresh_typed h).mono fun _ hs s heq _ => hs s heq
  refine .bind (.perform rfl) fun cached _ => ?_
  cases cached with
  | none => exact hload
  | some session =>
      refine .ite (fun hne => .pure ?_) fun _ => .bind hload fun fresh hfresh => ?_
      · rintro s ⟨⟩ hactive
        exact absurd hactive hne
      · cases fresh with
        | none => exact .bind (.perform rfl) fun _ _ => .pure nofun
        | some s => exact .pure hfresh

theorem revokeSession_typed {reason : String} (h : isUuid id = true) :
    (SessionRepository.revoke id reason).Meets (typing request G L) fun _ => True :=
  .bind (.perform (all_single h)) fun _ _ => .bind (.perform (all_single h)) fun _ _ =>
    .any (.perform rfl)

theorem revokeAllForUser_typed {reason : String} (h : isUuid userId = true) :
    (SessionRepository.revokeAllForUser userId reason).Meets (typing request G L) fun _ => True :=
  .bind (.perform (all_single h)) fun _ _ => .bind (.perform (all_single h)) fun _ _ =>
    .bind (.perform (all_single h)) fun _ _ => .bind (.perform rfl) fun _ _ => .pure trivial

/-! ### Refresh tokens -/

/-- What a refresh token is issued for is named by UUIDs. -/
structure RefreshIssue.Uuids (params : RefreshIssue) : Prop where
  sessionId : isUuid params.sessionId = true
  userId : isUuid params.userId = true
  clientId : ∀ id, params.clientId = some id → isUuid id = true
  familyId : ∀ id, params.familyId = some id → isUuid id = true
  previousTokenId : ∀ id, params.previousTokenId = some id → isUuid id = true

theorem issueRefresh_typed {params : RefreshIssue} (h : params.Uuids) :
    (RefreshTokenService.issue P params).Meets (typing request G L) fun _ => True := by
  refine .bind (.perform rfl) fun token _ => .bind (.orDo h.familyId fun _ =>
      (Program.Meets.perform rfl).mono fun _ h => h.uuids)
    fun familyId hfamily => .bind (.perform ?_) fun _ _ => .bind (.perform rfl) fun _ _ =>
      .pure trivial
  have hclient := all_toList h.clientId
  have hprevious := all_toList h.previousTokenId
  change ([params.sessionId, params.userId, familyId] ++ params.clientId.toList ++
    params.previousTokenId.toList).all isUuid = true
  simp only [List.all_append, List.all_cons, List.all_nil, hclient, hprevious, h.sessionId,
    h.userId, Bool.and_true, Bool.true_and]
  exact hfamily

theorem handleReuseOrInvalid_typed {hash : String} :
    (RefreshTokenService.handleReuseOrInvalid hash).Meets (typing request G L) fun _ => True := by
  refine .bind (.perform rfl) fun known hknown => ?_
  cases known with
  | none => exact .pure trivial
  | some row =>
      have hrow := hknown.uuids row rfl
      exact .bind (.perform (all_single hrow.familyId)) fun _ _ =>
        .bind (.perform (all_single hrow.sessionId)) fun _ _ => .throw trivial

theorem consumeRefresh_typed {token : String} :
    (RefreshTokenService.consume P token).Meets (typing request G L)
      fun consumed => consumed.row.Columns := by
  refine .bind (.perform rfl) fun rotated hrotated => ?_
  cases rotated with
  | none => exact .bind handleReuseOrInvalid_typed fun _ _ => .throw trivial
  | some row =>
      have hrow := hrotated.uuids row rfl
      exact .bind (issueRefresh_typed ⟨hrow.sessionId, hrow.userId, hrow.clientId,
        some_uuid hrow.familyId, some_uuid hrow.id⟩) fun _ _ => .pure hrow

theorem revokeByToken_typed {token : WireToken} :
    (RefreshTokenService.revokeByToken P token).Meets (typing request G L) fun _ => True :=
  .bind (.perform rfl) fun _ _ => .pure trivial

theorem requireActiveSession_typed {row : RefreshTokenRow} {e : Err} (hrow : row.Columns)
    (he : e.ReplayUuid) : (OAuthService.requireActiveSession row e).Meets (typing request G L)
      fun s => isUuid s.id = true ∧ isUuid s.userId = true := by
  refine .bind (findSession_typed hrow.sessionId) fun found hfound => ?_
  split
  · rename_i session hsession
    obtain ⟨rfl, hactive⟩ := Option.filter_eq_some_iff.1 hsession
    exact .pure (hfound session rfl (of_decide_eq_true hactive))
  · exact .bind (.perform (all_single hrow.familyId)) fun _ _ => .throw he

theorem createSession_typed {data : CreateSessionData} (huser : isUuid data.userId = true)
    (hclient : ∀ id, data.clientId = some id → isUuid id = true) :
    (SessionRepository.create data).Meets (typing request G L) fun row => isUuid row.id = true := by
  refine (Program.Meets.perform ?_).mono fun _ h => h.uuids
  change (data.userId :: data.clientId.toList).all isUuid = true
  rw [List.all_cons, huser, all_toList hclient, Bool.and_self]

/-! ### Users -/

theorem checkPasswordPolicy_typed {password : String} :
    (checkPasswordPolicy P password).Meets (typing request G L) fun _ => True := by
  unfold checkPasswordPolicy
  split
  · exact .throw trivial
  · exact .pure trivial

theorem sendMail_typed {mail : Mail} :
    (query (.runtime (.sendMail mail))).Meets (typing request G L) fun _ => True :=
  .any (.perform rfl)

theorem issueEmailVerification_typed {email : String} (h : isUuid id = true) :
    (EmailTokenService.issueEmailVerification P id email).Meets (typing request G L)
      fun _ => True :=
  .bind (.perform rfl) fun _ _ => .bind (.perform (all_single h)) fun _ _ => .pure trivial

theorem issuePasswordReset_typed (h : isUuid id = true) :
    (EmailTokenService.issuePasswordReset P id).Meets (typing request G L) fun _ => True :=
  .bind (.perform rfl) fun _ _ => .bind (.perform (all_single h)) fun _ _ => .pure trivial

theorem register_typed {input : RegisterInput} :
    (UserService.register P input ctx).Meets (typing request G L) fun _ => True :=
  .bind checkPasswordPolicy_typed fun _ _ => .bind (.perform rfl) fun _ _ =>
    .bind (.throwIf trivial) fun _ _ => .bind (.perform rfl) fun _ _ =>
    .bind (.perform rfl) fun _ hnew => .bind (.perform (all_single hnew.uuids)) fun _ _ =>
    .bind (record_typed (some_uuid hnew.uuids)) fun _ _ =>
    .bind (issueEmailVerification_typed hnew.uuids) fun _ _ => .bind sendMail_typed fun _ _ =>
    .pure trivial

theorem consumeEmailVerification_typed {token : String} :
    (EmailTokenService.consumeEmailVerification P token).Meets (typing request G L)
      fun found => ∀ id, found = some id → isUuid id = true := by
  refine .bind (.perform rfl) fun found hfound => .pure fun id hid => ?_
  obtain ⟨row, hrow, rfl⟩ := Option.map_eq_some_iff.1 hid
  exact hfound.uuids row hrow

theorem verifyEmail_typed {token : String} :
    (UserService.verifyEmail P token ctx).Meets (typing request G L) fun _ => True :=
  .bind consumeEmailVerification_typed fun _ hconsumed => .bind (.orThrow trivial) fun id hid =>
    .bind (.perform (all_single (hconsumed id hid))) fun _ _ =>
    record_typed (some_uuid (hconsumed id hid))

theorem forgotPassword_typed {email : String} :
    (AuthService.forgotPassword P email ctx).Meets (typing request G L) fun _ => True := by
  refine .bind (.perform rfl) fun found hfound => ?_
  split
  · rename_i user huser
    have hid := hfound.uuids user (Option.filter_eq_some_iff.1 huser).1
    exact .bind (issuePasswordReset_typed hid) fun _ _ => .bind sendMail_typed fun _ _ =>
      record_typed (some_uuid hid)
  · exact .pure trivial

theorem consumePasswordReset_typed {token : String} :
    (EmailTokenService.consumePasswordReset P token).Meets (typing request G L)
      fun found => ∀ id, found = some id → isUuid id = true := by
  refine .bind (.perform rfl) fun found hfound => .pure fun id hid => ?_
  obtain ⟨row, hrow, rfl⟩ := Option.map_eq_some_iff.1 hid
  exact hfound.uuids row hrow

theorem resetPassword_typed {token password : String} :
    (AuthService.resetPassword P token password ctx).Meets (typing request G L) fun _ => True := by
  refine .bind checkPasswordPolicy_typed fun _ _ => .bind consumePasswordReset_typed
    fun _ hconsumed => .bind (.orThrow trivial) fun id heq => ?_
  have hid := hconsumed id heq
  exact .bind (.perform rfl) fun _ _ => .bind (.perform (all_single hid)) fun _ _ =>
    .bind (revokeAllForUser_typed hid) fun _ _ => .bind (record_typed (some_uuid hid)) fun _ _ =>
    record_typed (some_uuid hid)

/-! ### Logins -/

theorem rejectPassword_typed {user : UserRow} (h : isUuid user.id = true) :
    (AuthService.rejectPassword P user ctx).Meets (typing request G L) fun _ => True :=
  .bind (.perform (all_single h)) fun _ _ => .bind (.onlyIf fun _ => .bind (.perform rfl) fun _ _ =>
    .bind (.perform (all_single h)) fun _ _ => record_typed (some_uuid h)) fun _ _ =>
    .bind (record_typed (some_uuid h)) fun _ _ => .throw trivial

theorem checkCredentials_typed {email password : String} :
    (AuthService.checkCredentials P email password ctx).Meets (typing request G L)
      fun user => isUuid user.id = true :=
  .bind (.perform rfl) fun _ hfound => .bind (.orDo hfound.uuids fun _ =>
      .bind (record_typed nofun) fun _ _ => .throw trivial) fun _ huser =>
    .bind (.perform rfl) fun _ _ => .bind (.throwIf trivial) fun _ _ =>
    .bind (.throwIf trivial) fun _ _ => .bind (.onlyIf fun _ => rejectPassword_typed huser)
      fun _ _ => .bind (.throwIf trivial) fun _ _ => .pure huser

theorem isKnownDevice_typed :
    (AuthService.isKnownDevice P userId ctx).Meets (typing request G L) fun _ => True := by
  unfold AuthService.isKnownDevice
  split
  · refine .bind (.perform rfl) fun seen _ => ?_
    split
    · exact .pure trivial
    · exact .bind (.perform rfl) fun _ _ => .pure trivial
  · exact .pure trivial

theorem evaluateLogin_typed {input : LoginRiskInput} :
    (RulesRiskEngine.evaluateLogin P input).Meets (typing request G L) fun _ => True := by
  have hfailed : (RulesRiskEngine.failedLoginsSignal P input.userId).Meets (typing request G L)
      fun _ => True := .bind (.perform rfl) fun _ _ => .pure trivial
  have hfrequency : (RulesRiskEngine.ipFrequencySignal input.userId input.ip).Meets
      (typing request G L) fun _ => True := by
    unfold RulesRiskEngine.ipFrequencySignal
    split
    · exact .pure trivial
    · exact .bind (.perform rfl) fun _ _ => .bind (.perform rfl) fun _ _ =>
        .bind (.perform rfl) fun _ _ => .pure trivial
  have htravel : (RulesRiskEngine.travelSignal P input).Meets (typing request G L)
      fun _ => True := by
    unfold RulesRiskEngine.travelSignal
    split
    · exact .bind (.perform rfl) fun _ _ => .bind (.perform rfl) fun _ _ => .pure trivial
    · exact .pure trivial
  exact .bind hfailed fun _ _ => .bind hfrequency fun _ _ => .bind htravel fun _ _ => .pure trivial

theorem evaluateRisk_typed (h : isUuid userId = true) :
    (AuthService.evaluateRisk P userId ctx).Meets (typing request G L) fun _ => True :=
  .bind isKnownDevice_typed fun _ _ => .bind evaluateLogin_typed fun _ _ =>
    .bind (.onlyIf fun _ => record_typed (some_uuid h)) fun _ _ =>
    .bind (.perform (all_single h)) fun _ _ => .bind (.onlyIf fun _ =>
      .bind (record_typed (some_uuid h)) fun _ _ => .throw trivial) fun _ _ => .pure trivial

theorem issueSessionTokensForSession_typed {amr : List String} (hsession : isUuid sessionId = true)
    (huser : isUuid userId = true) :
    (AuthService.issueSessionTokensForSession P sessionId userId amr ctx).Meets (typing request G L)
      fun _ => True :=
  .bind (.perform (all_single huser)) fun _ _ => .bind (.orThrow trivial) fun _ _ =>
    .bind (.perform (all_single huser)) fun _ _ => .bind (.perform (all_single huser)) fun _ _ =>
    .bind signAccessToken_typed fun _ _ =>
    .bind (issueRefresh_typed ⟨hsession, huser, nofun, nofun, nofun⟩) fun _ _ =>
    .bind (.perform (all_single huser)) fun _ _ => .bind (.perform (all_single huser)) fun _ _ =>
    .bind (record_typed (some_uuid huser)) fun _ _ =>
    .bind (record_typed (some_uuid huser)) fun _ _ =>
    .bind expiresIn_typed fun _ _ => .pure trivial

theorem createLoginSession_typed {mfaPassed : Bool} (huser : isUuid userId = true) :
    (AuthService.createLoginSession P userId ctx mfaPassed).Meets (typing request G L)
      fun row => isUuid row.id = true :=
  createSession_typed huser nofun

theorem hasActiveMethod_typed (huser : isUuid userId = true) :
    (MfaService.hasActiveMethod userId).Meets (typing request G L) fun _ => True :=
  .any (.perform (all_single huser))

theorem login_typed {email password : String} :
    (AuthService.login P email password ctx).Meets (typing request G L) fun _ => True :=
  .bind checkCredentials_typed fun _ huser => .bind (evaluateRisk_typed huser) fun _ _ =>
    .bind (hasActiveMethod_typed huser) fun _ _ => .ite
      (fun _ => .bind (.throwIf trivial) fun _ _ =>
        .bind (createLoginSession_typed huser) fun _ _ =>
        .bind (.bind (.perform rfl) fun _ _ => .bind (.perform rfl) fun _ _ => .pure trivial)
          fun _ _ => .pure trivial)
      fun _ => .bind (.bind (createLoginSession_typed huser) fun _ hsession =>
        issueSessionTokensForSession_typed hsession huser) fun _ _ => .pure trivial

theorem refresh_typed {token : String} :
    (AuthService.refresh P token ctx).Meets (typing request G L) fun _ => True := by
  refine .tryCatch ?_ fun e he => .bind (.onlyIf fun _ => record_typed nofun) fun _ _ => .throw he
  exact .bind consumeRefresh_typed fun consumed hrow =>
    .bind (requireActiveSession_typed hrow trivial) fun session hsession =>
    .bind (.perform (all_single hrow.userId)) fun _ _ =>
    .bind (.perform (all_single hrow.userId)) fun _ _ => .bind signAccessToken_typed fun _ _ =>
    .bind (.perform (all_single hsession.1)) fun _ _ =>
    .bind (record_typed (some_uuid hrow.userId)) fun _ _ => .bind expiresIn_typed fun _ _ =>
    .pure trivial

theorem logout_typed {sid token : Option String} {all : Bool} (huser : isUuid userId = true)
    (hsid : ∀ id, sid = some id → isUuid id = true) :
    (AuthService.logout P userId sid all token ctx).Meets (typing request G L) fun _ => True :=
  .ite (fun _ => .bind (revokeAllForUser_typed huser) fun _ _ =>
      .bind (record_typed (some_uuid huser)) fun _ _ => .pure trivial) fun _ =>
    .bind (.whenSome fun id hid =>
      revokeSession_typed (hsid id (Option.filter_eq_some_iff.1 hid).1)) fun _ _ =>
    .bind (.whenSome fun _ _ => .bind revokeByToken_typed fun _ _ => .pure trivial) fun _ _ =>
    .bind (record_typed (some_uuid huser)) fun _ _ => .pure trivial

theorem me_typed (huser : isUuid userId = true) :
    (AuthService.me userId).Meets (typing request G L) fun _ => True :=
  .bind (.perform (all_single huser)) fun _ _ => .bind (.orThrow trivial) fun _ _ =>
    .bind (.perform (all_single huser)) fun _ _ => .bind (.perform (all_single huser)) fun _ _ =>
    .bind (hasActiveMethod_typed huser) fun _ _ => .pure trivial

/-! ### Second factors -/

theorem rejectCode_typed {challengeId : String} {challenge : MfaChallengePayload}
    {F : MfaMethodRow → Prop} :
    (MfaService.rejectCode P challengeId challenge).Meets (typing request G L) F :=
  .bind (.perform rfl) fun _ _ => .throw trivial

theorem checkChallengeCode_typed {challengeId code : String} {challenge : MfaChallengePayload}
    (h : isUuid challenge.userId = true) :
    (MfaService.checkChallengeCode P challengeId code challenge).Meets (typing request G L)
      fun method => isUuid method.id = true := by
  refine .bind (.perform (all_single h)) fun active hactive => ?_
  split
  · exact rejectCode_typed
  · rename_i method hmethod
    exact .bind (.perform rfl) fun _ _ => .ite
      (fun _ => .pure (hactive.uuids method (Option.filter_eq_some_iff.1 hmethod).1))
      fun _ => rejectCode_typed

theorem verifyLoginChallenge_typed {challengeId code : String} :
    (MfaService.verifyLoginChallenge P challengeId code).Meets (typing request G L)
      fun id => isUuid id = true := by
  refine .bind (.perform rfl) fun stored hstored => .bind (.orThrow trivial) fun challenge heq => ?_
  obtain ⟨huser, hsession⟩ := hstored.uuids challenge heq
  exact .bind (.onlyIf fun _ => .bind (.perform rfl) fun _ _ => .throw trivial) fun _ _ =>
    .bind (checkChallengeCode_typed huser) fun _ hmethod =>
    .bind (.perform (all_single hsession)) fun _ _ =>
    .bind (.perform (all_single hmethod)) fun _ _ =>
    .bind (.perform rfl) fun _ _ => .pure hsession

theorem completeMfaChallenge_typed {challengeId code : String} :
    (AuthService.completeMfaChallenge P challengeId code ctx).Meets (typing request G L)
      fun _ => True := by
  refine .bind verifyLoginChallenge_typed fun sessionId hid => .bind (findSession_typed hid)
    fun found hfound => .bind (.orThrow trivial) fun session heq => ?_
  obtain ⟨hsome, hactive⟩ := Option.filter_eq_some_iff.1 heq
  obtain ⟨hsession, huser⟩ := hfound session hsome (of_decide_eq_true hactive)
  exact .bind (record_typed (some_uuid huser)) fun _ _ =>
    issueSessionTokensForSession_typed hsession huser

theorem getEmailForUser_typed (huser : isUuid userId = true) :
    (MfaService.getEmailForUser userId).Meets (typing request G L) fun _ => True :=
  .bind (.perform (all_single huser)) fun _ _ => .any (.orThrow trivial)

theorem beginEnroll_typed {email : String} (huser : isUuid userId = true) :
    (MfaService.beginEnroll P userId email).Meets (typing request G L) fun _ => True :=
  .bind (.perform rfl) fun _ _ => .bind (.perform (all_single huser)) fun _ _ => .pure trivial

theorem confirmEnroll_typed {code : String} (huser : isUuid userId = true) :
    (MfaService.confirmEnroll userId code).Meets (typing request G L) fun _ => True :=
  .bind (.perform (all_single huser)) fun _ _ => .bind (.orThrow trivial) fun _ _ =>
    .bind (.perform rfl) fun _ _ => .bind (.throwIf trivial) fun _ _ =>
    .bind (.perform (all_single huser)) fun _ _ => .any (.perform (all_single huser))

theorem disable_typed {code : String} (huser : isUuid userId = true) :
    (MfaService.disable userId code).Meets (typing request G L) fun _ => True :=
  .bind (.perform (all_single huser)) fun _ hactive => .bind (.orThrow trivial) fun method heq =>
    .bind (.perform rfl) fun _ _ => .bind (.throwIf trivial) fun _ _ =>
    .bind (.perform (all_single (hactive.uuids method heq))) fun _ _ =>
    .any (.perform (all_single huser))

/-! ### Authorization requests -/

theorem recordDenied_typed {authenticated : Option String} {reason clientId : String}
    (h : ∀ id, authenticated = some id → isUuid id = true) :
    (OAuthService.recordDenied authenticated ctx reason clientId).Meets (typing request G L)
      fun _ => True :=
  record_typed h

theorem checkAuthorizeRequest_typed {bearer : Option WireToken} {input : AuthorizeInput}
    {authenticated state : Option String}
    (h : G → ∀ id, authenticated = some id → isUuid id = true) :
    (OAuthService.checkAuthorizeRequest input authenticated ctx).Meets
      (typing (.authorize bearer input state) G L) fun _ => G := by
  refine .bind (.perform rfl) fun found hfound => .bind (.orThrow trivial) fun client hclient => ?_
  have hG : input.ReachesUser client → G := fun hreaches =>
    hfound.admits ⟨client, hclient, hreaches⟩
  exact .bind (.onlyIf fun hstatus => .bind (recordDenied_typed (h (hG (.inl hstatus)))) fun _ _ =>
      .throw trivial) fun _ _ =>
    .bind (.onlyIf fun huri => .bind (recordDenied_typed (h (hG (.inr (.inl huri))))) fun _ _ =>
      .throw trivial) fun _ _ =>
    .bind (.throwIf trivial) fun _ hscope => .bind (.throwIf trivial) fun _ hmethod =>
    .bind (.throwIf trivial) fun _ hchallenge => .pure (hG (.inr (.inr
      ⟨not_not.1 hscope, hmethod, by simpa using hchallenge⟩)))

theorem authorize_typed {bearer : Option WireToken} {input : AuthorizeInput}
    {authenticated state : Option String}
    (h : G → ∀ id, authenticated = some id → isUuid id = true) :
    (OAuthService.authorize P input authenticated state ctx).Meets
      (typing (.authorize bearer input state) G L) fun _ => True := by
  refine .bind (checkAuthorizeRequest_typed h) fun _ hG => .bind (requireText_typed trivial)
    fun id heq => ?_
  have hid := h hG id heq
  exact .bind (.perform (all_single hid)) fun _ _ => .bind (.throwIf trivial) fun _ _ =>
    .bind (.bind (.perform rfl) fun _ _ => .bind (.perform (all_single hid)) fun _ _ =>
      .pure trivial) fun _ _ =>
    .bind (record_typed (some_uuid hid)) fun _ _ => .pure trivial

/-! ### The token endpoint -/

theorem verifySecret_typed {client : OAuthClientRow} {secret : String} :
    (ClientRepository.verifySecret P client secret).Meets (typing request G L) fun _ => True := by
  unfold ClientRepository.verifySecret
  split
  · exact .pure trivial
  · exact .any (.orThrow trivial)

theorem requireSecret_typed {client : OAuthClientRow} {secret : Option String} :
    (OAuthService.requireSecret P client secret ctx).Meets (typing request G L) fun _ => True := by
  have hverifies : (OAuthService.secretVerifies P client secret).Meets (typing request G L)
      fun _ => True := by
    unfold OAuthService.secretVerifies
    split
    · exact .pure trivial
    · exact verifySecret_typed
  exact .bind hverifies fun _ _ => .onlyIf fun _ => .bind (record_typed nofun) fun _ _ =>
    .throw trivial

theorem authenticateClient_typed {client : OAuthClientRow} {secret : Option String} :
    (OAuthService.authenticateClient P client secret ctx).Meets (typing request G L)
      fun _ => True := by
  unfold OAuthService.authenticateClient
  split
  · exact requireSecret_typed
  · exact .any (.throwIf trivial)

theorem catchReplay_typed {α : Type} {p : Prog α} {F : α → Prop}
    (h : p.Meets (typing request G L) F) :
    (OAuthService.catchReplay p ctx).Meets (typing request G L) F := by
  refine .tryCatch h fun e he => ?_
  split
  · exact .bind (.bind (.perform (all_single he)) fun _ _ => record_typed (some_uuid he))
      fun _ _ => .throw trivial
  · exact .throw he

/-- The identifiers of a row that has been read with its code. -/
def JoinedRow.Uuids (row : JoinedRow) : Prop :=
  isUuid row.code.id = true ∧ isUuid row.code.userId = true

theorem peek_typed {params : PresentedCode} :
    (AuthorizationCodeRepository.peek P params).Meets (typing request G L)
      fun found => ∀ row, found = some row → row.Uuids := by
  refine .bind (.perform rfl) fun existing hexisting => ?_
  cases existing with
  | none => exact .pure nofun
  | some row =>
      have hrow : row.Uuids := hexisting.uuids row rfl
      exact .ite (fun _ => .pure nofun) fun _ => .ite (fun _ => .throw hrow.2) fun _ =>
        .bind (.perform rfl) fun _ _ => .ite (fun _ => .pure nofun) fun _ =>
          .pure fun _ heq => Option.some.inj heq ▸ hrow

theorem consumeCode_typed {params : PresentedCode} :
    (AuthorizationCodeRepository.consume P params).Meets (typing request G L)
      fun found => ∀ row, found = some row → isUuid row.userId = true := by
  refine .bind peek_typed fun checked hchecked => ?_
  cases checked with
  | none => exact .pure nofun
  | some row =>
      obtain ⟨hid, huser⟩ := hchecked row rfl
      refine .bind (.perform (all_single hid)) fun updated hupdated => ?_
      cases updated with
      | none => exact .throw huser
      | some code => exact .pure fun _ heq => Option.some.inj heq ▸ hupdated.uuids code rfl

theorem issueIdToken_typed {client : OAuthClientRow} {scope : String} {nonce : Option String}
    (huser : isUuid userId = true) :
    (OAuthService.issueIdToken P userId client scope nonce).Meets (typing request G L)
      fun _ => True :=
  .ite (fun _ => .bind (.perform (all_single huser)) fun _ _ =>
    .bind (.bind (.perform rfl) fun _ _ => .bind (.perform rfl) fun _ _ => .any (.perform rfl))
      fun _ _ => .pure trivial) fun _ => .pure trivial

theorem issueUserTokens_typed {client : OAuthClientRow} {scope : String} {nonce : Option String}
    (huser : isUuid userId = true) (hclient : isUuid client.id = true) :
    (OAuthService.issueUserTokens P userId client scope nonce ctx).Meets (typing request G L)
      fun _ => True :=
  .bind (.perform (all_single huser)) fun _ _ => .bind (.perform (all_single huser)) fun _ _ =>
    .bind (createSession_typed huser (some_uuid hclient)) fun _ hsession =>
    .bind signAccessToken_typed fun _ _ =>
    .bind (issueRefresh_typed ⟨hsession, huser, some_uuid hclient, nofun, nofun⟩) fun _ _ =>
    .bind (issueIdToken_typed huser) fun _ _ => .bind (record_typed (some_uuid huser)) fun _ _ =>
    .bind expiresIn_typed fun _ _ => .pure trivial

theorem authorizationCodeGrant_typed {form : TokenForm} {clientId : String}
    {client : OAuthClientRow} {secret : Option String} (hclient : isUuid client.id = true) :
    (OAuthService.authorizationCodeGrant P form clientId client secret ctx).Meets
      (typing request G L) fun _ => True :=
  .bind (requireText_typed trivial) fun _ _ => .bind (requireText_typed trivial) fun _ _ =>
    .bind (requireText_typed trivial) fun _ _ => .bind authenticateClient_typed fun _ _ =>
    .bind (catchReplay_typed peek_typed) fun _ _ => .bind (.orThrow trivial) fun _ _ =>
    .bind (requireText_typed trivial) fun _ _ => .bind (.throwIf trivial) fun _ _ =>
    .bind (catchReplay_typed consumeCode_typed) fun _ hconsumed => .bind (.orThrow trivial)
      fun code heq => issueUserTokens_typed (hconsumed code heq) hclient

theorem catchRefreshErrors_typed {α : Type} {p : Prog α} {F : α → Prop} {client : OAuthClientRow}
    (h : p.Meets (typing request G L) F) :
    (OAuthService.catchRefreshErrors p client ctx).Meets (typing request G L) F :=
  .tryCatch h fun _ he => .ite
    (fun _ => .bind (record_typed nofun) fun _ _ => .throw trivial)
    fun _ => .ite (fun _ => .throw trivial) fun _ => .throw he

theorem checkBinding_typed {token : String} {row : RefreshTokenRow} {client : OAuthClientRow}
    (hrow : row.Columns) :
    (OAuthService.checkBinding P token row client ctx).Meets (typing request G L) fun _ => True :=
  .onlyIf fun _ => .bind revokeByToken_typed fun _ _ =>
    .bind (record_typed (some_uuid hrow.userId)) fun _ _ => .throw trivial

theorem narrowScope_typed {original : String} {requested : Option String} :
    (Program.done (OAuthService.narrowScope original requested) : Prog String).Meets
      (typing request G L) fun _ => True := by
  unfold OAuthService.narrowScope
  simp only
  split <;> trivial

theorem refreshTokenGrant_typed {form : TokenForm} {client : OAuthClientRow}
    {secret : Option String} :
    (OAuthService.refreshTokenGrant P form client secret ctx).Meets (typing request G L)
      fun _ => True :=
  .bind (requireText_typed trivial) fun _ _ => .bind authenticateClient_typed fun _ _ =>
    .bind (catchRefreshErrors_typed consumeRefresh_typed) fun _ hrow =>
    .bind (checkBinding_typed hrow) fun _ _ =>
    .bind (requireActiveSession_typed hrow trivial) fun _ _ =>
    .bind narrowScope_typed fun _ _ => .bind (.perform (all_single hrow.userId)) fun _ _ =>
    .bind (.perform (all_single hrow.userId)) fun _ _ => .bind signAccessToken_typed fun _ _ =>
    .bind (record_typed (some_uuid hrow.userId)) fun _ _ => .bind expiresIn_typed fun _ _ =>
    .pure trivial

theorem clientCredentialsGrant_typed {form : TokenForm} {client : OAuthClientRow}
    {secret : Option String} :
    (OAuthService.clientCredentialsGrant P form client secret ctx).Meets (typing request G L)
      fun _ => True :=
  .bind (.throwIf trivial) fun _ _ => .bind (.throwIf trivial) fun _ _ =>
    .bind requireSecret_typed fun _ _ => .bind (.throwIf trivial) fun _ _ =>
    .bind (.throwIf trivial) fun _ _ => .bind (.throwIf trivial) fun _ _ =>
    .bind signAccessToken_typed fun _ _ => .bind (record_typed nofun) fun _ _ =>
    .bind expiresIn_typed fun _ _ => .pure trivial

theorem token_typed {form : TokenForm} {basicAuth : Option BasicAuth} :
    (OAuthService.token P form basicAuth ctx).Meets (typing request G L) fun _ => True := by
  refine .bind (requireText_typed trivial) fun clientId _ =>
    .bind (.perform rfl) fun found hfound => .bind (.orThrow trivial) fun client heq => ?_
  have hclient := hfound.uuids client (Option.filter_eq_some_iff.1 heq).1
  split
  · exact authorizationCodeGrant_typed hclient
  · exact refreshTokenGrant_typed
  · exact clientCredentialsGrant_typed

/-! ### Introspection and revocation -/

theorem introspect_typed {token : WireToken} :
    (OAuthService.introspect token).Meets (typing request G L) fun _ => True :=
  .tryCatch (.bind verifyAccessToken_typed fun _ _ => .pure trivial) fun _ _ => .pure trivial

theorem revoke_typed {token : WireToken} (hatOnce : ∀ payload, request.UsesAtOnce payload) :
    (OAuthService.revoke P token ctx).Meets (typing request G L) fun _ => True := by
  refine .bind revokeByToken_typed fun _ _ => .ite (fun _ => record_typed nofun) fun _ =>
    .tryCatch (.bind verifyAccessToken_typed fun payload h => ?_) fun _ _ => .pure trivial
  exact .bind (.whenSome fun sid hsid =>
      revokeSession_typed (h.session sid (Option.filter_eq_some_iff.1 hsid).1)) fun _ _ =>
    .bind (.whenSome fun _ _ => .onlyIf fun _ => .bind (.perform rfl) fun _ _ =>
      .any (.perform rfl)) fun _ _ =>
    record_typed (some_uuid (h.subject (h.atOnce (hatOnce payload))))

/-! ### The routes -/

/-- The identifier in the path of the request. -/
def Request.pathId? : Request → Option String
  | .setRolePermissions _ id _ | .setUserRoles _ id _ | .setUserStatus _ id _
  | .rotateClientSecret _ id | .setClientStatus _ id _ => some id
  | _ => none

/-- The route has checked the identifier in the path. -/
def Request.PathUuid (request : Request) : Prop :=
  request.pathId?.all (fun id => isUuid (canonicalUuid id)) = true

theorem admin_typed {bearer : Option WireToken} {permission : String} :
    (admin bearer permission).Meets (typing request G L) (AuthenticatedUser.Typed request G) :=
  .bind authenticate_typed fun _ huser => .bind (.throwIf trivial) fun _ _ => .pure huser

theorem recordAdmin_typed {eventType : String} {user : AuthenticatedUser}
    {metadata : List (String × AuditValue)} (h : isUuid user.sub = true) :
    (recordAdmin eventType user ctx metadata).Meets (typing request G L) fun _ => True :=
  record_typed (some_uuid h)

theorem mfaEnroll_typed {bearer : Option WireToken} :
    (mfaEnroll P bearer ctx).Meets (typing (.mfaEnroll bearer) G L) fun _ => True := by
  refine .bind authenticate_typed fun user huser => ?_
  have hsub := huser.subject_atOnce fun _ => trivial
  exact .bind (getEmailForUser_typed hsub) fun _ _ => .bind (beginEnroll_typed hsub) fun _ _ =>
    .bind (record_typed (some_uuid hsub)) fun _ _ => .pure trivial

theorem mfaVerify_typed {bearer : Option WireToken} {body : MfaVerifyBody} :
    (mfaVerify P bearer body ctx).Meets (typing (.mfaVerify bearer body) G L) fun _ => True := by
  refine .bind maybeAuthenticate_typed fun found hfound => ?_
  cases body with
  | challenge mfaChallengeId code =>
      exact .bind completeMfaChallenge_typed fun _ _ => .pure trivial
  | enrollment code =>
      refine .bind (.orThrow trivial) fun user heq => ?_
      have hsub := (hfound user heq).subject_atOnce fun _ => trivial
      exact .bind (confirmEnroll_typed hsub) fun _ _ =>
        .bind (record_typed (some_uuid hsub)) fun _ _ => .pure trivial

theorem mfaDisable_typed {bearer : Option WireToken} {code : String} :
    (mfaDisable bearer code ctx).Meets (typing (.mfaDisable bearer code) G L) fun _ => True := by
  refine .bind authenticate_typed fun user huser => ?_
  have hsub := huser.subject_atOnce fun _ => trivial
  exact .bind (disable_typed hsub) fun _ _ => .bind (record_typed (some_uuid hsub)) fun _ _ =>
    .pure trivial

theorem createClient_typed {bearer : Option WireToken} {data : CreateClientData} :
    (createClient bearer data ctx).Meets (typing (.createClient bearer data) G L)
      fun _ => True := by
  refine .bind admin_typed fun user huser => .bind (.throwIf trivial) fun _ _ =>
    .bind (Q := fun _ => True) (F := fun _ => G) ?_ fun created hG => ?_
  · refine .bind (.perform rfl) fun clientId _ => ?_
    split
    · exact .bind (.perform rfl) fun _ _ => .bind (.perform rfl) fun _ _ =>
        .bind (.perform rfl) fun _ hrow => .pure (hrow.admits trivial)
    · exact .bind (.perform rfl) fun _ hrow => .pure (hrow.admits trivial)
  · exact .bind (recordAdmin_typed (huser.subject hG)) fun _ _ => .pure trivial

theorem authorizeRoute_typed {bearer : Option WireToken} {input : AuthorizeInput}
    {state : Option String} : (AuthServer.authorize P bearer input state ctx).Meets
      (typing (.authorize bearer input state) G L) fun _ => True := by
  refine .bind maybeAuthenticate_typed fun found hfound =>
    .bind (authorize_typed fun hG id hid => ?_) fun _ _ => .pure trivial
  obtain ⟨user, hsome, rfl⟩ := Option.map_eq_some_iff.1 hid
  exact (hfound user hsome).subject hG

theorem introspectRoute_typed {token : WireToken} {basicAuth : Option BasicAuth} :
    (AuthServer.introspect P token basicAuth ctx).Meets (typing request G L) fun _ => True := by
  refine .bind (.orThrow trivial) fun basic _ => .bind (.perform rfl) fun client _ => ?_
  have hverifies : (introspectionSecretVerifies P client basic.clientSecret).Meets
      (typing request G L) fun _ => True := by
    cases client with
    | none => exact .pure trivial
    | some client => exact verifySecret_typed
  exact .bind hverifies fun _ _ => .bind (.onlyIf fun _ => .bind (record_typed nofun) fun _ _ =>
    .throw trivial) fun _ _ => .bind introspect_typed fun _ _ => .pure trivial

theorem userinfo_typed {bearer : Option WireToken} :
    (userinfo bearer).Meets (typing (.userinfo bearer) G L) fun _ => True := by
  refine .bind authenticate_typed fun user huser => .bind (.throwIf trivial) fun _ hopenid => ?_
  obtain ⟨payload, rfl, hpayload⟩ := huser
  have hsub := hpayload.subject (hpayload.atOnce (not_not.1 hopenid))
  exact .bind (.perform (all_single hsub)) fun _ _ => .bind (.orThrow trivial) fun _ _ =>
    .pure trivial

/-- **Given UUIDs, a handler passes on UUIDs**, if it does not use a subject that is none. -/
theorem handler_typed (incoming : Incoming) (hpath : incoming.request.PathUuid) :
    (handler P incoming).Meets (typing incoming.request G L) fun _ => True := by
  obtain ⟨request, ctx⟩ := incoming
  cases request with
  | register input => exact .bind register_typed fun _ _ => .pure trivial
  | verifyEmail token => exact .bind verifyEmail_typed fun _ _ => .pure trivial
  | login email password => exact .bind login_typed fun _ _ => .pure trivial
  | refresh refreshToken => exact .bind refresh_typed fun _ _ => .pure trivial
  | logout bearer allSessions refreshToken =>
      exact .bind authenticate_typed fun _ huser => .bind (logout_typed
        (huser.subject_atOnce fun _ => trivial) huser.session) fun _ _ => .pure trivial
  | forgotPassword email => exact .bind forgotPassword_typed fun _ _ => .pure trivial
  | resetPassword token password => exact .bind resetPassword_typed fun _ _ => .pure trivial
  | me bearer =>
      exact .bind authenticate_typed fun _ huser =>
        .bind (me_typed (huser.subject_atOnce fun _ => trivial)) fun _ _ => .pure trivial
  | mfaEnroll bearer => exact mfaEnroll_typed
  | mfaVerify bearer body => exact mfaVerify_typed
  | mfaDisable bearer code => exact mfaDisable_typed
  | setRolePermissions bearer id permissions | setUserRoles bearer id roles
  | setUserStatus bearer id disabled | setClientStatus bearer id status =>
      have hid : isUuid (canonicalUuid id) = true := hpath
      exact .bind admin_typed fun _ huser => .bind (.perform (all_single hid)) fun _ hchange =>
        .bind (recordAdmin_typed (huser.subject (hchange.admits trivial))) fun _ _ => .pure trivial
  | createClient bearer data => exact createClient_typed
  | rotateClientSecret bearer id =>
      have hid : isUuid (canonicalUuid id) = true := hpath
      exact .bind admin_typed fun _ huser => .bind (.bind (.perform rfl) fun _ _ =>
        .bind (.perform rfl) fun _ _ => .bind (.perform (all_single hid)) fun _ hchange =>
        .pure (hchange.admits trivial)) fun _ hG =>
        .bind (recordAdmin_typed (huser.subject hG)) fun _ _ => .pure trivial
  | authorize bearer input state => exact authorizeRoute_typed
  | token form basicAuth => exact .bind token_typed fun _ _ => .pure trivial
  | introspect token basicAuth => exact introspectRoute_typed
  | revoke token => exact .bind (revoke_typed fun _ => trivial) fun _ _ => .pure trivial
  | userinfo bearer => exact userinfo_typed

end IdentityPlatform
