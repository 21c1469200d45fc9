/-
# Subjects that are no UUIDs

The subject of a token of the client-credentials grant is the public identifier of the
client.  The endpoints take it for the identifier of a user: PostgreSQL rejects it, the
request fails, or, where the rejected statement is an audit record, nothing is recorded.

Everything else that is passed to a UUID column is a UUID (`uuid_parameters`), so the
statements of a request are rejected only if it gets as far as to use such a subject.
-/

import IdentityPlatform.Modules.Documents
import IdentityPlatform.Protocol.AdminScope
import IdentityPlatform.Protocol.ServicePermissions
import IdentityPlatform.Protocol.TypedParameters

namespace IdentityPlatform

open Interleaving Program Relational Machine AuthServer

variable {P : Platform} {c : ServerConfig} {w w' : World} {i : ℕ} {call : ServerCall}
  {e : ServerEvent}

/-! ### Audit records -/

theorem Stmt.exec_auditLogs {s : Stmt} {r : String} {ans : Except Err s.Ans}
    (h : s.exec P r w = some (ans, w')) : w.auditLogs ⊆ w'.auditLogs := by
  rcases exec_cases h with ⟨_, rfl⟩ | ⟨_, _, ledger, rfl, _⟩
  · exact List.Subset.refl _
  · cases s with
    | log u =>
        cases u with
        | auditEvent event => exact List.subset_cons_self ..
        | riskEvent row => exact List.Subset.refl _
    | _ => exact List.Subset.refl _

/-- Audit records stay. -/
theorem auditLogs_stable (P : Platform) :
    (machine P).Stable fun w w' => w.auditLogs ⊆ w'.auditLogs where
  refl _ := List.Subset.refl _
  trans := List.Subset.trans
  exec h := Stmt.exec_auditLogs h
  env h := by
    rw [Env.apply_eq h]
    exact List.Subset.refl _

/-! ### The answers to a call -/

/-- The call has verified a token with these claims and has not found it on the list of revoked
ones. -/
def Accepts (l : ServerLog) (payload : JwtPayload) : Prop :=
  (∃ kid token requiresScope, l.Saw (.kms (.jwtVerify kid token requiresScope)) (.ok payload)) ∧
    ∀ jti, payload.jti.filter (· ≠ "") = some jti →
      ∃ value, value ≠ some "1" ∧ l.Saw (.redis (.getText (.jtiRevoked jti))) (.ok value)

/-- The call goes on to use the subject of its token. -/
def UsesSubject (call : ServerCall) : Prop :=
  ∃ s a, call.log.Saw s (.ok a) ∧ call.req.request.Admits s a

/-- A subject that the call uses is a UUID. -/
def SubjectUuid (call : ServerCall) : Prop :=
  UsesSubject call → ∀ payload, Accepts call.log payload → isUuid payload.sub = true

/-- The identifier is on the list of revoked ones whenever the call looks. -/
def FoundRevoked (l : ServerLog) (jti : String) : Prop :=
  ∀ value, l.Saw (.redis (.getText (.jtiRevoked jti))) (.ok value) → value = some "1"

theorem saw_subject {s : Stmt} {a : s.Ans} (hsaw : call.log.Saw s (.ok a))
    (hsubject : SubjectUuid call) :
    s.SubjectUuid (UsesSubject call) (FoundRevoked call.log) a := by
  unfold Stmt.SubjectUuid
  split
  · rename_i kid token requiresScope
    intro huses hsub
    by_contra hnot
    -- no identifier of the token is on the list, so the call has accepted it
    have haccepts : Accepts call.log a := by
      refine ⟨⟨kid, token, requiresScope, hsaw⟩, fun jti hjti => ?_⟩
      by_contra hnone
      exact hnot ⟨jti, hjti, fun value hvalue => by_contra fun hne => hnone ⟨value, hne, hvalue⟩⟩
    rw [hsubject huses a haccepts] at hsub
    cases hsub
  · exact fun hfound => hfound a hsaw
  · trivial

/-- What a call has been answered, if the subject it uses is a UUID. -/
theorem answered_hands (hreach : (machine P).Reachable World.InitialColumns c)
    (hi : c.calls[i]? = some call) (hsubject : SubjectUuid call) :
    (typing call.req.request (UsesSubject call) (FoundRevoked call.log)).Answered call.log := by
  rintro ⟨n, pre, s, ans, post⟩ he
  have hinitial : (machine P).Reachable World.Initial c := hreach.imp fun _ => And.imp_left And.left
  have hanswers := hinitial.valid.answers hi _ he
  cases ans with
  | error err =>
      rcases hanswers with ⟨r, hexec⟩ | ⟨hfault, _⟩
      · exact (Stmt.exec_failed hexec).2
      · obtain rfl := Except.error.inj hfault
        rfl
  | ok a =>
      obtain ⟨hpre, hpost⟩ := (reachable_columns hreach).2 i call hi _ he
      have hbound := ((reachable_bound hinitial).2 i call hi _ he).1
      have hsaw : call.log.Saw s (.ok a) := ⟨n, pre, post, he⟩
      exact ⟨Stmt.Answered.uuids hanswers.exec hpre hpost hbound,
        fun hadmits => ⟨s, a, hsaw, hadmits⟩, saw_subject hsaw hsubject⟩

/-! ### Parameters and records -/

/-- The statement has been executed, unless the database was down, and its record is stored. -/
structure Settled (P : Platform) (w : World) (e : ServerEvent) : Prop where
  params : e.op.uuidParams.all isUuid = true
  executed : e.ans = .error (machine P).fault ∨ ∃ r, e.ans = (e.op.effect P r e.pre).1
  persisted : ∀ event, e.op = .log (.auditEvent event) →
    e.ans = .error (machine P).fault ∨ event ∈ w.auditLogs

/-- A statement with UUIDs for its UUID columns is not rejected. -/
theorem Settled.of_params (hreach : (machine P).Reachable World.Initial c)
    (hi : c.calls[i]? = some call) (he : e ∈ call.log)
    (hparams : e.op.uuidParams.all isUuid = true) : Settled P c.world e := by
  have hanswers := hreach.valid.answers hi e he
  have hlater := (hreach.ordered (auditLogs_stable P)).post hi e he
  obtain ⟨n, pre, s, ans, post⟩ := e
  rcases hanswers with ⟨r, hexec⟩ | ⟨hdown, _⟩
  · obtain ⟨hans, ledger, hpost, _⟩ := Stmt.exec_effect hparams hexec
    refine ⟨hparams, .inr ⟨r, hans⟩, ?_⟩
    rintro event rfl
    have hstored : event ∈ post.auditLogs := by
      rw [show post = _ from hpost]
      exact List.mem_cons_self ..
    exact .inr (hlater hstored)
  · exact ⟨hparams, .inl hdown, fun _ _ => .inl hdown⟩

/-- **The statements of a call get UUIDs**, if the subject it uses is one. -/
theorem params_of_subject (hreach : (machine P).Reachable World.InitialColumns c)
    (hi : c.calls[i]? = some call) (hpath : call.req.request.PathUuid)
    (hsubject : SubjectUuid call) (he : e ∈ call.log) : e.op.uuidParams.all isUuid = true := by
  have hinitial : (machine P).Reachable World.Initial c := hreach.imp fun _ => And.imp_left And.left
  have hmeets := handler_typed (P := P) (G := UsesSubject call) (L := FoundRevoked call.log)
    call.req hpath
  obtain ⟨l, hreaches, hl⟩ := hinitial.valid.reached hi e he
  have hanswered := (answered_hands hreach hi hsubject).suffix ((List.suffix_cons _ _).trans hl)
  exact hmeets.respects l e.op hreaches hanswered

/-! ### The resource API -/

/-- The resource API takes a subject for a user only if it is a UUID. -/
theorem identity_uuid {secret : Option String} {lines : List (String × String)}
    {me : ResourceIdentity} (h : ResourceApi.handle secret lines = .ok me) {u : String}
    (hu : me.userId = some u) : isUuid u = true := by
  simp only [ResourceApi.handle] at h
  cases hsecret : ResourceApi.requireGatewaySecret secret (Http.Headers.receive lines) with
  | error e =>
      rw [hsecret] at h
      cases h
  | ok _ =>
      rw [hsecret] at h
      change ResourceApi.requireIdentity _ = _ at h
      unfold ResourceApi.requireIdentity at h
      simp only at h
      split at h
      · cases h
      · obtain rfl := Except.ok.inj h
        exact (Option.filter_eq_some_iff.1 hu).2

theorem requireResourceScope_ne {anyOf : List String} {me : ResourceIdentity} {sqlState : String} :
    DocumentsRoutes.requireResourceScope anyOf me ≠ .error (.db sqlState) := by
  unfold DocumentsRoutes.requireResourceScope
  split <;> simp [Err.appError]

theorem list_typed {me : ResourceIdentity} {s : DocumentStore}
    (hme : ∀ u, me.userId = some u → isUuid u = true) :
    DocumentsRoutes.list me s ≠ .error (.db "22P02") := by
  unfold DocumentsRoutes.list
  cases hscope : DocumentsRoutes.requireResourceScope ["api.read"] me with
  | error e =>
      rintro ⟨⟩
      exact requireResourceScope_ne hscope
  | ok _ =>
      cases huser : me.userId with
      | none => exact nofun
      | some u =>
          change DocumentAnswer.listed <$> DocumentRepository.listByOwner u s ≠ _
          rw [DocumentRepository.listByOwner, if_neg (by simp [hme u huser])]
          exact nofun

theorem createSchema_ne {body : DocumentBody} {sqlState : String} :
    DocumentsRoutes.createSchema body ≠ .error (.db sqlState) := by
  unfold DocumentsRoutes.createSchema
  split
  · exact nofun
  · simp only
    split <;> exact nofun

theorem insertDocument_typed {r ownerId title : String} {content : Option String} {now : ℕ}
    {s s' : DocumentStore} (howner : isUuid ownerId = true) :
    DocumentRepository.create r now ownerId title content s ≠ some (.error (.db "22P02"), s') := by
  intro h
  unfold DocumentRepository.create at h
  split at h
  · rename_i sqlState hrefused
    cases h
    rw [DocumentRepository.refused, if_neg (by simp [howner])] at hrefused
    split_ifs at hrefused <;> simp at hrefused
  · split at h
    · split at h <;> cases h
    · simp at h

theorem create_typed {me : ResourceIdentity} {body : DocumentBody} {r : String} {now : ℕ}
    {s s' : DocumentStore} {answer : Except Err DocumentAnswer}
    (hme : ∀ u, me.userId = some u → isUuid u = true)
    (h : DocumentsRoutes.create me body r now s = some (answer, s')) :
    answer ≠ .error (.db "22P02") := by
  rintro rfl
  unfold DocumentsRoutes.create at h
  split at h
  · rename_i e hrefused
    cases h
    cases hscope : DocumentsRoutes.requireResourceScope ["api.write"] me with
    | error e =>
        rw [hscope] at hrefused
        obtain rfl := Except.error.inj hrefused
        exact requireResourceScope_ne hscope
    | ok _ =>
        rw [hscope] at hrefused
        exact createSchema_ne hrefused
  · rename_i title content haccepted
    split at h
    · cases h
    · rename_i u hu
      obtain ⟨⟨row, s₁⟩, hcreate, heq⟩ := Option.map_eq_some_iff.1 h
      cases row with
      | ok row => cases heq
      | error e =>
          obtain rfl := Except.error.inj (Prod.mk.inj heq).1
          exact insertDocument_typed (hme u hu) hcreate

theorem delete_typed {me : ResourceIdentity} {id : String} {s : DocumentStore} :
    (DocumentsRoutes.delete me id s).1 ≠ .error (.db "22P02") := by
  unfold DocumentsRoutes.delete
  split
  · rename_i e hscope
    rintro ⟨⟩
    exact requireResourceScope_ne hscope
  · split
    · exact nofun
    · split
      · exact nofun
      · split <;> exact nofun

/-- A route of the resource API does not fail on a type error. -/
theorem documents_typed {call : DocumentCall} {s s' : DocumentStore}
    {answer : Except Err DocumentAnswer} (hme : ∀ u, call.me.userId = some u → isUuid u = true)
    (h : DocumentsRoutes.handle call s = some (answer, s')) : answer ≠ .error (.db "22P02") := by
  unfold DocumentsRoutes.handle at h
  split at h
  · obtain ⟨rfl, rfl⟩ := Prod.mk.inj (Option.some.inj h)
    exact list_typed hme
  · exact create_typed hme h
  · obtain ⟨rfl, rfl⟩ := Prod.mk.inj (Option.some.inj h)
    exact delete_typed

/-- **UUID columns get UUIDs, and records are stored**, in every run in which no request gets as
far as to use a subject that is no UUID.  The resource API needs no such condition. -/
theorem uuid_parameters (hreach : (machine P).Reachable World.InitialColumns c)
    (hpaths : ∀ call ∈ c.calls, call.req.request.PathUuid)
    (hsubjects : ∀ call ∈ c.calls, SubjectUuid call) :
    (∀ call ∈ c.calls, ∀ e ∈ call.log, Settled P c.world e) ∧
      ∀ secret lines me, ResourceApi.handle secret lines = .ok me →
        ∀ request id now s answer s',
          DocumentsRoutes.handle ⟨me, request, id, now⟩ s = some (answer, s') →
            answer ≠ .error (.db "22P02") := by
  refine ⟨fun call hcall e he => ?_, fun secret lines me hme request id now s answer s' h =>
    documents_typed (fun u hu => identity_uuid hme hu) h⟩
  obtain ⟨i, hi⟩ := List.mem_iff_getElem?.1 hcall
  exact .of_params (hreach.imp fun _ => And.imp_left And.left) hi he
    (params_of_subject hreach hi (hpaths call hcall) (hsubjects call hcall) he)

/-! ### A service token -/

/-- The claims that an event has verified. -/
def verifiedPayload? : ServerEvent → Option JwtPayload
  | ⟨_, _, .kms (.jwtVerify ..), .ok payload, _⟩ => some payload
  | _ => none

/-- All verified claims have a UUID for their subject. -/
def verifiedUuids (l : ServerLog) : Bool :=
  l.all fun e => (verifiedPayload? e).all fun payload => isUuid payload.sub

theorem SubjectUuid.of_verified (h : verifiedUuids call.log = true) : SubjectUuid call := by
  rintro _ payload ⟨⟨kid, token, requiresScope, n, pre, post, he⟩, _⟩
  have hverified := List.all_eq_true.1 h _ he
  simpa [verifiedPayload?] using hverified

theorem World.initialColumns_sample : World.sample.InitialColumns :=
  ⟨World.initial_sample,
    { users := by decide +kernel
      clients := by decide +kernel
      codes := by decide +kernel
      sessions := by decide +kernel
      refreshTokens := by simp [World.initial_sample.refreshTokens]
      mfaMethods := by decide +kernel
      emailVerifications := by decide +kernel
      passwordResetTokens := by decide +kernel }⟩

/-- An administrator signs in and registers a client. -/
theorem uuid_parameters_of_registration : ∃ c : ServerConfig,
    sampleRun registerServiceMoves = some c ∧ c.calls.length = 2 ∧
      (∀ call ∈ c.calls, ∀ e ∈ call.log, Settled .sample c.world e) := by
  have hplay : (sampleRun registerServiceMoves).any (fun c =>
      decide (c.calls.length = 2) && c.calls.all fun call => verifiedUuids call.log &&
        call.req.request.pathId?.all fun id => isUuid (canonicalUuid id)) = true := by
    decide +kernel
  obtain ⟨c, hc, hall⟩ := (Option.any_eq_true _ _).1 hplay
  obtain ⟨hlength, hall⟩ := Bool.and_eq_true_iff.1 hall
  have hcalls := fun call hcall => Bool.and_eq_true_iff.1 (List.all_eq_true.1 hall call hcall)
  have hreach : (machine .sample).Reachable World.InitialColumns c :=
    ⟨_, World.initialColumns_sample, run_of_play hc⟩
  have hsettled := uuid_parameters hreach (fun call hcall => (hcalls call hcall).2)
    fun call hcall => .of_verified (hcalls call hcall).1
  exact ⟨c, hc, of_decide_eq_true hlength, hsettled.1⟩

/-- Call 3 revokes the token of a new client. -/
def revokeServiceMoves : List (Move World Incoming Env) :=
  registerServiceMoves ++ credentialsMoves 2 "api.read" ++
    [.accept fun w => ⟨.revoke ((lastBearer w).getD (.raw "")), {}⟩, .steps 3 40]

/-- **The revocation of a service token is not recorded**, and nobody is told. -/
theorem service_revocation_not_recorded :
    (∃ c : ServerConfig, sampleRun revokeServiceMoves = some c ∧
      c.returned 3 = some (.status "revoked") ∧
      ∀ event ∈ c.world.auditLogs, event.eventType ≠ "TOKEN_REVOKED") ∧
    ¬∀ c : ServerConfig, (machine .sample).Reachable World.InitialColumns c →
      (∀ call ∈ c.calls, call.req.request.PathUuid) →
      ∀ call ∈ c.calls, ∀ e ∈ call.log, Settled .sample c.world e := by
  have hplay : (sampleRun revokeServiceMoves).any (fun c =>
      decide (c.returned 3 = some (.status "revoked")) &&
      decide (∀ event ∈ c.world.auditLogs, event.eventType ≠ "TOKEN_REVOKED") &&
      (c.calls.all fun call => call.req.request.pathId?.all fun id => isUuid (canonicalUuid id)) &&
      c.calls.any fun call => call.log.any fun e => !e.op.uuidParams.all isUuid) = true := by
    decide +kernel
  obtain ⟨c, hc, hall⟩ := (Option.any_eq_true _ _).1 hplay
  obtain ⟨hall, hrejected⟩ := Bool.and_eq_true_iff.1 hall
  obtain ⟨hall, hpaths⟩ := Bool.and_eq_true_iff.1 hall
  obtain ⟨hreturned, hnone⟩ := Bool.and_eq_true_iff.1 hall
  refine ⟨⟨c, hc, of_decide_eq_true hreturned, of_decide_eq_true hnone⟩, fun hall => ?_⟩
  have hreach : (machine .sample).Reachable World.InitialColumns c :=
    ⟨_, World.initialColumns_sample, run_of_play hc⟩
  obtain ⟨call, hcall, hlog⟩ := List.any_eq_true.1 hrejected
  obtain ⟨e, he, hparams⟩ := List.any_eq_true.1 hlog
  have hsettled := hall c hreach (List.all_eq_true.1 hpaths) call hcall e he
  rw [hsettled.params] at hparams
  cases hparams

end IdentityPlatform
