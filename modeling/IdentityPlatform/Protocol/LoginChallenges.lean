/-
# The statements of a verification

A verification of a login challenge reads the challenge, may check a code and may write
the challenge, each once and in this order.  `trace` keeps of a log only these
statements, and `Allowed` says which of them may come next.
-/

import IdentityPlatform.Protocol.SessionTokens

namespace IdentityPlatform

open Interleaving Program Relational Machine AuthServer

variable {P : Platform} {c : ServerConfig} {i j : ℕ} {call call' : ServerCall} {e : ServerEvent}
  {id code : String} {l₀ l l' : ServerLog} {ctx : RequestContext} {challenge : MfaChallengePayload}

/-- The statement reads or writes a login challenge, or checks a code. -/
def Stmt.touches : Stmt → Bool
  | .redis (.getChallenge _) | .redis (.set (.mfaChallenge _) ..) | .redis (.del (.mfaChallenge _))
  | .runtime (.totpCheck ..) => true
  | _ => false

/-- What a log has to do with login challenges and codes. -/
def trace (l : ServerLog) : ServerLog := l.filter fun e => e.op.touches

/-- The event reads the challenge. -/
inductive Reads (id : String) (challenge : MfaChallengePayload) : ServerEvent → Prop
  | read {n pre post} : Reads id challenge
      ⟨n, pre, .redis (.getChallenge (.mfaChallenge id)), .ok (some challenge), post⟩

/-- The event finds a code right or wrong. -/
inductive Checks (right : Bool) : ServerEvent → Prop
  | check {n pre code secret post} :
      Checks right ⟨n, pre, .runtime (.totpCheck code secret), .ok right, post⟩

/-- **What a verification may do next**, by its trace. -/
inductive Allowed (id code : String) : ServerLog → Stmt → Prop
  | read : Allowed id code [] (.redis (.getChallenge (.mfaChallenge id)))
  | check {r challenge secret} (read : Reads id challenge r) (fresh : challenge.attempts < 3) :
      Allowed id code [r] (.runtime (.totpCheck code secret))
  | unchecked {r challenge ttl} (read : Reads id challenge r) (fresh : challenge.attempts < 3) :
      Allowed id code [r] (.redis (.set (.mfaChallenge id)
        (.challenge { challenge with attempts := challenge.attempts + 1 }) ttl))
  | count {k r challenge ttl} (read : Reads id challenge r) (fresh : challenge.attempts < 3)
      (wrong : Checks false k) : Allowed id code [k, r] (.redis (.set (.mfaChallenge id)
        (.challenge { challenge with attempts := challenge.attempts + 1 }) ttl))
  | drop {r challenge} (read : Reads id challenge r) (spent : 3 ≤ challenge.attempts) :
      Allowed id code [r] (.redis (.del (.mfaChallenge id)))
  | consume {k r challenge} (read : Reads id challenge r) (fresh : challenge.attempts < 3)
      (right : Checks true k) : Allowed id code [k, r] (.redis (.del (.mfaChallenge id)))

/-! ### Statements that do not touch challenges -/

/-- The statement leaves the trace as it is. -/
def Stmt.Untouching (_ : ServerLog) (s : Stmt) : Prop := s.touches = false

theorem trace_returns {α : Type} {p : Prog α} {r : Except Err α} (h : p.Returns l₀ l r)
    (hp : Respects Stmt.Untouching l₀ p) : trace l = trace l₀ := by
  refine hp.keeps (O := fun l => trace l = trace l₀) (fun l e hop hl => ?_) h rfl
  rw [trace, List.filter_cons_of_neg (by simpa [Stmt.Untouching] using hop)]
  exact hl

theorem trace_next {s : Stmt} {ans : Except Err s.Ans} (h : Log.Next l₀ l s ans)
    (hs : s.touches = true) : ∃ n pre post, trace l = ⟨n, pre, s, ans, post⟩ :: trace l₀ := by
  obtain ⟨n, pre, post, rfl⟩ := h
  exact ⟨n, pre, post, List.filter_cons_of_pos hs⟩

section Untouching

@[simp] theorem record_untouching {event : AuditEvent} :
    Respects Stmt.Untouching l₀ (AuditLogService.record event) := by
  simp [AuditLogService.record, Stmt.Untouching, Stmt.touches]

@[simp] theorem signingKey_untouching {kid : Option String} :
    Respects Stmt.Untouching l₀ (JwtService.signingKey kid) := by
  unfold JwtService.signingKey
  split <;> simp [Stmt.Untouching, Stmt.touches]

@[simp] theorem maybeAuthenticate_untouching {bearer : Option WireToken} :
    Respects Stmt.Untouching l₀ (maybeAuthenticate bearer) := by
  cases bearer with
  | none => simp [maybeAuthenticate]
  | some token =>
      cases token <;>
        simp [maybeAuthenticate, authenticate, JwtService.verifyAccessToken,
          JwtService.checkAccessToken, TokenRevocationService.isRevoked,
          Stmt.Untouching, Stmt.touches]

@[simp] theorem loadFresh_untouching {id : String} :
    Respects Stmt.Untouching l₀ (SessionRepository.loadFresh id) := by
  refine .bind (by simp [Stmt.Untouching, Stmt.touches]) fun l row _ => ?_
  cases row <;> simp [Stmt.Untouching, Stmt.touches]

@[simp] theorem findById_untouching {id : String} :
    Respects Stmt.Untouching l₀ (SessionRepository.findById id) := by
  refine .bind (by simp [Stmt.Untouching, Stmt.touches]) fun l cached _ => ?_
  cases cached with
  | none => simp
  | some session =>
      refine respects_ite.2 ⟨fun _ => by simp, fun _ => .bind (by simp) fun l fresh _ => ?_⟩
      cases fresh <;> simp [Stmt.Untouching, Stmt.touches]

@[simp] theorem issueSessionTokensForSession_untouching {sessionId userId : String}
    {amr : List String} : Respects Stmt.Untouching l₀
      (AuthService.issueSessionTokensForSession P sessionId userId amr ctx) := by
  simp [AuthService.issueSessionTokensForSession, UserRepository.findById, UserRepository.rolesOf,
    UserRepository.permissionsOf, UserRepository.setLastLogin, UserRepository.clearLockAndFailures,
    JwtService.signAccessToken, RefreshTokenService.issue, expiresIn, Stmt.Untouching, Stmt.touches]

end Untouching

/-! ### The trace of a verification -/

/-- The statement is allowed by the trace, if it touches a challenge. -/
def Stmt.Traced (id code : String) (l : ServerLog) (s : Stmt) : Prop :=
  s.touches = true → Allowed id code (trace l) s

theorem traced_of_untouching {α : Type} {p : Prog α} (h : Respects Stmt.Untouching l₀ p) :
    Respects (Stmt.Traced id code) l₀ p :=
  h.mono fun l s _ hs ht => by rw [show s.touches = false from hs] at ht; cases ht

/-- A wrong code is counted once, and nothing comes after it. -/
theorem rejectCode_traced (h : ∀ ttl, Allowed id code (trace l₀) (.redis (.set (.mfaChallenge id)
      (.challenge { challenge with attempts := challenge.attempts + 1 }) ttl))) :
    Respects (Stmt.Traced id code) l₀ (MfaService.rejectCode P id challenge) :=
  .bind (respects_query.2 fun _ => h _) fun l _ _ => by simp

theorem checkChallengeCode_traced {r : ServerEvent} (hread : Reads id challenge r)
    (hfresh : challenge.attempts < 3) (htrace : trace l₀ = [r]) :
    Respects (Stmt.Traced id code) l₀ (MfaService.checkChallengeCode P id code challenge) := by
  refine .bind (traced_of_untouching (by simp [Stmt.Untouching, Stmt.touches]))
    fun l₁ active h₁ => ?_
  have h₁ : trace l₁ = [r] := by
    rw [trace_returns h₁ (by simp [Stmt.Untouching, Stmt.touches]), htrace]
  split
  · exact rejectCode_traced fun ttl => h₁ ▸ .unchecked hread hfresh
  · refine .bind (respects_query.2 fun _ => h₁ ▸ .check hread hfresh) fun l₂ ok h₂ => ?_
    obtain ⟨n, pre, post, h₂⟩ := trace_next h₂.next rfl
    rw [h₁] at h₂
    refine respects_ite.2 ⟨fun _ => by simp, fun hok => rejectCode_traced fun ttl => ?_⟩
    obtain rfl : ok = false := by simpa using hok
    exact h₂ ▸ .count hread hfresh .check

/-- A verification that goes on has found its code right. -/
theorem checkChallengeCode_trace {r : ServerEvent} {method : MfaMethodRow}
    (htrace : trace l₀ = [r])
    (h : (MfaService.checkChallengeCode P id code challenge).Returns l₀ l (.ok method)) :
    ∃ k, Checks true k ∧ trace l = [k, r] := by
  obtain ⟨l₁, active, h₁, _, h⟩ := h.of_bind
  have h₁ : trace l₁ = [r] := by
    rw [trace_returns h₁ (by simp [Stmt.Untouching, Stmt.touches]), htrace]
  split at h
  · exact (rejectCode_fails h).elim
  · obtain ⟨l₂, ok, h₂, _, h⟩ := h.of_bind
    obtain ⟨n, pre, post, h₂⟩ := trace_next h₂.next rfl
    rw [h₁] at h₂
    split_ifs at h with hok
    · obtain ⟨rfl, _⟩ := returns_pure.1 h
      exact ⟨_, hok ▸ .check, h₂⟩
    · exact (rejectCode_fails h).elim

theorem verifyLoginChallenge_traced (htrace : trace l₀ = []) :
    Respects (Stmt.Traced id code) l₀ (MfaService.verifyLoginChallenge P id code) := by
  refine .bind (respects_query.2 fun _ => htrace ▸ .read) fun l₁ stored h₁ => ?_
  refine .bind (traced_of_untouching (by simp)) fun l₂ challenge h₂ => ?_
  obtain ⟨rfl, rfl⟩ := returns_orThrow_ok.1 h₂
  obtain ⟨r, hread, htrace₂⟩ : ∃ r, Reads id challenge r ∧ trace l₂ = [r] := by
    obtain ⟨n, pre, post, htrace₂⟩ := trace_next h₁.next rfl
    exact ⟨_, .read, htrace ▸ htrace₂⟩
  refine .bind (respects_onlyIf.2 fun hspent => ?_) fun l₃ _ h₃ => ?_
  · exact .bind (respects_query.2 fun _ => htrace₂ ▸ .drop hread hspent) fun l _ _ => by simp
  have hfresh : challenge.attempts < 3 ∧ l₃ = l₂ := by
    rcases returns_onlyIf_ok.1 h₃ with ⟨_, h⟩ | ⟨hfresh, rfl⟩
    · obtain ⟨_, _, _, _, h⟩ := h.of_bind
      cases (returns_throw.1 h).2
    · exact ⟨Nat.lt_of_not_le hfresh, rfl⟩
  obtain ⟨hfresh, rfl⟩ := hfresh
  refine .bind (checkChallengeCode_traced hread hfresh htrace₂) fun l₄ method h₄ => ?_
  obtain ⟨k, hright, h₄⟩ := checkChallengeCode_trace htrace₂ h₄
  refine .bind (traced_of_untouching (by simp [Stmt.Untouching, Stmt.touches])) fun l₅ _ h₅ => ?_
  refine .bind (traced_of_untouching (by simp [Stmt.Untouching, Stmt.touches])) fun l₆ _ h₆ => ?_
  have h₆ : trace l₆ = [k, r] := by
    rw [trace_returns h₆ (by simp [Stmt.Untouching, Stmt.touches]),
      trace_returns h₅ (by simp [Stmt.Untouching, Stmt.touches]), h₄]
  exact .bind (respects_query.2 fun _ => h₆ ▸ .consume hread hfresh hright) fun l₇ _ _ => by simp

/-- A verification that returns has found its code right and deleted the challenge. -/
theorem verifyLoginChallenge_succeeds {sessionId : String} (htrace : trace l₀ = [])
    (h : (MfaService.verifyLoginChallenge P id code).Returns l₀ l (.ok sessionId)) :
    (∃ k ∈ l, Checks true k) ∧ l.Saw (.redis (.del (.mfaChallenge id))) (.ok ()) := by
  obtain ⟨l₁, stored, h₁, _, hrest⟩ := h.of_bind
  obtain ⟨l₂, challenge, h₂, _, hbody⟩ := hrest.of_bind
  obtain ⟨rfl, rfl⟩ := returns_orThrow_ok.1 h₂
  obtain ⟨l₃, _, h₃, _, hcheck⟩ := hbody.of_bind
  obtain rfl : l₃ = l₂ := by
    rcases returns_onlyIf_ok.1 h₃ with ⟨_, hspent⟩ | ⟨_, rfl⟩
    · obtain ⟨_, _, _, _, hthrow⟩ := hspent.of_bind
      cases (returns_throw.1 hthrow).2
    · rfl
  obtain ⟨n, pre, post, htrace₁⟩ := trace_next h₁.next rfl
  rw [htrace] at htrace₁
  obtain ⟨l₄, method, h₄, hl₄, hpassed⟩ := hcheck.of_bind
  obtain ⟨k, hright, h₄⟩ := checkChallengeCode_trace htrace₁ h₄
  obtain ⟨l₅, _, _, _, htouch⟩ := hpassed.of_bind
  obtain ⟨l₆, _, _, _, hdel⟩ := htouch.of_bind
  obtain ⟨l₇, _, h₇, hl₇, _⟩ := hdel.of_bind
  have hk : k ∈ trace l₄ := h₄ ▸ List.mem_cons_self ..
  exact ⟨⟨k, hl₄.subset (List.mem_filter.1 hk).1, hright⟩, h₇.saw.mono hl₇⟩

/-- **Every verification keeps to the order**: what it does next is allowed. -/
theorem verification_traced {bearer : Option WireToken} :
    Respects (Stmt.Traced id code) [] (AuthServer.mfaVerify P bearer (.challenge id code) ctx) := by
  refine .bind (traced_of_untouching (by simp)) fun l₁ user h₁ => ?_
  refine .bind ?_ fun l₂ _ _ => by simp
  refine .bind (verifyLoginChallenge_traced (trace_returns h₁ (by simp))) fun l₂ sessionId _ => ?_
  refine traced_of_untouching (.bind (by simp) fun l₃ found _ => ?_)
  refine .bind (by simp) fun l₄ session _ => ?_
  exact .bind (by simp) fun l₅ _ _ => by simp

/-! ### Verifications in a run -/

/-- The call is a verification of the challenge. -/
def Verifies (id : String) (call : ServerCall) : Prop :=
  ∃ bearer code, call.req.request = .mfaVerify bearer (.challenge id code)

/-- The event writes the challenge. -/
inductive Writes (id : String) : ServerEvent → Prop
  | set {n pre value ttl post} :
      Writes id ⟨n, pre, .redis (.set (.mfaChallenge id) value ttl), .ok (), post⟩
  | del {n pre post} : Writes id ⟨n, pre, .redis (.del (.mfaChallenge id)), .ok (), post⟩

theorem verification_allowed (hv : (machine P).Valid c) (hi : c.calls[i]? = some call)
    (h : Verifies id call) (hl : e :: l <:+ call.log) (ht : e.op.touches = true) :
    ∃ code, Allowed id code (trace l) e.op := by
  obtain ⟨bearer, code, hrequest⟩ := h
  obtain ⟨l', hreach, hl'⟩ := hv.reached hi e (hl.subset (List.mem_cons_self ..))
  obtain rfl := hv.place hi hl hl'
  have htraced : Respects (Stmt.Traced id code) [] ((machine P).handler call.req) := by
    change Respects _ _ (AuthServer.handler P call.req)
    unfold AuthServer.handler
    rw [hrequest]
    exact verification_traced
  exact ⟨code, htraced l e.op hreach ht⟩

theorem mem_trace (he : e ∈ l) (ht : e.op.touches = true) : e ∈ trace l :=
  List.mem_filter.2 ⟨he, ht⟩

/-- Before a challenge is read, the verification has touched nothing. -/
theorem Reads.first (hv : (machine P).Valid c) (hi : c.calls[i]? = some call)
    (h : Verifies id call) (hread : Reads id challenge e) (hl : e :: l <:+ call.log) :
    trace l = [] := by
  have ht : e.op.touches = true := by cases hread; rfl
  obtain ⟨code, hallowed⟩ := verification_allowed hv hi h hl ht
  cases hread
  generalize trace l = t at hallowed
  cases hallowed
  rfl

/-- Before a code is checked, the challenge has been read, and found to allow it. -/
theorem Checks.second {right : Bool} (hv : (machine P).Valid c) (hi : c.calls[i]? = some call)
    (h : Verifies id call) (hcheck : Checks right e) (hl : e :: l <:+ call.log) :
    ∃ r challenge, Reads id challenge r ∧ challenge.attempts < 3 ∧ trace l = [r] := by
  have ht : e.op.touches = true := by cases hcheck; rfl
  obtain ⟨code, hallowed⟩ := verification_allowed hv hi h hl ht
  cases hcheck
  generalize trace l = t at hallowed
  cases hallowed with
  | check read fresh => exact ⟨_, _, read, fresh, rfl⟩

/-- Before a challenge is written, it has been read, and perhaps a code has been checked;
if the code was wrong, the write counts it. -/
theorem Writes.last (hv : (machine P).Valid c) (hi : c.calls[i]? = some call)
    (h : Verifies id call) (hwrite : Writes id e) (hl : e :: l <:+ call.log) :
    ∃ r challenge, Reads id challenge r ∧
      (trace l = [r] ∨ ∃ right k, Checks right k ∧ trace l = [k, r]) ∧
      ∀ value ttl, e.op = .redis (.set (.mfaChallenge id) value ttl) →
        value = .challenge { challenge with attempts := challenge.attempts + 1 } := by
  have ht : e.op.touches = true := by cases hwrite <;> rfl
  obtain ⟨code, hallowed⟩ := verification_allowed hv hi h hl ht
  cases hwrite with
  | set =>
      generalize trace l = t at hallowed
      cases hallowed with
      | unchecked read _ => exact ⟨_, _, read, .inl rfl, by rintro _ _ ⟨⟩; rfl⟩
      | count read _ wrong => exact ⟨_, _, read, .inr ⟨_, _, wrong, rfl⟩, by rintro _ _ ⟨⟩; rfl⟩
  | del =>
      generalize trace l = t at hallowed
      cases hallowed with
      | drop read _ => exact ⟨_, _, read, .inl rfl, by rintro _ _ ⟨⟩⟩
      | consume read _ right => exact ⟨_, _, read, .inr ⟨_, _, right, rfl⟩, by rintro _ _ ⟨⟩⟩

/-- What has never happened before it happens, happens once. -/
theorem eq_of_first {α : Type} {p : α → Prop} {log : List α}
    (h : ∀ a l, a :: l <:+ log → p a → ∀ b ∈ l, ¬p b) {a b : α} (ha : a ∈ log) (hb : b ∈ log)
    (hpa : p a) (hpb : p b) : a = b := by
  induction log with
  | nil => cases ha
  | cons d log ih =>
      have hhead := h d log (List.suffix_refl _)
      rcases List.mem_cons.1 ha with rfl | ha' <;> rcases List.mem_cons.1 hb with rfl | hb'
      · rfl
      · exact absurd hpb (hhead hpa b hb')
      · exact absurd hpa (hhead hpb a ha')
      · exact ih (fun a l hl => h a l (hl.trans (List.suffix_cons ..))) ha' hb'

theorem reads_once (hv : (machine P).Valid c) (hi : c.calls[i]? = some call) (h : Verifies id call)
    {e' : ServerEvent} {challenge' : MfaChallengePayload} (he : e ∈ call.log) (he' : e' ∈ call.log)
    (hread : Reads id challenge e) (hread' : Reads id challenge' e') : e = e' := by
  refine eq_of_first (p := fun e => ∃ challenge, Reads id challenge e) ?_ he he' ⟨_, hread⟩
    ⟨_, hread'⟩
  rintro a l hl ⟨challenge, hread⟩ b hb ⟨_, hread'⟩
  have hmem : b ∈ trace l := mem_trace hb (by cases hread'; rfl)
  rw [hread.first hv hi h hl] at hmem
  cases hmem

theorem checks_once (hv : (machine P).Valid c) (hi : c.calls[i]? = some call) (h : Verifies id call)
    {e' : ServerEvent} {right right' : Bool} (he : e ∈ call.log) (he' : e' ∈ call.log)
    (hcheck : Checks right e) (hcheck' : Checks right' e') : e = e' := by
  refine eq_of_first (p := fun e => ∃ right, Checks right e) ?_ he he' ⟨_, hcheck⟩ ⟨_, hcheck'⟩
  rintro a l hl ⟨right, hcheck⟩ b hb ⟨_, hcheck'⟩
  have hmem : b ∈ trace l := mem_trace hb (by cases hcheck'; rfl)
  obtain ⟨r, _, hread, _, htrace⟩ := hcheck.second hv hi h hl
  rw [htrace, List.mem_singleton] at hmem
  subst hmem
  cases hread
  cases hcheck'

theorem writes_once (hv : (machine P).Valid c) (hi : c.calls[i]? = some call) (h : Verifies id call)
    {e' : ServerEvent} (he : e ∈ call.log) (he' : e' ∈ call.log) (hwrite : Writes id e)
    (hwrite' : Writes id e') : e = e' := by
  refine eq_of_first (p := Writes id) ?_ he he' hwrite hwrite'
  intro a l hl hwrite b hb hwrite'
  have hmem : b ∈ trace l := mem_trace hb (by cases hwrite' <;> rfl)
  obtain ⟨r, _, hread, htrace | ⟨_, k, hcheck, htrace⟩, _⟩ := hwrite.last hv hi h hl
  · rw [htrace, List.mem_singleton] at hmem
    subst hmem
    cases hread
    cases hwrite'
  · rw [htrace] at hmem
    rcases List.mem_cons.1 hmem with rfl | hmem
    · cases hcheck
      cases hwrite'
    · rw [List.mem_singleton] at hmem
      subst hmem
      cases hread
      cases hwrite'

end IdentityPlatform
