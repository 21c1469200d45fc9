/-
# The secrets of active methods

`confirmEnroll` checks a code against the pending secret it has read, and then activates
whatever row of the user is there.  As long as no enrollment stores another secret in
between, an active method has a secret that a code was checked against since it was stored.
-/

import IdentityPlatform.Protocol.SecondFactors

namespace IdentityPlatform

open Interleaving Program Relational Machine AuthServer

variable {P : Platform} {c : ServerConfig} {i : ℕ} {call : ServerCall} {e : ServerEvent}
  {u secret : String} {l₀ l : ServerLog} {w : World}

/-- The event stores a secret for the user. -/
def StoresSecret (u : String) (e : ServerEvent) : Prop :=
  ∃ n pre secret post, e = ⟨n, pre, .mfaMethods (.upsertPending u secret), .ok (), post⟩

/-- A code was checked against the secret after the last secret of the user was stored. -/
def CheckedSinceStored (u secret : String) (c : ServerConfig) : Prop :=
  ∃ (i : ℕ) (call : ServerCall) (n : ℕ) (pre post : World) (code : String),
    c.calls[i]? = some call ∧
    (⟨n, pre, .runtime (.totpCheck code secret), .ok true, post⟩ : ServerEvent) ∈ call.log ∧
    ∀ (j : ℕ) call', c.calls[j]? = some call' → ∀ e ∈ call'.log, StoresSecret u e → e.seq < n

/-- **No enrollment comes between**: from where a call has read the pending method of the
user to where it activates it, no secret is stored for the user. -/
def EnrollmentsApart (u : String) (c : ServerConfig) : Prop :=
  ∀ (i : ℕ) call, c.calls[i]? = some call → ∀ n pre post l n' pre' method post',
    (⟨n, pre, .mfaMethods (.activate u), .ok (), post⟩ : ServerEvent) :: l <:+ call.log →
    (⟨n', pre', .mfaMethods (.selectByStatus u .pending), .ok (some method), post'⟩ :
      ServerEvent) ∈ l →
    ∀ (j : ℕ) call', c.calls[j]? = some call' → ∀ e ∈ call'.log, StoresSecret u e →
      ¬(n' < e.seq ∧ e.seq < n)

/-! ### The order of one confirmation -/

/-- The method of the user is activated after a code was checked against the secret of the
pending one, which was read before. -/
def ActivatesChecked (l : ServerLog) : Stmt → Prop
  | .mfaMethods (.activate u) => ∃ (l' : ServerLog) (code : String) (method : MfaMethodRow),
      l'.Saw (.mfaMethods (.selectByStatus u .pending)) (.ok (some method)) ∧
      Log.SawSince l' l (.runtime (.totpCheck code method.secret)) (.ok true)
  | _ => True

theorem activatesChecked_of_plain {α : Type} {p : Prog α} (h : Respects Stmt.Plain l₀ p) :
    Respects ActivatesChecked l₀ p :=
  h.mono fun l s _ hs => by
    unfold ActivatesChecked
    split
    · exact hs.elim
    · trivial

theorem confirmEnroll_checked {userId code : String} :
    Respects ActivatesChecked l₀ (MfaService.confirmEnroll userId code) := by
  refine .bind (by simp [ActivatesChecked]) fun l₁ pending h₁ => ?_
  refine .bind (by simp) fun l₂ method h₂ => ?_
  refine .bind (by simp [ActivatesChecked]) fun l₃ ok h₃ => ?_
  refine .bind (by simp) fun l₄ _ h₄ => ?_
  obtain ⟨rfl, rfl⟩ := returns_orThrow_ok.1 h₂
  obtain ⟨rfl, hok⟩ := returns_throwIf_ok.1 h₄
  obtain rfl : ok = true := by simpa using hok
  refine .bind (respects_query.2 ?_) fun l₅ _ _ => by simp [ActivatesChecked]
  exact ⟨l₂, code, method, h₁.saw, l₂, List.suffix_refl _, h₃.step⟩

/-- **What an activation follows**: the read of the pending method, then the check. -/
theorem activated_checked (hv : (machine P).Valid c) (hi : c.calls[i]? = some call) {n : ℕ}
    {pre post : World}
    (he : (⟨n, pre, .mfaMethods (.activate u), .ok (), post⟩ : ServerEvent) ∈ call.log) :
    ∃ l, (⟨n, pre, .mfaMethods (.activate u), .ok (), post⟩ : ServerEvent) :: l <:+ call.log ∧
      ActivatesChecked l (.mfaMethods (.activate u)) := by
  have hrespects : ∀ req : Incoming, Respects (fun l s => Justified P req.request l s ∧
      ∀ bearer code, req.request = .mfaVerify bearer (.enrollment code) → ActivatesChecked l s) []
      ((machine P).handler req) := by
    rintro ⟨request, ctx⟩ l s hs
    refine ⟨handler_justified _ l s hs, fun bearer code hrequest => ?_⟩
    dsimp only at hrequest
    subst hrequest
    refine Respects.bind (activatesChecked_of_plain (by simp)) (fun l₁ user _ => ?_) l s hs
    refine .bind (by simp) fun l₂ user _ => ?_
    exact .bind confirmEnroll_checked fun l₃ _ _ => activatesChecked_of_plain (by simp)
  obtain ⟨l, ⟨⟨bearer, code, _, hrequest, _⟩, hchecked⟩, hl⟩ := hv.respected hrespects hi he
  exact ⟨l, hl, hchecked bearer code hrequest⟩

/-! ### The stored secret -/

/-- The method of the user has this secret. -/
def World.HasSecret (u secret : String) (w : World) : Prop :=
  ∃ m ∈ w.mfaMethods, m.userId = u ∧ m.secret = secret

/-- The method of the user is active and has this secret. -/
def World.ActiveSecret (u secret : String) (w : World) : Prop :=
  ∃ m ∈ w.mfaMethods, m.userId = u ∧ m.status = .active ∧ m.secret = secret

/-- **A secret is replaced** only where another one is stored. -/
theorem secret_replaced (hv : (machine P).Valid c) (hi : c.calls[i]? = some call)
    (he : e ∈ call.log) (hpre : e.pre.HasSecret u secret) (hpost : ¬e.post.HasSecret u secret) :
    StoresSecret u e := by
  have hanswers := hv.answers hi e he
  obtain ⟨n, pre, s, ans, post⟩ := e
  obtain ⟨m, hm, rfl, rfl⟩ := hpre
  have hnot : ∀ b ∈ post.mfaMethods, b.userId = m.userId → b.secret ≠ m.secret :=
    fun b hb huser hsecret => hpost ⟨b, hb, huser, hsecret⟩
  rcases hanswers with ⟨r, hexec⟩ | ⟨_, hpost⟩
  · cases ans with
    | error _ =>
        obtain ⟨⟨ledger, hfailed⟩, _⟩ := Stmt.exec_failed hexec
        obtain rfl : post = { pre with generated := ledger } := hfailed
        exact absurd rfl (hnot m hm rfl)
    | ok v =>
        obtain ⟨b, hb, rfl | ⟨s, rfl, hu⟩⟩ := (Stmt.exec_mfaMethods hexec).mem_of_mem hm
        · exact absurd rfl (hnot b hb rfl)
        · cases s with
          | upsertPending userId secret =>
              obtain ⟨rfl, rfl⟩ := hu
              exact ⟨n, pre, secret, post, rfl⟩
          | activate | touchUsed | disable =>
              obtain ⟨_, rfl⟩ := hu
              exact (hnot _ hb rfl rfl).elim
          | hasActive | selectByStatus => exact hu.elim
  · obtain rfl : post = pre := hpost
    exact absurd rfl (hnot m hm rfl)

/-- A secret that has just been stored is not active. -/
theorem StoresSecret.not_active (hreach : (machine P).Reachable World.Unenrolled c)
    (hi : c.calls[i]? = some call) (he : e ∈ call.log) (h : StoresSecret u e) :
    ¬e.post.ActiveSecret u secret := by
  obtain ⟨n, pre, stored, post, rfl⟩ := h
  rintro ⟨m, hm, rfl, hactive, _⟩
  have hmethods := ((reachable_methods hreach).2 i call hi _ he).2
  obtain ⟨a, ha, huser, _, _⟩ := active_cases hreach.valid hi he hm hactive
  have hpending := Stmt.updateMethod_answer (executed hreach.valid hi he) ha ⟨huser, rfl⟩
  obtain rfl := hmethods.unique hm hpending huser.symm
  cases hactive

/-- **What is activated has been checked**: in a run whose enrollments are apart, the
secret in the row is the one a code was checked against, and none was stored since. -/
theorem activation_checked (hreach : (machine P).Reachable World.Initial c)
    (hapart : EnrollmentsApart u c) (hi : c.calls[i]? = some call) {n : ℕ} {pre post : World}
    (he : (⟨n, pre, .mfaMethods (.activate u), .ok (), post⟩ : ServerEvent) ∈ call.log) :
    ∃ k pre' post' code secret, pre.HasSecret u secret ∧
      (⟨k, pre', .runtime (.totpCheck code secret), .ok true, post'⟩ : ServerEvent) ∈ call.log ∧
      ∀ (j : ℕ) call', c.calls[j]? = some call' → ∀ e ∈ call'.log, StoresSecret u e →
        e.seq < n → e.seq < k := by
  have hv := hreach.valid
  obtain ⟨l, hl, l', code, method, ⟨n', pre', post', hread⟩, l'', hl'', k, preₖ, postₖ, hcheck⟩ :=
    activated_checked hv hi he
  have hlog : l <:+ call.log := (List.suffix_cons _ l).trans hl
  have hearlier := hl''.subset hread
  have hreadₗ := hcheck.subset (List.mem_cons_of_mem _ hearlier)
  have hreadlog := hlog.subset hreadₗ
  have hlt : n' < k := hv.earlier hi (hcheck.trans hlog) hearlier
  have hapart' := hapart i call hi n pre post l n' pre' method post' hl hreadₗ
  refine ⟨k, preₖ, postₖ, code, method.secret, ?_,
    hlog.subset (hcheck.subset (List.mem_cons_self ..)),
    fun j call' hj e' he' hstores hbefore => ?_⟩
  · obtain ⟨hmethod, huser, _⟩ := Stmt.selectByStatus_answer (executed hv hi hreadlog)
    by_contra hlost
    -- the read itself replaces nothing
    have hafter : post'.HasSecret u method.secret := by
      by_contra hreplaced
      obtain ⟨_, _, _, _, heq⟩ :=
        secret_replaced hv hi hreadlog ⟨method, hmethod, huser, rfl⟩ hreplaced
      cases heq
    obtain ⟨j, call', e', hj, he', hge, hbefore, hheld, hgone⟩ := hreach.lost_between
      (fun e w w' hw h => by rwa [World.HasSecret, Env.apply_mfaMethods hw]) hi hi hreadlog he
      (hv.earlier hi hl hreadₗ) hafter hlost
    exact hapart' j call' hj e' he' (secret_replaced hv hj he' hheld hgone) ⟨hge, hbefore⟩
  · have hnot := hapart' j call' hj e' he' hstores
    by_contra hlate
    exact hnot ⟨by omega, hbefore⟩

/-- **An active method has a secret that was checked**, in every run whose enrollments are
apart. -/
theorem active_method_checked (hreach : (machine P).Reachable World.Unenrolled c)
    (hapart : EnrollmentsApart u c) : ∀ m ∈ c.world.mfaMethods, m.userId = u → m.status = .active →
      CheckedSinceStored u m.secret c := by
  rintro m hm rfl hactive
  have hv := hreach.valid
  obtain ⟨w, hw, hrun⟩ := id hreach
  have h₀ : ¬w.ActiveSecret m.userId m.secret := by
    rintro ⟨m', hm', _⟩
    rw [hw.methods] at hm'
    cases hm'
  obtain ⟨i, call, e, hi, he, hpre, hpost, hlast⟩ := hrun.introduced_last (.initial w) h₀
    ⟨m, hm, rfl, hactive, rfl⟩ fun e w w' hw h => by
      rwa [World.ActiveSecret, Env.apply_mfaMethods hw] at h
  -- the activation that has made it active
  obtain ⟨m', hm', huser', hactive', hsecret'⟩ := hpost
  obtain ⟨a, ha, huser, hsecret, hwas | ⟨n, pre, post, rfl⟩⟩ := active_cases hv hi he hm' hactive'
  · exact absurd ⟨a, ha, huser.trans huser', hwas, hsecret.trans hsecret'⟩ hpre
  rw [huser'] at he hlast
  obtain ⟨k, preₖ, postₖ, code, secret, ⟨a', ha', hauser, rfl⟩, hcheck, hstored⟩ :=
    activation_checked (reachable_of_unenrolled hreach) hapart hi he
  have hmethods := ((reachable_methods hreach).2 i call hi _ he).1
  obtain rfl := hmethods.unique ha' ha (hauser.trans (huser.trans huser').symm)
  rw [← hsecret', ← hsecret]
  refine ⟨i, call, k, preₖ, postₖ, code, hi, hcheck, fun j call' hj e' he' hstores => ?_⟩
  rcases Nat.lt_trichotomy e'.seq n with hbefore | hseq | hafter
  · exact hstored j call' hj e' he' hstores hbefore
  · obtain ⟨_, heq⟩ := hv.seq_inj hj hi e' he' _ he hseq
    obtain ⟨_, _, _, _, rfl⟩ := hstores
    cases heq
  · exact absurd (hlast j call' hj e' he' hafter) (hstores.not_active hreach hj he')

/-! ### Enrollments in turn, and one in between -/

/-- The event stores a secret for some user. -/
def storesSome : ServerEvent → Bool
  | ⟨_, _, .mfaMethods (.upsertPending ..), .ok (), _⟩ => true
  | _ => false

/-- The event reads a method. -/
def readsMethod : ServerEvent → Bool
  | ⟨_, _, .mfaMethods (.selectByStatus ..), _, _⟩ => true
  | _ => false

/-- The secret that the event checks a code against. -/
def secretChecked : ServerEvent → Option String
  | ⟨_, _, .runtime (.totpCheck _ secret), _, _⟩ => some secret
  | _ => none

/-- Where every secret is stored before any method is read, enrollments are apart. -/
theorem enrollmentsApart_of_before (h : ∀ call ∈ c.calls, ∀ e ∈ call.log, readsMethod e = true →
    ∀ call' ∈ c.calls, ∀ e' ∈ call'.log, storesSome e' = true → e'.seq ≤ e.seq) :
    EnrollmentsApart u c := by
  rintro i call hi n pre post l n' pre' method post' hl hread j call' hj e he ⟨_, _, _, _, rfl⟩
    ⟨hafter, _⟩
  have hmem := hl.subset (List.mem_cons_of_mem _ hread)
  have hle := h call (List.mem_of_getElem? hi) _ hmem rfl call' (List.mem_of_getElem? hj) _ he rfl
  exact absurd hafter (Nat.not_lt.2 hle)

/-- A user enrolls, and confirms. -/
theorem active_method_checked_of_enrollment :
    ∃ (c : ServerConfig) (m : MfaMethodRow),
      sampleRun (loginMoves 0 "al@x.io" "Al 1" ++ enrollMoves 1) = some c ∧ m ∈ c.world.mfaMethods ∧
      m.status = .active ∧ CheckedSinceStored (sampleUuid 9001) m.secret c := by
  have hplay : (sampleRun (loginMoves 0 "al@x.io" "Al 1" ++ enrollMoves 1)).any (fun c => decide
      ((∀ call ∈ c.calls, ∀ e ∈ call.log, readsMethod e = true → ∀ call' ∈ c.calls,
        ∀ e' ∈ call'.log, storesSome e' = true → e'.seq ≤ e.seq) ∧
      ∃ m ∈ c.world.mfaMethods, m.userId = sampleUuid 9001 ∧ m.status = .active)) = true := by
    decide +kernel
  obtain ⟨c, hc, hall⟩ := (Option.any_eq_true _ _).1 hplay
  obtain ⟨hbefore, m, hm, huser, hactive⟩ := of_decide_eq_true hall
  exact ⟨c, m, hc, hm, hactive, active_method_checked ⟨_, unenrolled_sample, run_of_play hc⟩
    (enrollmentsApart_of_before hbefore) m hm huser hactive⟩

/-- Call 2 has checked a code when call 3 enrolls again, and then activates. -/
def secretSwappedMoves : List (Move World Incoming Env) :=
  loginMoves 0 "al@x.io" "Al 1" ++
    [.accept fun w => ⟨.mfaEnroll (lastBearer w), {}⟩, .steps 1 40,
     .accept fun w => ⟨.mfaVerify (lastBearer w) (.enrollment "123456"), {}⟩, .steps 2 5,
     .accept fun w => ⟨.mfaEnroll (lastBearer w), {}⟩, .steps 3 40, .steps 2 40]

/-- **A secret becomes active that no code was checked against.** -/
theorem unchecked_secret_active :
    ∃ (c : ServerConfig) (m : MfaMethodRow), sampleRun secretSwappedMoves = some c ∧
      (∀ call ∈ c.calls, call.result.isSome) ∧ m ∈ c.world.mfaMethods ∧
      m.userId = sampleUuid 9001 ∧ m.status = .active ∧
      ¬CheckedSinceStored (sampleUuid 9001) m.secret c := by
  have hplay : (sampleRun secretSwappedMoves).any (fun c => decide
      ((∀ call ∈ c.calls, call.result.isSome) ∧ ∃ m ∈ c.world.mfaMethods,
        m.userId = sampleUuid 9001 ∧ m.status = .active ∧
        ∀ call ∈ c.calls, ∀ e ∈ call.log, secretChecked e ≠ some m.secret)) = true := by
    decide +kernel
  obtain ⟨c, hc, hall⟩ := (Option.any_eq_true _ _).1 hplay
  obtain ⟨hdone, m, hm, huser, hactive, hunchecked⟩ := of_decide_eq_true hall
  refine ⟨c, m, hc, hdone, hm, huser, hactive, ?_⟩
  rintro ⟨i, call, n, pre, post, code, hi, he, _⟩
  exact hunchecked call (List.mem_of_getElem? hi) _ he rfl

end IdentityPlatform
