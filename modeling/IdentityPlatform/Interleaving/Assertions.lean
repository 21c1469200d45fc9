/-
# Assertions over interleaved runs

An invariant of the shared state need not be preserved by every statement in
isolation: a statement may be safe only because the handler that issues it has
seen certain answers before.  `Runs.assertion` is the rule for such invariants.
To show that the statement of a handler preserves `J`, its local history may be
used: the statements its call has executed before were executed in states that
satisfied `J`, left such states, and the states they left are related to the
state now by any relation that all steps go along (`Upheld`).  Runs in which
something particular does not happen are those whose events satisfy `G`.

`Runs.introduced` goes the other way: what holds of the state now and did not
hold at the beginning has been made true by a statement that is in some log.
-/

import IdentityPlatform.Interleaving.History

namespace IdentityPlatform
namespace Interleaving

variable {S : Signature} {ε W Req Resp Rnd Env : Type}

/-- Since step `n` a call for `req` has executed `e`, right after the log `l`. -/
def Config.Executed (c : Config S ε W Req Resp) (n : ℕ) (req : Req) (l : Log S ε W)
    (e : Event S ε W) : Prop :=
  ∃ (i : ℕ) (call : Call S ε W Req Resp), c.calls[i]? = some call ∧ call.req = req ∧
    e :: l <:+ call.log ∧ n ≤ e.seq

section Executed

variable {M : Machine S ε W Req Resp Rnd Env} {c c' : Config S ε W Req Resp} {n : ℕ} {req : Req}
  {l : Log S ε W} {e : Event S ε W}

/-- What has been executed stays executed. -/
theorem Config.Executed.apply (h : c.Executed n req l e) {a : Action Req Rnd Env}
    (hs : M.apply c a = some c') : c'.Executed n req l e := by
  obtain ⟨i, call, hi, hreq, hl, hn⟩ := h
  obtain ⟨call', hi', hext⟩ := Machine.apply_extends hs hi
  exact ⟨i, call', hi', hext.req.trans hreq, hl.trans hext.log, hn⟩

/-- An executed event is in the log of its call. -/
theorem Config.Executed.mem (h : c.Executed n req l e) : ∃ call ∈ c.calls, e ∈ call.log := by
  obtain ⟨i, call, hi, _, hl, _⟩ := h
  exact ⟨call, List.mem_of_getElem? hi, hl.subset (List.mem_cons_self ..)⟩

end Executed

namespace Machine

variable {M : Machine S ε W Req Resp Rnd Env} {R : W → W → Prop} {J : W → Prop}
  {G : Req → Log S ε W → Event S ε W → Prop}
  {ok : Config S ε W Req Resp → Action Req Rnd Env → Prop} {c₀ c c' : Config S ε W Req Resp}
  {n : ℕ} {req : Req} {l log : Log S ε W} {e : Event S ε W} {now : W}

/-- What a local history says of one of its events. -/
structure Kept (M : Machine S ε W Req Resp Rnd Env) (R : W → W → Prop) (J : W → Prop)
    (G : Req → Log S ε W → Event S ε W → Prop) (req : Req) (l : Log S ε W) (e : Event S ε W)
    (now : W) : Prop where
  answers : M.Answers e.op e.pre e.ans e.post
  since : R e.post now
  pre : J e.pre
  post : J e.post
  cond : G req l e

/-- The local history of a call: all its events since step `n` are `Kept`. -/
def Upheld (M : Machine S ε W Req Resp Rnd Env) (R : W → W → Prop) (J : W → Prop)
    (G : Req → Log S ε W → Event S ε W → Prop) (n : ℕ) (req : Req) (log : Log S ε W) (now : W) :
    Prop :=
  ∀ e l, e :: l <:+ log → n ≤ e.seq → Kept M R J G req l e now

theorem Kept.later (hR : M.Stable R) (h : Kept M R J G req l e now) {w : W} (hw : R now w) :
    Kept M R J G req l e w :=
  { h with since := hR.trans h.since hw }

theorem Upheld.later (hR : M.Stable R) (h : Upheld M R J G n req log now) {w : W} (hw : R now w) :
    Upheld M R J G n req log w :=
  fun e l hl hn => (h e l hl hn).later hR hw

theorem Upheld.cons (h : Upheld M R J G n req log now)
    (he : n ≤ e.seq → Kept M R J G req log e now) : Upheld M R J G n req (e :: log) now := by
  intro e' l hl hn
  rcases List.suffix_cons_iff.1 hl with heq | hl
  · obtain ⟨rfl, rfl⟩ := List.cons.inj heq
    exact he hn
  · exact h e' l hl hn

/-- What the local history says of an answer that has been seen. -/
theorem Upheld.saw (h : Upheld M R J G 0 req log now) {op : S.Op} {a : S.Ans op}
    (hs : Log.Saw log op (.ok a)) : ∃ pre post, (∃ r, M.exec op r pre = some (.ok a, post)) ∧
      R post now ∧ J pre ∧ J post := by
  obtain ⟨n, pre, post, hmem⟩ := hs
  obtain ⟨l₁, l₂, hl⟩ := List.append_of_mem hmem
  have hkept := h _ l₂ ⟨l₁, hl.symm⟩ (Nat.zero_le _)
  exact ⟨pre, post, Answers.exec hkept.answers, hkept.since, hkept.pre, hkept.post⟩

/-- **Assertions.**  `J` is preserved by every environment step, and by every
statement a handler can issue after a local history that upheld `J`. -/
theorem Runs.assertion (h : M.Runs ok c₀ c) (hR : M.Stable R) (hv : M.Valid c₀) (h₀ : J c₀.world)
    (hG : ∀ req l e, c.Executed c₀.seq req l e → G req l e)
    (henv : ∀ e w w', M.env e w = some w' → J w → J w')
    (hstep : ∀ req l e, (M.handler req).Reaches [] l e.op → Upheld M R J G c₀.seq req l e.pre →
      J e.pre → G req l e → M.Answers e.op e.pre e.ans e.post → J e.post) :
    J c.world ∧ ∀ (i : ℕ) call, c.calls[i]? = some call →
      Upheld M R J G c₀.seq call.req call.log c.world := by
  induction h with
  | refl =>
      refine ⟨h₀, fun i call hi e l hl hn => absurd (hv.seq_lt hi e ?_) (Nat.not_lt.2 hn)⟩
      exact hl.subset (List.mem_cons_self ..)
  | tail h _ hs ih =>
      obtain ⟨hJ, hlogs⟩ := ih fun req l e he => hG req l e (he.apply hs)
      have hv' := h.valid hv
      rcases step_cases hs with ⟨req, _, rfl⟩ | ⟨i, call, op, k, ans, post, _, hi, hp, hans, rfl⟩ |
        ⟨e, w, _, hw, rfl⟩
      · refine ⟨hJ, fun j call hj => ?_⟩
        rcases accept_get_cases hj with ⟨_, hj⟩ | ⟨_, rfl⟩
        · exact hlogs j call hj
        · intro e l hl
          simp at hl
      · have hGe := hG _ _ _ ⟨i, _, Config.record_get_self hi, rfl, List.suffix_refl _, h.seq_le⟩
        have hpost := hstep _ _ _ (hv'.next hi hp) (hlogs i call hi) hJ hGe hans
        have hrel := hR.answers hans
        refine ⟨hpost, fun j call' hj => ?_⟩
        rcases Config.record_get_cases hi hj with ⟨_, hj⟩ | ⟨_, rfl⟩
        · exact (hlogs j call' hj).later hR hrel
        · exact ((hlogs i call hi).later hR hrel).cons fun _ => ⟨hans, hR.refl _, hJ, hpost, hGe⟩
      · exact ⟨henv e _ _ hw hJ, fun i call hi => (hlogs i call hi).later hR (hR.env hw)⟩

/-- The relation that says nothing. -/
theorem stable_true : M.Stable fun _ _ => True := by
  constructor <;> intros <;> trivial

/-- **Invariants of the state** hold at every place of every log. -/
theorem Reachable.holds {init : W → Prop} (h : M.Reachable init c)
    (h₀ : ∀ w, init w → J w) (henv : ∀ e w w', M.env e w = some w' → J w → J w')
    (hstep : ∀ op pre ans post, J pre → M.Answers op pre ans post → J post) :
    J c.world ∧ ∀ (i : ℕ) call, c.calls[i]? = some call → ∀ e ∈ call.log, J e.pre ∧ J e.post := by
  obtain ⟨w, hw, h⟩ := h
  obtain ⟨hc, hlogs⟩ := h.assertion (G := fun _ _ _ => True) stable_true (.initial w) (h₀ w hw)
    (fun _ _ _ _ => trivial) henv
    fun _ _ e _ _ hJ _ ha => hstep e.op e.pre e.ans e.post hJ ha
  refine ⟨hc, fun i call hi e he => ?_⟩
  obtain ⟨l₁, l₂, hl⟩ := List.append_of_mem he
  have hkept := hlogs i call hi e l₂ ⟨l₁, hl.symm⟩ (Nat.zero_le _)
  exact ⟨hkept.pre, hkept.post⟩

/-- **What is true now and was not has been made true by a statement**, unless
the environment can make it true. -/
theorem Runs.introduced {H : W → Prop} (h : M.Runs ok c₀ c)
    (h₀ : ¬H c₀.world) (hc : H c.world) (henv : ∀ e w w', M.env e w = some w' → H w' → H w) :
    ∃ (i : ℕ) (call : Call S ε W Req Resp) (e : Event S ε W), c.calls[i]? = some call ∧
      e ∈ call.log ∧ c₀.seq ≤ e.seq ∧ ¬H e.pre ∧ H e.post := by
  induction h with
  | refl => exact absurd hc h₀
  | @tail c₁ c₂ a h _ hs ih =>
      by_cases hH : H c₁.world
      · obtain ⟨i, call, e, hi, he, hle, hpre, hpost⟩ := ih hH
        obtain ⟨call', hi', hext⟩ := apply_extends hs hi
        exact ⟨i, call', e, hi', hext.log.subset he, hle, hpre, hpost⟩
      · rcases step_cases hs with ⟨req, _, rfl⟩ | ⟨i, call, op, k, ans, post, _, hi, _, _, rfl⟩ |
          ⟨e, w, _, hw, rfl⟩
        · exact absurd hc hH
        · exact ⟨i, _, _, Config.record_get_self hi, List.mem_cons_self .., h.seq_le, hH, hc⟩
        · exact absurd (henv e _ _ hw hc) hH

/-- The last statement that has made `H` true: `H` has held in every state since. -/
theorem Runs.introduced_last {H : W → Prop} (h : M.Runs ok c₀ c) (hv : M.Valid c₀)
    (h₀ : ¬H c₀.world) (hc : H c.world) (henv : ∀ e w w', M.env e w = some w' → H w' → H w) :
    ∃ (i : ℕ) (call : Call S ε W Req Resp) (e : Event S ε W), c.calls[i]? = some call ∧
      e ∈ call.log ∧ ¬H e.pre ∧ H e.post ∧ ∀ (j : ℕ) call', c.calls[j]? = some call' →
        ∀ e' ∈ call'.log, e.seq < e'.seq → H e'.post := by
  induction h with
  | refl => exact absurd hc h₀
  | @tail c₁ c₂ a h hok hs ih =>
      have hv₂ : M.Valid c₂ := (Runs.tail h hok hs).valid hv
      rcases step_cases hs with ⟨req, _, rfl⟩ | ⟨k, mover, op, cont, ans, post, _, hk, _, _, rfl⟩ |
        ⟨e, w, _, hw, rfl⟩
      · obtain ⟨i, call, e, hi, he, hpre, hpost, hlast⟩ := ih hc
        obtain ⟨call', hi', hext⟩ := apply_extends hs hi
        refine ⟨i, call', e, hi', hext.log.subset he, hpre, hpost, fun j call'' hj e' he' hlt => ?_⟩
        rcases accept_get_cases hj with ⟨_, hj⟩ | ⟨_, rfl⟩
        · exact hlast j call'' hj e' he' hlt
        · cases he'
      · by_cases hH : H c₁.world
        · obtain ⟨i, call, e, hi, he, hpre, hpost, hlast⟩ := ih hH
          obtain ⟨call', hi', hext⟩ := apply_extends hs hi
          refine ⟨i, call', e, hi', hext.log.subset he, hpre, hpost, ?_⟩
          intro j call'' hj e' he' hlt
          rcases Config.record_get_cases hk hj with ⟨_, hj⟩ | ⟨_, rfl⟩
          · exact hlast j call'' hj e' he' hlt
          · rcases List.mem_cons.1 he' with rfl | he'
            · exact hc
            · exact hlast k mover hk e' he' hlt
        · refine ⟨k, _, _, Config.record_get_self hk, List.mem_cons_self .., hH, hc,
            fun j call' hj e' he' hlt => ?_⟩
          exact absurd (hv₂.seq_lt hj e' he') (Nat.not_lt.2 hlt)
      · obtain ⟨i, call, e', hi, he, hpre, hpost, hlast⟩ := ih (henv e _ _ hw hc)
        exact ⟨i, call, e', hi, he, hpre, hpost, hlast⟩

/-- An event since step `n` and before step `m` that has made `K` false. -/
def Loses (K : W → Prop) (n m : ℕ) (c : Config S ε W Req Resp) : Prop :=
  ∃ (i : ℕ) (call : Call S ε W Req Resp) (e : Event S ε W), c.calls[i]? = some call ∧
    e ∈ call.log ∧ n ≤ e.seq ∧ e.seq < m ∧ K e.pre ∧ ¬K e.post

/-- **What an event has found lost since `c₀`** has been lost by an event in between. -/
theorem Runs.lost {K : W → Prop} (h : M.Runs ok c₀ c) (hv : M.Valid c₀) (hK : K c₀.world)
    (henv : ∀ e w w', M.env e w = some w' → K w → K w') {i : ℕ} {call : Call S ε W Req Resp}
    (hi : c.calls[i]? = some call) (he : e ∈ call.log) (hn : c₀.seq ≤ e.seq) (hpre : ¬K e.pre) :
    Loses K c₀.seq e.seq c := by
  obtain ⟨c₁, c₂, _, h₁, hbetween, h₂, _⟩ := h.around hv hi he hn
  obtain ⟨j, call', e', hj, he', hle, hheld, hlost⟩ := h₁.introduced (H := fun w => ¬K w)
    (not_not.2 hK) (by rwa [hbetween.pre]) fun e w w' hw hnot hw' => hnot (henv e w w' hw hw')
  have hlt : e'.seq < e.seq := hbetween.seq ▸ (h₁.valid hv).seq_lt hj e' he'
  obtain ⟨call₁, hj₁, hext₁⟩ := hbetween.run.extends hj
  obtain ⟨call₂, hj₂, hext₂⟩ := h₂.extends hj₁
  exact ⟨j, call₂, e', hj₂, hext₂.log.subset (hext₁.log.subset he'), hle, hlt,
    not_not.1 hheld, hlost⟩

/-- What one event has left and a later one does not find. -/
theorem Reachable.lost_between {init : W → Prop} {K : W → Prop} (h : M.Reachable init c)
    (henv : ∀ e w w', M.env e w = some w' → K w → K w') {i j : ℕ} {call call' : Call S ε W Req Resp}
    {e' : Event S ε W} (hi : c.calls[i]? = some call) (hj : c.calls[j]? = some call')
    (he : e ∈ call.log) (he' : e' ∈ call'.log) (hlt : e.seq < e'.seq) (hpost : K e.post)
    (hpre : ¬K e'.pre) : Loses K (e.seq + 1) e'.seq c := by
  obtain ⟨w, hw, hrun⟩ := h
  obtain ⟨c₁, c₂, _, h₁, hbetween, h₂, _⟩ := hrun.around (.initial w) hi he (Nat.zero_le _)
  have hv₂ : M.Valid c₂ := hbetween.run.valid (h₁.valid (.initial w))
  rw [← hbetween.next]
  exact h₂.lost hv₂ (by rwa [hbetween.post]) henv hj he' (by rw [hbetween.next]; omega) hpre

end Machine
end Interleaving
end IdentityPlatform
