/-
# What is kept through a run

A relation between states that every statement and every environment step
respects is a fact about the passage of time: rows that stay, a status that
never goes back, a clock that only advances.  `Stable` names such relations.
Along a run a stable relation holds between any two states in their order, so
an answer in a log can be compared with the state now, with the state its call
started in, and with any later answer of any other call (`Ordered`), and the
calls accepted after some point see only states that come after it
(`Stable.since`).
-/

import IdentityPlatform.Interleaving.Machine

namespace IdentityPlatform
namespace Interleaving

variable {S : Signature} {ε W Req Resp Rnd Env : Type}

namespace Machine

/-- A relation every step of the machine goes along. -/
structure Stable (M : Machine S ε W Req Resp Rnd Env) (R : W → W → Prop) : Prop where
  refl : ∀ w, R w w
  trans : ∀ {w₁ w₂ w₃}, R w₁ w₂ → R w₂ w₃ → R w₁ w₃
  exec : ∀ {op r ans pre post}, M.exec op r pre = some (ans, post) → R pre post
  env : ∀ {e w w'}, M.env e w = some w' → R w w'

/-- The states a run has seen are related in their order. -/
structure Ordered (R : W → W → Prop) (c : Config S ε W Req Resp) : Prop where
  start : ∀ {i : ℕ} {call}, c.calls[i]? = some call → R call.start c.world
  answer : ∀ {i : ℕ} {call}, c.calls[i]? = some call → ∀ e ∈ call.log, R e.pre e.post
  post : ∀ {i : ℕ} {call}, c.calls[i]? = some call → ∀ e ∈ call.log, R e.post c.world
  events : ∀ {i j : ℕ} {call call'}, c.calls[i]? = some call → c.calls[j]? = some call' →
    ∀ e ∈ call.log, ∀ e' ∈ call'.log, e.seq < e'.seq → R e.post e'.pre
  starts : ∀ {i j : ℕ} {call call'}, c.calls[i]? = some call → c.calls[j]? = some call' →
    ∀ e ∈ call.log, e.seq < call'.startSeq → R e.post call'.start
  started : ∀ {i j : ℕ} {call call'}, c.calls[i]? = some call → c.calls[j]? = some call' →
    ∀ e ∈ call.log, call'.startSeq < e.seq → R call'.start e.pre

variable {M : Machine S ε W Req Resp Rnd Env} {R : W → W → Prop}
  {ok : Config S ε W Req Resp → Action Req Rnd Env → Prop} {c c' : Config S ε W Req Resp}

theorem Stable.answers (hR : M.Stable R) {op : S.Op} {ans : Except ε (S.Ans op)} {pre post : W}
    (h : M.Answers op pre ans post) : R pre post := by
  rcases h with ⟨r, h⟩ | ⟨_, rfl⟩
  · exact hR.exec h
  · exact hR.refl _

theorem Stable.apply (hR : M.Stable R) {a : Action Req Rnd Env} (h : M.apply c a = some c') :
    R c.world c'.world := by
  rcases step_cases h with ⟨req, _, rfl⟩ | ⟨i, call, op, k, ans, post, _, _, _, ha, rfl⟩ |
    ⟨e, w, _, hw, rfl⟩
  · exact hR.refl _
  · exact hR.answers ha
  · exact hR.env hw

theorem Stable.runs (hR : M.Stable R) (h : M.Runs ok c c') : R c.world c'.world := by
  induction h with
  | refl => exact hR.refl _
  | tail _ _ hs ih => exact hR.trans ih (hR.apply hs)

theorem Ordered.initial (w : W) : Ordered R (Config.initial w : Config S ε W Req Resp) := by
  constructor <;> simp [Config.initial]

/-- The new state comes after everything seen before it. -/
theorem Ordered.advance (h : Ordered R c) {w : W} (hR : M.Stable R) (hw : R c.world w) :
    Ordered R { c with world := w, seq := c.seq + 1 } :=
  { h with
    start := fun hi => hR.trans (h.start hi) hw
    post := fun hi e he => hR.trans (h.post hi e he) hw }

theorem Ordered.accept (h : Ordered R c) (hR : M.Stable R) (hv : M.Valid c) (req : Req) :
    Ordered R (M.accept c req) where
  start hi := by
    rcases accept_get_cases hi with ⟨_, hi⟩ | ⟨_, rfl⟩
    · exact h.start hi
    · exact hR.refl _
  answer hi e he := by
    rcases accept_get_cases hi with ⟨_, hi⟩ | ⟨_, rfl⟩
    · exact h.answer hi e he
    · cases he
  post hi e he := by
    rcases accept_get_cases hi with ⟨_, hi⟩ | ⟨_, rfl⟩
    · exact h.post hi e he
    · cases he
  events hi hj e he e' he' := by
    rcases accept_get_cases hi with ⟨_, hi⟩ | ⟨_, rfl⟩
    · rcases accept_get_cases hj with ⟨_, hj⟩ | ⟨_, rfl⟩
      · exact h.events hi hj e he e' he'
      · cases he'
    · cases he
  starts hi hj e he hlt := by
    rcases accept_get_cases hi with ⟨_, hi⟩ | ⟨_, rfl⟩
    · rcases accept_get_cases hj with ⟨_, hj⟩ | ⟨_, rfl⟩
      · exact h.starts hi hj e he hlt
      · exact h.post hi e he
    · cases he
  started hi hj e he hlt := by
    rcases accept_get_cases hi with ⟨_, hi⟩ | ⟨_, rfl⟩
    · rcases accept_get_cases hj with ⟨_, hj⟩ | ⟨_, rfl⟩
      · exact h.started hi hj e he hlt
      · exact absurd (hv.seq_lt hi e he) (Nat.lt_asymm hlt)
    · cases he

theorem Ordered.record (h : Ordered R c) (hR : M.Stable R) (hv : M.Valid c) {i : ℕ}
    {call : Call S ε W Req Resp} {op : S.Op} {k : Except ε (S.Ans op) → Program S ε Resp}
    {ans : Except ε (S.Ans op)} {post : W} (hi : c.calls[i]? = some call)
    (ha : M.Answers op c.world ans post) : Ordered R (c.record i call op ans post (k ans)) where
  start hj := by
    rcases Config.record_get_cases hi hj with ⟨_, hj⟩ | ⟨_, rfl⟩
    · exact hR.trans (h.start hj) (hR.answers ha)
    · have := h.start hi
      exact hR.trans this (hR.answers ha)
  answer hj e he := by
    rcases Config.record_get_cases hi hj with ⟨_, hj⟩ | ⟨_, rfl⟩
    · exact h.answer hj e he
    · rcases List.mem_cons.1 he with rfl | he
      · exact hR.answers ha
      · exact h.answer hi e he
  post hj e he := by
    rcases Config.record_get_cases hi hj with ⟨_, hj⟩ | ⟨_, rfl⟩
    · exact hR.trans (h.post hj e he) (hR.answers ha)
    · rcases List.mem_cons.1 he with rfl | he
      · exact hR.refl _
      · exact hR.trans (h.post hi e he) (hR.answers ha)
  events hj hj' e he e' he' hlt := by
    rcases Config.record_get_cases hi hj with ⟨_, h₁⟩ | ⟨_, rfl⟩ <;>
      rcases Config.record_get_cases hi hj' with ⟨_, h₂⟩ | ⟨_, rfl⟩
    · exact h.events h₁ h₂ e he e' he' hlt
    · rcases List.mem_cons.1 he' with rfl | he'
      · exact h.post h₁ e he
      · exact h.events h₁ hi e he e' he' hlt
    · rcases List.mem_cons.1 he with rfl | he
      · exact absurd (hv.seq_lt h₂ e' he') (Nat.lt_asymm hlt)
      · exact h.events hi h₂ e he e' he' hlt
    · rcases List.mem_cons.1 he with rfl | he <;> rcases List.mem_cons.1 he' with rfl | he'
      · exact absurd hlt (Nat.lt_irrefl _)
      · exact absurd (hv.seq_lt hi e' he') (Nat.lt_asymm hlt)
      · exact h.post hi e he
      · exact h.events hi hi e he e' he' hlt
  starts hj hj' e he hlt := by
    obtain ⟨call'', hj'', _, hseq, hstart⟩ := Config.record_get_start hi hj'
    rw [← hseq] at hlt
    rw [← hstart]
    rcases Config.record_get_cases hi hj with ⟨_, h₁⟩ | ⟨_, rfl⟩
    · exact h.starts h₁ hj'' e he hlt
    · rcases List.mem_cons.1 he with rfl | he
      · exact absurd (hv.startSeq_lt hj'') (Nat.lt_asymm hlt)
      · exact h.starts hi hj'' e he hlt
  started hj hj' e he hlt := by
    obtain ⟨call'', hj'', _, hseq, hstart⟩ := Config.record_get_start hi hj'
    rw [← hseq] at hlt
    rw [← hstart]
    rcases Config.record_get_cases hi hj with ⟨_, h₁⟩ | ⟨_, rfl⟩
    · exact h.started h₁ hj'' e he hlt
    · rcases List.mem_cons.1 he with rfl | he
      · exact h.start hj''
      · exact h.started hi hj'' e he hlt

theorem Ordered.apply (h : Ordered R c) (hR : M.Stable R) (hv : M.Valid c)
    {a : Action Req Rnd Env} (hs : M.apply c a = some c') : Ordered R c' := by
  rcases step_cases hs with ⟨req, _, rfl⟩ | ⟨i, call, op, k, ans, post, _, hi, _, ha, rfl⟩ |
    ⟨e, w, _, hw, rfl⟩
  · exact h.accept hR hv req
  · exact h.record hR hv hi ha
  · exact h.advance hR (hR.env hw)

/-- **Stable relations order the history of a run.** -/
theorem Reachable.ordered {init : W → Prop} (h : M.Reachable init c) (hR : M.Stable R) :
    Ordered R c := by
  obtain ⟨w, _, h⟩ := h
  exact (h.invariant (I := fun c => M.Valid c ∧ Ordered R c) ⟨.initial w, .initial w⟩
    fun _ _ _ hI _ hs => ⟨hI.1.apply hs, hI.2.apply hR hI.1 hs⟩).2

theorem Ordered.earlier (h : Ordered R c) (hv : M.Valid c) {i : ℕ} {call : Call S ε W Req Resp}
    (hi : c.calls[i]? = some call) {e e' : Event S ε W} {l : Log S ε W} (hl : e :: l <:+ call.log)
    (he' : e' ∈ l) : R e'.post e.pre := by
  have hmem : e' ∈ call.log := hl.subset (List.mem_cons_of_mem _ he')
  exact h.events hi hi e' hmem e (hl.subset (List.mem_cons_self ..)) (hv.earlier hi hl he')

/-- **What happens at most once.**  An event that makes `K` true for good, and was
possible only before, is the only one of its kind. -/
theorem Ordered.once {K : W → Prop} (h : Ordered R c) (hv : M.Valid c)
    (hK : ∀ {w w'}, R w w' → K w → K w') {i j : ℕ} {call call' : Call S ε W Req Resp}
    (hi : c.calls[i]? = some call) (hj : c.calls[j]? = some call') {e e' : Event S ε W}
    (he : e ∈ call.log) (he' : e' ∈ call'.log) (hpre : ¬K e.pre) (hpost : K e.post)
    (hpre' : ¬K e'.pre) (hpost' : K e'.post) : i = j ∧ e = e' := by
  rcases Nat.lt_trichotomy e.seq e'.seq with hlt | heq | hlt
  · exact absurd (hK (h.events hi hj e he e' he' hlt) hpost) hpre'
  · exact hv.seq_inj hi hj e he e' he' heq
  · exact absurd (hK (h.events hj hi e' he' e he hlt) hpost') hpre

/-- `e` has been executed between `c₁` and `c₂`. -/
structure ExecutedBetween (M : Machine S ε W Req Resp Rnd Env) (e : Event S ε W)
    (c₁ c₂ : Config S ε W Req Resp) : Prop where
  run : M.Run c₁ c₂
  pre : c₁.world = e.pre
  post : c₂.world = e.post
  seq : c₁.seq = e.seq
  next : c₂.seq = e.seq + 1

/-- **The configurations around an event**, both on the run.  The log of the call was
before it what is below the event now. -/
theorem Runs.around {c₀ : Config S ε W Req Resp} (h : M.Runs ok c₀ c) (hv : M.Valid c₀) {i : ℕ}
    {call : Call S ε W Req Resp} (hi : c.calls[i]? = some call) {e : Event S ε W}
    (he : e ∈ call.log) (hn : c₀.seq ≤ e.seq) :
    ∃ c₁ c₂ call', M.Runs ok c₀ c₁ ∧ M.ExecutedBetween e c₁ c₂ ∧ M.Runs ok c₂ c ∧
      c₁.calls[i]? = some call' ∧ call'.req = call.req ∧ e :: call'.log <:+ call.log := by
  induction h generalizing call with
  | refl => exact absurd (hv.seq_lt hi e he) (Nat.not_lt.2 hn)
  | @tail c₃ c₄ a h hok hs ih =>
      rcases step_cases hs with ⟨req, _, rfl⟩ | ⟨j, mover, op, k, ans, post, _, hj, _, _, rfl⟩ |
        ⟨e', w, _, _, rfl⟩
      · rcases accept_get_cases hi with ⟨_, hi⟩ | ⟨_, rfl⟩
        · obtain ⟨c₁, c₂, call', h₁, hbetween, h₂, hrest⟩ := ih hi he
          exact ⟨c₁, c₂, call', h₁, hbetween, .tail h₂ hok hs, hrest⟩
        · cases he
      · rcases Config.record_get_cases hj hi with ⟨_, hi⟩ | ⟨rfl, rfl⟩
        · obtain ⟨c₁, c₂, call', h₁, hbetween, h₂, hrest⟩ := ih hi he
          exact ⟨c₁, c₂, call', h₁, hbetween, .tail h₂ hok hs, hrest⟩
        · rcases List.mem_cons.1 he with rfl | he
          · exact ⟨c₃, _, mover, h, ⟨.tail (.refl c₃) trivial hs, rfl, rfl, rfl, rfl⟩,
              .refl _, hj, rfl, List.suffix_refl _⟩
          · obtain ⟨c₁, c₂, call', h₁, hbetween, h₂, hi', hreq, hl⟩ := ih hj he
            exact ⟨c₁, c₂, call', h₁, hbetween, .tail h₂ hok hs, hi', hreq,
              hl.trans (List.suffix_cons ..)⟩
      · obtain ⟨c₁, c₂, call', h₁, hbetween, h₂, hrest⟩ := ih hi he
        exact ⟨c₁, c₂, call', h₁, hbetween, .tail h₂ hok hs, hrest⟩

/-- The configuration an event was executed in. -/
theorem Reachable.before {init : W → Prop} (h : M.Reachable init c) {i : ℕ}
    {call : Call S ε W Req Resp} (hi : c.calls[i]? = some call) {e : Event S ε W}
    (he : e ∈ call.log) : ∃ c' call', M.Reachable init c' ∧ M.Run c' c ∧ c'.world = e.pre ∧
      c'.seq = e.seq ∧ c'.calls[i]? = some call' ∧ call'.req = call.req ∧
      e :: call'.log <:+ call.log := by
  obtain ⟨w, hw, hrun⟩ := h
  obtain ⟨c₁, c₂, call', h₁, hbetween, h₂, hrest⟩ :=
    hrun.around (.initial w) hi he (Nat.zero_le _)
  exact ⟨c₁, call', ⟨w, hw, h₁⟩, hbetween.run.trans h₂, hbetween.pre, hbetween.seq, hrest⟩

/-- The last event has left the state the run is in. -/
theorem Reachable.last {init : W → Prop} (h : M.Reachable init c) {i : ℕ}
    {call : Call S ε W Req Resp} (hi : c.calls[i]? = some call) {e : Event S ε W}
    (he : e ∈ call.log) (hseq : e.seq + 1 = c.seq) : c.world = e.post := by
  obtain ⟨w, hw, hrun⟩ := h
  obtain ⟨c₁, c₂, _, _, hbetween, h₂, _⟩ := hrun.around (.initial w) hi he (Nat.zero_le _)
  cases h₂ with
  | refl => exact hbetween.post
  | tail h₂ _ hs =>
      have hle := h₂.seq_le
      have hstep := apply_seq hs
      have hnext := hbetween.next
      omega

/-- What a run from `c₀` adds sees only states after `c₀`. -/
structure Since (R : W → W → Prop) (c₀ c : Config S ε W Req Resp) : Prop where
  start : ∀ {i : ℕ} {call}, c.calls[i]? = some call → c₀.seq ≤ call.startSeq →
    R c₀.world call.start
  pre : ∀ {i : ℕ} {call}, c.calls[i]? = some call → ∀ e ∈ call.log, c₀.seq ≤ e.seq →
    R c₀.world e.pre

theorem Stable.since (hR : M.Stable R) (h : M.Runs ok c c') (hv : M.Valid c) : Since R c c' := by
  induction h with
  | refl =>
      exact ⟨fun hi hle => absurd (hv.startSeq_lt hi) (Nat.not_lt.2 hle),
        fun hi e he hle => absurd (hv.seq_lt hi e he) (Nat.not_lt.2 hle)⟩
  | tail h _ hs ih =>
      rcases step_cases hs with ⟨req, _, rfl⟩ | ⟨i, call, op, k, ans, post, _, hi, _, ha, rfl⟩ |
        ⟨e, w, _, _, rfl⟩
      · constructor
        · intro j call hj hle
          rcases accept_get_cases hj with ⟨_, hj⟩ | ⟨_, rfl⟩
          · exact ih.start hj hle
          · exact hR.runs h
        · intro j call hj e he hle
          rcases accept_get_cases hj with ⟨_, hj⟩ | ⟨_, rfl⟩
          · exact ih.pre hj e he hle
          · cases he
      · constructor
        · intro j call' hj hle
          obtain ⟨call'', hj'', _, hseq, hstart⟩ := Config.record_get_start hi hj
          exact hstart ▸ ih.start hj'' (hseq ▸ hle)
        · intro j call' hj e he hle
          rcases Config.record_get_cases hi hj with ⟨_, hj⟩ | ⟨_, rfl⟩
          · exact ih.pre hj e he hle
          · rcases List.mem_cons.1 he with rfl | he
            · exact hR.runs h
            · exact ih.pre hi e he hle
      · exact ⟨ih.start, ih.pre⟩

/-- The calls a run adds are accepted after its beginning. -/
theorem Runs.startSeq_of_new (h : M.Runs ok c c') {i : ℕ} {call : Call S ε W Req Resp}
    (hi : c'.calls[i]? = some call) (hnew : c.calls.length ≤ i) : c.seq ≤ call.startSeq := by
  induction h generalizing call with
  | refl => exact absurd (List.getElem?_eq_some_iff.1 hi).1 (Nat.not_lt.2 hnew)
  | tail h _ hs ih =>
      rcases step_cases hs with ⟨req, _, rfl⟩ | ⟨j, mover, op, k, ans, post, _, hj, _, _, rfl⟩ |
        ⟨e, w, _, _, rfl⟩
      · rcases accept_get_cases hi with ⟨_, hi⟩ | ⟨_, rfl⟩
        · exact ih hi
        · exact h.seq_le
      · obtain ⟨call'', hi'', _, hseq, _⟩ := Config.record_get_start hj hi
        exact hseq ▸ ih hi''
      · exact ih hi

/-- The configuration an event was executed in, with another call that had executed something
by then. -/
theorem Reachable.before_other {init : W → Prop} (h : M.Reachable init c) {i j : ℕ}
    {call call' : Call S ε W Req Resp} (hi : c.calls[i]? = some call) {e e' : Event S ε W}
    (he : e ∈ call.log) (hj : c.calls[j]? = some call') (he' : e' ∈ call'.log)
    (hlt : e'.seq < e.seq) : ∃ c' call'', M.Reachable init c' ∧ c'.world = e.pre ∧ c'.seq = e.seq ∧
      c'.calls[j]? = some call'' ∧ e' ∈ call''.log ∧ call''.log <:+ call'.log := by
  obtain ⟨c', _, hreach, hrun, hworld, hseq, _⟩ := h.before hi he
  have hlater : c'.calls[j]? ≠ none := by
    intro hnone
    have hstart := hrun.startSeq_of_new hj (List.getElem?_eq_none_iff.1 hnone)
    have hafter := h.valid.start_lt hj e' he'
    omega
  obtain ⟨call'', hj''⟩ := Option.ne_none_iff_exists'.1 hlater
  obtain ⟨call₂, hj₂, hext⟩ := hrun.extends hj''
  obtain rfl := Option.some.inj (hj.symm.trans hj₂)
  refine ⟨c', call'', hreach, hworld, hseq, hj'', ?_, hext.log⟩
  rcases hext.new e' he' with hmem | hle
  · exact hmem
  · omega

end Machine

end Interleaving
end IdentityPlatform
