/-
# Programs that run alone

What a program does when nothing else happens in between: every statement is executed
in the state the one before it has left.  `RunsAlone` relates the state before, the
result and the state after; a statement that takes a random value may take any that it
accepts.  `runAlone` computes one such run.
-/

import IdentityPlatform.Interleaving.Machine

namespace IdentityPlatform
namespace Interleaving
namespace Machine

variable {S : Signature} {ε W Req Resp Rnd Env α β : Type}

/-- Run alone from the first state, the program returns `r` in the second one. -/
def RunsAlone (M : Machine S ε W Req Resp Rnd Env) :
    Program S ε α → W → Except ε α → W → Prop
  | .done r', w, r, w' => r = r' ∧ w' = w
  | .call op k, w, r, w' =>
      ∃ rnd ans w₁, M.exec op rnd w = some (ans, w₁) ∧ RunsAlone M (k ans) w₁ r w'

variable {M : Machine S ε W Req Resp Rnd Env} {w w' : W}

@[simp] theorem runsAlone_pure {a : α} {r : Except ε α} :
    M.RunsAlone (pure a : Program S ε α) w r w' ↔ r = .ok a ∧ w' = w := Iff.rfl

@[simp] theorem runsAlone_throw {e : ε} {r : Except ε α} :
    M.RunsAlone (throw e : Program S ε α) w r w' ↔ r = .error e ∧ w' = w := Iff.rfl

@[simp] theorem runsAlone_perform {op : S.Op} {r : Except ε (S.Ans op)} :
    M.RunsAlone (Program.perform op) w r w' ↔ ∃ rnd, M.exec op rnd w = some (r, w') := by
  constructor
  · rintro ⟨rnd, ans, w₁, hexec, rfl, rfl⟩
    exact ⟨rnd, hexec⟩
  · rintro ⟨rnd, hexec⟩
    exact ⟨rnd, r, w', hexec, rfl, rfl⟩

/-- The second half of a sequence runs where the first one has returned. -/
theorem runsAlone_bind {p : Program S ε α} {f : α → Program S ε β} {r : Except ε β} :
    M.RunsAlone (p >>= f) w r w' ↔
      (∃ a w₁, M.RunsAlone p w (.ok a) w₁ ∧ M.RunsAlone (f a) w₁ r w') ∨
        ∃ e, M.RunsAlone p w (.error e) w' ∧ r = .error e := by
  change M.RunsAlone (p.bind f) w r w' ↔ _
  induction p generalizing w with
  | done r' =>
      cases r' with
      | ok a => simp [Program.bind, RunsAlone]
      | error e => simp [Program.bind, RunsAlone, and_comm]
  | call op k ih =>
      simp only [Program.bind, RunsAlone, ih]
      constructor
      · rintro ⟨rnd, ans, w₁, hexec, ⟨a, w₂, h₁, h₂⟩ | ⟨e, h₁, h₂⟩⟩
        · exact .inl ⟨a, w₂, ⟨rnd, ans, w₁, hexec, h₁⟩, h₂⟩
        · exact .inr ⟨e, ⟨rnd, ans, w₁, hexec, h₁⟩, h₂⟩
      · rintro (⟨a, w₂, ⟨rnd, ans, w₁, hexec, h₁⟩, h₂⟩ | ⟨e, ⟨rnd, ans, w₁, hexec, h₁⟩, h₂⟩)
        · exact ⟨rnd, ans, w₁, hexec, .inl ⟨a, w₂, h₁, h₂⟩⟩
        · exact ⟨rnd, ans, w₁, hexec, .inr ⟨e, h₁, h₂⟩⟩

/-- A handler of errors runs where its body has failed. -/
theorem runsAlone_tryCatch {p : Program S ε α} {h : ε → Program S ε α} {r : Except ε α} :
    M.RunsAlone (tryCatch p h) w r w' ↔
      (∃ a, M.RunsAlone p w (.ok a) w' ∧ r = .ok a) ∨
        ∃ e w₁, M.RunsAlone p w (.error e) w₁ ∧ M.RunsAlone (h e) w₁ r w' := by
  change M.RunsAlone (p.catchWith h) w r w' ↔ _
  induction p generalizing w with
  | done r' =>
      cases r' with
      | ok a => simp [Program.catchWith, RunsAlone, and_comm]
      | error e => simp [Program.catchWith, RunsAlone]
  | call op k ih =>
      simp only [Program.catchWith, RunsAlone, ih]
      constructor
      · rintro ⟨rnd, ans, w₁, hexec, ⟨a, h₁, h₂⟩ | ⟨e, w₂, h₁, h₂⟩⟩
        · exact .inl ⟨a, ⟨rnd, ans, w₁, hexec, h₁⟩, h₂⟩
        · exact .inr ⟨e, w₂, ⟨rnd, ans, w₁, hexec, h₁⟩, h₂⟩
      · rintro (⟨a, ⟨rnd, ans, w₁, hexec, h₁⟩, h₂⟩ | ⟨e, w₂, ⟨rnd, ans, w₁, hexec, h₁⟩, h₂⟩)
        · exact ⟨rnd, ans, w₁, hexec, .inl ⟨a, h₁, h₂⟩⟩
        · exact ⟨rnd, ans, w₁, hexec, .inr ⟨e, w₂, h₁, h₂⟩⟩

theorem runsAlone_onlyIf {c : Prop} [Decidable c] {p : Program S ε Unit} {r : Except ε Unit} :
    M.RunsAlone (Program.onlyIf c p) w r w' ↔
      (c ∧ M.RunsAlone p w r w') ∨ (¬c ∧ r = .ok () ∧ w' = w) := by
  unfold Program.onlyIf
  split_ifs with h <;> simp [h]

theorem runsAlone_throwIf {c : Prop} [Decidable c] {e : ε} {r : Except ε Unit} :
    M.RunsAlone (Program.throwIf c e : Program S ε Unit) w r w' ↔
      ((c ∧ r = .error e) ∨ (¬c ∧ r = .ok ())) ∧ w' = w := by
  unfold Program.throwIf
  split_ifs with h <;> simp [h]

/-! ### What a run alone keeps -/

/-- A program that runs alone leaves a log of executed statements. -/
theorem RunsAlone.returns {p : Program S ε α} {r : Except ε α} (h : M.RunsAlone p w r w')
    (l₀ : Log S ε W) : ∃ l, p.Returns l₀ l r ∧
      ∀ e ∈ l, e ∈ l₀ ∨ ∃ rnd, M.exec e.op rnd e.pre = some (e.ans, e.post) := by
  induction p generalizing w l₀ with
  | done r' => exact ⟨l₀, ⟨rfl, h.1⟩, fun e he => .inl he⟩
  | call op k ih =>
      obtain ⟨rnd, ans, w₁, hexec, h⟩ := h
      obtain ⟨l, hreturns, hl⟩ := ih ans h (⟨0, w, op, ans, w₁⟩ :: l₀)
      refine ⟨l, ⟨0, w, ans, w₁, hreturns⟩, fun e he => ?_⟩
      rcases hl e he with hmem | hexecuted
      · rcases List.mem_cons.1 hmem with rfl | hmem
        · exact .inr ⟨rnd, hexec⟩
        · exact .inl hmem
      · exact .inr hexecuted

/-- **What every allowed statement keeps** of the state is kept by the program. -/
theorem RunsAlone.keeps {p : Program S ε α} {r : Except ε α} (A : S.Op → Prop) (I : W → Prop)
    (l₀ : Log S ε W) (h : M.RunsAlone p w r w') (hp : Program.Respects (fun _ op => A op) l₀ p)
    (hstep : ∀ op rnd w ans w', A op → M.exec op rnd w = some (ans, w') → I w → I w')
    (hw : I w) : I w' := by
  induction p generalizing w l₀ with
  | done r' => exact h.2 ▸ hw
  | call op k ih =>
      obtain ⟨rnd, ans, w₁, hexec, h⟩ := h
      have hallowed : A op := hp l₀ op (.inl ⟨rfl, rfl⟩)
      have hrest : Program.Respects (fun _ op => A op) (⟨0, w, op, ans, w₁⟩ :: l₀) (k ans) :=
        fun l' op' hr => hp l' op' (.inr ⟨0, w, ans, w₁, hr⟩)
      exact ih ans _ h hrest (hstep op rnd w ans w₁ hallowed hexec hw)

/-! ### Programs with one outcome -/

/-- Run alone from `w`, the program can do nothing but return `r` and leave `w` as it is. -/
def Decides (M : Machine S ε W Req Resp Rnd Env) (p : Program S ε α) (w : W) (r : Except ε α) :
    Prop :=
  ∀ r' w', M.RunsAlone p w r' w' ↔ r' = r ∧ w' = w

theorem decides_pure {a : α} : M.Decides (pure a : Program S ε α) w (.ok a) :=
  fun _ _ => runsAlone_pure

theorem decides_throw {e : ε} : M.Decides (throw e : Program S ε α) w (.error e) :=
  fun _ _ => runsAlone_throw

namespace Decides

theorem bind {p : Program S ε α} {f : α → Program S ε β} {a : α} {r : Except ε β}
    (hp : M.Decides p w (.ok a)) (hf : M.Decides (f a) w r) : M.Decides (p >>= f) w r := by
  intro r' w'
  rw [runsAlone_bind]
  constructor
  · rintro (⟨b, w₁, h₁, h₂⟩ | ⟨e, h₁, _⟩)
    · obtain ⟨hb, rfl⟩ := (hp _ _).1 h₁
      cases hb
      exact (hf r' w').1 h₂
    · cases ((hp _ _).1 h₁).1
  · exact fun h => .inl ⟨a, w, (hp _ _).2 ⟨rfl, rfl⟩, (hf r' w').2 h⟩

theorem bind_error {p : Program S ε α} {f : α → Program S ε β} {e : ε}
    (hp : M.Decides p w (.error e)) : M.Decides (p >>= f) w (.error e) := by
  intro r' w'
  rw [runsAlone_bind]
  constructor
  · rintro (⟨b, w₁, h₁, _⟩ | ⟨e', h₁, rfl⟩)
    · cases ((hp _ _).1 h₁).1
    · obtain ⟨he, rfl⟩ := (hp _ _).1 h₁
      cases he
      exact ⟨rfl, rfl⟩
  · rintro ⟨rfl, rfl⟩
    exact .inr ⟨e, (hp _ _).2 ⟨rfl, rfl⟩, rfl⟩

theorem tryCatch_ok {p : Program S ε α} {h : ε → Program S ε α} {a : α}
    (hp : M.Decides p w (.ok a)) : M.Decides (tryCatch p h) w (.ok a) := by
  intro r' w'
  rw [runsAlone_tryCatch]
  constructor
  · rintro (⟨b, h₁, rfl⟩ | ⟨e, w₁, h₁, _⟩)
    · exact (hp _ _).1 h₁
    · cases ((hp _ _).1 h₁).1
  · rintro ⟨rfl, rfl⟩
    exact .inl ⟨a, (hp _ _).2 ⟨rfl, rfl⟩, rfl⟩

theorem tryCatch_error {p : Program S ε α} {h : ε → Program S ε α} {e : ε} {r : Except ε α}
    (hp : M.Decides p w (.error e)) (hh : M.Decides (h e) w r) : M.Decides (tryCatch p h) w r := by
  intro r' w'
  rw [runsAlone_tryCatch]
  constructor
  · rintro (⟨b, h₁, _⟩ | ⟨e', w₁, h₁, h₂⟩)
    · cases ((hp _ _).1 h₁).1
    · obtain ⟨he, rfl⟩ := (hp _ _).1 h₁
      cases he
      exact (hh r' w').1 h₂
  · exact fun h => .inr ⟨e, w, (hp _ _).2 ⟨rfl, rfl⟩, (hh r' w').2 h⟩

/-- `try`/`catch` around a rewritten error. -/
theorem mapError {p : Program S ε α} {f : ε → ε} {r : Except ε α} (hp : M.Decides p w r) :
    M.Decides (tryCatch p fun e => throw (f e)) w (r.mapError f) := by
  cases r with
  | ok a => exact tryCatch_ok hp
  | error e => exact tryCatch_error hp decides_throw

theorem throwIf {c : Prop} [Decidable c] {e : ε} {f : Unit → Program S ε β} {r : Except ε β}
    (hf : ¬c → M.Decides (f ()) w r) (he : c → r = .error e) :
    M.Decides (Program.throwIf c e >>= f) w r := by
  unfold Program.throwIf
  split_ifs with hc
  · rw [he hc]
    exact bind_error decides_throw
  · exact bind decides_pure (hf hc)

end Decides

/-! ### Statements that fail -/

/-- Run a program alone, with the random values `choose` gives. -/
def runAlone (M : Machine S ε W Req Resp Rnd Env) (choose : S.Op → W → Rnd) :
    Program S ε α → W → Option (Except ε α × W)
  | .done r, w => some (r, w)
  | .call op k, w =>
      match M.exec op (choose op w) w with
      | some (ans, w₁) => runAlone M choose (k ans) w₁
      | none => none

theorem runsAlone_of_runAlone {choose : S.Op → W → Rnd} {p : Program S ε α} {r : Except ε α}
    (h : M.runAlone choose p w = some (r, w')) : M.RunsAlone p w r w' := by
  induction p generalizing w with
  | done r' =>
      obtain ⟨rfl, rfl⟩ := Prod.mk.inj (Option.some.inj h)
      exact ⟨rfl, rfl⟩
  | call op k ih =>
      rw [runAlone] at h
      split at h
      · rename_i ans w₁ hexec
        exact ⟨_, ans, w₁, hexec, ih ans h⟩
      · cases h

end Machine
end Interleaving
end IdentityPlatform
