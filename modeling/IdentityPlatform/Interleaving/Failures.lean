/-
# How programs fail

A program that fails has failed with the error of one of its statements, or with one it
throws itself.  `FailsWith E` says that the errors it throws are in `E`; so an error that
no statement has and that is not in `E` rules a failure out.
-/

import IdentityPlatform.Interleaving.Program

namespace IdentityPlatform
namespace Interleaving
namespace Program

variable {S : Signature} {ε W α β : Type} {E : ε → Prop}

/-- Every error of the program is that of a statement or in `E`. -/
def FailsWith (W : Type) (E : ε → Prop) (p : Program S ε α) : Prop :=
  ∀ (l₀ l : Log S ε W) e, p.Returns l₀ l (.error e) → (∃ op, Log.Saw l op (.error e)) ∨ E e

theorem FailsWith.pure {a : α} : FailsWith W E (Pure.pure a : Program S ε α) :=
  fun _ _ _ h => by cases (returns_pure.1 h).2

theorem FailsWith.throw {e : ε} (he : E e) : FailsWith W E (throw e : Program S ε α) := by
  intro l₀ l e' h
  obtain ⟨_, heq⟩ := returns_throw.1 h
  exact .inr (Except.error.inj heq ▸ he)

theorem FailsWith.perform {op : S.Op} : FailsWith W E (perform op : Program S ε _) :=
  fun _ _ _ h => .inl ⟨op, h.saw⟩

theorem FailsWith.bind {p : Program S ε α} {f : α → Program S ε β} (hp : FailsWith W E p)
    (hf : ∀ a, FailsWith W E (f a)) : FailsWith W E (p >>= f) := by
  intro l₀ l e h
  rcases h.error_of_bind with h₁ | ⟨l₁, a, _, _, h₂⟩
  · exact hp l₀ l e h₁
  · exact hf a l₁ l e h₂

theorem FailsWith.throwIf {c : Prop} [Decidable c] {e : ε} (he : c → E e) :
    FailsWith W E (throwIf c e : Program S ε Unit) := by
  intro l₀ l e' h
  obtain ⟨_, hc, rfl⟩ := returns_throwIf_error.1 h
  exact .inr (he hc)

theorem FailsWith.orThrow {o : Option α} {e : ε} (he : E e) :
    FailsWith W E (orThrow o e : Program S ε α) := by
  intro l₀ l e' h
  obtain ⟨_, _, rfl⟩ := returns_orThrow_error.1 h
  exact .inr he

theorem FailsWith.onlyIf {c : Prop} [Decidable c] {p : Program S ε Unit} (hp : FailsWith W E p) :
    FailsWith W E (onlyIf c p) := by
  unfold Program.onlyIf
  split_ifs
  · exact hp
  · exact .pure

theorem FailsWith.ite {c : Prop} [Decidable c] {p q : Program S ε α} (hp : FailsWith W E p)
    (hq : FailsWith W E q) : FailsWith W E (if c then p else q) := by
  split_ifs
  · exact hp
  · exact hq

theorem FailsWith.orDo {o : Option α} {p : Program S ε α} (hp : FailsWith W E p) :
    FailsWith W E (orDo o p) := by
  cases o with
  | none => exact hp
  | some a => exact .pure

/-- A program whose handler passes on what it does not know. -/
theorem FailsWith.tryCatch {p : Program S ε α} {h : ε → Program S ε α} (hp : FailsWith W E p)
    (hh : ∀ (l₀ l : Log S ε W) e e', (h e).Returns l₀ l (.error e') →
      (∃ op, Log.Saw l op (.error e')) ∨ E e' ∨ l = l₀ ∧ e' = e) :
    FailsWith W E (tryCatch p h) := by
  intro l₀ l e' hr
  rcases returns_tryCatch.1 hr with ⟨_, _, he⟩ | ⟨l₁, e, h₁, h₂⟩
  · cases he
  · rcases hh l₁ l e e' h₂ with hsaw | hE | ⟨rfl, rfl⟩
    · exact .inl hsaw
    · exact .inr hE
    · exact hp l₀ l e' h₁

end Program
end Interleaving
end IdentityPlatform
