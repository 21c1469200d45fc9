/-
# Two runs side by side

Runs of a component that answers one input after the other, where a step may be
impossible.  `Unwinds` says of two such components that steps on corresponding inputs, from
corresponding states, give corresponding answers and lead to corresponding states; then so
do runs of any length (`Unwinds.runs`).  With a view of the state for the correspondence,
that is the unwinding argument for what a view does not depend on.
-/

import Mathlib.Data.List.Forall2

namespace IdentityPlatform
namespace Interleaving

variable {I I' O O' S S' V : Type}

/-- The answers of a run and the state it ends in, if all its steps are possible. -/
def answersOf (step : I → S → Option (O × S)) : List I → S → Option (List O × S)
  | [], s => some ([], s)
  | i :: is, s => (step i s).bind fun p => (answersOf step is p.2).map fun q => (p.1 :: q.1, q.2)

variable {step : I → S → Option (O × S)} {step' : I' → S' → Option (O' × S')}

/-- A run is a step and a run. -/
theorem answersOf_cons {i : I} {is : List I} {s t : S} {os : List O}
    (h : answersOf step (i :: is) s = some (os, t)) :
    ∃ o s₁ os₁, step i s = some (o, s₁) ∧ answersOf step is s₁ = some (os₁, t) ∧ os = o :: os₁ := by
  obtain ⟨⟨o, s₁⟩, hstep, h⟩ := Option.bind_eq_some_iff.1 h
  obtain ⟨⟨os₁, t₁⟩, hrun, h⟩ := Option.map_eq_some_iff.1 h
  obtain ⟨rfl, rfl⟩ := Prod.mk.inj h
  exact ⟨o, s₁, os₁, hstep, hrun, rfl⟩

/-- Steps on corresponding inputs correspond. -/
def Unwinds (step : I → S → Option (O × S)) (step' : I' → S' → Option (O' × S'))
    (inputs : I → I' → Prop) (outputs : O → O' → Prop) (states : S → S' → Prop) : Prop :=
  ∀ ⦃i i' s s' o o' t t'⦄, inputs i i' → states s s' → step i s = some (o, t) →
    step' i' s' = some (o', t') → outputs o o' ∧ states t t'

/-- **Runs on corresponding inputs correspond.** -/
theorem Unwinds.runs {inputs : I → I' → Prop} {outputs : O → O' → Prop} {states : S → S' → Prop}
    (h : Unwinds step step' inputs outputs states) {is : List I} {is' : List I'}
    (his : List.Forall₂ inputs is is') {s t : S} {s' t' : S'} {os : List O} {os' : List O'}
    (hs : states s s') (hrun : answersOf step is s = some (os, t))
    (hrun' : answersOf step' is' s' = some (os', t')) :
    List.Forall₂ outputs os os' ∧ states t t' := by
  induction his generalizing s s' os os' with
  | nil =>
      obtain ⟨rfl, rfl⟩ := Prod.mk.inj (Option.some.inj hrun)
      obtain ⟨rfl, rfl⟩ := Prod.mk.inj (Option.some.inj hrun')
      exact ⟨.nil, hs⟩
  | cons hi _ ih =>
      obtain ⟨o, s₁, os₁, hstep, hrest, rfl⟩ := answersOf_cons hrun
      obtain ⟨o', s₁', os₁', hstep', hrest', rfl⟩ := answersOf_cons hrun'
      obtain ⟨ho, hs₁⟩ := h hi hs hstep hstep'
      obtain ⟨hos, ht⟩ := ih hs₁ hrest hrest'
      exact ⟨.cons ho hos, ht⟩

/-- A view that every step keeps, every run keeps. -/
theorem view_of_answersOf {view : S → V} {is : List I} {s t : S} {os : List O}
    (hstep : ∀ i ∈ is, ∀ s o t, step i s = some (o, t) → view t = view s)
    (hrun : answersOf step is s = some (os, t)) : view t = view s := by
  induction is generalizing s os with
  | nil =>
      obtain ⟨_, rfl⟩ := Prod.mk.inj (Option.some.inj hrun)
      rfl
  | cons i is ih =>
      obtain ⟨o, s₁, os₁, h, hrest, _⟩ := answersOf_cons hrun
      have hkept := ih (fun j hj => hstep j (List.mem_cons_of_mem _ hj)) hrest
      rw [hkept, hstep i (List.mem_cons_self ..) s o s₁ h]

end Interleaving
end IdentityPlatform
