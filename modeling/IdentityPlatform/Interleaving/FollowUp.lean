/-
# What programs do about their own statements

`Respects` looks back from a statement: what had the program seen when it issued it.
`Settles` looks ahead: once the program has returned, what has it done about a
statement it issued earlier.  The first is a property of every moment, the second one
only of complete logs, so it says something about the states in which no call is in
progress.
-/

import IdentityPlatform.Interleaving.Program

namespace IdentityPlatform
namespace Interleaving
namespace Program

variable {S : Signature} {ε W α β : Type} {l₀ l l' : Log S ε W} {e : Event S ε W}

/-- In every complete log of the program, each event it adds is settled: `Q e l' l` is
about the event, the log before it and the complete log. -/
def Settles (Q : Event S ε W → Log S ε W → Log S ε W → Prop) (l₀ : Log S ε W)
    (p : Program S ε α) : Prop :=
  ∀ l r, p.Returns l₀ l r → ∀ e l', e :: l' <:+ l → l₀ <:+ l' → Q e l' l

/-- A log does not reach beyond itself. -/
theorem not_cons_suffix (h : e :: l' <:+ l) : ¬l <:+ l' := fun hl => by
  have hlength := (h.trans hl).length_le
  rw [List.length_cons] at hlength
  omega

/-- Each event of a complete log is about a statement the program reaches. -/
theorem Returns.reaches {p : Program S ε α} {r : Except ε α} (h : p.Returns l₀ l r)
    (he : e :: l' <:+ l) (hl : l₀ <:+ l') : p.Reaches l₀ l' e.op := by
  induction p generalizing l₀ with
  | done r' =>
      obtain ⟨rfl, _⟩ := h
      exact absurd hl (not_cons_suffix he)
  | call op k ih =>
      obtain ⟨n, pre, ans, post, h⟩ := h
      rcases List.suffix_or_suffix_of_suffix he h.suffix with hs | hs
      · rcases List.suffix_cons_iff.1 hs with heq | hs
        · obtain ⟨rfl, rfl⟩ := List.cons.inj heq
          exact .inl ⟨rfl, rfl⟩
        · exact absurd hl (not_cons_suffix hs)
      · rcases List.suffix_cons_iff.1 hs with heq | hs
        · obtain ⟨rfl, rfl⟩ := List.cons.inj heq
          exact .inl ⟨rfl, rfl⟩
        · exact .inr ⟨n, pre, ans, post, ih ans h hs⟩

variable {Q : Event S ε W → Log S ε W → Log S ε W → Prop}

/-- Statements that need no follow-up. -/
theorem Respects.settles {R : Log S ε W → S.Op → Prop} {p : Program S ε α}
    (h : Respects R l₀ p) (hR : ∀ e l' l, R l' e.op → Q e l' l) : Settles Q l₀ p :=
  fun l _ hr e l' he hl => hR e l' l (h l' e.op (hr.reaches he hl))

/-- A sequence settles its events when both halves do. -/
theorem Settles.bind {p : Program S ε α} {f : α → Program S ε β}
    (hQ : ∀ {e l' l l''}, Q e l' l → l <:+ l'' → Q e l' l'') (hp : Settles Q l₀ p)
    (hf : ∀ l a, p.Returns l₀ l (.ok a) → Settles Q l (f a)) : Settles Q l₀ (p >>= f) := by
  intro l r h e l' he hl
  rcases returns_bind.1 h with ⟨l₁, a, h₁, h₂⟩ | ⟨err, h₁, _⟩
  · rcases List.suffix_or_suffix_of_suffix he h₂.suffix with hs | hs
    · exact hQ (hp l₁ _ h₁ e l' hs hl) h₂.suffix
    · rcases List.suffix_cons_iff.1 hs with heq | hs
      · exact hQ (hp l₁ _ h₁ e l' (heq ▸ List.suffix_refl _) hl) h₂.suffix
      · exact hf l₁ a h₁ l r h₂ e l' he hs
  · exact hp l _ h₁ e l' he hl

/-- A statement that what follows it settles. -/
theorem Settles.perform_bind {op : S.Op} {f : S.Ans op → Program S ε β}
    (herror : ∀ n pre err post,
      Q ⟨n, pre, op, .error err, post⟩ l₀ (⟨n, pre, op, .error err, post⟩ :: l₀))
    (hop : ∀ n pre a post l r, (f a).Returns (⟨n, pre, op, .ok a, post⟩ :: l₀) l r →
      Q ⟨n, pre, op, .ok a, post⟩ l₀ l)
    (hf : ∀ l a, Log.Next l₀ l op (.ok a) → Settles Q l (f a)) :
    Settles Q l₀ (perform op >>= f) := by
  intro l r h e l' he hl
  rcases returns_bind.1 h with ⟨l₁, a, h₁, h₂⟩ | ⟨err, h₁, _⟩
  · obtain ⟨n, pre, post, rfl⟩ := h₁.next
    rcases List.suffix_or_suffix_of_suffix he h₂.suffix with hs | hs
    · rcases List.suffix_cons_iff.1 hs with heq | hs
      · obtain ⟨rfl, rfl⟩ := List.cons.inj heq
        exact hop n pre a post l r h₂
      · exact absurd hl (not_cons_suffix hs)
    · rcases List.suffix_cons_iff.1 hs with heq | hs
      · obtain ⟨rfl, rfl⟩ := List.cons.inj heq
        exact hop n pre a post l r h₂
      · exact hf _ a h₁.next l r h₂ e l' he hs
  · obtain ⟨n, pre, post, rfl⟩ := h₁.next
    rcases List.suffix_cons_iff.1 he with heq | hs
    · obtain ⟨rfl, rfl⟩ := List.cons.inj heq
      exact herror n pre err post
    · exact absurd hl (not_cons_suffix hs)

/-- What an earlier event of a complete log has led to. -/
theorem Settles.settled {p : Program S ε α} {r : Except ε α} (h : Settles Q [] p)
    (hr : p.Returns [] l r) (he : e :: l' <:+ l) : Q e l' l :=
  h l r hr e l' he (List.nil_suffix)

end Program
end Interleaving
end IdentityPlatform
