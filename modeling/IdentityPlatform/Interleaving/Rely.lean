/-
# Programs among others

What a program does while other calls and the environment take their steps in between.
A `Rely` bounds what the others do to the state, and says from when on nothing is promised
any more.  `Succeeds` is then a property of the program and the state it starts in; the
rules follow the program, and `Runs.succeeds` carries the property through a run of the
machine whose other steps keep to the bound.
-/

import IdentityPlatform.Interleaving.Machine

namespace IdentityPlatform
namespace Interleaving

variable {S : Signature} {ε W Req Resp Rnd Env α β : Type}

namespace Machine

/-- What the others may do between two statements of a program, and the states from which
on nothing is promised of it. -/
structure Rely (M : Machine S ε W Req Resp Rnd Env) where
  moves : W → W → Prop
  past : W → Prop
  refl : ∀ w, moves w w
  trans : ∀ {w₁ w₂ w₃}, moves w₁ w₂ → moves w₂ w₃ → moves w₁ w₃
  pastMoves : ∀ {w w'}, past w → moves w w' → past w'
  pastExec : ∀ {op r ans w w'}, past w → M.exec op r w = some (ans, w') → past w'

namespace Rely

variable {M : Machine S ε W Req Resp Rnd Env} (ρ : M.Rely)

/-- Started in the state, the program returns a value that satisfies `F` in the state it
returns in, unless that state is past. -/
def Succeeds : Program S ε α → (α → W → Prop) → W → Prop
  | .done r, F, w => ρ.past w ∨ ∃ a, r = .ok a ∧ F a w
  | .call op k, F, w => ∀ w₁, ρ.moves w w₁ → ∀ r ans w₂, M.exec op r w₁ = some (ans, w₂) →
      Succeeds (k ans) F w₂

namespace Succeeds

variable {ρ} {p : Program S ε α} {F F' : α → W → Prop} {G : β → W → Prop} {w w' : W}

theorem pure {a : α} (h : F a w) : ρ.Succeeds (pure a : Program S ε α) F w := .inr ⟨a, rfl, h⟩

/-- Nothing is promised of a program that starts in a state that is past. -/
theorem of_past (h : ρ.past w) : ρ.Succeeds p F w := by
  induction p generalizing w with
  | done r => exact .inl h
  | call op k ih => exact fun w₁ hw r ans w₂ hexec => ih ans (ρ.pastExec (ρ.pastMoves h hw) hexec)

theorem mono (h : ρ.Succeeds p F w) (himp : ∀ a w, F a w → F' a w) : ρ.Succeeds p F' w := by
  induction p generalizing w with
  | done r =>
      rcases h with h | ⟨a, rfl, ha⟩
      · exact .inl h
      · exact .inr ⟨a, rfl, himp a w ha⟩
  | call op k ih => exact fun w₁ hw r ans w₂ hexec => ih ans (h w₁ hw r ans w₂ hexec)

theorem bind {f : α → Program S ε β} (h : ρ.Succeeds p F w)
    (hf : ∀ a w, F a w → ρ.Succeeds (f a) G w) : ρ.Succeeds (p >>= f) G w := by
  change ρ.Succeeds (p.bind f) G w
  induction p generalizing w with
  | done r =>
      rcases h with h | ⟨a, rfl, ha⟩
      · exact of_past h
      · exact hf a w ha
  | call op k ih => exact fun w₁ hw r ans w₂ hexec => ih ans (h w₁ hw r ans w₂ hexec)

/-- What succeeds throws nothing that is caught. -/
theorem tryCatch {handler : ε → Program S ε α} (h : ρ.Succeeds p F w) :
    ρ.Succeeds (tryCatch p handler) F w := by
  change ρ.Succeeds (p.catchWith handler) F w
  induction p generalizing w with
  | done r =>
      rcases h with h | ⟨a, rfl, ha⟩
      · exact of_past h
      · exact .inr ⟨a, rfl, ha⟩
  | call op k ih => exact fun w₁ hw r ans w₂ hexec => ih ans (h w₁ hw r ans w₂ hexec)

/-- One statement. -/
theorem perform {op : S.Op} {F : S.Ans op → W → Prop}
    (h : ∀ w₁, ρ.moves w w₁ → ∀ r ans w₂, M.exec op r w₁ = some (ans, w₂) →
      ρ.past w₂ ∨ ∃ a, ans = .ok a ∧ F a w₂) :
    ρ.Succeeds (Program.perform op : Program S ε _) F w := h

theorem throwIf {c : Prop} [Decidable c] {e : ε} {F : Unit → W → Prop} (hc : ¬c) (h : F () w) :
    ρ.Succeeds (Program.throwIf c e : Program S ε Unit) F w := by
  unfold Program.throwIf
  rw [if_neg hc]
  exact pure h

theorem orThrow {o : Option α} {e : ε} {a : α} (ho : o = some a) (h : F a w) :
    ρ.Succeeds (Program.orThrow o e : Program S ε α) F w := by
  subst ho
  exact pure h

/-- The property is kept by what the others do. -/
theorem moved (h : ρ.Succeeds p F w) (hw : ρ.moves w w')
    (hF : ∀ a {w w'}, F a w → ρ.moves w w' → F a w') : ρ.Succeeds p F w' := by
  cases p with
  | done r =>
      rcases h with h | ⟨a, rfl, ha⟩
      · exact .inl (ρ.pastMoves h hw)
      · exact .inr ⟨a, rfl, hF a ha hw⟩
  | call op k => exact fun w₁ hw₁ => h w₁ (ρ.trans hw hw₁)

end Succeeds

end Rely

/-- A run that adds a call has accepted it. -/
theorem Runs.accepted {M : Machine S ε W Req Resp Rnd Env}
    {ok : Config S ε W Req Resp → Action Req Rnd Env → Prop} {c c' : Config S ε W Req Resp}
    (h : M.Runs ok c c') {i : ℕ} {call : Call S ε W Req Resp} (hi : c'.calls[i]? = some call)
    (hnew : c.calls.length ≤ i) :
    ∃ c₁, M.Runs ok c c₁ ∧ ok c₁ (.accept call.req) ∧ c₁.calls.length = i ∧
      M.Runs ok (M.accept c₁ call.req) c' := by
  induction h generalizing call with
  | refl => exact absurd (List.getElem?_eq_some_iff.1 hi).1 (Nat.not_lt.2 hnew)
  | @tail c₂ c₃ a h hok hs ih =>
      rcases step_cases hs with ⟨req, rfl, rfl⟩ | ⟨j, mover, op, k, ans, post, _, hj, _, _, rfl⟩ |
        ⟨e, w, _, _, rfl⟩
      · rcases accept_get_cases hi with ⟨_, hi⟩ | ⟨rfl, rfl⟩
        · obtain ⟨c₁, h₁, hok₁, hlen, h₂⟩ := ih hi
          exact ⟨c₁, h₁, hok₁, hlen, .tail h₂ hok hs⟩
        · exact ⟨c₂, h, hok, rfl, .refl _⟩
      · obtain ⟨call'', hi'', hreq, _⟩ := Config.record_get_start hj hi
        obtain ⟨c₁, h₁, hok₁, hlen, h₂⟩ := ih hi''
        rw [hreq] at hok₁ h₂
        exact ⟨c₁, h₁, hok₁, hlen, .tail h₂ hok hs⟩
      · obtain ⟨c₁, h₁, hok₁, hlen, h₂⟩ := ih hi
        exact ⟨c₁, h₁, hok₁, hlen, .tail h₂ hok hs⟩

/-- **Success in a run.**  A call whose program succeeds among steps that keep to `ρ` still
does after a run whose other steps keep to it and in which no statement of the call fails
for reasons outside the model. -/
theorem Runs.succeeds {M : Machine S ε W Req Resp Rnd Env}
    {ok : Config S ε W Req Resp → Action Req Rnd Env → Prop} {c c' : Config S ε W Req Resp}
    (h : M.Runs ok c c') (ρ : M.Rely) {i : ℕ} {call : Call S ε W Req Resp}
    {F : Resp → W → Prop} (hi : c.calls[i]? = some call)
    (hsucceeds : ρ.Succeeds call.prog F c.world)
    (hF : ∀ a {w w'}, F a w → ρ.moves w w' → F a w') (hfail : ∀ c, ¬ok c (.fail i))
    (hothers : ∀ {c₁ a c₂}, M.Runs ok c c₁ → ok c₁ a → M.apply c₁ a = some c₂ →
      (∀ r, a ≠ .step i r) → ρ.moves c₁.world c₂.world) :
    ∃ call', c'.calls[i]? = some call' ∧ ρ.Succeeds call'.prog F c'.world := by
  induction h with
  | refl => exact ⟨call, hi, hsucceeds⟩
  | @tail c₁ c₂ a h hok hs ih =>
      obtain ⟨call₁, hi₁, hsucceeds₁⟩ := ih
      by_cases hown : ∃ r, a = .step i r
      · obtain ⟨r, rfl⟩ := hown
        obtain ⟨call₂, op, k, ans, post, hi₂, hp, hexec, rfl⟩ := apply_step hs
        obtain rfl : call₁ = call₂ := Option.some.inj (hi₁.symm.trans hi₂)
        refine ⟨_, Config.record_get_self hi₁, ?_⟩
        rw [hp] at hsucceeds₁
        exact hsucceeds₁ _ (ρ.refl _) r ans post hexec
      · -- the others keep to the bound, and the call stays as it was
        have hmoved := hsucceeds₁.moved (hothers h hok hs fun r hr => hown ⟨r, hr⟩) hF
        rcases step_cases hs with ⟨req, _, rfl⟩ | ⟨j, mover, op, k, ans, post, ha, hj, _, _, rfl⟩ |
          ⟨e, w, _, _, rfl⟩
        · exact ⟨call₁, accept_get_old hi₁, hmoved⟩
        · have hne : i ≠ j := by
            rintro rfl
            rcases ha with rfl | hstep
            · exact hfail c₁ hok
            · exact hown hstep
          exact ⟨call₁, by rwa [Config.record_get_ne hne], hmoved⟩
        · exact ⟨call₁, hi₁, hmoved⟩

end Machine
end Interleaving
end IdentityPlatform
