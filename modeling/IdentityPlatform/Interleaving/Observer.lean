/-
# Programs beside a machine

A process next to the machine that only reads the shared state: each of its statements
is answered in a state that the run passes through, and leaves that state as it is.
-/

import IdentityPlatform.Interleaving.Machine

namespace IdentityPlatform
namespace Interleaving
namespace Machine

variable {S : Signature} {ε W Req Resp Rnd Env α : Type}

/-- The program, started in `c` after the log `l`, returns `r` in `c'` with the log `l'`,
while the machine goes on from `c` to `c'`. -/
inductive Observes (M : Machine S ε W Req Resp Rnd Env) :
    Config S ε W Req Resp → Log S ε W → Program S ε α → Log S ε W → Except ε α →
      Config S ε W Req Resp → Prop
  | done {c c' : Config S ε W Req Resp} {l : Log S ε W} {r : Except ε α} (wait : M.Run c c') :
      Observes M c l (.done r) l r c'
  | call {c c₁ c' : Config S ε W Req Resp} {l l' : Log S ε W} {op : S.Op}
      {k : Except ε (S.Ans op) → Program S ε α} {ans : Except ε (S.Ans op)} {r : Except ε α}
      (wait : M.Run c c₁) (answers : M.Answers op c₁.world ans c₁.world)
      (rest : Observes M c₁ (⟨c₁.seq, c₁.world, op, ans, c₁.world⟩ :: l) (k ans) l' r c') :
      Observes M c l (.call op k) l' r c'

variable {M : Machine S ε W Req Resp Rnd Env} {c c' : Config S ε W Req Resp} {l l' : Log S ε W}
  {p : Program S ε α} {r : Except ε α}

theorem Observes.run (h : M.Observes c l p l' r c') : M.Run c c' := by
  induction h with
  | done wait => exact wait
  | call wait _ _ ih => exact wait.trans ih

/-- An observer returns what its program returns. -/
theorem Observes.returns (h : M.Observes c l p l' r c') : p.Returns l l' r := by
  induction h with
  | done => exact ⟨rfl, rfl⟩
  | call _ _ _ ih => exact ⟨_, _, _, _, ih⟩

/-- **What an observer has seen** was answered in a configuration of the run. -/
theorem Observes.event (h : M.Observes c l p l' r c') {e : Event S ε W} (he : e ∈ l') :
    e ∈ l ∨
      ∃ c₁, M.Run c c₁ ∧ M.Run c₁ c' ∧ c₁.world = e.pre ∧ M.Answers e.op e.pre e.ans e.pre := by
  induction h with
  | done => exact .inl he
  | @call c c₁ c' l l' op k ans r wait answers rest ih =>
      rcases ih he with he | ⟨c₂, h₁, h₂, hrest⟩
      · rcases List.mem_cons.1 he with rfl | he
        · exact .inr ⟨c₁, wait, rest.run, rfl, answers⟩
        · exact .inl he
      · exact .inr ⟨c₂, wait.trans h₁, h₂, hrest⟩

/-- A program that has seen nothing before: an answer is from a configuration of the run. -/
theorem Observes.saw (h : M.Observes c [] p l' r c') {op : S.Op} {ans : Except ε (S.Ans op)}
    (hs : Log.Saw l' op ans) :
    ∃ c₁, M.Run c c₁ ∧ M.Run c₁ c' ∧ M.Answers op c₁.world ans c₁.world := by
  obtain ⟨n, pre, post, hmem⟩ := hs
  rcases h.event hmem with hnil | ⟨c₁, h₁, h₂, rfl, answers⟩
  · cases hnil
  · exact ⟨c₁, h₁, h₂, answers⟩

/-! ### Composition -/

/-- Who starts later has waited. -/
theorem Observes.after {c₀ : Config S ε W Req Resp} (hrun : M.Run c₀ c)
    (h : M.Observes c l p l' r c') : M.Observes c₀ l p l' r c' := by
  cases h with
  | done wait => exact .done (hrun.trans wait)
  | call wait answers rest => exact .call (hrun.trans wait) answers rest

theorem Observes.perform {op : S.Op} {ans : Except ε (S.Ans op)}
    (answers : M.Answers op c.world ans c.world) :
    M.Observes c l (Program.perform op) (⟨c.seq, c.world, op, ans, c.world⟩ :: l) ans c :=
  .call (.refl c) answers (.done (.refl c))

theorem Observes.bind {β : Type} {f : α → Program S ε β} {a : α} {l₁ : Log S ε W}
    {c₁ : Config S ε W Req Resp} {r' : Except ε β} (hp : M.Observes c l p l₁ (.ok a) c₁)
    (hf : M.Observes c₁ l₁ (f a) l' r' c') : M.Observes c l (p >>= f) l' r' c' := by
  generalize hr : Except.ok a = r₀ at hp
  induction hp with
  | done wait =>
      subst hr
      exact hf.after wait
  | call wait answers _ ih => exact .call wait answers (ih hf hr)

theorem Observes.tryCatch {h : ε → Program S ε α} {a : α}
    (hp : M.Observes c l p l' (.ok a) c') : M.Observes c l (tryCatch p h) l' (.ok a) c' := by
  generalize hr : Except.ok a = r₀ at hp
  induction hp with
  | done wait =>
      subst hr
      exact .done wait
  | call wait answers _ ih => exact .call wait answers (ih hr)

/-! ### Looking at one configuration -/

section Look

variable (M : Machine S ε W Req Resp Rnd Env) (reads : S.Op → Bool) (choose : S.Op → Rnd)

/-- Run a program that only reads in one configuration: its log and its result. -/
def look (c : Config S ε W Req Resp) : Program S ε α → Log S ε W → Option (Log S ε W × Except ε α)
  | .done r, l => some (l, r)
  | .call op k, l =>
      if reads op then
        match M.exec op (choose op) c.world with
        | some (ans, _) => look c (k ans) (⟨c.seq, c.world, op, ans, c.world⟩ :: l)
        | none => none
      else none

variable {M reads choose}

/-- Who looks observes. -/
theorem observes_of_look (hreads : ∀ op r w ans w', reads op = true →
      M.exec op r w = some (ans, w') → w' = w)
    (h : look M reads choose c p l = some (l', r)) : M.Observes c l p l' r c := by
  induction p generalizing l with
  | done r' =>
      obtain ⟨rfl, rfl⟩ := Prod.mk.inj (Option.some.inj h)
      exact .done (.refl c)
  | call op k ih =>
      rw [look] at h
      split_ifs at h with hread
      split at h
      · rename_i ans w hexec
        obtain rfl := hreads op _ _ _ _ hread hexec
        exact .call (.refl c) (.inl ⟨_, hexec⟩) (ih ans h)
      · cases h

end Look

end Machine
end Interleaving
end IdentityPlatform
