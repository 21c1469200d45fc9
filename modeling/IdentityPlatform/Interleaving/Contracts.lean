/-
# Contracts

A contract says what a program may assume of the answers to its statements, and what it has
to see to: which statements it issues, and which errors it ends with (`Contract`).  `Meets`
is read off the text of a program with one rule for each of its constructs, like `Issues`,
but the rule of a statement hands on what the contract says of its answer.

Whoever executes the statements supplies the assumption: in a log whose answers are as the
contract says, every statement is one that it allows (`Meets.respects`), and so is what the
program returns (`Meets.returns`).
-/

import IdentityPlatform.Interleaving.Program

namespace IdentityPlatform
namespace Interleaving

/-- What is assumed of answers, and what is guaranteed of statements and of errors.  The
error of a statement is one that the program may end with. -/
structure Contract (S : Signature) (ε : Type) where
  answers : (op : S.Op) → Except ε (S.Ans op) → Prop
  issues : S.Op → Prop
  fails : ε → Prop
  failed : ∀ {op e}, answers op (.error e) → fails e

namespace Contract

variable {S : Signature} {ε W : Type}

/-- All answers of the log are as the contract says. -/
def Answered (C : Contract S ε) (l : Log S ε W) : Prop := ∀ e ∈ l, C.answers e.op e.ans

theorem Answered.suffix {C : Contract S ε} {l l' : Log S ε W} (h : C.Answered l) (hl : l' <:+ l) :
    C.Answered l' :=
  fun e he => h e (hl.subset he)

end Contract

namespace Program

variable {S : Signature} {ε W α β : Type} {C : Contract S ε} {F F' : α → Prop} {Q : β → Prop}
  {p : Program S ε α} {f : α → Program S ε β}

/-- What the contract says of a result that satisfies `F`. -/
def Outcome (C : Contract S ε) (F : α → Prop) : Except ε α → Prop
  | .ok a => F a
  | .error e => C.fails e

/-- The program keeps the contract, and what it returns satisfies `F`. -/
def Meets (C : Contract S ε) (F : α → Prop) : Program S ε α → Prop
  | done r => Outcome C F r
  | call op k => C.issues op ∧ ∀ ans, C.answers op ans → (k ans).Meets C F

theorem Meets.pure {a : α} (h : F a) : (Pure.pure a : Program S ε α).Meets C F := h

theorem Meets.throw {e : ε} (h : C.fails e) : (MonadExcept.throw e : Program S ε α).Meets C F := h

theorem Meets.perform {op : S.Op} (h : C.issues op) :
    (perform op : Program S ε (S.Ans op)).Meets C fun a => C.answers op (.ok a) := by
  refine ⟨h, fun ans hans => ?_⟩
  cases ans with
  | ok a => exact hans
  | error e => exact C.failed hans

theorem Meets.mono (h : p.Meets C F) (hF : ∀ a, F a → F' a) : p.Meets C F' := by
  induction p with
  | done r =>
      cases r with
      | ok a => exact hF a h
      | error e => exact h
  | call op k ih => exact ⟨h.1, fun ans hans => ih ans (h.2 ans hans)⟩

theorem Meets.any (h : p.Meets C F) : p.Meets C fun _ => True := h.mono fun _ _ => trivial

theorem Meets.bind (hp : p.Meets C F) (hf : ∀ a, F a → (f a).Meets C Q) :
    (p >>= f).Meets C Q := by
  induction p with
  | done r =>
      cases r with
      | ok a => exact hf a hp
      | error e => exact hp
  | call op k ih => exact ⟨hp.1, fun ans hans => ih ans (hp.2 ans hans)⟩

theorem Meets.tryCatch {h : ε → Program S ε α} (hp : p.Meets C F)
    (hh : ∀ e, C.fails e → (h e).Meets C F) : (MonadExcept.tryCatch p h).Meets C F := by
  induction p with
  | done r =>
      cases r with
      | ok a => exact hp
      | error e => exact hh e hp
  | call op k ih => exact ⟨hp.1, fun ans hans => ih ans (hp.2 ans hans)⟩

theorem Meets.ite {c : Prop} [Decidable c] {q : Program S ε α} (hp : c → p.Meets C F)
    (hq : ¬c → q.Meets C F) : (if c then p else q).Meets C F := by
  split
  · exact hp ‹_›
  · exact hq ‹_›

theorem Meets.throwIf {c : Prop} [Decidable c] {e : ε} (h : C.fails e) :
    (throwIf c e : Program S ε Unit).Meets C fun _ => ¬c :=
  .ite (fun _ => .throw h) fun hc => .pure hc

theorem Meets.orThrow {o : Option α} {e : ε} (h : C.fails e) :
    (orThrow o e : Program S ε α).Meets C fun a => o = some a := by
  cases o with
  | none => exact .throw h
  | some a => exact .pure rfl

theorem Meets.onlyIf {c : Prop} [Decidable c] {p : Program S ε Unit}
    (hp : c → p.Meets C fun _ => True) : (onlyIf c p).Meets C fun _ => True :=
  .ite hp fun _ => .pure trivial

theorem Meets.orDo {o : Option α} (hsome : ∀ a, o = some a → F a)
    (hp : o = none → p.Meets C F) : (orDo o p).Meets C F := by
  cases o with
  | none => exact hp rfl
  | some a => exact .pure (hsome a rfl)

theorem Meets.whenSome {o : Option α} {f : α → Program S ε Unit}
    (hf : ∀ a, o = some a → (f a).Meets C fun _ => True) :
    (whenSome o f).Meets C fun _ => True := by
  cases o with
  | none => exact .pure trivial
  | some a => exact hf a rfl

/-- **A program that keeps a contract issues what the contract allows**, as long as it is
answered as the contract says. -/
theorem Meets.respects (h : p.Meets C F) {l₀ : Log S ε W} :
    Respects (fun l op => C.Answered l → C.issues op) l₀ p := by
  induction p generalizing l₀ with
  | done r => exact fun _ _ hreach => hreach.elim
  | call op k ih =>
      rintro l op' (⟨rfl, _⟩ | ⟨n, pre, ans, post, hreach⟩) hanswered
      · exact h.1
      · have hans : C.answers op ans :=
          hanswered ⟨n, pre, op, ans, post⟩ (hreach.suffix.subset (List.mem_cons_self ..))
        exact ih ans (h.2 ans hans) l op' hreach hanswered

/-- **What it returns is as the contract says**, too. -/
theorem Meets.returns (h : p.Meets C F) {l₀ l : Log S ε W} {r : Except ε α}
    (hr : p.Returns l₀ l r) (hanswered : C.Answered l) : Outcome C F r := by
  induction p generalizing l₀ with
  | done r' => exact hr.2 ▸ h
  | call op k ih =>
      obtain ⟨n, pre, ans, post, hr⟩ := hr
      have hans : C.answers op ans :=
        hanswered ⟨n, pre, op, ans, post⟩ (hr.suffix.subset (List.mem_cons_self ..))
      exact ih ans (h.2 ans hans) hr

end Program
end Interleaving
end IdentityPlatform
