/-
# Statements a program may issue

`Issues Q p` says that all statements of `p` satisfy `Q`, whatever is answered.  It is read
off the text of a program with one rule for each of its constructs, and it implies the
property of the runs (`Issues.respects`).
-/

import IdentityPlatform.Interleaving.Program

namespace IdentityPlatform
namespace Interleaving
namespace Program

variable {S : Signature} {ε W α β : Type} {Q : S.Op → Prop} {p : Program S ε α}
  {f : α → Program S ε β}

/-- Every statement of the program satisfies `Q`. -/
def Issues (Q : S.Op → Prop) : Program S ε α → Prop
  | done _ => True
  | call op k => Q op ∧ ∀ r, (k r).Issues Q

theorem Issues.pure {a : α} : (Pure.pure a : Program S ε α).Issues Q := trivial

theorem Issues.throw {e : ε} : (MonadExcept.throw e : Program S ε α).Issues Q := trivial

theorem Issues.perform {op : S.Op} (h : Q op) : (perform op : Program S ε (S.Ans op)).Issues Q :=
  ⟨h, fun _ => trivial⟩

theorem Issues.bind (hp : p.Issues Q) (hf : ∀ a, (f a).Issues Q) : (p >>= f).Issues Q := by
  induction p with
  | done r =>
      cases r with
      | ok a => exact hf a
      | error e => trivial
  | call op k ih => exact ⟨hp.1, fun r => ih r (hp.2 r)⟩

theorem Issues.tryCatch {h : ε → Program S ε α} (hp : p.Issues Q) (hh : ∀ e, (h e).Issues Q) :
    (MonadExcept.tryCatch p h).Issues Q := by
  induction p with
  | done r =>
      cases r with
      | ok a => trivial
      | error e => exact hh e
  | call op k ih => exact ⟨hp.1, fun r => ih r (hp.2 r)⟩

theorem Issues.ite {c : Prop} [Decidable c] {q : Program S ε α} (hp : p.Issues Q)
    (hq : q.Issues Q) : (if c then p else q).Issues Q := by
  split
  · exact hp
  · exact hq

theorem Issues.throwIf {c : Prop} [Decidable c] {e : ε} :
    (throwIf c e : Program S ε Unit).Issues Q :=
  .ite .throw .pure

theorem Issues.orThrow {o : Option α} {e : ε} : (orThrow o e : Program S ε α).Issues Q := by
  cases o with
  | none => exact .throw
  | some a => exact .pure

theorem Issues.onlyIf {c : Prop} [Decidable c] {p : Program S ε Unit} (hp : p.Issues Q) :
    (onlyIf c p).Issues Q := .ite hp .pure

theorem Issues.orDo {o : Option α} (hp : p.Issues Q) : (orDo o p).Issues Q := by
  cases o with
  | none => exact hp
  | some a => exact .pure

theorem Issues.whenSome {o : Option α} {f : α → Program S ε Unit} (hf : ∀ a, (f a).Issues Q) :
    (whenSome o f).Issues Q := by
  cases o with
  | none => exact .pure
  | some a => exact hf a

/-- A program that issues only such statements reaches only such statements. -/
theorem Issues.respects (h : p.Issues Q) {l₀ : Log S ε W} : Respects (fun _ => Q) l₀ p := by
  induction p generalizing l₀ with
  | done r => exact fun _ _ hreach => hreach.elim
  | call op k ih =>
      rintro l op' (⟨rfl, _⟩ | ⟨n, pre, ans, post, hreach⟩)
      · exact h.1
      · exact ih ans (h.2 ans) l op' hreach

end Program
end Interleaving
end IdentityPlatform
