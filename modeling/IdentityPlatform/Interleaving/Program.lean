/-
# Programs of atomic statements

A request handler of a server talks to its database, its cache and its clock
through statements that are atomic each, and anything may happen between two of
them.  A `Program` is such a handler cut at its statements: it has returned, or
it issues one statement and goes on with whatever answer comes back.  Answers
are `Except`: a statement can fail, and a handler may catch the failure.

What a program does is read off its *log*, the statements it has issued with
their answers, newest first.  `Returns` says with which logs a program returns
which result, `Reaches` says with which logs it stands right before which
statement.  Both quantify over every answer, so they know nothing of the state
the statements run on: they are the part of an argument about concurrent
handlers that does not depend on the interleaving.
-/

import Mathlib.Data.List.Infix

namespace IdentityPlatform
namespace Interleaving

/-- The atomic statements of a system and the type of the answer of each. -/
structure Signature where
  Op : Type
  Ans : Op → Type

/-- A program over the statements of `S`: a result, or one statement and what
follows each of its answers. -/
inductive Program (S : Signature) (ε α : Type) : Type
  | done (r : Except ε α)
  | call (op : S.Op) (k : Except ε (S.Ans op) → Program S ε α)

namespace Program

variable {S : Signature} {ε α β : Type}

/-- Sequencing: `f` continues where `p` returns, and an error of `p` is the
error of the whole. -/
def bind : Program S ε α → (α → Program S ε β) → Program S ε β
  | done (.ok a), f => f a
  | done (.error e), _ => done (.error e)
  | call op k, f => call op fun r => (k r).bind f

/-- `h` continues where `p` fails. -/
def catchWith : Program S ε α → (ε → Program S ε α) → Program S ε α
  | done (.ok a), _ => done (.ok a)
  | done (.error e), h => h e
  | call op k, h => call op fun r => (k r).catchWith h

instance : Monad (Program S ε) where
  pure a := done (.ok a)
  bind := bind

instance : MonadExceptOf ε (Program S ε) where
  throw e := done (.error e)
  tryCatch := catchWith

/-- Issue one statement and return its answer. -/
def perform (op : S.Op) : Program S ε (S.Ans op) := call op done

/-- `if (c) throw e`. -/
def throwIf (c : Prop) [Decidable c] (e : ε) : Program S ε Unit :=
  if c then throw e else pure ()

/-- `if (!o) throw e`, with the value of `o` afterwards. -/
def orThrow (o : Option α) (e : ε) : Program S ε α :=
  match o with
  | some a => pure a
  | none => throw e

/-- `if (c) p`. -/
def onlyIf (c : Prop) [Decidable c] (p : Program S ε Unit) : Program S ε Unit :=
  if c then p else pure ()

/-- `o ?? await p`. -/
def orDo (o : Option α) (p : Program S ε α) : Program S ε α :=
  match o with
  | some a => pure a
  | none => p

/-- `if (o) f(o)`. -/
def whenSome (o : Option α) (f : α → Program S ε Unit) : Program S ε Unit :=
  match o with
  | some a => f a
  | none => pure ()

/-- `for (const x of xs) await f(x)`. -/
def forEach (xs : List β) (f : β → Program S ε Unit) : Program S ε Unit :=
  match xs with
  | [] => pure ()
  | x :: xs => do
      f x
      forEach xs f

end Program

/-- One executed statement: its place in the run, the state before it, the
statement with its answer, and the state after it. -/
structure Event (S : Signature) (ε W : Type) where
  seq : ℕ
  pre : W
  op : S.Op
  ans : Except ε (S.Ans op)
  post : W

/-- The statements a program has executed, newest first. -/
abbrev Log (S : Signature) (ε W : Type) := List (Event S ε W)

variable {S : Signature} {ε W α β : Type}

/-- The log contains the statement `op` with the answer `ans`. -/
def Log.Saw (l : Log S ε W) (op : S.Op) (ans : Except ε (S.Ans op)) : Prop :=
  ∃ n pre post, (⟨n, pre, op, ans, post⟩ : Event S ε W) ∈ l

theorem Log.Saw.mono {l l' : Log S ε W} {op : S.Op} {ans : Except ε (S.Ans op)}
    (h : Log.Saw l op ans) (hl : l <:+ l') : Log.Saw l' op ans := by
  obtain ⟨n, pre, post, h⟩ := h
  exact ⟨n, pre, post, hl.subset h⟩

/-- The log contains the statement `op` with the answer `ans`, right after the
log `l'`. -/
def Log.Step (l l' : Log S ε W) (op : S.Op) (ans : Except ε (S.Ans op)) : Prop :=
  ∃ n pre post, (⟨n, pre, op, ans, post⟩ : Event S ε W) :: l' <:+ l

theorem Log.Step.saw {l l' : Log S ε W} {op : S.Op} {ans : Except ε (S.Ans op)}
    (h : Log.Step l l' op ans) : Log.Saw l op ans := by
  obtain ⟨n, pre, post, h⟩ := h
  exact ⟨n, pre, post, h.subset (List.mem_cons_self ..)⟩

theorem Log.Step.suffix {l l' : Log S ε W} {op : S.Op} {ans : Except ε (S.Ans op)}
    (h : Log.Step l l' op ans) : l' <:+ l := by
  obtain ⟨n, pre, post, h⟩ := h
  exact (List.suffix_cons _ _).trans h

theorem Log.Step.mono {l l' l'' : Log S ε W} {op : S.Op} {ans : Except ε (S.Ans op)}
    (h : Log.Step l l' op ans) (hl : l <:+ l'') : Log.Step l'' l' op ans := by
  obtain ⟨n, pre, post, h⟩ := h
  exact ⟨n, pre, post, h.trans hl⟩

/-- The log `l'` is `l` and, right after it, `op` with the answer `ans`. -/
def Log.Next (l l' : Log S ε W) (op : S.Op) (ans : Except ε (S.Ans op)) : Prop :=
  ∃ n pre post, l' = (⟨n, pre, op, ans, post⟩ : Event S ε W) :: l

/-- `l` contains `op` answered with `ans` by an event after those of `l₀`. -/
def Log.SawSince (l₀ l : Log S ε W) (op : S.Op) (ans : Except ε (S.Ans op)) : Prop :=
  ∃ l', l₀ <:+ l' ∧ Log.Step l l' op ans

theorem Log.SawSince.saw {l₀ l : Log S ε W} {op : S.Op} {ans : Except ε (S.Ans op)}
    (h : Log.SawSince l₀ l op ans) : Log.Saw l op ans := by
  obtain ⟨_, _, hstep⟩ := h
  exact hstep.saw

theorem Log.SawSince.suffix {l₀ l : Log S ε W} {op : S.Op} {ans : Except ε (S.Ans op)}
    (h : Log.SawSince l₀ l op ans) : l₀ <:+ l := by
  obtain ⟨_, hl, hstep⟩ := h
  exact hl.trans hstep.suffix

theorem Log.SawSince.mono {l₀ l₁ l l' : Log S ε W} {op : S.Op} {ans : Except ε (S.Ans op)}
    (h : Log.SawSince l₁ l op ans) (h₀ : l₀ <:+ l₁) (hl : l <:+ l') :
    Log.SawSince l₀ l' op ans := by
  obtain ⟨l₂, h₂, hstep⟩ := h
  exact ⟨l₂, h₀.trans h₂, hstep.mono hl⟩

namespace Program

/-- Started with log `l₀`, the program can return `r` with log `l`. -/
def Returns : Program S ε α → Log S ε W → Log S ε W → Except ε α → Prop
  | done r', l₀, l, r => l = l₀ ∧ r = r'
  | call op k, l₀, l, r =>
      ∃ n pre ans post, (k ans).Returns (⟨n, pre, op, ans, post⟩ :: l₀) l r

/-- Started with log `l₀`, the program can stand before the statement `op` with
log `l`. -/
def Reaches : Program S ε α → Log S ε W → Log S ε W → S.Op → Prop
  | done _, _, _, _ => False
  | call op' k, l₀, l, op => (op = op' ∧ l = l₀) ∨
      ∃ n pre ans post, (k ans).Reaches (⟨n, pre, op', ans, post⟩ :: l₀) l op

/-- Every statement the program reaches is one that `P` allows after the log
so far. -/
def Respects (P : Log S ε W → S.Op → Prop) (l₀ : Log S ε W) (p : Program S ε α) : Prop :=
  ∀ l op, p.Reaches l₀ l op → P l op

/-! ### Results -/

theorem returns_done {r' r : Except ε α} {l₀ l : Log S ε W} :
    (done r' : Program S ε α).Returns l₀ l r ↔ l = l₀ ∧ r = r' := Iff.rfl

theorem returns_call {op : S.Op} {k : Except ε (S.Ans op) → Program S ε α} {r : Except ε α}
    {l₀ l : Log S ε W} : (call op k).Returns l₀ l r ↔
      ∃ n pre ans post, (k ans).Returns (⟨n, pre, op, ans, post⟩ :: l₀) l r := Iff.rfl

@[simp] theorem returns_pure {a : α} {r : Except ε α} {l₀ l : Log S ε W} :
    (pure a : Program S ε α).Returns l₀ l r ↔ l = l₀ ∧ r = .ok a := Iff.rfl

@[simp] theorem returns_throw {e : ε} {r : Except ε α} {l₀ l : Log S ε W} :
    (throw e : Program S ε α).Returns l₀ l r ↔ l = l₀ ∧ r = .error e := Iff.rfl

@[simp] theorem returns_perform {op : S.Op} {r : Except ε (S.Ans op)} {l₀ l : Log S ε W} :
    (perform op : Program S ε _).Returns l₀ l r ↔
      ∃ n pre post, l = ⟨n, pre, op, r, post⟩ :: l₀ := by
  constructor
  · rintro ⟨n, pre, ans, post, rfl, rfl⟩
    exact ⟨n, pre, post, rfl⟩
  · rintro ⟨n, pre, post, rfl⟩
    exact ⟨n, pre, r, post, rfl, rfl⟩

/-- A sequence returns what its second half returns after its first, or the
error of its first half. -/
theorem returns_bind {p : Program S ε α} {f : α → Program S ε β} {r : Except ε β}
    {l₀ l : Log S ε W} : (p >>= f).Returns l₀ l r ↔
      (∃ l₁ a, p.Returns l₀ l₁ (.ok a) ∧ (f a).Returns l₁ l r) ∨
        ∃ e, p.Returns l₀ l (.error e) ∧ r = .error e := by
  change (p.bind f).Returns l₀ l r ↔ _
  induction p generalizing l₀ with
  | done r' =>
      cases r' with
      | ok a =>
          simp only [bind, returns_done, Except.ok.injEq, reduceCtorEq, and_false, false_and,
            exists_false, or_false]
          exact ⟨fun h => ⟨l₀, a, ⟨rfl, rfl⟩, h⟩,
            fun ⟨_, _, ⟨h₁, h₂⟩, h⟩ => by subst h₁ h₂; exact h⟩
      | error e =>
          simp only [bind, returns_done, reduceCtorEq, and_false, false_and, exists_false, false_or,
            Except.error.injEq]
          exact ⟨fun ⟨h₁, h₂⟩ => ⟨e, ⟨h₁, rfl⟩, h₂⟩, fun ⟨_, ⟨h₁, h₂⟩, h⟩ => ⟨h₁, h₂ ▸ h⟩⟩
  | call op k ih =>
      simp only [bind, returns_call, ih]
      constructor
      · rintro ⟨n, pre, ans, post, ⟨l₁, a, h₁, h₂⟩ | ⟨e, h₁, h₂⟩⟩
        · exact .inl ⟨l₁, a, ⟨n, pre, ans, post, h₁⟩, h₂⟩
        · exact .inr ⟨e, ⟨n, pre, ans, post, h₁⟩, h₂⟩
      · rintro (⟨l₁, a, ⟨n, pre, ans, post, h₁⟩, h₂⟩ | ⟨e, ⟨n, pre, ans, post, h₁⟩, h₂⟩)
        · exact ⟨n, pre, ans, post, .inl ⟨l₁, a, h₁, h₂⟩⟩
        · exact ⟨n, pre, ans, post, .inr ⟨e, h₁, h₂⟩⟩

/-- A sequence succeeds only through the success of both halves. -/
theorem returns_bind_ok {p : Program S ε α} {f : α → Program S ε β} {b : β} {l₀ l : Log S ε W} :
    (p >>= f).Returns l₀ l (.ok b) ↔
      ∃ l₁ a, p.Returns l₀ l₁ (.ok a) ∧ (f a).Returns l₁ l (.ok b) := by
  simp [returns_bind]

/-- `try`/`catch`: the success of the body, or what the handler makes of its
error. -/
theorem returns_tryCatch {p : Program S ε α} {h : ε → Program S ε α} {r : Except ε α}
    {l₀ l : Log S ε W} : (tryCatch p h).Returns l₀ l r ↔
      (∃ a, p.Returns l₀ l (.ok a) ∧ r = .ok a) ∨
        ∃ l₁ e, p.Returns l₀ l₁ (.error e) ∧ (h e).Returns l₁ l r := by
  change (p.catchWith h).Returns l₀ l r ↔ _
  induction p generalizing l₀ with
  | done r' =>
      cases r' with
      | ok a =>
          simp only [catchWith, returns_done, reduceCtorEq, and_false, false_and, exists_false,
            or_false, Except.ok.injEq]
          exact ⟨fun ⟨h₁, h₂⟩ => ⟨a, ⟨h₁, rfl⟩, h₂⟩, fun ⟨_, ⟨h₁, h₂⟩, h⟩ => ⟨h₁, h₂ ▸ h⟩⟩
      | error e =>
          simp only [catchWith, returns_done, reduceCtorEq, and_false, false_and, exists_false,
            false_or, Except.error.injEq]
          exact ⟨fun h => ⟨l₀, e, ⟨rfl, rfl⟩, h⟩,
            fun ⟨_, _, ⟨h₁, h₂⟩, h⟩ => by subst h₁ h₂; exact h⟩
  | call op k ih =>
      simp only [catchWith, returns_call, ih]
      constructor
      · rintro ⟨n, pre, ans, post, ⟨a, h₁, h₂⟩ | ⟨l₁, e, h₁, h₂⟩⟩
        · exact .inl ⟨a, ⟨n, pre, ans, post, h₁⟩, h₂⟩
        · exact .inr ⟨l₁, e, ⟨n, pre, ans, post, h₁⟩, h₂⟩
      · rintro (⟨a, ⟨n, pre, ans, post, h₁⟩, h₂⟩ | ⟨l₁, e, ⟨n, pre, ans, post, h₁⟩, h₂⟩)
        · exact ⟨n, pre, ans, post, .inl ⟨a, h₁, h₂⟩⟩
        · exact ⟨n, pre, ans, post, .inr ⟨l₁, e, h₁, h₂⟩⟩

@[simp] theorem returns_throwIf_ok {c : Prop} [Decidable c] {e : ε} {u : Unit} {l₀ l : Log S ε W} :
    (throwIf c e : Program S ε Unit).Returns l₀ l (.ok u) ↔ l = l₀ ∧ ¬c := by
  unfold throwIf
  split_ifs with h <;> simp [h]

@[simp] theorem returns_throwIf_error {c : Prop} [Decidable c] {e e' : ε} {l₀ l : Log S ε W} :
    (throwIf c e : Program S ε Unit).Returns l₀ l (.error e') ↔ l = l₀ ∧ c ∧ e' = e := by
  unfold throwIf
  split_ifs with h <;> simp [h]

@[simp] theorem returns_orThrow_ok {o : Option α} {e : ε} {a : α} {l₀ l : Log S ε W} :
    (orThrow o e : Program S ε α).Returns l₀ l (.ok a) ↔ l = l₀ ∧ o = some a := by
  cases o <;> simp [orThrow, eq_comm]

@[simp] theorem returns_orThrow_error {o : Option α} {e e' : ε} {l₀ l : Log S ε W} :
    (orThrow o e : Program S ε α).Returns l₀ l (.error e') ↔ l = l₀ ∧ o = none ∧ e' = e := by
  cases o <;> simp [orThrow]

@[simp] theorem returns_onlyIf_ok {c : Prop} [Decidable c] {p : Program S ε Unit} {u : Unit}
    {l₀ l : Log S ε W} : (onlyIf c p).Returns l₀ l (.ok u) ↔
      (c ∧ p.Returns l₀ l (.ok u)) ∨ (¬c ∧ l = l₀) := by
  unfold onlyIf
  split_ifs with h <;> simp [h]

@[simp] theorem returns_orDo_ok {o : Option α} {p : Program S ε α} {a : α} {l₀ l : Log S ε W} :
    (orDo o p).Returns l₀ l (.ok a) ↔
      (o = some a ∧ l = l₀) ∨ (o = none ∧ p.Returns l₀ l (.ok a)) := by
  cases o <;> simp [orDo, eq_comm, and_comm]

/-- The log only grows. -/
theorem Returns.suffix {p : Program S ε α} {l₀ l : Log S ε W} {r : Except ε α}
    (h : p.Returns l₀ l r) : l₀ <:+ l := by
  induction p generalizing l₀ with
  | done r' => exact h.1 ▸ List.suffix_refl _
  | call op k ih =>
      obtain ⟨n, pre, ans, post, h⟩ := h
      exact (List.suffix_cons _ _).trans (ih ans h)

/-- **Success of a sequence**, with what its first half adds to the final log. -/
theorem Returns.of_bind {p : Program S ε α} {f : α → Program S ε β} {b : β} {l₀ l : Log S ε W}
    (h : (p >>= f).Returns l₀ l (.ok b)) :
    ∃ l₁ a, p.Returns l₀ l₁ (.ok a) ∧ l₁ <:+ l ∧ (f a).Returns l₁ l (.ok b) := by
  obtain ⟨l₁, a, h₁, h₂⟩ := returns_bind_ok.1 h
  exact ⟨l₁, a, h₁, h₂.suffix, h₂⟩

/-- Failure of a sequence: of its first half, or of the second one. -/
theorem Returns.error_of_bind {p : Program S ε α} {f : α → Program S ε β} {e : ε}
    {l₀ l : Log S ε W} (h : (p >>= f).Returns l₀ l (.error e)) :
    p.Returns l₀ l (.error e) ∨
      ∃ l₁ a, p.Returns l₀ l₁ (.ok a) ∧ l₁ <:+ l ∧ (f a).Returns l₁ l (.error e) := by
  rcases returns_bind.1 h with ⟨l₁, a, h₁, h₂⟩ | ⟨e', h₁, he⟩
  · exact .inr ⟨l₁, a, h₁, h₂.suffix, h₂⟩
  · cases he
    exact .inl h₁

/-- A loop that comes to its end has come to the end of each of its rounds. -/
theorem Returns.of_forEach {xs : List β} {f : β → Program S ε Unit} {u : Unit} {l₀ l : Log S ε W}
    (h : (forEach xs f).Returns l₀ l (.ok u)) {x : β} (hx : x ∈ xs) :
    ∃ l₁ l₂ u', l₀ <:+ l₁ ∧ (f x).Returns l₁ l₂ (.ok u') ∧ l₂ <:+ l := by
  induction xs generalizing l₀ with
  | nil => cases hx
  | cons y ys ih =>
      obtain ⟨l₁, u₁, h₁, hs, h₂⟩ := Returns.of_bind h
      rcases List.mem_cons.1 hx with rfl | hx
      · exact ⟨l₀, l₁, u₁, List.suffix_refl _, h₁, hs⟩
      · obtain ⟨l₂, l₃, u₂, hs₂, h₃, hs₃⟩ := ih h₂ hx
        exact ⟨l₂, l₃, u₂, h₁.suffix.trans hs₂, h₃, hs₃⟩

/-- A sequence that ends in a value has the log and the failures of its first half. -/
theorem Returns.of_map {p : Program S ε α} {f : α → β} {r : Except ε β} {l₀ l : Log S ε W}
    (h : (p >>= fun a => pure (f a)).Returns l₀ l r) :
    ∃ r', p.Returns l₀ l r' ∧ ∀ e, r' = .error e → r = .error e := by
  rcases returns_bind.1 h with ⟨l₁, a, h₁, h⟩ | ⟨e, h₁, rfl⟩
  · obtain ⟨rfl, _⟩ := returns_pure.1 h
    exact ⟨_, h₁, by rintro _ ⟨⟩⟩
  · exact ⟨_, h₁, by rintro _ ⟨⟩; rfl⟩

theorem Returns.next {op : S.Op} {ans : Except ε (S.Ans op)} {l₀ l : Log S ε W}
    (h : (perform op).Returns l₀ l ans) : Log.Next l₀ l op ans := returns_perform.1 h

/-- A statement that has been answered is in the log. -/
theorem Returns.step {op : S.Op} {ans : Except ε (S.Ans op)} {l₀ l : Log S ε W}
    (h : (perform op).Returns l₀ l ans) : Log.Step l l₀ op ans := by
  obtain ⟨n, pre, post, rfl⟩ := returns_perform.1 h
  exact ⟨n, pre, post, List.suffix_refl _⟩

theorem Returns.saw {op : S.Op} {ans : Except ε (S.Ans op)} {l₀ l : Log S ε W}
    (h : (perform op).Returns l₀ l ans) : Log.Saw l op ans := h.step.saw

/-! ### Statements -/

theorem reaches_call {op' op : S.Op} {k : Except ε (S.Ans op') → Program S ε α}
    {l₀ l : Log S ε W} : (call op' k).Reaches l₀ l op ↔ (op = op' ∧ l = l₀) ∨
      ∃ n pre ans post, (k ans).Reaches (⟨n, pre, op', ans, post⟩ :: l₀) l op := Iff.rfl

@[simp] theorem reaches_pure {a : α} {l₀ l : Log S ε W} {op : S.Op} :
    ¬(pure a : Program S ε α).Reaches l₀ l op := id

@[simp] theorem reaches_throw {e : ε} {l₀ l : Log S ε W} {op : S.Op} :
    ¬(throw e : Program S ε α).Reaches l₀ l op := id

@[simp] theorem reaches_perform {op' op : S.Op} {l₀ l : Log S ε W} :
    (perform op' : Program S ε _).Reaches l₀ l op ↔ op = op' ∧ l = l₀ := by
  simp [perform, reaches_call, Reaches]

@[simp] theorem reaches_bind {p : Program S ε α} {f : α → Program S ε β} {l₀ l : Log S ε W}
    {op : S.Op} : (p >>= f).Reaches l₀ l op ↔ p.Reaches l₀ l op ∨
      ∃ l₁ a, p.Returns l₀ l₁ (.ok a) ∧ (f a).Reaches l₁ l op := by
  change (p.bind f).Reaches l₀ l op ↔ _
  induction p generalizing l₀ with
  | done r' =>
      cases r' with
      | ok a =>
          simp only [bind, Reaches, returns_done, Except.ok.injEq, false_or]
          exact ⟨fun h => ⟨l₀, a, ⟨rfl, rfl⟩, h⟩,
            fun ⟨_, _, ⟨h₁, h₂⟩, h⟩ => by subst h₁ h₂; exact h⟩
      | error e => simp [bind, Reaches, returns_done]
  | call op' k ih =>
      simp only [bind, reaches_call, returns_call, ih]
      constructor
      · rintro (h | ⟨n, pre, ans, post, h | ⟨l₁, a, h₁, h₂⟩⟩)
        · exact .inl (.inl h)
        · exact .inl (.inr ⟨n, pre, ans, post, h⟩)
        · exact .inr ⟨l₁, a, ⟨n, pre, ans, post, h₁⟩, h₂⟩
      · rintro ((h | ⟨n, pre, ans, post, h⟩) | ⟨l₁, a, ⟨n, pre, ans, post, h₁⟩, h₂⟩)
        · exact .inl h
        · exact .inr ⟨n, pre, ans, post, .inl h⟩
        · exact .inr ⟨n, pre, ans, post, .inr ⟨l₁, a, h₁, h₂⟩⟩

@[simp] theorem reaches_tryCatch {p : Program S ε α} {h : ε → Program S ε α} {l₀ l : Log S ε W}
    {op : S.Op} : (tryCatch p h).Reaches l₀ l op ↔ p.Reaches l₀ l op ∨
      ∃ l₁ e, p.Returns l₀ l₁ (.error e) ∧ (h e).Reaches l₁ l op := by
  change (p.catchWith h).Reaches l₀ l op ↔ _
  induction p generalizing l₀ with
  | done r' =>
      cases r' with
      | ok a => simp [catchWith, Reaches, returns_done]
      | error e =>
          simp only [catchWith, Reaches, returns_done, Except.error.injEq, false_or]
          exact ⟨fun h => ⟨l₀, e, ⟨rfl, rfl⟩, h⟩,
            fun ⟨_, _, ⟨h₁, h₂⟩, h⟩ => by subst h₁ h₂; exact h⟩
  | call op' k ih =>
      simp only [catchWith, reaches_call, returns_call, ih]
      constructor
      · rintro (h | ⟨n, pre, ans, post, h | ⟨l₁, e, h₁, h₂⟩⟩)
        · exact .inl (.inl h)
        · exact .inl (.inr ⟨n, pre, ans, post, h⟩)
        · exact .inr ⟨l₁, e, ⟨n, pre, ans, post, h₁⟩, h₂⟩
      · rintro ((h | ⟨n, pre, ans, post, h⟩) | ⟨l₁, e, ⟨n, pre, ans, post, h₁⟩, h₂⟩)
        · exact .inl h
        · exact .inr ⟨n, pre, ans, post, .inl h⟩
        · exact .inr ⟨n, pre, ans, post, .inr ⟨l₁, e, h₁, h₂⟩⟩

@[simp] theorem reaches_throwIf {c : Prop} [Decidable c] {e : ε} {l₀ l : Log S ε W} {op : S.Op} :
    ¬(throwIf c e : Program S ε Unit).Reaches l₀ l op := by
  unfold throwIf
  split_ifs <;> simp

@[simp] theorem reaches_orThrow {o : Option α} {e : ε} {l₀ l : Log S ε W} {op : S.Op} :
    ¬(orThrow o e : Program S ε α).Reaches l₀ l op := by
  cases o <;> simp [orThrow]

theorem Reaches.suffix {p : Program S ε α} {l₀ l : Log S ε W} {op : S.Op}
    (h : p.Reaches l₀ l op) : l₀ <:+ l := by
  induction p generalizing l₀ with
  | done r' => exact h.elim
  | call op' k ih =>
      rcases h with ⟨_, rfl⟩ | ⟨n, pre, ans, post, h⟩
      · exact List.suffix_refl _
      · exact (List.suffix_cons _ _).trans (ih ans h)

/-! ### Results -/

/-- Every value the program can return satisfies `Q`. -/
def Ensures (W : Type) (p : Program S ε α) (Q : α → Prop) : Prop :=
  ∀ (l₀ l : Log S ε W) a, p.Returns l₀ l (.ok a) → Q a

theorem Returns.ensured {p : Program S ε α} {l₀ l : Log S ε W} {a : α} {Q : α → Prop}
    (h : p.Returns l₀ l (.ok a)) (hQ : Ensures W p Q) : Q a := hQ l₀ l a h

theorem Ensures.pure {a : α} {Q : α → Prop} (h : Q a) :
    Ensures W (Pure.pure a : Program S ε α) Q := by
  intro l₀ l b hb
  have heq : b = a := Except.ok.inj (returns_pure.1 hb).2
  exact heq ▸ h

/-- The last part decides. -/
theorem Ensures.bind {p : Program S ε α} {f : α → Program S ε β} {Q : β → Prop}
    (h : ∀ a, Ensures W (f a) Q) : Ensures W (p >>= f) Q := by
  intro l₀ l b hb
  obtain ⟨l₁, a, _, _, hb⟩ := hb.of_bind
  exact h a l₁ l b hb

/-! ### Allowed statements -/

section Respects

variable {P : Log S ε W → S.Op → Prop} {l₀ : Log S ε W}

@[simp] theorem respects_pure {a : α} : Respects P l₀ (pure a : Program S ε α) :=
  fun _ _ h => h.elim

@[simp] theorem respects_throw {e : ε} : Respects P l₀ (throw e : Program S ε α) :=
  fun _ _ h => h.elim

@[simp] theorem respects_perform {op : S.Op} :
    Respects P l₀ (perform op : Program S ε _) ↔ P l₀ op := by
  simp [Respects]

@[simp] theorem respects_bind {p : Program S ε α} {f : α → Program S ε β} :
    Respects P l₀ (p >>= f) ↔
      Respects P l₀ p ∧ ∀ l a, p.Returns l₀ l (.ok a) → Respects P l (f a) := by
  simp only [Respects, reaches_bind]
  constructor
  · exact fun h => ⟨fun l op h₁ => h l op (.inl h₁), fun l a h₁ l' op h₂ =>
      h l' op (.inr ⟨l, a, h₁, h₂⟩)⟩
  · rintro ⟨h₁, h₂⟩ l op (h | ⟨l₁, a, h, h'⟩)
    · exact h₁ l op h
    · exact h₂ l₁ a h l op h'

@[simp] theorem respects_tryCatch {p : Program S ε α} {h : ε → Program S ε α} :
    Respects P l₀ (tryCatch p h) ↔
      Respects P l₀ p ∧ ∀ l e, p.Returns l₀ l (.error e) → Respects P l (h e) := by
  simp only [Respects, reaches_tryCatch]
  constructor
  · exact fun h => ⟨fun l op h₁ => h l op (.inl h₁), fun l a h₁ l' op h₂ =>
      h l' op (.inr ⟨l, a, h₁, h₂⟩)⟩
  · rintro ⟨h₁, h₂⟩ l op (h | ⟨l₁, a, h, h'⟩)
    · exact h₁ l op h
    · exact h₂ l₁ a h l op h'

@[simp] theorem respects_throwIf {c : Prop} [Decidable c] {e : ε} :
    Respects P l₀ (throwIf c e : Program S ε Unit) :=
  fun _ _ h => (reaches_throwIf h).elim

@[simp] theorem respects_orThrow {o : Option α} {e : ε} :
    Respects P l₀ (orThrow o e : Program S ε α) :=
  fun _ _ h => (reaches_orThrow h).elim

@[simp] theorem respects_onlyIf {c : Prop} [Decidable c] {p : Program S ε Unit} :
    Respects P l₀ (onlyIf c p) ↔ (c → Respects P l₀ p) := by
  unfold onlyIf
  split_ifs with h <;> simp [h]

@[simp] theorem respects_ite {c : Prop} [Decidable c] {p q : Program S ε α} :
    Respects P l₀ (if c then p else q) ↔ (c → Respects P l₀ p) ∧ (¬c → Respects P l₀ q) := by
  split_ifs with h <;> simp [h]

@[simp] theorem respects_orDo {o : Option α} {p : Program S ε α} :
    Respects P l₀ (orDo o p) ↔ (o = none → Respects P l₀ p) := by
  cases o <;> simp [orDo]

@[simp] theorem respects_whenSome {o : Option α} {f : α → Program S ε Unit} :
    Respects P l₀ (whenSome o f) ↔ ∀ a, o = some a → Respects P l₀ (f a) := by
  cases o <;> simp [whenSome]

/-- A loop respects `P` when each of its rounds does. -/
theorem Respects.forEach {xs : List β} {f : β → Program S ε Unit}
    (h : ∀ x ∈ xs, ∀ l, l₀ <:+ l → Respects P l (f x)) : Respects P l₀ (Program.forEach xs f) := by
  induction xs generalizing l₀ with
  | nil => exact respects_pure
  | cons x xs ih =>
      refine respects_bind.2 ⟨h x (List.mem_cons_self ..) l₀ (List.suffix_refl _), fun l u hu => ?_⟩
      exact ih fun y hy l' hl' => h y (List.mem_cons_of_mem _ hy) l' (hu.suffix.trans hl')

/-- A sequence respects `P` when both halves do, the second one after what the
first one can return. -/
theorem Respects.bind {p : Program S ε α} {f : α → Program S ε β} (hp : Respects P l₀ p)
    (hf : ∀ l a, p.Returns l₀ l (.ok a) → Respects P l (f a)) : Respects P l₀ (p >>= f) :=
  respects_bind.2 ⟨hp, hf⟩

theorem Respects.mono {Q : Log S ε W → S.Op → Prop} {p : Program S ε α} (h : Respects P l₀ p)
    (hPQ : ∀ l op, l₀ <:+ l → P l op → Q l op) : Respects Q l₀ p :=
  fun l op hr => hPQ l op hr.suffix (h l op hr)

/-- **What every allowed statement keeps** of a log is kept until the program returns. -/
theorem Respects.keeps {O : Log S ε W → Prop} {p : Program S ε α} {l : Log S ε W}
    {r : Except ε α} (hp : Respects P l₀ p)
    (hO : ∀ l (e : Event S ε W), P l e.op → O l → O (e :: l)) (h : p.Returns l₀ l r) (h₀ : O l₀) :
    O l := by
  induction p generalizing l₀ with
  | done r' => exact h.1 ▸ h₀
  | call op k ih =>
      obtain ⟨n, pre, ans, post, h⟩ := h
      have hop : P l₀ op := hp l₀ op (.inl ⟨rfl, rfl⟩)
      refine ih ans (fun l' op' hr => hp l' op' (.inr ⟨n, pre, ans, post, hr⟩)) h ?_
      exact hO l₀ ⟨n, pre, op, ans, post⟩ hop h₀

end Respects

end Program

end Interleaving
end IdentityPlatform
