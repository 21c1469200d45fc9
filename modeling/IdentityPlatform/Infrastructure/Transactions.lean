/-
# Transactions of the services

`Database.withTransaction` of `pool.ts` and the two statements that are sent inside of it
in more than one step: a `DELETE … WHERE` deletes row by row, and so does an `INSERT` of
several rows insert.

What is shown of a program in a transaction is shown of its body: the commands it sends
carry the number of its connection (`withTransaction_owned`), and where it commits, or
returns, its body has come to its end (`commit_reached`, `committed_of_returns`).
-/

import IdentityPlatform.Common.Errors
import IdentityPlatform.Interleaving.Transactions

namespace IdentityPlatform

open Interleaving Program Relational

/-- A program that sends commands to a versioned table. -/
abbrev TxProg (α β : Type) := Program (txCommands α) Err β

namespace Database

variable {α β : Type}

/-- `client.query`. -/
abbrev command (op : TxCommand α) : TxProg α op.Ans := Program.perform (S := txCommands α) op

/-- The errors of the server on a table with the given constraints. -/
def constraints (clash : α → α → Bool) (refuses : α → Option Err) : Constraints α Err where
  clash := clash
  refuses := refuses
  duplicate := .db "23505"
  noTransaction := .db "25P01"
  connectionLost := .db "08006"

/-- `DELETE FROM … WHERE p`. -/
def deleteWhere (p : α → Bool) (tx : ℕ) : TxProg α Unit := do
  let found ← command (.scan tx p)
  forEach found fun n => command (.delete tx n)

/-- `INSERT INTO …` of the given rows. -/
def insertRows (rows : List α) (tx : ℕ) : TxProg α Unit :=
  forEach rows fun row => command (.insert tx row)

/-- `Database.withTransaction`. -/
def withTransaction (fn : ℕ → TxProg α β) : TxProg α β := do
  let client ← command .connect
  tryCatch
    (do
      command (.begin client)
      let result ← fn client
      command (.commit client)
      pure result)
    fun err => do
      tryCatch (command (.rollback client)) fun _ => pure ()
      throw err

section Lemmas

variable {W : Type} {fn : ℕ → TxProg α β} {l₀ l : Log (txCommands α) Err W} {t : ℕ}
  {p : α → Bool} {rows : List α}

/-- The commands a body sends: those of its own transaction, `COMMIT` apart. -/
def InBody (t : ℕ) (op : TxCommand α) : Prop := op.tx = some t ∧ ∀ t', op ≠ .commit t'

theorem deleteWhere_inBody :
    Respects (fun _ op => InBody t op) l₀ (deleteWhere (α := α) p t) := by
  refine .bind (respects_perform.2 ⟨rfl, by simp⟩) fun l found _ => .forEach fun n _ l' _ => ?_
  exact respects_perform.2 ⟨rfl, by simp⟩

theorem insertRows_inBody : Respects (fun _ op => InBody t op) l₀ (insertRows rows t) :=
  .forEach fun _ _ _ _ => respects_perform.2 ⟨rfl, by simp⟩

/-- A program that can be the body of a transaction. -/
def IsBody (W : Type) (fn : ℕ → TxProg α β) : Prop :=
  ∀ (l : Log (txCommands α) Err W) t, Respects (fun _ op => InBody t op) l (fn t)

/-- What a body keeps in mind of the start of its transaction. -/
structure Opened (l₀ l : Log (txCommands α) Err W) (t : ℕ) : Prop where
  suffix : l₀ <:+ l
  connect : Log.Saw (S := txCommands α) l .connect (.ok t)

/-- **What a transaction sends**: a connection, the commands of its body, and its ends. -/
theorem withTransaction_respects {Q : Log (txCommands α) Err W → TxCommand α → Prop}
    (hconnect : Q l₀ .connect)
    (hends : ∀ l t, Opened l₀ l t → Q l (.begin t) ∧ Q l (.commit t) ∧ Q l (.rollback t))
    (hbody : ∀ l t, Opened l₀ l t → Respects Q l (fn t)) : Respects Q l₀ (withTransaction fn) := by
  refine .bind (respects_perform.2 hconnect) fun l t hl => ?_
  have hopened : Opened l₀ l t := ⟨hl.suffix, hl.saw⟩
  have hlater : ∀ {l'}, l <:+ l' → Opened l₀ l' t := fun hs =>
    ⟨hl.suffix.trans hs, hopened.connect.mono hs⟩
  refine respects_tryCatch.2 ⟨?_, fun l₁ e he => ?_⟩
  · refine .bind (respects_perform.2 (hends l t hopened).1) fun l₁ _ h₁ => ?_
    refine .bind (hbody l₁ t (hlater h₁.suffix)) fun l₂ r h₂ => ?_
    have hopened₂ := hlater (h₁.suffix.trans h₂.suffix)
    exact .bind (respects_perform.2 (hends l₂ t hopened₂).2.1) fun _ _ _ => respects_pure
  · refine .bind (respects_tryCatch.2 ⟨?_, fun _ _ _ => respects_pure⟩) fun _ _ _ => respects_throw
    exact respects_perform.2 (hends l₁ t (hlater he.suffix)).2.2

/-- **A transaction uses its own connection.** -/
theorem withTransaction_owned (hbody : IsBody W fn) :
    Respects Owned l₀ (withTransaction fn) := by
  refine withTransaction_respects (fun _ h => by cases h) (fun l t ho => ?_) fun l t ho => ?_
  · have hown : ∀ op : TxCommand α, op.tx = some t → Owned l op := by
      intro op hop t' ht'
      obtain rfl := Option.some.inj (hop.symm.trans ht')
      exact ho.connect
    exact ⟨hown _ rfl, hown _ rfl, hown _ rfl⟩
  · refine (hbody l t).mono fun l' op hs hop t' ht' => ?_
    obtain rfl := Option.some.inj (hop.1.symm.trans ht')
    exact ho.connect.mono hs

/-- The log of a transaction whose body has come to its end. -/
structure BodyDone (fn : ℕ → TxProg α β) (l₀ l : Log (txCommands α) Err W) (t : ℕ) (r : β) :
    Prop where
  body : ∃ l₁, (command .connect).Returns l₀ l₁ (.ok t) ∧
    ∃ l₂, (command (α := α) (.begin t)).Returns l₁ l₂ (.ok ()) ∧ (fn t).Returns l₂ l (.ok r)

/-- **A transaction commits at the end of its body.** -/
theorem commit_reached (hbody : IsBody W fn)
    (h : (withTransaction fn).Reaches l₀ l (.commit t)) : ∃ r, BodyDone fn l₀ l t r := by
  rcases reaches_bind.1 h with h | ⟨l₁, t', h₁, h⟩
  · cases (reaches_perform.1 h).1
  rcases reaches_tryCatch.1 h with h | ⟨_, _, _, h⟩
  · rcases reaches_bind.1 h with h | ⟨l₂, _, h₂, h⟩
    · cases (reaches_perform.1 h).1
    rcases reaches_bind.1 h with h | ⟨l₃, r, h₃, h⟩
    · exact absurd rfl ((hbody _ _ _ _ h).2 t)
    rcases reaches_bind.1 h with h | ⟨_, _, _, h⟩
    · obtain ⟨heq, rfl⟩ := reaches_perform.1 h
      cases heq
      exact ⟨r, l₁, h₁, l₂, h₂, h₃⟩
    · exact absurd h reaches_pure
  · rcases reaches_bind.1 h with h | ⟨_, _, _, h⟩
    · rcases reaches_tryCatch.1 h with h | ⟨_, _, _, h⟩
      · cases (reaches_perform.1 h).1
      · exact absurd h reaches_pure
    · exact absurd h reaches_throw

/-- **A transaction that returns has committed**, and nothing comes after that. -/
theorem committed_of_returns {r : β} (h : (withTransaction fn).Returns l₀ l (.ok r)) :
    ∃ t l₁, BodyDone fn l₀ l₁ t r ∧ (command (α := α) (.commit t)).Returns l₁ l (.ok ()) := by
  obtain ⟨l₁, t, h₁, _, h⟩ := Returns.of_bind h
  rcases returns_tryCatch.1 h with ⟨r', h, hr⟩ | ⟨_, _, _, h⟩
  · cases hr
    obtain ⟨l₂, _, h₂, _, h⟩ := Returns.of_bind h
    obtain ⟨l₃, r', h₃, _, h⟩ := Returns.of_bind h
    obtain ⟨l₄, _, h₄, _, h⟩ := Returns.of_bind h
    obtain ⟨rfl, heq⟩ := returns_pure.1 h
    cases heq
    exact ⟨t, l₃, ⟨l₁, h₁, l₂, h₂, h₃⟩, h₄⟩
  · obtain ⟨_, _, _, _, h⟩ := Returns.of_bind h
    cases (returns_throw.1 h).2

/-- An answered `COMMIT`. -/
def IsCommit (e : Event (txCommands α) Err W) : Prop :=
  ∃ n pre t post, e = ⟨n, pre, .commit t, .ok (), post⟩

/-- Whether a command is an answered `COMMIT`. -/
def isCommit : Event (txCommands α) Err W → Bool
  | ⟨_, _, .commit _, .ok _, _⟩ => true
  | _ => false

theorem isCommit_iff {e : Event (txCommands α) Err W} : isCommit e = true ↔ IsCommit e := by
  constructor
  · intro h
    obtain ⟨n, pre, op, ans, post⟩ := e
    cases op with
    | commit t =>
        cases ans with
        | ok u => exact ⟨n, pre, t, post, rfl⟩
        | error err => cases h
    | _ => cases h
  · rintro ⟨_, _, _, _, rfl⟩
    rfl

instance (e : Event (txCommands α) Err W) : Decidable (IsCommit e) :=
  decidable_of_iff (isCommit e = true) isCommit_iff

/-- The log has no commits that `l₀` does not have. -/
def SameCommits (l₀ l : Log (txCommands α) Err W) : Prop := ∀ e ∈ l, IsCommit e → e ∈ l₀

theorem SameCommits.cons (h : SameCommits l₀ l) {e : Event (txCommands α) Err W}
    (he : ¬IsCommit e) : SameCommits l₀ (e :: l) := by
  intro e' hmem hcommit
  rcases List.mem_cons.1 hmem with rfl | hmem
  · exact absurd hcommit he
  · exact h e' hmem hcommit

/-- One command, unless it is a `COMMIT` that succeeds. -/
theorem SameCommits.command (h : SameCommits l₀ l) {op : TxCommand α} {ans : Except Err op.Ans}
    {l' : Log (txCommands α) Err W} (hr : (command op).Returns l l' ans)
    (hnot : (∀ t, op ≠ .commit t) ∨ ∃ e, ans = .error e) : SameCommits l₀ l' := by
  obtain ⟨n, pre, post, rfl⟩ := returns_perform.1 hr
  refine h.cons ?_
  rintro ⟨_, _, t, _, heq⟩
  rcases hnot with hnot | ⟨e, rfl⟩
  · exact hnot t (congrArg Event.op heq)
  · cases heq

/-- **A transaction that fails has not committed.** -/
theorem sameCommits_of_error (hbody : IsBody W fn) {err : Err}
    (h : (withTransaction fn).Returns l₀ l (.error err)) : SameCommits l₀ l := by
  have h₀ : SameCommits l₀ l₀ := fun _ hmem _ => hmem
  rcases h.error_of_bind with h | ⟨l₁, t, h₁, _, h⟩
  · exact h₀.command h (.inl (by simp))
  have hopened := h₀.command h₁ (.inl (by simp))
  rcases returns_tryCatch.1 h with ⟨_, _, heq⟩ | ⟨l₂, e, h, hend⟩
  · cases heq
  have hfailed : SameCommits l₀ l₂ := by
    rcases h.error_of_bind with h | ⟨l₃, _, h₃, _, h⟩
    · exact hopened.command h (.inl (by simp))
    have hbegun := hopened.command h₃ (.inl (by simp))
    have hkeep : ∀ {l₄ r}, (fn t).Returns l₃ l₄ r → SameCommits l₀ l₄ := fun hfn =>
      (hbody l₃ t).keeps
        (fun l e hop hl => hl.cons (by rintro ⟨_, _, t', _, rfl⟩; exact hop.2 t' rfl))
        hfn hbegun
    rcases h.error_of_bind with h | ⟨l₄, r, h₄, _, h⟩
    · exact hkeep h
    rcases h.error_of_bind with h | ⟨_, _, _, _, h⟩
    · exact (hkeep h₄).command h (.inr ⟨_, rfl⟩)
    · cases (returns_pure.1 h).2
  rcases returns_bind.1 hend with ⟨l₃, _, h₃, h⟩ | ⟨_, h₃, _⟩
  · obtain ⟨rfl, _⟩ := returns_throw.1 h
    rcases returns_tryCatch.1 h₃ with ⟨_, h, _⟩ | ⟨_, _, h, h₄⟩
    · exact hfailed.command h (.inl (by simp))
    · obtain ⟨rfl, _⟩ := returns_pure.1 h₄
      exact hfailed.command h (.inl (by simp))
  · rcases returns_tryCatch.1 h₃ with ⟨_, _, heq⟩ | ⟨_, _, _, h₄⟩
    · cases heq
    · cases (returns_pure.1 h₄).2

end Lemmas

end Database
end IdentityPlatform
