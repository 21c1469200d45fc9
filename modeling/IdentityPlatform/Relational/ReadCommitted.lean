/-
# Transactions at READ COMMITTED

A table that several transactions write at once is the list of the versions of its rows.
A version names the transaction that has inserted it and the last one that has deleted it;
whether it counts is a matter of how these have ended.  A statement sees what is committed
when it starts and what its own transaction has done.

`DELETE … WHERE` is two things: it collects the versions it sees (`scan`), and it deletes
one after the other (`delete`), waiting where another transaction in progress has deleted a
version first and skipping it when that one commits.  `INSERT` waits for a transaction in
progress that has inserted or deleted a row with its key.  A command that waits does not
happen yet: its effect is `none`.  Transactions that wait for each other wait until the
server aborts one of them, which it may do at any time (`abort`).

The relation `Later` is what any passage of time keeps: transactions do not return from
their ends, and versions stay, deleted by whom they are deleted unless that is undone.
-/

import Mathlib.Data.List.Nodup
import Mathlib.Order.Lattice

namespace IdentityPlatform
namespace Relational

/-- How far a transaction has come. -/
inductive TxStatus
  | idle
  | active
  | committed
  | aborted
  deriving DecidableEq, Repr

/-- A version of a row. -/
structure Version (α : Type) where
  row : α
  insertedBy : ℕ
  deletedBy : Option ℕ
  deriving DecidableEq, Repr

/-- A table with the transactions on it, by their numbers. -/
structure Versioned (α : Type) where
  versions : List (Version α)
  txs : List TxStatus
  deriving DecidableEq, Repr

/-- What the constraints of a table say: which rows have the same key, and which rows it
refuses on their own; and the errors of the server. -/
structure Constraints (α ε : Type) where
  clash : α → α → Bool
  refuses : α → Option ε
  duplicate : ε
  noTransaction : ε
  connectionLost : ε

/-- The commands of a client.  Those with a number belong to the transaction of that number,
`select` and `ensure` are transactions of their own. -/
inductive TxCommand (α : Type)
  | connect
  | begin (t : ℕ)
  | commit (t : ℕ)
  | rollback (t : ℕ)
  | select (p : α → Bool)
  | ensure (row : α)
  | scan (t : ℕ) (p : α → Bool)
  | delete (t n : ℕ)
  | insert (t : ℕ) (row : α)

/-- What a command answers: a connection has a transaction number, a scan finds the numbers
of versions. -/
abbrev TxCommand.Ans {α : Type} : TxCommand α → Type
  | connect => ℕ
  | select _ => List α
  | scan .. => List ℕ
  | _ => Unit

/-- The transaction a command belongs to. -/
def TxCommand.tx {α : Type} : TxCommand α → Option ℕ
  | begin t | commit t | rollback t | scan t _ | delete t _ | insert t _ => some t
  | connect | select _ | ensure _ => none

variable {α ε : Type}

namespace Versioned

/-- A table with the given rows, committed by transaction `0`. -/
def ofRows (rows : List α) : Versioned α where
  versions := rows.map fun row => ⟨row, 0, none⟩
  txs := [.committed]

/-- A table that is loaded with rows as `P` says. -/
def Loaded (P : List α → Prop) (db : Versioned α) : Prop := ∃ rows, P rows ∧ db = ofRows rows

/-- A number that has not been given to a connection yet is that of no transaction. -/
def status (db : Versioned α) (t : ℕ) : TxStatus := db.txs[t]?.getD .idle

/-- Transaction `t` has come to `s`. -/
def mark (db : Versioned α) (t : ℕ) (s : TxStatus) : Versioned α :=
  { db with txs := db.txs.set t s }

/-- The version counts for everybody. -/
def Stands (db : Versioned α) (v : Version α) : Prop :=
  db.status v.insertedBy = .committed ∧ ∀ d ∈ v.deletedBy, db.status d ≠ .committed

instance (db : Versioned α) (v : Version α) : Decidable (db.Stands v) :=
  inferInstanceAs (Decidable (_ ∧ _))

/-- A statement of transaction `t` sees the version. -/
def SeenBy (db : Versioned α) (t : ℕ) (v : Version α) : Prop :=
  (v.insertedBy = t ∨ db.status v.insertedBy = .committed) ∧
    ∀ d ∈ v.deletedBy, d ≠ t ∧ db.status d ≠ .committed

instance (db : Versioned α) (t : ℕ) (v : Version α) : Decidable (db.SeenBy t v) :=
  inferInstanceAs (Decidable (_ ∧ _))

/-- Transaction `d` is another one than `t` and has not come to its end. -/
def Unsettled (db : Versioned α) (t d : ℕ) : Prop :=
  d ≠ t ∧ db.status d ≠ .committed ∧ db.status d ≠ .aborted

instance (db : Versioned α) (t d : ℕ) : Decidable (db.Unsettled t d) :=
  inferInstanceAs (Decidable (_ ∧ _ ∧ _))

/-- Another transaction has deleted the version and has not come to its end. -/
def Contended (db : Versioned α) (t : ℕ) (v : Version α) : Prop :=
  ∃ d ∈ v.deletedBy, db.Unsettled t d

instance (db : Versioned α) (t : ℕ) (v : Version α) : Decidable (db.Contended t v) :=
  inferInstanceAs (Decidable (∃ d ∈ v.deletedBy, db.Unsettled t d))

/-- The rows that stand. -/
def rows (db : Versioned α) : List α :=
  (db.versions.filter fun v => db.Stands v).map Version.row

/-- The numbers of the versions transaction `t` sees whose rows satisfy `p`. -/
def find (db : Versioned α) (t : ℕ) (p : α → Bool) : List ℕ :=
  (List.range db.versions.length).filter fun n =>
    ∃ v ∈ db.versions[n]?, db.SeenBy t v ∧ p v.row

/-- The version with number `n` is deleted by `t`. -/
def remove (db : Versioned α) (t n : ℕ) (v : Version α) : Versioned α :=
  { db with versions := db.versions.set n { v with deletedBy := some t } }

/-- A new version, inserted by `t`. -/
def add (db : Versioned α) (t : ℕ) (row : α) : Versioned α :=
  { db with versions := db.versions ++ [⟨row, t, none⟩] }

/-- `DELETE` of one version its statement has found. -/
def delete (db : Versioned α) (t n : ℕ) : Option (Versioned α) :=
  match db.versions[n]? with
  | none => some db
  | some v =>
      if db.Contended t v then none
      else if db.SeenBy t v then some (db.remove t n v) else some db

/-- A version with the key of `row` that is there for `t`. -/
def Duplicate (K : Constraints α ε) (db : Versioned α) (t : ℕ) (row : α) : Prop :=
  ∃ v ∈ db.versions, K.clash row v.row ∧ db.SeenBy t v ∧ ¬db.Contended t v

instance (K : Constraints α ε) (db : Versioned α) (t : ℕ) (row : α) :
    Decidable (db.Duplicate K t row) :=
  inferInstanceAs (Decidable (∃ v ∈ db.versions, _))

/-- A version with the key of `row` of which it is open whether it is there. -/
def Awaited (K : Constraints α ε) (db : Versioned α) (t : ℕ) (row : α) : Prop :=
  ∃ v ∈ db.versions, K.clash row v.row ∧
    (db.Unsettled t v.insertedBy ∨ (db.SeenBy t v ∧ db.Contended t v))

instance (K : Constraints α ε) (db : Versioned α) (t : ℕ) (row : α) :
    Decidable (db.Awaited K t row) :=
  inferInstanceAs (Decidable (∃ v ∈ db.versions, _))

/-- `INSERT` of one row. -/
def insert (K : Constraints α ε) (db : Versioned α) (t : ℕ) (row : α) :
    Option (Except ε Unit × Versioned α) :=
  match K.refuses row with
  | some e => some (.error e, db)
  | none =>
      if db.Duplicate K t row then some (.error K.duplicate, db)
      else if db.Awaited K t row then none
      else some (.ok (), db.add t row)

/-- The server ends a transaction in progress. -/
def abort (db : Versioned α) (t : ℕ) : Option (Versioned α) :=
  if db.status t = .active then some (db.mark t .aborted) else none

/-- The answer to a command and the table after it, `none` where the command waits. -/
def effect [DecidableEq α] (K : Constraints α ε) (db : Versioned α) :
    (op : TxCommand α) → Option (Except ε op.Ans × Versioned α)
  | .connect => some (.ok db.txs.length, { db with txs := db.txs ++ [.idle] })
  | .begin t =>
      if t < db.txs.length ∧ db.status t = .idle then some (.ok (), db.mark t .active)
      else some (.error K.noTransaction, db)
  | .commit t =>
      if db.status t = .active then some (.ok (), db.mark t .committed)
      else some (.error K.noTransaction, db)
  | .rollback t =>
      if db.status t = .committed then some (.ok (), db)
      else some (.ok (), db.mark t .aborted)
  | .select p => some (.ok (db.rows.filter p), db)
  | .ensure row =>
      if row ∈ db.rows then some (.ok (), db)
      else some (.ok (), { db.add db.txs.length row with txs := db.txs ++ [.committed] })
  | .scan t p =>
      if db.status t = .active then some (.ok (db.find t p), db)
      else some (.error K.noTransaction, db)
  | .delete t n =>
      if db.status t = .active then (db.delete t n).map fun db => (.ok (), db)
      else some (.error K.noTransaction, db)
  | .insert t row =>
      if db.status t = .active then db.insert K t row
      else some (.error K.noTransaction, db)

/-! ### Statuses -/

section Statuses

variable {db : Versioned α} {t d n : ℕ} {s : TxStatus} {v : Version α} {row : α}

/-- A transaction that has come anywhere has a number. -/
theorem lt_of_status (h : db.status t ≠ .idle) : t < db.txs.length := by
  by_contra hlt
  exact h (by simp [status, List.getElem?_eq_none (Nat.le_of_not_lt hlt)])

theorem status_mark_self (h : t < db.txs.length) : (db.mark t s).status t = s := by
  simp [mark, status, h]

theorem status_mark_ne (h : d ≠ t) : (db.mark t s).status d = db.status d := by
  simp [mark, status, List.getElem?_set_ne (Ne.symm h)]

/-- What `mark` can make of a status. -/
theorem status_mark_cases (db : Versioned α) (t d : ℕ) (s : TxStatus) :
    (db.mark t s).status d = db.status d ∨
    (d = t ∧ t < db.txs.length ∧ (db.mark t s).status d = s) := by
  by_cases hd : d = t
  · subst hd
    by_cases ht : d < db.txs.length
    · exact .inr ⟨rfl, ht, status_mark_self ht⟩
    · refine .inl ?_
      rw [mark, List.set_eq_of_length_le (Nat.le_of_not_lt ht)]
  · exact .inl (status_mark_ne hd)

/-- A new transaction changes no status but its own. -/
theorem status_append (h : t < db.txs.length) :
    ({ db with txs := db.txs ++ [s] } : Versioned α).status t = db.status t := by
  simp [status, List.getElem?_append_left h]

/-- A new connection changes no status. -/
theorem status_connect :
    ({ db with txs := db.txs ++ [.idle] } : Versioned α).status t = db.status t := by
  rcases Nat.lt_or_ge t db.txs.length with h | h
  · exact status_append h
  · have hnone : db.status t = .idle := by
      by_contra hne
      exact Nat.not_lt.2 h (lt_of_status hne)
    rw [hnone]
    rcases Nat.eq_or_lt_of_le h with rfl | hlt
    · simp [status]
    · rw [status, List.getElem?_eq_none (by simp only [List.length_append]; exact hlt)]
      rfl

@[simp] theorem status_remove : (db.remove t n v).status d = db.status d := rfl

@[simp] theorem status_add : (db.add t row).status d = db.status d := rfl

/-- Who stands is a matter of who has committed. -/
theorem stands_congr {db' : Versioned α}
    (h : ∀ d, db'.status d = .committed ↔ db.status d = .committed) :
    db'.Stands v ↔ db.Stands v := by
  simp only [Stands, ne_eq, h]

theorem mem_rows : row ∈ db.rows ↔
    ∃ (n : ℕ) (v : Version α), db.versions[n]? = some v ∧ db.Stands v ∧ v.row = row := by
  simp only [rows, List.mem_map, List.mem_filter, decide_eq_true_eq]
  constructor
  · rintro ⟨v, ⟨hmem, hv⟩, hrow⟩
    obtain ⟨n, hn⟩ := List.mem_iff_getElem?.1 hmem
    exact ⟨n, v, hn, hv, hrow⟩
  · rintro ⟨n, v, hn, hv, hrow⟩
    exact ⟨v, ⟨List.mem_of_getElem? hn, hv⟩, hrow⟩

theorem mem_find {p : α → Bool} : n ∈ db.find t p ↔
    ∃ v, db.versions[n]? = some v ∧ db.SeenBy t v ∧ p v.row = true := by
  simp only [find, List.mem_filter, List.mem_range, decide_eq_true_eq, Option.mem_def]
  constructor
  · rintro ⟨_, v, hv⟩
    exact ⟨v, hv⟩
  · rintro ⟨v, hn, hv⟩
    exact ⟨(List.getElem?_eq_some_iff.1 hn).1, v, hn, hv⟩

end Statuses

/-! ### What a command does -/

/-- What a command can do to the table. -/
inductive Moves (K : Constraints α ε) (db : Versioned α) : TxCommand α → Versioned α → Prop
  | same {op} : Moves K db op db
  | connect : Moves K db .connect { db with txs := db.txs ++ [.idle] }
  | begin {t} (ht : t < db.txs.length) (h : db.status t = .idle) :
      Moves K db (.begin t) (db.mark t .active)
  | commit {t} (h : db.status t = .active) : Moves K db (.commit t) (db.mark t .committed)
  | rollback {t} (h : db.status t ≠ .committed) : Moves K db (.rollback t) (db.mark t .aborted)
  | ensure {row} (h : row ∉ db.rows) : Moves K db (.ensure row)
      { db.add db.txs.length row with txs := db.txs ++ [.committed] }
  | delete {t n v} (ht : db.status t = .active) (hn : db.versions[n]? = some v)
      (hfree : ¬db.Contended t v) (hseen : db.SeenBy t v) :
      Moves K db (.delete t n) (db.remove t n v)
  | insert {t row} (ht : db.status t = .active) (hdup : ¬db.Duplicate K t row)
      (hfree : ¬db.Awaited K t row) : Moves K db (.insert t row) (db.add t row)

section Commands

variable {K : Constraints α ε} {db post : Versioned α} {t n : ℕ} {row : α} {p : α → Bool}

/-- `INSERT` adds the row or fails. -/
theorem insert_cases {ans : Except ε Unit} (h : db.insert K t row = some (ans, post)) :
    (post = db ∧ ∃ e, ans = .error e) ∨ (ans = .ok () ∧ post = db.add t row ∧
      K.refuses row = none ∧ ¬db.Duplicate K t row ∧ ¬db.Awaited K t row) := by
  unfold insert at h
  split at h
  · obtain ⟨rfl, rfl⟩ := Prod.mk.inj (Option.some.inj h)
    exact .inl ⟨rfl, _, rfl⟩
  · rename_i hrefuses
    split_ifs at h with hdup hfree
    · obtain ⟨rfl, rfl⟩ := Prod.mk.inj (Option.some.inj h)
      exact .inl ⟨rfl, _, rfl⟩
    · obtain ⟨rfl, rfl⟩ := Prod.mk.inj (Option.some.inj h)
      exact .inr ⟨rfl, rfl, hrefuses, hdup, hfree⟩

/-- `DELETE` of a version deletes it where it is seen. -/
theorem delete_cases (h : db.delete t n = some post) :
    (post = db ∧ ∀ v, db.versions[n]? = some v → ¬db.SeenBy t v) ∨
      ∃ v, db.versions[n]? = some v ∧ ¬db.Contended t v ∧ db.SeenBy t v ∧
        post = db.remove t n v := by
  unfold delete at h
  split at h
  · rename_i hn
    exact .inl ⟨(Option.some.inj h).symm, by simp [hn]⟩
  · rename_i v hn
    split_ifs at h with hfree hseen
    · exact .inr ⟨v, hn, hfree, hseen, (Option.some.inj h).symm⟩
    · refine .inl ⟨(Option.some.inj h).symm, fun v' hn' => ?_⟩
      rwa [Option.some.inj (hn'.symm.trans hn)]

variable [DecidableEq α]

/-- **What a command can do.** -/
theorem moves_of_effect {op : TxCommand α} {ans : Except ε op.Ans}
    (h : db.effect K op = some (ans, post)) : Moves K db op post := by
  cases op with
  | connect =>
      obtain ⟨-, rfl⟩ := Prod.mk.inj (Option.some.inj h)
      exact .connect
  | begin t =>
      simp only [effect] at h
      split_ifs at h with hidle
      · obtain ⟨-, rfl⟩ := Prod.mk.inj (Option.some.inj h)
        exact .begin hidle.1 hidle.2
      · obtain ⟨-, rfl⟩ := Prod.mk.inj (Option.some.inj h)
        exact .same
  | commit t =>
      simp only [effect] at h
      split_ifs at h with hactive
      · obtain ⟨-, rfl⟩ := Prod.mk.inj (Option.some.inj h)
        exact .commit hactive
      · obtain ⟨-, rfl⟩ := Prod.mk.inj (Option.some.inj h)
        exact .same
  | rollback t =>
      simp only [effect] at h
      split_ifs at h with hcommitted
      · obtain ⟨-, rfl⟩ := Prod.mk.inj (Option.some.inj h)
        exact .same
      · obtain ⟨-, rfl⟩ := Prod.mk.inj (Option.some.inj h)
        exact .rollback hcommitted
  | select p =>
      obtain ⟨-, rfl⟩ := Prod.mk.inj (Option.some.inj h)
      exact .same
  | ensure row =>
      simp only [effect] at h
      split_ifs at h with hrow
      · obtain ⟨-, rfl⟩ := Prod.mk.inj (Option.some.inj h)
        exact .same
      · obtain ⟨-, rfl⟩ := Prod.mk.inj (Option.some.inj h)
        exact .ensure hrow
  | scan t p =>
      simp only [effect] at h
      split_ifs at h
      · obtain ⟨-, rfl⟩ := Prod.mk.inj (Option.some.inj h)
        exact .same
      · obtain ⟨-, rfl⟩ := Prod.mk.inj (Option.some.inj h)
        exact .same
  | delete t n =>
      simp only [effect] at h
      split_ifs at h with hactive
      · obtain ⟨db', hdelete, heq⟩ := Option.map_eq_some_iff.1 h
        obtain ⟨-, rfl⟩ := Prod.mk.inj heq
        rcases delete_cases hdelete with ⟨rfl, _⟩ | ⟨v, hn, hfree, hseen, rfl⟩
        · exact .same
        · exact .delete hactive hn hfree hseen
      · obtain ⟨-, rfl⟩ := Prod.mk.inj (Option.some.inj h)
        exact .same
  | insert t row =>
      simp only [effect] at h
      split_ifs at h with hactive
      · rcases insert_cases h with ⟨rfl, _⟩ | ⟨_, rfl, _, hdup, hfree⟩
        · exact .same
        · exact .insert hactive hdup hfree
      · obtain ⟨-, rfl⟩ := Prod.mk.inj (Option.some.inj h)
        exact .same

theorem select_ok {found : List α} (h : db.effect K (.select p) = some (.ok found, post)) :
    found = db.rows.filter p ∧ post = db := by
  obtain ⟨hans, rfl⟩ := Prod.mk.inj (Option.some.inj h)
  exact ⟨(Except.ok.inj hans).symm, rfl⟩

theorem connect_ok {m : ℕ} (h : db.effect K .connect = some (.ok m, post)) :
    m = db.txs.length ∧ post.txs.length = db.txs.length + 1 := by
  obtain ⟨hans, rfl⟩ := Prod.mk.inj (Option.some.inj h)
  exact ⟨(Except.ok.inj hans).symm, by simp⟩

/-- `COMMIT` ends a transaction in progress or fails. -/
theorem commit_cases {ans : Except ε Unit} (h : db.effect K (.commit t) = some (ans, post)) :
    (post = db ∧ ∃ e, ans = .error e) ∨
      (ans = .ok () ∧ db.status t = .active ∧ post = db.mark t .committed) := by
  simp only [effect] at h
  split_ifs at h with hactive
  · obtain ⟨rfl, rfl⟩ := Prod.mk.inj (Option.some.inj h)
    exact .inr ⟨rfl, hactive, rfl⟩
  · obtain ⟨rfl, rfl⟩ := Prod.mk.inj (Option.some.inj h)
    exact .inl ⟨rfl, _, rfl⟩

theorem commit_ok {u : Unit} (h : db.effect K (.commit t) = some (.ok u, post)) :
    db.status t = .active ∧ post = db.mark t .committed := by
  rcases commit_cases h with ⟨_, e, he⟩ | ⟨_, hactive, hpost⟩
  · cases he
  · exact ⟨hactive, hpost⟩

theorem scan_ok {found : List ℕ} (h : db.effect K (.scan t p) = some (.ok found, post)) :
    found = db.find t p ∧ post = db := by
  simp only [effect] at h
  split_ifs at h with hactive
  · obtain ⟨hans, rfl⟩ := Prod.mk.inj (Option.some.inj h)
    exact ⟨(Except.ok.inj hans).symm, rfl⟩
  · cases (Prod.mk.inj (Option.some.inj h)).1

/-- What `DELETE` of a version leaves: it is not there for its transaction any more. -/
def Gone (db : Versioned α) (t n : ℕ) : Prop :=
  ∀ v, db.versions[n]? = some v → ∃ d ∈ v.deletedBy, d = t ∨ db.status d = .committed

theorem delete_ok {u : Unit} (h : db.effect K (.delete t n) = some (.ok u, post))
    (hv : ∀ v, db.versions[n]? = some v →
      v.insertedBy = t ∨ db.status v.insertedBy = .committed) : post.Gone t n := by
  simp only [effect] at h
  split_ifs at h with hactive
  · obtain ⟨db', hdelete, heq⟩ := Option.map_eq_some_iff.1 h
    obtain ⟨-, rfl⟩ := Prod.mk.inj heq
    rcases delete_cases hdelete with ⟨rfl, hunseen⟩ | ⟨v, hn, _, _, rfl⟩
    · intro v hn
      by_contra hnone
      simp only [not_exists, not_and, not_or] at hnone
      exact hunseen v hn ⟨hv v hn, hnone⟩
    · intro v' hn'
      have hlt : n < db.versions.length := (List.getElem?_eq_some_iff.1 hn).1
      simp only [remove, List.getElem?_set_self hlt, Option.some.injEq] at hn'
      subst hn'
      exact ⟨t, rfl, .inl rfl⟩
  · cases (Prod.mk.inj (Option.some.inj h)).1

theorem insert_ok {u : Unit} (h : db.effect K (.insert t row) = some (.ok u, post)) :
    db.status t = .active ∧ post = db.add t row ∧ ¬db.Duplicate K t row := by
  simp only [effect] at h
  split_ifs at h with hactive
  · rcases insert_cases h with ⟨_, e, he⟩ | ⟨_, hpost, _, hdup, _⟩
    · cases he
    · exact ⟨hactive, hpost, hdup⟩
  · cases (Prod.mk.inj (Option.some.inj h)).1

end Commands

/-! ### The passage of time -/

/-- The version is still what it was, deleted by whom it was deleted unless that has been
undone. -/
structure Stays (v v' : Version α) (ended : ℕ → Prop) : Prop where
  row : v'.row = v.row
  insertedBy : v'.insertedBy = v.insertedBy
  deletedBy : ∀ d, v.deletedBy = some d → ¬ended d → v'.deletedBy = some d

/-- What every command and every abort keeps. -/
structure Later (db db' : Versioned α) : Prop where
  committed : ∀ {t}, db.status t = .committed → db'.status t = .committed
  aborted : ∀ {t}, db.status t = .aborted → db'.status t = .aborted
  txs_le : db.txs.length ≤ db'.txs.length
  version : ∀ {n : ℕ} {v : Version α}, db.versions[n]? = some v → ∃ v', db'.versions[n]? = some v' ∧
    Stays v v' fun d => db'.status d = .aborted

section Later

variable {K : Constraints α ε} {db db' db'' : Versioned α} {op : TxCommand α} {t n : ℕ}
  {s : TxStatus} {v : Version α} {row : α}

theorem Stays.refl (v : Version α) {ended : ℕ → Prop} : Stays v v ended :=
  ⟨rfl, rfl, fun _ h _ => h⟩

theorem Later.refl (db : Versioned α) : Later db db :=
  ⟨id, id, le_rfl, fun h => ⟨_, h, .refl _⟩⟩

theorem Later.trans (h : Later db db') (h' : Later db' db'') : Later db db'' where
  committed hc := h'.committed (h.committed hc)
  aborted ha := h'.aborted (h.aborted ha)
  txs_le := h.txs_le.trans h'.txs_le
  version hv := by
    obtain ⟨v', hv', hs⟩ := h.version hv
    obtain ⟨v'', hv'', hs'⟩ := h'.version hv'
    refine ⟨v'', hv'', hs'.row.trans hs.row, hs'.insertedBy.trans hs.insertedBy, ?_⟩
    intro d hd hnot
    exact hs'.deletedBy d (hs.deletedBy d hd fun ha => hnot (h'.aborted ha)) hnot

/-- Versions stay where they are. -/
theorem Later.length_le (h : Later db db') : db.versions.length ≤ db'.versions.length := by
  by_contra hlt
  have hlast : db'.versions.length < db.versions.length := Nat.lt_of_not_le hlt
  obtain ⟨v', hv', _⟩ := h.version (List.getElem?_eq_getElem hlast)
  exact Nat.lt_irrefl _ (List.getElem?_eq_some_iff.1 hv').1

theorem later_of_versions (hc : ∀ {t}, db.status t = .committed → db'.status t = .committed)
    (ha : ∀ {t}, db.status t = .aborted → db'.status t = .aborted)
    (ht : db.txs.length ≤ db'.txs.length) (hv : db.versions <+: db'.versions) : Later db db' where
  committed := hc
  aborted := ha
  txs_le := ht
  version {n v} h := by
    have hlt : n < db.versions.length := (List.getElem?_eq_some_iff.1 h).1
    obtain ⟨added, heq⟩ := hv
    exact ⟨v, by rw [← heq, List.getElem?_append_left hlt, h], .refl v⟩

/-- A transaction goes on, or comes to an end. -/
theorem later_mark (hs : db.status t ≠ .committed) (ha : db.status t ≠ .aborted ∨ s = .aborted) :
    Later db (db.mark t s) := by
  refine later_of_versions (fun {d} hd => ?_) (fun {d} hd => ?_) ?_ (List.prefix_refl _)
  · rcases status_mark_cases db t d s with heq | ⟨rfl, _, _⟩
    · exact heq.trans hd
    · exact absurd hd hs
  · rcases status_mark_cases db t d s with heq | ⟨rfl, _, heq⟩
    · exact heq.trans hd
    · rcases ha with ha | rfl
      · exact absurd hd ha
      · exact heq
  · simp [mark]

theorem later_remove (hn : db.versions[n]? = some v) (hfree : ¬db.Contended t v)
    (hseen : db.SeenBy t v) : Later db (db.remove t n v) where
  committed h := h
  aborted h := h
  txs_le := le_rfl
  version {m v'} hm := by
    by_cases hmn : m = n
    · subst hmn
      obtain rfl := Option.some.inj (hn.symm.trans hm)
      have hlt : m < db.versions.length := (List.getElem?_eq_some_iff.1 hn).1
      refine ⟨_, List.getElem?_set_self hlt, rfl, rfl, fun d hd hnot => ?_⟩
      -- the version was free, so its last deletion is undone
      obtain ⟨hne, hcommitted⟩ := hseen.2 d hd
      exact absurd ⟨d, hd, hne, hcommitted, hnot⟩ hfree
    · exact ⟨v', by rw [remove, List.getElem?_set_ne (Ne.symm hmn), hm], .refl v'⟩

/-- A transaction of its own. -/
theorem later_ensure :
    Later db { db.add db.txs.length row with txs := db.txs ++ [s] } := by
  refine later_of_versions (fun {d} hd => ?_) (fun {d} hd => ?_) (by simp) (List.prefix_append ..)
  · exact (status_append (lt_of_status (by simp [hd]))).trans hd
  · exact (status_append (lt_of_status (by simp [hd]))).trans hd

/-- **Every command goes along `Later`.** -/
theorem Moves.later (h : Moves K db op db') : Later db db' := by
  cases h with
  | same => exact .refl db
  | connect =>
      exact later_of_versions status_connect.trans status_connect.trans (by simp)
        (List.prefix_refl _)
  | begin ht hidle => exact later_mark (by simp [hidle]) (.inl (by simp [hidle]))
  | commit hactive => exact later_mark (by simp [hactive]) (.inl (by simp [hactive]))
  | rollback hopen => exact later_mark hopen (.inr rfl)
  | ensure => exact later_ensure
  | delete ht hn hfree hseen => exact later_remove hn hfree hseen
  | insert =>
      exact later_of_versions id id le_rfl (List.prefix_append ..)

/-- **Who inserts**: a version that is new has been inserted by the command. -/
theorem Moves.grown (h : Moves K db op db') (hn : db.versions.length ≤ n)
    (hv : db'.versions[n]? = some v) : n = db.versions.length ∧
      (op = .insert v.insertedBy v.row ∨ (op = .ensure v.row ∧ v.insertedBy = db.txs.length ∧
        db'.txs.length = db.txs.length + 1)) := by
  have hold : db.versions[n]? ≠ some v := by simp [List.getElem?_eq_none hn]
  have hadded : ∀ {w : Version α}, (db.versions ++ [w])[n]? = some v →
      n = db.versions.length ∧ v = w := by
    intro w hw
    rw [List.getElem?_append_right hn] at hw
    obtain ⟨hlt, hw⟩ := List.getElem?_eq_some_iff.1 hw
    simp only [List.length_cons, List.length_nil] at hlt
    exact ⟨by omega, by simpa using hw.symm⟩
  cases h with
  | same | connect | begin | commit | rollback => exact absurd hv hold
  | ensure =>
      obtain ⟨hlast, rfl⟩ := hadded hv
      exact ⟨hlast, .inr ⟨rfl, rfl, by simp⟩⟩
  | delete ht hm =>
      have hlt := (List.getElem?_eq_some_iff.1 hv).1
      simp only [remove, List.length_set] at hlt
      exact absurd hlt (Nat.not_lt.2 hn)
  | insert =>
      obtain ⟨hlast, rfl⟩ := hadded hv
      exact ⟨hlast, .inl rfl⟩

/-- **Who deletes**: a version that was not deleted by a transaction has been seen by it. -/
theorem Moves.deleted (h : Moves K db op db') (hn : db'.versions[n]? = some v)
    (hd : t ∈ v.deletedBy) (hnew : ∀ v', db.versions[n]? = some v' → t ∉ v'.deletedBy) :
    op = .delete t n ∧ ∃ v', db.versions[n]? = some v' ∧ v'.row = v.row ∧
      v'.insertedBy = v.insertedBy ∧ db.SeenBy t v' := by
  have hadded : ∀ {w : Version α}, (db.versions ++ [w])[n]? = some v → t ∈ w.deletedBy := by
    intro w hw
    rcases Nat.lt_or_ge n db.versions.length with hlt | hge
    · rw [List.getElem?_append_left hlt] at hw
      exact absurd hd (hnew v hw)
    · rw [List.getElem?_append_right hge] at hw
      exact List.mem_singleton.1 (List.mem_of_getElem? hw) ▸ hd
  cases h with
  | same | connect | begin | commit | rollback => exact absurd hd (hnew v hn)
  | ensure => cases hadded hn
  | @delete t' m w ht hm hfree hseen =>
      by_cases hmn : n = m
      · subst hmn
        have hlt : n < db.versions.length := (List.getElem?_eq_some_iff.1 hm).1
        simp only [remove, List.getElem?_set_self hlt, Option.some.injEq] at hn
        subst hn
        obtain rfl := Option.some.inj hd
        exact ⟨rfl, w, hm, rfl, rfl, hseen⟩
      · rw [remove, List.getElem?_set_ne (Ne.symm hmn)] at hn
        exact absurd hd (hnew v hn)
  | insert => cases hadded hn

/-- The end of a transaction that has not ended before. -/
theorem Moves.committed (h : Moves K db op db') (ht : db'.status t = .committed)
    (hnot : db.status t ≠ .committed) : (op = .commit t ∧ db.status t = .active ∧
      db' = db.mark t .committed) ∨ ∃ row, op = .ensure row ∧ t = db.txs.length ∧
        db'.txs.length = db.txs.length + 1 := by
  cases h with
  | same => exact absurd ht hnot
  | connect => exact absurd (status_connect.symm.trans ht) hnot
  | @begin d _ _ | @rollback d _ =>
      rcases status_mark_cases db d t _ with heq | ⟨rfl, _, heq⟩
      · exact absurd (heq.symm.trans ht) hnot
      · rw [heq] at ht
        cases ht
  | @commit d hactive =>
      rcases status_mark_cases db d t _ with heq | ⟨rfl, _, _⟩
      · exact absurd (heq.symm.trans ht) hnot
      · exact .inl ⟨rfl, hactive, rfl⟩
  | @ensure row _ =>
      refine .inr ⟨row, rfl, ?_, by simp⟩
      by_contra hne
      rcases Nat.lt_or_ge t db.txs.length with hlt | hge
      · exact hnot ((status_append hlt).symm.trans ht)
      · have hbeyond : (db.txs ++ [TxStatus.committed]).length ≤ t := by
          simp only [List.length_append, List.length_cons, List.length_nil]
          omega
        simp only [status, List.getElem?_eq_none hbeyond, Option.getD_none] at ht
        cases ht
  | delete | insert => exact absurd ht hnot

theorem abort_cases (h : db.abort t = some db') :
    db.status t = .active ∧ db' = db.mark t .aborted := by
  unfold abort at h
  split_ifs at h with hactive
  exact ⟨hactive, (Option.some.inj h).symm⟩

theorem later_abort (h : db.abort t = some db') : Later db db' := by
  obtain ⟨hactive, rfl⟩ := abort_cases h
  exact later_mark (by simp [hactive]) (.inr rfl)

/-- What a transaction has deleted stays deleted while it is not undone. -/
theorem Gone.later (h : db.Gone t n) (hl : Later db db') (ht : db'.status t ≠ .aborted)
    (hn : n < db.versions.length) : db'.Gone t n := by
  intro v' hv'
  obtain ⟨v, hv⟩ : ∃ v, db.versions[n]? = some v := ⟨_, List.getElem?_eq_getElem hn⟩
  obtain ⟨v'', hv'', hs⟩ := hl.version hv
  obtain rfl := Option.some.inj (hv''.symm.trans hv')
  obtain ⟨d, hd, rfl | hcommitted⟩ := h v hv
  · exact ⟨d, hs.deletedBy d hd ht, .inl rfl⟩
  · have hlater := hl.committed hcommitted
    exact ⟨d, hs.deletedBy d hd (by simp [hlater]), .inr hlater⟩

end Later

/-! ### The rows that stand -/

section Rows

variable {K : Constraints α ε} {db db' : Versioned α} {op : TxCommand α} {t n : ℕ} {s : TxStatus}
  {v v' : Version α} {row : α}

/-- A version in the place of another one with the same row. -/
theorem rows_set {P : Version α → Prop} [DecidablePred P] {l : List (Version α)}
    (hn : l[n]? = some v) (hP : P v' ↔ P v) (hrow : v'.row = v.row) :
    ((l.set n v').filter P).map Version.row = (l.filter P).map Version.row := by
  induction l generalizing n with
  | nil => cases hn
  | cons a l ih =>
      cases n with
      | zero =>
          obtain rfl := Option.some.inj hn
          by_cases hPa : P a
          · simp [hPa, hP.2 hPa, hrow]
          · simp [hPa, mt hP.1 hPa]
      | succ n =>
          have hrest := ih hn
          by_cases hPa : P a <;> simpa [hPa] using hrest

/-- A row stands at most once if one version of it does. -/
theorem count_rows_le_one [DecidableEq α] (h : ∀ (m n : ℕ) (v v' : Version α),
    db.versions[m]? = some v → db.versions[n]? = some v' → db.Stands v → db.Stands v' →
    v.row = row → v'.row = row → m = n) : db.rows.count row ≤ 1 := by
  have hcount : ∀ l : List (Version α), (∀ (m n : ℕ) (v v' : Version α), l[m]? = some v →
      l[n]? = some v' → db.Stands v → db.Stands v' → v.row = row → v'.row = row → m = n) →
      ((l.filter fun v => db.Stands v).map Version.row).count row ≤ 1 := by
    intro l
    induction l with
    | nil => simp
    | cons a l ih =>
        intro h
        have hrest := ih fun m n v v' hm hn hv hv' hrow hrow' =>
          Nat.succ.inj (h (m + 1) (n + 1) v v' hm hn hv hv' hrow hrow')
        by_cases ha : db.Stands a ∧ a.row = row
        · -- the others are not the row, as the first one is
          have hzero : ((l.filter fun v => db.Stands v).map Version.row).count row = 0 := by
            refine List.count_eq_zero.2 fun hmem => ?_
            obtain ⟨v, hv, hrow⟩ := List.mem_map.1 hmem
            obtain ⟨hv, hstands⟩ := List.mem_filter.1 hv
            obtain ⟨n, hn⟩ := List.mem_iff_getElem?.1 hv
            cases h 0 (n + 1) a v rfl hn ha.1 (of_decide_eq_true hstands) ha.2 hrow
          simp [ha.1, ha.2, hzero]
        · by_cases hstands : db.Stands a
          · have hne : a.row ≠ row := fun hrow => ha ⟨hstands, hrow⟩
            simpa [hstands, hne] using hrest
          · simpa [hstands] using hrest
  exact hcount db.versions h

theorem rows_mark (ht : db.status t ≠ .committed) (hs : s ≠ .committed) :
    (db.mark t s).rows = db.rows := by
  have hstands : ∀ v, (db.mark t s).Stands v ↔ db.Stands v := by
    refine fun v => stands_congr fun d => ?_
    rcases status_mark_cases db t d s with heq | ⟨rfl, _, heq⟩
    · rw [heq]
    · exact iff_of_false (by rwa [heq]) ht
  simp only [rows, hstands]
  rfl

/-- What a transaction adds does not stand before it commits. -/
theorem rows_add (ht : db.status t ≠ .committed) : (db.add t row).rows = db.rows := by
  have hnot : ¬db.Stands ⟨row, t, none⟩ := fun h => ht h.1
  have hstands : ∀ v, (db.add t row).Stands v ↔ db.Stands v :=
    fun v => stands_congr fun _ => Iff.rfl
  have hadded : (db.add t row).versions = db.versions ++ [⟨row, t, none⟩] := rfl
  simp only [rows, hstands, hadded]
  simp [hnot]

/-- What a transaction has deleted stands until it commits. -/
theorem rows_remove (ht : db.status t ≠ .committed) (hn : db.versions[n]? = some v)
    (hseen : db.SeenBy t v) : (db.remove t n v).rows = db.rows := by
  refine rows_set hn (P := fun v => db.Stands v) ?_ rfl
  constructor
  · rintro ⟨hinserted, _⟩
    exact ⟨hinserted, fun d hd => (hseen.2 d hd).2⟩
  · rintro ⟨hinserted, _⟩
    exact ⟨hinserted, fun d hd => by obtain rfl := Option.some.inj hd; exact ht⟩

/-- **Only the end of a transaction changes what stands.** -/
theorem Moves.rows (h : Moves K db op db') (hcommit : ∀ t, op ≠ .commit t)
    (hensure : ∀ row, op ≠ .ensure row) : db'.rows = db.rows := by
  cases h with
  | same => rfl
  | connect =>
      have hstands : ∀ v, ({ db with txs := db.txs ++ [.idle] } : Versioned α).Stands v ↔
          db.Stands v := fun v => stands_congr fun d => by rw [status_connect]
      simp only [Versioned.rows, hstands]
  | begin ht hidle => exact rows_mark (by simp [hidle]) (by simp)
  | commit => exact absurd rfl (hcommit _)
  | rollback hopen => exact rows_mark hopen (by simp)
  | ensure => exact absurd rfl (hensure _)
  | delete ht hn _ hseen => exact rows_remove (by simp [ht]) hn hseen
  | insert ht => exact rows_add (by simp [ht])

theorem rows_abort (h : db.abort t = some db') : db'.rows = db.rows := by
  obtain ⟨hactive, rfl⟩ := abort_cases h
  exact rows_mark (by simp [hactive]) (by simp)

/-- **After its commit stands what a transaction saw before it.** -/
theorem stands_commit (h : db.status t = .active) :
    (db.mark t .committed).Stands v ↔ db.SeenBy t v := by
  have hlt : t < db.txs.length := lt_of_status (by simp [h])
  have hstatus : ∀ d, (db.mark t .committed).status d = .committed ↔
      d = t ∨ db.status d = .committed := by
    intro d
    by_cases hd : d = t
    · subst hd
      exact iff_of_true (status_mark_self hlt) (.inl rfl)
    · rw [status_mark_ne hd]
      simp [hd]
  simp only [Stands, SeenBy, ne_eq, hstatus, not_or]

/-- Others see of it what stands. -/
theorem seenBy_iff_stands (ht : v.insertedBy ≠ t) (hd : t ∉ v.deletedBy) :
    db.SeenBy t v ↔ db.Stands v := by
  simp only [SeenBy, Stands, ht, false_or]
  refine and_congr_right fun _ => forall_congr' fun d => ?_
  constructor
  · exact fun h hmem => (h hmem).2
  · exact fun h hmem => ⟨fun heq => hd (heq ▸ hmem), h hmem⟩

/-- A commit shows only in the rows its transaction has inserted or deleted. -/
theorem rows_filter_commit {q : α → Bool} (h : db.status t = .active)
    (hq : ∀ v ∈ db.versions, v.insertedBy = t ∨ t ∈ v.deletedBy → q v.row = false) :
    (db.mark t .committed).rows.filter q = db.rows.filter q := by
  simp only [rows, List.filter_map, List.filter_filter]
  refine congrArg (List.map Version.row) (List.filter_congr fun v hv => ?_)
  by_cases hrow : q v.row
  · have hother : v.insertedBy ≠ t ∧ t ∉ v.deletedBy := by
      rw [← not_or]
      intro htouched
      rw [hq v hv htouched] at hrow
      cases hrow
    simp only [Function.comp_apply, hrow, Bool.true_and]
    rw [decide_eq_decide, stands_commit h, seenBy_iff_stands hother.1 hother.2]
  · simp [hrow]

end Rows

/-! ### Keys -/

section Keys

variable {K : Constraints α ε} {db db' : Versioned α} {op : TxCommand α} {t n : ℕ}
  {v v' : Version α} {row : α}

/-- The version has made room for another one. -/
def MakesRoom (db : Versioned α) (v v' : Version α) : Prop :=
  ∃ d ∈ v.deletedBy, db.status d = .committed ∨ d = v'.insertedBy

/-- Of two versions with the same key one is undone or has made room for the other one. -/
def Keyed (K : Constraints α ε) (db : Versioned α) : Prop :=
  ∀ (m n : ℕ) (v v' : Version α), m ≠ n → db.versions[m]? = some v → db.versions[n]? = some v' →
    K.clash v.row v'.row → db.status v.insertedBy ≠ .aborted →
    db.status v'.insertedBy ≠ .aborted → db.MakesRoom v v' ∨ db.MakesRoom v' v

/-- A table is loaded with distinct rows of distinct keys. -/
theorem keyed_ofRows {rows : List α} (hrows : rows.Nodup)
    (hkey : ∀ a b, K.clash a b → a = b) : Keyed K (ofRows rows) := by
  intro m n v v' hne hm hn hclash
  simp only [ofRows, List.getElem?_map, Option.map_eq_some_iff] at hm hn
  obtain ⟨a, hm, rfl⟩ := hm
  obtain ⟨b, hn, rfl⟩ := hn
  obtain rfl : a = b := hkey a b hclash
  obtain ⟨hlt, heq⟩ := List.getElem?_eq_some_iff.1 hm
  obtain ⟨hlt', heq'⟩ := List.getElem?_eq_some_iff.1 hn
  exact absurd (hrows.getElem_inj_iff.1 (heq.trans heq'.symm)) hne

/-- Versions with the same key do not stand together. -/
theorem Keyed.unique (h : Keyed K db) {m : ℕ} (hm : db.versions[m]? = some v)
    (hn : db.versions[n]? = some v') (hclash : K.clash v.row v'.row) (hv : db.Stands v)
    (hv' : db.Stands v') : m = n := by
  by_contra hne
  rcases h m n v v' hne hm hn hclash (by simp [hv.1]) (by simp [hv'.1]) with
    ⟨d, hd, hcommitted | rfl⟩ | ⟨d, hd, hcommitted | rfl⟩
  · exact hv.2 d hd hcommitted
  · exact hv.2 _ hd hv'.1
  · exact hv'.2 d hd hcommitted
  · exact hv'.2 _ hd hv.1

/-- Transactions that go on keep the keys. -/
theorem Keyed.of_versions (h : Keyed K db) (hversions : db'.versions = db.versions)
    (hc : ∀ t, db.status t = .committed → db'.status t = .committed)
    (ha : ∀ t, db.status t = .aborted → db'.status t = .aborted) : Keyed K db' := by
  intro m n v v' hne hm hn hclash hv hv'
  rw [hversions] at hm hn
  rcases h m n v v' hne hm hn hclash (mt (ha _) hv) (mt (ha _) hv') with ⟨d, hd, hroom⟩
    | ⟨d, hd, hroom⟩
  · exact .inl ⟨d, hd, hroom.imp_left (hc d)⟩
  · exact .inr ⟨d, hd, hroom.imp_left (hc d)⟩

/-- A version that can be deleted has not made room for a version that is not undone. -/
theorem not_makesRoom (hfree : ¬db.Contended t v) (hseen : db.SeenBy t v)
    (hv' : db.status v'.insertedBy ≠ .aborted) : ¬db.MakesRoom v v' := by
  rintro ⟨d, hd, hroom⟩
  obtain ⟨hne, hcommitted⟩ := hseen.2 d hd
  rcases hroom with hc | rfl
  · exact hcommitted hc
  · exact hfree ⟨_, hd, hne, hcommitted, hv'⟩

theorem Keyed.remove (h : Keyed K db) (hn : db.versions[n]? = some v) (hfree : ¬db.Contended t v)
    (hseen : db.SeenBy t v) : Keyed K (db.remove t n v) := by
  have hlt : n < db.versions.length := (List.getElem?_eq_some_iff.1 hn).1
  -- a version afterwards has the row and the inserter it had, and its deleter if it is another
  have hbefore : ∀ {m w}, (db.remove t n v).versions[m]? = some w → ∃ w',
      db.versions[m]? = some w' ∧
      w.row = w'.row ∧ w.insertedBy = w'.insertedBy ∧ (m = n ∧ w' = v ∨ w = w') := by
    intro m w hw
    by_cases hmn : m = n
    · subst hmn
      simp only [Versioned.remove, List.getElem?_set_self hlt, Option.some.injEq] at hw
      subst hw
      exact ⟨v, hn, rfl, rfl, .inl ⟨rfl, rfl⟩⟩
    · rw [Versioned.remove, List.getElem?_set_ne (Ne.symm hmn)] at hw
      exact ⟨w, hw, rfl, rfl, .inr rfl⟩
  intro m m' w w' hne hm hm' hclash hw hw'
  obtain ⟨u, hu, hrow, hinserted, hsame⟩ := hbefore hm
  obtain ⟨u', hu', hrow', hinserted', hsame'⟩ := hbefore hm'
  rw [hrow, hrow'] at hclash
  rw [hinserted, status_remove] at hw
  rw [hinserted', status_remove] at hw'
  rcases h m m' u u' hne hu hu' hclash hw hw' with hroom | hroom
  · rcases hsame with ⟨_, rfl⟩ | rfl
    · exact absurd hroom (not_makesRoom hfree hseen hw')
    · obtain ⟨d, hd, hroom⟩ := hroom
      exact .inl ⟨d, hd, hroom.imp_right fun heq => heq.trans hinserted'.symm⟩
  · rcases hsame' with ⟨_, rfl⟩ | rfl
    · exact absurd hroom (not_makesRoom hfree hseen hw)
    · obtain ⟨d, hd, hroom⟩ := hroom
      exact .inr ⟨d, hd, hroom.imp_right fun heq => heq.trans hinserted.symm⟩

/-- A row that clashes with nothing that is there finds the others making room. -/
theorem makesRoom_of_free (hdup : ¬db.Duplicate K t row) (hfree : ¬db.Awaited K t row)
    (hv : v ∈ db.versions) (hclash : K.clash row v.row) (hnot : db.status v.insertedBy ≠ .aborted)
    {w : Version α} (hw : w.insertedBy = t) : db.MakesRoom v w := by
  have hunseen : ¬db.SeenBy t v := by
    intro hseen
    by_cases hcontended : db.Contended t v
    · exact hfree ⟨v, hv, hclash, .inr ⟨hseen, hcontended⟩⟩
    · exact hdup ⟨v, hv, hclash, hseen, hcontended⟩
  have hinserted : v.insertedBy = t ∨ db.status v.insertedBy = .committed := by
    by_contra hnone
    rw [not_or] at hnone
    exact hfree ⟨v, hv, hclash, .inl ⟨hnone.1, hnone.2, hnot⟩⟩
  by_contra hroom
  refine hunseen ⟨hinserted, fun d hd => ⟨?_, ?_⟩⟩
  · rintro rfl
    exact hroom ⟨d, hd, .inr hw.symm⟩
  · exact fun hc => hroom ⟨d, hd, .inl hc⟩

theorem Keyed.add (h : Keyed K db) (hsymm : ∀ a b, K.clash a b = K.clash b a)
    (hroom : ∀ v ∈ db.versions, K.clash row v.row → db.status v.insertedBy ≠ .aborted →
      db.MakesRoom v ⟨row, t, none⟩) : Keyed K (db.add t row) := by
  have hbefore : ∀ {m w}, (db.add t row).versions[m]? = some w →
      db.versions[m]? = some w ∨ (m = db.versions.length ∧ w = ⟨row, t, none⟩) := by
    intro m w hw
    rcases Nat.lt_or_ge m db.versions.length with hlt | hge
    · rw [Versioned.add, List.getElem?_append_left hlt] at hw
      exact .inl hw
    · rw [Versioned.add, List.getElem?_append_right hge] at hw
      obtain ⟨hm, hw⟩ := List.getElem?_eq_some_iff.1 hw
      simp only [List.length_cons, List.length_nil] at hm
      have hlast : m = db.versions.length := by omega
      subst hlast
      exact .inr ⟨rfl, by simpa using hw.symm⟩
  intro m m' w w' hne hm hm' hclash hw hw'
  rcases hbefore hm with hold | ⟨rfl, rfl⟩ <;> rcases hbefore hm' with hold' | ⟨rfl, rfl⟩
  · exact h m m' w w' hne hold hold' hclash hw hw'
  · exact .inl (hroom w (List.mem_of_getElem? hold) (hsymm _ _ ▸ hclash) hw)
  · exact .inr (hroom w' (List.mem_of_getElem? hold') hclash hw')
  · exact absurd rfl hne

/-- What the command adds without a transaction has no key. -/
def Unkeyed (K : Constraints α ε) (op : TxCommand α) : Prop :=
  ∀ row, op = .ensure row → ∀ a, K.clash row a = false

/-- **Keys stay unique**, where the rows that are added without a transaction have none. -/
theorem Keyed.moves (h : Keyed K db) (hsymm : ∀ a b, K.clash a b = K.clash b a)
    (hensure : Unkeyed K op) (hm : Moves K db op db') :
    Keyed K db' := by
  have hl := hm.later
  cases hm with
  | same => exact h
  | connect | begin | commit | rollback => exact h.of_versions rfl (fun _ => hl.committed) fun _ =>
      hl.aborted
  | @ensure row _ =>
      have hadd : Keyed K (db.add db.txs.length row) := by
        refine h.add hsymm fun v _ hclash => ?_
        rw [hensure row rfl] at hclash
        cases hclash
      exact hadd.of_versions rfl (fun _ hc => hl.committed hc) fun _ ha => hl.aborted ha
  | delete ht hn hfree hseen => exact h.remove hn hfree hseen
  | insert ht hdup hfree =>
      exact h.add hsymm fun v hv hclash hnot => makesRoom_of_free hdup hfree hv hclash hnot rfl

theorem Keyed.abort (h : Keyed K db) (ha : db.abort t = some db') : Keyed K db' := by
  have hl := later_abort ha
  obtain ⟨_, rfl⟩ := abort_cases ha
  exact h.of_versions rfl (fun _ => hl.committed) fun _ => hl.aborted

end Keys

end Versioned

end Relational
end IdentityPlatform
