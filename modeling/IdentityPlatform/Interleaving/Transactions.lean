/-
# Interleaved transactions

The machine whose statements are the commands on a versioned table.  A command that waits
is a step that does not exist yet; one whose reply is lost has taken effect and fails for
its client; the server may abort a transaction in progress at any time.

Transactions belong to connections and connections to calls: a transaction number has been
the answer to one `connect`, and only the call that has received it uses it (`Owned`).  So
what a transaction has inserted and deleted is in the log of one call (`inserted_in_log`,
`deleted_in_log`).

`rows_of_replacement` is about transactions that delete what they find and insert rows
instead: what stands after the commit is what they have inserted, and what stood before it
and they had not found.
-/

import IdentityPlatform.Interleaving.Assertions
import IdentityPlatform.Relational.ReadCommitted

namespace IdentityPlatform
namespace Interleaving

open Relational Program Machine Versioned

variable {α ε Req Resp Rnd : Type} [DecidableEq α]

/-- The commands on a versioned table. -/
abbrev txCommands (α : Type) : Signature := ⟨TxCommand α, TxCommand.Ans⟩

/-- Calls that send commands; `delivers` says whether the reply arrives. -/
def transactions (K : Constraints α ε) (delivers : Rnd → Bool)
    (handler : Req → Program (txCommands α) ε Resp) :
    Machine (txCommands α) ε (Versioned α) Req Resp Rnd ℕ where
  handler := handler
  exec op r db := (db.effect K op).map fun result =>
    (if delivers r then result.1 else .error K.connectionLost, result.2)
  env t db := db.abort t
  fault := K.connectionLost

/-- A command is sent in a transaction whose connection the call has. -/
def Owned {W : Type} (l : Log (txCommands α) ε W) (op : TxCommand α) : Prop :=
  ∀ t, op.tx = some t → Log.Saw (S := txCommands α) l .connect (.ok t)

namespace Transactions

variable {K : Constraints α ε} {delivers : Rnd → Bool}
  {handler : Req → Program (txCommands α) ε Resp} {init : Versioned α → Prop}
  {c : Config (txCommands α) ε (Versioned α) Req Resp} {i j : ℕ}
  {call call' : Call (txCommands α) ε (Versioned α) Req Resp} {op : TxCommand α}
  {db db' : Versioned α} {t n : ℕ} {v : Version α} {row : α}

/-- **What a command has done**: it has taken effect, and is answered or not, or it has
failed. -/
theorem answers_cases {ans : Except ε op.Ans}
    (h : (transactions K delivers handler).Answers op db ans db') :
    (∃ a, db.effect K op = some (a, db') ∧ (ans = a ∨ ans = .error K.connectionLost)) ∨
      (db' = db ∧ ans = .error K.connectionLost) := by
  rcases h with ⟨r, h⟩ | ⟨rfl, rfl⟩
  · obtain ⟨⟨a, post⟩, heffect, heq⟩ := Option.map_eq_some_iff.1 h
    obtain ⟨rfl, rfl⟩ := Prod.mk.inj heq
    refine .inl ⟨a, heffect, ?_⟩
    split_ifs
    · exact .inl rfl
    · exact .inr rfl
  · exact .inr ⟨rfl, rfl⟩

/-- A command that is answered has taken effect. -/
theorem effect_of_ok {a : op.Ans}
    (h : (transactions K delivers handler).Answers op db (.ok a) db') :
    db.effect K op = some (.ok a, db') := by
  rcases answers_cases h with ⟨b, heffect, rfl | hlost⟩ | ⟨_, hlost⟩
  · exact heffect
  · cases hlost
  · cases hlost

/-- A command that is answered in a log has taken effect. -/
theorem effect_of_mem (hv : (transactions K delivers handler).Valid c)
    (hi : c.calls[i]? = some call) {m : ℕ} {a : op.Ans} (he : (⟨m, db, op, .ok a, db'⟩ :
      Event (txCommands α) ε (Versioned α)) ∈ call.log) : db.effect K op = some (.ok a, db') :=
  effect_of_ok (hv.answers hi _ he)

theorem moves_of_answers {ans : Except ε op.Ans}
    (h : (transactions K delivers handler).Answers op db ans db') : Moves K db op db' := by
  rcases answers_cases h with ⟨_, heffect, _⟩ | ⟨rfl, _⟩
  · exact moves_of_effect heffect
  · exact .same

variable (K delivers handler) in
/-- Time passes along `Later`. -/
theorem stable_later : (transactions K delivers handler).Stable Later where
  refl := .refl
  trans := .trans
  exec h := (moves_of_answers (.inl ⟨_, h⟩)).later
  env := later_abort

/-- **Keys stay unique** in every run. -/
theorem reachable_keyed (hreach : (transactions K delivers handler).Reachable init c)
    (hsymm : ∀ a b, K.clash a b = K.clash b a)
    (hensure : ∀ req, Respects (S := txCommands α) (fun _ op => Unkeyed K op)
      ([] : Log (txCommands α) ε (Versioned α)) (handler req))
    (h₀ : ∀ db, init db → Keyed K db) : Keyed K c.world := by
  refine hreach.invariant (I := fun c => Keyed K c.world) h₀ fun c a c' hreach h hs => ?_
  rcases step_cases hs with ⟨req, _, rfl⟩ | ⟨i, call, op, k, ans, post, _, hi, hp, ha, rfl⟩ |
    ⟨t, w, _, hw, rfl⟩
  · exact h
  · exact h.moves hsymm (hensure _ _ _ (hreach.valid.next hi hp)) (moves_of_answers ha)
  · exact h.abort hw

/-! ### Who has done what -/

/-- The command that gives a transaction its number. -/
theorem connect_event (hreach : (transactions K delivers handler).Reachable init c)
    (hi : c.calls[i]? = some call) (hsaw : Log.Saw (S := txCommands α) call.log .connect (.ok t)) :
    ∃ e ∈ call.log, e.op = .connect ∧ e.pre.txs.length = t ∧ e.post.txs.length = t + 1 := by
  obtain ⟨m, pre, post, hmem⟩ := hsaw
  obtain ⟨rfl, hlength⟩ := connect_ok (effect_of_mem hreach.valid hi hmem)
  exact ⟨_, hmem, rfl, rfl, hlength⟩

/-- **A transaction belongs to one call.** -/
theorem owner_unique (hreach : (transactions K delivers handler).Reachable init c)
    (hi : c.calls[i]? = some call) (hj : c.calls[j]? = some call')
    (hsaw : Log.Saw (S := txCommands α) call.log .connect (.ok t))
    (hsaw' : Log.Saw (S := txCommands α) call'.log .connect (.ok t)) : i = j := by
  obtain ⟨e, he, _, hpre, hpost⟩ := connect_event hreach hi hsaw
  obtain ⟨e', he', _, hpre', hpost'⟩ := connect_event hreach hj hsaw'
  have hordered := hreach.ordered (stable_later K delivers handler)
  exact (hordered.once hreach.valid (K := fun db => t < db.txs.length)
    (fun hl hlt => hlt.trans_le hl.txs_le) hi hj he he' (by omega) (by omega) (by omega)
    (by omega)).1

/-- A command that gives a transaction its number is the one of the call that has it. -/
theorem eq_connect (hreach : (transactions K delivers handler).Reachable init c)
    (hi : c.calls[i]? = some call) (hsaw : Log.Saw (S := txCommands α) call.log .connect (.ok t))
    (hj : c.calls[j]? = some call') {e : Event (txCommands α) ε (Versioned α)} (he : e ∈ call'.log)
    (hpre : e.pre.txs.length = t) (hpost : t < e.post.txs.length) : e.op = .connect := by
  obtain ⟨e', he', hop, hpre', hpost'⟩ := connect_event hreach hi hsaw
  have hordered := hreach.ordered (stable_later K delivers handler)
  obtain ⟨_, rfl⟩ := hordered.once hreach.valid (K := fun db => t < db.txs.length)
    (fun hl hlt => hlt.trans_le hl.txs_le) hj hi he he' (by omega) hpost (by omega) (by omega)
  exact hop

variable {P : List α → Prop}

/-- The rows a table is loaded with are those of transaction `0`. -/
theorem ne_zero_of_connect (hreach : (transactions K delivers handler).Reachable (Loaded P) c)
    (hi : c.calls[i]? = some call) (hsaw : Log.Saw (S := txCommands α) call.log .connect (.ok t)) :
    t ≠ 0 := by
  obtain ⟨e, he, _, hpre, _⟩ := connect_event hreach hi hsaw
  obtain ⟨c', _, hreach', _, hworld, _⟩ := hreach.before hi he
  obtain ⟨w, ⟨rows, _, rfl⟩, hrun⟩ := hreach'
  have hle := ((stable_later K delivers handler).runs hrun).txs_le
  rw [hworld, hpre] at hle
  have hone : 0 < t := hle
  exact hone.ne'

/-- A version is one the table was loaded with, or a command has inserted it. -/
theorem inserted_event {rows : List α}
    (hrun : (transactions K delivers handler).Run (Config.initial (ofRows rows)) c)
    (hn : c.world.versions[n]? = some v) : (rows[n]? = some v.row ∧ v.insertedBy = 0) ∨
      ∃ (j : ℕ) (call' : Call (txCommands α) ε (Versioned α) Req Resp) (e : _),
        c.calls[j]? = some call' ∧ e ∈ call'.log ∧ e.pre.versions.length = n ∧
        (e.op = .insert v.insertedBy v.row ∨ (e.op = .ensure v.row ∧
          v.insertedBy = e.pre.txs.length ∧ e.post.txs.length = e.pre.txs.length + 1)) := by
  have hreach : (transactions K delivers handler).Reachable (Loaded fun _ => True) c :=
    ⟨_, ⟨rows, trivial, rfl⟩, hrun⟩
  rcases Nat.lt_or_ge n (ofRows rows).versions.length with hlt | hge
  · have hold : (ofRows rows).versions[n]? = some ((ofRows rows).versions[n]) :=
      List.getElem?_eq_getElem hlt
    have hlater := (stable_later K delivers handler).runs hrun
    obtain ⟨v', hn', hs⟩ := hlater.version hold
    obtain rfl := Option.some.inj (hn.symm.trans hn')
    refine .inl ⟨?_, by simpa [ofRows] using hs.insertedBy⟩
    simp only [ofRows, List.length_map] at hlt
    simp [hs.row, ofRows, hlt]
  · let H := fun db : Versioned α => n < db.versions.length
    have habort : ∀ t (w w' : Versioned α), w.abort t = some w' → H w' → H w := by
      intro t' w w' hw
      obtain ⟨_, rfl⟩ := abort_cases hw
      exact id
    obtain ⟨j, call', e, hj, he, _, hpre, hpost⟩ := hrun.introduced (H := H) (Nat.not_lt.2 hge)
      (List.getElem?_eq_some_iff.1 hn).1 habort
    have hordered := hreach.ordered (stable_later K delivers handler)
    obtain ⟨v', hn', hs⟩ := (hordered.post hj e he).version (List.getElem?_eq_getElem hpost)
    obtain rfl := Option.some.inj (hn.symm.trans hn')
    have hmoves := moves_of_answers (hreach.valid.answers hj e he)
    rw [hs.row, hs.insertedBy]
    obtain ⟨rfl, hop⟩ := hmoves.grown (Nat.not_lt.1 hpre) (List.getElem?_eq_getElem hpost)
    exact .inr ⟨j, call', e, hj, he, rfl, hop⟩

/-- **What a transaction has inserted is in the log of its call.** -/
theorem inserted_in_log (hreach : (transactions K delivers handler).Reachable (Loaded P) c)
    (howned : ∀ req, Respects Owned ([] : Log (txCommands α) ε (Versioned α)) (handler req))
    (hi : c.calls[i]? = some call) (hsaw : Log.Saw (S := txCommands α) call.log .connect (.ok t))
    (hn : c.world.versions[n]? = some v) (hv : v.insertedBy = t) :
    ∃ e ∈ call.log, e.op = .insert t v.row ∧ e.pre.versions.length = n := by
  have hzero := ne_zero_of_connect hreach hi hsaw
  have hrun := hreach
  obtain ⟨w, ⟨rows, _, rfl⟩, hrun⟩ := hrun
  rcases inserted_event hrun hn with ⟨_, hloaded⟩ | ⟨j, call', e, hj, he, hlength, hop⟩
  · exact absurd (hv.symm.trans hloaded) hzero
  · rw [hv] at hop
    rcases hop with hop | ⟨hop, hnumber, hpost⟩
    · obtain ⟨l, howns, hl⟩ := hreach.valid.respected howned hj he
      have hsaw' := (howns t (by rw [hop]; rfl)).mono ((List.suffix_cons e l).trans hl)
      obtain rfl := owner_unique hreach hi hj hsaw hsaw'
      obtain rfl := Option.some.inj (hi.symm.trans hj)
      exact ⟨e, he, hop, hlength⟩
    · have hconnect := eq_connect hreach hi hsaw hj he hnumber.symm (by omega)
      exact absurd (hop.symm.trans hconnect) (by simp)

/-- A transaction that has committed has been committed by a command. -/
theorem committed_event {rows : List α}
    (hrun : (transactions K delivers handler).Run (Config.initial (ofRows rows)) c)
    (ht : c.world.status t = .committed) (hzero : t ≠ 0) :
    ∃ (j : ℕ) (call' : Call (txCommands α) ε (Versioned α) Req Resp) (e : _),
      c.calls[j]? = some call' ∧ e ∈ call'.log ∧ ((e.op = .commit t ∧
        e.post.status t = .committed) ∨ ∃ row, e.op = .ensure row ∧ t = e.pre.txs.length ∧
        e.post.txs.length = e.pre.txs.length + 1) := by
  have hreach : (transactions K delivers handler).Reachable (Loaded fun _ => True) c :=
    ⟨_, ⟨rows, trivial, rfl⟩, hrun⟩
  let H := fun db : Versioned α => db.status t = .committed
  have h₀ : ¬H (ofRows rows) := by
    cases t with
    | zero => exact absurd rfl hzero
    | succ t => simp [H, ofRows, status]
  have habort : ∀ t (w w' : Versioned α), w.abort t = some w' → H w' → H w := by
    intro t' w w' hw hH
    obtain ⟨_, rfl⟩ := abort_cases hw
    rcases status_mark_cases w t' t .aborted with heq | ⟨_, _, heq⟩
    · exact heq.symm.trans hH
    · exact absurd (heq.symm.trans hH) (by simp)
  obtain ⟨j, call', e, hj, he, _, hpre, hpost⟩ := hrun.introduced (H := H) h₀ ht habort
  have hmoves := moves_of_answers (hreach.valid.answers hj e he)
  exact ⟨j, call', e, hj, he, (hmoves.committed hpost hpre).imp_left fun h => ⟨h.1, hpost⟩⟩

/-- What a transaction has deleted it has seen. -/
theorem deleted_event (hreach : (transactions K delivers handler).Reachable (Loaded P) c)
    (hn : c.world.versions[n]? = some v) (hd : t ∈ v.deletedBy) :
    ∃ (j : ℕ) (call' : Call (txCommands α) ε (Versioned α) Req Resp) (e : _),
      c.calls[j]? = some call' ∧ e ∈ call'.log ∧ e.op = .delete t n ∧
      (v.insertedBy = t ∨ e.pre.status v.insertedBy = .committed) := by
  have hrun := hreach
  obtain ⟨w, ⟨rows, _, rfl⟩, hrun⟩ := hrun
  let H := fun db : Versioned α => ∃ v' : Version α, db.versions[n]? = some v' ∧ t ∈ v'.deletedBy
  have h₀ : ¬H (ofRows rows) := by
    rintro ⟨v', hn', hd'⟩
    obtain ⟨row, _, rfl⟩ := List.mem_map.1 (List.mem_of_getElem? hn')
    cases hd'
  have habort : ∀ t' w w', w.abort t' = some w' → H w' → H w := by
    intro t' w w' hw
    obtain ⟨_, rfl⟩ := abort_cases hw
    exact id
  obtain ⟨j, call', e, hj, he, _, hnew, v', hn', hd'⟩ :=
    hrun.introduced (H := H) h₀ ⟨v, hn, hd⟩ habort
  have hmoves := moves_of_answers (hreach.valid.answers hj e he)
  obtain ⟨hop, u, hu, _, hinserted, hseen⟩ := hmoves.deleted hn' hd' fun u hu hmem =>
    hnew ⟨u, hu, hmem⟩
  have hordered := hreach.ordered (stable_later K delivers handler)
  obtain ⟨u', hu', hs⟩ := ((hordered.answer hj e he).trans (hordered.post hj e he)).version hu
  obtain rfl := Option.some.inj (hn.symm.trans hu')
  refine ⟨j, call', e, hj, he, hop, ?_⟩
  rw [hs.insertedBy]
  exact hseen.1

/-- **What a transaction has deleted is in the log of its call.** -/
theorem deleted_in_log (hreach : (transactions K delivers handler).Reachable (Loaded P) c)
    (howned : ∀ req, Respects Owned ([] : Log (txCommands α) ε (Versioned α)) (handler req))
    (hi : c.calls[i]? = some call) (hsaw : Log.Saw (S := txCommands α) call.log .connect (.ok t))
    (hn : c.world.versions[n]? = some v) (hd : t ∈ v.deletedBy) :
    ∃ e ∈ call.log, e.op = .delete t n := by
  obtain ⟨j, call', e, hj, he, hop, _⟩ := deleted_event hreach hn hd
  obtain ⟨l, howns, hl⟩ := hreach.valid.respected howned hj he
  have hsaw' := (howns t (by rw [hop]; rfl)).mono ((List.suffix_cons e l).trans hl)
  obtain rfl := owner_unique hreach hi hj hsaw hsaw'
  obtain rfl := Option.some.inj (hi.symm.trans hj)
  exact ⟨e, he, hop⟩

/-! ### Transactions that replace rows -/

/-- The log of a call that has deleted in transaction `t` what it has found, and inserted
`rows` after that. -/
structure Replacement (l : Log (txCommands α) ε (Versioned α)) (t : ℕ) (found : List ℕ)
    (rows : List α) : Prop where
  connect : Log.Saw (S := txCommands α) l .connect (.ok t)
  scan : ∃ m pre p post, (⟨m, pre, .scan t p, .ok found, post⟩ :
    Event (txCommands α) ε (Versioned α)) ∈ l ∧
    (∀ n ∈ found, ∃ m' pre' post', m < m' ∧ (⟨m', pre', .delete t n, .ok (), post'⟩ :
      Event (txCommands α) ε (Versioned α)) ∈ l) ∧
    ∀ row ∈ rows, ∃ m' pre' post', m < m' ∧ (⟨m', pre', .insert t row, .ok (), post'⟩ :
      Event (txCommands α) ε (Versioned α)) ∈ l
  deletes : ∀ e ∈ l, ∀ n, e.op = .delete t n → n ∈ found
  inserts : ∀ e ∈ l, ∀ row, e.op = .insert t row → row ∈ rows

/-- A row that stands and that a transaction has not found. -/
def Unseen (db : Versioned α) (found : List ℕ) (row : α) : Prop :=
  ∃ (n : ℕ) (v : Version α), db.versions[n]? = some v ∧ n ∉ found ∧ db.Stands v ∧ v.row = row

omit [DecidableEq α] in
theorem unseen_iff {db : Versioned α} {found : List ℕ} {row : α} : Unseen db found row ↔
    ∃ n ∈ List.range db.versions.length, ∃ v ∈ db.versions[n]?,
      n ∉ found ∧ db.Stands v ∧ v.row = row := by
  constructor
  · rintro ⟨n, v, hn, hunseen⟩
    exact ⟨n, List.mem_range.2 (List.getElem?_eq_some_iff.1 hn).1, v, hn, hunseen⟩
  · rintro ⟨n, _, v, hn, hunseen⟩
    exact ⟨n, v, hn, hunseen⟩

instance (db : Versioned α) (found : List ℕ) (row : α) :
    Decidable (Unseen db found row) :=
  decidable_of_iff _ unseen_iff.symm

section Replacing

variable {found : List ℕ} {rows : List α}

/-- What has been found is gone. -/
theorem gone_of_found (hreach : (transactions K delivers handler).Reachable (Loaded P) c)
    (hi : c.calls[i]? = some call) (hr : Replacement call.log t found rows)
    (ht : c.world.status t = .active) (hn : n ∈ found) : c.world.Gone t n := by
  obtain ⟨m, pre, p, post, hscan, hdeletes, _⟩ := hr.scan
  obtain ⟨m', pre', post', hlt, hdelete⟩ := hdeletes n hn
  have hordered := hreach.ordered (stable_later K delivers handler)
  obtain ⟨rfl, rfl⟩ := scan_ok (effect_of_mem hreach.valid hi hscan)
  obtain ⟨v, hv, hseen, _⟩ := mem_find.1 hn
  have hlater := hordered.events hi hi _ hscan _ hdelete hlt
  obtain ⟨v', hv', hs⟩ := hlater.version hv
  have hgone := delete_ok (effect_of_mem hreach.valid hi hdelete) fun u hu => by
    obtain rfl := Option.some.inj (hv'.symm.trans hu)
    rw [hs.insertedBy]
    exact hseen.1.imp_right hlater.committed
  have hlength := (hlater.trans (hordered.answer hi _ hdelete)).length_le
  exact hgone.later (hordered.post hi _ hdelete) (by simp [ht])
    ((List.getElem?_eq_some_iff.1 hv).1.trans_le hlength)

/-- What has been inserted is there for its transaction. -/
theorem seen_of_inserted (hreach : (transactions K delivers handler).Reachable (Loaded P) c)
    (howned : ∀ req, Respects Owned ([] : Log (txCommands α) ε (Versioned α)) (handler req))
    (hi : c.calls[i]? = some call) (hr : Replacement call.log t found rows)
    (ht : c.world.status t = .active) (hrow : row ∈ rows) :
    ∃ (n : ℕ) (v : Version α),
      c.world.versions[n]? = some v ∧ c.world.SeenBy t v ∧ v.row = row := by
  obtain ⟨m, pre, p, post, hscan, _, hinserts⟩ := hr.scan
  obtain ⟨m', pre', post', hlt, hinsert⟩ := hinserts row hrow
  have hordered := hreach.ordered (stable_later K delivers handler)
  obtain ⟨rfl, rfl⟩ := scan_ok (effect_of_mem hreach.valid hi hscan)
  obtain ⟨_, rfl, _⟩ := insert_ok (effect_of_mem hreach.valid hi hinsert)
  have hadded : (pre'.add t row).versions[pre'.versions.length]? = some ⟨row, t, none⟩ := by
    simp [Versioned.add]
  obtain ⟨v, hv, hs⟩ := (hordered.post hi _ hinsert).version hadded
  refine ⟨_, v, hv, ⟨.inl hs.insertedBy, fun d hd => ⟨?_, ?_⟩⟩, hs.row⟩
  · rintro rfl
    -- it was not there yet when its transaction looked for what to delete
    obtain ⟨e, he, hop⟩ := deleted_in_log hreach howned hi hr.connect hv hd
    obtain ⟨u, hu, _⟩ := mem_find.1 (hr.deletes e he _ hop)
    have hlength := (hordered.events hi hi _ hscan _ hinsert hlt).length_le
    exact Nat.not_lt.2 hlength (List.getElem?_eq_some_iff.1 hu).1
  · intro hcommitted
    obtain ⟨j, call', e, hj, he, _, hseen⟩ := deleted_event hreach hv hd
    rw [hs.insertedBy] at hseen
    rcases hseen with rfl | hseen
    · rw [ht] at hcommitted
      cases hcommitted
    · have hlater := (hordered.answer hj e he).trans (hordered.post hj e he)
      have hended := hlater.committed hseen
      rw [ht] at hended
      cases hended

/-- **What stands after a replacement**: what it has inserted, and what stood and it had not
found. -/
theorem rows_of_replacement (hreach : (transactions K delivers handler).Reachable (Loaded P) c)
    (howned : ∀ req, Respects Owned ([] : Log (txCommands α) ε (Versioned α)) (handler req))
    (hi : c.calls[i]? = some call) (hr : Replacement call.log t found rows)
    (ht : c.world.status t = .active) :
    row ∈ (c.world.mark t .committed).rows ↔ row ∈ rows ∨ Unseen c.world found row := by
  rw [mem_rows]
  constructor
  · rintro ⟨n, v, hn, hstands, rfl⟩
    have hseen := (stands_commit ht).1 hstands
    by_cases hv : v.insertedBy = t
    · obtain ⟨e, he, hop, _⟩ := inserted_in_log hreach howned hi hr.connect hn hv
      exact .inl (hr.inserts e he _ hop)
    · have hnot : n ∉ found := by
        intro hfound
        obtain ⟨d, hd, hgone⟩ := gone_of_found hreach hi hr ht hfound v hn
        obtain ⟨hne, hcommitted⟩ := hseen.2 d hd
        exact hgone.elim hne hcommitted
      exact .inr ⟨n, v, hn, hnot, ⟨hseen.1.resolve_left hv, fun d hd => (hseen.2 d hd).2⟩, rfl⟩
  · rintro (hrow | ⟨n, v, hn, hnot, hstands, rfl⟩)
    · obtain ⟨n, v, hn, hseen, hv⟩ := seen_of_inserted hreach howned hi hr ht hrow
      exact ⟨n, v, hn, (stands_commit ht).2 hseen, hv⟩
    · refine ⟨n, v, hn, (stands_commit ht).2 ⟨.inr hstands.1, fun d hd => ⟨?_, hstands.2 d hd⟩⟩,
        rfl⟩
      rintro rfl
      obtain ⟨e, he, hop⟩ := deleted_in_log hreach howned hi hr.connect hn hd
      exact hnot (hr.deletes e he n hop)

end Replacing

end Transactions
end Interleaving
end IdentityPlatform
