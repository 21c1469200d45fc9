/-
# Tables as lists of rows

A table is the list of its rows in insertion order, `lookup` reads a row by a
key column, `updateWhere` is `UPDATE … SET … WHERE` and `returning` its
`RETURNING` clause.  Rows are never deleted.

`Changes new old` is one statement on a table: nothing, a row that satisfies
`new` appended, or rows updated along `old`.  What it means for the rows and for
the keys follows from it.  `Carried le` relates two states of a table when every
row of the first is still there in the second, moved along `le`; with distinct
keys that determines which row it is (`Carried.le_of_key`).
-/

import Mathlib.Data.List.Basic
import Mathlib.Data.List.Nodup

namespace IdentityPlatform
namespace Relational

variable {α κ : Type}

/-- The first row whose key is `k`. -/
def lookup [DecidableEq κ] (key : α → κ) (k : κ) (rows : List α) : Option α :=
  rows.find? fun r => key r = k

/-- `UPDATE rows SET f WHERE p`. -/
def updateWhere (p : α → Prop) [DecidablePred p] (f : α → α) (rows : List α) : List α :=
  rows.map fun r => if p r then f r else r

/-- The rows an `UPDATE` returns: those that matched, as they are afterwards. -/
def returning (p : α → Prop) [DecidablePred p] (f : α → α) (rows : List α) : List α :=
  (rows.filter p).map f

section Lookup

variable [DecidableEq κ] {key : α → κ} {k : κ} {rows : List α} {r r' : α}

theorem lookup_mem (h : lookup key k rows = some r) : r ∈ rows := List.mem_of_find?_eq_some h

theorem lookup_key (h : lookup key k rows = some r) : key r = k := by
  simpa using List.find?_some h

/-- With distinct keys a row is what its key looks up. -/
theorem lookup_of_mem (hn : (rows.map key).Nodup) (h : r ∈ rows) :
    lookup key (key r) rows = some r := by
  induction rows with
  | nil => cases h
  | cons a rows ih =>
      rw [List.map_cons, List.nodup_cons] at hn
      rcases List.mem_cons.1 h with rfl | h
      · simp [lookup]
      · have hne : key a ≠ key r := fun he => hn.1 (he ▸ List.mem_map_of_mem h)
        simpa [lookup, hne] using ih hn.2 h

theorem eq_of_key (hn : (rows.map key).Nodup) (h : r ∈ rows) (h' : r' ∈ rows)
    (hk : key r = key r') : r = r' :=
  Option.some.inj ((lookup_of_mem hn h).symm.trans (hk ▸ lookup_of_mem hn h'))

theorem lookup_eq_none (h : lookup key k rows = none) : ∀ r ∈ rows, key r ≠ k := by
  simpa [lookup] using h

end Lookup

section Update

variable {p : α → Prop} [DecidablePred p] {f : α → α} {rows : List α} {r : α}

theorem mem_updateWhere :
    r ∈ updateWhere p f rows ↔ ∃ r' ∈ rows, r = if p r' then f r' else r' := by
  simp [updateWhere, eq_comm]

/-- An `UPDATE` is told by the rows it is about. -/
theorem updateWhere_congr {q : α → Prop} [DecidablePred q] (h : ∀ a ∈ rows, p a ↔ q a) :
    updateWhere p f rows = updateWhere q f rows :=
  List.map_congr_left fun a ha => by simp only [h a ha]

/-- An `UPDATE` that nothing matches changes nothing. -/
theorem updateWhere_of_none (h : ∀ a ∈ rows, ¬p a) : updateWhere p f rows = rows :=
  (List.map_congr_left fun a ha => if_neg (h a ha)).trans (List.map_id' rows)

theorem mem_returning : r ∈ returning p f rows ↔ ∃ r' ∈ rows, p r' ∧ f r' = r := by
  simp [returning, and_assoc]

/-- The first row an `UPDATE` returns. -/
theorem mem_of_returning_head (h : (returning p f rows).head? = some r) :
    ∃ r' ∈ rows, p r' ∧ f r' = r :=
  mem_returning.1 (List.mem_of_mem_head? h)

/-- An `UPDATE` that returns nothing has matched nothing. -/
theorem not_of_returning_head (h : (returning p f rows).head? = none) : ∀ a ∈ rows, ¬p a := by
  intro a ha hpa
  have hmem : f a ∈ returning p f rows := mem_returning.2 ⟨a, ha, hpa, rfl⟩
  rw [List.head?_eq_none_iff.1 h] at hmem
  cases hmem

/-- An `UPDATE` of the row with a key that nothing matches returns nothing. -/
theorem returning_of_none [DecidableEq κ] {key : α → κ} {k : κ} (hp : ∀ a, p a → key a = k)
    (h : lookup key k rows = none) : returning p f rows = [] := by
  have hnone : rows.filter p = [] := List.filter_eq_nil_iff.2 fun a ha hpa =>
    lookup_eq_none h a ha (hp a (of_decide_eq_true hpa))
  rw [returning, hnone, List.map_nil]

/-- An `UPDATE` of the row with a key returns that row if it matches. -/
theorem returning_of_lookup [DecidableEq κ] {key : α → κ} {k : κ} (hp : ∀ a, p a → key a = k)
    (hn : (rows.map key).Nodup) (h : lookup key k rows = some r) :
    (returning p f rows).head? = if p r then some (f r) else none := by
  cases hhead : (returning p f rows).head? with
  | none => rw [if_neg (not_of_returning_head hhead r (lookup_mem h))]
  | some b =>
      obtain ⟨a, ha, hpa, rfl⟩ := mem_of_returning_head hhead
      obtain rfl : a = r := eq_of_key hn ha (lookup_mem h) ((hp a hpa).trans (lookup_key h).symm)
      rw [if_pos hpa]

end Update

/-- What one statement does to a table. -/
inductive Changes (new : α → Prop) (old : α → α → Prop) (rows : List α) : List α → Prop
  | same : Changes new old rows rows
  | append {r : α} (h : new r) : Changes new old rows (rows ++ [r])
  | update (p : α → Prop) [DecidablePred p] (f : α → α) (h : ∀ r ∈ rows, p r → old r (f r)) :
      Changes new old rows (updateWhere p f rows)

/-- Every row of `rows` is still there in `rows'`, moved along `le`. -/
def Carried (le : α → α → Prop) (rows rows' : List α) : Prop :=
  ∀ r ∈ rows, ∃ r' ∈ rows', le r r'

namespace Changes

variable {new : α → Prop} {old : α → α → Prop} {rows rows' : List α} {key : α → κ}

/-- A row after the statement is one from before, as it was or updated, or it is
the new one. -/
theorem mem_cases (h : Changes new old rows rows') {r' : α} (hr : r' ∈ rows') :
    (∃ r ∈ rows, r' = r ∨ old r r') ∨ new r' := by
  cases h with
  | same => exact .inl ⟨r', hr, .inl rfl⟩
  | append h =>
      rcases List.mem_append.1 hr with hr | hr
      · exact .inl ⟨r', hr, .inl rfl⟩
      · exact .inr (List.mem_singleton.1 hr ▸ h)
  | update p f h =>
      obtain ⟨r, hmem, rfl⟩ := mem_updateWhere.1 hr
      refine .inl ⟨r, hmem, ?_⟩
      split_ifs with hp
      · exact .inr (h r hmem hp)
      · exact .inl rfl

/-- A row from before is still there, as it was or updated. -/
theorem mem_of_mem (h : Changes new old rows rows') {r : α} (hr : r ∈ rows) :
    ∃ r' ∈ rows', r' = r ∨ old r r' := by
  cases h with
  | same => exact ⟨r, hr, .inl rfl⟩
  | append _ => exact ⟨r, List.mem_append_left _ hr, .inl rfl⟩
  | update p f h =>
      refine ⟨_, mem_updateWhere.2 ⟨r, hr, rfl⟩, ?_⟩
      split_ifs with hp
      · exact .inr (h r hr hp)
      · exact .inl rfl

theorem carried (h : Changes new old rows rows') {le : α → α → Prop} (hrefl : ∀ r, le r r)
    (hold : ∀ r ∈ rows, ∀ r', old r r' → le r r') : Carried le rows rows' := by
  intro r hr
  obtain ⟨r', hr', heq | ho⟩ := h.mem_of_mem hr
  · exact ⟨r', hr', heq ▸ hrefl r⟩
  · exact ⟨r', hr', hold r hr r' ho⟩

/-- The values of a column that updates keep: those from before, and perhaps
that of the new row. -/
theorem map_eq {β : Type} {g : α → β} (h : Changes new old rows rows')
    (hold : ∀ r ∈ rows, ∀ r', old r r' → g r' = g r) :
    rows'.map g = rows.map g ∨ ∃ r, new r ∧ rows'.map g = rows.map g ++ [g r] := by
  cases h with
  | same => exact .inl rfl
  | append h => exact .inr ⟨_, h, by simp⟩
  | update p f h =>
      refine .inl ?_
      simp only [updateWhere, List.map_map]
      refine List.map_congr_left fun r hr => ?_
      simp only [Function.comp_apply]
      split_ifs with hp
      · exact hold r hr _ (h r hr hp)
      · rfl

/-- A unique column stays unique when a new row has a new value in it. -/
theorem nodup (h : Changes new old rows rows') (hn : (rows.map key).Nodup)
    (hold : ∀ r ∈ rows, ∀ r', old r r' → key r' = key r)
    (hnew : ∀ r, new r → key r ∉ rows.map key) : (rows'.map key).Nodup := by
  rcases h.map_eq hold with he | ⟨r, hr, he⟩
  · rwa [he]
  · rw [he]
    exact hn.append (List.nodup_singleton _) (by simpa using hnew r hr)

end Changes

namespace Carried

variable {le : α → α → Prop} {rows rows' rows'' : List α} {key : α → κ}

theorem refl (h : ∀ r, le r r) (rows : List α) : Carried le rows rows := fun r hr => ⟨r, hr, h r⟩

theorem trans (h : ∀ {r r' r''}, le r r' → le r' r'' → le r r'') (h₁ : Carried le rows rows')
    (h₂ : Carried le rows' rows'') : Carried le rows rows'' := by
  intro r hr
  obtain ⟨r', hr', hl⟩ := h₁ r hr
  obtain ⟨r'', hr'', hl'⟩ := h₂ r' hr'
  exact ⟨r'', hr'', h hl hl'⟩

/-- **A row is found again by its key**, and it has moved along `le`. -/
theorem le_of_key [DecidableEq κ] (h : Carried le rows rows') (hn : (rows'.map key).Nodup)
    (hkey : ∀ {r r'}, le r r' → key r' = key r) {r r' : α} (hr : r ∈ rows) (hr' : r' ∈ rows')
    (hk : key r' = key r) : le r r' := by
  obtain ⟨r'', hr'', hl⟩ := h r hr
  rwa [eq_of_key hn hr' hr'' (hk.trans (hkey hl).symm)]

end Carried

end Relational
end IdentityPlatform
