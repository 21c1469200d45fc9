/-
# Fields of decimal digits

Texts that are written as numbers of a fixed width, each with a mark after it, such as
`2024-05-01T`.  A text that is written so can be read again (`read_render`), and texts of
one format are in the lexicographic order of their numbers, for every order of characters
in which the digits stand as the numbers do (`render_lt`).
-/

import Mathlib.Algebra.Group.Nat.Defs
import Mathlib.Data.List.Lex
import Mathlib.Data.Nat.Notation

namespace IdentityPlatform
namespace Calendar

/-! ### Numbers of a fixed width -/

/-- The character of a digit. -/
def digitChar (d : ℕ) : Char := Char.ofNat (48 + d)

/-- The last `n` decimal digits of `x`. -/
def digits : ℕ → ℕ → List Char
  | 0, _ => []
  | n + 1, x => digits n (x / 10) ++ [digitChar (x % 10)]

/-- The digit a character stands for. -/
def digitValue (c : Char) : Option ℕ :=
  if 48 ≤ c.toNat ∧ c.toNat ≤ 57 then some (c.toNat - 48) else none

/-- The number of a text of digits. -/
def value (cs : List Char) : Option ℕ :=
  cs.foldlM (fun n c => (digitValue c).map (10 * n + ·)) 0

theorem digitValue_digitChar : ∀ d < 10, digitValue (digitChar d) = some d := by decide

@[simp] theorem length_digits (n x : ℕ) : (digits n x).length = n := by
  induction n generalizing x with
  | zero => rfl
  | succ n ih => simp [digits, ih]

/-- **Numbers are read as they are written.** -/
theorem value_digits {n x : ℕ} (h : x < 10 ^ n) : value (digits n x) = some x := by
  induction n generalizing x with
  | zero =>
      obtain rfl : x = 0 := by simpa using h
      rfl
  | succ n ih =>
      have hdigit := digitValue_digitChar (x % 10) (Nat.mod_lt _ (by decide))
      have hfront : value (digits n (x / 10)) = some (x / 10) := ih (by omega)
      rw [value] at hfront
      rw [value, digits, List.foldlM_append, hfront]
      simp [hdigit, Nat.div_add_mod]

/-- The digits stand in an order of characters as the numbers do. -/
def Ascending (key : Char → ℕ) : Prop :=
  ∀ d < 10, ∀ d' < 10, d < d' → key (digitChar d) < key (digitChar d')

section Order

variable {key : Char → ℕ}

/-- What comes after lists of one length does not matter where these differ. -/
theorem append_lt_append {a b s t : List ℕ} (h : a < b) (hlength : a.length = b.length) :
    a ++ s < b ++ t := by
  induction a generalizing b with
  | nil =>
      obtain rfl : b = [] := List.length_eq_zero_iff.1 hlength.symm
      exact absurd h (lt_irrefl _)
  | cons x a ih =>
      cases b with
      | nil => cases hlength
      | cons y b =>
          rcases List.cons_lt_cons_iff.1 h with hxy | ⟨rfl, hab⟩
          · exact List.cons_lt_cons_iff.2 (.inl hxy)
          · exact List.cons_lt_cons_iff.2 (.inr ⟨rfl, ih hab (Nat.succ.inj hlength)⟩)

/-- **Numbers of one width are in the order of their texts.** -/
theorem digits_lt (hkey : Ascending key) {n x y : ℕ} (hlt : x < y) (hy : y < 10 ^ n) :
    (digits n x).map key < (digits n y).map key := by
  induction n generalizing x y with
  | zero => omega
  | succ n ih =>
      rw [digits, digits, List.map_append, List.map_append]
      rcases Nat.lt_or_ge (x / 10) (y / 10) with hfront | hfront
      · exact append_lt_append (ih hfront (by omega)) (by simp)
      · have hsame : x / 10 = y / 10 := by omega
        rw [hsame]
        refine List.append_left_lt (List.cons_lt_cons_iff.2 (.inl ?_))
        exact hkey _ (Nat.mod_lt _ (by decide)) _ (Nat.mod_lt _ (by decide)) (by omega)

end Order

/-! ### Formats -/

/-- A number of `width` digits, and the mark after it. -/
structure Field where
  width : ℕ
  mark : Char
  deriving DecidableEq, Repr

/-- The text of the numbers. -/
def render : List Field → List ℕ → List Char
  | field :: fields, v :: vs => digits field.width v ++ field.mark :: render fields vs
  | _, _ => []

/-- The numbers of a text. -/
def read : List Field → List Char → Option (List ℕ)
  | [], [] => some []
  | [], _ :: _ => none
  | field :: fields, cs =>
      match value (cs.take field.width), cs.drop field.width with
      | some v, mark :: rest => if mark = field.mark then (read fields rest).map (v :: ·) else none
      | _, _ => none

/-- The numbers have the width of their fields. -/
def Fits (fields : List Field) (vs : List ℕ) : Prop :=
  List.Forall₂ (fun field v => v < 10 ^ field.width) fields vs

/-- **What is written is read.** -/
theorem read_render {fields : List Field} {vs : List ℕ} (h : Fits fields vs) :
    read fields (render fields vs) = some vs := by
  induction h with
  | nil => rfl
  | @cons field v fields vs hv _ ih =>
      have htake : (digits field.width v ++ field.mark :: render fields vs).take field.width =
          digits field.width v := List.take_left' (length_digits ..)
      have hdrop : (digits field.width v ++ field.mark :: render fields vs).drop field.width =
          field.mark :: render fields vs := List.drop_left' (length_digits ..)
      rw [render, read, htake, hdrop, value_digits hv]
      simp [ih]

theorem length_render {fields : List Field} {vs ws : List ℕ} (hv : Fits fields vs)
    (hw : Fits fields ws) : (render fields vs).length = (render fields ws).length := by
  induction hv generalizing ws with
  | nil =>
      cases hw
      rfl
  | cons _ _ ih =>
      obtain _ | ⟨_, hws⟩ := hw
      simp [render, ih hws]

/-- **Texts of one format are in the order of their numbers.** -/
theorem render_lt {key : Char → ℕ} (hkey : Ascending key) {fields : List Field} {vs ws : List ℕ}
    (hv : Fits fields vs) (hw : Fits fields ws) (h : vs < ws) :
    (render fields vs).map key < (render fields ws).map key := by
  induction hv generalizing ws with
  | nil =>
      cases hw
      exact absurd h (lt_irrefl _)
  | @cons field v fields vs hv _ ih =>
      obtain _ | ⟨hwv, hws⟩ := hw
      simp only [render, List.map_append, List.map_cons]
      rcases List.cons_lt_cons_iff.1 h with hlt | ⟨rfl, hlt⟩
      · exact append_lt_append (digits_lt hkey hlt hwv) (by simp)
      · exact List.append_left_lt (List.cons_lt_cons_iff.2 (.inr ⟨rfl, ih hws hlt⟩))

end Calendar
end IdentityPlatform
