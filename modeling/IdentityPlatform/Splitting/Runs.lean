/-
# Runs between separators

The maximal runs of a list without separators, and their joining.  A list of
non-empty runs that is joined with separators is found again.
-/

import Mathlib.Data.List.DropRight
import Mathlib.Data.List.Infix

namespace Splitting

variable {α : Type*} {sep sep' : α → Bool} {a : α} {l run part glue : List α} {rs : List (List α)}

/-- Put an element that is no separator in front of a list with the given runs. -/
def extend (sep : α → Bool) (a : α) : List α → List (List α) → List (List α)
  | b :: _, run :: rs => if sep b then [a] :: run :: rs else (a :: run) :: rs
  | _, rs => [a] :: rs

/-- The maximal runs of elements that are no separators. -/
def runs (sep : α → Bool) : List α → List (List α)
  | [] => []
  | a :: l => if sep a then runs sep l else extend sep a l (runs sep l)

/-- A run: not empty, and without separators. -/
structure IsRun (sep : α → Bool) (run : List α) : Prop where
  ne_nil : run ≠ []
  clear : ∀ a ∈ run, sep a = false

theorem IsRun.mono (h : IsRun sep' run) (hsep : ∀ a, sep a = true → sep' a = true) :
    IsRun sep run :=
  ⟨h.ne_nil, fun a ha => Bool.eq_false_iff.2 fun hs => by
    have hclear := h.clear a ha
    rw [hsep a hs] at hclear
    cases hclear⟩

theorem runs_cons_sep (h : sep a = true) : runs sep (a :: l) = runs sep l := by
  rw [runs, if_pos h]

/-- Every run is one. -/
theorem isRun_of_mem (h : run ∈ runs sep l) : IsRun sep run := by
  induction l generalizing run with
  | nil => cases h
  | cons a l ih =>
      rw [runs] at h
      split_ifs at h with ha
      · exact ih h
      · have hone : IsRun sep [a] := ⟨by simp, by simpa using ha⟩
        unfold extend at h
        split at h
        · rename_i b l' run' rs hrs
          have hrun := ih (hrs ▸ List.mem_cons_self ..)
          split_ifs at h with hb
          · rcases List.mem_cons.1 h with rfl | h
            · exact hone
            · exact ih (hrs ▸ h)
          · rcases List.mem_cons.1 h with rfl | h
            · exact ⟨by simp, by simpa [ha] using hrun.clear⟩
            · exact ih (hrs ▸ List.mem_cons_of_mem _ h)
        · rcases List.mem_cons.1 h with rfl | h
          · exact hone
          · exact ih h

/-- The run a list begins with is its beginning. -/
theorem prefix_of_runs_cons (h : runs sep l = run :: rs) (hl : ∀ b ∈ l.head?, sep b = false) :
    run <+: l := by
  induction l generalizing run rs with
  | nil => cases h
  | cons a l ih =>
      have ha : sep a = false := hl a rfl
      rw [runs, if_neg (by simp [ha])] at h
      have hone : [a] <+: a :: l := ⟨l, rfl⟩
      unfold extend at h
      split at h
      · rename_i b l' run' rs' hrs
        split_ifs at h with hb
        · obtain ⟨rfl, _⟩ := List.cons.inj h
          exact hone
        · obtain ⟨rfl, _⟩ := List.cons.inj h
          exact List.prefix_cons_inj a |>.2
            (ih hrs fun x hx => by simpa [← Option.some.inj hx] using hb)
      · obtain ⟨rfl, _⟩ := List.cons.inj h
        exact hone

/-- A run is a part of its list. -/
theorem infix_of_mem_runs (h : run ∈ runs sep l) : run <:+: l := by
  induction l generalizing run with
  | nil => cases h
  | cons a l ih =>
      by_cases ha : sep a = true
      · rw [runs_cons_sep ha] at h
        exact List.infix_cons (ih h)
      · have hfirst : ∀ rs, runs sep (a :: l) = run :: rs → run <:+: a :: l := fun rs hrs =>
          (prefix_of_runs_cons hrs fun b hb => by simpa [← Option.some.inj hb] using ha).isInfix
        rw [runs, if_neg ha] at h
        unfold extend at h
        split at h
        · rename_i b l' run' rs' hrs
          split_ifs at h with hb
          · rcases List.mem_cons.1 h with rfl | h
            · exact (List.prefix_append [a] _).isInfix
            · exact List.infix_cons (ih (hrs ▸ h))
          · rcases List.mem_cons.1 h with rfl | h
            · refine hfirst rs' ?_
              rw [runs, if_neg ha, extend.eq_def, hrs]
              simp [hb]
            · exact List.infix_cons (ih (hrs ▸ List.mem_cons_of_mem _ h))
        · rcases List.mem_cons.1 h with rfl | h
          · exact (List.prefix_append [a] _).isInfix
          · exact List.infix_cons (ih h)

/-- A run is a part of a run of the longer list. -/
theorem exists_run_cons (h : run ∈ runs sep l) : ∃ run' ∈ runs sep (a :: l), run <:+: run' := by
  by_cases ha : sep a = true
  · rw [runs_cons_sep ha]
    exact ⟨run, h, List.infix_rfl⟩
  · rw [runs, if_neg ha]
    unfold extend
    split
    · rename_i b l' run' rs hrs
      rw [hrs] at h
      split_ifs
      · exact ⟨run, List.mem_cons_of_mem _ h, List.infix_rfl⟩
      · rcases List.mem_cons.1 h with rfl | h
        · exact ⟨_, List.mem_cons_self .., List.infix_cons List.infix_rfl⟩
        · exact ⟨run, List.mem_cons_of_mem _ h, List.infix_rfl⟩
    · exact ⟨run, List.mem_cons_of_mem _ h, List.infix_rfl⟩

/-- A beginning without separators is in the first run. -/
theorem exists_run_of_prefix (hpart : IsRun sep part) (h : part <+: l) :
    ∃ run ∈ (runs sep l).head?, part <+: run := by
  induction l generalizing part with
  | nil => exact absurd (List.prefix_nil.1 h) hpart.ne_nil
  | cons a l ih =>
      cases part with
      | nil => exact absurd rfl hpart.ne_nil
      | cons b part =>
          obtain ⟨rfl, hback⟩ := List.cons_prefix_cons.1 h
          have hb : sep b = false := hpart.clear b (List.mem_cons_self ..)
          rw [runs, if_neg (by simp [hb])]
          cases part with
          | nil =>
              unfold extend
              split
              · split_ifs <;> exact ⟨_, rfl, by simp⟩
              · exact ⟨_, rfl, List.prefix_rfl⟩
          | cons d part =>
              have hrest : IsRun sep (d :: part) :=
                ⟨by simp, fun x hx => hpart.clear x (List.mem_cons_of_mem _ hx)⟩
              obtain ⟨run, hrun, hstart⟩ := ih hrest hback
              obtain ⟨tail, rfl⟩ := hback
              obtain ⟨rs, hrs⟩ := List.head?_eq_some_iff.1 hrun
              rw [hrs, List.cons_append, extend, if_neg (by simp [hrest.clear d])]
              exact ⟨_, rfl, List.prefix_cons_inj b |>.2 hstart⟩

/-- **A part without separators is in a list if and only if it is in one of its runs.** -/
theorem infix_iff_exists_run (hpart : IsRun sep part) :
    part <:+: l ↔ ∃ run ∈ runs sep l, part <:+: run := by
  constructor
  · intro h
    induction l with
    | nil => exact absurd (List.infix_nil.1 h) hpart.ne_nil
    | cons a l ih =>
        rcases List.infix_cons_iff.1 h with h | h
        · obtain ⟨run, hrun, hstart⟩ := exists_run_of_prefix hpart h
          exact ⟨run, List.mem_of_head? hrun, hstart.isInfix⟩
        · obtain ⟨run, hrun, hinfix⟩ := ih h
          obtain ⟨run', hrun', hinfix'⟩ := exists_run_cons hrun
          exact ⟨run', hrun', hinfix.trans hinfix'⟩
  · rintro ⟨run, hrun, hinfix⟩
    exact hinfix.trans (infix_of_mem_runs hrun)

/-- What is no separator is in a run. -/
theorem mem_runs (ha : a ∈ l) (hsep : sep a = false) : ∃ run ∈ runs sep l, a ∈ run := by
  induction l with
  | nil => cases ha
  | cons b l ih =>
      have hrest : a ∈ l → ∃ run ∈ runs sep (b :: l), a ∈ run := by
        intro ha
        obtain ⟨run, hrun, hmem⟩ := ih ha
        rw [runs]
        split_ifs
        · exact ⟨run, hrun, hmem⟩
        · unfold extend
          split
          · rename_i d l' run' rs hruns
            rw [hruns] at hrun
            split_ifs
            · exact ⟨run, List.mem_cons_of_mem _ hrun, hmem⟩
            · rcases List.mem_cons.1 hrun with rfl | hrun
              · exact ⟨_, List.mem_cons_self .., List.mem_cons_of_mem _ hmem⟩
              · exact ⟨run, List.mem_cons_of_mem _ hrun, hmem⟩
          · exact ⟨run, List.mem_cons_of_mem _ hrun, hmem⟩
      rcases List.mem_cons.1 ha with rfl | ha
      · rw [runs, if_neg (by simp [hsep])]
        unfold extend
        split
        · split_ifs
          · exact ⟨[a], List.mem_cons_self .., List.mem_cons_self ..⟩
          · exact ⟨_, List.mem_cons_self .., List.mem_cons_self ..⟩
        · exact ⟨[a], List.mem_cons_self .., List.mem_cons_self ..⟩
      · exact hrest ha

/-- A run at the front is split off where a separator or nothing follows. -/
theorem runs_append (hrun : IsRun sep run) (hl : ∀ b ∈ l.head?, sep b = true) :
    runs sep (run ++ l) = run :: runs sep l := by
  induction run with
  | nil => exact absurd rfl hrun.ne_nil
  | cons a run ih =>
      have ha : sep a = false := hrun.clear a (List.mem_cons_self ..)
      rw [List.cons_append, runs, if_neg (by simp [ha])]
      cases run with
      | nil =>
          cases l with
          | nil => rfl
          | cons b l =>
              have hb : sep b = true := hl b rfl
              cases hruns : runs sep (b :: l) <;> simp [extend, hruns, hb]
      | cons b run =>
          have hb : sep b = false := hrun.clear b (by simp)
          have hrest := ih ⟨by simp, fun x hx => hrun.clear x (List.mem_cons_of_mem _ hx)⟩
          rw [List.cons_append] at hrest ⊢
          simp [hrest, extend, hb]

/-- Separators at the front make no run. -/
theorem runs_glue (hglue : ∀ a ∈ glue, sep a = true) : runs sep (glue ++ l) = runs sep l := by
  induction glue with
  | nil => rfl
  | cons a glue ih =>
      rw [List.cons_append, runs_cons_sep (hglue a (List.mem_cons_self ..))]
      exact ih fun x hx => hglue x (List.mem_cons_of_mem _ hx)

/-- Separators at the end make no run. -/
theorem runs_append_glue (hglue : ∀ a ∈ glue, sep a = true) :
    runs sep (l ++ glue) = runs sep l := by
  have hnone : runs sep glue = [] := by simpa [runs] using runs_glue (l := []) hglue
  induction l with
  | nil => exact hnone
  | cons a l ih =>
      have hextend : extend sep a (l ++ glue) (runs sep l) = extend sep a l (runs sep l) := by
        cases l with
        | nil => cases glue <;> rfl
        | cons b l => cases runs sep (b :: l) <;> rfl
      rw [List.cons_append, runs, ih, hextend, ← runs]

/-- Separators around a list make no runs. -/
theorem runs_trim {p : α → Bool} (h : ∀ a, p a = true → sep a = true) :
    runs sep ((l.dropWhile p).rdropWhile p) = runs sep l := by
  have hback : runs sep ((l.dropWhile p).rdropWhile p) = runs sep (l.dropWhile p) := by
    have hglue : ∀ a ∈ (l.dropWhile p).rtakeWhile p, sep a = true :=
      fun a ha => h a (List.mem_rtakeWhile_imp ha)
    rw [← runs_append_glue hglue, List.rdropWhile_append_rtakeWhile]
  have hfront : runs sep (l.dropWhile p) = runs sep l := by
    have hglue : ∀ a ∈ l.takeWhile p, sep a = true :=
      fun a ha => h a (List.mem_takeWhile_imp ha)
    rw [← runs_glue hglue, List.takeWhile_append_dropWhile]
  exact hback.trans hfront

/-- **Joined runs are found again.** -/
theorem runs_intercalate (hne : glue ≠ []) (hglue : ∀ a ∈ glue, sep a = true)
    (hrs : ∀ run ∈ rs, IsRun sep run) : runs sep (glue.intercalate rs) = rs := by
  induction rs with
  | nil => rfl
  | cons run rs ih =>
      have hrun := hrs run (List.mem_cons_self ..)
      have hrest := ih fun r hr => hrs r (List.mem_cons_of_mem _ hr)
      cases rs with
      | nil =>
          have hone := runs_append hrun (l := []) (by simp)
          simpa [List.intercalate, runs] using hone
      | cons run' rs =>
          rw [List.intercalate_cons_cons, List.append_assoc, runs_append hrun,
            runs_glue hglue, hrest]
          intro b hb
          cases glue with
          | nil => exact absurd rfl hne
          | cons g glue =>
              obtain rfl : g = b := by simpa using hb
              exact hglue g (List.mem_cons_self ..)

/-- Only the separators in the list matter. -/
theorem runs_congr (h : ∀ a ∈ l, sep a = sep' a) : runs sep l = runs sep' l := by
  induction l with
  | nil => rfl
  | cons a l ih =>
      have hrest := ih fun x hx => h x (List.mem_cons_of_mem _ hx)
      have hextend : extend sep a l (runs sep' l) = extend sep' a l (runs sep' l) := by
        cases l with
        | nil => rfl
        | cons b l => cases runs sep' (b :: l) <;> simp [extend, h b]
      rw [runs, runs, h a (List.mem_cons_self ..), hrest, hextend]

end Splitting
