/-
# Timestamps

The proleptic Gregorian calendar from 1970 on, as ECMAScript computes with it: a time is a
number of milliseconds, `dayFromYear` the number of the first day of a year, and a day is
split into its year, month and day of the month (`fields`).  `toISOString` is
`Date.prototype.toISOString`, which writes years from 10000 on with a sign and six digits,
and `parseISO` reads these texts again.

The text of a time is found again (`parseISO_toISOString`), and for every order of characters
in which digits ascend, texts are in the order of their times as long as their years have the
same width (`toISOString_lt`).
-/

import IdentityPlatform.Calendar.Fields
import Mathlib.Data.Nat.Find
import Mathlib.Tactic.Linarith

namespace IdentityPlatform
namespace Calendar

/-! ### Years -/

/-- `DayFromYear`. -/
def dayFromYear (y : ℕ) : ℕ :=
  365 * (y - 1970) + (y - 1969) / 4 + (y - 1601) / 400 - (y - 1901) / 100

/-- `InLeapYear`. -/
def isLeap (y : ℕ) : Bool := (y % 4 = 0 && y % 100 ≠ 0) || y % 400 = 0

/-- The number of days of each month. -/
def monthLengths (y : ℕ) : List ℕ :=
  [31, if isLeap y then 29 else 28, 31, 30, 31, 30, 31, 31, 30, 31, 30, 31]

/-- `YearFromTime`: the last year that has begun. -/
def yearOfDay (day : ℕ) : ℕ := Nat.findGreatest (fun y => dayFromYear y ≤ day) (1970 + day / 365)

/-- **A year is as long as its months.** -/
theorem dayFromYear_succ {y : ℕ} (h : 1970 ≤ y) :
    dayFromYear (y + 1) = dayFromYear y + (monthLengths y).sum := by
  have hsum : (monthLengths y).sum = if isLeap y then 366 else 365 := by
    unfold monthLengths
    cases isLeap y <;> rfl
  have hstep (n k : ℕ) (hk : k ≤ y) (hn : n ∣ y - k + 1 ↔ y % n = 0) :
      (y + 1 - k) / n = (y - k) / n + if y % n = 0 then 1 else 0 := by
    rw [Nat.succ_sub hk, Nat.succ_div]
    simp only [hn]
  have hfour := hstep 4 1969 (by omega) (by omega)
  have hcentury := hstep 100 1901 (by omega) (by omega)
  have hfourth := hstep 400 1601 (by omega) (by omega)
  have hless : (y - 1901) / 100 ≤ (y - 1969) / 4 + 365 * (y - 1970) := by omega
  have hyears : 365 * (y + 1 - 1970) = 365 * (y - 1970) + 365 := by omega
  rw [hsum, dayFromYear, dayFromYear, hfour, hcentury, hfourth, hyears]
  unfold isLeap
  by_cases h4 : y % 4 = 0 <;> by_cases h100 : y % 100 = 0 <;> by_cases h400 : y % 400 = 0 <;>
    simp [h4, h100, h400] <;> omega

theorem dayFromYear_lt {y : ℕ} (h : 1970 ≤ y) : dayFromYear y + 365 ≤ dayFromYear (y + 1) := by
  unfold dayFromYear
  omega

/-- Years begin one after the other. -/
theorem dayFromYear_mono {y y' : ℕ} (hy : 1970 ≤ y) (h : y ≤ y') :
    dayFromYear y ≤ dayFromYear y' := by
  induction y', h using Nat.le_induction with
  | base => exact le_rfl
  | succ n hn ih =>
      exact ih.trans (le_trans (Nat.le_add_right _ 365) (dayFromYear_lt (hy.trans hn)))

theorem yearOfDay_le (day : ℕ) : 1970 ≤ yearOfDay day ∧ dayFromYear (yearOfDay day) ≤ day := by
  have hstart : dayFromYear 1970 ≤ day := Nat.zero_le _
  exact ⟨Nat.le_findGreatest (Nat.le_add_right ..) hstart,
    Nat.findGreatest_spec (P := fun y => dayFromYear y ≤ day) (Nat.le_add_right ..) hstart⟩

/-- **A day is in its year.** -/
theorem lt_next_year (day : ℕ) : day < dayFromYear (yearOfDay day + 1) := by
  by_contra hle
  have hbegun : dayFromYear (yearOfDay day + 1) ≤ day := Nat.le_of_not_lt hle
  have hbound : yearOfDay day + 1 ≤ 1970 + day / 365 := by
    have hyear := (yearOfDay_le day).1
    unfold dayFromYear at hbegun
    omega
  exact absurd (Nat.le_findGreatest (P := fun y => dayFromYear y ≤ day) hbound hbegun)
    (Nat.not_succ_le_self _)

/-- The year of a day is the one it lies in. -/
theorem yearOfDay_lt_iff {day y : ℕ} (hy : 1970 ≤ y) : yearOfDay day < y ↔ day < dayFromYear y := by
  constructor
  · intro h
    have hmono := dayFromYear_mono ((yearOfDay_le day).1.trans (Nat.le_succ _)) h
    exact (lt_next_year day).trans_le hmono
  · intro h
    by_contra hle
    have hmono := dayFromYear_mono hy (Nat.le_of_not_lt hle)
    exact absurd (hmono.trans (yearOfDay_le day).2) (Nat.not_le_of_lt h)

theorem yearOfDay_mono {day day' : ℕ} (h : day ≤ day') : yearOfDay day ≤ yearOfDay day' := by
  by_contra hlt
  have hbefore := (yearOfDay_lt_iff (yearOfDay_le day).1).1 (Nat.lt_of_not_le hlt)
  exact absurd (((yearOfDay_le day).2.trans h)) (Nat.not_le_of_lt hbefore)

/-! ### Parts of a whole -/

/-- The part of a whole that `x` lies in, when its parts have these lengths, and where in it. -/
def locate : List ℕ → ℕ → ℕ × ℕ
  | [], x => (0, x)
  | n :: ns, x => if x < n then (0, x) else ((locate ns (x - n)).1 + 1, (locate ns (x - n)).2)

/-- **A place is the parts before it and the place in its part.** -/
theorem sum_locate (ns : List ℕ) (x : ℕ) : (ns.take (locate ns x).1).sum + (locate ns x).2 = x := by
  induction ns generalizing x with
  | nil => simp [locate]
  | cons n ns ih =>
      by_cases h : x < n
      · simp [locate, h]
      · simp only [locate, h, if_false, List.take_succ_cons, List.sum_cons]
        have hrest := ih (x - n)
        omega

/-- A place in the whole is in a part. -/
theorem locate_lt {ns : List ℕ} {x : ℕ} (h : x < ns.sum) : (locate ns x).1 < ns.length ∧
    ∃ n ∈ ns, (locate ns x).2 < n := by
  induction ns generalizing x with
  | nil => exact absurd h (Nat.not_lt_zero _)
  | cons n ns ih =>
      rw [List.sum_cons] at h
      by_cases hx : x < n
      · simp only [locate, if_pos hx]
        exact ⟨Nat.succ_pos _, n, List.mem_cons_self .., hx⟩
      · obtain ⟨hpart, m, hm, hplace⟩ := ih (x := x - n) (by omega)
        simp only [locate, if_neg hx]
        exact ⟨Nat.succ_lt_succ hpart, m, List.mem_cons_of_mem _ hm, hplace⟩

/-- Places are in the order of their parts, and in one part of where they are in it. -/
theorem locate_mono (ns : List ℕ) {x y : ℕ} (h : x < y) : (locate ns x).1 < (locate ns y).1 ∨
    (locate ns x).1 = (locate ns y).1 ∧ (locate ns x).2 < (locate ns y).2 := by
  induction ns generalizing x y with
  | nil => exact .inr ⟨rfl, h⟩
  | cons n ns ih =>
      by_cases hx : x < n <;> by_cases hy : y < n
      · simp [locate, hx, hy, h]
      · simp [locate, hx, hy]
      · exact absurd (h.trans hy) hx
      · have hrest := ih (x := x - n) (y := y - n) (by omega)
        simpa [locate, hx, hy] using hrest

/-! ### Times -/

/-- The milliseconds of a day. -/
def msPerDay : ℕ := 86400000

/-- Year, month, day of the month, hour, minute, second and millisecond of a time. -/
def fields (t : ℕ) : List ℕ :=
  let day := t / msPerDay
  let year := yearOfDay day
  let date := locate (monthLengths year) (day - dayFromYear year)
  let ms := t % msPerDay
  [year, date.1 + 1, date.2 + 1, ms / 3600000, ms / 60000 % 60, ms / 1000 % 60, ms % 1000]

/-- The time of these fields. -/
def timeOf : List ℕ → Option ℕ
  | [year, month, day, hour, minute, second, ms] =>
      some ((dayFromYear year + ((monthLengths year).take (month - 1)).sum + (day - 1)) * msPerDay +
        hour * 3600000 + minute * 60000 + second * 1000 + ms)
  | _ => none

/-- **A time is found again from its fields.** -/
theorem timeOf_fields (t : ℕ) : timeOf (fields t) = some t := by
  have hyear := (yearOfDay_le (t / msPerDay)).2
  have hdate := sum_locate (monthLengths (yearOfDay (t / msPerDay)))
    (t / msPerDay - dayFromYear (yearOfDay (t / msPerDay)))
  simp only [fields, timeOf, Nat.add_sub_cancel, Option.some.injEq]
  have hday : dayFromYear (yearOfDay (t / msPerDay)) +
      ((monthLengths (yearOfDay (t / msPerDay))).take
        (locate (monthLengths (yearOfDay (t / msPerDay)))
        (t / msPerDay - dayFromYear (yearOfDay (t / msPerDay)))).1).sum +
      (locate (monthLengths (yearOfDay (t / msPerDay)))
        (t / msPerDay - dayFromYear (yearOfDay (t / msPerDay)))).2 = t / msPerDay := by omega
  rw [hday]
  unfold msPerDay
  omega

/-- **Fields are in the order of their times.** -/
theorem fields_lt {t t' : ℕ} (h : t < t') : fields t < fields t' := by
  simp only [fields]
  have hday : t / msPerDay ≤ t' / msPerDay := Nat.div_le_div_right h.le
  rcases Nat.lt_or_ge (yearOfDay (t / msPerDay)) (yearOfDay (t' / msPerDay)) with hyear | hyear
  · exact List.cons_lt_cons_iff.2 (.inl hyear)
  have hyears : yearOfDay (t / msPerDay) = yearOfDay (t' / msPerDay) :=
    le_antisymm (yearOfDay_mono hday) hyear
  refine List.cons_lt_cons_iff.2 (.inr ⟨hyears, ?_⟩)
  rw [hyears]
  rcases Nat.lt_or_eq_of_le hday with hlt | heq
  · have hbegun := (yearOfDay_le (t / msPerDay)).2
    rw [hyears] at hbegun
    rcases locate_mono (monthLengths (yearOfDay (t' / msPerDay)))
        (show t / msPerDay - dayFromYear (yearOfDay (t' / msPerDay)) <
          t' / msPerDay - dayFromYear (yearOfDay (t' / msPerDay)) by omega) with
        hmonth | ⟨hmonth, hdate⟩
    · exact List.cons_lt_cons_iff.2 (.inl (Nat.succ_lt_succ hmonth))
    · refine List.cons_lt_cons_iff.2 (.inr ⟨by rw [hmonth], ?_⟩)
      exact List.cons_lt_cons_iff.2 (.inl (Nat.succ_lt_succ hdate))
  · rw [heq]
    refine List.cons_lt_cons_iff.2 (.inr ⟨rfl, List.cons_lt_cons_iff.2 (.inr ⟨rfl, ?_⟩)⟩)
    have hms : t % msPerDay < t' % msPerDay := by
      have h₁ := Nat.div_add_mod t msPerDay
      have h₂ := Nat.div_add_mod t' msPerDay
      rw [heq] at h₁
      omega
    simp only [List.cons_lt_cons_iff, List.not_lt_nil, and_false, or_false]
    omega

/-! ### Texts -/

/-- The fields after the year. -/
def monthToMs : List Field := [⟨2, '-'⟩, ⟨2, 'T'⟩, ⟨2, ':'⟩, ⟨2, ':'⟩, ⟨2, '.'⟩, ⟨3, 'Z'⟩]

/-- `YYYY-MM-DDTHH:mm:ss.sssZ`. -/
def isoFormat : List Field := ⟨4, '-'⟩ :: monthToMs

/-- What comes after the sign in the text of a year from 10000 on. -/
def expandedFormat : List Field := ⟨6, '-'⟩ :: monthToMs

/-- The last time ECMAScript knows. -/
def maxTime : ℕ := 8640000000000000

/-- The beginning of the year 10000. -/
def year10000 : ℕ := 253402300800000

/-- `Date.prototype.toISOString`; there is none for a time that is too late. -/
def toISOString (t : ℕ) : Option (List Char) :=
  if maxTime < t then none
  else if t < year10000 then some (render isoFormat (fields t))
  else some ('+' :: render expandedFormat (fields t))

/-- `new Date(text).getTime()`, for the texts of `toISOString`. -/
def parseISO : List Char → Option ℕ
  | '+' :: cs => (read expandedFormat cs).bind timeOf
  | cs => (read isoFormat cs).bind timeOf

/-- Month, day and time of day have their width. -/
theorem fields_fit {t n : ℕ} (h : yearOfDay (t / msPerDay) < 10 ^ n) :
    Fits (⟨n, '-'⟩ :: monthToMs) (fields t) := by
  have hplace : t / msPerDay - dayFromYear (yearOfDay (t / msPerDay)) <
      (monthLengths (yearOfDay (t / msPerDay))).sum := by
    have hyear := yearOfDay_le (t / msPerDay)
    have hnext := lt_next_year (t / msPerDay)
    rw [dayFromYear_succ hyear.1] at hnext
    omega
  obtain ⟨hmonth, n, hn, hdate⟩ := locate_lt hplace
  have hlength : n ≤ 31 := by
    revert hn
    unfold monthLengths
    cases isLeap (yearOfDay (t / msPerDay)) <;> simp <;> omega
  have hms : t % msPerDay < 86400000 := Nat.mod_lt _ (by decide)
  refine .cons h (.cons ?_ (.cons ?_ (.cons ?_ (.cons ?_ (.cons ?_ (.cons ?_ .nil))))))
  · have htwelve : (monthLengths (yearOfDay (t / msPerDay))).length = 12 := rfl
    rw [htwelve] at hmonth
    norm_num
    omega
  all_goals
    norm_num
    omega

/-- Years before 10000 have four digits. -/
theorem fields_fit_iso {t : ℕ} (h : t < year10000) : Fits isoFormat (fields t) := by
  refine fields_fit ((yearOfDay_lt_iff (by decide)).2 ?_)
  exact (Nat.div_lt_iff_lt_mul (by decide)).2 h

/-- All years have six digits at most. -/
theorem fields_fit_expanded {t : ℕ} (h : t ≤ maxTime) : Fits expandedFormat (fields t) := by
  refine fields_fit ((yearOfDay_lt_iff (by decide)).2 ?_)
  exact (Nat.div_lt_iff_lt_mul (by decide)).2 (h.trans_lt (by decide))

theorem toISOString_of_lt {t : ℕ} (h : t < year10000) :
    toISOString t = some (render isoFormat (fields t)) := by
  have hmax : ¬ maxTime < t := Nat.not_lt_of_le (h.le.trans (by decide))
  rw [toISOString, if_neg hmax, if_pos h]

theorem toISOString_of_le {t : ℕ} (h : year10000 ≤ t) (hmax : t ≤ maxTime) :
    toISOString t = some ('+' :: render expandedFormat (fields t)) := by
  rw [toISOString, if_neg (Nat.not_lt_of_le hmax), if_neg (Nat.not_lt_of_le h)]

/-- A text begins with a digit, or else with a sign. -/
theorem render_isoFormat (t : ℕ) :
    ∃ d < 10, ∃ cs, render isoFormat (fields t) = digitChar d :: cs :=
  ⟨_, Nat.mod_lt _ (by decide), _, rfl⟩

theorem digitChar_ne_plus : ∀ d < 10, digitChar d ≠ '+' := by decide

/-- There is a text for the times ECMAScript knows. -/
theorem le_of_toISOString {t : ℕ} {text : List Char} (h : toISOString t = some text) :
    t ≤ maxTime := by
  by_contra hle
  rw [toISOString, if_pos (Nat.lt_of_not_le hle)] at h
  cases h

/-- **The text of a time is read again.** -/
theorem parseISO_toISOString {t : ℕ} {text : List Char} (h : toISOString t = some text) :
    parseISO text = some t := by
  have hmax := le_of_toISOString h
  rcases Nat.lt_or_ge t year10000 with hlt | hge
  · rw [toISOString_of_lt hlt, Option.some.injEq] at h
    obtain ⟨d, hd, cs, hcs⟩ := render_isoFormat t
    have hread := read_render (fields_fit_iso hlt)
    rw [← h, hcs]
    rw [hcs] at hread
    unfold parseISO
    split
    · next heq => exact absurd (List.cons.inj heq).1 (digitChar_ne_plus d hd)
    · rw [hread]
      exact timeOf_fields t
  · rw [toISOString_of_le hge hmax, Option.some.injEq] at h
    rw [← h, parseISO, read_render (fields_fit_expanded hmax)]
    exact timeOf_fields t

section Order

variable {key : Char → ℕ}

/-- **Texts are in the order of their times**, as long as both years have four digits or
neither has. -/
theorem toISOString_lt (hkey : Ascending key) {t t' : ℕ} {text text' : List Char} (h : t < t')
    (hside : t < year10000 ↔ t' < year10000) (ht : toISOString t = some text)
    (ht' : toISOString t' = some text') :
    text.map key < text'.map key ∧ text.length = text'.length := by
  have hmax := le_of_toISOString ht
  have hmax' := le_of_toISOString ht'
  rcases Nat.lt_or_ge t' year10000 with hlt | hge
  · rw [toISOString_of_lt (hside.2 hlt), Option.some.injEq] at ht
    rw [toISOString_of_lt hlt, Option.some.injEq] at ht'
    have hfit := fields_fit_iso (hside.2 hlt)
    rw [← ht, ← ht']
    exact ⟨render_lt hkey hfit (fields_fit_iso hlt) (fields_lt h),
      length_render hfit (fields_fit_iso hlt)⟩
  · have hge' : year10000 ≤ t := Nat.le_of_not_lt fun hlt =>
      absurd (hside.1 hlt) (Nat.not_lt_of_le hge)
    rw [toISOString_of_le hge' hmax, Option.some.injEq] at ht
    rw [toISOString_of_le hge hmax', Option.some.injEq] at ht'
    have hfit := fields_fit_expanded hmax
    rw [← ht, ← ht']
    refine ⟨List.cons_lt_cons_iff.2 (.inr ⟨rfl, ?_⟩), ?_⟩
    · exact render_lt hkey hfit (fields_fit_expanded hmax') (fields_lt h)
    · exact congrArg Nat.succ (length_render hfit (fields_fit_expanded hmax'))

/-- **Where the sign stands before the digits, years from 10000 on come before all others.** -/
theorem toISOString_expanded_lt (hsign : ∀ d < 10, key '+' < key (digitChar d)) {t t' : ℕ}
    {text text' : List Char} (h : t < year10000) (h' : year10000 ≤ t')
    (ht : toISOString t = some text) (ht' : toISOString t' = some text') :
    ∃ c cs c' cs', text = c :: cs ∧ text' = c' :: cs' ∧ key c' < key c := by
  obtain ⟨d, hd, cs, hcs⟩ := render_isoFormat t
  rw [toISOString_of_lt h, Option.some.injEq, hcs] at ht
  rw [toISOString_of_le h' (le_of_toISOString ht'), Option.some.injEq] at ht'
  exact ⟨_, _, _, _, ht.symm, ht'.symm, hsign d hd⟩

end Order

end Calendar
end IdentityPlatform
