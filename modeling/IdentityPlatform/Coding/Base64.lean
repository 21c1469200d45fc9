/-
# Base64

Three bytes as four digits, six bits each, and `=` in the place of the digits that the last
group lacks.  The decoder reads up to the first `=` and passes over what is no digit.

What has been encoded is decoded again (`decode_encode`), and an encoded text has only digits
and `=` in it (`mem_encode`).
-/

import Mathlib.Data.List.Basic
import Mathlib.Data.Nat.Notation

namespace IdentityPlatform
namespace Base64

/-- The digit of a value: capital letters, small letters, numerals, `+` and `/`. -/
def digit (n : ℕ) : Char :=
  if n < 26 then Char.ofNat (n + 65)
  else if n < 52 then Char.ofNat (n + 71)
  else if n < 62 then Char.ofNat (n - 4)
  else if n = 62 then '+' else '/'

/-- The value of a digit. -/
def value (c : Char) : Option ℕ :=
  if 'A' ≤ c ∧ c ≤ 'Z' then some (c.toNat - 65)
  else if 'a' ≤ c ∧ c ≤ 'z' then some (c.toNat - 71)
  else if '0' ≤ c ∧ c ≤ '9' then some (c.toNat + 4)
  else if c = '+' then some 62
  else if c = '/' then some 63 else none

/-- The bits of bytes in groups of six. -/
def sextets : List UInt8 → List ℕ
  | a :: b :: c :: rest =>
      a.toNat / 4 :: (a.toNat % 4 * 16 + b.toNat / 16) :: (b.toNat % 16 * 4 + c.toNat / 64) ::
        c.toNat % 64 :: sextets rest
  | [a, b] => [a.toNat / 4, a.toNat % 4 * 16 + b.toNat / 16, b.toNat % 16 * 4]
  | [a] => [a.toNat / 4, a.toNat % 4 * 16]
  | [] => []

/-- The bytes of groups of six bits; what does not make up a byte is dropped. -/
def octets : List ℕ → List UInt8
  | a :: b :: c :: d :: rest =>
      UInt8.ofNat (a * 4 + b / 16) :: UInt8.ofNat (b % 16 * 16 + c / 4) ::
        UInt8.ofNat (c % 4 * 64 + d) :: octets rest
  | [a, b, c] => [UInt8.ofNat (a * 4 + b / 16), UInt8.ofNat (b % 16 * 16 + c / 4)]
  | [a, b] => [UInt8.ofNat (a * 4 + b / 16)]
  | _ => []

/-- The text of bytes. -/
def encode (data : List UInt8) : List Char :=
  (sextets data).map digit ++ List.replicate ((3 - data.length % 3) % 3) '='

/-- The bytes of a text. -/
def decode (text : List Char) : List UInt8 :=
  octets ((text.takeWhile (· ≠ '=')).filterMap value)

/-! ### Digits -/

theorem value_digit : ∀ n < 64, value (digit n) = some n := by decide +kernel

/-- A character without a value is no digit. -/
theorem digit_ne {n : ℕ} {c : Char} (hn : n < 64) (hc : value c = none) : digit n ≠ c := by
  rintro rfl
  cases (value_digit n hn).symm.trans hc

theorem sextets_lt (data : List UInt8) : ∀ n ∈ sextets data, n < 64 := by
  induction data using sextets.induct with
  | case1 a b c rest ih =>
      have ha := a.toNat_lt
      have hb := b.toNat_lt
      have hc := c.toNat_lt
      simp only [sextets, List.forall_mem_cons]
      exact ⟨by omega, by omega, by omega, by omega, ih⟩
  | case2 a b =>
      have ha := a.toNat_lt
      have hb := b.toNat_lt
      simp only [sextets, List.forall_mem_cons]
      exact ⟨by omega, by omega, by omega, by simp⟩
  | case3 a =>
      have ha := a.toNat_lt
      simp only [sextets, List.forall_mem_cons]
      exact ⟨by omega, by omega, by simp⟩
  | case4 => simp [sextets]

/-- An encoded text has only digits and `=` in it. -/
theorem mem_encode {data : List UInt8} {c : Char} (h : c ∈ encode data) :
    (value c).isSome = true ∨ c = '=' := by
  rcases List.mem_append.1 h with hdigit | hpad
  · obtain ⟨n, hn, rfl⟩ := List.mem_map.1 hdigit
    exact .inl (Option.isSome_of_eq_some (value_digit n (sextets_lt data n hn)))
  · exact .inr (List.eq_of_mem_replicate hpad)

/-! ### The round trip -/

/-- A byte whose value is that of `b` is `b`. -/
theorem ofNat_eq {n : ℕ} {b : UInt8} (h : n = b.toNat) : UInt8.ofNat n = b := by
  rw [h, UInt8.ofNat_toNat]

/-- Groups of six bits are put together again. -/
theorem octets_sextets (data : List UInt8) : octets (sextets data) = data := by
  induction data using sextets.induct with
  | case1 a b c rest ih =>
      have ha := a.toNat_lt
      have hb := b.toNat_lt
      have hc := c.toNat_lt
      rw [sextets, octets, ih, ofNat_eq (b := a) (by omega), ofNat_eq (b := b) (by omega),
        ofNat_eq (b := c) (by omega)]
  | case2 a b =>
      have ha := a.toNat_lt
      have hb := b.toNat_lt
      rw [sextets, octets, ofNat_eq (b := a) (by omega), ofNat_eq (b := b) (by omega)]
  | case3 a =>
      have ha := a.toNat_lt
      rw [sextets, octets, ofNat_eq (b := a) (by omega)]
  | case4 => rfl

/-- Digits are read up to the padding. -/
theorem takeWhile_encode (data : List UInt8) :
    (encode data).takeWhile (· ≠ '=') = (sextets data).map digit := by
  have hdigits : ∀ c ∈ (sextets data).map digit, decide (c ≠ '=') = true := by
    intro c hc
    obtain ⟨n, hn, rfl⟩ := List.mem_map.1 hc
    exact decide_eq_true (digit_ne (sextets_lt data n hn) (by decide))
  rw [encode, List.takeWhile_append_of_pos hdigits, List.takeWhile_replicate]
  simp

/-- **What has been encoded is decoded again.** -/
theorem decode_encode (data : List UInt8) : decode (encode data) = data := by
  have hvalues : ((sextets data).map digit).filterMap value = sextets data := by
    rw [List.filterMap_map, List.filterMap_congr (g := some), List.filterMap_some]
    exact fun n hn => value_digit n (sextets_lt data n hn)
  rw [decode, takeWhile_encode, hvalues, octets_sextets]

end Base64
end IdentityPlatform
