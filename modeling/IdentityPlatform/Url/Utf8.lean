/-
# UTF-8

Texts as bytes, and the decoder of the Encoding Standard, which puts U+FFFD where the bytes
are no text.  It reads one byte at a time and keeps how many continuation bytes it still
needs, between which bounds the next one lies, and the code point so far.

What has been encoded is decoded again (`decode_encode`).
-/

import Mathlib.Data.Char
import Mathlib.Data.Nat.Notation

namespace IdentityPlatform
namespace Url

/-- The bytes of a text. -/
def encode (cs : List Char) : List UInt8 := cs.flatMap String.utf8EncodeChar

/-- U+FFFD. -/
def replacement : Char := Char.ofNat 0xfffd

/-- Where the decoder stands between two bytes. -/
inductive Decoder
  | start
  /-- It needs `needed + 1` more bytes. -/
  | within (needed lower upper codePoint : ℕ)
  deriving DecidableEq, Repr

namespace Decoder

/-- The first byte of a character. -/
def first (b : ℕ) : List Char × Decoder :=
  if b ≤ 0x7f then ([Char.ofNat b], start)
  else if 0xc2 ≤ b ∧ b ≤ 0xdf then ([], within 0 0x80 0xbf (b - 0xc0))
  else if 0xe0 ≤ b ∧ b ≤ 0xef then
    ([], within 1 (if b = 0xe0 then 0xa0 else 0x80) (if b = 0xed then 0x9f else 0xbf) (b - 0xe0))
  else if 0xf0 ≤ b ∧ b ≤ 0xf4 then
    ([], within 2 (if b = 0xf0 then 0x90 else 0x80) (if b = 0xf4 then 0x8f else 0xbf) (b - 0xf0))
  else ([replacement], start)

/-- One byte: the characters it completes, and the decoder after it.  A byte out of bounds
begins anew. -/
def byte : Decoder → ℕ → List Char × Decoder
  | start, b => first b
  | within needed lower upper codePoint, b =>
      if lower ≤ b ∧ b ≤ upper then
        match needed with
        | 0 => ([Char.ofNat (codePoint * 64 + (b - 0x80))], start)
        | needed + 1 => ([], within needed 0x80 0xbf (codePoint * 64 + (b - 0x80)))
      else (replacement :: (first b).1, (first b).2)

/-- The rest of the bytes. -/
def run : Decoder → List UInt8 → List Char
  | start, [] => []
  | within .., [] => [replacement]
  | d, b :: bs => (d.byte b.toNat).1 ++ run (d.byte b.toNat).2 bs

end Decoder

/-- The text of the bytes. -/
def decode (bs : List UInt8) : List Char := Decoder.start.run bs

namespace Decoder

@[simp] theorem run_cons (d : Decoder) (b : UInt8) (bs : List UInt8) :
    d.run (b :: bs) = (d.byte b.toNat).1 ++ (d.byte b.toNat).2.run bs := by
  cases d <;> rfl

theorem byte_last {lower upper codePoint b : ℕ} (h : lower ≤ b ∧ b ≤ upper) :
    (within 0 lower upper codePoint).byte b =
      ([Char.ofNat (codePoint * 64 + (b - 0x80))], start) := if_pos h

theorem byte_more {needed lower upper codePoint b : ℕ} (h : lower ≤ b ∧ b ≤ upper) :
    (within (needed + 1) lower upper codePoint).byte b =
      ([], within needed 0x80 0xbf (codePoint * 64 + (b - 0x80))) := if_pos h

/-- A continuation byte. -/
theorem toNat_tail (n : ℕ) : (UInt8.ofNat (n % 64 + 0x80)).toNat = n % 64 + 0x80 := by
  rw [UInt8.toNat_ofNat', Nat.mod_eq_of_lt (by omega)]

/-- **A character is read from its bytes.** -/
theorem run_encodeChar (c : Char) (bs : List UInt8) :
    start.run (String.utf8EncodeChar c ++ bs) = c :: start.run bs := by
  have hvalid : c.toNat < 0xd800 ∨ 0xdfff < c.toNat ∧ c.toNat < 0x110000 := c.valid
  have hc : c.val.toNat = c.toNat := rfl
  have hback : Char.ofNat c.toNat = c := c.ofNat_toNat
  rw [String.utf8EncodeChar, hc]
  generalize hn : c.toNat = n at hvalid hback
  subst hback
  split_ifs with h₁ h₂ h₃
  · have hlead : (UInt8.ofNat n).toNat = n := by
      rw [UInt8.toNat_ofNat', Nat.mod_eq_of_lt (by omega)]
    simp [byte, first, hlead, h₁]
  · have hlead : (UInt8.ofNat (n / 64 % 32 + 0xc0)).toNat = n / 64 + 0xc0 := by
      rw [UInt8.toNat_ofNat', Nat.mod_eq_of_lt (by omega)]
      omega
    have hfirst : first (n / 64 + 0xc0) = ([], within 0 0x80 0xbf (n / 64)) := by
      rw [first, if_neg (by omega), if_pos (by omega), Nat.add_sub_cancel]
    have hpoint : n / 64 * 64 + (n % 64 + 0x80 - 0x80) = n := by omega
    simp only [List.cons_append, List.nil_append, run_cons, hlead, toNat_tail, byte, hfirst]
    rw [if_pos (by omega), hpoint]
    rfl
  · have hlead : (UInt8.ofNat (n / 4096 % 16 + 0xe0)).toNat = n / 4096 + 0xe0 := by
      rw [UInt8.toNat_ofNat', Nat.mod_eq_of_lt (by omega)]
      omega
    have hfirst : first (n / 4096 + 0xe0) = ([], within 1
        (if n / 4096 + 0xe0 = 0xe0 then 0xa0 else 0x80)
        (if n / 4096 + 0xe0 = 0xed then 0x9f else 0xbf) (n / 4096)) := by
      rw [first, if_neg (by omega), if_neg (by omega), if_pos (by omega), Nat.add_sub_cancel]
    have hsecond : (if n / 4096 + 0xe0 = 0xe0 then 0xa0 else 0x80) ≤ n / 64 % 64 + 0x80 ∧
        n / 64 % 64 + 0x80 ≤ if n / 4096 + 0xe0 = 0xed then 0x9f else 0xbf := by
      split_ifs <;> omega
    have hpoint : (n / 4096 * 64 + (n / 64 % 64 + 0x80 - 0x80)) * 64 +
        (n % 64 + 0x80 - 0x80) = n := by
      omega
    have hstart : start.byte (n / 4096 + 0xe0) = first (n / 4096 + 0xe0) := rfl
    simp only [List.cons_append, List.nil_append, run_cons, hlead, toNat_tail, hstart, hfirst,
      byte_more hsecond, byte_last (show 0x80 ≤ n % 64 + 0x80 ∧ n % 64 + 0x80 ≤ 0xbf by omega),
      hpoint]
  · have hlead : (UInt8.ofNat (n / 262144 % 8 + 0xf0)).toNat = n / 262144 + 0xf0 := by
      rw [UInt8.toNat_ofNat', Nat.mod_eq_of_lt (by omega)]
      omega
    have hfirst : first (n / 262144 + 0xf0) = ([], within 2
        (if n / 262144 + 0xf0 = 0xf0 then 0x90 else 0x80)
        (if n / 262144 + 0xf0 = 0xf4 then 0x8f else 0xbf) (n / 262144)) := by
      rw [first, if_neg (by omega), if_neg (by omega), if_neg (by omega), if_pos (by omega),
        Nat.add_sub_cancel]
    have hsecond : (if n / 262144 + 0xf0 = 0xf0 then 0x90 else 0x80) ≤ n / 4096 % 64 + 0x80 ∧
        n / 4096 % 64 + 0x80 ≤ if n / 262144 + 0xf0 = 0xf4 then 0x8f else 0xbf := by
      split_ifs <;> omega
    have hpoint : ((n / 262144 * 64 + (n / 4096 % 64 + 0x80 - 0x80)) * 64 +
        (n / 64 % 64 + 0x80 - 0x80)) * 64 + (n % 64 + 0x80 - 0x80) = n := by
      omega
    have hstart : start.byte (n / 262144 + 0xf0) = first (n / 262144 + 0xf0) := rfl
    simp only [List.cons_append, List.nil_append, run_cons, hlead, toNat_tail, hstart, hfirst,
      byte_more hsecond,
      byte_more (show 0x80 ≤ n / 64 % 64 + 0x80 ∧ n / 64 % 64 + 0x80 ≤ 0xbf by omega),
      byte_last (show 0x80 ≤ n % 64 + 0x80 ∧ n % 64 + 0x80 ≤ 0xbf by omega), hpoint]

end Decoder

/-- **What is encoded is decoded.** -/
theorem decode_encode (cs : List Char) : decode (encode cs) = cs := by
  induction cs with
  | nil => rfl
  | cons c cs ih =>
      rw [decode, encode, List.flatMap_cons, Decoder.run_encodeChar]
      exact congrArg (c :: ·) ih

end Url
end IdentityPlatform
