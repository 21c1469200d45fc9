/-
# `application/x-www-form-urlencoded`

Parser and serializer of the URL Standard, on lists of names and values.  A component is
written byte by byte: letters, digits and `*-._` as they are, blanks as `+`, every other byte
as `%` and two hexadecimal digits.  The parser takes every text: pieces without `=` are names
with an empty value, a `%` without two digits stands for itself, and bytes that are no UTF-8
are replaced.

Every list is parsed from its serialization (`parse_serialize`).
-/

import IdentityPlatform.Url.Utf8

namespace IdentityPlatform
namespace Url

/-- Names and values. -/
abbrev Params := List (List Char × List Char)

/-! ### Components -/

/-- The bytes that are written as they are. -/
def isPlain (b : UInt8) : Bool :=
  (48 ≤ b && b ≤ 57) || (65 ≤ b && b ≤ 90) || (97 ≤ b && b ≤ 122) ||
    b == 42 || b == 45 || b == 46 || b == 95

/-- An upper-case hexadecimal digit. -/
def hexDigit (n : ℕ) : Char := Char.ofNat (if n < 10 then 48 + n else 55 + n)

/-- The value of the byte of a hexadecimal digit. -/
def hexValue (b : UInt8) : Option ℕ :=
  if 48 ≤ b ∧ b ≤ 57 then some (b.toNat - 48)
  else if 65 ≤ b ∧ b ≤ 70 then some (b.toNat - 55)
  else if 97 ≤ b ∧ b ≤ 102 then some (b.toNat - 87)
  else none

/-- `%` and the digits of a byte. -/
def percentEncodeByte (b : UInt8) : List Char :=
  ['%', hexDigit (b.toNat / 16), hexDigit (b.toNat % 16)]

/-- One byte of a component. -/
def serializeByte (b : UInt8) : List Char :=
  if isPlain b then [Char.ofNat b.toNat]
  else if b = 32 then ['+']
  else percentEncodeByte b

/-- A component. -/
def serializeComponent (cs : List Char) : List Char := (encode cs).flatMap serializeByte

/-- Percent-decoding. -/
def percentDecode : List UInt8 → List UInt8
  | [] => []
  | [b] => [b]
  | [b, b'] => [b, b']
  | b :: high :: low :: bs =>
      if b = 37 then
        match hexValue high, hexValue low with
        | some h, some l => UInt8.ofNat (16 * h + l) :: percentDecode bs
        | _, _ => b :: percentDecode (high :: low :: bs)
      else b :: percentDecode (high :: low :: bs)

/-- `+` stands for a blank. -/
def plusToSpace (b : UInt8) : UInt8 := if b = 43 then 32 else b

/-- The text of a component. -/
def parseComponent (bs : List UInt8) : List Char := decode (percentDecode (bs.map plusToSpace))

/-! ### Lists -/

/-- What is before the first separator, and what is after it. -/
def splitFirst {α : Type} [DecidableEq α] (sep : α) : List α → List α × Option (List α)
  | [] => ([], none)
  | a :: as =>
      if a = sep then ([], some as)
      else (a :: (splitFirst sep as).1, (splitFirst sep as).2)

/-- One name and its value. -/
def parsePair (bs : List UInt8) : List Char × List Char :=
  (parseComponent (splitFirst 61 bs).1, parseComponent ((splitFirst 61 bs).2.getD []))

/-- The parser. -/
def parse (cs : List Char) : Params :=
  (((encode cs).splitOn 38).filter fun piece => piece ≠ []).map parsePair

/-- One name and its value. -/
def serializePair (pair : List Char × List Char) : List Char :=
  serializeComponent pair.1 ++ '=' :: serializeComponent pair.2

/-- The serializer. -/
def serialize (params : Params) : List Char := ['&'].intercalate (params.map serializePair)

/-! ### Round trip -/

/-- The code points of letters, digits and `%*+-._`, in which components are written. -/
def IsWritten (n : ℕ) : Prop :=
  48 ≤ n ∧ n ≤ 57 ∨ 65 ≤ n ∧ n ≤ 90 ∨ 97 ≤ n ∧ n ≤ 122 ∨
    n = 37 ∨ n = 42 ∨ n = 43 ∨ n = 45 ∨ n = 46 ∨ n = 95

instance : DecidablePred IsWritten := fun _ => inferInstanceAs (Decidable (_ ∨ _))

theorem splitFirst_append {α : Type} [DecidableEq α] {sep : α} {as bs : List α} (h : sep ∉ as) :
    splitFirst sep (as ++ sep :: bs) = (as, some bs) := by
  induction as with
  | nil => simp [splitFirst]
  | cons a as ih =>
      have hrest := ih fun hmem => h (List.mem_cons_of_mem _ hmem)
      have hne : a ≠ sep := fun heq => h (heq ▸ List.mem_cons_self ..)
      rw [List.cons_append, splitFirst, if_neg hne, hrest]

theorem splitFirst_of_notMem {α : Type} [DecidableEq α] {sep : α} {as : List α} (h : sep ∉ as) :
    splitFirst sep as = (as, none) := by
  induction as with
  | nil => rfl
  | cons a as ih =>
      have hrest := ih fun hmem => h (List.mem_cons_of_mem _ hmem)
      have hne : a ≠ sep := fun heq => h (heq ▸ List.mem_cons_self ..)
      rw [splitFirst, if_neg hne, hrest]

@[simp] theorem encode_nil : encode [] = [] := rfl

@[simp] theorem encode_append (cs ds : List Char) : encode (cs ++ ds) = encode cs ++ encode ds :=
  List.flatMap_append

/-- ASCII texts have one byte for each character. -/
theorem encode_ascii {cs : List Char} (h : ∀ c ∈ cs, c.toNat < 128) :
    encode cs = cs.map fun c => UInt8.ofNat c.toNat := by
  induction cs with
  | nil => rfl
  | cons c cs ih =>
      have hc := h c (List.mem_cons_self ..)
      have hrest := ih fun c hc => h c (List.mem_cons_of_mem _ hc)
      have hfirst : String.utf8EncodeChar c = [UInt8.ofNat c.toNat] :=
        if_pos (Nat.le_of_lt_succ hc)
      rw [encode] at hrest
      rw [encode, List.flatMap_cons, hrest, hfirst]
      rfl

theorem toNat_ofNat {n : ℕ} (h : n < 128) : (Char.ofNat n).toNat = n := by
  rw [Char.ofNat, dif_pos (.inl (by omega))]
  rfl

theorem isPlain_iff {b : UInt8} : isPlain b = true ↔
    48 ≤ b.toNat ∧ b.toNat ≤ 57 ∨ 65 ≤ b.toNat ∧ b.toNat ≤ 90 ∨ 97 ≤ b.toNat ∧ b.toNat ≤ 122 ∨
      b.toNat = 42 ∨ b.toNat = 45 ∨ b.toNat = 46 ∨ b.toNat = 95 := by
  simp [isPlain, UInt8.le_iff_toNat_le, ← UInt8.toNat_inj, or_assoc]

theorem isWritten_hexDigit : ∀ n < 16, IsWritten (hexDigit n).toNat := by decide

theorem hexValue_hexDigit : ∀ n < 16,
    hexValue (UInt8.ofNat (hexDigit n).toNat) = some n ∧
    plusToSpace (UInt8.ofNat (hexDigit n).toNat) = UInt8.ofNat (hexDigit n).toNat := by
  decide

theorem IsWritten.lt {n : ℕ} (h : IsWritten n) : n < 128 := by
  rw [IsWritten] at h
  omega

theorem isWritten_percentEncodeByte {b : UInt8} {c : Char} (h : c ∈ percentEncodeByte b) :
    IsWritten c.toNat := by
  have hb := b.toNat_lt
  simp only [percentEncodeByte, List.mem_cons, List.not_mem_nil, or_false] at h
  rcases h with rfl | rfl | rfl
  · decide
  · exact isWritten_hexDigit _ (by omega)
  · exact isWritten_hexDigit _ (by omega)

/-- A byte is written in these characters. -/
theorem isWritten_serializeByte {b : UInt8} {c : Char} (h : c ∈ serializeByte b) :
    IsWritten c.toNat := by
  rw [serializeByte] at h
  split_ifs at h with hplain hblank
  · obtain rfl := List.mem_singleton.1 h
    have hplain := isPlain_iff.1 hplain
    rw [toNat_ofNat (by omega), IsWritten]
    omega
  · obtain rfl := List.mem_singleton.1 h
    decide
  · exact isWritten_percentEncodeByte h

/-- The bytes of a written byte. -/
theorem encode_serializeByte (b : UInt8) : encode (serializeByte b) =
    if isPlain b then [b] else if b = 32 then [43]
    else [37, UInt8.ofNat (hexDigit (b.toNat / 16)).toNat,
      UInt8.ofNat (hexDigit (b.toNat % 16)).toNat] := by
  rw [encode_ascii fun c hc => (isWritten_serializeByte hc).lt, serializeByte]
  split_ifs with hplain hblank
  · have hplain := isPlain_iff.1 hplain
    rw [List.map_singleton, toNat_ofNat (by omega), UInt8.ofNat_toNat]
  · rfl
  · rfl

theorem plain_ne {b : UInt8} (h : isPlain b = true) : b ≠ 37 ∧ b ≠ 43 := by
  refine ⟨?_, ?_⟩
  · rintro rfl
    cases h
  · rintro rfl
    cases h

theorem percentDecode_cons {b : UInt8} (h : b ≠ 37) (bs : List UInt8) :
    percentDecode (b :: bs) = b :: percentDecode bs := by
  match bs with
  | [] => rfl
  | [_] => rfl
  | _ :: _ :: _ => rw [percentDecode, if_neg h]

/-- **A written byte is read.** -/
theorem percentDecode_serializeByte (b : UInt8) (bs : List UInt8) :
    percentDecode ((encode (serializeByte b)).map plusToSpace ++ bs) = b :: percentDecode bs := by
  rw [encode_serializeByte]
  split_ifs with hplain hblank
  · obtain ⟨hpercent, hplus⟩ := plain_ne hplain
    rw [List.map_singleton, plusToSpace, if_neg hplus, List.singleton_append,
      percentDecode_cons hpercent]
  · subst hblank
    exact percentDecode_cons (by decide) bs
  · have hb := b.toNat_lt
    obtain ⟨hhigh, hhigh'⟩ := hexValue_hexDigit (b.toNat / 16) (by omega)
    obtain ⟨hlow, hlow'⟩ := hexValue_hexDigit (b.toNat % 16) (by omega)
    have hpercent : plusToSpace 37 = 37 := rfl
    simp only [List.map_cons, List.map_nil, hpercent, hhigh', hlow', List.cons_append,
      List.nil_append]
    rw [percentDecode, if_pos rfl, hhigh, hlow]
    simp only [Nat.div_add_mod, UInt8.ofNat_toNat]

/-- **A component is read as it was written.** -/
theorem parseComponent_serializeComponent (cs : List Char) :
    parseComponent (encode (serializeComponent cs)) = cs := by
  have hbytes (bs : List UInt8) :
      percentDecode ((encode (bs.flatMap serializeByte)).map plusToSpace) = bs := by
    induction bs with
    | nil => rfl
    | cons b bs ih =>
        rw [List.flatMap_cons, encode_append, List.map_append, percentDecode_serializeByte, ih]
  rw [parseComponent, serializeComponent, hbytes, decode_encode]

theorem isWritten_serializeComponent {cs : List Char} {c : Char}
    (h : c ∈ serializeComponent cs) : IsWritten c.toNat := by
  obtain ⟨b, _, hc⟩ := List.mem_flatMap.1 h
  exact isWritten_serializeByte hc

/-- The bytes of a written component are no separators. -/
theorem separators_notMem (cs : List Char) :
    ∀ b ∈ encode (serializeComponent cs), b ≠ 38 ∧ b ≠ 61 := by
  intro b hb
  rw [encode_ascii fun c hc => (isWritten_serializeComponent hc).lt] at hb
  obtain ⟨c, hc, rfl⟩ := List.mem_map.1 hb
  have hwritten := isWritten_serializeComponent hc
  have hbyte : (UInt8.ofNat c.toNat).toNat = c.toNat :=
    UInt8.toNat_ofNat_of_lt' (Nat.lt_trans hwritten.lt (by decide))
  rw [← hbyte] at hwritten
  refine ⟨fun heq => ?_, fun heq => ?_⟩
  · rw [heq] at hwritten
    exact absurd hwritten (by decide)
  · rw [heq] at hwritten
    exact absurd hwritten (by decide)

theorem encode_serializePair (pair : List Char × List Char) : encode (serializePair pair) =
    encode (serializeComponent pair.1) ++ 61 :: encode (serializeComponent pair.2) := by
  rw [serializePair, encode_append]
  rfl

theorem parsePair_serializePair (pair : List Char × List Char) :
    parsePair (encode (serializePair pair)) = pair := by
  have hname : (61 : UInt8) ∉ encode (serializeComponent pair.1) := fun h =>
    (separators_notMem _ _ h).2 rfl
  rw [parsePair, encode_serializePair, splitFirst_append hname]
  simp [parseComponent_serializeComponent]

theorem encode_intercalate (pieces : List (List Char)) :
    encode (['&'].intercalate pieces) = [38].intercalate (pieces.map encode) := by
  induction pieces with
  | nil => rfl
  | cons piece pieces ih =>
      cases pieces with
      | nil => simp
      | cons next pieces =>
          rw [List.intercalate_cons_cons, List.map_cons, List.map_cons,
            List.intercalate_cons_cons, ← List.map_cons, ← ih, encode_append, encode_append]
          rfl

/-- **Every list is parsed from its serialization.** -/
theorem parse_serialize (params : Params) : parse (serialize params) = params := by
  rcases params.eq_nil_or_concat with rfl | ⟨_, _, hparams⟩
  · rfl
  have hne : (params.map serializePair).map encode ≠ [] := by simp [hparams]
  have hpieces : ∀ piece ∈ (params.map serializePair).map encode, (38 : UInt8) ∉ piece := by
    intro piece hpiece
    simp only [List.map_map, List.mem_map, Function.comp_apply] at hpiece
    obtain ⟨pair, _, rfl⟩ := hpiece
    rw [encode_serializePair]
    intro hmem
    rcases List.mem_append.1 hmem with hmem | hmem
    · exact (separators_notMem _ _ hmem).1 rfl
    · rcases List.mem_cons.1 hmem with heq | hmem
      · cases heq
      · exact (separators_notMem _ _ hmem).1 rfl
  have hkept : ((params.map serializePair).map encode).filter (fun piece => piece ≠ []) =
      (params.map serializePair).map encode := by
    refine List.filter_eq_self.2 fun piece hpiece => decide_eq_true ?_
    simp only [List.map_map, List.mem_map, Function.comp_apply] at hpiece
    obtain ⟨pair, _, rfl⟩ := hpiece
    rw [encode_serializePair]
    simp
  rw [parse, serialize, encode_intercalate, List.splitOn_intercalate 38 hpieces hne, hkept,
    List.map_map, List.map_map]
  refine (List.map_congr_left fun pair _ => ?_).trans (List.map_id _)
  exact parsePair_serializePair pair

theorem serialize_ne_nil {params : Params} (h : params ≠ []) : serialize params ≠ [] := by
  intro hnil
  have hparse := parse_serialize params
  rw [hnil] at hparse
  exact h hparse.symm

end Url
end IdentityPlatform
