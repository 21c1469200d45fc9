/-
# Strings as the services read them

The string operations the TypeScript code applies to scopes, identifiers and
passwords: splitting at white space (`split(/\s+/).filter(Boolean)`), joining
with blanks, substring search (`String.prototype.includes`), the length in
UTF-16 code units, and the textual forms that identifiers and generated tokens
have.
-/

import IdentityPlatform.Splitting.Runs
import Mathlib.Data.List.DropRight
import Mathlib.Data.List.Lex
import Mathlib.Data.List.Sort

namespace IdentityPlatform

open Splitting

/-- The characters of the JavaScript class `\s`. -/
def isSpace (c : Char) : Bool :=
  c.toNat ∈ [0x09, 0x0a, 0x0b, 0x0c, 0x0d, 0x20, 0xa0, 0x1680, 0x2028, 0x2029, 0x202f, 0x205f,
    0x3000, 0xfeff] || (0x2000 ≤ c.toNat && c.toNat ≤ 0x200a)

/-- The maximal runs of characters outside `\s`. -/
def splitSpaces : List Char → List (List Char)
  | [] => []
  | c :: cs =>
      if isSpace c then splitSpaces cs
      else match cs, splitSpaces cs with
        | d :: _, word :: words => if isSpace d then [c] :: word :: words else (c :: word) :: words
        | _, words => [c] :: words

/-- `text.split(/\s+/).filter(Boolean)`. -/
def words (text : String) : List String := (splitSpaces text.toList).map String.ofList

/-- `list.join(' ')`. -/
def joinWords (list : List String) : String := String.intercalate " " list

/-- The split at white space, as runs between separators. -/
theorem splitSpaces_eq_runs (cs : List Char) : splitSpaces cs = runs isSpace cs := by
  induction cs with
  | nil => rfl
  | cons c cs ih =>
      rw [runs, splitSpaces.eq_def]
      simp only [ih]
      cases cs with
      | nil => rfl
      | cons d cs => cases runs isSpace (d :: cs) <;> rfl

/-- A word: not empty, and without white space. -/
abbrev IsWord (text : String) : Prop := IsRun isSpace text.toList

theorem isWord_of_mem {text word : String} (h : word ∈ words text) : IsWord word := by
  obtain ⟨run, hrun, rfl⟩ := List.mem_map.1 h
  rw [IsWord, String.toList_ofList]
  exact isRun_of_mem (splitSpaces_eq_runs _ ▸ hrun)

/-- **Joined words are found again.** -/
theorem words_joinWords {list : List String} (h : ∀ word ∈ list, IsWord word) :
    words (joinWords list) = list := by
  have hruns : runs isSpace ([' '].intercalate (list.map String.toList)) = list.map String.toList :=
    runs_intercalate (by simp) (by simp; rfl) (by simpa using h)
  rw [words, joinWords, String.toList_intercalate, splitSpaces_eq_runs]
  exact (congrArg (List.map String.ofList) hruns).trans (by simp)

/-- `text.trim()`. -/
def trimText (text : String) : String :=
  String.ofList ((text.toList.dropWhile isSpace).rdropWhile isSpace)

/-- `text.includes(part)`. -/
def includesText (text part : String) : Bool := decide (part.toList <:+: text.toList)

/-- A text contains a word exactly when one of its words does. -/
theorem includesText_iff {text part : String} (hpart : IsWord part) :
    includesText text part = true ↔ ∃ word ∈ words text, includesText word part = true := by
  simp only [includesText, decide_eq_true_iff, words, List.mem_map, exists_exists_and_eq_and,
    String.toList_ofList, splitSpaces_eq_runs]
  exact infix_iff_exists_run hpart

/-- `text.length`, in UTF-16 code units. -/
def jsLength (text : String) : ℕ :=
  text.toList.foldl (fun n c => n + if c.toNat < 0x10000 then 1 else 2) 0

/-- `text.endsWith(end)`. -/
def endsWithText (text ending : String) : Bool := decide (ending.toList <:+ text.toList)

/-- The UTF-16 code units of a text, by which JavaScript compares. -/
def codeUnits (text : String) : List ℕ :=
  text.toList.flatMap fun c =>
    if c.toNat < 0x10000 then [c.toNat]
    else [0xd800 + (c.toNat - 0x10000) / 0x400, 0xdc00 + (c.toNat - 0x10000) % 0x400]

/-- `list.sort()`. -/
def sortTexts (list : List String) : List String :=
  list.insertionSort fun a b => codeUnits a ≤ codeUnits b

theorem mem_sortTexts {list : List String} {text : String} : text ∈ sortTexts list ↔ text ∈ list :=
  List.mem_insertionSort _

/-- A sorted list is in the order of the code units. -/
theorem sortTexts_sorted (list : List String) :
    (sortTexts list).Pairwise fun a b => codeUnits a ≤ codeUnits b := by
  have htotal : Std.Total fun a b : String => codeUnits a ≤ codeUnits b :=
    ⟨fun a b => le_total (codeUnits a) (codeUnits b)⟩
  have htrans : IsTrans String fun a b => codeUnits a ≤ codeUnits b :=
    ⟨fun _ _ _ => le_trans⟩
  exact List.pairwise_insertionSort _ list

/-! ### Forms of ASCII texts

They are decided on the bytes: a byte of a longer UTF-8 sequence is in none of
the classes. -/

/-- `Buffer.from(text)`. -/
def utf8 (text : String) : List UInt8 := text.toByteArray.data.toList

/-- `[0-9a-fA-F]`. -/
def isHexDigit (b : UInt8) : Bool :=
  (48 ≤ b && b ≤ 57) || (97 ≤ b && b ≤ 102) || (65 ≤ b && b ≤ 70)

/-- `[A-Za-z0-9_-]`. -/
def isBase64Url (b : UInt8) : Bool :=
  (48 ≤ b && b ≤ 57) || (97 ≤ b && b ≤ 122) || (65 ≤ b && b ≤ 90) || b == 45 || b == 95

/-- `n` hexadecimal digits, then what `rest` accepts. -/
def hexDigits (n : ℕ) (rest : List UInt8 → Bool) : List UInt8 → Bool :=
  match n with
  | 0 => rest
  | n + 1 => fun bytes =>
      match bytes with
      | [] => false
      | b :: bytes => isHexDigit b && hexDigits n rest bytes

/-- A hyphen, then what `rest` accepts. -/
def hyphen (rest : List UInt8 → Bool) : List UInt8 → Bool
  | [] => false
  | b :: bytes => b == 45 && rest bytes

/-- The canonical textual form of a UUID, which a `UUID` column accepts. -/
def isUuid (text : String) : Bool :=
  hexDigits 8 (hyphen (hexDigits 4 (hyphen (hexDigits 4 (hyphen (hexDigits 4 (hyphen
    (hexDigits 12 List.isEmpty)))))))) (utf8 text)

/-- `randomBytes(32).toString('base64url')`. -/
def isRandomToken (text : String) : Bool :=
  (utf8 text).length == 43 && (utf8 text).all isBase64Url

/-- `[\w]`. -/
def isWordByte (b : UInt8) : Bool :=
  (48 ≤ b && b ≤ 57) || (97 ≤ b && b ≤ 122) || (65 ≤ b && b ≤ 90) || b == 95

/-- `/^[\w.]+$/`. -/
def isScopeName (text : String) : Bool :=
  utf8 text != [] && (utf8 text).all fun b => isWordByte b || b == 46

/-- The form of `newClientId`: `cli_` and 16 hexadecimal digits. -/
def isClientId (text : String) : Bool :=
  (utf8 "cli_").isPrefixOf (utf8 text) && hexDigits 16 List.isEmpty ((utf8 text).drop 4)

theorem isUuid_ne_empty {text : String} (h : isUuid text = true) : text ≠ "" := by
  rintro rfl
  cases h

/-! ### ASCII texts and separators -/

/-- The separators `[\s,]` of a list. -/
def isListSpace (c : Char) : Bool := isSpace c || c = ','

/-- An item of a list: not empty, and without white space and commas. -/
abbrev IsItem (text : String) : Prop := IsRun isListSpace text.toList

theorem IsItem.isWord {text : String} (h : IsItem text) : IsWord text :=
  h.mono fun c hc => by simp [isListSpace, hc]

/-- An ASCII character is its own byte, and every other one has a byte beyond ASCII. -/
theorem exists_byte (c : Char) : (c.toNat ≤ 0x7f ∧ UInt8.ofNat c.toNat ∈ String.utf8EncodeChar c) ∨
    ∃ b ∈ String.utf8EncodeChar c, 0x80 ≤ b.toNat := by
  have hlast : ∀ n : ℕ, 0x80 ≤ (UInt8.ofNat (n % 0x40 + 0x80)).toNat := by
    intro n
    rw [UInt8.toNat_ofNat', Nat.mod_eq_of_lt (by omega)]
    omega
  by_cases h₁ : c.val.toNat ≤ 0x7f
  · refine .inl ⟨h₁, ?_⟩
    rw [String.utf8EncodeChar, if_pos h₁]
    exact List.mem_cons_self ..
  · refine .inr ⟨UInt8.ofNat (c.val.toNat % 0x40 + 0x80), ?_, hlast c.val.toNat⟩
    rw [String.utf8EncodeChar, if_neg h₁]
    split_ifs <;> simp

/-- The bytes of the characters. -/
theorem utf8_eq (text : String) : utf8 text = text.toList.flatMap String.utf8EncodeChar := by
  rw [utf8, ← String.utf8Encode_toList, List.utf8Encode, List.toList_data_toByteArray]

/-- The characters of a text of good bytes are good, if these are ASCII. -/
theorem chars_of_bytes {p : Char → Prop} (good : UInt8 → Bool) {text : String}
    (hgood : ∀ b, good b = true → b.toNat < 0x80 ∧ p (Char.ofNat b.toNat))
    (h : ∀ b ∈ utf8 text, good b = true) : ∀ c ∈ text.toList, p c := by
  intro c hc
  have hbytes : ∀ b ∈ String.utf8EncodeChar c, good b = true := fun b hb =>
    h b (utf8_eq text ▸ List.mem_flatMap.2 ⟨c, hc, hb⟩)
  rcases exists_byte c with ⟨hascii, hmem⟩ | ⟨b, hb, hbeyond⟩
  · have hchar := (hgood _ (hbytes _ hmem)).2
    have hback : (UInt8.ofNat c.toNat).toNat = c.toNat := by
      rw [UInt8.toNat_ofNat', Nat.mod_eq_of_lt (by omega)]
    rwa [hback, Char.ofNat_toNat] at hchar
  · exact absurd (hgood b (hbytes b hb)).1 (Nat.not_lt.2 hbeyond)

/-- What holds of all bytes up to 255 holds of all bytes. -/
theorem forall_byte {p : UInt8 → Prop} (h : ∀ n < 256, p (UInt8.ofNat n)) (b : UInt8) : p b := by
  have hb := h b.toNat b.toNat_lt
  rwa [UInt8.ofNat_toNat] at hb

/-- A byte of an identifier: a hexadecimal digit or a hyphen. -/
def isUuidByte (b : UInt8) : Bool := isHexDigit b || b == 45

theorem hexDigits_bytes {n : ℕ} {rest : List UInt8 → Bool} {bytes : List UInt8}
    (hrest : ∀ bytes, rest bytes = true → ∀ b ∈ bytes, isUuidByte b = true)
    (h : hexDigits n rest bytes = true) : ∀ b ∈ bytes, isUuidByte b = true := by
  induction n generalizing bytes with
  | zero => exact hrest bytes h
  | succ n ih =>
      cases bytes with
      | nil => simp
      | cons b bytes =>
          obtain ⟨hb, h⟩ := Bool.and_eq_true_iff.1 h
          intro b' hb'
          rcases List.mem_cons.1 hb' with rfl | hb'
          · simp [isUuidByte, hb]
          · exact ih h b' hb'

theorem hyphen_bytes {rest : List UInt8 → Bool} {bytes : List UInt8}
    (hrest : ∀ bytes, rest bytes = true → ∀ b ∈ bytes, isUuidByte b = true)
    (h : hyphen rest bytes = true) : ∀ b ∈ bytes, isUuidByte b = true := by
  cases bytes with
  | nil => simp
  | cons b bytes =>
      obtain ⟨hb, h⟩ := Bool.and_eq_true_iff.1 h
      intro b' hb'
      rcases List.mem_cons.1 hb' with rfl | hb'
      · simp [isUuidByte, hb]
      · exact hrest bytes h b' hb'

theorem isEmpty_bytes (bytes : List UInt8) (h : bytes.isEmpty = true) :
    ∀ b ∈ bytes, isUuidByte b = true := by
  simp [List.isEmpty_iff.1 h]

/-- A byte of a name: of `[\w.-]`. -/
def isNameByte (b : UInt8) : Bool := isWordByte b || b == 45 || b == 46

theorem isNameByte_of_isUuidByte : ∀ b, isUuidByte b = true → isNameByte b = true :=
  forall_byte (by decide +kernel)

/-- A UUID has bytes of names. -/
theorem nameBytes_of_isUuid {text : String} (h : isUuid text = true) :
    ∀ b ∈ utf8 text, isNameByte b = true := fun b hb =>
  isNameByte_of_isUuidByte b <| hexDigits_bytes (fun _ => hyphen_bytes fun _ => hexDigits_bytes
    fun _ => hyphen_bytes fun _ => hexDigits_bytes fun _ => hyphen_bytes fun _ => hexDigits_bytes
    fun _ => hyphen_bytes fun _ => hexDigits_bytes isEmpty_bytes) h b hb

/-- The name of a scope has bytes of names. -/
theorem nameBytes_of_isScopeName {text : String} (h : isScopeName text = true) :
    ∀ b ∈ utf8 text, isNameByte b = true := by
  intro b hb
  have hchar := List.all_eq_true.1 (Bool.and_eq_true_iff.1 h).2 b hb
  rcases Bool.or_eq_true_iff.1 hchar with hb | hb <;> simp [isNameByte, hb]

/-- A generated client identifier has bytes of names. -/
theorem nameBytes_of_isClientId {text : String} (h : isClientId text = true) :
    ∀ b ∈ utf8 text, isNameByte b = true := by
  obtain ⟨hfront, hdigits⟩ := Bool.and_eq_true_iff.1 h
  obtain ⟨rest, hrest⟩ := List.isPrefixOf_iff_prefix.1 hfront
  intro b hb
  rw [← hrest] at hb hdigits
  rcases List.mem_append.1 hb with hb | hb
  · exact List.all_eq_true.1 (show (utf8 "cli_").all isNameByte = true by decide +kernel) b hb
  · have hlength : (utf8 "cli_").length = 4 := by decide +kernel
    rw [← hlength, List.drop_left] at hdigits
    exact isNameByte_of_isUuidByte b (hexDigits_bytes isEmpty_bytes hdigits b hb)

/-- No separator is a byte of a name. -/
theorem isItem_of_nameBytes {text : String} (hne : text ≠ "")
    (h : ∀ b ∈ utf8 text, isNameByte b = true) : IsItem text :=
  ⟨by simpa using hne, chars_of_bytes (p := fun c => isListSpace c = false) isNameByte
    (forall_byte (by decide +kernel)) h⟩

/-- **A UUID is an item.** -/
theorem isItem_of_isUuid {text : String} (h : isUuid text = true) : IsItem text :=
  isItem_of_nameBytes (isUuid_ne_empty h) (nameBytes_of_isUuid h)

/-- The name of a scope is an item. -/
theorem isItem_of_isScopeName {text : String} (h : isScopeName text = true) : IsItem text := by
  refine isItem_of_nameBytes ?_ (nameBytes_of_isScopeName h)
  rintro rfl
  cases (Bool.and_eq_true_iff.1 h).1

/-- A generated client identifier is an item. -/
theorem isItem_of_isClientId {text : String} (h : isClientId text = true) : IsItem text := by
  refine isItem_of_nameBytes ?_ (nameBytes_of_isClientId h)
  rintro rfl
  cases (Bool.and_eq_true_iff.1 h).1

end IdentityPlatform
