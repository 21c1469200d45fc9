/-
# URL records

A URL as the URL Standard has it, as far as the query is concerned: what comes before the
query, the query and the fragment.  How the part before the query is parsed and written is a
parameter; the query and the fragment are split off at the first `?` and `#`, and their
characters are percent-encoded where the standard says so.

The list of parameters of a URL can be replaced (`setQuery`), and the URL with the new query
is parsed from its text again (`parseUrl_href`).
-/

import IdentityPlatform.Url.FormUrlEncoded

namespace IdentityPlatform
namespace Url

/-! ### Records -/

/-- A URL: what comes before the query, as it is serialized, and query and fragment, if any. -/
structure Record where
  front : List Char
  query : Option (List Char)
  fragment : Option (List Char)
  deriving DecidableEq, Repr

/-- `url.href`. -/
def Record.href (url : Record) : List Char :=
  url.front ++ (url.query.elim [] ('?' :: ·)) ++ url.fragment.elim [] ('#' :: ·)

/-- C0 controls, and the characters after `~`. -/
def isControl (c : Char) : Bool := c.toNat < 32 || 126 < c.toNat

/-- The query percent-encode set, which is larger for special schemes. -/
def inQuerySet (special : Bool) (c : Char) : Bool :=
  isControl c || c = ' ' || c = '"' || c = '#' || c = '<' || c = '>' || (special && c = '\'')

/-- The fragment percent-encode set. -/
def inFragmentSet (c : Char) : Bool :=
  isControl c || c = ' ' || c = '"' || c = '<' || c = '>' || c.toNat = 96

/-- UTF-8 percent-encoding of the characters in a set. -/
def percentEncode (set : Char → Bool) (cs : List Char) : List Char :=
  cs.flatMap fun c => if set c then (encode [c]).flatMap percentEncodeByte else [c]

/-- Blanks and C0 controls, which are removed at both ends of the input. -/
def isTrimmed (c : Char) : Bool := c.toNat ≤ 32

/-- Tabs and newlines, which are removed everywhere. -/
def isNewline (c : Char) : Bool := c.toNat = 9 || c.toNat = 10 || c.toNat = 13

/-- The input without what the parser removes. -/
def clean (cs : List Char) : List Char :=
  ((cs.dropWhile isTrimmed).reverse.dropWhile isTrimmed).reverse.filter fun c => !isNewline c

section Parser

variable (parseFront : List Char → Option (List Char)) (special : List Char → Bool)

/-- The URL of a text, if it has one. -/
def parseUrl (cs : List Char) : Option Record :=
  let beforeFragment := splitFirst '#' (clean cs)
  let beforeQuery := splitFirst '?' beforeFragment.1
  (parseFront beforeQuery.1).map fun front =>
    { front := front
      query := beforeQuery.2.map (percentEncode (inQuerySet (special front)))
      fragment := beforeFragment.2.map (percentEncode inFragmentSet) }

/-- What is known of the part before the query: it begins with a letter, has no separators and
no newlines, and is parsed as it is written. -/
structure FrontParser : Prop where
  stable : ∀ cs front, parseFront cs = some front → parseFront front = some front
  begins : ∀ cs front, parseFront cs = some front →
    ∃ c rest, front = c :: rest ∧ isTrimmed c = false
  chars : ∀ cs front, parseFront cs = some front →
    ∀ c ∈ front, c ≠ '?' ∧ c ≠ '#' ∧ isNewline c = false

end Parser

/-! ### Parameters -/

/-- `new URLSearchParams(query)`, of `url.searchParams`. -/
def Record.params (url : Record) : Params := parse (url.query.getD [])

/-- `searchParams.set(name, value)`: the first value of the name is replaced and the others are
removed; a name without value is added at the end. -/
def setParam (name value : List Char) (params : Params) : Params :=
  match params.findIdx? fun pair => pair.1 = name with
  | none => params ++ [(name, value)]
  | some i =>
      params.take i ++ (name, value) :: (params.drop (i + 1)).filter fun pair => pair.1 ≠ name

/-- The URL with another list of parameters. -/
def Record.setQuery (url : Record) (params : Params) : Record :=
  { url with query := if serialize params = [] then none else some (serialize params) }

theorem setParam_of_notMem {name value : List Char} {params : Params}
    (h : ∀ pair ∈ params, pair.1 ≠ name) :
    setParam name value params = params ++ [(name, value)] := by
  have hnone : params.findIdx? (fun pair => pair.1 = name) = none :=
    List.findIdx?_eq_none_iff.2 fun pair hpair => decide_eq_false (h pair hpair)
  rw [setParam, hnone]

/-! ### Round trip -/

theorem percentEncode_of_notMem {set : Char → Bool} {cs : List Char}
    (h : ∀ c ∈ cs, set c = false) : percentEncode set cs = cs := by
  induction cs with
  | nil => rfl
  | cons c cs ih =>
      have hc := h c (List.mem_cons_self ..)
      have hrest := ih fun c hc => h c (List.mem_cons_of_mem _ hc)
      rw [percentEncode, List.flatMap_cons, if_neg (by simp [hc])]
      exact congrArg (c :: ·) hrest

/-- A character of a written component is neither encoded nor removed. -/
theorem IsWritten.stays {c : Char} (h : IsWritten c.toNat) :
    inQuerySet true c = false ∧ inFragmentSet c = false ∧ isTrimmed c = false ∧
      isNewline c = false := by
  rw [IsWritten] at h
  simp only [inQuerySet, inFragmentSet, isControl, isTrimmed, isNewline, ← Char.toNat_inj,
    Bool.or_eq_false_iff, Bool.true_and, decide_eq_false_iff_not, Char.reduceToNat]
  omega

/-- What is encoded has no characters to encode. -/
theorem mem_percentEncode_fragment {cs : List Char} :
    ∀ c ∈ percentEncode inFragmentSet cs, inFragmentSet c = false := by
  intro c hc
  obtain ⟨d, _, hc⟩ := List.mem_flatMap.1 hc
  split_ifs at hc with hd
  · obtain ⟨b, _, hc⟩ := List.mem_flatMap.1 hc
    exact (isWritten_percentEncodeByte hc).stays.2.1
  · obtain rfl := List.mem_singleton.1 hc
    simpa using hd

/-- The characters of a serialization. -/
theorem mem_serialize {params : Params} {c : Char} (h : c ∈ serialize params) :
    inQuerySet true c = false ∧ isTrimmed c = false ∧ isNewline c = false := by
  have hcomponent {cs : List Char} (hc : c ∈ serializeComponent cs) :
      inQuerySet true c = false ∧ isTrimmed c = false ∧ isNewline c = false := by
    obtain ⟨hquery, _, hends⟩ := (isWritten_serializeComponent hc).stays
    exact ⟨hquery, hends⟩
  have hpair {pair : List Char × List Char} (hc : c ∈ serializePair pair) :
      inQuerySet true c = false ∧ isTrimmed c = false ∧ isNewline c = false := by
    rcases List.mem_append.1 hc with hc | hc
    · exact hcomponent hc
    · rcases List.mem_cons.1 hc with rfl | hc
      · decide
      · exact hcomponent hc
  induction params with
  | nil => cases h
  | cons pair params ih =>
      cases params with
      | nil => exact hpair (by simpa [serialize] using h)
      | cons next params =>
          rw [serialize, List.map_cons, List.map_cons, List.intercalate_cons_cons,
            ← List.map_cons, List.append_assoc] at h
          rcases List.mem_append.1 h with h | h
          · exact hpair h
          · rcases List.mem_cons.1 h with rfl | h
            · decide
            · exact ih h

/-- A larger set encodes more. -/
theorem inQuerySet_mono {special : Bool} {c : Char} (h : inQuerySet true c = false) :
    inQuerySet special c = false := by
  cases special
  · simp only [inQuerySet, Bool.or_eq_false_iff] at h ⊢
    exact ⟨h.1, rfl⟩
  · exact h

theorem clean_of_ends {cs : List Char} (hnewline : ∀ c ∈ cs, isNewline c = false)
    (hfirst : ∀ c ∈ cs.head?, isTrimmed c = false)
    (hlast : ∀ c ∈ cs.getLast?, isTrimmed c = false) :
    clean cs = cs := by
  have hdrop : cs.dropWhile isTrimmed = cs := by
    cases cs with
    | nil => rfl
    | cons c cs => exact List.dropWhile_cons_of_neg (by simp [hfirst c rfl])
  have hdrop' : cs.reverse.dropWhile isTrimmed = cs.reverse := by
    cases hcs : cs.reverse with
    | nil => rfl
    | cons c rest =>
        have hc : cs.getLast? = some c := by
          rw [List.getLast?_eq_head?_reverse, hcs]
          rfl
        exact List.dropWhile_cons_of_neg (by simp [hlast c hc])
  rw [clean, hdrop, hdrop', List.reverse_reverse]
  exact List.filter_eq_self.2 fun c hc => by simp [hnewline c hc]

/-- The parameters of the new query are those that were set. -/
theorem params_setQuery (url : Record) (params : Params) :
    (url.setQuery params).params = params := by
  rw [Record.params, Record.setQuery]
  dsimp only
  split_ifs with hempty
  · have hparse := parse_serialize params
    rw [hempty] at hparse
    exact hparse
  · exact parse_serialize params

section Parser

variable {parseFront : List Char → Option (List Char)} {special : List Char → Bool}

/-- What a parsed URL is like. -/
theorem parseUrl_eq {cs : List Char} {url : Record}
    (h : parseUrl parseFront special cs = some url) :
    (∃ front, parseFront front = some url.front) ∧
      ∀ fragment, url.fragment = some fragment → ∀ c ∈ fragment, inFragmentSet c = false := by
  obtain ⟨front, hfront, rfl⟩ := Option.map_eq_some_iff.1 h
  refine ⟨⟨_, hfront⟩, fun fragment hfragment c hc => ?_⟩
  obtain ⟨text, _, rfl⟩ := Option.map_eq_some_iff.1 hfragment
  exact mem_percentEncode_fragment c hc

theorem isTrimmed_of_inFragmentSet {c : Char} (h : inFragmentSet c = false) :
    isTrimmed c = false ∧ isNewline c = false := by
  simp only [inFragmentSet, isControl, Bool.or_eq_false_iff, decide_eq_false_iff_not] at h
  have hblank : c.toNat ≠ 32 := fun hc => h.1.1.1.1.2 (by
    rw [← Char.ofNat_toNat c, hc])
  simp only [isTrimmed, isNewline, Bool.or_eq_false_iff, decide_eq_false_iff_not]
  omega

/-- **The text of a URL with new parameters is parsed as that URL.** -/
theorem parseUrl_href (hparser : FrontParser parseFront) {cs : List Char} {url : Record}
    (h : parseUrl parseFront special cs = some url) {params : Params}
    (hne : serialize params ≠ []) :
    parseUrl parseFront special (url.setQuery params).href = some (url.setQuery params) := by
  obtain ⟨⟨text, hfront⟩, hfragment⟩ := parseUrl_eq h
  have hchars := hparser.chars text url.front hfront
  have hset : url.setQuery params = ⟨url.front, some (serialize params), url.fragment⟩ := by
    rw [Record.setQuery, if_neg hne]
  have hhref : (url.setQuery params).href =
      (url.front ++ '?' :: serialize params) ++ url.fragment.elim [] ('#' :: ·) := by
    rw [hset]
    rfl
  have hquestion : '?' ∉ url.front := fun hmem => (hchars _ hmem).1 rfl
  have hhash : '#' ∉ url.front ++ '?' :: serialize params := by
    intro hmem
    rcases List.mem_append.1 hmem with hmem | hmem
    · exact (hchars _ hmem).2.1 rfl
    · rcases List.mem_cons.1 hmem with heq | hmem
      · cases heq
      · exact absurd (mem_serialize hmem).1 (by decide)
  -- nothing is removed: the text begins with a letter and ends in the query or the fragment
  have hclean : clean (url.setQuery params).href = (url.setQuery params).href := by
    rw [hhref]
    refine clean_of_ends (fun c hc => ?_) (fun c hc => ?_) fun c hc => ?_
    · rcases List.mem_append.1 hc with hc | hc
      · rcases List.mem_append.1 hc with hc | hc
        · exact (hchars c hc).2.2
        · rcases List.mem_cons.1 hc with rfl | hc
          · decide
          · exact (mem_serialize hc).2.2
      · cases hfrag : url.fragment with
        | none => simp [hfrag] at hc
        | some fragment =>
            rw [hfrag, Option.elim_some] at hc
            rcases List.mem_cons.1 hc with rfl | hc
            · decide
            · exact (isTrimmed_of_inFragmentSet (hfragment fragment hfrag c hc)).2
    · obtain ⟨d, rest, hbegin, hd⟩ := hparser.begins text url.front hfront
      rw [hbegin] at hc
      obtain rfl : d = c := Option.some.inj hc
      exact hd
    · cases hfrag : url.fragment with
      | none =>
          rw [hfrag, Option.elim_none, List.append_nil] at hc
          obtain ⟨front, last, hlast⟩ :=
            List.eq_nil_or_concat (serialize params) |>.resolve_left hne
          rw [hlast, List.concat_eq_append, ← List.cons_append, ← List.append_assoc,
            List.getLast?_concat] at hc
          obtain rfl : last = c := Option.some.inj hc
          have hmem : last ∈ serialize params := by simp [hlast]
          exact (mem_serialize hmem).2.1
      | some fragment =>
          rw [hfrag, Option.elim_some] at hc
          rcases List.eq_nil_or_concat fragment with rfl | ⟨front, last, rfl⟩
          · rw [List.getLast?_concat] at hc
            obtain rfl : '#' = c := Option.some.inj hc
            decide
          · rw [List.concat_eq_append, ← List.cons_append, ← List.append_assoc,
              List.getLast?_concat] at hc
            obtain rfl : last = c := Option.some.inj hc
            exact (isTrimmed_of_inFragmentSet (hfragment _ hfrag last (by simp))).1
  have hsplit : splitFirst '#' (url.setQuery params).href =
      (url.front ++ '?' :: serialize params, url.fragment) := by
    rw [hhref]
    cases url.fragment with
    | none => rw [Option.elim_none, List.append_nil, splitFirst_of_notMem hhash]
    | some fragment => rw [Option.elim_some, splitFirst_append hhash]
  have hquery : percentEncode (inQuerySet (special url.front)) (serialize params) =
      serialize params := percentEncode_of_notMem fun c hc => inQuerySet_mono (mem_serialize hc).1
  have hfragment' : url.fragment.map (percentEncode inFragmentSet) = url.fragment := by
    cases hfrag : url.fragment with
    | none => rfl
    | some fragment => exact congrArg some (percentEncode_of_notMem (hfragment fragment hfrag))
  rw [parseUrl, hclean, hsplit]
  simp only [splitFirst_append hquestion, hparser.stable text url.front hfront, Option.map_some,
    hquery, hfragment', hset]

end Parser

end Url
end IdentityPlatform
