/-
# HTTP header fields

Header fields as an HTTP server hands them to its handlers: names in lower case, and
several fields of one name folded into one value, into a list, or dropped but for the
first.  What one server sends of its map is received by the next one as the same map, up
to the white space around the values (`get_receive_lines`).
-/

import Mathlib.Data.List.DropRight
import Mathlib.Data.List.Nodup

namespace Http

/-- A field name in lower case. -/
def lowerCase (name : String) : String := String.ofList (name.toList.map Char.toLower)

/-- What a name stands for: a text, or for some names several. -/
inductive HeaderValue
  | text (value : String)
  | texts (values : List String)
  deriving DecidableEq, Repr

/-- What becomes of several fields of one name. -/
inductive Folding
  | joined (glue : String)
  | first
  | array
  deriving DecidableEq, Repr

/-- The names of which only the first field counts. -/
def singletons : List String :=
  ["age", "authorization", "content-length", "content-type", "etag", "expires", "from", "host",
   "if-modified-since", "if-unmodified-since", "last-modified", "location", "max-forwards",
   "proxy-authorization", "referer", "retry-after", "server", "user-agent"]

/-- The folding of a name in lower case. -/
def folding (name : String) : Folding :=
  if name ∈ singletons then .first
  else if name = "set-cookie" then .array
  else if name = "cookie" then .joined "; "
  else .joined ", "

/-- The white space that may stand around a value. -/
def isBlank (c : Char) : Bool := c = ' ' || c = '\t'

/-- A value without the white space around it. -/
def trimBlanks (value : String) : String :=
  String.ofList ((value.toList.dropWhile isBlank).rdropWhile isBlank)

/-- The characters a value may have when it is sent: `[\t\x20-\x7e\x80-\xff]`. -/
def isFieldChar (c : Char) : Bool :=
  c = '\t' || (0x20 ≤ c.toNat && c.toNat ≤ 0x7e) || (0x80 ≤ c.toNat && c.toNat ≤ 0xff)

/-- A lower-case letter is not an upper-case one. -/
@[simp] theorem toLower_toLower (c : Char) : c.toLower.toLower = c.toLower := by
  unfold Char.toLower
  split
  · rename_i h
    have hle : c.val.toNat ≤ 90 := h.2
    have hadd : (c.val + ('a'.val - 'A'.val)).toNat = c.val.toNat + 32 := by
      rw [UInt32.toNat_add]
      have hdistance : ('a'.val - 'A'.val).toNat = 32 := rfl
      rw [hdistance]
      exact Nat.mod_eq_of_lt (by omega)
    have hge : 65 ≤ c.val.toNat := h.1
    rw [dif_neg fun h' => ?_]
    have hupper : (c.val + ('a'.val - 'A'.val)).toNat ≤ 90 := h'.2
    omega
  · rfl

@[simp] theorem lowerCase_lowerCase (name : String) :
    lowerCase (lowerCase name) = lowerCase name := by
  simp [lowerCase, Function.comp_def]

/-- Where there is no white space there is nothing to trim. -/
theorem trimBlanks_of_clear {value : String} (h : ∀ c ∈ value.toList, isBlank c = false) :
    trimBlanks value = value := by
  have hfront : value.toList.dropWhile isBlank = value.toList :=
    List.dropWhile_eq_self_iff.2 fun hlt => by simp [h _ (List.getElem_mem hlt)]
  have hback : value.toList.rdropWhile isBlank = value.toList :=
    List.rdropWhile_eq_self_iff.2 fun hne => by simp [h _ (List.getLast_mem hne)]
  rw [trimBlanks, hfront, hback, String.ofList_toList]

/-- Header fields by name. -/
structure Headers where
  entries : List (String × HeaderValue)
  nodup : (entries.map Prod.fst).Nodup
  lower : ∀ e ∈ entries, lowerCase e.1 = e.1

namespace Headers

/-- No fields. -/
def empty : Headers := ⟨[], List.nodup_nil, by simp⟩

/-- The value of a name in lower case. -/
def get (h : Headers) (name : String) : Option HeaderValue :=
  (h.entries.find? fun e => e.1 = name).map Prod.snd

/-- The fields without those of a name. -/
def delete (h : Headers) (name : String) : Headers where
  entries := h.entries.filter fun e => e.1 ≠ name
  nodup := h.nodup.sublist (List.filter_sublist.map _)
  lower e he := h.lower e (List.mem_filter.1 he).1

/-- The fields with one value for a name, in any case. -/
def put (h : Headers) (name : String) (value : HeaderValue) : Headers where
  entries := (lowerCase name, value) :: (h.delete (lowerCase name)).entries
  nodup := by
    refine List.nodup_cons.2 ⟨fun hmem => ?_, (h.delete _).nodup⟩
    obtain ⟨e, he, hname⟩ := List.mem_map.1 hmem
    simpa [hname] using (List.mem_filter.1 he).2
  lower := by
    intro e he
    rcases List.mem_cons.1 he with rfl | he
    · exact lowerCase_lowerCase name
    · exact (h.delete _).lower e he

/-- The fields after one more line. -/
def add (h : Headers) (line : String × String) : Headers :=
  let name := lowerCase line.1
  match folding name with
  | .joined glue => h.put line.1 <| .text <| match h.get name with
      | some (.text value) => value ++ glue ++ line.2
      | _ => line.2
  | .array => h.put line.1 <| .texts <| match h.get name with
      | some (.texts values) => values ++ [line.2]
      | _ => [line.2]
  | .first => if (h.get name).isSome then h else h.put line.1 (.text line.2)

/-- The fields that a server makes of the lines of a request. -/
def receive (lines : List (String × String)) : Headers :=
  (lines.map fun line => (line.1, trimBlanks line.2)).foldl add empty

/-- `setHeader`, which refuses values that cannot be sent. -/
def setHeader (name value : String) (h : Headers) : Option Headers :=
  if value.toList.all isFieldChar then some (h.put name (.text value)) else none

variable {h : Headers} {name name' value : String} {v : HeaderValue}

@[simp] theorem get_empty : empty.get name = none := rfl

@[simp] theorem get_delete_self : (h.delete name).get name = none := by
  simp [get, delete]

theorem get_delete_ne (hne : name' ≠ name) : (h.delete name).get name' = h.get name' := by
  have hfind : ∀ entries : List (String × HeaderValue),
      (entries.filter fun e => e.1 ≠ name).find? (fun e => e.1 = name') =
        entries.find? fun e => e.1 = name' := by
    intro entries
    rw [List.find?_filter]
    congr 1
    funext e
    by_cases he : e.1 = name'
    · simp [he, hne]
    · simp [he]
  rw [get, get, delete, hfind]

@[simp] theorem get_put_self : (h.put name v).get (lowerCase name) = some v := by
  simp [get, put]

theorem get_put_ne (hne : name' ≠ lowerCase name) : (h.put name v).get name' = h.get name' := by
  have hcons : (h.put name v).get name' = (h.delete (lowerCase name)).get name' := by
    rw [get, put, List.find?_cons_of_neg (by simpa using Ne.symm hne)]
    rfl
  rw [hcons, get_delete_ne hne]

/-- A line leaves the other names alone. -/
theorem get_add_ne {line : String × String} (hne : name ≠ lowerCase line.1) :
    (h.add line).get name = h.get name := by
  unfold add
  dsimp only
  split
  · exact get_put_ne hne
  · exact get_put_ne hne
  · split_ifs
    · rfl
    · exact get_put_ne hne

theorem get_foldl_add_ne {lines : List (String × String)}
    (hne : ∀ line ∈ lines, name ≠ lowerCase line.1) :
    (lines.foldl add h).get name = h.get name := by
  induction lines generalizing h with
  | nil => rfl
  | cons line lines ih =>
      rw [List.foldl_cons, ih fun l hl => hne l (List.mem_cons_of_mem _ hl),
        get_add_ne (hne line (List.mem_cons_self ..))]

/-- The first line of a name gives its text. -/
theorem get_add_first {line : String × String} (hnone : h.get (lowerCase line.1) = none)
    (hfold : folding (lowerCase line.1) ≠ .array) :
    (h.add line).get (lowerCase line.1) = some (.text line.2) := by
  unfold add
  dsimp only
  split
  · rw [hnone, get_put_self]
  · exact absurd ‹_› hfold
  · rw [if_neg (by simp [hnone]), get_put_self]

/-- What a line makes of a name depends on that name only. -/
theorem get_add_congr {h' : Headers} {line : String × String} (heq : h.get name = h'.get name) :
    (h.add line).get name = (h'.add line).get name := by
  by_cases hname : name = lowerCase line.1
  · subst hname
    unfold add
    dsimp only
    split
    · rw [heq, get_put_self, get_put_self]
    · rw [heq, get_put_self, get_put_self]
    · rw [heq]
      split_ifs
      · exact heq
      · rw [get_put_self, get_put_self]
  · rw [get_add_ne hname, get_add_ne hname, heq]

/-- The value of a name comes from the lines of that name. -/
theorem get_foldl_add_filter {h' : Headers} {lines : List (String × String)}
    (heq : h.get name = h'.get name) : (lines.foldl add h).get name =
      ((lines.filter fun line => lowerCase line.1 = name).foldl add h').get name := by
  induction lines generalizing h h' with
  | nil => exact heq
  | cons line lines ih =>
      rw [List.foldl_cons, List.filter_cons]
      split_ifs with hname
      · exact ih (get_add_congr heq)
      · refine ih ?_
        rw [get_add_ne (by simpa [eq_comm] using hname), heq]

theorem get_receive_filter {lines : List (String × String)} : (receive lines).get name =
    (receive (lines.filter fun line => lowerCase line.1 = name)).get name := by
  have heq : empty.get name = empty.get name := rfl
  rw [receive, get_foldl_add_filter heq, List.filter_map]
  rfl

/-- A header that is set. -/
theorem setHeader_eq_some {h' : Headers} :
    setHeader name value h = some h' ↔ value.toList.all isFieldChar = true ∧
      h' = h.put name (.text value) := by
  unfold setHeader
  split_ifs with hvalue <;> simp [hvalue, eq_comm]

/-! ### From one server to the next -/

/-- The lines of one entry. -/
def entryLines (e : String × HeaderValue) : List (String × String) :=
  match e.2 with
  | .text value => [(e.1, value)]
  | .texts values => values.map (e.1, ·)

theorem name_of_mem_entryLines {e : String × HeaderValue} {line : String × String}
    (hline : line ∈ entryLines e) : line.1 = e.1 := by
  unfold entryLines at hline
  split at hline
  · obtain rfl := List.mem_singleton.1 hline
    rfl
  · obtain ⟨value, _, rfl⟩ := List.mem_map.1 hline
    rfl

/-- The lines that send the fields. -/
def lines (h : Headers) : List (String × String) := h.entries.flatMap entryLines

theorem get_eq_some (hget : h.get name = some v) : (name, v) ∈ h.entries := by
  obtain ⟨e, hfind, rfl⟩ := Option.map_eq_some_iff.1 hget
  have hname : e.1 = name := by simpa using List.find?_some hfind
  exact hname ▸ List.mem_of_find?_eq_some hfind

/-- A name that is not sent is not received. -/
theorem get_receive_lines_none (hget : h.get name = none) :
    (receive h.lines).get name = none := by
  rw [receive, get_foldl_add_ne, get_empty]
  intro line hline hname
  obtain ⟨line', hline', rfl⟩ := List.mem_map.1 hline
  obtain ⟨e, he, hentry⟩ := List.mem_flatMap.1 hline'
  have hlower : name = e.1 := by
    rw [hname, name_of_mem_entryLines hentry, h.lower e he]
  simp only [get, Option.map_eq_none_iff, List.find?_eq_none, decide_eq_true_eq] at hget
  exact hget e he hlower.symm

/-- **What is sent is received**, without the white space around it. -/
theorem get_receive_lines (hget : h.get name = some (.text value)) (hfold : folding name ≠ .array) :
    (receive h.lines).get name = some (.text (trimBlanks value)) := by
  have hmem := get_eq_some hget
  have hlower : lowerCase name = name := h.lower _ hmem
  obtain ⟨before, after, hentries⟩ := List.append_of_mem hmem
  have hnodup := h.nodup
  rw [hentries, List.map_append, List.map_cons, List.nodup_append] at hnodup
  obtain ⟨_, hafter, hbefore⟩ := hnodup
  -- the other entries are of other names
  have hother : ∀ {entries : List (String × HeaderValue)}, entries ⊆ h.entries →
      name ∉ entries.map Prod.fst → ∀ line ∈ (entries.flatMap entryLines).map
        fun line => (line.1, trimBlanks line.2), name ≠ lowerCase line.1 := by
    intro entries hsub hnot line hline hname
    obtain ⟨line', hline', rfl⟩ := List.mem_map.1 hline
    obtain ⟨e, he, hentry⟩ := List.mem_flatMap.1 hline'
    rw [name_of_mem_entryLines hentry, h.lower e (hsub he)] at hname
    exact hnot (List.mem_map.2 ⟨e, he, hname.symm⟩)
  rw [receive, lines, hentries, List.flatMap_append, List.flatMap_cons, List.map_append,
    List.map_append, List.foldl_append, List.foldl_append, get_foldl_add_ne]
  · change (add _ (name, trimBlanks value)).get name = _
    have hfirst := @get_add_first (((before.flatMap entryLines).map fun line =>
      (line.1, trimBlanks line.2)).foldl add empty) (name, trimBlanks value)
    rw [hlower] at hfirst
    refine hfirst ?_ hfold
    rw [get_foldl_add_ne (hother (hentries ▸ List.subset_append_left ..) fun hin => ?_), get_empty]
    exact hbefore name hin name (List.mem_cons_self ..) rfl
  · refine hother (fun e he => ?_) (List.nodup_cons.1 hafter).1
    rw [hentries]
    exact List.mem_append_right _ (List.mem_cons_of_mem _ he)

end Headers
end Http
