/-
# A key-value store with expiry

What is assumed of the cache server: `SET key value EX ttl` makes the key hold
the value for exactly `ttl` seconds, `SET` without `EX` for ever, and a `GET`
answers with the value the key was last set to unless it has been deleted or
has expired since.  Times are milliseconds.
-/

import Mathlib.Data.List.Basic

namespace IdentityPlatform
namespace Relational

variable {κ β : Type} [DecidableEq κ]

/-- A stored value with the time at which it goes away. -/
structure Entry (β : Type) where
  value : β
  expiresAt : Option ℕ
  deriving DecidableEq, Repr

/-- The entries of a cache, the newest first. -/
abbrev Cache (κ β : Type) := List (κ × Entry β)

namespace Cache

/-- Whether an entry is still there at time `now`. -/
def alive (now : ℕ) (e : Entry β) : Bool :=
  match e.expiresAt with
  | none => true
  | some t => now < t

/-- `GET key`. -/
def get (now : ℕ) (k : κ) (cache : Cache κ β) : Option β :=
  match cache.find? fun p => p.1 = k with
  | some (_, e) => if alive now e then some e.value else none
  | none => none

/-- `DEL key`. -/
def del (k : κ) (cache : Cache κ β) : Cache κ β := cache.filter fun p => p.1 ≠ k

/-- `SET key value`, with `EX ttl` when a lifetime is given. -/
def set (now : ℕ) (k : κ) (v : β) (ttl : Option ℕ) (cache : Cache κ β) : Cache κ β :=
  (k, ⟨v, ttl.map fun s => now + s * 1000⟩) :: del k cache

/-- `EXPIRE key ttl`, nothing when the key is not there. -/
def expire (now : ℕ) (k : κ) (ttl : ℕ) (cache : Cache κ β) : Cache κ β :=
  match get now k cache with
  | some v => set now k v (some ttl) cache
  | none => cache

/-- `DEL` of all keys that match. -/
def delWhere (p : κ → Bool) (cache : Cache κ β) : Cache κ β := cache.filter fun e => !p e.1

/-- What a `GET` answers is stored under the key. -/
theorem mem_of_get {now : ℕ} {k : κ} {v : β} {cache : Cache κ β} (h : get now k cache = some v) :
    ∃ p ∈ cache, p.1 = k ∧ p.2.value = v := by
  unfold get at h
  split at h
  · rename_i k' e hfind
    split_ifs at h
    exact ⟨(k', e), List.mem_of_find?_eq_some hfind, by simpa using List.find?_some hfind,
      Option.some.inj h⟩
  · cases h

theorem find?_del_self {k : κ} {cache : Cache κ β} :
    (del k cache).find? (fun p => p.1 = k) = none := by
  simp [del]

theorem find?_del_ne {k k' : κ} {cache : Cache κ β} (h : k' ≠ k) :
    (del k cache).find? (fun p => p.1 = k') = cache.find? fun p => p.1 = k' := by
  induction cache with
  | nil => rfl
  | cons e cache ih =>
      by_cases he : e.1 = k
      · rw [del, List.filter_cons_of_neg (by simpa using he), ← del, ih]
        simp [he, Ne.symm h]
      · rw [del, List.filter_cons_of_pos (by simpa using he), ← del]
        simp [List.find?_cons, ih]

theorem find?_delWhere {p : κ → Bool} {k : κ} {cache : Cache κ β} (h : p k = false) :
    (delWhere p cache).find? (fun e => e.1 = k) = cache.find? fun e => e.1 = k := by
  induction cache with
  | nil => rfl
  | cons e cache ih =>
      by_cases he : p e.1
      · have hne : e.1 ≠ k := fun heq => by simp [heq, h] at he
        rw [delWhere, List.filter_cons_of_neg (by simpa using he), ← delWhere, ih]
        simp [hne]
      · rw [delWhere, List.filter_cons_of_pos (by simpa using he), ← delWhere]
        simp [List.find?_cons, ih]

/-- **A set key holds its value until it expires.** -/
theorem get_set_self {now t : ℕ} {k : κ} {v : β} {ttl : Option ℕ} {cache : Cache κ β} :
    get t k (set now k v ttl cache) =
      if alive t ⟨v, ttl.map fun s => now + s * 1000⟩ then some v else none := by
  simp [get, set]

theorem get_set_ne {now t : ℕ} {k k' : κ} {v : β} {ttl : Option ℕ} {cache : Cache κ β}
    (h : k' ≠ k) : get t k' (set now k v ttl cache) = get t k' cache := by
  simp only [get, set, List.find?_cons, Ne.symm h, decide_false, find?_del_ne h]

@[simp] theorem get_del_self {t : ℕ} {k : κ} {cache : Cache κ β} :
    get t k (del k cache) = none := by
  simp only [get, find?_del_self]

theorem get_del_ne {t : ℕ} {k k' : κ} {cache : Cache κ β} (h : k' ≠ k) :
    get t k' (del k cache) = get t k' cache := by
  simp only [get, find?_del_ne h]

theorem get_expire_ne {now t ttl : ℕ} {k k' : κ} {cache : Cache κ β} (h : k' ≠ k) :
    get t k' (expire now k ttl cache) = get t k' cache := by
  unfold expire
  split
  · exact get_set_ne h
  · rfl

/-! ### Counters -/

/-- What is stored under a key, expired or not. -/
def stored (k : κ) (cache : Cache κ β) : Option (Entry β) :=
  (cache.find? fun p => p.1 = k).map Prod.snd

/-- What is stored under a key, unless it has expired. -/
def entry (now : ℕ) (k : κ) (cache : Cache κ β) : Option (Entry β) :=
  (stored k cache).filter (alive now)

/-- `INCR key`: the new value.  A key that is not there counts from one and lives for ever;
one that is there keeps its expiry. -/
def incr (now : ℕ) (k : κ) (cache : Cache κ ℕ) : ℕ × Cache κ ℕ :=
  match entry now k cache with
  | some e => (e.value + 1, (k, ⟨e.value + 1, e.expiresAt⟩) :: del k cache)
  | none => (1, (k, ⟨1, none⟩) :: del k cache)

/-- `TTL key`, in seconds, rounded: `-2` when the key is not there, `-1` when it lives for
ever. -/
def ttl (now : ℕ) (k : κ) (cache : Cache κ β) : Int :=
  match entry now k cache with
  | none => -2
  | some e =>
      match e.expiresAt with
      | none => -1
      | some t => ((t - now + 500) / 1000 : ℕ)

theorem get_eq_entry {now : ℕ} {k : κ} {cache : Cache κ β} :
    get now k cache = (entry now k cache).map Entry.value := by
  unfold get entry stored
  cases cache.find? fun p => p.1 = k with
  | none => rfl
  | some p =>
      by_cases halive : alive now p.2 = true
      · simp [Option.filter_some, halive]
      · simp [Option.filter_some, halive]

theorem stored_cons_self {k : κ} {e : Entry β} {cache : Cache κ β} :
    stored k ((k, e) :: cache) = some e := by
  simp [stored]

theorem stored_cons_del_ne {k k' : κ} {e : Entry β} {cache : Cache κ β} (h : k' ≠ k) :
    stored k' ((k, e) :: del k cache) = stored k' cache := by
  simp only [stored, List.find?_cons, Ne.symm h, decide_false, find?_del_ne h]

theorem stored_del_ne {k k' : κ} {cache : Cache κ β} (h : k' ≠ k) :
    stored k' (del k cache) = stored k' cache := by
  simp only [stored, find?_del_ne h]

theorem stored_delWhere {p : κ → Bool} {k : κ} {cache : Cache κ β} (h : p k = false) :
    stored k (delWhere p cache) = stored k cache := by
  simp only [stored, find?_delWhere h]

theorem stored_incr_ne {now : ℕ} {k k' : κ} {cache : Cache κ ℕ} (h : k' ≠ k) :
    stored k' (incr now k cache).2 = stored k' cache := by
  unfold incr
  split
  · exact stored_cons_del_ne h
  · exact stored_cons_del_ne h

theorem stored_expire_ne {now ttl : ℕ} {k k' : κ} {cache : Cache κ β} (h : k' ≠ k) :
    stored k' (expire now k ttl cache) = stored k' cache := by
  unfold expire
  split
  · exact stored_cons_del_ne h
  · rfl

/-- **`INCR` of a key that is there.** -/
theorem incr_of_entry {now : ℕ} {k : κ} {cache : Cache κ ℕ} {e : Entry ℕ}
    (h : entry now k cache = some e) :
    (incr now k cache).1 = e.value + 1 ∧
      stored k (incr now k cache).2 = some ⟨e.value + 1, e.expiresAt⟩ := by
  simp only [incr, h]
  exact ⟨trivial, stored_cons_self⟩

/-- **`INCR` of a key that is not there.** -/
theorem incr_of_none {now : ℕ} {k : κ} {cache : Cache κ ℕ} (h : entry now k cache = none) :
    (incr now k cache).1 = 1 ∧ stored k (incr now k cache).2 = some ⟨1, none⟩ := by
  simp only [incr, h]
  exact ⟨trivial, stored_cons_self⟩

/-- **`EXPIRE` of a key that is there.** -/
theorem expire_of_entry {now ttl : ℕ} {k : κ} {cache : Cache κ β} {e : Entry β}
    (h : entry now k cache = some e) :
    stored k (expire now k ttl cache) = some ⟨e.value, some (now + ttl * 1000)⟩ := by
  have hget : get now k cache = some e.value := by rw [get_eq_entry, h, Option.map_some]
  simp only [expire, hget, set, Option.map_some]
  exact stored_cons_self

theorem expire_of_none {now ttl : ℕ} {k : κ} {cache : Cache κ β} (h : entry now k cache = none) :
    expire now k ttl cache = cache := by
  have hget : get now k cache = none := by rw [get_eq_entry, h, Option.map_none]
  simp only [expire, hget]

end Cache

end Relational
end IdentityPlatform
