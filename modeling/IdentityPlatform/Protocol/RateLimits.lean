/-
# What a limiter lets through

Without failures a request is answered how many there have been since its counter was
created, so exactly the first `n` of each counter pass.  A counter is created where there is
none, and its predecessor lived for `W` seconds from its `EXPIRE`: a request of one counter
and one of the next but one are more than `W` seconds apart, so those of an interval of `W`
seconds belong to two counters.
-/

import IdentityPlatform.Interleaving.Failures
import IdentityPlatform.Protocol.Counters
import Mathlib.Data.Finset.Card
import Mathlib.Data.Finset.Range
import Mathlib.Data.Finset.Dedup
import Mathlib.Data.Finset.Max

namespace IdentityPlatform
namespace RateLimit

open Interleaving Program Relational Machine

variable {o : RateLimitOptions} {c c' : LimitConfig} {i j n s : ℕ} {call : LimitCall}
  {key : String} {w : Counters} {op : CounterCommand} {e e' : LimitEvent}

/-- Every command is executed and its reply arrives. -/
def Delivers : Action String Delivery ℕ → Prop
  | .fail _ => False
  | .step _ .lost => False
  | _ => True

/-- The commands of all calls. -/
def commands (c : LimitConfig) : LimitLog := c.calls.flatMap fun call => call.log

/-- The command counts a request under the key. -/
def Counts (key : String) (e : LimitEvent) : Prop := e.op = .incr key

/-- The command creates the counter. -/
def Creates (key : String) (e : LimitEvent) : Prop :=
  e.op = .incr key ∧ Cache.entry e.pre.now key e.pre.cache = none

instance : DecidablePred (Counts key) := fun e => inferInstanceAs (Decidable (e.op = .incr key))

instance : DecidablePred (Creates key) := fun e =>
  inferInstanceAs (Decidable (e.op = .incr key ∧ Cache.entry e.pre.now key e.pre.cache = none))

/-- When the commands of a kind were executed, as places in the run. -/
def places (P : LimitEvent → Prop) [DecidablePred P] (c : LimitConfig) : Finset ℕ :=
  (((commands c).filter fun e => P e).map Event.seq).toFinset

/-- The requests counted up to the place `s` by the counter that lives there: no other one has
been created in between. -/
def life (key : String) (c : LimitConfig) (s : ℕ) : Finset ℕ :=
  (places (Counts key) c).filter fun t => t ≤ s ∧ ∀ u ∈ places (Creates key) c, u ≤ t ∨ s < u

/-- The request has been let through. -/
def passes (call : LimitCall) : Bool :=
  match call.result with
  | some (.ok outcome) => outcome.error.isNone
  | _ => false

/-- The requests under the key that are let through by a command in the `W` seconds from `t`
on. -/
def passedIn (o : RateLimitOptions) (key : String) (c : LimitConfig) (t : ℕ) : Finset ℕ :=
  (Finset.range c.calls.length).filter fun i => (c.calls[i]?).any fun call =>
    decide (limitKey o call.req = key) && passes call &&
      call.log.any fun e => decide (t ≤ e.pre.now ∧ e.pre.now < t + o.windowSeconds * 1000)

/-! ### Places -/

theorem mem_commands : e ∈ commands c ↔ c.Logged e := by
  simp only [commands, List.mem_flatMap]
  constructor
  · rintro ⟨call, hcall, he⟩
    obtain ⟨i, hi⟩ := List.mem_iff_getElem?.1 hcall
    exact ⟨i, call, hi, he⟩
  · rintro ⟨i, call, hi, he⟩
    exact ⟨call, List.mem_of_getElem? hi, he⟩

theorem mem_places {P : LimitEvent → Prop} [DecidablePred P] :
    s ∈ places P c ↔ ∃ e, c.Logged e ∧ P e ∧ e.seq = s := by
  simp [places, mem_commands, and_assoc]

theorem place_lt {P : LimitEvent → Prop} [DecidablePred P] (hv : (machine o).Valid c)
    (h : s ∈ places P c) : s < c.seq := by
  obtain ⟨e, ⟨i, call, hi, he⟩, _, rfl⟩ := mem_places.1 h
  exact hv.seq_lt hi e he

/-- Places depend on the commands only. -/
theorem places_congr {P : LimitEvent → Prop} [DecidablePred P]
    (h : ∀ e, c'.Logged e ↔ c.Logged e) : places P c' = places P c := by
  ext s
  simp only [mem_places, h]

theorem life_congr (h : ∀ e, c'.Logged e ↔ c.Logged e) : life key c' s = life key c s := by
  rw [life, life, places_congr h, places_congr h]

/-- A command adds its place. -/
theorem mem_places_record {P : LimitEvent → Prop} [DecidablePred P] (hi : c.calls[i]? = some call)
    {ans : Except Err op.Reply} {post : Counters} {prog : LimitProg LimitOutcome} :
    s ∈ places P (c.record i call op ans post prog) ↔
      s ∈ places P c ∨ (s = c.seq ∧ P ⟨c.seq, c.world, op, ans, post⟩) := by
  simp only [mem_places, Config.logged_record hi]
  constructor
  · rintro ⟨e, hlogged | rfl, hP, rfl⟩
    · exact .inl ⟨e, hlogged, hP, rfl⟩
    · exact .inr ⟨rfl, hP⟩
  · rintro (⟨e, hlogged, hP, rfl⟩ | ⟨rfl, hP⟩)
    · exact ⟨e, .inl hlogged, hP, rfl⟩
    · exact ⟨_, .inr rfl, hP, rfl⟩

/-! ### The life of a counter through a step -/

theorem mem_life : n ∈ life key c s ↔ n ∈ places (Counts key) c ∧ n ≤ s ∧
    ∀ u ∈ places (Creates key) c, u ≤ n ∨ s < u := by
  simp [life]

section Record

variable {ans : Except Err op.Reply} {post : Counters} {prog : LimitProg LimitOutcome}

/-- A command does not change what was counted before it. -/
theorem life_record_old (hi : c.calls[i]? = some call) (hs : s < c.seq) :
    life key (c.record i call op ans post prog) s = life key c s := by
  ext n
  simp only [mem_life, mem_places_record hi]
  constructor
  · rintro ⟨hcounted | ⟨rfl, _⟩, hle, hcreated⟩
    · exact ⟨hcounted, hle, fun u hu => hcreated u (.inl hu)⟩
    · exact absurd hle (Nat.not_le.2 hs)
  · rintro ⟨hcounted, hle, hcreated⟩
    refine ⟨.inl hcounted, hle, ?_⟩
    rintro u (hu | ⟨rfl, _⟩)
    · exact hcreated u hu
    · exact .inr hs

/-- A command that counts nothing under the key. -/
theorem life_record_other (hi : c.calls[i]? = some call) (hop : op ≠ .incr key) :
    life key (c.record i call op ans post prog) s = life key c s := by
  ext n
  simp only [mem_life, mem_places_record hi, Counts, Creates, hop, false_and, and_false, or_false]

/-- A request is counted by the counter that lives. -/
theorem life_record_count (hv : (machine o).Valid c) (hi : c.calls[i]? = some call)
    (hop : op = .incr key) (hlive : Cache.entry c.world.now key c.world.cache ≠ none)
    (hs : c.seq ≤ s) :
    life key (c.record i call op ans post prog) s = insert c.seq (life key c s) := by
  ext n
  simp only [mem_life, mem_places_record hi, Counts, Creates, hop, hlive, and_false, and_true,
    or_false, Finset.mem_insert]
  constructor
  · rintro ⟨hcounted | rfl, hle, hcreated⟩
    · exact .inr ⟨hcounted, hle, hcreated⟩
    · exact .inl rfl
  · rintro (rfl | ⟨hcounted, hle, hcreated⟩)
    · exact ⟨.inr rfl, hs, fun u hu => .inl (place_lt hv hu).le⟩
    · exact ⟨.inl hcounted, hle, hcreated⟩

/-- A request that finds no counter is the first of the next one. -/
theorem life_record_create (hv : (machine o).Valid c) (hi : c.calls[i]? = some call)
    (hop : op = .incr key) (hnone : Cache.entry c.world.now key c.world.cache = none)
    (hs : c.seq ≤ s) : life key (c.record i call op ans post prog) s = {c.seq} := by
  ext n
  simp only [mem_life, mem_places_record hi, Counts, Creates, hop, hnone, and_true,
    Finset.mem_singleton]
  constructor
  · rintro ⟨hcounted | rfl, hle, hcreated⟩
    · rcases hcreated c.seq (.inr rfl) with hle' | hlt
      · exact absurd hle' (Nat.not_le.2 (place_lt hv hcounted))
      · exact absurd hlt (Nat.not_lt.2 hs)
    · rfl
  · rintro rfl
    refine ⟨.inr rfl, hs, ?_⟩
    rintro u (hu | rfl)
    · exact .inl (place_lt hv hu).le
    · exact .inl le_rfl

end Record

/-- Past the last command the life does not depend on the place. -/
theorem life_late (hv : (machine o).Valid c) (hn : c.seq ≤ n + 1) (hs : c.seq ≤ s + 1) :
    life key c n = life key c s := by
  ext t
  simp only [mem_life]
  refine and_congr_right fun ht => ?_
  have hlt := place_lt hv ht
  refine and_congr (by omega) (forall₂_congr fun u hu => ?_)
  have hlt' := place_lt hv hu
  omega

theorem life_next (hv : (machine o).Valid c) : life key c (c.seq + 1) = life key c c.seq :=
  life_late hv (Nat.le_succ_of_le (Nat.le_succ _)) (Nat.le_succ _)

/-! ### A run without failures -/

/-- Time passes. -/
theorem stable_now : (machine o).Stable fun w w' => w.now ≤ w'.now where
  refl _ := le_rfl
  trans h h' := h.trans h'
  exec {op} _ _ _ _ h := by
    have hnow : ∀ w, (op.effect w).2.now = w.now := fun w => by cases op <;> rfl
    rcases answers_cases (.inl ⟨_, h⟩) with ⟨rfl, _⟩ | ⟨rfl, _⟩
    · exact (hnow _).ge
    · exact le_rfl
  env h := by
    obtain rfl := Option.some.inj h
    exact Nat.le_add_right _ _

/-- What the commands of a run without failures have answered and left: each request has been
answered how many its counter had counted, and a counter lives for `W` seconds at least. -/
structure Counting (o : RateLimitOptions) (c : LimitConfig) : Prop where
  answered : ∀ {e}, c.Logged e → ∃ a, e.ans = .ok a
  counted : ∀ {key n pre m post}, c.Logged ⟨n, pre, .incr key, .ok m, post⟩ →
    (life key c n).card = m
  value : ∀ {key e}, Cache.entry c.world.now key c.world.cache = some e →
    (life key c c.seq).card = e.value
  kept : ∀ {key e}, c.Logged e → Creates key e → ∃ e', Cache.stored key c.world.cache = some e' ∧
    ∀ b, e'.expiresAt = some b → e.pre.now + o.windowSeconds * 1000 ≤ b
  spaced : ∀ {key e e'}, c.Logged e → c.Logged e' → Creates key e → Creates key e' →
    e.seq < e'.seq → e.pre.now + o.windowSeconds * 1000 ≤ e'.pre.now

/-- A stored counter that is not there has expired. -/
theorem expired_of_stored {now : ℕ} {cache : Cache String ℕ} {x : Entry ℕ}
    (h : Cache.stored key cache = some x) (hnone : Cache.entry now key cache = none) :
    ∃ b, x.expiresAt = some b ∧ b ≤ now := by
  rw [Cache.entry, h, Option.filter_some] at hnone
  obtain ⟨v, expiresAt⟩ := x
  cases expiresAt with
  | none => cases hnone
  | some b =>
      refine ⟨b, rfl, Nat.not_lt.1 fun hlt => ?_⟩
      simp [Cache.alive, hlt] at hnone

section Step

variable {k : Except Err op.Reply → LimitProg LimitOutcome} {prog : LimitProg LimitOutcome}

/-- The counter after a request. -/
theorem Counting.value_count (h : Counting o c) (hv : (machine o).Valid c)
    (hi : c.calls[i]? = some call) (hop : op = .incr key) (hs : c.seq ≤ s)
    {ans : Except Err op.Reply}
    {post : Counters} : (life key (c.record i call op ans post prog) s).card =
      (Cache.incr c.world.now key c.world.cache).1 := by
  cases hentry : Cache.entry c.world.now key c.world.cache with
  | none =>
      rw [life_record_create hv hi hop hentry hs, Finset.card_singleton,
        (Cache.incr_of_none hentry).1]
  | some x =>
      have hnew : c.seq ∉ life key c s := fun hmem =>
        Nat.lt_irrefl _ (place_lt hv (mem_life.1 hmem).1)
      have hlive : Cache.entry c.world.now key c.world.cache ≠ none := by simp [hentry]
      rw [life_record_count hv hi hop hlive hs, Finset.card_insert_of_notMem hnew,
        life_late hv (hs.trans (Nat.le_succ s)) (Nat.le_succ c.seq), h.value hentry,
        (Cache.incr_of_entry hentry).1]

theorem Counting.record (h : Counting o c) (hreach : (machine o).Reachable Counters.Initial c)
    (hi : c.calls[i]? = some call) (hp : call.prog = .call op k) :
    Counting o (c.record i call op (.ok (op.effect c.world).1) (op.effect c.world).2 prog) where
  answered hlogged := by
    rcases (Config.logged_record hi).1 hlogged with hold | rfl
    · exact h.answered hold
    · exact ⟨_, rfl⟩
  counted {key n pre m post} hlogged := by
    rcases (Config.logged_record hi).1 hlogged with hold | heq
    · obtain ⟨j, call', hj, he⟩ := hold
      rw [life_record_old hi (hreach.valid.seq_lt hj _ he)]
      exact h.counted ⟨j, call', hj, he⟩
    · cases heq
      exact h.value_count hreach.valid hi rfl le_rfl
  value {key x} hentry := by
    have hv := hreach.valid
    have hnow : (op.effect c.world).2.now = c.world.now := by cases op <;> rfl
    have hstored := stored_of_entry hentry
    rw [Config.record_world] at hstored
    by_cases hop : op = .incr key
    · rw [Config.record_seq, h.value_count hv hi hop (Nat.le_succ _)]
      subst hop
      cases hbefore : Cache.entry c.world.now key c.world.cache with
      | none =>
          obtain rfl := Option.some.inj ((Cache.incr_of_none hbefore).2.symm.trans hstored)
          exact (Cache.incr_of_none hbefore).1
      | some y =>
          obtain rfl := Option.some.inj ((Cache.incr_of_entry hbefore).2.symm.trans hstored)
          exact (Cache.incr_of_entry hbefore).1
    · rw [Config.record_seq, life_record_other hi hop, life_next hv]
      rcases stored_effect op c.world key with hsame | ⟨heq, _⟩ | ⟨_, y, _, hbefore, hexpiry⟩
      · refine h.value ?_
        rw [Config.record_world, hnow, Cache.entry, hsame] at hentry
        exact hentry
      · exact absurd heq hop
      · obtain rfl := Option.some.inj (hexpiry.symm.trans hstored)
        have hcount := h.value hbefore
        exact hcount
  kept {key e} hlogged hcreates := by
    rcases (Config.logged_record hi).1 hlogged with hold | rfl
    · obtain ⟨y, hy, hlong⟩ := h.kept hold hcreates
      rcases stored_effect op c.world key with hsame | ⟨rfl, hcount⟩ | ⟨_, x, rfl, hbefore, hexpiry⟩
      · exact ⟨y, hsame.trans hy, hlong⟩
      · refine ⟨_, hcount, fun b hb => hlong b ?_⟩
        cases hbefore : Cache.entry c.world.now key c.world.cache with
        | none =>
            rw [hbefore] at hb
            cases hb
        | some x =>
            rw [hbefore] at hb
            obtain rfl := Option.some.inj ((stored_of_entry hbefore).symm.trans hy)
            exact hb
      · refine ⟨_, hexpiry, fun b hb => ?_⟩
        obtain rfl := Option.some.inj hb
        obtain ⟨_, rfl, _⟩ := next_allowed hreach.valid hi hp
        obtain ⟨j, call', hj, he⟩ := hold
        have hordered := hreach.ordered stable_now
        have hpast := (hordered.answer hj e he).trans (hordered.post hj e he)
        omega
    · obtain ⟨rfl, hnone⟩ := hcreates
      exact ⟨_, (Cache.incr_of_none hnone).2, fun b hb => by cases hb⟩
  spaced {key e e'} hlogged hlogged' hcreates hcreates' hlt := by
    rcases (Config.logged_record hi).1 hlogged' with hold' | rfl
    · rcases (Config.logged_record hi).1 hlogged with hold | rfl
      · exact h.spaced hold hold' hcreates hcreates' hlt
      · obtain ⟨j, call', hj, he⟩ := hold'
        exact absurd (hreach.valid.seq_lt hj e' he) (Nat.lt_asymm hlt)
    · rcases (Config.logged_record hi).1 hlogged with hold | rfl
      · obtain ⟨y, hy, hlong⟩ := h.kept hold hcreates
        obtain ⟨b, hb, hle⟩ := expired_of_stored hy hcreates'.2
        exact (hlong b hb).trans hle
      · exact absurd hlt (Nat.lt_irrefl _)

end Step

/-- **Without failures a request is answered its rank.** -/
theorem counting_of_runs (hw : w.Initial)
    (h : (machine o).Runs (fun _ a => Delivers a) (Config.initial w) c) : Counting o c := by
  refine (h.invariant (I := fun c => (machine o).Reachable Counters.Initial c ∧ Counting o c)
    ⟨⟨w, hw, .refl _⟩, ?_⟩ fun c a c' hI hok hs => ⟨hI.1.run (run_of_apply hs), ?_⟩).2
  · have hlogged : ∀ e, ¬(Config.initial w : LimitConfig).Logged e := by
      rintro e ⟨i, call, hi, _⟩
      cases hi
    refine ⟨fun h => absurd h (hlogged _), fun h => absurd h (hlogged _), fun {key e} hentry => ?_,
      fun h => absurd h (hlogged _), fun h => absurd h (hlogged _)⟩
    have hempty : w.cache = [] := hw
    rw [Config.initial, hempty] at hentry
    cases hentry
  · obtain ⟨hreach, hcounting⟩ := hI
    have hv := hreach.valid
    cases a with
    | accept req =>
        obtain rfl := Option.some.inj hs
        have hsame : ∀ e, ((machine o).accept c req).Logged e ↔ c.Logged e := fun _ => logged_accept
        constructor
        · exact fun hlogged => hcounting.answered ((hsame _).1 hlogged)
        · exact fun hlogged => (congrArg _ (life_congr hsame)).trans
            (hcounting.counted ((hsame _).1 hlogged))
        · intro key e hentry
          have hseq : ((machine o).accept c req).seq = c.seq + 1 := rfl
          rw [life_congr hsame, hseq, life_next hv]
          exact hcounting.value hentry
        · exact fun hlogged => hcounting.kept ((hsame _).1 hlogged)
        · exact fun hlogged hlogged' =>
            hcounting.spaced ((hsame _).1 hlogged) ((hsame _).1 hlogged')
    | fail i => exact hok.elim
    | step i delivery =>
        cases delivery with
        | lost => exact hok.elim
        | delivered =>
            obtain ⟨call, op, k, ans, post, hi, hp, hexec, rfl⟩ := apply_step hs
            obtain ⟨rfl, rfl⟩ := Prod.mk.inj (Option.some.inj hexec)
            exact hcounting.record hreach hi hp
    | env ms =>
        obtain rfl := Option.some.inj hs
        constructor
        · exact hcounting.answered
        · exact fun hlogged => (congrArg _ (life_congr fun _ => Iff.rfl)).trans
            (hcounting.counted hlogged)
        · intro key e hentry
          refine ((congrArg _ (life_congr fun _ => Iff.rfl)).trans
            (congrArg _ (life_next hv))).trans (hcounting.value ?_)
          obtain ⟨hstored, halive⟩ := Option.filter_eq_some_iff.1 hentry
          refine Option.filter_eq_some_iff.2 ⟨hstored, ?_⟩
          obtain ⟨v, expiresAt⟩ := e
          cases expiresAt with
          | none => rfl
          | some b =>
              simp only [Cache.alive, decide_eq_true_eq] at halive ⊢
              omega
        · exact hcounting.kept
        · exact hcounting.spaced

/-! ### What passes -/

/-- The limiter throws nothing of its own. -/
theorem middleware_failsWith {identity : String} :
    FailsWith Counters (fun _ => False) (rateLimitMiddleware o identity) := by
  refine .bind (.bind .perform fun _ => .bind (.onlyIf .perform) fun _ => .pure) fun _ => ?_
  exact .ite (.bind .perform fun _ => .pure) .pure

/-- **A request passes if it is among the first `n` of its counter**, and is refused otherwise. -/
theorem Counting.outcome (h : Counting o c) (hv : (machine o).Valid c)
    (hi : c.calls[i]? = some call) {r : Except Err LimitOutcome} (hr : call.result = some r) :
    ∃ e outcome, e ∈ call.log ∧ e.op = .incr (limitKey o call.req) ∧ r = .ok outcome ∧
      (outcome.error = none ↔ (life (limitKey o call.req) c e.seq).card ≤ o.limit) ∧
      (outcome.error ≠ none → ∃ retry, outcome.error = some (.tooManyRequestsError retry)) := by
  have hreturns := hv.returned hi hr
  cases r with
  | error err =>
      rcases middleware_failsWith _ _ _ hreturns with ⟨op, n, pre, post, he⟩ | hfalse
      · obtain ⟨a, ha⟩ := h.answered ⟨i, call, hi, he⟩
        cases ha
      · exact hfalse.elim
  | ok outcome =>
      obtain ⟨l₁, count, h₁, hcases⟩ := middleware_ok hreturns
      obtain ⟨n, pre, post, hfirst⟩ : ∃ n pre post,
          (⟨n, pre, .incr (limitKey o call.req), .ok count, post⟩ : LimitEvent) ∈ l₁ := by
        obtain ⟨n, pre, post, ⟨_, rfl⟩ | ⟨_, _, _, _, rfl⟩⟩ := incrementWindow_ok h₁
        · exact ⟨n, pre, post, List.mem_singleton_self _⟩
        · exact ⟨n, pre, post, List.mem_cons_of_mem _ (List.mem_singleton_self _)⟩
      have hmem :
          (⟨n, pre, .incr (limitKey o call.req), .ok count, post⟩ : LimitEvent) ∈ call.log := by
        rcases hcases with ⟨_, _, hlog⟩ | ⟨_, _, _, _, _, _, hlog⟩
        · exact hlog ▸ hfirst
        · exact hlog ▸ List.mem_cons_of_mem _ hfirst
      refine ⟨_, outcome, hmem, rfl, rfl, ?_, fun herror => ?_⟩
      · rw [outcome_of_count hreturns hmem, h.counted ⟨i, call, hi, hmem⟩]
      · rcases hcases with ⟨_, hnone, _⟩ | ⟨_, _, _, ttl, _, hsome, _⟩
        · exact absurd hnone herror
        · exact ⟨_, hsome⟩

/-- The commands of a request that is let through: its count, and the `EXPIRE` if it is the
first of its counter. -/
structure LetThrough (o : RateLimitOptions) (key : String) (c : LimitConfig) (call : LimitCall)
    (e : LimitEvent) : Prop where
  mem : e ∈ call.log
  count : e.op = .incr key
  rank : (life key c e.seq).card ≤ o.limit
  only : call.log = [e] ∨ (Opened key [e] ∧ ∃ x : LimitEvent, call.log = [x, e])

theorem Counting.letThrough (h : Counting o c) (hv : (machine o).Valid c)
    (hi : c.calls[i]? = some call) (hpasses : passes call = true)
    (hkey : limitKey o call.req = key) : ∃ e, LetThrough o key c call e := by
  subst hkey
  obtain ⟨outcome, hr, hnone⟩ :
      ∃ outcome, call.result = some (.ok outcome) ∧ outcome.error = none := by
    unfold passes at hpasses
    split at hpasses
    · exact ⟨_, by assumption, Option.isNone_iff_eq_none.1 hpasses⟩
    · cases hpasses
  have hreturns := hv.returned hi hr
  obtain ⟨l₁, count, h₁, ⟨hlimit, _, rfl⟩ | ⟨_, _, _, _, _, hsome, _⟩⟩ := middleware_ok hreturns
  · obtain ⟨n, pre, post, ⟨_, hlog⟩ | ⟨rfl, m, pre', post', hlog⟩⟩ := incrementWindow_ok h₁
    · have hmem :
          (⟨n, pre, .incr (limitKey o call.req), .ok count, post⟩ : LimitEvent) ∈ call.log :=
        hlog ▸ List.mem_singleton_self _
      refine ⟨_, hmem, rfl, ?_, .inl hlog⟩
      rw [h.counted ⟨i, call, hi, hmem⟩]
      exact hlimit
    · have hmem : (⟨n, pre, .incr (limitKey o call.req), .ok 1, post⟩ : LimitEvent) ∈ call.log :=
        hlog ▸ List.mem_cons_of_mem _ (List.mem_singleton_self _)
      refine ⟨_, hmem, rfl, ?_, .inr ⟨⟨n, pre, post, rfl⟩, _, hlog⟩⟩
      rw [h.counted ⟨i, call, hi, hmem⟩]
      exact hlimit
  · rw [hnone] at hsome
    cases hsome

/-- The commands of a call are the newest first. -/
theorem LetThrough.seq_le (h : LetThrough o key c call e) (hv : (machine o).Valid c)
    (hi : c.calls[i]? = some call) (he' : e' ∈ call.log) : e.seq ≤ e'.seq := by
  rcases h.only with hlog | ⟨_, x, hlog⟩
  · rw [hlog] at he'
    obtain rfl := List.mem_singleton.1 he'
    exact le_rfl
  · have hsorted := hv.sorted hi
    rw [hlog] at he' hsorted
    rcases List.mem_cons.1 he' with rfl | he'
    · exact (List.rel_of_pairwise_cons hsorted (List.mem_singleton_self _)).le
    · obtain rfl := List.mem_singleton.1 he'
      exact le_rfl

/-- **The `EXPIRE` of a counter comes before the next counter.** -/
theorem LetThrough.seq_lt (h : LetThrough o key c call e)
    (hreach : (machine o).Reachable Counters.Initial c) (hi : c.calls[i]? = some call)
    {u : LimitEvent} (hu : c.Logged u) (hcreates : Creates key u) (hlt : e.seq < u.seq)
    (he' : e' ∈ call.log) : e'.seq < u.seq := by
  rcases h.only with hlog | ⟨⟨n, pre, post, heq⟩, x, hlog⟩
  · rw [hlog] at he'
    obtain rfl := List.mem_singleton.1 he'
    exact hlt
  · obtain ⟨j, call', hj, hmem⟩ := hu
    obtain ⟨c₁, call₁, hreach₁, hworld, hseq, hi₁, hmem₁, hsuffix⟩ :=
      hreach.before_other hj hmem hi h.mem hlt
    -- the call has sent its `EXPIRE` by then, or it still awaits
    have hall : e' ∈ call₁.log := by
      rw [hlog] at hsuffix he'
      rcases List.suffix_cons_iff.1 hsuffix with hwhole | hsuffix
      · rw [hwhole]
        exact he'
      · rcases List.suffix_cons_iff.1 hsuffix with hopened | hempty
        · have hawaits : Awaits c₁ key i := ⟨call₁, hi₁, n, pre, post, hopened.trans heq⟩
          obtain ⟨v, hstored⟩ := (reachable_holding hreach₁).held hawaits
          have hgone := hcreates.2
          rw [← hworld, entry_of_stored hstored] at hgone
          cases hgone
        · rw [List.suffix_nil.1 hempty] at hmem₁
          cases hmem₁
    exact hseq ▸ hreach₁.valid.seq_lt hi₁ e' hall

/-- What is executed later is executed no earlier. -/
theorem now_le_of_seq_le (hreach : (machine o).Reachable Counters.Initial c) (he : c.Logged e)
    (he' : c.Logged e') (hle : e.seq ≤ e'.seq) : e.pre.now ≤ e'.pre.now := by
  obtain ⟨i, call, hi, he⟩ := he
  obtain ⟨j, call', hj, he'⟩ := he'
  have hordered := hreach.ordered stable_now
  rcases Nat.lt_or_eq_of_le hle with hlt | heq
  · exact (hordered.answer hi e he).trans (hordered.events hi hj e he e' he' hlt)
  · obtain ⟨_, rfl⟩ := hreach.valid.seq_inj hi hj e he e' he' heq
    exact le_rfl

/-- **Two counters on, `W` seconds have passed**: between a request of one counter and a request
of the next but one. -/
theorem Counting.window (h : Counting o c) (hreach : (machine o).Reachable Counters.Initial c)
    {call' : LimitCall} (hi : c.calls[i]? = some call) (hthrough : LetThrough o key c call e)
    (hj : c.calls[j]? = some call') (hthrough' : LetThrough o key c call' e')
    {u u' : LimitEvent} (hu : c.Logged u) (hcreates : Creates key u) (hu' : c.Logged u')
    (hcreates' : Creates key u') (hlt : e.seq < u.seq) (hnext : u.seq < u'.seq)
    (hle : u'.seq ≤ e'.seq) {x x' : LimitEvent} (hx : x ∈ call.log) (hx' : x' ∈ call'.log) :
    x.pre.now + o.windowSeconds * 1000 ≤ x'.pre.now := by
  have hbefore : x.pre.now ≤ u.pre.now :=
    now_le_of_seq_le hreach ⟨i, call, hi, hx⟩ hu (hthrough.seq_lt hreach hi hu hcreates hlt hx).le
  have hafter : u'.pre.now ≤ x'.pre.now :=
    now_le_of_seq_le hreach hu' ⟨j, call', hj, hx'⟩
      (hle.trans (hthrough'.seq_le hreach.valid hj hx'))
  have hspaced := h.spaced hu hu' hcreates hcreates' hnext
  omega

theorem mem_passedIn {t : ℕ} : i ∈ passedIn o key c t ↔
    ∃ call, c.calls[i]? = some call ∧ limitKey o call.req = key ∧ passes call = true ∧
      ∃ x ∈ call.log, t ≤ x.pre.now ∧ x.pre.now < t + o.windowSeconds * 1000 := by
  simp only [passedIn, Finset.mem_filter, Finset.mem_range, Option.any_eq_true, Bool.and_eq_true,
    decide_eq_true_eq, List.any_eq_true, and_assoc]
  constructor
  · rintro ⟨_, call, hi, hrest⟩
    exact ⟨call, hi, hrest⟩
  · rintro ⟨call, hi, hrest⟩
    exact ⟨(List.getElem?_eq_some_iff.1 hi).1, call, hi, hrest⟩

/-- Places of which each belongs to a life of at most `m`, and of any three in order the first
to that of the second or the second to that of the third. -/
theorem card_le_of_two_lives {P : Finset ℕ} {L : ℕ → Finset ℕ} {m : ℕ}
    (hcard : ∀ s ∈ P, (L s).card ≤ m)
    (hlives : ∀ s₀ ∈ P, ∀ s₁ ∈ P, ∀ s₂ ∈ P, s₀ ≤ s₁ → s₁ ≤ s₂ → s₀ ∈ L s₁ ∨ s₁ ∈ L s₂) :
    P.card ≤ 2 * m := by
  rcases P.eq_empty_or_nonempty with rfl | hP
  · simp
  have hlast := P.max'_mem hP
  have hlast' := hcard _ hlast
  rcases (P \ L (P.max' hP)).eq_empty_or_nonempty with hnone | hrest
  · have hle := Finset.card_le_card (Finset.sdiff_eq_empty_iff_subset.1 hnone)
    omega
  -- the last place outside the last life
  obtain ⟨hmem, hout⟩ := Finset.mem_sdiff.1 ((P \ L (P.max' hP)).max'_mem hrest)
  have hcover : P ⊆ L (P.max' hP) ∪ L ((P \ L (P.max' hP)).max' hrest) := by
    intro s hs
    by_cases hin : s ∈ L (P.max' hP)
    · exact Finset.mem_union_left _ hin
    · have hle := Finset.le_max' _ s (Finset.mem_sdiff.2 ⟨hs, hin⟩)
      rcases hlives s hs _ hmem _ hlast hle (P.le_max' _ hmem) with hfirst | hsecond
      · exact Finset.mem_union_right _ hfirst
      · exact absurd hsecond hout
  calc P.card ≤ (L (P.max' hP) ∪ L ((P \ L (P.max' hP)).max' hrest)).card :=
        Finset.card_le_card hcover
    _ ≤ (L (P.max' hP)).card + (L ((P \ L (P.max' hP)).max' hrest)).card := Finset.card_union_le ..
    _ ≤ m + m := Nat.add_le_add hlast' (hcard _ hmem)
    _ = 2 * m := (Nat.two_mul m).symm

/-- **No more than `2n` requests in `W` seconds.** -/
theorem Counting.card_passedIn_le (h : Counting o c)
    (hreach : (machine o).Reachable Counters.Initial c) (t : ℕ) :
    (passedIn o key c t).card ≤ 2 * o.limit := by
  have hv := hreach.valid
  -- each request is told by the command that counts it
  have hplace : ∀ i ∈ passedIn o key c t, ∃ s, ∃ call e x, c.calls[i]? = some call ∧
      LetThrough o key c call e ∧ e.seq = s ∧ x ∈ call.log ∧ t ≤ x.pre.now ∧
      x.pre.now < t + o.windowSeconds * 1000 := by
    intro i hi
    obtain ⟨call, hi, hkey, hpasses, x, hx, hfrom, hto⟩ := mem_passedIn.1 hi
    obtain ⟨e, hthrough⟩ := h.letThrough hv hi hpasses hkey
    exact ⟨_, call, e, x, hi, hthrough, rfl, hx, hfrom, hto⟩
  choose! place hplace using hplace
  have hinj : Set.InjOn place (passedIn o key c t) := by
    intro i hi j hj heq
    obtain ⟨call, e, _, hi, hthrough, hseq, _⟩ := hplace i hi
    obtain ⟨call', e', _, hj, hthrough', hseq', _⟩ := hplace j hj
    exact (hv.seq_inj hi hj e hthrough.mem e' hthrough'.mem (hseq.trans (heq.trans hseq'.symm))).1
  rw [← Finset.card_image_of_injOn hinj]
  refine card_le_of_two_lives (L := life key c) (fun s hs => ?_) ?_
  · obtain ⟨i, hi, rfl⟩ := Finset.mem_image.1 hs
    obtain ⟨_, e, _, _, hthrough, hseq, _⟩ := hplace i hi
    exact hseq ▸ hthrough.rank
  · intro s₀ h₀ s₁ h₁ s₂ h₂ hle hle'
    obtain ⟨i, hi, rfl⟩ := Finset.mem_image.1 h₀
    obtain ⟨k, hk, rfl⟩ := Finset.mem_image.1 h₁
    obtain ⟨j, hj, rfl⟩ := Finset.mem_image.1 h₂
    obtain ⟨call, e, x, hi, hthrough, hseq, hx, hfrom, _⟩ := hplace i hi
    obtain ⟨call₁, e₁, _, hk, hthrough₁, hseq₁, _⟩ := hplace k hk
    obtain ⟨call', e', x', hj, hthrough', hseq', hx', _, hto⟩ := hplace j hj
    have hcounted : ∀ {i call e}, c.calls[i]? = some call → LetThrough o key c call e →
        e.seq ∈ places (Counts key) c :=
      fun hi hthrough => mem_places.2 ⟨_, ⟨_, _, hi, hthrough.mem⟩, hthrough.count, rfl⟩
    by_contra hnot
    obtain ⟨hnot₀, hnot₁⟩ := not_or.1 hnot
    have hcreated : ∀ {s s'}, s ∈ places (Counts key) c → s ≤ s' → s ∉ life key c s' →
        ∃ u, c.Logged u ∧ Creates key u ∧ s < u.seq ∧ u.seq ≤ s' := by
      intro s s' hs hle hout
      by_contra hnone
      refine hout (mem_life.2 ⟨hs, hle, fun n hn => ?_⟩)
      obtain ⟨u, hlogged, hcreates, rfl⟩ := mem_places.1 hn
      by_contra hbetween
      exact hnone ⟨u, hlogged, hcreates, by omega, by omega⟩
    obtain ⟨u, hu, hcreates, hlt, hule⟩ := hcreated (hseq ▸ hcounted hi hthrough) hle hnot₀
    obtain ⟨u', hu', hcreates', hlt', hule'⟩ := hcreated (hseq₁ ▸ hcounted hk hthrough₁) hle' hnot₁
    have hwindow := h.window hreach hi hthrough hj hthrough' hu hcreates hu' hcreates'
      (hseq ▸ hlt) (hule.trans_lt hlt') (hseq'.symm ▸ hule') hx hx'
    omega

/-- **What a limiter lets through.**  In a run without failures exactly the first `n` requests
of each counter pass and all others are refused, and in no interval of `W` seconds more than
`2n` pass. -/
theorem limits_requests (hw : w.Initial)
    (h : (machine o).Runs (fun _ a => Delivers a) (Config.initial w) c) (key : String) :
    (∀ (i : ℕ) call, c.calls[i]? = some call → limitKey o call.req = key →
      ∀ r, call.result = some r → ∃ e outcome, e ∈ call.log ∧ e.op = .incr key ∧ r = .ok outcome ∧
        (outcome.error = none ↔ (life key c e.seq).card ≤ o.limit) ∧
        (outcome.error ≠ none → ∃ retry, outcome.error = some (.tooManyRequestsError retry))) ∧
      ∀ t, (passedIn o key c t).card ≤ 2 * o.limit := by
  have hreach : (machine o).Reachable Counters.Initial c := ⟨w, hw, h.run⟩
  have hcounting := counting_of_runs hw h
  refine ⟨fun i call hi hkey r hr => ?_, fun t => hcounting.card_passedIn_le hreach t⟩
  exact hkey ▸ hcounting.outcome hreach.valid hi hr

theorem limits_requests_of_refused :
    ∃ c : LimitConfig,
      (machine sampleLimit).Runs (fun _ a => Delivers a) (Config.initial noCounters) c ∧
      c.calls.map passes = [true, false, true, false] ∧
      (∀ (i : ℕ) call, c.calls[i]? = some call → limitKey sampleLimit call.req =
        "identity:rl:login:203.0.113.7" → ∀ r, call.result = some r →
          ∃ e outcome, e ∈ call.log ∧ e.op = .incr "identity:rl:login:203.0.113.7" ∧
            r = .ok outcome ∧ (outcome.error = none ↔
              (life "identity:rl:login:203.0.113.7" c e.seq).card ≤ 1) ∧
            (outcome.error ≠ none → ∃ retry, outcome.error = some (.tooManyRequestsError retry))) ∧
      ∀ t, (passedIn sampleLimit "identity:rl:login:203.0.113.7" c t).card ≤ 2 := by
  have hplay :
      refusedRun.any (fun c => decide (c.calls.map passes = [true, false, true, false])) =
      true := by
    decide +kernel
  obtain ⟨c, hc, hpasses⟩ := (Option.any_eq_true _ _).1 hplay
  have hrun : (machine sampleLimit).Runs (fun _ a => Delivers a) (Config.initial noCounters) c := by
    refine runs_of_play (fun _ _ => ?_) (fun _ _ _ => ?_) (fun _ _ => ?_) hc
    · exact trivial
    · exact trivial
    · exact trivial
  exact ⟨c, hrun, of_decide_eq_true hpasses,
    limits_requests noCounters_initial hrun "identity:rl:login:203.0.113.7"⟩

end RateLimit
end IdentityPlatform
