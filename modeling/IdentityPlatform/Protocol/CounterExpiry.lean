/-
# Counters that never expire

Only the request that is answered `1` sends the `EXPIRE`.  If its connection is lost before,
nobody else does: the counter stays for good, and with it the refusals.  A run in which that
does not happen is one whose steps do not cut off an `EXPIRE` (`CutsOff`); in it every
counter expires, and a refused identity is admitted again.
-/

import IdentityPlatform.Protocol.Counters

namespace IdentityPlatform
namespace RateLimit

open Interleaving Program Relational Machine

variable {o : RateLimitOptions} {c c₁ c' : LimitConfig} {i j : ℕ} {call : LimitCall}
  {key : String} {w : Counters} {op : CounterCommand} {a : Action String Delivery ℕ}

/-- Every counter that is there has an expiry, unless it has just been created by a call
that is in progress. -/
def ExpiriesSet (c : LimitConfig) : Prop :=
  ∀ key e, Cache.entry c.world.now key c.world.cache = some e → e.expiresAt = none →
    ∃ (i : ℕ) (call : LimitCall), c.calls[i]? = some call ∧ call.result = none ∧
      Opened key call.log

/-- The step cuts a counter off from its expiry: the `EXPIRE` fails, or the `INCR` that
creates the counter has its reply lost. -/
inductive CutsOff (c : LimitConfig) : Action String Delivery ℕ → Prop
  | expire {i call key seconds k} (hi : c.calls[i]? = some call)
      (next : call.prog = .call (.expire key seconds) k) : CutsOff c (.fail i)
  | reply {i call key k} (hi : c.calls[i]? = some call) (next : call.prog = .call (.incr key) k)
      (absent : Cache.entry c.world.now key c.world.cache = none) : CutsOff c (.step i .lost)

/-- After `W` seconds the identity is admitted again: a request counted by then has opened
the counter anew, or another one has since `c₁`, and the one that has is let through. -/
def AdmittedAgain (o : RateLimitOptions) (key : String) (c₁ c : LimitConfig) : Prop :=
  ∀ (i : ℕ) call, c.calls[i]? = some call → ∀ n pre count post,
    (⟨n, pre, .incr key, .ok count, post⟩ : LimitEvent) ∈ call.log → c₁.seq ≤ n →
      c₁.world.now + o.windowSeconds * 1000 ≤ pre.now →
      ∃ (j : ℕ) (call' : LimitCall) (e : LimitEvent), c.calls[j]? = some call' ∧ e ∈ call'.log ∧
        Opens key e ∧ c₁.seq ≤ e.seq ∧ e.seq ≤ n ∧
        ∀ outcome, call'.result = some (.ok outcome) → 1 ≤ o.limit → outcome.error = none

/-- What holds in a run that cuts nothing off: a counter without expiry has a call that
awaits, and no expiry is more than `W` seconds away. -/
structure Expiring (o : RateLimitOptions) (c : LimitConfig) : Prop where
  awaited : ∀ {key v}, Cache.stored key c.world.cache = some ⟨v, none⟩ → ∃ i, Awaits c key i
  near : ∀ {key v b}, Cache.stored key c.world.cache = some ⟨v, some b⟩ →
    b ≤ c.world.now + o.windowSeconds * 1000

/-! ### Runs that cut nothing off -/

/-- A call that has opened a counter sends its `EXPIRE` next. -/
theorem expires_next (hv : (machine o).Valid c) (hi : c.calls[i]? = some call)
    {k : Except Err op.Reply → LimitProg LimitOutcome} (hp : call.prog = .call op k)
    (h : Opened key call.log) : op = .expire key o.windowSeconds := by
  have hallowed := next_allowed hv hi hp
  cases op with
  | incr key' =>
      obtain ⟨_, _, _, hlog⟩ := h
      rw [hallowed.2] at hlog
      cases hlog
  | expire key' seconds =>
      obtain ⟨_, rfl, hopened⟩ := hallowed
      rw [h.key_eq hopened]
  | ttl key' => exact absurd h (hallowed.2 key)

theorem Expiring.fail (h : Expiring o c) (hv : (machine o).Valid c)
    (hi : c.calls[i]? = some call) {k : Except Err op.Reply → LimitProg LimitOutcome}
    (hp : call.prog = .call op k) (hnot : ¬CutsOff c (.fail i)) {ans : Except Err op.Reply} :
    Expiring o (c.record i call op ans c.world (k ans)) where
  awaited := by
    intro key v hstored
    obtain ⟨j, hj⟩ := h.awaited hstored
    refine ⟨j, (awaits_record hv hi hp).2 (.inl ⟨?_, hj⟩)⟩
    rintro rfl
    obtain ⟨call', hj, hopened⟩ := hj
    obtain rfl := Option.some.inj (hi.symm.trans hj)
    obtain rfl := expires_next hv hi hp hopened
    exact hnot (.expire hi hp)
  near := h.near

theorem Expiring.step (h : Expiring o c) (hv : (machine o).Valid c) {delivery : Delivery}
    (hi : c.calls[i]? = some call) {k : Except Err op.Reply → LimitProg LimitOutcome}
    (hp : call.prog = .call op k) (hnot : ¬CutsOff c (.step i delivery)) {ans : Except Err op.Reply}
    {post : Counters} (hexec : (machine o).exec op delivery c.world = some (ans, post)) :
    Expiring o (c.record i call op ans post (k ans)) := by
  have hpost : post = (op.effect c.world).2 := by
    cases delivery with
    | delivered => exact (Prod.mk.inj (Option.some.inj hexec)).2.symm
    | lost => exact (Prod.mk.inj (Option.some.inj hexec)).2.symm
  have hallowed := next_allowed hv hi hp
  subst hpost
  constructor
  · intro key v hstored
    -- the call that awaits is another one than the sender
    have hkept : ∀ {j}, Awaits c key j → j ≠ i →
        ∃ j, Awaits (c.record i call op ans (op.effect c.world).2 (k ans)) key j :=
      fun hj hne => ⟨_, (awaits_record hv hi hp).2 (.inl ⟨hne, hj⟩)⟩
    rcases stored_effect op c.world key with hsame | ⟨rfl, hcount⟩ | ⟨seconds, e, _, _, hexpiry⟩
    · obtain ⟨j, hj⟩ := h.awaited (hsame.symm.trans hstored)
      refine hkept hj ?_
      rintro rfl
      obtain ⟨call', hj, hopened⟩ := hj
      obtain rfl := Option.some.inj (hi.symm.trans hj)
      obtain rfl := expires_next hv hi hp hopened
      have hentry : Cache.entry c.world.now key c.world.cache = some ⟨v, none⟩ :=
        entry_of_stored (hsame.symm.trans hstored)
      cases hstored.symm.trans (Cache.expire_of_entry hentry)
    · obtain ⟨_, hempty⟩ := hallowed
      cases hentry : Cache.entry c.world.now key c.world.cache with
      | none =>
          cases delivery with
          | lost => exact absurd (.reply hi hp hentry) hnot
          | delivered =>
              refine ⟨i, (awaits_record hv hi hp).2 (.inr ⟨rfl, ?_⟩)⟩
              have hans : ans = .ok (Cache.incr c.world.now key c.world.cache).1 :=
                (Prod.mk.inj (Option.some.inj hexec)).1.symm
              rw [(Cache.incr_of_none hentry).1] at hans
              subst hans
              exact ⟨_, _, _, rfl⟩
      | some e =>
          rw [hentry] at hcount
          obtain ⟨_, hnone⟩ := Entry.mk.inj (Option.some.inj (hcount.symm.trans hstored))
          have hbefore : Cache.stored key c.world.cache = some ⟨e.value, none⟩ := by
            rw [stored_of_entry hentry, ← hnone]
          obtain ⟨j, hj⟩ := h.awaited hbefore
          refine hkept hj ?_
          rintro rfl
          obtain ⟨call', hj, _, _, _, hlog⟩ := hj
          obtain rfl := Option.some.inj (hi.symm.trans hj)
          rw [hempty] at hlog
          cases hlog
    · cases hexpiry.symm.trans hstored
  · intro key v b hstored
    have hnow : (op.effect c.world).2.now = c.world.now := by cases op <;> rfl
    rw [Config.record_world, hnow]
    rcases stored_effect op c.world key with hsame | ⟨rfl, hcount⟩ | ⟨seconds, e, rfl, _, hexpiry⟩
    · exact h.near (hsame.symm.trans hstored)
    · cases hentry : Cache.entry c.world.now key c.world.cache with
      | none =>
          rw [hentry] at hcount
          cases hcount.symm.trans hstored
      | some e =>
          rw [hentry] at hcount
          obtain ⟨_, hsome⟩ := Entry.mk.inj (Option.some.inj (hcount.symm.trans hstored))
          have hbefore : Cache.stored key c.world.cache = some ⟨e.value, some b⟩ := by
            rw [stored_of_entry hentry, ← hsome]
          exact h.near hbefore
    · obtain ⟨_, rfl, _⟩ := hallowed
      obtain ⟨_, heq⟩ := Entry.mk.inj (Option.some.inj (hexpiry.symm.trans hstored))
      exact (Option.some.inj heq).ge

/-- **What a run that cuts nothing off keeps.** -/
theorem Expiring.apply (h : Expiring o c) (hv : (machine o).Valid c) (hnot : ¬CutsOff c a)
    (hs : (machine o).apply c a = some c') : Expiring o c' := by
  cases a with
  | accept req =>
      obtain rfl := Option.some.inj hs
      refine ⟨fun hstored => ?_, h.near⟩
      obtain ⟨j, hj⟩ := h.awaited hstored
      exact ⟨j, awaits_accept.2 hj⟩
  | fail i =>
      obtain ⟨call, op, k, hi, hp, rfl⟩ := apply_fail hs
      exact h.fail hv hi hp hnot
  | step i delivery =>
      obtain ⟨call, op, k, ans, post, hi, hp, hexec, rfl⟩ := apply_step hs
      exact h.step hv hi hp hnot hexec
  | env ms =>
      obtain rfl := Option.some.inj hs
      exact ⟨h.awaited, fun hstored => (h.near hstored).trans (by simp)⟩

theorem expiring_of_runs (hw : w.Initial)
    (h : (machine o).Runs (fun c a => ¬CutsOff c a) (Config.initial w) c) : Expiring o c := by
  have hempty : w.cache = [] := hw
  refine (h.invariant (I := fun c => (machine o).Valid c ∧ Expiring o c) ⟨.initial w, ?_, ?_⟩
    fun c a c' hI hnot hs => ⟨hI.1.apply hs, hI.2.apply hI.1 hnot hs⟩).2
  · intro key v hstored
    rw [Config.initial, hempty] at hstored
    cases hstored
  · intro key v b hstored
    rw [Config.initial, hempty] at hstored
    cases hstored

theorem Expiring.expiriesSet (h : Expiring o c) (hv : (machine o).Valid c) : ExpiriesSet c := by
  intro key e hentry hnone
  have hstored : Cache.stored key c.world.cache = some ⟨e.value, none⟩ := by
    rw [stored_of_entry hentry, ← hnone]
  obtain ⟨i, call, hi, hopened⟩ := h.awaited hstored
  exact ⟨i, call, hi, in_progress hv hi hopened, hopened⟩

/-! ### A refused identity is admitted again -/

/-- Since `c₁` a request has opened the counter. -/
def OpenedSince (key : String) (c₁ c : LimitConfig) : Prop :=
  ∃ e, c.Logged e ∧ Opens key e ∧ c₁.seq ≤ e.seq

/-- Since `c₁` the counter is open no longer than `W` seconds, or has been opened again. -/
def Closing (o : RateLimitOptions) (key : String) (c₁ c : LimitConfig) : Prop :=
  OpenedSince key c₁ c ∨ (∀ i, ¬Awaits c key i) ∧
    ∀ e, Cache.stored key c.world.cache = some e →
      ∃ b, e.expiresAt = some b ∧ b ≤ c₁.world.now + o.windowSeconds * 1000

theorem Expiring.closing (h : Expiring o c₁) (hnone : ∀ i, ¬Awaits c₁ key i) :
    Closing o key c₁ c₁ := by
  refine .inr ⟨hnone, fun e hstored => ?_⟩
  obtain ⟨v, expiresAt⟩ := e
  cases expiresAt with
  | none =>
      obtain ⟨i, hi⟩ := h.awaited hstored
      exact absurd hi (hnone i)
  | some b => exact ⟨b, rfl, h.near hstored⟩

theorem OpenedSince.apply (h : OpenedSince key c₁ c) (hs : (machine o).apply c a = some c') :
    OpenedSince key c₁ c' := by
  obtain ⟨e, ⟨i, call, hi, he⟩, hopens, hseq⟩ := h
  obtain ⟨call', hi', hext⟩ := apply_extends hs hi
  exact ⟨e, ⟨i, call', hi', hext.log.subset he⟩, hopens, hseq⟩

/-- A command that does not open the counter does not prolong it. -/
theorem Closing.step (h : Closing o key c₁ c) (hseq : c₁.seq ≤ c.seq)
    (hv : (machine o).Valid c) {delivery : Delivery} (hi : c.calls[i]? = some call)
    {k : Except Err op.Reply → LimitProg LimitOutcome} (hp : call.prog = .call op k)
    (hnot : ¬CutsOff c (.step i delivery)) {ans : Except Err op.Reply} {post : Counters}
    (hexec : (machine o).exec op delivery c.world = some (ans, post))
    (hs : (machine o).apply c a = some (c.record i call op ans post (k ans))) :
    Closing o key c₁ (c.record i call op ans post (k ans)) := by
  rcases h with hopened | ⟨hnone, hclose⟩
  · exact .inl (hopened.apply hs)
  by_cases hopens : Opens key ⟨c.seq, c.world, op, ans, post⟩
  · exact .inl ⟨_, (Config.logged_record hi).2 (.inr rfl), hopens, hseq⟩
  refine .inr ⟨fun j hj => ?_, fun e hstored => ?_⟩
  · rcases (awaits_record hv hi hp).1 hj with ⟨_, hbefore⟩ | ⟨_, hopens'⟩
    · exact hnone j hbefore
    · exact hopens hopens'
  · have hpost : post = (op.effect c.world).2 := by
      cases delivery with
      | delivered => exact (Prod.mk.inj (Option.some.inj hexec)).2.symm
      | lost => exact (Prod.mk.inj (Option.some.inj hexec)).2.symm
    subst hpost
    rcases stored_effect op c.world key with hsame | ⟨rfl, hcount⟩ | ⟨seconds, e', rfl, _, _⟩
    · exact hclose e (hsame.symm.trans hstored)
    · cases hentry : Cache.entry c.world.now key c.world.cache with
      | some e' =>
          rw [hentry] at hcount
          obtain rfl := Option.some.inj (hcount.symm.trans hstored)
          exact hclose e' (stored_of_entry hentry)
      | none =>
          cases delivery with
          | lost => exact absurd (.reply hi hp hentry) hnot
          | delivered =>
              have hans : ans = .ok (Cache.incr c.world.now key c.world.cache).1 :=
                (Prod.mk.inj (Option.some.inj hexec)).1.symm
              rw [(Cache.incr_of_none hentry).1] at hans
              subst hans
              exact absurd ⟨_, _, _, rfl⟩ hopens
    · exact absurd (awaits_of_expire hv hi hp) (hnone i)

theorem Closing.apply (h : Closing o key c₁ c) (hseq : c₁.seq ≤ c.seq) (hv : (machine o).Valid c)
    (hnot : ¬CutsOff c a) (hs : (machine o).apply c a = some c') : Closing o key c₁ c' := by
  cases a with
  | accept req =>
      rcases h with hopened | ⟨hnone, hclose⟩
      · exact .inl (hopened.apply hs)
      · obtain rfl := Option.some.inj hs
        exact .inr ⟨fun j hj => hnone j (awaits_accept.1 hj), hclose⟩
  | fail i =>
      rcases h with hopened | ⟨hnone, hclose⟩
      · exact .inl (hopened.apply hs)
      · obtain ⟨call, op, k, hi, hp, rfl⟩ := apply_fail hs
        refine .inr ⟨fun j hj => ?_, hclose⟩
        rcases (awaits_record hv hi hp).1 hj with ⟨_, hbefore⟩ | ⟨_, _, _, _, heq⟩
        · exact hnone j hbefore
        · cases heq
  | step i delivery =>
      obtain ⟨call, op, k, ans, post, hi, hp, hexec, rfl⟩ := apply_step hs
      exact h.step hseq hv hi hp hnot hexec hs
  | env ms =>
      rcases h with hopened | ⟨hnone, hclose⟩
      · exact .inl (hopened.apply hs)
      · obtain rfl := Option.some.inj hs
        exact .inr ⟨hnone, hclose⟩

/-- **A refused identity is admitted again**, within `W` seconds after a state in which no
call is about to set the expiry of the counter. -/
theorem admitted_again (h₁ : Expiring o c₁) (hreach : (machine o).Reachable Counters.Initial c₁)
    (hnone : ∀ i, ¬Awaits c₁ key i) (hrun : (machine o).Runs (fun c a => ¬CutsOff c a) c₁ c) :
    AdmittedAgain o key c₁ c := by
  intro i call hi n pre count post he hseq hlate
  have hv := (hreach.run hrun).valid
  -- the state in which the request was counted
  obtain ⟨c₂, c₃, _, hrun₂, hbetween, hrun₃, _⟩ := hrun.around hreach.valid hi he hseq
  have hclosing : Closing o key c₁ c₂ := by
    refine (hrun₂.invariant
      (I := fun c => (machine o).Valid c ∧ c₁.seq ≤ c.seq ∧ Closing o key c₁ c)
      ⟨hreach.valid, le_rfl, h₁.closing hnone⟩ fun c a c' hI hnot hs =>
        ⟨hI.1.apply hs, ?_, hI.2.2.apply hI.2.1 hI.1 hnot hs⟩).2.2
    exact hI.2.1.trans (apply_seq hs ▸ Nat.le_succ _)
  have hopening : ∃ e, c.Logged e ∧ Opens key e ∧ c₁.seq ≤ e.seq ∧ e.seq ≤ n := by
    rcases hclosing with ⟨e, hlogged, hopens, hle⟩ | ⟨_, hclose⟩
    · obtain ⟨j, call', hj, he'⟩ := hlogged
      obtain ⟨call'', hj', hext⟩ := (hbetween.run.trans hrun₃.run).extends hj
      have hbefore := (hreach.run hrun₂).valid.seq_lt hj e he'
      exact ⟨e, ⟨j, call'', hj', hext.log.subset he'⟩, hopens, hle,
        (hbefore.trans_eq hbetween.seq).le⟩
    · refine ⟨_, ⟨i, call, hi, he⟩, ?_, hseq, le_rfl⟩
      have hgone : Cache.entry pre.now key pre.cache = none := by
        rw [Option.eq_none_iff_forall_ne_some]
        intro e hentry
        obtain ⟨b, hb, hnear⟩ := hclose e <| by
          rw [hbetween.pre]
          exact stored_of_entry hentry
        have halive := (Option.filter_eq_some_iff.1 hentry).2
        rw [Cache.alive, hb] at halive
        have hlt : pre.now < b := by simpa using halive
        omega
      rcases answers_cases (hv.answers hi _ he) with ⟨_, hans | hans⟩ | ⟨_, hans⟩
      · have hone : count = (Cache.incr pre.now key pre.cache).1 := Except.ok.inj hans
        rw [(Cache.incr_of_none hgone).1] at hone
        subst hone
        exact ⟨n, pre, post, rfl⟩
      · cases hans
      · cases hans
  obtain ⟨e, ⟨j, call', hj, he'⟩, hopens, hle, hle'⟩ := hopening
  refine ⟨j, call', e, hj, he', hopens, hle, hle', fun outcome hresult hlimit => ?_⟩
  obtain ⟨m, pre', post', rfl⟩ := hopens
  exact (outcome_of_count (hv.returned hj hresult) he').2 hlimit

/-! ### A step that cuts off -/

/-- The counter has no expiry and no call that will set it. -/
def Orphaned (key : String) (c : LimitConfig) : Prop :=
  (∃ v, Cache.stored key c.world.cache = some ⟨v, none⟩) ∧ ∀ i, ¬Awaits c key i

theorem Orphaned.not_expiriesSet (h : Orphaned key c) : ¬ExpiriesSet c := by
  obtain ⟨⟨v, hstored⟩, hnone⟩ := h
  intro hset
  obtain ⟨i, call, hi, _, hopened⟩ := hset key _ (entry_of_stored hstored) rfl
  exact hnone i ⟨call, hi, hopened⟩

/-- **An orphaned counter stays for good.** -/
theorem Orphaned.apply (h : Orphaned key c) (hh : Holding c) (hv : (machine o).Valid c)
    (hs : (machine o).apply c a = some c') : Orphaned key c' := by
  obtain ⟨⟨v, hstored⟩, hnone⟩ := h
  rcases step_cases hs with ⟨req, _, rfl⟩ | ⟨i, call, op, k, ans, post, _, hi, hp, ha, rfl⟩ |
    ⟨ms, w, _, hw, rfl⟩
  · exact ⟨⟨v, hstored⟩, fun j hj => hnone j (awaits_accept.1 hj)⟩
  · refine ⟨?_, fun j hj => ?_⟩
    · rcases answers_cases ha with ⟨rfl, _⟩ | ⟨rfl, _⟩
      · rcases stored_effect op c.world key with hsame | ⟨_, hcount⟩ | ⟨seconds, e, rfl, _, _⟩
        · exact ⟨v, hsame.trans hstored⟩
        · rw [entry_of_stored hstored] at hcount
          exact ⟨v + 1, hcount⟩
        · exact absurd (awaits_of_expire hv hi hp) (hnone i)
      · exact ⟨v, hstored⟩
    · rcases (awaits_record hv hi hp).1 hj with ⟨_, hbefore⟩ | ⟨_, hopens⟩
      · exact hnone j hbefore
      · have hgone := (hh.opens ha hopens).1
        rw [entry_of_stored hstored] at hgone
        cases hgone
  · obtain rfl := Option.some.inj hw
    exact ⟨⟨v, hstored⟩, hnone⟩

/-- **What is cut off is orphaned.** -/
theorem orphaned_of_cutsOff (hh : Holding c) (hv : (machine o).Valid c) (hcut : CutsOff c a)
    (hs : (machine o).apply c a = some c') : ∃ key, Orphaned key c' := by
  cases hcut with
  | @expire i call key seconds k hi next =>
      obtain ⟨call', op, k', hi', hp, rfl⟩ := apply_fail hs
      obtain rfl := Option.some.inj (hi.symm.trans hi')
      cases next.symm.trans hp
      have hawaits := awaits_of_expire hv hi next
      refine ⟨key, hh.held hawaits, fun j hj => ?_⟩
      rcases (awaits_record hv hi next).1 hj with ⟨hne, hbefore⟩ | ⟨_, _, _, _, heq⟩
      · exact hne (hh.one hbefore hawaits)
      · cases heq
  | @reply i call key k hi next absent =>
      obtain ⟨call', op, k', ans, post, hi', hp, hexec, rfl⟩ := apply_step hs
      obtain rfl := Option.some.inj (hi.symm.trans hi')
      cases next.symm.trans hp
      obtain ⟨rfl, rfl⟩ := Prod.mk.inj (Option.some.inj hexec)
      refine ⟨key, ⟨1, (Cache.incr_of_none absent).2⟩, fun j hj => ?_⟩
      rcases (awaits_record hv hi next).1 hj with ⟨_, hbefore⟩ | ⟨_, _, _, _, heq⟩
      · obtain ⟨v, hstored⟩ := hh.held hbefore
        rw [entry_of_stored hstored] at absent
        cases absent
      · cases heq

/-- **Counters expire exactly if nothing is cut off.**  In a run whose steps cut no counter
off from its expiry, every counter has one or has just been created by a call in progress,
and later a refused identity is admitted again within `W` seconds.  A step that cuts a
counter off ends that for good: in every later state a counter never expires. -/
theorem counters_expire_iff (hw : w.Initial)
    (h : (machine o).Runs (fun c a => ¬CutsOff c a) (Config.initial w) c) :
    ExpiriesSet c ∧
      (∀ key c', (∀ i, ¬Awaits c key i) → (machine o).Runs (fun c a => ¬CutsOff c a) c c' →
        AdmittedAgain o key c c') ∧
      ∀ a c₁ c', CutsOff c a → (machine o).apply c a = some c₁ → (machine o).Run c₁ c' →
        ¬ExpiriesSet c' := by
  have hreach : (machine o).Reachable Counters.Initial c := ⟨w, hw, h.run⟩
  have hexpiring := expiring_of_runs hw h
  refine ⟨hexpiring.expiriesSet hreach.valid, fun key c' hnone hrun => ?_,
    fun a c₁ c' hcut hs hrun => ?_⟩
  · exact admitted_again hexpiring hreach hnone hrun
  · obtain ⟨key, horphaned⟩ := orphaned_of_cutsOff (reachable_holding hreach) hreach.valid hcut hs
    have hreach₁ := hreach.run (run_of_apply hs)
    obtain ⟨_, hlater⟩ := hrun.invariant
      (I := fun c => (machine o).Reachable Counters.Initial c ∧ Orphaned key c) ⟨hreach₁, horphaned⟩
      fun c a c' hI _ hs => ⟨hI.1.run (run_of_apply hs),
        hI.2.apply (reachable_holding hI.1) hI.1.valid hs⟩
    exact hlater.not_expiriesSet

/-! ### A run of each kind -/

theorem not_cutsOff_delivers {op : CounterCommand} {n : ℕ} :
    ¬CutsOff c (.step i (delivers op n)) := by
  rintro ⟨⟩

theorem counters_expire_of_refused :
    ∃ c : LimitConfig,
      (machine sampleLimit).Runs (fun c a => ¬CutsOff c a) (Config.initial noCounters) c ∧
      c.calls.map (fun call => call.result.map fun r => r.toOption.map fun outcome =>
        outcome.error) = [some (some none), some (some (some (.tooManyRequestsError 60))),
          some (some none), some (some (some (.tooManyRequestsError 60)))] ∧
      ExpiriesSet c := by
  have hplay : refusedRun.any (fun c => decide (c.calls.map (fun call => call.result.map fun r =>
      r.toOption.map fun outcome => outcome.error) = [some (some none),
        some (some (some (.tooManyRequestsError 60))), some (some none),
        some (some (some (.tooManyRequestsError 60)))])) = true := by
    decide +kernel
  obtain ⟨c, hc, hresults⟩ := (Option.any_eq_true _ _).1 hplay
  have hrun :
      (machine sampleLimit).Runs (fun c a => ¬CutsOff c a) (Config.initial noCounters) c := by
    refine runs_of_play (fun _ _ => ?_) (fun _ _ _ => not_cutsOff_delivers) (fun _ _ => ?_) hc
    · rintro ⟨⟩
    · rintro ⟨⟩
  exact ⟨c, hrun, of_decide_eq_true hresults, (counters_expire_iff noCounters_initial hrun).1⟩

/-- The connection of the first request is lost after its `INCR`; an hour later a second
request arrives. -/
def cutOffRun : Option LimitConfig := do
  let c₁ ← (machine sampleLimit).play delivers [.accept fun _ => "203.0.113.7", .steps 0 1]
    (Config.initial noCounters)
  let c₂ ← (machine sampleLimit).apply c₁ (.fail 0)
  (machine sampleLimit).play delivers
    [.env 3600000, .accept fun _ => "203.0.113.7", .steps 1 5] c₂

theorem cutOffRun_reachable (h : cutOffRun = some c) :
    (machine sampleLimit).Reachable Counters.Initial c := by
  unfold cutOffRun at h
  obtain ⟨c₁, hc₁, h⟩ := Option.bind_eq_some_iff.1 h
  obtain ⟨c₂, hc₂, h⟩ := Option.bind_eq_some_iff.1 h
  have hrun₁ := run_of_play (M := machine sampleLimit) hc₁
  exact ⟨noCounters, noCounters_initial, (hrun₁.trans (run_of_apply hc₂)).trans (run_of_play h)⟩

/-- **A lost connection blocks an identity for good**: no call is in progress, the counter has
no expiry, and a request is refused an hour after the only one before it. -/
theorem lost_connection_blocks :
    ∃ (c : LimitConfig) (call : LimitCall), (machine sampleLimit).Reachable Counters.Initial c ∧
      (∀ call ∈ c.calls, call.result.isSome = true) ∧ ¬ExpiriesSet c ∧
      c.calls[1]? = some call ∧ call.start.now = 3600000 ∧
      call.result = some (.ok ⟨[("X-RateLimit-Limit", "1"), ("X-RateLimit-Remaining", "0"),
        ("Retry-After", "60")], some (.tooManyRequestsError 60)⟩) := by
  have hplay : cutOffRun.any (fun c => c.calls[1]?.any fun call =>
      decide ((∀ call ∈ c.calls, call.result.isSome = true) ∧
        Cache.entry c.world.now "identity:rl:login:203.0.113.7" c.world.cache = some ⟨2, none⟩ ∧
        call.start.now = 3600000 ∧
        call.result = some (.ok ⟨[("X-RateLimit-Limit", "1"), ("X-RateLimit-Remaining", "0"),
          ("Retry-After", "60")], some (.tooManyRequestsError 60)⟩))) = true := by
    decide +kernel
  obtain ⟨c, hc, hall⟩ := (Option.any_eq_true _ _).1 hplay
  obtain ⟨call, hi, hcall⟩ := (Option.any_eq_true _ _).1 hall
  obtain ⟨hdone, hentry, hstart, hresult⟩ := of_decide_eq_true hcall
  refine ⟨c, call, cutOffRun_reachable hc, hdone, fun hset => ?_, hi, hstart, hresult⟩
  obtain ⟨j, call', hj, hnone, _⟩ := hset _ _ hentry rfl
  have hsome := hdone call' (List.mem_of_getElem? hj)
  rw [hnone] at hsome
  cases hsome

end RateLimit
end IdentityPlatform
