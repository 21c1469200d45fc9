/-
# The counters of a limiter

A request sends `INCR`, and the one that is answered `1` sends `EXPIRE` next.  Between the
two its call awaits: the counter has no expiry then, and no other call can give it one.
-/

import IdentityPlatform.Interleaving.History
import IdentityPlatform.Modules.RateLimit

namespace IdentityPlatform
namespace RateLimit

open Interleaving Program Relational Machine

variable {o : RateLimitOptions} {c c' : LimitConfig} {i j : ℕ} {call call' : LimitCall}
  {key identity : String} {l : LimitLog} {w w' : Counters} {op : CounterCommand}

/-! ### What a call sends -/

/-- The log of a request that has opened the counter and has not set its expiry. -/
def Opened (key : String) (l : LimitLog) : Prop :=
  ∃ n pre post, l = [⟨n, pre, .incr key, .ok (1 : ℕ), post⟩]

/-- The commands the middleware sends, and after which others. -/
def Allowed (o : RateLimitOptions) (identity : String) (l : LimitLog) : CounterCommand → Prop
  | .incr key => key = limitKey o identity ∧ l = []
  | .expire key seconds => key = limitKey o identity ∧ seconds = o.windowSeconds ∧ Opened key l
  | .ttl _ => l ≠ [] ∧ ∀ key, ¬Opened key l

theorem Opened.key_eq {key' : String} (h : Opened key l) (h' : Opened key' l) : key = key' := by
  obtain ⟨_, _, _, rfl⟩ := h
  obtain ⟨_, _, _, heq⟩ := h'
  cases heq
  rfl

/-- What `incrementWindow` leaves in the log. -/
theorem incrementWindow_ok {count : ℕ}
    (h : (incrementWindow key o.windowSeconds).Returns [] l (.ok count)) :
    ∃ n pre post, (count ≠ 1 ∧ l = [⟨n, pre, .incr key, .ok count, post⟩]) ∨
      (count = 1 ∧ ∃ m pre' post', l = [⟨m, pre', .expire key o.windowSeconds, .ok (), post'⟩,
        ⟨n, pre, .incr key, .ok count, post⟩]) := by
  obtain ⟨l₁, count', h₁, _, h⟩ := h.of_bind
  obtain ⟨l₂, _, h₂, _, h⟩ := h.of_bind
  obtain ⟨rfl, hcount⟩ := returns_pure.1 h
  cases hcount
  obtain ⟨n, pre, post, rfl⟩ := returns_perform.1 h₁
  refine ⟨n, pre, post, ?_⟩
  rcases returns_onlyIf_ok.1 h₂ with ⟨hone, hexpire⟩ | ⟨hmore, rfl⟩
  · obtain ⟨m, pre', post', rfl⟩ := returns_perform.1 hexpire
    exact .inr ⟨hone, m, pre', post', rfl⟩
  · exact .inl ⟨hmore, rfl⟩

/-- **The middleware sends nothing else.** -/
theorem middleware_allowed :
    Respects (Allowed o identity) ([] : LimitLog) (rateLimitMiddleware o identity) := by
  refine .bind ?_ fun l count hcount => ?_
  · refine .bind (respects_perform.2 ⟨rfl, rfl⟩) fun l count hcount => ?_
    obtain ⟨n, pre, post, rfl⟩ := returns_perform.1 hcount
    refine .bind ?_ fun _ _ _ => by simp
    rw [respects_onlyIf]
    rintro rfl
    rw [respects_perform]
    exact ⟨rfl, rfl, n, pre, post, rfl⟩
  · rw [respects_ite]
    refine ⟨fun _ => .bind ?_ fun _ _ _ => by simp, fun _ => by simp⟩
    rw [respects_perform]
    obtain ⟨n, pre, post, ⟨hmore, rfl⟩ | ⟨_, m, pre', post', rfl⟩⟩ := incrementWindow_ok hcount
    · refine ⟨by simp, ?_⟩
      rintro key ⟨_, _, _, heq⟩
      cases heq
      exact hmore rfl
    · refine ⟨by simp, ?_⟩
      rintro key ⟨_, _, _, heq⟩
      cases heq

theorem next_allowed (hv : (machine o).Valid c) (hi : c.calls[i]? = some call)
    {k : Except Err op.Reply → LimitProg LimitOutcome} (hp : call.prog = .call op k) :
    Allowed o call.req call.log op :=
  middleware_allowed _ _ (hv.next hi hp)

/-- `incrementWindow` does not fail right after `INCR` was answered `1`. -/
theorem incrementWindow_error {e : Err} {key' : String}
    (h : (incrementWindow key o.windowSeconds).Returns [] l (.error e)) : ¬Opened key' l := by
  rintro ⟨n, pre, post, rfl⟩
  rcases h.error_of_bind with h₁ | ⟨l₁, count, h₁, hs, h₂⟩
  · obtain ⟨_, _, _, heq⟩ := returns_perform.1 h₁
    cases heq
  · obtain ⟨n₁, pre₁, post₁, rfl⟩ := returns_perform.1 h₁
    rcases h₂.error_of_bind with h₃ | ⟨l₂, _, _, _, h₃⟩
    · unfold onlyIf at h₃
      split_ifs at h₃
      · obtain ⟨_, _, _, heq⟩ := returns_perform.1 h₃
        cases heq
      · cases (returns_pure.1 h₃).2
    · cases (returns_pure.1 h₃).2

/-- Right after `INCR` was answered `1`, `incrementWindow` has not returned. -/
theorem incrementWindow_left {count : ℕ} {l' : LimitLog} {key' : String}
    (h : (incrementWindow key o.windowSeconds).Returns [] l' (.ok count)) (hs : l' <:+ l) :
    ¬Opened key' l := by
  rintro ⟨n, pre, post, rfl⟩
  obtain ⟨_, _, _, ⟨hmore, rfl⟩ | ⟨_, _, _, _, rfl⟩⟩ := incrementWindow_ok h
  · cases hs.eq_of_length rfl
    exact hmore rfl
  · have hlength := hs.length_le
    simp at hlength

/-- **A call that awaits is in progress.** -/
theorem in_progress (hv : (machine o).Valid c) (hi : c.calls[i]? = some call)
    (h : Opened key call.log) : call.result = none := by
  rw [Option.eq_none_iff_forall_ne_some]
  intro r hr
  rcases returns_bind.1 (hv.returned hi hr) with ⟨l₁, count, h₁, h₂⟩ | ⟨e, h₁, _⟩
  · exact incrementWindow_left h₁ h₂.suffix h
  · exact incrementWindow_error h₁ h

/-- What the middleware answers, and what it leaves in the log: a request passes if it is
counted within the limit, and otherwise it also asks for the lifetime. -/
theorem middleware_ok {outcome : LimitOutcome}
    (h : (rateLimitMiddleware o identity).Returns [] l (.ok outcome)) :
    ∃ l₁ count, (incrementWindow (limitKey o identity) o.windowSeconds).Returns [] l₁ (.ok count) ∧
      ((count ≤ o.limit ∧ outcome.error = none ∧ l = l₁) ∨
        (o.limit < count ∧ ∃ n pre ttl post,
          outcome.error = some (.tooManyRequestsError (retryAfter o ttl)) ∧
          l = ⟨n, pre, .ttl (limitKey o identity), .ok ttl, post⟩ :: l₁)) := by
  obtain ⟨l₁, count, h₁, _, h₂⟩ := h.of_bind
  refine ⟨l₁, count, h₁, ?_⟩
  split_ifs at h₂ with hlimit
  · obtain ⟨l₂, ttl, h₃, _, h₄⟩ := Returns.of_bind h₂
    obtain ⟨rfl, heq⟩ := returns_pure.1 h₄
    obtain rfl := Except.ok.inj heq
    obtain ⟨n, pre, post, rfl⟩ := returns_perform.1 h₃
    exact .inr ⟨hlimit, n, pre, ttl, post, rfl, rfl⟩
  · obtain ⟨rfl, heq⟩ := returns_pure.1 h₂
    obtain rfl := Except.ok.inj heq
    exact .inl ⟨Nat.le_of_not_lt hlimit, rfl, rfl⟩

/-- A request is counted once. -/
theorem incrementWindow_count {count m n : ℕ} {key' : String} {pre post : Counters}
    (h : (incrementWindow key o.windowSeconds).Returns [] l (.ok count))
    (he : (⟨n, pre, .incr key', .ok m, post⟩ : LimitEvent) ∈ l) : m = count := by
  obtain ⟨_, _, _, ⟨_, rfl⟩ | ⟨_, _, _, _, rfl⟩⟩ := incrementWindow_ok h
  · cases List.mem_singleton.1 he
    rfl
  · rcases List.mem_cons.1 he with heq | he
    · cases heq
    · cases List.mem_singleton.1 he
      rfl

/-- **A request passes if it is counted within the limit.** -/
theorem outcome_of_count {outcome : LimitOutcome}
    (h : (rateLimitMiddleware o identity).Returns [] l (.ok outcome)) {n count : ℕ}
    {pre post : Counters} (he : (⟨n, pre, .incr key, .ok count, post⟩ : LimitEvent) ∈ l) :
    outcome.error = none ↔ count ≤ o.limit := by
  obtain ⟨l₁, count', h₁, ⟨hlimit, herror, rfl⟩ | ⟨hlimit, _, _, _, _, herror, rfl⟩⟩ :=
    middleware_ok h
  · obtain rfl := incrementWindow_count h₁ he
    simpa [herror] using hlimit
  · rcases List.mem_cons.1 he with heq | he
    · cases heq
    · obtain rfl := incrementWindow_count h₁ he
      simpa [herror] using hlimit

/-! ### What a command does to a counter -/

/-- **The three effects on a counter**: none, a count, an expiry. -/
theorem stored_effect (op : CounterCommand) (w : Counters) (key : String) :
    Cache.stored key (op.effect w).2.cache = Cache.stored key w.cache ∨
      (op = .incr key ∧ Cache.stored key (op.effect w).2.cache =
        some (((Cache.entry w.now key w.cache).map
          fun e => ⟨e.value + 1, e.expiresAt⟩).getD ⟨1, none⟩)) ∨
      ∃ seconds e, op = .expire key seconds ∧ Cache.entry w.now key w.cache = some e ∧
        Cache.stored key (op.effect w).2.cache = some ⟨e.value, some (w.now + seconds * 1000)⟩ := by
  cases op with
  | ttl _ => exact .inl rfl
  | incr key' =>
      by_cases hkey : key = key'
      · subst hkey
        refine .inr (.inl ⟨rfl, ?_⟩)
        cases hentry : Cache.entry w.now key w.cache with
        | none => exact (Cache.incr_of_none hentry).2
        | some e => exact (Cache.incr_of_entry hentry).2
      · exact .inl (Cache.stored_incr_ne hkey)
  | expire key' seconds =>
      by_cases hkey : key = key'
      · subst hkey
        cases hentry : Cache.entry w.now key w.cache with
        | none => exact .inl (congrArg (Cache.stored key) (Cache.expire_of_none hentry))
        | some e => exact .inr (.inr ⟨seconds, e, rfl, rfl, Cache.expire_of_entry hentry⟩)
      · exact .inl (Cache.stored_expire_ne hkey)

/-- A counter that never expires is there. -/
theorem entry_of_stored {now v : ℕ} {cache : Cache String ℕ}
    (h : Cache.stored key cache = some ⟨v, none⟩) : Cache.entry now key cache = some ⟨v, none⟩ := by
  rw [Cache.entry, h, Option.filter_some]
  rfl

theorem stored_of_entry {now : ℕ} {cache : Cache String ℕ} {e : Entry ℕ}
    (h : Cache.entry now key cache = some e) : Cache.stored key cache = some e :=
  (Option.filter_eq_some_iff.1 h).1

/-- A command takes effect, and is answered or not, or it does nothing. -/
theorem answers_cases {ans : Except Err op.Reply} (h : (machine o).Answers op w ans w') :
    (w' = (op.effect w).2 ∧ (ans = .ok (op.effect w).1 ∨ ans = .error connectionLost)) ∨
      (w' = w ∧ ans = .error connectionLost) := by
  rcases h with ⟨delivery, hexec⟩ | ⟨rfl, rfl⟩
  · cases delivery with
    | delivered =>
        obtain ⟨rfl, rfl⟩ := Prod.mk.inj (Option.some.inj hexec)
        exact .inl ⟨rfl, .inl rfl⟩
    | lost =>
        obtain ⟨rfl, rfl⟩ := Prod.mk.inj (Option.some.inj hexec)
        exact .inl ⟨rfl, .inr rfl⟩
  · exact .inr ⟨rfl, rfl⟩

/-! ### Calls that await -/

/-- Call `i` has opened the counter and has not set its expiry. -/
def Awaits (c : LimitConfig) (key : String) (i : ℕ) : Prop :=
  ∃ call, c.calls[i]? = some call ∧ Opened key call.log

/-- A request that has just arrived awaits nothing. -/
theorem awaits_accept {req : String} :
    Awaits ((machine o).accept c req) key i ↔ Awaits c key i := by
  constructor
  · rintro ⟨call, hi, hopened⟩
    rcases accept_get_cases hi with ⟨_, hi⟩ | ⟨_, rfl⟩
    · exact ⟨call, hi, hopened⟩
    · obtain ⟨_, _, _, hlog⟩ := hopened
      cases hlog
  · rintro ⟨call, hi, hopened⟩
    exact ⟨call, accept_get_old hi, hopened⟩

/-- The command is an `INCR` of the counter and was answered `1`. -/
def Opens (key : String) (e : LimitEvent) : Prop :=
  ∃ n pre post, e = ⟨n, pre, .incr key, .ok (1 : ℕ), post⟩

/-- **Who awaits after a command**: the others as before, and its sender if it opened the
counter. -/
theorem awaits_record (hv : (machine o).Valid c) (hi : c.calls[i]? = some call)
    {k : Except Err op.Reply → LimitProg LimitOutcome} (hp : call.prog = .call op k)
    {ans : Except Err op.Reply} {post : Counters} {prog : LimitProg LimitOutcome} :
    Awaits (c.record i call op ans post prog) key j ↔
      (j ≠ i ∧ Awaits c key j) ∨ (j = i ∧ Opens key ⟨c.seq, c.world, op, ans, post⟩) := by
  have hallowed := next_allowed hv hi hp
  constructor
  · rintro ⟨call', hj, hopened⟩
    rcases Config.record_get_cases hi hj with ⟨hne, hj⟩ | ⟨rfl, rfl⟩
    · exact .inl ⟨hne, call', hj, hopened⟩
    · obtain ⟨n, pre, post', hlog⟩ := hopened
      exact .inr ⟨rfl, n, pre, post', (List.cons.inj hlog).1⟩
  · rintro (⟨hne, call', hj, hopened⟩ | ⟨rfl, n, pre, post', hopens⟩)
    · exact ⟨call', by rw [Config.record_get_ne hne, hj], hopened⟩
    · cases hopens
      obtain ⟨_, hempty⟩ := hallowed
      refine ⟨_, Config.record_get_self hi, c.seq, c.world, post, ?_⟩
      rw [hempty]

/-- A configuration in which a call that awaits holds its counter: it has no expiry, and no
other call awaits. -/
structure Holding (c : LimitConfig) : Prop where
  counts : ∀ {key e}, Cache.stored key c.world.cache = some e → 1 ≤ e.value
  held : ∀ {key i}, Awaits c key i → ∃ v, Cache.stored key c.world.cache = some ⟨v, none⟩
  one : ∀ {key i j}, Awaits c key i → Awaits c key j → i = j

/-- Only the call that awaits sends the `EXPIRE`. -/
theorem awaits_of_expire (hv : (machine o).Valid c) (hi : c.calls[i]? = some call)
    {seconds : ℕ} {k : Except Err Unit → LimitProg LimitOutcome}
    (hp : call.prog = .call (.expire key seconds) k) : Awaits c key i := by
  obtain ⟨_, _, hopened⟩ := next_allowed hv hi hp
  exact ⟨call, hi, hopened⟩

/-- **A counter is opened where there was none.** -/
theorem Holding.opens (h : Holding c) {n : ℕ} {ans : Except Err op.Reply} {post : Counters}
    (ha : (machine o).Answers op c.world ans post) (ho : Opens key ⟨n, c.world, op, ans, post⟩) :
    Cache.entry c.world.now key c.world.cache = none ∧
      Cache.stored key post.cache = some ⟨1, none⟩ := by
  obtain ⟨_, _, _, heq⟩ := ho
  cases heq
  rcases answers_cases ha with ⟨rfl, hans | hans⟩ | ⟨_, hans⟩
  · have hone : (1 : ℕ) = (Cache.incr c.world.now key c.world.cache).1 := Except.ok.inj hans
    cases hentry : Cache.entry c.world.now key c.world.cache with
    | none => exact ⟨rfl, (Cache.incr_of_none hentry).2⟩
    | some e =>
        have hcount := h.counts (stored_of_entry hentry)
        rw [(Cache.incr_of_entry hentry).1] at hone
        omega
  · cases hans
  · cases hans

theorem Holding.record (h : Holding c) (hv : (machine o).Valid c) (hi : c.calls[i]? = some call)
    {k : Except Err op.Reply → LimitProg LimitOutcome} (hp : call.prog = .call op k)
    {ans : Except Err op.Reply} {post : Counters}
    (ha : (machine o).Answers op c.world ans post) :
    Holding (c.record i call op ans post (k ans)) := by
  have hpost : ∀ key, Cache.stored key post.cache = Cache.stored key c.world.cache ∨
      Cache.stored key post.cache = Cache.stored key (op.effect c.world).2.cache := by
    intro key
    rcases answers_cases ha with ⟨rfl, _⟩ | ⟨rfl, _⟩
    · exact .inr rfl
    · exact .inl rfl
  constructor
  · intro key e he
    rcases hpost key with hsame | heffect
    · exact h.counts (hsame ▸ he)
    · rcases stored_effect op c.world key with hsame | ⟨_, hcount⟩ | ⟨_, e', _, hentry, hexpiry⟩
      · exact h.counts (hsame ▸ heffect ▸ he)
      · obtain rfl := Option.some.inj ((hcount ▸ heffect ▸ he : some _ = some e))
        cases Cache.entry c.world.now key c.world.cache with
        | none => exact le_rfl
        | some e => exact Nat.le_add_left 1 e.value
      · obtain rfl := Option.some.inj ((hexpiry ▸ heffect ▸ he : some _ = some e))
        have hcount := h.counts (stored_of_entry hentry)
        exact hcount
  · intro key j hawaits
    rcases (awaits_record hv hi hp).1 hawaits with ⟨hne, hbefore⟩ | ⟨_, hopens⟩
    · obtain ⟨v, hv'⟩ := h.held hbefore
      rcases hpost key with hsame | heffect
      · exact ⟨v, hsame.trans hv'⟩
      · rcases stored_effect op c.world key with hsame | ⟨_, hcount⟩ | ⟨_, _, rfl, _⟩
        · exact ⟨v, heffect.trans (hsame.trans hv')⟩
        · rw [entry_of_stored hv'] at hcount
          exact ⟨v + 1, heffect.trans hcount⟩
        · exact absurd (h.one hbefore (awaits_of_expire hv hi hp)) hne
    · exact ⟨1, (h.opens ha hopens).2⟩
  · intro key j j' hj hj'
    -- a call that awaits has the counter there, so no other can open it
    have hnot : ∀ {j}, Awaits c key j → ¬Opens key ⟨c.seq, c.world, op, ans, post⟩ := by
      intro j hbefore hopens
      obtain ⟨v, hv'⟩ := h.held hbefore
      have hnone := (h.opens ha hopens).1
      rw [entry_of_stored hv'] at hnone
      cases hnone
    rcases (awaits_record hv hi hp).1 hj with ⟨_, hbefore⟩ | ⟨rfl, hopens⟩
    · rcases (awaits_record hv hi hp).1 hj' with ⟨_, hbefore'⟩ | ⟨_, hopens'⟩
      · exact h.one hbefore hbefore'
      · exact absurd hopens' (hnot hbefore)
    · rcases (awaits_record hv hi hp).1 hj' with ⟨_, hbefore'⟩ | ⟨rfl, _⟩
      · exact absurd hopens (hnot hbefore')
      · rfl

/-- **In every run a call that awaits holds its counter.** -/
theorem reachable_holding (hreach : (machine o).Reachable Counters.Initial c) : Holding c := by
  refine hreach.invariant (fun w hw => ?_) fun c a c' hreach h hs => ?_
  · have hempty : w.cache = [] := hw
    constructor
    · intro key e he
      rw [Config.initial, hempty] at he
      cases he
    · rintro key i ⟨call, hi, _⟩
      cases hi
    · rintro key i j ⟨call, hi, _⟩
      cases hi
  · rcases step_cases hs with ⟨req, _, rfl⟩ | ⟨i, call, op, k, ans, post, _, hi, hp, ha, rfl⟩ |
      ⟨ms, w, _, hw, rfl⟩
    · exact
        { counts := h.counts
          held := fun hawaits => h.held (awaits_accept.1 hawaits)
          one := fun hi hj => h.one (awaits_accept.1 hi) (awaits_accept.1 hj) }
    · exact h.record hreach.valid hi hp ha
    · obtain rfl := Option.some.inj hw
      exact ⟨h.counts, h.held, h.one⟩

/-! ### A limiter -/

/-- A limiter of one login a minute. -/
def sampleLimit : RateLimitOptions := ⟨1, 60, "login"⟩

/-- Every reply arrives. -/
def delivers : CounterCommand → ℕ → Delivery := fun _ _ => .delivered

/-- The counters before the first request. -/
def noCounters : Counters := ⟨0, []⟩

theorem noCounters_initial : noCounters.Initial := rfl

/-- Two requests at once, and two more after a minute: the second and the last are refused. -/
def refusedRun : Option LimitConfig :=
  (machine sampleLimit).play delivers
    [.accept fun _ => "203.0.113.7", .steps 0 5, .accept fun _ => "203.0.113.7", .steps 1 5,
      .env 60000, .accept fun _ => "203.0.113.7", .steps 2 5, .accept fun _ => "203.0.113.7",
      .steps 3 5] (Config.initial noCounters)

end RateLimit
end IdentityPlatform
