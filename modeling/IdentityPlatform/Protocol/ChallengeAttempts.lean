/-
# The attempts at a login challenge

The attempts are counted by reading the challenge and writing it back.  Where one
verification is over before the next one reads, what is stored only grows: three wrong
codes are all there are, and the right one is the last.
-/

import IdentityPlatform.Protocol.LoginChallenges
import IdentityPlatform.Protocol.MfaSessions

namespace IdentityPlatform

open Interleaving Program Relational Machine AuthServer

variable {P : Platform} {c : ServerConfig} {i j : ℕ} {call call' : ServerCall} {e : ServerEvent}
  {id : String} {l : ServerLog} {challenge : MfaChallengePayload}

/-! ### What is stored -/

/-- The challenge is stored. -/
def Holds (id : String) (challenge : MfaChallengePayload) (w : World) : Prop :=
  ∃ p ∈ w.redis, p.1 = .mfaChallenge id ∧ p.2.value = .challenge challenge

/-- The environment stores no login challenges. -/
theorem Env.apply_challenge {env : Env} {w w' : World} (h : env.apply w = some w')
    (hstored : Holds id challenge w') : Holds id challenge w := by
  obtain ⟨p, hp, hkey, hvalue⟩ := hstored
  rcases Env.apply_redis h p hp with hp | ⟨sid, hsess⟩
  · exact ⟨p, hp, hkey, hvalue⟩
  · rw [hsess] at hkey
    cases hkey

/-- A challenge that is stored after an event was stored before, or the event stores it. -/
theorem event_challenge (hv : (machine P).Valid c) (hi : c.calls[i]? = some call)
    (he : e ∈ call.log) (hstored : Holds id challenge e.post) : Holds id challenge e.pre ∨
      ∃ n pre ttl post, e =
        ⟨n, pre, .redis (.set (.mfaChallenge id) (.challenge challenge) ttl), .ok (), post⟩ := by
  obtain ⟨p, hp, hkey, hvalue⟩ := hstored
  have hanswers := hv.answers hi e he
  obtain ⟨n, pre, s, ans, post⟩ := e
  rcases hanswers with ⟨r, hexec⟩ | ⟨_, hpost⟩
  · cases ans with
    | error _ =>
        obtain ⟨⟨ledger, hfailed⟩, _⟩ := Stmt.exec_failed hexec
        obtain rfl : post = { pre with generated := ledger } := hfailed
        exact .inl ⟨p, hp, hkey, hvalue⟩
    | ok v =>
        rcases Stmt.exec_redis hexec p hp with ⟨q, hq, hqkey, hqvalue⟩ | ⟨ttl, rfl⟩ | ⟨values, hset⟩
        · exact .inl ⟨q, hq, hqkey.trans hkey, hqvalue.trans hvalue⟩
        · rw [hkey, hvalue]
          exact .inr ⟨n, pre, ttl, post, rfl⟩
        · rw [hset] at hvalue
          cases hvalue
  · obtain rfl : post = pre := hpost
    exact .inl ⟨p, hp, hkey, hvalue⟩

theorem Reads.holds (hv : (machine P).Valid c) (hi : c.calls[i]? = some call) (he : e ∈ call.log)
    (hread : Reads id challenge e) : Holds id challenge e.pre := by
  cases hread
  obtain ⟨p, hp, hkey, hvalue⟩ := Stmt.getChallenge_answer (executed hv hi he)
  exact ⟨p, hp, hkey, hvalue⟩

/-- The event is the login that stores the challenge, directly after its identifier has
been generated. -/
def Creates (id : String) (e : ServerEvent) (l : ServerLog) : Prop :=
  Writes id e ∧ ∃ l', Log.Next l' l (.runtime .randomUuid) (.ok id)

/-- **A challenge that is read has been stored by a login before.** -/
theorem challenge_created (hreach : (machine P).Reachable World.Initial c)
    (hi : c.calls[i]? = some call) (he : e ∈ call.log) (hread : Reads id challenge e) :
    ∃ (j : ℕ) (login : ServerCall) (e₀ : ServerEvent) (l : ServerLog), c.calls[j]? = some login ∧
      e₀ :: l <:+ login.log ∧ e₀.seq < e.seq ∧ Creates id e₀ l := by
  generalize hn : e.seq = n
  induction n using Nat.strong_induction_on generalizing i call e challenge with
  | _ n ih =>
      subst hn
      obtain ⟨c₁, _, hreach₁, hrun₁, hworld, hseq, _⟩ := hreach.before hi he
      have hreach₁' := hreach₁
      obtain ⟨w, hw, hrun⟩ := hreach₁'
      have hstored : Holds id challenge c₁.world := hworld ▸ hread.holds hreach.valid hi he
      obtain ⟨j, call', e₁, hj, he₁, _, hpre, challenge', hpost⟩ := hrun.introduced
        (H := fun w => ∃ challenge, Holds id challenge w)
        (by simp [Config.initial, Holds, hw.redis]) ⟨challenge, hstored⟩
        fun env w w' hw ⟨challenge, h⟩ => ⟨challenge, Env.apply_challenge hw h⟩
      have hlt : e₁.seq < e.seq := hseq ▸ hreach₁.valid.seq_lt hj e₁ he₁
      obtain ⟨call₂, hj₂, hext⟩ := hrun₁.extends hj
      have he₂ := hext.log.subset he₁
      rcases event_challenge hreach₁.valid hj he₁ hpost with h | ⟨m, pre, ttl, post, rfl⟩
      · exact absurd ⟨_, h⟩ hpre
      · obtain ⟨l, hl, hjust⟩ := justified_event hreach.valid hj₂ he₂
        generalize call₂.req.request = request at hjust
        cases hjust with
        | login _ _ generated => exact ⟨j, call₂, _, l, hj₂, hl, hlt, .set, _, generated⟩
        | wrongCode _ read =>
            -- who counts a wrong code has read the challenge before
            obtain ⟨k, pre', post', hmem⟩ := read
            have hk : k < m := hreach.valid.earlier hj₂ hl hmem
            have hlog := ((List.suffix_cons ..).trans hl).subset hmem
            obtain ⟨j', login, e₀, l', hj', hl', hlt', hcreates⟩ :=
              ih k (hk.trans hlt) hj₂ hlog .read rfl
            exact ⟨j', login, e₀, l', hj', hl', hlt'.trans (hk.trans hlt), hcreates⟩

/-- A challenge is stored by one login only, and once. -/
theorem creates_once (hreach : (machine P).Reachable World.Initial c)
    (hi : c.calls[i]? = some call) (hj : c.calls[j]? = some call') {e' : ServerEvent}
    {l' : ServerLog} (hl : e :: l <:+ call.log) (hl' : e' :: l' <:+ call'.log) (h : Creates id e l)
    (h' : Creates id e' l') : e = e' := by
  obtain ⟨_, m, n, pre, post, rfl⟩ := h
  obtain ⟨_, m', n', pre', post', rfl⟩ := h'
  have hv := hreach.valid
  have hmem := hl.subset (List.mem_cons_of_mem _ (List.mem_cons_self ..))
  have hmem' := hl'.subset (List.mem_cons_of_mem _ (List.mem_cons_self ..))
  have htaken := Stmt.randomUuid_answer (executed hv hi hmem)
  have htaken' := Stmt.randomUuid_answer (executed hv hj hmem')
  obtain ⟨rfl, heq⟩ := taken_once hreach hi hj hmem hmem' htaken htaken'
  obtain rfl : call = call' := Option.some.inj (hi.symm.trans hj)
  cases heq
  obtain rfl := hv.place hi ((List.suffix_cons ..).trans hl) ((List.suffix_cons ..).trans hl')
  have hsuffix := List.suffix_of_suffix_length_le hl hl' (by simp)
  exact (List.cons.inj (hsuffix.eq_of_length (by simp))).1

/-! ### Verifications one after the other -/

/-- **Verifications of the challenge do not overlap**: when one reads the challenge, every
other one that has read it before has written it since, or has neither found a code wrong
nor written it. -/
def Serial (id : String) (c : ServerConfig) : Prop :=
  ∀ (i j : ℕ) (call call' : ServerCall) (r r' : ServerEvent)
    (challenge challenge' : MfaChallengePayload),
    c.calls[i]? = some call → c.calls[j]? = some call' → i ≠ j → Verifies id call →
    Verifies id call' → r ∈ call.log → r' ∈ call'.log → Reads id challenge r →
    Reads id challenge' r' → r.seq < r'.seq →
    (∃ w ∈ call.log, Writes id w ∧ w.seq < r'.seq) ∨
      ∀ e ∈ call.log, ¬Checks false e ∧ ¬Writes id e

/-- What is stored of the challenge has at least `n` attempts. -/
def AtLeast (id : String) (n : ℕ) (w : World) : Prop :=
  ∀ challenge, Holds id challenge w → n ≤ challenge.attempts

/-- A write counts one attempt more than its call has read, or leaves nothing to count. -/
theorem Writes.atLeast (hv : (machine P).Valid c) (hi : c.calls[i]? = some call)
    (h : Verifies id call) {r : ServerEvent} (hr : r ∈ call.log) (hread : Reads id challenge r)
    (he : e ∈ call.log) (hwrite : Writes id e) : AtLeast id (challenge.attempts + 1) e.post := by
  obtain ⟨l, _, hl⟩ := hv.reached hi e he
  obtain ⟨r', challenge', hread', htrace, hvalue⟩ := hwrite.last hv hi h hl
  have hr' : r' ∈ trace l := by
    rcases htrace with htrace | ⟨_, k, _, htrace⟩ <;> simp [htrace]
  have hmem : r' ∈ call.log :=
    hl.subset (List.mem_cons_of_mem _ (List.mem_filter.1 hr').1)
  obtain rfl := reads_once hv hi h hr hmem hread hread'
  obtain rfl : challenge = challenge' := by
    cases hread
    cases hread'
    rfl
  rintro stored ⟨p, hp, hkey, hstored⟩
  cases hwrite with
  | set =>
      have heq := Stmt.set_answer (executed hv hi he) hp hkey
      rw [hvalue _ _ rfl, hstored] at heq
      obtain rfl := RedisValue.challenge.inj heq
      exact Nat.le_refl _
  | del => exact absurd hkey (Stmt.del_answer (executed hv hi he) hp)

/-- A verification that has written the challenge has read it before. -/
theorem Writes.read (hv : (machine P).Valid c) (hi : c.calls[i]? = some call)
    (h : Verifies id call) (he : e ∈ call.log) (hwrite : Writes id e) :
    ∃ r ∈ call.log, r.seq < e.seq ∧ ∃ challenge, Reads id challenge r := by
  obtain ⟨l, _, hl⟩ := hv.reached hi e he
  obtain ⟨r, challenge, hread, htrace, _⟩ := hwrite.last hv hi h hl
  have hr : r ∈ trace l := by
    rcases htrace with htrace | ⟨_, k, _, htrace⟩ <;> simp [htrace]
  have hmem := (List.mem_filter.1 hr).1
  exact ⟨r, hl.subset (List.mem_cons_of_mem _ hmem), hv.earlier hi hl hmem, challenge, hread⟩

/-- **What a verification has written is not undone**, as long as no verification
overlaps another one. -/
theorem atLeast_kept (hreach : (machine P).Reachable World.Initial c) (hserial : Serial id c)
    (hi : c.calls[i]? = some call) (h : Verifies id call) {w : ServerEvent} (hw : w ∈ call.log)
    (hwrite : Writes id w) {n : ℕ} (hn : AtLeast id n w.post) (hj : c.calls[j]? = some call')
    (he : e ∈ call'.log) (hlt : w.seq < e.seq) : AtLeast id n e.pre := by
  have hv := hreach.valid
  obtain ⟨r, hr, hrw, challenge, hread⟩ := hwrite.read hv hi h hw
  generalize hm : e.seq = m
  induction m using Nat.strong_induction_on generalizing j call' e with
  | _ m ih =>
      subst hm
      by_contra hlost
      obtain ⟨k, call₁, e₁, hk, he₁, hle, hlt₁, hpre, hpost⟩ := hreach.lost_between
        (K := AtLeast id n) (fun env w w' hw h challenge hc =>
          h challenge (Env.apply_challenge hw hc))
        hi hj hw he hlt hn hlost
      -- what loses it stores fewer attempts
      obtain ⟨stored, hstored, hfewer⟩ :
          ∃ stored, Holds id stored e₁.post ∧ stored.attempts < n := by
        simpa [AtLeast] using hpost
      rcases event_challenge hv hk he₁ hstored with hbefore | ⟨m, pre, ttl, post, rfl⟩
      · exact absurd (hpre stored hbefore) (Nat.not_le.2 hfewer)
      · obtain ⟨l, hl, hjust⟩ := justified_event hv hk he₁
        generalize hrequest : call₁.req.request = request at hjust
        cases hjust with
        | login _ _ generated =>
            -- a login stores it before anyone can read it
            obtain ⟨j₀, login, e₀, l₀, hj₀, hl₀, hlt₀, hcreates⟩ :=
              challenge_created hreach hi hr hread
            obtain rfl := creates_once hreach hj₀ hk hl₀ hl hcreates ⟨.set, _, generated⟩
            exact absurd hle (by have := hlt₀.trans hrw; simp only; omega)
        | wrongCode hmfa saw =>
            obtain ⟨s, pre', post', hmem⟩ := saw
            obtain rfl := hmfa
            have h₁ : Verifies id call₁ := ⟨_, _, hrequest⟩
            have hs : s < m := hv.earlier hk hl hmem
            have hlog := ((List.suffix_cons ..).trans hl).subset hmem
            by_cases hik : i = k
            · -- the call itself writes only once
              obtain rfl := hik
              obtain rfl : call = call₁ := Option.some.inj (hi.symm.trans hk)
              obtain rfl := writes_once hv hi h hw he₁ hwrite .set
              exact Nat.not_succ_le_self _ hle
            · rcases Nat.lt_trichotomy r.seq s with hrs | heq | hsr
              · -- it has read what the call has written
                rcases hserial i k call call₁ r _ _ _ hi hk hik h h₁ hr hlog hread .read hrs with
                  ⟨w', hw', hwrite', hlt'⟩ | hnone
                · obtain rfl := writes_once hv hi h hw hw' hwrite hwrite'
                  have hkept := ih s (hs.trans hlt₁) hk hlog hlt' rfl
                  have hatt := hkept _ (Reads.holds hv hk hlog .read)
                  simp only at hfewer
                  omega
                · exact (hnone w hw).2 hwrite
              · exact hik (hv.seq_inj hi hk r hr _ hlog heq).1
              · -- it has written before the call has read
                rcases hserial k i call₁ call _ r _ _ hk hi (Ne.symm hik) h₁ h hlog hr
                  .read hread hsr
                  with ⟨w', hw', hwrite', hlt'⟩ | hnone
                · obtain rfl := writes_once hv hk h₁ he₁ hw' .set hwrite'
                  simp only at hle hlt'
                  omega
                · exact (hnone _ he₁).2 .set

/-- A verification that writes the challenge, or counts a wrong code, is not overlapped:
one that reads the challenge later finds what it has written. -/
theorem read_after (hreach : (machine P).Reachable World.Initial c) (hserial : Serial id c)
    (hi : c.calls[i]? = some call) (hj : c.calls[j]? = some call') (hne : i ≠ j)
    (h : Verifies id call) (h' : Verifies id call') {r r' : ServerEvent}
    {challenge' : MfaChallengePayload} (hr : r ∈ call.log) (hr' : r' ∈ call'.log)
    (hread : Reads id challenge r) (hread' : Reads id challenge' r') (hlt : r.seq < r'.seq)
    (hdone : ∃ e ∈ call.log, Checks false e ∨ Writes id e) :
    ∃ w ∈ call.log, Writes id w ∧ ∀ n, AtLeast id n w.post → n ≤ challenge'.attempts := by
  rcases hserial i j call call' r r' _ _ hi hj hne h h' hr hr' hread hread' hlt with
    ⟨w, hw, hwrite, hwr⟩ | hnone
  · refine ⟨w, hw, hwrite, fun n hn => ?_⟩
    exact atLeast_kept hreach hserial hi h hw hwrite hn hj hr' hwr _
      (hread'.holds hreach.valid hj hr')
  · obtain ⟨e, he, hdone⟩ := hdone
    exact (hdone.elim (hnone e he).1 (hnone e he).2).elim

/-! ### Successes -/

/-- The verification has found its code right and deleted the challenge. -/
def Succeeds (id : String) (call : ServerCall) : Prop :=
  Verifies id call ∧ (∃ k ∈ call.log, Checks true k) ∧
    call.log.Saw (.redis (.del (.mfaChallenge id))) (.ok ())

/-- A verification that hands out a session has succeeded. -/
theorem succeeds_of_session (hv : (machine P).Valid c) (hi : c.calls[i]? = some call)
    {bearer : Option WireToken} {code : String} {session : LoginResultSuccess}
    (hrequest : call.req.request = .mfaVerify bearer (.challenge id code))
    (hresult : call.result = some (.ok (.session session))) : Succeeds id call := by
  have h := hv.returned hi hresult
  replace h : (AuthServer.handler P call.req).Returns [] call.log (.ok (.session session)) := h
  unfold AuthServer.handler at h
  rw [hrequest] at h
  obtain ⟨l₁, user, h₁, _, h⟩ := h.of_bind
  obtain ⟨l₂, result, h₂, hl₂, _⟩ := h.of_bind
  obtain ⟨l₃, sessionId, h₃, hl₃, _⟩ := h₂.of_bind
  obtain ⟨⟨k, hk, hright⟩, hdel⟩ :=
    verifyLoginChallenge_succeeds (trace_returns h₁ (by simp)) h₃
  exact ⟨⟨bearer, code, hrequest⟩, ⟨k, (hl₃.trans hl₂).subset hk, hright⟩,
    hdel.mono (hl₃.trans hl₂)⟩

/-- A verification whose success comes before another reads leaves it nothing. -/
theorem not_reads_of_succeeds (hreach : (machine P).Reachable World.Initial c)
    (hserial : Serial id c) (hi : c.calls[i]? = some call) (hj : c.calls[j]? = some call')
    (hne : i ≠ j) (h : Succeeds id call) (h' : Verifies id call') {r r' : ServerEvent}
    {challenge' : MfaChallengePayload} (hr : r ∈ call.log) (hr' : r' ∈ call'.log)
    (hread : Reads id challenge r) (hread' : Reads id challenge' r') : ¬r.seq < r'.seq := by
  intro hlt
  obtain ⟨hverifies, _, n, pre, post, hdel⟩ := h
  obtain ⟨w, hw, hwrite, hkept⟩ := read_after hreach hserial hi hj hne hverifies h' hr hr' hread
    hread' hlt ⟨_, hdel, .inr .del⟩
  obtain rfl := writes_once hreach.valid hi hverifies hw hdel hwrite .del
  refine Nat.not_succ_le_self _ (hkept (challenge'.attempts + 1) fun challenge hstored => ?_)
  obtain ⟨p, hp, hkey, _⟩ := hstored
  exact absurd hkey (Stmt.del_answer (executed hreach.valid hi hdel) hp)

/-! ### Wrong codes -/

/-- A verification of the challenge has found a code wrong. -/
def WrongCode (id : String) (c : ServerConfig) (e : ServerEvent) : Prop :=
  ∃ (i : ℕ) (call : ServerCall), c.calls[i]? = some call ∧ Verifies id call ∧ e ∈ call.log ∧
    Checks false e

/-- The number of attempts that the verification of a wrong code has read. -/
def CountedAs (id : String) (c : ServerConfig) (e : ServerEvent) (n : ℕ) : Prop :=
  ∃ (i : ℕ) (call : ServerCall) (r : ServerEvent) (challenge : MfaChallengePayload),
    c.calls[i]? = some call ∧ Verifies id call ∧ e ∈ call.log ∧ Checks false e ∧ r ∈ call.log ∧
    Reads id challenge r ∧ challenge.attempts = n

theorem WrongCode.counted (hv : (machine P).Valid c) (h : WrongCode id c e) :
    ∃ n < 3, CountedAs id c e n := by
  obtain ⟨i, call, hi, hverifies, he, hwrong⟩ := h
  obtain ⟨l, _, hl⟩ := hv.reached hi e he
  obtain ⟨r, challenge, hread, hfresh, htrace⟩ := hwrong.second hv hi hverifies hl
  have hr : r ∈ trace l := by simp [htrace]
  exact ⟨_, hfresh, i, call, r, challenge, hi, hverifies, he, hwrong,
    hl.subset (List.mem_cons_of_mem _ (List.mem_filter.1 hr).1), hread, rfl⟩

/-- **No two wrong codes are counted as the same attempt.** -/
theorem CountedAs.unique (hreach : (machine P).Reachable World.Initial c) (hserial : Serial id c)
    {e' : ServerEvent} {n : ℕ} (h : CountedAs id c e n) (h' : CountedAs id c e' n) : e = e' := by
  obtain ⟨i, call, r, challenge, hi, hverifies, he, hwrong, hr, hread, hn⟩ := h
  obtain ⟨j, call', r', challenge', hj, hverifies', he', hwrong', hr', hread', hn'⟩ := h'
  have hv := hreach.valid
  by_cases hij : i = j
  · obtain rfl := hij
    obtain rfl : call = call' := Option.some.inj (hi.symm.trans hj)
    exact checks_once hv hi hverifies he he' hwrong hwrong'
  · rcases Nat.lt_trichotomy r.seq r'.seq with hlt | heq | hlt
    · obtain ⟨w, hw, hwrite, hkept⟩ :=
        read_after hreach hserial hi hj hij hverifies hverifies' hr hr'
        hread hread' hlt ⟨e, he, .inl hwrong⟩
      have := hkept _ (hwrite.atLeast hv hi hverifies hr hread hw)
      omega
    · exact absurd (hv.seq_inj hi hj r hr r' hr' heq).1 hij
    · obtain ⟨w, hw, hwrite, hkept⟩ := read_after hreach hserial hj hi (Ne.symm hij) hverifies'
        hverifies hr' hr hread' hread hlt ⟨e', he', .inl hwrong'⟩
      have := hkept _ (hwrite.atLeast hv hj hverifies' hr' hread' hw)
      omega

/-- **One success and three wrong codes.**  If no verification of a challenge overlaps
another one, at most one of them succeeds, and at most three find their code wrong. -/
theorem login_challenge_bounded (hreach : (machine P).Reachable World.Initial c)
    (hserial : Serial id c) :
    (∀ (i j : ℕ) call call', c.calls[i]? = some call → c.calls[j]? = some call' →
      Succeeds id call → Succeeds id call' → i = j) ∧
    ∀ wrongs : List ServerEvent, wrongs.Nodup → (∀ e ∈ wrongs, WrongCode id c e) →
      wrongs.length ≤ 3 := by
  have hv := hreach.valid
  constructor
  · intro i j call call' hi hj h h'
    by_contra hij
    obtain ⟨n, pre, post, hdel⟩ := h.2.2
    obtain ⟨n', pre', post', hdel'⟩ := h'.2.2
    obtain ⟨r, hr, _, _, hread⟩ := Writes.read hv hi h.1 hdel .del
    obtain ⟨r', hr', _, _, hread'⟩ := Writes.read hv hj h'.1 hdel' .del
    have hnot := not_reads_of_succeeds hreach hserial hi hj hij h h'.1 hr hr' hread hread'
    have hnot' :=
      not_reads_of_succeeds hreach hserial hj hi (Ne.symm hij) h' h.1 hr' hr hread' hread
    exact hij (hv.seq_inj hi hj r hr r' hr' (by omega)).1
  · intro wrongs hnodup hwrongs
    have hcount : ∀ e : ServerEvent, ∃ n, e ∈ wrongs → n < 3 ∧ CountedAs id c e n := by
      intro e
      by_cases he : e ∈ wrongs
      · obtain ⟨n, hlt, hcounted⟩ := (hwrongs e he).counted hv
        exact ⟨n, fun _ => ⟨hlt, hcounted⟩⟩
      · exact ⟨0, fun h => absurd h he⟩
    choose count hcount using hcount
    have hdistinct : (wrongs.map count).Nodup := hnodup.map_on fun e he e' he' heq =>
      (hcount e he).2.unique hreach hserial (heq ▸ (hcount e' he').2)
    have hsub : wrongs.map count ⊆ List.range 3 := by
      intro n hn
      obtain ⟨e, he, rfl⟩ := List.mem_map.1 hn
      exact List.mem_range.2 (hcount e he).1
    simpa using (List.subperm_of_subset hdistinct hsub).length_le

/-! ### Two runs -/

/-- The challenge that the event reads. -/
def readKey : ServerEvent → Option String
  | ⟨_, _, .redis (.getChallenge (.mfaChallenge id)), .ok (some _), _⟩ => some id
  | _ => none

/-- The challenge that the event writes. -/
def writeKey : ServerEvent → Option String
  | ⟨_, _, .redis (.set (.mfaChallenge id) ..), .ok (), _⟩
  | ⟨_, _, .redis (.del (.mfaChallenge id)), .ok (), _⟩ => some id
  | _ => none

theorem writes_of_writeKey (h : writeKey e = some id) : Writes id e := by
  unfold writeKey at h
  split at h
  · obtain rfl := Option.some.inj h
    exact .set
  · obtain rfl := Option.some.inj h
    exact .del
  · cases h

/-- The call has written the challenge before the event that reads it. -/
def WrittenBefore (id : String) (call : ServerCall) (r : ServerEvent) : Prop :=
  ∃ w ∈ call.log, writeKey w = some id ∧ w.seq < r.seq

instance {r : ServerEvent} : Decidable (WrittenBefore id call r) :=
  inferInstanceAs (Decidable (∃ w ∈ call.log, _))

theorem serial_of_logs (h : ∀ call ∈ c.calls, ∀ call' ∈ c.calls, ∀ r ∈ call.log, ∀ r' ∈ call'.log,
    readKey r = some id ∧ readKey r' = some id ∧ r.seq < r'.seq → WrittenBefore id call r') :
    Serial id c := by
  intro i j call call' r r' challenge challenge' hi hj _ _ _ hr hr' hread hread' hlt
  obtain ⟨w, hw, hkey, hwr⟩ := h call (List.mem_of_getElem? hi) call' (List.mem_of_getElem? hj)
    r hr r' hr' ⟨by cases hread; rfl, by cases hread'; rfl, hlt⟩
  exact .inl ⟨w, hw, writes_of_writeKey hkey, hwr⟩

/-- The challenge that a request answers, and the code it answers with. -/
def answered? : Request → Option (String × String)
  | .mfaVerify _ (.challenge id code) => some (id, code)
  | _ => none

theorem verifies_of_answered? {code : String} (h : answered? call.req.request = some (id, code)) :
    Verifies id call := by
  unfold answered? at h
  split at h
  · rename_i bearer id' code' hrequest
    obtain ⟨rfl, rfl⟩ := Prod.mk.inj (Option.some.inj h)
    exact ⟨bearer, _, hrequest⟩
  · cases h

/-- A user enrolls in a second factor and logs in. -/
def challengedMoves : List (Move World Incoming Env) :=
  loginMoves 0 "al@x.io" "Al 1" ++ enrollMoves 1 ++ loginMoves 3 "al@x.io" "Al 1"

/-- The session that a call has returned. -/
def session? (call : ServerCall) : Option LoginResultSuccess :=
  match call.result with
  | some (.ok (.session session)) => some session
  | _ => none

theorem succeeds_of_session? (hv : (machine P).Valid c) (hi : c.calls[i]? = some call)
    {code : String} (h : answered? call.req.request = some (id, code))
    (hsession : (session? call).isSome) : Succeeds id call := by
  obtain ⟨bearer, code, hrequest⟩ := verifies_of_answered? h
  unfold session? at hsession
  split at hsession
  · exact succeeds_of_session hv hi hrequest ‹_›
  · cases hsession

/-- The event finds a code wrong. -/
def isWrong : ServerEvent → Bool
  | ⟨_, _, .runtime (.totpCheck ..), .ok false, _⟩ => true
  | _ => false

theorem checks_of_isWrong (h : isWrong e = true) : Checks false e := by
  unfold isWrong at h
  split at h
  · exact .check
  · cases h

/-- A wrong code, and then the right one. -/
theorem login_challenge_bounded_of_wrong_code :
    ∃ (c : ServerConfig) (id : String) (call : ServerCall),
      sampleRun (challengedMoves ++ challengeMoves 4 "000000" ++ challengeMoves 5 "123456") =
        some c ∧
      c.calls[5]? = some call ∧ Succeeds id call ∧ (∃ e, WrongCode id c e) ∧
      (∀ (i j : ℕ) call call', c.calls[i]? = some call → c.calls[j]? = some call' →
        Succeeds id call → Succeeds id call' → i = j) ∧
      ∀ wrongs : List ServerEvent, wrongs.Nodup → (∀ e ∈ wrongs, WrongCode id c e) →
        wrongs.length ≤ 3 := by
  have hplay : (sampleRun (challengedMoves ++ challengeMoves 4 "000000" ++
      challengeMoves 5 "123456")).any (fun c => (c.calls[4]?).any fun wrong => (c.calls[5]?).any
        fun call => (answered? call.req.request).any fun p => decide (
          (answered? wrong.req.request = some (p.1, "000000") ∧ ∃ e ∈ wrong.log, isWrong e = true) ∧
          (session? call).isSome ∧
          ∀ call ∈ c.calls, ∀ call' ∈ c.calls, ∀ r ∈ call.log, ∀ r' ∈ call'.log,
            readKey r = some p.1 ∧ readKey r' = some p.1 ∧ r.seq < r'.seq →
              WrittenBefore p.1 call r')) = true := by
    decide +kernel
  obtain ⟨c, hc, hall⟩ := (Option.any_eq_true _ _).1 hplay
  obtain ⟨wrong, hi, hwrong⟩ := (Option.any_eq_true _ _).1 hall
  obtain ⟨call, hj, hcall⟩ := (Option.any_eq_true _ _).1 hwrong
  obtain ⟨⟨id, code⟩, hid, hrest⟩ := (Option.any_eq_true _ _).1 hcall
  obtain ⟨⟨hverifies, e, he, hchecks⟩, hsession, hserial⟩ := of_decide_eq_true hrest
  have hreach := sampleRun_reachable hc
  obtain ⟨hsuccess, hwrongs⟩ := login_challenge_bounded hreach (serial_of_logs hserial)
  exact ⟨c, id, call, hc, hj, succeeds_of_session? hreach.valid hj hid hsession,
    ⟨e, 4, wrong, hi, verifies_of_answered? hverifies, he, checks_of_isWrong hchecks⟩,
    hsuccess, hwrongs⟩

/-- Verifications of the newest challenge at once: all read it before one goes on. -/
def atOnceMoves (calls : List ℕ) (code : String) : List (Move World Incoming Env) :=
  calls.map (fun _ => .accept fun w =>
    ⟨.mfaVerify none (.challenge (w.generated.headD "") code), {}⟩) ++
    calls.map (.steps · 1) ++ calls.map (.steps · 40)

/-- **Four wrong codes and two successes.**  The verifications of each kind have read the
challenge before any of them writes it: the wrong codes count as one, and both right codes
get a session. -/
theorem login_challenge_overlapped :
    ∃ (c : ServerConfig) (id : String) (call call' : ServerCall) (wrongs : List ServerEvent),
      sampleRun (challengedMoves ++ atOnceMoves [4, 5, 6, 7] "000000" ++
        atOnceMoves [8, 9] "123456") = some c ∧
      c.calls[8]? = some call ∧ c.calls[9]? = some call' ∧ Succeeds id call ∧ Succeeds id call' ∧
      wrongs.Nodup ∧ (∀ e ∈ wrongs, WrongCode id c e) ∧ wrongs.length = 4 := by
  have hplay : (sampleRun (challengedMoves ++ atOnceMoves [4, 5, 6, 7] "000000" ++
      atOnceMoves [8, 9] "123456")).any (fun c => (c.calls[8]?).any fun call => (c.calls[9]?).any
        fun call' => (answered? call.req.request).any fun p => decide (
          answered? call'.req.request = some p ∧ (session? call).isSome ∧ (session? call').isSome ∧
          (∀ call ∈ c.calls, (∃ e ∈ call.log, isWrong e = true) →
            (answered? call.req.request).map Prod.fst = some p.1) ∧
          ((c.calls.flatMap fun call => call.log.filter isWrong).map Event.seq).Nodup ∧
          (c.calls.flatMap fun call => call.log.filter isWrong).length = 4)) = true := by
    decide +kernel
  obtain ⟨c, hc, hall⟩ := (Option.any_eq_true _ _).1 hplay
  obtain ⟨call, hi, hcall⟩ := (Option.any_eq_true _ _).1 hall
  obtain ⟨call', hj, hcall'⟩ := (Option.any_eq_true _ _).1 hcall
  obtain ⟨⟨id, code⟩, hid, hrest⟩ := (Option.any_eq_true _ _).1 hcall'
  obtain ⟨hid', hsession, hsession', hverify, hnodup, hfour⟩ := of_decide_eq_true hrest
  have hv := (sampleRun_reachable hc).valid
  refine ⟨c, id, call, call', _, hc, hi, hj, succeeds_of_session? hv hi hid hsession,
    succeeds_of_session? hv hj hid' hsession', hnodup.of_map _, fun e he => ?_, hfour⟩
  obtain ⟨wrong, hwrong, hmem⟩ := List.mem_flatMap.1 he
  obtain ⟨hlog, hisWrong⟩ := List.mem_filter.1 hmem
  obtain ⟨k, hk⟩ := List.getElem?_of_mem hwrong
  obtain ⟨⟨id', code'⟩, hrequest, rfl⟩ :=
    Option.map_eq_some_iff.1 (hverify wrong hwrong ⟨e, hlog, hisWrong⟩)
  exact ⟨k, wrong, hk, verifies_of_answered? hrequest, hlog, checks_of_isWrong hisWrong⟩

end IdentityPlatform
