/-
# The end of a session

A session is created with the time at which it ends, and the time is never looked at
again: whoever takes a session up, with a refresh token or with a login challenge, only
asks whether it is active.  So its tokens are issued in time as long as it is taken up in
time, and no call lasts over its end.
-/

import IdentityPlatform.Protocol.SessionTokens

namespace IdentityPlatform

open Interleaving Program Relational Machine AuthServer

variable {P : Platform} {c : ServerConfig} {i : ℕ} {call : ServerCall} {sid u : String}
  {e e' : ServerEvent} {request : Request}

/-- The event issues a token of the session. -/
inductive IssuesToken (sid : String) : ServerEvent → Prop
  | issued {n pre s a post u} (issues : Stmt.IssuesFor sid u s) :
      IssuesToken sid ⟨n, pre, s, .ok a, post⟩

/-- The event creates the session. -/
inductive CreatesSession (sid : String) : ServerEvent → Prop
  | created {n pre data post} {session : SessionRow} (id : session.id = sid) :
      CreatesSession sid ⟨n, pre, .sessions (.insert data), .ok session, post⟩

/-- The event takes the session up again: it rotates a refresh token of the session, or
it finds the session of a login challenge. -/
inductive TakesUp (request : Request) (sid : String) : ServerEvent → Prop
  | rotated {n pre hash post} {row : RefreshTokenRow} (session : row.sessionId = sid) :
      TakesUp request sid ⟨n, pre, .refreshTokens (.rotate hash), .ok (some row), post⟩
  | challenged {bearer mfaChallengeId code n pre session post}
      (hrequest : request = .mfaVerify bearer (.challenge mfaChallengeId code)) :
      TakesUp request sid ⟨n, pre, .sessions (.selectById sid), .ok (some session), post⟩

/-- What happens to the session at the event happens before its end. -/
def InTime (c : ServerConfig) (sid : String) (e : ServerEvent) : Prop :=
  ∀ s ∈ c.world.sessions, s.id = sid → e.pre.now ≤ s.expiresAt

/-- No token is issued after the end of its session. -/
def IssuedInTime (c : ServerConfig) : Prop :=
  ∀ (i : ℕ) call sid, c.calls[i]? = some call → ∀ e ∈ call.log, IssuesToken sid e → InTime c sid e

/-- No session is taken up after its end. -/
def TakenUpInTime (c : ServerConfig) : Prop :=
  ∀ (i : ℕ) call sid, c.calls[i]? = some call → ∀ e ∈ call.log, TakesUp call.req.request sid e →
    InTime c sid e

/-- No session ends between its being created or taken up by a call and the issue of a
token by the call. -/
def NoneEndsMeanwhile (c : ServerConfig) : Prop :=
  ∀ (i : ℕ) call sid, c.calls[i]? = some call → ∀ e l, e :: l <:+ call.log → ∀ e' ∈ l,
    CreatesSession sid e' ∨ TakesUp call.req.request sid e' → IssuesToken sid e →
      InTime c sid e' → InTime c sid e

/-- A session is created before its end. -/
theorem CreatesSession.inTime (hreach : (machine P).Reachable World.Initial c)
    (hi : c.calls[i]? = some call) (he : e ∈ call.log) (h : CreatesSession sid e) :
    InTime c sid e := by
  cases h with
  | @created n pre data post session id =>
      intro s hs hid
      obtain ⟨r, rfl, _, hpost⟩ := Stmt.insertSession_answer (executed hreach.valid hi he)
      have hle : post.Le c.world := (hreach.ordered (le_stable P)).post hi _ he
      have hrow := hle.sessions.le_of_key (reachable_sound hreach).1.sessions.nodup (fun h => h.id)
        hpost hs (hid.trans id.symm)
      rw [hrow.expiresAt]
      exact Nat.le_add_right ..

/-- Whoever issues a token of a session has created it or taken it up. -/
theorem IssuesToken.taken (hreach : (machine P).Reachable World.Initial c)
    (hi : c.calls[i]? = some call) (he : e ∈ call.log) (h : IssuesToken sid e) :
    ∃ l, e :: l <:+ call.log ∧
      ∃ e' ∈ l, CreatesSession sid e' ∨ TakesUp call.req.request sid e' := by
  cases h with
  | issued issues =>
      obtain ⟨l, hl, hauthority⟩ := issued_authority hreach hi he issues
      refine ⟨l, hl, ?_⟩
      cases hauthority with
      | rotation rotated id _ =>
          obtain ⟨n, pre, post, hmem⟩ := rotated
          exact ⟨_, hmem, .inr (.rotated id)⟩
      | root hroot =>
          cases hroot with
          | login _ created id _ =>
              obtain ⟨n, pre, post, hmem⟩ := created.saw
              exact ⟨_, hmem, .inl (.created id)⟩
          | exchange _ _ _ _ _ inserted id _ =>
              obtain ⟨n, pre, post, hmem⟩ := inserted
              exact ⟨_, hmem, .inl (.created id)⟩
          | challenge hrequest _ found _ id _ =>
              obtain ⟨n, pre, post, hmem⟩ := found
              subst id
              exact ⟨_, hmem, .inr (.challenged hrequest)⟩

/-- **Tokens in time.**  If no session is taken up after its end, and none ends between
its being created or taken up by a call and the issue of a token by the call, then no
token is issued after the end of its session.  And a call that takes a session up after
its end issues every token of it after its end. -/
theorem issued_in_time (hreach : (machine P).Reachable World.Initial c) :
    (TakenUpInTime c → NoneEndsMeanwhile c → IssuedInTime c) ∧
      ∀ (i : ℕ) call sid, c.calls[i]? = some call → ∀ e l, e :: l <:+ call.log → ∀ e' ∈ l,
        TakesUp call.req.request sid e' → ¬InTime c sid e' → IssuesToken sid e →
          ¬InTime c sid e := by
  constructor
  · intro htaken hmeanwhile i call sid hi e he hissues
    obtain ⟨l, hl, e', he', hcases⟩ := hissues.taken hreach hi he
    have hmem : e' ∈ call.log := ((List.suffix_cons e l).trans hl).subset he'
    refine hmeanwhile i call sid hi e l hl e' he' hcases hissues ?_
    rcases hcases with hcreates | htakes
    · exact hcreates.inTime hreach hi hmem
    · exact htaken i call sid hi e' hmem htakes
  · intro i call sid hi e l hl e' he' _ hlate _ hin
    have hord := hreach.ordered (le_stable P)
    have hmem : e' ∈ call.log := ((List.suffix_cons e l).trans hl).subset he'
    have hle : e'.pre.Le e.pre :=
      (hord.answer hi _ hmem).trans (hord.earlier hreach.valid hi hl he')
    exact hlate fun s hs hid => hle.now.trans (hin s hs hid)

/-- A day in milliseconds. -/
def dayMs : ℕ := 24 * 60 * 60 * 1000

/-- A login, and refreshes 13, 26, 39, … days later. -/
def fortnightMoves (refreshes : ℕ) : List (Move World Incoming Env) :=
  loginMoves 0 "al@x.io" "Al 1" ++ (List.range refreshes).flatMap fun k =>
    [.env (.tick (13 * dayMs)), .accept fun w => ⟨.refresh (lastToken w), {}⟩, .steps (k + 1) 40]

/-- As long as no session has ended, everything has happened in time. -/
theorem inTime_of_now (hreach : (machine P).Reachable World.Initial c)
    (hnow : ∀ s ∈ c.world.sessions, c.world.now ≤ s.expiresAt) (hi : c.calls[i]? = some call)
    (he : e ∈ call.log) : InTime c sid e := by
  have hord := hreach.ordered (le_stable P)
  have hle : e.pre.Le c.world := (hord.answer hi e he).trans (hord.post hi e he)
  exact fun s hs _ => hle.now.trans (hnow s hs)

/-- Two refreshes, the second after 26 days. -/
theorem issued_in_time_of_two_refreshes :
    ∃ c : ServerConfig, sampleRun (fortnightMoves 2) = some c ∧ c.world.refreshTokens.length = 3 ∧
      IssuedInTime c := by
  have hplay : (sampleRun (fortnightMoves 2)).any (fun c =>
      decide (c.world.refreshTokens.length = 3 ∧
        ∀ s ∈ c.world.sessions, c.world.now ≤ s.expiresAt)) = true := by
    decide +kernel
  obtain ⟨c, hc, hall⟩ := (Option.any_eq_true _ _).1 hplay
  obtain ⟨hlength, hnow⟩ := of_decide_eq_true hall
  have hreach := sampleRun_reachable hc
  refine ⟨c, hc, hlength, (issued_in_time hreach).1 ?_ ?_⟩
  · exact fun i call sid hi e he _ => inTime_of_now hreach hnow hi he
  · exact fun i call sid hi e l hl e' he' _ _ _ =>
      inTime_of_now hreach hnow hi (hl.subset (List.mem_cons_self ..))

/-- The session of the refresh token that the event stores, and the time. -/
def storedAt : ServerEvent → Option (String × ℕ)
  | ⟨_, pre, .refreshTokens (.insert data), .ok (), _⟩ => some (data.sessionId, pre.now)
  | _ => none

theorem issuesToken_of_storedAt {time : ℕ} (h : storedAt e = some (sid, time)) :
    IssuesToken sid e ∧ e.pre.now = time := by
  unfold storedAt at h
  split at h
  · obtain ⟨rfl, rfl⟩ := Prod.mk.inj (Option.some.inj h)
    exact ⟨.issued ⟨rfl, rfl⟩, rfl⟩
  · cases h

/-- **A session is refreshed after its end.**  The third refresh is 39 days after the
login, and the session was to end after 30. -/
theorem session_refreshed_after_end :
    ∃ c : ServerConfig, sampleRun (fortnightMoves 3) = some c ∧ ¬IssuedInTime c := by
  have hplay : (sampleRun (fortnightMoves 3)).any (fun c => c.calls.any fun call =>
      call.log.any fun e => (storedAt e).any fun stored => decide (∃ s ∈ c.world.sessions,
        s.id = stored.1 ∧ s.expiresAt < stored.2)) = true := by
    decide +kernel
  obtain ⟨c, hc, hall⟩ := (Option.any_eq_true _ _).1 hplay
  obtain ⟨call, hcall, hlog⟩ := List.any_eq_true.1 hall
  obtain ⟨e, he, hevent⟩ := List.any_eq_true.1 hlog
  obtain ⟨⟨sid, time⟩, hstored, hlate⟩ := (Option.any_eq_true _ _).1 hevent
  obtain ⟨s, hs, hid, hend⟩ := of_decide_eq_true hlate
  obtain ⟨hissues, rfl⟩ := issuesToken_of_storedAt hstored
  obtain ⟨i, hi⟩ := List.mem_iff_getElem?.1 hcall
  exact ⟨c, hc, fun hall => absurd (hall i call sid hi e he hissues s hs hid) (Nat.not_le.2 hend)⟩

end IdentityPlatform
