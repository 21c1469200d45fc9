/-
# Sessions behind a second factor

A login of a user with an active second factor creates a session and leaves a
challenge in Redis.  The challenge names the session and its user from then on: a wrong
code only counts up, and only the verification of the challenge leads to a first token
(`issued_root`).
-/

import IdentityPlatform.Protocol.SessionTokens

namespace IdentityPlatform

open Interleaving Program Relational Machine AuthServer

variable {P : Platform} {c : ServerConfig} {i j : ℕ} {call call' : ServerCall} {sid u : String}

/-- A login challenge of the session `sid` of `u` has been passed: its payload was read,
and a secret of `u`, active when it was read, accepted the code. -/
def Validated (c : ServerConfig) (sid u : String) : Prop :=
  ∃ (j : ℕ) (verifier : ServerCall) (bearer : Option WireToken) (mfaChallengeId code : String)
    (challenge : MfaChallengePayload), c.calls[j]? = some verifier ∧
    verifier.req.request = .mfaVerify bearer (.challenge mfaChallengeId code) ∧
    PassedChallenge verifier.log mfaChallengeId code challenge ∧
    challenge.sessionId = sid ∧ challenge.userId = u

/-- A challenge that has been passed is one of a session of its user. -/
theorem PassedChallenge.sessionOf (hreach : (machine P).Reachable World.Initial c)
    (hj : c.calls[j]? = some call) {mfaChallengeId code : String} {challenge : MfaChallengePayload}
    (h : PassedChallenge call.log mfaChallengeId code challenge) :
    c.world.SessionOf challenge.sessionId challenge.userId := by
  have hord := hreach.ordered (le_stable P)
  obtain ⟨m, w, w', hmem, hans⟩ := answered hreach.valid hj h.read
  obtain ⟨p, hp, hkey, hvalue⟩ := Stmt.getChallenge_answer hans
  have hstored := ((reachable_bound hreach).2 j call hj _ hmem).1.challenge p hp _ _ hkey hvalue
  exact hstored.mono ((hord.answer hj _ hmem).trans (hord.post hj _ hmem))

/-- So it validates that session. -/
theorem PassedChallenge.validates (hreach : (machine P).Reachable World.Initial c)
    (hj : c.calls[j]? = some call) {bearer : Option WireToken} {mfaChallengeId code : String}
    {challenge : MfaChallengePayload}
    (hrequest : call.req.request = .mfaVerify bearer (.challenge mfaChallengeId code))
    (h : PassedChallenge call.log mfaChallengeId code challenge)
    (hsession : c.world.SessionOf challenge.sessionId u) : Validated c challenge.sessionId u :=
  ⟨j, call, bearer, mfaChallengeId, code, challenge, hj, hrequest, h, rfl,
    (h.sessionOf hreach hj).unique hsession (reachable_sound hreach).1⟩

/-- A session is created once. -/
theorem created_once (hreach : (machine P).Reachable World.Initial c)
    (hi : c.calls[i]? = some call) (hj : c.calls[j]? = some call') {n n' : ℕ}
    {pre pre' post post' : World} {data data' : CreateSessionData} {session session' : SessionRow}
    (he : (⟨n, pre, .sessions (.insert data), .ok session, post⟩ : ServerEvent) ∈ call.log)
    (he' : (⟨n', pre', .sessions (.insert data'), .ok session', post'⟩ : ServerEvent) ∈ call'.log)
    (hid : session'.id = session.id) :
    i = j ∧ (⟨n, pre, .sessions (.insert data), .ok session, post⟩ : ServerEvent) =
      ⟨n', pre', .sessions (.insert data'), .ok session', post'⟩ := by
  have hv := hreach.valid
  obtain ⟨r, hsession, htaken, _⟩ := Stmt.insertSession_answer (executed hv hi he)
  obtain ⟨r', hsession', htaken', _⟩ := Stmt.insertSession_answer (executed hv hj he')
  have hrow : r' = r := by
    rw [hsession, hsession'] at hid
    exact hid
  subst hrow
  exact taken_once hreach hi hj he he' htaken htaken'

/-- The answer about the second factor that a login has created its session on is the
only one. -/
theorem CreatedAtLogin.unique (hreach : (machine P).Reachable World.Initial c)
    (hi : c.calls[i]? = some call) (hj : c.calls[j]? = some call') {hasMfa hasMfa' : Bool}
    {data data' : CreateSessionData} {session session' : SessionRow}
    (h : CreatedAtLogin call.log hasMfa data session)
    (h' : CreatedAtLogin call'.log hasMfa' data' session') (hid : session'.id = session.id) :
    hasMfa = hasMfa' := by
  obtain ⟨l₁, l₂, l₃, ⟨n₁, pre₁, post₁, rfl⟩, ⟨n₂, pre₂, post₂, rfl⟩, hl⟩ := h
  obtain ⟨k₁, k₂, k₃, ⟨m₁, w₁, w₁', rfl⟩, ⟨m₂, w₂, w₂', rfl⟩, hk⟩ := h'
  obtain ⟨rfl, heq⟩ := created_once hreach hi hj (hl.subset (List.mem_cons_self ..))
    (hk.subset (List.mem_cons_self ..)) hid
  obtain rfl : call = call' := Option.some.inj (hi.symm.trans hj)
  cases heq
  obtain ⟨hhead, _⟩ := List.cons.inj (hreach.valid.place hi hl hk)
  cases hhead
  rfl

/-- **No token before the second factor.**  If a login has created a session because its
user has an active second factor, every access or refresh token of the session that
exists in any later state is for that user, and a login challenge of the session has
been passed with a secret of that user. -/
theorem mfa_session_token_validated (hreach : (machine P).Reachable World.Initial c)
    (hi : c.calls[i]? = some call) {email password : String}
    (hrequest : call.req.request = .login email password) {data : CreateSessionData}
    {session : SessionRow} (hcreated : CreatedAtLogin call.log true data session)
    (htoken : c.world.HasToken session.id u) :
    u = data.userId ∧ Validated c session.id data.userId := by
  have hsound := (reachable_sound hreach).1
  have hsession := inserted_sessionOf hreach hi hcreated.saw
  obtain ⟨k, issuer, n, pre, post, s, a, hk, he, hissues⟩ := htoken.issued hreach
  obtain ⟨j, rooted, e, l, hj, hl, _, hroot⟩ := issued_root hreach hk he hissues
  have hlog := (List.suffix_cons e l).trans hl
  refine ⟨(hroot.sessionOf hreach hj hlog).unique hsession hsound, ?_⟩
  generalize hrooted : rooted.req.request = request at hroot
  cases hroot with
  | login _ created id _ =>
      -- the login that created the session issued no token
      cases hcreated.unique hreach hi hj (created.mono hlog) id
  | exchange htoken _ _ _ _ inserted id _ =>
      -- the session was created by a login
      obtain ⟨n₁, pre₁, post₁, hmem₁⟩ := hcreated.saw
      obtain ⟨n₂, pre₂, post₂, hmem₂⟩ := inserted.mono hlog
      obtain ⟨rfl, _⟩ := created_once hreach hi hj hmem₁ hmem₂ id
      obtain rfl : call = rooted := Option.some.inj (hi.symm.trans hj)
      rw [htoken, hrequest] at hrooted
      cases hrooted
  | @challenge bearer mfaChallengeId code challenge _ hverify passed _ _ id _ =>
      rw [← id]
      exact (passed.mono hlog).validates hreach hj (hrooted.trans hverify) (id ▸ hsession)

/-- The session that the log of a login with an active second factor has created last. -/
def createdBehindMfa : ServerLog → Option (CreateSessionData × SessionRow)
  | ⟨_, _, .sessions (.insert data), .ok session, _⟩ ::
      ⟨n', pre', .mfaMethods (.hasActive userId), .ok true, post'⟩ :: l =>
    if userId = data.userId then some (data, session)
    else createdBehindMfa (⟨n', pre', .mfaMethods (.hasActive userId), .ok true, post'⟩ :: l)
  | _ :: l => createdBehindMfa l
  | [] => none

theorem createdBehindMfa_created {l : ServerLog} {data : CreateSessionData} {session : SessionRow}
    (h : createdBehindMfa l = some (data, session)) : CreatedAtLogin l true data session := by
  induction l using createdBehindMfa.induct with
  | case1 n pre data' session' post n' pre' post' l =>
      rw [createdBehindMfa, if_pos rfl] at h
      cases h
      exact ⟨l, _, _, ⟨n', pre', post', rfl⟩, ⟨n, pre, post, rfl⟩, List.suffix_refl _⟩
  | case2 n pre data' session' post n' pre' userId post' l hne ih =>
      rw [createdBehindMfa, if_neg hne] at h
      exact (ih h).mono (List.suffix_cons ..)
  | case3 e l hne ih =>
      rw [createdBehindMfa] at h
      · exact (ih h).mono (List.suffix_cons ..)
      · exact hne
  | case4 => cases h

/-- A user enrolls, logs in again and answers the challenge. -/
def secondFactorMoves : List (Move World Incoming Env) :=
  loginMoves 0 "al@x.io" "Al 1" ++ enrollMoves 1 ++ loginMoves 3 "al@x.io" "Al 1" ++
    challengeMoves 4 "123456"

theorem mfa_session_token_validated_of_second_factor :
    ∃ (c : ServerConfig) (data : CreateSessionData) (session : SessionRow),
      sampleRun secondFactorMoves = some c ∧ c.world.HasToken session.id (sampleUuid 9001) ∧
      sampleUuid 9001 = data.userId ∧ Validated c session.id data.userId := by
  have hplay : (sampleRun secondFactorMoves).any (fun c => (c.calls[3]?).any fun call =>
      decide (call.req.request = .login "al@x.io" "Al 1") &&
        (createdBehindMfa call.log).any fun p => decide (∃ t ∈ c.world.refreshTokens,
          t.sessionId = p.2.id ∧ t.userId = sampleUuid 9001)) = true := by
    decide +kernel
  obtain ⟨c, hc, hcall⟩ := (Option.any_eq_true _ _).1 hplay
  obtain ⟨call, hi, hrest⟩ := (Option.any_eq_true _ _).1 hcall
  obtain ⟨hrequest, hlog⟩ := Bool.and_eq_true_iff.1 hrest
  obtain ⟨⟨data, session⟩, hcreated, htoken⟩ := (Option.any_eq_true _ _).1 hlog
  obtain ⟨t, ht, hsession, huser⟩ := of_decide_eq_true htoken
  have hhas : c.world.HasToken session.id (sampleUuid 9001) := .refresh ht hsession huser
  exact ⟨c, data, session, hc, hhas,
    mfa_session_token_validated (sampleRun_reachable hc) hi (of_decide_eq_true hrequest)
      (createdBehindMfa_created hcreated) hhas⟩

end IdentityPlatform
