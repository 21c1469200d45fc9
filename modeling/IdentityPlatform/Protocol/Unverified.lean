/-
# Users who have not verified their address

Verification, lockout, unlocking and the administrators all write
`users.status`.  A user who has never verified the address stays without
sessions, tokens and codes, and never becomes `active`, as long as no login gets
past the password check while the row says `locked`: a lock replaces
`pending_verification`, so when `locked_until` is not later than the clock any
more, or is NULL because a password reset has cleared it, the gate for unverified
accounts does not see them, and `clearLockAndFailures` makes them `active`.
-/

import IdentityPlatform.Protocol.Received
import IdentityPlatform.Protocol.Justified

namespace IdentityPlatform

open Interleaving Program Relational Machine AuthServer

variable {P : Platform} {u : String} {w w' : World}

/-- A user who is not active and has nothing. -/
structure Dormant (u : String) (w : World) : Prop where
  users : ∀ r ∈ w.users, r.id = u → r.status ≠ .active
  sessions : ∀ r ∈ w.sessions, r.userId ≠ u
  refreshTokens : ∀ r ∈ w.refreshTokens, r.userId ≠ u
  codes : ∀ r ∈ w.codes, r.userId ≠ u

/-- A verification token of the user has been consumed. -/
def VerifiedOnce (u : String) (w : World) : Prop :=
  ∃ v ∈ w.emailVerifications, v.userId = u ∧ v.consumedAt.isSome = true

theorem VerifiedOnce.mono (h : VerifiedOnce u w) (hle : w.Le w') : VerifiedOnce u w' := by
  obtain ⟨v, hv, hu, hc⟩ := h
  obtain ⟨v', hv', hrow⟩ := hle.emailVerifications v hv
  exact ⟨v', hv', hrow.userId.trans hu, hrow.consumed hc⟩

/-- An administrator has set the user to `active`. -/
def Activates (u : String) (e : ServerEvent) : Prop :=
  e.op = .users (.setStatus u .active) ∧ e.ans.isOk = true

/-- **The way past the gate**: a login with the right password reads the clock,
the row it has read is the user's and `locked`, and its `locked_until` is not later
than the clock, or NULL, as a password reset leaves it. -/
def PassesLocked (P : Platform) (u : String) (incoming : Incoming) (l : ServerLog)
    (e : ServerEvent) : Prop :=
  e.op = .runtime .dateNow ∧ ∃ email password row, incoming.request = .login email password ∧
    l.Saw (.users (.findByEmail email.toLower)) (.ok (some row)) ∧ row.id = u ∧
    row.status = .locked ∧ row.lockedUntil.any (· > e.pre.now) = false ∧
    verifyPassword P row.passwordHash password = true

/-- Neither an administrator nor a login past a lock that has run out or was cleared. -/
def Avoids (P : Platform) (u : String) (incoming : Incoming) (l : ServerLog) (e : ServerEvent) :
    Prop :=
  ¬Activates u e ∧ ¬PassesLocked P u incoming l e

/-- The invariant of the user. -/
def Unverified (u : String) (w : World) : Prop := VerifiedOnce u w ∨ Dormant u w

theorem Unverified.env (h : Unverified u w) {e : Env} (hw : e.apply w = some w') :
    Unverified u w' := by
  rcases h with h | h
  · exact .inl (h.mono (Env.apply_le hw))
  · obtain ⟨h₁, h₂, h₃, h₄⟩ := Env.apply_rows hw
    exact .inr ⟨h₁ ▸ h.users, h₂ ▸ h.sessions, h₃ ▸ h.refreshTokens, h₄ ▸ h.codes⟩

/-! ### What a local history excludes -/

section History

variable {incoming : Incoming} {l : ServerLog} {now : World}
  (hup : Upheld (machine P) World.Le (Unverified u) (Avoids P u) 0 incoming l now)
  (hno : ¬VerifiedOnce u now)

include hup hno

/-- Every state seen so far was dormant. -/
theorem dormant_of_saw {s : Stmt} {a : s.Ans} (hs : l.Saw s (.ok a)) :
    ∃ pre post, s.Answered P a pre post ∧ Dormant u pre ∧ Dormant u post := by
  obtain ⟨pre, post, hans, hle, hpre, hpost⟩ := hup.saw hs
  have hnot : ¬VerifiedOnce u post := fun h => hno (h.mono hle)
  have hpre' : Dormant u pre := by
    rcases hpre with h | h
    · exact absurd (h.mono (Stmt.Answered.le hans)) hnot
    · exact h
  exact ⟨pre, post, hans, hpre', hpost.resolve_left hnot⟩

theorem not_rotated {hash : String} {row : RefreshTokenRow}
    (hs : l.Saw (.refreshTokens (.rotate hash)) (.ok (some row))) : row.userId ≠ u := by
  obtain ⟨pre, post, hans, _, hpost⟩ := dormant_of_saw hup hno hs
  obtain ⟨_, _, _, _, _, _, hmem⟩ := Stmt.rotate_answer hans
  exact hpost.refreshTokens row hmem

theorem not_stored {data : IssueRefreshData}
    (hs : l.Saw (.refreshTokens (.insert data)) (.ok ())) : data.userId ≠ u := by
  obtain ⟨pre, post, hans, _, hpost⟩ := dormant_of_saw hup hno hs
  obtain ⟨r, _, hmem, _⟩ := Stmt.insertRefreshToken_answer hans
  exact hpost.refreshTokens _ hmem

theorem not_created {data : CreateSessionData} {session : SessionRow}
    (hs : l.Saw (.sessions (.insert data)) (.ok session)) : data.userId ≠ u := by
  obtain ⟨pre, post, hans, _, hpost⟩ := dormant_of_saw hup hno hs
  obtain ⟨r, rfl, _, hmem⟩ := Stmt.insertSession_answer hans
  exact hpost.sessions _ hmem

theorem not_found {id : String} {session : SessionRow}
    (hs : l.Saw (.sessions (.selectById id)) (.ok (some session))) : session.userId ≠ u := by
  obtain ⟨pre, post, hans, hpre, _⟩ := dormant_of_saw hup hno hs
  exact hpre.sessions session (lookup_mem (Stmt.selectById_answer hans).symm)

theorem not_consumed {id : String} {row : AuthorizationCodeRow}
    (hs : l.Saw (.codes (.consume id)) (.ok (some row))) : row.userId ≠ u := by
  obtain ⟨pre, post, hans, _, hpost⟩ := dormant_of_saw hup hno hs
  obtain ⟨_, _, _, _, _, hmem⟩ := Stmt.consume_answer hans
  exact hpost.codes row hmem

theorem not_active {id : String} {row : UserRow}
    (hs : l.Saw (.users (.findById id)) (.ok (some row))) (hactive : row.status = .active) :
    id ≠ u := by
  obtain ⟨pre, post, hans, hpre, _⟩ := dormant_of_saw hup hno hs
  have hlookup := (Stmt.findById_answer hans).symm
  exact fun hid => hpre.users row (lookup_mem hlookup) ((lookup_key hlookup).trans hid) hactive

/-- **The gates of a login keep the user out.** -/
theorem not_passed {email password : String} {row : UserRow}
    (hrequest : incoming.request = .login email password)
    (hgates : PassedGates P l email password row) : row.id ≠ u := by
  intro hid
  obtain ⟨l', now, hstep, hread, hlock⟩ := hgates.clock
  obtain ⟨pre, post, hans, hpre, _⟩ := dormant_of_saw hup hno (hread.mono hstep.suffix)
  have hmem := lookup_mem (Stmt.findByEmail_answer hans).symm
  have hlocked : row.status = .locked := by
    have h₁ := hpre.users row hmem hid
    have h₂ := hgates.enabled
    have h₃ := hgates.verified
    cases hstatus : row.status <;> simp_all
  -- the clock was read in a state that the run avoids
  obtain ⟨n, pre', post', hl⟩ := hstep
  have hkept := hup _ _ hl (Nat.zero_le _)
  have hnow := Stmt.dateNow_answer (Answers.exec hkept.answers)
  refine hkept.cond.2
    ⟨rfl, email, password, row, hrequest, hread, hid, hlocked, ?_, hgates.password⟩
  exact hnow ▸ hlock

/-! ### What a statement can add -/

variable {s : Stmt} (hj : Justified P incoming.request l s)

include hj

/-- A verification of the user would have consumed one of the user's tokens. -/
theorem not_verified {id : String} (hs : s = .users (.markVerified id)) : id ≠ u := by
  subst hs
  obtain ⟨hash, row, hsaw, hid⟩ := hj
  obtain ⟨pre, post, hans, hle, _, _⟩ := hup.saw hsaw
  obtain ⟨hconsumed, hmem⟩ := Stmt.consumeVerification_answer hans
  rintro rfl
  exact hno (VerifiedOnce.mono ⟨row, hmem, hid, by rw [hconsumed]; rfl⟩ hle)

/-- An unlocked user has been given a refresh token before. -/
theorem not_unlocked {id : String} (hs : s = .users (.clearLockAndFailures id)) : id ≠ u := by
  subst hs
  obtain ⟨data, hsaw, hid⟩ := hj
  exact hid ▸ not_stored hup hno hsaw

theorem new_session {data : CreateSessionData} (hs : s = .sessions (.insert data)) :
    data.userId ≠ u := by
  subst hs
  cases hj with
  | login hrequest gates user => exact user ▸ not_passed hup hno hrequest gates
  | exchange _ consumed user => exact user ▸ not_consumed hup hno consumed

theorem new_refreshToken {data : IssueRefreshData} (hs : s = .refreshTokens (.insert data)) :
    data.userId ≠ u := by
  subst hs
  cases hj.1 with
  | rotation rotated => exact not_rotated hup hno rotated
  | login _ created user => exact user ▸ not_created hup hno created.saw
  | challenge _ _ found _ => exact not_found hup hno found
  | exchange _ _ _ _ consumed _ _ => exact not_consumed hup hno consumed

theorem new_code {hash : String} {data : IssueCodeData} (hs : s = .codes (.insert hash data)) :
    data.userId ≠ u := by
  subst hs
  obtain ⟨_, _, _, payload, _, _, ⟨row, hrow, hactive⟩, rfl⟩ := hj.authorized
  exact not_active hup hno hrow hactive

end History

/-- **What one statement keeps.**  A statement that a handler issues with good
reason, that is not an administrator's activation, and that follows a history
that kept the user unverified, leaves the user unverified. -/
theorem unverified_step {incoming : Incoming} {l : ServerLog} {e : ServerEvent}
    (hj : Justified P incoming.request l e.op)
    (hup : Upheld (machine P) World.Le (Unverified u) (Avoids P u) 0 incoming l e.pre)
    (h : Unverified u e.pre) (havoid : Avoids P u incoming l e)
    (hans : (machine P).Answers e.op e.pre e.ans e.post) : Unverified u e.post := by
  obtain ⟨n, pre, s, ans, post⟩ := e
  have hle : pre.Le post := (le_stable P).answers hans
  by_cases hno : VerifiedOnce u pre
  · exact .inl (hno.mono hle)
  have hdormant : Dormant u pre := h.resolve_left hno
  rcases hans with ⟨r, hexec⟩ | ⟨-, hpost⟩
  swap
  · exact hpost ▸ h
  refine .inr ⟨fun b hb hid => ?_, fun b hb => ?_, fun b hb => ?_, fun b hb => ?_⟩
  · rcases (Stmt.exec_users hexec).mem_cases hb with ⟨a, ha, rfl | ⟨stmt, rfl, htarget, rfl⟩⟩ |
      ⟨_, _, _, _, _, rfl, _⟩
    · exact hdormant.users _ ha hid
    · have haid : a.id = u := (stmt.change_le pre.now a).id.symm.trans hid
      have hstatus := hdormant.users a ha haid
      rw [haid] at htarget
      cases stmt with
      | markVerified id => exact absurd (Option.some.inj htarget) (not_verified hup hno hj rfl)
      | clearLockAndFailures id =>
          exact absurd (Option.some.inj htarget) (not_unlocked hup hno hj rfl)
      | setStatus id status =>
          rcases Stmt.exec_cases hexec with ⟨_, hpost⟩ | ⟨_, hok, _⟩
          · obtain rfl : post = pre := hpost
            exact hdormant.users _ hb hid
          · obtain rfl : id = u := Option.some.inj htarget
            rintro (rfl : status = .active)
            exact havoid.1 ⟨rfl, hok ▸ rfl⟩
      | lockUntil id t =>
          simp only [UserStmt.change]
          split_ifs
          · simp
          · exact hstatus
      | _ => exact hstatus
    · simp [UserStmt.newRow]
  · rcases (Stmt.exec_sessions hexec).mem_cases hb with ⟨a, ha, rfl | ⟨stmt, _, _, rfl⟩⟩ |
      ⟨data, rfl, rfl, _⟩
    · exact hdormant.sessions _ ha
    · exact (stmt.change_le pre.now a).userId ▸ hdormant.sessions a ha
    · exact new_session hup hno hj rfl
  · rcases (Stmt.exec_refreshTokens hexec).mem_cases hb with
      ⟨a, ha, rfl | ⟨stmt, _, hwhere, rfl⟩⟩ | ⟨data, rfl, rfl, _⟩
    · exact hdormant.refreshTokens _ ha
    · exact (RefreshStmt.change_le hwhere).userId ▸ hdormant.refreshTokens a ha
    · exact new_refreshToken hup hno hj rfl
  · rcases (Stmt.exec_codes hexec).mem_cases hb with ⟨a, ha, rfl | ⟨id, _, hfresh, rfl⟩⟩ |
      ⟨hash, data, client, rfl, _, rfl, _⟩
    · exact hdormant.codes _ ha
    · exact hdormant.codes a ha
    · exact new_code hup hno hj rfl

/-! ### The run -/

/-- A user with no row at all is dormant. -/
theorem dormant_initial {w₀ : World} (h₀ : w₀.Initial) (hself : ∀ r ∈ w₀.users, r.id ≠ u) :
    Dormant u w₀ where
  users r hr hid := absurd hid (hself r hr)
  sessions := by simp [h₀.sessions]
  refreshTokens := by simp [h₀.refreshTokens]
  codes := by simp [h₀.codes]

/-- **An unverified user receives nothing.**  In every run in which no login gets
past a row of the user that says `locked` and whose `locked_until` is NULL or not
later than the clock, a user who has registered, whose verification tokens have not
been consumed and whom no administrator has activated is not active, has no refresh
token, and receives no tokens. -/
theorem unverified_user_receives_nothing {w₀ : World} (h₀ : w₀.Initial)
    (hself : ∀ r ∈ w₀.users, r.id ≠ u) {c : ServerConfig}
    (hrun : (machine P).Run (Config.initial w₀) c)
    (hnever : ∀ v ∈ c.world.emailVerifications, v.userId = u → v.consumedAt = none)
    (havoid : ∀ req l e, c.Executed 0 req l e → ¬Activates u e ∧ ¬PassesLocked P u req l e) :
    (∀ r ∈ c.world.users, r.id = u → r.status ≠ .active) ∧
      (∀ r ∈ c.world.refreshTokens, r.userId ≠ u) ∧
      ∀ (i : ℕ) call, c.calls[i]? = some call → ¬ReceivesTokens u call := by
  have hno : ¬VerifiedOnce u c.world := by
    rintro ⟨v, hv, hu, hc⟩
    rw [hnever v hv hu] at hc
    cases hc
  have hinv : Unverified u c.world :=
    (hrun.assertion (J := Unverified u) (le_stable P) (.initial w₀)
      (.inr (dormant_initial h₀ hself)) havoid (fun _ _ _ hw h => h.env hw)
      fun incoming l e hreach hup hJ hG hans =>
        unverified_step (handler_justified incoming _ _ hreach) hup hJ hG hans).1
  have hdormant : Dormant u c.world := hinv.resolve_left hno
  refine ⟨hdormant.users, hdormant.refreshTokens, fun i call hi hreceives => ?_⟩
  -- whoever receives tokens of the user would have left a row of the user
  have hreach : (machine P).Reachable World.Initial c := ⟨w₀, h₀, hrun⟩
  obtain ⟨row, hrow, huser⟩ := hreceives.row hreach hi
  exact hdormant.refreshTokens row hrow huser

/-- A registration. -/
def registerMoves : List (Move World Incoming Env) :=
  [.accept fun _ => ⟨.register ⟨"un@x.io", "Correct horse 1", none, none⟩, {}⟩, .steps 0 40]

/-- The registration and a login with the right password, which is refused. -/
theorem unverified_user_receives_nothing_after_login :
    ∃ c : ServerConfig, c.calls.length = 2 ∧ (∃ r ∈ c.world.users, r.id = sampleUuid 3) ∧
      (∀ r ∈ c.world.users, r.id = sampleUuid 3 → r.status ≠ .active) ∧
      ∀ (i : ℕ) call, c.calls[i]? = some call → ¬ReceivesTokens (sampleUuid 3) call := by
  have hplay : (sampleRun (registerMoves ++
      [.accept fun _ => ⟨.login "un@x.io" "Correct horse 1", {}⟩, .steps 1 40])).any (fun c =>
      decide (c.calls.length = 2) && decide (∃ r ∈ c.world.users, r.id = sampleUuid 3) &&
        decide (∀ v ∈ c.world.emailVerifications, v.userId = sampleUuid 3 → v.consumedAt = none) &&
        decide (∀ call ∈ c.calls, ∀ e ∈ call.log,
          e.op ≠ .users (.setStatus (sampleUuid 3) .active) ∧
            ∀ r ∈ e.pre.users, r.status ≠ .locked)) = true := by
    decide +kernel
  obtain ⟨c, hc, hall⟩ := (Option.any_eq_true _ _).1 hplay
  simp only [Bool.and_eq_true, decide_eq_true_eq] at hall
  obtain ⟨⟨⟨hlen, hrow⟩, hnever⟩, hevents⟩ := hall
  have hreach := sampleRun_reachable hc
  have hself : ∀ r ∈ World.sample.users, r.id ≠ sampleUuid 3 := by decide
  have havoid : ∀ req l e, c.Executed 0 req l e →
      ¬Activates (sampleUuid 3) e ∧ ¬PassesLocked .sample (sampleUuid 3) req l e := by
    intro req l e he
    obtain ⟨call, hcall, hmem⟩ := he.mem
    refine ⟨fun h => (hevents call hcall e hmem).1 h.1, ?_⟩
    rintro ⟨_, email, password, row, _, hsaw, _, hlocked, _⟩
    obtain ⟨i, call', hi, _, hl, _⟩ := he
    obtain ⟨n, pre, post, hmem', hans⟩ :=
      answered hreach.valid hi (hsaw.mono ((List.suffix_cons e l).trans hl))
    have hread := lookup_mem (Stmt.findByEmail_answer hans).symm
    exact (hevents call' (List.mem_of_getElem? hi) _ hmem').2 row hread hlocked
  have h := unverified_user_receives_nothing World.initial_sample hself (run_of_play hc) hnever
    havoid
  exact ⟨c, hlen, hrow, h.1, h.2.2⟩

/-- Five wrong passwords, the end of the lock, and the right password. -/
def lockMoves : List (Move World Incoming Env) :=
  registerMoves ++ ([1, 2, 3, 4, 5].flatMap fun i =>
      [.accept fun _ => ⟨.login "un@x.io" "no", {}⟩, .steps i 40]) ++
    [.env (.tick 900001), .accept fun _ => ⟨.login "un@x.io" "Correct horse 1", {}⟩, .steps 6 60]

/-- The user has been activated without a verification and without an administrator, and
the call has received tokens. -/
def activatesAt (i : ℕ) (c : ServerConfig) : Bool :=
  decide (∀ v ∈ c.world.emailVerifications, v.userId = sampleUuid 3 → v.consumedAt = none) &&
    decide (∀ call ∈ c.calls, ∀ e ∈ call.log,
      e.op ≠ .users (.setStatus (sampleUuid 3) .active)) &&
    decide (∃ r ∈ c.world.users, r.id = sampleUuid 3 ∧ r.status = .active) &&
    (c.calls[i]?).any fun call => decide (ReceivesTokens (sampleUuid 3) call)

theorem activatesAt_eq {i : ℕ} {c : ServerConfig} (h : activatesAt i c = true) :
    (∀ v ∈ c.world.emailVerifications, v.userId = sampleUuid 3 → v.consumedAt = none) ∧
      (∀ req l e, c.Executed 0 req l e → ¬Activates (sampleUuid 3) e) ∧
      (∃ r ∈ c.world.users, r.id = sampleUuid 3 ∧ r.status = .active) ∧
      ∃ call, c.calls[i]? = some call ∧ ReceivesTokens (sampleUuid 3) call := by
  simp only [activatesAt, Bool.and_eq_true, decide_eq_true_eq, Option.any_eq_true] at h
  obtain ⟨⟨⟨hnever, hevents⟩, hactive⟩, call, hi, hreceives⟩ := h
  refine ⟨hnever, fun req l e he hset => ?_, hactive, call, hi, hreceives⟩
  obtain ⟨call, hcall, hmem⟩ := he.mem
  exact hevents call hcall e hmem hset.1

/-- **A lock that has run out verifies a user.**  After five wrong passwords and
fifteen minutes the right one makes the registered user `active` and is answered
with tokens. -/
theorem expired_lock_activates_unverified :
    ∃ c : ServerConfig, sampleRun lockMoves = some c ∧
      (∀ r ∈ World.sample.users, r.id ≠ sampleUuid 3) ∧
      (∀ v ∈ c.world.emailVerifications, v.userId = sampleUuid 3 → v.consumedAt = none) ∧
      (∀ req l e, c.Executed 0 req l e → ¬Activates (sampleUuid 3) e) ∧
      (∃ r ∈ c.world.users, r.id = sampleUuid 3 ∧ r.status = .active) ∧
      ∃ call, c.calls[6]? = some call ∧ ReceivesTokens (sampleUuid 3) call := by
  have hplay : (sampleRun lockMoves).any (activatesAt 6) = true := by
    decide +kernel
  obtain ⟨c, hc, hall⟩ := (Option.any_eq_true _ _).1 hplay
  exact ⟨c, hc, by decide, activatesAt_eq hall⟩

/-- Five wrong passwords, a password reset, and the new password. -/
def clearMoves : List (Move World Incoming Env) :=
  registerMoves ++ ([1, 2, 3, 4, 5].flatMap fun i =>
      [.accept fun _ => ⟨.login "un@x.io" "no", {}⟩, .steps i 40]) ++
    [.accept fun _ => ⟨.forgotPassword "un@x.io", {}⟩, .steps 6 40,
      .accept fun w => ⟨.resetPassword (lastToken w) "A long and new one 2", {}⟩, .steps 7 40,
      .accept fun _ => ⟨.login "un@x.io" "A long and new one 2", {}⟩, .steps 8 60]

/-- **A lock that was cleared verifies a user.**  A password reset sets `locked_until` to
NULL and leaves `locked`, so that no time has to pass. -/
theorem cleared_lock_activates_unverified :
    ∃ c : ServerConfig, sampleRun clearMoves = some c ∧ c.world.now = World.sample.now ∧
      (∀ r ∈ World.sample.users, r.id ≠ sampleUuid 3) ∧
      (∀ v ∈ c.world.emailVerifications, v.userId = sampleUuid 3 → v.consumedAt = none) ∧
      (∀ req l e, c.Executed 0 req l e → ¬Activates (sampleUuid 3) e) ∧
      (∃ r ∈ c.world.users, r.id = sampleUuid 3 ∧ r.status = .active) ∧
      ∃ call, c.calls[8]? = some call ∧ ReceivesTokens (sampleUuid 3) call := by
  have hplay : (sampleRun clearMoves).any (fun c =>
      decide (c.world.now = World.sample.now) && activatesAt 8 c) = true := by
    decide +kernel
  obtain ⟨c, hc, hall⟩ := (Option.any_eq_true _ _).1 hplay
  obtain ⟨hnow, hall⟩ := Bool.and_eq_true_iff.1 hall
  exact ⟨c, hc, of_decide_eq_true hnow, by decide, activatesAt_eq hall⟩

end IdentityPlatform
