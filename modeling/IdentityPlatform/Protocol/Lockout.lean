/-
# The lockout

A wrong password is counted in the table, but whether it is one too many is decided with
the count the login has read before.  When the count that reaches the limit is made by a
login that has read an older one, nobody locks the account.
-/

import IdentityPlatform.Interleaving.FollowUp
import IdentityPlatform.Protocol.DisabledAccounts

namespace IdentityPlatform

open Interleaving Program Relational Machine AuthServer

variable {P : Platform} {c : ServerConfig} {i : ℕ} {call : ServerCall} {e : ServerEvent}
  {id : String} {a : UserRow} {request : Request} {ctx : RequestContext} {l₀ l l' : ServerLog}

/-- The account has had too many failed logins, and no lock. -/
def UserRow.OverLimit (P : Platform) (a : UserRow) : Prop :=
  P.config.maxFailedLogins ≤ a.failedLoginCount ∧ a.lockedUntil = none

instance : Decidable (a.OverLimit P) := instDecidableAnd

/-- Some account is over the limit. -/
def World.OverLimit (P : Platform) (id : String) (w : World) : Prop :=
  ∃ a ∈ w.users, a.id = id ∧ a.OverLimit P

/-- The event counts a failed login of the account. -/
inductive Counts (id : String) : ServerEvent → Prop
  | counted {n pre post} : Counts id ⟨n, pre, .users (.recordFailedLogin id), .ok (), post⟩

/-- The event counts the failed login that reaches the limit. -/
def Exhausts (P : Platform) (id : String) (e : ServerEvent) : Prop :=
  Counts id e ∧ ∃ a ∈ e.pre.users, a.id = id ∧ a.lockedUntil = none ∧
    a.failedLoginCount + 1 = P.config.maxFailedLogins

/-- The lock after the log `l₀` has been cut off by a failure. -/
def CutOff (id : String) (l₀ l : ServerLog) : Prop :=
  ∃ err, Log.SawSince l₀ l (.runtime .dateNow) (.error err) ∨
    ∃ until_, Log.SawSince l₀ l (.users (.lockUntil id until_)) (.error err)

/-- The account has been locked after the log `l₀`. -/
def Locked (id : String) (l₀ l : ServerLog) : Prop :=
  ∃ until_, Log.SawSince l₀ l (.users (.lockUntil id until_)) (.ok ())

/-- **The lockout works**: the failed login that reaches the limit is counted by a call
that has read the count before it, and the call is not cut off. -/
def LocksInTime (P : Platform) (c : ServerConfig) : Prop :=
  ∀ (i : ℕ) call, c.calls[i]? = some call → ∀ e l id, e :: l <:+ call.log → Exhausts P id e →
    (∀ email row, Log.Saw l (.users (.findByEmail email)) (.ok (some row)) → row.id = id →
      P.config.maxFailedLogins ≤ row.failedLoginCount + 1) ∧ ¬CutOff id (e :: l) call.log

/-! ### What a login does about a failure it has counted -/

/-- After a failed login has been counted: the call has read the account before, and if
that was one too many, it has locked it since or has been cut off. -/
def FollowedUp (P : Platform) (e : ServerEvent) (l l' : ServerLog) : Prop :=
  ∀ id, Counts id e → ∃ email row, l.Saw (.users (.findByEmail email)) (.ok (some row)) ∧
    row.id = id ∧ (P.config.maxFailedLogins ≤ row.failedLoginCount + 1 →
      CutOff id (e :: l) l' ∨ Locked id (e :: l) l')

theorem CutOff.mono (h : CutOff id l₀ l) (hl : l <:+ l') : CutOff id l₀ l' := by
  obtain ⟨err, hclock | ⟨until_, hlock⟩⟩ := h
  · exact ⟨err, .inl (hclock.mono (List.suffix_refl _) hl)⟩
  · exact ⟨err, .inr ⟨until_, hlock.mono (List.suffix_refl _) hl⟩⟩

theorem Locked.mono (h : Locked id l₀ l) (hl : l <:+ l') : Locked id l₀ l' := by
  obtain ⟨until_, hlock⟩ := h
  exact ⟨until_, hlock.mono (List.suffix_refl _) hl⟩

theorem FollowedUp.mono (h : FollowedUp P e l₀ l) (hl : l <:+ l') : FollowedUp P e l₀ l' := by
  intro id hid
  obtain ⟨email, row, hread, hrow, hfollow⟩ := h id hid
  exact ⟨email, row, hread, hrow, fun hmax => (hfollow hmax).imp (·.mono hl) (·.mono hl)⟩

/-- The statement counts no failed login. -/
def Stmt.CountsNone (_ : ServerLog) (s : Stmt) : Prop := ∀ id, s ≠ .users (.recordFailedLogin id)

theorem countsNone_of_plain {α : Type} {p : Prog α} (h : Respects Stmt.Plain l₀ p) :
    Respects Stmt.CountsNone l₀ p :=
  h.mono fun l s _ hs id heq => by
    subst heq
    exact hs

theorem settles_of_countsNone {α : Type} {p : Prog α} (h : Respects Stmt.CountsNone l₀ p) :
    Settles (FollowedUp P) l₀ p :=
  h.settles fun e _ _ hnone id hid => by
    cases hid
    exact absurd rfl (hnone id)

theorem settles_of_plain {α : Type} {p : Prog α} (h : Respects Stmt.Plain l₀ p) :
    Settles (FollowedUp P) l₀ p :=
  settles_of_countsNone (countsNone_of_plain h)

/-- The lock of an account is executed, or it is cut off. -/
theorem lock_returns {ms : ℕ} {event : AuditEvent} {r : Except Err Unit}
    (h : (do
      let now ← query (.runtime .dateNow)
      UserRepository.lockUntil id (now + ms)
      AuditLogService.record event : Prog Unit).Returns l₀ l r) :
    CutOff id l₀ l ∨ Locked id l₀ l := by
  rcases returns_bind.1 h with ⟨l₁, now, h₁, h⟩ | ⟨err, h₁, _⟩
  · rcases returns_bind.1 h with ⟨l₂, _, h₂, h⟩ | ⟨err, h₂, _⟩
    · exact .inr ⟨_, l₁, h₁.suffix, h₂.step.mono h.suffix⟩
    · exact .inl ⟨err, .inr ⟨_, l₁, h₁.suffix, h₂.step⟩⟩
  · exact .inl ⟨err, .inl ⟨l₀, List.suffix_refl _, h₁.step⟩⟩

/-- A counted failure is followed by the lock if it is one too many. -/
theorem rejectPassword_settles {row : UserRow} {email : String}
    (hread : l₀.Saw (.users (.findByEmail email)) (.ok (some row))) :
    Settles (FollowedUp P) l₀ (AuthService.rejectPassword P row ctx) := by
  refine .perform_bind (fun n pre err post id hid => by cases hid) ?_ fun l₁ _ _ => ?_
  · intro n pre _ post l r h id hid
    cases hid
    refine ⟨email, row, hread, rfl, fun hmax => ?_⟩
    rcases returns_bind.1 h with ⟨l₂, _, h₂, h⟩ | ⟨err, h₂, _⟩
    · rw [onlyIf, if_pos hmax] at h₂
      exact (lock_returns h₂).imp (·.mono h.suffix) (·.mono h.suffix)
    · rw [onlyIf, if_pos hmax] at h₂
      exact lock_returns h₂
  · refine settles_of_countsNone (.bind (respects_onlyIf.2 fun _ => ?_) fun l₂ _ _ =>
      countsNone_of_plain (by simp))
    refine .bind (by simp [Stmt.CountsNone]) fun l₃ now _ => ?_
    exact .bind (by simp [UserRepository.lockUntil, Stmt.CountsNone]) fun l₄ _ _ =>
      countsNone_of_plain (by simp)

/-- The session and the tokens of a login count no failure. -/
theorem issueSessionTokens_countsNone {userId : String} {amr : List String} :
    Respects Stmt.CountsNone l₀ (AuthService.issueSessionTokens P userId ctx amr) := by
  refine .bind (by simp [AuthService.createLoginSession, SessionRepository.create, Stmt.CountsNone])
    fun l₁ session _ => ?_
  simp [AuthService.issueSessionTokensForSession, UserRepository.findById, UserRepository.rolesOf,
    UserRepository.permissionsOf, UserRepository.setLastLogin, UserRepository.clearLockAndFailures,
    JwtService.signAccessToken, RefreshTokenService.issue, Stmt.CountsNone, countsNone_of_plain]

theorem login_settles {email password : String} :
    Settles (FollowedUp P) l₀ (AuthService.login P email password ctx) := by
  refine .bind FollowedUp.mono ?_ fun l₁ user _ => settles_of_countsNone ?_
  · refine .bind FollowedUp.mono
      (settles_of_plain (by simp [UserRepository.findByEmail, Stmt.Plain])) fun l₁ found h₁ => ?_
    refine .bind FollowedUp.mono (settles_of_plain (by simp [AuthService.rejectUnknown]))
      fun l₂ user h₂ => ?_
    obtain ⟨rfl, rfl⟩ : found = some user ∧ l₂ = l₁ := by
      rcases returns_orDo_ok.1 h₂ with hf | ⟨_, hf⟩
      · exact hf
      · exact (AuthService.rejectUnknown_fails hf).elim
    refine .bind FollowedUp.mono (settles_of_plain (by simp [Stmt.Plain])) fun l₃ now h₃ => ?_
    refine .bind FollowedUp.mono (settles_of_plain (by simp)) fun l₄ _ h₄ => ?_
    refine .bind FollowedUp.mono (settles_of_plain (by simp)) fun l₅ _ h₅ => ?_
    refine .bind FollowedUp.mono ?_ fun l₆ _ _ => settles_of_plain (by simp)
    have hread := h₁.saw.mono (h₃.suffix.trans (h₄.suffix.trans h₅.suffix))
    unfold onlyIf
    split_ifs
    · exact rejectPassword_settles hread
    · exact settles_of_plain (by simp)
  · refine .bind (countsNone_of_plain (by simp)) fun l₂ action _ => ?_
    refine .bind (by simp [MfaService.hasActiveMethod, Stmt.CountsNone]) fun l₃ hasMfa _ => ?_
    refine respects_ite.2 ⟨fun _ => ?_, fun _ => .bind issueSessionTokens_countsNone (by simp)⟩
    simp [AuthService.createLoginSession, SessionRepository.create, MfaService.createLoginChallenge,
      Stmt.CountsNone]

/-! ### Accounts over the limit -/

/-- Only a failed login takes an account over the limit. -/
theorem UserStmt.change_overLimit {u : UserStmt} {now : ℕ} (hmax : 0 < P.config.maxFailedLogins)
    (ha : ¬a.OverLimit P) (hb : (u.change now a).OverLimit P) :
    (∃ id, u = .recordFailedLogin id) ∧ a.lockedUntil = none ∧
      a.failedLoginCount + 1 = P.config.maxFailedLogins := by
  cases u with
  | recordFailedLogin id =>
      obtain ⟨hcount, hlock⟩ := hb
      refine ⟨⟨id, rfl⟩, hlock, ?_⟩
      have hbelow : ¬P.config.maxFailedLogins ≤ a.failedLoginCount := fun h => ha ⟨h, hlock⟩
      simp only [UserStmt.change] at hcount
      omega
  | lockUntil id until_ =>
      simp only [UserStmt.change] at hb
      split_ifs at hb with h
      · exact absurd hb.2 (by simp)
      · exact absurd hb ha
  | markVerified id =>
      simp only [UserStmt.change] at hb
      split_ifs at hb
      · exact absurd hb ha
      · exact absurd hb ha
  | clearLockAndFailures | updatePasswordHash => exact absurd hb.1 (Nat.not_le.2 hmax)
  | _ => exact absurd hb ha

/-- **How an account gets over the limit.** -/
theorem overLimit_cases (hreach : (machine P).Reachable World.Initial c)
    (hmax : 0 < P.config.maxFailedLogins) (hi : c.calls[i]? = some call) (he : e ∈ call.log)
    (hpre : ¬e.pre.OverLimit P id) (hpost : e.post.OverLimit P id) : Exhausts P id e := by
  obtain ⟨b, hb, rfl, hover⟩ := hpost
  rcases event_user_cases hreach.valid hi he hb with
    ⟨a, ha, hid, hmoves⟩ | ⟨_, _, _, _, _, _, _, rfl⟩
  · have hnot : ¬a.OverLimit P := fun h => hpre ⟨a, ha, hid.symm, h⟩
    rcases hmoves with rfl | ⟨n, pre, u, v, post, rfl, htarget, rfl⟩
    · exact absurd hover hnot
    · obtain ⟨⟨id, rfl⟩, hlock, hcount⟩ := UserStmt.change_overLimit hmax hnot hover
      obtain rfl := Option.some.inj htarget
      exact ⟨hid ▸ .counted, a, ha, hid.symm, hlock, hcount⟩
  · exact absurd hover.1 (Nat.not_le.2 hmax)

/-- An account that has just been locked has a lock. -/
theorem not_overLimit_of_locked {n until_ : ℕ} {pre post : World}
    (hreach : (machine P).Reachable World.Initial c) (hmax : 0 < P.config.maxFailedLogins)
    (hi : c.calls[i]? = some call)
    (he : (⟨n, pre, .users (.lockUntil id until_), .ok (), post⟩ : ServerEvent) ∈ call.log) :
    ¬post.OverLimit P id := by
  rintro ⟨b, hb, hbid, hcount, hnone⟩
  rcases event_user_cases hreach.valid hi he hb with ⟨a, ha, hid, _⟩ | ⟨_, _, _, _, _, _, _, rfl⟩
  · have hsound := (reachable_sound hreach).2 i call hi _ he
    have hpost := Stmt.updateUser_answer (executed hreach.valid hi he) ha
      (congrArg some (hbid.symm.trans hid))
    obtain rfl := eq_of_key hsound.2.users.nodup hb hpost
      (hid.trans (UserStmt.change_le _ _ a).id.symm)
    simp only [UserStmt.change] at hnone
    split_ifs at hnone with hlock
    exact hlock (by simp [hnone])
  · exact absurd hcount (Nat.not_le.2 hmax)

/-- The log of a login that has returned settles what it has counted. -/
theorem returned_followedUp (hreach : (machine P).Reachable World.Initial c)
    (hi : c.calls[i]? = some call) (hdone : call.result.isSome) (hl : e :: l <:+ call.log) :
    FollowedUp P e l call.log := by
  intro id hid
  obtain ⟨r, hr⟩ := Option.isSome_iff_exists.1 hdone
  have hreturns := hreach.valid.returned hi hr
  obtain ⟨l', hl', hjust⟩ := justified_event hreach.valid hi (hl.subset (List.mem_cons_self ..))
  have hlogin : ∃ email password, call.req.request = .login email password := by
    cases hid
    obtain ⟨row, hfailed, _⟩ := hjust
    obtain ⟨email, password, hrequest, _⟩ := hfailed.login
    exact ⟨email, password, hrequest⟩
  obtain ⟨email, password, hrequest⟩ := hlogin
  have hsettles : Settles (FollowedUp P) [] ((machine P).handler call.req) := by
    change Settles _ _ (AuthServer.handler P call.req)
    unfold AuthServer.handler
    rw [hrequest]
    exact .bind FollowedUp.mono login_settles fun l _ _ => settles_of_plain (by simp)
  exact hsettles.settled hreturns hl id hid

/-- **No account over the limit.**  If each failed login that reaches the limit is counted
by a call that has read the count before it, and that is not cut off before the lock, then
whenever no call is in progress every account with too many failed logins has a lock. -/
theorem over_limit_locked {w : World} (hw : w.Initial) (hmax : 0 < P.config.maxFailedLogins)
    (h₀ : ∀ a ∈ w.users, ¬a.OverLimit P) (hrun : (machine P).Run (Config.initial w) c)
    (hlocks : LocksInTime P c)
    (hdone : ∀ (i : ℕ) call, c.calls[i]? = some call → call.result.isSome) :
    ∀ a ∈ c.world.users, ¬a.OverLimit P := by
  intro a ha hover
  have hreach : (machine P).Reachable World.Initial c := ⟨w, hw, hrun⟩
  obtain ⟨i, call, e, hi, he, hpre, hpost, hlast⟩ := hrun.introduced_last
    (H := World.OverLimit P a.id) (.initial w) (fun ⟨b, hb, _, h⟩ => h₀ b hb h)
    ⟨a, ha, rfl, hover⟩ fun e w w' hw h => by rwa [World.OverLimit, (Env.apply_rows hw).1] at h
  have hexhausts := overLimit_cases hreach hmax hi he hpre hpost
  obtain ⟨l, hl, _⟩ := justified_event hreach.valid hi he
  obtain ⟨hcurrent, huncut⟩ := hlocks i call hi e l a.id hl hexhausts
  obtain ⟨email, row, hread, hid, hfollow⟩ :=
    returned_followedUp hreach hi (hdone i call hi) hl a.id hexhausts.1
  -- the lock that follows takes the account out again, and nothing has put it back
  obtain ⟨until_, l', hl', n, pre, post, hlock⟩ :=
    (hfollow (hcurrent email row hread hid)).resolve_left huncut
  have hlater : e.seq < n := hreach.valid.earlier hi hlock (hl'.subset (List.mem_cons_self ..))
  have hmem := hlock.subset (List.mem_cons_self ..)
  exact not_overLimit_of_locked hreach hmax hi hmem (hlast i call hi _ hmem hlater)

/-- The failed login that reaches the limit is counted. -/
def exhausting (maxFailedLogins : ℕ) : ServerEvent → Bool
  | ⟨_, pre, .users (.recordFailedLogin id), .ok (), _⟩ =>
      pre.users.any fun a => a.id = id && a.failedLoginCount + 1 = maxFailedLogins
  | _ => false

/-- The count of failed logins that a login reads. -/
def countRead : ServerEvent → Option ℕ
  | ⟨_, _, .users (.findByEmail _), .ok (some row), _⟩ => some row.failedLoginCount
  | _ => none

theorem locksInTime_of_logs (hok : ∀ call ∈ c.calls, ∀ e ∈ call.log, e.ans.isOk = true)
    (hread : ∀ call ∈ c.calls, ∀ l ∈ call.log.tails,
      l.head?.any (exhausting P.config.maxFailedLogins) = true → ∀ e ∈ l, ∀ count,
        countRead e = some count → P.config.maxFailedLogins ≤ count + 1) : LocksInTime P c := by
  intro i call hi e l id hl hexhausts
  have hcall := List.mem_of_getElem? hi
  constructor
  · rintro email row ⟨n, pre, post, hmem⟩ _
    refine hread call hcall (e :: l) ((List.mem_tails ..).2 hl) ?_ _
      (List.mem_cons_of_mem _ hmem) _ rfl
    obtain ⟨⟨⟩, a, ha, rfl, _, hcount⟩ := hexhausts
    exact List.any_eq_true.2 ⟨a, ha, by simp [hcount]⟩
  · rintro ⟨err, h | ⟨until_, h⟩⟩
    · obtain ⟨n, pre, post, hmem⟩ := h.saw
      cases hok call hcall _ hmem
    · obtain ⟨n, pre, post, hmem⟩ := h.saw
      cases hok call hcall _ hmem

/-- A fifth wrong password locks the account. -/
theorem over_limit_locked_of_fifth_failure :
    ∃ c : ServerConfig, sampleRun (wrongPasswordMoves ++ loginMoves 4 "al@x.io" "wrong") = some c ∧
      (∃ a ∈ c.world.users, a.failedLoginCount = 5) ∧
      ∀ a ∈ c.world.users, ¬a.OverLimit Platform.sample := by
  have hplay : (sampleRun (wrongPasswordMoves ++ loginMoves 4 "al@x.io" "wrong")).any (fun c =>
      decide ((∃ a ∈ c.world.users, a.failedLoginCount = 5) ∧
        (∀ call ∈ c.calls, ∀ e ∈ call.log, e.ans.isOk = true) ∧
        (∀ call ∈ c.calls, ∀ l ∈ call.log.tails, l.head?.any (exhausting 5) = true →
          ∀ e ∈ l, (countRead e).all (5 ≤ · + 1) = true) ∧
        ∀ call ∈ c.calls, call.result.isSome)) = true := by
    decide +kernel
  obtain ⟨c, hc, hall⟩ := (Option.any_eq_true _ _).1 hplay
  obtain ⟨hfive, hok, hread, hdone⟩ := of_decide_eq_true hall
  refine ⟨c, hc, hfive,
    over_limit_locked World.initial_sample (by decide) (by decide) (run_of_play hc)
    (locksInTime_of_logs hok fun call hcall l hl hhead e he count hcount => ?_)
    fun i call hi => hdone call (List.mem_of_getElem? hi)⟩
  have hall := hread call hcall l hl hhead e he
  rw [hcount] at hall
  exact of_decide_eq_true hall

/-- Two wrong passwords at once. -/
def twoFailuresMoves (i : ℕ) : List (Move World Incoming Env) :=
  [.accept fun _ => ⟨.login "al@x.io" "wrong", {}⟩, .accept fun _ => ⟨.login "al@x.io" "wrong", {}⟩,
    .steps i 2, .steps (i + 1) 2, .steps i 40, .steps (i + 1) 40]

/-- **Five failures and no lock.**  The last two logins have both read a count of
three. -/
theorem lockout_lost :
    ∃ c : ServerConfig, sampleRun ((List.range 3).flatMap (loginMoves · "al@x.io" "wrong") ++
        twoFailuresMoves 3) = some c ∧
      (∀ (i : ℕ) call, c.calls[i]? = some call → call.result.isSome) ∧
      ∃ a ∈ c.world.users, a.OverLimit Platform.sample := by
  have hplay : (sampleRun ((List.range 3).flatMap (loginMoves · "al@x.io" "wrong") ++
      twoFailuresMoves 3)).any (fun c => decide ((∀ call ∈ c.calls, call.result.isSome) ∧
        ∃ a ∈ c.world.users, a.OverLimit Platform.sample)) = true := by
    decide +kernel
  obtain ⟨c, hc, hall⟩ := (Option.any_eq_true _ _).1 hplay
  obtain ⟨hdone, hover⟩ := of_decide_eq_true hall
  exact ⟨c, hc, fun i call hi => hdone call (List.mem_of_getElem? hi), hover⟩

end IdentityPlatform
