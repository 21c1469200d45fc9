/-
# Disabled accounts

Five statements write the status of an account.  Verification and unlocking look at the
status in the statement itself, the administrator may set any; the lockout looks at the
lock alone.  A login that has read the account before it was disabled so turns
`disabled` into `locked`.
-/

import IdentityPlatform.Protocol.Invariants

namespace IdentityPlatform

open Interleaving Program Relational Machine AuthServer

variable {P : Platform} {c c₀ : ServerConfig} {i : ℕ} {call : ServerCall} {e : ServerEvent}
  {id : String} {a b : UserRow}

/-- What an event does to an account: nothing, or it is a successful `UPDATE` of it. -/
def UserMoves (e : ServerEvent) (a b : UserRow) : Prop :=
  b = a ∨ ∃ n pre u v post, e = ⟨n, pre, .users u, .ok v, post⟩ ∧ u.target = some a.id ∧
    b = u.change pre.now a

/-- An account after an event is one from before, or a new one. -/
theorem event_user_cases (hv : (machine P).Valid c) (hi : c.calls[i]? = some call)
    (he : e ∈ call.log) (hb : b ∈ e.post.users) :
    (∃ a ∈ e.pre.users, b.id = a.id ∧ UserMoves e a b) ∨
      (b.id ∉ e.pre.generated ∧ ∃ r now email hash first last,
        b = UserStmt.newRow r now email hash first last) := by
  have hanswers := hv.answers hi e he
  obtain ⟨n, pre, s, ans, post⟩ := e
  have hsame : post.users = pre.users → ∃ a ∈ pre.users, b.id = a.id ∧
      UserMoves ⟨n, pre, s, ans, post⟩ a b := fun h => ⟨b, h ▸ hb, rfl, .inl rfl⟩
  rcases hanswers with ⟨r, hexec⟩ | ⟨_, hpost⟩
  · cases ans with
    | error _ =>
        obtain ⟨⟨ledger, hfailed⟩, _⟩ := Stmt.exec_failed hexec
        exact .inl (hsame (by rw [show post = _ from hfailed]))
    | ok v =>
        rcases (Stmt.exec_users hexec).mem_cases hb with ⟨a, ha, rfl | ⟨u, rfl, htarget, rfl⟩⟩ |
          ⟨email, hash, first, last, _, rfl, htaken, _⟩
        · exact .inl ⟨b, ha, rfl, .inl rfl⟩
        · exact .inl ⟨a, ha, (u.change_le pre.now a).id,
            .inr ⟨n, pre, u, v, post, rfl, htarget, rfl⟩⟩
        · -- a new account has a new identifier
          exact .inr ⟨htaken.fresh, r, pre.now, email, hash, first, last, rfl⟩
  · exact .inl (hsame (by rw [show post = pre from hpost]))

theorem event_user (hreach : (machine P).Reachable World.Initial c)
    (hi : c.calls[i]? = some call) (he : e ∈ call.log) (ha : a ∈ e.pre.users)
    (hb : b ∈ e.post.users) (hid : b.id = a.id) : UserMoves e a b := by
  have hsound := ((reachable_sound hreach).2 i call hi e he).1
  rcases event_user_cases hreach.valid hi he hb with ⟨a', ha', hid', hmoves⟩ | ⟨hfresh, _⟩
  · rwa [eq_of_key hsound.users.nodup ha ha' (hid.symm.trans hid')]
  · exact absurd (hid ▸ hsound.users.ledger a ha) hfresh

/-- The account is disabled. -/
def World.Disabled (w : World) (id : String) : Prop :=
  ∃ a ∈ w.users, a.id = id ∧ a.status = .disabled

instance (w : World) (id : String) : Decidable (w.Disabled id) := List.decidableBEx ..

/-- The event takes the status of the account away from `disabled`. -/
def Reenables (id : String) (e : ServerEvent) : Prop := e.pre.Disabled id ∧ ¬e.post.Disabled id

instance : Decidable (Reenables id e) := instDecidableAnd

/-- The event is an administrator's change of the status of the account. -/
def SetByAdmin (call : ServerCall) (id : String) (e : ServerEvent) : Prop :=
  ∃ status l, e.op = .users (.setStatus id status) ∧ e :: l <:+ call.log ∧
    StatusReason call.req.request l id status

/-- The event is a lockout that finds the account disabled, and not locked for as long. -/
def locksDisabled : ServerEvent → Bool
  | ⟨_, pre, .users (.lockUntil id until_), .ok (), _⟩ =>
      pre.users.any fun a => decide (a.id = id ∧ a.status = .disabled ∧
        a.lockedUntil.all (· < until_) = true)
  | _ => false

/-- Only two statements take the status away from `disabled`. -/
theorem UserStmt.change_disabled {u : UserStmt} {now : ℕ} (ha : a.status = .disabled)
    (hb : (u.change now a).status ≠ .disabled) :
    (∃ id status, u = .setStatus id status) ∨
      ∃ id until_, u = .lockUntil id until_ ∧ a.lockedUntil.all (· < until_) = true := by
  cases u with
  | setStatus id status => exact .inl ⟨id, status, rfl⟩
  | lockUntil id until_ =>
      simp only [UserStmt.change] at hb
      split_ifs at hb with hlock
      · exact .inr ⟨id, until_, rfl, hlock⟩
      · exact absurd ha hb
  | markVerified | clearLockAndFailures => simp [UserStmt.change, ha] at hb
  | _ => exact absurd ha hb

/-- The lockout of an account finds it disabled. -/
def LocksOut (id : String) (e : ServerEvent) : Prop :=
  (∃ until_, e.op = .users (.lockUntil id until_)) ∧ locksDisabled e = true

/-- **How an account ceases to be disabled**: another status is set, or a lockout does it. -/
theorem reenabled_by (hreach : (machine P).Reachable World.Initial c)
    (hi : c.calls[i]? = some call) (he : e ∈ call.log) (h : Reenables id e) :
    (SetByAdmin call id e ∧ ∃ status, status ≠ .disabled ∧ e.op = .users (.setStatus id status)) ∨
      LocksOut id e := by
  obtain ⟨⟨a, ha, rfl, hdisabled⟩, hpost⟩ := h
  have hord := hreach.ordered (le_stable P)
  obtain ⟨b, hb, hle⟩ := (hord.answer hi e he).users a ha
  have hnot : b.status ≠ .disabled := fun hb' => hpost ⟨b, hb, hle.id, hb'⟩
  rcases event_user hreach hi he ha hb hle.id with rfl | ⟨n, pre, u, v, post, rfl, htarget, rfl⟩
  · exact absurd hdisabled hnot
  · rcases UserStmt.change_disabled hdisabled hnot with ⟨id, status, rfl⟩ | ⟨id, until_, rfl, hlock⟩
    · obtain rfl := Option.some.inj htarget
      obtain ⟨l, hl, hjust⟩ := justified_event hreach.valid hi he
      exact .inl ⟨⟨status, l, rfl, hl, hjust⟩, status, hnot, rfl⟩
    · obtain rfl := Option.some.inj htarget
      exact .inr ⟨⟨until_, rfl⟩, List.any_eq_true.2 ⟨a, ha, decide_eq_true ⟨rfl, hdisabled, hlock⟩⟩⟩

/-- A lockout that finds the account disabled takes that away. -/
theorem reenables_of_locksDisabled (hreach : (machine P).Reachable World.Initial c)
    (hi : c.calls[i]? = some call) (he : e ∈ call.log) (h : locksDisabled e = true) :
    ∃ id, Reenables id e ∧ ¬SetByAdmin call id e := by
  unfold locksDisabled at h
  split at h
  case h_2 => cases h
  rename_i n pre id until_ post
  obtain ⟨a, ha, hrow⟩ := List.any_eq_true.1 h
  obtain ⟨rfl, hdisabled, hlock⟩ := of_decide_eq_true hrow
  have hsound := (reachable_sound hreach).2 i call hi _ he
  refine ⟨a.id, ⟨⟨a, ha, rfl, hdisabled⟩, ?_⟩, ?_⟩
  · rintro ⟨b, hb, hid, hb'⟩
    have hpost := Stmt.updateUser_answer (executed hreach.valid hi he) ha rfl
    obtain rfl :=
      eq_of_key hsound.2.users.nodup hb hpost (hid.trans (UserStmt.change_le _ _ a).id.symm)
    simp [UserStmt.change, hlock] at hb'
  · rintro ⟨status, l, hop, _⟩
    cases hop

/-- **Disabled accounts stay disabled exactly if no lockout finds one.**  In a run, the
status of an account leaves `disabled` only through administrators if and only if no
lockout is executed on a disabled account that it locks for longer.  Then an account that
is disabled once and is not so later has been set by an administrator in between. -/
theorem disabled_left_by_admin_iff (hreach : (machine P).Reachable World.Initial c) :
    ((∀ (i : ℕ) call, c.calls[i]? = some call → ∀ e ∈ call.log, ∀ id, Reenables id e →
        SetByAdmin call id e) ↔
      ∀ (i : ℕ) call, c.calls[i]? = some call → ∀ e ∈ call.log, locksDisabled e = false) ∧
    ((∀ (i : ℕ) call, c.calls[i]? = some call → ∀ e ∈ call.log, locksDisabled e = false) →
      ∀ c₀ id, (machine P).Run c₀ c → c₀.world.Disabled id → ¬c.world.Disabled id →
        ∃ (i : ℕ) (call : ServerCall) (e : ServerEvent), c.calls[i]? = some call ∧ e ∈ call.log ∧
          c₀.seq ≤ e.seq ∧ SetByAdmin call id e) := by
  refine ⟨⟨fun hall i call hi e he => ?_, fun hno i call hi e he id h => ?_⟩, ?_⟩
  · refine Bool.eq_false_iff.2 fun hlocks => ?_
    obtain ⟨id, hreenables, hnot⟩ := reenables_of_locksDisabled hreach hi he hlocks
    exact hnot (hall i call hi e he id hreenables)
  · exact ((reenabled_by hreach hi he h).resolve_right
      (by simp [LocksOut, hno i call hi e he])).1
  · intro hno c₀ id hrun hbefore hafter
    obtain ⟨i, call, e, hi, he, hseq, hpre, hpost⟩ := hrun.introduced
      (H := fun w => ¬w.Disabled id) (not_not.2 hbefore) hafter
      fun e w w' hw h => by rwa [World.Disabled, (Env.apply_rows hw).1] at h
    exact ⟨i, call, e, hi, he, hseq, ((reenabled_by hreach hi he
      ⟨not_not.1 hpre, hpost⟩).resolve_right (by simp [LocksOut, hno i call hi e he])).1⟩

/-- The administrator disables or enables the first user, with the newest token. -/
def setStatusMoves (i : ℕ) (disabled : Bool) : List (Move World Incoming Env) :=
  [.accept fun w => ⟨.setUserStatus (lastBearer w) (sampleUuid 9001) disabled, {}⟩, .steps i 40]

/-- Four wrong passwords. -/
def wrongPasswordMoves : List (Move World Incoming Env) :=
  (List.range 4).flatMap fun i => loginMoves i "al@x.io" "wrong"

/-- A fifth wrong password; the account is disabled before the lockout. -/
def disabledMeanwhileMoves : List (Move World Incoming Env) :=
  wrongPasswordMoves ++ [.accept fun _ => ⟨.login "al@x.io" "wrong", {}⟩, .steps 4 4] ++
    loginMoves 5 "ro@x.io" "Ro 1" ++ setStatusMoves 6 true ++ [.steps 4 40]

theorem disabled_left_by_admin_iff_of_admin :
    ∃ (c : ServerConfig) (call : ServerCall) (e : ServerEvent),
      sampleRun (loginMoves 0 "ro@x.io" "Ro 1" ++ setStatusMoves 1 true ++ setStatusMoves 2 false) =
        some c ∧ c.calls[2]? = some call ∧ e ∈ call.log ∧ Reenables (sampleUuid 9001) e ∧
      SetByAdmin call (sampleUuid 9001) e := by
  have hplay : (sampleRun (loginMoves 0 "ro@x.io" "Ro 1" ++ setStatusMoves 1 true ++
      setStatusMoves 2 false)).any (fun c =>
        decide (∀ call ∈ c.calls, ∀ e ∈ call.log, locksDisabled e = false) &&
          (c.calls[2]?).any fun call => decide (∃ e ∈ call.log, Reenables (sampleUuid 9001) e)) =
      true := by
    decide +kernel
  obtain ⟨c, hc, hall⟩ := (Option.any_eq_true _ _).1 hplay
  obtain ⟨hno, hsome⟩ := Bool.and_eq_true_iff.1 hall
  obtain ⟨call, hi, hevent⟩ := (Option.any_eq_true _ _).1 hsome
  obtain ⟨e, he, hreenables⟩ := of_decide_eq_true hevent
  have hiff := (disabled_left_by_admin_iff (sampleRun_reachable hc)).1
  refine ⟨c, call, e, hc, hi, he, hreenables, hiff.2 (fun j call' hj e' he' => ?_) 2 call hi e he _
    hreenables⟩
  exact of_decide_eq_true hno call' (List.mem_of_getElem? hj) e' he'

/-- **A lockout re-enables.**  The account is disabled after its fifth wrong password and
before the lockout of that login, which sets it to `locked`. -/
theorem lockout_reenables :
    ∃ (c : ServerConfig) (call : ServerCall) (e : ServerEvent),
      sampleRun disabledMeanwhileMoves = some c ∧ c.calls[4]? = some call ∧
      call.req.request = .login "al@x.io" "wrong" ∧ e ∈ call.log ∧
      Reenables (sampleUuid 9001) e ∧ ¬SetByAdmin call (sampleUuid 9001) e ∧
      ∃ a ∈ c.world.users, a.id = sampleUuid 9001 ∧ a.status = .locked := by
  have hplay : (sampleRun disabledMeanwhileMoves).any (fun c => (c.calls[4]?).any fun call =>
      decide (call.req.request = .login "al@x.io" "wrong" ∧
        (∃ e ∈ call.log, Reenables (sampleUuid 9001) e) ∧
        ∃ a ∈ c.world.users, a.id = sampleUuid 9001 ∧ a.status = .locked)) = true := by
    decide +kernel
  obtain ⟨c, hc, hall⟩ := (Option.any_eq_true _ _).1 hplay
  obtain ⟨call, hi, hcall⟩ := (Option.any_eq_true _ _).1 hall
  obtain ⟨hrequest, ⟨e, he, hreenables⟩, hlocked⟩ := of_decide_eq_true hcall
  refine ⟨c, call, e, hc, hi, hrequest, he, hreenables, ?_, hlocked⟩
  rintro ⟨status, l, _, _, _, _, _, _, hadmin, _⟩
  rw [hrequest] at hadmin
  cases hadmin

end IdentityPlatform
