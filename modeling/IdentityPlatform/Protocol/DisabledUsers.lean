/-
# What a disabled user still receives

A login reads the status of the account.  The other ways to tokens start from something
that the user held when the account was disabled, a refresh token, a code, a challenge,
and none of them reads the account again.  Together with a lockout, which replaces the
status, these are all: `disabled_user_receives_nothing` holds in every run in which
nothing that the user held is used and no lockout finds the account disabled.
-/

import IdentityPlatform.Protocol.DisabledAccounts
import IdentityPlatform.Protocol.CodeReplay
import IdentityPlatform.Protocol.FamilyRevocation

namespace IdentityPlatform

open Interleaving Program Relational Machine AuthServer

variable {P : Platform} {c c₀ : ServerConfig} {i : ℕ} {call : ServerCall} {e : ServerEvent}
  {u : String}

/-- The account `u`, disabled in `c₀`, is given no other status by an administrator on the
way to `c`. -/
structure RemainsDisabled (P : Platform) (u : String) (c₀ c : ServerConfig) : Prop where
  reachable : (machine P).Reachable World.Initial c₀
  run : (machine P).Run c₀ c
  disabled : c₀.world.Disabled u
  notSet : ∀ (i : ℕ) call, c.calls[i]? = some call → ∀ e ∈ call.log, c₀.seq ≤ e.seq →
    ∀ status, e.op = .users (.setStatus u status) → status = .disabled

/-- The statement uses something that the user `u` holds: it rotates a refresh token that
can be exchanged, consumes a code that has not been, or completes a challenge on a session
that is active. -/
inductive UsesHeldBy (u : String) (request : Request) (e : ServerEvent) : Prop
  | refreshToken {row} (rotation : e.op = .refreshTokens (.rotate row.tokenHash))
      (stored : row ∈ e.pre.refreshTokens) (owner : row.userId = u)
      (exchangeable : row.Exchangeable e.pre)
  | code {row} (consumption : e.op = .codes (.consume row.id)) (stored : row ∈ e.pre.codes)
      (owner : row.userId = u) (unused : row.consumedAt = none)
  | challenge {bearer id code session}
      (request : request = .mfaVerify bearer (.challenge id code))
      (read : e.op = .sessions (.selectById session.id)) (stored : session ∈ e.pre.sessions)
      (owner : session.userId = u) (active : session.status = .active)

namespace RemainsDisabled

/-- **The account stays disabled**, unless a lockout finds it. -/
theorem stays (h : RemainsDisabled P u c₀ c)
    (hlock : ∀ (i : ℕ) call, c.calls[i]? = some call → ∀ e ∈ call.log, c₀.seq ≤ e.seq →
      ¬LocksOut u e)
    (hi : c.calls[i]? = some call) (he : e ∈ call.log) (hseq : c₀.seq ≤ e.seq) :
    e.pre.Disabled u := by
  have hreach := h.reachable.run h.run
  by_contra hnot
  obtain ⟨j, call', e', hj, he', hle, _, hpre, hpost⟩ := h.run.lost h.reachable.valid
    (K := fun w => w.Disabled u) h.disabled
    (fun e w w' hw hK => by rwa [World.Disabled, (Env.apply_rows hw).1]) hi he hseq hnot
  rcases reenabled_by hreach hj he' ⟨hpre, hpost⟩ with ⟨_, status, hne, hop⟩ | hlocks
  · exact hne (h.notSet j call' hj e' he' hle status hop)
  · exact hlock j call' hj e' he' hle hlocks

/-- **A later login is refused.** -/
theorem not_admitted (h : RemainsDisabled P u c₀ c)
    (hlock : ∀ (i : ℕ) call, c.calls[i]? = some call → ∀ e ∈ call.log, c₀.seq ≤ e.seq →
      ¬LocksOut u e)
    (hi : c.calls[i]? = some call) (hnew : c₀.calls.length ≤ i) {email password : String}
    {row : UserRow} (hgates : PassedGates P call.log email password row) : row.id ≠ u := by
  rintro rfl
  have hreach := h.reachable.run h.run
  obtain ⟨l', now, hstep, hsaw, _⟩ := hgates.clock
  obtain ⟨n, pre, post, hmem, hans⟩ := answered hreach.valid hi (hsaw.mono hstep.suffix)
  have hseq : c₀.seq ≤ n :=
    (h.run.startSeq_of_new hi hnew).trans (hreach.valid.start_lt hi _ hmem).le
  obtain ⟨a, ha, hid, hstatus⟩ := h.stays hlock hi hmem hseq
  have hrow := lookup_mem (Stmt.findByEmail_answer hans).symm
  have hsound := ((reachable_sound hreach).2 i call hi _ hmem).1
  obtain rfl := eq_of_key hsound.users.nodup ha hrow hid
  exact hgates.enabled hstatus

end RemainsDisabled

/-- A rotation that is followed by the read of an active session has found a token that
could be exchanged. -/
theorem uses_refreshToken (hreach : (machine P).Reachable World.Initial c)
    (hi : c.calls[i]? = some call) {hash : String} {l' : ServerLog} {row : RefreshTokenRow}
    {session : SessionRow} (hrotate : l'.Saw (.refreshTokens (.rotate hash)) (.ok (some row)))
    (hfound : Log.SawSince l' call.log (.sessions (.selectById row.sessionId)) (.ok (some session)))
    (hactive : session.status = .active) :
    ∃ e ∈ call.log, UsesHeldBy row.userId call.req.request e := by
  obtain ⟨e, he, hop, old, hold, rfl, hrow, hexchangeable⟩ :=
    rotated_exchangeable hreach hi hrotate hfound hactive
  exact ⟨e, he, .refreshToken hop hold hrow.symm hexchangeable⟩

/-- **Tokens come from a login or from something the user held.** -/
theorem ReceivesTokens.uses (h : ReceivesTokens u call)
    (hreach : (machine P).Reachable World.Initial c) (hi : c.calls[i]? = some call) :
    (∃ email password row, PassedGates P call.log email password row ∧ row.id = u) ∨
      ∃ e ∈ call.log, UsesHeldBy u call.req.request e := by
  have hv := hreach.valid
  obtain ⟨hclient, response, token, hresult, htoken, rfl⟩ := h
  have hgrant := granted (hv.returned hi hresult) htoken
  generalize hrequest : call.req.request = request at hgrant hclient
  revert htoken
  cases hgrant with
  | login grant =>
      rintro ⟨⟩
      obtain ⟨_, _, _, hsigned⟩ := grant.tokens.access
      exact .inl ⟨_, _, _, grant.gates, (hsigned.sub hv hi).symm⟩
  | challenge grant =>
      rintro ⟨⟩
      obtain ⟨_, _, _, hsigned⟩ := grant.tokens.access
      obtain ⟨id, hsaw⟩ := grant.found
      obtain ⟨n, pre, post, hmem, hans⟩ := answered hv hi hsaw
      have hlookup := (Stmt.selectById_answer hans).symm
      obtain rfl := lookup_key hlookup
      exact .inr ⟨_, hmem, .challenge rfl rfl (lookup_mem hlookup) (hsigned.sub hv hi).symm
        grant.active⟩
  | refresh grant =>
      rintro ⟨⟩
      obtain ⟨_, _, _, _, hsigned⟩ := grant.access
      obtain ⟨l', hrotate, hfound⟩ := grant.rotated
      rw [hsigned.sub hv hi, ← hrequest]
      exact .inr (uses_refreshToken hreach hi hrotate hfound grant.active)
  | code _ grant =>
      rintro ⟨⟩
      obtain ⟨_, _, _, hsigned⟩ := grant.tokens.access
      obtain ⟨id, hsaw⟩ := grant.consumed
      obtain ⟨n, pre, post, hmem, hans⟩ := answered hv hi hsaw
      obtain ⟨old, hold, rfl, hunused, rfl, _⟩ := Stmt.consume_answer hans
      exact .inr ⟨_, hmem, .code rfl hold (hsigned.sub hv hi).symm hunused⟩
  | oauthRefresh _ grant =>
      rintro ⟨⟩
      obtain ⟨_, _, _, _, _, hsigned⟩ := grant.access
      obtain ⟨_, _, l', hrotate, hfound⟩ := grant.rotated
      rw [hsigned.sub hv hi, ← hrequest]
      exact .inr (uses_refreshToken hreach hi hrotate hfound grant.active)
  | clientCredentials hform _ => simp [Request.isForClient, hform] at hclient

/-- **A disabled user receives nothing**, in any run in which no later call uses something
that the user held and no lockout finds the account disabled. -/
theorem disabled_user_receives_nothing (h : RemainsDisabled P u c₀ c)
    (hlock : ∀ (i : ℕ) call, c.calls[i]? = some call → ∀ e ∈ call.log, c₀.seq ≤ e.seq →
      ¬LocksOut u e)
    (huses : ∀ (i : ℕ) call, c.calls[i]? = some call → c₀.calls.length ≤ i → ∀ e ∈ call.log,
      ¬UsesHeldBy u call.req.request e) :
    ∀ (i : ℕ) call, c.calls[i]? = some call → c₀.calls.length ≤ i → ¬ReceivesTokens u call := by
  intro i call hi hnew hreceives
  rcases hreceives.uses (h.reachable.run h.run) hi with ⟨_, _, row, hgates, hrow⟩ | ⟨e, he, hheld⟩
  · exact h.not_admitted hlock hi hnew hgates hrow
  · exact huses i call hi hnew e he hheld

/-! ### Two runs -/

/-- The statement rotates a token, consumes a code or reads a session. -/
def Stmt.mayUseHeld : Stmt → Bool
  | .refreshTokens (.rotate _) | .codes (.consume _) | .sessions (.selectById _) => true
  | _ => false

theorem UsesHeldBy.mayUseHeld {request : Request} (h : UsesHeldBy u request e) :
    e.op.mayUseHeld = true := by
  cases h with
  | refreshToken hop => rw [hop, Stmt.mayUseHeld]
  | code hop => rw [hop, Stmt.mayUseHeld]
  | challenge _ hop => rw [hop, Stmt.mayUseHeld]

/-- `UPDATE users SET status` to anything but `disabled`. -/
def Stmt.enablesUser : Stmt → Bool
  | .users (.setStatus _ status) => status ≠ .disabled
  | _ => false

/-- A user and an administrator log in, and the administrator disables the user. -/
def disableUserMoves : List (Move World Incoming Env) :=
  loginMoves 0 "al@x.io" "Al 1" ++ loginMoves 1 "ro@x.io" "Ro 1" ++ setStatusMoves 2 true

theorem remainsDisabled_of_runs {ms : List (Move World Incoming Env)}
    (h₀ : sampleRun disableUserMoves = some c₀)
    (h : (machine .sample).play Stmt.sampleRandom ms c₀ = some c) (hdisabled : c₀.world.Disabled u)
    (hstays : ∀ call ∈ c.calls, ∀ e ∈ call.log, e.op.enablesUser = false) :
    RemainsDisabled .sample u c₀ c where
  reachable := sampleRun_reachable h₀
  run := run_of_play h
  disabled := hdisabled
  notSet i call hi e he _ status hop := by
    have hnot := hstays call (List.mem_of_getElem? hi) e he
    rw [hop, Stmt.enablesUser, decide_eq_false_iff_not, not_not] at hnot
    exact hnot

/-- A disabled user tries to log in. -/
theorem disabled_user_receives_nothing_of_login :
    ∃ (c₀ c : ServerConfig) (call : ServerCall), RemainsDisabled .sample (sampleUuid 9001) c₀ c ∧
      c.calls[3]? = some call ∧ call.req.request = .login "al@x.io" "Al 1" ∧
      ¬ReceivesTokens (sampleUuid 9001) call := by
  have hplay : (sampleRun disableUserMoves).any (fun c₀ =>
      decide (c₀.calls.length = 3 ∧ c₀.world.Disabled (sampleUuid 9001)) &&
      ((machine .sample).play Stmt.sampleRandom (loginMoves 3 "al@x.io" "Al 1") c₀).any fun c =>
        decide (c.calls.length = 4 ∧ (∀ call ∈ c.calls, ∀ e ∈ call.log,
          e.op.enablesUser = false ∧ locksDisabled e = false)) &&
        (c.calls[3]?).any fun call => decide (call.req.request = .login "al@x.io" "Al 1" ∧
          ∀ e ∈ call.log, e.op.mayUseHeld = false)) = true := by
    decide +kernel
  obtain ⟨c₀, h₀, hall⟩ := (Option.any_eq_true _ _).1 hplay
  simp only [Bool.and_eq_true, decide_eq_true_eq, Option.any_eq_true] at hall
  obtain ⟨⟨hlen₀, hdisabled⟩, c, hc, ⟨hlen, hstays⟩, call, hi, hrequest, hheld⟩ := hall
  have hremains := remainsDisabled_of_runs h₀ hc hdisabled fun call hmem e he =>
    (hstays call hmem e he).1
  refine ⟨c₀, c, call, hremains, hi, hrequest,
    disabled_user_receives_nothing hremains ?_ ?_ 3 call hi hlen₀.le⟩
  · intro j call' hj e he _ hlocks
    have hnone := (hstays call' (List.mem_of_getElem? hj) e he).2
    rw [hlocks.2] at hnone
    cases hnone
  · intro j call' hj hnew e he huses
    have hlast := (List.getElem?_eq_some_iff.1 hj).1
    obtain rfl : j = 3 := by omega
    obtain rfl : call = call' := Option.some.inj (hi.symm.trans hj)
    have hnone := hheld e he
    rw [huses.mayUseHeld] at hnone
    cases hnone

/-- **A disabled user is given new tokens.**  `/auth/refresh` does not read the account. -/
theorem disabled_user_refreshes :
    ∃ (c₀ c : ServerConfig) (call : ServerCall) (token : String),
      sampleRun disableUserMoves = some c₀ ∧ RemainsDisabled .sample (sampleUuid 9001) c₀ c ∧
      c₀.calls.length ≤ 3 ∧ c.calls[3]? = some call ∧ call.req.request = .refresh token ∧
      ReceivesTokens (sampleUuid 9001) call := by
  have hplay : (sampleRun disableUserMoves).any (fun c₀ =>
      decide (c₀.calls.length ≤ 3 ∧ c₀.world.Disabled (sampleUuid 9001)) &&
      ((machine .sample).play Stmt.sampleRandom
        [.accept fun w => ⟨.refresh (rotatedToken w), {}⟩, .steps 3 40] c₀).any fun c =>
        decide (∀ call ∈ c.calls, ∀ e ∈ call.log, e.op.enablesUser = false) &&
        (c.calls[3]?).any fun call => (refreshPresented? call).isSome &&
          decide (ReceivesTokens (sampleUuid 9001) call)) = true := by
    decide +kernel
  obtain ⟨c₀, h₀, hall⟩ := (Option.any_eq_true _ _).1 hplay
  simp only [Bool.and_eq_true, decide_eq_true_eq, Option.any_eq_true,
    Option.isSome_iff_exists] at hall
  obtain ⟨⟨hlen, hdisabled⟩, c, hc, hstays, call, hi, ⟨token, htoken⟩, hreceives⟩ := hall
  exact ⟨c₀, c, call, token, h₀, remainsDisabled_of_runs h₀ hc hdisabled hstays, hlen, hi,
    refreshPresented?_eq_some htoken, hreceives⟩

end IdentityPlatform
