/-
# What statements do

`exec_cases` reads `Stmt.exec` off once: a statement is rejected without effect,
or it has its `effect`, with the random value it took entered in the ledger.  On
top of it stands one lemma per table that says which rows a statement can leave
there; everything later is derived from these.
-/

import IdentityPlatform.Infrastructure.Statements

namespace IdentityPlatform

open Relational Interleaving

/-- A constrained statement is refused and changes nothing, or violates no
constraint. -/
theorem constrained_cases {α τ : Type} (checks : List (Bool × String)) (table : τ) (ok : α × τ) :
    (∃ sqlState, constrained checks table ok = (.error (.db sqlState), table)) ∨
      (constrained checks table ok = (.ok ok.1, ok.2) ∧ ∀ c ∈ checks, c.1 = false) := by
  unfold constrained
  split
  · exact .inl ⟨_, rfl⟩
  · rename_i h
    exact .inr ⟨rfl, fun c hc => by simpa using List.find?_eq_none.1 h c hc⟩

/-! ### Failures -/

/-- The errors of the database, the key service and the JWT library: those that
statements fail with. -/
def Err.isForeign : Err → Bool
  | .db _ | .kms _ | .jose _ => true
  | _ => false

/-- A constrained statement that fails leaves the table as it is. -/
theorem constrained_failed {α τ : Type} {checks : List (Bool × String)} {table : τ} {ok : α × τ}
    {e : Err} (h : (constrained checks table ok).1 = .error e) :
    (constrained checks table ok).2 = table ∧ e.isForeign = true := by
  rcases constrained_cases checks table ok with ⟨sqlState, hc⟩ | ⟨hc, _⟩
  · rw [hc] at h ⊢
    obtain rfl := Except.error.inj h
    exact ⟨rfl, rfl⟩
  · rw [hc] at h
    cases h

section Failed

variable {r : String} {w : World} {e : Err}

theorem UserStmt.effect_failed {s : UserStmt} (h : (s.effect r w).1 = .error e) :
    (s.effect r w).2 = w.users ∧ e.isForeign = true := by
  cases s with
  | insert => exact constrained_failed h
  | _ => cases h

theorem RbacStmt.effect_failed {s : RbacStmt} (h : (s.effect w).1 = .error e) :
    (s.effect w).2 = w.rbac ∧ e.isForeign = true := by
  cases s with
  | rolesOf | permissionsOf => cases h
  | _ => exact constrained_failed h

theorem ClientStmt.effect_failed {s : ClientStmt} (h : (s.effect r w).1 = .error e) :
    (s.effect r w).2 = w.clients ∧ e.isForeign = true := by
  cases s with
  | insert => exact constrained_failed h
  | _ => cases h

theorem CodeStmt.effect_failed {s : CodeStmt} (h : (s.effect r w).1 = .error e) :
    (s.effect r w).2 = w.codes ∧ e.isForeign = true := by
  cases s with
  | insert hash data =>
      simp only [CodeStmt.effect] at h ⊢
      split at h
      · obtain rfl := Except.error.inj h
        exact ⟨rfl, rfl⟩
      · exact constrained_failed h
  | _ => cases h

theorem SessionStmt.effect_failed {s : SessionStmt} (h : (s.effect r w).1 = .error e) :
    (s.effect r w).2 = w.sessions ∧ e.isForeign = true := by
  cases s with
  | insert => exact constrained_failed h
  | _ => cases h

theorem RefreshStmt.effect_failed {s : RefreshStmt} (h : (s.effect r w).1 = .error e) :
    (s.effect r w).2 = w.refreshTokens ∧ e.isForeign = true := by
  cases s with
  | insert => exact constrained_failed h
  | _ => cases h

theorem MfaStmt.effect_failed {s : MfaStmt} (h : (s.effect r w).1 = .error e) :
    (s.effect r w).2 = w.mfaMethods ∧ e.isForeign = true := by
  cases s with
  | upsertPending userId secret =>
      simp only [MfaStmt.effect] at h ⊢
      split_ifs at h ⊢
      exact constrained_failed h
  | _ => cases h

theorem EmailTokenStmt.effect_failed {s : EmailTokenStmt} (h : (s.effect r w).1 = .error e) :
    (s.effect r w).2 = (w.emailVerifications, w.passwordResetTokens) ∧ e.isForeign = true := by
  cases s with
  | insertVerification | insertReset => exact constrained_failed h
  | _ => cases h

theorem KmsStmt.effect_failed {config : AppConfig} {s : KmsStmt}
    (h : (s.effect config r w).1 = .error e) :
    (s.effect config r w).2 = (w.signingKeys, w.signed) ∧ e.isForeign = true := by
  cases s with
  | currentSigningKey =>
      simp only [KmsStmt.effect] at h
      split at h <;> cases h
  | publicKey kid =>
      simp only [KmsStmt.effect] at h
      split_ifs at h
      obtain rfl := Except.error.inj h
      exact ⟨rfl, rfl⟩
  | jwtVerify kid token requiresScope =>
      simp only [KmsStmt.effect, verifyClaims] at h
      split_ifs at h <;>
        · obtain rfl := Except.error.inj h
          exact ⟨rfl, rfl⟩
  | _ => cases h

end Failed

/-- What a statement makes of a row of `mfa_methods` that it is about. -/
def MfaStmt.Updates (now : ℕ) (a b : MfaMethodRow) : MfaStmt → Prop
  | .upsertPending userId secret => a.userId = userId ∧
      b = { a with secret := secret, status := .pending, enrolledAt := none, lastUsedAt := none }
  | .activate userId => a.userId = userId ∧
      b = { a with status := .active, enrolledAt := some now, isPrimary := true }
  | .touchUsed id => a.id = id ∧ b = { a with lastUsedAt := some now }
  | .disable id => a.id = id ∧ b = { a with status := .disabled }
  | _ => False

namespace Stmt

variable {P : Platform} {s : Stmt} {r : String} {w w' : World} {ans : Except Err s.Ans}

/-- The ledger after a statement with the random value `r`. -/
def Ledger (P : Platform) (s : Stmt) (r : String) (w : World) (ledger : List String) : Prop :=
  (s.generates P w = none ∧ ledger = w.generated) ∨
    ∃ form, s.generates P w = some form ∧ form r = true ∧ r ∉ w.generated ∧
      ledger = r :: w.generated

/-- A statement whose parameters are UUIDs has its effect. -/
theorem exec_effect (huuid : s.uuidParams.all isUuid = true) (h : s.exec P r w = some (ans, w')) :
    ans = (s.effect P r w).1 ∧ ∃ ledger, w' = { (s.effect P r w).2 with generated := ledger } ∧
      s.Ledger P r w ledger := by
  unfold exec at h
  rw [if_pos huuid] at h
  split at h
  · rename_i hg
    obtain ⟨rfl, rfl⟩ := Prod.mk.inj (Option.some.inj h)
    refine ⟨rfl, w.generated, ?_, .inl ⟨hg, rfl⟩⟩
    cases s <;> rfl
  · rename_i form hg
    split_ifs at h with hr
    obtain ⟨rfl, rfl⟩ := Prod.mk.inj (Option.some.inj h)
    simp only [Bool.and_eq_true, decide_eq_true_eq] at hr
    exact ⟨rfl, _, rfl, .inr ⟨form, hg, hr.1, hr.2, rfl⟩⟩

/-- **What an execution does**: it is rejected, or it has its effect. -/
theorem exec_cases (h : s.exec P r w = some (ans, w')) :
    (ans = .error (.db "22P02") ∧ w' = w) ∨
      (s.uuidParams.all isUuid = true ∧ ans = (s.effect P r w).1 ∧
        ∃ ledger, w' = { (s.effect P r w).2 with generated := ledger } ∧
          s.Ledger P r w ledger) := by
  by_cases huuid : s.uuidParams.all isUuid = true
  · exact .inr ⟨huuid, exec_effect huuid h⟩
  · unfold exec at h
    rw [if_neg huuid] at h
    obtain ⟨rfl, rfl⟩ := Prod.mk.inj (Option.some.inj h)
    exact .inl ⟨rfl, rfl⟩

/-- `r` is a new value of the form `form`, entered in the ledger. -/
structure Taken (form : String → Bool) (r : String) (w w' : World) : Prop where
  form : form r = true
  fresh : r ∉ w.generated
  ledger : w'.generated = r :: w.generated

theorem Ledger.taken {form : String → Bool} {ledger : List String} (h : s.Ledger P r w ledger)
    (hs : s.generates P w = some form) (hw : w'.generated = ledger) : Taken form r w w' := by
  rcases h with ⟨hn, _⟩ | ⟨form', hf, hform, hr, rfl⟩
  · rw [hs] at hn
    cases hn
  · rw [hs] at hf
    obtain rfl := Option.some.inj hf
    exact ⟨hform, hr, hw⟩

theorem Ledger.subset {ledger : List String} (h : s.Ledger P r w ledger) :
    w.generated ⊆ ledger := by
  rcases h with ⟨_, rfl⟩ | ⟨_, _, _, _, rfl⟩
  · exact List.Subset.refl _
  · exact List.subset_cons_self ..

/-- The ledger only grows, by values that were not in it. -/
theorem exec_generated (h : s.exec P r w = some (ans, w')) :
    w'.generated = w.generated ∨ (r ∉ w.generated ∧ w'.generated = r :: w.generated) := by
  rcases exec_cases h with ⟨_, rfl⟩ | ⟨_, _, ledger, rfl, ⟨_, hl⟩ | ⟨_, _, _, hr, hl⟩⟩
  · exact .inl rfl
  · exact .inl hl
  · exact .inr ⟨hr, hl⟩

theorem exec_now (h : s.exec P r w = some (ans, w')) : w'.now = w.now := by
  rcases exec_cases h with ⟨_, rfl⟩ | ⟨_, _, ledger, rfl, _⟩
  · rfl
  · cases s <;> rfl

/-- **A failed statement changes nothing** but the ledger. -/
theorem exec_failed {e : Err} (h : s.exec P r w = some (.error e, w')) :
    (∃ ledger, w' = { w with generated := ledger }) ∧ e.isForeign = true := by
  rcases exec_cases h with ⟨he, rfl⟩ | ⟨_, hans, ledger, rfl, _⟩
  · obtain rfl := Except.error.inj he
    exact ⟨⟨w'.generated, rfl⟩, rfl⟩
  · cases s with
    | users u | rbac u | clients u | codes u | sessions u | refreshTokens u | mfaMethods u
    | emailTokens u | kms u =>
        obtain ⟨hsame, hforeign⟩ := u.effect_failed hans.symm
        exact ⟨⟨ledger, by simp only [effect, hsame]⟩, hforeign⟩
    | redis u => cases u <;> cases hans
    | runtime u => cases u <;> cases hans
    | log u => cases u <;> cases hans

/-! ### Rows after a statement -/

theorem exec_users (h : s.exec P r w = some (ans, w')) :
    Changes
      (fun row => ∃ email hash first last, s = .users (.insert email hash first last) ∧
        row = UserStmt.newRow r w.now email hash first last ∧ Taken isUuid r w w' ∧
        lookup (fun u => u.email.toLower) email.toLower w.users = none)
      (fun a b => ∃ u : UserStmt, s = .users u ∧ u.target = some a.id ∧ b = u.change w.now a)
      w.users w'.users := by
  rcases exec_cases h with ⟨_, rfl⟩ | ⟨_, _, ledger, rfl, hl⟩
  · exact .same
  · cases s with
    | users u =>
        cases u with
        | insert email hash first last =>
            rcases constrained_cases [((lookup (fun u => u.email.toLower) email.toLower
                w.users).isSome, "23505")] w.users
                (UserStmt.newRow r w.now email hash first last,
                  w.users ++ [UserStmt.newRow r w.now email hash first last]) with
              ⟨_, hc⟩ | ⟨hc, hok⟩
            · simp only [effect, UserStmt.effect, hc]
              exact .same
            · simp only [effect, UserStmt.effect, hc]
              refine .append ⟨_, _, _, _, rfl, rfl, hl.taken rfl rfl, ?_⟩
              simpa using hok
        | markVerified | recordFailedLogin | lockUntil | clearLockAndFailures | setLastLogin
        | updatePasswordHash | setMfaRequired | setStatus =>
            exact .update _ _ fun a _ ha => ⟨_, rfl, ha.symm, rfl⟩
        | _ => exact .same
    | _ => exact .same

/-- No statement changes the table of roles. -/
theorem exec_roles (h : s.exec P r w = some (ans, w')) : w'.rbac.roles = w.rbac.roles := by
  rcases exec_cases h with ⟨_, rfl⟩ | ⟨_, _, ledger, rfl, _⟩
  · rfl
  · cases s with
    | rbac u =>
        cases u with
        | rolesOf | permissionsOf => rfl
        | addRole | setUserRoles | setRolePermissions =>
            simp only [effect, RbacStmt.effect]
            rename_i a b
            unfold constrained
            split <;> rfl
    | _ => rfl

theorem exec_sessions (h : s.exec P r w = some (ans, w')) :
    Changes
      (fun row => ∃ data, s = .sessions (.insert data) ∧ row = data.row r w ∧
        Taken isUuid r w w' ∧ w.hasUser data.userId)
      (fun a b => ∃ u : SessionStmt, s = .sessions u ∧ u.where a = true ∧ b = u.change w.now a)
      w.sessions w'.sessions := by
  rcases exec_cases h with ⟨_, rfl⟩ | ⟨_, _, ledger, rfl, hl⟩
  · exact .same
  · cases s with
    | sessions u =>
        cases u with
        | insert data =>
            simp only [effect, SessionStmt.effect]
            rcases constrained_cases [(!(decide (w.hasUser data.userId)), "23503"),
                (data.clientId.any fun id => !(decide (w.hasClient id)), "23503")] w.sessions
                (data.row r w, w.sessions ++ [data.row r w]) with ⟨_, hc⟩ | ⟨hc, hok⟩
            · rw [hc]
              exact .same
            · rw [hc]
              refine .append ⟨_, rfl, rfl, hl.taken rfl rfl, ?_⟩
              simpa using hok _ (List.mem_cons_self ..)
        | touch | revoke | revokeAllForUser | markMfaPassed =>
            exact .update _ _ fun a _ ha => ⟨_, rfl, ha, rfl⟩
        | _ => exact .same
    | _ => exact .same

theorem exec_refreshTokens (h : s.exec P r w = some (ans, w')) :
    Changes
      (fun row => ∃ data, s = .refreshTokens (.insert data) ∧ row = data.row r w ∧
        Taken isUuid r w w' ∧ w.refreshToken data.tokenHash = none ∧ w.hasSession data.sessionId)
      (fun a b => ∃ u : RefreshStmt, s = .refreshTokens u ∧ u.where w a = true ∧
        b = u.change w.now a)
      w.refreshTokens w'.refreshTokens := by
  rcases exec_cases h with ⟨_, rfl⟩ | ⟨_, _, ledger, rfl, hl⟩
  · exact .same
  · cases s with
    | refreshTokens u =>
        cases u with
        | insert data =>
            simp only [effect, RefreshStmt.effect]
            rcases constrained_cases [((w.refreshToken data.tokenHash).isSome, "23505"),
                (!(decide (w.hasSession data.sessionId)), "23503"),
                (!(decide (w.hasUser data.userId)), "23503"),
                (data.clientId.any fun id => !(decide (w.hasClient id)), "23503"),
                (data.previousTokenId.any fun id => id ∉ w.refreshTokens.map RefreshTokenRow.id,
                  "23503")] w.refreshTokens
                ((), w.refreshTokens ++ [data.row r w]) with ⟨_, hc⟩ | ⟨hc, hok⟩
            · rw [hc]
              exact .same
            · rw [hc]
              refine .append ⟨_, rfl, rfl, hl.taken rfl rfl, ?_, ?_⟩
              · simpa using hok ((w.refreshToken data.tokenHash).isSome, "23505") (by simp)
              · simpa using hok (!(decide (w.hasSession data.sessionId)), "23503") (by simp)
        | rotate | revokeFamily | revokeByToken | revokeBySession | revokeByUser
        | revokeForReplay => exact .update _ _ fun a _ ha => ⟨_, rfl, ha, rfl⟩
        | _ => exact .same
    | _ => exact .same

theorem exec_codes (h : s.exec P r w = some (ans, w')) :
    Changes
      (fun row => ∃ hash data client, s = .codes (.insert hash data) ∧
        w.client data.clientId = some client ∧ row = data.row r w hash client ∧
        Taken isUuid r w w' ∧ w.code hash = none)
      (fun a b => ∃ id, s = .codes (.consume id) ∧ CodeStmt.fresh id a ∧
        b = CodeStmt.consumed w.now a)
      w.codes w'.codes := by
  rcases exec_cases h with ⟨_, rfl⟩ | ⟨_, _, ledger, rfl, hl⟩
  · exact .same
  · cases s with
    | codes u =>
        cases u with
        | insert hash data =>
            simp only [effect, CodeStmt.effect]
            split
            · exact .same
            · rename_i client hclient
              rcases constrained_cases [((w.code hash).isSome, "23505"),
                  (!(decide (w.hasUser data.userId)), "23503")] w.codes
                  ((), w.codes ++ [data.row r w hash client]) with ⟨_, hc⟩ | ⟨hc, hok⟩
              · rw [hc]
                exact .same
              · rw [hc]
                refine .append ⟨_, _, _, rfl, hclient, rfl, hl.taken rfl rfl, ?_⟩
                simpa using hok ((w.code hash).isSome, "23505") (by simp)
        | consume id => exact .update _ _ fun a _ ha => ⟨_, rfl, ha, rfl⟩
        | selectJoined => exact .same
    | _ => exact .same

theorem exec_clients (h : s.exec P r w = some (ans, w')) :
    Changes
      (fun row => ∃ clientId secretHash data, s = .clients (.insert clientId secretHash data) ∧
        row = data.row r clientId secretHash ∧ Taken isUuid r w w' ∧ w.client clientId = none)
      (fun a b => ∃ u : ClientStmt, s = .clients u ∧ u.target = some a.id ∧ b = u.change a)
      w.clients w'.clients := by
  rcases exec_cases h with ⟨_, rfl⟩ | ⟨_, _, ledger, rfl, hl⟩
  · exact .same
  · cases s with
    | clients u =>
        cases u with
        | insert clientId secretHash data =>
            simp only [effect, ClientStmt.effect]
            rcases constrained_cases [((w.client clientId).isSome, "23505")] w.clients
                (data.row r clientId secretHash, w.clients ++ [data.row r clientId secretHash])
                with ⟨_, hc⟩ | ⟨hc, hok⟩
            · rw [hc]
              exact .same
            · rw [hc]
              refine .append ⟨_, _, _, rfl, rfl, hl.taken rfl rfl, ?_⟩
              simpa using hok
        | rotateSecret | setStatus => exact .update _ _ fun a _ ha =>
            ⟨_, rfl, congrArg some ha.symm, rfl⟩
        | findByClientId => exact .same
    | _ => exact .same

theorem exec_mfaMethods (h : s.exec P r w = some (ans, w')) :
    Changes
      (fun row => ∃ userId secret, s = .mfaMethods (.upsertPending userId secret) ∧
        row = { id := r, userId := userId, secret := secret, status := .pending } ∧
        Taken isUuid r w w' ∧ w.hasUser userId ∧ ∀ m ∈ w.mfaMethods, m.userId ≠ userId)
      (fun a b => ∃ u : MfaStmt, s = .mfaMethods u ∧ u.Updates w.now a b)
      w.mfaMethods w'.mfaMethods := by
  rcases exec_cases h with ⟨_, rfl⟩ | ⟨_, _, ledger, rfl, hl⟩
  · exact .same
  · cases s with
    | mfaMethods u =>
        cases u with
        | upsertPending userId secret =>
            simp only [effect, MfaStmt.effect]
            split_ifs with hany
            · exact .update _ _ fun a _ ha => ⟨_, rfl, ha, rfl⟩
            · rcases constrained_cases [(!(decide (w.hasUser userId)), "23503")] w.mfaMethods
                  ((), w.mfaMethods ++ [{
                    id := r, userId := userId, secret := secret, status := .pending }])
                  with ⟨_, hc⟩ | ⟨hc, hok⟩
              · rw [hc]
                exact .same
              · rw [hc]
                refine .append ⟨_, _, rfl, rfl, hl.taken rfl rfl, ?_, ?_⟩
                · simpa using hok
                · simpa using hany
        | activate | touchUsed | disable => exact .update _ _ fun a _ ha => ⟨_, rfl, ha, rfl⟩
        | _ => exact .same
    | _ => exact .same

theorem exec_emailVerifications (h : s.exec P r w = some (ans, w')) :
    Changes
      (fun row => ∃ userId hash email ttl,
        s = .emailTokens (.insertVerification userId hash email ttl) ∧ row.userId = userId)
      (fun a b => ∃ hash, s = .emailTokens (.consumeVerification hash) ∧
        EmailTokenStmt.verifiable w hash a ∧ b = { a with consumedAt := some w.now })
      w.emailVerifications w'.emailVerifications := by
  rcases exec_cases h with ⟨_, rfl⟩ | ⟨_, _, ledger, rfl, hl⟩
  · exact .same
  · cases s with
    | emailTokens u =>
        cases u with
        | insertVerification userId hash email ttl =>
            simp only [effect, EmailTokenStmt.effect]
            rcases constrained_cases [((lookup EmailVerificationRow.tokenHash hash
                w.emailVerifications).isSome, "23505"), (!(decide (w.hasUser userId)), "23503")]
                (w.emailVerifications, w.passwordResetTokens)
                ((), w.emailVerifications ++ [{
                  id := r, userId := userId, tokenHash := hash, email := email
                  expiresAt := w.after ttl }], w.passwordResetTokens) with ⟨_, hc⟩ | ⟨hc, _⟩
            · rw [hc]
              exact .same
            · rw [hc]
              exact .append ⟨_, _, _, _, rfl, rfl⟩
        | consumeVerification hash => exact .update _ _ fun a _ ha => ⟨_, rfl, ha, rfl⟩
        | insertReset userId hash ttl =>
            simp only [effect, EmailTokenStmt.effect]
            rcases constrained_cases [((lookup PasswordResetRow.tokenHash hash
                w.passwordResetTokens).isSome, "23505"), (!(decide (w.hasUser userId)), "23503")]
                (w.emailVerifications, w.passwordResetTokens)
                ((), w.emailVerifications, w.passwordResetTokens ++ [{
                  id := r, userId := userId, tokenHash := hash
                  expiresAt := w.after ttl }]) with ⟨_, hc⟩ | ⟨hc, _⟩ <;>
              · rw [hc]
                exact .same
        | consumeReset => exact .same
    | _ => exact .same

/-- A key holds what it held, what a `SET` has put there, or a set. -/
theorem exec_redis (h : s.exec P r w = some (ans, w')) : ∀ p ∈ w'.redis,
    (∃ q ∈ w.redis, q.1 = p.1 ∧ q.2.value = p.2.value) ∨
      (∃ ttl, s = .redis (.set p.1 p.2.value ttl)) ∨ ∃ values, p.2.value = .members values := by
  rcases exec_cases h with ⟨_, rfl⟩ | ⟨_, _, ledger, rfl, _⟩
  · exact fun p hp => .inl ⟨p, hp, rfl, rfl⟩
  · have hset : ∀ {key value ttl} {p : RedisKey × Entry RedisValue},
        p ∈ w.redis.set w.now key value ttl → p ∈ w.redis ∨ p.1 = key ∧ p.2.value = value := by
      intro key value ttl p hp
      rcases List.mem_cons.1 hp with rfl | hp
      · exact .inr ⟨rfl, rfl⟩
      · exact .inl (List.mem_filter.1 hp).1
    cases s with
    | redis u =>
        cases u with
        | set key value ttl =>
            intro p hp
            rcases hset hp with hp | ⟨hkey, hvalue⟩
            · exact .inl ⟨p, hp, rfl, rfl⟩
            · exact .inr (.inl ⟨ttl, by rw [hkey, hvalue]⟩)
        | del | delSessions => exact fun p hp => .inl ⟨p, (List.mem_filter.1 hp).1, rfl, rfl⟩
        | setAdd key member =>
            intro p hp
            simp only [effect, RedisStmt.effect] at hp
            split_ifs at hp with hmem
            · exact .inl ⟨p, hp, rfl, rfl⟩
            · rcases List.mem_cons.1 hp with rfl | hp
              · exact .inr (.inr ⟨_, rfl⟩)
              · exact .inl ⟨p, (List.mem_filter.1 hp).1, rfl, rfl⟩
        | setExpire key ttl =>
            intro p hp
            simp only [effect, RedisStmt.effect, Cache.expire] at hp
            split at hp
            · rename_i value hget
              rcases hset hp with hp | ⟨hkey, hvalue⟩
              · exact .inl ⟨p, hp, rfl, rfl⟩
              · obtain ⟨q, hq, hqkey, hqvalue⟩ := Cache.mem_of_get hget
                exact .inl ⟨q, hq, hqkey.trans hkey.symm, hqvalue.trans hvalue.symm⟩
            · exact .inl ⟨p, hp, rfl, rfl⟩
        | _ => exact fun p hp => .inl ⟨p, hp, rfl, rfl⟩
    | _ => exact fun p hp => .inl ⟨p, hp, rfl, rfl⟩

/-- Only signing adds to the signed tokens. -/
theorem exec_signed (h : s.exec P r w = some (ans, w')) :
    w'.signed = w.signed ∨ ∃ kid payload, s = .kms (.sign kid payload) ∧
      w'.signed = ⟨"EdDSA", some kid, payload⟩ :: w.signed := by
  rcases exec_cases h with ⟨_, rfl⟩ | ⟨_, _, ledger, rfl, _⟩
  · exact .inl rfl
  · cases s with
    | kms u =>
        cases u with
        | sign kid payload => exact .inr ⟨kid, payload, rfl, rfl⟩
        | currentSigningKey =>
            simp only [effect, KmsStmt.effect]
            split <;> exact .inl rfl
        | _ => exact .inl rfl
    | _ => exact .inl rfl

end Stmt
end IdentityPlatform
