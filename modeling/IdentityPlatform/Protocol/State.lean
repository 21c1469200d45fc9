/-
# The state over a run

What every statement keeps, whoever issues it.  `World.Sound` says that
identifiers and hashes are unique and that every identifier is in the ledger of
generated values.  `World.Le` says how rows move: they stay, their references
never change, a session that is revoked stays revoked, a refresh token that is
not active never becomes active again, a consumed code stays consumed, and the
clock does not go back.
-/

import IdentityPlatform.Apps.AuthServer
import IdentityPlatform.Infrastructure.Execution
import IdentityPlatform.Interleaving.History
import IdentityPlatform.Interleaving.Assertions

namespace IdentityPlatform

open Interleaving Program Relational Machine

/-- A platform as the seed leaves it: users, clients, roles and signing keys
with identifiers of their own, and nothing issued yet. -/
structure World.Initial (w : World) : Prop where
  userIds : (w.users.map UserRow.id).Nodup
  userLedger : ∀ r ∈ w.users, r.id ∈ w.generated
  clientIds : (w.clients.map OAuthClientRow.id).Nodup
  clientRefs : (w.clients.map OAuthClientRow.clientId).Nodup
  clientLedger : ∀ r ∈ w.clients, r.id ∈ w.generated
  codes : w.codes = []
  sessions : w.sessions = []
  refreshTokens : w.refreshTokens = []
  emailVerifications : w.emailVerifications = []
  passwordResetTokens : w.passwordResetTokens = []
  redis : w.redis = []
  signed : w.signed = []

/-- A small platform: a user, an administrator, and a client with a secret and
one without. -/
def World.sample : World where
  now := 1000000
  generated := [sampleUuid 9001, sampleUuid 9002, sampleUuid 9301, sampleUuid 9302]
  users :=
    [{ id := sampleUuid 9001, email := "al@x.io", passwordHash := "Al 1#0"
       status := .active, passwordChangedAt := 0, createdAt := 0, updatedAt := 0 },
     { id := sampleUuid 9002, email := "ro@x.io", passwordHash := "Ro 1#0"
       status := .active, passwordChangedAt := 0, createdAt := 0, updatedAt := 0 }]
  rbac :=
    { roles := [⟨sampleUuid 9101, "user"⟩, ⟨sampleUuid 9102, "admin"⟩]
      permissions := [⟨sampleUuid 9201, "users:write"⟩, ⟨sampleUuid 9202, "clients:write"⟩]
      userRoles := [(sampleUuid 9001, sampleUuid 9101), (sampleUuid 9002, sampleUuid 9102)]
      rolePermissions := [(sampleUuid 9102, sampleUuid 9201), (sampleUuid 9102, sampleUuid 9202)] }
  clients :=
    [{ id := sampleUuid 9301, clientId := "cli_web", clientSecretHash := some "w#0"
       name := "Web", clientType := .confidential, redirectUris := ["https://web.example.org/cb"]
       allowedScopes := ["openid", "api.read"]
       grantTypes := ["authorization_code", "refresh_token"]
       tokenEndpointAuthMethod := .clientSecretBasic, requirePkce := true },
     { id := sampleUuid 9302, clientId := "cli_spa", clientSecretHash := none
       name := "Spa", clientType := .publicClient
       redirectUris := ["https://spa.example.org/cb", "https://spa.example.org/in?tenant=north+1"]
       allowedScopes := ["openid", "api.read"]
       grantTypes := ["authorization_code", "refresh_token"]
       tokenEndpointAuthMethod := .none, requirePkce := true }]
  signingKeys := ["sig-1"]

theorem World.initial_sample : World.sample.Initial where
  userIds := by decide
  userLedger := by decide
  clientIds := by decide
  clientRefs := by decide
  clientLedger := by decide
  codes := rfl
  sessions := rfl
  refreshTokens := rfl
  emailVerifications := rfl
  passwordResetTokens := rfl
  redis := rfl
  signed := rfl

/-- Distinct identifiers, all of them in the ledger. -/
structure Keyed {α : Type} (key : α → String) (rows : List α) (ledger : List String) : Prop where
  nodup : (rows.map key).Nodup
  ledger : ∀ r ∈ rows, key r ∈ ledger

/-- Identifiers are unique and in the ledger, hashes and public client
identifiers are unique. -/
structure World.Sound (w : World) : Prop where
  users : Keyed UserRow.id w.users w.generated
  clients : Keyed OAuthClientRow.id w.clients w.generated
  clientRefs : (w.clients.map OAuthClientRow.clientId).Nodup
  codes : Keyed AuthorizationCodeRow.id w.codes w.generated
  codeHashes : (w.codes.map AuthorizationCodeRow.codeHash).Nodup
  sessions : Keyed SessionRow.id w.sessions w.generated
  refreshTokens : Keyed RefreshTokenRow.id w.refreshTokens w.generated
  tokenHashes : (w.refreshTokens.map RefreshTokenRow.tokenHash).Nodup

theorem World.Initial.sound {w : World} (h : w.Initial) : w.Sound where
  users := ⟨h.userIds, h.userLedger⟩
  clients := ⟨h.clientIds, h.clientLedger⟩
  clientRefs := h.clientRefs
  codes := by rw [h.codes]; exact ⟨List.nodup_nil, by simp⟩
  codeHashes := by rw [h.codes]; exact List.nodup_nil
  sessions := by rw [h.sessions]; exact ⟨List.nodup_nil, by simp⟩
  refreshTokens := by rw [h.refreshTokens]; exact ⟨List.nodup_nil, by simp⟩
  tokenHashes := by rw [h.refreshTokens]; exact List.nodup_nil

/-- A statement keeps the keys of a table when its updates do and the key of a
new row is a value just taken. -/
theorem Keyed.changes {α : Type} {key : α → String} {rows rows' : List α} {r : String}
    {w w' : World} {new : α → Prop} {old : α → α → Prop} (h : Keyed key rows w.generated)
    (hc : Changes new old rows rows') (hold : ∀ a ∈ rows, ∀ b, old a b → key b = key a)
    (hnew : ∀ a, new a → key a = r ∧ Stmt.Taken isUuid r w w')
    (hg : w.generated ⊆ w'.generated) : Keyed key rows' w'.generated where
  nodup := hc.nodup h.nodup hold fun a ha hmem => by
    obtain ⟨hk, ht⟩ := hnew a ha
    obtain ⟨b, hb, hbk⟩ := List.mem_map.1 hmem
    exact ht.fresh (hk ▸ hbk ▸ h.ledger b hb)
  ledger a ha := by
    rcases hc.mem_cases ha with ⟨b, hb, rfl | hab⟩ | ha
    · exact hg (h.ledger a hb)
    · exact hold b hb a hab ▸ hg (h.ledger b hb)
    · obtain ⟨hk, ht⟩ := hnew a ha
      rw [hk, ht.ledger]
      exact List.mem_cons_self ..

/-! ### How rows move -/

/-- A user keeps identifier and address. -/
structure UserRow.Le (a b : UserRow) : Prop where
  id : b.id = a.id
  email : b.email = a.email

/-- A client keeps everything but its secret and its status. -/
structure OAuthClientRow.Le (a b : OAuthClientRow) : Prop where
  id : b.id = a.id
  clientId : b.clientId = a.clientId
  clientType : b.clientType = a.clientType
  allowedScopes : b.allowedScopes = a.allowedScopes

/-- A code keeps what it was issued with, and stays consumed. -/
structure AuthorizationCodeRow.Le (a b : AuthorizationCodeRow) : Prop where
  core : { b with consumedAt := a.consumedAt } = a
  consumed : a.consumedAt.isSome → b.consumedAt = a.consumedAt

/-- A session keeps its user and stays revoked. -/
structure SessionRow.Le (a b : SessionRow) : Prop where
  id : b.id = a.id
  userId : b.userId = a.userId
  clientId : b.clientId = a.clientId
  expiresAt : b.expiresAt = a.expiresAt
  revoked : a.status = .revoked → b.status = .revoked

/-- A refresh token keeps everything but its status, and is active only as long
as it has been. -/
structure RefreshTokenRow.Le (a b : RefreshTokenRow) : Prop where
  core : { b with status := a.status, rotatedAt := a.rotatedAt, revokedAt := a.revokedAt } = a
  spent : a.status ≠ .active → b.status ≠ .active
  revoked : a.status = .revoked → b.status = .revoked

namespace AuthorizationCodeRow.Le

variable {a b : AuthorizationCodeRow}

theorem id (h : a.Le b) : b.id = a.id := by rw [← h.core]

theorem codeHash (h : a.Le b) : b.codeHash = a.codeHash := by rw [← h.core]

theorem clientId (h : a.Le b) : b.clientId = a.clientId := by rw [← h.core]

theorem userId (h : a.Le b) : b.userId = a.userId := by rw [← h.core]

theorem redirectUri (h : a.Le b) : b.redirectUri = a.redirectUri := by rw [← h.core]

theorem scope (h : a.Le b) : b.scope = a.scope := by rw [← h.core]

theorem nonce (h : a.Le b) : b.nonce = a.nonce := by rw [← h.core]

theorem codeChallenge (h : a.Le b) : b.codeChallenge = a.codeChallenge := by rw [← h.core]

theorem codeChallengeMethod (h : a.Le b) : b.codeChallengeMethod = a.codeChallengeMethod := by
  rw [← h.core]

end AuthorizationCodeRow.Le

namespace RefreshTokenRow.Le

variable {a b : RefreshTokenRow}

theorem id (h : a.Le b) : b.id = a.id := by rw [← h.core]

theorem tokenHash (h : a.Le b) : b.tokenHash = a.tokenHash := by rw [← h.core]

theorem sessionId (h : a.Le b) : b.sessionId = a.sessionId := by rw [← h.core]

theorem userId (h : a.Le b) : b.userId = a.userId := by rw [← h.core]

theorem clientId (h : a.Le b) : b.clientId = a.clientId := by rw [← h.core]

theorem scope (h : a.Le b) : b.scope = a.scope := by rw [← h.core]

theorem previousTokenId (h : a.Le b) : b.previousTokenId = a.previousTokenId := by rw [← h.core]

theorem expiresAt (h : a.Le b) : b.expiresAt = a.expiresAt := by rw [← h.core]

end RefreshTokenRow.Le

/-- An e-mail verification keeps its user, and stays consumed. -/
structure EmailVerificationRow.Le (a b : EmailVerificationRow) : Prop where
  userId : b.userId = a.userId
  consumed : a.consumedAt.isSome → b.consumedAt.isSome

theorem UserRow.Le.refl (a : UserRow) : a.Le a := ⟨rfl, rfl⟩

theorem OAuthClientRow.Le.refl (a : OAuthClientRow) : a.Le a := ⟨rfl, rfl, rfl, rfl⟩

theorem AuthorizationCodeRow.Le.refl (a : AuthorizationCodeRow) : a.Le a := ⟨rfl, fun _ => rfl⟩

theorem SessionRow.Le.refl (a : SessionRow) : a.Le a := ⟨rfl, rfl, rfl, rfl, fun h => h⟩

theorem RefreshTokenRow.Le.refl (a : RefreshTokenRow) : a.Le a := ⟨rfl, fun h => h, fun h => h⟩

theorem EmailVerificationRow.Le.refl (a : EmailVerificationRow) : a.Le a := ⟨rfl, fun h => h⟩

/-- Time passes, the ledger and the signed tokens grow, rows move along `Le`. -/
structure World.Le (w w' : World) : Prop where
  now : w.now ≤ w'.now
  generated : w.generated ⊆ w'.generated
  users : Carried UserRow.Le w.users w'.users
  clients : Carried OAuthClientRow.Le w.clients w'.clients
  codes : Carried AuthorizationCodeRow.Le w.codes w'.codes
  sessions : Carried SessionRow.Le w.sessions w'.sessions
  refreshTokens : Carried RefreshTokenRow.Le w.refreshTokens w'.refreshTokens
  emailVerifications : Carried EmailVerificationRow.Le w.emailVerifications w'.emailVerifications
  signed : w.signed ⊆ w'.signed

theorem World.Le.refl (w : World) : w.Le w where
  now := le_rfl
  generated := List.Subset.refl _
  users := .refl UserRow.Le.refl _
  clients := .refl OAuthClientRow.Le.refl _
  codes := .refl AuthorizationCodeRow.Le.refl _
  sessions := .refl SessionRow.Le.refl _
  refreshTokens := .refl RefreshTokenRow.Le.refl _
  emailVerifications := .refl EmailVerificationRow.Le.refl _
  signed := List.Subset.refl _

theorem World.Le.trans {w₁ w₂ w₃ : World} (h : w₁.Le w₂) (h' : w₂.Le w₃) : w₁.Le w₃ where
  now := h.now.trans h'.now
  generated := List.Subset.trans h.generated h'.generated
  users := h.users.trans (fun a b => ⟨b.id.trans a.id, b.email.trans a.email⟩) h'.users
  clients := h.clients.trans (fun a b =>
    ⟨b.id.trans a.id, b.clientId.trans a.clientId, b.clientType.trans a.clientType,
      b.allowedScopes.trans a.allowedScopes⟩) h'.clients
  codes := h.codes.trans (fun {x y z} a b =>
    ⟨by
      have ha := a.core
      rw [← b.core] at ha
      exact ha, fun hc => by
      have hy := a.consumed hc
      rw [b.consumed (hy ▸ hc), hy]⟩) h'.codes
  sessions := h.sessions.trans (fun a b =>
    ⟨b.id.trans a.id, b.userId.trans a.userId, b.clientId.trans a.clientId,
      b.expiresAt.trans a.expiresAt, fun hr => b.revoked (a.revoked hr)⟩) h'.sessions
  refreshTokens := h.refreshTokens.trans (fun a b =>
    ⟨by
      have ha := a.core
      rw [← b.core] at ha
      exact ha, fun hs => b.spent (a.spent hs), fun hr => b.revoked (a.revoked hr)⟩)
      h'.refreshTokens
  emailVerifications := h.emailVerifications.trans (fun a b =>
    ⟨b.userId.trans a.userId, fun hc => b.consumed (a.consumed hc)⟩) h'.emailVerifications
  signed := List.Subset.trans h.signed h'.signed

/-! ### Every statement keeps both -/

theorem UserStmt.change_le (u : UserStmt) (now : ℕ) (a : UserRow) : a.Le (u.change now a) := by
  cases u <;> simp only [UserStmt.change] <;> (try split_ifs) <;> exact ⟨rfl, rfl⟩

theorem ClientStmt.change_le (u : ClientStmt) (a : OAuthClientRow) : a.Le (u.change a) := by
  cases u <;> exact ⟨rfl, rfl, rfl, rfl⟩

theorem CodeStmt.consumed_le {id : String} {now : ℕ} {a : AuthorizationCodeRow}
    (h : CodeStmt.fresh id a) : a.Le (CodeStmt.consumed now a) :=
  ⟨rfl, fun hc => by rw [h.2] at hc; cases hc⟩

theorem SessionStmt.change_le (u : SessionStmt) (now : ℕ) (a : SessionRow) :
    a.Le (u.change now a) := by
  cases u <;> exact ⟨rfl, rfl, rfl, rfl, fun h => by first | exact h | rfl⟩

theorem RefreshStmt.change_le {u : RefreshStmt} {w : World} {now : ℕ} {a : RefreshTokenRow}
    (h : u.where w a = true) : a.Le (u.change now a) := by
  cases u with
  | rotate hash =>
      have hact : a.status = .active := by
        simp only [RefreshStmt.where, Bool.and_eq_true, decide_eq_true_eq] at h
        exact h.1.2
      exact ⟨rfl, fun hs => absurd hact hs, fun hr => by rw [hact] at hr; cases hr⟩
  | revokeFamily | revokeByToken | revokeBySession | revokeByUser | revokeForReplay =>
      exact ⟨rfl, fun _ => by simp [RefreshStmt.change], fun _ => rfl⟩
  | insert | selectByHash => exact .refl a

namespace Stmt

variable {P : Platform} {s : Stmt} {r : String} {w w' : World} {ans : Except Err s.Ans}

theorem exec_le (h : s.exec P r w = some (ans, w')) : w.Le w' where
  now := (exec_now h).ge
  generated := by
    rcases exec_generated h with hg | ⟨_, hg⟩ <;> rw [hg]
    · exact List.Subset.refl _
    · exact List.subset_cons_self ..
  users := (exec_users h).carried UserRow.Le.refl fun a _ b => by
    rintro ⟨u, _, _, rfl⟩
    exact u.change_le w.now a
  clients := (exec_clients h).carried OAuthClientRow.Le.refl fun a _ b => by
    rintro ⟨u, _, _, rfl⟩
    exact u.change_le a
  codes := (exec_codes h).carried AuthorizationCodeRow.Le.refl fun a _ b => by
    rintro ⟨id, _, hf, rfl⟩
    exact CodeStmt.consumed_le hf
  sessions := (exec_sessions h).carried SessionRow.Le.refl fun a _ b => by
    rintro ⟨u, _, _, rfl⟩
    exact u.change_le w.now a
  refreshTokens := (exec_refreshTokens h).carried RefreshTokenRow.Le.refl fun a _ b => by
    rintro ⟨u, _, hw, rfl⟩
    exact RefreshStmt.change_le hw
  emailVerifications := (exec_emailVerifications h).carried EmailVerificationRow.Le.refl
    fun a _ b => by
      rintro ⟨_, _, _, rfl⟩
      exact ⟨rfl, fun _ => rfl⟩
  signed := by
    rcases exec_signed h with hs | ⟨_, _, _, hs⟩ <;> rw [hs]
    · exact List.Subset.refl _
    · exact List.subset_cons_self ..

theorem exec_sound (h : s.exec P r w = some (ans, w')) (hw : w.Sound) : w'.Sound where
  users := hw.users.changes (exec_users h)
    (by rintro a _ b ⟨u, _, _, rfl⟩; exact (u.change_le _ a).id)
    (by rintro _ ⟨_, _, _, _, _, rfl, ht, _⟩; exact ⟨rfl, ht⟩) (exec_le h).generated
  clients := hw.clients.changes (exec_clients h)
    (by rintro a _ b ⟨u, _, _, rfl⟩; exact (u.change_le a).id)
    (by rintro _ ⟨_, _, _, _, rfl, ht, _⟩; exact ⟨rfl, ht⟩) (exec_le h).generated
  clientRefs := (exec_clients h).nodup hw.clientRefs
    (by rintro a _ b ⟨u, _, _, rfl⟩; exact (u.change_le a).clientId) fun a ha hmem => by
      obtain ⟨clientId, _, _, _, rfl, _, hnone⟩ := ha
      obtain ⟨b, hb, hbk⟩ := List.mem_map.1 hmem
      exact lookup_eq_none hnone b hb hbk
  codes := hw.codes.changes (exec_codes h)
    (by rintro a _ b ⟨id, _, hf, rfl⟩; exact (CodeStmt.consumed_le hf).id)
    (by rintro _ ⟨_, _, _, _, _, rfl, ht, _⟩; exact ⟨rfl, ht⟩) (exec_le h).generated
  codeHashes := (exec_codes h).nodup hw.codeHashes
    (by rintro a _ b ⟨id, _, hf, rfl⟩; exact (CodeStmt.consumed_le hf).codeHash) fun a ha hmem => by
      obtain ⟨hash, _, _, _, _, rfl, _, hnone⟩ := ha
      obtain ⟨b, hb, hbk⟩ := List.mem_map.1 hmem
      exact lookup_eq_none hnone b hb hbk
  sessions := hw.sessions.changes (exec_sessions h)
    (by rintro a _ b ⟨u, _, _, rfl⟩; exact (u.change_le _ a).id)
    (by rintro _ ⟨_, _, rfl, ht, _⟩; exact ⟨rfl, ht⟩) (exec_le h).generated
  refreshTokens := hw.refreshTokens.changes (exec_refreshTokens h)
    (by rintro a _ b ⟨u, _, hu, rfl⟩; exact (RefreshStmt.change_le hu).id)
    (by rintro _ ⟨_, _, rfl, ht, _⟩; exact ⟨rfl, ht⟩) (exec_le h).generated
  tokenHashes := (exec_refreshTokens h).nodup hw.tokenHashes
    (by rintro a _ b ⟨u, _, hu, rfl⟩; exact (RefreshStmt.change_le hu).tokenHash)
    fun a ha hmem => by
      obtain ⟨data, _, rfl, _, hnone, _⟩ := ha
      obtain ⟨b, hb, hbk⟩ := List.mem_map.1 hmem
      exact lookup_eq_none hnone b hb hbk

end Stmt

namespace AuthServer

variable {P : Platform} {w w' : World} {e : Env}

theorem Env.apply_le (h : e.apply w = some w') : w.Le w' := by
  cases e with
  | tick ms =>
      obtain rfl := Option.some.inj h
      exact { World.Le.refl w with now := Nat.le_add_right _ _ }
  | setSessionCache id entry =>
      cases entry <;>
        · obtain rfl := Option.some.inj h
          exact { World.Le.refl w with }
  | rotateSigningKey kid =>
      simp only [Env.apply] at h
      split_ifs at h
      obtain rfl := Option.some.inj h
      exact { World.Le.refl w with generated := List.subset_cons_self .. }

/-- **What the environment changes**: the clock, the cache, the keys and the ledger. -/
theorem Env.apply_eq (h : e.apply w = some w') :
    w' = { w with now := w'.now, redis := w'.redis, signingKeys := w'.signingKeys,
                  generated := w'.generated } := by
  cases e with
  | tick ms =>
      obtain rfl := Option.some.inj h
      rfl
  | setSessionCache id entry =>
      cases entry <;>
        · obtain rfl := Option.some.inj h
          rfl
  | rotateSigningKey kid =>
      simp only [Env.apply] at h
      split_ifs at h
      obtain rfl := Option.some.inj h
      rfl

/-- In the cache it stores nothing but sessions. -/
theorem Env.apply_redis (h : e.apply w = some w') :
    ∀ p ∈ w'.redis, p ∈ w.redis ∨ ∃ id, p.1 = .sess id := by
  cases e with
  | tick ms =>
      obtain rfl := Option.some.inj h
      exact fun p hp => .inl hp
  | setSessionCache id entry =>
      cases entry with
      | none =>
          obtain rfl := Option.some.inj h
          exact fun p hp => .inl (List.mem_filter.1 hp).1
      | some entry =>
          obtain rfl := Option.some.inj h
          intro p hp
          rcases List.mem_cons.1 hp with rfl | hp
          · exact .inr ⟨id, rfl⟩
          · exact .inl (List.mem_filter.1 hp).1
  | rotateSigningKey kid =>
      simp only [Env.apply] at h
      split_ifs at h
      obtain rfl := Option.some.inj h
      exact fun p hp => .inl hp

/-- The environment leaves the tables alone. -/
theorem Env.apply_rows (h : e.apply w = some w') : w'.users = w.users ∧
    w'.sessions = w.sessions ∧ w'.refreshTokens = w.refreshTokens ∧ w'.codes = w.codes := by
  rw [Env.apply_eq h]
  exact ⟨rfl, rfl, rfl, rfl⟩

theorem Env.apply_mfaMethods (h : e.apply w = some w') : w'.mfaMethods = w.mfaMethods := by
  rw [Env.apply_eq h]

theorem Env.apply_signed (h : e.apply w = some w') : w'.signed = w.signed := by
  rw [Env.apply_eq h]

theorem Env.apply_clients (h : e.apply w = some w') : w'.clients = w.clients := by
  rw [Env.apply_eq h]

/-- A longer ledger does no harm. -/
theorem Env.apply_sound (h : e.apply w = some w') (hw : w.Sound) : w'.Sound := by
  cases e with
  | tick ms =>
      obtain rfl := Option.some.inj h
      exact { hw with }
  | setSessionCache id entry =>
      cases entry <;>
        · obtain rfl := Option.some.inj h
          exact { hw with }
  | rotateSigningKey kid =>
      simp only [Env.apply] at h
      split_ifs at h
      obtain rfl := Option.some.inj h
      exact { hw with
        users := ⟨hw.users.nodup, fun r hr => List.mem_cons_of_mem _ (hw.users.ledger r hr)⟩
        clients := ⟨hw.clients.nodup, fun r hr => List.mem_cons_of_mem _ (hw.clients.ledger r hr)⟩
        codes := ⟨hw.codes.nodup, fun r hr => List.mem_cons_of_mem _ (hw.codes.ledger r hr)⟩
        sessions := ⟨hw.sessions.nodup, fun r hr =>
          List.mem_cons_of_mem _ (hw.sessions.ledger r hr)⟩
        refreshTokens := ⟨hw.refreshTokens.nodup, fun r hr =>
          List.mem_cons_of_mem _ (hw.refreshTokens.ledger r hr)⟩ }

/-- **Every step goes along `World.Le`.** -/
theorem le_stable (P : Platform) : (machine P).Stable World.Le where
  refl := World.Le.refl
  trans := World.Le.trans
  exec h := Stmt.exec_le h
  env h := Env.apply_le h

theorem answers_sound {s : Stmt} {ans : Except Err s.Ans} {pre post : World} (hw : pre.Sound)
    (h : (machine P).Answers s pre ans post) : post.Sound := by
  rcases h with ⟨r, h⟩ | ⟨_, rfl⟩
  · exact Stmt.exec_sound h hw
  · exact hw

/-- **Every state of every run is sound.** -/
theorem reachable_sound {c : Config statements Err World Incoming Response}
    (h : (machine P).Reachable World.Initial c) : c.world.Sound ∧
      ∀ (i : ℕ) call, c.calls[i]? = some call → ∀ e ∈ call.log, e.pre.Sound ∧ e.post.Sound :=
  h.holds (fun _ => World.Initial.sound) (fun _ _ _ => Env.apply_sound)
    fun _ _ _ _ hw ha => answers_sound hw ha

/-- The newest access or ID token. -/
def lastBearer (w : World) : Option WireToken := w.signed.head?.map .jws

/-- The newest random token. -/
def lastToken (w : World) : String := (w.generated.find? isRandomToken).getD ""

/-- A verifier and the challenge made of it, long enough for `isCodeChallenge`. -/
def sampleVerifier : String := String.ofList (List.replicate 42 'v')

/-- Call `i` is a login. -/
def loginMoves (i : ℕ) (email password : String) : List (Move World Incoming Env) :=
  [.accept fun _ => ⟨.login email password, {}⟩, .steps i 40]

/-- Call `i` asks for a code of `cli_spa` with the newest token. -/
def authorizeMoves (i : ℕ) (scope : String) (nonce : Option String) :
    List (Move World Incoming Env) :=
  [.accept fun w => ⟨.authorize (lastBearer w)
      ⟨"cli_spa", "https://spa.example.org/cb", scope, nonce, "u" ++ sampleVerifier, .s256⟩
      none, {}⟩, .steps i 40]

/-- The form that presents a code of `cli_spa`. -/
def sampleCodeForm (code : String) : TokenForm where
  grantType := .authorizationCode
  code := some code
  redirectUri := some "https://spa.example.org/cb"
  clientId := some "cli_spa"
  codeVerifier := some sampleVerifier

/-- The form that presents a refresh token of `cli_spa`. -/
def sampleRefreshForm (refreshToken : String) : TokenForm where
  grantType := .refreshToken
  clientId := some "cli_spa"
  refreshToken := some refreshToken

/-- Call `i` exchanges the newest code. -/
def exchangeMoves (i : ℕ) : List (Move World Incoming Env) :=
  [.accept fun w => ⟨.token (sampleCodeForm (lastToken w)) none, {}⟩, .steps i 40]

/-- Call `i` refreshes the newest refresh token at `/auth/refresh`. -/
def authRefreshMoves (i : ℕ) : List (Move World Incoming Env) :=
  [.accept fun w => ⟨.refresh (lastToken w), {}⟩, .steps i 40]

/-- Calls `i` and `i + 1` enroll the user of the newest token in a second factor. -/
def enrollMoves (i : ℕ) : List (Move World Incoming Env) :=
  [.accept fun w => ⟨.mfaEnroll (lastBearer w), {}⟩, .steps i 40,
   .accept fun w => ⟨.mfaVerify (lastBearer w) (.enrollment "123456"), {}⟩, .steps (i + 1) 40]

/-- Call `i` answers the newest login challenge. -/
def challengeMoves (i : ℕ) (code : String) : List (Move World Incoming Env) :=
  [.accept fun w => ⟨.mfaVerify none (.challenge (w.generated.headD "") code), {}⟩, .steps i 40]

/-- The data of a client without a secret, for the scopes and grants it asks for. -/
def sampleClient (allowedScopes grantTypes : List String) : CreateClientData where
  name := "New"
  clientType := .publicClient
  redirectUris := ["https://new.example.org/cb"]
  allowedScopes := allowedScopes
  grantTypes := grantTypes
  requirePkce := true
  tokenEndpointAuthMethod := .none

/-- Call `i` registers a client with the newest token. -/
def createClientMoves (i : ℕ) (data : CreateClientData) : List (Move World Incoming Env) :=
  [.accept fun w => ⟨.createClient (lastBearer w) data, {}⟩, .steps i 40]

/-- The public identifier of the newest client. -/
def newestClient (w : World) : String := (w.clients.getLast?.map OAuthClientRow.clientId).getD ""

/-- Call `i` asks for a code of the newest client with the newest token. -/
def authorizeNewestMoves (i : ℕ) (scope : String) : List (Move World Incoming Env) :=
  [.accept fun w => ⟨.authorize (lastBearer w)
      ⟨newestClient w, "https://new.example.org/cb", scope, none, "u" ++ sampleVerifier, .s256⟩
      none, {}⟩, .steps i 40]

/-- Call `i` exchanges the newest code, for the newest client. -/
def exchangeNewestMoves (i : ℕ) : List (Move World Incoming Env) :=
  [.accept fun w => ⟨.token { sampleCodeForm (lastToken w) with
      redirectUri := some "https://new.example.org/cb"
      clientId := some (newestClient w) } none, {}⟩, .steps i 40]

/-- The run from the sample platform that a list of moves describes. -/
def sampleRun (moves : List (Move World Incoming Env)) :
    Option (Config statements Err World Incoming Response) :=
  (machine .sample).play Stmt.sampleRandom moves (Config.initial World.sample)

theorem sampleRun_reachable {moves : List (Move World Incoming Env)}
    {c : Config statements Err World Incoming Response} (h : sampleRun moves = some c) :
    (machine .sample).Reachable World.Initial c :=
  ⟨_, World.initial_sample, run_of_play h⟩

end AuthServer

end IdentityPlatform
