/-
# The atomic statements

Everything a handler does outside its own local variables: one `Stmt` per
`db.query`, per Redis command and per call to the key service or the runtime.
Statements are grouped by what they can change, and the meaning of a group
returns only the new contents of that: the rest of the state is untouched by
construction (`Stmt.effect`).

`Stmt.exec` adds what holds for every statement.  A parameter of a UUID column
that is not a UUID makes PostgreSQL reject the statement with `22P02`.  A
statement that takes a random value gets it from the scheduler and refuses one
that is not of the right form or has been handed out before.  Constraint
violations are errors with their SQLSTATE: `23505` for UNIQUE, `23503` for a
foreign key, `23502` for NOT NULL.
-/

import IdentityPlatform.Infrastructure.World
import IdentityPlatform.Interleaving.Program
import Mathlib.Data.List.Sort

namespace IdentityPlatform

open Relational Interleaving

/-- `if (violated) throw` of the database, otherwise `ok`. -/
def constrained {α τ : Type} (checks : List (Bool × String)) (table : τ) (ok : α × τ) :
    Except Err α × τ :=
  match checks.find? fun c => c.1 with
  | some (_, sqlState) => (.error (.db sqlState), table)
  | none => (.ok ok.1, ok.2)

/-! ### `users` -/

/-- The statements of `user.repository.ts` and `rbac.repository.ts` on `users`,
and those of `mfa.service.ts`. -/
inductive UserStmt
  | findByEmail (email : String)
  | findById (id : String)
  | emailOf (id : String)
  | insert (email passwordHash : String) (firstName lastName : Option String)
  | markVerified (id : String)
  | recordFailedLogin (id : String)
  | lockUntil (id : String) (until_ : Nat)
  | clearLockAndFailures (id : String)
  | setLastLogin (id : String)
  | updatePasswordHash (id passwordHash : String)
  | setMfaRequired (id : String) (value : Bool)
  | setStatus (id : String) (status : UserStatus)
  deriving DecidableEq

namespace UserStmt

abbrev Ans : UserStmt → Type
  | findByEmail _ | findById _ => Option UserRow
  | emailOf _ => Option String
  | insert .. => UserRow
  | _ => Unit

/-- What an `UPDATE users` does to the row it is about. -/
def change (now : Nat) : UserStmt → UserRow → UserRow
  | markVerified _, r =>
      if r.status = .pendingVerification then { r with status := .active, updatedAt := now } else r
  | recordFailedLogin _, r =>
      { r with failedLoginCount := r.failedLoginCount + 1, updatedAt := now }
  | lockUntil _ t, r =>
      if r.lockedUntil.all (· < t) then
        { r with lockedUntil := some t, status := .locked, updatedAt := now }
      else r
  | clearLockAndFailures _, r =>
      { r with
        failedLoginCount := 0
        lockedUntil := none
        status := if r.status = .locked then .active else r.status
        updatedAt := now }
  | setLastLogin _, r => { r with lastLoginAt := some now, updatedAt := now }
  | updatePasswordHash _ hash, r =>
      { r with
        passwordHash := hash
        passwordChangedAt := now
        failedLoginCount := 0
        lockedUntil := none
        updatedAt := now }
  | setMfaRequired _ value, r => { r with mfaRequired := value }
  | setStatus _ status, r => { r with status := status, updatedAt := now }
  | _, r => r

/-- The identifier an `UPDATE users` is about. -/
def target : UserStmt → Option String
  | markVerified id | recordFailedLogin id | lockUntil id _ | clearLockAndFailures id
  | setLastLogin id | updatePasswordHash id _ | setMfaRequired id _ | setStatus id _ => some id
  | _ => none

def update (s : UserStmt) (w : World) : List UserRow :=
  updateWhere (fun r => some r.id = s.target) (s.change w.now) w.users

/-- The row a registration inserts: unverified by the column default. -/
def newRow (r : String) (now : Nat) (email hash : String) (first last : Option String) :
    UserRow where
  id := r
  email := email
  passwordHash := hash
  firstName := first
  lastName := last
  passwordChangedAt := now
  createdAt := now
  updatedAt := now

/-- What a statement answers and makes of the table.  `String.toLower` folds the letters of ASCII,
and in the addresses that the request schemas admit there are no others. -/
def effect (r : String) (w : World) : (s : UserStmt) → Except Err s.Ans × List UserRow
  | findByEmail email => (.ok (lookup (fun u => u.email.toLower) email.toLower w.users), w.users)
  | findById id => (.ok (lookup UserRow.id id w.users), w.users)
  | emailOf id => (.ok ((lookup UserRow.id id w.users).map UserRow.email), w.users)
  | insert email hash first last =>
      let row := newRow r w.now email hash first last
      constrained [((lookup (fun u => u.email.toLower) email.toLower w.users).isSome, "23505")]
        w.users (row, w.users ++ [row])
  | s@(markVerified _) => (.ok (), s.update w)
  | s@(recordFailedLogin _) => (.ok (), s.update w)
  | s@(lockUntil ..) => (.ok (), s.update w)
  | s@(clearLockAndFailures _) => (.ok (), s.update w)
  | s@(setLastLogin _) => (.ok (), s.update w)
  | s@(updatePasswordHash ..) => (.ok (), s.update w)
  | s@(setMfaRequired ..) => (.ok (), s.update w)
  | s@(setStatus ..) => (.ok (), s.update w)

end UserStmt

/-! ### `roles`, `permissions` and their links -/

/-- The statements on the RBAC tables.  `setUserRoles` and `setRolePermissions`
are the commits of their transactions. -/
inductive RbacStmt
  | rolesOf (userId : String)
  | permissionsOf (userId : String)
  | addRole (userId roleName : String)
  | setUserRoles (userId : String) (roleNames : List String)
  | setRolePermissions (roleId : String) (permissionNames : List String)
  deriving DecidableEq

/-- `ORDER BY name`. -/
def orderByName (names : List String) : List String := names.insertionSort (· ≤ ·)

namespace Rbac

/-- The names of the roles of a user. -/
def rolesOf (rbac : Rbac) (userId : String) : List String :=
  orderByName ((rbac.roles.filter fun role => (userId, role.id) ∈ rbac.userRoles).map NameRow.name)

/-- The names of the permissions a user has through roles, without repetition. -/
def permissionsOf (rbac : Rbac) (userId : String) : List String :=
  orderByName ((rbac.permissions.filter fun permission =>
    (rbac.userRoles.any fun link =>
      link.1 = userId && (link.2, permission.id) ∈ rbac.rolePermissions)).map NameRow.name).dedup

/-- The identifiers of the rows with one of the given names. -/
def idsNamed (rows : List NameRow) (names : List String) : List String :=
  (rows.filter fun row => row.name ∈ names).map NameRow.id

end Rbac

namespace RbacStmt

abbrev Ans : RbacStmt → Type
  | rolesOf _ | permissionsOf _ => List String
  | _ => Unit

def effect (w : World) : (s : RbacStmt) → Except Err s.Ans × Rbac
  | rolesOf userId => (.ok (w.rbac.rolesOf userId), w.rbac)
  | permissionsOf userId => (.ok (w.rbac.permissionsOf userId), w.rbac)
  | addRole userId roleName =>
      let links := (Rbac.idsNamed w.rbac.roles [roleName]).map (userId, ·)
      constrained [(links ≠ [] && !(decide (w.hasUser userId)), "23503")] w.rbac
        ((), { w.rbac with
          userRoles := w.rbac.userRoles ++ links.filter (· ∉ w.rbac.userRoles) })
  | setUserRoles userId roleNames =>
      let links := (Rbac.idsNamed w.rbac.roles roleNames).map (userId, ·)
      constrained [(links ≠ [] && !(decide (w.hasUser userId)), "23503")] w.rbac
        ((), { w.rbac with
          userRoles := (w.rbac.userRoles.filter fun link => link.1 ≠ userId) ++ links })
  | setRolePermissions roleId permissionNames =>
      let links := (Rbac.idsNamed w.rbac.permissions permissionNames).map (roleId, ·)
      constrained [(links ≠ [] && roleId ∉ w.rbac.roles.map NameRow.id, "23503")] w.rbac
        ((), { w.rbac with
          rolePermissions :=
            (w.rbac.rolePermissions.filter fun link => link.1 ≠ roleId) ++ links })

end RbacStmt

/-! ### `oauth_clients` -/

/-- The parameters of `ClientRepository.create`. -/
structure CreateClientData where
  name : String
  clientType : ClientType
  redirectUris : List String
  allowedScopes : List String
  grantTypes : List String
  requirePkce : Bool
  tokenEndpointAuthMethod : TokenEndpointAuthMethod
  deriving DecidableEq, Repr

/-- The row `ClientRepository.create` inserts. -/
def CreateClientData.row (data : CreateClientData) (r clientId : String)
    (secretHash : Option String) : OAuthClientRow where
  id := r
  clientId := clientId
  clientSecretHash := secretHash
  name := data.name
  clientType := data.clientType
  redirectUris := data.redirectUris
  allowedScopes := data.allowedScopes
  grantTypes := data.grantTypes
  tokenEndpointAuthMethod := data.tokenEndpointAuthMethod
  requirePkce := data.requirePkce

/-- The statements of `client.repository.ts`. -/
inductive ClientStmt
  | findByClientId (clientId : String)
  | insert (clientId : String) (secretHash : Option String) (data : CreateClientData)
  | rotateSecret (id hash : String)
  | setStatus (id : String) (status : ClientStatus)
  deriving DecidableEq

namespace ClientStmt

abbrev Ans : ClientStmt → Type
  | findByClientId _ => Option OAuthClientRow
  | insert .. => OAuthClientRow
  | _ => Unit

/-- The identifier an `UPDATE oauth_clients` is about. -/
def target : ClientStmt → Option String
  | rotateSecret id _ | setStatus id _ => some id
  | _ => none

/-- What an `UPDATE oauth_clients` does to the row it is about. -/
def change : ClientStmt → OAuthClientRow → OAuthClientRow
  | rotateSecret _ hash, r => { r with clientSecretHash := some hash }
  | setStatus _ status, r => { r with status := status }
  | _, r => r

def effect (r : String) (w : World) : (s : ClientStmt) → Except Err s.Ans × List OAuthClientRow
  | findByClientId clientId => (.ok (w.client clientId), w.clients)
  | insert clientId secretHash data =>
      let row := data.row r clientId secretHash
      constrained [((w.client clientId).isSome, "23505")] w.clients (row, w.clients ++ [row])
  | s@(rotateSecret id _) => (.ok (), updateWhere (fun c => c.id = id) s.change w.clients)
  | s@(setStatus id _) => (.ok (), updateWhere (fun c => c.id = id) s.change w.clients)

end ClientStmt

/-! ### `authorization_codes` -/

/-- The parameters of `AuthorizationCodeRepository.issue`. -/
structure IssueCodeData where
  clientId : String
  userId : String
  redirectUri : String
  scope : String
  nonce : Option String
  codeChallenge : Option String
  codeChallengeMethod : Option CodeChallengeMethod
  ttlSeconds : Nat
  deriving DecidableEq

/-- The row `AuthorizationCodeRepository.issue` inserts. -/
def IssueCodeData.row (data : IssueCodeData) (r : String) (w : World) (codeHash : String)
    (client : OAuthClientRow) : AuthorizationCodeRow where
  id := r
  codeHash := codeHash
  clientId := client.id
  userId := data.userId
  redirectUri := data.redirectUri
  scope := data.scope
  nonce := data.nonce
  codeChallenge := data.codeChallenge
  codeChallengeMethod := data.codeChallengeMethod
  expiresAt := w.after data.ttlSeconds

/-- The statements of `authorization-code.repository.ts` on its table. -/
inductive CodeStmt
  | insert (codeHash : String) (data : IssueCodeData)
  | selectJoined (codeHash : String)
  | consume (id : String)
  deriving DecidableEq

namespace CodeStmt

abbrev Ans : CodeStmt → Type
  | insert .. => Unit
  | selectJoined _ => Option JoinedRow
  | consume _ => Option AuthorizationCodeRow

/-- `JOIN oauth_clients c ON c.id = ac.client_id`. -/
def join (w : World) (row : AuthorizationCodeRow) : Option JoinedRow :=
  (lookup OAuthClientRow.id row.clientId w.clients).map fun client => ⟨row, client.clientId⟩

/-- The rows the conditional `UPDATE` of `consume` is about. -/
abbrev fresh (id : String) (row : AuthorizationCodeRow) : Prop :=
  row.id = id ∧ row.consumedAt = none

/-- `SET consumed_at = now()`. -/
def consumed (now : Nat) (row : AuthorizationCodeRow) : AuthorizationCodeRow :=
  { row with consumedAt := some now }

def effect (r : String) (w : World) : (s : CodeStmt) → Except Err s.Ans × List AuthorizationCodeRow
  | insert codeHash data =>
      match w.client data.clientId with
      | none => (.error (.db "23502"), w.codes)
      | some client =>
          constrained [((w.code codeHash).isSome, "23505"),
              (!(decide (w.hasUser data.userId)), "23503")] w.codes
            ((), w.codes ++ [data.row r w codeHash client])
  | selectJoined codeHash => (.ok ((w.code codeHash).bind (join w)), w.codes)
  | consume id =>
      (.ok (returning (fresh id) (consumed w.now) w.codes).head?,
        updateWhere (fresh id) (consumed w.now) w.codes)

end CodeStmt

/-! ### `sessions` -/

/-- The parameters of `SessionRepository.create`. -/
structure CreateSessionData where
  userId : String
  clientId : Option String := none
  ip : Option String := none
  userAgent : Option String := none
  deviceId : Option String := none
  mfaPassed : Bool := false
  ttlSeconds : Nat
  deriving DecidableEq

/-- The row `SessionRepository.create` inserts. -/
def CreateSessionData.row (data : CreateSessionData) (r : String) (w : World) : SessionRow where
  id := r
  userId := data.userId
  clientId := data.clientId
  ip := data.ip
  userAgent := data.userAgent
  deviceId := data.deviceId
  mfaPassed := data.mfaPassed
  lastSeenAt := w.now
  expiresAt := w.after data.ttlSeconds

/-- The statements of `session.repository.ts`, and those on `sessions` of
`refresh-token.service.ts` and `mfa.service.ts`. -/
inductive SessionStmt
  | insert (data : CreateSessionData)
  | selectById (id : String)
  | touch (id : String)
  | revoke (id reason : String)
  | selectActive (userId : String)
  | revokeAllForUser (userId reason : String)
  | markMfaPassed (id : String)
  deriving DecidableEq

namespace SessionStmt

abbrev Ans : SessionStmt → Type
  | insert _ => SessionRow
  | selectById _ => Option SessionRow
  | selectActive _ => List String
  | _ => Unit

/-- The `WHERE` clause of an `UPDATE sessions`. -/
def «where» : SessionStmt → SessionRow → Bool
  | touch id, r | markMfaPassed id, r => r.id = id
  | revoke id _, r => r.id = id && r.status = .active
  | revokeAllForUser userId _, r => r.userId = userId && r.status = .active
  | _, _ => false

/-- The `SET` clause of an `UPDATE sessions`. -/
def change (now : Nat) : SessionStmt → SessionRow → SessionRow
  | touch _, r => { r with lastSeenAt := now }
  | markMfaPassed _, r => { r with mfaPassed := true }
  | revoke _ reason, r | revokeAllForUser _ reason, r =>
      { r with status := .revoked, revokedAt := some now, revokeReason := some reason }
  | _, r => r

def update (s : SessionStmt) (w : World) : List SessionRow :=
  updateWhere (fun r => s.where r = true) (s.change w.now) w.sessions

def effect (r : String) (w : World) : (s : SessionStmt) → Except Err s.Ans × List SessionRow
  | insert data =>
      let row := data.row r w
      constrained [(!(decide (w.hasUser data.userId)), "23503"),
        (data.clientId.any fun id => !(decide (w.hasClient id)), "23503")] w.sessions
        (row, w.sessions ++ [row])
  | selectById id => (.ok (w.session id), w.sessions)
  | selectActive userId =>
      (.ok ((w.sessions.filter fun r => r.userId = userId && r.status = .active).map SessionRow.id),
        w.sessions)
  | s@(touch _) => (.ok (), s.update w)
  | s@(revoke ..) => (.ok (), s.update w)
  | s@(revokeAllForUser ..) => (.ok (), s.update w)
  | s@(markMfaPassed _) => (.ok (), s.update w)

end SessionStmt

/-! ### `refresh_tokens` -/

/-- The parameters of the `INSERT` of `RefreshTokenService.issue`. -/
structure IssueRefreshData where
  sessionId : String
  userId : String
  clientId : Option String
  tokenHash : String
  familyId : String
  previousTokenId : Option String
  scope : String
  ttlSeconds : Nat
  deriving DecidableEq

/-- The row `RefreshTokenService.issue` inserts. -/
def IssueRefreshData.row (data : IssueRefreshData) (r : String) (w : World) : RefreshTokenRow where
  id := r
  sessionId := data.sessionId
  userId := data.userId
  clientId := data.clientId
  tokenHash := data.tokenHash
  familyId := data.familyId
  previousTokenId := data.previousTokenId
  scope := data.scope
  expiresAt := w.after data.ttlSeconds

/-- The statements on `refresh_tokens`.  The five ways to revoke differ in
their `WHERE` clause. -/
inductive RefreshStmt
  | insert (data : IssueRefreshData)
  | rotate (tokenHash : String)
  | selectByHash (tokenHash : String)
  | revokeFamily (familyId : String)
  | revokeByToken (tokenHash : String)
  | revokeBySession (sessionId : String)
  | revokeByUser (userId : String)
  | revokeForReplay (userId clientRef : String)
  deriving DecidableEq

namespace RefreshStmt

abbrev Ans : RefreshStmt → Type
  | rotate _ | selectByHash _ => Option RefreshTokenRow
  | revokeByToken _ => Nat
  | _ => Unit

/-- `status IN ('active', 'rotated')`. -/
def live (r : RefreshTokenRow) : Bool := r.status = .active || r.status = .rotated

/-- The `WHERE` clause of an `UPDATE refresh_tokens`. -/
def «where» (w : World) : RefreshStmt → RefreshTokenRow → Bool
  | rotate hash, r => r.tokenHash = hash && r.status = .active && w.now < r.expiresAt
  | revokeFamily familyId, r => r.familyId = familyId && live r
  | revokeByToken hash, r => r.tokenHash = hash && live r
  | revokeBySession sessionId, r => r.sessionId = sessionId && r.status = .active
  | revokeByUser userId, r => r.userId = userId && live r
  | revokeForReplay userId clientRef, r =>
      r.userId = userId && live r &&
        (w.clients.any fun c => c.clientId = clientRef && r.clientId = some c.id)
  | _, _ => false

/-- The `SET` clause of an `UPDATE refresh_tokens`. -/
def change (now : Nat) : RefreshStmt → RefreshTokenRow → RefreshTokenRow
  | rotate _, r => { r with status := .rotated, rotatedAt := some now }
  | revokeFamily _, r | revokeByToken _, r | revokeBySession _, r | revokeByUser _, r
  | revokeForReplay .., r => { r with status := .revoked, revokedAt := some now }
  | _, r => r

def update (s : RefreshStmt) (w : World) : List RefreshTokenRow :=
  updateWhere (fun r => s.where w r = true) (s.change w.now) w.refreshTokens

/-- `RETURNING` of an `UPDATE refresh_tokens`. -/
def updated (s : RefreshStmt) (w : World) : List RefreshTokenRow :=
  returning (fun r => s.where w r = true) (s.change w.now) w.refreshTokens

def effect (r : String) (w : World) : (s : RefreshStmt) → Except Err s.Ans × List RefreshTokenRow
  | insert data =>
      constrained [((w.refreshToken data.tokenHash).isSome, "23505"),
          (!(decide (w.hasSession data.sessionId)), "23503"),
          (!(decide (w.hasUser data.userId)), "23503"),
          (data.clientId.any fun id => !(decide (w.hasClient id)), "23503"),
          (data.previousTokenId.any fun id => id ∉ w.refreshTokens.map RefreshTokenRow.id,
            "23503")] w.refreshTokens
        ((), w.refreshTokens ++ [data.row r w])
  | s@(rotate _) => (.ok (s.updated w).head?, s.update w)
  | selectByHash hash => (.ok (w.refreshToken hash), w.refreshTokens)
  | s@(revokeByToken _) => (.ok (s.updated w).length, s.update w)
  | s@(revokeFamily _) => (.ok (), s.update w)
  | s@(revokeBySession _) => (.ok (), s.update w)
  | s@(revokeByUser _) => (.ok (), s.update w)
  | s@(revokeForReplay ..) => (.ok (), s.update w)

end RefreshStmt

/-! ### `mfa_methods` -/

/-- The statements of `mfa.service.ts` on its table. -/
inductive MfaStmt
  | upsertPending (userId secret : String)
  | activate (userId : String)
  | hasActive (userId : String)
  | selectByStatus (userId : String) (status : MfaStatus)
  | touchUsed (id : String)
  | disable (id : String)
  deriving DecidableEq

namespace MfaStmt

abbrev Ans : MfaStmt → Type
  | hasActive _ => Bool
  | selectByStatus .. => Option MfaMethodRow
  | _ => Unit

def effect (r : String) (w : World) : (s : MfaStmt) → Except Err s.Ans × List MfaMethodRow
  | upsertPending userId secret =>
      if w.mfaMethods.any fun m => m.userId = userId then
        (.ok (), updateWhere (fun m => m.userId = userId)
          (fun m => { m with
            secret := secret, status := .pending, enrolledAt := none, lastUsedAt := none })
          w.mfaMethods)
      else
        constrained [(!(decide (w.hasUser userId)), "23503")] w.mfaMethods
          ((), w.mfaMethods ++
            [{ id := r, userId := userId, secret := secret, status := .pending }])
  | activate userId =>
      (.ok (), updateWhere (fun m => m.userId = userId)
        (fun m => { m with status := .active, enrolledAt := some w.now, isPrimary := true })
        w.mfaMethods)
  | hasActive userId =>
      (.ok (w.mfaMethods.any fun m => m.userId = userId && m.status = .active), w.mfaMethods)
  | selectByStatus userId status =>
      (.ok (w.mfaMethods.find? fun m => m.userId = userId && m.status = status), w.mfaMethods)
  | touchUsed id =>
      (.ok (), updateWhere (fun m => m.id = id)
        (fun m => { m with lastUsedAt := some w.now }) w.mfaMethods)
  | disable id =>
      (.ok (), updateWhere (fun m => m.id = id)
        (fun m => { m with status := .disabled }) w.mfaMethods)

end MfaStmt

/-! ### `email_verifications` and `password_reset_tokens` -/

/-- The statements of `email-token.service.ts`. -/
inductive EmailTokenStmt
  | insertVerification (userId tokenHash email : String) (ttlSeconds : Nat)
  | consumeVerification (tokenHash : String)
  | insertReset (userId tokenHash : String) (ttlSeconds : Nat)
  | consumeReset (tokenHash : String)
  deriving DecidableEq

namespace EmailTokenStmt

abbrev Ans : EmailTokenStmt → Type
  | consumeVerification _ => Option EmailVerificationRow
  | consumeReset _ => Option PasswordResetRow
  | _ => Unit

/-- The row the `UPDATE` of `consumeEmailVerification` is about. -/
abbrev verifiable (w : World) (hash : String) (v : EmailVerificationRow) : Prop :=
  v.tokenHash = hash ∧ v.consumedAt = none ∧ w.now < v.expiresAt

/-- The row the `UPDATE` of `consumePasswordReset` is about. -/
abbrev resettable (w : World) (hash : String) (v : PasswordResetRow) : Prop :=
  v.tokenHash = hash ∧ v.usedAt = none ∧ w.now < v.expiresAt

def effect (r : String) (w : World) : (s : EmailTokenStmt) →
    Except Err s.Ans × List EmailVerificationRow × List PasswordResetRow
  | insertVerification userId hash email ttl =>
      constrained
        [((lookup EmailVerificationRow.tokenHash hash w.emailVerifications).isSome, "23505"),
          (!(decide (w.hasUser userId)), "23503")] (w.emailVerifications, w.passwordResetTokens)
        ((), w.emailVerifications ++ [{
          id := r, userId := userId, tokenHash := hash, email := email
          expiresAt := w.after ttl }], w.passwordResetTokens)
  | consumeVerification hash =>
      let consumed := fun v : EmailVerificationRow => { v with consumedAt := some w.now }
      (.ok (returning (verifiable w hash) consumed w.emailVerifications).head?,
        updateWhere (verifiable w hash) consumed w.emailVerifications, w.passwordResetTokens)
  | insertReset userId hash ttl =>
      constrained [((lookup PasswordResetRow.tokenHash hash w.passwordResetTokens).isSome, "23505"),
          (!(decide (w.hasUser userId)), "23503")] (w.emailVerifications, w.passwordResetTokens)
        ((), w.emailVerifications, w.passwordResetTokens ++ [{
          id := r, userId := userId, tokenHash := hash, expiresAt := w.after ttl }])
  | consumeReset hash =>
      let used := fun v : PasswordResetRow => { v with usedAt := some w.now }
      (.ok (returning (resettable w hash) used w.passwordResetTokens).head?,
        w.emailVerifications, updateWhere (resettable w hash) used w.passwordResetTokens)

end EmailTokenStmt

/-! ### Redis -/

/-- The commands of `redis.service.ts` as the services use them: `get` and
`set` of a text, `getJson` and `setJson` of the two kinds of JSON documents, and
the commands on sets.  `delByPrefix` is one command for all keys it finds. -/
inductive RedisStmt
  | getText (key : RedisKey)
  | getSession (key : RedisKey)
  | getChallenge (key : RedisKey)
  | set (key : RedisKey) (value : RedisValue) (ttlSeconds : Option Nat)
  | del (key : RedisKey)
  | delSessions
  | setAdd (key : RedisKey) (member : String)
  | setSize (key : RedisKey)
  | setExpire (key : RedisKey) (ttlSeconds : Nat)
  deriving DecidableEq

namespace RedisStmt

abbrev Ans : RedisStmt → Type
  | getText _ => Option String
  | getSession _ => Option SessionRow
  | getChallenge _ => Option MfaChallengePayload
  | setSize _ => Nat
  | _ => Unit

/-- The members of the set under a key. -/
def membersAt (w : World) (key : RedisKey) : List String :=
  match w.redis.get w.now key with
  | some (.members values) => values
  | _ => []

def effect (w : World) : (s : RedisStmt) → Except Err s.Ans × Cache RedisKey RedisValue
  | getText key =>
      (.ok (match w.redis.get w.now key with | some (.text value) => some value | _ => none),
        w.redis)
  | getSession key =>
      (.ok (match w.redis.get w.now key with | some (.session row) => some row | _ => none),
        w.redis)
  | getChallenge key =>
      (.ok (match w.redis.get w.now key with | some (.challenge p) => some p | _ => none), w.redis)
  | set key value ttl =>
      -- `if (ttlSeconds)`: a lifetime of zero is no lifetime
      (.ok (), w.redis.set w.now key value (if ttl = some 0 then none else ttl))
  | del key => (.ok (), w.redis.del key)
  | delSessions =>
      (.ok (), w.redis.delWhere fun key => match key with | .sess _ => true | _ => false)
  | setAdd key member =>
      -- a new member leaves the expiry of the key as it is
      let values := membersAt w key
      let expiry := (w.redis.find? fun p => p.1 = key).bind fun p =>
        if Cache.alive w.now p.2 then p.2.expiresAt else none
      (.ok (), if member ∈ values then w.redis
        else (key, ⟨.members (values ++ [member]), expiry⟩) :: w.redis.del key)
  | setSize key => (.ok (membersAt w key).length, w.redis)
  | setExpire key ttl => (.ok (), w.redis.expire w.now key ttl)

end RedisStmt

/-! ### The key service and the JWT library -/

/-- Signing and verification.  `jwtVerify kid token requiredClaims` checks
`token` with the public key `kid`. -/
inductive KmsStmt
  | currentSigningKey
  | publicKey (kid : String)
  | newestPublicKey
  | sign (kid : String) (payload : JwtPayload)
  | jwtVerify (kid : String) (token : Jws) (requiresScope : Bool)
  deriving DecidableEq

namespace KmsStmt

abbrev Ans : KmsStmt → Type
  | currentSigningKey | publicKey _ => String
  | newestPublicKey => Option String
  | sign .. => Jws
  | jwtVerify .. => JwtPayload

/-- The claims check of `jwtVerify` with `clockTolerance: 5`, at a time in
milliseconds: the required claims, issuer, audience, `nbf` and `exp`. -/
def verifyClaims (config : AppConfig) (now : Nat) (payload : JwtPayload) (requiresScope : Bool) :
    Except Err JwtPayload :=
  if payload.jti.isNone || (requiresScope && payload.scope.isNone) ||
      payload.iss ≠ config.jwtIssuer || payload.aud ≠ config.jwtAudience ||
      payload.nbf > now / 1000 + 5 then
    .error (.jose "ERR_JWT_CLAIM_VALIDATION_FAILED")
  else if payload.exp + 5 ≤ now / 1000 then .error (.jose "ERR_JWT_EXPIRED")
  else .ok payload

def effect (config : AppConfig) (r : String) (w : World) :
    (s : KmsStmt) → Except Err s.Ans × List String × List Jws
  | currentSigningKey =>
      match w.signingKeys with
      | kid :: _ => (.ok kid, w.signingKeys, w.signed)
      | [] => (.ok r, [r], w.signed)
  | publicKey kid =>
      (if kid ∈ w.signingKeys then .ok kid else .error (.kms ("Unknown signing key: " ++ kid)),
        w.signingKeys, w.signed)
  | newestPublicKey => (.ok w.signingKeys.head?, w.signingKeys, w.signed)
  | sign kid payload =>
      (.ok ⟨"EdDSA", some kid, payload⟩, w.signingKeys, ⟨"EdDSA", some kid, payload⟩ :: w.signed)
  | jwtVerify kid token requiresScope =>
      (if token.alg ≠ "EdDSA" then .error (.jose "ERR_JOSE_ALG_NOT_ALLOWED")
        else if token ∈ w.signed ∧ token.kid = some kid then
          verifyClaims config w.now token.payload requiresScope
        else .error (.jose "ERR_JWS_SIGNATURE_VERIFICATION_FAILED"), w.signingKeys, w.signed)

end KmsStmt

/-! ### The runtime and the outside -/

/-- The clock, the random generators, Argon2 and TOTP, and the mail server. -/
inductive RuntimeStmt
  | dateNow
  | randomUuid
  | randomToken
  | newClientId
  | newClientSecret
  | totpSecret
  | argon2Hash (plain : String)
  | totpCheck (code secret : String)
  | sendMail (mail : Mail)
  deriving DecidableEq

namespace RuntimeStmt

abbrev Ans : RuntimeStmt → Type
  | dateNow => Nat
  | totpCheck .. => Bool
  | sendMail _ => Unit
  | _ => String

def effect (P : Platform) (r : String) (w : World) : (s : RuntimeStmt) →
    Except Err s.Ans × List Mail
  | dateNow => (.ok w.now, w.mail)
  | randomUuid => (.ok r, w.mail)
  | randomToken => (.ok r, w.mail)
  | newClientId => (.ok r, w.mail)
  | newClientSecret => (.ok r, w.mail)
  | totpSecret => (.ok r, w.mail)
  | argon2Hash _ => (.ok r, w.mail)
  | totpCheck code secret => (.ok (P.totpCheck code secret w.now), w.mail)
  | sendMail mail => (.ok (), mail :: w.mail)

end RuntimeStmt

/-- The records written for later inspection. -/
inductive LogStmt
  | auditEvent (event : AuditEvent)
  | riskEvent (row : RiskEventRow)
  deriving DecidableEq

abbrev LogStmt.Ans (_ : LogStmt) : Type := Unit

def LogStmt.effect (w : World) : (s : LogStmt) →
    Except Err s.Ans × List AuditEvent × List RiskEventRow
  | .auditEvent event => (.ok (), event :: w.auditLogs, w.riskEvents)
  | .riskEvent row => (.ok (), w.auditLogs, row :: w.riskEvents)

/-! ### All statements -/

/-- One atomic statement. -/
inductive Stmt
  | users (s : UserStmt)
  | rbac (s : RbacStmt)
  | clients (s : ClientStmt)
  | codes (s : CodeStmt)
  | sessions (s : SessionStmt)
  | refreshTokens (s : RefreshStmt)
  | mfaMethods (s : MfaStmt)
  | emailTokens (s : EmailTokenStmt)
  | redis (s : RedisStmt)
  | kms (s : KmsStmt)
  | runtime (s : RuntimeStmt)
  | log (s : LogStmt)
  deriving DecidableEq

namespace Stmt

abbrev Ans : Stmt → Type
  | users s => s.Ans
  | rbac s => s.Ans
  | clients s => s.Ans
  | codes s => s.Ans
  | sessions s => s.Ans
  | refreshTokens s => s.Ans
  | mfaMethods s => s.Ans
  | emailTokens s => s.Ans
  | redis s => s.Ans
  | kms s => s.Ans
  | runtime s => s.Ans
  | log s => s.Ans

/-- The answer of a statement and the state after it, `r` being the random
value it may take. -/
def effect (P : Platform) (r : String) (w : World) : (s : Stmt) → Except Err s.Ans × World
  | users s => ((s.effect r w).1, { w with users := (s.effect r w).2 })
  | rbac s => ((s.effect w).1, { w with rbac := (s.effect w).2 })
  | clients s => ((s.effect r w).1, { w with clients := (s.effect r w).2 })
  | codes s => ((s.effect r w).1, { w with codes := (s.effect r w).2 })
  | sessions s => ((s.effect r w).1, { w with sessions := (s.effect r w).2 })
  | refreshTokens s => ((s.effect r w).1, { w with refreshTokens := (s.effect r w).2 })
  | mfaMethods s => ((s.effect r w).1, { w with mfaMethods := (s.effect r w).2 })
  | emailTokens s =>
      ((s.effect r w).1, { w with
        emailVerifications := (s.effect r w).2.1
        passwordResetTokens := (s.effect r w).2.2 })
  | redis s => ((s.effect w).1, { w with redis := (s.effect w).2 })
  | kms s =>
      ((s.effect P.config r w).1, { w with
        signingKeys := (s.effect P.config r w).2.1
        signed := (s.effect P.config r w).2.2 })
  | runtime s => ((s.effect P r w).1, { w with mail := (s.effect P r w).2 })
  | log s =>
      ((s.effect w).1, { w with auditLogs := (s.effect w).2.1, riskEvents := (s.effect w).2.2 })

/-- The parameters of UUID columns. -/
def uuidParams : Stmt → List String
  | users (.findById id) | users (.emailOf id) => [id]
  | users s => s.target.toList
  | rbac (.rolesOf id) | rbac (.permissionsOf id) | rbac (.addRole id _)
  | rbac (.setUserRoles id _) | rbac (.setRolePermissions id _) => [id]
  | clients (.rotateSecret id _) | clients (.setStatus id _) => [id]
  | codes (.insert _ data) => [data.userId]
  | codes (.consume id) => [id]
  | sessions (.insert data) => data.userId :: data.clientId.toList
  | sessions (.selectById id) | sessions (.touch id) | sessions (.revoke id _)
  | sessions (.selectActive id) | sessions (.revokeAllForUser id _)
  | sessions (.markMfaPassed id) => [id]
  | refreshTokens (.insert data) =>
      [data.sessionId, data.userId, data.familyId] ++ data.clientId.toList ++
        data.previousTokenId.toList
  | refreshTokens (.revokeFamily id) | refreshTokens (.revokeBySession id)
  | refreshTokens (.revokeByUser id) | refreshTokens (.revokeForReplay id _) => [id]
  | mfaMethods (.upsertPending id _) | mfaMethods (.activate id) | mfaMethods (.hasActive id)
  | mfaMethods (.selectByStatus id _) | mfaMethods (.touchUsed id)
  | mfaMethods (.disable id) => [id]
  | emailTokens (.insertVerification id _ _ _) | emailTokens (.insertReset id _ _) => [id]
  | log (.auditEvent event) => event.userId.toList
  | log (.riskEvent row) => row.userId.toList
  | _ => []

/-- The form of the random value a statement takes, if it takes one. -/
def generates (P : Platform) (w : World) : Stmt → Option (String → Bool)
  | users (.insert ..) | clients (.insert ..) | codes (.insert ..) | sessions (.insert ..)
  | refreshTokens (.insert ..) | mfaMethods (.upsertPending ..)
  | emailTokens (.insertVerification ..) | emailTokens (.insertReset ..)
  | runtime .randomUuid => some isUuid
  | runtime .randomToken => some isRandomToken
  | runtime .newClientId => some isClientId
  | runtime .newClientSecret => some fun r => "cst_".toList <+: r.toList
  | runtime .totpSecret => some fun r => r ≠ ""
  | runtime (.argon2Hash plain) => some fun r => P.argon2Verify r plain = some true
  | kms .currentSigningKey => if w.signingKeys = [] then some fun r => r ≠ "" else none
  | _ => none

/-- Execute a statement with the random value `r`, which a statement that takes
one refuses when it has the wrong form or is not new. -/
def exec (P : Platform) (s : Stmt) (r : String) (w : World) : Option (Except Err s.Ans × World) :=
  if s.uuidParams.all isUuid then
    match s.generates P w with
    | none => some (s.effect P r w)
    | some form =>
        if form r && r ∉ w.generated then
          some ((s.effect P r w).1, { (s.effect P r w).2 with generated := r :: w.generated })
        else none
  else some (.error (.db "22P02"), w)

end Stmt

/-- The last `k` decimal digits of `n`, the lowest first. -/
def digits : Nat → Nat → List Char
  | 0, _ => []
  | k + 1, n => Char.ofNat (48 + n % 10) :: digits k (n / 10)

/-- A UUID with the number `n`. -/
def sampleUuid (n : Nat) : String :=
  let zeros := List.replicate 4 '0'
  String.ofList (digits 4 n ++ zeros ++ '-' :: zeros ++ '-' :: zeros ++ '-' :: zeros ++
    '-' :: zeros ++ zeros ++ zeros)

/-- Random values for `Platform.sample`, numbered by the step. -/
def Stmt.sampleRandom (s : Stmt) (n : Nat) : String :=
  match s with
  | .runtime .randomToken => String.ofList (digits 4 n ++ List.replicate 39 'x')
  | .runtime .newClientId =>
      String.ofList ('c' :: 'l' :: 'i' :: '_' :: digits 4 n ++ List.replicate 12 '0')
  | .runtime .newClientSecret => String.ofList ('c' :: 's' :: 't' :: '_' :: digits 4 n)
  | .runtime (.argon2Hash plain) => plain ++ String.ofList ('#' :: digits 4 n)
  | .runtime .totpSecret => String.ofList ('s' :: digits 4 n)
  | _ => sampleUuid n

/-- The statements as the signature of programs. -/
abbrev statements : Signature := ⟨Stmt, Stmt.Ans⟩

/-- What the services are written in. -/
abbrev Prog := Program statements Err

/-- Issue one statement. -/
abbrev query (s : Stmt) : Prog s.Ans := Program.perform (S := statements) s

end IdentityPlatform
