/-
# The rows of the database

The tables of `infrastructure/database/migrations` that the modelled statements
read or write, under the names of the TypeScript row interfaces.  Identifiers,
hashes and tokens are strings, times are milliseconds of the one clock.
`CHECK (… IN …)` columns are enumerations.
-/

import IdentityPlatform.Infrastructure.Platform

namespace IdentityPlatform

/-- `users.status`. -/
inductive UserStatus
  | active
  | pendingVerification
  | locked
  | disabled
  deriving DecidableEq, Repr

/-- `users`. -/
structure UserRow where
  id : String
  email : String
  passwordHash : String
  firstName : Option String := none
  lastName : Option String := none
  status : UserStatus := .pendingVerification
  failedLoginCount : Nat := 0
  lockedUntil : Option Nat := none
  mfaRequired : Bool := false
  lastLoginAt : Option Nat := none
  passwordChangedAt : Nat
  createdAt : Nat
  updatedAt : Nat
  deriving DecidableEq, Repr

/-- A row of `roles` or of `permissions`: what is read of them. -/
structure NameRow where
  id : String
  name : String
  deriving DecidableEq, Repr

/-- `roles`, `permissions` and the two tables that link them to users. -/
structure Rbac where
  roles : List NameRow := []
  permissions : List NameRow := []
  /-- `(user_id, role_id)` -/
  userRoles : List (String × String) := []
  /-- `(role_id, permission_id)` -/
  rolePermissions : List (String × String) := []
  deriving DecidableEq, Repr

/-- `oauth_clients.client_type`. -/
inductive ClientType
  | confidential
  | publicClient
  deriving DecidableEq, Repr

/-- `oauth_clients.token_endpoint_auth_method`. -/
inductive TokenEndpointAuthMethod
  | clientSecretBasic
  | clientSecretPost
  | none
  deriving DecidableEq, Repr

/-- `oauth_clients.status`. -/
inductive ClientStatus
  | active
  | disabled
  deriving DecidableEq, Repr

/-- `oauth_clients`. -/
structure OAuthClientRow where
  id : String
  clientId : String
  clientSecretHash : Option String
  name : String
  clientType : ClientType
  redirectUris : List String
  allowedScopes : List String
  grantTypes : List String
  tokenEndpointAuthMethod : TokenEndpointAuthMethod
  requirePkce : Bool
  status : ClientStatus := .active
  deriving DecidableEq, Repr

/-- `authorization_codes.code_challenge_method`. -/
inductive CodeChallengeMethod
  | s256
  | plain
  deriving DecidableEq, Repr

/-- `authorization_codes`. -/
structure AuthorizationCodeRow where
  id : String
  codeHash : String
  clientId : String
  userId : String
  redirectUri : String
  scope : String
  nonce : Option String
  codeChallenge : Option String
  codeChallengeMethod : Option CodeChallengeMethod
  expiresAt : Nat
  consumedAt : Option Nat := none
  deriving DecidableEq, Repr

/-- `JoinedRow`: a code with the public identifier of its client. -/
structure JoinedRow where
  code : AuthorizationCodeRow
  clientRef : String
  deriving DecidableEq, Repr

/-- `sessions.status`. -/
inductive SessionStatus
  | active
  | revoked
  deriving DecidableEq, Repr

/-- `sessions`. -/
structure SessionRow where
  id : String
  userId : String
  clientId : Option String
  ip : Option String
  userAgent : Option String
  deviceId : Option String
  mfaPassed : Bool
  status : SessionStatus := .active
  lastSeenAt : Nat
  expiresAt : Nat
  revokedAt : Option Nat := none
  revokeReason : Option String := none
  deriving DecidableEq, Repr

/-- `refresh_tokens.status`. -/
inductive RefreshTokenStatus
  | active
  | rotated
  | revoked
  deriving DecidableEq, Repr

/-- `refresh_tokens`. -/
structure RefreshTokenRow where
  id : String
  sessionId : String
  userId : String
  clientId : Option String
  tokenHash : String
  familyId : String
  previousTokenId : Option String
  scope : String
  status : RefreshTokenStatus := .active
  expiresAt : Nat
  rotatedAt : Option Nat := none
  revokedAt : Option Nat := none
  deriving DecidableEq, Repr

/-- `mfa_methods.status`. -/
inductive MfaStatus
  | pending
  | active
  | disabled
  deriving DecidableEq, Repr

/-- `mfa_methods` with `type = 'totp'`, the only type there is.  The secret is
kept as the plaintext under the envelope encryption of the KMS. -/
structure MfaMethodRow where
  id : String
  userId : String
  secret : String
  status : MfaStatus
  isPrimary : Bool := false
  enrolledAt : Option Nat := none
  lastUsedAt : Option Nat := none
  deriving DecidableEq, Repr

/-- `email_verifications`. -/
structure EmailVerificationRow where
  id : String
  userId : String
  tokenHash : String
  email : String
  expiresAt : Nat
  consumedAt : Option Nat := none
  deriving DecidableEq, Repr

/-- `password_reset_tokens`. -/
structure PasswordResetRow where
  id : String
  userId : String
  tokenHash : String
  expiresAt : Nat
  usedAt : Option Nat := none
  deriving DecidableEq, Repr

/-- A signal of a risk evaluation. -/
structure RiskSignal where
  signal : String
  detail : Option String := none
  deriving DecidableEq, Repr

/-- `RiskLevel`. -/
inductive RiskLevel
  | low
  | medium
  | high
  deriving DecidableEq, Repr

/-- `RiskEvaluation`. -/
structure RiskEvaluation where
  level : RiskLevel
  score : Nat
  signals : List RiskSignal
  deriving DecidableEq, Repr

/-- `risk_events`. -/
structure RiskEventRow where
  userId : Option String
  eventType : String
  evaluation : RiskEvaluation
  actionTaken : RiskAction
  ip : Option String
  userAgent : Option String
  requestId : Option String
  deriving DecidableEq, Repr

/-- A value in the metadata of an audit event. -/
inductive AuditValue
  | text (value : String)
  | number (value : Nat)
  | texts (values : List String)
  | signals (values : List RiskSignal)
  deriving DecidableEq, Repr

/-- `AuditEvent`, also the columns of `audit_logs`. -/
structure AuditEvent where
  eventType : String
  userId : Option String := none
  clientId : Option String := none
  ip : Option String := none
  userAgent : Option String := none
  requestId : Option String := none
  metadata : List (String × AuditValue) := []
  deriving DecidableEq, Repr

end IdentityPlatform
