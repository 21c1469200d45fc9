/-
# The state of the platform

`World` is everything outside the handlers: the clock, the tables, the Redis
keys, the signing keys, the outgoing mail and the audit trail.

`generated` lists every random value handed out so far (identifiers, tokens,
salted hashes, secrets), and new ones are taken outside it: that is how the
model says that random values do not collide.  `signed` lists the tokens signed
with the keys of the key service; a signature verifies exactly for those, which
idealises EdDSA.
-/

import IdentityPlatform.Infrastructure.Schema
import IdentityPlatform.Relational.Table
import IdentityPlatform.Relational.Cache
import IdentityPlatform.Common.Text
import IdentityPlatform.Common.Errors

namespace IdentityPlatform

open Relational

/-- The Redis keys in use (`RedisService.key` of the parts), without the
counters of the rate limiter. -/
inductive RedisKey
  | sess (id : String)
  | jtiRevoked (jti : String)
  | mfaChallenge (id : String)
  | riskDevice (userId fingerprint : String)
  | riskFailed (userId : String)
  | riskIps (userId : String)
  | riskGeo (userId fingerprint : String)
  deriving DecidableEq, Repr

/-- `MfaChallengePayload`. -/
structure MfaChallengePayload where
  userId : String
  sessionId : String
  attempts : Nat
  deriving DecidableEq, Repr

/-- What is stored under a key: a text, a JSON document or a set. -/
inductive RedisValue
  | text (value : String)
  | session (row : SessionRow)
  | challenge (payload : MfaChallengePayload)
  | members (values : List String)
  deriving DecidableEq, Repr

/-- `EmailMessage`. -/
structure Mail where
  toAddress : String
  subject : String
  text : String
  html : Option String := none
  deriving DecidableEq, Repr

/-- The state of the platform.  `now` is in milliseconds. -/
structure World where
  now : Nat := 0
  generated : List String := []
  users : List UserRow := []
  rbac : Rbac := {}
  clients : List OAuthClientRow := []
  codes : List AuthorizationCodeRow := []
  sessions : List SessionRow := []
  refreshTokens : List RefreshTokenRow := []
  mfaMethods : List MfaMethodRow := []
  emailVerifications : List EmailVerificationRow := []
  passwordResetTokens : List PasswordResetRow := []
  redis : Cache RedisKey RedisValue := []
  /-- Key identifiers, the newest first. -/
  signingKeys : List String := []
  signed : List Jws := []
  mail : List Mail := []
  auditLogs : List AuditEvent := []
  riskEvents : List RiskEventRow := []

namespace World

variable (w : World)

def hasUser (id : String) : Prop := ∃ r ∈ w.users, r.id = id

def hasClient (id : String) : Prop := ∃ r ∈ w.clients, r.id = id

def hasSession (id : String) : Prop := ∃ r ∈ w.sessions, r.id = id

instance (id : String) : Decidable (w.hasUser id) := List.decidableBEx ..

instance (id : String) : Decidable (w.hasClient id) := List.decidableBEx ..

instance (id : String) : Decidable (w.hasSession id) := List.decidableBEx ..

/-- The user row with an identifier. -/
def user (id : String) : Option UserRow := lookup UserRow.id id w.users

/-- The session row with an identifier. -/
def session (id : String) : Option SessionRow := lookup SessionRow.id id w.sessions

/-- The refresh-token row with a hash. -/
def refreshToken (hash : String) : Option RefreshTokenRow :=
  lookup RefreshTokenRow.tokenHash hash w.refreshTokens

/-- The authorization-code row with a hash. -/
def code (hash : String) : Option AuthorizationCodeRow :=
  lookup AuthorizationCodeRow.codeHash hash w.codes

/-- The client row with a public identifier. -/
def client (clientId : String) : Option OAuthClientRow :=
  lookup OAuthClientRow.clientId clientId w.clients

/-- `value` in seconds from now. -/
def after (seconds : Nat) : Nat := w.now + seconds * 1000

end World

end IdentityPlatform
