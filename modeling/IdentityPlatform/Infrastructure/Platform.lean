/-
# Configuration and the libraries around the services

`AppConfig` holds the settings of `config/index.ts` that the services read, with
the defaults of `envSchema`.  `Platform` is what the services call and this
repository does not contain: SHA-256, Argon2, the TOTP check, the serialisation
of JSON web tokens and the two renderers of the enrollment page.  Each is a
parameter; what the code relies on is a hypothesis where it is used.

Tokens on the wire are strings.  `WireToken` keeps apart those the JWT library
can decode from the others, so a signed token is its header and claims; how it
is spelled out matters only where a token is hashed (`Platform.wireText`).
-/

import IdentityPlatform.Common.Text

namespace IdentityPlatform

/-- `RISK_HIGH_SCORE_ACTION`. -/
inductive RiskAction
  | deny
  | mfa
  | allow
  deriving DecidableEq, Repr

/-- `AppConfig`.  Lifetimes are in seconds. -/
structure AppConfig where
  jwtIssuer : String := "https://auth.local"
  jwtAudience : String := "api"
  accessTokenTtl : Nat := 900
  refreshTokenTtl : Nat := 60 * 60 * 24 * 14
  authorizationCodeTtl : Nat := 120
  idTokenTtl : Nat := 3600
  sessionTtl : Nat := 60 * 60 * 24 * 30
  passwordMinLength : Nat := 12
  emailVerificationTtl : Nat := 60 * 60 * 24
  passwordResetTtl : Nat := 60 * 30
  riskFailedLoginsThreshold : Nat := 5
  riskHighScoreAction : RiskAction := .mfa
  maxFailedLogins : Nat := 5
  lockoutMinutes : Nat := 15
  mfaIssuer : String := "Identity Platform"
  mfaChallengeTtl : Nat := 300

/-- The claims of the access and ID tokens (`JWTPayload` with the additions of
`AccessTokenPayload` and `signIdToken`).  Times are in seconds. -/
structure JwtPayload where
  iss : String
  sub : String
  aud : String
  iat : Nat
  nbf : Nat
  exp : Nat
  jti : Option String := none
  scope : Option String := none
  roles : Option (List String) := none
  permissions : Option (List String) := none
  sid : Option String := none
  clientId : Option String := none
  amr : Option (List String) := none
  nonce : Option String := none
  email : Option String := none
  givenName : Option String := none
  familyName : Option String := none
  deriving DecidableEq, Repr

/-- A JSON web token with a protected header. -/
structure Jws where
  alg : String
  kid : Option String
  payload : JwtPayload
  deriving DecidableEq, Repr

/-- A token as a request presents it. -/
inductive WireToken
  | raw (text : String)
  | jws (token : Jws)
  deriving DecidableEq, Repr

/-- The functions of the runtime and of third-party packages.

`argon2Verify` is `none` where `argon2.verify` throws, on a malformed hash;
`totpCheck code secret now` is `authenticator.check` at a time. -/
structure Platform where
  config : AppConfig
  sha256Hex : String → String
  sha256Base64Url : String → String
  argon2Verify : String → String → Option Bool
  totpCheck : String → String → Nat → Bool
  compact : Jws → String
  keyuri : String → String → String → String
  qrDataUrl : String → String

/-- The text of a presented token. -/
def Platform.wireText (P : Platform) : WireToken → String
  | .raw text => text
  | .jws token => P.compact token

/-- A platform to run the services on: texts are their own hashes behind a
letter, and a password hash is the password with a salt after `#`. -/
def Platform.sample : Platform where
  config := {}
  sha256Hex text := "h" ++ text
  sha256Base64Url text := "u" ++ text
  argon2Verify hash plain := some ((utf8 hash).takeWhile (· != 35) = utf8 plain)
  totpCheck code _ _ := code = "123456"
  compact token := token.payload.sub
  keyuri _ _ secret := secret
  qrDataUrl url := url

end IdentityPlatform
