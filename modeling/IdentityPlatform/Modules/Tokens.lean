/-
# Tokens

`modules/tokens`: refresh tokens with rotation and reuse detection, the signed
access and ID tokens, and the list of revoked access tokens.
-/

import IdentityPlatform.Infrastructure.Statements

namespace IdentityPlatform

open Interleaving Program

/-- The parameters of `RefreshTokenService.issue`. -/
structure RefreshIssue where
  sessionId : String
  userId : String
  clientId : Option String := none
  scope : String
  familyId : Option String := none
  previousTokenId : Option String := none

/-- `{ token, expiresAt }`. -/
structure IssuedRefreshToken where
  token : String
  expiresAt : Nat

/-- What `RefreshTokenService.consume` returns. -/
structure ConsumedRefreshToken where
  row : RefreshTokenRow
  nextToken : String
  expiresAt : Nat

namespace RefreshTokenService

variable (P : Platform)

/-- What `issue` inserts for a token and a family. -/
def issueData (params : RefreshIssue) (token familyId : String) : IssueRefreshData where
  sessionId := params.sessionId
  userId := params.userId
  clientId := params.clientId
  tokenHash := P.sha256Hex token
  familyId := familyId
  previousTokenId := params.previousTokenId
  scope := params.scope
  ttlSeconds := P.config.refreshTokenTtl

/-- `RefreshTokenService.issue`. -/
def issue (params : RefreshIssue) : Prog IssuedRefreshToken := do
  let token ← query (.runtime .randomToken)
  let familyId ← orDo params.familyId (query (.runtime .randomUuid))
  query (.refreshTokens (.insert (issueData P params token familyId)))
  let now ← query (.runtime .dateNow)
  pure ⟨token, now + P.config.refreshTokenTtl * 1000⟩

/-- `handleReuseOrInvalid`: a known hash revokes its family and its session. -/
def handleReuseOrInvalid (tokenHash : String) : Prog Unit := do
  let known ← query (.refreshTokens (.selectByHash tokenHash))
  match known with
  | some knownRow => do
      query (.refreshTokens (.revokeFamily knownRow.familyId))
      query (.sessions (.revoke knownRow.sessionId "refresh_token_reuse"))
      throw (.appError 401 "REFRESH_TOKEN_REUSE" "Refresh token reuse detected - session revoked")
  | none => pure ()

/-- What `consume` issues the successor of a row with. -/
def successor (row : RefreshTokenRow) : RefreshIssue where
  sessionId := row.sessionId
  userId := row.userId
  clientId := row.clientId
  scope := row.scope
  familyId := some row.familyId
  previousTokenId := some row.id

/-- `RefreshTokenService.consume`: rotate an active, unexpired token and issue
its successor. -/
def consume (token : String) : Prog ConsumedRefreshToken := do
  let tokenHash := P.sha256Hex token
  let rotated ← query (.refreshTokens (.rotate tokenHash))
  match rotated with
  | none => do
      handleReuseOrInvalid tokenHash
      throw (.authError "Invalid refresh token" "INVALID_REFRESH_TOKEN")
  | some row => do
      let next ← issue P (successor row)
      pure ⟨row, next.token, next.expiresAt⟩

/-- `RefreshTokenService.revokeByToken`: whether a row was revoked. -/
def revokeByToken (token : WireToken) : Prog Bool := do
  let count ← query (.refreshTokens (.revokeByToken (P.sha256Hex (P.wireText token))))
  pure (count ≠ 0)

/-- `RefreshTokenService.revokeFamily`. -/
def revokeFamily (familyId : String) : Prog Unit := query (.refreshTokens (.revokeFamily familyId))

end RefreshTokenService

namespace TokenRevocationService

/-- The lifetime `revokeUntil` gives its entry:
`Math.max(1, Math.ceil(exp - Date.now() / 1000))`. -/
def ttl (exp now : Nat) : Nat := max 1 ((exp * 1000 - now + 999) / 1000)

/-- `TokenRevocationService.revokeUntil`. -/
def revokeUntil (jti : String) (exp : Nat) : Prog Unit := do
  let now ← query (.runtime .dateNow)
  query (.redis (.set (.jtiRevoked jti) (.text "1") (some (ttl exp now))))

/-- `TokenRevocationService.isRevoked`. -/
def isRevoked (jti : String) : Prog Bool := do
  let value ← query (.redis (.getText (.jtiRevoked jti)))
  pure (value = some "1")

end TokenRevocationService

/-- `AccessTokenInput`. -/
structure AccessTokenInput where
  sub : String
  scope : String
  roles : List String := []
  permissions : List String := []
  sid : Option String := none
  clientId : Option String := none
  amr : Option (List String) := none

/-- What `signAccessToken` returns; `expiresAt` in milliseconds. -/
structure SignedToken where
  token : Jws
  jti : String
  expiresAt : Nat

/-- The extra claims of an ID token. -/
structure IdTokenClaims where
  nonce : Option String := none
  email : Option String := none
  givenName : Option String := none
  familyName : Option String := none

namespace JwtService

variable (P : Platform)

/-- The claims `signAccessToken` signs.  Empty lists and empty strings leave
their claim out. -/
def accessTokenPayload (input : AccessTokenInput) (jti : String) (now ttl : Nat) : JwtPayload where
  iss := P.config.jwtIssuer
  sub := input.sub
  aud := P.config.jwtAudience
  iat := now
  nbf := now
  exp := now + ttl
  jti := some jti
  scope := some input.scope
  roles := if input.roles = [] then none else some input.roles
  permissions := if input.permissions = [] then none else some input.permissions
  sid := input.sid.filter (· ≠ "")
  clientId := input.clientId.filter (· ≠ "")
  amr := input.amr

/-- `JwtService.signAccessToken` with the configured lifetime. -/
def signAccessToken (input : AccessTokenInput) : Prog SignedToken := do
  let kid ← query (.kms .currentSigningKey)
  let ms ← query (.runtime .dateNow)
  let now := ms / 1000
  let jti ← query (.runtime .randomUuid)
  let ttl := P.config.accessTokenTtl
  let token ← query (.kms (.sign kid (accessTokenPayload P input jti now ttl)))
  pure ⟨token, jti, (now + ttl) * 1000⟩

/-- The claims `signIdToken` signs. -/
def idTokenPayload (claims : IdTokenClaims) (audience subject : String) (now ttl : Nat) :
    JwtPayload where
  iss := P.config.jwtIssuer
  sub := subject
  aud := audience
  iat := now
  nbf := now
  exp := now + ttl
  nonce := claims.nonce
  email := claims.email
  givenName := claims.givenName
  familyName := claims.familyName

/-- `JwtService.signIdToken`. -/
def signIdToken (claims : IdTokenClaims) (audience subject : String) (ttlSeconds : Nat) :
    Prog Jws := do
  let kid ← query (.kms .currentSigningKey)
  let ms ← query (.runtime .dateNow)
  query (.kms (.sign kid (idTokenPayload P claims audience subject (ms / 1000) ttlSeconds)))

/-- `mapJoseError`. -/
def mapJoseError : Err → Err
  | .app e => .app e
  | .kms message => .authError message "KMS_ERROR"
  | .jose "ERR_JWT_EXPIRED" => .authError "Token expired" "TOKEN_EXPIRED"
  | .jose "ERR_JWS_SIGNATURE_VERIFICATION_FAILED"
  | .jose "ERR_JWS_VERIFICATION_FAILED" =>
      .authError "Invalid token signature" "INVALID_TOKEN_SIGNATURE"
  | .jose "ERR_JWT_CLAIM_VALIDATION_FAILED" =>
      .authError "Invalid token claims" "INVALID_TOKEN_CLAIMS"
  | .jose "ERR_JWT_MALFORMED" => .authError "Malformed token" "MALFORMED_TOKEN"
  | _ => .authError "Invalid token" "INVALID_TOKEN"

/-- The key a token names, or without a name the newest one. -/
def signingKey (kid : Option String) : Prog (Option String) :=
  match kid.filter (· ≠ "") with
  | some kid => do
      let key ← query (.kms (.publicKey kid))
      pure (some key)
  | none => query (.kms .newestPublicKey)

/-- The body of the `try` of `verifyAccessToken`. -/
def checkAccessToken (token : WireToken) : Prog JwtPayload :=
  match token with
  | .raw _ => throw (.authError "Malformed token" "MALFORMED_TOKEN")
  | .jws token => do
      throwIf (token.alg ≠ "EdDSA")
        (.authError "Unsupported token algorithm" "UNSUPPORTED_TOKEN_ALG")
      let signing ← signingKey token.kid
      let kid ← orThrow signing (.authError "Unknown signing key" "UNKNOWN_SIGNING_KEY")
      let payload ← query (.kms (.jwtVerify kid token false))
      whenSome (payload.jti.filter (· ≠ "")) fun jti => do
        let revoked ← TokenRevocationService.isRevoked jti
        throwIf (revoked = true) (.authError "Token has been revoked" "TOKEN_REVOKED")
      pure payload

/-- `JwtService.verifyAccessToken`, with the checker of `app.factory.ts`. -/
def verifyAccessToken (token : WireToken) : Prog JwtPayload :=
  tryCatch (checkAccessToken token) fun err => throw (mapJoseError err)

end JwtService
end IdentityPlatform
