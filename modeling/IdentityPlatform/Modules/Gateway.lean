/-
# The API gateway

`modules/gateway`: the verification of access tokens at the edge, the scope check, and
the headers of the request that is passed on to the resource API.  A request comes as the
lines of its header fields; `handle` returns the fields of the request it sends on.
-/

import IdentityPlatform.Common.Guards
import IdentityPlatform.Http.Headers

namespace IdentityPlatform

open Interleaving Program Http

/-- What the gateway is set up with: the shared secret, how the JWT library reads the text
of a token, and how it finds the key of a token among the published ones. -/
structure GatewayConfig where
  gatewaySharedSecret : Option String := none
  parse : String → WireToken
  jwks : Jws → Prog String

/-- `PROTECTED_HEADERS`. -/
def protectedHeaders : List String :=
  ["x-user-id", "x-user-scopes", "x-user-roles", "x-client-id", "x-token-sid"]

namespace RemoteTokenVerifier

/-- The errors of the `catch` of `verify`. -/
def mapError : Err → Err
  | e@(.app _) => e
  | .jose "ERR_JWT_EXPIRED" => .authError "Token expired" "TOKEN_EXPIRED"
  | .jose "ERR_JWKS_NO_MATCHING_KEY"
  | .jose "ERR_JWKS_MULTIPLE_MATCHING_KEYS" =>
      .authError "Unknown signing key" "UNKNOWN_SIGNING_KEY"
  | _ => .authError "Invalid access token" "INVALID_TOKEN"

variable (config : GatewayConfig)

/-- The body of the `try` of `verify`. -/
def check (token : WireToken) : Prog JwtPayload :=
  match token with
  | .raw _ => throw (.jose "ERR_JWS_INVALID")
  | .jws token => do
      throwIf (token.alg ≠ "EdDSA") (.jose "ERR_JOSE_ALG_NOT_ALLOWED")
      let kid ← config.jwks token
      let payload ← query (.kms (.jwtVerify kid token true))
      whenSome (payload.jti.filter (· ≠ "")) fun jti => do
        let revoked ← TokenRevocationService.isRevoked jti
        throwIf (revoked = true) (.authError "Token has been revoked" "TOKEN_REVOKED")
      pure payload

/-- `RemoteTokenVerifier.verify`. -/
def verify (token : WireToken) : Prog JwtPayload :=
  tryCatch (check config token) fun err => throw (mapError err)

end RemoteTokenVerifier

namespace Gateway

/-- `bearerToken`. -/
def bearerToken (headers : Headers) : Option String :=
  match headers.get "authorization" with
  | some (.text header) =>
      if "Bearer ".toList <+: header.toList then
        some (trimText (String.ofList (header.toList.drop 7))) |>.filter (· ≠ "")
      else none
  | _ => none

/-- `authenticateRemote`: `req.user` from the verified token. -/
def authenticateRemote (config : GatewayConfig) (headers : Headers) : Prog AuthenticatedUser := do
  let text ← orThrow (bearerToken headers)
    (.appError 401 "MISSING_TOKEN" "Authorization header required")
  let payload ← RemoteTokenVerifier.verify config (config.parse text)
  pure
    { sub := payload.sub, scope := payload.scope.getD ""
      roles := some (payload.roles.getD []), permissions := some (payload.permissions.getD [])
      sid := payload.sid, clientId := payload.clientId, jti := payload.jti.getD "undefined" }

/-- `requireScopes`: any of the scopes. -/
def requireScopes (anyOf : List String) (user : AuthenticatedUser) : Prog Unit :=
  throwIf (¬anyOf.any (· ∈ words user.scope))
    (.appError 403 "INSUFFICIENT_SCOPE"
      ("Requires one of scopes: " ++ String.intercalate ", " anyOf))

/-- `setHeader` for a value that is set and not empty. -/
def setIfPresent (name : String) (value : Option String) (headers : Headers) : Option Headers :=
  match value.filter (· ≠ "") with
  | some value => headers.setHeader name value
  | none => some headers

/-- `proxyReq`: the headers of the request to the resource API.  A value that cannot be
sent makes `setHeader` throw, and nothing is sent.  `id` is `creq.id`. -/
def proxyReq (config : GatewayConfig) (user : AuthenticatedUser) (id : Option String)
    (headers : Headers) : Option Headers :=
  headers.setHeader "X-User-Id" user.sub
    >>= (·.setHeader "X-User-Scopes" user.scope)
    >>= (·.setHeader "X-User-Roles" (String.intercalate "," (user.roles.getD [])))
    >>= setIfPresent "X-Token-Sid" user.sid
    >>= setIfPresent "X-Client-Id" user.clientId
    >>= setIfPresent "X-Request-Id" id
    >>= setIfPresent "X-Internal-Secret" config.gatewaySharedSecret

/-- The stack on `/api/v1`: identity headers are dropped, the token is verified, and with
the scope `api.read` the request is sent on. -/
def handle (config : GatewayConfig) (id : Option String) (lines : List (String × String)) :
    Prog (Option Headers) := do
  let headers := protectedHeaders.foldl Headers.delete (Headers.receive lines)
  let user ← authenticateRemote config headers
  requireScopes ["api.read"] user
  pure (proxyReq config user id headers)

end Gateway
end IdentityPlatform
