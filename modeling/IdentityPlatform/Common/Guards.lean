/-
# Guards

`common/guards`: the bearer authentication of a route and the permission check
on the claims of the token.
-/

import IdentityPlatform.Modules.Tokens

namespace IdentityPlatform

open Interleaving Program

/-- `AuthenticatedUser`. -/
structure AuthenticatedUser where
  sub : String
  scope : String
  roles : Option (List String)
  permissions : Option (List String)
  sid : Option String
  clientId : Option String
  jti : String
  deriving DecidableEq, Repr

/-- `req.user` from the claims of a verified token. -/
def AuthenticatedUser.ofPayload (payload : JwtPayload) : AuthenticatedUser where
  sub := payload.sub
  scope := payload.scope.getD ""
  roles := payload.roles
  permissions := payload.permissions
  sid := payload.sid
  clientId := payload.clientId
  jti := payload.jti.getD ""

/-- `authenticate`: the bearer token of the request. -/
def authenticate (bearer : Option WireToken) : Prog AuthenticatedUser := do
  let token ← orThrow bearer (.authError "Authentication required" "AUTH_REQUIRED")
  let payload ← JwtService.verifyAccessToken token
  pure (.ofPayload payload)

/-- `maybeAuthenticate`: without a bearer token there is no user, with one it
must be good. -/
def maybeAuthenticate (bearer : Option WireToken) : Prog (Option AuthenticatedUser) :=
  match bearer with
  | none => pure none
  | some token => do
      let user ← authenticate (some token)
      pure (some user)

/-- `tokenPermissions`. -/
def tokenPermissions (user : AuthenticatedUser) : List String := words user.scope

/-- The permissions the guard reads off a token. -/
def grantedPermissions (user : AuthenticatedUser) : List String :=
  user.permissions.getD [] ++ tokenPermissions user

/-- Whether a token passes `requirePermission(permission)`. -/
def passes (permission : String) (payload : JwtPayload) : Bool :=
  permission ∈ grantedPermissions (.ofPayload payload)

/-- `requirePermission(permission)` after `authenticate`. -/
def requirePermission (permission : String) (user : AuthenticatedUser) : Prog Unit :=
  throwIf (permission ∉ grantedPermissions user)
    (.forbiddenError ("Missing required permission(s): " ++ permission) "MISSING_PERMISSION")

end IdentityPlatform
