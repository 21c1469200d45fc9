/-
# The authorization server

The routes of `app.factory.ts` as one `Machine`: a request is an endpoint with
its parsed input, its handler is what the route runs, and the shared state is
`World`.  Rate limiting and schema validation come before the handlers and only
refuse requests; they are not part of the machine, so it answers more requests
than the server does.

Between two statements of a handler anything may happen: other handlers, the
passage of time, a rotation of the signing key, and any change of the cached
copies of sessions.
-/

import IdentityPlatform.Interleaving.Machine
import IdentityPlatform.Common.Guards
import IdentityPlatform.Modules.Auth
import IdentityPlatform.Modules.OAuth
import IdentityPlatform.Modules.Roles

namespace IdentityPlatform

open Interleaving Program Relational

/-- The body of `POST /mfa/verify`: a login challenge with a code, or the code
of an enrollment. -/
inductive MfaVerifyBody
  | challenge (mfaChallengeId code : String)
  | enrollment (code : String)
  deriving DecidableEq, Repr

/-- The requests of the authorization server. -/
inductive Request
  | register (input : RegisterInput)
  | verifyEmail (token : String)
  | login (email password : String)
  | refresh (refreshToken : String)
  | logout (bearer : Option WireToken) (allSessions : Bool) (refreshToken : Option String)
  | forgotPassword (email : String)
  | resetPassword (token password : String)
  | me (bearer : Option WireToken)
  | mfaEnroll (bearer : Option WireToken)
  | mfaVerify (bearer : Option WireToken) (body : MfaVerifyBody)
  | mfaDisable (bearer : Option WireToken) (code : String)
  | setRolePermissions (bearer : Option WireToken) (id : String) (permissions : List String)
  | setUserRoles (bearer : Option WireToken) (id : String) (roles : List String)
  | setUserStatus (bearer : Option WireToken) (id : String) (disabled : Bool)
  | createClient (bearer : Option WireToken) (data : CreateClientData)
  | rotateClientSecret (bearer : Option WireToken) (id : String)
  | setClientStatus (bearer : Option WireToken) (id : String) (status : ClientStatus)
  | authorize (bearer : Option WireToken) (input : AuthorizeInput) (state : Option String)
  | token (form : TokenForm) (basicAuth : Option BasicAuth)
  | introspect (token : WireToken) (basicAuth : Option BasicAuth)
  | revoke (token : WireToken)
  | userinfo (bearer : Option WireToken)
  deriving DecidableEq, Repr

/-- A request with its context. -/
structure Incoming where
  request : Request
  ctx : RequestContext := {}
  deriving DecidableEq, Repr

/-- The claims `/userinfo` returns. -/
structure UserInfo where
  sub : String
  email : Option String := none
  emailVerified : Option Bool := none
  givenName : Option String := none
  familyName : Option String := none
  preferredUsername : Option String := none
  deriving DecidableEq, Repr

/-- The answers of the authorization server. -/
inductive Response
  | status (text : String)
  | registered (user : PublicUser)
  | session (result : LoginResultSuccess)
  | mfaRequired (mfaChallengeId : String)
  | loggedOut (revokedSessions : Nat)
  | profile (profile : Profile)
  | enrollment (enrollment : Enrollment)
  | client (row : OAuthClientRow) (secret : Option String)
  | clientSecret (secret : String)
  | redirect (redirect : AuthorizeRedirect)
  | tokens (response : TokenResponse)
  | introspection (result : Introspection)
  | userInfo (info : UserInfo)
  deriving DecidableEq, Repr

/-- A UUID column compares values, and the spelling of a UUID in a request may
have capitals. -/
def canonicalUuid (id : String) : String := id.toLower

namespace AuthServer

variable (P : Platform)

/-- The record of an administrative change. -/
def recordAdmin (eventType : String) (user : AuthenticatedUser) (ctx : RequestContext)
    (metadata : List (String × AuditValue)) : Prog Unit :=
  AuditLogService.record
    { eventType := eventType, userId := some user.sub, requestId := some ctx.requestId
      metadata := metadata }

/-- Authentication with a permission, as every `/admin` route has it. -/
def admin (bearer : Option WireToken) (permission : String) : Prog AuthenticatedUser := do
  let user ← authenticate bearer
  requirePermission permission user
  pure user

/-- `POST /mfa/enroll`. -/
def mfaEnroll (bearer : Option WireToken) (ctx : RequestContext) : Prog Response := do
  let user ← authenticate bearer
  let email ← MfaService.getEmailForUser user.sub
  let enrollment ← MfaService.beginEnroll P user.sub email
  AuditLogService.record
    { eventType := "MFA_ENROLL_STARTED", userId := some user.sub, ip := ctx.ip
      requestId := some ctx.requestId }
  pure (.enrollment enrollment)

/-- `POST /mfa/verify`. -/
def mfaVerify (bearer : Option WireToken) (body : MfaVerifyBody) (ctx : RequestContext) :
    Prog Response := do
  let user ← maybeAuthenticate bearer
  match body with
  | .challenge mfaChallengeId code => do
      let result ← AuthService.completeMfaChallenge P mfaChallengeId code ctx
      pure (.session result)
  | .enrollment code => do
      let user ← orThrow user (.authError "Authentication required" "AUTH_REQUIRED")
      MfaService.confirmEnroll user.sub code
      AuditLogService.record
        { eventType := "MFA_ENABLED", userId := some user.sub, ip := ctx.ip
          requestId := some ctx.requestId }
      pure (.status "mfa_enabled")

/-- `POST /mfa/disable`. -/
def mfaDisable (bearer : Option WireToken) (code : String) (ctx : RequestContext) :
    Prog Response := do
  let user ← authenticate bearer
  MfaService.disable user.sub code
  AuditLogService.record
    { eventType := "MFA_DISABLED", userId := some user.sub, ip := ctx.ip
      requestId := some ctx.requestId }
  pure (.status "mfa_disabled")

/-- `POST /admin/clients`. -/
def createClient (bearer : Option WireToken) (data : CreateClientData) (ctx : RequestContext) :
    Prog Response := do
  let user ← admin bearer "clients:write"
  throwIf (data.clientType = .confidential ∧ "client_credentials" ∈ data.grantTypes ∧
      ¬data.allowedScopes.all fun s => "api.".toList <+: s.toList)
    (.appError 400 "VALIDATION_ERROR" "client_credentials clients may only request api.* scopes")
  let (row, secret) ← ClientRepository.create
    { data with
      requirePkce := true
      tokenEndpointAuthMethod :=
        if data.clientType = .publicClient then .none else data.tokenEndpointAuthMethod }
  recordAdmin "CLIENT_CREATED" user ctx [("client_id", .text row.clientId)]
  pure (.client row secret)

/-- `GET /oauth/authorize`. -/
def authorize (bearer : Option WireToken) (input : AuthorizeInput) (state : Option String)
    (ctx : RequestContext) : Prog Response := do
  let user ← maybeAuthenticate bearer
  let redirect ← OAuthService.authorize P input (user.map AuthenticatedUser.sub) state ctx
  pure (.redirect redirect)

/-- The secret check of `POST /oauth/introspect`; an unknown client fails it. -/
def introspectionSecretVerifies (client : Option OAuthClientRow) (secret : String) : Prog Bool :=
  match client with
  | some client => ClientRepository.verifySecret P client secret
  | none => pure false

/-- `POST /oauth/introspect`. -/
def introspect (token : WireToken) (basicAuth : Option BasicAuth) (ctx : RequestContext) :
    Prog Response := do
  let basic ← orThrow basicAuth
    (.oauthTokenError 401 "invalid_client" "Client authentication required")
  let client ← ClientRepository.findByClientId basic.clientId
  let ok ← introspectionSecretVerifies P client basic.clientSecret
  onlyIf (ok = false) (do
    AuditLogService.record
      { eventType := "INTROSPECTION_DENIED", ip := ctx.ip, requestId := some ctx.requestId
        metadata := [("reason", .text "client_auth_failed")] }
    throw (.oauthTokenError 401 "invalid_client" "Invalid client credentials"))
  let result ← OAuthService.introspect token
  pure (.introspection result)

/-- `GET /userinfo`. -/
def userinfo (bearer : Option WireToken) : Prog Response := do
  let user ← authenticate bearer
  let scopes := words user.scope
  throwIf ("openid" ∉ scopes) (.appError 403 "insufficient_scope" "openid scope required")
  let found ← UserRepository.findById user.sub
  let row ← orThrow found (.appError 404 "not_found" "")
  pure (.userInfo
    { sub := row.id
      email := if "email" ∈ scopes then some row.email else none
      emailVerified := if "email" ∈ scopes then some (row.status = .active) else none
      givenName := if "profile" ∈ scopes then row.firstName else none
      familyName := if "profile" ∈ scopes then row.lastName else none
      preferredUsername := if "profile" ∈ scopes then
        some (String.ofList (row.email.toList.takeWhile (· != '@'))) else none })

/-- What a request runs. -/
def handler (incoming : Incoming) : Prog Response :=
  let ctx := incoming.ctx
  match incoming.request with
  | .register input => do
      let user ← UserService.register P input ctx
      pure (.registered user)
  | .verifyEmail token => do
      UserService.verifyEmail P token ctx
      pure (.status "verified")
  | .login email password => do
      let result ← AuthService.login P email password ctx
      pure (match result with
        | .success result => .session result
        | .mfaRequired mfaChallengeId => .mfaRequired mfaChallengeId)
  | .refresh refreshToken => do
      let result ← AuthService.refresh P refreshToken ctx
      pure (.session result)
  | .logout bearer allSessions refreshToken => do
      let user ← authenticate bearer
      let count ← AuthService.logout P user.sub user.sid allSessions refreshToken ctx
      pure (.loggedOut count)
  | .forgotPassword email => do
      AuthService.forgotPassword P email ctx
      pure (.status "accepted")
  | .resetPassword token password => do
      AuthService.resetPassword P token password ctx
      pure (.status "password_reset")
  | .me bearer => do
      let user ← authenticate bearer
      let profile ← AuthService.me user.sub
      pure (.profile profile)
  | .mfaEnroll bearer => mfaEnroll P bearer ctx
  | .mfaVerify bearer body => mfaVerify P bearer body ctx
  | .mfaDisable bearer code => mfaDisable bearer code ctx
  | .setRolePermissions bearer id permissions => do
      let user ← admin bearer "roles:write"
      RbacRepository.setRolePermissions (canonicalUuid id) permissions
      recordAdmin "ROLE_PERMISSIONS_UPDATED" user ctx [("role_id", .text id)]
      pure (.status "updated")
  | .setUserRoles bearer id roles => do
      let user ← admin bearer "users:write"
      RbacRepository.setUserRoles (canonicalUuid id) roles
      recordAdmin "USER_ROLES_UPDATED" user ctx
        [("target_user_id", .text id), ("roles", .texts roles)]
      pure (.status "updated")
  | .setUserStatus bearer id disabled => do
      let user ← admin bearer "users:write"
      RbacRepository.setUserStatus (canonicalUuid id) (if disabled then .disabled else .active)
      recordAdmin (if disabled then "USER_DISABLED" else "USER_ENABLED") user ctx
        [("target_user_id", .text id)]
      pure (.status "updated")
  | .createClient bearer data => createClient bearer data ctx
  | .rotateClientSecret bearer id => do
      let user ← admin bearer "clients:write"
      let secret ← ClientRepository.rotateSecret (canonicalUuid id)
      recordAdmin "CLIENT_SECRET_ROTATED" user ctx [("target_client_db_id", .text id)]
      pure (.clientSecret secret)
  | .setClientStatus bearer id status => do
      let user ← admin bearer "clients:write"
      ClientRepository.setStatus (canonicalUuid id) status
      recordAdmin (if status = .disabled then "CLIENT_DISABLED" else "CLIENT_UPDATED") user ctx
        [("target_client_db_id", .text id)]
      pure (.status "updated")
  | .authorize bearer input state => authorize P bearer input state ctx
  | .token form basicAuth => do
      let response ← OAuthService.token P form basicAuth ctx
      pure (.tokens response)
  | .introspect token basicAuth => introspect P token basicAuth ctx
  | .revoke token => do
      OAuthService.revoke P token ctx
      pure (.status "revoked")
  | .userinfo bearer => userinfo bearer

/-- What happens outside the handlers. -/
inductive Env
  | tick (ms : Nat)
  | setSessionCache (id : String) (entry : Option (Entry RedisValue))
  | rotateSigningKey (kid : String)
  deriving DecidableEq, Repr

/-- The environment moves; a new key is named unlike the old ones. -/
def Env.apply (w : World) : Env → Option World
  | .tick ms => some { w with now := w.now + ms }
  | .setSessionCache id none => some { w with redis := w.redis.del (.sess id) }
  | .setSessionCache id (some entry) =>
      some { w with redis := (.sess id, entry) :: w.redis.del (.sess id) }
  | .rotateSigningKey kid =>
      if kid ≠ "" ∧ kid ∉ w.signingKeys ∧ kid ∉ w.generated then
        some { w with signingKeys := kid :: w.signingKeys, generated := kid :: w.generated }
      else none

/-- The server: its handlers on the shared state.  A statement that fails for
reasons outside the model fails with the SQLSTATE of a lost connection. -/
def machine : Machine statements Err World Incoming Response String Env where
  handler := handler P
  exec op r w := op.exec P r w
  env e w := e.apply w
  fault := .db "08006"

end AuthServer
end IdentityPlatform
