/-
# The OAuth service

`oauth.service.ts`: authorization requests, the three grants of the token
endpoint, introspection and revocation.
-/

import IdentityPlatform.Modules.Audit
import IdentityPlatform.Modules.Users
import IdentityPlatform.Modules.Sessions
import IdentityPlatform.Modules.Tokens
import IdentityPlatform.Modules.Clients
import IdentityPlatform.Modules.AuthorizationCodes
import IdentityPlatform.Url.Record

namespace IdentityPlatform

open Interleaving Program

/-- `TokenResponse`. -/
structure TokenResponse where
  accessToken : Jws
  tokenType : String := "Bearer"
  expiresIn : Int
  refreshToken : Option String := none
  scope : String
  idToken : Option Jws := none
  deriving DecidableEq, Repr

/-- `AuthorizeInput`. -/
structure AuthorizeInput where
  clientId : String
  redirectUri : String
  scope : String
  nonce : Option String := none
  codeChallenge : String
  codeChallengeMethod : CodeChallengeMethod
  deriving DecidableEq, Repr

/-- The parts of the redirect of `authorize`: the URI and the parameters set in
its query. -/
structure AuthorizeRedirect where
  redirectUri : String
  code : String
  state : Option String
  deriving DecidableEq, Repr

/-- The redirect: `new URL(redirect_uri)`, with the parameters set. -/
def AuthorizeRedirect.url (parseFront : List Char → Option (List Char))
    (special : List Char → Bool) (redirect : AuthorizeRedirect) : Option String :=
  (Url.parseUrl parseFront special redirect.redirectUri.toList).map fun url =>
    let params := Url.setParam "code".toList redirect.code.toList url.params
    let params := match redirect.state with
      | some state => Url.setParam "state".toList state.toList params
      | none => params
    String.ofList (url.setQuery params).href

/-- `grant_type`. -/
inductive GrantType
  | authorizationCode
  | clientCredentials
  | refreshToken
  deriving DecidableEq, Repr

/-- The form of the token endpoint. -/
structure TokenForm where
  grantType : GrantType
  code : Option String := none
  redirectUri : Option String := none
  clientId : Option String := none
  clientSecret : Option String := none
  codeVerifier : Option String := none
  scope : Option String := none
  refreshToken : Option String := none
  deriving DecidableEq, Repr

/-- The `Basic` credentials of a request. -/
structure BasicAuth where
  clientId : String
  clientSecret : String
  deriving DecidableEq, Repr

/-- The answer of `introspect`. -/
structure Introspection where
  active : Bool
  sub : Option String := none
  scope : Option String := none
  exp : Option Nat := none
  iat : Option Nat := none
  aud : Option String := none
  iss : Option String := none
  jti : Option String := none
  tokenType : Option String := none
  clientId : Option String := none
  deriving DecidableEq, Repr

/-- `if (!value) throw`, for an optional string: an empty one is falsy too. -/
def requireText (value : Option String) (e : Err) : Prog String :=
  orThrow (value.filter (· ≠ "")) e

/-- `Math.floor((expiresAt.getTime() - Date.now()) / 1000)`. -/
def expiresIn (signed : SignedToken) : Prog Int := do
  let now ← query (.runtime .dateNow)
  pure (((signed.expiresAt : Int) - now) / 1000)

/-- `/^[\w-]{43,128}$/`. -/
def isCodeChallenge (text : String) : Bool :=
  let bytes := utf8 text
  43 ≤ bytes.length && bytes.length ≤ 128 && bytes.all isBase64Url

/-- `/^[A-Za-z0-9\-_.~]{1,512}$/`. -/
def isState (text : String) : Bool :=
  let bytes := utf8 text
  1 ≤ bytes.length && bytes.length ≤ 512 && bytes.all fun b => isBase64Url b || b == 46 || b == 126

namespace OAuthService

variable (P : Platform)

/-- The record of a refused authorization request. -/
def recordDenied (authenticatedUserId : Option String) (ctx : RequestContext)
    (reason clientId : String) : Prog Unit :=
  AuditLogService.record
    { eventType := "AUTHORIZATION_DENIED", userId := authenticatedUserId, ip := ctx.ip
      requestId := some ctx.requestId
      metadata := [("reason", .text reason), ("client_id", .text clientId)] }

/-- `fail` of `authorize`. -/
def authorizeError (code description : String) : Err := .oauthTokenError 400 code description

/-- The checks of `authorize` on the client. -/
def checkAuthorizeRequest (input : AuthorizeInput) (authenticatedUserId : Option String)
    (ctx : RequestContext) : Prog OAuthClientRow := do
  let found ← ClientRepository.findByClientId input.clientId
  let client ← orThrow found (authorizeError "invalid_client" "Unknown client")
  onlyIf (client.status ≠ .active) (do
    recordDenied authenticatedUserId ctx "client_disabled" input.clientId
    throw (authorizeError "unauthorized_client" "Client is disabled"))
  onlyIf (input.redirectUri ∉ client.redirectUris) (do
    recordDenied authenticatedUserId ctx "redirect_uri_mismatch" input.clientId
    throw (authorizeError "invalid_request" "redirect_uri is not registered for this client"))
  throwIf (¬(words input.scope).all (· ∈ client.allowedScopes))
    (authorizeError "invalid_scope" "Requested scope exceeds what the client is allowed")
  throwIf (input.codeChallengeMethod = .plain ∧ client.requirePkce = true)
    (authorizeError "invalid_request" "Only S256 code_challenge_method is allowed")
  throwIf (isCodeChallenge input.codeChallenge = false)
    (authorizeError "invalid_request" "Malformed code_challenge")
  pure client

/-- `OAuthService.authorize`. -/
def authorize (input : AuthorizeInput) (authenticatedUserId state : Option String)
    (ctx : RequestContext) : Prog AuthorizeRedirect := do
  let _client ← checkAuthorizeRequest input authenticatedUserId ctx
  let userId ← requireText authenticatedUserId
    (.oauthTokenError 401 "login_required" "User authentication required")
  let found ← UserRepository.findById userId
  throwIf (¬found.any (·.status = .active))
    (.forbiddenError "User account is not active" "USER_INACTIVE")
  let code ← AuthorizationCodeRepository.issue P
    { clientId := input.clientId, userId := userId, redirectUri := input.redirectUri
      scope := input.scope, nonce := input.nonce, codeChallenge := some input.codeChallenge
      codeChallengeMethod := some input.codeChallengeMethod
      ttlSeconds := P.config.authorizationCodeTtl }
  AuditLogService.record
    { eventType := "AUTHORIZATION_GRANTED", userId := some userId, ip := ctx.ip
      requestId := some ctx.requestId
      metadata := [("client_id", .text input.clientId), ("scope", .text input.scope)] }
  pure ⟨input.redirectUri, code, state.filter fun text => isState text⟩

/-! ### Client authentication -/

/-- `recordClientAuthFailure`. -/
def recordClientAuthFailure (clientDbId : String) (ctx : RequestContext) : Prog Unit :=
  AuditLogService.record
    { eventType := "USER_LOGIN_FAILED", clientId := some clientDbId, ip := ctx.ip
      requestId := some ctx.requestId
      metadata := [("reason", .text "client_auth_failed"), ("grant", .text "unknown")] }

/-- `presentedSecret && await this.clients.verifySecret(client, presentedSecret)`. -/
def secretVerifies (client : OAuthClientRow) (presentedSecret : Option String) : Prog Bool :=
  match presentedSecret.filter (· ≠ "") with
  | none => pure false
  | some secret => ClientRepository.verifySecret P client secret

/-- A secret that verifies, or the failure is recorded. -/
def requireSecret (client : OAuthClientRow) (presentedSecret : Option String)
    (ctx : RequestContext) : Prog Unit := do
  let ok ← secretVerifies P client presentedSecret
  onlyIf (ok = false) (do
    recordClientAuthFailure client.id ctx
    throw (.oauthTokenError 401 "invalid_client" "Invalid client credentials"))

/-- Confidential clients must authenticate, public clients must not. -/
def authenticateClient (client : OAuthClientRow) (presentedSecret : Option String)
    (ctx : RequestContext) : Prog Unit :=
  match client.clientType with
  | .confidential => requireSecret P client presentedSecret ctx
  | .publicClient =>
      throwIf ((presentedSecret.filter (· ≠ "")).isSome = true)
        (.oauthTokenError 400 "invalid_request" "Public clients must not authenticate")

/-! ### Authorization codes -/

/-- `handleCodeReplay`. -/
def handleCodeReplay (userId clientRef : String) (ctx : RequestContext) : Prog Unit := do
  AuthorizationCodeRepository.revokeTokensForReplay userId clientRef
  AuditLogService.record
    { eventType := "REFRESH_TOKEN_REUSE_DETECTED", userId := some userId
      clientId := some clientRef, ip := ctx.ip, requestId := some ctx.requestId
      metadata := [("kind", .text "authorization_code_replay")] }

/-- The `catch` around `peek` and around `consume`. -/
def catchReplay {α : Type} (p : Prog α) (ctx : RequestContext) : Prog α :=
  tryCatch p fun err =>
    match err with
    | .codeReplay userId clientRef => do
        handleCodeReplay userId clientRef ctx
        throw (.oauthTokenError 400 "invalid_grant"
          "Authorization code replay detected - issued tokens revoked")
    | err => throw err

/-- The ID token of an exchange, for a scope text that contains `openid`. -/
def issueIdToken (userId : String) (client : OAuthClientRow) (scope : String)
    (nonce : Option String) : Prog (Option Jws) :=
  if includesText scope "openid" = true then do
    let user ← UserRepository.findById userId
    let profile := includesText scope "profile"
    let idToken ← JwtService.signIdToken P
      { nonce := nonce.filter (· ≠ "")
        email := if includesText scope "email" then user.map UserRow.email else none
        givenName := if profile then user.bind UserRow.firstName else none
        familyName := if profile then user.bind UserRow.lastName else none }
      client.clientId userId P.config.idTokenTtl
    pure (some idToken)
  else pure none

/-- `issueUserTokens`. -/
def issueUserTokens (userId : String) (client : OAuthClientRow) (scope : String)
    (nonce : Option String) (ctx : RequestContext) : Prog TokenResponse := do
  let roles ← UserRepository.rolesOf userId
  let permissions ← UserRepository.permissionsOf userId
  let session ← SessionRepository.create
    { userId := userId, clientId := some client.id, ip := ctx.ip, userAgent := ctx.userAgent
      mfaPassed := true, ttlSeconds := P.config.sessionTtl }
  let signed ← JwtService.signAccessToken P
    { sub := userId, scope := scope, roles := roles, permissions := permissions
      sid := some session.id, clientId := some client.clientId, amr := some ["oauth"] }
  let refresh ← RefreshTokenService.issue P
    { sessionId := session.id, userId := userId, clientId := some client.id, scope := scope }
  let idToken ← issueIdToken P userId client scope nonce
  AuditLogService.record
    { eventType := "TOKEN_ISSUED", userId := some userId, clientId := some client.id, ip := ctx.ip
      requestId := some ctx.requestId
      metadata := [("grant", .text "authorization_code"), ("scope", .text scope)] }
  let expires ← expiresIn signed
  pure
    { accessToken := signed.token, expiresIn := expires, refreshToken := some refresh.token
      scope := scope, idToken := idToken }

/-- The `authorization_code` branch of `token`. -/
def authorizationCodeGrant (form : TokenForm) (clientId : String) (client : OAuthClientRow)
    (presentedSecret : Option String) (ctx : RequestContext) : Prog TokenResponse := do
  let code ← requireText form.code (.oauthTokenError 400 "invalid_request" "code is required")
  let redirectUri ← requireText form.redirectUri
    (.oauthTokenError 400 "invalid_request" "redirect_uri is required")
  let codeVerifier ← requireText form.codeVerifier
    (.oauthTokenError 400 "invalid_request" "PKCE code_verifier is required")
  authenticateClient P client presentedSecret ctx
  let params : PresentedCode := ⟨code, clientId, redirectUri⟩
  -- the first read, so that a wrong verifier does not burn the code
  let found ← catchReplay (AuthorizationCodeRepository.peek P params) ctx
  let peeked ← orThrow found
    (.oauthTokenError 400 "invalid_grant" "Invalid or expired authorization code")
  let codeChallenge ← requireText peeked.code.codeChallenge
    (.oauthTokenError 400 "invalid_grant" "Code was issued without PKCE")
  throwIf (PkceUtil.matches P codeVerifier codeChallenge peeked.code.codeChallengeMethod = false)
    (.oauthTokenError 400 "invalid_grant" "PKCE verification failed")
  let consumed ← catchReplay (AuthorizationCodeRepository.consume P params) ctx
  let codeRow ← orThrow consumed
    (.oauthTokenError 400 "invalid_grant" "Invalid or expired authorization code")
  issueUserTokens P codeRow.userId client codeRow.scope codeRow.nonce ctx

/-! ### Refresh tokens and client credentials -/

/-- The `catch` around `consume` in the `refresh_token` branch.  It looks for
`AuthError`s only. -/
def catchRefreshErrors {α : Type} (p : Prog α) (client : OAuthClientRow) (ctx : RequestContext) :
    Prog α :=
  tryCatch p fun err =>
    if err.isAuthError = true ∧ err.code? = some "REFRESH_TOKEN_REUSE" then do
      AuditLogService.record
        { eventType := "REFRESH_TOKEN_REUSE_DETECTED", ip := ctx.ip
          requestId := some ctx.requestId
          metadata := [("kind", .text "oauth_refresh_reuse"),
            ("client_id", .text client.clientId)] }
      throw (.oauthTokenError 401 "invalid_grant" "Refresh token reuse detected - chain revoked")
    else if err.isAuthError = true ∧ err.code? = some "INVALID_REFRESH_TOKEN" then
      throw (.oauthTokenError 401 "invalid_grant" "Invalid or expired refresh token")
    else throw err

/-- The scope of a refreshed token: the requested narrowing of the original
grant, or the original text. -/
def narrowScope (original : String) (requested : Option String) : Except Err String :=
  let list := words (requested.getD "")
  if list.any (· ∉ words original) then
    .error (.oauthTokenError 400 "invalid_scope" "Scope exceeds original grant")
  else .ok (if list = [] then original else joinWords list)

/-- A refresh token may only be used by its own client. -/
def checkBinding (refreshToken : String) (row : RefreshTokenRow) (client : OAuthClientRow)
    (ctx : RequestContext) : Prog Unit :=
  onlyIf (row.clientId ≠ some client.id) (do
    let _ ← RefreshTokenService.revokeByToken P (.raw refreshToken)
    AuditLogService.record
      { eventType := "REFRESH_TOKEN_REUSE_DETECTED", userId := some row.userId, ip := ctx.ip
        requestId := some ctx.requestId, metadata := [("kind", .text "client_mismatch")] }
    throw (.oauthTokenError 401 "invalid_grant" "Token was not issued to this client"))

/-- The session behind a refresh token must be active; otherwise the family is
revoked and `e` thrown. -/
def requireActiveSession (row : RefreshTokenRow) (e : Err) : Prog SessionRow := do
  let found ← SessionRepository.findById row.sessionId
  match found.filter (·.status = .active) with
  | some session => pure session
  | none => do
      RefreshTokenService.revokeFamily row.familyId
      throw e

/-- The `refresh_token` branch of `token`. -/
def refreshTokenGrant (form : TokenForm) (client : OAuthClientRow)
    (presentedSecret : Option String) (ctx : RequestContext) : Prog TokenResponse := do
  let refreshToken ← requireText form.refreshToken
    (.oauthTokenError 400 "invalid_request" "refresh_token is required")
  authenticateClient P client presentedSecret ctx
  let consumed ← catchRefreshErrors (RefreshTokenService.consume P refreshToken) client ctx
  let row := consumed.row
  checkBinding P refreshToken row client ctx
  let _session ← requireActiveSession row
    (.oauthTokenError 401 "invalid_grant" "Session is no longer active")
  let scope ← Program.done (narrowScope row.scope form.scope)
  let roles ← UserRepository.rolesOf row.userId
  let permissions ← UserRepository.permissionsOf row.userId
  let signed ← JwtService.signAccessToken P
    { sub := row.userId, scope := scope, roles := roles, permissions := permissions
      sid := some row.sessionId, clientId := some client.clientId, amr := some ["oauth"] }
  AuditLogService.record
    { eventType := "TOKEN_ISSUED", userId := some row.userId, clientId := some client.id
      ip := ctx.ip, requestId := some ctx.requestId
      metadata := [("grant", .text "refresh_token"), ("scope", .text scope)] }
  let expires ← expiresIn signed
  pure
    { accessToken := signed.token, expiresIn := expires, refreshToken := some consumed.nextToken
      scope := scope }

/-- The `client_credentials` branch of `token`. -/
def clientCredentialsGrant (form : TokenForm) (client : OAuthClientRow)
    (presentedSecret : Option String) (ctx : RequestContext) : Prog TokenResponse := do
  throwIf (client.clientType = .publicClient)
    (.oauthTokenError 401 "unauthorized_client" "Public clients cannot use client_credentials")
  throwIf (client.tokenEndpointAuthMethod = .none)
    (.oauthTokenError 401 "unauthorized_client"
      "This client is not configured for secret authentication")
  requireSecret P client presentedSecret ctx
  throwIf ("client_credentials" ∉ client.grantTypes)
    (.oauthTokenError 401 "unauthorized_client" "Grant type not allowed for this client")
  let requested := words (form.scope.getD "")
  throwIf (requested = []) (.oauthTokenError 400 "invalid_scope" "scope is required")
  throwIf (¬requested.all (· ∈ client.allowedScopes))
    (.oauthTokenError 400 "invalid_scope" "Requested scope exceeds allowance")
  let scope := joinWords requested
  let signed ← JwtService.signAccessToken P
    { sub := client.clientId, scope := scope, roles := ["service"]
      clientId := some client.clientId, amr := some ["client_secret"] }
  AuditLogService.record
    { eventType := "TOKEN_ISSUED", clientId := some client.id, ip := ctx.ip
      requestId := some ctx.requestId
      metadata := [("grant", .text "client_credentials"), ("scope", .text scope)] }
  let expires ← expiresIn signed
  pure { accessToken := signed.token, expiresIn := expires, scope := scope }

/-- `OAuthService.token`. -/
def token (form : TokenForm) (basicAuth : Option BasicAuth) (ctx : RequestContext) :
    Prog TokenResponse := do
  let clientId ← requireText ((basicAuth.map BasicAuth.clientId).or form.clientId)
    (.oauthTokenError 401 "invalid_client" "Client authentication required")
  let presentedSecret := (basicAuth.map BasicAuth.clientSecret).or form.clientSecret
  let found ← ClientRepository.findByClientId clientId
  let client ← orThrow (found.filter (·.status = .active))
    (.oauthTokenError 401 "invalid_client" "Invalid client")
  match form.grantType with
  | .authorizationCode => authorizationCodeGrant P form clientId client presentedSecret ctx
  | .refreshToken => refreshTokenGrant P form client presentedSecret ctx
  | .clientCredentials => clientCredentialsGrant P form client presentedSecret ctx

/-! ### Introspection and revocation -/

/-- `OAuthService.introspect`. -/
def introspect (token : WireToken) : Prog Introspection :=
  tryCatch (do
    let payload ← JwtService.verifyAccessToken token
    pure
      { active := true, sub := some payload.sub, scope := payload.scope, exp := some payload.exp
        iat := some payload.iat, aud := some payload.aud, iss := some payload.iss
        jti := payload.jti, tokenType := some "access_token", clientId := payload.clientId })
    fun _ => pure { active := false }

/-- The `try` of `revoke`: kill the session of an access token and put the token
itself on the list of revoked ones. -/
def revokeAccessToken (token : WireToken) (ctx : RequestContext) : Prog Unit := do
  let payload ← JwtService.verifyAccessToken token
  whenSome (payload.sid.filter (· ≠ "")) fun sid =>
    SessionRepository.revoke sid "token_revocation"
  whenSome (payload.jti.filter (· ≠ "")) fun jti =>
    onlyIf (payload.exp ≠ 0) (TokenRevocationService.revokeUntil jti payload.exp)
  AuditLogService.record
    { eventType := "TOKEN_REVOKED", userId := some payload.sub, ip := ctx.ip
      requestId := some ctx.requestId, metadata := [("kind", .text "access_token")] }

/-- `OAuthService.revoke`. -/
def revoke (token : WireToken) (ctx : RequestContext) : Prog Unit := do
  let wasRefresh ← RefreshTokenService.revokeByToken P token
  if wasRefresh = true then
    AuditLogService.record
      { eventType := "TOKEN_REVOKED", ip := ctx.ip, requestId := some ctx.requestId
        metadata := [("kind", .text "refresh_token")] }
  else tryCatch (revokeAccessToken token ctx) fun _ => pure ()

end OAuthService
end IdentityPlatform
