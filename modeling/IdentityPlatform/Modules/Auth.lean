/-
# The authentication service

`auth.service.ts`: login with lockout, risk and second factor, refresh, logout
and the password reset.
-/

import IdentityPlatform.Modules.Audit
import IdentityPlatform.Modules.Users
import IdentityPlatform.Modules.Sessions
import IdentityPlatform.Modules.Tokens
import IdentityPlatform.Modules.Mfa
import IdentityPlatform.Modules.Risk
import IdentityPlatform.Modules.OAuth

namespace IdentityPlatform

open Interleaving Program

/-- The user in a `LoginResultSuccess`; `refresh` leaves the last two empty. -/
structure LoginUser where
  id : String
  email : String
  status : Option UserStatus
  deriving DecidableEq, Repr

/-- `LoginResultSuccess`. -/
structure LoginResultSuccess where
  accessToken : Jws
  tokenType : String := "Bearer"
  expiresIn : Int
  refreshToken : String
  refreshExpiresAt : Nat
  scope : String
  roles : List String
  user : LoginUser
  deriving DecidableEq, Repr

/-- The two outcomes of a login. -/
inductive LoginResult
  | success (result : LoginResultSuccess)
  | mfaRequired (mfaChallengeId : String)
  deriving DecidableEq, Repr

/-- What `me` returns. -/
structure Profile where
  id : String
  email : String
  firstName : Option String
  lastName : Option String
  status : UserStatus
  roles : List String
  permissions : List String
  mfaEnabled : Bool
  deriving DecidableEq, Repr

/-- `defaultScopeForRoles`. -/
def defaultScopeForRoles (roles : List String) : String :=
  joinWords (["openid", "profile", "email", "api.read"] ++
    if "admin" ∈ roles then ["api.write"] else [])

namespace AuthService

variable (P : Platform)

/-- `issueSessionTokensForSession`. -/
def issueSessionTokensForSession (sessionId userId : String) (amr : List String)
    (ctx : RequestContext) : Prog LoginResultSuccess := do
  let found ← UserRepository.findById userId
  let user ← orThrow found (.authError "User not found" "USER_NOT_FOUND")
  let roles ← UserRepository.rolesOf userId
  let permissions ← UserRepository.permissionsOf userId
  let scope := defaultScopeForRoles roles
  let signed ← JwtService.signAccessToken P
    { sub := userId, scope := scope, roles := roles, permissions := permissions
      sid := some sessionId, amr := some amr }
  let refresh ← RefreshTokenService.issue P
    { sessionId := sessionId, userId := userId, scope := scope }
  UserRepository.setLastLogin userId
  UserRepository.clearLockAndFailures userId
  AuditLogService.record
    { eventType := "USER_LOGIN_SUCCESS", userId := some userId, ip := ctx.ip
      userAgent := ctx.userAgent, requestId := some ctx.requestId
      metadata := [("session_id", .text sessionId), ("amr", .texts amr)] }
  AuditLogService.record
    { eventType := "TOKEN_ISSUED", userId := some userId, ip := ctx.ip
      requestId := some ctx.requestId
      metadata := [("kind", .text "access+refresh"), ("session_id", .text sessionId)] }
  let expires ← expiresIn signed
  pure
    { accessToken := signed.token, expiresIn := expires, refreshToken := refresh.token
      refreshExpiresAt := refresh.expiresAt, scope := scope, roles := roles
      user := ⟨user.id, user.email, some user.status⟩ }

/-- The session a login creates. -/
def createLoginSession (userId : String) (ctx : RequestContext) (mfaPassed : Bool) :
    Prog SessionRow :=
  SessionRepository.create
    { userId := userId, ip := ctx.ip, userAgent := ctx.userAgent
      deviceId := some (deviceFingerprint P (ctx.userAgent.getD ""))
      mfaPassed := mfaPassed, ttlSeconds := P.config.sessionTtl }

/-- `issueSessionTokens`. -/
def issueSessionTokens (userId : String) (ctx : RequestContext) (amr : List String) :
    Prog LoginResultSuccess := do
  let session ← createLoginSession P userId ctx (amr.contains "mfa")
  issueSessionTokensForSession P session.id userId amr ctx

/-- `isKnownDevice`. -/
def isKnownDevice (userId : String) (ctx : RequestContext) : Prog Bool :=
  match ctx.userAgent.filter (· ≠ ""), ctx.ip.filter (· ≠ "") with
  | some userAgent, some ip => do
      let key := RedisKey.riskDevice userId (deviceFingerprint P userAgent)
      let seen ← query (.redis (.getText key))
      match seen.filter (· ≠ "") with
      | some _ => pure true
      | none => do
          query (.redis (.set key (.text ip) (some (60 * 60 * 24 * 30))))
          pure false
  | _, _ => pure false

/-- The wrong-password branch of `login`. -/
def rejectPassword (user : UserRow) (ctx : RequestContext) : Prog Unit := do
  UserRepository.recordFailedLogin user.id
  let failures := user.failedLoginCount + 1
  onlyIf (failures ≥ P.config.maxFailedLogins) (do
    let now ← query (.runtime .dateNow)
    UserRepository.lockUntil user.id (now + P.config.lockoutMinutes * 60000)
    AuditLogService.record
      { eventType := "USER_LOCKED", userId := some user.id, ip := ctx.ip
        userAgent := ctx.userAgent, requestId := some ctx.requestId
        metadata := [("failures", .number failures)] })
  AuditLogService.record
    { eventType := "USER_LOGIN_FAILED", userId := some user.id, ip := ctx.ip
      userAgent := ctx.userAgent, requestId := some ctx.requestId
      metadata := [("reason", .text "bad_password"), ("failures", .number failures)] }
  throw .invalidCredentialsError

/-- The record of a login with an unknown address. -/
def rejectUnknown (ctx : RequestContext) : Prog UserRow := do
  AuditLogService.record
    { eventType := "USER_LOGIN_FAILED", ip := ctx.ip, userAgent := ctx.userAgent
      requestId := some ctx.requestId, metadata := [("reason", .text "unknown_email")] }
  throw .invalidCredentialsError

/-- The first half of `login`: the account gates and the password. -/
def checkCredentials (email password : String) (ctx : RequestContext) : Prog UserRow := do
  let found ← UserRepository.findByEmail email
  let user ← orDo found (rejectUnknown ctx)
  let now ← query (.runtime .dateNow)
  throwIf (user.status = .disabled) (.forbiddenError "Account is disabled" "ACCOUNT_DISABLED")
  throwIf (user.lockedUntil.any (· > now) = true)
    (.appError 423 "ACCOUNT_LOCKED" "Account temporarily locked")
  onlyIf (verifyPassword P user.passwordHash password = false) (rejectPassword P user ctx)
  throwIf (user.status = .pendingVerification)
    (.authError "Email address not verified" "EMAIL_NOT_VERIFIED")
  pure user

/-- The risk evaluation of `login`: the action to take. -/
def evaluateRisk (userId : String) (ctx : RequestContext) : Prog RiskAction := do
  let knownDevice ← isKnownDevice P userId ctx
  let evaluation ← RulesRiskEngine.evaluateLogin P
    { userId := userId, ip := ctx.ip, userAgent := ctx.userAgent, knownDevice := knownDevice }
  onlyIf (evaluation.level = .high ∨ evaluation.level = .medium)
    (AuditLogService.record
      { eventType := "SUSPICIOUS_LOGIN", userId := some userId, ip := ctx.ip
        userAgent := ctx.userAgent, requestId := some ctx.requestId
        metadata := [("score", .number evaluation.score),
          ("signals", .signals evaluation.signals)] })
  let action := if evaluation.level = .high then P.config.riskHighScoreAction else .allow
  recordRiskEvent
    { userId := some userId, eventType := "login", evaluation := evaluation, actionTaken := action
      ip := ctx.ip, userAgent := ctx.userAgent, requestId := some ctx.requestId }
  onlyIf (action = .deny) (do
    AuditLogService.record
      { eventType := "AUTHORIZATION_DENIED", userId := some userId, ip := ctx.ip
        requestId := some ctx.requestId, metadata := [("reason", .text "high_risk_login")] }
    throw (.appError 403 "RISK_DENIED" "Login denied due to suspicious activity"))
  pure action

/-- `AuthService.login`. -/
def login (email password : String) (ctx : RequestContext) : Prog LoginResult := do
  let user ← checkCredentials P email password ctx
  let action ← evaluateRisk P user.id ctx
  let hasMfa ← MfaService.hasActiveMethod user.id
  if hasMfa = true ∨ action = .mfa then do
    throwIf (hasMfa = false ∧ action = .mfa)
      (.appError 403 "MFA_ENROLLMENT_REQUIRED"
        "Additional verification is required. Enroll a second factor first.")
    let session ← createLoginSession P user.id ctx false
    let challengeId ← MfaService.createLoginChallenge P user.id session.id
    pure (.mfaRequired challengeId)
  else do
    let result ← issueSessionTokens P user.id ctx ["pwd"]
    pure (.success result)

/-- `AuthService.completeMfaChallenge`. -/
def completeMfaChallenge (challengeId code : String) (ctx : RequestContext) :
    Prog LoginResultSuccess := do
  let sessionId ← MfaService.verifyLoginChallenge P challengeId code
  let found ← SessionRepository.findById sessionId
  let session ← orThrow (found.filter (·.status = .active))
    (.authError "Session no longer valid" "SESSION_INVALID")
  AuditLogService.record
    { eventType := "MFA_CHALLENGE_SUCCEEDED", userId := some session.userId, ip := ctx.ip
      requestId := some ctx.requestId }
  issueSessionTokensForSession P session.id session.userId ["pwd", "mfa"] ctx

/-- The body of the `try` of `refresh`. -/
def refreshSession (refreshToken : String) (ctx : RequestContext) : Prog LoginResultSuccess := do
  let consumed ← RefreshTokenService.consume P refreshToken
  let row := consumed.row
  let session ← OAuthService.requireActiveSession row
    (.authError "Session revoked" "SESSION_REVOKED")
  let roles ← UserRepository.rolesOf row.userId
  let permissions ← UserRepository.permissionsOf row.userId
  let signed ← JwtService.signAccessToken P
    { sub := row.userId, scope := row.scope, roles := roles, permissions := permissions
      sid := some session.id, clientId := row.clientId
      amr := some (if session.mfaPassed then ["pwd", "mfa"] else ["pwd"]) }
  SessionRepository.touch session.id
  AuditLogService.record
    { eventType := "TOKEN_REFRESHED", userId := some row.userId, clientId := row.clientId
      ip := ctx.ip, requestId := some ctx.requestId
      metadata := [("session_id", .text session.id)] }
  let expires ← expiresIn signed
  pure
    { accessToken := signed.token, expiresIn := expires, refreshToken := consumed.nextToken
      refreshExpiresAt := consumed.expiresAt, scope := row.scope, roles := roles
      user := ⟨row.userId, "", none⟩ }

/-- `AuthService.refresh`. -/
def refresh (refreshToken : String) (ctx : RequestContext) : Prog LoginResultSuccess :=
  tryCatch (refreshSession P refreshToken ctx) fun err => do
    onlyIf (err.code? = some "REFRESH_TOKEN_REUSE")
      (AuditLogService.record
        { eventType := "REFRESH_TOKEN_REUSE_DETECTED", ip := ctx.ip
          requestId := some ctx.requestId })
    throw err

/-- `AuthService.logout`: the number of revoked sessions. -/
def logout (userId : String) (sessionId : Option String) (allSessions : Bool)
    (refreshToken : Option String) (ctx : RequestContext) : Prog Nat :=
  if allSessions = true then do
    let count ← SessionRepository.revokeAllForUser userId "logout_all"
    AuditLogService.record
      { eventType := "USER_LOGOUT", userId := some userId, ip := ctx.ip
        requestId := some ctx.requestId
        metadata := [("scope", .text "all_sessions"), ("revoked_sessions", .number count)] }
    pure count
  else do
    let sid := sessionId.filter (· ≠ "")
    whenSome sid fun sid => SessionRepository.revoke sid "logout"
    whenSome (refreshToken.filter (· ≠ "")) fun refreshToken => do
      let _ ← RefreshTokenService.revokeByToken P (.raw refreshToken)
    AuditLogService.record
      { eventType := "USER_LOGOUT", userId := some userId, ip := ctx.ip
        requestId := some ctx.requestId
        metadata := [("scope", .text (if sid.isSome then "current_session" else "token_only"))] }
    pure (if sid.isSome then 1 else 0)

/-- `AuthService.me`.  The three reads of its `Promise.all` in one order. -/
def me (userId : String) : Prog Profile := do
  let found ← UserRepository.findById userId
  let user ← orThrow found (.authError "User not found" "USER_NOT_FOUND")
  let roles ← UserRepository.rolesOf userId
  let permissions ← UserRepository.permissionsOf userId
  let mfaEnabled ← MfaService.hasActiveMethod userId
  pure ⟨user.id, user.email, user.firstName, user.lastName, user.status, roles, permissions,
    mfaEnabled⟩

/-- `AuthService.forgotPassword`. -/
def forgotPassword (email : String) (ctx : RequestContext) : Prog Unit := do
  let found ← UserRepository.findByEmail email
  match found.filter (·.status ≠ .disabled) with
  | some user => do
      let token ← EmailTokenService.issuePasswordReset P user.id
      query (.runtime (.sendMail
        { toAddress := user.email
          subject := "Reset your password"
          text := "Use this token to reset your password:\n\n" ++ token ++ "\n\nExpires in " ++
            toString (P.config.passwordResetTtl / 60) ++ " minutes." }))
      AuditLogService.record
        { eventType := "PASSWORD_RESET_REQUESTED", userId := some user.id, ip := ctx.ip
          userAgent := ctx.userAgent, requestId := some ctx.requestId }
  | none => pure ()

/-- `AuthService.resetPassword`. -/
def resetPassword (token newPassword : String) (ctx : RequestContext) : Prog Unit := do
  checkPasswordPolicy P newPassword
  let consumed ← EmailTokenService.consumePasswordReset P token
  let userId ← orThrow consumed
    (.appError 400 "INVALID_RESET_TOKEN" "Invalid or expired reset token")
  let passwordHash ← hashPassword newPassword
  UserRepository.updatePasswordHash userId passwordHash
  let _ ← SessionRepository.revokeAllForUser userId "password_reset"
  AuditLogService.record
    { eventType := "PASSWORD_RESET_COMPLETED", userId := some userId, ip := ctx.ip
      requestId := some ctx.requestId }
  AuditLogService.record
    { eventType := "PASSWORD_CHANGED", userId := some userId, ip := ctx.ip
      requestId := some ctx.requestId, metadata := [("via", .text "reset_token")] }

end AuthService
end IdentityPlatform
