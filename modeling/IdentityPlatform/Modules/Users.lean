/-
# Users

`modules/users`: the repository, the single-use tokens of e-mails, the password
rules and the user lifecycle.
-/

import IdentityPlatform.Modules.Audit

namespace IdentityPlatform

open Interleaving Program

namespace UserRepository

/-- `UserRepository.create`. -/
def create (email passwordHash : String) (firstName lastName : Option String) : Prog UserRow :=
  query (.users (.insert email.toLower passwordHash firstName lastName))

def findByEmail (email : String) : Prog (Option UserRow) :=
  query (.users (.findByEmail email.toLower))

def findById (id : String) : Prog (Option UserRow) := query (.users (.findById id))

def markVerified (id : String) : Prog Unit := query (.users (.markVerified id))

def recordFailedLogin (id : String) : Prog Unit := query (.users (.recordFailedLogin id))

def lockUntil (id : String) (until_ : Nat) : Prog Unit := query (.users (.lockUntil id until_))

def clearLockAndFailures (id : String) : Prog Unit := query (.users (.clearLockAndFailures id))

def setLastLogin (id : String) : Prog Unit := query (.users (.setLastLogin id))

def updatePasswordHash (id passwordHash : String) : Prog Unit :=
  query (.users (.updatePasswordHash id passwordHash))

def rolesOf (userId : String) : Prog (List String) := query (.rbac (.rolesOf userId))

def addRole (userId roleName : String) : Prog Unit := query (.rbac (.addRole userId roleName))

def permissionsOf (userId : String) : Prog (List String) := query (.rbac (.permissionsOf userId))

end UserRepository

namespace EmailTokenService

variable (P : Platform)

/-- `EmailTokenService.issueEmailVerification`. -/
def issueEmailVerification (userId email : String) : Prog String := do
  let token ← query (.runtime .randomToken)
  query (.emailTokens (.insertVerification userId (P.sha256Hex token) email.toLower
    P.config.emailVerificationTtl))
  pure token

/-- `EmailTokenService.consumeEmailVerification`: the user the token belongs to. -/
def consumeEmailVerification (token : String) : Prog (Option String) := do
  let row ← query (.emailTokens (.consumeVerification (P.sha256Hex token)))
  pure (row.map EmailVerificationRow.userId)

/-- `EmailTokenService.issuePasswordReset`. -/
def issuePasswordReset (userId : String) : Prog String := do
  let token ← query (.runtime .randomToken)
  query (.emailTokens (.insertReset userId (P.sha256Hex token) P.config.passwordResetTtl))
  pure token

/-- `EmailTokenService.consumePasswordReset`: the user the token belongs to. -/
def consumePasswordReset (token : String) : Prog (Option String) := do
  let row ← query (.emailTokens (.consumeReset (P.sha256Hex token)))
  pure (row.map PasswordResetRow.userId)

end EmailTokenService

/-! ### Passwords -/

/-- `verifyPassword`: a malformed hash behaves like a wrong password. -/
def verifyPassword (P : Platform) (hash plain : String) : Bool :=
  P.argon2Verify hash plain = some true

/-- `hashPassword`. -/
def hashPassword (plain : String) : Prog String := query (.runtime (.argon2Hash plain))

/-- `COMMON_PASSWORDS`. -/
def commonPasswords : List String :=
  ["password", "password1", "password123", "12345678", "123456789", "1234567890", "qwerty123",
    "qwertyuiop", "letmein123", "welcome123", "admin123456", "iloveyou1", "sunshine1", "princess1",
    "football1", "abc123456"]

/-- The text collected under `errors.password`; `none` when nothing is wrong. -/
def passwordPolicyError (minLength : Nat) (password : String) : Option String :=
  let chars := password.toList
  let append (errors : Option String) (wrong : Bool) (text : String) : Option String :=
    if wrong then some (errors.getD "" ++ text) else errors
  let errors := if jsLength password < minLength then
    some ("Must be at least " ++ toString minLength ++ " characters") else none
  let errors := append errors (!chars.any fun c => 'a' ≤ c && c ≤ 'z')
    " Must contain a lowercase letter."
  let errors := append errors (!chars.any fun c => 'A' ≤ c && c ≤ 'Z')
    " Must contain an uppercase letter."
  let errors := append errors (!chars.any fun c => '0' ≤ c && c ≤ '9') " Must contain a digit."
  let errors := append errors (chars.head?.any isSpace || chars.getLast?.any isSpace)
    " Must not start or end with whitespace."
  if password.toLower ∈ commonPasswords then some "This password is too common." else errors

/-- `checkPasswordPolicy`. -/
def checkPasswordPolicy (P : Platform) (password : String) : Prog Unit :=
  match passwordPolicyError P.config.passwordMinLength password with
  | some text => throw (.validationError "Password does not meet the policy" [("password", text)])
  | none => pure ()

/-! ### The lifecycle -/

/-- `PublicUser`. -/
structure PublicUser where
  id : String
  email : String
  firstName : Option String
  lastName : Option String
  status : UserStatus
  mfaRequired : Bool
  createdAt : Nat
  deriving DecidableEq, Repr

/-- `toPublicUser`. -/
def toPublicUser (row : UserRow) : PublicUser :=
  ⟨row.id, row.email, row.firstName, row.lastName, row.status, row.mfaRequired, row.createdAt⟩

/-- `RegisterInput`. -/
structure RegisterInput where
  email : String
  password : String
  firstName : Option String := none
  lastName : Option String := none
  deriving DecidableEq, Repr

namespace UserService

variable (P : Platform)

/-- The second part of `email.split('@')`. -/
def emailDomain (email : String) : String :=
  String.ofList ((email.toList.dropWhile (· != '@')).drop 1 |>.takeWhile (· != '@'))

/-- `UserService.register`. -/
def register (input : RegisterInput) (ctx : RequestContext) : Prog PublicUser := do
  checkPasswordPolicy P input.password
  let existing ← UserRepository.findByEmail input.email
  throwIf (existing.isSome = true) (.conflictError "Email is already registered")
  let passwordHash ← hashPassword input.password
  let user ← UserRepository.create input.email passwordHash input.firstName input.lastName
  UserRepository.addRole user.id "user"
  AuditLogService.record
    { eventType := "USER_REGISTERED", userId := some user.id, ip := ctx.ip
      userAgent := ctx.userAgent, requestId := some ctx.requestId
      metadata := [("email_domain", .text (emailDomain user.email))] }
  let token ← EmailTokenService.issueEmailVerification P user.id user.email
  query (.runtime (.sendMail
    { toAddress := user.email
      subject := "Verify your email address"
      text := "Welcome! Verify your email with this token:\n\n" ++ token ++
        "\n\nPOST it to /auth/verify-email within 24 hours."
      html := some ("<p>Welcome!</p><p>Verify your email by posting this token to " ++
        "<code>/auth/verify-email</code>:</p><pre>" ++ token ++ "</pre>") }))
  pure (toPublicUser user)

/-- `UserService.verifyEmail`. -/
def verifyEmail (token : String) (ctx : RequestContext) : Prog Unit := do
  let consumed ← EmailTokenService.consumeEmailVerification P token
  let userId ← orThrow consumed (.conflictError "Invalid or expired verification token")
  UserRepository.markVerified userId
  AuditLogService.record
    { eventType := "USER_EMAIL_VERIFIED", userId := some userId, ip := ctx.ip
      requestId := some ctx.requestId }

end UserService
end IdentityPlatform
