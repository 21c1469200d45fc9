/-
# Errors

The hierarchy of `common/errors/index.ts` with `OAuthTokenError` of
`oauth.service.ts`: all of them are `AppError`s that carry a status code, a
machine-readable code and a message.  What else the code can throw: the
`CodeReplayError` of the authorization-code repository, `KmsError`, the errors
of the JWT library by their `code`, failed statements by their SQLSTATE, and
what a library throws on input it cannot read.
-/

namespace IdentityPlatform

/-- The classes under `AppError`, as far as they are told apart by
`instanceof`. -/
inductive ErrorClass
  | appError
  | validationError
  | authError
  | invalidCredentialsError
  | forbiddenError
  | conflictError
  | oauthTokenError
  deriving DecidableEq, Repr

/-- `AppError`. -/
structure AppError where
  cls : ErrorClass
  statusCode : Nat
  code : String
  message : String
  details : List (String × String) := []
  deriving DecidableEq, Repr

/-- What a handler can throw. -/
inductive Err
  | app (e : AppError)
  | codeReplay (userId clientRef : String)
  | kms (message : String)
  | jose (code : String)
  | db (sqlState : String)
  | library (name : String)
  deriving DecidableEq, Repr

namespace Err

def appError (statusCode : Nat) (code message : String) : Err :=
  .app ⟨.appError, statusCode, code, message, []⟩

def validationError (message : String) (details : List (String × String)) : Err :=
  .app ⟨.validationError, 400, "VALIDATION_ERROR", message, details⟩

def authError (message code : String) : Err := .app ⟨.authError, 401, code, message, []⟩

def invalidCredentialsError : Err :=
  .app ⟨.invalidCredentialsError, 401, "INVALID_CREDENTIALS", "Invalid credentials", []⟩

def forbiddenError (message code : String) : Err := .app ⟨.forbiddenError, 403, code, message, []⟩

def conflictError (message : String) : Err := .app ⟨.conflictError, 409, "CONFLICT", message, []⟩

def tooManyRequestsError (retryAfterSeconds : Nat) : Err :=
  .app ⟨.appError, 429, "RATE_LIMITED", "Too many requests",
    [("retryAfterSeconds", toString retryAfterSeconds)]⟩

def oauthTokenError (statusCode : Nat) (code description : String) : Err :=
  .app ⟨.oauthTokenError, statusCode, code, description, []⟩

/-- `err instanceof AuthError`: the class itself or the one derived from it. -/
def isAuthError : Err → Bool
  | .app e => e.cls = .authError || e.cls = .invalidCredentialsError
  | _ => false

/-- `(err as AppError).code`. -/
def code? : Err → Option String
  | .app e => some e.code
  | .jose code => some code
  | .db sqlState => some sqlState
  | .codeReplay .. | .kms _ | .library _ => none

end Err

end IdentityPlatform
