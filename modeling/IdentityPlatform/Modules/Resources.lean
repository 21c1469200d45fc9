/-
# The resource API

`modules/resources`: the resource API never sees a token.  It takes the identity of a
request from the headers that the gateway has set.
-/

import IdentityPlatform.Common.Errors
import IdentityPlatform.Common.Text
import IdentityPlatform.Http.Headers

namespace IdentityPlatform

open Http

/-- `ResourceIdentity`. -/
structure ResourceIdentity where
  userId : Option String
  clientId : Option String
  scopes : List String
  roles : List String
  requestId : Option String
  deriving DecidableEq, Repr

namespace ResourceApi

/-- `asString`. -/
def asString (value : Option HeaderValue) : Option String :=
  match value with
  | some (.text value) => some value |>.filter (· ≠ "")
  | some (.texts values) => values.head?.filter (· ≠ "")
  | none => none

/-- `splitCsvOrSpace`: `value.split(/[\s,]+/).filter(Boolean)`. -/
def splitCsvOrSpace (value : Option String) : List String :=
  (Splitting.runs isListSpace (value.getD "").toList).map String.ofList

/-- `requireGatewaySecret`. -/
def requireGatewaySecret (secret : Option String) (headers : Headers) : Except Err Unit :=
  match secret.filter (· ≠ "") with
  | none => pure ()
  | some secret =>
      if headers.get "x-internal-secret" = some (.text secret) then pure ()
      else throw (.appError 403 "FORBIDDEN_ORIGIN" "Direct access to resource API is not allowed")

/-- `requireIdentity`. -/
def requireIdentity (headers : Headers) : Except Err ResourceIdentity :=
  let rawUserId := asString (headers.get "x-user-id")
  let clientId := asString (headers.get "x-client-id")
  -- a service token carries the client identifier as its subject
  let userId := rawUserId.filter isUuid
  if userId.isNone && clientId.isNone then
    throw (.appError 401 "NO_IDENTITY" "Request must traverse the gateway")
  else pure
    { userId := userId, clientId := clientId
      scopes := splitCsvOrSpace (asString (headers.get "x-user-scopes"))
      roles := splitCsvOrSpace (asString (headers.get "x-user-roles"))
      requestId := asString (headers.get "x-request-id") }

/-- The stack on `/api/v1`, up to the identity. -/
def handle (secret : Option String) (lines : List (String × String)) :
    Except Err ResourceIdentity := do
  let headers := Headers.receive lines
  requireGatewaySecret secret headers
  requireIdentity headers

end ResourceApi
end IdentityPlatform
