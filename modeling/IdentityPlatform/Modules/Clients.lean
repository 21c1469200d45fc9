/-
# OAuth clients

`client.repository.ts` and the PKCE comparison.  A secret is shown once; the
table has its Argon2id hash.
-/

import IdentityPlatform.Infrastructure.Statements

namespace IdentityPlatform

open Interleaving Program

/-- `createClientSchema`, with `z.string().url()` as `isUrl`; the name is already
trimmed. -/
def createClientSchema (isUrl : String → Bool) (data : CreateClientData) : Bool :=
  3 ≤ jsLength data.name && jsLength data.name ≤ 100 &&
    data.redirectUris.all isUrl && data.redirectUris.length ≤ 10 &&
    data.allowedScopes.all isScopeName && 1 ≤ data.allowedScopes.length &&
    data.allowedScopes.length ≤ 20 &&
    data.grantTypes.all (· ∈ ["authorization_code", "client_credentials"]) &&
    1 ≤ data.grantTypes.length

namespace ClientRepository

variable (P : Platform)

def findByClientId (clientId : String) : Prog (Option OAuthClientRow) :=
  query (.clients (.findByClientId clientId))

/-- `ClientRepository.create`: the row and, for a confidential client, its
secret. -/
def create (data : CreateClientData) : Prog (OAuthClientRow × Option String) := do
  let clientId ← query (.runtime .newClientId)
  match data.clientType with
  | .confidential => do
      let secret ← query (.runtime .newClientSecret)
      let secretHash ← query (.runtime (.argon2Hash secret))
      let row ← query (.clients (.insert clientId (some secretHash) data))
      pure (row, some secret)
  | .publicClient => do
      let row ← query (.clients (.insert clientId none data))
      pure (row, none)

/-- `ClientRepository.rotateSecret`: the new secret. -/
def rotateSecret (id : String) : Prog String := do
  let secret ← query (.runtime .newClientSecret)
  let hash ← query (.runtime (.argon2Hash secret))
  query (.clients (.rotateSecret id hash))
  pure secret

/-- `ClientRepository.verifySecret`; a malformed stored hash makes it throw. -/
def verifySecret (row : OAuthClientRow) (presentedSecret : String) : Prog Bool :=
  match row.clientSecretHash.filter (· ≠ "") with
  | none => pure false
  | some hash => orThrow (P.argon2Verify hash presentedSecret) (.library "argon2")

def setStatus (id : String) (status : ClientStatus) : Prog Unit :=
  query (.clients (.setStatus id status))

end ClientRepository

namespace PkceUtil

/-- `PkceUtil.matches`. -/
def «matches» (P : Platform) (verifier storedChallenge : String)
    (method : Option CodeChallengeMethod) : Bool :=
  match method with
  | some .s256 => P.sha256Base64Url verifier = storedChallenge
  | some .plain => verifier = storedChallenge
  | none => false

end PkceUtil
end IdentityPlatform
