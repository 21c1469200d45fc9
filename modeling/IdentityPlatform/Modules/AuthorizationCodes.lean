/-
# Authorization codes

`authorization-code.repository.ts`: codes are stored hashed and consumed once.
Presenting a consumed code is a replay, and so is losing the race for it.
-/

import IdentityPlatform.Infrastructure.Statements

namespace IdentityPlatform

open Interleaving Program

/-- The parameters of `peek` and `consume`. -/
structure PresentedCode where
  code : String
  clientId : String
  redirectUri : String
  deriving DecidableEq, Repr

namespace AuthorizationCodeRepository

variable (P : Platform)

/-- `AuthorizationCodeRepository.issue`. -/
def issue (data : IssueCodeData) : Prog String := do
  let code ← query (.runtime .randomToken)
  query (.codes (.insert (P.sha256Hex code) data))
  pure code

/-- The checks `peek` and `consume` make on the row they have read: the binding
to client and redirect URI, then replay, then expiry. -/
def checkRow (params : PresentedCode) (row : JoinedRow) : Prog (Option JoinedRow) :=
  if row.clientRef ≠ params.clientId ∨ row.code.redirectUri ≠ params.redirectUri then pure none
  else if row.code.consumedAt.isSome then throw (.codeReplay row.code.userId row.clientRef)
  else do
    let now ← query (.runtime .dateNow)
    if row.code.expiresAt < now then pure none else pure (some row)

/-- `AuthorizationCodeRepository.peek`. -/
def peek (params : PresentedCode) : Prog (Option JoinedRow) := do
  let existing ← query (.codes (.selectJoined (P.sha256Hex params.code)))
  match existing with
  | none => pure none
  | some row => checkRow params row

/-- `AuthorizationCodeRepository.consume`: the same checks on a new read, then
the conditional `UPDATE`. -/
def consume (params : PresentedCode) : Prog (Option AuthorizationCodeRow) := do
  let checked ← peek P params
  match checked with
  | none => pure none
  | some row => do
      let updated ← query (.codes (.consume row.code.id))
      match updated with
      | none => throw (.codeReplay row.code.userId row.clientRef)
      | some codeRow => pure (some codeRow)

/-- `AuthorizationCodeRepository.revokeTokensForReplay`. -/
def revokeTokensForReplay (userId clientRef : String) : Prog Unit :=
  query (.refreshTokens (.revokeForReplay userId clientRef))

end AuthorizationCodeRepository
end IdentityPlatform
