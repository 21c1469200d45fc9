/-
# Second factors

`mfa.service.ts`: TOTP enrollment, and the challenge a login leaves in Redis
when the user has an active method.
-/

import IdentityPlatform.Infrastructure.Statements

namespace IdentityPlatform

open Interleaving Program

/-- What `beginEnroll` returns. -/
structure Enrollment where
  otpauthUrl : String
  qrDataUrl : String
  deriving DecidableEq, Repr

namespace MfaService

variable (P : Platform)

/-- `MfaService.beginEnroll`. -/
def beginEnroll (userId email : String) : Prog Enrollment := do
  let secret ← query (.runtime .totpSecret)
  query (.mfaMethods (.upsertPending userId secret))
  let otpauthUrl := P.keyuri email P.config.mfaIssuer secret
  pure ⟨otpauthUrl, P.qrDataUrl otpauthUrl⟩

/-- `MfaService.confirmEnroll`. -/
def confirmEnroll (userId code : String) : Prog Unit := do
  let pending ← query (.mfaMethods (.selectByStatus userId .pending))
  let method ← orThrow pending (.authError "No pending MFA enrollment" "MFA_NOT_ENROLLING")
  let ok ← query (.runtime (.totpCheck code method.secret))
  throwIf (ok = false) (.authError "Invalid MFA code" "INVALID_MFA_CODE")
  query (.mfaMethods (.activate userId))
  query (.users (.setMfaRequired userId true))

def hasActiveMethod (userId : String) : Prog Bool := query (.mfaMethods (.hasActive userId))

/-- `MfaService.getEmailForUser`. -/
def getEmailForUser (userId : String) : Prog String := do
  let email ← query (.users (.emailOf userId))
  orThrow email (.authError "User not found" "USER_NOT_FOUND")

/-- `MfaService.createLoginChallenge`. -/
def createLoginChallenge (userId sessionId : String) : Prog String := do
  let challengeId ← query (.runtime .randomUuid)
  query (.redis (.set (.mfaChallenge challengeId) (.challenge ⟨userId, sessionId, 0⟩)
    (some P.config.mfaChallengeTtl)))
  pure challengeId

/-- A wrong code costs one of the attempts and renews the lifetime. -/
def rejectCode (challengeId : String) (challenge : MfaChallengePayload) : Prog MfaMethodRow := do
  query (.redis (.set (.mfaChallenge challengeId)
    (.challenge { challenge with attempts := challenge.attempts + 1 })
    (some P.config.mfaChallengeTtl)))
  throw (.authError "Invalid MFA code" "INVALID_MFA_CODE")

/-- The method whose secret accepts the code: the condition in the middle of
`verifyLoginChallenge`.  An empty secret counts as none. -/
def checkChallengeCode (challengeId code : String) (challenge : MfaChallengePayload) :
    Prog MfaMethodRow := do
  let active ← query (.mfaMethods (.selectByStatus challenge.userId .active))
  match active.filter (·.secret ≠ "") with
  | none => rejectCode P challengeId challenge
  | some method => do
      let ok ← query (.runtime (.totpCheck code method.secret))
      if ok = true then pure method else rejectCode P challengeId challenge

/-- `MfaService.verifyLoginChallenge`: the session of the challenge. -/
def verifyLoginChallenge (challengeId code : String) : Prog String := do
  let stored ← query (.redis (.getChallenge (.mfaChallenge challengeId)))
  let challenge ← orThrow stored
    (.authError "Invalid or expired MFA challenge" "INVALID_MFA_CHALLENGE")
  onlyIf (challenge.attempts ≥ 3) (do
    query (.redis (.del (.mfaChallenge challengeId)))
    throw (.authError "Too many MFA attempts" "MFA_ATTEMPTS_EXCEEDED"))
  let method ← checkChallengeCode P challengeId code challenge
  query (.sessions (.markMfaPassed challenge.sessionId))
  query (.mfaMethods (.touchUsed method.id))
  query (.redis (.del (.mfaChallenge challengeId)))
  pure challenge.sessionId

/-- `MfaService.disable`. -/
def disable (userId code : String) : Prog Unit := do
  let active ← query (.mfaMethods (.selectByStatus userId .active))
  let method ← orThrow active (.authError "MFA is not enabled" "MFA_NOT_ENABLED")
  let ok ← query (.runtime (.totpCheck code method.secret))
  throwIf (ok = false) (.authError "Invalid MFA code" "INVALID_MFA_CODE")
  query (.mfaMethods (.disable method.id))
  query (.users (.setMfaRequired userId false))

end MfaService
end IdentityPlatform
