/-
# Risk evaluation of logins

`rules-risk.engine.ts` and `risk-event.repository.ts`.
-/

import IdentityPlatform.Infrastructure.Statements

namespace IdentityPlatform

open Interleaving Program

/-- `LoginRiskInput`. -/
structure LoginRiskInput where
  userId : String
  ip : Option String
  userAgent : Option String
  knownDevice : Bool

/-- `deviceFingerprint`. -/
def deviceFingerprint (P : Platform) (userAgent : String) : String :=
  String.ofList ((P.sha256Hex userAgent).toList.take 16)

/-- `ip.split('.').slice(0, 2).join('.')`. -/
def ipPrefix (ip : String) : String :=
  let first := ip.toList.takeWhile (· != '.')
  match ip.toList.dropWhile (· != '.') with
  | [] => String.ofList first
  | _ :: rest => String.ofList (first ++ '.' :: rest.takeWhile (· != '.'))

/-- `Number(text)` of a stored counter, which Redis keeps in decimal; `none` is
`NaN`. -/
def counterValue (text : String) : Option Nat :=
  if text.toList.all Char.isDigit then
    some (text.toList.foldl (fun n c => 10 * n + (c.toNat - '0'.toNat)) 0)
  else none

namespace RulesRiskEngine

variable (P : Platform)

/-- The score and signal of the failed logins of the user. -/
def failedLoginsSignal (userId : String) : Prog (Nat × List RiskSignal) := do
  let stored ← query (.redis (.getText (.riskFailed userId)))
  let failedCount := counterValue (stored.getD "0")
  pure (match failedCount with
    | some n =>
        if n ≥ P.config.riskFailedLoginsThreshold then
          (30, [⟨"failed_logins", some (toString n ++ " recent failures")⟩])
        else (0, [])
    | none => (0, []))

/-- The score and signal of the number of addresses within an hour. -/
def ipFrequencySignal (userId : String) (ip : Option String) : Prog (Nat × List RiskSignal) :=
  match ip.filter (· ≠ "") with
  | none => pure (0, [])
  | some ip => do
      query (.redis (.setAdd (.riskIps userId) ip))
      query (.redis (.setExpire (.riskIps userId) 3600))
      let ipCount ← query (.redis (.setSize (.riskIps userId)))
      pure (if ipCount ≥ 5 then
          (20, [⟨"ip_frequency", some (toString ipCount ++ " distinct IPs in 1h")⟩])
        else (0, []))

/-- The score and signal of a changed address prefix of the device. -/
def travelSignal (input : LoginRiskInput) : Prog (Nat × List RiskSignal) :=
  match input.ip.filter (· ≠ ""), input.userAgent.filter (· ≠ "") with
  | some ip, some userAgent => do
      let seenKey := RedisKey.riskGeo input.userId (deviceFingerprint P userAgent)
      let lastPrefix ← query (.redis (.getText seenKey))
      let currentPrefix := ipPrefix ip
      query (.redis (.set seenKey (.text currentPrefix) (some 300)))
      pure (match lastPrefix.filter (· ≠ "") with
        | some last =>
            if last ≠ currentPrefix then
              (25, [⟨"impossible_travel_placeholder",
                some ("ip-prefix " ++ last ++ " -> " ++ currentPrefix)⟩])
            else (0, [])
        | none => (0, []))
  | _, _ => pure (0, [])

/-- `RulesRiskEngine.evaluateLogin`. -/
def evaluateLogin (input : LoginRiskInput) : Prog RiskEvaluation := do
  let failed ← failedLoginsSignal P input.userId
  let frequency ← ipFrequencySignal input.userId input.ip
  let device := if input.knownDevice then (0, []) else (15, [⟨"new_device", none⟩])
  let travel ← travelSignal P input
  let score := failed.1 + frequency.1 + device.1 + travel.1
  pure
    { level := if score ≥ 50 then .high else if score ≥ 20 then .medium else .low
      score := score
      signals := failed.2 ++ frequency.2 ++ device.2 ++ travel.2 }

end RulesRiskEngine

/-- `RiskEventRepository.record`. -/
def recordRiskEvent (row : RiskEventRow) : Prog Unit := query (.log (.riskEvent row))

end IdentityPlatform
