/-
# Risk scores

An evaluation adds up what four reads of Redis say (`assess`).  The first of them is a
counter of failed logins that no step of the platform ever writes: failures are counted in
the row of the user, for the lock, and the engine never hears of them.
-/

import IdentityPlatform.Protocol.Invariants

namespace IdentityPlatform

open Interleaving Program Relational Machine AuthServer

variable {P : Platform} {c : ServerConfig} {i : ℕ} {call : ServerCall} {l₀ l : ServerLog}
  {ctx : RequestContext}

/-! ### What an evaluation reads -/

/-- The reads of an evaluation: the counter of failures, the number of addresses if there
is one to count, whether the device is known, and the last address prefix of the device
with the one at hand. -/
structure RiskReads where
  failed : Option String
  addresses : Option ℕ
  knownDevice : Bool
  travel : Option (Option String × String)

namespace RulesRiskEngine

/-- What the counter of failures adds. -/
def failedPart (P : Platform) (stored : Option String) : ℕ × List RiskSignal :=
  match counterValue (stored.getD "0") with
  | some n =>
      if n ≥ P.config.riskFailedLoginsThreshold then
        (30, [⟨"failed_logins", some (toString n ++ " recent failures")⟩])
      else (0, [])
  | none => (0, [])

/-- What the number of addresses adds. -/
def addressPart : Option ℕ → ℕ × List RiskSignal
  | some n =>
      if n ≥ 5 then (20, [⟨"ip_frequency", some (toString n ++ " distinct IPs in 1h")⟩])
      else (0, [])
  | none => (0, [])

/-- What an unknown device adds. -/
def devicePart (knownDevice : Bool) : ℕ × List RiskSignal :=
  if knownDevice then (0, []) else (15, [⟨"new_device", none⟩])

/-- What a changed prefix adds. -/
def travelPart : Option (Option String × String) → ℕ × List RiskSignal
  | some (last, current) => match last.filter (· ≠ "") with
      | some last =>
          if last ≠ current then
            (25, [⟨"impossible_travel_placeholder",
              some ("ip-prefix " ++ last ++ " -> " ++ current)⟩])
          else (0, [])
      | none => (0, [])
  | none => (0, [])

/-- The evaluation that the reads give. -/
def assess (P : Platform) (reads : RiskReads) : RiskEvaluation :=
  let failed := failedPart P reads.failed
  let addresses := addressPart reads.addresses
  let device := devicePart reads.knownDevice
  let travel := travelPart reads.travel
  let score := failed.1 + addresses.1 + device.1 + travel.1
  { level := if score ≥ 50 then .high else if score ≥ 20 then .medium else .low
    score := score
    signals := failed.2 ++ addresses.2 ++ device.2 ++ travel.2 }

theorem ipFrequencySignal_ok {userId : String} {ip : Option String} {r : ℕ × List RiskSignal}
    (h : (ipFrequencySignal userId ip).Returns l₀ l (.ok r)) :
    ∃ addresses, r = addressPart addresses := by
  unfold ipFrequencySignal at h
  split at h
  · exact ⟨none, Except.ok.inj (returns_pure.1 h).2⟩
  · obtain ⟨_, _, _, _, h⟩ := h.of_bind
    obtain ⟨_, _, _, _, h⟩ := h.of_bind
    obtain ⟨_, n, _, _, h⟩ := h.of_bind
    exact ⟨some n, Except.ok.inj (returns_pure.1 h).2⟩

theorem travelSignal_ok {input : LoginRiskInput} {r : ℕ × List RiskSignal}
    (h : (travelSignal P input).Returns l₀ l (.ok r)) : ∃ travel, r = travelPart travel := by
  unfold travelSignal at h
  split at h
  · obtain ⟨_, last, _, _, h⟩ := h.of_bind
    obtain ⟨_, _, _, _, h⟩ := h.of_bind
    exact ⟨some (last, _), Except.ok.inj (returns_pure.1 h).2⟩
  · exact ⟨none, Except.ok.inj (returns_pure.1 h).2⟩

/-- **An evaluation is that of its reads.** -/
theorem evaluateLogin_ok {input : LoginRiskInput} {evaluation : RiskEvaluation}
    (h : (evaluateLogin P input).Returns l₀ l (.ok evaluation)) :
    ∃ reads, evaluation = assess P reads ∧ reads.knownDevice = input.knownDevice ∧
      l.Saw (.redis (.getText (.riskFailed input.userId))) (.ok reads.failed) := by
  obtain ⟨l₁, failed, h₁, hs₁, h⟩ := h.of_bind
  obtain ⟨l₂, stored, h₂, hs₂, h₁⟩ := h₁.of_bind
  obtain ⟨l₃, frequency, h₃, hs₃, h⟩ := h.of_bind
  obtain ⟨l₄, travel, h₄, hs₄, h⟩ := h.of_bind
  obtain ⟨addresses, rfl⟩ := ipFrequencySignal_ok h₃
  obtain ⟨seen, rfl⟩ := travelSignal_ok h₄
  obtain rfl := Except.ok.inj (returns_pure.1 h₁).2
  obtain rfl := Except.ok.inj (returns_pure.1 h).2
  exact ⟨⟨stored, addresses, input.knownDevice, seen⟩, rfl, rfl, h₂.saw.mono (hs₂.trans hs₁)⟩

/-! ### What failures add -/

/-- The reads contain the signal of failed logins, and 30 points that would not be there
without the failures. -/
structure RaisedByFailures (P : Platform) (reads : RiskReads) : Prop where
  signal : ∃ detail, (⟨"failed_logins", detail⟩ : RiskSignal) ∈ (assess P reads).signals
  score : (assess P reads).score = (assess P { reads with failed := none }).score + 30

/-- Without a counter there is nothing to add. -/
theorem not_raised {reads : RiskReads} (h : reads.failed = none) : ¬RaisedByFailures P reads := by
  intro hraised
  have hsame : { reads with failed := none } = reads := by rw [← h]
  have hscore := hraised.score
  rw [hsame] at hscore
  omega

end RulesRiskEngine

/-! ### The counter -/

/-- No counter of failures is stored. -/
def World.NoFailures (w : World) : Prop :=
  ∀ p ∈ w.redis, ∀ userId text, p.1 = .riskFailed userId → p.2.value ≠ .text text

/-- **No step counts a failure.** -/
theorem reachable_noFailures (hreach : (machine P).Reachable World.Initial c) :
    c.world.NoFailures ∧ ∀ (i : ℕ) call, c.calls[i]? = some call →
      ∀ e ∈ call.log, e.pre.NoFailures ∧ e.post.NoFailures := by
  refine reachable_invariant hreach ?_ ?_ ?_ ?_
  · intro w hw p hp
    rw [hw.redis] at hp
    cases hp
  · exact fun w ledger h => h
  · intro e w w' hw h p hp userId text hkey
    rcases Env.apply_redis hw p hp with hp | ⟨sid, hsess⟩
    · exact h p hp userId text hkey
    · rw [hsess] at hkey
      cases hkey
  · rintro c i call s a post - - hjust ⟨r, hexec⟩ - h p hp userId text hkey
    rcases Stmt.exec_redis hexec p hp with ⟨q, hq, hqkey, hqvalue⟩ | ⟨ttl, rfl⟩ | ⟨values, hset⟩
    · exact hqvalue ▸ h q hq userId text (hqkey.trans hkey)
    · rw [hkey] at hjust
      exact hjust.elim
    · rw [hset]
      nofun

/-- The counter is never found. -/
theorem failed_none (hreach : (machine P).Reachable World.Initial c) (hi : c.calls[i]? = some call)
    {userId : String} {stored : Option String}
    (h : Log.Saw call.log (.redis (.getText (.riskFailed userId))) (.ok stored)) :
    stored = none := by
  obtain ⟨n, pre, post, hmem, hans⟩ := answered hreach.valid hi h
  have hnone := ((reachable_noFailures hreach).2 i call hi _ hmem).1
  obtain ⟨r, ledger, ha, _⟩ := hans.effect
  have hstored := (Except.ok.inj ha).symm
  split at hstored
  · rename_i text hget
    obtain ⟨p, hp, hkey, hvalue⟩ := Cache.mem_of_get hget
    exact absurd hvalue (hnone p hp userId text hkey)
  · exact hstored

/-! ### The evaluation of a login -/

/-- In the call, `evaluateLogin` has returned the evaluation for the input. -/
def EvaluatesAs (P : Platform) (call : ServerCall) (input : LoginRiskInput)
    (evaluation : RiskEvaluation) : Prop :=
  ∃ l₀ l, (RulesRiskEngine.evaluateLogin P input).Returns l₀ l (.ok evaluation) ∧ l <:+ call.log

/-- A login that has returned has evaluated its risk. -/
theorem login_evaluates (hv : (machine P).Valid c) (hi : c.calls[i]? = some call)
    {email password : String} (hrequest : call.req.request = .login email password)
    {response : Response} (hresult : call.result = some (.ok response)) :
    ∃ user knownDevice evaluation, PassedGates P call.log email password user ∧
      EvaluatesAs P call ⟨user.id, call.req.ctx.ip, call.req.ctx.userAgent, knownDevice⟩
        evaluation := by
  have hreturns : (AuthServer.handler P call.req).Returns [] call.log (.ok response) :=
    hv.returned hi hresult
  rw [AuthServer.handler, hrequest] at hreturns
  obtain ⟨l₁, result, h₁, hs₁, _⟩ := hreturns.of_bind
  obtain ⟨l₂, user, h₂, hs₂, h₁⟩ := h₁.of_bind
  obtain ⟨l₃, action, h₃, hs₃, _⟩ := h₁.of_bind
  obtain ⟨l₄, knownDevice, h₄, _, h₃⟩ := h₃.of_bind
  obtain ⟨l₅, evaluation, h₅, hs₅, _⟩ := h₃.of_bind
  exact ⟨user, knownDevice, evaluation,
    (AuthService.checkCredentials_ok h₂).mono (hs₂.trans hs₁), l₄, l₅, h₅,
    hs₅.trans (hs₃.trans hs₁)⟩

/-- **Failures never raise a score.**  Whatever logins have failed before, every evaluation
finds no counter of them: it has not both the signal of failed logins and 30 points more
than it would have without the failures. -/
theorem failures_never_raise (hreach : (machine P).Reachable World.Initial c)
    (hi : c.calls[i]? = some call) {input : LoginRiskInput} {evaluation : RiskEvaluation}
    (h : EvaluatesAs P call input evaluation) :
    ∃ reads, evaluation = RulesRiskEngine.assess P reads ∧
      Log.Saw call.log (.redis (.getText (.riskFailed input.userId))) (.ok reads.failed) ∧
      ¬RulesRiskEngine.RaisedByFailures P reads := by
  obtain ⟨l₀, l, hreturns, hl⟩ := h
  obtain ⟨reads, hassess, _, hread⟩ := RulesRiskEngine.evaluateLogin_ok hreturns
  exact ⟨reads, hassess, hread.mono hl,
    RulesRiskEngine.not_raised (failed_none hreach hi (hread.mono hl))⟩

/-! ### Three failures -/

/-- A platform that takes three failures for a signal, below the five that lock an account. -/
def Platform.cautious : Platform where
  __ := Platform.sample
  config := { riskFailedLoginsThreshold := 3 }

/-- A run of the cautious platform. -/
def cautiousRun (moves : List (Move World Incoming Env)) :
    Option (Config statements Err World Incoming Response) :=
  (machine .cautious).play Stmt.sampleRandom moves (Config.initial World.sample)

/-- Three logins with a wrong password, and one with the right one. -/
def threeFailuresMoves : List (Move World Incoming Env) :=
  loginMoves 0 "al@x.io" "Al 2" ++ loginMoves 1 "al@x.io" "Al 2" ++ loginMoves 2 "al@x.io" "Al 2" ++
    loginMoves 3 "al@x.io" "Al 1"

/-- The evaluation of a login after three failures. -/
theorem failures_never_raise_of_three :
    ∃ (c : ServerConfig) (call : ServerCall) (input : LoginRiskInput) (reads : RiskReads),
      cautiousRun threeFailuresMoves = some c ∧ c.calls[3]? = some call ∧
      EvaluatesAs .cautious call input (RulesRiskEngine.assess .cautious reads) ∧
      ¬RulesRiskEngine.RaisedByFailures .cautious reads := by
  have hplay : (cautiousRun threeFailuresMoves).any (fun c => (c.calls[3]?).any fun call =>
      call.result.any fun r => r.isOk && call.req.request == .login "al@x.io" "Al 1") = true := by
    decide +kernel
  obtain ⟨c, hc, hall⟩ := (Option.any_eq_true _ _).1 hplay
  obtain ⟨call, hi, hcall⟩ := (Option.any_eq_true _ _).1 hall
  obtain ⟨r, hresult, hr⟩ := (Option.any_eq_true _ _).1 hcall
  obtain ⟨hok, hrequest⟩ := Bool.and_eq_true_iff.1 hr
  have hreach : (machine .cautious).Reachable World.Initial c :=
    ⟨_, World.initial_sample, run_of_play hc⟩
  cases r with
  | error e => cases hok
  | ok response =>
      obtain ⟨user, knownDevice, evaluation, _, hevaluates⟩ :=
        login_evaluates hreach.valid hi (by simpa using hrequest) hresult
      obtain ⟨reads, rfl, _, hnot⟩ := failures_never_raise hreach hi hevaluates
      exact ⟨c, call, _, reads, hc, hi, hevaluates, hnot⟩

/-- **Three wrong passwords leave no trace in the score** of the login after them, although
three are the threshold. -/
theorem three_failures_unnoticed :
    ∃ (c : ServerConfig) (row : RiskEventRow), cautiousRun threeFailuresMoves = some c ∧
      (Platform.cautious.config.riskFailedLoginsThreshold = 3 ∧
        Platform.cautious.config.maxFailedLogins = 5) ∧
      (∀ i < 3, c.calls[i]?.bind (·.result) = some (.error .invalidCredentialsError)) ∧
      (c.calls[3]?.bind (·.result)).any (·.isOk) = true ∧
      c.world.riskEvents = [row] ∧ row.userId = some (sampleUuid 9001) ∧
      row.evaluation.score = 15 ∧ ∀ s ∈ row.evaluation.signals, s.signal ≠ "failed_logins" := by
  have hplay : (cautiousRun threeFailuresMoves).any (fun c => c.world.riskEvents.any fun row =>
      decide ((∀ i < 3, c.calls[i]?.bind (·.result) = some (.error .invalidCredentialsError)) ∧
        (c.calls[3]?.bind (·.result)).any (·.isOk) = true ∧ c.world.riskEvents = [row] ∧
        row.userId = some (sampleUuid 9001) ∧ row.evaluation.score = 15 ∧
        ∀ s ∈ row.evaluation.signals, s.signal ≠ "failed_logins")) = true := by
    decide +kernel
  obtain ⟨c, hc, hall⟩ := (Option.any_eq_true _ _).1 hplay
  obtain ⟨row, _, hrow⟩ := List.any_eq_true.1 hall
  obtain ⟨hwrong, hright, hevents, huser, hscore, hsignals⟩ := of_decide_eq_true hrow
  exact ⟨c, row, hc, ⟨rfl, rfl⟩, hwrong, hright, hevents, huser, hscore, hsignals⟩

end IdentityPlatform
