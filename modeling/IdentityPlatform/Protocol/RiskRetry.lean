/-
# A login that is repeated

Evaluating a risk writes what the next evaluation reads: the device becomes a known one
and the last prefix the present one.  So a login that was refused, or left at the second
factor, and comes again at once is scored lower exactly when the first one has met an
unknown device or a changed prefix (`retry_score_iff`).
-/

import IdentityPlatform.Protocol.RiskScores
import IdentityPlatform.Protocol.ScopeRejection
import IdentityPlatform.Protocol.Verifiers

namespace IdentityPlatform

open Interleaving Program Relational Machine AuthServer

variable {P : Platform} {w w' : World} {userId email password : String} {ctx : RequestContext}

/-! ### What an evaluation finds -/

/-- The text under a key. -/
def World.textAt (w : World) (key : RedisKey) : Option String :=
  match w.redis.get w.now key with
  | some (.text value) => some value
  | _ => none

/-- The members of a set after a member was added. -/
def withMember (member : String) (values : List String) : List String :=
  if member ∈ values then values else values ++ [member]

theorem withMember_idem {member : String} {values : List String} :
    withMember member (withMember member values) = withMember member values := by
  by_cases hmem : member ∈ values <;> simp [withMember, hmem]

/-- The fingerprint of the device of the request. -/
def RequestContext.fingerprint (P : Platform) (ctx : RequestContext) : String :=
  deviceFingerprint P (ctx.userAgent.getD "")

/-- What an evaluation of a login of the user finds in the state. -/
def World.riskReads (P : Platform) (w : World) (userId : String) (ctx : RequestContext) :
    RiskReads where
  failed := w.textAt (.riskFailed userId)
  addresses := (ctx.ip.filter (· ≠ "")).map fun ip =>
    (withMember ip (RedisStmt.membersAt w (.riskIps userId))).length
  knownDevice := match ctx.userAgent.filter (· ≠ ""), ctx.ip.filter (· ≠ "") with
    | some userAgent, some _ =>
        ((w.textAt (.riskDevice userId (deviceFingerprint P userAgent))).filter (· ≠ "")).isSome
    | _, _ => false
  travel := match ctx.ip.filter (· ≠ ""), ctx.userAgent.filter (· ≠ "") with
    | some ip, some userAgent =>
        some (w.textAt (.riskGeo userId (deviceFingerprint P userAgent)), ipPrefix ip)
    | _, _ => none

/-- What the next evaluation finds. -/
def RiskReads.again (reads : RiskReads) : RiskReads :=
  { reads with
    knownDevice := reads.knownDevice || reads.travel.isSome
    travel := reads.travel.map fun t => (some t.2, t.2) }

/-- Nothing but the value under one key of the cache is different. -/
def World.ChangedAt (key : RedisKey) (w w' : World) : Prop :=
  ∃ cache, w' = { w with redis := cache } ∧
    ∀ k, k ≠ key → cache.get w.now k = w.redis.get w.now k

namespace World.ChangedAt

variable {key k : RedisKey}

theorem refl : w.ChangedAt key w := ⟨w.redis, rfl, fun _ _ => rfl⟩

theorem textAt (h : w.ChangedAt key w') (hk : k ≠ key) : w'.textAt k = w.textAt k := by
  obtain ⟨cache, rfl, hsame⟩ := h
  simp only [World.textAt, hsame k hk]

theorem membersAt (h : w.ChangedAt key w') (hk : k ≠ key) :
    RedisStmt.membersAt w' k = RedisStmt.membersAt w k := by
  obtain ⟨cache, rfl, hsame⟩ := h
  simp only [RedisStmt.membersAt, hsame k hk]

theorem set {value : RedisValue} {ttl : Option ℕ} :
    w.ChangedAt key { w with redis := w.redis.set w.now key value ttl } :=
  ⟨_, rfl, fun _ hk => Cache.get_set_ne hk⟩

end World.ChangedAt

/-! ### The statements of an evaluation -/

/-- A read of the cache leaves the state as it is. -/
theorem runsAlone_getText {key : RedisKey} {r : Except Err (Option String)} :
    (machine P).RunsAlone (query (.redis (.getText key))) w r w' ↔
      r = .ok (w.textAt key) ∧ w' = w :=
  Stmt.runsAlone_iff rfl rfl fun _ => rfl

/-- A command of the cache has its effect. -/
theorem RedisStmt.runsAlone_iff {s : RedisStmt} {r : Except Err s.Ans} :
    (machine P).RunsAlone (query (.redis s)) w r w' ↔
      r = (s.effect w).1 ∧ w' = { w with redis := (s.effect w).2 } :=
  Stmt.runsAlone_iff rfl rfl fun _ => rfl

/-- A text that was set is there. -/
theorem textAt_set (w : World) (key : RedisKey) (value : String) {ttl : ℕ} (httl : 0 < ttl) :
    World.textAt { w with redis := w.redis.set w.now key (.text value) (some ttl) } key =
      some value := by
  have halive :
      Cache.alive w.now (⟨.text value, some (w.now + ttl * 1000)⟩ : Entry RedisValue) = true := by
    simp [Cache.alive, httl]
  simp [World.textAt, Cache.get_set_self, halive]

/-- A set holds the member that was added, until it expires. -/
theorem membersAt_setAdd (w : World) (key : RedisKey) (member : String) :
    RedisStmt.membersAt { w with redis := ((RedisStmt.setAdd key member).effect w).2 } key =
      withMember member (RedisStmt.membersAt w key) := by
  simp only [RedisStmt.effect, withMember]
  split_ifs with hmem
  · rfl
  · have halive : ∀ expiry : Option ℕ, (∀ t, expiry = some t → w.now < t) →
        Cache.get w.now key ((key, ⟨.members (RedisStmt.membersAt w key ++ [member]), expiry⟩) ::
          w.redis.del key) = some (.members (RedisStmt.membersAt w key ++ [member])) := by
      intro expiry h
      cases expiry with
      | none => simp [Cache.get, Cache.alive]
      | some t => simp [Cache.get, Cache.alive, h t rfl]
    unfold RedisStmt.membersAt at halive ⊢
    rw [halive]
    intro t ht
    -- the expiry is that of a value that is still there
    obtain ⟨p, _, hp⟩ := Option.bind_eq_some_iff.1 ht
    split_ifs at hp with hthere
    rw [Cache.alive, hp] at hthere
    exact of_decide_eq_true hthere

/-- A new lifetime changes no member. -/
theorem membersAt_expire (w : World) (key : RedisKey) {ttl : ℕ} (httl : 0 < ttl) :
    RedisStmt.membersAt { w with redis := w.redis.expire w.now key ttl } key =
      RedisStmt.membersAt w key := by
  unfold RedisStmt.membersAt Cache.expire
  cases hget : w.redis.get w.now key with
  | none => simp only [hget]
  | some value =>
      have halive :
          Cache.alive w.now (⟨value, some (w.now + ttl * 1000)⟩ : Entry RedisValue) = true := by
        simp [Cache.alive, httl]
      simp only [Cache.get_set_self, Option.map_some, halive, if_true]

theorem World.ChangedAt.setAdd {key : RedisKey} {member : String} :
    w.ChangedAt key { w with redis := ((RedisStmt.setAdd key member).effect w).2 } := by
  refine ⟨_, rfl, fun k hk => ?_⟩
  simp only [RedisStmt.effect]
  split_ifs
  · rfl
  · refine Eq.trans ?_ (Cache.get_del_ne hk)
    simp [Cache.get, Ne.symm hk]

theorem World.ChangedAt.expire {key : RedisKey} {ttl : ℕ} :
    w.ChangedAt key { w with redis := w.redis.expire w.now key ttl } :=
  ⟨_, rfl, fun _ hk => Cache.get_expire_ne hk⟩

theorem World.ChangedAt.trans {key : RedisKey} {w₁ w₂ : World} (h : w.ChangedAt key w₁)
    (h' : w₁.ChangedAt key w₂) : w.ChangedAt key w₂ := by
  obtain ⟨cache, rfl, hsame⟩ := h
  obtain ⟨cache', rfl, hsame'⟩ := h'
  exact ⟨cache', rfl, fun k hk => (hsame' k hk).trans (hsame k hk)⟩

/-! ### The three steps of an evaluation -/

section Steps

variable {ip userAgent : String}

/-- The fingerprint that the services compute is that of the request. -/
theorem RequestContext.fingerprint_eq (hua : ctx.userAgent.filter (· ≠ "") = some userAgent) :
    ctx.fingerprint P = deviceFingerprint P userAgent := by
  rw [fingerprint, (Option.filter_eq_some_iff.1 hua).1, Option.getD_some]

/-- The reads about the device of a request with an address and a user agent. -/
theorem World.riskReads_placed (P : Platform) (w : World) (userId : String)
    (hip : ctx.ip.filter (· ≠ "") = some ip)
    (hua : ctx.userAgent.filter (· ≠ "") = some userAgent) :
    (w.riskReads P userId ctx).knownDevice =
        ((w.textAt (.riskDevice userId (deviceFingerprint P userAgent))).filter (· ≠ "")).isSome ∧
      (w.riskReads P userId ctx).travel =
        some (w.textAt (.riskGeo userId (deviceFingerprint P userAgent)), ipPrefix ip) := by
  simp only [World.riskReads, hip, hua, and_self]

/-- Those of any other request. -/
theorem World.riskReads_unplaced (P : Platform) (w : World) (userId : String)
    (h : ∀ ip userAgent, ctx.ip.filter (· ≠ "") = some ip →
      ctx.userAgent.filter (· ≠ "") ≠ some userAgent) :
    (w.riskReads P userId ctx).knownDevice = false ∧ (w.riskReads P userId ctx).travel = none := by
  cases hip : ctx.ip.filter (· ≠ "") with
  | none =>
      cases hua : ctx.userAgent.filter (· ≠ "") <;> simp only [World.riskReads, hip, hua, and_self]
  | some ip =>
      cases hua : ctx.userAgent.filter (· ≠ "") with
      | none => simp only [World.riskReads, hip, hua, and_self]
      | some userAgent => exact absurd hua (h ip userAgent hip)

theorem RiskReads.again_of_none {reads : RiskReads} (h : reads.travel = none) :
    reads.again = reads := by
  obtain ⟨failed, addresses, known, travel⟩ := reads
  obtain rfl : travel = none := h
  simp [RiskReads.again]

/-- **The device** is known afterwards if there is an address and a user agent. -/
theorem isKnownDevice_alone {r : Except Err Bool}
    (h : (machine P).RunsAlone (AuthService.isKnownDevice P userId ctx) w r w') :
    r = .ok (w.riskReads P userId ctx).knownDevice ∧
      w.ChangedAt (.riskDevice userId (ctx.fingerprint P)) w' ∧
      (w'.riskReads P userId ctx).knownDevice = (w.riskReads P userId ctx).again.knownDevice := by
  unfold AuthService.isKnownDevice at h
  split at h
  · rename_i userAgent ip hua hip
    obtain ⟨hknown, htravel⟩ := w.riskReads_placed P userId hip hua
    obtain ⟨hknown', _⟩ := w'.riskReads_placed P userId hip hua
    rw [RequestContext.fingerprint_eq hua, hknown', RiskReads.again, htravel, hknown]
    rcases runsAlone_bind.1 h with ⟨seen, w₁, h₁, h⟩ | ⟨e, h₁, _⟩
    swap
    · cases (runsAlone_getText.1 h₁).1
    obtain ⟨hseen, rfl⟩ := runsAlone_getText.1 h₁
    obtain rfl := Except.ok.inj hseen
    split at h
    · rename_i text htext
      obtain ⟨rfl, rfl⟩ := runsAlone_pure.1 h
      rw [htext]
      exact ⟨rfl, .refl, rfl⟩
    · rename_i htext
      rcases runsAlone_bind.1 h with ⟨_, w₂, h₂, h⟩ | ⟨e, h₂, _⟩
      swap
      · cases (RedisStmt.runsAlone_iff.1 h₂).1
      obtain ⟨_, rfl⟩ := RedisStmt.runsAlone_iff.1 h₂
      obtain ⟨rfl, rfl⟩ := runsAlone_pure.1 h
      have hip' : decide (ip ≠ "") = true := (Option.filter_eq_some_iff.1 hip).2
      have hset := textAt_set w₁ (.riskDevice userId (deviceFingerprint P userAgent)) ip
        (show 0 < 60 * 60 * 24 * 30 by decide)
      refine ⟨by rw [htext]; rfl, .set, ?_⟩
      refine (congrArg (fun o : Option String => (o.filter (· ≠ "")).isSome) hset).trans ?_
      rw [Option.filter_some, if_pos hip', htext]
      rfl
  · rename_i hunplaced
    obtain ⟨rfl, rfl⟩ := runsAlone_pure.1 h
    obtain ⟨hknown, htravel⟩ := w'.riskReads_unplaced P userId fun ip userAgent hip hua =>
      hunplaced userAgent ip hua hip
    rw [RiskReads.again_of_none htravel, hknown]
    exact ⟨rfl, .refl, rfl⟩

/-- **The address** is one of those within the hour afterwards. -/
theorem ipFrequencySignal_alone {r : Except Err (ℕ × List RiskSignal)}
    (h : (machine P).RunsAlone (RulesRiskEngine.ipFrequencySignal userId ctx.ip) w r w') :
    r = .ok (RulesRiskEngine.addressPart (w.riskReads P userId ctx).addresses) ∧
      w.ChangedAt (.riskIps userId) w' ∧
      (w'.riskReads P userId ctx).addresses = (w.riskReads P userId ctx).addresses := by
  unfold RulesRiskEngine.ipFrequencySignal at h
  split at h
  · rename_i hip
    obtain ⟨rfl, rfl⟩ := runsAlone_pure.1 h
    simp only [World.riskReads, hip, and_true]
    exact ⟨rfl, .refl⟩
  · rename_i ip hip
    rcases runsAlone_bind.1 h with ⟨_, w₁, h₁, h⟩ | ⟨e, h₁, _⟩
    swap
    · cases (RedisStmt.runsAlone_iff.1 h₁).1
    obtain ⟨_, rfl⟩ := RedisStmt.runsAlone_iff.1 h₁
    rcases runsAlone_bind.1 h with ⟨_, w₂, h₂, h⟩ | ⟨e, h₂, _⟩
    swap
    · cases (RedisStmt.runsAlone_iff.1 h₂).1
    obtain ⟨_, rfl⟩ := RedisStmt.runsAlone_iff.1 h₂
    rcases runsAlone_bind.1 h with ⟨n, w₃, h₃, h⟩ | ⟨e, h₃, _⟩
    swap
    · cases (RedisStmt.runsAlone_iff.1 h₃).1
    obtain ⟨hn, rfl⟩ := RedisStmt.runsAlone_iff.1 h₃
    obtain ⟨rfl, rfl⟩ := runsAlone_pure.1 h
    have hmembers := (membersAt_expire _ (.riskIps userId) (show 0 < 3600 by decide)).trans
      (membersAt_setAdd w (.riskIps userId) ip)
    obtain rfl := (Except.ok.inj hn).trans (congrArg List.length hmembers)
    simp only [World.riskReads, hip, Option.map_some]
    refine ⟨rfl, World.ChangedAt.setAdd.trans .expire, ?_⟩
    exact congrArg some (congrArg List.length
      ((congrArg (withMember ip) hmembers).trans withMember_idem))

/-- **The prefix** is the last one afterwards. -/
theorem travelSignal_alone {known : Bool} {r : Except Err (ℕ × List RiskSignal)}
    (h : (machine P).RunsAlone
      (RulesRiskEngine.travelSignal P ⟨userId, ctx.ip, ctx.userAgent, known⟩) w r w') :
    r = .ok (RulesRiskEngine.travelPart (w.riskReads P userId ctx).travel) ∧
      w.ChangedAt (.riskGeo userId (ctx.fingerprint P)) w' ∧
      (w'.riskReads P userId ctx).travel = (w.riskReads P userId ctx).again.travel := by
  unfold RulesRiskEngine.travelSignal at h
  split at h
  · rename_i ip userAgent hip hua
    obtain ⟨_, htravel⟩ := w.riskReads_placed P userId hip hua
    obtain ⟨_, htravel'⟩ := w'.riskReads_placed P userId hip hua
    rw [RequestContext.fingerprint_eq hua, htravel', RiskReads.again, htravel]
    rcases runsAlone_bind.1 h with ⟨last, w₁, h₁, h⟩ | ⟨e, h₁, _⟩
    swap
    · cases (runsAlone_getText.1 h₁).1
    obtain ⟨hlast, rfl⟩ := runsAlone_getText.1 h₁
    obtain rfl := Except.ok.inj hlast
    rcases runsAlone_bind.1 h with ⟨_, w₂, h₂, h⟩ | ⟨e, h₂, _⟩
    swap
    · cases (RedisStmt.runsAlone_iff.1 h₂).1
    obtain ⟨_, rfl⟩ := RedisStmt.runsAlone_iff.1 h₂
    obtain ⟨rfl, rfl⟩ := runsAlone_pure.1 h
    refine ⟨rfl, .set, ?_⟩
    exact congrArg (fun last => some (last, ipPrefix ip)) (textAt_set _ _ _ (by decide))
  · rename_i hunplaced
    obtain ⟨rfl, rfl⟩ := runsAlone_pure.1 h
    obtain ⟨_, htravel⟩ := w'.riskReads_unplaced P userId hunplaced
    rw [RiskReads.again_of_none htravel, htravel]
    exact ⟨rfl, .refl, rfl⟩

end Steps

/-! ### An evaluation -/

/-- The keys of the risk engine. -/
def RedisKey.isRisk : RedisKey → Bool
  | .riskDevice .. | .riskFailed _ | .riskIps _ | .riskGeo .. => true
  | _ => false

namespace World.ChangedAt

variable {key : RedisKey}

theorem failed (h : w.ChangedAt key w') (hkey : .riskFailed userId ≠ key) :
    (w'.riskReads P userId ctx).failed = (w.riskReads P userId ctx).failed := h.textAt hkey

theorem addresses (h : w.ChangedAt key w') (hkey : .riskIps userId ≠ key) :
    (w'.riskReads P userId ctx).addresses = (w.riskReads P userId ctx).addresses := by
  simp only [World.riskReads, h.membersAt hkey]

theorem knownDevice (h : w.ChangedAt key w')
    (hkey : ∀ fingerprint, .riskDevice userId fingerprint ≠ key) :
    (w'.riskReads P userId ctx).knownDevice = (w.riskReads P userId ctx).knownDevice := by
  simp only [World.riskReads, h.textAt (hkey _)]

theorem travel (h : w.ChangedAt key w') (hkey : ∀ fingerprint, .riskGeo userId fingerprint ≠ key) :
    (w'.riskReads P userId ctx).travel = (w.riskReads P userId ctx).travel := by
  simp only [World.riskReads, h.textAt (hkey _)]

theorem reads (h : w.ChangedAt key w') (hkey : key.isRisk = false) :
    w'.riskReads P userId ctx = w.riskReads P userId ctx := by
  have hne : ∀ k : RedisKey, k.isRisk = true → k ≠ key := by
    rintro k hk rfl
    rw [hk] at hkey
    cases hkey
  rw [RiskReads.mk.injEq]
  exact ⟨h.failed (hne _ rfl), h.addresses (hne _ rfl), h.knownDevice fun _ => hne _ rfl,
    h.travel fun _ => hne _ rfl⟩

/-- Only the cache is different. -/
theorem rest (h : w.ChangedAt key w') :
    w'.riskEvents = w.riskEvents ∧ w'.users = w.users ∧ w'.now = w.now := by
  obtain ⟨cache, rfl, _⟩ := h
  exact ⟨rfl, rfl, rfl⟩

end World.ChangedAt

/-- **An evaluation alone** has the score of what it finds, and leaves what the next one
finds. -/
theorem evaluation_alone {known : Bool} {w₁ : World} {r : Except Err RiskEvaluation}
    (hdevice : (machine P).RunsAlone (AuthService.isKnownDevice P userId ctx) w (.ok known) w₁)
    (h : (machine P).RunsAlone
      (RulesRiskEngine.evaluateLogin P ⟨userId, ctx.ip, ctx.userAgent, known⟩)
      w₁ r w') :
    r = .ok (RulesRiskEngine.assess P (w.riskReads P userId ctx)) ∧
      w'.riskReads P userId ctx = (w.riskReads P userId ctx).again ∧
      w'.riskEvents = w.riskEvents ∧ w'.users = w.users ∧ w'.now = w.now := by
  obtain ⟨hknown, hw₁, hagain⟩ := isKnownDevice_alone hdevice
  obtain rfl := Except.ok.inj hknown
  rcases runsAlone_bind.1 h with ⟨failed, w₂, h₂, h⟩ | ⟨e, h₂, _⟩
  swap
  · rcases runsAlone_bind.1 h₂ with ⟨_, _, _, h₂⟩ | ⟨e, h₂, _⟩
    · cases h₂.1
    · cases (runsAlone_getText.1 h₂).1
  rcases runsAlone_bind.1 h₂ with ⟨stored, w₃, h₃, h₂⟩ | ⟨e, _, h₂⟩
  swap
  · cases h₂
  obtain ⟨hstored, rfl⟩ := runsAlone_getText.1 h₃
  obtain rfl := Except.ok.inj hstored
  obtain ⟨hfailed, rfl⟩ := runsAlone_pure.1 h₂
  obtain rfl := Except.ok.inj hfailed
  rcases runsAlone_bind.1 h with ⟨frequency, w₄, h₄, h⟩ | ⟨e, h₄, _⟩
  swap
  · cases (ipFrequencySignal_alone h₄).1
  obtain ⟨hfrequency, hw₄, hips⟩ := ipFrequencySignal_alone h₄
  obtain rfl := Except.ok.inj hfrequency
  rcases runsAlone_bind.1 h with ⟨travel, w₅, h₅, h⟩ | ⟨e, h₅, _⟩
  swap
  · cases (travelSignal_alone h₅).1
  obtain ⟨htravel, hw₅, hgeo⟩ := travelSignal_alone h₅
  obtain rfl := Except.ok.inj htravel
  obtain ⟨rfl, rfl⟩ := runsAlone_pure.1 h
  obtain ⟨hevents₁, husers₁, hnow₁⟩ := hw₁.rest
  obtain ⟨hevents₄, husers₄, hnow₄⟩ := hw₄.rest
  obtain ⟨hevents₅, husers₅, hnow₅⟩ := hw₅.rest
  refine ⟨?_, ?_, by rw [hevents₅, hevents₄, hevents₁], by rw [husers₅, husers₄, husers₁],
    by rw [hnow₅, hnow₄, hnow₁]⟩
  · -- the address, the prefix and the device lie under keys of their own
    have haddresses :
        (w₂.riskReads P userId ctx).addresses = (w.riskReads P userId ctx).addresses :=
      hw₁.addresses nofun
    have hlast : (w₄.riskReads P userId ctx).travel = (w.riskReads P userId ctx).travel :=
      (hw₄.travel nofun).trans (hw₁.travel nofun)
    have hstored : (w₂.riskReads P userId ctx).failed = (w.riskReads P userId ctx).failed :=
      hw₁.failed nofun
    rw [haddresses, hlast]
    simp only [RulesRiskEngine.assess, ← hstored]
    rfl
  · rw [RiskReads.mk.injEq]
    refine ⟨?_, ?_, ?_, ?_⟩
    · exact (hw₅.failed nofun).trans ((hw₄.failed nofun).trans (hw₁.failed nofun))
    · exact (hw₅.addresses nofun).trans (hips.trans (hw₁.addresses nofun))
    · exact (hw₅.knownDevice nofun).trans ((hw₄.knownDevice nofun).trans hagain)
    · rw [hgeo, RiskReads.again, RiskReads.again, hw₄.travel nofun, hw₁.travel nofun]

/-- `RISK_DENIED`. -/
def riskDenied : Err := .appError 403 "RISK_DENIED" "Login denied due to suspicious activity"

/-- `MFA_ENROLLMENT_REQUIRED`. -/
def enrollmentRequired : Err :=
  .appError 403 "MFA_ENROLLMENT_REQUIRED"
    "Additional verification is required. Enroll a second factor first."

/-- Recording neither fails nor changes anything but the records. -/
theorem record_alone {event : AuditEvent} {r : Except Err Unit}
    (h : (machine P).RunsAlone (AuditLogService.record event) w r w') :
    r = .ok () ∧ ∃ logs, w' = { w with auditLogs := logs } := by
  unfold AuditLogService.record at h
  generalize hevent :
    ({ event with metadata := sanitizeMetadata (sanitizeMetadata event.metadata) } : AuditEvent) =
      recorded at h
  rcases Bool.eq_false_or_eq_true ((Stmt.log (.auditEvent recorded)).uuidParams.all isUuid) with
    hids | hids
  · rcases runsAlone_tryCatch.1 h with ⟨_, hrecord, hr⟩ | ⟨e, w₁, hrecord, _⟩
    · obtain ⟨_, rfl⟩ := (Stmt.runsAlone_iff hids rfl fun _ => rfl).1 hrecord
      exact ⟨hr, _, rfl⟩
    · cases ((Stmt.runsAlone_iff hids rfl fun _ => rfl).1 hrecord).1
  · rcases runsAlone_tryCatch.1 h with ⟨_, hrecord, _⟩ | ⟨e, w₁, hrecord, hpure⟩
    · cases ((Stmt.runsAlone_rejected hids).1 hrecord).1
    · obtain ⟨_, rfl⟩ := (Stmt.runsAlone_rejected hids).1 hrecord
      obtain ⟨rfl, rfl⟩ := runsAlone_pure.1 hpure
      exact ⟨rfl, _, rfl⟩

theorem onlyIf_record_alone {c : Prop} [Decidable c] {event : AuditEvent} {r : Except Err Unit}
    (h : (machine P).RunsAlone (onlyIf c (AuditLogService.record event)) w r w') :
    r = .ok () ∧ ∃ logs, w' = { w with auditLogs := logs } := by
  rcases runsAlone_onlyIf.1 h with ⟨_, h⟩ | ⟨_, hr, rfl⟩
  · exact record_alone h
  · exact ⟨hr, _, rfl⟩

/-- What `evaluateRisk` leaves: one risk event, with the evaluation of what it has found,
and what the next evaluation finds. -/
structure Evaluated (P : Platform) (userId : String) (ctx : RequestContext) (w w' : World) :
    Prop where
  event : ∃ row : RiskEventRow, w'.riskEvents = row :: w.riskEvents ∧
    row.evaluation = RulesRiskEngine.assess P (w.riskReads P userId ctx)
  reads : w'.riskReads P userId ctx = (w.riskReads P userId ctx).again
  users : w'.users = w.users
  now : w'.now = w.now

/-- **The risk of a login** is evaluated and recorded. -/
theorem evaluateRisk_alone {r : Except Err RiskAction}
    (h : (machine P).RunsAlone (AuthService.evaluateRisk P userId ctx) w r w') :
    (isUuid userId = false ∧ r = .error (.db "22P02")) ∨
      (isUuid userId = true ∧ Evaluated P userId ctx w w' ∧
        ((∃ action, r = .ok action) ∨ r = .error riskDenied)) := by
  rcases runsAlone_bind.1 h with ⟨known, w₁, h₁, h⟩ | ⟨e, h₁, _⟩
  swap
  · cases (isKnownDevice_alone h₁).1
  rcases runsAlone_bind.1 h with ⟨evaluation, w₂, h₂, h⟩ | ⟨e, h₂, _⟩
  swap
  · cases (evaluation_alone h₁ h₂).1
  obtain ⟨hevaluation, hreads, hevents, husers, hnow⟩ := evaluation_alone h₁ h₂
  obtain rfl := Except.ok.inj hevaluation
  rcases runsAlone_bind.1 h with ⟨_, w₃, h₃, h⟩ | ⟨e, h₃, _⟩
  swap
  · cases (onlyIf_record_alone h₃).1
  obtain ⟨_, logs, rfl⟩ := onlyIf_record_alone h₃
  -- the event is stored if the user has an identifier
  cases hid : isUuid userId with
  | false =>
      rcases runsAlone_bind.1 h with ⟨_, w₄, h₄, _⟩ | ⟨e, h₄, rfl⟩
      · cases ((Stmt.runsAlone_rejected (by simp [Stmt.uuidParams, hid])).1 h₄).1
      · obtain ⟨he, _⟩ := (Stmt.runsAlone_rejected (by simp [Stmt.uuidParams, hid])).1 h₄
        exact .inl ⟨rfl, congrArg Except.error (Except.error.inj he)⟩
  | true =>
      refine .inr ⟨rfl, ?_⟩
      rcases runsAlone_bind.1 h with ⟨_, w₄, h₄, h⟩ | ⟨e, h₄, _⟩
      swap
      · cases ((Stmt.runsAlone_iff (by simp [Stmt.uuidParams, hid]) rfl fun _ => rfl).1 h₄).1
      obtain ⟨_, rfl⟩ := (Stmt.runsAlone_iff (by simp [Stmt.uuidParams, hid]) rfl fun _ => rfl).1 h₄
      have hleft : ∀ logs, Evaluated P userId ctx w { w₂ with
          auditLogs := logs
          riskEvents := { userId := some userId, eventType := "login"
                          evaluation := RulesRiskEngine.assess P (w.riskReads P userId ctx)
                          actionTaken :=
                            if (RulesRiskEngine.assess P (w.riskReads P userId ctx)).level = .high
                            then P.config.riskHighScoreAction else .allow
                          ip := ctx.ip, userAgent := ctx.userAgent, requestId := ctx.requestId } ::
                        w₂.riskEvents } :=
        fun logs => ⟨⟨_, by rw [← hevents], rfl⟩, hreads, husers, hnow⟩
      rcases runsAlone_bind.1 h with ⟨_, w₅, h₅, h⟩ | ⟨e, h₅, rfl⟩
      · rcases runsAlone_onlyIf.1 h₅ with ⟨_, h₅⟩ | ⟨_, _, rfl⟩
        · rcases runsAlone_bind.1 h₅ with ⟨_, _, _, hthrow⟩ | ⟨e, _, he⟩
          · cases hthrow.1
          · cases he
        · obtain ⟨rfl, rfl⟩ := runsAlone_pure.1 h
          exact ⟨hleft _, .inl ⟨_, rfl⟩⟩
      · rcases runsAlone_onlyIf.1 h₅ with ⟨_, h₅⟩ | ⟨_, he, _⟩
        · rcases runsAlone_bind.1 h₅ with ⟨_, w₆, hrecord, hthrow⟩ | ⟨e, hrecord, _⟩
          · obtain ⟨_, logs, rfl⟩ := record_alone hrecord
            obtain ⟨he, rfl⟩ := runsAlone_throw.1 hthrow
            exact ⟨hleft _, .inr (congrArg Except.error (Except.error.inj he))⟩
          · cases (record_alone hrecord).1
        · cases he

/-! ### The gates -/

/-- What the gates of a login check of the account with the address. -/
structure Admitted (P : Platform) (w : World) (email password : String) (user : UserRow) :
    Prop where
  found : lookup (fun u => u.email.toLower) email.toLower.toLower w.users = some user
  enabled : user.status ≠ .disabled
  unlocked : user.lockedUntil.any (· > w.now) = false
  password : verifyPassword P user.passwordHash password = true
  verified : user.status ≠ .pendingVerification

/-- The gates read nothing but the accounts and the clock. -/
theorem Admitted.of_same {user : UserRow} (h : Admitted P w email password user)
    (husers : w'.users = w.users) (hnow : w'.now = w.now) : Admitted P w' email password user where
  found := by rw [husers]; exact h.found
  enabled := h.enabled
  unlocked := by rw [hnow]; exact h.unlocked
  password := h.password
  verified := h.verified

/-- An admitted login passes the gates. -/
theorem Admitted.passes {user : UserRow} (h : Admitted P w email password user) :
    (machine P).Decides (AuthService.checkCredentials P email password ctx) w (.ok user) := by
  refine .bind (Stmt.decides (r := .ok (some user)) rfl rfl fun _ => ?_) ?_
  · simp only [Stmt.effect, UserStmt.effect, h.found]
  refine .bind (show (machine P).Decides (orDo (some user) _) w (.ok user) from decides_pure) ?_
  refine .bind (Stmt.decides (r := .ok w.now) rfl rfl fun _ => rfl) ?_
  refine .throwIf (fun _ => ?_) fun hdisabled => absurd hdisabled h.enabled
  refine .throwIf (fun _ => ?_) fun hlocked => ?_
  · refine .bind (a := ()) ?_ (.throwIf (fun _ => decides_pure) fun hpending =>
      absurd hpending h.verified)
    simp only [h.password, Bool.true_eq_false, onlyIf, if_false]
    exact decides_pure
  · rw [h.unlocked] at hlocked
    cases hlocked

/-- What passes the gates is admitted. -/
theorem admitted_of_passes {user : UserRow}
    (h : (machine P).RunsAlone (AuthService.checkCredentials P email password ctx) w
      (.ok user) w') :
    Admitted P w email password user ∧ w' = w := by
  rcases runsAlone_bind.1 h with ⟨found, w₁, h₁, hr₁⟩ | ⟨e, _, he⟩
  swap
  · cases he
  obtain ⟨hfound, hw₁⟩ := (Stmt.runsAlone_iff rfl rfl fun _ => rfl).1 h₁
  obtain rfl := Except.ok.inj hfound
  obtain rfl : w₁ = w := hw₁
  rcases runsAlone_bind.1 hr₁ with ⟨row, w₂, h₂, hr₂⟩ | ⟨e, _, he⟩
  swap
  · cases he
  cases hlookup : lookup (fun u => u.email.toLower) email.toLower.toLower w₁.users with
  | none =>
      rw [hlookup] at h₂
      rcases runsAlone_bind.1 h₂ with ⟨_, _, _, hthrow⟩ | ⟨e, _, he⟩
      · cases hthrow.1
      · cases he
  | some found =>
      rw [hlookup] at h₂
      obtain ⟨hrow, rfl⟩ := runsAlone_pure.1 h₂
      obtain rfl := Except.ok.inj hrow
      rcases runsAlone_bind.1 hr₂ with ⟨now, w₃, h₃, hr₃⟩ | ⟨e, _, he⟩
      swap
      · cases he
      obtain ⟨hnow, rfl⟩ := (Stmt.runsAlone_iff rfl rfl fun _ => rfl).1 h₃
      obtain rfl := Except.ok.inj hnow
      rcases runsAlone_bind.1 hr₃ with ⟨_, w₄, h₄, hr₄⟩ | ⟨e, _, he⟩
      swap
      · cases he
      obtain ⟨⟨_, he⟩ | ⟨henabled, _⟩, rfl⟩ := runsAlone_throwIf.1 h₄
      · cases he
      rcases runsAlone_bind.1 hr₄ with ⟨_, w₅, h₅, hr₅⟩ | ⟨e, _, he⟩
      swap
      · cases he
      obtain ⟨⟨_, he⟩ | ⟨hunlocked, _⟩, rfl⟩ := runsAlone_throwIf.1 h₅
      · cases he
      rcases runsAlone_bind.1 hr₅ with ⟨_, w₆, h₆, hr₆⟩ | ⟨e, _, he⟩
      swap
      · cases he
      rcases runsAlone_onlyIf.1 h₆ with ⟨_, hreject⟩ | ⟨hpassword, _, rfl⟩
      · -- the wrong password is always refused
        have hensures : Ensures World (AuthService.rejectPassword P row ctx) fun _ => False :=
          .bind fun _ => .bind fun _ => .bind fun _ => fun _ _ _ h => by cases (returns_throw.1 h).2
        obtain ⟨l, hreturns, _⟩ := hreject.returns []
        exact (hreturns.ensured hensures).elim
      rcases runsAlone_bind.1 hr₆ with ⟨_, w₇, h₇, hr₇⟩ | ⟨e, _, he⟩
      swap
      · cases he
      obtain ⟨⟨_, he⟩ | ⟨hverified, _⟩, rfl⟩ := runsAlone_throwIf.1 h₇
      · cases he
      obtain ⟨huser, rfl⟩ := runsAlone_pure.1 hr₇
      obtain rfl := Except.ok.inj huser
      exact ⟨⟨hlookup, henabled, by simpa using hunlocked, by simpa using hpassword, hverified⟩,
        rfl⟩

/-! ### The rest of a login -/

/-- The login was refused for its risk, or left at the second factor. -/
def Withheld (r : Except Err LoginResult) : Prop :=
  r = .error riskDenied ∨ r = .error enrollmentRequired ∨
    ∃ challengeId, r = .ok (.mfaRequired challengeId)

/-- The error refuses no risk. -/
def Err.Unrelated (e : Err) : Prop := e ≠ riskDenied ∧ e ≠ enrollmentRequired

instance {e : Err} : Decidable e.Unrelated := instDecidableAnd

theorem Err.unrelated_of_foreign {e : Err} (h : e.isForeign = true) : e.Unrelated :=
  have hne : ∀ e', e'.isForeign = false → e ≠ e' := by
    rintro e' he' rfl
    rw [h] at he'
    cases he'
  ⟨hne _ rfl, hne _ rfl⟩

/-- What a program alone fails with. -/
theorem unrelated_alone {α : Type} {p : Prog α} {e : Err}
    (h : (machine P).RunsAlone p w (.error e) w')
    (hp : FailsWith (S := statements) World Err.Unrelated p) : e.Unrelated := by
  obtain ⟨l, hreturns, hl⟩ := h.returns []
  rcases hp [] l e hreturns with ⟨op, n, pre, post, hmem⟩ | he
  · rcases hl _ hmem with hnil | ⟨rnd, hexec⟩
    · cases hnil
    · exact Err.unrelated_of_foreign (Stmt.exec_failed hexec).2
  · exact he

theorem checkCredentials_unrelated :
    FailsWith (S := statements) World Err.Unrelated
      (AuthService.checkCredentials P email password ctx) := by
  refine .bind .perform fun found => .bind (.orDo ?_) fun user => .bind .perform fun now => ?_
  · exact .bind AuditLogService.record_failsWith fun _ => .throw (by decide)
  refine .bind (.throwIf fun _ => by decide) fun _ => ?_
  refine .bind (.throwIf fun _ => by decide) fun _ => ?_
  refine .bind (.onlyIf ?_) fun _ => .bind (.throwIf fun _ => by decide) fun _ => .pure
  refine .bind .perform fun _ => .bind (.onlyIf ?_) fun _ => ?_
  · exact .bind .perform fun _ => .bind .perform fun _ => AuditLogService.record_failsWith
  · exact .bind AuditLogService.record_failsWith fun _ => .throw (by decide)

theorem issueSessionTokens_unrelated {amr : List String} :
    FailsWith (S := statements) World Err.Unrelated
      (AuthService.issueSessionTokens P userId ctx amr) := by
  have hsign : ∀ input, FailsWith (S := statements) World Err.Unrelated
      (JwtService.signAccessToken P input) := fun input =>
    .bind .perform fun _ => .bind .perform fun _ => .bind .perform fun _ =>
    .bind .perform fun _ => .pure
  refine .bind .perform fun session => .bind .perform fun found =>
    .bind (.orThrow (by decide)) fun user => ?_
  refine .bind .perform fun roles => .bind .perform fun permissions => ?_
  refine .bind (hsign _) fun signed => ?_
  refine .bind RefreshTokenService.issue_failsWith fun refresh => .bind .perform fun _ => ?_
  refine .bind .perform fun _ => .bind AuditLogService.record_failsWith fun _ => ?_
  refine .bind AuditLogService.record_failsWith fun _ => .bind ?_ fun _ => .pure
  exact .bind .perform fun _ => .pure

/-- The statements that leave the risk events as they are. -/
def Stmt.NoRiskEvent : Stmt → Prop
  | .log (.riskEvent _) => False
  | _ => True

theorem Stmt.exec_riskEvents {s : Stmt} {rnd : String} {ans : Except Err s.Ans} (hs : s.NoRiskEvent)
    (h : s.exec P rnd w = some (ans, w')) : w'.riskEvents = w.riskEvents := by
  rcases Stmt.exec_cases h with ⟨_, rfl⟩ | ⟨_, _, ledger, rfl, _⟩
  · rfl
  · cases s with
    | log u =>
        cases u with
        | auditEvent event => rfl
        | riskEvent row => exact hs.elim
    | _ => rfl

/-- The statements that leave the accounts and the reads of the risk engine as they are. -/
def Stmt.LeavesRisk : Stmt → Prop
  | .users _ | .redis (.del _) | .redis .delSessions | .redis (.setAdd ..)
  | .redis (.setExpire ..) => False
  | .redis (.set key ..) => key.isRisk = false
  | _ => True

theorem Stmt.exec_leavesRisk (userId : String) (ctx : RequestContext) {s : Stmt} {rnd : String}
    {ans : Except Err s.Ans} (hs : s.LeavesRisk) (h : s.exec P rnd w = some (ans, w')) :
    w'.users = w.users ∧ w'.now = w.now ∧
      w'.riskReads P userId ctx = w.riskReads P userId ctx := by
  rcases Stmt.exec_cases h with ⟨_, rfl⟩ | ⟨_, _, ledger, rfl, _⟩
  · exact ⟨rfl, rfl, rfl⟩
  · cases s with
    | users u => exact hs.elim
    | redis u =>
        cases u with
        | set key value ttl =>
            have hset : w.ChangedAt key
                { w with redis := ((RedisStmt.set key value ttl).effect w).2 } := .set
            exact ⟨rfl, rfl, hset.reads hs⟩
        | getText | getSession | getChallenge | setSize => exact ⟨rfl, rfl, rfl⟩
        | del | delSessions | setAdd | setExpire => exact hs.elim
    | _ => exact ⟨rfl, rfl, rfl⟩

/-- What follows the evaluation of the risk. -/
theorem issueSessionTokens_noRiskEvent {l₀ : ServerLog} {amr : List String} :
    Respects (fun _ s => Stmt.NoRiskEvent s) l₀
    (AuthService.issueSessionTokens P userId ctx amr) := by
  simp [AuthService.issueSessionTokens, AuthService.createLoginSession, SessionRepository.create,
    AuthService.issueSessionTokensForSession, UserRepository.findById, UserRepository.rolesOf,
    UserRepository.permissionsOf, UserRepository.setLastLogin, UserRepository.clearLockAndFailures,
    JwtService.signAccessToken, RefreshTokenService.issue, AuditLogService.record, expiresIn,
    Stmt.NoRiskEvent]

/-- **What a login leaves**: an evaluation of its risk, and if it was withheld all that the
next one finds. -/
theorem login_alone {r : Except Err LoginResult}
    (h : (machine P).RunsAlone (AuthService.login P email password ctx) w r w') {user : UserRow}
    (huser : Admitted P w email password user) (hid : isUuid user.id = true) :
    (∃ row : RiskEventRow, w'.riskEvents = row :: w.riskEvents ∧
      row.evaluation = RulesRiskEngine.assess P (w.riskReads P user.id ctx)) ∧
    (Withheld r → w'.users = w.users ∧ w'.now = w.now ∧
      w'.riskReads P user.id ctx = (w.riskReads P user.id ctx).again) := by
  rcases runsAlone_bind.1 h with ⟨row, w₁, h₁, hr₁⟩ | ⟨e, h₁, _⟩
  swap
  · cases ((huser.passes _ _).1 h₁).1
  obtain ⟨hrow, rfl⟩ := (huser.passes _ _).1 h₁
  obtain rfl := Except.ok.inj hrow
  rcases runsAlone_bind.1 hr₁ with ⟨action, w₂, h₂, hr₂⟩ | ⟨e, h₂, rfl⟩
  swap
  · rcases evaluateRisk_alone h₂ with ⟨hnot, _⟩ | ⟨_, hleft, _⟩
    · rw [hid] at hnot
      cases hnot
    · exact ⟨hleft.event, fun _ => ⟨hleft.users, hleft.now, hleft.reads⟩⟩
  rcases evaluateRisk_alone h₂ with ⟨hnot, _⟩ | ⟨_, hleft, _⟩
  · rw [hid] at hnot
    cases hnot
  -- what follows records no risk, and unless it issues tokens changes nothing that counts
  have hevents : w'.riskEvents = w₂.riskEvents := by
    refine hr₂.keeps Stmt.NoRiskEvent (fun v => v.riskEvents = w₂.riskEvents) []
      ?_ (fun op rnd v ans v' hop hexec hv => (Stmt.exec_riskEvents hop hexec).trans hv) rfl
    refine .bind (by simp [MfaService.hasActiveMethod, Stmt.NoRiskEvent]) fun l hasMfa _ => ?_
    rw [respects_ite]
    constructor
    · intro _
      simp [AuthService.createLoginSession, SessionRepository.create,
        MfaService.createLoginChallenge, Stmt.NoRiskEvent]
    · exact fun _ => .bind issueSessionTokens_noRiskEvent fun _ _ _ => respects_pure
  refine ⟨by rw [hevents]; exact hleft.event, fun hwithheld => ?_⟩
  have hrest : w'.users = w₂.users ∧ w'.now = w₂.now ∧
      w'.riskReads P row.id ctx = w₂.riskReads P row.id ctx := by
    have hids : (Stmt.mfaMethods (.hasActive row.id)).uuidParams.all isUuid = true := by
      simp [Stmt.uuidParams, hid]
    rcases runsAlone_bind.1 hr₂ with ⟨hasMfa, w₃, h₃, hr₃⟩ | ⟨e, h₃, _⟩
    swap
    · cases ((Stmt.runsAlone_iff hids rfl fun _ => rfl).1 h₃).1
    obtain ⟨_, rfl⟩ := (Stmt.runsAlone_iff hids rfl fun _ => rfl).1 h₃
    by_cases hmfa : hasMfa = true ∨ action = .mfa
    · rw [if_pos hmfa] at hr₃
      refine hr₃.keeps Stmt.LeavesRisk (fun v => v.users = w₂.users ∧ v.now = w₂.now ∧
          v.riskReads P row.id ctx = w₂.riskReads P row.id ctx) []
        ?_ (fun op rnd v ans v' hop hexec hv => ?_) ⟨rfl, rfl, rfl⟩
      · simp [AuthService.createLoginSession, SessionRepository.create,
          MfaService.createLoginChallenge, Stmt.LeavesRisk, RedisKey.isRisk]
      · obtain ⟨husers, hnow, hreads⟩ := Stmt.exec_leavesRisk row.id ctx hop hexec
        exact ⟨husers.trans hv.1, hnow.trans hv.2.1, hreads.trans hv.2.2⟩
    · -- tokens are issued, or a statement fails
      rw [if_neg hmfa] at hr₃
      exfalso
      rcases runsAlone_bind.1 hr₃ with ⟨tokens, w₄, _, hpure⟩ | ⟨e, h₄, rfl⟩
      · obtain ⟨rfl, _⟩ := runsAlone_pure.1 hpure
        rcases hwithheld with he | he | ⟨_, he⟩ <;> cases he
      · obtain ⟨hdenied, henrol⟩ := unrelated_alone h₄ issueSessionTokens_unrelated
        rcases hwithheld with he | he | ⟨_, he⟩
        · exact hdenied (Except.error.inj he)
        · exact henrol (Except.error.inj he)
        · cases he
  exact ⟨hrest.1.trans hleft.users, hrest.2.1.trans hleft.now, hrest.2.2.trans hleft.reads⟩

/-- A withheld login had been admitted, with an identifier that can be stored. -/
theorem admitted_of_withheld {r : Except Err LoginResult}
    (h : (machine P).RunsAlone (AuthService.login P email password ctx) w r w') (hr : Withheld r) :
    ∃ user, Admitted P w email password user ∧ isUuid user.id = true := by
  rcases runsAlone_bind.1 h with ⟨user, w₁, h₁, hr₁⟩ | ⟨e, h₁, rfl⟩
  swap
  · obtain ⟨hdenied, henrol⟩ := unrelated_alone h₁ checkCredentials_unrelated
    rcases hr with he | he | ⟨_, he⟩
    · exact absurd (Except.error.inj he) hdenied
    · exact absurd (Except.error.inj he) henrol
    · cases he
  obtain ⟨huser, rfl⟩ := admitted_of_passes h₁
  refine ⟨user, huser, ?_⟩
  rcases runsAlone_bind.1 hr₁ with ⟨action, w₂, h₂, _⟩ | ⟨e, h₂, rfl⟩
  · rcases evaluateRisk_alone h₂ with ⟨_, he⟩ | ⟨hid, _⟩
    · cases he
    · exact hid
  · rcases evaluateRisk_alone h₂ with ⟨_, he⟩ | ⟨hid, _⟩
    · obtain rfl := Except.error.inj he
      rcases hr with he | he | ⟨_, he⟩ <;> cases he
    · exact hid

/-! ### The two scores -/

/-- The request comes with an address and a user agent, and its device is not remembered or
was last seen with another prefix. -/
def World.Unsettled (P : Platform) (w : World) (userId : String) (ctx : RequestContext) : Prop :=
  ∃ ip userAgent, ctx.ip = some ip ∧ ip ≠ "" ∧ ctx.userAgent = some userAgent ∧ userAgent ≠ "" ∧
    ((∀ text, w.textAt (.riskDevice userId (deviceFingerprint P userAgent)) = some text →
        text = "") ∨
      ∃ last, w.textAt (.riskGeo userId (deviceFingerprint P userAgent)) = some last ∧ last ≠ "" ∧
        last ≠ ipPrefix ip)

/-- The reads with something that the next evaluation will not find. -/
def RiskReads.Unsettled (reads : RiskReads) : Prop :=
  ∃ last current, reads.travel = some (last, current) ∧
    (reads.knownDevice = false ∨ ∃ text, last = some text ∧ text ≠ "" ∧ text ≠ current)

theorem unsettled_iff : w.Unsettled P userId ctx ↔ (w.riskReads P userId ctx).Unsettled := by
  have hfilter : ∀ {o : Option String} {text : String}, o = some text → text ≠ "" →
      o.filter (· ≠ "") = some text := by
    rintro _ text rfl hne
    exact Option.filter_eq_some_iff.2 ⟨rfl, decide_eq_true hne⟩
  have hnone : ∀ o : Option String,
      (o.filter (· ≠ "")).isSome = false ↔ ∀ text, o = some text → text = "" := by
    intro o
    cases o <;> simp [Option.filter]
  constructor
  · rintro ⟨ip, userAgent, hip, hip', hua, hua', hnew⟩
    obtain ⟨hknown, htravel⟩ := w.riskReads_placed P userId
      (hfilter hip hip') (hfilter hua hua')
    refine ⟨_, _, htravel, ?_⟩
    rw [hknown, hnone]
    exact hnew
  · rintro ⟨last, current, htravel, hnew⟩
    cases hip : ctx.ip.filter (· ≠ "") with
    | none =>
        have hnone : (w.riskReads P userId ctx).travel = none :=
          (w.riskReads_unplaced P userId fun ip userAgent h => by rw [hip] at h; cases h).2
        rw [hnone] at htravel
        cases htravel
    | some ip =>
        cases hua : ctx.userAgent.filter (· ≠ "") with
        | none =>
            have hnone : (w.riskReads P userId ctx).travel = none :=
              (w.riskReads_unplaced P userId fun ip userAgent _ h => by rw [hua] at h; cases h).2
            rw [hnone] at htravel
            cases htravel
        | some userAgent =>
            obtain ⟨hknown, htravel'⟩ := w.riskReads_placed P userId hip hua
            obtain ⟨rfl, rfl⟩ := Prod.mk.inj (Option.some.inj (htravel'.symm.trans htravel))
            rw [hknown, hnone] at hnew
            obtain ⟨hip, hip'⟩ := Option.filter_eq_some_iff.1 hip
            obtain ⟨hua, hua'⟩ := Option.filter_eq_some_iff.1 hua
            exact ⟨ip, userAgent, hip, of_decide_eq_true hip', hua, of_decide_eq_true hua', hnew⟩

namespace RulesRiskEngine

/-- Another prefix adds 25 points. -/
theorem travelPart_changed {text current : String} (hne : text ≠ "") (hne' : text ≠ current) :
    (travelPart (some (some text, current))).1 = 25 := by
  simp [travelPart, Option.filter_some, hne, hne']

theorem travelPart_unchanged {last : Option String} {current : String}
    (h : ∀ text, last = some text → text ≠ "" → text = current) :
    (travelPart (some (last, current))).1 = 0 := by
  cases last with
  | none => rfl
  | some text =>
      by_cases hne : text = ""
      · simp [travelPart, Option.filter_some, hne]
      · obtain rfl := h text rfl hne
        simp [travelPart, Option.filter_some, hne]

/-- **A second evaluation scores lower** exactly if it no longer finds something. -/
theorem score_again {reads : RiskReads} :
    (assess P reads).score ≤ (assess P reads.again).score ↔ ¬reads.Unsettled := by
  obtain ⟨failed, addresses, known, travel⟩ := reads
  cases travel with
  | none => simp [RiskReads.again_of_none, RiskReads.Unsettled]
  | some t =>
      obtain ⟨last, current⟩ := t
      have hscore :
          (assess P (RiskReads.again ⟨failed, addresses, known, some (last, current)⟩)).score =
            (failedPart P failed).1 + (addressPart addresses).1 := by
        have hsame : (travelPart (some (some current, current))).1 = 0 :=
          travelPart_unchanged fun _ h _ => (Option.some.inj h).symm
        simp [assess, RiskReads.again, devicePart, hsame]
      rw [hscore]
      change (failedPart P failed).1 + (addressPart addresses).1 + (devicePart known).1 +
        (travelPart (some (last, current))).1 ≤ _ ↔ _
      constructor
      · rintro hle ⟨_, _, heq, hnew⟩
        obtain ⟨rfl, rfl⟩ := Prod.mk.inj (Option.some.inj heq)
        rcases hnew with hknown | ⟨text, rfl, hne, hne'⟩
        · obtain rfl : known = false := hknown
          have hdevice : (devicePart false).1 = 15 := rfl
          omega
        · have htravel := travelPart_changed hne hne'
          omega
      · intro hsettled
        have hdevice : (devicePart known).1 = 0 := by
          cases known with
          | true => rfl
          | false => exact absurd ⟨_, _, rfl, .inl rfl⟩ hsettled
        have htravel : (travelPart (some (last, current))).1 = 0 :=
          travelPart_unchanged fun text hlast hne => by
            by_contra hne'
            exact hsettled ⟨_, _, rfl, .inr ⟨text, hlast, hne, hne'⟩⟩
        omega

end RulesRiskEngine

/-- **A retry is scored lower exactly on an unsettled device.**  When a login with the right
password was withheld and comes again at once, the second evaluation has at least the score
of the first one if and only if the request came without address or user agent, or with a
device that was remembered and last seen with the same prefix. -/
theorem retry_score_iff {r₁ r₂ : Except Err LoginResult} {w₁ w₂ : World}
    (h₁ : (machine P).RunsAlone (AuthService.login P email password ctx) w r₁ w₁)
    (hwithheld : Withheld r₁)
    (h₂ : (machine P).RunsAlone (AuthService.login P email password ctx) w₁ r₂ w₂) :
    ∃ (user : UserRow) (row₁ row₂ : RiskEventRow), Admitted P w email password user ∧
      w₁.riskEvents = row₁ :: w.riskEvents ∧ w₂.riskEvents = row₂ :: w₁.riskEvents ∧
      (row₁.evaluation.score ≤ row₂.evaluation.score ↔ ¬w.Unsettled P user.id ctx) := by
  obtain ⟨user, huser, hid⟩ := admitted_of_withheld h₁ hwithheld
  obtain ⟨⟨row₁, hevents₁, hrow₁⟩, hleft⟩ := login_alone h₁ huser hid
  obtain ⟨husers, hnow, hreads⟩ := hleft hwithheld
  obtain ⟨⟨row₂, hevents₂, hrow₂⟩, _⟩ := login_alone h₂ (huser.of_same husers hnow) hid
  refine ⟨user, row₁, row₂, huser, hevents₁, hevents₂, ?_⟩
  rw [hrow₁, hrow₂, hreads, RulesRiskEngine.score_again, unsettled_iff]

/-! ### Two retries -/

/-- A login of the first user from an address, with a user agent. -/
def sampleLogin : Prog LoginResult :=
  AuthService.login .sample "al@x.io" "Al 1" { ip := some "10.1.0.7", userAgent := some "Web" }

/-- The login and the same login again. -/
def loginTwice (w : World) :
    Option ((Except Err LoginResult × World) × (Except Err LoginResult × World)) := do
  let first ← (machine .sample).runAlone RefreshTokenService.sampleChoice sampleLogin w
  let second ← (machine .sample).runAlone RefreshTokenService.sampleChoice sampleLogin first.2
  pure (first, second)

theorem runsAlone_loginTwice {first second : Except Err LoginResult × World}
    (h : loginTwice w = some (first, second)) :
    (machine .sample).RunsAlone sampleLogin w first.1 first.2 ∧
      (machine .sample).RunsAlone sampleLogin first.2 second.1 second.2 := by
  obtain ⟨x, h₁, h⟩ := Option.bind_eq_some_iff.1 h
  obtain ⟨y, h₂, h⟩ := Option.bind_eq_some_iff.1 h
  obtain ⟨rfl, rfl⟩ := Prod.mk.inj (Option.some.inj h)
  exact ⟨runsAlone_of_runAlone h₁, runsAlone_of_runAlone h₂⟩

/-- The login has come to tokens. -/
def LoginResult.isSuccess : LoginResult → Bool
  | .success _ => true
  | .mfaRequired _ => false

/-- The first user has been seen at five addresses, and the device at another one. -/
def World.travelled : World where
  __ := World.sample
  redis :=
    [(.riskIps (sampleUuid 9001),
      ⟨.members ["1.0.0.1", "1.0.0.2", "1.0.0.3", "1.0.0.4", "1.0.0.5"], none⟩),
     (.riskGeo (sampleUuid 9001) (deviceFingerprint .sample "Web"), ⟨.text "1.0", none⟩)]

/-- **A refusal is undone**: the login is refused for its risk, and comes to tokens when it
is repeated. -/
theorem retry_score_iff_of_refusal :
    ∃ r₁ w₁ r₂ w₂, (machine .sample).RunsAlone sampleLogin .travelled r₁ w₁ ∧
      (machine .sample).RunsAlone sampleLogin w₁ r₂ w₂ ∧ r₁ = .error enrollmentRequired ∧
      r₂.toOption.any (·.isSuccess) = true ∧
      ∃ (user : UserRow) (row₁ row₂ : RiskEventRow),
        w₁.riskEvents = row₁ :: World.travelled.riskEvents ∧
        w₂.riskEvents = row₂ :: w₁.riskEvents ∧
        (row₁.evaluation.score ≤ row₂.evaluation.score ↔ ¬World.travelled.Unsettled .sample user.id
          { ip := some "10.1.0.7", userAgent := some "Web" }) := by
  have hrun : (loginTwice .travelled).any (fun x => decide
      (x.1.1 = .error enrollmentRequired ∧ x.2.1.toOption.any (·.isSuccess) = true)) = true := by
    decide +kernel
  obtain ⟨x, hx, hcheck⟩ := (Option.any_eq_true _ _).1 hrun
  obtain ⟨h₁, h₂⟩ := runsAlone_loginTwice hx
  obtain ⟨hrefused, hsuccess⟩ := of_decide_eq_true hcheck
  obtain ⟨user, row₁, row₂, _, hevents₁, hevents₂, hiff⟩ :=
    retry_score_iff h₁ (.inr (.inl hrefused)) h₂
  exact ⟨_, _, _, _, h₁, h₂, hrefused, hsuccess, user, row₁, row₂, hevents₁, hevents₂, hiff⟩

/-- The first user has an active second factor. -/
def World.enrolled : World where
  __ := World.sample
  mfaMethods :=
    [{ id := sampleUuid 9701, userId := sampleUuid 9001, secret := "s", status := .active }]

/-- **A login left at the second factor scores 15, and nothing when it is repeated.** -/
theorem second_factor_retry_scored_lower :
    ∃ result w₁ r₂ w₂, (machine .sample).RunsAlone sampleLogin .enrolled (.ok result) w₁ ∧
      (machine .sample).RunsAlone sampleLogin w₁ r₂ w₂ ∧ result.isSuccess = false ∧
      World.enrolled.riskEvents = [] ∧ w₁.riskEvents.map (·.evaluation.score) = [15] ∧
      w₂.riskEvents.map (·.evaluation.score) = [0, 15] := by
  have hrun : (loginTwice .enrolled).any (fun x => x.1.1.toOption.any fun result =>
      decide (result.isSuccess = false ∧ x.1.2.riskEvents.map (·.evaluation.score) = [15] ∧
        x.2.2.riskEvents.map (·.evaluation.score) = [0, 15])) = true := by
    decide +kernel
  obtain ⟨x, hx, hcheck⟩ := (Option.any_eq_true _ _).1 hrun
  obtain ⟨result, hresult, hcheck⟩ := (Option.any_eq_true _ _).1 hcheck
  obtain ⟨h₁, h₂⟩ := runsAlone_loginTwice hx
  obtain ⟨hleft, hscore₁, hscore₂⟩ := of_decide_eq_true hcheck
  have hok : x.1.1 = .ok result := by
    cases hr : x.1.1 with
    | error e =>
        rw [hr] at hresult
        cases hresult
    | ok _ =>
        rw [hr] at hresult
        exact congrArg Except.ok (Option.some.inj hresult)
  rw [hok] at h₁
  exact ⟨result, _, _, _, h₁, h₂, hleft, rfl, hscore₁, hscore₂⟩

end IdentityPlatform
