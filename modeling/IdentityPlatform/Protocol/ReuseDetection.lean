/-
# Who hears of a detected theft

`handleReuseOrInvalid` reports a theft as an `AppError` with the code
`REFRESH_TOKEN_REUSE`.  `AuthService.refresh` looks at the code, so it records what has
happened.  `OAuthService.token` looks for an `AuthError` first, which this error is
not: it records nothing, and the client is told the internal code instead of
`invalid_grant`.
-/

import IdentityPlatform.Protocol.TokenConsumption
import IdentityPlatform.Protocol.Justified
import IdentityPlatform.Protocol.Received

namespace IdentityPlatform

open Interleaving Program Relational Machine AuthServer

variable {P : Platform} {l₀ l later earlier : ServerLog} {e : ServerEvent}

/-- The request presents the refresh token to `consume`. -/
inductive Request.Presents (token : String) : Request → Prop
  | refresh : Presents token (.refresh token)
  | oauth {form basicAuth} (grant : form.grantType = .refreshToken)
      (presented : form.refreshToken = some token) : Presents token (.token form basicAuth)

/-- `e`, between the logs `earlier` and `later`, has revoked the family of a row that had
been found where the presented token could not be rotated. -/
structure Detects (l later : ServerLog) (e : ServerEvent) (earlier : ServerLog) : Prop where
  place : l = later ++ e :: earlier
  found : ∃ hash row n pre post,
    earlier.Saw (.refreshTokens (.selectByHash hash)) (.ok (some row)) ∧
      e = ⟨n, pre, .refreshTokens (.revokeFamily row.familyId), .ok (), post⟩

/-- A `REFRESH_TOKEN_REUSE_DETECTED` record. -/
def Stmt.isReuseRecord : Stmt → Bool
  | .log (.auditEvent event) => event.eventType = "REFRESH_TOKEN_REUSE_DETECTED"
  | _ => false

/-- **The reaction to a theft**: exactly one record, and `invalid_grant` for a client. -/
structure ReactsToReuse (call : ServerCall) (later : ServerLog) : Prop where
  recorded : later.countP (fun e => e.op.isReuseRecord) = 1
  answered : ∀ form basicAuth, call.req.request = .token form basicAuth →
    ∃ statusCode description,
      call.result = some (.error (.oauthTokenError statusCode "invalid_grant" description))

/-! ### Where a row is found -/

/-- No row of a presented token has been found. -/
def FoundNothing (l : ServerLog) : Prop :=
  ∀ hash row, ¬l.Saw (.refreshTokens (.selectByHash hash)) (.ok (some row))

/-- The statements of everything but `handleReuseOrInvalid`. -/
def Stmt.NoLookup (_ : ServerLog) : Stmt → Prop
  | .refreshTokens (.selectByHash _) => False
  | _ => True

/-- The statements that only write the log. -/
def Stmt.OnlyLog (_ : ServerLog) (s : Stmt) : Prop := ∃ entry, s = .log entry

theorem foundNothing_nil : FoundNothing [] := by
  rintro hash row ⟨_, _, _, hmem⟩
  cases hmem

theorem FoundNothing.cons (h : FoundNothing l)
    (he : ∀ hash row n pre post,
      e ≠ ⟨n, pre, .refreshTokens (.selectByHash hash), .ok (some row), post⟩) :
    FoundNothing (e :: l) := by
  rintro hash row ⟨n, pre, post, hmem⟩
  rcases List.mem_cons.1 hmem with heq | hmem
  · exact he hash row n pre post heq.symm
  · exact h hash row ⟨n, pre, post, hmem⟩

theorem FoundNothing.returns {α : Type} {p : Prog α} {r : Except Err α} (h : FoundNothing l₀)
    (hp : Respects Stmt.NoLookup l₀ p) (hr : p.Returns l₀ l r) : FoundNothing l := by
  refine hp.keeps (fun l e he hl => hl.cons ?_) hr h
  rintro hash row n pre post rfl
  exact he

/-- A detection has found a row. -/
theorem Detects.not_foundNothing (h : Detects l later e earlier) : ¬FoundNothing l := by
  intro hnothing
  obtain ⟨hash, row, _, _, _, hsaw, _⟩ := h.found
  refine hnothing hash row (hsaw.mono ?_)
  rw [h.place]
  exact (List.suffix_cons _ _).trans (List.suffix_append ..)

/-- The detection is where the family was revoked. -/
theorem Detects.later_eq {new old : ServerLog} {fam sel : ServerEvent}
    (h : Detects l later e earlier) (hl : l = new ++ fam :: sel :: old) (hold : FoundNothing old)
    (hnew : ∀ x ∈ new, ∀ id, x.op ≠ .refreshTokens (.revokeFamily id))
    (hsel : ∀ id, sel.op ≠ .refreshTokens (.revokeFamily id)) : later = new ∧ e = fam := by
  obtain ⟨hash, row, n, pre, post, hsaw, rfl⟩ := h.found
  rcases List.append_eq_append_iff.1 (h.place.symm.trans hl) with ⟨a, rfl, ha⟩ | ⟨a, rfl, ha⟩
  · cases a with
    | nil => exact ⟨by simp, (List.cons.inj ha).1⟩
    | cons x a =>
        obtain ⟨rfl, _⟩ := List.cons.inj ha
        exact absurd rfl (hnew _ (List.mem_append_right _ (List.mem_cons_self ..)) row.familyId)
  · cases a with
    | nil => exact ⟨by simp, (List.cons.inj ha).1.symm⟩
    | cons x a =>
        cases a with
        | nil =>
            obtain ⟨rfl, _⟩ := List.cons.inj (List.cons.inj ha).2
            exact absurd rfl (hsel row.familyId)
        | cons y a =>
            -- below the `SELECT` nothing has been found
            have htail : old = a ++ _ :: earlier := (List.cons.inj (List.cons.inj ha).2).2
            refine absurd (hsaw.mono ?_) (hold hash row)
            rw [htail]
            exact (List.suffix_cons _ _).trans (List.suffix_append ..)

/-! ### `consume` that returns an error -/

/-- A record is one statement. -/
theorem AuditLogService.record_log {event : AuditEvent} {r : Except Err Unit}
    (h : (record event).Returns l₀ l r) : r = .ok () ∧ ∃ (x : ServerEvent) (metadata : _),
      l = x :: l₀ ∧ x.op = .log (.auditEvent { event with metadata := metadata }) := by
  refine ⟨record_returns h, ?_⟩
  rcases returns_tryCatch.1 h with ⟨a, h, _⟩ | ⟨l₁, err, h, hrest⟩
  · obtain ⟨n, pre, post, rfl⟩ := returns_perform.1 h
    exact ⟨_, _, rfl, rfl⟩
  · obtain ⟨n, pre, post, rfl⟩ := returns_perform.1 h
    obtain ⟨rfl, _⟩ := returns_pure.1 hrest
    exact ⟨_, _, rfl, rfl⟩

/-- The last statement of a detected reuse, and the error that follows it: its own, or the
report. -/
def EndsWith (x : ServerEvent) (err : Err) : Prop :=
  ∃ n pre sid ans post, x = ⟨n, pre, .sessions (.revoke sid "refresh_token_reuse"), ans, post⟩ ∧
    (ans = .error err ∨ ans = .ok () ∧ err = RefreshTokenService.reuse)

/-- Whatever has followed `l`, a reuse detected by then is the one `l` ends with. -/
def Reports (l : ServerLog) (err : Err) : Prop :=
  ∀ new later e earlier, (∀ x ∈ new, ∀ id, x.op ≠ Stmt.refreshTokens (.revokeFamily id)) →
    Detects (new ++ l) later e earlier → ∃ x, later = new ++ [x] ∧ EndsWith x err

namespace RefreshTokenService

/-- How `handleReuseOrInvalid` ends: it has found no row, or it reports what it has found. -/
theorem handleReuseOrInvalid_returns {hash : String} {r : Except Err Unit}
    (hl₀ : FoundNothing l₀) (h : (handleReuseOrInvalid hash).Returns l₀ l r) :
    FoundNothing l ∨ ∃ err, r = .error err ∧ Reports l err := by
  rcases returns_bind.1 h with ⟨l₁, known, h₁, h⟩ | ⟨err, h₁, rfl⟩
  swap
  · obtain ⟨n, pre, post, rfl⟩ := returns_perform.1 h₁
    exact .inl (hl₀.cons (by rintro _ _ _ _ _ ⟨⟩))
  obtain ⟨n, pre, post, rfl⟩ := returns_perform.1 h₁
  cases known with
  | none =>
      obtain ⟨rfl, rfl⟩ := returns_pure.1 h
      exact .inl (hl₀.cons (by rintro _ _ _ _ _ ⟨⟩))
  | some row =>
      refine .inr ?_
      rcases returns_bind.1 h with ⟨l₂, _, h₂, h⟩ | ⟨err, h₂, rfl⟩
      · obtain ⟨n', pre', post', rfl⟩ := returns_perform.1 h₂
        have hlater : ∀ (ses : ServerEvent) err, EndsWith ses err →
            (∀ id, ses.op ≠ .refreshTokens (.revokeFamily id)) →
            Reports (ses :: ⟨n', pre', .refreshTokens (.revokeFamily row.familyId),
              .ok (), post'⟩ ::
              ⟨n, pre, .refreshTokens (.selectByHash hash), .ok (some row), post⟩ :: l₀) err := by
          intro ses err hends hses new later e earlier hnew hd
          refine ⟨ses, (hd.later_eq (List.append_cons new ses _) hl₀ ?_ (by simp)).1, hends⟩
          intro x hx
          rcases List.mem_append.1 hx with hx | hx
          · exact hnew x hx
          · exact List.mem_singleton.1 hx ▸ hses
        rcases returns_bind.1 h with ⟨l₃, _, h₃, h⟩ | ⟨err, h₃, rfl⟩
        · obtain ⟨n'', pre'', post'', rfl⟩ := returns_perform.1 h₃
          obtain ⟨rfl, rfl⟩ := returns_throw.1 h
          exact ⟨_, rfl, hlater _ _ ⟨_, _, _, _, _, rfl, .inr ⟨rfl, rfl⟩⟩ (by simp)⟩
        · obtain ⟨n'', pre'', post'', rfl⟩ := returns_perform.1 h₃
          exact ⟨_, rfl, hlater _ _ ⟨_, _, _, _, _, rfl, .inl rfl⟩ (by simp)⟩
      · -- the family was not revoked
        obtain ⟨n', pre', post', rfl⟩ := returns_perform.1 h₂
        refine ⟨err, rfl, fun new later e earlier hnew hd => ?_⟩
        obtain ⟨_, he⟩ := hd.later_eq rfl hl₀ hnew (by simp)
        obtain ⟨_, _, _, _, _, _, rfl⟩ := hd.found
        have hok := congrArg (fun x : ServerEvent => x.ans.isOk) he
        cases hok

theorem issue_noLookup {params : RefreshIssue} : Respects Stmt.NoLookup l₀ (issue P params) := by
  simp [issue, Stmt.NoLookup]

/-- How `consume` ends. -/
theorem consume_returns {token : String} {r : Except Err ConsumedRefreshToken}
    (hl₀ : FoundNothing l₀) (h : (consume P token).Returns l₀ l r) :
    FoundNothing l ∨ ∃ err, r = .error err ∧ Reports l err := by
  rcases returns_bind.1 h with ⟨l₁, rotated, h₁, h⟩ | ⟨err, h₁, rfl⟩
  swap
  · obtain ⟨n, pre, post, rfl⟩ := returns_perform.1 h₁
    exact .inl (hl₀.cons (by rintro _ _ _ _ _ ⟨⟩))
  have hl₁ : FoundNothing l₁ := hl₀.returns (by simp [Stmt.NoLookup]) h₁
  cases rotated with
  | some row =>
      refine .inl (hl₁.returns ?_ h)
      exact .bind issue_noLookup fun _ _ _ => respects_pure
  | none =>
      rcases returns_bind.1 h with ⟨l₂, _, h₂, h⟩ | ⟨err, h₂, rfl⟩
      · obtain ⟨rfl, rfl⟩ := returns_throw.1 h
        rcases handleReuseOrInvalid_returns hl₁ h₂ with hnothing | ⟨_, he, _⟩
        · exact .inl hnothing
        · cases he
      · rcases handleReuseOrInvalid_returns hl₁ h₂ with hnothing | ⟨err, he, hreports⟩
        · exact .inl hnothing
        · obtain rfl := Except.error.inj he
          exact .inr ⟨_, rfl, hreports⟩

end RefreshTokenService

/-! ### The two callers -/

/-- Reading a session looks for no token. -/
theorem SessionRepository.findById_noLookup {id : String} :
    Respects Stmt.NoLookup l₀ (findById id) := by
  have hfresh : ∀ {l₀ : ServerLog}, Respects Stmt.NoLookup l₀ (loadFresh id) := by
    intro l₀
    refine .bind (by simp [Stmt.NoLookup]) fun l row _ => ?_
    cases row <;> simp [Stmt.NoLookup]
  refine .bind (by simp [Stmt.NoLookup]) fun l cached _ => ?_
  cases cached with
  | none => exact hfresh
  | some session =>
      refine respects_ite.2 ⟨fun _ => respects_pure, fun _ => .bind hfresh fun l fresh _ => ?_⟩
      cases fresh <;> simp [Stmt.NoLookup]

theorem OAuthService.requireActiveSession_noLookup {row : RefreshTokenRow} {err : Err} :
    Respects Stmt.NoLookup l₀ (requireActiveSession row err) := by
  refine .bind SessionRepository.findById_noLookup fun l found _ => ?_
  split <;> simp [RefreshTokenService.revokeFamily, Stmt.NoLookup]

theorem JwtService.signAccessToken_noLookup {input : AccessTokenInput} :
    Respects Stmt.NoLookup l₀ (signAccessToken P input) := by
  simp [signAccessToken, Stmt.NoLookup]

theorem AuditLogService.record_noLookup {event : AuditEvent} :
    Respects Stmt.NoLookup l₀ (record event) := by
  simp [record, Stmt.NoLookup]

/-- **`AuthService.refresh` after a detection**: it records it where the session has been
revoked. -/
theorem AuthService.refresh_detects {token : String} {ctx : RequestContext}
    {r : Except Err LoginResultSuccess} (h : (refresh P token ctx).Returns [] l r)
    (hd : Detects l later e earlier) : ∃ new x err, later = new ++ [x] ∧ EndsWith x err ∧
      (err.code? ≠ some "REFRESH_TOKEN_REUSE" → new = []) ∧
      (err.code? = some "REFRESH_TOKEN_REUSE" → ∃ record, new = [record] ∧
        record.op.isReuseRecord = true) := by
  have hbody : ∀ {l₁ : ServerLog} {r₁ : Except Err LoginResultSuccess},
      (refreshSession P token ctx).Returns [] l₁ r₁ →
        FoundNothing l₁ ∨ ∃ err, r₁ = .error err ∧ Reports l₁ err := by
    intro l₁ r₁ h₁
    rcases returns_bind.1 h₁ with ⟨l₂, consumed, h₂, hrest⟩ | ⟨err, h₂, rfl⟩
    · rcases RefreshTokenService.consume_returns foundNothing_nil h₂ with hnothing | ⟨_, he, _⟩
      · refine .inl (hnothing.returns ?_ hrest)
        simp [OAuthService.requireActiveSession_noLookup, JwtService.signAccessToken_noLookup,
          AuditLogService.record_noLookup, UserRepository.rolesOf, UserRepository.permissionsOf,
          SessionRepository.touch, expiresIn, Stmt.NoLookup]
      · cases he
    · rcases RefreshTokenService.consume_returns foundNothing_nil h₂ with hnothing | ⟨_, he, hrep⟩
      · exact .inl hnothing
      · obtain rfl := Except.error.inj he
        exact .inr ⟨_, rfl, hrep⟩
  rcases returns_tryCatch.1 h with ⟨a, h₁, rfl⟩ | ⟨l₁, err, h₁, hcatch⟩
  · rcases hbody h₁ with hnothing | ⟨_, he, _⟩
    · exact absurd hnothing hd.not_foundNothing
    · cases he
  · rcases hbody h₁ with hnothing | ⟨_, he, hreports⟩
    · refine absurd (hnothing.returns ?_ hcatch) hd.not_foundNothing
      simp [AuditLogService.record_noLookup]
    · obtain rfl := Except.error.inj he
      obtain ⟨l₂, _, hrecord, hthrow⟩ | ⟨_, hrecord, _⟩ := returns_bind.1 hcatch
      · obtain ⟨rfl, _⟩ := returns_throw.1 hthrow
        rcases returns_onlyIf_ok.1 hrecord with ⟨hcode, hrecord⟩ | ⟨hcode, rfl⟩
        · obtain ⟨_, record, metadata, rfl, hop⟩ := AuditLogService.record_log hrecord
          obtain ⟨x, rfl, hends⟩ := hreports [record] later e earlier (by simp [hop]) hd
          refine ⟨[record], x, err, rfl, hends, fun hne => absurd hcode hne, fun _ =>
            ⟨record, rfl, ?_⟩⟩
          rw [hop]
          rfl
        · obtain ⟨x, rfl, hends⟩ := hreports [] later e earlier (by simp) hd
          exact ⟨[], x, err, rfl, hends, fun _ => rfl, fun heq => absurd heq hcode⟩
      · -- recording does not fail
        unfold onlyIf at hrecord
        split_ifs at hrecord
        · cases AuditLogService.record_returns hrecord
        · cases (returns_pure.1 hrecord).2

namespace OAuthService

/-- Client authentication only records its failures. -/
theorem authenticateClient_onlyLog {client : OAuthClientRow} {secret : Option String}
    {ctx : RequestContext} : Respects Stmt.OnlyLog l₀ (authenticateClient P client secret ctx) := by
  have hrecord : ∀ {l₀ : ServerLog} {event : AuditEvent},
      Respects Stmt.OnlyLog l₀ (AuditLogService.record event) := by
    simp [AuditLogService.record, Stmt.OnlyLog]
  have hsecret : Respects Stmt.OnlyLog l₀ (requireSecret P client secret ctx) := by
    refine .bind ?_ fun l ok _ => ?_
    · unfold secretVerifies
      split
      · exact respects_pure
      · unfold ClientRepository.verifySecret
        split <;> simp
    · simp [recordClientAuthFailure, hrecord]
  unfold authenticateClient
  split
  · exact hsecret
  · exact respects_throwIf

theorem authenticateClient_noLookup {client : OAuthClientRow} {secret : Option String}
    {ctx : RequestContext} : Respects Stmt.NoLookup l₀ (authenticateClient P client secret ctx) :=
  authenticateClient_onlyLog.mono fun l s _ ⟨e, hs⟩ => by
    subst hs
    trivial

/-- What follows `consume` in the `refresh_token` branch looks for no token. -/
theorem checkBinding_noLookup {token : String} {row : RefreshTokenRow} {client : OAuthClientRow}
    {ctx : RequestContext} : Respects Stmt.NoLookup l₀ (checkBinding P token row client ctx) := by
  simp [checkBinding, RefreshTokenService.revokeByToken, AuditLogService.record_noLookup,
    Stmt.NoLookup]

/-- The `catch` around `consume` after a detection: the report is no `AuthError` and passes. -/
theorem catchRefreshErrors_detects {token : String} {client : OAuthClientRow} {ctx : RequestContext}
    {r : Except Err ConsumedRefreshToken} (hl₀ : FoundNothing l₀)
    (h : (catchRefreshErrors (RefreshTokenService.consume P token) client ctx).Returns l₀ l r) :
    FoundNothing l ∨ ∃ err, r = .error err ∧ ∀ later e earlier, Detects l later e earlier →
      ∃ new x err', later = new ++ [x] ∧ EndsWith x err' ∧
        (err'.isAuthError = false → new = [] ∧ err = err') := by
  rcases returns_tryCatch.1 h with ⟨a, h₁, rfl⟩ | ⟨l₁, err, h₁, hcatch⟩
  · rcases RefreshTokenService.consume_returns hl₀ h₁ with hnothing | ⟨_, he, _⟩
    · exact .inl hnothing
    · cases he
  · rcases RefreshTokenService.consume_returns hl₀ h₁ with hnothing | ⟨_, he, hreports⟩
    · refine .inl (hnothing.returns ?_ hcatch)
      split_ifs
      · simp [AuditLogService.record_noLookup]
      · exact respects_throw
      · exact respects_throw
    · obtain rfl := Except.error.inj he
      split_ifs at hcatch with hreuse hinvalid
      · rcases returns_bind.1 hcatch with ⟨l₂, _, hrecord, hthrow⟩ | ⟨_, hrecord, _⟩
        · obtain ⟨rfl, rfl⟩ := returns_throw.1 hthrow
          obtain ⟨_, record, metadata, rfl, hop⟩ := AuditLogService.record_log hrecord
          refine .inr ⟨_, rfl, fun later e earlier hd => ?_⟩
          obtain ⟨x, rfl, hends⟩ := hreports [record] later e earlier (by simp [hop]) hd
          exact ⟨[record], x, err, rfl, hends, fun hno => absurd hreuse.1 (by simp [hno])⟩
        · cases AuditLogService.record_returns hrecord
      · obtain ⟨rfl, rfl⟩ := returns_throw.1 hcatch
        refine .inr ⟨_, rfl, fun later e earlier hd => ?_⟩
        obtain ⟨x, rfl, hends⟩ := hreports [] later e earlier (by simp) hd
        exact ⟨[], x, err, rfl, hends, fun hno => absurd hinvalid.1 (by simp [hno])⟩
      · obtain ⟨rfl, rfl⟩ := returns_throw.1 hcatch
        refine .inr ⟨_, rfl, fun later e earlier hd => ?_⟩
        obtain ⟨x, rfl, hends⟩ := hreports [] later e earlier (by simp) hd
        exact ⟨[], x, err, rfl, hends, fun _ => ⟨rfl, rfl⟩⟩

/-- **The `refresh_token` branch after a detection**: nothing is recorded, and the report
itself is the answer. -/
theorem refreshTokenGrant_detects {form : TokenForm} {client : OAuthClientRow}
    {secret : Option String} {ctx : RequestContext} {r : Except Err TokenResponse}
    (hl₀ : FoundNothing l₀)
    (h : (refreshTokenGrant P form client secret ctx).Returns l₀ l r)
    (hd : Detects l later e earlier) : ∃ new x err, later = new ++ [x] ∧ EndsWith x err ∧
      (err.isAuthError = false → new = [] ∧ r = .error err) := by
  have hnot : ¬FoundNothing l := hd.not_foundNothing
  rcases returns_bind.1 h with ⟨l₁, text, h₁, h⟩ | ⟨_, h₁, _⟩
  swap
  · exact absurd (hl₀.returns (by simp [requireText]) h₁) hnot
  have hl₁ := hl₀.returns (by simp [requireText]) h₁
  rcases returns_bind.1 h with ⟨l₂, _, h₂, h⟩ | ⟨_, h₂, _⟩
  swap
  · exact absurd (hl₁.returns authenticateClient_noLookup h₂) hnot
  have hl₂ := hl₁.returns authenticateClient_noLookup h₂
  rcases returns_bind.1 h with ⟨l₃, consumed, h₃, h⟩ | ⟨_, h₃, rfl⟩
  · rcases catchRefreshErrors_detects hl₂ h₃ with hnothing | ⟨_, he, _⟩
    · refine absurd (hnothing.returns ?_ h) hnot
      have hnarrow : ∀ {l₀ : ServerLog} {x : Except Err String},
          Respects Stmt.NoLookup l₀ (Program.done x : Prog String) := fun _ _ h => h.elim
      refine .bind checkBinding_noLookup fun _ _ _ => .bind requireActiveSession_noLookup
        fun _ _ _ => .bind hnarrow fun _ _ _ => ?_
      simp [JwtService.signAccessToken_noLookup, AuditLogService.record_noLookup,
        UserRepository.rolesOf, UserRepository.permissionsOf, expiresIn, Stmt.NoLookup]
    · cases he
  · rcases catchRefreshErrors_detects hl₂ h₃ with hnothing | ⟨_, he, hdetects⟩
    · exact absurd hnothing hnot
    · obtain rfl := Except.error.inj he
      obtain ⟨new, x, err, rfl, hends, hno⟩ := hdetects later e earlier hd
      exact ⟨new, x, err, rfl, hends, fun hauth => ⟨(hno hauth).1, by rw [(hno hauth).2]⟩⟩

theorem token_detects {form : TokenForm} (hgrant : form.grantType = .refreshToken)
    {basicAuth : Option BasicAuth} {ctx : RequestContext} {r : Except Err TokenResponse}
    (h : (token P form basicAuth ctx).Returns [] l r) (hd : Detects l later e earlier) :
    ∃ new x err, later = new ++ [x] ∧ EndsWith x err ∧
      (err.isAuthError = false → new = [] ∧ r = .error err) := by
  have hnot : ¬FoundNothing l := hd.not_foundNothing
  rcases returns_bind.1 h with ⟨l₁, clientId, h₁, h⟩ | ⟨_, h₁, _⟩
  swap
  · exact absurd (foundNothing_nil.returns (by simp [requireText]) h₁) hnot
  have hl₁ := foundNothing_nil.returns (by simp [requireText]) h₁
  rcases returns_bind.1 h with ⟨l₂, found, h₂, h⟩ | ⟨_, h₂, _⟩
  swap
  · exact absurd (hl₁.returns (by simp [ClientRepository.findByClientId, Stmt.NoLookup]) h₂) hnot
  have hl₂ := hl₁.returns (by simp [ClientRepository.findByClientId, Stmt.NoLookup]) h₂
  rcases returns_bind.1 h with ⟨l₃, client, h₃, h⟩ | ⟨_, h₃, _⟩
  swap
  · exact absurd (hl₂.returns respects_orThrow h₃) hnot
  have hl₃ := hl₂.returns respects_orThrow h₃
  rw [hgrant] at h
  exact refreshTokenGrant_detects hl₃ h hd

end OAuthService
/-! ### The theorem -/

section Reaction

variable {c : ServerConfig} {i : ℕ} {call : ServerCall}

/-- The statement that revokes the session of a stolen token has failed. -/
def SessionKept (later : ServerLog) : Prop :=
  ∃ sid err, later.Saw (.sessions (.revoke sid "refresh_token_reuse")) (.error err)

/-- A session is not revoked for want of a connection, or of a well-formed identifier. -/
theorem revokeSession_failed {id reason : String} {pre post : World} {err : Err}
    (h : (machine P).Answers (.sessions (.revoke id reason)) pre (.error err) post) :
    ∃ sqlState, sqlState ≠ "REFRESH_TOKEN_REUSE" ∧ err = .db sqlState := by
  rcases h with ⟨r, h⟩ | ⟨h, _⟩
  · rcases Stmt.exec_cases h with ⟨h, _⟩ | ⟨_, h, _⟩
    · exact ⟨"22P02", by decide, Except.error.inj h⟩
    · cases h
  · exact ⟨"08006", by decide, Except.error.inj h⟩

/-- How a detection ends: with the report, or with the error that has kept the session. -/
theorem EndsWith.cases {new : ServerLog} {x : ServerEvent} {err : Err} (h : EndsWith x err)
    (hx : (machine P).Answers x.op x.pre x.ans x.post) (hl : later = new ++ [x]) :
    x.op.isReuseRecord = false ∧
      ((err = RefreshTokenService.reuse ∧
          ((∀ y ∈ new, y.op.isReuseRecord = true) → ¬SessionKept later)) ∨
        ((∃ sqlState, sqlState ≠ "REFRESH_TOKEN_REUSE" ∧ err = .db sqlState) ∧
          SessionKept later)) := by
  obtain ⟨n, pre, sid, ans, post, rfl, rfl | ⟨rfl, rfl⟩⟩ := h
  · refine ⟨rfl, .inr ⟨revokeSession_failed hx, sid, err, n, pre, post, ?_⟩⟩
    simp [hl]
  · refine ⟨rfl, .inl ⟨rfl, ?_⟩⟩
    rintro hnew ⟨sid', err, n', pre', post', hmem⟩
    rcases List.mem_append.1 (hl ▸ hmem) with hmem | hmem
    · cases hnew _ hmem
    · have hok := congrArg (fun x : ServerEvent => x.ans.isOk) (List.mem_singleton.1 hmem)
      cases hok

/-- **The entry points react alike only where the reaction is `/auth/refresh`'s.**  When a
call that presents a refresh token has revoked a family for reuse, it records that exactly
once, and answers a client with `invalid_grant`, if and only if the token was presented at
`/auth/refresh` and the session has been revoked as well. -/
theorem reuse_reaction_iff (hreach : (machine P).Reachable World.Initial c)
    (hi : c.calls[i]? = some call) {r : Except Err Response} (hresult : call.result = some r)
    {token : String} (hpresents : call.req.request.Presents token)
    (hd : Detects call.log later e earlier) :
    ReactsToReuse call later ↔ call.req.request = .refresh token ∧ ¬SessionKept later := by
  have hv := hreach.valid
  have hreturns : (AuthServer.handler P call.req).Returns [] call.log r := hv.returned hi hresult
  have hanswers : ∀ {new x}, later = new ++ [x] → (machine P).Answers x.op x.pre x.ans x.post := by
    intro new x hl
    exact hv.answers hi x (by simp [hd.place, hl])
  have hnone : ∀ {x}, later = [] ++ [x] → x.op.isReuseRecord = false →
      ¬ReactsToReuse call later := by
    rintro x rfl hx hreacts
    have hcount := hreacts.recorded
    simp [hx] at hcount
  cases hrequest : call.req.request with
  | refresh token' =>
      rw [hrequest] at hpresents
      obtain rfl : token' = token := by
        cases hpresents
        rfl
      have hhandler : AuthServer.handler P call.req = (do
          let result ← AuthService.refresh P token' call.req.ctx
          pure (.session result)) := by
        unfold AuthServer.handler
        rw [hrequest]
      rw [hhandler] at hreturns
      obtain ⟨r', hrefresh, _⟩ := hreturns.of_map
      obtain ⟨new, x, err, hlater, hends, hkeeps, hrecords⟩ :=
        AuthService.refresh_detects hrefresh hd
      obtain ⟨hx, ⟨rfl, hreported⟩ | ⟨⟨sqlState, hne, rfl⟩, hkept⟩⟩ :=
        hends.cases (hanswers hlater) hlater
      · obtain ⟨record, rfl, hrecord⟩ := hrecords rfl
        have hnot : ¬SessionKept later := hreported (by simp [hrecord])
        have hreacts : ReactsToReuse call later :=
          ⟨by simp [hlater, hrecord, hx], fun form basicAuth h => by rw [hrequest] at h; cases h⟩
        exact ⟨fun _ => ⟨rfl, hnot⟩, fun _ => hreacts⟩
      · obtain rfl := hkeeps (by simpa [Err.code?] using hne)
        exact ⟨fun hreacts => absurd hreacts (hnone hlater hx), fun h => absurd hkept h.2⟩
  | token form basicAuth =>
      rw [hrequest] at hpresents
      have hgrant : form.grantType = .refreshToken := by
        cases hpresents
        assumption
      have hhandler : AuthServer.handler P call.req = (do
          let response ← OAuthService.token P form basicAuth call.req.ctx
          pure (.tokens response)) := by
        unfold AuthServer.handler
        rw [hrequest]
      rw [hhandler] at hreturns
      obtain ⟨r', htoken, _⟩ := hreturns.of_map
      obtain ⟨new, x, err, hlater, hends, hpasses⟩ := OAuthService.token_detects hgrant htoken hd
      obtain ⟨hx, herr⟩ := hends.cases (hanswers hlater) hlater
      have hauth : err.isAuthError = false := by
        rcases herr with ⟨rfl, _⟩ | ⟨⟨_, _, rfl⟩, _⟩ <;> rfl
      obtain ⟨rfl, _⟩ := hpasses hauth
      exact ⟨fun hreacts => absurd hreacts (hnone hlater hx), fun h => by cases h.1⟩
  | _ => rw [hrequest] at hpresents; cases hpresents

/-- Where a family is revoked in a log, right after a row of it was found. -/
def detection? : ServerLog → Option (ServerLog × ServerEvent × ServerLog)
  | [] => none
  | fam :: l =>
      match fam, l with
      | ⟨_, _, .refreshTokens (.revokeFamily id), .ok _, _⟩,
          ⟨_, _, .refreshTokens (.selectByHash _), .ok (some row), _⟩ :: _ =>
          if id = row.familyId then some ([], fam, l) else none
      | _, _ => (detection? l).map fun x => (fam :: x.1, x.2)

theorem detects_of_detection? {l later earlier : ServerLog} {e : ServerEvent}
    (h : detection? l = some (later, e, earlier)) : Detects l later e earlier := by
  induction l generalizing later with
  | nil => cases h
  | cons fam l ih =>
      unfold detection? at h
      split at h
      · rename_i n pre id u post n' pre' hash row post' tail
        split_ifs at h with hid
        obtain ⟨rfl, rfl, rfl⟩ := h
        subst hid
        exact ⟨rfl, hash, row, n, pre, post, ⟨n', pre', post', List.mem_cons_self ..⟩, rfl⟩
      · obtain ⟨⟨later', e', earlier'⟩, hrec, heq⟩ := Option.map_eq_some_iff.1 h
        obtain ⟨rfl, rfl, rfl⟩ := heq
        obtain ⟨hplace, hfound⟩ := ih hrec
        exact ⟨congrArg (fam :: ·) hplace, hfound⟩

/-- The token presented at `/auth/refresh`. -/
def refreshPresented? (call : ServerCall) : Option String :=
  match call.req.request with
  | .refresh token => some token
  | _ => none

theorem refreshPresented?_eq_some {token : String} (h : refreshPresented? call = some token) :
    call.req.request = .refresh token := by
  unfold refreshPresented? at h
  split at h
  · rename_i hrequest
    rw [hrequest, Option.some.inj h]
  · cases h

/-- The refresh token presented at `/oauth/token`. -/
def clientPresented? (call : ServerCall) : Option String :=
  match call.req.request with
  | .token form _ => if form.grantType = .refreshToken then form.refreshToken else none
  | _ => none

theorem clientPresented?_eq_some {token : String} (h : clientPresented? call = some token) :
    call.req.request.Presents token := by
  unfold clientPresented? at h
  split at h
  · rename_i hrequest
    split_ifs at h with hgrant
    exact hrequest ▸ .oauth hgrant h
  · cases h

/-- The refresh token before the newest one. -/
def rotatedToken (w : World) : String := ((w.generated.filter isRandomToken)[1]?).getD ""

/-- A token is rotated and presented again at `/auth/refresh`. -/
def theftMoves : List (Move World Incoming Env) :=
  loginMoves 0 "al@x.io" "Al 1" ++
    [.accept fun w => ⟨.refresh (lastToken w), {}⟩, .steps 1 40,
     .accept fun w => ⟨.refresh (rotatedToken w), {}⟩, .steps 2 40]

/-- `/auth/refresh` reacts. -/
theorem reuse_reaction_iff_of_refresh :
    ∃ (c : ServerConfig) (call : ServerCall) (later earlier : ServerLog) (e : ServerEvent),
      c.calls[2]? = some call ∧ Detects call.log later e earlier ∧ ReactsToReuse call later := by
  have hplay : (sampleRun theftMoves).any (fun c => (c.calls[2]?).any fun call =>
      call.result.isSome && (refreshPresented? call).isSome && (detection? call.log).any fun x =>
        x.1.all fun y => y.ans.isOk) = true := by
    decide +kernel
  obtain ⟨c, hc, hall⟩ := (Option.any_eq_true _ _).1 hplay
  obtain ⟨call, hi, hall⟩ := (Option.any_eq_true _ _).1 hall
  simp only [Bool.and_eq_true, Option.any_eq_true, Option.isSome_iff_exists,
    List.all_eq_true] at hall
  obtain ⟨⟨⟨r, hresult⟩, token, htoken⟩, ⟨later, e, earlier⟩, hdetects, hok⟩ := hall
  have hrequest := refreshPresented?_eq_some htoken
  have hd := detects_of_detection? hdetects
  refine ⟨c, call, later, earlier, e, hi, hd, ?_⟩
  refine (reuse_reaction_iff (sampleRun_reachable hc) hi hresult (hrequest ▸ .refresh) hd).2
    ⟨hrequest, ?_⟩
  rintro ⟨sid, err, n, pre, post, hmem⟩
  cases hok _ hmem

/-- A token of a client is rotated and presented again at `/oauth/token`. -/
def clientTheftMoves : List (Move World Incoming Env) :=
  loginMoves 0 "al@x.io" "Al 1" ++ authorizeMoves 1 "api.read" none ++ exchangeMoves 2 ++
    [.accept fun w => ⟨.token (sampleRefreshForm (lastToken w)) none, {}⟩, .steps 3 40,
     .accept fun w => ⟨.token (sampleRefreshForm (rotatedToken w)) none, {}⟩, .steps 4 40]

/-- **A theft that nobody records.**  `/oauth/token` revokes the family and the session,
records nothing of it and answers with the internal error code. -/
theorem client_theft_unrecorded :
    ∃ (c : ServerConfig) (call : ServerCall) (later earlier : ServerLog) (e : ServerEvent)
      (token : String), sampleRun clientTheftMoves = some c ∧ c.calls[4]? = some call ∧
      call.req.request.Presents token ∧ Detects call.log later e earlier ∧
      call.result = some (.error RefreshTokenService.reuse) ∧
      call.log.countP (fun e => e.op.isReuseRecord) = 0 ∧ ¬ReactsToReuse call later := by
  have hplay : (sampleRun clientTheftMoves).any (fun c => (c.calls[4]?).any fun call =>
      decide (call.result = some (.error RefreshTokenService.reuse)) &&
        decide (call.log.countP (fun e => e.op.isReuseRecord) = 0) &&
        (clientPresented? call).isSome && (detection? call.log).isSome) = true := by
    decide +kernel
  obtain ⟨c, hc, hall⟩ := (Option.any_eq_true _ _).1 hplay
  obtain ⟨call, hi, hall⟩ := (Option.any_eq_true _ _).1 hall
  simp only [Bool.and_eq_true, decide_eq_true_eq, Option.isSome_iff_exists] at hall
  obtain ⟨⟨⟨hresult, hcount⟩, token, htoken⟩, ⟨later, e, earlier⟩, hdetects⟩ := hall
  have hd := detects_of_detection? hdetects
  refine ⟨c, call, later, earlier, e, token, hc, hi, clientPresented?_eq_some htoken, hd, hresult,
    hcount, fun hreacts => ?_⟩
  have hle : later.countP (fun e => e.op.isReuseRecord) ≤
      call.log.countP fun e => e.op.isReuseRecord := by
    rw [hd.place]
    exact (List.sublist_append_left ..).countP_le
  rw [hreacts.recorded, hcount] at hle
  exact absurd hle (by decide)

end Reaction

end IdentityPlatform
