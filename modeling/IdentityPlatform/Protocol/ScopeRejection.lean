/-
# A scope that is refused too late

The `refresh_token` branch compares the requested scope with the grant only after
`consume`.  A request that is refused with `invalid_scope` has already rotated the token;
its successor is stored, but never sent to the client.  `invalid_scope_spends` says that
this happens in every such refusal, and what the next use of the token then meets: it is
taken for a stolen one.
-/

import IdentityPlatform.Interleaving.Failures
import IdentityPlatform.Protocol.ReuseDetection
import IdentityPlatform.Protocol.Revocation

namespace IdentityPlatform

open Interleaving Program Relational Machine AuthServer

variable {P : Platform} {l₀ l : ServerLog} {ctx : RequestContext}

/-- The error `invalid_scope`. -/
def Err.isInvalidScope : Err → Bool
  | .app e => e.code = "invalid_scope"
  | _ => false

/-! ### Where the refusal comes from -/

/-- Nothing before the comparison of scopes, and nothing after it, refuses the scope. -/
abbrev NotRefused {α : Type} (p : Prog α) : Prop :=
  FailsWith (S := statements) World (fun e => e.isInvalidScope = false) p

/-- A record never fails. -/
theorem AuditLogService.record_failsWith {E : Err → Prop} {event : AuditEvent} :
    FailsWith (S := statements) World E (record event) :=
  fun _ _ _ h => by cases record_returns h

theorem requireText_notRefused {value : Option String} {e : Err} (he : e.isInvalidScope = false) :
    NotRefused (requireText value e) := .orThrow he

namespace OAuthService

theorem authenticateClient_notRefused {client : OAuthClientRow} {secret : Option String} :
    NotRefused (authenticateClient P client secret ctx) := by
  have hverifies : NotRefused (secretVerifies P client secret) := by
    unfold secretVerifies
    split
    · exact .pure
    · unfold ClientRepository.verifySecret
      split
      · exact .pure
      · exact .orThrow (by decide)
  unfold authenticateClient
  split
  · refine .bind hverifies fun ok => .onlyIf (.bind AuditLogService.record_failsWith fun _ => ?_)
    exact .throw (by decide)
  · exact .throwIf fun _ => by decide

end OAuthService

namespace RefreshTokenService

/-- A token is issued unless a statement fails. -/
theorem issue_failsWith {E : Err → Prop} {params : RefreshIssue} :
    FailsWith (S := statements) World E (issue P params) := by
  refine .bind .perform fun _ => .bind (.orDo .perform) fun _ => .bind .perform fun _ => ?_
  exact .bind .perform fun _ => .pure

theorem consume_notRefused {token : String} : NotRefused (consume P token) := by
  refine .bind .perform fun rotated => ?_
  cases rotated with
  | some row => exact .bind issue_failsWith fun _ => .pure
  | none =>
      refine .bind (.bind .perform fun known => ?_) fun _ => .throw (by decide)
      cases known with
      | none => exact .pure
      | some row => exact .bind .perform fun _ => .bind .perform fun _ => .throw (by decide)

end RefreshTokenService

namespace OAuthService

theorem catchRefreshErrors_notRefused {client : OAuthClientRow} {token : String} :
    NotRefused (catchRefreshErrors (RefreshTokenService.consume P token) client ctx) := by
  refine .tryCatch RefreshTokenService.consume_notRefused fun l₀ l e e' h => ?_
  split_ifs at h
  · have hthrow : NotRefused (do
        AuditLogService.record
          { eventType := "REFRESH_TOKEN_REUSE_DETECTED", ip := ctx.ip
            requestId := some ctx.requestId
            metadata := [("kind", .text "oauth_refresh_reuse"),
              ("client_id", .text client.clientId)] }
        throw (.oauthTokenError 401 "invalid_grant"
          "Refresh token reuse detected - chain revoked") : Prog ConsumedRefreshToken) :=
      .bind AuditLogService.record_failsWith fun _ => .throw (by decide)
    exact (hthrow l₀ l e' h).imp_right .inl
  · obtain ⟨_, he⟩ := returns_throw.1 h
    exact .inr (.inl (Except.error.inj he ▸ by decide))
  · obtain ⟨hl, he⟩ := returns_throw.1 h
    exact .inr (.inr ⟨hl, Except.error.inj he⟩)

theorem checkBinding_notRefused {token : String} {row : RefreshTokenRow} {client : OAuthClientRow} :
    NotRefused (checkBinding P token row client ctx) := by
  refine .onlyIf (.bind (.bind .perform fun _ => .pure) fun _ => ?_)
  exact .bind AuditLogService.record_failsWith fun _ => .throw (by decide)

theorem requireActiveSession_notRefused {row : RefreshTokenRow} {e : Err}
    (he : e.isInvalidScope = false) : NotRefused (requireActiveSession row e) := by
  have hfresh : NotRefused (SessionRepository.loadFresh row.sessionId) := by
    refine .bind .perform fun found => ?_
    cases found with
    | none => exact .pure
    | some session => exact .bind .perform fun _ => .pure
  have hfind : NotRefused (SessionRepository.findById row.sessionId) := by
    refine .bind .perform fun cached => ?_
    cases cached with
    | none => exact hfresh
    | some session =>
        refine .ite .pure (.bind hfresh fun fresh => ?_)
        cases fresh with
        | none => exact .bind .perform fun _ => .pure
        | some session => exact .pure
  refine .bind hfind fun found => ?_
  split
  · exact .pure
  · exact .bind .perform fun _ => .throw he

/-- **A scope is refused after the token has been spent.** -/
theorem refreshTokenGrant_refused {form : TokenForm} {client : OAuthClientRow}
    {secret : Option String} {e : Err} (he : e.isInvalidScope = true)
    (hsaw : ∀ s : Stmt, ¬Log.Saw l s (.error e))
    (h : (refreshTokenGrant P form client secret ctx).Returns l₀ l (.error e)) :
    ∃ token row, form.refreshToken = some token ∧ row.clientId = some client.id ∧
      l.Saw (.refreshTokens (.rotate (P.sha256Hex token))) (.ok (some row)) ∧
      ∀ scope, narrowScope row.scope form.scope ≠ .ok scope := by
  have hnot : ∀ {α : Type} {p : Prog α} {l₁ l₂ : ServerLog}, NotRefused p →
      p.Returns l₁ l₂ (.error e) → l₂ <:+ l → False := by
    intro α p l₁ l₂ hp hr hl
    rcases hp l₁ l₂ e hr with ⟨s, hs⟩ | hno
    · exact hsaw s (hs.mono hl)
    · rw [he] at hno
      cases hno
  rcases h.error_of_bind with h₁ | ⟨l₁, token, h₁, hs₁, h⟩
  · exact (hnot (requireText_notRefused (by decide)) h₁ (List.suffix_refl _)).elim
  rcases Returns.error_of_bind h with h₂ | ⟨l₂, _, h₂, hs₂, h⟩
  · exact (hnot authenticateClient_notRefused h₂ (List.suffix_refl _)).elim
  rcases Returns.error_of_bind h with h₃ | ⟨l₃, consumed, h₃, hs₃, h⟩
  · exact (hnot catchRefreshErrors_notRefused h₃ (List.suffix_refl _)).elim
  rcases Returns.error_of_bind h with h₄ | ⟨l₄, _, h₄, hs₄, h⟩
  · exact (hnot checkBinding_notRefused h₄ (List.suffix_refl _)).elim
  rcases Returns.error_of_bind h with h₅ | ⟨l₅, _, h₅, hs₅, h⟩
  · exact (hnot (requireActiveSession_notRefused (by decide)) h₅ (List.suffix_refl _)).elim
  have hrotated := (RefreshTokenService.consume_ok (catchRefreshErrors_ok h₃)).1.mono hs₃
  refine ⟨token, consumed.row, (requireText_ok h₁).1, checkBinding_ok h₄, hrotated,
    fun scope hscope => ?_⟩
  -- behind the comparison nothing refuses a scope
  rcases Returns.error_of_bind h with h₆ | ⟨l₆, _, h₆, hs₆, h⟩
  · cases hscope.symm.trans h₆.2.symm
  · refine hnot (.bind .perform fun _ => .bind .perform fun _ => .bind ?_ fun _ =>
      .bind AuditLogService.record_failsWith fun _ => .bind ?_ fun _ => .pure) h
      (List.suffix_refl _)
    · refine .bind .perform fun _ => .bind .perform fun _ => .bind .perform fun _ => ?_
      exact .bind .perform fun _ => .pure
    · exact .bind .perform fun _ => .pure

theorem token_refused {form : TokenForm} (hgrant : form.grantType = .refreshToken)
    {basicAuth : Option BasicAuth} {e : Err} (he : e.isInvalidScope = true)
    (hsaw : ∀ s : Stmt, ¬Log.Saw l s (.error e))
    (h : (token P form basicAuth ctx).Returns l₀ l (.error e)) :
    ∃ token client row, form.refreshToken = some token ∧
    row.clientId = some (OAuthClientRow.id client) ∧
      l.Saw (.refreshTokens (.rotate (P.sha256Hex token))) (.ok (some row)) ∧
      ∀ scope, narrowScope row.scope form.scope ≠ .ok scope := by
  have hnot : ∀ {b : Bool}, e.isInvalidScope = b → b = false → False := by
    rintro _ rfl hb
    rw [he] at hb
    cases hb
  rcases h.error_of_bind with h₁ | ⟨l₁, clientId, h₁, hs₁, h⟩
  · rcases requireText_notRefused (by decide) _ _ _ h₁ with ⟨s, hs⟩ | hno
    · exact (hsaw s hs).elim
    · exact (hnot rfl hno).elim
  rcases Returns.error_of_bind h with h₂ | ⟨l₂, found, h₂, hs₂, h⟩
  · exact (hsaw _ h₂.saw).elim
  rcases Returns.error_of_bind h with h₃ | ⟨l₃, client, h₃, hs₃, h⟩
  · exact (hnot rfl ((returns_orThrow_error.1 h₃).2.2 ▸ rfl)).elim
  rw [hgrant] at h
  obtain ⟨token, row, hrest⟩ := refreshTokenGrant_refused he hsaw h
  exact ⟨token, client, row, hrest⟩

end OAuthService

/-! ### What a spent token meets -/

/-- Statements that rotate nothing. -/
def Stmt.NoRotation (_ : ServerLog) : Stmt → Prop
  | .refreshTokens (.rotate _) => False
  | _ => True

theorem not_saw_rotate {α : Type} {p : Prog α} {r : Except Err α} {hash : String}
    {ans : Except Err (Option RefreshTokenRow)} (hp : Respects Stmt.NoRotation l₀ p)
    (h : p.Returns l₀ l r) (h₀ : ¬l₀.Saw (.refreshTokens (.rotate hash)) ans) :
    ¬l.Saw (.refreshTokens (.rotate hash)) ans := by
  refine hp.keeps (O := fun l : ServerLog => ¬l.Saw (.refreshTokens (.rotate hash)) ans)
    (fun l e he hl => ?_) h h₀
  rintro ⟨n, pre, post, hmem⟩
  rcases List.mem_cons.1 hmem with rfl | hmem
  · exact he
  · exact hl ⟨n, pre, post, hmem⟩

/-- `consume` with a token that does not rotate, when no statement fails. -/
theorem RefreshTokenService.consume_of_spent {token : String} {r : Except Err ConsumedRefreshToken}
    (h : (consume P token).Returns l₀ l r) (hok : ∀ e ∈ l, e.ans.isOk = true)
    (hspent : ∀ row, ¬l.Saw (.refreshTokens (.rotate (P.sha256Hex token))) (.ok (some row))) :
    l.Saw (.refreshTokens (.selectByHash (P.sha256Hex token))) (.ok none) ∨
      ∃ known, l.Saw (.refreshTokens (.selectByHash (P.sha256Hex token))) (.ok (some known)) ∧
        l.Saw (.sessions (.revoke known.sessionId "refresh_token_reuse")) (.ok ()) ∧
        r = .error reuse := by
  have hnot : ∀ {s : Stmt} {l₁ l₂ : ServerLog} {e : Err},
      (query s).Returns l₁ l₂ (.error e) → l₂ <:+ l → False := by
    intro s l₁ l₂ e hr hl
    obtain ⟨n, pre, post, hmem⟩ := hr.saw.mono hl
    cases hok _ hmem
  rcases returns_bind.1 h with ⟨l₁, rotated, h₁, h⟩ | ⟨e, h₁, _⟩
  swap
  · exact (hnot h₁ (List.suffix_refl _)).elim
  cases rotated with
  | some row => exact (hspent row (h₁.saw.mono h.suffix)).elim
  | none =>
      have hreuse : ∀ {l₂ : ServerLog} {r' : Except Err Unit}, l₂ <:+ l →
          (handleReuseOrInvalid (P.sha256Hex token)).Returns l₁ l₂ r' →
          l₂.Saw (.refreshTokens (.selectByHash (P.sha256Hex token))) (.ok none) ∨
            ∃ known,
              l₂.Saw (.refreshTokens (.selectByHash (P.sha256Hex token))) (.ok (some known)) ∧
              l₂.Saw (.sessions (.revoke known.sessionId "refresh_token_reuse")) (.ok ()) ∧
              r' = .error reuse := by
        intro l₂ r' hl h₂
        rcases returns_bind.1 h₂ with ⟨l₃, known, h₃, h₂⟩ | ⟨e, h₃, _⟩
        swap
        · exact (hnot h₃ hl).elim
        cases known with
        | none => exact .inl (h₃.saw.mono h₂.suffix)
        | some known =>
            rcases returns_bind.1 h₂ with ⟨l₄, _, h₄, h₂⟩ | ⟨e, h₄, _⟩
            swap
            · exact (hnot h₄ hl).elim
            rcases returns_bind.1 h₂ with ⟨l₅, _, h₅, h₂⟩ | ⟨e, h₅, _⟩
            swap
            · exact (hnot h₅ hl).elim
            obtain ⟨rfl, rfl⟩ := returns_throw.1 h₂
            exact .inr ⟨known, h₃.saw.mono (h₄.suffix.trans h₅.suffix), h₅.saw, rfl⟩
      rcases returns_bind.1 h with ⟨l₂, _, h₂, h⟩ | ⟨e, h₂, rfl⟩
      · rcases hreuse h.suffix h₂ with hnone | ⟨_, _, _, he⟩
        · exact .inl (hnone.mono h.suffix)
        · cases he
      · rcases hreuse (List.suffix_refl _) h₂ with hnone | ⟨known, hsel, hrev, he⟩
        · exact .inl hnone
        · exact .inr ⟨known, hsel, hrev, by rw [Except.error.inj he]⟩

/-- **A presented token reaches `consume`**, or the call fails and rotates nothing.  What
`consume` reports is the answer, unless the token endpoint takes it for an `AuthError`. -/
theorem presented_consumes {incoming : Incoming} {token : String} {r : Except Err Response}
    (hp : incoming.request.Presents token) (h : (AuthServer.handler P incoming).Returns [] l r) :
    ((∃ e, r = .error e) ∧ ∀ hash ans, ¬l.Saw (.refreshTokens (.rotate hash)) ans) ∨
      ∃ (l₁ l₂ : ServerLog) (r₁ : Except Err ConsumedRefreshToken), l₂ <:+ l ∧
        (RefreshTokenService.consume P token).Returns l₁ l₂ r₁ ∧
        ∀ e, r₁ = .error e → ∃ e', r = .error e' ∧ (e.isAuthError = false → e' = e) := by
  obtain ⟨request, ctx⟩ := incoming
  cases hp with
  | refresh =>
      obtain ⟨r', hrefresh, hr⟩ := Returns.of_map h
      -- the body of the `try` starts with `consume`
      have hbody : ∀ {l₁ : ServerLog} {r₁ : Except Err LoginResultSuccess},
          (AuthService.refreshSession P token ctx).Returns [] l₁ r₁ →
            ∃ (l₂ : ServerLog) (r₂ : Except Err ConsumedRefreshToken), l₂ <:+ l₁ ∧
              (RefreshTokenService.consume P token).Returns [] l₂ r₂ ∧
              ∀ e, r₂ = .error e → r₁ = .error e := by
        intro l₁ r₁ h₁
        rcases returns_bind.1 h₁ with ⟨l₂, consumed, h₂, hrest⟩ | ⟨e, h₂, rfl⟩
        · exact ⟨l₂, _, hrest.suffix, h₂, by rintro _ ⟨⟩⟩
        · exact ⟨l₁, _, List.suffix_refl _, h₂, by rintro _ ⟨⟩; rfl⟩
      rcases returns_tryCatch.1 hrefresh with ⟨a, h₁, rfl⟩ | ⟨l₁, e, h₁, hcatch⟩
      · obtain ⟨l₂, r₂, hl, hconsume, hpass⟩ := hbody h₁
        exact .inr ⟨[], l₂, r₂, hl, hconsume, fun e he => by cases hpass e he⟩
      · obtain ⟨l₂, r₂, hl, hconsume, hpass⟩ := hbody h₁
        refine .inr ⟨[], l₂, r₂, hl.trans hcatch.suffix, hconsume,
          fun e' he' => ⟨e', hr e' ?_, fun _ => rfl⟩⟩
        obtain rfl := Except.error.inj (hpass e' he')
        rcases returns_bind.1 hcatch with ⟨_, _, _, hthrow⟩ | ⟨_, hrecord, _⟩
        · exact (returns_throw.1 hthrow).2
        · -- recording does not fail
          unfold onlyIf at hrecord
          split_ifs at hrecord
          · cases AuditLogService.record_returns hrecord
          · cases (returns_pure.1 hrecord).2
  | @oauth form basicAuth hgrant hpresented =>
      obtain ⟨r', htoken, hr⟩ := Returns.of_map h
      have hstart : ∀ {hash : String} {ans : Except Err (Option RefreshTokenRow)},
          ¬Log.Saw ([] : ServerLog) (.refreshTokens (.rotate hash)) ans := by
        rintro hash ans ⟨_, _, _, hmem⟩
        cases hmem
      have hfind : ∀ {l₀ : ServerLog} {clientId : String}, Respects Stmt.NoRotation l₀
          (ClientRepository.findByClientId clientId) := by
        simp [ClientRepository.findByClientId, Stmt.NoRotation]
      have hauthenticate : ∀ {l₀ : ServerLog} {client : OAuthClientRow} {secret : Option String},
          Respects Stmt.NoRotation l₀ (OAuthService.authenticateClient P client secret ctx) :=
        OAuthService.authenticateClient_onlyLog.mono fun l s _ hs => by
          obtain ⟨e, rfl⟩ := hs
          trivial
      have htext : ∀ {l₀ : ServerLog} {value : Option String} {e : Err},
          Respects Stmt.NoRotation l₀ (requireText value e) := by
        simp [requireText]
      rcases returns_bind.1 htoken with ⟨l₁, clientId, h₁, h₁'⟩ | ⟨e, h₁, he⟩
      swap
      · exact .inl ⟨⟨e, hr e he⟩, fun hash ans => not_saw_rotate htext h₁ hstart⟩
      rcases returns_bind.1 h₁' with ⟨l₂, found, h₂, h₂'⟩ | ⟨e, h₂, he⟩
      swap
      · exact .inl ⟨⟨e, hr e he⟩, fun hash ans =>
          not_saw_rotate hfind h₂ (not_saw_rotate htext h₁ hstart)⟩
      rcases returns_bind.1 h₂' with ⟨l₃, client, h₃, h₃'⟩ | ⟨e, h₃, he⟩
      swap
      · exact .inl ⟨⟨e, hr e he⟩, fun hash ans => not_saw_rotate respects_orThrow h₃
          (not_saw_rotate hfind h₂ (not_saw_rotate htext h₁ hstart))⟩
      have hbefore : ∀ {hash : String} {ans : Except Err (Option RefreshTokenRow)},
          ¬l₃.Saw (.refreshTokens (.rotate hash)) ans := not_saw_rotate respects_orThrow h₃
        (not_saw_rotate hfind h₂ (not_saw_rotate htext h₁ hstart))
      rw [hgrant] at h₃'
      rcases returns_bind.1 h₃' with ⟨l₄, text, h₄, h₄'⟩ | ⟨e, h₄, he⟩
      swap
      · exact .inl ⟨⟨e, hr e he⟩, fun hash ans => not_saw_rotate htext h₄ hbefore⟩
      rcases returns_bind.1 h₄' with ⟨l₅, _, h₅, h₅'⟩ | ⟨e, h₅, he⟩
      swap
      · exact .inl ⟨⟨e, hr e he⟩, fun hash ans =>
          not_saw_rotate hauthenticate h₅ (not_saw_rotate htext h₄ hbefore)⟩
      obtain rfl : text = token :=
        Option.some.inj ((requireText_ok h₄).1.symm.trans hpresented)
      right
      rcases returns_bind.1 h₅' with ⟨l₆, consumed, h₆, hrest⟩ | ⟨e₆, h₆, rfl⟩
      · exact ⟨l₅, l₆, _, hrest.suffix, OAuthService.catchRefreshErrors_ok h₆, by rintro _ ⟨⟩⟩
      · rcases returns_tryCatch.1 h₆ with ⟨_, _, he⟩ | ⟨l₇, e, h₇, hcatch⟩
        · cases he
        · refine ⟨l₅, l₇, _, hcatch.suffix, h₇, fun e' he' => ⟨e₆, hr e₆ rfl, fun hauth => ?_⟩⟩
          obtain rfl := Except.error.inj he'
          rw [if_neg (by simp [hauth]), if_neg (by simp [hauth])] at hcatch
          exact Except.error.inj (returns_throw.1 hcatch).2

/-! ### The theorem -/

section Refused

variable {c c' : ServerConfig} {i j : ℕ} {call later : ServerCall} {token hash : String}

/-- What becomes of a rotated row: its hash is never active again. -/
theorem rotated_spent (hreach : (machine P).Reachable World.Initial c)
    (hi : c.calls[i]? = some call)
    {row : RefreshTokenRow} (hsaw : call.log.Saw (.refreshTokens (.rotate hash)) (.ok (some row)))
    {w : World} (hw : c.world.Le w) (hsound : w.Sound) :
    ∃ r ∈ w.refreshTokens, r.tokenHash = hash ∧ r.status ≠ .active ∧ r.sessionId = row.sessionId ∧
      w.refreshToken hash = some r := by
  obtain ⟨n, pre, post, hmem, hans⟩ := answered hreach.valid hi hsaw
  obtain ⟨old, _, hhash, _, _, rfl, hpost⟩ := Stmt.rotate_answer hans
  have hle : post.Le w := ((hreach.ordered (le_stable P)).post hi _ hmem).trans hw
  obtain ⟨r, hr, hrow⟩ := hle.refreshTokens _ hpost
  have hrhash : r.tokenHash = hash := hrow.tokenHash.trans hhash
  refine ⟨r, hr, hrhash, hrow.spent (by simp), hrow.sessionId, ?_⟩
  rw [World.refreshToken, ← hrhash]
  exact lookup_of_mem hsound.tokenHashes hr

/-- The session of a rotated row stays revoked once a later call has revoked it. -/
theorem session_revoked (hreach : (machine P).Reachable World.Initial c)
    (hi : c.calls[i]? = some call)
    {row : RefreshTokenRow} (hsaw : call.log.Saw (.refreshTokens (.rotate hash)) (.ok (some row)))
    (hrun : (machine P).Run c c') (hj : c'.calls[j]? = some later) (hnew : c.calls.length ≤ j)
    {reason : String}
    (hrevoke : later.log.Saw (.sessions (.revoke row.sessionId reason)) (.ok ())) :
    ∀ s ∈ c'.world.sessions, s.id = row.sessionId → s.status = .revoked := by
  have hreach' := hreach.run hrun
  obtain ⟨r, hr, _, _, hsid, _⟩ :=
    rotated_spent hreach hi hsaw (World.Le.refl _) (reachable_sound hreach).1
  obtain ⟨s₀, hs₀, hid₀⟩ := session_referenced hreach hr
  obtain ⟨n, pre, post, hmem, hans⟩ := answered hreach'.valid hj hrevoke
  have hseq := (hrun.startSeq_of_new hj hnew).trans (hreach'.valid.start_lt hj _ hmem).le
  have hpre : c.world.Le pre := ((le_stable P).since hrun hreach.valid).pre hj _ hmem hseq
  obtain ⟨s₁, hs₁, hle₁⟩ := hpre.sessions s₀ hs₀
  obtain ⟨s₂, hs₂, hid₂, hrev₂⟩ :=
    Stmt.revokeSession_answer hans hs₁ (hle₁.id.trans (hid₀.trans hsid))
  intro s hs hid
  have hpost : post.Le c'.world := (hreach'.ordered (le_stable P)).post hj _ hmem
  have hrow := hpost.sessions.le_of_key (reachable_sound hreach').1.sessions.nodup (fun h => h.id)
    hs₂ hs (hid.trans (hid₂.trans (hle₁.id.trans (hid₀.trans hsid))).symm)
  exact hrow.revoked hrev₂

/-- A refused call has answered with an error no statement has. -/
theorem not_saw_invalidScope (hv : (machine P).Valid c) (hi : c.calls[i]? = some call) {e : Err}
    (he : e.isInvalidScope = true) (s : Stmt) : ¬Log.Saw call.log s (.error e) := by
  rintro ⟨n, pre, post, hmem⟩
  rcases hv.answers hi _ hmem with ⟨r, hexec⟩ | ⟨hfault, _⟩
  · have hforeign := (Stmt.exec_failed hexec).2
    cases e <;> simp [Err.isForeign, Err.isInvalidScope] at hforeign he
  · obtain rfl := Except.error.inj hfault
    cases he

/-- **Every refusal of a scope spends the token.**  A refresh request answered with
`invalid_scope` has taken an active token of its client and left `refresh_tokens` without
that row as it was.  No later call that presents the token is answered with tokens; if
nothing fails in it, a later call that gets as far as `consume` is answered with
`REFRESH_TOKEN_REUSE`, and the session of the token is revoked. -/
theorem invalid_scope_spends (hreach : (machine P).Reachable World.Initial c)
    (hi : c.calls[i]? = some call) {form : TokenForm} {basicAuth : Option BasicAuth}
    (hrequest : call.req.request = .token form basicAuth) (hgrant : form.grantType = .refreshToken)
    {statusCode : ℕ} {description : String}
    (hresult : call.result =
      some (.error (.oauthTokenError statusCode "invalid_scope" description))) :
    ∃ token t, form.refreshToken = some token ∧ t.tokenHash = P.sha256Hex token ∧
      t.status = .active ∧ (∃ client : OAuthClientRow, t.clientId = some client.id) ∧
      (∃ e ∈ call.log, t ∈ e.pre.refreshTokens ∧ t ∉ e.post.refreshTokens) ∧
      ∀ (c' : ServerConfig) (j : ℕ) later, (machine P).Run c c' → c'.calls[j]? = some later →
        c.calls.length ≤ j → later.req.request.Presents token →
        (∀ response, later.result ≠ some (.ok response)) ∧
        ∀ r ans, later.result = some r →
          later.log.Saw (.refreshTokens (.rotate (P.sha256Hex token))) (.ok ans) →
          (∀ e ∈ later.log, e.ans.isOk = true) →
          r = .error RefreshTokenService.reuse ∧
            ∀ s ∈ c'.world.sessions, s.id = t.sessionId → s.status = .revoked := by
  have hv := hreach.valid
  have hscope :
      (Err.oauthTokenError statusCode "invalid_scope" description).isInvalidScope = true :=
    rfl
  have hreturns : (AuthServer.handler P call.req).Returns [] call.log _ := hv.returned hi hresult
  have hhandler : AuthServer.handler P call.req = (do
      let response ← OAuthService.token P form basicAuth call.req.ctx
      pure (.tokens response)) := by
    unfold AuthServer.handler
    rw [hrequest]
  rw [hhandler] at hreturns
  rcases hreturns.error_of_bind with htoken | ⟨_, _, _, _, hpure⟩
  swap
  · cases (returns_pure.1 hpure).2
  obtain ⟨token, client, row, hpresented, hclient, hrotated, _⟩ :=
    OAuthService.token_refused hgrant hscope (not_saw_invalidScope hv hi hscope) htoken
  obtain ⟨n, pre, post, hmem, hans⟩ := answered hv hi hrotated
  obtain ⟨t, ht, hhash, hactive, _, rfl, hpost⟩ := Stmt.rotate_answer hans
  refine ⟨token, t, hpresented, hhash, hactive, ⟨client, hclient⟩,
    ⟨_, hmem, ht, fun hkept => ?_⟩, ?_⟩
  · -- the row is there with another status
    have heq := eq_of_key ((reachable_sound hreach).2 i call hi _ hmem).2.refreshTokens.nodup
      hkept hpost rfl
    rw [heq] at hactive
    cases hactive
  intro c' j later hrun hj hnew hpresents
  have hreach' := hreach.run hrun
  -- no later rotation finds the row active
  have hspent : ∀ old,
      ¬later.log.Saw (.refreshTokens (.rotate (P.sha256Hex token))) (.ok (some old)) := by
    intro old hsaw
    obtain ⟨pre', post', hle, hsound, hans'⟩ := later_answer hreach hrun hj hnew hsaw
    obtain ⟨b, hb, hbhash, hbactive, _⟩ := Stmt.rotate_answer hans'
    obtain ⟨r, hr, hrhash, hrspent, _⟩ := rotated_spent hreach hi hrotated hle hsound
    exact hrspent (eq_of_key hsound.tokenHashes hb hr (hbhash.trans hrhash.symm) ▸ hbactive)
  constructor
  · intro response hok
    rcases presented_consumes hpresents (hreach'.valid.returned hj hok) with
      ⟨⟨e, he⟩, _⟩ | ⟨l₁, l₂, r₁, hl, hconsume, hfails⟩
    · cases he
    · cases r₁ with
      | ok consumed =>
          exact hspent _ ((RefreshTokenService.consume_ok hconsume).1.mono hl)
      | error e =>
          obtain ⟨e', he', _⟩ := hfails e rfl
          cases he'
  · intro r ans hr hsaw hok
    rcases presented_consumes hpresents (hreach'.valid.returned hj hr) with
      ⟨_, hnone⟩ | ⟨l₁, l₂, r₁, hl, hconsume, hfails⟩
    · exact absurd hsaw (hnone _ _)
    rcases RefreshTokenService.consume_of_spent hconsume (fun e he => hok e (hl.subset he))
      (fun row hrow => hspent row (hrow.mono hl)) with hnone | ⟨known, hknown, hrevoke, rfl⟩
    · -- the row is in the table
      obtain ⟨pre', post', hle, hsound, hans'⟩ := later_answer hreach hrun hj hnew (hnone.mono hl)
      obtain ⟨_, _, _, _, _, hlookup⟩ := rotated_spent hreach hi hrotated hle hsound
      rw [← Stmt.selectByHash_answer hans'] at hlookup
      cases hlookup
    obtain ⟨e', rfl, he'⟩ := hfails _ rfl
    refine ⟨by rw [he' rfl], ?_⟩
    obtain ⟨pre', post', hle, hsound, hans'⟩ := later_answer hreach hrun hj hnew (hknown.mono hl)
    obtain ⟨r', _, _, _, hsid, hlookup⟩ := rotated_spent hreach hi hrotated hle hsound
    rw [← Stmt.selectByHash_answer hans'] at hlookup
    obtain rfl := Option.some.inj hlookup
    have hrevoked := session_revoked hreach hi hrotated hrun hj hnew (hsid ▸ hrevoke.mono hl)
    exact hrevoked

/-- A refresh for a scope that was not granted. -/
def widerScopeForm (refreshToken : String) : TokenForm :=
  { sampleRefreshForm refreshToken with scope := some "api.write" }

/-- An exchange. -/
def grantMoves : List (Move World Incoming Env) :=
  loginMoves 0 "al@x.io" "Al 1" ++ authorizeMoves 1 "api.read" none ++ exchangeMoves 2

/-- A refresh of the newest token for a scope that was not granted. -/
def widerScopeMoves : List (Move World Incoming Env) :=
  [.accept fun w => ⟨.token (widerScopeForm (lastToken w)) none, {}⟩, .steps 3 40]

/-- The request and the error of a call at the token endpoint. -/
def tokenError? (call : ServerCall) : Option (TokenForm × Option BasicAuth × Err) :=
  match call.req.request, call.result with
  | .token form basicAuth, some (.error e) => some (form, basicAuth, e)
  | _, _ => none

theorem tokenError?_eq_some {form : TokenForm} {basicAuth : Option BasicAuth} {e : Err}
    (h : tokenError? call = some (form, basicAuth, e)) :
    call.req.request = .token form basicAuth ∧ call.result = some (.error e) := by
  unfold tokenError? at h
  split at h
  · rename_i hrequest hresult
    obtain ⟨rfl, rfl, rfl⟩ := h
    exact ⟨hrequest, hresult⟩
  · cases h

/-- The refusal. -/
def scopeRefused : Err := .oauthTokenError 400 "invalid_scope" "Scope exceeds original grant"

theorem invalid_scope_spends_of_wider_scope :
    ∃ (c : ServerConfig) (token : String) (t : RefreshTokenRow),
      t.tokenHash = Platform.sample.sha256Hex token ∧ t.status = .active ∧
      ∀ (c' : ServerConfig) (j : ℕ) later, (machine .sample).Run c c' →
        c'.calls[j]? = some later → c.calls.length ≤ j → later.req.request.Presents token →
        ∀ response, later.result ≠ some (.ok response) := by
  have hplay : (sampleRun (grantMoves ++ widerScopeMoves)).any (fun c =>
      (c.calls[3]?).any fun call => (tokenError? call).any fun x =>
        decide (x.1.grantType = .refreshToken) && decide (x.2.2 = scopeRefused)) = true := by
    decide +kernel
  obtain ⟨c, hc, hall⟩ := (Option.any_eq_true _ _).1 hplay
  obtain ⟨call, hi, hall⟩ := (Option.any_eq_true _ _).1 hall
  obtain ⟨⟨form, basicAuth, e⟩, herror, hall⟩ := (Option.any_eq_true _ _).1 hall
  obtain ⟨hgrant, he⟩ := Bool.and_eq_true_iff.1 hall
  obtain ⟨hrequest, hresult⟩ := tokenError?_eq_some herror
  obtain rfl : e = scopeRefused := of_decide_eq_true he
  obtain ⟨token, t, _, hhash, hactive, _, _, hlater⟩ :=
    invalid_scope_spends (sampleRun_reachable hc) hi
    hrequest (of_decide_eq_true hgrant) hresult
  exact ⟨c, token, t, hhash, hactive, fun c' j later hrun hj hnew hpresents =>
    (hlater c' j later hrun hj hnew hpresents).1⟩

/-- **A refused scope ends the session.**  The refusal has changed `refresh_tokens`; the
client presents its token again, for the granted scope now, and is answered that the token
is stolen. -/
theorem refused_scope_ends_session :
    ∃ (c₀ c c' : ServerConfig) (token : String), sampleRun grantMoves = some c₀ ∧
      (∃ row ∈ c₀.world.refreshTokens, row.tokenHash = Platform.sample.sha256Hex token ∧
        row.status = .active ∧ row.scope = "api.read") ∧
      (machine .sample).play Stmt.sampleRandom
        [.accept fun _ => ⟨.token (widerScopeForm token) none, {}⟩, .steps 3 40] c₀ = some c ∧
      (c.calls[3]?.bind fun call => call.result) = some (.error scopeRefused) ∧
      c.world.refreshTokens ≠ c₀.world.refreshTokens ∧
      (machine .sample).play Stmt.sampleRandom
        [.accept fun _ => ⟨.token (sampleRefreshForm token) none, {}⟩, .steps 4 40] c = some c' ∧
      (c'.calls[4]?.bind fun call => call.result) = some (.error RefreshTokenService.reuse) ∧
      ∃ s ∈ c'.world.sessions, s.clientId.isSome = true ∧ s.status = .revoked := by
  have hplay : (sampleRun grantMoves).any (fun c₀ =>
      decide (∃ row ∈ c₀.world.refreshTokens,
        row.tokenHash = Platform.sample.sha256Hex (lastToken c₀.world) ∧
          row.status = .active ∧ row.scope = "api.read") &&
      ((machine .sample).play Stmt.sampleRandom
        [.accept fun _ => ⟨.token (widerScopeForm (lastToken c₀.world)) none, {}⟩,
          .steps 3 40] c₀).any
        fun c => decide ((c.calls[3]?.bind fun call => call.result) = some (.error scopeRefused)) &&
          decide (c.world.refreshTokens ≠ c₀.world.refreshTokens) &&
          ((machine .sample).play Stmt.sampleRandom
            [.accept fun _ => ⟨.token (sampleRefreshForm (lastToken c₀.world)) none, {}⟩,
              .steps 4 40] c).any fun c' =>
            decide ((c'.calls[4]?.bind fun call => call.result) =
              some (.error RefreshTokenService.reuse)) &&
            decide (∃ s ∈ c'.world.sessions, s.clientId.isSome = true ∧ s.status = .revoked)) =
        true := by
    decide +kernel
  obtain ⟨c₀, h₀, hall⟩ := (Option.any_eq_true _ _).1 hplay
  obtain ⟨hrow, hall⟩ := Bool.and_eq_true_iff.1 hall
  obtain ⟨c, hc, hall⟩ := (Option.any_eq_true _ _).1 hall
  obtain ⟨hrefused, hall⟩ := Bool.and_eq_true_iff.1 hall
  obtain ⟨hresult, hchanged⟩ := Bool.and_eq_true_iff.1 hrefused
  obtain ⟨c', hc', hall⟩ := (Option.any_eq_true _ _).1 hall
  obtain ⟨hreuse, hsession⟩ := Bool.and_eq_true_iff.1 hall
  exact ⟨c₀, c, c', lastToken c₀.world, h₀, of_decide_eq_true hrow, hc, of_decide_eq_true hresult,
    of_decide_eq_true hchanged, hc', of_decide_eq_true hreuse, of_decide_eq_true hsession⟩

end Refused

end IdentityPlatform
