/-
# What a successful service call has done

For each service function one lemma that reads its success backwards: which
statements are in the log, with which answers, and how the result comes from
them.  The lemmas of the functions that call others use only the lemmas of
those.
-/

import IdentityPlatform.Apps.AuthServer

namespace IdentityPlatform

open Interleaving Program

/-- Logs of the server. -/
abbrev ServerLog := Log statements Err World

variable {P : Platform} {l₀ l : ServerLog}

/-- Recording never fails. -/
theorem AuditLogService.record_returns {event : AuditEvent} {r : Except Err Unit}
    (h : (record event).Returns l₀ l r) : r = .ok () := by
  rcases returns_tryCatch.1 h with ⟨a, _, hr⟩ | ⟨l₁, e, _, hr⟩
  · exact hr
  · exact (returns_pure.1 hr).2

/-! ### Sessions -/

namespace SessionRepository

theorem loadFresh_ok {id : String} {r : Option SessionRow}
    (h : (loadFresh id).Returns l₀ l (.ok r)) :
    Log.SawSince l₀ l (.sessions (.selectById id)) (.ok r) := by
  obtain ⟨l₁, row, h₁, hs₁, h⟩ := h.of_bind
  have hsaw : Log.SawSince l₀ l (.sessions (.selectById id)) (.ok row) :=
    ⟨l₀, List.suffix_refl _, h₁.step.mono hs₁⟩
  cases row with
  | none =>
      cases (returns_pure.1 h).2
      exact hsaw
  | some session =>
      obtain ⟨l₂, _, _, _, h⟩ := h.of_bind
      cases (returns_pure.1 h).2
      exact hsaw

/-- **A session that `findById` calls active has just been read in the table**,
whatever the cache holds. -/
theorem findById_active {id : String} {s : SessionRow}
    (h : (findById id).Returns l₀ l (.ok (some s))) (hs : s.status = .active) :
    Log.SawSince l₀ l (.sessions (.selectById id)) (.ok (some s)) := by
  obtain ⟨l₁, cached, h₁, _, h⟩ := h.of_bind
  have hread : ∀ {l₂}, (loadFresh id).Returns l₁ l₂ (.ok (some s)) → l₂ <:+ l →
      Log.SawSince l₀ l (.sessions (.selectById id)) (.ok (some s)) :=
    fun h₂ hl => (loadFresh_ok h₂).mono h₁.suffix hl
  cases cached with
  | none => exact hread h (List.suffix_refl _)
  | some session =>
      simp only at h
      split_ifs at h with hne
      · cases (returns_pure.1 h).2
        exact absurd hs hne
      · obtain ⟨l₂, fresh, h₂, hs₂, h⟩ := h.of_bind
        cases fresh with
        | none =>
            obtain ⟨_, _, _, _, h⟩ := h.of_bind
            cases (returns_pure.1 h).2
        | some session =>
            cases (returns_pure.1 h).2
            exact hread h₂ hs₂

end SessionRepository

/-! ### Tokens -/

namespace RefreshTokenService

theorem issue_ok {params : RefreshIssue} {r : IssuedRefreshToken}
    (h : (issue P params).Returns l₀ l (.ok r)) :
    l.Saw (.runtime .randomToken) (.ok r.token) ∧
      ∃ familyId, (params.familyId = some familyId ∨
          params.familyId = none ∧ l.Saw (.runtime .randomUuid) (.ok familyId)) ∧
        l.Saw (.refreshTokens (.insert (issueData P params r.token familyId))) (.ok ()) := by
  obtain ⟨l₁, token, h₁, hs₁, h⟩ := h.of_bind
  obtain ⟨l₂, familyId, h₂, hs₂, h⟩ := h.of_bind
  obtain ⟨l₃, _, h₃, hs₃, h⟩ := h.of_bind
  obtain ⟨l₄, now, _, _, h⟩ := h.of_bind
  cases (returns_pure.1 h).2
  refine ⟨h₁.saw.mono hs₁, familyId, ?_, h₃.saw.mono hs₃⟩
  rcases returns_orDo_ok.1 h₂ with ⟨hf, _⟩ | ⟨hn, hf⟩
  · exact .inl hf
  · exact .inr ⟨hn, hf.saw.mono hs₂⟩

/-- A token that does not rotate makes `consume` fail. -/
theorem not_consume_none {token : String} {r : ConsumedRefreshToken}
    (h : (do
      handleReuseOrInvalid (P.sha256Hex token)
      throw (.authError "Invalid refresh token" "INVALID_REFRESH_TOKEN") :
        Prog ConsumedRefreshToken).Returns l₀ l (.ok r)) : False := by
  obtain ⟨_, _, _, _, h⟩ := h.of_bind
  cases (returns_throw.1 h).2

theorem consume_ok {token : String} {r : ConsumedRefreshToken}
    (h : (consume P token).Returns l₀ l (.ok r)) :
    l.Saw (.refreshTokens (.rotate (P.sha256Hex token))) (.ok (some r.row)) ∧
      l.Saw (.refreshTokens (.insert
        (issueData P (successor r.row) r.nextToken r.row.familyId))) (.ok ()) := by
  obtain ⟨l₁, rotated, h₁, hs₁, h⟩ := h.of_bind
  cases rotated with
  | none => exact (not_consume_none h).elim
  | some row =>
      obtain ⟨l₂, next, h₂, hs₂, h⟩ := h.of_bind
      cases (returns_pure.1 h).2
      obtain ⟨_, familyId, hf | ⟨hf, _⟩, hi⟩ := issue_ok h₂ <;> cases hf
      exact ⟨h₁.saw.mono hs₁, hi.mono hs₂⟩

end RefreshTokenService

namespace JwtService

/-- The log contains the signing of an access token for `input`. -/
def Signed (P : Platform) (l : ServerLog) (input : AccessTokenInput) (token : Jws) : Prop :=
  ∃ kid jti now, l.Saw (.runtime .randomUuid) (.ok jti) ∧
    l.Saw (.kms (.sign kid (accessTokenPayload P input jti now P.config.accessTokenTtl)))
      (.ok token)

theorem Signed.mono {input : AccessTokenInput} {token : Jws} {l' : ServerLog}
    (h : Signed P l input token) (hl : l <:+ l') : Signed P l' input token := by
  obtain ⟨kid, jti, now, h₁, h₂⟩ := h
  exact ⟨kid, jti, now, h₁.mono hl, h₂.mono hl⟩

theorem signAccessToken_ok {input : AccessTokenInput} {s : SignedToken}
    (h : (signAccessToken P input).Returns l₀ l (.ok s)) : Signed P l input s.token := by
  obtain ⟨l₁, kid, _, _, h⟩ := h.of_bind
  obtain ⟨l₂, ms, _, _, h⟩ := h.of_bind
  obtain ⟨l₃, jti, h₃, hs₃, h⟩ := h.of_bind
  obtain ⟨l₄, token, h₄, hs₄, h⟩ := h.of_bind
  cases (returns_pure.1 h).2
  exact ⟨kid, jti, ms / 1000, h₃.saw.mono hs₃, h₄.saw.mono hs₄⟩

theorem signIdToken_ok {claims : IdTokenClaims} {audience subject : String} {ttl : ℕ} {token : Jws}
    (h : (signIdToken P claims audience subject ttl).Returns l₀ l (.ok token)) :
    ∃ kid now, l.Saw (.kms (.sign kid (idTokenPayload P claims audience subject now ttl)))
      (.ok token) := by
  obtain ⟨l₁, kid, _, _, h⟩ := h.of_bind
  obtain ⟨l₂, ms, _, _, h⟩ := h.of_bind
  exact ⟨kid, ms / 1000, h.saw⟩

/-- What `verifyAccessToken` has checked of a token it accepts. -/
structure Accepted (l : ServerLog) (token : Jws) (payload : JwtPayload) : Prop where
  verified : ∃ kid, l.Saw (.kms (.jwtVerify kid token false)) (.ok payload)
  notRevoked : ∀ jti, payload.jti.filter (· ≠ "") = some jti →
    ∃ l' value, value ≠ some "1" ∧ l.Step l' (.redis (.getText (.jtiRevoked jti))) (.ok value) ∧
      ∃ kid, l'.Saw (.kms (.jwtVerify kid token false)) (.ok payload)

theorem Accepted.mono {token : Jws} {payload : JwtPayload} {l' : ServerLog}
    (h : Accepted l token payload) (hl : l <:+ l') : Accepted l' token payload where
  verified := by
    obtain ⟨kid, hk⟩ := h.verified
    exact ⟨kid, hk.mono hl⟩
  notRevoked jti hj := by
    obtain ⟨l₁, value, hv, hstep, hkid⟩ := h.notRevoked jti hj
    exact ⟨l₁, value, hv, hstep.mono hl, hkid⟩

theorem checkAccessToken_ok {token : WireToken} {payload : JwtPayload}
    (h : (checkAccessToken token).Returns l₀ l (.ok payload)) :
    ∃ jws, token = .jws jws ∧ Accepted l jws payload := by
  cases token with
  | raw text => cases (returns_throw.1 h).2
  | jws token =>
      obtain ⟨l₁, _, _, _, h⟩ := h.of_bind
      obtain ⟨l₂, signing, _, _, h⟩ := h.of_bind
      obtain ⟨l₃, kid, _, _, h⟩ := h.of_bind
      obtain ⟨l₄, payload', h₄, hs₄, h⟩ := h.of_bind
      obtain ⟨l₅, _, h₅, hs₅, h⟩ := h.of_bind
      cases (returns_pure.1 h).2
      refine ⟨token, rfl, ⟨kid, h₄.saw.mono hs₄⟩, fun jti hj => ?_⟩
      rw [hj] at h₅
      obtain ⟨l₆, revoked, h₆, hs₆, h₇⟩ := Returns.of_bind h₅
      obtain ⟨l₈, value, h₈, hs₈, h₆⟩ := Returns.of_bind h₆
      obtain ⟨rfl, hr⟩ := returns_pure.1 h₆
      have hval := (returns_throwIf_ok.1 h₇).2
      refine ⟨l₄, value, ?_, (h₈.step.mono hs₈).mono (hs₆.trans hs₅), kid, h₄.saw⟩
      simpa [Except.ok.inj hr] using hval

/-- **An accepted token** has a verified signature and is not on the list of
revoked ones. -/
theorem verifyAccessToken_ok {token : WireToken} {payload : JwtPayload}
    (h : (verifyAccessToken token).Returns l₀ l (.ok payload)) :
    ∃ jws, token = .jws jws ∧ Accepted l jws payload := by
  rcases returns_tryCatch.1 h with ⟨a, h, heq⟩ | ⟨l₁, e, _, h⟩
  · cases heq
    exact checkAccessToken_ok h
  · cases (returns_throw.1 h).2

end JwtService

/-! ### The token endpoint -/

theorem requireText_ok {value : Option String} {e : Err} {text : String}
    (h : (requireText value e).Returns l₀ l (.ok text)) : value = some text ∧ text ≠ "" := by
  have hf := (returns_orThrow_ok.1 h).2
  rw [Option.filter_eq_some_iff] at hf
  exact ⟨hf.1, by simpa using hf.2⟩

namespace OAuthService

/-- What client authentication asks of a presented secret: it verifies against
the stored hash of a confidential client, and a public client presents none. -/
def Authenticated (P : Platform) (client : OAuthClientRow) (presentedSecret : Option String) :
    Prop :=
  match client.clientType with
  | .confidential => ∃ secret hash, presentedSecret = some secret ∧
      client.clientSecretHash = some hash ∧ P.argon2Verify hash secret = some true
  | .publicClient => presentedSecret.filter (· ≠ "") = none

/-- A stored hash that accepts one of the presented secrets. -/
theorem secretVerifies_ok {client : OAuthClientRow} {presentedSecret : Option String}
    (h : (secretVerifies P client presentedSecret).Returns l₀ l (.ok true)) :
    ∃ secret hash, presentedSecret = some secret ∧ client.clientSecretHash = some hash ∧
      P.argon2Verify hash secret = some true := by
  unfold secretVerifies at h
  split at h
  · cases (returns_pure.1 h).2
  · rename_i secret hsecret
    unfold ClientRepository.verifySecret at h
    split at h
    · cases (returns_pure.1 h).2
    · rename_i hash hhash
      exact ⟨secret, hash, (Option.filter_eq_some_iff.1 hsecret).1,
        (Option.filter_eq_some_iff.1 hhash).1, (returns_orThrow_ok.1 h).2⟩

theorem requireSecret_ok {client : OAuthClientRow} {presentedSecret : Option String}
    {ctx : RequestContext}
    (h : (requireSecret P client presentedSecret ctx).Returns l₀ l (.ok ())) :
    ∃ secret hash, presentedSecret = some secret ∧ client.clientSecretHash = some hash ∧
      P.argon2Verify hash secret = some true := by
  obtain ⟨l₁, ok, h₁, _, h⟩ := h.of_bind
  rcases returns_onlyIf_ok.1 h with ⟨_, h⟩ | ⟨hok, _⟩
  · obtain ⟨_, _, _, _, h⟩ := h.of_bind
    cases (returns_throw.1 h).2
  · cases ok with
    | true => exact secretVerifies_ok h₁
    | false => exact absurd rfl hok

theorem authenticateClient_ok {client : OAuthClientRow} {presentedSecret : Option String}
    {ctx : RequestContext}
    (h : (authenticateClient P client presentedSecret ctx).Returns l₀ l (.ok ())) :
    Authenticated P client presentedSecret := by
  unfold authenticateClient at h
  unfold Authenticated
  cases ht : client.clientType with
  | confidential =>
      simp only [ht] at h
      exact requireSecret_ok h
  | publicClient =>
      simp only [ht] at h
      exact Option.not_isSome_iff_eq_none.1 (returns_throwIf_ok.1 h).2

/-- Nothing is returned where a replay is caught. -/
theorem catchReplay_ok {α : Type} {p : Prog α} {ctx : RequestContext} {a : α}
    (h : (catchReplay p ctx).Returns l₀ l (.ok a)) : p.Returns l₀ l (.ok a) := by
  rcases returns_tryCatch.1 h with ⟨a', h, heq⟩ | ⟨l₁, e, _, h⟩
  · cases heq
    exact h
  · cases e with
    | codeReplay userId clientRef =>
        obtain ⟨_, _, _, _, h⟩ := h.of_bind
        cases (returns_throw.1 h).2
    | _ => cases (returns_throw.1 h).2

theorem catchRefreshErrors_ok {α : Type} {p : Prog α} {client : OAuthClientRow}
    {ctx : RequestContext} {a : α} (h : (catchRefreshErrors p client ctx).Returns l₀ l (.ok a)) :
    p.Returns l₀ l (.ok a) := by
  rcases returns_tryCatch.1 h with ⟨a', h, heq⟩ | ⟨l₁, e, _, h⟩
  · cases heq
    exact h
  · split_ifs at h
    · obtain ⟨_, _, _, _, h⟩ := h.of_bind
      cases (returns_throw.1 h).2
    · cases (returns_throw.1 h).2
    · cases (returns_throw.1 h).2

theorem checkBinding_ok {refreshToken : String} {row : RefreshTokenRow} {client : OAuthClientRow}
    {ctx : RequestContext}
    (h : (checkBinding P refreshToken row client ctx).Returns l₀ l (.ok ())) :
    row.clientId = some client.id := by
  rcases returns_onlyIf_ok.1 h with ⟨_, h⟩ | ⟨hb, _⟩
  · obtain ⟨_, _, _, _, h⟩ := h.of_bind
    obtain ⟨_, _, _, _, h⟩ := h.of_bind
    cases (returns_throw.1 h).2
  · exact not_not.1 hb

theorem requireActiveSession_ok {row : RefreshTokenRow} {e : Err} {s : SessionRow}
    (h : (requireActiveSession row e).Returns l₀ l (.ok s)) :
    Log.SawSince l₀ l (.sessions (.selectById row.sessionId)) (.ok (some s)) ∧
      s.status = .active := by
  obtain ⟨l₁, found, h₁, hs₁, h⟩ := h.of_bind
  split at h
  · rename_i session hf
    obtain ⟨hfound, hact⟩ := Option.filter_eq_some_iff.1 hf
    cases (returns_pure.1 h).2
    have hactive : s.status = .active := by simpa using hact
    exact ⟨(SessionRepository.findById_active (hfound ▸ h₁) hactive).mono (List.suffix_refl _) hs₁,
      hactive⟩
  · obtain ⟨_, _, _, _, h⟩ := h.of_bind
    cases (returns_throw.1 h).2

end OAuthService

namespace AuthorizationCodeRepository

/-- The row a presented code may be exchanged by, as it was read. -/
structure Peeked (P : Platform) (l : ServerLog) (params : PresentedCode) (row : JoinedRow) :
    Prop where
  read : l.Saw (.codes (.selectJoined (P.sha256Hex params.code))) (.ok (some row))
  client : row.clientRef = params.clientId
  redirectUri : row.code.redirectUri = params.redirectUri
  unconsumed : row.code.consumedAt = none

theorem Peeked.mono {params : PresentedCode} {row : JoinedRow} {l' : ServerLog}
    (h : Peeked P l params row) (hl : l <:+ l') : Peeked P l' params row :=
  { h with read := h.read.mono hl }

theorem peek_ok {params : PresentedCode} {row : JoinedRow}
    (h : (peek P params).Returns l₀ l (.ok (some row))) : Peeked P l params row := by
  obtain ⟨l₁, existing, h₁, hs₁, h⟩ := h.of_bind
  cases existing with
  | none => cases (returns_pure.1 h).2
  | some existing =>
      simp only [checkRow] at h
      split_ifs at h with hb hc
      · cases (returns_pure.1 h).2
      · cases (returns_throw.1 h).2
      · obtain ⟨l₂, now, _, _, h⟩ := Returns.of_bind h
        split_ifs at h
        · cases (returns_pure.1 h).2
        · cases (returns_pure.1 h).2
          push Not at hb
          exact ⟨h₁.saw.mono hs₁, hb.1, hb.2, by simpa using hc⟩

/-- **A consumed code**: it has been read unconsumed, and the conditional update
has found it unconsumed. -/
theorem consume_ok {params : PresentedCode} {codeRow : AuthorizationCodeRow}
    (h : (consume P params).Returns l₀ l (.ok (some codeRow))) :
    ∃ row l', Peeked P l' params row ∧
      l.Step l' (.codes (.consume row.code.id)) (.ok (some codeRow)) := by
  obtain ⟨l₁, checked, h₁, hs₁, h⟩ := h.of_bind
  cases checked with
  | none => cases (returns_pure.1 h).2
  | some row =>
      obtain ⟨l₂, updated, h₂, hs₂, h⟩ := Returns.of_bind h
      cases updated with
      | none => cases (returns_throw.1 h).2
      | some codeRow =>
          cases (returns_pure.1 h).2
          exact ⟨row, l₁, peek_ok h₁, h₂.step.mono hs₂⟩

end AuthorizationCodeRepository
end IdentityPlatform
