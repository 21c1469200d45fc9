/-
# The right exchange among wrong ones

Wrong exchanges leave users, clients, codes and sessions alone, and of the refresh tokens
the hashes (`Untouched`).  Among steps that keep to that and as long as the code has not
expired, the exchange its client has been given the code for succeeds: the proof follows
the handler, and each statement is answered with a value whatever the others have done
before it (`token_succeeds`).
-/

import IdentityPlatform.Protocol.WrongExchanges

namespace IdentityPlatform

open Interleaving Program Relational Machine AuthServer

variable {P : Platform} {c₀ c : ServerConfig} {i j : ℕ} {call : ServerCall}
  {code : String} {b : AuthorizationCodeRow} {client : OAuthClientRow}
  {form : TokenForm} {basicAuth : Option BasicAuth} {ctx : RequestContext} {w w' : World}

/-! ### What is stored -/

/-- The columns and the references of a stored code. -/
theorem code_references (hreach : (machine P).Reachable World.Initial c)
    (hb : b ∈ c.world.codes) :
    isUuid b.id = true ∧ isUuid b.userId = true ∧ c.world.hasUser b.userId := by
  obtain ⟨insert⟩ := code_inserted hreach hb
  have hord := hreach.ordered (le_stable P)
  obtain ⟨huuid, ⟨u, hu, huid⟩, r', htaken, hstored⟩ :=
    Stmt.insertCode_references (executed hreach.valid insert.call insert.event)
  have hpost : insert.post.Le c.world := hord.post insert.call _ insert.event
  have hle : (insert.data.row r' insert.pre insert.hash insert.client).Le b :=
    hpost.code_le (reachable_sound hreach).1 (hstored insert.client insert.found) hb
      insert.row.codeHash
  obtain ⟨u', hu', hrow⟩ := ((hord.answer insert.call _ insert.event).trans hpost).users u hu
  have hid : b.id = r' := hle.id
  have huser : b.userId = insert.data.userId := hle.userId
  rw [hid, huser]
  exact ⟨htaken.form, huuid, u', hu', hrow.id.trans huid⟩

/-- The hash of a stored refresh token is that of a value drawn for it. -/
theorem refreshToken_drawn (hreach : (machine P).Reachable World.Initial c)
    {row : RefreshTokenRow} (hrow : row ∈ c.world.refreshTokens) :
    ∃ token ∈ c.world.generated, row.tokenHash = P.sha256Hex token := by
  obtain ⟨j, issuer, n, pre, post, data, r, hj, he, _, hle⟩ := refreshToken_inserted hreach hrow
  obtain ⟨l, hl, _, _, token, hdrawn, hhash⟩ := justified_event hreach.valid hj he
  have hlog := (List.suffix_cons _ _).trans hl
  obtain ⟨_, pre', post', hmem, hans⟩ := answered hreach.valid hj (hdrawn.mono hlog)
  have hle' : post'.Le c.world := (hreach.ordered (le_stable P)).post hj _ hmem
  refine ⟨token, hle'.generated ?_, hle.tokenHash.trans hhash⟩
  rw [(Stmt.randomToken_answer hans).ledger]
  exact List.mem_cons_self ..

/-! ### Statements of a successful call -/

/-- The others leave the tables of a code alone, until it has expired. -/
def untilExpiry (P : Platform) (expiresAt : ℕ) : (machine P).Rely where
  moves := Untouched
  past w := expiresAt < w.now
  refl := Untouched.refl
  trans := Untouched.trans
  pastMoves h hmoves := h.trans_le hmoves.now
  pastExec h hexec := h.trans_le (Stmt.exec_le hexec).now

/-- A property of the state that the others keep. -/
def Kept (K : World → Prop) : Prop := ∀ {w w'}, K w → Untouched w w' → K w'

theorem Kept.and {K K' : World → Prop} (h : Kept K) (h' : Kept K') : Kept fun w => K w ∧ K' w :=
  fun hK hu => ⟨h hK.1 hu, h' hK.2 hu⟩

section Succeeds

variable {t : ℕ} {K : World → Prop}

/-- A statement that stores nothing keeps what the others keep. -/
theorem succeeds_query {s : Stmt} {F : s.Ans → Prop} (hkept : Kept K) (hK : K w) (hs : s.Quiet)
    (huuid : s.uuidParams.all isUuid = true)
    (hans : ∀ w₁ r, K w₁ → w₁.now ≤ t → ∃ a, (s.effect P r w₁).1 = .ok a ∧ F a) :
    (untilExpiry P t).Succeeds (query s) (fun a w => K w ∧ F a) w := by
  refine .perform fun w₁ hmoves r ans w₂ hexec => ?_
  have hK₁ := hkept hK hmoves
  have hexec' : s.exec P r w₁ = some (ans, w₂) := hexec
  by_cases hover : t < w₁.now
  · exact .inl (hover.trans_le (Stmt.exec_le hexec').now)
  · obtain ⟨a, ha, hF⟩ := hans w₁ r hK₁ (Nat.not_lt.1 hover)
    obtain ⟨rfl, _⟩ := Stmt.exec_effect huuid hexec'
    exact .inr ⟨a, ha, hkept hK₁ (Stmt.exec_untouched hs hexec'), hF⟩

/-- A record is written, or is not. -/
theorem succeeds_record {event : AuditEvent} (hkept : Kept K) (hK : K w)
    (huser : event.userId.all isUuid = true) :
    (untilExpiry P t).Succeeds (AuditLogService.record event) (fun _ w => K w) w := by
  refine .tryCatch ((succeeds_query hkept hK (F := fun _ => True) (by trivial) ?_ ?_).mono
    fun _ _ h => h.1)
  · cases hid : event.userId with
    | none => simp [Stmt.uuidParams]
    | some id => simpa [Stmt.uuidParams, hid] using huser
  · exact fun _ _ _ _ => ⟨(), rfl, trivial⟩

theorem succeeds_dateNow (hkept : Kept K) (hK : K w) :
    (untilExpiry P t).Succeeds (query (.runtime .dateNow)) (fun now w => K w ∧ now ≤ t) w :=
  succeeds_query hkept hK trivial rfl fun w₁ _ _ hnow => ⟨w₁.now, rfl, hnow⟩

/-- A statement whose answer does not matter. -/
theorem succeeds_any {s : Stmt} (hkept : Kept K) (hK : K w) (hs : s.Quiet)
    (huuid : s.uuidParams.all isUuid = true) (hans : ∀ w₁ r, ∃ a, (s.effect P r w₁).1 = .ok a) :
    (untilExpiry P t).Succeeds (query s) (fun _ w => K w) w := by
  refine (succeeds_query hkept hK (F := fun _ => True) hs huuid fun w₁ r _ _ => ?_).mono
    fun _ _ h => h.1
  obtain ⟨a, ha⟩ := hans w₁ r
  exact ⟨a, ha, trivial⟩

theorem succeeds_randomUuid (hkept : Kept K) (hK : K w) :
    (untilExpiry P t).Succeeds (query (.runtime .randomUuid)) (fun id w => K w ∧ isUuid id = true)
      w := by
  refine .perform fun w₁ hmoves r ans w₂ hexec => .inr ?_
  have hexec' : (Stmt.runtime .randomUuid).exec P r w₁ = some (ans, w₂) := hexec
  have hK₂ := hkept (hkept hK hmoves) (Stmt.exec_untouched (by trivial) hexec')
  obtain ⟨rfl, ledger, rfl, hl⟩ := Stmt.exec_effect rfl hexec'
  have htaken : Stmt.Taken isUuid r w₁ { w₁ with generated := ledger } := hl.taken rfl rfl
  exact ⟨r, rfl, hK₂, htaken.form⟩

/-- A key to sign with is there, or made. -/
theorem succeeds_currentSigningKey (hkept : Kept K) (hK : K w) :
    (untilExpiry P t).Succeeds (query (.kms .currentSigningKey)) (fun _ w => K w) w := by
  refine succeeds_any hkept hK trivial rfl fun w₁ r => ?_
  cases hkeys : w₁.signingKeys with
  | nil => exact ⟨r, by simp [Stmt.effect, KmsStmt.effect, hkeys]⟩
  | cons kid _ => exact ⟨kid, by simp [Stmt.effect, KmsStmt.effect, hkeys]⟩

theorem succeeds_signAccessToken {input : AccessTokenInput} (hkept : Kept K) (hK : K w) :
    (untilExpiry P t).Succeeds (JwtService.signAccessToken P input) (fun _ w => K w) w := by
  refine (succeeds_currentSigningKey hkept hK).bind fun kid w₁ h₁ => ?_
  refine (succeeds_dateNow hkept h₁).bind fun ms w₂ h₂ => ?_
  refine (succeeds_any hkept h₂.1 (by trivial) rfl fun _ r => ⟨r, rfl⟩).bind fun jti w₃ h₃ => ?_
  refine (succeeds_any hkept h₃ (by trivial) rfl fun _ _ => ⟨_, rfl⟩).bind fun token w₄ h₄ => ?_
  exact .pure h₄

theorem succeeds_issueIdToken {userId scope : String} {nonce : Option String}
    (hkept : Kept K) (hK : K w) (huser : isUuid userId = true) :
    (untilExpiry P t).Succeeds (OAuthService.issueIdToken P userId client scope nonce)
      (fun _ w => K w) w := by
  unfold OAuthService.issueIdToken
  by_cases hopenid : includesText scope "openid" = true
  · rw [if_pos hopenid]
    refine (succeeds_any hkept hK (by trivial) (by simpa [Stmt.uuidParams] using huser)
      fun _ _ => ⟨_, rfl⟩).bind fun user w₁ h₁ => ?_
    refine Machine.Rely.Succeeds.bind (F := fun _ w => K w) ?_ fun token w₂ h₂ => .pure h₂
    refine (succeeds_currentSigningKey hkept h₁).bind fun kid w₂ h₂ => ?_
    refine (succeeds_dateNow hkept h₂).bind fun ms w₃ h₃ => ?_
    exact succeeds_any hkept h₃.1 (by trivial) rfl fun _ _ => ⟨_, rfl⟩
  · rw [if_neg hopenid]
    exact .pure hK

end Succeeds

/-! ### The exchange -/

/-- What the tokens of an exchange refer to is stored, and no stored hash is that of a
value not yet drawn. -/
structure Issuable (P : Platform) (b : AuthorizationCodeRow) (client : OAuthClientRow)
    (w : World) : Prop where
  hasClient : w.hasClient client.id
  hasUser : w.hasUser b.userId
  drawn : ∀ hash ∈ w.refreshTokens.map RefreshTokenRow.tokenHash,
    ∃ token ∈ w.generated, hash = P.sha256Hex token

/-- The code is stored and not consumed, under its client. -/
structure Exchangeable (P : Platform) (code : String) (b : AuthorizationCodeRow)
    (client : OAuthClientRow) (w : World) : Prop where
  stored : w.code (P.sha256Hex code) = some b
  ids : (w.codes.map AuthorizationCodeRow.id).Nodup
  unconsumed : b.consumedAt = none
  registered : w.client client.clientId = some client
  owner : lookup OAuthClientRow.id b.clientId w.clients = some client
  issuable : Issuable P b client w

theorem Issuable.kept : Kept (Issuable P b client) := by
  intro w w' h hu
  refine ⟨?_, ?_, fun hash hhash => ?_⟩
  · unfold World.hasClient
    rw [hu.clients]
    exact h.hasClient
  · unfold World.hasUser
    rw [hu.users]
    exact h.hasUser
  · obtain ⟨token, htoken, heq⟩ := h.drawn hash (hu.hashes ▸ hhash)
    exact ⟨token, hu.generated htoken, heq⟩

theorem Exchangeable.kept : Kept (Exchangeable P code b client) := by
  intro w w' h hu
  refine ⟨?_, hu.codes ▸ h.ids, h.unconsumed, ?_, hu.clients ▸ h.owner, Issuable.kept h.issuable hu⟩
  · unfold World.code
    rw [hu.codes]
    exact h.stored
  · unfold World.client
    rw [hu.clients]
    exact h.registered

theorem kept_hasSession {id : String} : Kept fun w => w.hasSession id := by
  intro w w' h hu
  unfold World.hasSession at h ⊢
  rwa [hu.sessions]

theorem kept_unstored {hash : String} :
    Kept fun w => hash ∉ w.refreshTokens.map RefreshTokenRow.tokenHash := by
  intro w w' h hu
  rwa [hu.hashes]

section Exchange

variable {t : ℕ}

theorem checkRow_succeeds {params : PresentedCode} (h : Exchangeable P code b client w)
    (hclient : client.clientId = params.clientId) (huri : b.redirectUri = params.redirectUri) :
    (untilExpiry P b.expiresAt).Succeeds
      (AuthorizationCodeRepository.checkRow params ⟨b, client.clientId⟩)
      (fun row w => row = some ⟨b, client.clientId⟩ ∧ Exchangeable P code b client w) w := by
  unfold AuthorizationCodeRepository.checkRow
  rw [if_neg (by simp [hclient, huri]), if_neg (by simp [h.unconsumed])]
  refine (succeeds_dateNow Exchangeable.kept h).bind fun now w₁ ⟨h₁, hnow⟩ => ?_
  rw [if_neg (Nat.not_lt.2 hnow)]
  exact .pure ⟨rfl, h₁⟩

theorem peek_succeeds {params : PresentedCode} (h : Exchangeable P code b client w)
    (hcode : params.code = code) (hclient : client.clientId = params.clientId)
    (huri : b.redirectUri = params.redirectUri) :
    (untilExpiry P b.expiresAt).Succeeds (AuthorizationCodeRepository.peek P params)
      (fun row w => row = some ⟨b, client.clientId⟩ ∧ Exchangeable P code b client w) w := by
  refine Machine.Rely.Succeeds.bind
    (F := fun row w => Exchangeable P code b client w ∧ row = some ⟨b, client.clientId⟩) ?_
    fun row w₁ ⟨h₁, hrow⟩ => ?_
  · refine succeeds_query Exchangeable.kept h (by trivial) rfl fun w₁ r h₁ _ => ⟨_, ?_, rfl⟩
    simp [Stmt.effect, CodeStmt.effect, hcode, h₁.stored, CodeStmt.join, h₁.owner]
  · subst hrow
    exact checkRow_succeeds h₁ hclient huri

theorem consume_succeeds {params : PresentedCode} (h : Exchangeable P code b client w)
    (hid : isUuid b.id = true)
    (hcode : params.code = code) (hclient : client.clientId = params.clientId)
    (huri : b.redirectUri = params.redirectUri) :
    (untilExpiry P b.expiresAt).Succeeds (AuthorizationCodeRepository.consume P params)
      (fun row w => (∃ now, row = some (CodeStmt.consumed now b)) ∧ Issuable P b client w) w := by
  refine (peek_succeeds h hcode hclient huri).bind fun row w₁ ⟨hrow, h₁⟩ => ?_
  subst hrow
  refine Machine.Rely.Succeeds.bind
    (F := fun row w => (∃ now, row = some (CodeStmt.consumed now b)) ∧ Issuable P b client w)
    (.perform fun w₂ hmoves r ans w₃ hexec => .inr ?_) fun row w₂ hrow => ?_
  · obtain ⟨rfl, ledger, rfl, hl⟩ := Stmt.exec_effect (by simpa [Stmt.uuidParams] using hid) hexec
    have h₂ := Exchangeable.kept h₁ hmoves
    refine ⟨_, rfl, ⟨w₂.now, ?_⟩, ?_⟩
    · have hb : lookup AuthorizationCodeRow.id b.id w₂.codes = some b :=
        lookup_of_mem h₂.ids (lookup_mem h₂.stored)
      rw [returning_of_lookup (fun a ha => ha.1) h₂.ids hb, if_pos ⟨rfl, h₂.unconsumed⟩]
    · exact ⟨h₂.issuable.hasClient, h₂.issuable.hasUser, fun hash hhash => by
        obtain ⟨token, htoken, heq⟩ := h₂.issuable.drawn hash hhash
        exact ⟨token, hl.subset htoken, heq⟩⟩
  · obtain ⟨⟨now, rfl⟩, h₂⟩ := hrow
    exact .pure ⟨⟨now, rfl⟩, h₂⟩

/-- A session is stored. -/
theorem create_succeeds {data : CreateSessionData} (h : Issuable P b client w)
    (hdata : data.userId = b.userId ∧ data.clientId = some client.id)
    (huser : isUuid b.userId = true) (hclient : isUuid client.id = true) :
    (untilExpiry P t).Succeeds (SessionRepository.create data)
      (fun session w => isUuid session.id = true ∧ Issuable P b client w ∧ w.hasSession session.id)
      w := by
  refine .perform fun w₁ hmoves r ans w₂ hexec => .inr ?_
  have h₁ := Issuable.kept h hmoves
  obtain ⟨rfl, ledger, rfl, hl⟩ :=
    Stmt.exec_effect (by simp [Stmt.uuidParams, hdata, huser, hclient]) hexec
  have heffect : (SessionStmt.insert data).effect r w₁ =
      (.ok (data.row r w₁), w₁.sessions ++ [data.row r w₁]) := by
    simp [SessionStmt.effect, constrained, hdata, h₁.hasUser, h₁.hasClient]
  have htaken : Stmt.Taken isUuid r w₁ { w₁ with generated := ledger } := hl.taken rfl rfl
  refine ⟨data.row r w₁, congrArg Prod.fst heffect, htaken.form, ?_, data.row r w₁, ?_, rfl⟩
  · refine ⟨h₁.hasClient, h₁.hasUser, fun hash hhash => ?_⟩
    obtain ⟨token, htoken, heq⟩ := h₁.drawn hash hhash
    exact ⟨token, hl.subset htoken, heq⟩
  · change data.row r w₁ ∈ ((SessionStmt.insert data).effect r w₁).2
    rw [heffect]
    exact List.mem_append_right _ (List.mem_singleton_self _)

/-- A refresh token is stored. -/
theorem issue_succeeds (hP : Function.Injective P.sha256Hex) {params : RefreshIssue}
    (h : Issuable P b client w) (hsession : w.hasSession params.sessionId)
    (hid : isUuid params.sessionId = true)
    (hparams : params.userId = b.userId ∧ params.clientId = some client.id ∧
      params.familyId = none ∧ params.previousTokenId = none)
    (huser : isUuid b.userId = true) (hclient : isUuid client.id = true) :
    (untilExpiry P t).Succeeds (RefreshTokenService.issue P params) (fun _ _ => True) w := by
  have hkept : Kept fun w => Issuable P b client w ∧ w.hasSession params.sessionId :=
    Issuable.kept.and kept_hasSession
  refine Machine.Rely.Succeeds.bind (F := fun token w =>
    (Issuable P b client w ∧ w.hasSession params.sessionId) ∧
      P.sha256Hex token ∉ w.refreshTokens.map RefreshTokenRow.tokenHash) ?_
    fun token w₁ h₁ => ?_
  · -- a new value has a new hash
    refine .perform fun w₁ hmoves r ans w₂ hexec => .inr ?_
    have h₁ := hkept ⟨h, hsession⟩ hmoves
    have hexec' : (Stmt.runtime .randomToken).exec P r w₁ = some (ans, w₂) := hexec
    have h₂ := hkept h₁ (Stmt.exec_untouched (by trivial) hexec')
    obtain ⟨rfl, ledger, rfl, hl⟩ := Stmt.exec_effect rfl hexec'
    have htaken : Stmt.Taken isRandomToken r w₁ { w₁ with generated := ledger } := hl.taken rfl rfl
    refine ⟨r, rfl, h₂, fun hmem => ?_⟩
    obtain ⟨token, htoken, heq⟩ := h₁.1.drawn _ hmem
    exact htaken.fresh (hP heq ▸ htoken)
  · have hkept' : Kept fun w => (Issuable P b client w ∧ w.hasSession params.sessionId) ∧
        P.sha256Hex token ∉ w.refreshTokens.map RefreshTokenRow.tokenHash :=
      hkept.and kept_unstored
    rw [hparams.2.2.1]
    refine (succeeds_randomUuid hkept' h₁).bind fun familyId w₂ ⟨h₂, hfamily⟩ => ?_
    refine Machine.Rely.Succeeds.bind (F := fun _ _ => True) ?_ fun _ w₃ _ => ?_
    · refine .perform fun w₃ hmoves r ans w₄ hexec => .inr ⟨(), ?_, trivial⟩
      have h₃ := hkept' h₂ hmoves
      obtain ⟨rfl, _⟩ := Stmt.exec_effect (by
        simp [Stmt.uuidParams, RefreshTokenService.issueData, hparams, hid, huser, hclient,
          hfamily]) hexec
      refine congrArg Prod.fst (RefreshTokenService.insert_effect ?_ h₃.1.2 ?_ ?_ ?_)
      · refine List.find?_eq_none.2 fun a ha heq => h₃.2 ?_
        exact List.mem_map.2 ⟨a, ha, of_decide_eq_true heq⟩
      · simpa [RefreshTokenService.issueData, hparams] using h₃.1.1.hasUser
      · simpa [RefreshTokenService.issueData, hparams] using h₃.1.1.hasClient
      · simp [RefreshTokenService.issueData, hparams]
    · exact (succeeds_dateNow (K := fun _ => True) (fun _ _ => trivial) trivial).bind
        fun _ _ _ => .pure trivial

theorem issueUserTokens_succeeds (hP : Function.Injective P.sha256Hex) (h : Issuable P b client w)
    (huser : isUuid b.userId = true) (hclient : isUuid client.id = true) {scope : String}
    {nonce : Option String} :
    (untilExpiry P t).Succeeds (OAuthService.issueUserTokens P b.userId client scope nonce ctx)
      (fun _ _ => True) w := by
  have htrue : Kept fun _ => True := fun _ _ => trivial
  refine (succeeds_any Issuable.kept h (by trivial) (by simpa [Stmt.uuidParams] using huser)
    fun _ _ => ⟨_, rfl⟩).bind fun roles w₁ h₁ => ?_
  refine (succeeds_any Issuable.kept h₁ (by trivial) (by simpa [Stmt.uuidParams] using huser)
    fun _ _ => ⟨_, rfl⟩).bind fun permissions w₂ h₂ => ?_
  refine (create_succeeds h₂ ⟨rfl, rfl⟩ huser hclient).bind fun session w₃ h₃ => ?_
  obtain ⟨hid, h₃⟩ := h₃
  refine (succeeds_signAccessToken (Issuable.kept.and kept_hasSession) h₃).bind
    fun signed w₄ h₄ => ?_
  obtain ⟨h₄, hsession⟩ := h₄
  refine (issue_succeeds hP h₄ hsession hid ⟨rfl, rfl, rfl, rfl⟩ huser hclient).bind
    fun refresh w₅ h₅ => ?_
  refine (succeeds_issueIdToken htrue h₅ huser).bind fun idToken w₆ h₆ => ?_
  refine (succeeds_record htrue h₆ (by simpa using huser)).bind fun _ w₇ h₇ => ?_
  refine Machine.Rely.Succeeds.bind (F := fun _ _ => True)
    ((succeeds_dateNow htrue h₇).bind fun _ _ _ => .pure trivial) fun expires w₈ _ => ?_
  exact .pure trivial

theorem requireText_succeeds {K : World → Prop} {value : Option String} {e : Err}
    {text : String} (hvalue : value = some text ∧ text ≠ "") (hK : K w) :
    (untilExpiry P t).Succeeds (requireText value e) (fun a w => a = text ∧ K w) w := by
  refine .orThrow (a := text) ?_ ⟨rfl, hK⟩
  rw [hvalue.1, Option.filter_some, if_pos (by simpa using hvalue.2)]

/-- The right secret is accepted. -/
theorem authenticateClient_succeeds (h : RightExchange P code b client form basicAuth)
    {K : World → Prop} (hK : K w) :
    (untilExpiry P t).Succeeds
      (OAuthService.authenticateClient P client (presentedSecret form basicAuth) ctx)
      (fun _ w => K w) w := by
  have hsecret := h.secret
  unfold OAuthService.authenticateClient
  cases htype : client.clientType with
  | confidential =>
      rw [htype] at hsecret
      obtain ⟨secret, hash, hpresented, hne, hhash, hhashNe, hverify⟩ := hsecret
      refine Machine.Rely.Succeeds.bind (F := fun ok w => ok = true ∧ K w) ?_ fun ok w₁ h₁ => ?_
      · have hfilter : (presentedSecret form basicAuth).filter (· ≠ "") = some secret := by
          rw [hpresented, Option.filter_some, if_pos (by simpa using hne)]
        have hstored : client.clientSecretHash.filter (· ≠ "") = some hash := by
          rw [hhash, Option.filter_some, if_pos (by simpa using hhashNe)]
        unfold OAuthService.secretVerifies ClientRepository.verifySecret
        rw [hfilter]
        simp only [hstored]
        exact .orThrow hverify ⟨rfl, hK⟩
      · obtain ⟨rfl, h₁⟩ := h₁
        exact .pure h₁
  | publicClient =>
      rw [htype] at hsecret
      have hnone : (presentedSecret form basicAuth).filter (· ≠ "") = none := hsecret
      exact .throwIf (by rw [hnone]; exact Bool.false_ne_true) hK

/-- A caught replay is none. -/
theorem catchReplay_succeeds {α : Type} {p : Prog α} {F : α → World → Prop}
    (h : (untilExpiry P t).Succeeds p F w) :
    (untilExpiry P t).Succeeds (OAuthService.catchReplay p ctx) F w := h.tryCatch

/-- **The handler of the right exchange.**  Started where the code is stored and not
consumed, it succeeds. -/
theorem token_succeeds (hP : Function.Injective P.sha256Hex)
    (hright : RightExchange P code b client form basicAuth) (h : Exchangeable P code b client w)
    (hid : isUuid b.id = true) (huser : isUuid b.userId = true)
    (hclient : isUuid client.id = true) :
    (untilExpiry P b.expiresAt).Succeeds (OAuthService.token P form basicAuth ctx)
      (fun _ _ => True) w := by
  have hkept : Kept (Exchangeable P code b client) := Exchangeable.kept
  obtain ⟨verifier, challenge, hverifier, hverifierNe, hchallenge, hchallengeNe, hmatches⟩ :=
    hright.verifier
  refine (requireText_succeeds hright.clientId h).bind fun clientId w₁ ⟨hclientId, h₁⟩ => ?_
  subst hclientId
  refine Machine.Rely.Succeeds.bind
    (F := fun found w => Exchangeable P code b client w ∧ found = some client) ?_
    fun found w₂ ⟨h₂, hfound⟩ => ?_
  · exact succeeds_query hkept h₁ (by trivial) rfl fun w₂ _ h₂ _ =>
      ⟨_, congrArg Except.ok h₂.registered, rfl⟩
  subst hfound
  refine Machine.Rely.Succeeds.bind
    (F := fun a w => a = client ∧ Exchangeable P code b client w)
    (.orThrow (by rw [Option.filter_some, if_pos (by simpa using hright.active)]) ⟨rfl, h₂⟩)
    fun a w₃ ⟨ha, h₃⟩ => ?_
  subst ha
  rw [hright.grantType]
  refine (requireText_succeeds hright.presented h₃).bind fun code' w₄ ⟨hcode', h₄⟩ => ?_
  refine (requireText_succeeds hright.redirectUri h₄).bind fun uri w₅ ⟨huri, h₅⟩ => ?_
  refine (requireText_succeeds ⟨hverifier, hverifierNe⟩ h₅).bind fun text w₆ ⟨htext, h₆⟩ => ?_
  refine (authenticateClient_succeeds hright h₆).bind fun _ w₇ h₇ => ?_
  subst hcode' huri htext
  refine (catchReplay_succeeds (peek_succeeds h₇ rfl rfl rfl)).bind fun found w₈ ⟨hfound, h₈⟩ => ?_
  refine Machine.Rely.Succeeds.bind
    (F := fun row w => row = ⟨b, a.clientId⟩ ∧ Exchangeable P code' b a w)
    (.orThrow hfound ⟨rfl, h₈⟩) fun row w₉ ⟨hrow, h₉⟩ => ?_
  subst hrow
  refine (requireText_succeeds ⟨hchallenge, hchallengeNe⟩ h₉).bind fun stored w₁₀ ⟨hstored, h₁₀⟩ =>
    ?_
  subst hstored
  refine Machine.Rely.Succeeds.bind (F := fun _ w => Exchangeable P code' b a w)
    (.throwIf (by simp [hmatches]) h₁₀) fun _ w₁₁ h₁₁ => ?_
  refine (catchReplay_succeeds (consume_succeeds h₁₁ hid rfl rfl rfl)).bind
    fun consumed w₁₂ ⟨⟨now, hconsumed⟩, h₁₂⟩ => ?_
  refine Machine.Rely.Succeeds.bind
    (F := fun row w => row = CodeStmt.consumed now b ∧ Issuable P b a w)
    (.orThrow hconsumed ⟨rfl, h₁₂⟩) fun row w₁₃ ⟨hrow, h₁₃⟩ => ?_
  subst hrow
  exact issueUserTokens_succeeds hP h₁₃ huser hclient

end Exchange

/-! ### The theorem -/

namespace Tried

variable {k : Option ℕ} {cₖ : ServerConfig}

/-- As long as the right exchange has not been accepted, the code is exchangeable. -/
theorem exchangeable (h : Tried P code b client k c₀ c)
    (hcodes : c.world.codes = c₀.world.codes) : Exchangeable P code b client c.world := by
  have hreach := h.reach
  have hsound := (reachable_sound hreach).1
  have hb : b ∈ c.world.codes := hcodes ▸ h.stored
  have hclient : client ∈ c.world.clients := h.only.clients ▸ h.registered
  refine ⟨?_, hsound.codes.nodup, h.unconsumed, ?_, ?_, ⟨client, hclient, rfl⟩,
    (code_references hreach hb).2.2, fun hash hhash => ?_⟩
  · rw [← h.hash]
    exact lookup_of_mem hsound.codeHashes hb
  · exact lookup_of_mem hsound.clientRefs hclient
  · rw [h.owner]
    exact lookup_of_mem hsound.clients.nodup hclient
  · obtain ⟨row, hrow, rfl⟩ := List.mem_map.1 hhash
    exact refreshToken_drawn hreach hrow

/-- Until the right exchange is accepted, all exchanges are wrong. -/
theorem before (h : Tried P code b client k c₀ c) (hk : ∀ i, k = some i → c.calls.length ≤ i) :
    Tried P code b client none c₀ c := by
  refine { h with run := ?_ }
  have hrun := h.run
  clear h
  induction hrun with
  | refl => exact .refl _
  | @tail c₁ c₂ a hrun hok hs ih =>
      have hlen : c₁.calls.length ≤ c₂.calls.length := apply_length_le hs
      have h₁ := ih fun i hi => hlen.trans (hk i hi)
      refine .tail h₁ ?_ hs
      cases hok with
      | wrong hwrong => exact .wrong hwrong
      | right hi hright =>
          have hlt := hk _ hi
          rw [← Option.some.inj hs] at hlt
          simp only [accept, List.length_append, List.length_singleton] at hlt
          omega
      | step hi => exact .step hi
      | fail hi _ => exact .fail hi (by simp)
      | env => exact .env

/-- The right exchange has returned tokens, or has not returned. -/
theorem answered (hP : Function.Injective P.sha256Hex) (h : Tried P code b client k c₀ c)
    (hk : k = some i) (hnew : c₀.calls.length ≤ i) (hi : c.calls[i]? = some call)
    (hrequest : call.req.request = .token form basicAuth)
    (hright : RightExchange P code b client form basicAuth) (hclient : isUuid client.id = true)
    (hnow : c.world.now ≤ b.expiresAt) {r : Except Err Response} (hr : call.result = some r) :
    ∃ response, r = .ok (.tokens response) := by
  obtain ⟨c₁, hrun₁, hok, hlen, hrun⟩ := h.run.accepted hi hnew
  have h₁ : Tried P code b client k c₀ c₁ := { h with run := hrun₁ }
  have hready : Exchangeable P code b client c₁.world := by
    refine h₁.exchangeable (h₁.before fun j hj => ?_).tables.1
    obtain rfl := Option.some.inj (hk.symm.trans hj)
    exact hlen.le
  obtain ⟨hid, huser, _⟩ := code_references h₁.reach (lookup_mem hready.stored)
  have hsucceeds : (untilExpiry P b.expiresAt).Succeeds ((machine P).handler call.req)
      (fun response _ => ∃ tokens, response = .tokens tokens) c₁.world := by
    change (untilExpiry P b.expiresAt).Succeeds (AuthServer.handler P call.req) _ _
    unfold AuthServer.handler
    rw [hrequest]
    exact (token_succeeds hP hright hready hid huser hclient).bind
      fun tokens _ _ => .pure ⟨tokens, rfl⟩
  have haccepted : ((machine P).accept c₁ call.req).calls[i]? =
      some ⟨call.req, c₁.seq, c₁.world, [], (machine P).handler call.req⟩ := by
    simp [accept, hlen]
  -- no statement of the call fails, and the others are wrong exchanges
  have hfail : ∀ c', ¬Exchanging P code b client c₀.calls.length k c' (.fail i) := by
    intro c' hfail
    cases hfail with
    | fail _ hne => exact hne hk
  have hothers : ∀ {c₂ a c₃}, (machine P).Runs (Exchanging P code b client c₀.calls.length k)
      ((machine P).accept c₁ call.req) c₂ → Exchanging P code b client c₀.calls.length k c₂ a →
      (machine P).apply c₂ a = some c₃ → (∀ r, a ≠ .step i r) → Untouched c₂.world c₃.world := by
    intro c₂ a c₃ hrun₂ hok₂ hs hown
    have h₂ : Tried P code b client k c₀ c₂ :=
      { h with run := (Runs.tail hrun₁ hok rfl).trans hrun₂ }
    refine h₂.untouched hok₂ hs fun j r hj hstep => hown r ?_
    obtain rfl := Option.some.inj (hk.symm.trans hj)
    exact hstep
  obtain ⟨call', hi', hdone⟩ := hrun.succeeds (untilExpiry P b.expiresAt) haccepted hsucceeds
    (fun _ _ _ h _ => h) hfail hothers
  obtain rfl := Option.some.inj (hi'.symm.trans hi)
  rw [Call.prog_of_result hr] at hdone
  rcases hdone with hover | ⟨response, rfl, tokens, rfl⟩
  · exact absurd hnow (Nat.not_le.2 hover)
  · exact ⟨tokens, rfl⟩

end Tried

/-- The code is spent on tokens for its user and its scope. -/
structure SpentOn (P : Platform) (w : World) (b : AuthorizationCodeRow) (tokens : TokenResponse) :
    Prop where
  consumed : ∃ r ∈ w.codes, b.Le r ∧ r.consumedAt.isSome = true
  accessToken : tokens.accessToken.payload.sub = b.userId ∧
    tokens.accessToken.payload.scope = some b.scope
  refreshToken : ∃ token, tokens.refreshToken = some token ∧ ∃ row ∈ w.refreshTokens,
    row.tokenHash = P.sha256Hex token ∧ row.userId = b.userId ∧ row.scope = b.scope

/-- **An exchange spends the code it presents.** -/
theorem Exchanges.spends {tokens : TokenResponse} (h : Exchanges call form basicAuth tokens)
    (hreach : (machine P).Reachable World.Initial c) (hi : c.calls[i]? = some call)
    (hcode : form.code = some code) {r : AuthorizationCodeRow} (hr : r ∈ c.world.codes)
    (hle : b.Le r) (hhash : b.codeHash = P.sha256Hex code) : SpentOn P c.world b tokens := by
  obtain ⟨_, codeRow, _, grant⟩ := h.grant hreach.valid hi
  obtain ⟨params, row, row', _, hpresented⟩ := grant.presented
  obtain ⟨⟨found, hfound, hfoundHash, _, hcodeRow⟩, e, he, _, hpost⟩ := hpresented.event hreach hi
  obtain rfl : code = params.code := Option.some.inj (hcode.symm.trans hpresented.code)
  -- there is one row with the hash of the code
  have hone : ∀ a ∈ c.world.codes, a.codeHash = P.sha256Hex params.code → a = r := fun a ha heq =>
    eq_of_key (reachable_sound hreach).1.codeHashes ha hr
      (heq.trans (hle.codeHash.trans hhash).symm)
  obtain ⟨a, ha, hahash, hconsumed⟩ := hpost.mono ((hreach.ordered (le_stable P)).post hi _ he)
  obtain rfl := hone found hfound hfoundHash
  obtain rfl := hone a ha hahash
  obtain ⟨haccess, hrefresh, _⟩ := grant.tokens.carried hreach hi
  rw [← hcodeRow.userId, ← hcodeRow.scope, hle.userId, hle.scope] at haccess hrefresh
  exact ⟨⟨_, hr, hle, hconsumed⟩, haccess, hrefresh⟩

/-- **Wrong exchanges leave the code.**  However many exchanges of an unconsumed code are
tried with a wrong client, secret, redirect URI or verifier, and however their statements
interleave or fail, codes, refresh tokens and sessions are what they were; and the right
exchange among them, if it has returned before the code expires, has spent the code on tokens
for its user and its scope.  (A handler is a finite tree of statements, so that it returns if
it goes on.) -/
theorem wrong_exchanges_leave_the_code (hP : Function.Injective P.sha256Hex) {k : Option ℕ}
    (h : Tried P code b client k c₀ c) :
    ((∀ i, k = some i → c.calls.length ≤ i) →
      c.world.codes = c₀.world.codes ∧ c.world.refreshTokens = c₀.world.refreshTokens ∧
        c.world.sessions = c₀.world.sessions) ∧
    ∀ (i : ℕ) (call : ServerCall) (form : TokenForm) (basicAuth : Option BasicAuth),
      k = some i → c₀.calls.length ≤ i → c.calls[i]? = some call →
      call.req.request = .token form basicAuth →
      RightExchange P code b client form basicAuth → isUuid client.id = true →
      c.world.now ≤ b.expiresAt →
      ∀ r, call.result = some r → ∃ response, r = .ok (.tokens response) ∧
        SpentOn P c.world b response := by
  refine ⟨fun hk => (h.before hk).tables,
    fun i call form basicAuth hk hnew hi hrequest hright hclient hnow r hr => ?_⟩
  obtain ⟨response, rfl⟩ := h.answered hP hk hnew hi hrequest hright hclient hnow hr
  refine ⟨response, rfl, ?_⟩
  -- the code as it is now
  obtain ⟨now, hnow, hle⟩ := ((le_stable P).runs h.run).codes b h.stored
  have hexchanges : Exchanges call form basicAuth response := ⟨hrequest, hright.grantType, hr⟩
  exact hexchanges.spends h.reach hi hright.presented.1 hnow hle h.hash

/-- The form of the right exchange with another verifier. -/
def wrongVerifierForm (code : String) : TokenForm :=
  { sampleCodeForm code with codeVerifier := some (sampleVerifier ++ "x") }

theorem wrong_exchanges_leave_the_code_of_verifier :
    ∃ (c₀ c₁ c : ServerConfig) (code : String) (b : AuthorizationCodeRow) (client : OAuthClientRow)
      (call : ServerCall) (response : TokenResponse),
      Tried .sample code b client none c₀ c₁ ∧ Tried .sample code b client (some 3) c₀ c ∧
      c₁.calls.length = 3 ∧ c₁.world.codes = c₀.world.codes ∧
      c₁.world.refreshTokens = c₀.world.refreshTokens ∧ c₁.world.sessions = c₀.world.sessions ∧
      c.calls[3]? = some call ∧ call.result = some (.ok (.tokens response)) ∧
      SpentOn .sample c.world b response := by
  have hplay : (sampleRun (loginMoves 0 "al@x.io" "Al 1" ++ authorizeMoves 1 "openid" none)).any
      (fun c₀ => ((machine .sample).advance Stmt.sampleRandom 2 40 ((machine .sample).accept c₀
          ⟨.token (wrongVerifierForm (lastToken c₀.world)) none, {}⟩)).any fun c₁ =>
        ((machine .sample).advance Stmt.sampleRandom 3 40 ((machine .sample).accept c₁
          ⟨.token (sampleCodeForm (lastToken c₀.world)) none, {}⟩)).any fun c =>
        decide (c₀.calls.length = 2 ∧ c₁.calls.length = 3 ∧ lastToken c₀.world ≠ "" ∧
          ∃ b ∈ c₀.world.codes, ∃ client ∈ c₀.world.clients,
            b.codeHash = Platform.sample.sha256Hex (lastToken c₀.world) ∧ b.consumedAt = none ∧
            b.clientId = client.id ∧ client.clientId = "cli_spa" ∧ client.status = .active ∧
            client.clientType = .publicClient ∧ isUuid client.id = true ∧
            b.redirectUri = "https://spa.example.org/cb" ∧
            b.codeChallenge = some ("u" ++ sampleVerifier) ∧
            PkceUtil.matches .sample (sampleVerifier ++ "x") ("u" ++ sampleVerifier)
              b.codeChallengeMethod = false ∧
            PkceUtil.matches .sample sampleVerifier ("u" ++ sampleVerifier)
              b.codeChallengeMethod = true ∧ c.world.now ≤ b.expiresAt) &&
        (c.calls[3]?).any fun call => decide (call.req.request =
          .token (sampleCodeForm (lastToken c₀.world)) none) && call.result.isSome) = true := by
    decide +kernel
  obtain ⟨c₀, h₀, hall⟩ := (Option.any_eq_true _ _).1 hplay
  obtain ⟨c₁, h₁, hall⟩ := (Option.any_eq_true _ _).1 hall
  obtain ⟨c, hc, hall⟩ := (Option.any_eq_true _ _).1 hall
  obtain ⟨hfacts, hcall⟩ := Bool.and_eq_true_iff.1 hall
  obtain ⟨hlen₀, hlen₁, hcode, b, hb, client, hclient, hhash, hunconsumed, howner, hid, hactive,
    htype, huuid, huri, hchallenge, hwrong, hright, hnow⟩ := of_decide_eq_true hfacts
  obtain ⟨call, hi, hcall⟩ := (Option.any_eq_true _ _).1 hcall
  obtain ⟨hrequest, hresult⟩ := Bool.and_eq_true_iff.1 hcall
  obtain ⟨r, hr⟩ := Option.isSome_iff_exists.1 hresult
  have hwrong : WrongExchange .sample (lastToken c₀.world) b client
      (wrongVerifierForm (lastToken c₀.world)) none := by
    refine ⟨rfl, rfl, .verifier fun verifier challenge hverifier hstored => ?_⟩
    obtain rfl := Option.some.inj hverifier
    obtain rfl := Option.some.inj (hchallenge.symm.trans hstored)
    exact hwrong
  have hright : RightExchange .sample (lastToken c₀.world) b client
      (sampleCodeForm (lastToken c₀.world)) none :=
    { grantType := rfl
      presented := ⟨rfl, hcode⟩
      clientId := ⟨congrArg some hid.symm, by rw [hid]; decide⟩
      active := hactive
      secret := by rw [htype]; rfl
      redirectUri := ⟨congrArg some huri.symm, by rw [huri]; decide⟩
      verifier := ⟨_, _, rfl, by decide, hchallenge, by decide, hright⟩ }
  have haccept : ∀ {k c' f}, Exchanging .sample (lastToken c₀.world) b client c₀.calls.length k c'
      (.accept ⟨.token f none, {}⟩) → (machine .sample).Runs (Exchanging .sample
        (lastToken c₀.world) b client c₀.calls.length k) c'
        ((machine .sample).accept c' ⟨.token f none, {}⟩) := fun hok => .tail (.refl _) hok rfl
  have hrun₁ : ∀ k, (machine .sample).Runs (Exchanging .sample (lastToken c₀.world) b client
      c₀.calls.length k) c₀ c₁ := fun k =>
    (haccept (.wrong hwrong)).trans (runs_of_advance (fun _ _ => .step hlen₀.le) h₁)
  have htried : Tried .sample (lastToken c₀.world) b client none c₀ c₁ :=
    ⟨sampleRun_reachable h₀, hb, hhash, hunconsumed, hclient, howner, hrun₁ none⟩
  have htried' : Tried .sample (lastToken c₀.world) b client (some 3) c₀ c := by
    refine { htried with run := (hrun₁ (some 3)).trans ?_ }
    refine (haccept (.right (congrArg some hlen₁.symm) hright)).trans ?_
    exact runs_of_advance (fun _ _ => .step (hlen₀.le.trans (by decide))) hc
  obtain ⟨htables, _⟩ := wrong_exchanges_leave_the_code sample_sha256Hex_injective htried
  obtain ⟨_, hanswered⟩ := wrong_exchanges_leave_the_code sample_sha256Hex_injective htried'
  obtain ⟨hcodes, htokens, hsessions⟩ := htables fun i hk => by cases hk
  obtain ⟨response, rfl, hspent⟩ := hanswered 3 call _ _ rfl (hlen₀.le.trans (by decide)) hi
    (of_decide_eq_true hrequest) hright huuid hnow r hr
  exact ⟨c₀, c₁, c, lastToken c₀.world, b, client, call, response, htried, htried', hlen₁, hcodes,
    htokens, hsessions, hi, hr, hspent⟩

end IdentityPlatform
