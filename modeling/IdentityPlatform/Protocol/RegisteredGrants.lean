/-
# Grants a client is registered for

A client is registered with a list of grants.  The `client_credentials` branch of the
token endpoint looks at it; the authorization endpoint, the exchange of a code and the
refresh never do.  So tokens go through registered grants only as long as no code is
issued for a client that is not registered for codes.
-/

import IdentityPlatform.Protocol.ClientScopes

namespace IdentityPlatform

open Interleaving Program Relational Machine AuthServer

variable {P : Platform} {c : ServerConfig} {i : ℕ} {call : ServerCall} {l₀ : ServerLog}
  {ctx : RequestContext} {token : Jws}

/-! ### What a client is registered for -/

/-- A client keeps its identifiers and its grants. -/
structure OAuthClientRow.SameGrants (a b : OAuthClientRow) : Prop where
  id : b.id = a.id
  clientId : b.clientId = a.clientId
  grantTypes : b.grantTypes = a.grantTypes

/-- Every client keeps its grants. -/
def World.KeepsGrants (w w' : World) : Prop :=
  Carried OAuthClientRow.SameGrants w.clients w'.clients

theorem keepsGrants_stable (P : Platform) : (machine P).Stable World.KeepsGrants where
  refl w := .refl (fun _ => ⟨rfl, rfl, rfl⟩) w.clients
  trans h h' := h.trans (fun a b =>
    ⟨b.id.trans a.id, b.clientId.trans a.clientId, b.grantTypes.trans a.grantTypes⟩) h'
  exec h := (Stmt.exec_clients h).carried (fun _ => ⟨rfl, rfl, rfl⟩) fun a _ b => by
    rintro ⟨u, _, _, rfl⟩
    cases u <;> exact ⟨rfl, rfl, rfl⟩
  env h := by
    rw [World.KeepsGrants, Env.apply_clients h]
    exact .refl (fun _ => ⟨rfl, rfl, rfl⟩) _

/-! ### The check of `client_credentials` -/

/-- The client of the request was read, and is registered for `client_credentials`. -/
def CredentialsAllowed (l : ServerLog) (form : TokenForm) (basicAuth : Option BasicAuth) : Prop :=
  ∃ clientId client, Identified l form basicAuth clientId client ∧
    "client_credentials" ∈ client.grantTypes

/-- Nothing is signed without that. -/
def SignsAllowed (form : TokenForm) (basicAuth : Option BasicAuth) (l : ServerLog) : Stmt → Prop
  | .kms (.sign ..) => CredentialsAllowed l form basicAuth
  | _ => True

theorem signsAllowed_of_plain {α : Type} {form : TokenForm} {basicAuth : Option BasicAuth}
    {p : Prog α} (h : Respects Stmt.Plain l₀ p) : Respects (SignsAllowed form basicAuth) l₀ p :=
  h.mono fun l s _ hs => by
    unfold SignsAllowed
    split
    · exact hs.elim
    · trivial

theorem signAccessToken_allowed {form : TokenForm} {basicAuth : Option BasicAuth}
    {input : AccessTokenInput}
    (h : ∀ {l}, l₀ <:+ l → CredentialsAllowed l form basicAuth) :
    Respects (SignsAllowed form basicAuth) l₀ (JwtService.signAccessToken P input) := by
  refine .bind (by simp [SignsAllowed]) fun l₁ kid h₁ => ?_
  refine .bind (by simp [SignsAllowed]) fun l₂ ms h₂ => ?_
  refine .bind (by simp [SignsAllowed]) fun l₃ jti h₃ => ?_
  refine .bind (respects_query.2 ?_) fun l₄ _ _ => by simp
  exact h (h₁.suffix.trans (h₂.suffix.trans h₃.suffix))

theorem clientCredentialsGrant_allowed {form : TokenForm} {basicAuth : Option BasicAuth}
    {clientId : String} {client : OAuthClientRow} {secret : Option String}
    (hid : ∀ {l}, l₀ <:+ l → Identified l form basicAuth clientId client) :
    Respects (SignsAllowed form basicAuth) l₀
      (OAuthService.clientCredentialsGrant P form client secret ctx) := by
  refine .bind (by simp) fun l₁ _ h₁ => .bind (by simp) fun l₂ _ h₂ => ?_
  refine .bind (signsAllowed_of_plain (by simp)) fun l₃ _ h₃ => ?_
  refine .bind (by simp) fun l₄ _ h₄ => .bind (by simp) fun l₅ _ h₅ => ?_
  refine .bind (by simp) fun l₆ _ h₆ => ?_
  refine .bind (signAccessToken_allowed fun hl => ⟨clientId, client, hid ?_, ?_⟩) fun l₇ signed _ =>
    signsAllowed_of_plain (by simp)
  · exact h₁.suffix.trans (h₂.suffix.trans (h₃.suffix.trans (h₄.suffix.trans
      (h₅.suffix.trans (h₆.suffix.trans hl)))))
  · exact not_not.1 (returns_throwIf_ok.1 h₄).2

theorem token_allowed {form : TokenForm} {basicAuth : Option BasicAuth}
    (hform : form.grantType = .clientCredentials) :
    Respects (SignsAllowed form basicAuth) l₀ (OAuthService.token P form basicAuth ctx) := by
  refine .bind (by simp [requireText]) fun l₁ clientId h₁ => ?_
  refine .bind (by simp [ClientRepository.findByClientId, SignsAllowed]) fun l₂ found h₂ => ?_
  refine .bind (by simp) fun l₃ client h₃ => ?_
  obtain ⟨hl₃, hfound⟩ := returns_orThrow_ok.1 h₃
  obtain ⟨hread, hact⟩ := Option.filter_eq_some_iff.1 hfound
  rw [hform]
  exact clientCredentialsGrant_allowed fun hl =>
    ⟨(requireText_ok h₁).1, hread ▸ h₂.saw.mono (hl₃ ▸ hl), by simpa using hact⟩

/-- **A token on credentials** is for a client that is registered for them. -/
theorem OnCredentials.registered (hreach : (machine P).Reachable World.Initial c)
    {clientId : String} (h : OnCredentials c clientId token) :
    ∃ client ∈ c.world.clients,
      client.clientId = clientId ∧ "client_credentials" ∈ client.grantTypes := by
  obtain ⟨i, call, form, basicAuth, hi, request, grant, named, n, pre, kid, payload, post, he⟩ :=
    h.issued
  obtain ⟨l, hallowed, hl⟩ := hreach.valid.respected
    (P := fun req l s => ∀ form basicAuth, req.request = .token form basicAuth →
      form.grantType = .clientCredentials → SignsAllowed form basicAuth l s)
    (fun req l s hs form basicAuth hrequest hform => by
      obtain ⟨_, ctx⟩ := req
      subst hrequest
      exact Respects.bind (token_allowed hform) (fun _ _ _ => by simp) l s hs) hi he
  obtain ⟨clientId', client, hid, hgrant⟩ := hallowed form basicAuth request grant
  obtain rfl := Option.some.inj (named.symm.trans hid.named)
  obtain ⟨_, before, after, hmem, hans⟩ := answered hreach.valid hi
    (hid.read.mono ((List.suffix_cons _ l).trans hl))
  have hlookup := (Stmt.findByClientId_answer hans).symm
  have hord := hreach.ordered (keepsGrants_stable P)
  obtain ⟨row, hrow, hsame⟩ := (keepsGrants_stable P).trans (hord.answer hi _ hmem)
    (hord.post hi _ hmem) client (lookup_mem hlookup)
  exact ⟨row, hrow, hsame.clientId.trans (lookup_key hlookup), hsame.grantTypes ▸ hgrant⟩

/-! ### Codes -/

/-- Codes are issued for clients only that are registered for codes. -/
def CodesRegistered (P : Platform) (c : ServerConfig) : Prop :=
  ∀ (j : ℕ) issuer code userId input, c.calls[j]? = some issuer →
    Issues P issuer code input userId → ∀ client ∈ c.world.clients,
      client.clientId = input.clientId → "authorization_code" ∈ client.grantTypes

/-- The client of a code. -/
theorem CodesRegistered.client (h : CodesRegistered P c)
    (hreach : (machine P).Reachable World.Initial c) {b : AuthorizationCodeRow}
    (hb : b ∈ c.world.codes) :
    ∃ client ∈ c.world.clients,
      client.id = b.clientId ∧ "authorization_code" ∈ client.grantTypes := by
  obtain ⟨issue⟩ := code_scope hreach hb
  exact ⟨issue.client, issue.registered, issue.owner, h issue.place issue.issuer issue.code
    issue.userId issue.input issue.call issue.issues issue.client issue.registered issue.clientId⟩

/-- The token names the client: by its public identifier, or as `/auth/refresh` does by that
of its row. -/
def NamesClient (token : Jws) (client : OAuthClientRow) : Prop :=
  ∀ name, token.payload.clientId = some name → name = client.clientId ∨ name = client.id

/-- A client that was read is the one with the identifier of its row. -/
theorem read_client_eq (hreach : (machine P).Reachable World.Initial c)
    (hi : c.calls[i]? = some call) {clientId : String} {client row : OAuthClientRow}
    (hread : Log.Saw call.log (.clients (.findByClientId clientId)) (.ok (some client)))
    (hrow : row ∈ c.world.clients) (hid : row.id = client.id) : row.clientId = client.clientId := by
  obtain ⟨row', hrow', hle, _⟩ := read_client hreach hi hread
  obtain rfl :=
    eq_of_key (reachable_sound hreach).1.clients.nodup hrow hrow' (hid.trans hle.id.symm)
  exact hle.clientId

/-- **A token on a code** is for a client that is registered for codes, if codes are. -/
theorem OnCode.registered (hreach : (machine P).Reachable World.Initial c)
    (hcodes : CodesRegistered P c) {code : String} (h : OnCode P c code token)
    (hscope : token.payload.scope.isSome = true) : ∃ client ∈ c.world.clients,
      NamesClient token client ∧ "authorization_code" ∈ client.grantTypes := by
  obtain ⟨scope, hscope⟩ := Option.isSome_iff_exists.1 hscope
  cases h with
  | exchange hi request grant presented signed =>
      obtain ⟨l, input, hl, hreason, rfl, hclaim⟩ := signed.reason hreach.valid hi hscope
      rw [request] at hreason
      cases hreason with
      | exchange hrequest _ identified presented' peeked consumed _ _ _ =>
          cases hrequest
          obtain rfl := Option.some.inj (presented.symm.trans presented')
          obtain ⟨b, hb, _, _, hclient⟩ := exchange_binding hreach hi
            { identified with read := identified.read.mono hl } (peeked.mono hl) (consumed.mono hl)
          obtain ⟨row, hrow, hid, hgrant⟩ := hcodes.client hreach hb
          have hsame := read_client_eq hreach hi (identified.read.mono hl) hrow (hid.trans hclient)
          refine ⟨row, hrow, fun name hname => .inl ?_, hgrant⟩
          rw [hsame]
          exact (Option.some.inj (Option.filter_eq_some_iff.1 (hclaim.symm.trans hname)).1).symm
      | oauthRefresh hrequest grant' | clientCredentials hrequest grant' =>
          cases hrequest
          rw [grant] at grant'
          cases grant'
      | login hrequest | challenge hrequest | refresh hrequest => cases hrequest
  | refresh hi request derived hash signed =>
      obtain ⟨l, input, hl, hreason, rfl, hclaim⟩ := signed.reason hreach.valid hi hscope
      rw [request] at hreason
      cases hreason with
      | refresh hrequest rotated _ _ =>
          cases hrequest
          obtain ⟨l', hrotated, hfound⟩ := rotated
          obtain ⟨b, hb, _, hclient, _⟩ := rotated_owner hreach hi
            (hrotated.mono (hfound.suffix.trans hl)) derived hash
          obtain ⟨row, hrow, hid, hgrant⟩ := hcodes.client hreach hb
          refine ⟨row, hrow, fun name hname => .inr ?_, hgrant⟩
          have hnamed := (Option.filter_eq_some_iff.1 (hclaim.symm.trans hname)).1
          rw [hid]
          exact Option.some.inj (hnamed.symm.trans hclient)
      | login hrequest | challenge hrequest | exchange hrequest | oauthRefresh hrequest
      | clientCredentials hrequest => cases hrequest
  | oauthRefresh hi request grant presented derived hash signed =>
      obtain ⟨l, input, hl, hreason, rfl, hclaim⟩ := signed.reason hreach.valid hi hscope
      rw [request] at hreason
      cases hreason with
      | oauthRefresh hrequest _ identified bound presented' rotated _ _ _ =>
          cases hrequest
          obtain rfl := Option.some.inj (presented.symm.trans presented')
          obtain ⟨l', hrotated, hfound⟩ := rotated
          obtain ⟨b, hb, _, hclient, _⟩ := rotated_owner hreach hi
            (hrotated.mono (hfound.suffix.trans hl)) derived hash
          obtain ⟨row, hrow, hid, hgrant⟩ := hcodes.client hreach hb
          have hsame := read_client_eq hreach hi (identified.read.mono hl) hrow
            (hid.trans (Option.some.inj (hclient.symm.trans bound)))
          refine ⟨row, hrow, fun name hname => .inl ?_, hgrant⟩
          rw [hsame]
          exact (Option.some.inj (Option.filter_eq_some_iff.1 (hclaim.symm.trans hname)).1).symm
      | exchange hrequest grant' | clientCredentials hrequest grant' =>
          cases hrequest
          rw [grant] at grant'
          cases grant'
      | login hrequest | challenge hrequest | refresh hrequest => cases hrequest

/-- **Tokens through registered grants.**  If codes are issued only for clients that are
registered for codes, then every token on a code is for a client that is, and so is every
refresh token of a client; a token on credentials is for a client that is registered for
`client_credentials`, in any case; and every access token that names a client is of one of
the two kinds. -/
theorem tokens_through_registered_grants (hreach : (machine P).Reachable World.Initial c)
    (hcodes : CodesRegistered P c) :
    (∀ code token, OnCode P c code token → token.payload.scope.isSome = true →
      ∃ client ∈ c.world.clients, NamesClient token client ∧
        "authorization_code" ∈ client.grantTypes) ∧
    (∀ row ∈ c.world.refreshTokens, ∀ id, row.clientId = some id →
      ∃ client ∈ c.world.clients, client.id = id ∧ "authorization_code" ∈ client.grantTypes) ∧
    (∀ clientId token, OnCredentials c clientId token → ∃ client ∈ c.world.clients,
      client.clientId = clientId ∧ "client_credentials" ∈ client.grantTypes) ∧
    ∀ token ∈ c.world.signed, token.payload.scope.isSome = true →
      token.payload.clientId.isSome = true →
      (∃ code, OnCode P c code token) ∨ ∃ clientId, OnCredentials c clientId token := by
  refine ⟨fun code token h hscope => h.registered hreach hcodes hscope, fun row hrow id hid => ?_,
    fun clientId token h => h.registered hreach, (client_token_scopes hreach).2.2⟩
  obtain ⟨code, hderived⟩ := client_row_derived hreach hrow (Option.isSome_of_eq_some hid)
  obtain ⟨_, b, hb, _, _, hclient, _⟩ := hderived.owner hreach
  obtain ⟨client, hmem, hclientId, hgrant⟩ := hcodes.client hreach hb
  exact ⟨client, hmem, hclientId.trans (Option.some.inj (hclient.symm.trans hid)), hgrant⟩

/-- A client for codes exchanges one, and its refresh token is used at `/auth/refresh`. -/
theorem tokens_through_registered_grants_of_exchange :
    ∃ (c : ServerConfig) (token : Jws) (client : OAuthClientRow),
      sampleRun plainRefreshMoves = some c ∧ token ∈ c.world.signed ∧
      token.payload.clientId = some "cli_spa" ∧ client ∈ c.world.clients ∧
      NamesClient token client ∧ "authorization_code" ∈ client.grantTypes := by
  have hplay : (sampleRun plainRefreshMoves).any (fun c =>
      decide (∀ client ∈ c.world.clients, "authorization_code" ∈ client.grantTypes) &&
      decide (∀ call ∈ c.calls, call.req.request.isForClient = false) &&
      decide (∃ token ∈ c.world.signed, token.payload.scope.isSome = true ∧
        token.payload.clientId = some "cli_spa")) = true := by
    decide +kernel
  obtain ⟨c, hc, hall⟩ := (Option.any_eq_true _ _).1 hplay
  simp only [Bool.and_eq_true, decide_eq_true_eq] at hall
  obtain ⟨⟨hclients, hrequests⟩, token, htoken, hscope, hclient⟩ := hall
  obtain ⟨hcode, _, _, hcases⟩ := tokens_through_registered_grants (sampleRun_reachable hc)
    fun _ _ _ _ _ _ _ client hmem _ => hclients client hmem
  rcases hcases token htoken hscope (Option.isSome_of_eq_some hclient) with
    ⟨code, hon⟩ | ⟨clientId, i, call, form, basicAuth, hi, hrequest, hform, _⟩
  · obtain ⟨client, hmem, hnames, hgrant⟩ := hcode code token hon hscope
    exact ⟨c, token, client, hc, htoken, hclient, hmem, hnames, hgrant⟩
  · have hother := hrequests call (List.mem_of_getElem? hi)
    simp [hrequest, Request.isForClient, hform] at hother

/-- A client is registered for `client_credentials` alone, exchanges a code and refreshes. -/
def unregisteredGrantMoves : List (Move World Incoming Env) :=
  loginMoves 0 "ro@x.io" "Ro 1" ++
    createClientMoves 1 (sampleClient ["api.read"] ["client_credentials"]) ++
    loginMoves 2 "al@x.io" "Al 1" ++ authorizeNewestMoves 3 "api.read" ++ exchangeNewestMoves 4 ++
    [.accept fun w => ⟨.token { sampleRefreshForm (lastToken w) with
      clientId := some (newestClient w) } none, {}⟩, .steps 5 40]

/-- **The grants of a client are not looked at.**  A client that is registered for
`client_credentials` alone gets tokens for a code, and again for the refresh token. -/
theorem tokens_through_unregistered_grant :
    ∃ (c : ServerConfig) (client : OAuthClientRow) (exchange refresh : TokenResponse),
      sampleRun unregisteredGrantMoves = some c ∧ client ∈ c.world.clients ∧
      client.grantTypes = ["client_credentials"] ∧
      (∃ call form, c.calls[4]? = some call ∧ call.req.request = .token form none ∧
        form.grantType = .authorizationCode) ∧
      c.returned 4 = some (.tokens exchange) ∧
      exchange.accessToken.payload.clientId = some client.clientId ∧
      c.returned 5 = some (.tokens refresh) ∧
      refresh.accessToken.payload.clientId = some client.clientId := by
  have hplay : (sampleRun unregisteredGrantMoves).any (fun c =>
      c.world.clients.any fun client =>
        (c.calls[4]?.bind tokenAnswer?).any fun x => (c.calls[5]?.bind tokenAnswer?).any fun y =>
          decide (client.grantTypes = ["client_credentials"] ∧
            x.1.grantType = .authorizationCode ∧ x.2.1 = none ∧
            x.2.2.accessToken.payload.clientId = some client.clientId ∧
            y.2.2.accessToken.payload.clientId = some client.clientId)) = true := by
    decide +kernel
  obtain ⟨c, hc, hall⟩ := (Option.any_eq_true _ _).1 hplay
  obtain ⟨client, hclient, hall⟩ := List.any_eq_true.1 hall
  obtain ⟨⟨form, basicAuth, exchange⟩, hx, hall⟩ := (Option.any_eq_true _ _).1 hall
  obtain ⟨⟨form', basicAuth', refresh⟩, hy, hall⟩ := (Option.any_eq_true _ _).1 hall
  obtain ⟨hgrants, hform, rfl, hnamed, hnamed'⟩ := of_decide_eq_true hall
  obtain ⟨call, hi, hx⟩ := Option.bind_eq_some_iff.1 hx
  obtain ⟨call', hi', hy⟩ := Option.bind_eq_some_iff.1 hy
  obtain ⟨hrequest, hresult⟩ := tokenAnswer?_eq_some hx
  obtain ⟨_, hresult'⟩ := tokenAnswer?_eq_some hy
  refine ⟨c, client, exchange, refresh, hc, hclient, hgrants, ⟨call, form, hi, hrequest, hform⟩, ?_,
    hnamed, ?_, hnamed'⟩
  · simp [Config.returned, hi, hresult, Except.toOption]
  · simp [Config.returned, hi', hresult', Except.toOption]

end IdentityPlatform
