/-
# What a disabled client still obtains

`authorize` and `token` read the client and refuse one that is not active.  Two paths do
not: `/auth/refresh` exchanges a refresh token without a look at the client it belongs to,
and `/oauth/introspect` checks the secret and not the status.  Nothing else is left:
`disabled_client_obtains_nothing` holds in every run in which neither of the two is used.
-/

import IdentityPlatform.Protocol.FamilyRevocation
import IdentityPlatform.Protocol.CodeReplay

namespace IdentityPlatform

open Interleaving Program Relational Machine AuthServer

variable {P : Platform} {c c₀ : ServerConfig} {i : ℕ} {call : ServerCall} {e : ServerEvent}
  {client row : OAuthClientRow} {id : String}

/-- The client is disabled. -/
def World.ClientDisabled (w : World) (id : String) : Prop :=
  ∃ a ∈ w.clients, a.id = id ∧ a.status = .disabled

instance {w : World} : Decidable (w.ClientDisabled id) := List.decidableBEx ..

/-- The request is for a token on a grant of the client: it presents a code or a refresh
token of the client, or is the client's own. -/
inductive OnGrantOf (P : Platform) (c : ServerConfig) (client : OAuthClientRow) : Request → Prop
  | code {form basicAuth code row} (grantType : form.grantType = .authorizationCode)
      (presented : form.code = some code) (stored : row ∈ c.world.codes)
      (hash : row.codeHash = P.sha256Hex code) (owner : row.clientId = client.id) :
      OnGrantOf P c client (.token form basicAuth)
  | refreshToken {request token row} (presented : Request.Presents token request)
      (stored : row ∈ c.world.refreshTokens) (hash : row.tokenHash = P.sha256Hex token)
      (owner : row.clientId = some client.id) : OnGrantOf P c client request
  | credentials {form basicAuth} (grantType : form.grantType = .clientCredentials)
      (named : (basicAuth.map BasicAuth.clientId).or form.clientId = some client.clientId) :
      OnGrantOf P c client (.token form basicAuth)

/-- What a call has obtained for the client: an authorization code, a token on a grant of
the client, or an answer to an introspection authenticated as the client. -/
inductive Obtains (P : Platform) (c : ServerConfig) (client : OAuthClientRow) (call : ServerCall) :
    Prop
  | code {bearer input state redirect} (request : call.req.request = .authorize bearer input state)
      (named : input.clientId = client.clientId)
      (answer : call.result = some (.ok (.redirect redirect)))
  | token {response access} (grant : OnGrantOf P c client call.req.request)
      (answer : call.result = some (.ok response)) (access : response.accessToken? = some access)
  | introspection {token basic result}
      (request : call.req.request = .introspect token (some basic))
      (named : basic.clientId = client.clientId)
      (answer : call.result = some (.ok (.introspection result)))

/-- At `/auth/refresh` the call presents a token of the client that can be exchanged. -/
def RefreshesGrantOf (P : Platform) (client : OAuthClientRow) (call : ServerCall) : Prop :=
  ∃ token, call.req.request = .refresh token ∧ ∃ e ∈ call.log, ∃ row ∈ e.pre.refreshTokens,
    row.tokenHash = P.sha256Hex token ∧ row.clientId = some client.id ∧ row.Exchangeable e.pre

/-- At `/oauth/introspect` the call presents a secret of the client that verifies. -/
def IntrospectsAs (P : Platform) (client : OAuthClientRow) (call : ServerCall) : Prop :=
  ∃ token basic, call.req.request = .introspect token (some basic) ∧
    basic.clientId = client.clientId ∧ ∃ e ∈ call.log, ∃ row hash,
      e.pre.client basic.clientId = some row ∧ row.clientSecretHash = some hash ∧
        P.argon2Verify hash basic.clientSecret = some true

/-! ### The status of a client -/

/-- Only one statement takes the status away from `disabled`. -/
theorem ClientStmt.change_disabled {u : ClientStmt} {a : OAuthClientRow}
    (htarget : u.target = some a.id) (hne : u ≠ .setStatus a.id .active)
    (ha : a.status = .disabled) : (u.change a).status = .disabled := by
  cases u with
  | setStatus id status =>
      obtain rfl := Option.some.inj htarget
      cases status with
      | active => exact absurd rfl hne
      | disabled => rfl
  | _ => exact ha

theorem ClientDisabled.kept (hv : (machine P).Valid c) (hi : c.calls[i]? = some call)
    (he : e ∈ call.log) (hop : e.op ≠ .clients (.setStatus id .active))
    (h : e.pre.ClientDisabled id) : e.post.ClientDisabled id := by
  have hanswers := hv.answers hi e he
  obtain ⟨n, pre, s, ans, post⟩ := e
  rcases hanswers with ⟨r, hexec⟩ | ⟨_, hpost⟩
  swap
  · obtain rfl : post = pre := hpost
    exact h
  have hchanges := Stmt.exec_clients hexec
  obtain ⟨a, ha, rfl, hdisabled⟩ := h
  change ∃ b ∈ post.clients, b.id = a.id ∧ b.status = .disabled
  generalize post.clients = rows at hchanges
  cases hchanges with
  | same => exact ⟨a, ha, rfl, hdisabled⟩
  | append _ => exact ⟨a, List.mem_append_left _ ha, rfl, hdisabled⟩
  | update p f hold =>
      refine ⟨_, mem_updateWhere.2 ⟨a, ha, rfl⟩, ?_⟩
      split_ifs with hp
      · obtain ⟨u, hs, htarget, hf⟩ := hold a ha hp
        have hne : u ≠ .setStatus a.id .active := fun hu => hop (hu ▸ hs)
        rw [hf]
        exact ⟨(ClientStmt.change_le u a).id, ClientStmt.change_disabled htarget hne hdisabled⟩
      · exact ⟨rfl, hdisabled⟩

/-- The client `client`, disabled in `c₀`, is not set active again on the way to `c`. -/
structure StaysDisabled (P : Platform) (client : OAuthClientRow) (c₀ c : ServerConfig) : Prop where
  reachable : (machine P).Reachable World.Initial c₀
  run : (machine P).Run c₀ c
  stored : client ∈ c₀.world.clients
  disabled : client.status = .disabled
  stays : ∀ (i : ℕ) call, c.calls[i]? = some call → ∀ e ∈ call.log, c₀.seq ≤ e.seq →
    e.op ≠ .clients (.setStatus client.id .active)

namespace StaysDisabled

/-- **A later call reads the client as disabled.** -/
theorem read (h : StaysDisabled P client c₀ c) (hi : c.calls[i]? = some call)
    (hnew : c₀.calls.length ≤ i) {ref : String}
    (hsaw : call.log.Saw (.clients (.findByClientId ref)) (.ok (some row)))
    (hsame : row.id = client.id ∨ ref = client.clientId) : row.status = .disabled := by
  have hreach := h.reachable.run h.run
  obtain ⟨n, pre, post, hmem, hans⟩ := answered hreach.valid hi hsaw
  have hseq : c₀.seq ≤ n :=
    (h.run.startSeq_of_new hi hnew).trans (hreach.valid.start_lt hi _ hmem).le
  have hsound := ((reachable_sound hreach).2 i call hi _ hmem).1
  have hdisabled : pre.ClientDisabled client.id := by
    by_contra hnot
    obtain ⟨j, call', e, hj, he, hle, _, hpre, hpost⟩ := h.run.lost h.reachable.valid
      (K := fun w => w.ClientDisabled client.id) ⟨client, h.stored, rfl, h.disabled⟩
      (fun e w w' hw hK => by rwa [World.ClientDisabled, Env.apply_clients hw]) hi hmem hseq hnot
    exact hpost (ClientDisabled.kept hreach.valid hj he (h.stays j call' hj e he hle) hpre)
  obtain ⟨a, ha, hid, hstatus⟩ := hdisabled
  have hlookup := (Stmt.findByClientId_answer hans).symm
  have hrow : row = a := by
    rcases hsame with hsame | hsame
    · exact eq_of_key hsound.clients.nodup (lookup_mem hlookup) ha (hsame.trans hid.symm)
    · have hle : c₀.world.Le pre := ((le_stable P).since h.run h.reachable.valid).pre hi _ hmem hseq
      have hclient := hle.clients.le_of_key hsound.clients.nodup (fun h => h.id) h.stored ha hid
      refine eq_of_key hsound.clientRefs (lookup_mem hlookup) ha ?_
      exact (lookup_key hlookup).trans (hsame.trans hclient.clientId.symm)
  exact hrow ▸ hstatus

/-- The row of the client in a later state. -/
theorem now (h : StaysDisabled P client c₀ c) {a : OAuthClientRow} (ha : a ∈ c.world.clients)
    (hid : a.id = client.id) : a.clientId = client.clientId := by
  have hle := (le_stable P).runs h.run
  have hsound := (reachable_sound (h.reachable.run h.run)).1
  exact (hle.clients.le_of_key hsound.clients.nodup (fun h => h.id) h.stored ha hid).clientId

/-- **The token endpoint does nothing for the client.** -/
theorem not_identified (h : StaysDisabled P client c₀ c) (hi : c.calls[i]? = some call)
    (hnew : c₀.calls.length ≤ i) {form : TokenForm} {basicAuth : Option BasicAuth} {ref : String}
    (hidentified : Identified call.log form basicAuth ref row) :
    row.id ≠ client.id ∧ ref ≠ client.clientId := by
  have hread := fun hsame => h.read hi hnew hidentified.read hsame
  refine ⟨fun hsame => ?_, fun hsame => ?_⟩
  · have hdisabled := hread (.inl hsame)
    rw [hidentified.active] at hdisabled
    cases hdisabled
  · have hdisabled := hread (.inr hsame)
    rw [hidentified.active] at hdisabled
    cases hdisabled

end StaysDisabled

/-! ### The two endpoints that read the client -/

/-- An authorization request of a client that is not active is refused. -/
theorem checkAuthorizeRequest_active {input : AuthorizeInput} {userId : Option String}
    {ctx : RequestContext} {l₀ l : ServerLog}
    (h : (OAuthService.checkAuthorizeRequest input userId ctx).Returns l₀ l (.ok client)) :
    ∃ row, l.Saw (.clients (.findByClientId input.clientId)) (.ok (some row)) ∧
      row.status = .active := by
  obtain ⟨l₁, found, h₁, hs₁, h⟩ := h.of_bind
  obtain ⟨l₂, row, h₂, _, h⟩ := h.of_bind
  obtain ⟨l₃, _, h₃, _, _⟩ := h.of_bind
  have hfound := (returns_orThrow_ok.1 h₂).2
  refine ⟨row, hfound ▸ h₁.saw.mono hs₁, ?_⟩
  rcases returns_onlyIf_ok.1 h₃ with ⟨_, hdenied⟩ | ⟨hactive, _⟩
  · obtain ⟨_, _, _, _, hthrow⟩ := hdenied.of_bind
    cases (returns_throw.1 hthrow).2
  · exact not_not.1 hactive

/-- An introspection that is answered has read a secret of the client that verifies. -/
theorem introspect_authenticated {token : WireToken} {basic : BasicAuth} {ctx : RequestContext}
    {l₀ l : ServerLog} {response : Response}
    (h : (AuthServer.introspect P token (some basic) ctx).Returns l₀ l (.ok response)) :
    ∃ row hash, l.Saw (.clients (.findByClientId basic.clientId)) (.ok (some row)) ∧
      row.clientSecretHash = some hash ∧ P.argon2Verify hash basic.clientSecret = some true := by
  obtain ⟨l₁, basic', h₁, _, h⟩ := h.of_bind
  obtain rfl := Option.some.inj (returns_orThrow_ok.1 h₁).2
  obtain ⟨l₂, found, h₂, hs₂, h⟩ := h.of_bind
  obtain ⟨l₃, ok, h₃, _, h⟩ := h.of_bind
  obtain ⟨l₄, _, h₄, _, _⟩ := h.of_bind
  rcases returns_onlyIf_ok.1 h₄ with ⟨_, hdenied⟩ | ⟨hok, _⟩
  · obtain ⟨_, _, _, _, hthrow⟩ := hdenied.of_bind
    cases (returns_throw.1 hthrow).2
  · rw [Bool.not_eq_false] at hok
    subst hok
    cases found with
    | none => cases (returns_pure.1 h₃).2
    | some row =>
        change (ClientRepository.verifySecret P row basic.clientSecret).Returns _ _ _ at h₃
        unfold ClientRepository.verifySecret at h₃
        split at h₃
        · cases (returns_pure.1 h₃).2
        · rename_i hash hhash
          exact ⟨row, hash, h₂.saw.mono hs₂, (Option.filter_eq_some_iff.1 hhash).1,
            (returns_orThrow_ok.1 h₃).2⟩

namespace StaysDisabled

/-- No code is issued for the client. -/
theorem not_authorized (h : StaysDisabled P client c₀ c) (hi : c.calls[i]? = some call)
    (hnew : c₀.calls.length ≤ i) {bearer : Option WireToken} {input : AuthorizeInput}
    {state : Option String} {response : Response}
    (hrequest : call.req.request = .authorize bearer input state)
    (hnamed : input.clientId = client.clientId) : call.result ≠ some (.ok response) := by
  intro hanswer
  have hreturns := (h.reachable.run h.run).valid.returned hi hanswer
  have hhandler : (machine P).handler call.req =
      AuthServer.authorize P bearer input state call.req.ctx := by
    change AuthServer.handler P call.req = _
    unfold AuthServer.handler
    rw [hrequest]
  rw [hhandler] at hreturns
  obtain ⟨l₁, user, _, _, hrest⟩ := hreturns.of_bind
  obtain ⟨l₂, redirect, hauthorize, hs₂, _⟩ := hrest.of_bind
  obtain ⟨l₃, _, hcheck, hs₃, _⟩ := hauthorize.of_bind
  obtain ⟨row, hsaw, hactive⟩ := checkAuthorizeRequest_active hcheck
  rw [h.read hi hnew (hsaw.mono (hs₃.trans hs₂)) (.inr hnamed)] at hactive
  cases hactive

/-- No code of the client is exchanged. -/
theorem not_exchanged (h : StaysDisabled P client c₀ c) (hi : c.calls[i]? = some call)
    (hnew : c₀.calls.length ≤ i) {form : TokenForm} {basicAuth : Option BasicAuth} {code : String}
    {b : AuthorizationCodeRow} (hpresented : form.code = some code) (hb : b ∈ c.world.codes)
    (hhash : b.codeHash = P.sha256Hex code) (howner : b.clientId = client.id)
    {codeRow : AuthorizationCodeRow} {session : SessionRow} {response : TokenResponse} :
    ¬CodeGrant P call.log form basicAuth row codeRow session response := by
  intro hgrant
  have hreach := h.reachable.run h.run
  obtain ⟨params, joined, _, hidentified, hpresents⟩ := hgrant.presented
  obtain ⟨hrowhash, ⟨b', hb', hle⟩, a, ha, haid, haref⟩ := Peeked.now hpresents.peeked hreach hi
  have hparams : params.code = code := Option.some.inj (hpresents.code.symm.trans hpresented)
  obtain rfl : b' = b := by
    refine eq_of_key (reachable_sound hreach).1.codeHashes hb' hb ?_
    rw [hle.codeHash, hrowhash, hparams, hhash]
  have hid : a.id = client.id := haid.trans (hle.clientId.symm.trans howner)
  exact (h.not_identified hi hnew hidentified).2 (haref.symm.trans (h.now ha hid))

/-- No refresh token of the client is exchanged at the token endpoint. -/
theorem not_refreshed (h : StaysDisabled P client c₀ c) (hi : c.calls[i]? = some call)
    (hnew : c₀.calls.length ≤ i) {form : TokenForm} {basicAuth : Option BasicAuth} {token : String}
    {b old : RefreshTokenRow} (hpresented : form.refreshToken = some token)
    (hb : b ∈ c.world.refreshTokens) (hhash : b.tokenHash = P.sha256Hex token)
    (howner : b.clientId = some client.id) {session : SessionRow} {response : TokenResponse} :
    ¬OAuthRefreshGrant P call.log form basicAuth row old session response := by
  intro hgrant
  have hreach := h.reachable.run h.run
  obtain ⟨ref, hidentified⟩ := hgrant.identified
  obtain ⟨_, htoken, hsaw⟩ := hgrant.rotation
  obtain rfl := Option.some.inj (htoken.symm.trans hpresented)
  obtain ⟨_, _, _, hmem, hans⟩ := answered hreach.valid hi hsaw
  obtain ⟨_, _, hold, _, _, rfl, hpost⟩ := Stmt.rotate_answer hans
  have hnow : World.Le _ c.world := (hreach.ordered (le_stable P)).post hi _ hmem
  have hrotated := hnow.refreshTokens.le_of_key (reachable_sound hreach).1.tokenHashes
    (fun h => h.tokenHash) hpost hb (hhash.trans hold.symm)
  refine (h.not_identified hi hnew hidentified).1 (Option.some.inj ?_)
  exact hgrant.bound.symm.trans (hrotated.clientId.symm.trans howner)

/-- **A token on a grant of the client comes from `/auth/refresh`.** -/
theorem refreshes (h : StaysDisabled P client c₀ c) (hi : c.calls[i]? = some call)
    (hnew : c₀.calls.length ≤ i) (hon : OnGrantOf P c client call.req.request)
    {response : Response} (hanswer : call.result = some (.ok response)) {access : Jws}
    (haccess : response.accessToken? = some access) : RefreshesGrantOf P client call := by
  have hreach := h.reachable.run h.run
  have hgrant := granted (hreach.valid.returned hi hanswer) haccess
  generalize hrequest : call.req.request = request at hgrant hon
  cases hon with
  | code hform hpresented hb hhash howner =>
      cases hgrant with
      | code _ grant => exact absurd grant (h.not_exchanged hi hnew hpresented hb hhash howner)
      | oauthRefresh hother | clientCredentials hother =>
          rw [hform] at hother
          cases hother
  | credentials hform hnamed =>
      cases hgrant with
      | clientCredentials _ grant =>
          obtain ⟨ref, hidentified⟩ := grant.identified
          refine absurd (Option.some.inj ?_) (h.not_identified hi hnew hidentified).2
          exact hidentified.named.symm.trans hnamed
      | code hother | oauthRefresh hother =>
          rw [hform] at hother
          cases hother
  | @refreshToken _ token b hpresented hb hhash howner =>
      cases hpresented with
      | oauth hform hpresented =>
          cases hgrant with
          | oauthRefresh _ grant =>
              exact absurd grant (h.not_refreshed hi hnew hpresented hb hhash howner)
          | code hother | clientCredentials hother =>
              rw [hform] at hother
              cases hother
      | refresh =>
          have hpresents : call.req.request.Presents token := by
            rw [hrequest]
            exact .refresh
          obtain ⟨e, he, old, hold, holdhash, hexchangeable⟩ :=
            presented_exchangeable hreach hi hpresents hanswer haccess
          have hord := hreach.ordered (le_stable P)
          have hle := (hord.answer hi e he).trans (hord.post hi e he)
          have hrow := hle.refreshTokens.le_of_key (reachable_sound hreach).1.tokenHashes
            (fun h => h.tokenHash) hold hb (hhash.trans holdhash.symm)
          exact ⟨token, hrequest, e, he, old, hold, holdhash, hrow.clientId.symm.trans howner,
            hexchangeable⟩

end StaysDisabled

/-- An introspection is answered as the client that it names. -/
theorem introspectsAs (hv : (machine P).Valid c) (hi : c.calls[i]? = some call) {token : WireToken}
    {basic : BasicAuth} (hrequest : call.req.request = .introspect token (some basic))
    (hnamed : basic.clientId = client.clientId) {response : Response}
    (hanswer : call.result = some (.ok response)) : IntrospectsAs P client call := by
  have hreturns := hv.returned hi hanswer
  have hhandler : (machine P).handler call.req =
      AuthServer.introspect P token (some basic) call.req.ctx := by
    change AuthServer.handler P call.req = _
    unfold AuthServer.handler
    rw [hrequest]
  rw [hhandler] at hreturns
  obtain ⟨row, hash, hsaw, hhash, hverifies⟩ := introspect_authenticated hreturns
  obtain ⟨n, pre, post, hmem, hans⟩ := answered hv hi hsaw
  exact ⟨token, basic, hrequest, hnamed, _, hmem, row, hash,
    (Stmt.findByClientId_answer hans).symm, hhash, hverifies⟩

/-- **A disabled client obtains nothing**, in any run in which no later call of
`/auth/refresh` presents a token of the client that can be exchanged and no later call of
`/oauth/introspect` a secret of the client that verifies: no later call is answered with a
code for the client, with a token on one of its grants, or as the client. -/
theorem disabled_client_obtains_nothing (h : StaysDisabled P client c₀ c)
    (hpaths : ∀ (i : ℕ) call, c.calls[i]? = some call → c₀.calls.length ≤ i →
      ¬RefreshesGrantOf P client call ∧ ¬IntrospectsAs P client call) :
    ∀ (i : ℕ) call, c.calls[i]? = some call → c₀.calls.length ≤ i → ¬Obtains P c client call := by
  rintro i call hi hnew (⟨hrequest, hnamed, hanswer⟩ | ⟨hon, hanswer, haccess⟩ |
    ⟨hrequest, hnamed, hanswer⟩)
  · exact h.not_authorized hi hnew hrequest hnamed hanswer
  · exact (hpaths i call hi hnew).1 (h.refreshes hi hnew hon hanswer haccess)
  · exact (hpaths i call hi hnew).2
      (introspectsAs (h.reachable.run h.run).valid hi hrequest hnamed hanswer)

/-! ### Two runs -/

/-- Client `cli_spa` is given tokens, and then disabled by an administrator. -/
def disableClientMoves : List (Move World Incoming Env) :=
  loginMoves 0 "al@x.io" "Al 1" ++ authorizeMoves 1 "api.read" none ++ exchangeMoves 2 ++
    loginMoves 3 "ro@x.io" "Ro 1" ++
    [.accept fun w => ⟨.setClientStatus (lastBearer w) (sampleUuid 9302) .disabled, {}⟩,
      .steps 4 40]

/-- The refresh token of the client, at its own endpoint. -/
def ownEndpointMoves : List (Move World Incoming Env) :=
  [.accept fun w => ⟨.token (sampleRefreshForm (rotatedToken w)) none, {}⟩, .steps 5 40]

/-- The refresh token of the client, at the other endpoint. -/
def plainEndpointMoves : List (Move World Incoming Env) :=
  [.accept fun w => ⟨.refresh (rotatedToken w), {}⟩, .steps 5 40]

/-- `UPDATE oauth_clients SET status = 'active'`. -/
def Stmt.enablesClient : Stmt → Bool
  | .clients (.setStatus _ .active) => true
  | _ => false

theorem staysDisabled_of_runs {ms : List (Move World Incoming Env)}
    (h₀ : sampleRun disableClientMoves = some c₀)
    (h : (machine .sample).play Stmt.sampleRandom ms c₀ = some c)
    (hclient : client ∈ c₀.world.clients) (hdisabled : client.status = .disabled)
    (hstays : ∀ call ∈ c.calls, ∀ e ∈ call.log, e.op.enablesClient = false) :
    StaysDisabled .sample client c₀ c where
  reachable := sampleRun_reachable h₀
  run := run_of_play h
  stored := hclient
  disabled := hdisabled
  stays i call hi e he _ hop := by
    have hnot := hstays call (List.mem_of_getElem? hi) e he
    rw [hop] at hnot
    cases hnot

theorem disabled_client_obtains_nothing_of_refresh :
    ∃ (c₀ c : ServerConfig) (client : OAuthClientRow) (call : ServerCall) (token : String),
      StaysDisabled .sample client c₀ c ∧ c.calls[5]? = some call ∧
      call.req.request = .token (sampleRefreshForm token) none ∧
      ¬Obtains .sample c client call := by
  have hplay : (sampleRun disableClientMoves).any (fun c₀ => decide (c₀.calls.length = 5) &&
      decide (∃ client ∈ c₀.world.clients, client.status = .disabled) &&
      ((machine .sample).play Stmt.sampleRandom ownEndpointMoves c₀).any fun c =>
        decide (c.calls.length = 6) &&
        decide (∀ call ∈ c.calls, ∀ e ∈ call.log, e.op.enablesClient = false) &&
        (c.calls[5]?).any fun call => decide (call.req.request =
          .token (sampleRefreshForm (rotatedToken c₀.world)) none)) = true := by
    decide +kernel
  obtain ⟨c₀, h₀, hall⟩ := (Option.any_eq_true _ _).1 hplay
  simp only [Bool.and_eq_true, decide_eq_true_eq, Option.any_eq_true] at hall
  obtain ⟨⟨hlen₀, client, hclient, hdisabled⟩, c, hc, ⟨hlen, hstays⟩, call, hi, hrequest⟩ := hall
  have hstays := staysDisabled_of_runs h₀ hc hclient hdisabled hstays
  refine ⟨c₀, c, client, call, rotatedToken c₀.world, hstays, hi, hrequest, ?_⟩
  refine disabled_client_obtains_nothing hstays (fun j call' hj hnew => ?_) 5 call hi hlen₀.le
  have hlast := (List.getElem?_eq_some_iff.1 hj).1
  obtain rfl : j = 5 := by omega
  obtain rfl : call = call' := Option.some.inj (hi.symm.trans hj)
  constructor
  · rintro ⟨_, hrefresh, _⟩
    rw [hrequest] at hrefresh
    cases hrefresh
  · rintro ⟨_, _, hintrospect, _⟩
    rw [hrequest] at hintrospect
    cases hintrospect

/-- **The token of a disabled client is exchanged.**  `/auth/refresh` does not look at the
client. -/
theorem disabled_client_refreshes :
    ∃ (c₀ c : ServerConfig) (client : OAuthClientRow) (call : ServerCall),
      sampleRun disableClientMoves = some c₀ ∧ StaysDisabled .sample client c₀ c ∧
      c₀.calls.length ≤ 5 ∧ c.calls[5]? = some call ∧ Obtains .sample c client call := by
  have hplay : (sampleRun disableClientMoves).any (fun c₀ => decide (c₀.calls.length ≤ 5) &&
      ((machine .sample).play Stmt.sampleRandom plainEndpointMoves c₀).any fun c =>
        decide (∀ call ∈ c.calls, ∀ e ∈ call.log, e.op.enablesClient = false) &&
        (c.returned 5).any fun response => response.accessToken?.isSome &&
        (c.calls[5]?).any fun call => (refreshPresented? call).any fun token =>
          decide (∃ client ∈ c₀.world.clients, client.status = .disabled ∧
            ∃ row ∈ c.world.refreshTokens, row.tokenHash = Platform.sample.sha256Hex token ∧
              row.clientId = some client.id)) = true := by
    decide +kernel
  obtain ⟨c₀, h₀, hall⟩ := (Option.any_eq_true _ _).1 hplay
  simp only [Bool.and_eq_true, decide_eq_true_eq, Option.any_eq_true, Option.isSome_iff_exists]
    at hall
  obtain ⟨hlen, c, hc, hstays, response, hresponse, ⟨access, haccess⟩, call, hi, token, htoken,
    client, hclient, hdisabled, row, hrow, hhash, howner⟩ := hall
  obtain ⟨call', hi', hresult⟩ := Config.returned_eq_some hresponse
  obtain rfl : call = call' := Option.some.inj (hi.symm.trans hi')
  have hrequest := refreshPresented?_eq_some htoken
  refine ⟨c₀, c, client, call, h₀, staysDisabled_of_runs h₀ hc hclient hdisabled hstays, hlen, hi,
    .token (.refreshToken ?_ hrow hhash howner) hresult haccess⟩
  rw [hrequest]
  exact .refresh

end IdentityPlatform
