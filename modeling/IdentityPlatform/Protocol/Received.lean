/-
# What a call receives

The answer of a call, read back in the run: the statements in its log were
executed in states of the run, the access token in its answer carries what it was
signed for, and whoever receives tokens of a user has had a refresh token of that
user stored.
-/

import IdentityPlatform.Protocol.Answers
import IdentityPlatform.Protocol.Grants

namespace IdentityPlatform

open Interleaving Program Relational Machine AuthServer

variable {P : Platform} {c₀ c : ServerConfig} {i : ℕ} {call : ServerCall}

/-- What a call accepted after `c₀` is answered, it reads in a sound state after
`c₀`. -/
theorem later_answer (h₀ : (machine P).Reachable World.Initial c₀) (hrun : (machine P).Run c₀ c)
    (hi : c.calls[i]? = some call) (hnew : c₀.calls.length ≤ i) {s : Stmt} {a : s.Ans}
    (hsaw : Log.Saw call.log s (.ok a)) :
    ∃ pre post, c₀.world.Le pre ∧ pre.Sound ∧ s.Answered P a pre post := by
  have hreach := h₀.run hrun
  obtain ⟨n, pre, post, hmem, hans⟩ := answered hreach.valid hi hsaw
  have hseq := (hrun.startSeq_of_new hi hnew).trans (hreach.valid.start_lt hi _ hmem).le
  exact ⟨pre, post, ((le_stable P).since hrun h₀.valid).pre hi _ hmem hseq,
    ((reachable_sound hreach).2 i call hi _ hmem).1, hans⟩

/-- The claims of a signed access token. -/
theorem JwtService.Signed.payload {input : AccessTokenInput} {token : Jws}
    (h : JwtService.Signed P call.log input token) (hv : (machine P).Valid c)
    (hi : c.calls[i]? = some call) :
    ∃ jti now, token.payload =
      JwtService.accessTokenPayload P input jti now P.config.accessTokenTtl := by
  obtain ⟨kid, jti, now, _, hsign⟩ := h
  obtain ⟨_, _, _, _, hans⟩ := answered hv hi hsign
  exact ⟨jti, now, by rw [(Stmt.sign_answer hans).1]⟩

/-- The session of an access token is the one it was signed for. -/
theorem JwtService.Signed.sid {input : AccessTokenInput} {token : Jws} {sid : String}
    (h : JwtService.Signed P call.log input token) (hv : (machine P).Valid c)
    (hi : c.calls[i]? = some call) (hsid : token.payload.sid = some sid) :
    input.sid = some sid := by
  obtain ⟨jti, now, hp⟩ := h.payload hv hi
  rw [hp] at hsid
  exact (Option.filter_eq_some_iff.1 hsid).1

/-- The subject of an access token is the one it was signed for. -/
theorem JwtService.Signed.sub {input : AccessTokenInput} {token : Jws}
    (h : JwtService.Signed P call.log input token) (hv : (machine P).Valid c)
    (hi : c.calls[i]? = some call) : token.payload.sub = input.sub := by
  obtain ⟨jti, now, hp⟩ := h.payload hv hi
  rw [hp]
  rfl

/-- The scopes a guard finds in an access token. -/
def scopesOf (token : Jws) : List String := words (token.payload.scope.getD "")

/-- A request of a client for a token of its own. -/
def Request.isForClient : Request → Bool
  | .token form _ => form.grantType = .clientCredentials
  | _ => false

/-- The call has been answered with tokens of the user. -/
structure ReceivesTokens (u : String) (call : ServerCall) : Prop where
  notForClient : call.req.request.isForClient = false
  answer : ∃ response token, call.result = some (.ok response) ∧
    response.accessToken? = some token ∧ token.payload.sub = u

/-- The subject of the access token a call has been answered with. -/
def receivedSubject (call : ServerCall) : Option String :=
  match call.result with
  | some (.ok response) => response.accessToken?.map fun token => token.payload.sub
  | _ => none

theorem receivesTokens_iff {u : String} : ReceivesTokens u call ↔
    call.req.request.isForClient = false ∧ receivedSubject call = some u := by
  constructor
  · rintro ⟨hclient, response, token, hresult, htoken, rfl⟩
    refine ⟨hclient, ?_⟩
    rw [receivedSubject, hresult]
    simp [htoken]
  · rintro ⟨hclient, hsubject⟩
    unfold receivedSubject at hsubject
    split at hsubject
    · rename_i response hresult
      obtain ⟨token, htoken, hsub⟩ := Option.map_eq_some_iff.1 hsubject
      exact ⟨hclient, response, token, hresult, htoken, hsub⟩
    · cases hsubject

/-- A token request and the tokens it has been answered with. -/
def tokenAnswer? (call : ServerCall) : Option (TokenForm × Option BasicAuth × TokenResponse) :=
  match call.req.request, call.result with
  | .token form basicAuth, some (.ok (.tokens response)) => some (form, basicAuth, response)
  | _, _ => none

theorem tokenAnswer?_eq_some {form : TokenForm} {basicAuth : Option BasicAuth}
    {response : TokenResponse} (h : tokenAnswer? call = some (form, basicAuth, response)) :
    call.req.request = .token form basicAuth ∧ call.result = some (.ok (.tokens response)) := by
  unfold tokenAnswer? at h
  split at h
  · rename_i hrequest hresult
    obtain ⟨rfl, rfl, rfl⟩ := h
    exact ⟨hrequest, hresult⟩
  · cases h

/-- A refresh at `/auth/refresh` and the tokens it has been answered with. -/
def refreshAnswer? (call : ServerCall) : Option (String × LoginResultSuccess) :=
  match call.req.request, call.result with
  | .refresh refreshToken, some (.ok (.session result)) => some (refreshToken, result)
  | _, _ => none

theorem refreshAnswer?_eq_some {refreshToken : String} {result : LoginResultSuccess}
    (h : refreshAnswer? call = some (refreshToken, result)) :
    call.req.request = .refresh refreshToken ∧ call.result = some (.ok (.session result)) := by
  unfold refreshAnswer? at h
  split at h
  · rename_i hrequest hresult
    obtain ⟨rfl, rfl⟩ := h
    exact ⟨hrequest, hresult⟩
  · cases h

instance (u : String) : DecidablePred (ReceivesTokens u) :=
  fun _ => decidable_of_iff _ receivesTokens_iff.symm

/-- **Who receives tokens of a user has had a refresh token of the user stored.** -/
theorem ReceivesTokens.stored {u : String} (h : ReceivesTokens u call) (hv : (machine P).Valid c)
    (hi : c.calls[i]? = some call) : ∃ data : IssueRefreshData, data.userId = u ∧
      Log.Saw call.log (.refreshTokens (.insert data)) (.ok ()) := by
  obtain ⟨hclient, response, token, hresult, htoken, rfl⟩ := h
  have hgrant := granted (hv.returned hi hresult) htoken
  generalize call.req.request = request at hgrant hclient
  revert htoken
  cases hgrant with
  | login grant | challenge grant =>
      rintro ⟨⟩
      obtain ⟨_, _, _, hsigned⟩ := grant.tokens.access
      obtain ⟨_, hinsert⟩ := grant.tokens.refresh
      exact ⟨_, (hsigned.sub hv hi).symm, hinsert⟩
  | refresh grant =>
      rintro ⟨⟩
      obtain ⟨_, _, _, _, hsigned⟩ := grant.access
      exact ⟨_, (hsigned.sub hv hi).symm, grant.refresh⟩
  | code _ grant =>
      rintro ⟨⟩
      obtain ⟨_, _, _, hsigned⟩ := grant.tokens.access
      obtain ⟨_, _, _, hinsert⟩ := grant.tokens.refresh
      exact ⟨_, (hsigned.sub hv hi).symm, hinsert⟩
  | oauthRefresh _ grant =>
      rintro ⟨⟩
      obtain ⟨_, _, _, _, _, hsigned⟩ := grant.access
      obtain ⟨_, _, hinsert⟩ := grant.refresh
      exact ⟨_, (hsigned.sub hv hi).symm, hinsert⟩
  | clientCredentials hform _ => simp [Request.isForClient, hform] at hclient

/-- The stored row is still there. -/
theorem ReceivesTokens.row {u : String} (h : ReceivesTokens u call)
    (hreach : (machine P).Reachable World.Initial c) (hi : c.calls[i]? = some call) :
    ∃ row ∈ c.world.refreshTokens, row.userId = u := by
  obtain ⟨data, huser, hsaw⟩ := h.stored hreach.valid hi
  obtain ⟨n, pre, post, hmem, hans⟩ := answered hreach.valid hi hsaw
  obtain ⟨r, _, hnew, _⟩ := Stmt.insertRefreshToken_answer hans
  have hle : post.Le c.world := (hreach.ordered (le_stable P)).post hi _ hmem
  obtain ⟨row, hrow, hrowle⟩ := hle.refreshTokens _ hnew
  exact ⟨row, hrow, hrowle.userId.trans huser⟩

/-! ### Rows of the log in the state now -/

/-- The row an insertion has stored is found again by its hash. -/
theorem stored_row (hreach : (machine P).Reachable World.Initial c) (hi : c.calls[i]? = some call)
    {data : IssueRefreshData} (hsaw : Log.Saw call.log (.refreshTokens (.insert data)) (.ok ()))
    {next : RefreshTokenRow} (hnext : next ∈ c.world.refreshTokens)
    (hhash : next.tokenHash = data.tokenHash) : ∃ r pre, (data.row r pre).Le next := by
  obtain ⟨n, pre, post, hmem, hans⟩ := answered hreach.valid hi hsaw
  obtain ⟨r, _, hnew, _⟩ := Stmt.insertRefreshToken_answer hans
  have hle : post.Le c.world := (hreach.ordered (le_stable P)).post hi _ hmem
  refine ⟨r, pre, ?_⟩
  exact hle.refreshTokens.le_of_key (reachable_sound hreach).1.tokenHashes (fun h => h.tokenHash)
    hnew hnext hhash

/-- The row a rotation has returned is still there. -/
theorem rotated_stored (hreach : (machine P).Reachable World.Initial c)
    (hi : c.calls[i]? = some call) {hash : String} {old : RefreshTokenRow}
    (hsaw : Log.Saw call.log (.refreshTokens (.rotate hash)) (.ok (some old))) :
    ∃ row ∈ c.world.refreshTokens, old.Le row := by
  obtain ⟨n, pre, post, hmem, hans⟩ := answered hreach.valid hi hsaw
  obtain ⟨_, _, _, _, _, _, hpost⟩ := Stmt.rotate_answer hans
  exact ((hreach.ordered (le_stable P)).post hi _ hmem).refreshTokens old hpost

/-- The row a rotation has returned is found again by its identifier. -/
theorem rotated_row (hreach : (machine P).Reachable World.Initial c) (hi : c.calls[i]? = some call)
    {hash : String} {old row : RefreshTokenRow}
    (hsaw : Log.Saw call.log (.refreshTokens (.rotate hash)) (.ok (some old)))
    (hrow : row ∈ c.world.refreshTokens) (hid : row.id = old.id) : old.Le row := by
  obtain ⟨n, pre, post, hmem, hans⟩ := answered hreach.valid hi hsaw
  obtain ⟨_, _, _, _, _, _, hpost⟩ := Stmt.rotate_answer hans
  have hle : post.Le c.world := (hreach.ordered (le_stable P)).post hi _ hmem
  exact hle.refreshTokens.le_of_key (reachable_sound hreach).1.refreshTokens.nodup (fun h => h.id)
    hpost hrow hid

/-! ### Where rows come from -/

section Introduced

variable {α : Type} {T : World → List α} {k : α → String}
  {new : Stmt → String → World → World → α → Prop} {old : Stmt → World → α → α → Prop}

/-- **Every row has been inserted**: in a table that starts empty and whose updates
keep `k`, a statement of some call has made the row. -/
theorem introduced_row (hinit : ∀ w, World.Initial w → T w = [])
    (henv : ∀ e w w', Env.apply w e = some w' → T w' = T w)
    (hledger : ∀ w ledger, T { w with generated := ledger } = T w)
    (hchanges : ∀ {s : Stmt} {r pre ans post}, s.exec P r pre = some (ans, post) →
      Changes (new s r pre post) (old s pre) (T pre) (T post))
    (hkey : ∀ {s pre a b}, old s pre a b → k b = k a)
    (hreach : (machine P).Reachable World.Initial c) {b : α} (hb : b ∈ T c.world) :
    ∃ (j : ℕ) (issuer : ServerCall) (n : ℕ) (pre post : World) (s : Stmt) (ans : s.Ans) (r : String)
      (a : α), c.calls[j]? = some issuer ∧ (⟨n, pre, s, .ok ans, post⟩ : ServerEvent) ∈ issuer.log ∧
        new s r pre post a ∧ a ∈ T post ∧ k b = k a := by
  obtain ⟨w₀, h₀, hrun⟩ := id hreach
  obtain ⟨j, issuer, e, hj, he, _, hpre, hpost⟩ := hrun.introduced
    (H := fun w => ∃ r ∈ T w, k r = k b) (by simp [Config.initial, hinit w₀ h₀])
    ⟨b, hb, rfl⟩ (fun e w w' hw h => henv e w w' hw ▸ h)
  obtain ⟨a, ha, hak⟩ := hpost
  obtain ⟨n, pre, s, ans, post⟩ := e
  rcases hreach.valid.answers hj _ he with ⟨r, hexec⟩ | ⟨_, hsame⟩
  swap
  · obtain rfl : post = pre := hsame
    exact absurd ⟨a, ha, hak⟩ hpre
  cases ans with
  | error err =>
      -- a failed statement has not made it
      obtain ⟨⟨ledger, hfailed⟩, _⟩ := Stmt.exec_failed hexec
      obtain rfl : post = { pre with generated := ledger } := hfailed
      exact absurd ⟨a, hledger pre ledger ▸ ha, hak⟩ hpre
  | ok ans =>
      rcases (hchanges hexec).mem_cases ha with ⟨a', ha', rfl | hold⟩ | hnew
      · exact absurd ⟨_, ha', hak⟩ hpre
      · exact absurd ⟨a', ha', (hkey hold).symm.trans hak⟩ hpre
      · exact ⟨j, issuer, n, pre, post, s, ans, r, a, hj, he, hnew, ha, hak.symm⟩

end Introduced

/-- The insert of a code: the statement of the call that has stored it, and the client it was
stored for. -/
structure CodeInsert (c : ServerConfig) (b : AuthorizationCodeRow) where
  place : ℕ
  issuer : ServerCall
  seq : ℕ
  pre : World
  post : World
  hash : String
  data : IssueCodeData
  id : String
  client : OAuthClientRow
  call : c.calls[place]? = some issuer
  event : (⟨seq, pre, .codes (.insert hash data), .ok (), post⟩ : ServerEvent) ∈ issuer.log
  found : pre.client data.clientId = some client
  row : (data.row id pre hash client).Le b

/-- Every code has been inserted. -/
theorem code_inserted (hreach : (machine P).Reachable World.Initial c) {b : AuthorizationCodeRow}
    (hb : b ∈ c.world.codes) : Nonempty (CodeInsert c b) := by
  obtain ⟨j, issuer, n, pre, post, s, ans, r, a, hj, he, hnew, ha, hkey⟩ :=
    introduced_row (T := World.codes) (fun _ h => h.codes)
      (fun _ _ _ h => (Env.apply_rows h).2.2.2) (fun _ _ => rfl) Stmt.exec_codes
      (k := AuthorizationCodeRow.codeHash) (fun h => by obtain ⟨_, _, _, rfl⟩ := h; rfl) hreach hb
  obtain ⟨hash, data, client, rfl, hclient, rfl, _⟩ := hnew
  have hle : post.Le c.world := (hreach.ordered (le_stable P)).post hj _ he
  have hrow : (data.row r pre hash client).Le b :=
    hle.codes.le_of_key (reachable_sound hreach).1.codeHashes (fun h => h.codeHash) ha hb hkey
  exact ⟨{ call := hj, event := he, found := hclient, row := hrow, .. }⟩

/-- Every refresh token has been inserted. -/
theorem refreshToken_inserted (hreach : (machine P).Reachable World.Initial c)
    {b : RefreshTokenRow} (hb : b ∈ c.world.refreshTokens) :
    ∃ (j : ℕ) (issuer : ServerCall) (n : ℕ) (pre post : World) (data : IssueRefreshData)
      (r : String),
      c.calls[j]? = some issuer ∧
      (⟨n, pre, .refreshTokens (.insert data), .ok (), post⟩ : ServerEvent) ∈ issuer.log ∧
      data.row r pre ∈ post.refreshTokens ∧ (data.row r pre).Le b := by
  obtain ⟨j, issuer, n, pre, post, s, ans, r, a, hj, he, hnew, ha, hkey⟩ :=
    introduced_row (T := World.refreshTokens) (fun _ h => h.refreshTokens)
      (fun _ _ _ h => (Env.apply_rows h).2.2.1) (fun _ _ => rfl) Stmt.exec_refreshTokens
      (k := RefreshTokenRow.tokenHash)
      (fun h => by obtain ⟨_, _, hw, rfl⟩ := h; exact (RefreshStmt.change_le hw).tokenHash)
      hreach hb
  obtain ⟨data, rfl, rfl, _⟩ := hnew
  have hle : post.Le c.world := (hreach.ordered (le_stable P)).post hj _ he
  exact ⟨j, issuer, n, pre, post, data, r, hj, he, ha,
    hle.refreshTokens.le_of_key (reachable_sound hreach).1.tokenHashes (fun h => h.tokenHash) ha hb
      hkey⟩

/-- The session of a refresh token is there. -/
theorem session_referenced (hreach : (machine P).Reachable World.Initial c) {b : RefreshTokenRow}
    (hb : b ∈ c.world.refreshTokens) : c.world.hasSession b.sessionId := by
  obtain ⟨j, issuer, n, pre, post, data, r, hj, he, _, hle⟩ := refreshToken_inserted hreach hb
  obtain ⟨s, hs, hid⟩ := (Stmt.insertRefreshToken_references (executed hreach.valid hj he)).1
  have hord := hreach.ordered (le_stable P)
  have hnow : pre.Le c.world := (hord.answer hj _ he).trans (hord.post hj _ he)
  obtain ⟨s', hs', hrow⟩ := hnow.sessions s hs
  exact ⟨s', hs', hrow.id.trans (hid.trans hle.sessionId.symm)⟩

end IdentityPlatform
