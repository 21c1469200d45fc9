/-
# Refresh tokens of clients

A refresh token of a client is rotated by two endpoints.  The token endpoint
identifies and authenticates the client and compares it with the row; the
endpoint of the sessions, `/auth/refresh`, looks at the token alone.
-/

import IdentityPlatform.Protocol.Received

namespace IdentityPlatform

open Interleaving Program Relational Machine AuthServer

variable {P : Platform} {c : ServerConfig} {i : ℕ} {call : ServerCall}

/-- The call has been answered with tokens issued from `row`: its new refresh
token is stored as the successor of `row`. -/
structure IssuedFrom (P : Platform) (c : ServerConfig) (call : ServerCall) (row : RefreshTokenRow) :
    Prop where
  stored : row ∈ c.world.refreshTokens
  answer : ∃ response token, call.result = some (.ok response) ∧
    response.refreshToken? = some token ∧ ∃ next ∈ c.world.refreshTokens,
      next.tokenHash = P.sha256Hex token ∧ next.previousTokenId = some row.id

/-- The request is one of the client `id`: it names the client, which was read
active, and authenticates it. -/
structure IsFromClient (P : Platform) (l : ServerLog) (request : Request) (id : String) : Prop where
  client : ∃ form basicAuth clientId client, request = .token form basicAuth ∧
    Identified l form basicAuth clientId client ∧ client.id = id ∧
    OAuthService.Authenticated P client (presentedSecret form basicAuth)

/-- A request of `/auth/refresh`. -/
def Request.isRefresh : Request → Bool
  | .refresh _ => true
  | _ => false

/-- Whoever has received a refresh token has received an access token. -/
theorem Response.accessToken_of_refreshToken {response : Response} {token : String}
    (h : response.refreshToken? = some token) : ∃ access, response.accessToken? = some access := by
  cases response with
  | session result => exact ⟨_, rfl⟩
  | tokens response => exact ⟨_, rfl⟩
  | _ => cases h

/-- **Which requests rotate a refresh token**: those for `/auth/refresh`, and those
of the client that the row belongs to. -/
theorem IssuedFrom.cases (hreach : (machine P).Reachable World.Initial c)
    (hi : c.calls[i]? = some call) {row : RefreshTokenRow} (h : IssuedFrom P c call row) :
    call.req.request.isRefresh = true ∨
      ∃ id, row.clientId = some id ∧ IsFromClient P call.log call.req.request id := by
  obtain ⟨hrow, response, token, hresult, htoken, next, hnext, hhash, hprevious⟩ := h
  obtain ⟨access, haccess⟩ := Response.accessToken_of_refreshToken htoken
  have hgrant := granted (hreach.valid.returned hi hresult) haccess
  -- a token that was stored without a predecessor is not the successor of `row`
  have hfirst : ∀ {params familyId}, params.previousTokenId = none →
      ¬Log.Saw call.log (.refreshTokens (.insert
        (RefreshTokenService.issueData P params token familyId))) (.ok ()) := by
    intro params familyId hnone hsaw
    obtain ⟨r, pre, hle⟩ := stored_row hreach hi hsaw hnext hhash
    have hsame : next.previousTokenId = params.previousTokenId := hle.previousTokenId
    rw [hprevious, hnone] at hsame
    cases hsame
  generalize hrequest : call.req.request = request at hgrant ⊢
  revert htoken
  cases hgrant with
  | login grant | challenge grant =>
      rintro ⟨⟩
      obtain ⟨_, hinsert⟩ := grant.tokens.refresh
      exact absurd hinsert (hfirst rfl)
  | refresh grant => exact fun _ => .inl rfl
  | code _ grant =>
      intro htoken
      obtain ⟨refreshToken, _, hrefresh, hinsert⟩ := grant.tokens.refresh
      obtain rfl : refreshToken = token := Option.some.inj (hrefresh.symm.trans htoken)
      exact absurd hinsert (hfirst rfl)
  | @oauthRefresh form basicAuth client old session response hform grant =>
      intro htoken
      obtain ⟨refreshToken, hrefresh, hinsert⟩ := grant.refresh
      obtain rfl : refreshToken = token := Option.some.inj (hrefresh.symm.trans htoken)
      obtain ⟨r, pre, hle⟩ := stored_row hreach hi hinsert hnext hhash
      have hid : some row.id = some old.id := hprevious.symm.trans hle.previousTokenId
      obtain ⟨_, _, hrotated⟩ := grant.rotation
      have hrowle := rotated_row hreach hi hrotated hrow (Option.some.inj hid)
      obtain ⟨clientId, hidentified⟩ := grant.identified
      exact .inr ⟨client.id, hrowle.clientId.trans grant.bound,
        ⟨form, basicAuth, clientId, client, rfl, hidentified, rfl, grant.authenticated⟩⟩
  | clientCredentials _ grant =>
      intro htoken
      rw [Response.refreshToken?, grant.noRefresh] at htoken
      cases htoken

/-- **When a client's token is only of use to the client.**  A call that is
answered with tokens issued from a row of the client `id` comes from that client,
active and authenticated, if and only if it is not a call of `/auth/refresh`. -/
theorem issued_from_client_row_iff (hreach : (machine P).Reachable World.Initial c)
    (hi : c.calls[i]? = some call) {row : RefreshTokenRow} (hissued : IssuedFrom P c call row)
    {id : String} (hclient : row.clientId = some id) :
    IsFromClient P call.log call.req.request id ↔ call.req.request.isRefresh = false := by
  constructor
  · rintro ⟨_, _, _, _, hrequest, _⟩
    rw [hrequest]
    rfl
  · intro hother
    obtain ⟨id', hid', hfrom⟩ := (hissued.cases hreach hi).resolve_left (by simp [hother])
    obtain rfl : id = id' := Option.some.inj (hclient.symm.trans hid')
    exact hfrom

/-- A code of `cli_spa` is exchanged, and its refresh token used at the token
endpoint. -/
def clientRefreshMoves : List (Move World Incoming Env) :=
  loginMoves 0 "al@x.io" "Al 1" ++ authorizeMoves 1 "api.read" none ++ exchangeMoves 2 ++
    [.accept fun w => ⟨.token (sampleRefreshForm (lastToken w)) none, {}⟩, .steps 3 40]

/-- The same token used at `/auth/refresh`. -/
def plainRefreshMoves : List (Move World Incoming Env) :=
  loginMoves 0 "al@x.io" "Al 1" ++ authorizeMoves 1 "api.read" none ++ exchangeMoves 2 ++
    [.accept fun w => ⟨.refresh (lastToken w), {}⟩, .steps 3 40]

/-- An answer whose refresh token succeeds one of the client `id`. -/
abbrev succeedsClientRow (c : ServerConfig) (id : String) (response : Response) : Prop :=
  ∃ row ∈ c.world.refreshTokens, row.clientId = some id ∧ ∃ next ∈ c.world.refreshTokens,
    response.refreshToken?.map Platform.sample.sha256Hex = some next.tokenHash ∧
      next.previousTokenId = some row.id

theorem issuedFrom_of_succeeds {id : String} {response : Response}
    (hresult : call.result = some (.ok response)) (h : succeedsClientRow c id response) :
    ∃ row, IssuedFrom .sample c call row ∧ row.clientId = some id := by
  obtain ⟨row, hrow, hclient, next, hnext, hhash, hprevious⟩ := h
  obtain ⟨token, htoken, heq⟩ := Option.map_eq_some_iff.1 hhash
  exact ⟨row, ⟨hrow, response, token, hresult, htoken, next, hnext, heq.symm, hprevious⟩, hclient⟩

theorem issued_from_client_row_iff_of_token_endpoint :
    ∃ (c : ServerConfig) (call : ServerCall) (row : RefreshTokenRow), c.calls[3]? = some call ∧
      IssuedFrom .sample c call row ∧ row.clientId = some (sampleUuid 9302) ∧
      IsFromClient .sample call.log call.req.request (sampleUuid 9302) := by
  have hplay : (sampleRun clientRefreshMoves).any (fun c =>
      ((c.calls[3]?).any fun call => decide (call.req.request.isRefresh = false)) &&
        (c.returned 3).any fun response =>
          decide (succeedsClientRow c (sampleUuid 9302) response)) = true := by
    decide +kernel
  obtain ⟨c, hc, hall⟩ := (Option.any_eq_true _ _).1 hplay
  simp only [Bool.and_eq_true, Option.any_eq_true, decide_eq_true_eq] at hall
  obtain ⟨⟨call, hi, hother⟩, response, hresponse, hsucceeds⟩ := hall
  obtain ⟨call', hi', hresult⟩ := Config.returned_eq_some hresponse
  obtain rfl : call = call' := Option.some.inj (hi.symm.trans hi')
  obtain ⟨row, hissued, hclient⟩ := issuedFrom_of_succeeds hresult hsucceeds
  have hiff := issued_from_client_row_iff (sampleRun_reachable hc) hi hissued hclient
  exact ⟨c, call, row, hi, hissued, hclient, hiff.2 hother⟩

/-- **A client's token is exchanged without the client.**  `/auth/refresh` answers
the refresh token of `cli_spa` with new tokens. -/
theorem client_row_issues_without_client :
    ∃ (c : ServerConfig) (call : ServerCall) (row : RefreshTokenRow),
      sampleRun plainRefreshMoves = some c ∧ c.calls[3]? = some call ∧
      IssuedFrom .sample c call row ∧ row.clientId = some (sampleUuid 9302) ∧
      ¬IsFromClient .sample call.log call.req.request (sampleUuid 9302) := by
  have hplay : (sampleRun plainRefreshMoves).any (fun c =>
      ((c.calls[3]?).any fun call => decide (call.req.request.isRefresh = true)) &&
        (c.returned 3).any fun response =>
          decide (succeedsClientRow c (sampleUuid 9302) response)) = true := by
    decide +kernel
  obtain ⟨c, hc, hall⟩ := (Option.any_eq_true _ _).1 hplay
  simp only [Bool.and_eq_true, Option.any_eq_true, decide_eq_true_eq] at hall
  obtain ⟨⟨call, hi, hrefresh⟩, response, hresponse, hsucceeds⟩ := hall
  obtain ⟨call', hi', hresult⟩ := Config.returned_eq_some hresponse
  obtain rfl : call = call' := Option.some.inj (hi.symm.trans hi')
  obtain ⟨row, hissued, hclient⟩ := issuedFrom_of_succeeds hresult hsucceeds
  refine ⟨c, call, row, hc, hi, hissued, hclient, ?_⟩
  rintro ⟨_, _, _, _, hrequest, _⟩
  rw [hrequest] at hrefresh
  cases hrefresh

end IdentityPlatform
