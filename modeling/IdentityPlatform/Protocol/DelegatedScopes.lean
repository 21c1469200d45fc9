/-
# Delegated tokens at the authorization endpoint

The token of a client is accepted at the authorization endpoint like one of a login: the
endpoint looks at its subject alone, while the token endpoint compares the scopes of a
refresh with those of the original grant.  So a token begets tokens within its scope
exactly if the authorization asks for no more.
-/

import IdentityPlatform.Protocol.ClientScopes

namespace IdentityPlatform

open Interleaving Program Relational Machine AuthServer

variable {P : Platform} {c : ServerConfig} {i j : ℕ} {call call' : ServerCall} {code : String}
  {token bearer ancestor : Jws} {input : AuthorizeInput}

/-- The token endpoint has issued the token, with the scope. -/
structure FromTokenEndpoint (c : ServerConfig) (token : Jws) (scope : String) : Prop where
  scope : token.payload.scope = some scope
  issued : ∃ (i : ℕ) (call : ServerCall) (form : TokenForm) (basicAuth : Option BasicAuth),
    c.calls[i]? = some call ∧ call.req.request = .token form basicAuth ∧ Signs call token

/-- The code was issued on the authority of the token `bearer`, at the request `input`. -/
structure AuthorizedWith (P : Platform) (c : ServerConfig) (bearer : Jws) (input : AuthorizeInput)
    (code : String) : Prop where
  issued : ∃ (j : ℕ) (issuer : ServerCall) (state : Option String) (userId : String),
    c.calls[j]? = some issuer ∧ issuer.req.request = .authorize (some (.jws bearer)) input state ∧
    Issues P issuer code input userId

/-- A token of the token endpoint has been used to authorize a code, and the other one
was issued on the grant of that code. -/
structure Begets (P : Platform) (c : ServerConfig) (bearer token : Jws) : Prop where
  delegated : ∃ scope, FromTokenEndpoint c bearer scope
  authorized : ∃ input code, AuthorizedWith P c bearer input code ∧ OnCode P c code token

/-- The row of an authorized code has the scope of the request. -/
theorem AuthorizedWith.row (hreach : (machine P).Reachable World.Initial c)
    (h : AuthorizedWith P c bearer input code) :
    ∃ b ∈ c.world.codes, b.codeHash = P.sha256Hex code ∧ b.scope = input.scope := by
  obtain ⟨j, issuer, _, userId, hj, _, hissues⟩ := h.issued
  obtain ⟨n, pre, post, hmem, hans⟩ := answered hreach.valid hj hissues.stored
  obtain ⟨r, client, _, hnew⟩ := Stmt.insertCode_answer hans
  have hle : post.Le c.world := (hreach.ordered (le_stable P)).post hj _ hmem
  obtain ⟨b, hb, hrow⟩ := hle.codes _ hnew
  exact ⟨b, hb, hrow.codeHash, hrow.scope⟩

/-- The scopes of a code, and of what is issued on it, are within `list`. -/
structure CodeWithin (P : Platform) (c : ServerConfig) (code : String) (list : List String) :
    Prop where
  row : ∀ b ∈ c.world.codes, b.codeHash = P.sha256Hex code → ScopeWithin b.scope list
  tokens : ∀ token scope, OnCode P c code token → token.payload.scope = some scope →
    ScopeWithin scope list

/-- **What a code is good for is what was asked for.** -/
theorem AuthorizedWith.within_iff (hreach : (machine P).Reachable World.Initial c)
    (h : AuthorizedWith P c bearer input code) (list : List String) :
    CodeWithin P c code list ↔ ScopeWithin input.scope list := by
  obtain ⟨b, hb, hhash, hscope⟩ := h.row hreach
  have hrow : ∀ b' ∈ c.world.codes, b'.codeHash = P.sha256Hex code → b'.scope = input.scope := by
    intro b' hb' hhash'
    obtain rfl := eq_of_key (reachable_sound hreach).1.codeHashes hb' hb (hhash'.trans hhash.symm)
    exact hscope
  constructor
  · intro hwithin
    exact hscope ▸ hwithin.row b hb hhash
  · intro hwithin
    refine ⟨fun b' hb' hhash' => hrow b' hb' hhash' ▸ hwithin, fun token scope hon htoken => ?_⟩
    obtain ⟨b', hb', hhash', hsub⟩ := hon.within hreach htoken
    exact fun s hs => hwithin s (hrow b' hb' hhash' ▸ hsub s hs)

/-- A run in which no authorization asks for more than its delegated bearer has. -/
def NoWidening (P : Platform) (c : ServerConfig) : Prop :=
  ∀ bearer scope input code, FromTokenEndpoint c bearer scope →
    AuthorizedWith P c bearer input code → ScopeWithin input.scope (words scope)

/-- One link of a chain of delegation. -/
theorem Begets.within (hreach : (machine P).Reachable World.Initial c) (hno : NoWidening P c)
    (h : Begets P c bearer token) {scope scope' : String}
    (hbearer : bearer.payload.scope = some scope)
    (htoken : token.payload.scope = some scope') : ScopeWithin scope' (words scope) := by
  obtain ⟨scope₁, hdelegated⟩ := h.delegated
  obtain ⟨input, code, hauthorized, hon⟩ := h.authorized
  obtain rfl : scope = scope₁ := Option.some.inj (hbearer.symm.trans hdelegated.scope)
  have hasked := hno bearer scope input code hdelegated hauthorized
  exact ((hauthorized.within_iff hreach _).2 hasked).tokens token scope' hon htoken

/-- **Delegation does not widen exactly if no authorization asks for more.**  A code that
is authorized with a token of the token endpoint, and every token on its grant, stays
within the scope of that token if and only if the authorization asks for scopes within
it.  Where this is so for every authorization of a run, no chain of delegation leaves the
scope it starts from. -/
theorem authorized_scope_iff (hreach : (machine P).Reachable World.Initial c) :
    (∀ bearer scope input code, FromTokenEndpoint c bearer scope →
      AuthorizedWith P c bearer input code →
      (CodeWithin P c code (words scope) ↔ ScopeWithin input.scope (words scope))) ∧
      (NoWidening P c → ∀ bearer token scope scope', Relation.TransGen (Begets P c) bearer token →
        bearer.payload.scope = some scope → token.payload.scope = some scope' →
        ScopeWithin scope' (words scope)) := by
  refine ⟨fun bearer scope input code _ h => h.within_iff hreach _, ?_⟩
  intro hno bearer token scope scope' hchain hbearer htoken
  induction hchain generalizing scope' with
  | single hlink => exact hlink.within hreach hno hbearer htoken
  | @tail middle token _ hlink ih =>
      obtain ⟨scope₁, hdelegated⟩ := hlink.delegated
      have hmiddle := ih scope₁ hdelegated.scope
      exact fun s hs => hmiddle s (hlink.within hreach hno hdelegated.scope htoken s hs)

/-- The token that the event signs. -/
def signedToken : ServerEvent → Option Jws
  | ⟨_, _, .kms (.sign _ _), .ok token, _⟩ => some token
  | _ => none

theorem signs_of_mem (h : token ∈ call.log.filterMap signedToken) : Signs call token := by
  obtain ⟨e, he, hsigned⟩ := List.mem_filterMap.1 h
  unfold signedToken at hsigned
  split at hsigned
  · obtain rfl := Option.some.inj hsigned
    exact ⟨_, _, _, _, _, he⟩
  · cases hsigned

/-- A request of the token endpoint. -/
def Request.isForToken : Request → Bool
  | .token _ _ => true
  | _ => false

theorem Request.isForToken_eq_true {request : Request} (h : request.isForToken = true) :
    ∃ form basicAuth, request = .token form basicAuth := by
  cases request with
  | token form basicAuth => exact ⟨form, basicAuth, rfl⟩
  | _ => cases h

/-- The bearer of an authorization request and what it asks for. -/
def authorizationOf (call : ServerCall) : Option (Jws × AuthorizeInput) :=
  match call.req.request with
  | .authorize (some (.jws bearer)) input _ => some (bearer, input)
  | _ => none

/-- `cli_spa` gets a token for the first scope and authorizes the second with it. -/
def delegatedMoves (first second : String) : List (Move World Incoming Env) :=
  loginMoves 0 "al@x.io" "Al 1" ++ authorizeMoves 1 first none ++ exchangeMoves 2 ++
    authorizeMoves 3 second (some "n")

/-- There is a code with the nonce `n`, and whatever is authorized with this nonce is the
second scope with a token that call 2 has signed for the first one. -/
def delegates (first second : String) (c : ServerConfig) : Bool :=
  decide (∃ b ∈ c.world.codes, b.nonce = some "n") &&
    (c.calls[2]?).any fun exchange => decide (exchange.req.request.isForToken = true) &&
      c.calls.all fun call => (authorizationOf call).all fun x => decide (x.2.nonce = some "n" →
        x.1 ∈ exchange.log.filterMap signedToken ∧ x.1.payload.scope = some first ∧
        x.2.scope = second)

theorem authorizedWith_of_delegates {first second : String}
    (hreach : (machine P).Reachable World.Initial c) (h : delegates first second c = true) :
    ∃ bearer input code, FromTokenEndpoint c bearer first ∧ AuthorizedWith P c bearer input code ∧
      input.scope = second := by
  obtain ⟨hcode, hcalls⟩ := Bool.and_eq_true_iff.1 h
  obtain ⟨exchange, hexchange, hrest⟩ := (Option.any_eq_true _ _).1 hcalls
  obtain ⟨htoken, hall⟩ := Bool.and_eq_true_iff.1 hrest
  obtain ⟨b, hb, hnonce⟩ := of_decide_eq_true hcode
  obtain ⟨issue⟩ := code_issued hreach hb
  obtain ⟨bearer, state, payload, hrequest, _⟩ := issue.issues.request
  have hof : authorizationOf issue.issuer = some (bearer, issue.input) := by
    simp only [authorizationOf, hrequest]
  have hissuer := List.all_eq_true.1 hall issue.issuer (List.mem_of_getElem? issue.call)
  rw [hof] at hissuer
  obtain ⟨hsigned, hfirst, hsecond⟩ :=
    of_decide_eq_true hissuer (issue.row.nonce.symm.trans hnonce)
  obtain ⟨form, basicAuth, hform⟩ := Request.isForToken_eq_true (of_decide_eq_true htoken)
  exact ⟨bearer, issue.input, issue.code, ⟨hfirst, 2, exchange, form, basicAuth, hexchange, hform,
    signs_of_mem hsigned⟩, ⟨issue.place, issue.issuer, state, issue.userId, issue.call, hrequest,
    issue.issues⟩, hsecond⟩

theorem authorized_scope_iff_of_same_scope :
    ∃ (c : ServerConfig) (bearer : Jws) (input : AuthorizeInput) (code : String),
      sampleRun (delegatedMoves "api.read" "api.read") = some c ∧
      FromTokenEndpoint c bearer "api.read" ∧ AuthorizedWith .sample c bearer input code ∧
      CodeWithin .sample c code (words "api.read") := by
  have hplay : (sampleRun (delegatedMoves "api.read" "api.read")).any
      (delegates "api.read" "api.read") = true := by
    decide +kernel
  obtain ⟨c, hc, hall⟩ := (Option.any_eq_true _ _).1 hplay
  have hreach := sampleRun_reachable hc
  obtain ⟨bearer, input, code, hfrom, hauthorized, hasked⟩ :=
    authorizedWith_of_delegates hreach hall
  have hiff := (authorized_scope_iff hreach).1 bearer "api.read" input code hfrom hauthorized
  exact ⟨c, bearer, input, code, hc, hfrom, hauthorized, hiff.2 fun s hs => hasked ▸ hs⟩

/-- **A client widens its own token.**  With a token for `api.read`, `cli_spa` gets a code
for `openid`. -/
theorem delegated_token_widens :
    ∃ (c : ServerConfig) (bearer : Jws) (input : AuthorizeInput) (code : String),
      sampleRun (delegatedMoves "api.read" "openid") = some c ∧
      FromTokenEndpoint c bearer "api.read" ∧ AuthorizedWith .sample c bearer input code ∧
      ¬CodeWithin .sample c code (words "api.read") := by
  have hplay : (sampleRun (delegatedMoves "api.read" "openid")).any
      (delegates "api.read" "openid") = true := by
    decide +kernel
  obtain ⟨c, hc, hall⟩ := (Option.any_eq_true _ _).1 hplay
  have hreach := sampleRun_reachable hc
  obtain ⟨bearer, input, code, hfrom, hauthorized, hasked⟩ :=
    authorizedWith_of_delegates hreach hall
  refine ⟨c, bearer, input, code, hc, hfrom, hauthorized, fun hwithin => ?_⟩
  have hscope : ScopeWithin "openid" (words "api.read") :=
    hasked ▸ (hauthorized.within_iff hreach _).1 hwithin
  have hout : ¬∀ s ∈ words "openid", s ∈ words "api.read" := by decide
  exact hout hscope

end IdentityPlatform
