/-
# The scopes of a client's tokens

A scope travels as a text: with the authorization request, the row of the code, the
chain of refresh tokens and every access token.  It is compared with what the client
may have once, at the authorization, and from then on it is copied or narrowed.
-/

import IdentityPlatform.Protocol.CodeReplay
import IdentityPlatform.Protocol.SessionTokens
import IdentityPlatform.Protocol.ClientBinding

namespace IdentityPlatform

open Interleaving Program Relational Machine AuthServer

variable {P : Platform} {c : ServerConfig} {i j : ℕ} {call call' : ServerCall} {code : String}
  {token : Jws}

/-- A text has only scopes of the list. -/
def ScopeWithin (scope : String) (list : List String) : Prop := ∀ s ∈ words scope, s ∈ list

/-- `scope` is the text `original` itself, or a list of some of its words. -/
def NarrowedFrom (original scope : String) : Prop :=
  scope = original ∨ ∃ list, (∀ s ∈ list, s ∈ words original) ∧ scope = joinWords list

/-- **Narrowing** copies the text of the grant or lists words of it. -/
theorem narrowScope_narrowed {original scope : String} {requested : Option String}
    (h : OAuthService.narrowScope original requested = .ok scope) :
    NarrowedFrom original scope := by
  simp only [OAuthService.narrowScope] at h
  split_ifs at h with hexceeds hempty
  · exact .inl (Except.ok.inj h).symm
  · refine .inr ⟨_, fun s hs => ?_, (Except.ok.inj h).symm⟩
    by_contra hout
    exact hexceeds (List.any_eq_true.2 ⟨s, hs, by simpa using hout⟩)

/-- Only scopes of the original grant are left. -/
theorem NarrowedFrom.within {original scope : String} (h : NarrowedFrom original scope) :
    ScopeWithin scope (words original) := by
  rcases h with rfl | ⟨list, hlist, rfl⟩
  · exact fun s hs => hs
  · intro s hs
    rw [words_joinWords fun word hword => isWord_of_mem (hlist word hword)] at hs
    exact hlist s hs

theorem narrowScope_within {original scope : String} {requested : Option String}
    (h : OAuthService.narrowScope original requested = .ok scope) :
    ScopeWithin scope (words original) :=
  (narrowScope_narrowed h).within

/-- The call has signed the token. -/
def Signs (call : ServerCall) (token : Jws) : Prop :=
  ∃ n pre kid payload post,
    (⟨n, pre, .kms (.sign kid payload), .ok token, post⟩ : ServerEvent) ∈ call.log

/-- The token was issued on the grant of a code: in its exchange, or in an exchange of a
refresh token derived from it. -/
inductive OnCode (P : Platform) (c : ServerConfig) (code : String) (token : Jws) : Prop
  | exchange {i : ℕ} {call : ServerCall} {form basicAuth} (hi : c.calls[i]? = some call)
      (request : call.req.request = .token form basicAuth)
      (grant : form.grantType = .authorizationCode) (presented : form.code = some code)
      (signed : Signs call token)
  | refresh {i : ℕ} {call : ServerCall} {refreshToken row} (hi : c.calls[i]? = some call)
      (request : call.req.request = .refresh refreshToken) (derived : Derived c code row)
      (hash : row.tokenHash = P.sha256Hex refreshToken) (signed : Signs call token)
  | oauthRefresh {i : ℕ} {call : ServerCall} {form basicAuth refreshToken row}
      (hi : c.calls[i]? = some call) (request : call.req.request = .token form basicAuth)
      (grant : form.grantType = .refreshToken) (presented : form.refreshToken = some refreshToken)
      (derived : Derived c code row) (hash : row.tokenHash = P.sha256Hex refreshToken)
      (signed : Signs call token)

/-- The token was issued to the client `clientId` on its own credentials. -/
structure OnCredentials (c : ServerConfig) (clientId : String) (token : Jws) : Prop where
  issued : ∃ (i : ℕ) (call : ServerCall) (form : TokenForm) (basicAuth : Option BasicAuth),
    c.calls[i]? = some call ∧ call.req.request = .token form basicAuth ∧
    form.grantType = .clientCredentials ∧
    (basicAuth.map BasicAuth.clientId).or form.clientId = some clientId ∧ Signs call token

/-! ### The codes -/

/-- A client that was read has the same identifiers and scopes now. -/
theorem read_client (hreach : (machine P).Reachable World.Initial c)
    (hi : c.calls[i]? = some call) {clientId : String} {client : OAuthClientRow}
    (h : Log.Saw call.log (.clients (.findByClientId clientId)) (.ok (some client))) :
    ∃ client' ∈ c.world.clients, client.Le client' ∧ client'.clientId = clientId := by
  have hord := hreach.ordered (le_stable P)
  obtain ⟨_, pre, post, hmem, hans⟩ := answered hreach.valid hi h
  have hlookup := (Stmt.findByClientId_answer hans).symm
  have hle : pre.Le c.world := (hord.answer hi _ hmem).trans (hord.post hi _ hmem)
  obtain ⟨client', hclient', hrow⟩ := hle.clients client (lookup_mem hlookup)
  exact ⟨client', hclient', hrow, hrow.clientId.trans (lookup_key hlookup)⟩

/-- An authorization is for scopes that its client may have. -/
theorem Issues.allowed (hreach : (machine P).Reachable World.Initial c)
    (hi : c.calls[i]? = some call) {userId : String} {input : AuthorizeInput}
    (h : Issues P call code input userId) : ∃ client ∈ c.world.clients,
      client.clientId = input.clientId ∧ ScopeWithin input.scope client.allowedScopes := by
  obtain ⟨n, pre, post, he⟩ := h.stored
  obtain ⟨l, hl, hjust⟩ := justified_event hreach.valid hi he
  obtain ⟨client, hread, hallowed⟩ := CodeReason.allowed hjust
  obtain ⟨client', hclient', hrow, hname⟩ :=
    read_client hreach hi (hread.mono ((List.suffix_cons _ l).trans hl))
  exact ⟨client', hclient', hname, fun s hs => hrow.allowedScopes ▸ hallowed s hs⟩

/-- The issue of a code for scopes that its client may have: those of its authorization. -/
structure CodeScope (P : Platform) (c : ServerConfig) (b : AuthorizationCodeRow) extends
    CodeIssue P c b where
  client : OAuthClientRow
  registered : client ∈ c.world.clients
  owner : client.id = b.clientId
  clientId : client.clientId = input.clientId
  codeHash : b.codeHash = P.sha256Hex code
  scope : b.scope = input.scope
  allowed : ScopeWithin b.scope client.allowedScopes

/-- **A code is for scopes that its client may have.** -/
theorem code_scope (hreach : (machine P).Reachable World.Initial c) {b : AuthorizationCodeRow}
    (hb : b ∈ c.world.codes) : Nonempty (CodeScope P c b) := by
  obtain ⟨issue⟩ := code_issued hreach hb
  obtain ⟨client, hclient, hpublic, hallowed⟩ := issue.issues.allowed hreach issue.call
  obtain ⟨client', hclient', hrow⟩ := issue.earlier.clients issue.issuedTo issue.stored
  obtain rfl : client' = client :=
    eq_of_key (reachable_sound hreach).1.clientRefs hclient' hclient
      (hrow.clientId.trans (issue.named.trans hpublic.symm))
  have hscope : b.scope = issue.input.scope := issue.row.scope
  exact ⟨{ issue with
    client := client'
    registered := hclient
    owner := hrow.id.trans issue.row.clientId.symm
    clientId := hpublic
    codeHash := issue.row.codeHash
    scope := hscope
    allowed := hscope ▸ hallowed }⟩

/-! ### The tokens -/

/-- The reason for which a token has been signed, with the log before. -/
theorem Signs.reason (hv : (machine P).Valid c) (hi : c.calls[i]? = some call)
    (h : Signs call token) {scope : String} (hscope : token.payload.scope = some scope) :
    ∃ l input, l <:+ call.log ∧ TokenReason P call.req.request l input ∧ input.scope = scope ∧
      token.payload.clientId = input.clientId.filter (· ≠ "") := by
  obtain ⟨n, pre, kid, payload, post, he⟩ := h
  obtain ⟨l, hl, hjust⟩ := justified_event hv hi he
  obtain ⟨rfl, _⟩ := Stmt.sign_answer (executed hv hi he)
  rcases hjust with ⟨input, jti, now, hreason, _, _, rfl⟩ | ⟨_, _, _, _, _, rfl⟩
  · exact ⟨l, input, (List.suffix_cons _ l).trans hl, hreason, Option.some.inj hscope, rfl⟩
  · cases hscope

/-- A token of a chain that is rotated has the client and the scope of its code. -/
theorem rotated_owner (hreach : (machine P).Reachable World.Initial c)
    (hi : c.calls[i]? = some call) {hash : String} {old row : RefreshTokenRow}
    (hrotated : Log.Saw call.log (.refreshTokens (.rotate hash)) (.ok (some old)))
    (hderived : Derived c code row) (hhash : row.tokenHash = hash) :
    ∃ b ∈ c.world.codes, b.codeHash = P.sha256Hex code ∧ old.clientId = some b.clientId ∧
      old.scope = b.scope := by
  obtain ⟨hrow, b, hb, hbhash, _, hclient, hscope⟩ := hderived.owner hreach
  obtain ⟨n, pre, post, hmem, hans⟩ := answered hreach.valid hi hrotated
  obtain ⟨before, hbefore, hbhash', _, _, rfl, _⟩ := Stmt.rotate_answer hans
  have hord := hreach.ordered (le_stable P)
  have hle : pre.Le c.world := (hord.answer hi _ hmem).trans (hord.post hi _ hmem)
  have hsame := hle.refreshTokens.le_of_key (reachable_sound hreach).1.tokenHashes
    (fun h => h.tokenHash) hbefore hrow (hhash.trans hbhash'.symm)
  exact ⟨b, hb, hbhash, hsame.clientId.symm.trans hclient, hsame.scope.symm.trans hscope⟩

/-- **Along a grant, scopes are copied or narrowed.** -/
theorem OnCode.narrowed (hreach : (machine P).Reachable World.Initial c) (h : OnCode P c code token)
    {scope : String} (hscope : token.payload.scope = some scope) :
    ∃ b ∈ c.world.codes, b.codeHash = P.sha256Hex code ∧ NarrowedFrom b.scope scope := by
  cases h with
  | exchange hi request grant presented signed =>
      obtain ⟨l, input, hl, hreason, rfl, _⟩ := signed.reason hreach.valid hi hscope
      rw [request] at hreason
      cases hreason with
      | exchange hrequest _ identified presented' peeked consumed _ _ _ =>
          cases hrequest
          obtain rfl := Option.some.inj (presented.symm.trans presented')
          obtain ⟨b, hb, hbhash, hcode, _⟩ := exchange_binding hreach hi
            { identified with read := identified.read.mono hl } (peeked.mono hl) (consumed.mono hl)
          exact ⟨b, hb, hbhash, .inl hcode.scope.symm⟩
      | oauthRefresh hrequest grant' | clientCredentials hrequest grant' =>
          cases hrequest
          rw [grant] at grant'
          cases grant'
      | login hrequest | challenge hrequest | refresh hrequest => cases hrequest
  | refresh hi request derived hash signed =>
      obtain ⟨l, input, hl, hreason, rfl, _⟩ := signed.reason hreach.valid hi hscope
      rw [request] at hreason
      cases hreason with
      | refresh hrequest rotated _ _ =>
          cases hrequest
          obtain ⟨l', hrotated, hfound⟩ := rotated
          obtain ⟨b, hb, hbhash, _, hsame⟩ := rotated_owner hreach hi
            (hrotated.mono (hfound.suffix.trans hl)) derived hash
          exact ⟨b, hb, hbhash, .inl hsame⟩
      | login hrequest | challenge hrequest | exchange hrequest | oauthRefresh hrequest
      | clientCredentials hrequest => cases hrequest
  | oauthRefresh hi request grant presented derived hash signed =>
      obtain ⟨l, input, hl, hreason, rfl, _⟩ := signed.reason hreach.valid hi hscope
      rw [request] at hreason
      cases hreason with
      | oauthRefresh hrequest _ _ _ presented' rotated _ narrowed _ =>
          cases hrequest
          obtain rfl := Option.some.inj (presented.symm.trans presented')
          obtain ⟨l', hrotated, hfound⟩ := rotated
          obtain ⟨b, hb, hbhash, _, hsame⟩ := rotated_owner hreach hi
            (hrotated.mono (hfound.suffix.trans hl)) derived hash
          exact ⟨b, hb, hbhash, hsame ▸ narrowScope_narrowed narrowed⟩
      | exchange hrequest grant' | clientCredentials hrequest grant' =>
          cases hrequest
          rw [grant] at grant'
          cases grant'
      | login hrequest | challenge hrequest | refresh hrequest => cases hrequest

theorem OnCode.within (hreach : (machine P).Reachable World.Initial c) (h : OnCode P c code token)
    {scope : String} (hscope : token.payload.scope = some scope) :
    ∃ b ∈ c.world.codes, b.codeHash = P.sha256Hex code ∧ ScopeWithin scope (words b.scope) := by
  obtain ⟨b, hb, hhash, hnarrowed⟩ := h.narrowed hreach hscope
  exact ⟨b, hb, hhash, hnarrowed.within⟩

/-- A token on credentials lists scopes that its client may have. -/
theorem OnCredentials.listed (hreach : (machine P).Reachable World.Initial c) {clientId : String}
    (h : OnCredentials c clientId token) {scope : String}
    (hscope : token.payload.scope = some scope) : ∃ client ∈ c.world.clients,
      client.clientId = clientId ∧ ∃ list, (∀ s ∈ list, IsWord s ∧ s ∈ client.allowedScopes) ∧
        scope = joinWords list := by
  obtain ⟨i, call, form, basicAuth, hi, request, grant, named, signed⟩ := h.issued
  obtain ⟨l, input, hl, hreason, rfl, _⟩ := signed.reason hreach.valid hi hscope
  rw [request] at hreason
  cases hreason with
  | clientCredentials hrequest _ identified allowed =>
      cases hrequest
      obtain rfl := Option.some.inj (named.symm.trans identified.named)
      obtain ⟨client', hclient', hrow, hname⟩ := read_client hreach hi (identified.read.mono hl)
      exact ⟨client', hclient', hname, _,
        fun s hs => ⟨isWord_of_mem hs, hrow.allowedScopes ▸ allowed s hs⟩, rfl⟩
  | exchange hrequest grant' | oauthRefresh hrequest grant' =>
      cases hrequest
      rw [grant] at grant'
      cases grant'
  | login hrequest | challenge hrequest | refresh hrequest => cases hrequest

theorem OnCredentials.within (hreach : (machine P).Reachable World.Initial c) {clientId : String}
    (h : OnCredentials c clientId token) {scope : String}
    (hscope : token.payload.scope = some scope) : ∃ client ∈ c.world.clients,
      client.clientId = clientId ∧ ScopeWithin scope client.allowedScopes := by
  obtain ⟨client, hclient, hname, list, hlist, rfl⟩ := h.listed hreach hscope
  refine ⟨client, hclient, hname, fun s hs => ?_⟩
  rw [words_joinWords fun word hword => (hlist word hword).1] at hs
  exact (hlist s hs).2

/-! ### Every token of a client is on one of them -/

/-- **Induction along rotations.**  What holds of the first token of every chain, and passes
from a token to its successor, holds of every stored token. -/
theorem stored_induction {Q : RefreshTokenRow → Prop}
    (hreach : (machine P).Reachable World.Initial c)
    (hfirst : ∀ {i : ℕ} {call : ServerCall} {n pre post data row}, c.calls[i]? = some call →
      (⟨n, pre, .refreshTokens (.insert data), .ok (), post⟩ : ServerEvent) ∈ call.log →
      data.previousTokenId = none → row ∈ c.world.refreshTokens →
      (∃ r pre, (data.row r pre).Le row) → Q row)
    (hnext : ∀ {row next}, Q row → row ∈ c.world.refreshTokens → next ∈ c.world.refreshTokens →
      next.previousTokenId = some row.id → Q next)
    {row : RefreshTokenRow} (hrow : row ∈ c.world.refreshTokens) : Q row := by
  obtain ⟨i, call, n, pre, post, data, r, hi, he, -, hle⟩ := refreshToken_inserted hreach hrow
  have hhash : row.tokenHash = data.tokenHash := hle.tokenHash
  clear hle
  induction n using Nat.strong_induction_on generalizing i call pre post data row with
  | _ n ih =>
      obtain ⟨l, hl, hreason⟩ := inserted_reason hreach.valid hi he
      obtain ⟨r, pre', hle⟩ := stored_row hreach hi ⟨n, pre, post, he⟩ hrow hhash
      cases hreason with
      | login _ _ _ | challenge _ _ _ _ | exchange _ _ _ _ _ _ _ =>
          exact hfirst hi he rfl hrow ⟨r, pre', hle⟩
      | @rotation hash old token rotated =>
          -- the rotated token has been stored before
          obtain ⟨m, pre₁, post₁, hmem⟩ := rotated
          have hlt : m < n := hreach.valid.earlier hi hl hmem
          have hmem' := ((List.suffix_cons _ l).trans hl).subset hmem
          obtain ⟨before, hbefore, _, _, _, rfl, _⟩ :=
            Stmt.rotate_answer (executed hreach.valid hi hmem')
          have hord := hreach.ordered (le_stable P)
          have hnow : pre₁.Le c.world := (hord.answer hi _ hmem').trans (hord.post hi _ hmem')
          obtain ⟨row', hrow', hle'⟩ := hnow.refreshTokens before hbefore
          obtain ⟨c₁, _, hreach₁, hrun, rfl, hseq, _⟩ := hreach.before hi hmem'
          obtain ⟨k, issuer, n', pre₂, post₂, data', r', hk, he', _, hstored⟩ :=
            refreshToken_inserted hreach₁ hbefore
          obtain ⟨issuer', hk', hext⟩ := hrun.extends hk
          have hn' : n' < m := (hreach₁.valid.seq_lt hk _ he').trans_eq hseq
          have hold : Q row' := ih n' (hn'.trans hlt) hrow' _ _ _ _ _ hk' (hext.log.subset he')
            (hle'.tokenHash.trans hstored.tokenHash)
          exact hnext hold hrow' hrow (hle.previousTokenId.trans (congrArg some hle'.id.symm))

/-- A refresh token of a client is derived from a code. -/
theorem client_row_derived (hreach : (machine P).Reachable World.Initial c) {row : RefreshTokenRow}
    (hrow : row ∈ c.world.refreshTokens) (hclient : row.clientId.isSome = true) :
    ∃ code, Derived c code row := by
  revert hclient
  refine stored_induction (Q := fun row => row.clientId.isSome = true → ∃ code, Derived c code row)
    hreach ?_ ?_ hrow
  · rintro i call n pre post data row hi he hnone hrow ⟨r, pre', hle⟩ hclient
    obtain ⟨l, hl, hreason⟩ := inserted_reason hreach.valid hi he
    generalize hrequest : call.req.request = request at hreason
    cases hreason with
    | login _ _ _ | challenge _ _ _ _ =>
        rw [hle.clientId] at hclient
        cases hclient
    | @exchange _ _ _ _ code _ _ _ _ _ _ _ htoken _ presented _ _ _ _ =>
        exact ⟨code, .issued hi (hrequest.trans htoken) presented ⟨n, pre, post, he⟩ rfl hrow
          hle.tokenHash⟩
    | rotation _ => cases hnone
  · intro row next hold hrow hnext hprevious hclient
    obtain ⟨_, hsame, _⟩ := successor_grant hreach hrow hnext hprevious
    obtain ⟨code, hderived⟩ := hold (hsame ▸ hclient)
    exact ⟨code, .rotated hderived hnext hprevious⟩

/-- The presented token of a client is derived from a code. -/
theorem rotated_derived (hreach : (machine P).Reachable World.Initial c)
    (hi : c.calls[i]? = some call) {hash : String} {old : RefreshTokenRow}
    (hrotated : Log.Saw call.log (.refreshTokens (.rotate hash)) (.ok (some old)))
    (hclient : old.clientId.isSome = true) :
    ∃ code row, Derived c code row ∧ row.tokenHash = hash := by
  obtain ⟨n, pre, post, hmem, hans⟩ := answered hreach.valid hi hrotated
  obtain ⟨before, hbefore, hhash, _, _, rfl, _⟩ := Stmt.rotate_answer hans
  have hord := hreach.ordered (le_stable P)
  have hle : pre.Le c.world := (hord.answer hi _ hmem).trans (hord.post hi _ hmem)
  obtain ⟨row, hrow, hsame⟩ := hle.refreshTokens before hbefore
  obtain ⟨code, hderived⟩ := client_row_derived hreach hrow (hsame.clientId ▸ hclient)
  exact ⟨code, row, hderived, hsame.tokenHash.trans hhash⟩

/-- **Every access token that names a client** is on a code or on credentials. -/
theorem client_token_cases (hreach : (machine P).Reachable World.Initial c)
    (htoken : token ∈ c.world.signed) {scope clientRef : String}
    (hscope : token.payload.scope = some scope)
    (hclient : token.payload.clientId = some clientRef) :
    (∃ code, OnCode P c code token) ∨ ∃ clientId, OnCredentials c clientId token := by
  obtain ⟨i, call, n, pre, post, kid, hi, he⟩ := token_signed hreach htoken
  have hsigned : Signs call token := ⟨n, pre, kid, token.payload, post, he⟩
  obtain ⟨l, input, hl, hreason, _, hinput⟩ := hsigned.reason hreach.valid hi hscope
  have hnamed : input.clientId = some clientRef :=
    (Option.filter_eq_some_iff.1 (hinput.symm.trans hclient)).1
  generalize hrequest : call.req.request = request at hreason
  cases hreason with
  | login | challenge => cases hnamed
  | refresh hpresented rotated _ _ =>
      obtain ⟨l', hrotated, hfound⟩ := rotated
      obtain ⟨code, row, hderived, hhash⟩ := rotated_derived hreach hi
        (hrotated.mono (hfound.suffix.trans hl)) (Option.isSome_of_eq_some hnamed)
      exact .inl ⟨code, .refresh hi (hrequest.trans hpresented) hderived hhash hsigned⟩
  | @exchange _ _ _ _ code _ _ _ _ _ _ _ hpresented grant _ presented _ _ _ _ _ =>
      exact .inl ⟨code, .exchange hi (hrequest.trans hpresented) grant presented hsigned⟩
  | oauthRefresh hpresented grant _ bound presented rotated _ _ _ =>
      obtain ⟨l', hrotated, hfound⟩ := rotated
      obtain ⟨code, row, hderived, hhash⟩ := rotated_derived hreach hi
        (hrotated.mono (hfound.suffix.trans hl)) (Option.isSome_of_eq_some bound)
      exact .inl ⟨code, .oauthRefresh hi (hrequest.trans hpresented) grant presented hderived hhash
        hsigned⟩
  | clientCredentials hpresented grant identified _ =>
      exact .inr ⟨_, i, call, _, _, hi, hrequest.trans hpresented, grant, identified.named, hsigned⟩

/-- **The scopes of a client's tokens.**  A token on the grant of a code has only scopes
that its client may have and that the authorization of the code has asked for; a token
on the client's credentials has only scopes that the client may have; and every access
token that names a client is one of these. -/
theorem client_token_scopes (hreach : (machine P).Reachable World.Initial c) :
    (∀ code token scope, OnCode P c code token → token.payload.scope = some scope →
      ∃ (j : ℕ) (issuer : ServerCall) (issued userId : String) (input : AuthorizeInput)
        (client : OAuthClientRow), c.calls[j]? = some issuer ∧
        Issues P issuer issued input userId ∧ P.sha256Hex issued = P.sha256Hex code ∧
        client ∈ c.world.clients ∧ client.clientId = input.clientId ∧
        ScopeWithin scope client.allowedScopes ∧ ScopeWithin scope (words input.scope)) ∧
      (∀ clientId token scope, OnCredentials c clientId token → token.payload.scope = some scope →
        ∃ client ∈ c.world.clients, client.clientId = clientId ∧
          ScopeWithin scope client.allowedScopes) ∧
      ∀ token ∈ c.world.signed, token.payload.scope.isSome = true →
        token.payload.clientId.isSome = true →
        (∃ code, OnCode P c code token) ∨ ∃ clientId, OnCredentials c clientId token := by
  refine ⟨fun code token scope h hscope => ?_, fun clientId token scope h => h.within hreach,
    fun token htoken hscope hclient => ?_⟩
  · obtain ⟨b, hb, hbhash, hwithin⟩ := h.within hreach hscope
    obtain ⟨issue⟩ := code_scope hreach hb
    exact ⟨issue.place, issue.issuer, issue.code, issue.userId, issue.input, issue.client,
      issue.call, issue.issues, issue.codeHash.symm.trans hbhash, issue.registered, issue.clientId,
      fun s hs => issue.allowed s (hwithin s hs), issue.scope ▸ hwithin⟩
  · obtain ⟨scope, hscope⟩ := Option.isSome_iff_exists.1 hscope
    obtain ⟨clientRef, hclient⟩ := Option.isSome_iff_exists.1 hclient
    exact client_token_cases hreach htoken hscope hclient

/-- A code for `api.read` is exchanged, and the refresh token used at `/auth/refresh`. -/
theorem client_token_scopes_of_exchange :
    ∃ (c : ServerConfig) (token : Jws) (client : OAuthClientRow),
      sampleRun plainRefreshMoves = some c ∧ token ∈ c.world.signed ∧
      token.payload.scope = some "api.read" ∧ client ∈ c.world.clients ∧
      ScopeWithin "api.read" client.allowedScopes := by
  have hplay : (sampleRun plainRefreshMoves).any (fun c => decide (∃ token ∈ c.world.signed,
      token.payload.scope = some "api.read" ∧ token.payload.clientId.isSome = true)) = true := by
    decide +kernel
  obtain ⟨c, hc, hall⟩ := (Option.any_eq_true _ _).1 hplay
  obtain ⟨token, htoken, hscope, hclient⟩ := of_decide_eq_true hall
  obtain ⟨hcode, hcredentials, hcases⟩ := client_token_scopes (sampleRun_reachable hc)
  rcases hcases token htoken (Option.isSome_of_eq_some hscope) hclient with
    ⟨code, hon⟩ | ⟨clientId, hon⟩
  · obtain ⟨_, _, _, _, _, client, _, _, _, hmem, _, hwithin, _⟩ :=
      hcode code token "api.read" hon hscope
    exact ⟨c, token, client, hc, htoken, hscope, hmem, hwithin⟩
  · obtain ⟨client, hmem, _, hwithin⟩ := hcredentials clientId token "api.read" hon hscope
    exact ⟨c, token, client, hc, htoken, hscope, hmem, hwithin⟩

end IdentityPlatform
