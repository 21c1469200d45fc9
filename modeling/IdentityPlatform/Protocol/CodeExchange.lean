/-
# Authorization and exchange agree

An exchange is a check-then-act over three statements: `peek`, the read of
`consume` and the conditional `UPDATE`.  Rows of codes keep everything but
`consumed_at` (`AuthorizationCodeRow.Le`), so what the first read has checked is
what the `UPDATE` returns, and the `UPDATE` finds a row unconsumed once.  A row
comes from one authorization: its hash is that of a random value that only one
call has drawn.
-/

import IdentityPlatform.Protocol.Received
import IdentityPlatform.Protocol.Justified

namespace IdentityPlatform

open Interleaving Program Relational Machine AuthServer

variable {P : Platform} {c : ServerConfig} {i j : ℕ} {call call' : ServerCall}

/-- What `authorize` records with a code. -/
def AuthorizeInput.codeData (P : Platform) (input : AuthorizeInput) (userId : String) :
    IssueCodeData where
  clientId := input.clientId
  userId := userId
  redirectUri := input.redirectUri
  scope := input.scope
  nonce := input.nonce
  codeChallenge := some input.codeChallenge
  codeChallengeMethod := some input.codeChallengeMethod
  ttlSeconds := P.config.authorizationCodeTtl

/-- The call is the authorization that has drawn `code` and stored it for the
user of its bearer token. -/
structure Issues (P : Platform) (call : ServerCall) (code : String) (input : AuthorizeInput)
    (userId : String) : Prop where
  request : ∃ bearer state payload, call.req.request = .authorize (some (.jws bearer)) input state ∧
    JwtService.Accepted call.log bearer payload ∧ payload.sub = userId
  drawn : Log.Saw call.log (.runtime .randomToken) (.ok code)
  stored : Log.Saw call.log (.codes (.insert (P.sha256Hex code) (input.codeData P userId))) (.ok ())

/-- **Only one call has drawn a code.** -/
theorem Issues.unique {code userId userId' : String} {input input' : AuthorizeInput}
    (h : Issues P call code input userId) (h' : Issues P call' code input' userId')
    (hreach : (machine P).Reachable World.Initial c) (hi : c.calls[i]? = some call)
    (hj : c.calls[j]? = some call') : i = j := by
  obtain ⟨_, _, _, he, hans⟩ := answered hreach.valid hi h.drawn
  obtain ⟨_, _, _, he', hans'⟩ := answered hreach.valid hj h'.drawn
  exact (taken_once hreach hi hj he he' (Stmt.randomToken_answer hans)
    (Stmt.randomToken_answer hans')).1

/-! ### Rows of codes -/

/-- A code is found again by its hash. -/
theorem World.Le.code_le {w w' : World} (hle : w.Le w') (hw : w'.Sound)
    {a b : AuthorizationCodeRow} (ha : a ∈ w.codes) (hb : b ∈ w'.codes)
    (hhash : b.codeHash = a.codeHash) : a.Le b :=
  hle.codes.le_of_key hw.codeHashes (fun h => h.codeHash) ha hb hhash

/-- The issue of a code: the authorization that has drawn it, and the client it was issued to,
as it was then. -/
structure CodeIssue (P : Platform) (c : ServerConfig) (b : AuthorizationCodeRow) where
  place : ℕ
  issuer : ServerCall
  code : String
  userId : String
  input : AuthorizeInput
  id : String
  before : World
  issuedTo : OAuthClientRow
  call : c.calls[place]? = some issuer
  issues : Issues P issuer code input userId
  stored : issuedTo ∈ before.clients
  named : issuedTo.clientId = input.clientId
  earlier : before.Le c.world
  row : ((input.codeData P userId).row id before (P.sha256Hex code) issuedTo).Le b

/-- **Every code has been issued.** -/
theorem code_issued (hreach : (machine P).Reachable World.Initial c) {b : AuthorizationCodeRow}
    (hb : b ∈ c.world.codes) : Nonempty (CodeIssue P c b) := by
  have hord := hreach.ordered (le_stable P)
  obtain ⟨insert⟩ := code_inserted hreach hb
  obtain ⟨l, hjust, hl⟩ := hreach.valid.respected handler_justified insert.call insert.event
  obtain ⟨⟨bearer, input, state, payload, hrequest, haccepted, _, hdata⟩, _, code, hdrawn, hhash⟩ :=
    hjust
  have hlog := (List.suffix_cons _ _).trans hl
  have hevent := insert.event
  have hfound := insert.found
  have hrow := insert.row
  rw [hdata, hhash] at hevent hrow
  rw [hdata] at hfound
  exact ⟨{ call := insert.call
           issues := ⟨⟨bearer, state, payload, hrequest, haccepted.mono hlog, rfl⟩,
             hdrawn.mono hlog, ⟨_, _, _, hevent⟩⟩
           stored := lookup_mem hfound
           named := lookup_key hfound
           earlier := (hord.answer insert.call _ insert.event).trans
             (hord.post insert.call _ insert.event)
           row := hrow
           .. }⟩

/-- A code with the hash has been consumed. -/
def CodeConsumed (hash : String) (w : World) : Prop :=
  ∃ r ∈ w.codes, r.codeHash = hash ∧ r.consumedAt.isSome = true

theorem CodeConsumed.mono {hash : String} {w w' : World} (h : CodeConsumed hash w) (hle : w.Le w') :
    CodeConsumed hash w' := by
  obtain ⟨r, hr, hhash, hc⟩ := h
  obtain ⟨r', hr', hrow⟩ := hle.codes r hr
  exact ⟨r', hr', hrow.codeHash.trans hhash, hrow.consumed hc ▸ hc⟩

/-- A code that a call has read is in the state now. -/
theorem Peeked.now {params : PresentedCode} {row : JoinedRow}
    (h : AuthorizationCodeRepository.Peeked P call.log params row)
    (hreach : (machine P).Reachable World.Initial c) (hi : c.calls[i]? = some call) :
    row.code.codeHash = P.sha256Hex params.code ∧ (∃ r ∈ c.world.codes, row.code.Le r) ∧
      ∃ client ∈ c.world.clients, client.id = row.code.clientId ∧
        client.clientId = params.clientId := by
  obtain ⟨_, pre, post, hmem, hans⟩ := answered hreach.valid hi h.read
  obtain ⟨hcode, client, hclient, hid, hpublic⟩ := Stmt.selectJoined_answer hans
  have hord := hreach.ordered (le_stable P)
  have hle : pre.Le c.world := (hord.answer hi _ hmem).trans (hord.post hi _ hmem)
  obtain ⟨client', hclient', hrow⟩ := hle.clients client hclient
  refine ⟨lookup_key hcode, hle.codes _ (lookup_mem hcode), client', hclient',
    hrow.id.trans hid, ?_⟩
  exact hrow.clientId.trans (hpublic.trans h.client)

/-- **The statement that consumes the code** finds it unconsumed, leaves it
consumed, and returns the row that was read. -/
theorem PresentedAndConsumed.event {form : TokenForm} {params : PresentedCode}
    {row row' : JoinedRow} {codeRow : AuthorizationCodeRow}
    (h : PresentedAndConsumed P call.log form params row row' codeRow)
    (hreach : (machine P).Reachable World.Initial c) (hi : c.calls[i]? = some call) :
    (∃ r ∈ c.world.codes, r.codeHash = P.sha256Hex params.code ∧ row.code.Le r ∧ codeRow.Le r) ∧
      ∃ e ∈ call.log, ¬CodeConsumed (P.sha256Hex params.code) e.pre ∧
        CodeConsumed (P.sha256Hex params.code) e.post := by
  have hsound := (reachable_sound hreach).1
  have hord := hreach.ordered (le_stable P)
  obtain ⟨l', hpeeked', hstep⟩ := h.consumed
  obtain ⟨hhash, ⟨r, hr, hrow⟩, _⟩ := Peeked.now h.peeked hreach hi
  obtain ⟨hhash', ⟨r', hr', hrow'⟩, _⟩ :=
    Peeked.now (hpeeked'.mono hstep.suffix) hreach hi
  obtain ⟨_, pre, post, hmem, hans⟩ := answered hreach.valid hi hstep.saw
  obtain ⟨old, hold, hid, hnone, rfl, hpost⟩ := Stmt.consume_answer hans
  -- the row that is updated is the one with the hash
  have hle : pre.Le c.world := (hord.answer hi _ hmem).trans (hord.post hi _ hmem)
  obtain ⟨r'', hr'', hrow''⟩ := hle.codes old hold
  have hsame : r'' = r' :=
    eq_of_key hsound.codes.nodup hr'' hr' (hrow''.id.trans (hid.trans hrow'.id.symm))
  have holdhash : old.codeHash = P.sha256Hex params.code := by
    rw [← hrow''.codeHash, hsame, hrow'.codeHash, hhash']
  have hconsumed := (hord.post hi _ hmem).code_le hsound hpost hr
    (hrow.codeHash.trans (hhash.trans holdhash.symm))
  refine ⟨⟨r, hr, hrow.codeHash.trans hhash, hrow, hconsumed⟩, _, hmem, ?_,
    ⟨_, hpost, holdhash, rfl⟩⟩
  rintro ⟨b, hb, hbhash, hc⟩
  have hpre : pre.Sound := ((reachable_sound hreach).2 i call hi _ hmem).1
  obtain rfl := eq_of_key hpre.codeHashes hb hold (hbhash.trans holdhash.symm)
  rw [hnone] at hc
  cases hc

/-! ### Agreement -/

/-- The call has exchanged a code for tokens. -/
structure Exchanges (call : ServerCall) (form : TokenForm) (basicAuth : Option BasicAuth)
    (response : TokenResponse) : Prop where
  request : call.req.request = .token form basicAuth
  form : form.grantType = .authorizationCode
  result : call.result = some (.ok (.tokens response))

theorem Exchanges.grant {form : TokenForm} {basicAuth : Option BasicAuth} {response : TokenResponse}
    (h : Exchanges call form basicAuth response) (hv : (machine P).Valid c)
    (hi : c.calls[i]? = some call) : ∃ client codeRow session,
      CodeGrant P call.log form basicAuth client codeRow session response := by
  have hgrant := granted (hv.returned hi h.result) rfl
  rw [h.request] at hgrant
  cases hgrant with
  | code _ grant => exact ⟨_, _, _, grant⟩
  | oauthRefresh hform _ | clientCredentials hform _ =>
      have hform' := h.form
      rw [hform] at hform'
      cases hform'

/-- What an exchange and the authorization with `input` for `userId` agree on. -/
structure Agreement (P : Platform) (c : ServerConfig) (call : ServerCall) (form : TokenForm)
    (basicAuth : Option BasicAuth) (response : TokenResponse) (input : AuthorizeInput)
    (userId : String) : Prop where
  client : (basicAuth.map BasicAuth.clientId).or form.clientId = some input.clientId
  redirectUri : form.redirectUri = some input.redirectUri
  secret : ∃ client, Log.Saw call.log (.clients (.findByClientId input.clientId))
    (.ok (some client)) ∧ OAuthService.Authenticated P client (presentedSecret form basicAuth)
  verifier : ∃ codeVerifier, form.codeVerifier = some codeVerifier ∧
    PkceUtil.matches P codeVerifier input.codeChallenge (some input.codeChallengeMethod) = true
  accessToken : response.accessToken.payload.sub = userId ∧
    response.accessToken.payload.scope = some input.scope
  refreshToken : ∃ token, response.refreshToken = some token ∧ ∃ row ∈ c.world.refreshTokens,
    row.tokenHash = P.sha256Hex token ∧ row.userId = userId ∧ row.scope = input.scope
  idToken : ∀ token, response.idToken = some token → token.payload.sub = userId ∧
    token.payload.nonce = input.nonce.filter (· ≠ "")

/-- The tokens of an exchange carry the user, the scope and the nonce they were
issued for. -/
theorem UserTokens.carried {userId scope : String} {client : OAuthClientRow}
    {nonce : Option String} {session : SessionRow} {response : TokenResponse}
    (h : UserTokens P call.log userId client scope nonce session response)
    (hreach : (machine P).Reachable World.Initial c) (hi : c.calls[i]? = some call) :
    (response.accessToken.payload.sub = userId ∧
        response.accessToken.payload.scope = some scope) ∧
      (∃ token, response.refreshToken = some token ∧ ∃ row ∈ c.world.refreshTokens,
        row.tokenHash = P.sha256Hex token ∧ row.userId = userId ∧ row.scope = scope) ∧
      ∀ token, response.idToken = some token → token.payload.sub = userId ∧
        token.payload.nonce = nonce.filter (· ≠ "") := by
  refine ⟨?_, ?_, fun token htoken => ?_⟩
  · obtain ⟨roles, permissions, _, hsigned⟩ := h.access
    obtain ⟨jti, now, hpayload⟩ := hsigned.payload hreach.valid hi
    rw [hpayload]
    exact ⟨rfl, rfl⟩
  · obtain ⟨token, familyId, htoken, hinsert⟩ := h.refresh
    obtain ⟨_, pre, post, hmem, hans⟩ := answered hreach.valid hi hinsert
    obtain ⟨r, _, hnew, _⟩ := Stmt.insertRefreshToken_answer hans
    have hle : post.Le c.world := (hreach.ordered (le_stable P)).post hi _ hmem
    obtain ⟨row, hrow, hrowle⟩ := hle.refreshTokens _ hnew
    exact ⟨token, htoken, row, hrow, hrowle.tokenHash, hrowle.userId, hrowle.scope⟩
  · obtain ⟨kid, now, claims, hsign, hnonce⟩ := h.idToken token htoken
    obtain ⟨_, _, _, _, hans⟩ := answered hreach.valid hi hsign
    rw [(Stmt.sign_answer hans).1]
    exact ⟨rfl, hnonce⟩

/-- **An exchange agrees with the authorization that issued its code.** -/
theorem Exchanges.agrees (hP : Function.Injective P.sha256Hex)
    (hreach : (machine P).Reachable World.Initial c) {form : TokenForm}
    {basicAuth : Option BasicAuth} {response : TokenResponse}
    (h : Exchanges call form basicAuth response) (hi : c.calls[i]? = some call) :
    ∃ (j : ℕ) (issuer : ServerCall) (code userId : String) (input : AuthorizeInput),
      form.code = some code ∧ c.calls[j]? = some issuer ∧ Issues P issuer code input userId ∧
      Agreement P c call form basicAuth response input userId := by
  obtain ⟨client, codeRow, session, grant⟩ := h.grant hreach.valid hi
  obtain ⟨params, row, row', hidentified, hpresented⟩ := grant.presented
  obtain ⟨⟨b, hb, hbhash, hrow, hcodeRow⟩, _⟩ := hpresented.event hreach hi
  obtain ⟨_, _, clientNow, hclientNow, hclientId, hpublic⟩ := Peeked.now hpresented.peeked hreach hi
  obtain ⟨issue⟩ := code_issued hreach hb
  -- the code presented is the code drawn
  have hcode : params.code = issue.code := hP (hbhash.symm.trans issue.row.codeHash)
  -- and the client named is the one it was issued to
  have hclient : params.clientId = issue.input.clientId := by
    obtain ⟨clientThen, hclientThen, hclientLe⟩ := issue.earlier.clients issue.issuedTo issue.stored
    have hid : clientNow.id = clientThen.id := by
      rw [hclientId, hclientLe.id, ← hrow.clientId]
      exact issue.row.clientId
    have hsame := eq_of_key (reachable_sound hreach).1.clients.nodup hclientNow hclientThen hid
    rw [← hpublic, hsame, hclientLe.clientId, issue.named]
  have huser : codeRow.userId = issue.userId := hcodeRow.userId.symm.trans issue.row.userId
  have hscope : codeRow.scope = issue.input.scope := hcodeRow.scope.symm.trans issue.row.scope
  have hnonce : codeRow.nonce = issue.input.nonce := hcodeRow.nonce.symm.trans issue.row.nonce
  have hredirect : row.code.redirectUri = issue.input.redirectUri :=
    hrow.redirectUri.symm.trans issue.row.redirectUri
  have hchallenge : row.code.codeChallenge = some issue.input.codeChallenge :=
    hrow.codeChallenge.symm.trans issue.row.codeChallenge
  have hmethod : row.code.codeChallengeMethod = some issue.input.codeChallengeMethod :=
    hrow.codeChallengeMethod.symm.trans issue.row.codeChallengeMethod
  have htokens := grant.tokens.carried hreach hi
  rw [huser, hscope, hnonce] at htokens
  obtain ⟨haccess, hrefresh, hid⟩ := htokens
  obtain ⟨codeVerifier, codeChallenge, hverifier, hstored, hmatches⟩ := hpresented.verifier
  obtain rfl : issue.input.codeChallenge = codeChallenge :=
    Option.some.inj (hchallenge.symm.trans hstored)
  exact ⟨issue.place, issue.issuer, issue.code, issue.userId, issue.input,
    hcode ▸ hpresented.code, issue.call, issue.issues,
    { client := hclient ▸ hidentified.named
      redirectUri := by rw [hpresented.redirectUri, ← hpresented.peeked.redirectUri, hredirect]
      secret := ⟨client, hclient ▸ hidentified.read, grant.authenticated⟩
      verifier := ⟨codeVerifier, hverifier, hmethod ▸ hmatches⟩
      accessToken := haccess
      refreshToken := hrefresh
      idToken := hid }⟩

/-- **A code is exchanged once.** -/
theorem Exchanges.once (hreach : (machine P).Reachable World.Initial c) {form form' : TokenForm}
    {basicAuth basicAuth' : Option BasicAuth} {response response' : TokenResponse}
    (h : Exchanges call form basicAuth response) (h' : Exchanges call' form' basicAuth' response')
    (hi : c.calls[i]? = some call) (hj : c.calls[j]? = some call')
    (hcode : form.code = form'.code) :
    i = j := by
  obtain ⟨_, _, _, grant⟩ := h.grant hreach.valid hi
  obtain ⟨_, _, _, grant'⟩ := h'.grant hreach.valid hj
  obtain ⟨params, _, _, _, hpresented⟩ := grant.presented
  obtain ⟨params', _, _, _, hpresented'⟩ := grant'.presented
  have hsame : params.code = params'.code := by
    have hsome := hpresented.code.symm.trans (hcode.trans hpresented'.code)
    exact Option.some.inj hsome
  obtain ⟨_, e, he, hpre, hpost⟩ := hpresented.event hreach hi
  obtain ⟨_, e', he', hpre', hpost'⟩ := hpresented'.event hreach hj
  rw [← hsame] at hpre' hpost'
  exact ((hreach.ordered (le_stable P)).once hreach.valid (fun hle h => h.mono hle) hi hj he he'
    hpre hpost hpre' hpost').1

/-- **Injective agreement of authorization and exchange.**  If SHA-256 has no
collisions, every exchange agrees with the one authorization that issued its code
on client, redirect URI, verifier, user, scope and nonce, an empty nonce counting
as none, and no code is exchanged twice. -/
theorem code_exchange_injective_agreement (hP : Function.Injective P.sha256Hex)
    (hreach : (machine P).Reachable World.Initial c) :
    (∀ (i : ℕ) call form basicAuth response, c.calls[i]? = some call →
      Exchanges call form basicAuth response →
      ∃ (j : ℕ) (issuer : ServerCall) (code userId : String) (input : AuthorizeInput),
        form.code = some code ∧ c.calls[j]? = some issuer ∧ Issues P issuer code input userId ∧
        (∀ (j' : ℕ) issuer' input' userId', c.calls[j']? = some issuer' →
          Issues P issuer' code input' userId' → j' = j) ∧
        Agreement P c call form basicAuth response input userId) ∧
      ∀ (i j : ℕ) call call' form form' basicAuth basicAuth' response response',
        c.calls[i]? = some call → c.calls[j]? = some call' →
        Exchanges call form basicAuth response → Exchanges call' form' basicAuth' response' →
        form.code = form'.code → i = j := by
  constructor
  · intro i call form basicAuth response hi h
    obtain ⟨j, issuer, code, userId, input, hcode, hj, hissues, hagree⟩ := h.agrees hP hreach hi
    exact ⟨j, issuer, code, userId, input, hcode, hj, hissues,
      fun j' issuer' input' userId' hj' h' => h'.unique hissues hreach hj' hj, hagree⟩
  · intro i j call call' form form' basicAuth basicAuth' response response' hi hj h h' hcode
    exact h.once hreach h' hi hj hcode

/-- The exchange a call has made, if it has made one. -/
def exchangeOf (call : ServerCall) : Option (TokenForm × Option BasicAuth × TokenResponse) :=
  match call.req.request, call.result with
  | .token form basicAuth, some (.ok (.tokens response)) =>
      if form.grantType = .authorizationCode then some (form, basicAuth, response) else none
  | _, _ => none

theorem exchangeOf_eq_some {form : TokenForm} {basicAuth : Option BasicAuth}
    {response : TokenResponse} (h : exchangeOf call = some (form, basicAuth, response)) :
    Exchanges call form basicAuth response := by
  unfold exchangeOf at h
  split at h
  · rename_i hrequest hresult
    split_ifs at h with hform
    obtain ⟨rfl, rfl, rfl⟩ := h
    exact ⟨hrequest, hform, hresult⟩
  · cases h

theorem sample_sha256Hex_injective : Function.Injective Platform.sample.sha256Hex := by
  intro a b h
  have hlist := congrArg String.toList h
  simp only [Platform.sample, String.toList_append] at hlist
  exact String.toList_injective (List.append_cancel_left hlist)

/-- A code with the nonce `n` is exchanged. -/
theorem code_exchange_injective_agreement_of_nonce :
    ∃ (c : ServerConfig) (call : ServerCall) (form : TokenForm) (basicAuth : Option BasicAuth)
      (response : TokenResponse) (input : AuthorizeInput) (userId : String),
      c.calls[2]? = some call ∧ Exchanges call form basicAuth response ∧
      Agreement .sample c call form basicAuth response input userId ∧
      response.idToken.map (·.payload.nonce) = some (some "n") := by
  have hplay : (sampleRun (loginMoves 0 "al@x.io" "Al 1" ++ authorizeMoves 1 "openid" (some "n") ++
      exchangeMoves 2)).any (fun c => (c.calls[2]?).any fun call => (exchangeOf call).any fun x =>
        decide (x.2.2.idToken.map (·.payload.nonce) = some (some "n"))) = true := by
    decide +kernel
  obtain ⟨c, hc, hall⟩ := (Option.any_eq_true _ _).1 hplay
  obtain ⟨call, hi, hall⟩ := (Option.any_eq_true _ _).1 hall
  obtain ⟨⟨form, basicAuth, response⟩, hexchange, hnonce⟩ := (Option.any_eq_true _ _).1 hall
  have hexchanges := exchangeOf_eq_some hexchange
  obtain ⟨_, _, _, userId, input, _, _, _, _, hagree⟩ :=
    (code_exchange_injective_agreement sample_sha256Hex_injective (sampleRun_reachable hc)).1
      2 call form basicAuth response hi hexchanges
  exact ⟨c, call, form, basicAuth, response, input, userId, hi, hexchanges, hagree,
    of_decide_eq_true hnonce⟩

/-- **An empty nonce is recorded and not carried.**  The code of call 1 is stored
with the nonce `""`, and the ID token it is exchanged for has no nonce. -/
theorem empty_nonce_not_carried :
    ∃ (c : ServerConfig) (call : ServerCall) (form : TokenForm) (basicAuth : Option BasicAuth)
      (response : TokenResponse) (idToken : Jws),
      sampleRun (loginMoves 0 "al@x.io" "Al 1" ++ authorizeMoves 1 "openid" (some "") ++
        exchangeMoves 2) = some c ∧
      c.world.codes.map AuthorizationCodeRow.nonce = [some ""] ∧ c.calls[2]? = some call ∧
      Exchanges call form basicAuth response ∧ response.idToken = some idToken ∧
      idToken.payload.nonce = none := by
  have hplay : (sampleRun (loginMoves 0 "al@x.io" "Al 1" ++ authorizeMoves 1 "openid" (some "") ++
      exchangeMoves 2)).any (fun c =>
        decide (c.world.codes.map AuthorizationCodeRow.nonce = [some ""]) &&
        (c.calls[2]?).any fun call => (exchangeOf call).any fun x =>
          x.2.2.idToken.any fun idToken => decide (idToken.payload.nonce = none)) = true := by
    decide +kernel
  obtain ⟨c, hc, hall⟩ := (Option.any_eq_true _ _).1 hplay
  simp only [Bool.and_eq_true, decide_eq_true_eq, Option.any_eq_true] at hall
  obtain ⟨hcodes, call, hi, ⟨form, basicAuth, response⟩, hexchange, idToken, hid, hnonce⟩ := hall
  exact ⟨c, call, form, basicAuth, response, idToken, hc, hcodes, hi, exchangeOf_eq_some hexchange,
    hid, hnonce⟩

end IdentityPlatform
