/-
# Redirects

What the redirect of an authorization request says to the client that parses it.  The
parameters of the registered URI are unchanged, a parameter `code` with the issued code
follows them, and after it the state, if it is one that `authorize` forwards
(`redirect_parameters`): 1 to 512 characters of `[A-Za-z0-9\-_.~]`.  The schema admits every
state of at most 512 characters, and the others are left out.

The parser of what comes before the query is a parameter.
-/

import IdentityPlatform.Protocol.Received

namespace IdentityPlatform

open Interleaving Program Machine AuthServer

/-- The state parameter of a redirect. -/
def stateParams (state : Option String) : Url.Params :=
  state.toList.map fun text => ("state".toList, text.toList)

section Url

variable {parseFront : List Char → Option (List Char)} {special : List Char → Bool}

/-- The text of a redirect whose URI has neither parameter. -/
theorem AuthorizeRedirect.url_eq {redirect : AuthorizeRedirect} {url : Url.Record}
    (hurl : Url.parseUrl parseFront special redirect.redirectUri.toList = some url)
    (hcode : ∀ pair ∈ url.params, pair.1 ≠ "code".toList)
    (hstate : ∀ pair ∈ url.params, pair.1 ≠ "state".toList) :
    redirect.url parseFront special = some (String.ofList (url.setQuery (url.params ++
      ("code".toList, redirect.code.toList) :: stateParams redirect.state)).href) := by
  obtain ⟨uri, code, state⟩ := redirect
  unfold AuthorizeRedirect.url
  refine (congrArg (Option.map _) hurl).trans
    (congrArg (fun params => some (String.ofList (url.setQuery params).href)) ?_)
  have hset : Url.setParam "code".toList code.toList url.params =
      url.params ++ [("code".toList, code.toList)] := Url.setParam_of_notMem hcode
  cases state with
  | none => exact hset
  | some state =>
      have hfresh : ∀ pair ∈ url.params ++ [("code".toList, code.toList)],
          pair.1 ≠ "state".toList := by
        intro pair hpair
        rcases List.mem_append.1 hpair with hpair | hpair
        · exact hstate pair hpair
        · obtain rfl := List.mem_singleton.1 hpair
          exact (by decide : "code".toList ≠ "state".toList)
      exact (congrArg (Url.setParam _ _) hset).trans
        ((Url.setParam_of_notMem hfresh).trans (List.append_assoc ..))

/-- **A redirect is parsed as the parameters of the URI, the code and the state.** -/
theorem AuthorizeRedirect.parse_url (hparser : Url.FrontParser parseFront)
    (redirect : AuthorizeRedirect) {url : Url.Record}
    (hurl : Url.parseUrl parseFront special redirect.redirectUri.toList = some url)
    (hcode : ∀ pair ∈ url.params, pair.1 ≠ "code".toList)
    (hstate : ∀ pair ∈ url.params, pair.1 ≠ "state".toList) :
    ∃ text url', redirect.url parseFront special = some text ∧
      Url.parseUrl parseFront special text.toList = some url' ∧
      url'.front = url.front ∧ url'.fragment = url.fragment ∧
      url'.params =
        url.params ++ ("code".toList, redirect.code.toList) :: stateParams redirect.state := by
  have hne :
      url.params ++ ("code".toList, redirect.code.toList) :: stateParams redirect.state ≠ [] :=
    List.append_ne_nil_of_right_ne_nil _ (List.cons_ne_nil _ _)
  have hhref := Url.parseUrl_href hparser hurl (Url.serialize_ne_nil hne)
  refine ⟨_, url.setQuery _, url_eq hurl hcode hstate, ?_, rfl, rfl, Url.params_setQuery url _⟩
  rw [String.toList_ofList]
  exact hhref

end Url

/-! ### Authorization requests -/

section Requests

variable {P : Platform} {c : ServerConfig} {i : ℕ} {call : ServerCall}

/-- **What an authorization request redirects to.** -/
theorem redirected (hv : (machine P).Valid c) (hi : c.calls[i]? = some call)
    {bearer : Option WireToken} {input : AuthorizeInput} {state : Option String}
    {redirect : AuthorizeRedirect} (hrequest : call.req.request = .authorize bearer input state)
    (hresult : call.result = some (.ok (.redirect redirect))) :
    redirect.redirectUri = input.redirectUri ∧
    redirect.state = state.filter (fun text => isState text) ∧
      call.log.Saw (.runtime .randomToken) (.ok redirect.code) ∧
      ∃ userId, call.log.Saw (.codes (.insert (P.sha256Hex redirect.code)
        { clientId := input.clientId, userId := userId, redirectUri := input.redirectUri
          scope := input.scope, nonce := input.nonce, codeChallenge := some input.codeChallenge
          codeChallengeMethod := some input.codeChallengeMethod
          ttlSeconds := P.config.authorizationCodeTtl })) (.ok ()) := by
  have hreturns := hv.returned hi hresult
  have hhandler : (machine P).handler call.req =
      AuthServer.authorize P bearer input state call.req.ctx := by
    change AuthServer.handler P call.req = _
    unfold AuthServer.handler
    rw [hrequest]
  rw [hhandler] at hreturns
  obtain ⟨l₁, user, _, _, hrest⟩ := hreturns.of_bind
  obtain ⟨l₂, answer, hauthorize, hs₂, hanswer⟩ := hrest.of_bind
  obtain rfl : answer = redirect := by
    obtain ⟨_, hanswer⟩ := returns_pure.1 hanswer
    injection hanswer with hanswer
    injection hanswer with hanswer
    exact hanswer.symm
  obtain ⟨l₃, _, _, _, hchecked⟩ := hauthorize.of_bind
  obtain ⟨l₄, userId, _, _, hidentified⟩ := hchecked.of_bind
  obtain ⟨l₅, _, _, _, hfound⟩ := hidentified.of_bind
  obtain ⟨l₆, _, _, _, hactive⟩ := hfound.of_bind
  obtain ⟨l₇, code, hissue, hs₇, hissued⟩ := hactive.of_bind
  obtain ⟨l₈, _, _, _, hrecorded⟩ := hissued.of_bind
  obtain ⟨l₉, token, htoken, hs₉, hstore⟩ := hissue.of_bind
  obtain ⟨l₁₀, _, hinsert, hs₁₀, hreturn⟩ := hstore.of_bind
  obtain rfl : code = token := Except.ok.inj (returns_pure.1 hreturn).2
  obtain rfl := Except.ok.inj (returns_pure.1 hrecorded).2
  have hsuffix := hs₇.trans hs₂
  exact ⟨rfl, rfl, htoken.saw.mono (hs₉.trans hsuffix), userId,
    hinsert.saw.mono (hs₁₀.trans hsuffix)⟩

/-- **The parameters of a redirect.**  An authorization request that is accepted has stored a
code, and its redirect is parsed as the URI with its own parameters, followed by this code and
by the state, if it is one that is forwarded. -/
theorem redirect_parameters (hreach : (machine P).Reachable World.Initial c)
    (hi : c.calls[i]? = some call) {bearer : Option WireToken} {input : AuthorizeInput}
    {state : Option String} {redirect : AuthorizeRedirect}
    (hrequest : call.req.request = .authorize bearer input state)
    (hresult : call.result = some (.ok (.redirect redirect)))
    {parseFront : List Char → Option (List Char)} {special : List Char → Bool}
    (hparser : Url.FrontParser parseFront) {url : Url.Record}
    (hurl : Url.parseUrl parseFront special input.redirectUri.toList = some url)
    (hcode : ∀ pair ∈ url.params, pair.1 ≠ "code".toList)
    (hstate : ∀ pair ∈ url.params, pair.1 ≠ "state".toList) :
    ∃ code data text url', call.log.Saw (.runtime .randomToken) (.ok code) ∧
      call.log.Saw (.codes (.insert (P.sha256Hex code) data)) (.ok ()) ∧
      data.clientId = input.clientId ∧ data.redirectUri = input.redirectUri ∧
      redirect.url parseFront special = some text ∧
      Url.parseUrl parseFront special text.toList = some url' ∧
      url'.front = url.front ∧ url'.fragment = url.fragment ∧
      url'.params = url.params ++ ("code".toList, code.toList) ::
        stateParams (state.filter fun text => isState text) := by
  obtain ⟨huri, hforwarded, htoken, userId, hinsert⟩ := redirected hreach.valid hi hrequest hresult
  obtain ⟨text, url', htext, hparsed, hfront, hfragment, hparams⟩ :=
    redirect.parse_url hparser (huri ▸ hurl) hcode hstate
  exact ⟨redirect.code, _, text, url', htoken, hinsert, rfl, rfl, htext, hparsed, hfront, hfragment,
    hforwarded ▸ hparams⟩

end Requests

/-! ### Sample runs -/

/-- The front of an `https` URL that has no separators and no newlines. -/
def isSampleFront (cs : List Char) : Bool :=
  "https://".toList.isPrefixOf cs && cs.all fun c => c ≠ '?' && c ≠ '#' && !Url.isNewline c

/-- A parser that takes these fronts as they are. -/
def sampleFront (cs : List Char) : Option (List Char) := if isSampleFront cs then some cs else none

theorem sampleFront_eq {cs front : List Char} (h : sampleFront cs = some front) :
    front = cs ∧ isSampleFront cs = true := by
  unfold sampleFront at h
  split_ifs at h with hfront
  exact ⟨(Option.some.inj h).symm, hfront⟩

theorem frontParser_sampleFront : Url.FrontParser sampleFront where
  stable cs front h := by
    obtain ⟨rfl, _⟩ := sampleFront_eq h
    exact h
  begins cs front h := by
    obtain ⟨rfl, hfront⟩ := sampleFront_eq h
    obtain ⟨rest, hrest⟩ := List.isPrefixOf_iff_prefix.1 (Bool.and_eq_true_iff.1 hfront).1
    exact ⟨'h', _, hrest.symm, by decide⟩
  chars cs front h c hc := by
    obtain ⟨rfl, hfront⟩ := sampleFront_eq h
    simpa [and_assoc] using List.all_eq_true.1 (Bool.and_eq_true_iff.1 hfront).2 c hc

/-- A login, and an authorization request with a state. -/
def stateMoves (uri state : String) : List (Move World Incoming Env) :=
  loginMoves 0 "al@x.io" "Al 1" ++
    [.accept fun w => ⟨.authorize (lastBearer w) ⟨"cli_spa", uri, "openid", none,
      "u" ++ sampleVerifier, .s256⟩ (some state), {}⟩, .steps 1 40]

/-- The redirect of an authorization request at the URI. -/
def redirectAt? (uri state : String) (call : ServerCall) : Option AuthorizeRedirect :=
  match call.req.request, call.result with
  | .authorize _ input (some sent), some (.ok (.redirect redirect)) =>
      if input.redirectUri = uri ∧ sent = state then some redirect else none
  | _, _ => none

theorem redirectAt_eq {uri state : String} {call : ServerCall} {redirect : AuthorizeRedirect}
    (h : redirectAt? uri state call = some redirect) : ∃ bearer input,
      call.req.request = .authorize bearer input (some state) ∧ input.redirectUri = uri ∧
      call.result = some (.ok (.redirect redirect)) := by
  unfold redirectAt? at h
  split at h
  · next bearer input sent answer hrequest hresult =>
      split_ifs at h with hsame
      obtain rfl := Option.some.inj h
      exact ⟨bearer, input, hsame.2 ▸ hrequest, hsame.1, hresult⟩
  · cases h

/-- A run with an accepted request, by its redirect. -/
theorem exists_redirect (uri state code : String) (forwarded : Option String)
    (hplay : (sampleRun (stateMoves uri state)).any (fun c => c.calls.any fun call =>
      decide (redirectAt? uri state call = some ⟨uri, code, forwarded⟩)) = true) :
    ∃ (c : ServerConfig) (i : ℕ) (call : ServerCall) (bearer : Option WireToken)
      (input : AuthorizeInput), (machine Platform.sample).Reachable World.Initial c ∧
      c.calls[i]? = some call ∧ call.req.request = .authorize bearer input (some state) ∧
      input.redirectUri = uri ∧
      call.result = some (.ok (.redirect ⟨uri, code, forwarded⟩)) := by
  obtain ⟨c, hc, hall⟩ := (Option.any_eq_true _ _).1 hplay
  obtain ⟨call, hcall, heq⟩ := List.any_eq_true.1 hall
  obtain ⟨i, hi⟩ := List.mem_iff_getElem?.1 hcall
  obtain ⟨bearer, input, hrequest, huri, hresult⟩ := redirectAt_eq (of_decide_eq_true heq)
  exact ⟨c, i, call, bearer, input, sampleRun_reachable hc, hi, hrequest, huri, hresult⟩

/-- The code that the sample run issues. -/
def sampleIssuedCode : String := "9200" ++ String.ofList (List.replicate 39 'x')

/-- A state that is forwarded, at a URI with a parameter of its own. -/
theorem redirect_parameters_of_forwarded : ∃ (text : String) (url : Url.Record) (code : String),
    AuthorizeRedirect.url sampleFront (fun _ => true)
      ⟨"https://spa.example.org/in?tenant=north+1", sampleIssuedCode, some "af0ifjsldkj"⟩ =
        some text ∧
    Url.parseUrl sampleFront (fun _ => true) text.toList = some url ∧
    url.front = "https://spa.example.org/in".toList ∧
    url.params = [("tenant".toList, "north 1".toList), ("code".toList, code.toList),
      ("state".toList, "af0ifjsldkj".toList)] := by
  obtain ⟨c, i, call, bearer, input, hreach, hi, hrequest, huri, hresult⟩ :=
    exists_redirect "https://spa.example.org/in?tenant=north+1" "af0ifjsldkj" sampleIssuedCode
      (some "af0ifjsldkj") (by decide +kernel)
  have hurl : Url.parseUrl sampleFront (fun _ => true) input.redirectUri.toList =
      some ⟨"https://spa.example.org/in".toList, some "tenant=north+1".toList, none⟩ := by
    rw [huri]
    decide +kernel
  have hown : Url.Record.params
      ⟨"https://spa.example.org/in".toList, some "tenant=north+1".toList, none⟩ =
        [("tenant".toList, "north 1".toList)] := by
    decide +kernel
  obtain ⟨code, _, text, url, _, _, _, _, htext, hparsed, hfront, _, hparams⟩ :=
    redirect_parameters hreach hi hrequest hresult frontParser_sampleFront hurl
      (by rw [hown]; decide) (by rw [hown]; decide)
  rw [hown] at hparams
  exact ⟨text, url, code, htext, hparsed, hfront, hparams⟩

/-- The other sample URI has no parameters. -/
theorem parseUrl_sampleUri :
    Url.parseUrl sampleFront (fun _ => true) "https://spa.example.org/cb".toList =
      some ⟨"https://spa.example.org/cb".toList, none, none⟩ := by
  decide +kernel

/-- **A state with a blank is lost.** -/
theorem state_left_out : ∃ (c : ServerConfig) (i : ℕ) (call : ServerCall)
    (bearer : Option WireToken) (input : AuthorizeInput) (redirect : AuthorizeRedirect)
    (text : String) (url : Url.Record), (machine Platform.sample).Reachable World.Initial c ∧
      c.calls[i]? = some call ∧ call.req.request = .authorize bearer input (some "a b") ∧
      jsLength "a b" ≤ 512 ∧ call.result = some (.ok (.redirect redirect)) ∧
      redirect.url sampleFront (fun _ => true) = some text ∧
      Url.parseUrl sampleFront (fun _ => true) text.toList = some url ∧
      ∀ pair ∈ url.params, pair.1 ≠ "state".toList := by
  obtain ⟨c, i, call, bearer, input, hreach, hi, hrequest, huri, hresult⟩ :=
    exists_redirect "https://spa.example.org/cb" "a b" sampleIssuedCode none (by decide +kernel)
  obtain ⟨text, url, htext, hparsed, _, _, hparams⟩ :=
    AuthorizeRedirect.parse_url frontParser_sampleFront
      ⟨"https://spa.example.org/cb", sampleIssuedCode, none⟩ parseUrl_sampleUri (by decide)
      (by decide)
  refine ⟨c, i, call, bearer, input, _, text, url, hreach, hi, hrequest, by decide +kernel, hresult,
    htext, hparsed, fun pair hpair => ?_⟩
  rw [hparams] at hpair
  obtain rfl := List.mem_singleton.1 hpair
  exact (by decide : "code".toList ≠ "state".toList)

end IdentityPlatform
