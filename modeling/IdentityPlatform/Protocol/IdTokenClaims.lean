/-
# ID tokens and `/userinfo`

An exchange decides on its ID token by searching the text of the scope (`includes`);
`/userinfo` splits the same text into names and looks for a name.  A client may be
registered with any names, so the two agree exactly when a standard name that some
granted name contains is itself granted.
-/

import IdentityPlatform.Protocol.ClaimTexts

namespace IdentityPlatform

open Interleaving Program Relational Machine AuthServer

variable {P : Platform} {c : ServerConfig} {i : ℕ} {call : ServerCall} {l₀ l : ServerLog}
  {scope userId : String} {user : UserRow}

/-- The ID token of an exchange keeps to what `/userinfo` accepts and releases for the
access token it comes with. -/
structure AgreesWithUserinfo (response : TokenResponse) : Prop where
  issued : response.idToken.isSome = true ↔ "openid" ∈ scopesOf response.accessToken
  email : ∀ token, response.idToken = some token → token.payload.email.isSome = true →
    "openid" ∈ scopesOf response.accessToken ∧ "email" ∈ scopesOf response.accessToken
  names : ∀ token, response.idToken = some token →
    token.payload.givenName.isSome = true ∨ token.payload.familyName.isSome = true →
    "openid" ∈ scopesOf response.accessToken ∧ "profile" ∈ scopesOf response.accessToken

/-- If some name of the scope contains `name`, then `name` is one of them. -/
def Whole (scope name : String) : Prop :=
  (∃ s ∈ words scope, includesText s name = true) → name ∈ words scope

instance (scope name : String) : Decidable (Whole scope name) := by
  unfold Whole
  infer_instance

/-- The standard names are not merely contained in others. -/
structure StandardNamesWhole (scope : String) (user : UserRow) : Prop where
  openid : Whole scope "openid"
  email : "openid" ∈ words scope → Whole scope "email"
  profile : "openid" ∈ words scope → user.firstName.isSome = true ∨ user.lastName.isSome = true →
    Whole scope "profile"

/-- What decides on the claims of an ID token: the text of the scope. -/
structure DecidedByText (scope : String) (user : UserRow) (idToken : Option Jws) : Prop where
  issued : idToken.isSome = true ↔ includesText scope "openid" = true
  email : ∀ token, idToken = some token →
    (token.payload.email.isSome = true ↔ includesText scope "email" = true)
  names : ∀ token, idToken = some token →
    (token.payload.givenName.isSome = true ∨ token.payload.familyName.isSome = true ↔
      includesText scope "profile" = true ∧
        (user.firstName.isSome = true ∨ user.lastName.isSome = true))

theorem whole_iff {name : String} (hname : IsWord name) :
    Whole scope name ↔ (includesText scope name = true → name ∈ words scope) := by
  rw [includesText_iff hname]
  rfl

theorem includesText_of_mem {name : String} (h : name ∈ words scope) :
    includesText scope name = true :=
  (includesText_iff (isWord_of_mem h)).2 ⟨name, h, by simp [includesText]⟩

/-- A standard name is a word. -/
theorem isWord_standard {name : String} (h : name ∈ ["openid", "email", "profile"]) :
    IsWord name := by
  have hall : ∀ name ∈ ["openid", "email", "profile"], isScopeName name = true := by decide +kernel
  exact (isItem_of_isScopeName (hall name h)).isWord

/-- **The text and the names decide alike** exactly when the standard names are whole. -/
theorem DecidedByText.agrees_iff {response : TokenResponse}
    (h : DecidedByText scope user response.idToken)
    (hscope : response.accessToken.payload.scope = some scope) :
    AgreesWithUserinfo response ↔ StandardNamesWhole scope user := by
  have hscopes : scopesOf response.accessToken = words scope := by
    rw [scopesOf, hscope, Option.getD_some]
  have hopenid : Whole scope "openid" ↔
      (includesText scope "openid" = true → "openid" ∈ words scope) :=
    whole_iff (isWord_standard (by simp))
  have hemail : Whole scope "email" ↔ (includesText scope "email" = true → "email" ∈ words scope) :=
    whole_iff (isWord_standard (by simp))
  have hprofile : Whole scope "profile" ↔
      (includesText scope "profile" = true → "profile" ∈ words scope) :=
    whole_iff (isWord_standard (by simp))
  -- an ID token for every scope with `openid` in it
  have htoken : "openid" ∈ words scope → ∃ token, response.idToken = some token := fun hmem =>
    Option.isSome_iff_exists.1 (h.issued.2 (includesText_of_mem hmem))
  constructor
  · intro hagrees
    refine ⟨hopenid.2 fun htext => ?_, fun hmem => hemail.2 fun htext => ?_,
      fun hmem huser => hprofile.2 fun htext => ?_⟩
    · exact hscopes ▸ hagrees.issued.1 (h.issued.2 htext)
    · obtain ⟨token, hissued⟩ := htoken hmem
      exact hscopes ▸ (hagrees.email token hissued ((h.email token hissued).2 htext)).2
    · obtain ⟨token, hissued⟩ := htoken hmem
      exact hscopes ▸ (hagrees.names token hissued ((h.names token hissued).2 ⟨htext, huser⟩)).2
  · intro hwhole
    have hmem : ∀ token, response.idToken = some token → "openid" ∈ words scope := fun token ht =>
      hopenid.1 hwhole.openid (h.issued.1 (Option.isSome_of_eq_some ht))
    constructor
    · rw [hscopes, h.issued]
      exact ⟨hopenid.1 hwhole.openid, includesText_of_mem⟩
    · intro token ht hclaim
      rw [hscopes]
      exact ⟨hmem token ht, hemail.1 (hwhole.email (hmem token ht)) ((h.email token ht).1 hclaim)⟩
    · intro token ht hclaim
      rw [hscopes]
      obtain ⟨htext, huser⟩ := (h.names token ht).1 hclaim
      exact ⟨hmem token ht, hprofile.1 (hwhole.profile (hmem token ht) huser) htext⟩

/-! ### The exchange -/

/-- The claims an exchange gives an ID token. -/
def idTokenClaims (user : Option UserRow) (scope : String) (nonce : Option String) :
    IdTokenClaims where
  nonce := nonce.filter (· ≠ "")
  email := if includesText scope "email" then user.map UserRow.email else none
  givenName := if includesText scope "profile" then user.bind UserRow.firstName else none
  familyName := if includesText scope "profile" then user.bind UserRow.lastName else none

/-- The ID token of an exchange, or none. -/
inductive IdTokenIssued (P : Platform) (l₀ l : ServerLog) (userId : String)
    (client : OAuthClientRow) (scope : String) (nonce : Option String) : Option Jws → Prop
  | withheld (text : includesText scope "openid" = false) :
      IdTokenIssued P l₀ l userId client scope nonce none
  | issued {user kid now token} (text : includesText scope "openid" = true)
      (read : Log.SawSince l₀ l (.users (.findById userId)) (.ok user))
      (signed : l.Saw (.kms (.sign kid (JwtService.idTokenPayload P (idTokenClaims user scope nonce)
        client.clientId userId now P.config.idTokenTtl))) (.ok token)) :
      IdTokenIssued P l₀ l userId client scope nonce (some token)

theorem IdTokenIssued.mono {client : OAuthClientRow} {nonce : Option String} {idToken : Option Jws}
    {l₁ l' : ServerLog} (h : IdTokenIssued P l₁ l userId client scope nonce idToken)
    (h₀ : l₀ <:+ l₁) (hl : l <:+ l') : IdTokenIssued P l₀ l' userId client scope nonce idToken := by
  cases h with
  | withheld text => exact .withheld text
  | issued text read signed => exact .issued text (read.mono h₀ hl) (signed.mono hl)

namespace OAuthService

theorem issueIdToken_issued {client : OAuthClientRow} {nonce : Option String} {r : Option Jws}
    (h : (issueIdToken P userId client scope nonce).Returns l₀ l (.ok r)) :
    IdTokenIssued P l₀ l userId client scope nonce r := by
  unfold issueIdToken at h
  split at h
  · rename_i htext
    obtain ⟨l₁, user, h₁, hs₁, h⟩ := Returns.of_bind h
    obtain ⟨l₂, idToken, h₂, hs₂, h⟩ := Returns.of_bind h
    cases (returns_pure.1 h).2
    obtain ⟨kid, now, hsign⟩ := JwtService.signIdToken_ok h₂
    exact .issued htext ⟨l₀, List.suffix_refl _, h₁.step.mono hs₁⟩ (hsign.mono hs₂)
  · rename_i htext
    cases (returns_pure.1 h).2
    exact .withheld (by simpa using htext)

/-- The tokens of an exchange: the refresh token comes first, and the ID token goes by the
scope of the access token. -/
theorem issueUserTokens_issued {client : OAuthClientRow} {nonce : Option String}
    {ctx : RequestContext} {response : TokenResponse}
    (h : (issueUserTokens P userId client scope nonce ctx).Returns l₀ l (.ok response)) :
    ∃ l₁ : ServerLog, ∃ input : AccessTokenInput, ∃ data : IssueRefreshData,
      (input.sub = userId ∧ input.scope = scope) ∧
      JwtService.Signed P l input response.accessToken ∧
      l₁ <:+ l ∧ data.userId = userId ∧ l₁.Saw (.refreshTokens (.insert data)) (.ok ()) ∧
      IdTokenIssued P l₁ l userId client scope nonce response.idToken := by
  obtain ⟨l₁, roles, _, _, h⟩ := h.of_bind
  obtain ⟨l₂, permissions, h₂, hs₂, h⟩ := h.of_bind
  obtain ⟨l₃, session, h₃, hs₃, h⟩ := h.of_bind
  obtain ⟨l₄, signed, h₄, hs₄, h⟩ := h.of_bind
  obtain ⟨l₅, refresh, h₅, hs₅, h⟩ := h.of_bind
  obtain ⟨l₆, idToken, h₆, hs₆, h⟩ := h.of_bind
  obtain ⟨l₇, _, _, _, h⟩ := h.of_bind
  obtain ⟨l₈, expires, _, _, h⟩ := h.of_bind
  cases (returns_pure.1 h).2
  obtain ⟨_, _, _, hinsert⟩ := RefreshTokenService.issue_ok h₅
  exact ⟨l₅, _, _, ⟨rfl, rfl⟩, (JwtService.signAccessToken_ok h₄).mono hs₄, hs₅, rfl, hinsert,
    (issueIdToken_issued h₆).mono (List.suffix_refl _) hs₆⟩

/-- An exchange issues the tokens of the code it has consumed. -/
theorem authorizationCodeGrant_issues {form : TokenForm} {clientId : String}
    {client : OAuthClientRow}
    {secret : Option String} {ctx : RequestContext} {response : TokenResponse}
    (h : (authorizationCodeGrant P form clientId client secret ctx).Returns l₀ l (.ok response)) :
    ∃ l₁ id, ∃ codeRow : AuthorizationCodeRow, l₁.Saw (.codes (.consume id)) (.ok (some codeRow)) ∧
      (issueUserTokens P codeRow.userId client codeRow.scope codeRow.nonce ctx).Returns l₁ l
        (.ok response) := by
  obtain ⟨l₁, _, _, _, h⟩ := h.of_bind
  obtain ⟨l₂, _, _, _, h⟩ := h.of_bind
  obtain ⟨l₃, _, _, _, h⟩ := h.of_bind
  obtain ⟨l₄, _, _, _, h⟩ := h.of_bind
  obtain ⟨l₅, _, _, _, h⟩ := h.of_bind
  obtain ⟨l₆, _, _, _, h⟩ := h.of_bind
  obtain ⟨l₇, _, _, _, h⟩ := h.of_bind
  obtain ⟨l₈, _, _, _, h⟩ := h.of_bind
  obtain ⟨l₉, consumed, h₉, _, h⟩ := h.of_bind
  obtain ⟨l₁₀, codeRow, h₁₀, _, h⟩ := h.of_bind
  obtain ⟨rfl, rfl⟩ := returns_orThrow_ok.1 h₁₀
  obtain ⟨row', l', _, hconsume⟩ := AuthorizationCodeRepository.consume_ok (catchReplay_ok h₉)
  exact ⟨l₁₀, row'.code.id, codeRow, hconsume.saw, h⟩

theorem token_issues {form : TokenForm} {basicAuth : Option BasicAuth} {ctx : RequestContext}
    {response : TokenResponse} (h : (token P form basicAuth ctx).Returns l₀ l (.ok response))
    (hform : form.grantType = .authorizationCode) : ∃ l₁ client nonce id,
      ∃ codeRow : AuthorizationCodeRow, l₁.Saw (.codes (.consume id)) (.ok (some codeRow)) ∧
      (issueUserTokens P codeRow.userId client codeRow.scope nonce ctx).Returns l₁ l
        (.ok response) := by
  obtain ⟨l₁, clientId, _, _, h⟩ := h.of_bind
  obtain ⟨l₂, found, _, _, h⟩ := h.of_bind
  obtain ⟨l₃, client, _, _, h⟩ := h.of_bind
  rw [hform] at h
  obtain ⟨l₄, id, codeRow, hconsumed, h⟩ := authorizationCodeGrant_issues h
  exact ⟨l₄, client, _, id, codeRow, hconsumed, h⟩

end OAuthService

/-- Where a user has been found once, it is found later. -/
theorem World.Le.user_some {w w' : World} (hle : w.Le w') (h : w.hasUser userId) :
    ∃ user, w'.user userId = some user := by
  obtain ⟨a, ha, hid⟩ := h
  obtain ⟨b, hb, hrow⟩ := hle.users a ha
  refine Option.ne_none_iff_exists'.1 fun hnone => ?_
  exact lookup_eq_none hnone b hb (hrow.id.trans hid)

/-- The text of the scope decides on the ID token of an exchange. -/
theorem IdTokenIssued.decided {client : OAuthClientRow} {nonce : Option String}
    {idToken : Option Jws}
    {data : IssueRefreshData} (h : IdTokenIssued P l₀ call.log userId client scope nonce idToken)
    (hinserted : Log.Saw l₀ (.refreshTokens (.insert data)) (.ok ())) (hdata : data.userId = userId)
    (hsuffix : l₀ <:+ call.log) (hreach : (machine P).Reachable World.Initial c)
    (hi : c.calls[i]? = some call) : ∃ user, (∃ e ∈ call.log, e.pre.user userId = some user) ∧
      DecidedByText scope user idToken := by
  have hord := hreach.ordered (le_stable P)
  obtain ⟨n, pre, post, hmem⟩ := hinserted
  have huser : pre.hasUser userId :=
    hdata ▸ (Stmt.insertRefreshToken_references (executed hreach.valid hi (hsuffix.subset hmem))).2
  cases h with
  | withheld text =>
      obtain ⟨user, hfound⟩ := (World.Le.refl pre).user_some huser
      refine ⟨user, ⟨_, hsuffix.subset hmem, hfound⟩, ?_, ?_, ?_⟩
      · simp [text]
      · intro token htoken
        cases htoken
      · intro token htoken
        cases htoken
  | @issued found kid now token text read signed =>
      obtain ⟨l', hl', m, before, after, hstep⟩ := read
      have hread := hstep.subset (List.mem_cons_self ..)
      have hle : pre.Le before := (hord.answer hi _ (hsuffix.subset hmem)).trans
        (hord.earlier hreach.valid hi hstep (hl'.subset hmem))
      obtain ⟨user, hfound⟩ := hle.user_some huser
      obtain rfl : found = some user :=
        (Stmt.findById_answer (executed hreach.valid hi hread)).trans hfound
      obtain ⟨_, _, _, _, hans⟩ := answered hreach.valid hi signed
      have hpayload := (Stmt.sign_answer hans).1
      refine ⟨user, ⟨_, hread, hfound⟩, ?_, ?_, ?_⟩
      · simp [text]
      · rintro _ ⟨rfl⟩
        by_cases hemail : includesText scope "email" = true <;>
          simp [hpayload, JwtService.idTokenPayload, idTokenClaims, hemail]
      · rintro _ ⟨rfl⟩
        by_cases hprofile : includesText scope "profile" = true <;>
          simp [hpayload, JwtService.idTokenPayload, idTokenClaims, hprofile]

/-! ### `/userinfo` -/

/-- What `/userinfo` answers for an access token. -/
structure ReleasedFor (token : Jws) (info : UserInfo) : Prop where
  openid : "openid" ∈ scopesOf token
  email : info.email.isSome = true ↔ "email" ∈ scopesOf token
  names : info.givenName.isSome = true ∨ info.familyName.isSome = true → "profile" ∈ scopesOf token

/-- **`/userinfo` goes by the names of the scope.** -/
theorem userinfo_released (hv : (machine P).Valid c) (hi : c.calls[i]? = some call) {token : Jws}
    {info : UserInfo} (hrequest : call.req.request = .userinfo (some (.jws token)))
    (hresult : call.result = some (.ok (.userInfo info))) : ReleasedFor token info := by
  have h := hv.returned hi hresult
  generalize call.req = incoming at h hrequest
  obtain ⟨_, ctx⟩ := incoming
  subst hrequest
  obtain ⟨l₁, user, h₁, hs₁, h⟩ := Returns.of_bind h
  obtain ⟨l₂, _, h₂, _, h⟩ := h.of_bind
  obtain ⟨l₃, found, _, _, h⟩ := h.of_bind
  obtain ⟨l₄, row, _, _, h⟩ := h.of_bind
  cases (returns_pure.1 h).2
  obtain ⟨_, payload, ⟨rfl⟩, haccepted, rfl⟩ := authenticate_ok h₁
  obtain ⟨kid, hverified⟩ := (haccepted.mono hs₁).verified
  obtain ⟨_, _, _, _, hans⟩ := answered hv hi hverified
  obtain rfl := (Stmt.jwtVerify_answer hans).1
  have hopenid : "openid" ∈ scopesOf token := not_not.1 (returns_throwIf_ok.1 h₂).2
  refine ⟨hopenid, ?_, ?_⟩
  · by_cases hemail : "email" ∈ scopesOf token <;>
      simp [show words (AuthenticatedUser.ofPayload token.payload).scope = scopesOf token from rfl,
        hemail]
  · by_cases hprofile : "profile" ∈ scopesOf token <;>
      simp [show words (AuthenticatedUser.ofPayload token.payload).scope = scopesOf token from rfl,
        hprofile]

/-- **When an ID token agrees with `/userinfo`.**  The access token of an exchange is for
the scope of the code, and the ID token beside it goes with what `/userinfo` accepts and
releases for that access token if and only if every standard name that is contained in a
name of the scope is a name of the scope. -/
theorem id_token_agrees_iff (hreach : (machine P).Reachable World.Initial c)
    (hi : c.calls[i]? = some call) {form : TokenForm} {basicAuth : Option BasicAuth}
    (hrequest : call.req.request = .token form basicAuth)
    (hform : form.grantType = .authorizationCode) {response : TokenResponse}
    (hresult : call.result = some (.ok (.tokens response))) :
    (∃ id, ∃ codeRow : AuthorizationCodeRow, ∃ user,
      Log.Saw call.log (.codes (.consume id)) (.ok (some codeRow)) ∧
      response.accessToken.payload.scope = some codeRow.scope ∧
      (∃ e ∈ call.log, e.pre.user response.accessToken.payload.sub = some user) ∧
      (AgreesWithUserinfo response ↔ StandardNamesWhole codeRow.scope user)) ∧
    ∀ (j : ℕ) reader info, c.calls[j]? = some reader →
      reader.req.request = .userinfo (some (.jws response.accessToken)) →
      reader.result = some (.ok (.userInfo info)) → ReleasedFor response.accessToken info := by
  refine ⟨?_, fun j reader info hj hread hanswer =>
    userinfo_released hreach.valid hj hread hanswer⟩
  have h := hreach.valid.returned hi hresult
  generalize call.req = incoming at h hrequest
  obtain ⟨_, ctx⟩ := incoming
  subst hrequest
  obtain ⟨l₁, result, h₁, _, h⟩ := Returns.of_bind h
  obtain ⟨hlog, hr⟩ := returns_pure.1 h
  cases hr
  rw [← hlog] at h₁
  obtain ⟨l₂, client, nonce, id, codeRow, hconsumed, h₂⟩ := OAuthService.token_issues h₁ hform
  obtain ⟨l₃, input, data, ⟨hsub, hscope⟩, hsigned, hsuffix, hdata, hinserted, hissued⟩ :=
    OAuthService.issueUserTokens_issued h₂
  obtain ⟨jti, now, hpayload⟩ := hsigned.payload hreach.valid hi
  have hcarried : response.accessToken.payload.scope = some codeRow.scope := by
    rw [hpayload, ← hscope]
    rfl
  obtain ⟨user, hfound, hdecided⟩ := hissued.decided hinserted hdata hsuffix hreach hi
  refine ⟨id, codeRow, user, hconsumed.mono h₂.suffix, hcarried, ?_, hdecided.agrees_iff hcarried⟩
  rwa [hsigned.sub hreach.valid hi, hsub]

/-- Call `i` presents at `/userinfo` the access token that was signed before the newest
token. -/
def userinfoMoves (i : ℕ) : List (Move World Incoming Env) :=
  [.accept fun w => ⟨.userinfo (w.signed[1]?.map .jws), {}⟩, .steps i 40]

/-- An ID token for the scope `openid api.read`. -/
theorem id_token_agrees_iff_of_exchange :
    ∃ (c : ServerConfig) (response : TokenResponse),
      sampleRun (loginMoves 0 "al@x.io" "Al 1" ++ authorizeMoves 1 "openid api.read" none ++
        exchangeMoves 2) = some c ∧ c.returned 2 = some (.tokens response) ∧
      response.idToken.isSome = true ∧ AgreesWithUserinfo response := by
  have hplay : (sampleRun (loginMoves 0 "al@x.io" "Al 1" ++
      authorizeMoves 1 "openid api.read" none ++ exchangeMoves 2)).any (fun c =>
      (c.calls[2]?).any fun call => (tokenAnswer? call).any fun x =>
        decide (x.1.grantType = .authorizationCode ∧ x.2.2.idToken.isSome = true ∧
          x.2.2.accessToken.payload.scope = some "openid api.read")) = true := by
    decide +kernel
  obtain ⟨c, hc, hall⟩ := (Option.any_eq_true _ _).1 hplay
  obtain ⟨call, hi, hall⟩ := (Option.any_eq_true _ _).1 hall
  obtain ⟨⟨form, basicAuth, response⟩, hx, hanswer⟩ := (Option.any_eq_true _ _).1 hall
  obtain ⟨hform, hissued, hscope⟩ := of_decide_eq_true hanswer
  obtain ⟨hrequest, hresult⟩ := tokenAnswer?_eq_some hx
  obtain ⟨⟨id, codeRow, user, _, hcode, _, hagrees⟩, _⟩ :=
    id_token_agrees_iff (sampleRun_reachable hc) hi hrequest hform hresult
  have hreturned : c.returned 2 = some (.tokens response) := by
    simp [Config.returned, hi, hresult, Except.toOption]
  refine ⟨c, response, hc, hreturned, hissued, hagrees.2 ?_⟩
  rw [← Option.some.inj (hscope.symm.trans hcode)]
  exact ⟨by decide +kernel, fun _ => by decide +kernel, fun _ _ => by decide +kernel⟩

/-- A client that may ask for `openid_x` and `email_y` is registered, and a user signs in
to it. -/
def longNamesMoves : List (Move World Incoming Env) :=
  loginMoves 0 "ro@x.io" "Ro 1" ++
    createClientMoves 1 (sampleClient ["openid_x", "email_y"] ["authorization_code"]) ++
    loginMoves 2 "al@x.io" "Al 1" ++ authorizeNewestMoves 3 "openid_x email_y" ++
    exchangeNewestMoves 4 ++ userinfoMoves 5

/-- **A name that contains `openid` is taken for it.**  The exchange issues an ID token with
the address of the user, and `/userinfo` refuses the access token beside it. -/
theorem id_token_beyond_userinfo :
    ∃ (c : ServerConfig) (response : TokenResponse) (idToken : Jws),
      sampleRun longNamesMoves = some c ∧ c.returned 4 = some (.tokens response) ∧
      response.accessToken.payload.scope = some "openid_x email_y" ∧
      response.idToken = some idToken ∧ idToken.payload.email = some "al@x.io" ∧
      ¬AgreesWithUserinfo response ∧
      c.calls[5]?.map (·.req.request) = some (.userinfo (some (.jws response.accessToken))) ∧
      c.calls[5]?.bind (·.result) =
        some (.error (.appError 403 "insufficient_scope" "openid scope required")) := by
  have hplay : (sampleRun longNamesMoves).any (fun c =>
      (c.calls[4]?).any fun call => (tokenAnswer? call).any fun x => x.2.2.idToken.any
      fun idToken =>
        decide (x.2.2.accessToken.payload.scope = some "openid_x email_y" ∧
          idToken.payload.email = some "al@x.io" ∧ "openid" ∉ scopesOf x.2.2.accessToken ∧
          c.calls[5]?.map (·.req.request) = some (.userinfo (some (.jws x.2.2.accessToken))) ∧
          c.calls[5]?.bind (·.result) =
            some (.error (.appError 403 "insufficient_scope" "openid scope required")))) =
            true := by
    decide +kernel
  obtain ⟨c, hc, hall⟩ := (Option.any_eq_true _ _).1 hplay
  obtain ⟨call, hi, hall⟩ := (Option.any_eq_true _ _).1 hall
  obtain ⟨⟨form, basicAuth, response⟩, hx, hall⟩ := (Option.any_eq_true _ _).1 hall
  obtain ⟨idToken, hissued, hall⟩ := (Option.any_eq_true _ _).1 hall
  obtain ⟨hscope, hemail, hopenid, hrequest, hresult⟩ := of_decide_eq_true hall
  have hreturned : c.returned 4 = some (.tokens response) := by
    simp [Config.returned, hi, (tokenAnswer?_eq_some hx).2, Except.toOption]
  refine ⟨c, response, idToken, hc, hreturned, hscope, hissued, hemail, fun hagrees => ?_,
    hrequest, hresult⟩
  exact hopenid (hagrees.issued.1 (Option.isSome_of_eq_some hissued))

end IdentityPlatform
