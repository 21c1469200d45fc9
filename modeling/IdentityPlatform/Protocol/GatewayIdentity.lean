/-
# The identity behind the gateway

The gateway encodes the claims of a verified token in headers, and the resource API
decodes them with another splitting rule.  For the tokens that are issued the two agree,
and nothing else of the request has a say in it.
-/

import IdentityPlatform.Interleaving.Observer
import IdentityPlatform.Modules.Gateway
import IdentityPlatform.Modules.Resources
import IdentityPlatform.Protocol.ClaimTexts

namespace IdentityPlatform

open Interleaving Program Relational Machine AuthServer Http

variable {P : Platform} {c c' : ServerConfig} {w : World} {config : GatewayConfig}
  {headers forwarded : Headers} {lines : List (String × String)} {l₀ l : ServerLog}

/-! ### Decoding -/

/-- A text behind `asString`, the empty one included. -/
theorem asString_getD {value : String} :
    (ResourceApi.asString (some (.text value))).getD "" = value := by
  by_cases h : value = "" <;> simp [ResourceApi.asString, Option.filter, h]

theorem asString_of_ne {value : String} (h : value ≠ "") :
    ResourceApi.asString (some (.text value)) = some value := by
  simp [ResourceApi.asString, Option.filter, h]

theorem isListSpace_of_isBlank (ch : Char) (h : isBlank ch = true) : isListSpace ch = true := by
  rcases Bool.or_eq_true_iff.1 h with h | h <;>
    · obtain rfl := of_decide_eq_true h
      rfl

theorem IsItem.trimBlanks {value : String} (h : IsItem value) : trimBlanks value = value :=
  trimBlanks_of_clear fun ch hch => by
    by_contra hblank
    have hspace := isListSpace_of_isBlank ch (by simpa using hblank)
    rw [h.clear ch hch] at hspace
    cases hspace

theorem IsItem.ne_empty {value : String} (h : IsItem value) : value ≠ "" := by
  rintro rfl
  exact h.ne_nil rfl

/-- The white space around a list does not count. -/
theorem splitCsvOrSpace_trimBlanks {value : String} :
    ResourceApi.splitCsvOrSpace (ResourceApi.asString (some (.text (trimBlanks value)))) =
      (Splitting.runs isListSpace value.toList).map String.ofList := by
  rw [ResourceApi.splitCsvOrSpace, asString_getD, trimBlanks, String.toList_ofList,
    Splitting.runs_trim isListSpace_of_isBlank]

/-- **The two rules agree on scopes**: there are no commas in the names. -/
theorem splitCsvOrSpace_scope {scope : String} (h : ScopeNames scope) :
    ResourceApi.splitCsvOrSpace (ResourceApi.asString (some (.text (trimBlanks scope)))) =
      words scope := by
  rw [splitCsvOrSpace_trimBlanks, words, splitSpaces_eq_runs]
  congr 1
  refine Splitting.runs_congr fun ch hch => ?_
  by_cases hspace : isSpace ch = true
  · simp [isListSpace, hspace]
  · have hclear : isSpace ch = false := by simpa using hspace
    obtain ⟨run, hrun, hmem⟩ := Splitting.mem_runs hch hclear
    have hword : String.ofList run ∈ words scope :=
      List.mem_map.2 ⟨run, splitSpaces_eq_runs _ ▸ hrun, rfl⟩
    have hitem := isItem_of_isScopeName (h _ hword)
    rw [hclear, hitem.clear ch (by simpa using hmem)]

/-- **The two rules agree on roles**: they are items. -/
theorem splitCsvOrSpace_roles {roles : List String} (h : ∀ role ∈ roles, IsItem role) :
    ResourceApi.splitCsvOrSpace
        (ResourceApi.asString (some (.text (trimBlanks (String.intercalate "," roles))))) =
      roles := by
  have hruns : Splitting.runs isListSpace ([','].intercalate (roles.map String.toList)) =
      roles.map String.toList :=
    Splitting.runs_intercalate (by simp) (by simp; rfl) (by simpa using h)
  rw [splitCsvOrSpace_trimBlanks, String.toList_intercalate]
  exact (congrArg (List.map String.ofList) hruns).trans (by simp)

/-! ### Encoding -/

theorem get_setIfPresent_ne {name name' : String} {value : Option String} {h h' : Headers}
    (hset : Gateway.setIfPresent name value h = some h') (hne : name' ≠ lowerCase name) :
    h'.get name' = h.get name' := by
  unfold Gateway.setIfPresent at hset
  split at hset
  · obtain ⟨_, rfl⟩ := Headers.setHeader_eq_some.1 hset
    exact Headers.get_put_ne hne
  · obtain rfl := Option.some.inj hset
    rfl

theorem get_setIfPresent_self {name : String} {value : Option String} {h h' : Headers}
    (hset : Gateway.setIfPresent name value h = some h') (hnone : h.get (lowerCase name) = none) :
    h'.get (lowerCase name) = (value.filter (· ≠ "")).map .text := by
  unfold Gateway.setIfPresent at hset
  split at hset
  · rename_i value' hvalue
    obtain ⟨_, rfl⟩ := Headers.setHeader_eq_some.1 hset
    rw [hvalue, Headers.get_put_self, Option.map_some]
  · rename_i hvalue
    obtain rfl := Option.some.inj hset
    rw [hvalue, hnone, Option.map_none]

/-- **The identity headers of the request that is sent on.** -/
theorem proxyReq_headers {user : AuthenticatedUser} {id : Option String}
    (h : Gateway.proxyReq config user id headers = some forwarded)
    (hclient : headers.get "x-client-id" = none) :
    forwarded.get "x-user-id" = some (.text user.sub) ∧
      forwarded.get "x-user-scopes" = some (.text user.scope) ∧
      forwarded.get "x-user-roles" = some (.text (String.intercalate "," (user.roles.getD []))) ∧
      forwarded.get "x-client-id" = (user.clientId.filter (· ≠ "")).map .text := by
  simp only [Gateway.proxyReq, Option.bind_eq_bind, Option.bind_eq_some_iff] at h
  obtain ⟨h₆, ⟨h₅, ⟨h₄, ⟨h₃, h⟩, hcid⟩, hrequest⟩, hsecret⟩ := h
  obtain ⟨⟨h₂, ⟨h₁, hid, hscopes⟩, hroles⟩, hsid⟩ := h
  obtain ⟨_, rfl⟩ := Headers.setHeader_eq_some.1 hid
  obtain ⟨_, rfl⟩ := Headers.setHeader_eq_some.1 hscopes
  obtain ⟨_, rfl⟩ := Headers.setHeader_eq_some.1 hroles
  have hearlier : ∀ name, name ≠ lowerCase "X-Request-Id" → name ≠ lowerCase "X-Internal-Secret" →
      forwarded.get name = h₅.get name := fun name hne hne' =>
    (get_setIfPresent_ne hsecret hne').trans (get_setIfPresent_ne hrequest hne)
  have hfirst : ∀ name, name ≠ lowerCase "X-Request-Id" → name ≠ lowerCase "X-Internal-Secret" →
      name ≠ lowerCase "X-Client-Id" → name ≠ lowerCase "X-Token-Sid" → forwarded.get name =
        (((headers.put "X-User-Id" (.text user.sub)).put "X-User-Scopes" (.text user.scope)).put
          "X-User-Roles" (.text (String.intercalate "," (user.roles.getD [])))).get name :=
    fun name hne hne' hclientne hsidne => (hearlier name hne hne').trans
      ((get_setIfPresent_ne hcid hclientne).trans (get_setIfPresent_ne hsid hsidne))
  refine ⟨?_, ?_, ?_, ?_⟩
  · rw [hfirst _ (by decide +kernel) (by decide +kernel) (by decide +kernel) (by decide +kernel),
      Headers.get_put_ne (by decide +kernel), Headers.get_put_ne (by decide +kernel)]
    exact Headers.get_put_self
  · rw [hfirst _ (by decide +kernel) (by decide +kernel) (by decide +kernel) (by decide +kernel),
      Headers.get_put_ne (by decide +kernel)]
    exact Headers.get_put_self
  · rw [hfirst _ (by decide +kernel) (by decide +kernel) (by decide +kernel) (by decide +kernel)]
    exact Headers.get_put_self
  · rw [hearlier _ (by decide +kernel) (by decide +kernel)]
    refine get_setIfPresent_self hcid ?_
    rw [get_setIfPresent_ne hsid (by decide +kernel), Headers.get_put_ne (by decide +kernel),
      Headers.get_put_ne (by decide +kernel), Headers.get_put_ne (by decide +kernel)]
    exact hclient

/-- No identity header of the client is left. -/
theorem get_stripped {name : String} (hname : name ∈ protectedHeaders) :
    (protectedHeaders.foldl Headers.delete headers).get name = none := by
  have hkept : ∀ (names : List String) (h : Headers), h.get name = none →
      (names.foldl Headers.delete h).get name = none := by
    intro names
    induction names with
    | nil => exact fun _ h => h
    | cons d names ih =>
        intro h hnone
        refine ih _ ?_
        by_cases hd : name = d
        · exact hd ▸ Headers.get_delete_self
        · rw [Headers.get_delete_ne hd, hnone]
  generalize protectedHeaders = names at hname
  induction names generalizing headers with
  | nil => cases hname
  | cons d names ih =>
      rcases List.mem_cons.1 hname with rfl | hname
      · exact hkept names _ Headers.get_delete_self
      · exact ih hname

/-- The other headers of the client are left. -/
theorem get_stripped_ne {name : String} (hname : name ∉ protectedHeaders) :
    (protectedHeaders.foldl Headers.delete headers).get name = headers.get name := by
  generalize protectedHeaders = names at hname
  induction names generalizing headers with
  | nil => rfl
  | cons d names ih =>
      obtain ⟨hd, hnames⟩ : name ≠ d ∧ name ∉ names := by simpa using hname
      rw [List.foldl_cons, ih hnames, Headers.get_delete_ne hd]

/-! ### Verification at the edge -/

/-- A token that is verified has been checked against the published keys. -/
theorem verify_ok {token : WireToken} {payload : JwtPayload}
    (h : (RemoteTokenVerifier.verify config token).Returns l₀ l (.ok payload)) :
    ∃ jws kid, token = .jws jws ∧ l.Saw (.kms (.jwtVerify kid jws true)) (.ok payload) := by
  rcases returns_tryCatch.1 h with ⟨payload', hcheck, heq⟩ | ⟨_, _, _, hthrow⟩
  · cases heq
    cases token with
    | raw text => cases (returns_throw.1 hcheck).2
    | jws jws =>
        obtain ⟨l₁, _, _, _, hkey⟩ := hcheck.of_bind
        obtain ⟨l₂, kid, _, _, hverify⟩ := hkey.of_bind
        obtain ⟨l₃, payload', h₃, hl₃, hrest⟩ := hverify.of_bind
        obtain ⟨l₄, _, _, hl₄, hpure⟩ := hrest.of_bind
        cases (returns_pure.1 hpure).2
        exact ⟨jws, kid, rfl, h₃.saw.mono hl₃⟩
  · cases (returns_throw.1 hthrow).2

/-- The request carries the token in its `Authorization` header. -/
def Bears (config : GatewayConfig) (lines : List (String × String)) (token : Jws) : Prop :=
  ∃ text, Gateway.bearerToken (protectedHeaders.foldl Headers.delete (Headers.receive lines)) =
    some text ∧ config.parse text = .jws token

/-- The identity that the claims stand for. -/
structure ResourceIdentity.Of (identity : ResourceIdentity) (payload : JwtPayload) : Prop where
  userId : identity.userId = if isUuid payload.sub then some payload.sub else none
  clientId : identity.clientId = payload.clientId
  scopes : identity.scopes = words (payload.scope.getD "")
  roles : identity.roles = payload.roles.getD []

/-- `req.user` as the claims of a verified token give it. -/
def remoteUser (payload : JwtPayload) : AuthenticatedUser where
  sub := payload.sub
  scope := payload.scope.getD ""
  roles := some (payload.roles.getD [])
  permissions := some (payload.permissions.getD [])
  sid := payload.sid
  clientId := payload.clientId
  jti := payload.jti.getD "undefined"

/-- A request that is let through carries a token, whose claims make the headers. -/
theorem handle_ok {id : Option String} {sent : Option Headers}
    (h : (Gateway.handle config id lines).Returns l₀ l (.ok sent)) :
    ∃ token kid payload, Bears config lines token ∧
      l.Saw (.kms (.jwtVerify kid token true)) (.ok payload) ∧
      Gateway.proxyReq config (remoteUser payload) id
        (protectedHeaders.foldl Headers.delete (Headers.receive lines)) = sent := by
  obtain ⟨l₁, user, h₁, hl₁, hrest⟩ := h.of_bind
  obtain ⟨l₂, _, _, _, hpure⟩ := hrest.of_bind
  have hsent := Except.ok.inj (returns_pure.1 hpure).2
  obtain ⟨l₃, text, h₃, _, hverify⟩ := h₁.of_bind
  obtain ⟨l₄, payload, h₄, hl₄, huser⟩ := hverify.of_bind
  obtain ⟨_, htext⟩ := returns_orThrow_ok.1 h₃
  obtain ⟨token, kid, hparse, hsaw⟩ := verify_ok h₄
  obtain rfl := Except.ok.inj (returns_pure.1 huser).2
  exact ⟨token, kid, payload, ⟨text, htext, hparse⟩, hsaw.mono (hl₄.trans hl₁), hsent.symm⟩

/-- **What the resource API makes of the headers.** -/
theorem identity_of_headers {payload : JwtPayload} {secret : Option String}
    {identity : ResourceIdentity} (hplain : payload.Plain)
    (hscope : payload.scope.isSome = true)
    (huser : forwarded.get "x-user-id" = some (.text payload.sub))
    (hscopes : forwarded.get "x-user-scopes" = some (.text (payload.scope.getD "")))
    (hroles : forwarded.get "x-user-roles" =
      some (.text (String.intercalate "," (payload.roles.getD []))))
    (hclient : forwarded.get "x-client-id" = (payload.clientId.filter (· ≠ "")).map .text)
    (h : ResourceApi.handle secret forwarded.lines = .ok identity) : identity.Of payload := by
  have hidentity :
      ResourceApi.requireIdentity (Headers.receive forwarded.lines) = .ok identity := by
    rw [ResourceApi.handle] at h
    cases hsecret : ResourceApi.requireGatewaySecret secret (Headers.receive forwarded.lines) with
    | error e =>
        rw [hsecret] at h
        cases h
    | ok _ =>
        rw [hsecret] at h
        exact h
  simp only [ResourceApi.requireIdentity] at hidentity
  split_ifs at hidentity
  obtain rfl := Except.ok.inj hidentity
  obtain ⟨scope, hscope⟩ := Option.isSome_iff_exists.1 hscope
  rw [hscope, Option.getD_some] at hscopes
  constructor
  · rw [Headers.get_receive_lines huser (by decide), hplain.sub.trimBlanks,
      asString_of_ne hplain.sub.ne_empty]
    rfl
  · dsimp only
    cases hid : payload.clientId with
    | none =>
        rw [hid] at hclient
        rw [Headers.get_receive_lines_none hclient]
        rfl
    | some id =>
        have hitem := hplain.clientId id hid
        rw [hid, Option.filter_some, if_pos (by simpa using hitem.ne_empty)] at hclient
        rw [Headers.get_receive_lines hclient (by decide), hitem.trimBlanks,
          asString_of_ne hitem.ne_empty]
  · rw [Headers.get_receive_lines hscopes (by decide),
      splitCsvOrSpace_scope (hplain.scope scope hscope), hscope, Option.getD_some]
  · have hitems : ∀ role ∈ payload.roles.getD [], IsItem role := by
      have hseeded : ∀ role ∈ seededRoles, isScopeName role = true := by decide +kernel
      intro role hrole
      cases hsome : payload.roles with
      | none =>
          rw [hsome] at hrole
          cases hrole
      | some roles =>
          rw [hsome] at hrole
          exact isItem_of_isScopeName (hseeded role (hplain.roles roles hsome role hrole))
    dsimp only
    rw [Headers.get_receive_lines hroles (by decide), splitCsvOrSpace_roles hitems]

/-- A verified token is an access token that the server has signed. -/
theorem observed_token (hw : w.SetUp) (hrun : (machine P).Run (Config.initial w) c)
    {isUrl : String → Bool} (haccepted : ∀ call ∈ c'.calls, Accepted isUrl call.req.request)
    {α : Type} {p : Prog α} {r : Except Err α} (hobserves : (machine P).Observes c [] p l r c')
    {kid : String} {token : Jws} {payload : JwtPayload}
    (hsaw : l.Saw (.kms (.jwtVerify kid token true)) (.ok payload)) :
    payload = token.payload ∧ payload.scope.isSome = true ∧ token ∈ c'.world.signed ∧
      payload.Plain := by
  obtain ⟨c₁, h₁, h₂, hans⟩ := hobserves.saw hsaw
  obtain ⟨rfl, hsigned, _, hclaims⟩ := Stmt.jwtVerify_answer (Answers.exec hans)
  have hscope : token.payload.scope.isSome = true := by
    unfold KmsStmt.verifyClaims at hclaims
    split_ifs at hclaims with hrefused
    simp only [Bool.or_eq_true, Bool.true_and, not_or] at hrefused
    simpa [Option.isSome_iff_ne_none] using hrefused.1.1.1.2
  have hnow : token ∈ c'.world.signed := ((le_stable P).runs h₂).signed hsigned
  have hplain := run_plain hw ((hrun.trans h₁).trans h₂) haccepted
  exact ⟨rfl, hscope, hnow, hplain.signed token hnow hscope⟩

/-- The identity of a request that reaches the resource API is that of its token. -/
theorem reached_identity (hw : w.SetUp) (hrun : (machine P).Run (Config.initial w) c)
    {isUrl : String → Bool} (haccepted : ∀ call ∈ c'.calls, Accepted isUrl call.req.request)
    {id secret : Option String} {identity : ResourceIdentity}
    (hobserves : (machine P).Observes c [] (Gateway.handle config id lines) l
      (.ok (some forwarded)) c')
    (hresource : ResourceApi.handle secret forwarded.lines = .ok identity) :
    ∃ token, Bears config lines token ∧ identity.Of token.payload := by
  obtain ⟨token, kid, payload, hbears, hsaw, hproxy⟩ := handle_ok hobserves.returns
  obtain ⟨rfl, hsome, _, hplain⟩ := observed_token hw hrun haccepted hobserves hsaw
  obtain ⟨huserHeader, hscopesHeader, hrolesHeader, hclientHeader⟩ :=
    proxyReq_headers hproxy (get_stripped (by decide))
  exact ⟨token, hbears, identity_of_headers hplain hsome huserHeader hscopesHeader hrolesHeader
    hclientHeader hresource⟩

/-- The lines of a request that are about a name. -/
def linesOf (name : String) (lines : List (String × String)) : List (String × String) :=
  lines.filter fun line => lowerCase line.1 = name

/-- Two requests with the same `Authorization` lines carry the same token. -/
theorem Bears.unique {lines' : List (String × String)} {token token' : Jws}
    (hlines : linesOf "authorization" lines = linesOf "authorization" lines')
    (h : Bears config lines token) (h' : Bears config lines' token') : token = token' := by
  obtain ⟨text, htext, hparse⟩ := h
  obtain ⟨text', htext', hparse'⟩ := h'
  have hget : (Headers.receive lines).get "authorization" =
      (Headers.receive lines').get "authorization" :=
    calc (Headers.receive lines).get "authorization"
      _ = (Headers.receive (linesOf "authorization" lines)).get "authorization" :=
          Headers.get_receive_filter
      _ = (Headers.receive (linesOf "authorization" lines')).get "authorization" := by rw [hlines]
      _ = (Headers.receive lines').get "authorization" := Headers.get_receive_filter.symm
  have hkept : "authorization" ∉ protectedHeaders := by decide
  simp only [Gateway.bearerToken, get_stripped_ne hkept] at htext htext'
  rw [hget, htext'] at htext
  obtain rfl := Option.some.inj htext
  exact WireToken.jws.inj (hparse.symm.trans hparse')

/-- **The identity is the token's.**  Whatever headers a request has, if it reaches the
resource API, the identity there is that of the claims of its token; so two requests with
the same `Authorization` get the same user, client, scopes and roles. -/
theorem gateway_identity (hw : w.SetUp) (hrun : (machine P).Run (Config.initial w) c)
    {isUrl : String → Bool} (haccepted : ∀ call ∈ c'.calls, Accepted isUrl call.req.request) :
    (∀ id secret lines l forwarded identity token,
      (machine P).Observes c [] (Gateway.handle config id lines) l (.ok (some forwarded)) c' →
      ResourceApi.handle secret forwarded.lines = .ok identity →
      Bears config lines token → identity.Of token.payload) ∧
    ∀ id id' secret secret' lines lines' l l' forwarded forwarded' identity identity',
      (machine P).Observes c [] (Gateway.handle config id lines) l (.ok (some forwarded)) c' →
      (machine P).Observes c [] (Gateway.handle config id' lines') l' (.ok (some forwarded')) c' →
      ResourceApi.handle secret forwarded.lines = .ok identity →
      ResourceApi.handle secret' forwarded'.lines = .ok identity' →
      linesOf "authorization" lines = linesOf "authorization" lines' →
      identity.userId = identity'.userId ∧ identity.clientId = identity'.clientId ∧
        identity.scopes = identity'.scopes ∧ identity.roles = identity'.roles := by
  constructor
  · intro id secret lines l forwarded identity token hobserves hresource hbears
    obtain ⟨token', hbears', hof⟩ := reached_identity hw hrun haccepted hobserves hresource
    exact Bears.unique rfl hbears' hbears ▸ hof
  · intro id id' secret secret' lines lines' l l' forwarded forwarded' identity identity' hobserves
      hobserves' hresource hresource' hlines
    obtain ⟨token, hbears, hof⟩ := reached_identity hw hrun haccepted hobserves hresource
    obtain ⟨token', hbears', hof'⟩ := reached_identity hw hrun haccepted hobserves' hresource'
    obtain rfl := Bears.unique hlines hbears hbears'
    exact ⟨hof.userId.trans hof'.userId.symm, hof.clientId.trans hof'.clientId.symm,
      hof.scopes.trans hof'.scopes.symm, hof.roles.trans hof'.roles.symm⟩

/-! ### A forged request -/

/-- The statements of a verification, which only read. -/
def Stmt.isRead : Stmt → Bool
  | .kms (.publicKey _) | .kms (.jwtVerify ..) | .redis (.getText _) => true
  | _ => false

theorem Stmt.exec_read {s : Stmt} {r : String} {ans : Except Err s.Ans} {pre post : World}
    (hs : s.isRead = true) (h : s.exec P r pre = some (ans, post)) : post = pre := by
  rcases Stmt.exec_cases h with ⟨_, rfl⟩ | ⟨_, _, ledger, rfl, hledger⟩
  · rfl
  · unfold Stmt.isRead at hs
    split at hs
    · rcases hledger with ⟨_, rfl⟩ | ⟨_, hgenerates, _⟩
      · rfl
      · cases hgenerates
    · rcases hledger with ⟨_, rfl⟩ | ⟨_, hgenerates, _⟩
      · rfl
      · cases hgenerates
    · rcases hledger with ⟨_, rfl⟩ | ⟨_, hgenerates, _⟩
      · rfl
      · cases hgenerates
    · cases hs

/-- A gateway that knows one token and asks the key service for its key. -/
def GatewayConfig.knowing (token : Jws) : GatewayConfig where
  parse _ := .jws token
  jwks token := query (.kms (.publicKey (token.kid.getD "")))

/-- The sample platform is set up. -/
theorem setUp_sample : World.sample.SetUp :=
  { World.initial_sample with
    roles := by decide
    users := by
      have huuid : ∀ user ∈ World.sample.users, isUuid user.id = true := by decide +kernel
      exact fun user huser => isItem_of_isUuid (huuid user huser)
    registered := by
      have hclients : ∀ client ∈ World.sample.clients, isUuid client.id = true ∧
          isScopeName client.clientId = true ∧
          ∀ s ∈ client.allowedScopes, isScopeName s = true := by
        decide +kernel
      intro client hclient
      obtain ⟨hid, hname, hscopes⟩ := hclients client hclient
      exact ⟨isItem_of_isUuid hid, isItem_of_isScopeName hname, hscopes⟩ }

/-- A request that claims to be of somebody else, in several spellings. -/
def forgedLines : List (String × String) :=
  [("X-User-Id", "root"), ("Authorization", "Bearer t"), ("x-user-id", "root"),
   ("X-USER-ROLES", "admin"), ("X-Client-Id", "cli_web"), ("x-user-scopes", "api.write")]

/-- The forged request is of the user of its token. -/
theorem gateway_identity_of_forged_request :
    ∃ (c : ServerConfig) (token : Jws) (l : ServerLog) (forwarded : Headers)
      (identity : ResourceIdentity), sampleRun (loginMoves 0 "al@x.io" "Al 1") = some c ∧
      (machine .sample).Observes c [] (Gateway.handle (.knowing token) none forgedLines) l
        (.ok (some forwarded)) c ∧
      ResourceApi.handle none forwarded.lines = .ok identity ∧ identity.Of token.payload := by
  have hplay : (sampleRun (loginMoves 0 "al@x.io" "Al 1")).any (fun c =>
      decide (∀ call ∈ c.calls, call.req.request = .login "al@x.io" "Al 1") &&
      c.world.signed.head?.any fun token => (look (machine .sample) Stmt.isRead (fun _ => "") c
        (Gateway.handle (.knowing token) none forgedLines) []).any fun p => p.2.toOption.any
          fun sent => sent.any fun forwarded =>
            (ResourceApi.handle none forwarded.lines).toOption.isSome) = true := by
    decide +kernel
  obtain ⟨c, hc, hall⟩ := (Option.any_eq_true _ _).1 hplay
  obtain ⟨hrequests, hsigned⟩ := Bool.and_eq_true_iff.1 hall
  obtain ⟨token, _, hlook⟩ := (Option.any_eq_true _ _).1 hsigned
  obtain ⟨⟨l, r⟩, hlook, hsent⟩ := (Option.any_eq_true _ _).1 hlook
  obtain ⟨sent, hr, hforwarded⟩ := (Option.any_eq_true _ _).1 hsent
  obtain ⟨forwarded, rfl, hok⟩ := (Option.any_eq_true _ _).1 hforwarded
  obtain ⟨identity, hidentity⟩ := Option.isSome_iff_exists.1 hok
  obtain rfl : r = .ok (some forwarded) := by
    cases r with
    | error e => cases hr
    | ok sent => exact congrArg _ (Option.some.inj hr)
  have hresource : ResourceApi.handle none forwarded.lines = .ok identity := by
    cases hhandle : ResourceApi.handle none forwarded.lines with
    | error e =>
        rw [hhandle] at hidentity
        cases hidentity
    | ok identity' =>
        rw [hhandle] at hidentity
        exact congrArg _ (Option.some.inj hidentity)
  have hobserves :=
    observes_of_look (M := machine .sample) (fun s r w ans w' hs h => Stmt.exec_read hs h) hlook
  have haccepted : ∀ call ∈ c.calls, Accepted (fun _ => true) call.req.request := by
    intro call hcall
    rw [of_decide_eq_true hrequests call hcall]
    trivial
  have hbears : Bears (.knowing token) forgedLines token := by
    refine ⟨"t", ?_, rfl⟩
    decide +kernel
  exact ⟨c, token, l, forwarded, identity, hc, hobserves, hresource,
    (gateway_identity setUp_sample (run_of_play hc) haccepted).1 _ _ _ _ _ _ _ hobserves hresource
      hbears⟩

end IdentityPlatform
