/-
# The characters of the identity headers

The gateway writes the claims of a token into headers, and `setHeader` refuses a value with
a character that cannot be sent.  Identifiers and roles have none.  A scope is checked word
by word at `/oauth/authorize`, but stored and signed as the text that was sent there, with
its white space; so the injection fails exactly for the white space that a header cannot
carry.
-/

import IdentityPlatform.Protocol.GatewayIdentity

namespace IdentityPlatform

open Interleaving Program Relational Machine AuthServer Http

variable {P : Platform} {c c' : ServerConfig} {w : World} {config : GatewayConfig} {token : Jws}

/-! ### Texts that can be sent -/

/-- A text that a header field can carry. -/
def Sendable (text : String) : Prop := ∀ ch ∈ text.toList, isFieldChar ch = true

instance (text : String) : Decidable (Sendable text) :=
  decidable_of_iff (text.toList.all isFieldChar = true) (by simp [Sendable])

theorem setHeader_isSome {name value : String} {h : Headers} :
    (h.setHeader name value).isSome = true ↔ Sendable value := by
  unfold Headers.setHeader Sendable
  split_ifs with hall
  · simpa using hall
  · simpa using hall

theorem sendable_of_nameBytes {text : String} (h : ∀ b ∈ utf8 text, isNameByte b = true) :
    Sendable text :=
  chars_of_bytes (p := fun ch => isFieldChar ch = true) isNameByte
    (forall_byte (by decide +kernel)) h

/-- A list of texts that can be sent, with a separator that can. -/
theorem sendable_intercalate {glue : String} {list : List String} (hglue : Sendable glue)
    (h : ∀ text ∈ list, Sendable text) : Sendable (String.intercalate glue list) := by
  have hlist : ∀ list : List (List Char), (∀ text ∈ list, ∀ ch ∈ text, isFieldChar ch = true) →
      ∀ ch ∈ glue.toList.intercalate list, isFieldChar ch = true := by
    intro list h
    induction list with
    | nil => simp [List.intercalate]
    | cons text list ih =>
        cases list with
        | nil => simpa [List.intercalate] using h
        | cons next list =>
            intro ch hch
            rw [List.intercalate_cons_cons, List.mem_append, List.mem_append] at hch
            rcases hch with (hch | hch) | hch
            · exact h text (List.mem_cons_self ..) ch hch
            · exact hglue ch hch
            · exact ih (fun t ht => h t (List.mem_cons_of_mem _ ht)) ch hch
  rw [Sendable, String.toList_intercalate]
  refine hlist _ fun text htext => ?_
  obtain ⟨text, hmem, rfl⟩ := List.mem_map.1 htext
  exact h text hmem

/-- A list of names of scopes can be sent. -/
theorem sendable_joinWords {list : List String} (h : ∀ s ∈ list, isScopeName s = true) :
    Sendable (joinWords list) :=
  sendable_intercalate (by decide +kernel) fun s hs =>
    sendable_of_nameBytes (nameBytes_of_isScopeName (h s hs))

/-- The white space of a text can be sent. -/
def SpacesSendable (text : String) : Prop :=
  ∀ ch ∈ text.toList, isSpace ch = true → isFieldChar ch = true

theorem Sendable.spaces {text : String} (h : Sendable text) : SpacesSendable text :=
  fun ch hch _ => h ch hch

/-- **In a text of names only the white space matters.** -/
theorem sendable_iff_spaces {scope : String} (h : ScopeNames scope) :
    Sendable scope ↔ SpacesSendable scope := by
  refine ⟨Sendable.spaces, fun hspaces ch hch => ?_⟩
  by_cases hspace : isSpace ch = true
  · exact hspaces ch hch hspace
  · obtain ⟨run, hrun, hmem⟩ := Splitting.mem_runs hch (by simpa using hspace)
    have hname := h _ (List.mem_map.2 ⟨run, splitSpaces_eq_runs _ ▸ hrun, rfl⟩)
    exact sendable_of_nameBytes (nameBytes_of_isScopeName hname) ch (by simpa using hmem)

/-! ### The injection -/

/-- The headers of the identity. -/
def identityHeaders (user : AuthenticatedUser) : List (String × String) :=
  [("X-User-Id", user.sub), ("X-User-Scopes", user.scope),
    ("X-User-Roles", String.intercalate "," (user.roles.getD []))] ++
  (user.sid.filter (· ≠ "")).toList.map (("X-Token-Sid", ·)) ++
  (user.clientId.filter (· ≠ "")).toList.map (("X-Client-Id", ·))

theorem setIfPresent_isSome {name : String} {value : Option String} {h : Headers} :
    (Gateway.setIfPresent name value h).isSome = true ↔
      ∀ text, value.filter (· ≠ "") = some text → Sendable text := by
  unfold Gateway.setIfPresent
  split
  · rename_i text hvalue
    rw [setHeader_isSome, hvalue]
    exact ⟨fun hsend text' heq => Option.some.inj heq ▸ hsend, fun hall => hall text rfl⟩
  · rename_i hvalue
    rw [hvalue]
    exact ⟨fun _ => nofun, fun _ => rfl⟩

/-- A step that succeeds or fails whatever the headers are. -/
theorem isSome_bind_of {o : Option Headers} {f : Headers → Option Headers} {p : Prop}
    (hf : ∀ h, (f h).isSome = true ↔ p) : (o >>= f).isSome = true ↔ o.isSome = true ∧ p := by
  cases o with
  | none => simp
  | some h => simpa using hf h

/-- **The injection succeeds** exactly if each header can be sent. -/
theorem proxyReq_isSome {user : AuthenticatedUser} {id : Option String} {headers : Headers}
    (hid : ∀ text, id = some text → Sendable text)
    (hsecret : ∀ text, config.gatewaySharedSecret = some text → Sendable text) :
    (Gateway.proxyReq config user id headers).isSome = true ↔
      ∀ header ∈ identityHeaders user, Sendable header.2 := by
  have hset : ∀ {value : Option String}, (∀ text, value = some text → Sendable text) →
      ∀ text, value.filter (· ≠ "") = some text → Sendable text :=
    fun h text heq => h text (Option.filter_eq_some_iff.1 heq).1
  rw [Gateway.proxyReq, isSome_bind_of fun _ => setIfPresent_isSome,
    isSome_bind_of fun _ => setIfPresent_isSome, isSome_bind_of fun _ => setIfPresent_isSome,
    isSome_bind_of fun _ => setIfPresent_isSome, isSome_bind_of fun _ => setHeader_isSome,
    isSome_bind_of fun _ => setHeader_isSome, setHeader_isSome, and_iff_left (hset hsecret),
    and_iff_left (hset hid)]
  simp only [identityHeaders, List.forall_mem_append, List.forall_mem_cons, List.forall_mem_map,
    List.not_mem_nil, Option.mem_toList, IsEmpty.forall_iff, implies_true, and_true,
    and_assoc]

/-! ### Tokens -/

/-- A platform that is set up with identifiers that can be sent. -/
structure World.Deployed (w : World) : Prop extends w.SetUp where
  sendable : w.Named Sendable

/-- The token has the scope text of the authorization that it descends from. -/
def CarriesScopeOf (P : Platform) (c : ServerConfig) (token : Jws) (input : AuthorizeInput) :
    Prop :=
  ∃ (j : ℕ) (issuer : ServerCall) (code issued userId : String), c.calls[j]? = some issuer ∧
    Issues P issuer issued input userId ∧ P.sha256Hex issued = P.sha256Hex code ∧
    OnCode P c code token ∧ token.payload.scope = some input.scope

/-- A refresh token of no client has the scope of a login. -/
theorem login_row_scope (hreach : (machine P).Reachable World.Initial c) {row : RefreshTokenRow}
    (hrow : row ∈ c.world.refreshTokens) (hclient : row.clientId = none) :
    ∃ roles, row.scope = defaultScopeForRoles roles := by
  revert hclient
  refine stored_induction (Q := fun row => row.clientId = none →
    ∃ roles, row.scope = defaultScopeForRoles roles) hreach ?_ ?_ hrow
  · rintro i call n pre post data row hi he hnone hrow ⟨r, pre', hle⟩ hclient
    obtain ⟨l, hl, hreason⟩ := inserted_reason hreach.valid hi he
    cases hreason with
    | login _ _ _ | challenge _ _ _ _ => exact ⟨_, hle.scope⟩
    | exchange _ _ _ _ _ _ _ =>
        rw [hle.clientId] at hclient
        cases hclient
    | rotation _ => cases hnone
  · intro row next hold hrow hnext hprevious hclient
    obtain ⟨_, hsame, hscope⟩ := successor_grant hreach hrow hnext hprevious
    obtain ⟨roles, hroles⟩ := hold (hsame ▸ hclient)
    exact ⟨roles, hscope.trans hroles⟩

/-- **A scope is listed, or it is the text of an authorization.** -/
theorem scope_cases {isUrl : String → Bool} (hw : w.SetUp)
    (hrun : (machine P).Run (Config.initial w) c)
    (haccepted : ∀ call ∈ c.calls, Accepted isUrl call.req.request)
    (htoken : token ∈ c.world.signed) {scope : String} (hscope : token.payload.scope = some scope) :
    Sendable scope ∨ ∃ input, input.scope = scope ∧ CarriesScopeOf P c token input := by
  have hreach : (machine P).Reachable World.Initial c := ⟨w, hw.toInitial, hrun⟩
  have hplain := run_plain hw hrun haccepted
  have hdefault : ∀ {roles}, Sendable (defaultScopeForRoles roles) :=
    sendable_joinWords isScopeName_default
  cases hclient : token.payload.clientId with
  | none =>
      left
      obtain ⟨i, call, n, pre, post, kid, hi, he⟩ := token_signed hreach htoken
      have hsigned : Signs call token := ⟨n, pre, kid, token.payload, post, he⟩
      obtain ⟨l, input, hl, hreason, rfl, hinput⟩ := hsigned.reason hreach.valid hi hscope
      have hunnamed : ∀ {client : OAuthClientRow}, client ∈ c.world.clients →
          input.clientId ≠ some client.clientId := by
        intro client hmem hnamed
        rw [hclient, hnamed, Option.filter_some,
          if_pos (by simpa using (hplain.clients client hmem).clientId.ne_empty)] at hinput
        cases hinput
      cases hreason with
      | login | challenge => exact hdefault
      | @refresh _ row _ _ _ _ _ rotated _ _ =>
          obtain ⟨l', hrotated, hfound⟩ := rotated
          obtain ⟨stored, hstored, hle⟩ := rotated_stored hreach hi
            (hrotated.mono (hfound.suffix.trans hl))
          have hnone : stored.clientId = none := by
            cases hsome : stored.clientId with
            | none => rfl
            | some id =>
                have hne := ((hplain.refreshTokens stored hstored).clientId id hsome).ne_empty
                rw [hclient, ← hle.clientId, hsome, Option.filter_some, if_pos (by simpa using hne)]
                  at hinput
                cases hinput
          obtain ⟨roles, hroles⟩ := login_row_scope hreach hstored hnone
          have hscope' : row.scope = defaultScopeForRoles roles := hle.scope.symm.trans hroles
          exact hscope' ▸ hdefault
      | exchange _ _ identified _ _ _ _ _ _ | oauthRefresh _ _ identified _ _ _ _ _ _
      | clientCredentials _ _ identified _ =>
          obtain ⟨client', hmem, hrow, hname⟩ := read_client hreach hi (identified.read.mono hl)
          exact absurd (congrArg some hrow.clientId.symm) (hunnamed hmem)
  | some clientRef =>
      rcases client_token_cases hreach htoken hscope hclient with ⟨code, hon⟩ | ⟨clientId, hon⟩
      · obtain ⟨b, hb, hhash, hnarrowed⟩ := hon.narrowed hreach hscope
        rcases hnarrowed with rfl | ⟨list, hlist, rfl⟩
        · obtain ⟨issue⟩ := code_scope hreach hb
          exact .inr ⟨issue.input, issue.scope.symm, issue.place, issue.issuer, code, issue.code,
            issue.userId, issue.call, issue.issues, issue.codeHash.symm.trans hhash, hon,
            issue.scope ▸ hscope⟩
        · exact .inl (sendable_joinWords fun s hs => (hplain.codes b hb).2 s (hlist s hs))
      · obtain ⟨client, hclient, _, list, hlist, rfl⟩ := hon.listed hreach hscope
        have hnames := (hplain.clients client hclient).scopes
        exact .inl (sendable_joinWords fun s hs => hnames s (hlist s hs).2)

/-- The roles of the table can be sent. -/
theorem sendable_roles {payload : JwtPayload} (h : payload.Plain) :
    Sendable (String.intercalate "," (payload.roles.getD [])) := by
  have hseeded : ∀ role ∈ seededRoles, isScopeName role = true := by decide +kernel
  refine sendable_intercalate (by decide +kernel) fun role hrole => ?_
  cases hroles : payload.roles with
  | none =>
      rw [hroles] at hrole
      cases hrole
  | some roles =>
      rw [hroles] at hrole
      exact sendable_of_nameBytes
        (nameBytes_of_isScopeName (hseeded role (h.roles roles hroles role hrole)))

/-- Only the scope may stand in the way. -/
theorem identityHeaders_sendable {payload : JwtPayload} (hplain : payload.Plain)
    (hnamed : payload.Named Sendable) {scope : String} (hscope : payload.scope = some scope) :
    (∀ header ∈ identityHeaders (remoteUser payload), Sendable header.2) ↔ Sendable scope := by
  have hsid : ∀ id ∈ payload.sid.filter (· ≠ ""), Sendable id := fun id hid =>
    hnamed.sid id (Option.filter_eq_some_iff.1 hid).1
  have hclient : ∀ id ∈ payload.clientId.filter (· ≠ ""), Sendable id := fun id hid =>
    hnamed.clientId id (Option.filter_eq_some_iff.1 hid).1
  simp only [identityHeaders, remoteUser, hscope, List.forall_mem_append, List.forall_mem_cons,
    List.forall_mem_map, List.not_mem_nil, Option.mem_toList, IsEmpty.forall_iff, implies_true,
    and_true, Option.getD_some]
  exact ⟨fun h => h.1.1.2.1, fun h => ⟨⟨⟨hnamed.sub, h, sendable_roles hplain⟩, hsid⟩, hclient⟩⟩

/-- **The identity headers of a token can be sent** exactly if the white space of the scope
text it descends from can, and then the gateway sends the request on. -/
theorem identity_headers_iff (hw : w.Deployed) (hrun : (machine P).Run (Config.initial w) c)
    {isUrl : String → Bool} (haccepted : ∀ call ∈ c.calls, Accepted isUrl call.req.request) :
    (∀ token ∈ c.world.signed, "api.read" ∈ scopesOf token →
      ((∀ header ∈ identityHeaders (remoteUser token.payload), Sendable header.2) ↔
        ∀ input, CarriesScopeOf P c token input → SpacesSendable input.scope)) ∧
    ∀ (c₀ : ServerConfig) (config : GatewayConfig) (id : Option String)
      (lines : List (String × String)) (token : Jws) (l : ServerLog) (sent : Option Headers),
      (∀ text, id = some text → Sendable text) →
      (∀ text, config.gatewaySharedSecret = some text → Sendable text) →
      (machine P).Run (Config.initial w) c₀ →
      (machine P).Observes c₀ [] (Gateway.handle config id lines) l (.ok sent) c →
      Bears config lines token →
      (sent.isSome = true ↔ ∀ input, CarriesScopeOf P c token input →
        SpacesSendable input.scope) := by
  have hnamed := run_identifiers hw.toInitial hw.sendable
    (fun _ h => sendable_of_nameBytes (nameBytes_of_isUuid h))
    (fun _ h => sendable_of_nameBytes (nameBytes_of_isClientId h)) hrun
  have hplain := run_plain hw.toSetUp hrun haccepted
  have hheaders : ∀ token ∈ c.world.signed, token.payload.scope.isSome = true →
      ((∀ header ∈ identityHeaders (remoteUser token.payload), Sendable header.2) ↔
        ∀ input, CarriesScopeOf P c token input → SpacesSendable input.scope) := by
    intro token htoken hsome
    have htexts := hplain.signed token htoken hsome
    obtain ⟨scope, hscope⟩ := Option.isSome_iff_exists.1 hsome
    rw [identityHeaders_sendable htexts (hnamed.signed token htoken hsome) hscope]
    constructor
    · rintro hsend input ⟨_, _, _, _, _, _, _, _, _, hcarried⟩
      exact Option.some.inj (hcarried.symm.trans hscope) ▸ hsend.spaces
    · intro hspaces
      rcases scope_cases hw.toSetUp hrun haccepted htoken hscope with hsend | ⟨input, rfl, hcarried⟩
      · exact hsend
      · exact (sendable_iff_spaces (htexts.scope _ hscope)).2 (hspaces input hcarried)
  refine ⟨fun token htoken hread => hheaders token htoken ?_, ?_⟩
  · cases hscope : token.payload.scope with
    | none =>
        rw [scopesOf, hscope] at hread
        cases hread
    | some scope => rfl
  · intro c₀ config id lines token l sent hid hsecret hrun₀ hobserves hbears
    obtain ⟨token', kid, payload, hbears', hsaw, rfl⟩ := handle_ok hobserves.returns
    obtain rfl := Bears.unique rfl hbears hbears'
    obtain ⟨rfl, hsome, hmem, _⟩ := observed_token hw.toSetUp hrun₀ haccepted hobserves hsaw
    exact (proxyReq_isSome hid hsecret).trans (hheaders token hmem hsome)

/-! ### A line feed in a scope -/

/-- The sample platform has identifiers that can be sent. -/
theorem deployed_sample : World.sample.Deployed :=
  { setUp_sample with
    sendable :=
      { users := by decide +kernel
        clients := by decide +kernel } }

/-- The lines of a request with a token. -/
def bearerLines : List (String × String) := [("Authorization", "Bearer t")]

/-- A code for the text `scope` is exchanged. -/
def scopeTextMoves (scope : String) : List (Move World Incoming Env) :=
  loginMoves 0 "al@x.io" "Al 1" ++ authorizeMoves 1 scope none ++ exchangeMoves 2

/-- The request registers a client. -/
def Request.registersClient : Request → Bool
  | .createClient .. => true
  | _ => false

theorem Request.accepted {request : Request} (h : request.registersClient = false) :
    Accepted (fun _ => true) request := by
  unfold Accepted
  split
  · cases h
  · trivial

/-- What the gateway makes of a request with a token for the scope text. -/
theorem handled_of_play (scope : String) (sends : Bool)
    (hplay : (sampleRun (scopeTextMoves scope)).any (fun c => (c.world.signed.find? fun token =>
      token.payload.scope = some scope).any fun token => (look (machine .sample) Stmt.isRead
        (fun _ => "") c (Gateway.handle (.knowing token) none bearerLines) []).any fun p =>
          p.2.toOption.any fun sent => sent.isSome == sends && decide (∀ call ∈ c.calls,
            call.req.request.registersClient = false)) = true) :
    ∃ (c : ServerConfig) (token : Jws) (l : ServerLog) (sent : Option Headers),
      sampleRun (scopeTextMoves scope) = some c ∧ token ∈ c.world.signed ∧
      (∀ call ∈ c.calls, Accepted (fun _ => true) call.req.request) ∧
      token.payload.scope = some scope ∧
      (machine .sample).Observes c [] (Gateway.handle (.knowing token) none bearerLines) l
        (.ok sent) c ∧ sent.isSome = sends := by
  obtain ⟨c, hc, hall⟩ := (Option.any_eq_true _ _).1 hplay
  obtain ⟨token, hfind, hlook⟩ := (Option.any_eq_true _ _).1 hall
  obtain ⟨⟨l, r⟩, hlook, hsent⟩ := (Option.any_eq_true _ _).1 hlook
  obtain ⟨sent, hr, hsends⟩ := (Option.any_eq_true _ _).1 hsent
  obtain rfl : r = .ok sent := by
    cases r with
    | error e => cases hr
    | ok sent => exact congrArg _ (Option.some.inj hr)
  obtain ⟨hsends, haccepted⟩ := Bool.and_eq_true_iff.1 hsends
  exact ⟨c, token, l, sent, hc, List.mem_of_find?_eq_some hfind,
    fun call hcall => Request.accepted (of_decide_eq_true haccepted call hcall),
    by simpa using List.find?_some hfind,
    observes_of_look (M := machine .sample) (fun s r w ans w' hs h => Stmt.exec_read hs h) hlook,
    by simpa using hsends⟩

/-- With a blank in it, the scope is sent on. -/
theorem identity_headers_of_blank :
    ∃ (c : ServerConfig) (token : Jws) (l : ServerLog) (forwarded : Headers),
      sampleRun (scopeTextMoves "api.read openid") = some c ∧ token ∈ c.world.signed ∧
      (∀ header ∈ identityHeaders (remoteUser token.payload), Sendable header.2) ∧
      (machine .sample).Observes c [] (Gateway.handle (.knowing token) none bearerLines) l
        (.ok (some forwarded)) c := by
  obtain ⟨c, token, l, sent, hc, hmem, haccepted, hscope, hobserves, _⟩ :=
    handled_of_play "api.read openid" true (by decide +kernel)
  obtain ⟨hheaders, hsent⟩ := identity_headers_iff deployed_sample (run_of_play hc) haccepted
  have hspaces : ∀ input, CarriesScopeOf .sample c token input → SpacesSendable input.scope := by
    rintro input ⟨_, _, _, _, _, _, _, _, _, hcarried⟩
    rw [← Option.some.inj (hscope.symm.trans hcarried)]
    exact (by decide +kernel : Sendable "api.read openid").spaces
  have hread : "api.read" ∈ scopesOf token := by
    rw [scopesOf, hscope]
    decide +kernel
  have hbears : Bears (.knowing token) bearerLines token := by
    refine ⟨"t", ?_, rfl⟩
    decide +kernel
  obtain ⟨forwarded, rfl⟩ := Option.isSome_iff_exists.1
    ((hsent c _ _ _ token l sent (by simp) (by simp [GatewayConfig.knowing])
      (run_of_play hc) hobserves hbears).2 hspaces)
  exact ⟨c, token, l, forwarded, hc, hmem, (hheaders token hmem hread).2 hspaces, hobserves⟩

/-- **With a line feed in it, the scope passes every check**, and cannot be sent on. -/
theorem identity_headers_of_line_feed :
    ∃ (c : ServerConfig) (token : Jws) (l : ServerLog),
      sampleRun (scopeTextMoves "api.read\nopenid") = some c ∧ token ∈ c.world.signed ∧
      "api.read" ∈ scopesOf token ∧ ("X-User-Scopes", "api.read\nopenid") ∈
        identityHeaders (remoteUser token.payload) ∧ ¬Sendable "api.read\nopenid" ∧
      (machine .sample).Observes c [] (Gateway.handle (.knowing token) none bearerLines) l
        (.ok none) c := by
  obtain ⟨c, token, l, sent, hc, hmem, _, hscope, hobserves, hsent⟩ :=
    handled_of_play "api.read\nopenid" false (by decide +kernel)
  obtain rfl : sent = none := by simpa using hsent
  refine ⟨c, token, l, hc, hmem, ?_, ?_, by decide +kernel, hobserves⟩
  · rw [scopesOf, hscope]
    decide +kernel
  · simp [identityHeaders, remoteUser, hscope]

end IdentityPlatform
