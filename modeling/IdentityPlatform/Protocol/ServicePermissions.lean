/-
# What tokens of service clients permit

`requirePermission` reads the scopes of a token as permissions too, and a token of a client
for itself carries nothing but scopes.  Its scopes are names without a colon, and every
permission of the catalogue has one, so such a token passes no guard of the administration.
-/

import IdentityPlatform.Protocol.GatewayIdentity
import IdentityPlatform.Protocol.Permissions

namespace IdentityPlatform

open Interleaving Program Relational Machine AuthServer

variable {P : Platform} {c c' : ServerConfig} {w : World} {i : ℕ} {call : ServerCall}
  {permission : String}

/-- A permission of the catalogue is no name of a scope. -/
theorem not_isScopeName_of_seeded (h : permission ∈ seededPermissions) :
    isScopeName permission = false := by
  have hall : ∀ p ∈ seededPermissions, isScopeName p = false := by decide +kernel
  exact hall permission h

/-- A token of a client for itself carries no permissions. -/
theorem ClientCredentialsGrant.passes_iff {form : TokenForm} {basicAuth : Option BasicAuth}
    {client : OAuthClientRow} {response : TokenResponse}
    (h : ClientCredentialsGrant P call.log form basicAuth client response)
    (hv : (machine P).Valid c) (hi : c.calls[i]? = some call) :
    passes permission response.accessToken.payload = true ↔
      permission ∈ words (response.accessToken.payload.scope.getD "") := by
  obtain ⟨scope, hsigned⟩ := h.access
  obtain ⟨jti, now, hpayload⟩ := hsigned.payload hv hi
  rw [hpayload, passes_accessToken]
  simp [JwtService.accessTokenPayload]

/-- A token that a call has been answered with is one of the signed tokens. -/
theorem JwtService.Signed.mem {input : AccessTokenInput} {token : Jws}
    (h : JwtService.Signed P call.log input token) (hreach : (machine P).Reachable World.Initial c)
    (hi : c.calls[i]? = some call) : token ∈ c.world.signed := by
  obtain ⟨kid, jti, now, _, hsign⟩ := h
  obtain ⟨n, pre, post, hmem, hans⟩ := answered hreach.valid hi hsign
  have hle : post.Le c.world := (hreach.ordered (le_stable P)).post hi _ hmem
  exact hle.signed (Stmt.sign_answer hans).2

/-- The scope of a token of a client for itself consists of names of scopes. -/
theorem ClientCredentialsGrant.scopeNames {form : TokenForm} {basicAuth : Option BasicAuth}
    {client : OAuthClientRow} {response : TokenResponse}
    (h : ClientCredentialsGrant P call.log form basicAuth client response)
    (hreach : (machine P).Reachable World.Initial c) (hi : c.calls[i]? = some call)
    (hplain : c.world.Plain) : ScopeNames (response.accessToken.payload.scope.getD "") := by
  obtain ⟨scope, hsigned⟩ := h.access
  obtain ⟨jti, now, hpayload⟩ := hsigned.payload hreach.valid hi
  have hscope : response.accessToken.payload.scope = some scope := by
    rw [hpayload]
    rfl
  rw [hscope, Option.getD_some]
  have htexts := hplain.signed _ (hsigned.mem hreach hi) (Option.isSome_of_eq_some hscope)
  exact htexts.scope scope hscope

/-- **No machine token is an administrator's.**  On a platform that is set up, whatever
clients have been registered, an access token that a client was given for itself passes
`requirePermission` for no permission of the catalogue; so no route that is guarded by one
runs its handler for it, in any later state. -/
theorem service_token_permits_nothing {isUrl : String → Bool} (hw : w.SetUp)
    (hrun : (machine P).Run (Config.initial w) c)
    (haccepted : ∀ call ∈ c.calls, Accepted isUrl call.req.request)
    (hi : c.calls[i]? = some call) {form : TokenForm} {basicAuth : Option BasicAuth}
    (hrequest : call.req.request = .token form basicAuth)
    (hform : form.grantType = .clientCredentials) {response : TokenResponse}
    (hresult : call.result = some (.ok (.tokens response)))
    (hpermission : permission ∈ seededPermissions) :
    passes permission response.accessToken.payload = false ∧
      ∀ l user c', ¬(machine P).Observes c []
        (admin (some (.jws response.accessToken)) permission) l (.ok user) c' := by
  have hreach : (machine P).Reachable World.Initial c := ⟨w, hw.toInitial, hrun⟩
  have hgrant := granted (hreach.valid.returned hi hresult) rfl
  rw [hrequest] at hgrant
  obtain ⟨client, grant⟩ : ∃ client,
      ClientCredentialsGrant P call.log form basicAuth client response := by
    cases hgrant with
    | clientCredentials _ grant => exact ⟨_, grant⟩
    | code hother | oauthRefresh hother => cases hform.symm.trans hother
  have hnames := grant.scopeNames hreach hi (run_plain hw hrun haccepted)
  have hfails : passes permission response.accessToken.payload = false := by
    rw [← Bool.not_eq_true, grant.passes_iff hreach.valid hi]
    intro hmem
    have hname := hnames permission hmem
    rw [not_isScopeName_of_seeded hpermission] at hname
    cases hname
  refine ⟨hfails, fun l user c' hobserves => ?_⟩
  obtain ⟨token, payload, hbearer, hverified, hpasses⟩ := admin_ok hobserves.returns
  obtain ⟨kid, hsaw⟩ := hverified.verified
  obtain ⟨c₁, _, _, hans⟩ := hobserves.saw hsaw
  have hpayload := (Stmt.jwtVerify_answer (Answers.exec hans)).1
  have htoken : response.accessToken = token := WireToken.jws.inj (Option.some.inj hbearer)
  rw [hpayload, ← htoken, hfails] at hpasses
  cases hpasses

/-- An administrator registers a service client. -/
def registerServiceMoves : List (Move World Incoming Env) :=
  loginMoves 0 "ro@x.io" "Ro 1" ++ createClientMoves 1
    { name := "Sync", clientType := .confidential, redirectUris := []
      allowedScopes := ["api.read", "api.write"], grantTypes := ["client_credentials"]
      requirePkce := true, tokenEndpointAuthMethod := .clientSecretBasic }

/-- Call `i` asks for a token for the newest client, with the secret it was given. -/
def credentialsMoves (i : ℕ) (scope : String) : List (Move World Incoming Env) :=
  [.accept fun w => ⟨.token { grantType := .clientCredentials, scope := some scope }
    (some ⟨newestClient w,
      (w.generated.find? fun r => "cst_".toList <+: r.toList ∧ '#' ∉ r.toList).getD ""⟩), {}⟩,
    .steps i 40]

/-- The data of a client that is to be registered. -/
def Request.clientData? : Request → Option CreateClientData
  | .createClient _ data => some data
  | _ => none

/-- The token of a registered client is for `api.write`, and permits no administration. -/
theorem service_token_permits_nothing_of_registration :
    ∃ (c : ServerConfig) (response : TokenResponse),
      sampleRun (registerServiceMoves ++ credentialsMoves 2 "api.read api.write") = some c ∧
      c.returned 2 = some (.tokens response) ∧
      response.accessToken.payload.scope = some "api.read api.write" ∧
      response.accessToken.payload.roles = some ["service"] ∧
      passes "clients:read" response.accessToken.payload = false := by
  have hplay : (sampleRun (registerServiceMoves ++
      credentialsMoves 2 "api.read api.write")).any (fun c =>
      (c.calls.all fun call =>
        call.req.request.clientData?.all (createClientSchema fun _ => true)) &&
      (c.calls[2]?).any fun call => (tokenAnswer? call).any fun x => decide
        (x.1.grantType = .clientCredentials ∧
          x.2.2.accessToken.payload.scope = some "api.read api.write" ∧
          x.2.2.accessToken.payload.roles = some ["service"])) = true := by
    decide +kernel
  obtain ⟨c, hc, hall⟩ := (Option.any_eq_true _ _).1 hplay
  obtain ⟨hrequests, hall⟩ := Bool.and_eq_true_iff.1 hall
  obtain ⟨call, hi, hanswer⟩ := (Option.any_eq_true _ _).1 hall
  obtain ⟨⟨form, basicAuth, response⟩, hx, hanswer⟩ := (Option.any_eq_true _ _).1 hanswer
  obtain ⟨hform, hscope, hroles⟩ := of_decide_eq_true hanswer
  obtain ⟨hrequest, hresult⟩ := tokenAnswer?_eq_some hx
  have haccepted : ∀ call ∈ c.calls, Accepted (fun _ => true) call.req.request := by
    intro call hcall
    have hschema := List.all_eq_true.1 hrequests call hcall
    generalize call.req.request = request at hschema
    cases request with
    | createClient bearer data => exact hschema
    | _ => trivial
  have hreturned : c.returned 2 = some (.tokens response) := by
    simp [Config.returned, hi, hresult, Except.toOption]
  exact ⟨c, response, hc, hreturned, hscope, hroles,
    (service_token_permits_nothing setUp_sample (run_of_play hc) haccepted hi hrequest hform hresult
      (by decide)).1⟩

end IdentityPlatform
