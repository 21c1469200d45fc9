/-
# What tokens of clients permit

`requirePermission` looks for a permission among the permissions of a token and
among its scopes.  The comment beside it says that a token of an OAuth client
carries plain scopes only.  It does not: `issueUserTokens` and the
`refresh_token` branch embed the permissions that the roles of the user give at
that moment, so a token stays within its scope exactly when those permissions
are all scopes of it.
-/

import IdentityPlatform.Protocol.Received

namespace IdentityPlatform

open Interleaving Program Relational Machine AuthServer

variable {P : Platform}

/-- The guard lets a token pass exactly when `passes` says so. -/
theorem requirePermission_ok {l₀ l : ServerLog} {permission : String} {payload : JwtPayload} :
    (requirePermission permission (.ofPayload payload)).Returns l₀ l (.ok ()) ↔
      l = l₀ ∧ passes permission payload = true := by
  constructor
  · intro h
    obtain ⟨hl, hpasses⟩ := returns_throwIf_ok.1 h
    exact ⟨hl, by simpa [passes] using hpasses⟩
  · rintro ⟨hl, hpasses⟩
    refine returns_throwIf_ok.2 ⟨hl, ?_⟩
    simpa [passes] using hpasses

/-- An access token passes for its permissions and for its scopes. -/
theorem passes_accessToken {permission : String} {input : AccessTokenInput} {jti : String}
    {now ttl : ℕ} : passes permission (JwtService.accessTokenPayload P input jti now ttl) = true ↔
      permission ∈ input.permissions ∨ permission ∈ words input.scope := by
  have hpermissions : (JwtService.accessTokenPayload P input jti now ttl).permissions.getD [] =
      input.permissions := by
    unfold JwtService.accessTokenPayload
    by_cases hnil : input.permissions = [] <;> simp [hnil]
  have hscope : (JwtService.accessTokenPayload P input jti now ttl).scope = some input.scope := rfl
  rw [passes, decide_eq_true_iff, grantedPermissions, AuthenticatedUser.ofPayload, hpermissions,
    List.mem_append, tokenPermissions, hscope, Option.getD_some]

/-- The scope a request of a client is granted: that of the consumed code, or the
narrowing of that of the rotated token. -/
inductive GrantedScope (l : ServerLog) (form : TokenForm) (userId scope : String) : Prop
  | code {id codeRow} (consumed : l.Saw (.codes (.consume id)) (.ok (some codeRow)))
      (user : codeRow.userId = userId) (granted : codeRow.scope = scope)
  | refresh {hash row} (rotated : l.Saw (.refreshTokens (.rotate hash)) (.ok (some row)))
      (user : row.userId = userId)
      (granted : OAuthService.narrowScope row.scope form.scope = .ok scope)

/-- A signed token stays within its scope exactly when the permissions it was
signed with do. -/
theorem JwtService.Signed.within_scope_iff {c : ServerConfig} {i : ℕ} {call : ServerCall}
    {input : AccessTokenInput} {token : Jws} (h : JwtService.Signed P call.log input token)
    (hv : (machine P).Valid c) (hi : c.calls[i]? = some call) :
    (∀ p, passes p token.payload = true → p ∈ words input.scope) ↔
      ∀ p ∈ input.permissions, p ∈ words input.scope := by
  obtain ⟨jti, now, hpayload⟩ := h.payload hv hi
  rw [hpayload]
  constructor
  · intro hall p hp
    exact hall p (passes_accessToken.2 (.inl hp))
  · intro hall p hp
    exact (passes_accessToken.1 hp).elim (hall p) id

/-- **When a token of a client stays within its scope.**  The access token of an
exchange or a refresh is for the user and the scope of the code or of the rotated
token, and it passes only guards that its scope names if and only if every
permission that the roles of the user give when the call reads them is a scope of
it. -/
theorem client_token_within_scope_iff {c : ServerConfig}
    (hreach : (machine P).Reachable World.Initial c) {i : ℕ} {call : ServerCall}
    (hi : c.calls[i]? = some call) {form : TokenForm} {basicAuth : Option BasicAuth}
    (hrequest : call.req.request = .token form basicAuth)
    (hform : form.grantType ≠ .clientCredentials) {response : TokenResponse}
    (hresult : call.result = some (.ok (.tokens response))) :
    ∃ e ∈ call.log, ∃ userId scope, e.op = .rbac (.permissionsOf userId) ∧
      GrantedScope call.log form userId scope ∧
      response.accessToken.payload.sub = userId ∧
      response.accessToken.payload.scope = some scope ∧
      ((∀ p, passes p response.accessToken.payload = true → p ∈ words scope) ↔
        ∀ p ∈ e.pre.rbac.permissionsOf userId, p ∈ words scope) := by
  have hv := hreach.valid
  have hgrant := granted (hv.returned hi hresult) rfl
  rw [hrequest] at hgrant
  -- the two branches differ in where the scope comes from
  obtain ⟨input, scope, hscope, hinput, hread, hsigned⟩ :
      ∃ (input : AccessTokenInput) (scope : String),
      GrantedScope call.log form input.sub scope ∧ input.scope = scope ∧
        Log.Saw call.log (.rbac (.permissionsOf input.sub)) (.ok input.permissions) ∧
        JwtService.Signed P call.log input response.accessToken := by
    cases hgrant with
    | code _ grant =>
        obtain ⟨id, hconsumed⟩ := grant.consumed
        obtain ⟨roles, permissions, hread, hsigned⟩ := grant.tokens.access
        exact ⟨_, _, .code hconsumed rfl rfl, rfl, hread, hsigned⟩
    | oauthRefresh _ grant =>
        obtain ⟨_, _, hrotated⟩ := grant.rotation
        obtain ⟨scope, roles, permissions, hnarrow, hread, hsigned⟩ := grant.access
        exact ⟨_, _, .refresh hrotated rfl hnarrow, rfl, hread, hsigned⟩
    | clientCredentials hclient _ => exact absurd hclient hform
  obtain rfl := hinput
  obtain ⟨n, pre, post, hmem, hans⟩ := answered hv hi hread
  have hpermissions := Stmt.permissionsOf_answer hans
  obtain ⟨jti, now, hpayload⟩ := hsigned.payload hv hi
  refine ⟨_, hmem, input.sub, input.scope, rfl, hscope, hsigned.sub hv hi, ?_, ?_⟩
  · rw [hpayload]
    rfl
  · rw [← hpermissions]
    exact hsigned.within_scope_iff hv hi

/-- The token of a user without permissions stays within its scope. -/
theorem client_token_within_scope_iff_of_user :
    ∃ (c : ServerConfig) (call : ServerCall) (response : TokenResponse), c.calls[2]? = some call ∧
      call.result = some (.ok (.tokens response)) ∧
      response.accessToken.payload.scope = some "openid api.read" ∧
      ∀ p, passes p response.accessToken.payload = true → p ∈ ["openid", "api.read"] := by
  have hplay : (sampleRun (loginMoves 0 "al@x.io" "Al 1" ++
      authorizeMoves 1 "openid api.read" none ++ exchangeMoves 2)).any (fun c =>
      (c.calls[2]?).any fun call =>
        ((tokenAnswer? call).any fun x => decide (x.1.grantType ≠ .clientCredentials ∧
          x.2.2.accessToken.payload.scope = some "openid api.read" ∧
          x.2.2.accessToken.payload.sub = sampleUuid 9001)) &&
        decide (∀ e ∈ call.log, e.pre.rbac.permissionsOf (sampleUuid 9001) = [])) = true := by
    decide +kernel
  obtain ⟨c, hc, hall⟩ := (Option.any_eq_true _ _).1 hplay
  obtain ⟨call, hi, hall⟩ := (Option.any_eq_true _ _).1 hall
  rw [Bool.and_eq_true, decide_eq_true_eq] at hall
  obtain ⟨hanswer, hnone⟩ := hall
  obtain ⟨⟨form, basicAuth, response⟩, hx, hanswer⟩ := (Option.any_eq_true _ _).1 hanswer
  obtain ⟨hform, hscope, hsub⟩ := of_decide_eq_true hanswer
  obtain ⟨hrequest, hresult⟩ := tokenAnswer?_eq_some hx
  obtain ⟨e, hmem, userId, scope, _, _, huser, hscope', hiff⟩ := client_token_within_scope_iff
    (sampleRun_reachable hc) hi hrequest hform hresult
  obtain rfl : scope = "openid api.read" := Option.some.inj (hscope'.symm.trans hscope)
  obtain rfl : userId = sampleUuid 9001 := huser.symm.trans hsub
  refine ⟨c, call, response, hi, hresult, hscope, ?_⟩
  have hwords : words "openid api.read" = ["openid", "api.read"] := by decide
  rw [← hwords]
  exact hiff.2 fun p hp => by simp [hnone e hmem] at hp

/-- An administrator grants `openid api.read` to a client, and the client uses its
access token, signed before the ID token, to disable a user. -/
def adminGrantMoves : List (Move World Incoming Env) :=
  loginMoves 0 "ro@x.io" "Ro 1" ++ authorizeMoves 1 "openid api.read" none ++ exchangeMoves 2 ++
    [.accept fun w => ⟨.setUserStatus (w.signed[1]?.map .jws) (sampleUuid 9001) true, {}⟩,
      .steps 3 40]

/-- **A client with plain scopes passes an admin guard.**  The token that the
client receives passes `users:write`, which is no scope of it, and the client
disables a user with it. -/
theorem client_token_beyond_scope :
    ∃ (c : ServerConfig) (response : TokenResponse), sampleRun adminGrantMoves = some c ∧
      c.returned 2 = some (.tokens response) ∧
      response.accessToken.payload.clientId = some "cli_spa" ∧
      response.accessToken.payload.scope = some "openid api.read" ∧
      passes "users:write" response.accessToken.payload = true ∧
      "users:write" ∉ words "openid api.read" ∧
      c.returned 3 = some (.status "updated") := by
  have hplay : (sampleRun adminGrantMoves).any (fun c =>
      ((c.calls[2]?).any fun call => (tokenAnswer? call).any fun x => decide
        (x.2.2.accessToken.payload.clientId = some "cli_spa" ∧
          x.2.2.accessToken.payload.scope = some "openid api.read" ∧
          passes "users:write" x.2.2.accessToken.payload = true)) &&
        decide (c.returned 3 = some (.status "updated"))) = true := by
    decide +kernel
  obtain ⟨c, hc, hall⟩ := (Option.any_eq_true _ _).1 hplay
  rw [Bool.and_eq_true, decide_eq_true_eq] at hall
  obtain ⟨hanswer, hadmin⟩ := hall
  obtain ⟨call, hi, hanswer⟩ := (Option.any_eq_true _ _).1 hanswer
  obtain ⟨⟨form, basicAuth, response⟩, hx, hanswer⟩ := (Option.any_eq_true _ _).1 hanswer
  obtain ⟨hclient, hscope, hpasses⟩ := of_decide_eq_true hanswer
  obtain ⟨_, hresult⟩ := tokenAnswer?_eq_some hx
  have hreturned : c.returned 2 = some (.tokens response) := by
    simp [Config.returned, hi, hresult, Except.toOption]
  exact ⟨c, response, hc, hreturned, hclient, hscope, hpasses, by decide, hadmin⟩

end IdentityPlatform
