/-
# Where privileges come from

An administrative statement needs a bearer token with its permission.  Such a token has the
permission from the roles of its user, when they were read to sign it, or in its scope, which is
one of a client: `administration_privileged`.  So privileges come from privileges only.  On a
platform where nobody has one, none ever comes to be, whatever is requested
(`no_privilege_from_nothing`).
-/

import Mathlib.Data.List.Dedup
import IdentityPlatform.Protocol.AdminScope
import IdentityPlatform.Protocol.ClaimTexts
import IdentityPlatform.Protocol.MailedTokens

namespace IdentityPlatform

open Interleaving Relational Machine AuthServer

variable {P : Platform} {c : ServerConfig} {i : ℕ} {call : ServerCall} {w w' : World}
  {p scope : String}

/-! ### Administrative statements -/

/-- The permission that the routes of a statement ask for. -/
def Stmt.permission : Stmt → Option String
  | .rbac (.setUserRoles ..) | .users (.setStatus ..) => some "users:write"
  | .rbac (.setRolePermissions ..) => some "roles:write"
  | .clients (.insert ..) | .clients (.rotateSecret ..) | .clients (.setStatus ..) =>
      some "clients:write"
  | _ => none

/-- The permissions of the administration. -/
def adminPermissions : List String := ["users:write", "roles:write", "clients:write"]

theorem Stmt.permission_mem {s : Stmt} (h : s.permission = some p) : p ∈ adminPermissions := by
  unfold Stmt.permission at h
  split at h <;> first
    | cases h; decide
    | cases h

/-- **An administrative statement needs its permission.** -/
theorem Stmt.administered {s : Stmt} {request : Request} {l : ServerLog}
    (horigin : Origin P request l s) (hjust : Justified P request l s)
    (h : s.permission = some p) :
    ∃ token payload, JwtService.Accepted l token payload ∧ passes p payload = true := by
  unfold Stmt.permission at h
  split at h
  all_goals first
    | obtain rfl := Option.some.inj h
    | cases h
  · obtain ⟨_, _, _, ⟨token, payload, _, haccepted, hpasses⟩, _⟩ := horigin
    exact ⟨token, payload, haccepted, hpasses⟩
  · obtain ⟨token, payload, _, _, _, haccepted, hpasses, _⟩ := hjust.administered
    exact ⟨token, payload, haccepted, hpasses⟩
  · obtain ⟨_, _, _, ⟨token, payload, _, haccepted, hpasses⟩, _⟩ := horigin
    exact ⟨token, payload, haccepted, hpasses⟩
  · obtain ⟨_, _, _, ⟨token, payload, _, haccepted, hpasses⟩, _⟩ := horigin
    exact ⟨token, payload, haccepted, hpasses⟩
  · obtain ⟨_, _, _, _, ⟨token, payload, _, haccepted, hpasses⟩, _⟩ := horigin
    exact ⟨token, payload, haccepted, hpasses⟩
  · obtain ⟨_, _, _, ⟨token, payload, _, haccepted, hpasses⟩, _⟩ := horigin
    exact ⟨token, payload, haccepted, hpasses⟩

/-! ### Scopes -/

/-- A scope text is that of a login, or within what a client is allowed. -/
def ScopeGranted (w : World) (scope : String) : Prop :=
  (∃ roles, scope = defaultScopeForRoles roles) ∨
    ∃ client ∈ w.clients, ScopeWithin scope client.allowedScopes

/-- The scope of a consumed code is one of its client. -/
theorem code_scopeGranted (hreach : (machine P).Reachable World.Initial c)
    (hi : c.calls[i]? = some call) {id : String} {row : AuthorizationCodeRow}
    (h : Log.Saw call.log (.codes (.consume id)) (.ok (some row))) :
    ScopeGranted c.world row.scope := by
  obtain ⟨n, pre, post, hmem, hans⟩ := answered hreach.valid hi h
  obtain ⟨_, _, _, _, _, hpost⟩ := Stmt.consume_answer hans
  obtain ⟨b, hb, hle⟩ := ((hreach.ordered (le_stable P)).post hi _ hmem).codes row hpost
  obtain ⟨issue⟩ := code_scope hreach hb
  exact .inr ⟨issue.client, issue.registered, hle.scope ▸ issue.allowed⟩

/-- **Every refresh token has a granted scope.** -/
theorem row_scopeGranted (hreach : (machine P).Reachable World.Initial c) {row : RefreshTokenRow}
    (hrow : row ∈ c.world.refreshTokens) : ScopeGranted c.world row.scope := by
  refine stored_induction (Q := fun row => ScopeGranted c.world row.scope) hreach ?_ ?_ hrow
  · rintro i call n pre post data row hi he hnone _ ⟨_, _, hle⟩
    obtain ⟨l, hl, hreason⟩ := inserted_reason hreach.valid hi he
    have hlog := (List.suffix_cons _ l).trans hl
    have hscope : row.scope = data.scope := hle.scope
    rw [hscope]
    cases hreason with
    | login _ _ _ | challenge _ _ _ _ => exact .inl ⟨_, rfl⟩
    | exchange _ _ _ _ consumed _ _ => exact code_scopeGranted hreach hi (consumed.mono hlog)
    | rotation _ => cases hnone
  · intro row next hold hrow hnext hprevious
    obtain ⟨_, _, hscope⟩ := successor_grant hreach hrow hnext hprevious
    exact hscope ▸ hold

/-- So has a token that is rotated. -/
theorem rotated_scopeGranted (hreach : (machine P).Reachable World.Initial c)
    (hi : c.calls[i]? = some call) {hash : String} {old : RefreshTokenRow}
    (h : Log.Saw call.log (.refreshTokens (.rotate hash)) (.ok (some old))) :
    ScopeGranted c.world old.scope := by
  obtain ⟨n, pre, post, hmem, hans⟩ := answered hreach.valid hi h
  obtain ⟨before, hbefore, _, _, _, rfl, _⟩ := Stmt.rotate_answer hans
  have hord := hreach.ordered (le_stable P)
  obtain ⟨row, hrow, hle⟩ :=
    ((hord.answer hi _ hmem).trans (hord.post hi _ hmem)).refreshTokens before hbefore
  exact hle.scope ▸ row_scopeGranted hreach hrow

/-- A narrowed scope is granted where the original is. -/
theorem ScopeGranted.narrowed {original : String} {p : String} (h : ScopeGranted w original)
    (hnarrowed : NarrowedFrom original scope) (hp : p ∈ words scope) :
    p ∈ ["openid", "profile", "email", "api.read", "api.write"] ∨
      ∃ client ∈ w.clients, p ∈ client.allowedScopes := by
  have hword := hnarrowed.within p hp
  rcases h with ⟨roles, rfl⟩ | ⟨client, hclient, hwithin⟩
  · rw [defaultScopeForRoles, words_joinWords fun word hword =>
      (isItem_of_isScopeName (isScopeName_default word hword)).isWord] at hword
    refine .inl ?_
    split_ifs at hword <;> simp at hword ⊢ <;> tauto
  · exact .inr ⟨client, hclient, hwithin p hword⟩

/-- **Every scope of a signed token** is that of a login, or one of a client. -/
theorem token_scope_granted (hreach : (machine P).Reachable World.Initial c) {token : Jws}
    (htoken : token ∈ c.world.signed) (hscope : token.payload.scope = some scope)
    (hp : p ∈ words scope) : p ∈ ["openid", "profile", "email", "api.read", "api.write"] ∨
      ∃ client ∈ c.world.clients, p ∈ client.allowedScopes := by
  obtain ⟨i, call, n, pre, post, kid, hi, he⟩ := token_signed hreach htoken
  have hsigned : Signs call token := ⟨n, pre, kid, token.payload, post, he⟩
  obtain ⟨l, input, hl, hreason, rfl, _⟩ := hsigned.reason hreach.valid hi hscope
  cases hreason with
  | login _ _ _ _ | challenge _ _ _ _ _ =>
      exact ScopeGranted.narrowed (.inl ⟨_, rfl⟩) (.inl rfl) hp
  | refresh _ rotated _ _ =>
      obtain ⟨l', hrotated, hsince⟩ := rotated
      exact (rotated_scopeGranted hreach hi (hrotated.mono (hsince.suffix.trans hl))).narrowed
        (.inl rfl) hp
  | exchange _ _ _ _ _ consumed _ _ _ =>
      exact (code_scopeGranted hreach hi (consumed.mono hl)).narrowed (.inl rfl) hp
  | oauthRefresh _ _ _ _ _ rotated _ narrowed _ =>
      obtain ⟨l', hrotated, hsince⟩ := rotated
      exact (rotated_scopeGranted hreach hi (hrotated.mono (hsince.suffix.trans hl))).narrowed
        (narrowScope_narrowed narrowed) hp
  | clientCredentials _ _ identified allowed =>
      obtain ⟨client, hclient, hle, _⟩ := read_client hreach hi (identified.read.mono hl)
      rw [words_joinWords fun word hword => isWord_of_mem hword] at hp
      exact .inr ⟨client, hclient, hle.allowedScopes ▸ allowed p hp⟩

/-! ### Permissions -/

/-- The call has signed the token, and in its log before, `l`, it has read the permission among
those that the roles of the token's user give. -/
structure SignsPermission (signer : ServerCall) (l : ServerLog) (token : Jws) (p : String) :
    Prop where
  signed : ∃ n pre kid payload post,
    (⟨n, pre, .kms (.sign kid payload), .ok token, post⟩ : ServerEvent) :: l <:+ signer.log
  held : ∃ e ∈ l, e.op = .rbac (.permissionsOf token.payload.sub) ∧
    p ∈ e.pre.rbac.permissionsOf token.payload.sub

/-- The roles of the token's user gave the permission when it was read to sign the token. -/
def HeldThroughRoles (c : ServerConfig) (token : Jws) (p : String) : Prop :=
  ∃ (j : ℕ) (signer : ServerCall) (l : ServerLog), c.calls[j]? = some signer ∧
    SignsPermission signer l token p

/-- A client is allowed the permission as a scope. -/
def AllowedToClient (w : World) (p : String) : Prop :=
  ∃ client ∈ w.clients, p ∈ client.allowedScopes

/-- **Every signed permission was held through roles.** -/
theorem token_permission_held (hreach : (machine P).Reachable World.Initial c) {token : Jws}
    (htoken : token ∈ c.world.signed) (hp : p ∈ token.payload.permissions.getD []) :
    HeldThroughRoles c token p := by
  obtain ⟨j, signer, n, pre, post, kid, hj, he⟩ := token_signed hreach htoken
  obtain ⟨l, hl, hnone | hread⟩ := origin_event hreach.valid hj he
  · rw [hnone] at hp
    cases hp
  · obtain ⟨m, w, w', hmem⟩ := hread
    have hlog := ((List.suffix_cons _ l).trans hl).subset hmem
    have hans := Stmt.permissionsOf_answer (executed hreach.valid hj hlog)
    exact ⟨j, signer, l, hj, ⟨⟨n, pre, kid, _, post, hl⟩, _, hmem, rfl, hans ▸ hp⟩⟩

/-- **Where an accepted permission comes from.** -/
theorem accepted_permission (hreach : (machine P).Reachable World.Initial c)
    (hi : c.calls[i]? = some call) {token : Jws} {payload : JwtPayload}
    (haccepted : JwtService.Accepted call.log token payload) (hadmin : p ∈ adminPermissions)
    (hpasses : passes p payload = true) :
    payload = token.payload ∧ (HeldThroughRoles c token p ∨ AllowedToClient c.world p) := by
  obtain ⟨kid, hverified⟩ := haccepted.verified
  obtain ⟨_, pre, post, hmem, hans⟩ := answered hreach.valid hi hverified
  obtain ⟨rfl, hsigned, _⟩ := Stmt.jwtVerify_answer hans
  have hord := hreach.ordered (le_stable P)
  have htoken : token ∈ c.world.signed :=
    ((hord.answer hi _ hmem).trans (hord.post hi _ hmem)).signed hsigned
  refine ⟨rfl, ?_⟩
  rcases List.mem_append.1 (of_decide_eq_true hpasses) with hp | hp
  · exact .inl (token_permission_held hreach htoken hp)
  · cases hscope : token.payload.scope with
    | none =>
        simp only [tokenPermissions, AuthenticatedUser.ofPayload, hscope, Option.getD_none] at hp
        cases hp
    | some scope =>
        simp only [tokenPermissions, AuthenticatedUser.ofPayload, hscope, Option.getD_some] at hp
        refine (token_scope_granted hreach htoken hscope hp).elim (fun hlogin => ?_) .inr
        have hapart : ∀ p ∈ adminPermissions,
            p ∉ ["openid", "profile", "email", "api.read", "api.write"] := by decide
        exact absurd hlogin (hapart p hadmin)

/-- **Administration is privileged.**  Before an administrative statement its call has accepted
a bearer token with the permission for it; and the call that has signed this token had read the
permission among those that the roles of its user give, or it is a scope that a client is
allowed. -/
theorem administration_privileged (hreach : (machine P).Reachable World.Initial c)
    (hi : c.calls[i]? = some call) {e : ServerEvent} (he : e ∈ call.log)
    (h : e.op.permission = some p) : ∃ l token, e :: l <:+ call.log ∧
      JwtService.Accepted l token token.payload ∧ passes p token.payload = true ∧
      (HeldThroughRoles c token p ∨ AllowedToClient c.world p) := by
  obtain ⟨l, ⟨horigin, hjust⟩, hl⟩ := hreach.valid.respected
    (P := fun req l s => Origin P req.request l s ∧ Justified P req.request l s)
    (fun req l s hs => ⟨handler_origins req l s hs, handler_justified req l s hs⟩) hi he
  obtain ⟨token, payload, haccepted, hpasses⟩ := Stmt.administered horigin hjust h
  obtain ⟨rfl, hheld⟩ := accepted_permission hreach hi
    (haccepted.mono ((List.suffix_cons _ l).trans hl)) (Stmt.permission_mem h) hpasses
  exact ⟨l, token, hl, haccepted, hpasses, hheld⟩

/-- An administrator signs in and registers a client. -/
def administrationMoves : List (Move World Incoming Env) :=
  loginMoves 0 "ro@x.io" "Ro 1" ++
    createClientMoves 1 (sampleClient ["openid"] ["authorization_code"])

theorem administration_privileged_of_client :
    ∃ (c : ServerConfig) (call : ServerCall) (e : ServerEvent),
      sampleRun administrationMoves = some c ∧ c.calls[1]? = some call ∧ e ∈ call.log ∧
      e.op.permission = some "clients:write" ∧ ∃ l token, e :: l <:+ call.log ∧
        JwtService.Accepted l token token.payload ∧ passes "clients:write" token.payload = true ∧
        (HeldThroughRoles c token "clients:write" ∨ AllowedToClient c.world "clients:write") := by
  have hplay : (sampleRun administrationMoves).any (fun c => (c.calls[1]?).any fun call =>
      call.log.any fun e => decide (e.op.permission = some "clients:write")) = true := by
    decide +kernel
  obtain ⟨c, hc, hcall⟩ := (Option.any_eq_true _ _).1 hplay
  obtain ⟨call, hi, hevent⟩ := (Option.any_eq_true _ _).1 hcall
  obtain ⟨e, he, hop⟩ := List.any_eq_true.1 hevent
  have hpermission := of_decide_eq_true hop
  exact ⟨c, call, e, hc, hi, he, hpermission,
    administration_privileged (sampleRun_reachable hc) hi he hpermission⟩

/-! ### Powers -/

/-- The role gives a permission of the administration. -/
def Rbac.Administrative (rbac : Rbac) (role : String) : Prop :=
  ∃ permission ∈ rbac.permissions, permission.name ∈ adminPermissions ∧
    (role, permission.id) ∈ rbac.rolePermissions

/-- Nobody has a permission of the administration: no user through a role, no client as a scope,
and the role that a registration gives has none either. -/
structure World.Powerless (w : World) : Prop where
  links : ∀ link ∈ w.rbac.userRoles, ¬w.rbac.Administrative link.2
  joined : ∀ role ∈ Rbac.idsNamed w.rbac.roles ["user"], ¬w.rbac.Administrative role
  clients : ∀ client ∈ w.clients, ∀ p ∈ adminPermissions, p ∉ client.allowedScopes

/-- The same clients, roles and permissions; a user may have got the role of a registration. -/
structure SamePowers (w w' : World) : Prop where
  clients : w'.clients = w.clients
  roles : w'.rbac.roles = w.rbac.roles
  permissions : w'.rbac.permissions = w.rbac.permissions
  rolePermissions : w'.rbac.rolePermissions = w.rbac.rolePermissions
  links : ∀ link ∈ w'.rbac.userRoles,
    link ∈ w.rbac.userRoles ∨ link.2 ∈ Rbac.idsNamed w.rbac.roles ["user"]

theorem SamePowers.refl (w : World) : SamePowers w w := ⟨rfl, rfl, rfl, rfl, fun _ => .inl⟩

theorem SamePowers.trans {w'' : World} (h : SamePowers w w') (h' : SamePowers w' w'') :
    SamePowers w w'' where
  clients := h'.clients.trans h.clients
  roles := h'.roles.trans h.roles
  permissions := h'.permissions.trans h.permissions
  rolePermissions := h'.rolePermissions.trans h.rolePermissions
  links link hlink := (h'.links link hlink).elim (h.links link) fun hrole => .inr (h.roles ▸ hrole)

theorem SamePowers.of_eq (hclients : w'.clients = w.clients) (hrbac : w'.rbac = w.rbac) :
    SamePowers w w' := by
  refine ⟨hclients, ?_, ?_, ?_, fun link hlink => .inl ?_⟩
  · rw [hrbac]
  · rw [hrbac]
  · rw [hrbac]
  · exact hrbac ▸ hlink

theorem SamePowers.administrative (h : SamePowers w w') {role : String} :
    w'.rbac.Administrative role ↔ w.rbac.Administrative role := by
  simp only [Rbac.Administrative, h.permissions, h.rolePermissions]

theorem World.Powerless.same (h : w.Powerless) (hsame : SamePowers w w') : w'.Powerless where
  links link hlink hrole :=
    (hsame.links link hlink).elim (fun hold => h.links link hold (hsame.administrative.1 hrole))
      fun hjoined => h.joined link.2 hjoined (hsame.administrative.1 hrole)
  joined role hrole hadmin :=
    h.joined role (hsame.roles ▸ hrole) (hsame.administrative.1 hadmin)
  clients := hsame.clients ▸ h.clients

/-- Nobody reads a permission of the administration there. -/
theorem World.Powerless.permissionsOf (h : w.Powerless) {u : String} (hp : p ∈ adminPermissions) :
    p ∉ w.rbac.permissionsOf u := by
  intro hmem
  simp only [Rbac.permissionsOf, orderByName, List.mem_insertionSort, List.mem_dedup, List.mem_map,
    List.mem_filter, List.any_eq_true, Bool.and_eq_true, decide_eq_true_eq] at hmem
  obtain ⟨permission, ⟨hpermission, link, hlink, _, hgives⟩, rfl⟩ := hmem
  exact h.links link hlink ⟨permission, hpermission, hp, hgives⟩

/-- A role that is added is one of that name. -/
theorem RbacStmt.addRole_links (w : World) (u role : String) : ∃ links,
    ((addRole u role).effect w).2 = { w.rbac with userRoles := links } ∧
      ∀ link ∈ links, link ∈ w.rbac.userRoles ∨ link.2 ∈ Rbac.idsNamed w.rbac.roles [role] := by
  simp only [effect, constrained]
  split
  · exact ⟨w.rbac.userRoles, rfl, fun _ => .inl⟩
  · refine ⟨_, rfl, fun link hlink => (List.mem_append.1 hlink).imp_right fun hnew => ?_⟩
    obtain ⟨id, hid, rfl⟩ := List.mem_map.1 (List.mem_of_mem_filter hnew)
    exact hid

/-- A statement that needs no permission leaves the powers as they are. -/
theorem Stmt.exec_powers {s : Stmt} {r : String} {ans : Except Err s.Ans}
    (h : s.exec P r w = some (ans, w')) (hnone : s.permission = none)
    (hjoin : ∀ id role, s = .rbac (.addRole id role) → role = "user") : SamePowers w w' := by
  rcases exec_cases h with ⟨_, rfl⟩ | ⟨_, _, ledger, rfl, _⟩
  · exact .refl _
  · cases s with
    | rbac u =>
        cases u with
        | addRole id role =>
            obtain rfl := hjoin id role rfl
            obtain ⟨links, hrbac, hlinks⟩ := RbacStmt.addRole_links w id "user"
            simp only [effect, hrbac]
            exact ⟨rfl, rfl, rfl, rfl, hlinks⟩
        | setUserRoles | setRolePermissions => cases hnone
        | rolesOf | permissionsOf => exact .of_eq rfl rfl
    | clients u =>
        cases u with
        | insert | rotateSecret | setStatus => cases hnone
        | _ => exact .of_eq rfl rfl
    | _ => exact .of_eq rfl rfl

/-- The powers have been those of `w` all along, and no statement of the administration has been
executed. -/
structure Unprivileged (w : World) (c : ServerConfig) : Prop where
  world : SamePowers w c.world
  pre : ∀ (i : ℕ) call, c.calls[i]? = some call → ∀ e ∈ call.log, SamePowers w e.pre
  events : ∀ (i : ℕ) call, c.calls[i]? = some call → ∀ e ∈ call.log, e.op.permission = none

/-- A call is not about to execute a statement of the administration. -/
theorem Unprivileged.next (h : Unprivileged w c) (hpower : w.Powerless)
    (hreach : (machine P).Reachable World.Initial c) (hi : c.calls[i]? = some call) {op : Stmt}
    (hop : (handler P call.req).Reaches [] call.log op) : op.permission = none := by
  by_contra hsome
  obtain ⟨p, hpermission⟩ := Option.ne_none_iff_exists'.1 hsome
  have hadmin := Stmt.permission_mem hpermission
  obtain ⟨token, payload, haccepted, hpasses⟩ := Stmt.administered
    (handler_origins call.req call.log op hop) (handler_justified call.req call.log op hop)
    hpermission
  rcases (accepted_permission hreach hi haccepted hadmin hpasses).2 with
    ⟨j, signer, l, hj, hsigns⟩ | ⟨client, hclient, hallowed⟩
  · obtain ⟨_, _, _, _, _, hl⟩ := hsigns.signed
    obtain ⟨e, he, _, hheld⟩ := hsigns.held
    have hlog := ((List.suffix_cons _ l).trans hl).subset he
    exact (hpower.same (h.pre j signer hj e hlog)).permissionsOf hadmin hheld
  · exact (hpower.same h.world).clients client hclient p hadmin hallowed

theorem Unprivileged.apply (h : Unprivileged w c) (hpower : w.Powerless)
    (hreach : (machine P).Reachable World.Initial c) {a : Action Incoming String Env}
    {c' : ServerConfig} (hstep : (machine P).apply c a = some c') : Unprivileged w c' := by
  rcases step_cases hstep with ⟨req, _, rfl⟩ |
    ⟨i, call, op, k, ans, post, _, hi, hp, hans, rfl⟩ | ⟨e, w', _, henv, rfl⟩
  · constructor
    · exact h.world
    · intro j call hj e he
      rcases accept_get_cases hj with ⟨_, hj⟩ | ⟨_, rfl⟩
      · exact h.pre j call hj e he
      · cases he
    · intro j call hj e he
      rcases accept_get_cases hj with ⟨_, hj⟩ | ⟨_, rfl⟩
      · exact h.events j call hj e he
      · cases he
  · have hnext := hreach.valid.next hi hp
    have hnone := h.next hpower hreach hi hnext
    constructor
    · rcases hans with ⟨r, hexec⟩ | ⟨_, rfl⟩
      · refine h.world.trans (Stmt.exec_powers hexec hnone ?_)
        rintro id role rfl
        exact (handler_origins call.req call.log _ hnext).1
      · exact h.world
    · intro j call' hj e he
      rcases Config.record_get_cases hi hj with ⟨_, hj⟩ | ⟨_, rfl⟩
      · exact h.pre j call' hj e he
      · rcases List.mem_cons.1 he with rfl | he
        · exact h.world
        · exact h.pre i call hi e he
    · intro j call' hj e he
      rcases Config.record_get_cases hi hj with ⟨_, hj⟩ | ⟨_, rfl⟩
      · exact h.events j call' hj e he
      · rcases List.mem_cons.1 he with rfl | he
        · exact hnone
        · exact h.events i call hi e he
  · exact ⟨h.world.trans (.of_eq (Env.apply_clients henv) (by rw [Env.apply_eq henv])), h.pre,
      h.events⟩

/-- **No privilege comes from nothing.**  Where nobody has a permission of the administration,
whatever is requested, in any order: no statement of the administration is ever executed, the
clients, the roles and what they give stay as they are, and a user gets a role only by
registration. -/
theorem no_privilege_from_nothing (hw : w.Initial) (hpower : w.Powerless)
    (hrun : (machine P).Run (Config.initial w) c) : SamePowers w c.world ∧
      ∀ (i : ℕ) call, c.calls[i]? = some call → ∀ e ∈ call.log, e.op.permission = none := by
  have hstart : (machine P).Reachable (fun w' => w' = w) c := ⟨w, rfl, hrun⟩
  have hkept : Unprivileged w c := by
    refine hstart.invariant ?_ ?_
    · rintro _ rfl
      exact ⟨.refl _, fun i call hi => by simp [Config.initial] at hi,
        fun i call hi => by simp [Config.initial] at hi⟩
    · rintro c₁ a c₂ ⟨_, rfl, hbefore⟩ h hstep
      exact h.apply hpower ⟨_, hw, hbefore⟩ hstep
  exact ⟨hkept.world, hkept.events⟩

/-- The sample platform without its administrator. -/
def World.unmanaged : World :=
  { World.sample with
    rbac := { World.sample.rbac with userRoles := [(sampleUuid 9001, sampleUuid 9101)] } }

theorem World.initial_unmanaged : World.unmanaged.Initial := { World.initial_sample with }

theorem World.powerless_unmanaged : World.unmanaged.Powerless where
  links := by
    intro link hlink hadmin
    obtain rfl := List.mem_singleton.1 hlink
    obtain ⟨permission, hpermission, _, hgives⟩ := hadmin
    have hnone : ∀ permission ∈ World.unmanaged.rbac.permissions,
        (sampleUuid 9101, permission.id) ∉ World.unmanaged.rbac.rolePermissions := by decide
    exact hnone permission hpermission hgives
  joined := by
    intro role hrole hadmin
    obtain ⟨permission, hpermission, _, hgives⟩ := hadmin
    have hnone : ∀ role ∈ Rbac.idsNamed World.unmanaged.rbac.roles ["user"],
        ∀ permission ∈ World.unmanaged.rbac.permissions,
          (role, permission.id) ∉ World.unmanaged.rbac.rolePermissions := by decide
    exact hnone role hrole permission hpermission hgives
  clients := by decide

/-- Whoever was an administrator registers no client there. -/
theorem no_privilege_from_nothing_of_client : ∃ c : ServerConfig,
    (machine .sample).play Stmt.sampleRandom administrationMoves
      (Config.initial World.unmanaged) = some c ∧ c.calls.length = 2 ∧
      SamePowers World.unmanaged c.world ∧
      ∀ (i : ℕ) call, c.calls[i]? = some call → ∀ e ∈ call.log, e.op.permission = none := by
  have hplay : ((machine .sample).play Stmt.sampleRandom administrationMoves
      (Config.initial World.unmanaged)).any (fun c => decide (c.calls.length = 2)) = true := by
    decide +kernel
  obtain ⟨c, hc, hcalls⟩ := (Option.any_eq_true _ _).1 hplay
  exact ⟨c, hc, of_decide_eq_true hcalls,
    no_privilege_from_nothing World.initial_unmanaged World.powerless_unmanaged (run_of_play hc)⟩

end IdentityPlatform
