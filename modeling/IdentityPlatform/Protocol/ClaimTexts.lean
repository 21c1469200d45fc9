/-
# The texts of the claims

What the claims of an access token look like as texts: its subject and its client are
items, the words of its scope are names of scopes, and its roles are those of the table.
They are copied from rows, so the rows have to be of this kind as well; the rows of the
clients are because the route that registers them checks the scopes.
-/

import IdentityPlatform.Modules.Roles
import IdentityPlatform.Protocol.ClientScopes
import IdentityPlatform.Protocol.Identifiers

namespace IdentityPlatform

open Interleaving Program Relational Machine AuthServer

variable {P : Platform} {c : ServerConfig} {w : World}

/-- A scope of names of scopes. -/
def ScopeNames (scope : String) : Prop := ∀ s ∈ words scope, isScopeName s = true

/-- A client as it is registered. -/
structure OAuthClientRow.Registered (client : OAuthClientRow) : Prop where
  id : IsItem client.id
  clientId : IsItem client.clientId
  scopes : ∀ s ∈ client.allowedScopes, isScopeName s = true

/-- A refresh token of the kind that is issued. -/
structure RefreshTokenRow.Plain (row : RefreshTokenRow) : Prop where
  userId : IsItem row.userId
  clientId : ∀ id, row.clientId = some id → IsItem id
  scope : ScopeNames row.scope

/-- The claims of an access token of the kind that is signed. -/
structure JwtPayload.Plain (payload : JwtPayload) : Prop where
  sub : IsItem payload.sub
  clientId : ∀ id, payload.clientId = some id → IsItem id
  scope : ∀ scope, payload.scope = some scope → ScopeNames scope
  roles : ∀ roles, payload.roles = some roles → ∀ role ∈ roles, role ∈ seededRoles

/-- A platform that is set up: seeded roles, users with identifiers and registered
clients. -/
structure World.SetUp (w : World) : Prop extends w.Initial where
  roles : ∀ role ∈ w.rbac.roles, role.name ∈ seededRoles
  users : ∀ user ∈ w.users, IsItem user.id
  registered : ∀ client ∈ w.clients, client.Registered

/-- All rows and access tokens are of these kinds. -/
structure World.Plain (w : World) : Prop where
  roles : ∀ role ∈ w.rbac.roles, role.name ∈ seededRoles
  users : ∀ user ∈ w.users, IsItem user.id
  clients : ∀ client ∈ w.clients, client.Registered
  codes : ∀ code ∈ w.codes, IsItem code.userId ∧ ScopeNames code.scope
  sessions : ∀ s ∈ w.sessions, IsItem s.userId
  refreshTokens : ∀ row ∈ w.refreshTokens, row.Plain
  signed : ∀ token ∈ w.signed, token.payload.scope.isSome = true → token.payload.Plain

/-- The scopes and roles of rows and access tokens are of these kinds. -/
structure World.PlainScopes (w : World) : Prop where
  roles : ∀ role ∈ w.rbac.roles, role.name ∈ seededRoles
  clients : ∀ client ∈ w.clients, ∀ s ∈ client.allowedScopes, isScopeName s = true
  codes : ∀ code ∈ w.codes, ScopeNames code.scope
  refreshTokens : ∀ row ∈ w.refreshTokens, ScopeNames row.scope
  signed : ∀ token ∈ w.signed, ∀ scope, token.payload.scope = some scope → ScopeNames scope ∧
    ∀ roles, token.payload.roles = some roles → ∀ role ∈ roles, role ∈ seededRoles

theorem World.SetUp.plainScopes (h : w.SetUp) : w.PlainScopes where
  roles := h.roles
  clients client hclient := (h.registered client hclient).scopes
  codes := by simp [h.codes]
  refreshTokens := by simp [h.refreshTokens]
  signed := by simp [h.signed]

theorem World.SetUp.named (h : w.SetUp) : w.Named IsItem where
  users := h.users
  clients client hclient :=
    ⟨(h.registered client hclient).id, (h.registered client hclient).clientId⟩

/-- Identifiers that are items, and plain scopes, are all there is to it. -/
theorem World.PlainScopes.plain (h : w.PlainScopes) (hnamed : w.AllNamed IsItem) : w.Plain where
  roles := h.roles
  users := hnamed.users
  clients client hclient :=
    ⟨(hnamed.clients client hclient).1, (hnamed.clients client hclient).2, h.clients client hclient⟩
  codes code hcode := ⟨hnamed.codes code hcode, h.codes code hcode⟩
  sessions s hs := (hnamed.sessions s hs).2
  refreshTokens row hrow := ⟨(hnamed.refreshTokens row hrow).userId,
    (hnamed.refreshTokens row hrow).clientId, h.refreshTokens row hrow⟩
  signed token htoken hscope := by
    have hnames := hnamed.signed token htoken hscope
    obtain ⟨scope, hscope⟩ := Option.isSome_iff_exists.1 hscope
    exact ⟨hnames.sub, hnames.clientId, fun scope hscope => (h.signed token htoken scope hscope).1,
      (h.signed token htoken scope hscope).2⟩

/-- What the routes let through: a client is registered with names of scopes. -/
def Accepted (isUrl : String → Bool) : Request → Prop
  | .createClient _ data => createClientSchema isUrl data = true
  | _ => True

theorem Accepted.scopes {isUrl : String → Bool} {bearer : Option WireToken}
    {data : CreateClientData} (h : Accepted isUrl (.createClient bearer data)) :
    ∀ s ∈ data.allowedScopes, isScopeName s = true := by
  simp only [Accepted, createClientSchema, Bool.and_eq_true] at h
  exact List.all_eq_true.1 h.1.1.1.1.2

/-- The environment writes none of these rows. -/
theorem Env.apply_plain {env : Env} {w' : World} (h : env.apply w = some w') (hw : w.PlainScopes) :
    w'.PlainScopes := by
  rw [Env.apply_eq h]
  exact { hw with }

/-! ### Scopes -/

theorem ScopeNames.within {scope : String} {list : List String} (h : ScopeWithin scope list)
    (hlist : ∀ s ∈ list, isScopeName s = true) : ScopeNames scope :=
  fun s hs => hlist s (h s hs)

/-- The scope of a login lists names of scopes. -/
theorem isScopeName_default {roles : List String} :
    ∀ s ∈ ["openid", "profile", "email", "api.read"] ++
      (if "admin" ∈ roles then ["api.write"] else []), isScopeName s = true := by
  have hfive : ∀ s ∈ ["openid", "profile", "email", "api.read", "api.write"],
      isScopeName s = true := by decide +kernel
  intro s hs
  refine hfive s ?_
  split_ifs at hs <;> simp at hs ⊢ <;> tauto

theorem scopeNames_default {roles : List String} : ScopeNames (defaultScopeForRoles roles) := by
  intro s hs
  rw [defaultScopeForRoles, words_joinWords fun word hword =>
    (isItem_of_isScopeName (isScopeName_default word hword)).isWord] at hs
  exact isScopeName_default s hs

/-! ### One statement -/

section Step

variable {request : Request} {l : ServerLog} {s : Stmt} {ans : Except Err s.Ans} {r : String}
  {pre post : World}

/-- What has been seen was seen in plain states. -/
abbrev SeenPlain (P : Platform) (l : ServerLog) : Prop :=
  ∀ (s : Stmt) (a : s.Ans), l.Saw s (.ok a) →
    ∃ pre post, s.Answered P a pre post ∧ pre.PlainScopes ∧ post.PlainScopes

theorem SeenPlain.client (h : SeenPlain P l) {clientId : String} {client : OAuthClientRow}
    (hs : l.Saw (.clients (.findByClientId clientId)) (.ok (some client))) :
    ∀ s ∈ client.allowedScopes, isScopeName s = true := by
  obtain ⟨pre, post, hans, hpre, _⟩ := h _ _ hs
  exact hpre.clients client (lookup_mem (Stmt.findByClientId_answer hans).symm)

theorem SeenPlain.rotated (h : SeenPlain P l) {hash : String} {row : RefreshTokenRow}
    (hs : l.Saw (.refreshTokens (.rotate hash)) (.ok (some row))) : ScopeNames row.scope := by
  obtain ⟨pre, post, hans, _, hpost⟩ := h _ _ hs
  obtain ⟨_, _, _, _, _, _, hrow⟩ := Stmt.rotate_answer hans
  exact hpost.refreshTokens row hrow

theorem SeenPlain.consumed (h : SeenPlain P l) {id : String} {row : AuthorizationCodeRow}
    (hs : l.Saw (.codes (.consume id)) (.ok (some row))) : ScopeNames row.scope := by
  obtain ⟨pre, post, hans, _, hpost⟩ := h _ _ hs
  obtain ⟨_, _, _, _, _, hrow⟩ := Stmt.consume_answer hans
  exact hpost.codes row hrow

theorem SeenPlain.roles (h : SeenPlain P l) {id : String} {roles : List String}
    (hs : l.Saw (.rbac (.rolesOf id)) (.ok roles)) : ∀ role ∈ roles, role ∈ seededRoles := by
  obtain ⟨pre, post, hans, hpre, _⟩ := h _ _ hs
  intro role hrole
  obtain ⟨row, hrow, rfl⟩ := Stmt.exists_of_mem_rolesOf (Stmt.rolesOf_answer hans ▸ hrole)
  exact hpre.roles row hrow

/-- A refresh token is stored with names of scopes. -/
theorem RefreshReason.plain {data : IssueRefreshData} (h : RefreshReason P request l data)
    (hseen : SeenPlain P l) : ScopeNames data.scope := by
  cases h with
  | rotation rotated => exact hseen.rotated rotated
  | login | challenge => exact scopeNames_default
  | exchange _ _ _ _ consumed _ _ => exact hseen.consumed consumed

/-- An access token is signed with names of scopes and of roles. -/
theorem TokenReason.plain {input : AccessTokenInput} (h : TokenReason P request l input)
    (hseen : SeenPlain P l) :
    ScopeNames input.scope ∧ ∀ role ∈ input.roles, role ∈ seededRoles := by
  cases h with
  | login _ _ _ granted | challenge _ _ _ _ granted =>
      exact ⟨scopeNames_default, hseen.roles granted⟩
  | refresh _ rotated _ granted =>
      obtain ⟨l', hrotated, hfound⟩ := rotated
      exact ⟨hseen.rotated (hrotated.mono hfound.suffix), hseen.roles granted⟩
  | exchange _ _ _ _ _ consumed _ _ granted => exact ⟨hseen.consumed consumed, hseen.roles granted⟩
  | oauthRefresh _ _ _ _ _ rotated _ narrowed granted =>
      obtain ⟨l', hrotated, hfound⟩ := rotated
      have hrow := hseen.rotated (hrotated.mono hfound.suffix)
      exact ⟨.within (narrowScope_within narrowed) hrow, hseen.roles granted⟩
  | clientCredentials _ _ identified allowed =>
      refine ⟨fun s hs => ?_, by simp [seededRoles]⟩
      rw [words_joinWords fun word hword => isWord_of_mem hword] at hs
      exact hseen.client identified.read s (allowed s hs)

/-- **A statement leaves scopes and roles plain** when its call has seen plain ones only. -/
theorem exec_plain {isUrl : String → Bool} (hexec : s.exec P r pre = some (ans, post))
    (hjust : Justified P request l s) (haccepted : Accepted isUrl request)
    (hseen : SeenPlain P l) (hpre : pre.PlainScopes) : post.PlainScopes where
  roles := (Stmt.exec_roles hexec).symm ▸ hpre.roles
  clients := by
    intro b hb
    rcases (Stmt.exec_clients hexec).mem_cases hb with ⟨a, ha, rfl | ⟨u, _, _, rfl⟩⟩ |
      ⟨clientId, _, data, rfl, rfl, _, _⟩
    · exact hpre.clients b ha
    · exact (ClientStmt.change_le u a).allowedScopes ▸ hpre.clients a ha
    · obtain ⟨bearer, input, rfl, hscopes, _⟩ := hjust
      have hnames := haccepted.scopes
      exact fun scope hscope => hnames scope (hscopes ▸ hscope)
  codes := by
    intro b hb
    rcases (Stmt.exec_codes hexec).mem_cases hb with ⟨a, ha, rfl | ⟨_, _, hfresh, rfl⟩⟩ |
      ⟨hash, data, _, rfl, _, rfl, _, _⟩
    · exact hpre.codes b ha
    · exact hpre.codes a ha
    · obtain ⟨_, ⟨client, hsaw, hallowed⟩, _⟩ := hjust
      exact .within hallowed (hseen.client hsaw)
  refreshTokens := by
    intro b hb
    rcases (Stmt.exec_refreshTokens hexec).mem_cases hb with ⟨a, ha, rfl | ⟨u, _, hwhere, rfl⟩⟩ |
      ⟨data, rfl, rfl, _, _, _⟩
    · exact hpre.refreshTokens b ha
    · have hle : a.Le (u.change pre.now a) := RefreshStmt.change_le hwhere
      exact hle.scope ▸ hpre.refreshTokens a ha
    · exact hjust.1.plain hseen
  signed := by
    intro token htoken scope hscope
    rcases Stmt.exec_signed hexec with hsame | ⟨kid, payload, rfl, hsigned⟩
    · exact hpre.signed token (hsame ▸ htoken) scope hscope
    · rw [hsigned] at htoken
      rcases List.mem_cons.1 htoken with rfl | htoken
      · rcases hjust with ⟨input, jti, now, hreason, _, _, rfl⟩ | ⟨_, _, _, _, _, rfl⟩
        · obtain ⟨hnames, hroles⟩ := hreason.plain hseen
          refine ⟨Option.some.inj hscope ▸ hnames, fun roles heq => ?_⟩
          simp only [JwtService.accessTokenPayload] at heq
          split_ifs at heq
          exact Option.some.inj heq ▸ hroles
        · cases hscope
      · exact hpre.signed token htoken scope hscope

end Step

/-- **Every access token is plain**, and so are the rows it is made of, if the platform is
set up and clients are registered through their route. -/
theorem run_plain {isUrl : String → Bool} (hw : w.SetUp)
    (hrun : (machine P).Run (Config.initial w) c)
    (haccepted : ∀ call ∈ c.calls, Accepted isUrl call.req.request) : c.world.Plain := by
  refine World.PlainScopes.plain ?_ (run_identifiers hw.toInitial hw.named
    (fun _ => isItem_of_isUuid) (fun _ => isItem_of_isClientId) hrun)
  refine (hrun.assertion (R := fun _ _ => True) (J := World.PlainScopes)
    (G := fun req _ _ => Accepted isUrl req.request) stable_true (.initial w) hw.plainScopes
    ?_ ?_ ?_).1
  · rintro req l e ⟨i, call, hi, rfl, _, _⟩
    exact haccepted call (List.mem_of_getElem? hi)
  · intro env w w' henv hplain
    exact Env.apply_plain henv hplain
  · intro req l e hreach hupheld hpre hG hans
    rcases hans with ⟨r, hexec⟩ | ⟨_, hpost⟩
    · exact exec_plain hexec (handler_justified req l e.op hreach) hG (fun s a hsaw => by
        obtain ⟨pre, post, hans, _, hpre, hpost⟩ := hupheld.saw hsaw
        exact ⟨pre, post, hans, hpre, hpost⟩) hpre
    · exact hpost ▸ hpre

end IdentityPlatform
