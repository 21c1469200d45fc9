/-
# The identifiers of rows and tokens

Rows and access tokens name users, clients and sessions by identifiers that were
generated or that the platform started with.  So what holds of the generated ones, and of
those at the start, holds of every identifier (`run_identifiers`); the modules on the texts
of claims and on header fields each use it for a property of texts.
-/

import IdentityPlatform.Protocol.SessionTokens

namespace IdentityPlatform

open Interleaving Program Relational Machine AuthServer

variable {P : Platform} {c : ServerConfig} {w : World} {Q : String → Prop}

/-- What the identifiers of users and clients satisfy at the start. -/
structure World.Named (Q : String → Prop) (w : World) : Prop where
  users : ∀ user ∈ w.users, Q user.id
  clients : ∀ client ∈ w.clients, Q client.id ∧ Q client.clientId

/-- The identifiers in a refresh token. -/
structure RefreshTokenRow.Named (Q : String → Prop) (row : RefreshTokenRow) : Prop where
  userId : Q row.userId
  clientId : ∀ id, row.clientId = some id → Q id

/-- The identifiers in the claims of an access token. -/
structure JwtPayload.Named (Q : String → Prop) (payload : JwtPayload) : Prop where
  sub : Q payload.sub
  clientId : ∀ id, payload.clientId = some id → Q id
  sid : ∀ id, payload.sid = some id → Q id

/-- All identifiers satisfy `Q`. -/
structure World.AllNamed (Q : String → Prop) (w : World) : Prop extends w.Named Q where
  codes : ∀ code ∈ w.codes, Q code.userId
  sessions : ∀ s ∈ w.sessions, Q s.id ∧ Q s.userId
  refreshTokens : ∀ row ∈ w.refreshTokens, row.Named Q
  signed : ∀ token ∈ w.signed, token.payload.scope.isSome = true → token.payload.Named Q

theorem World.Named.all (h : w.Named Q) (hw : w.Initial) : w.AllNamed Q :=
  { h with
    codes := by simp [hw.codes]
    sessions := by simp [hw.sessions]
    refreshTokens := by simp [hw.refreshTokens]
    signed := by simp [hw.signed] }

/-- The environment names nothing. -/
theorem Env.apply_named {env : Env} {w' : World} (h : env.apply w = some w') (hw : w.AllNamed Q) :
    w'.AllNamed Q := by
  rw [Env.apply_eq h]
  exact { hw with }

section Step

variable {request : Request} {l : ServerLog} {s : Stmt} {ans : Except Err s.Ans} {r : String}
  {pre post : World}

/-- What has been seen was seen in states whose identifiers satisfy `Q`. -/
abbrev SeenNamed (P : Platform) (Q : String → Prop) (l : ServerLog) : Prop :=
  ∀ (s : Stmt) (a : s.Ans), l.Saw s (.ok a) →
    ∃ pre post, s.Answered P a pre post ∧ pre.AllNamed Q ∧ post.AllNamed Q

theorem SeenNamed.client (h : SeenNamed P Q l) {clientId : String} {client : OAuthClientRow}
    (hs : l.Saw (.clients (.findByClientId clientId)) (.ok (some client))) :
    Q client.id ∧ Q client.clientId := by
  obtain ⟨pre, post, hans, hpre, _⟩ := h _ _ hs
  exact hpre.clients client (lookup_mem (Stmt.findByClientId_answer hans).symm)

theorem SeenNamed.rotated (h : SeenNamed P Q l) {hash : String} {row : RefreshTokenRow}
    (hs : l.Saw (.refreshTokens (.rotate hash)) (.ok (some row))) : row.Named Q := by
  obtain ⟨pre, post, hans, _, hpost⟩ := h _ _ hs
  obtain ⟨_, _, _, _, _, _, hrow⟩ := Stmt.rotate_answer hans
  exact hpost.refreshTokens row hrow

theorem SeenNamed.consumed (h : SeenNamed P Q l) {id : String} {row : AuthorizationCodeRow}
    (hs : l.Saw (.codes (.consume id)) (.ok (some row))) : Q row.userId := by
  obtain ⟨pre, post, hans, _, hpost⟩ := h _ _ hs
  obtain ⟨_, _, _, _, _, hrow⟩ := Stmt.consume_answer hans
  exact hpost.codes row hrow

theorem SeenNamed.inserted (h : SeenNamed P Q l) {data : CreateSessionData} {session : SessionRow}
    (hs : l.Saw (.sessions (.insert data)) (.ok session)) : Q session.id ∧ Q data.userId := by
  obtain ⟨pre, post, hans, _, hpost⟩ := h _ _ hs
  obtain ⟨r, rfl, _, hrow⟩ := Stmt.insertSession_answer hans
  exact hpost.sessions _ hrow

theorem SeenNamed.found (h : SeenNamed P Q l) {id : String} {session : SessionRow}
    (hs : l.Saw (.sessions (.selectById id)) (.ok (some session))) :
    session.id = id ∧ Q session.id ∧ Q session.userId := by
  obtain ⟨pre, post, hans, hpre, _⟩ := h _ _ hs
  have hlookup := (Stmt.selectById_answer hans).symm
  exact ⟨lookup_key hlookup, hpre.sessions session (lookup_mem hlookup)⟩

/-- A refresh token is stored with the identifiers of what it is issued for. -/
theorem RefreshReason.named {data : IssueRefreshData} (h : RefreshReason P request l data)
    (hseen : SeenNamed P Q l) : (data.row r pre).Named Q := by
  cases h with
  | rotation rotated =>
      have hrow := hseen.rotated rotated
      exact ⟨hrow.userId, hrow.clientId⟩
  | login _ created user => exact ⟨user ▸ (hseen.inserted created.saw).2, nofun⟩
  | challenge _ _ found _ => exact ⟨(hseen.found found).2.2, nofun⟩
  | exchange _ identified _ _ consumed _ _ =>
      have hclient := (hseen.client identified.read).1
      exact ⟨hseen.consumed consumed, fun id hid => Option.some.inj hid ▸ hclient⟩

/-- An access token is signed with the identifiers of what it is issued for. -/
theorem TokenReason.named {input : AccessTokenInput} {jti : String} {now ttl : ℕ}
    (h : TokenReason P request l input) (hseen : SeenNamed P Q l) :
    (JwtService.accessTokenPayload P input jti now ttl).Named Q := by
  have hpayload : ∀ {input : AccessTokenInput}, Q input.sub →
      (∀ id, input.clientId = some id → Q id) → (∀ id, input.sid = some id → Q id) →
      (JwtService.accessTokenPayload P input jti now ttl).Named Q :=
    fun hsub hclient hsid => ⟨hsub, fun id hid => hclient id (Option.filter_eq_some_iff.1 hid).1,
      fun id hid => hsid id (Option.filter_eq_some_iff.1 hid).1⟩
  cases h with
  | login _ created user _ =>
      have hsession := hseen.inserted created.saw
      exact hpayload (user ▸ hsession.2) nofun fun id hid => Option.some.inj hid ▸ hsession.1
  | challenge _ _ found _ _ =>
      obtain ⟨_, hsession⟩ := hseen.found found
      exact hpayload hsession.2 nofun fun id hid => Option.some.inj hid ▸ hsession.1
  | refresh _ rotated _ _ =>
      obtain ⟨l', hrotated, hfound⟩ := rotated
      have hrow := hseen.rotated (hrotated.mono hfound.suffix)
      obtain ⟨_, hsession, _⟩ := hseen.found hfound.saw
      exact hpayload hrow.userId hrow.clientId fun id hid => Option.some.inj hid ▸ hsession
  | exchange _ _ identified _ _ consumed inserted _ _ =>
      have hclient := (hseen.client identified.read).2
      have hsession := (hseen.inserted inserted).1
      exact hpayload (hseen.consumed consumed) (fun id hid => Option.some.inj hid ▸ hclient)
        fun id hid => Option.some.inj hid ▸ hsession
  | oauthRefresh _ _ identified _ _ rotated _ _ _ =>
      obtain ⟨l', hrotated, hfound⟩ := rotated
      have hrow := hseen.rotated (hrotated.mono hfound.suffix)
      have hclient := (hseen.client identified.read).2
      obtain ⟨hid, hsession, _⟩ := hseen.found hfound.saw
      exact hpayload hrow.userId (fun id hid => Option.some.inj hid ▸ hclient)
        fun id heq => Option.some.inj heq ▸ hid ▸ hsession
  | clientCredentials _ _ identified _ =>
      have hclient := (hseen.client identified.read).2
      exact hpayload hclient (fun id hid => Option.some.inj hid ▸ hclient) nofun

/-- **A statement names what is there already**, or something new. -/
theorem exec_named (hexec : s.exec P r pre = some (ans, post)) (hjust : Justified P request l s)
    (huuid : ∀ id, isUuid id = true → Q id) (hclientId : ∀ id, isClientId id = true → Q id)
    (hseen : SeenNamed P Q l) (hpre : pre.AllNamed Q) : post.AllNamed Q where
  users := by
    intro b hb
    rcases (Stmt.exec_users hexec).mem_cases hb with ⟨a, ha, rfl | ⟨u, _, _, rfl⟩⟩ |
      ⟨_, _, _, _, _, rfl, htaken, _⟩
    · exact hpre.users b ha
    · exact (UserStmt.change_le u pre.now a).id ▸ hpre.users a ha
    · exact huuid _ htaken.form
  clients := by
    intro b hb
    rcases (Stmt.exec_clients hexec).mem_cases hb with ⟨a, ha, rfl | ⟨u, _, _, rfl⟩⟩ |
      ⟨clientId, _, data, rfl, rfl, htaken, _⟩
    · exact hpre.clients b ha
    · have hle := ClientStmt.change_le u a
      have hrow := hpre.clients a ha
      exact ⟨hle.id ▸ hrow.1, hle.clientId ▸ hrow.2⟩
    · obtain ⟨bearer, input, rfl, hscopes, hsaw⟩ := hjust
      obtain ⟨_, _, hans, _, _⟩ := hseen _ _ hsaw
      exact ⟨huuid _ htaken.form, hclientId _ (Stmt.newClientId_answer hans).form⟩
  codes := by
    intro b hb
    rcases (Stmt.exec_codes hexec).mem_cases hb with ⟨a, ha, rfl | ⟨_, _, hfresh, rfl⟩⟩ |
      ⟨hash, data, _, rfl, _, rfl, _, _⟩
    · exact hpre.codes b ha
    · exact hpre.codes a ha
    · obtain ⟨⟨bearer, input, state, payload, _, _, ⟨row, hread, _⟩, hdata⟩, _⟩ := hjust
      obtain ⟨_, _, hans, hnamed, _⟩ := hseen _ _ hread
      have hlookup := (Stmt.findById_answer hans).symm
      have huser : Q payload.sub := lookup_key hlookup ▸ hnamed.users row (lookup_mem hlookup)
      rw [hdata]
      exact huser
  sessions := by
    intro b hb
    rcases (Stmt.exec_sessions hexec).mem_cases hb with ⟨a, ha, rfl | ⟨u, _, _, rfl⟩⟩ |
      ⟨data, rfl, rfl, htaken, user, huser, hid⟩
    · exact hpre.sessions b ha
    · have hle := SessionStmt.change_le u pre.now a
      have hrow := hpre.sessions a ha
      exact ⟨hle.id ▸ hrow.1, hle.userId ▸ hrow.2⟩
    · have huserId : Q data.userId := hid ▸ hpre.users user huser
      exact ⟨huuid _ htaken.form, huserId⟩
  refreshTokens := by
    intro b hb
    rcases (Stmt.exec_refreshTokens hexec).mem_cases hb with ⟨a, ha, rfl | ⟨u, _, hwhere, rfl⟩⟩ |
      ⟨data, rfl, rfl, _, _, _⟩
    · exact hpre.refreshTokens b ha
    · have hle : a.Le (u.change pre.now a) := RefreshStmt.change_le hwhere
      have hrow := hpre.refreshTokens a ha
      exact ⟨hle.userId ▸ hrow.userId, hle.clientId ▸ hrow.clientId⟩
    · exact hjust.1.named hseen
  signed := by
    intro token htoken hscope
    rcases Stmt.exec_signed hexec with hsame | ⟨kid, payload, rfl, hsigned⟩
    · exact hpre.signed token (hsame ▸ htoken) hscope
    · rw [hsigned] at htoken
      rcases List.mem_cons.1 htoken with rfl | htoken
      · rcases hjust with ⟨input, jti, now, hreason, _, _, rfl⟩ | ⟨_, _, _, _, _, rfl⟩
        · exact hreason.named hseen
        · cases hscope
      · exact hpre.signed token htoken hscope

end Step

/-- **Every identifier satisfies what the first and the generated ones do.** -/
theorem run_identifiers (hw : w.Initial) (hnamed : w.Named Q)
    (huuid : ∀ id, isUuid id = true → Q id) (hclientId : ∀ id, isClientId id = true → Q id)
    (hrun : (machine P).Run (Config.initial w) c) : c.world.AllNamed Q := by
  refine (hrun.assertion (R := fun _ _ => True) (J := World.AllNamed Q) (G := fun _ _ _ => True)
    stable_true (.initial w) (hnamed.all hw) (fun _ _ _ _ => trivial) ?_ ?_).1
  · intro env w w' henv h
    exact Env.apply_named henv h
  · intro req l e hreach hupheld hpre _ hans
    rcases hans with ⟨r, hexec⟩ | ⟨_, hpost⟩
    · exact exec_named hexec (handler_justified req l e.op hreach) huuid hclientId
        (fun s a hsaw => by
        obtain ⟨pre, post, hans, _, hpre, hpost⟩ := hupheld.saw hsaw
        exact ⟨pre, post, hans, hpre, hpost⟩) hpre
    · exact hpost ▸ hpre

end IdentityPlatform
