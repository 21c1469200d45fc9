/-
# What an answer says

A statement that has succeeded has been executed in the state before it
(`answered`), and its answer is what it read there.  One lemma per statement
whose answer matters later.
-/

import IdentityPlatform.Protocol.State

namespace IdentityPlatform

open Interleaving Program Relational Machine

/-- Configurations of the server. -/
abbrev ServerConfig := Config statements Err World Incoming Response

/-- Calls of the server. -/
abbrev ServerCall := Call statements Err World Incoming Response

/-- Events of the server. -/
abbrev ServerEvent := Event statements Err World

variable {P : Platform} {pre post : World}

/-- `s` has been executed with answer `a`. -/
def Stmt.Answered (P : Platform) (s : Stmt) (a : s.Ans) (pre post : World) : Prop :=
  ∃ r, s.exec P r pre = some (.ok a, post)

/-- A successful event has been executed. -/
theorem AuthServer.executed {c : ServerConfig} (hv : (machine P).Valid c) {i : ℕ}
    {call : ServerCall} (hi : c.calls[i]? = some call) {n : ℕ} {s : Stmt} {a : s.Ans}
    (h : (⟨n, pre, s, .ok a, post⟩ : ServerEvent) ∈ call.log) : s.Answered P a pre post :=
  (hv.answers hi _ h).exec

/-- **An answer in a log comes from an execution.** -/
theorem AuthServer.answered {c : ServerConfig} (hv : (machine P).Valid c) {i : ℕ}
    {call : ServerCall}
    (hi : c.calls[i]? = some call) {s : Stmt} {a : s.Ans} (h : Log.Saw call.log s (.ok a)) :
    ∃ n pre post, (⟨n, pre, s, .ok a, post⟩ : ServerEvent) ∈ call.log ∧
    s.Answered P a pre post := by
  obtain ⟨n, pre, post, hmem⟩ := h
  exact ⟨n, pre, post, hmem, executed hv hi hmem⟩

/-- **A value is generated once**, by one statement of one call. -/
theorem AuthServer.taken_once {c : ServerConfig} (hreach : (machine P).Reachable World.Initial c)
    {i j : ℕ} {call call' : ServerCall} (hi : c.calls[i]? = some call)
    (hj : c.calls[j]? = some call') {e e' : ServerEvent} (he : e ∈ call.log) (he' : e' ∈ call'.log)
    {form form' : String → Bool} {r : String} (h : Stmt.Taken form r e.pre e.post)
    (h' : Stmt.Taken form' r e'.pre e'.post) : i = j ∧ e = e' := by
  have hnew : r ∈ e.post.generated := h.ledger ▸ List.mem_cons_self ..
  have hnew' : r ∈ e'.post.generated := h'.ledger ▸ List.mem_cons_self ..
  exact (hreach.ordered (le_stable P)).once (K := fun w => r ∈ w.generated) hreach.valid
    (fun hle hmem => hle.generated hmem) hi hj he he' h.fresh hnew h'.fresh hnew'

namespace Stmt

/-- A statement that succeeds has its effect. -/
theorem Answered.effect {s : Stmt} {a : s.Ans} (h : s.Answered P a pre post) :
    ∃ r ledger, (s.effect P r pre).1 = .ok a ∧
      post = { (s.effect P r pre).2 with generated := ledger } ∧ s.Ledger P r pre ledger := by
  obtain ⟨r, h⟩ := h
  rcases exec_cases h with ⟨h, _⟩ | ⟨_, ha, ledger, hpost, hl⟩
  · cases h
  · exact ⟨r, ledger, ha.symm, hpost, hl⟩

theorem Answered.le {s : Stmt} {a : s.Ans} (h : s.Answered P a pre post) : pre.Le post := by
  obtain ⟨r, h⟩ := h
  exact exec_le h

/-! ### Reads -/

theorem findByEmail_answer {email : String} {row : Option UserRow}
    (h : Answered P (.users (.findByEmail email)) row pre post) :
    row = lookup (fun u => u.email.toLower) email.toLower pre.users := by
  obtain ⟨r, ledger, ha, _⟩ := h.effect
  exact (Except.ok.inj ha).symm

theorem findById_answer {id : String} {row : Option UserRow}
    (h : Answered P (.users (.findById id)) row pre post) : row = pre.user id := by
  obtain ⟨r, ledger, ha, _⟩ := h.effect
  exact (Except.ok.inj ha).symm

theorem permissionsOf_answer {id : String} {permissions : List String}
    (h : Answered P (.rbac (.permissionsOf id)) permissions pre post) :
    permissions = pre.rbac.permissionsOf id := by
  obtain ⟨r, ledger, ha, _⟩ := h.effect
  exact (Except.ok.inj ha).symm

/-- An `UPDATE users` has changed the row it is about. -/
theorem updateUser_answer {u : UserStmt} {v : u.Ans} (h : Answered P (.users u) v pre post)
    {a : UserRow} (ha : a ∈ pre.users) (htarget : u.target = some a.id) :
    u.change pre.now a ∈ post.users := by
  obtain ⟨r, ledger, _, rfl, _⟩ := h.effect
  have hmem : u.change pre.now a ∈ u.update pre :=
    mem_updateWhere.2 ⟨a, ha, by rw [if_pos htarget.symm]⟩
  cases u with
  | findByEmail | findById | emailOf | insert => cases htarget
  | _ => exact hmem

theorem setMfaRequired_answer {id : String} {value : Bool}
    (h : Answered P (.users (.setMfaRequired id value)) () pre post) {b : UserRow}
    (hb : b ∈ post.users) (hid : b.id = id) : b.mfaRequired = value := by
  obtain ⟨r, ledger, _, rfl, _⟩ := h.effect
  obtain ⟨a, _, rfl⟩ :=
    mem_updateWhere.1 (show b ∈ (UserStmt.setMfaRequired id value).update pre from hb)
  split_ifs at hid ⊢ with htarget
  · rfl
  · exact absurd (congrArg some hid) htarget

theorem rolesOf_answer {id : String} {roles : List String}
    (h : Answered P (.rbac (.rolesOf id)) roles pre post) : roles = pre.rbac.rolesOf id := by
  obtain ⟨r, ledger, ha, _⟩ := h.effect
  exact (Except.ok.inj ha).symm

/-- The roles of a user are roles of the table. -/
theorem exists_of_mem_rolesOf {rbac : Rbac} {id name : String} (h : name ∈ rbac.rolesOf id) :
    ∃ role ∈ rbac.roles, role.name = name := by
  obtain ⟨role, hrole, rfl⟩ := List.mem_map.1 ((List.perm_insertionSort ..).mem_iff.1 h)
  exact ⟨role, (List.mem_filter.1 hrole).1, rfl⟩

theorem findByClientId_answer {clientId : String} {row : Option OAuthClientRow}
    (h : Answered P (.clients (.findByClientId clientId)) row pre post) :
    row = pre.client clientId := by
  obtain ⟨r, ledger, ha, _⟩ := h.effect
  exact (Except.ok.inj ha).symm

theorem selectById_answer {id : String} {row : Option SessionRow}
    (h : Answered P (.sessions (.selectById id)) row pre post) : row = pre.session id := by
  obtain ⟨r, ledger, ha, _⟩ := h.effect
  exact (Except.ok.inj ha).symm

theorem selectByHash_answer {hash : String} {row : Option RefreshTokenRow}
    (h : Answered P (.refreshTokens (.selectByHash hash)) row pre post) :
    row = pre.refreshToken hash := by
  obtain ⟨r, ledger, ha, _⟩ := h.effect
  exact (Except.ok.inj ha).symm

/-- A joined row: a code of the table with the public identifier of its client. -/
theorem selectJoined_answer {hash : String} {row : JoinedRow}
    (h : Answered P (.codes (.selectJoined hash)) (some row) pre post) :
    pre.code hash = some row.code ∧
      ∃ client ∈ pre.clients, client.id = row.code.clientId ∧ client.clientId = row.clientRef := by
  obtain ⟨r, ledger, ha, _⟩ := h.effect
  obtain ⟨code, hcode, hjoin⟩ := Option.bind_eq_some_iff.1 (Except.ok.inj ha)
  obtain ⟨client, hclient, rfl⟩ := Option.map_eq_some_iff.1 hjoin
  exact ⟨hcode, client, lookup_mem hclient, lookup_key hclient, rfl⟩

/-- A challenge that was read is stored under its key. -/
theorem getChallenge_answer {key : RedisKey} {payload : MfaChallengePayload}
    (h : Answered P (.redis (.getChallenge key)) (some payload) pre post) :
    ∃ p ∈ pre.redis, p.1 = key ∧ p.2.value = .challenge payload := by
  obtain ⟨r, ledger, ha, _⟩ := h.effect
  simp only [Stmt.effect, RedisStmt.effect] at ha
  split at ha
  · rename_i payload' hget
    obtain rfl : payload' = payload := by simpa using ha
    exact Cache.mem_of_get hget
  · simp at ha

/-- A key that has been set holds its value. -/
theorem set_answer {key : RedisKey} {value : RedisValue} {ttl : Option ℕ}
    (h : Answered P (.redis (.set key value ttl)) () pre post) {p : RedisKey × Entry RedisValue}
    (hp : p ∈ post.redis) (hkey : p.1 = key) : p.2.value = value := by
  obtain ⟨r, ledger, _, rfl, _⟩ := h.effect
  rcases List.mem_cons.1 hp with rfl | hp
  · rfl
  · exact absurd hkey (by simpa using (List.mem_filter.1 hp).2)

/-- A key that has been deleted is gone. -/
theorem del_answer {key : RedisKey} (h : Answered P (.redis (.del key)) () pre post)
    {p : RedisKey × Entry RedisValue} (hp : p ∈ post.redis) : p.1 ≠ key := by
  obtain ⟨r, ledger, _, rfl, _⟩ := h.effect
  simpa using (List.mem_filter.1 hp).2

/-- A method that was read belongs to the user and has the status. -/
theorem selectByStatus_answer {userId : String} {status : MfaStatus} {method : MfaMethodRow}
    (h : Answered P (.mfaMethods (.selectByStatus userId status)) (some method) pre post) :
    method ∈ pre.mfaMethods ∧ method.userId = userId ∧ method.status = status := by
  obtain ⟨r, ledger, ha, _⟩ := h.effect
  have hfind := Except.ok.inj ha
  refine ⟨List.mem_of_find?_eq_some hfind, ?_⟩
  simpa using List.find?_some hfind

/-- An `UPDATE mfa_methods` has changed the rows it is about. -/
theorem updateMethod_answer {u : MfaStmt} {v : u.Ans} (h : Answered P (.mfaMethods u) v pre post)
    {a b : MfaMethodRow} (ha : a ∈ pre.mfaMethods) (hu : u.Updates pre.now a b) :
    b ∈ post.mfaMethods := by
  obtain ⟨r, ledger, _, rfl, _⟩ := h.effect
  cases u with
  | hasActive | selectByStatus => exact hu.elim
  | upsertPending userId secret =>
      obtain ⟨huser, rfl⟩ := hu
      have hany : (pre.mfaMethods.any fun m => m.userId = userId) = true :=
        List.any_eq_true.2 ⟨a, ha, decide_eq_true huser⟩
      simp only [effect, MfaStmt.effect, hany, if_true]
      exact mem_updateWhere.2 ⟨a, ha, by rw [if_pos huser]⟩
  | activate | touchUsed | disable =>
      obtain ⟨hrow, rfl⟩ := hu
      exact mem_updateWhere.2 ⟨a, ha, by rw [if_pos hrow]⟩

theorem hasActive_answer {userId : String} {active : Bool}
    (h : Answered P (.mfaMethods (.hasActive userId)) active pre post) :
    active = pre.mfaMethods.any fun m => m.userId = userId && m.status = .active := by
  obtain ⟨r, ledger, ha, _⟩ := h.effect
  exact (Except.ok.inj ha).symm

theorem dateNow_answer {now : ℕ} (h : Answered P (.runtime .dateNow) now pre post) :
    now = pre.now := by
  obtain ⟨r, ledger, ha, _⟩ := h.effect
  exact (Except.ok.inj ha).symm

/-! ### Conditional updates -/

/-- A rotated row was active and unexpired until this statement. -/
theorem rotate_answer {hash : String} {row : RefreshTokenRow}
    (h : Answered P (.refreshTokens (.rotate hash)) (some row) pre post) :
    ∃ old ∈ pre.refreshTokens, old.tokenHash = hash ∧ old.status = .active ∧
      pre.now < old.expiresAt ∧ row = { old with status := .rotated, rotatedAt := some pre.now } ∧
      row ∈ post.refreshTokens := by
  obtain ⟨r, ledger, ha, rfl, _⟩ := h.effect
  obtain ⟨old, hold, hw, rfl⟩ := mem_of_returning_head (Except.ok.inj ha)
  simp only [RefreshStmt.where, Bool.and_eq_true, decide_eq_true_eq] at hw
  refine ⟨old, hold, hw.1.1, hw.1.2, hw.2, rfl, ?_⟩
  refine mem_updateWhere.2 ⟨old, hold, ?_⟩
  rw [if_pos]
  simpa [RefreshStmt.where] using hw

/-- A revoked session is revoked. -/
theorem revokeSession_answer {id reason : String}
    (h : Answered P (.sessions (.revoke id reason)) () pre post) {a : SessionRow}
    (ha : a ∈ pre.sessions) (hid : a.id = id) :
    ∃ b ∈ post.sessions, b.id = a.id ∧ b.status = .revoked := by
  obtain ⟨r, ledger, _, rfl, _⟩ := h.effect
  refine ⟨_, mem_updateWhere.2 ⟨a, ha, rfl⟩, ?_⟩
  split_ifs with hwhere
  · exact ⟨rfl, rfl⟩
  · refine ⟨rfl, ?_⟩
    cases hstatus : a.status with
    | active => exact absurd (by simp [SessionStmt.where, hid, hstatus]) hwhere
    | revoked => rfl

theorem insertCode_answer {hash : String} {data : IssueCodeData}
    (h : Answered P (.codes (.insert hash data)) () pre post) : ∃ r client,
      pre.client data.clientId = some client ∧ data.row r pre hash client ∈ post.codes := by
  obtain ⟨r, ledger, ha, rfl, _⟩ := h.effect
  simp only [Stmt.effect, CodeStmt.effect] at ha ⊢
  split at ha
  · cases ha
  · rename_i client hclient
    rcases constrained_cases [((pre.code hash).isSome, "23505"),
        (!(decide (pre.hasUser data.userId)), "23503")] pre.codes
        ((), pre.codes ++ [data.row r pre hash client]) with ⟨_, hc⟩ | ⟨hc, _⟩
    · rw [hc] at ha
      cases ha
    · simp only [hclient, hc]
      exact ⟨r, client, rfl, by simp⟩

/-- The user of a new code exists. -/
theorem insertCode_references {hash : String} {data : IssueCodeData}
    (h : Answered P (.codes (.insert hash data)) () pre post) :
    isUuid data.userId = true ∧ pre.hasUser data.userId ∧ ∃ r, Taken isUuid r pre post ∧
      ∀ client, pre.client data.clientId = some client →
        data.row r pre hash client ∈ post.codes := by
  obtain ⟨r, hexec⟩ := h
  rcases exec_cases hexec with ⟨he, _⟩ | ⟨huuid, ha, ledger, rfl, hl⟩
  · cases he
  · simp only [Stmt.effect, CodeStmt.effect] at ha ⊢
    split at ha
    · cases ha
    · rename_i client hclient
      rcases constrained_cases [((pre.code hash).isSome, "23505"),
          (!(decide (pre.hasUser data.userId)), "23503")] pre.codes
          ((), pre.codes ++ [data.row r pre hash client]) with ⟨_, hc⟩ | ⟨hc, hok⟩
      · rw [hc] at ha
        cases ha
      · refine ⟨by simpa [uuidParams] using huuid, ?_, r, hl.taken rfl rfl, fun client' h' => ?_⟩
        · simpa using hok (!(decide (pre.hasUser data.userId)), "23503") (by simp)
        · obtain rfl : client' = client := Option.some.inj (h'.symm.trans hclient)
          simp [hc]

/-- A consumed code was not consumed until this statement. -/
theorem consume_answer {id : String} {row : AuthorizationCodeRow}
    (h : Answered P (.codes (.consume id)) (some row) pre post) :
    ∃ old ∈ pre.codes, old.id = id ∧ old.consumedAt = none ∧
      row = { old with consumedAt := some pre.now } ∧ row ∈ post.codes := by
  obtain ⟨r, ledger, ha, rfl, _⟩ := h.effect
  obtain ⟨old, hold, hw, rfl⟩ := mem_of_returning_head (Except.ok.inj ha)
  refine ⟨old, hold, hw.1, hw.2, rfl, mem_updateWhere.2 ⟨old, hold, ?_⟩⟩
  rw [if_pos hw]

/-- Where nothing is consumed, the code had been. -/
theorem consume_none_answer {id : String} (h : Answered P (.codes (.consume id)) none pre post)
    {row : AuthorizationCodeRow} (hrow : row ∈ pre.codes) (hid : row.id = id) :
    row.consumedAt.isSome = true := by
  obtain ⟨r, ledger, ha, _⟩ := h.effect
  have hnil := List.head?_eq_none_iff.1 (Except.ok.inj ha)
  rw [Option.isSome_iff_ne_none]
  intro hnone
  have hmem : CodeStmt.consumed pre.now row ∈
      returning (CodeStmt.fresh id) (CodeStmt.consumed pre.now) pre.codes :=
    mem_returning.2 ⟨row, hrow, ⟨hid, hnone⟩, rfl⟩
  rw [hnil] at hmem
  cases hmem

theorem consumeVerification_answer {hash : String} {row : EmailVerificationRow}
    (h : Answered P (.emailTokens (.consumeVerification hash)) (some row) pre post) :
    row.consumedAt = some pre.now ∧ row ∈ post.emailVerifications := by
  obtain ⟨r, ledger, ha, rfl, _⟩ := h.effect
  obtain ⟨old, hold, hw, rfl⟩ := mem_of_returning_head (Except.ok.inj ha)
  refine ⟨rfl, mem_updateWhere.2 ⟨old, hold, ?_⟩⟩
  rw [if_pos hw]

/-! ### New rows and values -/

theorem insertSession_answer {data : CreateSessionData} {row : SessionRow}
    (h : Answered P (.sessions (.insert data)) row pre post) :
    ∃ r, row = data.row r pre ∧ Taken isUuid r pre post ∧ row ∈ post.sessions := by
  obtain ⟨r, ledger, ha, rfl, hl⟩ := h.effect
  rcases constrained_cases [(!(decide (pre.hasUser data.userId)), "23503"),
      (data.clientId.any fun id => !(decide (pre.hasClient id)), "23503")] pre.sessions
      (data.row r pre, pre.sessions ++ [data.row r pre]) with ⟨_, hc⟩ | ⟨hc, _⟩
  · simp only [Stmt.effect, SessionStmt.effect, hc] at ha
    cases ha
  · simp only [Stmt.effect, SessionStmt.effect, hc] at ha ⊢
    cases ha
    exact ⟨r, rfl, hl.taken rfl rfl, by simp⟩

theorem insertRefreshToken_answer {data : IssueRefreshData}
    (h : Answered P (.refreshTokens (.insert data)) () pre post) :
    ∃ r, Taken isUuid r pre post ∧ data.row r pre ∈ post.refreshTokens ∧
      ∀ id, data.previousTokenId = some id → ∃ row ∈ pre.refreshTokens, row.id = id := by
  obtain ⟨r, ledger, ha, rfl, hl⟩ := h.effect
  rcases constrained_cases [((pre.refreshToken data.tokenHash).isSome, "23505"),
      (!(decide (pre.hasSession data.sessionId)), "23503"),
      (!(decide (pre.hasUser data.userId)), "23503"),
      (data.clientId.any fun id => !(decide (pre.hasClient id)), "23503"),
      (data.previousTokenId.any fun id => id ∉ pre.refreshTokens.map RefreshTokenRow.id,
        "23503")] pre.refreshTokens
      ((), pre.refreshTokens ++ [data.row r pre]) with ⟨_, hc⟩ | ⟨hc, hok⟩
  · simp only [Stmt.effect, RefreshStmt.effect, hc] at ha
    cases ha
  · simp only [Stmt.effect, RefreshStmt.effect, hc]
    refine ⟨r, hl.taken rfl rfl, by simp, fun id hid => ?_⟩
    have hprev := hok (data.previousTokenId.any fun id =>
      id ∉ pre.refreshTokens.map RefreshTokenRow.id, "23503") (by simp)
    simpa [hid] using hprev

/-- The session and the user of a new refresh token exist. -/
theorem insertRefreshToken_references {data : IssueRefreshData}
    (h : Answered P (.refreshTokens (.insert data)) () pre post) :
    pre.hasSession data.sessionId ∧ pre.hasUser data.userId := by
  obtain ⟨r, ledger, ha, _, _⟩ := h.effect
  rcases constrained_cases [((pre.refreshToken data.tokenHash).isSome, "23505"),
      (!(decide (pre.hasSession data.sessionId)), "23503"),
      (!(decide (pre.hasUser data.userId)), "23503"),
      (data.clientId.any fun id => !(decide (pre.hasClient id)), "23503"),
      (data.previousTokenId.any fun id => id ∉ pre.refreshTokens.map RefreshTokenRow.id,
        "23503")] pre.refreshTokens
      ((), pre.refreshTokens ++ [data.row r pre]) with ⟨_, hc⟩ | ⟨_, hok⟩
  · simp only [Stmt.effect, RefreshStmt.effect, hc] at ha
    cases ha
  · refine ⟨?_, ?_⟩
    · simpa using hok (!(decide (pre.hasSession data.sessionId)), "23503") (by simp)
    · simpa using hok (!(decide (pre.hasUser data.userId)), "23503") (by simp)

theorem randomToken_answer {token : String}
    (h : Answered P (.runtime .randomToken) token pre post) :
    Taken isRandomToken token pre post := by
  obtain ⟨r, ledger, ha, rfl, hl⟩ := h.effect
  obtain rfl := Except.ok.inj ha
  exact hl.taken rfl rfl

theorem randomUuid_answer {id : String} (h : Answered P (.runtime .randomUuid) id pre post) :
    Taken isUuid id pre post := by
  obtain ⟨r, ledger, ha, rfl, hl⟩ := h.effect
  obtain rfl := Except.ok.inj ha
  exact hl.taken rfl rfl

theorem newClientId_answer {id : String} (h : Answered P (.runtime .newClientId) id pre post) :
    Taken isClientId id pre post := by
  obtain ⟨r, ledger, ha, rfl, hl⟩ := h.effect
  obtain rfl := Except.ok.inj ha
  exact hl.taken rfl rfl

theorem sign_answer {kid : String} {payload : JwtPayload} {token : Jws}
    (h : Answered P (.kms (.sign kid payload)) token pre post) :
    token = ⟨"EdDSA", some kid, payload⟩ ∧ token ∈ post.signed := by
  obtain ⟨r, ledger, ha, rfl, _⟩ := h.effect
  obtain rfl := Except.ok.inj ha
  exact ⟨rfl, List.mem_cons_self ..⟩

/-- **A verified token** was signed with a key of the server, and the time is in
its window. -/
theorem jwtVerify_answer {kid : String} {token : Jws} {requiresScope : Bool} {payload : JwtPayload}
    (h : Answered P (.kms (.jwtVerify kid token requiresScope)) payload pre post) :
    payload = token.payload ∧ token ∈ pre.signed ∧ token.kid = some kid ∧
      KmsStmt.verifyClaims P.config pre.now payload requiresScope = .ok payload := by
  obtain ⟨r, ledger, ha, _⟩ := h.effect
  simp only [Stmt.effect, KmsStmt.effect] at ha
  split_ifs at ha with halg hsig
  have heq : payload = token.payload := by
    unfold KmsStmt.verifyClaims at ha
    split_ifs at ha
    exact (Except.ok.inj ha).symm
  exact ⟨heq, hsig.1, hsig.2, by rw [heq]; exact heq ▸ ha⟩

end Stmt

end IdentityPlatform
