/-
# What `consume` does with a token

`RefreshTokenService.consume` decides with two statements: a conditional `UPDATE` that
only an active, unexpired row satisfies, and after its failure a `SELECT` that any row
with the hash satisfies.  So a row that has merely expired is taken for a stolen one.

`ConsumesAsDocumented` is the security model of the service; `consume_classifies_iff`
says that `consume` keeps to it, on every content of the two tables, exactly for the
tokens whose row is not both active and expired.
-/

import IdentityPlatform.Protocol.State
import IdentityPlatform.Interleaving.Alone

namespace IdentityPlatform

open Interleaving Program Relational Machine

variable {P : Platform} {w w' : World} {token : String}

/-- What the columns and constraints of the database promise of `refresh_tokens`, and
that a token not yet generated has no hash in it. -/
structure World.TokensStored (P : Platform) (w : World) : Prop where
  ids : (w.refreshTokens.map RefreshTokenRow.id).Nodup
  hashes : (w.refreshTokens.map RefreshTokenRow.tokenHash).Nodup
  uuids : ∀ row ∈ w.refreshTokens, isUuid row.id = true ∧ isUuid row.sessionId = true ∧
    isUuid row.userId = true ∧ isUuid row.familyId = true ∧
    ∀ id ∈ row.clientId, isUuid id = true
  sessions : ∀ row ∈ w.refreshTokens, w.hasSession row.sessionId
  users : ∀ row ∈ w.refreshTokens, w.hasUser row.userId
  clients : ∀ row ∈ w.refreshTokens, ∀ id ∈ row.clientId, w.hasClient id
  unseen : ∀ token, isRandomToken token = true → token ∉ w.generated →
    w.refreshToken (P.sha256Hex token) = none

/-! ### Statements that run alone -/

/-- A statement on identifiers that takes no random value has its effect. -/
theorem Stmt.runsAlone_iff {s : Stmt} {r : Except Err s.Ans} (hids : s.uuidParams.all isUuid = true)
    (hnone : s.generates P w = none) (hsame : ∀ rnd, s.effect P rnd w = s.effect P "" w) :
    (AuthServer.machine P).RunsAlone (query s) w r w' ↔
      r = (s.effect P "" w).1 ∧ w' = (s.effect P "" w).2 := by
  rw [runsAlone_perform]
  change (∃ rnd, s.exec P rnd w = some (r, w')) ↔ _
  simp only [Stmt.exec, hids, hnone, if_true, hsame]
  constructor
  · rintro ⟨_, h⟩
    obtain ⟨rfl, rfl⟩ := Prod.mk.inj (Option.some.inj h)
    exact ⟨rfl, rfl⟩
  · rintro ⟨rfl, rfl⟩
    exact ⟨"", rfl⟩

/-- A statement on anything else is rejected. -/
theorem Stmt.runsAlone_rejected {s : Stmt} {r : Except Err s.Ans}
    (hids : s.uuidParams.all isUuid = false) :
    (AuthServer.machine P).RunsAlone (query s) w r w' ↔ r = .error (.db "22P02") ∧ w' = w := by
  rw [runsAlone_perform]
  change (∃ rnd, s.exec P rnd w = some (r, w')) ↔ _
  simp only [Stmt.exec, hids, Bool.false_eq_true, if_false]
  constructor
  · rintro ⟨_, h⟩
    obtain ⟨rfl, rfl⟩ := Prod.mk.inj (Option.some.inj h)
    exact ⟨rfl, rfl⟩
  · rintro ⟨rfl, rfl⟩
    exact ⟨"", rfl⟩

/-- A statement on identifiers that takes a random value has its effect with a new one. -/
theorem Stmt.runsAlone_generates {s : Stmt} {r : Except Err s.Ans} {form : String → Bool}
    (hids : s.uuidParams.all isUuid = true) (hform : s.generates P w = some form)
    (h : (AuthServer.machine P).RunsAlone (query s) w r w') :
    ∃ rnd, form rnd = true ∧ rnd ∉ w.generated ∧ r = (s.effect P rnd w).1 ∧
      w' = { (s.effect P rnd w).2 with generated := rnd :: w.generated } := by
  obtain ⟨rnd, h⟩ := runsAlone_perform.1 h
  change s.exec P rnd w = some (r, w') at h
  simp only [Stmt.exec, hids, hform, if_true] at h
  split_ifs at h with hnew
  obtain ⟨hwell, hfresh⟩ := Bool.and_eq_true_iff.1 hnew
  obtain ⟨rfl, rfl⟩ := Prod.mk.inj (Option.some.inj h)
  exact ⟨rnd, hwell, by simpa using hfresh, rfl, rfl⟩

/-! ### The security model -/

/-- The row is active and has not expired. -/
def RefreshTokenRow.Usable (now : ℕ) (row : RefreshTokenRow) : Prop :=
  row.status = .active ∧ now < row.expiresAt

/-- A used or revoked token: presenting it is theft. -/
def RefreshTokenRow.Spent (row : RefreshTokenRow) : Prop :=
  row.status = .rotated ∨ row.status = .revoked

/-- A token that was never used and has expired. -/
def RefreshTokenRow.Expired (now : ℕ) (row : RefreshTokenRow) : Prop :=
  row.status = .active ∧ row.expiresAt ≤ now

instance {now : ℕ} {row : RefreshTokenRow} : Decidable (row.Usable now) := instDecidableAnd

instance {row : RefreshTokenRow} : Decidable row.Spent := instDecidableOr

namespace RefreshTokenService

/-- `REFRESH_TOKEN_REUSE`. -/
def reuse : Err :=
  .appError 401 "REFRESH_TOKEN_REUSE" "Refresh token reuse detected - session revoked"

/-- `INVALID_REFRESH_TOKEN`. -/
def invalid : Err := .authError "Invalid refresh token" "INVALID_REFRESH_TOKEN"

/-- `consume` has rotated the row and stored one successor. -/
def Rotated (P : Platform) (w : World) (row : RefreshTokenRow) (r : Except Err ConsumedRefreshToken)
    (w' : World) : Prop :=
  ∃ next id, let rotated := { row with status := .rotated, rotatedAt := some w.now }
    r = .ok ⟨rotated, next, w.now + P.config.refreshTokenTtl * 1000⟩ ∧
    w'.refreshTokens = updateWhere (fun a => a.id = row.id)
      (fun a => { a with status := .rotated, rotatedAt := some w.now }) w.refreshTokens ++
        [(issueData P (successor rotated) next row.familyId).row id w] ∧
    w'.sessions = w.sessions

/-- `consume` has revoked the active and the rotated rows of the family, and the session. -/
def FamilyRevoked (w : World) (row : RefreshTokenRow) (w' : World) : Prop :=
  w'.refreshTokens = updateWhere (fun a => a.familyId = row.familyId ∧ RefreshStmt.live a = true)
    (fun a => { a with status := .revoked, revokedAt := some w.now }) w.refreshTokens ∧
  w'.sessions = updateWhere (fun a => a.id = row.sessionId ∧ a.status = .active)
    (fun a => { a with
      status := .revoked, revokedAt := some w.now, revokeReason := some "refresh_token_reuse" })
    w.sessions

/-- **The security model.**  `consume` rotates a usable token and takes a spent one for
stolen; every other one is invalid, and both tables stay as they are. -/
structure ConsumesAsDocumented (P : Platform) (token : String) (w : World)
    (r : Except Err ConsumedRefreshToken) (w' : World) : Prop where
  rotates : (∃ consumed, r = .ok consumed) ↔
    ∃ row, w.refreshToken (P.sha256Hex token) = some row ∧ row.Usable w.now
  rotated : ∀ row, w.refreshToken (P.sha256Hex token) = some row → row.Usable w.now →
    Rotated P w row r w'
  detects : r = .error reuse ↔ ∃ row, w.refreshToken (P.sha256Hex token) = some row ∧ row.Spent
  detected : ∀ row, w.refreshToken (P.sha256Hex token) = some row → row.Spent →
    FamilyRevoked w row w'
  refuses :
    (∀ row, w.refreshToken (P.sha256Hex token) = some row → ¬row.Usable w.now ∧ ¬row.Spent) →
    r = .error invalid ∧ w'.refreshTokens = w.refreshTokens ∧ w'.sessions = w.sessions

/-! ### The three outcomes -/

section Outcomes

variable {row : RefreshTokenRow} {r : Except Err ConsumedRefreshToken}

/-- What the `UPDATE` of `consume` is about. -/
theorem rotate_where {hash : String} {a : RefreshTokenRow}
    (h : (RefreshStmt.rotate hash).where w a = true) : a.tokenHash = hash ∧ a.Usable w.now := by
  simp only [RefreshStmt.where, Bool.and_eq_true, decide_eq_true_eq] at h
  exact ⟨h.1.1, h.1.2, h.2⟩

/-- What the `UPDATE` of `consume` returns. -/
theorem rotate_answers (hstored : w.TokensStored P) {hash : String} :
    ((RefreshStmt.rotate hash).updated w).head? =
      ((w.refreshToken hash).filter (·.Usable w.now)).map
        fun row => { row with status := .rotated, rotatedAt := some w.now } := by
  have hp : ∀ a : RefreshTokenRow,
      (RefreshStmt.rotate hash).where w a = true → a.tokenHash = hash :=
    fun a ha => (rotate_where ha).1
  cases hrow : w.refreshToken hash with
  | none => simp [RefreshStmt.updated, returning_of_none hp hrow]
  | some row =>
      have hkey : row.tokenHash = hash := lookup_key hrow
      rw [RefreshStmt.updated, returning_of_lookup hp hstored.hashes hrow]
      by_cases husable : row.Usable w.now
      · have hwhere : (RefreshStmt.rotate hash).where w row = true := by
          simp [RefreshStmt.where, hkey, husable.1, husable.2]
        rw [if_pos hwhere, Option.filter_some, if_pos (decide_eq_true husable)]
        rfl
      · have hwhere : ¬(RefreshStmt.rotate hash).where w row = true := by
          simpa [RefreshStmt.where, hkey, RefreshTokenRow.Usable] using husable
        rw [if_neg hwhere, Option.filter_some, if_neg (by simpa using husable)]
        rfl

/-- The row whose rotation the state shows. -/
def rotatedRow (w : World) (row : RefreshTokenRow) : RefreshTokenRow :=
  { row with status := .rotated, rotatedAt := some w.now }

/-- The state after the `UPDATE`. -/
def afterRotation (w : World) (row : RefreshTokenRow) : World :=
  { w with refreshTokens := updateWhere (fun a => a.id = row.id) (rotatedRow w) w.refreshTokens }

/-- A row whose references exist and whose hash is new is stored. -/
theorem insert_effect {data : IssueRefreshData} {rnd : String}
    (hhash : w.refreshToken data.tokenHash = none) (hsession : w.hasSession data.sessionId)
    (huser : w.hasUser data.userId) (hclient : ∀ id ∈ data.clientId, w.hasClient id)
    (hprevious : ∀ id ∈ data.previousTokenId, id ∈ w.refreshTokens.map RefreshTokenRow.id) :
    (RefreshStmt.insert data).effect rnd w = (.ok (), w.refreshTokens ++ [data.row rnd w]) := by
  have hchecks : ∀ (o : Option String) (p : String → Bool), (∀ id ∈ o, p id = false) →
      o.any p = false := by
    intro o p h
    cases o with
    | none => rfl
    | some id => exact h id rfl
  simp only [RefreshStmt.effect, constrained]
  rw [List.find?_eq_none.2]
  simp only [List.mem_cons, List.not_mem_nil, or_false]
  rintro c (rfl | rfl | rfl | rfl | rfl)
  · simp [hhash]
  · simp [hsession]
  · simp [huser]
  · exact Bool.eq_false_iff.1 (hchecks _ _ fun id hid => by simp [hclient id hid])
  · exact Bool.eq_false_iff.1 (hchecks _ _ fun id hid =>
      decide_eq_false (not_not.2 (hprevious id hid)))

/-- The rotation stores no new hash. -/
theorem rotated_unseen {hash : String} (h : w.refreshToken hash = none) :
    (afterRotation w row).refreshToken hash = none := by
  refine List.find?_eq_none.2 fun a ha => ?_
  obtain ⟨b, hb, rfl⟩ := mem_updateWhere.1 ha
  have hne : b.tokenHash ≠ hash := lookup_eq_none h b hb
  split_ifs
  · exact fun heq => hne (of_decide_eq_true heq)
  · exact fun heq => hne (of_decide_eq_true heq)

/-- The state after the generation of the next token, and after its insertion. -/
theorem insert_alone (hstored : w.TokensStored P) (hrow : row ∈ w.refreshTokens) {next : String}
    {ledger : List String} (hform : isRandomToken next = true) (hnew : next ∉ w.generated)
    {r : Except Err Unit}
    (h : (AuthServer.machine P).RunsAlone (query (.refreshTokens (.insert
      (issueData P (successor (rotatedRow w row)) next row.familyId))))
      { afterRotation w row with generated := ledger } r w') :
    r = .ok () ∧ w'.now = w.now ∧ w'.sessions = w.sessions ∧
      ∃ id, w'.refreshTokens = (afterRotation w row).refreshTokens ++
        [(issueData P (successor (rotatedRow w row)) next row.familyId).row id w] := by
  obtain ⟨hid, hsession, huser, hfamily, hclient⟩ := hstored.uuids row hrow
  have hids : (Stmt.refreshTokens (.insert (issueData P (successor (rotatedRow w row)) next
      row.familyId))).uuidParams.all isUuid = true := by
    cases hc : row.clientId with
    | none =>
        simp [Stmt.uuidParams, issueData, successor, rotatedRow, hid, hsession, huser, hfamily, hc]
    | some id =>
        have hcid : isUuid id = true := hclient id hc
        simp [Stmt.uuidParams, issueData, successor, rotatedRow, hid, hsession, huser, hfamily, hc,
          hcid]
  obtain ⟨id, _, _, hr, rfl⟩ := Stmt.runsAlone_generates hids rfl h
  have heffect : (RefreshStmt.insert (issueData P (successor (rotatedRow w row)) next
      row.familyId)).effect id { afterRotation w row with generated := ledger } =
        (.ok (), (afterRotation w row).refreshTokens ++
          [(issueData P (successor (rotatedRow w row)) next row.familyId).row id w]) := by
    refine insert_effect (rotated_unseen (hstored.unseen next hform hnew))
      (hstored.sessions row hrow) (hstored.users row hrow) (hstored.clients row hrow)
      fun previous hprevious => ?_
    obtain rfl : row.id = previous := Option.some.inj hprevious
    exact List.mem_map.2 ⟨rotatedRow w row, mem_updateWhere.2 ⟨row, hrow, by simp⟩, rfl⟩
  exact ⟨hr.trans (congrArg Prod.fst heffect), rfl, rfl, id, congrArg Prod.snd heffect⟩

/-- **A usable token** gets its successor. -/
theorem issue_alone (hstored : w.TokensStored P) (hrow : row ∈ w.refreshTokens)
    {r : Except Err IssuedRefreshToken}
    (h : (AuthServer.machine P).RunsAlone (issue P (successor (rotatedRow w row)))
      (afterRotation w row) r w') :
    ∃ next id, r = .ok ⟨next, w.now + P.config.refreshTokenTtl * 1000⟩ ∧
      w'.refreshTokens = (afterRotation w row).refreshTokens ++
        [(issueData P (successor (rotatedRow w row)) next row.familyId).row id w] ∧
      w'.sessions = w.sessions := by
  rcases runsAlone_bind.1 h with ⟨next, w₁, h₁, h⟩ | ⟨e, h₁, _⟩
  swap
  · obtain ⟨_, _, _, hr, _⟩ := Stmt.runsAlone_generates rfl rfl h₁
    cases hr
  obtain ⟨_, hform, hnew, hr, rfl⟩ := Stmt.runsAlone_generates rfl rfl h₁
  obtain rfl := Except.ok.inj hr
  -- the family is given, so none is generated
  rcases runsAlone_bind.1 h with ⟨familyId, w₂, ⟨hfamily, rfl⟩, h⟩ | ⟨e, ⟨he, _⟩, _⟩
  swap
  · cases he
  obtain rfl := Except.ok.inj hfamily
  rcases runsAlone_bind.1 h with ⟨_, w₃, h₃, h⟩ | ⟨e, h₃, _⟩
  swap
  · cases (insert_alone hstored hrow hform hnew h₃).1
  obtain ⟨_, hnow, hsessions, id, htokens⟩ := insert_alone hstored hrow hform hnew h₃
  rcases runsAlone_bind.1 h with ⟨now, w₄, h₄, h⟩ | ⟨e, h₄, _⟩
  swap
  · cases ((Stmt.runsAlone_iff rfl rfl fun _ => rfl).1 h₄).1
  obtain ⟨hclock, rfl⟩ := (Stmt.runsAlone_iff rfl rfl fun _ => rfl).1 h₄
  obtain ⟨rfl, rfl⟩ := h
  obtain rfl : now = w₃.now := Except.ok.inj hclock
  exact ⟨next, id, by rw [hnow], htokens, hsessions⟩

/-- **A known token** has its family and its session revoked. -/
theorem known_alone (hstored : w.TokensStored P) (hrow : row ∈ w.refreshTokens) {hash : String}
    (hlookup : w.refreshToken hash = some row) {r : Except Err Unit}
    (h : (AuthServer.machine P).RunsAlone (handleReuseOrInvalid hash) w r w') :
    r = .error reuse ∧ FamilyRevoked w row w' := by
  obtain ⟨_, hsession, _, hfamily, _⟩ := hstored.uuids row hrow
  have hids : (Stmt.refreshTokens (.revokeFamily row.familyId)).uuidParams.all isUuid = true := by
    simp [Stmt.uuidParams, hfamily]
  have hids' : (Stmt.sessions (.revoke row.sessionId "refresh_token_reuse")).uuidParams.all isUuid =
      true := by
    simp [Stmt.uuidParams, hsession]
  rcases runsAlone_bind.1 h with ⟨known, w₁, h₁, h⟩ | ⟨e, h₁, _⟩
  swap
  · cases ((Stmt.runsAlone_iff rfl rfl fun _ => rfl).1 h₁).1
  obtain ⟨hknown, rfl⟩ := (Stmt.runsAlone_iff rfl rfl fun _ => rfl).1 h₁
  obtain rfl : known = some row := (Except.ok.inj hknown).trans hlookup
  rcases runsAlone_bind.1 h with ⟨_, w₂, h₂, h⟩ | ⟨e, h₂, _⟩
  swap
  · cases ((Stmt.runsAlone_iff hids rfl fun _ => rfl).1 h₂).1
  obtain ⟨_, rfl⟩ := (Stmt.runsAlone_iff hids rfl fun _ => rfl).1 h₂
  rcases runsAlone_bind.1 h with ⟨_, w₃, h₃, h⟩ | ⟨e, h₃, _⟩
  swap
  · cases ((Stmt.runsAlone_iff hids' rfl fun _ => rfl).1 h₃).1
  obtain ⟨_, rfl⟩ := (Stmt.runsAlone_iff hids' rfl fun _ => rfl).1 h₃
  obtain ⟨rfl, rfl⟩ := runsAlone_throw.1 h
  exact ⟨rfl, updateWhere_congr fun a _ => by simp [RefreshStmt.where],
    updateWhere_congr fun a _ => by simp [SessionStmt.where]⟩

/-- **An unknown token** is refused. -/
theorem unknown_alone {hash : String} (hlookup : w.refreshToken hash = none) {r : Except Err Unit}
    (h : (AuthServer.machine P).RunsAlone (handleReuseOrInvalid hash) w r w') :
    r = .ok () ∧ w' = w := by
  rcases runsAlone_bind.1 h with ⟨known, w₁, h₁, h⟩ | ⟨e, h₁, _⟩
  swap
  · cases ((Stmt.runsAlone_iff rfl rfl fun _ => rfl).1 h₁).1
  obtain ⟨hknown, rfl⟩ := (Stmt.runsAlone_iff rfl rfl fun _ => rfl).1 h₁
  obtain rfl : known = none := (Except.ok.inj hknown).trans hlookup
  exact runsAlone_pure.1 h

/-- The rotation of a usable token. -/
theorem rotate_effect (hstored : w.TokensStored P) {hash : String}
    (hlookup : w.refreshToken hash = some row) (husable : row.Usable w.now) :
    ((Stmt.refreshTokens (.rotate hash)).effect P "" w).2 = afterRotation w row := by
  have hkey : row.tokenHash = hash := lookup_key hlookup
  have hrows : (RefreshStmt.rotate hash).update w = (afterRotation w row).refreshTokens := by
    refine updateWhere_congr fun a ha => ?_
    constructor
    · intro hwhere
      obtain ⟨hhash, _⟩ := rotate_where hwhere
      rw [eq_of_key hstored.hashes ha (lookup_mem hlookup) (hhash.trans hkey.symm)]
    · intro hid
      obtain rfl : a = row := eq_of_key hstored.ids ha (lookup_mem hlookup) hid
      simp [RefreshStmt.where, hkey, husable.1, husable.2]
  simp only [Stmt.effect, RefreshStmt.effect, hrows]
  rfl

/-- The rotation of no usable token. -/
theorem rotate_none (hstored : w.TokensStored P) {hash : String}
    (hnone : ¬∃ row, w.refreshToken hash = some row ∧ row.Usable w.now) :
    ((Stmt.refreshTokens (.rotate hash)).effect P "" w).2 = w := by
  have hrows : (RefreshStmt.rotate hash).update w = w.refreshTokens := by
    refine updateWhere_of_none fun a ha hwhere => ?_
    obtain ⟨rfl, husable⟩ := rotate_where hwhere
    exact hnone ⟨a, lookup_of_mem hstored.hashes ha, husable⟩
  simp only [Stmt.effect, RefreshStmt.effect, hrows]

/-- **What `consume` does**, in three cases: it rotates a usable token, takes another
known one for stolen, and refuses an unknown one. -/
theorem consume_alone (hstored : w.TokensStored P) {r : Except Err ConsumedRefreshToken}
    (h : (AuthServer.machine P).RunsAlone (consume P token) w r w') :
    (∃ row, w.refreshToken (P.sha256Hex token) = some row ∧ row.Usable w.now ∧
      Rotated P w row r w') ∨
    (∃ row, w.refreshToken (P.sha256Hex token) = some row ∧ ¬row.Usable w.now ∧
      r = .error reuse ∧ FamilyRevoked w row w') ∨
    (w.refreshToken (P.sha256Hex token) = none ∧ r = .error invalid ∧
      w'.refreshTokens = w.refreshTokens ∧ w'.sessions = w.sessions) := by
  rcases runsAlone_bind.1 h with ⟨rotated, w₁, h₁, hrest⟩ | ⟨e, h₁, _⟩
  swap
  · cases ((Stmt.runsAlone_iff rfl rfl fun _ => rfl).1 h₁).1
  clear h
  obtain ⟨hrotated, hw₁⟩ := (Stmt.runsAlone_iff rfl rfl fun _ => rfl).1 h₁
  have hanswer := (Except.ok.inj hrotated).trans (rotate_answers hstored)
  by_cases husable : ∃ row, w.refreshToken (P.sha256Hex token) = some row ∧ row.Usable w.now
  · obtain ⟨row, hlookup, husable⟩ := husable
    rw [hlookup, Option.filter_some, if_pos (decide_eq_true husable)] at hanswer
    obtain rfl : rotated = some (rotatedRow w row) := hanswer
    obtain rfl : w₁ = afterRotation w row := hw₁.trans (rotate_effect hstored hlookup husable)
    rcases runsAlone_bind.1 hrest with ⟨next, w₂, h₂, hrest⟩ | ⟨e, h₂, _⟩
    swap
    · obtain ⟨_, _, hr, _⟩ := issue_alone hstored (lookup_mem hlookup) h₂
      cases hr
    obtain ⟨text, id, hr, htokens, hsessions⟩ := issue_alone hstored (lookup_mem hlookup) h₂
    obtain rfl := Except.ok.inj hr
    obtain ⟨rfl, rfl⟩ := runsAlone_pure.1 hrest
    exact .inl ⟨row, hlookup, husable, text, id, rfl, htokens, hsessions⟩
  · -- the update has matched nothing
    have hnone : rotated = none := by
      rw [hanswer]
      cases hlookup : w.refreshToken (P.sha256Hex token) with
      | none => rfl
      | some row =>
          have hnot : ¬row.Usable w.now := fun hrow => husable ⟨row, hlookup, hrow⟩
          rw [Option.filter_some, if_neg (by simpa using hnot)]
          rfl
    subst hnone
    have hsame : w₁ = w := hw₁.trans (rotate_none hstored husable)
    subst hsame
    cases hlookup : w₁.refreshToken (P.sha256Hex token) with
    | none =>
        rcases runsAlone_bind.1 hrest with ⟨_, w₂, h₂, hthrow⟩ | ⟨e, h₂, _⟩
        · obtain ⟨_, rfl⟩ := unknown_alone hlookup h₂
          obtain ⟨rfl, rfl⟩ := runsAlone_throw.1 hthrow
          exact .inr (.inr ⟨rfl, rfl, rfl, rfl⟩)
        · cases (unknown_alone hlookup h₂).1
    | some row =>
        rcases runsAlone_bind.1 hrest with ⟨_, w₂, h₂, _⟩ | ⟨e, h₂, rfl⟩
        · cases (known_alone hstored (lookup_mem hlookup) hlookup h₂).1
        · obtain ⟨he, hrevoked⟩ := known_alone hstored (lookup_mem hlookup) hlookup h₂
          obtain rfl := Except.error.inj he
          exact .inr (.inl ⟨row, rfl, fun hrow => husable ⟨row, hlookup, hrow⟩, rfl, hrevoked⟩)

theorem spent_of_unusable {now : ℕ} (hunusable : ¬row.Usable now) (hexpired : ¬row.Expired now) :
    row.Spent := by
  cases hstatus : row.status with
  | active =>
      rcases Nat.lt_or_ge now row.expiresAt with hlt | hge
      · exact absurd ⟨hstatus, hlt⟩ hunusable
      · exact absurd ⟨hstatus, hge⟩ hexpired
  | rotated => exact .inl hstatus
  | revoked => exact .inr hstatus

theorem not_spent_of_usable {now : ℕ} (husable : row.Usable now) : ¬row.Spent := by
  simp [RefreshTokenRow.Spent, husable.1]

theorem documented_of_usable {r : Except Err ConsumedRefreshToken}
    (hlookup : w.refreshToken (P.sha256Hex token) = some row) (husable : row.Usable w.now)
    (h : Rotated P w row r w') : ConsumesAsDocumented P token w r w' := by
  have honly : ∀ row', w.refreshToken (P.sha256Hex token) = some row' → row' = row := fun row' h' =>
    Option.some.inj (h'.symm.trans hlookup)
  obtain ⟨_, _, rfl, _⟩ := id h
  constructor
  · exact ⟨fun _ => ⟨row, hlookup, husable⟩, fun _ => ⟨_, rfl⟩⟩
  · exact fun row' h' _ => honly row' h' ▸ h
  · refine ⟨(fun he => by cases he), ?_⟩
    rintro ⟨row', h', hspent⟩
    exact absurd (honly row' h' ▸ hspent) (not_spent_of_usable husable)
  · exact fun row' h' hspent => absurd (honly row' h' ▸ hspent) (not_spent_of_usable husable)
  · exact fun hnot => absurd husable (hnot row hlookup).1

theorem documented_of_spent (hlookup : w.refreshToken (P.sha256Hex token) = some row)
    (hspent : row.Spent) (h : FamilyRevoked w row w') :
    ConsumesAsDocumented P token w (.error reuse) w' := by
  have honly : ∀ row', w.refreshToken (P.sha256Hex token) = some row' → row' = row := fun row' h' =>
    Option.some.inj (h'.symm.trans hlookup)
  have hunusable : ¬row.Usable w.now := fun husable => not_spent_of_usable husable hspent
  constructor
  · refine ⟨(fun ⟨_, he⟩ => by cases he), ?_⟩
    rintro ⟨row', h', husable⟩
    exact absurd (honly row' h' ▸ husable) hunusable
  · exact fun row' h' husable => absurd (honly row' h' ▸ husable) hunusable
  · exact ⟨fun _ => ⟨row, hlookup, hspent⟩, fun _ => rfl⟩
  · exact fun row' h' _ => honly row' h' ▸ h
  · exact fun hnot => absurd hspent (hnot row hlookup).2

theorem documented_of_unknown (hnone : w.refreshToken (P.sha256Hex token) = none)
    (htokens : w'.refreshTokens = w.refreshTokens) (hsessions : w'.sessions = w.sessions) :
    ConsumesAsDocumented P token w (.error invalid) w' := by
  have hno : ∀ row, w.refreshToken (P.sha256Hex token) ≠ some row := fun row h => by
    rw [hnone] at h
    cases h
  constructor
  · exact ⟨(fun ⟨_, he⟩ => by cases he), fun ⟨row, h, _⟩ => absurd h (hno row)⟩
  · exact fun row h => absurd h (hno row)
  · have hne : invalid ≠ reuse := by decide
    exact ⟨fun he => absurd (Except.error.inj he) hne, fun ⟨row, h, _⟩ => absurd h (hno row)⟩
  · exact fun row h => absurd h (hno row)
  · exact fun _ => ⟨rfl, htokens, hsessions⟩

/-- **`consume` keeps to the security model exactly on tokens that have not expired unused.**
Whatever `refresh_tokens` and `sessions` hold and whatever token is presented, `consume`
does what is documented if and only if the row of the token is not active and expired. -/
theorem consume_classifies_iff (hstored : w.TokensStored P) {r : Except Err ConsumedRefreshToken}
    (h : (AuthServer.machine P).RunsAlone (consume P token) w r w') :
    ConsumesAsDocumented P token w r w' ↔
      ¬∃ row, w.refreshToken (P.sha256Hex token) = some row ∧ row.Expired w.now := by
  constructor
  · rintro hdoc ⟨row, hlookup, hactive, hexpired⟩
    -- the row is neither usable nor spent, but `consume` takes it for stolen
    have hnot : ∀ row', w.refreshToken (P.sha256Hex token) = some row' →
        ¬row'.Usable w.now ∧ ¬row'.Spent := by
      intro row' hrow'
      obtain rfl := Option.some.inj (hlookup.symm.trans hrow')
      exact ⟨fun husable => absurd husable.2 (Nat.not_lt.2 hexpired), by
        simp [RefreshTokenRow.Spent, hactive]⟩
    have hrefused := (hdoc.refuses hnot).1
    rcases consume_alone hstored h with ⟨row', hlookup', husable, _⟩
      | ⟨row', _, _, hr, _⟩ | ⟨hnone, _⟩
    · exact (hnot row' hlookup').1 husable
    · rw [hrefused] at hr
      cases hr
    · rw [hlookup] at hnone
      cases hnone
  · intro hexpired
    rcases consume_alone hstored h with ⟨row, hlookup, husable, hrotated⟩ |
      ⟨row, hlookup, hunusable, rfl, hrevoked⟩ | ⟨hnone, rfl, htokens, hsessions⟩
    · exact documented_of_usable hlookup husable hrotated
    · have hspent : row.Spent := spent_of_unusable hunusable fun h => hexpired ⟨row, hlookup, h⟩
      exact documented_of_spent hlookup hspent hrevoked
    · exact documented_of_unknown hnone htokens hsessions

end Outcomes

/-- The sample platform with a session and one refresh token, whose text is empty. -/
def sampleToken (expiresAt : ℕ) : World :=
  { World.sample with
    sessions :=
      [{ id := sampleUuid 9401, userId := sampleUuid 9001, clientId := none, ip := none
         userAgent := none, deviceId := none, mfaPassed := false, lastSeenAt := 0
         expiresAt := 9000000 }]
    refreshTokens :=
      [{ id := sampleUuid 9501, sessionId := sampleUuid 9401, userId := sampleUuid 9001
         clientId := none, tokenHash := "h", familyId := sampleUuid 9502, previousTokenId := none
         scope := "openid", expiresAt := expiresAt }] }

theorem tokensStored_sample (expiresAt : ℕ) : (sampleToken expiresAt).TokensStored .sample where
  ids := by simp [sampleToken]
  hashes := by simp [sampleToken]
  uuids := by
    simp only [sampleToken, List.forall_mem_singleton]
    decide
  sessions := by
    simp only [sampleToken, List.forall_mem_singleton]
    exact ⟨_, List.mem_singleton_self _, rfl⟩
  users := by
    simp only [sampleToken, List.forall_mem_singleton]
    exact ⟨_, List.mem_cons_self .., rfl⟩
  clients := by simp [sampleToken]
  unseen token hform hnew := by
    refine List.find?_eq_none.2 fun a ha heq => ?_
    obtain rfl := List.mem_singleton.1 ha
    have hempty : token = "" := by
      have hlist := congrArg String.toList (of_decide_eq_true heq)
      simpa [Platform.sample] using hlist
    rw [hempty] at hform
    exact absurd hform (by decide)

/-- The random values of a run alone. -/
def sampleChoice (s : Stmt) (w : World) : String := s.sampleRandom (9600 + w.generated.length)

theorem sampleToken_runs (expiresAt : ℕ) (h : ((AuthServer.machine .sample).runAlone sampleChoice
      (consume .sample "") (sampleToken expiresAt)).isSome = true) :
    ∃ r w', (AuthServer.machine .sample).RunsAlone (consume .sample "")
    (sampleToken expiresAt) r w' := by
  obtain ⟨⟨r, w'⟩, hrun⟩ := Option.isSome_iff_exists.1 h
  exact ⟨r, w', runsAlone_of_runAlone hrun⟩

/-- A usable token is consumed as documented. -/
theorem consume_classifies_iff_of_usable :
    ∃ r w', (AuthServer.machine .sample).RunsAlone (consume .sample "") (sampleToken 2000000) r w' ∧
      ConsumesAsDocumented .sample "" (sampleToken 2000000) r w' := by
  obtain ⟨r, w', hrun⟩ := sampleToken_runs 2000000 (by decide +kernel)
  refine ⟨r, w', hrun, (consume_classifies_iff (tokensStored_sample _) hrun).2 ?_⟩
  rintro ⟨row, hlookup, hactive, hexpired⟩
  obtain rfl := List.mem_singleton.1 (lookup_mem hlookup)
  exact absurd hexpired (by decide)

/-- **A token that has expired unused is taken for stolen.** -/
theorem expired_token_detected_as_reuse :
    ∃ r w', (sampleToken 900000).TokensStored .sample ∧
      (AuthServer.machine .sample).RunsAlone (consume .sample "") (sampleToken 900000) r w' ∧
      r = .error reuse ∧ ¬ConsumesAsDocumented .sample "" (sampleToken 900000) r w' := by
  have hstored := tokensStored_sample 900000
  obtain ⟨r, w', hrun⟩ := sampleToken_runs 900000 (by decide +kernel)
  have hrow : ∀ row, (sampleToken 900000).refreshToken (Platform.sample.sha256Hex "") = some row →
      ¬row.Usable (sampleToken 900000).now ∧ ¬row.Spent := by
    intro row hlookup
    obtain rfl := List.mem_singleton.1 (lookup_mem hlookup)
    decide
  have hr : r = .error reuse := by
    rcases consume_alone hstored hrun with ⟨row, hlookup, husable, _⟩
      | ⟨_, _, _, hr, _⟩ | ⟨hnone, _⟩
    · exact absurd husable (hrow row hlookup).1
    · exact hr
    · exact absurd hnone (by decide)
  refine ⟨r, w', hstored, hrun, hr, fun hdoc => ?_⟩
  have hrefused := (hdoc.refuses hrow).1
  rw [hr] at hrefused
  exact absurd (Except.error.inj hrefused) (by decide)

end RefreshTokenService
end IdentityPlatform
