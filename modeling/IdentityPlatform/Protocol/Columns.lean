/-
# UUID columns

PostgreSQL rejects a statement with a parameter of a UUID column that is not a UUID, so what
is in these columns is one: of the rows that are inserted by the statement itself, of those
of the first state by assumption (`World.Columns`).  Hence the identifiers that an answer
hands to a call are UUIDs (`answer_uuids`).
-/

import IdentityPlatform.Protocol.MailedTokens
import IdentityPlatform.Protocol.SessionTokens

namespace IdentityPlatform

open Interleaving Relational Machine AuthServer

variable {P : Platform} {c : ServerConfig} {w w' pre post : World} {i : ℕ} {call : ServerCall}

/-- The UUID columns of `refresh_tokens` that a handler reads. -/
structure RefreshTokenRow.Columns (row : RefreshTokenRow) : Prop where
  id : isUuid row.id = true
  sessionId : isUuid row.sessionId = true
  userId : isUuid row.userId = true
  familyId : isUuid row.familyId = true
  clientId : ∀ id, row.clientId = some id → isUuid id = true

/-- The UUID columns that handlers read hold UUIDs. -/
structure World.Columns (w : World) : Prop where
  users : ∀ row ∈ w.users, isUuid row.id = true
  clients : ∀ row ∈ w.clients, isUuid row.id = true
  codes : ∀ row ∈ w.codes, isUuid row.id = true ∧ isUuid row.userId = true
  sessions : ∀ row ∈ w.sessions, isUuid row.id = true ∧ isUuid row.userId = true
  refreshTokens : ∀ row ∈ w.refreshTokens, row.Columns
  mfaMethods : ∀ row ∈ w.mfaMethods, isUuid row.id = true
  emailVerifications : ∀ row ∈ w.emailVerifications, isUuid row.userId = true
  passwordResetTokens : ∀ row ∈ w.passwordResetTokens, isUuid row.userId = true

/-- **A statement leaves UUIDs in the UUID columns.** -/
theorem Stmt.exec_columns {s : Stmt} {r : String} {ans : Except Err s.Ans}
    (h : s.exec P r w = some (ans, w')) (hw : w.Columns) : w'.Columns := by
  rcases exec_cases h with ⟨_, rfl⟩ | ⟨huuid, _⟩
  · exact hw
  refine ⟨?users, ?clients, ?codes, ?sessions, ?refreshTokens, ?mfaMethods, ?emailVerifications,
    ?passwordResetTokens⟩ <;> intro b hb
  case users =>
    rcases (exec_users h).mem_cases hb with ⟨a, ha, rfl | ⟨u, _, _, rfl⟩⟩ |
      ⟨_, _, _, _, _, rfl, htaken, _⟩
    · exact hw.users b ha
    · exact (UserStmt.change_le u w.now a).id ▸ hw.users a ha
    · exact htaken.form
  case clients =>
    rcases (exec_clients h).mem_cases hb with ⟨a, ha, rfl | ⟨u, _, _, rfl⟩⟩ |
      ⟨_, _, _, _, rfl, htaken, _⟩
    · exact hw.clients b ha
    · exact (ClientStmt.change_le u a).id ▸ hw.clients a ha
    · exact htaken.form
  case codes =>
    rcases (exec_codes h).mem_cases hb with ⟨a, ha, rfl | ⟨_, _, _, rfl⟩⟩ |
      ⟨_, data, _, rfl, _, rfl, htaken, _⟩
    · exact hw.codes b ha
    · exact hw.codes a ha
    · refine ⟨htaken.form, ?_⟩
      change isUuid data.userId = true
      simpa [uuidParams] using huuid
  case sessions =>
    rcases (exec_sessions h).mem_cases hb with ⟨a, ha, rfl | ⟨u, _, _, rfl⟩⟩ |
      ⟨data, rfl, rfl, htaken, _⟩
    · exact hw.sessions b ha
    · have hle := SessionStmt.change_le u w.now a
      rw [hle.id, hle.userId]
      exact hw.sessions a ha
    · refine ⟨htaken.form, ?_⟩
      simp only [uuidParams, List.all_cons, Bool.and_eq_true] at huuid
      exact huuid.1
  case refreshTokens =>
    rcases (exec_refreshTokens h).mem_cases hb with ⟨a, ha, rfl | ⟨u, _, hwhere, rfl⟩⟩ |
      ⟨data, rfl, rfl, htaken, _⟩
    · exact hw.refreshTokens b ha
    · have hle : a.Le (u.change w.now a) := RefreshStmt.change_le hwhere
      have hrow := hw.refreshTokens a ha
      rw [← hle.core] at hrow
      exact ⟨hrow.id, hrow.sessionId, hrow.userId, hrow.familyId, hrow.clientId⟩
    · simp only [uuidParams, List.all_append, List.all_cons, List.all_nil, Bool.and_eq_true,
        Bool.and_true, List.all_eq_true, Option.mem_toList] at huuid
      obtain ⟨⟨⟨hsession, huser, hfamily⟩, hclient⟩, _⟩ := huuid
      exact ⟨htaken.form, hsession, huser, hfamily, hclient⟩
  case mfaMethods =>
    rcases (exec_mfaMethods h).mem_cases hb with ⟨a, ha, rfl | ⟨u, _, hu⟩⟩ |
      ⟨_, _, _, rfl, htaken, _⟩
    · exact hw.mfaMethods b ha
    · cases u with
      | upsertPending | activate | touchUsed | disable =>
          obtain ⟨_, rfl⟩ := hu
          exact hw.mfaMethods a ha
      | _ => exact hu.elim
    · exact htaken.form
  case emailVerifications =>
    rcases (exec_mailedTokens h).2.mem_cases hb with ⟨a, ha, rfl | ⟨_, _, _, rfl⟩⟩ |
      ⟨_, _, _, _, _, rfl, _, rfl⟩
    · exact hw.emailVerifications b ha
    · exact hw.emailVerifications a ha
    · simpa [uuidParams] using huuid
  case passwordResetTokens =>
    rcases (exec_mailedTokens h).1.mem_cases hb with ⟨a, ha, rfl | ⟨_, _, _, rfl⟩⟩ |
      ⟨_, _, _, _, rfl, _, rfl⟩
    · exact hw.passwordResetTokens b ha
    · exact hw.passwordResetTokens a ha
    · simpa [uuidParams] using huuid

/-- The environment writes none of these columns. -/
theorem World.Columns.env {e : Env} (h : w.Columns) (hw : Env.apply w e = some w') :
    w'.Columns := by
  rw [Env.apply_eq hw]
  exact { h with }

/-- The first state has UUIDs in its columns. -/
def World.InitialColumns (w : World) : Prop := w.Initial ∧ w.Columns

/-- **The columns of every state hold UUIDs.** -/
theorem reachable_columns (hreach : (machine P).Reachable World.InitialColumns c) :
    c.world.Columns ∧
      ∀ (i : ℕ) call, c.calls[i]? = some call → ∀ e ∈ call.log, e.pre.Columns ∧ e.post.Columns := by
  refine hreach.holds (J := World.Columns) (fun w hw => hw.2) (fun e w w' he h => h.env he) ?_
  rintro s pre ans post h (⟨r, hexec⟩ | ⟨_, hpost⟩)
  · exact Stmt.exec_columns hexec h
  · exact hpost ▸ h

/-! ### Answers -/

/-- The identifiers in an answer are UUIDs, as far as they are used for parameters later. -/
def Stmt.AnswerUuids : (s : Stmt) → s.Ans → Prop
  | .users (.insert ..) => fun row => isUuid row.id = true
  | .users (.findByEmail _) => fun found => ∀ row, found = some row → isUuid row.id = true
  | .users (.findById _) => fun found => ∀ row, found = some row → isUuid row.id = true
  | .clients (.findByClientId _) => fun found => ∀ row, found = some row → isUuid row.id = true
  | .codes (.selectJoined _) => fun found => ∀ row, found = some row →
      isUuid row.code.id = true ∧ isUuid row.code.userId = true
  | .codes (.consume _) => fun found => ∀ row, found = some row → isUuid row.userId = true
  | .sessions (.insert _) => fun row => isUuid row.id = true
  | .sessions (.selectById _) => fun found => ∀ row, found = some row →
      isUuid row.id = true ∧ isUuid row.userId = true
  | .refreshTokens (.rotate _) => fun found => ∀ row, found = some row → row.Columns
  | .refreshTokens (.selectByHash _) => fun found => ∀ row, found = some row → row.Columns
  | .mfaMethods (.selectByStatus ..) => fun found => ∀ row, found = some row → isUuid row.id = true
  | .emailTokens (.consumeVerification _) => fun found => ∀ row, found = some row →
      isUuid row.userId = true
  | .emailTokens (.consumeReset _) => fun found => ∀ row, found = some row →
      isUuid row.userId = true
  | .redis (.getChallenge (.mfaChallenge _)) => fun found => ∀ payload, found = some payload →
      isUuid payload.userId = true ∧ isUuid payload.sessionId = true
  | .runtime .randomUuid => fun id => isUuid id = true
  | .kms (.jwtVerify ..) => fun payload => ∀ sid, payload.sid = some sid →
      isUuid sid = true ∧ isUuid payload.sub = true
  | _ => fun _ => True

/-- A session of a user has UUIDs for both. -/
theorem World.SessionOf.uuids {sid u : String} (h : w.SessionOf sid u) (hw : w.Columns) :
    isUuid sid = true ∧ isUuid u = true := by
  obtain ⟨s, hs, rfl, rfl⟩ := h
  exact hw.sessions s hs

/-- **What an answer hands to a call are UUIDs.** -/
theorem Stmt.Answered.uuids {s : Stmt} {a : s.Ans} (h : s.Answered P a pre post)
    (hpre : pre.Columns) (hpost : post.Columns) (hbound : pre.Bound) : s.AnswerUuids a := by
  unfold AnswerUuids
  split
  · exact hpost.users _ (insertUser_answer h).1
  · exact fun row hrow => hpre.users row (lookup_mem ((findByEmail_answer h).symm.trans hrow))
  · exact fun row hrow => hpre.users row (lookup_mem ((findById_answer h).symm.trans hrow))
  · exact fun row hrow => hpre.clients row (lookup_mem ((findByClientId_answer h).symm.trans hrow))
  · rintro row rfl
    exact hpre.codes row.code (lookup_mem (selectJoined_answer h).1)
  · rintro row rfl
    obtain ⟨_, _, _, _, _, hrow⟩ := consume_answer h
    exact (hpost.codes row hrow).2
  · obtain ⟨_, _, _, hrow⟩ := insertSession_answer h
    exact (hpost.sessions _ hrow).1
  · exact fun row hrow => hpre.sessions row (lookup_mem ((selectById_answer h).symm.trans hrow))
  · rintro row rfl
    obtain ⟨_, _, _, _, _, _, hrow⟩ := rotate_answer h
    exact hpost.refreshTokens row hrow
  · exact fun row hrow => hpre.refreshTokens row
      (lookup_mem ((selectByHash_answer h).symm.trans hrow))
  · rintro row rfl
    exact hpre.mfaMethods row (selectByStatus_answer h).1
  · rintro row rfl
    exact hpost.emailVerifications row (consumeVerification_answer h).2
  · rintro row rfl
    obtain ⟨_, _, _, _, hrow⟩ := consumeReset_answer h
    exact hpost.passwordResetTokens row hrow
  · rintro payload rfl
    obtain ⟨p, hp, hkey, hvalue⟩ := getChallenge_answer h
    exact ((hbound.challenge p hp _ _ hkey hvalue).uuids hpre).symm
  · exact (randomUuid_answer h).form
  · intro sid hsid
    obtain ⟨rfl, hsigned, _⟩ := jwtVerify_answer h
    exact (hbound.access _ hsigned sid hsid).uuids hpre
  · trivial

end IdentityPlatform
