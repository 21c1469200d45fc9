/-
# A revoked session issues no tokens

Rotation, revocation and the session cache interleave freely, and an active
refresh token of a revoked session does appear in some runs.  It is of no use:
`findById` calls a session active only on a fresh read of its row, a row once
revoked is revoked in every later state, and a new session has a new identifier.
-/

import IdentityPlatform.Protocol.Received

namespace IdentityPlatform

open Interleaving Program Relational Machine AuthServer

variable {P : Platform} {c₀ c : ServerConfig} {i : ℕ} {call : ServerCall}

/-- An active session of a later state is not one that was revoked. -/
theorem World.Le.active_ne {w w' : World} (hle : w.Le w') (hw : w'.Sound) {s session : SessionRow}
    (hs : s ∈ w.sessions) (hrev : s.status = .revoked) (hsession : session ∈ w'.sessions)
    (hactive : session.status = .active) : session.id ≠ s.id := by
  intro hid
  have hrow := hle.sessions.le_of_key hw.sessions.nodup (fun h => h.id) hs hsession hid
  rw [hrow.revoked hrev] at hactive
  cases hactive

/-- A session inserted later is not one that was there. -/
theorem World.Le.inserted_ne {w w' post : World} (hle : w.Le w') (hw : w.Sound) {s : SessionRow}
    (hs : s ∈ w.sessions) {data : CreateSessionData} {session : SessionRow}
    (h : (Stmt.sessions (.insert data)).Answered P session w' post) : session.id ≠ s.id := by
  obtain ⟨r, rfl, htaken, _⟩ := Stmt.insertSession_answer h
  rintro rfl
  exact htaken.fresh (hle.generated (hw.sessions.ledger s hs))

/-- **A call that starts after a session has been revoked returns no access token
of that session**, whichever endpoint it is for, whatever the cache holds and
whatever other calls are doing. -/
theorem revoked_session_issues_no_token (h₀ : (machine P).Reachable World.Initial c₀)
    {s : SessionRow} (hs : s ∈ c₀.world.sessions) (hrev : s.status = .revoked)
    (hrun : (machine P).Run c₀ c) (hi : c.calls[i]? = some call) (hnew : c₀.calls.length ≤ i)
    {response : Response} (hresult : call.result = some (.ok response)) {token : Jws}
    (htoken : response.accessToken? = some token) : token.payload.sid ≠ some s.id := by
  have hv := (h₀.run hrun).valid
  have hw := (reachable_sound h₀).1
  have hgrant := granted (hv.returned hi hresult) htoken
  generalize call.req.request = request at hgrant
  -- a session that was read as active, or inserted, is another one
  have hread : ∀ {id session}, Log.Saw call.log (.sessions (.selectById id)) (.ok (some session)) →
      session.status = .active → session.id ≠ s.id ∧ session.id = id := by
    intro id session hsaw hactive
    obtain ⟨pre, post, hle, hsound, hans⟩ := later_answer h₀ hrun hi hnew hsaw
    have hlookup := (Stmt.selectById_answer hans).symm
    exact ⟨hle.active_ne hsound hs hrev (lookup_mem hlookup) hactive, lookup_key hlookup⟩
  have hinserted : ∀ {data session}, Log.Saw call.log (.sessions (.insert data)) (.ok session) →
      session.id ≠ s.id := by
    intro data session hsaw
    obtain ⟨pre, post, hle, _, hans⟩ := later_answer h₀ hrun hi hnew hsaw
    exact hle.inserted_ne hw hs hans
  intro hsid
  revert htoken
  cases hgrant with
  | login grant =>
      rintro ⟨⟩
      obtain ⟨_, _, hinsert⟩ := grant.created
      obtain ⟨_, _, _, hsigned⟩ := grant.tokens.access
      exact hinserted hinsert (Option.some.inj (hsigned.sid hv hi hsid))
  | challenge grant =>
      rintro ⟨⟩
      obtain ⟨_, hfound⟩ := grant.found
      obtain ⟨_, _, _, hsigned⟩ := grant.tokens.access
      exact (hread hfound grant.active).1 (Option.some.inj (hsigned.sid hv hi hsid))
  | refresh grant =>
      rintro ⟨⟩
      obtain ⟨_, _, _, _, hsigned⟩ := grant.access
      exact (hread grant.found grant.active).1 (Option.some.inj (hsigned.sid hv hi hsid))
  | code _ grant =>
      rintro ⟨⟩
      obtain ⟨_, _, hinsert⟩ := grant.tokens.created
      obtain ⟨_, _, _, hsigned⟩ := grant.tokens.access
      exact hinserted hinsert (Option.some.inj (hsigned.sid hv hi hsid))
  | oauthRefresh _ grant =>
      rintro ⟨⟩
      obtain ⟨_, _, _, _, _, hsigned⟩ := grant.access
      obtain ⟨hne, hid⟩ := hread grant.found grant.active
      exact hne (hid.trans (Option.some.inj (hsigned.sid hv hi hsid)))
  | clientCredentials _ grant =>
      rintro ⟨⟩
      obtain ⟨_, hsigned⟩ := grant.access
      cases hsigned.sid hv hi hsid

/-- A login, its logout, and a second login. -/
def logoutMoves : List (Move World Incoming Env) :=
  [.accept fun _ => ⟨.login "al@x.io" "Al 1", {}⟩, .steps 0 40,
   .accept fun w => ⟨.logout (lastBearer w) false none, {}⟩, .steps 1 20,
   .accept fun _ => ⟨.login "al@x.io" "Al 1", {}⟩, .steps 2 40]

/-- The second login refreshed. -/
def refreshMoves : List (Move World Incoming Env) :=
  [.accept fun w => ⟨.refresh (lastToken w), {}⟩, .steps 3 40]

theorem revoked_session_issues_no_token_after_logout :
    ∃ (c₀ c : ServerConfig) (s : SessionRow) (call : ServerCall) (response : Response)
      (token : Jws),
      s ∈ c₀.world.sessions ∧ s.status = .revoked ∧ c.calls[3]? = some call ∧
      call.result = some (.ok response) ∧ response.accessToken? = some token ∧
      token.payload.sid ≠ some s.id := by
  have hplay : (sampleRun logoutMoves).any (fun c₀ =>
      decide (∃ s ∈ c₀.world.sessions, s.status = .revoked) && decide (c₀.calls.length ≤ 3) &&
        ((machine .sample).play Stmt.sampleRandom refreshMoves c₀).any fun c =>
          (c.returned 3).any fun response => response.accessToken?.isSome) = true := by
    decide +kernel
  obtain ⟨c₀, h₀, hc⟩ := (Option.any_eq_true _ _).1 hplay
  simp only [Bool.and_eq_true, decide_eq_true_eq, Option.any_eq_true] at hc
  obtain ⟨⟨⟨s, hs, hrev⟩, hlen⟩, c, h₁, response, hret, htok⟩ := hc
  obtain ⟨token, htoken⟩ := Option.isSome_iff_exists.1 htok
  obtain ⟨call, hi, hresult⟩ := Config.returned_eq_some hret
  exact ⟨c₀, c, s, call, response, token, hs, hrev, hi, hresult, htoken,
    revoked_session_issues_no_token (sampleRun_reachable h₀) hs hrev (run_of_play h₁) hi hlen
      hresult htoken⟩

end IdentityPlatform
