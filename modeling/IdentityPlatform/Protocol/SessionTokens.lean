/-
# The tokens of a session

Tokens are issued by two statements, the `INSERT` of a refresh token and the signing
of an access token.  `Authority` says why one may be issued for a session: the call has
created the session, has passed a login challenge of it, or has rotated a refresh token
of it.  With it, every token is for the user of its session (`reachable_bound`).
-/

import IdentityPlatform.Protocol.Invariants

namespace IdentityPlatform

open Interleaving Program Relational Machine AuthServer

variable {P : Platform} {c : ServerConfig} {i : ℕ} {call : ServerCall} {sid u : String}

/-- The statement issues a token of the session `sid` to `u`. -/
def Stmt.IssuesFor (sid u : String) : Stmt → Prop
  | .refreshTokens (.insert data) => data.sessionId = sid ∧ data.userId = u
  | .kms (.sign _ payload) => payload.sid = some sid ∧ payload.sub = u
  | _ => False

/-- There is a token of the session `sid` for `u`. -/
inductive World.HasToken (w : World) (sid u : String) : Prop
  | access {token : Jws} (signed : token ∈ w.signed) (session : token.payload.sid = some sid)
      (user : token.payload.sub = u)
  | refresh {row : RefreshTokenRow} (stored : row ∈ w.refreshTokens)
      (session : row.sessionId = sid) (user : row.userId = u)

/-- `sid` is a session of `u`. -/
def World.SessionOf (w : World) (sid u : String) : Prop :=
  ∃ s ∈ w.sessions, s.id = sid ∧ s.userId = u

theorem World.SessionOf.mono {w w' : World} (h : w.SessionOf sid u) (hle : w.Le w') :
    w'.SessionOf sid u := by
  obtain ⟨s, hs, hid, huser⟩ := h
  obtain ⟨s', hs', hrow⟩ := hle.sessions s hs
  exact ⟨s', hs', hrow.id.trans hid, hrow.userId.trans huser⟩

theorem World.SessionOf.unique {w : World} {u' : String} (h : w.SessionOf sid u)
    (h' : w.SessionOf sid u') (hw : w.Sound) : u = u' := by
  obtain ⟨s, hs, hid, rfl⟩ := h
  obtain ⟨s', hs', hid', rfl⟩ := h'
  rw [eq_of_key hw.sessions.nodup hs hs' (hid.trans hid'.symm)]

/-! ### Authority -/

/-- Why a call may issue a first token of the session `sid` to `u` after the log `l`. -/
inductive Root (P : Platform) (request : Request) (l : ServerLog) (sid u : String) : Prop
  | login {email password data session} (hrequest : request = .login email password)
      (created : CreatedAtLogin l false data session) (id : session.id = sid)
      (user : data.userId = u)
  | exchange {form basicAuth clientId client code redirectUri} {row : JoinedRow} {codeRow data}
      {session : SessionRow} (hrequest : request = .token form basicAuth)
      (identified : Identified l form basicAuth clientId client)
      (presented : form.code = some code)
      (peeked : AuthorizationCodeRepository.Peeked P l ⟨code, clientId, redirectUri⟩ row)
      (consumed : l.Saw (.codes (.consume row.code.id)) (.ok (some codeRow)))
      (inserted : l.Saw (.sessions (.insert data)) (.ok session)) (id : session.id = sid)
      (user : data.userId = u)
  | challenge {bearer mfaChallengeId code challenge session}
      (hrequest : request = .mfaVerify bearer (.challenge mfaChallengeId code))
      (passed : PassedChallenge l mfaChallengeId code challenge)
      (found : l.Saw (.sessions (.selectById challenge.sessionId)) (.ok (some session)))
      (active : session.status = .active) (id : challenge.sessionId = sid)
      (user : session.userId = u)

/-- Why a call may issue a token of the session `sid` to `u` after the log `l`. -/
inductive Authority (P : Platform) (request : Request) (l : ServerLog) (sid u : String) : Prop
  | root (h : Root P request l sid u)
  | rotation {hash row} (rotated : l.Saw (.refreshTokens (.rotate hash)) (.ok (some row)))
      (id : row.sessionId = sid) (user : row.userId = u)

/-- A session that was read by its identifier has it. -/
theorem read_session (hv : (machine P).Valid c) (hi : c.calls[i]? = some call) {id : String}
    {session : SessionRow}
    (h : Log.Saw call.log (.sessions (.selectById id)) (.ok (some session))) : session.id = id := by
  obtain ⟨_, _, _, _, hans⟩ := answered hv hi h
  exact lookup_key (Stmt.selectById_answer hans).symm

/-- **Whoever issues a token of a session has the authority to.** -/
theorem issue_authority (hv : (machine P).Valid c) (hi : c.calls[i]? = some call) {l : ServerLog}
    (hl : l <:+ call.log) {s : Stmt} (hjust : Justified P call.req.request l s)
    (h : s.IssuesFor sid u) : Authority P call.req.request l sid u := by
  unfold Stmt.IssuesFor at h
  split at h
  · obtain ⟨rfl, rfl⟩ := h
    generalize hrequest : call.req.request = request at hjust
    cases hjust.1 with
    | rotation rotated => exact .rotation rotated rfl rfl
    | login hlogin created user => exact .root (.login hlogin created rfl user)
    | challenge hverify passed found active =>
        have hid := (read_session hv hi (found.mono hl)).symm
        exact .root (.challenge hverify passed found active hid rfl)
    | exchange htoken identified presented peeked consumed inserted user =>
        exact .root (.exchange htoken identified presented peeked consumed inserted rfl user)
  · obtain ⟨hsid, rfl⟩ := h
    generalize hrequest : call.req.request = request at hjust
    rcases hjust with ⟨input, jti, now, hreason, _, _, rfl⟩ | ⟨_, _, _, _, _, rfl⟩
    · have hinput : input.sid = some sid := (Option.filter_eq_some_iff.1 hsid).1
      cases hreason with
      | login hlogin created user _ =>
          exact .root (.login hlogin created (Option.some.inj hinput) user)
      | challenge hverify passed found active _ =>
          have hid := (read_session hv hi (found.mono hl)).symm
          exact .root (.challenge hverify passed found active
            (hid.trans (Option.some.inj hinput)) rfl)
      | @refresh _ row _ _ _ _ _ rotated active _ =>
          obtain ⟨l', hrotated, hfound⟩ := rotated
          have hid := (read_session hv hi (hfound.saw.mono hl)).symm
          exact .rotation (hrotated.mono hfound.suffix) (hid.trans (Option.some.inj hinput)) rfl
      | exchange htoken _ identified presented peeked consumed inserted user _ =>
          exact .root (.exchange htoken identified presented peeked consumed inserted
            (Option.some.inj hinput) user)
      | oauthRefresh _ _ _ _ _ rotated _ _ _ =>
          obtain ⟨l', hrotated, hfound⟩ := rotated
          exact .rotation (hrotated.mono hfound.suffix) (Option.some.inj hinput) rfl
      | clientCredentials => cases hinput
    · cases hsid
  · exact h.elim

/-! ### Every token is for the user of its session -/

/-- Refresh tokens, access tokens and login challenges name a session and its user. -/
structure World.Bound (w : World) : Prop where
  refresh : ∀ r ∈ w.refreshTokens, w.SessionOf r.sessionId r.userId
  access : ∀ t ∈ w.signed, ∀ sid, t.payload.sid = some sid → w.SessionOf sid t.payload.sub
  challenge : ∀ p ∈ w.redis, ∀ id payload, p.1 = .mfaChallenge id → p.2.value = .challenge payload →
    w.SessionOf payload.sessionId payload.userId

/-- A session the call has inserted is one of its user. -/
theorem inserted_sessionOf (hreach : (machine P).Reachable World.Initial c)
    (hi : c.calls[i]? = some call) {data : CreateSessionData} {session : SessionRow}
    (h : Log.Saw call.log (.sessions (.insert data)) (.ok session)) :
    c.world.SessionOf session.id data.userId := by
  obtain ⟨n, pre, post, hmem, hans⟩ := answered hreach.valid hi h
  obtain ⟨r, rfl, _, hpost⟩ := Stmt.insertSession_answer hans
  have hnew : post.SessionOf (data.row r pre).id data.userId := ⟨_, hpost, rfl, rfl⟩
  exact hnew.mono ((hreach.ordered (le_stable P)).post hi _ hmem)

theorem Root.sessionOf (hreach : (machine P).Reachable World.Initial c)
    (hi : c.calls[i]? = some call) {request : Request} {l : ServerLog} (hl : l <:+ call.log)
    (h : Root P request l sid u) : c.world.SessionOf sid u := by
  have hord := hreach.ordered (le_stable P)
  cases h with
  | login _ created id user => exact id ▸ user ▸ inserted_sessionOf hreach hi (created.saw.mono hl)
  | exchange _ _ _ _ _ inserted id user =>
      exact id ▸ user ▸ inserted_sessionOf hreach hi (inserted.mono hl)
  | challenge _ _ found _ id user =>
      obtain ⟨n, pre, post, hmem, hans⟩ := answered hreach.valid hi (found.mono hl)
      have hread := (Stmt.selectById_answer hans).symm
      have hpre : pre.SessionOf sid u := ⟨_, lookup_mem hread, (lookup_key hread).trans id, user⟩
      exact hpre.mono ((hord.answer hi _ hmem).trans (hord.post hi _ hmem))

/-- So the session of a token with authority is a session of its user. -/
theorem Authority.sessionOf (hreach : (machine P).Reachable World.Initial c)
    (hi : c.calls[i]? = some call) {request : Request} {l : ServerLog} (hl : l <:+ call.log)
    (h : Authority P request l sid u) (hbound : c.world.Bound) : c.world.SessionOf sid u := by
  cases h with
  | root h => exact h.sessionOf hreach hi hl
  | rotation rotated id user =>
      obtain ⟨n, pre, post, hmem, hans⟩ := answered hreach.valid hi (rotated.mono hl)
      obtain ⟨_, _, _, _, _, _, hpost⟩ := Stmt.rotate_answer hans
      have hle : post.Le c.world := (hreach.ordered (le_stable P)).post hi _ hmem
      obtain ⟨row, hrow, hle⟩ := hle.refreshTokens _ hpost
      have hsession := hbound.refresh row hrow
      rwa [hle.sessionId, hle.userId, id, user] at hsession

/-- A stored challenge is for a session of its user. -/
theorem ChallengeReason.sessionOf (hreach : (machine P).Reachable World.Initial c)
    (hi : c.calls[i]? = some call) {request : Request} {id : String}
    {payload : MfaChallengePayload}
    (h : ChallengeReason request call.log id (.challenge payload))
    (hbound : ∀ e ∈ call.log, e.pre.Bound) :
    c.world.SessionOf payload.sessionId payload.userId := by
  cases h with
  | login _ created _ => exact inserted_sessionOf hreach hi created.saw
  | wrongCode _ read =>
      have hord := hreach.ordered (le_stable P)
      obtain ⟨n, pre, post, hmem, hans⟩ := answered hreach.valid hi read
      obtain ⟨p, hp, hkey, hvalue⟩ := Stmt.getChallenge_answer hans
      have hsession := (hbound _ hmem).challenge p hp _ _ hkey hvalue
      exact hsession.mono ((hord.answer hi _ hmem).trans (hord.post hi _ hmem))

/-- The environment touches none of the three. -/
theorem World.Bound.env {e : Env} {w w' : World} (h : w.Bound) (hw : Env.apply w e = some w') :
    w'.Bound := by
  have hredis := Env.apply_redis hw
  rw [Env.apply_eq hw]
  refine ⟨h.refresh, h.access, fun p hp id payload hkey hvalue => ?_⟩
  rcases hredis p hp with hp | ⟨sid, hsess⟩
  · exact h.challenge p hp id payload hkey hvalue
  · rw [hsess] at hkey
    cases hkey

/-- **Every token is for the user of its session**, and so is every login challenge. -/
theorem reachable_bound (hreach : (machine P).Reachable World.Initial c) : c.world.Bound ∧
    ∀ (i : ℕ) call, c.calls[i]? = some call → ∀ e ∈ call.log, e.pre.Bound ∧ e.post.Bound := by
  refine reachable_invariant hreach (fun w hw => ?_)
    (fun _ _ h => ⟨h.refresh, h.access, h.challenge⟩) (fun e w w' hw h => h.env hw) ?_
  · constructor <;> simp [hw.refreshTokens, hw.signed, hw.redis]
  · intro c i call s a post hreach hi hjust hans hlog h
    have hle := hans.le
    obtain ⟨r, hexec⟩ := hans
    constructor
    · intro b hb
      rcases (Stmt.exec_refreshTokens hexec).mem_cases hb with ⟨b', hb', rfl | hold⟩ | hnew
      · exact (h.refresh _ hb').mono hle
      · obtain ⟨u, _, hwhere, rfl⟩ := hold
        have hrow : b'.Le (u.change c.world.now b') := RefreshStmt.change_le hwhere
        rw [hrow.sessionId, hrow.userId]
        exact (h.refresh _ hb').mono hle
      · obtain ⟨data, rfl, rfl, _⟩ := hnew
        have hauthority := issue_authority hreach.valid hi (List.suffix_refl _) hjust ⟨rfl, rfl⟩
        exact (hauthority.sessionOf hreach hi (List.suffix_refl _) h).mono hle
    · intro t ht sid hsid
      rcases Stmt.exec_signed hexec with hsame | ⟨kid, payload, rfl, hsigned⟩
      · exact (h.access t (hsame ▸ ht) sid hsid).mono hle
      · rcases List.mem_cons.1 (hsigned ▸ ht) with rfl | ht
        · have hauthority := issue_authority hreach.valid hi (List.suffix_refl _) hjust ⟨hsid, rfl⟩
          exact (hauthority.sessionOf hreach hi (List.suffix_refl _) h).mono hle
        · exact (h.access t ht sid hsid).mono hle
    · intro p hp id payload hkey hvalue
      rcases Stmt.exec_redis hexec p hp with ⟨q, hq, hqkey, hqvalue⟩ | ⟨ttl, rfl⟩ | ⟨values, hset⟩
      · exact (h.challenge q hq id payload (hqkey.trans hkey) (hqvalue.trans hvalue)).mono hle
      · rw [hkey, hvalue] at hjust
        exact (ChallengeReason.sessionOf hreach hi hjust fun e he => (hlog e he).1).mono hle
      · rw [hset] at hvalue
        cases hvalue

/-! ### Where tokens come from -/

/-- Every signed token has been signed by a call. -/
theorem token_signed (hreach : (machine P).Reachable World.Initial c) {token : Jws}
    (h : token ∈ c.world.signed) : ∃ (j : ℕ) (issuer : ServerCall) (n : ℕ) (pre post : World)
      (kid : String), c.calls[j]? = some issuer ∧
      (⟨n, pre, .kms (.sign kid token.payload), .ok token, post⟩ : ServerEvent) ∈ issuer.log := by
  obtain ⟨w, hw, hrun⟩ := id hreach
  obtain ⟨j, issuer, ⟨n, pre, s, ans, post⟩, hj, he, _, hpre, hpost⟩ := hrun.introduced
    (H := fun w => token ∈ w.signed) (by simp [Config.initial, hw.signed]) h
    (fun e w w' hw h => (Env.apply_signed hw) ▸ h)
  rcases hreach.valid.answers hj _ he with ⟨r, hexec⟩ | ⟨_, hsame⟩
  · rcases Stmt.exec_signed hexec with hsame | ⟨kid, payload, rfl, hsigned⟩
    · exact absurd (hsame ▸ hpost) hpre
    · obtain rfl : token = ⟨"EdDSA", some kid, payload⟩ :=
        (List.mem_cons.1 (hsigned ▸ hpost)).resolve_right hpre
      cases ans with
      | ok a =>
          obtain ⟨rfl, _⟩ := Stmt.sign_answer ⟨r, hexec⟩
          exact ⟨j, issuer, n, pre, post, kid, hj, he⟩
      | error e =>
          obtain ⟨⟨ledger, hfailed⟩, _⟩ := Stmt.exec_failed (s := .kms (.sign kid payload)) hexec
          obtain rfl : post = { pre with generated := ledger } := hfailed
          exact absurd hpost hpre
  · exact absurd ((show post = pre from hsame) ▸ hpost) hpre

/-- Every token has been issued by a statement. -/
theorem World.HasToken.issued (hreach : (machine P).Reachable World.Initial c)
    (h : c.world.HasToken sid u) : ∃ (j : ℕ) (issuer : ServerCall) (n : ℕ) (pre post : World)
      (s : Stmt) (a : s.Ans), c.calls[j]? = some issuer ∧
      (⟨n, pre, s, .ok a, post⟩ : ServerEvent) ∈ issuer.log ∧ s.IssuesFor sid u := by
  cases h with
  | refresh stored session user =>
      obtain ⟨j, issuer, n, pre, post, data, r, hj, he, _, hle⟩ :=
        refreshToken_inserted hreach stored
      exact ⟨j, issuer, n, pre, post, _, _, hj, he, hle.sessionId.symm.trans session,
        hle.userId.symm.trans user⟩
  | @access token signed session user =>
      obtain ⟨j, issuer, n, pre, post, kid, hj, he⟩ := token_signed hreach signed
      exact ⟨j, issuer, n, pre, post, .kms (.sign kid token.payload), token, hj, he, session, user⟩

/-- The authority of an event that issues a token, with the log before it. -/
theorem issued_authority (hreach : (machine P).Reachable World.Initial c)
    (hi : c.calls[i]? = some call) {n : ℕ} {pre post : World} {s : Stmt} {a : s.Ans}
    (he : (⟨n, pre, s, .ok a, post⟩ : ServerEvent) ∈ call.log) (h : s.IssuesFor sid u) :
    ∃ l, (⟨n, pre, s, .ok a, post⟩ : ServerEvent) :: l <:+ call.log ∧
      Authority P call.req.request l sid u := by
  obtain ⟨l, hl, hjust⟩ := justified_event hreach.valid hi he
  exact ⟨l, hl, issue_authority hreach.valid hi ((List.suffix_cons _ l).trans hl) hjust h⟩

/-- **The root of a token.**  Over rotations, each of an earlier token, every token of a
session goes back to a call that has created the session or passed a challenge of it. -/
theorem issued_root (hreach : (machine P).Reachable World.Initial c) {n : ℕ}
    (hi : c.calls[i]? = some call) {pre post : World} {s : Stmt} {a : s.Ans}
    (he : (⟨n, pre, s, .ok a, post⟩ : ServerEvent) ∈ call.log) (h : s.IssuesFor sid u) :
    ∃ (j : ℕ) (issuer : ServerCall) (e : ServerEvent) (l : ServerLog), c.calls[j]? = some issuer ∧
      e :: l <:+ issuer.log ∧ e.seq ≤ n ∧ Root P issuer.req.request l sid u := by
  induction n using Nat.strong_induction_on generalizing i call pre post s with
  | _ n ih =>
      obtain ⟨l, hl, hauthority⟩ := issued_authority hreach hi he h
      cases hauthority with
      | root h => exact ⟨i, call, _, l, hi, hl, le_rfl, h⟩
      | @rotation hash row rotated id user =>
          -- the rotated token has been issued before
          obtain ⟨m, pre₁, post₁, hmem⟩ := rotated
          have hlt : m < n := hreach.valid.earlier hi hl hmem
          have hmem' := ((List.suffix_cons _ l).trans hl).subset hmem
          obtain ⟨old, hold, _, _, _, hrow, _⟩ :=
            Stmt.rotate_answer (executed hreach.valid hi hmem')
          obtain ⟨c₁, _, hreach₁, hrun, hworld, hseq, _⟩ := hreach.before hi hmem'
          obtain rfl : c₁.world = pre₁ := hworld
          obtain rfl : c₁.seq = m := hseq
          have hstored : c₁.world.HasToken sid u := by
            refine .refresh hold ?_ ?_
            · rw [← id, hrow]
            · rw [← user, hrow]
          obtain ⟨j, issuer, k, pre₂, post₂, s', a', hj, he', h'⟩ := hstored.issued hreach₁
          have hk : k < c₁.seq := hreach₁.valid.seq_lt hj _ he'
          obtain ⟨issuer', hj', hext⟩ := hrun.extends hj
          obtain ⟨j', issuer'', e, l', hj'', hl', hle, hroot⟩ :=
            ih k (hk.trans hlt) hj' (hext.log.subset he') h'
          exact ⟨j', issuer'', e, l', hj'', hl', hle.trans (hk.trans hlt).le, hroot⟩

end IdentityPlatform
