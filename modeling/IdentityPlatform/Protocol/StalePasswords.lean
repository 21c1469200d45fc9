/-
# What the old password leaves behind

A reset revokes the sessions that it finds.  A login that has checked the old password may still
open its session after that, and so may the exchange of a code that was authorized with a token
of a session that the reset has revoked.  A run without such a step leaves nothing of the old
password: every refresh token that still works goes back to a check against the new hash, or one
set later (`resets_end_old_logins`).
-/

import IdentityPlatform.Protocol.LoginRoots
import IdentityPlatform.Protocol.MailedTokens
import IdentityPlatform.Protocol.PasswordResets

namespace IdentityPlatform

open Interleaving Relational Machine AuthServer

variable {P : Platform} {c : ServerConfig} {w w' : World} {i j : ℕ} {call : ServerCall}
  {u sid : String} {change revoke : ServerEvent}

/-! ### Resets and checks -/

/-- The call has reset the password of `u` and returned: `change` has stored the new hash, and
`revoke` has revoked the sessions. -/
structure Resets (call : ServerCall) (u : String) (change revoke : ServerEvent) : Prop where
  request : ∃ token password, call.req.request = .resetPassword token password
  returned : ∃ response, call.result = some (.ok response)
  change_mem : change ∈ call.log
  changes : ∃ n pre hash post, change = ⟨n, pre, .users (.updatePasswordHash u hash), .ok (), post⟩
  revoke_mem : revoke ∈ call.log
  revokes : ∃ n pre reason post,
    revoke = ⟨n, pre, .sessions (.revokeAllForUser u reason), .ok (), post⟩

/-- A change of the password of `u` has stored the hash, not before step `n`. -/
def SetSince (c : ServerConfig) (n : ℕ) (u hash : String) : Prop :=
  ∃ (i : ℕ) (call : ServerCall) (e : ServerEvent), c.calls[i]? = some call ∧ e ∈ call.log ∧
    n ≤ e.seq ∧ e.op = .users (.updatePasswordHash u hash)

/-- The call has logged the account `row` in, and created the session `sid`. -/
def LoggedInto (P : Platform) (call : ServerCall) (row : UserRow) (sid : String) : Prop :=
  ∃ email password data session, call.req.request = .login email password ∧
    PassedGates P call.log email password row ∧
    Log.Saw call.log (.sessions (.insert data)) (.ok session) ∧ session.id = sid

/-- **The session `sid` goes back to a check of the password of `u`**, against a hash with `Q`. -/
inductive FromCheck (P : Platform) (c : ServerConfig) (Q : String → Prop) : String → String → Prop
  | login {i : ℕ} {call : ServerCall} {row : UserRow} {sid : String} (hi : c.calls[i]? = some call)
      (h : LoggedInto P call row sid) (against : Q row.passwordHash) : FromCheck P c Q sid row.id
  | code {sid sid₀ u : String} (h : AuthorizedBy c sid sid₀) (h₀ : FromCheck P c Q sid₀ u) :
      FromCheck P c Q sid u

/-- The refresh token can be exchanged: it is active, has not expired, and its session is
active. -/
def RefreshTokenRow.Live (row : RefreshTokenRow) (w : World) : Prop :=
  row.status = .active ∧ w.now < row.expiresAt ∧
    ∃ s ∈ w.sessions, s.id = row.sessionId ∧ s.status = .active

instance {row : RefreshTokenRow} : Decidable (row.Live w) :=
  inferInstanceAs (Decidable (_ ∧ _ ∧ _))

/-- **A reset ends what the old password has begun**: once it has returned, every refresh token
of the user that can be exchanged goes back to a check against a hash that is as new. -/
def ResetsEndOldLogins (P : Platform) (c : ServerConfig) : Prop :=
  ∀ (r : ℕ) call u change revoke, c.calls[r]? = some call → Resets call u change revoke →
    ∀ row ∈ c.world.refreshTokens, row.userId = u → row.Live c.world →
      FromCheck P c (SetSince c change.seq u) row.sessionId u

/-- The event has created a session for `u`. -/
def Opens (e : ServerEvent) (u : String) : Prop :=
  ∃ n pre data session post, e = ⟨n, pre, .sessions (.insert data), .ok session, post⟩ ∧
    data.userId = u

/-- A login that has read the account before the change creates a session after the sessions
have been revoked. -/
def LateLogin (c : ServerConfig) (u : String) (change revoke : ServerEvent) : Prop :=
  ∃ (i : ℕ) (call : ServerCall) (read opened : ServerEvent), c.calls[i]? = some call ∧
    read ∈ call.log ∧ opened ∈ call.log ∧ (∃ email, read.op = .users (.findByEmail email)) ∧
    Opens opened u ∧ read.seq < change.seq ∧ revoke.seq < opened.seq

/-- A code that was authorized with a token of a session that was there when the sessions were
revoked is exchanged for a session after that. -/
def LateExchange (c : ServerConfig) (u : String) (revoke : ServerEvent) : Prop :=
  ∃ (i : ℕ) (call : ServerCall) (opened : ServerEvent) (id : String)
    (codeRow : AuthorizationCodeRow) (sid₀ : String), c.calls[i]? = some call ∧
    opened ∈ call.log ∧ Opens opened u ∧ revoke.seq < opened.seq ∧
    Log.Saw call.log (.codes (.consume id)) (.ok (some codeRow)) ∧
    CodeAuthorizedWith c codeRow.codeHash sid₀ ∧ ∃ s₀ ∈ revoke.pre.sessions, s₀.id = sid₀

/-- No session is created late. -/
def NoneLate (c : ServerConfig) : Prop :=
  ∀ (r : ℕ) call u change revoke, c.calls[r]? = some call → Resets call u change revoke →
    ¬LateLogin c u change revoke ∧ ¬LateExchange c u revoke

/-! ### What a reset leaves -/

/-- A reset that has returned has stored a hash, and revoked the sessions. -/
theorem resets_of_returned (hv : (machine P).Valid c) (hi : c.calls[i]? = some call)
    {token password : String} {response : Response}
    (hrequest : call.req.request = .resetPassword token password)
    (hresult : call.result = some (.ok response)) :
    ∃ u change revoke, Resets call u change revoke := by
  have hreturns : (AuthServer.handler P call.req).Returns [] call.log (.ok response) :=
    hv.returned hi hresult
  rw [AuthServer.handler, hrequest] at hreturns
  obtain ⟨l, _, hreset, hl, _⟩ := hreturns.of_bind
  obtain ⟨_, _, _, _, hreset⟩ := hreset.of_bind
  obtain ⟨_, consumed, _, _, hreset⟩ := hreset.of_bind
  obtain ⟨_, u, _, _, hreset⟩ := hreset.of_bind
  obtain ⟨_, hash, _, _, hreset⟩ := hreset.of_bind
  obtain ⟨_, _, hupdate, hlu, hreset⟩ := hreset.of_bind
  obtain ⟨_, _, hall, hla, _⟩ := hreset.of_bind
  obtain ⟨_, _, _, _, hall⟩ := hall.of_bind
  obtain ⟨_, _, hrevoke, hlr, _⟩ := hall.of_bind
  obtain ⟨n, pre, post, hmem⟩ := hupdate.saw.mono (hlu.trans hl)
  obtain ⟨n', pre', post', hmem'⟩ := hrevoke.saw.mono ((hlr.trans hla).trans hl)
  exact ⟨u, _, _, ⟨_, _, hrequest⟩, ⟨_, hresult⟩, hmem, ⟨_, _, _, _, rfl⟩, hmem', ⟨_, _, _, _, rfl⟩⟩

/-- No session of the user that was there is active after the sessions have been revoked. -/
theorem revoked_of_earlier (hreach : (machine P).Reachable World.Initial c)
    (hi : c.calls[i]? = some call) (h : Resets call u change revoke) {s s₀ : SessionRow}
    (hs₀ : s₀ ∈ revoke.pre.sessions) (hs : s ∈ c.world.sessions) (hid : s.id = s₀.id)
    (huser : s.userId = u) : s.status ≠ .active := by
  obtain ⟨n, pre, reason, post, rfl⟩ := h.revokes
  have hans := executed hreach.valid hi h.revoke_mem
  obtain ⟨a, ha, hle⟩ := hans.le.sessions s₀ hs₀
  have hla := (hreach.ordered (le_stable P)).post hi _ h.revoke_mem
  obtain ⟨r, ledger, _, rfl, _⟩ := hans.effect
  have hrow : a.Le s := hla.sessions.le_of_key (reachable_sound hreach).1.sessions.nodup
    (fun h => h.id) ha hs (hid.trans hle.id.symm)
  have hstatus : a.status ≠ .active := fun hactive =>
    not_hasActiveSession_revoke (P := P) ⟨a, ha, hrow.userId.symm.trans huser, hactive⟩
  have hrevoked : a.status = .revoked := by
    cases hcase : a.status with
    | active => exact absurd hcase hstatus
    | revoked => rfl
  simp [hrow.revoked hrevoked]

/-! ### The hash a login has read -/

/-- The account `u` is there, with another hash. -/
def World.OtherHash (u hash : String) (w : World) : Prop :=
  w.hasUser u ∧ ∀ row ∈ w.users, row.id = u → row.passwordHash ≠ hash

/-- Nothing but a change of the password stores a hash for an account that is there. -/
theorem Stmt.exec_otherHash {s : Stmt} {r hash : String} {ans : Except Err s.Ans}
    (h : s.exec P r w = some (ans, w')) (hsound : w.Sound) (hw : w.OtherHash u hash)
    (hw' : ¬w'.OtherHash u hash) : s = .users (.updatePasswordHash u hash) := by
  have huser := exec_hasUser h hw.1
  obtain ⟨row, hrow, hid, hhash⟩ : ∃ row ∈ w'.users, row.id = u ∧ row.passwordHash = hash := by
    by_contra hnone
    exact hw' ⟨huser, fun row hrow hid hhash => hnone ⟨row, hrow, hid, hhash⟩⟩
  rcases (exec_users h).mem_cases hrow with ⟨a, ha, rfl | ⟨v, hs, htarget, rfl⟩⟩ |
    ⟨email, hash', first, last, _, rfl, htaken, _⟩
  · exact absurd hhash (hw.2 row ha hid)
  · have hself : (v.change w.now a).id = a.id := by
      cases v <;> simp only [UserStmt.change] <;> (try split) <;> rfl
    have hold := hw.2 a ha (hself.symm.trans hid)
    rw [hs]
    cases v with
    | updatePasswordHash id hash' =>
        obtain rfl : id = a.id := by simpa [UserStmt.target] using htarget
        obtain rfl : hash' = hash := hhash
        rw [← hid, hself]
    | _ =>
        refine absurd ?_ hold
        rw [← hhash]
        simp only [UserStmt.change]
        try split <;> rfl
  · obtain ⟨a, ha, haid⟩ := hw.1
    exact absurd (hsound.users.ledger a ha) (by rw [haid, ← hid]; exact htaken.fresh)

/-- The account is there when its password is changed. -/
theorem Resets.hasUser (h : Resets call u change revoke)
    (hreach : (machine P).Reachable World.Initial c) (hi : c.calls[i]? = some call) :
    change.pre.hasUser u := by
  obtain ⟨n, pre, hash, post, rfl⟩ := h.changes
  obtain ⟨_, _, g, a, _, _, _, hredeems, _, _, _, howner⟩ :=
    change_redeems hreach.valid hi h.change_mem rfl
  obtain ⟨c', _, hreach', _, hworld, _⟩ := hreach.before hi hredeems.executed
  obtain ⟨row, hrow, hid⟩ := ((reachable_resetsSound hreach').owners a
    (hworld ▸ hredeems.found)).2
  have hord := hreach.ordered (le_stable P)
  have hle : g.pre.Le pre := (hord.answer hi g hredeems.executed).trans
    (hord.events hi hi g hredeems.executed _ h.change_mem hredeems.before)
  obtain ⟨row', hrow', hrowle⟩ := hle.users row (hworld ▸ hrow)
  exact ⟨row', hrow', hrowle.id.trans (hid.trans howner)⟩

/-- **A login that reads the account after the change** reads a hash that is as new. -/
theorem read_since (hreach : (machine P).Reachable World.Initial c)
    (hi : c.calls[i]? = some call) (h : Resets call u change revoke) {login : ServerCall}
    (hj : c.calls[j]? = some login) {read : ServerEvent} (hread : read ∈ login.log)
    {row : UserRow} (hrow : row ∈ read.pre.users) (hid : row.id = u)
    (hlt : change.seq < read.seq) : SetSince c change.seq u row.passwordHash := by
  by_contra hnone
  obtain ⟨n, pre, hash, post, rfl⟩ := h.changes
  have hne : hash ≠ row.passwordHash := by
    rintro rfl
    exact hnone ⟨i, call, _, hi, h.change_mem, le_rfl, rfl⟩
  have hans := executed hreach.valid hi h.change_mem
  have hpost : post.OtherHash u row.passwordHash := by
    obtain ⟨a, ha, haid⟩ := h.hasUser hreach hi
    obtain ⟨b, hb, hle⟩ := hans.le.users a ha
    refine ⟨⟨b, hb, hle.id.trans haid⟩, fun b hb hbid hbhash => hne ?_⟩
    obtain ⟨r, ledger, _, rfl, _⟩ := hans.effect
    obtain ⟨a, _, rfl⟩ := mem_updateWhere.1 hb
    split_ifs at hbid hbhash with htarget
    · exact hbhash
    · exact absurd (congrArg some hbid) htarget
  have hlost : ¬read.pre.OtherHash u row.passwordHash := fun hother => hother.2 row hrow hid rfl
  obtain ⟨k, call', e, hk, he, hle, _, hpre', hpost'⟩ := hreach.lost_between
    (K := World.OtherHash u row.passwordHash)
    (fun e w w' henv hw => by
      obtain ⟨husers, _⟩ := Env.apply_rows henv
      simp only [World.OtherHash, World.hasUser, husers]
      exact hw) hi hj h.change_mem hread hlt hpost hlost
  rcases hreach.valid.answers hk e he with ⟨r, hexec⟩ | ⟨_, hsame⟩
  · have hsound := ((reachable_sound hreach).2 k call' hk e he).1
    have hop := Stmt.exec_otherHash hexec hsound hpre' hpost'
    exact hnone ⟨k, call', e, hk, he, (Nat.lt_of_succ_le hle).le, hop⟩
  · exact hpost' (hsame ▸ hpre')

/-! ### What is created after a reset -/

/-- The event that has created a session, in a call of the run. -/
theorem exists_opens (hreach : (machine P).Reachable World.Initial c) {s : SessionRow}
    (hs : s ∈ c.world.sessions) : ∃ (j : ℕ) (issuer : ServerCall) (n : ℕ) (pre post : World)
      (data : CreateSessionData) (session : SessionRow), c.calls[j]? = some issuer ∧
      (⟨n, pre, .sessions (.insert data), .ok session, post⟩ : ServerEvent) ∈ issuer.log ∧
      session.id = s.id ∧ data.userId = s.userId ∧ session ∈ post.sessions := by
  obtain ⟨j, issuer, n, pre, post, data, session, hj, he, hid, huser⟩ := session_inserted hreach hs
  obtain ⟨r, rfl, _, hnew⟩ := Stmt.insertSession_answer (executed hreach.valid hj he)
  exact ⟨j, issuer, n, pre, post, data, _, hj, he, hid, huser, hnew⟩

/-- A session created before the sessions were revoked was there. -/
theorem there_of_earlier (hreach : (machine P).Reachable World.Initial c)
    (hi : c.calls[i]? = some call) (h : Resets call u change revoke) {issuer : ServerCall}
    (hj : c.calls[j]? = some issuer) {n : ℕ} {pre post : World} {data : CreateSessionData}
    {session : SessionRow}
    (he : (⟨n, pre, .sessions (.insert data), .ok session, post⟩ : ServerEvent) ∈ issuer.log)
    (hnew : session ∈ post.sessions) (hle : n ≤ revoke.seq) :
    ∃ s₀ ∈ revoke.pre.sessions, s₀.id = session.id := by
  have hlt : n < revoke.seq := by
    refine lt_of_le_of_ne hle fun heq => ?_
    obtain ⟨_, _, _, _, rfl⟩ := h.revokes
    cases (hreach.valid.seq_inj hj hi _ he _ h.revoke_mem heq).2
  obtain ⟨s₀, hs₀, hrow⟩ := ((hreach.ordered (le_stable P)).events hj hi _ he _ h.revoke_mem
    hlt).sessions session hnew
  exact ⟨s₀, hs₀, hrow.id⟩

/-- **A session created after the sessions were revoked** goes back to a check against a hash that
is as new, if none is created late. -/
theorem opened_from_check
    (hreach : (machine P).Reachable (fun w => w.Initial ∧ w.ClientIdsApart) c)
    (hi : c.calls[i]? = some call) (h : Resets call u change revoke)
    (hlogin : ¬LateLogin c u change revoke) (hexchange : ¬LateExchange c u revoke) {n : ℕ}
    {issuer : ServerCall} {pre post : World} {data : CreateSessionData} {session : SessionRow}
    (hj : c.calls[j]? = some issuer)
    (he : (⟨n, pre, .sessions (.insert data), .ok session, post⟩ : ServerEvent) ∈ issuer.log)
    (huser : data.userId = u) (hafter : revoke.seq < n) :
    FromCheck P c (SetSince c change.seq u) session.id u := by
  induction n using Nat.strong_induction_on generalizing j issuer pre post data session with
  | _ n ih =>
      have hinit : (machine P).Reachable World.Initial c :=
        hreach.imp fun _ => And.imp_left And.left
      have hv := hinit.valid
      obtain ⟨l, hl, hjust⟩ := justified_event hv hj he
      have hlog := (List.suffix_cons _ l).trans hl
      have hopens : Opens ⟨n, pre, .sessions (.insert data), .ok session, post⟩ u :=
        ⟨n, pre, data, session, post, rfl, huser⟩
      generalize hrequest : issuer.req.request = request at hjust
      cases hjust with
      | @login email password row hreq gates user =>
          have hgates := gates.mono hlog
          obtain ⟨l₁, now, hclock, hsaw, _⟩ := hgates.clock
          obtain ⟨m, w₁, w₁', hread⟩ := hsaw.mono hclock.suffix
          have hfound := lookup_mem (Stmt.findByEmail_answer (executed hv hj hread)).symm
          have hid : row.id = u := user.symm.trans huser
          -- the account was read after the change
          have hlt : change.seq < m := by
            rcases Nat.lt_trichotomy change.seq m with hlt | heq | hlt
            · exact hlt
            · obtain ⟨_, _, _, _, rfl⟩ := h.changes
              cases (hv.seq_inj hi hj _ h.change_mem _ hread heq).2
            · exact absurd ⟨j, issuer, _, _, hj, hread, he, ⟨_, rfl⟩, hopens, hlt, hafter⟩ hlogin
          have hset := read_since hinit hi h hj hread hfound hid hlt
          subst hid
          exact .login hj ⟨email, password, data, session, hrequest.trans hreq, hgates,
            ⟨n, pre, post, he⟩, rfl⟩ hset
      | @exchange form basicAuth id codeRow hreq consumed user =>
          obtain ⟨k, w₁, w₁', hmem⟩ := consumed
          have hmem' := hlog.subset hmem
          obtain ⟨old, hold, _, _, rfl, _⟩ := Stmt.consume_answer (executed hv hj hmem')
          -- the state in which the code was consumed
          obtain ⟨c₁, _, hreach₁, hrun, hworld, hseq, _⟩ := hreach.before hj hmem'
          obtain rfl : c₁.world = w₁ := hworld
          have hinit₁ : (machine P).Reachable World.Initial c₁ :=
            hreach₁.imp fun _ => And.imp_left And.left
          obtain ⟨sid₀, hauthorized, s₀, hs₀, rfl, huser₀⟩ :=
            code_authorized hinit₁ (reachable_clientIdsApart hreach₁) hold
          have hauthorized' := hauthorized.mono hrun
          obtain ⟨j', issuer', n', pre', post', data', session', hj', he', hid', huser', hnew'⟩ :=
            exists_opens hinit₁ hs₀
          obtain ⟨issuer₂, hj₂, hext⟩ := hrun.extends hj'
          have he₂ := hext.log.subset he'
          have hlt : n' < n := by
            have h₁ : n' < c₁.seq := hinit₁.valid.seq_lt hj' _ he'
            have h₂ : k < n := hv.earlier hj hl hmem
            exact h₁.trans (hseq ▸ h₂)
          -- the session before was created after the revocation, too
          have hafter' : revoke.seq < n' := by
            by_contra hnot
            obtain ⟨s₁, hs₁, hsame⟩ :=
              there_of_earlier hinit hi h hj₂ he₂ hnew' (Nat.not_lt.1 hnot)
            exact hexchange ⟨j, issuer, _, id, _, s₀.id, hj, he, hopens, hafter,
              ⟨k, c₁.world, w₁', hmem'⟩, hauthorized', s₁, hs₁, hsame.trans hid'⟩
          have huser₂ : data'.userId = u := by
            rw [huser', huser₀, ← huser, user]
          have hroot := ih n' hlt hj₂ he₂ huser₂ hafter'
          rw [hid'] at hroot
          exact .code ⟨old.codeHash, ⟨j, issuer, form, basicAuth, id, _, data, session, hj,
            hrequest.trans hreq, ⟨k, c₁.world, w₁', hmem'⟩, rfl, ⟨n, pre, post, he⟩, rfl, user⟩,
            hauthorized'⟩ hroot

/-- **When a reset ends what the old password has begun.**  In a run in which no session is
created late, every refresh token of the user that can be exchanged after the reset has returned
goes back to a check of a password against the hash that the reset has stored, or a later one. -/
theorem resets_end_old_logins
    (hreach : (machine P).Reachable (fun w => w.Initial ∧ w.ClientIdsApart) c)
    (hnone : NoneLate c) : ResetsEndOldLogins P c := by
  intro i call u change revoke hi h row hrow huser ⟨_, _, s, hs, hid, hactive⟩
  have hinit : (machine P).Reachable World.Initial c := hreach.imp fun _ => And.imp_left And.left
  obtain ⟨hlogin, hexchange⟩ := hnone i call u change revoke hi h
  have hsu : s.userId = u := by
    obtain ⟨s', hs', hid', huser'⟩ := (reachable_bound hinit).1.refresh row hrow
    have hsame : s' = s := eq_of_key (reachable_sound hinit).1.sessions.nodup hs' hs
      (hid'.trans hid.symm)
    exact hsame ▸ huser'.trans huser
  obtain ⟨j, issuer, n, pre, post, data, session, hj, he, hsid, hdata, hnew⟩ :=
    exists_opens hinit hs
  have hafter : revoke.seq < n := by
    by_contra hnot
    obtain ⟨s₀, hs₀, hsame⟩ := there_of_earlier hinit hi h hj he hnew (Nat.not_lt.1 hnot)
    exact revoked_of_earlier hinit hi h hs₀ hs (hsid.symm.trans hsame.symm) hsu hactive
  have hroot := opened_from_check hreach hi h hlogin hexchange hj he (hdata.trans hsu) hafter
  rwa [hsid, hid] at hroot

/-! ### Runs of the sample platform -/

/-- The hash of the account that a login has read. -/
def readHash? : ServerEvent → Option String
  | ⟨_, _, .users (.findByEmail _), .ok (some row), _⟩ => some row.passwordHash
  | _ => none

/-- The account whose password a statement changes, and the new hash. -/
def Stmt.stored? : Stmt → Option (String × String)
  | .users (.updatePasswordHash id hash) => some (id, hash)
  | _ => none

/-- The statement reads an account by its address. -/
def Stmt.looksUp : Stmt → Bool
  | .users (.findByEmail _) => true
  | _ => false

/-- The statement creates a session. -/
def Stmt.opens : Stmt → Bool
  | .sessions (.insert _) => true
  | _ => false

/-- The statement consumes a code. -/
def Stmt.consumes : Stmt → Bool
  | .codes (.consume _) => true
  | _ => false

/-- The token and the password of a reset. -/
def Request.reset? : Request → Option (String × String)
  | .resetPassword presented password => some (presented, password)
  | _ => none

theorem Request.reset?_eq_some {request : Request} {token password : String}
    (h : request.reset? = some (token, password)) : request = .resetPassword token password := by
  unfold Request.reset? at h
  split at h
  · cases h
    rfl
  · cases h

/-- No code is consumed, and a call that creates a session has read the account after every change
of a password. -/
def OpensInTime (c : ServerConfig) : Bool :=
  c.calls.all fun call => call.log.all fun e => !e.op.consumes &&
    (!(call.log.any fun e => e.op.opens) || !e.op.looksUp ||
      c.calls.all fun call' => call'.log.all fun e' => e'.op.stored?.isNone || e'.seq ≤ e.seq)

theorem OpensInTime.noneLate (h : OpensInTime c = true) : NoneLate c := by
  have hall : ∀ (i : ℕ) call, c.calls[i]? = some call → ∀ e ∈ call.log, e.op.consumes = false ∧
      ((∃ e ∈ call.log, e.op.opens = true) → e.op.looksUp = true → ∀ (j : ℕ) call',
        c.calls[j]? = some call' → ∀ e' ∈ call'.log, e'.op.stored? ≠ none → e'.seq ≤ e.seq) := by
    intro i call hi e he
    have hcall := List.all_eq_true.1 h call (List.mem_of_getElem? hi)
    obtain ⟨hconsumes, hread⟩ := Bool.and_eq_true_iff.1 (List.all_eq_true.1 hcall e he)
    refine ⟨by simpa using hconsumes, ?_⟩
    rintro ⟨e₁, he₁, hopens⟩ hlooks j call' hj e' he' hstored
    have hany : (call.log.any fun e => e.op.opens) = true := List.any_eq_true.2 ⟨e₁, he₁, hopens⟩
    rw [hany, hlooks] at hread
    have hevents := List.all_eq_true.1 hread call' (List.mem_of_getElem? hj)
    have hevent := List.all_eq_true.1 hevents e' he'
    simpa [hstored] using hevent
  intro r call u change revoke hr hresets
  constructor
  · rintro ⟨i, login, read, opened, hi, hread, hopened, ⟨email, hop⟩, ⟨_, _, _, _, _, rfl, _⟩,
      hlt, _⟩
    have hle := (hall i login hi read hread).2 ⟨_, hopened, rfl⟩ (by rw [hop]; rfl) r call hr change
      hresets.change_mem (by obtain ⟨_, _, _, _, rfl⟩ := hresets.changes; simp [Stmt.stored?])
    exact absurd hlt (Nat.not_lt.2 hle)
  · rintro ⟨i, exchange, _, _, _, _, hi, _, _, _, ⟨_, _, _, hmem⟩, _⟩
    have hnot := (hall i exchange hi _ hmem).1
    cases hnot

/-- A user resets the password and logs in with the new one. -/
def newLoginMoves : List (Move World Incoming Env) :=
  changeMoves ++ loginMoves 2 "al@x.io" "A long and new one 2"

/-- Call `k` has returned from a reset of the password of `u`, and a token of `u` can be
exchanged. -/
def ResetAndLive (c : ServerConfig) (k : ℕ) (u : String) : Bool :=
  (c.calls[k]?).any (fun call => call.req.request.reset?.isSome &&
    call.log.all fun e => decide (∀ x ∈ e.op.stored?, x.1 = u)) &&
  decide (c.returned k = some (.status "password_reset")) &&
  c.world.refreshTokens.any fun row => decide (row.userId = u ∧ row.Live c.world)

theorem ResetAndLive.exists (hv : (machine P).Valid c) {k : ℕ} (h : ResetAndLive c k u = true) :
    ∃ call change revoke row, c.calls[k]? = some call ∧ Resets call u change revoke ∧
      row ∈ c.world.refreshTokens ∧ row.userId = u ∧ row.Live c.world := by
  obtain ⟨hall, hrows⟩ := Bool.and_eq_true_iff.1 h
  obtain ⟨hcall, hreturned⟩ := Bool.and_eq_true_iff.1 hall
  obtain ⟨row, hrow, hrest⟩ := List.any_eq_true.1 hrows
  obtain ⟨huser, hlive⟩ := of_decide_eq_true hrest
  obtain ⟨call, hi, hcall⟩ := (Option.any_eq_true _ _).1 hcall
  obtain ⟨hrequest, hstored⟩ := Bool.and_eq_true_iff.1 hcall
  obtain ⟨⟨token, password⟩, hreset⟩ := Option.isSome_iff_exists.1 hrequest
  obtain ⟨call', hi', hresult⟩ := Config.returned_eq_some (of_decide_eq_true hreturned)
  obtain rfl : call = call' := Option.some.inj (hi.symm.trans hi')
  obtain ⟨u', change, revoke, hresets⟩ :=
    resets_of_returned hv hi (Request.reset?_eq_some hreset) hresult
  obtain rfl : u' = u := by
    have honly := of_decide_eq_true (List.all_eq_true.1 hstored change hresets.change_mem)
    obtain ⟨n, pre, hash, post, rfl⟩ := hresets.changes
    exact honly (u', hash) rfl
  exact ⟨call, change, revoke, row, hi, hresets, hrow, huser, hlive⟩

/-- A login with the new password. -/
theorem resets_end_old_logins_of_login :
    ∃ (c : ServerConfig) (call : ServerCall) (change revoke : ServerEvent)
      (row : RefreshTokenRow), sampleRun newLoginMoves = some c ∧ c.calls[1]? = some call ∧
      Resets call (sampleUuid 9001) change revoke ∧ row ∈ c.world.refreshTokens ∧
      row.Live c.world ∧
      FromCheck .sample c (SetSince c change.seq (sampleUuid 9001)) row.sessionId
        (sampleUuid 9001) := by
  have hplay : (sampleRun newLoginMoves).any (fun c =>
      OpensInTime c && ResetAndLive c 1 (sampleUuid 9001)) = true := by
    decide +kernel
  obtain ⟨c, hc, hall⟩ := (Option.any_eq_true _ _).1 hplay
  obtain ⟨htime, hreset⟩ := Bool.and_eq_true_iff.1 hall
  have hreach : (machine .sample).Reachable (fun w => w.Initial ∧ w.ClientIdsApart) c :=
    ⟨_, ⟨World.initial_sample, by decide⟩, run_of_play hc⟩
  obtain ⟨call, change, revoke, row, hi, hresets, hrow, huser, hlive⟩ :=
    ResetAndLive.exists (sampleRun_reachable hc).valid hreset
  exact ⟨c, call, change, revoke, row, hc, hi, hresets, hrow, hlive,
    resets_end_old_logins hreach (OpensInTime.noneLate htime) 1 call _ change revoke hi hresets
      row hrow huser hlive⟩

/-- Call 0 checks the old password, call 2 resets it, call 0 goes on, and call 3 refreshes. -/
def lateLoginMoves : List (Move World Incoming Env) :=
  [.accept fun _ => ⟨.login "al@x.io" "Al 1", {}⟩, .steps 0 5,
    .accept fun _ => ⟨.forgotPassword "al@x.io", {}⟩, .steps 1 40,
    .accept fun w => ⟨.resetPassword (lastToken w) "A long and new one 2", {}⟩, .steps 2 40,
    .steps 0 40] ++ authRefreshMoves 3

/-- No code is consumed, and no hash that was stored is ever read. -/
def ReadsNoNewHash (c : ServerConfig) : Bool :=
  c.calls.all fun call => call.log.all fun e => !e.op.consumes &&
    (readHash? e).all fun hash => c.calls.all fun call' => call'.log.all fun e' =>
      decide (e'.op.stored?.map Prod.snd ≠ some hash)

theorem ReadsNoNewHash.none (h : ReadsNoNewHash c = true) {n : ℕ} {u' : String} :
    ¬FromCheck P c (SetSince c n u) sid u' := by
  intro hcheck
  have hall := List.all_eq_true.1 h
  cases hcheck with
  | @login i login row _ hi hlogin hset =>
      obtain ⟨email, _, _, _, _, hgates, _⟩ := hlogin
      obtain ⟨l₁, _, hclock, hsaw, _⟩ := hgates.clock
      obtain ⟨m, w, w', hread⟩ := hsaw.mono hclock.suffix
      obtain ⟨k, call, e, hk, he, _, hop⟩ := hset
      have hevents := List.all_eq_true.1 (hall login (List.mem_of_getElem? hi))
      have hreads := (Bool.and_eq_true_iff.1 (hevents _ hread)).2
      have hcalls := List.all_eq_true.1 hreads call (List.mem_of_getElem? hk)
      have hnone := List.all_eq_true.1 hcalls e he
      refine of_decide_eq_true hnone ?_
      rw [hop]
      rfl
  | code hauthorized _ =>
      obtain ⟨_, ⟨j, exchange, _, _, _, _, _, _, hj, _, ⟨_, _, _, hmem⟩, _⟩, _⟩ := hauthorized
      have hevents := List.all_eq_true.1 (hall exchange (List.mem_of_getElem? hj))
      have hconsumes := (Bool.and_eq_true_iff.1 (hevents _ hmem)).1
      cases hconsumes

/-- **A login that was in progress outlives the reset**: its refresh token can be exchanged, and
is, although the password it has checked is not the one of the account any more. -/
theorem old_login_outlives_reset : ∃ (c : ServerConfig) (result : LoginResultSuccess),
    sampleRun lateLoginMoves = some c ∧ c.returned 2 = some (.status "password_reset") ∧
      c.returned 3 = some (.session result) ∧ ¬ResetsEndOldLogins .sample c := by
  have hplay : (sampleRun lateLoginMoves).any (fun c => ReadsNoNewHash c &&
      ResetAndLive c 2 (sampleUuid 9001) &&
      (c.calls[3]?).any fun call => (refreshAnswer? call).isSome) = true := by
    decide +kernel
  obtain ⟨c, hc, hall⟩ := (Option.any_eq_true _ _).1 hplay
  obtain ⟨hall, hcall⟩ := Bool.and_eq_true_iff.1 hall
  obtain ⟨hreads, hreset⟩ := Bool.and_eq_true_iff.1 hall
  obtain ⟨refresh, hi, hanswer⟩ := (Option.any_eq_true _ _).1 hcall
  obtain ⟨⟨refreshToken, result⟩, hx⟩ := Option.isSome_iff_exists.1 hanswer
  have hreturned : c.returned 3 = some (.session result) := by
    simp [Config.returned, hi, (refreshAnswer?_eq_some hx).2, Except.toOption]
  have hstatus := (Bool.and_eq_true_iff.1 (Bool.and_eq_true_iff.1 hreset).1).2
  obtain ⟨call, change, revoke, row, hk, hresets, hrow, huser, hlive⟩ :=
    ResetAndLive.exists (sampleRun_reachable hc).valid hreset
  exact ⟨c, result, hc, of_decide_eq_true hstatus, hreturned, fun hends =>
    ReadsNoNewHash.none hreads (hends 2 call _ change revoke hk hresets row hrow huser hlive)⟩

end IdentityPlatform
