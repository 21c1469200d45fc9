/-
# The login behind a session

A session is created by a login or by the exchange of a code, and a code is authorized with
the access token of a session.  So behind every session there is a chain of sessions of the
same user, and at its end a login that presented the password of that user
(`token_from_login`).

Access tokens of clients name no session and their subject is the client; they authorize no
code as long as no client is named by a UUID, which the names that the server generates are
not.
-/

import IdentityPlatform.Protocol.MfaClaims
import IdentityPlatform.Protocol.CodeExchange
import IdentityPlatform.Protocol.Verifiers

namespace IdentityPlatform

open Interleaving Program Relational Machine AuthServer

variable {P : Platform} {c c' : ServerConfig} {w : World} {sid sid₀ u : String} {token : Jws}

/-! ### Chains of sessions -/

/-- The call has logged `u` in: it presented the password of the account, which was neither
disabled nor unverified nor locked, and has created the session `sid`. -/
def LoggedIn (P : Platform) (call : ServerCall) (sid u : String) : Prop :=
  ∃ email password row data session, call.req.request = .login email password ∧
    PassedGates P call.log email password row ∧
    Log.Saw call.log (.sessions (.insert data)) (.ok session) ∧ session.id = sid ∧ row.id = u

/-- **The session `sid` goes back to a login of `u`**: it was created by one, or by the
exchange of a code that was authorized with an access token of a session that does. -/
inductive FromLogin (P : Platform) (c : ServerConfig) : String → String → Prop
  | login {i : ℕ} {call : ServerCall} {sid u : String} (hi : c.calls[i]? = some call)
      (h : LoggedIn P call sid u) : FromLogin P c sid u
  | code {sid sid₀ u : String} (h : AuthorizedBy c sid sid₀) (h₀ : FromLogin P c sid₀ u) :
      FromLogin P c sid u

theorem LoggedIn.extends {call call' : ServerCall} (h : LoggedIn P call sid u)
    (hreq : call'.req = call.req) (hlog : call.log <:+ call'.log) : LoggedIn P call' sid u := by
  obtain ⟨email, password, row, data, session, hrequest, hgates, hsaw, hid, huser⟩ := h
  exact ⟨email, password, row, data, session, hreq ▸ hrequest, hgates.mono hlog, hsaw.mono hlog,
    hid, huser⟩

theorem CodeAuthorizedWith.mono {hash : String} (h : CodeAuthorizedWith c hash sid)
    (hrun : (machine P).Run c c') : CodeAuthorizedWith c' hash sid := by
  obtain ⟨k, granter, bearer, input, state, data, hk, hrequest, hissued, hsid⟩ := h
  obtain ⟨granter', hk', hext⟩ := hrun.extends hk
  exact ⟨k, granter', bearer, input, state, data, hk', hext.req ▸ hrequest,
    hissued.mono hext.log, hsid⟩

theorem AuthorizedBy.mono (h : AuthorizedBy c sid sid₀) (hrun : (machine P).Run c c') :
    AuthorizedBy c' sid sid₀ := by
  obtain ⟨hash, ⟨j, exchange, form, basicAuth, id, codeRow, data, session, hj, hrequest, hconsumed,
    hhash, hinserted, hsession, huser⟩, hauthorized⟩ := h
  obtain ⟨exchange', hj', hext⟩ := hrun.extends hj
  exact ⟨hash, ⟨j, exchange', form, basicAuth, id, codeRow, data, session, hj',
    hext.req ▸ hrequest, hconsumed.mono hext.log, hhash, hinserted.mono hext.log, hsession, huser⟩,
    hauthorized.mono hrun⟩

theorem FromLogin.mono (h : FromLogin P c sid u) (hrun : (machine P).Run c c') :
    FromLogin P c' sid u := by
  induction h with
  | login hi h =>
      obtain ⟨call', hi', hext⟩ := hrun.extends hi
      exact .login hi' (h.extends hext.req hext.log)
  | code h _ ih => exact .code (h.mono hrun) ih

/-! ### Access tokens that authorize -/

/-- No client is named by a UUID. -/
def World.ClientIdsApart (w : World) : Prop :=
  ∀ client ∈ w.clients, isUuid client.clientId = false

instance : Decidable w.ClientIdsApart := List.decidableBAll ..

/-- A generated client identifier is not a UUID: its second letter is no hexadecimal digit. -/
theorem not_isUuid_of_isClientId {id : String} (h : isClientId id = true) : isUuid id = false := by
  unfold isClientId at h
  obtain ⟨hstart, _⟩ := Bool.and_eq_true_iff.1 h
  obtain ⟨rest, hrest⟩ := List.isPrefixOf_iff_prefix.1 hstart
  unfold isUuid
  rw [← hrest]
  rfl

theorem reachable_clientIdsApart
    (hreach : (machine P).Reachable (fun w => w.Initial ∧ w.ClientIdsApart) c) :
    c.world.ClientIdsApart := by
  obtain ⟨w, ⟨_, hapart⟩, hrun⟩ := hreach
  refine (hrun.assertion (R := fun _ _ => True) (J := World.ClientIdsApart)
    (G := fun _ _ _ => True) stable_true (.initial w) hapart (fun _ _ _ _ => trivial)
    (fun e w w' hw h => ?_) ?_).1
  · intro client hclient
    exact h client (Env.apply_clients hw ▸ hclient)
  · rintro req l e hreach hupheld hpre _ (⟨r, hexec⟩ | ⟨_, hpost⟩)
    · intro client hclient
      rcases (Stmt.exec_clients hexec).mem_cases hclient with ⟨a, ha, rfl | hold⟩ | hnew
      · exact hpre _ ha
      · obtain ⟨change, _, _, rfl⟩ := hold
        rw [(ClientStmt.change_le change a).clientId]
        exact hpre a ha
      · obtain ⟨clientId, hash, data, hop, rfl, _⟩ := hnew
        have hjust := handler_justified (P := P) req l e.op hreach
        rw [hop] at hjust
        obtain ⟨bearer, input, _, _, hsaw⟩ := hjust
        obtain ⟨pre, post, hgenerated, _⟩ := hupheld.saw hsaw
        exact not_isUuid_of_isClientId (Stmt.newClientId_answer hgenerated).form
    · exact hpost ▸ hpre

/-- A session that was inserted has a UUID, which a token names. -/
theorem inserted_sid (hv : (machine P).Valid c) {i : ℕ} {call : ServerCall}
    (hi : c.calls[i]? = some call) {data : CreateSessionData} {session : SessionRow}
    (h : Log.Saw call.log (.sessions (.insert data)) (.ok session)) :
    (some session.id).filter (· ≠ "") = some session.id := by
  obtain ⟨n, pre, post, hmem, hans⟩ := answered hv hi h
  obtain ⟨r, rfl, htaken, _⟩ := Stmt.insertSession_answer hans
  have hne : (data.row r pre).id ≠ "" := isUuid_ne_empty htaken.form
  simp [hne]

/-- An access token whose subject is a UUID is one of a session. -/
theorem access_token_session (hreach : (machine P).Reachable World.Initial c)
    (hapart : c.world.ClientIdsApart) (htoken : token ∈ c.world.signed)
    (haccess : ¬token.payload.OfIdToken P) (hsub : isUuid token.payload.sub = true) :
    ∃ sid, token.payload.sid = some sid := by
  have hv := hreach.valid
  obtain ⟨j, issuer, n, pre, post, kid, hj, he⟩ := token_signed hreach htoken
  obtain ⟨l, hl, hjust⟩ := justified_event hv hj he
  have hlog := (List.suffix_cons _ l).trans hl
  rcases hjust with ⟨input, jti, now, hreason, _, _, hpayload⟩ | hid
  swap
  · exact absurd hid haccess
  have hsid : token.payload.sid = input.sid.filter (· ≠ "") := by rw [hpayload]; rfl
  cases hreason with
  | login _ created _ _ => exact ⟨_, hsid.trans (inserted_sid hv hj (created.saw.mono hlog))⟩
  | exchange _ _ _ _ _ _ inserted _ _ =>
      exact ⟨_, hsid.trans (inserted_sid hv hj (inserted.mono hlog))⟩
  | challenge _ _ found _ _ => exact ⟨_, hsid.trans (read_sid hv hj (found.mono hlog)).2⟩
  | refresh _ rotated _ _ =>
      obtain ⟨l', _, hread⟩ := rotated
      exact ⟨_, hsid.trans (read_sid hv hj (hread.saw.mono hlog)).2⟩
  | oauthRefresh _ _ _ _ _ rotated _ _ _ =>
      obtain ⟨l', _, hread⟩ := rotated
      obtain ⟨hid, hsome⟩ := read_sid hv hj (hread.saw.mono hlog)
      exact ⟨_, hsid.trans (hid ▸ hsome)⟩
  | @clientCredentials form basicAuth clientId client _ _ identified _ =>
      -- its subject is the name of a client
      obtain ⟨m, w, w', hmem, hans⟩ := answered hv hj (identified.read.mono hlog)
      have hclient := lookup_mem (Stmt.findByClientId_answer hans).symm
      have hord := hreach.ordered (le_stable P)
      obtain ⟨client', hclient', hle⟩ :=
        ((hord.answer hj _ hmem).trans (hord.post hj _ hmem)).clients client hclient
      have hname : token.payload.sub = client.clientId := by rw [hpayload]; rfl
      rw [hname, ← hle.clientId, hapart client' hclient'] at hsub
      cases hsub

/-- A bearer token that was accepted is no ID token. -/
theorem verified_access (hv : (machine P).Valid c) {i : ℕ} {call : ServerCall}
    (hi : c.calls[i]? = some call) {payload : JwtPayload}
    (h : JwtService.Accepted call.log token payload) :
    payload = token.payload ∧ ¬token.payload.OfIdToken P := by
  obtain ⟨kid, hsaw⟩ := h.verified
  obtain ⟨m, w, w', hmem, hans⟩ := answered hv hi hsaw
  obtain ⟨rfl, _, _, hclaims⟩ := Stmt.jwtVerify_answer hans
  refine ⟨rfl, fun hid => ?_⟩
  rw [hid.verifyClaims] at hclaims
  cases hclaims

/-! ### Every session goes back to a login -/

/-- Every session has been inserted. -/
theorem session_inserted (hreach : (machine P).Reachable World.Initial c) {s : SessionRow}
    (hs : s ∈ c.world.sessions) : ∃ (j : ℕ) (issuer : ServerCall) (n : ℕ) (pre post : World)
      (data : CreateSessionData) (session : SessionRow), c.calls[j]? = some issuer ∧
      (⟨n, pre, .sessions (.insert data), .ok session, post⟩ : ServerEvent) ∈ issuer.log ∧
      session.id = s.id ∧ data.userId = s.userId := by
  obtain ⟨j, issuer, n, pre, post, op, ans, r, a, hj, he, hnew, ha, hkey⟩ :=
    introduced_row (T := World.sessions) (fun _ h => h.sessions)
      (fun _ _ _ h => (Env.apply_rows h).2.1) (fun _ _ => rfl) Stmt.exec_sessions
      (k := SessionRow.id)
      (fun h => by obtain ⟨_, _, _, rfl⟩ := h; exact (SessionStmt.change_le _ _ _).id) hreach hs
  obtain ⟨data, rfl, rfl, htaken, _⟩ := hnew
  obtain ⟨r', rfl, htaken', hnew'⟩ := Stmt.insertSession_answer (executed hreach.valid hj he)
  have hle : post.Le c.world := (hreach.ordered (le_stable P)).post hj _ he
  have hrow : (data.row r pre).Le s := hle.sessions.le_of_key
    (reachable_sound hreach).1.sessions.nodup (fun h => h.id) ha hs hkey
  have hsame : r' = r := List.cons.inj (htaken'.ledger.symm.trans htaken.ledger) |>.1
  exact ⟨j, issuer, n, pre, post, data, _, hj, he, by rw [hsame, hrow.id], hrow.userId.symm⟩

/-- Every code was authorized with an access token of a session of its user. -/
theorem code_authorized (hreach : (machine P).Reachable World.Initial c)
    (hapart : c.world.ClientIdsApart) {codeRow : AuthorizationCodeRow}
    (hcode : codeRow ∈ c.world.codes) :
    ∃ sid₀, CodeAuthorizedWith c codeRow.codeHash sid₀ ∧ c.world.SessionOf sid₀ codeRow.userId := by
  have hv := hreach.valid
  have hord := hreach.ordered (le_stable P)
  obtain ⟨insert⟩ := code_inserted hreach hcode
  have hk := insert.call
  obtain ⟨l, hl, hjust⟩ := justified_event hv hk insert.event
  obtain ⟨⟨bearer, input, state, payload, hrequest, haccepted, hactive, hdata⟩, _, _⟩ := hjust
  have hlog := (List.suffix_cons _ l).trans hl
  obtain ⟨rfl, haccess⟩ := verified_access hv hk (haccepted.mono hlog)
  -- the account of the subject was read
  obtain ⟨row, hread, _⟩ := hactive
  obtain ⟨_, w, w', _, r', hexec⟩ := answered hv hk (hread.mono hlog)
  have hsub : isUuid bearer.payload.sub = true := by
    rcases Stmt.exec_cases hexec with ⟨herror, _⟩ | ⟨huuid, _⟩
    · cases herror
    · simpa [Stmt.uuidParams] using huuid
  obtain ⟨kid, hverified⟩ := haccepted.verified
  obtain ⟨_, w₁, w₁', hmem, hans⟩ := answered hv hk (hverified.mono hlog)
  obtain ⟨_, hsigned, _⟩ := Stmt.jwtVerify_answer hans
  have hbearer : bearer ∈ c.world.signed :=
    ((hord.answer hk _ hmem).trans (hord.post hk _ hmem)).signed hsigned
  obtain ⟨sid₀, hsid₀⟩ := access_token_session hreach hapart hbearer haccess hsub
  have huser : codeRow.userId = bearer.payload.sub := by
    rw [insert.row.userId, hdata]
    rfl
  refine ⟨sid₀, ⟨insert.place, insert.issuer, bearer, input, state, insert.data, hk, hrequest, ?_,
    hsid₀⟩, ?_⟩
  · rw [show codeRow.codeHash = insert.hash from insert.row.codeHash]
    exact ⟨insert.seq, insert.pre, insert.post, insert.event⟩
  · rw [huser]
    exact (reachable_bound hreach).1.access bearer hbearer sid₀ hsid₀

/-- **Every session goes back to a login of its user.** -/
theorem session_from_login
    (hreach : (machine P).Reachable (fun w => w.Initial ∧ w.ClientIdsApart) c)
    {s : SessionRow} (hs : s ∈ c.world.sessions) : FromLogin P c s.id s.userId := by
  induction hn : c.seq using Nat.strong_induction_on generalizing c s with
  | _ n ih =>
      subst hn
      have hinit : (machine P).Reachable World.Initial c :=
        hreach.imp fun _ => And.imp_left And.left
      have hv := hinit.valid
      obtain ⟨j, issuer, m, pre, post, data, session, hj, he, hid, huser⟩ :=
        session_inserted hinit hs
      obtain ⟨l, hl, hjust⟩ := justified_event hv hj he
      have hlog := (List.suffix_cons _ l).trans hl
      generalize hrequest : issuer.req.request = request at hjust
      cases hjust with
      | login hlogin gates user =>
          refine .login hj ⟨_, _, _, data, session, hrequest.trans hlogin, gates.mono hlog,
            ⟨m, pre, post, he⟩, hid, ?_⟩
          rw [← huser, user]
      | @exchange form basicAuth id codeRow htoken consumed user =>
          -- the state in which the code was consumed
          obtain ⟨k, w₁, w₁', hmem⟩ := consumed
          have hmem' := hlog.subset hmem
          obtain ⟨old, hold, _, _, rfl, _⟩ := Stmt.consume_answer (executed hv hj hmem')
          obtain ⟨c₁, _, hreach₁, hrun, hworld, hseq, _⟩ := hreach.before hj hmem'
          obtain rfl : c₁.world = w₁ := hworld
          have hinit₁ : (machine P).Reachable World.Initial c₁ :=
            hreach₁.imp fun _ => And.imp_left And.left
          obtain ⟨sid₀, hauthorized, s₀, hs₀, hid₀, huser₀⟩ :=
            code_authorized hinit₁ (reachable_clientIdsApart hreach₁) hold
          have hlt : c₁.seq < c.seq := hseq ▸ hv.seq_lt hj _ hmem'
          have hroot := (ih c₁.seq hlt hreach₁ hs₀ rfl).mono hrun
          rw [hid₀, huser₀] at hroot
          have hcode : CreatedFromCode c s.id old.codeHash :=
            ⟨j, issuer, form, basicAuth, id, _, data, session, hj, hrequest.trans htoken,
              ⟨k, c₁.world, w₁', hmem'⟩, rfl, ⟨m, pre, post, he⟩, hid, user⟩
          have hold' : s.userId = old.userId := huser.symm.trans user
          rw [hold']
          exact .code ⟨old.codeHash, hcode, hauthorized.mono hrun⟩ hroot

/-- **Every token goes back to a login.**  For every access or refresh token of a session, and
for every request that was served on an access token of a user, there is a login that
presented the password of that very user, and from it a chain of codes, each authorized with a
token of the session before.  At the beginning no client may be named by a UUID, since an access
token of such a client would read like one of a user. -/
theorem token_from_login
    (hreach : (machine P).Reachable (fun w => w.Initial ∧ w.ClientIdsApart) c) :
    (∀ sid u, c.world.HasToken sid u → FromLogin P c sid u) ∧
      ∀ (i : ℕ) call bearer payload, c.calls[i]? = some call →
        JwtService.Accepted call.log bearer payload → isUuid payload.sub = true →
        ∃ sid, payload.sid = some sid ∧ FromLogin P c sid payload.sub := by
  have hinit : (machine P).Reachable World.Initial c := hreach.imp fun _ => And.imp_left And.left
  have hbound := (reachable_bound hinit).1
  have hsessions : ∀ sid u, c.world.SessionOf sid u → FromLogin P c sid u := by
    rintro sid u ⟨s, hs, rfl, rfl⟩
    exact session_from_login hreach hs
  refine ⟨fun sid u htoken => hsessions sid u ?_, fun i call bearer payload hi haccepted hsub => ?_⟩
  · cases htoken with
    | access signed session user => exact user ▸ hbound.access _ signed sid session
    | refresh stored session user => exact session ▸ user ▸ hbound.refresh _ stored
  · obtain ⟨rfl, haccess⟩ := verified_access hinit.valid hi haccepted
    obtain ⟨kid, hverified⟩ := haccepted.verified
    obtain ⟨_, w, w', hmem, hans⟩ := answered hinit.valid hi hverified
    obtain ⟨_, hsigned, _⟩ := Stmt.jwtVerify_answer hans
    have hord := hinit.ordered (le_stable P)
    have hbearer : bearer ∈ c.world.signed :=
      ((hord.answer hi _ hmem).trans (hord.post hi _ hmem)).signed hsigned
    obtain ⟨sid, hsid⟩ := access_token_session hinit (reachable_clientIdsApart hreach) hbearer
      haccess hsub
    exact ⟨sid, hsid, hsessions sid _ (hbound.access bearer hbearer sid hsid)⟩

/-- A user logs in and a client exchanges a code: its refresh token goes back to a login. -/
theorem token_from_login_of_exchange : ∃ (c : ServerConfig) (row : RefreshTokenRow),
    sampleRun (loginMoves 0 "al@x.io" "Al 1" ++ authorizeMoves 1 "openid" none ++ exchangeMoves 2) =
      some c ∧ row ∈ c.world.refreshTokens ∧ row.clientId.isSome = true ∧
      FromLogin .sample c row.sessionId row.userId := by
  have hplay : (sampleRun (loginMoves 0 "al@x.io" "Al 1" ++ authorizeMoves 1 "openid" none ++
      exchangeMoves 2)).any (fun c => (c.world.refreshTokens.getLast?).any fun row =>
        row.clientId.isSome) = true := by
    decide +kernel
  obtain ⟨c, hc, hrow⟩ := (Option.any_eq_true _ _).1 hplay
  obtain ⟨row, hlast, hclient⟩ := (Option.any_eq_true _ _).1 hrow
  have hreach : (machine .sample).Reachable (fun w => w.Initial ∧ w.ClientIdsApart) c :=
    ⟨_, ⟨World.initial_sample, by decide⟩, run_of_play hc⟩
  have hmem := List.mem_of_getLast? hlast
  exact ⟨c, row, hc, hmem, hclient, (token_from_login hreach).1 _ _ (.refresh hmem rfl rfl)⟩

end IdentityPlatform
