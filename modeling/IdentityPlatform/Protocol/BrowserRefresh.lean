/-
# Refreshes of the browser client

Several requests of the client may find the access token expired.  Each of them reads the
refresh token and sends it: the second rotation finds the token spent, takes it for stolen and
revokes the session of an honest client (`concurrent_refreshes_reused`).

The refresh of a token detects nothing if the server is asked only once to rotate this token,
nothing else ends it, and it has not expired by then (`refresh_not_reused`).
-/

import IdentityPlatform.Apps.Browser
import IdentityPlatform.Interleaving.Contracts
import IdentityPlatform.Protocol.Invariants
import IdentityPlatform.Protocol.TokenConsumption

namespace IdentityPlatform

open Interleaving Program Relational Machine AuthServer RefreshTokenService

variable {P : Platform} {ctx : RequestContext} {c : ServerConfig} {i : ℕ} {call : ServerCall}
  {e : ServerEvent} {token hash : String}

/-! ### What a refresh does unless its token is spent -/

/-- Only errors of the database, the key service and the JWT library come from outside, and a
token with this hash is found when it is to be rotated: then the program neither looks up the
family of a spent token nor reports a reuse. -/
def undetected (hash : String) : Contract statements Err where
  answers s
    | .ok a =>
        match s, a with
        | .refreshTokens (.rotate hash'), none => hash' ≠ hash
        | _, _ => True
    | .error e => e.isForeign = true
  issues
    | .refreshTokens (.selectByHash _) => False
    | _ => True
  fails e := e ≠ reuse
  failed := by
    rintro s e h rfl
    cases h

theorem issue_undetected {params : RefreshIssue} :
    (issue P params).Meets (undetected hash) fun _ => True :=
  .bind (.perform trivial) fun _ _ => .bind (.orDo (fun _ _ => trivial) fun _ => .perform trivial)
    fun _ _ => .bind (.perform trivial) fun _ _ => .bind (.perform trivial) fun _ _ => .pure trivial

theorem loadFresh_undetected {id : String} :
    (SessionRepository.loadFresh id).Meets (undetected hash) fun _ => True := by
  refine .bind (.perform trivial) fun row _ => ?_
  cases row with
  | none => exact .pure trivial
  | some session => exact .bind (.perform trivial) fun _ _ => .pure trivial

theorem findSession_undetected {id : String} :
    (SessionRepository.findById id).Meets (undetected hash) fun _ => True := by
  refine .bind (.perform trivial) fun cached _ => ?_
  cases cached with
  | none => exact loadFresh_undetected
  | some session =>
      refine .ite (fun _ => .pure trivial) fun _ => .bind loadFresh_undetected fun fresh _ => ?_
      cases fresh with
      | none => exact .bind (.perform trivial) fun _ _ => .pure trivial
      | some session => exact .pure trivial

theorem requireActiveSession_undetected {row : RefreshTokenRow} {err : Err} (herr : err ≠ reuse) :
    (OAuthService.requireActiveSession row err).Meets (undetected hash) fun _ => True := by
  refine .bind findSession_undetected fun found _ => ?_
  split
  · exact .pure trivial
  · exact .bind (.perform trivial) fun _ _ => .throw herr

theorem signAccessToken_undetected {input : AccessTokenInput} :
    (JwtService.signAccessToken P input).Meets (undetected hash) fun _ => True :=
  .bind (.perform trivial) fun _ _ => .bind (.perform trivial) fun _ _ =>
    .bind (.perform trivial) fun _ _ => .bind (.perform trivial) fun _ _ => .pure trivial

theorem record_undetected {event : AuditEvent} :
    (AuditLogService.record event).Meets (undetected hash) fun _ => True :=
  .tryCatch (.perform trivial) fun _ _ => .pure trivial

theorem expiresIn_undetected {signed : SignedToken} :
    (expiresIn signed).Meets (undetected hash) fun _ => True :=
  .bind (.perform trivial) fun _ _ => .pure trivial

theorem consume_undetected :
    (consume P token).Meets (undetected (P.sha256Hex token)) fun _ => True := by
  refine .bind (.perform trivial) fun rotated hrotated => ?_
  cases rotated with
  | none => exact absurd rfl hrotated
  | some row => exact .bind issue_undetected fun _ _ => .pure trivial

theorem refreshSession_undetected : (AuthService.refreshSession P token ctx).Meets
    (undetected (P.sha256Hex token)) fun _ => True :=
  .bind consume_undetected fun _ _ =>
    .bind (requireActiveSession_undetected (by simp [Err.authError, reuse, Err.appError])) <|
    fun _ _ => .bind (.perform trivial) fun _ _ => .bind (.perform trivial) fun _ _ =>
    .bind signAccessToken_undetected fun _ _ => .bind (.perform trivial) fun _ _ =>
    .bind record_undetected fun _ _ => .bind expiresIn_undetected fun _ _ => .pure trivial

/-- **A refresh detects a reuse only if its rotation finds nothing.** -/
theorem refresh_undetected : (AuthService.refresh P token ctx).Meets
    (undetected (P.sha256Hex token)) fun _ => True :=
  .tryCatch refreshSession_undetected fun _ herr =>
    .bind (.onlyIf fun _ => record_undetected) fun _ _ => .throw herr

/-! ### How a token is spent -/

/-- The event ends the token with this hash: it finds its row active, and changes it without
having been given the token to rotate. -/
def endsToken (hash : String) (e : ServerEvent) : Bool :=
  match e.op with
  | .refreshTokens u => decide (u ≠ .rotate hash) &&
      e.pre.refreshTokens.any fun row => decide (row.tokenHash = hash) && u.where e.pre row
  | _ => false

/-- **A spent token has been rotated or ended** by an earlier event. -/
theorem spent_before (hreach : (machine P).Reachable World.Initial c)
    (hi : c.calls[i]? = some call) (he : e ∈ call.log) {row : RefreshTokenRow}
    (hrow : row ∈ e.pre.refreshTokens) (hspent : row.status ≠ .active) :
    ∃ (j : ℕ) (earlier : ServerCall) (e' : ServerEvent), c.calls[j]? = some earlier ∧
      e' ∈ earlier.log ∧ e'.seq < e.seq ∧
      (e'.op = .refreshTokens (.rotate row.tokenHash) ∨ endsToken row.tokenHash e' = true) := by
  obtain ⟨c₁, call₁, ⟨w, hw, hrun⟩, hrun₁, hworld, hseq, _⟩ := hreach.before hi he
  obtain ⟨j, earlier, e', hj, he', _, hbefore, hafter⟩ := hrun.introduced
    (H := fun w => ∃ b ∈ w.refreshTokens, b.tokenHash = row.tokenHash ∧ b.status ≠ .active)
    (by simp [Config.initial, hw.refreshTokens]) (hworld ▸ ⟨row, hrow, rfl, hspent⟩)
    (fun e w w' hw h => by
      obtain ⟨b, hb, hspent⟩ := h
      exact ⟨b, (Env.apply_rows hw).2.2.1 ▸ hb, hspent⟩)
  have hvalid : (machine P).Valid c₁ := Reachable.valid ⟨w, hw, hrun⟩
  obtain ⟨earlier', hj', hext⟩ := hrun₁.extends hj
  refine ⟨j, earlier', e', hj', hext.log.subset he', hseq ▸ hvalid.seq_lt hj e' he', ?_⟩
  have hanswers := hvalid.answers hj e' he'
  obtain ⟨n, pre, s, ans, post⟩ := e'
  obtain ⟨b, hb, hhash, hstatus⟩ := hafter
  rcases hanswers with ⟨r, hexec⟩ | ⟨_, hsame⟩
  swap
  · obtain rfl : post = pre := hsame
    exact absurd ⟨b, hb, hhash, hstatus⟩ hbefore
  rcases (Stmt.exec_refreshTokens hexec).mem_cases hb with
    ⟨a, ha, rfl | ⟨u, hs, hwhere, rfl⟩⟩ | ⟨data, _, rfl, _⟩
  · exact absurd ⟨b, ha, hhash, hstatus⟩ hbefore
  · have hahash : a.tokenHash = row.tokenHash :=
      ((RefreshStmt.change_le hwhere).tokenHash).symm.trans hhash
    by_cases hrotate : u = .rotate row.tokenHash
    · exact .inl (hrotate ▸ hs)
    · refine .inr ?_
      obtain rfl : s = .refreshTokens u := hs
      simpa [endsToken, hrotate] using ⟨a, ha, hahash, hwhere⟩
  · exact absurd rfl hstatus

/-- A token is undisturbed: the server has been asked once at most to rotate it, nothing else has
ended it, and when it was to be rotated, it was stored and had not expired. -/
structure Undisturbed (P : Platform) (c : ServerConfig) (token : String) : Prop where
  once : ∀ call ∈ c.calls, ∀ e ∈ call.log, ∀ call' ∈ c.calls, ∀ e' ∈ call'.log,
    e.op = .refreshTokens (.rotate (P.sha256Hex token)) →
      e'.op = .refreshTokens (.rotate (P.sha256Hex token)) → e.seq = e'.seq
  kept : ∀ call ∈ c.calls, ∀ e ∈ call.log, endsToken (P.sha256Hex token) e = false
  unexpired : ∀ call ∈ c.calls, ∀ e ∈ call.log,
    e.op = .refreshTokens (.rotate (P.sha256Hex token)) →
      ∃ row ∈ e.pre.refreshTokens, row.tokenHash = P.sha256Hex token ∧ e.pre.now < row.expiresAt

/-- A rotation that has found nothing has found no usable row. -/
theorem not_usable {pre post : World} {hash : String}
    (h : Stmt.Answered P (.refreshTokens (.rotate hash)) none pre post)
    {row : RefreshTokenRow} (hrow : row ∈ pre.refreshTokens) (hhash : row.tokenHash = hash)
    (hunexpired : pre.now < row.expiresAt) : row.status ≠ .active := by
  intro hactive
  obtain ⟨r, ledger, hnone, _⟩ := h.effect
  refine not_of_returning_head (Except.ok.inj hnone) row hrow ?_
  simp [RefreshStmt.where, hhash, hactive, hunexpired]

/-- **The rotation of an undisturbed token finds it.** -/
theorem rotation_finds (hreach : (machine P).Reachable World.Initial c)
    (h : Undisturbed P c token) (hi : c.calls[i]? = some call) {n : ℕ} {pre post : World} :
    (⟨n, pre, .refreshTokens (.rotate (P.sha256Hex token)), .ok none, post⟩ : ServerEvent) ∉
      call.log := by
  intro he
  have hcall := List.mem_of_getElem? hi
  obtain ⟨row, hrow, hhash, hunexpired⟩ := h.unexpired call hcall _ he rfl
  have hspent := not_usable (executed hreach.valid hi he) hrow hhash hunexpired
  obtain ⟨j, earlier, e', hj, he', hlt, hrotated | hended⟩ := spent_before hreach hi he hrow hspent
  · have hseq := h.once call hcall _ he earlier (List.mem_of_getElem? hj) e' he' rfl
      (hhash ▸ hrotated)
    exact absurd hseq hlt.ne'
  · rw [hhash, h.kept earlier (List.mem_of_getElem? hj) e' he'] at hended
    cases hended

/-- **The refresh of an undisturbed token detects nothing.** -/
theorem refresh_detects_nothing (hreach : (machine P).Reachable World.Initial c)
    (hi : c.calls[i]? = some call) (hrequest : call.req.request = .refresh token)
    (h : Undisturbed P c token) :
    (∀ e ∈ call.log, ∀ hash, e.op ≠ .refreshTokens (.selectByHash hash)) ∧
      call.result ≠ some (.error reuse) := by
  have hv := hreach.valid
  have hmeets : (AuthServer.handler P call.req).Meets (undetected (P.sha256Hex token))
      fun _ => True := by
    unfold AuthServer.handler
    rw [hrequest]
    exact .bind refresh_undetected fun _ _ => .pure trivial
  have hanswered : (undetected (P.sha256Hex token)).Answered call.log := by
    rintro ⟨n, pre, s, ans, post⟩ he
    cases ans with
    | ok a =>
        unfold undetected
        dsimp only
        split
        · rintro rfl
          exact rotation_finds hreach h hi he
        · trivial
    | error err =>
        rcases hv.answers hi _ he with ⟨r, hexec⟩ | ⟨hfault, _⟩
        · exact (Stmt.exec_failed hexec).2
        · obtain rfl := Except.error.inj hfault
          rfl
  refine ⟨fun e he hash hlookup => ?_, fun hresult => ?_⟩
  · obtain ⟨l, hreaches, hsuffix⟩ := hv.reached hi e he
    have hissues := hmeets.respects l e.op hreaches
      (hanswered.suffix ((List.suffix_cons e l).trans hsuffix))
    rw [hlookup] at hissues
    exact hissues
  · exact hmeets.returns (hv.returned hi hresult) hanswered rfl

/-! ### The client next to the server -/

/-- The client and the server, with the calls of the client. -/
abbrev BrowserConfig :=
  Config ⟨BrowserStmt, BrowserStmt.Ans⟩ BrowserErr Browser.State Browser.Task Unit

/-- A client without tokens, and a server that has accepted nothing. -/
structure Browser.State.Initial (s : Browser.State) : Prop where
  store : s.store = {}
  server : ∃ w, World.Initial w ∧ s.server = Config.initial w

/-- A statement of the client is no step of the server, or the arrival of a request. -/
theorem Browser.exec_server {s : BrowserStmt} {status : ℕ} {w w' : Browser.State}
    {ans : Except BrowserErr s.Ans} (h : Browser.exec P ctx s status w = some (ans, w')) :
    (AuthServer.machine P).Run w.server w'.server := by
  cases s with
  | send request =>
      obtain ⟨_, rfl⟩ := Prod.mk.inj (Option.some.inj h)
      exact run_of_apply (a := .accept ⟨request, ctx⟩) rfl
  | receive id =>
      obtain ⟨res, _, heq⟩ := Option.map_eq_some_iff.1 h
      obtain ⟨_, rfl⟩ := Prod.mk.inj heq
      exact .refl _
  | getAccessToken | getRefreshToken | setTokens | clearTokens | gateway =>
      obtain ⟨_, rfl⟩ := Prod.mk.inj (Option.some.inj h)
      exact .refl _

/-- What the client and its environment do is a run of the server. -/
theorem Browser.server_stable :
    (Browser.machine P ctx).Stable fun w w' => (AuthServer.machine P).Run w.server w'.server where
  refl w := .refl _
  trans h h' := h.trans h'
  exec h := Browser.exec_server h
  env h := by
    obtain ⟨server, happly, rfl⟩ := Option.map_eq_some_iff.1 h
    exact run_of_apply happly

variable {b : BrowserConfig} {k : ℕ}
  {caller : Call ⟨BrowserStmt, BrowserStmt.Ans⟩ BrowserErr Browser.State Browser.Task Unit}

theorem Browser.server_reachable
    (hreach : (Browser.machine P ctx).Reachable Browser.State.Initial b) :
    (AuthServer.machine P).Reachable World.Initial b.world.server := by
  obtain ⟨s, hs, hrun⟩ := hreach
  obtain ⟨w, hw, hserver⟩ := hs.server
  exact ⟨w, hw, hserver ▸ Browser.server_stable.runs hrun⟩

/-- A request that the client has sent is the call with the number it has received. -/
theorem Browser.sent (hreach : (Browser.machine P ctx).Reachable Browser.State.Initial b)
    (hk : b.calls[k]? = some caller) {request : Request} {id : ℕ}
    (hsent : caller.log.Saw (.send request) (.ok id)) :
    ∃ call, b.world.server.calls[id]? = some call ∧ call.req = ⟨request, ctx⟩ := by
  obtain ⟨n, pre, post, he⟩ := hsent
  obtain ⟨status, hexec⟩ := (hreach.valid.answers hk _ he).exec
  obtain ⟨hid, hpost⟩ := Prod.mk.inj (Option.some.inj hexec)
  dsimp only at hid hpost
  subst hpost
  obtain rfl := Except.ok.inj hid
  have hlater := (hreach.ordered Browser.server_stable).post hk _ he
  have hnew : ((AuthServer.machine P).accept pre.server ⟨request, ctx⟩).calls[
      pre.server.calls.length]? = some ⟨⟨request, ctx⟩, pre.server.seq, pre.server.world, [],
        AuthServer.handler P ⟨request, ctx⟩⟩ := by
    simp [accept, AuthServer.machine]
  obtain ⟨call, hcall, hext⟩ := hlater.extends hnew
  exact ⟨call, hcall, hext.req⟩

/-- **The refresh of an undisturbed token is not taken for a theft**, in every run of the client,
of its server and of the other clients of the server. -/
theorem refresh_not_reused (hreach : (Browser.machine P ctx).Reachable Browser.State.Initial b)
    (hk : b.calls[k]? = some caller) {id : ℕ}
    (hsent : caller.log.Saw (.send (.refresh token)) (.ok id))
    (h : Undisturbed P b.world.server token) :
    ∃ call, b.world.server.calls[id]? = some call ∧ call.req.request = .refresh token ∧
      (∀ e ∈ call.log, ∀ hash, e.op ≠ .refreshTokens (.selectByHash hash)) ∧
      call.result ≠ some (.error reuse) := by
  obtain ⟨call, hcall, hreq⟩ := Browser.sent hreach hk hsent
  have hrequest : call.req.request = .refresh token := by rw [hreq]
  exact ⟨call, hcall, hrequest,
    refresh_detects_nothing (Browser.server_reachable hreach) hcall hrequest h⟩

/-! ### Two requests find the access token expired -/

section Sample

/-- The client next to the sample server. -/
abbrev sampleBrowser := Browser.machine .sample {}

/-- Execute up to `n` statements of call `i` of the server, next to the client. -/
def serverSteps (i : ℕ) : ℕ → BrowserConfig → Option BrowserConfig
  | 0, b => some b
  | n + 1, b =>
      match b.world.server.calls[i]?.map Call.prog with
      | some (.call op _) =>
          (sampleBrowser.apply b (.env (.step i (Stmt.sampleRandom op b.world.server.seq)))).bind
            (serverSteps i n)
      | _ => some b

/-- A part of a run: moves of the client, the gateway refusing every token, or steps of the
server. -/
inductive BrowserMove
  | client (move : Move Browser.State Browser.Task (Action Incoming String AuthServer.Env))
  | server (i n : ℕ)

def playBrowser : List BrowserMove → BrowserConfig → Option BrowserConfig
  | [], b => some b
  | .client move :: moves, b =>
      (sampleBrowser.move (fun _ _ => 401) b move).bind (playBrowser moves)
  | .server i n :: moves, b => (serverSteps i n b).bind (playBrowser moves)

variable {b b' : BrowserConfig}

theorem run_of_serverSteps {i n : ℕ} (h : serverSteps i n b = some b') :
    sampleBrowser.Run b b' := by
  induction n generalizing b with
  | zero => exact Option.some.inj h ▸ .refl _
  | succ n ih =>
      simp only [serverSteps] at h
      split at h
      · obtain ⟨b₁, hstep, hrest⟩ := Option.bind_eq_some_iff.1 h
        exact (run_of_apply hstep).trans (ih hrest)
      · exact Option.some.inj h ▸ .refl _

theorem run_of_playBrowser {moves : List BrowserMove} (h : playBrowser moves b = some b') :
    sampleBrowser.Run b b' := by
  induction moves generalizing b with
  | nil => exact Option.some.inj h ▸ .refl _
  | cons move moves ih =>
      cases move with
      | client move =>
          obtain ⟨b₁, hmove, hrest⟩ := Option.bind_eq_some_iff.1 h
          have hplay : sampleBrowser.play (fun _ _ => 401) [move] b = some b₁ := by
            simp [play, hmove]
          exact (run_of_play hplay).trans (ih hrest)
      | server i n =>
          obtain ⟨b₁, hsteps, hrest⟩ := Option.bind_eq_some_iff.1 h
          exact (run_of_serverSteps hsteps).trans (ih hrest)

/-- The run from the sample platform that a list of moves describes. -/
def browserRun (moves : List BrowserMove) : Option BrowserConfig :=
  playBrowser moves (Config.initial { server := Config.initial World.sample })

theorem browserRun_reachable {moves : List BrowserMove} (h : browserRun moves = some b) :
    sampleBrowser.Reachable Browser.State.Initial b :=
  ⟨_, ⟨rfl, _, World.initial_sample, rfl⟩, run_of_playBrowser h⟩

/-- The client signs in, and asks for the profile when its access token has expired: it has sent
the refresh. -/
def expiredMoves : List BrowserMove :=
  [.client (.accept fun _ => .login "al@x.io" "Al 1"), .client (.steps 0 1), .server 0 40,
   .client (.steps 0 40), .client (.env (.env (.tick 1000000))),
   .client (.accept fun _ => .api .fetchMe), .client (.steps 1 2), .server 1 40,
   .client (.steps 1 3)]

/-- Before the answer, the client asks for its identity at the gateway, too, with the same
tokens. -/
def concurrentMoves : List BrowserMove :=
  expiredMoves ++
    [.client (.accept fun _ => .api .fetchGatewayIdentity), .client (.steps 2 4), .server 2 40,
     .server 3 40]

/-- Decides `Undisturbed`. -/
def undisturbed? (P : Platform) (c : ServerConfig) (token : String) : Bool :=
  let events := c.calls.flatMap Call.log
  let rotations := events.filter fun e =>
    decide (e.op = .refreshTokens (.rotate (P.sha256Hex token)))
  (rotations.all fun e => rotations.all fun e' => decide (e.seq = e'.seq)) &&
    (events.all fun e => !endsToken (P.sha256Hex token) e) &&
    rotations.all fun e => e.pre.refreshTokens.any fun row =>
      decide (row.tokenHash = P.sha256Hex token ∧ e.pre.now < row.expiresAt)

theorem undisturbed_of_undisturbed? (h : undisturbed? P c token = true) :
    Undisturbed P c token := by
  simp only [undisturbed?, Bool.and_eq_true, List.all_eq_true, List.any_eq_true, List.mem_filter,
    List.mem_flatMap, decide_eq_true_eq, Bool.not_eq_true'] at h
  obtain ⟨⟨honce, hkept⟩, hunexpired⟩ := h
  exact
    { once := fun call hcall e he call' hcall' e' he' hop hop' =>
        honce e ⟨⟨call, hcall, he⟩, hop⟩ e' ⟨⟨call', hcall', he'⟩, hop'⟩
      kept := fun call hcall e he => hkept e ⟨call, hcall, he⟩
      unexpired := fun call hcall e he hop => hunexpired e ⟨⟨call, hcall, he⟩, hop⟩ }

/-- The token of a refresh that has been sent, and the number of the call. -/
def sentRefresh? : Event ⟨BrowserStmt, BrowserStmt.Ans⟩ BrowserErr Browser.State →
    Option (String × ℕ)
  | ⟨_, _, .send (.refresh token), .ok id, _⟩ => some (token, id)
  | _ => none

def refreshOf? (caller : Call ⟨BrowserStmt, BrowserStmt.Ans⟩ BrowserErr Browser.State Browser.Task
    Unit) : Option (String × ℕ) :=
  caller.log.findSome? sentRefresh?

theorem saw_of_refreshOf? {id : ℕ} (h : refreshOf? caller = some (token, id)) :
    caller.log.Saw (.send (.refresh token)) (.ok id) := by
  obtain ⟨e, he, hsent⟩ := List.exists_of_findSome?_eq_some h
  unfold sentRefresh? at hsent
  split at hsent
  · rename_i n pre token' id' post
    cases hsent
    exact ⟨n, pre, post, he⟩
  · cases hsent

theorem refresh_not_reused_of_expired :
    ∃ (b : BrowserConfig) (token : String) (id : ℕ) (call : ServerCall),
      b.world.server.calls[id]? = some call ∧ call.req.request = .refresh token ∧
      (∀ e ∈ call.log, ∀ hash, e.op ≠ .refreshTokens (.selectByHash hash)) ∧
      call.result ≠ some (.error reuse) := by
  have hplay : (browserRun (expiredMoves ++ [.server 2 40])).any (fun b => (b.calls[1]?).any
      fun caller => (refreshOf? caller).any fun sent =>
        undisturbed? .sample b.world.server sent.1) = true := by
    decide +kernel
  obtain ⟨b, hb, hall⟩ := (Option.any_eq_true _ _).1 hplay
  obtain ⟨caller, hk, hall⟩ := (Option.any_eq_true _ _).1 hall
  obtain ⟨⟨token, id⟩, hsent, hundisturbed⟩ := (Option.any_eq_true _ _).1 hall
  exact ⟨b, token, id, refresh_not_reused (browserRun_reachable hb) hk (saw_of_refreshOf? hsent)
    (undisturbed_of_undisturbed? hundisturbed)⟩

/-- **Two refreshes of one client.**  Both requests of the account view find the access token
expired and send the same refresh token: the second one is answered as a theft, and the session
of the client is revoked. -/
theorem concurrent_refreshes_reused :
    ∃ (b : BrowserConfig) (first second : Call ⟨BrowserStmt, BrowserStmt.Ans⟩ BrowserErr
        Browser.State Browser.Task Unit) (token : String) (i j : ℕ) (call : ServerCall),
      browserRun concurrentMoves = some b ∧ sampleBrowser.Reachable Browser.State.Initial b ∧
      b.calls[1]? = some first ∧ first.req = .api .fetchMe ∧
      first.log.Saw (.send (.refresh token)) (.ok i) ∧
      b.calls[2]? = some second ∧ second.req = .api .fetchGatewayIdentity ∧
      second.log.Saw (.send (.refresh token)) (.ok j) ∧
      b.world.server.calls[j]? = some call ∧ call.req.request = .refresh token ∧
      call.result = some (.error reuse) ∧
      b.world.server.world.sessions.map SessionRow.status = [.revoked] := by
  have hplay : (browserRun concurrentMoves).any (fun b => (b.calls[1]?).any fun first =>
      (b.calls[2]?).any fun second => (refreshOf? first).any fun sent =>
        (refreshOf? second).any fun sent' => (b.world.server.calls[sent'.2]?).any fun call =>
          decide (first.req = .api .fetchMe ∧ second.req = .api .fetchGatewayIdentity ∧
            sent'.1 = sent.1 ∧ call.req.request = .refresh sent.1 ∧
            call.result = some (.error reuse) ∧
            b.world.server.world.sessions.map SessionRow.status = [.revoked])) = true := by
    decide +kernel
  obtain ⟨b, hb, hall⟩ := (Option.any_eq_true _ _).1 hplay
  obtain ⟨first, hfirst, hall⟩ := (Option.any_eq_true _ _).1 hall
  obtain ⟨second, hsecond, hall⟩ := (Option.any_eq_true _ _).1 hall
  obtain ⟨⟨token, i⟩, hsent, hall⟩ := (Option.any_eq_true _ _).1 hall
  obtain ⟨⟨token', j⟩, hsent', hall⟩ := (Option.any_eq_true _ _).1 hall
  obtain ⟨call, hcall, hall⟩ := (Option.any_eq_true _ _).1 hall
  obtain ⟨hme, hgateway, htoken, hrequest, hresult, hrevoked⟩ := of_decide_eq_true hall
  obtain rfl : token' = token := htoken
  exact ⟨b, first, second, token', i, j, call, hb, browserRun_reachable hb, hfirst, hme,
    saw_of_refreshOf? hsent, hsecond, hgateway, saw_of_refreshOf? hsent', hcall, hrequest, hresult,
    hrevoked⟩

end Sample

end IdentityPlatform
