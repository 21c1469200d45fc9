/-
# Claims of a second factor

An access token claims `mfa` after a login challenge, and after a `/auth/refresh` of a
session whose flag `mfa_passed` is set.  The flag is set by the verification of a challenge,
but also by every exchange of a code, whatever the login behind the code was, and
`/auth/refresh` takes the refresh tokens of clients as well.  So the claim rests on a second
factor in every run in which `/auth/refresh` meets the session of a client only where the
login session behind its code has the flag.
-/

import IdentityPlatform.Protocol.MfaSessions

namespace IdentityPlatform

open Interleaving Program Relational Machine AuthServer

variable {P : Platform} {c c' : ServerConfig} {i j : ℕ} {call : ServerCall} {sid u : String}
  {token : Jws}

/-! ### What a claim rests on -/

/-- The session `sid` was created by an exchange of the code with the hash `hash`. -/
def CreatedFromCode (c : ServerConfig) (sid hash : String) : Prop :=
  ∃ (j : ℕ) (exchange : ServerCall) (form : TokenForm) (basicAuth : Option BasicAuth) (id : String)
    (codeRow : AuthorizationCodeRow) (data : CreateSessionData) (session : SessionRow),
    c.calls[j]? = some exchange ∧ exchange.req.request = .token form basicAuth ∧
    exchange.log.Saw (.codes (.consume id)) (.ok (some codeRow)) ∧ codeRow.codeHash = hash ∧
    exchange.log.Saw (.sessions (.insert data)) (.ok session) ∧ session.id = sid ∧
    data.userId = codeRow.userId

/-- The code with the hash `hash` was authorized with an access token of the session `sid`. -/
def CodeAuthorizedWith (c : ServerConfig) (hash sid : String) : Prop :=
  ∃ (j : ℕ) (granter : ServerCall) (bearer : Jws) (input : AuthorizeInput) (state : Option String)
    (data : IssueCodeData), c.calls[j]? = some granter ∧
    granter.req.request = .authorize (some (.jws bearer)) input state ∧
    granter.log.Saw (.codes (.insert hash data)) (.ok ()) ∧ bearer.payload.sid = some sid

/-- The code behind the session `sid` was authorized with an access token of `sid₀`. -/
def AuthorizedBy (c : ServerConfig) (sid sid₀ : String) : Prop :=
  ∃ hash, CreatedFromCode c sid hash ∧ CodeAuthorizedWith c hash sid₀

/-- A challenge has been passed for the session of the token, or for the session behind the
code of its session. -/
def RestsOnFactor (c : ServerConfig) (token : Jws) : Prop :=
  ∃ sid, token.payload.sid = some sid ∧ (Validated c sid token.payload.sub ∨
    ∃ sid₀, AuthorizedBy c sid sid₀ ∧ Validated c sid₀ token.payload.sub)

/-- The row that a rotation has returned. -/
def rotated? : ServerEvent → Option RefreshTokenRow
  | ⟨_, _, .refreshTokens (.rotate _), .ok row, _⟩ => row
  | _ => none

/-- In the state `w`, the session `sid` is one of a login, or the login session behind its
code has the flag. -/
def MetBehindFactor (c : ServerConfig) (w : World) (sid : String) : Prop :=
  ∀ s, w.session sid = some s → s.clientId = none ∨
    ∃ sid₀ s₀, AuthorizedBy c sid sid₀ ∧ w.session sid₀ = some s₀ ∧ s₀.clientId = none ∧
      s₀.mfaPassed = true

/-- Wherever `/auth/refresh` rotates a refresh token, its session is met so. -/
def RefreshesBehindFactor (c : ServerConfig) : Prop :=
  ∀ call ∈ c.calls, ∀ refreshToken, call.req.request = .refresh refreshToken →
    ∀ e ∈ call.log, ∀ row, rotated? e = some row → MetBehindFactor c e.pre row.sessionId

/-! ### The flag -/

theorem Validated.mono (h : Validated c sid u) (hrun : (machine P).Run c c') :
    Validated c' sid u := by
  obtain ⟨j, verifier, bearer, mfaChallengeId, code, challenge, hj, hrequest, hpassed,
      hid, huser⟩ := h
  obtain ⟨verifier', hj', hext⟩ := hrun.extends hj
  exact ⟨j, verifier', bearer, mfaChallengeId, code, challenge, hj', hext.req ▸ hrequest,
    hpassed.mono hext.log, hid, huser⟩

/-- **The flag of a login session** is set by the verification of a challenge only. -/
theorem flag_validated (hreach : (machine P).Reachable World.Initial c) {s : SessionRow}
    (hs : s ∈ c.world.sessions) (hflag : s.mfaPassed = true) (hlogin : s.clientId = none) :
    Validated c s.id s.userId := by
  have hsession : c.world.SessionOf s.id s.userId := ⟨s, hs, rfl, rfl⟩
  obtain ⟨w, hw, hrun⟩ := id hreach
  obtain ⟨j, marker, ⟨n, pre, op, ans, post⟩, hj, he, _, hpre, b, hb, hid, hset, hnone⟩ :=
    hrun.introduced
      (H := fun w => ∃ b ∈ w.sessions, b.id = s.id ∧ b.mfaPassed = true ∧ b.clientId = none)
      (by simp [Config.initial, hw.sessions]) ⟨s, hs, rfl, hflag, hlogin⟩
      (fun e w w' hw h => (Env.apply_rows hw).2.1 ▸ h)
  rcases hreach.valid.answers hj _ he with ⟨r, hexec⟩ | ⟨_, hsame⟩
  swap
  · exact absurd ⟨b, (show post = pre from hsame) ▸ hb, hid, hset, hnone⟩ hpre
  rcases (Stmt.exec_sessions hexec).mem_cases hb with ⟨b', hb', rfl | ⟨u, rfl, hwhere, rfl⟩⟩ | hnew
  · exact absurd ⟨b, hb', hid, hset, hnone⟩ hpre
  · cases u with
    | markMfaPassed id =>
        obtain ⟨l, hl, hjust⟩ := justified_event hreach.valid hj he
        obtain ⟨bearer, mfaChallengeId, code, challenge, hrequest, hpassed, hsid⟩ :=
          hjust.challenged
        have hmarked : b'.id = id := by simpa [SessionStmt.where] using hwhere
        have hchallenge : challenge.sessionId = s.id := (hsid.trans hmarked.symm).trans hid
        rw [← hchallenge]
        exact (hpassed.mono ((List.suffix_cons _ l).trans hl)).validates hreach hj hrequest
          (hchallenge ▸ hsession)
    | touch | revoke | revokeAllForUser => exact absurd ⟨b', hb', hid, hset, hnone⟩ hpre
    | insert | selectById | selectActive => cases hwhere
  · obtain ⟨data, rfl, rfl, _⟩ := hnew
    obtain ⟨l, _, _, hdetailed⟩ := detailed_event hreach.valid hj he
    have hclient : data.clientId.isSome = true := hdetailed hset
    rw [show data.clientId = none from hnone] at hclient
    cases hclient

/-- A session that was read with the flag and without a client has been validated. -/
theorem read_validated (hreach : (machine P).Reachable World.Initial c)
    (hi : c.calls[i]? = some call) {e : ServerEvent} (he : e ∈ call.log) {s : SessionRow}
    (hs : s ∈ e.pre.sessions) (hflag : s.mfaPassed = true) (hlogin : s.clientId = none) :
    Validated c s.id s.userId ∧ c.world.SessionOf s.id s.userId := by
  obtain ⟨c₁, _, hreach₁, hrun, hworld, _⟩ := hreach.before hi he
  rw [← hworld] at hs
  have hsession : c₁.world.SessionOf s.id s.userId := ⟨s, hs, rfl, rfl⟩
  exact ⟨(flag_validated hreach₁ hs hflag hlogin).mono hrun,
    hsession.mono ((le_stable P).runs hrun)⟩

/-! ### The claim -/

/-- The code of a session is one of its user. -/
theorem AuthorizedBy.user (hreach : (machine P).Reachable World.Initial c) {sid₀ u₀ : String}
    (h : AuthorizedBy c sid sid₀) (hsession : c.world.SessionOf sid u)
    (hsession₀ : c.world.SessionOf sid₀ u₀) : u = u₀ := by
  obtain ⟨hash, ⟨j, exchange, form, basicAuth, id, codeRow, data, session, hj, _, hconsumed, rfl,
    hinserted, rfl, huser⟩, k, granter, bearer, input, state, codeData, hk, hrequest,
    hissued, hsid⟩ := h
  have hord := hreach.ordered (le_stable P)
  obtain ⟨hsound, hlogs⟩ := reachable_sound hreach
  -- the session is the one of the user of the code
  have hu : u = codeRow.userId :=
    (hsession.unique (inserted_sessionOf hreach hj hinserted) hsound).trans huser
  -- the code was issued to the subject of the token
  obtain ⟨n, pre, post, hmem⟩ := hissued
  obtain ⟨l, hl, hjust⟩ := justified_event hreach.valid hk hmem
  obtain ⟨⟨bearer', input', state', payload, hrequest', haccepted, _, hdata⟩, _⟩ := hjust
  obtain rfl : bearer' = bearer := by
    rw [hrequest] at hrequest'
    cases hrequest'
    rfl
  obtain ⟨kid, hverified⟩ := haccepted.verified
  have hl' := (List.suffix_cons _ l).trans hl
  obtain ⟨m, w, w', hmem', hans⟩ := answered hreach.valid hk (hverified.mono hl')
  obtain ⟨rfl, hsigned, _⟩ := Stmt.jwtVerify_answer hans
  have hbearer : bearer' ∈ c.world.signed :=
    (hord.post hk _ hmem').signed ((hord.answer hk _ hmem').signed hsigned)
  have hu₀ : u₀ = bearer'.payload.sub :=
    hsession₀.unique ((reachable_bound hreach).1.access bearer' hbearer sid₀ hsid) hsound
  -- both rows of the code are the same
  obtain ⟨r, client, _, hrow⟩ := Stmt.insertCode_answer (executed hreach.valid hk hmem)
  obtain ⟨m', v, v', hmem'', hans'⟩ := answered hreach.valid hj hconsumed
  obtain ⟨_, _, _, _, _, hrow'⟩ := Stmt.consume_answer hans'
  obtain ⟨a, ha, hle⟩ := (hord.post hk _ hmem).codes _ hrow
  obtain ⟨a', ha', hle'⟩ := (hord.post hj _ hmem'').codes _ hrow'
  obtain rfl := eq_of_key hsound.codeHashes ha ha' (hle.codeHash.trans hle'.codeHash.symm)
  have hcode : codeRow.userId = codeData.userId := hle'.userId.symm.trans hle.userId
  rw [hu, hcode, hu₀, hdata]

/-- A session that was read has an identifier, which a token names. -/
theorem read_sid (hv : (machine P).Valid c) (hi : c.calls[i]? = some call) {id : String}
    {session : SessionRow}
    (h : Log.Saw call.log (.sessions (.selectById id)) (.ok (some session))) :
    session.id = id ∧ (some session.id).filter (· ≠ "") = some session.id := by
  obtain ⟨n, pre, post, hmem, r, hexec⟩ := answered hv hi h
  have hid := read_session hv hi h
  rcases Stmt.exec_cases hexec with ⟨herror, _⟩ | ⟨huuid, _⟩
  · cases herror
  · refine ⟨hid, ?_⟩
    have hne : session.id ≠ "" := by
      rw [hid]
      rintro rfl
      cases huuid
    simp [hne]

/-- **The claim after a refresh**: the session was met behind a second factor. -/
theorem refreshed_rests (hreach : (machine P).Reachable World.Initial c)
    (hi : c.calls[i]? = some call) {hash : String} {row : RefreshTokenRow} {id : String}
    {session : SessionRow}
    (hrotated : call.log.Saw (.refreshTokens (.rotate hash)) (.ok (some row)))
    (hmet : ∀ e ∈ call.log, rotated? e = some row → MetBehindFactor c e.pre row.sessionId)
    (hread : call.log.Saw (.sessions (.selectById id)) (.ok (some session)))
    (hflag : session.mfaPassed = true) (hid : session.id = row.sessionId)
    (hsession : c.world.SessionOf session.id u) :
    Validated c session.id u ∨ ∃ sid₀, AuthorizedBy c session.id sid₀ ∧ Validated c sid₀ u := by
  have hsound := (reachable_sound hreach).1
  have hord := hreach.ordered (le_stable P)
  -- the session in the state of the rotation
  obtain ⟨m, w₁, w₁', he₁, hans₁⟩ := answered hreach.valid hi hrotated
  obtain ⟨old, hold, _, _, _, rfl, _⟩ := Stmt.rotate_answer hans₁
  obtain ⟨s₁, hs₁, hid₁, _⟩ := ((reachable_bound hreach).2 i call hi _ he₁).1.refresh old hold
  have hfound : w₁.session old.sessionId = some s₁ :=
    hid₁ ▸ lookup_of_mem ((reachable_sound hreach).2 i call hi _ he₁).1.sessions.nodup hs₁
  rcases hmet _ he₁ rfl s₁ hfound with hlogin | ⟨sid₀, s₀, hauthorized, hs₀, hlogin, hset⟩
  · -- the session that was read has no client either
    left
    obtain ⟨m', w₂, w₂', he₂, hans₂⟩ := answered hreach.valid hi hread
    have hread₂ := lookup_mem (Stmt.selectById_answer hans₂).symm
    obtain ⟨a₁, ha₁, hle₁⟩ := ((hord.answer hi _ he₁).trans (hord.post hi _ he₁)).sessions s₁ hs₁
    obtain ⟨a₂, ha₂, hle₂⟩ :=
      ((hord.answer hi _ he₂).trans (hord.post hi _ he₂)).sessions session hread₂
    have hsame : a₁ = a₂ := by
      refine eq_of_key hsound.sessions.nodup ha₁ ha₂ ?_
      rw [hle₁.id, hle₂.id, hid₁, hid]
    have hnone : session.clientId = none := by
      rw [← hle₂.clientId, ← hsame, hle₁.clientId, hlogin]
    obtain ⟨hvalidated, hsession'⟩ := read_validated hreach hi he₂ hread₂ hflag hnone
    exact hsession'.unique hsession hsound ▸ hvalidated
  · right
    obtain ⟨hvalidated, hsession₀⟩ := read_validated hreach hi he₁ (lookup_mem hs₀) hset hlogin
    rw [lookup_key hs₀] at hvalidated hsession₀
    have hauthorized' : AuthorizedBy c session.id sid₀ := hid ▸ hauthorized
    exact ⟨sid₀, hauthorized', hauthorized'.user hreach hsession hsession₀ ▸ hvalidated⟩

/-- **Claims of a second factor.**  In every run in which `/auth/refresh` meets the session
of a client only where the login session behind its code has the flag, every access token
that claims `mfa` rests on a second factor of its user. -/
theorem mfa_claims_rest_on_factor (hreach : (machine P).Reachable World.Initial c)
    (hrefresh : RefreshesBehindFactor c) (htoken : token ∈ c.world.signed)
    (hclaims : token.payload.ClaimsMfa) : RestsOnFactor c token := by
  have hv := hreach.valid
  have hsound := (reachable_sound hreach).1
  have hbound := (reachable_bound hreach).1
  obtain ⟨j, issuer, n, pre, post, kid, hj, he⟩ := token_signed hreach htoken
  obtain ⟨l, hl, hjust, _, hfactor⟩ := detailed_event hv hj he
  have hlog := (List.suffix_cons _ l).trans hl
  obtain ⟨sid, hseen, hsid⟩ := hfactor hclaims
  generalize hrequest : issuer.req.request = request at hjust hseen
  rcases hjust with ⟨input, jti, now, hreason, _, _, hpayload⟩ | ⟨_, _, _, _, _, hpayload⟩
  swap
  · rw [hpayload] at hclaims
    cases hclaims
  cases hreason with
  | login | exchange | oauthRefresh | clientCredentials =>
      rw [hpayload] at hclaims
      simp [JwtPayload.ClaimsMfa, JwtService.accessTokenPayload] at hclaims
  | @challenge bearer mfaChallengeId code challenge session _ _ hverify passed found _ _ =>
      obtain ⟨hid, hsome⟩ := read_sid hv hj (found.mono hlog)
      have hsub : token.payload.sub = session.userId := by rw [hpayload]; rfl
      have hsession : token.payload.sid = some challenge.sessionId := by
        rw [hpayload, ← hid]
        exact hsome
      refine ⟨challenge.sessionId, hsession, .inl ?_⟩
      exact (passed.mono hlog).validates hreach hj (hrequest.trans hverify)
        (hbound.access token htoken _ hsession)
  | @refresh refreshToken row session _ _ _ hrefreshing rotated _ _ =>
      obtain ⟨l₁, hrotated, hread⟩ := rotated
      obtain ⟨hid, hsome⟩ := read_sid hv hj (hread.saw.mono hlog)
      have hsession : token.payload.sid = some session.id := by
        rw [hpayload]
        exact hsome
      rcases hseen with ⟨_, _, hverify⟩ | ⟨id, session', hread', hflag, rfl⟩
      · rw [hverify] at hrefreshing
        cases hrefreshing
      · obtain ⟨_, hsome'⟩ := read_sid hv hj (hread'.mono hlog)
        have hsame : session.id = session'.id :=
          Option.some.inj (hsession.symm.trans (hsid.trans hsome'))
        refine ⟨session'.id, hsame ▸ hsession, ?_⟩
        refine refreshed_rests hreach hj ((hrotated.mono hread.suffix).mono hlog)
          (fun e he hrow => ?_)
          (hread'.mono hlog) hflag (hsame.symm.trans hid)
          (hbound.access token htoken _ (hsame ▸ hsession))
        exact hrefresh issuer (List.mem_of_getElem? hj) refreshToken
          (hrequest.trans hrefreshing) e he row hrow

/-! ### Runs -/

/-- The sessions that `/auth/refresh` meets have no client. -/
def RefreshesLogins (c : ServerConfig) : Bool :=
  c.calls.all fun call => match call.req.request with
    | .refresh _ => call.log.all fun e => (rotated? e).all fun row =>
        (e.pre.session row.sessionId).all fun s => decide (s.clientId = none)
    | _ => true

theorem RefreshesLogins.behindFactor (h : RefreshesLogins c = true) : RefreshesBehindFactor c := by
  intro call hcall refreshToken hrequest e he row hrow s hs
  have hall := List.all_eq_true.1 h call hcall
  rw [hrequest] at hall
  have hrows := List.all_eq_true.1 hall e he
  rw [hrow] at hrows
  have hsessions := Option.all_eq_true _ _ |>.1 hrows row rfl
  exact .inl (of_decide_eq_true (Option.all_eq_true _ _ |>.1 hsessions s hs))

/-- A user enrolls, logs in again, answers the challenge and refreshes the tokens. -/
theorem mfa_claims_rest_on_factor_of_challenge : ∃ (c : ServerConfig) (token : Jws),
    sampleRun (secondFactorMoves ++ authRefreshMoves 5) = some c ∧ token ∈ c.world.signed ∧
      token.payload.ClaimsMfa ∧ RestsOnFactor c token := by
  have hplay : (sampleRun (secondFactorMoves ++ authRefreshMoves 5)).any (fun c =>
      RefreshesLogins c && (c.world.signed.head?).any fun token =>
        decide token.payload.ClaimsMfa) = true := by
    decide +kernel
  obtain ⟨c, hc, hrest⟩ := (Option.any_eq_true _ _).1 hplay
  obtain ⟨hrefresh, htoken⟩ := Bool.and_eq_true_iff.1 hrest
  obtain ⟨token, hmem, hclaims⟩ := (Option.any_eq_true _ _).1 htoken
  have hsigned := List.mem_of_head? hmem
  exact ⟨c, token, hc, hsigned, of_decide_eq_true hclaims,
    mfa_claims_rest_on_factor (sampleRun_reachable hc) (RefreshesLogins.behindFactor hrefresh)
      hsigned (of_decide_eq_true hclaims)⟩

/-- A user without a second factor logs in, and a client exchanges a code; the refresh token
of the client is presented to `/auth/refresh`. -/
def oauthThenAuthRefreshMoves : List (Move World Incoming Env) :=
  loginMoves 0 "al@x.io" "Al 1" ++ authorizeMoves 1 "openid" none ++ exchangeMoves 2 ++
    authRefreshMoves 3

/-- `POST /mfa/verify`. -/
def Request.verifiesFactor : Request → Bool
  | .mfaVerify .. => true
  | _ => false

/-- The new access token claims `mfa`, and no challenge was ever verified. -/
theorem mfa_claimed_without_factor : ∃ (c : ServerConfig) (token : Jws),
    sampleRun oauthThenAuthRefreshMoves = some c ∧ token ∈ c.world.signed ∧
    token.payload.ClaimsMfa ∧
      ¬RestsOnFactor c token := by
  have hplay : (sampleRun oauthThenAuthRefreshMoves).any (fun c =>
      (c.calls.all fun call => !call.req.request.verifiesFactor) &&
        (c.world.signed.head?).any fun token => decide token.payload.ClaimsMfa) = true := by
    decide +kernel
  obtain ⟨c, hc, hrest⟩ := (Option.any_eq_true _ _).1 hplay
  obtain ⟨hnone, htoken⟩ := Bool.and_eq_true_iff.1 hrest
  obtain ⟨token, hmem, hclaims⟩ := (Option.any_eq_true _ _).1 htoken
  have hnever : ∀ {sid u : String}, ¬Validated c sid u := by
    rintro sid u ⟨j, verifier, bearer, mfaChallengeId, code, challenge, hj, hrequest, _⟩
    have hcall := List.all_eq_true.1 hnone verifier (List.mem_of_getElem? hj)
    rw [hrequest] at hcall
    cases hcall
  refine ⟨c, token, hc, List.mem_of_head? hmem, of_decide_eq_true hclaims, ?_⟩
  rintro ⟨sid, _, hvalidated | ⟨sid₀, _, hvalidated⟩⟩
  · exact hnever hvalidated
  · exact hnever hvalidated

end IdentityPlatform
