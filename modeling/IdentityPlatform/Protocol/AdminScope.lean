/-
# The scope of administrators

A login gives the tokens of its session the scope `api.write` if the user is an
administrator at that moment.  A refresh at `/auth/refresh` reads the roles of the user
again, but copies the scope of the refresh token; so `api.write` says what the user was when
the first token of the chain was issued.
-/

import IdentityPlatform.Protocol.ClientScopes

namespace IdentityPlatform

open Interleaving Program Relational Machine AuthServer

variable {P : Platform} {c : ServerConfig} {i : ℕ} {call : ServerCall} {request : Request}
  {l₀ l : ServerLog} {ctx : RequestContext} {u : String} {r s : ServerEvent} {token : Jws}

/-- The user has the role `admin`. -/
def World.HoldsAdmin (w : World) (u : String) : Prop := "admin" ∈ w.rbac.rolesOf u

instance (w : World) (u : String) : Decidable (w.HoldsAdmin u) :=
  inferInstanceAs (Decidable (_ ∈ _))

/-- The event has read the roles of the user. -/
def ReadsRoles (u : String) (roles : List String) (r : ServerEvent) : Prop :=
  ∃ n pre post, r = ⟨n, pre, .rbac (.rolesOf u), .ok roles, post⟩

/-- A login scope has `api.write` exactly for administrators. -/
theorem write_mem_defaultScope {roles : List String} :
    "api.write" ∈ words (defaultScopeForRoles roles) ↔ "admin" ∈ roles := by
  have hfive : ∀ s ∈ ["openid", "profile", "email", "api.read", "api.write"], IsWord s := by
    have hnames : ∀ s ∈ ["openid", "profile", "email", "api.read", "api.write"],
        isScopeName s = true := by decide +kernel
    exact fun s hs => (isItem_of_isScopeName (hnames s hs)).isWord
  rw [defaultScopeForRoles, words_joinWords fun word hword => hfive word ?_]
  · by_cases hadmin : "admin" ∈ roles <;> simp [hadmin]
  · split_ifs at hword <;> simp at hword ⊢ <;> tauto

theorem ReadsRoles.holds_iff {roles : List String} (h : ReadsRoles u roles r)
    (hv : (machine P).Valid c) (hi : c.calls[i]? = some call) (hr : r ∈ call.log) :
    "api.write" ∈ words (defaultScopeForRoles roles) ↔ r.pre.HoldsAdmin u := by
  obtain ⟨n, pre, post, rfl⟩ := h
  rw [write_mem_defaultScope, Stmt.rolesOf_answer (executed hv hi hr)]
  rfl

/-! ### The first token of a chain -/

/-- The scope of the first refresh token of a session comes from roles that were read. -/
def ScopeOfRoles (l : ServerLog) : Stmt → Prop
  | .refreshTokens (.insert data) => data.previousTokenId = none →
      ∃ roles, l.Saw (.rbac (.rolesOf data.userId)) (.ok roles) ∧
        data.scope = defaultScopeForRoles roles
  | _ => True

theorem scopeOfRoles_of_plain {α : Type} {p : Prog α} (h : Respects Stmt.Plain l₀ p) :
    Respects ScopeOfRoles l₀ p :=
  h.mono fun l s _ hs => by
    unfold ScopeOfRoles
    split
    · exact hs.elim
    · trivial

theorem signAccessToken_scopeOfRoles {input : AccessTokenInput} :
    Respects ScopeOfRoles l₀ (JwtService.signAccessToken P input) := by
  simp [JwtService.signAccessToken, ScopeOfRoles]

theorem issueSessionTokensForSession_scopeOfRoles {sessionId userId : String} {amr : List String} :
    Respects ScopeOfRoles l₀
      (AuthService.issueSessionTokensForSession P sessionId userId amr ctx) := by
  refine .bind (by simp [UserRepository.findById, ScopeOfRoles]) fun l₁ found _ => ?_
  refine .bind (by simp) fun l₂ user _ => ?_
  refine .bind (by simp [UserRepository.rolesOf, ScopeOfRoles]) fun l₃ roles h₃ => ?_
  refine .bind (by simp [UserRepository.permissionsOf, ScopeOfRoles]) fun l₄ permissions h₄ => ?_
  refine .bind signAccessToken_scopeOfRoles fun l₅ signed h₅ => ?_
  refine .bind ?_ fun l₆ refresh _ => ?_
  · refine .bind (by simp [ScopeOfRoles]) fun l₇ token h₇ =>
      .bind (by simp [ScopeOfRoles]) fun l₈ familyId h₈ => ?_
    refine .bind (respects_query.2 fun _ => ⟨roles, ?_, rfl⟩) fun l₉ _ _ => by simp [ScopeOfRoles]
    exact h₃.saw.mono (h₄.suffix.trans (h₅.suffix.trans (h₇.suffix.trans h₈.suffix)))
  · simp [UserRepository.setLastLogin, UserRepository.clearLockAndFailures, scopeOfRoles_of_plain,
      ScopeOfRoles]

theorem login_scopeOfRoles {email password : String} :
    Respects ScopeOfRoles l₀ (AuthService.login P email password ctx) := by
  refine .bind ?_ fun l₁ row _ => .bind (scopeOfRoles_of_plain (by simp)) fun l₂ action _ => ?_
  · refine .bind (by simp [UserRepository.findByEmail, ScopeOfRoles]) fun l found _ => ?_
    simp [AuthService.rejectUnknown, AuthService.rejectPassword, UserRepository.recordFailedLogin,
      UserRepository.lockUntil, scopeOfRoles_of_plain, ScopeOfRoles]
  refine .bind (by simp [MfaService.hasActiveMethod, ScopeOfRoles]) fun l₃ hasMfa _ => ?_
  refine respects_ite.2 ⟨fun _ => ?_, fun _ => ?_⟩
  · simp [AuthService.createLoginSession, SessionRepository.create, MfaService.createLoginChallenge,
      ScopeOfRoles]
  · refine .bind (.bind ?_ fun l₄ session _ => ?_) fun l _ _ => by simp
    · simp [AuthService.createLoginSession, SessionRepository.create, ScopeOfRoles]
    · exact issueSessionTokensForSession_scopeOfRoles

theorem completeMfaChallenge_scopeOfRoles {mfaChallengeId code : String} :
    Respects ScopeOfRoles l₀ (AuthService.completeMfaChallenge P mfaChallengeId code ctx) := by
  refine .bind ?_ fun l₁ sessionId _ => .bind (scopeOfRoles_of_plain (by simp)) fun l₂ found _ => ?_
  · refine .bind (by simp [ScopeOfRoles]) fun l stored _ => .bind (by simp) fun l challenge _ => ?_
    refine .bind (by simp [ScopeOfRoles]) fun l _ _ => .bind ?_ fun l _ _ => by simp [ScopeOfRoles]
    refine .bind (by simp [ScopeOfRoles]) fun l active _ => ?_
    split <;> simp [MfaService.rejectCode, ScopeOfRoles]
  refine .bind (by simp) fun l₃ session _ => ?_
  refine .bind (scopeOfRoles_of_plain (by simp)) fun l₄ _ _ => ?_
  exact issueSessionTokensForSession_scopeOfRoles

/-- A request that opens a session for its user: a login, or the answer to its challenge. -/
def Request.opensSession : Request → Bool
  | .login .. => true
  | .mfaVerify _ (.challenge ..) => true
  | _ => false

theorem handler_scopeOfRoles (incoming : Incoming) (h : incoming.request.opensSession = true) :
    Respects ScopeOfRoles [] (handler P incoming) := by
  obtain ⟨request, ctx⟩ := incoming
  cases request with
  | login email password => exact .bind login_scopeOfRoles fun l _ _ => by simp
  | mfaVerify bearer body =>
      cases body with
      | challenge mfaChallengeId code =>
          refine .bind (scopeOfRoles_of_plain (by simp)) fun l user _ => ?_
          exact .bind completeMfaChallenge_scopeOfRoles fun l _ _ => by simp
      | enrollment code => cases h
  | _ => cases h

/-! ### Where the scope comes from -/

/-- The event has read the roles that the scope of the refresh token was made of: before
the first token of its chain was stored. -/
inductive ScopeRead (c : ServerConfig) : RefreshTokenRow → ServerEvent → Prop
  | first {i : ℕ} {call : ServerCall} {n pre data post l roles row r} (hi : c.calls[i]? = some call)
      (inserted :
        (⟨n, pre, .refreshTokens (.insert data), .ok (), post⟩ : ServerEvent) :: l <:+ call.log)
      (read : r ∈ l) (reads : ReadsRoles data.userId roles r)
      (scope : data.scope = defaultScopeForRoles roles) (stored : row ∈ c.world.refreshTokens)
      (hash : row.tokenHash = data.tokenHash) : ScopeRead c row r
  | next {row next r} (read : ScopeRead c row r) (stored : next ∈ c.world.refreshTokens)
      (successor : next.previousTokenId = some row.id) : ScopeRead c next r

/-- What the read says of the scope. -/
theorem ScopeRead.write_iff (hreach : (machine P).Reachable World.Initial c) {row : RefreshTokenRow}
    (h : ScopeRead c row r) : row ∈ c.world.refreshTokens ∧
      ("api.write" ∈ words row.scope ↔ r.pre.HoldsAdmin row.userId) := by
  induction h with
  | first hi inserted read reads scope stored hash =>
      have hmem := inserted.subset (List.mem_cons_self ..)
      obtain ⟨r, pre, hle⟩ := stored_row hreach hi ⟨_, _, _, hmem⟩ stored hash
      have hscope := hle.scope.trans scope
      have huser := hle.userId
      refine ⟨stored, ?_⟩
      rw [hscope, huser]
      exact reads.holds_iff hreach.valid hi (inserted.subset (List.mem_cons_of_mem _ read))
  | next read stored successor ih =>
      obtain ⟨hrow, hiff⟩ := ih
      obtain ⟨huser, _, hscope⟩ := successor_grant hreach hrow stored successor
      exact ⟨stored, by rw [hscope, huser, hiff]⟩

/-- **Every scope has been read**, unless the token is a client's. -/
theorem exists_scopeRead (hreach : (machine P).Reachable World.Initial c) {row : RefreshTokenRow}
    (hrow : row ∈ c.world.refreshTokens) (hclient : row.clientId = none) :
    ∃ r, ScopeRead c row r := by
  revert hclient
  refine stored_induction (Q := fun row => row.clientId = none → ∃ r, ScopeRead c row r)
    hreach ?_ ?_ hrow
  · rintro i call n pre post data row hi he hnone hrow ⟨_, _, hle⟩ hclient
    obtain ⟨l, hl, hreason⟩ := inserted_reason hreach.valid hi he
    have hopens : call.req.request.opensSession = true := by
      generalize call.req.request = request at hreason ⊢
      cases hreason with
      | login hrequest _ _ | challenge hrequest _ _ _ => rw [hrequest]; rfl
      | exchange _ _ _ _ _ _ _ =>
          rw [hle.clientId] at hclient
          cases hclient
      | rotation _ => cases hnone
    obtain ⟨l', hread, hl'⟩ := hreach.valid.respected
      (P := fun req l s => req.request.opensSession = true → ScopeOfRoles l s)
      (fun req l s hs hopens => handler_scopeOfRoles req hopens l s hs) hi he
    obtain ⟨roles, ⟨m, before, after, hmem⟩, hscope⟩ := hread hopens hnone
    exact ⟨_, .first hi hl' hmem ⟨m, before, after, rfl⟩ hscope hrow hle.tokenHash⟩
  · intro row next hold hrow hnext hprevious hclient
    obtain ⟨_, hsame, _⟩ := successor_grant hreach hrow hnext hprevious
    obtain ⟨r, hread⟩ := hold (hsame ▸ hclient)
    exact ⟨r, .next hread hnext hprevious⟩

/-! ### First-party tokens -/

/-- A request for first-party tokens: one that opens a session, or a refresh at
`/auth/refresh` of a token that is not a client's. -/
def FirstPartyRequest (P : Platform) (c : ServerConfig) (request : Request) : Prop :=
  request.opensSession = true ∨ ∃ refreshToken, request = .refresh refreshToken ∧
    ∃ row ∈ c.world.refreshTokens, row.tokenHash = P.sha256Hex refreshToken ∧ row.clientId = none

/-- The call has issued a first-party access token by `s`. -/
structure IssuesFirstParty (P : Platform) (c : ServerConfig) (call : ServerCall) (s : ServerEvent)
    (token : Jws) : Prop where
  request : FirstPartyRequest P c call.req.request
  mem : s ∈ call.log
  signed : ∃ n pre kid post, s = ⟨n, pre, .kms (.sign kid token.payload), .ok token, post⟩
  access : token.payload.scope.isSome = true

/-- `r` has read the roles that the scope of the token was made of: in the call itself, or
for the refresh token it has presented. -/
inductive TokenScopeRead (P : Platform) (c : ServerConfig) (call : ServerCall) (s : ServerEvent)
    (token : Jws) (r : ServerEvent) : Prop
  | opened {roles} (request : call.req.request.opensSession = true) (read : r ∈ call.log)
      (before : r.seq < s.seq) (reads : ReadsRoles token.payload.sub roles r)
      (scope : token.payload.scope = some (defaultScopeForRoles roles))
  | refreshed {refreshToken row} (request : call.req.request = .refresh refreshToken)
      (stored : row ∈ c.world.refreshTokens) (hash : row.tokenHash = P.sha256Hex refreshToken)
      (read : ScopeRead c row r)

/-- The reason of a first-party token, with the log before it. -/
theorem IssuesFirstParty.reason (h : IssuesFirstParty P c call s token) (hv : (machine P).Valid c)
    (hi : c.calls[i]? = some call) :
    ∃ (l : ServerLog) (input : AccessTokenInput), s :: l <:+ call.log ∧
      TokenReason P call.req.request l input ∧ token.payload.scope = some input.scope ∧
      token.payload.sub = input.sub := by
  obtain ⟨n, pre, kid, post, rfl⟩ := h.signed
  obtain ⟨l, hl, hjust⟩ := justified_event hv hi h.mem
  have haccess := h.access
  rcases hjust with ⟨input, jti, now, hreason, _, _, hpayload⟩ | ⟨_, _, _, _, _, hpayload⟩
  · exact ⟨l, input, hl, hreason, hpayload ▸ rfl, hpayload ▸ rfl⟩
  · rw [hpayload] at haccess
    cases haccess

/-- A refresh signs for the user and the scope of the presented token. -/
theorem IssuesFirstParty.refreshed (h : IssuesFirstParty P c call s token)
    (hreach : (machine P).Reachable World.Initial c) (hi : c.calls[i]? = some call)
    {refreshToken : String} (hrequest : call.req.request = .refresh refreshToken)
    {row : RefreshTokenRow} (hrow : row ∈ c.world.refreshTokens)
    (hhash : row.tokenHash = P.sha256Hex refreshToken) :
    token.payload.scope = some row.scope ∧ token.payload.sub = row.userId := by
  obtain ⟨l, input, hl, hreason, hscope, hsub⟩ := h.reason hreach.valid hi
  rw [hrequest] at hreason
  cases hreason with
  | refresh hpresented rotated _ _ =>
      cases hpresented
      obtain ⟨l', hrotated, hfound⟩ := rotated
      have hlog := (List.suffix_cons _ _).trans hl
      obtain ⟨n, pre, post, hmem, hans⟩ :=
        answered hreach.valid hi (hrotated.mono (hfound.suffix.trans hlog))
      obtain ⟨before, hbefore, hbhash, _, _, rfl, _⟩ := Stmt.rotate_answer hans
      have hord := hreach.ordered (le_stable P)
      have hle : pre.Le c.world := (hord.answer hi _ hmem).trans (hord.post hi _ hmem)
      have hsame := hle.refreshTokens.le_of_key (reachable_sound hreach).1.tokenHashes
        (fun h => h.tokenHash) hbefore hrow (hhash.trans hbhash.symm)
      exact ⟨hscope.trans (congrArg some hsame.scope.symm), hsub.trans hsame.userId.symm⟩
  | login hother | challenge hother | exchange hother | oauthRefresh hother
  | clientCredentials hother => cases hother

/-- **The scope says who was an administrator when it was made.** -/
theorem TokenScopeRead.write_iff (h : TokenScopeRead P c call s token r)
    (hissues : IssuesFirstParty P c call s token) (hreach : (machine P).Reachable World.Initial c)
    (hi : c.calls[i]? = some call) :
    "api.write" ∈ scopesOf token ↔ r.pre.HoldsAdmin token.payload.sub := by
  cases h with
  | opened request read before reads scope =>
      rw [scopesOf, scope, Option.getD_some]
      exact reads.holds_iff hreach.valid hi read
  | refreshed request stored hash read =>
      obtain ⟨hscope, hsub⟩ := hissues.refreshed hreach hi request stored hash
      rw [scopesOf, hscope, hsub, Option.getD_some]
      exact (read.write_iff hreach).2

/-- Every first-party token has a scope that was made of roles. -/
theorem IssuesFirstParty.exists_read (h : IssuesFirstParty P c call s token)
    (hreach : (machine P).Reachable World.Initial c) (hi : c.calls[i]? = some call) :
    ∃ r, TokenScopeRead P c call s token r := by
  rcases h.request with hopens | ⟨refreshToken, hrequest, row, hrow, hhash, hclient⟩
  · obtain ⟨l, input, hl, hreason, hscope, hsub⟩ := h.reason hreach.valid hi
    have hread : ∃ roles, input.scope = defaultScopeForRoles roles ∧
        l.Saw (.rbac (.rolesOf input.sub)) (.ok roles) := by
      generalize call.req.request = request at hreason hopens
      cases hreason with
      | login _ _ _ granted | challenge _ _ _ _ granted => exact ⟨_, rfl, granted⟩
      | refresh hrequest | exchange hrequest | oauthRefresh hrequest | clientCredentials hrequest =>
          rw [hrequest] at hopens
          cases hopens
    obtain ⟨roles, hroles, m, before, after, hmem⟩ := hread
    rw [← hsub] at hmem
    exact ⟨_, .opened hopens (hl.subset (List.mem_cons_of_mem _ hmem))
      (hreach.valid.earlier hi hl hmem) ⟨m, before, after, rfl⟩ (hroles ▸ hscope)⟩
  · obtain ⟨r, hread⟩ := exists_scopeRead hreach hrow hclient
    exact ⟨r, .refreshed hrequest hrow hhash hread⟩

/-! ### Demotions -/

/-- Every first-party token with `api.write` is issued while its user is an administrator. -/
def WriteForAdmins (P : Platform) (c : ServerConfig) : Prop :=
  ∀ (i : ℕ) call s token, c.calls[i]? = some call → IssuesFirstParty P c call s token →
    "api.write" ∈ scopesOf token → s.pre.HoldsAdmin token.payload.sub

/-- Whoever was an administrator when the roles for a first-party token were read is one
when it is issued. -/
def AdminsKept (P : Platform) (c : ServerConfig) : Prop :=
  ∀ (i : ℕ) call s token r, c.calls[i]? = some call → IssuesFirstParty P c call s token →
    TokenScopeRead P c call s token r → r.pre.HoldsAdmin token.payload.sub →
      s.pre.HoldsAdmin token.payload.sub

/-- **When `api.write` is for administrators.**  In a run, every first-party token with
`api.write` is issued while its user is an administrator if and only if no administrator is
demoted between the read of the roles that the scope of a first-party token is made of, at
the opening of the session, and the issue of that token. -/
theorem write_for_admins_iff (hreach : (machine P).Reachable World.Initial c) :
    WriteForAdmins P c ↔ AdminsKept P c := by
  constructor
  · intro hall i call s token r hi hissues hread hadmin
    exact hall i call s token hi hissues ((hread.write_iff hissues hreach hi).2 hadmin)
  · intro hkept i call s token hi hissues hwrite
    obtain ⟨r, hread⟩ := hissues.exists_read hreach hi
    exact hkept i call s token r hi hissues hread ((hread.write_iff hissues hreach hi).1 hwrite)

/-- The access token an event has signed. -/
def signedToken? : ServerEvent → Option Jws
  | ⟨_, _, .kms (.sign ..), .ok token, _⟩ => some token
  | _ => none

theorem signedToken?_eq_some (hv : (machine P).Valid c) (hi : c.calls[i]? = some call)
    (hs : s ∈ call.log) (h : signedToken? s = some token) :
    ∃ n pre kid post, s = ⟨n, pre, .kms (.sign kid token.payload), .ok token, post⟩ := by
  unfold signedToken? at h
  split at h
  · rename_i n pre kid payload token' post
    obtain rfl := Option.some.inj h
    obtain rfl : token' = ⟨"EdDSA", some kid, payload⟩ := (Stmt.sign_answer (executed hv hi hs)).1
    exact ⟨n, pre, kid, post, rfl⟩
  · cases h

/-- Every token of the run is issued while its user is an administrator. -/
def AllForAdmins (c : ServerConfig) : Bool :=
  c.calls.all fun call => call.log.all fun e =>
    (signedToken? e).all fun token => decide (e.pre.HoldsAdmin token.payload.sub)

theorem AllForAdmins.kept (h : AllForAdmins c = true) : AdminsKept P c := by
  intro i call s token r hi hissues _ _
  obtain ⟨n, pre, kid, post, rfl⟩ := hissues.signed
  have hcall := List.all_eq_true.1 h call (List.mem_of_getElem? hi)
  exact of_decide_eq_true (List.all_eq_true.1 hcall _ hissues.mem)

/-- An administrator signs in and refreshes. -/
theorem write_for_admins_iff_of_refresh :
    ∃ (c : ServerConfig) (result : LoginResultSuccess),
      sampleRun (loginMoves 0 "ro@x.io" "Ro 1" ++ authRefreshMoves 1) = some c ∧
      c.returned 1 = some (.session result) ∧ "api.write" ∈ scopesOf result.accessToken ∧
      WriteForAdmins .sample c := by
  have hplay : (sampleRun (loginMoves 0 "ro@x.io" "Ro 1" ++ authRefreshMoves 1)).any (fun c =>
      AllForAdmins c && (c.calls[1]?).any fun call => (refreshAnswer? call).any fun x =>
        decide ("api.write" ∈ scopesOf x.2.accessToken)) = true := by
    decide +kernel
  obtain ⟨c, hc, hall⟩ := (Option.any_eq_true _ _).1 hplay
  obtain ⟨hadmins, hall⟩ := Bool.and_eq_true_iff.1 hall
  obtain ⟨call, hi, hanswer⟩ := (Option.any_eq_true _ _).1 hall
  obtain ⟨⟨refreshToken, result⟩, hx, hwrite⟩ := (Option.any_eq_true _ _).1 hanswer
  have hreturned : c.returned 1 = some (.session result) := by
    simp [Config.returned, hi, (refreshAnswer?_eq_some hx).2, Except.toOption]
  have hiff := write_for_admins_iff (sampleRun_reachable hc)
  exact ⟨c, result, hc, hreturned, of_decide_eq_true hwrite, hiff.2 (AllForAdmins.kept hadmins)⟩

/-- Call `i` sets the roles of `al@x.io`, with the token at place `k` of those signed. -/
def setRolesMoves (i k : ℕ) (roles : List String) : List (Move World Incoming Env) :=
  [.accept fun w => ⟨.setUserRoles (w.signed[k]?.map .jws) (sampleUuid 9001) roles, {}⟩,
    .steps i 40]

/-- A user is made an administrator, signs in, and is demoted before a refresh. -/
def demotedMoves : List (Move World Incoming Env) :=
  loginMoves 0 "ro@x.io" "Ro 1" ++ setRolesMoves 1 0 ["admin"] ++ loginMoves 2 "al@x.io" "Al 1" ++
    setRolesMoves 3 1 ["user"] ++ authRefreshMoves 4

/-- **A demoted administrator keeps `api.write`.**  The refresh reads the roles, which are
those of a user, and copies the scope. -/
theorem write_after_demotion :
    ∃ (c : ServerConfig) (result : LoginResultSuccess),
      sampleRun demotedMoves = some c ∧ c.returned 3 = some (.status "updated") ∧
      c.returned 4 = some (.session result) ∧ result.roles = ["user"] ∧
      "api.write" ∈ scopesOf result.accessToken ∧ ¬WriteForAdmins .sample c := by
  have hplay : (sampleRun demotedMoves).any (fun c =>
      decide (c.returned 3 = some (.status "updated")) &&
      (c.calls[4]?).any fun call => (refreshAnswer? call).any fun x =>
        decide (x.2.roles = ["user"] ∧ "api.write" ∈ scopesOf x.2.accessToken ∧
          ∃ row ∈ c.world.refreshTokens, row.tokenHash = Platform.sample.sha256Hex x.1 ∧
            row.clientId = none) &&
        call.log.any fun e => decide (signedToken? e = some x.2.accessToken ∧
          ¬e.pre.HoldsAdmin x.2.accessToken.payload.sub)) = true := by
    decide +kernel
  obtain ⟨c, hc, hall⟩ := (Option.any_eq_true _ _).1 hplay
  obtain ⟨hdemoted, hall⟩ := Bool.and_eq_true_iff.1 hall
  obtain ⟨call, hi, hall⟩ := (Option.any_eq_true _ _).1 hall
  obtain ⟨⟨refreshToken, result⟩, hx, hall⟩ := (Option.any_eq_true _ _).1 hall
  obtain ⟨hanswer, hall⟩ := Bool.and_eq_true_iff.1 hall
  obtain ⟨s, hs, hsigned⟩ := List.any_eq_true.1 hall
  obtain ⟨hroles, hwrite, row, hrow, hhash, hclient⟩ := of_decide_eq_true hanswer
  obtain ⟨htoken, hdenied⟩ := of_decide_eq_true hsigned
  obtain ⟨hrequest, hresult⟩ := refreshAnswer?_eq_some hx
  have hreach := sampleRun_reachable hc
  have hreturned : c.returned 4 = some (.session result) := by
    simp [Config.returned, hi, hresult, Except.toOption]
  have haccess : result.accessToken.payload.scope.isSome = true := by
    by_contra hnone
    rw [scopesOf, Option.not_isSome_iff_eq_none.1 hnone] at hwrite
    exact absurd hwrite (by decide)
  refine ⟨c, result, hc, of_decide_eq_true hdemoted, hreturned, hroles, hwrite,
    fun hfor => hdenied ?_⟩
  exact hfor 4 call s result.accessToken hi
    { request := .inr ⟨refreshToken, hrequest, row, hrow, hhash, hclient⟩
      mem := hs
      signed := signedToken?_eq_some hreach.valid hi hs htoken
      access := haccess } hwrite

end IdentityPlatform
