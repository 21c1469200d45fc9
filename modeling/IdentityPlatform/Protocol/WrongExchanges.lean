/-
# Wrong exchanges of a code

An exchange that names another client, presents a wrong secret, another redirect URI or a
wrong verifier leaves before the `UPDATE` that consumes the code: what it reads of the code
and of the client decides that, and neither changes.  While the code is not consumed the
replay branch is out of reach too, so the tables stay as they were (`Tried.tables`).
-/

import IdentityPlatform.Interleaving.Rely
import IdentityPlatform.Protocol.ReuseDetection
import IdentityPlatform.Protocol.CodeReplay
import IdentityPlatform.Protocol.Invariants

namespace IdentityPlatform

open Interleaving Program Relational Machine AuthServer

variable {P : Platform} {c₀ c : ServerConfig} {i j : ℕ} {call : ServerCall} {e : ServerEvent}
  {l l₀ : ServerLog} {code : String} {b : AuthorizationCodeRow} {client : OAuthClientRow}
  {form : TokenForm} {basicAuth : Option BasicAuth} {ctx : RequestContext} {w w' : World}

/-- What is wrong with an exchange of the code `b` of the client `client`. -/
inductive Mismatch (P : Platform) (b : AuthorizationCodeRow) (client : OAuthClientRow)
    (form : TokenForm) (basicAuth : Option BasicAuth) : Prop
  | clientId (h : (basicAuth.map BasicAuth.clientId).or form.clientId ≠ some client.clientId)
  | secret (h : ¬OAuthService.Authenticated P client (presentedSecret form basicAuth))
  | redirectUri (h : form.redirectUri ≠ some b.redirectUri)
  | verifier (h : ∀ verifier challenge, form.codeVerifier = some verifier →
      b.codeChallenge = some challenge →
      PkceUtil.matches P verifier challenge b.codeChallengeMethod = false)

/-- The request is an exchange of `code` that is wrong. -/
structure WrongExchange (P : Platform) (code : String) (b : AuthorizationCodeRow)
    (client : OAuthClientRow) (form : TokenForm) (basicAuth : Option BasicAuth) : Prop where
  grantType : form.grantType = .authorizationCode
  presented : form.code = some code
  mismatch : Mismatch P b client form basicAuth

/-- The request is the exchange of `code` that its client has been given it for. -/
structure RightExchange (P : Platform) (code : String) (b : AuthorizationCodeRow)
    (client : OAuthClientRow) (form : TokenForm) (basicAuth : Option BasicAuth) : Prop where
  grantType : form.grantType = .authorizationCode
  presented : form.code = some code ∧ code ≠ ""
  clientId : (basicAuth.map BasicAuth.clientId).or form.clientId = some client.clientId ∧
    client.clientId ≠ ""
  active : client.status = .active
  secret : match client.clientType with
    | .confidential => ∃ secret hash, presentedSecret form basicAuth = some secret ∧ secret ≠ "" ∧
        client.clientSecretHash = some hash ∧ hash ≠ "" ∧ P.argon2Verify hash secret = some true
    | .publicClient => (presentedSecret form basicAuth).filter (· ≠ "") = none
  redirectUri : form.redirectUri = some b.redirectUri ∧ b.redirectUri ≠ ""
  verifier : ∃ verifier challenge, form.codeVerifier = some verifier ∧ verifier ≠ "" ∧
    b.codeChallenge = some challenge ∧ challenge ≠ "" ∧
    PkceUtil.matches P verifier challenge b.codeChallengeMethod = true

/-! ### What a wrong exchange may issue -/

/-- What a wrong exchange reads of the code and of the client is what they were issued
with. -/
structure AnsweredBy (P : Platform) (code : String) (b : AuthorizationCodeRow)
    (client : OAuthClientRow) (l : ServerLog) : Prop where
  code : ∀ row, l.Saw (.codes (.selectJoined (P.sha256Hex code))) (.ok (some row)) →
    row.clientRef = client.clientId ∧ b.Le row.code
  client : ∀ a, l.Saw (.clients (.findByClientId client.clientId)) (.ok (some a)) → a = client

/-- Reads, records, and the revocation after a replay. -/
def Stmt.Harmless : Stmt → Prop
  | .clients (.findByClientId _) | .codes (.selectJoined _) | .runtime .dateNow | .log _
  | .refreshTokens (.revokeForReplay ..) => True
  | _ => False

@[simp] theorem Stmt.harmless_log {s : LogStmt} : Stmt.Harmless (.log s) := by
  simp [Stmt.Harmless]

/-- No exchange passes all checks that is wrong. -/
theorem Mismatch.refuted (h : Mismatch P b client form basicAuth)
    (hl : AnsweredBy P code b client l)
    {redirectUri verifier challenge clientId : String} {a : OAuthClientRow} {row : JoinedRow}
    (hnamed : (basicAuth.map BasicAuth.clientId).or form.clientId = some clientId)
    (hread : l.Saw (.clients (.findByClientId clientId)) (.ok (some a)))
    (hauthenticated : OAuthService.Authenticated P a (presentedSecret form basicAuth))
    (huri : form.redirectUri = some redirectUri) (hverifier : form.codeVerifier = some verifier)
    (hpeeked : AuthorizationCodeRepository.Peeked P l ⟨code, clientId, redirectUri⟩ row)
    (hchallenge : row.code.codeChallenge = some challenge)
    (hmatches : PkceUtil.matches P verifier challenge row.code.codeChallengeMethod = true) :
    False := by
  obtain ⟨hclient, hle⟩ := hl.code row hpeeked.read
  have hid : clientId = client.clientId := hpeeked.client.symm.trans hclient
  subst hid
  obtain rfl := hl.client a hread
  cases h with
  | clientId h => exact h hnamed
  | secret h => exact h hauthenticated
  | redirectUri h =>
      exact h (huri.trans (congrArg some (hpeeked.redirectUri.symm.trans hle.redirectUri)))
  | verifier h =>
      have hfalse := h verifier challenge hverifier (hle.codeChallenge.symm.trans hchallenge)
      rw [← hle.codeChallengeMethod, hmatches] at hfalse
      cases hfalse

namespace OAuthService

/-- The branch of a wrong exchange issues harmless statements only. -/
theorem authorizationCodeGrant_harmless (h : WrongExchange P code b client form basicAuth)
    {clientId : String} {a : OAuthClientRow}
    (hnamed : (basicAuth.map BasicAuth.clientId).or form.clientId = some clientId)
    (hread : l₀.Saw (.clients (.findByClientId clientId)) (.ok (some a))) :
    Respects (fun l s => AnsweredBy P code b client l → s.Harmless) l₀
      (authorizationCodeGrant P form clientId a (presentedSecret form basicAuth) ctx) := by
  have hpeek : ∀ {l : ServerLog} {params : PresentedCode},
      Respects (fun l s => AnsweredBy P code b client l → s.Harmless) l
        (catchReplay (AuthorizationCodeRepository.peek P params) ctx) := by
    intro l params
    refine respects_tryCatch.2 ⟨.bind (by simp [Stmt.Harmless]) fun l₁ existing _ => ?_,
      fun l₁ err _ => ?_⟩
    · cases existing with
      | none => exact respects_pure
      | some row => simp [AuthorizationCodeRepository.checkRow, Stmt.Harmless]
    · cases err with
      | codeReplay userId clientRef =>
          simp [handleCodeReplay, AuthorizationCodeRepository.revokeTokensForReplay,
            AuditLogService.record, Stmt.Harmless]
      | _ => exact respects_throw
  refine .bind (by simp [requireText]) fun l₁ code' h₁ => ?_
  refine .bind (by simp [requireText]) fun l₂ redirectUri h₂ => ?_
  refine .bind (by simp [requireText]) fun l₃ verifier h₃ => ?_
  refine .bind ?_ fun l₄ _ h₄ => .bind hpeek fun l₅ found h₅ => ?_
  · refine authenticateClient_onlyLog.mono fun l s _ => ?_
    rintro ⟨entry, rfl⟩ _
    exact Stmt.harmless_log
  refine .bind (by simp) fun l₆ row h₆ => ?_
  refine .bind (by simp [requireText]) fun l₇ challenge h₇ => ?_
  refine .bind (by simp) fun l₈ _ h₈ => ?_
  -- behind the comparison of the verifier nothing is reached
  intro l s hreach hl
  obtain ⟨hl₆, rfl⟩ := returns_orThrow_ok.1 h₆
  have hpeeked := AuthorizationCodeRepository.peek_ok (catchReplay_ok h₅)
  obtain rfl : code' = code :=
    Option.some.inj ((requireText_ok h₁).1.symm.trans h.presented)
  have hs₅ : l₅ <:+ l := (h₆.suffix.trans (h₇.suffix.trans h₈.suffix)).trans hreach.suffix
  have hs₀ : l₀ <:+ l := (h₁.suffix.trans (h₂.suffix.trans (h₃.suffix.trans
    (h₄.suffix.trans h₅.suffix)))).trans hs₅
  exact (h.mismatch.refuted hl hnamed (hread.mono hs₀) (authenticateClient_ok h₄)
    (requireText_ok h₂).1 (requireText_ok h₃).1 (hpeeked.mono hs₅) (requireText_ok h₇).1
    (by simpa using (returns_throwIf_ok.1 h₈).2)).elim

theorem token_harmless (h : WrongExchange P code b client form basicAuth) :
    Respects (fun l s => AnsweredBy P code b client l → s.Harmless) l₀
      (token P form basicAuth ctx) := by
  refine .bind (by simp [requireText]) fun l₁ clientId h₁ => ?_
  refine .bind (by simp [ClientRepository.findByClientId, Stmt.Harmless]) fun l₂ found h₂ => ?_
  refine .bind (by simp) fun l₃ a h₃ => ?_
  obtain ⟨hl₃, hfound⟩ := returns_orThrow_ok.1 h₃
  obtain ⟨hread, _⟩ := Option.filter_eq_some_iff.1 hfound
  rw [h.grantType]
  exact authorizationCodeGrant_harmless h (requireText_ok h₁).1 (hl₃ ▸ hread ▸ h₂.saw)

end OAuthService

/-! ### Statements that leave the tables alone -/

/-- The statements of exchanges that store nothing. -/
def Stmt.Quiet : Stmt → Prop
  | .users (.findById _) | .rbac (.rolesOf _) | .rbac (.permissionsOf _)
  | .clients (.findByClientId _) | .codes (.selectJoined _) | .refreshTokens (.revokeForReplay ..)
  | .kms _ | .runtime _ | .log _ => True
  | _ => False

/-- The statements that leave the clients alone. -/
def Stmt.ReadsClients (_ : ServerLog) : Stmt → Prop
  | .clients s => ∃ ref, s = .findByClientId ref
  | _ => True

/-- Time passes and values are generated, and refresh tokens may change, but not their
hashes. -/
structure Untouched (w w' : World) : Prop where
  users : w'.users = w.users
  clients : w'.clients = w.clients
  codes : w'.codes = w.codes
  sessions : w'.sessions = w.sessions
  hashes : w'.refreshTokens.map RefreshTokenRow.tokenHash =
    w.refreshTokens.map RefreshTokenRow.tokenHash
  now : w.now ≤ w'.now
  generated : w.generated ⊆ w'.generated

theorem Untouched.refl (w : World) : Untouched w w :=
  ⟨rfl, rfl, rfl, rfl, rfl, le_rfl, List.Subset.refl _⟩

theorem Untouched.trans {w₁ w₂ w₃ : World} (h : Untouched w₁ w₂) (h' : Untouched w₂ w₃) :
    Untouched w₁ w₃ where
  users := h'.users.trans h.users
  clients := h'.clients.trans h.clients
  codes := h'.codes.trans h.codes
  sessions := h'.sessions.trans h.sessions
  hashes := h'.hashes.trans h.hashes
  now := h.now.trans h'.now
  generated := List.Subset.trans h.generated h'.generated

theorem Stmt.Harmless.quiet {s : Stmt} (h : s.Harmless) : s.Quiet := by
  unfold Stmt.Harmless at h
  split at h <;> trivial

theorem Stmt.exec_untouched {s : Stmt} {r : String} {ans : Except Err s.Ans} (hs : s.Quiet)
    (h : s.exec P r w = some (ans, w')) : Untouched w w' := by
  have hle := Stmt.exec_le h
  rcases Stmt.exec_cases h with ⟨_, rfl⟩ | ⟨_, _, ledger, rfl, _⟩
  · exact .refl _
  · unfold Stmt.Quiet at hs
    split at hs
    case h_6 =>
      refine ⟨rfl, rfl, rfl, rfl, ?_, hle.now, hle.generated⟩
      change (updateWhere _ _ w.refreshTokens).map RefreshTokenRow.tokenHash = _
      rw [updateWhere, List.map_map]
      refine List.map_congr_left fun a _ => ?_
      simp only [Function.comp_apply]
      split_ifs <;> rfl
    case h_10 => exact hs.elim
    all_goals exact ⟨rfl, rfl, rfl, rfl, rfl, hle.now, hle.generated⟩

/-- A harmless statement that is no revocation changes no refresh token either. -/
theorem Stmt.exec_refreshTokens_same {s : Stmt} {r : String} {ans : Except Err s.Ans}
    (hs : s.Harmless) (hreplay : ∀ userId ref, s ≠ .refreshTokens (.revokeForReplay userId ref))
    (h : s.exec P r w = some (ans, w')) : w'.refreshTokens = w.refreshTokens := by
  rcases Stmt.exec_cases h with ⟨_, rfl⟩ | ⟨_, _, ledger, rfl, _⟩
  · rfl
  · unfold Stmt.Harmless at hs
    split at hs
    case h_5 => exact absurd rfl (hreplay _ _)
    case h_6 => exact hs.elim
    all_goals rfl

theorem Env.apply_untouched {env : Env} (h : env.apply w = some w') : Untouched w w' := by
  obtain ⟨husers, hsessions, hrows, hcodes⟩ := Env.apply_rows h
  have hle := Env.apply_le h
  exact ⟨husers, Env.apply_clients h, hcodes, hsessions, by rw [hrows], hle.now, hle.generated⟩

/-- An exchange only reads the clients. -/
theorem OAuthService.token_readsClients (h : form.grantType = .authorizationCode) :
    Respects Stmt.ReadsClients l₀ (OAuthService.token P form basicAuth ctx) := by
  have hpeek : ∀ {l : ServerLog} {params : PresentedCode},
      Respects Stmt.ReadsClients l (AuthorizationCodeRepository.peek P params) := by
    intro l params
    refine .bind (by simp [Stmt.ReadsClients]) fun l₁ existing _ => ?_
    cases existing <;> simp [AuthorizationCodeRepository.checkRow, Stmt.ReadsClients]
  have hreplay : ∀ {α : Type} {l : ServerLog} {p : Prog α}, Respects Stmt.ReadsClients l p →
      Respects Stmt.ReadsClients l (catchReplay p ctx) := by
    intro α l p hp
    refine respects_tryCatch.2 ⟨hp, fun l₁ err _ => ?_⟩
    cases err <;> simp [handleCodeReplay, AuthorizationCodeRepository.revokeTokensForReplay,
      AuditLogService.record, Stmt.ReadsClients]
  have hauthenticate : ∀ {l : ServerLog} {a : OAuthClientRow} {secret : Option String},
      Respects Stmt.ReadsClients l (authenticateClient P a secret ctx) := by
    intro l a secret
    refine authenticateClient_onlyLog.mono fun l s _ => ?_
    rintro ⟨entry, rfl⟩
    trivial
  have hconsume : ∀ {l : ServerLog} {params : PresentedCode},
      Respects Stmt.ReadsClients l (AuthorizationCodeRepository.consume P params) := by
    intro l params
    refine .bind hpeek fun l₁ checked _ => ?_
    cases checked with
    | none => exact respects_pure
    | some row =>
        refine .bind (by simp [Stmt.ReadsClients]) fun l₂ updated _ => ?_
        cases updated <;> simp
  have hissue : ∀ {l : ServerLog} {userId scope : String} {a : OAuthClientRow}
      {nonce : Option String},
      Respects Stmt.ReadsClients l (issueUserTokens P userId a scope nonce ctx) := by
    simp [issueUserTokens, issueIdToken, UserRepository.rolesOf, UserRepository.permissionsOf,
      SessionRepository.create, JwtService.signAccessToken, JwtService.signIdToken,
      RefreshTokenService.issue, AuditLogService.record, UserRepository.findById, expiresIn,
      Stmt.ReadsClients]
  refine .bind (by simp [requireText]) fun l₁ clientId _ => ?_
  refine .bind (by simp [ClientRepository.findByClientId, Stmt.ReadsClients]) fun l₂ found _ => ?_
  refine .bind (by simp) fun l₃ a _ => ?_
  rw [h]
  simp [authorizationCodeGrant, requireText, hauthenticate, hreplay hpeek, hreplay hconsume, hissue]

/-! ### Runs of exchanges -/

/-- From the `n`-th call on, wrong exchanges of the code are accepted in any number and
order, and as call `k`, if any, the right one.  Only these calls move; any statement may
fail, those of call `k` apart. -/
inductive Exchanging (P : Platform) (code : String) (b : AuthorizationCodeRow)
    (client : OAuthClientRow) (n : ℕ) (k : Option ℕ) :
    ServerConfig → Action Incoming String Env → Prop
  | wrong {c' : ServerConfig} {f : TokenForm} {a : Option BasicAuth} {ctx' : RequestContext}
      (h : WrongExchange P code b client f a) :
      Exchanging P code b client n k c' (.accept ⟨.token f a, ctx'⟩)
  | right {c' : ServerConfig} {f : TokenForm} {a : Option BasicAuth} {ctx' : RequestContext}
      (hk : k = some c'.calls.length) (h : RightExchange P code b client f a) :
      Exchanging P code b client n k c' (.accept ⟨.token f a, ctx'⟩)
  | step {c' : ServerConfig} {i' : ℕ} {r : String} (hi : n ≤ i') :
      Exchanging P code b client n k c' (.step i' r)
  | fail {c' : ServerConfig} {i' : ℕ} (hi : n ≤ i') (hk : k ≠ some i') :
      Exchanging P code b client n k c' (.fail i')
  | env {c' : ServerConfig} {a : Env} : Exchanging P code b client n k c' (.env a)

/-- The code `b` of `client`, not consumed in `c₀`, whose exchange is tried until `c`. -/
structure Tried (P : Platform) (code : String) (b : AuthorizationCodeRow) (client : OAuthClientRow)
    (k : Option ℕ) (c₀ c : ServerConfig) : Prop where
  reachable : (machine P).Reachable World.Initial c₀
  stored : b ∈ c₀.world.codes
  hash : b.codeHash = P.sha256Hex code
  unconsumed : b.consumedAt = none
  registered : client ∈ c₀.world.clients
  owner : b.clientId = client.id
  run : (machine P).Runs (Exchanging P code b client c₀.calls.length k) c₀ c

/-- What a run of exchanges keeps: every new call is an exchange, and has seen the clients
as they were. -/
structure OnlyExchanges (P : Platform) (code : String) (b : AuthorizationCodeRow)
    (client : OAuthClientRow) (n : ℕ) (k : Option ℕ) (rows : List OAuthClientRow)
    (c : ServerConfig) : Prop where
  requests : ∀ (i : ℕ) call, n ≤ i → c.calls[i]? = some call → ∃ form basicAuth,
    call.req.request = .token form basicAuth ∧ (WrongExchange P code b client form basicAuth ∨
      k = some i ∧ RightExchange P code b client form basicAuth)
  clients : c.world.clients = rows
  events : ∀ (i : ℕ) call, n ≤ i → c.calls[i]? = some call → ∀ e ∈ call.log,
    e.pre.clients = rows

theorem exchange_grantType {k : Option ℕ} (h : WrongExchange P code b client form basicAuth ∨
    k = some i ∧ RightExchange P code b client form basicAuth) :
    form.grantType = .authorizationCode := by
  rcases h with h | ⟨_, h⟩ <;> exact h.grantType

/-- What the call of a token request may issue. -/
theorem token_statement (hv : (machine P).Valid c) (hi : c.calls[i]? = some call)
    (hrequest : call.req.request = .token form basicAuth) {Q : ServerLog → Stmt → Prop}
    (hrespects : ∀ ctx, Respects Q [] (OAuthService.token P form basicAuth ctx)) {s : Stmt}
    {k : Except Err s.Ans → Program statements Err Response} (hp : call.prog = .call s k) :
    Q call.log s := by
  have hreach := hv.next hi hp
  have hhandler : (machine P).handler call.req = (do
      let response ← OAuthService.token P form basicAuth call.req.ctx
      pure (.tokens response)) := by
    change AuthServer.handler P call.req = _
    unfold AuthServer.handler
    rw [hrequest]
  rw [hhandler] at hreach
  exact Respects.bind (hrespects _) (fun _ _ _ => respects_pure) _ _ hreach

namespace Tried

variable {k : Option ℕ} (h : Tried P code b client k c₀ c)

theorem extend {c' : ServerConfig} {a : Action Incoming String Env}
    (h : Tried P code b client k c₀ c)
    (hok : Exchanging P code b client c₀.calls.length k c a)
    (hs : (machine P).apply c a = some c') :
    Tried P code b client k c₀ c' :=
  { h with run := .tail h.run hok hs }

include h

theorem reach : (machine P).Reachable World.Initial c := h.reachable.run h.run

theorem only : OnlyExchanges P code b client c₀.calls.length k c₀.world.clients c := by
  have hrun := h.run
  have hreach := h.reachable
  clear h
  induction hrun with
  | refl =>
      refine ⟨fun i call hle hi => ?_, rfl, fun i call hle hi => ?_⟩ <;>
        exact absurd (List.getElem?_eq_some_iff.1 hi).1 (Nat.not_lt.2 hle)
  | @tail c₁ c₂ a hrun hok hs ih =>
      rcases step_cases hs with ⟨req, rfl, rfl⟩ |
        ⟨i, call, op, cont, ans, post, ha, hi, hp, hans, rfl⟩ | ⟨env, w, rfl, hw, rfl⟩
      · refine ⟨fun j call hle hj => ?_, ih.clients, fun j call hle hj => ?_⟩
        · rcases accept_get_cases hj with ⟨_, hj⟩ | ⟨rfl, rfl⟩
          · exact ih.requests j call hle hj
          · cases hok with
            | wrong hwrong => exact ⟨_, _, rfl, .inl hwrong⟩
            | right hk hright => exact ⟨_, _, rfl, .inr ⟨hk, hright⟩⟩
        · rcases accept_get_cases hj with ⟨_, hj⟩ | ⟨_, rfl⟩
          · exact ih.events j call hle hj
          · simp
      · have hle : c₀.calls.length ≤ i := by
          rcases ha with rfl | ⟨r, rfl⟩ <;> cases hok <;> assumption
        obtain ⟨form, basicAuth, hrequest, hkind⟩ := ih.requests i call hle hi
        have hreads := token_statement (hreach.run hrun).valid hi hrequest
          (fun ctx => OAuthService.token_readsClients (exchange_grantType hkind)) hp
        have hpost : post.clients = c₁.world.clients := by
          rcases hans with ⟨r, hexec⟩ | ⟨_, rfl⟩
          · rcases Stmt.exec_cases hexec with ⟨_, rfl⟩ | ⟨_, _, ledger, rfl, _⟩
            · rfl
            · cases op with
              | clients u =>
                  obtain ⟨ref, rfl⟩ := hreads
                  rfl
              | _ => rfl
          · rfl
        refine ⟨fun j call' hlej hj => ?_, hpost.trans ih.clients, fun j call' hlej hj e he => ?_⟩
        · rcases Config.record_get_cases hi hj with ⟨_, hj⟩ | ⟨rfl, rfl⟩
          · exact ih.requests j call' hlej hj
          · exact ⟨form, basicAuth, hrequest, hkind⟩
        · rcases Config.record_get_cases hi hj with ⟨_, hj⟩ | ⟨rfl, rfl⟩
          · exact ih.events j call' hlej hj e he
          · rcases List.mem_cons.1 he with rfl | he
            · exact ih.clients
            · exact ih.events j call hlej hi e he
      · exact ⟨ih.requests, (Env.apply_clients hw).trans ih.clients, ih.events⟩

/-- **What an exchange reads** of the code and of the client is what they were. -/
theorem answeredBy (hi : c.calls[i]? = some call) (hle : c₀.calls.length ≤ i) :
    AnsweredBy P code b client call.log := by
  have hreach := h.reach
  have hsince := (le_stable P).since h.run h.reachable.valid
  have hstart := h.run.startSeq_of_new hi hle
  have hidentity : ∀ a ∈ c₀.world.clients, a.id = client.id → a = client := fun a ha hid =>
    eq_of_key (reachable_sound h.reachable).1.clients.nodup ha h.registered hid
  refine ⟨fun row hsaw => ?_, fun a hsaw => ?_⟩
  · obtain ⟨n, pre, post, hmem, hans⟩ := answered hreach.valid hi hsaw
    obtain ⟨hcode, a, ha, haid, haref⟩ := Stmt.selectJoined_answer hans
    have hsound := ((reachable_sound hreach).2 i call hi _ hmem).1
    have hpre := hsince.pre hi _ hmem (hstart.trans (hreach.valid.start_lt hi _ hmem).le)
    have hb : b.Le row.code := hpre.code_le hsound h.stored (lookup_mem hcode)
      ((lookup_key hcode).trans h.hash.symm)
    refine ⟨?_, hb⟩
    have hclients := h.only.events i call hle hi _ hmem
    rw [← haref, hidentity a (hclients ▸ ha) (haid.trans (hb.clientId.trans h.owner))]
  · obtain ⟨n, pre, post, hmem, hans⟩ := answered hreach.valid hi hsaw
    have hlookup := (Stmt.findByClientId_answer hans).symm
    have hclients := h.only.events i call hle hi _ hmem
    exact eq_of_key (reachable_sound h.reachable).1.clientRefs (hclients ▸ lookup_mem hlookup)
      h.registered (lookup_key hlookup)

/-- A wrong exchange issues a harmless statement next. -/
theorem harmless (hi : c.calls[i]? = some call) (hle : c₀.calls.length ≤ i) (hk : k ≠ some i)
    {s : Stmt} {next : Except Err s.Ans → Program statements Err Response}
    (hp : call.prog = .call s next) : s.Harmless := by
  obtain ⟨form, basicAuth, hrequest, hwrong | ⟨hright, _⟩⟩ := h.only.requests i call hle hi
  · exact token_statement h.reach.valid hi hrequest
      (fun ctx => OAuthService.token_harmless hwrong) hp (h.answeredBy hi hle)
  · exact absurd hright hk

/-- The steps of the others leave users, clients, codes and sessions alone. -/
theorem untouched {c' : ServerConfig} {a : Action Incoming String Env}
    (hok : Exchanging P code b client c₀.calls.length k c a) (hs : (machine P).apply c a = some c')
    (hown : ∀ i r, k = some i → a ≠ .step i r) : Untouched c.world c'.world := by
  rcases step_cases hs with ⟨req, _, rfl⟩ | ⟨i, call, op, cont, ans, post, ha, hi, hp, hans, rfl⟩ |
    ⟨env, w, _, hw, rfl⟩
  · exact .refl _
  · have hother : c₀.calls.length ≤ i ∧ k ≠ some i := by
      rcases ha with rfl | ⟨r, rfl⟩
      · cases hok with
        | fail hle hk => exact ⟨hle, hk⟩
      · cases hok with
        | step hle => exact ⟨hle, fun hk => hown i r hk rfl⟩
    rcases hans with ⟨r, hexec⟩ | ⟨_, rfl⟩
    · exact Stmt.exec_untouched (h.harmless hi hother.1 hother.2 hp).quiet hexec
    · exact .refl _
  · exact Env.apply_untouched hw

/-- As long as the code has not been consumed, no replay of it is handled. -/
theorem not_replay (hcodes : c.world.codes = c₀.world.codes) (hi : c.calls[i]? = some call)
    (hle : c₀.calls.length ≤ i) {userId ref : String}
    {next : Except Err Unit → Program statements Err Response}
    {c' : ServerConfig} {ans : Except Err Unit} {post : World}
    (hrun : (machine P).Reachable World.Initial c')
    (hrecord : c' = c.record i call (.refreshTokens (.revokeForReplay userId ref)) ans
      post (next ans)) : False := by
  subst hrecord
  obtain ⟨form, basicAuth, hrequest, hkind⟩ := h.only.requests i call hle hi
  obtain ⟨l, hl, hjust⟩ :=
    justified_event hrun.valid (Config.record_get_self hi) (List.mem_cons_self ..)
  obtain ⟨form', _, code', hrequest', hpresented', hreplayed⟩ := ReplayReason.replayed hjust
  have hform := hrequest.symm.trans hrequest'
  obtain rfl := (Request.token.inj hform).1
  have hcode : code' = code := by
    rcases hkind with hwrong | ⟨_, hright⟩
    · exact Option.some.inj (hpresented'.symm.trans hwrong.presented)
    · exact Option.some.inj (hpresented'.symm.trans hright.presented.1)
  subst hcode
  obtain ⟨⟨r, hr, hhash, hconsumed⟩, _⟩ :=
    replayed_consumed hrun (Config.record_get_self hi) hl hreplayed
  -- the consumed row would be `b`
  have hr' : r ∈ c₀.world.codes := hcodes ▸ hr
  obtain rfl := eq_of_key (reachable_sound h.reachable).1.codeHashes hr' h.stored
    (hhash.trans h.hash.symm)
  rw [h.unconsumed] at hconsumed
  cases hconsumed

end Tried

/-- Wrong exchanges leave codes, refresh tokens and sessions as they were. -/
theorem Tried.tables (h : Tried P code b client none c₀ c) :
    c.world.codes = c₀.world.codes ∧ c.world.refreshTokens = c₀.world.refreshTokens ∧
      c.world.sessions = c₀.world.sessions := by
  obtain ⟨hreach, hstored, hhash, hunconsumed, hregistered, howner, hrun⟩ := h
  induction hrun with
  | refl => exact ⟨rfl, rfl, rfl⟩
  | @tail c₁ c₂ a hrun hok hs ih =>
      obtain ⟨hcodes, htokens, hsessions⟩ := ih
      have h₁ : Tried P code b client none c₀ c₁ :=
        ⟨hreach, hstored, hhash, hunconsumed, hregistered, howner, hrun⟩
      have hkeep := h₁.untouched hok hs fun i r hk => by cases hk
      refine ⟨hkeep.codes.trans hcodes, ?_, hkeep.sessions.trans hsessions⟩
      refine Eq.trans ?_ htokens
      have hreach₂ := (h₁.extend hok hs).reach
      rcases step_cases hs with ⟨req, _, rfl⟩ | ⟨i, call, op, cont, ans, post, ha, hi,
        hp, hans, hc₂⟩ |
        ⟨env, w, _, hw, rfl⟩
      · rfl
      · have hle : c₀.calls.length ≤ i := by
          rcases ha with rfl | ⟨r, rfl⟩ <;> cases hok <;> assumption
        have hharmless := h₁.harmless hi hle (by simp) hp
        have hpost : c₂.world = post := by rw [hc₂]; rfl
        rw [hpost]
        rcases hans with ⟨r, hexec⟩ | ⟨_, rfl⟩
        · refine Stmt.exec_refreshTokens_same hharmless (fun userId ref hop => ?_) hexec
          subst hop
          exact h₁.not_replay hcodes hi hle hreach₂ hc₂
        · rfl
      · exact (Env.apply_rows hw).2.2.1

end IdentityPlatform
