/-
# How long a revoked token stays revoked

The entry of a revoked token expires with the token, to the second, and the verifiers go on
accepting the token for five seconds more.  So it comes back when the entry is gone before the
window is over, unless the entry was stored late; and a verification that reads the list late
enough accepts it in any case, as long as the window was open when it began
(`revoked_for_good_iff`).
-/

import IdentityPlatform.Protocol.LoginRoots
import IdentityPlatform.Protocol.Origins
import IdentityPlatform.Protocol.Verifiers

namespace IdentityPlatform

open Interleaving Program Relational Machine AuthServer

variable {P : Platform} {c c' : ServerConfig} {w w' : World} {i : ℕ} {call : ServerCall}
  {token : Jws} {jti : String} {ttl : ℕ}

/-! ### Revocations -/

/-- `OAuthService.revoke` has just put the identifier of the token on the list, for `ttl`
seconds. -/
structure Denylists (c : ServerConfig) (call : ServerCall) (token : Jws) (jti : String) (ttl : ℕ) :
    Prop where
  request : call.req.request = .revoke (.jws token)
  stored : ∃ n pre, (⟨n, pre, .redis (.set (.jtiRevoked jti) (.text "1") (some ttl)), .ok (),
    c.world⟩ : ServerEvent) ∈ call.log

/-- No verification that starts in `c` or later accepts the token, neither at the auth server nor
at a gateway. -/
def NeverAccepted (P : Platform) (c : ServerConfig) (token : Jws) : Prop :=
  ∀ payload l c',
    ¬(machine P).Observes c [] (JwtService.verifyAccessToken (.jws token)) l (.ok payload) c' ∧
    ∀ config, ¬(machine P).Observes c [] (RemoteTokenVerifier.verify config (.jws token)) l
      (.ok payload) c'

/-- No call since `c` has put the identifier on the list again. -/
def NotRelisted (c c' : ServerConfig) (jti : String) : Prop :=
  ∀ (j : ℕ) call, c'.calls[j]? = some call → ∀ e ∈ call.log, c.seq ≤ e.seq →
    ∀ value ttl, e.op ≠ .redis (.set (.jtiRevoked jti) value ttl)

/-- No verification that takes no time accepts the token after `c`, while the entry is the one that
was stored. -/
def NeverAcceptedAtOnce (P : Platform) (c : ServerConfig) (token : Jws) (jti : String) : Prop :=
  ∀ c', (machine P).Run c c' → NotRelisted c c' jti → ∀ payload,
    ¬(machine P).Decides (JwtService.verifyAccessToken (.jws token)) c'.world (.ok payload) ∧
    ∀ config : GatewayConfig, config.Resolves c'.world.jwks →
      ¬(machine P).Decides (RemoteTokenVerifier.verify config (.jws token)) c'.world (.ok payload)

/-- What is known of a token that has been put on the list. -/
structure Listed (P : Platform) (w : World) (token : Jws) (jti : String) (ttl : ℕ) : Prop where
  access : token.payload.OfAccessToken P
  signed : token ∈ w.signed
  identifier : token.payload.jti = some jti
  begun : token.payload.nbf ≤ w.now / 1000 + 5
  lifetime : ∃ now ≤ w.now, ttl = TokenRevocationService.ttl token.payload.exp now
  entry : w.redis.stored (.jtiRevoked jti) = some ⟨.text "1", some (w.now + ttl * 1000)⟩

/-- **A revoked token has been verified, and its entry lives as long as it was told to.** -/
theorem Denylists.listed (h : Denylists c call token jti ttl)
    (hreach : (machine P).Reachable World.Initial c) (hi : c.calls[i]? = some call) :
    Listed P c.world token jti ttl := by
  have hv := hreach.valid
  have hord := hreach.ordered (le_stable P)
  obtain ⟨n, pre, hmem⟩ := h.stored
  obtain ⟨l, hl, hjust⟩ := justified_event hv hi hmem
  obtain ⟨token', payload, now, hrequest, haccepted, hjti, hclock, _, httl⟩ := hjust.revoked
  cases h.request.symm.trans hrequest
  have hlog := (List.suffix_cons _ l).trans hl
  obtain ⟨rfl, haccess⟩ := verified_access hv hi (haccepted.mono hlog)
  obtain ⟨kid, hverified⟩ := (haccepted.mono hlog).verified
  obtain ⟨_, w₁, w₁', hverify, hans₁⟩ := answered hv hi hverified
  obtain ⟨_, hsigned₁, _, hclaims⟩ := Stmt.jwtVerify_answer hans₁
  have hle₁ : w₁.Le c.world := (hord.answer hi _ hverify).trans (hord.post hi _ hverify)
  have hsigned := hle₁.signed hsigned₁
  have hkind := (signed_kind hreach hsigned).resolve_right haccess
  obtain ⟨_, w₂, w₂', hread, hans₂⟩ := answered hv hi (hclock.mono hlog)
  obtain rfl := Stmt.dateNow_answer hans₂
  have hle₂ : w₂.Le c.world := (hord.answer hi _ hread).trans (hord.post hi _ hread)
  refine ⟨hkind, hsigned, hjti, ?_, ⟨w₂.now, hle₂.now, Option.some.inj httl⟩, ?_⟩
  · rw [hkind.verifyClaims] at hclaims
    have hnow : w₁.now ≤ c.world.now := hle₁.now
    split_ifs at hclaims with hearly
    omega
  · obtain ⟨r, ledger, _, hpost, _⟩ := (executed hv hi hmem).effect
    have hpos : ttl ≠ 0 := by
      rw [Option.some.inj httl]
      simp [TokenRevocationService.ttl]
    rw [hpost]
    simp [Stmt.effect, RedisStmt.effect, Cache.set, Cache.stored_cons_self, hpos]

/-! ### The entry stays -/

/-- The statement may change the entry of `jti` on the list. -/
def Stmt.relists (jti : String) : Stmt → Prop
  | .redis (.set key ..) | .redis (.del key) | .redis (.setAdd key _) | .redis (.setExpire key _) =>
      key = .jtiRevoked jti
  | _ => False

/-- A call changes an entry by storing it. -/
theorem Stmt.relists_of_origin {s : Stmt} {request : Request} {l : ServerLog} (h : s.relists jti)
    (horigin : Origin P request l s) :
    ∃ value ttl, s = .redis (.set (.jtiRevoked jti) value ttl) := by
  unfold Stmt.relists at h
  split at h
  · exact ⟨_, _, by rw [h]⟩
  · subst h
    exact horigin.elim
  · subst h
    exact horigin.elim
  · subst h
    exact horigin.elim
  · exact h.elim

theorem Stmt.exec_listed {s : Stmt} {r : String} {ans : Except Err s.Ans}
    (h : s.exec P r w = some (ans, w')) (hother : ¬s.relists jti) :
    w'.redis.stored (.jtiRevoked jti) = w.redis.stored (.jtiRevoked jti) := by
  rcases exec_cases h with ⟨_, rfl⟩ | ⟨_, _, ledger, rfl, _⟩
  · rfl
  · cases s with
    | redis u =>
        cases u with
        | getText | getSession | getChallenge | setSize => rfl
        | set key => exact Cache.stored_cons_del_ne (Ne.symm hother)
        | del key => exact Cache.stored_del_ne (Ne.symm hother)
        | delSessions =>
            simp only [effect, RedisStmt.effect]
            exact Cache.stored_delWhere rfl
        | setExpire key => exact Cache.stored_expire_ne (Ne.symm hother)
        | setAdd key member =>
            simp only [effect, RedisStmt.effect]
            split_ifs
            · rfl
            · exact Cache.stored_cons_del_ne (Ne.symm hother)
    | _ => rfl

theorem Env.apply_listed {env : Env} (h : env.apply w = some w') :
    w'.redis.stored (.jtiRevoked jti) = w.redis.stored (.jtiRevoked jti) := by
  cases env with
  | tick ms => cases h; rfl
  | setSessionCache id entry =>
      cases entry with
      | none =>
          cases h
          exact Cache.stored_del_ne (by simp)
      | some entry =>
          cases h
          exact Cache.stored_cons_del_ne (by simp)
  | rotateSigningKey kid =>
      simp only [Env.apply] at h
      split_ifs at h
      cases h
      rfl

/-- **Nothing takes a token off the list**: its entry is the one that was stored, until it is
stored again. -/
theorem NotRelisted.stored (h : NotRelisted c c' jti)
    (hreach : (machine P).Reachable World.Initial c) (hrun : (machine P).Run c c') :
    c'.world.redis.stored (.jtiRevoked jti) = c.world.redis.stored (.jtiRevoked jti) := by
  refine (hrun.assertion (R := fun _ _ => True)
    (J := fun w => w.redis.stored (.jtiRevoked jti) = c.world.redis.stored (.jtiRevoked jti))
    (G := fun _ _ (e : ServerEvent) => ∀ value ttl,
      e.op ≠ .redis (.set (.jtiRevoked jti) value ttl))
    stable_true hreach.valid rfl ?_ (fun e w w' henv hw => (Env.apply_listed henv).trans hw) ?_).1
  · rintro req l e ⟨j, call, hj, _, hl, hle⟩
    exact h j call hj e (hl.subset (List.mem_cons_self ..)) hle
  · rintro req l e hreached _ hpre hset (⟨r, hexec⟩ | ⟨_, hsame⟩)
    · refine (Stmt.exec_listed hexec fun hrelists => ?_).trans hpre
      obtain ⟨value, ttl, hop⟩ :=
        Stmt.relists_of_origin hrelists (handler_origins req l e.op hreached)
      exact hset value ttl hop
    · exact hsame ▸ hpre

/-! ### Verifications -/

theorem Decides.unique {α : Type} {p : Prog α} {r r' : Except Err α}
    (h : (machine P).Decides p w r) (h' : (machine P).Decides p w r') : r = r' :=
  ((h' r w).1 ((h r w).2 ⟨rfl, rfl⟩)).1

/-- While the entry is stored, the token is on the list until the entry expires. -/
theorem denylisted_iff {expiresAt : ℕ} (hjti : token.payload.jti = some jti)
    (h : w.redis.stored (.jtiRevoked jti) = some ⟨.text "1", some expiresAt⟩) :
    w.Denylisted token.payload ↔ w.now < expiresAt := by
  have hget : w.redis.get w.now (.jtiRevoked jti) = some (.text "1") ↔ w.now < expiresAt := by
    rw [Cache.get_eq_entry, Cache.entry, h]
    by_cases hlt : w.now < expiresAt <;> simp [Option.filter_some, Cache.alive, hlt]
  rw [← hget]
  constructor
  · rintro ⟨jti', hjti', hlisted⟩
    obtain rfl : jti' = jti := Option.some.inj (hjti'.symm.trans hjti)
    exact hlisted
  · exact fun hlisted => ⟨jti, hjti, hlisted⟩

/-- The environment waits. -/
def ServerConfig.later (c : ServerConfig) (ms : ℕ) : ServerConfig :=
  { c with world := { c.world with now := c.world.now + ms }, seq := c.seq + 1 }

theorem run_later (ms : ℕ) : (machine P).Run c (c.later ms) :=
  .tail (a := .env (.tick ms)) (.refl c) trivial rfl

/-- The state answers a statement that only reads. -/
theorem Stmt.answers_read {s : Stmt} {a : s.Ans} (hids : s.uuidParams.all isUuid = true)
    (hnone : s.generates P w = none) (hread : s.effect P "" w = (.ok a, w)) :
    (machine P).Answers s w (.ok a) w := by
  refine .inl ⟨"", ?_⟩
  change s.exec P "" w = _
  simp only [Stmt.exec, hids, hnone, if_true, hread]

/-- **A verification that reads the list late accepts the token**, if the window was open when it
began. -/
theorem Listed.observed (h : Listed P c.world token jti ttl)
    (hreach : (machine P).Reachable (fun w => w.Initial ∧ w.KeysNamed) c)
    (hopen : c.world.now / 1000 < token.payload.exp + 5) : ∃ l,
      (machine P).Observes c [] (JwtService.verifyAccessToken (.jws token)) l (.ok token.payload)
        (c.later (ttl * 1000)) := by
  obtain ⟨halg, kid, hkey, hkid⟩ := signed_key (hreach.imp fun _ => And.imp_left And.left) h.signed
  have hname : kid ≠ "" := fun hempty => (reachable_keysNamed hreach).2 (hempty ▸ hkey)
  obtain ⟨_, jti', _, hne, hpayload⟩ := h.access
  have hidentifier : token.payload.jti.filter (· ≠ "") = some jti := by
    have hsame : jti' = jti := by
      have hid := h.identifier
      rw [hpayload] at hid
      exact Option.some.inj hid
    rw [h.identifier]
    simp [← hsame, hne]
  have hfound : (machine P).Answers (.kms (.publicKey kid)) c.world (.ok kid) c.world :=
    Stmt.answers_read rfl rfl (by simp [Stmt.effect, KmsStmt.effect, hkey])
  have hverified : (machine P).Answers (.kms (.jwtVerify kid token false)) c.world
      (.ok token.payload) c.world := by
    refine Stmt.answers_read rfl rfl ?_
    have hbegun := h.begun
    have hclaims : KmsStmt.verifyClaims P.config c.world.now token.payload false =
        .ok token.payload := by
      rw [h.access.verifyClaims, if_neg (by omega), if_neg (by omega)]
    simp [Stmt.effect, KmsStmt.effect, halg, h.signed, hkid, hclaims]
  -- the list is read when the entry is gone
  have hgone : (machine P).Answers (.redis (.getText (.jtiRevoked jti)))
      (c.later (ttl * 1000)).world (.ok none) (c.later (ttl * 1000)).world := by
    refine Stmt.answers_read rfl rfl ?_
    have hget : c.world.redis.get (c.world.now + ttl * 1000) (.jtiRevoked jti) = none := by
      rw [Cache.get_eq_entry, Cache.entry, h.entry]
      simp [Option.filter_some, Cache.alive]
    simp [Stmt.effect, RedisStmt.effect, ServerConfig.later, hget]
  have hthrow : (machine P).Observes c [] (throwIf (token.alg ≠ "EdDSA")
      (.authError "Unsupported token algorithm" "UNSUPPORTED_TOKEN_ALG")) [] (.ok ()) c := by
    rw [throwIf, if_neg (not_not.2 halg)]
    exact .done (.refl c)
  obtain ⟨l₁, hsigning⟩ : ∃ l₁, (machine P).Observes c [] (JwtService.signingKey token.kid) l₁
      (.ok (some kid)) c := by
    simp only [JwtService.signingKey, hkid, Option.filter_some, hname, ne_eq, not_false_eq_true,
      decide_true, if_true]
    exact ⟨_, .bind (.perform hfound) (.done (.refl c))⟩
  obtain ⟨l₂, hverify⟩ : ∃ l₂, (machine P).Observes c l₁ (query (.kms (.jwtVerify kid token false)))
      l₂ (.ok token.payload) c := ⟨_, .perform hverified⟩
  obtain ⟨l₃, hlist⟩ : ∃ l₃, (machine P).Observes c l₂
      (whenSome (token.payload.jti.filter (· ≠ "")) fun jti => do
        let revoked ← TokenRevocationService.isRevoked jti
        throwIf (revoked = true) (.authError "Token has been revoked" "TOKEN_REVOKED"))
      l₃ (.ok ()) (c.later (ttl * 1000)) := by
    rw [hidentifier]
    exact ⟨_, .bind (.bind ((Observes.perform hgone).after (run_later _)) (.done (.refl _)))
      (.done (.refl _))⟩
  have hkid : (machine P).Observes c l₁ (orThrow (some kid)
      (.authError "Unknown signing key" "UNKNOWN_SIGNING_KEY")) l₁ (.ok kid) c := .done (.refl c)
  exact ⟨l₃, .tryCatch (.bind hthrow (.bind hsigning (.bind hkid (.bind hverify
    (.bind hlist (.done (.refl _)))))))⟩

/-- A verification that accepts the token has found its window open. -/
theorem open_of_observed {payload : JwtPayload} {requiresScope : Bool} {p : Prog JwtPayload}
    {l : ServerLog} (haccess : token.payload.OfAccessToken P)
    (h : (machine P).Observes c [] p l (.ok payload) c')
    (hsaw : ∃ kid, l.Saw (.kms (.jwtVerify kid token requiresScope)) (.ok payload)) :
    c.world.now / 1000 < token.payload.exp + 5 := by
  obtain ⟨kid, hsaw⟩ := hsaw
  obtain ⟨c₁, hrun, _, hans⟩ := h.saw hsaw
  obtain ⟨rfl, _, _, hclaims⟩ := Stmt.jwtVerify_answer (P := P) hans.exec
  rw [haccess.verifyClaims] at hclaims
  have hnow : c.world.now ≤ c₁.world.now := ((le_stable P).runs hrun).now
  split_ifs at hclaims with hearly hlate
  omega

/-- A verdict that accepts an access token has found it in its window and off the list. -/
theorem verdict_accepts {payload : JwtPayload} {requiresScope : Bool} {f : Err → Err}
    (haccess : token.payload.OfAccessToken P)
    (h : (verdict P w token.payload requiresScope).mapError f = .ok payload) :
    token.payload.InWindow w.now ∧ ¬w.Denylisted token.payload := by
  cases hverdict : verdict P w token.payload requiresScope with
  | error e =>
      rw [hverdict] at h
      cases h
  | ok accepted =>
      have hsame : accepted = token.payload := by
        unfold verdict at hverdict
        rw [haccess.verifyClaims] at hverdict
        split_ifs at hverdict
        simp only at hverdict
        split_ifs at hverdict
        exact (Except.ok.inj hverdict).symm
      exact haccess.verdict_ok.1 (hsame ▸ hverdict)

/-- **A verification of a listed token that takes no time** accepts it exactly in its window, and
when its entry is gone. -/
theorem Listed.decided (h : Listed P c.world token jti ttl)
    (hreach : (machine P).Reachable (fun w => w.Initial ∧ w.KeysNamed) c)
    (hrun : (machine P).Run c c') (hentry : NotRelisted c c' jti) :
    ((∃ payload, (machine P).Decides (JwtService.verifyAccessToken (.jws token)) c'.world
        (.ok payload) ∨ ∃ config : GatewayConfig, config.Resolves c'.world.jwks ∧
          (machine P).Decides (RemoteTokenVerifier.verify config (.jws token)) c'.world
            (.ok payload)) ↔
      token.payload.InWindow c'.world.now ∧ c.world.now + ttl * 1000 ≤ c'.world.now) := by
  have hinit : (machine P).Reachable World.Initial c := hreach.imp fun _ => And.imp_left And.left
  have hreach' := hreach.run hrun
  obtain ⟨hdistinct, hnamed⟩ := reachable_keysNamed hreach'
  have hsigned : token ∈ c'.world.signed := ((le_stable P).runs hrun).signed h.signed
  obtain ⟨halg, kid, hkey, hkid⟩ := signed_key (hinit.run hrun) hsigned
  have hname : kid ≠ "" := fun hempty => hnamed (hempty ▸ hkey)
  have hdecides := verifyAccessToken_decides (P := P) hsigned halg hkid hkey hname
  have hgone : ¬c'.world.Denylisted token.payload ↔ c.world.now + ttl * 1000 ≤ c'.world.now := by
    rw [denylisted_iff h.identifier ((hentry.stored hinit hrun).trans h.entry), Nat.not_lt]
  rw [← hgone]
  constructor
  · rintro ⟨payload, hp | ⟨config, hconfig, hp⟩⟩
    · exact verdict_accepts h.access (Decides.unique hdecides hp)
    · have hresolved : config.jwks token = pure kid :=
        hconfig token _ (World.candidates_jwks hdistinct halg hkid hkey)
      have hremote := verify_decides (P := P) hsigned halg hkid hresolved
      exact verdict_accepts h.access (Decides.unique hremote hp)
  · intro hopen
    rw [h.access.verdict_ok.2 hopen] at hdecides
    exact ⟨_, .inl hdecides⟩

/-- A token whose entry is gone before its window is over comes back. -/
theorem Listed.comes_back (h : Listed P c.world token jti ttl)
    (hreach : (machine P).Reachable (fun w => w.Initial ∧ w.KeysNamed) c)
    (hshort : c.world.now + ttl * 1000 < (token.payload.exp + 5) * 1000) :
    ¬NeverAcceptedAtOnce P c token jti := by
  intro hnever
  have hquiet : NotRelisted c (c.later (ttl * 1000)) jti := fun j call hj e he hle =>
    absurd (hreach.valid.seq_lt hj e he) (Nat.not_lt.2 hle)
  have hbegun := h.begun
  have hnow : (c.later (ttl * 1000)).world.now = c.world.now + ttl * 1000 := rfl
  obtain ⟨payload, haccepted⟩ := (h.decided hreach (run_later _) hquiet).2
    ⟨⟨by rw [hnow]; omega, by rw [hnow]; omega⟩, hnow.ge⟩
  rcases haccepted with hp | ⟨config, hconfig, hp⟩
  · exact (hnever _ (run_later _) hquiet payload).1 hp
  · exact (hnever _ (run_later _) hquiet payload).2 config hconfig hp

/-- **When a revoked token stays revoked.**  Verifications that may take any time accept the token
again unless its window is over when it is put on the list.  Those that take no time accept it
again, unless the entry lives until the window is over. -/
theorem revoked_for_good_iff
    (hreach : (machine P).Reachable (fun w => w.Initial ∧ w.KeysNamed) c)
    (hi : c.calls[i]? = some call) (h : Denylists c call token jti ttl) :
    (NeverAccepted P c token ↔ token.payload.exp + 5 ≤ c.world.now / 1000) ∧
    (NeverAcceptedAtOnce P c token jti ↔
      (token.payload.exp + 5) * 1000 ≤ c.world.now + ttl * 1000) ∧
    ∃ now ≤ c.world.now, ttl = TokenRevocationService.ttl token.payload.exp now := by
  have hinit : (machine P).Reachable World.Initial c := hreach.imp fun _ => And.imp_left And.left
  have hlisted := h.listed hinit hi
  refine ⟨⟨fun hnever => ?_, fun hover payload l c' => ⟨fun hp => ?_, fun config hp => ?_⟩⟩,
    ⟨fun hnever => ?_, fun hlives c' hrun hentry payload => ?_⟩, hlisted.lifetime⟩
  · by_contra hopen
    obtain ⟨l, hobserved⟩ := hlisted.observed hreach (Nat.not_le.1 hopen)
    exact (hnever _ _ _).1 hobserved
  · obtain ⟨jws, hwire, haccepted⟩ := JwtService.verifyAccessToken_ok hp.returns
    cases hwire
    exact absurd (open_of_observed hlisted.access hp haccepted.verified) (Nat.not_lt.2 hover)
  · obtain ⟨jws, kid, hwire, hsaw⟩ := verify_ok hp.returns
    cases hwire
    exact absurd (open_of_observed hlisted.access hp ⟨kid, hsaw⟩) (Nat.not_lt.2 hover)
  · by_contra hshort
    exact hlisted.comes_back hreach (Nat.not_le.1 hshort) hnever
  · have hclosed : ¬(token.payload.InWindow c'.world.now ∧
        c.world.now + ttl * 1000 ≤ c'.world.now) := by
      rintro ⟨⟨_, hopen⟩, hgone⟩
      omega
    rw [← hlisted.decided hreach hrun hentry] at hclosed
    exact ⟨fun hp => hclosed ⟨payload, .inl hp⟩,
      fun config hconfig hp => hclosed ⟨payload, .inr ⟨config, hconfig, hp⟩⟩⟩

/-- Call 1 revokes the token of a login, and has just put it on the list. -/
def denylistMoves : List (Move World Incoming Env) :=
  loginMoves 0 "al@x.io" "Al 1" ++ [.accept fun w => ⟨.revoke ((lastBearer w).getD (.raw "")), {}⟩,
    .steps 1 9]

/-- The token, its identifier and the lifetime, if the call has just put it on the list. -/
def justListed? (c : ServerConfig) (call : ServerCall) : Option (Jws × String × ℕ) :=
  match call.req.request, call.log.head? with
  | .revoke (.jws token),
      some ⟨n, _, .redis (.set (.jtiRevoked jti) (.text "1") (some ttl)), .ok (), _⟩ =>
        if n + 1 = c.seq then some (token, jti, ttl) else none
  | _, _ => none

theorem justListed?_eq_some (hreach : (machine P).Reachable World.Initial c)
    (hi : c.calls[i]? = some call) (h : justListed? c call = some (token, jti, ttl)) :
    Denylists c call token jti ttl := by
  unfold justListed? at h
  split at h
  · rename_i token' n pre jti' ttl' post hrequest hhead
    split_ifs at h with hseq
    obtain ⟨rfl, rfl, rfl⟩ := Prod.mk.inj (Option.some.inj h) |>.imp_right Prod.mk.inj
    have hmem := List.mem_of_head? hhead
    obtain rfl : c.world = post := hreach.last hi hmem hseq
    exact ⟨hrequest, n, pre, hmem⟩
  · cases h

/-- A token that is revoked as soon as it has been issued. -/
theorem revoked_for_good_iff_of_login :
    ∃ (c : ServerConfig) (call : ServerCall) (token : Jws) (jti : String) (ttl : ℕ),
      sampleRun denylistMoves = some c ∧ c.calls[1]? = some call ∧ Denylists c call token jti ttl ∧
      (NeverAccepted .sample c token ↔ token.payload.exp + 5 ≤ c.world.now / 1000) ∧
      (NeverAcceptedAtOnce .sample c token jti ↔
        (token.payload.exp + 5) * 1000 ≤ c.world.now + ttl * 1000) := by
  have hplay : (sampleRun denylistMoves).any (fun c => (c.calls[1]?).any fun call =>
      (justListed? c call).isSome) = true := by
    decide +kernel
  obtain ⟨c, hc, hcall⟩ := (Option.any_eq_true _ _).1 hplay
  obtain ⟨call, hi, hlisted⟩ := (Option.any_eq_true _ _).1 hcall
  obtain ⟨⟨token, jti, ttl⟩, hsome⟩ := Option.isSome_iff_exists.1 hlisted
  have hreach : (machine .sample).Reachable (fun w => w.Initial ∧ w.KeysNamed) c :=
    ⟨_, ⟨World.initial_sample, World.keysNamed_sample⟩, run_of_play hc⟩
  have hdenylists := justListed?_eq_some (sampleRun_reachable hc) hi hsome
  obtain ⟨hany, honce, _⟩ := revoked_for_good_iff hreach hi hdenylists
  exact ⟨c, call, token, jti, ttl, hc, hi, hdenylists, hany, honce⟩

/-- **A revoked token comes back** for the last five seconds of its window: its entry is gone,
and a verification that takes no time accepts it. -/
theorem revoked_token_comes_back :
    ∃ (c : ServerConfig) (call : ServerCall) (token : Jws) (jti : String) (ttl : ℕ),
      sampleRun denylistMoves = some c ∧ c.calls[1]? = some call ∧ Denylists c call token jti ttl ∧
      ¬NeverAccepted .sample c token ∧ ¬NeverAcceptedAtOnce .sample c token jti := by
  have hplay : (sampleRun denylistMoves).any (fun c => (c.calls[1]?).any fun call =>
      (justListed? c call).any fun x => decide (c.world.now + x.2.2 * 1000 <
        (x.1.payload.exp + 5) * 1000)) = true := by
    decide +kernel
  obtain ⟨c, hc, hcall⟩ := (Option.any_eq_true _ _).1 hplay
  obtain ⟨call, hi, hlisted⟩ := (Option.any_eq_true _ _).1 hcall
  obtain ⟨⟨token, jti, ttl⟩, hsome, hshort⟩ := (Option.any_eq_true _ _).1 hlisted
  have hlives : c.world.now + ttl * 1000 < (token.payload.exp + 5) * 1000 :=
    of_decide_eq_true hshort
  have hreach : (machine .sample).Reachable (fun w => w.Initial ∧ w.KeysNamed) c :=
    ⟨_, ⟨World.initial_sample, World.keysNamed_sample⟩, run_of_play hc⟩
  have hdenylists := justListed?_eq_some (sampleRun_reachable hc) hi hsome
  have hlisted := hdenylists.listed (sampleRun_reachable hc) hi
  refine ⟨c, call, token, jti, ttl, hc, hi, hdenylists, fun hnever => ?_,
    hlisted.comes_back hreach hlives⟩
  obtain ⟨l, hobserved⟩ := hlisted.observed hreach (by omega)
  exact (hnever _ _ _).1 hobserved

end IdentityPlatform
