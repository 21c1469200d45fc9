/-
# Two verifiers, one verdict

The auth server looks the key of a token up by its name, the gateway in a fetched copy of
the published keys, and the gateway demands one claim more.  On a token that the server
has signed both come to the same verdict: they check it with the same key, the claims an
access token is signed with are all there, and an ID token lacks an identifier.
-/

import IdentityPlatform.Modules.Keys
import IdentityPlatform.Protocol.GatewayIdentity
import IdentityPlatform.Protocol.SigningKeys
import IdentityPlatform.Protocol.TokenConsumption

namespace IdentityPlatform

open Interleaving Program Relational Machine AuthServer

variable {P : Platform} {c c' : ServerConfig} {w : World} {config : GatewayConfig} {token : Jws}
  {payload : JwtPayload} {requiresScope : Bool}

/-! ### The verdict -/

/-- The identifier of the token is on the list of revoked ones. -/
def World.Denylisted (w : World) (payload : JwtPayload) : Prop :=
  ∃ jti, payload.jti = some jti ∧ w.redis.get w.now (.jtiRevoked jti) = some (.text "1")

/-- The time is in the window of the token, five seconds of tolerance at both ends. -/
def JwtPayload.InWindow (payload : JwtPayload) (now : ℕ) : Prop :=
  payload.nbf ≤ now / 1000 + 5 ∧ now / 1000 < payload.exp + 5

/-- The list of revoked tokens has the identifier, if the token has one. -/
def World.revokes (w : World) (payload : JwtPayload) : Bool :=
  (payload.jti.filter (· ≠ "")).any fun jti =>
    decide (w.redis.get w.now (.jtiRevoked jti) = some (.text "1"))

/-- The verdict on the claims of a token whose signature has been verified. -/
def verdict (P : Platform) (w : World) (payload : JwtPayload) (requiresScope : Bool) :
    Except Err JwtPayload :=
  match KmsStmt.verifyClaims P.config w.now payload requiresScope with
  | .ok payload =>
      if w.revokes payload then .error (.authError "Token has been revoked" "TOKEN_REVOKED")
      else .ok payload
  | .error e => .error e

/-- A statement that reads is decided by the state. -/
theorem Stmt.decides {s : Stmt} {r : Except Err s.Ans} (hids : s.uuidParams.all isUuid = true)
    (hnone : s.generates P w = none) (hsame : ∀ rnd, s.effect P rnd w = (r, w)) :
    (machine P).Decides (query s) w r := by
  intro r' w'
  rw [Stmt.runsAlone_iff hids hnone fun rnd => (hsame rnd).trans (hsame "").symm, hsame ""]

theorem isRevoked_decides {jti : String} :
    (machine P).Decides (TokenRevocationService.isRevoked jti) w
      (.ok (decide (w.redis.get w.now (.jtiRevoked jti) = some (.text "1")))) := by
  refine .bind (Stmt.decides rfl rfl fun _ => rfl) ?_
  intro r' w'
  rw [runsAlone_pure]
  cases hget : w.redis.get w.now (.jtiRevoked jti) with
  | none => simp
  | some value => cases value <;> simp

/-- Both verifiers end with the verdict on the claims. -/
theorem verdict_decides {kid : String} (hsigned : token ∈ w.signed) (halg : token.alg = "EdDSA")
    (hkid : token.kid = some kid) : (machine P).Decides (do
      let payload ← query (.kms (.jwtVerify kid token requiresScope))
      whenSome (payload.jti.filter (· ≠ "")) fun jti => do
        let revoked ← TokenRevocationService.isRevoked jti
        throwIf (revoked = true) (.authError "Token has been revoked" "TOKEN_REVOKED")
      pure payload) w (verdict P w token.payload requiresScope) := by
  have hclaims : (machine P).Decides (query (.kms (.jwtVerify kid token requiresScope))) w
      (KmsStmt.verifyClaims P.config w.now token.payload requiresScope) :=
    Stmt.decides rfl rfl fun _ => by simp [Stmt.effect, KmsStmt.effect, halg, hsigned, hkid]
  unfold verdict
  split
  · rename_i payload hok
    refine .bind (hok ▸ hclaims) ?_
    unfold World.revokes
    cases payload.jti.filter (· ≠ "") with
    | none => exact .bind decides_pure decides_pure
    | some jti =>
        simp only [Option.any_some]
        split_ifs with hrevoked
        · refine .bind_error (.bind isRevoked_decides ?_)
          simp only [throwIf, hrevoked, if_true]
          exact decides_throw
        · refine .bind (a := ()) (.bind isRevoked_decides ?_) decides_pure
          simp only [throwIf, hrevoked]
          exact decides_pure
  · rename_i e herror
    exact .bind_error (herror ▸ hclaims)

/-! ### The two verifiers -/

/-- **The verdict of the auth server.** -/
theorem verifyAccessToken_decides {kid : String} (hsigned : token ∈ w.signed)
    (halg : token.alg = "EdDSA") (hkid : token.kid = some kid) (hkey : kid ∈ w.signingKeys)
    (hname : kid ≠ "") : (machine P).Decides (JwtService.verifyAccessToken (.jws token)) w
      ((verdict P w token.payload false).mapError JwtService.mapJoseError) := by
  refine .mapError (.throwIf (fun _ => ?_) fun h => absurd halg h)
  have hfound : (machine P).Decides (JwtService.signingKey token.kid) w (.ok (some kid)) := by
    have hread : (machine P).Decides (query (.kms (.publicKey kid))) w (.ok kid) :=
      Stmt.decides rfl rfl fun _ => by simp [Stmt.effect, KmsStmt.effect, hkey]
    simp only [JwtService.signingKey, hkid, Option.filter_some, hname, ne_eq, not_false_eq_true,
      decide_true, if_true]
    exact .bind hread decides_pure
  exact .bind hfound (.bind decides_pure (verdict_decides hsigned halg hkid))

/-- **The verdict of the gateway.** -/
theorem verify_decides {kid : String} (hsigned : token ∈ w.signed) (halg : token.alg = "EdDSA")
    (hkid : token.kid = some kid) (hkey : config.jwks token = pure kid) :
    (machine P).Decides (RemoteTokenVerifier.verify config (.jws token)) w
      ((verdict P w token.payload true).mapError RemoteTokenVerifier.mapError) := by
  refine .mapError (.throwIf (fun _ => ?_) fun h => absurd halg h)
  rw [hkey]
  exact .bind decides_pure (verdict_decides hsigned halg hkid)

/-! ### Access tokens and ID tokens -/

/-- The claims `signAccessToken` signs for some input. -/
def JwtPayload.OfAccessToken (P : Platform) (payload : JwtPayload) : Prop :=
  ∃ input jti now, jti ≠ "" ∧
    payload = JwtService.accessTokenPayload P input jti now P.config.accessTokenTtl

/-- The claims `signIdToken` signs for some input. -/
def JwtPayload.OfIdToken (P : Platform) (payload : JwtPayload) : Prop :=
  ∃ claims audience subject now ttl,
    payload = JwtService.idTokenPayload P claims audience subject now ttl

/-- Every signed token is an access token or an ID token. -/
theorem signed_kind (hreach : (machine P).Reachable World.Initial c) (h : token ∈ c.world.signed) :
    token.payload.OfAccessToken P ∨ token.payload.OfIdToken P := by
  obtain ⟨j, issuer, n, pre, post, kid, hj, he⟩ := token_signed hreach h
  obtain ⟨l, hl, hjust⟩ := justified_event hreach.valid hj he
  rcases hjust with ⟨input, jti, now, _, hjti, _, hpayload⟩ | hid
  · left
    obtain ⟨m, pre', post', hmem⟩ := hjti.mono ((List.suffix_cons _ l).trans hl)
    have hform := (Stmt.randomUuid_answer (executed hreach.valid hj hmem)).form
    refine ⟨input, jti, now / 1000, ?_, hpayload⟩
    rintro rfl
    cases hform
  · exact .inr hid

/-- The claims of an access token are there: its window decides. -/
theorem JwtPayload.OfAccessToken.verifyClaims (h : payload.OfAccessToken P) (now : ℕ) :
    KmsStmt.verifyClaims P.config now payload requiresScope =
      if now / 1000 + 5 < payload.nbf then .error (.jose "ERR_JWT_CLAIM_VALIDATION_FAILED")
      else if payload.exp + 5 ≤ now / 1000 then .error (.jose "ERR_JWT_EXPIRED")
      else .ok payload := by
  obtain ⟨input, jti, iat, _, rfl⟩ := h
  simp [KmsStmt.verifyClaims, JwtService.accessTokenPayload]

/-- An access token is accepted in its window, unless it is on the list. -/
theorem JwtPayload.OfAccessToken.verdict_ok (h : payload.OfAccessToken P) :
    verdict P w payload requiresScope = .ok payload ↔
      payload.InWindow w.now ∧ ¬w.Denylisted payload := by
  have hlist : w.revokes payload = true ↔ w.Denylisted payload := by
    obtain ⟨input, jti, iat, hne, rfl⟩ := h
    simp [World.revokes, World.Denylisted, JwtService.accessTokenPayload, hne]
  unfold verdict
  rw [h.verifyClaims]
  split_ifs with hearly hlate
  · refine ⟨fun hok => absurd hok (by simp), fun hok => ?_⟩
    have hbegun : payload.nbf ≤ w.now / 1000 + 5 := hok.1.1
    omega
  · refine ⟨fun hok => absurd hok (by simp), fun hok => ?_⟩
    have hleft : w.now / 1000 < payload.exp + 5 := hok.1.2
    omega
  · have hwindow : payload.InWindow w.now := ⟨by omega, by omega⟩
    by_cases hrevoked : w.revokes payload = true
    · simp only [hrevoked, if_true, reduceCtorEq, false_iff]
      exact fun hok => hok.2 (hlist.1 hrevoked)
    · simp only [hrevoked]
      refine ⟨fun _ => ?_, fun _ => rfl⟩
      exact ⟨hwindow, fun hlisted => hrevoked (hlist.2 hlisted)⟩

/-- An access token has a scope, so the gateway comes to the same verdict. -/
theorem JwtPayload.OfAccessToken.verdict_scope (h : payload.OfAccessToken P) :
    verdict P w payload true = verdict P w payload false := by
  unfold verdict
  rw [h.verifyClaims, h.verifyClaims]

/-- An ID token lacks an identifier. -/
theorem JwtPayload.OfIdToken.verifyClaims (h : payload.OfIdToken P) (now : ℕ) :
    KmsStmt.verifyClaims P.config now payload requiresScope =
      .error (.jose "ERR_JWT_CLAIM_VALIDATION_FAILED") := by
  obtain ⟨claims, audience, subject, iat, ttl, rfl⟩ := h
  simp [KmsStmt.verifyClaims, JwtService.idTokenPayload]

/-- A verification that ends well has found an identifier, so the token is no ID token. -/
theorem JwtPayload.OfIdToken.not_accepted (h : token.payload.OfIdToken P) {l : ServerLog}
    {p : Prog JwtPayload} (hp : (machine P).Observes c [] p l (.ok payload) c')
    (hsaw : ∃ kid, l.Saw (.kms (.jwtVerify kid token requiresScope)) (.ok payload)) : False := by
  obtain ⟨kid, hsaw⟩ := hsaw
  obtain ⟨c₁, _, _, hans⟩ := hp.saw hsaw
  obtain ⟨hpayload, _, _, hclaims⟩ := Stmt.jwtVerify_answer (P := P) hans.exec
  rw [hpayload, h.verifyClaims] at hclaims
  cases hclaims

/-! ### The same verdict -/

/-- A verdict without its error. -/
theorem toOption_mapError {α : Type} {f : Err → Err} {r : Except Err α} :
    (r.mapError f).toOption = r.toOption := by
  cases r <;> rfl

/-- **Two verifiers, one verdict.**  After any run, with any keys rotated and any tokens
issued, both verifiers decide every signed token, and decide it alike: an access token is
accepted exactly in its window and off the list of revoked tokens, an ID token never, not
even by a verification during which the server goes on. -/
theorem verifiers_agree (hreach : (machine P).Reachable (fun w => w.Initial ∧ w.KeysNamed) c)
    (hjwks : config.Resolves c.world.jwks) (h : token ∈ c.world.signed) :
    (∃ r r', (machine P).Decides (JwtService.verifyAccessToken (.jws token)) c.world r ∧
      (machine P).Decides (RemoteTokenVerifier.verify config (.jws token)) c.world r' ∧
      r.toOption = r'.toOption ∧
      (token.payload.OfAccessToken P ∧
          (r = .ok token.payload ↔
            token.payload.InWindow c.world.now ∧ ¬c.world.Denylisted token.payload) ∨
        token.payload.OfIdToken P ∧ r.toOption = none)) ∧
    (token.payload.OfIdToken P → ∀ payload l c',
      ¬(machine P).Observes c [] (JwtService.verifyAccessToken (.jws token)) l (.ok payload) c' ∧
      ¬(machine P).Observes c [] (RemoteTokenVerifier.verify config (.jws token)) l
        (.ok payload) c') := by
  obtain ⟨hdistinct, hnamed⟩ := reachable_keysNamed hreach
  obtain ⟨w, hw, hrun⟩ := hreach
  have hreach : (machine P).Reachable World.Initial c := ⟨w, hw.1, hrun⟩
  obtain ⟨halg, kid, hkey, hkid⟩ := signed_key hreach h
  have hname : kid ≠ "" := fun hempty => hnamed (hempty ▸ hkey)
  have hresolved : config.jwks token = pure kid :=
    hjwks token _ (World.candidates_jwks hdistinct halg hkid hkey)
  refine ⟨⟨_, _, verifyAccessToken_decides h halg hkid hkey hname,
    verify_decides h halg hkid hresolved, ?_, ?_⟩,
    fun hid payload l c' => ⟨fun hp => ?_, fun hp => ?_⟩⟩
  · rw [toOption_mapError, toOption_mapError]
    rcases signed_kind hreach h with haccess | hid
    · rw [haccess.verdict_scope]
    · simp only [verdict, hid.verifyClaims]
  · rcases signed_kind hreach h with haccess | hid
    · refine .inl ⟨haccess, ?_⟩
      rw [← haccess.verdict_ok]
      cases verdict P c.world token.payload false <;> simp [Except.mapError]
    · refine .inr ⟨hid, ?_⟩
      rw [toOption_mapError]
      simp only [verdict, hid.verifyClaims]
      rfl
  · obtain ⟨jws, hwire, haccepted⟩ := JwtService.verifyAccessToken_ok hp.returns
    cases hwire
    exact hid.not_accepted hp haccepted.verified
  · obtain ⟨jws, kid', hwire, hsaw⟩ := verify_ok hp.returns
    cases hwire
    exact hid.not_accepted hp ⟨kid', hsaw⟩

/-- A user logs in, the key is rotated, and a client gets an access token and an ID token. -/
def rotationMoves : List (Move World Incoming Env) :=
  loginMoves 0 "al@x.io" "Al 1" ++ [.env (.rotateSigningKey "sig-2")] ++
    authorizeMoves 1 "openid" none ++ exchangeMoves 2

theorem World.keysNamed_sample : World.sample.KeysNamed := ⟨by decide, by decide⟩

/-- The token of the login, signed with the old key, and the ID token. -/
theorem verifiers_agree_of_rotation :
    ∃ (c : ServerConfig) (access id : Jws), sampleRun rotationMoves = some c ∧
      access.kid = some "sig-1" ∧ id.kid = some "sig-2" ∧
      (∃ r r', (machine .sample).Decides (JwtService.verifyAccessToken (.jws access)) c.world r ∧
        (machine .sample).Decides (RemoteTokenVerifier.verify
          (.fetched c.world.jwks .raw) (.jws access)) c.world r' ∧ r.toOption = r'.toOption) ∧
      ∃ r r', (machine .sample).Decides (JwtService.verifyAccessToken (.jws id)) c.world r ∧
        (machine .sample).Decides (RemoteTokenVerifier.verify
          (.fetched c.world.jwks .raw) (.jws id)) c.world r' ∧ r.toOption = r'.toOption := by
  have hplay : (sampleRun rotationMoves).any (fun c =>
      (c.world.signed.getLast?).any fun access => (c.world.signed.head?).any fun id =>
        decide (access.kid = some "sig-1" ∧ id.kid = some "sig-2")) = true := by
    decide +kernel
  obtain ⟨c, hc, hsigned⟩ := (Option.any_eq_true _ _).1 hplay
  obtain ⟨access, haccess, hid⟩ := (Option.any_eq_true _ _).1 hsigned
  obtain ⟨id, hid, hkids⟩ := (Option.any_eq_true _ _).1 hid
  obtain ⟨hold, hnew⟩ := of_decide_eq_true hkids
  have hreach : (machine .sample).Reachable (fun w => w.Initial ∧ w.KeysNamed) c :=
    ⟨_, ⟨World.initial_sample, World.keysNamed_sample⟩, run_of_play hc⟩
  have hjwks := GatewayConfig.fetched_resolves c.world.jwks .raw
  obtain ⟨⟨r, r', hr, hr', heq, _⟩, _⟩ :=
    verifiers_agree hreach hjwks (List.mem_of_getLast? haccess)
  obtain ⟨⟨q, q', hq, hq', heq', _⟩, _⟩ := verifiers_agree hreach hjwks (List.mem_of_head? hid)
  exact ⟨c, access, id, hc, hold, hnew, ⟨r, r', hr, hr', heq⟩, q, q', hq, hq', heq'⟩

end IdentityPlatform
