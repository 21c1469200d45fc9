/-
# The keys of signed tokens

The key service only adds keys.  A token is signed with the key that the same call has
been told to be the current one (`handler_detailed`), so whatever is rotated in between and
afterwards, the key of every signed token is among the keys the server publishes
(`signed_key`).
-/

import IdentityPlatform.Protocol.SessionTokens

namespace IdentityPlatform

open Interleaving Program Relational Machine AuthServer

variable {P : Platform} {c : ServerConfig}

/-! ### Keys are only added -/

/-- The first use of the key service makes a key; apart from that, statements leave the
keys alone. -/
theorem Stmt.exec_signingKeys {s : Stmt} {r : String} {w w' : World} {ans : Except Err s.Ans}
    (h : s.exec P r w = some (ans, w')) : w'.signingKeys = w.signingKeys ∨
      w.signingKeys = [] ∧ w'.signingKeys = [r] ∧ r ≠ "" := by
  rcases Stmt.exec_cases h with ⟨_, rfl⟩ | ⟨_, _, ledger, rfl, hledger⟩
  · exact .inl rfl
  · cases s with
    | kms u =>
        cases u with
        | currentSigningKey =>
            cases hkeys : w.signingKeys with
            | cons kid keys =>
                left
                simp [Stmt.effect, KmsStmt.effect, hkeys]
            | nil =>
                right
                refine ⟨rfl, by simp [Stmt.effect, KmsStmt.effect, hkeys], ?_⟩
                rcases hledger with ⟨hnone, _⟩ | ⟨form, hform, hr, _⟩
                · rw [Stmt.generates, if_pos hkeys] at hnone
                  cases hnone
                · rw [Stmt.generates, if_pos hkeys] at hform
                  obtain rfl := Option.some.inj hform
                  simpa using hr
        | _ => exact .inl rfl
    | _ => exact .inl rfl

theorem AuthServer.Env.apply_signingKeys {e : Env} {w w' : World} (h : e.apply w = some w') :
    w'.signingKeys = w.signingKeys ∨
      ∃ kid, w'.signingKeys = kid :: w.signingKeys ∧ kid ≠ "" ∧ kid ∉ w.signingKeys := by
  cases e with
  | tick ms =>
      obtain rfl := Option.some.inj h
      exact .inl rfl
  | setSessionCache id entry =>
      cases entry <;>
        · obtain rfl := Option.some.inj h
          exact .inl rfl
  | rotateSigningKey kid =>
      simp only [Env.apply] at h
      split_ifs at h with hnew
      obtain rfl := Option.some.inj h
      exact .inr ⟨kid, rfl, hnew.1, hnew.2.1⟩

/-- A key stays published, whatever is rotated. -/
theorem keys_stable (P : Platform) :
    (machine P).Stable fun w w' => w.signingKeys <:+ w'.signingKeys where
  refl w := List.suffix_refl _
  trans h h' := h.trans h'
  exec h := by
    rcases Stmt.exec_signingKeys h with hsame | ⟨hnone, _, _⟩
    · exact hsame ▸ List.suffix_refl _
    · exact hnone ▸ List.nil_suffix
  env h := by
    rcases Env.apply_signingKeys h with hsame | ⟨kid, hnew, _⟩
    · exact hsame ▸ List.suffix_refl _
    · exact hnew ▸ List.suffix_cons kid _

/-- The keys have names, no two the same. -/
structure World.KeysNamed (w : World) : Prop where
  distinct : w.signingKeys.Nodup
  named : "" ∉ w.signingKeys

theorem reachable_keysNamed
    (hreach : (machine P).Reachable (fun w => w.Initial ∧ w.KeysNamed) c) : c.world.KeysNamed := by
  refine (hreach.holds (J := World.KeysNamed) (fun _ h => h.2) (fun e w w' h hw => ?_) ?_).1
  · rcases Env.apply_signingKeys h with hsame | ⟨kid, hnew, hname, hfresh⟩
    · exact ⟨hsame ▸ hw.distinct, hsame ▸ hw.named⟩
    · refine ⟨hnew ▸ List.nodup_cons.2 ⟨hfresh, hw.distinct⟩, ?_⟩
      rw [hnew, List.mem_cons]
      exact fun h => h.elim (fun h => hname h.symm) hw.named
  · intro s pre ans post hw hans
    rcases hans with ⟨r, h⟩ | ⟨_, rfl⟩
    · rcases Stmt.exec_signingKeys h with hsame | ⟨_, hnew, hname⟩
      · exact ⟨hsame ▸ hw.distinct, hsame ▸ hw.named⟩
      · refine ⟨hnew ▸ List.nodup_singleton r, ?_⟩
        rw [hnew, List.mem_singleton]
        exact fun h => hname h.symm
    · exact hw

/-- The current key is one of the keys. -/
theorem Stmt.currentSigningKey_answer {kid : String} {pre post : World}
    (h : Stmt.Answered P (.kms .currentSigningKey) kid pre post) : kid ∈ post.signingKeys := by
  obtain ⟨r, ledger, ha, rfl, _⟩ := h.effect
  cases hkeys : pre.signingKeys with
  | nil =>
      simp only [Stmt.effect, KmsStmt.effect, hkeys] at ha ⊢
      obtain rfl := Except.ok.inj ha
      exact List.mem_singleton_self _
  | cons key keys =>
      simp only [Stmt.effect, KmsStmt.effect, hkeys] at ha ⊢
      obtain rfl := Except.ok.inj ha
      exact List.mem_cons_self ..

/-- **The key of every signed token is published.** -/
theorem signed_key (hreach : (machine P).Reachable World.Initial c) {token : Jws}
    (h : token ∈ c.world.signed) :
    token.alg = "EdDSA" ∧ ∃ kid ∈ c.world.signingKeys, token.kid = some kid := by
  obtain ⟨j, issuer, n, pre, post, kid, hj, he⟩ := token_signed hreach h
  have hsign := (Stmt.sign_answer (executed hreach.valid hj he)).1
  obtain ⟨l, hl, _, hkeyed, _⟩ := detailed_event hreach.valid hj he
  obtain ⟨m, pre', post', hmem⟩ := Log.Saw.mono hkeyed ((List.suffix_cons _ l).trans hl)
  have hkey := Stmt.currentSigningKey_answer (executed hreach.valid hj hmem)
  refine ⟨by rw [hsign], kid, ?_, by rw [hsign]⟩
  exact ((hreach.ordered (keys_stable P)).post hj _ hmem).subset hkey

end IdentityPlatform
