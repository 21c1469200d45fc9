/-
# Key rotation

Signing keys are rotated on one provider, whose directory holds no key before, while the clock
does not go back and the generated kids are distinct.  The key rotated last has the latest
time, because each rotation adds the count of those before to the time of the clock
(`rotateAll_rotated`), so `listPublicKeys`, which compares times, lists it first, and
`getPublicKey` finds every key by its kid.

`getCurrentSigningKey` compares the texts of the times.  The text of a year from 10000 on
begins with a sign, which stands before the digits: the key rotated last is not the current
one exactly when its time has such a year and that of an earlier key has not
(`current_key_iff`).
-/

import IdentityPlatform.Coding.Base64
import IdentityPlatform.Modules.LocalKeys
import Mathlib.Data.Finset.Max
import Mathlib.Tactic.SplitIfs

namespace IdentityPlatform

open Calendar

/-- Base64 and the cipher give back what they were given, and Base64 has no dots. -/
structure KeyCrypto.Lawful (crypto : KeyCrypto) : Prop where
  dots : ∀ bytes, '.' ∉ (crypto.base64 bytes).toList
  decoded : ∀ bytes, crypto.fromBase64 (crypto.base64 bytes) = bytes
  decrypted : ∀ key iv text ct tag, crypto.encrypt key iv text = some (ct, tag) →
    crypto.decrypt key iv ct tag = some text

/-- The entries of keys in a directory. -/
def Directory.signing (dir : Directory) : Directory :=
  dir.filter fun entry => LocalKeyProvider.isSigningKeyFile entry.1

namespace LocalKeyProvider

/-! ### Calls -/

section Calls

variable {α β : Type}

/-- The provider after a call. -/
def after : EStateM.Result KeyFault LocalKeyProvider α → LocalKeyProvider
  | .ok _ p => p
  | .error _ p => p

/-- **A call that answers has answers for its parts.** -/
theorem bind_ok {x : Kms α} {f : α → Kms β} {p p' : LocalKeyProvider} {b : β}
    (h : (x >>= f).run p = .ok b p') : ∃ a q, x.run p = .ok a q ∧ (f a).run q = .ok b p' := by
  rw [EStateM.run_bind] at h
  split at h
  · next a q hx => exact ⟨a, q, hx, h⟩
  · cases h

theorem bind_error {x : Kms α} {f : α → Kms β} {p p' : LocalKeyProvider} {fault : KeyFault}
    (h : (x >>= f).run p = .error fault p') :
    x.run p = .error fault p' ∨ ∃ a q, x.run p = .ok a q ∧ (f a).run q = .error fault p' := by
  rw [EStateM.run_bind] at h
  split at h
  · next a q hx => exact .inr ⟨a, q, hx, h⟩
  · next hx =>
      cases h
      exact .inl hx

theorem bind_eq {x : Kms α} {f : α → Kms β} {p q : LocalKeyProvider} {a : α}
    (h : x.run p = .ok a q) : (x >>= f).run p = (f a).run q := by
  rw [EStateM.run_bind, h]

/-- What a call leaves of the keys and of the master key: all of it. -/
structure Kept (p p' : LocalKeyProvider) : Prop where
  cache : ∀ key, p.masterKeyCache = some key → p'.masterKeyCache = some key
  seq : p.rotateSeq ≤ p'.rotateSeq
  signing : p'.keyDir.signing = p.keyDir.signing

theorem Kept.refl (p : LocalKeyProvider) : Kept p p := ⟨fun _ h => h, le_rfl, rfl⟩

theorem Kept.trans {p q r : LocalKeyProvider} (h : Kept p q) (h' : Kept q r) : Kept p r :=
  ⟨fun key hkey => h'.cache key (h.cache key hkey), h.seq.trans h'.seq, h'.signing.trans h.signing⟩

/-- A call after which keys and master key are the same. -/
def Keeps (x : Kms α) : Prop := ∀ p, Kept p (after (x.run p))

theorem Keeps.bind {x : Kms α} {f : α → Kms β} (hx : Keeps x) (hf : ∀ a, Keeps (f a)) :
    Keeps (x >>= f) := by
  intro p
  have hfirst := hx p
  rw [EStateM.run_bind]
  cases h : x.run p with
  | ok a q =>
      rw [h] at hfirst
      exact hfirst.trans (hf a q)
  | error fault q =>
      rw [h] at hfirst
      exact hfirst

theorem Keeps.pure (a : α) : Keeps (Pure.pure a : Kms α) := Kept.refl

theorem Keeps.throw (fault : KeyFault) : Keeps (MonadExcept.throw fault : Kms α) := Kept.refl

theorem Keeps.get : Keeps (MonadState.get : Kms LocalKeyProvider) := Kept.refl

theorem Keeps.modify {g : LocalKeyProvider → LocalKeyProvider} (h : ∀ p, Kept p (g p)) :
    Keeps (modify g : Kms Unit) := h

end Calls

/-! ### Directories -/

/-- The file of a key has a name of such files. -/
theorem isSigningKeyFile_fileName (kid : String) : isSigningKeyFile (fileName kid) = true := by
  have hfront : "signing-".toList <+: (fileName kid).toList :=
    ⟨kid.toList ++ ".json".toList, by simp [fileName]⟩
  have hback : ".json".toList <:+ (fileName kid).toList :=
    ⟨"signing-".toList ++ kid.toList, by simp [fileName]⟩
  simp only [isSigningKeyFile, endsWithText, Bool.and_eq_true, decide_eq_true_eq]
  exact ⟨hfront, hback⟩

theorem fileName_inj {kid kid' : String} (h : fileName kid = fileName kid') : kid = kid' := by
  have htext := congrArg String.toList h
  simp only [fileName, String.toList_append] at htext
  exact String.toList_inj.1 (List.append_cancel_left (List.append_cancel_right htext))

theorem signing_write (dir : Directory) (name : String) (content : FileContent) :
    (dir.write name content).signing = dir.signing.filter (fun entry => entry.1 ≠ name) ++
      if isSigningKeyFile name then [(name, content)] else [] := by
  simp only [Directory.write, Directory.signing, List.filter_append, List.filter_filter,
    List.filter_singleton, Bool.and_comm, Bool.cond_eq_ite]

/-- Text files are no keys. -/
theorem signing_write_text {dir : Directory} {name : String} (content : FileContent)
    (h : isSigningKeyFile name = false) : (dir.write name content).signing = dir.signing := by
  rw [signing_write, if_neg (by simp [h]), List.append_nil]
  refine List.filter_eq_self.2 fun entry hentry => decide_eq_true ?_
  rintro rfl
  rw [(List.mem_filter.1 hentry).2] at h
  cases h

/-! ### Master key -/

variable {crypto : KeyCrypto} {env : KeyEnv}

theorem masterFile_keeps (crypto : KeyCrypto) (newMasterKey : List UInt8) :
    Keeps (masterFile crypto newMasterKey) := by
  refine Keeps.get.bind fun p => ?_
  split
  · exact Keeps.pure _
  · exact Keeps.throw _
  · refine Keeps.bind (Keeps.modify (fun p => ?_)) fun _ => Keeps.pure _
    exact ⟨fun _ h => h, le_rfl, signing_write_text _ (by decide +kernel)⟩

theorem masterKey_of_cached {newMasterKey key : List UInt8} {p : LocalKeyProvider}
    (h : p.masterKeyCache = some key) : (masterKey crypto env newMasterKey).run p = .ok key p := by
  rw [masterKey, bind_eq (EStateM.run_get p), h]
  rfl

/-- The master key is kept once it is known. -/
theorem masterKey_keeps (newMasterKey : List UInt8) :
    Keeps (masterKey crypto env newMasterKey) := by
  intro p
  cases hcache : p.masterKeyCache with
  | some key =>
      rw [masterKey_of_cached hcache]
      exact Kept.refl p
  | none =>
      have hnone (q : LocalKeyProvider) (h : Kept p q) (key : Option (List UInt8)) :
          Kept p { q with masterKeyCache := key } :=
        ⟨fun _ hkey => absurd (hcache.symm.trans hkey) (by simp), h.seq, h.signing⟩
      rw [masterKey, bind_eq (EStateM.run_get p), hcache]
      dsimp only
      split_ifs
      · exact Kept.refl p
      · exact hnone p (Kept.refl p) _
      · exact Kept.refl p
      · have hfile := masterFile_keeps crypto newMasterKey p
        cases hread : (masterFile crypto newMasterKey).run p with
        | ok content q =>
            rw [bind_eq hread]
            rw [hread] at hfile
            exact hnone q hfile _
        | error fault q =>
            rw [hread] at hfile
            rw [EStateM.run_bind, hread]
            exact hfile

/-- The master key that is used is the one that is kept. -/
theorem cached_of_masterKey {newMasterKey key : List UInt8} {p p' : LocalKeyProvider}
    (h : (masterKey crypto env newMasterKey).run p = .ok key p') :
    p'.masterKeyCache = some key := by
  cases hcache : p.masterKeyCache with
  | some cached =>
      rw [masterKey_of_cached hcache] at h
      cases h
      exact hcache
  | none =>
      rw [masterKey, bind_eq (EStateM.run_get p), hcache] at h
      dsimp only at h
      split_ifs at h
      · cases h
      · cases h
        rfl
      · cases h
      · obtain ⟨content, q, _, h⟩ := bind_ok h
        cases h
        rfl

/-! ### Wrapped keys -/

theorem wrapPrivateKey_keeps (crypto : KeyCrypto) (env : KeyEnv) (privateKeyPem : String)
    (iv newMasterKey : List UInt8) :
    Keeps (wrapPrivateKey crypto env privateKeyPem iv newMasterKey) := by
  refine (masterKey_keeps newMasterKey).bind fun key => ?_
  split
  · exact Keeps.pure _
  · exact Keeps.throw _

/-- What wrapping a private key answers. -/
theorem wrapPrivateKey_ok {privateKeyPem text : String} {iv newMasterKey : List UInt8}
    {p p' : LocalKeyProvider}
    (h : (wrapPrivateKey crypto env privateKeyPem iv newMasterKey).run p = .ok text p') :
    ∃ key sealed, p'.masterKeyCache = some key ∧ crypto.encrypt key iv privateKeyPem = some sealed ∧
      text = wrapped crypto iv sealed := by
  obtain ⟨key, q, hkey, h⟩ := bind_ok h
  cases hsealed : crypto.encrypt key iv privateKeyPem with
  | none =>
      rw [hsealed] at h
      cases h
  | some sealed =>
      rw [hsealed] at h
      cases h
      exact ⟨key, sealed, cached_of_masterKey hkey, hsealed, rfl⟩

/-- The parts of a wrapped key. -/
theorem splitOn_wrapped (hcrypto : crypto.Lawful) (iv : List UInt8)
    (sealed : List UInt8 × List UInt8) : (wrapped crypto iv sealed).toList.splitOn '.' =
      [['1'], (crypto.base64 iv).toList, (crypto.base64 sealed.1).toList,
        (crypto.base64 sealed.2).toList] := by
  rw [wrapped, String.toList_ofList]
  refine List.splitOn_intercalate '.' ?_ (by simp)
  simp [hcrypto.dots]

/-- **A wrapped key is unwrapped**, with the master key it was wrapped by. -/
theorem unwrapPrivateKey_wrapped (hcrypto : crypto.Lawful) {key iv newMasterKey : List UInt8}
    {privateKeyPem : String} {sealed : List UInt8 × List UInt8} {p : LocalKeyProvider}
    (hcache : p.masterKeyCache = some key)
    (hsealed : crypto.encrypt key iv privateKeyPem = some sealed) :
    (unwrapPrivateKey crypto env (wrapped crypto iv sealed) newMasterKey).run p =
      .ok privateKeyPem p := by
  have hopened := hcrypto.decrypted key iv privateKeyPem sealed.1 sealed.2 hsealed
  rw [unwrapPrivateKey, splitOn_wrapped hcrypto]
  dsimp only
  rw [if_neg (by simp), bind_eq (masterKey_of_cached hcache)]
  simp only [List.tail_cons, String.ofList_toList, hcrypto.decoded]
  rw [hopened]
  rfl

/-! ### Rotations -/

/-- A key that a rotation has made, with its time. -/
structure RotatedKey where
  rotation : Rotation
  kid : String
  createdAt : ℕ
  deriving DecidableEq, Repr

/-- The key that a rotation makes on this provider. -/
def rotatedKey (rotation : Rotation) (kid : String) (p : LocalKeyProvider) : RotatedKey :=
  { rotation := rotation, kid := kid, createdAt := rotation.createdTime + p.rotateSeq }

/-- What `getCurrentSigningKey` answers if it is this key. -/
def RotatedKey.current (key : RotatedKey) : CurrentSigningKey :=
  { kid := key.kid, privateKeyPem := key.rotation.privateKeyPem,
    publicKeyPem := key.rotation.publicKeyPem }

/-- What `getPublicKey` answers for this key. -/
def RotatedKey.publicKey (key : RotatedKey) : SigningPublicKey :=
  { kid := key.kid, algorithm := "EdDSA", publicKeyPem := key.rotation.publicKeyPem,
    createdAt := some key.createdAt }

/-- Rotations one after the other: the keys they have made, and the provider after them. -/
def rotateAll (crypto : KeyCrypto) (env : KeyEnv) :
    List Rotation → LocalKeyProvider → List RotatedKey × LocalKeyProvider
  | [], p => ([], p)
  | rotation :: rotations, p =>
      match (rotateSigningKey crypto env rotation).run p with
      | .ok kid q =>
          let later := rotateAll crypto env rotations q
          (rotatedKey rotation kid p :: later.1, later.2)
      | .error _ q => rotateAll crypto env rotations q

/-- The file of a key, under this master key. -/
structure RotatedKey.FileOf (crypto : KeyCrypto) (cache : Option (List UInt8)) (key : RotatedKey)
    (file : WrappedSigningKeyFile) : Prop where
  kid : file.kid = key.kid
  publicKeyPem : file.publicKeyPem = key.rotation.publicKeyPem
  createdAt : toISOString key.createdAt = some file.createdAt.toList
  wrapped : ∃ master sealed, cache = some master ∧
    crypto.encrypt master key.rotation.iv key.rotation.privateKeyPem = some sealed ∧
      file.wrappedPrivateKey = LocalKeyProvider.wrapped crypto key.rotation.iv sealed

/-- The entry of a key in the directory. -/
def entryOf (made : RotatedKey × WrappedSigningKeyFile) : String × FileContent :=
  (fileName made.1.kid, .signingKey made.2)

/-- **What a rotation does.**  It adds the entry of its key, if it answers. -/
theorem rotateSigningKey_ok {rotation : Rotation} {kid : String} {p p' : LocalKeyProvider}
    (h : (rotateSigningKey crypto env rotation).run p = .ok kid p') :
    Rotation.kid crypto rotation = some kid ∧ p.rotateSeq < p'.rotateSeq ∧
      (∀ master, p.masterKeyCache = some master → p'.masterKeyCache = some master) ∧
      ∃ file, p'.keyDir.signing =
          p.keyDir.signing.filter (fun other => other.1 ≠ fileName kid) ++
            [(fileName kid, .signingKey file)] ∧
        (rotatedKey rotation kid p).FileOf crypto p'.masterKeyCache file := by
  rw [rotateSigningKey] at h
  cases hkid : Rotation.kid crypto rotation with
  | none =>
      rw [hkid] at h
      cases h
  | some name =>
      rw [hkid, bind_eq (EStateM.run_get p),
        bind_eq (EStateM.run_modify _ p)] at h
      cases hcreated : toISOString (rotation.createdTime + p.rotateSeq) with
      | none =>
          rw [hcreated] at h
          cases h
      | some createdAt =>
          rw [hcreated] at h
          obtain ⟨text, q, hwrap, hrest⟩ := bind_ok h
          obtain ⟨path, q', hpath, hwrite⟩ := bind_ok hrest
          obtain ⟨rfl, rfl⟩ : path = fileName name ∧ q' = q := by
            rw [keyFilePath] at hpath
            split_ifs at hpath
            · cases hpath
              exact ⟨rfl, rfl⟩
            · cases hpath
          cases hwrite
          have hkept := wrapPrivateKey_keeps crypto env rotation.privateKeyPem
            rotation.iv rotation.newMasterKey { p with rotateSeq := p.rotateSeq + 1 }
          rw [hwrap] at hkept
          obtain ⟨master, sealed, hcache, hsealed, rfl⟩ := wrapPrivateKey_ok hwrap
          refine ⟨rfl, Nat.lt_of_succ_le hkept.seq, hkept.cache,
            { kid := kid, alg := "EdDSA", createdAt := String.ofList createdAt,
              publicKeyPem := rotation.publicKeyPem,
              wrappedPrivateKey := wrapped crypto rotation.iv sealed }, ?_, ?_⟩
          · change (Directory.write _ _ _).signing = _
            have hsame : q'.keyDir.signing = p.keyDir.signing := hkept.signing
            rw [signing_write, if_pos (isSigningKeyFile_fileName _), hsame]
          · exact ⟨rfl, rfl, by simpa [rotatedKey] using hcreated, master, sealed,
              hcache, hsealed, rfl⟩

/-- A rotation that does not answer leaves the keys as they are. -/
theorem rotateSigningKey_error {rotation : Rotation} {fault : KeyFault} {p p' : LocalKeyProvider}
    (h : (rotateSigningKey crypto env rotation).run p = .error fault p') : Kept p p' := by
  rw [rotateSigningKey] at h
  cases hkid : Rotation.kid crypto rotation with
  | none =>
      rw [hkid] at h
      cases h
      exact Kept.refl p
  | some name =>
      have hcounted : Kept p { p with rotateSeq := p.rotateSeq + 1 } :=
        ⟨fun _ h => h, Nat.le_succ _, rfl⟩
      rw [hkid, bind_eq (EStateM.run_get p),
        bind_eq (EStateM.run_modify _ p)] at h
      cases hcreated : toISOString (rotation.createdTime + p.rotateSeq) with
      | none =>
          rw [hcreated] at h
          cases h
          exact hcounted
      | some createdAt =>
          rw [hcreated] at h
          have hkept := wrapPrivateKey_keeps crypto env rotation.privateKeyPem
            rotation.iv rotation.newMasterKey { p with rotateSeq := p.rotateSeq + 1 }
          rcases bind_error h with hwrap | ⟨text, q, hwrap, h⟩
          · rw [hwrap] at hkept
            exact hcounted.trans hkept
          · rw [hwrap] at hkept
            refine hcounted.trans (hkept.trans ?_)
            rcases bind_error h with hpath | ⟨path, q', hpath, h⟩
            · rw [keyFilePath] at hpath
              split_ifs at hpath
              · cases hpath
              · cases hpath
                exact Kept.refl _
            · cases h

/-! ### Runs -/

/-- The keys that have been made on a provider, with their files. -/
structure Rotated (crypto : KeyCrypto) (made : List (RotatedKey × WrappedSigningKeyFile))
    (p : LocalKeyProvider) : Prop where
  entries : p.keyDir.signing = made.map entryOf
  files : ∀ m ∈ made, m.1.FileOf crypto p.masterKeyCache m.2
  later : made.Pairwise fun m m' => m.1.createdAt < m'.1.createdAt
  counted : ∀ m ∈ made, m.1.createdAt < m.1.rotation.createdTime + p.rotateSeq
  distinct : (made.map fun m => m.1.kid).Nodup

theorem RotatedKey.FileOf.mono {cache cache' : Option (List UInt8)} {key : RotatedKey}
    {file : WrappedSigningKeyFile} (h : key.FileOf crypto cache file)
    (hcache : ∀ master, cache = some master → cache' = some master) :
    key.FileOf crypto cache' file := by
  obtain ⟨master, sealed, hmaster, hsealed, hwrapped⟩ := h.wrapped
  exact ⟨h.kid, h.publicKeyPem, h.createdAt, master, sealed, hcache master hmaster, hsealed,
    hwrapped⟩

/-- Before the first rotation. -/
theorem rotated_new {dir : Directory} (hdir : dir.signing = []) :
    Rotated crypto [] (new dir) :=
  ⟨hdir, by simp, .nil, by simp, List.nodup_nil⟩

theorem Rotated.kept {made : List (RotatedKey × WrappedSigningKeyFile)} {p p' : LocalKeyProvider}
    (h : Rotated crypto made p) (hkept : Kept p p') : Rotated crypto made p' where
  entries := hkept.signing.trans h.entries
  files m hm := (h.files m hm).mono hkept.cache
  later := h.later
  counted m hm := (h.counted m hm).trans_le (Nat.add_le_add_left hkept.seq _)
  distinct := h.distinct

/-- **A rotation makes the latest key.** -/
theorem Rotated.rotate {made : List (RotatedKey × WrappedSigningKeyFile)} {p p' : LocalKeyProvider}
    {rotation : Rotation} {kid : String} (h : Rotated crypto made p)
    (hclock : ∀ m ∈ made, m.1.rotation.createdTime ≤ rotation.createdTime)
    (hfresh : kid ∉ made.map fun m => m.1.kid)
    (hrun : (rotateSigningKey crypto env rotation).run p = .ok kid p') :
    ∃ file, Rotated crypto (made ++ [(rotatedKey rotation kid p, file)]) p' := by
  obtain ⟨_, hseq, hcache, file, hentries, hfile⟩ := rotateSigningKey_ok hrun
  have hothers : p.keyDir.signing.filter (fun other => other.1 ≠ fileName kid) =
      p.keyDir.signing := by
    refine List.filter_eq_self.2 fun entry hentry => decide_eq_true ?_
    rw [h.entries] at hentry
    obtain ⟨m, hm, rfl⟩ := List.mem_map.1 hentry
    exact fun hname => hfresh (fileName_inj hname ▸ List.mem_map_of_mem hm)
  refine ⟨file, ?_, ?_, ?_, ?_, ?_⟩
  · rw [hentries, hothers, h.entries, List.map_append]
    rfl
  · intro m hm
    rcases List.mem_append.1 hm with hm | hm
    · exact (h.files m hm).mono hcache
    · obtain rfl := List.mem_singleton.1 hm
      exact hfile
  · refine List.pairwise_append.2 ⟨h.later, List.pairwise_singleton .., fun m hm m' hm' => ?_⟩
    obtain rfl := List.mem_singleton.1 hm'
    exact (h.counted m hm).trans_le (Nat.add_le_add_right (hclock m hm) _)
  · intro m hm
    rcases List.mem_append.1 hm with hm | hm
    · exact (h.counted m hm).trans (Nat.add_lt_add_left hseq _)
    · obtain rfl := List.mem_singleton.1 hm
      exact Nat.add_lt_add_left hseq _
  · rw [List.map_append]
    refine List.nodup_append.2 ⟨h.distinct, List.nodup_singleton _, ?_⟩
    rintro _ hkid _ hnew rfl
    obtain rfl := List.mem_singleton.1 hnew
    exact hfresh hkid

/-- **Every key is later than those before it**, in a run on a clock that does not go back. -/
theorem rotateAll_rotated (env : KeyEnv) {rotations : List Rotation}
    {made : List (RotatedKey × WrappedSigningKeyFile)} {p : LocalKeyProvider}
    (h : Rotated crypto made p)
    (hclock : rotations.Pairwise fun r r' => r.createdTime ≤ r'.createdTime)
    (hbefore : ∀ m ∈ made, ∀ r ∈ rotations, m.1.rotation.createdTime ≤ r.createdTime)
    (hkids : ((made.map fun m => m.1.kid) ++ rotations.filterMap (Rotation.kid crypto)).Nodup) :
    ∃ more, more.map Prod.fst = (rotateAll crypto env rotations p).1 ∧
      Rotated crypto (made ++ more) (rotateAll crypto env rotations p).2 := by
  induction rotations generalizing made p with
  | nil => exact ⟨[], rfl, by simpa [rotateAll] using h⟩
  | cons rotation rotations ih =>
      obtain ⟨hfirst, hclock⟩ := List.pairwise_cons.1 hclock
      rw [rotateAll]
      cases hrun : (rotateSigningKey crypto env rotation).run p with
      | error fault q =>
          refine ih (h.kept (rotateSigningKey_error hrun)) hclock
            (fun m hm r hr => hbefore m hm r (List.mem_cons_of_mem _ hr)) ?_
          refine hkids.sublist (List.Sublist.append_left ?_ _)
          exact (List.sublist_cons_self ..).filterMap _
      | ok kid q =>
          have hkid := (rotateSigningKey_ok hrun).1
          rw [List.filterMap_cons_some hkid] at hkids
          have hfresh : kid ∉ made.map fun m => m.1.kid := fun hmem =>
            (List.nodup_append.1 hkids).2.2 kid hmem kid (List.mem_cons_self ..) rfl
          obtain ⟨file, hmade⟩ := h.rotate
            (fun m hm => hbefore m hm rotation (List.mem_cons_self ..)) hfresh hrun
          have hlater : ∀ m ∈ made ++ [(rotatedKey rotation kid p, file)], ∀ r ∈ rotations,
              m.1.rotation.createdTime ≤ r.createdTime := by
            intro m hm r hr
            rcases List.mem_append.1 hm with hm | hm
            · exact hbefore m hm r (List.mem_cons_of_mem _ hr)
            · obtain rfl := List.mem_singleton.1 hm
              exact hfirst r hr
          obtain ⟨more, hmore, hrotated⟩ :=
            ih hmade hclock hlater (by simpa [rotatedKey] using hkids)
          refine ⟨_ :: more, ?_, by simpa using hrotated⟩
          rw [List.map_cons, hmore]

/-! ### Lists of keys -/

/-- What stands before all others is the first of a sorted list. -/
theorem sortBy_first {α : Type} (compare : α → α → ℤ) {list : List α} {top : α} (hmem : top ∈ list)
    (htop : ∀ x ∈ list, x ≠ top → compare top x < 0 ∧ 0 < compare x top) :
    ∃ rest, sortBy compare list = top :: rest := by
  induction list with
  | nil => cases hmem
  | cons a list ih =>
      have hothers : ∀ x ∈ list, x ≠ top → compare top x < 0 ∧ 0 < compare x top :=
        fun x hx => htop x (List.mem_cons_of_mem _ hx)
      rw [sortBy, List.insertionSort_cons]
      by_cases ha : a = top
      · subst ha
        cases hsorted : list.insertionSort fun a b => compare a b ≤ 0 with
        | nil => exact ⟨[], rfl⟩
        | cons b rest =>
            have hb : b ∈ list := by
              rw [← List.mem_insertionSort fun a b => compare a b ≤ 0, hsorted]
              exact List.mem_cons_self ..
            rw [List.orderedInsert_cons]
            split_ifs with hle
            · exact ⟨_, rfl⟩
            · obtain rfl : b = a := by
                by_contra hne
                exact hle (hothers b hb hne).1.le
              exact ⟨_, rfl⟩
      · have htoplist : top ∈ list := (List.mem_cons.1 hmem).resolve_left (Ne.symm ha)
        obtain ⟨rest, hrest⟩ := ih htoplist hothers
        have hafter : ¬ compare a top ≤ 0 :=
          Int.not_le.2 (htop a (List.mem_cons_self ..) ha).2
        rw [sortBy] at hrest
        rw [hrest, List.orderedInsert_cons, if_neg hafter]
        exact ⟨_, rfl⟩

theorem orNumber_of_ne {a b : ℤ} (h : a ≠ 0) : orNumber a b = a := if_neg h

theorem sortBy_perm {α : Type} (compare : α → α → ℤ) (list : List α) :
    (sortBy compare list).Perm list := List.perm_insertionSort _ list

section Listed

variable {made : List (RotatedKey × WrappedSigningKeyFile)} {p : LocalKeyProvider}

/-- The file of an entry. -/
def fileOf : String × FileContent → Option WrappedSigningKeyFile
  | (_, .signingKey file) => some file
  | (_, .text _) => none

theorem mapM_parseFile {entries : Directory} (h : ∀ entry ∈ entries, (fileOf entry).isSome) :
    entries.mapM parseFile = .ok (entries.filterMap fileOf) := by
  induction entries with
  | nil => rfl
  | cons entry entries ih =>
      have hrest := ih fun entry hentry => h entry (List.mem_cons_of_mem _ hentry)
      have hfirst := h entry (List.mem_cons_self ..)
      obtain ⟨name, content⟩ := entry
      cases content with
      | text content => cases hfirst
      | signingKey file =>
          rw [List.mapM_cons, hrest]
          rfl

/-- **The files of the keys are listed**, whatever the order of the directory. -/
theorem Rotated.listSigningKeyFiles (h : Rotated crypto made p) (readdir : ReadDir) :
    ∃ files, files.Perm (made.map Prod.snd) ∧
      (listSigningKeyFiles readdir).run p = .ok (sortBy compareFiles files) p := by
  have hperm : ((readdir.list p.keyDir).filter fun entry => isSigningKeyFile entry.1).Perm
      (made.map entryOf) := h.entries ▸ (readdir.perm p.keyDir).filter _
  refine ⟨_, (hperm.filterMap fileOf).trans (List.Perm.of_eq ?_), ?_⟩
  · rw [List.filterMap_map]
    exact List.filterMap_eq_map (f := Prod.snd) ▸ rfl
  · have hparse := mapM_parseFile fun entry hentry => by
      obtain ⟨m, _, rfl⟩ := List.mem_map.1 (hperm.mem_iff.1 hentry)
      rfl
    rw [LocalKeyProvider.listSigningKeyFiles, bind_eq (EStateM.run_get p)]
    dsimp only
    rw [hparse]
    rfl

theorem RotatedKey.FileOf.publicKeyOf {cache : Option (List UInt8)} {key : RotatedKey}
    {file : WrappedSigningKeyFile} (h : key.FileOf crypto cache file) :
    publicKeyOf file = key.publicKey := by
  rw [LocalKeyProvider.publicKeyOf, RotatedKey.publicKey, h.kid, h.publicKeyPem,
    parseISO_toISOString h.createdAt]

/-- A key is known by its kid. -/
theorem Rotated.eq_of_kid (h : Rotated crypto made p) {m m' : RotatedKey × WrappedSigningKeyFile}
    (hm : m ∈ made) (hm' : m' ∈ made) (hkid : m.1.kid = m'.1.kid) : m = m' :=
  List.inj_on_of_nodup_map h.distinct hm hm' hkid

/-- **The public key of every rotation is found.** -/
theorem Rotated.getPublicKey (h : Rotated crypto made p) (readdir : ReadDir)
    {m : RotatedKey × WrappedSigningKeyFile} (hm : m ∈ made) :
    (getPublicKey readdir m.1.kid).run p = .ok m.1.publicKey p := by
  obtain ⟨files, hfiles, hlist⟩ := h.listSigningKeyFiles readdir
  have hmem (file : WrappedSigningKeyFile) : file ∈ sortBy compareFiles files ↔
      ∃ m ∈ made, m.2 = file :=
    ((sortBy_perm compareFiles files).trans hfiles).mem_iff.trans List.mem_map
  have hfound : (sortBy compareFiles files).find? (fun file => file.kid = m.1.kid) = some m.2 := by
    cases hfind : (sortBy compareFiles files).find? fun file => file.kid = m.1.kid with
    | none =>
        have hnone := List.find?_eq_none.1 hfind m.2 ((hmem m.2).2 ⟨m, hm, rfl⟩)
        exact absurd (decide_eq_true (h.files m hm).kid) hnone
    | some file =>
        obtain ⟨m', hm', rfl⟩ := (hmem file).1 (List.mem_of_find?_eq_some hfind)
        have hkid : m'.2.kid = m.1.kid := by simpa using List.find?_some hfind
        rw [h.eq_of_kid hm' hm ((h.files m' hm').kid.symm.trans hkid)]
  rw [LocalKeyProvider.getPublicKey, bind_eq hlist, hfound, ← (h.files m hm).publicKeyOf]
  rfl

/-- The public keys are listed, that with the latest time first. -/
theorem Rotated.listPublicKeys (h : Rotated crypto made p) (readdir : ReadDir)
    {m : RotatedKey × WrappedSigningKeyFile} (hm : m ∈ made)
    (hlatest : ∀ m' ∈ made, m' ≠ m → m'.1.createdAt < m.1.createdAt) :
    ∃ others, (m.1.publicKey :: others).Perm (made.map fun m => m.1.publicKey) ∧
      (listPublicKeys readdir).run p = .ok (m.1.publicKey :: others) p := by
  obtain ⟨files, hfiles, hlist⟩ := h.listSigningKeyFiles readdir
  have hperm : ((sortBy compareFiles files).map publicKeyOf).Perm
      (made.map fun m => m.1.publicKey) := by
    refine (((sortBy_perm compareFiles files).trans hfiles).map publicKeyOf).trans
      (List.Perm.of_eq ?_)
    rw [List.map_map]
    exact List.map_congr_left fun m hm => (h.files m hm).publicKeyOf
  have hfirst := hperm.mem_iff.2 (List.mem_map_of_mem hm)
  obtain ⟨others, hsorted⟩ := sortBy_first compareKeys hfirst <| by
    intro key hkey hne
    obtain ⟨m', hm', rfl⟩ := List.mem_map.1 (hperm.mem_iff.1 hkey)
    have hlt := hlatest m' hm' (fun heq => hne (heq ▸ rfl))
    have hbefore : timeDifference m'.1.publicKey.createdAt m.1.publicKey.createdAt < 0 :=
      Int.sub_neg_of_lt (Int.ofNat_lt.2 hlt)
    have hafter : 0 < timeDifference m.1.publicKey.createdAt m'.1.publicKey.createdAt :=
      Int.sub_pos_of_lt (Int.ofNat_lt.2 hlt)
    rw [compareKeys, compareKeys, orNumber_of_ne hbefore.ne, orNumber_of_ne hafter.ne']
    exact ⟨hbefore, hafter⟩
  refine ⟨others, hsorted ▸ (sortBy_perm compareKeys _).trans hperm, ?_⟩
  rw [LocalKeyProvider.listPublicKeys, bind_eq hlist, hsorted]
  rfl

/-- A key whose text stands after the texts of all others is the current key. -/
theorem Rotated.getCurrentSigningKey (hcrypto : crypto.Lawful) (h : Rotated crypto made p)
    (readdir : ReadDir) (rotation : Rotation) {m : RotatedKey × WrappedSigningKeyFile}
    (hm : m ∈ made)
    (hgreatest : ∀ m' ∈ made, m' ≠ m → sortKey m'.2.createdAt < sortKey m.2.createdAt) :
    (getCurrentSigningKey crypto env readdir rotation).run p = .ok m.1.current p := by
  obtain ⟨files, hfiles, hlist⟩ := h.listSigningKeyFiles readdir
  obtain ⟨others, hsorted⟩ := sortBy_first compareFiles
    (hfiles.mem_iff.2 (List.mem_map_of_mem (f := Prod.snd) hm)) <| by
    intro file hfile hne
    obtain ⟨m', hm', rfl⟩ := List.mem_map.1 (hfiles.mem_iff.1 hfile)
    have hlt := hgreatest m' hm' (fun heq => hne (heq ▸ rfl))
    have hbefore : localeCompare m'.2.createdAt m.2.createdAt = -1 := if_pos hlt
    have hafter : localeCompare m.2.createdAt m'.2.createdAt = 1 := by
      rw [localeCompare, if_neg hlt.not_gt, if_pos hlt]
    rw [compareFiles, compareFiles, hbefore, hafter, orNumber_of_ne (by decide),
      orNumber_of_ne (by decide)]
    exact ⟨by decide, by decide⟩
  have hfile := h.files m hm
  obtain ⟨master, sealed, hmaster, hsealed, hwrapped⟩ := hfile.wrapped
  rw [LocalKeyProvider.getCurrentSigningKey, bind_eq hlist, hsorted, if_neg (by simp), currentOf,
    hwrapped, bind_eq (unwrapPrivateKey_wrapped hcrypto hmaster hsealed), hfile.kid,
    hfile.publicKeyPem]
  rfl

end Listed

/-! ### Texts of times -/

theorem collation_ascending : Ascending primaryWeight := by
  unfold Ascending
  decide +kernel

theorem plus_before_digits : ∀ d < 10, primaryWeight '+' < primaryWeight (digitChar d) := by
  decide +kernel

/-- Texts of times on one side of the year 10000 are in the order of the times. -/
theorem sortKey_lt_of_lt {t t' : ℕ} {text text' : String} (h : t < t')
    (hside : t < year10000 ↔ t' < year10000) (ht : toISOString t = some text.toList)
    (ht' : toISOString t' = some text'.toList) : sortKey text < sortKey text' := by
  obtain ⟨hlt, hlength⟩ := toISOString_lt collation_ascending h hside ht ht'
  exact append_lt_append hlt (by simpa using hlength)

/-- Texts of times from the year 10000 on stand before those of all others. -/
theorem sortKey_lt_of_expanded {t t' : ℕ} {text text' : String} (h : t < year10000)
    (h' : year10000 ≤ t') (ht : toISOString t = some text.toList)
    (ht' : toISOString t' = some text'.toList) : sortKey text' < sortKey text := by
  obtain ⟨c, cs, c', cs', hc, hc', hlt⟩ := toISOString_expanded_lt plus_before_digits h h' ht ht'
  rw [sortKey, sortKey, hc, hc']
  exact List.cons_lt_cons_iff.2 (.inl hlt)

/-! ### The key rotated last -/

section Last

variable {earlier : List (RotatedKey × WrappedSigningKeyFile)}
  {last : RotatedKey × WrappedSigningKeyFile} {p : LocalKeyProvider}

theorem Rotated.lt_last (h : Rotated crypto (earlier ++ [last]) p) :
    ∀ m ∈ earlier ++ [last], m ≠ last → m.1.createdAt < last.1.createdAt := by
  intro m hm hne
  rcases List.mem_append.1 hm with hm | hm
  · exact (List.pairwise_append.1 h.later).2.2 m hm last (List.mem_singleton_self _)
  · exact absurd (List.mem_singleton.1 hm) hne

/-- The texts are in the order of the times, unless the year 10000 lies between them. -/
theorem Rotated.greatest_last (h : Rotated crypto (earlier ++ [last]) p)
    (hside : ∀ m ∈ earlier, m.1.createdAt < year10000 → last.1.createdAt < year10000) :
    ∀ m ∈ earlier ++ [last], m ≠ last → sortKey m.2.createdAt < sortKey last.2.createdAt := by
  intro m hm hne
  have hlt := h.lt_last m hm hne
  have hearlier : m ∈ earlier := by
    rcases List.mem_append.1 hm with hm | hm
    · exact hm
    · exact absurd (List.mem_singleton.1 hm) hne
  have hlast := h.files last (List.mem_append_right _ (List.mem_singleton_self _))
  exact sortKey_lt_of_lt hlt ⟨hside m hearlier, hlt.trans⟩ (h.files m hm).createdAt hlast.createdAt

/-- The current key is the latest of those before the year 10000, if there is one. -/
theorem Rotated.exists_greatest {made : List (RotatedKey × WrappedSigningKeyFile)}
    (h : Rotated crypto made p) {first : RotatedKey × WrappedSigningKeyFile} (hfirst : first ∈ made)
    (hbefore : first.1.createdAt < year10000) :
    ∃ m ∈ made, m.1.createdAt < year10000 ∧
      ∀ m' ∈ made, m' ≠ m → sortKey m'.2.createdAt < sortKey m.2.createdAt := by
  have hmem : first ∈ (made.filter fun m => m.1.createdAt < year10000).toFinset := by
    simp [hfirst, hbefore]
  obtain ⟨m, hm, hmax⟩ := Finset.exists_max_image _ (fun m => m.1.createdAt) ⟨first, hmem⟩
  simp only [List.mem_toFinset, List.mem_filter, decide_eq_true_eq] at hm hmax
  refine ⟨m, hm.1, hm.2, fun m' hm' hne => ?_⟩
  rcases Nat.lt_or_ge m'.1.createdAt year10000 with hlt | hge
  · have hnodup : (made.map fun m => m.1.createdAt).Nodup :=
      List.pairwise_map.2 (h.later.imp fun hlt => hlt.ne)
    have horder := lt_of_le_of_ne (hmax m' ⟨hm', hlt⟩) fun heq =>
      hne (List.inj_on_of_nodup_map hnodup hm' hm.1 heq)
    exact sortKey_lt_of_lt horder (iff_of_true hlt hm.2) (h.files m' hm').createdAt
      (h.files m hm.1).createdAt
  · exact sortKey_lt_of_expanded hm.2 hge (h.files m hm.1).createdAt (h.files m' hm').createdAt

end Last

theorem createdTimes_sorted {rotations : List Rotation}
    (hclock : (rotations.flatMap fun r => [r.kidTime, r.createdTime]).Pairwise (· ≤ ·)) :
    rotations.Pairwise fun r r' => r.createdTime ≤ r'.createdTime := by
  induction rotations with
  | nil => exact .nil
  | cons rotation rotations ih =>
      rw [List.flatMap_cons, List.pairwise_append] at hclock
      refine .cons (fun r hr => ?_) (ih hclock.2.1)
      exact hclock.2.2 _ (by simp) _ (List.mem_flatMap.2 ⟨r, hr, by simp⟩)

/-- **The key rotated last is the current one, unless the year 10000 begins before it.**  After
rotations on a provider whose directory had no key, on a clock that does not go back and with
distinct kids, the key rotated last is the current one and the first of the list, and every
key is found by its kid, whatever the order in which the directory is listed: exactly when
its time is before the year 10000 or no earlier key has a time before that year. -/
theorem current_key_iff (crypto : KeyCrypto) (env : KeyEnv) (hcrypto : crypto.Lawful)
    (dir : Directory) (hdir : dir.signing = []) (rotations : List Rotation)
    (hclock : (rotations.flatMap fun r => [r.kidTime, r.createdTime]).Pairwise (· ≤ ·))
    (hkids : (rotations.filterMap (Rotation.kid crypto)).Nodup) (earlier : List RotatedKey)
    (last : RotatedKey)
    (hrun : (rotateAll crypto env rotations (new dir)).1 = earlier ++ [last]) :
    (∀ readdir rotation,
      (getCurrentSigningKey crypto env readdir rotation).run
          (rotateAll crypto env rotations (new dir)).2 =
        .ok last.current (rotateAll crypto env rotations (new dir)).2 ∧
      (∃ others, (listPublicKeys readdir).run (rotateAll crypto env rotations (new dir)).2 =
        .ok (last.publicKey :: others) (rotateAll crypto env rotations (new dir)).2) ∧
      ∀ key ∈ earlier ++ [last],
        (getPublicKey readdir key.kid).run (rotateAll crypto env rotations (new dir)).2 =
          .ok key.publicKey (rotateAll crypto env rotations (new dir)).2) ↔
      ¬ ∃ key ∈ earlier, key.createdAt < year10000 ∧ year10000 ≤ last.createdAt := by
  obtain ⟨made, hmade, h⟩ := rotateAll_rotated env (rotated_new hdir)
    (createdTimes_sorted hclock) (by simp) (by simpa using hkids)
  rw [hrun] at hmade
  obtain ⟨front, back, rfl, rfl, hback⟩ := List.map_eq_append_iff.1 hmade
  obtain ⟨m, rfl, rfl⟩ := List.map_eq_singleton_iff.1 hback
  rw [List.nil_append] at h
  have hm : m ∈ front ++ [m] := List.mem_append_right _ (List.mem_singleton_self m)
  generalize (rotateAll crypto env rotations (new dir)).2 = p at h
  constructor
  · rintro hall ⟨key, hkey, hbefore, hafter⟩
    obtain ⟨first, hfirst, rfl⟩ := List.mem_map.1 hkey
    obtain ⟨current, hcurrent, hyear, hgreatest⟩ :=
      h.exists_greatest (List.mem_append_left _ hfirst) hbefore
    let readdir : ReadDir := ⟨id, fun _ => List.Perm.refl _⟩
    have hlast := (hall readdir m.1.rotation).1
    rw [h.getCurrentSigningKey hcrypto readdir m.1.rotation hcurrent hgreatest] at hlast
    have hkid : current.1.kid = m.1.kid := by
      injection hlast with hlast
      exact congrArg CurrentSigningKey.kid hlast
    rw [h.eq_of_kid hcurrent hm hkid] at hyear
    exact absurd hyear (Nat.not_lt_of_le hafter)
  · intro hyear readdir rotation
    refine ⟨h.getCurrentSigningKey hcrypto readdir rotation hm (h.greatest_last ?_),
      (h.listPublicKeys readdir hm h.lt_last).imp fun _ => And.right, fun key hkey => ?_⟩
    · intro first hfirst hbefore
      by_contra hafter
      exact hyear ⟨first.1, List.mem_map_of_mem hfirst, hbefore, Nat.le_of_not_lt hafter⟩
    · rw [← List.map_singleton (f := Prod.fst), ← List.map_append] at hkey
      obtain ⟨made, hmem, rfl⟩ := List.mem_map.1 hkey
      exact h.getPublicKey readdir hmem

/-! ### Sample runs -/

/-- The key stream of AES-256-GCM for the key and the IV of the sample rotations. -/
def sampleKeyStream : List UInt8 :=
  [0xce, 0xa7, 0x40, 0x3d, 0x4d, 0x60, 0x6b, 0x6e, 0x07, 0x4e, 0xc5, 0xd3, 0xba]

/-- Bytes with the key stream added; with it added again they are what they were. -/
def addKeyStream (bytes : List UInt8) : List UInt8 :=
  bytes.mapIdx fun i b => b ^^^ sampleKeyStream.getD i 0

theorem addKeyStream_addKeyStream (bytes : List UInt8) :
    addKeyStream (addKeyStream bytes) = bytes := by
  refine List.ext_getElem (by simp [addKeyStream]) fun i hi hi' => ?_
  simp only [addKeyStream, List.getElem_mapIdx, UInt8.xor_assoc, UInt8.xor_self, UInt8.xor_zero]

/-- The tags that AES-256-GCM gives the ciphertexts of the sample rotations. -/
def sampleTag (ct : List UInt8) : List UInt8 :=
  if ct = addKeyStream (utf8 "private key 1")
  then [0xee, 0x79, 0x76, 0x3c, 0x93, 0xff, 0xdb, 0xd7, 0x14, 0x2d, 0xc5, 0x6b, 0x30, 0x88,
    0xda, 0xfc]
  else [0xe2, 0xf5, 0xc5, 0x4d, 0xd0, 0x51, 0x6f, 0xe6, 0xa6, 0x55, 0x8b, 0x07, 0xbe, 0xfc,
    0x57, 0xfb]

/-- Base64, and what SHA-256 and AES-256-GCM give on the sample rotations. -/
def sampleCrypto : KeyCrypto where
  sha256Hex text := if text = "public key 1"
    then "ed74a24c8e376eecd0cd7be19c6168c1a6e4562f8fddd4d13a00d6e2adfd5221"
    else "e9fdc86ac6cce7779ff031d8e2c538ef2dc8c49ea07cfbde4503ba8366189aa5"
  base64 bytes := String.ofList (Base64.encode bytes)
  fromBase64 text := Base64.decode text.toList
  encrypt key _ text :=
    if key.length = 32
    then some (addKeyStream (utf8 text), sampleTag (addKeyStream (utf8 text)))
    else none
  decrypt key _ ct tag :=
    if key.length = 32 ∧ tag = sampleTag ct
    then String.fromUTF8? ⟨(addKeyStream ct).toArray⟩
    else none

theorem sampleCrypto_lawful : sampleCrypto.Lawful where
  dots bytes hdot := by
    simp only [sampleCrypto, String.toList_ofList] at hdot
    rcases Base64.mem_encode hdot with hvalue | hpad
    · exact absurd hvalue (by decide)
    · exact absurd hpad (by decide)
  decoded bytes := by
    simp only [sampleCrypto, String.toList_ofList, Base64.decode_encode]
  decrypted key iv text ct tag h := by
    simp only [sampleCrypto] at h ⊢
    split_ifs at h with hlength
    obtain ⟨rfl, rfl⟩ := Prod.mk.inj (Option.some.inj h)
    have hback : (⟨(utf8 text).toArray⟩ : ByteArray) = text.toByteArray := by
      rw [utf8, Array.toArray_toList]
    rw [if_pos ⟨hlength, rfl⟩, addKeyStream_addKeyStream, hback, String.fromUTF8?,
      dif_pos text.isValidUTF8]
    rfl

/-- A process in development, without `KMS_MASTER_KEY`. -/
def sampleKeyEnv : KeyEnv := { kmsMasterKey := none, production := false }

/-- A rotation at one instant. -/
def sampleRotation (time : ℕ) (name suffix : String) : Rotation where
  publicKeyPem := "public key " ++ name
  privateKeyPem := "private key " ++ name
  kidTime := time
  kidSuffix := suffix
  createdTime := time
  iv := List.replicate 12 0
  newMasterKey := List.replicate 32 0

/-- The directory as it is. -/
def sampleReadDir : ReadDir := ⟨id, fun _ => List.Perm.refl _⟩

/-- What a call answers. -/
def answerOf {α : Type} : EStateM.Result KeyFault LocalKeyProvider α → Option α
  | .ok a _ => some a
  | .error _ _ => none

/-- Two rotations within one millisecond. -/
def sampleRotations (time : ℕ) : List Rotation :=
  [sampleRotation time "1" "09af", sampleRotation time "2" "c3d4"]

/-- On the first of May 2024. -/
theorem current_key_iff_of_twoRotations :
    ∃ first last,
      (rotateAll sampleCrypto sampleKeyEnv (sampleRotations 1714564800000) (new [])).1 =
        [first] ++ [last] ∧
      (getCurrentSigningKey sampleCrypto sampleKeyEnv sampleReadDir first.rotation).run
          (rotateAll sampleCrypto sampleKeyEnv (sampleRotations 1714564800000) (new [])).2 =
        .ok last.current
          (rotateAll sampleCrypto sampleKeyEnv (sampleRotations 1714564800000) (new [])).2 := by
  have hrun : (rotateAll sampleCrypto sampleKeyEnv (sampleRotations 1714564800000) (new [])).1 =
      [⟨sampleRotation 1714564800000 "1" "09af", "sig-2024-05-01-ed74a24c-09af", 1714564800000⟩] ++
      [⟨sampleRotation 1714564800000 "2" "c3d4", "sig-2024-05-01-e9fdc86a-c3d4", 1714564800001⟩] :=
    by decide +kernel
  have hall := (current_key_iff sampleCrypto sampleKeyEnv sampleCrypto_lawful [] rfl
    (sampleRotations 1714564800000) (by decide) (by decide +kernel) _ _ hrun).2 (by decide)
  exact ⟨_, _, hrun, (hall sampleReadDir _).1⟩

/-- The first key remains the current one, while the list begins with the second. -/
theorem last_key_not_current :
    sampleCrypto.Lawful ∧
    ((sampleRotations 253402300799999).flatMap fun r => [r.kidTime, r.createdTime]).Pairwise
      (· ≤ ·) ∧
    ((sampleRotations 253402300799999).filterMap (Rotation.kid sampleCrypto)).Nodup ∧
    ∃ first last,
      (rotateAll sampleCrypto sampleKeyEnv (sampleRotations 253402300799999) (new [])).1 =
        [first, last] ∧
      answerOf ((getCurrentSigningKey sampleCrypto sampleKeyEnv sampleReadDir first.rotation).run
        (rotateAll sampleCrypto sampleKeyEnv (sampleRotations 253402300799999) (new [])).2) =
          some first.current ∧
      answerOf ((listPublicKeys sampleReadDir).run
        (rotateAll sampleCrypto sampleKeyEnv (sampleRotations 253402300799999) (new [])).2) =
          some [last.publicKey, first.publicKey] ∧
      first.kid ≠ last.kid := by
  have hclock : ((sampleRotations 253402300799999).flatMap fun r =>
      [r.kidTime, r.createdTime]).Pairwise (· ≤ ·) := by decide
  have hkids : ((sampleRotations 253402300799999).filterMap
      (Rotation.kid sampleCrypto)).Nodup := by decide +kernel
  have hrun : (rotateAll sampleCrypto sampleKeyEnv (sampleRotations 253402300799999)
      (new [])).1 =
        [⟨sampleRotation 253402300799999 "1" "09af", "sig-9999-12-31-ed74a24c-09af",
          253402300799999⟩,
        ⟨sampleRotation 253402300799999 "2" "c3d4", "sig-9999-12-31-e9fdc86a-c3d4",
          253402300800000⟩] := by decide +kernel
  refine ⟨sampleCrypto_lawful, hclock, hkids, _, _, hrun, ?_⟩
  have hstart : Rotated sampleCrypto [] (new []) := rotated_new rfl
  obtain ⟨made, hmade, h⟩ := rotateAll_rotated sampleKeyEnv hstart (createdTimes_sorted hclock)
    (by simp) (by simpa using hkids)
  rw [hrun] at hmade
  obtain ⟨first, rest, rfl, hfirst, hrest⟩ := List.map_eq_cons_iff.1 hmade
  obtain ⟨last, rfl, hlast⟩ := List.map_eq_singleton_iff.1 hrest
  change Rotated sampleCrypto ([first] ++ [last]) _ at h
  have hbefore : first.1.createdAt < year10000 := by
    rw [hfirst]
    decide
  have hafter : year10000 ≤ last.1.createdAt := by
    rw [hlast]
    decide
  -- The text of the second time begins with a sign.
  have hgreatest : ∀ m ∈ [first] ++ [last], m ≠ first →
      sortKey m.2.createdAt < sortKey first.2.createdAt := by
    intro m hm hne
    obtain rfl : m = last := by simpa [hne] using hm
    exact sortKey_lt_of_expanded hbefore hafter (h.files first (by simp)).createdAt
      (h.files m hm).createdAt
  obtain ⟨others, hperm, hlist⟩ :=
    h.listPublicKeys sampleReadDir (by simp) h.lt_last
  have hothers : others = [first.1.publicKey] :=
    List.perm_singleton.1 ((List.perm_cons _).1 (hperm.trans (List.Perm.swap ..)))
  rw [← hfirst, ← hlast, hlist, hothers,
    h.getCurrentSigningKey sampleCrypto_lawful sampleReadDir _ (by simp) hgreatest]
  refine ⟨rfl, rfl, ?_⟩
  rw [hfirst, hlast]
  decide

end LocalKeyProvider

end IdentityPlatform
