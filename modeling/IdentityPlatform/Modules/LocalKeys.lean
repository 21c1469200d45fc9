/-
# Local keys

`LocalKeyProvider` of `local-key-provider.ts`: the signing keys of a directory, one file for
each, with the private key wrapped by the master key.

A call reads and changes the provider and its directory.  What it takes from outside is an
argument: the times of the clock, the generated key pair, random bytes and the order in which
`readdirSync` lists the directory.  The directory holds text files as well, of which the
provider reads only `master.key`.
-/

import IdentityPlatform.Calendar.Timestamps
import IdentityPlatform.Common.Text

namespace IdentityPlatform

open Calendar

/-! ### Collation -/

/-- The characters of kids and of timestamps, in the order of the root collation. -/
def collation : List Char := "_-:.+0123456789abcdefghijklmnopqrstuvwxyz".toList

/-- The primary weight of a character; cases of a letter have the same. -/
def primaryWeight (c : Char) : ℕ :=
  if c.toLower ∈ collation then collation.idxOf c.toLower + 1 else 100 + c.toNat

/-- The sort key of a text: the primary weights, and the cases for texts that agree in them. -/
def sortKey (text : String) : List ℕ :=
  text.toList.map primaryWeight ++ 0 :: text.toList.map fun c => if c.isUpper then 1 else 0

/-- `a.localeCompare(b)`. -/
def localeCompare (a b : String) : ℤ :=
  if sortKey a < sortKey b then -1 else if sortKey b < sortKey a then 1 else 0

/-- `a || b`, of numbers. -/
def orNumber (a b : ℤ) : ℤ := if a = 0 then b else a

/-- `list.sort(compare)`, which keeps the order of equal items. -/
def sortBy {α : Type} (compare : α → α → ℤ) (list : List α) : List α :=
  list.insertionSort fun a b => compare a b ≤ 0

/-! ### The provider -/

/-- What a call of the provider throws. -/
inductive KeyFault
  /-- `KmsError`. -/
  | kms (message : String)
  /-- Of `toISOString` at a time that has no text, and of a cipher whose key has a wrong length. -/
  | rangeError
  /-- Of `JSON.parse`. -/
  | syntaxError
  /-- Of `Buffer.from` without an argument. -/
  | typeError
  /-- Of a ciphertext that does not belong to its tag. -/
  | cipherError
  deriving DecidableEq, Repr

/-- `WrappedSigningKeyFile`. -/
structure WrappedSigningKeyFile where
  kid : String
  alg : String
  createdAt : String
  publicKeyPem : String
  wrappedPrivateKey : String
  deriving DecidableEq, Repr

/-- `SigningPublicKey`; its time is `none` if it is an invalid date. -/
structure SigningPublicKey where
  kid : String
  algorithm : String
  publicKeyPem : String
  createdAt : Option ℕ
  deriving DecidableEq, Repr

/-- The answer of `getCurrentSigningKey`. -/
structure CurrentSigningKey where
  kid : String
  privateKeyPem : String
  publicKeyPem : String
  deriving DecidableEq, Repr

/-- What a file holds: the JSON of a key, or a text. -/
inductive FileContent
  | signingKey (file : WrappedSigningKeyFile)
  | text (content : String)
  deriving DecidableEq, Repr

/-- The files of a directory, by their names. -/
abbrev Directory := List (String × FileContent)

/-- `writeFileSync`. -/
def Directory.write (dir : Directory) (name : String) (content : FileContent) : Directory :=
  dir.filter (fun entry => entry.1 ≠ name) ++ [(name, content)]

/-- The order in which `readdirSync` lists a directory. -/
structure ReadDir where
  list : Directory → Directory
  perm : ∀ dir, (list dir).Perm dir

/-- The functions of `node:crypto` and `Buffer` that the provider uses. -/
structure KeyCrypto where
  sha256Hex : String → String
  base64 : List UInt8 → String
  fromBase64 : String → List UInt8
  /-- AES-256-GCM, with key and IV: ciphertext and tag, unless the key has a wrong length. -/
  encrypt : List UInt8 → List UInt8 → String → Option (List UInt8 × List UInt8)
  /-- With key, IV, ciphertext and tag. -/
  decrypt : List UInt8 → List UInt8 → List UInt8 → List UInt8 → Option String

/-- The environment variables of the process. -/
structure KeyEnv where
  /-- `KMS_MASTER_KEY`. -/
  kmsMasterKey : Option String
  /-- `NODE_ENV === 'production'`. -/
  production : Bool

/-- `LocalKeyProvider`, with the files of its directory. -/
structure LocalKeyProvider where
  keyDir : Directory
  masterKeyCache : Option (List UInt8)
  rotateSeq : ℕ
  deriving DecidableEq, Repr

/-- What a rotation takes from outside. -/
structure Rotation where
  publicKeyPem : String
  privateKeyPem : String
  /-- `new Date()`, for the kid. -/
  kidTime : ℕ
  /-- `randomBytes(2).toString('hex')`. -/
  kidSuffix : String
  /-- `Date.now()`, for `createdAt`. -/
  createdTime : ℕ
  iv : List UInt8
  /-- `randomBytes(32)`, for a master key that does not exist yet. -/
  newMasterKey : List UInt8
  deriving DecidableEq, Repr

/-- A call of the provider. -/
abbrev Kms (α : Type) := EStateM KeyFault LocalKeyProvider α

namespace LocalKeyProvider

/-- A provider that has just been constructed. -/
def new (keyDir : Directory) : LocalKeyProvider :=
  { keyDir := keyDir, masterKeyCache := none, rotateSeq := 0 }

variable (crypto : KeyCrypto) (env : KeyEnv)

/-! ### Master key -/

/-- The text of `master.key`, which is written first if there is none. -/
def masterFile (newMasterKey : List UInt8) : Kms String := do
  match (← get).keyDir.find? fun entry => entry.1 = "master.key" with
  | some (_, .text content) => pure content
  | some (_, .signingKey _) => throw .syntaxError
  | none =>
      modify fun p =>
        { p with keyDir := p.keyDir.write "master.key" (.text (crypto.base64 newMasterKey)) }
      pure (crypto.base64 newMasterKey)

/-- `masterKey`. -/
def masterKey (newMasterKey : List UInt8) : Kms (List UInt8) := do
  match (← get).masterKeyCache with
  | some key => pure key
  | none =>
      let fromEnv := (env.kmsMasterKey.getD "")
      if trimText fromEnv ≠ "" then
        let buf := crypto.fromBase64 fromEnv
        if buf.length ≠ 32 then throw (.kms "KMS_MASTER_KEY must be 32 bytes base64")
        modify fun p => { p with masterKeyCache := some buf }
        pure buf
      else if env.production then throw (.kms "KMS_MASTER_KEY is required in production")
      else
        let content ← masterFile crypto newMasterKey
        let key := crypto.fromBase64 (trimText content)
        modify fun p => { p with masterKeyCache := some key }
        pure key

/-! ### Signing keys -/

/-- The text of a wrapped key. -/
def wrapped (iv : List UInt8) (sealed : List UInt8 × List UInt8) : String :=
  String.ofList (['.'].intercalate
    [['1'], (crypto.base64 iv).toList, (crypto.base64 sealed.1).toList,
      (crypto.base64 sealed.2).toList])

/-- `wrapPrivateKey`. -/
def wrapPrivateKey (privateKeyPem : String) (iv newMasterKey : List UInt8) : Kms String := do
  let key ← masterKey crypto env newMasterKey
  match crypto.encrypt key iv privateKeyPem with
  | some sealed => pure (wrapped crypto iv sealed)
  | none => throw .rangeError

/-- `unwrapPrivateKey`. -/
def unwrapPrivateKey (text : String) (newMasterKey : List UInt8) : Kms String := do
  let parts := text.toList.splitOn '.'
  if parts.head? ≠ some ['1'] then throw (.kms "Unsupported wrapped key version")
  let key ← masterKey crypto env newMasterKey
  match parts.tail with
  | iv :: ct :: tag :: _ =>
      match crypto.decrypt key (crypto.fromBase64 (String.ofList iv))
          (crypto.fromBase64 (String.ofList ct)) (crypto.fromBase64 (String.ofList tag)) with
      | some privateKeyPem => pure privateKeyPem
      | none => throw .cipherError
  | _ => throw .typeError

/-- The name of the file of a key. -/
def fileName (kid : String) : String := "signing-" ++ kid ++ ".json"

/-- `keyFilePath`, without the directory. -/
def keyFilePath (kid : String) : Kms String :=
  if utf8 kid ≠ [] ∧ (utf8 kid).all isNameByte then pure (fileName kid)
  else throw (.kms "Invalid kid")

/-- The names of the files of keys. -/
def isSigningKeyFile (name : String) : Bool :=
  decide ("signing-".toList <+: name.toList) && endsWithText name ".json"

/-- `JSON.parse(readFileSync(…))`. -/
def parseFile : String × FileContent → Except KeyFault WrappedSigningKeyFile
  | (_, .signingKey file) => .ok file
  | (_, .text _) => .error .syntaxError

/-- The comparison of `listSigningKeyFiles`. -/
def compareFiles (a b : WrappedSigningKeyFile) : ℤ :=
  orNumber (localeCompare b.createdAt a.createdAt) (localeCompare b.kid a.kid)

/-- `listSigningKeyFiles`. -/
def listSigningKeyFiles (readdir : ReadDir) : Kms (List WrappedSigningKeyFile) := do
  let names := (readdir.list (← get).keyDir).filter fun entry => isSigningKeyFile entry.1
  match names.mapM parseFile with
  | .ok files => pure (sortBy compareFiles files)
  | .error fault => throw fault

/-- The kid of a rotation. -/
def Rotation.kid (rotation : Rotation) : Option String :=
  (toISOString rotation.kidTime).map fun text =>
    "sig-" ++ String.ofList (text.take 10) ++ "-" ++
      String.ofList ((crypto.sha256Hex rotation.publicKeyPem).toList.take 8) ++ "-" ++
      rotation.kidSuffix

/-- `rotateSigningKey`. -/
def rotateSigningKey (rotation : Rotation) : Kms String := do
  match Rotation.kid crypto rotation with
  | none => throw .rangeError
  | some kid =>
      let rotateSeq := (← get).rotateSeq
      modify fun p => { p with rotateSeq := rotateSeq + 1 }
      match toISOString (rotation.createdTime + rotateSeq) with
      | none => throw .rangeError
      | some createdAt =>
          let wrappedPrivateKey ←
            wrapPrivateKey crypto env rotation.privateKeyPem rotation.iv rotation.newMasterKey
          let file : WrappedSigningKeyFile :=
            { kid := kid, alg := "EdDSA", createdAt := String.ofList createdAt,
              publicKeyPem := rotation.publicKeyPem, wrappedPrivateKey := wrappedPrivateKey }
          let path ← keyFilePath kid
          modify fun p => { p with keyDir := p.keyDir.write path (.signingKey file) }
          pure kid

/-- The first key of the list, with its private key. -/
def currentOf (newMasterKey : List UInt8) : List WrappedSigningKeyFile → Kms CurrentSigningKey
  | [] => throw (.kms "No signing key available")
  | current :: _ => do
      let privateKeyPem ← unwrapPrivateKey crypto env current.wrappedPrivateKey newMasterKey
      pure { kid := current.kid, privateKeyPem := privateKeyPem,
             publicKeyPem := current.publicKeyPem }

/-- `getCurrentSigningKey`.  The recursion of the source is written out: the list is not empty
after the rotation. -/
def getCurrentSigningKey (readdir : ReadDir) (rotation : Rotation) : Kms CurrentSigningKey := do
  let files ← listSigningKeyFiles readdir
  if files.length = 0 then
    let _ ← rotateSigningKey crypto env rotation
    currentOf crypto env rotation.newMasterKey (← listSigningKeyFiles readdir)
  else currentOf crypto env rotation.newMasterKey files

/-- The public key of a file. -/
def publicKeyOf (file : WrappedSigningKeyFile) : SigningPublicKey :=
  { kid := file.kid, algorithm := "EdDSA", publicKeyPem := file.publicKeyPem,
    createdAt := parseISO file.createdAt.toList }

/-- `getPublicKey`. -/
def getPublicKey (readdir : ReadDir) (kid : String) : Kms SigningPublicKey := do
  match (← listSigningKeyFiles readdir).find? fun file => file.kid = kid with
  | some file => pure (publicKeyOf file)
  | none => throw (.kms ("Unknown signing key: " ++ kid))

/-- `b.getTime() - a.getTime()`; the difference of an invalid date counts as none. -/
def timeDifference : Option ℕ → Option ℕ → ℤ
  | some b, some a => b - a
  | _, _ => 0

/-- The comparison of `listPublicKeys`. -/
def compareKeys (a b : SigningPublicKey) : ℤ :=
  orNumber (timeDifference b.createdAt a.createdAt) (localeCompare b.kid a.kid)

/-- `listPublicKeys`. -/
def listPublicKeys (readdir : ReadDir) : Kms (List SigningPublicKey) := do
  pure (sortBy compareKeys ((← listSigningKeyFiles readdir).map publicKeyOf))

end LocalKeyProvider

end IdentityPlatform
