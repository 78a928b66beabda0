import QVault.Python.Text
import QVault.Lib.IdealAead

/-!
# File encryption at rest

`qvault/services/file_crypto_service.py` with `wrap_secret` and `unwrap_secret` of `qvault/security/master_key.py`
and the vault keys of `create_vault` and `rotate_vault_key`. AES-GCM is ideal: what opens is what was sealed.
-/

namespace QVault.Services.FileCrypto
open Python IdealAead

/-! ## Algorithms -/

/-- A KEM: `keygen` and `encapsulate` with what they draw. `decapsulate` is none where the backend raises. -/
structure Kem where
  keygen : Bytes → Bytes × Bytes
  encapsulate : Bytes → Bytes → Bytes × Bytes
  decapsulate : Bytes → Bytes → Option Bytes
  -- `meta.sizes.get("ciphertext")`
  ciphertextSize : Option Nat
  correct : ∀ seed coins, decapsulate (keygen seed).2 (encapsulate (keygen seed).1 coins).1 =
    some (encapsulate (keygen seed).1 coins).2
  sized : ∀ seed coins, ∀ size ∈ ciphertextSize, (encapsulate (keygen seed).1 coins).1.length = size

/-- The registry, the hash functions and the master key of one server. -/
structure Suite where
  encrypt : Bytes → Bytes → Bytes → Bytes → Bytes
  encrypt_injective : ∀ key nonce aad, Function.Injective (encrypt key nonce aad)
  kem : Text → Option Kem
  hkdf : Bytes → Bytes
  hkdf_length : ∀ secret, (hkdf secret).length = 32
  sha256 : Bytes → Text
  masterKey : Bytes
  masterKey_length : masterKey.length = 32

-- `AESGCM` takes a key of 128, 192 or 256 bits and a nonce of 8 to 128 bytes.
def keyOk (key : Bytes) : Bool := key.length = 16 ∨ key.length = 24 ∨ key.length = 32
def nonceOk (nonce : Bytes) : Bool := 8 ≤ nonce.length ∧ nonce.length ≤ 128

def Suite.aesGcm (suite : Suite) : Scheme Bytes Bytes Bytes Bytes Bytes where
  encrypt := suite.encrypt
  encrypt_injective := suite.encrypt_injective
  keyOk := keyOk
  nonceOk := nonceOk

abbrev Log := List (Sealing Bytes Bytes Bytes Bytes)

def masterAad : Bytes := asciiBytes "qvault:master-wrap:v1"

-- `str(vault_id).encode()`
def idBytes (vaultId : Nat) : Bytes := (natText vaultId).flatMap utf8CodePoint

def fileAad (vaultId : Nat) : Bytes := asciiBytes "qvault:file:v1|vault=" ++ idBytes vaultId
def dekAad (vaultId : Nat) : Bytes := asciiBytes "qvault:dek:v1|vault=" ++ idBytes vaultId

/-! ## Rows -/

structure KeyRow where
  id : Nat
  algId : Text
  publicKey : Bytes
  secretKeyWrapped : Bytes
  secretKeyNonce : Bytes
  active : Bool
  version : Nat

structure VaultRow where
  id : Nat
  kemAlgId : Text
  kemPublicKey : Bytes
  kemKeyId : Nat

structure FileRow where
  filename : Text
  contentSha256 : Text
  ciphertextPath : Text
  sizeBytes : Nat
  aesNonce : Bytes
  kemAlgId : Text
  kemKeyId : Nat
  kemCiphertext : Bytes
  wrappedDek : Bytes
  dekWrapNonce : Bytes

-- What the functions read and write: the rows of keys, the files on disk, and what AES-GCM has sealed
structure Disk where
  keys : List KeyRow
  storage : Text → Option Bytes
  log : Log

variable (suite : Suite)

def Disk.key (disk : Disk) (id : Nat) : Option KeyRow := disk.keys.find? fun k => k.id = id

/-! ## Encryption -/

-- What `encrypt_and_store` draws
structure Draws where
  dek : Bytes
  aesNonce : Bytes
  coins : Bytes
  dekWrapNonce : Bytes

def storagePath (vaultId : Nat) (storageKey : Text) : Text := natText vaultId ++ text "/" ++ storageKey ++ text ".bin"

-- `encrypt_and_store`, none where the registry has no such KEM
def encryptAndStore (disk : Disk) (vault : VaultRow) (filename : Text) (plaintext : Bytes) (storageKey : Text)
    (draws : Draws) : Option (FileRow × Disk) :=
  (suite.kem vault.kemAlgId).map fun kem =>
    let fileCiphertext := suite.encrypt draws.dek draws.aesNonce (fileAad vault.id) plaintext
    let (kemCiphertext, sharedSecret) := kem.encapsulate vault.kemPublicKey draws.coins
    let wrapKey := suite.hkdf sharedSecret
    let wrappedDek := suite.encrypt wrapKey draws.dekWrapNonce (dekAad vault.id) draws.dek
    let path := storagePath vault.id storageKey
    (⟨filename, suite.sha256 plaintext, path, plaintext.length, draws.aesNonce, vault.kemAlgId, vault.kemKeyId,
        kemCiphertext, wrappedDek, draws.dekWrapNonce⟩,
      { disk with
        storage := fun p => if p = path then some fileCiphertext else disk.storage p
        log := disk.log ++ [⟨draws.dek, draws.aesNonce, fileAad vault.id, plaintext⟩,
          ⟨wrapKey, draws.dekWrapNonce, dekAad vault.id, draws.dek⟩] })

/-! ## Decryption -/

inductive Failure
  -- `FileDecryptError`, and `CiphertextMissing` below it
  | keyNotFound | malformedCiphertext | unauthenticated | hashMismatch | ciphertextMissing
  -- exceptions of other classes
  | unknownAlgorithm | invalidValue | kemBackend
  deriving DecidableEq

def Failure.isFileDecryptError : Failure → Bool
  | .keyNotFound | .malformedCiphertext | .unauthenticated | .hashMismatch | .ciphertextMissing => true
  | .unknownAlgorithm | .invalidValue | .kemBackend => false

-- An InvalidTag is caught; AESGCM refuses a key or a nonce with a ValueError, which is not.
def caught : Fault → Failure
  | .tag => .unauthenticated
  | .key | .nonce => .invalidValue

def openSealed (log : Log) (key nonce ciphertext aad : Bytes) : Except Failure Bytes :=
  (reveal suite.aesGcm log key nonce ciphertext aad).mapError caught

def orElse {α : Type} (failure : Failure) : Option α → Except Failure α
  | some a => .ok a
  | none => .error failure

-- `unwrap_secret`
def unwrapSecret (log : Log) (nonce ciphertext : Bytes) : Except Failure Bytes :=
  openSealed suite log suite.masterKey nonce ciphertext masterAad

def decrypt (disk : Disk) (vaultId : Nat) (file : FileRow) : Except Failure Bytes := do
  let vaultKey ← orElse .keyNotFound (disk.key file.kemKeyId)
  let kem ← orElse .unknownAlgorithm (suite.kem file.kemAlgId)
  if kem.ciphertextSize.any fun size => file.kemCiphertext.length ≠ size then throw .malformedCiphertext
  let secretKey ← unwrapSecret suite disk.log vaultKey.secretKeyNonce vaultKey.secretKeyWrapped
  let sharedSecret ← orElse .kemBackend (kem.decapsulate secretKey file.kemCiphertext)
  let wrapKey := suite.hkdf sharedSecret
  let dek ← openSealed suite disk.log wrapKey file.dekWrapNonce file.wrappedDek (dekAad vaultId)
  let ciphertext ← orElse .ciphertextMissing (disk.storage file.ciphertextPath)
  let plaintext ← openSealed suite disk.log dek file.aesNonce ciphertext (fileAad vaultId)
  if suite.sha256 plaintext ≠ file.contentSha256 then throw .hashMismatch
  return plaintext

/-! ## The keys of vaults -/

-- The row `create_vault` and `rotate_vault_key` add, its secret sealed under the master key
def newKey (kem : Kem) (id : Nat) (algId : Text) (version : Nat) (seed nonce : Bytes) : KeyRow :=
  ⟨id, algId, (kem.keygen seed).1, suite.encrypt suite.masterKey nonce masterAad (kem.keygen seed).2, nonce, true, version⟩

def sealing (kem : Kem) (seed nonce : Bytes) : Sealing Bytes Bytes Bytes Bytes :=
  ⟨suite.masterKey, nonce, masterAad, (kem.keygen seed).2⟩

-- A stored file, with the vault it is of and the bytes that were uploaded
structure Stored where
  vaultId : Nat
  row : FileRow
  uploaded : Bytes

structure World extends Disk where
  vaults : List VaultRow
  -- the vault rows that requests have loaded, which may be out of date
  loaded : List VaultRow
  -- encrypted, and not committed yet
  uploads : List Stored
  files : List Stored
  -- the storage keys drawn so far
  storageKeys : List Text

-- `create_vault`, of the key and the vault
def createVault (w : World) (vaultId keyId : Nat) (algId : Text) (seed nonce : Bytes) : Option World :=
  (suite.kem algId).map fun kem =>
    { w with
      keys := w.keys ++ [newKey suite kem keyId algId 1 seed nonce]
      log := w.log ++ [sealing suite kem seed nonce]
      vaults := w.vaults ++ [⟨vaultId, algId, (kem.keygen seed).1, keyId⟩] }

-- `rotate_vault_key`: the old key is retired, and kept.
def rotateVaultKey (w : World) (vault : VaultRow) (keyId : Nat) (seed nonce : Bytes) : Option World :=
  (suite.kem vault.kemAlgId).map fun kem =>
    let old := w.key vault.kemKeyId
    let version := (old.map (·.version)).elim 1 (· + 1)
    { w with
      keys := (w.keys.map fun k => if k.id = vault.kemKeyId then { k with active := false } else k) ++
        [newKey suite kem keyId vault.kemAlgId version seed nonce]
      log := w.log ++ [sealing suite kem seed nonce]
      vaults := w.vaults.map fun v =>
        if v.id = vault.id then { v with kemAlgId := vault.kemAlgId, kemKeyId := keyId, kemPublicKey := (kem.keygen seed).1 }
        else v }

-- `remove_ciphertext`, after a transaction that failed
def removeCiphertext (disk : Disk) (path : Text) : Disk :=
  { disk with storage := fun p => if p = path then none else disk.storage p }

/-! ## A run -/

/-- Uploads, rotations and new vaults in any order, each upload in steps of its own. Ids and storage keys are
fresh, and what `os.urandom` draws repeats no nonce of a key. -/
inductive Step : World → World → Prop
  | createVault {w w' : World} {vaultId keyId : Nat} {algId : Text} {seed nonce : Bytes}
    (freshVault : ∀ v ∈ w.vaults, v.id ≠ vaultId) (freshKey : ∀ k ∈ w.keys, k.id ≠ keyId)
    (formed : nonce.length = 12) (unused : Unused w.log suite.masterKey nonce)
    (made : createVault suite w vaultId keyId algId seed nonce = some w') : Step w w'
  -- with the vault as a request loaded it
  | rotate {w w' : World} {vault : VaultRow} {keyId : Nat} {seed nonce : Bytes} (among : vault ∈ w.loaded)
    (freshKey : ∀ k ∈ w.keys, k.id ≠ keyId) (formed : nonce.length = 12) (unused : Unused w.log suite.masterKey nonce)
    (made : rotateVaultKey suite w vault keyId seed nonce = some w') : Step w w'
  | load {w : World} {vault : VaultRow} (among : vault ∈ w.vaults) : Step w { w with loaded := vault :: w.loaded }
  | upload {w : World} {vault : VaultRow} {filename storageKey : Text} {plaintext : Bytes} {draws : Draws} {row : FileRow}
    {disk : Disk} (among : vault ∈ w.loaded) (freshKey : storageKey ∉ w.storageKeys)
    (formed : draws.dek.length = 32 ∧ draws.aesNonce.length = 12 ∧ draws.dekWrapNonce.length = 12)
    (made : encryptAndStore suite w.toDisk vault filename plaintext storageKey draws = some (row, disk))
    (once : Once disk.log) :
    Step w { w with toDisk := disk, uploads := ⟨vault.id, row, plaintext⟩ :: w.uploads, storageKeys := storageKey :: w.storageKeys }
  | commit {w : World} {upload : Stored} {rest : List Stored} (waiting : w.uploads.Perm (upload :: rest)) :
    Step w { w with uploads := rest, files := upload :: w.files }
  | abandon {w : World} {upload : Stored} {rest : List Stored} (waiting : w.uploads.Perm (upload :: rest)) :
    Step w { w with toDisk := removeCiphertext w.toDisk upload.row.ciphertextPath, uploads := rest }
  -- AES-GCM is used for something else: a signing key, a phone's secret, the system key.
  | other {w : World} {s : Sealing Bytes Bytes Bytes Bytes} (foreign : ∀ vaultId, s.aad ≠ fileAad vaultId ∧ s.aad ≠ dekAad vaultId)
    (unused : Unused w.log s.key s.nonce) : Step w { w with log := w.log ++ [s] }

def emptyWorld : World := ⟨⟨[], fun _ => none, []⟩, [], [], [], [], []⟩

inductive Reached : World → Prop
  | start : Reached emptyWorld
  | step {w w' : World} (reached : Reached w) (step : Step suite w w') : Reached w'

/-! ## Tampering -/

-- What is written over the columns of a file and of its key, and over the stored bytes, none to delete them,
-- with what its writer has sealed under keys of their own
structure Tampering where
  kemCiphertext : Bytes
  wrappedDek : Bytes
  dekWrapNonce : Bytes
  aesNonce : Bytes
  secretKeyWrapped : Bytes
  secretKeyNonce : Bytes
  stored : Option Bytes
  own : Log

def Tampering.row (t : Tampering) (file : FileRow) : FileRow :=
  { file with
    kemCiphertext := t.kemCiphertext
    wrappedDek := t.wrappedDek
    dekWrapNonce := t.dekWrapNonce
    aesNonce := t.aesNonce }

def Tampering.disk (t : Tampering) (disk : Disk) (file : FileRow) : Disk :=
  { disk with
    keys := disk.keys.map fun k =>
      if k.id = file.kemKeyId then { k with secretKeyWrapped := t.secretKeyWrapped, secretKeyNonce := t.secretKeyNonce } else k
    storage := fun p => if p = file.ciphertextPath then t.stored else disk.storage p
    log := disk.log ++ t.own }

def decryptTampered (disk : Disk) (vaultId : Nat) (file : FileRow) (t : Tampering) : Except Failure Bytes :=
  decrypt suite (t.disk disk file) vaultId (t.row file)

-- The encryption columns of another file, with either's bytes
def exchanged (file other : FileRow) (ciphertextPath : Text) : FileRow :=
  { file with
    ciphertextPath
    aesNonce := other.aesNonce
    kemAlgId := other.kemAlgId
    kemKeyId := other.kemKeyId
    kemCiphertext := other.kemCiphertext
    wrappedDek := other.wrappedDek
    dekWrapNonce := other.dekWrapNonce }

end QVault.Services.FileCrypto
