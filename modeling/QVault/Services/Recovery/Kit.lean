import QVault.Services.Recovery.Suite

/-!
# The Recovery Kit

`qvault/services/recovery_kit.py`, except `issue`, which unlocks keys.
-/

namespace QVault.Recovery
open Python Crypto Services

def kitKemAlg : Text := "ML-KEM-768"

-- `KIT_KDF_PARAMS`
def kitKdfParams : Text := defaultParams

def kekInfo (kitUuid : Text) (userId : Int) : Bytes := ascii (text "qvault:kit-kek:v1|" ++ kitUuid ++ text "|" ++ intText userId)

def kemSkAad (kitUuid : Text) (userId : Int) : Bytes :=
  ascii (text "qvault:kit-kem-sk:v1|" ++ kitUuid ++ text "|" ++ intText userId)

def wrapInfo (kitUuid : Text) (keyId : Nat) : Bytes :=
  ascii (text "qvault:kit-sk-wrap:v1|" ++ kitUuid ++ text "|" ++ natText keyId)

def kitWrapAad (sha256 : Bytes → Bytes) (kitUuid : Text) (keyId : Nat) (publicKey : Bytes) : Bytes :=
  ascii (text "qvault:kit-sk-wrap:v1|" ++ kitUuid ++ text "|" ++ natText keyId ++ text "|" ++ sha256Hex sha256 publicKey)

def kitSelftestMessage (kitUuid : Text) (keyId : Nat) : Bytes :=
  asciiBytes "QVAULT-SIG-v1:KIT-SELFTEST|" ++ ascii (kitUuid ++ text "|" ++ natText keyId)

def Kit.record (isoZ : Int → Text) (kit : Kit) : Json :=
  .dict [("created_at", .str (isoZ kit.createdAt)),
    ("kdf_params", .dict [("time_cost", .int 3), ("memory_cost", .int 65536), ("parallelism", .int 4)]),
    ("kem_alg", .str kit.kemAlg), ("kit_salt", .str (hexText kit.salt)), ("kit_uuid", .str kit.uuid),
    ("user_id", .int kit.userId)]

def pkMacInput (isoZ : Int → Text) (kit : Kit) : Except PyError Bytes := do
  return (← canonicalJson (kit.record isoZ)) ++ asciiBytes "|" ++ kit.kemPublicKey

-- `wrapped_digest`
def wrappedDigest (sha256 : Bytes → Bytes) (key : Key) : Bytes := sha256 (key.wrapped.getD [])

namespace Db

-- The password keys a treasury seat names
def seatKeyIds (db : Db) (userId : Int) : List Nat :=
  (db.treasuries.flatMap (·.signers)).filterMap fun seat =>
    if seat.userId = userId ∧ (db.key? seat.keyId).any (·.domain = .password) then some seat.keyId else none

def keysToWrap (db : Db) (userId : Int) : List Key :=
  let wanted := db.seatKeyIds userId ++ ((db.activeSigningKey userId).map (·.id)).toList
  (db.passwordKeys userId).filter fun k => k.id ∈ wanted ∧ k.wrapped.isSome ∧ k.role = text "sig"

end Db

/-! ## Writing -/

def revokeKit (id : Nat) (reason : Text) (now : Int) (onlyActive : Bool) : Tx Bool := do
  match (← get).kit? id with
  | some kit =>
    if kit.state = .active ∨ (kit.state = .stale ∧ !onlyActive) then
      updateKit id fun k => { k with
        state := .revoked
        revokedAt := some now
        revokedReason := some reason
        kemSkWrapped := none
        kemSkNonce := none
        wraps := [] }
      append "recovery_kit_revoked" kit.userId kit.userId
        [("user_id", .int kit.userId), ("kit_uuid", .str kit.uuid), ("reason", .str reason)]
      return true
    else return false
  | none => return false

def markStale (kit : Kit) : Tx Unit := do
  if kit.state = .active then
    updateKit kit.id fun k => { k with state := .stale }
    append "recovery_kit_stale" kit.userId kit.userId [("user_id", .int kit.userId), ("kit_uuid", .str kit.uuid)]
  else return ()

section Suite
variable (suite : Suite)

def macOk (kit : Kit) : Bool :=
  kit.kemAlg == kitKemAlg && kit.kdfParams == kitKdfParams &&
    match pkMacInput suite.isoZ kit with
    | .ok data => suite.kitPkMac data == kit.kemPublicKeyMac
    | .error _ => false

-- `derive_kit_kek`, from a normalised code of 32 symbols
def deriveKitKek (code : Text) (salt : Bytes) (kitUuid : Text) (userId : Int) : Bytes :=
  suite.hkdf (suite.deriveKek (code.take 30) salt kitKdfParams ++ suite.kitPepper kitUuid) (kekInfo kitUuid userId)

-- `fresh.nonces (key.id)` and `fresh.encapsulation (key.id)` are drawn for this wrap.
def kitWrap (fresh : Fresh) (kit : Kit) (key : Key) (secretKey : Bytes) : KitWrap :=
  let (ct, shared) := suite.encapsulate (fresh.encapsulation key.id) kit.kemPublicKey
  let dek := suite.hkdf shared (wrapInfo kit.uuid key.id)
  { keyId := key.id
    kemCiphertext := ct
    nonce := fresh.nonces key.id
    wrapped := suite.encrypt dek (fresh.nonces key.id) secretKey (kitWrapAad suite.sha256 kit.uuid key.id key.publicKey) }

-- `_add_wrap`
def addWrap (fresh : Fresh) (kit : Kit) (key : Key) (secretKey : Bytes) : Tx Unit := do
  if kit.kemAlg ≠ kitKemAlg then throw .kitUnusable
  else updateKit kit.id fun k => { k with
    wraps := (k.wraps.filter fun w => w.keyId ≠ key.id) ++ [kitWrap suite fresh kit key secretKey] }

def onNewKey (fresh : Fresh) (userId : Int) (key : Key) (secretKey : Bytes) : Tx Unit := do
  match (← get).activeKit userId with
  | none => return ()
  | some kit => if macOk suite kit then addWrap suite fresh kit key secretKey else markStale kit

def forgetUnneededWraps (userId : Int) : Tx Unit := do
  let db ← get
  match db.activeKit userId with
  | none => return ()
  | some kit =>
    let wanted := (db.keysToWrap userId).map (·.id)
    updateKit kit.id fun k => { k with wraps := k.wraps.filter fun w => w.keyId ∈ wanted }

/-! ## Opening -/

def openKemKey (kit : Kit) (code : Text) : Except Refusal Bytes :=
  match kit.state, kit.kemSkWrapped, kit.kemSkNonce with
  | .active, some wrapped, some nonce =>
    if !macOk suite kit then .error .kitUnusable
    else
      match suite.decrypt (deriveKitKek suite code kit.salt kit.uuid kit.userId) nonce wrapped
          (kemSkAad kit.uuid kit.userId) with
      | some secret => .ok secret
      | none => .error .wrongCode
  | _, _, _ => .error .kitUnusable

-- One wrap of `open_wraps`: a key is never taken from a kit unless it was watched to sign.
def openWrap (keys : List Key) (kit : Kit) (kemSecretKey : Bytes) (wrap : KitWrap) : Except Refusal (Nat × Bytes) := do
  let some key := keys.find? fun k => k.id = wrap.keyId | throw .kitBroken
  if key.ownerId ≠ kit.userId then throw .kitBroken
  else if wrap.kemCiphertext.length ≠ suite.ciphertextSize then throw .kitBroken
  else
    let some shared := suite.decapsulate kemSecretKey wrap.kemCiphertext | throw .kitBroken
    let dek := suite.hkdf shared (wrapInfo kit.uuid key.id)
    let some secret := suite.decrypt dek wrap.nonce wrap.wrapped (kitWrapAad suite.sha256 kit.uuid key.id key.publicKey)
      | throw .kitBroken
    let message := kitSelftestMessage kit.uuid key.id
    if suite.verify key.algId key.publicKey message (suite.sign key.algId secret message) then return (key.id, secret)
    else throw .kitBroken

def openWraps (keys : List Key) (kit : Kit) (kemSecretKey : Bytes) : Except Refusal (List (Nat × Bytes)) :=
  kit.wraps.mapM (openWrap suite keys kit kemSecretKey)

end Suite

end QVault.Recovery
