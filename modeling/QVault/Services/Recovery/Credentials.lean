import QVault.Services.Recovery.Vouching

/-!
# Passwords and the keys they open

`qvault/services/key_service.py`, `auth_service.py` and `recovery_kit.issue`: what an account's password
is proven for, and the four writers of its keys.
-/

namespace QVault.Recovery
open Python Crypto Services Programs Sessions

variable (suite : Suite) (me : Nat)

-- A password was found right.
def noteProof (user : User) (via : Text) : Work Unit :=
  .ask ⟨fun _ => true, fun db => { db with proofs := db.proofs ++ [⟨user.id, user.kekSalt, via, db.clock⟩] }⟩
    fun _ => .done (.ok ())

def guardPassword (userId : Int) : Work Unit := do
  if (← look).lockedOut userId then raise .passwordLocked else return ()

def loadUser (userId : Int) : Work User := do
  match (← look).user? userId with
  | some user => return user
  | none => raise .lookup

-- `prove_password`, in the caller's transaction
def provePassword (user : User) (password via : Text) : Work (List Mark) := do
  guardPassword user.id
  if suite.verifyPassword user.passwordHash password then
    noteProof user via
    passwordProven me user.id via
  else raise .wrongPassword

def unlockSecretKey (user : User) (key : Key) (password : Text) : Work (Bytes × List Mark) := do
  match key.wrapped, key.nonce with
  | some wrapped, some nonce =>
    guardPassword user.id
    let db ← look
    if db.recoveryDue me user.id (← clock) then raise .wrongPassword
    else
      match suite.decrypt (suite.deriveKek password user.kekSalt user.kdfParams) nonce wrapped wrapAad with
      | none => raise .wrongPassword
      | some secretKey =>
        noteProof user "signing"
        return (secretKey, ← passwordProven me user.id "signing")
  | _, _ => raise .wrongPassword

-- Every key, with its private half, before anything is written
def unlockAll (user : User) (password : Text) : List Key → Work (List (Key × Bytes) × List Mark)
  | [] => return ([], [])
  | key :: rest => do
    let (secretKey, marks) ← unlockSecretKey suite me user key password
    let (others, more) ← unlockAll user password rest
    return ((key, secretKey) :: others, marks ++ more)

/-! ## Doors that open with the password -/

-- `complete_if_due`, for a caller that has loaded the account: its row is read again only after a commit.
def completeThenReload (user : User) : Work User := do
  let now ← clock
  match (← look).dueRequest user.id now with
  | none => return user
  | some r =>
    discard (complete suite me r.id now)
    loadUser user.id

-- A signed-in door that unlocks no key: what it writes is not modelled, only whether it commits.
def passwordDoor (userId : Int) (password via : Text) (completesFirst commits : Bool) : Work Unit := do
  let user ← loadUser userId
  let user ← (if completesFirst then completeThenReload suite me user else pure user)
  let marks ← provePassword suite me user password via
  if commits then transact me (markIds marks) (applyAll (passwordCancellation userId via) marks) else rollback me

-- `sign_with_key` and its caller's transaction
def signWithKey (userId : Int) (keyId : Nat) (password : Text) (message : Bytes) (commits : Bool) : Work Unit := do
  let user ← loadUser userId
  let some key := (← look).key? keyId | raise .lookup
  let (secretKey, marks) ← unlockSecretKey suite me user key password
  if !suite.verify key.algId key.publicKey message (suite.sign key.algId secretKey message) then raise .signFault
  else if commits then transact me (markIds marks) (applyAll (passwordCancellation userId "signing") marks)
  else rollback me

def authenticate (email password : Text) : Work Unit := do
  let db ← look
  let some user := db.users.find? fun u => u.email = suite.lower (strip email) | return ()
  let user ← completeThenReload suite me user
  let seen := (← look).epochs user.id
  if suite.verifyPassword user.passwordHash password then
    if (← look).epochs user.id ≠ seen then return ()
    else
      noteProof user "sign_in"
      discard (passwordProven me user.id "sign_in")
  else return ()

/-! ## Writers of keys -/

variable (fresh : Fresh)

def generateSigningKey (user : User) (password : Text) : Tx Key := do
  let created := (← get).clock
  let nonce := fresh.nonces 0
  let wrapped := suite.encrypt (suite.deriveKek password user.kekSalt user.kdfParams) nonce fresh.secretKey wrapAad
  let key ← addKey fun id =>
    { id, ownerId := user.id, role := "sig", algId := suite.activeSignatureAlg, publicKey := fresh.publicKey
      wrapped := some wrapped, nonce := some nonce, domain := .password, status := .active
      canSign := true, canVerify := true, createdAt := created, retiredAt := none }
  onNewKey suite fresh user.id key fresh.secretKey
  return key

def newUser (email password : Text) (id : Int) : User where
  id := id
  email := email
  passwordHash := suite.hashPassword fresh.passwordSalt password
  kekSalt := fresh.kekSalt
  kdfParams := defaultParams

def insertUser (email password : Text) : Tx Unit := do
  let db ← get
  if db.users.any (·.email = email) then throw .emailTaken
  else
    let user := newUser suite fresh email password ((db.users.map (·.id)).foldl max 0 + 1)
    set { db with users := db.users ++ [user] }
    let key ← generateSigningKey suite fresh user password
    append "user_registered" user.id user.id
      [userIdPayload user.id, ("email", .str user.email), ("key_id", .int key.id), ("alg_id", .str key.algId),
        ("public_key_sha256", shaText suite key.publicKey)]

def registerUser (email password : Text) : Work Unit := do
  let email := suite.lower (strip email)
  if (← look).users.any (·.email = email) then raise .emailTaken
  else transact me [] (insertUser suite fresh email password)

def rewrapKey (kek : Bytes) (unlocked : Key × Bytes) : Tx Unit :=
  updateKey unlocked.1.id fun k => { k with
    nonce := some (fresh.nonces k.id)
    wrapped := some (suite.encrypt kek (fresh.nonces k.id) unlocked.2 wrapAad) }

def changeCredential (user : User) (newPassword : Text) (unlocked : List (Key × Bytes)) : Tx Unit := do
  unlocked.forM (rewrapKey suite fresh (suite.deriveKek newPassword fresh.kekSalt user.kdfParams))
  updateUser user.id fun u => { u with
    kekSalt := fresh.kekSalt
    passwordHash := suite.hashPassword fresh.passwordSalt newPassword }
  bumpEpoch user.id
  append "password_changed" user.id user.id [userIdPayload user.id, ("keys_rewrapped", .int unlocked.length)]

def changePassword (userId : Int) (currentPassword newPassword : Text) : Work Unit := do
  guardPassword userId
  discard (preparePasswordWrite suite me userId (← clock))
  let user ← loadUser userId
  if !suite.verifyPassword user.passwordHash currentPassword then raise .wrongPassword
  else
    let keys := (← look).passwordKeys userId
    let (unlocked, marks) ← unlockAll suite me user currentPassword keys
    transact me (markIds marks) do
      applyAll (passwordCancellation userId "signing") marks
      changeCredential suite fresh user newPassword unlocked

def retireKey (now : Int) (old : Key) : Tx Unit :=
  updateKey old.id fun k => { k with status := .retired, canSign := false, retiredAt := some now }

def replaceKey (user : User) (password : Text) : Tx Unit := do
  let old := (← get).activeSigningKey user.id
  let new ← generateSigningKey suite fresh user password
  let now := (← get).clock
  (match old with
    | some old => if old.id ≠ new.id then retireKey now old else pure ()
    | none => pure ())
  forgetUnneededWraps user.id
  append "key_reissued" user.id user.id
    [userIdPayload user.id, ("old_key_id", match old with | some old => .int old.id | none => .null),
      ("new_key_id", .int new.id), ("alg_id", .str new.algId), ("public_key_sha256", shaText suite new.publicKey)]

def reissueSigningKey (userId : Int) (password : Text) : Work Unit := do
  guardPassword userId
  discard (preparePasswordWrite suite me userId (← clock))
  let user ← loadUser userId
  if !suite.verifyPassword user.passwordHash password then raise .wrongPassword
  else
    noteProof user "key_replaced"
    let marks ← passwordProven me userId "key_replaced"
    transact me (markIds marks) do
      applyAll (passwordCancellation userId "key_replaced") marks
      replaceKey suite fresh user password

def newKit (user : User) (now : Int) (id : Nat) : Kit where
  id := id
  uuid := fresh.uuid
  userId := user.id
  state := .active
  salt := fresh.kitSalt
  kdfParams := kitKdfParams
  kemAlg := kitKemAlg
  kemPublicKey := fresh.kemPublicKey
  kemPublicKeyMac := []
  kemSkNonce := some (fresh.nonces 0)
  kemSkWrapped := some (suite.encrypt (deriveKitKek suite fresh.kitCode fresh.kitSalt fresh.uuid user.id) (fresh.nonces 0)
    fresh.kemSecretKey (kemSkAad fresh.uuid user.id))
  createdAt := now
  revokedAt := none
  revokedReason := none
  wraps := []

def Kit.sealed (kit : Kit) : Except PyError Kit := do
  return { kit with kemPublicKeyMac := suite.kitPkMac (← pkMacInput suite.isoZ kit) }

def insertKit (make : Nat → Except PyError Kit) : Tx Kit := do
  let rows := (← get).kits.1
  match make (nextId (rows.map (·.id))) with
  | .ok kit =>
    writeKits (rows ++ [kit])
    return kit
  | .error _ => throw .kitUnusable

def endPrevious (userId now : Int) : Tx Unit := do
  match (← get).currentKit userId with
  | some previous => if ← revokeKit previous.id "regenerated" now false then return () else throw .kitUnusable
  | none => return ()

-- From the end of the old kit to the commit of the new one
def replaceKit (user : User) (now : Int) (unlocked : List (Key × Bytes)) : Tx Unit := do
  endPrevious user.id now
  let kit ← insertKit fun id => (newKit suite fresh user now id).sealed suite
  unlocked.forM fun (key, secretKey) => addWrap suite fresh kit key secretKey
  -- `credential_unchanged`
  if ((← get).user? user.id).any (·.kekSalt = user.kekSalt) then
    append "recovery_kit_issued" user.id user.id
      [userIdPayload user.id, ("kit_uuid", .str kit.uuid), ("kem_alg", .str kit.kemAlg),
        ("kem_public_key_sha256", shaText suite kit.kemPublicKey)]
  else throw .kitUnusable

def issueKit (userId : Int) (password : Text) : Work Unit := do
  let now ← clock
  let now := now - now % 1000000
  if ← preparePasswordWrite suite me userId now then raise .kitUnusable
  else
    let user ← loadUser userId
    let keys := (← look).keysToWrap userId
    if !(keys.any (·.status = .active)) then raise .kitUnusable
    else
      let (unlocked, marks) ← unlockAll suite me user password keys
      transact me (markIds marks) do
        applyAll (passwordCancellation userId "signing") marks
        replaceKit suite fresh user now unlocked

end QVault.Recovery
