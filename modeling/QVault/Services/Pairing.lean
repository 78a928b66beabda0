import QVault.Lib.Runs
import QVault.Services.Signing

/-!
# Pairing a phone by code

`qvault/services/pairing_service.py`: the rows of codes shown on the web, and the requests of phones and web sessions
on them. Each request takes the time, loads a row, checks it, and writes where the row still has the state it had.
Moments are whole microseconds.
-/

namespace QVault.Services.Pairing
open Python

def second : Int := 1000000

def claimTime : Int := 120 * second
def confirmTime : Int := 120 * second
def wrongLimit : Nat := 5
def retention : Int := 30 * 24 * 3600 * second

/-- The hash function, the algorithms a device may use, and the server's secret. -/
structure Crypto where
  sha256 : Bytes → Bytes
  -- `token_text`, derived from the master key
  tokenText : Text → Bytes → Text
  -- `meta.sizes` of a registered algorithm: of a public key and of a signature
  sizes : Text → Option (Nat × Nat)
  verify : Text → Bytes → Bytes → Bytes → Bool

-- `DEVICE_ELIGIBLE_SIG_ALGS`
def eligibleAlgs : List Text := [text "ML-DSA-65", text "ML-DSA-87"]

variable (crypto : Crypto)

def utf8 (t : Text) : Bytes := t.flatMap utf8CodePoint

def tokenHash (token : Text) : Bytes := crypto.sha256 (asciiBytes "qvault:pair-token-hash:v1|" ++ utf8 token)
def bindingHash (value : Text) : Bytes := crypto.sha256 (asciiBytes "qvault:pair-binding:v1|" ++ utf8 value)
-- `device_service.token_digest`
def tokenDigest (token : Text) : Bytes := crypto.sha256 (asciiBytes "qvault:device-token:v1|" ++ utf8 token)
def sha256Hex (bytes : Bytes) : Text := hexText (crypto.sha256 bytes)

-- `pairing_check_code`
def checkCode (pairingUuid publicKeySha256 pendingTokenDigest : Text) : Text :=
  let digest := crypto.sha256 (asciiBytes "qvault:pair-check:v1|" ++ utf8 pairingUuid ++ asciiBytes "|" ++
    utf8 publicKeySha256 ++ asciiBytes "|" ++ utf8 pendingTokenDigest)
  let digits := natText (((digest.take 8).foldl (fun value byte => value * 256 + byte.toNat) 0) % 1000000)
  List.replicate (6 - digits.length) (codePoint '0') ++ digits

/-! ## Rows -/

inductive State
  | open | claimed | confirmed | contested | declined | cancelled | expired
  deriving DecidableEq

-- `LIVE_STATES`
def State.live : State → Bool
  | .open | .claimed => true
  | _ => false

structure Pairing where
  uuid : Text
  userId : Int
  state : State
  tokenHash : Bytes
  bindingHash : Bytes
  sessionTag : Option Bytes
  epochAtCreate : Int
  createdAt : Int
  claimDeadline : Int
  scannedAt : Option Int
  claimedAt : Option Int
  confirmDeadline : Option Int
  algId : Option Text
  publicKey : Option Bytes
  publicKeySha256 : Option Text
  deviceName : Option Text
  pendingTokenHash : Option Bytes
  wrongAttempts : Nat
  reuseReportedAt : Option Int
  finishReason : Option Text
  finishedAt : Option Int
  deriving DecidableEq

def deadlinePassed (deadline : Option Int) (now : Int) : Bool := deadline.any fun d => d ≤ now

-- `state_of`
def stateOf (row : Pairing) (now : Int) : State :=
  if row.state = .open ∧ row.claimDeadline ≤ now then .expired
  else if row.state = .claimed ∧ deadlinePassed row.confirmDeadline now = true then .expired
  else row.state

/-! ## Requests -/

-- A claim's body, "" for what is no string, and its name as `clean_name` returns it
structure ClaimBody where
  deviceName : Option Text
  algId : Text
  publicKeyB64 : Text
  pendingTokenDigest : Text
  popSignatureB64 : Text
  deriving DecidableEq

-- What `claim` writes
structure Claimed where
  algId : Text
  publicKey : Bytes
  deviceName : Text
  pendingTokenHash : Bytes
  deriving DecidableEq

inductive PasswordCheck
  | locked | wrong | right
  deriving DecidableEq

-- What the person sends with a confirmation, from a session that holds a binding
structure Typed where
  binding : Text
  publicKeySha256 : Text
  checkCode : Text
  password : PasswordCheck
  deriving DecidableEq

-- How a request finds its row
inductive Query
  -- `_by_token`
  | token (token : Text)
  | pending (pendingToken : Text)
  -- `for_session`
  | shown (userId : Int) (binding uuid : Text)
  -- `cancel_bound` and `cancel_for_session`
  | live (userId : Int) (binding : Text)
  deriving DecidableEq

inductive Op
  | inspect
  | claim (body : ClaimBody)
  | withdraw
  | decline
  | cancel
  -- `cancel_bound` and `cancel_for_session`
  | signOut (reason : Text)
  | confirm (typed : Typed)
  deriving DecidableEq

-- A request, with the moment it began
inductive Job
  | begun (now : Int) (query : Query) (op : Op)
  -- It has loaded its row, and read the epoch of the row's account.
  | loaded (now : Int) (id : Nat) (row : Pairing) (epoch : Int) (op : Op)
  -- A claim whose checks are done
  | claiming (now : Int) (id : Nat) (body : ClaimBody) (claimed : Claimed)
  -- A confirmation whose code and password are right
  | confirming (now : Int) (id : Nat) (row : Pairing) (typed : Typed) (seen : Bytes)
  | done
  deriving DecidableEq

structure Device where
  ownerId : Int
  name : Option Text
  algId : Option Text
  publicKey : Option Bytes
  tokenHash : Bytes

-- A device with the confirmation that added it: the row it had loaded, when it began, and the account's epoch at its write
structure Added where
  pairing : Nat
  device : Device
  row : Pairing
  began : Int
  epoch : Int
  typed : Typed

structure World where
  now : Int
  -- by id, none once deleted
  rows : List (Option Pairing)
  -- the public keys of `Key`
  keys : List Bytes
  -- the token hashes of devices added in another way
  tokenHashes : List Bytes
  epochs : Int → Int
  added : List Added
  jobs : List Job

def emptyWorld (now : Int) : World := ⟨now, [], [], [], fun _ => 0, [], []⟩

def World.row (w : World) (id : Nat) : Option Pairing := w.rows[id]?.join

def Query.meets : Query → Pairing → Bool
  | .token ofCode, row => row.tokenHash = tokenHash crypto ofCode
  | .pending pendingToken, row => row.pendingTokenHash = some (tokenDigest crypto pendingToken)
  | .shown userId binding uuid, row => row.uuid = uuid ∧ row.userId = userId ∧ row.bindingHash = bindingHash crypto binding
  | .live userId binding, row => row.userId = userId ∧ row.state.live = true ∧ row.bindingHash = bindingHash crypto binding

def World.find (w : World) (query : Pairing → Bool) : Option (Nat × Pairing) :=
  w.rows.zipIdx.findSome? fun entry => entry.1.bind fun row => if query row then some (entry.2, row) else none

-- The rows but one
def World.others (w : World) (id : Nat) : List Pairing :=
  w.rows.zipIdx.filterMap fun entry => if entry.2 = id then none else entry.1

def World.write (w : World) (id : Nat) (change : Pairing → Pairing) : World :=
  { w with rows := w.rows.modify id (·.map change) }

/-! ## Changes of a row -/

-- `_end`, of a row that was loaded with this state
def endRow (loaded : State) (state : State) (reason : Text) (now : Int) (row : Pairing) : Pairing :=
  if loaded.live = true ∧ row.state = loaded then
    { row with state, finishReason := some reason, finishedAt := some now, publicKey := none, deviceName := none }
  else row

def inTime (row : Pairing) (now : Int) : Bool := row.confirmDeadline.any fun deadline => now < deadline

-- `_contest`
def contest (now : Int) (row : Pairing) : Pairing :=
  if row.state = .claimed ∧ inTime row now = true then
    { row with state := .contested, finishReason := some (text "contested"), finishedAt := some now, deviceName := none }
  else row

-- `_report_reuse` and `_contest_withdrawn`, of what they write
def reportReuse (now : Int) (row : Pairing) : Pairing := { row with reuseReportedAt := some now }

def withdrawnRecently (row : Pairing) (now : Int) : Bool :=
  row.state = .cancelled && row.finishReason == some (text "withdrawn") && inTime row now

-- A code that is used when it can no longer be claimed
def used (loaded : Pairing) (now : Int) (row : Pairing) : Pairing :=
  if (stateOf loaded now = .confirmed ∨ withdrawnRecently loaded now = true) ∧ loaded.reuseReportedAt = none then
    reportReuse now row
  else row

-- `inspect`
def inspect (loaded : Pairing) (now epoch : Int) (row : Pairing) : Pairing :=
  if stateOf loaded now = .claimed then contest now row
  else if stateOf loaded now ≠ .open then used loaded now row
  else if epoch = loaded.epochAtCreate ∧ loaded.scannedAt = none then { row with scannedAt := some now }
  else row

/-! ## Claims -/

-- `^[0-9a-f]{n}$`, which a line feed may follow
def hexLine (n : Nat) (t : Text) : Bool :=
  let line := if t.getLast? = some (codePoint '\n') then t.dropLast else t
  line.length = n && line.all fun c => (48 ≤ c.val && c.val ≤ 57) || (97 ≤ c.val && c.val ≤ 102)

-- `_check_proof`
def proofOk (row : Pairing) (publicKey : Bytes) (body : ClaimBody) (popSignature : Bytes) : Bool :=
  match devicePairingBytes ⟨row.userId, row.uuid, body.algId, body.publicKeyB64, body.pendingTokenDigest⟩ with
  | .ok message => crypto.verify body.algId publicKey message popSignature
  | .error _ => false

def digestTaken (w : World) (id : Nat) (digest : Bytes) : Bool :=
  w.tokenHashes.contains digest || (w.added.any fun a => a.device.tokenHash = digest) ||
    (w.others id).any fun row => row.pendingTokenHash = some digest

-- `check_new_device_key`
def checkNewDeviceKey (keys : List Bytes) (body : ClaimBody) : Option (Bytes × Bytes) := do
  if !eligibleAlgs.contains body.algId then none
  let (keySize, signatureSize) ← crypto.sizes body.algId
  let publicKey ← (b64decode true body.publicKeyB64).toOption
  let popSignature ← (b64decode true body.popSignatureB64).toOption
  if publicKey.length ≠ keySize then none
  if popSignature.length ≠ signatureSize then none
  if keys.contains publicKey then none
  return (publicKey, popSignature)

-- The checks of `claim` on an open row
def checkClaim (w : World) (now epoch : Int) (id : Nat) (loaded : Pairing) (body : ClaimBody) : Option Claimed := do
  if epoch ≠ loaded.epochAtCreate then none
  let name ← body.deviceName
  let (publicKey, popSignature) ← checkNewDeviceKey crypto w.keys body
  if !hexLine 64 body.pendingTokenDigest then none
  let digest ← (fromHex body.pendingTokenDigest).toOption
  let held := (w.others id).find? fun row => row.state = .claimed && row.publicKeySha256 == some (sha256Hex crypto publicKey)
  if held.any fun row => stateOf row now = .claimed then none
  if digestTaken w id digest then none
  if !proofOk crypto loaded publicKey body popSignature then none
  return ⟨body.algId, publicKey, name, digest⟩

def claimRow (now : Int) (claimed : Claimed) (row : Pairing) : Pairing :=
  { row with
    state := .claimed
    claimedAt := some now
    confirmDeadline := some (now + confirmTime)
    algId := some claimed.algId
    publicKey := some claimed.publicKey
    publicKeySha256 := some (sha256Hex crypto claimed.publicKey)
    deviceName := some claimed.deviceName
    pendingTokenHash := some claimed.pendingTokenHash }

-- The digest of another token, written over the one that was seen
def redigest (loaded : Pairing) (now : Int) (digest : Bytes) (row : Pairing) : Pairing :=
  if row.state = .claimed ∧ inTime row now = true ∧ row.pendingTokenHash = loaded.pendingTokenHash then
    { row with pendingTokenHash := some digest }
  else row

-- `_claim_again`
def claimAgain (w : World) (now : Int) (id : Nat) (loaded : Pairing) (body : ClaimBody) (row : Pairing) : Pairing :=
  match b64decode true body.publicKeyB64, b64decode true body.popSignatureB64 with
  | .ok publicKey, .ok popSignature =>
    if loaded.publicKey ≠ some publicKey ∨ loaded.algId ≠ some body.algId ∨ hexLine 64 body.pendingTokenDigest = false then
      contest now row
    else if proofOk crypto loaded publicKey body popSignature = false then contest now row
    else match fromHex body.pendingTokenDigest with
      | .ok digest =>
        if loaded.pendingTokenHash = some digest ∨ digestTaken w id digest = true then row
        else redigest loaded now digest row
      | .error _ => row
  | _, _ => contest now row

/-! ## Confirmations -/

-- `_wrong`
def wrong (loaded : Pairing) (reason : Text) (now : Int) (row : Pairing) : Pairing :=
  let row := { row with wrongAttempts := loaded.wrongAttempts + 1 }
  if wrongLimit ≤ loaded.wrongAttempts + 1 then endRow loaded.state .cancelled reason now row else row

-- What is typed without its white space
def typedCode (typed : Typed) : Text := typed.checkCode.filter fun c => !isWhitespace c

-- `_CODE_RE`, of a text without white space
def sixDigits (t : Text) : Bool := t.length = 6 && t.all fun c => 48 ≤ c.val && c.val ≤ 57

inductive Verdict
  | refuse
  | wrong (reason : Text)
  | accept (seen : Bytes)

-- `confirm`, up to the password
def checkConfirm (loaded : Pairing) (now epoch : Int) (typed : Typed) : Verdict :=
  if epoch ≠ loaded.epochAtCreate then .refuse
  else if stateOf loaded now ≠ .claimed then .refuse
  else match loaded.pendingTokenHash, loaded.publicKeySha256 with
    | some seen, some keyHash =>
      if typed.publicKeySha256 ≠ keyHash then .refuse
      else if !sixDigits (typedCode typed) || typedCode typed != checkCode crypto loaded.uuid keyHash (hexText seen) then
        .wrong (text "wrong_secret")
      else match typed.password with
        | .locked => .refuse
        | .wrong => .wrong (text "wrong_secret")
        | .right => .accept seen
    | _, _ => .refuse

-- The write of `confirm`, with the device that is created of the row
def confirmRow (w : World) (now : Int) (id : Nat) (loaded : Pairing) (typed : Typed) (seen : Bytes) : World :=
  match w.row id with
  | some row =>
    if (loaded.publicKey.any fun key => w.keys.contains key) = true then w
    else if row.state = .claimed ∧ inTime row now = true ∧ row.pendingTokenHash = some seen then
      let confirmed := { row with state := .confirmed, finishReason := some (text "confirmed"), finishedAt := some now }
      let device : Device := ⟨row.userId, row.deviceName, row.algId, row.publicKey, seen⟩
      { w.write id fun _ => confirmed with
        keys := row.publicKey.toList ++ w.keys
        added := ⟨id, device, loaded, now, w.epochs loaded.userId, typed⟩ :: w.added }
    else w
  | none => w

/-! ## The system -/

-- The next step of a request that has loaded its row
def answer (w : World) (now : Int) (id : Nat) (loaded : Pairing) (epoch : Int) : Op → World × Job
  | .inspect => (w.write id (inspect loaded now epoch), .done)
  | .claim body =>
    if stateOf loaded now = .claimed then (w.write id (claimAgain crypto w now id loaded body), .done)
    else if stateOf loaded now ≠ .open then (w.write id (used loaded now), .done)
    else match checkClaim crypto w now epoch id loaded body with
      | some claimed => (w, .claiming now id body claimed)
      | none => (w, .done)
  | .withdraw =>
    if stateOf loaded now = .claimed then (w.write id (endRow loaded.state .cancelled (text "withdrawn") now), .done)
    else (w, .done)
  | .decline =>
    if stateOf loaded now = .claimed then (w.write id (endRow loaded.state .declined (text "declined") now), .done)
    else (w, .done)
  | .cancel =>
    if (stateOf loaded now).live = true then (w.write id (endRow loaded.state .cancelled (text "cancelled") now), .done)
    else (w, .done)
  | .signOut reason => (w.write id (endRow loaded.state .cancelled reason now), .done)
  | .confirm typed =>
    match checkConfirm crypto loaded now epoch typed with
    | .refuse => (w, .done)
    | .wrong reason => (w.write id (wrong loaded reason now), .done)
    | .accept seen => (w, .confirming now id loaded typed seen)

def load (w : World) (now : Int) (query : Query) (op : Op) : Job :=
  match w.find (query.meets crypto) with
  | some (id, row) => .loaded now id row (w.epochs row.userId) op
  | none => .done

-- The write of `claim`
def claimStep (w : World) (now : Int) (id : Nat) (body : ClaimBody) (claimed : Claimed) : World × Job :=
  match w.row id with
  | some row =>
    if (w.others id).any fun other => other.pendingTokenHash = some claimed.pendingTokenHash then (w, .done)
    else if row.state = .open ∧ now < row.claimDeadline then (w.write id (claimRow crypto now claimed), .done)
    -- Someone else's claim won the race: this one is a second use of the token.
    else if stateOf row now = .claimed then (w, .loaded now id row (w.epochs row.userId) (.claim body))
    else (w, .done)
  | none => (w, .done)

def proceed (w : World) : Job → World × Job
  | .begun now query op => (w, load crypto w now query op)
  | .loaded now id loaded epoch op => answer crypto w now id loaded epoch op
  | .claiming now id body claimed => claimStep crypto w now id body claimed
  | .confirming now id loaded typed seen => (confirmRow w now id loaded typed seen, .done)
  | .done => (w, .done)

-- `sweep`, of one row
def swept (now : Int) (row : Pairing) : Option Pairing :=
  if row.state = .open ∧ row.claimDeadline ≤ now ∨ row.state = .claimed ∧ deadlinePassed row.confirmDeadline now = true then
    let expired := { row with
      state := .expired, finishReason := some (text "expired"), finishedAt := some now, publicKey := none, deviceName := none }
    if expired.createdAt < now - retention then none else some expired
  else if row.state.live = false ∧ row.createdAt < now - retention then none
  else some row

-- `cancel_live`, of one row
def cancelLive (userId : Int) (reason : Text) (now : Int) (row : Pairing) : Pairing :=
  if row.userId = userId then endRow row.state .cancelled reason now row else row

-- A row as `create` adds it
def shown (uuid : Text) (userId : Int) (salt : Bytes) (binding : Text) (tag : Option Bytes) (epoch now : Int) : Pairing where
  uuid
  userId
  state := .open
  tokenHash := tokenHash crypto (crypto.tokenText uuid salt)
  bindingHash := bindingHash crypto binding
  sessionTag := tag
  epochAtCreate := epoch
  createdAt := now
  claimDeadline := now + claimTime
  scannedAt := none
  claimedAt := none
  confirmDeadline := none
  algId := none
  publicKey := none
  publicKeySha256 := none
  deviceName := none
  pendingTokenHash := none
  wrongAttempts := 0
  reuseReportedAt := none
  finishReason := none
  finishedAt := none

-- What a phone does with the token of a code
inductive Scan
  | inspect
  | claim (body : ClaimBody)

def Scan.op : Scan → Op
  | .inspect => .inspect
  | .claim body => .claim body

-- What a web session does with the code it showed
inductive Web
  | decline
  | cancel
  | confirm (publicKeySha256 checkCode : Text) (password : PasswordCheck)

def Web.op (binding : Text) : Web → Op
  | .decline => .decline
  | .cancel => .cancel
  | .confirm publicKeySha256 checkCode password => .confirm ⟨binding, publicKeySha256, checkCode, password⟩

inductive Event
  | wait (time : Nat)
  | create (uuid : Text) (userId : Int) (salt : Bytes) (binding : Text) (tag : Option Bytes)
  | scan (token : Text) (scan : Scan)
  | withdraw (pendingToken : Text)
  | web (userId : Int) (binding uuid : Text) (web : Web)
  -- A session ends, or shows another code.
  | signOut (userId : Int) (binding reason : Text)
  | sweep
  -- `bump_epoch`
  | bumpEpoch (userId : Int)
  -- A key, or a device, is added in another way.
  | otherKey (publicKey : Bytes)
  | otherDevice (tokenHash : Bytes)
  | act (job : Nat)

def World.begin (w : World) (query : Query) (op : Op) : World := { w with jobs := w.jobs ++ [.begun w.now query op] }

def step (w : World) : Event → World
  | .wait time => { w with now := w.now + time }
  | .create uuid userId salt binding tag =>
    let row := shown crypto uuid userId salt binding tag (w.epochs userId) w.now
    if (w.find fun other => other.uuid = uuid ∨ other.tokenHash = row.tokenHash).isSome then w
    else { w with rows := w.rows ++ [some row] }
  | .scan token scan => w.begin (.token token) scan.op
  | .withdraw pendingToken => w.begin (.pending pendingToken) .withdraw
  | .web userId binding uuid web => w.begin (.shown userId binding uuid) (web.op binding)
  | .signOut userId binding reason => w.begin (.live userId binding) (.signOut reason)
  | .sweep => { w with rows := w.rows.map (·.bind (swept w.now)) }
  | .bumpEpoch userId =>
    { w with
      epochs := fun user => if user = userId then w.epochs user + 1 else w.epochs user
      rows := w.rows.map (·.map (cancelLive userId (text "credential_changed") w.now)) }
  | .otherKey publicKey => { w with keys := publicKey :: w.keys }
  | .otherDevice tokenHash => { w with tokenHashes := tokenHash :: w.tokenHashes }
  | .act job =>
    match w.jobs[job]? with
    | some request => { (proceed crypto w request).1 with jobs := w.jobs.set job (proceed crypto w request).2 }
    | none => w

end QVault.Services.Pairing
