import QVault.Lib.Transactions
import QVault.Services.Signing
import QVault.Services.Ledger

/-!
# Account recovery: the rows

`qvault/models/recovery.py` and what recovery reads of `user.py`, `key.py`, `device.py` and
`treasury.py`. A session is one request of the web application or one run of the scheduler. A
transaction is one statement of a session: a row it writes is held from its update to its commit, so
nobody sees it in between. Rows a transaction holds while it goes on reading are in `held`.
-/

namespace QVault.Recovery
open Python Crypto Services Programs Sessions Transactions

-- microseconds
def seconds (n : Int) : Int := n * 1000000
def minutes (n : Int) : Int := seconds (60 * n)
def hours (n : Int) : Int := minutes (60 * n)
def days (n : Int) : Int := hours (24 * n)

inductive WrapDomain
  | password | device | master | lost
  deriving DecidableEq

inductive KeyStatus
  | active | retired
  deriving DecidableEq

inductive KitState
  | active | stale | revoked
  deriving DecidableEq

inductive Route
  | kit | phone | quorum
  deriving DecidableEq

inductive RequestState
  | phonePending | phoneApproved | claimed | approving | waiting | completed | cancelled | expired | rejected | failed
  deriving DecidableEq

inductive Purpose
  | webReset | kitConfirm
  deriving DecidableEq

inductive ApprovalState
  | pending | approved | used | ended
  deriving DecidableEq

structure User where
  id : Int
  email : Text
  passwordHash : Text
  kekSalt : Bytes
  kdfParams : Text

structure Key where
  id : Nat
  ownerId : Int
  role : Text
  algId : Text
  publicKey : Bytes
  wrapped : Option Bytes
  nonce : Option Bytes
  domain : WrapDomain
  status : KeyStatus
  canSign : Bool
  canVerify : Bool
  createdAt : Int
  retiredAt : Option Int

structure Device where
  id : Nat
  ownerId : Int
  keyId : Nat
  createdAt : Int
  expiresAt : Option Int
  revokedAt : Option Int

structure KitWrap where
  keyId : Nat
  kemCiphertext : Bytes
  nonce : Bytes
  wrapped : Bytes

structure Kit where
  id : Nat
  uuid : Text
  userId : Int
  state : KitState
  salt : Bytes
  kdfParams : Text
  kemAlg : Text
  kemPublicKey : Bytes
  kemPublicKeyMac : Bytes
  kemSkNonce : Option Bytes
  kemSkWrapped : Option Bytes
  createdAt : Int
  revokedAt : Option Int
  revokedReason : Option Text
  wraps : List KitWrap

structure RequestWrap where
  keyId : Nat
  wrappedSha256 : Bytes
  newNonce : Option Bytes
  newWrapped : Option Bytes

-- the pending credential of a request
structure Pending where
  passwordHash : Option Text
  kekSalt : Option Bytes
  kdfParams : Option Text
  publicKey : Option Bytes
  skWrapped : Option Bytes
  skNonce : Option Bytes
  deriving DecidableEq

def Pending.erased : Pending := ⟨none, none, none, none, none, none⟩

structure Request where
  id : Nat
  uuid : Text
  userId : Int
  route : Route
  state : RequestState
  startedById : Option Int
  kitId : Option Nat
  createdAt : Int
  claimedAt : Option Int
  windowStartsAt : Option Int
  completesAt : Option Int
  finishedAt : Option Int
  cancelledById : Option Int
  cancelledAs : Option Text
  cancelReason : Option Text
  kitBurned : Bool
  endReason : Option Text
  statusTokenHash : Option Bytes
  pending : Pending
  oldKeyId : Option Nat
  requestCode : Option Text
  wraps : List RequestWrap

structure Approval where
  id : Nat
  requestId : Nat
  purpose : Purpose
  deviceId : Nat
  keyId : Nat
  state : ApprovalState
  createdAt : Int
  expiresAt : Int
  approvedAt : Option Int
  usedAt : Option Int
  codeSelector : Option Text
  codeTag : Option Bytes
  tries : Nat
  signatureSha256 : Option Text
  signature : Option Bytes

structure Seat where
  id : Nat
  userId : Int
  keyId : Nat

structure Treasury where
  id : Nat
  linked : Bool
  threshold : Nat
  signers : List Seat

structure KitFailure where
  id : Nat
  userId : Int
  createdAt : Int

structure KitPause where
  userId : Int
  pausedUntil : Int
  level : Nat
  createdAt : Int

/-! ## Tables with indexes -/

-- `OPEN_STATES`
def RequestState.isOpen : RequestState → Bool
  | .claimed | .approving | .waiting => true
  | _ => false

-- `PHONE_PRECLAIM_STATES`
def RequestState.isPreclaim : RequestState → Bool
  | .phonePending | .phoneApproved => true
  | _ => false

-- `END_STATES`
def RequestState.isEnd : RequestState → Bool
  | .completed | .cancelled | .expired | .rejected | .failed => true
  | _ => false

-- `uq_recovery_request_open_user`, and the unique columns
structure RequestIndexes (rows : List Request) : Prop where
  ids : (rows.map (·.id)).Nodup
  uuids : (rows.map (·.uuid)).Nodup
  openUsers : ((rows.filter (·.state.isOpen)).map (·.userId)).Nodup

instance (rows : List Request) : Decidable (RequestIndexes rows) :=
  decidable_of_iff ((rows.map (·.id)).Nodup ∧ (rows.map (·.uuid)).Nodup ∧
      ((rows.filter (·.state.isOpen)).map (·.userId)).Nodup)
    ⟨fun ⟨ids, uuids, openUsers⟩ => ⟨ids, uuids, openUsers⟩, fun ⟨ids, uuids, openUsers⟩ => ⟨ids, uuids, openUsers⟩⟩

-- `uq_recovery_kit_active_user`, and the unique columns
structure KitIndexes (rows : List Kit) : Prop where
  ids : (rows.map (·.id)).Nodup
  uuids : (rows.map (·.uuid)).Nodup
  activeUsers : ((rows.filter (·.state = .active)).map (·.userId)).Nodup

instance (rows : List Kit) : Decidable (KitIndexes rows) :=
  decidable_of_iff ((rows.map (·.id)).Nodup ∧ (rows.map (·.uuid)).Nodup ∧
      ((rows.filter (·.state = .active)).map (·.userId)).Nodup)
    ⟨fun ⟨ids, uuids, activeUsers⟩ => ⟨ids, uuids, activeUsers⟩,
      fun ⟨ids, uuids, activeUsers⟩ => ⟨ids, uuids, activeUsers⟩⟩

abbrev RequestTable := { rows : List Request // RequestIndexes rows }
abbrev KitTable := { rows : List Kit // KitIndexes rows }

inductive Resource
  | account (userId : Int)
  | request (id : Nat)
  | treasury (id : Nat)
  deriving DecidableEq

-- What is not in the database: what a session tried a code for, that it compared a secret and when that
-- was typed, that a phone's signature was found right, or a password, and when
inductive Named
  | email (email : Text)
  | request (id : Nat)

structure Spending where
  approvalId : Nat
  session : Nat
  named : Named

structure Comparison where
  approvalId : Nat
  session : Nat
  secret : Text
  typedAt : Int

structure Voucher where
  approvalId : Nat
  device : Device
  key : Key
  signature : Bytes
  secret : Text
  at_ : Int

structure PasswordProof where
  userId : Int
  kekSalt : Bytes
  via : Text
  at_ : Int

-- `watchers` and `lockedOut` answer for `recovery_service.watchers` and `password_attempts.refusal`.
structure Db where
  users : List User
  keys : List Key
  devices : List Device
  kits : KitTable
  requests : RequestTable
  approvals : List Approval
  treasuries : List Treasury
  epochs : Int → Nat
  kitFailures : List KitFailure
  kitPauses : List KitPause
  watchers : Int → Int → Option Text
  lockedOut : Int → Bool
  log : List LedgerEvent
  clock : Int
  held : List (Resource × Nat)
  spent : List Spending
  comparisons : List Comparison
  vouchers : List Voucher
  proofs : List PasswordProof

inductive Refusal
  | generic | underWay | tooSoon | kitBroken | noActiveKey | tooLate | lookup | integrity | typo | tooMany | coolingOff
  | expiresSoon | treasuryLockout | deviceUnusable | tooNew | deviceKey | alreadyShort | badPurpose | notAsked | expired
  | badRequest | signatureInvalid | busy | selftest | wrongCode | wrongPassword | passwordLocked | kitUnusable | signFault
  | alreadyRevoked | emailTaken
  deriving DecidableEq

abbrev Tx (α : Type) := Transaction Db Refusal α

-- A session remembers the proofs of a password made in its request (`g[_PROOFS]`).
abbrev Proofs := List (Int × Text)
abbrev Work (α : Type) := Session Db Proofs Refusal α

/-! ## Reading -/

def nextId (ids : List Nat) : Nat := ids.foldl max 0 + 1

namespace Db

def user? (db : Db) (id : Int) : Option User := db.users.find? fun u => u.id = id
def key? (db : Db) (id : Nat) : Option Key := db.keys.find? fun k => k.id = id
def device? (db : Db) (id : Nat) : Option Device := db.devices.find? fun d => d.id = id
def kit? (db : Db) (id : Nat) : Option Kit := db.kits.1.find? fun k => k.id = id
def request? (db : Db) (id : Nat) : Option Request := db.requests.1.find? fun r => r.id = id
def approval? (db : Db) (id : Nat) : Option Approval := db.approvals.find? fun a => a.id = id

def requestByUuid (db : Db) (uuid : Text) : Option Request := db.requests.1.find? fun r => r.uuid = uuid

def openRequest (db : Db) (userId : Int) : Option Request :=
  db.requests.1.find? fun r => r.userId = userId ∧ r.state.isOpen

def approvalsOf (db : Db) (request : Nat) : List Approval := db.approvals.filter fun a => a.requestId = request

-- in the order they were made, newest first
def passwordKeys (db : Db) (userId : Int) : List Key :=
  db.keys.filter fun k => k.ownerId = userId ∧ k.domain = .password

def activeSigningKey (db : Db) (userId : Int) : Option Key :=
  ((db.keys.filter fun k => k.ownerId = userId ∧ k.role = text "sig" ∧ k.status = .active ∧ k.domain = .password).insertionSort
    fun a b => b.createdAt < a.createdAt ∨ (a.createdAt = b.createdAt ∧ b.id ≤ a.id)).head?

def activeKit (db : Db) (userId : Int) : Option Kit := db.kits.1.find? fun k => k.userId = userId ∧ k.state = .active

-- the person's kit that is not revoked
def currentKit (db : Db) (userId : Int) : Option Kit :=
  ((db.kits.1.filter fun k => k.userId = userId ∧ k.state ≠ .revoked).insertionSort fun a b => b.id ≤ a.id).head?

-- A row the transaction of `me` has cancelled is no longer open to it.
def cancelledBy (db : Db) (me : Nat) (r : Request) : Bool := db.held.any fun h => h.1 = .request r.id && h.2 = me

def cancellable (db : Db) (me : Nat) (userId : Int) : List Request :=
  db.requests.1.filter fun r => r.userId = userId ∧ (r.state.isOpen || r.state.isPreclaim) ∧ !db.cancelledBy me r

-- `approving_approval`
def approvingApproval (db : Db) (request : Nat) : Option Approval :=
  ((db.approvalsOf request).filter (·.state = .used) |>.insertionSort fun a b => b.id ≤ a.id).head?

def phoneAssisted (db : Db) (r : Request) : Bool := r.route = .phone || (db.approvingApproval r.id).isSome

def recoveryDue (db : Db) (me : Nat) (userId now : Int) : Bool :=
  match db.openRequest userId with
  | some r => r.state = .waiting && r.completesAt.any (· ≤ now) && !db.cancelledBy me r
  | none => false

def free (db : Db) (me : Nat) (resource : Resource) : Bool := db.held.all fun h => h.1 ≠ resource || h.2 = me

def release (db : Db) (me : Nat) : Db := { db with held := db.held.filter fun h => h.2 ≠ me }

end Db

def Device.isUsable (device : Device) (now : Int) : Bool :=
  device.revokedAt.isNone && device.expiresAt.all (now < ·)

/-! ## Writing -/

def writeRequests (rows : List Request) : Tx Unit := do
  if indexes : RequestIndexes rows then modify fun db => { db with requests := ⟨rows, indexes⟩ }
  else throw .integrity

def updateRequest (id : Nat) (change : Request → Request) : Tx Unit := do
  writeRequests ((← get).requests.1.map fun r => if r.id = id then change r else r)

-- `UPDATE recovery_requests ... WHERE id = :id AND ...`: whether it changed a row
def compareAndSet (id : Nat) (still : Request → Bool) (change : Request → Request) : Tx Bool := do
  match (← get).request? id with
  | some r =>
    if still r then
      updateRequest id change
      return true
    else return false
  | none => return false

def updateApprovals (which : Approval → Bool) (change : Approval → Approval) : Tx Unit :=
  modify fun db => { db with approvals := db.approvals.map fun a => if which a then change a else a }

-- The same on `recovery_phone_approvals`
def compareAndSetApproval (id : Nat) (still : Approval → Bool) (change : Approval → Approval) : Tx Bool := do
  match (← get).approval? id with
  | some a =>
    if still a then
      updateApprovals (fun a => a.id = id) change
      return true
    else return false
  | none => return false

def writeKits (rows : List Kit) : Tx Unit := do
  if indexes : KitIndexes rows then modify fun db => { db with kits := ⟨rows, indexes⟩ }
  else throw .integrity

def updateKit (id : Nat) (change : Kit → Kit) : Tx Unit := do
  writeKits ((← get).kits.1.map fun k => if k.id = id then change k else k)

def updateKey (id : Nat) (change : Key → Key) : Tx Unit :=
  modify fun db => { db with keys := db.keys.map fun k => if k.id = id then change k else k }

def updateUser (id : Int) (change : User → User) : Tx Unit :=
  modify fun db => { db with users := db.users.map fun u => if u.id = id then change u else u }

def bumpEpoch (userId : Int) : Tx Unit :=
  modify fun db => { db with epochs := fun u => if u = userId then db.epochs u + 1 else db.epochs u }

def append (event : Text) (userId actorId : Int) (payload : List (Text × Json)) : Tx Unit :=
  modify fun db => { db with log := db.log ++ [{
    eventType := event
    payload := .dict payload
    actor := text "user:" ++ intText actorId
    actorId := some actorId
    vaultId := none
    refType := some (text "user")
    refId := some (intText userId) }] }

/-! ## Sessions -/

-- A transaction of the session `me`, which waits for the request rows it writes and lets go of all it
-- holds.
def transact {α : Type} (me : Nat) (rows : List Nat) (t : Tx α) : Work α :=
  commit (fun db => rows.all fun r => db.free me (.request r)) (·.release me) t

def hold (me : Nat) (resource : Resource) : Work Unit :=
  .ask ⟨fun db => db.free me resource, fun db => { db with held := (resource, me) :: db.held }⟩ fun _ => .done (.ok ())

-- An update of a request that the rest of the transaction goes on from: the row is held if it matches.
def testAndHold (me id : Nat) (still : Request → Bool) : Work Bool :=
  .ask ⟨fun db => db.free me (.request id), fun db =>
      if (db.request? id).any still then { db with held := (.request id, me) :: db.held } else db⟩
    fun db => .done (.ok ((db.request? id).any still))

def rollback (me : Nat) : Work Unit := transact me [] (pure ())

def clock : Work Int := do return (← look).clock

end QVault.Recovery
