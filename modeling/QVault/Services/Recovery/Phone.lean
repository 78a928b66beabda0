import QVault.Services.Recovery.Kit

/-!
# A paired phone: its rules, its codes, and the treasuries

The first half of `qvault/services/recovery_phone.py`: what its operations ask before they write.
-/

namespace QVault.Recovery
open Python Crypto Services Programs Sessions

def phoneWait : Int := hours 24
def kitWithPhoneWait : Int := hours 24
def approvalTtl : Int := minutes 10
def minPairedAge : Int := days 7
def codeTries : Nat := 5
def livePerDevice : Nat := 3
def selectorSymbols : Nat := 4
def codeSymbols : Nat := 12
def kitConfirmFloor : Int := hours 6
def restartAfterCancel : Int := days 7
def restartAfterDoubt : Int := hours 24

def fromVouchingPhone : Text := "cancelled_by_vouching_phone"
def fromOtherPhone : Text := "cancelled_from_other_phone"
def fromPhone : Text := "cancelled_from_phone"

def coolDownFor (cancelledAs cancelReason : Option Text) : Option Int :=
  if cancelledAs ∈ [some (text "password"), some (text "device_revoked"), some (text "system")] then some restartAfterCancel
  else if cancelledAs = some (text "self") then
    some (if cancelReason = some fromOtherPhone then restartAfterDoubt else restartAfterCancel)
  else if cancelledAs ∈ [some (text "manager"), some (text "cosigner")] then some restartAfterDoubt
  else none

/-! ## Codes -/

-- `kit_code.ALPHABET`
def codeAlphabet : Text := "0123456789ABCDEFGHJKMNPQRSTVWXYZ"

def splitCode (code : Text) : Text × Text := (code.take selectorSymbols, code.drop selectorSymbols)

-- One character of the loop of `normalise_code`
def codeCharacter (c : CodePoint) : Option (List CodePoint) :=
  if c ∈ text " -\t\r\n" then some []
  else
    let c := if c ∈ text "IL" then codePoint '1' else if c = codePoint 'O' then codePoint '0' else c
    if c ∈ codeAlphabet then some [c] else none

def normaliseCode (upper : CodePoint → Text) (typed : Text) : Except Refusal Text :=
  if 60 < typed.length then .error .typo
  else
    match (typed.flatMap upper).mapM codeCharacter with
    | none => .error .typo
    | some cleaned => if cleaned.flatten.length = codeSymbols then .ok cleaned.flatten else .error .typo

/-! ## The phone's rules -/

-- `_require_device_signing_key`
def isDeviceSigningKey (hasSignature : Text → Bool) (ownerId : Int) (key : Option Key) : Bool :=
  match key with
  | none => false
  | some key =>
    key.ownerId = ownerId && key.role = text "sig" && key.domain = .device && key.status = .active && key.canSign &&
      hasSignature key.algId

def deviceProblem (suite : Suite) (db : Db) (device : Device) (now : Int) : Option Refusal :=
  if (db.user? device.ownerId).isNone || !device.isUsable now then some .deviceUnusable
  else if now - minPairedAge < device.createdAt then some .tooNew
  else if isDeviceSigningKey suite.hasSignature device.ownerId (db.key? device.keyId) then none
  else some .deviceKey

-- What one cancelled phone reset that this phone vouched for holds it to
def coolingHold (db : Db) (now : Int) (approval : Approval) : Option Int := do
  let r ← db.request? approval.requestId
  let finished ← r.finishedAt
  if r.route = .phone ∧ r.state = .cancelled ∧ now - restartAfterCancel < finished then
    let length ← coolDownFor r.cancelledAs r.cancelReason
    return finished + length
  else none

def coolingOff (db : Db) (device : Device) (now : Int) : Option Refusal :=
  let holds := (db.approvals.filter fun a => a.deviceId = device.id).filterMap (coolingHold db now)
  if holds.any (now < ·) then some .coolingOff else none

def expiresBefore (device : Device) (neededUntil : Int) : Option Refusal :=
  if device.expiresAt.any (· ≤ neededUntil) then some .expiresSoon else none

def kitConfirmTarget (windowStartsAt now : Int) : Int := max (windowStartsAt + kitWithPhoneWait) (now + kitConfirmFloor)

/-! ## The treasury lock-out check -/

structure SeatEffect where
  threshold : Nat
  signers : Nat
  othersUsable : Nat

def SeatEffect.locks (effect : SeatEffect) : Bool := effect.othersUsable < effect.threshold

namespace Db

-- `reconfiguration_service._seat_can_sign`
def seatCanSign (db : Db) (seat : Seat) : Bool :=
  match db.key? seat.keyId with
  | none => false
  | some key =>
    if key.algId ≠ newKeyAlg then false
    else
      match key.domain with
      | .lost => false
      | .password => key.wrapped.isSome
      | _ => (db.devices.find? fun d => d.keyId = key.id).any fun d => d.isUsable db.clock && key.status = .active

-- Everyone else whose phone reset is waiting
def resetting (db : Db) (userId : Int) : List Int :=
  (db.requests.1.filter fun r => r.route = .phone ∧ r.state = .waiting ∧ r.userId ≠ userId).map (·.userId)

def holdsPasswordSeat (db : Db) (userId : Int) (seat : Seat) : Bool :=
  seat.userId = userId && (db.key? seat.keyId).any (·.domain = .password)

def seatEffect (db : Db) (userId : Int) (treasury : Treasury) : SeatEffect where
  threshold := treasury.threshold
  signers := treasury.signers.length
  othersUsable := (treasury.signers.filter fun seat =>
    seat.userId ≠ userId && (seat.userId ∉ db.resetting userId) && db.seatCanSign seat).length

def treasuryEffects (db : Db) (userId : Int) : List SeatEffect :=
  (db.treasuries.filter (·.linked)).flatMap fun treasury =>
    (treasury.signers.filter (db.holdsPasswordSeat userId)).map fun _ => db.seatEffect userId treasury

def lockout (db : Db) (userId : Int) : Option Refusal :=
  if (db.treasuryEffects userId).any (·.locks) then some .treasuryLockout else none

def treasuriesToLock (db : Db) (userId : Int) : List Nat :=
  ((db.treasuries.filter fun t => t.linked && t.signers.any (db.holdsPasswordSeat userId)).map (·.id)).insertionSort (· ≤ ·)

end Db

def holdAll (me : Nat) : List Resource → Work Unit
  | [] => return ()
  | resource :: rest => do
    hold me resource
    holdAll me rest

def lockTreasuries (me : Nat) (userId : Int) : Work Unit := do
  let db ← look
  holdAll me ((db.treasuriesToLock userId).map .treasury)

/-! ## What the phone signs -/

def Purpose.text : Purpose → Text
  | .webReset => "web_reset"
  | .kitConfirm => "kit_confirm"

def signingInputs (suite : Suite) (approval : Approval) (request : Request) : RecoveryFields where
  purpose := approval.purpose.text
  requestUuid := request.uuid
  userId := request.userId
  deviceId := approval.deviceId
  keyId := approval.keyId
  deployment := suite.deployment
  expiresAt := suite.isoZ approval.expiresAt

def Approval.live (approval : Approval) (now : Int) : Bool :=
  (approval.state = .pending || approval.state = .approved) && now < approval.expiresAt

def Db.bySelector (db : Db) (selector : Text) (now : Int) (purpose : Purpose) (request : Option Nat) : Option Approval :=
  ((db.approvals.filter fun a =>
      a.live now && a.codeSelector = some selector && a.state = .approved && a.purpose = purpose &&
        request.all (a.requestId = ·)).insertionSort fun a b => a.id ≤ b.id).head?

-- `_end_approval`
def endApproval (id : Nat) : Tx Unit :=
  updateApprovals (fun a => a.id = id && (a.state = .pending || a.state = .approved)) fun a => { a with state := .ended }

def endLiveApprovals (request : Nat) : Tx Unit :=
  updateApprovals (fun a => a.requestId = request && (a.state = .pending || a.state = .approved))
    fun a => { a with state := .ended }

end QVault.Recovery
