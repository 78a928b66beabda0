import QVault.Services.Recovery.Requests

/-!
# A phone vouches

The second half of `qvault/services/recovery_phone.py`: the phone asks and signs, its code is typed on
the web, and what ends a request it vouched for. With `device_service.revoke` and the scheduler's `tick`.
-/

namespace QVault.Recovery
open Python Crypto Services Programs Sessions

def selftestPrefix : Bytes := asciiBytes "QVAULT-SIG-v1:RECOVERY-SELFTEST|"

def insertApproval (make : Nat → Approval) : Tx Unit :=
  modify fun db => { db with approvals := db.approvals ++ [make (nextId (db.approvals.map (·.id)))] }

/-! ## Asking and signing -/

def pendingApproval (purpose : Purpose) (device : Device) (request : Nat) (now : Int) (id : Nat) : Approval where
  id := id
  requestId := request
  purpose := purpose
  deviceId := device.id
  keyId := device.keyId
  state := .pending
  createdAt := now
  expiresAt := now + approvalTtl
  approvedAt := none
  usedAt := none
  codeSelector := none
  codeTag := none
  tries := 0
  signatureSha256 := none
  signature := none

def phoneRequest (uuid : Text) (userId now : Int) (id : Nat) : Request where
  id := id
  uuid := uuid
  userId := userId
  route := .phone
  state := .phonePending
  startedById := some userId
  kitId := none
  createdAt := now
  claimedAt := none
  windowStartsAt := none
  completesAt := none
  finishedAt := none
  cancelledById := none
  cancelledAs := none
  cancelReason := none
  kitBurned := false
  endReason := none
  statusTokenHash := none
  pending := .erased
  oldKeyId := none
  requestCode := none
  wraps := []

def askReset (fresh : Fresh) (device : Device) (now : Int) : Tx Unit := do
  let r ← insertRequest (phoneRequest fresh.uuid device.ownerId now)
  insertApproval (pendingApproval .webReset device r.id now)

def beginReset (fresh : Fresh) (me : Nat) (device : Device) (now : Int) : Work Unit := do
  let db ← look
  match coolingOff db device now <|> expiresBefore device (now + approvalTtl + phoneWait) <|> db.lockout device.ownerId with
  | some refusal => raise refusal
  | none =>
    if (db.openRequest device.ownerId).isSome then raise .underWay
    else transact me [] (askReset fresh device now)

def beginConfirm (me : Nat) (device : Device) (uuid : Text) (now : Int) : Work Unit := do
  let db ← look
  let some r := db.requestByUuid uuid | raise .lookup
  if r.userId ≠ device.ownerId ∨ r.route ≠ .kit then raise .lookup
  else
    match r.state, r.completesAt, r.windowStartsAt with
    | .waiting, some completes, some window =>
      if completes ≤ now then raise .tooLate
      else
        let target := kitConfirmTarget window (now + approvalTtl)
        if completes ≤ target then raise .alreadyShort
        else
          match expiresBefore device target with
          | some refusal => raise refusal
          | none => transact me [] (insertApproval (pendingApproval .kitConfirm device r.id now))
    | _, _, _ => raise .tooLate

-- `begin`; a confirmation names the request it is for.
def beginVouching (suite : Suite) (fresh : Fresh) (me deviceId : Nat) (purpose : Purpose) (uuid : Text) : Work Unit := do
  let now ← clock
  let db ← look
  let some device := db.device? deviceId | raise .deviceUnusable
  match deviceProblem suite db device now with
  | some refusal => raise refusal
  | none =>
    let now := now - now % 1000000
    if livePerDevice ≤ (db.approvals.filter fun a => a.deviceId = device.id && a.live now).length then raise .tooMany
    else
      match purpose with
      | .webReset => beginReset fresh me device now
      | .kitConfirm => beginConfirm me device uuid now

def selectorTaken (db : Db) (selector : Text) (now : Int) : Bool :=
  db.approvals.any fun a => a.codeSelector = some selector && a.state = .approved && now < a.expiresAt

-- `_unused_code`, from the codes drawn
def unusedCode (db : Db) (codes : List Text) (now : Int) : Except Refusal Text :=
  match (codes.take 8).find? fun code => !selectorTaken db (splitCode code).1 now with
  | some code => .ok code
  | none => .error .busy

def grantedRequest (id : Nat) (purpose : Purpose) (now : Int) : Tx Unit := do
  match purpose with
  | .webReset =>
    if ← compareAndSet id (·.state = .phonePending) fun r => { r with state := .phoneApproved } then return ()
    else throw .tooLate
  | .kitConfirm =>
    if ((← get).request? id).any fun r => r.state = .waiting && r.completesAt.any (now < ·) then return ()
    else throw .tooLate

def logGranted (suite : Suite) (r : Request) (approval : Approval) (signature : Bytes) : Tx Unit := do
  (match approval.purpose with
    | .webReset =>
      append "recovery_requested" r.userId r.userId
        [("request_uuid", .str r.uuid), userIdPayload r.userId, ("route", .str (text "phone")),
          ("started_by", .int r.userId), ("device_id", .int approval.deviceId)]
    | .kitConfirm => pure ())
  append "recovery_phone_approved" r.userId r.userId
    [("request_uuid", .str r.uuid), ("purpose", .str approval.purpose.text), ("device_id", .int approval.deviceId),
      ("key_id", .int approval.keyId), ("signature_sha256", .str (sha256Hex suite.sha256 signature)),
      ("signed", (signingInputs suite approval r).toJson), ("signature_b64", .str (b64encode signature))]

-- What a verified signature moves: the reset it is for, and the approval with its code
def grantApproval (suite : Suite) (fresh : Fresh) (r : Request) (approval : Approval) (device : Device) (key : Key)
    (signature : Bytes) (now : Int) : Tx Unit := do
  grantedRequest r.id approval.purpose now
  match unusedCode (← get) fresh.phoneCodes now with
  | .error refusal => throw refusal
  | .ok code =>
    let (selector, secret) := splitCode code
    let signed ← compareAndSetApproval approval.id (·.state = .pending) fun a => { a with
      state := .approved
      approvedAt := some now
      codeSelector := some selector
      codeTag := some (suite.phoneCodeTag approval.id r.uuid secret)
      signatureSha256 := some (sha256Hex suite.sha256 signature)
      signature := some signature }
    if signed then
      modify fun db => { db with vouchers := db.vouchers ++ [⟨approval.id, device, key, signature, secret, now⟩] }
      logGranted suite r approval signature
    else throw .notAsked

-- What is wrong with a signature over an approval's fields
def signatureProblem (suite : Suite) (key : Key) (approval : Approval) (r : Request) (signature : Bytes) : Option Refusal :=
  match recoverySigningBytes (signingInputs suite approval r) with
  | .error _ => some .badRequest
  | .ok message =>
    if signature.length = suite.signatureSize key.algId ∧ suite.verify key.algId key.publicKey message signature then none
    else some .signatureInvalid

def approve (suite : Suite) (fresh : Fresh) (me deviceId : Nat) (uuid : Text) (purpose : Purpose) (signatureB64 : Text) :
    Work Unit := do
  let now ← clock
  let db ← look
  let some device := db.device? deviceId | raise .lookup
  let some r := db.requestByUuid uuid | raise .lookup
  if r.userId ≠ device.ownerId then raise .lookup
  else
    let asked := ((db.approvalsOf r.id).filter fun a =>
      a.deviceId = device.id && a.purpose = purpose && a.state = .pending).insertionSort fun a b => b.id ≤ a.id
    let some approval := asked.head? | raise .notAsked
    if approval.expiresAt ≤ now then
      transact me [] (endApproval approval.id)
      raise .expired
    else
      match deviceProblem suite db device now, db.key? device.keyId with
      | some refusal, _ => raise refusal
      | none, none => raise .deviceKey
      | none, some key =>
        if key.id ≠ approval.keyId then raise .deviceKey
        else
          match b64decode true signatureB64 with
          | .error _ => raise .badRequest
          | .ok signature =>
            match signatureProblem suite key approval r signature with
            | some refusal => raise refusal
            | none =>
              let db ← look
              match purpose, coolingOff db device now <|> db.lockout device.ownerId with
              | .webReset, some refusal => raise refusal
              | _, _ => transact me [r.id] (grantApproval suite fresh r approval device key signature now)

/-! ## Typing the code on the web -/

def logEnded (event : Text) (id : Nat) (reason : Text) : Tx Unit := do
  match (← get).request? id with
  | some r => append event r.userId r.userId [("request_uuid", .str r.uuid), ("reason", .str reason)]
  | none => return ()

-- An ending of a request whose code was never typed, if it is still one
def endUnclaimed (r : Nat) (still : RequestState → Bool) (state : RequestState) (now : Int) (reason : Text) : Tx Bool :=
  compareAndSet r (fun r => still r.state) fun r => { r with state, finishedAt := some now, endReason := some reason }

-- `_run_out`
def runOut (approval : Approval) : Tx Unit := do
  endApproval approval.id
  let db ← get
  match approval.purpose, db.request? approval.requestId with
  | .webReset, some r =>
    if ← endUnclaimed r.id RequestState.isPreclaim .expired db.clock "too many wrong codes were typed" then
      logEnded "recovery_expired" r.id "wrong_codes"
    else return ()
  | _, _ => return ()

def spendTry (me : Nat) (named : Named) (id : Nat) : Tx Bool := do
  let took ← compareAndSetApproval id (fun a => a.state = .approved && a.tries < codeTries) fun a => { a with tries := a.tries + 1 }
  (if took then modify fun db => { db with spent := db.spent ++ [⟨id, me, named⟩] } else pure ())
  return took

-- One comparison of a secret with the tag kept
def compareSecret (suite : Suite) (me id : Nat) (secret : Text) (typedAt : Int) : Work (Option Approval) :=
  .ask ⟨fun _ => true, fun db => { db with comparisons := db.comparisons ++ [⟨id, me, secret, typedAt⟩] }⟩ fun db =>
    .done (.ok ((db.approval? id).filter fun a =>
      (db.request? a.requestId).any fun r => a.codeTag = some (suite.phoneCodeTag a.id r.uuid secret)))

def tryCode (suite : Suite) (me : Nat) (named : Named) (candidate : Option Approval) (code : Text) (typedAt : Int) :
    Work (Option Approval) := do
  match candidate with
  | none => return none
  | some found =>
    let took ← transact me [] (spendTry me named found.id)
    if !took then return none
    else
      match ← compareSecret suite me found.id (splitCode code).2 typedAt with
      | some approval => return some approval
      | none =>
        match (← look).approval? found.id with
        | none => return none
        | some approval =>
          (if codeTries ≤ approval.tries then transact me [approval.requestId] (runOut approval) else pure ())
          return none

-- `_end_preclaim`
def endPreclaim (r : Request) (approval : Approval) (reason : Text) : Tx Unit := do
  endApproval approval.id
  if ← endUnclaimed r.id RequestState.isPreclaim .rejected (← get).clock (reason.take 500) then
    logEnded "recovery_rejected" r.id (reason.take 500)
  else return ()

def useApproval (id : Nat) (now : Int) : Tx Bool :=
  compareAndSetApproval id (fun a => a.state = .approved && now < a.expiresAt)
    fun a => { a with state := .used, usedAt := some now }

def requestCodeFor (suite : Suite) (uuid publicKeySha256 : Text) : Text :=
  let digest := (sha256Hex suite.sha256 (ascii (text "qvault:recovery-request:v1|" ++ uuid ++ text "|" ++ publicKeySha256))).take 8
  let upper := digest.flatMap suite.upper
  upper.take 4 ++ text "-" ++ upper.drop 4

-- The pending credential of a claim: a new key under the new password
def pendingOf (suite : Suite) (fresh : Fresh) (newPassword : Text) : Pending where
  passwordHash := some (suite.hashPassword fresh.passwordSalt newPassword)
  kekSalt := some fresh.kekSalt
  kdfParams := some defaultParams
  publicKey := some fresh.publicKey
  skWrapped := some (suite.encrypt (suite.deriveKek newPassword fresh.kekSalt defaultParams) (fresh.nonces 0)
    fresh.secretKey wrapAad)
  skNonce := some (fresh.nonces 0)

def claimRequest (suite : Suite) (fresh : Fresh) (r : Request) (approval : Approval) (newPassword : Text) (now : Int) :
    Tx Unit := do
  let sha := sha256Hex suite.sha256 fresh.publicKey
  let active := (← get).activeSigningKey r.userId
  let used ← useApproval approval.id now
  (if used then pure () else throw .generic)
  let moved ← compareAndSet r.id (·.state = .phoneApproved) fun r => { r with
    state := .waiting
    claimedAt := some now
    windowStartsAt := some now
    completesAt := some (now + phoneWait)
    statusTokenHash := some (suite.sha256 (asciiBytes "QVAULT-RECOVERY-STATUS-v1|" ++ fresh.token))
    pending := pendingOf suite fresh newPassword
    oldKeyId := active.map (·.id)
    requestCode := some (requestCodeFor suite r.uuid sha) }
  (if moved then pure () else throw .generic)
  let wraps := ((← get).passwordKeys r.userId).map fun key => (⟨key.id, wrappedDigest suite.sha256 key, none, none⟩ : RequestWrap)
  updateRequest r.id fun r => { r with wraps := r.wraps ++ wraps }
  append "recovery_claimed" r.userId r.userId
    [("request_uuid", .str r.uuid), ("pending_public_key_sha256", .str sha),
      ("request_code", .str (requestCodeFor suite r.uuid sha))]
  append "recovery_waiting" r.userId r.userId
    [("request_uuid", .str r.uuid), ("completes_at", .str (suite.isoZ (now + phoneWait)))]

-- A code's approval and the request it is for, if that is a reset of this person waiting for its code
def claimable (db : Db) (email selector : Text) (now : Int) : Option Approval := do
  let user ← db.users.find? fun u => u.email = email
  let found ← db.bySelector selector now .webReset none
  let r ← db.request? found.requestId
  if r.userId = user.id ∧ r.state = .phoneApproved then return found else none

def claim (suite : Suite) (fresh : Fresh) (me : Nat) (email typedCode newPassword : Text) : Work Unit := do
  let now ← clock
  let code ← orRaise (normaliseCode suite.upper typedCode)
  let email := suite.lower (strip email)
  let found := claimable (← look) email (splitCode code).1 now
  let some approval ← tryCode suite me (.email email) found code now | raise .generic
  let db ← look
  let some r := db.request? approval.requestId | raise .generic
  let some device := db.device? approval.deviceId | raise .deviceUnusable
  match deviceProblem suite db device now <|> coolingOff db device now <|> (← look).lockout r.userId with
  | some refusal =>
    transact me [r.id] (endPreclaim r approval (suite.sentence refusal))
    raise refusal
  | none =>
    -- the slow work, outside any held row
    let probe := selftestPrefix ++ ascii r.uuid
    if !suite.verify newKeyAlg fresh.publicKey probe (suite.sign newKeyAlg fresh.secretKey probe) then raise .selftest
    else
      lockTreasuries me r.userId
      match (← look).lockout r.userId with
      | some refusal =>
        transact me [r.id] (endPreclaim r approval (suite.sentence refusal))
        raise refusal
      | none => transact me [r.id] (claimRequest suite fresh r approval newPassword now)

def confirmRequest (suite : Suite) (r : Request) (approval : Approval) (newCompletes now : Int) : Tx Unit := do
  let used ← useApproval approval.id now
  let moved ← compareAndSet r.id
    (fun r => r.state = .waiting && r.completesAt.any (now < ·) && r.completesAt.any (newCompletes < ·))
    fun r => { r with completesAt := some newCompletes }
  if used && moved then
    append "recovery_waiting" r.userId r.userId
      [("request_uuid", .str r.uuid), ("completes_at", .str (suite.isoZ newCompletes)),
        ("confirmed_by_device", .int approval.deviceId)]
  else throw .tooLate

def confirmKit (suite : Suite) (me : Nat) (token : Bytes) (typedCode : Text) : Work Unit := do
  let now ← clock
  let db ← look
  let some r := db.requests.1.find? fun r => r.statusTokenHash = some (suite.sha256 (asciiBytes "QVAULT-RECOVERY-STATUS-v1|" ++ token))
    | raise .lookup
  let code ← orRaise (normaliseCode suite.upper typedCode)
  match r.route, r.state, r.completesAt, r.windowStartsAt with
  | .kit, .waiting, some completes, some window =>
    let newCompletes := kitConfirmTarget window now
    if completes ≤ now then raise .tooLate
    else if completes ≤ newCompletes then raise .alreadyShort
    else
      let found := (← look).bySelector (splitCode code).1 now .kitConfirm (some r.id)
      let some approval ← tryCode suite me (.request r.id) found code now | raise .wrongCode
      let db ← look
      let some device := db.device? approval.deviceId | raise .deviceUnusable
      match deviceProblem suite db device now with
      | some refusal => raise refusal
      | none => transact me [r.id] (confirmRequest suite r approval newCompletes now)
  | _, _, _, _ => raise .tooLate

/-! ## What ends it -/

-- The requests among these that a phone vouched for, each looked at when its turn comes
def markAssisted (me : Nat) (now : Int) : List Request → Work (List Mark)
  | [] => return []
  | r :: rest => do
    let db ← look
    let mark ← (if db.phoneAssisted r then markCancel me r.id r.state now else pure none)
    return mark.toList ++ (← markAssisted me now rest)

def revokeDeviceKey (keyId : Nat) : Tx Unit := do
  let now := (← get).clock
  updateKey keyId fun k => { k with status := .retired, canSign := false, canVerify := true, retiredAt := some now }

def retireDevice (device : Device) (requests : List Request) : Tx Unit := do
  modify fun db => { db with devices := db.devices.map fun d =>
    if d.id = device.id then { d with revokedAt := some db.clock } else d }
  revokeDeviceKey device.keyId
  requests.forM fun r => endLiveApprovals r.id

def logDeviceRevoked (suite : Suite) (device : Device) (actor : Option Int) : Tx Unit := do
  let publicKey := ((← get).key? device.keyId).map (·.publicKey)
  modify fun db => { db with log := db.log ++ [{
    eventType := "device_revoked"
    payload := .dict [userIdPayload device.ownerId, ("device_id", .int device.id), ("key_id", .int device.keyId),
      ("public_key_sha256", match publicKey with | some key => shaText suite key | none => .null),
      ("revoked_by", match actor with | some id => .int id | none => .null)]
    actor := match actor with | some id => text "user:" ++ intText id | none => text "SYSTEM"
    actorId := actor
    vaultId := none
    refType := some (text "device")
    refId := some (natText device.id) }] }

-- `device_service.revoke`, with `on_device_revoked`
def revokeDevice (suite : Suite) (me : Nat) (deviceId : Nat) (actor : Option Int) : Work Unit := do
  let now ← clock
  let db ← look
  let some device := db.device? deviceId | raise .lookup
  if device.revokedAt.isSome then raise .alreadyRevoked
  else
    let requests := db.cancellable me device.ownerId
    let marks ← markAssisted me now requests
    transact me (markIds marks) do
      retireDevice device requests
      applyAll ⟨actor, "device_revoked", "device_revoked", false⟩ marks
      logDeviceRevoked suite device actor

-- Phone resets nobody claimed: the row is held from its update.
def markUnclaimed (me : Nat) : List Request → Work (List Request)
  | [] => return []
  | r :: rest => do
    let moved ← testAndHold me r.id (·.state = r.state)
    let others ← markUnclaimed me rest
    return if moved then r :: others else others

def expireUnclaimed (now : Int) (r : Request) : Tx Unit := do
  if ← endUnclaimed r.id (· = r.state) .expired now "its code was not typed in time" then
    endLiveApprovals r.id
    if r.state = .phoneApproved then logEnded "recovery_expired" r.id "not_claimed" else return ()
  else return ()

def sweep (me : Nat) (now : Int) : Work Unit := do
  let db ← look
  let stale := db.requests.1.filter fun r => r.state.isPreclaim && !((db.approvalsOf r.id).any (·.live now))
  let unclaimed ← markUnclaimed me stale
  let db ← look
  let unvouched := db.requests.1.filter fun r => r.state = .waiting && (db.approvingApproval r.id).any fun a =>
    !((db.device? a.deviceId).any (·.isUsable now))
  let marks ← markAll me now unvouched
  transact me (unclaimed.map (·.id) ++ markIds marks) do
    unclaimed.forM (expireUnclaimed now)
    applyAll ⟨none, "system", "device_unusable", false⟩ marks

def completeAll (suite : Suite) (me : Nat) (now : Int) : List Request → Work Unit
  | [] => return ()
  | r :: rest => do
    discard (attempt (complete suite me r.id now))
    rollback me
    completeAll suite me now rest

-- The scheduled job
def tick (suite : Suite) (me : Nat) : Work Unit := do
  let now ← clock
  discard (attempt (sweep me now))
  rollback me
  let due := (← look).requests.1.filter (stillDue now)
  completeAll suite me now due

end QVault.Recovery
