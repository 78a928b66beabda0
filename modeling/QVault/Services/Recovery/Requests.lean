import QVault.Services.Recovery.Phone

/-!
# Recovery requests

`qvault/services/recovery_service.py`: starting with a kit, cancelling, and completing.
-/

namespace QVault.Recovery
open Python Crypto Services Programs Sessions

def kitWait : Int := hours 72
def alarmLevels : List Nat := [10, 100, 1000]
def throttleWindow : Int := hours 24
def pause : Int := hours 24
def restartAfterOwnCancel : Int := hours 24

def userIdPayload (userId : Int) : Text × Json := ("user_id", .int userId)

def keyIds (ids : List Nat) : Json := .list (ids.map fun id => .int id)

/-! ## Cancelling -/

structure Cancellation where
  actor : Option Int
  asRole : Text
  reason : Text
  burn : Bool

-- A cancel whose update has been made and whose transaction has yet to commit
structure Mark where
  id : Nat
  was : RequestState
  now : Int

def stillCancellable (observed : RequestState) (now : Int) (r : Request) : Bool :=
  match observed with
  | .waiting => r.state = .waiting && r.completesAt.any (now < ·)
  | .phonePending | .phoneApproved => r.state = observed
  | _ => false

def RequestState.isCancellable (state : RequestState) : Bool := state = .waiting || state.isPreclaim

def Request.cancel (r : Request) (c : Cancellation) (now : Int) : Request :=
  { r with
    state := .cancelled
    finishedAt := some now
    cancelledById := c.actor
    cancelledAs := some c.asRole
    cancelReason := some c.reason
    kitBurned := c.burn && r.route = .kit }

def erasePending (id : Nat) : Tx Unit := updateRequest id fun r => { r with pending := .erased, wraps := [] }

-- The loop of `cancel`: the row as it was read, and, if it has moved, once more as it is.
def markCancel (me id : Nat) (observed : RequestState) (now : Int) : Work (Option Mark) := do
  if !observed.isCancellable then return none
  else if ← testAndHold me id (stillCancellable observed now) then return some ⟨id, observed, now⟩
  else
    match (← look).request? id with
    | none => return none
    | some r =>
      if !r.state.isCancellable then return none
      else if ← testAndHold me id (stillCancellable r.state now) then return some ⟨id, r.state, now⟩
      else return none

def logCancelled (c : Cancellation) (r : Request) : Tx Unit :=
  append "recovery_cancelled" r.userId (c.actor.getD r.userId)
    [("request_uuid", .str r.uuid), ("by", match c.actor with | some id => .int id | none => .str c.asRole),
      ("as", .str c.asRole), ("reason", .str c.reason), ("kit_burned", .bool r.kitBurned)]

def burnKit (r : Request) (now : Int) : Tx Unit := do
  match r.kitId with
  | some kit => if r.kitBurned then discard (revokeKit kit "burned" now false) else return ()
  | none => return ()

-- The rest of `cancel`, with its update
def applyCancel (c : Cancellation) (mark : Mark) : Tx Unit := do
  if ← compareAndSet mark.id (stillCancellable mark.was mark.now) (·.cancel c mark.now) then
    erasePending mark.id
    endLiveApprovals mark.id
    match mark.was, (← get).request? mark.id with
    | .phonePending, _ => return ()
    | _, none => return ()
    | _, some r =>
      burnKit r mark.now
      logCancelled c r
  else return ()

def markAll (me : Nat) (now : Int) : List Request → Work (List Mark)
  | [] => return []
  | r :: rest => do
    let mark ← markCancel me r.id r.state now
    return mark.toList ++ (← markAll me now rest)

def applyAll (c : Cancellation) (marks : List Mark) : Tx Unit := marks.forM (applyCancel c)

def markIds (marks : List Mark) : List Nat := marks.map (·.id)

-- `cancel` and the commit of its caller
def cancelRequest (me : Nat) (r : Request) (c : Cancellation) : Work Unit := do
  match ← markCancel me r.id r.state (← clock) with
  | none => raise .tooLate
  | some mark => transact me [mark.id] (applyCancel c mark)

def cancelAs (me : Nat) (viewerId : Int) (uuid : Text) : Work Unit := do
  let db ← look
  let some r := db.requestByUuid uuid | raise .lookup
  if viewerId = r.userId then cancelRequest me r ⟨some viewerId, "self", "cancelled", true⟩
  else
    match db.watchers r.userId viewerId with
    | none => raise .lookup
    | some role => cancelRequest me r ⟨some viewerId, role, "cancelled", false⟩

def cancelByStatusToken (suite : Suite) (me : Nat) (token : Bytes) : Work Unit := do
  let db ← look
  let some r := db.requests.1.find? fun r => r.statusTokenHash = some (suite.sha256 (asciiBytes "QVAULT-RECOVERY-STATUS-v1|" ++ token))
    | raise .lookup
  cancelRequest me r ⟨none, "status_holder", "cancelled", false⟩

def cancelFromPhone (me deviceId : Nat) (uuid : Text) : Work Unit := do
  let db ← look
  let some device := db.device? deviceId | raise .lookup
  let some r := db.requestByUuid uuid | raise .lookup
  let reason :=
    if r.route ≠ .phone then fromPhone
    else if (db.approvalsOf r.id).any (·.deviceId = device.id) then fromVouchingPhone
    else fromOtherPhone
  if device.ownerId = r.userId then cancelRequest me r ⟨some device.ownerId, "self", reason, false⟩
  else
    match db.watchers r.userId device.ownerId with
    | none => raise .lookup
    | some role =>
      if r.state.isPreclaim then raise .lookup
      else cancelRequest me r ⟨some device.ownerId, role, reason, false⟩

-- The view that turns down a kit just shown; with `cancel_kit_requests`
def kitNotSaved (me : Nat) (userId : Int) (kitId : Nat) : Work Unit := do
  let now ← clock
  let db ← look
  let some kit := db.kit? kitId | return ()
  if kit.userId ≠ userId ∨ kit.state ≠ .active then return ()
  else
    let marks ← markAll me now (db.requests.1.filter fun r => r.kitId = some kitId ∧ r.state.isOpen)
    transact me (markIds marks) do
      discard (revokeKit kitId "not_saved" now false)
      applyAll ⟨some userId, "self", "kit_not_saved", true⟩ marks

/-! ## Proofs of the current password -/

def passwordCancellation (userId : Int) (via : Text) : Cancellation :=
  ⟨some userId, "password", text "password_used:" ++ via, true⟩

-- In the caller's transaction, which applies the marks when it commits
def passwordProven (me : Nat) (userId : Int) (via : Text) : Work (List Mark) := do
  let requests := (← look).cancellable me userId
  if requests.isEmpty then return []
  else
    setMemory ((← getMemory) ++ [(userId, via)])
    let now ← clock
    markAll me now requests

-- The cancels of one remembered proof
def settleProof (me : Nat) (proof : Int × Text) : Work (List (Cancellation × Mark)) := do
  let db ← look
  if (db.user? proof.1).isNone then return []
  else
    let now ← clock
    let marks ← markAll me now (db.cancellable me proof.1)
    return marks.map fun mark => (passwordCancellation proof.1 proof.2, mark)

def settleProofs (me : Nat) : Proofs → Work (List (Cancellation × Mark))
  | [] => return []
  | proof :: rest => do
    let marks ← settleProof me proof
    return marks ++ (← settleProofs me rest)

def settlePasswordProofs (me : Nat) : Work Unit := do
  match ← getMemory with
  | [] => return ()
  | proofs =>
    setMemory []
    rollback me
    let marks ← settleProofs me proofs
    transact me (marks.map (·.2.id)) (marks.forM fun (c, mark) => applyCancel c mark)

/-! ## Completing -/

def completionProblem (suite : Suite) (db : Db) (r : Request) : Option Text :=
  let current := db.passwordKeys r.userId
  if (db.user? r.userId).isNone then some "the account no longer exists"
  else if (r.pending.passwordHash.getD []).isEmpty || (r.pending.kekSalt.getD []).isEmpty then
    some "the new password was not kept"
  else if r.route ≠ .kit ∧ r.route ≠ .phone then some "this way back is not built"
  else if r.route = .kit ∧ !((r.kitId.bind db.kit?).any (·.state = .active)) then
    some "the Recovery Kit it used stopped working"
  else if !(r.wraps.all fun w => current.any (·.id = w.keyId)) || !(current.all fun k => r.wraps.any (·.keyId = k.id)) then
    some "the account's keys changed while it waited"
  else if !(current.all fun k => (r.wraps.find? (·.keyId = k.id)).any (·.wrappedSha256 = wrappedDigest suite.sha256 k)) then
    some "the account's keys changed while it waited"
  else if r.route = .kit ∧ !((db.activeSigningKey r.userId).any fun k =>
      (r.wraps.find? (·.keyId = k.id)).any (·.newWrapped.isSome)) then
    some "the kit no longer holds the account's signing key"
  else none

-- The first part of `recovery_phone.completion_problem`
def vouchingProblem (db : Db) (r : Request) (now : Int) : Option Text :=
  let approval := db.approvingApproval r.id
  if r.route = .phone ∧ (r.pending.publicKey.isNone ∨ r.pending.skWrapped.isNone ∨ r.pending.skNonce.isNone) then
    some "the new signing key was not kept"
  else if r.route = .phone ∧ approval.isNone then some "no phone vouched for it"
  else
    match approval with
    | none => none
    | some approval =>
      let device := db.device? approval.deviceId
      let usable := device.any (·.isUsable now) && (device.bind fun d => db.key? d.keyId).any fun k =>
        k.id = approval.keyId && k.status = .active && k.canSign
      if usable then none else some "the phone that vouched for it can no longer sign in"

-- And its second: the treasuries are held, then looked at.
def phoneCompletionProblem (suite : Suite) (me : Nat) (r : Request) (now : Int) : Work (Option Text) := do
  let db ← look
  match vouchingProblem db r now with
  | some problem => return some problem
  | none =>
    if r.route = .phone ∧ (db.user? r.userId).isSome then
      lockTreasuries me r.userId
      return ((← look).lockout r.userId).map suite.sentence
    else return none

def loseKey (now : Int) (k : Key) : Key :=
  { k with
    wrapped := none
    nonce := none
    domain := .lost
    status := .retired
    canSign := false
    canVerify := true
    retiredAt := some (k.retiredAt.getD now) }

def applyWrap (now : Int) (w : RequestWrap) : Tx Unit :=
  match w.newWrapped with
  | some new => updateKey w.keyId fun k => { k with wrapped := some new, nonce := w.newNonce }
  | none => updateKey w.keyId (loseKey now)

def shaText (suite : Suite) (publicKey : Bytes) : Json := .str (sha256Hex suite.sha256 publicKey)

-- The facts the ledger entry of a completion carries
def applyKitCompletion (suite : Suite) (r : Request) (now : Int) : Tx (List (Text × Json)) := do
  let active := (← get).activeSigningKey r.userId
  r.wraps.forM (applyWrap now)
  let rewrapped := r.wraps.filter (·.newWrapped.isSome)
  let lost := r.wraps.filter (·.newWrapped.isNone)
  match active with
  | none => throw .integrity
  | some active =>
    return [("old_key_ids", keyIds [active.id]), ("new_key_id", .int active.id),
      ("old_public_key_sha256", shaText suite active.publicKey), ("new_public_key_sha256", shaText suite active.publicKey),
      ("keys_rewrapped", .int rewrapped.length), ("keys_lost", keyIds (lost.map (·.keyId)))]

def addKey (make : Nat → Key) : Tx Key := do
  let key := make (nextId ((← get).keys.map (·.id)))
  modify fun db => { db with keys := db.keys ++ [key] }
  return key

-- `recovery_phone.apply_completion`
def applyPhoneCompletion (suite : Suite) (r : Request) (now : Int) : Tx (List (Text × Json)) := do
  let oldActive := (← get).activeSigningKey r.userId
  r.wraps.forM fun w => updateKey w.keyId (loseKey now)
  let created := (← get).clock
  let new ← addKey fun id =>
    { id, ownerId := r.userId, role := "sig", algId := newKeyAlg, publicKey := r.pending.publicKey.getD []
      wrapped := r.pending.skWrapped, nonce := r.pending.skNonce, domain := .password, status := .active
      canSign := true, canVerify := true, createdAt := created, retiredAt := none }
  let kit := (← get).currentKit r.userId
  (match kit with
    | some kit => discard (revokeKit kit.id "superseded" now false)
    | none => pure ())
  let lost := r.wraps.map (·.keyId)
  return [("old_key_ids", keyIds lost), ("new_key_id", .int new.id),
    ("old_public_key_sha256", match oldActive with | some key => shaText suite key.publicKey | none => .null),
    ("new_public_key_sha256", shaText suite new.publicKey), ("keys_rewrapped", .int 0), ("keys_lost", keyIds lost)]

def routeText : Route → Text
  | .kit => "kit"
  | .phone => "phone"
  | .quorum => "quorum"

def setCredential (r : Request) : Tx Unit :=
  match r.pending.passwordHash, r.pending.kekSalt, r.pending.kdfParams with
  | some passwordHash, some kekSalt, some kdfParams => updateUser r.userId fun u => { u with passwordHash, kekSalt, kdfParams }
  | _, _, _ => throw .integrity

def failCompletion (r : Request) (problem : Text) : Tx Unit := do
  updateRequest r.id fun r => { r with state := .failed, endReason := some problem }
  erasePending r.id
  append "recovery_rejected" r.userId r.userId [("request_uuid", .str r.uuid), ("reason", .str problem)]

def succeedCompletion (suite : Suite) (r : Request) (now : Int) : Tx Unit := do
  let facts ← (if r.route = .phone then applyPhoneCompletion suite r now else applyKitCompletion suite r now)
  setCredential r
  bumpEpoch r.userId
  append "recovery_completed" r.userId r.userId
    (("request_uuid", .str r.uuid) :: userIdPayload r.userId :: ("route", .str (routeText r.route)) :: facts)
  erasePending r.id
  endLiveApprovals r.id

def stillDue (now : Int) (r : Request) : Bool := r.state = .waiting && r.completesAt.any (· ≤ now)

-- From the update of `complete` to its commit; `found` is what its checks said.
def finishCompletion (suite : Suite) (id : Nat) (now : Int) (found : Option Text) : Tx Bool := do
  if ← compareAndSet id (stillDue now) fun r => { r with state := .completed, finishedAt := some now } then
    match (← get).request? id with
    | none => return true
    | some r =>
      let spent ← (match found, r.route, r.kitId with
        | none, .kit, some kit => revokeKit kit "used" now true
        | none, .kit, none => pure false
        | _, _, _ => pure true)
      (match found <|> (if spent then none else some (text "the Recovery Kit it used stopped working")) with
        | some problem => failCompletion r problem
        | none => succeedCompletion suite r now)
      return true
  else return false

def complete (suite : Suite) (me id : Nat) (now : Int) : Work Bool := do
  let db ← look
  let some r := db.request? id | return false
  (if (db.user? r.userId).isSome then hold me (.account r.userId) else pure ())
  if ← testAndHold me id (stillDue now) then
    let db ← look
    let some r := db.request? id | return false
    let found ← (match completionProblem suite db r with
      | some problem => pure (some problem)
      | none => phoneCompletionProblem suite me r now)
    transact me [id] (finishCompletion suite id now found)
  else
    rollback me
    return false

def Db.dueRequest (db : Db) (userId now : Int) : Option Request := (db.openRequest userId).filter (stillDue now)

-- The request, if this call ended it
def completeIfDue (suite : Suite) (me : Nat) (userId now : Int) : Work (Option Nat) := do
  match (← look).dueRequest userId now with
  | none => return none
  | some r => if ← complete suite me r.id now then return some r.id else return none

-- Whether a recovery has just replaced the password
def preparePasswordWrite (suite : Suite) (me : Nat) (userId now : Int) : Work Bool := do
  let ended ← completeIfDue suite me userId now
  hold me (.account userId)
  match ended with
  | none => return false
  | some id => return ((← look).request? id).any (·.state = .completed)

-- The status page
def settle (suite : Suite) (me id : Nat) : Work Unit := do
  let now ← clock
  match (← look).request? id with
  | none => return ()
  | some r => if stillDue now r then discard (complete suite me id now) else return ()

/-! ## Starting with a kit -/

def alarmLevel (wrongCodes : Nat) : Option Nat := (alarmLevels.filter (· ≤ wrongCodes)).getLast?

-- `_count_attempt`: the row it made
def countAttempt (userId now : Int) : Tx Nat := do
  let id := nextId ((← get).kitFailures.map (·.id))
  modify fun db => { db with kitFailures := db.kitFailures ++ [⟨id, userId, now⟩] }
  return id

def forgetAttempt (id : Nat) : Tx Unit :=
  modify fun db => { db with kitFailures := db.kitFailures.filter (·.id ≠ id) }

def afterFailure (suite : Suite) (userId now : Int) : Tx Unit := do
  let db ← get
  let recent := (db.kitFailures.filter fun f => f.userId = userId ∧ now - throttleWindow < f.createdAt).length
  match alarmLevel recent with
  | none => return ()
  | some level =>
    if db.kitPauses.any fun p => p.userId = userId && level ≤ p.level && now - throttleWindow < p.createdAt then return ()
    else
      modify fun db => { db with kitPauses := db.kitPauses ++ [⟨userId, now + pause, level, now⟩] }
      append "recovery_kit_paused" userId userId
        [userIdPayload userId, ("wrong_codes", .int recent), ("level", .int level),
          ("paused_until", .str (suite.isoZ (now + pause)))]

def restartHolds (db : Db) (kit : Nat) (now : Int) : List Int :=
  db.requests.1.filterMap fun r => do
    let finished ← r.finishedAt
    if r.kitId ≠ some kit then none
    else if r.cancelledAs = some (text "status_holder") ∧ now - restartAfterOwnCancel < finished then
      return finished + restartAfterOwnCancel
    else if r.cancelledAs = some (text "self") ∧ r.cancelReason = some fromPhone ∧ now - restartAfterCancel < finished then
      return finished + restartAfterCancel
    else none

def restartAllowedAt (db : Db) (kit : Nat) (now : Int) : Option Int := (restartHolds db kit now).max?

def insertRequest (make : Nat → Request) : Tx Request := do
  let rows := (← get).requests.1
  let r := make (nextId (rows.map (·.id)))
  writeRequests (rows ++ [r])
  return r

-- One key as it is, and its private half under the pending password if the kit held it
def requestWrap (suite : Suite) (fresh : Fresh) (kek : Bytes) (opened : List (Nat × Bytes)) (key : Key) : RequestWrap :=
  let new := (opened.find? (·.1 = key.id)).map fun (_, secret) => suite.encrypt kek (fresh.nonces key.id) secret wrapAad
  { keyId := key.id
    wrappedSha256 := wrappedDigest suite.sha256 key
    newNonce := new.map fun _ => fresh.nonces key.id
    newWrapped := new }

def kitRequest (suite : Suite) (fresh : Fresh) (userId : Int) (kit : Nat) (newPassword : Text) (now : Int)
    (wraps : List RequestWrap) (id : Nat) : Request where
  id := id
  uuid := fresh.uuid
  userId := userId
  route := .kit
  state := .waiting
  startedById := some userId
  kitId := some kit
  createdAt := now
  claimedAt := some now
  windowStartsAt := some now
  completesAt := some (now + kitWait)
  finishedAt := none
  cancelledById := none
  cancelledAs := none
  cancelReason := none
  kitBurned := false
  endReason := none
  statusTokenHash := some (suite.sha256 (asciiBytes "QVAULT-RECOVERY-STATUS-v1|" ++ fresh.token))
  pending := ⟨some (suite.hashPassword fresh.passwordSalt newPassword), some fresh.kekSalt, some defaultParams, none, none, none⟩
  oldKeyId := none
  requestCode := none
  wraps := wraps

def startRequest (suite : Suite) (fresh : Fresh) (user : User) (kit : Kit) (newPassword : Text) (now : Int)
    (wraps : List RequestWrap) : Tx Unit := do
  let r ← insertRequest (kitRequest suite fresh user.id kit.id newPassword now wraps)
  append "recovery_requested" r.userId r.userId
    [("request_uuid", .str r.uuid), userIdPayload r.userId, ("route", .str (text "kit")), ("started_by", .int r.userId),
      ("kit_uuid", .str kit.uuid)]
  append "recovery_waiting" r.userId r.userId
    [("request_uuid", .str r.uuid), ("completes_at", .str (suite.isoZ (r.completesAt.getD 0)))]

-- What an attempt has to open: a stale kit is marked so, and is as good as none.
def kitToOpen (suite : Suite) (me : Nat) (email : Text) : Work (Option (User × Kit)) := do
  let db ← look
  let some user := db.users.find? fun u => u.email = suite.lower (strip email) | return none
  let some kit := db.activeKit user.id | return none
  if macOk suite kit then return some (user, kit)
  else
    transact me [] (markStale kit)
    return none

def startWithKit (suite : Suite) (fresh : Fresh) (me : Nat) (email typedCode newPassword : Text) : Work Unit := do
  let now ← clock
  let some code := suite.kitCode typedCode | raise .typo
  let some (user, kit) ← kitToOpen suite me email | raise .generic
  let attempt ← transact me [] (countAttempt user.id now)
  match openKemKey suite kit code with
  | .error .wrongCode =>
    transact me [] (afterFailure suite user.id now)
    raise .generic
  | .error _ => raise .generic
  | .ok kemSecret =>
    transact me [] (forgetAttempt attempt)
    let db ← look
    let underWay := db.openRequest user.id
    let some kit := db.kit? kit.id | raise .generic
    if underWay.any (·.route ≠ .phone) then raise .underWay
    else if (restartAllowedAt db kit.id now).isSome then raise .tooSoon
    else
      let opened ← orRaise (openWraps suite db.keys kit kemSecret)
      if !((db.activeSigningKey user.id).any fun k => opened.any (·.1 = k.id)) then raise .noActiveKey
      else
        let superseded ← (match underWay with
          | some r => markCancel me r.id r.state now
          | none => pure none)
        let kek := suite.deriveKek newPassword fresh.kekSalt defaultParams
        let wraps := ((← look).passwordKeys user.id).map (requestWrap suite fresh kek opened)
        transact me (markIds superseded.toList) do
          applyAll ⟨some user.id, "kit", "superseded", false⟩ superseded.toList
          startRequest suite fresh user kit newPassword now wraps

end QVault.Recovery
