import QVault.Python.Loads
import QVault.Verify.Execution

/-!
# The offline verifier

`verify_bundle` of `qvault/verify/core.py`, step by step. A check is its key and its verdict; the
sentences a report shows beside them are left out.
-/

namespace QVault.Verify
open Python Crypto Transparency Services

structure Tools where
  sha256 : Bytes → Bytes
  keccak256 : Bytes → Bytes
  registry : CryptoRegistry

abbrev Fields := List (Text × Json)

/-! ## 0. Format -/

def bundleFormat : Text := "qvault.decision/1"
def paymentBundleFormat : Text := "qvault.decision/2"

-- `_integral_numbers`
mutual
def integralNumbers : Json → Except Stop Json
  | .float x =>
    if x.isFinite && x.toRat.den == 1 then .ok (.int x.toRat.num) else .error .malformed
  | .list items => (integralItems items).map .list
  | .dict fields => (integralFields fields).map .dict
  | value => .ok value

def integralItems : List Json → Except Stop (List Json)
  | [] => .ok []
  | item :: rest => do
    let item ← integralNumbers item
    let rest ← integralItems rest
    return item :: rest

def integralFields : Fields → Except Stop Fields
  | [] => .ok []
  | (key, value) :: rest => do
    let value ← integralNumbers value
    let rest ← integralFields rest
    return (key, value) :: rest
end

structure Opened where
  decision : Fields
  action : Json
  signatures : List Json
  log : Json

def readFormat (fields : Fields) : Except Stop Text :=
  match Json.get fields "format" with
  | .str format =>
    if format = bundleFormat ∨ format = paymentBundleFormat then .ok format else .error .malformed
  | _ => .error .malformed

-- A payment travels in its own format, and only there.
def checkAction (format : Text) (decision : Fields) : Except Stop Json :=
  let action := Json.get decision "action"
  if format = paymentBundleFormat then (asDict action).map fun _ => action
  else if (Json.lookup "action" decision).isSome then .error .malformed
  else .ok action

def readBundle (fields : Fields) (format : Text) : Except Stop Opened := do
  let decision ← need (.dict fields) "decision"
  let _ ← asDict decision
  let decision ← integralNumbers decision
  let decision ← asDict decision
  let action ← checkAction format decision
  let signatures ← need (.dict fields) "signatures"
  let log ← need (.dict fields) "log"
  let signatures ← asList signatures
  return { decision, action, signatures, log }

/-! ## 1. The content is what was hashed -/

def readSigners (decision : Fields) : Except Stop (List Json) := do
  let claimed ← need (.dict decision) "authorized_signers"
  let signers ← asList claimed
  if signers.all fun s => s.int?.isSome then return signers else throw .malformed

def recomputeFields (decision : Fields) (action : Json) (signers : List Json) : Except Stop ProposalFields := do
  let vaultId ← need (.dict decision) "vault_id"
  let proposalUuid ← need (.dict decision) "proposal_uuid"
  let actionText ← need (.dict decision) "action_text"
  let requiredM ← need (.dict decision) "required_m"
  let requiredN ← need (.dict decision) "required_n"
  let nonceHex ← need (.dict decision) "nonce_hex"
  let createdAtIso ← need (.dict decision) "created_at_iso"
  return { vaultId, proposalUuid, actionText, fileSha256 := Json.get decision "file_sha256", requiredM,
           requiredN, authorizedSigners := signers, nonceHex, createdAtIso, action }

def recomputeHash (tools : Tools) (decision : Fields) (action : Json) (signers : List Json) :
    Except Stop Text := do
  let fields ← recomputeFields decision action signers
  let signed ← raising (proposalSigningBytes fields)
  return sha256Hex tools.sha256 signed

def isNone : Json → Bool
  | .null => true
  | _ => false

-- The text of a payment is the one its action describes.
def textOk (decision : Fields) (action : Json) : Bool :=
  isNone action ||
    match paymentText action with
    | some described => (Json.get decision "action_text").eq (.str described)
    | none => isNone (Json.get decision "action_text")

/-! ## 2. Every signature verifies -/

structure Verified where
  signerId : Json
  decision : Json
  email : Json
  signature : Bytes
  publicKey : Bytes

-- One pass of the loop; `none` is a problem with the signature.
def readSignature (tools : Tools) (payloadHash : Text) (entry : Json) : Except Stop (Option Verified) := do
  let signerId ← need entry "signer_id"
  let vote ← need entry "decision"
  let algId ← need entry "alg_id"
  let publicKey ← readB64 (← need entry "public_key_b64")
  let signature ← readB64 (← need entry "signature_b64")
  let known ← raising (tools.registry.hasSignature algId)
  if !known || !isDecision vote then return none
  else
    let message ← raising (voteSigningBytes payloadHash vote signerId)
    let email ← getAttr entry "signer_email"
    return if tools.registry.verify algId publicKey message signature then
      some { signerId, decision := vote, email, signature, publicKey }
    else none

/-! ## 3. Authorisation -/

-- `seen` of the loop over the verified signatures, and whether none of them repeats a signer
def noRepeats : List Json → List Verified → Bool
  | _, [] => true
  | seen, s :: rest => !contains seen s.signerId && noRepeats (s.signerId :: seen) rest

def authorisation (signers : List Json) (verified : List Verified) : Except Stop Bool := do
  let _ ← verified.mapM fun s => hash s.signerId
  return verified.all (fun s => contains signers s.signerId) && noRepeats [] verified

/-! ## 4. The threshold -/

def number (value : Json) : Except Stop Json.Number :=
  match value.number? with
  | some n => .ok n
  | none => .error (.raised .typeError)

def countVotes (signers : List Json) (verified : List Verified) (vote : Text) : Nat :=
  (verified.filter fun s => s.decision.eq (.str vote) && contains signers s.signerId).length

-- `json.loads(raw.get("payload_json") or "")`, where a failure moves on to the next entry
def readPayload (raw : Fields) : Option Json :=
  match Json.get raw "payload_json" with
  | .str t => (Json.loads t).toOption
  | _ => none

-- The two variables of the loop of `_requester_excluded`
def excludedPass (uuid : Json) (state : Bool × Json) (raw : Json) : Bool × Json :=
  match raw with
  | .dict raw =>
    if !(Json.get raw "ref_id").eq uuid then state
    else if (Json.get raw "event_type").eq "proposal_created" then (state.1, Json.get raw "actor_id")
    else if (Json.get raw "event_type").eq "proposal_rejected" then
      match readPayload raw with
      | none => state
      | some (.dict payload) =>
        (match Json.get payload "requester_excluded" with | .bool true => true | _ => false, state.2)
      | some _ => (false, state.2)
    else state
  | _ => state

def requesterExcluded (log uuid : Json) (signers : List Json) (verified : List Verified) : Except Stop Bool :=
  match log with
  | .dict log =>
    match Json.get log "entries" with
    | .list entries =>
      let (flagged, creator) := entries.foldl (excludedPass uuid) (false, .null)
      match flagged, creator with
      | false, _ | _, .null => .ok false
      | true, creator => do
        let _ ← hash creator
        return contains signers creator && verified.all fun s => !s.signerId.eq creator
    | _ => .ok false
  | _ => .ok false

def threshold (opened : Opened) (signers : List Json) (verified : List Verified) : Except Stop Bool := do
  let requiredM := Json.get opened.decision "required_m"
  let status := Json.get opened.decision "status"
  if status.eq "approved" then
    let m ← number requiredM
    let approvals := countVotes signers verified "approve"
    return !(Json.Number.int approvals).lt m
  else if status.eq "rejected" then
    let excluded ← requesterExcluded opened.log (Json.get opened.decision "proposal_uuid") signers verified
    match (Json.get opened.decision "required_n").int?, requiredM.int? with
    | some n, some m =>
      let voters := n - if excluded then 1 else 0
      return voters - m < countVotes signers verified "reject"
    | _, _ => throw (.raised .typeError)
  else
    let m ← number requiredM
    return (Json.Number.int (countVotes signers verified "approve")).lt m

/-! ## 5. The log's entries -/

def readEntryFields (raw : Fields) (seq payloadHash : Json) : Except Stop EntryFields := do
  let timestamp ← need (.dict raw) "timestamp"
  let actor ← need (.dict raw) "actor"
  let eventType ← need (.dict raw) "event_type"
  let prevHash ← need (.dict raw) "prev_hash"
  return { seq, timestamp, actor, actorId := Json.get raw "actor_id", eventType,
           vaultId := Json.get raw "vault_id", refType := Json.get raw "ref_type",
           refId := Json.get raw "ref_id", payloadHash, prevHash }

-- `payload_json.encode("utf-8")`
def payloadBytes : Json → Except Stop Bytes
  | .str t => raising (encodeUtf8 t)
  | _ => .error (.raised .attributeError)

-- One pass of the loop; `none` is an entry that does not recompute.
def readEntry (tools : Tools) (raw : Json) : Except Stop (Option (Json × Fields)) := do
  let seq ← need raw "seq"
  let payloadJson ← need raw "payload_json"
  let payloadHash ← need raw "payload_hash"
  let fields ← asDict raw
  let payload ← payloadBytes payloadJson
  if !(Json.str (sha256Hex tools.sha256 payload)).eq payloadHash then return none
  else
    let entry ← readEntryFields fields seq payloadHash
    let recomputed ← raising (Transparency.entryHash tools.sha256 entry)
    if !(Json.str recomputed).eq (Json.get fields "entry_hash") then return none
    else
      let _ ← hash seq
      return some (seq, fields)

def bySeq (read : List (Json × Fields)) : List (Json × Fields) :=
  read.foldl (fun entries e => setKey e.1 e.2 entries) []

/-! ## 6. Binding and identity -/

structure Logged where
  raw : Fields
  payload : Json

def loadPayload (entry : Json × Fields) : Except Stop Logged :=
  match Json.get entry.2 "payload_json" with
  | .str t => (raising (Json.loads t)).map (⟨entry.2, ·⟩)
  | _ => .error (.raised .typeError)

def Logged.is (logged : Logged) (eventType : Text) : Bool := (Json.get logged.raw "event_type").eq (.str eventType)

def Logged.refersTo (logged : Logged) (uuid : Json) : Bool := (Json.get logged.raw "ref_id").eq uuid

structure SigningEvent where
  signerId : Json
  decision : Json
  signatureSha256 : Json

def SigningEvent.same (a b : SigningEvent) : Bool :=
  a.signerId.same b.signerId && a.decision.same b.decision && a.signatureSha256.same b.signatureSha256

def readSigningEvent (logged : Logged) : Except Stop SigningEvent := do
  let signerId ← getAttr logged.payload "signer_id"
  let decision ← getAttr logged.payload "decision"
  let signatureSha256 ← getAttr logged.payload "signature_sha256"
  let _ ← hash signerId
  let _ ← hash decision
  let _ ← hash signatureSha256
  return { signerId, decision, signatureSha256 }

def addEvent (events : List SigningEvent) (event : SigningEvent) : List SigningEvent :=
  if events.any event.same then events else events ++ [event]

-- the tuple a verified signature must be recorded as
def Verified.event (tools : Tools) (s : Verified) : SigningEvent :=
  ⟨s.signerId, s.decision, .str (sha256Hex tools.sha256 s.signature)⟩

def createdOk (payloads : List Logged) (payloadHash : Text) : Except Stop Bool :=
  match payloads.find? fun l => l.is "proposal_created" with
  | none => .ok false
  | some created => do
    let recorded ← getAttr created.payload "payload_hash"
    return recorded.eq (.str payloadHash)

def signedEvents (payloads : List Logged) (uuid : Json) : Except Stop (List SigningEvent) := do
  let events ← (payloads.filter fun l => l.is "proposal_signed" && l.refersTo uuid).mapM readSigningEvent
  return events.foldl addEvent []

def binding (tools : Tools) (payloads : List Logged) (payloadHash : Text) (uuid : Json)
    (verified : List Verified) : Except Stop Bool := do
  let created ← createdOk payloads payloadHash
  let events ← signedEvents payloads uuid
  return created && verified.all (fun s => events.any (s.event tools).same) && events.length ≤ verified.length

def readRegistration (logged : Logged) : Except Stop (Json × Json) := do
  let userId ← getAttr logged.payload "user_id"
  let email ← getAttr logged.payload "email"
  let _ ← hash userId
  return (userId, email)

def registrations (payloads : List Logged) : Except Stop (List (Json × Json)) := do
  let pairs ← (payloads.filter fun l => l.is "user_registered").mapM readRegistration
  return pairs.foldl (fun known p => setKey p.1 p.2 known) []

def identityOk (known : List (Json × Json)) (s : Verified) : Bool :=
  let recorded := (getKey s.signerId known).getD .null
  !isNone recorded && (isNone s.email || s.email.eq recorded)

/-! ## 6c. Payment authorisations -/

def treasuryAlg : Text := "ML-DSA-65"

-- `[A-Za-z0-9+/]*={0,2}`
def isBase64 (t : Text) : Bool :=
  let pads := (t.reverse.takeWhile (· == base64Pad)).length
  pads ≤ 2 && (t.take (t.length - pads)).all fun c => (base64Value c).isSome

-- `_strict_b64`
def strictB64 : Json → Option Bytes
  | .str value =>
    if value.length % 4 ≠ 0 ∨ !isBase64 value then none else (b64decode true value).toOption
  | _ => none

-- `0x[0-9a-fA-F]{248}`
def isIdentity : Json → Bool
  | .str value => value.take 2 == text "0x" && (value.drop 2).length == 248 && (value.drop 2).all isHexDigit
  | _ => false

def executedEntries (payloads : List Logged) (uuid : Json) : Except Stop (List Json) := do
  let named ← (payloads.filter fun l => l.is "proposal_executed" && l.refersTo uuid).mapM fun l => do
    let proposal ← getAttr l.payload "proposal_uuid"
    return (l.payload, proposal.eq uuid)
  return (named.filter (·.2)).map (·.1)

-- The execution signature an entry records beside an approving vote
def readRecorded (logged : Logged) : Except Stop (Option (Json × Json)) := do
  let decision ← getAttr logged.payload "decision"
  let recorded ← getAttr logged.payload "execution_signature_sha256"
  let signerId ← getAttr logged.payload "signer_id"
  match decision.eq "approve", recorded with
  | true, .str t => return some (signerId, .str t)
  | _, _ => return none

def recordedExecutions (payloads : List Logged) (uuid : Json) : Except Stop (List (Json × Json)) := do
  let pairs ← (payloads.filter fun l => l.is "proposal_signed" && l.refersTo uuid).mapM readRecorded
  return (pairs.filterMap id).foldl (fun known p => setKey p.1 p.2 known) []

structure Authorised where
  carried : List Json
  good : List Json
  problem : Bool

-- The named signer of an authorisation: an int, and not a bool
def authorisationSigner : Json → Option Json
  | .dict fields =>
    match Json.get fields "signer_id" with
    | .int n => some (.int n)
    | _ => none
  | _ => none

def authorisationOk (tools : Tools) (verify : Bytes → Bytes → Bytes → Bool) (digest : Bytes)
    (recorded : List (Json × Json)) (voteKeys : List (Json × Bytes)) (good : List Json) (signerId : Json)
    (entry : Fields) : Bool :=
  (Json.get entry "alg_id").eq (.str treasuryAlg) &&
  match strictB64 (Json.get entry "public_key_b64"), strictB64 (Json.get entry "signature_b64") with
  | some publicKey, some signature =>
    isIdentity (Json.get entry "identity_hex") && verify publicKey digest signature &&
      ((getKey signerId recorded).getD .null).eq (.str (sha256Hex tools.sha256 signature)) &&
      getKey signerId voteKeys == some publicKey && !contains good signerId
  | _, _ => false

def authorisationPass (tools : Tools) (verify : Bytes → Bytes → Bytes → Bool) (digest : Bytes)
    (recorded : List (Json × Json)) (voteKeys : List (Json × Bytes)) (state : Authorised) (entry : Json) :
    Authorised :=
  match authorisationSigner entry, entry with
  | some signerId, .dict fields =>
    let state := { state with carried := signerId :: state.carried }
    if authorisationOk tools verify digest recorded voteKeys state.good signerId fields then
      { state with good := signerId :: state.good }
    else { state with problem := true }
  | _, _ => { state with problem := true }

def voteKeys (verified : List Verified) : List (Json × Bytes) :=
  (verified.filter fun s => s.decision.eq "approve").foldl (fun keys s => setKey s.signerId s.publicKey keys) []

-- `required_m` is an int here: the threshold was compared with it.
def authorisationsOk (state : Authorised) (recorded : List (Json × Json)) (executed : List Json)
    (requiredM : Json) : Bool :=
  !state.problem && recorded.all (fun r => contains state.carried r.1) && executed.length ≤ 1 &&
    (executed.isEmpty || (requiredM.int?.getD 0) ≤ state.good.length)

-- `registry.signature(TREASURY_ALG)` is only asked for once an entry has come that far.
def reachesProvider (entry : Json) : Bool :=
  match authorisationSigner entry, entry with
  | some _, .dict fields =>
    (Json.get fields "alg_id").eq (.str treasuryAlg) && (strictB64 (Json.get fields "public_key_b64")).isSome &&
      (strictB64 (Json.get fields "signature_b64")).isSome && isIdentity (Json.get fields "identity_hex")
  | _, _ => false

def checkAuthorisations (tools : Tools) (opened : Opened) (payloadHash : Text) (verified : List Verified)
    (recorded : List (Json × Json)) (executed entries : List Json) : Checked Unit :=
  match executionDigest tools.keccak256 opened.action payloadHash with
  | .error _ => add .execution false
  | .ok digest =>
    match tools.registry.signature treasuryAlg with
    | none =>
      if entries.any reachesProvider then step (.error (.raised .keyError))
      else add .execution (authorisationsOk ⟨entries.filterMap authorisationSigner, [], !entries.isEmpty⟩ recorded
        executed (Json.get opened.decision "required_m"))
    | some verify =>
      let state := entries.foldl (authorisationPass tools verify digest recorded (voteKeys verified)) ⟨[], [], false⟩
      add .execution (authorisationsOk state recorded executed (Json.get opened.decision "required_m"))

-- `_check_execution`
def checkExecution (tools : Tools) (bundle : Fields) (opened : Opened) (payloadHash : Text)
    (payloads : List Logged) (verified : List Verified) : Checked Unit := do
  let uuid := Json.get opened.decision "proposal_uuid"
  let executed ← step (executedEntries payloads uuid)
  let recorded ← step (recordedExecutions payloads uuid)
  match Json.get bundle "execution" with
  | .null => if !recorded.isEmpty || !executed.isEmpty then add .execution false else skip .execution
  | .dict «section» =>
    let entries ← step (asList (Json.get «section» "signatures"))
    checkAuthorisations tools opened payloadHash verified recorded executed entries
  | _ => step (.error .malformed)

/-! ## 7. Inclusion -/

def readProof (raw : Fields) : Option (List Bytes) :=
  match Json.get raw "inclusion_proof" with
  | .list hashes => (hashes.mapM fromHexJson).toOption
  | _ => none
where
  fromHexJson : Json → Except PyError Bytes
    | .str t => fromHex t
    | _ => .error .typeError

def includedEntry (tools : Tools) (treeSize : Json) (root : Bytes) (entry : Json × Fields) : Except Stop Bool :=
  match readProof entry.2, Json.get entry.2 "entry_hash" with
  | none, _ => .ok false
  | some proof, .str hash => do
    let leaf ← raising (entryLeafHash tools.sha256 hash)
    raising (verifyInclusionOf tools.sha256 leaf entry.1 treeSize proof root)
  | some _, _ => .error (.raised .typeError)

-- `sorted(by_seq.items())` compares a number with a number or a text with a text. The order does
-- not matter to what follows.
def sortable (entries : List (Json × Fields)) : Bool :=
  entries.length ≤ 1 || entries.all (fun e => e.1.number?.isSome) ||
    entries.all fun e => match e.1 with | .str _ => true | _ => false

def includedEntries (tools : Tools) (treeSize : Json) (root : Bytes) (entries : List (Json × Fields)) :
    Except Stop (List (Json × Bool)) :=
  if sortable entries then
    entries.mapM fun e => (includedEntry tools treeSize root e).map (e.1, ·)
  else .error (.raised .typeError)

-- `lineage_lines` writes no check. Its lookups can raise: of the attribute of a payload that is no
-- object, and of a route that cannot be a key.
def lineageReads (tools : Tools) (payloads : List Logged) (verified : List Verified) : Except Stop Unit := do
  let _ ← verified.mapM fun s => (payloads.filter fun l => l.is "recovery_completed").mapM fun l => do
    let userId ← getAttr l.payload "user_id"
    let newKey ← getAttr l.payload "new_public_key_sha256"
    let route ← getAttr l.payload "route"
    if userId.eq s.signerId && newKey.eq (.str (sha256Hex tools.sha256 s.publicKey)) then hash route
    else return ()
  return ()

/-! ## 8. The checkpoint -/

-- `head_seq or 0`
def headSeqOrZero (checkpoint : Fields) : Json :=
  let headSeq := Json.get checkpoint "head_seq"
  if headSeq.truthy then headSeq else .int 0

-- `value + 1`
def plusOne (value : Json) : Except Stop Json.Number :=
  match value.number? with
  | some (.int n) => .ok (.int (n + 1))
  | some (.float x) => .ok (.float (x.add (Binary64.round false 1)))
  | none => .error (.raised .typeError)

def equalsNumber (value : Json) (n : Json.Number) : Bool := (value.number?.map (·.eq n)).getD false

structure KeyedSignature where
  algId : Json
  publicKey : Bytes
  signature : Bytes

def readKeyed (value : Json) : Except Stop KeyedSignature := do
  let algId ← need value "alg_id"
  let publicKey ← readB64 (← need value "public_key_b64")
  let signature ← readB64 (← need value "signature_b64")
  return { algId, publicKey, signature }

def verifyKeyed (tools : Tools) (signed : KeyedSignature) (message : Except PyError Bytes) : Except Stop Bool := do
  let known ← raising (tools.registry.hasSignature signed.algId)
  if !known then return false
  else
    let message ← raising message
    return tools.registry.verify signed.algId signed.publicKey message signed.signature

-- What the step finds: the SHA-256 of the log's key, if it got as far as reading it.
def checkCheckpoint (tools : Tools) (log checkpoint : Fields) : Checked (Option Text) := do
  let next ← step (plusOne (headSeqOrZero checkpoint))
  if !equalsNumber (Json.get checkpoint "tree_size") next then
    add .checkpoint false
    return none
  else
    let signed ← step (readKeyed (← step (need (.dict log) "checkpoint_signature")))
    let valid ← step (verifyKeyed tools signed (checkpointBytes (.dict checkpoint)))
    add .checkpoint valid
    return some (sha256Hex tools.sha256 signed.publicKey)

/-! ## 9. The witnesses -/

-- `log.get("witnesses") or []`
def readWitnesses (log : Fields) : Except Stop (List Json) :=
  let witnesses := Json.get log "witnesses"
  if witnesses.truthy then asList witnesses else .ok []

-- One pass of the loop: the SHA-256 of the key of a co-signature that verifies
def readWitness (tools : Tools) (checkpoint : Fields) (w : Json) : Except Stop (Option Text) := do
  let name ← need w "witness"
  let signed ← readKeyed w
  let valid ← verifyKeyed tools signed (witnessBytes name (.dict checkpoint))
  return if valid then some (sha256Hex tools.sha256 signed.publicKey) else none

def checkWitnesses (tools : Tools) (log checkpoint : Fields) : Checked (List Text) := do
  let witnesses ← step (readWitnesses log)
  let good ← step (witnesses.mapM (readWitness tools checkpoint))
  if witnesses.isEmpty then skip .witness
  else add .witness (good.all (·.isSome))
  return good.filterMap id

/-! ## The whole -/

def checkPin (key : CheckKey) (expected : Option Json) (hashes : List Text) : Checked Unit :=
  match expected with
  | some pin => add key (pinCheck pin hashes)
  | none => pure ()

-- Steps 1 to 4: the recomputed hash, the signers, and the signatures that verify
structure Voted where
  payloadHash : Text
  signers : List Json
  verified : List Verified

def checkVotes (tools : Tools) (opened : Opened) : Checked Voted := do
  let signers ← step (readSigners opened.decision)
  let payloadHash ← step (recomputeHash tools opened.decision opened.action signers)
  let claimed ← step (need (.dict opened.decision) "payload_hash")
  add .content ((Json.str payloadHash).eq claimed && textOk opened.decision opened.action)
  let read ← step (opened.signatures.mapM (readSignature tools payloadHash))
  let verified := read.filterMap id
  add .signatures (read.all (·.isSome) && !read.isEmpty)
  add .authorisation (← step (authorisation signers verified))
  add .threshold (← step (threshold opened signers verified))
  return { payloadHash, signers, verified }

-- Step 5: the entries that recompute, by `seq`
def checkEntries (tools : Tools) (log : Json) : Checked (List (Json × Fields)) := do
  let entries ← step (asList (← step (need log "entries")))
  if entries.isEmpty then step (.error .malformed)
  else
    let read ← step (entries.mapM (readEntry tools))
    add .logEntries (read.all (·.isSome))
    return bySeq (read.filterMap id)

def checkBinding (tools : Tools) (opened : Opened) (voted : Voted) (entries : List (Json × Fields)) :
    Checked (List Logged) := do
  let payloads ← step (entries.mapM loadPayload)
  add .binding (← step (binding tools payloads voted.payloadHash (Json.get opened.decision "proposal_uuid")
    voted.verified))
  let known ← step (registrations payloads)
  add .identity (voted.verified.all (identityOk known))
  return payloads

-- Step 6c, of a payment decision only
def checkPayment (tools : Tools) (bundle : Fields) (opened : Opened) (voted : Voted) (payloads : List Logged) :
    Checked Unit :=
  if isNone opened.action then pure ()
  else checkExecution tools bundle opened voted.payloadHash payloads voted.verified

-- Step 7; it answers with the checkpoint.
def checkInclusion (tools : Tools) (log : Json) (voted : Voted) (entries : List (Json × Fields))
    (payloads : List Logged) : Checked Fields := do
  let checkpoint ← step (need log "checkpoint")
  let treeSize ← step (need checkpoint "tree_size")
  let root ← step (readHex32 (← step (need checkpoint "root_hash")))
  let included ← step (includedEntries tools treeSize root entries)
  step (lineageReads tools payloads voted.verified)
  add .inclusion (included.all (·.2))
  step (asDict checkpoint)

def verifyInto (tools : Tools) (bundle : Json) (expectLog expectWitness : Option Json) : Checked Unit := do
  let fields ← step (asDict bundle)
  let format ← step (readFormat fields)
  add .format true
  let opened ← step (readBundle fields format)
  let voted ← checkVotes tools opened
  let entries ← checkEntries tools opened.log
  let payloads ← checkBinding tools opened voted entries
  checkPayment tools fields opened voted payloads
  let checkpoint ← checkInclusion tools opened.log voted entries payloads
  let log ← step (asDict opened.log)
  let logSha ← checkCheckpoint tools log checkpoint
  let witnessShas ← checkWitnesses tools log checkpoint
  checkPin .pinnedLog expectLog logSha.toList
  checkPin .pinnedWitness expectWitness witnessShas

def verifyBundle (tools : Tools) (bundle : Json) (expectLog expectWitness : Option Json) : Report :=
  report (verifyInto tools bundle expectLog expectWitness)

end QVault.Verify
