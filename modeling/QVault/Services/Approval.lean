import QVault.Python.Loads
import QVault.Services.Eligibility

/-!
# Voting and the M-of-N state machine

`qvault/services/approval_service.py`. A request holds a decision as the object it loaded; the
database holds its row, and the two are kept apart wherever another request can commit in between.
-/

namespace QVault.Services
open Python Crypto

structure VoteConfig where
  sha256 : Bytes → Bytes
  registry : CryptoRegistry
  signatureSize : Text → Nat

-- One call's view of the time: the instant it compares, how it writes that instant, and the
-- timestamp of the n-th ledger entry it appends.
structure Clock where
  instant : Int
  iso : Text
  stamp : Nat → Text

structure Board where
  directory : Directory
  keys : List Key
  ledger : Ledger
  proposals : List Proposal

inductive Refusal
  | invalidDecision
  | closed (status : Status)
  | notSigner
  | noLongerApprover
  | standing (standing : Standing)
  | ownDecision
  | alreadyVoted
  | cannotPass
  | reasonNotText
  | reasonRequired
  | reasonTooLong
  | noPasswordKey
  | noDeviceKey
  | keyOfAnother
  | notSigningKey
  | notDeviceKey
  | revokedDevice
  | noProvider (algId : Text)
  | executionMissing
  | executionUnwanted
  | execution (problem : Text)
  | signatureSize (algId : Text) (expected got : Nat)
  | notVerified (fromDevice : Bool)
  | notYours
  | leftVault
  | withdrawStanding (standing : Standing)
  | cannotWithdraw (status : Status)
  deriving DecidableEq

def Refusal.message : Refusal → Text
  | invalidDecision => "Decision must be 'approve' or 'reject'."
  | closed status =>
    text "This proposal is " ++ status.text ++ text "; no further votes can be cast."
  | notSigner => "You are not an authorised signer for this proposal."
  | noLongerApprover =>
    text "You are not an authorised signer for this proposal any more: you are no longer an " ++
      text "approver of this vault."
  | standing reason =>
    text "You are not an authorised signer for this proposal any more: " ++ reason.text ++ text "."
  | ownDecision =>
    text "You raised this decision, and in this vault the person who raises a decision can't " ++
      text "approve or reject it."
  | alreadyVoted => "You have already voted on this proposal."
  | cannotPass =>
    text "This decision can no longer pass: too few of the people who can approve it are left, so " ++
      text "it takes no more approvals. You can still reject it."
  | reasonNotText => "Keep the reason to plain text; nothing was recorded."
  | reasonRequired =>
    "Add a reason for rejecting, so the person who raised it knows what to change."
  | reasonTooLong => "Keep the reason to 255 characters; nothing was recorded."
  | noPasswordKey => "You have no active signing key to vote with."
  | noDeviceKey => "You have no enrolled device key to vote with."
  | keyOfAnother => "That signing key does not belong to you."
  | notSigningKey => "That key is not a signing key."
  | notDeviceKey => "That key is not device-custodied."
  | revokedDevice => "That device has been revoked and can no longer sign."
  | noProvider algId => text "No provider is registered for " ++ algId ++ text "."
  | executionMissing =>
    text "This app cannot approve payments yet: an approval must carry the signature the treasury " ++
      text "checks on chain. Update the app."
  | executionUnwanted =>
    "Only an approval of a payment carries an execution signature; nothing was recorded."
  | execution problem => problem
  | signatureSize algId expected got =>
    text "A " ++ algId ++ text " signature must be " ++ natText expected ++ text " bytes, got " ++
      natText got ++ text "."
  | notVerified true =>
    "The signature did not verify under your registered device key; vote not recorded."
  | notVerified false => "Freshly produced signature failed verification; vote not recorded."
  | notYours => "Only the person who raised this decision can withdraw it."
  | leftVault =>
    "You are no longer a member of this vault, so you can't withdraw this decision."
  | withdrawStanding reason => text "You can't withdraw this decision: " ++ reason.text ++ text "."
  | cannotWithdraw status =>
    text "This decision is " ++ status.text ++ text ", so it can't be withdrawn."

inductive VoteError
  | refused (refusal : Refusal)
  | raised (error : PyError)

/-! ## The database -/

namespace Board
variable (board : Board)

def update (id : Nat) (change : Proposal → Proposal) : Board :=
  { board with proposals := board.proposals.modify id change }

-- `Signature.query.filter_by(proposal_id=...)`
def signatureRows (id : Nat) : List Signature := (board.proposals[id]?).elim [] (·.signatures)

end Board

def actorText : Option Int → Text
  | none => "SYSTEM"
  | some id => text "user:" ++ intText id

def proposalEvent (proposal : Proposal) (eventType : Text) (details : List (Text × Json))
    (actorId : Option Int) : LedgerEvent where
  eventType
  payload := .dict ((text "proposal_uuid", .str proposal.proposalUuid) :: (text "vault_id", .int proposal.vaultId) ::
    details)
  actor := actorText actorId
  actorId
  vaultId := some proposal.vaultId
  refType := some (text "proposal")
  refId := some proposal.proposalUuid

/-! ## What counts -/

-- `_creation_ledger_hash`, null where Python has None
def creationLedgerHash (ledger : Ledger) (proposalUuid : Text) : Json :=
  match ledger.entries.find? fun e => e.eventType = text "proposal_created" &&
      e.refType = some (text "proposal") && e.refId = some proposalUuid with
  | none => .null
  | some entry =>
    match Json.loads entry.payloadJson with
    | .ok (.dict payload) => Json.get payload "payload_hash"
    | _ => .null

-- `_payment_problem(proposal) is None`
def paymentIntact (proposal : Proposal) : Bool :=
  match proposal.action with
  | none => true
  | some action =>
    some proposal.actionText == paymentText action.canonical &&
      action.treasury == some (action.treasuryAddress, action.chainId)

section Tally
variable (config : VoteConfig)

-- `verify_proposal_binding(proposal).ok`. The bytes were made once when the decision was raised,
-- so making them again cannot raise.
def bindingOk (board : Board) (proposal : Proposal) : Bool :=
  match signingBytesFor proposal with
  | .error _ => false
  | .ok signed =>
    sha256Hex config.sha256 signed == proposal.payloadHash && paymentIntact proposal &&
      (creationLedgerHash board.ledger proposal.proposalUuid).eq (.str proposal.payloadHash)

-- `verify_signature`. A vote under an algorithm without a provider is never stored.
def verifySignature (board : Board) (proposal : Proposal) (s : Signature) : Bool :=
  match board.keys[s.keyId]? with
  | none => false
  | some key =>
    key.ownerId == some s.signerId && s.publicKey == key.publicKey && s.algId == key.algId &&
      s.signedPayloadHash == proposal.payloadHash &&
      match voteSigningBytes s.signedPayloadHash (.str s.decision.text) (.int s.signerId) with
      | .error _ => false
      | .ok message => config.registry.verify (.str s.algId) s.publicKey message s.signature

def verifiedVotes (board : Board) (proposal : Proposal) (vote : Vote) : List Signature :=
  (board.signatureRows proposal.id).filter fun s => s.decision = vote && verifySignature config board proposal s

def tally (board : Board) (proposal : Proposal) : Nat × Nat :=
  if bindingOk config board proposal then
    ((verifiedVotes config board proposal .approve).length,
      (verifiedVotes config board proposal .reject).length)
  else (0, 0)

/-! ## Closing a decision -/

def Status.event : Status → Text
  | .open => "proposal_created"
  | .approved => "proposal_approved"
  | .rejected => "proposal_rejected"
  | .expired => "proposal_expired"
  | .withdrawn => "proposal_withdrawn"

def closeAs (board : Board) (proposal : Proposal) (status : Status) (details : List (Text × Json))
    (actorId : Option Int) (timestamp : Text) : Except PyError Board := do
  let ledger ← append config.sha256 board.ledger timestamp
    (proposalEvent proposal status.event details actorId)
  return { board.update proposal.id fun row => { row with status } with ledger }

inductive Verdict
  | approved (approvals : Nat)
  | rejected (rejections : Nat) (excluded : Bool)

-- What `_finalize_if_decided` makes of the votes. The tally reads the rows; who is counted as a
-- voter is read off the object's own list of votes.
def verdict (board : Board) (proposal : Proposal) : Option Verdict :=
  if proposal.status ≠ .open then none
  else
    let votes := tally config board proposal
    if proposal.requiredM ≤ votes.1 then some (.approved votes.1)
    else if proposal.rejectionCloses board.directory votes.2 then
      some (.rejected votes.2 (proposal.requesterExcluded board.directory))
    else none

def ruleDetails (proposal : Proposal) : List (Text × Json) :=
  [("M", .int proposal.requiredM), ("N", .int proposal.requiredN)]

def finalizeIfDecided (board : Board) (proposal : Proposal) (actorId : Option Int) (timestamp : Text) :
    Except PyError Board :=
  match verdict config board proposal with
  | none => .ok board
  | some (.approved approvals) =>
    closeAs config board proposal .approved ((text "approvals", .int approvals) :: ruleDetails proposal)
      actorId timestamp
  | some (.rejected rejections excluded) =>
    closeAs config board proposal .rejected
      ((text "rejections", .int rejections) :: (ruleDetails proposal ++
        if excluded then [(text "requester_excluded", .bool true)] else []))
      actorId timestamp

def pastDeadline (proposal : Proposal) (clock : Clock) : Bool :=
  proposal.status = .open && proposal.expiresAt.any fun deadline => deadline < clock.instant

def refreshExpiry (board : Board) (proposal : Proposal) (clock : Clock) : Except PyError Board :=
  if pastDeadline proposal clock then
    match verdict config board proposal with
    | some _ => finalizeIfDecided config board proposal none (clock.stamp 0)
    | none => closeAs config board proposal .expired [("expired_at", .str clock.iso)] none (clock.stamp 0)
  else .ok board

-- The decisions the sweep looks at closely; the others have too few votes to be decided.
def worthDeciding (directory : Directory) (proposal : Proposal) : Bool :=
  min proposal.requiredM (proposal.decidingN directory - proposal.requiredM + 1) ≤
    proposal.signatures.length

-- One decision of the sweep, in a savepoint of its own
def finalizeOne (timestamp : Text) (board : Board) (id : Nat) : Board :=
  match board.proposals[id]? with
  | none => board
  | some proposal =>
    if worthDeciding board.directory proposal then
      match finalizeIfDecided config board proposal none timestamp with
      | .ok decided => decided
      | .error _ => board
    else board

def finalizeStalled (board : Board) (clock : Clock) : Board :=
  let stalled := board.proposals.filter fun p => p.status = .open
  stalled.foldl (fun board p => finalizeOne config (clock.stamp p.id) board p.id) board

end Tally

/-! ## The gate -/

def voteOfText (decision : Text) : Option Vote :=
  if decision = text "approve" then some .approve
  else if decision = text "reject" then some .reject
  else none

-- `(reason or "").strip()`
def noteOf : Json → Text
  | .str reason => strip reason
  | _ => []

def reasonRefusal (vote : Vote) (reason : Json) : Option Refusal :=
  match reason with
  | .null | .str _ =>
    if vote = .reject ∧ noteOf reason = [] then some .reasonRequired
    else if 255 < (noteOf reason).length then some .reasonTooLong
    else none
  | _ => some .reasonNotText

-- Steps 3 to 9 of `_authorize_vote`
def gateRefusal (directory : Directory) (proposal : Proposal) (signerId : Int) (vote : Vote) (reason : Json) :
    Option Refusal :=
  if proposal.status ≠ .open then some (.closed proposal.status)
  else if !proposal.authorizedSigners.contains signerId then some .notSigner
  else if !directory.isCurrentApprover proposal.vaultId signerId then some .noLongerApprover
  else match directory.signingStanding proposal.vaultId signerId with
    | some standing => some (.standing standing)
    | none =>
      if signerId = proposal.creatorId ∧ !proposal.requesterMayApprove directory then some .ownDecision
      else if proposal.hasVoted signerId then some .alreadyVoted
      else if vote = .approve ∧ proposal.cannotPass directory then some .cannotPass
      else reasonRefusal vote reason

-- A vote as it reaches `cast_vote` or `record_device_vote`. A device names its key and says
-- whether an execution signature came along.
inductive Custody
  | password
  | device (keyId : Nat) (execution : Bool)

structure Ballot where
  proposalId : Nat
  signerId : Int
  decision : Text
  reason : Json
  custody : Custody

-- What the gate leaves in the request's memory: the object with the list of votes it loaded, the
-- key, and the digest a payment's approval also signs.
structure Cast where
  proposal : Proposal
  signerId : Int
  vote : Vote
  reason : Option Text
  keyId : Nat
  key : Key
  digest : Option Bytes

-- `active_signing_key`: the newest first
def activeSigningKey (keys : List Key) (signerId : Int) : Option (Nat × Key) :=
  (keys.zipIdx.reverse.find? fun k => k.1.ownerId = some signerId && k.1.signing &&
    k.1.status = .active && k.1.wrapDomain = .password).map fun k => (k.2, k.1)

-- `_require_device_signing_key`
def deviceKeyRefusal (config : VoteConfig) (signerId : Int) (key : Key) : Option Refusal :=
  if key.ownerId ≠ some signerId then some .keyOfAnother
  else if !key.signing then some .notSigningKey
  else if key.wrapDomain ≠ .device then some .notDeviceKey
  else if key.status ≠ .active ∨ !key.canSign then some .revokedDevice
  else if (config.registry.signature key.algId).isNone then some (.noProvider key.algId)
  else none

def votingKey (config : VoteConfig) (keys : List Key) (signerId : Int) :
    Custody → Except Refusal (Nat × Key)
  | .password => (activeSigningKey keys signerId).elim (.error .noPasswordKey) .ok
  | .device keyId _ =>
    match keys[keyId]? with
    | none => .error .noDeviceKey
    | some key =>
      match deviceKeyRefusal config signerId key with
      | some refusal => .error refusal
      | none => .ok (keyId, key)

-- `digest` is what `_payment_digest` answers, which asks the treasury.
def executionDigest (proposal : Proposal) (vote : Vote) (custody : Custody) (digest : Except Text Bytes) :
    Except Refusal (Option Bytes) :=
  if vote = .approve ∧ proposal.action.isSome then
    match custody, digest with
    | .device _ false, _ => .error .executionMissing
    | _, .error problem => .error (.execution problem)
    | _, .ok digest => .ok (some digest)
  else match custody with
    | .device _ true => .error .executionUnwanted
    | _ => .ok none

def castAfterGate (config : VoteConfig) (board : Board) (proposal : Proposal) (ballot : Ballot) (vote : Vote)
    (digest : Except Text Bytes) : Except Refusal Cast := do
  let (keyId, key) ← votingKey config board.keys ballot.signerId ballot.custody
  let digest ← executionDigest proposal vote ballot.custody digest
  let note := noteOf ballot.reason
  return { proposal, signerId := ballot.signerId, vote, reason := if note = [] then none else some note,
           keyId, key, digest }

-- The gate and what follows it up to the signing. Its expiry of a stale decision is committed even
-- when the vote is then refused.
def openCast (config : VoteConfig) (board : Board) (ballot : Ballot) (digest : Except Text Bytes)
    (clock : Clock) : Except PyError (Board × Except Refusal Cast) :=
  match voteOfText ballot.decision, board.proposals[ballot.proposalId]? with
  | some vote, some loaded => do
    let board ← refreshExpiry config board loaded clock
    match board.proposals[ballot.proposalId]? with
    | none => return (board, .error .invalidDecision)
    | some proposal =>
      match gateRefusal board.directory proposal ballot.signerId vote ballot.reason with
      | some refusal => return (board, .error refusal)
      | none => return (board, castAfterGate config board proposal ballot vote digest)
  | _, _ => .ok (board, .error .invalidDecision)

/-! ## Writing the vote -/

-- `_still_entitled`: unlike the gate it asks nothing of a vault that is in no workspace.
def stillEntitled (directory : Directory) (proposal : Proposal) (signerId : Int) : Option Refusal :=
  if !directory.isCurrentApprover proposal.vaultId signerId then some .noLongerApprover
  else
    let standing := (directory.vault proposal.vaultId).homeWorkspaceId.bind fun workspaceId =>
      membershipStanding (directory.membership workspaceId signerId)
    match standing with
    | some standing => some (.standing standing)
    | none =>
      if signerId = proposal.creatorId ∧
          !(proposal.frozenRule && directory.vaultAllowsRequester proposal.vaultId) then
        some .ownDecision
      else none

-- `_hold_open`, `_still_entitled`, what `execution_service.record` answers, and the constraint that
-- a signer has one vote on a decision
def writeRefusal (directory : Directory) (row : Proposal) (cast : Cast) (recordProblem : Option Text) :
    Option Refusal :=
  if row.status ≠ .open then some (.closed row.status)
  else match stillEntitled directory cast.proposal cast.signerId with
    | some refusal => some refusal
    | none =>
      match cast.digest, recordProblem with
      | some _, some problem => some (.execution problem)
      | _, _ => if row.hasVoted cast.signerId then some .alreadyVoted else none

def Cast.signature (cast : Cast) (signature : Bytes) : Signature where
  signerId := cast.signerId
  keyId := cast.keyId
  algId := cast.key.algId
  publicKey := cast.key.publicKey
  decision := cast.vote
  signature
  signedPayloadHash := cast.proposal.payloadHash
  reason := cast.reason

def signedDetails (config : VoteConfig) (cast : Cast) (signature executionSignature : Bytes) :
    List (Text × Json) :=
  let entry : List (Text × Json) :=
    [("signer_id", .int cast.signerId), ("decision", .str cast.vote.text), ("alg_id", .str cast.key.algId),
      ("signature_sha256", .str (sha256Hex config.sha256 signature))]
  let execution : List (Text × Json) :=
    if cast.digest.isSome then
      [("execution_signature_sha256", .str (sha256Hex config.sha256 executionSignature))]
    else []
  let key : List (Text × Json) :=
    [("custody", if cast.key.wrapDomain = .device then "device" else "server"), ("key_id", .int cast.keyId),
      ("public_key_sha256", .str (sha256Hex config.sha256 cast.key.publicKey))]
  entry ++ execution ++ key

-- `proposal.signatures.append(sig)`
def voted (proposal : Proposal) (vote : Signature) : Proposal :=
  { proposal with signatures := proposal.signatures ++ [vote] }

-- What is written once nothing refuses: the vote's row, its ledger entry and any outcome. The
-- object gains this vote and is otherwise as it was loaded.
def storeVote (config : VoteConfig) (board : Board) (cast : Cast) (signature executionSignature : Bytes)
    (clock : Clock) : Except PyError Board := do
  let vote := cast.signature signature
  let ledger ← append config.sha256 board.ledger (clock.stamp 0)
    (proposalEvent cast.proposal "proposal_signed" (signedDetails config cast signature executionSignature)
      (some cast.signerId))
  let stored := { board.update cast.proposal.id fun row => voted row vote with ledger }
  finalizeIfDecided config stored (voted cast.proposal vote) (some cast.signerId) (clock.stamp 1)

def recordVote (config : VoteConfig) (board : Board) (cast : Cast) (signature executionSignature : Bytes)
    (recordProblem : Option Text) (clock : Clock) : Except VoteError Board :=
  match config.registry.signature cast.key.algId, board.proposals[cast.proposal.id]? with
  | some verify, some row =>
    if signature.length ≠ config.signatureSize cast.key.algId then
      .error (.refused (.signatureSize cast.key.algId (config.signatureSize cast.key.algId) signature.length))
    else
      match voteSigningBytes cast.proposal.payloadHash (.str cast.vote.text) (.int cast.signerId) with
      | .error error => .error (.raised error)
      | .ok message =>
        if !verify cast.key.publicKey message signature then
          .error (.refused (.notVerified (cast.key.wrapDomain = .device)))
        else
          match writeRefusal board.directory row cast recordProblem with
          | some refusal => .error (.refused refusal)
          | none => (storeVote config board cast signature executionSignature clock).mapError .raised
  | _, _ => .error (.raised .keyError)

/-! ## Withdrawing -/

-- `_not_theirs_to_withdraw`
def notTheirsToWithdraw (directory : Directory) (proposal : Proposal) (actorId : Int) : Option Refusal :=
  if actorId ≠ proposal.creatorId then some .notYours
  else if ((directory.vault proposal.vaultId).memberFor actorId).isNone then some .leftVault
  else match directory.signingStanding proposal.vaultId actorId with
    | none | some .auditor => none
    | some standing => some (.withdrawStanding standing)

-- `withdraw` up to its conditional update
def openWithdrawal (config : VoteConfig) (board : Board) (proposal : Proposal) (actorId : Int) (clock : Clock) :
    Except PyError (Board × Option Refusal) :=
  match notTheirsToWithdraw board.directory proposal actorId with
  | some refusal => .ok (board, some refusal)
  | none => do
    let board ← refreshExpiry config board proposal clock
    match board.proposals[proposal.id]? with
    | none => return (board, some .notYours)
    | some row => return (board, if row.status = .open then none else some (.cannotWithdraw row.status))

def writeWithdrawal (config : VoteConfig) (board : Board) (proposal : Proposal) (actorId : Int) (clock : Clock) :
    Except VoteError Board :=
  match board.proposals[proposal.id]? with
  | none => .error (.raised .keyError)
  | some row =>
    if row.status ≠ .open then .error (.refused (.cannotWithdraw row.status))
    else (closeAs config board proposal .withdrawn [("withdrawn_at", .str clock.iso)] (some actorId)
      (clock.stamp 0)).mapError .raised

end QVault.Services
