import QVault.Services.Approval

/-!
# Decisions over time

Raising a decision (`create_proposal`), and every step another request or the scheduler can take
between the gate of a vote and its write.
-/

namespace QVault.Services
open Python Crypto

/-! ## Raising a decision -/

inductive Content
  | general (submitted : Text)
  | typed (written : Text)
  | payment (action : StoredAction)

structure FileMeta where
  filename : Text
  contentSha256 : Text
  kemAlgId : Text

structure Draft where
  vaultId : Int
  creatorId : Int
  title : Text
  content : Content
  file : Option FileMeta
  deadline : Option Int
  proposalUuid : Text
  nonce : Bytes
  createdAtIso : Text

inductive RaiseError
  | notProposer
  | standing (standing : Standing)
  | policyUnmet (required eligible : Int)
  | neverPass
  | undescribed
  | uuidTaken
  | raised (error : PyError)

-- `why_cannot_propose`
def whyCannotPropose (directory : Directory) (vaultId userId : Int) : Option RaiseError :=
  if !directory.isCurrentApprover vaultId userId then some .notProposer
  else (directory.signingStanding vaultId userId).map .standing

def raiseRefusal (directory : Directory) (draft : Draft) : Option RaiseError :=
  match whyCannotPropose directory draft.vaultId draft.creatorId with
  | some refusal => some refusal
  | none =>
    let vault := directory.vault draft.vaultId
    if (vault.signerIds.length : Int) < vault.thresholdM then
      some (.policyUnmet vault.thresholdM vault.signerIds.length)
    else if directory.impossibleToPass draft.vaultId draft.creatorId then some .neverPass
    else none

-- The stored text, which for a payment is the one its action describes.
def Content.actionText : Content → Option Text
  | general submitted => some (strip submitted)
  | typed written => some written
  | payment action => paymentText action.canonical

def Content.action : Content → Option StoredAction
  | payment action => some { action with treasury := some (action.treasuryAddress, action.chainId) }
  | _ => none

-- The row without its hash
def Draft.proposal (draft : Draft) (directory : Directory) (id : Nat) (actionText : Text) : Proposal where
  id
  proposalUuid := draft.proposalUuid
  vaultId := draft.vaultId
  creatorId := draft.creatorId
  title := strip draft.title
  actionText
  fileSha256 := draft.file.map (·.contentSha256)
  action := draft.content.action
  nonce := draft.nonce
  createdAtIso := draft.createdAtIso
  authorizedSigners := (directory.vault draft.vaultId).signerIds
  payloadHash := []
  requiredM := (directory.vault draft.vaultId).thresholdM
  requiredN := (directory.vault draft.vaultId).signerIds.length
  expiresAt := draft.deadline
  requesterCanApprove := some (directory.vaultAllowsRequester draft.vaultId)
  status := .open
  signatures := []

def fileDetails (file : FileMeta) : List (Text × Json) :=
  [("filename", .str file.filename), ("sha256", .str file.contentSha256), ("kem_alg", .str file.kemAlgId)]

def fileEvent (proposal : Proposal) (file : FileMeta) : LedgerEvent where
  eventType := "file_encrypted"
  payload := .dict ((text "proposal_uuid", .str proposal.proposalUuid) :: fileDetails file)
  actor := actorText (some proposal.creatorId)
  actorId := some proposal.creatorId
  vaultId := some proposal.vaultId
  refType := some (text "proposal")
  refId := some proposal.proposalUuid

def createdDetails (proposal : Proposal) (hasFile : Bool) : List (Text × Json) :=
  [(text "title", .str proposal.title), (text "M", .int proposal.requiredM),
    (text "N", .int proposal.requiredN), (text "payload_hash", .str proposal.payloadHash),
    (text "has_file", .bool hasFile)] ++
  if proposal.action.isSome then [(text "has_action", .bool true)] else []

def announceFile (config : VoteConfig) (ledger : Ledger) (proposal : Proposal) (timestamp : Text) :
    Option FileMeta → Except PyError Ledger
  | some file => append config.sha256 ledger timestamp (fileEvent proposal file)
  | none => .ok ledger

-- The entries of a new decision: its file's, when it has one, and its own.
def announce (config : VoteConfig) (ledger : Ledger) (proposal : Proposal) (file : Option FileMeta)
    (clock : Clock) : Except PyError Ledger := do
  let ledger ← announceFile config ledger proposal (clock.stamp 0) file
  append config.sha256 ledger (clock.stamp 1)
    (proposalEvent proposal "proposal_created" (createdDetails proposal file.isSome) (some proposal.creatorId))

def createProposal (config : VoteConfig) (board : Board) (draft : Draft) (clock : Clock) :
    Except RaiseError Board :=
  match raiseRefusal board.directory draft, draft.content.actionText with
  | some refusal, _ => .error refusal
  | none, none => .error .undescribed
  | none, some actionText => do
    let unhashed := draft.proposal board.directory board.proposals.length actionText
    let signed ← (signingBytesFor unhashed).mapError .raised
    if board.proposals.any fun p => p.proposalUuid = draft.proposalUuid then throw .uuidTaken
    else
      let proposal := { unhashed with payloadHash := sha256Hex config.sha256 signed }
      let ledger ← (announce config board.ledger proposal draft.file clock).mapError .raised
      return { board with ledger, proposals := board.proposals ++ [proposal] }

/-! ## Runs -/

inductive Pending
  | vote (cast : Cast)
  | withdrawal (proposal : Proposal) (actorId : Int)

structure Office where
  board : Board
  pending : List Pending

def Office.start (directory : Directory) : Office := ⟨⟨directory, [], Ledger.empty, []⟩, []⟩

-- `event_type`s that voting writes and nothing else does
def decisionEvents : List Text :=
  ["proposal_created", "proposal_signed", "proposal_approved", "proposal_rejected", "proposal_expired",
    "proposal_withdrawn"]

structure OtherEvent where
  event : LedgerEvent
  other : event.eventType ∉ decisionEvents

inductive BoardEvent
  | createProposal (draft : Draft) (clock : Clock)
  | openCast (ballot : Ballot) (digest : Except Text Bytes) (clock : Clock)
  | recordVote (request : Nat) (signature executionSignature : Bytes) (recordProblem : Option Text)
      (clock : Clock)
  | openWithdrawal (proposalId : Nat) (actorId : Int) (clock : Clock)
  | writeWithdrawal (request : Nat) (clock : Clock)
  | refreshExpiry (proposalId : Nat) (clock : Clock)
  | finalizeStalled (clock : Clock)
  | directory (directory : Directory)
  | addKey (key : Key)
  | changeKey (keyId : Nat) (status : KeyStatus) (canSign : Bool) (wrapDomain : WrapDomain)
  | append (other : OtherEvent) (timestamp : Text)

namespace Office
variable (office : Office)

-- A call that raises is rolled back.
def commit {ε : Type} (office : Office) (result : Except ε Board) : Office :=
  match result with
  | .ok board => { office with board }
  | .error _ => office

def drop (request : Nat) : Office := { office with pending := office.pending.eraseIdx request }

def hold (request : Pending) : Office := { office with pending := office.pending ++ [request] }

end Office

def boardStep (config : VoteConfig) (office : Office) : BoardEvent → Office
  | .createProposal draft clock => office.commit (createProposal config office.board draft clock)
  | .openCast ballot digest clock =>
    match openCast config office.board ballot digest clock with
    | .error _ => office
    | .ok (board, .error _) => { office with board }
    | .ok (board, .ok cast) => { office with board }.hold (.vote cast)
  | .recordVote request signature executionSignature recordProblem clock =>
    match office.pending[request]? with
    | some (.vote cast) =>
      (office.drop request).commit
        (recordVote config office.board cast signature executionSignature recordProblem clock)
    | _ => office
  | .openWithdrawal proposalId actorId clock =>
    match office.board.proposals[proposalId]? with
    | none => office
    | some proposal =>
      match openWithdrawal config office.board proposal actorId clock with
      | .error _ => office
      | .ok (board, some _) => { office with board }
      | .ok (board, none) => { office with board }.hold (.withdrawal proposal actorId)
  | .writeWithdrawal request clock =>
    match office.pending[request]? with
    | some (.withdrawal proposal actorId) =>
      (office.drop request).commit (writeWithdrawal config office.board proposal actorId clock)
    | _ => office
  | .refreshExpiry proposalId clock =>
    match office.board.proposals[proposalId]? with
    | none => office
    | some proposal => office.commit (refreshExpiry config office.board proposal clock)
  | .finalizeStalled clock => { office with board := finalizeStalled config office.board clock }
  | .directory directory => { office with board := { office.board with directory } }
  | .addKey key => { office with board := { office.board with keys := office.board.keys ++ [key] } }
  | .changeKey keyId status canSign wrapDomain =>
    { office with board := { office.board with
        keys := office.board.keys.modify keyId fun key => { key with status, canSign, wrapDomain } } }
  | .append other timestamp =>
    office.commit ((append config.sha256 office.board.ledger timestamp other.event).map fun ledger =>
      { office.board with ledger })

end QVault.Services
