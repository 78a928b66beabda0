import QVault.Chain.Action
import QVault.Services.ApprovalRun

/-!
# Execution signatures

`qvault/services/execution_service.py`, `_payment_digest`, `_payment_action` and the part of
`_record_vote` that stores an execution signature with its vote. A treasury's record is what the
application stores about a contract.
-/

namespace QVault.Services
open Python Crypto Chain

structure PaymentConfig extends VoteConfig where
  keccak256 : Bytes → Word
  onchainExecutionEnabled : Bool

-- A signer's one key on a treasury, and what the contract calls it
structure TreasurySigner where
  userId : Int
  keyId : Nat
  identity : Bytes

-- A treasury with its signer rows, and whether a reconfiguration of it is open. Every write of the
-- rows stores their number as `signer_count` too.
structure TreasuryRecord where
  vaultId : Int
  chainId : Int
  address : Text
  thresholdM : Int
  configNonce : Int
  signers : List TreasurySigner
  distinct : (signers.map (·.userId)).Nodup
  linked : Bool
  reconfiguring : Bool

structure ExecutionSignature where
  proposalId : Nat
  signerId : Int
  keyId : Nat
  algId : Text
  publicKey : Bytes
  digest : Bytes
  signature : Bytes
  identity : Bytes

structure Books where
  board : Board
  treasuries : List TreasuryRecord
  executions : List ExecutionSignature

-- `ALGORITHM`
def treasuryAlgorithm : Text := "ML-DSA-65"

-- `action.treasury`: an address and a chain name one treasury.
def treasuryOf (treasuries : List TreasuryRecord) (action : StoredAction) : Option TreasuryRecord :=
  action.treasury.bind fun named => treasuries.find? fun t => (t.address, t.chainId) = named

/-! ## Who can approve a payment with which key -/

-- `_nonce_problem`
def nonceProblem (signed current : Int) : Option Text :=
  if signed = current then none
  else if signed < current then some (
    text "This vault's treasury has been reconfigured since this payment was raised, so the " ++
      text "contract would no longer accept approvals of it. Raise the payment again.")
  else some (
    text "This payment names a treasury configuration that does not exist yet, which this app " ++
      text "never records, so its records may have been altered. Nothing was signed; an " ++
      text "administrator needs to look at this decision.")

-- `_wrong_key`
def wrongKey (held : Option Key) (key : Key) : Text :=
  let reconfigure := text "The treasury must be reconfigured to register your current key."
  let heldOnDevice := held.any (·.wrapDomain = .device)
  if held.all fun held => held.status ≠ .active || !held.canSign then
    text "This vault's treasury holds " ++
      (if heldOnDevice then text "a phone" else text "an earlier key of yours") ++
      text " that can no longer sign, so the contract would not count your approval. " ++ reconfigure
  else if heldOnDevice then
    if key.wrapDomain ≠ .device then
      text "This vault's treasury holds your phone's key, so this payment must be approved on your phone."
    else
      text "This vault's treasury holds the key of another of your phones, so this payment must be " ++
        text "approved on that phone."
  else if key.wrapDomain = .device then
    text "This vault's treasury holds your password key, so this payment must be approved in the web app."
  else
    text "This vault's treasury holds an earlier key of yours, not the one you sign with now, so the " ++
      text "contract would not count your approval. " ++ reconfigure

-- `_seat`. A session that has loaded the treasury keeps it as it loaded it, and asks for its
-- signer and for an open reconfiguration again.
def seat (keys : List Key) (vaultId : Int) (action : StoredAction) (loaded current : Option TreasuryRecord)
    (signerId : Int) (keyId : Nat) (key : Key) : Except Text TreasurySigner :=
  let usable := loaded.filter fun t => t.linked && t.vaultId == vaultId && t.chainId == action.chainId &&
    t.address == action.treasuryAddress
  match usable with
  | none => .error (
      text "This vault is no longer linked to the treasury this payment names, so the payment could " ++
        text "not be executed. Raise the decision again once a treasury is linked.")
  | some treasury =>
    match nonceProblem action.configNonce treasury.configNonce with
    | some problem => .error problem
    | none =>
      if current.any (·.reconfiguring) then .error (
        text "This vault's treasury is being reconfigured, so an approval now could not be used. " ++
          text "Approve again once that is done.")
      else match current.bind fun t => t.signers.find? fun s => s.userId = signerId with
        | none => .error (
            text "None of your keys is registered on this vault's treasury, so the contract would not " ++
              text "count your approval. The treasury must be reconfigured to register one.")
        | some registered =>
          if registered.keyId ≠ keyId then .error (wrongKey keys[registered.keyId]? key)
          else if key.algId ≠ treasuryAlgorithm then .error (
            text "A treasury verifies " ++ treasuryAlgorithm ++ text " signatures only, and your " ++
              text "registered key is " ++ key.algId ++
              text ". The treasury must be reconfigured before you can approve a payment.")
          else .ok registered

-- `chain_nonce_problem`, where the chain's answer is none when it cannot be asked
def chainNonceProblem (action : StoredAction) : Option Int → Option Text
  | none => some (
      text "Ethereum could not be asked which configuration this vault's treasury is at, and a " ++
        text "payment is only approved against the chain's own answer. Nothing was signed; try " ++
        text "again shortly.")
  | some onchain => nonceProblem action.configNonce onchain

section Services
variable (config : PaymentConfig)

-- `digest_for`
def digestFor (action : StoredAction) (payloadHash : Text) : Except Text Bytes :=
  match parseAction config.keccak256 action >>= fun payment =>
      payment.executionDigest config.keccak256 payloadHash with
  | .error problem => .error (text "this decision's payment cannot be read (" ++ problem ++ text ")")
  | .ok digest => .ok digest

-- `_payment_digest`
def paymentDigest (books : Books) (proposal : Proposal) (action : StoredAction) (signerId : Int) (keyId : Nat)
    (key : Key) (onchain : Option Int) : Except Text Bytes :=
  if !bindingOk config.toVoteConfig books.board proposal then .error (
    text "This payment no longer matches what was signed, so approving it could authorise a " ++
      text "different payment. Nothing was recorded. ")
  else
    let treasury := treasuryOf books.treasuries action
    match seat books.board.keys proposal.vaultId action treasury treasury signerId keyId key with
    | .error problem => .error problem
    | .ok _ =>
      match chainNonceProblem action onchain with
      | some problem => .error problem
      | none => digestFor config action proposal.payloadHash

/-! ## Recording one -/

-- `record` up to its row
def checkExecution (books : Books) (cast : Cast) (loaded : Option TreasuryRecord) (digest signature : Bytes) :
    Except Text TreasurySigner :=
  match cast.proposal.action with
  | none => .error "This decision authorises no payment, so it takes no execution signature."
  | some action =>
    if cast.key.ownerId ≠ some cast.signerId then .error "That key does not belong to you."
    else
      match seat books.board.keys cast.proposal.vaultId action loaded (treasuryOf books.treasuries action)
          cast.signerId cast.keyId cast.key with
      | .error problem => .error problem
      | .ok registered =>
        if signature.length ≠ config.signatureSize cast.key.algId then .error (
          text "An execution signature under " ++ cast.key.algId ++ text " must be " ++
            natText (config.signatureSize cast.key.algId) ++ text " bytes, got " ++
            natText signature.length ++ text ".")
        else if !config.registry.verify (.str cast.key.algId) cast.key.publicKey digest signature then .error (
          text "The execution signature did not verify under your registered key; nothing recorded.")
        else .ok registered

def executionRow (cast : Cast) (registered : TreasurySigner) (digest signature : Bytes) : ExecutionSignature where
  proposalId := cast.proposal.id
  signerId := cast.signerId
  keyId := cast.keyId
  algId := cast.key.algId
  publicKey := cast.key.publicKey
  digest
  signature
  identity := registered.identity

-- The rows a vote stores beside itself: an execution signature where it approves a payment
def executionRows (books : Books) (cast : Cast) (loaded : Option TreasuryRecord) (signature : Bytes) :
    Except Text (List ExecutionSignature) :=
  match cast.digest with
  | none => .ok []
  | some digest => (checkExecution config books cast loaded digest signature).map fun registered =>
      [executionRow cast registered digest signature]

-- `uq_execution_signature_signer`
def alreadyStored (books : Books) (cast : Cast) : Bool :=
  books.executions.any fun e => e.proposalId = cast.proposal.id && e.signerId = cast.signerId

-- `_record_vote` with the execution signature that came with the vote. What it adds is committed
-- together or not at all.
def writeVote (books : Books) (cast : Cast) (loaded : Option TreasuryRecord)
    (signature executionSignature : Bytes) (clock : Clock) : Except VoteError Books :=
  let rows := executionRows config books cast loaded executionSignature
  let problem := match rows with
    | .error problem => some problem
    | .ok _ => none
  match recordVote config.toVoteConfig books.board cast signature executionSignature problem clock, rows with
  | .ok board, .ok rows =>
    if rows ≠ [] ∧ alreadyStored books cast then .error (.refused (.execution (
      text "A payment approval is stored for you without its vote, which this app never writes. " ++
        text "Nothing was recorded; an administrator needs to look at this decision's records.")))
    else .ok { books with board, executions := books.executions ++ rows }
  | .error error, _ => .error error
  | .ok _, .error problem => .error (.refused (.execution problem))

/-! ## Raising a payment -/

structure PaymentRequest where
  recipient : Text
  valueWei : Int

-- a count with a comma before each group of three digits
def groupedText (n : Nat) : Text :=
  if n < 1000 then natText n
  else
    let last := natText (n % 1000)
    groupedText (n / 1000) ++ text "," ++ List.replicate (3 - last.length) (digitChar 0) ++ last

-- `count_noun` of a threshold, which is at least 1
def countNoun (count : Int) (noun : Text) : Text :=
  groupedText count.toNat ++ text " " ++ noun ++ if count = 1 then [] else text "s"

def linkedTreasury (treasuries : List TreasuryRecord) (vaultId : Int) : Option TreasuryRecord :=
  treasuries.find? fun t => t.vaultId == vaultId && t.linked

-- the registered keys that can still sign
def usableKeys (keys : List Key) (treasury : TreasuryRecord) : Nat :=
  treasury.signers.countP fun s => keys[s.keyId]?.any fun key => key.status = .active && key.canSign

-- `_payment_action`
def paymentAction (books : Books) (draft : Draft) (submitted : Text) (payment : PaymentRequest) (now : Int) :
    Except Text (StoredAction × Int) :=
  let vault := books.board.directory.vault draft.vaultId
  if !config.onchainExecutionEnabled then .error "Payment decisions are not enabled on this instance."
  else if strip submitted ≠ [] then .error
    "A payment decision's text is written from the payment itself; leave it empty."
  else match linkedTreasury books.treasuries draft.vaultId with
    | none => .error "This vault has no linked treasury, so it cannot make payments."
    | some treasury =>
      if treasury.reconfiguring then .error
        "This vault's treasury is being reconfigured. Raise the payment once that is done."
      else if treasury.thresholdM ≠ vault.thresholdM then .error (
        text "This vault now requires " ++ countNoun vault.thresholdM "approval" ++
          text " but its treasury requires " ++ intText treasury.thresholdM ++
          text ". Reconfigure the treasury before raising a payment.")
      else if (treasury.signers.map (·.userId)).insertionSort (· ≤ ·) ≠ vault.signerIds then .error (
        text "This vault's signers are not the ones registered on its treasury, so the contract would " ++
          text "not accept their approvals. Link the treasury again before raising a payment.")
      else if (usableKeys books.board.keys treasury : Int) < vault.thresholdM then .error (
        text "Only " ++ natText (usableKeys books.board.keys treasury) ++
          text " of the keys registered on this vault's treasury can still sign, and a payment needs " ++
          intText vault.thresholdM ++ text ". Link the treasury again before raising a payment.")
      else do
        let deadline ← paymentDeadline now draft.deadline
        let transfer ← buildEthTransfer config.keccak256 treasury.chainId treasury.address payment.recipient
          payment.valueWei deadline treasury.configNonce
        return (transfer.stored, deadline)

end Services

end QVault.Services
