import QVault.Chain.Evm
import QVault.Lib.Programs

/-!
# The relayer

`chain/relayer.py`: an account that simulates, signs, sends and follows transactions. Each of its
methods is a program that asks the node; what the node answers is left open here.
-/

namespace QVault.Chain
open Python Programs

def txGasCap : Nat := 16777216
def supersededAfterBlocks : Nat := 12

/-! ## Transactions -/

-- A signed EIP-1559 transaction. The signed bytes and their hash follow from it.
structure PreparedTransaction where
  chainId : Nat
  sender : Address
  nonce : Nat
  recipient : Option Address
  valueWei : Nat
  data : Bytes
  gasLimit : Nat
  maxFeePerGas : Nat
  maxPriorityFeePerGas : Nat
deriving DecidableEq

structure Receipt where
  succeeded : Bool
  blockNumber : Nat
  contractAddress : Option Address

inductive TxStatus
  | mined (receipt : Receipt)
  | pending
  | unknown
  | superseded

structure FeePolicy where
  maxBaseFeeWei : Nat
  minPriorityFeeWei : Nat
  maxPriorityFeeWei : Nat
  maxFeePerGasWei : Nat
  baseFeeMultiplier : Nat
  gasMarginPercent : Nat
  priorities : minPriorityFeeWei ≤ maxPriorityFeeWei
  multiplier : 1 ≤ baseFeeMultiplier
  covers : maxBaseFeeWei + maxPriorityFeeWei ≤ maxFeePerGasWei

-- The account, the chain it signs for, and what the libraries compute: `keccak256` of the signed
-- bytes, `create_address`, and `_normalised`, which lowers and filters by Unicode's tables
structure Account where
  address : Address
  chainId : Nat
  txHash : PreparedTransaction → Bytes
  createAddress : Address → Nat → Address
  normalised : Text → Text

/-! ## Errors -/

-- RpcUnavailable, RpcResponseError, and ExecutionReverted, which is one with data
inductive RpcError
  | unavailable
  | response (message : Text) (revertData : Option Bytes)

inductive RelayerError
  | rpc (error : RpcError)
  | chainValue (what : String) (value : Int)
  | other (message : String)
  | wrongChain (nodeChain : Nat)
  | busy (message : String)
  | simulationFailed (revertData : Bytes)
  | simulationUnavailable (message : Text)
  | gasLimitTooHigh (gas : Int)
  | feeTooHigh (what : String) (fee ceiling : Nat)
  | insufficientFunds (balance required : Nat)
  | broadcastRejected (message : Text)
  | sendOutcomeUnknown (prepared : PreparedTransaction)
  -- whatever `on_prepared` raised
  | callback

def definitiveSendRejections : List Text :=
  ["replacementtransactionunderpriced", "transactionunderpriced", "insufficientfunds", "intrinsicgastoolow",
    "invalidchainid", "exceedsblockgaslimit", "exceedsmaximumpertransactiongaslimit", "gaslimittoohigh",
    "maxfeepergaslessthanblockbasefee", "maxpriorityfeepergashigherthanmaxfeepergas",
    "failedtodecodesignedtransaction", "invalidsender", "oversizeddata", "txfeeexceedstheconfiguredcap"]

def definitiveSimulationFailures : List Text :=
  ["outofgas", "insufficientfunds", "gasrequiredexceedsallowance", "intrinsicgastoolow", "invalidopcode",
    "stackunderflow", "stackoverflow", "invalidjump"]

/-! ## What it asks -/

inductive BlockTag
  | latest
  | pending
  | number (block : Nat)

structure CallRequest where
  recipient : Option Address
  data : Bytes
  value : Nat
  gas : Option Nat

-- The node, but for the last three: whether the bytes decode to these fields and were signed by this
-- account, signing, and the caller's `on_prepared`, which may raise.
inductive Query
  | chainId
  | transactionCount (block : BlockTag)
  | receipt (prepared : PreparedTransaction)
  | transaction (prepared : PreparedTransaction)
  | blockNumber
  | estimateGas (request : CallRequest)
  | call (request : CallRequest)
  | baseFee
  | maxPriorityFee
  | balance
  | sendRaw (prepared : PreparedTransaction)
  | recover (prepared : PreparedTransaction)
  | sign (prepared : PreparedTransaction)
  | onPrepared (prepared : PreparedTransaction)

abbrev Reply : Query → Type
  | .receipt _ => Except RpcError (Option Receipt)
  | .transaction _ => Except RpcError Bool
  | .call _ | .sendRaw _ => Except RpcError Bytes
  | .recover _ | .onPrepared _ => Bool
  | .sign _ => Unit
  | .chainId | .transactionCount _ | .blockNumber | .estimateGas _ | .baseFee | .maxPriorityFee | .balance =>
    Except RpcError Nat

-- `_chain_checked` and `_last_sent`
structure Memory where
  chainChecked : Bool
  lastSent : Option PreparedTransaction

abbrev Asking (M α : Type) := Program Query Reply M RelayerError α
abbrev Relaying (α : Type) := Asking Memory α

def asked {M : Type} (query : Query) : Asking M (Reply query) := question query

def answered {M α : Type} (reply : Except RpcError α) : Asking M α := orRaise (reply.mapError .rpc)

def checkUint256 (what : String) (value : Int) : Except RelayerError Nat :=
  if 0 ≤ value ∧ value < 2 ^ 256 then .ok value.toNat else .error (.chainValue what value)

def checkGasLimit : Option Int → Except RelayerError (Option Nat)
  | none => .ok none
  | some gas => do
    let gasLimit ← checkUint256 "gas_limit" gas
    if txGasCap < gasLimit then throw (.gasLimitTooHigh gasLimit) else return some gasLimit

section Methods
variable (account : Account) (fees : FeePolicy)

def PreparedTransaction.createdAddress (prepared : PreparedTransaction) : Option Address :=
  match prepared.recipient with
  | none => some (account.createAddress prepared.sender prepared.nonce)
  | some _ => none

def checkOurs (prepared : PreparedTransaction) : Relaying Unit :=
  if prepared.sender ≠ account.address ∨ prepared.chainId ≠ account.chainId then
    raise (.other "that transaction was prepared by a different relayer")
  else do
    let genuine ← asked (.recover prepared)
    if genuine then pure ()
    else raise (.other "the prepared transaction's fields do not match its signed bytes")

def checkReplaced : Option PreparedTransaction → Relaying Unit
  | none => pure ()
  | some replacing => checkOurs account replacing

def checkChain : Relaying Unit := do
  let memory ← getMemory
  if memory.chainChecked then pure ()
  else
    let nodeChain ← asked .chainId >>= answered
    if nodeChain ≠ account.chainId then raise (.wrongChain nodeChain)
    else setMemory { memory with chainChecked := true }

/-! ### Following -/

-- `_receipt`
def receiptOf {M : Type} (prepared : PreparedTransaction) : Asking M (Option Receipt) := do
  let found ← asked (.receipt prepared) >>= answered
  match found with
  | none => pure none
  | some receipt =>
    if receipt.contractAddress ≠ prepared.createdAddress account then
      raise (.other "the node returned a receipt whose created contract does not match the transaction")
    else pure (some receipt)

-- Only `superseded` means that it can never be included.
def status {M : Type} (prepared : PreparedTransaction) : Asking M TxStatus := do
  let found ← receiptOf account prepared
  match found with
  | some receipt => pure (.mined receipt)
  | none =>
    let known ← asked (.transaction prepared) >>= answered
    if known then pure .pending
    else
      let blockNumber ← asked .blockNumber >>= answered
      let used ← asked (.transactionCount (.number (blockNumber - supersededAfterBlocks))) >>= answered
      if prepared.nonce < used then
        -- A receipt that appeared in between is seen.
        let again ← receiptOf account prepared
        match again with
        | some receipt => pure (.mined receipt)
        | none => pure .superseded
      else pure .unknown

/-! ### Preparing -/

def afterLast (confirmed : Nat) (last : PreparedTransaction) : Relaying Nat := do
  let state ← status account last
  match state with
  | .pending => raise (.busy "the relayer's last transaction is still pending")
  | .mined _ => pure (last.nonce + 1)
  | .unknown | .superseded => pure confirmed

def chooseNonce (replacing : Option PreparedTransaction) : Relaying Nat := do
  let confirmed ← asked (.transactionCount .latest) >>= answered
  match replacing with
  | some replaced =>
    if replaced.nonce < confirmed then
      raise (.broadcastRejected "the transaction to replace can no longer be included: its nonce is used")
    else pure replaced.nonce
  | none =>
    let pending ← asked (.transactionCount .pending) >>= answered
    if confirmed < pending then raise (.busy "a transaction from the relayer is still pending")
    else
      let memory ← getMemory
      match memory.lastSent with
      | none => pure confirmed
      | some last => if confirmed ≤ last.nonce then afterLast account confirmed last else pure confirmed

def simulationError : RpcError → RelayerError
  | .unavailable => .rpc .unavailable
  | .response _ (some revertData) => .simulationFailed revertData
  | .response message none =>
    if definitiveSimulationFailures.any fun phrase => decide (phrase <:+: account.normalised message) then
      .simulationFailed []
    else .simulationUnavailable message

-- `_replay`: the call at exactly the signed gas limit
def replay (recipient : Option Address) (data : Bytes) (valueWei gasLimit : Nat) : Relaying Unit := do
  let reply ← asked (.call ⟨recipient, data, valueWei, some gasLimit⟩)
  let result ← orRaise (reply.mapError (simulationError account))
  if recipient = none ∧ result = [] then raise (.simulationFailed []) else pure ()

def estimate (recipient : Option Address) (data : Bytes) (valueWei : Nat) : Option Nat → Relaying Nat
  | some gasLimit => pure gasLimit
  | none => do
    let reply ← asked (.estimateGas ⟨recipient, data, valueWei, none⟩)
    let estimated ← orRaise (reply.mapError (simulationError account))
    if txGasCap < estimated then raise (.gasLimitTooHigh estimated)
    else pure (min (estimated + estimated * fees.gasMarginPercent / 100) txGasCap)

def simulate (recipient : Option Address) (data : Bytes) (valueWei : Nat) (gasLimit : Option Nat) : Relaying Nat := do
  let gasLimit ← estimate account fees recipient data valueWei gasLimit
  replay account recipient data valueWei gasLimit
  pure gasLimit

-- geth replaces a transaction only for fees 10% above it; this is 12.5%, rounded up.
def bumped (fee : Nat) : Nat := (fee * 9 + 7) / 8

def suggestedPriority : Except RpcError Nat → Except RelayerError Nat
  | .ok suggested => .ok suggested
  | .error (.response _ _) => .ok fees.minPriorityFeeWei
  | .error .unavailable => .error (.rpc .unavailable)

-- `_fees`: what is offered per unit of gas, and the tip in it
def feesFor (replacing : Option PreparedTransaction) : Relaying (Nat × Nat) := do
  let baseFee ← asked .baseFee >>= answered
  if fees.maxBaseFeeWei < baseFee then raise (.feeTooHigh "base fee" baseFee fees.maxBaseFeeWei)
  else
    let reply ← asked .maxPriorityFee
    let suggested ← orRaise (suggestedPriority fees reply)
    let priority := min (max suggested fees.minPriorityFeeWei) fees.maxPriorityFeeWei
    let maxFee := min (baseFee * fees.baseFeeMultiplier + priority) fees.maxFeePerGasWei
    match replacing with
    | none => pure (maxFee, priority)
    | some replaced =>
      let priority := max priority (bumped replaced.maxPriorityFeePerGas)
      let maxFee := max (max maxFee (bumped replaced.maxFeePerGas)) priority
      if fees.maxFeePerGasWei < maxFee then raise (.feeTooHigh "replacement fee" maxFee fees.maxFeePerGasWei)
      else pure (maxFee, priority)

def checkBalance (required : Nat) : Relaying Unit := do
  let balance ← asked .balance >>= answered
  if balance < required then raise (.insufficientFunds balance required) else pure ()

-- `_prepare`
def prepare (recipient : Option Address) (data : Bytes) (valueWei : Int) (gasLimit : Option Int)
    (replacing : Option PreparedTransaction) : Relaying PreparedTransaction := do
  let valueWei ← orRaise (checkUint256 "value_wei" valueWei)
  let gasLimit ← orRaise (checkGasLimit gasLimit)
  checkReplaced account replacing
  checkChain account
  let nonce ← chooseNonce account replacing
  let gasLimit ← simulate account fees recipient data valueWei gasLimit
  let offered ← feesFor fees replacing
  checkBalance (gasLimit * offered.1 + valueWei)
  let prepared : PreparedTransaction :=
    ⟨account.chainId, account.address, nonce, recipient, valueWei, data, gasLimit, offered.1, offered.2⟩
  asked (.sign prepared)
  pure prepared

def prepareCall (recipient : Address) (data : Bytes) (valueWei : Int) (gasLimit : Option Int)
    (replacing : Option PreparedTransaction) : Relaying PreparedTransaction :=
  prepare account fees (some recipient) data valueWei gasLimit replacing

def prepareDeployment (initCode : Bytes) (valueWei : Int) (gasLimit : Option Int)
    (replacing : Option PreparedTransaction) : Relaying PreparedTransaction :=
  if initCode = [] then raise (.other "a deployment needs init code")
  else prepare account fees none initCode valueWei gasLimit replacing

/-! ### Sending -/

-- `_remember`
def remember (prepared : PreparedTransaction) : Relaying Unit := do
  let memory ← getMemory
  match memory.lastSent with
  | none => setMemory { memory with lastSent := some prepared }
  | some last =>
    if last.nonce ≤ prepared.nonce then setMemory { memory with lastSent := some prepared } else pure ()

def rememberUnknown (prepared : PreparedTransaction) : Relaying Bytes := do
  remember prepared
  raise (.sendOutcomeUnknown prepared)

def rememberSent (prepared : PreparedTransaction) : Relaying Bytes := do
  remember prepared
  pure (account.txHash prepared)

-- `_send`
def send (prepared : PreparedTransaction) : Relaying Bytes := do
  let reply ← asked (.sendRaw prepared)
  match reply with
  | .error .unavailable => rememberUnknown prepared
  | .error (.response raw _) =>
    let message := account.normalised raw
    if (text "alreadyknown").isPrefixOf message || (text "knowntransaction").isPrefixOf message then
      rememberSent account prepared
    else if text "noncetoolow" <:+: message then
      -- It was mined already, or another used the nonce: only a receipt tells them apart.
      let receipt ← asked (.receipt prepared)
      match receipt with
      | .ok (some _) => pure (account.txHash prepared)
      | .ok none | .error _ => raise (.sendOutcomeUnknown prepared)
    else if definitiveSendRejections.any fun phrase => decide (phrase <:+: message) then
      raise (.broadcastRejected (text "the node refused the transaction: " ++ raw))
    else rememberUnknown prepared
  | .ok returned =>
    if returned ≠ account.txHash prepared then rememberUnknown prepared else rememberSent account prepared

def broadcast (prepared : PreparedTransaction) : Relaying Bytes := do
  checkOurs account prepared
  let state ← status account prepared
  match state with
  | .mined _ | .pending => pure (account.txHash prepared)
  | .superseded =>
    raise (.broadcastRejected "its nonce was used by another transaction, so it can never be included")
  | .unknown =>
    replay account prepared.recipient prepared.data prepared.valueWei prepared.gasLimit
    send account prepared

-- The caller stores what was signed before it is sent. If that raises, nothing is sent.
def storeFirst (prepared : PreparedTransaction) : Relaying Unit := do
  let stored ← asked (.onPrepared prepared)
  if stored then pure () else raise .callback

def sendCall (recipient : Address) (data : Bytes) (valueWei : Int) (gasLimit : Option Int) :
    Relaying PreparedTransaction := do
  let prepared ← prepareCall account fees recipient data valueWei gasLimit none
  storeFirst prepared
  let _ ← send account prepared
  pure prepared

def deploy (initCode : Bytes) (valueWei : Int) (gasLimit : Option Int) : Relaying PreparedTransaction := do
  let prepared ← prepareDeployment account fees initCode valueWei gasLimit none
  storeFirst prepared
  let _ ← send account prepared
  pure prepared

end Methods

end QVault.Chain
