import QVault.Chain.Evm
import QVault.Services.Decision

/-!
# The payment a decision authorises

`qvault/chain/action.py`, with what it uses of `evm.py` and `digest.py`. Addresses are texts here, as
the application stores them.
-/

namespace QVault.Chain
open Python Services

section Addresses
variable (keccak256 : Bytes → Word)

def isHexDigit (c : CodePoint) : Bool := (hexValue c).isSome

-- `str.lower` and `str.upper` of hexadecimal digits
def lowerHex (digits : Text) : Text := digits.map fun c => digitChar ((hexValue c).getD 0)

def upperDigit (d : Nat) : CodePoint := Fin.ofNat _ (if d < 10 then 48 + d else 55 + d)

def upperHex (digits : Text) : Text := digits.map fun c => upperDigit ((hexValue c).getD 0)

-- EIP-55: a letter is a capital where the hash of the lower-case digits has a nibble of 8 or more.
def checksumDigits (digits : Text) : Text :=
  let hash := hexText (abiWord (keccak256 ((lowerHex digits).map fun c => UInt8.ofNat c.val)))
  digits.zipWith (fun c nibble =>
    if 8 ≤ (hexValue nibble).getD 0 then upperDigit ((hexValue c).getD 0) else digitChar ((hexValue c).getD 0)) hash

-- `checksum_address`, none where it raises ChainValueError
def checksumAddress (value : Text) : Option Text :=
  let digits := value.drop 2
  if value.take 2 ≠ text "0x" ∨ digits.length ≠ 40 ∨ !digits.all isHexDigit then none
  else if digits ≠ lowerHex digits ∧ digits ≠ upperHex digits ∧ digits ≠ checksumDigits keccak256 digits then none
  else some (text "0x" ++ checksumDigits keccak256 digits)

-- `to_canonical_address`
def addressBits (value : Text) : Address :=
  BitVec.ofNat 160 ((value.drop 2).foldl (fun n c => 16 * n + (hexValue c).getD 0) 0)

def zeroAddress : Text := text "0x" ++ List.replicate 40 (digitChar 0)

-- `_address`
def actionAddress (value what : Text) (canonicalOnly : Bool) : Except Text Text :=
  match checksumAddress keccak256 value with
  | none => .error (text "the " ++ what ++ text " is not a valid Ethereum address")
  | some checksummed =>
    if canonicalOnly && value != checksummed then
      .error (text "the " ++ what ++ text " must be written in its EIP-55 checksummed form")
    else if some checksummed = checksumAddress keccak256 zeroAddress then
      .error (text "the " ++ what ++ text " cannot be the zero address")
    else .ok checksummed

end Addresses

/-! ## The action -/

structure EthTransfer where
  chainId : Int
  treasury : Text
  recipient : Text
  valueWei : Int
  callGas : Int
  validUntil : Int
  configNonce : Int

def maxSafeInteger : Int := 2 ^ 53 - 1
-- `TX_GAS_CAP`
def actionGasCap : Int := 16777216
def ethTransferCallGas : Int := 100000

-- in seconds
def defaultDeadline : Int := 7 * 86400
def maxDeadline : Int := 30 * 86400
def executionWindow : Int := 72 * 3600

def safeInteger (value : Int) (what : Text) : Except Text Unit :=
  if 0 ≤ value ∧ value ≤ maxSafeInteger then .ok ()
  else .error (what ++ text " must be a non-negative integer no larger than 2^53 - 1")

-- `_checked`
def checkTransfer (transfer : EthTransfer) : Except Text EthTransfer := do
  safeInteger transfer.chainId "chain_id"
  if (paymentNetwork transfer.chainId).isNone then
    throw (text "chain " ++ intText transfer.chainId ++ text " is not supported (Sepolia only)")
  else if transfer.valueWei < 1 then throw (text "a payment must move at least 1 wei")
  else if 2 ^ 256 - 1 < transfer.valueWei then
    throw (text "that amount is larger than any Ethereum balance can be")
  else
    safeInteger transfer.callGas "call_gas"
    if transfer.callGas < 1 ∨ actionGasCap < transfer.callGas then
      throw (text "call_gas must be between 1 and " ++ intText actionGasCap)
    else
      safeInteger transfer.validUntil "valid_until"
      if transfer.validUntil < 1 then throw (text "valid_until must be a positive timestamp")
      else
        safeInteger transfer.configNonce "config_nonce"
        if transfer.recipient = transfer.treasury then throw (text "a treasury cannot pay itself")
        else return transfer

-- `_DECIMAL`
def isDecimal (value : Text) : Bool :=
  0 < value.length && value.all isAsciiDigit && (value == text "0" || value.head? != some (digitChar 0))

section Transfers
variable (keccak256 : Bytes → Word)

-- `parse` of a stored action, whose keys and types are its columns'
def parseAction (action : StoredAction) : Except Text EthTransfer :=
  if action.kind ≠ text "eth_transfer" then
    .error (text "unsupported action kind '" ++ action.kind ++ text "'")
  else if action.dataHex ≠ text "0x" then .error "an ETH transfer carries no call data"
  else if !isDecimal action.valueWei then
    .error "value_wei must be a decimal string without sign or leading zeros"
  else do
    let treasury ← actionAddress keccak256 action.treasuryAddress "treasury" true
    let recipient ← actionAddress keccak256 action.toAddress "recipient" true
    checkTransfer ⟨action.chainId, treasury, recipient, decimalValue action.valueWei, action.callGas,
      action.validUntil, action.configNonce⟩

def buildEthTransfer (chainId : Int) (treasury recipient : Text) (valueWei deadline configNonce : Int) :
    Except Text EthTransfer := do
  let treasury ← actionAddress keccak256 treasury "treasury" false
  let recipient ← actionAddress keccak256 recipient "recipient" false
  checkTransfer ⟨chainId, treasury, recipient, valueWei, ethTransferCallGas, deadline + executionWindow,
    configNonce⟩

-- `payment_deadline`; `requested` has a time zone.
def paymentDeadline (now : Int) : Option Int → Except Text Int
  | none => .ok (now + defaultDeadline)
  | some requested =>
    if requested ≤ now then .error "a payment deadline must be in the future"
    else if maxDeadline < requested - now then
      .error "a payment decision's deadline can be at most 30 days away"
    else .ok requested

-- The row that is stored for it, whose treasury is at this address and chain
def EthTransfer.stored (transfer : EthTransfer) : StoredAction where
  kind := "eth_transfer"
  chainId := transfer.chainId
  treasuryAddress := transfer.treasury
  toAddress := transfer.recipient
  valueWei := intText transfer.valueWei
  dataHex := "0x"
  callGas := transfer.callGas
  validUntil := transfer.validUntil
  configNonce := transfer.configNonce
  treasury := some (transfer.treasury, transfer.chainId)

/-! ## The digest -/

-- `bytes32_from_hex`
def proposalIdOf (payloadHash : Text) : Except Text Word :=
  match fromHex (if payloadHash.take 2 = text "0x" then payloadHash.drop 2 else payloadHash) with
  | .error _ => .error (text "payload_hash is not hex: '" ++ payloadHash ++ text "'")
  | .ok raw =>
    if raw.length ≠ 32 then .error (text "payload_hash must be 32 bytes, got " ++ natText raw.length)
    else .ok (BitVec.ofNat 256 (wordOf raw))

-- `abi.encode` of what an approver signs; an ETH transfer has no call data.
def EthTransfer.message (transfer : EthTransfer) (proposalId : Word) : Bytes :=
  ([keccak256 (asciiBytes "QVAULT-TREASURY-v1:EXECUTE"), BitVec.ofInt 256 transfer.chainId,
    (addressBits transfer.treasury).setWidth 256, BitVec.ofInt 256 transfer.configNonce, proposalId,
    (addressBits transfer.recipient).setWidth 256, BitVec.ofInt 256 transfer.valueWei, keccak256 [],
    BitVec.ofInt 256 transfer.callGas, BitVec.ofInt 256 transfer.validUntil] : List Word).flatMap abiWord

-- `EthTransfer.execution_digest`, as the 32 bytes that are signed
def EthTransfer.executionDigest (transfer : EthTransfer) (payloadHash : Text) : Except Text Bytes :=
  (proposalIdOf payloadHash).map fun proposalId => abiWord (keccak256 (transfer.message keccak256 proposalId))

end Transfers

end QVault.Chain
