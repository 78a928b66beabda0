import QVault.Chain.Action
import QVault.Chain.Treasury

/-!
# The digests the server computes

`qvault/chain/digest.py` and `parse` of `action.py`; none where they raise. `eth_abi.encode` is the
standard encoding, which is the contract's `abi.encode`.
-/

namespace QVault.Chain
open Python Services

-- `check_uint256` and `_uint64`
def checkUint (width : Nat) (value : Int) : Option Word :=
  if 0 ≤ value ∧ value < 2 ^ width then some (BitVec.ofInt 256 value) else none

section Digests
variable (keccak256 : Bytes → Word)

-- `checksum_address` of an address that is then encoded
def checkAddress (value : Text) : Option Word :=
  (checksumAddress keccak256 value).map fun checksummed => (addressBits checksummed).setWidth 256

namespace Digest

def executionDigest (chainId : Int) (treasury : Text) (configNonce : Int) (proposalId : Bytes) (recipient : Text)
    (valueWei : Int) (data : Bytes) (callGas validUntil : Int) : Option Bytes :=
  if proposalId.length ≠ 32 then none
  else if maxCallDataBytes < data.length then none
  else do
    let chainId ← checkUint 256 chainId
    let treasury ← checkAddress keccak256 treasury
    let configNonce ← checkUint 256 configNonce
    let recipient ← checkAddress keccak256 recipient
    let valueWei ← checkUint 256 valueWei
    let callGas ← checkUint 64 callGas
    let validUntil ← checkUint 64 validUntil
    return abiWord (keccak256 (([keccak256 (asciiBytes "QVAULT-TREASURY-v1:EXECUTE"), chainId, treasury, configNonce,
      BitVec.ofNat 256 (wordOf proposalId), recipient, valueWei, keccak256 data, callGas, validUntil] :
      List Word).flatMap abiWord))

def reconfigureDigestUnchecked (chainId : Int) (treasury : Text) (configNonce : Int) (add remove : List Bytes)
    (threshold validUntil : Int) : Option Bytes := do
  let chainId ← checkUint 256 chainId
  let treasury ← checkAddress keccak256 treasury
  let configNonce ← checkUint 256 configNonce
  let threshold ← checkUint 64 threshold
  let validUntil ← checkUint 64 validUntil
  return abiWord (keccak256 (([keccak256 (asciiBytes "QVAULT-TREASURY-v1:RECONFIGURE"), chainId, treasury, configNonce,
    keccak256 (abiBytesArray add), keccak256 (abiBytesArray remove), threshold, validUntil] :
    List Word).flatMap abiWord))

def reconfigureDigest (chainId : Int) (treasury : Text) (configNonce : Int) (add remove : List Bytes)
    (threshold validUntil : Int) : Option Bytes :=
  if ¬ (1 ≤ threshold ∧ threshold ≤ maxThreshold.toNat) then none
  else reconfigureDigestUnchecked keccak256 chainId treasury configNonce add remove threshold validUntil

end Digest

-- `bytes32_from_hex`
def bytes32FromHex (value : Text) : Option Bytes :=
  match fromHex (if value.take 2 = text "0x" then value.drop 2 else value) with
  | .error _ => none
  | .ok raw => if raw.length ≠ 32 then none else some raw

-- `EthTransfer.execution_digest`
def EthTransfer.digest (transfer : EthTransfer) (payloadHash : Text) : Option Bytes := do
  let proposalId ← bytes32FromHex payloadHash
  Digest.executionDigest keccak256 transfer.chainId transfer.treasury transfer.configNonce proposalId
    transfer.recipient transfer.valueWei [] transfer.callGas transfer.validUntil

/-! ## Actions from outside -/

-- `ACTION_KEYS`
def actionKeys : List Text :=
  ["kind", "chain_id", "treasury", "to", "value_wei", "data", "call_gas", "valid_until", "config_nonce"]

def integerField : Json → Option Int
  | .int n => some n
  | _ => none

def addressField (value : Json) (what : Text) : Option Text :=
  match value with
  | .str address => (actionAddress keccak256 address what true).toOption
  | _ => none

def parse : Json → Option EthTransfer
  | .dict fields =>
    let keys := fields.map Prod.fst
    if !(keys.all (· ∈ actionKeys) && actionKeys.all (· ∈ keys)) then none
    else if !(Json.get fields "kind").eq "eth_transfer" then none
    else if !(Json.get fields "data").eq "0x" then none
    else match Json.get fields "value_wei" with
      | .str value =>
        if !isDecimal value then none
        else do
          let treasury ← addressField keccak256 (Json.get fields "treasury") "treasury"
          let recipient ← addressField keccak256 (Json.get fields "to") "recipient"
          let chainId ← integerField (Json.get fields "chain_id")
          let callGas ← integerField (Json.get fields "call_gas")
          let validUntil ← integerField (Json.get fields "valid_until")
          let configNonce ← integerField (Json.get fields "config_nonce")
          (checkTransfer ⟨chainId, treasury, recipient, decimalValue value, callGas, validUntil, configNonce⟩).toOption
      | _ => none
  | _ => none

end Digests

end QVault.Chain
