import QVault.Verify.Checked

/-!
# The treasury's execution digest

`qvault/verify/execution.py`. keccak-256 is a third party's and stays a parameter.
-/

namespace QVault.Verify
open Python

-- `int.to_bytes(32, "big")`
def bigEndian (width value : Nat) : Bytes :=
  (List.range width).reverse.map fun i => UInt8.ofNat (value / 256 ^ i)

def abiWord (value : Json) (limit : Nat) : Except PyError Bytes :=
  match value with
  | .int n => if 0 ≤ n ∧ n ≤ limit then .ok (bigEndian 32 n.toNat) else .error .valueError
  | _ => .error .valueError

def isHexDigit (c : CodePoint) : Bool := (hexValue c).isSome

-- `0x[0-9a-fA-F]{40}`
def abiAddress : Json → Except PyError Bytes
  | .str value =>
    if value.take 2 = text "0x" ∧ (value.drop 2).length = 40 ∧ (value.drop 2).all isHexDigit then
      (fromHex (value.drop 2)).map (List.replicate 12 0 ++ ·)
    else .error .valueError
  | _ => .error .valueError

-- `0|[1-9][0-9]*`, read as an int that Python agrees to convert
def decimalAmount : Json → Except PyError Nat
  | .str value =>
    if value ≠ [] ∧ value.all Services.isAsciiDigit ∧ (value = text "0" ∨ value.head? ≠ some (digitChar 0)) ∧
        value.length ≤ 4300 then
      .ok (Services.decimalValue value)
    else .error .valueError
  | _ => .error .valueError

def isHash (payloadHash : Text) : Bool := payloadHash.length == 64 && payloadHash.all isLowerHex

def uint64Max : Nat := 2 ^ 64 - 1
def uint256Max : Nat := 2 ^ 256 - 1

def executeTag (keccak256 : Bytes → Bytes) : Bytes := keccak256 (asciiBytes "QVAULT-TREASURY-v1:EXECUTE")

def executionDigest (keccak256 : Bytes → Bytes) (action : Json) (payloadHash : Text) : Except PyError Bytes :=
  match action with
  | .dict fields =>
    if !(Json.get fields "kind").eq "eth_transfer" || !(Json.get fields "data").eq "0x" then .error .valueError
    else do
      let value ← decimalAmount (Json.get fields "value_wei")
      if !isHash payloadHash then throw .valueError
      else
        let chainId ← abiWord (Json.get fields "chain_id") uint256Max
        let treasury ← abiAddress (Json.get fields "treasury")
        let configNonce ← abiWord (Json.get fields "config_nonce") uint256Max
        let proposalId ← fromHex payloadHash
        let recipient ← abiAddress (Json.get fields "to")
        let amount ← abiWord (.int value) uint256Max
        let callGas ← abiWord (Json.get fields "call_gas") uint64Max
        let validUntil ← abiWord (Json.get fields "valid_until") uint64Max
        return keccak256 (executeTag keccak256 ++ chainId ++ treasury ++ configNonce ++ proposalId ++ recipient ++
          amount ++ keccak256 [] ++ callGas ++ validUntil)
  | _ => .error .valueError

end QVault.Verify
