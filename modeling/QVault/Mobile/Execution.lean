import QVault.Mobile.Signing

/-!
# The digests the phone computes

`mobile/src/crypto/execution.ts`, with what it uses of `bytes.ts`.
-/

namespace QVault.Mobile
open Python JsValue

/-! ## `BigInt` of a value -/

def isJsSpace (u : CodeUnit) : Bool :=
  (9 ≤ u.val && u.val ≤ 13) || u.val == 0x20 || u.val == 0xA0 || u.val == 0x1680 ||
    (0x2000 ≤ u.val && u.val ≤ 0x200A) || u.val == 0x2028 || u.val == 0x2029 || u.val == 0x202F ||
    u.val == 0x205F || u.val == 0x3000 || u.val == 0xFEFF

def trim (s : JsString) : JsString := ((s.dropWhile isJsSpace).reverse.dropWhile isJsSpace).reverse

def hexUnit (u : CodeUnit) : Option Nat :=
  if 48 ≤ u.val ∧ u.val ≤ 57 then some (u.val - 48)
  else if 97 ≤ u.val ∧ u.val ≤ 102 then some (u.val - 87)
  else if 65 ≤ u.val ∧ u.val ≤ 70 then some (u.val - 55)
  else none

-- Digits of a base up to 16, at least one
def digitsIn (base : Nat) (digits : JsString) : Option Nat :=
  if digits.isEmpty then none
  else digits.foldl (fun read u => do
    let n ← read
    let d ← hexUnit u
    if d < base then some (base * n + d) else none) (some 0)

def bigIntOfText (s : JsString) : Except JsError Int :=
  let body := trim s
  let sign := body.take 1
  let mark := body.take 2
  let read : Option Int :=
    if body.isEmpty then some 0
    else if mark = js "0x" ∨ mark = js "0X" then (digitsIn 16 (body.drop 2)).map Int.ofNat
    else if mark = js "0o" ∨ mark = js "0O" then (digitsIn 8 (body.drop 2)).map Int.ofNat
    else if mark = js "0b" ∨ mark = js "0B" then (digitsIn 2 (body.drop 2)).map Int.ofNat
    else if sign = js "-" then (digitsIn 10 (body.drop 1)).map fun n => -(n : Int)
    else if sign = js "+" then (digitsIn 10 (body.drop 1)).map Int.ofNat
    else (digitsIn 10 body).map Int.ofNat
  match read with
  | some n => .ok n
  | none => .error .syntaxError

-- `BigInt(value)` of a number that is a safe integer, or of anything else
def bigInt : JsValue → Except JsError Int
  | .number (.finite value) => .ok value.num
  | .number _ => .error .syntaxError
  | .bool b => .ok (if b then 1 else 0)
  | .undefined | .null => .error .typeError
  | value => do bigIntOfText (← value.toText)

/-! ## Words -/

def uint64Max : Nat := 2 ^ 64 - 1
def uint256Max : Nat := 2 ^ 256 - 1

def word (value : Int) (max : Nat) (what : JsString) : Except JsError Bytes :=
  if value < 0 ∨ max < value then fail (what ++ js " is out of range")
  else .ok ((List.range 32).reverse.map fun i => UInt8.ofNat (value.toNat / 256 ^ i))

def integer (value : JsValue) (max : Nat) (what : JsString) : Except JsError Bytes := do
  match value with
  | .number n => if !n.isSafeInteger then fail (what ++ js " is not an integer") else word (← bigInt value) max what
  | .string s => if !isDecimal s then fail (what ++ js " is not an integer") else word (decimalValue s) max what
  | _ => word (← bigInt value) max what

def isHexUnit (u : CodeUnit) : Bool := (hexUnit u).isSome

-- `fromHex`; every caller has checked that the text is hexadecimal digits.
def fromHex : JsString → Except JsError Bytes
  | [] => .ok []
  | [_] => fail (js "odd-length hex")
  | high :: low :: rest =>
    (fromHex rest).map (UInt8.ofNat (16 * (hexUnit high).getD 0 + (hexUnit low).getD 0) :: ·)

-- `toLowerCase` of hexadecimal digits
def lowerUnit (u : CodeUnit) : CodeUnit := if 65 ≤ u.val ∧ u.val ≤ 70 then Fin.ofNat _ (u.val + 32) else u

def toLowerCase (digits : JsString) : JsString := digits.map lowerUnit

-- An array can pass the test, since the test reads it as text, but it has no `toLowerCase`.
def address (value : JsValue) (what : JsString) : Except JsError Bytes := do
  let shown ← value.toText
  if !(shown.take 2 == js "0x" && (shown.drop 2).length == 40 && (shown.drop 2).all isHexUnit) then
    fail (what ++ js " is not an address")
  else match value with
    | .string s => (fromHex (toLowerCase (s.drop 2))).map (List.replicate 12 0 ++ ·)
    | _ => .error .typeError

def isLowerHexUnit (u : CodeUnit) : Bool := (48 ≤ u.val && u.val ≤ 57) || (97 ≤ u.val && u.val ≤ 102)

def bytes32 (hex what : JsString) : Except JsError Bytes :=
  let clean := if hex.take 2 = js "0x" then hex.drop 2 else hex
  if !(clean.length == 64 && clean.all isLowerHexUnit) then
    fail (what ++ js " is not 32 bytes of lower-case hex")
  else fromHex clean

/-! ## Digests -/

section Digests
variable (keccak256 : Bytes → Bytes)

def executeTag : Bytes := keccak256 (utf8Encode (js "QVAULT-TREASURY-v1:EXECUTE"))
def reconfigureTag : Bytes := keccak256 (utf8Encode (js "QVAULT-TREASURY-v1:RECONFIGURE"))

def executionDigest (payloadHash : JsString) (action : JsValue) : Except JsError Bytes := do
  let kind ← action.get "kind"
  if !kind.same (.string (js "eth_transfer")) || !(action.own "data").same (.string (js "0x")) then
    fail (js "this app can only approve a plain ETH transfer")
  else
    let chainId ← integer (action.own "chain_id") uint256Max (js "chain_id")
    let treasury ← address (action.own "treasury") (js "treasury")
    let configNonce ← integer (action.own "config_nonce") uint256Max (js "config_nonce")
    let proposalId ← bytes32 payloadHash (js "payload hash")
    let recipient ← address (action.own "to") (js "to")
    let valueWei ← integer (action.own "value_wei") uint256Max (js "value_wei")
    let callGas ← integer (action.own "call_gas") uint64Max (js "call_gas")
    let validUntil ← integer (action.own "valid_until") uint64Max (js "valid_until")
    return keccak256 (executeTag keccak256 ++ chainId ++ treasury ++ configNonce ++ proposalId ++ recipient ++ valueWei ++
      keccak256 [] ++ callGas ++ validUntil)

def maxThreshold : Nat := 8
def identityBytes : Nat := 124

def identity (hex : JsValue) (what : JsString) : Except JsError Bytes := do
  let shown ← hex.toText
  match hex with
  | .string s =>
    if shown.take 2 == js "0x" && (shown.drop 2).all isHexUnit && s.length == 2 + 2 * identityBytes then
      fromHex (toLowerCase (s.drop 2))
    else fail (what ++ js " is not a 124-byte signer identity")
  | _ => fail (what ++ js " is not a 124-byte signer identity")

def padded (data : Bytes) : Bytes :=
  data ++ List.replicate ((data.length + 31) / 32 * 32 - data.length) 0

-- The loop of `encodeBytesArray`: the offsets and the bodies of the items from here on
def encodeItems : List Bytes → (position : Nat) → Except JsError (List Bytes × List Bytes)
  | [], _ => .ok ([], [])
  | item :: rest, position => do
    let offset ← word position uint256Max (js "offset")
    let body := (← word item.length uint256Max (js "length")) ++ padded item
    let (offsets, bodies) ← encodeItems rest (position + body.length)
    return (offset :: offsets, body :: bodies)

def encodeBytesArray (items : List Bytes) : Except JsError Bytes := do
  let (offsets, bodies) ← encodeItems items (32 * items.length)
  return (← word 32 uint256Max (js "offset")) ++ (← word items.length uint256Max (js "length")) ++ offsets.flatten ++
    bodies.flatten

-- `hexes.map((h, i) => identity(h, what + (i + 1)))`
def identities (hexes : JsValue) (what : String) : Except JsError (List Bytes) :=
  match hexes with
  | .array items => items.zipIdx.mapM fun (hex, i) => identity hex (js what ++ utf16 (natText (i + 1)))
  | _ => .error .typeError

-- `!Number.isSafeInteger(threshold) || threshold < 1 || threshold > MAX_THRESHOLD`, refused
def isThreshold : JsValue → Bool
  | .number (.finite value) =>
    (JsNumber.finite value).isSafeInteger && 1 ≤ value.num && value.num ≤ maxThreshold
  | _ => false

def reconfigureDigest (inputs : JsValue) : Except JsError Bytes := do
  let threshold ← inputs.get "threshold"
  if !isThreshold threshold then fail (js "threshold must be between 1 and 8")
  else
    let add ← identities (inputs.own "add") "added signer "
    let remove ← identities (inputs.own "remove") "removed signer "
    let chainId ← integer (inputs.own "chain_id") uint256Max (js "chain_id")
    let treasury ← address (inputs.own "treasury") (js "treasury")
    let configNonce ← integer (inputs.own "config_nonce") uint256Max (js "config_nonce")
    let add ← encodeBytesArray add
    let remove ← encodeBytesArray remove
    let threshold ← integer threshold uint64Max (js "threshold")
    let validUntil ← integer (inputs.own "valid_until") uint64Max (js "valid_until")
    return keccak256 (reconfigureTag keccak256 ++ chainId ++ treasury ++ configNonce ++ keccak256 add ++
      keccak256 remove ++ threshold ++ validUntil)

end Digests

end QVault.Mobile
