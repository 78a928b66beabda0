import QVault.Mobile.Canonical
import QVault.Crypto

/-!
# The bytes the phone signs

`mobile/src/crypto/signing.ts` and the statement of `pairing.ts`. What a function takes from an answer
of the server is any value; `engineSort` is the order the engine gives a list of signers that are not
all numbers, which the language leaves open.
-/

namespace QVault.Mobile
open Python JsValue

-- `domainSeparated`
def domainSeparated (tag : String) (body : JsValue) : Except JsError Bytes := do
  return utf8Encode (js tag) ++ utf8Encode (js "|") ++ (← canonicalJson body)

def isDigitUnit (u : CodeUnit) : Bool := 48 ≤ u.val && u.val ≤ 57

-- `/^(0|[1-9][0-9]*)$/`
def isDecimal (s : JsString) : Bool :=
  s == js "0" || (!s.isEmpty && s.all isDigitUnit && s.head? != (js "0").head?)

-- `BigInt` of decimal digits
def decimalValue (digits : JsString) : Nat := digits.foldl (fun n u => 10 * n + (u.val - 48)) 0

/-! ## Payments -/

-- `NETWORKS`
def network (chainId : JsValue) : Option JsString :=
  if chainId.same (.number (.ofInt 11155111)) then some (js "Sepolia") else none

def weiPerEth : Nat := 10 ^ 18

def padStart (width : Nat) (digits : JsString) : JsString :=
  List.replicate (width - digits.length) (48 : CodeUnit) ++ digits

-- `replace(/0+$/, '')`
def dropZeros (digits : JsString) : JsString := (digits.reverse.dropWhile (· == 48)).reverse

def formatEth (valueWei : JsString) : JsString :=
  let wei := decimalValue valueWei
  let fraction := dropZeros (padStart 18 (utf16 (natText (wei % weiPerEth))))
  utf16 (natText (wei / weiPerEth)) ++ (if fraction.isEmpty then [] else js "." ++ fraction) ++ js " ETH"

def paymentText (action : JsValue) : Except JsError (Option JsString) := do
  let value ← action.get "value_wei"
  match value with
  | .string wei =>
    if 78 < wei.length || !isDecimal wei then return none
    else match network (action.own "chain_id"), action.own "treasury", action.own "to" with
      | some network, .string treasury, .string recipient =>
        return some (js "Pay " ++ formatEth wei ++ js " from this vault's treasury " ++ treasury ++ js " to " ++
          recipient ++ js " on " ++ network ++ js ".")
      | _, _, _ => return none
  | _ => return none

/-! ## Decisions -/

section Decisions
variable (engineSort : List JsValue → Except JsError (List JsValue))

def finite? : JsValue → Option Rat
  | .number (.finite value) => some value
  | _ => none

-- `[...signers].sort((a, b) => a - b)`
def sortSigners (signers : JsValue) : Except JsError (List JsValue) := do
  let items ← match signers with
    | .array items => .ok items
    | .string s => .ok ((codePoints s).map fun c => .string (units c))
    | _ => .error .typeError
  match items.mapM finite? with
  | some numbers => return (numbers.insertionSort (· ≤ ·)).map fun n => .number (.finite n)
  | none => engineSort items

def policyBody (policy : JsValue) : Except JsError JsValue := do
  return .object [(js "M", ← policy.get "M"), (js "N", ← policy.get "N"),
    (js "signers", .array (← sortSigners engineSort (← policy.get "signers")))]

-- A payment is copied field by field, so that nothing else of the object is signed.
def paymentBody (action : JsValue) : Except JsError JsValue := do
  return .object [(js "kind", ← action.get "kind"), (js "chain_id", ← action.get "chain_id"),
    (js "treasury", ← action.get "treasury"), (js "to", ← action.get "to"),
    (js "value_wei", ← action.get "value_wei"), (js "data", ← action.get "data"),
    (js "call_gas", ← action.get "call_gas"), (js "valid_until", ← action.get "valid_until"),
    (js "config_nonce", ← action.get "config_nonce")]

def proposalBody (inputs : JsValue) : Except JsError JsValue := do
  let fields := [(js "vault_id", ← inputs.get "vault_id"), (js "proposal_id", ← inputs.get "proposal_id"),
    (js "action_text", ← inputs.get "action_text"), (js "file_sha256", ← inputs.get "file_sha256"),
    (js "policy", ← policyBody engineSort (← inputs.get "policy")), (js "nonce", ← inputs.get "nonce"),
    (js "created_at", ← inputs.get "created_at")]
  match inputs.own "action" with
  | .undefined => return .object fields
  | action => return .object (fields ++ [(js "action", ← paymentBody action)])

def proposalSigningBytes (inputs : JsValue) : Except JsError Bytes := do
  domainSeparated "QVAULT-SIG-v1:PROPOSAL" (← proposalBody engineSort inputs)

-- `signingInputsToPayloadHash`
def payloadHash (sha256 : Bytes → Bytes) (inputs : JsValue) : Except JsError JsString := do
  return utf16 (hexText (sha256 (← proposalSigningBytes engineSort inputs)))

end Decisions

def voteSigningBytes (proposalPayloadHash decision : JsString) (signerId : JsValue) : Except JsError Bytes :=
  if decision ≠ js "approve" ∧ decision ≠ js "reject" then fail (js "invalid decision: " ++ decision)
  else domainSeparated "QVAULT-SIG-v1:VOTE"
    (.object [(js "proposal_payload_hash", .string proposalPayloadHash), (js "decision", .string decision),
      (js "signer_id", signerId)])

/-! ## Devices and recovery -/

def deviceEnrolmentBytes (userId : JsValue) (algId publicKeyB64 challenge : JsString) : Except JsError Bytes :=
  domainSeparated "QVAULT-SIG-v1:DEVICE-ENROL"
    (.object [(js "user_id", userId), (js "alg_id", .string algId), (js "public_key", .string publicKeyB64),
      (js "challenge", .string challenge)])

def devicePairingBytes (userId : JsValue) (pairingUuid algId publicKeyB64 pendingTokenDigest : JsString) :
    Except JsError Bytes :=
  domainSeparated "QVAULT-SIG-v1:DEVICE-PAIR"
    (.object [(js "user_id", userId), (js "pairing_uuid", .string pairingUuid), (js "alg_id", .string algId),
      (js "public_key", .string publicKeyB64), (js "pending_token_digest", .string pendingTokenDigest)])

-- `/^\d{4}-\d{2}-\d{2}T\d{2}:\d{2}:\d{2}Z$/`; a `d` of the pattern is any digit.
def isWholeSecondUtc (value : JsString) : Bool :=
  let pattern := js "dddd-dd-ddTdd:dd:ddZ"
  value.length == pattern.length &&
    (value.zip pattern).all fun (u, p) => if [p] = js "d" then isDigitUnit u else u == p

def recoveryBody (inputs : JsValue) : JsValue :=
  .object [(js "purpose", inputs.own "purpose"), (js "request_uuid", inputs.own "request_uuid"),
    (js "user_id", inputs.own "user_id"), (js "device_id", inputs.own "device_id"),
    (js "key_id", inputs.own "key_id"), (js "deployment", inputs.own "deployment"),
    (js "expires_at", inputs.own "expires_at")]

def recoverySigningBytes (inputs : JsValue) : Except JsError Bytes := do
  let purpose ← inputs.get "purpose"
  if !purpose.same (.string (js "web_reset")) && !purpose.same (.string (js "kit_confirm")) then
    fail (js "invalid recovery purpose: " ++ (← purpose.toText))
  else
    let expiresAt ← (inputs.own "expires_at").toText
    if !isWholeSecondUtc expiresAt then
      fail (js "expires_at must be whole-second ISO-8601 UTC ending Z: " ++ expiresAt)
    else domainSeparated "QVAULT-SIG-v1:RECOVERY" (recoveryBody inputs)

end QVault.Mobile
