import QVault.Crypto

/-!
# The bytes people sign

`qvault/services/signing.py`. The offline verifier calls the same functions on values of a bundle,
so their arguments are whatever `json.loads` can return.
-/

namespace QVault.Services
open Python Crypto

def proposalDs : Bytes := asciiBytes "QVAULT-SIG-v1:PROPOSAL"
def voteDs : Bytes := asciiBytes "QVAULT-SIG-v1:VOTE"

-- `sorted` of a list of ints, each of which may be a bool
def sortSigners (signers : List Json) : List Json :=
  signers.insertionSort fun a b => a.int?.getD 0 ≤ b.int?.getD 0

structure ProposalFields where
  vaultId : Json
  proposalUuid : Json
  actionText : Json
  fileSha256 : Json
  requiredM : Json
  requiredN : Json
  authorizedSigners : List Json
  nonceHex : Json
  createdAtIso : Json
  action : Json

def ProposalFields.policy (f : ProposalFields) : Json :=
  .dict [("M", f.requiredM), ("N", f.requiredN), ("signers", .list (sortSigners f.authorizedSigners))]

def ProposalFields.toJson (f : ProposalFields) : Json :=
  let fields : List (Text × Json) :=
    [("vault_id", f.vaultId), ("proposal_id", f.proposalUuid), ("action_text", f.actionText),
      ("file_sha256", f.fileSha256), ("policy", f.policy), ("nonce", f.nonceHex),
      ("created_at", f.createdAtIso)]
  match f.action with
  | .null => .dict fields
  | action => .dict (fields ++ [(text "action", action)])

def proposalSigningBytes (f : ProposalFields) : Except PyError Bytes := do
  return proposalDs ++ asciiBytes "|" ++ (← canonicalJson f.toJson)

-- `value in ("approve", "reject")`
def isDecision (value : Json) : Bool := value.eq "approve" || value.eq "reject"

def voteSigningBytes (proposalPayloadHash : Text) (decision signerId : Json) : Except PyError Bytes := do
  if !isDecision decision then throw .valueError
  else
    let body ← canonicalJson (.dict [("proposal_payload_hash", .str proposalPayloadHash),
      ("decision", decision), ("signer_id", signerId)])
    return voteDs ++ asciiBytes "|" ++ body

/-! ## Devices and recovery -/

def deviceEnrolDs : Bytes := asciiBytes "QVAULT-SIG-v1:DEVICE-ENROL"
def devicePairDs : Bytes := asciiBytes "QVAULT-SIG-v1:DEVICE-PAIR"
def recoveryDs : Bytes := asciiBytes "QVAULT-SIG-v1:RECOVERY"

structure EnrolmentFields where
  userId : Int
  algId : Text
  publicKeyB64 : Text
  challenge : Text

def EnrolmentFields.toJson (f : EnrolmentFields) : Json :=
  .dict [("user_id", .int f.userId), ("alg_id", .str f.algId), ("public_key", .str f.publicKeyB64),
    ("challenge", .str f.challenge)]

def deviceEnrolmentBytes (f : EnrolmentFields) : Except PyError Bytes := do
  return deviceEnrolDs ++ asciiBytes "|" ++ (← canonicalJson f.toJson)

structure PairingFields where
  userId : Int
  pairingUuid : Text
  algId : Text
  publicKeyB64 : Text
  pendingTokenDigest : Text

def PairingFields.toJson (f : PairingFields) : Json :=
  .dict [("user_id", .int f.userId), ("pairing_uuid", .str f.pairingUuid), ("alg_id", .str f.algId),
    ("public_key", .str f.publicKeyB64), ("pending_token_digest", .str f.pendingTokenDigest)]

def devicePairingBytes (f : PairingFields) : Except PyError Bytes := do
  return devicePairDs ++ asciiBytes "|" ++ (← canonicalJson f.toJson)

structure RecoveryFields where
  purpose : Text
  requestUuid : Text
  userId : Int
  deviceId : Int
  keyId : Int
  deployment : Text
  expiresAt : Text

def RecoveryFields.toJson (f : RecoveryFields) : Json :=
  .dict [("purpose", .str f.purpose), ("request_uuid", .str f.requestUuid), ("user_id", .int f.userId),
    ("device_id", .int f.deviceId), ("key_id", .int f.keyId), ("deployment", .str f.deployment),
    ("expires_at", .str f.expiresAt)]

-- `RECOVERY_PURPOSES`
def recoveryPurposes : List Text := ["web_reset", "kit_confirm"]

def isAsciiDigit (c : CodePoint) : Bool := 48 ≤ c.val && c.val ≤ 57

-- `_WHOLE_SECOND_UTC.fullmatch`; a `d` of the pattern is any digit.
def isWholeSecondUtc (value : Text) : Bool :=
  let pattern := text "dddd-dd-ddTdd:dd:ddZ"
  value.length == pattern.length &&
    (value.zip pattern).all fun (c, p) => if p = codePoint 'd' then isAsciiDigit c else c == p

def recoverySigningBytes (f : RecoveryFields) : Except PyError Bytes := do
  if f.purpose ∉ recoveryPurposes then throw .valueError
  else if !isWholeSecondUtc f.expiresAt then throw .valueError
  else return recoveryDs ++ asciiBytes "|" ++ (← canonicalJson f.toJson)

/-! ## Payments -/

-- `PAYMENT_NETWORKS`
def paymentNetwork (chainId : Int) : Option Text :=
  if chainId = 11155111 then some "Sepolia" else none

def weiPerEth : Nat := 10 ^ 18

def formatWei (valueWei : Nat) : Text :=
  let whole := natText (valueWei / weiPerEth)
  if valueWei % weiPerEth = 0 then whole ++ text " ETH"
  else
    let fraction := natText (valueWei % weiPerEth)
    let padded := List.replicate (18 - fraction.length) (digitChar 0) ++ fraction
    whole ++ text "." ++ (padded.reverse.dropWhile (· == digitChar 0)).reverse ++ text " ETH"

-- `int` of ASCII digits
def decimalValue (digits : Text) : Nat := digits.foldl (fun n c => 10 * n + (c.val - 48)) 0

def isWeiText (value : Text) : Bool :=
  0 < value.length && value.length ≤ 78 && value.all isAsciiDigit &&
    (value == text "0" || value.head? != some (digitChar 0))

def paymentText : Json → Option Text
  | .dict action =>
    match Json.get action "value_wei", Json.get action "chain_id", Json.get action "treasury",
        Json.get action "to" with
    | .str value, .int chain, .str treasury, .str recipient =>
      match paymentNetwork chain with
      | some network =>
        if isWeiText value then
          some (text "Pay " ++ formatWei (decimalValue value) ++ text " from this vault's treasury " ++
            treasury ++ text " to " ++ recipient ++ text " on " ++ network ++ text ".")
        else none
      | none => none
    | _, _, _, _ => none
  | _ => none

end QVault.Services
