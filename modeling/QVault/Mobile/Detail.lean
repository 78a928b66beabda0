import QVault.Mobile.Execution

/-!
# Decisions as the phone reads them

What `api/schemas.ts` lets through of an answer: the signed inputs, which are strict, and of the rest
what the checks read.
-/

namespace QVault.Mobile
open Python

-- `z.number().int()`, which is a safe integer
abbrev SafeInt := { n : Int // n.natAbs ≤ JsNumber.maxSafe }

def SafeInt.value (n : SafeInt) : JsValue := .number (.ofInt n.val)

def optionValue : Option JsString → JsValue
  | some s => .string s
  | none => .null

-- `/^0x[0-9a-fA-F]{40}$/`
def isAddressText (s : JsString) : Bool :=
  s.take 2 == js "0x" && (s.drop 2).length == 40 && (s.drop 2).all isHexUnit

-- `paymentActionSchema`; its kind and its data are fixed.
structure PaymentAction where
  chainId : SafeInt
  treasury : { s : JsString // isAddressText s = true }
  recipient : { s : JsString // isAddressText s = true }
  valueWei : { s : JsString // isDecimal s = true }
  callGas : SafeInt
  validUntil : SafeInt
  configNonce : SafeInt
  counted : 0 ≤ configNonce.val

def PaymentAction.fields (action : PaymentAction) : List (JsString × JsValue) :=
  [(js "kind", .string (js "eth_transfer")), (js "chain_id", action.chainId.value),
    (js "treasury", .string action.treasury), (js "to", .string action.recipient),
    (js "value_wei", .string action.valueWei), (js "data", .string (js "0x")),
    (js "call_gas", action.callGas.value), (js "valid_until", action.validUntil.value),
    (js "config_nonce", action.configNonce.value)]

def PaymentAction.value (action : PaymentAction) : JsValue := .object action.fields

-- `signingInputsSchema`
structure SigningInputs where
  vaultId : SafeInt
  proposalId : JsString
  actionText : JsString
  fileSha256 : Option JsString
  M : SafeInt
  N : SafeInt
  signers : List SafeInt
  nonce : JsString
  createdAt : JsString
  action : Option PaymentAction

namespace SigningInputs
variable (inputs : SigningInputs)

def policyFields : List (JsString × JsValue) :=
  [(js "M", inputs.M.value), (js "N", inputs.N.value), (js "signers", .array (inputs.signers.map SafeInt.value))]

-- What every decision signs
def decisionFields : List (JsString × JsValue) :=
  [(js "vault_id", inputs.vaultId.value), (js "proposal_id", .string inputs.proposalId),
    (js "action_text", .string inputs.actionText), (js "file_sha256", optionValue inputs.fileSha256),
    (js "policy", .object inputs.policyFields), (js "nonce", .string inputs.nonce),
    (js "created_at", .string inputs.createdAt)]

def fields : List (JsString × JsValue) :=
  inputs.decisionFields ++ match inputs.action with
  | some action => [(js "action", action.value)]
  | none => []

def value : JsValue := .object inputs.fields

end SigningInputs

-- A payment's claims, which the phone checks and never signs
structure ExecutionClaim where
  digest : Option JsString
  seatFingerprint : Option JsString

-- `proposalDetail`. A type, its fields and its template version can be anything.
structure ProposalDetail where
  proposalUuid : JsString
  payloadHash : JsString
  actionText : JsString
  requiredM : SafeInt
  requiredN : SafeInt
  signingInputs : SigningInputs
  execution : Option ExecutionClaim
  decisionType : JsValue
  decisionFields : JsValue
  templateVersion : JsValue

end QVault.Mobile
