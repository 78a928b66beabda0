import QVault.Mobile.Detail

/-!
# Whether a decision is what it says

`mobile/src/checks.ts`, the guards of `flows.ts`, and the memory of `logic/signedContent.ts`.
`verifyTypedDecision` is a parameter: what it makes of the type and the fields beside the signed
text, or none where they do not write that text.
-/

namespace QVault.Mobile
open Python

inductive MismatchReason
  | hash | paymentText | displayText | displayPolicy | typeText | changed | otherDecision | raised
  deriving DecidableEq

-- `PayloadMismatchError`, or whatever else a check throws
inductive GuardError
  | mismatch (expected actual : JsString) (reason : MismatchReason)
  | thrown (error : JsError)

-- The type a signed text bears out, and the lines of its card
structure Typed where
  type : Option JsString
  rows : Option (List (JsString × JsString))

-- Whether a payment's text is the one its action writes
def describes (inputs : SigningInputs) : Except GuardError Bool :=
  match inputs.action with
  | some action => ((paymentText action.value).mapError .thrown).map fun written => some inputs.actionText == written
  | none => .ok true

-- What is shown against what is signed
def displayRefusal (detail : ProposalDetail) (described : Bool) : Option MismatchReason :=
  if !described then some .paymentText
  else if detail.actionText ≠ detail.signingInputs.actionText then some .displayText
  else if detail.requiredM ≠ detail.signingInputs.M ∨ detail.requiredN ≠ detail.signingInputs.N then some .displayPolicy
  else none

section Checks
variable (engineSort : List JsValue → Except JsError (List JsValue)) (sha256 : Bytes → Bytes)
  (verifyTypedDecision : ProposalDetail → Option Typed)

def verifyProposalIntegrity (detail : ProposalDetail) : Except GuardError JsString := do
  let recomputed ← (payloadHash engineSort sha256 detail.signingInputs.value).mapError .thrown
  if recomputed ≠ detail.payloadHash then .error (.mismatch detail.payloadHash recomputed .hash)
  else
    let described ← describes detail.signingInputs
    match displayRefusal detail described with
    | some reason => .error (.mismatch detail.payloadHash recomputed reason)
    | none => .ok recomputed

inductive Checked
  | genuine (hash : JsString) (typed : Typed)
  | failed (reason : MismatchReason) (expected actual : JsString)

-- The hash the phone derived
def Checked.derived : Checked → JsString
  | genuine hash _ => hash
  | failed _ _ actual => actual

def checkDecision (detail : ProposalDetail) : Checked :=
  match verifyProposalIntegrity engineSort sha256 detail with
  | .error (.mismatch expected actual reason) => .failed reason expected actual
  | .error (.thrown _) => .failed .hash detail.payloadHash (js "(not derived)")
  | .ok hash =>
    match verifyTypedDecision detail with
    | none => .failed .typeText detail.payloadHash hash
    | some typed => .genuine hash typed

/-! ## Signed content over one run of the app -/

-- `JSON.stringify` of a number
def stringifyNumber (n : JsNumber) : JsString := if n.isFinite then utf16 n.toText else js "null"

-- The order of `sort()`, by code unit
def unitsLe : JsString → JsString → Bool
  | [], _ => true
  | _ :: _, [] => false
  | a :: as, b :: bs => if a = b then unitsLe as bs else a < b

def sortKeys {α : Type} (fields : List (JsString × α)) : List (JsString × α) :=
  fields.insertionSort fun a b => unitsLe a.1 b.1

-- `stable`
mutual
def stable : JsValue → JsString
  | .array items => js "[" ++ (js ",").intercalate (stableItems items) ++ js "]"
  | .object fields =>
    js "\x7b" ++ (js ",").intercalate ((sortKeys (stableFields fields)).map fun f => stringify f.1 ++ js ":" ++ f.2) ++
      js "\x7d"
  | .null => js "null"
  | .bool b => js (if b then "true" else "false")
  | .number n => stringifyNumber n
  | .string s => stringify s
  | .undefined => js "undefined"

def stableItems : List JsValue → List JsString
  | [] => []
  | x :: xs => stable x :: stableItems xs

def stableFields : List (JsString × JsValue) → List (JsString × JsString)
  | [] => []
  | (key, value) :: rest => (key, stable value) :: stableFields rest
end

def signedContentKey (signingInputs : JsValue) (derivedHash : JsString) : JsString :=
  derivedHash ++ js "|" ++ stable signingInputs

inductive Seen
  | first | same | changed
  deriving DecidableEq

-- `SignedContentMemory`, by the uuid a decision was opened under
structure Memory where
  first : JsString → Option JsString
  changed : JsString → Bool

namespace Memory
variable (memory : Memory)

def empty : Memory := ⟨fun _ => none, fun _ => false⟩

def markChanged (uuid : JsString) : Memory :=
  { memory with changed := Function.update memory.changed uuid true }

def see (uuid key : JsString) : Seen × Memory :=
  if memory.changed uuid then (.changed, memory)
  else match memory.first uuid with
    | none => (.first, { memory with first := Function.update memory.first uuid (some key) })
    | some earlier => if earlier ≠ key then (.changed, memory.markChanged uuid) else (.same, memory)

end Memory

def checkInRun (memory : Memory) (detail : ProposalDetail) (route : JsString) : Checked × Memory :=
  let checked := checkDecision engineSort sha256 verifyTypedDecision detail
  let derived := checked.derived
  if detail.proposalUuid ≠ route ∨ detail.signingInputs.proposalId ≠ route then
    (.failed .otherDecision detail.payloadHash derived, memory.markChanged route)
  else
    let (seen, memory) := memory.see route (signedContentKey detail.signingInputs.value derived)
    if seen = .changed then (.failed .changed detail.payloadHash derived, memory) else (checked, memory)

end Checks

/-! ## Payments -/

inductive ApprovalError
  | digest (claimed : Option JsString) (ours : JsString)
  | notThisPhonesSeat (seat : Option JsString)
  | thrown (error : JsError)

inductive Choice
  | approve | reject
  deriving DecidableEq

-- What an approval of a payment also signs, none for every other vote
def paymentApproval (keccak256 : Bytes → Bytes) (detail : ProposalDetail) (payloadHash : JsString) (decision : Choice)
    (fingerprint : JsString) : Except ApprovalError (Option Bytes) :=
  match detail.signingInputs.action, decision with
  | some action, .approve => do
    let ours ← (executionDigest keccak256 payloadHash action.value).mapError .thrown
    let theirs := detail.execution.bind (·.digest)
    if theirs ≠ some (utf16 (hexText ours)) then throw (.digest theirs (utf16 (hexText ours)))
    else
      let seat := detail.execution.bind (·.seatFingerprint)
      if seat ≠ some fingerprint then throw (.notThisPhonesSeat seat) else return some ours
  | _, _ => return none

end QVault.Mobile
