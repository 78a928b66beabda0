import QVault.Mobile.Checks

/-!
# The approve and reject sheets

`mobile/src/signingSheet.ts` without the words on a sheet, and one run of the app: fetches, sheets
opened and sheets confirmed in any order. Values do not change, so `frozenCopy` is the value itself.
-/

namespace QVault.Mobile
open Python

-- The kinds of `Actions`
inductive Actions
  | sign | report | web | remind | raiseAgain | none
  deriving DecidableEq

structure Snapshot where
  kind : Choice
  uuid : JsString
  detail : ProposalDetail
  hash : JsString
  contentKey : JsString

inductive OpenRefusal
  | tampered | notOffered | seat | digest
  deriving DecidableEq

inductive ConfirmRefusal
  | changed | tampered | reasonMissing | reasonTooLong
  deriving DecidableEq

def reasonMax : Nat := 255

def stillOffered (kind : Choice) (actions : Actions) : Bool :=
  match kind with
  | .approve => actions = .sign
  | .reject => actions = .sign || actions = .web

section Sheets
variable (engineSort : List JsValue → Except JsError (List JsValue)) (sha256 keccak256 : Bytes → Bytes)
  (verifyTypedDecision : ProposalDetail → Option Typed)

def seatRefusal (kind : Choice) (detail : ProposalDetail) (hash fingerprint : JsString) : Option OpenRefusal :=
  if kind = .approve then
    match paymentApproval keccak256 detail hash .approve fingerprint with
    | .error (.notThisPhonesSeat _) => some .seat
    | .error _ => some .digest
    | .ok _ => none
  else none

def openSigningSheet (memory : Memory) (detail : ProposalDetail) (route : JsString) (kind : Choice) (actions : Actions)
    (fingerprint : JsString) : Except OpenRefusal Snapshot × Memory :=
  if !stillOffered kind actions then (.error (if actions = .report then .tampered else .notOffered), memory)
  else
    let (checked, memory) := checkInRun engineSort sha256 verifyTypedDecision memory detail route
    match checked with
    | .failed _ _ _ => (.error .tampered, memory)
    | .genuine hash _ =>
      match seatRefusal keccak256 kind detail hash fingerprint with
      | some refusal => (.error refusal, memory)
      | none =>
        let contentKey := signedContentKey detail.signingInputs.value hash
        (.ok { kind, uuid := detail.proposalUuid, detail, hash, contentKey }, memory)

-- Why the page's latest fetch stops a signature
def liveRefusal (memory : Memory) (snapshot : Snapshot) (live : ProposalDetail) : Option ConfirmRefusal × Memory :=
  if live.proposalUuid ≠ snapshot.uuid then (some .changed, memory)
  else
    match checkInRun engineSort sha256 verifyTypedDecision memory live snapshot.uuid with
    | (.failed _ _ _, memory) => (some .changed, memory)
    | (.genuine hash _, memory) =>
      (if signedContentKey live.signingInputs.value hash ≠ snapshot.contentKey then some .changed else none, memory)

def confirmReason (snapshot : Snapshot) (reason : JsString) : Except ConfirmRefusal (ProposalDetail × Option JsString) :=
  match snapshot.kind with
  | .approve => .ok (snapshot.detail, none)
  | .reject =>
    let text := trim reason
    if text = [] then .error .reasonMissing
    else if reasonMax < (codePoints text).length then .error .reasonTooLong
    else .ok (snapshot.detail, some text)

def confirmSigning (memory : Memory) (snapshot : Snapshot) (live : Option ProposalDetail) (reason : JsString) :
    Except ConfirmRefusal (ProposalDetail × Option JsString) × Memory :=
  let (refusal, memory) := match live with
    | some live => liveRefusal engineSort sha256 verifyTypedDecision memory snapshot live
    | none => (none, memory)
  match refusal with
  | some refusal => (.error refusal, memory)
  | none =>
    if memory.changed snapshot.uuid then (.error .changed, memory)
    else match checkDecision engineSort sha256 verifyTypedDecision snapshot.detail with
      | .failed _ _ _ => (.error .tampered, memory)
      | .genuine hash _ =>
        if hash ≠ snapshot.hash then (.error .tampered, memory) else (confirmReason snapshot reason, memory)

inductive ConfirmStep
  | ignore
  | notOffered
  | refused (refusal : ConfirmRefusal)
  | sign (detail : ProposalDetail) (reason : Option JsString)

-- A tap on the sign button: the page as it stands, and its latest fetch
structure Tap where
  inFlight : Bool
  isOpen : Bool
  actions : Actions
  live : Option ProposalDetail
  reason : JsString

def beginConfirm (memory : Memory) (snapshot : Option Snapshot) (tap : Tap) : ConfirmStep × Memory :=
  match snapshot with
  | none => (.ignore, memory)
  | some snapshot =>
    if tap.inFlight || !tap.isOpen then (.ignore, memory)
    else if !stillOffered snapshot.kind tap.actions then (.notOffered, memory)
    else match confirmSigning engineSort sha256 verifyTypedDecision memory snapshot tap.live tap.reason with
      | (.error refusal, memory) => (.refused refusal, memory)
      | (.ok (detail, reason), memory) => (.sign detail reason, memory)

/-! ## Runs -/

-- A sheet that was opened: under which route, with which decision, and what it froze
structure Sheet where
  route : JsString
  opened : ProposalDetail
  snapshot : Snapshot

structure App where
  memory : Memory
  sheets : List Sheet
  fetched : List (JsString × ProposalDetail)

def App.start : App := ⟨.empty, [], []⟩

inductive AppEvent
  | fetch (route : JsString) (detail : ProposalDetail)
  | openSheet (route : JsString) (detail : ProposalDetail) (kind : Choice) (actions : Actions) (fingerprint : JsString)
  | confirm (sheet : Nat) (tap : Tap)

def appStep (app : App) : AppEvent → App
  | .fetch route detail =>
    { app with
      memory := (checkInRun engineSort sha256 verifyTypedDecision app.memory detail route).2
      fetched := app.fetched ++ [(route, detail)] }
  | .openSheet route detail kind actions fingerprint =>
    match openSigningSheet engineSort sha256 keccak256 verifyTypedDecision app.memory detail route kind actions
        fingerprint with
    | (.error _, memory) => { app with memory }
    | (.ok snapshot, memory) => { app with memory, sheets := app.sheets ++ [⟨route, detail, snapshot⟩] }
  | .confirm sheet tap =>
    { app with
      memory := (beginConfirm engineSort sha256 verifyTypedDecision app.memory ((app.sheets[sheet]?).map (·.snapshot)) tap).2 }

end Sheets

end QVault.Mobile
