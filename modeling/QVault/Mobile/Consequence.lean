import QVault.Mobile.Script
import QVault.Services.Inbox

/-!
# What the phone says a decision's state is, and what a signature will do

`mobile/src/status.ts` and `mobile/src/logic/consequence.ts`. The phone has the rule and the counts;
its own time is in milliseconds.
-/

namespace QVault.Mobile
open Python Services

-- `parseInstant` of what `isoformat` writes, which keeps the milliseconds of an instant
def parseInstant (expiresAt : Option Int) : Option Int := expiresAt.map (· / 1000)

structure StatusFacts where
  status : JsString
  expiresAt : Option Int
  approvals : Int
  rejections : Int
  requiredM : Int
  requiredN : Int

-- The fields of an answer that `StatusFacts` names
def statusFacts (facts : ProposalSummary) : StatusFacts where
  status := utf16 facts.status
  expiresAt := facts.expiresAt
  approvals := facts.approvals
  rejections := facts.rejections
  requiredM := facts.requiredM
  requiredN := facts.requiredN

def decisionStatus (facts : StatusFacts) (now : Int) : JsString :=
  if facts.status ≠ js "open" then facts.status
  else match parseInstant facts.expiresAt with
    | none => js "open"
    | some deadline =>
      if now ≤ deadline then js "open"
      else if facts.requiredM ≤ facts.approvals then js "approved"
      else if facts.requiredN - facts.requiredM < facts.rejections then js "rejected"
      else js "expired"

inductive RuleOutcome
  | approved | rejected | «open»
  deriving DecidableEq

def ruleOutcome (M N approvals rejections : Int) : RuleOutcome :=
  if M ≤ approvals then .approved else if N - M < rejections then .rejected else .open

def numberWords : List JsString :=
  ["zero", "one", "two", "three", "four", "five", "six", "seven", "eight", "nine", "ten"].map js

def countWord (n : Int) : JsString :=
  match n with
  | .ofNat count => numberWords[count]?.getD (utf16 (intText n))
  | .negSucc _ => utf16 (intText n)

structure ApproveInput where
  M : Int
  approvals : Int
  isPayment : Bool
  amount : Option JsString
  pastPayBy : Bool

-- What the sentence says: the one on a payment that cannot be paid any more, the one on a payment,
-- and the one on anything else.
inductive ApproveSentence
  | unpayable (completes : Bool) (yours M : Int)
  | pays (amount : JsString)
  | willPay (yours M : Int)
  | completesRule
  | counts (yours M : Int)

def numbered (yours M : Int) : JsString :=
  js "Yours will be approval " ++ utf16 (intText yours) ++ js " of " ++ utf16 (intText M)

namespace ApproveSentence

def completes : ApproveSentence → Bool
  | unpayable completes _ _ => completes
  | pays _ | completesRule => true
  | willPay _ _ | counts _ _ => false

def text : ApproveSentence → JsString
  | unpayable completes yours M =>
    (if completes then js "Yours is the last approval" else numbered yours M) ++
      js ", but the time the treasury allows for this payment has passed, so it won't be paid."
  | pays amount =>
    js "Yours is the last approval, so the treasury pays " ++ amount ++
      js " to the address above within a few minutes, and a payment can't be reversed."
  | willPay yours M =>
    numbered yours M ++ js "; the treasury pays once " ++ utf16 (intText M) ++
      js " approve, and you can't withdraw it."
  | completesRule =>
    js "Yours completes the rule, so this is approved as soon as you sign, and you can't withdraw it."
  | counts yours M => numbered yours M ++ js "."

end ApproveSentence

def approveConsequence (input : ApproveInput) : ApproveSentence :=
  let yours := input.approvals + 1
  let completes := input.M ≤ yours
  if input.isPayment && input.pastPayBy then .unpayable completes yours input.M
  else if input.isPayment then
    if completes then .pays (input.amount.getD (js "it")) else .willPay yours input.M
  else if completes then .completesRule
  else .counts yours input.M

structure RejectInput where
  M : Int
  N : Int
  approvals : Int
  rejections : Int
  pastPayBy : Bool

inductive RejectSentence
  | ends
  | needs (k left : Int) (pastPayBy : Bool)
  deriving DecidableEq

namespace RejectSentence

def text : RejectSentence → JsString
  | ends => js "Your rejection ends this decision for everyone, and you can't withdraw it."
  | needs k left pastPayBy =>
    let rejected := js "This is rejected only if " ++ countWord k ++ js " more " ++
      (if k = 1 then js "rejects" else js "reject") ++ js " it"
    if pastPayBy then rejected ++ js "."
    else rejected ++ js "; if " ++ countWord left ++ js " more " ++
      (if left = 1 then js "approves" else js "approve") ++ js ", it passes."

end RejectSentence

def rejectConsequence (input : RejectInput) : RejectSentence :=
  if input.N - input.M < input.rejections + 1 then .ends
  else .needs (input.N - input.M + 1 - (input.rejections + 1)) (input.M - input.approvals) input.pastPayBy

-- What the sheet gives them of the decision it shows
def approveInput (facts : StatusFacts) (isPayment : Bool) (amount : Option JsString) (pastPayBy : Bool) :
    ApproveInput :=
  ⟨facts.requiredM, facts.approvals, isPayment, amount, pastPayBy⟩

def rejectInput (facts : StatusFacts) (pastPayBy : Bool) : RejectInput :=
  ⟨facts.requiredM, facts.requiredN, facts.approvals, facts.rejections, pastPayBy⟩

end QVault.Mobile
