import QVault.Services.DecisionTypes
import QVault.Services.Signing

/-!
# The text of a typed decision

`field_rows`, `decision_text`, `field_problems` and `typed_view` of `qvault/services/decision_types.py`.
-/

namespace QVault.DecisionTypes
open Python Json

-- `fields[key]` of fields that passed `check_fields`
def textOf (fields : List (Text × Json)) (key : Text) : Text :=
  match get fields key with
  | .str value => value
  | _ => []

-- `ACCESS_LEVELS` of a level: the label on its line, and the words in the sentence
def levelWords (level : Text) : Text × Text :=
  if level = text "read" then ("Read-only", "read-only")
  else if level = text "write" then ("Read and write", "read and write")
  else ("Administrator", "administrator")

-- The loop of `_grouped`, with fuel for each digit
def groups : (fuel : Nat) → Text → List Text
  | 0, whole => [whole]
  | fuel + 1, whole =>
    if 3 < whole.length then groups fuel (whole.take (whole.length - 3)) ++ [whole.drop (whole.length - 3)] else [whole]

def grouped (amount : Text) : Text :=
  let whole := amount.takeWhile (· != codePoint '.')
  let fraction := (amount.dropWhile (· != codePoint '.')).drop 1
  (text ",").intercalate (groups whole.length whole) ++ if fraction.isEmpty then [] else codePoint '.' :: fraction

def rowValue (fields : List (Text × Json)) (spec : Spec) : Option Text :=
  if !given fields spec.key then none
  else
    let value := textOf fields spec.key
    match spec.kind with
    | .choice => some (levelWords value).1
    | .datetime => some (value ++ text " UTC")
    | .amount => some (textOf fields "currency" ++ text " " ++ grouped value)
    -- It is written with the amount.
    | .currency => none
    | .text | .date => some value

-- `field_rows`
def fieldRows (specs : List Spec) (fields : List (Text × Json)) : List (Text × Text) :=
  specs.filterMap fun spec => (rowValue fields spec).map fun value => (spec.label, value)

def accessLine (fields : List (Text × Json)) : Text :=
  text "Grant “" ++ textOf fields "person" ++ text "” " ++ (levelWords (textOf fields "level")).2 ++ text " access to “" ++
    textOf fields "system" ++ text "” until " ++ textOf fields "until" ++ text " UTC."

def contractLine (fields : List (Text × Json)) : Text :=
  let value :=
    if given fields "amount" then text " for " ++ textOf fields "currency" ++ text " " ++ grouped (textOf fields "amount")
    else []
  text "Sign the contract with “" ++ textOf fields "counterparty" ++ text "”" ++ value ++ text "."

def firstLine (decisionType : Json) (fields : List (Text × Json)) : Text :=
  if eq decisionType "access" then accessLine fields else contractLine fields

def rowLine (row : Text × Text) : Text := row.1 ++ text ": " ++ row.2

def decisionText (decisionType fields version : Json) : Option Text :=
  if eq decisionType "payment" then Services.paymentText fields
  else if checkFields decisionType fields version ≠ none then none
  else
    match specsOf decisionType, fields with
    | some specs, .dict fields =>
      some ((text "\n").intercalate (firstLine decisionType fields :: (fieldRows specs fields).map rowLine))
    | _, _ => none

/-! ## The problems of a form -/

section FieldProblems
variable (casing : Casing)

-- The loop of `field_problems`
def problemsOf (decisionType : Text) (labels : List Text) (raw : List (Text × Json)) :
    List Spec → Except PyError (List (Text × Text))
  | [] => .ok []
  | spec :: rest => do
    let value ← forgiven casing spec (get raw spec.key)
    let problems ← problemsOf decisionType labels raw rest
    match fieldProblem spec labels value with
    | some code => return (spec.key, message decisionType ⟨some spec.key, code⟩) :: problems
    | none => return problems

def fieldProblems (decisionType : Text) (raw : Json) : Except PyError (List (Text × Text)) :=
  match specsNamed decisionType, raw with
  | some specs, .dict raw => problemsOf casing decisionType (specs.map (·.label)) raw specs
  | _, _ => .ok []

end FieldProblems

/-! ## A stored decision's type -/

-- A row of `decision_fields`
structure StoredFields where
  decisionType : Text
  templateVersion : Int
  fieldsJson : Text

def StoredFields.fields (stored : StoredFields) : Option (List (Text × Json)) :=
  match loads stored.fieldsJson with
  | .ok (.dict fields) => some fields
  | _ => none

structure TypedView where
  type : Text
  fields : Option (List (Text × Json))
  rows : List (Text × Text)
  version : Option Int
  mismatch : Bool

-- `typed_view` of a decision with a payment or not, its text, and the row of its fields
def typedView (carriesPayment : Bool) (actionText : Text) (stored : Option StoredFields) : Except PyError TypedView :=
  if carriesPayment then .ok ⟨text "payment", none, [], none, false⟩
  else
    match stored with
    | none => .ok ⟨text "general", none, [], none, false⟩
    | some stored =>
      let fields := (stored.fields.map Json.dict).getD .null
      if decisionText (.str stored.decisionType) fields (.int stored.templateVersion) ≠ some actionText then
        .ok ⟨text "general", none, [], none, true⟩
      else
        match specsNamed stored.decisionType, stored.fields with
        | some specs, some fields => .ok ⟨stored.decisionType, some fields, fieldRows specs fields, some stored.templateVersion, false⟩
        -- `SPECS` has no payment.
        | _, _ => .error .keyError

end QVault.DecisionTypes
