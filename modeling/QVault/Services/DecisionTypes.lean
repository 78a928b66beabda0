import QVault.Python.Loads

/-!
# Decision types

The fields of a typed decision: `check_fields` and `normalise` of `qvault/services/decision_types.py`.
-/

namespace QVault.DecisionTypes
open Python Json

inductive Kind
  | text | choice | datetime | date | amount | currency
  deriving DecidableEq

structure Spec where
  key : Text
  label : Text
  kind : Kind
  required : Bool
  maxLen : Nat

def templateVersion : Json := .int 1

def accessSpecs : List Spec :=
  [⟨"person", "Person", .text, true, 80⟩,
    ⟨"system", "System", .text, true, 80⟩,
    ⟨"level", "Access", .choice, true, 0⟩,
    ⟨"until", "Until", .datetime, true, 0⟩,
    ⟨"reason", "Reason", .text, true, 280⟩,
    ⟨"reference", "Reference", .text, false, 80⟩]

def contractSpecs : List Spec :=
  [⟨"counterparty", "Counterparty", .text, true, 120⟩,
    ⟨"subject", "Subject", .text, true, 280⟩,
    ⟨"amount", "Value", .amount, false, 0⟩,
    ⟨"currency", "Currency", .currency, false, 0⟩,
    ⟨"starts", "Starts", .date, false, 0⟩,
    ⟨"ends", "Ends", .date, false, 0⟩,
    ⟨"reference", "Reference", .text, false, 80⟩]

-- `SPECS.get(decision_type)` of a str
def specsNamed (decisionType : Text) : Option (List Spec) :=
  if decisionType = text "access" then some accessSpecs
  else if decisionType = text "contract" then some contractSpecs
  else none

-- `isinstance(decision_type, str)` and in `SPECS`
def specsOf : Json → Option (List Spec)
  | .str decisionType => specsNamed decisionType
  | _ => none

-- `ACCESS_LEVELS`
def accessLevels : List Text := ["read", "write", "admin"]

/-! ## Characters -/

def lineBreaks : List Nat := [0x0A, 0x0B, 0x0C, 0x0D, 0x85, 0x2028, 0x2029]

def hiddenRanges : List (Nat × Nat) :=
  [(0x0000, 0x001F), (0x007F, 0x009F), (0x00AD, 0x00AD), (0x034F, 0x034F), (0x061C, 0x061C), (0x115F, 0x1160),
    (0x17B4, 0x17B5), (0x180B, 0x180F), (0x200B, 0x200F), (0x202A, 0x202E), (0x2060, 0x206F), (0x3164, 0x3164),
    (0xD800, 0xDFFF), (0xE000, 0xF8FF), (0xFDD0, 0xFDEF), (0xFE00, 0xFE0F), (0xFEFF, 0xFEFF), (0xFFA0, 0xFFA0),
    (0xFFF0, 0xFFFF), (0x1BCA0, 0x1BCA3), (0x1D173, 0x1D17A), (0xE0000, 0xE0FFF), (0xF0000, 0x10FFFF)]

def doubleQuotes : List Nat :=
  [0x0022, 0x00AB, 0x00BB, 0x02BA, 0x02DD, 0x02EE, 0x05F4, 0x201C, 0x201D, 0x201E, 0x201F, 0x2033, 0x2036, 0x275D, 0x275E,
    0x2E42, 0x3003, 0x301D, 0x301E, 0x301F, 0xFF02, 0x1F676, 0x1F677, 0x1F678]

def singleQuotes : List Nat :=
  [0x0027, 0x0060, 0x00B4, 0x02B9, 0x02BB, 0x02BC, 0x02BD, 0x2018, 0x2019, 0x201A, 0x201B, 0x2032, 0x2035, 0x2039, 0x203A,
    0xFF07]

def otherSpace (cp : Nat) : Bool :=
  [0x00A0, 0x1680, 0x202F, 0x205F, 0x2800, 0x3000].contains cp || (0x2000 ≤ cp && cp ≤ 0x200A)

-- The last two code points of every plane are noncharacters.
def hidden (cp : Nat) : Bool :=
  cp % 0x10000 = 0xFFFE || cp % 0x10000 = 0xFFFF || hiddenRanges.any fun range => range.1 ≤ cp && cp ≤ range.2

/-! ## Dates -/

-- `0` stands for any digit.
def fits : Text → Text → Bool
  | [], [] => true
  | p :: pattern, c :: rest => (if p = codePoint '0' then isDigit c else c == p) && fits pattern rest
  | _, _ => false

def digitsAt (t : Text) (start stop : Nat) : Nat := digitsValue ((t.take stop).drop start)

def leap (year : Nat) : Bool := year % 4 = 0 && (year % 100 ≠ 0 || year % 400 = 0)

def monthDays (year month : Nat) : Nat :=
  match month with
  | 2 => if leap year then 29 else 28
  | 4 | 6 | 9 | 11 => 30
  | _ => 31

def realDate (t : Text) : Bool :=
  let year := digitsAt t 0 4
  let month := digitsAt t 5 7
  let day := digitsAt t 8 10
  2000 ≤ year && 1 ≤ month && month ≤ 12 && 1 ≤ day && day ≤ monthDays year month

/-! ## `check_fields` -/

inductive Code
  | missing | notText | tooLong | lineBreak | hiddenCharacter | spacing | quoteMark | labelInValue | choice | datetime | date
  | amount | currency | valuePair | order | unknownType | unknownVersion | notAnObject | unknownField
  deriving DecidableEq

structure Problem where
  field : Option Text
  code : Code
  deriving DecidableEq

-- The loop of `_text_problem`
def characterProblem : Bool → Text → Option Code
  | _, [] => none
  | afterSingle, c :: rest =>
    if lineBreaks.contains c.val then some .lineBreak
    else if hidden c.val then some .hiddenCharacter
    else if otherSpace c.val then some .spacing
    else if doubleQuotes.contains c.val || (afterSingle && singleQuotes.contains c.val) then some .quoteMark
    else characterProblem (singleQuotes.contains c.val) rest

def textProblem (value : Text) (maxLen : Nat) (labels : List Text) : Option Code :=
  match characterProblem false value with
  | some code => some code
  | none =>
    if value.head? = some (codePoint ' ') ∨ value.getLast? = some (codePoint ' ') ∨ text "  " <:+: value then some .spacing
    else if maxLen < value.length then some .tooLong
    else if labels.any fun label => decide (label ++ text ": " <:+: value) then some .labelInValue
    else none

-- `_AMOUNT`
def isAmount (t : Text) : Bool :=
  let whole := t.takeWhile isDigit
  let fraction := t.dropWhile isDigit
  (whole == text "0" || (1 ≤ whole.length && whole.length ≤ 15 && whole.head? != some (codePoint '0'))) &&
    (fraction.isEmpty ||
      (fraction.head? == some (codePoint '.') && 2 ≤ fraction.length && fraction.length ≤ 7 && (fraction.drop 1).all isDigit))

def isUpper (c : CodePoint) : Bool := 65 ≤ c.val && c.val ≤ 90

-- `_value_problem`
def valueProblem (spec : Spec) (value : Text) (labels : List Text) : Option Code :=
  match spec.kind with
  | .text => textProblem value spec.maxLen labels
  | .choice => if accessLevels.contains value then none else some .choice
  | .datetime =>
    if !fits (text "0000-00-00 00:00") value || !realDate (value.take 10) then some .datetime
    else if digitsAt value 11 13 ≤ 23 ∧ digitsAt value 14 16 ≤ 59 then none
    else some .datetime
  | .date => if fits (text "0000-00-00") value && realDate value then none else some .date
  -- Above zero: at least one digit that isn't 0.
  | .amount => if isAmount value && value.any (fun c => isDigit c && c != codePoint '0') then none else some .amount
  | .currency => if value.length = 3 ∧ value.all isUpper then none else some .currency

-- `value is None or value == ""`
def absent : Json → Bool
  | .null => true
  | .str value => value.isEmpty
  | _ => false

def given (fields : List (Text × Json)) (key : Text) : Bool := !absent (get fields key)

def fieldProblem (spec : Spec) (labels : List Text) (value : Json) : Option Code :=
  if absent value then if spec.required then some .missing else none
  else match value with
    | .str value => valueProblem spec value labels
    | _ => some .notText

-- `fields["ends"] < fields["starts"]`, of two strings
def endsFirst (fields : List (Text × Json)) : Bool :=
  match get fields "starts", get fields "ends" with
  | .str starts, .str ends => !Text.le starts ends
  | _, _ => false

def pairProblem (fields : List (Text × Json)) : Option Problem :=
  if given fields "amount" ≠ given fields "currency" then
    some ⟨some (if given fields "amount" then "currency" else "amount"), .valuePair⟩
  else if given fields "starts" && given fields "ends" && endsFirst fields then some ⟨some "ends", .order⟩
  else none

def firstProblem (labels : List Text) (fields : List (Text × Json)) : List Spec → Option Problem
  | [] => none
  | spec :: rest =>
    match fieldProblem spec labels (get fields spec.key) with
    | some code => some ⟨some spec.key, code⟩
    | none => firstProblem labels fields rest

def knownKeys (specs : List Spec) (fields : List (Text × Json)) : Bool :=
  fields.all fun entry => (specs.map (·.key)).contains entry.1

def specsProblem (decisionType : Json) (specs : List Spec) (fields : List (Text × Json)) : Option Problem :=
  if !knownKeys specs fields then some ⟨none, .unknownField⟩
  else
    match firstProblem (specs.map (·.label)) fields specs with
    | some problem => some problem
    | none => if eq decisionType "contract" then pairProblem fields else none

def isBool : Json → Bool
  | .bool _ => true
  | _ => false

def checkFields (decisionType fields version : Json) : Option Problem :=
  match specsOf decisionType with
  | none => some ⟨none, .unknownType⟩
  | some specs =>
    if !eq version templateVersion || isBool version then some ⟨none, .unknownVersion⟩
    else match fields with
      | .dict fields => specsProblem decisionType specs fields
      | _ => some ⟨none, .notAnObject⟩

/-! ## Messages -/

-- `FORM_LABELS`
def formLabel (decisionType field : Text) : Option Text :=
  if decisionType = text "access" then
    [(text "person", text "Who gets access"), ("system", "System"), ("level", "Access"), ("until", "Until"),
      ("reason", "Reason"), ("reference", "Ticket or reference")].lookup field
  else if decisionType = text "contract" then
    [(text "counterparty", text "Counterparty"), ("subject", "What it’s for"), ("amount", "Value"), ("currency", "Currency"),
      ("starts", "Starts"), ("ends", "Ends"), ("reference", "Contract reference")].lookup field
  else none

-- `MESSAGES`, with what `format` puts in them
def messageText (label : Text) (max : Nat) : Code → Text
  | .missing => label ++ text " is required."
  | .notText => label ++ text " must be text."
  | .tooLong => label ++ text " is limited to " ++ natText max ++ text " characters."
  | .lineBreak => label ++ text " must be one line."
  | .hiddenCharacter => label ++
      text " contains a character that doesn’t show on screen (a control, zero-width or direction character). Type it again without it."
  | .spacing => label ++ text " has extra or unusual spaces. Use single ordinary spaces between words."
  | .quoteMark => label ++
      text " can’t contain double quotation marks, or two single ones together: the decision’s text puts quotation marks around it."
  | .labelInValue => label ++
      text " can’t contain the name of a field followed by a colon (like “Reason: ”), because it would read as a line of its own."
  | .choice => "Choose read-only, read and write, or administrator."
  | .datetime => "Type it as 2026-11-04 17:00, in UTC."
  | .date => "Type it as 2027-01-31."
  | .amount => "Type an amount above zero like 48200.50, with at most 6 decimal places."
  | .currency => "Use a three-letter currency code, like GBP, EUR or USD."
  | .valuePair => "Give the value and its currency together, or neither."
  | .order => "It can’t end before it starts."
  | .unknownType => "Choose a type of decision."
  | .unknownVersion => "This kind of decision can’t be raised here."
  | .notAnObject => "Send the fields as an object."
  | .unknownField => "One of the fields isn’t one this type of decision has."

def message (decisionType : Text) (problem : Problem) : Text :=
  let spec := ((specsNamed decisionType).getD []).find? fun s => some s.key = problem.field
  let fallback := (spec.map (·.label)).getD []
  let label := (problem.field.bind (formLabel decisionType)).getD fallback
  messageText label ((spec.map (·.maxLen)).getD 0) problem.code

/-! ## Times -/

-- A `datetime` to the minute
structure Moment where
  year : Nat
  month : Nat
  day : Nat
  hour : Nat
  minute : Nat

-- `datetime.fromisoformat` of a day and a minute, none where it raises ValueError
def readMoment (day minute : Text) : Option Moment :=
  let m : Moment := ⟨digitsAt day 0 4, digitsAt day 5 7, digitsAt day 8 10, digitsAt minute 0 2, digitsAt minute 3 5⟩
  if 1 ≤ m.year ∧ 1 ≤ m.month ∧ m.month ≤ 12 ∧ 1 ≤ m.day ∧ m.day ≤ monthDays m.year m.month ∧ m.hour ≤ 23 ∧ m.minute ≤ 59
    then some m else none

-- Its zone, in minutes: less than a day either way, and the minutes of it may be 60 and more.
def readOffset (zone : Text) : Option Int :=
  let size : Int := 60 * digitsAt zone 1 3 + digitsAt zone 4 6
  let offset := if zone.head? = some (codePoint '-') then -size else size
  if -1440 < offset ∧ offset < 1440 then some offset else none

namespace Moment
variable (m : Moment)

def dayBefore : Option Moment :=
  if 1 < m.day then some { m with day := m.day - 1 }
  else if 1 < m.month then some { m with month := m.month - 1, day := monthDays m.year (m.month - 1) }
  else if 1 < m.year then some { m with year := m.year - 1, month := 12, day := 31 }
  else none

def dayAfter : Option Moment :=
  if m.day < monthDays m.year m.month then some { m with day := m.day + 1 }
  else if m.month < 12 then some { m with month := m.month + 1, day := 1 }
  else if m.year < 9999 then some { m with year := m.year + 1, month := 1, day := 1 }
  else none

def atMinute (minutes : Int) : Moment := { m with hour := (minutes / 60).toNat, minute := (minutes % 60).toNat }

-- `astimezone(UTC)`, none where it raises OverflowError
def toUtc (offset : Int) : Option Moment :=
  let minutes := (60 * m.hour + m.minute : Nat) - offset
  if minutes < 0 then m.dayBefore.map (·.atMinute (minutes + 1440))
  else if 1440 ≤ minutes then m.dayAfter.map (·.atMinute (minutes - 1440))
  else some (m.atMinute minutes)

-- `strftime("%Y-%m-%d %H:%M")`, which does not fill a year before 1000
def shown : Text :=
  natText m.year ++ text "-" ++ twoDigits m.month ++ text "-" ++ twoDigits m.day ++ text " " ++ twoDigits m.hour ++ text ":" ++
    twoDigits m.minute
where
  twoDigits (n : Nat) : Text := [digitChar (n / 10), digitChar (n % 10)]

end Moment

-- What `[+-][0-9]{2}:[0-9]{2}`, `Z` and `UTC` match, in either case
def isZone (zone : Text) : Bool :=
  [text "Z", "z"].contains zone ||
    (zone.length = 3 && ((zone.zip (text "UTC")).all fun (c, u) => c == u || c.val == u.val + 32)) ||
    ((zone.head? == some (codePoint '+') || zone.head? == some (codePoint '-')) && fits (text "00:00") (zone.drop 1))

-- The zone after the minute, empty where there is none
def zoneAfter (tail : Text) : Option Text :=
  if tail.isEmpty then some []
  else
    let zone := if tail.head? = some (codePoint ' ') then tail.drop 1 else tail
    if isZone zone then some zone else none

-- The groups of `_LOCAL_TIME`: the day, the minute and the zone
def localTime (t : Text) : Option (Text × Text × Text) :=
  let day := t.take 10
  let minute := (t.drop 11).take 5
  let tail := t.drop 16
  let tail := if tail.take 3 = text ":00" then tail.drop 3 else tail
  if fits (text "0000-00-00") day ∧ ([text "T", "t", " "].contains ((t.drop 10).take 1)) ∧ fits (text "00:00") minute then
    (zoneAfter tail).map fun zone => (day, minute, zone)
  else none

-- `zone and zone.upper() not in ("Z", "UTC")`
def hasOffset (zone : Text) : Bool := zone.head? = some (codePoint '+') || zone.head? = some (codePoint '-')

def utcMinute (value : Text) : Except PyError Text :=
  match localTime value with
  | none => .ok value
  | some (day, minute, zone) =>
    match readMoment day minute with
    | none => .ok value
    | some moment =>
      if hasOffset zone then
        match readOffset zone with
        | none => .ok value
        | some offset =>
          match moment.toUtc offset with
          | none => .error .overflowError
          | some utc => .ok utc.shown
      else .ok moment.shown

/-! ## `normalise` -/

-- `_THOUSANDS`
def isGrouped (t : Text) : Bool :=
  let whole := t.takeWhile (· != codePoint '.')
  let fraction := t.dropWhile (· != codePoint '.')
  let groups := whole.splitOn (codePoint ',')
  groups.all (fun group => group.all isDigit) && 2 ≤ groups.length && (groups.drop 1).all (fun group => group.length = 3) &&
    ((groups.head?.map (·.length)).any fun n => 1 ≤ n && n ≤ 3) &&
    (fraction.isEmpty || (2 ≤ fraction.length && (fraction.drop 1).all isDigit))

-- `str.lower` and `str.upper`, of which the program relies on what they do to ASCII
structure Casing where
  lower : Text → Text
  upper : Text → Text
  lower_ascii : ∀ t : Text, (∀ c ∈ t, c.val < 128) →
    lower t = t.map fun c => if 65 ≤ c.val ∧ c.val ≤ 90 then Fin.ofNat _ (c.val + 32) else c
  upper_ascii : ∀ t : Text, (∀ c ∈ t, c.val < 128) →
    upper t = t.map fun c => if 97 ≤ c.val ∧ c.val ≤ 122 then Fin.ofNat _ (c.val - 32) else c

inductive Raised
  | fieldsError (field : Option Text) (text : Text)
  | other (error : PyError)
  deriving DecidableEq

section Normalise
variable (casing : Casing)

-- `_forgiven` of a str
def forgivenText (kind : Kind) (value : Text) : Except PyError Text :=
  let value := strip value
  match kind with
  | .choice => .ok (casing.lower value)
  | .currency => .ok (casing.upper value)
  | .amount => .ok (if isGrouped value then value.filter (· != codePoint ',') else value)
  | .datetime => if value.isEmpty then .ok value else utcMinute value
  | .text | .date => .ok value

def forgiven (spec : Spec) : Json → Except PyError Json
  | .str value => (forgivenText casing spec.kind value).map .str
  | value => .ok value

def forgiveAll (raw : List (Text × Json)) : List Spec → Except PyError (List (Text × Json))
  | [] => .ok []
  | spec :: rest => do
    let value ← forgiven casing spec (get raw spec.key)
    let fields ← forgiveAll raw rest
    return if absent value then fields else (spec.key, value) :: fields

def normalise (decisionType raw : Json) : Except Raised (List (Text × Json)) :=
  match decisionType, specsOf decisionType with
  | .str name, some specs =>
    match raw with
    | .dict raw =>
      if !knownKeys specs raw then .error (.fieldsError none (messageText [] 0 .unknownField))
      else
        match forgiveAll casing raw specs with
        | .error error => .error (.other error)
        | .ok fields =>
          match checkFields (.str name) (.dict fields) templateVersion with
          | some problem => .error (.fieldsError problem.field (message name problem))
          | none => .ok fields
    | _ => .error (.fieldsError none (messageText [] 0 .notAnObject))
  | _, _ => .error (.fieldsError none (messageText [] 0 .unknownType))

end Normalise

end QVault.DecisionTypes
