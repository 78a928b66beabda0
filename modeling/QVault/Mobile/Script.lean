import QVault.Python.Json

/-!
# JavaScript values

What the phone's code computes with. A string is a list of UTF-16 code units, and a number is its
exact value; the two zeros are one number here, since the program writes both as `0`. The values are
those `JSON.parse` returns, and `undefined`.
-/

namespace QVault.Mobile
open Python

abbrev CodeUnit := Fin 0x10000
abbrev JsString := List CodeUnit

instance codeUnits_nonempty : NeZero 0x10000 := ⟨by decide⟩

def isHigh (u : CodeUnit) : Bool := 0xD800 ≤ u.val && u.val ≤ 0xDBFF
def isLow (u : CodeUnit) : Bool := 0xDC00 ≤ u.val && u.val ≤ 0xDFFF

-- The code units of a code point
def units (c : CodePoint) : JsString :=
  if c.val < 0x10000 then [Fin.ofNat _ c.val]
  else
    [Fin.ofNat _ (0xD800 + (c.val - 0x10000) / 0x400), Fin.ofNat _ (0xDC00 + (c.val - 0x10000) % 0x400)]

def utf16 (t : Text) : JsString := t.flatMap units

def js (s : String) : JsString := utf16 (text s)

-- How `for (const ch of value)` walks a string: a surrogate without its other half stands alone.
def codePoints : JsString → Text
  | [] => []
  | [u] => [Fin.ofNat _ u.val]
  | u :: v :: rest =>
    if isHigh u && isLow v then
      Fin.ofNat _ (0x10000 + (u.val - 0xD800) * 0x400 + (v.val - 0xDC00)) :: codePoints rest
    else Fin.ofNat _ u.val :: codePoints (v :: rest)

inductive JsNumber
  | finite (value : Rat)
  | infinite (negative : Bool)
  | nan
  deriving DecidableEq

inductive JsValue
  | undefined
  | null
  | bool (b : Bool)
  | number (n : JsNumber)
  | string (s : JsString)
  | array (items : List JsValue)
  | object (fields : List (JsString × JsValue))

-- `throw new Error(message)`, or what the engine throws itself
inductive JsError
  | error (message : JsString)
  | typeError
  | syntaxError
  deriving DecidableEq

def fail {α : Type} (message : JsString) : Except JsError α := .error (.error message)

namespace JsNumber

def isFinite : JsNumber → Bool
  | finite _ => true
  | _ => false

-- `Number.isInteger`
def isInteger : JsNumber → Bool
  | finite value => value.den == 1
  | _ => false

def maxSafe : Nat := 2 ^ 53 - 1

-- `Number.isSafeInteger`
def isSafeInteger : JsNumber → Bool
  | finite value => value.den == 1 && value.num.natAbs ≤ maxSafe
  | _ => false

def ofInt (n : Int) : JsNumber := finite n

-- The shortest digits of a double, with the decimal point where `Number.prototype.toString` puts it
def digitsText (digits : Text) (point : Int) : Text :=
  let count : Int := digits.length
  if count ≤ point ∧ point ≤ 21 then digits ++ List.replicate (point - count).toNat (digitChar 0)
  else if 0 < point ∧ point ≤ 21 then digits.take point.toNat ++ text "." ++ digits.drop point.toNat
  else if -6 < point ∧ point ≤ 0 then text "0." ++ List.replicate point.natAbs (digitChar 0) ++ digits
  else
    let exponent := point - 1
    digits.take 1 ++ (if digits.length ≤ 1 then [] else text "." ++ digits.drop 1) ++
      text (if exponent < 0 then "e-" else "e+") ++ natText exponent.natAbs

-- `String(n)`. A safe integer is written with its own digits.
def toText : JsNumber → Text
  | nan => text "NaN"
  | infinite negative => text (if negative then "-Infinity" else "Infinity")
  | finite value =>
    if isSafeInteger (finite value) then intText value.num
    else match (Binary64.round false |value|).shortest.map Json.floatDigits with
      | none => []
      | some (digits, point) => (if value < 0 then text "-" else []) ++ digitsText digits point

end JsNumber

namespace JsValue

-- `===`. Two arrays or objects of one answer are never the same one.
def same : JsValue → JsValue → Bool
  | undefined, undefined | null, null => true
  | bool a, bool b => a == b
  | number a, number b => a == b && a != .nan
  | string s, string t => s == t
  | _, _ => false

def lookup (key : JsString) : List (JsString × JsValue) → Option JsValue
  | [] => none
  | (k, v) :: rest => if k = key then some v else lookup key rest

def isNullish : JsValue → Bool
  | undefined | null => true
  | _ => false

-- What is at a key that nothing inherits
def own (value : JsValue) (key : String) : JsValue :=
  match value with
  | object fields => (lookup (js key) fields).getD undefined
  | _ => undefined

-- `value.key`
def get (value : JsValue) (key : String) : Except JsError JsValue :=
  if value.isNullish then .error .typeError else .ok (value.own key)

-- `String(value)`. No value of an answer is a function, so an own `toString` makes it throw.
mutual
def toText : JsValue → Except JsError JsString
  | undefined => .ok (js "undefined")
  | null => .ok (js "null")
  | bool b => .ok (js (if b then "true" else "false"))
  | number n => .ok (utf16 n.toText)
  | string s => .ok s
  | array items => do return (js ",").intercalate (← itemTexts items)
  | object fields =>
    if fields.any (·.1 == js "toString") then .error .typeError else .ok (js "[object Object]")

def itemTexts : List JsValue → Except JsError (List JsString)
  | [] => .ok []
  | x :: rest => do
    let first ← if x.isNullish then .ok [] else toText x
    return first :: (← itemTexts rest)
end

end JsValue

/-! ## What the phone reads of a text the server wrote -/

def readNumber (x : Binary64) : JsNumber :=
  if x.isNan then .nan else if x.isFinite then .finite x.toRat else .infinite x.negative

-- An integer that is not safe is rounded to a double.
def readInt (n : Int) : JsNumber :=
  if n.natAbs ≤ JsNumber.maxSafe then .ofInt n else readNumber (Binary64.round (n < 0) n.natAbs)

mutual
def parsed : Json → JsValue
  | .null => .null
  | .bool b => .bool b
  | .int n => .number (readInt n)
  | .float x => .number (readNumber x)
  | .str s => .string (utf16 s)
  | .list items => .array (parsedItems items)
  | .dict fields => .object (parsedFields fields)

def parsedItems : List Json → List JsValue
  | [] => []
  | x :: xs => parsed x :: parsedItems xs

def parsedFields : List (Text × Json) → List (JsString × JsValue)
  | [] => []
  | (key, value) :: rest => (utf16 key, parsed value) :: parsedFields rest
end

end QVault.Mobile
