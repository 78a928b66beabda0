import QVault.Python.Text
import QVault.Lib.Binary64
import Mathlib.Data.List.Sort

/-!
# JSON values as Python holds them

What `json.loads` returns, the comparisons Python makes of such values, `json.dumps` as
`canonical_json` calls it, and `json.loads` itself.
-/

namespace QVault.Python

inductive Json
  | null
  | bool (b : Bool)
  | int (n : Int)
  | float (x : Binary64)
  | str (s : Text)
  | list (items : List Json)
  | dict (fields : List (Text × Json))

namespace Json

instance : Inhabited Json := ⟨null⟩

instance : Coe String Json := ⟨fun s => str (text s)⟩

/-! ## Comparisons -/

inductive Number
  | int (n : Int)
  | float (x : Binary64)

-- A bool is an int.
def number? : Json → Option Number
  | bool b => some (.int (if b then 1 else 0))
  | int n => some (.int n)
  | float x => some (.float x)
  | _ => none

def Number.eq : Number → Number → Bool
  | .int m, .int n => m == n
  | .int m, .float y => y.isFinite && (m : Rat) == y.toRat
  | .float x, .int n => x.isFinite && x.toRat == (n : Rat)
  | .float x, .float y => x.eq y

def Number.lt : Number → Number → Bool
  | .int m, .int n => m < n
  | .int m, .float y => if y.isFinite then (m : Rat) < y.toRat else !y.isNan && !y.negative
  | .float x, .int n => if x.isFinite then x.toRat < (n : Rat) else !x.isNan && x.negative
  | .float x, .float y => x.lt y

def lookup (key : Text) : List (Text × Json) → Option Json
  | [] => none
  | (k, v) :: rest => if k = key then some v else lookup key rest

def bothNan : Json → Json → Bool
  | float x, float y => x.isNan && y.isNan
  | _, _ => false

-- `==`. Inside a container Python asks for identity first, and every NaN that `json.loads`
-- returns is one object.
mutual
def eq : Json → Json → Bool
  | null, null => true
  | str s, str t => s == t
  | list xs, list ys => xs.length == ys.length && eqItems xs ys
  | dict fs, dict gs => fs.length == gs.length && eqFields fs gs
  | bool b, other => numberEq (bool b) other
  | int n, other => numberEq (int n) other
  | float x, other => numberEq (float x) other
  | _, _ => false

def eqItems : List Json → List Json → Bool
  | x :: xs, y :: ys => (bothNan x y || eq x y) && eqItems xs ys
  | _, _ => true

def eqFields : List (Text × Json) → List (Text × Json) → Bool
  | [], _ => true
  | (key, value) :: rest, gs =>
    (match lookup key gs with
      | some other => bothNan value other || eq value other
      | none => false) && eqFields rest gs

def numberEq (x y : Json) : Bool :=
  match x.number?, y.number? with
  | some m, some n => m.eq n
  | _, _ => false
end

-- How a set, a dict or `in` compares.
def same (x y : Json) : Bool := bothNan x y || eq x y

def hashable : Json → Bool
  | list _ | dict _ => false
  | _ => true

def truthy : Json → Bool
  | null => false
  | bool b => b
  | int n => n != 0
  | float x => !x.isZero
  | str s => !s.isEmpty
  | list items => !items.isEmpty
  | dict fields => !fields.isEmpty

-- `isinstance(value, int)`, true of a bool as well
def int? : Json → Option Int
  | bool b => some (if b then 1 else 0)
  | int n => some n
  | _ => none

-- `d.get(key)` of a dict
def get (fields : List (Text × Json)) (key : Text) : Json := (lookup key fields).getD null

/-! ## `json.dumps` -/

def floatDigits (d : Binary64.Digits) : Text × Int :=
  let digits := natText d.digits
  ((digits.reverse.dropWhile (· == digitChar 0)).reverse, digits.length + d.exponent)

-- `float.__repr__`: `point` is where the decimal point falls among the digits.
def floatText (x : Binary64) : Text :=
  let sign := if x.negative then text "-" else []
  if x.isNan then text "NaN"
  else if !x.isFinite then sign ++ text "Infinity"
  else if x.isZero then sign ++ text "0.0"
  else match x.shortest.map floatDigits with
    | none => sign
    | some (digits, point) =>
      if 0 < point ∧ point ≤ 16 then
        let whole := digits.take point.toNat
        let rest := digits.drop point.toNat
        sign ++ whole ++ List.replicate (point.toNat - whole.length) (digitChar 0) ++ text "." ++
          (if rest.isEmpty then text "0" else rest)
      else if -4 < point ∧ point ≤ 0 then
        sign ++ text "0." ++ List.replicate point.natAbs (digitChar 0) ++ digits
      else
        let exponent := point - 1
        sign ++ digits.take 1 ++ (if digits.length ≤ 1 then [] else text "." ++ digits.drop 1) ++
          text (if exponent < 0 then "e-" else "e+") ++
          (if exponent.natAbs < 10 then [digitChar 0] else []) ++ natText exponent.natAbs

structure Style where
  ensureAscii : Bool
  itemSeparator : Text
  keySeparator : Text

-- `separators=(",", ":"), ensure_ascii=False`
def Style.canonical : Style := ⟨false, ",", ":"⟩

def Style.standard : Style := ⟨true, ", ", ": "⟩

def hexEscape (unit : Nat) : Text :=
  text "\\u" ++ [digitChar (unit / 4096), digitChar (unit / 256 % 16), digitChar (unit / 16 % 16),
    digitChar (unit % 16)]

def asciiEscape (c : CodePoint) : Text :=
  if c.val < 0x10000 then hexEscape c.val
  else hexEscape (0xD800 + (c.val - 0x10000) / 0x400) ++ hexEscape (0xDC00 + (c.val - 0x10000) % 0x400)

def escape (ensureAscii : Bool) (c : CodePoint) : Text :=
  if c = codePoint '"' then text "\\\""
  else if c = codePoint '\\' then text "\\\\"
  else if c.val = 10 then text "\\n"
  else if c.val = 13 then text "\\r"
  else if c.val = 9 then text "\\t"
  else if c.val = 12 then text "\\f"
  else if c.val = 8 then text "\\b"
  else if c.val < 32 then hexEscape c.val
  else if ensureAscii && 126 < c.val then asciiEscape c
  else [c]

def quote (ensureAscii : Bool) (s : Text) : Text :=
  codePoint '"' :: s.flatMap (escape ensureAscii) ++ [codePoint '"']

def separated (separator : Text) : List Text → Text
  | [] => []
  | [t] => t
  | t :: rest => t ++ separator ++ separated separator rest

def sortKeys (fields : List (Text × Text)) : List (Text × Text) :=
  fields.insertionSort fun a b => a.1.le b.1

-- `json.dumps(obj, sort_keys=True)` in either style
mutual
def dumps (style : Style) : Json → Text
  | null => text "null"
  | bool b => text (if b then "true" else "false")
  | int n => intText n
  | float x => floatText x
  | str s => quote style.ensureAscii s
  | list items =>
    codePoint '[' :: separated style.itemSeparator (dumpsItems style items) ++ [codePoint ']']
  | dict fields =>
    codePoint '{' :: separated style.itemSeparator
      ((sortKeys (dumpsFields style fields)).map fun field =>
        quote style.ensureAscii field.1 ++ style.keySeparator ++ field.2) ++ [codePoint '}']

def dumpsItems (style : Style) : List Json → List Text
  | [] => []
  | x :: xs => dumps style x :: dumpsItems style xs

def dumpsFields (style : Style) : List (Text × Json) → List (Text × Text)
  | [] => []
  | (key, value) :: rest => (key, dumps style value) :: dumpsFields style rest
end

end Json

-- `qvault/crypto/hashing.py`
def canonicalJson (obj : Json) : Except PyError Bytes := encodeUtf8 (obj.dumps .canonical)

end QVault.Python
