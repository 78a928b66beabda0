import Mathlib
import QVault.Python.Json

/-!
# `json.loads`

The scanner of the standard library. Each nested call reads at least one code point less, so the
length of the text is fuel enough.
-/

namespace QVault.Python.Json

def isJsonSpace (c : CodePoint) : Bool := c.val == 32 || c.val == 9 || c.val == 10 || c.val == 13

def skipSpace (t : Text) : Text := t.dropWhile isJsonSpace

def isDigit (c : CodePoint) : Bool := 48 ≤ c.val && c.val ≤ 57

def digitsValue (digits : Text) : Nat := digits.foldl (fun n c => 10 * n + (c.val - 48)) 0

def dropPrefix : Text → Text → Option Text
  | [], t => some t
  | _ :: _, [] => none
  | a :: as, b :: bs => if a = b then dropPrefix as bs else none

/-! ## Strings -/

def hexUnit : Text → Option (Nat × Text)
  | a :: b :: c :: d :: rest => do
    let a ← hexValue a
    let b ← hexValue b
    let c ← hexValue c
    let d ← hexValue d
    some (((16 * a + b) * 16 + c) * 16 + d, rest)
  | _ => none

-- Two escapes that are a surrogate pair are one code point; any other surrogate stays alone.
def scanUnicode (t : Text) : Option (CodePoint × Text) := do
  let (unit, rest) ← hexUnit t
  if 0xD800 ≤ unit ∧ unit ≤ 0xDBFF then
    match (dropPrefix "\\u" rest).bind hexUnit with
    | some (low, after) =>
      if 0xDC00 ≤ low ∧ low ≤ 0xDFFF then
        some (Fin.ofNat _ (0x10000 + (unit - 0xD800) * 0x400 + (low - 0xDC00)), after)
      else some (Fin.ofNat _ unit, rest)
    | none => some (Fin.ofNat _ unit, rest)
  else some (Fin.ofNat _ unit, rest)

def scanEscape : Text → Option (CodePoint × Text)
  | [] => none
  | c :: rest =>
    if c = codePoint 'u' then scanUnicode rest
    else if c = codePoint '"' ∨ c = codePoint '\\' ∨ c = codePoint '/' then some (c, rest)
    else if c = codePoint 'b' then some (8, rest)
    else if c = codePoint 'f' then some (12, rest)
    else if c = codePoint 'n' then some (10, rest)
    else if c = codePoint 'r' then some (13, rest)
    else if c = codePoint 't' then some (9, rest)
    else none

def scanString : Nat → Text → Option (Text × Text)
  | 0, _ => none
  | _ + 1, [] => none
  | fuel + 1, c :: rest =>
    if c = codePoint '"' then some ([], rest)
    else if c = codePoint '\\' then do
      let (e, rest) ← scanEscape rest
      let (s, rest) ← scanString fuel rest
      some (e :: s, rest)
    else if c.val < 32 then none
    else do
      let (s, rest) ← scanString fuel rest
      some (c :: s, rest)

/-! ## Numbers -/

def scanFraction : Text → Option (Text × Text)
  | c :: rest =>
    if c = codePoint '.' ∧ (rest.takeWhile isDigit) ≠ [] then
      some (rest.takeWhile isDigit, rest.dropWhile isDigit)
    else none
  | [] => none

def scanExponent : Text → Option (Int × Text)
  | c :: rest =>
    if c = codePoint 'e' ∨ c = codePoint 'E' then
      let (negative, rest) := match rest with
        | s :: after =>
          if s = codePoint '-' then (true, after)
          else if s = codePoint '+' then (false, after)
          else (false, rest)
        | [] => (false, rest)
      let digits := rest.takeWhile isDigit
      if digits = [] then none
      else
        let n : Int := digitsValue digits
        some (if negative then -n else n, rest.dropWhile isDigit)
    else none
  | [] => none

def wholeDigits : Text → Option (Text × Text)
  | [] => none
  | c :: rest =>
    if c = codePoint '0' then some ([c], rest)
    else if isDigit c then some (c :: rest.takeWhile isDigit, rest.dropWhile isDigit)
    else none

-- `sys.set_int_max_str_digits`: a longer integer is refused.
def maxStrDigits : Nat := 4300

def scanNumber (negative : Bool) (t : Text) : Option (Json × Text) := do
  let (whole, rest) ← wholeDigits t
  let fraction := scanFraction rest
  let rest := (fraction.map Prod.snd).getD rest
  let exponent := scanExponent rest
  let rest := (exponent.map Prod.snd).getD rest
  if fraction.isNone ∧ exponent.isNone then
    if maxStrDigits < whole.length then none
    else
      let n : Int := digitsValue whole
      some (int (if negative then -n else n), rest)
  else
    let part := (fraction.map Prod.fst).getD []
    let power := (exponent.map Prod.fst).getD 0 - part.length
    some (float (Binary64.round negative (digitsValue (whole ++ part) * (10 : Rat) ^ power)), rest)

/-! ## Values -/

def setItem (key : Text) (value : Json) : List (Text × Json) → List (Text × Json)
  | [] => [(key, value)]
  | (k, v) :: rest => if k = key then (k, value) :: rest else (k, v) :: setItem key value rest

def scanAtom (t : Text) : Option (Json × Text) :=
  match t with
  | [] => none
  | c :: rest =>
    if c = codePoint 'n' then (dropPrefix "ull" rest).map (null, ·)
    else if c = codePoint 't' then (dropPrefix "rue" rest).map (bool true, ·)
    else if c = codePoint 'f' then (dropPrefix "alse" rest).map (bool false, ·)
    else if c = codePoint 'N' then (dropPrefix "aN" rest).map (float ⟨0x7FF8000000000000⟩, ·)
    else if c = codePoint 'I' then (dropPrefix "nfinity" rest).map (float ⟨0x7FF0000000000000⟩, ·)
    else if c = codePoint '-' then
      match dropPrefix "Infinity" rest with
      | some rest => some (float ⟨0xFFF0000000000000⟩, rest)
      | none => scanNumber true rest
    else scanNumber false t

mutual
def scanValue : Nat → Text → Option (Json × Text)
  | 0, _ => none
  | _ + 1, [] => none
  | fuel + 1, c :: rest =>
    if c = codePoint '"' then (scanString fuel rest).map fun (s, rest) => (str s, rest)
    else if c = codePoint '{' then
      match skipSpace rest with
      | [] => none
      | d :: after =>
        if d = codePoint '}' then some (dict [], after)
        else (scanFields fuel (d :: after) []).map fun (fields, rest) => (dict fields, rest)
    else if c = codePoint '[' then
      match skipSpace rest with
      | [] => none
      | d :: after =>
        if d = codePoint ']' then some (list [], after)
        else (scanItems fuel (d :: after)).map fun (items, rest) => (list items, rest)
    else scanAtom (c :: rest)

def scanItems : Nat → Text → Option (List Json × Text)
  | 0, _ => none
  | fuel + 1, t => do
    let (item, rest) ← scanValue fuel t
    match skipSpace rest with
    | [] => none
    | c :: rest =>
      if c = codePoint ']' then some ([item], rest)
      else if c = codePoint ',' then do
        let (items, rest) ← scanItems fuel (skipSpace rest)
        some (item :: items, rest)
      else none

def scanFields : Nat → Text → List (Text × Json) → Option (List (Text × Json) × Text)
  | 0, _, _ => none
  | _ + 1, [], _ => none
  | fuel + 1, q :: rest, read =>
    if q = codePoint '"' then do
      let (key, rest) ← scanString fuel rest
      let rest ← dropPrefix ":" (skipSpace rest)
      let (value, rest) ← scanValue fuel (skipSpace rest)
      match skipSpace rest with
      | [] => none
      | c :: rest =>
        if c = codePoint '}' then some (setItem key value read, rest)
        else if c = codePoint ',' then scanFields fuel (skipSpace rest) (setItem key value read)
        else none
    else none
end

def byteOrderMark : CodePoint := 0xFEFF

-- A JSONDecodeError is a ValueError.
def loads (t : Text) : Except PyError Json :=
  if t.head? = some byteOrderMark then .error .valueError
  else match scanValue (t.length + 1) (skipSpace t) with
    | some (value, rest) => if skipSpace rest = [] then .ok value else .error .valueError
    | none => .error .valueError

end QVault.Python.Json
