import Mathlib.Data.Nat.Digits.Defs

/-!
# Text and bytes

Python's `str` and `bytes`, with the codecs the program uses: UTF-8, hexadecimal and base64.
A `str` is a list of code points; a lone surrogate is one of them, and UTF-8 refuses it.
-/

namespace QVault.Python

abbrev CodePoint := Fin 0x110000
abbrev Text := List CodePoint
abbrev Bytes := List UInt8

instance codePoints_nonempty : NeZero 0x110000 := ⟨by decide⟩
instance text_lawful : LawfulBEq Text := inferInstance

inductive PyError
  | valueError | typeError | attributeError | keyError | indexError | overflowError
  deriving DecidableEq, Repr

def codePoint (c : Char) : CodePoint := Fin.ofNat _ c.toNat

def text (s : String) : Text := s.toList.map codePoint

instance : Coe String Text := ⟨text⟩

def asciiBytes (s : String) : Bytes := s.toList.map fun c => UInt8.ofNat c.toNat

def isSurrogate (c : CodePoint) : Bool := 0xD800 ≤ c.val && c.val ≤ 0xDFFF

def utf8CodePoint (c : CodePoint) : Bytes :=
  if c.val < 0x80 then [UInt8.ofNat c.val]
  else if c.val < 0x800 then
    [UInt8.ofNat (0xC0 + c.val / 0x40), UInt8.ofNat (0x80 + c.val % 0x40)]
  else if c.val < 0x10000 then
    [UInt8.ofNat (0xE0 + c.val / 0x1000), UInt8.ofNat (0x80 + c.val / 0x40 % 0x40),
      UInt8.ofNat (0x80 + c.val % 0x40)]
  else
    [UInt8.ofNat (0xF0 + c.val / 0x40000), UInt8.ofNat (0x80 + c.val / 0x1000 % 0x40),
      UInt8.ofNat (0x80 + c.val / 0x40 % 0x40), UInt8.ofNat (0x80 + c.val % 0x40)]

-- `str.encode("utf-8")`; a lone surrogate is a UnicodeEncodeError, which is a ValueError.
def encodeUtf8 (t : Text) : Except PyError Bytes :=
  if t.any isSurrogate then .error .valueError else .ok (t.flatMap utf8CodePoint)

def Text.le : Text → Text → Bool
  | [], _ => true
  | _ :: _, [] => false
  | a :: as, b :: bs => a < b || (a == b && Text.le as bs)

def digitChar (d : Nat) : CodePoint := Fin.ofNat _ (if d < 10 then 48 + d else 87 + d)

def natText (n : Nat) : Text :=
  if n = 0 then [digitChar 0] else (Nat.digits 10 n).reverse.map digitChar

-- `str` of an int
def intText : Int → Text
  | .ofNat n => natText n
  | .negSucc n => text "-" ++ natText (n + 1)

-- `str.isspace` of one character
def isWhitespace (c : CodePoint) : Bool :=
  (9 ≤ c.val && c.val ≤ 13) || (28 ≤ c.val && c.val ≤ 32) || c.val == 0x85 || c.val == 0xA0 ||
    c.val == 0x1680 || (0x2000 ≤ c.val && c.val ≤ 0x200A) || c.val == 0x2028 || c.val == 0x2029 ||
    c.val == 0x202F || c.val == 0x205F || c.val == 0x3000

-- `str.strip`
def strip (t : Text) : Text :=
  ((t.dropWhile isWhitespace).reverse.dropWhile isWhitespace).reverse

/-! ## Hexadecimal -/

def hexText (bytes : Bytes) : Text :=
  bytes.flatMap fun b => [digitChar (b.toNat / 16), digitChar (b.toNat % 16)]

def hexValue (c : CodePoint) : Option Nat :=
  if 48 ≤ c.val ∧ c.val ≤ 57 then some (c.val - 48)
  else if 97 ≤ c.val ∧ c.val ≤ 102 then some (c.val - 87)
  else if 65 ≤ c.val ∧ c.val ≤ 70 then some (c.val - 55)
  else none

def isSpace (c : CodePoint) : Bool := c.val == 32 || (9 ≤ c.val && c.val ≤ 13)

-- `bytes.fromhex`: ASCII white space may stand between two bytes.
def fromHex : Text → Except PyError Bytes
  | [] => .ok []
  | c :: rest =>
    if isSpace c then fromHex rest
    else match hexValue c, rest with
      | some high, d :: rest =>
        match hexValue d with
        | some low => (fromHex rest).map (UInt8.ofNat (16 * high + low) :: ·)
        | none => .error .valueError
      | _, _ => .error .valueError

/-! ## Base64 -/

def base64Digit (n : Nat) : CodePoint :=
  Fin.ofNat _
    (if n < 26 then 65 + n else if n < 52 then 71 + n else if n < 62 then n - 4
      else if n = 62 then 43 else 47)

def base64Value (c : CodePoint) : Option Nat :=
  if 65 ≤ c.val ∧ c.val ≤ 90 then some (c.val - 65)
  else if 97 ≤ c.val ∧ c.val ≤ 122 then some (c.val - 71)
  else if 48 ≤ c.val ∧ c.val ≤ 57 then some (c.val + 4)
  else if c.val = 43 then some 62
  else if c.val = 47 then some 63
  else none

def base64Pad : CodePoint := codePoint '='

def b64encode : Bytes → Text
  | [] => []
  | [a] => [base64Digit (a.toNat / 4), base64Digit (a.toNat % 4 * 16), base64Pad, base64Pad]
  | [a, b] =>
    [base64Digit (a.toNat / 4), base64Digit (a.toNat % 4 * 16 + b.toNat / 16),
      base64Digit (b.toNat % 16 * 4), base64Pad]
  | a :: b :: c :: rest =>
    base64Digit (a.toNat / 4) :: base64Digit (a.toNat % 4 * 16 + b.toNat / 16) ::
      base64Digit (b.toNat % 16 * 4 + c.toNat / 64) :: base64Digit (c.toNat % 64) :: b64encode rest

-- The loop of `binascii.a2b_base64`. `quad` counts the digits read of the present group of four,
-- `left` holds their bits not yet written and `pads` the padding since the last digit.
def a2bLoop (strict : Bool) : Text → (quad left pads : Nat) → (padded : Bool) → Except PyError Bytes
  | [], quad, _, _, _ => if quad = 0 then .ok [] else .error .valueError
  | c :: rest, quad, left, pads, padded =>
    if c = base64Pad then
      if 2 ≤ quad then
        if 4 ≤ quad + (pads + 1) then
          if strict && !rest.isEmpty then .error .valueError else .ok []
        else a2bLoop strict rest quad left (pads + 1) true
      else a2bLoop strict rest quad left pads true
    else match base64Value c with
      | none => if strict then .error .valueError else a2bLoop strict rest quad left pads padded
      | some v =>
        if strict && padded then .error .valueError
        else match quad with
          | 0 => a2bLoop strict rest 1 v 0 padded
          | 1 => (a2bLoop strict rest 2 (v % 16) 0 padded).map (UInt8.ofNat (left * 4 + v / 16) :: ·)
          | 2 => (a2bLoop strict rest 3 (v % 4) 0 padded).map (UInt8.ofNat (left * 16 + v / 4) :: ·)
          | _ => (a2bLoop strict rest 0 0 0 padded).map (UInt8.ofNat (left * 64 + v) :: ·)

-- `base64.b64decode` of a `str`; `validate` is the strict mode of `a2b_base64`.
def b64decode (validate : Bool) (t : Text) : Except PyError Bytes :=
  if t.any fun c => 128 ≤ c.val then .error .valueError
  else if validate && t.head? == some base64Pad then .error .valueError
  else a2bLoop validate t 0 0 0 false

end QVault.Python
