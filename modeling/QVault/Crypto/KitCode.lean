import QVault.Python.Json

/-!
# The Recovery Kit's code

`qvault/crypto/kit_code.py`. `special` is what Unicode's upper-case mapping makes of a character beyond
ASCII, which may be several characters.
-/

namespace QVault.KitCode
open Python

def alphabet : Text := text "0123456789ABCDEFGHJKMNPQRSTVWXYZ"

-- `_VALUE`
def symbolValue (ch : CodePoint) : Option Nat := alphabet.findIdx? (· == ch)

-- `_ALIASES`
def aliased (ch : CodePoint) : CodePoint :=
  if ch = codePoint 'I' ∨ ch = codePoint 'L' then codePoint '1' else if ch = codePoint 'O' then codePoint '0' else ch

def kitBits : Nat := 150
def dataSymbols : Nat := 30
def checkSymbols : Nat := 2
def symbolCount : Nat := 32
def groupLength : Nat := 4

def crcPoly : Nat := 0x233
def crcBits : Nat := 10

/-! ## The check -/

-- `_crc_bits`
def crcBitwise (value bits : Nat) : Nat :=
  (List.range bits).reverse.foldl (fun crc position =>
    let high := ((crc >>> (crcBits - 1)) &&& 1) ^^^ ((value >>> position) &&& 1)
    let crc := (crc <<< 1) &&& (1 <<< crcBits - 1)
    if high ≠ 0 then crc ^^^ crcPoly else crc) 0

-- `_shift5`, whose loop is this five times
def shiftRegister (register : Nat) : Nat :=
  if register &&& 0x200 ≠ 0 then ((register <<< 1) &&& 0x3ff) ^^^ crcPoly else (register <<< 1) &&& 0x3ff

def shift5 (register : Nat) : Nat := (List.range 5).foldl (fun register _ => shiftRegister register) register

-- `_SYMBOL_TABLE`
def symbolTable : List Nat := (List.range 32).map fun i => shift5 (i <<< 5)

def crc10 (value bits : Nat) : Nat :=
  if bits % 5 ≠ 0 then crcBitwise value bits
  else
    (List.range (bits / 5)).reverse.foldl (fun crc i =>
      ((crc <<< 5) &&& 0x3ff) ^^^ symbolTable.getD ((crc >>> 5) ^^^ ((value >>> (5 * i)) &&& 31)) 0) 0

/-! ## Writing -/

-- `_symbols`
def symbols (value count : Nat) : Text :=
  (List.range count).map fun i => alphabet.getD ((value >>> (5 * (count - 1 - i))) &&& 31) 0

def encode (k : Nat) : Except PyError Text :=
  if 1 <<< kitBits ≤ k then .error .valueError
  else .ok (symbols k dataSymbols ++ symbols (crc10 k kitBits) checkSymbols)

def groups : Text → List Text
  | a :: b :: c :: d :: rest => [a, b, c, d] :: groups rest
  | [] => []
  | short => [short]

def grouped (code : Text) : Text := (text "-").intercalate (groups code)

/-! ## Reading -/

-- A character that `normalise` passes over
def isGap (ch : CodePoint) : Bool := text " -\t\r\n" |>.contains ch

section Reading
variable (special : CodePoint → Text)

-- `str.upper`
def upperCase (typed : Text) : Text :=
  typed.flatMap fun c => if 97 ≤ c.val ∧ c.val ≤ 122 then [Fin.ofNat _ (c.val - 32)] else if c.val < 128 then [c] else special c

-- The loop of `normalise`, none at a character that is no symbol
def cleaned : Text → Option Text
  | [] => some []
  | ch :: rest =>
    if isGap ch then cleaned rest
    else if (symbolValue (aliased ch)).isNone then none
    else (cleaned rest).map (aliased ch :: ·)

def symbolsValue (code : Text) : Nat := code.foldl (fun value ch => (value <<< 5) ||| (symbolValue ch).getD 0) 0

def characterSentence : Text := "That code has a character a Recovery Kit never uses. Check it against your kit."

def lengthSentence (count : Nat) : Text :=
  text "A Recovery Kit code is 32 characters, in 8 groups of 4. That one has " ++ natText count ++ text "."

def typoSentence : Text :=
  "That code has a typo: one of its characters is wrong, or two are swapped. Check it against your kit."

def normalise : Json → Except Text Text
  | .str typed =>
    match cleaned (upperCase special typed) with
    | none => .error characterSentence
    | some code =>
      if code.length ≠ symbolCount then .error (lengthSentence code.length)
      else if crc10 (symbolsValue (code.take dataSymbols)) kitBits ≠ symbolsValue (code.drop dataSymbols) then
        .error typoSentence
      else .ok code
  | _ => .error "Type the code from your Recovery Kit."

def decode (typed : Json) : Except Text Nat :=
  (normalise special typed).map fun code => symbolsValue (code.take dataSymbols)

end Reading

end QVault.KitCode
