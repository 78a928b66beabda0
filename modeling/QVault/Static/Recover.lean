import QVault.Mobile.Script

/-!
# The Recovery Kit's code in the browser

`crc10` and `normalise` of `qvault/static/recover.js`, on a text that was typed.
-/

namespace QVault.Static.Recover
open Python Mobile

def alphabet : JsString := js "0123456789ABCDEFGHJKMNPQRSTVWXYZ"

-- `ALPHABET.indexOf(ch)`, none for -1
def indexOf (ch : CodeUnit) : Option Nat := alphabet.findIdx? (· == ch)

-- `ALIASES`
def aliased (ch : CodeUnit) : CodeUnit :=
  if [ch] = js "I" ∨ [ch] = js "L" then 49 else if [ch] = js "O" then 48 else ch

def poly : Nat := 0x233

def crc10 (values : List Nat) : Nat :=
  values.foldl (fun crc value =>
    (List.range 5).reverse.foldl (fun crc b =>
      let high := ((crc >>> 9) &&& 1) ^^^ ((value >>> b) &&& 1)
      let crc := (crc <<< 1) &&& 0x3ff
      if high ≠ 0 then crc ^^^ poly else crc) crc) 0

structure Refusal where
  reason : JsString
  message : JsString

-- `toUpperCase`, with Unicode's mapping of what is beyond ASCII
def toUpperCase (special : CodePoint → Text) (typed : JsString) : JsString :=
  utf16 ((codePoints typed).flatMap fun c =>
    if 97 ≤ c.val ∧ c.val ≤ 122 then [Fin.ofNat _ (c.val - 32)] else if c.val < 128 then [c] else special c)

def isGap (ch : CodeUnit) : Bool := js " -\t\r\n" |>.contains ch

-- The loop, none at a character that is no symbol
def cleaned : JsString → Option JsString
  | [] => some []
  | ch :: rest =>
    if isGap ch then cleaned rest
    else if (indexOf (aliased ch)).isNone then none
    else (cleaned rest).map (aliased ch :: ·)

def index (out : JsString) (i : Nat) : Nat := ((out[i]?).bind indexOf).getD 0

def normalise (special : CodePoint → Text) (typed : JsString) : Except Refusal JsString :=
  match cleaned (toUpperCase special typed) with
  | none => .error ⟨js "character", js "That code has a character a Recovery Kit never uses. Check it against your kit."⟩
  | some out =>
    if out.length ≠ 32 then
      .error ⟨js "length", js "A Recovery Kit code is 32 characters, in 8 groups of 4. That one has " ++
        utf16 (natText out.length) ++ js "."⟩
    else if crc10 ((List.range 30).map (index out)) ≠ index out 30 * 32 + index out 31 then
      .error ⟨js "check",
        js "That code has a typo: one of its characters is wrong, or two are swapped. Check it against your kit."⟩
    else .ok out

end QVault.Static.Recover
