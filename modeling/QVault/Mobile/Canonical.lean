import QVault.Mobile.Script

/-!
# Canonical JSON on the phone

`mobile/src/crypto/canonical.ts`, with what it uses of `bytes.ts`.
-/

namespace QVault.Mobile
open Python

-- `utf8Encode`; a lone surrogate is written like any other code point.
def utf8CodePoint (cp : Nat) : Bytes :=
  if cp < 0x80 then [UInt8.ofNat cp]
  else if cp < 0x800 then [UInt8.ofNat (0xC0 ||| cp >>> 6), UInt8.ofNat (0x80 ||| cp &&& 0x3F)]
  else if cp < 0x10000 then
    [UInt8.ofNat (0xE0 ||| cp >>> 12), UInt8.ofNat (0x80 ||| cp >>> 6 &&& 0x3F), UInt8.ofNat (0x80 ||| cp &&& 0x3F)]
  else
    [UInt8.ofNat (0xF0 ||| cp >>> 18), UInt8.ofNat (0x80 ||| cp >>> 12 &&& 0x3F),
      UInt8.ofNat (0x80 ||| cp >>> 6 &&& 0x3F), UInt8.ofNat (0x80 ||| cp &&& 0x3F)]

def utf8Encode (t : JsString) : Bytes := (codePoints t).flatMap fun c => utf8CodePoint c.val

-- The loop of `byCodePoint`
def compareCodePoints : Text → Text → Int
  | a :: as, b :: bs => if a ≠ b then (a.val : Int) - b.val else compareCodePoints as bs
  | as, bs => (as.length : Int) - bs.length

def byCodePoint (a b : JsString) : Int := compareCodePoints (codePoints a) (codePoints b)

-- One code point of a string under `JSON.stringify`
def stringifyPoint (c : CodePoint) : JsString :=
  if c.val = 8 then js "\\b"
  else if c.val = 9 then js "\\t"
  else if c.val = 10 then js "\\n"
  else if c.val = 12 then js "\\f"
  else if c.val = 13 then js "\\r"
  else if c = codePoint '"' then js "\\\""
  else if c = codePoint '\\' then js "\\\\"
  else if c.val < 0x20 || isSurrogate c then utf16 (Json.hexEscape c.val)
  else units c

def stringify (s : JsString) : JsString := js "\"" ++ (codePoints s).flatMap stringifyPoint ++ js "\""

-- `Object.keys(value).sort(byCodePoint)`, each key with what is at it
def sortedFields {α : Type} (fields : List (JsString × α)) : List (JsString × α) :=
  fields.insertionSort fun a b => byCodePoint a.1 b.1 ≤ 0

def keyed (field : JsString × Except JsError JsString) : Except JsError JsString :=
  field.2.map fun value => stringify field.1 ++ js ":" ++ value

mutual
def canonicalJsonString : JsValue → Except JsError JsString
  | .null => .ok (js "null")
  | .bool b => .ok (js (if b then "true" else "false"))
  | .string s => .ok (stringify s)
  | .number n =>
    if !n.isFinite then fail (js "non-finite number is not canonical")
    else if !n.isInteger then fail (js "non-integer number is not canonical here")
    else if !n.isSafeInteger then fail (js "integer beyond safe range")
    else .ok (utf16 n.toText)
  | .array items => do
    let parts ← (canonicalItems items).mapM id
    return js "[" ++ (js ",").intercalate parts ++ js "]"
  | .object fields => do
    let parts ← (sortedFields (canonicalFields fields)).mapM keyed
    return js "\x7b" ++ (js ",").intercalate parts ++ js "\x7d"
  | .undefined => fail (js "not serialisable: undefined")

def canonicalItems : List JsValue → List (Except JsError JsString)
  | [] => []
  | x :: xs => canonicalJsonString x :: canonicalItems xs

def canonicalFields : List (JsString × JsValue) → List (JsString × Except JsError JsString)
  | [] => []
  | (key, value) :: rest => (key, canonicalJsonString value) :: canonicalFields rest
end

def canonicalJson (value : JsValue) : Except JsError Bytes := (canonicalJsonString value).map utf8Encode

end QVault.Mobile
