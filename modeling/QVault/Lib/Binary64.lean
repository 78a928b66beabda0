import Mathlib.Data.Rat.Floor
import Mathlib.Data.Nat.Log

/-!
# IEEE 754 binary64

A double is its 64 bits. Its value is a rational number, so comparisons are exact, and the
rounding of a rational goes to the nearest double with ties to even.
-/

structure Binary64 where
  bits : BitVec 64
  deriving DecidableEq, Repr

namespace Binary64

def negative (x : Binary64) : Bool := x.bits.msb
def magnitudeBits (x : Binary64) : Nat := x.bits.toNat % 2 ^ 63
def exponentField (x : Binary64) : Nat := x.magnitudeBits / 2 ^ 52
def fraction (x : Binary64) : Nat := x.magnitudeBits % 2 ^ 52

def isFinite (x : Binary64) : Bool := x.exponentField != 2047
def isNan (x : Binary64) : Bool := !x.isFinite && x.fraction != 0

-- The magnitude of a finite double is a whole number of units of 2 ^ -1074.
def units (x : Binary64) : Nat :=
  if x.exponentField = 0 then x.fraction else (2 ^ 52 + x.fraction) * 2 ^ (x.exponentField - 1)

def unit : Rat := 1 / 2 ^ 1074

def toRat (x : Binary64) : Rat := (if x.negative then -(x.units : Rat) else x.units) * unit

def isZero (x : Binary64) : Bool := x.isFinite && x.units == 0

def ofBits (negative : Bool) (magnitude : Nat) : Binary64 :=
  ⟨BitVec.ofNat 64 ((if negative then 2 ^ 63 else 0) + min magnitude (2047 * 2 ^ 52))⟩

def roundHalfEven (q : Rat) : Nat :=
  let low := ⌊q⌋.toNat
  let rest := q - low
  if rest < 1 / 2 then low
  else if 1 / 2 < rest then low + 1
  else if low % 2 = 0 then low else low + 1

-- With `scale` such that `q` is below 2 ^ 53 units of 2 ^ scale, the hidden bit of the rounded
-- mantissa (and a carry out of it) adds itself to the exponent field.
def round (negative : Bool) (q : Rat) : Binary64 :=
  let inUnits := q / unit
  let scale := Nat.log2 ⌊inUnits⌋.toNat - 52
  ofBits negative (scale * 2 ^ 52 + roundHalfEven (inUnits / 2 ^ scale))

def add (x y : Binary64) : Binary64 :=
  if x.isNan || y.isNan then ofBits false (2047 * 2 ^ 52 + 1)
  else if !x.isFinite then if y.isFinite || x.negative == y.negative then x else ⟨0x7FF8000000000000⟩
  else if !y.isFinite then y
  else if x.isZero && y.isZero then ofBits (x.negative && y.negative) 0
  else round (x.toRat + y.toRat < 0) |x.toRat + y.toRat|

def eq (x y : Binary64) : Bool :=
  if x.isFinite && y.isFinite then x.toRat == y.toRat
  else !x.isNan && !y.isNan && x.bits == y.bits

def lt (x y : Binary64) : Bool :=
  if x.isNan || y.isNan then false
  else if x.isFinite && y.isFinite then x.toRat < y.toRat
  else if x.isFinite then !y.negative
  else x.negative && (y.isFinite || !y.negative)

/-! ## The shortest decimal digits that read back as the same double -/

def decimalExponent (q : Rat) : Int :=
  if 1 ≤ q then (Nat.log 10 ⌊q⌋.toNat : Int) else -(Nat.clog 10 ⌈1 / q⌉.toNat : Int)

structure Digits where
  digits : Nat
  exponent : Int

def Digits.value (d : Digits) : Rat := d.digits * (10 : Rat) ^ d.exponent

def candidates (q : Rat) (count : Nat) : List Digits :=
  let exponent := decimalExponent q - (count - 1 : Nat)
  let low := ⌊q / (10 : Rat) ^ exponent⌋.toNat
  let distance (n : Nat) := |q - n * (10 : Rat) ^ exponent|
  if distance (low + 1) < distance low ∨ (distance (low + 1) = distance low ∧ low % 2 = 1) then
    [⟨low + 1, exponent⟩, ⟨low, exponent⟩]
  else [⟨low, exponent⟩, ⟨low + 1, exponent⟩]

def shortest (x : Binary64) : Option Digits :=
  let q := |x.toRat|
  ((List.range 17).flatMap fun i => candidates q (i + 1)).find? fun d => round false d.value == round false q

end Binary64
