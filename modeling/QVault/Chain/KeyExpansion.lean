import Mathlib.Data.Nat.Digits.Defs
import Mathlib.Data.List.Range

/-!
# Public keys as the verifier on chain reads them

`qvault/chain/mldsa_key.py`. The two SHAKE functions are given, as what `digest(n)` returns, and so is how many
draws `_rej_ntt_poly` has.
-/

namespace QVault.Chain.KeyExpansion

def q : Nat := 8380417
def n : Nat := 256
def d : Nat := 13
-- rows and columns of A
def k : Nat := 6
def l : Nat := 5
def rhoBytes : Nat := 32
-- 256 coefficients of 10 bits
def t1PolyBytes : Nat := 320
def publicKeyBytes : Nat := rhoBytes + k * t1PolyBytes
def trBytes : Nat := 64
-- a primitive 512th root of unity modulo q
def zeta : Nat := 1753

/-! ## The transform -/

-- `f"{m:08b}"` of a byte
def binary8 (m : Nat) : List Nat := (List.range 8).map fun i => m / 2 ^ (7 - i) % 2

-- `int(…, 2)`
def ofBinary (bits : List Nat) : Nat := bits.foldl (fun value bit => 2 * value + bit) 0

def bitrev8 (m : Nat) : Nat := ofBinary (binary8 m).reverse

def zetas (m : Nat) : Int := (zeta ^ bitrev8 m % q : Nat)

-- One pass of the innermost loop
def butterfly (zeta : Int) (length : Nat) (w : List Int) (j : Nat) : List Int :=
  let t := zeta * w.getD (j + length) 0 % q
  let w := w.set (j + length) ((w.getD j 0 - t) % q)
  w.set j ((w.getD j 0 + t) % q)

-- The loop over `start`, with the running index `m`
def nttBlock (length : Nat) (state : List Int × Nat) (start : Nat) : List Int × Nat :=
  let m := state.2 + 1
  ((List.range' start length).foldl (butterfly (zetas m) length) state.1, m)

def nttLayer (length : Nat) (state : List Int × Nat) : List Int × Nat :=
  (List.range' 0 (n / (2 * length)) (2 * length)).foldl (nttBlock length) state

def nttLoop (length : Nat) (state : List Int × Nat) : List Int × Nat :=
  if length = 0 then state else nttLoop (length / 2) (nttLayer length state)
termination_by length

def ntt (coefficients : List Int) : List Int := (nttLoop 128 (coefficients.map (· % q), 0)).1

/-! ## The matrix -/

-- `int.from_bytes(…, "little")`
def fromLittle (bytes : List UInt8) : Nat := Nat.ofDigits 256 (bytes.map UInt8.toNat)

structure Shake where
  shake128 : List UInt8 → Nat → List UInt8
  shake256 : List UInt8 → Nat → List UInt8

-- The loop of `_rej_ntt_poly`
def rejDraws (xof : Nat → List UInt8) (out : List Nat) (size offset : Nat) : Nat → Option (List Nat)
  | 0 => if out.length < n then none else some out
  | fuel + 1 =>
    if out.length < n then
      let size := if (xof size).length < offset + 3 then size * 2 else size
      let t := fromLittle (((xof size).drop offset).take 3) &&& 0x7FFFFF
      rejDraws xof (if t < q then out ++ [t] else out) size (offset + 3) fuel
    else some out

def rejNttPoly (shake : Shake) (fuel : Nat) (rho : List UInt8) (i j : Nat) : Option (List Nat) :=
  rejDraws (shake.shake128 (rho ++ [UInt8.ofNat j, UInt8.ofNat i])) [] 840 0 fuel

/-! ## Packing -/

def decodeT1 (publicKey : List UInt8) : List (List Nat) :=
  (List.range k).map fun i =>
    let packed := fromLittle ((publicKey.drop (rhoBytes + i * t1PolyBytes)).take t1PolyBytes)
    (List.range n).map fun c => packed >>> (10 * c) &&& 0x3FF

def packStep (words : List Nat) (indexed : Nat × Nat) : List Nat :=
  words.modify (indexed.2 / 8) (· ||| indexed.1 <<< (32 * (indexed.2 % 8)))

def pack (coefficients : List Nat) : List Nat := coefficients.zipIdx.foldl packStep (List.replicate (n / 8) 0)

/-! ## The expanded key -/

inductive KeyError
  | length (got : Nat)
deriving DecidableEq

def KeyError.message : KeyError → String
  | .length got => s!"an ML-DSA-65 public key is {publicKeyBytes} bytes, got {got}"

def checkLength (publicKey : List UInt8) : Except KeyError Unit :=
  if publicKey.length ≠ publicKeyBytes then .error (.length publicKey.length) else .ok ()

def trOf (shake : Shake) (publicKey : List UInt8) : Except KeyError (List UInt8) := do
  checkLength publicKey
  return shake.shake256 publicKey trBytes

-- An entry of `aHat` is missing where `fuel` draws were too few for it.
structure Expanded where
  aHat : List (List (Option (List Nat)))
  t1Hat : List (List Nat)
  tr : List UInt8
deriving DecidableEq

def expandPoly (poly : List Nat) : List Nat :=
  pack ((ntt (poly.map fun c => ((c <<< d % q : Nat) : Int))).map Int.toNat)

def expandPublicKey (shake : Shake) (fuel : Nat) (publicKey : List UInt8) : Except KeyError Expanded := do
  checkLength publicKey
  let rho := publicKey.take rhoBytes
  let aHat := (List.range k).map fun i => (List.range l).map fun j => (rejNttPoly shake fuel rho i j).map pack
  let t1Hat := (decodeT1 publicKey).map expandPoly
  return ⟨aHat, t1Hat, ← trOf shake publicKey⟩

-- The part of the key that `_decode_t1` reads
def t1Part (publicKey : List UInt8) : List UInt8 := publicKey.drop rhoBytes

end QVault.Chain.KeyExpansion
