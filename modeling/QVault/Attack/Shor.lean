import Mathlib.Data.Nat.Size
import Mathlib.Data.Rat.Defs
import Mathlib.Data.Int.GCD
import Mathlib.Data.List.Defs

/-!
# Shor's algorithm, its classical half

`qvault/attack/shor.py`, and the exponents of `qvault/attack/toy_rsa.py`. The draws of a run and what the register
measures are given; so are `Fraction.limit_denominator` and the rounding of a floating-point root.
-/

namespace QVault.Attack

def maxNStatevector : Nat := 511
def maxNAnalytic : Nat := 2047
def maxOrderMultiple : Nat := 64
def maxMeasurements : Nat := 12
def maxRounds : Nat := 16

inductive Mode
  | statevector
  | analytic
deriving DecidableEq

inductive ShorError
  | tooSmall
  | pastStatevector
  | pastCeiling
deriving DecidableEq

-- `pow(a, exponent, n)`
def powMod (a : Int) (exponent n : Nat) : Nat := (a ^ exponent % n).toNat

def controlWidth (n : Nat) : Nat := 2 * n.size

/-! ## Orders -/

structure TrailLine where
  multiple : Nat
  exponent : Nat
  value : Nat

def tryMultiples (a : Int) (n candidate : Nat) : List Nat → Option Nat × List TrailLine
  | [] => (none, [])
  | multiple :: rest =>
    let order := candidate * multiple
    -- far past any possible order
    if n * n ≤ order then (none, [])
    else
      let line := ⟨multiple, order, powMod a order n⟩
      if powMod a order n = 1 then (some order, [line])
      else
        let (found, trail) := tryMultiples a n candidate rest
        (found, line :: trail)

def confirmOrderTrail (a : Int) (n : Nat) (candidate : Int) : Option Nat × List TrailLine :=
  if candidate ≤ 0 then (none, []) else tryMultiples a n candidate.toNat (List.range' 1 maxOrderMultiple)

def confirmOrder (a : Int) (n : Nat) (candidate : Int) : Option Nat := (confirmOrderTrail a n candidate).1

section Chance
variable (limitDenominator : ℚ → Nat → ℚ)

def phaseDenominator (measuredK : Int) (t n : Nat) : Nat := (limitDenominator (measuredK / 2 ^ t) (n - 1)).den

structure OrderFinding where
  a : Nat
  n : Nat
  t : Nat
  qubits : Nat
  mode : Mode
  measuredK : Nat
  phase : ℚ
  candidateR : Nat
  convergentDenominator : Nat
  confirmed : Bool
  attempts : Nat

-- What `find_order` returns after its attempt
def findingOf (a n : Nat) (mode : Mode) (measuredK attempt : Nat) (order : Option Nat) : OrderFinding :=
  let t := controlWidth n
  let candidate := phaseDenominator limitDenominator measuredK t n
  ⟨a, n, t, t + n.size, mode, measuredK, measuredK / 2 ^ t, order.getD candidate, candidate, order.isSome, attempt⟩

-- The loop of `find_order`, with what the register measures at each attempt; `remaining` attempts may follow.
def findOrderFrom (a n : Nat) (mode : Mode) (measured : Nat → Nat) (attempt : Nat) : Nat → OrderFinding
  | 0 => findingOf limitDenominator a n mode (measured attempt) attempt
      (confirmOrder a n (phaseDenominator limitDenominator (measured attempt) (controlWidth n) n))
  | remaining + 1 =>
    match confirmOrder a n (phaseDenominator limitDenominator (measured attempt) (controlWidth n) n) with
    | some order => findingOf limitDenominator a n mode (measured attempt) attempt (some order)
    | none => findOrderFrom a n mode measured (attempt + 1) remaining

def findOrder (a n : Nat) (mode : Mode) (measured : Nat → Nat) : OrderFinding :=
  findOrderFrom limitDenominator a n mode measured 1 (maxMeasurements - 1)

/-! ## Factors -/

structure ShorResult where
  n : Nat
  factors : Option (Nat × Nat)
  orderRuns : List OrderFinding
  classicalShortcut : Option String
  redrawnLuckyBases : Nat

-- What the run draws: the number behind each base, what the register measures at each attempt of each round,
-- and `round(n ** (1.0 / exponent))`
structure Chance where
  draw : Nat → Nat
  measured : Nat → Nat → Nat
  root : Nat → Nat → Int

variable (chance : Chance)

-- `rng.randrange(2, n - 1)`
def Chance.base (n round : Nat) : Nat := 2 + chance.draw round % (n - 3)

def asPerfectPower (n : Nat) : Option (Int × Nat) :=
  ((List.range' 2 (n.size - 1)).flatMap fun exponent =>
    [chance.root n exponent - 1, chance.root n exponent, chance.root n exponent + 1].map fun nearby => (nearby, exponent)).find?
      fun power => 1 < power.1 ∧ power.1 ^ power.2 = (n : Int)

def shorRounds (n : Nat) (mode : Mode) (forceQuantum : Bool) (round : Nat) : Nat → ShorResult → ShorResult
  | 0, result => result
  | remaining + 1, result =>
    let a := chance.base n round
    let common := Nat.gcd a n
    if 1 < common then
      if forceQuantum then
        shorRounds n mode forceQuantum (round + 1) remaining { result with redrawnLuckyBases := result.redrawnLuckyBases + 1 }
      else
        { result with
          classicalShortcut := some s!"gcd({a}, N) = {common} by luck - no quantum step needed"
          factors := some (common, n / common) }
    else
      let run := findOrder limitDenominator a n mode (chance.measured round)
      let result := { result with orderRuns := result.orderRuns ++ [run] }
      if !run.confirmed || run.candidateR % 2 ≠ 0 then shorRounds n mode forceQuantum (round + 1) remaining result
      else
        let root := powMod a (run.candidateR / 2) n
        if root = n - 1 then shorRounds n mode forceQuantum (round + 1) remaining result
        else
          match [Int.gcd (root - 1) n, Int.gcd (root + 1) n].find? fun candidate => 1 < candidate ∧ candidate < n with
          | some candidate => { result with factors := some (candidate, n / candidate) }
          | none => shorRounds n mode forceQuantum (round + 1) remaining result

def shorFactor (n : Nat) (mode : Option Mode) (forceQuantum : Bool) (rounds : Nat) : Except ShorError ShorResult :=
  let result : ShorResult := ⟨n, none, [], none, 0⟩
  if n < 4 then .error .tooSmall
  else
    let mode := mode.getD (if n ≤ maxNStatevector then .statevector else .analytic)
    if mode = .statevector ∧ maxNStatevector < n then .error .pastStatevector
    else if maxNAnalytic < n then .error .pastCeiling
    else if n % 2 = 0 then
      .ok { result with classicalShortcut := some "N is even - no quantum step required", factors := some (2, n / 2) }
    else
      match asPerfectPower chance n with
      | some (base, exponent) =>
        .ok { result with
          classicalShortcut := some s!"N is a perfect power {base}^{exponent}"
          factors := some (base.toNat, n / base.toNat) }
      | none => .ok (shorRounds limitDenominator chance n mode forceQuantum 0 rounds result)

end Chance

/-! ## RSA exponents -/

-- `pow(e, -1, modulus)`, which raises where there is no inverse
def inverseMod (e modulus : Nat) : Option Nat :=
  if Nat.gcd e modulus = 1 then some (Nat.gcdA e modulus % modulus).toNat else none

def recoverRsaExponent (e p q : Nat) : Option Nat := inverseMod e ((p - 1) * (q - 1) / Nat.gcd (p - 1) (q - 1))

-- `sign` and `verify` of ToyRSASignatureProvider, on a representative of the message
def toySign (d n representative : Nat) : Nat := powMod representative d n
def toyVerify (e n representative signature : Nat) : Bool := powMod signature e n = representative

end QVault.Attack
