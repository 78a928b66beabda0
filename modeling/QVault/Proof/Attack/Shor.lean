import QVault.Attack.Shor
import QVault.Lib.ClosestFraction
import Mathlib.FieldTheory.Finite.Basic
import Mathlib.NumberTheory.LucasPrimality
import Mathlib.Tactic

/-!
# The classical half of Shor's algorithm is right

A measurement next to a multiple of `2 ^ t / r` gives the order or, in few enough multiples, a multiple of it; the
factors reported are factors; and the exponent recovered from two primes signs.
-/

namespace QVault.Proof.Attack

open QVault.Attack
open ClosestFraction (Closest closest_unique)

/-! ## Powers and orders -/

section Orders
variable {n : Nat} {a : Int}

theorem powMod_eq (exponent : Nat) (positive : 0 < n) : ((powMod a exponent n : Nat) : Int) = a ^ exponent % n := by
  rw [powMod, Int.toNat_of_nonneg]
  exact Int.emod_nonneg _ (by exact_mod_cast positive.ne')

theorem powMod_cast (exponent : Nat) (positive : 0 < n) : ((powMod a exponent n : Nat) : ZMod n) = (a : ZMod n) ^ exponent := by
  have cast : (((powMod a exponent n : Nat) : Int) : ZMod n) = ((a ^ exponent : Int) : ZMod n) := by
    rw [powMod_eq exponent positive, ZMod.intCast_mod]
  exact_mod_cast cast

theorem powMod_lt (exponent : Nat) (positive : 0 < n) : powMod a exponent n < n := by
  have below : ((powMod a exponent n : Nat) : Int) < n := by
    rw [powMod_eq exponent positive]
    exact Int.emod_lt_of_pos _ (by exact_mod_cast positive)
  exact_mod_cast below

theorem powMod_eq_one (exponent : Nat) (large : 1 < n) : powMod a exponent n = 1 ↔ orderOf (a : ZMod n) ∣ exponent := by
  have positive : 0 < n := by omega
  rw [orderOf_dvd_iff_pow_eq_one, ← powMod_cast exponent positive]
  constructor
  · intro one
    rw [one, Nat.cast_one]
  · intro one
    have same : powMod a exponent n % n = 1 % n := by
      apply (ZMod.natCast_eq_natCast_iff' _ _ n).mp
      rw [one, Nat.cast_one]
    rwa [Nat.mod_eq_of_lt (powMod_lt exponent positive), Nat.mod_eq_of_lt large] at same

theorem order_pos (large : 1 < n) (coprime : Int.gcd a n = 1) : 0 < orderOf (a : ZMod n) := by
  have : NeZero n := ⟨by omega⟩
  have unit : IsUnit (a : ZMod n) := (ZMod.coe_int_isUnit_iff_isCoprime a n).mpr (Int.isCoprime_iff_gcd_eq_one.mpr (by rwa [Int.gcd_comm]))
  obtain ⟨u, named⟩ := unit
  rw [← named, orderOf_units]
  exact orderOf_pos u

theorem order_lt (large : 1 < n) (coprime : Int.gcd a n = 1) : orderOf (a : ZMod n) < n := by
  have : NeZero n := ⟨by omega⟩
  have unit : IsUnit (a : ZMod n) := (ZMod.coe_int_isUnit_iff_isCoprime a n).mpr (Int.isCoprime_iff_gcd_eq_one.mpr (by rwa [Int.gcd_comm]))
  obtain ⟨u, named⟩ := unit
  rw [← named, orderOf_units]
  calc orderOf u ≤ Fintype.card (ZMod n)ˣ := orderOf_le_card_univ
    _ = n.totient := ZMod.card_units_eq_totient n
    _ < n := Nat.totient_lt n large

end Orders

/-! ## The multiples tried -/

theorem tryMultiples_multiple {a : Int} {n candidate : Nat} {multiples : List Nat} {order : Nat}
    (found : (tryMultiples a n candidate multiples).1 = some order) :
    powMod a order n = 1 ∧ ∃ multiple ∈ multiples, order = candidate * multiple := by
  induction multiples with
  | nil => simp [tryMultiples] at found
  | cons multiple rest ih =>
    rw [tryMultiples] at found
    split at found
    · cases found
    · split at found
      · rename_i one
        cases found
        exact ⟨one, multiple, List.mem_cons_self, rfl⟩
      · obtain ⟨one, other, inside, made⟩ := ih found
        exact ⟨one, other, List.mem_cons_of_mem _ inside, made⟩

theorem tryMultiples_finds {a : Int} {n candidate multiple : Nat} (one : powMod a (candidate * multiple) n = 1)
    (small : candidate * multiple < n * n) {first count : Nat} (from_first : first ≤ multiple) (before : multiple < first + count) :
    ((tryMultiples a n candidate (List.range' first count)).1).isSome := by
  induction count generalizing first with
  | zero => omega
  | succ count ih =>
    rw [List.range'_succ, tryMultiples]
    have reached : candidate * first ≤ candidate * multiple := Nat.mul_le_mul_left _ from_first
    rw [if_neg (by omega)]
    split
    · rfl
    · rename_i other
      have later : first ≠ multiple := by
        rintro rfl
        exact other one
      exact ih (by omega) (by omega)

theorem confirmOrder_multiple {a : Int} {n : Nat} {candidate : Int} {order : Nat} (large : 1 < n)
    (found : (confirmOrderTrail a n candidate).1 = some order) : orderOf (a : ZMod n) ∣ order ∧ 0 < order := by
  rw [confirmOrderTrail] at found
  split at found
  · cases found
  · rename_i positive
    obtain ⟨one, multiple, inside, rfl⟩ := tryMultiples_multiple found
    refine ⟨(powMod_eq_one _ large).mp one, ?_⟩
    have := (List.mem_range'_1.mp inside).1
    exact Nat.mul_pos (by omega) this

theorem confirmOrder_finds {a : Int} {n candidate multiple : Nat} (large : 1 < n) (order : candidate * multiple = orderOf (a : ZMod n))
    (positive : 0 < orderOf (a : ZMod n)) (below : orderOf (a : ZMod n) < n) (few : multiple ≤ maxOrderMultiple) :
    ∃ found, (confirmOrderTrail a n candidate).1 = some found ∧ 0 < found ∧ orderOf (a : ZMod n) ∣ found := by
  have candidate_pos : 0 < candidate := by
    apply Nat.pos_of_ne_zero
    rintro rfl
    omega
  have multiple_pos : 0 < multiple := by
    apply Nat.pos_of_ne_zero
    rintro rfl
    omega
  have found : ((confirmOrderTrail a n candidate).1).isSome := by
    rw [confirmOrderTrail, if_neg (by omega), Int.toNat_natCast]
    have one : powMod a (candidate * multiple) n = 1 := by
      rw [order]
      exact (powMod_eq_one _ large).mpr dvd_rfl
    apply tryMultiples_finds one
    · rw [order]
      nlinarith
    · exact multiple_pos
    · omega
  obtain ⟨answer, is_answer⟩ := Option.isSome_iff_exists.mp found
  exact ⟨answer, is_answer, (confirmOrder_multiple large is_answer).symm⟩

/-! ## The continued fraction -/

theorem den_of_fraction (s : Nat) {r : Nat} (positive : 0 < r) : ((s : ℚ) / r).den = r / Nat.gcd s r := by
  rw [Rat.natCast_div_eq_divInt, Rat.den_divInt, if_neg (by exact_mod_cast positive.ne'), Int.natAbs_natCast, Int.gcd_natCast_natCast,
    Nat.gcd_comm]

theorem sq_lt_control (n : Nat) : n ^ 2 < 2 ^ controlWidth n := by
  calc n ^ 2 < (2 ^ n.size) ^ 2 := Nat.pow_lt_pow_left n.lt_size_self two_ne_zero
    _ = 2 ^ controlWidth n := by rw [controlWidth, mul_comm, pow_mul]

section Phase
variable {limitDenominator : ℚ → Nat → ℚ} {n r s : Nat} {k : Int}

-- A measurement at most a half away from `s * 2 ^ t / r` is the phase `s / r` to within what the denominators below `n` allow.
theorem phaseDenominator_eq (closest : Closest limitDenominator) (s_lt : s < r) (r_lt : r < n)
    (near : |(k : ℚ) - s * 2 ^ controlWidth n / r| ≤ 1 / 2) :
    phaseDenominator limitDenominator k (controlWidth n) n = r / Nat.gcd s r := by
  have positive : 0 < r := by omega
  have width : (0 : ℚ) < 2 ^ controlWidth n := by positivity
  have small : ((s : ℚ) / r).den ≤ n - 1 := by
    rw [den_of_fraction s positive]
    exact (Nat.div_le_self _ _).trans (by omega)
  have scaled : |(k : ℚ) / 2 ^ controlWidth n - s / r| * 2 ^ controlWidth n ≤ 1 / 2 := by
    have moved : (k : ℚ) - s * 2 ^ controlWidth n / r = (k / 2 ^ controlWidth n - s / r) * 2 ^ controlWidth n := by
      rw [sub_mul, div_mul_cancel₀ _ width.ne', div_mul_eq_mul_div]
    rwa [moved, abs_mul, abs_of_pos width] at near
  have squares : (((n - 1) ^ 2 : Nat) : ℚ) < 2 ^ controlWidth n := by
    exact_mod_cast (Nat.pow_le_pow_left (Nat.sub_le n 1) 2).trans_lt (sq_lt_control n)
  have unique : limitDenominator (k / 2 ^ controlWidth n) (n - 1) = s / r := by
    apply closest_unique closest small
    obtain zero | apart := (abs_nonneg ((k : ℚ) / 2 ^ controlWidth n - s / r)).eq_or_lt
    · rw [← zero, mul_zero, zero_mul]
      exact one_pos
    · nlinarith [mul_lt_mul_of_pos_left squares apart]
  rw [phaseDenominator, unique, den_of_fraction s positive]

end Phase

/-! ## Factors -/

def Splits (n : Nat) (factors : Nat × Nat) : Prop := 1 < factors.1 ∧ 1 < factors.2 ∧ factors.1 * factors.2 = n

theorem splits_of_dvd {n d : Nat} (large : 1 < d) (small : d < n) (divides : d ∣ n) : Splits n (d, n / d) := by
  obtain ⟨c, rfl⟩ := divides
  have cofactor : d * c / d = c := Nat.mul_div_cancel_left c (by omega)
  refine ⟨large, ?_, ?_⟩
  · rw [cofactor]
    by_contra few
    interval_cases c <;> omega
  · rw [cofactor]

section Rounds
variable {limitDenominator : ℚ → Nat → ℚ} {chance : Chance} {n : Nat}

theorem base_lt (large : 5 ≤ n) (round : Nat) : 0 < chance.base n round ∧ chance.base n round < n := by
  have := Nat.mod_lt (chance.draw round) (show 0 < n - 3 by omega)
  constructor
  · exact Nat.add_pos_left two_pos _
  · rw [Chance.base]
    omega

-- Nothing but a proper divisor and its cofactor is ever entered.
theorem shorRounds_splits (large : 5 ≤ n) {mode : Mode} {forceQuantum : Bool} {remaining round : Nat} {result : ShorResult}
    (before : ∀ factors, result.factors = some factors → Splits n factors) :
    ∀ factors, (shorRounds limitDenominator chance n mode forceQuantum round remaining result).factors = some factors →
      Splits n factors := by
  induction remaining generalizing round result with
  | zero => exact before
  | succ remaining ih =>
    rw [shorRounds]
    obtain ⟨base_pos, base_small⟩ : 0 < chance.base n round ∧ chance.base n round < n := base_lt large round
    by_cases lucky : 1 < Nat.gcd (chance.base n round) n
    · rw [if_pos lucky]
      cases forceQuantum with
      | true => exact ih before
      | false =>
        rintro factors ⟨⟩
        exact splits_of_dvd lucky ((Nat.gcd_le_left _ base_pos).trans_lt base_small) (Nat.gcd_dvd_right _ _)
    · rw [if_neg lucky]
      dsimp only
      split
      · exact ih before
      · split
        · exact ih before
        · split
          · rename_i candidate chosen
            rintro factors ⟨⟩
            have properly := List.find?_some chosen
            obtain ⟨one_lt, lt⟩ := of_decide_eq_true properly
            apply splits_of_dvd one_lt lt
            have member := List.mem_of_find?_eq_some chosen
            simp only [List.mem_cons, List.not_mem_nil, or_false] at member
            obtain rfl | rfl := member
            · exact Int.natCast_dvd_natCast.mp (Int.gcd_dvd_right _ _)
            · exact Int.natCast_dvd_natCast.mp (Int.gcd_dvd_right _ _)
          · exact ih before

theorem asPerfectPower_splits {power : Int × Nat} (found : asPerfectPower chance n = some power) :
    Splits n (power.1.toNat, n / power.1.toNat) := by
  rw [asPerfectPower] at found
  have properly := List.find?_some found
  obtain ⟨one_lt, equal⟩ := of_decide_eq_true properly
  have member := List.mem_of_find?_eq_some found
  obtain ⟨exponent, inside, near⟩ := List.mem_flatMap.mp member
  obtain ⟨nearby, -, rfl⟩ := List.mem_map.mp near
  obtain ⟨b, rfl⟩ := Int.eq_ofNat_of_zero_le (show 0 ≤ nearby by dsimp only at one_lt; omega)
  dsimp only at one_lt equal
  have base : 1 < b := by exact_mod_cast one_lt
  have power : b ^ exponent = n := by exact_mod_cast equal
  have two_le : 2 ≤ exponent := (List.mem_range'_1.mp inside).1
  dsimp only
  rw [Int.toNat_natCast]
  apply splits_of_dvd base
  · rw [← power]
    exact lt_self_pow₀ base two_le
  · rw [← power]
    exact dvd_pow_self b (by omega)

theorem shorFactor_splits {mode : Option Mode} {forceQuantum : Bool} {rounds : Nat} {result : ShorResult}
    (returned : shorFactor limitDenominator chance n mode forceQuantum rounds = .ok result) {factors : Nat × Nat}
    (reported : result.factors = some factors) : Splits n factors := by
  unfold shorFactor at returned
  by_cases small : n < 4
  · rw [if_pos small] at returned
    cases returned
  rw [if_neg small] at returned
  dsimp only at returned
  generalize mode.getD _ = mode at returned
  by_cases wide : mode = .statevector ∧ maxNStatevector < n
  · rw [if_pos wide] at returned
    cases returned
  rw [if_neg wide] at returned
  by_cases past : maxNAnalytic < n
  · rw [if_pos past] at returned
    cases returned
  rw [if_neg past] at returned
  by_cases even : n % 2 = 0
  · rw [if_pos even] at returned
    cases returned
    cases reported
    exact splits_of_dvd one_lt_two (by omega) (Nat.dvd_of_mod_eq_zero even)
  rw [if_neg even] at returned
  cases found : asPerfectPower chance n with
  | some power =>
    rw [found] at returned
    cases returned
    cases reported
    exact asPerfectPower_splits found
  | none =>
    rw [found] at returned
    cases returned
    refine shorRounds_splits (by omega) ?_ factors reported
    rintro _ ⟨⟩

end Rounds

/-! ## Exponents -/

theorem inverseMod_inverts {e modulus : Nat} (coprime : Nat.Coprime e modulus) (positive : 0 < modulus) :
    ∃ d, inverseMod e modulus = some d ∧ e * d ≡ 1 [MOD modulus] := by
  refine ⟨_, if_pos coprime, ?_⟩
  have nonneg : 0 ≤ Nat.gcdA e modulus % modulus := Int.emod_nonneg _ (by exact_mod_cast positive.ne')
  rw [← Int.natCast_modEq_iff]
  push_cast
  rw [Int.toNat_of_nonneg nonneg]
  have bezout := Nat.gcd_eq_gcd_ab e modulus
  rw [coprime] at bezout
  calc (e : Int) * (Nat.gcdA e modulus % modulus) ≡ e * Nat.gcdA e modulus [ZMOD modulus] :=
      (Int.mod_modEq _ _).mul_left _
    _ ≡ e * Nat.gcdA e modulus + modulus * Nat.gcdB e modulus [ZMOD modulus] := by
      simp
    _ = 1 := by exact_mod_cast bezout.symm

-- Fermat, with the multiples of the prime too
theorem pow_modEq_self {p k : Nat} (prime : p.Prime) (positive : 0 < k) (one : k ≡ 1 [MOD p - 1]) (m : Nat) :
    m ^ k ≡ m [MOD p] := by
  have : Fact p.Prime := ⟨prime⟩
  obtain ⟨c, apart⟩ := (Nat.modEq_iff_dvd' positive).mp one.symm
  obtain rfl : k = (p - 1) * c + 1 := by omega
  rw [← ZMod.natCast_eq_natCast_iff]
  push_cast
  obtain zero | nonzero := eq_or_ne (m : ZMod p) 0
  · rw [zero, zero_pow (Nat.succ_ne_zero _)]
  · rw [pow_succ, pow_mul, ZMod.pow_card_sub_one_eq_one nonzero, one_pow, one_mul]

theorem toySign_verifies {p q e : Nat} (p_prime : p.Prime) (q_prime : q.Prime) (distinct : p ≠ q)
    (invertible : Nat.Coprime e (Nat.lcm (p - 1) (q - 1))) :
    ∃ d, recoverRsaExponent e p q = some d ∧ ∀ m < p * q, toyVerify e (p * q) m (toySign d (p * q) m) = true := by
  have p_large := p_prime.two_le
  have q_large := q_prime.two_le
  have lcm_pos : 0 < Nat.lcm (p - 1) (q - 1) := Nat.lcm_pos (by omega) (by omega)
  obtain ⟨d, inverse, one⟩ := inverseMod_inverts invertible lcm_pos
  refine ⟨d, inverse, ?_⟩
  intro m small
  have one_p : e * d ≡ 1 [MOD p - 1] := one.of_dvd (Nat.dvd_lcm_left _ _)
  have one_q : e * d ≡ 1 [MOD q - 1] := one.of_dvd (Nat.dvd_lcm_right _ _)
  have positive : 0 < e * d := by
    apply Nat.pos_of_ne_zero
    intro zero
    rw [zero] at one_p one_q
    have p_two := Nat.dvd_one.mp ((Nat.modEq_iff_dvd' zero_le_one).mp one_p)
    have q_two := Nat.dvd_one.mp ((Nat.modEq_iff_dvd' zero_le_one).mp one_q)
    omega
  have back : m ^ (e * d) ≡ m [MOD p * q] := by
    apply (Nat.modEq_and_modEq_iff_modEq_mul ((Nat.coprime_primes p_prime q_prime).mpr distinct)).mp
    exact ⟨pow_modEq_self p_prime positive one_p m, pow_modEq_self q_prime positive one_q m⟩
  have modulus_pos : 0 < p * q := by positivity
  have recovered : powMod (powMod m d (p * q) : Nat) e (p * q) = m := by
    have same : ((powMod (powMod m d (p * q) : Nat) e (p * q) : Nat) : ZMod (p * q)) = (m : ZMod (p * q)) := by
      rw [powMod_cast e modulus_pos, Int.cast_natCast, powMod_cast d modulus_pos, Int.cast_natCast, ← pow_mul, mul_comm d e]
      exact_mod_cast (ZMod.natCast_eq_natCast_iff _ _ _).mpr back
    have residues := (ZMod.natCast_eq_natCast_iff' _ _ _).mp same
    rwa [Nat.mod_eq_of_lt (powMod_lt e modulus_pos), Nat.mod_eq_of_lt small] at residues
  rw [toyVerify, toySign, recovered]
  exact decide_eq_true rfl

/-! ## The whole -/

theorem classical_half {limitDenominator : ℚ → Nat → ℚ} (closest : Closest limitDenominator) :
    (∀ (n : Nat) (a : Int), 3 ≤ n → Int.gcd a n = 1 →
      (∀ (s : Nat) (k : Int), s < orderOf (a : ZMod n) →
        |(k : ℚ) - s * 2 ^ controlWidth n / orderOf (a : ZMod n)| ≤ 1 / 2 →
        phaseDenominator limitDenominator k (controlWidth n) n = orderOf (a : ZMod n) / Nat.gcd s (orderOf (a : ZMod n)) ∧
        (Nat.gcd s (orderOf (a : ZMod n)) ≤ maxOrderMultiple →
          ∃ found, (confirmOrderTrail a n (phaseDenominator limitDenominator k (controlWidth n) n)).1 = some found ∧
            0 < found ∧ orderOf (a : ZMod n) ∣ found)) ∧
      ∀ (candidate : Int) (order : Nat), (confirmOrderTrail a n candidate).1 = some order → orderOf (a : ZMod n) ∣ order) ∧
    (∀ (chance : Chance) (n : Nat) (mode : Option Mode) (forceQuantum : Bool) (rounds : Nat) (result : ShorResult)
      (factors : Nat × Nat), shorFactor limitDenominator chance n mode forceQuantum rounds = .ok result →
      result.factors = some factors → Splits n factors) ∧
    ∀ p q e : Nat, p.Prime → q.Prime → p ≠ q → Nat.Coprime e (Nat.lcm (p - 1) (q - 1)) →
      ∃ d, recoverRsaExponent e p q = some d ∧ ∀ m < p * q, toyVerify e (p * q) m (toySign d (p * q) m) = true := by
  refine ⟨?_, ?_, ?_⟩
  · intro n a large coprime
    have one_lt : 1 < n := by omega
    refine ⟨?_, fun candidate order found => (confirmOrder_multiple one_lt found).1⟩
    intro s k s_lt near
    have r_lt := order_lt one_lt coprime
    have phase := phaseDenominator_eq closest s_lt r_lt near
    refine ⟨phase, ?_⟩
    intro few
    rw [phase]
    exact confirmOrder_finds one_lt (Nat.div_mul_cancel (Nat.gcd_dvd_right _ _)) (order_pos one_lt coprime) r_lt few
  · intro chance n mode forceQuantum rounds result factors returned reported
    exact shorFactor_splits returned reported
  · intro p q e p_prime q_prime distinct invertible
    exact toySign_verifies p_prime q_prime distinct invertible

-- 7 has order 4 modulo 15; the register of 8 qubits measures 64, which is `1 / 4`.
theorem classical_half_sample :
    phaseDenominator ClosestFraction.search 64 (controlWidth 15) 15 = 4 / Nat.gcd 1 4 := by
  have order : orderOf ((7 : Int) : ZMod 15) = 4 := by
    apply orderOf_eq_of_pow_and_pow_div_prime (by norm_num) (by decide)
    intro p prime divides
    obtain rfl : p = 2 := (Nat.prime_dvd_prime_iff_eq prime Nat.prime_two).mp (prime.dvd_of_dvd_pow (show p ∣ 2 ^ 2 from divides))
    decide
  have orders := ((classical_half ClosestFraction.search_closest).1 15 7 (by norm_num) (by decide)).1 1 64
  rw [order] at orders
  have width : controlWidth 15 = 8 := rfl
  exact (orders (by norm_num) (by rw [width]; norm_num)).1

end QVault.Proof.Attack
