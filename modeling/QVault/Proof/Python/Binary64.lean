import QVault.Lib.Binary64

/-!
# Rounding large numbers

A number from `2 ^ 53` on is not rounded below it.
-/

namespace Binary64

theorem roundHalfEven_floor (q : Rat) : ⌊q⌋.toNat ≤ roundHalfEven q := by
  unfold roundHalfEven
  simp only
  split_ifs <;> omega

theorem magnitudeBits_ofBits (negative : Bool) (magnitude : Nat) :
    (ofBits negative magnitude).magnitudeBits = min magnitude (2047 * 2 ^ 52) := by
  have small : min magnitude (2047 * 2 ^ 52) < 2 ^ 63 := lt_of_le_of_lt (Nat.min_le_right _ _) (by norm_num)
  unfold ofBits magnitudeBits
  rw [BitVec.toNat_ofNat]
  generalize min magnitude (2047 * 2 ^ 52) = bits at small
  cases negative
  · simp only [Bool.false_eq_true, if_false]
    omega
  · simp only [if_true]
    omega

theorem abs_toRat (x : Binary64) : |x.toRat| = x.units * unit := by
  have positive : (0 : Rat) ≤ unit := by
    unfold unit
    positivity
  unfold toRat
  rw [abs_mul, abs_of_nonneg positive]
  split
  · rw [abs_neg, Nat.abs_cast]
  · rw [Nat.abs_cast]

theorem units_large {x : Binary64} (large : 1076 * 2 ^ 52 ≤ x.magnitudeBits) : 2 ^ 1127 ≤ x.units := by
  have exponent : 1076 ≤ x.exponentField := (Nat.le_div_iff_mul_le (by norm_num)).mpr large
  have power : 2 ^ 1075 ≤ 2 ^ (x.exponentField - 1) := Nat.pow_le_pow_right (by norm_num) (by omega)
  unfold units
  rw [if_neg (by omega)]
  calc 2 ^ 1127 = 2 ^ 52 * 2 ^ 1075 := by rw [← pow_add]
    _ ≤ (2 ^ 52 + x.fraction) * 2 ^ (x.exponentField - 1) := Nat.mul_le_mul (Nat.le_add_right _ _) power

theorem round_magnitude {negative : Bool} {q : Rat} (large : 2 ^ 53 ≤ q) :
    1076 * 2 ^ 52 ≤ (round negative q).magnitudeBits := by
  let units := q / unit
  let scale := Nat.log2 ⌊units⌋.toNat - 52
  have many : (2 ^ 1127 : Rat) ≤ units := by
    have isUnits : units = q * 2 ^ 1074 := by simp [units, unit]
    rw [isUnits]
    calc (2 ^ 1127 : Rat) = 2 ^ 53 * 2 ^ 1074 := by rw [← pow_add]
      _ ≤ q * 2 ^ 1074 := by gcongr
  have floor : 2 ^ 1127 ≤ ⌊units⌋.toNat := by
    have whole : ((2 ^ 1127 : ℕ) : ℤ) ≤ ⌊units⌋ := Int.le_floor.mpr (by exact_mod_cast many)
    omega
  have nonzero : ⌊units⌋.toNat ≠ 0 := (lt_of_lt_of_le (by positivity) floor).ne'
  have log : 1127 ≤ Nat.log2 ⌊units⌋.toNat := (Nat.le_log2 nonzero).mpr floor
  have scaled : 1075 ≤ scale := by omega
  -- The hidden bit
  have mantissa : 2 ^ 52 ≤ roundHalfEven (units / 2 ^ scale) := by
    have power : 2 ^ (52 + scale) ≤ ⌊units⌋.toNat := by
      have sum : 52 + scale = Nat.log2 ⌊units⌋.toNat := by omega
      rw [sum]
      exact Nat.log2_self_le nonzero
    have below : ((2 ^ (52 + scale) : ℕ) : Rat) ≤ units := by
      have whole : ((2 ^ (52 + scale) : ℕ) : ℤ) ≤ ⌊units⌋ := by omega
      exact_mod_cast Int.le_floor.mp whole
    have divided : ((2 ^ 52 : ℕ) : Rat) ≤ units / 2 ^ scale := by
      rw [le_div_iff₀ (by positivity)]
      calc ((2 ^ 52 : ℕ) : Rat) * 2 ^ scale = ((2 ^ (52 + scale) : ℕ) : Rat) := by
            rw [pow_add]
            push_cast
            rfl
        _ ≤ units := below
    have isFloor : ((2 ^ 52 : ℕ) : ℤ) ≤ ⌊units / 2 ^ scale⌋ := Int.le_floor.mpr (by exact_mod_cast divided)
    exact le_trans (by omega) (roundHalfEven_floor _)
  have isRound : round negative q = ofBits negative (scale * 2 ^ 52 + roundHalfEven (units / 2 ^ scale)) := rfl
  rw [isRound, magnitudeBits_ofBits]
  refine le_min ?_ (by norm_num)
  have whole : 1075 * 2 ^ 52 ≤ scale * 2 ^ 52 := Nat.mul_le_mul_right _ scaled
  omega

theorem round_large {negative : Bool} {q : Rat} (large : 2 ^ 53 ≤ q) : 2 ^ 53 ≤ |(round negative q).toRat| := by
  rw [abs_toRat]
  have many : ((2 ^ 1127 : ℕ) : Rat) ≤ (round negative q).units := by
    exact_mod_cast units_large (round_magnitude large)
  calc (2 ^ 53 : Rat) = ((2 ^ 1127 : ℕ) : Rat) * unit := by
        rw [unit, mul_one_div, eq_div_iff (by positivity), ← pow_add]
        push_cast
        rfl
    _ ≤ (round negative q).units * unit := by
        refine mul_le_mul_of_nonneg_right many ?_
        unfold unit
        positivity

end Binary64
