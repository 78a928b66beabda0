import Mathlib.Data.Rat.Floor
import Mathlib.Algebra.Order.Round
import Mathlib.Tactic

/-!
# The closest fraction with a small denominator

A fraction that is near enough to `x`, in terms of how large denominators may be, is the only closest one.
-/

namespace ClosestFraction

-- A function that returns a fraction of denominator at most `bound`, and none of those is nearer to `x`
structure Closest (limit : ℚ → Nat → ℚ) : Prop where
  small : ∀ x {bound}, 0 < bound → (limit x bound).den ≤ bound
  near : ∀ x y {bound}, 0 < bound → y.den ≤ bound → |x - limit x bound| ≤ |x - y|

-- Different fractions differ by at least one over the product of their denominators.
theorem one_le_apart {x y : ℚ} (different : x ≠ y) : 1 ≤ |x - y| * (x.den * y.den : Nat) := by
  have whole : (x - y) * (x.den * y.den : Nat) = ((x.num * y.den - y.num * x.den : Int) : ℚ) := by
    push_cast
    linear_combination (y.den : ℚ) * x.mul_den_eq_num - (x.den : ℚ) * y.mul_den_eq_num
  have positive : (0 : ℚ) < (x.den * y.den : Nat) := by exact_mod_cast Nat.mul_pos x.den_pos y.den_pos
  have nonzero : x.num * y.den - y.num * x.den ≠ 0 := by
    intro zero
    rw [zero, Int.cast_zero] at whole
    exact different (sub_eq_zero.mp ((mul_eq_zero.mp whole).resolve_right positive.ne'))
  have one : (1 : ℚ) ≤ |((x.num * y.den - y.num * x.den : Int) : ℚ)| := by
    rw [← Int.cast_abs]
    exact_mod_cast Int.one_le_abs nonzero
  calc (1 : ℚ) ≤ |(x - y) * (x.den * y.den : Nat)| := whole ▸ one
    _ = |x - y| * (x.den * y.den : Nat) := by rw [abs_mul, abs_of_pos positive]

theorem closest_unique {limit : ℚ → Nat → ℚ} (closest : Closest limit) {x y : ℚ} {bound : Nat} (small : y.den ≤ bound)
    (near : 2 * |x - y| * (bound ^ 2 : Nat) < 1) : limit x bound = y := by
  by_contra different
  have positive : 0 < bound := y.den_pos.trans_le small
  have apart := one_le_apart different
  have between : |limit x bound - y| ≤ 2 * |x - y| := by
    calc |limit x bound - y| ≤ |limit x bound - x| + |x - y| := abs_sub_le _ _ _
      _ ≤ |x - y| + |x - y| := by
        rw [abs_sub_comm (limit x bound) x]
        exact add_le_add_left (closest.near x y positive small) _
      _ = 2 * |x - y| := by ring
  have dens : (((limit x bound).den * y.den : Nat) : ℚ) ≤ (bound ^ 2 : Nat) := by
    exact_mod_cast (Nat.mul_le_mul (closest.small x positive) small).trans_eq (sq bound).symm
  have : |limit x bound - y| * (((limit x bound).den * y.den : Nat) : ℚ) ≤ 2 * |x - y| * (bound ^ 2 : Nat) := by
    gcongr
  linarith

/-! ## One such function -/

-- The nearest fraction over each denominator up to `bound`, and of these the nearest
def search (x : ℚ) : Nat → ℚ
  | 0 => round x
  | d + 1 =>
    let best := search x d
    let next := (round (x * (d + 1)) : ℚ) / (d + 1)
    if |x - next| < |x - best| then next else best

theorem round_over_near (x y : ℚ) : |x - (round (x * y.den) : ℚ) / y.den| ≤ |x - y| := by
  have positive : (0 : ℚ) < y.den := by exact_mod_cast y.den_pos
  have scaled : ∀ z : Int, |x - z / y.den| = |x * y.den - z| / y.den := by
    intro z
    rw [← abs_of_pos positive, ← abs_div, abs_of_pos positive]
    congr 1
    field_simp
  calc |x - (round (x * y.den) : ℚ) / y.den| = |x * y.den - round (x * y.den)| / y.den := scaled _
    _ ≤ |x * y.den - y.num| / y.den := by
      have nearest := round_le (x * y.den) y.num
      gcongr
    _ = |x - y.num / y.den| := (scaled _).symm
    _ = |x - y| := by rw [Rat.num_div_den]

theorem search_near (x y : ℚ) {bound : Nat} (small : y.den ≤ bound) : |x - search x bound| ≤ |x - y| := by
  induction bound with
  | zero => exact absurd small y.den_pos.not_ge
  | succ d ih =>
    rw [search]
    obtain earlier | here := Nat.lt_or_eq_of_le small
    · split
      · rename_i nearer
        exact nearer.le.trans (ih (Nat.lt_succ_iff.mp earlier))
      · exact ih (Nat.lt_succ_iff.mp earlier)
    · have rounded := round_over_near x y
      rw [here] at rounded
      push_cast at rounded
      split
      · exact rounded
      · rename_i further
        exact (not_lt.mp further).trans rounded

theorem den_le_of_div {a : Int} {d : Nat} : ((a : ℚ) / ((d : ℚ) + 1)).den ≤ d + 1 := by
  have divides : ((a : ℚ) / ((d + 1 : Nat) : Int)).den ∣ d + 1 := by
    have := Rat.den_dvd a ((d + 1 : Nat) : Int)
    rw [← Rat.intCast_div_eq_divInt] at this
    exact_mod_cast this
  have le := Nat.le_of_dvd d.succ_pos divides
  push_cast at le
  exact le

theorem search_small (x : ℚ) {bound : Nat} (positive : 0 < bound) : (search x bound).den ≤ bound := by
  induction bound with
  | zero => exact absurd positive (lt_irrefl 0)
  | succ d ih =>
    rw [search]
    split
    · exact den_le_of_div
    · cases d with
      | zero => simp [search]
      | succ d => exact (ih d.succ_pos).trans (Nat.le_succ _)

theorem search_closest : Closest search where
  small x _ := search_small x
  near x y _ _ := search_near x y

end ClosestFraction
