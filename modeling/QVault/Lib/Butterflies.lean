import Mathlib.Algebra.BigOperators.Intervals
import Mathlib.Algebra.BigOperators.Ring.Finset
import Mathlib.Tactic.Ring

/-!
# Transforms by layers of butterflies

Coefficients in blocks, each the residue of one polynomial modulo `X ^ size - c`. A layer halves every block by a
square root of its `c`; after the last layer each block is one value of the polynomial.
-/

namespace Butterflies

open Finset

variable {R : Type} [CommRing R]

-- The block of `size` coefficients from `start`, as a polynomial, at `x`
def value (a : Nat → R) (start size : Nat) (x : R) : R := ∑ k ∈ range size, a (start + k) * x ^ k

-- Blocks of `2 * len` into halves, the square root of block `b` being `root b`
def layer (root : Nat → R) (len : Nat) (a : Nat → R) (p : Nat) : R :=
  if p / len % 2 = 0 then a p + root (p / (2 * len)) * a (p + len) else a (p - len) - root (p / (2 * len)) * a p

-- `depth` layers from layer `s` on, the roots of layer `s` starting at index `2 ^ s`
def layers (root : Nat → R) (s : Nat) : Nat → (Nat → R) → Nat → R
  | 0, a => a
  | depth + 1, a => layers root (s + 1) depth (layer (fun b => root (2 ^ s + b)) (2 ^ depth) a)

theorem value_split (a : Nat → R) (start len : Nat) (x : R) :
    value a start (2 * len) x = value a start len x + x ^ len * value a (start + len) len x := by
  rw [value, two_mul, sum_range_add, value, value, mul_sum]
  congr 1
  apply sum_congr rfl
  intro k _
  rw [pow_add, add_assoc]
  ring

section Halves
variable {root : Nat → R} {len b : Nat} {a : Nat → R} {x : R}

theorem layer_left {k : Nat} (inside : k < len) :
    layer root len a (2 * len * b + k) = a (2 * len * b + k) + root b * a (2 * len * b + len + k) := by
  have positive : 0 < len := by omega
  have half : (2 * len * b + k) / len = 2 * b := by
    rw [mul_assoc, mul_left_comm, Nat.mul_add_div positive, Nat.div_eq_of_lt inside, add_zero]
  have block : (2 * len * b + k) / (2 * len) = b := by
    rw [Nat.mul_add_div (by omega), Nat.div_eq_of_lt (by omega), add_zero]
  rw [layer, half, block, if_pos (Nat.mul_mod_right 2 b), add_right_comm]

theorem layer_right {k : Nat} (inside : k < len) :
    layer root len a (2 * len * b + len + k) = a (2 * len * b + k) - root b * a (2 * len * b + len + k) := by
  have positive : 0 < len := by omega
  have half : (2 * len * b + len + k) / len = 2 * b + 1 := by
    have moved : 2 * len * b + len + k = len * (2 * b + 1) + k := by ring
    rw [moved, Nat.mul_add_div positive, Nat.div_eq_of_lt inside, add_zero]
  have block : (2 * len * b + len + k) / (2 * len) = b := by
    rw [add_assoc, Nat.mul_add_div (by omega), Nat.div_eq_of_lt (by omega), add_zero]
  rw [layer, half, block, if_neg (by omega)]
  congr 2
  omega

theorem value_layer_left (root_of : x ^ len = root b) :
    value (layer root len a) (2 * len * b) len x = value a (2 * len * b) (2 * len) x := by
  rw [value_split, root_of, value, value, value, mul_sum, ← sum_add_distrib]
  apply sum_congr rfl
  intro k inside
  rw [layer_left (mem_range.mp inside)]
  ring

theorem value_layer_right (root_of : x ^ len = -root b) :
    value (layer root len a) (2 * len * b + len) len x = value a (2 * len * b) (2 * len) x := by
  rw [value_split, root_of, value, value, value, mul_sum, ← sum_add_distrib]
  apply sum_congr rfl
  intro k inside
  rw [layer_right (mem_range.mp inside)]
  ring

end Halves

-- A position depends on its own block only.
theorem layer_congr {root root' : Nat → R} {len p : Nat} {a a' : Nat → R} (positive : 0 < len)
    (roots : root (p / (2 * len)) = root' (p / (2 * len))) (block : ∀ r, r / (2 * len) = p / (2 * len) → a r = a' r) :
    layer root len a p = layer root' len a' p := by
  have halves : ∀ r, r / (2 * len) = r / len / 2 := fun r => by rw [Nat.div_div_eq_div_mul, mul_comm]
  rw [layer, layer, roots, block p rfl]
  split
  · have partner : (p + len) / len = p / len + 1 := Nat.add_div_right p positive
    rw [block (p + len) (by rw [halves, halves, partner]; omega)]
  · have above : len ≤ p := by
      by_contra below
      have := Nat.div_eq_of_lt (not_le.mp below)
      omega
    have partner : (p - len) / len + 1 = p / len := by
      rw [← Nat.add_div_right _ positive, Nat.sub_add_cancel above]
    rw [block (p - len) (by rw [halves, halves]; omega)]

-- What makes `x` the point of position `p` in the layers from `s` on: its powers are the roots met on the way there.
def PointOf (root : Nat → R) (p : Nat) (x : R) (s : Nat) : Nat → Prop
  | 0 => True
  | depth + 1 =>
    x ^ 2 ^ depth = (if p / 2 ^ depth % 2 = 0 then root (2 ^ s + p / 2 ^ (depth + 1)) else -root (2 ^ s + p / 2 ^ (depth + 1))) ∧
    PointOf root p x (s + 1) depth

theorem PointOf.of_powers {root : Nat → R} {p : Nat} {x : R} {depth s : Nat}
    (powers : ∀ t < depth, x ^ 2 ^ t = if p / 2 ^ t % 2 = 0 then root (2 ^ (s + depth - 1 - t) + p / 2 ^ (t + 1))
      else -root (2 ^ (s + depth - 1 - t) + p / 2 ^ (t + 1))) : PointOf root p x s depth := by
  induction depth generalizing s with
  | zero => trivial
  | succ depth ih =>
    constructor
    · have first := powers depth depth.lt_succ_self
      rwa [show s + (depth + 1) - 1 - depth = s by omega] at first
    · apply ih
      intro t below
      have later := powers t (Nat.lt_succ_of_lt below)
      rwa [show s + (depth + 1) - 1 - t = s + 1 + depth - 1 - t by omega] at later

theorem layers_value {root : Nat → R} {p : Nat} {x : R} {depth s : Nat} (point : PointOf root p x s depth) (a : Nat → R) :
    layers root s depth a p = value a (2 ^ depth * (p / 2 ^ depth)) (2 ^ depth) x := by
  induction depth generalizing s a with
  | zero => simp [layers, value]
  | succ depth ih =>
    obtain ⟨power, rest⟩ := point
    rw [layers, ih rest, pow_succ']
    rw [pow_succ'] at power
    have halves : p / 2 ^ depth / 2 = p / (2 * 2 ^ depth) := by rw [Nat.div_div_eq_div_mul, mul_comm]
    by_cases even : p / 2 ^ depth % 2 = 0
    · rw [if_pos even] at power
      have start : 2 ^ depth * (p / 2 ^ depth) = 2 * 2 ^ depth * (p / (2 * 2 ^ depth)) := by
        rw [← halves, mul_assoc, mul_left_comm, Nat.mul_div_cancel' (Nat.dvd_of_mod_eq_zero even)]
      rw [start]
      apply value_layer_left
      exact power
    · rw [if_neg even] at power
      have start : 2 ^ depth * (p / 2 ^ depth) = 2 * 2 ^ depth * (p / (2 * 2 ^ depth)) + 2 ^ depth := by
        have odd : p / 2 ^ depth = 2 * (p / 2 ^ depth / 2) + 1 := by omega
        rw [← halves]
        nth_rewrite 1 [odd]
        ring
      rw [start]
      apply value_layer_right
      exact power

end Butterflies
