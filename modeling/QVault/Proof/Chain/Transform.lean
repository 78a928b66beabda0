import QVault.Chain.KeyExpansion
import QVault.Lib.Butterflies
import Mathlib.Data.ZMod.Basic
import Mathlib.GroupTheory.OrderOfElement
import Mathlib.LinearAlgebra.Lagrange
import Mathlib.Tactic

/-!
# The transform of the key expansion

`_ntt` gives the values of its polynomial at the odd powers of `zeta`: its in-place loops are layers of butterflies.
-/

namespace QVault.Proof.Chain.KeyExpansion

open QVault.Chain.KeyExpansion
open Butterflies

instance q_prime : Fact (Nat.Prime q) := ⟨by norm_num [q]⟩

-- The coefficients modulo q; past the end they are 0.
def residues (w : List Int) (p : Nat) : ZMod q := (w.getD p 0 : Int)

def root (m : Nat) : ZMod q := (zeta : ZMod q) ^ bitrev8 m

def point (p : Nat) : ZMod q := (zeta : ZMod q) ^ (2 * bitrev8 p + 1)

theorem zetas_residue (m : Nat) : ((zetas m : Int) : ZMod q) = root m := by
  rw [zetas, Int.cast_natCast, ZMod.natCast_mod, Nat.cast_pow, root]

/-! ## Powers of zeta -/

theorem zeta_half : (zeta : ZMod q) ^ 256 = -1 := by
  have power : ((zeta ^ 256 : Nat) : ZMod q) = ((q - 1 : Nat) : ZMod q) := by
    apply (ZMod.natCast_eq_natCast_iff' _ _ q).mpr
    rw [zeta, q]
    norm_num
  rw [← Nat.cast_pow, power, Nat.cast_sub (by norm_num [q]), ZMod.natCast_self, zero_sub, Nat.cast_one]

theorem zeta_order : orderOf (zeta : ZMod q) = 512 := by
  apply orderOf_eq_prime_pow (p := 2) (n := 8)
  · rw [show 2 ^ 8 = 256 from rfl, zeta_half]
    intro one
    have two : ((2 : Nat) : ZMod q) = ((0 : Nat) : ZMod q) := by
      push_cast
      linear_combination -one
    have := (ZMod.natCast_eq_natCast_iff' _ _ q).mp two
    norm_num [q] at this
  · rw [show 2 ^ (8 + 1) = 256 * 2 from rfl, pow_mul, zeta_half]
    norm_num

theorem zeta_pow {a b : Nat} (same : a % 512 = b % 512) : (zeta : ZMod q) ^ a = zeta ^ b := by
  rw [← pow_mod_orderOf _ a, ← pow_mod_orderOf _ b, zeta_order, same]

theorem neg_zeta_pow (a : Nat) : -(zeta : ZMod q) ^ a = zeta ^ (a + 256) := by
  rw [pow_add, zeta_half, mul_neg_one]

theorem point_half (p : Nat) : point p ^ 256 = -1 := by
  rw [point, pow_right_comm, zeta_half, Odd.neg_one_pow (odd_two_mul_add_one _)]

-- The exponents met on the way to position `p`
theorem exponents_halve : ∀ t < 8, ∀ p < 256, (2 * bitrev8 p + 1) * 2 ^ t % 512 =
    (bitrev8 (2 ^ (7 - t) + p / 2 ^ (t + 1)) + 256 * (p / 2 ^ t % 2)) % 512 := by
  decide +kernel

theorem bitrev8_involutive : ∀ p < 256, bitrev8 (bitrev8 p) = p := by
  decide +kernel

theorem bitrev8_lt : ∀ p < 256, bitrev8 p < 256 := by
  decide +kernel

theorem point_of {p : Nat} (inside : p < 256) : PointOf root p (point p) 0 8 := by
  apply PointOf.of_powers
  intro t below
  have exponents := exponents_halve t below p inside
  rw [point, ← pow_mul, show 0 + 8 - 1 - t = 7 - t by omega]
  split
  · rename_i even
    rw [even, mul_zero, add_zero] at exponents
    exact zeta_pow exponents
  · rename_i odd
    rw [show p / 2 ^ t % 2 = 1 by omega, mul_one] at exponents
    rw [root, neg_zeta_pow]
    exact zeta_pow exponents

theorem point_injective {i j : Nat} (i_inside : i < 256) (j_inside : j < 256) (same : point i = point j) : i = j := by
  have i_below := bitrev8_lt i i_inside
  have j_below := bitrev8_lt j j_inside
  have exponents : 2 * bitrev8 i + 1 = 2 * bitrev8 j + 1 := by
    apply pow_injOn_Iio_orderOf (x := (zeta : ZMod q)) _ _ same
    · rw [Set.mem_Iio, zeta_order]
      omega
    · rw [Set.mem_Iio, zeta_order]
      omega
  rw [← bitrev8_involutive i i_inside, ← bitrev8_involutive j j_inside]
  congr 1
  omega

/-! ## The loops -/

theorem residues_set {w : List Int} {j p : Nat} (inside : j < w.length) (c : Int) :
    residues (w.set j c) p = if p = j then (c : ZMod q) else residues w p := by
  rw [residues, List.getD_eq_getElem?_getD, List.getElem?_set]
  by_cases here : p = j
  · rw [if_pos here.symm, if_pos (here ▸ inside), if_pos here]
    rfl
  · rw [if_neg (Ne.symm here), if_neg here, residues, List.getD_eq_getElem?_getD]

theorem residues_past {w : List Int} {p : Nat} (past : w.length ≤ p) : residues w p = 0 := by
  rw [residues, List.getD_eq_getElem?_getD, List.getElem?_eq_none past, Option.getD_none, Int.cast_zero]

section Pass
variable {z : Int} {length : Nat} {w : List Int}

theorem butterfly_length (j : Nat) : (butterfly z length w j).length = w.length := by
  rw [butterfly, List.length_set, List.length_set]

theorem butterfly_residues {j : Nat} (positive : 0 < length) (inside : j + length < w.length) (p : Nat) :
    residues (butterfly z length w j) p =
      if p = j then residues w j + z * residues w (j + length)
      else if p = j + length then residues w j - z * residues w (j + length) else residues w p := by
  have other : j ≠ j + length := by omega
  have untouched : residues (w.set (j + length) ((w.getD j 0 - z * w.getD (j + length) 0 % q) % q)) j = residues w j := by
    rw [residues_set inside, if_neg other]
  rw [butterfly, residues_set (by rw [List.length_set]; omega), residues_set inside]
  by_cases here : p = j
  · rw [if_pos here, if_pos here, ZMod.intCast_mod, Int.cast_add, ZMod.intCast_mod, Int.cast_mul]
    exact congrArg (· + (z : ZMod q) * residues w (j + length)) untouched
  · rw [if_neg here, if_neg here]
    by_cases there : p = j + length
    · rw [if_pos there, if_pos there, ZMod.intCast_mod, Int.cast_sub, ZMod.intCast_mod, Int.cast_mul]
      rfl
    · rw [if_neg there, if_neg there]

theorem pass_length (js : List Nat) : (js.foldl (butterfly z length) w).length = w.length := by
  induction js generalizing w with
  | nil => rfl
  | cons j js ih => rw [List.foldl_cons, ih, butterfly_length]

-- The innermost loop, `count` passes of it done: the pairs it has reached are replaced, the others as they were.
theorem pass_residues {start count : Nat} (within : count ≤ length) (inside : start + length + count ≤ w.length) (p : Nat) :
    residues ((List.range' start count).foldl (butterfly z length) w) p =
      if start ≤ p ∧ p < start + count then residues w p + z * residues w (p + length)
      else if start + length ≤ p ∧ p < start + length + count then residues w (p - length) - z * residues w p
      else residues w p := by
  induction count generalizing p with
  | zero => rw [List.range'_zero, List.foldl_nil, if_neg (by omega), if_neg (by omega)]
  | succ count ih =>
    rw [List.range'_concat, List.foldl_append, List.foldl_cons, List.foldl_nil,
      butterfly_residues (by omega) (by rw [pass_length]; omega), one_mul, ih (by omega) (by omega), ih (by omega) (by omega),
      ih (by omega) (by omega)]
    -- The pair of this pass was not reached before.
    rw [if_neg (show ¬(start ≤ start + count ∧ start + count < start + count) by omega),
      if_neg (show ¬(start + length ≤ start + count ∧ start + count < start + length + count) by omega),
      if_neg (show ¬(start ≤ start + count + length ∧ start + count + length < start + count) by omega),
      if_neg (show ¬(start + length ≤ start + count + length ∧ start + count + length < start + length + count) by omega)]
    by_cases here : p = start + count
    · rw [if_pos here, if_pos (by omega), here]
    · rw [if_neg here]
      by_cases there : p = start + count + length
      · rw [if_pos there, if_neg (by omega), if_pos (by omega), there, Nat.add_sub_cancel]
      · rw [if_neg there]
        by_cases left : start ≤ p ∧ p < start + count
        · rw [if_pos left, if_pos (by omega)]
        · by_cases right : start + length ≤ p ∧ p < start + length + count
          · rw [if_neg left, if_pos right, if_neg (by omega), if_pos (by omega)]
          · rw [if_neg left, if_neg right, if_neg (by omega), if_neg (by omega)]

end Pass

/-! ## Layers -/

section Layers
variable {length : Nat} {state : List Int × Nat}

theorem nttBlock_length (start : Nat) : (nttBlock length state start).1.length = state.1.length := pass_length _

theorem block_length (starts : List Nat) : (starts.foldl (nttBlock length) state).1.length = state.1.length := by
  induction starts generalizing state with
  | nil => rfl
  | cons start starts ih => rw [List.foldl_cons, ih, nttBlock_length]

theorem block_index (starts : List Nat) : (starts.foldl (nttBlock length) state).2 = state.2 + starts.length := by
  induction starts generalizing state with
  | nil => rfl
  | cons start starts ih =>
    rw [List.foldl_cons, ih, List.length_cons, nttBlock]
    omega

theorem div_eq_of_block {b size p : Nat} (from_start : size * b ≤ p) (before : p < size * b + size) : p / size = b := by
  obtain ⟨r, rfl⟩ := Nat.exists_eq_add_of_le from_start
  rw [Nat.mul_add_div (by omega), Nat.div_eq_of_lt (by omega), add_zero]

theorem nttBlock_residues {b : Nat} (positive : 0 < length) (inside : 2 * length * b + 2 * length ≤ state.1.length) (p : Nat) :
    residues (nttBlock length state (2 * length * b)).1 p =
      if p / (2 * length) = b then layer (fun _ => root (state.2 + 1)) length (residues state.1) p else residues state.1 p := by
  rw [nttBlock, pass_residues le_rfl (by omega), zetas_residue]
  by_cases left : 2 * length * b ≤ p ∧ p < 2 * length * b + length
  · obtain ⟨r, rfl⟩ := Nat.exists_eq_add_of_le left.1
    rw [if_pos left, if_pos (div_eq_of_block left.1 (by omega)), layer_left (by omega), add_right_comm]
  · by_cases right : 2 * length * b + length ≤ p ∧ p < 2 * length * b + length + length
    · obtain ⟨r, rfl⟩ := Nat.exists_eq_add_of_le right.1
      have before : 2 * length * b + length + r - length = 2 * length * b + r := by omega
      rw [if_neg left, if_pos right, if_pos (div_eq_of_block (by omega) (by omega)), layer_right (by omega), before]
    · rw [if_neg left, if_neg right, if_neg]
      rintro rfl
      have start := Nat.mul_div_le p (2 * length)
      have rest := Nat.lt_mul_div_succ p (show 0 < 2 * length by omega)
      rw [mul_add, mul_one] at rest
      omega

-- The first `count` blocks are halved, the others as they were.
theorem blocks_residues (positive : 0 < length) {count : Nat} (inside : 2 * length * count ≤ state.1.length) (p : Nat) :
    residues ((List.range' 0 count (2 * length)).foldl (nttBlock length) state).1 p =
      if p / (2 * length) < count then layer (fun b => root (state.2 + 1 + b)) length (residues state.1) p
      else residues state.1 p := by
  induction count generalizing p with
  | zero => rw [List.range'_zero, List.foldl_nil, if_neg (Nat.not_lt_zero _)]
  | succ count ih =>
    have room : 2 * length * count + 2 * length ≤ state.1.length := by rwa [mul_add, mul_one] at inside
    rw [List.range'_concat, zero_add, List.foldl_append, List.foldl_cons, List.foldl_nil,
      nttBlock_residues positive (by rwa [block_length]), block_index, List.length_range']
    by_cases here : p / (2 * length) = count
    · rw [if_pos here, if_pos (by omega)]
      apply layer_congr positive
      · rw [here, add_right_comm]
      · intro r same
        rw [ih (by omega), if_neg (by omega)]
    · rw [if_neg here, ih (by omega)]
      by_cases before : p / (2 * length) < count
      · rw [if_pos before, if_pos (by omega)]
      · rw [if_neg before, if_neg (by omega)]

-- A whole layer; what is past the coefficients is 0 before and after.
theorem nttLayer_residues (positive : 0 < length) (whole : 2 * length * (n / (2 * length)) = n) (full : state.1.length = n) :
    residues (nttLayer length state).1 = layer (fun b => root (state.2 + 1 + b)) length (residues state.1) := by
  funext p
  rw [nttLayer, blocks_residues positive (by rw [whole, full])]
  split
  · rfl
  · rename_i past
    have beyond : n ≤ p := by
      rw [← whole]
      exact (Nat.mul_le_mul_left _ (not_lt.mp past)).trans (Nat.mul_div_le p _)
    rw [residues_past (by rwa [full]), layer]
    split
    · rw [residues_past (by rwa [full]), residues_past (by rw [full]; omega), mul_zero, add_zero]
    · rename_i odd
      -- The half before it is past the coefficients too.
      have at_least : 2 * (n / (2 * length)) + 1 ≤ p / length := by
        have half : p / (2 * length) = p / length / 2 := by rw [Nat.div_div_eq_div_mul, mul_comm]
        omega
      have start := (Nat.mul_le_mul_left length at_least).trans (Nat.mul_div_le p length)
      rw [mul_add, mul_one, mul_left_comm, ← mul_assoc, whole] at start
      rw [residues_past (by rw [full]; omega), residues_past (by rwa [full]), mul_zero, sub_zero]

theorem nttLayer_length : (nttLayer length state).1.length = state.1.length := block_length _

theorem nttLayer_index : (nttLayer length state).2 = state.2 + n / (2 * length) := by
  rw [nttLayer, block_index, List.length_range']

end Layers

theorem nttLoop_length {length : Nat} {state : List Int × Nat} : (nttLoop length state).1.length = state.1.length := by
  induction length using Nat.strong_induction_on generalizing state with
  | _ length ih =>
    rw [nttLoop]
    split
    · rfl
    · rw [ih (length / 2) (by omega), nttLayer_length]

theorem nttLoop_residues {s count : Nat} (layers_left : s + count = 8) {state : List Int × Nat} (full : state.1.length = n)
    (index : state.2 + 1 = 2 ^ s) : residues (nttLoop (2 ^ count / 2) state).1 = layers root s count (residues state.1) := by
  induction count generalizing s state with
  | zero =>
    rw [nttLoop, if_pos (by rfl)]
    rfl
  | succ count ih =>
    have positive : 0 < 2 ^ count := Nat.two_pow_pos count
    have whole : 2 ^ s * (2 * 2 ^ count) = n := by
      rw [← pow_succ', ← pow_add, show s + (count + 1) = 8 from layers_left]
      rfl
    have blocks : n / (2 * 2 ^ count) = 2 ^ s := Nat.div_eq_of_eq_mul_left (by omega) whole.symm
    have next : (nttLayer (2 ^ count) state).2 + 1 = 2 ^ (s + 1) := by
      rw [nttLayer_index, blocks, pow_succ]
      omega
    rw [pow_succ, Nat.mul_div_cancel _ two_pos, nttLoop, if_neg positive.ne', ih (by omega) (by rw [nttLayer_length, full]) next,
      nttLayer_residues positive (by rw [blocks, mul_comm, whole]) full, layers, index]

theorem residues_reduced (w : List Int) : residues (w.map (· % (q : Int))) = residues w := by
  funext p
  rw [residues, residues, List.getD_eq_getElem?_getD, List.getElem?_map, List.getD_eq_getElem?_getD]
  cases w[p]? with
  | none => rfl
  | some c => exact ZMod.intCast_mod c q

theorem ntt_length {w : List Int} : (ntt w).length = w.length := by
  rw [ntt, nttLoop_length, List.length_map]

theorem ntt_residues {w : List Int} (full : w.length = n) {p : Nat} (inside : p < n) :
    residues (ntt w) p = value (residues w) 0 n (point p) := by
  have loops : residues (nttLoop (2 ^ 8 / 2) (w.map (· % (q : Int)), 0)).1 =
      layers root 0 8 (residues (w.map (· % (q : Int)))) := nttLoop_residues rfl (by rwa [List.length_map]) rfl
  rw [residues_reduced] at loops
  have block : 2 ^ 8 * (p / 2 ^ 8) = 0 := by rw [Nat.div_eq_of_lt (show p < 2 ^ 8 from inside), mul_zero]
  have at_point := layers_value (point_of inside) (residues w)
  rw [block] at at_point
  rw [ntt]
  exact (congrFun loops p).trans at_point

/-! ## Range -/

def Reduced (w : List Int) : Prop := ∀ c ∈ w, 0 ≤ c ∧ c < q

theorem emod_reduced (c : Int) : 0 ≤ c % (q : Int) ∧ c % (q : Int) < q :=
  ⟨Int.emod_nonneg _ (by norm_num [q]), Int.emod_lt_of_pos _ (by norm_num [q])⟩

theorem set_reduced {w : List Int} (reduced : Reduced w) (j : Nat) (c : Int) : Reduced (w.set j (c % (q : Int))) := by
  intro c' member
  obtain old | rfl := List.mem_or_eq_of_mem_set member
  · exact reduced c' old
  · exact emod_reduced c

theorem pass_reduced {z : Int} {length : Nat} {js : List Nat} {w : List Int} (reduced : Reduced w) :
    Reduced (js.foldl (butterfly z length) w) := by
  induction js generalizing w with
  | nil => exact reduced
  | cons j js ih => exact ih (set_reduced (set_reduced reduced _ _) _ _)

theorem nttLayer_reduced {length : Nat} {state : List Int × Nat} (reduced : Reduced state.1) : Reduced (nttLayer length state).1 := by
  rw [nttLayer]
  generalize List.range' 0 (n / (2 * length)) (2 * length) = starts
  induction starts generalizing state with
  | nil => exact reduced
  | cons start starts ih =>
    have once : Reduced (nttBlock length state start).1 := pass_reduced reduced
    exact ih once

theorem nttLoop_reduced {length : Nat} {state : List Int × Nat} (reduced : Reduced state.1) : Reduced (nttLoop length state).1 := by
  induction length using Nat.strong_induction_on generalizing state with
  | _ length ih =>
    rw [nttLoop]
    split
    · exact reduced
    · exact ih (length / 2) (by omega) (nttLayer_reduced reduced)

theorem ntt_reduced (w : List Int) : Reduced (ntt w) := by
  apply nttLoop_reduced
  intro c member
  obtain ⟨c', -, rfl⟩ := List.mem_map.mp member
  exact emod_reduced c'

theorem getD_reduced {w : List Int} (reduced : Reduced w) (p : Nat) : 0 ≤ w.getD p 0 ∧ w.getD p 0 < q := by
  rw [List.getD_eq_getElem?_getD]
  cases here : w[p]? with
  | none => exact ⟨le_rfl, by norm_num [q]⟩
  | some c => exact reduced c (List.mem_of_getElem? here)

theorem eq_of_residue {a b : Int} (a_reduced : 0 ≤ a ∧ a < q) (b_reduced : 0 ≤ b ∧ b < q) (same : (a : ZMod q) = b) : a = b := by
  have := (ZMod.intCast_eq_intCast_iff' a b q).mp same
  rwa [Int.emod_eq_of_lt a_reduced.1 a_reduced.2, Int.emod_eq_of_lt b_reduced.1 b_reduced.2] at this

/-! ## Values, products and what is lost -/

-- The polynomial with coefficients `w`, at `x`
def valueAt (w : List Int) (x : Int) : Int := ∑ j ∈ Finset.range n, w.getD j 0 * x ^ j

open Polynomial in
noncomputable def polynomial (w : List Int) : (ZMod q)[X] := ∑ j ∈ Finset.range n, C (residues w j) * X ^ j

theorem valueAt_residue (w : List Int) (p : Nat) :
    ((valueAt w (zeta ^ (2 * bitrev8 p + 1) : Nat) : Int) : ZMod q) = value (residues w) 0 n (point p) := by
  rw [valueAt, Int.cast_sum, value]
  apply Finset.sum_congr rfl
  intro j _
  rw [zero_add, Int.cast_mul, Int.cast_pow, Int.cast_natCast, Nat.cast_pow]
  rfl

theorem eval_polynomial (w : List Int) (x : ZMod q) : (polynomial w).eval x = value (residues w) 0 n x := by
  rw [polynomial, Polynomial.eval_finset_sum, value]
  apply Finset.sum_congr rfl
  intro j _
  rw [zero_add, Polynomial.eval_mul, Polynomial.eval_C, Polynomial.eval_pow, Polynomial.eval_X]

theorem ntt_value {w : List Int} (full : w.length = n) {p : Nat} (inside : p < n) :
    (ntt w).getD p 0 = valueAt w (zeta ^ (2 * bitrev8 p + 1) : Nat) % q := by
  apply eq_of_residue (getD_reduced (ntt_reduced w) p) (emod_reduced _)
  rw [ZMod.intCast_mod, valueAt_residue]
  exact ntt_residues full inside

-- A product modulo `modulus` has the product's values where `modulus` is 0.
theorem eval_product {f g h modulus : Polynomial (ZMod q)} {x : ZMod q} (zero : modulus.eval x = 0)
    (product : modulus ∣ f - g * h) : f.eval x = g.eval x * h.eval x := by
  obtain ⟨factor, difference⟩ := product
  have at_point := congrArg (Polynomial.eval x) difference
  rw [Polynomial.eval_sub, Polynomial.eval_mul, Polynomial.eval_mul, zero, zero_mul] at at_point
  exact sub_eq_zero.mp at_point

open Polynomial in
theorem ntt_product {u v w : List Int} (u_full : u.length = n) (v_full : v.length = n) (w_full : w.length = n)
    (product : (X ^ 256 + 1 : (ZMod q)[X]) ∣ polynomial w - polynomial u * polynomial v) {p : Nat} (inside : p < n) :
    (ntt w).getD p 0 = (ntt u).getD p 0 * (ntt v).getD p 0 % q := by
  apply eq_of_residue (getD_reduced (ntt_reduced w) p) (emod_reduced _)
  rw [ZMod.intCast_mod, Int.cast_mul]
  change residues (ntt w) p = residues (ntt u) p * residues (ntt v) p
  rw [ntt_residues u_full inside, ntt_residues v_full inside, ntt_residues w_full inside, ← eval_polynomial, ← eval_polynomial,
    ← eval_polynomial]
  apply eval_product _ product
  rw [eval_add, eval_pow, eval_X, eval_one, point_half, neg_add_cancel]

theorem polynomial_degree (w : List Int) : (polynomial w).degree < n := by
  rw [polynomial, Finset.sum_range]
  exact Polynomial.degree_sum_fin_lt (n := n) fun j => residues w j

theorem polynomial_coeff (w : List Int) {j : Nat} (inside : j < n) : (polynomial w).coeff j = residues w j := by
  rw [polynomial, Polynomial.finsetSum_coeff, Finset.sum_eq_single j]
  · rw [Polynomial.coeff_C_mul_X_pow, if_pos rfl]
  · intro other _ different
    rw [Polynomial.coeff_C_mul_X_pow, if_neg different.symm]
  · intro outside
    exact absurd (Finset.mem_range.mpr inside) outside

-- 256 values determine a polynomial of degree below 256.
theorem ntt_injective {u v : List Int} (u_full : u.length = n) (v_full : v.length = n) (u_reduced : Reduced u)
    (v_reduced : Reduced v) (same : ntt u = ntt v) : u = v := by
  have polynomials : polynomial u = polynomial v := by
    have points : Set.InjOn point (Finset.range n) := by
      intro i i_inside j j_inside
      exact point_injective (Finset.mem_range.mp i_inside) (Finset.mem_range.mp j_inside)
    apply Polynomial.eq_of_degrees_lt_of_eval_index_eq (Finset.range n) points
    · rw [Finset.card_range]
      exact polynomial_degree u
    · rw [Finset.card_range]
      exact polynomial_degree v
    · intro p inside
      have below := Finset.mem_range.mp inside
      rw [eval_polynomial, eval_polynomial, ← ntt_residues u_full below, ← ntt_residues v_full below, same]
  apply List.ext_getElem (u_full.trans v_full.symm)
  intro p u_inside v_inside
  have coefficients := congrArg (fun polynomial => polynomial.coeff p) polynomials
  rw [polynomial_coeff u (u_full ▸ u_inside), polynomial_coeff v (v_full ▸ v_inside)] at coefficients
  have entries := eq_of_residue (getD_reduced u_reduced p) (getD_reduced v_reduced p) coefficients
  rwa [List.getD_eq_getElem?_getD, List.getD_eq_getElem?_getD, List.getElem?_eq_getElem u_inside,
    List.getElem?_eq_getElem v_inside] at entries

end QVault.Proof.Chain.KeyExpansion
