import Mathlib.Data.List.Basic
import Mathlib.Logic.Function.Basic

/-!
# Cyclic redundancy checks

A register of `w` bits takes a message one bit at a time, the most significant first: `poly` is the
generator without its highest term, and it is odd where its lowest term is one.
-/

namespace Crc

section Register
variable {w : Nat} (poly : BitVec w)

def feed (r : BitVec w) (bit : Bool) : BitVec w := if r.msb ^^ bit then r <<< 1 ^^^ poly else r <<< 1

def run (r : BitVec w) (bits : List Bool) : BitVec w := bits.foldl (feed poly) r

-- The register's highest bits
def top (r : BitVec w) (n : Nat) : List Bool := (List.range n).map r.getMsbD

end Register

section Runs
variable {w : Nat} {poly : BitVec w}

@[simp] theorem run_nil (r : BitVec w) : run poly r [] = r := rfl

@[simp] theorem run_cons (r : BitVec w) (bit : Bool) (bits : List Bool) :
    run poly r (bit :: bits) = run poly (feed poly r bit) bits := rfl

theorem run_append (r : BitVec w) (bits bits' : List Bool) :
    run poly r (bits ++ bits') = run poly (run poly r bits) bits' := List.foldl_append

/-! ## Linearity -/

theorem feed_xor (a b : BitVec w) (x y : Bool) : feed poly (a ^^^ b) (x ^^ y) = feed poly a x ^^^ feed poly b y := by
  have twice : ∀ c d : BitVec w, (c ^^^ poly) ^^^ (d ^^^ poly) = c ^^^ d := by
    intro c d
    rw [BitVec.xor_assoc, BitVec.xor_comm d poly, ← BitVec.xor_assoc poly poly d, BitVec.xor_self, BitVec.zero_xor]
  unfold feed
  rw [BitVec.msb_xor, BitVec.shiftLeft_xor_distrib]
  have bits : ((a.msb ^^ b.msb) ^^ (x ^^ y)) = ((a.msb ^^ x) ^^ (b.msb ^^ y)) := by
    cases a.msb <;> cases b.msb <;> cases x <;> cases y <;> rfl
  rw [bits]
  cases a.msb ^^ x <;> cases b.msb ^^ y
  · rfl
  · exact BitVec.xor_assoc _ _ _
  · simp only [Bool.true_xor, Bool.not_false, if_true, Bool.false_eq_true, if_false]
    rw [BitVec.xor_assoc, BitVec.xor_assoc, BitVec.xor_comm (b <<< 1) poly]
  · exact (twice _ _).symm

theorem run_xor {xs ys : List Bool} (lengths : xs.length = ys.length) (a b : BitVec w) :
    run poly (a ^^^ b) (xs.zipWith xor ys) = run poly a xs ^^^ run poly b ys := by
  induction xs generalizing ys a b with
  | nil =>
    rw [List.length_eq_zero_iff.mp lengths.symm]
    rfl
  | cons x xs ih =>
    cases ys with
    | nil => cases lengths
    | cons y ys =>
      rw [List.zipWith_cons_cons, run_cons, run_cons, run_cons, feed_xor]
      exact ih (Nat.succ.inj lengths) _ _

/-! ## The register's own bits -/

theorem feed_msb (r : BitVec w) : feed poly r r.msb = r <<< 1 := by simp [feed]

-- Bits that are the register's own only move it.
theorem run_top (r : BitVec w) (n : Nat) : run poly r (top r n) = r <<< n := by
  induction n with
  | zero => exact (BitVec.shiftLeft_zero r).symm
  | succ n ih =>
    have last : top r (n + 1) = top r n ++ [(r <<< n).msb] := by
      rw [top, List.range_succ, List.map_append, BitVec.msb_eq_getMsbD_zero, BitVec.getMsbD_shiftLeft, Nat.zero_add]
      rfl
    rw [last, run_append, ih, run_cons, run_nil, feed_msb, ← BitVec.shiftLeft_add]

theorem top_length (r : BitVec w) (n : Nat) : (top r n).length = n := by simp [top]

-- Any other bits are looked up, since a run is linear.
theorem run_chunk (r : BitVec w) (bits : List Bool) :
    run poly r bits = r <<< bits.length ^^^ run poly 0#w ((top r bits.length).zipWith xor bits) := by
  have twice : (top r bits.length).zipWith xor ((top r bits.length).zipWith xor bits) = bits := by
    apply List.ext_getElem
    · simp [top_length]
    · intro i _ _
      simp only [List.getElem_zipWith, ← Bool.xor_assoc, Bool.xor_self, Bool.false_xor]
  have lengths : (top r bits.length).length = ((top r bits.length).zipWith xor bits).length := by simp [top_length]
  have linear : run poly (r ^^^ 0#w) _ = _ := run_xor lengths r 0#w
  rwa [twice, BitVec.xor_zero, run_top] at linear

/-! ## What leaves the register empty -/

theorem top_zero (n : Nat) : top 0#w n = List.replicate n false := by
  refine List.eq_replicate_of_mem ?_ |>.trans (by rw [top_length])
  intro bit listed
  obtain ⟨i, -, rfl⟩ := List.mem_map.mp listed
  simp

section Odd
variable (odd : poly.getLsbD 0 = true)
include odd

theorem feed_low (r : BitVec w) (bit : Bool) : (feed poly r bit).getLsbD 0 = (r.msb ^^ bit) := by
  unfold feed
  cases r.msb ^^ bit <;> simp [odd]

-- A short run comes to nothing only by the register's own bits.
theorem run_eq_zero {r : BitVec w} {bits : List Bool} (short : bits.length ≤ w) (empty : run poly r bits = 0#w) :
    bits = top r bits.length ∧ r <<< bits.length = 0#w := by
  induction bits generalizing r with
  | nil => exact ⟨rfl, (BitVec.shiftLeft_zero r).trans empty⟩
  | cons bit rest ih =>
    rw [List.length_cons] at short
    obtain ⟨later, gone⟩ := ih (by omega) empty
    have low : (feed poly r bit).getLsbD 0 = false := by
      have moved : ((feed poly r bit) <<< rest.length).getLsbD rest.length = false := by rw [gone, BitVec.getLsbD_zero]
      rw [BitVec.getLsbD_shiftLeft, decide_eq_true (show rest.length < w by omega), Nat.sub_self] at moved
      simpa only [Nat.lt_irrefl, decide_false, Bool.not_false, Bool.true_and] using moved
    rw [feed_low odd] at low
    have own : bit = r.msb := by
      revert low
      cases r.msb <;> cases bit <;> decide
    rw [own, feed_msb] at later gone
    have first : top r (rest.length + 1) = r.msb :: top (r <<< 1) rest.length := by
      rw [top, List.range_succ_eq_map, List.map_cons, List.map_map, BitVec.msb_eq_getMsbD_zero, top]
      congr 1
      refine List.map_congr_left fun i _ => ?_
      rw [BitVec.getMsbD_shiftLeft, Function.comp_apply]
    refine ⟨by rw [List.length_cons, first, ← later, own], ?_⟩
    rw [List.length_cons, Nat.add_comm, BitVec.shiftLeft_add]
    exact gone

theorem run_injective {r : BitVec w} {bits bits' : List Bool} (lengths : bits.length = bits'.length)
    (short : bits.length ≤ w) (same : run poly r bits = run poly r bits') : bits = bits' := by
  have difference : run poly (r ^^^ r) _ = _ := run_xor lengths r r
  rw [same, BitVec.xor_self, BitVec.xor_self] at difference
  have length : (bits.zipWith xor bits').length = bits.length := by simp [lengths]
  have zeros := (run_eq_zero odd (length ▸ short) difference).1
  rw [length, top_zero] at zeros
  apply List.ext_getElem lengths
  intro i inside inside'
  have bit : (bits.zipWith xor bits')[i]? = some (bits[i] ^^ bits'[i]) := by
    simp [List.getElem?_zipWith, inside, inside']
  have none : (bits.zipWith xor bits')[i]? = some false := by rw [zeros, List.getElem?_replicate, if_pos inside]
  have equal : (bits[i] ^^ bits'[i]) = false := Option.some.inj (bit.symm.trans none)
  cases here : bits[i] <;> cases there : bits'[i] <;> simp_all

theorem feed_injective (bit : Bool) : Function.Injective fun r : BitVec w => feed poly r bit := by
  intro a b same
  have difference : feed poly (a ^^^ b) _ = _ := feed_xor a b bit bit
  have equal : feed poly a bit = feed poly b bit := same
  rw [equal, BitVec.xor_self, Bool.xor_self] at difference
  have one : run poly (a ^^^ b) [false] = 0#w := difference
  by_cases none : w = 0
  · subst none
    exact Subsingleton.elim a b
  · obtain ⟨own, gone⟩ := run_eq_zero odd (by simpa using Nat.one_le_iff_ne_zero.mpr none) one
    have high : (a ^^^ b).getMsbD 0 = false := (List.cons.inj own).1.symm
    have zero : a ^^^ b = 0#w := by
      apply BitVec.eq_of_getMsbD_eq
      intro i inside
      cases i with
      | zero => simpa using high
      | succ i =>
        have moved : ((a ^^^ b) <<< 1).getMsbD i = false := by
          have none : (a ^^^ b) <<< 1 = 0#w := gone
          rw [none]
          simp
        rw [BitVec.getMsbD_shiftLeft] at moved
        simpa using moved
    exact BitVec.xor_eq_zero_iff.mp zero

theorem run_register_injective (bits : List Bool) : Function.Injective fun r : BitVec w => run poly r bits := by
  induction bits with
  | nil => exact fun a b same => same
  | cons bit rest ih => exact fun a b same => feed_injective odd bit (ih same)

-- Two messages of one check differ in more than a window of the register's width.
theorem run_window {r : BitVec w} {before window window' after : List Bool} (lengths : window.length = window'.length)
    (short : window.length ≤ w)
    (same : run poly r (before ++ (window ++ after)) = run poly r (before ++ (window' ++ after))) : window = window' := by
  simp only [run_append] at same
  exact run_injective odd lengths short (run_register_injective odd after same)

end Odd
end Runs

end Crc
