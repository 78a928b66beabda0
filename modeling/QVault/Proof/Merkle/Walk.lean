import QVault.Lib.AuditPath
import QVault.Transparency.Merkle

/-!
# The bit walk and the recursive split

The verifiers walk from a leaf to the root by shifting a pair `(fn, sn)`; the generators recurse
from the root by splitting off the largest power of two. `walk_eq_pathSides` and
`consistencyWalk_eq` say that both meet the same siblings on the same sides.
-/

namespace QVault.Proof.Merkle
open QVault.Transparency AuditPath

theorem split_spec {n : Nat} (h : 2 ≤ n) : ∃ e, split n = 2 ^ e ∧ 2 ^ e < n ∧ n ≤ 2 ^ (e + 1) := by
  refine ⟨Nat.log2 (n - 1), split_eq h, ?_, ?_⟩
  · have := Nat.log2_self_le (n := n - 1) (by omega)
    omega
  · have := Nat.lt_log2_self (n := n - 1)
    omega

theorem split_of_pow {n e : Nat} (low : 2 ^ e < n) (high : n ≤ 2 ^ (e + 1)) : split n = 2 ^ e := by
  have pos := Nat.two_pow_pos e
  have log : Nat.log2 (n - 1) = e :=
    (Nat.log2_eq_iff (by omega)).mpr ⟨by omega, by omega⟩
  rw [split_eq (by omega), log]

/-! ## The two inner loops -/

theorem skipEven_zero (sn : Nat) : skipEven 0 sn = (0, sn) := by
  rw [skipEven]
  simp

theorem skipEven_odd {fn : Nat} (odd : fn % 2 = 1) (sn : Nat) : skipEven fn sn = (fn, sn) := by
  rw [skipEven, if_neg]
  simp [Nat.and_one_is_mod, odd]

theorem skipEven_even {fn : Nat} (even : fn % 2 = 0) (nonzero : fn ≠ 0) (sn : Nat) :
    skipEven fn sn = skipEven (fn / 2) (sn / 2) := by
  rw [skipEven, if_pos ⟨nonzero, by simpa [Nat.and_one_is_mod] using even⟩]
  simp only [Nat.shiftRight_one]

theorem skipOdd_even {fn : Nat} (even : fn % 2 = 0) (sn : Nat) : skipOdd fn sn = (fn, sn) := by
  rw [skipOdd, if_neg]
  simp [Nat.and_one_is_mod, even]

theorem skipOdd_odd {fn : Nat} (odd : fn % 2 = 1) (sn : Nat) :
    skipOdd fn sn = skipOdd (fn / 2) (sn / 2) := by
  rw [skipOdd, if_pos (by simp [Nat.and_one_is_mod, odd])]
  simp only [Nat.shiftRight_one]

theorem skipEven_snd_le (fn sn : Nat) : (skipEven fn sn).2 ≤ sn := by
  induction fn using Nat.strongRecOn generalizing sn with
  | ind fn ih =>
    by_cases zero : fn = 0
    · subst zero
      rw [skipEven_zero]
    · rcases Nat.mod_two_eq_zero_or_one fn with even | odd
      · rw [skipEven_even even zero]
        exact (ih (fn / 2) (by omega) (sn / 2)).trans (Nat.div_le_self sn 2)
      · rw [skipEven_odd odd]

theorem skipEven_two_pow (e : Nat) : skipEven (2 ^ e) (2 ^ e) = (1, 1) := by
  induction e with
  | zero => exact skipEven_odd (by decide) 1
  | succ e ih =>
    have pos := Nat.two_pow_pos e
    have half : 2 ^ (e + 1) / 2 = 2 ^ e := by omega
    rw [skipEven_even (by omega) (by omega), half, ih]

theorem skipEven_diag_add {fn e : Nat} (nonzero : fn ≠ 0) (below : fn < 2 ^ e) :
    ∃ q e', q % 2 = 1 ∧ q < 2 ^ e' ∧ q ≤ fn ∧ skipEven fn fn = (q, q) ∧
      skipEven (fn + 2 ^ e) (fn + 2 ^ e) = (q + 2 ^ e', q + 2 ^ e') := by
  induction fn using Nat.strongRecOn generalizing e with
  | ind fn ih =>
    obtain ⟨e, rfl⟩ : ∃ d, e = d + 1 := by
      cases e with
      | zero => omega
      | succ e => exact ⟨e, rfl⟩
    rcases Nat.mod_two_eq_zero_or_one fn with even | odd
    · obtain ⟨q, e', qodd, qlt, qle, small, large⟩ := ih (fn / 2) (by omega) (by omega) (e := e) (by omega)
      have half : (fn + 2 ^ (e + 1)) / 2 = fn / 2 + 2 ^ e := by omega
      refine ⟨q, e', qodd, qlt, by omega, ?_, ?_⟩
      · rw [skipEven_even even nonzero, small]
      · rw [skipEven_even (by omega) (by omega), half, large]
    · exact ⟨fn, e + 1, odd, below, le_rfl, skipEven_odd odd fn, skipEven_odd (by omega) _⟩

/-! ## The walk -/

/-- The sides of the siblings the verifiers' loop meets from `(fn, sn)` until `sn` is zero. -/
def walk (fn sn : Nat) : List Side :=
  if sn = 0 then []
  else if fn &&& 1 ≠ 0 ∨ fn = sn then
    .left :: walk ((skipEven fn sn).1 >>> 1) ((skipEven fn sn).2 >>> 1)
  else .right :: walk (fn >>> 1) (sn >>> 1)
termination_by sn
decreasing_by
  · have := skipEven_snd_le fn sn
    rw [Nat.shiftRight_one]
    omega
  · rw [Nat.shiftRight_one]
    omega

theorem walk_zero (fn : Nat) : walk fn 0 = [] := by
  rw [walk]
  simp

theorem walk_odd {fn sn : Nat} (nonzero : sn ≠ 0) (odd : fn % 2 = 1) :
    walk fn sn = .left :: walk (fn / 2) (sn / 2) := by
  rw [walk, if_neg nonzero, if_pos (by simp [Nat.and_one_is_mod, odd]), skipEven_odd odd]
  simp only [Nat.shiftRight_one]

theorem walk_diag {n : Nat} (nonzero : n ≠ 0) :
    walk n n = .left :: walk ((skipEven n n).1 / 2) ((skipEven n n).2 / 2) := by
  rw [walk, if_neg nonzero, if_pos (.inr rfl)]
  simp only [Nat.shiftRight_one]

theorem walk_even {fn sn : Nat} (nonzero : sn ≠ 0) (even : fn % 2 = 0) (apart : fn ≠ sn) :
    walk fn sn = .right :: walk (fn / 2) (sn / 2) := by
  rw [walk, if_neg nonzero, if_neg (by simp [Nat.and_one_is_mod, even, apart])]
  simp only [Nat.shiftRight_one]

theorem walk_left {fn sn e : Nat} (inside : fn < 2 ^ e) (low : 2 ^ e ≤ sn) (high : sn < 2 ^ (e + 1)) :
    walk fn sn = walk fn (2 ^ e - 1) ++ [.right] := by
  induction e generalizing fn sn with
  | zero =>
    obtain rfl : fn = 0 := by omega
    obtain rfl : sn = 1 := by omega
    rw [walk_even (by decide) (by decide) (by decide)]
    simp [walk_zero]
  | succ e ih =>
    have pos := Nat.two_pow_pos e
    have last : (2 ^ (e + 1) - 1) / 2 = 2 ^ e - 1 := by omega
    have halves : walk (fn / 2) (sn / 2) = walk (fn / 2) (2 ^ e - 1) ++ [.right] := by
      apply ih <;> omega
    rcases Nat.mod_two_eq_zero_or_one fn with even | odd
    · have short : walk fn (2 ^ (e + 1) - 1) = .right :: walk (fn / 2) ((2 ^ (e + 1) - 1) / 2) :=
        walk_even (by omega) even (by omega)
      rw [walk_even (by omega) even (by omega), short, last, halves, List.cons_append]
    · have short : walk fn (2 ^ (e + 1) - 1) = .left :: walk (fn / 2) ((2 ^ (e + 1) - 1) / 2) :=
        walk_odd (by omega) odd
      rw [walk_odd (by omega) odd, short, last, halves, List.cons_append]

theorem walk_right {fn sn e : Nat} (inside : fn ≤ sn) (below : sn < 2 ^ e) :
    walk (fn + 2 ^ e) (sn + 2 ^ e) = walk fn sn ++ [.left] := by
  induction sn using Nat.strongRecOn generalizing fn e with
  | ind sn ih =>
    have pos := Nat.two_pow_pos e
    by_cases zero : sn = 0
    · subst zero
      obtain rfl : fn = 0 := by omega
      rw [Nat.zero_add, walk_diag (by omega), skipEven_two_pow]
      simp [walk_zero]
    · obtain ⟨e, rfl⟩ : ∃ d, e = d + 1 := by
        cases e with
        | zero => omega
        | succ e => exact ⟨e, rfl⟩
      have half (n : Nat) : (n + 2 ^ (e + 1)) / 2 = n / 2 + 2 ^ e := by omega
      have halves : walk (fn / 2 + 2 ^ e) (sn / 2 + 2 ^ e) = walk (fn / 2) (sn / 2) ++ [.left] := by
        apply ih <;> omega
      rcases Nat.mod_two_eq_zero_or_one fn with even | odd
      · by_cases diag : fn = sn
        · -- On the right edge both strip the same trailing zeros before they halve.
          subst diag
          obtain ⟨q, e', qodd, qlt, qle, small, large⟩ := skipEven_diag_add (e := e + 1) zero below
          obtain ⟨e', rfl⟩ : ∃ d, e' = d + 1 := by
            cases e' with
            | zero => omega
            | succ e' => exact ⟨e', rfl⟩
          have rest : walk (q / 2 + 2 ^ e') (q / 2 + 2 ^ e') = walk (q / 2) (q / 2) ++ [.left] := by
            apply ih <;> omega
          have shifted : (q + 2 ^ (e' + 1)) / 2 = q / 2 + 2 ^ e' := by omega
          rw [walk_diag (by omega), walk_diag zero, small, large, shifted, rest, List.cons_append]
        · rw [walk_even (by omega) (by omega) (by omega), walk_even zero even diag, half, half, halves,
            List.cons_append]
      · rw [walk_odd (by omega) (by omega), walk_odd zero odd, half, half, halves, List.cons_append]

def pathSides (n m : Nat) : List Side :=
  if n ≤ 1 then []
  else if m < split n then pathSides (split n) m ++ [.right]
  else pathSides (n - split n) (m - split n) ++ [.left]
termination_by n
decreasing_by
  all_goals
    have := split_lt (n := n) (by omega)
    have := split_pos (n := n) (by omega)
    omega

theorem pathSides_le_one {n : Nat} (h : n ≤ 1) (m : Nat) : pathSides n m = [] := by
  rw [pathSides, if_pos h]

theorem pathSides_left {n m : Nat} (h : 2 ≤ n) (left : m < split n) :
    pathSides n m = pathSides (split n) m ++ [.right] := by
  rw [pathSides, if_neg (by omega), if_pos left]

theorem pathSides_right {n m : Nat} (h : 2 ≤ n) (right : split n ≤ m) :
    pathSides n m = pathSides (n - split n) (m - split n) ++ [.left] := by
  rw [pathSides, if_neg (by omega), if_neg (by omega)]

theorem walk_eq_pathSides {n m : Nat} (h : m < n) : walk m (n - 1) = pathSides n m := by
  induction n using Nat.strongRecOn generalizing m with
  | ind n ih =>
    by_cases one : n ≤ 1
    · obtain rfl : n = 1 := by omega
      rw [pathSides_le_one le_rfl, walk_zero]
    · obtain ⟨e, eq, low, high⟩ := split_spec (n := n) (by omega)
      have pos := Nat.two_pow_pos e
      by_cases left : m < 2 ^ e
      · rw [pathSides_left (by omega) (by omega), eq, ← ih (2 ^ e) low left]
        exact walk_left left (by omega) (by omega)
      · rw [pathSides_right (by omega) (by omega), eq, ← ih (n - 2 ^ e) (by omega) (by omega)]
        have walked : walk (m - 2 ^ e + 2 ^ e) (n - 2 ^ e - 1 + 2 ^ e) =
            walk (m - 2 ^ e) (n - 2 ^ e - 1) ++ [.left] := by
          apply walk_right <;> omega
        rwa [Nat.sub_add_cancel (by omega), show n - 2 ^ e - 1 + 2 ^ e = n - 1 by omega] at walked

/-! ## The walk of a consistency proof -/

def alignedWalk (fn sn : Nat) : List Side :=
  walk (skipOdd fn sn).1 (skipOdd fn sn).2

theorem alignedWalk_even {fn : Nat} (even : fn % 2 = 0) (sn : Nat) : alignedWalk fn sn = walk fn sn := by
  rw [alignedWalk, skipOdd_even even]

theorem alignedWalk_odd {fn : Nat} (odd : fn % 2 = 1) (sn : Nat) :
    alignedWalk fn sn = alignedWalk (fn / 2) (sn / 2) := by
  rw [alignedWalk, skipOdd_odd odd, alignedWalk]

theorem alignedWalk_complete {sn e : Nat} (low : 2 ^ e ≤ sn) (high : sn < 2 ^ (e + 1)) :
    alignedWalk (2 ^ e - 1) sn = [.right] := by
  induction e generalizing sn with
  | zero =>
    obtain rfl : sn = 1 := by omega
    rw [alignedWalk_even (by decide), walk_even (by decide) (by decide) (by decide)]
    simp [walk_zero]
  | succ e ih =>
    have pos := Nat.two_pow_pos e
    rw [alignedWalk_odd (by omega), show (2 ^ (e + 1) - 1) / 2 = 2 ^ e - 1 by omega]
    exact ih (by omega) (by omega)

theorem alignedWalk_left {fn sn e : Nat} (inside : fn < 2 ^ e - 1) (low : 2 ^ e ≤ sn)
    (high : sn < 2 ^ (e + 1)) : alignedWalk fn sn = alignedWalk fn (2 ^ e - 1) ++ [.right] := by
  induction e generalizing fn sn with
  | zero => omega
  | succ e ih =>
    have pos := Nat.two_pow_pos e
    rcases Nat.mod_two_eq_zero_or_one fn with even | odd
    · rw [alignedWalk_even even, alignedWalk_even even]
      exact walk_left (by omega) low high
    · rw [alignedWalk_odd odd, alignedWalk_odd odd, show (2 ^ (e + 1) - 1) / 2 = 2 ^ e - 1 by omega]
      exact ih (by omega) (by omega) (by omega)

theorem alignedWalk_right {fn sn e : Nat} (inside : fn < sn) (below : sn < 2 ^ e) :
    alignedWalk (fn + 2 ^ e) (sn + 2 ^ e) = alignedWalk fn sn ++ [.left] := by
  induction fn using Nat.strongRecOn generalizing sn e with
  | ind fn ih =>
    obtain ⟨e, rfl⟩ : ∃ d, e = d + 1 := by
      cases e with
      | zero => omega
      | succ e => exact ⟨e, rfl⟩
    rcases Nat.mod_two_eq_zero_or_one fn with even | odd
    · rw [alignedWalk_even (by omega), alignedWalk_even even]
      exact walk_right inside.le below
    · have half (n : Nat) : (n + 2 ^ (e + 1)) / 2 = n / 2 + 2 ^ e := by omega
      rw [alignedWalk_odd (by omega), alignedWalk_odd odd, half, half]
      exact ih (fn / 2) (by omega) (by omega) (by omega)

/-- The sides of the siblings of `_subproof`, from the node that seeds the walk upward. -/
def consistencySides (n m : Nat) : List Side :=
  if n ≤ 1 then []
  else if m = split n then [.right]
  else if m < split n then consistencySides (split n) m ++ [.right]
  else consistencySides (n - split n) (m - split n) ++ [.left]
termination_by n
decreasing_by
  all_goals
    have := split_lt (n := n) (by omega)
    have := split_pos (n := n) (by omega)
    omega

theorem consistencySides_complete {n : Nat} (h : 2 ≤ n) : consistencySides n (split n) = [.right] := by
  rw [consistencySides, if_neg (by omega), if_pos rfl]

theorem consistencySides_left {n m : Nat} (h : 2 ≤ n) (left : m < split n) :
    consistencySides n m = consistencySides (split n) m ++ [.right] := by
  rw [consistencySides, if_neg (by omega), if_neg (by omega), if_pos left]

theorem consistencySides_right {n m : Nat} (h : 2 ≤ n) (right : split n < m) :
    consistencySides n m = consistencySides (n - split n) (m - split n) ++ [.left] := by
  rw [consistencySides, if_neg (by omega), if_neg (by omega), if_neg (by omega)]

theorem consistencySides_ne_nil {n : Nat} (h : 2 ≤ n) (m : Nat) : consistencySides n m ≠ [] := by
  rw [consistencySides, if_neg (by omega)]
  split_ifs <;> simp

theorem alignedWalk_eq_consistencySides {n m : Nat} (pos : 0 < m) (h : m < n) :
    alignedWalk (m - 1) (n - 1) = consistencySides n m := by
  induction n using Nat.strongRecOn generalizing m with
  | ind n ih =>
    obtain ⟨e, eq, low, high⟩ := split_spec (n := n) (by omega)
    have powPos := Nat.two_pow_pos e
    rcases lt_trichotomy m (2 ^ e) with left | rfl | right
    · rw [consistencySides_left (by omega) (by omega), eq, ← ih (2 ^ e) low pos left]
      exact alignedWalk_left (by omega) (by omega) (by omega)
    · rw [← eq, consistencySides_complete (by omega), eq]
      exact alignedWalk_complete (by omega) (by omega)
    · rw [consistencySides_right (by omega) (by omega), eq,
        ← ih (n - 2 ^ e) (by omega) (by omega) (by omega)]
      have walked : alignedWalk (m - 2 ^ e - 1 + 2 ^ e) (n - 2 ^ e - 1 + 2 ^ e) =
          alignedWalk (m - 2 ^ e - 1) (n - 2 ^ e - 1) ++ [.left] := by
        apply alignedWalk_right <;> omega
      rwa [show m - 2 ^ e - 1 + 2 ^ e = m - 1 by omega,
        show n - 2 ^ e - 1 + 2 ^ e = n - 1 by omega] at walked

end QVault.Proof.Merkle
