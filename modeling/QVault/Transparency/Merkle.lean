import Mathlib.Tactic

/-!
# RFC 6962 Merkle trees, inclusion proofs and consistency proofs

`qvault/transparency/merkle.py`. Digests are a type `D` with the interior-node hash
`hashChildren` and the empty tree's root `emptyRoot`.
-/

namespace QVault.Transparency

inductive MerkleError
  | indexError (message : String)
  | valueError (message : String)
  deriving DecidableEq, Repr

def bitLength (n : Nat) : Nat := if n = 0 then 0 else Nat.log2 n + 1

/-- `_split`, for `n > 1`. -/
def split (n : Nat) : Nat := 1 <<< (bitLength (n - 1) - 1)

theorem split_eq {n : Nat} (h : 2 ≤ n) : split n = 2 ^ Nat.log2 (n - 1) := by
  have nonzero : n - 1 ≠ 0 := by omega
  simp [split, bitLength, nonzero, Nat.shiftLeft_eq]

theorem split_pos {n : Nat} (h : 2 ≤ n) : 0 < split n := by
  rw [split_eq h]
  exact Nat.two_pow_pos _

theorem split_lt {n : Nat} (h : 2 ≤ n) : split n < n := by
  have below : 2 ^ Nat.log2 (n - 1) ≤ n - 1 := Nat.log2_self_le (by omega)
  rw [split_eq h]
  omega

section Generate
variable {D : Type*} (hashChildren : D → D → D) (emptyRoot : D)

/-- `_root`. Every window the callers pass is inside `leaves`, so the default is never read. -/
def root (leaves : List D) (lo hi : Nat) : D :=
  let n := hi - lo
  if n = 0 then emptyRoot
  else if n = 1 then leaves.getD lo emptyRoot
  else
    let k := split n
    hashChildren (root leaves lo (lo + k)) (root leaves (lo + k) hi)
termination_by hi - lo
decreasing_by
  all_goals
    have := split_lt (n := hi - lo) (by omega)
    have := split_pos (n := hi - lo) (by omega)
    omega

def merkleRoot (leaves : List D) : D := root hashChildren emptyRoot leaves 0 leaves.length

/-- `_path`. -/
def path (leaves : List D) (lo hi m : Nat) : List D :=
  let n := hi - lo
  if n ≤ 1 then []
  else
    let k := split n
    if m < k then path leaves lo (lo + k) m ++ [root hashChildren emptyRoot leaves (lo + k) hi]
    else path leaves (lo + k) hi (m - k) ++ [root hashChildren emptyRoot leaves lo (lo + k)]
termination_by hi - lo
decreasing_by
  all_goals
    have := split_lt (n := hi - lo) (by omega)
    have := split_pos (n := hi - lo) (by omega)
    omega

def inclusionProof (leaves : List D) (index : Int) : Except MerkleError (List D) :=
  let n := leaves.length
  if ¬(0 ≤ index ∧ index < n) then
    .error (.indexError s!"leaf index {index} out of range for a tree of size {n}")
  else .ok (path hashChildren emptyRoot leaves 0 n index.toNat)

/-- `_subproof`. -/
def subproof (leaves : List D) (lo hi m : Nat) (complete : Bool) : List D :=
  let n := hi - lo
  if m = n then if complete then [] else [root hashChildren emptyRoot leaves lo hi]
  else if n ≤ 1 then []
  else
    let k := split n
    if m ≤ k then
      subproof leaves lo (lo + k) m complete ++ [root hashChildren emptyRoot leaves (lo + k) hi]
    else
      subproof leaves (lo + k) hi (m - k) false ++ [root hashChildren emptyRoot leaves lo (lo + k)]
termination_by hi - lo
decreasing_by
  all_goals
    have := split_lt (n := hi - lo) (by omega)
    have := split_pos (n := hi - lo) (by omega)
    omega

def consistencyProof (leaves : List D) (oldSize : Int) : Except MerkleError (List D) :=
  let n := leaves.length
  if ¬(0 ≤ oldSize ∧ oldSize ≤ n) then
    .error (.valueError s!"old_size {oldSize} out of range for a tree of size {n}")
  else if oldSize = 0 ∨ oldSize = n then .ok []
  else .ok (subproof hashChildren emptyRoot leaves 0 n oldSize.toNat true)

end Generate

section Verify
variable {D : Type*} [DecidableEq D] (hashChildren : D → D → D)

/-- `while fn != 0 and (fn & 1) == 0`: both halve. -/
def skipEven (fn sn : Nat) : Nat × Nat :=
  if fn ≠ 0 ∧ fn &&& 1 = 0 then skipEven (fn >>> 1) (sn >>> 1) else (fn, sn)
termination_by fn
decreasing_by rw [Nat.shiftRight_one]; omega

/-- `while fn & 1`: both halve. -/
def skipOdd (fn sn : Nat) : Nat × Nat :=
  if fn &&& 1 ≠ 0 then skipOdd (fn >>> 1) (sn >>> 1) else (fn, sn)
termination_by fn
decreasing_by
  rw [Nat.shiftRight_one]
  have : fn ≠ 0 := by rintro rfl; simp_all
  omega

/-- The loop of `verify_inclusion`; `none` is its early `return False`. -/
def inclusionLoop : Nat → Nat → D → List D → Option (Nat × D)
  | _, sn, computed, [] => some (sn, computed)
  | fn, sn, computed, sibling :: proof =>
    if sn = 0 then none
    else if fn &&& 1 ≠ 0 ∨ fn = sn then
      let (fn, sn) := skipEven fn sn
      inclusionLoop (fn >>> 1) (sn >>> 1) (hashChildren sibling computed) proof
    else inclusionLoop (fn >>> 1) (sn >>> 1) (hashChildren computed sibling) proof

def verifyInclusion (leaf : D) (index treeSize : Int) (proof : List D) (root : D) : Bool :=
  if index < 0 ∨ treeSize < 0 ∨ index ≥ treeSize then false
  else
    match inclusionLoop hashChildren index.toNat (treeSize - 1).toNat leaf proof with
    | none => false
    | some (sn, computed) => sn == 0 && computed == root

def isPowerOfTwo (n : Nat) : Bool := n > 0 && n &&& (n - 1) == 0

/-- The loop of `verify_consistency`, with its two accumulators. -/
def consistencyLoop : Nat → Nat → D → D → List D → Option (Nat × D × D)
  | _, sn, oldComputed, newComputed, [] => some (sn, oldComputed, newComputed)
  | fn, sn, oldComputed, newComputed, sibling :: rest =>
    if sn = 0 then none
    else if fn &&& 1 ≠ 0 ∨ fn = sn then
      let (fn, sn) := skipEven fn sn
      consistencyLoop (fn >>> 1) (sn >>> 1) (hashChildren sibling oldComputed)
        (hashChildren sibling newComputed) rest
    else
      consistencyLoop (fn >>> 1) (sn >>> 1) oldComputed (hashChildren newComputed sibling) rest

/-- `verify_consistency` from the seed on: the alignment, the loop and the two comparisons. -/
def consistencyWalk (oldSize newSize : Nat) (oldRoot newRoot seed : D) (rest : List D) : Bool :=
  if rest.isEmpty then false
  else
    let (fn, sn) := skipOdd (oldSize - 1) (newSize - 1)
    match consistencyLoop hashChildren fn sn seed seed rest with
    | none => false
    | some (sn, oldComputed, newComputed) => sn == 0 && oldComputed == oldRoot && newComputed == newRoot

def verifyConsistency (oldSize : Int) (oldRoot : D) (newSize : Int) (newRoot : D)
    (proof : List D) : Bool :=
  if oldSize < 0 ∨ newSize < 0 ∨ oldSize > newSize then false
  else if oldSize = newSize then proof.isEmpty && oldRoot == newRoot
  else if oldSize = 0 then proof.isEmpty
  else if isPowerOfTwo oldSize.toNat then
    consistencyWalk hashChildren oldSize.toNat newSize.toNat oldRoot newRoot oldRoot proof
  else
    match proof with
    | [] => false
    | seed :: rest => consistencyWalk hashChildren oldSize.toNat newSize.toNat oldRoot newRoot seed rest

end Verify

end QVault.Transparency
