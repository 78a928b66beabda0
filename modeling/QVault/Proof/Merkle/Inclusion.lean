import QVault.Lib.FreeHash
import QVault.Proof.Merkle.Walk

/-!
# Inclusion proofs

`verify_inclusion` accepts the proof `inclusion_proof` generates, and over an injective node hash it
accepts nothing else.
-/

namespace QVault.Proof.Merkle
open QVault.Transparency AuditPath

section Generate
variable {D : Type*} (hashChildren : D → D → D) (emptyRoot : D) (leaves : List D)

theorem root_single {lo hi : Nat} (h : hi - lo = 1) :
    root hashChildren emptyRoot leaves lo hi = leaves.getD lo emptyRoot := by
  rw [root]
  simp [h]

theorem root_split {lo hi : Nat} (h : 2 ≤ hi - lo) :
    root hashChildren emptyRoot leaves lo hi =
      hashChildren (root hashChildren emptyRoot leaves lo (lo + split (hi - lo)))
        (root hashChildren emptyRoot leaves (lo + split (hi - lo)) hi) := by
  rw [root]
  simp only [if_neg (show ¬hi - lo = 0 by omega), if_neg (show ¬hi - lo = 1 by omega)]

theorem path_single {lo hi : Nat} (h : hi - lo ≤ 1) (m : Nat) :
    path hashChildren emptyRoot leaves lo hi m = [] := by
  rw [path]
  simp [h]

theorem path_left {lo hi m : Nat} (h : 2 ≤ hi - lo) (left : m < split (hi - lo)) :
    path hashChildren emptyRoot leaves lo hi m =
      path hashChildren emptyRoot leaves lo (lo + split (hi - lo)) m ++
        [root hashChildren emptyRoot leaves (lo + split (hi - lo)) hi] := by
  rw [path]
  simp only [if_neg (show ¬hi - lo ≤ 1 by omega), if_pos left]

theorem path_right {lo hi m : Nat} (h : 2 ≤ hi - lo) (right : split (hi - lo) ≤ m) :
    path hashChildren emptyRoot leaves lo hi m =
      path hashChildren emptyRoot leaves (lo + split (hi - lo)) hi (m - split (hi - lo)) ++
        [root hashChildren emptyRoot leaves lo (lo + split (hi - lo))] := by
  rw [path]
  simp only [if_neg (show ¬hi - lo ≤ 1 by omega), if_neg (show ¬m < split (hi - lo) by omega)]

theorem climb_path {n lo hi m : Nat} (size : hi - lo = n) (inside : m < n) :
    climb (Side.join hashChildren) (pathSides n m) (leaves.getD (lo + m) emptyRoot)
      (path hashChildren emptyRoot leaves lo hi m) = some (root hashChildren emptyRoot leaves lo hi) := by
  induction n using Nat.strongRecOn generalizing lo hi m with
  | ind n ih =>
    subst size
    by_cases one : hi - lo ≤ 1
    · obtain rfl : m = 0 := by omega
      rw [pathSides_le_one one, path_single _ _ _ one, root_single _ _ _ (by omega), Nat.add_zero]
      rfl
    · have low := split_lt (n := hi - lo) (by omega)
      have pos := split_pos (n := hi - lo) (by omega)
      by_cases left : m < split (hi - lo)
      · have below := ih (split (hi - lo)) low (show lo + split (hi - lo) - lo = _ by omega) left
        rw [pathSides_left (by omega) left, path_left _ _ _ (by omega) left, climb_concat, below,
          root_split _ _ _ (show 2 ≤ hi - lo by omega)]
        rfl
      · have below := ih (hi - lo - split (hi - lo)) (by omega)
          (show hi - (lo + split (hi - lo)) = _ by omega)
          (show m - split (hi - lo) < _ by omega)
        rw [show lo + split (hi - lo) + (m - split (hi - lo)) = lo + m by omega] at below
        rw [pathSides_right (by omega) (by omega), path_right _ _ _ (by omega) (by omega), climb_concat,
          below, root_split _ _ _ (show 2 ≤ hi - lo by omega)]
        rfl

variable {hashChildren}

theorem climb_path_unique (inj : Function.Injective2 hashChildren) {n lo hi m : Nat}
    (size : hi - lo = n) (inside : m < n) {leaf : D} {proof : List D}
    (climbed : climb (Side.join hashChildren) (pathSides n m) leaf proof =
      some (root hashChildren emptyRoot leaves lo hi)) :
    leaf = leaves.getD (lo + m) emptyRoot ∧ proof = path hashChildren emptyRoot leaves lo hi m := by
  induction n using Nat.strongRecOn generalizing lo hi m leaf proof with
  | ind n ih =>
    subst size
    by_cases one : hi - lo ≤ 1
    · obtain rfl : m = 0 := by omega
      rw [pathSides_le_one one, root_single _ _ _ (by omega), climb_nil_eq_some] at climbed
      exact ⟨climbed.2, by rw [climbed.1, path_single _ _ _ one]⟩
    · have low := split_lt (n := hi - lo) (by omega)
      have pos := split_pos (n := hi - lo) (by omega)
      rw [root_split _ _ _ (show 2 ≤ hi - lo by omega)] at climbed
      by_cases left : m < split (hi - lo)
      · rw [pathSides_left (by omega) left, climb_right_iff inj] at climbed
        obtain ⟨init, rfl, below⟩ := climbed
        obtain ⟨rfl, rfl⟩ := ih (split (hi - lo)) low (by omega) left below
        exact ⟨rfl, (path_left _ _ _ (by omega) left).symm⟩
      · rw [pathSides_right (by omega) (by omega), climb_left_iff inj] at climbed
        obtain ⟨init, rfl, below⟩ := climbed
        obtain ⟨rfl, rfl⟩ := ih (hi - lo - split (hi - lo)) (by omega) (by omega) (by omega) below
        refine ⟨?_, (path_right _ _ _ (by omega) (by omega)).symm⟩
        rw [show lo + split (hi - lo) + (m - split (hi - lo)) = lo + m by omega]

end Generate

section Verify
variable {D : Type*} {hashChildren : D → D → D}

theorem inclusionLoop_eq_some {fn sn : Nat} {c r : D} {proof : List D} :
    inclusionLoop hashChildren fn sn c proof = some (0, r) ↔
      climb (Side.join hashChildren) (walk fn sn) c proof = some r := by
  induction proof generalizing fn sn c with
  | nil =>
    by_cases zero : sn = 0
    · simp [inclusionLoop, zero, walk_zero]
    · rw [walk]
      split_ifs <;> simp [inclusionLoop, zero]
  | cons sibling proof ih =>
    rw [walk, inclusionLoop]
    split_ifs with zero side
    · simp
    · exact ih
    · exact ih

theorem inclusionProof_eq_ok {emptyRoot : D} {leaves proof : List D} {index : Int} :
    inclusionProof hashChildren emptyRoot leaves index = .ok proof ↔
      0 ≤ index ∧ index < leaves.length ∧
        path hashChildren emptyRoot leaves 0 leaves.length index.toNat = proof := by
  by_cases inside : 0 ≤ index ∧ index < leaves.length
  · simp [inclusionProof, inside]
  · simp only [inclusionProof, if_pos inside, reduceCtorEq, false_iff]
    intro generated
    exact inside ⟨generated.1, generated.2.1⟩

variable [DecidableEq D]

/-- The verifier as a climb: the index is inside the tree and the siblings rebuild the root. -/
theorem verifyInclusion_eq_true {leaf r : D} {index treeSize : Int} {proof : List D} :
    verifyInclusion hashChildren leaf index treeSize proof r = true ↔
      0 ≤ index ∧ index < treeSize ∧
        climb (Side.join hashChildren) (pathSides treeSize.toNat index.toNat) leaf proof = some r := by
  by_cases inside : 0 ≤ index ∧ index < treeSize
  · have sides : walk index.toNat (treeSize - 1).toNat = pathSides treeSize.toNat index.toNat := by
      rw [← walk_eq_pathSides (by omega)]
      congr 1
      omega
    rw [verifyInclusion, if_neg (by omega), ← sides, ← inclusionLoop_eq_some]
    cases loop : inclusionLoop hashChildren index.toNat (treeSize - 1).toNat leaf proof with
    | none => simp
    | some reached =>
      obtain ⟨sn, computed⟩ := reached
      simp [inside]
  · rw [verifyInclusion, if_pos (by omega)]
    simp only [Bool.false_eq_true, false_iff]
    intro accepted
    exact inside ⟨accepted.1, accepted.2.1⟩

/-- The generator's proof verifies, whatever the hash. -/
theorem verifyInclusion_complete {emptyRoot : D} {leaves proof : List D} {index : Int}
    (generated : inclusionProof hashChildren emptyRoot leaves index = .ok proof) :
    verifyInclusion hashChildren (leaves.getD index.toNat emptyRoot) index leaves.length proof
      (merkleRoot hashChildren emptyRoot leaves) = true := by
  obtain ⟨low, high, rfl⟩ := inclusionProof_eq_ok.mp generated
  rw [verifyInclusion_eq_true]
  refine ⟨low, high, ?_⟩
  have climbed := climb_path hashChildren emptyRoot leaves (n := leaves.length) (Nat.sub_zero _)
    (show index.toNat < leaves.length by omega)
  simpa [merkleRoot] using climbed

theorem verifyInclusion_sound {emptyRoot : D} (inj : Function.Injective2 hashChildren)
    {leaves proof : List D} {index : Int} {leaf : D}
    (accepted : verifyInclusion hashChildren leaf index leaves.length proof
      (merkleRoot hashChildren emptyRoot leaves) = true) :
    0 ≤ index ∧ index < leaves.length ∧ leaves[index.toNat]? = some leaf ∧
      inclusionProof hashChildren emptyRoot leaves index = .ok proof := by
  rw [verifyInclusion_eq_true, Int.toNat_natCast] at accepted
  obtain ⟨low, high, climbed⟩ := accepted
  have inside : index.toNat < leaves.length := by omega
  obtain ⟨rfl, rfl⟩ := climb_path_unique emptyRoot leaves inj (Nat.sub_zero _) inside climbed
  refine ⟨low, high, ?_, inclusionProof_eq_ok.mpr ⟨low, high, rfl⟩⟩
  simp [inside]

theorem verify_inclusion_iff (emptyRoot : D) (collisionFree : Function.Injective2 hashChildren)
    (leaves : List D) (index : Int) (leaf : D) (proof : List D) :
    verifyInclusion hashChildren leaf index leaves.length proof
        (merkleRoot hashChildren emptyRoot leaves) = true ↔
      (0 ≤ index ∧ index < leaves.length) ∧ leaves[index.toNat]? = some leaf ∧
        inclusionProof hashChildren emptyRoot leaves index = .ok proof := by
  constructor
  · intro accepted
    obtain ⟨low, high, found, generated⟩ := verifyInclusion_sound collisionFree accepted
    exact ⟨⟨low, high⟩, found, generated⟩
  · rintro ⟨-, found, generated⟩
    have complete := verifyInclusion_complete generated
    rwa [List.getD_eq_getElem?_getD, found, Option.getD_some] at complete

theorem verify_inclusion_iff_right_edge :
    verifyInclusion FreeHash.node (.data 2) 2 3 [.node (.data 0) (.data 1)]
      (merkleRoot FreeHash.node (.data 9) [.data 0, .data 1, .data 2]) = true := by
  apply (verify_inclusion_iff (.data 9) (FreeHash.node_injective Nat)
    [.data 0, .data 1, .data 2] 2 (.data 2) [.node (.data 0) (.data 1)]).mpr
  exact ⟨by decide, rfl, by decide +kernel⟩

end Verify

end QVault.Proof.Merkle
