import QVault.Proof.Merkle.Inclusion

/-!
# Consistency proofs

`verify_consistency` accepts the proof `consistency_proof` generates, and over an injective node
hash it accepts nothing else: the old root is then the root of the first `old_size` leaves. The walk
climbs twice over the same siblings, once to the new root and once, taking left siblings only, to
the old one.
-/

namespace QVault.Proof.Merkle
open QVault.Transparency AuditPath

section Roots
variable {D : Type*} (hashChildren : D → D → D) (emptyRoot : D)

/-- A window's root is a function of the leaves inside it. -/
theorem root_congr {leaves leaves' : List D} {n lo hi lo' hi' : Nat} (size : hi - lo = n)
    (size' : hi' - lo' = n)
    (agree : ∀ i < n, leaves.getD (lo + i) emptyRoot = leaves'.getD (lo' + i) emptyRoot) :
    root hashChildren emptyRoot leaves lo hi = root hashChildren emptyRoot leaves' lo' hi' := by
  induction n using Nat.strongRecOn generalizing lo hi lo' hi' with
  | ind n ih =>
    by_cases none : n = 0
    · rw [root, root]
      simp [size, size', none]
    · by_cases one : n = 1
      · rw [root_single _ _ _ (by omega), root_single _ _ _ (by omega)]
        simpa using agree 0 (by omega)
      · have low := split_lt (n := n) (by omega)
        have pos := split_pos (n := n) (by omega)
        rw [root_split _ _ _ (show 2 ≤ hi - lo by omega), root_split _ _ _ (show 2 ≤ hi' - lo' by omega),
          size, size']
        congr 1
        · apply ih (split n) low (by omega) (by omega)
          intro i inside
          exact agree i (by omega)
        · apply ih (n - split n) (by omega) (by omega) (by omega)
          intro i inside
          simpa only [Nat.add_assoc] using agree (split n + i) (by omega)

theorem root_take (leaves : List D) (m : Nat) (inside : m ≤ leaves.length) :
    merkleRoot hashChildren emptyRoot (leaves.take m) = root hashChildren emptyRoot leaves 0 m := by
  apply root_congr hashChildren emptyRoot (n := m)
  · simpa using inside
  · simp
  · intro i below
    simp [List.getD_eq_getElem?_getD, below]

variable {hashChildren}

theorem root_unique (inj : Function.Injective2 hashChildren) {leaves leaves' : List D}
    {n lo hi lo' hi' : Nat} (size : hi - lo = n) (size' : hi' - lo' = n)
    (same : root hashChildren emptyRoot leaves lo hi = root hashChildren emptyRoot leaves' lo' hi') :
    ∀ i < n, leaves.getD (lo + i) emptyRoot = leaves'.getD (lo' + i) emptyRoot := by
  induction n using Nat.strongRecOn generalizing lo hi lo' hi' with
  | ind n ih =>
    intro i inside
    by_cases one : n = 1
    · obtain rfl : i = 0 := by omega
      rwa [root_single _ _ _ (by omega), root_single _ _ _ (by omega)] at same
    · have low := split_lt (n := n) (by omega)
      have pos := split_pos (n := n) (by omega)
      rw [root_split _ _ _ (show 2 ≤ hi - lo by omega), root_split _ _ _ (show 2 ≤ hi' - lo' by omega),
        size, size'] at same
      obtain ⟨left, right⟩ := inj same
      by_cases side : i < split n
      · exact ih (split n) low (by omega) (by omega) left i side
      · have found := ih (n - split n) (by omega) (by omega) (by omega) right (i - split n) (by omega)
        rwa [show lo + split n + (i - split n) = lo + i by omega,
          show lo' + split n + (i - split n) = lo' + i by omega] at found

/-- Two logs of one size with one root hold the same leaves. -/
theorem merkleRoot_injective (inj : Function.Injective2 hashChildren) {leaves leaves' : List D}
    (size : leaves.length = leaves'.length)
    (same : merkleRoot hashChildren emptyRoot leaves = merkleRoot hashChildren emptyRoot leaves') :
    leaves = leaves' := by
  apply List.ext_getElem size
  intro i inside inside'
  have found := root_unique emptyRoot inj (n := leaves.length) (by omega) (by omega) same i inside
  simpa [inside, inside'] using found

end Roots

section Generate
variable {D : Type*} (hashChildren : D → D → D) (emptyRoot : D) (leaves : List D)

theorem subproof_whole {lo hi m : Nat} (h : m = hi - lo) (complete : Bool) :
    subproof hashChildren emptyRoot leaves lo hi m complete =
      if complete then [] else [root hashChildren emptyRoot leaves lo hi] := by
  rw [subproof]
  simp [h]

theorem subproof_left {lo hi m : Nat} (h : 2 ≤ hi - lo) (left : m ≤ split (hi - lo)) (complete : Bool) :
    subproof hashChildren emptyRoot leaves lo hi m complete =
      subproof hashChildren emptyRoot leaves lo (lo + split (hi - lo)) m complete ++
        [root hashChildren emptyRoot leaves (lo + split (hi - lo)) hi] := by
  have low := split_lt h
  rw [subproof]
  simp only [if_neg (show ¬m = hi - lo by omega), if_neg (show ¬hi - lo ≤ 1 by omega), if_pos left]

theorem subproof_right {lo hi m : Nat} (h : 2 ≤ hi - lo) (right : split (hi - lo) < m)
    (inside : m < hi - lo) (complete : Bool) :
    subproof hashChildren emptyRoot leaves lo hi m complete =
      subproof hashChildren emptyRoot leaves (lo + split (hi - lo)) hi (m - split (hi - lo)) false ++
        [root hashChildren emptyRoot leaves lo (lo + split (hi - lo))] := by
  rw [subproof]
  simp only [if_neg (show ¬m = hi - lo by omega), if_neg (show ¬hi - lo ≤ 1 by omega),
    if_neg (show ¬m ≤ split (hi - lo) by omega)]

/-- An old tree reaching into the right half splits where the new one does. -/
theorem root_prefix_split {lo hi m : Nat} (right : split (hi - lo) < m) (inside : m < hi - lo) :
    root hashChildren emptyRoot leaves lo (lo + m) =
      hashChildren (root hashChildren emptyRoot leaves lo (lo + split (hi - lo)))
        (root hashChildren emptyRoot leaves (lo + split (hi - lo)) (lo + m)) := by
  have pos := split_pos (n := hi - lo) (by omega)
  obtain ⟨e, eq, low, high⟩ := split_spec (n := hi - lo) (by omega)
  have same : split m = split (hi - lo) := by
    rw [eq]
    exact split_of_pow (by omega) (by omega)
  rw [root_split _ _ _ (show 2 ≤ lo + m - lo by omega), show lo + m - lo = m by omega, same]

/-- Without the shortcut for a known root, a subproof starts with the node that seeds the walk. -/
theorem subproof_seed {n lo hi m : Nat} (size : hi - lo = n) (pos : 0 < m) (inside : m ≤ n) :
    ∃ seed rest, subproof hashChildren emptyRoot leaves lo hi m false = seed :: rest := by
  induction n using Nat.strongRecOn generalizing lo hi m with
  | ind n ih =>
    subst size
    by_cases whole : m = hi - lo
    · exact ⟨_, [], subproof_whole _ _ _ whole false⟩
    · have low := split_lt (n := hi - lo) (by omega)
      have splitPos := split_pos (n := hi - lo) (by omega)
      by_cases left : m ≤ split (hi - lo)
      · obtain ⟨seed, rest, eq⟩ := ih (split (hi - lo)) low
          (show lo + split (hi - lo) - lo = _ by omega) pos left
        exact ⟨seed, _, by rw [subproof_left _ _ _ (by omega) left, eq, List.cons_append]⟩
      · obtain ⟨seed, rest, eq⟩ := ih (hi - lo - split (hi - lo)) (by omega)
          (show hi - (lo + split (hi - lo)) = _ by omega)
          (show 0 < m - split (hi - lo) by omega) (by omega)
        exact ⟨seed, _, by rw [subproof_right _ _ _ (by omega) (by omega) (by omega), eq, List.cons_append]⟩

/-- From the seed of a subproof the siblings climb to the new root, the left ones to the old. -/
theorem climb_subproof {n lo hi m : Nat} (size : hi - lo = n) (pos : 0 < m) (inside : m < n)
    {seed : D} {rest : List D}
    (generated : subproof hashChildren emptyRoot leaves lo hi m false = seed :: rest) :
    climb (Side.join hashChildren) (consistencySides n m) seed rest =
        some (root hashChildren emptyRoot leaves lo hi) ∧
      climb (Side.joinLeft hashChildren) (consistencySides n m) seed rest =
        some (root hashChildren emptyRoot leaves lo (lo + m)) := by
  induction n using Nat.strongRecOn generalizing lo hi m seed rest with
  | ind n ih =>
    subst size
    have low := split_lt (n := hi - lo) (by omega)
    have splitPos := split_pos (n := hi - lo) (by omega)
    rw [root_split _ _ _ (show 2 ≤ hi - lo by omega)]
    rcases lt_trichotomy m (split (hi - lo)) with left | whole | right
    · obtain ⟨s, init, below⟩ := subproof_seed hashChildren emptyRoot leaves
        (show lo + split (hi - lo) - lo = split (hi - lo) by omega) pos left.le
      rw [subproof_left _ _ _ (by omega) left.le, below, List.cons_append, List.cons.injEq] at generated
      obtain ⟨rfl, rfl⟩ := generated
      obtain ⟨new, old⟩ := ih (split (hi - lo)) low (show lo + split (hi - lo) - lo = _ by omega) pos left below
      rw [consistencySides_left (by omega) left, climb_concat, climb_concat, new, old]
      exact ⟨rfl, rfl⟩
    · rw [subproof_left _ _ _ (by omega) whole.le, subproof_whole _ _ _ (by omega)] at generated
      obtain ⟨rfl, rfl⟩ : root hashChildren emptyRoot leaves lo (lo + split (hi - lo)) = seed ∧
          [root hashChildren emptyRoot leaves (lo + split (hi - lo)) hi] = rest := by
        simpa using generated
      rw [whole, consistencySides_complete (by omega)]
      exact ⟨rfl, rfl⟩
    · obtain ⟨s, init, below⟩ := subproof_seed hashChildren emptyRoot leaves
        (show hi - (lo + split (hi - lo)) = hi - lo - split (hi - lo) by omega)
        (show 0 < m - split (hi - lo) by omega) (by omega)
      rw [subproof_right _ _ _ (by omega) right inside, below, List.cons_append, List.cons.injEq] at generated
      obtain ⟨rfl, rfl⟩ := generated
      obtain ⟨new, old⟩ := ih (hi - lo - split (hi - lo)) (by omega)
        (show hi - (lo + split (hi - lo)) = _ by omega) (by omega) (by omega) below
      rw [show lo + split (hi - lo) + (m - split (hi - lo)) = lo + m by omega] at old
      rw [consistencySides_right (by omega) right, climb_concat, climb_concat, new, old,
        root_prefix_split _ _ _ right inside]
      exact ⟨rfl, rfl⟩

theorem subproof_of_pow {n lo hi e : Nat} (size : hi - lo = n) (inside : 2 ^ e ≤ n) :
    subproof hashChildren emptyRoot leaves lo hi (2 ^ e) false =
      root hashChildren emptyRoot leaves lo (lo + 2 ^ e) ::
        subproof hashChildren emptyRoot leaves lo hi (2 ^ e) true := by
  induction n using Nat.strongRecOn generalizing lo hi with
  | ind n ih =>
    have pos := Nat.two_pow_pos e
    subst size
    by_cases whole : 2 ^ e = hi - lo
    · rw [subproof_whole _ _ _ whole, subproof_whole _ _ _ whole, whole,
        show lo + (hi - lo) = hi by omega]
      rfl
    · obtain ⟨f, eq, low, high⟩ := split_spec (n := hi - lo) (by omega)
      have below : e ≤ f := by
        have := (Nat.pow_lt_pow_iff_right Nat.one_lt_two).mp (show 2 ^ e < 2 ^ (f + 1) by omega)
        omega
      have left : 2 ^ e ≤ split (hi - lo) := by
        rw [eq]
        exact Nat.pow_le_pow_right (by decide) below
      rw [subproof_left _ _ _ (by omega) left, subproof_left _ _ _ (by omega) left,
        ih (split (hi - lo)) (by omega) (by omega) left, List.cons_append]

theorem subproof_not_pow {n lo hi m : Nat} (size : hi - lo = n) (pos : 0 < m) (inside : m < n)
    (notPow : ¬m.isPowerOfTwo) :
    subproof hashChildren emptyRoot leaves lo hi m true =
      subproof hashChildren emptyRoot leaves lo hi m false := by
  induction n using Nat.strongRecOn generalizing lo hi with
  | ind n ih =>
    subst size
    obtain ⟨f, eq, low, high⟩ := split_spec (n := hi - lo) (by omega)
    rcases lt_trichotomy m (split (hi - lo)) with left | whole | right
    · rw [subproof_left _ _ _ (by omega) left.le, subproof_left _ _ _ (by omega) left.le,
        ih (split (hi - lo)) (by omega) (by omega) left]
    · exact absurd ⟨f, whole.trans eq⟩ notPow
    · rw [subproof_right _ _ _ (by omega) right inside, subproof_right _ _ _ (by omega) right inside]

variable {hashChildren}

theorem climb_subproof_unique (inj : Function.Injective2 hashChildren) {n lo hi m : Nat}
    (size : hi - lo = n) (pos : 0 < m) (inside : m < n) {seed : D} {rest : List D}
    (climbed : climb (Side.join hashChildren) (consistencySides n m) seed rest =
      some (root hashChildren emptyRoot leaves lo hi)) :
    subproof hashChildren emptyRoot leaves lo hi m false = seed :: rest := by
  induction n using Nat.strongRecOn generalizing lo hi m seed rest with
  | ind n ih =>
    subst size
    have low := split_lt (n := hi - lo) (by omega)
    have splitPos := split_pos (n := hi - lo) (by omega)
    rw [root_split _ _ _ (show 2 ≤ hi - lo by omega)] at climbed
    rcases lt_trichotomy m (split (hi - lo)) with left | whole | right
    · rw [consistencySides_left (by omega) left, climb_right_iff inj] at climbed
      obtain ⟨init, rfl, below⟩ := climbed
      rw [subproof_left _ _ _ (by omega) left.le, ih (split (hi - lo)) low (by omega) pos left below,
        List.cons_append]
    · rw [whole, consistencySides_complete (by omega), ← List.nil_append [Side.right],
        climb_right_iff inj] at climbed
      obtain ⟨init, rfl, below⟩ := climbed
      obtain ⟨rfl, rfl⟩ := climb_nil_eq_some.mp below
      rw [subproof_left _ _ _ (by omega) whole.le, subproof_whole _ _ _ (by omega)]
      rfl
    · rw [consistencySides_right (by omega) right, climb_left_iff inj] at climbed
      obtain ⟨init, rfl, below⟩ := climbed
      rw [subproof_right _ _ _ (by omega) right inside,
        ih (hi - lo - split (hi - lo)) (by omega) (by omega) (by omega) (by omega) below,
        List.cons_append]

end Generate

section Verify
variable {D : Type*} {hashChildren : D → D → D}

theorem consistencyLoop_eq_some {fn sn : Nat} {old new o r : D} {rest : List D} :
    consistencyLoop hashChildren fn sn old new rest = some (0, o, r) ↔
      climb (Side.joinLeft hashChildren) (walk fn sn) old rest = some o ∧
        climb (Side.join hashChildren) (walk fn sn) new rest = some r := by
  induction rest generalizing fn sn old new with
  | nil =>
    by_cases zero : sn = 0
    · simp [consistencyLoop, zero, walk_zero]
    · rw [walk]
      split_ifs <;> simp [consistencyLoop, zero]
  | cons sibling rest ih =>
    rw [walk, consistencyLoop]
    split_ifs with zero side
    · simp
    · exact ih
    · exact ih

theorem isPowerOfTwo_iff {n : Nat} : isPowerOfTwo n = true ↔ n.isPowerOfTwo := by
  rw [← Nat.ne_zero_and_sub_one_eq_zero_iff_isPowerOfTwo]
  simp [isPowerOfTwo, Nat.pos_iff_ne_zero]

theorem consistencyProof_eq_ok {emptyRoot : D} {leaves proof : List D} {m : Nat} (pos : 0 < m)
    (inside : m < leaves.length) :
    consistencyProof hashChildren emptyRoot leaves m = .ok proof ↔
      subproof hashChildren emptyRoot leaves 0 leaves.length m true = proof := by
  have bounded : (m : Int) ≤ leaves.length := by omega
  simp [consistencyProof, bounded, pos.ne', inside.ne]

variable [DecidableEq D]

theorem consistencyWalk_eq_true {m n : Nat} (pos : 0 < m) (grown : m < n) {oldRoot newRoot seed : D}
    {rest : List D} :
    consistencyWalk hashChildren m n oldRoot newRoot seed rest = true ↔
      climb (Side.joinLeft hashChildren) (consistencySides n m) seed rest = some oldRoot ∧
        climb (Side.join hashChildren) (consistencySides n m) seed rest = some newRoot := by
  cases rest with
  | nil =>
    cases sides : consistencySides n m with
    | nil => exact absurd sides (consistencySides_ne_nil (by omega) m)
    | cons side sides => simp [consistencyWalk]
  | cons sibling rest =>
    rw [← alignedWalk_eq_consistencySides pos grown, alignedWalk, ← consistencyLoop_eq_some]
    simp only [consistencyWalk, List.isEmpty_cons, Bool.false_eq_true, if_false]
    cases loop : consistencyLoop hashChildren (skipOdd (m - 1) (n - 1)).1 (skipOdd (m - 1) (n - 1)).2
        seed seed (sibling :: rest) with
    | none => simp
    | some reached =>
      obtain ⟨sn, oldComputed, newComputed⟩ := reached
      simp [and_assoc]

/-- Between two sizes the verifier climbs from a seed, the old root itself or the proof's first node. -/
theorem verifyConsistency_grown {m n : Nat} (pos : 0 < m) (grown : m < n) {oldRoot newRoot : D}
    {proof : List D} :
    verifyConsistency hashChildren m oldRoot n newRoot proof = true ↔
      ∃ seed rest, (if m.isPowerOfTwo then oldRoot :: proof else proof) = seed :: rest ∧
        climb (Side.joinLeft hashChildren) (consistencySides n m) seed rest = some oldRoot ∧
        climb (Side.join hashChildren) (consistencySides n m) seed rest = some newRoot := by
  rw [verifyConsistency.eq_def, if_neg (by omega), if_neg (by omega), if_neg (by omega), Int.toNat_natCast,
    Int.toNat_natCast]
  by_cases power : m.isPowerOfTwo
  · rw [if_pos (isPowerOfTwo_iff.mpr power), if_pos power, consistencyWalk_eq_true pos grown]
    simp
  · rw [if_neg (by rwa [isPowerOfTwo_iff]), if_neg power]
    cases proof with
    | nil => simp
    | cons seed rest =>
      rw [consistencyWalk_eq_true pos grown]
      simp

variable {emptyRoot : D} {leaves proof : List D}

/-- The generator's proof verifies, whatever the hash. -/
theorem verifyConsistency_complete {m : Nat} (inside : m ≤ leaves.length)
    (generated : consistencyProof hashChildren emptyRoot leaves m = .ok proof) :
    verifyConsistency hashChildren m (merkleRoot hashChildren emptyRoot (leaves.take m)) leaves.length
      (merkleRoot hashChildren emptyRoot leaves) proof = true := by
  by_cases whole : m = leaves.length
  · subst whole
    obtain rfl : [] = proof := by simpa [consistencyProof] using generated
    simp [verifyConsistency]
  · by_cases empty : m = 0
    · subst empty
      obtain rfl : [] = proof := by simpa [consistencyProof] using generated
      rw [verifyConsistency.eq_def, if_neg (by omega), if_neg (by omega)]
      simp
    · rw [consistencyProof_eq_ok (by omega) (by omega)] at generated
      subst generated
      obtain ⟨seed, rest, seeded⟩ := subproof_seed hashChildren emptyRoot leaves
        (Nat.sub_zero leaves.length) (show 0 < m by omega) inside
      obtain ⟨new, old⟩ := climb_subproof hashChildren emptyRoot leaves (Nat.sub_zero leaves.length)
        (show 0 < m by omega) (by omega) seeded
      rw [Nat.zero_add] at old
      rw [verifyConsistency_grown (by omega) (by omega), root_take _ _ _ _ inside]
      refine ⟨seed, rest, ?_, old, new⟩
      split_ifs with power
      · obtain ⟨e, rfl⟩ := power
        rw [← seeded, subproof_of_pow _ _ _ (Nat.sub_zero leaves.length) inside, Nat.zero_add]
      · rw [← seeded, subproof_not_pow _ _ _ (Nat.sub_zero leaves.length) (by omega) (by omega) power]

/-- What an accepted proof shows of a log whose leaves are known: the old root is its prefix's. -/
theorem verifyConsistency_sound (inj : Function.Injective2 hashChildren) {m : Nat} (pos : 0 < m)
    {oldRoot : D}
    (accepted : verifyConsistency hashChildren m oldRoot leaves.length
      (merkleRoot hashChildren emptyRoot leaves) proof = true) :
    m ≤ leaves.length ∧ oldRoot = merkleRoot hashChildren emptyRoot (leaves.take m) ∧
      consistencyProof hashChildren emptyRoot leaves m = .ok proof := by
  rcases lt_trichotomy m leaves.length with grown | rfl | shrunk
  · refine ⟨grown.le, ?_⟩
    rw [verifyConsistency_grown pos grown] at accepted
    obtain ⟨seed, rest, seeded, old, new⟩ := accepted
    have generated := climb_subproof_unique emptyRoot leaves inj (Nat.sub_zero leaves.length) pos grown new
    obtain ⟨-, climbed⟩ := climb_subproof hashChildren emptyRoot leaves (Nat.sub_zero leaves.length) pos
      grown generated
    rw [Nat.zero_add, old, Option.some.injEq] at climbed
    rw [consistencyProof_eq_ok pos grown, root_take _ _ _ _ grown.le]
    refine ⟨climbed, ?_⟩
    split_ifs at seeded with power
    · obtain ⟨e, rfl⟩ := power
      rw [subproof_of_pow _ _ _ (Nat.sub_zero leaves.length) grown.le] at generated
      rw [List.cons.injEq] at generated seeded
      rw [generated.2, seeded.2]
    · rw [subproof_not_pow _ _ _ (Nat.sub_zero leaves.length) pos grown power, generated, seeded]
  · rw [verifyConsistency.eq_def, if_neg (by omega), if_pos rfl] at accepted
    simp only [Bool.and_eq_true, List.isEmpty_iff, beq_iff_eq] at accepted
    simp [consistencyProof, accepted]
  · rw [verifyConsistency.eq_def, if_pos (by omega)] at accepted
    cases accepted

theorem verify_consistency_iff (emptyRoot : D) (collisionFree : Function.Injective2 hashChildren)
    (D1 D2 : List D) (proof : List D) :
    verifyConsistency hashChildren D1.length (merkleRoot hashChildren emptyRoot D1) D2.length
        (merkleRoot hashChildren emptyRoot D2) proof = true ↔
      D1.length ≤ D2.length ∧ D1 = D2.take D1.length ∧
        consistencyProof hashChildren emptyRoot D2 D1.length = .ok proof := by
  constructor
  · intro accepted
    cases D1 with
    | nil =>
      have noProof : proof = [] := by
        rw [verifyConsistency.eq_def, if_neg (by simp)] at accepted
        split_ifs at accepted <;> simp_all
      simp [noProof, consistencyProof]
    | cons first others =>
      obtain ⟨inside, same, generated⟩ := verifyConsistency_sound collisionFree (by simp) accepted
      refine ⟨inside, ?_, generated⟩
      apply merkleRoot_injective emptyRoot collisionFree _ same
      simpa using inside
  · rintro ⟨inside, isPrefix, generated⟩
    have complete := verifyConsistency_complete inside generated
    rwa [← isPrefix] at complete

theorem verify_consistency_iff_three_in_four :
    verifyConsistency FreeHash.node 3
      (merkleRoot FreeHash.node (.data 9) [.data 0, .data 1, .data 2]) 4
      (merkleRoot FreeHash.node (.data 9) [.data 0, .data 1, .data 2, .data 3])
      [.data 2, .data 3, .node (.data 0) (.data 1)] = true := by
  apply (verify_consistency_iff (.data 9) (FreeHash.node_injective Nat) [.data 0, .data 1, .data 2]
    [.data 0, .data 1, .data 2, .data 3] [.data 2, .data 3, .node (.data 0) (.data 1)]).mpr
  exact ⟨by decide, rfl, by decide +kernel⟩

end Verify

end QVault.Proof.Merkle
