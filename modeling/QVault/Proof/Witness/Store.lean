import QVault.Witness.Store
import Mathlib.Tactic

/-!
# What the witness's storage operations do

The pinned keys never change once they are there, the co-signed history only grows, and `latest`
is a row of the largest tree size.
-/

namespace QVault.Proof.Witness
open QVault.Witness QVault.Python

variable (store : WitnessStore)

section Pin
variable (origin algId : Text) (publicKey : Bytes)

theorem pinLog_known {row : OriginRow} (known : store.knownLog origin = some row) :
    store.pinLog origin algId publicKey = store := by
  simp [WitnessStore.pinLog, known]

theorem knownLog_pinLog_self (unknown : store.knownLog origin = none) :
    (store.pinLog origin algId publicKey).knownLog origin = some ⟨origin, algId, publicKey⟩ := by
  unfold WitnessStore.knownLog at unknown
  simp [WitnessStore.pinLog, WitnessStore.knownLog, unknown, List.find?_append]

theorem knownLog_pinLog_other {other : Text} (different : other ≠ origin) :
    (store.pinLog origin algId publicKey).knownLog other = store.knownLog other := by
  cases known : store.knownLog origin with
  | some row => rw [pinLog_known store origin algId publicKey known]
  | none =>
    unfold WitnessStore.knownLog at known
    simp [WitnessStore.pinLog, WitnessStore.knownLog, known, List.find?_append, different.symm]

-- The row in the table afterwards is the one from before, or the new one.
theorem knownLog_pinLog (other : Text) :
    (store.pinLog origin algId publicKey).knownLog other =
      if other = origin ∧ store.knownLog origin = none then some ⟨origin, algId, publicKey⟩
      else store.knownLog other := by
  by_cases new : other = origin ∧ store.knownLog origin = none
  · rw [if_pos new, new.1]
    exact knownLog_pinLog_self store origin algId publicKey new.2
  · rw [if_neg new]
    by_cases same : other = origin
    · subst same
      cases known : store.knownLog other with
      | none => exact absurd ⟨rfl, known⟩ new
      | some row => rw [pinLog_known store other algId publicKey known, known]
    · exact knownLog_pinLog_other store origin algId publicKey same

@[simp] theorem checkpoints_pinLog :
    (store.pinLog origin algId publicKey).checkpoints = store.checkpoints := by
  unfold WitnessStore.pinLog
  cases store.knownLog origin <;> rfl

@[simp] theorem violations_pinLog :
    (store.pinLog origin algId publicKey).violations = store.violations := by
  unfold WitnessStore.pinLog
  cases store.knownLog origin <;> rfl

theorem knownLog_origin {row : OriginRow} (known : store.knownLog origin = some row) :
    row.origin = origin := by
  simpa using List.find?_some known

end Pin

section Latest

theorem before_or_le (a b : CheckpointRow) : a.before b ∨ a.treeSize ≤ b.treeSize := by
  by_cases smaller : b.treeSize < a.treeSize
  · left
    simp [CheckpointRow.before, smaller]
  · right
    omega

theorem treeSize_of_before {a b : CheckpointRow} (before : a.before b) : b.treeSize ≤ a.treeSize := by
  simp only [CheckpointRow.before, Bool.or_eq_true, decide_eq_true_eq, Bool.and_eq_true, beq_iff_eq] at before
  omega

theorem foldl_later (rows : List CheckpointRow) (found : CheckpointRow) :
    ∃ best, rows.foldl WitnessStore.later (some found) = some best ∧ (best = found ∨ best ∈ rows) ∧
      found.treeSize ≤ best.treeSize ∧ ∀ row ∈ rows, row.treeSize ≤ best.treeSize := by
  induction rows generalizing found with
  | nil => exact ⟨found, rfl, .inl rfl, le_rfl, by simp⟩
  | cons row rest ih =>
    cases before : row.before found with
    | true =>
      obtain ⟨best, folded, mem, above, all⟩ := ih row
      have grown := treeSize_of_before before
      refine ⟨best, by simpa [WitnessStore.later, before] using folded, ?_, by omega, ?_⟩
      · rcases mem with rfl | mem
        · exact .inr List.mem_cons_self
        · exact .inr (List.mem_cons_of_mem _ mem)
      · intro other member
        rcases List.mem_cons.mp member with rfl | member
        · exact above
        · exact all other member
    | false =>
      obtain ⟨best, folded, mem, above, all⟩ := ih found
      have smaller : row.treeSize ≤ found.treeSize := by
        rcases before_or_le row found with first | first
        · simp [before] at first
        · exact first
      refine ⟨best, by simpa [WitnessStore.later, before] using folded, ?_, above, ?_⟩
      · rcases mem with rfl | mem
        · exact .inl rfl
        · exact .inr (List.mem_cons_of_mem _ mem)
      · intro other member
        rcases List.mem_cons.mp member with rfl | member
        · omega
        · exact all other member

variable (origin : Text)

theorem latest_none (nothing : store.latest origin = none) : store.history origin = [] := by
  unfold WitnessStore.latest at nothing
  unfold WitnessStore.history
  cases rows : store.checkpoints.filter (fun row => row.origin = origin) with
  | nil => rfl
  | cons row rest =>
    obtain ⟨best, folded, -⟩ := foldl_later rest row
    rw [rows] at nothing
    simp [WitnessStore.later, folded] at nothing

theorem latest_of_history_nil (empty : store.history origin = []) : store.latest origin = none := by
  unfold WitnessStore.history at empty
  simp [WitnessStore.latest, empty]

theorem latest_some {row : CheckpointRow} (found : store.latest origin = some row) :
    row ∈ store.checkpoints ∧ row.origin = origin ∧
      ∀ other ∈ store.checkpoints, other.origin = origin → other.treeSize ≤ row.treeSize := by
  unfold WitnessStore.latest at found
  cases rows : store.checkpoints.filter (fun row => row.origin = origin) with
  | nil => simp [rows] at found
  | cons first rest =>
    obtain ⟨best, folded, mem, above, all⟩ := foldl_later rest first
    rw [rows, List.foldl_cons] at found
    obtain rfl : best = row := by simpa [WitnessStore.later, folded] using found
    have member : best ∈ store.checkpoints.filter (fun row => row.origin = origin) := by
      rw [rows]
      rcases mem with rfl | mem
      · exact List.mem_cons_self
      · exact List.mem_cons_of_mem _ mem
    rw [List.mem_filter, decide_eq_true_eq] at member
    refine ⟨member.1, member.2, ?_⟩
    intro other inside same
    have listed : other ∈ first :: rest := by
      rw [← rows, List.mem_filter]
      exact ⟨inside, by simpa using same⟩
    rcases List.mem_cons.mp listed with rfl | later
    · exact above
    · exact all other later

end Latest

end QVault.Proof.Witness
