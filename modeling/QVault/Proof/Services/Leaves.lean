import QVault.Services.Checkpoint
import QVault.Lib.Results

/-!
# The leaf cache

A call of `leaf_hashes` that succeeds leaves the leaves of every row behind, and calling it again
changes nothing.
-/

namespace QVault.Proof.Services
open QVault.Services QVault.Python Results

variable (tree : TreeHash) (ledger : Ledger)

theorem atSeq_of_mem {e : LedgerEntry} (member : e ∈ ledger.entries) : ledger.atSeq e.seq = some e := by
  obtain ⟨before, after, split⟩ := List.append_of_mem member
  have ordered := ledger.ordered
  rw [split, List.pairwise_append] at ordered
  have others : before.find? (fun row => row.seq = e.seq) = none := by
    rw [List.find?_eq_none]
    intro row inside
    have earlier := ordered.2.2 row inside e List.mem_cons_self
    simp only [decide_eq_true_eq]
    omega
  rw [Ledger.atSeq, split, List.find?_append, others]
  simp

-- The rows read one after the other continue the cache without a gap.
structure Extends (rows : List LedgerEntry) (cache after : List Bytes) : Prop where
  length : after.length = cache.length + rows.length
  seqs : ∀ row ∈ rows, (cache.length : Int) ≤ row.seq ∧ row.seq < after.length
  newest : ∀ row, rows.getLast? = some row →
    row.seq = (after.length : Int) - 1 ∧ ∃ leaf, entryLeaf tree row.entryHash = .ok leaf ∧ after.getLast? = some leaf

theorem extendLeaves_ok {rows : List LedgerEntry} {cache after : List Bytes}
    (read : extendLeaves tree rows cache = (after, .ok ())) : Extends tree rows cache after := by
  induction rows generalizing cache with
  | nil =>
    simp only [extendLeaves, Prod.mk.injEq, and_true] at read
    subst read
    exact ⟨by simp, by simp, by simp⟩
  | cons row rows ih =>
    unfold extendLeaves at read
    split at read
    · simp at read
    · next contiguous =>
      cases made : entryLeaf tree row.entryHash with
      | error error => simp [made] at read
      | ok leaf =>
        rw [made] at read
        have rest := ih read
        have grown := rest.length
        rw [List.length_append, List.length_singleton] at grown
        have first : row.seq = cache.length := not_not.mp contiguous
        refine ⟨by simp only [List.length_cons]; omega, ?_, ?_⟩
        · intro other member
          rcases List.mem_cons.mp member with rfl | later
          · omega
          · have bounds := rest.seqs other later
            rw [List.length_append, List.length_singleton] at bounds
            omega
        · intro final last
          cases rows with
          | nil =>
            simp only [List.getLast?_singleton, Option.some.injEq] at last
            simp only [extendLeaves, Prod.mk.injEq, and_true] at read
            subst last read
            refine ⟨?_, leaf, made, by simp⟩
            rw [List.length_append, List.length_singleton, first]
            omega
          | cons second others =>
            rw [List.getLast?_cons_cons] at last
            exact rest.newest final last

theorem validCache_ok {cache valid : List Bytes} (read : validCache tree ledger cache = .ok valid) :
    valid = [] ∨ valid = cache := by
  unfold validCache at read
  split at read
  · exact .inl (Except.ok.inj read).symm
  · split at read
    · exact .inl (Except.ok.inj read).symm
    · obtain ⟨leaf, -, chosen⟩ := map_eq_ok.mp read
      split at chosen
      · exact .inr chosen.symm
      · exact .inl chosen.symm

theorem validCache_of_tip {cache : List Bytes} {leaf : Bytes} {row : LedgerEntry}
    (newest : cache.getLast? = some leaf) (member : row ∈ ledger.entries)
    (seq : row.seq = (cache.length : Int) - 1) (made : entryLeaf tree row.entryHash = .ok leaf) :
    validCache tree ledger cache = .ok cache := by
  have tip := atSeq_of_mem ledger member
  rw [seq] at tip
  simp [validCache, newest, tip, made, Except.map]

theorem leafHashes_again {cache leaves : List Bytes}
    (read : leafHashes tree ledger cache = (leaves, .ok ())) :
    leafHashes tree ledger leaves = (leaves, .ok ()) := by
  unfold leafHashes at read
  cases valid : validCache tree ledger cache with
  | error error => simp [valid] at read
  | ok start =>
    rw [valid] at read
    have extended := extendLeaves_ok tree read
    cases last : (ledger.entries.filter fun row => (start.length : Int) ≤ row.seq).getLast? with
    | none =>
      rw [List.getLast?_eq_none_iff] at last
      simp only [last, extendLeaves, Prod.mk.injEq, and_true] at read
      subst read
      have again : validCache tree ledger start = .ok start := by
        rcases validCache_ok tree ledger valid with rfl | rfl
        · rfl
        · exact valid
      simp only [leafHashes, again, last, extendLeaves]
    | some row =>
      obtain ⟨seq, leaf, made, newest⟩ := extended.newest row last
      have member := (List.mem_filter.mp (List.mem_of_getLast? last)).1
      have again := validCache_of_tip tree ledger newest member seq made
      have done : (ledger.entries.filter fun row => (leaves.length : Int) ≤ row.seq) = [] := by
        rw [List.filter_eq_nil_iff]
        intro other inside
        simp only [decide_eq_true_eq]
        intro late
        have grown := extended.length
        have listed := extended.seqs other
          (List.mem_filter.mpr ⟨inside, by simp only [decide_eq_true_eq]; omega⟩)
        omega
      simp only [leafHashes, again, done, extendLeaves]

end QVault.Proof.Services
