import QVault.Services.LeafCache
import QVault.Proof.Services.Leaves
import QVault.Lib.Runs

/-!
# What the leaf cache is worth

A warm call checks the newest cached entry and trusts those before it, so it answers as a cold one does
exactly when they are stored as they were cached, or when the rows after them are refused anyway.
-/

namespace QVault.Proof.Services
open QVault.Services QVault.Python Results Runs

variable {tree : TreeHash} {ledger : Ledger} {cache leaves : List Bytes} {rows more : List LedgerEntry} {n : Nat}

/-! ## Rows read one by one -/

-- Rows that are numbered from `n` on, and their leaves
def ReadsFrom (tree : TreeHash) : Nat → List LedgerEntry → List Bytes → Prop
  | _, [], [] => True
  | n, row :: rows, leaf :: leaves =>
    row.seq = n ∧ entryLeaf tree row.entryHash = .ok leaf ∧ ReadsFrom tree (n + 1) rows leaves
  | _, _, _ => False

theorem readsFrom_length (reads : ReadsFrom tree n rows leaves) : rows.length = leaves.length := by
  induction rows generalizing n leaves with
  | nil => cases leaves with
    | nil => rfl
    | cons leaf leaves => exact reads.elim
  | cons row rows ih => cases leaves with
    | nil => exact reads.elim
    | cons leaf leaves => rw [List.length_cons, List.length_cons, ih reads.2.2]

theorem readsFrom_unique {leaves' : List Bytes} (reads : ReadsFrom tree n rows leaves)
    (reads' : ReadsFrom tree n rows leaves') : leaves = leaves' := by
  induction rows generalizing n leaves leaves' with
  | nil =>
    cases leaves <;> cases leaves' <;> first | rfl | exact reads.elim | exact reads'.elim
  | cons row rows ih =>
    cases leaves with
    | nil => exact reads.elim
    | cons leaf leaves =>
      cases leaves' with
      | nil => exact reads'.elim
      | cons leaf' leaves' =>
        have same := Except.ok.inj (reads.2.1.symm.trans reads'.2.1)
        rw [same, ih reads.2.2 reads'.2.2]

theorem readsFrom_append : ReadsFrom tree n (rows ++ more) leaves ↔
    ∃ front back, leaves = front ++ back ∧ ReadsFrom tree n rows front ∧ ReadsFrom tree (n + rows.length) more back := by
  induction rows generalizing n leaves with
  | nil =>
    constructor
    · exact fun reads => ⟨[], leaves, rfl, trivial, reads⟩
    · rintro ⟨front, back, rfl, none', reads⟩
      cases front with
      | nil => exact reads
      | cons leaf front => exact none'.elim
  | cons row rows ih =>
    cases leaves with
    | nil =>
      constructor
      · exact fun reads => reads.elim
      · rintro ⟨front, back, cut, reads, -⟩
        cases front with
        | nil => exact reads.elim
        | cons leaf front => cases cut
    | cons leaf leaves =>
      have shift : n + (row :: rows).length = n + 1 + rows.length := by
        rw [List.length_cons]
        omega
      rw [shift]
      constructor
      · rintro ⟨seq, made, reads⟩
        obtain ⟨front, back, rfl, first, second⟩ := ih.mp reads
        exact ⟨leaf :: front, back, rfl, ⟨seq, made, first⟩, second⟩
      · rintro ⟨front, back, cut, reads, second⟩
        cases front with
        | nil => exact reads.elim
        | cons leaf' front =>
          obtain ⟨rfl, rfl⟩ := List.cons.inj cut
          exact ⟨reads.1, reads.2.1, ih.mpr ⟨front, back, rfl, reads.2.2, second⟩⟩

-- The rows are read without an error exactly when they are numbered on from the cache.
theorem extendLeaves_eq_ok : extendLeaves tree rows cache = (leaves, .ok ()) ↔
    ∃ new, leaves = cache ++ new ∧ ReadsFrom tree cache.length rows new := by
  induction rows generalizing cache with
  | nil =>
    constructor
    · intro read
      simp only [extendLeaves, Prod.mk.injEq, and_true] at read
      exact ⟨[], by simp [read], trivial⟩
    · rintro ⟨new, rfl, reads⟩
      cases new with
      | nil => simp [extendLeaves]
      | cons leaf new => exact reads.elim
  | cons row rows ih =>
    unfold extendLeaves
    by_cases contiguous : row.seq = cache.length
    · rw [if_neg (not_not.mpr contiguous)]
      cases made : entryLeaf tree row.entryHash with
      | error error =>
        constructor
        · intro read
          simp at read
        · rintro ⟨new, -, reads⟩
          cases new with
          | nil => exact reads.elim
          | cons leaf new =>
            have two := made.symm.trans reads.2.1
            cases two
      | ok leaf =>
        simp only
        rw [ih, List.length_append, List.length_singleton]
        constructor
        · rintro ⟨new, rfl, reads⟩
          exact ⟨leaf :: new, by simp, contiguous, made, reads⟩
        · rintro ⟨new, rfl, reads⟩
          cases new with
          | nil => exact reads.elim
          | cons leaf' new =>
            have same := Except.ok.inj (made.symm.trans reads.2.1)
            exact ⟨new, by simp [same], reads.2.2⟩
    · rw [if_pos contiguous]
      constructor
      · intro read
        simp at read
      · rintro ⟨new, -, reads⟩
        cases new with
        | nil => exact reads.elim
        | cons leaf new => exact absurd reads.1 contiguous

/-! ## Cold and warm calls -/

theorem leafAnswer_eq_ok : leafAnswer tree ledger cache = .ok leaves ↔
    leafHashes tree ledger cache = (leaves, .ok ()) := by
  unfold leafAnswer
  generalize leafHashes tree ledger cache = called
  obtain ⟨found, read⟩ := called
  cases read <;> simp [Except.map]

theorem seqs_nonneg {e : LedgerEntry} (reads : ReadsFrom tree n rows leaves) (listed : e ∈ rows) : (n : Int) ≤ e.seq := by
  induction rows generalizing n leaves with
  | nil => cases listed
  | cons row rows ih =>
    cases leaves with
    | nil => exact reads.elim
    | cons leaf leaves =>
      rcases List.mem_cons.mp listed with rfl | later
      · exact reads.1.ge
      · have after := ih reads.2.2 later
        omega

def below (ledger : Ledger) (n : Nat) : List LedgerEntry := ledger.entries.filter fun row => row.seq < n
def above (ledger : Ledger) (n : Nat) : List LedgerEntry := ledger.entries.filter fun row => (n : Int) ≤ row.seq

theorem below_above (ledger : Ledger) (n : Nat) : ledger.entries = below ledger n ++ above ledger n := by
  obtain ⟨entries, ordered⟩ := ledger
  simp only [below, above]
  induction entries with
  | nil => rfl
  | cons row rows ih =>
    rw [List.pairwise_cons] at ordered
    by_cases early : row.seq < n
    · rw [List.filter_cons_of_pos (by simpa using early), List.filter_cons_of_neg (by simpa using early), List.cons_append,
        ← ih ordered.2]
    · have late : ∀ other ∈ row :: rows, (n : Int) ≤ other.seq := by
        intro other listed
        rcases List.mem_cons.mp listed with rfl | after
        · omega
        · have more := ordered.1 other after
          omega
      rw [List.filter_eq_nil_iff.mpr fun other listed => by simpa using late other listed,
        List.filter_eq_self.mpr fun other listed => by simpa using late other listed]
      rfl

theorem readsFrom_lt {e : LedgerEntry} (reads : ReadsFrom tree n rows leaves) (listed : e ∈ rows) :
    e.seq < n + rows.length := by
  induction rows generalizing n leaves with
  | nil => cases listed
  | cons row rows ih =>
    cases leaves with
    | nil => exact reads.elim
    | cons leaf leaves =>
      rw [List.length_cons]
      rcases List.mem_cons.mp listed with rfl | later
      · have here := reads.1
        omega
      · have before := ih reads.2.2 later
        omega

theorem readsFrom_readable {e : LedgerEntry} (reads : ReadsFrom tree n rows leaves) (listed : e ∈ rows) :
    ∃ leaf, entryLeaf tree e.entryHash = .ok leaf := by
  induction rows generalizing n leaves with
  | nil => cases listed
  | cons row rows ih =>
    cases leaves with
    | nil => exact reads.elim
    | cons leaf leaves =>
      rcases List.mem_cons.mp listed with rfl | later
      · exact ⟨leaf, reads.2.1⟩
      · exact ih reads.2.2 later

-- Rows that are read from `k` on are read from any later row on.
theorem readsFrom_late {k : Nat} (reads : ReadsFrom tree k rows leaves) (from' : k ≤ n) (until' : n ≤ k + rows.length) :
    ∃ back, ReadsFrom tree n (rows.filter fun row => (n : Int) ≤ row.seq) back := by
  induction rows generalizing k leaves with
  | nil =>
    exact ⟨[], trivial⟩
  | cons row rows ih =>
    cases leaves with
    | nil => exact reads.elim
    | cons leaf leaves =>
      rcases from'.eq_or_lt with rfl | later
      · refine ⟨leaf :: leaves, ?_⟩
        rw [List.filter_eq_self.mpr fun e listed => by simpa using seqs_nonneg reads listed]
        exact reads
      · have early : ¬ (n : Int) ≤ row.seq := by
          rw [reads.1]
          omega
        rw [List.filter_cons_of_neg (by simpa using early)]
        rw [List.length_cons] at until'
        exact ih reads.2.2 later (by omega)

theorem storedLeaves_eq_some : storedLeaves tree ledger = some leaves ↔ ReadsFrom tree 0 ledger.entries leaves := by
  unfold storedLeaves
  have numbered : ∀ (rows : List LedgerEntry) (n : Nat) (leaves : List Bytes), ReadsFrom tree n rows leaves ↔
      rows.map (·.seq) = (List.range' n rows.length).map Int.ofNat ∧
        rows.mapM (fun e => (entryLeaf tree e.entryHash).toOption) = some leaves := by
    intro rows
    induction rows with
    | nil =>
      intro n leaves
      cases leaves <;> simp [ReadsFrom]
    | cons row rows ih =>
      intro n leaves
      cases leaves with
      | nil =>
        simp only [ReadsFrom, List.mapM_cons, false_iff, not_and]
        intro _ none'
        obtain ⟨leaf, -, none'⟩ := Option.bind_eq_some_iff.mp none'
        obtain ⟨rest, -, none'⟩ := Option.bind_eq_some_iff.mp none'
        cases none'
      | cons leaf leaves =>
        simp only [ReadsFrom, ih, List.map_cons, List.length_cons, List.range'_succ, List.mapM_cons, List.cons.injEq,
          Int.ofNat_eq_natCast]
        cases made : entryLeaf tree row.entryHash with
        | error error => simp [Except.toOption]
        | ok other =>
          simp only [Except.toOption, Except.ok.injEq, Option.pure_def, Option.bind_eq_bind, Option.bind_some,
            Option.bind_eq_some_iff, Option.some.injEq, List.cons.injEq]
          constructor
          · rintro ⟨seq, rfl, seqs, others⟩
            exact ⟨⟨seq, seqs⟩, leaves, others, rfl, rfl⟩
          · rintro ⟨⟨seq, seqs⟩, rest, others, rfl, rfl⟩
            exact ⟨seq, rfl, seqs, others⟩
  rw [numbered, List.range_eq_range']
  split
  · rename_i same
    exact ⟨fun found => ⟨same, found⟩, And.right⟩
  · rename_i different
    exact ⟨fun none' => (nomatch none'), fun both => absurd both.1 different⟩

theorem leafHashes_eq_ok {valid : List Bytes} (trusted : validCache tree ledger cache = .ok valid) :
    leafHashes tree ledger cache = (leaves, .ok ()) ↔
      ∃ back, leaves = valid ++ back ∧ ReadsFrom tree valid.length (above ledger valid.length) back := by
  unfold leafHashes
  rw [trusted]
  exact extendLeaves_eq_ok

-- A row is read from 0 on with all the others, so its leaf is stored where a cache of it would end.
theorem tip_stored {valid : List Bytes} (trusted : validCache tree ledger cache = .ok valid) (kept : valid ≠ []) :
    ∃ tip ∈ ledger.entries, tip.seq = (valid.length : Int) - 1 := by
  unfold validCache at trusted
  split at trusted
  · exact absurd (Except.ok.inj trusted).symm kept
  · split at trusted
    · exact absurd (Except.ok.inj trusted).symm kept
    · rename_i tip found
      obtain ⟨leaf, -, chosen⟩ := map_eq_ok.mp trusted
      split at chosen
      · rw [← chosen]
        exact ⟨tip, List.mem_of_find?_eq_some found, by simpa using List.find?_some found⟩
      · exact absurd chosen.symm kept

theorem tip_unreadable {error : LogError} (refused : validCache tree ledger cache = .error error) :
    ∃ tip ∈ ledger.entries, 0 ≤ tip.seq ∧ ∀ leaf, entryLeaf tree tip.entryHash ≠ .ok leaf := by
  unfold validCache at refused
  split at refused
  · cases refused
  · rename_i newest last
    split at refused
    · cases refused
    · rename_i tip found
      refine ⟨tip, List.mem_of_find?_eq_some found, ?_, ?_⟩
      · have here : tip.seq = (cache.length : Int) - 1 := by simpa using List.find?_some found
        have some' : cache.length ≠ 0 := fun none' => by simp [List.length_eq_zero_iff.mp none'] at last
        omega
      · intro leaf made
        rw [made] at refused
        cases refused

-- What the call reads is in the cache it trusts, or it reads nothing to the end.
def Told (tree : TreeHash) (ledger : Ledger) (cache : List Bytes) : Prop :=
  ∀ valid, validCache tree ledger cache = .ok valid →
    (∃ back, ReadsFrom tree valid.length (above ledger valid.length) back) →
    ReadsFrom tree 0 (below ledger valid.length) valid

-- A call that is refused with a cache is refused without one.
theorem warm_of_cold (cache : List Bytes) (cold : ReadsFrom tree 0 (above ledger 0) leaves) :
    ∃ found, leafAnswer tree ledger cache = .ok found := by
  cases trusted : validCache tree ledger cache with
  | error error =>
    obtain ⟨tip, listed, positive, unreadable⟩ := tip_unreadable trusted
    have among : tip ∈ above ledger 0 := List.mem_filter.mpr ⟨listed, by simpa using positive⟩
    obtain ⟨leaf, made⟩ := readsFrom_readable cold among
    exact absurd made (unreadable leaf)
  | ok valid =>
    have enough : valid.length ≤ 0 + (above ledger 0).length := by
      by_cases kept : valid = []
      · simp [kept]
      · obtain ⟨tip, listed, seq⟩ := tip_stored trusted kept
        have some' := List.length_pos_iff.mpr kept
        have among : tip ∈ above ledger 0 := List.mem_filter.mpr ⟨listed, by simp; omega⟩
        have last := readsFrom_lt cold among
        omega
    obtain ⟨back, reads⟩ := readsFrom_late cold (Nat.zero_le valid.length) enough
    have same : (above ledger 0).filter (fun row => (valid.length : Int) ≤ row.seq) = above ledger valid.length := by
      unfold above
      rw [List.filter_filter]
      refine List.filter_congr fun row _ => ?_
      by_cases late : (valid.length : Int) ≤ row.seq
      · have positive : (0 : Int) ≤ row.seq := by omega
        simp [late, positive]
      · simp [late]
    rw [same] at reads
    exact ⟨valid ++ back, leafAnswer_eq_ok.mpr ((leafHashes_eq_ok trusted).mpr ⟨back, rfl, reads⟩)⟩

theorem cold_of_stored (stored : ReadsFrom tree 0 ledger.entries leaves) : ReadsFrom tree 0 (above ledger 0) leaves := by
  have all : above ledger 0 = ledger.entries :=
    List.filter_eq_self.mpr fun row listed => by simpa using seqs_nonneg stored listed
  rwa [all]

theorem cold_eq_ok : leafAnswer tree ledger [] = .ok leaves ↔ ReadsFrom tree 0 (above ledger 0) leaves := by
  have trusted : validCache tree ledger [] = .ok [] := rfl
  rw [leafAnswer_eq_ok, leafHashes_eq_ok trusted]
  simp

theorem reads_whole {valid back : List Bytes} (front : ReadsFrom tree 0 (below ledger valid.length) valid)
    (reads : ReadsFrom tree valid.length (above ledger valid.length) back) :
    ReadsFrom tree 0 ledger.entries (valid ++ back) := by
  rw [below_above ledger valid.length, readsFrom_append]
  refine ⟨valid, back, rfl, front, ?_⟩
  rw [readsFrom_length front, Nat.zero_add]
  exact reads

theorem toOption_eq_some {ε α : Type} {result : Except ε α} {a : α} : result.toOption = some a ↔ result = .ok a := by
  cases result <;> simp [Except.toOption]

theorem told_iff : Told tree ledger cache ↔
    (leafAnswer tree ledger cache).toOption = (leafAnswer tree ledger []).toOption ∧
      (leafAnswer tree ledger cache).toOption = storedLeaves tree ledger := by
  constructor
  · intro told
    have stored : (leafAnswer tree ledger cache).toOption = storedLeaves tree ledger := by
      refine Option.ext fun found => ?_
      rw [toOption_eq_some, storedLeaves_eq_some]
      constructor
      · intro warm
        rw [leafAnswer_eq_ok] at warm
        cases trusted : validCache tree ledger cache with
        | error error => simp [leafHashes, trusted] at warm
        | ok valid =>
          obtain ⟨back, rfl, reads⟩ := (leafHashes_eq_ok trusted).mp warm
          exact reads_whole (told valid trusted ⟨back, reads⟩) reads
      · intro stored
        obtain ⟨warm, answer⟩ := warm_of_cold cache (cold_of_stored stored)
        rw [answer]
        rw [leafAnswer_eq_ok] at answer
        cases trusted : validCache tree ledger cache with
        | error error => simp [leafHashes, trusted] at answer
        | ok valid =>
          obtain ⟨back, rfl, reads⟩ := (leafHashes_eq_ok trusted).mp answer
          rw [readsFrom_unique (reads_whole (told valid trusted ⟨back, reads⟩) reads) stored]
    refine ⟨?_, stored⟩
    rw [stored]
    refine Option.ext fun found => ?_
    rw [toOption_eq_some, cold_eq_ok, storedLeaves_eq_some]
    refine ⟨cold_of_stored, fun cold => ?_⟩
    obtain ⟨warm, answer⟩ := warm_of_cold cache cold
    rw [answer] at stored
    have whole := storedLeaves_eq_some.mp (stored.symm.trans rfl)
    rw [readsFrom_unique cold (cold_of_stored whole)]
    exact whole
  · rintro ⟨-, stored⟩ valid trusted ⟨back, reads⟩
    have answer := leafAnswer_eq_ok.mpr ((leafHashes_eq_ok trusted).mpr ⟨back, rfl, reads⟩)
    rw [answer] at stored
    have whole := storedLeaves_eq_some.mp (stored.symm.trans rfl)
    rw [below_above ledger valid.length, readsFrom_append] at whole
    obtain ⟨front, last, cut, first, second⟩ := whole
    have lengths := (readsFrom_length reads).symm.trans (readsFrom_length second)
    obtain ⟨same, -⟩ := List.append_inj' cut lengths
    exact same ▸ first

/-! ## Runs -/

variable {sha256 : Bytes → Bytes}

section Sample

def plainRow (seq : Int) (entryHash : Text) : LedgerEntry :=
  ⟨seq, "", "", "", none, none, none, none, "", "", "", entryHash⟩

def threeRows (second : Text) : Ledger where
  entries := [plainRow 0 "00", plainRow 1 second, plainRow 2 "22"]
  ordered := by simp [plainRow]

def plainTree : TreeHash := ⟨id, fun l r => l ++ r, []⟩

end Sample

end QVault.Proof.Services
