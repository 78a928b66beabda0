import Mathlib.Data.List.Nodup
import Mathlib.Data.List.Perm.Basic

/-!
# A table with a unique key, written by transactions

Rows are stored, or written by a transaction that has not ended. A transaction that inserts a key another one
has written waits for it; a key that is stored, or its own, is refused. So each key stands once, whatever
transactions commit, are undone and come between one another.
-/

structure UniqueTable {ρ κ : Type*} (key : ρ → κ) where
  rows : List ρ
  -- each with the transaction that wrote it
  pending : List (Nat × ρ)
  unique : ((rows ++ pending.map Prod.snd).map key).Nodup

namespace UniqueTable

inductive Inserted
  | written | refused | waits
  deriving DecidableEq

variable {ρ κ : Type*} {key : ρ → κ}

def empty : UniqueTable key := ⟨[], [], List.nodup_nil⟩

def everything (t : UniqueTable key) : List ρ := t.rows ++ t.pending.map Prod.snd

-- What a transaction reads: what is stored, and what it has written
def seen (t : UniqueTable key) (transaction : Nat) : List ρ :=
  t.rows ++ (t.pending.filter fun e => e.1 = transaction).map Prod.snd

def commit (t : UniqueTable key) (transaction : Nat) : UniqueTable key where
  rows := t.seen transaction
  pending := t.pending.filter fun e => e.1 ≠ transaction
  unique := by
    have split := (List.filter_append_perm (fun e : Nat × ρ => e.1 = transaction) t.pending).map Prod.snd
    have whole : (t.seen transaction ++ (t.pending.filter fun e => e.1 ≠ transaction).map Prod.snd).Perm
        (t.rows ++ t.pending.map Prod.snd) := by
      rw [seen, List.append_assoc]
      refine List.Perm.append_left _ ?_
      simpa using split
    exact ((whole.map key).nodup_iff).mpr t.unique

def undo (t : UniqueTable key) (transaction : Nat) : UniqueTable key where
  rows := t.rows
  pending := t.pending.filter fun e => e.1 ≠ transaction
  unique := t.unique.sublist (((List.filter_sublist.map Prod.snd).append_left t.rows).map key)

section Insert
variable [DecidableEq κ] (t : UniqueTable key) (transaction : Nat) (row : ρ)

-- What comes of an insert
def outcome : Inserted :=
  match t.pending.find? fun e => key e.2 = key row with
  | some (writer, _) => if writer = transaction then .refused else .waits
  | none => if t.rows.any fun r => key r = key row then .refused else .written

theorem fresh_of_written (written : t.outcome transaction row = .written) : key row ∉ t.everything.map key := by
  unfold outcome at written
  split at written
  · split at written <;> cases written
  · rename_i none
    split at written
    · cases written
    · rename_i absent
      rw [List.find?_eq_none] at none
      rw [Bool.not_eq_true, List.any_eq_false] at absent
      intro listed
      obtain ⟨r, among, same⟩ := List.mem_map.mp listed
      rcases List.mem_append.mp among with stored | waiting
      · exact absent r stored (decide_eq_true same)
      · obtain ⟨e, inside, rfl⟩ := List.mem_map.mp waiting
        exact none e inside (decide_eq_true same)

def write (fresh : key row ∉ t.everything.map key) : UniqueTable key where
  rows := t.rows
  pending := t.pending ++ [(transaction, row)]
  unique := by
    have last : t.rows ++ (t.pending ++ [(transaction, row)]).map Prod.snd = t.everything ++ [row] := by
      rw [List.map_append, ← List.append_assoc]
      rfl
    rw [last, List.map_append, List.nodup_append]
    refine ⟨t.unique, List.nodup_singleton _, ?_⟩
    rintro k listed k' new rfl
    rw [List.map_singleton, List.mem_singleton] at new
    exact fresh (new ▸ listed)

def insert : UniqueTable key :=
  if written : t.outcome transaction row = .written then t.write transaction row (t.fresh_of_written transaction row written)
  else t

end Insert

/-! ## What holds of every row -/

theorem mem_seen {t : UniqueTable key} {transaction : Nat} {r : ρ} :
    r ∈ t.seen transaction ↔ r ∈ t.rows ∨ (transaction, r) ∈ t.pending := by
  simp [seen]

theorem mem_everything {t : UniqueTable key} {r : ρ} : r ∈ t.everything ↔ r ∈ t.rows ∨ ∃ i, (i, r) ∈ t.pending := by
  simp [everything]

theorem everything_commit {t : UniqueTable key} {transaction : Nat} {r : ρ} :
    r ∈ (t.commit transaction).everything ↔ r ∈ t.everything := by
  simp only [mem_everything, commit, mem_seen, List.mem_filter, decide_eq_true_eq]
  constructor
  · rintro ((stored | mine) | ⟨i, listed, _⟩)
    · exact .inl stored
    · exact .inr ⟨_, mine⟩
    · exact .inr ⟨i, listed⟩
  · rintro (stored | ⟨i, listed⟩)
    · exact .inl (.inl stored)
    · by_cases mine : i = transaction
      · exact .inl (.inr (mine ▸ listed))
      · exact .inr ⟨i, listed, mine⟩

theorem everything_undo {t : UniqueTable key} {transaction : Nat} {r : ρ}
    (listed : r ∈ (t.undo transaction).everything) : r ∈ t.everything := by
  simp only [mem_everything, undo, List.mem_filter] at listed ⊢
  exact listed.imp_right fun ⟨i, among, _⟩ => ⟨i, among⟩

section Insert
variable [DecidableEq κ] {t : UniqueTable key} {transaction : Nat} {row : ρ}

theorem insert_rows : (t.insert transaction row).rows = t.rows := by
  unfold insert
  split <;> rfl

theorem mem_insert {e : Nat × ρ} (listed : e ∈ (t.insert transaction row).pending) :
    e ∈ t.pending ∨ e = (transaction, row) := by
  unfold insert at listed
  split at listed
  · exact (List.mem_append.mp listed).imp_right List.mem_singleton.mp
  · exact .inl listed

theorem everything_insert {r : ρ} (listed : r ∈ (t.insert transaction row).everything) : r ∈ t.everything ∨ r = row := by
  rw [mem_everything, insert_rows] at listed
  rw [mem_everything]
  rcases listed with stored | ⟨i, waiting⟩
  · exact .inl (.inl stored)
  · exact (mem_insert waiting).imp (fun old => .inr ⟨i, old⟩) fun new => (Prod.mk.inj new).2

end Insert

/-! ## Each key once -/

theorem rows_nodup (t : UniqueTable key) : (t.rows.map key).Nodup :=
  t.unique.sublist ((List.sublist_append_left _ _).map key)

-- Rows that can only have one key are one row.
theorem single {t : UniqueTable key} {p : ρ → Bool} (one : ∀ r ∈ t.rows, ∀ s ∈ t.rows, p r = true → p s = true → key r = key s) :
    (t.rows.filter p).length ≤ 1 := by
  have distinct : ((t.rows.filter p).map key).Nodup := t.rows_nodup.sublist (List.filter_sublist.map key)
  cases chosen : t.rows.filter p with
  | nil => simp
  | cons r rest =>
    cases rest with
    | nil => simp
    | cons s more =>
      have first : r ∈ t.rows.filter p := by simp [chosen]
      have second : s ∈ t.rows.filter p := by simp [chosen]
      rw [List.mem_filter] at first second
      rw [chosen] at distinct
      have same := one r first.1 s second.1 first.2 second.2
      simp [same] at distinct

end UniqueTable
