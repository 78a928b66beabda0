import QVault.Lib.Transactions

/-!
# A session alone

What a session does while no other takes a step, and transactions that no state of the store makes fail.
-/

namespace Sessions
open Programs

variable {Store Memory Error Operation World α β : Type}

-- The result, with the store and the memory at the end; nothing if a statement waits.
def alone : Session Store Memory Error α → Store → Memory → Option (Except Error α × Store × Memory)
  | .done result, store, memory => some (result, store, memory)
  | .ask statement next, store, memory =>
    if statement.ready store then alone (next store) (statement.write store) memory else none
  | .load next, store, memory => alone (next memory) store memory
  | .store memory next, store, _ => alone next store memory

@[simp] theorem alone_done (result : Except Error α) (store : Store) (memory : Memory) :
    alone (.done result : Session Store Memory Error α) store memory = some (result, store, memory) := rfl

@[simp] theorem alone_look (store : Store) (memory : Memory) :
    alone (look : Session Store Memory Error Store) store memory = some (.ok store, store, memory) := rfl

theorem alone_bind (program : Session Store Memory Error α) (rest : α → Session Store Memory Error β) (store : Store)
    (memory : Memory) :
    alone (program >>= rest) store memory = match alone program store memory with
      | none => none
      | some (.ok a, after, memory) => alone (rest a) after memory
      | some (.error e, after, memory) => some (.error e, after, memory) := by
  induction program generalizing store memory with
  | done result => cases result <;> rfl
  | ask statement next ih =>
    change (if statement.ready store then alone (next store >>= rest) (statement.write store) memory else none) = _
    rw [alone]
    split
    · exact ih _ _ _
    · rfl
  | load next ih => exact ih _ _ _
  | store memory next ih => exact ih _ _

-- It is a run of the system in which only this session takes steps.
theorem alone_run {setup : Setup Store Memory Error Operation World} {program : Session Store Memory Error Unit}
    {store after : Store} {memory kept : Memory} {result : Except Error Unit}
    (ends : alone program store memory = some (result, after, kept)) :
    ∃ steps, (List.replicate steps (.proceed 0)).foldl (System.step setup) ⟨store, [(program, memory)]⟩ =
      ⟨after, [(.done result, kept)]⟩ := by
  induction program generalizing store memory with
  | done _ =>
    cases ends
    exact ⟨0, rfl⟩
  | ask statement next ih =>
    rw [alone] at ends
    split at ends
    · rename_i ready
      obtain ⟨steps, ran⟩ := ih _ ends
      refine ⟨steps + 1, ?_⟩
      have first : System.step setup ⟨store, [(.ask statement next, memory)]⟩ (.proceed 0) =
          ⟨statement.write store, [(next store, memory)]⟩ := by
        simp [System.step, System.proceed, Program.step, Program.question, ready]
      rw [List.replicate_succ, List.foldl_cons, first]
      exact ran
    · cases ends
  | load next ih =>
    obtain ⟨steps, ran⟩ := ih memory ends
    exact ⟨steps + 1, ran⟩
  | store memory next ih =>
    obtain ⟨steps, ran⟩ := ih ends
    exact ⟨steps + 1, ran⟩

end Sessions

namespace Transactions
open Sessions

variable {Store Memory Error α β : Type}

-- No state of the store makes it fail.
def Total (t : Transaction Store Error α) : Prop := ∀ store, ∃ a after, t store = .ok (a, after)

theorem total_pure (a : α) : Total (pure a : Transaction Store Error α) := fun store => ⟨a, store, rfl⟩

theorem total_get : Total (get : Transaction Store Error Store) := fun store => ⟨store, store, rfl⟩

theorem total_modify (change : Store → Store) : Total (modify change : Transaction Store Error Unit) :=
  fun store => ⟨(), change store, rfl⟩

theorem total_bind {t : Transaction Store Error α} {rest : α → Transaction Store Error β} (first : Total t)
    (second : ∀ a, Total (rest a)) : Total (t >>= rest) := by
  intro store
  obtain ⟨a, between, done⟩ := first store
  obtain ⟨b, after, ended⟩ := second a between
  exact ⟨b, after, bind_ok.mpr ⟨a, between, done, ended⟩⟩

theorem alone_commit {ready : Store → Bool} {close : Store → Store} {t : Transaction Store Error α} (total : Total t)
    {store : Store} (memory : Memory) (free : ready store = true) :
    ∃ a after, alone (commit ready close t : Session Store Memory Error α) store memory = some (.ok a, after, memory) := by
  obtain ⟨a, after, done⟩ := total store
  refine ⟨a, close after, ?_⟩
  simp [commit, alone, free, done, Except.map]

end Transactions
