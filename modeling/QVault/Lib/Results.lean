import Mathlib.Logic.Basic

/-!
# Computations that may raise

How a value of `Except` came about: `bind`, `map` and a list of computations are `ok` exactly when
each of their parts is.
-/

namespace Results

universe u v

variable {ε : Type u} {α β : Type v}

theorem bind_eq_ok {x : Except ε α} {f : α → Except ε β} {b : β} :
    (x >>= f) = .ok b ↔ ∃ a, x = .ok a ∧ f a = .ok b := by
  cases x with
  | error e => simp [bind, Except.bind]
  | ok a => simp [bind, Except.bind]

theorem bind_eq_error {x : Except ε α} {f : α → Except ε β} {e : ε} :
    (x >>= f) = .error e ↔ x = .error e ∨ ∃ a, x = .ok a ∧ f a = .error e := by
  cases x with
  | error e' => simp [bind, Except.bind]
  | ok a => simp [bind, Except.bind]

theorem map_eq_ok {x : Except ε α} {f : α → β} {b : β} :
    (x.map f) = .ok b ↔ ∃ a, x = .ok a ∧ f a = b := by
  cases x with
  | error e => simp [Except.map]
  | ok a => simp [Except.map]

theorem mapError_eq_ok {ε' : Type u} {x : Except ε α} {f : ε → ε'} {a : α} :
    x.mapError f = .ok a ↔ x = .ok a := by
  cases x with
  | error e => exact ⟨fun none => (by cases none), fun none => (by cases none)⟩
  | ok b => exact ⟨fun same => (by cases same; rfl), fun same => (by cases same; rfl)⟩

theorem pure_eq_ok {a b : α} : (pure a : Except ε α) = .ok b ↔ a = b := by
  simp [pure, Except.pure]

/-! ## Lists worked through item by item -/

theorem mapM_ok_mem {read : α → Except ε β} {items : List α} {results : List β}
    (done : items.mapM read = .ok results) {b : β} (there : b ∈ results) : ∃ a ∈ items, read a = .ok b := by
  induction items generalizing results with
  | nil =>
    cases done
    cases there
  | cons a rest ih =>
    simp only [List.mapM_cons, bind_eq_ok, pure_eq_ok] at done
    obtain ⟨first, readFirst, others, readOthers, rfl⟩ := done
    cases there with
    | head => exact ⟨a, List.mem_cons_self, readFirst⟩
    | tail _ later =>
      obtain ⟨a', listed, read'⟩ := ih readOthers later
      exact ⟨a', List.mem_cons_of_mem _ listed, read'⟩

theorem mapM_ok_of_mem {read : α → Except ε β} {items : List α} {results : List β}
    (done : items.mapM read = .ok results) {a : α} (listed : a ∈ items) : ∃ b ∈ results, read a = .ok b := by
  induction items generalizing results with
  | nil => cases listed
  | cons first rest ih =>
    simp only [List.mapM_cons, bind_eq_ok, pure_eq_ok] at done
    obtain ⟨b, readFirst, others, readOthers, rfl⟩ := done
    cases listed with
    | head => exact ⟨b, List.mem_cons_self, readFirst⟩
    | tail _ later =>
      obtain ⟨b', there, read'⟩ := ih readOthers later
      exact ⟨b', List.mem_cons_of_mem _ there, read'⟩

-- What each item's step keeps, the whole list keeps.
theorem foldlM_ok {σ : Type v} {step : σ → α → Except ε σ} (Invariant : σ → Prop) {items : List α}
    (kept : ∀ a ∈ items, ∀ s s', Invariant s → step s a = .ok s' → Invariant s') {start last : σ}
    (initial : Invariant start) (done : items.foldlM step start = .ok last) : Invariant last := by
  induction items generalizing start with
  | nil =>
    cases done
    exact initial
  | cons first rest ih =>
    rw [List.foldlM_cons] at done
    obtain ⟨between, one, others⟩ := bind_eq_ok.mp done
    refine ih (fun a listed => kept a (List.mem_cons_of_mem _ listed)) ?_ others
    exact kept first List.mem_cons_self start between initial one

end Results
