import QVault.Verify.Checked
import QVault.Lib.Results
import Mathlib.Tactic

/-!
# What an accepted verification has done

A report is `ok` only if the verification ran to its end and no check it wrote failed.
-/

namespace QVault.Proof.Verify
open QVault.Verify QVault.Python Results

variable {α β : Type}

def Passes (run : Checked α) (a : α) : Prop :=
  run.result = .ok a ∧ ∀ c ∈ run.checks, c.skipped = false → c.ok = true

@[simp] theorem passes_pure {a b : α} : Passes (pure a) b ↔ a = b := by
  simp [Passes, pure]

@[simp] theorem passes_step {result : Except Stop α} {a : α} : Passes (step result) a ↔ result = .ok a := by
  simp [Passes, step]

@[simp] theorem passes_add {key : CheckKey} {ok : Bool} {u : Unit} : Passes (add key ok) u ↔ ok = true := by
  simp [Passes, add]

@[simp] theorem passes_skip {key : CheckKey} {u : Unit} : Passes (skip key) u := by
  simp [Passes, skip]

theorem passes_bind {run : Checked α} {f : α → Checked β} {b : β} :
    Passes (run >>= f) b ↔ ∃ a, Passes run a ∧ Passes (f a) b := by
  simp only [Passes, bind]
  cases done : run.result with
  | error stop => simp
  | ok a =>
    simp only [List.mem_append, Except.ok.injEq]
    constructor
    · rintro ⟨ended, held⟩
      exact ⟨a, ⟨rfl, fun c early => held c (.inl early)⟩, ended, fun c late => held c (.inr late)⟩
    · rintro ⟨_, ⟨rfl, before⟩, ended, after⟩
      exact ⟨ended, fun c there => there.elim (before c) (after c)⟩

theorem stopCheck_fails (stop : Stop) : (stopCheck stop).skipped = false ∧ (stopCheck stop).ok = false := by
  cases stop <;> exact ⟨rfl, rfl⟩

theorem report_ok {run : Checked α} (accepted : (report run).ok = true) : ∃ a, Passes run a := by
  unfold report at accepted
  simp only [graded, Bool.and_eq_true, List.all_eq_true, List.mem_filter, Bool.not_eq_true'] at accepted
  obtain ⟨-, held⟩ := accepted
  cases done : run.result with
  | error stop =>
    simp only [done] at held
    have failed := held (stopCheck stop) ⟨by simp, (stopCheck_fails stop).1⟩
    rw [(stopCheck_fails stop).2] at failed
    cases failed
  | ok a =>
    simp only [done] at held
    exact ⟨a, done, fun c there counted => held c ⟨there, counted⟩⟩

theorem raising_eq_ok {x : Except PyError α} {a : α} : raising x = .ok a ↔ x = .ok a := mapError_eq_ok

/-! ## Readers -/

theorem need_eq_ok {value : Json} {key : Text} {found : Json} :
    need value key = .ok found ↔ ∃ fields, value = .dict fields ∧ Json.lookup key fields = some found := by
  cases value with
  | dict fields =>
    cases present : Json.lookup key fields <;> simp [need, present]
  | _ => simp [need]

theorem get_of_lookup {fields : List (Text × Json)} {key : Text} {found : Json}
    (present : Json.lookup key fields = some found) : Json.get fields key = found := by
  simp [Json.get, present]

theorem asList_eq_ok {value : Json} {items : List Json} : asList value = .ok items ↔ value = .list items := by
  cases value <;> simp [asList]

theorem asDict_eq_ok {value : Json} {fields : List (Text × Json)} :
    asDict value = .ok fields ↔ value = .dict fields := by
  cases value <;> simp [asDict]

theorem getAttr_eq_ok {value : Json} {key : Text} {found : Json} :
    getAttr value key = .ok found ↔ ∃ fields, value = .dict fields ∧ Json.get fields key = found := by
  cases value <;> simp [getAttr]

theorem eq_str {value : Json} {s : Text} : value.eq (.str s) = true ↔ value = .str s := by
  cases value <;> simp [Json.eq, Json.numberEq, Json.number?]

theorem str_eq {value : Json} {s : Text} : (Json.str s).eq value = true ↔ value = .str s := by
  cases value with
  | str t => simpa [Json.eq] using eq_comm
  | _ => simp [Json.eq]

end QVault.Proof.Verify
