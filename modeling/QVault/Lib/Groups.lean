import Mathlib.Data.List.Basic
import Mathlib.Tactic

/-!
# Groups that have a leader

Rows of a table fall into groups, and some rows lead. `Led` says that every group with a row in the
table has a leader there; a change of one group keeps it when that group keeps a leader or empties.
-/

namespace Groups

variable {ρ κ : Type*} (group : ρ → κ) (leads : ρ → Prop)

def HasLeader (rows : List ρ) (g : κ) : Prop := ∃ l ∈ rows, group l = g ∧ leads l

def Led (rows : List ρ) : Prop := ∀ r ∈ rows, HasLeader group leads rows (group r)

variable {group leads} {rows rows' : List ρ} {g : κ}

theorem led_nil : Led group leads [] := fun r none => (nomatch none)

-- Outside the group `g` the rows are the same.
theorem Led.touch (led : Led group leads rows) (same : ∀ r, group r ≠ g → (r ∈ rows' ↔ r ∈ rows))
    (here : ∀ r ∈ rows', group r = g → HasLeader group leads rows' g) : Led group leads rows' := by
  intro r listed
  by_cases touched : group r = g
  · rw [touched]
    exact here r listed touched
  · obtain ⟨l, among, sameGroup, leading⟩ := led r ((same r touched).mp listed)
    exact ⟨l, (same l (sameGroup ▸ touched)).mpr among, sameGroup, leading⟩

theorem Led.append_leader (led : Led group leads rows) {new : ρ} (leading : leads new) :
    Led group leads (rows ++ [new]) := by
  refine led.touch (g := group new) ?_ fun r _ _ => ⟨new, by simp, rfl, leading⟩
  intro r other
  have different : r ≠ new := fun same => other (congrArg group same)
  simp [different]

theorem HasLeader.append (led : HasLeader group leads rows g) (more : List ρ) :
    HasLeader group leads (rows ++ more) g := by
  obtain ⟨l, among, here, leading⟩ := led
  exact ⟨l, List.mem_append_left _ among, here, leading⟩

-- A row may join a group that has a leader.
theorem Led.append_follower (led : Led group leads rows) {new : ρ} (leader : HasLeader group leads rows (group new)) :
    Led group leads (rows ++ [new]) := by
  refine led.touch (g := group new) ?_ fun r _ _ => leader.append [new]
  intro r other
  have different : r ≠ new := fun same => other (congrArg group same)
  simp [different]

end Groups
