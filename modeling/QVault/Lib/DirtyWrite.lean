import Mathlib.Logic.Basic

/-!
# Writing back what changed

A record is loaded, changed in memory and written back: a column is written only where it differs from what was
loaded, so what others have stored in the other columns meanwhile stays.
-/

namespace DirtyWrite

variable {α : Type*} [DecidableEq α]

def patch (loaded changed stored : α) : α := if changed = loaded then stored else changed

variable {loaded changed stored : α}

@[simp] theorem patch_unchanged (loaded stored : α) : patch loaded loaded stored = stored := if_pos rfl

theorem patch_changed (differs : changed ≠ loaded) : patch loaded changed stored = changed := if_neg differs

-- Nobody has written the column since.
@[simp] theorem patch_loaded (loaded changed : α) : patch loaded changed loaded = changed := by
  unfold patch
  split
  · exact (by assumption : changed = loaded).symm
  · rfl

theorem patch_cases (loaded changed stored : α) :
    patch loaded changed stored = stored ∨ patch loaded changed stored = changed := by
  unfold patch
  split
  · exact .inl rfl
  · exact .inr rfl

-- Written over by the same value, or kept
theorem patch_of_stored (settled : stored = changed) : patch loaded changed stored = changed := by
  rcases patch_cases loaded changed stored with kept | written
  · exact kept.trans settled
  · exact written

end DirtyWrite
