import Mathlib.Data.List.Perm.Basic
import Mathlib.Logic.Function.Basic

/-!
# Write-once maps

A value is set where there is none and is never replaced.
-/

namespace WriteOnce

variable {κ ν : Type} [DecidableEq κ]

def offer (m : κ → Option ν) (k : κ) (v : ν) : κ → Option ν :=
  if (m k).isSome then m else Function.update m k (some v)

variable {m : κ → Option ν} {k k' : κ} {v v' : ν}

theorem offer_keeps {old : ν} (found : m k' = some old) : offer m k v k' = some old := by
  rw [offer]
  split
  · exact found
  · rename_i free
    obtain rfl | other := eq_or_ne k' k
    · exact absurd (by rw [found, Option.isSome_some]) free
    · rw [Function.update_of_ne other, found]

theorem offer_free (free : m k = none) : offer m k v = Function.update m k (some v) := by
  rw [offer, free, Option.isSome_none, if_neg Bool.false_ne_true]

theorem offer_new (free : m k = none) : offer m k v k = some v := by
  rw [offer_free free, Function.update_self]

theorem offer_known (known : (m k).isSome) : offer m k v = m := by
  rw [offer, if_pos known]

theorem offer_other (other : k' ≠ k) : offer m k v k' = m k' := by
  rw [offer]
  split
  · rfl
  · rw [Function.update_of_ne other]

-- Two offers that do not contradict each other can be made in either order.
theorem offer_comm (compatible : k = k' → v = v') : offer (offer m k v) k' v' = offer (offer m k' v') k v := by
  obtain rfl | different := eq_or_ne k k'
  · rw [compatible rfl]
  · cases first : m k with
    | some old =>
      have still : offer m k' v' k = some old := offer_keeps first
      rw [offer_known (m := m) (k := k) (by rw [first, Option.isSome_some]), offer_known (k := k) (by rw [still, Option.isSome_some])]
    | none =>
      cases second : m k' with
      | some old =>
        have still : offer m k v k' = some old := offer_keeps second
        rw [offer_known (m := m) (k := k') (by rw [second, Option.isSome_some]), offer_known (k := k') (by rw [still, Option.isSome_some])]
      | none =>
        have free : offer m k' v' k = none := by rw [offer_other different, first]
        have free' : offer m k v k' = none := by rw [offer_other different.symm, second]
        rw [offer_free free', offer_free first, offer_free free, offer_free second, Function.update_comm different.symm]

end WriteOnce
