import QVault.Lib.Programs

/-!
# Binary search between a place that fails and one that passes

`bisect` narrows `low` and `high` until they are neighbours. All it asks about lies strictly between them, and
where it ends passes while the place before fails.
-/

namespace Bisection
open Programs

def bisect {m : Type → Type} [Monad m] (passes : Int → m Bool) (low high : Int) : m Int :=
  if 1 < high - low then do
    if ← passes ((low + high) / 2) then bisect passes low ((low + high) / 2)
    else bisect passes ((low + high) / 2) high
  else return high
termination_by (high - low).toNat

variable {Query : Type} {Answer : Query → Type} {Memory Error World : Type} {around : Surroundings Query Answer World}

-- A question rightly answered, at whatever moment it is asked
def Tells (around : Surroundings Query Answer World) (question : Program Query Answer Memory Error Bool) (truth : Prop)
    (world : World) : Prop :=
  ∀ now memory, around.later world now →
    Safe around (fun after _ result => around.later now after ∧ ∃ told, result = .ok told ∧ (told = true ↔ truth)) question now memory

-- The invariant is that `low` fails and `high` passes, and that only what lies between is asked about.
theorem safe_bisect {passes : Int → Program Query Answer Memory Error Bool} (above : Int → Prop) {world : World} {memory : Memory}
    {low high : Int} (refl : ∀ world, around.later world world)
    (trans : ∀ {first second third}, around.later first second → around.later second third → around.later first third)
    (tells : ∀ middle, low < middle → middle < high → Tells around (passes middle) (above middle) world)
    (apart : low < high) (fails : ¬ above low) (holds : above high) :
    Safe around (fun after _ result => around.later world after ∧ ∃ found, result = .ok found ∧ low < found ∧ found ≤ high ∧
      ¬ above (found - 1) ∧ above found) (bisect passes low high) world memory := by
  induction low, high using bisect.induct generalizing world memory with
  | case1 low high wide ih_low ih_high =>
    have lower : low < (low + high) / 2 := by omega
    have under : (low + high) / 2 < high := by omega
    rw [bisect, if_pos wide]
    have asked : Safe around (fun after _ result => around.later world after ∧
        ∃ told, result = .ok told ∧ (told = true ↔ above ((low + high) / 2))) (passes ((low + high) / 2)) world memory :=
      safe_mono (fun _ _ _ told => told) (tells _ lower under world memory (refl _))
    refine safe_bind asked ?_ ?_
    · rintro after memory told ⟨since, _, same, right⟩
      cases Except.ok.inj same
      have tells' : ∀ middle, low < middle → middle < high → Tells around (passes middle) (above middle) after :=
        fun middle low' high' now memory more => tells middle low' high' now memory (trans since more)
      cases told with
      | true =>
        refine safe_mono ?_ (ih_low (fun middle low' high' => tells' middle low' (by omega)) lower fails (right.mp rfl))
        rintro later _ _ ⟨more, found, done, low', high', before, here⟩
        exact ⟨trans since more, found, done, low', by omega, before, here⟩
      | false =>
        refine safe_mono ?_ (ih_high (fun middle low' high' => tells' middle (by omega) high') under
          (fun here => Bool.false_ne_true (right.mpr here)) holds)
        rintro later _ _ ⟨more, found, done, low', high', before, here⟩
        exact ⟨trans since more, found, done, by omega, high', before, here⟩
    · rintro _ _ _ ⟨-, _, wrong, -⟩
      cases wrong
  | case2 low high narrow =>
    have neighbours : high - 1 = low := by omega
    rw [bisect, if_neg narrow]
    exact ⟨refl _, high, rfl, apart, Int.le_refl _, neighbours ▸ fails, holds⟩

end Bisection
