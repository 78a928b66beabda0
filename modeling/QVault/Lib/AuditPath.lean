import Mathlib.Data.List.Basic
import Mathlib.Logic.Function.Basic

/-!
# Audit paths

A node of a binary hash tree is recomputed from one of its descendants by climbing: at each level
the siblings of the path are consumed one by one, and what a level does with its sibling depends on
the side the sibling stands on. `climb` is that recomputation for any per-level step; the lemmas
take a climb apart at its last level, which is where a recursion from the root produces it.
-/

namespace AuditPath

inductive Side
  | left
  | right
  deriving DecidableEq, Repr

variable {D : Type*}

def Side.join (node : D → D → D) : Side → D → D → D
  | .left, c, sibling => node sibling c
  | .right, c, sibling => node c sibling

/-- The parent in the tree that ends where the node ends: nothing to the right belongs to it. -/
def Side.joinLeft (node : D → D → D) : Side → D → D → D
  | .left, c, sibling => node sibling c
  | .right, c, _ => c

/-- Climb one level for each side, consuming exactly one sibling at each. -/
def climb (step : Side → D → D → D) : List Side → D → List D → Option D
  | [], c, [] => some c
  | [], _, _ :: _ => none
  | _ :: _, _, [] => none
  | side :: sides, c, sibling :: siblings => climb step sides (step side c sibling) siblings

@[simp] theorem climb_nil_nil (step : Side → D → D → D) (c : D) : climb step [] c [] = some c := rfl

@[simp] theorem climb_nil_cons (step : Side → D → D → D) (c x : D) (xs : List D) :
    climb step [] c (x :: xs) = none := rfl

@[simp] theorem climb_cons_nil (step : Side → D → D → D) (side : Side) (sides : List Side) (c : D) :
    climb step (side :: sides) c [] = none := rfl

@[simp] theorem climb_cons_cons (step : Side → D → D → D) (side : Side) (sides : List Side)
    (c x : D) (xs : List D) :
    climb step (side :: sides) c (x :: xs) = climb step sides (step side c x) xs := rfl

theorem climb_nil_eq_some {step : Side → D → D → D} {c r : D} {siblings : List D} :
    climb step [] c siblings = some r ↔ siblings = [] ∧ c = r := by
  cases siblings <;> simp

theorem climb_length {step : Side → D → D → D} {sides : List Side} {c r : D} {siblings : List D}
    (h : climb step sides c siblings = some r) : siblings.length = sides.length := by
  induction sides generalizing c siblings with
  | nil => simp [(climb_nil_eq_some.mp h).1]
  | cons side sides ih =>
    cases siblings with
    | nil => simp at h
    | cons x xs => simpa using ih h

theorem climb_concat (step : Side → D → D → D) (sides : List Side) (side : Side) (c sibling : D)
    (siblings : List D) :
    climb step (sides ++ [side]) c (siblings ++ [sibling]) =
      (climb step sides c siblings).map (fun d => step side d sibling) := by
  induction sides generalizing c siblings with
  | nil =>
    cases siblings with
    | nil => rfl
    | cons x xs => cases xs <;> simp
  | cons first sides ih =>
    cases siblings with
    | nil => cases sides <;> simp
    | cons x xs => simpa using ih (step first c x) xs

theorem climb_concat_eq_some {step : Side → D → D → D} {sides : List Side} {side : Side} {c r : D}
    {siblings : List D} :
    climb step (sides ++ [side]) c siblings = some r ↔
      ∃ init last d, siblings = init ++ [last] ∧ climb step sides c init = some d ∧
        step side d last = r := by
  constructor
  · intro h
    have long := climb_length h
    obtain rfl | ⟨init, last, rfl⟩ := siblings.eq_nil_or_concat
    · simp at long
    · rw [List.concat_eq_append, climb_concat, Option.map_eq_some_iff] at h
      obtain ⟨d, below, reached⟩ := h
      exact ⟨init, last, d, by simp, below, reached⟩
  · rintro ⟨init, last, d, rfl, below, reached⟩
    rw [climb_concat, below, Option.map_some, reached]

theorem climb_right_iff {node : D → D → D} (inj : Function.Injective2 node) {sides : List Side}
    {c l r : D} {siblings : List D} :
    climb (Side.join node) (sides ++ [.right]) c siblings = some (node l r) ↔
      ∃ init, siblings = init ++ [r] ∧ climb (Side.join node) sides c init = some l := by
  rw [climb_concat_eq_some]
  constructor
  · rintro ⟨init, last, d, rfl, below, reached⟩
    obtain ⟨rfl, rfl⟩ := inj reached
    exact ⟨init, rfl, below⟩
  · rintro ⟨init, rfl, below⟩
    exact ⟨init, r, l, rfl, below, rfl⟩

theorem climb_left_iff {node : D → D → D} (inj : Function.Injective2 node) {sides : List Side}
    {c l r : D} {siblings : List D} :
    climb (Side.join node) (sides ++ [.left]) c siblings = some (node l r) ↔
      ∃ init, siblings = init ++ [l] ∧ climb (Side.join node) sides c init = some r := by
  rw [climb_concat_eq_some]
  constructor
  · rintro ⟨init, last, d, rfl, below, reached⟩
    obtain ⟨rfl, rfl⟩ := inj reached
    exact ⟨init, rfl, below⟩
  · rintro ⟨init, rfl, below⟩
    exact ⟨init, l, r, rfl, below, rfl⟩

end AuditPath
