import Mathlib.Data.List.Basic
import Mathlib.Tactic.Common

/-!
# Excerpts of a list

A pattern is tried at each position from left to right, and the search resumes where its last match
ended. The matches stand apart and in order, so a list can be cut at them and put together again.
-/

namespace Excerpts

variable {α β : Type*}

structure Hit (β : Type*) where
  start : Nat
  length : Nat
  value : β

/-! ## The search -/

/-- What a pattern takes at the front of a list, after the item that stands before it: how many items, less one. -/
abbrev Pattern (α β : Type*) := Option α → List α → Option (Nat × β)

variable (pattern : Pattern α β)

-- `skip` items are left of the match found last.
def search : (skip : Nat) → (before : Option α) → (position : Nat) → List α → List (Hit β)
  | _, _, _, [] => []
  | skip + 1, _, position, a :: rest => search skip (some a) (position + 1) rest
  | 0, before, position, a :: rest =>
    match pattern before (a :: rest) with
    | some (more, value) => ⟨position, more + 1, value⟩ :: search more (some a) (position + 1) rest
    | none => search 0 (some a) (position + 1) rest

def hits (text : List α) : List (Hit β) := search pattern 0 none 0 text

-- The item before what follows `done`
def lastOf (before : Option α) (done : List α) : Option α := done.getLast?.or before

variable {pattern}

theorem lastOf_cons (before : Option α) (a : α) (done : List α) :
    lastOf before (a :: done) = lastOf (some a) done := by
  cases done with
  | nil => rfl
  | cons b more => simp [lastOf, List.getLast?_cons_cons, List.getLast?_cons]

/-- A hit is a place where the pattern matches. -/
theorem search_sound {text : List α} {skip position : Nat} {before : Option α} {hit : Hit β}
    (found : hit ∈ search pattern skip before position text) :
    ∃ done rest more, text = done ++ rest ∧ hit.start = position + done.length ∧ hit.length = more + 1 ∧
      pattern (lastOf before done) rest = some (more, hit.value) := by
  induction text generalizing skip position before with
  | nil => cases skip <;> cases found
  | cons a rest ih =>
    have later {skip' : Nat} (found : hit ∈ search pattern skip' (some a) (position + 1) rest) :
        ∃ done rest' more, a :: rest = done ++ rest' ∧ hit.start = position + done.length ∧ hit.length = more + 1 ∧
          pattern (lastOf before done) rest' = some (more, hit.value) := by
      obtain ⟨done, rest', more, split, start, length, matched⟩ := ih found
      refine ⟨a :: done, rest', more, ?_, ?_, length, ?_⟩
      · rw [split, List.cons_append]
      · rw [start, List.length_cons]
        omega
      · rwa [lastOf_cons]
    cases skip with
    | succ skip => exact later found
    | zero =>
      unfold search at found
      split at found
      · rename_i more value matched
        rcases List.mem_cons.mp found with rfl | found
        · exact ⟨[], a :: rest, more, rfl, rfl, rfl, matched⟩
        · exact later found
      · exact later found

/-- A pattern that starts at one mark, and whose matches hold no other, is found at every mark it matches. -/
theorem search_complete {mark : α} (single : ∀ before a rest more value, pattern before (a :: rest) = some (more, value) →
      a = mark ∧ mark ∉ rest.take more)
    {done rest : List α} {skip position more : Nat} {before : Option α} {value : β}
    (outside : mark ∉ (done ++ mark :: rest).take skip)
    (matched : pattern (lastOf before done) (mark :: rest) = some (more, value)) :
    ⟨position + done.length, more + 1, value⟩ ∈ search pattern skip before position (done ++ mark :: rest) := by
  induction done generalizing skip position before with
  | nil =>
    cases skip with
    | succ skip => simp at outside
    | zero =>
      change pattern before (mark :: rest) = some (more, value) at matched
      rw [List.nil_append, search, matched]
      exact List.mem_cons_self
  | cons a done ih =>
    rw [lastOf_cons] at matched
    have shift : position + (a :: done).length = position + 1 + done.length := by
      rw [List.length_cons]
      omega
    rw [shift, List.cons_append]
    cases skip with
    | succ skip =>
      rw [search]
      refine ih ?_ matched
      simp only [List.cons_append, List.take_succ_cons, List.mem_cons, not_or] at outside
      exact outside.2
    | zero =>
      rw [search]
      split
      · rename_i more' value' first
        exact List.mem_cons_of_mem _ (ih (single _ _ _ _ _ first).2 matched)
      · exact ih (by simp) matched

/-- The hits from `position` on, each after the one before it and inside a list that ends at `stop`. -/
inductive Apart (stop : Nat) : Nat → List (Hit β) → Prop
  | nil {position : Nat} (inside : position ≤ stop) : Apart stop position []
  | cons {position : Nat} {hit : Hit β} {rest : List (Hit β)} (after : position ≤ hit.start)
    (later : Apart stop (hit.start + hit.length) rest) : Apart stop position (hit :: rest)

theorem Apart.inside {stop position : Nat} {marks : List (Hit β)} (apart : Apart stop position marks) : position ≤ stop := by
  induction apart with
  | nil inside => exact inside
  | cons after _ ih => omega

theorem Apart.earlier {stop position position' : Nat} {marks : List (Hit β)} (apart : Apart stop position marks)
    (before : position' ≤ position) : Apart stop position' marks := by
  cases apart with
  | nil inside => exact .nil (Nat.le_trans before inside)
  | cons after later => exact .cons (Nat.le_trans before after) later

-- Hits may be left out or shortened.
theorem Apart.filterMap {γ : Type*} {stop position : Nat} {marks : List (Hit β)} {f : Hit β → Option (Hit γ)}
    (apart : Apart stop position marks)
    (within : ∀ hit ∈ marks, ∀ kept, f hit = some kept → kept.start = hit.start ∧ kept.length ≤ hit.length) :
    Apart stop position (marks.filterMap f) := by
  induction apart with
  | nil inside => exact .nil inside
  | @cons position hit rest after later ih =>
    have rest' := ih fun hit listed => within hit (List.mem_cons_of_mem _ listed)
    rw [List.filterMap_cons]
    split
    · exact rest'.earlier (by omega)
    · rename_i kept chosen
      obtain ⟨start, length⟩ := within hit List.mem_cons_self kept chosen
      exact .cons (by omega) (rest'.earlier (by omega))

theorem search_apart (fits : ∀ before text more value, pattern before text = some (more, value) → more < text.length)
    (text : List α) {skip position : Nat} {before : Option α} (left : skip ≤ text.length) :
    Apart (position + text.length) (position + skip) (search pattern skip before position text) := by
  induction text generalizing skip position before with
  | nil =>
    have none : search pattern skip before position [] = [] := by cases skip <;> rfl
    rw [none]
    exact .nil (by omega)
  | cons a rest ih =>
    have shift : position + (a :: rest).length = position + 1 + rest.length := by
      rw [List.length_cons]
      omega
    rw [List.length_cons] at left
    rw [shift]
    cases skip with
    | succ skip => exact (ih (by omega)).earlier (by omega)
    | zero =>
      rw [search]
      split
      · rename_i more value first
        have short := fits _ _ _ _ first
        rw [List.length_cons] at short
        refine .cons (Nat.le_refl _) ?_
        exact (ih (by omega)).earlier (by simp only; omega)
      · exact (ih (by omega)).earlier (by omega)

theorem hits_apart (fits : ∀ before text more value, pattern before text = some (more, value) → more < text.length)
    (text : List α) : Apart text.length 0 (hits pattern text) := by
  have apart : Apart (0 + text.length) (0 + 0) (hits pattern text) := search_apart fits text (Nat.zero_le _)
  rwa [Nat.zero_add, Nat.zero_add] at apart

/-! ## A list cut at its hits -/

def slice (text : List α) (start stop : Nat) : List α := (text.drop start).take (stop - start)

theorem slice_drop (text : List α) {start stop : Nat} (order : start ≤ stop) :
    slice text start stop ++ text.drop stop = text.drop start := by
  have rest : text.drop stop = (text.drop start).drop (stop - start) := by
    rw [List.drop_drop, Nat.add_sub_cancel' order]
  rw [slice, rest, List.take_append_drop]

/-- What stands between the hits, and each hit with its value. -/
def cut (text : List α) : Nat → List (Hit β) → List (List α × Option β)
  | last, [] => if last < text.length then [(text.drop last, none)] else []
  | last, hit :: rest =>
    (if last < hit.start then [(slice text last hit.start, none)] else []) ++
      (slice text hit.start (hit.start + hit.length), some hit.value) :: cut text (hit.start + hit.length) rest

theorem cut_joins {text : List α} {last : Nat} {marks : List (Hit β)} (apart : Apart text.length last marks) :
    (cut text last marks).flatMap Prod.fst = text.drop last := by
  induction apart with
  | nil inside =>
    rw [cut]
    split
    · simp
    · rw [List.drop_eq_nil_of_le (by omega)]
      rfl
  | @cons last hit rest after later ih =>
    have gap : (if last < hit.start then [(slice text last hit.start, (none : Option β))] else []).flatMap Prod.fst =
        slice text last hit.start := by
      split
      · simp
      · have same : hit.start = last := by omega
        simp [slice, same]
    rw [cut, List.flatMap_append, gap, List.flatMap_cons, ih, slice_drop text (Nat.le_add_right ..), slice_drop text after]

theorem cut_marked (text : List α) (last : Nat) (marks : List (Hit β)) :
    (cut text last marks).filterMap (fun piece => piece.2.map (piece.1, ·)) =
      marks.map fun hit => (slice text hit.start (hit.start + hit.length), hit.value) := by
  induction marks generalizing last with
  | nil =>
    rw [cut]
    split <;> simp
  | cons hit rest ih =>
    rw [cut, List.filterMap_append, List.filterMap_cons, List.map_cons]
    simp only [Option.map_some, ih]
    split <;> simp

end Excerpts
