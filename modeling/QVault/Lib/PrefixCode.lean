import Mathlib.Data.List.Basic
import Mathlib.Tactic

/-!
# Codes that are read from the front

When the first word of a text determines where it ends: runs of one class of symbols, words of a
prefix-free code, and lists of words between separators.
-/

namespace PrefixCode

variable {α β γ : Type*}

-- No code word starts another one, and none is empty.
structure PrefixFree (code : α → List β) : Prop where
  cut : ∀ {a b : α} {r s : List β}, code a ++ r = code b ++ s → a = b ∧ r = s
  nonempty : ∀ a, code a ≠ []

theorem PrefixFree.flatMap_injective {code : α → List β} (free : PrefixFree code) :
    Function.Injective fun word : List α => word.flatMap code := by
  intro xs
  induction xs with
  | nil =>
    intro ys same
    cases ys with
    | nil => rfl
    | cons y ys => exact absurd (List.append_eq_nil_iff.mp same.symm).1 (free.nonempty y)
  | cons x xs ih =>
    intro ys same
    cases ys with
    | nil => exact absurd (List.append_eq_nil_iff.mp same).1 (free.nonempty x)
    | cons y ys =>
      obtain ⟨head, tail⟩ := free.cut same
      rw [head, ih tail]

-- Words up to a symbol that starts none of them
theorem flatMap_cut {code : α → List β} {stop : β}
    (cut : ∀ {a b : α} {r s : List β}, code a ++ r = code b ++ s → a = b ∧ r = s)
    (starts : ∀ a, ∃ c ∈ (code a).head?, c ≠ stop) {xs ys : List α} {r s : List β}
    (same : xs.flatMap code ++ stop :: r = ys.flatMap code ++ stop :: s) : xs = ys ∧ r = s := by
  have other : ∀ {a : α} {r after : List β}, stop :: r ≠ code a ++ after := by
    intro a r after same
    obtain ⟨c, head, different⟩ := starts a
    cases word : code a with
    | nil => simp [word] at head
    | cons d rest =>
      rw [word] at same head
      simp only [List.head?_cons, Option.mem_some_iff] at head
      exact different (head ▸ (List.cons.inj same).1.symm)
  induction xs generalizing ys with
  | nil =>
    cases ys with
    | nil => exact ⟨rfl, (List.cons.inj same).2⟩
    | cons y ys =>
      rw [List.flatMap_nil, List.nil_append, List.flatMap_cons, List.append_assoc] at same
      exact absurd same other
  | cons x xs ih =>
    cases ys with
    | nil =>
      rw [List.flatMap_nil, List.nil_append, List.flatMap_cons, List.append_assoc] at same
      exact absurd same.symm other
    | cons y ys =>
      rw [List.flatMap_cons, List.flatMap_cons, List.append_assoc, List.append_assoc] at same
      obtain ⟨head, tail⟩ := cut same
      obtain ⟨later, rest⟩ := ih tail
      exact ⟨by rw [head, later], rest⟩

-- A run of symbols of one class ends where the class does.
theorem run_cut {p : β → Bool} {a b r s : List β} (first : ∀ x ∈ a, p x = true) (second : ∀ x ∈ b, p x = true)
    (stopped : ∀ x ∈ r.head?, p x = false) (stopped' : ∀ x ∈ s.head?, p x = false) (same : a ++ r = b ++ s) :
    a = b ∧ r = s := by
  have run : ∀ {word rest : List β}, (∀ x ∈ word, p x = true) → (∀ x ∈ rest.head?, p x = false) →
      (word ++ rest).takeWhile p = word := by
    intro word rest inside after
    rw [List.takeWhile_append_of_pos inside]
    cases rest with
    | nil => simp
    | cons c rest => simp [after c rfl]
  have word : a = b := by rw [← run first stopped, same, run second stopped']
  exact ⟨word, List.append_cancel_left (word ▸ same)⟩

section Values
variable (ends : List β → Prop) (valid : α → Prop) (code : α → List β) (value : α → γ)

-- Before a rest that `ends` it, the word for `a` is the word for something of the same value.
def Cuts (a : α) : Prop :=
  ∀ ⦃b : α⦄ ⦃r s : List β⦄, valid b → ends r → ends s → code a ++ r = code b ++ s → value a = value b ∧ r = s

variable {ends valid code value}

theorem intercalate_cons (sep close : β) (code : α → List β) (x : α) (xs : List α) (r : List β) :
    ∃ after, [sep].intercalate ((x :: xs).map code) ++ close :: r = code x ++ after ∧
      ((xs = [] ∧ after = close :: r) ∨ (xs ≠ [] ∧ after = sep :: ([sep].intercalate (xs.map code) ++ close :: r))) := by
  cases xs with
  | nil => exact ⟨close :: r, by simp [List.intercalate], .inl ⟨rfl, rfl⟩⟩
  | cons x' xs => exact ⟨_, by simp [List.intercalate], .inr ⟨by simp, rfl⟩⟩

-- Separated words up to a closing symbol, no word starting with that symbol
theorem intercalate_cut {sep close : β} (distinct : sep ≠ close) (separates : ∀ r, ends (sep :: r))
    (closes : ∀ r, ends (close :: r)) (starts : ∀ b, valid b → ∃ c ∈ (code b).head?, c ≠ close) :
    ∀ {xs ys : List α} {r s : List β}, (∀ x ∈ xs, valid x ∧ Cuts ends valid code value x) → (∀ y ∈ ys, valid y) →
      [sep].intercalate (xs.map code) ++ close :: r = [sep].intercalate (ys.map code) ++ close :: s →
      xs.map value = ys.map value ∧ r = s := by
  have opened : ∀ {b : α} {r after : List β}, valid b → close :: r ≠ code b ++ after := by
    intro b r after isValid same
    obtain ⟨c, head, other⟩ := starts b isValid
    cases word : code b with
    | nil => simp [word] at head
    | cons d rest =>
      rw [word] at same head
      simp only [List.head?_cons, Option.mem_some_iff] at head
      exact other (head ▸ (List.cons.inj same).1.symm)
  intro xs
  induction xs with
  | nil =>
    intro ys r s _ valids same
    cases ys with
    | nil => exact ⟨rfl, (List.cons.inj same).2⟩
    | cons y ys =>
      obtain ⟨after, cut, _⟩ := intercalate_cons sep close code y ys s
      rw [cut] at same
      exact absurd same (opened (valids y List.mem_cons_self))
  | cons x xs ih =>
    intro ys r s cuts valids same
    obtain ⟨after, cut, rest⟩ := intercalate_cons sep close code x xs r
    cases ys with
    | nil =>
      rw [cut] at same
      exact absurd same.symm (opened (cuts x List.mem_cons_self).1)
    | cons y ys =>
      obtain ⟨after', cut', rest'⟩ := intercalate_cons sep close code y ys s
      rw [cut, cut'] at same
      have ending : ends after := by
        rcases rest with ⟨_, rfl⟩ | ⟨_, rfl⟩
        · exact closes _
        · exact separates _
      have ending' : ends after' := by
        rcases rest' with ⟨_, rfl⟩ | ⟨_, rfl⟩
        · exact closes _
        · exact separates _
      obtain ⟨head, tail⟩ := (cuts x List.mem_cons_self).2 (valids y List.mem_cons_self) ending ending' same
      rcases rest with ⟨rfl, rfl⟩ | ⟨more, rfl⟩ <;> rcases rest' with ⟨rfl, rfl⟩ | ⟨more', rfl⟩
      · exact ⟨by simp [head], (List.cons.inj tail).2⟩
      · exact absurd (List.cons.inj tail).1.symm distinct
      · exact absurd (List.cons.inj tail).1 distinct
      · obtain ⟨values, rests⟩ := ih (fun x listed => cuts x (List.mem_cons_of_mem _ listed))
          (fun y listed => valids y (List.mem_cons_of_mem _ listed)) (List.cons.inj tail).2
        exact ⟨by simp [head, values], rests⟩

end Values

end PrefixCode
