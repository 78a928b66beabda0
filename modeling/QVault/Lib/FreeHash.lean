import Mathlib.Logic.Function.Basic
import Mathlib.Data.List.Basic
import Mathlib.Tactic

/-!
# Hashes without collisions

`FreeHash` is the free digest type, whose interior nodes are their two children. `pairBytes` does
the same on byte strings by marking each byte of the left half, and `pairBytesNaming` gives the
digest of one pair a name.
-/

inductive FreeHash (A : Type*)
  | data (value : A)
  | node (left right : FreeHash A)
  deriving DecidableEq, Repr

namespace FreeHash

theorem node_injective (A : Type*) : Function.Injective2 (FreeHash.node (A := A)) := by
  intro left left' right right' same
  exact FreeHash.node.inj same

def pairBytes (left right : List UInt8) : List UInt8 := left.flatMap (fun b => [1, b]) ++ 0 :: right

theorem pairBytes_injective : Function.Injective2 pairBytes := by
  intro left left' right right' same
  induction left generalizing left' with
  | nil =>
    cases left' with
    | nil => simpa [pairBytes] using same
    | cons b rest => simp [pairBytes] at same
  | cons a rest ih =>
    cases left' with
    | nil => simp [pairBytes] at same
    | cons b rest' =>
      simp only [pairBytes, List.flatMap_cons, List.cons_append, List.nil_append, List.cons.injEq,
        true_and] at same
      obtain ⟨rfl, rfl⟩ := ih same.2
      exact ⟨by rw [same.1], rfl⟩

def pairBytesNaming (left right digest : List UInt8) (l r : List UInt8) : List UInt8 :=
  if l = left ∧ r = right then digest else pairBytes l r

theorem pairBytes_head (left right : List UInt8) : (pairBytes left right).head? ≠ some 2 := by
  cases left <;> simp [pairBytes]

theorem pairBytesNaming_injective {left right digest : List UInt8} (fresh : digest.head? = some 2) :
    Function.Injective2 (pairBytesNaming left right digest) := by
  intro l l' r r' same
  unfold pairBytesNaming at same
  split_ifs at same with first second second
  · exact ⟨first.1.trans second.1.symm, first.2.trans second.2.symm⟩
  · rw [same] at fresh
    exact absurd fresh (pairBytes_head l' r')
  · rw [← same] at fresh
    exact absurd fresh (pairBytes_head l r)
  · exact pairBytes_injective same

end FreeHash
