import QVault.Chain.Treasury
import Mathlib.Tactic

/-!
# Words in ABI form

A word can be read back from its 32 bytes, so the fields of an approval can be read back from what
is hashed.
-/

namespace QVault.Proof.Chain
open QVault.Chain QVault.Python

theorem foldl_word (bytes : Bytes) (start : Nat) :
    bytes.foldl (fun n b => 256 * n + b.toNat) start = start * 256 ^ bytes.length + wordOf bytes := by
  unfold wordOf
  induction bytes generalizing start with
  | nil => simp
  | cons b rest ih =>
    simp only [List.foldl_cons, List.length_cons, pow_succ]
    rw [ih, ih (256 * 0 + b.toNat)]
    ring

theorem wordOf_cons (b : UInt8) (rest : Bytes) : wordOf (b :: rest) = b.toNat * 256 ^ rest.length + wordOf rest := by
  rw [wordOf, List.foldl_cons, foldl_word]
  simp

theorem wordOf_digits (value n : Nat) :
    wordOf ((List.range n).reverse.map fun i => UInt8.ofNat (value / 256 ^ i)) = value % 256 ^ n := by
  induction n with
  | zero => simp [wordOf, Nat.mod_one]
  | succ n ih =>
    rw [List.range_succ, List.reverse_append, List.reverse_singleton, List.singleton_append, List.map_cons,
      wordOf_cons, ih, Nat.mod_pow_succ]
    simp only [UInt8.toNat_ofNat', List.length_map, List.length_reverse, List.length_range]
    ring

theorem abiWord_length (value : Word) : (abiWord value).length = 32 := by
  simp [abiWord]

theorem abiWord_injective : Function.Injective abiWord := by
  intro a b same
  have read : ∀ value : Word, wordOf (abiWord value) = value.toNat := by
    intro value
    rw [abiWord, wordOf_digits]
    exact Nat.mod_eq_of_lt value.isLt
  apply BitVec.eq_of_toNat_eq
  rw [← read a, ← read b, same]

theorem flatMap_abiWord_injective {xs ys : List Word} (same : xs.flatMap abiWord = ys.flatMap abiWord) :
    xs = ys := by
  induction xs generalizing ys with
  | nil =>
    cases ys with
    | nil => rfl
    | cons y rest =>
      have lengths := congrArg List.length same
      simp only [List.flatMap_nil, List.flatMap_cons, List.length_nil, List.length_append, abiWord_length] at lengths
      omega
  | cons x xs ih =>
    cases ys with
    | nil =>
      have lengths := congrArg List.length same
      simp only [List.flatMap_nil, List.flatMap_cons, List.length_nil, List.length_append, abiWord_length] at lengths
      omega
    | cons y ys =>
      rw [List.flatMap_cons, List.flatMap_cons] at same
      obtain ⟨heads, tails⟩ := List.append_inj same (by rw [abiWord_length, abiWord_length])
      rw [abiWord_injective heads, ih tails]

theorem executionMessage_nonce {S : Type} {env : Deployment S} {n m : Word} {a b : ExecuteArgs}
    (same : executionMessage env n a = executionMessage env m b) : n = m ∧ a.proposalId = b.proposalId := by
  have fields := flatMap_abiWord_injective same
  simp only [List.cons.injEq, true_and] at fields
  exact ⟨fields.1, fields.2.1⟩

end QVault.Proof.Chain
