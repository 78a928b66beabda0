import Mathlib.Logic.Function.Basic
import Mathlib.Data.List.Pairwise
import Mathlib.Tactic.SplitIfs

/-!
# An ideal authenticated cipher

What was sealed is kept in a log, and a ciphertext opens only where the log says it was sealed: under the same
key, nonce and associated data. A key or a nonce of a wrong form is an error of its own.
-/

namespace IdealAead

structure Scheme (Key Nonce Aad Plaintext Ciphertext : Type*) where
  encrypt : Key → Nonce → Aad → Plaintext → Ciphertext
  encrypt_injective : ∀ key nonce aad, Function.Injective (encrypt key nonce aad)
  keyOk : Key → Bool
  nonceOk : Nonce → Bool

structure Sealing (Key Nonce Aad Plaintext : Type*) where
  key : Key
  nonce : Nonce
  aad : Aad
  plaintext : Plaintext

inductive Fault
  | key | nonce | tag
  deriving DecidableEq

variable {Key Nonce Aad Plaintext Ciphertext : Type*}

section Reveal
variable [DecidableEq Key] [DecidableEq Nonce] [DecidableEq Aad] [DecidableEq Ciphertext]

def reveal (scheme : Scheme Key Nonce Aad Plaintext Ciphertext) (log : List (Sealing Key Nonce Aad Plaintext)) (key : Key)
    (nonce : Nonce) (ciphertext : Ciphertext) (aad : Aad) : Except Fault Plaintext :=
  if !scheme.keyOk key then .error .key
  else if !scheme.nonceOk nonce then .error .nonce
  else match log.find? fun s =>
      s.key = key ∧ s.nonce = nonce ∧ s.aad = aad ∧ scheme.encrypt s.key s.nonce s.aad s.plaintext = ciphertext with
    | some s => .ok s.plaintext
    | none => .error .tag

variable {scheme : Scheme Key Nonce Aad Plaintext Ciphertext} {log : List (Sealing Key Nonce Aad Plaintext)} {key : Key}
  {nonce : Nonce} {ciphertext : Ciphertext} {aad : Aad} {plaintext : Plaintext}

theorem reveal_ok (opened : reveal scheme log key nonce ciphertext aad = .ok plaintext) :
    ⟨key, nonce, aad, plaintext⟩ ∈ log ∧ scheme.encrypt key nonce aad plaintext = ciphertext := by
  unfold reveal at opened
  split_ifs at opened
  split at opened
  · rename_i s found
    obtain rfl := Except.ok.inj opened
    have fits := List.find?_some found
    rw [decide_eq_true_eq] at fits
    obtain ⟨rfl, rfl, rfl, same⟩ := fits
    exact ⟨List.mem_of_find?_eq_some found, same⟩
  · cases opened

/-- What was sealed opens. -/
theorem reveal_sealed (listed : ⟨key, nonce, aad, plaintext⟩ ∈ log) (goodKey : scheme.keyOk key = true)
    (goodNonce : scheme.nonceOk nonce = true) :
    reveal scheme log key nonce (scheme.encrypt key nonce aad plaintext) aad = .ok plaintext := by
  unfold reveal
  rw [goodKey, goodNonce, if_neg (by simp), if_neg (by simp)]
  split
  · rename_i s found
    have fits := List.find?_some found
    rw [decide_eq_true_eq] at fits
    obtain ⟨rfl, rfl, rfl, same⟩ := fits
    rw [scheme.encrypt_injective _ _ _ same]
  · rename_i none
    have absent := List.find?_eq_none.mp none _ listed
    simp at absent

theorem reveal_ok_iff : reveal scheme log key nonce ciphertext aad = .ok plaintext ↔
    scheme.keyOk key = true ∧ scheme.nonceOk nonce = true ∧
      ⟨key, nonce, aad, plaintext⟩ ∈ log ∧ scheme.encrypt key nonce aad plaintext = ciphertext := by
  constructor
  · intro opened
    have sealed := reveal_ok opened
    unfold reveal at opened
    split_ifs at opened with badKey badNonce
    exact ⟨by simpa using badKey, by simpa using badNonce, sealed⟩
  · rintro ⟨goodKey, goodNonce, listed, rfl⟩
    exact reveal_sealed listed goodKey goodNonce

theorem reveal_key (badKey : scheme.keyOk key = false) : reveal scheme log key nonce ciphertext aad = .error .key := by
  rw [reveal, badKey]
  rfl

theorem reveal_nonce (goodKey : scheme.keyOk key = true) (badNonce : scheme.nonceOk nonce = false) :
    reveal scheme log key nonce ciphertext aad = .error .nonce := by
  rw [reveal, goodKey, badNonce]
  rfl

-- With a key and a nonce of the right form, only the tag can be wrong.
theorem reveal_formed (goodKey : scheme.keyOk key = true) (goodNonce : scheme.nonceOk nonce = true) :
    (∃ plaintext, reveal scheme log key nonce ciphertext aad = .ok plaintext) ∨
      reveal scheme log key nonce ciphertext aad = .error .tag := by
  unfold reveal
  rw [goodKey, goodNonce, if_neg (by simp), if_neg (by simp)]
  split
  · exact .inl ⟨_, rfl⟩
  · exact .inr rfl

end Reveal

/-! ## Nonces that do not repeat -/

-- No key has been used with one nonce twice.
def Once (log : List (Sealing Key Nonce Aad Plaintext)) : Prop :=
  log.Pairwise fun s t => ¬ (s.key = t.key ∧ s.nonce = t.nonce)

def Unused (log : List (Sealing Key Nonce Aad Plaintext)) (key : Key) (nonce : Nonce) : Prop :=
  ∀ s ∈ log, ¬ (s.key = key ∧ s.nonce = nonce)

theorem Once.append {log : List (Sealing Key Nonce Aad Plaintext)} {s : Sealing Key Nonce Aad Plaintext} (once : Once log)
    (unused : Unused log s.key s.nonce) : Once (log ++ [s]) := by
  refine List.pairwise_append.mpr ⟨once, List.pairwise_singleton _ _, fun t listed s' last => ?_⟩
  rw [List.mem_singleton.mp last]
  exact unused t listed

theorem Once.same {log : List (Sealing Key Nonce Aad Plaintext)} (once : Once log) {s t : Sealing Key Nonce Aad Plaintext}
    (listed : s ∈ log) (among : t ∈ log) (key : s.key = t.key) (nonce : s.nonce = t.nonce) : s = t := by
  by_contra different
  have symmetric : Std.Symm fun s t : Sealing Key Nonce Aad Plaintext => ¬ (s.key = t.key ∧ s.nonce = t.nonce) :=
    ⟨fun _ _ apart both => apart ⟨both.1.symm, both.2.symm⟩⟩
  exact List.Pairwise.forall once listed among different ⟨key, nonce⟩

end IdealAead
