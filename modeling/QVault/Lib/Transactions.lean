import QVault.Lib.Sessions

/-!
# Transactions

A transaction reads and writes a store and may fail, and then nothing it wrote stays. `Within step`
says that what it leaves behind, when it does not fail, is `step` of what it found.
-/

namespace Transactions
open Programs Sessions

abbrev Transaction (Store Error α : Type) := StateT Store (Except Error) α

variable {Store Memory Error α β : Type}

def Within (step : Store → Store → Prop) (t : Transaction Store Error α) : Prop :=
  ∀ before a after, t before = .ok (a, after) → step before after

section Rules
variable {step : Store → Store → Prop}

theorem within_pure (refl : ∀ store, step store store) (a : α) : Within step (pure a : Transaction Store Error α) := by
  intro before _ after done
  cases done
  exact refl before

theorem within_throw (error : Error) : Within step (throw error : Transaction Store Error α) := by
  intro before a after done
  cases done

theorem within_get (refl : ∀ store, step store store) : Within step (get : Transaction Store Error Store) := by
  intro before _ after done
  cases done
  exact refl before

theorem within_modify {change : Store → Store} (allowed : ∀ store, step store (change store)) :
    Within step (modify change : Transaction Store Error Unit) := by
  intro before _ after done
  cases done
  exact allowed before

theorem bind_ok {t : Transaction Store Error α} {rest : α → Transaction Store Error β} {before : Store}
    {result : β × Store} :
    (t >>= rest) before = .ok result ↔ ∃ a between, t before = .ok (a, between) ∧ rest a between = .ok result := by
  simp only [bind, StateT.bind, Except.bind]
  cases t before with
  | error error => simp
  | ok pair =>
    constructor
    · intro done
      exact ⟨pair.1, pair.2, rfl, done⟩
    · rintro ⟨a, between, same, done⟩
      rw [Except.ok.injEq] at same
      rw [same]
      exact done

theorem within_bind (trans : ∀ first second third, step first second → step second third → step first third)
    {t : Transaction Store Error α} {rest : α → Transaction Store Error β} (first : Within step t)
    (second : ∀ a, Within step (rest a)) : Within step (t >>= rest) := by
  intro before b after done
  obtain ⟨a, between, one, two⟩ := bind_ok.mp done
  exact trans _ _ _ (first _ _ _ one) (second _ _ _ _ two)

theorem within_forM (refl : ∀ store, step store store)
    (trans : ∀ first second third, step first second → step second third → step first third)
    {each : α → Transaction Store Error Unit} {items : List α} (within : ∀ a ∈ items, Within step (each a)) :
    Within step (items.forM each) := by
  induction items with
  | nil => exact within_pure refl ()
  | cons a rest ih =>
    rw [List.forM]
    exact within_bind trans (within a List.mem_cons_self) fun _ => ih fun b listed => within b (List.mem_cons_of_mem _ listed)

theorem within_mono {weaker : Store → Store → Prop} {t : Transaction Store Error α}
    (implied : ∀ before after, step before after → weaker before after) (within : Within step t) : Within weaker t :=
  fun before a after done => implied _ _ (within before a after done)

end Rules

-- The whole transaction as one statement; `close` lets go of what the session held.
def commit (ready : Store → Bool) (close : Store → Store) (t : Transaction Store Error α) :
    Session Store Memory Error α :=
  .ask ⟨ready, fun store => match t store with
      | .ok (_, after) => close after
      | .error _ => close store⟩
    fun before => .done ((t before).map Prod.fst)

theorem keeps_commit {step : Store → Store → Prop} {ready : Store → Bool} {close : Store → Store}
    {t : Transaction Store Error α}
    (trans : ∀ first second third, step first second → step second third → step first third)
    (closed : ∀ store, step store (close store)) (within : Within step t) : Keeps step (commit ready close t : Session Store Memory Error α) := by
  refine ⟨fun store _ => ?_, fun _ => trivial⟩
  dsimp only
  cases done : t store with
  | error error => exact closed store
  | ok pair => exact trans _ _ _ (within _ _ _ done) (closed _)

theorem safe_commit {inv : Store → Prop} {may : Option Nat → Store → Store → Prop} {me : Nat} {store : Store} {memory : Memory}
    {post : Store → Memory → Except Error α → Prop} {ready : Store → Bool} {close : Store → Store}
    {t : Transaction Store Error α}
    (done : ∀ now a after, (around inv may me).later store now → t now = .ok (a, after) →
      (inv (close after) ∧ may (some me) now (close after)) ∧ post (close after) memory (.ok a))
    (failed : ∀ now error, (around inv may me).later store now → t now = .error error →
      (inv (close now) ∧ may (some me) now (close now)) ∧ post (close now) memory (.error error)) :
    Safe (around inv may me) post (commit ready close t : Session Store Memory Error α) store memory := by
  intro now since
  have both : (inv (match t now with | .ok (_, after) => close after | .error _ => close now) ∧
      may (some me) now (match t now with | .ok (_, after) => close after | .error _ => close now)) ∧
      post (match t now with | .ok (_, after) => close after | .error _ => close now) memory ((t now).map Prod.fst) := by
    cases result : t now with
    | ok pair => exact done now pair.1 pair.2 since result
    | error error => exact failed now error since result
  refine ⟨fun _ => both.1, ?_⟩
  rintro answer ⟨_, same⟩
  subst same
  exact both.2

end Transactions
