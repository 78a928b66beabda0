import Mathlib.Logic.Basic

/-!
# Runs of a deterministic system

A system is a step function on states, driven by a list of events. A run is guarded when every
step it takes meets a condition on the state before it.
-/

namespace Runs

variable {State Event : Type*}

def run (step : State → Event → State) (state : State) (events : List Event) : State :=
  events.foldl step state

def Guarded (step : State → Event → State) (condition : State → Event → Prop) :
    State → List Event → Prop
  | _, [] => True
  | state, event :: rest => condition state event ∧ Guarded step condition (step state event) rest

variable {step : State → Event → State} {condition : State → Event → Prop}

instance decidableGuarded [∀ state event, Decidable (condition state event)] :
    ∀ state events, Decidable (Guarded step condition state events)
  | _, [] => isTrue trivial
  | state, event :: rest =>
    have := decidableGuarded (step state event) rest
    inferInstanceAs (Decidable (condition state event ∧ Guarded step condition (step state event) rest))

@[simp] theorem run_nil (state : State) : run step state [] = state := rfl

@[simp] theorem run_cons (state : State) (event : Event) (rest : List Event) :
    run step state (event :: rest) = run step (step state event) rest := rfl

theorem run_append (state : State) (first second : List Event) :
    run step state (first ++ second) = run step (run step state first) second :=
  List.foldl_append

theorem guarded_append (state : State) (first second : List Event) :
    Guarded step condition state (first ++ second) ↔
      Guarded step condition state first ∧ Guarded step condition (run step state first) second := by
  induction first generalizing state with
  | nil => simp [Guarded]
  | cons event rest ih => simp [Guarded, ih, and_assoc]

theorem guarded_mono {weaker : State → Event → Prop} {state : State} {events : List Event}
    (implied : ∀ state event, event ∈ events → condition state event → weaker state event)
    (guarded : Guarded step condition state events) : Guarded step weaker state events := by
  induction events generalizing state with
  | nil => trivial
  | cons event rest ih =>
    refine ⟨implied _ _ List.mem_cons_self guarded.1, ih ?_ guarded.2⟩
    intro state other member met
    exact implied state other (List.mem_cons_of_mem _ member) met

theorem guarded_of_forall {events : List Event} (always : ∀ event ∈ events, ∀ state, condition state event)
    (state : State) : Guarded step condition state events := by
  induction events generalizing state with
  | nil => trivial
  | cons event rest ih =>
    refine ⟨always event List.mem_cons_self state, ih ?_ _⟩
    exact fun other listed => always other (List.mem_cons_of_mem _ listed)

theorem run_invariant {Invariant : State → Prop}
    (preserved : ∀ state event, Invariant state → condition state event → Invariant (step state event))
    (state : State) (events : List Event) (initial : Invariant state)
    (guarded : Guarded step condition state events) : Invariant (run step state events) := by
  induction events generalizing state with
  | nil => exact initial
  | cons event rest ih => exact ih _ (preserved _ _ initial guarded.1) guarded.2

-- The invariant may also speak of the events of the run.
theorem run_invariant_of_mem {Invariant : State → Prop} (state : State) (events : List Event)
    (preserved : ∀ state event, event ∈ events → Invariant state → condition state event →
      Invariant (step state event))
    (initial : Invariant state) (guarded : Guarded step condition state events) :
    Invariant (run step state events) := by
  have listed : Guarded step (fun state event => event ∈ events ∧ condition state event) state events :=
    guarded_mono (fun _ _ member met => ⟨member, met⟩) guarded
  refine run_invariant ?_ state events initial listed
  intro state event inv met
  exact preserved state event met.1 inv met.2

end Runs
