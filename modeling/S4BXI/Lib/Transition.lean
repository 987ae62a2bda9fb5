import Mathlib.Data.List.Basic

/-!
# Runs of a labelled transition function

A system is a partial step function on labelled states.  `Reached` collects
the states of the runs all of whose steps meet a side condition on the state
before the step and the label; the unrestricted runs are those with the
condition `Anything`.
-/

namespace S4BXI.Lib

universe u v

variable {State : Type u} {Label : Type v}

/-- The side condition met by every step. -/
def Anything (_before : State) (_label : Label) : Prop := True

/-- The states reached from `start` by steps which meet `allowed`. -/
inductive Reached (step : State → Label → Option State)
    (allowed : State → Label → Prop) (start : State) : State → Prop where
  | refl : Reached step allowed start start
  | tail {before after : State} {label : Label} :
      Reached step allowed start before →
      allowed before label →
      step before label = some after →
      Reached step allowed start after

namespace Reached

variable {step : State → Label → Option State}
  {allowed : State → Label → Prop} {start : State}

/-- One more step, with its label. -/
theorem next {before after : State}
    (reached : Reached step allowed start before) (label : Label)
    (permitted : allowed before label)
    (stepped : step before label = some after) :
    Reached step allowed start after :=
  .tail reached permitted stepped

/-- The invariant rule: what holds initially and is kept by every allowed step
holds in every reached state. -/
theorem invariant {Holds : State → Prop} (initial : Holds start)
    (preserved : ∀ {before after : State} {label : Label},
      Holds before → allowed before label →
        step before label = some after → Holds after)
    {state : State} (reached : Reached step allowed start state) :
    Holds state := by
  induction reached with
  | refl => exact initial
  | tail _ permitted stepped induction =>
      exact preserved induction permitted stepped

/-- The invariant rule with the reachability of the state before the step at
hand, so that invariants already proved can be used. -/
theorem invariant_of_reached {Holds : State → Prop} (initial : Holds start)
    (preserved : ∀ {before after : State} {label : Label},
      Reached step allowed start before → Holds before →
        allowed before label → step before label = some after →
        Holds after)
    {state : State} (reached : Reached step allowed start state) :
    Holds state := by
  induction reached with
  | refl => exact initial
  | tail earlier permitted stepped induction =>
      exact preserved earlier induction permitted stepped

/-- Weakening the side condition. -/
theorem mono {weaker : State → Label → Prop}
    (weaken : ∀ before label, allowed before label → weaker before label)
    {state : State} (reached : Reached step allowed start state) :
    Reached step weaker start state := by
  induction reached with
  | refl => exact .refl
  | tail _ permitted stepped induction =>
      exact .tail induction (weaken _ _ permitted) stepped

/-- Every restricted run is a run. -/
theorem anything {state : State}
    (reached : Reached step allowed start state) :
    Reached step Anything start state :=
  reached.mono fun _ _ _ => trivial

/-- Runs compose. -/
theorem trans {middle state : State}
    (first : Reached step allowed start middle)
    (second : Reached step allowed middle state) :
    Reached step allowed start state := by
  induction second with
  | refl => exact first
  | tail _ permitted stepped induction =>
      exact .tail induction permitted stepped

/-- The first step of a run. -/
theorem head {state : State} (reached : Reached step allowed start state) :
    state = start ∨ ∃ label next, allowed start label ∧
      step start label = some next ∧ Reached step allowed next state := by
  induction reached with
  | refl => exact .inl rfl
  | tail earlier permitted stepped induction =>
      rcases induction with rfl | ⟨label, next, first, began, later⟩
      · exact .inr ⟨_, _, permitted, stepped, .refl⟩
      · exact .inr ⟨label, next, first, began, .tail later permitted stepped⟩

end Reached

/-- Executing a list of labels, checking the side condition at every step. -/
def runLabels (step : State → Label → Option State)
    (allowed : State → Label → Bool) : State → List Label → Option State
  | state, [] => some state
  | state, label :: labels =>
      if allowed state label then
        (step state label).bind fun next => runLabels step allowed next labels
      else
        none

theorem reached_of_runLabels {step : State → Label → Option State}
    {check : State → Label → Bool} {allowed : State → Label → Prop}
    (sound : ∀ state label, check state label = true → allowed state label)
    {labels : List Label} {start final : State}
    (executed : runLabels step check start labels = some final) :
    Reached step allowed start final := by
  induction labels generalizing start with
  | nil =>
      cases executed
      exact .refl
  | cons label labels induction =>
      unfold runLabels at executed
      split at executed
      · rename_i permitted
        cases stepped : step start label with
        | none => simp [stepped] at executed
        | some next =>
            simp only [stepped, Option.bind_some] at executed
            have first : Reached step allowed start next :=
              .tail .refl (sound _ _ permitted) stepped
            exact first.trans (induction executed)
      · cases executed

end S4BXI.Lib
