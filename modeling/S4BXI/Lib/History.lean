import S4BXI.Lib.Transition

/-!
# Runs with a history

What a step does can be recorded beside the state: `record` computes the
entries of a step from the state before it and its label.  The history does not
influence the run, so that a statement about it says what happened in the run.
-/

namespace S4BXI.Lib

universe u v w

variable {State : Type u} {Label : Type v} {Entry : Type w}

/-- The states reached from `start` with the histories of the runs which lead
there. -/
inductive Chronicle (step : State → Label → Option State)
    (allowed : State → Label → Prop) (record : State → Label → List Entry)
    (start : State) : State → List Entry → Prop where
  | refl : Chronicle step allowed record start start []
  | tail {before after : State} {history : List Entry} {label : Label} :
      Chronicle step allowed record start before history →
      allowed before label →
      step before label = some after →
      Chronicle step allowed record start after
        (history ++ record before label)

namespace Chronicle

variable {step : State → Label → Option State}
  {allowed : State → Label → Prop} {record : State → Label → List Entry}
  {start : State}

/-- The run without its history. -/
theorem reached {state : State} {history : List Entry}
    (chronicle : Chronicle step allowed record start state history) :
    Reached step allowed start state := by
  induction chronicle with
  | refl => exact .refl
  | tail _ permitted stepped induction =>
      exact .tail induction permitted stepped

/-- The invariant rule for states and their histories. -/
theorem invariant {Holds : State → List Entry → Prop}
    (initial : Holds start [])
    (preserved : ∀ {before after : State} {history : List Entry}
      {label : Label}, Chronicle step allowed record start before history →
        Holds before history → allowed before label →
        step before label = some after →
        Holds after (history ++ record before label))
    {state : State} {history : List Entry}
    (chronicle : Chronicle step allowed record start state history) :
    Holds state history := by
  induction chronicle with
  | refl => exact initial
  | tail earlier permitted stepped induction =>
      exact preserved earlier induction permitted stepped

/-- Runs compose, and so do their histories. -/
theorem trans {middle state : State} {first second : List Entry}
    (earlier : Chronicle step allowed record start middle first)
    (later : Chronicle step allowed record middle state second) :
    Chronicle step allowed record start state (first ++ second) := by
  induction later with
  | refl =>
      rw [List.append_nil]
      exact earlier
  | tail _ permitted stepped induction =>
      rw [← List.append_assoc]
      exact .tail induction permitted stepped

end Chronicle

/-- The history of the run with the given labels. -/
def recordLabels (step : State → Label → Option State)
    (record : State → Label → List Entry) : State → List Label → List Entry
  | _, [] => []
  | state, label :: labels =>
      record state label ++
        match step state label with
        | none => []
        | some next => recordLabels step record next labels

theorem chronicle_of_runLabels {step : State → Label → Option State}
    {check : State → Label → Bool} {allowed : State → Label → Prop}
    {record : State → Label → List Entry}
    (sound : ∀ state label, check state label = true → allowed state label)
    {labels : List Label} {start final : State}
    (executed : runLabels step check start labels = some final) :
    Chronicle step allowed record start final
      (recordLabels step record start labels) := by
  induction labels generalizing start with
  | nil =>
      cases executed
      exact .refl
  | cons label labels induction =>
      unfold runLabels at executed
      split at executed
      · rename_i permitted
        cases stepped : step start label with
        | none => simp [stepped] at executed
        | some next =>
            simp only [stepped, Option.bind_some] at executed
            have first : Chronicle step allowed record start next
                (record start label) :=
              .tail .refl (sound _ _ permitted) stepped
            have rest := first.trans (induction executed)
            simpa only [recordLabels, stepped] using rest
      · cases executed

end S4BXI.Lib
