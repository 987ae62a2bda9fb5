import S4BXI.Lib.Transition

/-!
# Erasing a part of the state

A machine commutes with an erasure when forgetting a part of its state and
stepping are interchangeable, except for the steps which break down in that
part.  Two machines with the same erased machine then do the same, up to what
is forgotten, along every run in which none of them breaks down.
-/

namespace S4BXI.Lib

universe u v w x

variable {State : Type u} {Label : Type v} {Erased : Type w} {Sign : Type x}

/-- A conditional is erased branch by branch. -/
theorem erase_ite {α : Type u} {β : Type v} (erase : α → β)
    {condition other : Prop} [Decidable condition] [Decidable other] {x y : α}
    {a b : β} (same : condition = other) (positive : condition → erase x = a)
    (negative : ¬condition → erase y = b) :
    erase (if condition then x else y) = if other then a else b := by
  subst same
  rw [apply_ite erase]
  exact ite_congr rfl positive negative

/-- Related results are related after a map. -/
theorem rel_map {α : Type u} {β : Type v} {γ : Type w} {δ : Type x}
    {relation : α → β → Prop} {mapped : γ → δ → Prop} {f : α → γ} {g : β → δ}
    {first : Option α} {second : Option β}
    (related : Option.Rel relation first second)
    (maps : ∀ a b, relation a b → mapped (f a) (g b)) :
    Option.Rel mapped (first.map f) (second.map g) := by
  cases related with
  | none => exact .none
  | some holds => exact .some (maps _ _ holds)

/-- A guard keeps results related. -/
theorem rel_guard {α : Type u} {β : Type v} {relation : α → β → Prop}
    {condition other : Prop} [Decidable condition] [Decidable other]
    {first : Option α} {second : Option β} (same : condition = other)
    (related : Option.Rel relation first second) :
    Option.Rel relation (if condition then first else none)
      (if other then second else none) := by
  subst same
  by_cases allowed : condition
  · rw [if_pos allowed, if_pos allowed]
    exact related
  · rw [if_neg allowed, if_neg allowed]
    exact .none

/-- The final state of a run, if all its steps are possible. -/
def runAll (step : State → Label → Option State) (start : State)
    (labels : List Label) : Option State :=
  runLabels step (fun _ _ => true) start labels

theorem runAll_cons (step : State → Label → Option State) (start : State)
    (label : Label) (labels : List Label) :
    runAll step start (label :: labels) =
      (step start label).bind fun after => runAll step after labels := rfl

/-- No step of the run breaks down. -/
def Smooth (step : State → Label → Option State)
    (breaks : State → Label → Prop) : State → List Label → Prop
  | _, [] => True
  | state, label :: labels => ¬breaks state label ∧
      ∀ after, step state label = some after →
        Smooth step breaks after labels

/-- A run whose steps pass a check which excludes breakdowns. -/
theorem smooth_of_runLabels {step : State → Label → Option State}
    {breaks : State → Label → Prop} {check : State → Label → Bool}
    (sound : ∀ state label, check state label = true → ¬breaks state label)
    {labels : List Label} {start : State}
    (executed : (runLabels step check start labels).isSome = true) :
    Smooth step breaks start labels := by
  induction labels generalizing start with
  | nil => trivial
  | cons label labels induction =>
      rw [runLabels] at executed
      by_cases passes : check start label = true
      · rw [if_pos passes] at executed
        refine ⟨sound start label passes, ?_⟩
        intro after stepped
        rw [stepped] at executed
        exact induction executed
      · rw [if_neg passes] at executed
        cases executed

/-- Stepping commutes with the erasure, unless the step breaks down. -/
def Commutes (step : State → Label → Option State)
    (breaks : State → Label → Prop) (erase : State → Erased)
    (sign : Label → Sign) (erased : Erased → Sign → Option Erased) : Prop :=
  ∀ state label, ¬breaks state label →
    (step state label).map erase = erased (erase state) (sign label)

namespace Commutes

variable {step : State → Label → Option State}
  {breaks : State → Label → Prop} {erase : State → Erased}
  {sign : Label → Sign} {erased : Erased → Sign → Option Erased}

/-- The run rule: a smooth run commutes with the erasure. -/
theorem run (commutes : Commutes step breaks erase sign erased)
    {labels : List Label} {start : State}
    (smooth : Smooth step breaks start labels) :
    (runAll step start labels).map erase =
      runAll erased (erase start) (labels.map sign) := by
  induction labels generalizing start with
  | nil => rfl
  | cons label labels induction =>
      obtain ⟨sound, rest⟩ := smooth
      have first := commutes start label sound
      rw [List.map_cons, runAll_cons, runAll_cons, ← first]
      cases stepped : step start label with
      | none => rfl
      | some after => exact induction (rest after stepped)

/-- Two machines with the same erased machine. -/
theorem agree {Other : Type u} {OtherLabel : Type v}
    {other : Other → OtherLabel → Option Other}
    {otherBreaks : Other → OtherLabel → Prop} {otherErase : Other → Erased}
    {otherSign : OtherLabel → Sign}
    (commutes : Commutes step breaks erase sign erased)
    (otherCommutes : Commutes other otherBreaks otherErase otherSign erased)
    {labels : List Label} {otherLabels : List OtherLabel} {start : State}
    {otherStart : Other} (starts : erase start = otherErase otherStart)
    (same : labels.map sign = otherLabels.map otherSign)
    (smooth : Smooth step breaks start labels)
    (otherSmooth : Smooth other otherBreaks otherStart otherLabels) :
    (runAll step start labels).map erase =
      (runAll other otherStart otherLabels).map otherErase := by
  rw [commutes.run smooth, otherCommutes.run otherSmooth, starts, same]

end Commutes

end S4BXI.Lib
