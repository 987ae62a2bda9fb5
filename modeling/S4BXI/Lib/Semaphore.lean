import Mathlib.Data.List.Infix
import Mathlib.Algebra.BigOperators.Group.List.Basic
import Mathlib.Algebra.Order.Group.Int
import Mathlib.Algebra.Ring.Int.Defs

/-!
# Counting semaphores

The history of a semaphore is the list of its operations.  `value` is what is
left of its capacity after a history, and a history is `Regular` when no
acquisition ever found the semaphore empty and no release went beyond the
ceiling, if there is one.
-/

namespace S4BXI.Lib

/-- An operation on a semaphore. -/
inductive SemaphoreEvent where
  | acquire | release
  deriving DecidableEq, Repr

namespace SemaphoreEvent

/-- What an operation adds to the value. -/
def delta : SemaphoreEvent → Int
  | .acquire => -1
  | .release => 1

/-- The value of a semaphore after a history. -/
def value (capacity : Int) (events : List SemaphoreEvent) : Int :=
  capacity + (events.map delta).sum

/-- At every moment of the history, the value was neither negative nor above
the ceiling. -/
def Regular (capacity : Int) (ceiling : Option Int)
    (events : List SemaphoreEvent) : Prop :=
  ∀ earlier, earlier <+: events →
    0 ≤ value capacity earlier ∧
      ∀ bound ∈ ceiling, value capacity earlier ≤ bound

variable {capacity : Int} {ceiling : Option Int}
  {events : List SemaphoreEvent} {event : SemaphoreEvent}

@[simp] theorem value_nil (capacity : Int) : value capacity [] = capacity := by
  simp [value]

@[simp] theorem value_append (capacity : Int)
    (first second : List SemaphoreEvent) :
    value capacity (first ++ second) =
      value capacity first + (second.map delta).sum := by
  simp [value, Int.add_assoc]

/-- The value is the capacity less the acquisitions which were not released. -/
theorem value_eq_counts (capacity : Int) (events : List SemaphoreEvent) :
    value capacity events =
      capacity - events.count .acquire + events.count .release := by
  induction events with
  | nil => simp
  | cons event events induction =>
      unfold value at induction ⊢
      cases event with
      | acquire =>
          simp only [List.map_cons, List.sum_cons, delta, List.count_cons_self,
            List.count_cons_of_ne (show SemaphoreEvent.acquire ≠ .release by
              decide)]
          omega
      | release =>
          simp only [List.map_cons, List.sum_cons, delta, List.count_cons_self,
            List.count_cons_of_ne (show SemaphoreEvent.release ≠ .acquire by
              decide)]
          omega

namespace Regular

theorem nil (positive : 0 ≤ capacity)
    (below : ∀ bound ∈ ceiling, capacity ≤ bound) :
    Regular capacity ceiling [] := by
  intro earlier past
  rw [List.prefix_nil.mp past, value_nil]
  exact ⟨positive, below⟩

/-- The value of a semaphore is regular now. -/
theorem now (regular : Regular capacity ceiling events) :
    0 ≤ value capacity events ∧
      ∀ bound ∈ ceiling, value capacity events ≤ bound :=
  regular events (List.prefix_refl events)

/-- One more operation. -/
theorem snoc (regular : Regular capacity ceiling events)
    (positive : 0 ≤ value capacity events + event.delta)
    (below : ∀ bound ∈ ceiling,
      value capacity events + event.delta ≤ bound) :
    Regular capacity ceiling (events ++ [event]) := by
  intro earlier past
  rcases List.prefix_concat_iff.mp past with whole | before
  · rw [whole, value_append]
    simpa using ⟨positive, below⟩
  · exact regular earlier before

/-- An acquisition which finds the semaphore positive. -/
theorem acquired (regular : Regular capacity ceiling events)
    (left : 0 < value capacity events) :
    Regular capacity ceiling (events ++ [.acquire]) := by
  have bounds := regular.now.2
  apply regular.snoc
  · change 0 ≤ value capacity events + (-1)
    omega
  · intro bound member
    have below := bounds bound member
    change value capacity events + (-1) ≤ bound
    omega

/-- A release which does not exceed the ceiling. -/
theorem released (regular : Regular capacity ceiling events)
    (below : ∀ bound ∈ ceiling, value capacity events < bound) :
    Regular capacity ceiling (events ++ [.release]) := by
  have positive := regular.now.1
  apply regular.snoc
  · change 0 ≤ value capacity events + 1
    omega
  · intro bound member
    have room := below bound member
    change value capacity events + 1 ≤ bound
    omega

/-- At every moment, no more than the capacity is held. -/
theorem held_le (regular : Regular capacity ceiling events)
    {earlier : List SemaphoreEvent} (past : earlier <+: events) :
    (earlier.count .acquire : Int) - earlier.count .release ≤ capacity := by
  have positive := (regular earlier past).1
  rw [value_eq_counts] at positive
  omega

/-- A ceiling equal to the capacity: nothing is released which was not
acquired. -/
theorem released_le (regular : Regular capacity (some capacity) events)
    {earlier : List SemaphoreEvent} (past : earlier <+: events) :
    earlier.count .release ≤ earlier.count .acquire := by
  have below := (regular earlier past).2 capacity rfl
  rw [value_eq_counts] at below
  omega

end Regular

/-- What one step of a system does to a semaphore and to its history. -/
inductive Operates (ceiling : Option Int) (left later : Int)
    (events : List SemaphoreEvent) : List SemaphoreEvent → Prop where
  | kept (same : later = left) : Operates ceiling left later events events
  | acquired (positive : 0 < left) (fewer : later = left - 1) :
      Operates ceiling left later events (events ++ [.acquire])
  | released (below : ∀ bound ∈ ceiling, left < bound)
      (more : later = left + 1) :
      Operates ceiling left later events (events ++ [.release])

/-- The step rule: the semaphore keeps the value which its history tells, and
the history stays regular. -/
theorem Operates.step {left later : Int} {history : List SemaphoreEvent}
    (operates : Operates ceiling left later events history)
    (told : left = value capacity events)
    (regular : Regular capacity ceiling events) :
    later = value capacity history ∧ Regular capacity ceiling history := by
  subst told
  cases operates with
  | kept same => exact ⟨same, regular⟩
  | acquired positive fewer =>
      refine ⟨?_, regular.acquired positive⟩
      rw [fewer, value_append]
      rfl
  | released below more =>
      refine ⟨?_, regular.released below⟩
      rw [more, value_append]
      rfl

end SemaphoreEvent

end S4BXI.Lib
