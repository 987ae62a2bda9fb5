import Mathlib.Data.List.Basic
import Mathlib.Algebra.Order.BigOperators.Group.List
import Mathlib.Algebra.Order.Group.Nat
import Mathlib.Algebra.GroupWithZero.Nat

/-!
# Cooperative threads as stacks of pending operations

A thread runs one atomic segment at a time.  What is left of its current call
is a stack of pending operations: running the first one replaces it by the
operations it still has to perform.  The weight of a list of threads adds up a
weight over all pending operations; the lemmas say how it changes when one
thread runs.
-/

namespace S4BXI.Lib

universe u v

/-- A thread with its immutable role and its pending operations. -/
structure Thread (Role : Type u) (Operation : Type v) where
  role : Role
  ops : List Operation

variable {Role : Type u} {Operation : Type v}

/-- The total weight of a list of operations. -/
def opsWeight (weight : Operation → Nat) (ops : List Operation) : Nat :=
  (ops.map weight).sum

/-- The total weight of all pending operations. -/
def pending (weight : Operation → Nat)
    (threads : List (Thread Role Operation)) : Nat :=
  (threads.map fun thread => opsWeight weight thread.ops).sum

/-- Some thread has a pending operation with the given property. -/
def SomePending (property : Operation → Prop)
    (threads : List (Thread Role Operation)) : Prop :=
  ∃ thread ∈ threads, ∃ operation ∈ thread.ops, property operation

/-- Every pending operation of every thread has the given property. -/
def EveryPending (property : Role → Operation → Prop)
    (threads : List (Thread Role Operation)) : Prop :=
  ∀ thread ∈ threads, ∀ operation ∈ thread.ops,
    property thread.role operation

@[simp] theorem opsWeight_nil (weight : Operation → Nat) :
    opsWeight weight [] = 0 := rfl

@[simp] theorem opsWeight_cons (weight : Operation → Nat)
    (operation : Operation) (ops : List Operation) :
    opsWeight weight (operation :: ops) =
      weight operation + opsWeight weight ops := by
  simp [opsWeight]

@[simp] theorem opsWeight_append (weight : Operation → Nat)
    (left right : List Operation) :
    opsWeight weight (left ++ right) =
      opsWeight weight left + opsWeight weight right := by
  simp [opsWeight]

theorem opsWeight_eq_zero {weight : Operation → Nat} {ops : List Operation}
    (absent : ∀ operation ∈ ops, weight operation = 0) :
    opsWeight weight ops = 0 := by
  apply List.sum_eq_zero
  intro value member
  obtain ⟨operation, operationMember, rfl⟩ := List.mem_map.mp member
  exact absent operation operationMember

@[simp] theorem pending_nil (weight : Operation → Nat) :
    pending weight ([] : List (Thread Role Operation)) = 0 := rfl

@[simp] theorem pending_cons (weight : Operation → Nat)
    (thread : Thread Role Operation)
    (threads : List (Thread Role Operation)) :
    pending weight (thread :: threads) =
      opsWeight weight thread.ops + pending weight threads := by
  simp [pending]

/-- Running a thread exchanges the weight of the operations it consumed for
the weight of those it produced. -/
theorem pending_set (weight : Operation → Nat)
    {threads : List (Thread Role Operation)} {index : Nat}
    {thread next : Thread Role Operation}
    (found : threads[index]? = some thread) :
    pending weight (threads.set index next) + opsWeight weight thread.ops =
      pending weight threads + opsWeight weight next.ops := by
  induction threads generalizing index with
  | nil => simp at found
  | cons head tail induction =>
      cases index with
      | zero =>
          simp only [List.getElem?_cons_zero, Option.some.injEq] at found
          subst found
          simp only [List.set_cons_zero, pending_cons]
          omega
      | succ index =>
          simp only [List.getElem?_cons_succ] at found
          have tailWeight := induction found
          simp only [List.set_cons_succ, pending_cons]
          omega

/-- A weight which no pending operation carries. -/
theorem pending_eq_zero {weight : Operation → Nat}
    {threads : List (Thread Role Operation)}
    (absent : ∀ thread ∈ threads, ∀ operation ∈ thread.ops,
      weight operation = 0) :
    pending weight threads = 0 := by
  induction threads with
  | nil => rfl
  | cons head tail induction =>
      have headZero : opsWeight weight head.ops = 0 :=
        opsWeight_eq_zero (absent head (by simp))
      have tailZero := induction fun thread member =>
        absent thread (by simp [member])
      simp [headZero, tailZero]

/-- A pending operation contributes its weight. -/
theorem weight_le_pending {weight : Operation → Nat}
    {threads : List (Thread Role Operation)} {thread : Thread Role Operation}
    {operation : Operation} (threadMember : thread ∈ threads)
    (member : operation ∈ thread.ops) :
    weight operation ≤ pending weight threads := by
  induction threads with
  | nil => simp at threadMember
  | cons head tail induction =>
      simp only [pending_cons]
      rcases List.mem_cons.mp threadMember with rfl | later
      · have bound : weight operation ≤ opsWeight weight thread.ops :=
          List.single_le_sum (by simp) _ (List.mem_map_of_mem member)
        omega
      · have bound := induction later
        omega

/-- After a thread has run, an operation is one it added or was pending before,
apart from the operation which ran. -/
theorem mem_set_append {threads : List (Thread Role Operation)} {index : Nat}
    {role : Role} {added rest : List Operation}
    {thread : Thread Role Operation} {operation : Operation}
    (threadMember : thread ∈ threads.set index ⟨role, added ++ rest⟩)
    (member : operation ∈ thread.ops) :
    operation ∈ added ∨
      ∃ other ∈ threads.set index ⟨role, rest⟩, operation ∈ other.ops := by
  obtain ⟨position, found⟩ := List.mem_iff_getElem?.mp threadMember
  by_cases same : index = position
  · subst same
    rw [List.getElem?_set_self'] at found
    obtain ⟨old, present, rfl⟩ := Option.map_eq_some_iff.mp found
    rcases List.mem_append.mp member with new | kept
    · exact .inl new
    · refine .inr ⟨⟨role, rest⟩, List.mem_iff_getElem?.mpr ⟨index, ?_⟩, kept⟩
      rw [List.getElem?_set_self', present]
      rfl
  · rw [List.getElem?_set_ne same] at found
    refine .inr ⟨thread, List.mem_iff_getElem?.mpr ⟨position, ?_⟩, member⟩
    rw [List.getElem?_set_ne same, found]

/-- What was pending still is after a thread has run, apart from the operation
which ran. -/
theorem mem_set_of_mem {threads : List (Thread Role Operation)} {index : Nat}
    {role : Role} {operation other : Operation} {rest : List Operation}
    {thread : Thread Role Operation} (added : List Operation)
    (found : threads[index]? = some ⟨role, operation :: rest⟩)
    (threadMember : thread ∈ threads) (member : other ∈ thread.ops) :
    other = operation ∨
      ∃ later ∈ threads.set index ⟨role, added ++ rest⟩,
        other ∈ later.ops := by
  obtain ⟨position, present⟩ := List.mem_iff_getElem?.mp threadMember
  by_cases same : index = position
  · subst same
    cases found.symm.trans present
    rcases List.mem_cons.mp member with first | kept
    · exact .inl first
    · refine .inr ⟨⟨role, added ++ rest⟩, List.mem_iff_getElem?.mpr
        ⟨index, ?_⟩, List.mem_append_right _ kept⟩
      rw [List.getElem?_set_self', found]
      rfl
  · refine .inr ⟨thread, List.mem_iff_getElem?.mpr ⟨position, ?_⟩, member⟩
    rw [List.getElem?_set_ne same, present]

/-- Where the total weight is at most that of the operation which runs, nothing
else which is pending has any. -/
theorem weight_eq_zero_of_first {weight : Operation → Nat}
    {threads : List (Thread Role Operation)} {index : Nat} {role : Role}
    {operation : Operation} {rest : List Operation}
    (found : threads[index]? = some ⟨role, operation :: rest⟩)
    (heavy : pending weight threads ≤ weight operation) :
    ∀ thread ∈ threads.set index ⟨role, rest⟩, ∀ other ∈ thread.ops,
      weight other = 0 := by
  intro thread threadMember other member
  have weights := @pending_set _ _ weight _ _ _ ⟨role, rest⟩ found
  have bound : weight other ≤ pending weight (threads.set index ⟨role, rest⟩) :=
    weight_le_pending threadMember member
  simp only [opsWeight_cons] at weights
  omega

/-- A pointwise bound on the weights of the pending operations. -/
theorem pending_le_of_le {smaller larger : Operation → Nat}
    (bound : ∀ operation, smaller operation ≤ larger operation)
    (threads : List (Thread Role Operation)) :
    pending smaller threads ≤ pending larger threads := by
  have opsBound : ∀ ops : List Operation,
      opsWeight smaller ops ≤ opsWeight larger ops := by
    intro ops
    induction ops with
    | nil => simp
    | cons head tail induction =>
        have headBound := bound head
        simp only [opsWeight_cons]
        omega
  induction threads with
  | nil => simp
  | cons head tail induction =>
      have headBound := opsBound head.ops
      simp only [pending_cons]
      omega

/-- Weights which agree on every pending operation. -/
theorem pending_congr {first second : Operation → Nat}
    {threads : List (Thread Role Operation)}
    (agree : ∀ thread ∈ threads, ∀ operation ∈ thread.ops,
      first operation = second operation) :
    pending first threads = pending second threads := by
  unfold pending opsWeight
  refine congrArg List.sum (List.map_congr_left fun thread member => ?_)
  exact congrArg List.sum (List.map_congr_left (agree thread member))

/-- Running a thread exchanges the weight of the operation which ran for those
of the operations it leaves, when the weights of what is pending stay. -/
theorem pending_run {before after : Operation → Nat}
    {threads : List (Thread Role Operation)} {index : Nat} {role : Role}
    {operation : Operation} {rest : List Operation}
    (found : threads[index]? = some ⟨role, operation :: rest⟩)
    (new : List Operation)
    (same : ∀ thread ∈ threads, ∀ other ∈ thread.ops,
      after other = before other) :
    pending after (threads.set index ⟨role, new ++ rest⟩) + before operation =
      pending before threads + opsWeight after new := by
  have weights := @pending_set _ _ after _ _ _ ⟨role, new ++ rest⟩ found
  have kept := pending_congr same
  have ran := same _ (List.mem_of_getElem? found) operation List.mem_cons_self
  simp only [opsWeight_cons, opsWeight_append] at weights
  omega

/-- A thread which starts adds the weight of its operations. -/
theorem pending_start {before after : Operation → Nat}
    {threads : List (Thread Role Operation)} {index : Nat} {role : Role}
    (found : threads[index]? = some ⟨role, []⟩) (new : List Operation)
    (same : ∀ thread ∈ threads, ∀ other ∈ thread.ops,
      after other = before other) :
    pending after (threads.set index ⟨role, new⟩) =
      pending before threads + opsWeight after new := by
  have weights := @pending_set _ _ after _ _ _ ⟨role, new⟩ found
  have kept := pending_congr same
  simp only [opsWeight_nil] at weights
  omega

/-- The weights which the state does not change. -/
theorem pending_run_same {threads : List (Thread Role Operation)}
    {index : Nat} {role : Role} {operation : Operation}
    {rest : List Operation}
    (found : threads[index]? = some ⟨role, operation :: rest⟩)
    (new : List Operation) (weight : Operation → Nat) :
    pending weight (threads.set index ⟨role, new ++ rest⟩) +
        weight operation =
      pending weight threads + opsWeight weight new :=
  pending_run found new fun _ _ _ _ => rfl

theorem pending_start_same {threads : List (Thread Role Operation)}
    {index : Nat} {role : Role}
    (found : threads[index]? = some ⟨role, []⟩) (new : List Operation)
    (weight : Operation → Nat) :
    pending weight (threads.set index ⟨role, new⟩) =
      pending weight threads + opsWeight weight new :=
  pending_start found new fun _ _ _ _ => rfl

/-- A property of all pending operations is kept when the thread that runs
only adds operations with that property. -/
theorem EveryPending.set {property : Role → Operation → Prop}
    {threads : List (Thread Role Operation)} {index : Nat}
    {next : Thread Role Operation}
    (every : EveryPending property threads)
    (added : ∀ operation ∈ next.ops, property next.role operation) :
    EveryPending property (threads.set index next) := by
  intro thread member operation pendingMember
  rcases List.mem_or_eq_of_mem_set member with old | rfl
  · exact every thread old operation pendingMember
  · exact added operation pendingMember

theorem EveryPending.mono {weaker stronger : Role → Operation → Prop}
    {threads : List (Thread Role Operation)}
    (every : EveryPending stronger threads)
    (weaken : ∀ role operation, stronger role operation →
      weaker role operation) :
    EveryPending weaker threads :=
  fun thread member operation pendingMember =>
    weaken _ _ (every thread member operation pendingMember)

/-- A property of all pending operations, which may have changed, after a thread
has run. -/
theorem EveryPending.run {before after : Role → Operation → Prop}
    {threads : List (Thread Role Operation)} {index : Nat} {role : Role}
    {operation : Operation} {rest new : List Operation}
    (every : EveryPending before threads)
    (found : threads[index]? = some ⟨role, operation :: rest⟩)
    (kept : ∀ thread ∈ threads, ∀ other ∈ thread.ops,
      before thread.role other → after thread.role other)
    (added : ∀ other ∈ new, after role other) :
    EveryPending after (threads.set index ⟨role, new ++ rest⟩) := by
  have threadMember := List.mem_of_getElem? found
  have all : EveryPending after threads := fun thread member other pends =>
    kept thread member other pends (every thread member other pends)
  refine all.set fun other member => ?_
  rcases List.mem_append.mp member with new | old
  · exact added other new
  · exact all _ threadMember other (List.mem_cons_of_mem _ old)

/-- A property of all pending operations after a thread has started. -/
theorem EveryPending.start {before after : Role → Operation → Prop}
    {threads : List (Thread Role Operation)} {index : Nat} {role : Role}
    {new : List Operation} (every : EveryPending before threads)
    (kept : ∀ thread ∈ threads, ∀ other ∈ thread.ops,
      before thread.role other → after thread.role other)
    (added : ∀ other ∈ new, after role other) :
    EveryPending after (threads.set index ⟨role, new⟩) := by
  apply EveryPending.set
  · intro thread member other pends
    exact kept thread member other pends (every thread member other pends)
  · exact added

/-- What was pending stays pending when an idle thread starts. -/
theorem SomePending.start {property : Operation → Prop}
    {threads : List (Thread Role Operation)} {index : Nat} {role : Role}
    (pends : SomePending property threads)
    (found : threads[index]? = some ⟨role, []⟩) (new : List Operation) :
    SomePending property (threads.set index ⟨role, new⟩) := by
  obtain ⟨thread, member, operation, pendingMember, holds⟩ := pends
  obtain ⟨position, present⟩ := List.mem_iff_getElem?.mp member
  have different : index ≠ position := by
    rintro rfl
    cases found.symm.trans present
    cases pendingMember
  refine ⟨thread, List.mem_iff_getElem?.mpr ⟨position, ?_⟩, operation,
    pendingMember, holds⟩
  rw [List.getElem?_set_ne different, present]

/-- What a thread which runs leaves on its stack is pending. -/
theorem SomePending.added {property : Operation → Prop}
    {threads : List (Thread Role Operation)} {index : Nat} {role : Role}
    {thread : Thread Role Operation} {ops : List Operation}
    (found : threads[index]? = some thread) {operation : Operation}
    (member : operation ∈ ops) (holds : property operation) :
    SomePending property (threads.set index ⟨role, ops⟩) := by
  refine ⟨⟨role, ops⟩, List.mem_iff_getElem?.mpr ⟨index, ?_⟩, operation,
    member, holds⟩
  rw [List.getElem?_set_self', found]
  rfl

/-- What was pending still is after a thread has run, unless it was the
operation which ran. -/
theorem SomePending.run {property later : Operation → Prop}
    {threads : List (Thread Role Operation)} {index : Nat} {role : Role}
    {operation : Operation} {rest : List Operation}
    (pends : SomePending property threads)
    (found : threads[index]? = some ⟨role, operation :: rest⟩)
    (new : List Operation)
    (kept : ∀ thread ∈ threads, ∀ other ∈ thread.ops,
      property other → later other) :
    property operation ∨
      SomePending later (threads.set index ⟨role, new ++ rest⟩) := by
  obtain ⟨thread, member, other, pendingMember, holds⟩ := pends
  rcases mem_set_of_mem new found member pendingMember with
    rfl | ⟨next, nextMember, stays⟩
  · exact .inl holds
  · exact .inr ⟨next, nextMember, other, stays,
      kept thread member other pendingMember holds⟩

/-- The operation is pending at the thread with the given index. -/
def PendsAt (threads : List (Thread Role Operation)) (index : Nat)
    (operation : Operation) : Prop :=
  ∃ thread, threads[index]? = some thread ∧ operation ∈ thread.ops

theorem PendsAt.mem {threads : List (Thread Role Operation)} {index : Nat}
    {operation : Operation} (pends : PendsAt threads index operation) :
    ∃ thread ∈ threads, operation ∈ thread.ops := by
  obtain ⟨thread, found, member⟩ := pends
  exact ⟨thread, List.mem_of_getElem? found, member⟩

/-- What is pending after one thread has run. -/
theorem PendsAt.of_set {threads : List (Thread Role Operation)}
    {index other : Nat} {next : Thread Role Operation}
    {operation : Operation}
    (pends : PendsAt (threads.set index next) other operation) :
    other ≠ index ∧ PendsAt threads other operation ∨
      other = index ∧ operation ∈ next.ops := by
  obtain ⟨thread, found, member⟩ := pends
  by_cases same : other = index
  · subst same
    rw [List.getElem?_set] at found
    simp only [if_true] at found
    split at found
    · cases found
      exact .inr ⟨rfl, member⟩
    · cases found
  · rw [List.getElem?_set_ne (Ne.symm same)] at found
    exact .inl ⟨same, thread, found, member⟩

/-! ## What the pending operations hold -/

section Gather

universe w

variable {Item : Type w}

/-- The items which the pending operations hold, thread after thread. -/
def gather (holding : Role → Operation → List Item)
    (threads : List (Thread Role Operation)) : List Item :=
  threads.flatMap fun thread => thread.ops.flatMap (holding thread.role)

/-- Running a thread replaces what it holds and nothing else. -/
theorem gather_set (holding : Role → Operation → List Item)
    {threads : List (Thread Role Operation)} {index : Nat}
    {thread : Thread Role Operation}
    (found : threads[index]? = some thread) :
    ∃ left right,
      gather holding threads =
        left ++ thread.ops.flatMap (holding thread.role) ++ right ∧
      ∀ next, gather holding (threads.set index next) =
        left ++ next.ops.flatMap (holding next.role) ++ right := by
  induction threads generalizing index with
  | nil => simp at found
  | cons head tail induction =>
      cases index with
      | zero =>
          simp only [List.getElem?_cons_zero, Option.some.injEq] at found
          subst found
          exact ⟨[], gather holding tail, by simp [gather], by simp [gather]⟩
      | succ index =>
          simp only [List.getElem?_cons_succ] at found
          obtain ⟨left, right, before, after⟩ := induction found
          refine ⟨head.ops.flatMap (holding head.role) ++ left, right, ?_, ?_⟩
          · simp only [gather, List.flatMap_cons] at before ⊢
            rw [before]
            simp only [List.append_assoc]
          · intro next
            have rest := after next
            simp only [gather, List.set_cons_succ, List.flatMap_cons] at rest ⊢
            rw [rest]
            simp only [List.append_assoc]

/-- What a thread holds counts as much as before it ran, plus what it took and
minus what it gave away. -/
theorem count_gather_set [DecidableEq Item]
    (holding : Role → Operation → List Item)
    {threads : List (Thread Role Operation)} {index : Nat}
    {thread : Thread Role Operation}
    (found : threads[index]? = some thread)
    (next : Thread Role Operation) (item : Item) :
    (gather holding (threads.set index next)).count item +
        (thread.ops.flatMap (holding thread.role)).count item =
      (gather holding threads).count item +
        (next.ops.flatMap (holding next.role)).count item := by
  obtain ⟨left, right, before, after⟩ := gather_set holding found
  rw [before, after next]
  simp only [List.count_append]
  omega

/-- An item is held by a pending operation. -/
theorem mem_gather {holding : Role → Operation → List Item}
    {threads : List (Thread Role Operation)} {item : Item} :
    item ∈ gather holding threads ↔
      ∃ thread ∈ threads, ∃ operation ∈ thread.ops,
        item ∈ holding thread.role operation := by
  simp only [gather, List.mem_flatMap]

end Gather

end S4BXI.Lib
