import Mathlib

/-!
# Reference counts

Objects with a count of the references to them.  An object may hold a reference
to one object which is older than itself; the other references are held from
outside.  A reference which is released lowers the count, and the last one
destroys the object, whose own reference is then released in turn.

The counts are right when every live object is counted exactly and nobody refers
to a destroyed one.  The operations keep them right.
-/

namespace S4BXI.Lib

universe u

/-! ## Totals over a table -/

section Totals

variable {Item : Type u} {size index : Nat} {weight : Item → Nat}
  {table : Nat → Item}

/-- The weight of the first items of a table. -/
def total (size : Nat) (weight : Item → Nat) (table : Nat → Item) : Nat :=
  ((List.range size).map fun index => weight (table index)).sum

theorem total_succ (size : Nat) (weight : Item → Nat) (table : Nat → Item) :
    total (size + 1) weight table =
      total size weight table + weight (table size) := by
  simp [total, List.range_succ]

theorem total_congr {Other : Type u} {other : Other → Nat}
    {items : Nat → Other}
    (same : ∀ index < size, other (items index) = weight (table index)) :
    total size other items = total size weight table := by
  unfold total
  apply congrArg List.sum
  apply List.map_congr_left
  intro index member
  exact same index (List.mem_range.mp member)

theorem total_eq_zero (light : ∀ index < size, weight (table index) = 0) :
    total size weight table = 0 := by
  apply List.sum_eq_zero
  intro value member
  obtain ⟨index, inside, rfl⟩ := List.mem_map.mp member
  exact light index (List.mem_range.mp inside)

theorem weight_le_total (inside : index < size) :
    weight (table index) ≤ total size weight table := by
  apply List.single_le_sum (by simp)
  exact List.mem_map.mpr ⟨index, List.mem_range.mpr inside, rfl⟩

/-- An item which is replaced outside the range does not count. -/
theorem total_update_outside (outside : size ≤ index) (item : Item) :
    total size weight (Function.update table index item) =
      total size weight table := by
  apply total_congr
  intro other inside
  rw [Function.update_of_ne (by omega)]

/-- An item which is replaced gives its weight for that of the new one. -/
theorem total_update (inside : index < size) (item : Item) :
    total size weight (Function.update table index item) +
        weight (table index) =
      total size weight table + weight item := by
  induction size with
  | zero => omega
  | succ size induction =>
      rw [total_succ, total_succ]
      by_cases last : index = size
      · subst last
        rw [total_update_outside (Nat.le_refl _), Function.update_self]
        omega
      · have earlier := induction (by omega)
        rw [Function.update_of_ne (Ne.symm last)]
        omega

end Totals

/-! ## Objects -/

/-- An object: its count and the object to which it refers. -/
structure Cell where
  live : Bool := false
  count : Nat := 0
  child : Option Nat := none
  deriving DecidableEq, Repr

/-- One reference to an object. -/
def single (id other : Nat) : Nat := if other = id then 1 else 0

@[simp] theorem single_self (id : Nat) : single id id = 1 := if_pos rfl

theorem single_of_ne {id other : Nat} (different : other ≠ id) :
    single id other = 0 := if_neg different

/-- The references to an object which another object holds. -/
def Cell.refers (id : Nat) (cell : Cell) : Nat :=
  if cell.live = true ∧ cell.child = some id then 1 else 0

/-- The live objects which refer to an object. -/
def owners (size : Nat) (heap : Nat → Cell) (id : Nat) : Nat :=
  total size (Cell.refers id) heap

/-- One more reference. -/
def retain (heap : Nat → Cell) (id : Nat) : Nat → Cell :=
  Function.update heap id { heap id with count := (heap id).count + 1 }

theorem retain_update {heap : Nat → Cell} {id other : Nat} (cell : Cell)
    (different : id ≠ other) :
    retain (Function.update heap other cell) id =
      Function.update (retain heap id) other cell := by
  unfold retain
  rw [Function.update_of_ne different, Function.update_comm different]

/-- One reference less.  The recursion goes down from an object to the one it
refers to. -/
def release : Nat → (Nat → Cell) → Nat → (Nat → Cell)
  | 0, heap, _ => heap
  | fuel + 1, heap, id =>
      if (heap id).live = false then
        heap
      else if (heap id).count = 1 then
        let destroyed := Function.update heap id
          { heap id with live := false, count := 0 }
        match (heap id).child with
        | some child => release fuel destroyed child
        | none => destroyed
      else
        Function.update heap id { heap id with count := (heap id).count - 1 }

/-- Every live object is counted exactly, given the references which are held
from outside, and nobody refers to a destroyed one. -/
structure RefCounted (size : Nat) (held : Nat → Nat) (heap : Nat → Cell) :
    Prop where
  inside : ∀ id, (heap id).live = true → id < size
  older : ∀ id child, (heap id).child = some child → child < id
  exact : ∀ id, (heap id).live = true →
    (heap id).count = held id + owners size heap id
  positive : ∀ id, (heap id).live = true → 0 < (heap id).count
  forgotten : ∀ id, (heap id).live = false →
    held id = 0 ∧ owners size heap id = 0

section Owners

variable {size id : Nat} {heap : Nat → Cell} {cell : Cell}

theorem owners_update (inside : id < size) (cell : Cell) (other : Nat) :
    owners size (Function.update heap id cell) other +
        (heap id).refers other =
      owners size heap other + cell.refers other :=
  total_update inside cell

/-- The count of an object does not matter. -/
theorem owners_recount (inside : id < size) (live : cell.live = (heap id).live)
    (child : cell.child = (heap id).child) (other : Nat) :
    owners size (Function.update heap id cell) other =
      owners size heap other := by
  have updated := @owners_update _ _ heap inside cell other
  have same : cell.refers other = (heap id).refers other := by
    unfold Cell.refers
    rw [live, child]
  omega

end Owners

namespace RefCounted

variable {size id : Nat} {held less more : Nat → Nat} {heap : Nat → Cell}

/-- An object which somebody holds is alive. -/
theorem live_of_held (counted : RefCounted size held heap)
    (holds : 0 < held id) : (heap id).live = true := by
  cases live : (heap id).live with
  | true => rfl
  | false =>
      have nothing := (counted.forgotten id live).1
      omega

/-- A live object refers to a live one. -/
theorem live_child (counted : RefCounted size held heap) {child : Nat}
    (live : (heap id).live = true) (refers : (heap id).child = some child) :
    (heap child).live = true := by
  cases alive : (heap child).live with
  | true => rfl
  | false =>
      have nothing : total size (Cell.refers child) heap = 0 :=
        (counted.forgotten child alive).2
      have least : (heap id).refers child ≤ total size (Cell.refers child) heap :=
        weight_le_total (counted.inside id live)
      have mine : (heap id).refers child = 1 := if_pos ⟨live, refers⟩
      omega

/-- An object is alive as long as it is referred to. -/
theorem live_iff (counted : RefCounted size held heap) :
    (heap id).live = true ↔ 0 < held id + owners size heap id := by
  constructor
  · intro live
    rw [← counted.exact id live]
    exact counted.positive id live
  · intro referred
    cases live : (heap id).live with
    | true => rfl
    | false =>
        have nothing := counted.forgotten id live
        omega

/-- An object which nobody holds is alive because of another one. -/
theorem owned_of_live (counted : RefCounted size held heap)
    (live : (heap id).live = true) (free : held id = 0) :
    ∃ owner, (heap owner).live = true ∧ (heap owner).child = some id := by
  have positive := counted.positive id live
  have exact := counted.exact id live
  by_contra nobody
  have nothing : owners size heap id = 0 := by
    apply total_eq_zero
    intro owner _
    exact if_neg fun refers => nobody ⟨owner, refers⟩
  omega

/-- No object leaks: where the objects which are held refer to nothing, the
others have been destroyed. -/
theorem held_of_live (counted : RefCounted size held heap)
    (leaves : ∀ root, 0 < held root → (heap root).child = none)
    (live : (heap id).live = true) : 0 < held id := by
  -- the owners of an object are younger than it is
  have younger : ∀ gap id, size ≤ id + gap → (heap id).live = true →
      0 < held id := by
    intro gap
    induction gap with
    | zero =>
        intro id outside live
        have inside := counted.inside id live
        omega
    | succ gap induction =>
        intro id within live
        by_contra free
        obtain ⟨owner, alive, refers⟩ :=
          counted.owned_of_live live (Nat.eq_zero_of_not_pos free)
        have later := counted.older owner id refers
        have held := induction owner (by omega) alive
        rw [leaves owner held] at refers
        cases refers
  exact younger size id (Nat.le_add_left size id) live

theorem congr (counted : RefCounted size held heap)
    (same : ∀ other, more other = held other) : RefCounted size more heap := by
  have equal : more = held := funext same
  rw [equal]
  exact counted

/-- Another count of a live object, which is held as often. -/
theorem recount (counted : RefCounted size held heap)
    (live : (heap id).live = true) {count : Nat} (positive : 0 < count)
    (others : ∀ other, other ≠ id → more other = held other)
    (here : count = more id + owners size heap id) :
    RefCounted size more
      (Function.update heap id { heap id with count := count }) := by
  have inside := counted.inside id live
  have same := @owners_recount _ _ heap { heap id with count := count }
    inside rfl rfl
  constructor
  · intro other alive
    by_cases equal : other = id
    · rw [equal]
      exact inside
    · rw [Function.update_of_ne equal] at alive
      exact counted.inside other alive
  · intro other child refers
    by_cases equal : other = id
    · subst equal
      rw [Function.update_self] at refers
      exact counted.older other child refers
    · rw [Function.update_of_ne equal] at refers
      exact counted.older other child refers
  · intro other alive
    rw [same]
    by_cases equal : other = id
    · subst equal
      rw [Function.update_self]
      exact here
    · rw [Function.update_of_ne equal] at alive ⊢
      rw [others other equal]
      exact counted.exact other alive
  · intro other alive
    by_cases equal : other = id
    · subst equal
      rw [Function.update_self]
      exact positive
    · rw [Function.update_of_ne equal] at alive ⊢
      exact counted.positive other alive
  · intro other dead
    rw [same]
    by_cases equal : other = id
    · subst equal
      rw [Function.update_self] at dead
      dsimp only at dead
      rw [live] at dead
      cases dead
    · rw [Function.update_of_ne equal] at dead
      rw [others other equal]
      exact counted.forgotten other dead

/-- A new reference to a live object. -/
theorem retain (counted : RefCounted size held heap)
    (live : (heap id).live = true)
    (gains : ∀ other, more other = held other + single id other) :
    RefCounted size more (Lib.retain heap id) := by
  apply counted.recount live (Nat.succ_pos _)
  · intro other different
    rw [gains, single_of_ne different, Nat.add_zero]
  · rw [gains, single_self, counted.exact id live]
    omega

/-- The last reference to an object is released: the object hands its own
reference over. -/
theorem destroy (counted : RefCounted size held heap)
    (live : (heap id).live = true) (last : (heap id).count = 1)
    (holds : 0 < held id)
    (loses : ∀ other, more other + single id other =
      held other + (heap id).refers other) :
    RefCounted size more (Function.update heap id
      { heap id with live := false, count := 0 }) := by
  have inside := counted.inside id live
  have amount := counted.exact id live
  have owned : ∀ other,
      owners size (Function.update heap id
          { heap id with live := false, count := 0 }) other +
        (heap id).refers other = owners size heap other := by
    intro other
    have updated := @owners_update _ _ heap inside
      { heap id with live := false, count := 0 } other
    have gone : Cell.refers other
        { heap id with live := false, count := 0 } = 0 := by
      simp [Cell.refers]
    omega
  constructor
  · intro other alive
    by_cases equal : other = id
    · rw [equal]
      exact inside
    · rw [Function.update_of_ne equal] at alive
      exact counted.inside other alive
  · intro other child refers
    by_cases equal : other = id
    · subst equal
      rw [Function.update_self] at refers
      exact counted.older other child refers
    · rw [Function.update_of_ne equal] at refers
      exact counted.older other child refers
  · intro other alive
    by_cases equal : other = id
    · subst equal
      rw [Function.update_self] at alive
      cases alive
    · rw [Function.update_of_ne equal] at alive ⊢
      have before := counted.exact other alive
      have moved := loses other
      have after := owned other
      rw [single_of_ne equal] at moved
      omega
  · intro other alive
    by_cases equal : other = id
    · subst equal
      rw [Function.update_self] at alive
      cases alive
    · rw [Function.update_of_ne equal] at alive ⊢
      exact counted.positive other alive
  · intro other dead
    have moved := loses other
    have after := owned other
    by_cases equal : other = id
    · subst equal
      rw [single_self] at moved
      omega
    · rw [Function.update_of_ne equal] at dead
      have nothing := counted.forgotten other dead
      rw [single_of_ne equal] at moved
      omega

/-- A reference which was held is released. -/
theorem release {fuel : Nat} (counted : RefCounted size held heap)
    (enough : id < fuel)
    (loses : ∀ other, less other + single id other = held other) :
    RefCounted size less (Lib.release fuel heap id) := by
  induction fuel generalizing heap held id with
  | zero => omega
  | succ fuel induction =>
      have here := loses id
      rw [single_self] at here
      have holds : 0 < held id := by omega
      have live := counted.live_of_held holds
      have amount := counted.exact id live
      rw [Lib.release, if_neg (by simp [live])]
      by_cases last : (heap id).count = 1
      · rw [if_pos last]
        cases child : (heap id).child with
        | none =>
            apply counted.destroy live last holds
            intro other
            have nothing : (heap id).refers other = 0 := by
              simp [Cell.refers, child]
            rw [nothing]
            exact loses other
        | some next =>
            have older := counted.older id next child
            have handed : RefCounted size
                (fun other => less other + single next other)
                (Function.update heap id
                  { heap id with live := false, count := 0 }) := by
              apply counted.destroy live last holds
              intro other
              have refers : (heap id).refers other = single next other := by
                unfold Cell.refers single
                simp [live, child, eq_comm]
              have lost := loses other
              rw [refers]
              omega
            have below : next < fuel := by omega
            exact induction handed below fun _ => rfl
      · rw [if_neg last]
        have positive := counted.positive id live
        apply counted.recount live (by omega)
        · intro other different
          have lost := loses other
          rw [single_of_ne different] at lost
          omega
        · omega

/-- A new object is held once, and takes over a reference to its child. -/
theorem allocate (counted : RefCounted size held heap) {child : Option Nat}
    (older : ∀ id, child = some id → id < size)
    (gains : ∀ other, more other + (if child = some other then 1 else 0) =
      held other + single size other) :
    RefCounted (size + 1) more (Function.update heap size
      { live := true, count := 1, child := child }) := by
  have outside : (heap size).live = false := by
    cases live : (heap size).live with
    | false => rfl
    | true => exact absurd (counted.inside size live) (Nat.lt_irrefl _)
  have nobody := counted.forgotten size outside
  have owned : ∀ other,
      owners (size + 1) (Function.update heap size
        { live := true, count := 1, child := child }) other =
      owners size heap other + if child = some other then 1 else 0 := by
    intro other
    unfold owners
    rw [total_succ, total_update_outside (Nat.le_refl _), Function.update_self]
    simp [Cell.refers]
  have childless : ¬child = some size := fun refers =>
    Nat.lt_irrefl _ (older size refers)
  constructor
  · intro other alive
    by_cases equal : other = size
    · rw [equal]
      exact Nat.lt_succ_self size
    · rw [Function.update_of_ne equal] at alive
      have inside := counted.inside other alive
      omega
  · intro other next refers
    by_cases equal : other = size
    · subst equal
      rw [Function.update_self] at refers
      exact older next refers
    · rw [Function.update_of_ne equal] at refers
      exact counted.older other next refers
  · intro other alive
    have moved := gains other
    rw [owned]
    by_cases equal : other = size
    · subst equal
      rw [single_self, if_neg childless] at moved
      rw [Function.update_self, if_neg childless, nobody.2]
      dsimp only
      omega
    · rw [Function.update_of_ne equal] at alive ⊢
      have before := counted.exact other alive
      rw [single_of_ne equal] at moved
      omega
  · intro other alive
    by_cases equal : other = size
    · subst equal
      rw [Function.update_self]
      exact Nat.one_pos
    · rw [Function.update_of_ne equal] at alive ⊢
      exact counted.positive other alive
  · intro other dead
    have moved := gains other
    by_cases equal : other = size
    · subst equal
      rw [Function.update_self] at dead
      cases dead
    · rw [Function.update_of_ne equal] at dead
      have nothing := counted.forgotten other dead
      rw [single_of_ne equal] at moved
      rw [owned]
      omega

end RefCounted

end S4BXI.Lib
