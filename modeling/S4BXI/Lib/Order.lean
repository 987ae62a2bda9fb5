import Mathlib.Data.List.Basic
import Mathlib.Data.List.Nodup

/-!
# The order of the elements of a list

`Precedes items first second` says that `first` occurs before `second`.  In a
list without duplicates this is a strict order, which its sublists keep.
-/

namespace S4BXI.Lib

universe u

variable {Item : Type u} {items part : List Item} {first second new : Item}

/-- One element occurs before the other. -/
def Precedes (items : List Item) (first second : Item) : Prop :=
  [first, second].Sublist items

theorem Precedes.mem_left (precedes : Precedes items first second) :
    first ∈ items :=
  precedes.subset List.mem_cons_self

theorem Precedes.mem_right (precedes : Precedes items first second) :
    second ∈ items :=
  precedes.subset (by simp)

theorem precedes_cons {head : Item} :
    Precedes (head :: items) first second ↔
      Precedes items first second ∨ first = head ∧ second ∈ items := by
  unfold Precedes
  constructor
  · intro precedes
    cases precedes with
    | cons _ later => exact .inl later
    | cons_cons _ later => exact .inr ⟨rfl, List.singleton_sublist.mp later⟩
  · rintro (later | ⟨rfl, member⟩)
    · exact later.cons head
    · exact (List.singleton_sublist.mpr member).cons_cons _

/-- What precedes in a list with one more element at its end. -/
theorem precedes_concat :
    Precedes (items ++ [new]) first second ↔
      Precedes items first second ∨ first ∈ items ∧ second = new := by
  induction items with
  | nil => simp [Precedes, List.sublist_cons_iff]
  | cons head items induction =>
      rw [List.cons_append, precedes_cons, precedes_cons, induction]
      simp only [List.mem_append, List.mem_cons, List.not_mem_nil, or_false]
      constructor
      · rintro ((earlier | ⟨member, rfl⟩) | ⟨rfl, member | rfl⟩)
        · exact .inl (.inl earlier)
        · exact .inr ⟨.inr member, rfl⟩
        · exact .inl (.inr ⟨rfl, member⟩)
        · exact .inr ⟨.inl rfl, rfl⟩
      · rintro ((earlier | ⟨rfl, member⟩) | ⟨rfl | member, rfl⟩)
        · exact .inl (.inl earlier)
        · exact .inr ⟨rfl, .inl member⟩
        · exact .inr ⟨rfl, .inr rfl⟩
        · exact .inl (.inr ⟨member, rfl⟩)

theorem Precedes.asymm (nodup : items.Nodup)
    (precedes : Precedes items first second) :
    ¬Precedes items second first := by
  induction items with
  | nil => exact absurd precedes.mem_left List.not_mem_nil
  | cons head items induction =>
      obtain ⟨absent, rest⟩ := List.nodup_cons.mp nodup
      intro reverse
      rcases precedes_cons.mp precedes with later | ⟨rfl, member⟩
      · rcases precedes_cons.mp reverse with earlier | ⟨rfl, member⟩
        · exact induction rest later earlier
        · exact absent later.mem_right
      · rcases precedes_cons.mp reverse with earlier | ⟨rfl, again⟩
        · exact absent earlier.mem_right
        · exact absent member

theorem precedes_of_getElem? {i j : Nat} (before : i < j)
    (here : items[i]? = some first) (there : items[j]? = some second) :
    Precedes items first second := by
  induction items generalizing i j with
  | nil => simp at here
  | cons head items induction =>
      obtain ⟨later, rfl⟩ : ∃ later, j = later + 1 := ⟨j - 1, by omega⟩
      rw [List.getElem?_cons_succ] at there
      cases i with
      | zero =>
          simp only [List.getElem?_cons_zero, Option.some.injEq] at here
          exact precedes_cons.mpr
            (.inr ⟨here.symm, List.mem_of_getElem? there⟩)
      | succ i =>
          rw [List.getElem?_cons_succ] at here
          exact precedes_cons.mpr
            (.inl (induction (Nat.lt_of_succ_lt_succ before) here there))

/-- The positions in a sublist follow the order of the list. -/
theorem Precedes.lt_of_sublist (precedes : Precedes items first second)
    (nodup : items.Nodup) (sub : part.Sublist items) {i j : Nat}
    (here : part[i]? = some first) (there : part[j]? = some second) :
    i < j := by
  rcases Nat.lt_trichotomy i j with before | rfl | after
  · exact before
  · rw [here] at there
    cases there
    exact absurd precedes (precedes.asymm nodup)
  · exact absurd ((precedes_of_getElem? after there here).trans sub)
      (precedes.asymm nodup)

end S4BXI.Lib
