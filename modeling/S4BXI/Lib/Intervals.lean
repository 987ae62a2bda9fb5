import Mathlib.Data.List.Pairwise
import Mathlib.Order.Defs.PartialOrder

/-!
# Lists of intervals

Half-open intervals of natural numbers.  A list of nonempty intervals in
increasing order which do not touch is the list of the maximal intervals of
what it covers, and so are the gaps which it leaves below a bound.
-/

namespace S4BXI.Lib

/-- A point in one of the intervals. -/
def Covers (intervals : List (Nat × Nat)) (point : Nat) : Prop :=
  ∃ interval ∈ intervals, interval.1 ≤ point ∧ point < interval.2

/-- Nonempty intervals in increasing order, with points between them. -/
structure Separated (intervals : List (Nat × Nat)) : Prop where
  nonempty : ∀ interval ∈ intervals, interval.1 < interval.2
  ordered : intervals.Pairwise fun first second => first.2 < second.1

/-- An interval of points which extends to neither side. -/
structure MaximalInterval (points : Nat → Prop) (interval : Nat × Nat) :
    Prop where
  nonempty : interval.1 < interval.2
  within : ∀ point, interval.1 ≤ point → point < interval.2 → points point
  leftEnd : interval.1 = 0 ∨ ¬ points (interval.1 - 1)
  rightEnd : ¬ points interval.2

/-- What a list of intervals leaves from one point to another. -/
def gaps (size start : Nat) : List (Nat × Nat) → List (Nat × Nat)
  | [] => if start < size then [(start, size)] else []
  | interval :: rest =>
      if start < interval.1 then
        (start, interval.1) :: gaps size interval.2 rest
      else gaps size interval.2 rest

namespace Separated

variable {intervals : List (Nat × Nat)}

theorem tail {interval : Nat × Nat} {rest : List (Nat × Nat)}
    (separated : Separated (interval :: rest)) : Separated rest :=
  ⟨fun later member =>
      separated.nonempty later (List.mem_cons_of_mem _ member),
    separated.ordered.of_cons⟩

theorem head_before {interval : Nat × Nat} {rest : List (Nat × Nat)}
    (separated : Separated (interval :: rest)) :
    ∀ later ∈ rest, interval.2 < later.1 :=
  (List.pairwise_cons.mp separated.ordered).1

/-- Two intervals are one, or a point lies between them. -/
theorem trichotomy (separated : Separated intervals)
    {first second : Nat × Nat} (firstIn : first ∈ intervals)
    (secondIn : second ∈ intervals) :
    first = second ∨ first.2 < second.1 ∨ second.2 < first.1 := by
  induction intervals with
  | nil => cases firstIn
  | cons head rest induction =>
      have before := separated.head_before
      rcases List.mem_cons.mp firstIn with rfl | firstLater
      · rcases List.mem_cons.mp secondIn with rfl | secondLater
        · exact .inl rfl
        · exact .inr (.inl (before second secondLater))
      · rcases List.mem_cons.mp secondIn with rfl | secondLater
        · exact .inr (.inr (before first firstLater))
        · exact induction separated.tail firstLater secondLater

theorem not_covers_stop (separated : Separated intervals)
    {interval : Nat × Nat} (member : interval ∈ intervals) :
    ¬ Covers intervals interval.2 := by
  rintro ⟨other, otherIn, above, below⟩
  rcases separated.trichotomy member otherIn with rfl | before | after
  · omega
  · omega
  · have filled := separated.nonempty interval member
    omega

theorem not_covers_before (separated : Separated intervals)
    {interval : Nat × Nat} (member : interval ∈ intervals)
    (positive : 0 < interval.1) : ¬ Covers intervals (interval.1 - 1) := by
  rintro ⟨other, otherIn, above, below⟩
  have filled := separated.nonempty interval member
  rcases separated.trichotomy member otherIn with rfl | before | after
  · omega
  · omega
  · omega

/-- The intervals are the maximal ones of what they cover. -/
theorem mem_iff_maximal (separated : Separated intervals)
    {interval : Nat × Nat} :
    interval ∈ intervals ↔ MaximalInterval (Covers intervals) interval := by
  constructor
  · intro member
    constructor
    · exact separated.nonempty interval member
    · intro point above below
      exact ⟨interval, member, above, below⟩
    · rcases Nat.eq_zero_or_pos interval.1 with zero | positive
      · exact .inl zero
      · exact .inr (separated.not_covers_before member positive)
    · exact separated.not_covers_stop member
  · intro maximal
    obtain ⟨other, otherIn, above, below⟩ :=
      maximal.within interval.1 (Nat.le_refl _) maximal.nonempty
    have sameStart : other.1 = interval.1 := by
      by_contra different
      rcases maximal.leftEnd with zero | free
      · omega
      · exact free ⟨other, otherIn, by omega, by omega⟩
    have sameStop : other.2 = interval.2 := by
      have filled := maximal.nonempty
      rcases Nat.lt_trichotomy other.2 interval.2 with shorter | same | longer
      · have covered := maximal.within other.2 (by omega) shorter
        exact absurd covered (separated.not_covers_stop otherIn)
      · exact same
      · exact absurd ⟨other, otherIn, by omega, longer⟩ maximal.rightEnd
    rw [← Prod.ext sameStart sameStop]
    exact otherIn

end Separated

section Gaps

variable {size : Nat} {intervals : List (Nat × Nat)}

theorem covers_cons {interval : Nat × Nat} {rest : List (Nat × Nat)}
    {point : Nat} :
    Covers (interval :: rest) point ↔
      (interval.1 ≤ point ∧ point < interval.2) ∨ Covers rest point := by
  simp [Covers]

/-- The gaps are what the intervals do not cover. -/
theorem covers_gaps (separated : Separated intervals) {start : Nat}
    (later : ∀ interval ∈ intervals, start ≤ interval.1)
    (bounded : ∀ interval ∈ intervals, interval.2 ≤ size) {point : Nat} :
    Covers (gaps size start intervals) point ↔
      start ≤ point ∧ point < size ∧ ¬ Covers intervals point := by
  induction intervals generalizing start with
  | nil =>
      by_cases room : start < size
      · simp [gaps, room, Covers]
      · simp only [gaps, if_neg room, Covers, List.not_mem_nil, false_and,
          exists_false, not_false_eq_true, and_true, false_iff]
        omega
  | cons interval rest induction =>
      have before := separated.head_before
      have filled := separated.nonempty interval List.mem_cons_self
      have after := later interval List.mem_cons_self
      have below := bounded interval List.mem_cons_self
      have rest := induction separated.tail
        (fun other member => Nat.le_of_lt (before other member))
        fun other member => bounded other (List.mem_cons_of_mem _ member)
      have restLater : ∀ point, Covers _ point → interval.2 < point :=
        fun point ⟨other, member, above, _⟩ =>
          Nat.lt_of_lt_of_le (before other member) above
      have excluded := restLater point
      by_cases gap : start < interval.1
      · rw [gaps, if_pos gap, covers_cons, covers_cons, rest, not_or]
        constructor
        · rintro (⟨above, inside⟩ | ⟨above, inside, free⟩)
          · refine ⟨above, by omega, by omega, ?_⟩
            intro covered
            have past := excluded covered
            omega
          · exact ⟨by omega, inside, by omega, free⟩
        · rintro ⟨above, inside, out, free⟩
          by_cases early : point < interval.1
          · exact .inl ⟨above, early⟩
          · exact .inr ⟨by omega, inside, free⟩
      · rw [gaps, if_neg gap, covers_cons, rest, not_or]
        constructor
        · rintro ⟨above, inside, free⟩
          exact ⟨by omega, inside, by omega, free⟩
        · rintro ⟨above, inside, out, free⟩
          exact ⟨by omega, inside, free⟩

theorem le_of_mem_gaps (separated : Separated intervals) {start : Nat}
    (later : ∀ interval ∈ intervals, start ≤ interval.1) :
    ∀ gap ∈ gaps size start intervals, start ≤ gap.1 := by
  induction intervals generalizing start with
  | nil =>
      intro gap member
      by_cases room : start < size
      · rw [gaps, if_pos room, List.mem_singleton] at member
        subst member
        exact Nat.le_refl _
      · rw [gaps, if_neg room] at member
        cases member
  | cons interval rest induction =>
      intro gap member
      have filled := separated.nonempty interval List.mem_cons_self
      have after := later interval List.mem_cons_self
      have past := induction separated.tail fun other otherIn =>
        Nat.le_of_lt (separated.head_before other otherIn)
      by_cases room : start < interval.1
      · rw [gaps, if_pos room] at member
        rcases List.mem_cons.mp member with rfl | listed
        · exact Nat.le_refl _
        · have bound := past gap listed
          omega
      · rw [gaps, if_neg room] at member
        have bound := past gap member
        omega

theorem gaps_separated (separated : Separated intervals) {start : Nat}
    (later : ∀ interval ∈ intervals, start ≤ interval.1) :
    Separated (gaps size start intervals) := by
  induction intervals generalizing start with
  | nil =>
      by_cases room : start < size
      · rw [gaps, if_pos room]
        constructor
        · intro gap member
          rw [List.mem_singleton.mp member]
          exact room
        · exact List.pairwise_singleton _ _
      · rw [gaps, if_neg room]
        constructor
        · intro gap member
          cases member
        · exact .nil
  | cons interval rest induction =>
      have filled := separated.nonempty interval List.mem_cons_self
      have after : ∀ other ∈ rest, interval.2 ≤ other.1 :=
        fun other member => Nat.le_of_lt (separated.head_before other member)
      have others := induction separated.tail after
      by_cases room : start < interval.1
      · rw [gaps, if_pos room]
        constructor
        · intro gap member
          rcases List.mem_cons.mp member with rfl | listed
          · exact room
          · exact others.nonempty gap listed
        · refine List.pairwise_cons.mpr ⟨?_, others.ordered⟩
          intro gap listed
          exact Nat.lt_of_lt_of_le filled
            (le_of_mem_gaps separated.tail after gap listed)
      · rw [gaps, if_neg room]
        exact others

end Gaps

end S4BXI.Lib
