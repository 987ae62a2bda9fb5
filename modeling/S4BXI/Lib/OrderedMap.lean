import Mathlib

/-!
# Finite maps in key order

The map keeps its entries in strictly increasing key order, so that a key has
at most one value and the entries before and after a key are found by scanning
for its lower bound.
-/

namespace S4BXI.Lib

universe u v

/-- A map with its entries in strictly increasing key order. -/
structure OrderedMap (Key : Type u) (Value : Type v) [LinearOrder Key] where
  entries : List (Key × Value)
  sorted : entries.Pairwise fun first second => first.1 < second.1

namespace OrderedMap

variable {Key : Type u} {Value : Type v} [LinearOrder Key]

def empty : OrderedMap Key Value := ⟨[], .nil⟩

/-- The value of a key. -/
def find? (map : OrderedMap Key Value) (key : Key) : Option Value :=
  (map.entries.find? fun entry => decide (entry.1 = key)).map Prod.snd

/-- The insertion of an entry, in place of one with the same key. -/
def insertEntry (key : Key) (value : Value) :
    List (Key × Value) → List (Key × Value)
  | [] => [(key, value)]
  | entry :: rest =>
      if entry.1 < key then entry :: insertEntry key value rest
      else if key < entry.1 then (key, value) :: entry :: rest
      else (key, value) :: rest

theorem mem_insertEntry_sub {key : Key} {value : Value}
    {entries : List (Key × Value)} {entry : Key × Value}
    (member : entry ∈ insertEntry key value entries) :
    entry = (key, value) ∨ entry ∈ entries := by
  induction entries with
  | nil => exact .inl (List.mem_singleton.mp member)
  | cons head rest induction =>
      unfold insertEntry at member
      split at member
      · rcases List.mem_cons.mp member with rfl | later
        · exact .inr List.mem_cons_self
        · exact (induction later).imp_right (List.mem_cons_of_mem _)
      · split at member
        · rcases List.mem_cons.mp member with rfl | later
          · exact .inl rfl
          · exact .inr later
        · rcases List.mem_cons.mp member with rfl | later
          · exact .inl rfl
          · exact .inr (List.mem_cons_of_mem _ later)

theorem insertEntry_sorted {key : Key} {value : Value}
    {entries : List (Key × Value)}
    (sorted : entries.Pairwise fun first second => first.1 < second.1) :
    (insertEntry key value entries).Pairwise
      fun first second => first.1 < second.1 := by
  induction entries with
  | nil => simp [insertEntry]
  | cons head rest induction =>
      obtain ⟨first, later⟩ := List.pairwise_cons.mp sorted
      unfold insertEntry
      by_cases below : head.1 < key
      · rw [if_pos below]
        refine List.pairwise_cons.mpr ⟨?_, induction later⟩
        intro entry member
        rcases mem_insertEntry_sub member with rfl | old
        · exact below
        · exact first entry old
      · rw [if_neg below]
        by_cases above : key < head.1
        · rw [if_pos above]
          refine List.pairwise_cons.mpr ⟨?_, sorted⟩
          intro entry member
          rcases List.mem_cons.mp member with rfl | old
          · exact above
          · exact lt_trans above (first entry old)
        · rw [if_neg above]
          have same : head.1 = key :=
            le_antisymm (not_lt.mp above) (not_lt.mp below)
          refine List.pairwise_cons.mpr ⟨?_, later⟩
          intro entry member
          exact same ▸ first entry member

/-- `operator[]` with an assignment. -/
def insert (map : OrderedMap Key Value) (key : Key) (value : Value) :
    OrderedMap Key Value :=
  ⟨insertEntry key value map.entries, insertEntry_sorted map.sorted⟩

def erase (map : OrderedMap Key Value) (key : Key) : OrderedMap Key Value :=
  ⟨map.entries.filter fun entry => decide (entry.1 ≠ key),
    map.sorted.sublist List.filter_sublist⟩

/-- The entries from the lower bound of a key on. -/
def lowerBound (map : OrderedMap Key Value) (key : Key) :
    List (Key × Value) :=
  map.entries.dropWhile fun entry => decide (entry.1 < key)

/-- The entries before the lower bound of a key. -/
def before (map : OrderedMap Key Value) (key : Key) : List (Key × Value) :=
  map.entries.takeWhile fun entry => decide (entry.1 < key)

variable {map : OrderedMap Key Value} {key : Key} {value : Value}

/-- A key has one value. -/
theorem unique {first second : Value} (member : (key, first) ∈ map.entries)
    (other : (key, second) ∈ map.entries) : first = second := by
  have sorted := map.sorted
  generalize map.entries = entries at member other sorted
  induction entries with
  | nil => cases member
  | cons head rest induction =>
      obtain ⟨least, later⟩ := List.pairwise_cons.mp sorted
      rcases List.mem_cons.mp member with rfl | inside
      · rcases List.mem_cons.mp other with same | after
        · exact (congrArg Prod.snd same).symm
        · exact absurd (least _ after) (lt_irrefl key)
      · rcases List.mem_cons.mp other with rfl | after
        · exact absurd (least _ inside) (lt_irrefl key)
        · exact induction inside after later

theorem find?_eq_some :
    map.find? key = some value ↔ (key, value) ∈ map.entries := by
  unfold find?
  constructor
  · intro found
    obtain ⟨entry, search, rfl⟩ := Option.map_eq_some_iff.mp found
    have same : entry.1 = key := by simpa using List.find?_some search
    rw [← same]
    exact List.mem_of_find?_eq_some search
  · intro member
    cases search : map.entries.find? fun entry => decide (entry.1 = key) with
    | none =>
        have absent := List.find?_eq_none.mp search _ member
        simp at absent
    | some entry =>
        have same : entry.1 = key := by simpa using List.find?_some search
        have stays := List.mem_of_find?_eq_some search
        rw [Option.map_some, Option.some.injEq]
        apply map.unique ?_ member
        rw [← same]
        exact stays

theorem mem_insert {entry : Key × Value} :
    entry ∈ (map.insert key value).entries ↔
      entry = (key, value) ∨ entry ∈ map.entries ∧ entry.1 ≠ key := by
  have sorted := map.sorted
  change entry ∈ insertEntry key value map.entries ↔ _
  generalize map.entries = entries at sorted
  induction entries with
  | nil => simp [insertEntry]
  | cons head rest induction =>
      obtain ⟨first, later⟩ := List.pairwise_cons.mp sorted
      have above : key < head.1 ∨ key = head.1 → ∀ other ∈ rest,
          other.1 ≠ key := by
        intro order other member
        have below := first other member
        rcases order with less | same
        · exact ne_of_gt (lt_trans less below)
        · exact ne_of_gt (same ▸ below)
      unfold insertEntry
      by_cases below : head.1 < key
      · rw [if_pos below]
        simp only [List.mem_cons, induction later]
        constructor
        · rintro (rfl | new | ⟨old, other⟩)
          · exact .inr ⟨.inl rfl, ne_of_lt below⟩
          · exact .inl new
          · exact .inr ⟨.inr old, other⟩
        · rintro (new | ⟨rfl | old, other⟩)
          · exact .inr (.inl new)
          · exact .inl rfl
          · exact .inr (.inr ⟨old, other⟩)
      · rw [if_neg below]
        by_cases greater : key < head.1
        · rw [if_pos greater]
          simp only [List.mem_cons]
          constructor
          · rintro (new | rfl | old)
            · exact .inl new
            · exact .inr ⟨.inl rfl, ne_of_gt greater⟩
            · exact .inr ⟨.inr old, above (.inl greater) entry old⟩
          · rintro (new | ⟨old, _⟩)
            · exact .inl new
            · exact .inr old
        · rw [if_neg greater]
          have same : head.1 = key :=
            le_antisymm (not_lt.mp greater) (not_lt.mp below)
          simp only [List.mem_cons]
          constructor
          · rintro (new | old)
            · exact .inl new
            · exact .inr ⟨.inr old, above (.inr same.symm) entry old⟩
          · rintro (new | ⟨rfl | old, other⟩)
            · exact .inl new
            · exact absurd same other
            · exact .inr old

theorem mem_erase {entry : Key × Value} :
    entry ∈ (map.erase key).entries ↔ entry ∈ map.entries ∧ entry.1 ≠ key := by
  simp [erase]

/-- The entries are split by the lower bound of a key. -/
theorem mem_split {entry : Key × Value} :
    (entry ∈ map.before key ↔ entry ∈ map.entries ∧ entry.1 < key) ∧
      (entry ∈ map.lowerBound key ↔ entry ∈ map.entries ∧ key ≤ entry.1) := by
  have sorted := map.sorted
  unfold before lowerBound
  generalize map.entries = entries at sorted
  induction entries with
  | nil => simp
  | cons head rest induction =>
      obtain ⟨first, later⟩ := List.pairwise_cons.mp sorted
      obtain ⟨left, right⟩ := induction later
      by_cases below : head.1 < key
      · simp only [List.takeWhile_cons, List.dropWhile_cons, below,
          decide_true, if_true, List.mem_cons, left, right]
        constructor
        · constructor
          · rintro (rfl | ⟨old, less⟩)
            · exact ⟨.inl rfl, below⟩
            · exact ⟨.inr old, less⟩
          · rintro ⟨rfl | old, less⟩
            · exact .inl rfl
            · exact .inr ⟨old, less⟩
        · constructor
          · rintro ⟨old, least⟩
            exact ⟨.inr old, least⟩
          · rintro ⟨rfl | old, least⟩
            · exact absurd below (not_lt.mpr least)
            · exact ⟨old, least⟩
      · have every : ∀ other ∈ head :: rest, key ≤ other.1 := by
          intro other member
          rcases List.mem_cons.mp member with rfl | old
          · exact not_lt.mp below
          · exact le_trans (not_lt.mp below) (le_of_lt (first other old))
        simp only [List.takeWhile_cons, List.dropWhile_cons, below,
          decide_false, Bool.false_eq_true, if_false, List.not_mem_nil,
          false_iff, not_and, not_lt]
        exact ⟨fun member => every entry member,
          fun member => ⟨member, every entry member⟩, fun known => known.1⟩

/-- The first entry from the lower bound on has the least key. -/
theorem lowerBound_head {entry : Key × Value} {rest : List (Key × Value)}
    (found : map.lowerBound key = entry :: rest) {other : Key × Value}
    (member : other ∈ map.entries) (least : key ≤ other.1) :
    entry.1 ≤ other.1 := by
  have sorted : (entry :: rest).Pairwise fun first second =>
      first.1 < second.1 := by
    rw [← found]
    exact map.sorted.sublist (List.dropWhile_sublist _)
  have later : other ∈ entry :: rest := by
    rw [← found]
    exact mem_split.2.mpr ⟨member, least⟩
  rcases List.mem_cons.mp later with rfl | after
  · exact le_refl _
  · exact le_of_lt ((List.pairwise_cons.mp sorted).1 other after)

/-- The last entry before the lower bound has the greatest key. -/
theorem before_last {entry : Key × Value}
    (found : (map.before key).getLast? = some entry) {other : Key × Value}
    (member : other ∈ map.entries) (less : other.1 < key) :
    other.1 ≤ entry.1 := by
  obtain ⟨front, shape⟩ := List.getLast?_eq_some_iff.mp found
  have sorted : (front ++ [entry]).Pairwise fun first second =>
      first.1 < second.1 := by
    rw [← shape]
    exact map.sorted.sublist (List.takeWhile_sublist _)
  have earlier : other ∈ front ++ [entry] := by
    rw [← shape]
    exact mem_split.1.mpr ⟨member, less⟩
  rcases List.mem_append.mp earlier with inside | last
  · exact le_of_lt ((List.pairwise_append.mp sorted).2.2 other inside entry
      (List.mem_singleton_self _))
  · rw [List.mem_singleton.mp last]

end OrderedMap

end S4BXI.Lib
