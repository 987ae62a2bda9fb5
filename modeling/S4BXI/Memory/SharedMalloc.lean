import Mathlib
import S4BXI.Lib.OrderedMap
import S4BXI.Lib.Transition
import S4BXI.Portals.Constants

/-!
# Shared allocations in LOCAL mode

`s4bxi_shared_malloc`, `s4bxi_shared_free` and `s4bxi_is_shared` on the maps
`allocs` and `allocs_metadata`.  A pointer to an element of `allocs` is the
address of the element, which dangles once the element has been erased.
`s4bxi_shared_free` removes the metadata entry only together with the last
allocation of its location.
-/

namespace S4BXI

open Lib

/-- `s4bxi_source_location`. -/
abbrev SourceLocation := String

def sourceLocation (filename : String) (line : Int) : SourceLocation :=
  filename ++ ":" ++ toString line

/-- The parts around a separator which the second part does not have. -/
theorem split_inj {Item : Type} {separator : Item}
    {left left' right right' : List Item} (absent : separator ∉ right)
    (absent' : separator ∉ right')
    (equal : left ++ separator :: right = left' ++ separator :: right') :
    left = left' ∧ right = right' := by
  rcases List.append_eq_append_iff.mp equal with
    ⟨middle, front, back⟩ | ⟨middle, front, back⟩
  all_goals
    cases middle with
    | nil =>
        rw [List.append_nil] at front
        rw [List.nil_append] at back
        cases back
        subst front
        exact ⟨rfl, rfl⟩
    | cons head rest =>
        rw [List.cons_append] at back
        cases back
        simp at absent absent'

theorem colon_not_mem_toString (line : Int) :
    ':' ∉ (toString line).toList := by
  have digits : ∀ number : Nat, ':' ∉ (Nat.repr number).toList := by
    intro number member
    rw [Nat.toList_repr] at member
    have digit : ':'.isDigit = true :=
      Nat.isDigit_of_mem_toDigits (by omega) (le_refl 10) member
    cases digit
  rw [Int.toString_eq_repr, Int.repr_eq_if]
  split
  · exact digits _
  · simpa using digits _

/-- A source location is a file and a line. -/
theorem sourceLocation_inj {filename filename' : String} {line line' : Int} :
    sourceLocation filename line = sourceLocation filename' line' ↔
      filename = filename' ∧ line = line' := by
  constructor
  · intro equal
    have lists := congrArg String.toList equal
    simp only [sourceLocation, String.toList_append, List.append_assoc] at lists
    obtain ⟨file, number⟩ := split_inj (colon_not_mem_toString line)
      (colon_not_mem_toString line') lists
    refine ⟨String.toList_inj.mp file, Int.repr_injective ?_⟩
    exact String.toList_inj.mp number
  · rintro ⟨rfl, rfl⟩
    rfl

/-- `shared_data_t`. -/
structure SharedData where
  fd : Int := -1
  count : Int := 0

/-- An element of `allocs`. -/
structure SharedAlloc where
  address : Addr
  location : SourceLocation
  data : SharedData

/-- `shared_metadata_t`. -/
structure SharedMetadata where
  size : Nat
  allocatedSize : Nat
  allocatedPtr : Addr
  privateBlocks : List (Nat × Nat) := []
  data : Addr

/-- What the functions ask of the operating system and of the allocator. -/
inductive MemoryCall where
  | mmap (mem : Addr) (size : Nat) (fd : Int)
  | munmap (ptr : Addr) (size : Nat)
  | close (fd : Int)
  | delete (ptr : Addr)

/-- An allocation which has been returned and not freed yet. -/
structure Allocation where
  ptr : Addr
  size : Nat
  location : SourceLocation

/-- The maps, with the live allocations and the calls made so far. -/
structure SharedHeap where
  allocs : List SharedAlloc := []
  allocsMetadata : OrderedMap Addr SharedMetadata := .empty
  live : List Allocation := []
  calls : List MemoryCall := []

/-- The values of `int`. -/
def wrapInt (number : Int) : Int := (number + 2 ^ 31) % 2 ^ 32 - 2 ^ 31

namespace SharedHeap

def findAlloc (s : SharedHeap) (location : SourceLocation) :
    Option SharedAlloc :=
  s.allocs.find? fun alloc => alloc.location = location

/-- The element behind a pointer, unless it dangles. -/
def deref (s : SharedHeap) (address : Addr) : Option SharedAlloc :=
  s.allocs.find? fun alloc => alloc.address = address

/-- `data->second.count = count`. -/
def setCount (s : SharedHeap) (address : Addr) (count : Int) : SharedHeap :=
  { s with
    allocs := s.allocs.map fun alloc =>
      if alloc.address = address then
        { alloc with data := { alloc.data with count := count } }
      else
        alloc }

def call (s : SharedHeap) (call : MemoryCall) : SharedHeap :=
  { s with calls := s.calls ++ [call] }

/-- `shm_map`, with the address which `mmap` returns. -/
def shmMap (s : SharedHeap) (fd : Int) (size : Nat) (data mem : Addr) :
    SharedHeap :=
  { s.call (.mmap mem size fd) with
    allocsMetadata := s.allocsMetadata.insert mem
      { size := size, data := data, allocatedPtr := mem
        allocatedSize := size } }

/-- `s4bxi_shared_malloc_local`, with the address which `mmap` returns and the
descriptor and the address of a new element. -/
def sharedMallocLocal (s : SharedHeap) (size : Nat) (location : SourceLocation)
    (mem : Addr) (fd : Int) (element : Addr) : SharedHeap :=
  match s.findAlloc location with
  | none =>
      let inserted : SharedHeap :=
        { s with
          allocs := s.allocs ++
            [⟨element, location, { fd := fd, count := 1 }⟩] }
      inserted.shmMap fd size element mem
  | some alloc =>
      (s.shmMap alloc.data.fd size alloc.address mem).setCount alloc.address
        (wrapInt (alloc.data.count + 1))

/-- `s4bxi_shared_free`.  It has no result where it uses a dangling pointer. -/
def sharedFree (s : SharedHeap) (ptr : Addr) : Option SharedHeap :=
  match s.allocsMetadata.find? ptr with
  | none => some (s.call (.delete ptr))
  | some metadata => do
      let alloc ← s.deref metadata.data
      let unmapped :=
        s.call (.munmap metadata.allocatedPtr metadata.allocatedSize)
      let count := wrapInt (alloc.data.count - 1)
      if count ≤ 0 then
        some
          { unmapped.call (.close alloc.data.fd) with
            allocs := s.allocs.filter fun other =>
              other.location ≠ alloc.location
            allocsMetadata := s.allocsMetadata.erase ptr }
      else
        some (unmapped.setCount alloc.address count)

/-- The entry before the lower bound of an address, when the address is within
its size. -/
def belowShared (s : SharedHeap) (ptr : Addr) :
    Option (Nat × List (Nat × Nat)) :=
  match (s.allocsMetadata.before ptr).getLast? with
  | none => none
  | some (base, metadata) =>
      if ptr < base + metadata.size then
        some (ptr - base, metadata.privateBlocks)
      else
        none

/-- `s4bxi_is_shared`: the offset and the private blocks where it answers 1. -/
def isShared (s : SharedHeap) (ptr : Addr) :
    Option (Nat × List (Nat × Nat)) :=
  match s.allocsMetadata.lowerBound ptr with
  | [] => s.belowShared ptr
  | (base, metadata) :: _ =>
      if base = ptr then some (0, metadata.privateBlocks)
      else s.belowShared ptr

end SharedHeap

/-- A call of the program in LOCAL mode.  The last three arguments of an
allocation are chosen by the operating system and the allocator. -/
inductive SharedCall where
  | malloc (size : Nat) (filename : String) (line : Int) (mem : Addr)
      (fd : Int) (element : Addr)
  | free (ptr : Addr)

/-- A new mapping does not overlap a live one. -/
def SharedHeap.Fits (s : SharedHeap) (mem : Addr) (size : Nat) : Prop :=
  ∀ allocation ∈ s.live,
    mem + size ≤ allocation.ptr ∨ allocation.ptr + allocation.size ≤ mem

instance (s : SharedHeap) (mem : Addr) (size : Nat) :
    Decidable (s.Fits mem size) :=
  inferInstanceAs (Decidable (∀ allocation ∈ s.live, _))

/-- One call, on a positive size or a live pointer. -/
def sharedStep (s : SharedHeap) : SharedCall → Option SharedHeap
  | .malloc size filename line mem fd element =>
      if 0 < size ∧ s.Fits mem size ∧
          element ∉ s.allocs.map SharedAlloc.address then
        let location := sourceLocation filename line
        some
          { s.sharedMallocLocal size location mem fd element with
            live := s.live ++ [⟨mem, size, location⟩] }
      else
        none
  | .free ptr =>
      if ptr ∈ s.live.map Allocation.ptr then
        (s.sharedFree ptr).map fun after =>
          { after with
            live := s.live.eraseP fun allocation => allocation.ptr = ptr }
      else
        none

namespace SharedHeap

/-- The number of live allocations of a location. -/
def number (s : SharedHeap) (location : SourceLocation) : Nat :=
  s.live.countP fun allocation => allocation.location = location

/-- A metadata entry describes a live allocation, and its `data` is the
element of its location. -/
def Describes (s : SharedHeap) (ptr : Addr) (metadata : SharedMetadata) :
    Prop :=
  ∃ allocation ∈ s.live, allocation.ptr = ptr ∧
    metadata.size = allocation.size ∧ metadata.allocatedPtr = ptr ∧
    metadata.allocatedSize = allocation.size ∧
    ∃ alloc ∈ s.allocs, alloc.address = metadata.data ∧
      alloc.location = allocation.location

/-- The maps say exactly which allocations are live. -/
structure Exact (s : SharedHeap) : Prop where
  describes : ∀ {ptr metadata}, (ptr, metadata) ∈ s.allocsMetadata.entries →
    s.Describes ptr metadata
  entry : ∀ allocation ∈ s.live, ∃ metadata,
    (allocation.ptr, metadata) ∈ s.allocsMetadata.entries
  once : (s.live.map Allocation.ptr).Nodup
  locations : (s.allocs.map SharedAlloc.location).Nodup
  located : ∀ allocation ∈ s.live, ∃ alloc ∈ s.allocs,
    alloc.location = allocation.location
  count : ∀ alloc ∈ s.allocs, alloc.data.count = s.number alloc.location ∧
    0 < s.number alloc.location

/-- The address is inside a live allocation. -/
def Inside (s : SharedHeap) (ptr : Addr) : Prop :=
  ∃ allocation ∈ s.live,
    allocation.ptr ≤ ptr ∧ ptr < allocation.ptr + allocation.size

/-- Exact maps over live allocations which do not overlap. -/
structure Kept (s : SharedHeap) : Prop extends s.Exact where
  addresses : (s.allocs.map SharedAlloc.address).Nodup
  positive : ∀ allocation ∈ s.live, 0 < allocation.size
  apart : ∀ first ∈ s.live, ∀ second ∈ s.live, first.ptr ≠ second.ptr →
    first.ptr + first.size ≤ second.ptr ∨ second.ptr + second.size ≤ first.ptr
  small : ∀ location, s.number location < 2 ^ 31

variable {s : SharedHeap}

theorem findAlloc_some {location : SourceLocation} {alloc : SharedAlloc}
    (found : s.findAlloc location = some alloc) :
    alloc ∈ s.allocs ∧ alloc.location = location :=
  ⟨List.mem_of_find?_eq_some found, by simpa using List.find?_some found⟩

theorem findAlloc_none {location : SourceLocation}
    (absent : s.findAlloc location = none) :
    ∀ alloc ∈ s.allocs, alloc.location ≠ location := by
  intro alloc member
  simpa using List.find?_eq_none.mp absent alloc member

/-- A pointer to an element gives the element. -/
theorem deref_of_mem (distinct : (s.allocs.map SharedAlloc.address).Nodup)
    {alloc : SharedAlloc} (member : alloc ∈ s.allocs) :
    s.deref alloc.address = some alloc := by
  cases found : s.deref alloc.address with
  | none =>
      have absent := List.find?_eq_none.mp found alloc member
      simp at absent
  | some other =>
      have same : other.address = alloc.address := by
        simpa using List.find?_some found
      have equal := List.inj_on_of_nodup_map distinct
        (List.mem_of_find?_eq_some found) member same
      rw [equal]

theorem mem_setCount {address : Addr} {count : Int} {alloc : SharedAlloc} :
    alloc ∈ (s.setCount address count).allocs ↔ ∃ old ∈ s.allocs,
      alloc = if old.address = address then
        { old with data := { old.data with count := count } } else old := by
  simp only [setCount, List.mem_map, eq_comm]

theorem setCount_addresses (address : Addr) (count : Int) :
    (s.setCount address count).allocs.map SharedAlloc.address =
      s.allocs.map SharedAlloc.address := by
  simp only [setCount, List.map_map]
  apply List.map_congr_left
  intro alloc _
  simp only [Function.comp_apply]
  split <;> rfl

theorem setCount_locations (address : Addr) (count : Int) :
    (s.setCount address count).allocs.map SharedAlloc.location =
      s.allocs.map SharedAlloc.location := by
  simp only [setCount, List.map_map]
  apply List.map_congr_left
  intro alloc _
  simp only [Function.comp_apply]
  split <;> rfl

theorem number_pos {allocation : Allocation} (member : allocation ∈ s.live) :
    0 < s.number allocation.location :=
  List.countP_pos_iff.mpr ⟨allocation, member, by simp⟩

/-- The live allocations around the one which is freed. -/
theorem live_split (once : (s.live.map Allocation.ptr).Nodup)
    {allocation : Allocation} (member : allocation ∈ s.live) :
    ∃ front back, s.live = front ++ allocation :: back ∧
      (s.live.eraseP fun other => other.ptr = allocation.ptr) = front ++ back ∧
      ∀ other ∈ front ++ back, other.ptr ≠ allocation.ptr := by
  obtain ⟨found, front, back, before, same, shape, erased⟩ :=
    List.exists_of_eraseP (p := fun other => decide (other.ptr =
      allocation.ptr)) member (by simp)
  have equal : found = allocation := by
    apply List.inj_on_of_nodup_map once ?_ member (by simpa using same)
    simp [shape]
  subst equal
  refine ⟨front, back, shape, erased, ?_⟩
  intro other inside
  rw [shape, List.map_append, List.map_cons] at once
  have apart := (List.nodup_middle.mp once)
  rw [← List.map_append] at apart
  have absent := (List.nodup_cons.mp apart).1
  intro equal
  exact absent (List.mem_map.mpr ⟨other, inside, equal⟩)

end SharedHeap

/-- What the bookkeeping needs of a call: a pointer is freed as the only live
allocation of its location, and the allocations of a location can be counted
with an `int`. -/
def SharedCall.Sole (s : SharedHeap) : SharedCall → Prop
  | .malloc _ filename line _ _ _ =>
      s.number (sourceLocation filename line) + 1 < 2 ^ 31
  | .free ptr => ∀ allocation ∈ s.live, allocation.ptr = ptr →
      s.number allocation.location = 1

instance (s : SharedHeap) (call : SharedCall) : Decidable (call.Sole s) :=
  match call with
  | .malloc _ filename line _ _ _ =>
      inferInstanceAs (Decidable (s.number (sourceLocation filename line) + 1 <
        2 ^ 31))
  | .free ptr =>
      inferInstanceAs (Decidable (∀ allocation ∈ s.live, allocation.ptr = ptr →
        s.number allocation.location = 1))

namespace SharedHeap

variable {s after : SharedHeap}

theorem kept_initial : ({} : SharedHeap).Kept :=
  { describes := by simp [OrderedMap.empty]
    entry := by simp
    once := .nil
    locations := .nil
    located := by simp
    count := by simp
    addresses := .nil
    positive := by simp
    apart := by simp
    small := by simp [number] }

theorem number_append {allocation : Allocation}
    (grown : after.live = s.live ++ [allocation]) (location : SourceLocation) :
    after.number location = s.number location +
      if allocation.location = location then 1 else 0 := by
  simp [number, grown, List.countP_append, List.countP_cons]

/-- An address which fits is not the one of a live allocation. -/
theorem Kept.ptr_ne (kept : s.Kept) {mem : Addr} {size : Nat}
    (positive : 0 < size) (fits : s.Fits mem size) :
    ∀ allocation ∈ s.live, allocation.ptr ≠ mem := by
  intro allocation member equal
  have large := kept.positive allocation member
  rcases fits allocation member with low | high
  · rw [equal] at low
    exact absurd low (Nat.not_le_of_gt (Nat.lt_add_of_pos_right positive))
  · rw [equal] at high
    exact absurd high (Nat.not_le_of_gt (Nat.lt_add_of_pos_right large))

/-- The elements after an allocation at `location`: the old ones with the
count of their location, and one for `location`. -/
structure Counted (s after : SharedHeap) (location : SourceLocation)
    (data : Addr) : Prop where
  kept : ∀ alloc ∈ s.allocs, ∃ later ∈ after.allocs,
    later.address = alloc.address ∧ later.location = alloc.location
  found : ∃ alloc ∈ after.allocs,
    alloc.address = data ∧ alloc.location = location
  count : ∀ alloc ∈ after.allocs,
    alloc.data.count = s.number alloc.location +
      if location = alloc.location then 1 else 0
  used : ∀ alloc ∈ after.allocs, 0 < s.number alloc.location ∨
    location = alloc.location
  addresses : (after.allocs.map SharedAlloc.address).Nodup
  locations : (after.allocs.map SharedAlloc.location).Nodup

theorem Kept.allocated (kept : s.Kept) {size : Nat} {location : SourceLocation}
    {mem : Addr} (data : Addr) (blocks : List (Nat × Nat)) (positive : 0 < size)
    (fits : s.Fits mem size)
    (bounded : s.number location + 1 < 2 ^ 31)
    (mapped : after.allocsMetadata = s.allocsMetadata.insert mem
      ⟨size, size, mem, blocks, data⟩)
    (grown : after.live = s.live ++ [⟨mem, size, location⟩])
    (counted : Counted s after location data) : after.Kept := by
  have fresh := kept.ptr_ne positive fits
  have number : ∀ place, after.number place = s.number place +
      if location = place then 1 else 0 :=
    number_append grown
  have last : (⟨mem, size, location⟩ : Allocation) ∈ after.live := by
    simp [grown]
  constructor
  · constructor
    · intro ptr metadata member
      rw [mapped] at member
      rcases OrderedMap.mem_insert.mp member with equal | ⟨old, -⟩
      · cases equal
        exact ⟨_, last, rfl, rfl, rfl, rfl, counted.found⟩
      · obtain ⟨allocation, live, same, sizes, own, whole, alloc, element,
          address, place⟩ := kept.describes old
        obtain ⟨later, inside, address', place'⟩ := counted.kept alloc element
        refine ⟨allocation, by simp [grown, live], same, sizes, own, whole,
          later, inside, address'.trans address, place'.trans place⟩
    · intro allocation member
      rw [grown] at member
      rw [mapped]
      rcases List.mem_append.mp member with old | new
      · obtain ⟨metadata, entry⟩ := kept.entry allocation old
        exact ⟨metadata,
          OrderedMap.mem_insert.mpr (.inr ⟨entry, fresh allocation old⟩)⟩
      · rw [List.mem_singleton.mp new]
        exact ⟨_, OrderedMap.mem_insert.mpr (.inl rfl)⟩
    · rw [grown, List.map_append, List.map_singleton]
      refine List.nodup_append.mpr ⟨kept.once, List.nodup_singleton _, ?_⟩
      intro ptr member other new equal
      obtain ⟨allocation, live, rfl⟩ := List.mem_map.mp member
      exact fresh allocation live (equal.trans (List.mem_singleton.mp new))
    · exact counted.locations
    · intro allocation member
      rw [grown] at member
      rcases List.mem_append.mp member with old | new
      · obtain ⟨alloc, element, place⟩ := kept.located allocation old
        obtain ⟨later, inside, -, place'⟩ := counted.kept alloc element
        exact ⟨later, inside, place'.trans place⟩
      · rw [List.mem_singleton.mp new]
        obtain ⟨alloc, inside, -, place⟩ := counted.found
        exact ⟨alloc, inside, place⟩
    · intro alloc member
      have equal := counted.count alloc member
      have used := counted.used alloc member
      rw [number, equal]
      refine ⟨by push_cast; rfl, ?_⟩
      rcases used with old | new
      · omega
      · rw [if_pos new]
        omega
  · exact counted.addresses
  · intro allocation member
    rw [grown] at member
    rcases List.mem_append.mp member with old | new
    · exact kept.positive allocation old
    · rw [List.mem_singleton.mp new]
      exact positive
  · rw [grown]
    intro first member second member' different
    rcases List.mem_append.mp member with old | new
    · rcases List.mem_append.mp member' with old' | new'
      · exact kept.apart first old second old' different
      · rw [List.mem_singleton.mp new']
        exact (fits first old).symm
    · rw [List.mem_singleton.mp new] at different ⊢
      rcases List.mem_append.mp member' with old' | new'
      · exact fits second old'
      · rw [List.mem_singleton.mp new'] at different
        exact absurd rfl different
  · intro place
    have before := kept.small place
    rw [number]
    split
    · subst place
      omega
    · omega

theorem number_eq_zero (kept : s.Kept) {location : SourceLocation}
    (absent : ∀ alloc ∈ s.allocs, alloc.location ≠ location) :
    s.number location = 0 := by
  apply List.countP_eq_zero.mpr
  intro allocation member equal
  obtain ⟨alloc, element, place⟩ := kept.located allocation member
  exact absent alloc element (place.trans (by simpa using equal))

/-- A new element for the first allocation of a location. -/
theorem Kept.counted_new (kept : s.Kept) {location : SourceLocation}
    {element : Addr} (fd : Int) (absent : s.findAlloc location = none)
    (fresh : element ∉ s.allocs.map SharedAlloc.address)
    (elements : after.allocs =
      s.allocs ++ [⟨element, location, { fd := fd, count := 1 }⟩]) :
    Counted s after location element := by
  have others := findAlloc_none absent
  constructor
  · intro alloc member
    exact ⟨alloc, by simp [elements, member], rfl, rfl⟩
  · refine ⟨⟨element, location, { fd := fd, count := 1 }⟩, ?_, rfl, rfl⟩
    simp [elements]
  · intro alloc member
    rw [elements] at member
    rcases List.mem_append.mp member with old | new
    · rw [if_neg (others alloc old).symm, add_zero]
      exact (kept.count alloc old).1
    · rw [List.mem_singleton.mp new, number_eq_zero kept others]
      simp
  · intro alloc member
    rw [elements] at member
    rcases List.mem_append.mp member with old | new
    · exact .inl (kept.count alloc old).2
    · exact .inr (by rw [List.mem_singleton.mp new])
  · rw [elements, List.map_append, List.map_singleton]
    refine List.nodup_append.mpr ⟨kept.addresses, List.nodup_singleton _, ?_⟩
    intro address member other new equal
    rw [equal, List.mem_singleton.mp new] at member
    exact fresh member
  · rw [elements, List.map_append, List.map_singleton]
    refine List.nodup_append.mpr ⟨kept.locations, List.nodup_singleton _, ?_⟩
    intro place member other new equal
    obtain ⟨alloc, old, rfl⟩ := List.mem_map.mp member
    exact others alloc old (equal.trans (List.mem_singleton.mp new))

/-- One more allocation of a location which has an element. -/
theorem Kept.counted_old (kept : s.Kept) {location : SourceLocation}
    {alloc : SharedAlloc} (found : s.findAlloc location = some alloc)
    (bounded : s.number location + 1 < 2 ^ 31)
    (elements : after.allocs = (s.setCount alloc.address
      (wrapInt (alloc.data.count + 1))).allocs) :
    Counted s after location alloc.address := by
  obtain ⟨element, rfl⟩ := findAlloc_some found
  have value := kept.count alloc element
  have next : wrapInt (alloc.data.count + 1) = s.number alloc.location + 1 := by
    unfold wrapInt
    omega
  constructor
  · intro old member
    refine ⟨_, elements ▸ mem_setCount.mpr ⟨old, member, rfl⟩, ?_⟩
    split <;> exact ⟨rfl, rfl⟩
  · refine ⟨_, elements ▸ mem_setCount.mpr ⟨alloc, element, rfl⟩, ?_⟩
    rw [if_pos rfl]
    exact ⟨rfl, rfl⟩
  · intro later member
    obtain ⟨old, inside, rfl⟩ := mem_setCount.mp (elements ▸ member)
    by_cases same : old.address = alloc.address
    · have equal := List.inj_on_of_nodup_map kept.addresses inside element same
      subst equal
      rw [if_pos rfl]
      simpa using next
    · rw [if_neg same]
      have different : alloc.location ≠ old.location := by
        intro equal
        have one := List.inj_on_of_nodup_map kept.locations element inside equal
        exact same (congrArg SharedAlloc.address one.symm)
      rw [if_neg different, add_zero]
      exact (kept.count old inside).1
  · intro later member
    obtain ⟨old, inside, rfl⟩ := mem_setCount.mp (elements ▸ member)
    have used := (kept.count old inside).2
    split <;> exact .inl used
  · rw [elements, setCount_addresses]
    exact kept.addresses
  · rw [elements, setCount_locations]
    exact kept.locations

/-- `s4bxi_shared_malloc` keeps the maps exact. -/
theorem Kept.malloc (kept : s.Kept) {size : Nat} {filename : String}
    {line : Int} {mem element : Addr} {fd : Int}
    (bounded : (SharedCall.malloc size filename line mem fd element).Sole s)
    (stepped : sharedStep s (.malloc size filename line mem fd element) =
      some after) : after.Kept := by
  obtain ⟨⟨positive, fits, fresh⟩, equal⟩ :=
    Option.ite_none_right_eq_some.mp stepped
  cases equal
  cases found : s.findAlloc (sourceLocation filename line) with
  | none =>
      apply kept.allocated element [] positive fits bounded
      · simp only [sharedMallocLocal, found, shmMap]
      · rfl
      · apply kept.counted_new fd found fresh
        simp only [sharedMallocLocal, found, shmMap, call]
  | some alloc =>
      apply kept.allocated alloc.address [] positive fits bounded
      · simp only [sharedMallocLocal, found, shmMap, setCount]
      · rfl
      · apply kept.counted_old found bounded
        simp only [sharedMallocLocal, found, shmMap, setCount, call]

/-- An allocation which is one too many for the counter. -/
theorem Kept.malloc_bounded (kept : s.Kept) {size : Nat} {filename : String}
    {line : Int} {mem element : Addr} {fd : Int} (exact : after.Exact)
    (stepped : sharedStep s (.malloc size filename line mem fd element) =
      some after) :
    (SharedCall.malloc size filename line mem fd element).Sole s := by
  obtain ⟨⟨positive, fits, fresh⟩, equal⟩ :=
    Option.ite_none_right_eq_some.mp stepped
  cases equal
  change s.number (sourceLocation filename line) + 1 < 2 ^ 31
  have small := kept.small (sourceLocation filename line)
  cases found : s.findAlloc (sourceLocation filename line) with
  | none =>
      rw [number_eq_zero kept (findAlloc_none found)]
      omega
  | some alloc =>
      obtain ⟨element, place⟩ := findAlloc_some found
      have old := (kept.count alloc element).1
      have counted := exact.count
        { alloc with
          data := { alloc.data with
            count := wrapInt (alloc.data.count + 1) } } (by
        simp only [sharedMallocLocal, found]
        exact mem_setCount.mpr ⟨alloc, element, by rw [if_pos rfl]⟩)
      have new := counted.1
      rw [number_append (s := s) rfl] at new
      simp only [place, if_true] at new old
      rw [old] at new
      unfold wrapInt at new
      omega

/-- The spec of `s4bxi_shared_free` on a live allocation. -/
theorem Kept.sharedFree_live (kept : s.Kept) {allocation : Allocation}
    (member : allocation ∈ s.live) :
    ∃ alloc ∈ s.allocs, alloc.location = allocation.location ∧
      s.sharedFree allocation.ptr = some
        (if s.number allocation.location = 1 then
          { (s.call (.munmap allocation.ptr allocation.size)).call
              (.close alloc.data.fd) with
            allocs := s.allocs.filter fun other =>
              other.location ≠ allocation.location
            allocsMetadata := s.allocsMetadata.erase allocation.ptr }
        else
          (s.call (.munmap allocation.ptr allocation.size)).setCount
            alloc.address (s.number allocation.location - 1)) := by
  obtain ⟨metadata, entry⟩ := kept.entry allocation member
  obtain ⟨other, inside, same, -, own, whole, alloc, element, address, place⟩ :=
    kept.describes entry
  have equal := List.inj_on_of_nodup_map kept.once inside member same
  subst equal
  refine ⟨alloc, element, place, ?_⟩
  have count := (kept.count alloc element).1
  have some' := number_pos member
  have small := kept.small other.location
  have next : wrapInt (alloc.data.count - 1) = s.number other.location - 1 := by
    rw [count, place]
    unfold wrapInt
    omega
  simp only [sharedFree, OrderedMap.find?_eq_some.mpr entry, ← address,
    deref_of_mem kept.addresses element, Option.bind_eq_bind, Option.bind_some,
    next, own, whole]
  by_cases sole : s.number other.location = 1
  · rw [if_pos (by omega), if_pos sole, place]
  · rw [if_neg (by omega), if_neg sole]

theorem number_split {front back : List Allocation} {allocation : Allocation}
    (shape : s.live = front ++ allocation :: back)
    (freed : after.live = front ++ back) (location : SourceLocation) :
    s.number location = after.number location +
      if allocation.location = location then 1 else 0 := by
  simp only [number, shape, freed, List.countP_append, List.countP_cons,
    decide_eq_true_eq]
  omega

/-- Freeing the only allocation of a location keeps the maps exact. -/
theorem Kept.free_sole (kept : s.Kept) {allocation : Allocation}
    (member : allocation ∈ s.live) (sole : s.number allocation.location = 1)
    (elements : after.allocs = s.allocs.filter fun other =>
      other.location ≠ allocation.location)
    (entries : after.allocsMetadata = s.allocsMetadata.erase allocation.ptr)
    (freed : after.live = s.live.eraseP fun other =>
      other.ptr = allocation.ptr) : after.Kept := by
  obtain ⟨front, back, shape, erased, others⟩ := live_split kept.once member
  rw [erased] at freed
  have number := number_split shape freed
  have sublist : (front ++ back).Sublist s.live := by
    rw [shape]
    exact (List.Sublist.refl front).append (List.sublist_cons_self _ _)
  have elsewhere : ∀ other ∈ front ++ back,
      other.location ≠ allocation.location := by
    intro other inside equal
    have left := number allocation.location
    rw [if_pos rfl, sole] at left
    have pos : 0 < after.number other.location :=
      number_pos (by rw [freed]; exact inside)
    rw [equal] at pos
    omega
  have split : ∀ other ∈ s.live, other.ptr ≠ allocation.ptr →
      other ∈ front ++ back := by
    intro other live different
    rw [shape] at live
    rcases List.mem_append.mp live with first | rest
    · exact List.mem_append_left _ first
    · rcases List.mem_cons.mp rest with rfl | last
      · exact absurd rfl different
      · exact List.mem_append_right _ last
  constructor
  · constructor
    · intro ptr metadata entry
      rw [entries] at entry
      obtain ⟨old, different⟩ := OrderedMap.mem_erase.mp entry
      obtain ⟨other, live, same, sizes, own, whole, alloc, element, address,
        place⟩ := kept.describes old
      have inside := split other live (same ▸ different)
      refine ⟨other, by rw [freed]; exact inside, same, sizes, own, whole,
        alloc, ?_, address, place⟩
      rw [elements]
      apply List.mem_filter.mpr
      exact ⟨element, decide_eq_true (place ▸ elsewhere other inside)⟩
    · intro other live
      rw [freed] at live
      obtain ⟨metadata, entry⟩ := kept.entry other (sublist.subset live)
      refine ⟨metadata, ?_⟩
      rw [entries]
      exact OrderedMap.mem_erase.mpr ⟨entry, others other live⟩
    · rw [freed]
      exact kept.once.sublist (sublist.map _)
    · rw [elements]
      exact kept.locations.sublist (List.filter_sublist.map _)
    · intro other live
      rw [freed] at live
      obtain ⟨alloc, element, place⟩ :=
        kept.located other (sublist.subset live)
      refine ⟨alloc, ?_, place⟩
      rw [elements]
      apply List.mem_filter.mpr
      exact ⟨element, decide_eq_true (place ▸ elsewhere other live)⟩
    · intro alloc element
      rw [elements] at element
      obtain ⟨old, different⟩ := List.mem_filter.mp element
      have apart : allocation.location ≠ alloc.location :=
        (of_decide_eq_true different).symm
      have left := number alloc.location
      rw [if_neg apart, add_zero] at left
      rw [← left]
      exact kept.count alloc old
  · rw [elements]
    exact kept.addresses.sublist (List.filter_sublist.map _)
  · intro other live
    rw [freed] at live
    exact kept.positive other (sublist.subset live)
  · rw [freed]
    intro first member second member'
    exact kept.apart first (sublist.subset member) second
      (sublist.subset member')
  · intro location
    have before := kept.small location
    have left := number location
    omega

/-- A metadata entry which stays behind its allocation is not exact. -/
theorem Exact.entry_live (exact : s.Exact) {ptr : Addr}
    {metadata : SharedMetadata}
    (entry : (ptr, metadata) ∈ s.allocsMetadata.entries) :
    ptr ∈ s.live.map Allocation.ptr := by
  obtain ⟨allocation, live, same, -⟩ := exact.describes entry
  exact List.mem_map.mpr ⟨allocation, live, same⟩

/-- `s4bxi_shared_free` keeps the maps exact for the only allocation of a
location, and for no other. -/
theorem Kept.free (kept : s.Kept) {ptr : Addr}
    (stepped : sharedStep s (.free ptr) = some after) :
    (after.Exact ↔ (SharedCall.free ptr).Sole s) ∧
      ((SharedCall.free ptr).Sole s → after.Kept) := by
  obtain ⟨live, result⟩ := Option.ite_none_right_eq_some.mp stepped
  obtain ⟨allocation, member, rfl⟩ := List.mem_map.mp live
  have only : (SharedCall.free allocation.ptr).Sole s ↔
      s.number allocation.location = 1 := by
    constructor
    · intro sole
      exact sole allocation member rfl
    · intro one other inside same
      rw [List.inj_on_of_nodup_map kept.once inside member same]
      exact one
  obtain ⟨alloc, element, place, freed⟩ := kept.sharedFree_live member
  rw [freed, Option.map_some, Option.some.injEq] at result
  rw [only]
  by_cases sole : s.number allocation.location = 1
  · rw [if_pos sole] at result
    have next : after.Kept := by
      apply kept.free_sole member sole <;> rw [← result]
    exact ⟨⟨fun _ => sole, fun _ => next.toExact⟩, fun _ => next⟩
  · rw [if_neg sole] at result
    subst result
    refine ⟨⟨fun exact => ?_, fun one => absurd one sole⟩,
      fun one => absurd one sole⟩
    obtain ⟨metadata, entry⟩ := kept.entry allocation member
    obtain ⟨front, back, -, erased, others⟩ := live_split kept.once member
    have stays := exact.entry_live entry
    simp only [erased] at stays
    obtain ⟨other, inside, same⟩ := List.mem_map.mp stays
    exact absurd same (others other inside)

/-- A live allocation with an address inside is the one with the greatest
pointer up to that address. -/
theorem Kept.greatest (kept : s.Kept) {inside other : Allocation} {ptr : Addr}
    (member : inside ∈ s.live) (covers : ptr < inside.ptr + inside.size)
    (member' : other ∈ s.live) (after : inside.ptr ≤ other.ptr)
    (before : other.ptr ≤ ptr) : other = inside := by
  by_contra different
  have apart : other.ptr ≠ inside.ptr := fun same =>
    different (List.inj_on_of_nodup_map kept.once member' member same)
  rcases kept.apart other member' inside member apart with low | high
  · have large := kept.positive other member'
    exact absurd (le_trans low after)
      (Nat.not_le_of_gt (Nat.lt_add_of_pos_right large))
  · exact absurd (lt_of_lt_of_le covers (le_trans high before))
      (lt_irrefl ptr)

/-- The entry below an address is the one of the allocation around it. -/
theorem Kept.below_iff (kept : s.Kept) (ptr : Addr) :
    (s.belowShared ptr).isSome ↔ ∃ allocation ∈ s.live,
      allocation.ptr < ptr ∧ ptr < allocation.ptr + allocation.size := by
  unfold belowShared
  constructor
  · intro answered
    split at answered
    · cases answered
    · rename_i base metadata last
      obtain ⟨entry, less⟩ :=
        OrderedMap.mem_split.1.mp (List.mem_of_getLast? last)
      obtain ⟨allocation, member, same, size, -⟩ := kept.describes entry
      split at answered
      · rename_i covers
        refine ⟨allocation, member, same ▸ less, ?_⟩
        rw [same, ← size]
        exact covers
      · cases answered
  · rintro ⟨allocation, member, less, covers⟩
    obtain ⟨metadata, entry⟩ := kept.entry allocation member
    cases last : (s.allocsMetadata.before ptr).getLast? with
    | none =>
        have inside := OrderedMap.mem_split.1.mpr ⟨entry, less⟩
        rw [List.getLast?_eq_none_iff.mp last] at inside
        cases inside
    | some found =>
        obtain ⟨base, metadata'⟩ := found
        have most := OrderedMap.before_last last entry less
        obtain ⟨entry', less'⟩ :=
          OrderedMap.mem_split.1.mp (List.mem_of_getLast? last)
        obtain ⟨other, member', same, size, -⟩ := kept.describes entry'
        have equal := kept.greatest member covers member' (same ▸ most)
          (same ▸ le_of_lt less')
        subst equal
        have bound : ptr < base + metadata'.size := by
          rw [size, ← same]
          exact covers
        simp only [bound, if_true, Option.isSome_some]

/-- `s4bxi_is_shared` answers 1 exactly inside the live allocations. -/
theorem Kept.isShared_iff (kept : s.Kept) (ptr : Addr) :
    (s.isShared ptr).isSome ↔ s.Inside ptr := by
  have below := kept.below_iff ptr
  have starts : ptr ∈ s.live.map Allocation.ptr → s.Inside ptr := by
    intro start
    obtain ⟨allocation, member, rfl⟩ := List.mem_map.mp start
    exact ⟨allocation, member, le_refl _,
      Nat.lt_add_of_pos_right (kept.positive allocation member)⟩
  have others : ptr ∉ s.live.map Allocation.ptr →
      ((s.belowShared ptr).isSome ↔ s.Inside ptr) := by
    intro different
    rw [below]
    constructor
    · rintro ⟨allocation, member, less, covers⟩
      exact ⟨allocation, member, le_of_lt less, covers⟩
    · rintro ⟨allocation, member, least, covers⟩
      refine ⟨allocation, member, lt_of_le_of_ne least ?_, covers⟩
      intro same
      exact different (List.mem_map.mpr ⟨allocation, member, same⟩)
  have entries : ∀ metadata, (ptr, metadata) ∈ s.allocsMetadata.entries →
      ptr ∈ s.live.map Allocation.ptr := fun _ entry =>
    kept.toExact.entry_live entry
  unfold isShared
  split
  · rename_i ends
    apply others
    intro start
    obtain ⟨allocation, member, rfl⟩ := List.mem_map.mp start
    obtain ⟨metadata, entry⟩ := kept.entry allocation member
    have inside := OrderedMap.mem_split.2.mpr ⟨entry, le_refl _⟩
    rw [ends] at inside
    cases inside
  · rename_i base metadata rest found
    have inside : (base, metadata) ∈ s.allocsMetadata.lowerBound ptr := by
      rw [found]
      exact List.mem_cons_self
    obtain ⟨entry, least⟩ := OrderedMap.mem_split.2.mp inside
    by_cases same : base = ptr
    · subst same
      simp only [if_true, Option.isSome_some, true_iff]
      exact starts (entries metadata entry)
    · rw [if_neg same]
      apply others
      intro start
      obtain ⟨allocation, member, rfl⟩ := List.mem_map.mp start
      obtain ⟨metadata', entry'⟩ := kept.entry allocation member
      have most := OrderedMap.lowerBound_head found entry' (le_refl _)
      exact same (le_antisymm most least)

/-- Freeing a live pointer unmaps its allocation and nothing else. -/
theorem Kept.unmaps (kept : s.Kept) {allocation : Allocation}
    (member : allocation ∈ s.live) :
    ∃ after rest, sharedStep s (.free allocation.ptr) = some after ∧
      after.calls = s.calls ++ .munmap allocation.ptr allocation.size :: rest ∧
      ∀ call ∈ rest, ∃ fd, call = .close fd := by
  obtain ⟨alloc, element, place, freed⟩ := kept.sharedFree_live member
  have live : allocation.ptr ∈ s.live.map Allocation.ptr :=
    List.mem_map.mpr ⟨allocation, member, rfl⟩
  simp only [sharedStep, if_pos live, freed, Option.map_some]
  by_cases sole : s.number allocation.location = 1
  · refine ⟨_, [.close alloc.data.fd], rfl, ?_, ?_⟩
    · rw [if_pos sole]
      simp [call]
    · intro call inside
      exact ⟨_, List.mem_singleton.mp inside⟩
  · refine ⟨_, [], rfl, ?_, ?_⟩
    · rw [if_neg sole]
      rfl
    · intro call inside
      cases inside

end SharedHeap

/-- One call which meets the condition keeps the maps exact, and no other. -/
theorem SharedHeap.Kept.step {s after : SharedHeap} (kept : s.Kept)
    {call : SharedCall} (stepped : sharedStep s call = some after) :
    (after.Exact ↔ call.Sole s) ∧ (call.Sole s → after.Kept) := by
  cases call with
  | malloc size filename line mem fd element =>
      refine ⟨⟨fun exact => kept.malloc_bounded exact stepped, ?_⟩, ?_⟩
      · exact fun sole => (kept.malloc sole stepped).toExact
      · exact fun sole => kept.malloc sole stepped
  | free ptr => exact kept.free stepped

theorem SharedHeap.kept_of_reached {s : SharedHeap}
    (reached : Reached sharedStep (fun s call => call.Sole s) {} s) :
    s.Kept :=
  reached.invariant kept_initial fun kept sole stepped =>
    (kept.step stepped).2 sole

/-- As long as pointers are only freed as the last allocation of their
location, the maps are exact, `s4bxi_is_shared` answers 1 exactly inside the
live allocations and `s4bxi_shared_free` of a live pointer unmaps exactly its
allocation; and the first call which breaks the condition makes the maps
inexact. -/
theorem shared_bookkeeping_iff {s : SharedHeap}
    (reached : Reached sharedStep (fun s call => call.Sole s) {} s) :
    s.Exact ∧ (∀ ptr, (s.isShared ptr).isSome ↔ s.Inside ptr) ∧
      (∀ allocation ∈ s.live, ∃ after rest,
        sharedStep s (.free allocation.ptr) = some after ∧
        after.calls =
          s.calls ++ .munmap allocation.ptr allocation.size :: rest ∧
        ∀ call ∈ rest, ∃ fd, call = .close fd) ∧
      ∀ call after, sharedStep s call = some after →
        (after.Exact ↔ call.Sole s) := by
  have kept := SharedHeap.kept_of_reached reached
  refine ⟨kept.toExact, kept.isShared_iff, ?_, ?_⟩
  · intro allocation member
    exact kept.unmaps member
  · intro call after stepped
    exact (kept.step stepped).1

/-- Of two allocations of one location, the first is freed: its metadata entry
stays, and its memory is still said to be shared. -/
theorem freed_allocation_stays_shared :
    ∃ s, Reached sharedStep Anything {} s ∧ ¬s.Exact ∧
      (s.isShared 4096).isSome ∧ ¬s.Inside 4096 := by
  obtain ⟨s, final, shared, entries, live⟩ :
      ∃ s, runLabels sharedStep (fun _ _ => true) {}
        [.malloc 100 "main.c" 7 4096 3 1, .malloc 100 "main.c" 7 8192 4 2,
          .free 4096] = some s ∧
        (s.isShared 4096).isSome ∧
        s.allocsMetadata.entries.map Prod.fst = [4096, 8192] ∧
        s.live.map Allocation.ptr = [8192] := ⟨_, rfl, rfl, rfl, rfl⟩
  refine ⟨s, reached_of_runLabels (fun _ _ _ => trivial) final, ?_, shared, ?_⟩
  · intro exact
    have first : 4096 ∈ s.allocsMetadata.entries.map Prod.fst := by
      rw [entries]
      exact List.mem_cons_self
    obtain ⟨⟨ptr, metadata⟩, entry, rfl⟩ := List.mem_map.mp first
    have start := exact.entry_live entry
    rw [live] at start
    cases List.mem_singleton.mp start
  · rintro ⟨allocation, member, least, -⟩
    have start : allocation.ptr ∈ [8192] := by
      rw [← live]
      exact List.mem_map.mpr ⟨allocation, member, rfl⟩
    rw [List.mem_singleton.mp start] at least
    exact absurd least (by decide)

/-- Allocations of two locations, one of which is freed. -/
theorem sole_allocations_bookkeeping :
    ∃ s, Reached sharedStep (fun s call => call.Sole s) {} s ∧
      s.live.map Allocation.ptr = [8192] ∧ s.Exact := by
  obtain ⟨s, final, live⟩ :
      ∃ s, runLabels sharedStep (fun s call => decide (call.Sole s)) {}
        [.malloc 100 "main.c" 7 4096 3 1, .malloc 100 "main.c" 8 8192 4 2,
          .free 4096] = some s ∧
        s.live.map Allocation.ptr = [8192] := ⟨_, rfl, rfl⟩
  have reached : Reached sharedStep (fun s call => call.Sole s) {} s :=
    reached_of_runLabels (fun _ _ => of_decide_eq_true) final
  exact ⟨s, reached, live, (shared_bookkeeping_iff reached).1⟩

end S4BXI
