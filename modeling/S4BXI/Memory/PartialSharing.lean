import Mathlib
import S4BXI.Lib.Intervals
import S4BXI.Lib.OrderedMap
import S4BXI.Memory.SharedMalloc

/-!
# Partially shared allocations

`s4bxi_shared_malloc_partial` reserves private memory and maps the pages of the
requested blocks onto a bogus file of one block unit.  A block is cut into a
low part, whole units and a high part with bit masks, which round to units
only when the unit is a power of two, and the high part of a block which
reaches the end of the allocation includes the last partial page.
-/

namespace S4BXI

open Lib

/-- `PAGE_SIZE`. -/
def pageSize : Nat := 0x1000

/-- `HUGE_PAGE_SIZE`. -/
def hugePageSize : Nat := 2 ^ 21

/-- `ALIGN_DOWN`. -/
def alignDown (n align : Nat) : BitVec 64 :=
  BitVec.ofNat 64 n &&& -BitVec.ofNat 64 align

/-- `ALIGN_UP`. -/
def alignUp (n align : Nat) : BitVec 64 :=
  (BitVec.ofNat 64 n + BitVec.ofNat 64 align - 1) &&& -BitVec.ofNat 64 align

/-- A successful `mmap` of the start of a bogus file at a fixed position. -/
structure Mapping where
  pos : Nat
  length : Nat
  huge : Bool
deriving DecidableEq

/-- The answers of the operating system.  Memory is reserved at the start of a
page and within the user addresses, of which there are at most `2 ^ 56`, as
are fixed mappings, and a file has no negative length. -/
structure Os where
  top : Nat
  top_le : top ≤ 2 ^ 56
  reserve : Nat → Option Nat
  reserve_fits : ∀ size mem, reserve size = some mem →
    mem % pageSize = 0 ∧ mem + size ≤ top
  truncate : Nat → Bool
  truncate_lt : ∀ length, truncate length = true → length < 2 ^ 63
  mapFixed : List Mapping → Mapping → Bool
  mapFixed_fits : ∀ maps mapping, mapFixed maps mapping = true →
    mapping.pos + mapping.length ≤ top

/-- The options `shared_malloc_blocksize` and `shared_malloc_hugepage`, the
latter only as far as it is set. -/
structure SharedMallocConfig where
  blocksize : Nat
  hugePage : Bool

/-- The length of the bogus file, whether the one with huge pages exists, and
`allocs_metadata`. -/
structure PartialHeap where
  bogusfile : Option Nat := none
  bogusfileHugePage : Bool := false
  allocsMetadata : OrderedMap Addr SharedMetadata := .empty

section Mappings

variable (os : Os) (mem : Nat)

def mapShared (maps : List Mapping) (mapping : Mapping) :
    Option (List Mapping) :=
  if os.mapFixed maps mapping then some (maps ++ [mapping]) else none

/-- The loop over whole units, which is not entered without a block size. -/
def mapBlocks (blocksize : Nat) (huge : Bool) (stop offset : Nat)
    (maps : List Mapping) : Option (List Mapping) :=
  if offset < stop then
    if 0 < blocksize then
      match mapShared os maps ⟨mem + offset, blocksize, huge⟩ with
      | some maps => mapBlocks blocksize huge stop (offset + blocksize) maps
      | none => none
    else none
  else some maps
termination_by stop - offset

/-- A low or a high part. -/
def mapPart (start stop : Nat) (maps : List Mapping) :
    Option (List Mapping) :=
  if start < stop then mapShared os maps ⟨mem + start, stop - start, false⟩
  else some maps

def highPageStop (size stopOffset : Nat) : Nat :=
  if stopOffset = size then size else (alignDown stopOffset pageSize).toNat

/-- One turn of the loop over the blocks. -/
def shareBlock (config : SharedMallocConfig) (size : Nat)
    (successor : Option (Nat × Nat)) (block : Nat × Nat)
    (maps : List Mapping) : Option (List Mapping) :=
  if block.1 < block.2 ∧ block.2 ≤ size ∧
      (successor.all fun next => decide (block.2 < next.1)) = true then
    let startBlockOffset := (alignUp block.1 config.blocksize).toNat
    let stopBlockOffset := (alignDown block.2 config.blocksize).toNat
    match mapBlocks os mem config.blocksize config.hugePage stopBlockOffset
        startBlockOffset maps with
    | none => none
    | some maps =>
        let lowPageStartOffset := (alignUp block.1 pageSize).toNat
        let lowPageStopOffset :=
          if (BitVec.ofNat 64 startBlockOffset).toInt <
              (alignDown block.2 pageSize).toInt then
            startBlockOffset
          else (alignDown block.2 pageSize).toNat
        match mapPart os mem lowPageStartOffset lowPageStopOffset maps with
        | none => none
        | some maps =>
            if lowPageStopOffset ≤ stopBlockOffset then
              mapPart os mem stopBlockOffset (highPageStop size block.2) maps
            else some maps
  else none

def shareBlocks (config : SharedMallocConfig) (size : Nat) :
    List (Nat × Nat) → List Mapping → Option (List Mapping)
  | [], maps => some maps
  | block :: rest, maps =>
      match shareBlock os mem config size rest.head? block maps with
      | some maps => shareBlocks config size rest maps
      | none => none

end Mappings

/-- `private_blocks` after the first block: from each block to the next one,
and from the last block to the end. -/
def privateBlocksAfter (size stopOffset : Nat) :
    List (Nat × Nat) → List (Nat × Nat)
  | [] => if stopOffset < size then [(stopOffset, size)] else []
  | block :: rest =>
      (stopOffset, block.1) :: privateBlocksAfter size block.2 rest

def privateBlocks (size : Nat) (first : Nat × Nat)
    (rest : List (Nat × Nat)) : List (Nat × Nat) :=
  (if first.1 > 0 then [(0, first.1)] else []) ++
    privateBlocksAfter size first.2 rest

/-- The assertion on the block size. -/
def SharedMallocConfig.accepted (config : SharedMallocConfig) : Bool :=
  if config.hugePage then decide (config.blocksize = hugePageSize)
  else decide (config.blocksize % pageSize = 0)

/-- `s4bxi_shared_malloc_partial` on an array of at least one block, with the
address of the new `data`.  The result is the pointer and the mappings, and
nothing when an assertion fails. -/
def sharedMallocPartial (os : Os) (config : SharedMallocConfig)
    (heap : PartialHeap) (size : Nat) (first : Nat × Nat)
    (rest : List (Nat × Nat)) (data : Addr) :
    Option (PartialHeap × Nat × List Mapping) :=
  if config.accepted then
    let allocatedSize :=
      if config.hugePage then (size + 2 * config.blocksize) % 2 ^ 64 else size
    match os.reserve allocatedSize with
    | none => none
    | some allocatedPtr =>
        let mem :=
          if config.hugePage then (alignUp allocatedPtr hugePageSize).toNat
          else allocatedPtr
        let bogusfileHugePage := heap.bogusfileHugePage || config.hugePage
        if heap.bogusfile.isNone ∧ os.truncate config.blocksize = false then
          none
        else
          match shareBlocks os mem config size (first :: rest) [] with
          | none => none
          | some maps =>
              let newmeta : SharedMetadata :=
                { size := size
                  allocatedSize := allocatedSize
                  allocatedPtr := allocatedPtr
                  privateBlocks := privateBlocks size first rest
                  data := data }
              some (⟨some (heap.bogusfile.getD config.blocksize),
                bogusfileHugePage, heap.allocsMetadata.insert mem newmeta⟩,
                mem, maps)
  else none

section Alignment

/-- A mask clears less than the alignment, and all of what a power of two
which divides the alignment leaves. -/
theorem and_neg_spec {value align power : Nat} (bounded : value < 2 ^ 64)
    (alignBounded : align < 2 ^ 64) (positive : 0 < align)
    (divides : 2 ^ power ∣ align) :
    (BitVec.ofNat 64 value &&& -BitVec.ofNat 64 align).toNat ≤ value ∧
      value <
        (BitVec.ofNat 64 value &&& -BitVec.ofNat 64 align).toNat + align ∧
      (BitVec.ofNat 64 value &&& -BitVec.ofNat 64 align).toNat %
        2 ^ power = 0 := by
  have complement :
      -BitVec.ofNat 64 align = ~~~(BitVec.ofNat 64 (align - 1)) := by
    apply BitVec.eq_of_toNat_eq
    simp only [BitVec.toNat_neg, BitVec.toNat_not, BitVec.toNat_ofNat]
    omega
  have disjoint : (BitVec.ofNat 64 value &&& BitVec.ofNat 64 (align - 1)) &&&
      (BitVec.ofNat 64 value &&& ~~~BitVec.ofNat 64 (align - 1)) = 0 := by
    ext index
    simp only [BitVec.getElem_and, BitVec.getElem_not]
    cases (BitVec.ofNat 64 (align - 1))[index] <;> simp
  have joined : (BitVec.ofNat 64 value &&& BitVec.ofNat 64 (align - 1)) |||
      (BitVec.ofNat 64 value &&& ~~~BitVec.ofNat 64 (align - 1)) =
      BitVec.ofNat 64 value := by
    ext index
    simp only [BitVec.getElem_or, BitVec.getElem_and, BitVec.getElem_not]
    cases (BitVec.ofNat 64 value)[index] <;>
      cases (BitVec.ofNat 64 (align - 1))[index] <;> rfl
  have sum := congrArg BitVec.toNat
    ((BitVec.add_eq_or_of_and_eq_zero _ _ disjoint).trans joined)
  rw [BitVec.toNat_add_of_and_eq_zero disjoint, ← complement,
    BitVec.toNat_ofNat, Nat.mod_eq_of_lt bounded] at sum
  have cleared : (BitVec.ofNat 64 value &&&
      BitVec.ofNat 64 (align - 1)).toNat ≤ align - 1 := by
    rw [BitVec.toNat_and]
    apply Nat.le_trans Nat.and_le_right
    rw [BitVec.toNat_ofNat]
    exact Nat.mod_le _ _
  refine ⟨by omega, by omega, ?_⟩
  have small : 2 ^ power < 2 ^ 64 :=
    Nat.lt_of_le_of_lt (Nat.le_of_dvd positive divides) alignBounded
  have whole : 2 ^ power ∣ 2 ^ 64 :=
    Nat.pow_dvd_pow 2 (Nat.le_of_lt ((Nat.pow_lt_pow_iff_right (by decide)).mp
      small))
  have negated : (-BitVec.ofNat 64 align).toNat % 2 ^ power = 0 := by
    rw [BitVec.toNat_neg, BitVec.toNat_ofNat, Nat.mod_eq_of_lt alignBounded,
      Nat.mod_eq_of_lt (by omega : 2 ^ 64 - align < 2 ^ 64)]
    exact Nat.mod_eq_zero_of_dvd (Nat.dvd_sub whole divides)
  rw [BitVec.toNat_and, Nat.and_mod_two_pow, negated, Nat.and_zero]

theorem alignDown_spec {n align : Nat} (power : Nat) (bounded : n < 2 ^ 64)
    (alignBounded : align < 2 ^ 64) (positive : 0 < align)
    (divides : 2 ^ power ∣ align) :
    (alignDown n align).toNat ≤ n ∧ n < (alignDown n align).toNat + align ∧
      (alignDown n align).toNat % 2 ^ power = 0 :=
  and_neg_spec bounded alignBounded positive divides

theorem alignUp_spec {n align : Nat} (power : Nat) (bounded : n + align ≤ 2 ^ 64)
    (alignBounded : align < 2 ^ 64) (positive : 0 < align)
    (divides : 2 ^ power ∣ align) :
    n ≤ (alignUp n align).toNat ∧ (alignUp n align).toNat < n + align ∧
      (alignUp n align).toNat % 2 ^ power = 0 := by
  have shifted : BitVec.ofNat 64 n + BitVec.ofNat 64 align - 1 =
      BitVec.ofNat 64 (n + align - 1) := by
    apply BitVec.eq_of_toNat_eq
    have one : (1 : BitVec 64).toNat = 1 := rfl
    simp only [BitVec.toNat_sub, BitVec.toNat_add, BitVec.toNat_ofNat, one]
    omega
  rw [alignUp, shifted]
  obtain ⟨below, above, rounded⟩ := and_neg_spec
    (by omega : n + align - 1 < 2 ^ 64) alignBounded positive divides
  exact ⟨by omega, by omega, rounded⟩

/-- Nothing is left of an offset by an alignment to nothing. -/
theorem align_zero (n : Nat) :
    (alignUp n 0).toNat = 0 ∧ (alignDown n 0).toNat = 0 := by
  constructor <;> simp [alignUp, alignDown]

theorem alignDown_page {n : Nat} (bounded : n < 2 ^ 64) :
    (alignDown n pageSize).toNat ≤ n ∧
      n < (alignDown n pageSize).toNat + pageSize ∧
      (alignDown n pageSize).toNat % pageSize = 0 :=
  alignDown_spec 12 bounded (by decide) (by decide) (by decide)

theorem alignUp_page {n : Nat} (bounded : n + pageSize ≤ 2 ^ 64) :
    n ≤ (alignUp n pageSize).toNat ∧
      (alignUp n pageSize).toNat < n + pageSize ∧
      (alignUp n pageSize).toNat % pageSize = 0 :=
  alignUp_spec 12 bounded (by decide) (by decide) (by decide)

end Alignment

end S4BXI
