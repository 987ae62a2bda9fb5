import Mathlib
import S4BXI.Memory.SharedRegions

/-!
# What a partial allocation shares

With pages of ordinary size, `s4bxi_shared_malloc_partial` shares what was
asked for exactly when the block units fit between the ends of each block, no
pages are left out between its low part and its high part, and no block begins
in a last partial page which begins a unit.
-/

namespace S4BXI

open Lib

/-- What is asked of a partial allocation: pages are mapped from their starts,
within the blocks, and all pages of the blocks are; the private blocks in the
metadata are the maximal intervals in between. -/
structure SharesExactly (size : Nat) (blocks : List (Nat × Nat))
    (after : PartialHeap) (mem : Nat) (maps : List Mapping) : Prop where
  aligned : ∀ mapping ∈ maps, mapping.pos % pageSize = 0
  shared : ∀ byte < size, Mapped maps (mem + byte) → Covers blocks byte
  pages : ∀ block ∈ blocks, ∀ page, block.1 ≤ page * pageSize →
    (page + 1) * pageSize ≤ block.2 → ∀ byte, page * pageSize ≤ byte →
    byte < (page + 1) * pageSize → Mapped maps (mem + byte)
  privateBlocks : ∃ metadata,
    after.allocsMetadata.find? mem = some metadata ∧
    (metadata.privateBlocks.Pairwise fun first second =>
      first.2 < second.1) ∧
    ∀ interval, interval ∈ metadata.privateBlocks ↔
      MaximalInterval (fun byte => byte < size ∧ ¬ Covers blocks byte)
        interval

/-- A block whose pages can be mapped in units of the block size. -/
structure FoldableBlock (blocksize size : Nat) (block : Nat × Nat) :
    Prop where
  /-- The whole units end within the block, or at least not before bytes of
  the allocation which are private. -/
  unitsFit : (alignUp block.1 blocksize).toNat <
      (alignDown block.2 blocksize).toNat →
    block.2 = size ∨
      unitsEnd blocksize (alignDown block.2 blocksize).toNat
        (alignUp block.1 blocksize).toNat ≤ block.2
  /-- Without whole units, the low part reaches the last page. -/
  noHole : (alignDown block.2 blocksize).toNat <
      (alignUp block.1 blocksize).toNat →
    (alignDown block.2 pageSize).toNat ≤ (alignUp block.1 blocksize).toNat
  /-- A block which begins in the last page of the allocation does so in a
  page which does not begin a unit. -/
  lastPage : block.2 = size → (alignDown block.2 pageSize).toNat < block.1 →
    (alignDown block.2 blocksize).toNat ≠ (alignDown block.2 pageSize).toNat

/-- The blocks which can be shared exactly.  Without a block size, everything
up to the last page of each block is mapped. -/
def Foldable (blocksize size : Nat) (first : Nat × Nat)
    (rest : List (Nat × Nat)) : Prop :=
  if blocksize = 0 then
    ∀ block ∈ first :: rest, highPageStop size block.2 = 0 ∨
      (first.1 = 0 ∧ highPageStop size block.2 ≤ first.2)
  else ∀ block ∈ first :: rest, FoldableBlock blocksize size block

/-- A call with the answers it gets. -/
structure PartialCall where
  os : Os
  size : Nat
  first : Nat × Nat
  rest : List (Nat × Nat)
  data : Addr

def partialStep (config : SharedMallocConfig) (heap : PartialHeap)
    (call : PartialCall) : Option PartialHeap :=
  (sharedMallocPartial call.os config heap call.size call.first call.rest
    call.data).map Prod.fst

/-- The bogus file, once it exists, has the length of a unit. -/
def PartialHeap.Prepared (heap : PartialHeap) (config : SharedMallocConfig) :
    Prop :=
  ∀ length, heap.bogusfile = some length →
    length = config.blocksize ∧ length < 2 ^ 63

section Calls

variable {os : Os} {config : SharedMallocConfig} {heap after : PartialHeap}
  {size mem : Nat} {first : Nat × Nat} {rest : List (Nat × Nat)}
  {data : Addr} {maps : List Mapping}

/-- The steps of a call which returns. -/
theorem sharedMallocPartial_returns
    (returned : sharedMallocPartial os config heap size first rest data =
      some (after, mem, maps)) :
    (heap.bogusfile = none → config.blocksize < 2 ^ 63) ∧
      after.bogusfile = some (heap.bogusfile.getD config.blocksize) ∧
      (config.hugePage = false → config.blocksize % pageSize = 0 ∧
        mem % pageSize = 0 ∧ mem + size ≤ os.top) ∧
      shareBlocks os mem config size (first :: rest) [] = some maps ∧
      ∃ metadata, after.allocsMetadata.find? mem = some metadata ∧
        metadata.privateBlocks = privateBlocks size first rest := by
  unfold sharedMallocPartial at returned
  by_cases accepted : config.accepted = true
  · rw [if_pos accepted] at returned
    cases reserved : os.reserve (if config.hugePage then
        (size + 2 * config.blocksize) % 2 ^ 64 else size) with
    | none => simp only [reserved, reduceCtorEq] at returned
    | some allocatedPtr =>
        simp only [reserved] at returned
        by_cases failed : heap.bogusfile.isNone ∧
            os.truncate config.blocksize = false
        · simp only [if_pos failed, reduceCtorEq] at returned
        · rw [if_neg failed] at returned
          cases found : shareBlocks os (if config.hugePage then
              (alignUp allocatedPtr hugePageSize).toNat else allocatedPtr)
              config size (first :: rest) [] with
          | none => simp only [found, reduceCtorEq] at returned
          | some mapped =>
              simp only [found] at returned
              cases returned
              refine ⟨?_, rfl, ?_, found, _,
                OrderedMap.find?_eq_some.mpr (OrderedMap.mem_insert.mpr
                  (.inl rfl)), rfl⟩
              · intro missing
                apply os.truncate_lt
                by_contra kept
                exact failed ⟨by rw [missing, Option.isNone_none],
                  Bool.not_eq_true _ ▸ kept⟩
              · intro small
                simp only [small, SharedMallocConfig.accepted,
                  Bool.false_eq_true, if_false, decide_eq_true_eq]
                  at accepted reserved ⊢
                exact ⟨accepted, os.reserve_fits _ _ reserved⟩
  · rw [if_neg accepted] at returned
    cases returned

theorem prepared_of_reached
    (reached : Reached (partialStep config) Anything {} heap) :
    heap.Prepared config := by
  apply reached.invariant
  · intro length missing
    cases missing
  · intro before after call prepared _ stepped
    obtain ⟨⟨final, mem, maps⟩, returned, rfl⟩ :=
      Option.map_eq_some_iff.mp stepped
    obtain ⟨created, bogusfile, _⟩ := sharedMallocPartial_returns returned
    intro length existing
    rw [bogusfile] at existing
    cases existing
    cases known : before.bogusfile with
    | none => exact ⟨rfl, created known⟩
    | some length => exact prepared length known

end Calls

section Blocks

variable {blocksize size : Nat} {block : Nat × Nat}

/-- Where the parts of a block begin and end. -/
structure Cut (blocksize size : Nat) (block : Nat × Nat) : Prop where
  filled : block.1 < block.2
  inside : block.2 ≤ size
  startBlock : block.1 ≤ (alignUp block.1 blocksize).toNat ∧
    (alignUp block.1 blocksize).toNat % 4096 = 0
  stopBlock : (alignDown block.2 blocksize).toNat ≤ block.2 ∧
    (alignDown block.2 blocksize).toNat % 4096 = 0
  startPage : block.1 ≤ (alignUp block.1 pageSize).toNat ∧
    (alignUp block.1 pageSize).toNat < block.1 + 4096 ∧
    (alignUp block.1 pageSize).toNat % 4096 = 0
  stopPage : (alignDown block.2 pageSize).toNat ≤ block.2 ∧
    block.2 < (alignDown block.2 pageSize).toNat + 4096 ∧
    (alignDown block.2 pageSize).toNat % 4096 = 0

theorem cut_of_aligned (filled : block.1 < block.2) (inside : block.2 ≤ size)
    (limited : size ≤ 2 ^ 56) (bounded : blocksize < 2 ^ 63)
    (positive : 0 < blocksize) (sizeAligned : blocksize % pageSize = 0) :
    Cut blocksize size block := by
  have divides : 2 ^ 12 ∣ blocksize := Nat.dvd_of_mod_eq_zero sizeAligned
  have start := alignUp_spec (n := block.1) 12 (by omega) (by omega) positive
    divides
  have stop := alignDown_spec (n := block.2) 12 (by omega) (by omega) positive
    divides
  exact ⟨filled, inside, ⟨start.1, start.2.2⟩, ⟨stop.1, stop.2.2⟩,
    alignUp_page (by simp only [pageSize]; omega), alignDown_page (by omega)⟩

theorem pageCeil_le (length : Nat) :
    length ≤ pageCeil length ∧ pageCeil length < length + 4096 ∧
      (length % 4096 = 0 → pageCeil length = length) := by
  simp only [pageCeil, pageSize]
  omega

/-- The high part of a block ends with its last page, or with the
allocation. -/
theorem highPageStop_cases (size stopOffset : Nat) :
    (stopOffset = size ∧ highPageStop size stopOffset = size) ∨
      (stopOffset ≠ size ∧ highPageStop size stopOffset =
        (alignDown stopOffset pageSize).toNat) := by
  by_cases last : stopOffset = size
  · exact .inl ⟨last, if_pos last⟩
  · exact .inr ⟨last, if_neg last⟩

/-- What is shared for a block lies within the block. -/
theorem Region.inside (cut : Cut blocksize size block)
    (unitsFit : (alignUp block.1 blocksize).toNat <
        (alignDown block.2 blocksize).toNat →
      block.2 = size ∨
        unitsEnd blocksize (alignDown block.2 blocksize).toNat
          (alignUp block.1 blocksize).toNat ≤ block.2)
    (lastPage : block.2 = size →
      (alignDown block.2 pageSize).toNat < block.1 →
      (alignDown block.2 blocksize).toNat ≠
        (alignDown block.2 pageSize).toNat)
    {byte : Nat} (within : byte < size)
    (shared : Region blocksize size block byte) :
    block.1 ≤ byte ∧ byte < block.2 := by
  obtain ⟨filled, bounded, startBlock, stopBlock, startPage, stopPage⟩ := cut
  rcases shared with ⟨above, below⟩ | ⟨above, below⟩ | ⟨touching, above, below⟩
  · refine ⟨by omega, ?_⟩
    by_cases units : (alignUp block.1 blocksize).toNat <
        (alignDown block.2 blocksize).toNat
    · rcases unitsFit units with last | fits
      · omega
      · omega
    · rw [unitsEnd_of_le (by omega)] at below
      omega
  · have ceil := pageCeil_le (min (alignUp block.1 blocksize).toNat
      (alignDown block.2 pageSize).toNat - (alignUp block.1 pageSize).toNat)
    have whole := ceil.2.2 (by omega)
    omega
  · have ceil := pageCeil_le (highPageStop size block.2 -
      (alignDown block.2 blocksize).toNat)
    rcases highPageStop_cases size block.2 with ⟨last, stop⟩ | ⟨notLast, stop⟩
    · have separate := lastPage last
      rw [stop] at ceil below
      omega
    · have whole := ceil.2.2 (by omega)
      omega

/-- All whole pages of a block are shared. -/
theorem Region.of_page (cut : Cut blocksize size block)
    (positive : 0 < blocksize)
    (foldable : FoldableBlock blocksize size block) {page byte : Nat}
    (begins : block.1 ≤ page * pageSize)
    (ends : (page + 1) * pageSize ≤ block.2)
    (above : page * pageSize ≤ byte) (below : byte < (page + 1) * pageSize) :
    Region blocksize size block byte := by
  obtain ⟨filled, bounded, startBlock, stopBlock, startPage, stopPage⟩ := cut
  simp only [pageSize] at begins ends above below startPage stopPage
  have lowCeil := pageCeil_le (min (alignUp block.1 blocksize).toNat
    (alignDown block.2 pageSize).toNat - (alignUp block.1 pageSize).toNat)
  have highCeil := pageCeil_le (highPageStop size block.2 -
    (alignDown block.2 blocksize).toNat)
  have high : (alignDown block.2 pageSize).toNat ≤
      highPageStop size block.2 := by
    rcases highPageStop_cases size block.2 with ⟨last, stop⟩ | ⟨_, stop⟩
    · simp only [pageSize]
      omega
    · exact Nat.le_of_eq stop.symm
  have hole := foldable.noHole
  simp only [pageSize] at lowCeil high hole
  simp only [Region, pageSize]
  by_cases low : byte < (alignUp block.1 blocksize).toNat
  · right
    left
    omega
  · by_cases unit : byte < (alignDown block.2 blocksize).toNat
    · left
      have reached := (le_unitsEnd positive : (alignDown block.2 blocksize).toNat
        ≤ unitsEnd blocksize _ (alignUp block.1 blocksize).toNat ∧ _).1
      omega
    · right
      right
      omega

/-- In units of a power of two, only a block which begins in the last page of
the allocation, where the page begins a unit, cannot be shared exactly. -/
theorem foldableBlock_power_iff {unit : Nat} (power : blocksize = 2 ^ unit)
    (whole : blocksize % pageSize = 0) (bounded : blocksize < 2 ^ 63)
    (filled : block.1 < block.2) (inside : block.2 ≤ size)
    (limited : size ≤ 2 ^ 56) :
    FoldableBlock blocksize size block ↔
      (block.2 = size → (alignDown block.2 pageSize).toNat < block.1 →
        (alignDown block.2 pageSize).toNat % blocksize ≠ 0) := by
  have positive : 0 < blocksize := power ▸ Nat.two_pow_pos unit
  have cut := cut_of_aligned filled inside limited bounded positive whole
  have divides : 2 ^ unit ∣ blocksize := by rw [power]
  have start := alignUp_spec (n := block.1) unit (by omega) (by omega)
    positive divides
  have stop := alignDown_spec (n := block.2) unit (by omega) (by omega)
    positive divides
  obtain ⟨-, -, startBlock, stopBlock, -, stopPage⟩ := cut
  rw [← power] at start stop
  obtain ⟨low, startUnits⟩ := Nat.dvd_of_mod_eq_zero start.2.2
  obtain ⟨high, stopUnits⟩ := Nat.dvd_of_mod_eq_zero stop.2.2
  have ordered : ∀ {few many : Nat}, blocksize * few < blocksize * many →
      blocksize * few + blocksize ≤ blocksize * many := by
    intro few many less
    rw [← Nat.mul_succ]
    exact Nat.mul_le_mul_left _ (Nat.lt_of_mul_lt_mul_left less)
  have lastUnit : (alignDown block.2 blocksize).toNat =
      (alignDown block.2 pageSize).toNat ↔
        (alignDown block.2 pageSize).toNat % blocksize = 0 := by
    constructor
    · intro same
      rw [← same]
      exact stop.2.2
    · intro units
      obtain ⟨pages, pageUnits⟩ := Nat.dvd_of_mod_eq_zero units
      by_contra different
      have apart : blocksize * high < blocksize * pages := by omega
      have later := ordered apart
      omega
  constructor
  · intro foldable last begins units
    exact foldable.lastPage last begins (lastUnit.mpr units)
  · intro separate
    constructor
    · intro units
      right
      have ended : unitsEnd blocksize (alignDown block.2 blocksize).toNat
          (alignUp block.1 blocksize).toNat =
          (alignDown block.2 blocksize).toNat := by
        have count : (blocksize * high - blocksize * low + blocksize - 1) /
            blocksize = high - low := by
          rw [← Nat.mul_sub, Nat.add_sub_assoc positive,
            Nat.mul_add_div positive,
            Nat.div_eq_of_lt (Nat.sub_lt positive Nat.one_pos), Nat.add_zero]
        rw [unitsEnd, startUnits, stopUnits, count, Nat.sub_mul,
          Nat.mul_comm high, Nat.mul_comm low]
        omega
      omega
    · intro noUnits
      have later : blocksize * high + blocksize ≤ blocksize * low :=
        ordered (by omega)
      omega
    · intro last begins same
      exact separate last begins (lastUnit.mp same)

end Blocks

section Exactness

variable {os : Os} {config : SharedMallocConfig} {heap after : PartialHeap}
  {size mem : Nat} {first : Nat × Nat} {rest : List (Nat × Nat)}
  {data : Addr} {maps : List Mapping}

/-- What a call has passed and mapped when it returns. -/
structure Returned (blocksize size : Nat) (first : Nat × Nat)
    (rest : List (Nat × Nat)) (after : PartialHeap) (mem : Nat)
    (maps : List Mapping) : Prop where
  separated : Separated (first :: rest)
  inside : ∀ block ∈ first :: rest, block.2 ≤ size
  limited : size ≤ 2 ^ 56
  bounded : blocksize < 2 ^ 63
  sizeAligned : blocksize % pageSize = 0
  aligned : ∀ mapping ∈ maps, mapping.pos % pageSize = 0
  mapped : ∀ byte, Mapped maps (mem + byte) ↔
    ∃ block ∈ first :: rest, Region blocksize size block byte
  metadata : ∃ metadata, after.allocsMetadata.find? mem = some metadata ∧
    metadata.privateBlocks = privateBlocks size first rest

theorem returned_of_reached (smallPages : config.hugePage = false)
    (reached : Reached (partialStep config) Anything {} heap)
    (returned : sharedMallocPartial os config heap size first rest data =
      some (after, mem, maps)) :
    Returned config.blocksize size first rest after mem maps := by
  obtain ⟨created, -, small, shared, metadata⟩ :=
    sharedMallocPartial_returns returned
  obtain ⟨sizeAligned, memAligned, fits⟩ := small smallPages
  have bounded : config.blocksize < 2 ^ 63 := by
    cases known : heap.bogusfile with
    | none => exact created known
    | some length =>
        obtain ⟨same, small⟩ := prepared_of_reached reached length known
        exact same ▸ small
  have topBound := os.top_le
  obtain ⟨separated, inside, pieces, appended, aligned, mapped⟩ :=
    shareBlocks_adds memAligned fits sizeAligned bounded shared
  rw [List.nil_append] at appended
  subst appended
  exact ⟨separated, inside, by omega, bounded, sizeAligned, aligned, mapped,
    metadata⟩

theorem Returned.cut {blocksize : Nat}
    (call : Returned blocksize size first rest after mem maps)
    (positive : 0 < blocksize) {block : Nat × Nat}
    (member : block ∈ first :: rest) : Cut blocksize size block :=
  cut_of_aligned (call.separated.nonempty block member)
    (call.inside block member) call.limited call.bounded positive
    call.sizeAligned

/-- The private blocks are right whatever has been mapped. -/
theorem Returned.privateBlocks {blocksize : Nat}
    (call : Returned blocksize size first rest after mem maps) :
    ∃ metadata, after.allocsMetadata.find? mem = some metadata ∧
      (metadata.privateBlocks.Pairwise fun first second =>
        first.2 < second.1) ∧
      ∀ interval, interval ∈ metadata.privateBlocks ↔
        MaximalInterval
          (fun byte => byte < size ∧ ¬ Covers (first :: rest) byte)
          interval := by
  obtain ⟨metadata, found, blocks⟩ := call.metadata
  have apart : Separated (gaps size 0 (first :: rest)) :=
    gaps_separated call.separated fun _ _ => Nat.zero_le _
  have covered : Covers (gaps size 0 (first :: rest)) =
      fun byte => byte < size ∧ ¬ Covers (first :: rest) byte := by
    funext byte
    rw [covers_gaps call.separated (fun _ _ => Nat.zero_le _) call.inside]
    simp only [Nat.zero_le, true_and]
  refine ⟨metadata, found, ?_, ?_⟩
  · rw [blocks, privateBlocks_eq_gaps call.separated]
    exact apart.ordered
  · intro interval
    rw [blocks, privateBlocks_eq_gaps call.separated, apart.mem_iff_maximal,
      covered]

theorem region_zero {block : Nat × Nat} {byte : Nat} :
    Region 0 size block byte ↔
      byte < pageCeil (highPageStop size block.2) := by
  simp only [Region, (align_zero _).1, (align_zero _).2,
    unitsEnd_of_le (Nat.le_refl 0), pageCeil, pageSize]
  omega

theorem highPageStop_le {stopOffset : Nat} (inside : stopOffset ≤ size)
    (limited : size ≤ 2 ^ 56) :
    highPageStop size stopOffset ≤ stopOffset ∧
      (alignDown stopOffset pageSize).toNat ≤ highPageStop size stopOffset ∧
      (highPageStop size stopOffset = size ∨
        highPageStop size stopOffset % 4096 = 0) := by
  have page : _ ∧ _ ∧ _ % 4096 = 0 :=
    alignDown_page (n := stopOffset) (by omega)
  rcases highPageStop_cases size stopOffset with ⟨last, stop⟩ | ⟨_, stop⟩
  · omega
  · omega

/-- Without a block size. -/
theorem Returned.exact_zero_iff
    (call : Returned 0 size first rest after mem maps) :
    SharesExactly size (first :: rest) after mem maps ↔
      ∀ block ∈ first :: rest, highPageStop size block.2 = 0 ∨
        (first.1 = 0 ∧ highPageStop size block.2 ≤ first.2) := by
  have high : ∀ block ∈ first :: rest, _ := fun block member =>
    highPageStop_le (call.inside block member) call.limited
  constructor
  · intro exactly block member
    rcases Nat.eq_zero_or_pos (highPageStop size block.2) with none | some
    · exact .inl none
    right
    have covered : ∀ byte < highPageStop size block.2,
        Covers (first :: rest) byte := by
      intro byte below
      have inside := call.inside block member
      have bound := high block member
      apply exactly.shared byte (by omega)
      apply (call.mapped byte).mpr
      exact ⟨block, member, region_zero.mpr
        (Nat.lt_of_lt_of_le below (pageCeil_le _).1)⟩
    constructor
    · obtain ⟨other, otherIn, begins, _⟩ := covered 0 some
      rcases List.mem_cons.mp otherIn with rfl | later
      · omega
      · have filled := call.separated.nonempty first List.mem_cons_self
        have before := call.separated.head_before other later
        omega
    · by_contra longer
      exact call.separated.not_covers_stop List.mem_cons_self
        (covered first.2 (by omega))
  · intro foldable
    refine ⟨call.aligned, ?_, ?_, call.privateBlocks⟩
    · intro byte within mapped
      obtain ⟨block, member, shared⟩ := (call.mapped byte).mp mapped
      have below := region_zero.mp shared
      have ceil := pageCeil_le (highPageStop size block.2)
      have bound := high block member
      rcases foldable block member with none | ⟨begins, ends⟩
      · rw [none] at below
        simp [pageCeil, pageSize] at below
      · refine ⟨first, List.mem_cons_self, by omega, ?_⟩
        rcases bound.2.2 with last | whole
        · omega
        · have exactly := ceil.2.2 whole
          omega
    · intro block member page begins ends byte above below
      apply (call.mapped byte).mpr
      refine ⟨block, member, region_zero.mpr ?_⟩
      have inside := call.inside block member
      have limited := call.limited
      have stopPage : _ ∧ _ ∧ _ % 4096 = 0 :=
        alignDown_page (n := block.2) (by omega)
      have bound := high block member
      have ceil := pageCeil_le (highPageStop size block.2)
      simp only [pageSize] at ends below stopPage bound
      omega

/-- With a block size. -/
theorem Returned.exact_iff {blocksize : Nat} (positive : 0 < blocksize)
    (call : Returned blocksize size first rest after mem maps) :
    SharesExactly size (first :: rest) after mem maps ↔
      ∀ block ∈ first :: rest, FoldableBlock blocksize size block := by
  constructor
  · intro exactly
    have covered : ∀ block ∈ first :: rest, ∀ byte < size,
        Region blocksize size block byte → Covers (first :: rest) byte := by
      intro block member byte within shared
      exact exactly.shared byte within
        ((call.mapped byte).mpr ⟨block, member, shared⟩)
    have unitsFit : ∀ block ∈ first :: rest,
        (alignUp block.1 blocksize).toNat <
          (alignDown block.2 blocksize).toNat →
        block.2 = size ∨
          unitsEnd blocksize (alignDown block.2 blocksize).toNat
            (alignUp block.1 blocksize).toNat ≤ block.2 := by
      intro block member units
      by_contra longer
      rw [not_or] at longer
      have cut := call.cut positive member
      have stop := cut.stopBlock
      have inside := cut.inside
      apply call.separated.not_covers_stop member
      exact covered block member block.2 (by omega)
        (.inl ⟨by omega, by omega⟩)
    have lastPage : ∀ block ∈ first :: rest, block.2 = size →
        (alignDown block.2 pageSize).toNat < block.1 →
        (alignDown block.2 blocksize).toNat ≠
          (alignDown block.2 pageSize).toNat := by
      intro block member last begins same
      have cut := call.cut positive member
      have filled := cut.filled
      apply call.separated.not_covers_before member (by omega)
      apply covered block member (block.1 - 1) (by omega)
      have stop : highPageStop size block.2 = size := by
        rw [highPageStop, if_pos last]
      have ceil := pageCeil_le (highPageStop size block.2 -
        (alignDown block.2 blocksize).toNat)
      right
      right
      refine ⟨by omega, by omega, ?_⟩
      rw [stop] at ceil ⊢
      omega
    intro block member
    refine ⟨unitsFit block member, ?_, lastPage block member⟩
    intro noUnits
    by_contra hole
    -- No block shares the page above the low part.
    have cut := call.cut positive member
    obtain ⟨filled, inside, startBlock, stopBlock, -, stopPage⟩ := cut
    have mapped := exactly.pages block member
      ((alignUp block.1 blocksize).toNat / 4096)
      (by simp only [pageSize]; omega) (by simp only [pageSize]; omega)
      (alignUp block.1 blocksize).toNat (by simp only [pageSize]; omega)
      (by simp only [pageSize]; omega)
    obtain ⟨other, otherIn, shared⟩ := (call.mapped _).mp mapped
    have within := shared.inside (call.cut positive otherIn)
      (unitsFit other otherIn) (lastPage other otherIn) (by omega)
    have same : block = other := by
      rcases call.separated.trichotomy member otherIn with
        same | before | after
      · exact same
      · omega
      · omega
    subst same
    rcases shared with ⟨_, below⟩ | ⟨_, below⟩ | ⟨touching, _⟩
    · rw [unitsEnd_of_le (by omega)] at below
      omega
    · have startPage := (call.cut positive member).startPage
      have ceil := pageCeil_le (min (alignUp block.1 blocksize).toNat
        (alignDown block.2 pageSize).toNat -
          (alignUp block.1 pageSize).toNat)
      have whole := ceil.2.2 (by omega)
      omega
    · omega
  · intro foldable
    refine ⟨call.aligned, ?_, ?_, call.privateBlocks⟩
    · intro byte within mapped
      obtain ⟨block, member, shared⟩ := (call.mapped byte).mp mapped
      exact ⟨block, member, shared.inside (call.cut positive member)
        (foldable block member).unitsFit (foldable block member).lastPage
        within⟩
    · intro block member page begins ends byte above below
      apply (call.mapped byte).mpr
      exact ⟨block, member, Region.of_page (call.cut positive member) positive
        (foldable block member) begins ends above below⟩

/-- A partial allocation shares what was asked for exactly when its blocks can
be shared in units of the block size. -/
theorem shares_exactly_iff (smallPages : config.hugePage = false)
    (reached : Reached (partialStep config) Anything {} heap)
    (returned : sharedMallocPartial os config heap size first rest data =
      some (after, mem, maps)) :
    SharesExactly size (first :: rest) after mem maps ↔
      Foldable config.blocksize size first rest := by
  have call := returned_of_reached smallPages reached returned
  unfold Foldable
  by_cases none : config.blocksize = 0
  · rw [if_pos none]
    rw [none] at call
    exact call.exact_zero_iff
  · rw [if_neg none]
    exact call.exact_iff (Nat.pos_of_ne_zero none)

/-- An operating system with 47 bits of user addresses, which reserves memory
at one place. -/
def plainOs : Os where
  top := 2 ^ 47
  top_le := by decide
  reserve size := if 0x10000 + size ≤ 2 ^ 47 then some 0x10000 else none
  reserve_fits size mem reserved := by
    split at reserved
    · cases reserved
      exact ⟨by decide, by omega⟩
    · cases reserved
  truncate length := decide (length < 2 ^ 63)
  truncate_lt length truncated := of_decide_eq_true truncated
  mapFixed _ mapping := decide (mapping.pos + mapping.length ≤ 2 ^ 47)
  mapFixed_fits _ mapping mapped := of_decide_eq_true mapped

/-- A low part, a unit and a high part. -/
theorem three_parts_share_exactly :
    ∃ after mem maps,
      sharedMallocPartial plainOs ⟨0x2000, false⟩ {} 0x5800 (0x800, 0x5100) []
        0 = some (after, mem, maps) ∧
      SharesExactly 0x5800 [(0x800, 0x5100)] after mem maps := by
  have returns : (sharedMallocPartial plainOs ⟨0x2000, false⟩ {} 0x5800
      (0x800, 0x5100) [] 0).isSome = true := by decide +kernel
  obtain ⟨⟨after, mem, maps⟩, returned⟩ := Option.isSome_iff_exists.mp returns
  refine ⟨after, mem, maps, returned, ?_⟩
  apply (shares_exactly_iff rfl .refl returned).mpr
  rw [Foldable, if_neg (by decide)]
  intro block member
  rw [List.mem_singleton.mp member]
  exact ⟨by decide +kernel, by decide +kernel, by decide +kernel⟩

/-- A block inside of the last page makes the start of the page shared. -/
theorem last_page_shares_private_bytes :
    ¬ ∀ (os : Os) (config : SharedMallocConfig) (heap after : PartialHeap)
      (size mem : Nat) (first : Nat × Nat) (rest : List (Nat × Nat))
      (data : Addr) (maps : List Mapping), config.hugePage = false →
      Reached (partialStep config) Anything {} heap →
      sharedMallocPartial os config heap size first rest data =
        some (after, mem, maps) →
      SharesExactly size (first :: rest) after mem maps := by
  intro claimed
  have returns : (sharedMallocPartial plainOs ⟨0x1000, false⟩ {} 0x1100
      (0x1080, 0x1100) [] 0).map (fun result => result.2) =
        some (0x10000, [⟨0x11000, 0x100, false⟩]) := by decide +kernel
  obtain ⟨⟨after, mem, maps⟩, returned, result⟩ :=
    Option.map_eq_some_iff.mp returns
  cases result
  have exactly := claimed plainOs ⟨0x1000, false⟩ {} after 0x1100 _
    (0x1080, 0x1100) [] 0 _ rfl .refl returned
  obtain ⟨block, member, above, below⟩ := exactly.shared 0x1000 (by decide)
    ⟨_, List.mem_singleton_self _, by decide, by decide⟩
  rw [List.mem_singleton.mp member] at above
  exact absurd above (by decide)

end Exactness

end S4BXI
