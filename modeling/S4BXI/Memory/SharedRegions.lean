import Mathlib
import S4BXI.Lib.Transition
import S4BXI.Memory.PartialSharing

/-!
# The regions which a partial allocation shares

A call which returns has mapped, for each block, the region of its low part,
of its whole units and of its high part.  The regions lie within the blocks
and hold all of their whole pages exactly when the units fit between the ends
of the blocks and no block begins in the last, partial page of the allocation
above the last unit.
-/

namespace S4BXI

open Lib

/-- A length in whole pages, as it is mapped. -/
def pageCeil (length : Nat) : Nat :=
  (length + pageSize - 1) / pageSize * pageSize

def Mapping.Contains (mapping : Mapping) (address : Nat) : Prop :=
  mapping.pos ≤ address ∧ address < mapping.pos + pageCeil mapping.length

/-- An address which is mapped onto a bogus file. -/
def Mapped (maps : List Mapping) (address : Nat) : Prop :=
  ∃ mapping ∈ maps, mapping.Contains address

/-- More mappings, which start on page boundaries and contain the offsets of a
region. -/
def Adds (mem : Nat) (maps after : List Mapping) (region : Nat → Prop) :
    Prop :=
  ∃ pieces, after = maps ++ pieces ∧
    (∀ piece ∈ pieces, piece.pos % pageSize = 0) ∧
    ∀ byte, Mapped pieces (mem + byte) ↔ region byte

section Regions

variable {os : Os} {mem : Nat} {maps middle after : List Mapping}
  {first second region : Nat → Prop}

theorem mapped_append {pieces : List Mapping} {address : Nat} :
    Mapped (maps ++ pieces) address ↔
      Mapped maps address ∨ Mapped pieces address := by
  simp only [Mapped, List.mem_append, or_and_right, exists_or]

theorem Adds.nothing (empty : ∀ byte, ¬ region byte) :
    Adds mem maps maps region := by
  refine ⟨[], (List.append_nil maps).symm, by simp, ?_⟩
  intro byte
  simp [Mapped, empty byte]

theorem Adds.trans (added : Adds mem maps middle first)
    (addedAfter : Adds mem middle after second) :
    Adds mem maps after fun byte => first byte ∨ second byte := by
  obtain ⟨pieces, rfl, aligned, exactly⟩ := added
  obtain ⟨morePieces, rfl, moreAligned, moreExactly⟩ := addedAfter
  refine ⟨pieces ++ morePieces, by rw [List.append_assoc], ?_, ?_⟩
  · intro piece member
    rcases List.mem_append.mp member with earlier | later
    · exact aligned piece earlier
    · exact moreAligned piece later
  · intro byte
    rw [mapped_append, exactly, moreExactly]

theorem Adds.congr (added : Adds mem maps after first)
    (same : ∀ byte, first byte ↔ second byte) :
    Adds mem maps after second := by
  obtain ⟨pieces, appended, aligned, exactly⟩ := added
  exact ⟨pieces, appended, aligned, fun byte =>
    (exactly byte).trans (same byte)⟩

theorem mapShared_adds {mapping : Mapping} {start : Nat}
    (placed : mapping.pos = mem + start)
    (aligned : mapping.pos % pageSize = 0)
    (mapped : mapShared os maps mapping = some after) :
    mapping.pos + mapping.length ≤ os.top ∧
      Adds mem maps after fun byte =>
        start ≤ byte ∧ byte < start + pageCeil mapping.length := by
  unfold mapShared at mapped
  by_cases succeeded : os.mapFixed maps mapping = true
  · rw [if_pos succeeded] at mapped
    cases mapped
    refine ⟨os.mapFixed_fits maps mapping succeeded, [mapping], rfl, ?_, ?_⟩
    · intro piece member
      rw [List.mem_singleton.mp member]
      exact aligned
    · intro byte
      simp only [Mapped, List.mem_singleton, exists_eq_left,
        Mapping.Contains, placed]
      constructor
      · rintro ⟨above, below⟩
        exact ⟨Nat.le_of_add_le_add_left above, by omega⟩
      · rintro ⟨above, below⟩
        exact ⟨Nat.add_le_add_left above _, by omega⟩
  · rw [if_neg succeeded] at mapped
    cases mapped

/-- The offsets of a low or a high part. -/
theorem mapPart_adds {start stop : Nat} (memAligned : mem % pageSize = 0)
    (startAligned : start % pageSize = 0)
    (mapped : mapPart os mem start stop maps = some after) :
    (start < stop → mem + stop ≤ os.top) ∧
      Adds mem maps after fun byte =>
        start ≤ byte ∧ byte < start + pageCeil (stop - start) := by
  unfold mapPart at mapped
  by_cases nonempty : start < stop
  · rw [if_pos nonempty] at mapped
    have aligned : (mem + start) % pageSize = 0 := by
      rw [Nat.add_mod, memAligned, startAligned]
      decide
    obtain ⟨fits, added⟩ := mapShared_adds rfl aligned mapped
    refine ⟨fun _ => ?_, added⟩
    change mem + start + (stop - start) ≤ os.top at fits
    omega
  · rw [if_neg nonempty] at mapped
    cases mapped
    refine ⟨fun less => absurd less nonempty, Adds.nothing ?_⟩
    intro byte inside
    simp only [pageCeil, pageSize] at inside
    omega

/-- Where the last whole unit ends. -/
def unitsEnd (blocksize stop offset : Nat) : Nat :=
  offset + (stop - offset + blocksize - 1) / blocksize * blocksize

theorem unitsEnd_of_le {blocksize stop offset : Nat} (done : stop ≤ offset) :
    unitsEnd blocksize stop offset = offset := by
  have none : (blocksize - 1) / blocksize = 0 := by
    rcases Nat.eq_zero_or_pos blocksize with rfl | positive
    · rfl
    · exact Nat.div_eq_of_lt (by omega)
  rw [unitsEnd, Nat.sub_eq_zero_of_le done, Nat.zero_add, none, Nat.zero_mul,
    Nat.add_zero]

theorem unitsEnd_of_lt {blocksize stop offset : Nat}
    (positive : 0 < blocksize) (more : offset < stop) :
    unitsEnd blocksize stop offset =
      unitsEnd blocksize stop (offset + blocksize) := by
  have divided : (stop - offset + blocksize - 1) / blocksize =
      (stop - (offset + blocksize) + blocksize - 1) / blocksize + 1 := by
    by_cases last : stop - offset ≤ blocksize
    · rw [Nat.sub_eq_zero_of_le (by omega : stop ≤ offset + blocksize),
        Nat.div_eq_of_lt (by omega : 0 + blocksize - 1 < blocksize)]
      apply Nat.div_eq_of_lt_le <;> omega
    · rw [← Nat.add_div_right _ positive]
      congr 1
      omega
  unfold unitsEnd
  rw [divided, Nat.add_mul]
  omega

theorem le_unitsEnd {blocksize stop offset : Nat} (positive : 0 < blocksize) :
    stop ≤ unitsEnd blocksize stop offset ∧
      offset ≤ unitsEnd blocksize stop offset := by
  have covered := Nat.lt_mul_div_succ (stop - offset + blocksize - 1) positive
  rw [Nat.mul_add, Nat.mul_comm, Nat.mul_one] at covered
  unfold unitsEnd
  omega

/-- The offsets of the whole units. -/
theorem mapBlocks_adds {blocksize stop offset : Nat} {huge : Bool}
    (memAligned : mem % pageSize = 0)
    (sizeAligned : blocksize % pageSize = 0)
    (offsetAligned : offset % pageSize = 0)
    (mapped : mapBlocks os mem blocksize huge stop offset maps =
      some after) :
    Adds mem maps after fun byte =>
      offset ≤ byte ∧ byte < unitsEnd blocksize stop offset := by
  fun_induction mapBlocks os mem blocksize huge stop offset maps with
  | case1 offset maps more positive middle unit induction =>
      have aligned : (mem + offset) % pageSize = 0 := by
        rw [Nat.add_mod, memAligned, offsetAligned]
        decide
      have nextAligned : (offset + blocksize) % pageSize = 0 := by
        rw [Nat.add_mod, offsetAligned, sizeAligned]
        decide
      have added := (mapShared_adds rfl aligned unit).2.trans
        (induction nextAligned mapped)
      apply added.congr
      intro byte
      have whole : pageCeil blocksize = blocksize := by
        simp only [pageCeil, pageSize] at sizeAligned ⊢
        omega
      have past := (le_unitsEnd positive : stop ≤ unitsEnd blocksize stop
        (offset + blocksize) ∧ _).2
      rw [unitsEnd_of_lt positive more]
      change _ ∧ byte < offset + pageCeil blocksize ∨ _ ↔ _
      rw [whole]
      omega
  | case2 => cases mapped
  | case3 => cases mapped
  | case4 offset maps done =>
      cases mapped
      apply Adds.nothing
      intro byte inside
      rw [unitsEnd_of_le (by omega)] at inside
      omega

/-- The offsets which are shared for a block. -/
def Region (blocksize size : Nat) (block : Nat × Nat) (byte : Nat) : Prop :=
  let startBlock := (alignUp block.1 blocksize).toNat
  let stopBlock := (alignDown block.2 blocksize).toNat
  let lowStart := (alignUp block.1 pageSize).toNat
  let lowStop := min startBlock (alignDown block.2 pageSize).toNat
  (startBlock ≤ byte ∧ byte < unitsEnd blocksize stopBlock startBlock) ∨
    (lowStart ≤ byte ∧ byte < lowStart + pageCeil (lowStop - lowStart)) ∨
    (lowStop ≤ stopBlock ∧ stopBlock ≤ byte ∧
      byte < stopBlock + pageCeil (highPageStop size block.2 - stopBlock))

theorem alignUp_aligned {n blocksize : Nat}
    (bounded : n + blocksize ≤ 2 ^ 64)
    (sizeAligned : blocksize % pageSize = 0) :
    (alignUp n blocksize).toNat % pageSize = 0 := by
  rcases Nat.eq_zero_or_pos blocksize with rfl | positive
  · rw [(align_zero n).1]
    decide
  · by_cases small : blocksize < 2 ^ 64
    · exact (alignUp_spec 12 bounded small positive
        (Nat.dvd_of_mod_eq_zero sizeAligned)).2.2
    · have exactly : blocksize = 2 ^ 64 := by omega
      simp [alignUp, exactly]

theorem alignDown_aligned {n blocksize : Nat} (bounded : n < 2 ^ 64)
    (small : blocksize < 2 ^ 64) (sizeAligned : blocksize % pageSize = 0) :
    (alignDown n blocksize).toNat % pageSize = 0 := by
  rcases Nat.eq_zero_or_pos blocksize with rfl | positive
  · rw [(align_zero n).2]
    decide
  · exact (alignDown_spec 12 bounded small positive
      (Nat.dvd_of_mod_eq_zero sizeAligned)).2.2

/-- The comparison of signed offsets picks the lower one, except above the
signed values, where it picks the first one. -/
theorem lowPageStop_eq {startBlock : Nat} {stopPage : BitVec 64}
    (unsigned : startBlock < 2 ^ 64) (small : stopPage.toNat < 2 ^ 63) :
    (if (BitVec.ofNat 64 startBlock).toInt < stopPage.toInt then startBlock
      else stopPage.toNat) =
    if startBlock < 2 ^ 63 then min startBlock stopPage.toNat
    else startBlock := by
  have value : (BitVec.ofNat 64 startBlock).toNat = startBlock := by
    rw [BitVec.toNat_ofNat, Nat.mod_eq_of_lt unsigned]
  rw [BitVec.toInt_eq_toNat_of_lt (by omega : 2 * stopPage.toNat < 2 ^ 64)]
  by_cases signed : startBlock < 2 ^ 63
  · rw [if_pos signed, BitVec.toInt_eq_toNat_of_lt (by omega), value]
    split <;> omega
  · rw [if_neg signed, if_pos]
    rw [BitVec.toInt_eq_toNat_cond, value]
    split <;> omega

/-- The assertions and the mappings of one block. -/
theorem shareBlock_adds {config : SharedMallocConfig} {size : Nat}
    {successor : Option (Nat × Nat)} {block : Nat × Nat}
    (memAligned : mem % pageSize = 0) (fits : mem + size ≤ os.top)
    (sizeAligned : config.blocksize % pageSize = 0)
    (bounded : config.blocksize < 2 ^ 63)
    (shared : shareBlock os mem config size successor block maps =
      some after) :
    block.1 < block.2 ∧ block.2 ≤ size ∧
      (∀ next ∈ successor, block.2 < next.1) ∧
      Adds mem maps after (Region config.blocksize size block) := by
  have topBound := os.top_le
  unfold shareBlock at shared
  split at shared
  next asserted =>
    obtain ⟨filled, inside, before⟩ := asserted
    have startPage := alignUp_page (n := block.1)
      (by simp only [pageSize]; omega)
    have stopPage := alignDown_page (n := block.2) (by omega)
    have startAligned := alignUp_aligned (n := block.1)
      (by omega : block.1 + config.blocksize ≤ 2 ^ 64) sizeAligned
    have stopAligned := alignDown_aligned (n := block.2)
      (by omega : block.2 < 2 ^ 64) (by omega) sizeAligned
    cases units : mapBlocks os mem config.blocksize config.hugePage
        (alignDown block.2 config.blocksize).toNat
        (alignUp block.1 config.blocksize).toNat maps with
    | none => simp [units] at shared
    | some unitMaps =>
        simp only [units] at shared
        have unitsAdded := mapBlocks_adds memAligned sizeAligned startAligned
          units
        refine ⟨filled, inside, ?_, ?_⟩
        · intro next found
          rw [Option.mem_def] at found
          rw [found] at before
          exact of_decide_eq_true before
        · rw [lowPageStop_eq (BitVec.isLt _) (by omega)] at shared
          have signed : (alignUp block.1 config.blocksize).toNat < 2 ^ 63 := by
            by_contra large
            rw [if_neg large] at shared
            cases low : mapPart os mem (alignUp block.1 pageSize).toNat
                (alignUp block.1 config.blocksize).toNat unitMaps with
            | none => simp [low] at shared
            | some lowMaps =>
                have limited := (mapPart_adds memAligned startPage.2.2 low).1
                simp only [pageSize] at startPage limited
                omega
          rw [if_pos signed] at shared
          cases low : mapPart os mem (alignUp block.1 pageSize).toNat
              (min (alignUp block.1 config.blocksize).toNat
                (alignDown block.2 pageSize).toNat) unitMaps with
          | none => simp [low] at shared
          | some lowMaps =>
              simp only [low] at shared
              have lowAdded :=
                (mapPart_adds memAligned startPage.2.2 low).2
              by_cases touching : min (alignUp block.1 config.blocksize).toNat
                  (alignDown block.2 pageSize).toNat ≤
                    (alignDown block.2 config.blocksize).toNat
              · rw [if_pos touching] at shared
                have highAdded := (mapPart_adds memAligned stopAligned
                  shared).2
                apply (unitsAdded.trans (lowAdded.trans highAdded)).congr
                intro byte
                simp only [Region, touching, true_and]
              · rw [if_neg touching] at shared
                cases shared
                apply (unitsAdded.trans lowAdded).congr
                intro byte
                simp only [Region, touching, false_and, or_false]
  next => cases shared

/-- The assertions and the mappings of the loop over the blocks. -/
theorem shareBlocks_adds {config : SharedMallocConfig} {size : Nat}
    {blocks : List (Nat × Nat)}
    (memAligned : mem % pageSize = 0) (fits : mem + size ≤ os.top)
    (sizeAligned : config.blocksize % pageSize = 0)
    (bounded : config.blocksize < 2 ^ 63)
    (shared : shareBlocks os mem config size blocks maps = some after) :
    Separated blocks ∧ (∀ block ∈ blocks, block.2 ≤ size) ∧
      Adds mem maps after fun byte =>
        ∃ block ∈ blocks, Region config.blocksize size block byte := by
  induction blocks generalizing maps with
  | nil =>
      cases shared
      refine ⟨⟨by simp, .nil⟩, by simp, Adds.nothing (by simp)⟩
  | cons block rest induction =>
      simp only [shareBlocks] at shared
      cases one : shareBlock os mem config size rest.head? block maps with
      | none => simp [one] at shared
      | some blockMaps =>
          simp only [one] at shared
          obtain ⟨filled, inside, before, added⟩ := shareBlock_adds memAligned
            fits sizeAligned bounded one
          obtain ⟨separated, within, others⟩ := induction shared
          refine ⟨⟨?_, ?_⟩, ?_, ?_⟩
          · intro interval member
            rcases List.mem_cons.mp member with rfl | later
            · exact filled
            · exact separated.nonempty interval later
          · refine List.pairwise_cons.mpr ⟨?_, separated.ordered⟩
            intro later member
            -- The assertion compares with the next block only.
            cases rest with
            | nil => cases member
            | cons next others =>
                have adjacent := before next rfl
                rcases List.mem_cons.mp member with rfl | farther
                · exact adjacent
                · have nextFilled := separated.nonempty next
                    List.mem_cons_self
                  have past := separated.head_before later farther
                  omega
          · intro interval member
            rcases List.mem_cons.mp member with rfl | later
            · exact inside
            · exact within interval later
          · apply (added.trans others).congr
            intro byte
            simp only [List.mem_cons, or_and_right, exists_or, exists_eq_left]

end Regions

/-- The private blocks are the gaps between the shared ones. -/
theorem privateBlocks_eq_gaps {size : Nat} {first : Nat × Nat}
    {rest : List (Nat × Nat)} (separated : Separated (first :: rest)) :
    privateBlocks size first rest = gaps size 0 (first :: rest) := by
  have after : ∀ (blocks : List (Nat × Nat)) (stop : Nat),
      (∀ block ∈ blocks, stop < block.1) → Separated blocks →
      privateBlocksAfter size stop blocks = gaps size stop blocks := by
    intro blocks
    induction blocks with
    | nil =>
        intro stop _ _
        rfl
    | cons block others induction =>
        intro stop above apart
        rw [privateBlocksAfter, gaps, if_pos (above block List.mem_cons_self),
          induction block.2 apart.head_before apart.tail]
  rw [privateBlocks, gaps, after rest first.2 separated.head_before
    separated.tail]
  by_cases offset : 0 < first.1
  · rw [if_pos offset, if_pos offset, List.singleton_append]
  · rw [if_neg offset, if_neg offset, List.nil_append]

end S4BXI
