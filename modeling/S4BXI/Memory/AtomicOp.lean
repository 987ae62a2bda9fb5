import S4BXI.Lib.Bytes
import S4BXI.Memory.SharedMalloc
import S4BXI.Nic.Target

/-!
# Atomic operations on arrays of integers

`apply_atomic_op` for the integer types.  Its loop runs once for each element,
but `me`, `rx` and `tx` always point to the first one.
-/

namespace S4BXI

open Lib

/-- `ptl_atsize`, with the sizes of the floating types on x86-64. -/
def ptlAtsize : PtlDatatype → Nat
  | .int8 | .uint8 => 1
  | .int16 | .uint16 => 2
  | .int32 | .uint32 => 4
  | .int64 | .uint64 => 8
  | .float => 4
  | .double => 8
  | .longDouble => 16
  | .floatComplex => 8
  | .doubleComplex => 16
  | .longDoubleComplex => 32

def PtlDatatype.isInteger : PtlDatatype → Bool
  | .int8 | .uint8 | .int16 | .uint16 | .int32 | .uint32 | .int64
  | .uint64 => true
  | .float | .floatComplex | .double | .doubleComplex | .longDouble
  | .longDoubleComplex => false

/-- One of the eight integer types. -/
structure IntegerType where
  type : PtlDatatype
  integer : type.isInteger = true

namespace IntegerType

/-- The size of an element in bytes. -/
def size (type : IntegerType) : Nat := ptlAtsize type.type

def signed (type : IntegerType) : Bool :=
  match type.type with
  | .int8 | .int16 | .int32 | .int64 => true
  | _ => false

/-- The values of the type. -/
abbrev Value (type : IntegerType) := BitVec (8 * type.size)

/-- `<` on the type. -/
def lt (type : IntegerType) (left right : type.Value) : Bool :=
  if type.signed then left.slt right else left.ult right

theorem size_pos (type : IntegerType) : 0 < type.size := by
  unfold size ptlAtsize
  split <;> omega

end IntegerType

/-- A truth value as an integer. -/
def truth {width : Nat} (value : Bool) : BitVec width :=
  if value then 1 else 0

/-- Whether a swap operation writes, from the comparison of `me` with `cst`. -/
def PtlOp.swaps (op : PtlOp) (eq le ge : Bool) : Bool :=
  match op with
  | .cswap => eq
  | .cswapNe => !eq
  | .cswapLe => le
  | .cswapLt => le && !eq
  | .cswapGe => ge
  | .cswapGt => ge && !eq
  | .swap => true
  | _ => false

/-- The switch in the loop of `apply_atomic_op`: the new value of `*me`.  It
panics for a swap of more than one item. -/
def operate (op : PtlOp) (type : IntegerType) (n : Int)
    (me cst rx : type.Value) : Option type.Value :=
  match op with
  | .min => some (if type.lt rx me then rx else me)
  | .max => some (if type.lt me rx then rx else me)
  | .sum => some (me + rx)
  | .prod => some (me * rx)
  | .bor => some (me ||| rx)
  | .band => some (me &&& rx)
  | .bxor => some (me ^^^ rx)
  | .lor => some (truth (me != 0 || rx != 0))
  | .land => some (truth (me != 0 && rx != 0))
  | .lxor => some (truth (me != 0) ^^^ truth (rx != 0))
  | .swap | .cswap | .cswapNe | .cswapLe | .cswapLt | .cswapGe | .cswapGt =>
      if n ≠ 1 then
        none
      else
        let eq := me == cst
        let le := !type.lt me cst
        let ge := !type.lt cst me
        some (if op.swaps eq le ge then rx else me)
  | .mswap => some ((me &&& ~~~cst) ||| (rx &&& cst))

/-- The body of the loop of `apply_atomic_op`. -/
def applyRound (op : PtlOp) (type : IntegerType) (n : Int)
    (me cst rx tx : Addr) (memory : Bytes) : Option Bytes :=
  let saved := if tx ≠ me then memory.copy tx me type.size else memory
  (operate op type n (saved.load me type.size) (saved.load cst type.size)
    (saved.load rx type.size)).map (saved.store me)

/-- The loop of `apply_atomic_op`, from the given number of rounds on. -/
def applyRounds (op : PtlOp) (type : IntegerType) (n : Int)
    (me cst rx tx : Addr) : Nat → Bytes → Option Bytes
  | 0, memory => some memory
  | rounds + 1, memory =>
      (applyRound op type n me cst rx tx memory).bind
        (applyRounds op type n me cst rx tx rounds)

/-- `apply_atomic_op` on an integer type.  There is no result where it
panics. -/
def applyAtomicOp (op : PtlOp) (type : IntegerType) (me cst rx tx : Addr)
    (len : Size) (memory : Bytes) : Option Bytes :=
  if len % type.size ≠ 0 then
    none
  else
    let n := wrapInt (len / type.size : Nat)
    applyRounds op type n me cst rx tx n.toNat memory

/-! ## The operations on integers -/

/-- The integer a value stands for. -/
def IntegerType.value (type : IntegerType) (bits : type.Value) : Int :=
  if type.signed then bits.toInt else bits.toNat

/-- The value of an operation which is no swap: the least and the greatest in
the order of the type, and the arithmetic modulo its width. -/
def PtlOp.result (op : PtlOp) (type : IntegerType) (left right : type.Value) :
    type.Value :=
  match op with
  | .min => BitVec.ofInt _ (Min.min (type.value left) (type.value right))
  | .max => BitVec.ofInt _ (Max.max (type.value left) (type.value right))
  | .sum => BitVec.ofInt _ (type.value left + type.value right)
  | .prod => BitVec.ofInt _ (type.value left * type.value right)
  | .lor => if left ≠ 0 ∨ right ≠ 0 then 1 else 0
  | .land => if left ≠ 0 ∧ right ≠ 0 then 1 else 0
  | .lxor => if (left ≠ 0) ≠ (right ≠ 0) then 1 else 0
  | .bor => left ||| right
  | .band => left &&& right
  | .bxor => left ^^^ right
  | _ => left

theorem IntegerType.ofInt_value (type : IntegerType) (bits : type.Value) :
    BitVec.ofInt _ (type.value bits) = bits := by
  unfold value
  split
  · exact BitVec.ofInt_toInt
  · simp

theorem IntegerType.lt_iff (type : IntegerType) (left right : type.Value) :
    type.lt left right = true ↔ type.value left < type.value right := by
  unfold lt value
  split
  · exact BitVec.slt_iff_toInt_lt
  · rw [BitVec.ult_iff_lt, BitVec.lt_def]
    omega

theorem IntegerType.value_min (type : IntegerType) (left right : type.Value) :
    Min.min (type.value left) (type.value right) =
      type.value (if type.lt right left then right else left) := by
  by_cases less : type.lt right left = true
  · rw [if_pos less]
    exact min_eq_right (le_of_lt ((type.lt_iff right left).mp less))
  · rw [if_neg less]
    exact min_eq_left (not_lt.mp (mt (type.lt_iff right left).mpr less))

theorem IntegerType.value_max (type : IntegerType) (left right : type.Value) :
    Max.max (type.value left) (type.value right) =
      type.value (if type.lt left right then right else left) := by
  by_cases less : type.lt left right = true
  · rw [if_pos less]
    exact max_eq_right (le_of_lt ((type.lt_iff left right).mp less))
  · rw [if_neg less]
    exact max_eq_left (not_lt.mp (mt (type.lt_iff left right).mpr less))

theorem truth_ite {width : Nat} (value : Bool) :
    (truth value : BitVec width) = if value = true then 1 else 0 := rfl

/-- What the switch computes is the operation on the integers. -/
theorem operate_eq {op : PtlOp} (plain : op.isSwap = false)
    (type : IntegerType) (n : Int) (me cst rx : type.Value) :
    operate op type n me cst rx = some (op.result type me rx) := by
  cases op with
  | min => simp only [operate, PtlOp.result, type.value_min, type.ofInt_value]
  | max => simp only [operate, PtlOp.result, type.value_max, type.ofInt_value]
  | sum =>
      simp only [operate, PtlOp.result, BitVec.ofInt_add, type.ofInt_value]
  | prod =>
      simp only [operate, PtlOp.result, BitVec.ofInt_mul, type.ofInt_value]
  | lor => simp [operate, PtlOp.result, truth_ite]
  | land => simp [operate, PtlOp.result, truth_ite]
  | lxor =>
      by_cases left : me = 0#_ <;> by_cases right : rx = 0#_ <;>
        simp [operate, PtlOp.result, truth_ite, left, right]
  | bor => rfl
  | band => rfl
  | bxor => rfl
  | swap => cases plain
  | cswapGt => cases plain
  | cswapLt => cases plain
  | cswapGe => cases plain
  | cswapLe => cases plain
  | cswap => cases plain
  | cswapNe => cases plain
  | mswap => cases plain

/-! ## The rounds of the loop -/

/-- Two ranges of the same length do not overlap. -/
def Separate (first second len : Nat) : Prop :=
  first + len ≤ second ∨ second + len ≤ first

section

variable (op : PtlOp) (type : IntegerType) (me rx tx : Nat) (memory : Bytes)

/-- The first element of `me`. -/
def firstValue : type.Value := memory.load me type.size

/-- The operation on the first element, with the value of `rx` which a memory
with that element has. -/
def again (value : type.Value) : type.Value :=
  op.result type value ((memory.store me value).load rx type.size)

/-- The first element of `tx` after some rounds. -/
def savedValue : Nat → type.Value
  | 0 => memory.load tx type.size
  | rounds + 1 =>
      (again op type me rx memory)^[rounds] (firstValue type me memory)

/-- The memory after some rounds from `memory` on. -/
structure Rounds (rounds : Nat) (after : Bytes) : Prop where
  result : after.load me type.size =
    (again op type me rx memory)^[rounds] (firstValue type me memory)
  saved : tx ≠ me →
    after.load tx type.size = savedValue op type me rx tx memory rounds
  outside : ∀ byte, ¬(me ≤ byte ∧ byte < me + type.size) →
    ¬(tx ≤ byte ∧ byte < tx + type.size) → after byte = memory byte

end

section

variable {op : PtlOp} {type : IntegerType} {me rx tx : Nat} {memory : Bytes}

theorem rounds_start : Rounds op type me rx tx memory 0 memory :=
  ⟨rfl, fun _ => rfl, fun _ _ _ => rfl⟩

/-- The element of `rx` in a later round. -/
theorem Rounds.load_rx {rounds : Nat} {after : Bytes}
    (done : Rounds op type me rx tx memory rounds after)
    (apart : tx = me ∨ Separate tx rx type.size) :
    after.load rx type.size = (memory.store me ((again op type me rx
      memory)^[rounds] (firstValue type me memory))).load rx type.size := by
  rw [← done.result]
  apply Bytes.load_eq_iff.mpr
  intro byte inside
  by_cases own : me ≤ rx + byte ∧ rx + byte < me + type.size
  · exact (Bytes.store_load_byte own.1 own.2).symm
  · rw [Bytes.store_outside _ own]
    apply done.outside _ own
    rcases apart with rfl | low | high
    · exact own
    · omega
    · omega

/-- One more round. -/
theorem Rounds.next (n : Int) (cst : Nat) {rounds : Nat} {after : Bytes} (plain : op.isSwap = false)
    (apart : tx = me ∨ Separate tx me type.size ∧ Separate tx rx type.size)
    (done : Rounds op type me rx tx memory rounds after) :
    ∃ later, applyRound op type n me cst rx tx after = some later ∧
      Rounds op type me rx tx memory (rounds + 1) later := by
  have value := done.load_rx (apart.imp_right And.right)
  simp only [applyRound, operate_eq plain, Option.map_some]
  refine ⟨_, rfl, ?_⟩
  by_cases same : tx = me
  · subst same
    rw [if_neg (by simp)]
    constructor
    · rw [Bytes.load_store, value, done.result, Function.iterate_succ_apply']
      rfl
    · exact fun different => absurd rfl different
    · intro byte outside _
      rw [Bytes.store_outside _ outside]
      exact done.outside byte outside outside
  · rw [if_pos same]
    obtain ⟨clear, clear'⟩ := apart.resolve_left same
    have loads : ∀ place : Nat, Separate tx place type.size →
        (after.copy tx me type.size).load place type.size =
          after.load place type.size := by
      intro place separate
      apply Bytes.load_store_apart
      unfold Separate at separate
      omega
    rw [loads me clear, loads rx clear']
    constructor
    · rw [Bytes.load_store, value, done.result, Function.iterate_succ_apply']
      rfl
    · intro _
      rw [Bytes.load_store_apart _ clear, Bytes.copy, Bytes.load_store]
      exact done.result
    · intro byte outside outside'
      rw [Bytes.store_outside _ outside, Bytes.copy,
        Bytes.store_outside _ outside']
      exact done.outside byte outside outside'

/-- The whole loop. -/
theorem applyRounds_spec (n : Int) (cst : Nat) (plain : op.isSwap = false)
    (apart : tx = me ∨ Separate tx me type.size ∧ Separate tx rx type.size)
    (count : Nat) : ∀ {rounds : Nat} {before : Bytes},
      Rounds op type me rx tx memory rounds before →
        ∃ after, applyRounds op type n me cst rx tx count before = some after ∧
          Rounds op type me rx tx memory (rounds + count) after := by
  induction count with
  | zero => exact fun done => ⟨_, rfl, done⟩
  | succ count induction =>
      intro rounds before done
      obtain ⟨middle, stepped, next⟩ :=
        done.next n cst plain apart
      obtain ⟨after, finished, whole⟩ := induction next
      refine ⟨after, ?_, ?_⟩
      · rw [applyRounds, stepped]
        exact finished
      · rwa [Nat.add_right_comm] at whole

/-- Element `k` of an array. -/
def element (memory : Bytes) (type : IntegerType) (array k : Nat) :
    type.Value :=
  memory.load (array + k * type.size) type.size

/-- What an atomic operation on `n` elements is for: every element of `me`
becomes the result for the old one and the one of `rx`, a distinct `tx`
becomes the old elements, and no other byte changes. -/
structure ElementWise (op : PtlOp) (type : IntegerType) (me rx tx n : Nat)
    (memory after : Bytes) : Prop where
  result : ∀ k < n, element after type me k =
    op.result type (element memory type me k) (element memory type rx k)
  saved : tx ≠ me → ∀ k < n,
    element after type tx k = element memory type me k
  outside : ∀ byte, ¬(me ≤ byte ∧ byte < me + n * type.size) →
    ¬(tx ≤ byte ∧ byte < tx + n * type.size) → after byte = memory byte

/-- The elements after the first are already what they should become, and the
rounds on the first one amount to a single one. -/
structure Idle (op : PtlOp) (type : IntegerType) (me rx tx n : Nat)
    (memory : Bytes) : Prop where
  first : (again op type me rx memory)^[(wrapInt n).toNat]
      (firstValue type me memory) =
    op.result type (element memory type me 0) (element memory type rx 0)
  firstSaved : tx ≠ me →
    savedValue op type me rx tx memory (wrapInt n).toNat =
      element memory type me 0
  others : ∀ k, 0 < k → k < n →
    op.result type (element memory type me k) (element memory type rx k) =
      element memory type me k
  othersSaved : tx ≠ me → ∀ k, 0 < k → k < n →
    element memory type tx k = element memory type me k

theorem element_zero (array : Nat) :
    element memory type array 0 = memory.load array type.size := by
  rw [element, Nat.zero_mul, Nat.add_zero]

theorem again_firstValue : again op type me rx memory
      (firstValue type me memory) =
    op.result type (element memory type me 0) (element memory type rx 0) := by
  have same : memory.store me (firstValue type me memory) = memory := by
    funext byte
    by_cases inside : me ≤ byte ∧ byte < me + type.size
    · exact Bytes.store_load_byte inside.1 inside.2
    · exact Bytes.store_outside _ inside
  rw [again, same, element_zero, element_zero]
  rfl

/-- One element is done in one round. -/
theorem idle_one : Idle op type me rx tx 1 memory := by
  have once : (wrapInt (1 : Nat)).toNat = 1 := by decide
  constructor
  · rw [once]
    exact again_firstValue
  · intro _
    rw [once, element_zero]
    rfl
  · intro k positive small
    omega
  · intro _ k positive small
    omega

/-- The range of an element in its array. -/
theorem element_inside (size : Nat) {k count : Nat} (small : k < count) :
    k * size + size ≤ count * size := by
  have bound := Nat.mul_le_mul_right size (Nat.succ_le_of_lt small)
  rwa [Nat.succ_mul] at bound

/-- An element after the first. -/
theorem element_after_first (size : Nat) {k : Nat} (positive : 0 < k) :
    size ≤ k * size := by
  have bound := Nat.mul_le_mul_right size positive
  rwa [Nat.one_mul] at bound

/-- The rounds do not reach the elements after the first. -/
theorem Rounds.element_later {rounds k count : Nat} {after : Bytes}
    (done : Rounds op type me rx tx memory rounds after)
    (apart : tx = me ∨ Separate tx me (count * type.size)) (positive : 0 < k)
    (small : k < count) {array : Nat} (own : array = me ∨ array = tx) :
    element after type array k = element memory type array k := by
  have inside := element_inside type.size small
  have later := element_after_first type.size positive
  apply Bytes.load_eq_iff.mpr
  intro byte low
  apply done.outside
  · rcases own with rfl | rfl
    · omega
    · rcases apart with rfl | left | right
      · omega
      · omega
      · omega
  · rcases own with rfl | rfl
    · rcases apart with rfl | left | right
      · omega
      · omega
      · omega
    · omega

/-- The rounds work on all elements exactly when the elements after the first
need no work. -/
theorem Rounds.elementWise_iff {count : Nat} {after : Bytes}
    (done : Rounds op type me rx tx memory (wrapInt count).toNat after)
    (apart : tx = me ∨ Separate tx me (count * type.size))
    (positive : 0 < count) :
    ElementWise op type me rx tx count memory after ↔
      Idle op type me rx tx count memory := by
  have first : element after type me 0 = (again op type me rx
      memory)^[(wrapInt count).toNat] (firstValue type me memory) := by
    rw [element_zero]
    exact done.result
  have firstTx : tx ≠ me → element after type tx 0 =
      savedValue op type me rx tx memory (wrapInt count).toNat := by
    rw [element_zero]
    exact done.saved
  have later : ∀ k, 0 < k → k < count → ∀ array, array = me ∨ array = tx →
      element after type array k = element memory type array k :=
    fun k above below _ own => done.element_later apart above below own
  constructor
  · intro whole
    constructor
    · rw [← first]
      exact whole.result 0 positive
    · intro different
      rw [← firstTx different]
      exact whole.saved different 0 positive
    · intro k above below
      rw [← whole.result k below]
      exact later k above below me (.inl rfl)
    · intro different k above below
      rw [← later k above below tx (.inr rfl)]
      exact whole.saved different k below
  · intro idle
    constructor
    · intro k below
      rcases Nat.eq_zero_or_pos k with rfl | above
      · rw [first]
        exact idle.first
      · rw [later k above below me (.inl rfl)]
        exact (idle.others k above below).symm
    · intro different k below
      rcases Nat.eq_zero_or_pos k with rfl | above
      · rw [firstTx different]
        exact idle.firstSaved different
      · rw [later k above below tx (.inr rfl)]
        exact idle.othersSaved different k above below
    · intro byte outside outside'
      have one := element_inside type.size positive
      rw [Nat.zero_mul, Nat.zero_add] at one
      apply done.outside
      · omega
      · omega

end

/-- `apply_atomic_op` on `n` elements does not panic, and it is element-wise
exactly for at most one element, or when the elements after the first are
already what they should become and the rounds on the first one amount to a
single one. -/
theorem applyAtomicOp_elementWise_iff (op : PtlOp) (type : IntegerType)
    (me cst rx tx n : Nat) (memory : Bytes) (plain : op.isSwap = false)
    (apart : tx = me ∨ Separate tx me (n * type.size) ∧
      Separate tx rx (n * type.size)) :
    ∃ after, applyAtomicOp op type me cst rx tx (n * type.size) memory =
        some after ∧
      (ElementWise op type me rx tx n memory after ↔
        n ≤ 1 ∨ Idle op type me rx tx n memory) := by
  have count : n * type.size / type.size = n :=
    Nat.mul_div_cancel n type.size_pos
  have whole : n * type.size % type.size = 0 := Nat.mul_mod_left _ _
  simp only [applyAtomicOp, whole, count, ne_eq, not_true_eq_false, if_false]
  rcases Nat.eq_zero_or_pos n with rfl | positive
  · refine ⟨memory, rfl, ⟨fun _ => .inl (Nat.zero_le 1), fun _ => ?_⟩⟩
    constructor
    · intro k below
      omega
    · intro _ k below
      omega
    · intro byte _ _
      rfl
  · have one := element_inside type.size positive
    rw [Nat.zero_mul, Nat.zero_add] at one
    have near : tx = me ∨ Separate tx me type.size ∧
        Separate tx rx type.size := by
      refine apart.imp_right fun clear => ?_
      unfold Separate at clear ⊢
      omega
    have start : Rounds op type me rx tx memory 0 memory := rounds_start
    obtain ⟨after, finished, done⟩ := applyRounds_spec (wrapInt n) cst plain
      near (wrapInt n).toNat start
    rw [Nat.zero_add] at done
    refine ⟨after, finished, ?_⟩
    rw [done.elementWise_iff (apart.imp_right And.left) positive]
    constructor
    · exact Or.inr
    · rintro (small | idle)
      · have single : n = 1 := by omega
        subst single
        exact idle_one
      · exact idle

/-- Two sums of one byte: the first element gets the addend twice, the second
one not at all. -/
theorem second_element_left_alone :
    ∃ memory after, applyAtomicOp .sum ⟨.uint8, rfl⟩ 0 0 8 0 2 memory =
        some after ∧
      element after ⟨.uint8, rfl⟩ 0 0 = 21 ∧
      element after ⟨.uint8, rfl⟩ 0 1 = 2 ∧
      ¬ElementWise .sum ⟨.uint8, rfl⟩ 0 8 0 2 memory after := by
  let memory : Bytes := fun byte =>
    match byte with
    | 0 => 1
    | 1 => 2
    | 8 => 10
    | 9 => 20
    | _ => 0
  refine ⟨memory, _, rfl, by decide, by decide, ?_⟩
  intro whole
  have second := whole.result 1 (by decide)
  revert second
  decide

/-- One sum of four bytes, with the old value kept elsewhere. -/
theorem one_element_summed :
    ∃ after, applyAtomicOp .sum ⟨.int32, rfl⟩ 0 0 8 16 4 (fun _ => 1) =
        some after ∧
      ElementWise .sum ⟨.int32, rfl⟩ 0 8 16 1 (fun _ => 1) after := by
  obtain ⟨after, finished, exact⟩ := applyAtomicOp_elementWise_iff .sum
    ⟨.int32, rfl⟩ 0 0 8 16 1 (fun _ => 1) rfl
    (.inr ⟨.inr (by decide), .inr (by decide)⟩)
  exact ⟨after, finished, exact.mpr (.inl (le_refl 1))⟩

end S4BXI
