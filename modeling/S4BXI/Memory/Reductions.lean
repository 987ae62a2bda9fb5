import S4BXI.Memory.FetchAtomic

/-!
# Concurrent atomic operations commute

Atomic requests with one commutative operation on one place of an entry leave
the same bytes in whatever order they are handled.  Each handling applies the
first element of its operand to the first element of the target, once for each
element of the request.
-/

namespace S4BXI

open Lib

/-! ## One request -/

section Operation

variable {op : PtlOp} {type : IntegerType}

theorem one_ne_zero (type : IntegerType) : (1 : type.Value) ≠ 0 := by
  have positive := type.size_pos
  intro equal
  have bits := congrArg BitVec.toNat equal
  have width : 1 < 2 ^ (8 * type.size) :=
    Nat.one_lt_two_pow (by omega)
  simp [Nat.mod_eq_of_lt width] at bits

/-- The truth of a logical operation. -/
theorem ite_ne_zero_iff (condition : Prop) [Decidable condition] :
    (if condition then (1 : type.Value) else 0) ≠ 0 ↔ condition := by
  by_cases holds : condition
  · rw [if_pos holds]
    exact iff_of_true (one_ne_zero type) holds
  · rw [if_neg holds]
    exact iff_of_false (not_not_intro rfl) holds

theorem value_result_min (left right : type.Value) :
    type.value (PtlOp.min.result type left right) =
      Min.min (type.value left) (type.value right) := by
  simp only [PtlOp.result, type.value_min, type.ofInt_value]

theorem value_result_max (left right : type.Value) :
    type.value (PtlOp.max.result type left right) =
      Max.max (type.value left) (type.value right) := by
  simp only [PtlOp.result, type.value_max, type.ofInt_value]

theorem result_sum (left right : type.Value) :
    PtlOp.sum.result type left right = left + right := by
  simp only [PtlOp.result, BitVec.ofInt_add, type.ofInt_value]

theorem result_prod (left right : type.Value) :
    PtlOp.prod.result type left right = left * right := by
  simp only [PtlOp.result, BitVec.ofInt_mul, type.ofInt_value]

/-- Two operands may be applied in any order. -/
theorem result_comm (plain : op.isSwap = false) (first second : type.Value) :
    Function.Commute (fun value => op.result type value first)
      (fun value => op.result type value second) := by
  intro value
  dsimp only
  cases op with
  | min =>
      apply type.value_injective
      simp only [value_result_min]
      exact min_right_comm _ _ _
  | max =>
      apply type.value_injective
      simp only [value_result_max]
      exact max_right_comm _ _ _
  | sum =>
      simp only [result_sum]
      exact add_right_comm _ _ _
  | prod =>
      simp only [result_prod]
      exact mul_right_comm _ _ _
  | lor =>
      simp only [PtlOp.result, ite_ne_zero_iff]
      exact if_congr or_right_comm rfl rfl
  | land =>
      simp only [PtlOp.result, ite_ne_zero_iff]
      exact if_congr and_right_comm rfl rfl
  | lxor =>
      simp only [PtlOp.result, ite_ne_zero_iff, ne_eq, eq_iff_iff]
      apply if_congr _ rfl rfl
      tauto
  | bor =>
      simp only [PtlOp.result]
      rw [BitVec.or_assoc, BitVec.or_comm second, ← BitVec.or_assoc]
  | band =>
      simp only [PtlOp.result]
      rw [BitVec.and_assoc, BitVec.and_comm second, ← BitVec.and_assoc]
  | bxor =>
      simp only [PtlOp.result]
      rw [BitVec.xor_assoc, BitVec.xor_comm second, ← BitVec.xor_assoc]
  | _ => cases plain

/-- Storing the value a range has. -/
theorem store_load_same (memory : Bytes) (addr size : Nat) :
    memory.store addr (memory.load addr size) = memory := by
  funext byte
  by_cases inside : addr ≤ byte ∧ byte < addr + size
  · exact Bytes.store_load_byte inside.1 inside.2
  · exact Bytes.store_outside _ inside

/-- `apply_atomic_op` on a target of its own: the first element of the operand
is applied to the first element of the target as often as there are
elements. -/
theorem applyAtomicOp_reduce (plain : op.isSwap = false) (me cst rx : Addr)
    {len : Size} (memory : Bytes) (whole : len % type.size = 0)
    (apart : len ≠ 0 → Separate rx me type.size) :
    applyAtomicOp op type me cst rx me len memory =
      some (memory.store me ((fun value => op.result type value
        (memory.load rx type.size))^[(wrapInt (len / type.size : Nat)).toNat]
        (memory.load me type.size))) := by
  obtain ⟨after, performed, rounds⟩ := applyRounds_spec
    (wrapInt (len / type.size : Nat)) cst plain (.inl rfl)
    (wrapInt (len / type.size : Nat)).toNat
    (rounds_start : Rounds op type me rx me memory 0 memory)
  rw [applyAtomicOp, if_neg (not_not_intro whole)]
  refine performed.trans (congrArg some ?_)
  by_cases empty : len = 0
  · subst empty
    rw [Nat.zero_div] at performed ⊢
    cases performed
    exact (store_load_same _ _ _).symm
  · have operand : again op type me rx memory = fun value =>
        op.result type value (memory.load rx type.size) := by
      funext value
      have clear := apart empty
      rw [again, Bytes.load_store_apart]
      unfold Separate at clear
      omega
    have result := rounds.result
    rw [operand, Nat.zero_add] at result
    funext byte
    by_cases inside : me ≤ byte ∧ byte < me + type.size
    · rw [firstValue] at result
      rw [← result]
      exact (Bytes.store_load_byte inside.1 inside.2).symm
    · rw [Bytes.store_outside _ inside]
      exact rounds.outside byte inside inside

end Operation

theorem store_store {size : Nat} (memory : Bytes) (addr : Nat)
    (first second : BitVec (8 * size)) :
    (memory.store addr first).store addr second =
      memory.store addr second := by
  funext byte
  by_cases inside : addr ≤ byte ∧ byte < addr + size
  · simp only [Bytes.store, if_pos inside]
  · rw [Bytes.store_outside _ inside, Bytes.store_outside _ inside,
      Bytes.store_outside _ inside]

/-- The effects on memory of the requests of a reduction: none where
`apply_atomic_op` panics, else an operand from outside the target is applied
to it a number of times. -/
inductive Applies (op : PtlOp) (type : IntegerType) (start : Addr) :
    (Bytes → Option Bytes) → Prop where
  | panics : Applies op type start fun _ => none
  | applies {effect} (rx : Addr) (count : Nat)
      (apart : count ≠ 0 → Separate rx start type.size)
      (result : ∀ memory, effect memory = some (memory.store start
        ((fun value => op.result type value
          (memory.load rx type.size))^[count]
          (memory.load start type.size)))) :
      Applies op type start effect

/-- An operand outside the target does not change with it. -/
theorem iterate_stored {op : PtlOp} {type : IntegerType} {start rx : Addr}
    {count : Nat} (apart : count ≠ 0 → Separate rx start type.size)
    (memory : Bytes) (stored value : type.Value) :
    (fun value => op.result type value
      ((memory.store start stored).load rx type.size))^[count] value =
    (fun value => op.result type value
      (memory.load rx type.size))^[count] value := by
  by_cases none : count = 0
  · subst none
    rfl
  · have clear := apart none
    rw [Bytes.load_store_apart]
    unfold Separate at clear
    omega

theorem Applies.comm {op : PtlOp} {type : IntegerType} {start : Addr}
    {first second : Bytes → Option Bytes} (plain : op.isSwap = false)
    (one : Applies op type start first) (two : Applies op type start second)
    (memory : Bytes) :
    (first memory).bind second = (second memory).bind first := by
  cases one with
  | panics =>
      cases two with
      | panics => rfl
      | applies rx count apart result => rw [result]; rfl
  | applies rx count apart result =>
      cases two with
      | panics => rw [result]; rfl
      | applies rx' count' apart' result' =>
          rw [result, result', Option.bind_some, Option.bind_some, result,
            result', store_store, store_store, Bytes.load_store,
            Bytes.load_store, iterate_stored apart, iterate_stored apart']
          have commute := (result_comm plain (memory.load rx type.size)
            (memory.load rx' type.size)).iterate_iterate count count'
          rw [commute.eq]

/-! ## A list of requests -/

/-- What the handler of an Atomic does to memory for a request and its entry. -/
def atomicEffect (sys : Sys) (atomics : Atomics) (target : Actor)
    (id : ReqId) (req : BxiRequest) (entry : BxiME) (memory : Bytes) :
    Option Bytes :=
  if sys.operates target req then
    atomics id (req.atomicCall entry (some req.operand)) memory
  else
    some memory

/-- The memory after handlers which run in the given states, in this order.
There is none once `apply_atomic_op` panics. -/
def reduce (sys : Sys) (atomics : Atomics) (target : Actor)
    (handlings : List (State × MsgId)) (memory : Bytes) : Option Bytes :=
  handlings.foldl (fun memory handling => memory.bind
    (handledMemory sys atomics target handling.1 handling.2)) (some memory)

/-- A message of a reduction: an Atomic with the operation, the type and the
offset of the others, whose operand, if any, is outside the target. -/
structure Contributes (s : State) (me : MeId) (op : PtlOp)
    (type : IntegerType) (offset : Size) (msg : MsgId) : Prop where
  allocated : msg < s.nextMsg
  op : (s.reqs (s.reqOf msg)).op = op
  datatype : (s.reqs (s.reqOf msg)).datatype = type.type
  offset : (s.reqs (s.reqOf msg)).remoteOffset = offset
  apart : (s.mes me).getMlength (s.reqs (s.reqOf msg)) ≠ 0 →
    Separate (s.reqs (s.reqOf msg)).operand
      ((s.mes me).getOffsettedAddr (s.reqs (s.reqOf msg))) type.size

/-- The states in which the messages of a reduction are handled: each in a
continuation of the same run, whatever happened in between. -/
def Handled (sys : Sys) (target : Actor) (s : State) (me : MeId)
    (handlings : List (State × MsgId)) : Prop :=
  ∀ handling ∈ handlings, Reached (step sys) Anything s handling.1 ∧
    Handles sys target handling.1 handling.2 .atomic me

section Reduction

variable {sys : Sys} {target : Actor} {s after : State} {me : MeId}
  {msg : MsgId} {op : PtlOp} {type : IntegerType} {offset : Size}

/-- An entry without `PTL_ME_MANAGE_LOCAL` has no managed offset. -/
theorem ReachedBy.unmanaged_offset (reachable : Reachable sys s)
    (small : me < s.nextMe)
    (unmanaged : (s.mes me).hasOption MeOption.manageLocal = false) :
    (s.mes me).manageLocalOffset = 0 := by
  rw [(ReachedBy.tracked reachable).offset me small]
  exact offsetAfter_unmanaged unmanaged _

/-- The effect of a handler is that of the request and the entry in any earlier
state. -/
theorem handledMemory_later (atomics : Atomics) (reachable : Reachable sys s)
    (later : Reached (step sys) Anything s after) (small : me < s.nextMe)
    (unmanaged : (s.mes me).hasOption MeOption.manageLocal = false)
    (old : msg < s.nextMsg)
    (handles : Handles sys target after msg .atomic me) (memory : Bytes) :
    handledMemory sys atomics target after msg memory =
      atomicEffect sys atomics target (s.reqOf msg) (s.reqs (s.reqOf msg))
        (s.mes me) memory := by
  have grows := Reached.extends later
  have reached : Reachable sys after := reachable.trans later
  have wellScoped := ReachedBy.wellScoped reachable
  have parent : after.reqOf msg = s.reqOf msg := grows.reqOf old
  have fixed : (after.reqs (s.reqOf msg)).fixed =
      (s.reqs (s.reqOf msg)).fixed :=
    grows.reqs _ (wellScoped.tables.parents msg old)
  have options : (after.mes me).me = (s.mes me).me := grows.meOptions small
  have same : (after.mes me).hasOption MeOption.manageLocal = false := by
    rw [BxiME.hasOption, options]
    exact unmanaged
  have access : (after.mes me).access (after.reqs (s.reqOf msg)) =
      (s.mes me).access (s.reqs (s.reqOf msg)) := by
    apply access_congr options _ fixed
    rw [ReachedBy.unmanaged_offset reached (small.trans_le grows.nextMe) same,
      ReachedBy.unmanaged_offset reachable small unmanaged]
  simp only [BxiME.access, Prod.mk.injEq] at access
  obtain ⟨mlength, start, -⟩ := access
  have operates : sys.operates target (after.reqs (s.reqOf msg)) =
      sys.operates target (s.reqs (s.reqOf msg)) :=
    (congrArg (sys.operates target) fixed :)
  have operand : (after.reqs (s.reqOf msg)).operand =
      (s.reqs (s.reqOf msg)).operand :=
    (congrArg BxiRequest.operand fixed :)
  have op : (after.reqs (s.reqOf msg)).op = (s.reqs (s.reqOf msg)).op :=
    (congrArg BxiRequest.op fixed :)
  have datatype : (after.reqs (s.reqOf msg)).datatype =
      (s.reqs (s.reqOf msg)).datatype :=
    (congrArg BxiRequest.datatype fixed :)
  rw [handledMemory_atomic atomics handles, parent, atomicEffect, operates]
  simp only [BxiRequest.atomicCall, op, datatype, operand, mlength, start]

theorem Contributes.applies (cstField : ReqId → Addr) (others : Atomics)
    (plain : op.isSwap = false)
    (contributes : Contributes s me op type offset msg) :
    Applies op type ((s.mes me).getOffsettedAddr (s.reqs (s.reqOf msg)))
      (atomicEffect sys (integerAtomics cstField others) target (s.reqOf msg)
        (s.reqs (s.reqOf msg)) (s.mes me)) := by
  have typed : ((s.reqs (s.reqOf msg)).atomicCall (s.mes me)
      (some (s.reqs (s.reqOf msg)).operand)).datatype = type.type :=
    contributes.datatype
  by_cases operates : sys.operates target (s.reqs (s.reqOf msg)) = true
  · by_cases whole :
        (s.mes me).getMlength (s.reqs (s.reqOf msg)) % type.size = 0
    · apply Applies.applies (s.reqs (s.reqOf msg)).operand
        (wrapInt ((s.mes me).getMlength (s.reqs (s.reqOf msg)) /
          type.size : Nat)).toNat
      · intro some
        apply contributes.apart
        intro empty
        rw [empty, Nat.zero_div] at some
        exact some rfl
      · intro memory
        rw [atomicEffect, if_pos operates, integerAtomics_eq _ _ _ typed]
        simp only [BxiRequest.atomicCall, contributes.op]
        exact applyAtomicOp_reduce plain _ _ _ memory whole contributes.apart
    · have aborts : atomicEffect sys (integerAtomics cstField others) target
          (s.reqOf msg) (s.reqs (s.reqOf msg)) (s.mes me) =
          fun _ => none := by
        funext memory
        rw [atomicEffect, if_pos operates, integerAtomics_eq _ _ _ typed]
        exact if_pos whole
      rw [aborts]
      exact .panics
  · apply Applies.applies 0 0 (fun some => absurd rfl some)
    intro memory
    rw [atomicEffect, if_neg operates]
    exact congrArg some (store_load_same _ _ _).symm

theorem Contributes.start
    (unmanaged : (s.mes me).hasOption MeOption.manageLocal = false)
    (contributes : Contributes s me op type offset msg) :
    (s.mes me).getOffsettedAddr (s.reqs (s.reqOf msg)) =
      add64 (s.mes me).me.start offset := by
  rw [getOffsettedAddr_eq, BxiME.offsetInTarget, unmanaged,
    ← contributes.offset]
  rfl

/-- The memory after a reduction, from the requests as they are in an earlier
state. -/
theorem reduce_eq (atomics : Atomics) (reachable : Reachable sys s)
    (small : me < s.nextMe)
    (unmanaged : (s.mes me).hasOption MeOption.manageLocal = false)
    {handlings : List (State × MsgId)}
    (handled : Handled sys target s me handlings)
    (allocated : ∀ msg ∈ handlings.map Prod.snd, msg < s.nextMsg)
    (memory : Bytes) :
    reduce sys atomics target handlings memory =
      (handlings.map Prod.snd).foldl (fun memory msg => memory.bind
        (atomicEffect sys atomics target (s.reqOf msg)
          (s.reqs (s.reqOf msg)) (s.mes me))) (some memory) := by
  unfold reduce
  generalize some memory = start
  induction handlings generalizing start with
  | nil => rfl
  | cons handling handlings induction =>
      obtain ⟨later, handles⟩ := handled handling List.mem_cons_self
      have same : handledMemory sys atomics target handling.1 handling.2 =
          atomicEffect sys atomics target (s.reqOf handling.2)
            (s.reqs (s.reqOf handling.2)) (s.mes me) :=
        funext fun memory => handledMemory_later atomics reachable later
          small unmanaged (allocated _ List.mem_cons_self) handles memory
      rw [List.map_cons, List.foldl_cons, List.foldl_cons, same]
      apply induction
      · exact fun handling member =>
          handled handling (List.mem_cons_of_mem _ member)
      · exact fun msg member =>
          allocated msg (List.mem_cons_of_mem _ member)

/-- Atomic requests with one commutative operation, type and offset on an entry
without `PTL_ME_MANAGE_LOCAL` leave the same bytes in whatever order they are
handled. -/
theorem concurrent_atomics_commute (sys : Sys) (target : Actor) (s : State)
    (me : MeId) (op : PtlOp) (type : IntegerType) (offset : Size)
    (cstField : ReqId → Addr) (others : Atomics) (memory : Bytes)
    (first second : List (State × MsgId))
    (reachable : Reachable sys s) (small : me < s.nextMe)
    (unmanaged : (s.mes me).hasOption MeOption.manageLocal = false)
    (plain : op.isSwap = false)
    (contributes : ∀ msg ∈ first.map Prod.snd,
      Contributes s me op type offset msg)
    (handled : Handled sys target s me first)
    (handledToo : Handled sys target s me second)
    (permuted : (first.map Prod.snd).Perm (second.map Prod.snd)) :
    reduce sys (integerAtomics cstField others) target first memory =
      reduce sys (integerAtomics cstField others) target second memory := by
  have allocated : ∀ msg ∈ second.map Prod.snd, msg < s.nextMsg :=
    fun msg member => (contributes msg (permuted.mem_iff.mpr member)).allocated
  rw [reduce_eq _ reachable small unmanaged handled
      (fun msg member => (contributes msg member).allocated),
    reduce_eq _ reachable small unmanaged handledToo allocated]
  apply permuted.foldl_eq'
  intro one memberOne two memberTwo reached
  have oneApplies := @Contributes.applies sys target _ _ _ _ _ _ cstField
    others plain (contributes one memberOne)
  have twoApplies := @Contributes.applies sys target _ _ _ _ _ _ cstField
    others plain (contributes two memberTwo)
  rw [(contributes one memberOne).start unmanaged] at oneApplies
  rw [(contributes two memberTwo).start unmanaged] at twoApplies
  cases reached with
  | none => rfl
  | some memory => exact Applies.comm plain oneApplies twoApplies memory

end Reduction

/-! ## A run -/

/-- Two Atomic requests of different lengths are in the mailbox of the second
node. -/
def twoSums : List Label :=
  prologue ++ appends { start := 1000, length := 100 } .priority ::
    runs 6 3 ++ applies .atomic .sum .int16 4 :: runs 0 3 ++
    applies .atomic .sum .int16 2 :: runs 0 3 ++
    .take 1 :: runs 1 8 ++ .take 1 :: runs 1 8

/-- The NIC target takes the message at a position, then the other one. -/
def takesFirst (position : Nat) : List Label := [.recv 9 position]

def takesSecond (position : Nat) : List Label :=
  .recv 9 position :: runs 9 12 ++ [.recv 9 0]

/-- Whether a continuation ends in front of the handler of a message. -/
def leadsTo (s : State) (labels : List Label) (msg : MsgId) : Bool :=
  (runLabels (step reliableNodes) (fun _ _ => true) s labels).any fun after =>
    decide (Handles reliableNodes secondTarget after msg .atomic 0)

theorem handles_of_leadsTo {s : State} {labels : List Label} {msg : MsgId}
    (leads : leadsTo s labels msg = true) :
    ∃ after, Reached (step reliableNodes) Anything s after ∧
      Handles reliableNodes secondTarget after msg .atomic 0 := by
  obtain ⟨after, ran, handles⟩ := (Option.any_eq_true _ _).mp leads
  exact ⟨after, reached_of_runLabels (fun _ _ _ => trivial) ran,
    of_decide_eq_true handles⟩

/-- Both orders leave the same bytes. -/
theorem two_sums_commute : ∃ s a b c d, Reachable reliableNodes s ∧
    Handled reliableNodes secondTarget s 0 [(a, 0), (b, 1)] ∧
    Handled reliableNodes secondTarget s 0 [(c, 1), (d, 0)] ∧
    ∀ memory,
      reduce reliableNodes (integerAtomics (fun _ => 0) fun _ _ _ => none)
        secondTarget [(a, 0), (b, 1)] memory =
      reduce reliableNodes (integerAtomics (fun _ => 0) fun _ _ _ => none)
        secondTarget [(c, 1), (d, 0)] memory := by
  obtain ⟨s, reachable, checked⟩ := reachable_of_executes reliableNodes
    twoSums (fun s => leadsTo s (takesFirst 0) 0 &&
      leadsTo s (takesSecond 0) 1 && leadsTo s (takesFirst 1) 1 &&
      leadsTo s (takesSecond 1) 0 && decide (0 < s.nextMe) &&
      decide (s.nextMsg = 2 ∧
        (s.mes 0).hasOption MeOption.manageLocal = false ∧
        (s.mes 0).getOffsettedAddr (s.reqs (s.reqOf 0)) = 1000 ∧
        (s.mes 0).getOffsettedAddr (s.reqs (s.reqOf 1)) = 1000) &&
      [0, 1].all fun msg => decide ((s.reqs (s.reqOf msg)).op = .sum ∧
        (s.reqs (s.reqOf msg)).datatype = .int16 ∧
        (s.reqs (s.reqOf msg)).remoteOffset = 0 ∧
        (s.reqs (s.reqOf msg)).operand = 500)) (by decide +kernel)
  simp only [Bool.and_eq_true, decide_eq_true_eq] at checked
  obtain ⟨⟨⟨⟨⟨⟨leadsA, leadsB⟩, leadsC⟩, leadsD⟩, small⟩, allocated,
    unmanaged, firstStart, secondStart⟩, requests⟩ := checked
  obtain ⟨a, laterA, handlesA⟩ := handles_of_leadsTo leadsA
  obtain ⟨b, laterB, handlesB⟩ := handles_of_leadsTo leadsB
  obtain ⟨c, laterC, handlesC⟩ := handles_of_leadsTo leadsC
  obtain ⟨d, laterD, handlesD⟩ := handles_of_leadsTo leadsD
  have contributes : ∀ msg ∈ [0, 1],
      Contributes s 0 .sum ⟨.int16, rfl⟩ 0 msg := by
    intro msg member
    obtain ⟨op, datatype, offset, operand⟩ :=
      of_decide_eq_true (List.all_eq_true.mp requests msg member)
    refine ⟨?_, op, datatype, offset, ?_⟩
    · rw [allocated]
      simp only [List.mem_cons, List.not_mem_nil, or_false] at member
      rcases member with rfl | rfl <;> decide
    · intro _
      left
      simp only [List.mem_cons, List.not_mem_nil, or_false] at member
      rcases member with rfl | rfl
      · rw [operand, firstStart]
        decide
      · rw [operand, secondStart]
        decide
  have handled : Handled reliableNodes secondTarget s 0 [(a, 0), (b, 1)] := by
    intro handling member
    simp only [List.mem_cons, List.not_mem_nil, or_false] at member
    rcases member with rfl | rfl
    · exact ⟨laterA, handlesA⟩
    · exact ⟨laterB, handlesB⟩
  have handledToo : Handled reliableNodes secondTarget s 0
      [(c, 1), (d, 0)] := by
    intro handling member
    simp only [List.mem_cons, List.not_mem_nil, or_false] at member
    rcases member with rfl | rfl
    · exact ⟨laterC, handlesC⟩
    · exact ⟨laterD, handlesD⟩
  exact ⟨s, a, b, c, d, reachable, handled, handledToo, fun memory =>
    concurrent_atomics_commute reliableNodes secondTarget s 0 .sum
      ⟨.int16, rfl⟩ 0 (fun _ => 0) (fun _ _ _ => none) memory _ _ reachable
      small unmanaged rfl contributes handled handledToo (.swap 1 0 [])⟩

end S4BXI
