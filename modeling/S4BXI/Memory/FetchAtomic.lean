import S4BXI.Memory.Bounds
import S4BXI.Memory.Handled

/-!
# FetchAtomic and swap

A FetchAtomic returns the old contents of the range which it updates.  A swap
takes the same path, and compares the target with the bytes which follow its
request.
-/

namespace S4BXI

open Lib

/-- A byte of a range. -/
def Within (byte start len : Nat) : Prop := start ≤ byte ∧ byte < start + len

section

variable {op : PtlOp} {type : IntegerType} {memory : Bytes}

/-- `apply_atomic_op` without a reply buffer of its own writes the first element
only, if there is any. -/
theorem applyAtomicOp_frame (plain : op.isSwap = false) (me cst rx : Addr)
    {len : Size} (whole : len % type.size = 0) :
    ∃ after, applyAtomicOp op type me cst rx me len memory = some after ∧
      ∀ byte, ¬Within byte me len → after byte = memory byte := by
  obtain ⟨after, performed, rounds⟩ := applyRounds_spec
    (wrapInt (len / type.size : Nat)) cst plain (.inl rfl)
    (wrapInt (len / type.size : Nat)).toNat
    (rounds_start : Rounds op type me rx me memory 0 memory)
  refine ⟨after, ?_, ?_⟩
  · rw [applyAtomicOp, if_neg (not_not_intro whole)]
    exact performed
  · intro byte outside
    by_cases some : type.size ≤ len
    · have apart : ¬(me ≤ byte ∧ byte < me + type.size) := by
        intro inside
        apply outside
        exact ⟨inside.1, by omega⟩
      exact rounds.outside byte apart apart
    · have none : len / type.size = 0 :=
        Nat.div_eq_of_lt (Nat.lt_of_not_le some)
      rw [none] at performed
      cases performed
      rfl

theorem integerAtomics_eq (cstField : ReqId → Addr) (others : Atomics)
    (req : ReqId) {call : AtomicCall} (typed : call.datatype = type.type)
    (memory : Bytes) :
    integerAtomics cstField others req call memory =
      applyAtomicOp call.op type call.me (call.cst.getD (cstField req))
        call.rx call.tx call.len memory := by
  obtain ⟨datatype, integer⟩ := type
  subst typed
  exact dif_pos integer

theorem cappedCount_uncapped {cfg : Config} (uncapped : cfg.maxMemcpy = -1)
    (count : Size) : cappedCount cfg count = count :=
  if_pos uncapped

end

/-! ## FetchAtomic -/

section Fetch

variable {sys : Sys} {target : Actor} {s : State} {msg : MsgId} {me : MeId}

/-- The access which the handler of a FetchAtomic stores in the request. -/
theorem access_fetchAtomic
    (handles : Handles sys target s msg .fetchAtomic me) :
    ((handleMsg sys target s msg).1.reqs (s.reqOf msg)).access =
      (s.mes me).access (s.reqs (s.reqOf msg)) := by
  obtain ⟨pt, list, fail, found⟩ := handles.found
  have type : (s.msgs msg).type = .ptlFetchAtomic := handles.type
  have shape : receive (takeEntry (newResponse s msg .ptlFetchAtomicResponse
      fail) msg pt list me) msg me true =
      deposit s msg pt list me fail .fetchAtomic := rfl
  obtain ⟨effects, stop, touched, -, -⟩ := fetchAtomicMemory_touch sys target
    (offsetKept_deposit s msg pt list me fail) me
  simp only [handleMsg, type, handleFetchAtomicRequest, if_neg handles.fresh,
    found, shape, touched]
  exact (handles.deposited pt list fail).access

/-- What the handler of a FetchAtomic does: no extra copy, the old contents in
the buffer of the reply, nothing else but the target range changed, and the
offset of that range reported. -/
structure Fetches (sys : Sys) (atomics : Atomics) (target : Actor) (s : State)
    (msg : MsgId) (me : MeId) (memory after : Bytes) : Prop where
  performed : handledMemory sys atomics target s msg memory = some after
  address : ∀ req call,
    .atomicOp req call ∈ Machine.effects s (handleMsg sys target s msg).1 →
      call.tx = call.me ∧
        call.me = ((handleMsg sys target s msg).1.reqs (s.reqOf msg)).start
  fetched : after.load (s.reqs (s.reqOf msg)).fetched
      ((handleMsg sys target s msg).1.reqs (s.reqOf msg)).mlength =
    memory.load ((handleMsg sys target s msg).1.reqs (s.reqOf msg)).start
      ((handleMsg sys target s msg).1.reqs (s.reqOf msg)).mlength
  outside : ∀ byte,
    ¬Within byte (s.reqs (s.reqOf msg)).fetched
      ((handleMsg sys target s msg).1.reqs (s.reqOf msg)).mlength →
    ¬Within byte ((handleMsg sys target s msg).1.reqs (s.reqOf msg)).start
      ((handleMsg sys target s msg).1.reqs (s.reqOf msg)).mlength →
    after byte = memory byte
  offset : ((handleMsg sys target s msg).1.reqs (s.reqOf msg)).start =
    add64 (s.mes me).me.start
      ((handleMsg sys target s msg).1.reqs
        (s.reqOf msg)).targetRemoteOffset

/-- The address of an access is its offset in the entry. -/
theorem getOffsettedAddr_eq (entry : BxiME) (req : BxiRequest) :
    entry.getOffsettedAddr req =
      add64 entry.me.start (entry.offsetInTarget req) := by
  unfold BxiME.getOffsettedAddr BxiME.offsetInTarget
  split <;> rfl

/-- The only call of `apply_atomic_op` of a FetchAtomic. -/
theorem atomicOp_fetchEffects {id req : ReqId} {pt : PtId} {list : PtlList}
    {asked : BxiRequest} {entry : BxiME} {call : AtomicCall}
    (member : .atomicOp req call ∈
      Obs.consumed id msg pt list me :: fetchEffects sys id asked entry) :
    call = asked.atomicCall entry asked.fetchCst := by
  rcases List.mem_cons.mp member with matched | member
  · cases matched
  · rcases List.mem_append.mp member with copied | applied
    · split at copied
      · cases List.mem_singleton.mp copied
      · cases copied
    · cases List.mem_singleton.mp applied
      rfl

/-- A FetchAtomic of integers returns the old contents of the range it
updates. -/
theorem fetchAtomic_returns_old_contents (sys : Sys) (target : Actor)
    (s : State) (msg : MsgId) (me : MeId) (type : IntegerType)
    (cstField : ReqId → Addr) (others : Atomics) (memory : Bytes)
    (handles : Handles sys target s msg .fetchAtomic me)
    (datatype : (s.reqs (s.reqOf msg)).datatype = type.type)
    (plain : (s.reqs (s.reqOf msg)).op.isSwap = false)
    (whole : (s.mes me).getMlength (s.reqs (s.reqOf msg)) % type.size = 0)
    (real : sys.operates target (s.reqs (s.reqOf msg)) = true)
    (uncapped : sys.cfg.maxMemcpy = -1)
    (entry : (s.mes me).me.length ≠ 0)
    (valid : FetchesValid sys (s.reqs (s.reqOf msg)) (s.mes me))
    (apart : Separate (s.reqs (s.reqOf msg)).fetched
      ((s.mes me).getOffsettedAddr (s.reqs (s.reqOf msg)))
      ((s.mes me).getMlength (s.reqs (s.reqOf msg)))) :
    ∃ after, Fetches sys (integerAtomics cstField others) target s msg me
      memory after := by
  have access := access_fetchAtomic handles
  simp only [BxiRequest.access, BxiME.access, Prod.mk.injEq] at access
  obtain ⟨mlength, start, offset⟩ := access
  have performed := handledMemory_fetchAtomic
    (integerAtomics cstField others) handles valid memory
  have fetched : fetchedMemory sys (s.reqs (s.reqOf msg)) (s.mes me) memory =
      memory.copy (s.reqs (s.reqOf msg)).fetched
        ((s.mes me).getOffsettedAddr (s.reqs (s.reqOf msg)))
        ((s.mes me).getMlength (s.reqs (s.reqOf msg))) := by
    rw [fetchedMemory, if_pos entry, cappedCount_uncapped uncapped]
  have typed : ((s.reqs (s.reqOf msg)).atomicCall (s.mes me)
      (s.reqs (s.reqOf msg)).fetchCst).datatype = type.type := datatype
  rw [if_pos real, fetched, integerAtomics_eq _ _ _ typed] at performed
  obtain ⟨after, applied, frame⟩ := applyAtomicOp_frame plain
    ((s.mes me).getOffsettedAddr (s.reqs (s.reqOf msg)))
    ((s.reqs (s.reqOf msg)).fetchCst.getD (cstField (s.reqOf msg)))
    (s.reqs (s.reqOf msg)).operand whole
  refine ⟨after, ?_, ?_, ?_, ?_, ?_⟩
  · exact performed.trans applied
  · intro req call member
    obtain ⟨pt, list, effects⟩ := effects_fetchAtomic handles valid
    rw [effects, if_pos real] at member
    have called := atomicOp_fetchEffects member
    rw [called, start]
    exact ⟨rfl, rfl⟩
  · rw [mlength, start, ← Bytes.load_store (memory.load _ _)]
    apply Bytes.load_eq_iff.mpr
    intro byte inside
    apply frame
    intro targeted
    unfold Separate at apart
    unfold Within at targeted
    omega
  · intro byte
    rw [mlength, start]
    intro unfetched untargeted
    rw [frame byte untargeted]
    exact Bytes.store_outside _ unfetched
  · rw [start, offset]
    exact getOffsettedAddr_eq _ _

/-- A fetch-and-add of two elements of two bytes. -/
theorem fetch_sum_returns_old_contents : ∃ s, Reachable reliableNodes s ∧
    s.handlesNext 9 0 = true ∧ ∀ memory, ∃ after,
      Fetches reliableNodes
        (integerAtomics (fun _ => 0) fun _ _ _ => none) secondTarget s 0 0
        memory after := by
  obtain ⟨s, reachable, checked⟩ := reachable_of_executes reliableNodes
    (arrives { start := 1000, length := 100, options := MeOption.manageLocal }
      (applies .fetchAtomic .sum .int16 4))
    (fun s => s.handlesNext 9 0 &&
      decide (Handles reliableNodes secondTarget s 0 .fetchAtomic 0) &&
      decide ((s.reqs (s.reqOf 0)).datatype = .int16 ∧
        (s.reqs (s.reqOf 0)).op.isSwap = false ∧
        (s.mes 0).getMlength (s.reqs (s.reqOf 0)) = 4 ∧
        reliableNodes.operates secondTarget (s.reqs (s.reqOf 0)) = true ∧
        (s.mes 0).me.length ≠ 0 ∧ (s.reqs (s.reqOf 0)).fetched = 700 ∧
        (s.mes 0).getOffsettedAddr (s.reqs (s.reqOf 0)) = 1000))
    (by decide +kernel)
  simp only [Bool.and_eq_true, decide_eq_true_eq] at checked
  obtain ⟨⟨next, handles⟩, datatype, plain, mlength, real, entry, fetched,
    start⟩ := checked
  refine ⟨s, reachable, next, fun memory => ?_⟩
  apply fetchAtomic_returns_old_contents reliableNodes secondTarget s 0 0
    ⟨.int16, rfl⟩ (fun _ => 0) (fun _ _ _ => none) memory handles datatype plain
  · rw [mlength]
    rfl
  · exact real
  · rfl
  · exact entry
  · right
    rw [fetched, start]
    decide
  · left
    rw [fetched, start, mlength]
    decide

end Fetch

/-! ## Swap -/

/-- The relation of a swap operation between its operand and the target. -/
def PtlOp.holds (op : PtlOp) (cst target : Int) : Bool :=
  match op with
  | .swap => true
  | .cswap => cst == target
  | .cswapNe => cst != target
  | .cswapLe => cst ≤ target
  | .cswapLt => cst < target
  | .cswapGe => cst ≥ target
  | .cswapGt => cst > target
  | _ => false

/-- What a swap leaves in the target. -/
def PtlOp.swapped (op : PtlOp) (type : IntegerType)
    (cst put target : type.Value) : type.Value :=
  if op = .mswap then
    (target &&& ~~~cst) ||| (put &&& cst)
  else if op.holds (type.value cst) (type.value target) then
    put
  else
    target

theorem IntegerType.value_injective (type : IntegerType)
    {left right : type.Value} (same : type.value left = type.value right) :
    left = right := by
  rw [← type.ofInt_value left, same, type.ofInt_value]

/-- The reversed comparisons of `apply_atomic_op` are the relation of the
operation. -/
theorem swaps_eq_holds {op : PtlOp} (swap : op.isSwap = true)
    (relation : op ≠ .mswap) (type : IntegerType) (target cst : type.Value) :
    op.swaps (target == cst) (!type.lt target cst) (!type.lt cst target) =
      op.holds (type.value cst) (type.value target) := by
  have equal : (target == cst) =
      (type.value cst == type.value target) := by
    rw [Bool.eq_iff_iff, beq_iff_eq, beq_iff_eq]
    constructor
    · rintro rfl
      rfl
    · exact fun same => (type.value_injective same).symm
  have atMost : (!type.lt target cst) =
      decide (type.value cst ≤ type.value target) := by
    rw [Bool.eq_iff_iff, Bool.not_eq_true', decide_eq_true_eq, ← not_lt,
      ← type.lt_iff, Bool.not_eq_true]
  have atLeast : (!type.lt cst target) =
      decide (type.value cst ≥ type.value target) := by
    rw [Bool.eq_iff_iff, Bool.not_eq_true', decide_eq_true_eq, ge_iff_le,
      ← not_lt, ← type.lt_iff, Bool.not_eq_true]
  rw [equal, atMost, atLeast]
  generalize type.value cst = operand
  generalize type.value target = found
  cases op with
  | swap => rfl
  | cswap => rfl
  | cswapNe => rfl
  | cswapLe => rfl
  | cswapGe => rfl
  | cswapLt =>
      rw [Bool.eq_iff_iff]
      simp only [PtlOp.swaps, PtlOp.holds, Bool.and_eq_true,
        decide_eq_true_eq, Bool.not_eq_true', beq_eq_false_iff_ne]
      omega
  | cswapGt =>
      rw [Bool.eq_iff_iff]
      simp only [PtlOp.swaps, PtlOp.holds, Bool.and_eq_true,
        decide_eq_true_eq, Bool.not_eq_true', beq_eq_false_iff_ne]
      omega
  | mswap => exact absurd rfl relation
  | _ => cases swap

theorem operate_swap {op : PtlOp} (swap : op.isSwap = true)
    (type : IntegerType) (target cst put : type.Value) :
    operate op type 1 target cst put =
      some (op.swapped type cst put target) := by
  by_cases masked : op = .mswap
  · subst masked
    rfl
  · have relation := swaps_eq_holds swap masked type target cst
    rw [PtlOp.swapped, if_neg masked, ← relation]
    cases op <;> first | rfl | exact absurd rfl masked | cases swap

/-- One element without a reply buffer of its own. -/
theorem applyAtomicOp_swap {op : PtlOp} (swap : op.isSwap = true)
    (type : IntegerType) (me cst rx : Addr) (memory : Bytes) :
    applyAtomicOp op type me cst rx me type.size memory =
      some (memory.store me (op.swapped type (memory.load cst type.size)
        (memory.load rx type.size) (memory.load me type.size))) := by
  have one : type.size / type.size = 1 := Nat.div_self type.size_pos
  rw [applyAtomicOp, if_neg (by simp), one]
  change (applyRound op type 1 me cst rx me memory).bind
    (applyRounds op type 1 me cst rx me 0) = _
  rw [applyRound, if_neg (by simp), operate_swap swap]
  rfl

/-- The bytes which a swap takes for its operand change nothing: they stand in
the same relation to the target, or agree with it where the put value and the
target differ. -/
def PtlOp.Insensitive (op : PtlOp) (type : IntegerType)
    (cst used put target : type.Value) : Prop :=
  if op = .mswap then
    (cst ^^^ used) &&& (put ^^^ target) = 0#_
  else
    op.holds (type.value cst) (type.value target) =
      op.holds (type.value used) (type.value target) ∨ put = target

theorem masked_eq_iff {width : Nat} (cst used put target : BitVec width) :
    (target &&& ~~~used) ||| (put &&& used) =
        (target &&& ~~~cst) ||| (put &&& cst) ↔
      (cst ^^^ used) &&& (put ^^^ target) = 0#_ := by
  constructor
  · intro same
    apply BitVec.eq_of_getLsbD_eq
    intro bit small
    have equal := congrArg (fun value => value.getLsbD bit) same
    simp only [BitVec.getLsbD_or, BitVec.getLsbD_and, BitVec.getLsbD_not,
      BitVec.getLsbD_xor, small, decide_true, Bool.true_and,
      BitVec.getLsbD_zero] at equal ⊢
    revert equal
    cases cst.getLsbD bit <;> cases used.getLsbD bit <;>
      cases put.getLsbD bit <;> cases target.getLsbD bit <;> decide
  · intro clear
    apply BitVec.eq_of_getLsbD_eq
    intro bit small
    have equal := congrArg (fun value => value.getLsbD bit) clear
    simp only [BitVec.getLsbD_or, BitVec.getLsbD_and, BitVec.getLsbD_not,
      BitVec.getLsbD_xor, small, decide_true, Bool.true_and,
      BitVec.getLsbD_zero] at equal ⊢
    revert equal
    cases cst.getLsbD bit <;> cases used.getLsbD bit <;>
      cases put.getLsbD bit <;> cases target.getLsbD bit <;> decide

theorem swapped_eq_iff (op : PtlOp) (type : IntegerType)
    (cst used put target : type.Value) :
    op.swapped type used put target = op.swapped type cst put target ↔
      op.Insensitive type cst used put target := by
  unfold PtlOp.swapped PtlOp.Insensitive
  by_cases masked : op = .mswap
  · rw [if_pos masked, if_pos masked, if_pos masked]
    exact masked_eq_iff cst used put target
  · rw [if_neg masked, if_neg masked, if_neg masked]
    cases op.holds (type.value used) (type.value target) <;>
      cases op.holds (type.value cst) (type.value target) <;>
      simp [eq_comm]

/-- `PtlSwap` up to `cq->acquire()`.  It builds the request of a FetchAtomic,
which has no room for the operand behind `cst`. -/
def ptlSwap (sys : Sys) (self : Actor) (s : State) (cmd : Command)
    (_cst : Addr) : Segment :=
  (ptlRequest sys self s { cmd with type := .fetchAtomic },
    [.cqAcquire cmd.md.ni s.nextMsg])

theorem apiCall_swap (sys : Sys) (self : Actor) (s : State) (cmd : Command)
    (cst : Addr) :
    apiCall sys self s (.request { cmd with type := .fetchAtomic }) =
      some (ptlSwap sys self s cmd cst) := rfl

/-- The request of a `PtlSwap`. -/
def swapRequest (sys : Sys) (self : Actor) (cmd : Command) : BxiRequest :=
  newRequest sys self { cmd with type := .fetchAtomic }

/-- A run in which an application calls `PtlSwap` and a NIC target is about to
handle the request, for which it finds an entry. -/
structure SwapArrives (sys : Sys) (before s : State) (process : ThreadId)
    (actor : Actor) (cmd : Command) (target : Actor) (msg : MsgId)
    (me : MeId) : Prop where
  reachable : Reachable sys before
  idle : before.threads[process]? = some ⟨actor, []⟩
  calls : ∃ called, step sys before
      (.call process (.request { cmd with type := .fetchAtomic })) =
        some called ∧ Reached (step sys) Anything called s
  request : s.reqOf msg = before.nextReq
  handles : Handles sys target s msg .fetchAtomic me

/-- What a swap should do: the old value in the buffer of the reply, and the
operand decides on the new one. -/
def Swaps (sys : Sys) (atomics : Atomics) (target : Actor) (s : State)
    (msg : MsgId) (asked : BxiRequest) (entry : BxiME) (type : IntegerType)
    (cst : type.Value) (memory : Bytes) : Prop :=
  ∃ after, handledMemory sys atomics target s msg memory = some after ∧
    after.load asked.fetched type.size =
      memory.load (entry.getOffsettedAddr asked) type.size ∧
    after.load (entry.getOffsettedAddr asked) type.size =
      asked.op.swapped type cst (memory.load asked.operand type.size)
        (memory.load (entry.getOffsettedAddr asked) type.size)

section Swap

variable {sys : Sys} {before s : State} {process : ThreadId} {actor : Actor}
  {cmd : Command} {target : Actor} {msg : MsgId} {me : MeId}

/-- The request keeps the arguments of the call, except for the operand. -/
theorem SwapArrives.fixed
    (arrives : SwapArrives sys before s process actor cmd target msg me) :
    (s.reqs (s.reqOf msg)).fixed = (swapRequest sys actor cmd).fixed := by
  obtain ⟨called, stepped, later⟩ := arrives.calls
  have grows := Reached.extends later
  cases step_advances stepped with
  | dangling dead owner =>
      have young := arrives.handles.parent
      rw [arrives.request] at young
      rcases later.head with same | ⟨label, next, permitted, onward, rest⟩
      · rw [same] at young
        exact absurd young (Nat.lt_irrefl _)
      · cases (step_enabled onward).1
  | @call self _ new after found user owned alive phase =>
      have idle := arrives.idle
      dsimp only [Label.thread] at found
      rw [idle] at found
      cases found
      cases phase with
      | request =>
          have recorded := grows.reqs before.nextReq (Nat.lt_succ_self _)
          rw [arrives.request, recorded]
          simp only [ptlRequest, newRequestMsg, State.newMsg,
            Function.update_self]
          rfl

theorem getOffsettedAddr_fixed (entry : BxiME) {req asked : BxiRequest}
    (fixed : req.fixed = asked.fixed) :
    entry.getOffsettedAddr req = entry.getOffsettedAddr asked := by
  have access := access_congr (rfl : entry.me = entry.me) rfl fixed
  simp only [BxiME.access, Prod.mk.injEq] at access
  exact access.2.1

theorem getMlength_fixed (entry : BxiME) {req asked : BxiRequest}
    (fixed : req.fixed = asked.fixed) :
    entry.getMlength req = entry.getMlength asked := by
  have access := access_congr (rfl : entry.me = entry.me) rfl fixed
  simp only [BxiME.access, Prod.mk.injEq] at access
  exact access.1

/-- An entry with room for an element is not empty. -/
theorem SwapArrives.nonempty
    (arrives : SwapArrives sys before s process actor cmd target msg me)
    {size : Nat} (positive : 0 < size)
    (one : (s.mes me).getMlength (swapRequest sys actor cmd) = size) :
    (s.mes me).me.length ≠ 0 := by
  obtain ⟨called, stepped, later⟩ := arrives.calls
  have reached : Reachable sys s :=
    Reached.trans (.tail arrives.reachable trivial stepped) later
  obtain ⟨pt, list, fail, found⟩ := arrives.handles.found
  have matched := (matched_of_matchEntry found)
  have small : me < s.nextMe :=
    ((ReachedBy.wellScoped reached).tables.matched matched).2
  have inside := offsetAfter_le (s.mes me).me (s.sizes me)
  rw [← (ReachedBy.tracked reached).offset me small] at inside
  intro empty
  rw [empty] at inside
  have start : (s.mes me).manageLocalOffset = 0 := Nat.le_zero.mp inside
  have nothing : (s.mes me).getMlength (swapRequest sys actor cmd) = 0 := by
    unfold BxiME.getMlength
    rw [empty, start]
    have full : sub64 0 0 = 0 := rfl
    simp only [full]
    split
    · rfl
    · rename_i unasked
      exact Nat.le_zero.mp (Nat.le_of_not_lt unasked)
  rw [nothing] at one
  exact absurd one.symm positive.ne'

/-- The handler of a FetchAtomic depends on the fixed fields of the request
only. -/
theorem handledMemory_fixed (atomics : Atomics)
    (handles : Handles sys target s msg .fetchAtomic me)
    {asked : BxiRequest} (fixed : (s.reqs (s.reqOf msg)).fixed = asked.fixed)
    (valid : FetchesValid sys asked (s.mes me)) (memory : Bytes) :
    handledMemory sys atomics target s msg memory =
      if sys.operates target asked then
        atomics (s.reqOf msg) (asked.atomicCall (s.mes me) asked.fetchCst)
          (fetchedMemory sys asked (s.mes me) memory)
      else
        some memory := by
  have start := getOffsettedAddr_fixed (s.mes me) fixed
  have mlength := getMlength_fixed (s.mes me) fixed
  have operates : sys.operates target (s.reqs (s.reqOf msg)) =
      sys.operates target asked := (congrArg (sys.operates target) fixed :)
  have fetched : (s.reqs (s.reqOf msg)).fetched = asked.fetched :=
    (congrArg BxiRequest.fetched fixed :)
  have operand : (s.reqs (s.reqOf msg)).operand = asked.operand :=
    (congrArg BxiRequest.operand fixed :)
  have op : (s.reqs (s.reqOf msg)).op = asked.op :=
    (congrArg BxiRequest.op fixed :)
  have datatype : (s.reqs (s.reqOf msg)).datatype = asked.datatype :=
    (congrArg BxiRequest.datatype fixed :)
  have call : (s.reqs (s.reqOf msg)).atomicCall (s.mes me)
      (s.reqs (s.reqOf msg)).fetchCst =
      asked.atomicCall (s.mes me) asked.fetchCst := by
    simp only [BxiRequest.atomicCall, BxiRequest.fetchCst, op, datatype,
      operand, start, mlength]
  have saved : fetchedMemory sys (s.reqs (s.reqOf msg)) (s.mes me) memory =
      fetchedMemory sys asked (s.mes me) memory := by
    simp only [fetchedMemory, fetched, start, mlength]
  have sound : FetchesValid sys (s.reqs (s.reqOf msg)) (s.mes me) := by
    unfold FetchesValid at valid ⊢
    rw [fetched, start, mlength]
    exact valid
  rw [handledMemory_fetchAtomic atomics handles sound, operates, call, saved]

/-- The memory after the handler of a swap of one element. -/
theorem handledMemory_swap (cstField : ReqId → Addr) (others : Atomics)
    {type : IntegerType} {memory : Bytes}
    (arrives : SwapArrives sys before s process actor cmd target msg me)
    (swap : cmd.op.isSwap = true) (datatype : cmd.datatype = type.type)
    (one : (s.mes me).getMlength (swapRequest sys actor cmd) = type.size)
    (real : sys.operates target (swapRequest sys actor cmd) = true)
    (uncapped : sys.cfg.maxMemcpy = -1)
    (valid : FetchesValid sys (swapRequest sys actor cmd) (s.mes me))
    {copied : Bytes} (copies : copied =
      memory.copy (swapRequest sys actor cmd).fetched
        ((s.mes me).getOffsettedAddr (swapRequest sys actor cmd))
        type.size) :
    handledMemory sys (integerAtomics cstField others) target s msg memory =
      some (copied.store
        ((s.mes me).getOffsettedAddr (swapRequest sys actor cmd))
        (cmd.op.swapped type
          (copied.load (cstField (s.reqOf msg)) type.size)
          (copied.load (swapRequest sys actor cmd).operand type.size)
          (copied.load ((s.mes me).getOffsettedAddr
            (swapRequest sys actor cmd)) type.size))) := by
  have typed : ((swapRequest sys actor cmd).atomicCall (s.mes me)
      (swapRequest sys actor cmd).fetchCst).datatype = type.type := datatype
  have field : (swapRequest sys actor cmd).fetchCst = none := if_pos swap
  rw [handledMemory_fixed _ arrives.handles arrives.fixed valid, if_pos real,
    integerAtomics_eq _ _ _ typed, fetchedMemory,
    if_pos (arrives.nonempty type.size_pos one),
    cappedCount_uncapped uncapped, one, ← copies, field]
  simp only [BxiRequest.atomicCall, one, Option.getD_none]
  exact applyAtomicOp_swap swap type _ _ _ copied

end Swap

/-! ## Runs -/

/-- What is computed of the states before a step and at the end of a run. -/
theorem reached_after_of_executes (sys : Sys) (first : List Label)
    (label : Label) (rest : List Label) (property : State → State → Bool)
    (executed : (executes sys (fun _ _ => true) first).any (fun before =>
      (step sys before label).any fun called =>
        (runLabels (step sys) (fun _ _ => true) called rest).any
          (property before)) = true) :
    ∃ before s, Reachable sys before ∧
      (∃ called, step sys before label = some called ∧
        Reached (step sys) Anything called s) ∧ property before s = true := by
  obtain ⟨before, final, later⟩ := (Option.any_eq_true _ _).mp executed
  obtain ⟨called, stepped, onward⟩ := (Option.any_eq_true _ _).mp later
  obtain ⟨s, finished, holds⟩ := (Option.any_eq_true _ _).mp onward
  exact ⟨before, s, reached_of_runLabels (fun _ _ _ => trivial) final,
    ⟨called, stepped, reached_of_runLabels (fun _ _ _ => trivial) finished⟩,
    holds⟩

/-- The initialisation of both nodes with an entry of the second one. -/
def beforeSwap : List Label :=
  prologue ++ appends { start := 1000, length := 100 } .priority :: runs 6 3

/-- From the call of `PtlSwap` to its arrival. -/
def afterSwap : List Label :=
  runs 0 3 ++ .take 1 :: runs 1 8 ++ [.recv 9 0]

/-- A swap of one `int32_t`. -/
def swapCommand (op : PtlOp) : Command :=
  { md := { ni := 0, start := 500, length := 64 }
    getMd := { ni := 0, start := 700, length := 64 }
    length := 4
    op := op
    datatype := .int32
    targetNid := 1
    targetPid := 11 }

/-- The application of the first node. -/
def firstApplication : Actor := ⟨.userApp, 0, .computeRequest⟩

def int32 : IntegerType := ⟨.int32, rfl⟩

/-- Whether a swap of the first application is about to be called in the first
state and handled in the second one. -/
def swapChecked (op : PtlOp) (before s : State) : Bool :=
  (before.threads[0]?).any (fun thread =>
    decide (thread.role = firstApplication) && thread.ops.isEmpty) &&
  s.handlesNext 9 0 && decide (s.reqOf 0 = before.nextReq) &&
  decide (Handles reliableNodes secondTarget s 0 .fetchAtomic 0) &&
  decide ((s.mes 0).getMlength (swapRequest reliableNodes firstApplication
    (swapCommand op)) = int32.size) &&
  decide ((s.mes 0).getOffsettedAddr (swapRequest reliableNodes
    firstApplication (swapCommand op)) = 1000)

theorem swapArrives_of_checked {op : PtlOp} {before s : State}
    (reachable : Reachable reliableNodes before)
    (calls : ∃ called, step reliableNodes before (.call 0 (.request
      { swapCommand op with type := .fetchAtomic })) = some called ∧
        Reached (step reliableNodes) Anything called s)
    (checked : swapChecked op before s = true) :
    SwapArrives reliableNodes before s 0 firstApplication (swapCommand op)
      secondTarget 0 0 ∧ s.handlesNext 9 0 = true ∧
    (s.mes 0).getMlength (swapRequest reliableNodes firstApplication
      (swapCommand op)) = int32.size ∧
    (s.mes 0).getOffsettedAddr (swapRequest reliableNodes firstApplication
      (swapCommand op)) = 1000 := by
  simp only [swapChecked, Bool.and_eq_true, decide_eq_true_eq] at checked
  obtain ⟨⟨⟨⟨⟨idle, next⟩, request⟩, handles⟩, one⟩, start⟩ := checked
  obtain ⟨thread, found, waits⟩ := (Option.any_eq_true _ _).mp idle
  obtain ⟨role, ops⟩ := thread
  simp only [Bool.and_eq_true, decide_eq_true_eq, List.isEmpty_iff] at waits
  obtain ⟨rfl, rfl⟩ := waits
  exact ⟨⟨reachable, found, calls, request, handles⟩, next, one, start⟩

/-- One in the put buffer, five after the request and zero elsewhere. -/
def swapMemory : Bytes := fun byte =>
  if byte = 500 then 1 else if byte = 3000 then 5 else 0

end S4BXI
