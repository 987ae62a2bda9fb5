import S4BXI.Memory.Accesses
import S4BXI.Memory.Contents

/-!
# What the handlers of atomic requests do to memory

Both handlers call `apply_atomic_op` at the address and with the length which
the matched entry gives for the request.  The handler of a FetchAtomic copies
the range to the buffer of the reply before.
-/

namespace S4BXI

open Lib

namespace BxiRequest

/-- The operand in the memory of the initiator. -/
def operand (req : BxiRequest) : Addr := add64 req.md.start req.localOffset

/-- The buffer which receives the reply of a FetchAtomic. -/
def fetched (req : BxiRequest) : Addr :=
  add64 req.getMd.start req.getLocalOffset

/-- The call of `apply_atomic_op` for a request and the entry it matched. -/
def atomicCall (req : BxiRequest) (entry : BxiME) (cst : Option Addr) :
    AtomicCall :=
  { op := req.op
    datatype := req.datatype
    me := entry.getOffsettedAddr req
    cst := cst
    rx := req.operand
    tx := entry.getOffsettedAddr req
    len := entry.getMlength req }

/-- The `cst` which `handle_fetch_atomic_request` gives to
`apply_atomic_op`. -/
def fetchCst (req : BxiRequest) : Option Addr :=
  if req.op.isSwap then none else some req.operand

end BxiRequest

/-- A NIC target is about to handle a request for which it finds an entry. -/
structure Handles (sys : Sys) (target : Actor) (s : State) (msg : MsgId)
    (kind : ReqType) (me : MeId) : Prop where
  live : ∀ ptr ∈ msgPtrs s msg, s.live ptr = true
  type : (s.msgs msg).type = kind.msgType
  fresh : ¬(s.reqs (s.reqOf msg)).processState > .created
  found : ∃ pt list fail,
    matchEntry sys s target.nid msg = (some (pt, list, me), fail)

/-- Whether the handlers of atomic requests access memory. -/
def Sys.operates (sys : Sys) (self : Actor) (req : BxiRequest) : Bool :=
  sys.useRealMemory self.nid && req.md.length ≠ 0

/-- The memory after the handler of a message. -/
def handledMemory (sys : Sys) (atomics : Atomics) (self : Actor) (s : State)
    (msg : MsgId) (memory : Bytes) : Option Bytes :=
  performAll atomics (Machine.effects s (handleMsg sys self s msg).1) memory

section Handlers

variable {sys : Sys} {self : Actor} {s : State} {msg : MsgId} {kind : ReqType}
  {me : MeId}

theorem Handles.allocated (handles : Handles sys self s msg kind me) :
    msg < s.nextMsg := by
  have live := handles.live (.msg msg) (by simp [msgPtrs])
  simp only [State.live, Bool.and_eq_true, decide_eq_true_eq] at live
  exact live.2

theorem Handles.parent (handles : Handles sys self s msg kind me) :
    s.reqOf msg < s.nextReq := by
  have live := handles.live (.req (s.reqOf msg)) (by simp [msgPtrs])
  simp only [State.live, Bool.and_eq_true, decide_eq_true_eq] at live
  exact live.2

/-- A request after its deposit: the fields of the constructor, and the access
which the entry gives. -/
structure Deposited (s : State) (msg : MsgId) (me : MeId) (after : State) :
    Prop where
  fixed : (after.reqs (s.reqOf msg)).fixed = (s.reqs (s.reqOf msg)).fixed
  access : (after.reqs (s.reqOf msg)).access =
    (s.mes me).access (s.reqs (s.reqOf msg))
  entry : (after.mes me).me = (s.mes me).me
  log : ∃ pt list, after.log =
    s.log ++ [.consumed (s.reqOf msg) msg pt list me]

theorem Handles.deposited (handles : Handles sys self s msg kind me)
    (pt : PtId) (list : PtlList) (fail : NiFailType) :
    Deposited s msg me (deposit s msg pt list me fail kind) where
  fixed := (Extends.deposit s msg pt list me fail kind).reqs _ handles.parent
  access := by
    have deposits : Deposits s msg me
        ((deposit s msg pt list me fail kind).touch [] s.halted) :=
      deposits_deposit handles.allocated pt list me fail kind s.halted
        (by simp)
    exact deposits.access
  entry := by simp [deposit]
  log := ⟨pt, list, deposit_log handles.allocated pt list me fail kind⟩

theorem Deposited.md {after : State} (deposited : Deposited s msg me after) :
    (after.reqs (s.reqOf msg)).md = (s.reqs (s.reqOf msg)).md :=
  (congrArg BxiRequest.md deposited.fixed :)

theorem Deposited.operand {after : State}
    (deposited : Deposited s msg me after) :
    (after.reqs (s.reqOf msg)).operand = (s.reqs (s.reqOf msg)).operand :=
  (congrArg BxiRequest.operand deposited.fixed :)

theorem Deposited.fetchCst {after : State}
    (deposited : Deposited s msg me after) :
    (after.reqs (s.reqOf msg)).fetchCst = (s.reqs (s.reqOf msg)).fetchCst :=
  (congrArg BxiRequest.fetchCst deposited.fixed :)

/-- The call of `apply_atomic_op` with the fields of the request. -/
theorem Deposited.atomicCall {after : State}
    (deposited : Deposited s msg me after) (cst : Option Addr) :
    AtomicCall.mk (after.reqs (s.reqOf msg)).op
      (after.reqs (s.reqOf msg)).datatype (after.reqs (s.reqOf msg)).start cst
      (after.reqs (s.reqOf msg)).operand (after.reqs (s.reqOf msg)).start
      (after.reqs (s.reqOf msg)).mlength =
    (s.reqs (s.reqOf msg)).atomicCall (s.mes me) cst := by
  have op : (after.reqs (s.reqOf msg)).op = (s.reqs (s.reqOf msg)).op :=
    (congrArg BxiRequest.op deposited.fixed :)
  have datatype : (after.reqs (s.reqOf msg)).datatype =
      (s.reqs (s.reqOf msg)).datatype :=
    (congrArg BxiRequest.datatype deposited.fixed :)
  have access := deposited.access
  simp only [BxiRequest.access, BxiME.access, Prod.mk.injEq] at access
  rw [op, datatype, deposited.operand, access.1, access.2.1]
  rfl

/-- What is recorded by a handler. -/
theorem effects_deposited {after later : State} {effects : List Obs}
    (deposited : Deposited s msg me after)
    (log : later.log = after.log ++ effects) :
    ∃ pt list, Machine.effects s later =
      .consumed (s.reqOf msg) msg pt list me :: effects := by
  obtain ⟨pt, list, recorded⟩ := deposited.log
  refine ⟨pt, list, ?_⟩
  rw [Machine.effects, log, recorded, List.append_assoc, List.drop_left]
  rfl

/-- The handler of an Atomic applies the operation, if it accesses memory. -/
theorem effects_atomic (handles : Handles sys self s msg .atomic me) :
    ∃ pt list, Machine.effects s (handleMsg sys self s msg).1 =
      .consumed (s.reqOf msg) msg pt list me ::
        if sys.operates self (s.reqs (s.reqOf msg)) then
          [.atomicOp (s.reqOf msg) ((s.reqs (s.reqOf msg)).atomicCall
            (s.mes me) (some (s.reqs (s.reqOf msg)).operand))]
        else [] := by
  obtain ⟨pt, list, fail, found⟩ := handles.found
  have type : (s.msgs msg).type = .ptlAtomic := handles.type
  have shape : receive (takeEntry s msg pt list me) msg me
      (((takeEntry s msg pt list me).mes me).list == .overflow) =
      deposit s msg pt list me fail .atomic := by
    simp [deposit, answering, copies]
  have deposited := handles.deposited pt list fail
  have guard : (sys.useRealMemory self.nid &&
      decide (((deposit s msg pt list me fail .atomic).reqs
        (s.reqOf msg)).md.length ≠ 0)) =
      sys.operates self (s.reqs (s.reqOf msg)) := by
    rw [deposited.md]
    rfl
  simp only [handleMsg, type, handleAtomicRequest, if_neg handles.fresh,
    found, shape, guard]
  by_cases operates : sys.operates self (s.reqs (s.reqOf msg)) = true
  · rw [if_pos operates, if_pos operates, ← deposited.atomicCall,
      ← deposited.operand]
    exact effects_deposited deposited rfl
  · rw [if_neg operates, if_neg operates]
    exact effects_deposited deposited (List.append_nil _).symm

/-- The memory after the handler of an Atomic. -/
theorem handledMemory_atomic (atomics : Atomics)
    (handles : Handles sys self s msg .atomic me) (memory : Bytes) :
    handledMemory sys atomics self s msg memory =
      if sys.operates self (s.reqs (s.reqOf msg)) then
        atomics (s.reqOf msg) ((s.reqs (s.reqOf msg)).atomicCall (s.mes me)
          (some (s.reqs (s.reqOf msg)).operand)) memory
      else
        some memory := by
  obtain ⟨pt, list, effects⟩ := effects_atomic handles
  rw [handledMemory, effects, performAll_cons]
  by_cases operates : sys.operates self (s.reqs (s.reqOf msg)) = true
  · rw [if_pos operates, if_pos operates]
    exact performAll_atomicOp _ _ _ _
  · rw [if_neg operates, if_neg operates]
    rfl

/-- The memory which the handler of a FetchAtomic gives to `apply_atomic_op`:
the old contents are in the buffer of the reply, up to `max_memcpy` and unless
the entry is empty. -/
def fetchedMemory (sys : Sys) (req : BxiRequest) (entry : BxiME)
    (memory : Bytes) : Bytes :=
  if entry.me.length ≠ 0 then
    memory.copy req.fetched (entry.getOffsettedAddr req)
      (cappedCount sys.cfg (entry.getMlength req))
  else
    memory

/-- The assertion of `capped_memcpy` for the copy to the buffer of a reply. -/
def FetchesValid (sys : Sys) (req : BxiRequest) (entry : BxiME) : Prop :=
  cappedCount sys.cfg (entry.getMlength req) = 0 ∨
    req.fetched ≠ 0 ∧ entry.getOffsettedAddr req ≠ 0

theorem Deposited.fetched {after : State}
    (deposited : Deposited s msg me after) :
    (after.reqs (s.reqOf msg)).fetched = (s.reqs (s.reqOf msg)).fetched :=
  (congrArg BxiRequest.fetched deposited.fixed :)

theorem cappedMemcpy_valid (sys : Sys) (s : State) (req : ReqId)
    {dest src : Addr} {count : Size}
    (valid : cappedCount sys.cfg count = 0 ∨ dest ≠ 0 ∧ src ≠ 0) :
    cappedMemcpy sys s req dest src count =
      s.emit (.memcpy req dest src (cappedCount sys.cfg count)) := by
  apply if_neg
  rcases valid with nothing | ⟨written, read⟩
  · simp [nothing]
  · simp [written, read]

/-- The accesses of a FetchAtomic, in their order. -/
def fetchEffects (sys : Sys) (id : ReqId) (req : BxiRequest)
    (entry : BxiME) : List Obs :=
  (if entry.me.length ≠ 0 then
    [.memcpy id req.fetched (entry.getOffsettedAddr req)
      (cappedCount sys.cfg (entry.getMlength req))]
  else []) ++ [.atomicOp id (req.atomicCall entry req.fetchCst)]

theorem performAll_fetchEffects (sys : Sys) (atomics : Atomics) (id : ReqId)
    (req : BxiRequest) (entry : BxiME) (memory : Bytes) :
    performAll atomics (fetchEffects sys id req entry) memory =
      atomics id (req.atomicCall entry req.fetchCst)
        (fetchedMemory sys req entry memory) := by
  unfold fetchEffects fetchedMemory
  by_cases empty : entry.me.length ≠ 0
  · rw [if_pos empty, if_pos empty]
    exact performAll_atomicOp _ _ _ _
  · rw [if_neg empty, if_neg empty]
    exact performAll_atomicOp _ _ _ _

theorem fetchAtomicMemory_log
    (handles : Handles sys self s msg .fetchAtomic me) (pt : PtId)
    (list : PtlList) (fail : NiFailType)
    (valid : FetchesValid sys (s.reqs (s.reqOf msg)) (s.mes me))
    (operates : sys.operates self (s.reqs (s.reqOf msg)) = true) :
    (fetchAtomicMemory sys self (deposit s msg pt list me fail .fetchAtomic)
      (s.reqOf msg) me).log =
      (deposit s msg pt list me fail .fetchAtomic).log ++
        fetchEffects sys (s.reqOf msg) (s.reqs (s.reqOf msg)) (s.mes me) := by
  have deposited := handles.deposited pt list fail
  have kept := offsetKept_deposit s msg pt list me fail
  have address := matchedAddr_deposit handles.allocated pt list me fail
  generalize deposit s msg pt list me fail .fetchAtomic = after at *
  have access := deposited.access
  simp only [BxiRequest.access, BxiME.access, Prod.mk.injEq] at access
  obtain ⟨mlength, start, -⟩ := access
  have guard : (sys.useRealMemory self.nid &&
      decide ((after.reqs (s.reqOf msg)).md.length ≠ 0)) = true := by
    rw [deposited.md]
    exact operates
  have applied : ∀ next : State, next.reqs = after.reqs →
      ((matchedAddr next (s.reqOf msg)).2.emit (.atomicOp (s.reqOf msg)
        { op := (after.reqs (s.reqOf msg)).op
          datatype := (after.reqs (s.reqOf msg)).datatype
          me := (after.reqs (s.reqOf msg)).start
          cst := (after.reqs (s.reqOf msg)).fetchCst
          rx := (after.reqs (s.reqOf msg)).operand
          tx := (matchedAddr next (s.reqOf msg)).1
          len := (after.reqs (s.reqOf msg)).mlength })).log =
        next.log ++ [.atomicOp (s.reqOf msg)
          ((s.reqs (s.reqOf msg)).atomicCall (s.mes me)
            (s.reqs (s.reqOf msg)).fetchCst)] := by
    intro next reqs
    have same : OffsetKept next (s.reqOf msg) := by
      unfold OffsetKept
      rw [reqs]
      exact kept
    rw [matchedAddr_state same, matchedAddr_of_reqs reqs, address,
      deposited.atomicCall, deposited.fetchCst]
    rfl
  unfold fetchAtomicMemory fetchEffects
  dsimp only
  rw [if_pos guard, deposited.entry]
  by_cases empty : (s.mes me).me.length ≠ 0
  · have copied : cappedMemcpy sys after (s.reqOf msg)
        (add64 (after.reqs (s.reqOf msg)).getMd.start
          (after.reqs (s.reqOf msg)).getLocalOffset)
        (after.reqs (s.reqOf msg)).start
        (after.reqs (s.reqOf msg)).mlength =
        after.emit (.memcpy (s.reqOf msg) (s.reqs (s.reqOf msg)).fetched
          ((s.mes me).getOffsettedAddr (s.reqs (s.reqOf msg)))
          (cappedCount sys.cfg
            ((s.mes me).getMlength (s.reqs (s.reqOf msg))))) := by
      rw [← deposited.fetched, ← start, ← mlength]
      apply cappedMemcpy_valid
      rw [mlength, start]
      rw [FetchesValid, ← deposited.fetched] at valid
      exact valid
    rw [if_pos empty, if_pos empty, copied, ← List.append_assoc]
    exact applied _ rfl
  · rw [if_neg empty, if_neg empty]
    exact applied after rfl

/-- The handler of a FetchAtomic saves the old contents and applies the
operation to the range it saved. -/
theorem effects_fetchAtomic
    (handles : Handles sys self s msg .fetchAtomic me)
    (valid : FetchesValid sys (s.reqs (s.reqOf msg)) (s.mes me)) :
    ∃ pt list, Machine.effects s (handleMsg sys self s msg).1 =
      .consumed (s.reqOf msg) msg pt list me ::
        if sys.operates self (s.reqs (s.reqOf msg)) then
          fetchEffects sys (s.reqOf msg) (s.reqs (s.reqOf msg)) (s.mes me)
        else [] := by
  obtain ⟨pt, list, fail, found⟩ := handles.found
  have type : (s.msgs msg).type = .ptlFetchAtomic := handles.type
  have shape : receive (takeEntry (newResponse s msg .ptlFetchAtomicResponse
      fail) msg pt list me) msg me true =
      deposit s msg pt list me fail .fetchAtomic := rfl
  have deposited := handles.deposited pt list fail
  simp only [handleMsg, type, handleFetchAtomicRequest, if_neg handles.fresh,
    found, shape]
  by_cases operates : sys.operates self (s.reqs (s.reqOf msg)) = true
  · rw [if_pos operates]
    exact effects_deposited deposited
      (fetchAtomicMemory_log handles pt list fail valid operates)
  · have idle : ¬(sys.useRealMemory self.nid &&
        decide (((deposit s msg pt list me fail .fetchAtomic).reqs
          (s.reqOf msg)).md.length ≠ 0)) = true := by
      rw [deposited.md]
      exact operates
    have untouched : fetchAtomicMemory sys self
        (deposit s msg pt list me fail .fetchAtomic) (s.reqOf msg) me =
        deposit s msg pt list me fail .fetchAtomic := by
      unfold fetchAtomicMemory
      exact if_neg idle
    rw [if_neg operates, untouched]
    exact effects_deposited deposited (List.append_nil _).symm

/-- The memory after the handler of a FetchAtomic. -/
theorem handledMemory_fetchAtomic (atomics : Atomics)
    (handles : Handles sys self s msg .fetchAtomic me)
    (valid : FetchesValid sys (s.reqs (s.reqOf msg)) (s.mes me))
    (memory : Bytes) :
    handledMemory sys atomics self s msg memory =
      if sys.operates self (s.reqs (s.reqOf msg)) then
        atomics (s.reqOf msg) ((s.reqs (s.reqOf msg)).atomicCall (s.mes me)
            (s.reqs (s.reqOf msg)).fetchCst)
          (fetchedMemory sys (s.reqs (s.reqOf msg)) (s.mes me) memory)
      else
        some memory := by
  obtain ⟨pt, list, effects⟩ := effects_fetchAtomic handles valid
  rw [handledMemory, effects, performAll_cons]
  by_cases operates : sys.operates self (s.reqs (s.reqOf msg)) = true
  · rw [if_pos operates, if_pos operates]
    exact performAll_fetchEffects sys atomics _ _ _ memory
  · rw [if_neg operates, if_neg operates]
    rfl

/-! ## The length check -/

/-- `apply_atomic_op` on any type: the check of the length, then the loop. -/
def checkedAtomics (loop : Atomics) : Atomics := fun req call memory =>
  if call.len % ptlAtsize call.datatype ≠ 0 then none
  else loop req call memory

/-- The room left in an entry, as `get_mlength` computes it. -/
def BxiME.room (entry : BxiME) : Size :=
  sub64 entry.me.length entry.manageLocalOffset

/-- The handler of a message never fails the length check, so that it completes
whatever the loop does. -/
structure PassesCheck (sys : Sys) (target : Actor) (s : State) (msg : MsgId) :
    Prop where
  multiple : ∀ req call,
    .atomicOp req call ∈ Machine.effects s (handleMsg sys target s msg).1 →
      call.len % ptlAtsize call.datatype = 0
  completes : ∀ loop memory,
    handledMemory sys (checkedAtomics loop) target s msg memory =
      handledMemory sys loop target s msg memory

/-- An entry truncates a request to a multiple of the size of its elements. -/
def BxiRequest.EvenlyTruncated (req : BxiRequest) (entry : BxiME) : Prop :=
  req.payloadSize ≤ entry.room ∨ entry.room % ptlAtsize req.datatype = 0

theorem mlength_multiple_iff {req : BxiRequest} (entry : BxiME)
    (whole : req.payloadSize % ptlAtsize req.datatype = 0) :
    entry.getMlength req % ptlAtsize req.datatype = 0 ↔
      req.EvenlyTruncated entry := by
  unfold BxiME.getMlength BxiRequest.EvenlyTruncated
  change (if entry.room < req.payloadSize then entry.room
    else req.payloadSize) % _ = 0 ↔ _
  by_cases truncated : entry.room < req.payloadSize
  · rw [if_pos truncated]
    constructor
    · exact fun even => .inr even
    · intro even
      exact even.resolve_left (not_le_of_gt truncated)
  · rw [if_neg truncated]
    constructor
    · exact fun _ => .inl (le_of_not_gt truncated)
    · exact fun _ => whole

theorem performAll_append (atomics : Atomics) (first second : List Obs)
    (memory : Bytes) :
    performAll atomics (first ++ second) memory =
      (performAll atomics first memory).bind (performAll atomics second) :=
  List.foldlM_append ..

/-- Copies do not depend on `apply_atomic_op`. -/
theorem performAll_copies (atomics others : Atomics) {log : List Obs}
    (copies : ∀ obs ∈ log, ∃ req dest src count,
      obs = .memcpy req dest src count) (memory : Bytes) :
    performAll atomics log memory = performAll others log memory := by
  induction log generalizing memory with
  | nil => rfl
  | cons obs log induction =>
      obtain ⟨req, dest, src, count, rfl⟩ := copies obs List.mem_cons_self
      rw [performAll_cons, performAll_cons]
      exact induction (fun obs member =>
        copies obs (List.mem_cons_of_mem _ member)) _

/-- A handler which copies and then calls `apply_atomic_op`. -/
theorem passesCheck_of_effects {pt : PtId} {list : PtlList} {id : ReqId}
    {before : List Obs} {call : AtomicCall}
    (effects : Machine.effects s (handleMsg sys self s msg).1 =
      .consumed id msg pt list me :: (before ++ [.atomicOp id call]))
    (copies : ∀ obs ∈ before, ∃ req dest src count,
      obs = .memcpy req dest src count) :
    PassesCheck sys self s msg ↔ call.len % ptlAtsize call.datatype = 0 := by
  constructor
  · intro passes
    apply passes.multiple id call
    rw [effects]
    simp
  · intro even
    constructor
    · intro req other member
      rw [effects] at member
      rcases List.mem_cons.mp member with matched | member
      · cases matched
      · rcases List.mem_append.mp member with copied | applied
        · obtain ⟨_, _, _, _, copy⟩ := copies _ copied
          cases copy
        · cases List.mem_singleton.mp applied
          exact even
    · intro loop memory
      have same : ∀ memory, performAll (checkedAtomics loop)
          [.atomicOp id call] memory =
          performAll loop [.atomicOp id call] memory := by
        intro memory
        rw [performAll_atomicOp, performAll_atomicOp]
        exact if_neg (not_not_intro even)
      simp only [handledMemory, effects, performAll_cons, performAll_append,
        performAll_copies (checkedAtomics loop) loop copies, funext same]
      rfl

theorem passesCheck_of_idle {pt : PtId} {list : PtlList} {id : ReqId}
    (effects : Machine.effects s (handleMsg sys self s msg).1 =
      [.consumed id msg pt list me]) : PassesCheck sys self s msg := by
  constructor
  · intro req call member
    rw [effects] at member
    cases List.mem_singleton.mp member
  · intro loop memory
    rw [handledMemory, handledMemory, effects]
    rfl

/-- The effects of both handlers are those of `passesCheck_of_effects` or of
`passesCheck_of_idle`. -/
theorem Handles.effects (handles : Handles sys self s msg kind me)
    (atomic : kind = .atomic ∨ kind = .fetchAtomic)
    (valid : kind = .fetchAtomic →
      FetchesValid sys (s.reqs (s.reqOf msg)) (s.mes me)) :
    ∃ pt list before cst, (∀ obs ∈ before, ∃ req dest src count,
        obs = .memcpy req dest src count) ∧
      Machine.effects s (handleMsg sys self s msg).1 =
        .consumed (s.reqOf msg) msg pt list me ::
          if sys.operates self (s.reqs (s.reqOf msg)) then
            before ++ [.atomicOp (s.reqOf msg)
              ((s.reqs (s.reqOf msg)).atomicCall (s.mes me) cst)]
          else [] := by
  rcases atomic with rfl | rfl
  · obtain ⟨pt, list, effects⟩ := effects_atomic handles
    exact ⟨pt, list, [], _, by simp, effects⟩
  · obtain ⟨pt, list, effects⟩ := effects_fetchAtomic handles (valid rfl)
    refine ⟨pt, list, _, _, ?_, effects⟩
    intro obs member
    split at member
    · exact ⟨_, _, _, _, List.mem_singleton.mp member⟩
    · cases member

/-- The length check of `apply_atomic_op` stops the handler of a whole number of
elements exactly when the entry truncates the request inside an element. -/
theorem truncation_spares_atomic_iff (sys : Sys) (target : Actor) (s : State)
    (msg : MsgId) (kind : ReqType) (me : MeId)
    (handles : Handles sys target s msg kind me)
    (atomic : kind = .atomic ∨ kind = .fetchAtomic)
    (whole : (s.reqs (s.reqOf msg)).payloadSize %
      ptlAtsize (s.reqs (s.reqOf msg)).datatype = 0)
    (valid : kind = .fetchAtomic →
      FetchesValid sys (s.reqs (s.reqOf msg)) (s.mes me)) :
    PassesCheck sys target s msg ↔
      (sys.operates target (s.reqs (s.reqOf msg)) = true →
        (s.reqs (s.reqOf msg)).EvenlyTruncated (s.mes me)) := by
  obtain ⟨pt, list, before, cst, copies, effects⟩ :=
    handles.effects atomic valid
  by_cases operates : sys.operates target (s.reqs (s.reqOf msg)) = true
  · rw [if_pos operates] at effects
    rw [passesCheck_of_effects effects copies]
    constructor
    · exact fun even _ => (mlength_multiple_iff _ whole).mp even
    · exact fun even => (mlength_multiple_iff _ whole).mpr (even operates)
  · rw [if_neg operates] at effects
    constructor
    · exact fun _ real => absurd real operates
    · exact fun _ => passesCheck_of_idle effects

end Handlers

/-! ## Runs -/

instance (sys : Sys) (target : Actor) (s : State) (msg : MsgId)
    (kind : ReqType) (me : MeId) :
    Decidable (Handles sys target s msg kind me) :=
  decidable_of_iff
    ((msgPtrs s msg).all s.live = true ∧ (s.msgs msg).type = kind.msgType ∧
      ¬(s.reqs (s.reqOf msg)).processState > .created ∧
      (matchEntry sys s target.nid msg).1.map (fun found => found.2.2) =
        some me)
    (by
      constructor
      · rintro ⟨live, type, fresh, found⟩
        refine ⟨List.all_eq_true.mp live, type, fresh, ?_⟩
        rcases search : matchEntry sys s target.nid msg with
          ⟨_ | ⟨pt, list, entry⟩, fail⟩
        · rw [search] at found
          cases found
        · rw [search] at found
          cases Option.some.inj found
          exact ⟨pt, list, fail, rfl⟩
      · rintro ⟨live, type, fresh, pt, list, fail, found⟩
        refine ⟨List.all_eq_true.mpr live, type, fresh, ?_⟩
        rw [found]
        rfl)

/-- `PtlAtomic`, `PtlFetchAtomic` or `PtlSwap` from the first application to
the second one. -/
def applies (type : ReqType) (op : PtlOp) (datatype : PtlDatatype)
    (length : Size) : Label :=
  .call 0 (.request
    { type := type
      md := { ni := 0, start := 500, length := 64 }
      getMd := { ni := 0, start := 700, length := 64 }
      length := length
      op := op
      datatype := datatype
      targetNid := 1
      targetPid := 11 })

/-- A request arrives at an entry. -/
def arrives (entry : PtlMe) (request : Label) : List Label :=
  prologue ++ appends entry .priority :: runs 6 3 ++
    request :: runs 0 3 ++ .take 1 :: runs 1 8 ++ [.recv 9 0]

/-- Whether a thread is about to handle a message. -/
def State.handlesNext (s : State) (process : ThreadId) (msg : MsgId) : Bool :=
  match (s.threads[process]?).map Thread.ops with
  | some (.handle next :: _) => next == msg
  | _ => false

/-- The NIC target of the compute requests of the second node. -/
def secondTarget : Actor := ⟨.nicTarget, 1, .computeRequest⟩

/-- Two nodes with reliable communications. -/
def reliableNodes : Sys := twoNodes {} { e2eOff := false }

/-- Two elements of two bytes arrive at an entry of three bytes. -/
theorem truncated_atomic_panics : ∃ s, Reachable reliableNodes s ∧
    s.handlesNext 9 0 = true ∧
    Handles reliableNodes secondTarget s 0 .atomic 0 ∧
    (s.reqs (s.reqOf 0)).payloadSize %
      ptlAtsize (s.reqs (s.reqOf 0)).datatype = 0 ∧
    ¬PassesCheck reliableNodes secondTarget s 0 := by
  obtain ⟨s, reachable, checked⟩ := reachable_of_executes reliableNodes
    (arrives { start := 1000, length := 3 } (applies .atomic .sum .int16 4))
    (fun s => s.handlesNext 9 0 &&
      decide (Handles reliableNodes secondTarget s 0 .atomic 0) &&
      decide ((s.reqs (s.reqOf 0)).payloadSize %
        ptlAtsize (s.reqs (s.reqOf 0)).datatype = 0) &&
      (Machine.effects s (handleMsg reliableNodes secondTarget s 0).1).any
        fun obs => match obs with
          | .atomicOp _ call => call.len % ptlAtsize call.datatype != 0
          | _ => false) (by decide +kernel)
  simp only [Bool.and_eq_true, decide_eq_true_eq] at checked
  obtain ⟨⟨⟨next, handles⟩, whole⟩, panics⟩ := checked
  refine ⟨s, reachable, next, handles, whole, ?_⟩
  intro passes
  obtain ⟨obs, member, odd⟩ := List.any_eq_true.mp panics
  cases obs with
  | atomicOp req call => simp [passes.multiple req call member] at odd
  | _ => cases odd

/-- Two elements of two bytes arrive at an entry of two bytes. -/
theorem evenly_truncated_atomic_passes : ∃ s, Reachable reliableNodes s ∧
    s.handlesNext 9 0 = true ∧
    PassesCheck reliableNodes secondTarget s 0 := by
  obtain ⟨s, reachable, checked⟩ := reachable_of_executes reliableNodes
    (arrives { start := 1000, length := 2 } (applies .atomic .sum .int16 4))
    (fun s => s.handlesNext 9 0 &&
      decide (Handles reliableNodes secondTarget s 0 .atomic 0) &&
      decide ((s.reqs (s.reqOf 0)).payloadSize %
        ptlAtsize (s.reqs (s.reqOf 0)).datatype = 0) &&
      decide ((s.mes 0).room %
        ptlAtsize (s.reqs (s.reqOf 0)).datatype = 0)) (by decide +kernel)
  simp only [Bool.and_eq_true, decide_eq_true_eq] at checked
  obtain ⟨⟨⟨next, handles⟩, whole⟩, even⟩ := checked
  exact ⟨s, reachable, next, (truncation_spares_atomic_iff reliableNodes
    secondTarget s 0 .atomic 0 handles (.inl rfl) whole nofun).mpr
    fun _ => .inr even⟩

end S4BXI
