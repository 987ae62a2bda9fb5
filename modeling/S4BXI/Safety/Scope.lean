import S4BXI.Safety.Ops
import S4BXI.Safety.Search
import S4BXI.Safety.Stability

/-!
# Identifiers are allocated

Every identifier found in a queue, in a list, in the log or in a pending
operation belongs to an object which has been allocated.  In particular a new
object is not mentioned anywhere, and what a mentioned object fixed at its
allocation does not change any more.
-/

namespace S4BXI

open Lib

/-- The identifiers which are allocated: those below these bounds. -/
structure Bounds where
  req : ReqId
  msg : MsgId
  me : MeId
  pt : PtId

def State.bounds (s : State) : Bounds :=
  ⟨s.nextReq, s.nextMsg, s.nextMe, s.nextPt⟩

@[simp] theorem State.bounds_req (s : State) : s.bounds.req = s.nextReq := rfl

@[simp] theorem State.bounds_msg (s : State) : s.bounds.msg = s.nextMsg := rfl

@[simp] theorem State.bounds_me (s : State) : s.bounds.me = s.nextMe := rfl

@[simp] theorem State.bounds_pt (s : State) : s.bounds.pt = s.nextPt := rfl

/-- Everything which is allocated stays so. -/
structure Bounds.Le (smaller larger : Bounds) : Prop where
  req : smaller.req ≤ larger.req
  msg : smaller.msg ≤ larger.msg
  me : smaller.me ≤ larger.me
  pt : smaller.pt ≤ larger.pt

theorem Extends.bounds {s after : State} (grows : Extends s after) :
    s.bounds.Le after.bounds :=
  ⟨grows.nextReq, grows.nextMsg, grows.nextMe, grows.nextPt⟩

def Origin.Within (bounds : Bounds) : Origin → Prop
  | .request req => req < bounds.req
  | .header msg me => msg < bounds.msg ∧ me < bounds.me
  | .entry me => me < bounds.me

/-- The identifiers of an operation are allocated. -/
def Op.Within (bounds : Bounds) : Op → Prop
  | .resched | .resumeLoop _ _ | .resumePop _ _ => True
  | .putEvent _ _ origin => origin.Within bounds
  | .mdIncrementCt req _ _ | .meIncrementCt req _ _
  | .releaseE2eEntry _ _ _ req | .releaseCounts _ _ _ req
  | .maybeIssueSend req | .sendEvent req | .ackEvent req _
  | .maybeIssueGet req | .maybeIssueFetchAtomic req => req < bounds.req
  | .handle msg | .sendAck msg _ _ | .txPut msg | .responseRest msg
  | .sendBxiAck msg _ | .replyEvent msg | .ptlAckTail msg | .bxiAckTail msg
  | .unref msg | .processTx msg | .commInit msg | .acquireE2eEntry msg
  | .e2eEnqueue msg | .commStart msg | .handlePutEnd msg
  | .handleResponseEnd msg | .e2eWake msg | .cqAcquire _ msg =>
      msg < bounds.msg
  | .putFinish msg me _ | .atomicFinish msg me _ | .atomicEvents msg me =>
      msg < bounds.msg ∧ me < bounds.me
  | .getFinish msg me response | .fetchAtomicFinish msg me response =>
      msg < bounds.msg ∧ me < bounds.me ∧ response < bounds.msg
  | .deferredUnlink me | .walkThroughUHs me _ | .appendConsumed me =>
      me < bounds.me

/-- The identifiers of an effect are allocated. -/
def Obs.Within (bounds : Bounds) : Obs → Prop
  | .consumed req msg pt _ me | .overflow req msg pt me =>
      req < bounds.req ∧ msg < bounds.msg ∧ pt < bounds.pt ∧ me < bounds.me
  | .memcpy req _ _ _ | .atomicOp req _ | .meCounter req _ _
  | .mdCounter req _ _ | .answered req | .debit _ _ _ req
  | .credit _ _ _ req | .e2eAcquire _ _ req | .e2eRelease _ _ req =>
      req < bounds.req
  | .event _ _ origin => origin.Within bounds
  | .submitted _ _ msg | .sent _ _ msg => msg < bounds.msg

/-- The messages in the queues of a node are allocated. -/
structure BxiNode.Within (bounds : Bounds) (node : BxiNode) : Prop where
  txQueues : ∀ vn, ∀ msg ∈ node.txQueues vn, msg < bounds.msg
  nicTxMailbox : ∀ vn, ∀ msg ∈ node.nicTxMailbox vn, msg < bounds.msg
  waiting : ∀ vn, ∀ msg ∈ node.flowctrlWaitingMessages vn, msg < bounds.msg
  e2eQueue : ∀ msg ∈ node.e2eQueue, msg < bounds.msg

/-- The entries and headers of a portal table entry are allocated. -/
structure BxiPT.Within (bounds : Bounds) (pt : BxiPT) : Prop where
  entries : ∀ list, ∀ me ∈ pt.listOf list, me < bounds.me
  headers : ∀ msg ∈ pt.unexpectedHeaders, msg < bounds.msg

/-- The identifiers found in the tables, the queues and the log. -/
structure Allocated (s : State) : Prop where
  rx : ∀ nid vn, ∀ msg ∈ s.rx nid vn, msg < s.nextMsg
  nodes : ∀ nid, (s.nodes nid).Within s.bounds
  pts : ∀ pt, (s.pts pt).Within s.bounds
  ptIndexes : ∀ ni index pt, s.ptIndexes ni index = some pt →
    pt < s.nextPt ∧ (s.pts pt).ni = ni ∧ (s.pts pt).index = index
  parents : ∀ msg < s.nextMsg, s.reqOf msg < s.nextReq
  answers : ∀ msg < s.nextMsg, ∀ answered,
    (s.msgs msg).answersMsg = some answered → answered < msg
  entries : ∀ me < s.nextMe, (s.mes me).pt < s.nextPt
  log : ∀ obs ∈ s.log, obs.Within s.bounds

/-- The pending operations mention allocated objects only. -/
def OpsAllocated (s : State) : Prop :=
  EveryPending (fun _ op => op.Within s.bounds) s.threads

section Mono

variable {bounds larger : Bounds}

theorem Origin.Within.mono (grows : bounds.Le larger) {origin : Origin}
    (within : origin.Within bounds) : origin.Within larger := by
  cases origin with
  | request req => exact within.trans_le grows.req
  | header msg me =>
      exact ⟨within.1.trans_le grows.msg, within.2.trans_le grows.me⟩
  | entry me => exact within.trans_le grows.me

theorem Op.Within.mono (grows : bounds.Le larger) {op : Op}
    (within : op.Within bounds) : op.Within larger := by
  obtain ⟨reqs, msgs, mes, pts⟩ := grows
  cases op <;> simp only [Op.Within] at within ⊢ <;>
    first
      | exact within.mono ⟨reqs, msgs, mes, pts⟩
      | grind

theorem Obs.Within.mono (grows : bounds.Le larger) {obs : Obs}
    (within : obs.Within bounds) : obs.Within larger := by
  obtain ⟨reqs, msgs, mes, pts⟩ := grows
  cases obs <;> simp only [Obs.Within] at within ⊢ <;>
    first
      | exact within.mono ⟨reqs, msgs, mes, pts⟩
      | grind

theorem BxiNode.Within.mono (grows : bounds.Le larger) {node : BxiNode}
    (within : node.Within bounds) : node.Within larger where
  txQueues vn msg member := (within.txQueues vn msg member).trans_le grows.msg
  nicTxMailbox vn msg member :=
    (within.nicTxMailbox vn msg member).trans_le grows.msg
  waiting vn msg member := (within.waiting vn msg member).trans_le grows.msg
  e2eQueue msg member := (within.e2eQueue msg member).trans_le grows.msg

theorem BxiPT.Within.mono (grows : bounds.Le larger) {pt : BxiPT}
    (within : pt.Within bounds) : pt.Within larger where
  entries list me member :=
    (within.entries list me member).trans_le grows.me
  headers msg member := (within.headers msg member).trans_le grows.msg

end Mono

/-! ## The parts of a phase -/

namespace Allocated

variable {s after : State}

theorem emit (allocated : Allocated s) {obs : Obs} (within : obs.Within s.bounds) :
    Allocated (s.emit obs) :=
  { allocated with
    log := by
      intro other member
      rcases List.mem_append.mp member with old | new
      · exact allocated.log other old
      · rw [List.mem_singleton.mp new]
        exact within }

theorem touch (allocated : Allocated s) {effects : List Obs} {stop : Option Halt}
    (within : ∀ obs ∈ effects, obs.Within s.bounds) :
    Allocated (s.touch effects stop) :=
  { allocated with
    log := by
      intro other member
      rcases List.mem_append.mp member with old | new
      · exact allocated.log other old
      · exact within other new }

theorem halt (allocated : Allocated s) (reason : Halt) : Allocated (s.halt reason) :=
  { allocated with }

theorem modNode (allocated : Allocated s) {nid : Nid} {f : BxiNode → BxiNode}
    (keeps : (f (s.nodes nid)).Within s.bounds) :
    Allocated (s.modNode nid f) :=
  { allocated with
    nodes := by
      intro other
      simp only [State.modNode, Function.update_apply]
      split
      · exact keeps
      · exact allocated.nodes other }

theorem setCounts (allocated : Allocated s) (nid : Nid)
    (nodeCounts : Vn → Nid → Option Int)
    (processCounts : Vn → FlowctrlProcessId → Option Int) :
    Allocated (s.setCounts nid nodeCounts processCounts) :=
  allocated.modNode { allocated.nodes nid with }

theorem releaseCq (allocated : Allocated s) (msg : MsgId) :
    Allocated (releaseCq s msg) :=
  { allocated with }

theorem modReq (allocated : Allocated s) {req : ReqId}
    {f : BxiRequest → BxiRequest} : Allocated (s.modReq req f) :=
  { allocated with }

theorem modMsg (allocated : Allocated s) {msg : MsgId} {f : BxiMsg → BxiMsg}
    (keeps : ∀ m, (f m).fixed = m.fixed) : Allocated (s.modMsg msg f) :=
  { allocated with
    parents := by
      intro other old
      have same := congrArg BxiMsg.parentRequest
        ((Extends.modMsg s msg f keeps).msgs other old)
      simp only [State.reqOf]
      rw [show ((s.modMsg msg f).msgs other).parentRequest =
        s.reqOf other from same]
      exact allocated.parents other old
    answers := by
      intro other old answered
      have same := congrArg BxiMsg.answersMsg
        ((Extends.modMsg s msg f keeps).msgs other old)
      rw [show ((s.modMsg msg f).msgs other).answersMsg =
        (s.msgs other).answersMsg from same]
      exact allocated.answers other old answered }

theorem ref (allocated : Allocated s) (msg : MsgId) : Allocated (s.ref msg) :=
  allocated.modMsg fun _ => rfl

theorem modMe (allocated : Allocated s) {me : MeId} {f : BxiME → BxiME}
    (keeps : ∀ m, (f m).fixed = m.fixed) : Allocated (s.modMe me f) :=
  { allocated with
    entries := by
      intro other old
      have same := congrArg BxiME.pt
        ((Extends.modMe s me f keeps).mes other old)
      rw [show ((s.modMe me f).mes other).pt = (s.mes other).pt from same]
      exact allocated.entries other old }

theorem modPt (allocated : Allocated s) {pt : PtId} {f : BxiPT → BxiPT}
    (keeps : ∀ p, (f p).fixed = p.fixed)
    (within : (f (s.pts pt)).Within s.bounds) : Allocated (s.modPt pt f) :=
  { allocated with
    pts := by
      intro other
      simp only [State.modPt, Function.update_apply]
      split
      · exact within
      · exact allocated.pts other
    ptIndexes := by
      intro ni index other taken
      obtain ⟨old, sameNi, sameIndex⟩ := allocated.ptIndexes ni index other
        taken
      have same := (Extends.modPt s pt f keeps).pts other old
      exact ⟨old, (congrArg BxiPT.ni same).trans sameNi,
        (congrArg BxiPT.index same).trans sameIndex⟩ }

theorem newMsg (allocated : Allocated s) {msg : BxiMsg}
    (parent : msg.parentRequest < s.nextReq)
    (answers : ∀ answered, msg.answersMsg = some answered →
      answered < s.nextMsg) : Allocated (s.newMsg msg) := by
  have grows := (Extends.newMsg s msg).bounds
  exact { allocated with
    rx := fun nid vn other member =>
      (allocated.rx nid vn other member).trans (Nat.lt_succ_self _)
    nodes := fun nid => (allocated.nodes nid).mono grows
    pts := fun pt => (allocated.pts pt).mono grows
    parents := by
      intro other old
      simp only [State.newMsg, State.reqOf, Function.update_apply]
      split
      · exact parent
      · rename_i differs
        exact allocated.parents other
          (lt_of_le_of_ne (Nat.le_of_lt_succ old) differs)
    answers := by
      intro other old answered
      simp only [State.newMsg, Function.update_apply]
      split
      · rename_i equal
        rw [equal]
        exact answers answered
      · rename_i differs
        exact allocated.answers other
          (lt_of_le_of_ne (Nat.le_of_lt_succ old) differs) answered
    log := fun obs member => (allocated.log obs member).mono grows }

theorem drops (allocated : Allocated s) (dropped : Drops s after) :
    Allocated after := by
  obtain ⟨sameReqs, sameMsgs, stops⟩ := dropped
  refine { allocated with parents := ?_, answers := ?_ }
  · intro msg old
    obtain ⟨live, count, equality⟩ := sameMsgs msg
    simp only [State.reqOf, equality]
    exact allocated.parents msg old
  · intro msg old answered
    obtain ⟨live, count, equality⟩ := sameMsgs msg
    simp only [equality]
    exact allocated.answers msg old answered

theorem setList (allocated : Allocated s) {pt : PtId} {list : PtlList}
    {entries : BxiPT → List MeId}
    (within : ∀ me ∈ entries (s.pts pt), me < s.nextMe) :
    Allocated (s.modPt pt fun p => p.setList list (entries p)) := by
  refine allocated.modPt (fun p => Extends.setList_fixed p list _) ⟨?_, ?_⟩
  · intro other me member
    cases list <;> cases other
    case priority.priority => exact within me member
    case overflow.overflow => exact within me member
    case priority.overflow =>
        exact (allocated.pts pt).entries .overflow me member
    case overflow.priority =>
        exact (allocated.pts pt).entries .priority me member
  · intro msg member
    cases list <;> exact (allocated.pts pt).headers msg member

theorem unlinks (allocated : Allocated s) {me : MeId}
    (unlinked : Unlinks s me after) : Allocated after := by
  cases unlinked with
  | deferred used => exact allocated.modMe fun _ => rfl
  | removed free linked =>
      refine (allocated.setList fun other member => ?_).modMe fun _ => rfl
      exact (allocated.pts _).entries _ other (List.mem_of_mem_erase member)
  | notLinked free absent => exact allocated.halt _

theorem leaves (allocated : Allocated s) {me : MeId}
    {before following : List Op}
    (left : Leaves s me after before following) : Allocated after := by
  have leaving : Allocated (s.leaveMe me) := allocated.modMe fun _ => rfl
  cases left with
  | kept staying => exact leaving
  | unlinked eq event leaves unlinked kind => exact leaving.unlinks unlinked

theorem answering (allocated : Allocated s) {msg : MsgId}
    (old : msg < s.nextMsg) (fail : NiFailType) (kind : ReqType) :
    Allocated (answering s msg fail kind) := by
  cases kind with
  | put => exact allocated
  | atomic => exact allocated
  | get => exact allocated.newMsg (allocated.parents msg old) (by simp
      [BxiMsg.copy])
  | fetchAtomic => exact allocated.newMsg (allocated.parents msg old) (by simp
      [BxiMsg.copy])

theorem appendInsert (allocated : Allocated s) {me : MeId}
    (old : me < s.nextMe) : Allocated (appendInsert s me) := by
  refine allocated.setList fun other member => ?_
  rcases List.mem_append.mp member with linked | new
  · exact (allocated.pts _).entries _ other linked
  · rw [List.mem_singleton.mp new]
    exact old

theorem newMe (allocated : Allocated s) {pt : PtId} (old : pt < s.nextPt)
    (me : PtlMe) (list : PtlList) (userPtr : Nat) :
    Allocated (newMe s pt me list userPtr) := by
  have grows := (Extends.newMe s pt me list userPtr).bounds
  exact { allocated with
    nodes := fun nid => (allocated.nodes nid).mono grows
    pts := fun pt => (allocated.pts pt).mono grows
    entries := by
      intro other small
      simp only [S4BXI.newMe, Function.update_apply]
      split
      · exact old
      · rename_i differs
        exact allocated.entries other
          (lt_of_le_of_ne (Nat.le_of_lt_succ small) differs)
    log := fun obs member => (allocated.log obs member).mono grows }

/-- A matched entry, its request and its portal table entry are allocated. -/
theorem matched (allocated : Allocated s) {sys : Sys} {nid : Nid}
    {msg : MsgId} {pt : PtId} {list : PtlList} {me : MeId}
    (found : Matched sys s nid msg pt list me) :
    pt < s.nextPt ∧ me < s.nextMe := by
  obtain ⟨ni, member, matching, taken⟩ := found.interface
  exact ⟨(allocated.ptIndexes ni _ pt taken).1,
    (allocated.pts pt).entries list me
      (BxiPT.findEntry_mem found.found).1⟩

theorem deposit (allocated : Allocated s) {msg : MsgId} {pt : PtId}
    {list : PtlList} {me : MeId} (fail : NiFailType) (kind : ReqType)
    (oldMsg : msg < s.nextMsg) (oldPt : pt < s.nextPt)
    (oldMe : me < s.nextMe) :
    Allocated (deposit s msg pt list me fail kind) := by
  have answered := allocated.answering oldMsg fail kind
  have grows := (Extends.answering s msg fail kind).bounds
  have parent := answered.parents msg (oldMsg.trans_le grows.msg)
  have used : Allocated ((S4BXI.answering s msg fail kind).modMe me fun m =>
      { m with used := true }) := answered.modMe fun _ => rfl
  have taken : Allocated (takeEntry (S4BXI.answering s msg fail kind) msg pt
      list me) := by
    cases list with
    | priority =>
        exact used.emit ⟨parent, oldMsg.trans_le grows.msg,
          oldPt.trans_le grows.pt, oldMe.trans_le grows.me⟩
    | overflow =>
        refine Allocated.emit ((used.ref msg).modPt (by intro; rfl) ⟨?_, ?_⟩)
          ⟨?_, oldMsg.trans_le grows.msg, oldPt.trans_le grows.pt,
            oldMe.trans_le grows.me⟩
        · intro other entry member
          cases other with
          | priority => exact (answered.pts pt).entries .priority entry member
          | overflow => exact (answered.pts pt).entries .overflow entry member
        · intro header member
          rcases List.mem_append.mp member with old | new
          · exact (answered.pts pt).headers header old
          · rw [List.mem_singleton.mp new]
            exact oldMsg.trans_le grows.msg
        · exact (used.ref msg).parents msg (oldMsg.trans_le grows.msg)
  exact { taken with
    entries := by
      intro other small
      have same := congrArg BxiME.pt ((Extends.receive
        (takeEntry (S4BXI.answering s msg fail kind) msg pt list me) msg me
        (copies (s.mes me) kind)).mes other small)
      exact same.trans_lt (taken.entries other small) }

theorem retransmit (allocated : Allocated s) (sys : Sys) (self : Actor)
    {msg : MsgId} (old : msg < s.nextMsg) :
    Allocated (retransmit sys self s msg) := by
  have counted : Allocated (s.modMsg msg fun m =>
      { m with retryCount := m.retryCount + 1 }) :=
    allocated.modMsg fun _ => rfl
  have copied := @newMsg _ counted ((s.modMsg msg fun m =>
      { m with retryCount := m.retryCount + 1 }).msgs msg).copy
    (counted.parents msg old) (by simp [BxiMsg.copy])
  have retried : Allocated (State.modNode _ self.nid fun node =>
      { node with e2eRetried := node.e2eRetried + 1 }) :=
    copied.modNode { copied.nodes self.nid with }
  unfold S4BXI.retransmit
  dsimp only
  split
  · refine (retried.modNode ?_).emit (Nat.lt_succ_self s.nextMsg)
    refine { retried.nodes self.nid with txQueues := ?_ }
    intro vn other member
    simp only [BxiNode.pushTx, Function.update_apply] at member
    split at member
    · rcases List.mem_append.mp member with queued | new
      · exact (retried.nodes self.nid).txQueues _ other queued
      · rw [List.mem_singleton.mp new]
        exact Nat.lt_succ_self s.nextMsg
    · exact (retried.nodes self.nid).txQueues _ other member
  · refine retried.modNode { retried.nodes self.nid with nicTxMailbox := ?_ }
    intro vn other member
    simp only [Function.update_apply] at member
    split at member
    · rcases List.mem_append.mp member with queued | new
      · exact (retried.nodes self.nid).nicTxMailbox _ other queued
      · rw [List.mem_singleton.mp new]
        exact Nat.lt_succ_self s.nextMsg
    · exact (retried.nodes self.nid).nicTxMailbox _ other member

end Allocated

/-! ## Phases -/

section Steps

variable {sys : Sys} {self : Actor} {s after : State}

theorem MemoryEffects.within {req : ReqId} {effects : List Obs}
    (memory : MemoryEffects req effects) {bounds : Bounds}
    (old : req < bounds.req) : ∀ obs ∈ effects, obs.Within bounds := by
  cases memory <;> simp [Obs.Within, old]

theorem BxiNode.Within.pushTx {bounds : Bounds} {node : BxiNode}
    (within : node.Within bounds) (vn : Vn) {msg : MsgId}
    (old : msg < bounds.msg) : (node.pushTx vn msg).Within bounds := by
  refine { within with txQueues := ?_ }
  intro other queued member
  simp only [BxiNode.pushTx, Function.update_apply] at member
  split at member
  · rcases List.mem_append.mp member with earlier | new
    · exact within.txQueues vn queued earlier
    · rw [List.mem_singleton.mp new]
      exact old
  · exact within.txQueues other queued member

theorem BxiNode.Within.popWaiting {bounds : Bounds} {node : BxiNode}
    (within : node.Within bounds) (vn : Vn) :
    (node.popWaiting vn).Within bounds := by
  refine { within with waiting := ?_ }
  intro other queued member
  simp only [BxiNode.popWaiting, Function.update_apply] at member
  split at member
  · exact within.waiting vn queued (List.mem_of_mem_tail member)
  · exact within.waiting other queued member

theorem BxiNode.Within.park {bounds : Bounds} {node : BxiNode}
    (within : node.Within bounds) (vn : Vn) {msg : MsgId}
    (old : msg < bounds.msg) : (node.park vn msg).Within bounds := by
  unfold BxiNode.park
  split
  · exact within
  · refine { within with waiting := ?_ }
    intro other queued member
    simp only [Function.update_apply] at member
    split at member
    · rcases List.mem_append.mp member with earlier | new
      · exact within.waiting vn queued earlier
      · rw [List.mem_singleton.mp new]
        exact old
    · exact within.waiting other queued member

theorem Phase.allocated {op : Op} {new : List Op}
    (phase : Phase sys self s op after new) (allocated : Allocated s)
    (within : op.Within s.bounds) : Allocated after := by
  cases phase with
  | quiet quiet => exact allocated
  | putEvent => exact allocated.emit within
  | mdIncrementCt => exact allocated.emit within
  | meIncrementCt => exact allocated.emit within
  | releaseE2eEntry on =>
      exact (allocated.modNode { allocated.nodes _ with }).emit within
  | creditPanic released =>
      refine Allocated.halt (Allocated.emit (allocated.setCounts _ _ _) ?_) _
      exact within
  | releaseCounts released =>
      exact (allocated.setCounts _ _ _).emit within
  | @resumeLoop nid vn parked rest waiting =>
      refine allocated.modNode ((allocated.nodes nid).pushTx vn ?_)
      exact (allocated.nodes nid).waiting vn parked (by simp [waiting])
  | emptyDeque waiting => exact allocated.halt _
  | resumePop waiting =>
      exact allocated.modNode ((allocated.nodes _).popWaiting _)
  | maybeIssueSend pending => exact allocated.modReq
  | maybeIssueGet pending => exact allocated.modReq
  | maybeIssueFetchAtomic pending => exact allocated.modReq
  | respondUnmatched type fetches fresh absent =>
      exact (allocated.answering within _ _).modMsg (by intro; rfl)
  | @matched msg pt list me fail kind effects stop type fresh found memory
      later stops =>
      obtain ⟨oldPt, oldMe⟩ :=
        allocated.matched (matched_of_matchEntry found)
      have grows := (Extends.deposit s msg pt list me fail kind).bounds
      exact (allocated.deposit _ _ within oldPt oldMe).touch
        (memory.within ((allocated.parents _ within).trans_le grows.req))
  | handleResponse type => exact allocated.emit (allocated.parents _ within)
  | handlePtlAck type => exact allocated.emit (allocated.parents _ within)
  | ackWithoutAnswer type fresh missing => exact allocated.modReq.halt _
  | @handleBxiAck msg answered type fresh answers =>
      refine allocated.modReq.touch fun obs member => ?_
      split at member
      · rw [List.mem_singleton.mp member]
        exact allocated.parents msg within
      · cases member
  | quickAck quick =>
      exact allocated.modReq.emit (allocated.parents _ within)
  | @sendAck msg type fail slow =>
      refine Allocated.ref (allocated.newMsg ?_ ?_) _
      · exact allocated.parents msg within
      · intro answered answers
        cases answers
        exact within
  | putFinish leaves => exact allocated.leaves leaves
  | getFinish memory stops leaves =>
      refine Allocated.leaves ?_ leaves
      exact (allocated.modMsg (by intro; rfl)).touch
        (memory.within (allocated.parents _ within.1))
  | atomicEvents leaves => exact allocated.leaves leaves
  | fetchAtomicFinish leaves =>
      exact Allocated.leaves (allocated.modMsg (by intro; rfl)) leaves
  | deferredUnlink flagged unlinks => exact allocated.unlinks unlinks
  | txPut =>
      exact (allocated.modNode ((allocated.nodes _).pushTx _ within)).emit
        within
  | responseRest fresh => exact allocated.modReq
  | @sendBxiAck msg md on =>
      refine Allocated.ref (allocated.newMsg ?_ ?_) _
      · exact allocated.parents msg within
      · intro answered answers
        cases answers
        exact within
  | ptlAckTail fresh => exact allocated.modReq
  | unref equality drops => exact allocated.drops drops
  | exempt free => exact { allocated with }
  | granted subject checked =>
      refine Allocated.releaseCq
        (Allocated.emit (allocated.setCounts _ _ _) ?_) _
      exact allocated.parents _ within
  | @refused msg nodeCounts processCounts subject checked =>
      have counted := allocated.setCounts self.nid nodeCounts processCounts
      exact counted.modNode ((counted.nodes self.nid).park _ within)
  | creditsPanic subject checked =>
      exact (allocated.setCounts _ _ _).halt _
  | acquireE2eEntry left =>
      exact (allocated.modNode { allocated.nodes _ with }).emit
        (allocated.parents _ within)
  | e2eEnqueue =>
      refine (allocated.ref _).modNode { allocated.nodes _ with
        e2eQueue := ?_ }
      intro other member
      rcases List.mem_append.mp member with queued | new
      · exact (allocated.nodes _).e2eQueue other queued
      · rw [List.mem_singleton.mp new]
        exact within
  | @commStart msg =>
      refine { allocated with rx := ?_, log := ?_ }
      · intro nid vn other member
        simp only [S4BXI.commStart, State.emit, Function.update_apply]
          at member
        split at member
        · simp only [Function.update_apply] at member
          split at member
          · rcases List.mem_append.mp member with queued | new
            · exact allocated.rx _ _ other queued
            · rw [List.mem_singleton.mp new]
              exact within
          · exact allocated.rx _ _ other member
        · exact allocated.rx _ _ other member
      · intro obs member
        rcases List.mem_append.mp member with old | new
        · exact allocated.log obs old
        · rw [List.mem_singleton.mp new]
          exact within
  | gaveUp pending last => exact allocated.modNode { allocated.nodes _ with }
  | retransmit pending more => exact allocated.retransmit sys self within
  | retryPanic pending beyond => exact allocated.halt _
  | cqAcquire left => exact { allocated with }
  | appendInsert scanned => exact allocated.appendInsert within
  | noMatchedMe found missing => exact allocated.halt _
  | @overflow me index position header matched found deposited =>
      have present := (BxiPT.findHeader_some found).2.1
      have oldHeader := (allocated.pts _).headers header
        (List.mem_of_getElem? present)
      refine Allocated.emit (Allocated.modPt
        (allocated.modMe (by intro; rfl)) (by intro; rfl) ⟨?_, ?_⟩)
        ⟨allocated.parents header oldHeader, oldHeader,
          allocated.entries me within, within⟩
      · intro list entry member
        cases list with
        | priority => exact (allocated.pts _).entries .priority entry member
        | overflow => exact (allocated.pts _).entries .overflow entry member
      · intro other member
        exact (allocated.pts _).headers other (List.mem_of_mem_eraseIdx member)
  | appendConsumed => exact allocated.modMe (by intro; rfl)

theorem Quiet.within_new {op : Op} {new : List Op}
    (quiet : Quiet sys self s op new) (allocated : Allocated s)
    (within : op.Within s.bounds) :
    ∀ pending ∈ new, pending.Within s.bounds := by
  cases quiet with
  | resched | releaseOff off | resumeDone waiting | sendIssued issued
  | getIssued issued | fetchAtomicIssued issued | duplicate request known
  | unanswered type fresh absent | finished type known
  | notFlagged unflagged | responseKnown known | bxiAckOff off
  | ptlAckKnown known => simp
  | @sendEvent req =>
      rcases sendEvent_cases s req with ops | ⟨queue, event, type, ops⟩ <;>
        rw [ops]
      · simp
      · simpa [Op.Within, Origin.Within] using within
  | @ackEvent req fail =>
      rcases ackEvent_cases s req fail with ops | ⟨queue, event, type, ops⟩ <;>
        rw [ops]
      · simp
      · simpa [Op.Within, Origin.Within] using within
  | unmatched type fresh absent asked => simpa [Op.Within] using within
  | @atomicFinish msg me fail =>
      unfold S4BXI.atomicFinish
      rcases pciSleep_cases sys s self.nid msg with sleep | sleep <;>
        rcases sendDue_cases msg fail (ackDue sys s (s.reqOf msg)
          (s.mes me)) with due | ⟨type, asked, due⟩ <;>
        simpa [sleep, due, Op.Within] using within
  | @replyEvent msg =>
      have parent := allocated.parents msg within
      rcases replyEvent_cases s msg with ops | ⟨queue, event, type, ops⟩ <;>
        rw [ops]
      · simp
      · simpa [Op.Within, Origin.Within] using parent
  | @bxiAckTail msg =>
      have parent := allocated.parents msg within
      rcases bxiAckTail_cases s msg with ops | ops | ⟨type, ops⟩ | ⟨type, ops⟩
      all_goals rw [ops]
      · simp
      all_goals simpa [Op.Within] using parent
  | @commInit msg =>
      rcases commInit_cases sys self s msg with
        ⟨on, type, ⟨first, ops⟩ | ⟨again, ops⟩⟩ | ⟨off, ops⟩ <;>
        simpa [ops, Op.Within] using within
  | @handlePutEnd msg =>
      have parent := allocated.parents msg within
      rcases handlePutEnd_cases s msg with ops | ops <;> rw [ops]
      · simp
      · simpa [Op.Within] using parent
  | @handleResponseEnd msg =>
      have parent := allocated.parents msg within
      rcases handleResponseEnd_cases sys self s msg with
        ops | ⟨type, ops⟩ | ⟨type, ops⟩
      all_goals rw [ops]
      · simp
      all_goals simpa [Op.Within] using parent
  | acknowledged known => simpa [Op.Within] using within

theorem Leaves.within_ops {me : MeId} {before following : List Op}
    (leaves : Leaves s me after before following) {bounds : Bounds}
    (old : me < bounds.me) :
    (∀ pending ∈ before, pending.Within bounds) ∧
      ∀ pending ∈ following, pending.Within bounds := by
  cases leaves with
  | kept staying => simpa [Op.Within] using old
  | unlinked eq event leaving unlinks kind =>
      rcases issueEvent_cases eq event (.entry me) with ops | ⟨queue, ops⟩ <;>
        rw [ops]
      · simp
      · simpa [Op.Within, Origin.Within] using old

theorem mdCounter_within {bounds : Bounds} {req : ReqId}
    (old : req < bounds.req) (s : State) (md : BxiMD) (flag : Options) :
    ∀ pending ∈ mdCounter s req md flag, pending.Within bounds := by
  rcases mdCounter_cases s req md flag with ops | ⟨ct, amount, ops⟩ <;>
    rw [ops]
  · simp
  · simpa [Op.Within] using old

theorem pciSleep_within (bounds : Bounds) (sys : Sys) (s : State) (nid : Nid)
    (msg : MsgId) :
    ∀ pending ∈ pciSleep sys s nid msg, pending.Within bounds := by
  rcases pciSleep_cases sys s nid msg with ops | ops <;>
    simp [ops, Op.Within]

theorem issueAck_within {bounds : Bounds} {req : ReqId}
    (old : req < bounds.req) (s : State) (fail : NiFailType) :
    ∀ pending ∈ issueAck s req fail, pending.Within bounds := by
  simp only [issueAck, List.mem_append, List.mem_singleton]
  rintro pending (counter | rfl)
  · exact mdCounter_within old s _ _ pending counter
  · exact old

theorem issuePutLike_within {bounds : Bounds} {req : ReqId}
    (old : req < bounds.req) (sys : Sys) (s : State) (kind : EventKind)
    (me : BxiME) :
    ∀ pending ∈ issuePutLike sys s kind me req, pending.Within bounds := by
  rcases issuePutLike_cases sys s kind me req with
    ops | ⟨queue, event, type, ops⟩ <;> rw [ops]
  · simp
  · simpa [Op.Within, Origin.Within] using old

theorem issueFetchEvent_within {bounds : Bounds} {req : ReqId}
    (old : req < bounds.req) (sys : Sys) (s : State) (kind : EventKind)
    (hdr : Option Nat) :
    ∀ pending ∈ issueFetchEvent sys s req kind hdr,
      pending.Within bounds := by
  rcases issueFetchEvent_cases sys s req kind hdr with
    ops | ⟨queue, event, type, ops⟩ <;> rw [ops]
  · simp
  · simpa [Op.Within, Origin.Within] using old

theorem issueLink_within {bounds : Bounds} {me : MeId}
    (old : me < bounds.me) (s : State) :
    ∀ pending ∈ issueLink s me, pending.Within bounds := by
  rcases issueLink_cases s me with ops | ⟨queue, event, type, ops⟩ <;>
    rw [ops]
  · simp
  · simpa [Op.Within, Origin.Within] using old

theorem sendDue_within {bounds : Bounds} {msg : MsgId}
    (old : msg < bounds.msg) (fail : NiFailType) (ack : Option MsgType) :
    ∀ pending ∈ sendDue msg fail ack, pending.Within bounds := by
  rcases sendDue_cases msg fail ack with ops | ⟨type, due, ops⟩ <;> rw [ops]
  · simp
  · simpa [Op.Within] using old

theorem transmit_within {bounds : Bounds} {msg : MsgId}
    (old : msg < bounds.msg) (s : State) :
    ∀ pending ∈ transmit s msg, pending.Within bounds := by
  rcases transmit_cases s msg with ⟨type, ops⟩ | ops | ⟨type, ops⟩ <;>
    simpa [ops, Op.Within] using old

/-- The operations which a phase adds mention allocated objects only. -/
theorem Phase.within_new {op : Op} {new : List Op}
    (phase : Phase sys self s op after new) (allocated : Allocated s)
    (within : op.Within s.bounds) :
    ∀ pending ∈ new, pending.Within after.bounds := by
  have grows := phase.extends.bounds
  cases phase with
  | quiet quiet => exact quiet.within_new allocated within
  | putEvent | mdIncrementCt | meIncrementCt => simp [Op.Within]
  | creditPanic released | emptyDeque waiting
  | ackWithoutAnswer type fresh missing | deferredUnlink flagged unlinks
  | unref equality drops | refused subject checked
  | creditsPanic subject checked | acquireE2eEntry left | e2eEnqueue
  | commStart | retryPanic pending beyond | noMatchedMe found missing
  | appendConsumed => simp
  | releaseE2eEntry on =>
      intro added member
      rw [List.mem_singleton.mp member]
      exact within
  | releaseCounts released =>
      split <;> simp [Op.Within]
  | resumeLoop waiting => simp [Op.Within]
  | resumePop waiting => simp [Op.Within]
  | maybeIssueSend pending =>
      simp only [List.mem_append, List.mem_singleton]
      rintro added (counter | rfl)
      · exact mdCounter_within within s _ _ added counter
      · exact within
  | maybeIssueGet pending => exact issueFetchEvent_within within sys s _ _
  | maybeIssueFetchAtomic pending =>
      exact issueFetchEvent_within within sys s _ _
  | @respondUnmatched msg fail kind type fetches fresh absent =>
      rcases fetches with rfl | rfl <;>
        simp [Op.Within, answering, newResponse, State.newMsg, State.modMsg]
  | @matched msg pt list me fail kind effects stop type fresh found memory
      later stops =>
      obtain ⟨oldPt, oldMe⟩ := allocated.matched (matched_of_matchEntry found)
      have parent := (allocated.parents msg within).trans_le grows.req
      have oldMsg : msg < s.nextMsg := within
      have response : kind = .get ∨ kind = .fetchAtomic →
          s.nextMsg < (deposit s msg pt list me fail kind).nextMsg := by
        rintro (rfl | rfl) <;>
          simp [deposit, answering, newResponse, State.newMsg, receive,
            takeEntry_nextMsg]
      simp only [List.mem_append, List.mem_singleton]
      rintro added (counter | rfl)
      · rcases meCounter_cases s (s.reqOf msg) (s.mes me) with
          ops | ⟨ct, amount, ops⟩ <;> rw [ops] at counter
        · cases counter
        · rw [List.mem_singleton.mp counter]
          exact parent
      · cases kind with
        | put => exact ⟨oldMsg.trans_le grows.msg, oldMe.trans_le grows.me⟩
        | atomic => exact ⟨oldMsg.trans_le grows.msg, oldMe.trans_le grows.me⟩
        | get => exact ⟨oldMsg.trans_le grows.msg, oldMe.trans_le grows.me,
            response (.inl rfl)⟩
        | fetchAtomic => exact ⟨oldMsg.trans_le grows.msg,
            oldMe.trans_le grows.me, response (.inr rfl)⟩
  | handleResponse type =>
      simpa [Op.Within, releaseAnswered, State.emit] using
        ⟨allocated.parents _ within, within⟩
  | handlePtlAck type =>
      simpa [Op.Within, releaseAnswered, State.emit] using
        ⟨allocated.parents _ within, within⟩
  | handleBxiAck type fresh answers =>
      simpa [Op.Within, State.touch, State.modReq] using
        ⟨allocated.parents _ within, within⟩
  | @quickAck msg type fail quick =>
      have parent := allocated.parents msg within
      simp only [List.mem_cons]
      rintro added (rfl | rfl | issued)
      · exact parent
      · exact parent
      · exact issueAck_within parent s fail added issued
  | sendAck slow => simp [Op.Within, newAck, State.newMsg, State.ref,
      State.modMsg]
  | @putFinish msg me fail after before following leaves =>
      obtain ⟨first, last⟩ := leaves.within_ops (within.2.trans_le grows.me)
      have parent := (allocated.parents msg within.1).trans_le grows.req
      simp only [List.mem_append]
      rintro added ((((issued | issued) | issued) | issued) | issued)
      · exact first added issued
      · exact issuePutLike_within parent sys s _ _ added issued
      · exact last added issued
      · exact sendDue_within (within.1.trans_le grows.msg) _ _ added issued
      · exact pciSleep_within _ sys s _ _ added issued
  | @getFinish msg me response effects stop after before following memory
      stops leaves =>
      obtain ⟨first, last⟩ := leaves.within_ops (within.2.1.trans_le grows.me)
      simp only [List.mem_append, List.mem_singleton]
      rintro added ((issued | issued) | rfl)
      · exact first added issued
      · exact last added issued
      · exact within.2.2.trans_le grows.msg
  | @atomicEvents msg me after before following leaves =>
      obtain ⟨first, last⟩ := leaves.within_ops (within.2.trans_le grows.me)
      have parent := (allocated.parents msg within.1).trans_le grows.req
      simp only [List.mem_append]
      rintro added ((issued | issued) | issued)
      · exact first added issued
      · exact issuePutLike_within parent sys s _ _ added issued
      · exact last added issued
  | @fetchAtomicFinish msg me response after before following leaves =>
      obtain ⟨first, last⟩ := leaves.within_ops (within.2.1.trans_le grows.me)
      simp only [List.mem_append, List.mem_singleton]
      rintro added ((issued | issued) | rfl)
      · exact first added issued
      · exact last added issued
      · exact within.2.2.trans_le grows.msg
  | txPut => simp [Op.Within]
  | @responseRest msg fresh =>
      have parent := allocated.parents msg within
      simp only [List.mem_append, List.mem_cons]
      rintro added ((issued | rfl | issued) | rfl | issued)
      · exact pciSleep_within _ sys s _ _ added issued
      · exact within
      · exact mdCounter_within parent s _ _ added issued
      · exact within
      · exact pciSleep_within _ sys s _ _ added issued
  | sendBxiAck on => simp [Op.Within, newBxiAck, State.newMsg, State.ref,
      State.modMsg]
  | @ptlAckTail msg fresh =>
      have parent := allocated.parents msg within
      simp only [List.mem_cons]
      rintro added (rfl | issued)
      · exact parent
      · exact issueAck_within parent s _ added issued
  | exempt free => exact transmit_within within s
  | granted subject checked => exact transmit_within within s
  | gaveUp pending last =>
      intro added member
      rw [List.mem_singleton.mp member]
      exact within
  | @retransmit msg pending more =>
      have old := within.trans_le grows.msg
      simpa [Op.Within] using old
  | cqAcquire left => simpa [Op.Within] using within
  | appendInsert scanned => exact issueLink_within within s
  | @overflow me index position header matched found deposited =>
      have present := (BxiPT.findHeader_some found).2.1
      have oldHeader := (allocated.pts _).headers header
        (List.mem_of_getElem? present)
      simp only [List.cons_append, List.mem_cons, List.mem_append,
        List.not_mem_nil, or_false]
      rintro added (rfl | issued | rfl)
      · exact oldHeader
      · rcases issueEvent_cases (s.pts (s.mes me).pt).eq
            (overflowEvent sys s (s.reqs (s.reqOf header)) matched)
            (.header header me) with ops | ⟨queue, ops⟩ <;>
          rw [ops] at issued
        · cases issued
        · rw [List.mem_singleton.mp issued]
          exact ⟨oldHeader, within⟩
      · split <;> exact within

/-! ## Steps and runs -/

theorem CallPhase.allocated {call : Call} {new : List Op}
    (phase : CallPhase sys self s call after new) (allocated : Allocated s) :
    Allocated after := by
  cases phase with
  | pidInUse => exact allocated.halt _
  | niInit => exact allocated.modNode { allocated.nodes _ with }
  | ptKept taken => exact allocated
  | @ptAlloc ni index eq free =>
      have grows : s.bounds.Le { s.bounds with pt := s.nextPt + 1 } :=
        ⟨le_refl _, le_refl _, le_refl _, Nat.le_succ _⟩
      refine { allocated with
        nodes := fun nid => (allocated.nodes nid).mono grows
        pts := ?_
        ptIndexes := ?_
        entries := fun me old =>
          (allocated.entries me old).trans (Nat.lt_succ_self _)
        log := fun obs member => (allocated.log obs member).mono grows }
      · intro pt
        simp only [Function.update_apply]
        split
        · refine ⟨fun list => ?_, ?_⟩
          · cases list <;> simp [BxiPT.listOf]
          · simp
        · exact (allocated.pts pt).mono grows
      · intro ni' index' pt taken
        have old : s.ptIndexes ni' index' = some pt →
            pt < s.nextPt + 1 ∧ (Function.update s.pts s.nextPt
              { eq := eq, ni := ni, index := index } pt).ni = ni' ∧
            (Function.update s.pts s.nextPt
              { eq := eq, ni := ni, index := index } pt).index = index' := by
          intro kept
          obtain ⟨small, sameNi, sameIndex⟩ :=
            allocated.ptIndexes ni' index' pt kept
          rw [Function.update_of_ne (Nat.ne_of_lt small)]
          exact ⟨small.trans (Nat.lt_succ_self _), sameNi, sameIndex⟩
        simp only [Function.update_apply] at taken
        split at taken
        · rename_i sameNi
          simp only [Function.update_apply] at taken
          split at taken
          · rename_i sameIndex
            cases taken
            simp [sameNi, sameIndex]
          · exact old (sameNi ▸ taken)
        · exact old taken
  | ptEnable taken =>
      exact allocated.modPt (by intro; rfl) { allocated.pts _ with }
  | ptDisable taken =>
      exact allocated.modPt (by intro; rfl) { allocated.pts _ with }
  | @ptFree ni index pt after taken equality frees =>
      obtain @⟨mid, mes, drops, sameMes⟩ := frees
      have dropped := allocated.drops drops
      obtain ⟨sameReqs, sameMsgs, stops⟩ := drops
      refine { dropped with pts := ?_, ptIndexes := ?_, entries := ?_ }
      · intro other
        simp only [Function.update_apply]
        split
        · refine ⟨fun list => ?_, by simp⟩
          cases list <;> simp [BxiPT.listOf]
        · exact allocated.pts other
      · intro ni' index' other kept
        have old : s.ptIndexes ni' index' = some other := by
          simp only [Function.update_apply] at kept
          split at kept
          · rename_i sameNi
            simp only [Function.update_apply] at kept
            split at kept
            · cases kept
            · exact sameNi ▸ kept
          · exact kept
        obtain ⟨small, same⟩ := allocated.ptIndexes ni' index' other old
        refine ⟨small, ?_⟩
        simp only [Function.update_apply]
        split
        · rename_i equal
          exact equal ▸ same
        · exact same
      · intro me old
        obtain ⟨live, same⟩ := sameMes me
        simp only [same]
        exact allocated.entries me old
  | appendPriority taken =>
      exact allocated.newMe (allocated.ptIndexes _ _ _ taken).1 _ _ _
  | appendOverflow taken =>
      exact (allocated.newMe (allocated.ptIndexes _ _ _ taken).1 _ _
        _).appendInsert (Nat.lt_succ_self _)
  | keptByHeader overflow header => exact allocated
  | meUnlink free unlinks => exact allocated.unlinks unlinks
  | @request cmd =>
      have grows : s.bounds.Le { s.bounds with req := s.nextReq + 1 } :=
        ⟨Nat.le_succ _, le_refl _, le_refl _, le_refl _⟩
      have created : Allocated { s with
          reqs := Function.update s.reqs s.nextReq (newRequest sys self cmd)
          nextReq := s.nextReq + 1 } :=
        { allocated with
          nodes := fun nid => (allocated.nodes nid).mono grows
          pts := fun pt => (allocated.pts pt).mono grows
          parents := fun msg old =>
            (allocated.parents msg old).trans (Nat.lt_succ_self _)
          log := fun obs member => (allocated.log obs member).mono grows }
      exact created.newMsg (Nat.lt_succ_self s.nextReq)
        (by simp [newRequestMsg])

theorem CallPhase.within_new {call : Call} {new : List Op}
    (phase : CallPhase sys self s call after new) :
    ∀ pending ∈ new, pending.Within after.bounds := by
  cases phase with
  | appendPriority taken => simp [Op.Within, newMe]
  | appendOverflow taken =>
      exact issueLink_within (Nat.lt_succ_self s.nextMe) _
  | request => simp [Op.Within, ptlRequest, State.newMsg]
  | _ => simp

/-- What the identifiers of a state refer to is allocated. -/
structure WellScoped (s : State) : Prop where
  tables : Allocated s
  ops : OpsAllocated s

theorem WellScoped.advances {index : ThreadId} {label : Label}
    (wellScoped : WellScoped s)
    (advances : Advances sys s index label after) : WellScoped after := by
  have grows := advances.extends.bounds
  have kept : EveryPending (fun _ op => op.Within after.bounds) s.threads :=
    wellScoped.ops.mono fun _ op within => within.mono grows
  cases advances with
  | dangling dead owner => exact ⟨wellScoped.tables.halt _, kept⟩
  | @run self op rest new after found alive phase =>
      have pending := wellScoped.ops _ (List.mem_of_getElem? found)
      have within := pending op (by simp)
      refine ⟨{ phase.allocated wellScoped.tables within with }, ?_⟩
      refine EveryPending.set kept fun added member => ?_
      rcases List.mem_append.mp member with new | old
      · exact phase.within_new wellScoped.tables within added new
      · exact (pending added (List.mem_cons_of_mem _ old)).mono grows
  | @recv self position msg found target queued =>
      have old := wellScoped.tables.rx _ _ msg (List.mem_of_getElem? queued)
      refine ⟨{ wellScoped.tables with rx := ?_ }, ?_⟩
      · intro nid vn other member
        simp only [State.removeRx, Function.update_apply] at member
        split at member
        · simp only [Function.update_apply] at member
          split at member
          · exact wellScoped.tables.rx _ _ other
              (List.mem_of_mem_eraseIdx member)
          · exact wellScoped.tables.rx _ _ other member
        · exact wellScoped.tables.rx _ _ other member
      · refine EveryPending.set kept fun added member => ?_
        simp only [List.mem_cons, List.not_mem_nil, or_false] at member
        rcases member with rfl | rfl <;> exact old
  | @take self msg rest found initiator queued =>
      have node := wellScoped.tables.nodes self.nid
      have old := node.txQueues self.vn msg (by simp [queued])
      have popped : Allocated (s.popTx self.nid self.vn) := by
        refine wellScoped.tables.modNode { node with txQueues := ?_ }
        intro vn other member
        simp only [BxiNode.popTx, Function.update_apply] at member
        split at member
        · exact node.txQueues _ other (List.mem_of_mem_tail member)
        · exact node.txQueues _ other member
      refine ⟨{ popped with }, EveryPending.set kept fun added member => ?_⟩
      rw [List.mem_singleton.mp member]
      exact old
  | @wake self msg rest found e2e alive queued =>
      have node := wellScoped.tables.nodes self.nid
      have old := node.e2eQueue msg (by simp [queued])
      have popped : Allocated (s.popE2e self.nid) := by
        refine wellScoped.tables.modNode { node with e2eQueue := ?_ }
        intro other member
        exact node.e2eQueue other (List.mem_of_mem_tail member)
      refine ⟨{ popped with }, EveryPending.set kept fun added member => ?_⟩
      rw [List.mem_singleton.mp member]
      exact old
  | call found user owned alive phase =>
      exact ⟨{ phase.allocated wellScoped.tables with },
        EveryPending.set kept phase.within_new⟩

theorem wellScoped_initial (sys : Sys) : WellScoped (initial sys) := by
  refine ⟨?_, ?_⟩
  · constructor <;> simp [initial, State.bounds]
    · exact ⟨by simp, by simp, by simp, by simp⟩
    · exact ⟨fun list => by cases list <;> simp [BxiPT.listOf], by simp⟩
  · intro thread member
    obtain ⟨actor, actorMember, rfl⟩ := List.mem_map.mp member
    simp

theorem ReachedBy.wellScoped {allowed : State → Label → Prop}
    (reached : ReachedBy sys allowed s) : WellScoped s :=
  reached.invariant (wellScoped_initial sys)
    fun holds _ stepped => holds.advances (step_advances stepped)

end Steps

end S4BXI
