import S4BXI.Nic.Machine

/-!
# The cases of a step

`exec` and `apiCall` are cut into their branches once and for all.  `Quiet`
collects the operations which leave the state as it is, `Phase` the other ones
and `CallPhase` the API calls, each with the guard under which it is taken;
`Advances` is the inversion of `step`.  Every invariant of the development is
proved from these cases.
-/

namespace S4BXI

open Lib

/-! ## Parts of the phases -/

/-- Memory effects, and the abort when a copy is invalid. -/
def State.touch (s : State) (effects : List Obs) (stop : Option Halt) :
    State :=
  { s with log := s.log ++ effects, halted := stop }

/-- The counters of a node after a check or a release. -/
def State.setCounts (s : State) (nid : Nid)
    (nodeCounts : Vn → Nid → Option Int)
    (processCounts : Vn → FlowctrlProcessId → Option Int) : State :=
  s.modNode nid fun node =>
    { node with
      flowctrlNodeCounts := nodeCounts
      flowctrlProcessCounts := processCounts }

/-- The accesses of a handler to the memory for a request: at most one copy and
at most one atomic operation. -/
inductive MemoryEffects (req : ReqId) : List Obs → Prop where
  | nothing : MemoryEffects req []
  | copy {dest src count} : MemoryEffects req [.memcpy req dest src count]
  | atomic {call} : MemoryEffects req [.atomicOp req call]
  | fetch {dest src count call} :
      MemoryEffects req [.memcpy req dest src count, .atomicOp req call]

/-- `BxiME::unlink`. -/
inductive Unlinks (s : State) (me : MeId) : State → Prop where
  | deferred (used : (s.mes me).inUse = true) :
      Unlinks s me (s.modMe me fun m => { m with needsUnlink := true })
  | removed (free : (s.mes me).inUse = false)
      (linked : me ∈ (s.pts (s.mes me).pt).listOf (s.mes me).list) :
      Unlinks s me (destroyMe (s.modPt (s.mes me).pt fun p =>
        p.setList (s.mes me).list ((p.listOf (s.mes me).list).erase me)) me)
  | notLinked (free : (s.mes me).inUse = false)
      (absent : me ∉ (s.pts (s.mes me).pt).listOf (s.mes me).list) :
      Unlinks s me (s.halt (.notLinked me))

/-- How a handler leaves an entry, with the operations which precede and follow
the event it reports. -/
inductive Leaves (s : State) (me : MeId) :
    State → List Op → List Op → Prop where
  | kept (staying : (s.mes me).shouldAutoUnlink = false) :
      Leaves s me (s.leaveMe me) [] [.deferredUnlink me]
  | unlinked (eq : Option EqId) (event : Event) {after : State}
      (leaving : (s.mes me).shouldAutoUnlink = true)
      (unlinks : Unlinks (s.leaveMe me) me after)
      (kind : event.type = .autoUnlink) :
      Leaves s me after (issueEvent eq event (.entry me)) []

/-- The effect of `BxiMsg::unref` and of the destructors it runs. -/
inductive Drops (s : State) : State → Prop where
  | mk {reqs : ReqId → BxiRequest} {msgs : MsgId → BxiMsg}
      {stop : Option Halt}
      (sameReqs : ∀ req, ∃ live count, reqs req =
        { s.reqs req with live := live, msgRefCount := count })
      (sameMsgs : ∀ msg, ∃ live count, msgs msg =
        { s.msgs msg with live := live, refCount := count })
      (stops : stop = s.halted ∨ ∃ ptr, stop = some (.dangling ptr)) :
      Drops s { s with reqs := reqs, msgs := msgs, halted := stop }

/-- The effect of `BxiPT::free`. -/
inductive Frees (s : State) (ni : NiId) (index : Nat) (pt : PtId) :
    State → Prop where
  | mk {mid : State} {mes : MeId → BxiME} (drops : Drops s mid)
      (sameMes : ∀ me, ∃ live, mes me = { s.mes me with live := live }) :
      Frees s ni index pt { mid with
        mes := mes
        pts := Function.update s.pts pt { s.pts pt with
          priorityList := [], overflowList := [], unexpectedHeaders := [] }
        ptIndexes := Function.update s.ptIndexes ni
          (Function.update (s.ptIndexes ni) index none) }

/-- The answer which the handlers of a Get and of a FetchAtomic allocate before
the match. -/
def answering (s : State) (msg : MsgId) (fail : NiFailType) : ReqType → State
  | .put | .atomic => s
  | .get => newResponse s msg .ptlGetResponse fail
  | .fetchAtomic => newResponse s msg .ptlFetchAtomicResponse fail

/-- The operation which follows the counter update. -/
def finishing (msg : MsgId) (me : MeId) (fail : NiFailType)
    (response : MsgId) : ReqType → Op
  | .put => .putFinish msg me fail
  | .get => .getFinish msg me response
  | .atomic => .atomicFinish msg me fail
  | .fetchAtomic => .fetchAtomicFinish msg me response

/-- Whether the request keeps a copy of the entry. -/
def copies (entry : BxiME) : ReqType → Bool
  | .put | .atomic => entry.list == .overflow
  | .get | .fetchAtomic => true

/-- What the four request handlers do with the entry they found, up to their
memory accesses. -/
def deposit (s : State) (msg : MsgId) (pt : PtId) (list : PtlList) (me : MeId)
    (fail : NiFailType) (kind : ReqType) : State :=
  receive (takeEntry (answering s msg fail kind) msg pt list me) msg me
    (copies (s.mes me) kind)

/-! ## Operations -/

section Operations

variable (sys : Sys) (self : Actor) (s : State)

/-- The operations which do not change the state. -/
inductive Quiet : Op → List Op → Prop where
  | resched : Quiet .resched []
  | releaseOff {nid vn key req} (off : (sys.node nid).e2eOff = true) :
      Quiet (.releaseE2eEntry nid vn key req) []
  | resumeDone {nid vn}
      (waiting : (s.nodes nid).flowctrlWaitingMessages vn = []) :
      Quiet (.resumeLoop nid vn) []
  | sendIssued {req} (issued : (s.reqs req).sendEventIssued = true) :
      Quiet (.maybeIssueSend req) []
  | sendEvent {req} : Quiet (.sendEvent req) (sendEvent s req)
  | ackEvent {req fail} : Quiet (.ackEvent req fail) (ackEvent s req fail)
  | getIssued {req} (issued : (s.reqs req).getEventIssued = true) :
      Quiet (.maybeIssueGet req) []
  | fetchAtomicIssued {req}
      (issued : (s.reqs req).fetchAtomicEventIssued = true) :
      Quiet (.maybeIssueFetchAtomic req) []
  | duplicate {msg} (request : (s.msgs msg).type.isRequest = true)
      (known : (s.reqs (s.reqOf msg)).processState > .created) :
      Quiet (.handle msg) []
  | unmatched {msg fail} (type : (s.msgs msg).type = .ptlPut)
      (fresh : ¬(s.reqs (s.reqOf msg)).processState > .created)
      (absent : matchEntry sys s self.nid msg = (none, fail))
      (asked : (s.reqs (s.reqOf msg)).ackReq ≠ .noAckReq) :
      Quiet (.handle msg) [.sendAck msg .ptlAck fail]
  | unanswered {msg}
      (type : (s.msgs msg).type = .ptlPut ∧
          (s.reqs (s.reqOf msg)).ackReq = .noAckReq ∨
        (s.msgs msg).type = .ptlAtomic)
      (fresh : ¬(s.reqs (s.reqOf msg)).processState > .created)
      (absent : (matchEntry sys s self.nid msg).1 = none) :
      Quiet (.handle msg) []
  | finished {msg} (type : (s.msgs msg).type = .e2eAck)
      (known : (s.reqs (s.reqOf msg)).processState ≥ .finished) :
      Quiet (.handle msg) []
  | atomicFinish {msg me fail} : Quiet (.atomicFinish msg me fail)
      (atomicFinish sys self s msg me fail)
  | notFlagged {me} (unflagged : (s.mes me).needsUnlink = false) :
      Quiet (.deferredUnlink me) []
  | responseKnown {msg}
      (known : (s.reqs (s.reqOf msg)).processState > .received) :
      Quiet (.responseRest msg) []
  | bxiAckOff {msg md} (off : sys.e2eOff (sys.mdNid md) = true) :
      Quiet (.sendBxiAck msg md) []
  | replyEvent {msg} : Quiet (.replyEvent msg) (replyEvent s msg)
  | ptlAckKnown {msg}
      (known : ¬(s.reqs (s.reqOf msg)).processState ≤ .received) :
      Quiet (.ptlAckTail msg) []
  | bxiAckTail {msg} : Quiet (.bxiAckTail msg) (bxiAckTail s msg)
  | commInit {msg} : Quiet (.commInit msg) (commInit sys self s msg)
  | handlePutEnd {msg} : Quiet (.handlePutEnd msg) (handlePutEnd s msg)
  | handleResponseEnd {msg} : Quiet (.handleResponseEnd msg)
      (handleResponseEnd sys self s msg)
  | acknowledged {msg} (known : (s.reqs (s.reqOf msg)).processState ≥
      ackedState (s.msgs msg).type) :
      Quiet (.e2eWake msg) [.unref msg]

/-- The operations which change the state. -/
inductive Phase : Op → State → List Op → Prop where
  | quiet {op new} (quiet : Quiet sys self s op new) : Phase op s new
  | putEvent {eq event origin} : Phase (.putEvent eq event origin)
      (s.emit (.event eq event origin)) [.resched]
  | mdIncrementCt {req ct amount} : Phase (.mdIncrementCt req ct amount)
      (s.emit (.mdCounter req ct amount)) [.resched]
  | meIncrementCt {req ct amount} : Phase (.meIncrementCt req ct amount)
      (s.emit (.meCounter req ct amount)) [.resched]
  | releaseE2eEntry {nid vn key req} (on : (sys.node nid).e2eOff = false) :
      Phase (.releaseE2eEntry nid vn key req)
        ((s.modNode nid fun node =>
            { node with e2eEntries := node.e2eEntries + 1 }).emit
            (.e2eRelease nid vn req))
        [.releaseCounts nid vn key req]
  | creditPanic {nid vn key req reason nodeCounts processCounts}
      (released : (s.nodes nid).releaseCredits sys.cfg vn key =
        (some reason, { s.nodes nid with
          flowctrlNodeCounts := nodeCounts
          flowctrlProcessCounts := processCounts })) :
      Phase (.releaseCounts nid vn key req)
        (((s.setCounts nid nodeCounts processCounts).emit
          (.credit nid vn key req)).halt (.panic reason)) []
  | releaseCounts {nid vn key req nodeCounts processCounts}
      (released : (s.nodes nid).releaseCredits sys.cfg vn key =
        (none, { s.nodes nid with
          flowctrlNodeCounts := nodeCounts
          flowctrlProcessCounts := processCounts })) :
      Phase (.releaseCounts nid vn key req)
        ((s.setCounts nid nodeCounts processCounts).emit
            (.credit nid vn key req))
        (if sys.cfg.maxInflightToProcess ≠ 0 ||
          sys.cfg.maxInflightToTarget ≠ 0 then [.resumeLoop nid vn] else [])
  | resumeLoop {nid vn parked rest}
      (waiting : (s.nodes nid).flowctrlWaitingMessages vn = parked :: rest) :
      Phase (.resumeLoop nid vn)
        (s.modNode nid fun node => node.pushTx vn parked) [.resumePop nid vn]
  | emptyDeque {nid vn}
      (waiting : (s.nodes nid).flowctrlWaitingMessages vn = []) :
      Phase (.resumePop nid vn) (s.halt (.emptyDeque nid vn)) []
  | resumePop {nid vn parked rest}
      (waiting : (s.nodes nid).flowctrlWaitingMessages vn = parked :: rest) :
      Phase (.resumePop nid vn)
        (s.modNode nid fun node => node.popWaiting vn) [.resumeLoop nid vn]
  | maybeIssueSend {req} (pending : (s.reqs req).sendEventIssued = false) :
      Phase (.maybeIssueSend req)
        (s.modReq req fun r => { r with sendEventIssued := true })
        (mdCounter s req (s.reqs req).md MdOption.eventCtSend ++
            [.sendEvent req])
  | maybeIssueGet {req} (pending : (s.reqs req).getEventIssued = false) :
      Phase (.maybeIssueGet req)
        (s.modReq req fun r => { r with getEventIssued := true })
        (issueFetchEvent sys s req .get none)
  | maybeIssueFetchAtomic {req}
      (pending : (s.reqs req).fetchAtomicEventIssued = false) :
      Phase (.maybeIssueFetchAtomic req)
        (s.modReq req fun r => { r with fetchAtomicEventIssued := true })
        (issueFetchEvent sys s req .fetchAtomic (some (s.reqs req).hdr))
  | respondUnmatched {msg fail kind}
      (type : (s.msgs msg).type = kind.msgType)
      (fetches : kind = .get ∨ kind = .fetchAtomic)
      (fresh : ¬(s.reqs (s.reqOf msg)).processState > .created)
      (absent : matchEntry sys s self.nid msg = (none, fail)) :
      Phase (.handle msg)
        ((answering s msg fail kind).modMsg s.nextMsg fun m =>
          { m with simulatedSize := 0 }) [.txPut s.nextMsg]
  | matched {msg pt list me fail kind effects stop}
      (type : (s.msgs msg).type = kind.msgType)
      (fresh : ¬(s.reqs (s.reqOf msg)).processState > .created)
      (found : matchEntry sys s self.nid msg = (some (pt, list, me), fail))
      (memory : MemoryEffects (s.reqOf msg) effects)
      (later : kind = .get → effects = [])
      (stops : stop = s.halted ∨ stop = some (.panic .nullCopy)) :
      Phase (.handle msg)
        ((deposit s msg pt list me fail kind).touch effects stop)
        (meCounter s (s.reqOf msg) (s.mes me) ++
            [finishing msg me fail s.nextMsg kind])
  | handleResponse {msg}
      (type : (s.msgs msg).type = .ptlGetResponse ∨
        (s.msgs msg).type = .ptlFetchAtomicResponse) :
      Phase (.handle msg)
        (s.emit (.answered (s.reqOf msg)))
        [releaseAnswered sys self s msg, .responseRest msg]
  | handlePtlAck {msg} (type : (s.msgs msg).type = .ptlAck) :
      Phase (.handle msg)
        (s.emit (.answered (s.reqOf msg))) [releaseAnswered sys self s msg,
            .sendBxiAck msg (s.reqs (s.reqOf msg)).md, .ptlAckTail msg]
  | ackWithoutAnswer {msg} (type : (s.msgs msg).type = .e2eAck)
      (fresh : ¬(s.reqs (s.reqOf msg)).processState ≥ .finished)
      (missing : (s.msgs msg).answersMsg = none) :
      Phase (.handle msg)
        ((s.modReq (s.reqOf msg) fun r =>
          { r with processState := .finished }).halt
            (.panic .ackWithoutAnswer)) []
  | handleBxiAck {msg answered} (type : (s.msgs msg).type = .e2eAck)
      (fresh : ¬(s.reqs (s.reqOf msg)).processState ≥ .finished)
      (answers : (s.msgs msg).answersMsg = some answered) :
      Phase (.handle msg)
        ((s.modReq (s.reqOf msg) fun r =>
            { r with processState := .finished }).touch
            (if (s.vnOf answered).isRequest then [.answered (s.reqOf msg)]
              else []) s.halted) [.releaseE2eEntry self.nid (s.vnOf answered)
            (bxiAckKey sys s msg answered) (s.reqOf msg), .bxiAckTail msg]
  | quickAck {msg type fail} (quick : sys.cfg.quickAcks = true) :
      Phase (.sendAck msg type fail)
        ((s.modReq (s.reqOf msg) fun r =>
            { r with processState := .finished }).emit
            (.answered (s.reqOf msg)))
        (.releaseE2eEntry (sys.mdNid (s.reqs (s.reqOf msg)).md) (s.vnOf msg)
            ⟨sys.mdPid (s.reqs (s.reqOf msg)).md,
              (s.reqs (s.reqOf msg)).targetPid, self.nid⟩ (s.reqOf msg) ::
          .maybeIssueSend (s.reqOf msg) :: issueAck s (s.reqOf msg) fail)
  | sendAck {msg type fail} (slow : sys.cfg.quickAcks = false) :
      Phase (.sendAck msg type fail)
        (newAck s msg type fail) [.txPut s.nextMsg]
  | putFinish {msg me fail after before following}
      (leaves : Leaves s me after before following) :
      Phase (.putFinish msg me fail)
        after (before ++
          issuePutLike sys s .put (s.mes me) (s.reqOf msg) ++ following ++
          sendDue msg fail (ackDue sys s (s.reqOf msg) (s.mes me)) ++
          pciSleep sys s self.nid msg)
  | getFinish {msg me response effects stop after before following}
      (memory : MemoryEffects (s.reqOf msg) effects)
      (stops : stop = s.halted ∨ stop = some (.panic .nullCopy))
      (leaves : Leaves ((s.modMsg response fun m => { m with
        simulatedSize := (s.reqs (s.reqOf msg)).mlength }).touch effects stop)
        me after before following) :
      Phase (.getFinish msg me response)
        after (before ++ following ++ [.txPut response])
  | atomicEvents {msg me after before following}
      (leaves : Leaves s me after before following) :
      Phase (.atomicEvents msg me)
        after (before ++
          issuePutLike sys s .atomic (s.mes me) (s.reqOf msg) ++ following)
  | fetchAtomicFinish {msg me response after before following}
      (leaves : Leaves (s.modMsg response fun m => { m with
        simulatedSize := (s.reqs (s.reqOf msg)).mlength })
        me after before following) :
      Phase (.fetchAtomicFinish msg me response)
        after (before ++ following ++ [.txPut response])
  | deferredUnlink {me after} (flagged : (s.mes me).needsUnlink = true)
      (unlinks : Unlinks s me after) :
      Phase (.deferredUnlink me) after []
  | txPut {msg} : Phase (.txPut msg) (txPut s self.nid self.txVn msg)
        [.resched]
  | responseRest {msg}
      (fresh : ¬(s.reqs (s.reqOf msg)).processState > .received) :
      Phase (.responseRest msg)
        (s.modReq (s.reqOf msg) fun r => { r with processState := .answered })
        (pciSleep sys s self.nid msg ++
            .sendBxiAck msg (s.reqs (s.reqOf msg)).replyMd ::
            mdCounter s (s.reqOf msg) (s.reqs (s.reqOf msg)).replyMd
              MdOption.eventCtReply ++
            .replyEvent msg :: pciSleep sys s self.nid msg)
  | sendBxiAck {msg md} (on : sys.e2eOff (sys.mdNid md) = false) :
      Phase (.sendBxiAck msg md) (newBxiAck s msg) [.txPut s.nextMsg]
  | ptlAckTail {msg}
      (fresh : (s.reqs (s.reqOf msg)).processState ≤ .received) :
      Phase (.ptlAckTail msg)
        (s.modReq (s.reqOf msg) fun r => { r with processState := .answered })
        (.maybeIssueSend (s.reqOf msg) ::
            issueAck s (s.reqOf msg) (s.msgs msg).niFailType)
  | unref {msg after} (equality : after = s.unref msg)
      (drops : Drops s after) : Phase (.unref msg) after []
  | exempt {msg} (free : exemptFromFlowctrl sys s self.nid msg = true) :
      Phase (.processTx msg) (releaseCq s msg) (transmit s msg)
  | granted {msg nodeCounts processCounts}
      (subject : exemptFromFlowctrl sys s self.nid msg = false)
      (checked : (s.nodes self.nid).checkCredits sys.cfg (s.vnOf msg)
          (flowctrlKey sys s msg) =
        (.granted, { s.nodes self.nid with
          flowctrlNodeCounts := nodeCounts
          flowctrlProcessCounts := processCounts })) :
      Phase (.processTx msg)
        (releaseCq ((s.setCounts self.nid nodeCounts processCounts).emit
          (.debit self.nid (s.vnOf msg) (flowctrlKey sys s msg)
            (s.reqOf msg))) msg)
        (transmit s msg)
  | refused {msg nodeCounts processCounts}
      (subject : exemptFromFlowctrl sys s self.nid msg = false)
      (checked : (s.nodes self.nid).checkCredits sys.cfg (s.vnOf msg)
          (flowctrlKey sys s msg) =
        (.refused, { s.nodes self.nid with
          flowctrlNodeCounts := nodeCounts
          flowctrlProcessCounts := processCounts })) :
      Phase (.processTx msg)
        ((s.setCounts self.nid nodeCounts processCounts).modNode self.nid
          fun node => node.park self.vn msg) []
  | creditsPanic {msg reason nodeCounts processCounts}
      (subject : exemptFromFlowctrl sys s self.nid msg = false)
      (checked : (s.nodes self.nid).checkCredits sys.cfg (s.vnOf msg)
          (flowctrlKey sys s msg) =
        (.panicked reason, { s.nodes self.nid with
          flowctrlNodeCounts := nodeCounts
          flowctrlProcessCounts := processCounts })) :
      Phase (.processTx msg)
        ((s.setCounts self.nid nodeCounts processCounts).halt
          (.panic reason)) []
  | acquireE2eEntry {msg} (left : ¬(s.nodes self.nid).e2eEntries ≤ 0) :
      Phase (.acquireE2eEntry msg)
        ((s.modNode self.nid fun node =>
          { node with e2eEntries := node.e2eEntries - 1 }).emit
            (.e2eAcquire self.nid (s.vnOf msg) (s.reqOf msg))) []
  | e2eEnqueue {msg} : Phase (.e2eEnqueue msg) (e2eEnqueue self s msg) []
  | commStart {msg} : Phase (.commStart msg) (commStart self s msg) []
  | gaveUp {msg} (pending : ¬(s.reqs (s.reqOf msg)).processState ≥
        ackedState (s.msgs msg).type)
      (last : (s.msgs msg).retryCount = sys.cfg.maxRetries) :
      Phase (.e2eWake msg)
        (s.modNode self.nid fun node =>
          { node with e2eGaveUp := node.e2eGaveUp + 1 }) [.unref msg]
  | retransmit {msg} (pending : ¬(s.reqs (s.reqOf msg)).processState ≥
        ackedState (s.msgs msg).type)
      (more : (s.msgs msg).retryCount < sys.cfg.maxRetries) :
      Phase (.e2eWake msg) (retransmit sys self s msg) [.resched, .unref msg]
  | retryPanic {msg} (pending : ¬(s.reqs (s.reqOf msg)).processState ≥
        ackedState (s.msgs msg).type)
      (beyond : sys.cfg.maxRetries < (s.msgs msg).retryCount) :
      Phase (.e2eWake msg) (s.halt (.panic .retryCount)) []
  | cqAcquire {ni msg} (left : ¬s.cqs ni ≤ 0) :
      Phase (.cqAcquire ni msg)
        { s with cqs := Function.update s.cqs ni (s.cqs ni - 1) }
        [.txPut msg]
  | appendInsert {me index}
      (scanned : (s.pts (s.mes me).pt).findHeader
        (fun header => s.reqs (s.reqOf header)) (s.mes me) index = none) :
      Phase (.walkThroughUHs me index) (appendInsert s me) (issueLink s me)
  | noMatchedMe {me index position header}
      (found : (s.pts (s.mes me).pt).findHeader
        (fun header => s.reqs (s.reqOf header)) (s.mes me) index =
          some (position, header))
      (missing : (s.reqs (s.reqOf header)).matchedMe = none) :
      Phase (.walkThroughUHs me index)
        (s.halt (.noMatchedMe (s.reqOf header))) []
  | overflow {me index position header matched}
      (found : (s.pts (s.mes me).pt).findHeader
        (fun header => s.reqs (s.reqOf header)) (s.mes me) index =
          some (position, header))
      (deposited : (s.reqs (s.reqOf header)).matchedMe = some matched) :
      Phase (.walkThroughUHs me index)
        (((s.modMe me fun m => { m with used := true }).modPt (s.mes me).pt
            fun p => { p with
              unexpectedHeaders := p.unexpectedHeaders.eraseIdx position }
            ).emit (.overflow (s.reqOf header) header (s.mes me).pt me))
        (.unref header :: issueEvent (s.pts (s.mes me).pt).eq
            (overflowEvent sys s (s.reqs (s.reqOf header)) matched)
            (.header header me) ++
          [if (s.mes me).hasOption MeOption.useOnce then .appendConsumed me
            else .walkThroughUHs me position])
  | appendConsumed {me} : Phase (.appendConsumed me) (destroyMe s me) []

/-- The API calls. -/
inductive CallPhase : Call → State → List Op → Prop where
  | pidInUse {ni} : CallPhase (.niInit ni) (s.halt (.panic .pidInUse)) []
  | niInit {ni} : CallPhase (.niInit ni)
      (s.modNode self.nid fun node =>
        { node with niHandles := node.niHandles ++ [ni] }) []
  | ptKept {ni index eq pt} (taken : s.ptIndexes ni index = some pt) :
      CallPhase (.ptAlloc ni index eq) (s) []
  | ptAlloc {ni index eq} (free : s.ptIndexes ni index = none) :
      CallPhase (.ptAlloc ni index eq)
        ({ s with
          pts := Function.update s.pts s.nextPt
            { eq := eq, ni := ni, index := index }
          nextPt := s.nextPt + 1
          ptIndexes := Function.update s.ptIndexes ni
            (Function.update (s.ptIndexes ni) index (some s.nextPt)) }) []
  | ptEnable {ni index pt} (allocated : s.ptIndexes ni index = some pt) :
      CallPhase (.ptEnable ni index)
        (s.modPt pt fun p => { p with enabled := true }) []
  | ptDisable {ni index pt} (allocated : s.ptIndexes ni index = some pt) :
      CallPhase (.ptDisable ni index)
        (s.modPt pt fun p => { p with enabled := false }) []
  | ptFree {ni index pt after} (allocated : s.ptIndexes ni index = some pt)
      (equality : after = ptFree s ni index pt)
      (frees : Frees s ni index pt after) :
      CallPhase (.ptFree ni index) after []
  | appendPriority {ni index pt me userPtr}
      (allocated : s.ptIndexes ni index = some pt) :
      CallPhase (.meAppend ni index me .priority userPtr)
        (newMe s pt me .priority userPtr) [.walkThroughUHs s.nextMe 0]
  | appendOverflow {ni index pt me userPtr}
      (allocated : s.ptIndexes ni index = some pt) :
      CallPhase (.meAppend ni index me .overflow userPtr)
        (appendInsert (newMe s pt me .overflow userPtr) s.nextMe)
        (issueLink (newMe s pt me .overflow userPtr) s.nextMe)
  | keptByHeader {me} (overflow : (s.mes me).list = .overflow)
      (header : (s.pts (s.mes me).pt).unexpectedHeaders.any fun header =>
        (s.mes me).matchesRequest (s.reqs (s.reqOf header))) :
      CallPhase (.meUnlink me) (s) []
  | meUnlink {me after}
      (free : ¬((s.mes me).list = .overflow ∧
        (s.pts (s.mes me).pt).unexpectedHeaders.any fun header =>
          (s.mes me).matchesRequest (s.reqs (s.reqOf header))))
      (unlinks : Unlinks s me after) :
      CallPhase (.meUnlink me) after []
  | request {cmd} : CallPhase (.request cmd) (ptlRequest sys self s cmd)
      [.cqAcquire cmd.md.ni s.nextMsg]

end Operations

/-! ## Steps -/

/-- The cases of `step`.  `index` is the thread which runs. -/
inductive Advances (sys : Sys) (s : State) (index : ThreadId) :
    Label → State → Prop where
  | dangling {label ptr} (dead : s.live ptr = false)
      (owner : label.thread = index) :
      Advances sys s index label (s.halt (.dangling ptr))
  | run {self : Actor} {op : Op} {rest new : List Op} {after : State}
      (found : s.threads[index]? = some ⟨self, op :: rest⟩)
      (alive : ∀ ptr ∈ op.derefs sys self s, s.live ptr = true)
      (phase : Phase sys self s op after new) :
      Advances sys s index (.run index) { after with
        threads := s.threads.set index ⟨self, new ++ rest⟩ }
  | recv {self : Actor} {position : Nat} {msg : MsgId}
      (found : s.threads[index]? = some ⟨self, []⟩)
      (target : self.kind = .nicTarget)
      (queued : (s.rx self.nid self.vn)[position]? = some msg) :
      Advances sys s index (.recv index position)
        { s.removeRx self.nid self.vn position with
          threads := s.threads.set index
            ⟨self, [.handle msg, .unref msg]⟩ }
  | take {self : Actor} {msg : MsgId} {rest : List MsgId}
      (found : s.threads[index]? = some ⟨self, []⟩)
      (initiator : self.kind = .nicInitiator)
      (queued : (s.nodes self.nid).txQueues self.vn = msg :: rest) :
      Advances sys s index (.take index)
        { s.popTx self.nid self.vn with
          threads := s.threads.set index ⟨self, [.processTx msg]⟩ }
  | wake {self : Actor} {msg : MsgId} {rest : List MsgId}
      (found : s.threads[index]? = some ⟨self, []⟩)
      (e2e : self.kind = .nicE2e)
      (alive : s.live (.msg msg) = true)
      (queued : (s.nodes self.nid).e2eQueue = msg :: rest) :
      Advances sys s index (.wake index)
        { s.popE2e self.nid with
          threads := s.threads.set index ⟨self, [.e2eWake msg]⟩ }
  | call {self : Actor} {call : Call} {new : List Op} {after : State}
      (found : s.threads[index]? = some ⟨self, []⟩)
      (user : self.kind = .userApp)
      (owned : call.ownedBy sys self index s = true)
      (alive : ∀ ptr ∈ call.derefs s, s.live ptr = true)
      (phase : CallPhase sys self s call after new) :
      Advances sys s index (.call index call) { after with
        threads := s.threads.set index ⟨self, new⟩ }

end S4BXI
