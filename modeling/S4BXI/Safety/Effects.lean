import S4BXI.Safety.AtMostOnce

/-!
# The effects of an operation

`Emits` says which entries an operation adds to the log and `Follows` which
operations it may leave to its actor.  Both are proved once from the phases;
an invariant about some effects or operations only looks at the cases which
concern it.
-/

namespace S4BXI

open Lib

section Effects

variable (sys : Sys) (self : Actor) (s : State)

/-- The entries which an operation adds to the log. -/
inductive Emits : Op → Obs → Prop where
  | event {eq event origin} :
      Emits (.putEvent eq event origin) (.event eq event origin)
  | mdCounter {req ct amount} :
      Emits (.mdIncrementCt req ct amount) (.mdCounter req ct amount)
  | meCounter {req ct amount} :
      Emits (.meIncrementCt req ct amount) (.meCounter req ct amount)
  | e2eRelease {nid vn key req} :
      Emits (.releaseE2eEntry nid vn key req) (.e2eRelease nid vn req)
  | credit {nid vn key req} :
      Emits (.releaseCounts nid vn key req) (.credit nid vn key req)
  | consumed {msg pt list me} :
      Emits (.handle msg) (.consumed (s.reqOf msg) msg pt list me)
  | memcpy {msg dest src count} :
      Emits (.handle msg) (.memcpy (s.reqOf msg) dest src count)
  | atomicOp {msg call} : Emits (.handle msg) (.atomicOp (s.reqOf msg) call)
  | answered {msg} : Emits (.handle msg) (.answered (s.reqOf msg))
  | quickAnswered {msg type fail} :
      Emits (.sendAck msg type fail) (.answered (s.reqOf msg))
  | getMemcpy {msg me response dest src count} :
      Emits (.getFinish msg me response)
        (.memcpy (s.reqOf msg) dest src count)
  | getAtomicOp {msg me response call} :
      Emits (.getFinish msg me response) (.atomicOp (s.reqOf msg) call)
  | submitted {msg} :
      Emits (.txPut msg) (.submitted self.nid self.txVn msg)
  | resubmitted {msg} :
      Emits (.e2eWake msg) (.submitted self.nid (s.vnOf msg) s.nextMsg)
  | debit {msg} : Emits (.processTx msg)
      (.debit self.nid (s.vnOf msg) (flowctrlKey sys s msg) (s.reqOf msg))
  | e2eAcquire {msg} : Emits (.acquireE2eEntry msg)
      (.e2eAcquire self.nid (s.vnOf msg) (s.reqOf msg))
  | sent {msg} : Emits (.commStart msg) (.sent self.nid self.vn msg)
  | overflow {me index header} : Emits (.walkThroughUHs me index)
      (.overflow (s.reqOf header) header (s.mes me).pt me)

/-- The operations which an operation may leave to its actor. -/
inductive Follows : Op → Op → Prop where
  | eventPut {eq event origin} : Follows (.putEvent eq event origin) .resched
  | mdCounted {req ct amount} : Follows (.mdIncrementCt req ct amount) .resched
  | meCounted {req ct amount} : Follows (.meIncrementCt req ct amount) .resched
  | txPut {msg} : Follows (.txPut msg) .resched
  | releaseCounts {nid vn key req} : Follows (.releaseE2eEntry nid vn key req)
      (.releaseCounts nid vn key req)
  | resume {nid vn key req} : Follows (.releaseCounts nid vn key req)
      (.resumeLoop nid vn)
  | resumePop {nid vn} : Follows (.resumeLoop nid vn) (.resumePop nid vn)
  | resumeAgain {nid vn} : Follows (.resumePop nid vn) (.resumeLoop nid vn)
  | sendCounter {req ct amount} : Follows (.maybeIssueSend req)
      (.mdIncrementCt req ct amount)
  | sendEvent {req} : Follows (.maybeIssueSend req) (.sendEvent req)
  | putSend {req eq event} (type : event.type = .send) :
      Follows (.sendEvent req) (.putEvent eq event (.request req))
  | putAck {req fail eq event} (type : event.type = .ack) :
      Follows (.ackEvent req fail) (.putEvent eq event (.request req))
  | putGet {req eq event} (type : event.type = .get) :
      Follows (.maybeIssueGet req) (.putEvent eq event (.request req))
  | putFetchAtomic {req eq event} (type : event.type = .fetchAtomic) :
      Follows (.maybeIssueFetchAtomic req)
        (.putEvent eq event (.request req))
  | unmatchedAck {msg fail} (type : (s.msgs msg).type = .ptlPut) :
      Follows (.handle msg) (.sendAck msg .ptlAck fail)
  | respond {msg} (request : (s.msgs msg).type.isRequest = true) :
      Follows (.handle msg) (.txPut s.nextMsg)
  | matchCounter {msg ct amount} : Follows (.handle msg)
      (.meIncrementCt (s.reqOf msg) ct amount)
  | matched {msg pt list me fail kind}
      (type : (s.msgs msg).type = kind.msgType)
      (found : matchEntry sys s self.nid msg = (some (pt, list, me), fail)) :
      Follows (.handle msg) (finishing msg me fail s.nextMsg kind)
  | releaseAnswered {msg} : Follows (.handle msg)
      (releaseAnswered sys self s msg)
  | responseRest {msg}
      (type : (s.msgs msg).type = .ptlGetResponse ∨
        (s.msgs msg).type = .ptlFetchAtomicResponse) :
      Follows (.handle msg) (.responseRest msg)
  | ackBxiAck {msg md} (type : (s.msgs msg).type = .ptlAck) :
      Follows (.handle msg) (.sendBxiAck msg md)
  | ptlAckTail {msg} (type : (s.msgs msg).type = .ptlAck) :
      Follows (.handle msg) (.ptlAckTail msg)
  | releaseAcked {msg answered} (type : (s.msgs msg).type = .e2eAck)
      (answers : (s.msgs msg).answersMsg = some answered) :
      Follows (.handle msg) (.releaseE2eEntry self.nid (s.vnOf answered)
        (bxiAckKey sys s msg answered) (s.reqOf msg))
  | bxiAckTail {msg} (type : (s.msgs msg).type = .e2eAck) :
      Follows (.handle msg) (.bxiAckTail msg)
  | quickRelease {msg type fail} (quick : sys.cfg.quickAcks = true) :
      Follows (.sendAck msg type fail)
        (.releaseE2eEntry (sys.mdNid (s.reqs (s.reqOf msg)).md) (s.vnOf msg)
          ⟨sys.mdPid (s.reqs (s.reqOf msg)).md,
            (s.reqs (s.reqOf msg)).targetPid, self.nid⟩ (s.reqOf msg))
  | quickSend {msg type fail} (quick : sys.cfg.quickAcks = true) :
      Follows (.sendAck msg type fail) (.maybeIssueSend (s.reqOf msg))
  | quickCounter {msg type fail ct amount} (quick : sys.cfg.quickAcks = true) :
      Follows (.sendAck msg type fail)
        (.mdIncrementCt (s.reqOf msg) ct amount)
  | quickAck {msg type fail} (quick : sys.cfg.quickAcks = true) :
      Follows (.sendAck msg type fail) (.ackEvent (s.reqOf msg) fail)
  | ackPut {msg type fail} : Follows (.sendAck msg type fail)
      (.txPut s.nextMsg)
  | putUnlinked {msg me fail eq event} (type : event.type = .autoUnlink) :
      Follows (.putFinish msg me fail) (.putEvent eq event (.entry me))
  | putReported {msg me fail eq event} (type : event.type = .put) :
      Follows (.putFinish msg me fail)
        (.putEvent eq event (.request (s.reqOf msg)))
  | putUnlink {msg me fail} : Follows (.putFinish msg me fail)
      (.deferredUnlink me)
  | putAcked {msg me fail type}
      (due : ackDue sys s (s.reqOf msg) (s.mes me) = some type) :
      Follows (.putFinish msg me fail) (.sendAck msg type fail)
  | putSleep {msg me fail} : Follows (.putFinish msg me fail) .resched
  | getUnlinked {msg me response eq event} (type : event.type = .autoUnlink) :
      Follows (.getFinish msg me response) (.putEvent eq event (.entry me))
  | getUnlink {msg me response} : Follows (.getFinish msg me response)
      (.deferredUnlink me)
  | getRespond {msg me response} : Follows (.getFinish msg me response)
      (.txPut response)
  | atomicSleep {msg me fail} : Follows (.atomicFinish msg me fail) .resched
  | atomicAcked {msg me fail type}
      (due : ackDue sys s (s.reqOf msg) (s.mes me) = some type) :
      Follows (.atomicFinish msg me fail) (.sendAck msg type fail)
  | atomicEvents {msg me fail} : Follows (.atomicFinish msg me fail)
      (.atomicEvents msg me)
  | atomicUnlinked {msg me eq event} (type : event.type = .autoUnlink) :
      Follows (.atomicEvents msg me) (.putEvent eq event (.entry me))
  | atomicReported {msg me eq event} (type : event.type = .atomic) :
      Follows (.atomicEvents msg me)
        (.putEvent eq event (.request (s.reqOf msg)))
  | atomicUnlink {msg me} : Follows (.atomicEvents msg me) (.deferredUnlink me)
  | fetchUnlinked {msg me response eq event}
      (type : event.type = .autoUnlink) :
      Follows (.fetchAtomicFinish msg me response)
        (.putEvent eq event (.entry me))
  | fetchUnlink {msg me response} : Follows
      (.fetchAtomicFinish msg me response) (.deferredUnlink me)
  | fetchRespond {msg me response} : Follows
      (.fetchAtomicFinish msg me response) (.txPut response)
  | responseSleep {msg} : Follows (.responseRest msg) .resched
  | responseBxiAck {msg md} : Follows (.responseRest msg) (.sendBxiAck msg md)
  | replyCounter {msg ct amount} : Follows (.responseRest msg)
      (.mdIncrementCt (s.reqOf msg) ct amount)
  | replyEvent {msg} : Follows (.responseRest msg) (.replyEvent msg)
  | bxiAckPut {msg md} : Follows (.sendBxiAck msg md) (.txPut s.nextMsg)
  | putReply {msg eq event} (type : event.type = .reply) :
      Follows (.replyEvent msg) (.putEvent eq event (.request (s.reqOf msg)))
  | ackedSend {msg} : Follows (.ptlAckTail msg) (.maybeIssueSend (s.reqOf msg))
  | ackedCounter {msg ct amount} : Follows (.ptlAckTail msg)
      (.mdIncrementCt (s.reqOf msg) ct amount)
  | ackedEvent {msg} : Follows (.ptlAckTail msg)
      (.ackEvent (s.reqOf msg) (s.msgs msg).niFailType)
  | bxiAckedSend {msg} : Follows (.bxiAckTail msg)
      (.maybeIssueSend (s.reqOf msg))
  | bxiAckedGet {msg} : Follows (.bxiAckTail msg) (.maybeIssueGet (s.reqOf msg))
  | bxiAckedFetchAtomic {msg} : Follows (.bxiAckTail msg)
      (.maybeIssueFetchAtomic (s.reqOf msg))
  | commInit {msg} : Follows (.processTx msg) (.commInit msg)
  | handlePutEnd {msg} (request : (s.msgs msg).type.isRequest = true) :
      Follows (.processTx msg) (.handlePutEnd msg)
  | handleResponseEnd {msg}
      (type : (s.msgs msg).type = .ptlGetResponse ∨
        (s.msgs msg).type = .ptlFetchAtomicResponse) :
      Follows (.processTx msg) (.handleResponseEnd msg)
  | acquireE2eEntry {msg} (type : (s.msgs msg).type ≠ .e2eAck)
      (first : (s.msgs msg).retryCount = 0) :
      Follows (.commInit msg) (.acquireE2eEntry msg)
  | e2eEnqueue {msg} (type : (s.msgs msg).type ≠ .e2eAck) :
      Follows (.commInit msg) (.e2eEnqueue msg)
  | commStart {msg} : Follows (.commInit msg) (.commStart msg)
  | bufferedSend {msg} : Follows (.handlePutEnd msg)
      (.maybeIssueSend (s.reqOf msg))
  | responseGet {msg} : Follows (.handleResponseEnd msg)
      (.maybeIssueGet (s.reqOf msg))
  | responseFetchAtomic {msg} : Follows (.handleResponseEnd msg)
      (.maybeIssueFetchAtomic (s.reqOf msg))
  | e2eUnref {msg} : Follows (.e2eWake msg) (.unref msg)
  | e2ePut {msg} : Follows (.e2eWake msg) .resched
  | cqAcquired {ni msg} : Follows (.cqAcquire ni msg) (.txPut msg)
  | linked {me index eq event} (type : event.type = .link) :
      Follows (.walkThroughUHs me index) (.putEvent eq event (.entry me))
  | headerUnref {me index header} : Follows (.walkThroughUHs me index)
      (.unref header)
  | headerEvent {me index header eq event} : Follows (.walkThroughUHs me index)
      (.putEvent eq event (.header header me))
  | appendConsumed {me index} : Follows (.walkThroughUHs me index)
      (.appendConsumed me)
  | walkThroughUHs {me index position} : Follows (.walkThroughUHs me index)
      (.walkThroughUHs me position)

end Effects

section Phases

variable {sys : Sys} {self : Actor} {s after : State}

theorem MemoryEffects.emitted {op : Op} {req : ReqId} {effects : List Obs}
    (memory : MemoryEffects req effects)
    (copy : ∀ dest src count,
      Emits sys self s op (.memcpy req dest src count))
    (atomic : ∀ call, Emits sys self s op (.atomicOp req call)) :
    ∀ obs ∈ effects, Emits sys self s op obs := by
  cases memory with
  | nothing => simp
  | copy => simpa using copy _ _ _
  | atomic => simpa using atomic _
  | fetch => simpa using ⟨copy _ _ _, atomic _⟩

/-- What a phase adds to the log. -/
theorem Phase.emits {op : Op} {new : List Op}
    (phase : Phase sys self s op after new) (within : op.Within s.bounds) :
    ∃ extra, after.log = s.log ++ extra ∧
      ∀ obs ∈ extra, Emits sys self s op obs := by
  cases phase with
  | putEvent => exact ⟨_, rfl, by simpa using .event⟩
  | mdIncrementCt => exact ⟨_, rfl, by simpa using .mdCounter⟩
  | meIncrementCt => exact ⟨_, rfl, by simpa using .meCounter⟩
  | releaseE2eEntry on => exact ⟨_, rfl, by simpa using .e2eRelease⟩
  | creditPanic released => exact ⟨_, rfl, by simpa using .credit⟩
  | releaseCounts released => exact ⟨_, rfl, by simpa using .credit⟩
  | respondUnmatched type fetches fresh absent =>
      exact ⟨[], (answering_log _ _ _ _).trans (by simp), by simp⟩
  | @matched msg pt list me fail kind effects stop type fresh found memory
      later stops =>
      refine ⟨.consumed (s.reqOf msg) msg pt list me :: effects, ?_, ?_⟩
      · change (deposit s msg pt list me fail kind).log ++ effects = _
        rw [deposit_log within]
        simp
      · intro obs member
        rcases List.mem_cons.mp member with rfl | accessed
        · exact .consumed
        · exact memory.emitted (fun _ _ _ => .memcpy) (fun _ => .atomicOp) obs
            accessed
  | handleResponse type => exact ⟨_, rfl, by simpa using .answered⟩
  | handlePtlAck type => exact ⟨_, rfl, by simpa using .answered⟩
  | handleBxiAck type fresh answers =>
      refine ⟨_, rfl, ?_⟩
      split
      · simpa using .answered
      · simp
  | quickAck quick => exact ⟨_, rfl, by simpa using .quickAnswered⟩
  | putFinish leaves => exact ⟨[], by simp [leaves.log], by simp⟩
  | @getFinish msg me response effects stop after before following memory
      stops leaves =>
      exact ⟨effects, leaves.log, memory.emitted (fun _ _ _ => .getMemcpy)
        fun _ => .getAtomicOp⟩
  | atomicEvents leaves => exact ⟨[], by simp [leaves.log], by simp⟩
  | fetchAtomicFinish leaves =>
      exact ⟨[], leaves.log.trans (by simp [State.modMsg]), by simp⟩
  | deferredUnlink flagged unlinks => exact ⟨[], by simp [unlinks.log], by simp⟩
  | txPut => exact ⟨_, rfl, by simpa using .submitted⟩
  | unref equality drops =>
      obtain ⟨sameReqs, sameMsgs, stops⟩ := drops
      exact ⟨[], by simp, by simp⟩
  | granted subject checked => exact ⟨_, rfl, by simpa using .debit⟩
  | acquireE2eEntry left => exact ⟨_, rfl, by simpa using .e2eAcquire⟩
  | commStart => exact ⟨_, rfl, by simpa using .sent⟩
  | @retransmit msg pending more =>
      unfold S4BXI.retransmit
      dsimp only
      split
      · exact ⟨_, rfl, by simpa using .resubmitted⟩
      · exact ⟨[], (List.append_nil _).symm, by simp⟩
  | overflow found deposited => exact ⟨_, rfl, by simpa using .overflow⟩
  | _ => exact ⟨[], (List.append_nil _).symm, by simp⟩

theorem Quiet.follows {op : Op} {new : List Op}
    (quiet : Quiet sys self s op new) :
    ∀ added ∈ new, Follows sys self s op added := by
  cases quiet with
  | @sendEvent req =>
      rcases sendEvent_cases s req with ops | ⟨queue, event, type, ops⟩
      · simp [ops]
      · simpa [ops] using .putSend type
  | @ackEvent req fail =>
      rcases ackEvent_cases s req fail with ops | ⟨queue, event, type, ops⟩
      · simp [ops]
      · simpa [ops] using .putAck type
  | unmatched type fresh absent asked => simpa using .unmatchedAck type
  | @atomicFinish msg me fail =>
      simp only [S4BXI.atomicFinish, List.mem_append, List.mem_cons]
      rintro added ((sleep | due) | rfl | sleep)
      · exact pciSleep_every (P := Follows sys self s _) .atomicSleep added
          sleep
      · exact sendDue_every (P := Follows sys self s _)
          (fun _ => .atomicAcked) added due
      · exact .atomicEvents
      · exact pciSleep_every (P := Follows sys self s _) .atomicSleep added
          sleep
  | @replyEvent msg =>
      rcases replyEvent_cases s msg with ops | ⟨queue, event, type, ops⟩
      · simp [ops]
      · simpa [ops] using .putReply type
  | @bxiAckTail msg =>
      rcases bxiAckTail_cases s msg with
        ops | ops | ⟨type, ops⟩ | ⟨type, ops⟩
      · simp [ops]
      · simpa [ops] using .bxiAckedSend
      · simpa [ops] using .bxiAckedGet
      · simpa [ops] using .bxiAckedFetchAtomic
  | @commInit msg =>
      rcases commInit_cases sys self s msg with
        ⟨on, type, ⟨first, ops⟩ | ⟨again, ops⟩⟩ | ⟨off, ops⟩
      · simpa [ops] using
          ⟨.acquireE2eEntry type first, .e2eEnqueue type, .commStart⟩
      · simpa [ops] using ⟨.e2eEnqueue type, .commStart⟩
      · simpa [ops] using .commStart
  | @handlePutEnd msg =>
      rcases handlePutEnd_cases s msg with ops | ops
      · simp [ops]
      · simpa [ops] using .bufferedSend
  | @handleResponseEnd msg =>
      rcases handleResponseEnd_cases sys self s msg with
        ops | ⟨type, ops⟩ | ⟨type, ops⟩
      · simp [ops]
      · simpa [ops] using .responseGet
      · simpa [ops] using .responseFetchAtomic
  | acknowledged known => simpa using .e2eUnref
  | _ => simp

/-- The operations which a phase leaves. -/
theorem Phase.follows {op : Op} {new : List Op}
    (phase : Phase sys self s op after new) :
    ∀ added ∈ new, Follows sys self s op added := by
  cases phase with
  | quiet quiet => exact quiet.follows
  | putEvent => simpa using .eventPut
  | mdIncrementCt => simpa using .mdCounted
  | meIncrementCt => simpa using .meCounted
  | releaseE2eEntry on => simpa using .releaseCounts
  | releaseCounts released =>
      split
      · simpa using .resume
      · simp
  | resumeLoop waiting => simpa using .resumePop
  | resumePop waiting => simpa using .resumeAgain
  | maybeIssueSend pending =>
      simp only [List.mem_append, List.mem_singleton]
      rintro added (counter | rfl)
      · exact mdCounter_every (P := Follows sys self s _)
          (fun _ _ => .sendCounter) added counter
      · exact .sendEvent
  | maybeIssueGet pending => exact issueFetchEvent_every fun _ _ => .putGet
  | maybeIssueFetchAtomic pending =>
      exact issueFetchEvent_every fun _ _ => .putFetchAtomic
  | @respondUnmatched msg fail kind type fetches fresh absent =>
      have request : (s.msgs msg).type.isRequest = true := by
        rw [type]
        cases kind <;> rfl
      simpa using .respond request
  | matched type fresh found memory later stops =>
      simp only [List.mem_append, List.mem_singleton]
      rintro added (counter | rfl)
      · exact meCounter_every (P := Follows sys self s _)
          (fun _ _ => .matchCounter) added counter
      · exact .matched type found
  | handleResponse type =>
      simpa using ⟨.releaseAnswered, .responseRest type⟩
  | handlePtlAck type =>
      simpa using ⟨.releaseAnswered, .ackBxiAck type, .ptlAckTail type⟩
  | handleBxiAck type fresh answers =>
      simpa using ⟨.releaseAcked type answers, .bxiAckTail type⟩
  | quickAck quick =>
      simp only [List.mem_cons]
      rintro added (rfl | rfl | issued)
      · exact .quickRelease quick
      · exact .quickSend quick
      · exact issueAck_every (P := Follows sys self s _)
          (fun _ _ => .quickCounter quick) (.quickAck quick) added issued
  | sendAck slow => simpa using .ackPut
  | putFinish leaves =>
      obtain ⟨first, last⟩ := leaves.every (P := Follows sys self s _)
        (fun _ _ => .putUnlinked) .putUnlink
      simp only [List.mem_append]
      rintro added ((((issued | issued) | issued) | issued) | issued)
      · exact first added issued
      · exact issuePutLike_every (P := Follows sys self s _)
          (fun _ _ => .putReported) added issued
      · exact last added issued
      · exact sendDue_every (P := Follows sys self s _) (fun _ => .putAcked)
          added issued
      · exact pciSleep_every (P := Follows sys self s _) .putSleep added
          issued
  | getFinish memory stops leaves =>
      obtain ⟨first, last⟩ := leaves.every (P := Follows sys self s _)
        (fun _ _ => .getUnlinked) .getUnlink
      simp only [List.mem_append, List.mem_singleton]
      rintro added ((issued | issued) | rfl)
      · exact first added issued
      · exact last added issued
      · exact .getRespond
  | atomicEvents leaves =>
      obtain ⟨first, last⟩ := leaves.every (P := Follows sys self s _)
        (fun _ _ => .atomicUnlinked) .atomicUnlink
      simp only [List.mem_append]
      rintro added ((issued | issued) | issued)
      · exact first added issued
      · exact issuePutLike_every (P := Follows sys self s _)
          (fun _ _ => .atomicReported) added issued
      · exact last added issued
  | fetchAtomicFinish leaves =>
      obtain ⟨first, last⟩ := leaves.every (P := Follows sys self s _)
        (fun _ _ => .fetchUnlinked) .fetchUnlink
      simp only [List.mem_append, List.mem_singleton]
      rintro added ((issued | issued) | rfl)
      · exact first added issued
      · exact last added issued
      · exact .fetchRespond
  | txPut => simpa using .txPut
  | responseRest fresh =>
      simp only [List.mem_append, List.mem_cons]
      rintro added ((issued | rfl | issued) | rfl | issued)
      · exact pciSleep_every (P := Follows sys self s _) .responseSleep added
          issued
      · exact .responseBxiAck
      · exact mdCounter_every (P := Follows sys self s _)
          (fun _ _ => .replyCounter) added issued
      · exact .replyEvent
      · exact pciSleep_every (P := Follows sys self s _) .responseSleep added
          issued
  | sendBxiAck on => simpa using .bxiAckPut
  | ptlAckTail fresh =>
      simp only [List.mem_cons]
      rintro added (rfl | issued)
      · exact .ackedSend
      · exact issueAck_every (P := Follows sys self s _)
          (fun _ _ => .ackedCounter) .ackedEvent added issued
  | exempt free =>
      exact transmit_every .commInit .handlePutEnd .handleResponseEnd
  | granted subject checked =>
      exact transmit_every .commInit .handlePutEnd .handleResponseEnd
  | gaveUp pending last => simpa using .e2eUnref
  | retransmit pending more => simpa using ⟨.e2ePut, .e2eUnref⟩
  | cqAcquire left => simpa using .cqAcquired
  | appendInsert scanned => exact issueLink_every fun _ _ => .linked
  | overflow found deposited =>
      simp only [List.mem_append, List.mem_cons, List.not_mem_nil, or_false]
      rintro added ((rfl | issued) | rfl)
      · exact .headerUnref
      · exact issueEvent_every (P := Follows sys self s _)
          (fun _ => .headerEvent) added issued
      · split
        · exact .appendConsumed
        · exact .walkThroughUHs
  | _ => simp

end Phases

end S4BXI
