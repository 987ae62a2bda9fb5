import S4BXI.Lib.Transition
import S4BXI.Nic.Initiator

/-!
# The transition function of a simulation

A label names the actor which runs.  An actor with pending operations performs
the first one; an idle NIC target takes any message of its RX mailbox, an idle
NIC initiator or E2E actor takes the head of its queue, and an idle user
application makes any API call.  An actor which has not reached its next
SimGrid call runs alone; apart from this, no order is assumed between actors,
so that every schedule SimGrid can produce is a run.
-/

namespace S4BXI

open Lib

/-- One operation of an actor; `none` while it is blocked. -/
def exec (sys : Sys) (self : Actor) (s : State) : Op → Option Segment
  | .resched => some (s, [])
  | .putEvent eq event origin =>
      some (s.emit (.event eq event origin), [.resched])
  | .mdIncrementCt req ct amount =>
      some (s.emit (.mdCounter req ct amount), [.resched])
  | .meIncrementCt req ct amount =>
      some (s.emit (.meCounter req ct amount), [.resched])
  | .releaseE2eEntry nid vn key req =>
      some (releaseE2eEntry sys s nid vn key req)
  | .releaseCounts nid vn key req =>
      some (releaseCounts sys s nid vn key req)
  | .resumeLoop nid vn => some (resumeLoop s nid vn)
  | .resumePop nid vn => some (resumePop s nid vn)
  | .maybeIssueSend req => some (maybeIssueSend s req)
  | .sendEvent req => some (s, sendEvent s req)
  | .ackEvent req fail => some (s, ackEvent s req fail)
  | .maybeIssueGet req => some (maybeIssueGet sys s req)
  | .maybeIssueFetchAtomic req => some (maybeIssueFetchAtomic sys s req)
  | .handle msg => some (handleMsg sys self s msg)
  | .sendAck msg type fail => some (sendAck sys self s msg type fail)
  | .putFinish msg me fail => some (putFinish sys self s msg me fail)
  | .getFinish msg me response => some (getFinish sys s msg me response)
  | .atomicFinish msg me fail =>
      some (s, atomicFinish sys self s msg me fail)
  | .atomicEvents msg me => some (atomicEvents sys s msg me)
  | .fetchAtomicFinish msg me response =>
      some (fetchAtomicFinish s msg me response)
  | .deferredUnlink me => some (deferredUnlink s me, [])
  | .txPut msg => some (txPut s self.nid self.txVn msg, [.resched])
  | .responseRest msg => some (responseRest sys self s msg)
  | .sendBxiAck msg md => some (sendBxiAck sys s msg md)
  | .replyEvent msg => some (s, replyEvent s msg)
  | .ptlAckTail msg => some (ptlAckTail s msg)
  | .bxiAckTail msg => some (s, bxiAckTail s msg)
  | .unref msg => some (s.unref msg, [])
  | .processTx msg => some (processTx sys self s msg)
  | .commInit msg => some (s, commInit sys self s msg)
  | .acquireE2eEntry msg => acquireE2eEntry self s msg
  | .e2eEnqueue msg => some (e2eEnqueue self s msg, [])
  | .commStart msg => some (commStart self s msg, [])
  | .handlePutEnd msg => some (s, handlePutEnd s msg)
  | .handleResponseEnd msg => some (s, handleResponseEnd sys self s msg)
  | .e2eWake msg => some (e2eWake sys self s msg)
  | .cqAcquire ni msg => cqAcquire s ni msg
  | .walkThroughUHs me index => some (walkThroughUHs sys s me index)
  | .appendConsumed me => some (destroyMe s me, [])

/-- A message and its request. -/
def msgPtrs (s : State) (msg : MsgId) : List Ptr :=
  [.msg msg, .req (s.reqOf msg)]

/-- The headers scanned by `walk_through_UHs` and their requests. -/
def headerPtrs (s : State) (pt : PtId) (index : Nat) : List Ptr :=
  ((s.pts pt).unexpectedHeaders.drop index).flatMap (msgPtrs s)

/-- The pointers dereferenced by an operation.  `unref` checks its own. -/
def Op.derefs (sys : Sys) (self : Actor) (s : State) : Op → List Ptr
  | .resched | .putEvent _ _ _ | .mdIncrementCt _ _ _ | .meIncrementCt _ _ _
  | .releaseE2eEntry _ _ _ _ | .releaseCounts _ _ _ _ | .resumeLoop _ _
  | .resumePop _ _ | .txPut _ | .unref _ | .acquireE2eEntry _
  | .cqAcquire _ _ => []
  | .maybeIssueSend req | .sendEvent req | .ackEvent req _
  | .maybeIssueGet req | .maybeIssueFetchAtomic req => [.req req]
  | .handle msg => msgPtrs s msg ++
      match (s.msgs msg).answersMsg with
      | some answered => msgPtrs s answered
      | none => []
  | .putFinish msg me _ | .atomicFinish msg me _
  | .atomicEvents msg me => .me me :: msgPtrs s msg
  | .getFinish msg me response | .fetchAtomicFinish msg me response =>
      .me me :: .msg response :: msgPtrs s msg
  | .deferredUnlink me | .appendConsumed me => [.me me]
  | .sendAck msg _ _ | .responseRest msg | .sendBxiAck msg _
  | .replyEvent msg | .ptlAckTail msg | .bxiAckTail msg | .processTx msg
  | .e2eWake msg => msgPtrs s msg
  | .commInit msg | .e2eEnqueue msg | .commStart msg | .handlePutEnd msg =>
      [.msg msg]
  | .handleResponseEnd msg =>
      if (sys.node self.nid).e2eOff then [.msg msg] else []
  | .walkThroughUHs me index =>
      .me me :: headerPtrs s (s.mes me).pt index

/-- The pointers dereferenced by an API call. -/
def Call.derefs (s : State) : Call → List Ptr
  | .meUnlink me => .me me :: headerPtrs s (s.mes me).pt 0
  | _ => []

/-- What makes an actor run. -/
inductive Label where
  /-- The actor performs its first pending operation. -/
  | run (thread : ThreadId)
  /-- An idle NIC target takes the message at `position` of its mailbox. -/
  | recv (thread : ThreadId) (position : Nat)
  /-- An idle NIC initiator takes the head of its TX queue. -/
  | take (thread : ThreadId)
  /-- The idle E2E actor takes the head of its queue. -/
  | wake (thread : ThreadId)
  /-- An idle user application makes an API call. -/
  | call (thread : ThreadId) (call : Call)

def Label.thread : Label → ThreadId
  | .run thread | .recv thread _ | .take thread | .wake thread
  | .call thread _ => thread

/-- What an actor does in a step: the pending operations it consumes, the
pointers it dereferences and what it leaves behind. -/
structure Activation where
  consumed : List Op := []
  derefs : List Ptr := []
  segment : Segment

namespace State

def removeRx (s : State) (nid : Nid) (vn : Vn) (position : Nat) : State :=
  { s with
    rx := Function.update s.rx nid
      (Function.update (s.rx nid) vn ((s.rx nid vn).eraseIdx position)) }

def popTx (s : State) (nid : Nid) (vn : Vn) : State :=
  s.modNode nid fun node => node.popTx vn

def popE2e (s : State) (nid : Nid) : State :=
  s.modNode nid fun node => { node with e2eQueue := node.e2eQueue.tail }

end State

/-- The delivery of a message to a NIC target. -/
def recv (self : Actor) (s : State) (position : Nat) : Option Activation :=
  ((s.rx self.nid self.vn)[position]?).map fun msg =>
    { segment := (s.removeRx self.nid self.vn position,
        [.handle msg, .unref msg]) }

/-- The delivery of a message to a NIC initiator. -/
def take (self : Actor) (s : State) : Option Activation :=
  ((s.nodes self.nid).txQueues self.vn).head?.map fun msg =>
    { segment := (s.popTx self.nid self.vn, [.processTx msg]) }

/-- An iteration of the E2E actor up to its sleep. -/
def wake (self : Actor) (s : State) : Option Activation :=
  (s.nodes self.nid).e2eQueue.head?.map fun msg =>
    { derefs := [.msg msg]
      segment := (s.popE2e self.nid, [.e2eWake msg]) }

/-- The activation of a thread by a label. -/
def activate (sys : Sys) (s : State) (thread : Thread Actor Op) :
    Label → Option Activation
  | .run _ =>
      match thread.ops with
      | [] => none
      | op :: _ => (exec sys thread.role s op).map fun segment =>
          { consumed := [op]
            derefs := op.derefs sys thread.role s
            segment := segment }
  | .recv _ position =>
      if thread.role.kind = .nicTarget ∧ thread.ops = [] then
        recv thread.role s position
      else none
  | .take _ =>
      if thread.role.kind = .nicInitiator ∧ thread.ops = [] then
        take thread.role s
      else none
  | .wake _ =>
      if thread.role.kind = .nicE2e ∧ thread.ops = [] then
        wake thread.role s
      else none
  | .call process call =>
      if thread.role.kind = .userApp ∧ thread.ops = [] ∧
          call.ownedBy sys thread.role process s then
        (apiCall sys thread.role s call).map fun segment =>
          { derefs := call.derefs s
            segment := segment }
      else none

/-- An actor which is idle or waits for a SimGrid call to return. -/
def suspended (thread : Thread Actor Op) : Bool :=
  match thread.ops with
  | [] => true
  | op :: _ => op.blocking

/-- One step.  The other actors are suspended; an operation which dereferences
a destroyed object ends the simulation, as an abort does. -/
def step (sys : Sys) (s : State) (label : Label) : Option State :=
  if s.halted.isSome || !(s.threads.eraseIdx label.thread).all suspended then
    none
  else
    match s.threads[label.thread]? with
    | none => none
    | some thread =>
        (activate sys s thread label).map fun activation =>
          match activation.derefs.find? fun ptr => !s.live ptr with
          | some ptr => s.halt (.dangling ptr)
          | none =>
              { activation.segment.1 with
                threads := s.threads.set label.thread
                  { thread with
                    ops := activation.segment.2 ++
                      thread.ops.drop activation.consumed.length } }

/-- The initial state: every actor is idle and nothing has been allocated. -/
def initial (sys : Sys) : State :=
  { threads := sys.actors.map fun actor => { role := actor, ops := [] } }

/-- The states reached by the runs whose steps meet `allowed`. -/
def ReachedBy (sys : Sys) (allowed : State → Label → Prop) (s : State) :
    Prop :=
  Reached (step sys) allowed (initial sys) s

/-- The reachable states. -/
def Reachable (sys : Sys) (s : State) : Prop :=
  ReachedBy sys Anything s

end S4BXI
