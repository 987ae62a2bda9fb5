import S4BXI.Lib.Threads
import S4BXI.Portals.Entry

/-!
# The state of a simulation

The objects of all nodes, the RX mailboxes of the NICs and the actors.  SimGrid
actors are cooperative: an actor runs alone until its next SimGrid call, at
which any other actor may run.  What an actor still has to do is a stack of
operations; those which start when a SimGrid call returns are `blocking`.
`log` records the effects the properties are about.
-/

namespace S4BXI

open Lib

/-- The actors of a deployment. -/
inductive ActorKind where
  | nicTarget | nicInitiator | nicE2e | userApp
  deriving DecidableEq, Repr

/-- An actor with its node and its VN: the `VN` property of a NIC actor, the
request network selected by `service_mode` for a user application. -/
structure Actor where
  kind : ActorKind
  nid : Nid
  vn : Vn
  deriving DecidableEq

/-- The network of the queue in which the actor puts messages: a NIC target
always answers on a response network. -/
def Actor.txVn (self : Actor) : Vn :=
  if self.kind = .nicTarget then .response self.vn.isService else self.vn

/-- What an event is about: a request, a header consumed by an appended entry
for the `*_OVERFLOW` events, or an entry for the `LINK` and `AUTO_UNLINK`
events. -/
inductive Origin where
  | request (req : ReqId)
  | header (msg : MsgId) (me : MeId)
  | entry (me : MeId)
  deriving DecidableEq

/-- A call of `apply_atomic_op`.  `cst` is `none` for the address of the `cst`
field of the request itself. -/
structure AtomicCall where
  op : PtlOp
  datatype : PtlDatatype
  me : Addr
  cst : Option Addr
  rx : Addr
  tx : Addr
  len : Size
  deriving DecidableEq

/-- The effects recorded in the log. -/
inductive Obs where
  | consumed (req : ReqId) (msg : MsgId) (pt : PtId) (list : PtlList)
      (me : MeId)
  | overflow (req : ReqId) (msg : MsgId) (pt : PtId) (me : MeId)
  | memcpy (req : ReqId) (dest src : Addr) (count : Size)
  | atomicOp (req : ReqId) (call : AtomicCall)
  | meCounter (req : ReqId) (ct : CtId) (amount : Size)
  | mdCounter (req : ReqId) (ct : CtId) (amount : Size)
  | event (eq : EqId) (event : Event) (origin : Origin)
  | answered (req : ReqId)
  | submitted (nid : Nid) (vn : Vn) (msg : MsgId)
  | sent (nid : Nid) (vn : Vn) (msg : MsgId)
  | debit (nid : Nid) (vn : Vn) (key : FlowctrlProcessId) (req : ReqId)
  | credit (nid : Nid) (vn : Vn) (key : FlowctrlProcessId) (req : ReqId)
  | e2eAcquire (nid : Nid) (vn : Vn) (req : ReqId)
  | e2eRelease (nid : Nid) (vn : Vn) (req : ReqId)
  deriving DecidableEq

/-- The `ptl_panic`s and failed assertions of the modelled functions. -/
inductive Panic where
  | negativeNodeCredits | negativeProcessCredits
  | missingNodeCounter | missingProcessCounter
  | nodeCapacity | processCapacity
  | ackWithoutAnswer | retryCount | nullCopy | pidInUse
  deriving DecidableEq, Repr

/-- A pointer which a segment dereferences. -/
inductive Ptr where
  | msg (msg : MsgId)
  | req (req : ReqId)
  | me (me : MeId)
  deriving DecidableEq

/-- Why a simulation stopped: an abort, or undefined behaviour of the program.
-/
inductive Halt where
  | panic (reason : Panic)
  | dangling (ptr : Ptr)
  | notLinked (me : MeId)
  | emptyDeque (nid : Nid) (vn : Vn)
  | noMatchedMe (req : ReqId)
  deriving DecidableEq

/-- What an actor still has to do: the calls it has not made yet and the points
at which it resumes. -/
inductive Op where
  /-- Back from a SimGrid call, with nothing left to do for it. -/
  | resched
  /-- The `put` of `BxiNode::issue_event`, after the PCI transfer. -/
  | putEvent (eq : EqId) (event : Event) (origin : Origin)
  /-- A call of `BxiMD::increment_ct`. -/
  | mdIncrementCt (req : ReqId) (ct : CtId) (amount : Size)
  /-- A call of `BxiME::increment_ct`. -/
  | meIncrementCt (req : ReqId) (ct : CtId) (amount : Size)
  /-- A call of `BxiNode::release_e2e_entry`. -/
  | releaseE2eEntry (nid : Nid) (vn : Vn) (key : FlowctrlProcessId)
      (req : ReqId)
  /-- `BxiNode::release_e2e_entry` after `e2e_entries->release()`. -/
  | releaseCounts (nid : Nid) (vn : Vn) (key : FlowctrlProcessId)
      (req : ReqId)
  /-- The loop of `BxiNode::resume_waiting_tx_actors`. -/
  | resumeLoop (nid : Nid) (vn : Vn)
  /-- `BxiNode::resume_waiting_tx_actors` after its `put`. -/
  | resumePop (nid : Nid) (vn : Vn)
  /-- A call of `BxiPutRequest::maybe_issue_send`. -/
  | maybeIssueSend (req : ReqId)
  /-- `BxiPutRequest::maybe_issue_send` after the counter update. -/
  | sendEvent (req : ReqId)
  /-- `BxiPutRequest::issue_ack` after the counter update. -/
  | ackEvent (req : ReqId) (fail : NiFailType)
  /-- A call of `BxiNicActor::maybe_issue_get`. -/
  | maybeIssueGet (req : ReqId)
  /-- A call of `BxiNicActor::maybe_issue_fetch_atomic`. -/
  | maybeIssueFetchAtomic (req : ReqId)
  /-- The dispatch of `BxiNicTarget::operator()`. -/
  | handle (msg : MsgId)
  /-- A call of `BxiNicTarget::send_ack`. -/
  | sendAck (msg : MsgId) (type : MsgType) (fail : NiFailType)
  /-- `handle_put_request` after the counter update. -/
  | putFinish (msg : MsgId) (me : MeId) (fail : NiFailType)
  /-- `handle_get_request` after the counter update. -/
  | getFinish (msg : MsgId) (me : MeId) (response : MsgId)
  /-- `handle_atomic_request` after the counter update. -/
  | atomicFinish (msg : MsgId) (me : MeId) (fail : NiFailType)
  /-- `handle_atomic_request` after `send_ack`. -/
  | atomicEvents (msg : MsgId) (me : MeId)
  /-- `handle_fetch_atomic_request` after the counter update. -/
  | fetchAtomicFinish (msg : MsgId) (me : MeId) (response : MsgId)
  /-- The test of `needs_unlink` which ends the target handlers. -/
  | deferredUnlink (me : MeId)
  /-- A call of `tx_queue->put`. -/
  | txPut (msg : MsgId)
  /-- `handle_response` after the release of the entry. -/
  | responseRest (msg : MsgId)
  /-- The BXI ACK of `handle_response` and `handle_ptl_ack`. -/
  | sendBxiAck (msg : MsgId) (md : BxiMD)
  /-- The event of `handle_response`, after the counter update. -/
  | replyEvent (msg : MsgId)
  /-- `handle_ptl_ack` after the BXI ACK was queued. -/
  | ptlAckTail (msg : MsgId)
  /-- `handle_bxi_ack` after the release of the entry. -/
  | bxiAckTail (msg : MsgId)
  /-- A call of `BxiMsg::unref`. -/
  | unref (msg : MsgId)
  /-- `BxiNicInitiator::operator()` with the message it got. -/
  | processTx (msg : MsgId)
  /-- `reliable_comm_init` after its sleep. -/
  | commInit (msg : MsgId)
  /-- `process_message` blocked in `acquire_e2e_entry`. -/
  | acquireE2eEntry (msg : MsgId)
  /-- `process_message` after `acquire_e2e_entry`. -/
  | e2eEnqueue (msg : MsgId)
  /-- The start of the communication built by `reliable_comm_init`. -/
  | commStart (msg : MsgId)
  /-- `handle_put` of the NIC initiator after its last sleep. -/
  | handlePutEnd (msg : MsgId)
  /-- `handle_get_response` and `handle_fetch_atomic_response` after
  `handle_response`. -/
  | handleResponseEnd (msg : MsgId)
  /-- `BxiNicE2E::operator()` after its sleep. -/
  | e2eWake (msg : MsgId)
  /-- An API call blocked in `cq->acquire()`. -/
  | cqAcquire (ni : NiId) (msg : MsgId)
  /-- `walk_through_UHs` resuming its scan at `index`. -/
  | walkThroughUHs (me : MeId) (index : Nat)
  /-- `BxiME::append` after a header was consumed by a `USE_ONCE` entry. -/
  | appendConsumed (me : MeId)

/-- Whether the operation starts when a SimGrid call returns.  The actor goes on
with any other operation at once. -/
def Op.blocking : Op → Bool
  | .resched | .putEvent _ _ _ | .releaseCounts _ _ _ _ | .resumePop _ _
  | .commInit _ | .acquireE2eEntry _ | .commStart _ | .handlePutEnd _
  | .handleResponseEnd _ | .e2eWake _ | .cqAcquire _ _ => true
  | _ => false

/-- The state of the whole simulation. -/
structure State where
  reqs : ReqId → BxiRequest := fun _ => {}
  nextReq : ReqId := 0
  msgs : MsgId → BxiMsg := fun _ => {}
  nextMsg : MsgId := 0
  mes : MeId → BxiME := fun _ => {}
  nextMe : MeId := 0
  pts : PtId → BxiPT := fun _ => {}
  nextPt : PtId := 0
  ptIndexes : NiId → Nat → Option PtId := fun _ _ => none
  cqs : NiId → Int := fun _ => cqInitialCapacity
  nodes : Nid → BxiNode := fun _ => {}
  rx : Nid → Vn → List MsgId := fun _ _ => []
  threads : List (Thread Actor Op) := []
  log : List Obs := []
  halted : Option Halt := none

/-- The constants of a simulation: configuration, node parameters, interfaces
and actors. -/
structure Sys where
  cfg : Config := {}
  node : Nid → NodeParams := fun _ => {}
  ni : NiId → BxiNI := fun _ => {}
  actors : List Actor := []

namespace Sys

/-- `S4BXI_CONFIG_AND(node, use_real_memory)`. -/
def useRealMemory (sys : Sys) (nid : Nid) : Bool :=
  (sys.node nid).useRealMemory && sys.cfg.useRealMemory

/-- `S4BXI_CONFIG_AND(node, model_pci)`. -/
def modelPci (sys : Sys) (nid : Nid) : Bool :=
  (sys.node nid).modelPci && sys.cfg.modelPci

/-- `S4BXI_CONFIG_AND(node, model_pci_commands)`. -/
def modelPciCommands (sys : Sys) (nid : Nid) : Bool :=
  (sys.node nid).modelPciCommands && sys.cfg.modelPciCommands

/-- `S4BXI_CONFIG_OR(node, e2e_off)`. -/
def e2eOff (sys : Sys) (nid : Nid) : Bool :=
  (sys.node nid).e2eOff || sys.cfg.e2eOff

/-- The node of the interface on which a descriptor was bound. -/
def mdNid (sys : Sys) (md : BxiMD) : Nid := (sys.ni md.ni).node

/-- The PID of the interface on which a descriptor was bound. -/
def mdPid (sys : Sys) (md : BxiMD) : Pid := (sys.ni md.ni).pid

end Sys

/-- What an actor leaves behind: the state and the operations it still has to
perform before the ones already pending. -/
abbrev Segment := State × List Op

namespace State

def modReq (s : State) (req : ReqId) (f : BxiRequest → BxiRequest) : State :=
  { s with reqs := Function.update s.reqs req (f (s.reqs req)) }

def modMsg (s : State) (msg : MsgId) (f : BxiMsg → BxiMsg) : State :=
  { s with msgs := Function.update s.msgs msg (f (s.msgs msg)) }

def modMe (s : State) (me : MeId) (f : BxiME → BxiME) : State :=
  { s with mes := Function.update s.mes me (f (s.mes me)) }

def modPt (s : State) (pt : PtId) (f : BxiPT → BxiPT) : State :=
  { s with pts := Function.update s.pts pt (f (s.pts pt)) }

def modNode (s : State) (nid : Nid) (f : BxiNode → BxiNode) : State :=
  { s with nodes := Function.update s.nodes nid (f (s.nodes nid)) }

def emit (s : State) (obs : Obs) : State :=
  { s with log := s.log ++ [obs] }

def halt (s : State) (reason : Halt) : State :=
  { s with halted := some reason }

/-- The request of a message. -/
def reqOf (s : State) (msg : MsgId) : ReqId := (s.msgs msg).parentRequest

/-- `BxiMsg::get_vn`. -/
def vnOf (s : State) (msg : MsgId) : Vn :=
  (s.msgs msg).getVn (s.reqs (s.reqOf msg)).serviceVn

/-- Whether a pointer may be dereferenced. -/
def live (s : State) : Ptr → Bool
  | .msg msg => (s.msgs msg).live && decide (msg < s.nextMsg)
  | .req req => (s.reqs req).live && decide (req < s.nextReq)
  | .me me => (s.mes me).live && decide (me < s.nextMe)

/-- The allocation of a message, which counts in its request. -/
def newMsg (s : State) (msg : BxiMsg) : State :=
  { s with
    msgs := Function.update s.msgs s.nextMsg msg
    nextMsg := s.nextMsg + 1
    reqs := Function.update s.reqs msg.parentRequest
      { s.reqs msg.parentRequest with
        msgRefCount := (s.reqs msg.parentRequest).msgRefCount + 1 } }

/-- A new holder of a message. -/
def ref (s : State) (msg : MsgId) : State :=
  s.modMsg msg fun m => { m with refCount := m.refCount + 1 }

/-- The end of the destructor of `BxiMsg`: the request is destroyed with its
last message. -/
def dropRequestRef (s : State) (req : ReqId) : State :=
  if !s.live (.req req) then
    s.halt (.dangling (.req req))
  else
    s.modReq req fun r =>
      { r with
        msgRefCount := r.msgRefCount - 1
        live := decide (r.msgRefCount ≠ 1) }

/-- `BxiMsg::~BxiMsg`, given `unref` for the message it answers. -/
def destroyMsg (unref : State → MsgId → State) (s : State) (msg : MsgId) :
    State :=
  let s := s.modMsg msg fun m => { m with live := false }
  let s := match (s.msgs msg).answersMsg with
    | some answered => unref s answered
    | none => s
  s.dropRequestRef (s.reqOf msg)

/-- `BxiMsg::unref`.  A message answers only messages allocated before it, so
its identifier bounds the recursion through the destructor. -/
def unrefWithin : Nat → State → MsgId → State
  | 0, s, _ => s
  | fuel + 1, s, msg =>
      if !s.live (.msg msg) then
        s.halt (.dangling (.msg msg))
      else
        let count := (s.msgs msg).refCount
        let s := s.modMsg msg fun m => { m with refCount := m.refCount - 1 }
        if count = 1 then destroyMsg (unrefWithin fuel) s msg else s

def unref (s : State) (msg : MsgId) : State :=
  unrefWithin (msg + 1) s msg

/-- The plain `delete` of a message in `BxiPT::free`. -/
def deleteMsg (s : State) (msg : MsgId) : State :=
  if !s.live (.msg msg) then
    s.halt (.dangling (.msg msg))
  else
    destroyMsg unref s msg

end State

end S4BXI
