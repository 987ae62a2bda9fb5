import S4BXI.Nic.State

/-!
# `BxiNode`: events, queues and flow control

The member functions of `BxiNode` which the actors of a node share.  The node
and process levels of flow control are two instances of the same counter.
-/

namespace S4BXI

/-- The answer of `check_flowctrl`. -/
inductive Grant where
  | granted
  | refused
  | panicked (reason : Panic)
  deriving DecidableEq

/-- One level of `check_flowctrl`: the counter is created with `maxInflight`
credits at its first use. -/
def checkLevel (maxInflight : Int) (negative : Panic) (count : Option Int) :
    Grant × Option Int :=
  if maxInflight = 0 then
    (.granted, count)
  else
    let credits := count.getD maxInflight
    (if credits < 0 then .panicked negative
      else if credits = 0 then .refused
      else .granted, some credits)

/-- One level of the debit at the end of `check_flowctrl`. -/
def debitLevel (maxInflight : Int) (count : Option Int) : Option Int :=
  if maxInflight = 0 then count else count.map fun credits => credits - 1

/-- One level of `release_e2e_entry`. -/
def releaseLevel (maxInflight : Int) (missing capacity : Panic)
    (count : Option Int) : Option Panic × Option Int :=
  if maxInflight = 0 then
    (none, count)
  else
    match count with
    | none => (some missing, none)
    | some credits =>
        (if credits + 1 ≤ maxInflight then none else some capacity,
          some (credits + 1))

namespace BxiNode

def setNodeCount (node : BxiNode) (vn : Vn) (target : Nid)
    (count : Option Int) : BxiNode :=
  { node with
    flowctrlNodeCounts := Function.update node.flowctrlNodeCounts vn
      (Function.update (node.flowctrlNodeCounts vn) target count) }

def setProcessCount (node : BxiNode) (vn : Vn) (key : FlowctrlProcessId)
    (count : Option Int) : BxiNode :=
  { node with
    flowctrlProcessCounts := Function.update node.flowctrlProcessCounts vn
      (Function.update (node.flowctrlProcessCounts vn) key count) }

/-- `check_flowctrl` for a message which is subject to flow control. -/
def checkCredits (cfg : Config) (node : BxiNode) (vn : Vn)
    (key : FlowctrlProcessId) : Grant × BxiNode :=
  let nodeLevel := checkLevel cfg.maxInflightToTarget .negativeNodeCredits
    (node.flowctrlNodeCounts vn key.dstNid)
  let node := node.setNodeCount vn key.dstNid nodeLevel.2
  match nodeLevel.1 with
  | .granted =>
      let processLevel := checkLevel cfg.maxInflightToProcess
        .negativeProcessCredits (node.flowctrlProcessCounts vn key)
      let node := node.setProcessCount vn key processLevel.2
      match processLevel.1 with
      | .granted =>
          (.granted,
            (node.setNodeCount vn key.dstNid
              (debitLevel cfg.maxInflightToTarget nodeLevel.2)).setProcessCount
              vn key (debitLevel cfg.maxInflightToProcess processLevel.2))
      | answer => (answer, node)
  | answer => (answer, node)

/-- The counters part of `release_e2e_entry`. -/
def releaseCredits (cfg : Config) (node : BxiNode) (vn : Vn)
    (key : FlowctrlProcessId) : Option Panic × BxiNode :=
  let nodeLevel := releaseLevel cfg.maxInflightToTarget .missingNodeCounter
    .nodeCapacity (node.flowctrlNodeCounts vn key.dstNid)
  let node := node.setNodeCount vn key.dstNid nodeLevel.2
  match nodeLevel.1 with
  | some reason => (some reason, node)
  | none =>
      let processLevel := releaseLevel cfg.maxInflightToProcess
        .missingProcessCounter .processCapacity
        (node.flowctrlProcessCounts vn key)
      (processLevel.1, node.setProcessCount vn key processLevel.2)

def pushTx (node : BxiNode) (vn : Vn) (msg : MsgId) : BxiNode :=
  { node with
    txQueues := Function.update node.txQueues vn (node.txQueues vn ++ [msg]) }

def popTx (node : BxiNode) (vn : Vn) : BxiNode :=
  { node with
    txQueues := Function.update node.txQueues vn (node.txQueues vn).tail }

/-- The parking of a refused message by `BxiNicInitiator::operator()`. -/
def park (node : BxiNode) (vn : Vn) (msg : MsgId) : BxiNode :=
  if msg ∈ node.flowctrlWaitingMessages vn then
    node
  else
    { node with
      flowctrlWaitingMessages :=
        Function.update node.flowctrlWaitingMessages vn
          (node.flowctrlWaitingMessages vn ++ [msg]) }

def popWaiting (node : BxiNode) (vn : Vn) : BxiNode :=
  { node with
    flowctrlWaitingMessages :=
      Function.update node.flowctrlWaitingMessages vn
        (node.flowctrlWaitingMessages vn).tail }

end BxiNode

/-- The flow-control key of a message, as computed by `check_flowctrl` and by
the callers of `release_e2e_entry`. -/
def flowctrlKey (sys : Sys) (s : State) (msg : MsgId) : FlowctrlProcessId :=
  let req := s.reqs (s.reqOf msg)
  let source := sys.mdPid req.md
  if (s.vnOf msg).isRequest then
    ⟨source, req.targetPid, (s.msgs msg).target⟩
  else
    ⟨req.targetPid, source, (s.msgs msg).target⟩

/-- The early return of `check_flowctrl`. -/
def exemptFromFlowctrl (sys : Sys) (s : State) (nid : Nid) (msg : MsgId) :
    Bool :=
  (sys.node nid).e2eOff || (s.msgs msg).type == .e2eAck ||
    (s.msgs msg).retryCount != 0

/-- `BxiNode::check_flowctrl`. -/
def checkFlowctrl (sys : Sys) (s : State) (nid : Nid) (msg : MsgId) :
    Grant × State :=
  if exemptFromFlowctrl sys s nid msg then
    (.granted, s)
  else
    let key := flowctrlKey sys s msg
    let checked := (s.nodes nid).checkCredits sys.cfg (s.vnOf msg) key
    let after := s.modNode nid fun _ => checked.2
    match checked.1 with
    | .granted =>
        (.granted, after.emit (.debit nid (s.vnOf msg) key (s.reqOf msg)))
    | answer => (answer, after)

/-- `BxiNode::issue_event`: nothing happens without an event queue. -/
def issueEvent (eq : Option EqId) (event : Event) (origin : Origin) :
    List Op :=
  match eq with
  | none => []
  | some queue => [.putEvent queue event origin]

/-- `BxiNode::resume_waiting_tx_actors` up to its `put`. -/
def resumeLoop (s : State) (nid : Nid) (vn : Vn) : Segment :=
  match (s.nodes nid).flowctrlWaitingMessages vn with
  | [] => (s, [])
  | msg :: _ =>
      (s.modNode nid fun node => node.pushTx vn msg, [.resumePop nid vn])

/-- `BxiNode::resume_waiting_tx_actors` after its `put`. -/
def resumePop (s : State) (nid : Nid) (vn : Vn) : Segment :=
  match (s.nodes nid).flowctrlWaitingMessages vn with
  | [] => (s.halt (.emptyDeque nid vn), [])
  | _ :: _ =>
      (s.modNode nid fun node => node.popWaiting vn, [.resumeLoop nid vn])

/-- `BxiNode::release_e2e_entry` up to `e2e_entries->release()`.  `req` only
labels the effects. -/
def releaseE2eEntry (sys : Sys) (s : State) (nid : Nid) (vn : Vn)
    (key : FlowctrlProcessId) (req : ReqId) : Segment :=
  if (sys.node nid).e2eOff then
    (s, [])
  else
    ((s.modNode nid fun node =>
        { node with e2eEntries := node.e2eEntries + 1 }).emit
        (.e2eRelease nid vn req),
      [.releaseCounts nid vn key req])

/-- `BxiNode::release_e2e_entry` after `e2e_entries->release()`. -/
def releaseCounts (sys : Sys) (s : State) (nid : Nid) (vn : Vn)
    (key : FlowctrlProcessId) (req : ReqId) : Segment :=
  let released := (s.nodes nid).releaseCredits sys.cfg vn key
  let s := (s.modNode nid fun _ => released.2).emit (.credit nid vn key req)
  match released.1 with
  | some reason => (s.halt (.panic reason), [])
  | none =>
      (s, if sys.cfg.maxInflightToProcess ≠ 0 ||
          sys.cfg.maxInflightToTarget ≠ 0 then [.resumeLoop nid vn] else [])

/-- `BxiQueue::put` on a TX queue of the node. -/
def txPut (s : State) (nid : Nid) (vn : Vn) (msg : MsgId) : State :=
  (s.modNode nid fun node => node.pushTx vn msg).emit (.submitted nid vn msg)

end S4BXI
