import S4BXI.Nic.Target

/-!
# The TX side of the NIC, the E2E circuit and the API

`BxiNicInitiator`, `BxiNicE2E` and the calls of `BxiMainActor` which create
requests.
-/

namespace S4BXI

/-! ## NIC initiator -/

/-- The command slot which `handle_put` and `handle_get` give back. -/
def releaseCq (s : State) (msg : MsgId) : State :=
  let ni := (s.reqs (s.reqOf msg)).md.ni
  { s with
    cqs := if (s.msgs msg).type.isRequest then
        Function.update s.cqs ni (s.cqs ni + 1)
      else
        s.cqs }

/-- The switch of `BxiNicInitiator::operator()` up to its first SimGrid call.
-/
def transmit (s : State) (msg : MsgId) : List Op :=
  match (s.msgs msg).type with
  | .ptlPut | .ptlAtomic | .ptlFetchAtomic =>
      [.commInit msg, .handlePutEnd msg]
  | .ptlGet | .ptlAck | .e2eAck => [.commInit msg]
  | .ptlGetResponse | .ptlFetchAtomicResponse =>
      [.commInit msg, .handleResponseEnd msg]

/-- `BxiNicInitiator::operator()` with the message it got from its TX queue. -/
def processTx (sys : Sys) (self : Actor) (s : State) (msg : MsgId) :
    Segment :=
  match checkFlowctrl sys s self.nid msg with
  | (.granted, s) => (releaseCq s msg, transmit s msg)
  | (.refused, s) => (s.modNode self.nid fun node => node.park self.vn msg, [])
  | (.panicked reason, s) => (s.halt (.panic reason), [])

/-- `reliable_comm_init` after its sleep. -/
def commInit (sys : Sys) (self : Actor) (s : State) (msg : MsgId) : List Op :=
  if !(sys.node self.nid).e2eOff && (s.msgs msg).type ≠ .e2eAck then
    if (s.msgs msg).retryCount = 0 then
      [.acquireE2eEntry msg, .e2eEnqueue msg, .commStart msg]
    else
      [.e2eEnqueue msg, .commStart msg]
  else
    [.commStart msg]

/-- `BxiNode::acquire_e2e_entry`, blocked while no entry is left. -/
def acquireE2eEntry (self : Actor) (s : State) (msg : MsgId) :
    Option Segment :=
  if (s.nodes self.nid).e2eEntries ≤ 0 then
    none
  else
    some ((s.modNode self.nid fun node =>
      { node with e2eEntries := node.e2eEntries - 1 }).emit
        (.e2eAcquire self.nid (s.vnOf msg) (s.reqOf msg)), [])

/-- `BxiNicE2E::process_message` after `acquire_e2e_entry`. -/
def e2eEnqueue (self : Actor) (s : State) (msg : MsgId) : State :=
  (s.ref msg).modNode self.nid fun node =>
    { node with e2eQueue := node.e2eQueue ++ [msg] }

/-- The start of the communication to the RX mailbox of the target. -/
def commStart (self : Actor) (s : State) (msg : MsgId) : State :=
  let target := (s.msgs msg).target
  State.emit { s with
    rx := Function.update s.rx target
      (Function.update (s.rx target) self.vn
        (s.rx target self.vn ++ [msg])) } (.sent self.nid self.vn msg)

/-- The end of `BxiNicInitiator::handle_put`: a buffered put is complete. -/
def handlePutEnd (s : State) (msg : MsgId) : List Op :=
  if (s.msgs msg).simulatedSize ≤ 64 then
    [.maybeIssueSend (s.reqOf msg)]
  else
    []

/-- The end of `handle_get_response` and `handle_fetch_atomic_response`. -/
def handleResponseEnd (sys : Sys) (self : Actor) (s : State) (msg : MsgId) :
    List Op :=
  if (sys.node self.nid).e2eOff then
    if (s.msgs msg).type = .ptlGetResponse then
      [.maybeIssueGet (s.reqOf msg)]
    else
      [.maybeIssueFetchAtomic (s.reqOf msg)]
  else
    []

/-! ## E2E circuit -/

/-- The state from which on the E2E circuit ignores a message. -/
def ackedState (type : MsgType) : ProcessState :=
  if type = .ptlAck then .finished else .answered

/-- The copy put in the mailbox of `get_retransmit_mailbox`: the queue of the
NIC initiators when it is built on that mailbox. -/
def retransmit (sys : Sys) (self : Actor) (s : State) (msg : MsgId) : State :=
  let vn := s.vnOf msg
  let copy := s.nextMsg
  let s := s.modMsg msg fun m => { m with retryCount := m.retryCount + 1 }
  let s := s.newMsg (s.msgs msg).copy
  let s := s.modNode self.nid fun node =>
    { node with e2eRetried := node.e2eRetried + 1 }
  if sys.modelPciCommands self.nid then
    txPut s self.nid vn copy
  else
    s.modNode self.nid fun node =>
      { node with
        nicTxMailbox := Function.update node.nicTxMailbox vn
          (node.nicTxMailbox vn ++ [copy]) }

/-- `BxiNicE2E::operator()` after its sleep. -/
def e2eWake (sys : Sys) (self : Actor) (s : State) (msg : MsgId) : Segment :=
  let m := s.msgs msg
  if (s.reqs m.parentRequest).processState ≥ ackedState m.type then
    (s, [.unref msg])
  else if m.retryCount = sys.cfg.maxRetries then
    (s.modNode self.nid fun node =>
      { node with e2eGaveUp := node.e2eGaveUp + 1 }, [.unref msg])
  else if m.retryCount < sys.cfg.maxRetries then
    (retransmit sys self s msg, [.resched, .unref msg])
  else
    (s.halt (.panic .retryCount), [])

/-! ## API calls -/

/-- The arguments of `PtlPut`, `PtlGet`, `PtlAtomic` and `PtlFetchAtomic`.
`PtlSwap` builds the same request as `PtlFetchAtomic`. -/
structure Command where
  type : ReqType := .put
  md : BxiMD := {}
  localOffset : Size := 0
  length : Size := 0
  ackReq : AckReq := .noAckReq
  targetNid : Nid := 0
  targetPid : Pid := 0
  ptIndex : Nat := 0
  matchBits : MatchBits := 0
  remoteOffset : Size := 0
  userPtr : Nat := 0
  hdr : Nat := 0
  op : PtlOp := .sum
  datatype : PtlDatatype := .int8
  getMd : BxiMD := {}
  getLocalOffset : Size := 0

/-- The constructors of `BxiRequest` and its subclasses. -/
def newRequest (sys : Sys) (self : Actor) (cmd : Command) : BxiRequest :=
  { type := cmd.type
    payloadSize := cmd.length
    md := cmd.md
    matching := hasPtlOption (sys.ni cmd.md.ni).options NiOption.matching
    matchBits := cmd.matchBits
    targetNid := cmd.targetNid
    targetPid := cmd.targetPid
    ptIndex := cmd.ptIndex
    userPtr := cmd.userPtr
    serviceVn := self.vn.isService
    localOffset := cmd.localOffset
    remoteOffset := cmd.remoteOffset
    ackReq := match cmd.type with
      | .put | .atomic => cmd.ackReq
      | .get | .fetchAtomic => .noAckReq
    hdr := cmd.hdr
    op := cmd.op
    datatype := cmd.datatype
    getMd := cmd.getMd
    getLocalOffset := cmd.getLocalOffset }

/-- The message of a new request: a Get request weighs 64 bytes. -/
def newRequestMsg (self : Actor) (cmd : Command) (req : ReqId) : BxiMsg :=
  { initiator := self.nid
    target := cmd.targetNid
    type := cmd.type.msgType
    simulatedSize := if cmd.type = .get then 64 else cmd.length
    parentRequest := req
    refCount := 1 }

/-- `PtlPut`, `PtlGet`, `PtlAtomic` and `PtlFetchAtomic` up to
`cq->acquire()`. -/
def ptlRequest (sys : Sys) (self : Actor) (s : State) (cmd : Command) :
    State :=
  let created := { s with
    reqs := Function.update s.reqs s.nextReq (newRequest sys self cmd)
    nextReq := s.nextReq + 1 }
  created.newMsg (newRequestMsg self cmd s.nextReq)

/-- The rest of the call once `cq->acquire()` returns. -/
def cqAcquire (s : State) (ni : NiId) (msg : MsgId) :
    Option Segment :=
  if s.cqs ni ≤ 0 then
    none
  else
    some ({ s with cqs := Function.update s.cqs ni (s.cqs ni - 1) },
      [.txPut msg])

/-- The API calls of a user application. -/
inductive Call where
  | niInit (ni : NiId)
  | ptAlloc (ni : NiId) (index : Nat) (eq : Option EqId)
  | ptEnable (ni : NiId) (index : Nat)
  | ptDisable (ni : NiId) (index : Nat)
  | ptFree (ni : NiId) (index : Nat)
  | meAppend (ni : NiId) (index : Nat) (me : PtlMe) (list : PtlList)
      (userPtr : Nat)
  | meUnlink (me : MeId)
  | request (cmd : Command)

/-- `PtlNIInit`: the PID must be free on the node. -/
def niInit (sys : Sys) (self : Actor) (s : State) (ni : NiId) : State :=
  if (s.nodes self.nid).niHandles.any fun other =>
      (sys.ni other).pid == (sys.ni ni).pid then
    s.halt (.panic .pidInUse)
  else
    s.modNode self.nid fun node =>
      { node with niHandles := node.niHandles ++ [ni] }

/-- `BxiPT::alloc`: an index in use keeps its entry, as `map::insert` does. -/
def ptAlloc (s : State) (ni : NiId) (index : Nat) (eq : Option EqId) :
    State :=
  match s.ptIndexes ni index with
  | some _ => s
  | none =>
      { s with
        pts := Function.update s.pts s.nextPt
          { eq := eq, ni := ni, index := index }
        nextPt := s.nextPt + 1
        ptIndexes := Function.update s.ptIndexes ni
          (Function.update (s.ptIndexes ni) index (some s.nextPt)) }

/-- The interfaces whose handles a call uses, directly or through an entry or
a descriptor bound on them. -/
def Call.interfaces (s : State) : Call → List NiId
  | .niInit ni | .ptAlloc ni _ _ | .ptEnable ni _ | .ptDisable ni _
  | .ptFree ni _ | .meAppend ni _ _ _ _ => [ni]
  | .meUnlink me => [(s.pts (s.mes me).pt).ni]
  | .request cmd =>
      if cmd.type = .fetchAtomic then [cmd.md.ni, cmd.getMd.ni]
      else [cmd.md.ni]

/-- A process uses the handles it obtained itself, on its own node. -/
def Call.ownedBy (sys : Sys) (self : Actor) (process : ThreadId) (s : State)
    (call : Call) : Bool :=
  (call.interfaces s).all fun ni =>
    (sys.ni ni).process == process && (sys.ni ni).node == self.nid

/-- The first segment of an API call.  A call with an index which is not
allocated does not return, `map::at` throwing an exception. -/
def apiCall (sys : Sys) (self : Actor) (s : State) : Call → Option Segment
  | .niInit ni => some (niInit sys self s ni, [])
  | .ptAlloc ni index eq => some (ptAlloc s ni index eq, [])
  | .ptEnable ni index => (s.ptIndexes ni index).map fun pt =>
      (s.modPt pt fun p => { p with enabled := true }, [])
  | .ptDisable ni index => (s.ptIndexes ni index).map fun pt =>
      (s.modPt pt fun p => { p with enabled := false }, [])
  | .ptFree ni index => (s.ptIndexes ni index).map fun pt =>
      (ptFree s ni index pt, [])
  | .meAppend ni index me list userPtr => (s.ptIndexes ni index).map fun pt =>
      append s pt me list userPtr
  | .meUnlink me => some (ptlMEUnlink s me, [])
  | .request cmd =>
      some (ptlRequest sys self s cmd, [.cqAcquire cmd.md.ni s.nextMsg])

end S4BXI
