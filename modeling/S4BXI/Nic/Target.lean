import S4BXI.Nic.Matching

/-!
# The RX side of the NIC

The handlers of `BxiNicTarget`, cut at their SimGrid calls.  Every handler is a
first segment, run when the message is taken from the RX mailbox, followed by
the segments of `Op` it leaves pending.
-/

namespace S4BXI

/-! ## Events and counters of a request -/

/-- The calls of `BxiMD::increment_ct` for one of the `PTL_MD_EVENT_CT_*`
flags. -/
def mdCounter (s : State) (req : ReqId) (md : BxiMD) (flag : Options) :
    List Op :=
  match md.counts flag with
  | none => []
  | some ct => [.mdIncrementCt req ct (md.ctAmount (s.reqs req).payloadSize)]

/-- The calls of `BxiME::increment_ct` under `PTL_ME_EVENT_CT_COMM`. -/
def meCounter (s : State) (req : ReqId) (me : BxiME) : List Op :=
  match me.countsComm with
  | none => []
  | some ct => [.meIncrementCt req ct (me.ctAmount (s.reqs req).payloadSize)]

/-- `BxiPutRequest::maybe_issue_send` up to its event. -/
def maybeIssueSend (s : State) (req : ReqId) : Segment :=
  if (s.reqs req).sendEventIssued then
    (s, [])
  else
    (s.modReq req fun r => { r with sendEventIssued := true },
      mdCounter s req (s.reqs req).md MdOption.eventCtSend ++ [.sendEvent req])

/-- The `SEND` event of `maybe_issue_send`, unless disabled. -/
def sendEvent (s : State) (req : ReqId) : List Op :=
  let r := s.reqs req
  if !r.md.hasOption MdOption.eventSendDisable &&
      !r.md.hasOption MdOption.eventSuccessDisable then
    issueEvent r.md.eqHandle
      { type := .send
        niFailType := .ok
        userPtr := some r.userPtr
        mlength := some r.payloadSize } (.request req)
  else
    []

/-- `BxiPutRequest::issue_ack` up to its event. -/
def issueAck (s : State) (req : ReqId) (fail : NiFailType) : List Op :=
  mdCounter s req (s.reqs req).md MdOption.eventCtAck ++ [.ackEvent req fail]

/-- The `ACK` event of `issue_ack`. -/
def ackEvent (s : State) (req : ReqId) (fail : NiFailType) : List Op :=
  let r := s.reqs req
  if r.ackReq = .ackReq then
    issueEvent r.md.eqHandle
      { type := .ack
        niFailType := fail
        userPtr := some r.userPtr
        mlength := some r.mlength
        remoteOffset := some r.targetRemoteOffset } (.request req)
  else
    []

/-- The `GET` or `FETCH_ATOMIC` event, built from the copy of the matched
entry. -/
def fetchEvent (sys : Sys) (s : State) (kind : EventKind) (hdr : Option Nat)
    (req : BxiRequest) (matched : BxiME) : Event :=
  { type := kind
    initiator := some (sys.mdNid req.md, sys.mdPid req.md)
    niFailType := .ok
    ptIndex := some (s.pts matched.pt).index
    userPtr := some matched.userPtr
    hdrData := hdr
    rlength := some req.payloadSize
    mlength := some req.mlength
    remoteOffset := some req.remoteOffset
    matchBits := some req.matchBits
    start := some req.start }

/-- The event part shared by `maybe_issue_get` and
`maybe_issue_fetch_atomic`. -/
def issueFetchEvent (sys : Sys) (s : State) (req : ReqId) (kind : EventKind)
    (hdr : Option Nat) : List Op :=
  match (s.reqs req).matchedMe with
  | none => []
  | some matched =>
      if matched.reportsComm then
        issueEvent (s.pts matched.pt).eq
          (fetchEvent sys s kind hdr (s.reqs req) matched) (.request req)
      else
        []

/-- `BxiNicActor::maybe_issue_get`. -/
def maybeIssueGet (sys : Sys) (s : State) (req : ReqId) : Segment :=
  if (s.reqs req).getEventIssued then
    (s, [])
  else
    (s.modReq req fun r => { r with getEventIssued := true },
      issueFetchEvent sys s req .get none)

/-- `BxiNicActor::maybe_issue_fetch_atomic`. -/
def maybeIssueFetchAtomic (sys : Sys) (s : State) (req : ReqId) : Segment :=
  if (s.reqs req).fetchAtomicEventIssued then
    (s, [])
  else
    (s.modReq req fun r => { r with fetchAtomicEventIssued := true },
      issueFetchEvent sys s req .fetchAtomic (some (s.reqs req).hdr))

/-! ## Memory -/

/-- The number of bytes copied by `BxiNicTarget::capped_memcpy`; `max_memcpy`
is compared as an unsigned number. -/
def cappedCount (cfg : Config) (count : Size) : Size :=
  if cfg.maxMemcpy = -1 then
    count
  else if (cfg.maxMemcpy % 2 ^ 64).toNat < count then
    (cfg.maxMemcpy % 2 ^ 64).toNat
  else
    count

/-- `BxiNicTarget::capped_memcpy`. -/
def cappedMemcpy (sys : Sys) (s : State) (req : ReqId) (dest src : Addr)
    (count : Size) : State :=
  let toCopy := cappedCount sys.cfg count
  if toCopy ≠ 0 && (dest == 0 || src == 0) then
    s.halt (.panic .nullCopy)
  else
    s.emit (.memcpy req dest src toCopy)

/-- `BxiFetchAtomicRequest::is_swap_request`. -/
def PtlOp.isSwap : PtlOp → Bool
  | .swap | .cswap | .cswapNe | .cswapLe | .cswapLt | .cswapGe | .cswapGt
  | .mswap => true
  | .min | .max | .sum | .prod | .lor | .land | .lxor | .bor | .band
  | .bxor => false

/-! ## Requests -/

/-- What all four request handlers do first with a matched entry.  `copied`
tells whether the request keeps a copy of the entry. -/
def receive (s : State) (msg : MsgId) (me : MeId) (copied : Bool) : State :=
  let req := s.reqOf msg
  let entry := { s.mes me with inUse := true }
  let r := s.reqs req
  { s with
    mes := Function.update s.mes me (entry.advanceOffset r)
    reqs := Function.update s.reqs req
      { r with
        processState := .received
        matchedMe := if copied then some entry.copy else r.matchedMe
        mlength := entry.getMlength r
        start := entry.getOffsettedAddr r
        targetRemoteOffset := entry.offsetInTarget r } }

/-- The sleep which models a PCI transfer of the payload. -/
def pciSleep (sys : Sys) (s : State) (nid : Nid) (msg : MsgId) : List Op :=
  if sys.modelPci nid && (s.msgs msg).simulatedSize ≠ 0 then [.resched] else []

/-- The acknowledgement built by `send_ack`. -/
def newAck (s : State) (msg : MsgId) (type : MsgType) (fail : NiFailType) :
    State :=
  let m := s.msgs msg
  (s.newMsg
    { m.copy with
      type := type
      initiator := m.target
      target := m.initiator
      simulatedSize := ackSize
      retryCount := 0
      niFailType := fail
      answersMsg := some msg }).ref msg

/-- `BxiNicTarget::send_ack`. -/
def sendAck (sys : Sys) (self : Actor) (s : State) (msg : MsgId)
    (type : MsgType) (fail : NiFailType) : Segment :=
  let req := s.reqOf msg
  let r := s.reqs req
  if sys.cfg.quickAcks then
    ((s.modReq req fun r => { r with processState := .finished }).emit
        (.answered req),
      .releaseE2eEntry (sys.mdNid r.md) (s.vnOf msg)
          ⟨sys.mdPid r.md, r.targetPid, self.nid⟩ req ::
        .maybeIssueSend req :: issueAck s req fail)
  else
    (newAck s msg type fail, [.txPut s.nextMsg])

/-- The acknowledgement due for a matched request. -/
def ackDue (sys : Sys) (s : State) (req : ReqId) (me : BxiME) :
    Option MsgType :=
  let r := s.reqs req
  if !me.hasOption MeOption.ackDisable && r.ackReq ≠ .noAckReq then
    some .ptlAck
  else if !sys.e2eOff (sys.mdNid r.md) then
    some .e2eAck
  else
    none

/-- The call of `send_ack` for an acknowledgement which may be due. -/
def sendDue (msg : MsgId) (fail : NiFailType) : Option MsgType → List Op
  | none => []
  | some type => [.sendAck msg type fail]

/-- The `PUT` or `ATOMIC` event. -/
def putLikeEvent (sys : Sys) (s : State) (kind : EventKind) (me : BxiME)
    (req : BxiRequest) : Event :=
  { type := kind
    initiator := some (sys.mdNid req.md, sys.mdPid req.md)
    niFailType := .ok
    ptIndex := some (s.pts me.pt).index
    userPtr := some me.userPtr
    hdrData := some req.hdr
    rlength := some req.payloadSize
    mlength := some req.mlength
    remoteOffset := some req.remoteOffset
    matchBits := some req.matchBits
    start := some req.start }

/-- The event of `put_like_req_ev_processing`. -/
def issuePutLike (sys : Sys) (s : State) (kind : EventKind) (me : BxiME)
    (req : ReqId) : List Op :=
  if me.reportsComm then
    issueEvent (s.pts me.pt).eq (putLikeEvent sys s kind me (s.reqs req))
      (.request req)
  else
    []

/-- A handler has finished with an entry. -/
def State.leaveMe (s : State) (me : MeId) : State :=
  s.modMe me fun m => { m with inUse := false }

/-- How the handlers leave an entry: `maybe_auto_unlink`, the event `reported`
and, for an entry which was not auto-unlinked, the test of `needs_unlink`. -/
def leaveEntry (s : State) (me : MeId) (reported : List Op) : Segment :=
  let s := s.leaveMe me
  let unlinked := maybeAutoUnlink s me
  (unlinked.2.1, unlinked.2.2 ++ reported ++
    if unlinked.1 then [] else [.deferredUnlink me])

/-- `handle_put_request` after the counter update. -/
def putFinish (sys : Sys) (self : Actor) (s : State) (msg : MsgId) (me : MeId)
    (fail : NiFailType) : Segment :=
  let req := s.reqOf msg
  let left := leaveEntry s me (issuePutLike sys s .put (s.mes me) req)
  (left.1, left.2 ++ sendDue msg fail (ackDue sys s req (s.mes me)) ++
    pciSleep sys s self.nid msg)

/-- `BxiNicTarget::handle_put_request`. -/
def handlePutRequest (sys : Sys) (self : Actor) (s : State) (msg : MsgId) :
    Segment :=
  let req := s.reqOf msg
  if (s.reqs req).processState > .created then
    (s, [])
  else
    match matchEntry sys s self.nid msg with
    | (none, fail) =>
        (s, if (s.reqs req).ackReq ≠ .noAckReq then
            [.sendAck msg .ptlAck fail]
          else
            [])
    | (some (pt, list, me), fail) =>
        let s := takeEntry s msg pt list me
        let s := receive s msg me ((s.mes me).list == .overflow)
        let r := s.reqs req
        let s :=
          if sys.useRealMemory self.nid && r.md.length ≠ 0 then
            cappedMemcpy sys s req r.start (add64 r.md.start r.localOffset)
              r.mlength
          else
            s
        (s, meCounter s req (s.mes me) ++ [.putFinish msg me fail])

/-- `handle_get_request` after the counter update. -/
def getFinish (sys : Sys) (s : State) (msg : MsgId) (me : MeId)
    (response : MsgId) : Segment :=
  let req := s.reqOf msg
  let r := s.reqs req
  let s := s.modMsg response fun m => { m with simulatedSize := r.mlength }
  let s :=
    if sys.useRealMemory (sys.mdNid r.md) && (s.mes me).me.length ≠ 0 then
      cappedMemcpy sys s req (add64 r.md.start r.localOffset) r.start r.mlength
    else
      s
  let left := leaveEntry s me []
  (left.1, left.2 ++ [.txPut response])

/-- The response allocated by `handle_get_request` and
`handle_fetch_atomic_request` before the match. -/
def newResponse (s : State) (msg : MsgId) (type : MsgType)
    (fail : NiFailType) : State :=
  let m := s.msgs msg
  s.newMsg
    { m.copy with
      type := type
      initiator := m.target
      target := m.initiator
      retryCount := 0
      niFailType := fail }

/-- A response without a match. -/
def respondUnmatched (s : State) (response : MsgId) : Segment :=
  (s.modMsg response fun m => { m with simulatedSize := 0 }, [.txPut response])

/-- `BxiNicTarget::handle_get_request`. -/
def handleGetRequest (sys : Sys) (self : Actor) (s : State) (msg : MsgId) :
    Segment :=
  let req := s.reqOf msg
  if (s.reqs req).processState > .created then
    (s, [])
  else
    let response := s.nextMsg
    match matchEntry sys s self.nid msg with
    | (none, fail) =>
        respondUnmatched (newResponse s msg .ptlGetResponse fail) response
    | (some (pt, list, me), fail) =>
        let s := newResponse s msg .ptlGetResponse fail
        let s := receive (takeEntry s msg pt list me) msg me true
        (s, meCounter s req (s.mes me) ++ [.getFinish msg me response])

/-- `handle_atomic_request` after `send_ack`. -/
def atomicEvents (sys : Sys) (s : State) (msg : MsgId) (me : MeId) :
    Segment :=
  leaveEntry s me (issuePutLike sys s .atomic (s.mes me) (s.reqOf msg))

/-- `handle_atomic_request` after the counter update. -/
def atomicFinish (sys : Sys) (self : Actor) (s : State) (msg : MsgId)
    (me : MeId) (fail : NiFailType) : List Op :=
  pciSleep sys s self.nid msg ++
    sendDue msg fail (ackDue sys s (s.reqOf msg) (s.mes me)) ++
    .atomicEvents msg me :: pciSleep sys s self.nid msg

/-- `BxiNicTarget::handle_atomic_request`.  A request without a match is left
without any acknowledgement. -/
def handleAtomicRequest (sys : Sys) (self : Actor) (s : State) (msg : MsgId) :
    Segment :=
  let req := s.reqOf msg
  if (s.reqs req).processState > .created then
    (s, [])
  else
    match matchEntry sys s self.nid msg with
    | (none, _) => (s, [])
    | (some (pt, list, me), fail) =>
        let s := takeEntry s msg pt list me
        let s := receive s msg me ((s.mes me).list == .overflow)
        let r := s.reqs req
        let operand := add64 r.md.start r.localOffset
        let s :=
          if sys.useRealMemory self.nid && r.md.length ≠ 0 then
            s.emit (.atomicOp req
              { op := r.op, datatype := r.datatype, me := r.start
                cst := some operand, rx := operand, tx := r.start
                len := r.mlength })
          else
            s
        (s, meCounter s req (s.mes me) ++ [.atomicFinish msg me fail])

/-- `handle_fetch_atomic_request` after the counter update. -/
def fetchAtomicFinish (s : State) (msg : MsgId) (me : MeId)
    (response : MsgId) : Segment :=
  let r := s.reqs (s.reqOf msg)
  let s := s.modMsg response fun m => { m with simulatedSize := r.mlength }
  let left := leaveEntry s me []
  (left.1, left.2 ++ [.txPut response])

/-- `req->matched_me->get_offsetted_addr(msg, false)`, which assigns
`target_remote_offset` too. -/
def matchedAddr (s : State) (req : ReqId) : Addr × State :=
  match (s.reqs req).matchedMe with
  | none => ((s.reqs req).start, s)
  | some matched =>
      (matched.getOffsettedAddr (s.reqs req), s.modReq req fun r =>
        { r with targetRemoteOffset := matched.offsetInTarget r })

/-- The memory accesses of `handle_fetch_atomic_request`. -/
def fetchAtomicMemory (sys : Sys) (self : Actor) (s : State) (req : ReqId)
    (me : MeId) : State :=
  let r := s.reqs req
  if sys.useRealMemory self.nid && r.md.length ≠ 0 then
    let s :=
      if (s.mes me).me.length ≠ 0 then
        cappedMemcpy sys s req (add64 r.getMd.start r.getLocalOffset) r.start
          r.mlength
      else
        s
    let operand := add64 r.md.start r.localOffset
    let result := matchedAddr s req
    result.2.emit (.atomicOp req
      { op := r.op, datatype := r.datatype, me := r.start
        cst := if r.op.isSwap then none else some operand
        rx := operand
        tx := result.1
        len := r.mlength })
  else
    s

/-- `BxiNicTarget::handle_fetch_atomic_request`. -/
def handleFetchAtomicRequest (sys : Sys) (self : Actor) (s : State)
    (msg : MsgId) : Segment :=
  let req := s.reqOf msg
  if (s.reqs req).processState > .created then
    (s, [])
  else
    let response := s.nextMsg
    match matchEntry sys s self.nid msg with
    | (none, fail) =>
        respondUnmatched (newResponse s msg .ptlFetchAtomicResponse fail)
          response
    | (some (pt, list, me), fail) =>
        let s := newResponse s msg .ptlFetchAtomicResponse fail
        let s := receive (takeEntry s msg pt list me) msg me true
        let s := fetchAtomicMemory sys self s req me
        (s, meCounter s req (s.mes me) ++ [.fetchAtomicFinish msg me response])

/-! ## Answers -/

/-- The BXI ACK sent for a response or a Portals ACK. -/
def newBxiAck (s : State) (msg : MsgId) : State :=
  let m := s.msgs msg
  (s.newMsg
    { m.copy with
      type := .e2eAck
      initiator := m.target
      target := m.initiator
      simulatedSize := ackSize
      answersMsg := some msg }).ref msg

/-- The BXI ACK of `handle_response` and `handle_ptl_ack`, sent when E2E is on
at the node of `md`. -/
def sendBxiAck (sys : Sys) (s : State) (msg : MsgId) (md : BxiMD) : Segment :=
  if sys.e2eOff (sys.mdNid md) then
    (s, [])
  else
    (newBxiAck s msg, [.txPut s.nextMsg])

/-- The descriptor which receives the reply of a request. -/
def BxiRequest.replyMd (req : BxiRequest) : BxiMD :=
  if req.type = .fetchAtomic then req.getMd else req.md

/-- The release at the start of `handle_response` and `handle_ptl_ack`. -/
def releaseAnswered (sys : Sys) (self : Actor) (s : State) (msg : MsgId) :
    Op :=
  let req := s.reqOf msg
  let r := s.reqs req
  .releaseE2eEntry self.nid (.request r.serviceVn)
    ⟨sys.mdPid r.md, r.targetPid, (s.msgs msg).initiator⟩ req

/-- The `REPLY` event. -/
def replyEvent (s : State) (msg : MsgId) : List Op :=
  let req := s.reqOf msg
  let r := s.reqs req
  issueEvent r.replyMd.eqHandle
    { type := .reply
      niFailType := (s.msgs msg).niFailType
      userPtr := some r.userPtr
      mlength := some r.mlength
      remoteOffset := some r.targetRemoteOffset } (.request req)

/-- `handle_response` after the release of the entry. -/
def responseRest (sys : Sys) (self : Actor) (s : State) (msg : MsgId) :
    Segment :=
  let req := s.reqOf msg
  let md := (s.reqs req).replyMd
  if (s.reqs req).processState > .received then
    (s, [])
  else
    (s.modReq req fun r => { r with processState := .answered },
      pciSleep sys s self.nid msg ++ .sendBxiAck msg md ::
        mdCounter s req md MdOption.eventCtReply ++
        .replyEvent msg :: pciSleep sys s self.nid msg)

/-- `BxiNicTarget::handle_response`. -/
def handleResponse (sys : Sys) (self : Actor) (s : State) (msg : MsgId) :
    Segment :=
  (s.emit (.answered (s.reqOf msg)),
    [releaseAnswered sys self s msg, .responseRest msg])

/-- `handle_ptl_ack` after the BXI ACK was queued. -/
def ptlAckTail (s : State) (msg : MsgId) : Segment :=
  let req := s.reqOf msg
  if (s.reqs req).processState ≤ .received then
    (s.modReq req fun r => { r with processState := .answered },
      .maybeIssueSend req :: issueAck s req (s.msgs msg).niFailType)
  else
    (s, [])

/-- `BxiNicTarget::handle_ptl_ack`. -/
def handlePtlAck (sys : Sys) (self : Actor) (s : State) (msg : MsgId) :
    Segment :=
  (s.emit (.answered (s.reqOf msg)),
    [releaseAnswered sys self s msg,
      .sendBxiAck msg (s.reqs (s.reqOf msg)).md, .ptlAckTail msg])

/-- `handle_bxi_ack` after the release of the entry. -/
def bxiAckTail (s : State) (msg : MsgId) : List Op :=
  let req := s.reqOf msg
  match (s.reqs req).type with
  | .put | .atomic =>
      if (s.reqs req).ackReq = .noAckReq then [.maybeIssueSend req] else []
  | .get => [.maybeIssueGet req]
  | .fetchAtomic => [.maybeIssueFetchAtomic req]

/-- The flow-control key of the message which a BXI ACK answers, as computed by
`handle_bxi_ack`. -/
def bxiAckKey (sys : Sys) (s : State) (msg answered : MsgId) :
    FlowctrlProcessId :=
  let r := s.reqs (s.reqOf msg)
  let target := (s.msgs answered).target
  if (s.vnOf answered).isRequest then ⟨sys.mdPid r.md, r.targetPid, target⟩
  else ⟨r.targetPid, sys.mdPid r.md, target⟩

/-- `BxiNicTarget::handle_bxi_ack`. -/
def handleBxiAck (sys : Sys) (self : Actor) (s : State) (msg : MsgId) :
    Segment :=
  let req := s.reqOf msg
  if (s.reqs req).processState ≥ .finished then
    (s, [])
  else
    let acked := s.modReq req fun r => { r with processState := .finished }
    match (s.msgs msg).answersMsg with
    | none => (acked.halt (.panic .ackWithoutAnswer), [])
    | some answered =>
        let vn := s.vnOf answered
        (if vn.isRequest then acked.emit (.answered req) else acked,
          [.releaseE2eEntry self.nid vn (bxiAckKey sys s msg answered) req,
            .bxiAckTail msg])

/-- The dispatch of `BxiNicTarget::operator()`. -/
def handleMsg (sys : Sys) (self : Actor) (s : State) (msg : MsgId) :
    Segment :=
  match (s.msgs msg).type with
  | .ptlPut => handlePutRequest sys self s msg
  | .ptlGet => handleGetRequest sys self s msg
  | .ptlAtomic => handleAtomicRequest sys self s msg
  | .ptlFetchAtomic => handleFetchAtomicRequest sys self s msg
  | .ptlGetResponse | .ptlFetchAtomicResponse => handleResponse sys self s msg
  | .ptlAck => handlePtlAck sys self s msg
  | .e2eAck => handleBxiAck sys self s msg

end S4BXI
