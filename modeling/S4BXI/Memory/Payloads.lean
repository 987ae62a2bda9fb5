import S4BXI.Lib.Erasure
import S4BXI.Memory.Contents
import S4BXI.Nic.Inversion

/-!
# Payloads do not influence the protocol

The handlers read and write user memory in `capped_memcpy` and
`apply_atomic_op` only, and nothing else depends on these bytes.  The machine
which never touches memory is what every machine becomes when the recorded
accesses are erased.
-/

namespace S4BXI

open Lib

/-- The effects on user memory. -/
def Obs.ofMemory : Obs → Bool
  | .memcpy _ _ _ _ | .atomicOp _ _ => true
  | _ => false

/-- A state without its accesses to memory. -/
def State.protocol (s : State) : State :=
  { s with log := s.log.filter fun obs => !obs.ofMemory }

/-- The options which decide on accesses to memory. -/
structure MemoryOptions where
  useRealMemory : Bool := false
  maxMemcpy : Int := -1
  nodeUseRealMemory : Nid → Bool := fun _ => false

/-- A simulation with other options for memory. -/
def Sys.withMemory (sys : Sys) (options : MemoryOptions) : Sys :=
  { sys with
    cfg :=
      { sys.cfg with
        useRealMemory := options.useRealMemory
        maxMemcpy := options.maxMemcpy }
    node := fun nid =>
      { sys.node nid with useRealMemory := options.nodeUseRealMemory nid } }

/-- The simulation which never accesses memory. -/
def Sys.blind (sys : Sys) : Sys := sys.withMemory {}

/-- A segment without its accesses to memory. -/
def erased (segment : Segment) : Segment := (segment.1.protocol, segment.2)

section Erasure

variable (sys : Sys) (self : Actor) (s : State)

/-! ## Fields -/

@[simp] theorem protocol_reqs : s.protocol.reqs = s.reqs := rfl
@[simp] theorem protocol_msgs : s.protocol.msgs = s.msgs := rfl
@[simp] theorem protocol_nextMsg : s.protocol.nextMsg = s.nextMsg := rfl
@[simp] theorem protocol_mes : s.protocol.mes = s.mes := rfl
@[simp] theorem protocol_pts : s.protocol.pts = s.pts := rfl
@[simp] theorem protocol_ptIndexes :
    s.protocol.ptIndexes = s.ptIndexes := rfl
@[simp] theorem protocol_cqs : s.protocol.cqs = s.cqs := rfl
@[simp] theorem protocol_nodes : s.protocol.nodes = s.nodes := rfl
@[simp] theorem protocol_rx : s.protocol.rx = s.rx := rfl
@[simp] theorem protocol_threads : s.protocol.threads = s.threads := rfl
@[simp] theorem protocol_halted : s.protocol.halted = s.halted := rfl
@[simp] theorem protocol_reqOf (msg : MsgId) :
    s.protocol.reqOf msg = s.reqOf msg := rfl
@[simp] theorem protocol_vnOf (msg : MsgId) :
    s.protocol.vnOf msg = s.vnOf msg := rfl
@[simp] theorem protocol_live (ptr : Ptr) :
    s.protocol.live ptr = s.live ptr := by
  cases ptr <;> rfl

@[simp] theorem blind_cfg_quickAcks :
    sys.blind.cfg.quickAcks = sys.cfg.quickAcks := rfl
@[simp] theorem blind_cfg_maxRetries :
    sys.blind.cfg.maxRetries = sys.cfg.maxRetries := rfl
@[simp] theorem blind_ni : sys.blind.ni = sys.ni := rfl
@[simp] theorem blind_node_e2eOff (nid : Nid) :
    (sys.blind.node nid).e2eOff = (sys.node nid).e2eOff := rfl
@[simp] theorem blind_e2eOff (nid : Nid) :
    sys.blind.e2eOff nid = sys.e2eOff nid := rfl
@[simp] theorem blind_modelPciCommands (nid : Nid) :
    sys.blind.modelPciCommands nid = sys.modelPciCommands nid := rfl
@[simp] theorem blind_mdNid (md : BxiMD) :
    sys.blind.mdNid md = sys.mdNid md := rfl
@[simp] theorem blind_useRealMemory (nid : Nid) :
    sys.blind.useRealMemory nid = false := rfl

variable {s}

theorem protocol_emit {obs : Obs} (visible : obs.ofMemory = false) :
    (s.emit obs).protocol = s.protocol.emit obs := by
  simp [State.protocol, State.emit, List.filter_append, visible]

theorem protocol_access {obs : Obs} (access : obs.ofMemory = true) :
    (s.emit obs).protocol = s.protocol := by
  simp [State.protocol, State.emit, List.filter_append, access]

theorem erased_emit {obs : Obs} (visible : obs.ofMemory = false)
    (added : List Op) :
    erased (s.emit obs, added) = (s.protocol.emit obs, added) := by
  rw [erased, protocol_emit visible]

variable (s)

/-! ## Events, queues and flow control -/

theorem releaseE2eEntry_erased (nid : Nid) (vn : Vn)
    (key : FlowctrlProcessId) (req : ReqId) :
    erased (releaseE2eEntry sys s nid vn key req) =
      releaseE2eEntry sys.blind s.protocol nid vn key req := by
  apply erase_ite erased rfl
  · intro _
    rfl
  · intro _
    exact erased_emit rfl _

theorem releaseCounts_erased (nid : Nid) (vn : Vn)
    (key : FlowctrlProcessId) (req : ReqId) :
    erased (releaseCounts sys s nid vn key req) =
      releaseCounts sys.blind s.protocol nid vn key req := by
  have same : (s.protocol.nodes nid).releaseCredits sys.blind.cfg vn key =
      (s.nodes nid).releaseCredits sys.cfg vn key := rfl
  simp only [releaseCounts, same]
  split
  · simp only [erased, Prod.mk.injEq, and_true]
    exact congrArg (fun t : State => t.halt _) (protocol_emit rfl)
  · exact erased_emit rfl _

theorem resumeLoop_erased (nid : Nid) (vn : Vn) :
    erased (resumeLoop s nid vn) = resumeLoop s.protocol nid vn := by
  simp only [resumeLoop, protocol_nodes]
  split <;> rfl

theorem resumePop_erased (nid : Nid) (vn : Vn) :
    erased (resumePop s nid vn) = resumePop s.protocol nid vn := by
  simp only [resumePop, protocol_nodes]
  split <;> rfl

theorem txPut_protocol (nid : Nid) (vn : Vn) (msg : MsgId) :
    (txPut s nid vn msg).protocol = txPut s.protocol nid vn msg :=
  protocol_emit rfl

theorem checkFlowctrl_protocol (nid : Nid) (msg : MsgId) :
    checkFlowctrl sys.blind s.protocol nid msg =
      ((checkFlowctrl sys s nid msg).1,
        (checkFlowctrl sys s nid msg).2.protocol) := by
  have exempt : exemptFromFlowctrl sys.blind s.protocol nid msg =
      exemptFromFlowctrl sys s nid msg := rfl
  have same : (s.protocol.nodes nid).checkCredits sys.blind.cfg
      (s.protocol.vnOf msg) (flowctrlKey sys.blind s.protocol msg) =
      (s.nodes nid).checkCredits sys.cfg (s.vnOf msg)
        (flowctrlKey sys s msg) := rfl
  simp only [checkFlowctrl, exempt, same]
  split
  · rfl
  · split
    · rw [protocol_emit rfl]
      rfl
    · rfl

theorem processTx_erased (msg : MsgId) :
    erased (processTx sys self s msg) =
      processTx sys.blind self s.protocol msg := by
  simp only [processTx, checkFlowctrl_protocol]
  rcases checkFlowctrl sys s self.nid msg with ⟨answer, after⟩
  cases answer <;> rfl

theorem acquireE2eEntry_erased (msg : MsgId) :
    (acquireE2eEntry self s msg).map erased =
      acquireE2eEntry self s.protocol msg := by
  apply erase_ite (Option.map erased) rfl
  · intro _
    rfl
  · intro _
    exact congrArg some (erased_emit rfl _)

theorem commStart_protocol (msg : MsgId) :
    (commStart self s msg).protocol = commStart self s.protocol msg :=
  protocol_emit rfl

theorem cqAcquire_erased (ni : NiId) (msg : MsgId) :
    (cqAcquire s ni msg).map erased = cqAcquire s.protocol ni msg :=
  erase_ite (Option.map erased) rfl (fun _ => rfl) (fun _ => rfl)

/-! ## Messages and requests -/

theorem dropRequestRef_protocol (req : ReqId) :
    (s.dropRequestRef req).protocol = s.protocol.dropRequestRef req :=
  erase_ite State.protocol rfl (fun _ => rfl) (fun _ => rfl)

theorem destroyMsg_protocol {release : State → MsgId → State}
    (released : ∀ s msg, (release s msg).protocol = release s.protocol msg)
    (msg : MsgId) :
    (s.destroyMsg release msg).protocol =
      s.protocol.destroyMsg release msg := by
  unfold State.destroyMsg
  dsimp only
  rw [dropRequestRef_protocol]
  cases answered : ((s.modMsg msg fun m =>
      { m with live := false }).msgs msg).answersMsg with
  | none =>
      have same : ((s.protocol.modMsg msg fun m =>
          { m with live := false }).msgs msg).answersMsg = none := answered
      rw [same]
      rfl
  | some message =>
      have same : ((s.protocol.modMsg msg fun m =>
          { m with live := false }).msgs msg).answersMsg = some message :=
        answered
      rw [same]
      dsimp only
      rw [← protocol_reqOf, released]
      rfl

theorem unrefWithin_protocol (fuel : Nat) (msg : MsgId) :
    (State.unrefWithin fuel s msg).protocol =
      State.unrefWithin fuel s.protocol msg := by
  induction fuel generalizing s msg with
  | zero => rfl
  | succ fuel induction =>
      apply erase_ite State.protocol rfl
      · intro _
        rfl
      · intro _
        apply erase_ite State.protocol rfl
        · intro _
          exact destroyMsg_protocol _ induction msg
        · intro _
          rfl

theorem unref_protocol (msg : MsgId) :
    (s.unref msg).protocol = s.protocol.unref msg :=
  unrefWithin_protocol s _ msg

theorem deleteMsg_protocol (msg : MsgId) :
    (s.deleteMsg msg).protocol = s.protocol.deleteMsg msg := by
  apply erase_ite State.protocol rfl
  · intro _
    rfl
  · intro _
    exact destroyMsg_protocol s unref_protocol msg

theorem maybeIssueSend_erased (req : ReqId) :
    erased (maybeIssueSend s req) =
      maybeIssueSend s.protocol req :=
  erase_ite erased rfl (fun _ => rfl) (fun _ => rfl)

theorem maybeIssueGet_erased (req : ReqId) :
    erased (maybeIssueGet sys s req) =
      maybeIssueGet sys.blind s.protocol req :=
  erase_ite erased rfl (fun _ => rfl) (fun _ => rfl)

theorem maybeIssueFetchAtomic_erased (req : ReqId) :
    erased (maybeIssueFetchAtomic sys s req) =
      maybeIssueFetchAtomic sys.blind s.protocol req :=
  erase_ite erased rfl (fun _ => rfl) (fun _ => rfl)

/-! ## Matching and entries -/

theorem matchEntryIn_protocol (req : BxiRequest) (nis : List NiId) :
    matchEntryIn sys.blind s.protocol req nis =
      matchEntryIn sys s req nis := by
  induction nis with
  | nil => rfl
  | cons ni rest induction =>
      simp only [matchEntryIn, induction]
      rfl

theorem matchEntry_protocol (nid : Nid) (msg : MsgId) :
    matchEntry sys.blind s.protocol nid msg = matchEntry sys s nid msg :=
  matchEntryIn_protocol sys s _ _

theorem takeEntry_protocol (msg : MsgId) (pt : PtId) (list : PtlList)
    (me : MeId) :
    (takeEntry s msg pt list me).protocol =
      takeEntry s.protocol msg pt list me := by
  cases list <;> exact protocol_emit rfl

theorem unlink_protocol (me : MeId) :
    (unlink s me).protocol = unlink s.protocol me := by
  apply erase_ite State.protocol rfl
  · intro _
    rfl
  · intro _
    exact erase_ite State.protocol rfl (fun _ => rfl) (fun _ => rfl)

theorem deferredUnlink_protocol (me : MeId) :
    (deferredUnlink s me).protocol = deferredUnlink s.protocol me :=
  erase_ite State.protocol rfl (fun _ => unlink_protocol s me) (fun _ => rfl)

theorem maybeAutoUnlink_erased (me : MeId) :
    ((maybeAutoUnlink s me).1, erased (maybeAutoUnlink s me).2) =
      maybeAutoUnlink s.protocol me := by
  apply erase_ite (fun unlinked : Bool × Segment =>
    (unlinked.1, erased unlinked.2)) rfl
  · intro _
    rfl
  · intro _
    simp only [erased, unlink_protocol]
    rfl

theorem leaveEntry_erased (me : MeId) (reported : List Op) :
    erased (leaveEntry s me reported) =
      leaveEntry s.protocol me reported := by
  have left : (s.leaveMe me).protocol = s.protocol.leaveMe me := rfl
  simp only [leaveEntry, ← left, ← maybeAutoUnlink_erased]
  rfl

theorem walkThroughUHs_erased (me : MeId) (index : Nat) :
    erased (walkThroughUHs sys s me index) =
      walkThroughUHs sys.blind s.protocol me index := by
  simp only [walkThroughUHs, protocol_mes, protocol_pts, protocol_reqs,
    protocol_reqOf]
  split
  · rfl
  · split
    · rfl
    · exact erased_emit rfl _

theorem append_erased (pt : PtId) (me : PtlMe) (list : PtlList)
    (userPtr : Nat) :
    erased (append s pt me list userPtr) =
      append s.protocol pt me list userPtr :=
  erase_ite erased rfl (fun _ => rfl) (fun _ => rfl)

theorem ptlMEUnlink_protocol (me : MeId) :
    (ptlMEUnlink s me).protocol = ptlMEUnlink s.protocol me :=
  erase_ite State.protocol rfl (fun _ => rfl) (fun _ => unlink_protocol s me)

theorem foldl_protocol {α : Type} {f : State → α → State}
    (commutes : ∀ s x, (f s x).protocol = f s.protocol x) (xs : List α) :
    (xs.foldl f s).protocol = xs.foldl f s.protocol := by
  induction xs generalizing s with
  | nil => rfl
  | cons x rest induction =>
      rw [List.foldl_cons, List.foldl_cons, induction, commutes]

theorem ptFree_protocol (ni : NiId) (index : Nat) (pt : PtId) :
    (ptFree s ni index pt).protocol = ptFree s.protocol ni index pt := by
  have entries : ∀ (t : State) (mes : List MeId),
      (mes.foldl destroyMe t).protocol = mes.foldl destroyMe t.protocol :=
    fun t mes => foldl_protocol t (fun _ _ => rfl) mes
  have headers : ∀ (t : State) (msgs : List MsgId),
      (msgs.foldl State.deleteMsg t).protocol =
        msgs.foldl State.deleteMsg t.protocol :=
    fun t msgs => foldl_protocol t deleteMsg_protocol msgs
  simp only [ptFree, protocol_pts, ← entries, ← headers]
  rfl

/-! ## Handlers without an access to memory -/

theorem retransmit_protocol (msg : MsgId) :
    (retransmit sys self s msg).protocol =
      retransmit sys.blind self s.protocol msg := by
  apply erase_ite State.protocol rfl
  · intro _
    exact txPut_protocol _ _ _ _
  · intro _
    rfl

theorem e2eWake_erased (msg : MsgId) :
    erased (e2eWake sys self s msg) =
      e2eWake sys.blind self s.protocol msg := by
  apply erase_ite erased rfl
  · intro _
    rfl
  · intro _
    apply erase_ite erased rfl
    · intro _
      rfl
    · intro _
      apply erase_ite erased rfl
      · intro _
        rw [erased, retransmit_protocol]
      · intro _
        rfl

theorem sendAck_erased (msg : MsgId) (type : MsgType) (fail : NiFailType) :
    erased (sendAck sys self s msg type fail) =
      sendAck sys.blind self s.protocol msg type fail := by
  apply erase_ite erased rfl
  · intro _
    exact erased_emit rfl _
  · intro _
    rfl

theorem sendBxiAck_erased (msg : MsgId) (md : BxiMD) :
    erased (sendBxiAck sys s msg md) =
      sendBxiAck sys.blind s.protocol msg md :=
  erase_ite erased rfl (fun _ => rfl) (fun _ => rfl)

theorem responseRest_erased (msg : MsgId) :
    erased (responseRest sys self s msg) =
      responseRest sys.blind self s.protocol msg :=
  erase_ite erased rfl (fun _ => rfl) (fun _ => rfl)

theorem ptlAckTail_erased (msg : MsgId) :
    erased (ptlAckTail s msg) = ptlAckTail s.protocol msg :=
  erase_ite erased rfl (fun _ => rfl) (fun _ => rfl)

theorem handleBxiAck_erased (msg : MsgId) :
    erased (handleBxiAck sys self s msg) =
      handleBxiAck sys.blind self s.protocol msg := by
  apply erase_ite erased rfl
  · intro _
    rfl
  · intro _
    simp only [protocol_msgs]
    split
    · rfl
    · rename_i answered answers
      exact congrArg (·, _) (erase_ite State.protocol rfl
        (fun _ => protocol_emit rfl) (fun _ => rfl))

theorem putFinish_erased (msg : MsgId) (me : MeId) (fail : NiFailType) :
    erased (putFinish sys self s msg me fail) =
      putFinish sys.blind self s.protocol msg me fail := by
  have left := leaveEntry_erased s me
    (issuePutLike sys s .put (s.mes me) (s.reqOf msg))
  exact congrArg (fun segment : Segment => (segment.1, segment.2 ++
    sendDue msg fail (ackDue sys s (s.reqOf msg) (s.mes me)) ++
      pciSleep sys s self.nid msg)) left

theorem fetchAtomicFinish_erased (msg : MsgId) (me : MeId)
    (response : MsgId) :
    erased (fetchAtomicFinish s msg me response) =
      fetchAtomicFinish s.protocol msg me response :=
  congrArg (fun segment : Segment =>
    (segment.1, segment.2 ++ [.txPut response])) (leaveEntry_erased _ me [])

/-! ## Handlers which access memory -/

/-- The assertion of `capped_memcpy` failed. -/
def State.copiedNull (s : State) : Prop :=
  s.halted = some (.panic .nullCopy)

variable {s}

theorem cappedMemcpy_cases (req : ReqId) (dest src : Addr) (count : Size) :
    cappedMemcpy sys s req dest src count = s.halt (.panic .nullCopy) ∨
      (cappedMemcpy sys s req dest src count).protocol = s.protocol := by
  unfold cappedMemcpy
  dsimp only
  split
  · exact .inl rfl
  · exact .inr (protocol_access rfl)

theorem cappedMemcpy_protocol {req : ReqId} {dest src : Addr} {count : Size}
    (kept : ¬(cappedMemcpy sys s req dest src count).copiedNull) :
    (cappedMemcpy sys s req dest src count).protocol = s.protocol := by
  rcases cappedMemcpy_cases sys req dest src count with null | same
  · rw [null] at kept
    exact absurd rfl kept
  · exact same

/-- An access which is made under a condition. -/
theorem access_protocol {condition : Prop} [Decidable condition] {t : State}
    (kept : ¬(if condition then t else s).copiedNull)
    (accessed : ¬t.copiedNull → t.protocol = s.protocol) :
    (if condition then t else s).protocol = s.protocol := by
  by_cases real : condition
  · rw [if_pos real] at kept ⊢
    exact accessed kept
  · rw [if_neg real]

/-- The counter update after an access. -/
theorem counted_erased {t : State} (same : t.protocol = s.protocol)
    (req : ReqId) (me : MeId) (rest : List Op) :
    erased (t, meCounter t req (t.mes me) ++ rest) =
      (s.protocol,
        meCounter s.protocol req (s.protocol.mes me) ++ rest) := by
  rw [← same]
  rfl

theorem received_protocol (msg : MsgId) (pt : PtId) (list : PtlList)
    (me : MeId) (copied : Bool) :
    (receive (takeEntry s msg pt list me) msg me copied).protocol =
      receive (takeEntry s.protocol msg pt list me) msg me copied := by
  rw [← takeEntry_protocol]
  rfl

theorem deposit_protocol (msg : MsgId) (pt : PtId) (list : PtlList)
    (me : MeId) (fail : NiFailType) (kind : ReqType) :
    (deposit s msg pt list me fail kind).protocol =
      deposit s.protocol msg pt list me fail kind := by
  cases kind <;> exact received_protocol _ _ _ _ _

theorem no_access (nid : Nid) (other : Bool) :
    ¬(sys.blind.useRealMemory nid && other) = true := by
  simp

theorem handlePutRequest_erased {msg : MsgId}
    (kept : ¬(handlePutRequest sys self s msg).1.copiedNull) :
    erased (handlePutRequest sys self s msg) =
      handlePutRequest sys.blind self s.protocol msg := by
  by_cases known : (s.reqs (s.reqOf msg)).processState > .created
  · have same : (s.protocol.reqs (s.protocol.reqOf msg)).processState >
        .created := known
    rw [handlePutRequest, handlePutRequest, if_pos known, if_pos same]
    rfl
  · have same : ¬(s.protocol.reqs (s.protocol.reqOf msg)).processState >
        .created := known
    rw [handlePutRequest, if_neg known] at kept
    rw [handlePutRequest, handlePutRequest, if_neg known, if_neg same,
      matchEntry_protocol]
    cases found : matchEntry sys s self.nid msg with
    | mk entry fail =>
        rw [found] at kept
        cases entry with
        | none => rfl
        | some entry =>
            obtain ⟨pt, list, me⟩ := entry
            have shape : ∀ t : State, receive (takeEntry t msg pt list me) msg
                me (((takeEntry t msg pt list me).mes me).list == .overflow) =
                deposit t msg pt list me fail .put := by
              intro t
              simp [deposit, answering, copies]
            simp only [shape] at kept ⊢
            rw [if_neg (no_access sys _ _), ← deposit_protocol]
            exact counted_erased (access_protocol kept
              (cappedMemcpy_protocol sys)) _ _ _

theorem handleAtomicRequest_erased (msg : MsgId) :
    erased (handleAtomicRequest sys self s msg) =
      handleAtomicRequest sys.blind self s.protocol msg := by
  by_cases known : (s.reqs (s.reqOf msg)).processState > .created
  · have same : (s.protocol.reqs (s.protocol.reqOf msg)).processState >
        .created := known
    rw [handleAtomicRequest, handleAtomicRequest, if_pos known, if_pos same]
    rfl
  · have same : ¬(s.protocol.reqs (s.protocol.reqOf msg)).processState >
        .created := known
    rw [handleAtomicRequest, handleAtomicRequest, if_neg known, if_neg same,
      matchEntry_protocol]
    cases found : matchEntry sys s self.nid msg with
    | mk entry fail =>
        cases entry with
        | none => rfl
        | some entry =>
            obtain ⟨pt, list, me⟩ := entry
            have shape : ∀ t : State, receive (takeEntry t msg pt list me) msg
                me (((takeEntry t msg pt list me).mes me).list == .overflow) =
                deposit t msg pt list me fail .atomic := by
              intro t
              simp [deposit, answering, copies]
            simp only [shape]
            rw [if_neg (no_access sys _ _), ← deposit_protocol]
            apply counted_erased
            split
            · exact protocol_access rfl
            · rfl

theorem handleGetRequest_erased (msg : MsgId) :
    erased (handleGetRequest sys self s msg) =
      handleGetRequest sys.blind self s.protocol msg := by
  by_cases known : (s.reqs (s.reqOf msg)).processState > .created
  · have same : (s.protocol.reqs (s.protocol.reqOf msg)).processState >
        .created := known
    rw [handleGetRequest, handleGetRequest, if_pos known, if_pos same]
    rfl
  · have same : ¬(s.protocol.reqs (s.protocol.reqOf msg)).processState >
        .created := known
    rw [handleGetRequest, handleGetRequest, if_neg known, if_neg same,
      matchEntry_protocol]
    cases found : matchEntry sys s self.nid msg with
    | mk entry fail =>
        cases entry with
        | none => rfl
        | some entry =>
            obtain ⟨pt, list, me⟩ := entry
            have shape : ∀ t : State, receive (takeEntry
                (newResponse t msg .ptlGetResponse fail) msg pt list me) msg
                me true = deposit t msg pt list me fail .get := fun _ => rfl
            simp only [shape]
            rw [← deposit_protocol]
            exact counted_erased rfl _ _ _

theorem fetchAtomicMemory_protocol {req : ReqId} {me : MeId}
    (offset : OffsetKept s req)
    (kept : ¬(fetchAtomicMemory sys self s req me).copiedNull) :
    (fetchAtomicMemory sys self s req me).protocol = s.protocol := by
  obtain ⟨effects, stop, touched, memory, stops⟩ :=
    fetchAtomicMemory_touch sys self offset me
  rw [touched] at kept ⊢
  have sound : stop = s.halted := stops.resolve_right kept
  subst sound
  have erases : effects.filter (fun obs => !obs.ofMemory) = [] := by
    cases memory <;> rfl
  simp [State.protocol, State.touch, erases]

theorem fetchAtomicMemory_blind (req : ReqId) (me : MeId) :
    fetchAtomicMemory sys.blind self s req me = s := by
  unfold fetchAtomicMemory
  exact if_neg (no_access sys _ _)

theorem handleFetchAtomicRequest_erased {msg : MsgId}
    (kept : ¬(handleFetchAtomicRequest sys self s msg).1.copiedNull) :
    erased (handleFetchAtomicRequest sys self s msg) =
      handleFetchAtomicRequest sys.blind self s.protocol msg := by
  by_cases known : (s.reqs (s.reqOf msg)).processState > .created
  · have same : (s.protocol.reqs (s.protocol.reqOf msg)).processState >
        .created := known
    rw [handleFetchAtomicRequest, handleFetchAtomicRequest, if_pos known,
      if_pos same]
    rfl
  · have same : ¬(s.protocol.reqs (s.protocol.reqOf msg)).processState >
        .created := known
    rw [handleFetchAtomicRequest, if_neg known] at kept
    rw [handleFetchAtomicRequest, handleFetchAtomicRequest, if_neg known,
      if_neg same, matchEntry_protocol]
    cases found : matchEntry sys s self.nid msg with
    | mk entry fail =>
        rw [found] at kept
        cases entry with
        | none => rfl
        | some entry =>
            obtain ⟨pt, list, me⟩ := entry
            have shape : ∀ t : State, receive (takeEntry
                (newResponse t msg .ptlFetchAtomicResponse fail) msg pt list
                me) msg me true = deposit t msg pt list me fail .fetchAtomic :=
              fun _ => rfl
            simp only [shape] at kept ⊢
            rw [fetchAtomicMemory_blind, ← deposit_protocol]
            exact counted_erased (fetchAtomicMemory_protocol sys self
              (offsetKept_deposit s msg pt list me fail) kept) _ _ _

/-- An entry which cannot be unlinked hides an earlier halt. -/
theorem unlink_halt (reason : Halt) (me : MeId) :
    (unlink (s.halt reason) me).halted = some reason ∨
      unlink (s.halt reason) me = unlink s me := by
  by_cases used : (s.mes me).inUse
  · left
    rw [unlink, if_pos (show ((s.halt reason).mes me).inUse from used)]
    rfl
  · have same : ¬((s.halt reason).mes me).inUse := used
    by_cases linked : me ∈ (s.pts (s.mes me).pt).listOf (s.mes me).list
    · left
      rw [unlink, if_neg same]
      exact (congrArg State.halted (if_pos linked))
    · right
      have absent : me ∉ ((s.halt reason).pts ((s.halt reason).mes me).pt).listOf
        ((s.halt reason).mes me).list := linked
      rw [unlink, unlink, if_neg same, if_neg used, if_neg linked,
        if_neg absent]
      rfl

theorem leaveEntry_halt (reason : Halt) (me : MeId) (reported : List Op) :
    (leaveEntry (s.halt reason) me reported).1.halted = some reason ∨
      leaveEntry (s.halt reason) me reported = leaveEntry s me reported := by
  have left : (s.halt reason).leaveMe me = (s.leaveMe me).halt reason := rfl
  have same : ((s.halt reason).leaveMe me).mes = (s.leaveMe me).mes := rfl
  simp only [leaveEntry, maybeAutoUnlink, same]
  split
  · exact .inl rfl
  · rw [left]
    rcases unlink_halt (s := s.leaveMe me) reason me with kept | hidden
    · exact .inl kept
    · right
      rw [hidden]
      rfl

/-- An entry which is left after a copy. -/
theorem copied_leaveEntry {condition : Prop} [Decidable condition]
    {req : ReqId} {dest src : Addr} {count : Size} {me : MeId}
    {reported : List Op}
    (kept : ¬(leaveEntry (if condition then
      cappedMemcpy sys s req dest src count else s) me reported).1.copiedNull) :
    erased (leaveEntry (if condition then
      cappedMemcpy sys s req dest src count else s) me reported) =
      leaveEntry s.protocol me reported := by
  by_cases reads : condition
  · rw [if_pos reads] at kept ⊢
    rcases cappedMemcpy_cases sys req dest src count with null | same
    · rw [null] at kept ⊢
      rcases leaveEntry_halt (.panic .nullCopy) me reported with shown | hidden
      · exact absurd shown kept
      · rw [hidden, leaveEntry_erased]
    · rw [leaveEntry_erased, same]
  · rw [if_neg reads, leaveEntry_erased]

theorem getFinish_erased {msg : MsgId} {me : MeId} {response : MsgId}
    (kept : ¬(getFinish sys s msg me response).1.copiedNull) :
    erased (getFinish sys s msg me response) =
      getFinish sys.blind s.protocol msg me response := by
  have ends : ∀ first second : Segment, erased first = second →
      erased (first.1, first.2 ++ [.txPut response]) =
        (second.1, second.2 ++ [.txPut response]) :=
    fun first second same => same ▸ rfl
  unfold getFinish at kept ⊢
  dsimp only at kept ⊢
  rw [if_neg (no_access sys _ _)]
  apply ends
  exact copied_leaveEntry sys kept

/-! ## Steps -/

theorem handleMsg_erased {msg : MsgId}
    (kept : ¬(handleMsg sys self s msg).1.copiedNull) :
    erased (handleMsg sys self s msg) =
      handleMsg sys.blind self s.protocol msg := by
  unfold handleMsg at kept ⊢
  rw [protocol_msgs]
  cases type : (s.msgs msg).type with
  | ptlPut =>
      rw [type] at kept
      exact handlePutRequest_erased sys self kept
  | ptlGet => exact handleGetRequest_erased sys self msg
  | ptlAtomic => exact handleAtomicRequest_erased sys self msg
  | ptlFetchAtomic =>
      rw [type] at kept
      exact handleFetchAtomicRequest_erased sys self kept
  | ptlGetResponse => exact erased_emit rfl _
  | ptlFetchAtomicResponse => exact erased_emit rfl _
  | ptlAck => exact erased_emit rfl _
  | e2eAck => exact handleBxiAck_erased sys self s msg

/-- What the blind simulation does in a segment which does not copy from or to a
null pointer. -/
def Blinds (real blind : Segment) : Prop :=
  ¬real.1.copiedNull → erased real = blind

theorem blinds_of_map {real blind : Option Segment}
    (same : real.map erased = blind) : Option.Rel Blinds real blind := by
  subst same
  cases real with
  | none => exact .none
  | some segment => exact .some fun _ => rfl

theorem exec_erased (op : Op) :
    Option.Rel Blinds (exec sys self s op)
      (exec sys.blind self s.protocol op) := by
  cases op with
  | resched => exact .some fun _ => rfl
  | putEvent eq event origin => exact .some fun _ => erased_emit rfl _
  | mdIncrementCt req ct amount => exact .some fun _ => erased_emit rfl _
  | meIncrementCt req ct amount => exact .some fun _ => erased_emit rfl _
  | releaseE2eEntry nid vn key req =>
      exact .some fun _ => releaseE2eEntry_erased sys s nid vn key req
  | releaseCounts nid vn key req =>
      exact .some fun _ => releaseCounts_erased sys s nid vn key req
  | resumeLoop nid vn => exact .some fun _ => resumeLoop_erased s nid vn
  | resumePop nid vn => exact .some fun _ => resumePop_erased s nid vn
  | maybeIssueSend req => exact .some fun _ => maybeIssueSend_erased s req
  | sendEvent req => exact .some fun _ => rfl
  | ackEvent req fail => exact .some fun _ => rfl
  | maybeIssueGet req => exact .some fun _ => maybeIssueGet_erased sys s req
  | maybeIssueFetchAtomic req =>
      exact .some fun _ => maybeIssueFetchAtomic_erased sys s req
  | handle msg =>
      exact .some (handleMsg_erased sys self)
  | sendAck msg type fail =>
      exact .some fun _ => sendAck_erased sys self s msg type fail
  | putFinish msg me fail =>
      exact .some fun _ => putFinish_erased sys self s msg me fail
  | getFinish msg me response =>
      exact .some (getFinish_erased sys)
  | atomicFinish msg me fail => exact .some fun _ => rfl
  | atomicEvents msg me => exact .some fun _ => leaveEntry_erased s me _
  | fetchAtomicFinish msg me response =>
      exact .some fun _ => fetchAtomicFinish_erased s msg me response
  | deferredUnlink me =>
      exact .some fun _ => congrArg (·, []) (deferredUnlink_protocol s me)
  | txPut msg =>
      exact .some fun _ => congrArg (·, _) (txPut_protocol s _ _ msg)
  | responseRest msg =>
      exact .some fun _ => responseRest_erased sys self s msg
  | sendBxiAck msg md => exact .some fun _ => sendBxiAck_erased sys s msg md
  | replyEvent msg => exact .some fun _ => rfl
  | ptlAckTail msg => exact .some fun _ => ptlAckTail_erased s msg
  | bxiAckTail msg => exact .some fun _ => rfl
  | unref msg => exact .some fun _ => congrArg (·, []) (unref_protocol s msg)
  | processTx msg => exact .some fun _ => processTx_erased sys self s msg
  | commInit msg => exact .some fun _ => rfl
  | acquireE2eEntry msg => exact blinds_of_map (acquireE2eEntry_erased self s msg)
  | e2eEnqueue msg => exact .some fun _ => rfl
  | commStart msg =>
      exact .some fun _ => congrArg (·, []) (commStart_protocol self s msg)
  | handlePutEnd msg => exact .some fun _ => rfl
  | handleResponseEnd msg => exact .some fun _ => rfl
  | e2eWake msg => exact .some fun _ => e2eWake_erased sys self s msg
  | cqAcquire ni msg => exact blinds_of_map (cqAcquire_erased s ni msg)
  | walkThroughUHs me index =>
      exact .some fun _ => walkThroughUHs_erased sys s me index
  | appendConsumed me => exact .some fun _ => rfl

variable (s)

theorem niInit_protocol (ni : NiId) :
    (niInit sys self s ni).protocol = niInit sys.blind self s.protocol ni :=
  erase_ite State.protocol rfl (fun _ => rfl) (fun _ => rfl)

theorem ptAlloc_protocol (ni : NiId) (index : Nat) (eq : Option EqId) :
    (ptAlloc s ni index eq).protocol = ptAlloc s.protocol ni index eq := by
  unfold ptAlloc
  rw [protocol_ptIndexes]
  cases s.ptIndexes ni index <;> rfl

theorem apiCall_erased (call : Call) :
    (apiCall sys self s call).map erased =
      apiCall sys.blind self s.protocol call := by
  cases call with
  | niInit ni =>
      exact congrArg (fun t => some (t, [])) (niInit_protocol sys self s ni)
  | ptAlloc ni index eq =>
      exact congrArg (fun t => some (t, [])) (ptAlloc_protocol s ni index eq)
  | meUnlink me =>
      exact congrArg (fun t => some (t, [])) (ptlMEUnlink_protocol s me)
  | request cmd => rfl
  | ptEnable ni index | ptDisable ni index =>
      simp only [apiCall, protocol_ptIndexes, Option.map_map]
      rfl
  | ptFree ni index =>
      simp only [apiCall, protocol_ptIndexes, Option.map_map]
      apply congrArg (Option.map · _)
      funext pt
      exact congrArg (·, []) (ptFree_protocol s ni index pt)
  | meAppend ni index me list userPtr =>
      simp only [apiCall, protocol_ptIndexes, Option.map_map]
      apply congrArg (Option.map · _)
      funext pt
      exact append_erased s pt me list userPtr

theorem derefs_blind (op : Op) :
    op.derefs sys.blind self s.protocol = op.derefs sys self s := by
  cases op <;> rfl

/-- Two activations which differ in accesses to memory only. -/
structure Activation.Blinds (real blind : Activation) : Prop where
  consumed : blind.consumed = real.consumed
  derefs : blind.derefs = real.derefs
  segment : S4BXI.Blinds real.segment blind.segment

theorem call_derefs (call : Call) : call.derefs s.protocol = call.derefs s := by
  cases call <;> rfl

theorem ownedBy_blind (process : ThreadId) (call : Call) :
    call.ownedBy sys.blind self process s.protocol =
      call.ownedBy sys self process s := by
  cases call <;> rfl

/-- A delivery which erases to another one. -/
theorem rel_delivery {msg : Option MsgId} {real blind : MsgId → Activation}
    (same : ∀ msg, (real msg).Blinds (blind msg)) :
    Option.Rel Activation.Blinds (msg.map real) (msg.map blind) := by
  cases msg with
  | none => exact .none
  | some msg => exact .some (same msg)

theorem activate_erased (thread : Thread Actor Op) (label : Label) :
    Option.Rel Activation.Blinds (activate sys s thread label)
      (activate sys.blind s.protocol thread label) := by
  cases label with
  | run process =>
      simp only [activate]
      cases thread.ops with
      | nil => exact .none
      | cons op rest =>
          apply rel_map (exec_erased sys thread.role op)
          intro real blind blinds
          exact ⟨rfl, derefs_blind sys thread.role s op, blinds⟩
  | recv process position =>
      exact rel_guard rfl (rel_delivery fun msg => ⟨rfl, rfl, fun _ => rfl⟩)
  | take process =>
      exact rel_guard rfl (rel_delivery fun msg => ⟨rfl, rfl, fun _ => rfl⟩)
  | wake process =>
      exact rel_guard rfl (rel_delivery fun msg => ⟨rfl, rfl, fun _ => rfl⟩)
  | call process call =>
      have owned := ownedBy_blind sys thread.role s process call
      apply rel_guard
      · rw [owned]
      · apply rel_map (blinds_of_map (apiCall_erased sys thread.role s call))
        intro real blind blinds
        exact ⟨rfl, call_derefs s call, blinds⟩

/-- The state after an activation of a thread. -/
def Activation.outcome (activation : Activation) (s : State)
    (process : ThreadId) (thread : Thread Actor Op) : State :=
  match activation.derefs.find? fun ptr => !s.live ptr with
  | some ptr => s.halt (.dangling ptr)
  | none =>
      { activation.segment.1 with
        threads := s.threads.set process
          { thread with
            ops := activation.segment.2 ++
              thread.ops.drop activation.consumed.length } }

theorem outcome_erased {real blind : Activation} (blinds : real.Blinds blind)
    (process : ThreadId) (thread : Thread Actor Op)
    (kept : ¬(real.outcome s process thread).copiedNull) :
    (real.outcome s process thread).protocol =
      blind.outcome s.protocol process thread := by
  have lives : (fun ptr => !s.protocol.live ptr) = fun ptr => !s.live ptr := by
    funext ptr
    rw [protocol_live]
  simp only [Activation.outcome, blinds.derefs, lives] at kept ⊢
  cases found : real.derefs.find? fun ptr => !s.live ptr with
  | some ptr => rfl
  | none =>
      rw [found] at kept
      have same := blinds.segment kept
      rw [← same, blinds.consumed]
      rfl

theorem step_of_free {label : Label} {thread : Thread Actor Op}
    (free : ¬(s.halted.isSome ||
      !(s.threads.eraseIdx label.thread).all suspended) = true)
    (found : s.threads[label.thread]? = some thread) :
    step sys s label = (activate sys s thread label).map fun activation =>
      activation.outcome s label.thread thread := by
  rw [step, if_neg free, found]
  rfl

/-- A step commutes with the erasure unless it copies from or to a null
pointer. -/
theorem step_erased {label : Label}
    (kept : ∀ after, step sys s label = some after → ¬after.copiedNull) :
    (step sys s label).map State.protocol =
      step sys.blind s.protocol label := by
  by_cases stuck : (s.halted.isSome ||
      !(s.threads.eraseIdx label.thread).all suspended) = true
  · have same : (s.protocol.halted.isSome ||
        !(s.protocol.threads.eraseIdx label.thread).all suspended) = true :=
      stuck
    rw [step, step, if_pos stuck, if_pos same]
    rfl
  · cases found : s.threads[label.thread]? with
    | none =>
        have same : s.protocol.threads[label.thread]? = none := found
        simp only [step, found, same]
        exact erase_ite (Option.map State.protocol) rfl (fun _ => rfl)
          (fun _ => rfl)
    | some thread =>
        rw [step_of_free sys s stuck found] at kept
        rw [step_of_free sys s stuck found,
          step_of_free sys.blind s.protocol stuck found]
        have related := activate_erased sys s thread label
        generalize activate sys s thread label = real at kept related ⊢
        generalize activate sys.blind s.protocol thread label = blind at related ⊢
        cases related with
        | none => rfl
        | some blinds =>
            exact congrArg some (outcome_erased s blinds label.thread thread
              (kept _ rfl))

end Erasure

/-! ## Runs -/

/-- A step which breaks down in memory: `capped_memcpy` asserts or
`apply_atomic_op` panics. -/
def Machine.Breaks (sys : Sys) (atomics : Atomics) (machine : Machine)
    (move : Move) : Prop :=
  ∃ after, S4BXI.step sys machine.state move.label = some after ∧
    (after.copiedNull ∨ performAll atomics (effects machine.state after)
      (move.write machine.memory) = none)

theorem machine_commutes (sys : Sys) (atomics : Atomics) :
    Commutes (Machine.step sys atomics) (Machine.Breaks sys atomics)
      (fun machine => machine.state.protocol) Move.label
      (S4BXI.step sys.blind) := by
  intro machine move sound
  have kept : ∀ after, S4BXI.step sys machine.state move.label = some after →
      ¬after.copiedNull :=
    fun after stepped null => sound ⟨after, stepped, .inl null⟩
  rw [← step_erased sys machine.state kept, Machine.step]
  cases stepped : S4BXI.step sys machine.state move.label with
  | none => rfl
  | some after =>
      rw [Option.bind_some]
      cases performed : performAll atomics
          (Machine.effects machine.state after)
          (move.write machine.memory) with
      | none => exact absurd ⟨after, stepped, .inr performed⟩ sound
      | some memory => rfl

/-- The events delivered to an event queue, in their order. -/
def State.eventsTo (s : State) (eq : EqId) : List Event :=
  s.log.filterMap fun obs =>
    match obs with
    | .event queue event _ => if queue = eq then some event else none
    | _ => none

/-- The increments of a counter, in their order. -/
def State.increments (s : State) (ct : CtId) : List Size :=
  s.log.filterMap fun obs =>
    match obs with
    | .meCounter _ counter amount | .mdCounter _ counter amount =>
        if counter = ct then some amount else none
    | _ => none

/-- The messages sent, in their order, with the queue they left from. -/
def State.sentMessages (s : State) : List (Nid × Vn × MsgId) :=
  s.log.filterMap fun obs =>
    match obs with
    | .sent nid vn msg => some (nid, vn, msg)
    | _ => none

/-- Two states between which an application cannot tell apart by the Portals
interface: only the contents of memory may differ. -/
structure SameProtocol (first second : State) : Prop where
  events : ∀ eq, first.eventsTo eq = second.eventsTo eq
  counters : ∀ ct, first.increments ct = second.increments ct
  tables : first.pts = second.pts
  entries : first.mes = second.mes
  requests : first.reqs = second.reqs
  messages : first.msgs = second.msgs
  sent : first.sentMessages = second.sentMessages
  rest : first.protocol = second.protocol

theorem filterMap_protocol {α : Type} {f : Obs → Option α}
    (blind : ∀ obs, obs.ofMemory = true → f obs = none) (s : State) :
    s.protocol.log.filterMap f = s.log.filterMap f := by
  simp only [State.protocol, List.filterMap_filter]
  congr 1
  funext obs
  cases access : obs.ofMemory with
  | true => simp [blind obs access]
  | false => simp

theorem sameProtocol_of_eq {first second : State}
    (same : first.protocol = second.protocol) : SameProtocol first second := by
  have logs : ∀ {α : Type} {f : Obs → Option α},
      (∀ obs, obs.ofMemory = true → f obs = none) →
        first.log.filterMap f = second.log.filterMap f := by
    intro α f blind
    rw [← filterMap_protocol blind first, same, filterMap_protocol blind]
  refine
    { events := fun eq => logs ?_
      counters := fun ct => logs ?_
      tables := by simpa using congrArg State.pts same
      entries := by simpa using congrArg State.mes same
      requests := by simpa using congrArg State.reqs same
      messages := by simpa using congrArg State.msgs same
      sent := logs ?_
      rest := same }
  all_goals
    intro obs access
    cases obs <;> first | rfl | cases access

/-- The initial state does not depend on the options for memory, and two runs
with the same labels agree on everything but the contents of memory, whatever
these options, the initial bytes and what the applications write. -/
theorem payloads_do_not_influence_protocol (sys : Sys)
    (options otherOptions : MemoryOptions) (atomics otherAtomics : Atomics)
    (memory otherMemory : Bytes) (moves otherMoves : List Move)
    (labels : moves.map Move.label = otherMoves.map Move.label)
    (smooth : Smooth (Machine.step (sys.withMemory options) atomics)
      (Machine.Breaks (sys.withMemory options) atomics)
      ⟨initial (sys.withMemory options), memory⟩ moves)
    (otherSmooth : Smooth
      (Machine.step (sys.withMemory otherOptions) otherAtomics)
      (Machine.Breaks (sys.withMemory otherOptions) otherAtomics)
      ⟨initial (sys.withMemory otherOptions), otherMemory⟩ otherMoves) :
    Option.Rel (fun first second : Machine =>
        SameProtocol first.state second.state)
      (runAll (Machine.step (sys.withMemory options) atomics)
        ⟨initial (sys.withMemory options), memory⟩ moves)
      (runAll (Machine.step (sys.withMemory otherOptions) otherAtomics)
        ⟨initial (sys.withMemory otherOptions), otherMemory⟩ otherMoves) := by
  have starts : (initial (sys.withMemory options)).protocol =
      (initial (sys.withMemory otherOptions)).protocol := rfl
  have agree := (machine_commutes (sys.withMemory options) atomics).agree
    (machine_commutes (sys.withMemory otherOptions) otherAtomics) starts
    labels smooth otherSmooth
  revert agree
  cases runAll (Machine.step (sys.withMemory options) atomics)
      ⟨initial (sys.withMemory options), memory⟩ moves <;>
    cases runAll (Machine.step (sys.withMemory otherOptions) otherAtomics)
      ⟨initial (sys.withMemory otherOptions), otherMemory⟩ otherMoves
  · exact fun _ => .none
  · exact fun agree => nomatch agree
  · exact fun agree => nomatch agree
  · exact fun agree => .some (sameProtocol_of_eq (Option.some.inj agree))

/-- Whether a step does not break down in memory. -/
def Machine.sound (sys : Sys) (atomics : Atomics) (machine : Machine)
    (move : Move) : Bool :=
  (S4BXI.step sys machine.state move.label).all fun after =>
    after.halted != some (.panic .nullCopy) &&
      (performAll atomics (effects machine.state after)
        (move.write machine.memory)).isSome

theorem Machine.not_breaks {sys : Sys} {atomics : Atomics}
    (machine : Machine) (move : Move)
    (checked : machine.sound sys atomics move = true) :
    ¬Machine.Breaks sys atomics machine move := by
  rintro ⟨after, stepped, broken⟩
  rw [Machine.sound, stepped, Option.all_some, Bool.and_eq_true] at checked
  rcases broken with null | panics
  · rw [show after.halted = _ from null] at checked
    simp at checked
  · rw [panics] at checked
    simp at checked

/-- An acknowledged Put with three bytes copied at most, and without any
access to memory. -/
theorem put_payload_does_not_influence :
    Option.Rel (fun first second : Machine =>
        SameProtocol first.state second.state)
      (runAll (Machine.step ((twoNodes {} { e2eOff := false }).withMemory
          { useRealMemory := true, maxMemcpy := 3
            nodeUseRealMemory := fun _ => true })
          (integerAtomics (fun _ => 0) fun _ _ _ => none))
        ⟨initial (twoNodes {} { e2eOff := false }), fun _ => 0⟩
        (acknowledgedPut.map fun label => { label := label }))
      (runAll (Machine.step ((twoNodes {} { e2eOff := false }).withMemory {})
          (integerAtomics (fun _ => 0) fun _ _ _ => none))
        ⟨initial (twoNodes {} { e2eOff := false }), fun byte => byte⟩
        (acknowledgedPut.map fun label =>
          { label := label, write := fun _ _ => 5 })) :=
  payloads_do_not_influence_protocol (twoNodes {} { e2eOff := false })
    { useRealMemory := true, maxMemcpy := 3
      nodeUseRealMemory := fun _ => true } {} _ _ _ _ _ _ rfl
    (smooth_of_runLabels Machine.not_breaks (by decide +kernel))
    (smooth_of_runLabels Machine.not_breaks (by decide +kernel))

end S4BXI
