import S4BXI.Safety.Scope

/-!
# The shape of the messages

A request goes from the node of its descriptor to its target, its answers come
back, and the BXI ACK of a message takes the opposite way.  With quick
acknowledgements, neither a Put nor an Atomic request is answered by a message.
The queues of a node and the operations of its actors only hold messages which
belong there.
-/

namespace S4BXI

open Lib

section Shapes

variable (sys : Sys) (s : State)

/-- The request of a message. -/
def State.parent (msg : MsgId) : BxiRequest := s.reqs (s.reqOf msg)

/-- From the node of the descriptor to the target of the request. -/
structure Outward (msg : MsgId) : Prop where
  initiator : (s.msgs msg).initiator = sys.mdNid (s.parent msg).md
  target : (s.msgs msg).target = (s.parent msg).targetNid

/-- From the target of the request to the node of the descriptor. -/
structure Inward (msg : MsgId) : Prop where
  initiator : (s.msgs msg).initiator = (s.parent msg).targetNid
  target : (s.msgs msg).target = sys.mdNid (s.parent msg).md

end Shapes

/-- The requests which are acknowledged. -/
def ReqType.putLike : ReqType → Bool
  | .put | .atomic => true
  | .get | .fetchAtomic => false

/-- The type of the response to a request. -/
def ReqType.responseType : ReqType → Option MsgType
  | .put | .atomic => none
  | .get => some .ptlGetResponse
  | .fetchAtomic => some .ptlFetchAtomicResponse

/-- The messages which carry data back. -/
def MsgType.isResponse : MsgType → Bool
  | .ptlGetResponse | .ptlFetchAtomicResponse => true
  | _ => false

/-- What a message is for. -/
inductive Shape (sys : Sys) (s : State) (msg : MsgId) : Prop where
  | request (type : (s.msgs msg).type = (s.parent msg).type.msgType)
      (way : Outward sys s msg)
  | response (type : (s.parent msg).type.responseType = some (s.msgs msg).type)
      (way : Inward sys s msg)
  | ptlAck (type : (s.msgs msg).type = .ptlAck)
      (putLike : (s.parent msg).type.putLike = true)
      (slow : sys.cfg.quickAcks = false) (way : Inward sys s msg)
  | requestAck (type : (s.msgs msg).type = .e2eAck)
      (putLike : (s.parent msg).type.putLike = true)
      (slow : sys.cfg.quickAcks = false) (way : Inward sys s msg)
      (answered : MsgId) (answers : (s.msgs msg).answersMsg = some answered)
      (same : s.reqOf answered = s.reqOf msg)
      (kind : (s.msgs answered).type = (s.parent msg).type.msgType)
  | answerAck (type : (s.msgs msg).type = .e2eAck) (way : Outward sys s msg)
      (answered : MsgId) (answers : (s.msgs msg).answersMsg = some answered)
      (same : s.reqOf answered = s.reqOf msg)
      (kind : (s.parent msg).type.responseType =
          some (s.msgs answered).type ∨
        (s.msgs answered).type = .ptlAck)

/-- The messages an operation of an actor is about belong to its node and have
the type which the operation expects. -/
def Op.Shaped (s : State) (self : Actor) : Op → Prop
  | .handle msg => (s.msgs msg).target = self.nid
  | .sendAck msg type _ => (s.msgs msg).target = self.nid ∧
      ((s.msgs msg).type = .ptlPut ∨ (s.msgs msg).type = .ptlAtomic) ∧
      (type = .ptlAck ∨ type = .e2eAck)
  | .putFinish msg _ _ => (s.msgs msg).target = self.nid ∧
      (s.msgs msg).type = .ptlPut
  | .atomicFinish msg _ _ | .atomicEvents msg _ =>
      (s.msgs msg).target = self.nid ∧ (s.msgs msg).type = .ptlAtomic
  | .getFinish msg _ response => (s.msgs msg).type = .ptlGet ∧
      (s.msgs response).initiator = self.nid
  | .fetchAtomicFinish msg _ response =>
      (s.msgs msg).type = .ptlFetchAtomic ∧
      (s.msgs response).initiator = self.nid
  | .responseRest msg | .replyEvent msg => (s.msgs msg).target = self.nid ∧
      (s.msgs msg).type.isResponse = true
  | .sendBxiAck msg _ => (s.msgs msg).target = self.nid ∧
      ((s.msgs msg).type.isResponse = true ∨ (s.msgs msg).type = .ptlAck)
  | .ptlAckTail msg => (s.msgs msg).target = self.nid ∧
      (s.msgs msg).type = .ptlAck
  | .bxiAckTail msg => (s.msgs msg).target = self.nid ∧
      (s.msgs msg).type = .e2eAck
  | .txPut msg | .processTx msg | .commInit msg | .commStart msg
  | .cqAcquire _ msg => (s.msgs msg).initiator = self.nid
  | .acquireE2eEntry msg | .e2eEnqueue msg | .e2eWake msg =>
      (s.msgs msg).initiator = self.nid ∧ (s.msgs msg).type ≠ .e2eAck
  | .handlePutEnd msg => (s.msgs msg).type.isRequest = true
  | .handleResponseEnd msg => (s.msgs msg).type.isResponse = true
  | .maybeIssueGet req => (s.reqs req).type = .get
  | .maybeIssueFetchAtomic req => (s.reqs req).type = .fetchAtomic
  | _ => True

/-- The queues of a node hold messages it sends, and the E2E circuit only those
which are acknowledged. -/
structure BxiNode.Placed (msgs : MsgId → BxiMsg) (nid : Nid)
    (node : BxiNode) : Prop where
  tx : ∀ vn, ∀ msg ∈ node.txQueues vn, (msgs msg).initiator = nid
  waiting : ∀ vn, ∀ msg ∈ node.flowctrlWaitingMessages vn,
    (msgs msg).initiator = nid
  e2e : ∀ msg ∈ node.e2eQueue,
    (msgs msg).initiator = nid ∧ (msgs msg).type ≠ .e2eAck

/-- The queues hold messages which belong there. -/
structure Placed (s : State) : Prop where
  rx : ∀ nid vn, ∀ msg ∈ s.rx nid vn, (s.msgs msg).target = nid
  nodes : ∀ nid, (s.nodes nid).Placed s.msgs nid

/-- The messages, the queues and the pending operations have their shape. -/
structure Shaped (sys : Sys) (s : State) : Prop where
  msgs : ∀ msg < s.nextMsg, Shape sys s msg
  queues : Placed s
  ops : EveryPending (fun self op => op.Shaped s self) s.threads

/-! ## What is fixed -/

namespace Extends

variable {s after : State} (grows : Extends s after) {msg : MsgId}
  (old : msg < s.nextMsg)

include grows old

theorem type : (after.msgs msg).type = (s.msgs msg).type :=
  (congrArg BxiMsg.type (grows.msgs msg old) :)

theorem initiator : (after.msgs msg).initiator = (s.msgs msg).initiator :=
  (congrArg BxiMsg.initiator (grows.msgs msg old) :)

theorem target : (after.msgs msg).target = (s.msgs msg).target :=
  (congrArg BxiMsg.target (grows.msgs msg old) :)

theorem answersMsg :
    (after.msgs msg).answersMsg = (s.msgs msg).answersMsg :=
  (congrArg BxiMsg.answersMsg (grows.msgs msg old) :)

theorem reqOf : after.reqOf msg = s.reqOf msg :=
  (congrArg BxiMsg.parentRequest (grows.msgs msg old) :)

/-- The fixed fields of the request of a message. -/
theorem parent (allocated : Allocated s) :
    (after.parent msg).fixed = (s.parent msg).fixed := by
  unfold State.parent
  rw [grows.reqOf old]
  exact grows.reqs _ (allocated.parents msg old)

theorem vnOf (allocated : Allocated s) : after.vnOf msg = s.vnOf msg := by
  have same := congrArg BxiRequest.serviceVn (grows.parent old allocated)
  unfold State.vnOf BxiMsg.getVn
  rw [grows.type old,
    show (after.reqs (after.reqOf msg)).serviceVn =
      (s.reqs (s.reqOf msg)).serviceVn from same]

end Extends

section Mono

variable {sys : Sys} {s after : State}

theorem Extends.payloadSize (grows : Extends s after) {req : ReqId}
    (old : req < s.nextReq) :
    (after.reqs req).payloadSize = (s.reqs req).payloadSize :=
  (congrArg BxiRequest.payloadSize (grows.reqs req old) :)

theorem Shape.mono (grows : Extends s after) (allocated : Allocated s)
    {msg : MsgId} (old : msg < s.nextMsg) (shape : Shape sys s msg) :
    Shape sys after msg := by
  have same := grows.parent old allocated
  have sameType := congrArg BxiRequest.type same
  have sameMd := congrArg BxiRequest.md same
  have sameTarget := congrArg BxiRequest.targetNid same
  simp only [BxiRequest.fixed] at sameType sameMd sameTarget
  have outward : Outward sys s msg → Outward sys after msg := fun way =>
    ⟨by rw [grows.initiator old, sameMd, way.initiator],
      by rw [grows.target old, sameTarget, way.target]⟩
  have inward : Inward sys s msg → Inward sys after msg := fun way =>
    ⟨by rw [grows.initiator old, sameTarget, way.initiator],
      by rw [grows.target old, sameMd, way.target]⟩
  cases shape with
  | request type way =>
      exact .request (by rw [grows.type old, sameType, type]) (outward way)
  | response type way =>
      exact .response (by rw [grows.type old, sameType, type]) (inward way)
  | ptlAck type putLike slow way =>
      exact .ptlAck (by rw [grows.type old, type]) (by rw [sameType, putLike])
        slow (inward way)
  | requestAck type putLike slow way answered answers same kind =>
      have older := (allocated.answers msg old answered answers).trans old
      exact .requestAck (by rw [grows.type old, type])
        (by rw [sameType, putLike]) slow (inward way) answered
        (by rw [grows.answersMsg old, answers])
        (by rw [grows.reqOf old, grows.reqOf older, same])
        (by rw [grows.type older, sameType, kind])
  | answerAck type way answered answers same kind =>
      have older := (allocated.answers msg old answered answers).trans old
      exact .answerAck (by rw [grows.type old, type]) (outward way) answered
        (by rw [grows.answersMsg old, answers])
        (by rw [grows.reqOf old, grows.reqOf older, same])
        (by rw [grows.type older, sameType]; exact kind)

theorem Op.Shaped.mono (grows : Extends s after) {self : Actor} {op : Op}
    (within : op.Within s.bounds) (shaped : op.Shaped s self) :
    op.Shaped after self := by
  cases op <;> try exact trivial
  case maybeIssueGet req =>
      exact (congrArg BxiRequest.type (grows.reqs req within)).trans shaped
  case maybeIssueFetchAtomic req =>
      exact (congrArg BxiRequest.type (grows.reqs req within)).trans shaped
  case getFinish msg me response =>
      simpa only [Op.Shaped, grows.type within.1,
        grows.initiator within.2.2] using shaped
  case fetchAtomicFinish msg me response =>
      simpa only [Op.Shaped, grows.type within.1,
        grows.initiator within.2.2] using shaped
  case putFinish msg me fail =>
      simpa only [Op.Shaped, grows.type within.1, grows.target within.1]
        using shaped
  case atomicFinish msg me fail =>
      simpa only [Op.Shaped, grows.type within.1, grows.target within.1]
        using shaped
  case atomicEvents msg me =>
      simpa only [Op.Shaped, grows.type within.1, grows.target within.1]
        using shaped
  all_goals
    simpa only [Op.Shaped, grows.type within, grows.target within,
      grows.initiator within] using shaped

end Mono

/-! ## The messages a phase allocates -/

/-- The answer to a message, from its target back to its initiator. -/
def BxiMsg.answer (msg : BxiMsg) (type : MsgType) (fail : NiFailType)
    (answers : Option MsgId) : BxiMsg :=
  { msg.copy with
    type := type
    initiator := msg.target
    target := msg.initiator
    niFailType := fail
    answersMsg := answers }

/-- The message which an operation allocates, up to what may change. -/
inductive Creates (sys : Sys) (s : State) : Op → BxiMsg → Prop where
  | ack {msg type fail} (slow : sys.cfg.quickAcks = false) :
      Creates sys s (.sendAck msg type fail)
        ((s.msgs msg).answer type fail (some msg))
  | bxiAck {msg md} :
      Creates sys s (.sendBxiAck msg md)
        ((s.msgs msg).answer .e2eAck .ok (some msg))
  | response {msg type} {kind : ReqType} (fail : NiFailType)
      (request : (s.msgs msg).type = kind.msgType)
      (responds : kind.responseType = some type) :
      Creates sys s (.handle msg) ((s.msgs msg).answer type fail none)
  | copy {msg} : Creates sys s (.e2eWake msg) (s.msgs msg).copy

section Steps

variable {sys : Sys} {self : Actor} {s after : State}

theorem Unlinks.nextMsg {me : MeId} (unlinks : Unlinks s me after) :
    after.nextMsg = s.nextMsg := by
  cases unlinks <;> rfl

theorem Leaves.nextMsg {me : MeId} {before following : List Op}
    (leaves : Leaves s me after before following) :
    after.nextMsg = s.nextMsg := by
  cases leaves with
  | kept staying => rfl
  | unlinked eq event leaving unlinks kind => exact unlinks.nextMsg

theorem ReqType.responseType_cases {kind : ReqType}
    (fetches : kind = .get ∨ kind = .fetchAtomic) :
    ∃ type, kind.responseType = some type ∧ ∀ s msg fail,
      answering s msg fail kind = newResponse s msg type fail := by
  rcases fetches with rfl | rfl
  · exact ⟨_, rfl, fun _ _ _ => rfl⟩
  · exact ⟨_, rfl, fun _ _ _ => rfl⟩

theorem newResponse_created (s : State) (msg : MsgId) (type : MsgType)
    (fail : NiFailType) :
    (newResponse s msg type fail).nextMsg = s.nextMsg + 1 ∧
      ((newResponse s msg type fail).msgs s.nextMsg).fixed =
        ((s.msgs msg).answer type fail none).fixed := by
  refine ⟨rfl, ?_⟩
  simp [newResponse, State.newMsg, BxiMsg.answer, BxiMsg.copy, BxiMsg.fixed]

/-- The inversion of the allocation of messages. -/
theorem Phase.creates {op : Op} {new : List Op} (within : op.Within s.bounds)
    (phase : Phase sys self s op after new) :
    after.nextMsg = s.nextMsg ∨
      ∃ msg, Creates sys s op msg ∧ after.nextMsg = s.nextMsg + 1 ∧
        (after.msgs s.nextMsg).fixed = msg.fixed := by
  cases phase with
  | putFinish leaves => exact .inl leaves.nextMsg
  | getFinish memory stops leaves => exact .inl leaves.nextMsg
  | atomicEvents leaves => exact .inl leaves.nextMsg
  | fetchAtomicFinish leaves => exact .inl leaves.nextMsg
  | deferredUnlink flagged unlinks => exact .inl unlinks.nextMsg
  | unref equality drops =>
      cases drops
      exact .inl rfl
  | @respondUnmatched msg fail kind type fetches fresh absent =>
      obtain ⟨answer, responds, same⟩ := ReqType.responseType_cases fetches
      obtain ⟨next, created⟩ := newResponse_created s msg answer fail
      rw [same]
      refine .inr ⟨_, .response fail type responds, next, ?_⟩
      rw [← created]
      simp [State.modMsg, BxiMsg.fixed]
  | @matched msg pt list me fail kind effects stop type fresh found memory
      later stops =>
      have oldMsg : msg < s.nextMsg := within
      by_cases fetches : kind = .get ∨ kind = .fetchAtomic
      · obtain ⟨answer, responds, same⟩ := ReqType.responseType_cases fetches
        obtain ⟨next, created⟩ := newResponse_created s msg answer fail
        have deposited : Extends (newResponse s msg answer fail)
            ((deposit s msg pt list me fail kind).touch effects stop) := by
          unfold deposit
          rw [same]
          exact ((Extends.takeEntry _ _ _ _ _).trans
            (.receive _ _ _ _)).trans (.touch _ _ _)
        refine .inr ⟨_, .response fail type responds, ?_, ?_⟩
        · simp [State.touch, deposit, same, receive, next]
        · rw [deposited.msgs s.nextMsg (by simp [next]), created]
      · left
        cases kind with
        | put => simp [State.touch, deposit, receive, answering]
        | atomic => simp [State.touch, deposit, receive, answering]
        | get => simp at fetches
        | fetchAtomic => simp at fetches
  | @sendAck msg type fail slow =>
      have distinct : s.nextMsg ≠ msg := Nat.ne_of_gt within
      refine .inr ⟨_, .ack slow, rfl, ?_⟩
      simp [newAck, State.ref, State.modMsg, State.newMsg, distinct,
        BxiMsg.answer, BxiMsg.fixed]
  | @sendBxiAck msg md on =>
      have distinct : s.nextMsg ≠ msg := Nat.ne_of_gt within
      refine .inr ⟨_, .bxiAck, rfl, ?_⟩
      simp [newBxiAck, State.ref, State.modMsg, State.newMsg, distinct,
        BxiMsg.answer, BxiMsg.copy, BxiMsg.fixed]
  | @retransmit msg pending more =>
      refine .inr ⟨_, .copy, ?_, ?_⟩
      · unfold S4BXI.retransmit
        dsimp only
        split <;> rfl
      · unfold S4BXI.retransmit
        dsimp only
        split <;>
          simp [S4BXI.txPut, State.emit, State.modNode, State.newMsg, State.modMsg,
            BxiMsg.copy, BxiMsg.fixed]
  | _ => exact .inl rfl

/-! ## Shapes are kept -/

/-- The fixed fields of a new message, read in the state after the phase. -/
structure Fresh (s after : State) (msg : BxiMsg) : Prop where
  type : (after.msgs s.nextMsg).type = msg.type
  initiator : (after.msgs s.nextMsg).initiator = msg.initiator
  target : (after.msgs s.nextMsg).target = msg.target
  answersMsg : (after.msgs s.nextMsg).answersMsg = msg.answersMsg
  parent : after.parent s.nextMsg = after.reqs msg.parentRequest
  reqOf : after.reqOf s.nextMsg = msg.parentRequest

theorem fresh_of_fixed {msg : BxiMsg}
    (same : (after.msgs s.nextMsg).fixed = msg.fixed) : Fresh s after msg := by
  have parent : after.reqOf s.nextMsg = msg.parentRequest :=
    (congrArg BxiMsg.parentRequest same :)
  exact ⟨(congrArg BxiMsg.type same :), (congrArg BxiMsg.initiator same :),
    (congrArg BxiMsg.target same :), (congrArg BxiMsg.answersMsg same :),
    congrArg after.reqs parent, parent⟩

theorem Outward.fresh {answered : MsgId} {msg : BxiMsg}
    (way : Inward sys after answered) (fresh : Fresh s after msg)
    (initiator : msg.initiator = (after.msgs answered).target)
    (target : msg.target = (after.msgs answered).initiator)
    (parent : msg.parentRequest = after.reqOf answered) :
    Outward sys after s.nextMsg where
  initiator := by
    rw [fresh.initiator, initiator, way.target, fresh.parent, parent]
    rfl
  target := by
    rw [fresh.target, target, way.initiator, fresh.parent, parent]
    rfl

theorem Inward.fresh {answered : MsgId} {msg : BxiMsg}
    (way : Outward sys after answered) (fresh : Fresh s after msg)
    (initiator : msg.initiator = (after.msgs answered).target)
    (target : msg.target = (after.msgs answered).initiator)
    (parent : msg.parentRequest = after.reqOf answered) :
    Inward sys after s.nextMsg where
  initiator := by
    rw [fresh.initiator, initiator, way.target, fresh.parent, parent]
    rfl
  target := by
    rw [fresh.target, target, way.initiator, fresh.parent, parent]
    rfl

theorem ReqType.isRequest_msgType (kind : ReqType) :
    kind.msgType.isRequest = true := by
  cases kind <;> rfl

theorem ReqType.msgType_injective : Function.Injective ReqType.msgType := by
  intro left right equal
  cases left <;> cases right <;> simp_all [ReqType.msgType]

theorem ReqType.isResponse_responseType {kind : ReqType} {type : MsgType}
    (responds : kind.responseType = some type) : type.isResponse = true := by
  cases kind <;> simp_all [ReqType.responseType] <;> subst responds <;> rfl

/-- A request message goes outward and has the type of its request. -/
theorem Shape.of_isRequest {msg : MsgId} (shape : Shape sys s msg)
    (request : (s.msgs msg).type.isRequest = true) :
    (s.msgs msg).type = (s.parent msg).type.msgType ∧ Outward sys s msg := by
  cases shape with
  | request type way => exact ⟨type, way⟩
  | response type way =>
      have answer := ReqType.isResponse_responseType type
      cases kind : (s.msgs msg).type <;>
        simp_all [MsgType.isRequest, MsgType.isResponse]
  | ptlAck type putLike slow way => simp [type, MsgType.isRequest] at request
  | requestAck type putLike slow way answered answers same kind =>
      simp [type, MsgType.isRequest] at request
  | answerAck type way answered answers same kind =>
      simp [type, MsgType.isRequest] at request

/-- A response comes back and has the type due for its request. -/
theorem Shape.of_isResponse {msg : MsgId} (shape : Shape sys s msg)
    (response : (s.msgs msg).type.isResponse = true) :
    (s.parent msg).type.responseType = some (s.msgs msg).type ∧
      Inward sys s msg := by
  cases shape with
  | request type way =>
      rw [type] at response
      cases kind : (s.parent msg).type <;>
        simp_all [ReqType.msgType, MsgType.isResponse]
  | response type way => exact ⟨type, way⟩
  | ptlAck type putLike slow way => simp [type, MsgType.isResponse] at response
  | requestAck type putLike slow way answered answers same kind =>
      simp [type, MsgType.isResponse] at response
  | answerAck type way answered answers same kind =>
      simp [type, MsgType.isResponse] at response

/-- A Portals ACK comes back to a Put or an Atomic request. -/
theorem Shape.of_ptlAck {msg : MsgId} (shape : Shape sys s msg)
    (ack : (s.msgs msg).type = .ptlAck) :
    (s.parent msg).type.putLike = true ∧ sys.cfg.quickAcks = false ∧
      Inward sys s msg := by
  cases shape with
  | request type way =>
      rw [type] at ack
      cases kind : (s.parent msg).type <;> simp_all [ReqType.msgType]
  | response type way =>
      have answer := ReqType.isResponse_responseType type
      simp [ack, MsgType.isResponse] at answer
  | ptlAck type putLike slow way => exact ⟨putLike, slow, way⟩
  | requestAck type putLike slow way answered answers same kind =>
      simp [type] at ack
  | answerAck type way answered answers same kind => simp [type] at ack

/-- The copy of a message which has a shape and is not a BXI ACK. -/
theorem Shape.copy {msg : MsgId} {new : BxiMsg} (shape : Shape sys after msg)
    (fresh : Fresh s after new) (retried : (after.msgs msg).type ≠ .e2eAck)
    (type : new.type = (after.msgs msg).type)
    (initiator : new.initiator = (after.msgs msg).initiator)
    (target : new.target = (after.msgs msg).target)
    (parent : new.parentRequest = after.reqOf msg) :
    Shape sys after s.nextMsg := by
  have sameParent : after.parent s.nextMsg = after.parent msg := by
    rw [fresh.parent, parent]
    rfl
  have outward : Outward sys after msg → Outward sys after s.nextMsg :=
    fun way => ⟨by rw [fresh.initiator, initiator, way.initiator, sameParent],
      by rw [fresh.target, target, way.target, sameParent]⟩
  have inward : Inward sys after msg → Inward sys after s.nextMsg :=
    fun way => ⟨by rw [fresh.initiator, initiator, way.initiator, sameParent],
      by rw [fresh.target, target, way.target, sameParent]⟩
  cases shape with
  | request kind way =>
      exact .request (by rw [fresh.type, type, kind, sameParent]) (outward way)
  | response kind way =>
      exact .response (by rw [fresh.type, type, sameParent, kind]) (inward way)
  | ptlAck kind putLike slow way =>
      exact .ptlAck (by rw [fresh.type, type, kind])
        (by rw [sameParent, putLike]) slow (inward way)
  | requestAck kind => exact absurd kind retried
  | answerAck kind => exact absurd kind retried

theorem Creates.shape {op : Op} {msg : BxiMsg} (created : Creates sys s op msg)
    (grows : Extends s after) (allocated : Allocated s)
    (shaped : ∀ msg < s.nextMsg, Shape sys s msg)
    (within : op.Within s.bounds) (opShaped : op.Shaped s self)
    (fresh : Fresh s after msg) : Shape sys after s.nextMsg := by
  cases created with
  | @ack msg type fail slow =>
      have old : msg < s.nextMsg := within
      have shape := (shaped msg old).mono grows allocated old
      obtain ⟨place, kinds, types⟩ := opShaped
      have request : (after.msgs msg).type.isRequest = true := by
        rw [grows.type old]
        rcases kinds with kind | kind <;> rw [kind] <;> rfl
      obtain ⟨kind, way⟩ := shape.of_isRequest request
      have inward := Inward.fresh way fresh (grows.target old).symm
        (grows.initiator old).symm (grows.reqOf old).symm
      have parent : after.parent s.nextMsg = after.parent msg := by
        rw [fresh.parent]
        exact congrArg after.reqs (grows.reqOf old).symm
      have putLike : (after.parent s.nextMsg).type.putLike = true := by
        rw [parent]
        rw [grows.type old] at kind
        cases type : (after.parent msg).type <;>
          simp_all [ReqType.msgType, ReqType.putLike]
      rcases types with rfl | rfl
      · exact .ptlAck fresh.type putLike slow inward
      · exact .requestAck fresh.type putLike slow inward msg fresh.answersMsg
          (by rw [fresh.reqOf]; exact grows.reqOf old)
          (by rw [kind, parent])
  | @bxiAck msg md =>
      have old : msg < s.nextMsg := within
      have shape := (shaped msg old).mono grows allocated old
      obtain ⟨place, kinds⟩ := opShaped
      rw [← grows.type old] at kinds
      have parent : after.parent s.nextMsg = after.parent msg := by
        rw [fresh.parent]
        exact congrArg after.reqs (grows.reqOf old).symm
      have inward : Inward sys after msg := by
        rcases kinds with response | ack
        · exact (shape.of_isResponse response).2
        · exact (shape.of_ptlAck ack).2.2
      refine .answerAck fresh.type (Outward.fresh inward fresh
        (grows.target old).symm (grows.initiator old).symm
        (grows.reqOf old).symm) msg fresh.answersMsg
        (by rw [fresh.reqOf]; exact grows.reqOf old) ?_
      rw [parent]
      rcases kinds with response | ack
      · exact .inl (shape.of_isResponse response).1
      · exact .inr ack
  | @response msg type kind fail request responds =>
      have old : msg < s.nextMsg := within
      have shape := (shaped msg old).mono grows allocated old
      have isRequest : (after.msgs msg).type.isRequest = true := by
        rw [grows.type old, request, ReqType.isRequest_msgType]
      obtain ⟨same, way⟩ := shape.of_isRequest isRequest
      rw [grows.type old, request] at same
      have parent : after.parent s.nextMsg = after.parent msg := by
        rw [fresh.parent]
        exact congrArg after.reqs (grows.reqOf old).symm
      refine .response ?_ (Inward.fresh way fresh (grows.target old).symm
        (grows.initiator old).symm (grows.reqOf old).symm)
      rw [fresh.type, parent, ← ReqType.msgType_injective same]
      exact responds
  | @copy msg =>
      have old : msg < s.nextMsg := within
      have shape := (shaped msg old).mono grows allocated old
      exact shape.copy fresh (by rw [grows.type old]; exact opShaped.2)
        (grows.type old).symm (grows.initiator old).symm
        (grows.target old).symm (grows.reqOf old).symm

/-! ## Queues -/

theorem BxiNode.Placed.mono (grows : Extends s after) {nid : Nid}
    {node : BxiNode} (within : node.Within s.bounds)
    (placed : node.Placed s.msgs nid) : node.Placed after.msgs nid where
  tx vn msg member := by
    rw [grows.initiator (within.txQueues vn msg member)]
    exact placed.tx vn msg member
  waiting vn msg member := by
    rw [grows.initiator (within.waiting vn msg member)]
    exact placed.waiting vn msg member
  e2e msg member := by
    have old := within.e2eQueue msg member
    rw [grows.initiator old, grows.type old]
    exact placed.e2e msg member

theorem BxiNode.Placed.pushTx {msgs : MsgId → BxiMsg} {nid : Nid}
    {node : BxiNode} (placed : node.Placed msgs nid) (vn : Vn) {msg : MsgId}
    (here : (msgs msg).initiator = nid) :
    (node.pushTx vn msg).Placed msgs nid := by
  refine { placed with tx := ?_ }
  intro other queued member
  simp only [BxiNode.pushTx, Function.update_apply] at member
  split at member
  · rcases List.mem_append.mp member with earlier | new
    · exact placed.tx vn queued earlier
    · rw [List.mem_singleton.mp new]
      exact here
  · exact placed.tx other queued member

theorem BxiNode.Placed.park {msgs : MsgId → BxiMsg} {nid : Nid}
    {node : BxiNode} (placed : node.Placed msgs nid) (vn : Vn) {msg : MsgId}
    (here : (msgs msg).initiator = nid) :
    (node.park vn msg).Placed msgs nid := by
  unfold BxiNode.park
  split
  · exact placed
  · refine { placed with waiting := ?_ }
    intro other queued member
    simp only [Function.update_apply] at member
    split at member
    · rcases List.mem_append.mp member with earlier | new
      · exact placed.waiting vn queued earlier
      · rw [List.mem_singleton.mp new]
        exact here
    · exact placed.waiting other queued member

theorem BxiNode.Placed.popWaiting {msgs : MsgId → BxiMsg} {nid : Nid}
    {node : BxiNode} (placed : node.Placed msgs nid) (vn : Vn) :
    (node.popWaiting vn).Placed msgs nid := by
  refine { placed with waiting := ?_ }
  intro other queued member
  simp only [BxiNode.popWaiting, Function.update_apply] at member
  split at member
  · exact placed.waiting vn queued (List.mem_of_mem_tail member)
  · exact placed.waiting other queued member

namespace Placed

/-- The queues have not changed. -/
theorem mono (placed : Placed s) (allocated : Allocated s)
    (grows : Extends s after) (rx : after.rx = s.rx)
    (nodes : after.nodes = s.nodes) : Placed after where
  rx nid vn msg member := by
    rw [rx] at member
    rw [grows.target (allocated.rx nid vn msg member)]
    exact placed.rx nid vn msg member
  nodes nid := by
    rw [nodes]
    exact (placed.nodes nid).mono grows (allocated.nodes nid)

theorem modNode (placed : Placed s) {nid : Nid} {f : BxiNode → BxiNode}
    (keeps : (f (s.nodes nid)).Placed s.msgs nid) :
    Placed (s.modNode nid f) :=
  { placed with
    nodes := by
      intro other
      simp only [State.modNode, Function.update_apply]
      split
      · rename_i equal
        exact equal ▸ keeps
      · exact placed.nodes other }

theorem emit (placed : Placed s) (obs : Obs) : Placed (s.emit obs) :=
  { placed with }

end Placed

theorem Unlinks.queues {me : MeId} (unlinks : Unlinks s me after) :
    after.rx = s.rx ∧ after.nodes = s.nodes := by
  cases unlinks <;> exact ⟨rfl, rfl⟩

theorem Leaves.queues {me : MeId} {before following : List Op}
    (leaves : Leaves s me after before following) :
    after.rx = s.rx ∧ after.nodes = s.nodes := by
  cases leaves with
  | kept staying => exact ⟨rfl, rfl⟩
  | unlinked eq event leaving unlinks kind => exact unlinks.queues

theorem takeEntry_queues (s : State) (msg : MsgId) (pt : PtId)
    (list : PtlList) (me : MeId) :
    (takeEntry s msg pt list me).rx = s.rx ∧
      (takeEntry s msg pt list me).nodes = s.nodes := by
  cases list <;> exact ⟨rfl, rfl⟩

theorem answering_queues (s : State) (msg : MsgId) (fail : NiFailType)
    (kind : ReqType) :
    (answering s msg fail kind).rx = s.rx ∧
      (answering s msg fail kind).nodes = s.nodes := by
  cases kind <;> exact ⟨rfl, rfl⟩

theorem Phase.placed {op : Op} {new : List Op}
    (phase : Phase sys self s op after new) (allocated : Allocated s)
    (within : op.Within s.bounds) (opShaped : op.Shaped s self)
    (placed : Placed s) : Placed after := by
  have grows := phase.extends
  have setCounts : ∀ nid nodeCounts processCounts,
      Placed (s.setCounts nid nodeCounts processCounts) :=
    fun nid _ _ => placed.modNode { placed.nodes nid with }
  cases phase with
  | releaseE2eEntry on =>
      exact (placed.modNode { placed.nodes _ with }).emit _
  | creditPanic released => exact { setCounts _ _ _ with }
  | releaseCounts released => exact (setCounts _ _ _).emit _
  | @resumeLoop nid vn parked rest waiting =>
      refine placed.modNode ((placed.nodes nid).pushTx vn ?_)
      exact (placed.nodes nid).waiting vn parked (by simp [waiting])
  | resumePop waiting => exact placed.modNode ((placed.nodes _).popWaiting _)
  | respondUnmatched type fetches fresh absent =>
      obtain ⟨rx, nodes⟩ := answering_queues s _ _ _
      exact placed.mono allocated grows rx nodes
  | @matched msg pt list me fail kind effects stop type fresh found memory
      later stops =>
      obtain ⟨rx, nodes⟩ := answering_queues s msg fail kind
      obtain ⟨rxTaken, nodesTaken⟩ :=
        takeEntry_queues (answering s msg fail kind) msg pt list me
      exact placed.mono allocated grows (rxTaken.trans rx)
        (nodesTaken.trans nodes)
  | putFinish leaves =>
      exact placed.mono allocated grows leaves.queues.1 leaves.queues.2
  | getFinish memory stops leaves =>
      exact placed.mono allocated grows leaves.queues.1 leaves.queues.2
  | atomicEvents leaves =>
      exact placed.mono allocated grows leaves.queues.1 leaves.queues.2
  | fetchAtomicFinish leaves =>
      exact placed.mono allocated grows leaves.queues.1 leaves.queues.2
  | deferredUnlink flagged unlinks =>
      exact placed.mono allocated grows unlinks.queues.1 unlinks.queues.2
  | txPut =>
      exact (placed.modNode ((placed.nodes _).pushTx _ opShaped)).emit _
  | unref equality drops =>
      cases drops
      exact placed.mono allocated grows rfl rfl
  | granted subject checked => exact { setCounts _ _ _ with }
  | @refused msg nodeCounts processCounts subject checked =>
      have counted := setCounts self.nid nodeCounts processCounts
      exact counted.modNode ((counted.nodes self.nid).park _ opShaped)
  | creditsPanic subject checked => exact { setCounts _ _ _ with }
  | acquireE2eEntry left =>
      exact (placed.modNode { placed.nodes _ with }).emit _
  | @e2eEnqueue msg =>
      have counted : Placed (s.ref msg) :=
        placed.mono allocated (.ref s msg) rfl rfl
      have here : ((s.ref msg).msgs msg).initiator = self.nid ∧
          ((s.ref msg).msgs msg).type ≠ .e2eAck := by
        rw [(Extends.ref s msg).initiator within,
          (Extends.ref s msg).type within]
        exact opShaped
      refine counted.modNode { counted.nodes self.nid with e2e := ?_ }
      intro other member
      rcases List.mem_append.mp member with queued | new
      · exact (counted.nodes self.nid).e2e other queued
      · rw [List.mem_singleton.mp new]
        exact here
  | @commStart msg =>
      refine { placed with rx := ?_ }
      intro nid vn other member
      simp only [S4BXI.commStart, State.emit, Function.update_apply] at member
      split at member
      · rename_i destination
        simp only [Function.update_apply] at member
        split at member
        · rcases List.mem_append.mp member with queued | new
          · exact destination ▸ placed.rx _ _ other queued
          · rw [List.mem_singleton.mp new]
            exact destination.symm
        · exact destination ▸ placed.rx _ _ other member
      · exact placed.rx _ _ other member
  | gaveUp pending last => exact placed.modNode { placed.nodes _ with }
  | @retransmit msg pending more =>
      let counted := s.modMsg msg fun m =>
        { m with retryCount := m.retryCount + 1 }
      let copied := counted.newMsg (counted.msgs msg).copy
      have fresh : (copied.msgs s.nextMsg).initiator = self.nid := by
        simpa [copied, counted, State.newMsg, State.modMsg, BxiMsg.copy]
          using opShaped.1
      have created : Placed copied := placed.mono allocated
        ((Extends.modMsg s msg _ (by intro; rfl)).trans (.newMsg _ _)) rfl rfl
      have retried := created.modNode (f := fun node =>
        { node with e2eRetried := node.e2eRetried + 1 })
        { created.nodes self.nid with }
      unfold S4BXI.retransmit
      dsimp only
      split
      · exact (retried.modNode
          ((retried.nodes self.nid).pushTx (s.vnOf msg) fresh)).emit _
      · exact retried.modNode { retried.nodes self.nid with }
  | _ => exact placed.mono allocated grows rfl rfl

/-! ## Pending operations -/

section Plain

variable (s after : State) (self : Actor)

theorem mdCounter_shaped (req : ReqId) (md : BxiMD) (flag : Options) :
    ∀ pending ∈ mdCounter s req md flag, pending.Shaped after self := by
  rcases mdCounter_cases s req md flag with ops | ⟨ct, amount, ops⟩ <;>
    simp [ops, Op.Shaped]

theorem pciSleep_shaped (sys : Sys) (nid : Nid) (msg : MsgId) :
    ∀ pending ∈ pciSleep sys s nid msg, pending.Shaped after self := by
  rcases pciSleep_cases sys s nid msg with ops | ops <;> simp [ops, Op.Shaped]

theorem issueAck_shaped (req : ReqId) (fail : NiFailType) :
    ∀ pending ∈ issueAck s req fail, pending.Shaped after self := by
  simp only [issueAck, List.mem_append, List.mem_singleton]
  rintro pending (counter | rfl)
  · exact mdCounter_shaped s after self req _ _ pending counter
  · exact trivial

theorem issuePutLike_shaped (sys : Sys) (kind : EventKind) (me : BxiME)
    (req : ReqId) :
    ∀ pending ∈ issuePutLike sys s kind me req,
      pending.Shaped after self := by
  rcases issuePutLike_cases sys s kind me req with
    ops | ⟨queue, event, type, ops⟩ <;> simp [ops, Op.Shaped]

theorem issueFetchEvent_shaped (sys : Sys) (req : ReqId) (kind : EventKind)
    (hdr : Option Nat) :
    ∀ pending ∈ issueFetchEvent sys s req kind hdr,
      pending.Shaped after self := by
  rcases issueFetchEvent_cases sys s req kind hdr with
    ops | ⟨queue, event, type, ops⟩ <;> simp [ops, Op.Shaped]

theorem issueLink_shaped (me : MeId) :
    ∀ pending ∈ issueLink s me, pending.Shaped after self := by
  rcases issueLink_cases s me with ops | ⟨queue, event, type, ops⟩ <;>
    simp [ops, Op.Shaped]

theorem issueEvent_shaped (eq : Option EqId) (event : Event)
    (origin : Origin) :
    ∀ pending ∈ issueEvent eq event origin, pending.Shaped after self := by
  rcases issueEvent_cases eq event origin with ops | ⟨queue, ops⟩ <;>
    simp [ops, Op.Shaped]

end Plain

theorem Leaves.shaped {me : MeId} {before following : List Op}
    (leaves : Leaves s me after before following) (other : State)
    (self : Actor) :
    (∀ pending ∈ before, pending.Shaped other self) ∧
      ∀ pending ∈ following, pending.Shaped other self := by
  cases leaves with
  | kept staying => simp [Op.Shaped]
  | unlinked eq event leaving unlinks kind =>
      exact ⟨issueEvent_shaped other self eq event _, by simp⟩

theorem sendDue_shaped {msg : MsgId} {fail : NiFailType} {req : ReqId}
    {me : BxiME} {before : State}
    (target : (s.msgs msg).target = self.nid)
    (type : (s.msgs msg).type = .ptlPut ∨ (s.msgs msg).type = .ptlAtomic) :
    ∀ pending ∈ sendDue msg fail (ackDue sys before req me),
      pending.Shaped s self := by
  rcases sendDue_cases msg fail (ackDue sys before req me) with
    ops | ⟨kind, due, ops⟩
  · simp [ops]
  · simpa [ops, Op.Shaped] using ⟨target, type, ackDue_cases due⟩

theorem transmit_shaped {msg : MsgId} (here : (s.msgs msg).initiator = self.nid) :
    ∀ pending ∈ transmit s msg, pending.Shaped s self := by
  rcases transmit_cases s msg with ⟨type, ops⟩ | ops | ⟨type, ops⟩
  · simp [ops, Op.Shaped, here, type]
  · simp [ops, Op.Shaped, here]
  · have response : (s.msgs msg).type.isResponse = true := by
      rcases type with type | type <;> rw [type] <;> rfl
    simp [ops, Op.Shaped, here, response]

theorem Quiet.shaped_new {op : Op} {new : List Op}
    (quiet : Quiet sys self s op new) (shape : ∀ msg < s.nextMsg, Shape sys s msg)
    (within : op.Within s.bounds) (opShaped : op.Shaped s self) :
    ∀ pending ∈ new, pending.Shaped s self := by
  cases quiet with
  | resched | releaseOff off | resumeDone waiting | sendIssued issued
  | getIssued issued | fetchAtomicIssued issued | duplicate request known
  | unanswered type fresh absent | finished type known
  | notFlagged unflagged | responseKnown known | bxiAckOff off
  | ptlAckKnown known => simp
  | @sendEvent req =>
      rcases sendEvent_cases s req with ops | ⟨queue, event, type, ops⟩ <;>
        simp [ops, Op.Shaped]
  | @ackEvent req fail =>
      rcases ackEvent_cases s req fail with ops | ⟨queue, event, type, ops⟩ <;>
        simp [ops, Op.Shaped]
  | @unmatched msg fail type fresh absent asked =>
      have place : (s.msgs msg).target = self.nid := opShaped
      simp [Op.Shaped, place, type]
  | @atomicFinish msg me fail =>
      obtain ⟨target, type⟩ := opShaped
      simp only [S4BXI.atomicFinish, List.mem_append, List.mem_cons]
      rintro pending ((sleep | due) | rfl | sleep)
      · exact pciSleep_shaped s s self sys _ _ pending sleep
      · exact sendDue_shaped target (.inr type) pending due
      · exact ⟨target, type⟩
      · exact pciSleep_shaped s s self sys _ _ pending sleep
  | @replyEvent msg =>
      rcases replyEvent_cases s msg with ops | ⟨queue, event, type, ops⟩ <;>
        simp [ops, Op.Shaped]
  | @bxiAckTail msg =>
      rcases bxiAckTail_cases s msg with ops | ops | ⟨type, ops⟩ | ⟨type, ops⟩
      · simp [ops]
      · simp [ops, Op.Shaped]
      · simp [ops, Op.Shaped, type]
      · simp [ops, Op.Shaped, type]
  | @commInit msg =>
      have here : (s.msgs msg).initiator = self.nid := opShaped
      rcases commInit_cases sys self s msg with
        ⟨on, type, ⟨first, ops⟩ | ⟨again, ops⟩⟩ | ⟨off, ops⟩
      · simp [ops, Op.Shaped, here, type]
      · simp [ops, Op.Shaped, here, type]
      · simp [ops, Op.Shaped, here]
  | @handlePutEnd msg =>
      rcases handlePutEnd_cases s msg with ops | ops <;>
        simp [ops, Op.Shaped]
  | @handleResponseEnd msg =>
      obtain ⟨responds, way⟩ := (shape msg within).of_isResponse opShaped
      unfold State.parent at responds
      rcases handleResponseEnd_cases sys self s msg with
        ops | ⟨type, ops⟩ | ⟨type, ops⟩
      · simp [ops]
      · cases kind : (s.reqs (s.reqOf msg)).type <;>
          simp_all [Op.Shaped, ReqType.responseType]
      · cases kind : (s.reqs (s.reqOf msg)).type <;>
          simp_all [Op.Shaped, ReqType.responseType]
  | acknowledged known => simp [Op.Shaped]

/-- A message allocated by an operation leaves the node of the actor. -/
theorem Creates.initiator {op : Op} {msg : BxiMsg}
    (created : Creates sys s op msg) (opShaped : op.Shaped s self) :
    msg.initiator = self.nid := by
  cases created with
  | ack slow => exact opShaped.1
  | bxiAck => exact opShaped.1
  | response fail request responds => exact opShaped
  | copy => exact opShaped.1

/-- The operations which a phase adds have their shape. -/
theorem Phase.shaped_new {op : Op} {new : List Op}
    (phase : Phase sys self s op after new)
    (shape : ∀ msg < s.nextMsg, Shape sys s msg)
    (within : op.Within s.bounds) (opShaped : op.Shaped s self) :
    ∀ pending ∈ new, pending.Shaped after self := by
  have grows := phase.extends
  have created : after.nextMsg ≠ s.nextMsg →
      (after.msgs s.nextMsg).initiator = self.nid := by
    intro more
    rcases phase.creates within with same | ⟨msg, created, next, fixed⟩
    · exact absurd same more
    · rw [(fresh_of_fixed fixed).initiator]
      exact created.initiator opShaped
  cases phase with
  | quiet quiet => exact quiet.shaped_new shape within opShaped
  | putEvent | mdIncrementCt | meIncrementCt | releaseE2eEntry on
  | creditPanic released | resumeLoop waiting | emptyDeque waiting
  | resumePop waiting | deferredUnlink flagged unlinks | txPut
  | ackWithoutAnswer type fresh missing | unref equality drops
  | refused subject checked | creditsPanic subject checked
  | acquireE2eEntry left | e2eEnqueue | commStart | gaveUp pending last
  | retransmit pending more | retryPanic pending beyond
  | noMatchedMe found missing | appendConsumed => simp [Op.Shaped]
  | releaseCounts released => split <;> simp [Op.Shaped]
  | maybeIssueSend pending =>
      simp only [List.mem_append, List.mem_singleton]
      rintro added (counter | rfl)
      · exact mdCounter_shaped s _ self _ _ _ added counter
      · exact trivial
  | maybeIssueGet pending => exact issueFetchEvent_shaped s _ self sys _ _ _
  | maybeIssueFetchAtomic pending =>
      exact issueFetchEvent_shaped s _ self sys _ _ _
  | @respondUnmatched msg fail kind type fetches fresh absent =>
      have more : ((answering s msg fail kind).modMsg s.nextMsg fun m =>
          { m with simulatedSize := 0 }).nextMsg ≠ s.nextMsg := by
        rcases fetches with rfl | rfl <;>
          simp [answering, newResponse, State.newMsg, State.modMsg]
      simpa [Op.Shaped] using created more
  | @matched msg pt list me fail kind effects stop type fresh found memory
      later stops =>
      have place : (s.msgs msg).target = self.nid := opShaped
      rw [← grows.target within] at place
      rw [← grows.type within] at type
      have response : kind = .get ∨ kind = .fetchAtomic →
          (((deposit s msg pt list me fail kind).touch effects stop).msgs
            s.nextMsg).initiator = self.nid := by
        intro fetches
        refine created ?_
        rcases fetches with rfl | rfl <;>
          simp [State.touch, deposit, answering, newResponse, State.newMsg,
            receive]
      simp only [List.mem_append, List.mem_singleton]
      rintro added (counter | rfl)
      · rcases meCounter_cases s (s.reqOf msg) (s.mes me) with
          ops | ⟨ct, amount, ops⟩ <;> rw [ops] at counter
        · cases counter
        · rw [List.mem_singleton.mp counter]
          exact trivial
      · cases kind with
        | put => exact ⟨place, type⟩
        | atomic => exact ⟨place, type⟩
        | get => exact ⟨type, response (.inl rfl)⟩
        | fetchAtomic => exact ⟨type, response (.inr rfl)⟩
  | @handleResponse msg type =>
      have response : (s.msgs msg).type.isResponse = true := by
        rcases type with type | type <;> rw [type] <;> rfl
      have place : (s.msgs msg).target = self.nid := opShaped
      simp [Op.Shaped, releaseAnswered, State.emit, place, response]
  | @handlePtlAck msg type =>
      have place : (s.msgs msg).target = self.nid := opShaped
      simp [Op.Shaped, releaseAnswered, State.emit, place, type]
  | @handleBxiAck msg answered type fresh answers =>
      have place : (s.msgs msg).target = self.nid := opShaped
      simp [Op.Shaped, State.touch, State.modReq, place, type]
  | @quickAck msg type fail quick =>
      simp only [List.mem_cons]
      rintro added (rfl | rfl | issued)
      · exact trivial
      · exact trivial
      · exact issueAck_shaped s _ self _ _ added issued
  | sendAck slow =>
      simpa [Op.Shaped] using created (Nat.succ_ne_self s.nextMsg)
  | @putFinish msg me fail after before following leaves =>
      obtain ⟨target, type⟩ := opShaped
      rw [← grows.target within.1] at target
      rw [← grows.type within.1] at type
      obtain ⟨first, last⟩ := leaves.shaped after self
      simp only [List.mem_append]
      rintro added ((((issued | issued) | issued) | issued) | issued)
      · exact first added issued
      · exact issuePutLike_shaped s _ self sys _ _ _ added issued
      · exact last added issued
      · exact sendDue_shaped target (.inl type) added issued
      · exact pciSleep_shaped s _ self sys _ _ added issued
  | @getFinish msg me response effects stop after before following memory
      stops leaves =>
      obtain ⟨first, last⟩ := leaves.shaped after self
      simp only [List.mem_append, List.mem_singleton]
      rintro added ((issued | issued) | rfl)
      · exact first added issued
      · exact last added issued
      · exact (grows.initiator within.2.2).trans opShaped.2
  | @atomicEvents msg me after before following leaves =>
      obtain ⟨first, last⟩ := leaves.shaped after self
      simp only [List.mem_append]
      rintro added ((issued | issued) | issued)
      · exact first added issued
      · exact issuePutLike_shaped s _ self sys _ _ _ added issued
      · exact last added issued
  | @fetchAtomicFinish msg me response after before following leaves =>
      obtain ⟨first, last⟩ := leaves.shaped after self
      simp only [List.mem_append, List.mem_singleton]
      rintro added ((issued | issued) | rfl)
      · exact first added issued
      · exact last added issued
      · exact (grows.initiator within.2.2).trans opShaped.2
  | @responseRest msg fresh =>
      obtain ⟨target, type⟩ := opShaped
      simp only [List.mem_append, List.mem_cons]
      rintro added ((issued | rfl | issued) | rfl | issued)
      · exact pciSleep_shaped s _ self sys _ _ added issued
      · exact ⟨target, .inl type⟩
      · exact mdCounter_shaped s _ self _ _ _ added issued
      · exact ⟨target, type⟩
      · exact pciSleep_shaped s _ self sys _ _ added issued
  | sendBxiAck on =>
      simpa [Op.Shaped] using created (Nat.succ_ne_self s.nextMsg)
  | @ptlAckTail msg fresh =>
      simp only [List.mem_cons]
      rintro added (rfl | issued)
      · exact trivial
      · exact issueAck_shaped s _ self _ _ added issued
  | exempt free => exact transmit_shaped opShaped
  | granted subject checked => exact transmit_shaped opShaped
  | cqAcquire left => simpa [Op.Shaped] using opShaped
  | appendInsert scanned => exact issueLink_shaped s _ self _
  | @overflow me index position header matched found deposited =>
      simp only [List.cons_append, List.mem_cons, List.mem_append,
        List.not_mem_nil, or_false]
      rintro added (rfl | issued | rfl)
      · exact trivial
      · exact issueEvent_shaped _ self _ _ _ added issued
      · split <;> exact trivial

/-! ## Steps and runs -/

theorem Phase.shape {op : Op} {new : List Op}
    (phase : Phase sys self s op after new) (allocated : Allocated s)
    (shape : ∀ msg < s.nextMsg, Shape sys s msg)
    (within : op.Within s.bounds) (opShaped : op.Shaped s self) :
    ∀ msg < after.nextMsg, Shape sys after msg := by
  have grows := phase.extends
  intro msg small
  rcases phase.creates within with same | ⟨new, created, next, fixed⟩
  · exact (shape msg (same ▸ small)).mono grows allocated (same ▸ small)
  · rw [next] at small
    rcases Nat.lt_succ_iff_lt_or_eq.mp small with old | rfl
    · exact (shape msg old).mono grows allocated old
    · exact created.shape grows allocated shape within opShaped
        (fresh_of_fixed fixed)

/-- The owner of the descriptors of a request is on their node. -/
theorem Call.ownedBy_request {process : ThreadId} {cmd : Command}
    (owned : (Call.request cmd).ownedBy sys self process s = true) :
    sys.mdNid cmd.md = self.nid := by
  refine (Call.owned_interface owned ?_).2
  simp only [Call.interfaces]
  split <;> simp

theorem CallPhase.shape {process : ThreadId} {call : Call} {new : List Op}
    (phase : CallPhase sys self s call after new) (allocated : Allocated s)
    (owned : call.ownedBy sys self process s = true)
    (shape : ∀ msg < s.nextMsg, Shape sys s msg) :
    ∀ msg < after.nextMsg, Shape sys after msg := by
  have grows := phase.extends
  have kept : after.nextMsg = s.nextMsg →
      ∀ msg < after.nextMsg, Shape sys after msg := by
    intro same msg small
    exact (shape msg (same ▸ small)).mono grows allocated (same ▸ small)
  cases phase with
  | ptFree taken equality frees =>
      obtain ⟨drops, sameMes⟩ := frees
      obtain ⟨sameReqs, sameMsgs, stops⟩ := drops
      exact kept rfl
  | meUnlink free unlinks => exact kept unlinks.nextMsg
  | @request cmd =>
      intro msg small
      rcases Nat.lt_succ_iff_lt_or_eq.mp small with old | rfl
      · exact (shape msg old).mono grows allocated old
      · have parent : (ptlRequest sys self s cmd).parent s.nextMsg =
            { newRequest sys self cmd with msgRefCount := 1 } := by
          simp [State.parent, State.reqOf, ptlRequest, State.newMsg,
            newRequestMsg, newRequest]
        have created : (ptlRequest sys self s cmd).msgs s.nextMsg =
            newRequestMsg self cmd s.nextReq := by
          simp [ptlRequest, State.newMsg]
        refine .request ?_ ⟨?_, ?_⟩
        · rw [parent, created]
          rfl
        · rw [parent, created]
          exact (Call.ownedBy_request owned).symm
        · rw [parent, created]
          rfl
  | _ => exact kept rfl

theorem CallPhase.placed {call : Call} {new : List Op}
    (phase : CallPhase sys self s call after new) (allocated : Allocated s)
    (placed : Placed s) : Placed after := by
  have grows := phase.extends
  cases phase with
  | niInit => exact placed.modNode { placed.nodes _ with }
  | ptFree taken equality frees =>
      obtain ⟨drops, sameMes⟩ := frees
      obtain ⟨sameReqs, sameMsgs, stops⟩ := drops
      exact placed.mono allocated grows rfl rfl
  | meUnlink free unlinks =>
      exact placed.mono allocated grows unlinks.queues.1 unlinks.queues.2
  | _ => exact placed.mono allocated grows rfl rfl

theorem CallPhase.shaped_new {call : Call} {new : List Op}
    (phase : CallPhase sys self s call after new) :
    ∀ pending ∈ new, pending.Shaped after self := by
  cases phase with
  | appendPriority taken => simp [Op.Shaped]
  | appendOverflow taken => exact issueLink_shaped _ _ self _
  | request => simp [Op.Shaped, ptlRequest, State.newMsg, newRequestMsg]
  | _ => simp

theorem Shape.of_threads {threads : List (Thread Actor Op)} {msg : MsgId}
    (shape : Shape sys s msg) :
    Shape sys { s with threads := threads } msg := by
  cases shape with
  | request type way => exact .request type { way with }
  | response type way => exact .response type { way with }
  | ptlAck type putLike slow way => exact .ptlAck type putLike slow { way with }
  | requestAck type putLike slow way answered answers same kind =>
      exact .requestAck type putLike slow { way with } answered answers same
        kind
  | answerAck type way answered answers same kind =>
      exact .answerAck type { way with } answered answers same kind

theorem Shaped.advances {index : ThreadId} {label : Label}
    (shaped : Shaped sys s) (wellScoped : WellScoped s)
    (advances : Advances sys s index label after) : Shaped sys after := by
  have grows := advances.extends
  have allocated := wellScoped.tables
  have keptShape : after.nextMsg = s.nextMsg →
      ∀ msg < after.nextMsg, Shape sys after msg := by
    intro same msg small
    exact (shaped.msgs msg (same ▸ small)).mono grows allocated (same ▸ small)
  have keptOps : EveryPending (fun self op => op.Shaped after self)
      s.threads := fun thread member op pending =>
    (shaped.ops thread member op pending).mono grows
      (wellScoped.ops thread member op pending)
  cases advances with
  | dangling dead owner =>
      exact ⟨keptShape rfl, { shaped.queues with }, keptOps⟩
  | @run self op rest new after found alive phase =>
      have member := List.mem_of_getElem? found
      have within := wellScoped.ops _ member op (by simp)
      have opShaped := shaped.ops _ member op (by simp)
      refine ⟨fun msg small => (phase.shape allocated shaped.msgs within
          opShaped msg small).of_threads,
        { phase.placed allocated within opShaped shaped.queues with }, ?_⟩
      refine EveryPending.set keptOps fun added newMember => ?_
      rcases List.mem_append.mp newMember with new | old
      · exact phase.shaped_new shaped.msgs within opShaped added new
      · exact keptOps _ member added (List.mem_cons_of_mem _ old)
  | @recv self position msg found target queued =>
      refine ⟨keptShape rfl, { shaped.queues with rx := ?_ }, ?_⟩
      · intro nid vn other member
        simp only [State.removeRx, Function.update_apply] at member
        split at member
        · rename_i here
          simp only [Function.update_apply] at member
          split at member
          · exact (shaped.queues.rx _ _ other
              (List.mem_of_mem_eraseIdx member)).trans here.symm
          · exact (shaped.queues.rx _ _ other member).trans here.symm
        · exact shaped.queues.rx _ _ other member
      · refine EveryPending.set keptOps fun added member => ?_
        simp only [List.mem_cons, List.not_mem_nil, or_false] at member
        rcases member with rfl | rfl
        · exact shaped.queues.rx _ _ msg (List.mem_of_getElem? queued)
        · exact trivial
  | @take self msg rest found initiator queued =>
      have node := shaped.queues.nodes self.nid
      have popped : Placed (s.popTx self.nid self.vn) := by
        refine shaped.queues.modNode { node with tx := ?_ }
        intro vn other member
        simp only [BxiNode.popTx, Function.update_apply] at member
        split at member
        · exact node.tx _ other (List.mem_of_mem_tail member)
        · exact node.tx _ other member
      refine ⟨keptShape rfl, { popped with },
        EveryPending.set keptOps fun added member => ?_⟩
      rw [List.mem_singleton.mp member]
      exact node.tx self.vn msg (by simp [queued])
  | @wake self msg rest found e2e alive queued =>
      have node := shaped.queues.nodes self.nid
      have popped : Placed (s.popE2e self.nid) := by
        refine shaped.queues.modNode { node with e2e := ?_ }
        intro other member
        exact node.e2e other (List.mem_of_mem_tail member)
      refine ⟨keptShape rfl, { popped with },
        EveryPending.set keptOps fun added member => ?_⟩
      rw [List.mem_singleton.mp member]
      exact node.e2e msg (by simp [queued])
  | call found user owned alive phase =>
      exact ⟨fun msg small =>
          (phase.shape allocated owned shaped.msgs msg small).of_threads,
        { phase.placed allocated shaped.queues with },
        EveryPending.set keptOps phase.shaped_new⟩

theorem shaped_initial (sys : Sys) : Shaped sys (initial sys) := by
  refine ⟨by simp [initial], ⟨by simp [initial], fun nid => ?_⟩, ?_⟩
  · exact ⟨by simp [initial], by simp [initial], by simp [initial]⟩
  · intro thread member
    obtain ⟨actor, actorMember, rfl⟩ := List.mem_map.mp member
    simp

theorem ReachedBy.shaped {allowed : State → Label → Prop}
    (reached : ReachedBy sys allowed s) : Shaped sys s :=
  reached.invariant_of_reached (shaped_initial sys)
    fun earlier holds _ stepped => holds.advances
      (ReachedBy.wellScoped earlier) (step_advances stepped)

end Steps

end S4BXI
