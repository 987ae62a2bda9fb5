import S4BXI.Acks.Calls
import S4BXI.Flow.Commands

/-!
# The outcome of a request at both ends

The `ACK` or `REPLY` event tells the initiator whether its request was matched.
What an answer says is decided when the target handles the request, and then
travels in messages, pending operations and copies of both.
-/

namespace S4BXI

open Lib

/-! ## Outcomes -/

/-- A message of the request was matched at the target. -/
def State.Consumed (s : State) (req : ReqId) : Prop :=
  ∃ msg pt list me, Obs.consumed req msg pt list me ∈ s.log

/-- Whether an entry of the log is an access to the memory for a request. -/
def Obs.transfers (req : ReqId) : Obs → Bool
  | .memcpy other _ _ _ | .atomicOp other _ => other == req
  | _ => false

/-- Whether the handlers access the memory for a matched request. -/
def transfersData (sys : Sys) (req : BxiRequest) (me : BxiME) : Bool :=
  match req.type with
  | .get => sys.useRealMemory (sys.mdNid req.md) && me.me.length ≠ 0
  | .put | .atomic | .fetchAtomic =>
      sys.useRealMemory req.targetNid && req.md.length ≠ 0

/-- The request was matched and its data was moved. -/
def Served (sys : Sys) (s : State) (req : ReqId) : Prop :=
  ∃ msg pt list me, Obs.consumed req msg pt list me ∈ s.log ∧
    (transfersData sys (s.reqs req) (s.mes me) = true →
      ∃ obs ∈ s.log, obs.transfers req = true)

/-- Whether an event tells the initiator the outcome of its request. -/
def Event.tellsOutcome (event : Event) : Bool :=
  event.type == .ack || event.type == .reply

/-- The initiator is told that its request succeeded exactly when it was
matched, its data being moved then and only then. -/
def Agreement (sys : Sys) (s : State) : Prop :=
  ∀ eq event req, Obs.event eq event (.request req) ∈ s.log →
    event.tellsOutcome = true →
    (event.niFailType = .ok ↔ s.Consumed req) ∧
    (event.niFailType = .ok → Served sys s req) ∧
    (event.niFailType ≠ .ok → ∀ obs ∈ s.log, obs.transfers req = false)

/-! ## Refusals -/

/-- Whether an operation is about to refuse a request. -/
def Op.refuses (s : State) (req : ReqId) : Op → Bool
  | .sendAck msg _ fail => s.reqOf msg == req && fail != .ok
  | _ => false

/-- Whether an answer tells that the request was not matched, or is about to
be built. -/
def State.refused (s : State) (req : ReqId) : Bool :=
  ((List.range s.nextMsg).any fun msg =>
      s.reqOf msg == req && (s.msgs msg).niFailType != .ok) ||
    s.threads.any fun thread => thread.ops.any (Op.refuses s req)

/-- Whether the E2E circuit is about to retransmit a message. -/
def retransmits (sys : Sys) (s : State) (msg : MsgId) : Bool :=
  !decide ((s.reqs (s.reqOf msg)).processState ≥
      ackedState (s.msgs msg).type) &&
    decide ((s.msgs msg).retryCount < sys.cfg.maxRetries)

/-- The E2E circuit retransmits no answer with a failure, and no request is
matched after it was refused. -/
def steadfast (sys : Sys) (s : State) : Label → Bool
  | .run index =>
      match s.threads[index]? with
      | some ⟨_, .e2eWake msg :: _⟩ =>
          !retransmits sys s msg || (s.msgs msg).niFailType == .ok
      | some ⟨self, .handle msg :: _⟩ =>
          !(s.msgs msg).type.isRequest ||
            decide ((s.reqs (s.reqOf msg)).processState > .created) ||
            (matchEntry sys s self.nid msg).1.isNone ||
            !s.refused (s.reqOf msg)
      | _ => true
  | _ => true

def Steadfast (sys : Sys) (s : State) (label : Label) : Prop :=
  steadfast sys s label = true

instance (sys : Sys) (s : State) (label : Label) :
    Decidable (Steadfast sys s label) :=
  inferInstanceAs (Decidable (_ = true))

theorem Steadfast.retried {sys : Sys} {s : State} {index : ThreadId}
    (steadfast : Steadfast sys s (.run index)) {self : Actor} {msg : MsgId}
    {rest : List Op}
    (found : s.threads[index]? = some ⟨self, .e2eWake msg :: rest⟩)
    (pending : ¬(s.reqs (s.reqOf msg)).processState ≥
      ackedState (s.msgs msg).type)
    (more : (s.msgs msg).retryCount < sys.cfg.maxRetries) :
    (s.msgs msg).niFailType = .ok := by
  unfold Steadfast S4BXI.steadfast at steadfast
  simpa [found, retransmits, pending, more] using steadfast

theorem Steadfast.matched {sys : Sys} {s : State} {index : ThreadId}
    (steadfast : Steadfast sys s (.run index)) {self : Actor} {msg : MsgId}
    {rest : List Op}
    (found : s.threads[index]? = some ⟨self, .handle msg :: rest⟩)
    (request : (s.msgs msg).type.isRequest = true)
    (fresh : ¬(s.reqs (s.reqOf msg)).processState > .created)
    (matching : (matchEntry sys s self.nid msg).1 ≠ none) :
    s.refused (s.reqOf msg) = false := by
  unfold Steadfast S4BXI.steadfast at steadfast
  simpa [found, request, fresh, matching] using steadfast

theorem refused_iff {s : State} {req : ReqId} :
    s.refused req = true ↔
      (∃ msg < s.nextMsg, s.reqOf msg = req ∧
        (s.msgs msg).niFailType ≠ .ok) ∨
      ∃ thread ∈ s.threads, ∃ op ∈ thread.ops, op.refuses s req = true := by
  simp [State.refused]

theorem Op.refuses_iff {s : State} {req : ReqId} {op : Op} :
    op.refuses s req = true ↔ ∃ msg type fail, op = .sendAck msg type fail ∧
      s.reqOf msg = req ∧ fail ≠ .ok := by
  cases op <;> simp [Op.refuses]

/-! ## What an answer says -/

/-- `match_entry` fails exactly when it finds no entry. -/
theorem matchEntryIn_fail (sys : Sys) (s : State) (req : BxiRequest)
    (interfaces : List NiId) :
    (matchEntryIn sys s req interfaces).2 = .ok ↔
      (matchEntryIn sys s req interfaces).1 ≠ none := by
  induction interfaces with
  | nil => simp [matchEntryIn]
  | cons ni interfaces induction =>
      unfold matchEntryIn
      split
      · exact induction
      · split
        · simp
        · split
          · simp
          · split
            · simp
            · exact induction

theorem matchEntry_fail {sys : Sys} {s : State} {nid : Nid} {msg : MsgId}
    {found : Option (PtId × PtlList × MeId)} {fail : NiFailType}
    (result : matchEntry sys s nid msg = (found, fail)) :
    fail = .ok ↔ found ≠ none := by
  have fails := matchEntryIn_fail sys s (s.reqs (s.reqOf msg))
    (s.nodes nid).niHandles
  have equal : matchEntryIn sys s (s.reqs (s.reqOf msg))
    (s.nodes nid).niHandles = (found, fail) := result
  rwa [equal] at fails

/-- The request is not matched any more. -/
def Settled (s : State) (req : ReqId) : Prop :=
  s.refused req = true ∨ (s.reqs req).processState > .created

/-- What an answer says of a request is so, and stays so. -/
def Truthful (sys : Sys) (s : State) (req : ReqId) (fail : NiFailType) :
    Prop :=
  if fail = .ok then Served sys s req
  else ¬s.Consumed req ∧ Settled s req

/-- What an operation will tell of a request. -/
def Op.tells (s : State) : Op → Option (ReqId × NiFailType)
  | .sendAck msg _ fail | .putFinish msg _ fail | .atomicFinish msg _ fail =>
      some (s.reqOf msg, fail)
  | .fetchAtomicFinish msg _ _ => some (s.reqOf msg, .ok)
  | .ackEvent req fail => some (req, fail)
  | .putEvent _ event (.request req) =>
      if event.tellsOutcome then some (req, event.niFailType) else none
  | _ => none

/-- The messages which an operation has, apart from a response which waits for
its data. -/
def Op.handles : Op → List MsgId
  | .getFinish msg _ _ | .fetchAtomicFinish msg _ _ | .cqAcquire _ msg => [msg]
  | op => op.mentions

/-- A message is on its way or in the hands of an actor. -/
def Afoot (s : State) (msg : MsgId) : Prop :=
  s.traffic.Holds msg ∨
    ∃ thread ∈ s.threads, ∃ op ∈ thread.ops, msg ∈ op.handles

/-- Whether a message tells the initiator the outcome of its request. -/
def MsgType.isAnswer (type : MsgType) : Bool :=
  type == .ptlAck || type.isResponse

/-- The response of a Get or of a FetchAtomic which waits for its data. -/
def Op.Prepared (s : State) (op : Op) : Prop :=
  ∀ msg me response, op = .getFinish msg me response ∨
      op = .fetchAtomicFinish msg me response →
    (∃ pt list, Obs.consumed (s.reqOf msg) msg pt list me ∈ s.log) ∧
      s.reqOf response = s.reqOf msg ∧ (s.msgs response).niFailType = .ok

/-- The messages and the operations tell what happened. -/
structure Informed (sys : Sys) (s : State) : Prop where
  answers : ∀ msg, Afoot s msg → (s.msgs msg).type.isAnswer = true →
    Truthful sys s (s.reqOf msg) (s.msgs msg).niFailType
  ops : EveryPending (fun _ op => ∀ req fail,
    op.tells s = some (req, fail) → Truthful sys s req fail) s.threads
  prepared : EveryPending (fun _ op => op.Prepared s) s.threads

/-- So do the events which were issued, and data is moved for matched requests
only. -/
structure Recorded (sys : Sys) (s : State) : Prop where
  events : ∀ eq event req, Obs.event eq event (.request req) ∈ s.log →
    event.tellsOutcome = true → Truthful sys s req event.niFailType
  memory : ∀ obs ∈ s.log, ∀ req, obs.transfers req = true → s.Consumed req

theorem Recorded.agreement {sys : Sys} {s : State}
    (recorded : Recorded sys s) : Agreement sys s := by
  intro eq event req logged tells
  have verdict := recorded.events eq event req logged tells
  unfold Truthful at verdict
  by_cases success : event.niFailType = .ok
  · rw [if_pos success] at verdict
    obtain ⟨msg, pt, list, me, consumed, moved⟩ := verdict
    exact ⟨⟨fun _ => ⟨msg, pt, list, me, consumed⟩, fun _ => success⟩,
      fun _ => ⟨msg, pt, list, me, consumed, moved⟩,
      fun failure => absurd success failure⟩
  · rw [if_neg success] at verdict
    refine ⟨⟨fun equal => absurd equal success,
      fun consumed => absurd consumed verdict.1⟩,
      fun equal => absurd equal success, fun _ obs member => ?_⟩
    by_contra moved
    exact verdict.1
      (recorded.memory obs member req (Bool.eq_true_of_not_eq_false moved))

/-! ## What is settled stays so -/

section Steps

variable {sys : Sys} {self : Actor} {s after : State} {req : ReqId}
  {fail : NiFailType}

theorem Extends.niFailType (grows : Extends s after) {msg : MsgId}
    (old : msg < s.nextMsg) :
    (after.msgs msg).niFailType = (s.msgs msg).niFailType :=
  (congrArg BxiMsg.niFailType (grows.msgs msg old) :)

theorem transfersData_congr {first second : BxiRequest} {me entry : BxiME}
    (reqs : first.fixed = second.fixed) (mes : me.fixed = entry.fixed) :
    transfersData sys first me = transfersData sys second entry := by
  have type : first.type = second.type := (congrArg BxiRequest.type reqs :)
  have md : first.md = second.md := (congrArg BxiRequest.md reqs :)
  have target : first.targetNid = second.targetNid :=
    (congrArg BxiRequest.targetNid reqs :)
  have entries : me.me = entry.me := (congrArg BxiME.me mes :)
  unfold transfersData
  rw [type, md, target, entries]

theorem State.Consumed.mono (consumed : s.Consumed req)
    (grows : Extends s after) : after.Consumed req := by
  obtain ⟨msg, pt, list, me, logged⟩ := consumed
  exact ⟨msg, pt, list, me, grows.log.mem logged⟩

theorem Served.mono (served : Served sys s req) (grows : Extends s after)
    (allocated : Allocated s) : Served sys after req := by
  obtain ⟨msg, pt, list, me, consumed, moved⟩ := served
  obtain ⟨oldReq, oldMsg, oldPt, oldMe⟩ := allocated.log _ consumed
  have same : transfersData sys (after.reqs req) (after.mes me) =
      transfersData sys (s.reqs req) (s.mes me) :=
    transfersData_congr (grows.reqs req oldReq) (grows.mes me oldMe)
  refine ⟨msg, pt, list, me, grows.log.mem consumed, fun transfers => ?_⟩
  obtain ⟨obs, member, transferred⟩ := moved (same ▸ transfers)
  exact ⟨obs, grows.log.mem member, transferred⟩

/-- A refusal ends in an answer, or at once in the quick mode. -/
theorem Settled.run (settled : Settled s req) (wellScoped : WellScoped s)
    {index : ThreadId} {op : Op} {rest new : List Op}
    (found : s.threads[index]? = some ⟨self, op :: rest⟩)
    (phase : Phase sys self s op after new) :
    Settled { after with
      threads := s.threads.set index ⟨self, new ++ rest⟩ } req := by
  have grows := phase.extends
  have within := wellScoped.ops _ (List.mem_of_getElem? found) op (by simp)
  rcases settled with refused | known
  · rcases refused_iff.mp refused with
      ⟨msg, small, same, failed⟩ | ⟨thread, threadMember, other, member, refuses⟩
    · refine .inl (refused_iff.mpr (.inl ⟨msg, small.trans_le grows.nextMsg,
        ?_, ?_⟩))
      · exact (grows.reqOf small).trans same
      · exact fun success => failed ((grows.niFailType small).symm.trans success)
    · obtain ⟨msg, type, fail, rfl, same, failed⟩ := Op.refuses_iff.mp refuses
      have small : msg < s.nextMsg := wellScoped.ops thread threadMember _ member
      rcases mem_set_of_mem new found threadMember member with
        first | ⟨later, laterMember, kept⟩
      · subst first
        cases phase with
        | quickAck quick =>
            refine .inr ?_
            change ((s.modReq (s.reqOf msg) fun r =>
              { r with processState := .finished }).reqs req).processState > _
            rw [same]
            simp only [State.modReq, Function.update_self]
            decide
        | sendAck slow =>
            refine .inl (refused_iff.mpr (.inl ⟨s.nextMsg, Nat.lt_succ_self _,
              ?_, ?_⟩))
            · have distinct : s.nextMsg ≠ msg := Nat.ne_of_gt small
              change ((newAck s msg type fail).msgs s.nextMsg).parentRequest = _
              simpa [newAck, State.ref, State.modMsg, State.newMsg, distinct,
                BxiMsg.copy, State.reqOf] using same
            · have distinct : s.nextMsg ≠ msg := Nat.ne_of_gt small
              change ((newAck s msg type fail).msgs s.nextMsg).niFailType ≠ _
              simpa [newAck, State.ref, State.modMsg, State.newMsg, distinct]
                using failed
        | quiet quiet => cases quiet
      · refine .inl (refused_iff.mpr (.inr ⟨later, laterMember, _, kept,
          Op.refuses_iff.mpr ⟨msg, type, fail, rfl, ?_, failed⟩⟩))
        exact (grows.reqOf small).trans same
  · refine .inr ?_
    have progress := (phase.progress within req).state
    exact Nat.lt_of_lt_of_le known progress

/-- A handler logs that it matched a request, or that it got an answer. -/
theorem Phase.handle_logs {msg : MsgId} {new : List Op}
    (phase : Phase sys self s (.handle msg) after new)
    (old : msg < s.nextMsg) :
    ((s.msgs msg).type.isRequest = true ∧
      ¬(s.reqs (s.reqOf msg)).processState > .created ∧
      (matchEntry sys s self.nid msg).1 ≠ none ∧
      after.Consumed (s.reqOf msg)) ∨
    ∀ obs ∈ after.log, obs ∈ s.log ∨ obs = .answered (s.reqOf msg) := by
  cases phase with
  | @matched _ pt list me fail kind effects stop type fresh found memory later
      stops =>
      refine .inl ⟨by rw [type, ReqType.isRequest_msgType], fresh,
        by simp [found], msg, pt, list, me, ?_⟩
      change _ ∈ (deposit s msg pt list me fail kind).log ++ effects
      rw [deposit_log old]
      simp
  | quiet quiet => exact .inr fun obs member => .inl member
  | respondUnmatched type fetches fresh absent =>
      refine .inr fun obs member => .inl ?_
      change obs ∈ (answering s msg _ _).log at member
      rwa [answering_log] at member
  | handleResponse type => exact .inr (by simp [State.emit])
  | handlePtlAck type => exact .inr (by simp [State.emit])
  | ackWithoutAnswer type fresh missing =>
      exact .inr fun obs member => .inl member
  | handleBxiAck type fresh answers =>
      refine .inr fun obs member => ?_
      change obs ∈ s.log ++ _ at member
      split at member
      · simpa using member
      · rw [List.append_nil] at member
        exact .inl member

/-- Only the handler of a request which was not received yet matches it. -/
theorem Phase.consumes {op : Op} {new : List Op}
    (phase : Phase sys self s op after new) (within : op.Within s.bounds)
    (consumed : after.Consumed req) :
    s.Consumed req ∨ ∃ msg, op = .handle msg ∧ s.reqOf msg = req ∧
      (s.msgs msg).type.isRequest = true ∧
      ¬(s.reqs (s.reqOf msg)).processState > .created ∧
      (matchEntry sys s self.nid msg).1 ≠ none := by
  obtain ⟨msg, pt, list, me, logged⟩ := consumed
  obtain ⟨extra, log, emitted⟩ := phase.emits within
  have either : Obs.consumed req msg pt list me ∈ s.log ++ extra :=
    log ▸ logged
  rcases List.mem_append.mp either with before | added
  · exact .inl ⟨msg, pt, list, me, before⟩
  · cases emitted _ added with
    | consumed =>
        rcases phase.handle_logs within with
          ⟨request, fresh, matching, consumed⟩ | silent
        · exact .inr ⟨msg, rfl, rfl, request, fresh, matching⟩
        · rcases silent _ logged with before | answered
          · exact .inl ⟨msg, pt, list, me, before⟩
          · cases answered

/-- What an answer says stays true, as long as a request which was refused is
not matched later. -/
theorem Truthful.run (verdict : Truthful sys s req fail)
    (wellScoped : WellScoped s) {index : ThreadId} {op : Op}
    {rest new : List Op}
    (found : s.threads[index]? = some ⟨self, op :: rest⟩)
    (phase : Phase sys self s op after new)
    (steadfast : Steadfast sys s (.run index)) :
    Truthful sys { after with
      threads := s.threads.set index ⟨self, new ++ rest⟩ } req fail := by
  have within := wellScoped.ops _ (List.mem_of_getElem? found) op (by simp)
  unfold Truthful at verdict ⊢
  split at verdict
  · rename_i success
    rw [if_pos success]
    exact verdict.mono { phase.extends with } wellScoped.tables
  · rename_i failed
    rw [if_neg failed]
    refine ⟨fun consumed => ?_, verdict.2.run wellScoped found phase⟩
    rcases phase.consumes within consumed with
      before | ⟨msg, rfl, rfl, request, fresh, matching⟩
    · exact verdict.1 before
    · rcases verdict.2 with refused | known
      · rw [steadfast.matched found request fresh matching] at refused
        cases refused
      · exact fresh known

/-! ## What the operations tell -/

theorem ackEvent_tells {added : Op}
    (member : added ∈ ackEvent s req fail) {other : ReqId}
    {outcome : NiFailType} (tells : added.tells s = some (other, outcome)) :
    other = req ∧ outcome = fail := by
  unfold ackEvent at member
  dsimp only at member
  split at member
  · unfold issueEvent at member
    split at member
    · cases member
    · rw [List.mem_singleton.mp member] at tells
      simpa [Op.tells, Event.tellsOutcome, eq_comm] using tells
  · cases member

theorem replyEvent_tells {added : Op} {msg : MsgId}
    (member : added ∈ replyEvent s msg) {other : ReqId}
    {outcome : NiFailType} (tells : added.tells s = some (other, outcome)) :
    other = s.reqOf msg ∧ outcome = (s.msgs msg).niFailType := by
  unfold replyEvent issueEvent at member
  dsimp only at member
  split at member
  · cases member
  · rw [List.mem_singleton.mp member] at tells
    simpa [Op.tells, Event.tellsOutcome, eq_comm] using tells

/-- Where an operation has what it leaves to be told: from its own
arguments, from an answer, or from the entry it found. -/
inductive Told (sys : Sys) (self : Actor) (s : State) :
    Op → ReqId → NiFailType → Prop where
  | kept {op req fail} (tells : op.tells s = some (req, fail)) :
      Told sys self s op req fail
  | acked {msg} :
      Told sys self s (.ptlAckTail msg) (s.reqOf msg) (s.msgs msg).niFailType
  | replied {msg} :
      Told sys self s (.replyEvent msg) (s.reqOf msg) (s.msgs msg).niFailType
  | found {msg pt list me}
      (request : (s.msgs msg).type.isRequest = true)
      (fetches : (s.msgs msg).type ≠ .ptlGet)
      (fresh : ¬(s.reqs (s.reqOf msg)).processState > .created)
      (matching : matchEntry sys s self.nid msg = (some (pt, list, me), .ok)) :
      Told sys self s (.handle msg) (s.reqOf msg) .ok

/-- The handler of a Put which finds no entry refuses it. -/
structure Refuses (sys : Sys) (self : Actor) (s : State) (op added : Op)
    (req : ReqId) (fail : NiFailType) (msg : MsgId) : Prop where
  op : op = .handle msg
  added : added = .sendAck msg .ptlAck fail
  req : req = s.reqOf msg
  failed : fail ≠ .ok
  fresh : ¬(s.reqs (s.reqOf msg)).processState > .created
  absent : matchEntry sys s self.nid msg = (none, fail)

/-- The handler of a request which was received already does nothing. -/
theorem Phase.fresh_of_new {msg : MsgId} {new : List Op} {added : Op}
    (phase : Phase sys self s (.handle msg) after new)
    (request : (s.msgs msg).type.isRequest = true) (member : added ∈ new) :
    ¬(s.reqs (s.reqOf msg)).processState > .created := by
  cases phase with
  | matched _ fresh => exact fresh
  | respondUnmatched _ _ fresh => exact fresh
  | quiet quiet =>
      cases quiet with
      | unmatched _ fresh => exact fresh
      | _ => cases member
  | handleResponse type =>
      rcases type with type | type <;>
        simp [type, MsgType.isRequest] at request
  | handlePtlAck type => simp [type, MsgType.isRequest] at request
  | ackWithoutAnswer type => simp [type, MsgType.isRequest] at request
  | handleBxiAck type => simp [type, MsgType.isRequest] at request

theorem Phase.told {op : Op} {new : List Op}
    (phase : Phase sys self s op after new) {added : Op} (member : added ∈ new)
    (tells : added.tells s = some (req, fail)) :
    Told sys self s op req fail ∨
      ∃ msg, Refuses sys self s op added req fail msg := by
  cases phase.follows added member with
  | putAck type =>
      cases phase with
      | quiet quiet =>
          cases quiet with
          | ackEvent =>
              obtain ⟨rfl, rfl⟩ := ackEvent_tells member tells
              exact .inl (.kept rfl)
  | putReply type =>
      cases phase with
      | quiet quiet =>
          cases quiet with
          | replyEvent =>
              obtain ⟨rfl, rfl⟩ := replyEvent_tells member tells
              exact .inl .replied
  | @unmatchedAck msg failure type =>
      simp only [Op.tells, Option.some.injEq, Prod.mk.injEq] at tells
      obtain ⟨rfl, rfl⟩ := tells
      cases phase with
      | quiet quiet =>
          cases quiet with
          | @unmatched _ outcome kind fresh absent asked =>
              obtain rfl : failure = outcome := by simpa using member
              refine .inr ⟨msg, rfl, rfl, rfl, fun success => ?_, fresh, absent⟩
              exact (matchEntry_fail absent).mp success rfl
          | _ => simp at member
      | respondUnmatched => simp at member
      | @matched _ pt list me failure kind effects stop type fresh found
          memory later stops =>
          exfalso
          rcases List.mem_append.mp member with counter | finish
          · rcases meCounter_cases s (s.reqOf msg) (s.mes me) with
              ops | ⟨ct, amount, ops⟩ <;> simp [ops] at counter
          · cases kind <;> simp [finishing] at finish
      | _ => simp [releaseAnswered] at member
  | @matched msg pt list me failure kind type found =>
      obtain rfl : failure = .ok := (matchEntry_fail found).mpr (by simp)
      have request : (s.msgs msg).type.isRequest = true := by
        rw [type, ReqType.isRequest_msgType]
      have fresh := phase.fresh_of_new request member
      cases kind with
      | get => cases tells
      | _ =>
          simp only [finishing, Op.tells, Option.some.injEq,
            Prod.mk.injEq] at tells
          obtain ⟨rfl, rfl⟩ := tells
          exact .inl (.found request (by simp [type, ReqType.msgType]) fresh
            found)
  | @quickAck msg type failure quick =>
      simp only [Op.tells, Option.some.injEq, Prod.mk.injEq] at tells
      obtain ⟨rfl, rfl⟩ := tells
      exact .inl (.kept rfl)
  | @putAcked msg me failure type due =>
      simp only [Op.tells, Option.some.injEq, Prod.mk.injEq] at tells
      obtain ⟨rfl, rfl⟩ := tells
      exact .inl (.kept rfl)
  | @atomicAcked msg me failure type due =>
      simp only [Op.tells, Option.some.injEq, Prod.mk.injEq] at tells
      obtain ⟨rfl, rfl⟩ := tells
      exact .inl (.kept rfl)
  | ackedEvent =>
      simp only [Op.tells, Option.some.injEq, Prod.mk.injEq] at tells
      obtain ⟨rfl, rfl⟩ := tells
      exact .inl .acked
  | releaseAnswered => cases tells
  | _ => simp_all [Op.tells, Event.tellsOutcome]

/-- The operations which are added are about messages the operation has. -/
theorem Follows.tells_congr {op added : Op}
    (follows : Follows sys self s op added) (within : op.Within s.bounds)
    (grows : Extends s after) : added.tells after = added.tells s := by
  cases follows with
  | @matched msg pt list me failure kind type found =>
      cases kind <;> simp only [finishing, Op.tells, grows.reqOf within]
  | unmatchedAck => simp only [Op.tells, grows.reqOf within]
  | putAcked => simp only [Op.tells, grows.reqOf within.1]
  | atomicAcked => simp only [Op.tells, grows.reqOf within.1]
  | _ => rfl

/-- What is told is about allocated requests. -/
theorem Op.Within.tells {op : Op} (within : op.Within s.bounds)
    (tells : op.tells s = some (req, fail)) (allocated : Allocated s) :
    req < s.nextReq := by
  cases op with
  | sendAck msg type outcome =>
      cases tells
      exact allocated.parents msg within
  | putFinish msg me outcome =>
      cases tells
      exact allocated.parents msg within.1
  | atomicFinish msg me outcome =>
      cases tells
      exact allocated.parents msg within.1
  | fetchAtomicFinish msg me response =>
      cases tells
      exact allocated.parents msg within.1
  | ackEvent other outcome =>
      cases tells
      exact within
  | putEvent eq event origin =>
      cases origin with
      | request other =>
          simp only [Op.tells] at tells
          split at tells
          · cases tells
            exact within
          · cases tells
      | _ => cases tells
  | _ => cases tells

theorem Op.tells_congr (grows : Extends s after) {op : Op}
    (within : op.Within s.bounds) : op.tells after = op.tells s := by
  cases op with
  | sendAck msg type fail => simp only [Op.tells, grows.reqOf within]
  | putFinish msg me fail => simp only [Op.tells, grows.reqOf within.1]
  | atomicFinish msg me fail => simp only [Op.tells, grows.reqOf within.1]
  | fetchAtomicFinish msg me response =>
      simp only [Op.tells, grows.reqOf within.1]
  | putEvent eq event origin => cases origin <;> rfl
  | _ => rfl

/-! ## Matched requests -/

/-- A matched request has been received. -/
theorem Solvent.known (solvent : Solvent sys s) (wellScoped : WellScoped s)
    (consumed : s.Consumed req) : (s.reqs req).processState > .created := by
  obtain ⟨msg, pt, list, me, logged⟩ := consumed
  have old : req < s.nextReq := (wellScoped.tables.log _ logged).1
  have achieved : 0 < s.achieved .consumed req :=
    List.countP_pos_iff.mpr ⟨_, logged, by simp [Obs.achieves]⟩
  rcases solvent .consumed req old with enough | ⟨acked, _⟩
  · by_contra fresh
    simp only [State.account, BxiRequest.allows, fresh, decide_false,
      Bool.toNat_false] at enough
    omega
  · cases acked

/-- What the handler which finds an entry does. -/
theorem Phase.of_found {msg : MsgId} {new : List Op}
    (phase : Phase sys self s (.handle msg) after new)
    (request : (s.msgs msg).type.isRequest = true)
    (fresh : ¬(s.reqs (s.reqOf msg)).processState > .created) {pt : PtId}
    {list : PtlList} {me : MeId}
    (found : matchEntry sys s self.nid msg = (some (pt, list, me), fail)) :
    ∃ kind effects stop, (s.msgs msg).type = kind.msgType ∧
      after = (deposit s msg pt list me fail kind).touch effects stop ∧
      new = meCounter s (s.reqOf msg) (s.mes me) ++
        [finishing msg me fail s.nextMsg kind] := by
  cases phase with
  | @matched _ pt' list' me' fail' kind effects stop type _ found' memory
      later stops =>
      rw [found] at found'
      cases found'
      exact ⟨kind, effects, stop, type, rfl, rfl⟩
  | quiet quiet =>
      cases quiet with
      | duplicate _ known => exact absurd known fresh
      | unmatched _ _ absent => simp [found] at absent
      | unanswered _ _ absent => simp [found] at absent
      | finished type => simp [type, MsgType.isRequest] at request
  | respondUnmatched _ _ _ absent => simp [found] at absent
  | handleResponse type =>
      rcases type with type | type <;>
        simp [type, MsgType.isRequest] at request
  | handlePtlAck type => simp [type, MsgType.isRequest] at request
  | ackWithoutAnswer type => simp [type, MsgType.isRequest] at request
  | handleBxiAck type => simp [type, MsgType.isRequest] at request

theorem Phase.found_consumed {msg : MsgId} {new : List Op}
    (phase : Phase sys self s (.handle msg) after new)
    (old : msg < s.nextMsg) (request : (s.msgs msg).type.isRequest = true)
    (fresh : ¬(s.reqs (s.reqOf msg)).processState > .created) {pt : PtId}
    {list : PtlList} {me : MeId}
    (found : matchEntry sys s self.nid msg = (some (pt, list, me), fail)) :
    Obs.consumed (s.reqOf msg) msg pt list me ∈ after.log := by
  obtain ⟨kind, effects, stop, type, rfl, ops⟩ :=
    phase.of_found request fresh found
  change _ ∈ (deposit s msg pt list me fail kind).log ++ effects
  rw [deposit_log old]
  simp

theorem cappedMemcpy_transfers {dest src : Addr} {count : Size}
    (running : (cappedMemcpy sys s req dest src count).halted = none) :
    ∃ obs ∈ (cappedMemcpy sys s req dest src count).log,
      obs.transfers req = true := by
  unfold cappedMemcpy at running ⊢
  dsimp only at running ⊢
  split
  · rename_i null
    rw [if_pos null] at running
    cases running
  · exact ⟨_, List.mem_append_right _ (List.mem_singleton_self _),
      by simp [Obs.transfers]⟩

theorem Unlinks.running {me : MeId} (unlinks : Unlinks s me after)
    (running : after.halted = none) : s.halted = none := by
  cases unlinks with
  | deferred used => exact running
  | removed free linked => exact running
  | notLinked free absent => cases running

theorem Leaves.running {me : MeId} {before following : List Op}
    (leaves : Leaves s me after before following)
    (running : after.halted = none) : s.halted = none := by
  cases leaves with
  | kept staying => exact running
  | unlinked eq event leaving unlinks kind => exact unlinks.running running

/-- The data of a matched Put, Atomic or FetchAtomic is moved at once. -/
theorem served_by_handler {msg : MsgId} {segment : Segment}
    (executed : exec sys self s (.handle msg) = some segment)
    (running : segment.1.halted = none) (old : msg < s.nextMsg)
    (allocated : Allocated s) (shape : Shape sys s msg)
    (here : (s.msgs msg).target = self.nid)
    (request : (s.msgs msg).type.isRequest = true)
    (fetches : (s.msgs msg).type ≠ .ptlGet)
    (fresh : ¬(s.reqs (s.reqOf msg)).processState > .created) {pt : PtId}
    {list : PtlList} {me : MeId}
    (found : matchEntry sys s self.nid msg = (some (pt, list, me), fail)) :
    Served sys segment.1 (s.reqOf msg) := by
  have phase := exec_phase executed
  have grows := phase.extends
  obtain ⟨kind, way⟩ := shape.of_isRequest request
  have consumed := phase.found_consumed old request fresh found
  refine ⟨msg, pt, list, me, consumed, fun transfers => ?_⟩
  have parent : s.reqOf msg < s.nextReq := allocated.parents msg old
  have entry : me < s.nextMe :=
    (allocated.matched (matched_of_matchEntry found)).2
  rw [transfersData_congr (grows.reqs _ parent) (grows.mes _ entry)]
    at transfers
  have target : (s.reqs (s.reqOf msg)).targetNid = self.nid := by
    rw [← here]
    exact way.target.symm
  have deposited : ∀ copied, ((receive (takeEntry s msg pt list me) msg me
      copied).reqs (s.reqOf msg)).md = (s.reqs (s.reqOf msg)).md := by
    intro copied
    have steps := (Extends.takeEntry s msg pt list me).trans
      (Extends.receive _ msg me copied)
    exact (congrArg BxiRequest.md (steps.reqs _ parent) :)
  have accessed : (s.reqs (s.reqOf msg)).type ≠ .get →
      (sys.useRealMemory self.nid &&
        decide ((s.reqs (s.reqOf msg)).md.length ≠ 0)) = true := by
    intro other
    unfold transfersData at transfers
    rw [target] at transfers
    cases type : (s.reqs (s.reqOf msg)).type <;> simp_all
  simp only [exec, Option.some.injEq] at executed
  subst executed
  cases type : (s.reqs (s.reqOf msg)).type with
  | put =>
      have put : (s.msgs msg).type = .ptlPut := kind.trans (by
        rw [show (s.parent msg).type = .put from type]; rfl)
      simp only [handleMsg, put, handlePutRequest, fresh, if_false, found]
        at running ⊢
      rw [if_pos (by rw [deposited]; exact accessed (by simp [type]))]
        at running ⊢
      exact cappedMemcpy_transfers running
  | atomic =>
      have atomic : (s.msgs msg).type = .ptlAtomic := kind.trans (by
        rw [show (s.parent msg).type = .atomic from type]; rfl)
      simp only [handleMsg, atomic, handleAtomicRequest, fresh, if_false,
        found]
      rw [if_pos (by rw [deposited]; exact accessed (by simp [type]))]
      exact ⟨_, List.mem_append_right _ (List.mem_singleton_self _),
        by simp [Obs.transfers]⟩
  | get =>
      have get : (s.msgs msg).type = .ptlGet := kind.trans (by
        rw [show (s.parent msg).type = .get from type]; rfl)
      exact absurd get fetches
  | fetchAtomic =>
      have fetch : (s.msgs msg).type = .ptlFetchAtomic := kind.trans (by
        rw [show (s.parent msg).type = .fetchAtomic from type]; rfl)
      simp only [handleMsg, fetch, handleFetchAtomicRequest, fresh, if_false,
        found]
      unfold fetchAtomicMemory
      dsimp only
      rw [if_pos]
      · exact ⟨_, List.mem_append_right _ (List.mem_singleton_self _),
          by simp [Obs.transfers]⟩
      · have steps := ((Extends.newMsg s _).trans (Extends.takeEntry
          (newResponse s msg .ptlFetchAtomicResponse fail) msg pt list
          me)).trans (Extends.receive _ msg me true)
        have same := congrArg BxiRequest.md (steps.reqs _ parent)
        simp only [BxiRequest.fixed] at same
        rw [same]
        exact accessed (by simp [type])

/-- The data of a Get is moved before its response is sent. -/
theorem served_by_getFinish {msg response : MsgId} {me : MeId}
    {segment : Segment}
    (executed : exec sys self s (.getFinish msg me response) = some segment)
    (running : segment.1.halted = none) (allocated : Allocated s)
    (type : (s.reqs (s.reqOf msg)).type = .get) {pt : PtId} {list : PtlList}
    (consumed : Obs.consumed (s.reqOf msg) msg pt list me ∈ s.log) :
    Served sys segment.1 (s.reqOf msg) := by
  have grows := (exec_phase executed).extends
  obtain ⟨oldReq, oldMsg, oldPt, oldMe⟩ := allocated.log _ consumed
  refine ⟨msg, pt, list, me, grows.log.mem consumed, fun transfers => ?_⟩
  rw [transfersData_congr (grows.reqs _ oldReq) (grows.mes _ oldMe)]
    at transfers
  simp only [transfersData, type] at transfers
  simp only [exec, Option.some.injEq] at executed
  subst executed
  simp only [getFinish] at running ⊢
  rw [if_pos (by exact transfers)] at running ⊢
  obtain ⟨before, following, leaves, ops⟩ := leaves_leaveEntry
    (cappedMemcpy sys (s.modMsg response fun m =>
      { m with simulatedSize := (s.reqs (s.reqOf msg)).mlength })
      (s.reqOf msg) (add64 (s.reqs (s.reqOf msg)).md.start
        (s.reqs (s.reqOf msg)).localOffset) (s.reqs (s.reqOf msg)).start
      (s.reqs (s.reqOf msg)).mlength) me []
  rw [leaves.log]
  exact cappedMemcpy_transfers (leaves.running running)

/-! ## Messages on their way -/

/-- The responses which an operation still holds back. -/
def Op.HoldsBack (op : Op) (response : MsgId) : Prop :=
  ∃ msg me, op = .getFinish msg me response ∨
    op = .fetchAtomicFinish msg me response

theorem Op.handles_of_mentions {op : Op} {msg : MsgId}
    (mentioned : msg ∈ op.mentions) :
    msg ∈ op.handles ∨ op.HoldsBack msg := by
  cases op with
  | getFinish other me response =>
      rcases List.mem_cons.mp mentioned with rfl | held
      · exact .inl (by simp [Op.handles])
      · rw [List.mem_singleton.mp held]
        exact .inr ⟨other, me, .inl rfl⟩
  | fetchAtomicFinish other me response =>
      rcases List.mem_cons.mp mentioned with rfl | held
      · exact .inl (by simp [Op.handles])
      · rw [List.mem_singleton.mp held]
        exact .inr ⟨other, me, .inr rfl⟩
  | cqAcquire ni other => cases mentioned
  | _ => exact .inl mentioned

theorem Follows.handles {op added : Op} (follows : Follows sys self s op added)
    {msg : MsgId} (handled : msg ∈ added.handles) :
    msg ∈ op.handles ∨ msg = s.nextMsg ∨ op.HoldsBack msg := by
  cases follows with
  | @matched other pt list me failure kind type found =>
      cases kind <;> simp_all [finishing, Op.handles, Op.mentions]
  | releaseAnswered => cases handled
  | getRespond =>
      exact .inr (.inr ⟨_, _, .inl (by
        rw [List.mem_singleton.mp handled])⟩)
  | fetchRespond =>
      exact .inr (.inr ⟨_, _, .inr (by
        rw [List.mem_singleton.mp handled])⟩)
  | _ => simp_all [Op.handles, Op.mentions]

theorem Op.Within.handles {bounds : Bounds} {op : Op}
    (within : op.Within bounds) : ∀ msg ∈ op.handles, msg < bounds.msg := by
  intro msg handled
  cases op with
  | getFinish other me response =>
      exact List.mem_singleton.mp handled ▸ within.1
  | fetchAtomicFinish other me response =>
      exact List.mem_singleton.mp handled ▸ within.1
  | cqAcquire ni other => exact List.mem_singleton.mp handled ▸ within
  | _ => exact within.mentions msg handled

theorem Afoot.allocated {msg : MsgId} (afoot : Afoot s msg)
    (wellScoped : WellScoped s) : msg < s.nextMsg := by
  rcases afoot with held | ⟨thread, threadMember, op, member, handled⟩
  · exact wellScoped.held held
  · exact (wellScoped.ops thread threadMember op member).handles msg handled

/-- A message which gets on its way was allocated or held back by the operation
which runs. -/
theorem Afoot.of_run {index : ThreadId} {op : Op} {rest new : List Op}
    {msg : MsgId} (afoot : Afoot { after with
      threads := s.threads.set index ⟨self, new ++ rest⟩ } msg)
    (wellScoped : WellScoped s)
    (found : s.threads[index]? = some ⟨self, op :: rest⟩)
    (phase : Phase sys self s op after new) (running : after.halted = none) :
    Afoot s msg ∨ msg = s.nextMsg ∨ op.HoldsBack msg := by
  have runs := List.mem_of_getElem? found
  have within := wellScoped.ops _ runs op (by simp)
  have inHands : msg ∈ op.handles → Afoot s msg := fun handled =>
    .inr ⟨_, runs, op, by simp, handled⟩
  rcases afoot with held | ⟨thread, threadMember, other, member, handled⟩
  · rcases (phase.carries within).holds running held with
      before | mentioned | fresh
    · exact .inl (.inl before)
    · rcases Op.handles_of_mentions mentioned with handled | back
      · exact .inl (inHands handled)
      · exact .inr (.inr back)
    · exact .inr (.inl fresh)
  · rcases mem_set_append threadMember member with
      added | ⟨before, beforeMember, kept⟩
    · rcases (phase.follows other added).handles handled with
        earlier | fresh | back
      · exact .inl (inHands earlier)
      · exact .inr (.inl fresh)
      · exact .inr (.inr back)
    · rcases List.mem_or_eq_of_mem_set beforeMember with old | rfl
      · exact .inl (.inr ⟨before, old, other, kept, handled⟩)
      · exact .inl (.inr ⟨_, runs, other, List.mem_cons_of_mem _ kept,
          handled⟩)

/-- The response of a matched request waits for its data. -/
theorem not_afoot_of_found {msg : MsgId} {index : ThreadId}
    {rest new : List Op} (wellScoped : WellScoped s)
    (stacked : s.threads[index]? = some ⟨self, .handle msg :: rest⟩)
    (phase : Phase sys self s (.handle msg) after new)
    (running : after.halted = none)
    (request : (s.msgs msg).type.isRequest = true)
    (fresh : ¬(s.reqs (s.reqOf msg)).processState > .created) {pt : PtId}
    {list : PtlList} {me : MeId}
    (found : matchEntry sys s self.nid msg = (some (pt, list, me), fail)) :
    ¬Afoot { after with
      threads := s.threads.set index ⟨self, new ++ rest⟩ } s.nextMsg := by
  have runs := List.mem_of_getElem? stacked
  have within := wellScoped.ops _ runs (.handle msg) (by simp)
  rintro (held | ⟨thread, threadMember, op, member, handled⟩)
  · have traffic : after.traffic = s.traffic := by
      cases phase.carries within with
      | still idle nothing traffic silent => exact traffic
      | stop halted => exact absurd running halted
    change after.traffic.Holds s.nextMsg at held
    rw [traffic] at held
    exact Nat.lt_irrefl _ (wellScoped.held held)
  · rcases mem_set_append threadMember member with
      added | ⟨before, beforeMember, kept⟩
    · obtain ⟨kind, effects, stop, type, equal, ops⟩ :=
        phase.of_found request fresh found
      have old : msg < s.nextMsg := within
      have later : s.nextMsg ≠ msg := Nat.ne_of_gt old
      rw [ops] at added
      rcases List.mem_append.mp added with counter | finish
      · rcases meCounter_cases s (s.reqOf msg) (s.mes me) with
          none | ⟨ct, amount, one⟩
        · simp [none] at counter
        · rw [one, List.mem_singleton] at counter
          subst counter
          cases handled
      · rw [List.mem_singleton.mp finish] at handled
        cases kind <;> simp_all [finishing, Op.handles, Op.mentions]
    · rcases List.mem_or_eq_of_mem_set beforeMember with old | rfl
      · exact Nat.lt_irrefl _
          ((wellScoped.ops before old op kept).handles _ handled)
      · exact Nat.lt_irrefl _ ((wellScoped.ops _ runs op
          (List.mem_cons_of_mem _ kept)).handles _ handled)

/-- The response which a handler has allocated for a matched request. -/
theorem deposit_response {msg : MsgId} {pt : PtId} {list : PtlList}
    {me : MeId} {kind : ReqType} (effects : List Obs) (stop : Option Halt)
    (fetches : kind = .get ∨ kind = .fetchAtomic) :
    ((deposit s msg pt list me fail kind).touch effects stop).reqOf
        s.nextMsg = s.reqOf msg ∧
      (((deposit s msg pt list me fail kind).touch effects stop).msgs
        s.nextMsg).niFailType = fail := by
  obtain ⟨answer, responds, same⟩ := ReqType.responseType_cases fetches
  obtain ⟨next, created⟩ := newResponse_created s msg answer fail
  have deposited : Extends (newResponse s msg answer fail)
      ((deposit s msg pt list me fail kind).touch effects stop) := by
    unfold deposit
    rw [same]
    exact ((Extends.takeEntry _ _ _ _ _).trans
      (.receive _ _ _ _)).trans (.touch _ _ _)
  have fixed := (deposited.msgs s.nextMsg (by simp [next])).trans created
  exact ⟨(congrArg BxiMsg.parentRequest fixed :),
    (congrArg BxiMsg.niFailType fixed :)⟩

/-- A response is held back by the handler which found an entry. -/
theorem Follows.holdsBack {op added : Op}
    (follows : Follows sys self s op added) {msg response : MsgId} {me : MeId}
    (back : added = .getFinish msg me response ∨
      added = .fetchAtomicFinish msg me response) :
    op = .handle msg ∧ response = s.nextMsg ∧
      ∃ pt list kind, (s.msgs msg).type = ReqType.msgType kind ∧
        (kind = .get ∨ kind = .fetchAtomic) ∧
        matchEntry sys s self.nid msg = (some (pt, list, me), .ok) := by
  cases follows with
  | @matched other pt list entry failure kind type found =>
      obtain rfl : failure = .ok := (matchEntry_fail found).mpr (by simp)
      cases kind with
      | get =>
          simp only [finishing, Op.getFinish.injEq, reduceCtorEq,
            or_false] at back
          obtain ⟨rfl, rfl, rfl⟩ := back
          exact ⟨rfl, rfl, pt, list, .get, type, .inl rfl, found⟩
      | fetchAtomic =>
          simp only [finishing, Op.fetchAtomicFinish.injEq, reduceCtorEq,
            false_or] at back
          obtain ⟨rfl, rfl, rfl⟩ := back
          exact ⟨rfl, rfl, pt, list, .fetchAtomic, type, .inr rfl, found⟩
      | _ => simp [finishing] at back
  | releaseAnswered => simp [S4BXI.releaseAnswered] at back
  | _ => simp at back

theorem Phase.prepared_new {op : Op} {new : List Op}
    (phase : Phase sys self s op after new) (within : op.Within s.bounds)
    {added : Op} (member : added ∈ new) : added.Prepared after := by
  intro msg me response back
  obtain ⟨rfl, rfl, pt, list, kind, type, fetches, found⟩ :=
    (phase.follows added member).holdsBack back
  have old : msg < s.nextMsg := within
  have request : (s.msgs msg).type.isRequest = true := by
    rw [type, ReqType.isRequest_msgType]
  have fresh := phase.fresh_of_new request member
  have same : after.reqOf msg = s.reqOf msg := phase.extends.reqOf old
  refine ⟨⟨pt, list, ?_⟩, ?_⟩
  · rw [same]
    exact phase.found_consumed old request fresh found
  · rw [same]
    obtain ⟨kind', effects, stop, type', rfl, ops⟩ :=
      phase.of_found request fresh found
    rw [type] at type'
    cases ReqType.msgType_injective type'
    exact deposit_response effects stop fetches

theorem Op.Prepared.mono {op : Op} (prepared : op.Prepared s)
    (within : op.Within s.bounds) (grows : Extends s after) :
    op.Prepared after := by
  intro msg me response back
  obtain ⟨⟨pt, list, consumed⟩, same, success⟩ := prepared msg me response back
  have old : msg < s.nextMsg ∧ response < s.nextMsg := by
    rcases back with rfl | rfl
    · exact ⟨within.1, within.2.2⟩
    · exact ⟨within.1, within.2.2⟩
  rw [grows.reqOf old.1, grows.reqOf old.2, grows.niFailType old.2]
  exact ⟨⟨pt, list, grows.log.mem consumed⟩, same, success⟩

/-! ## Steps -/

namespace Informed

variable {index : ThreadId} {op : Op} {rest new : List Op}

/-- A request which was not received yet was not matched. -/
theorem unmatched (solvent : Solvent sys s) (wellScoped : WellScoped s)
    (fresh : ¬(s.reqs req).processState > .created) : ¬s.Consumed req :=
  fun consumed => fresh (solvent.known wellScoped consumed)

/-- An answer which an operation has just built tells what happened. -/
theorem fresh (informed : Informed sys s) (wellScoped : WellScoped s)
    (solvent : Solvent sys s)
    (found : s.threads[index]? = some ⟨self, op :: rest⟩)
    (phase : Phase sys self s op after new) (running : after.halted = none)
    (steadfast : Steadfast sys s (.run index))
    (later : WellScoped { after with
      threads := s.threads.set index ⟨self, new ++ rest⟩ })
    (afoot : Afoot { after with
      threads := s.threads.set index ⟨self, new ++ rest⟩ } s.nextMsg)
    (answer : (after.msgs s.nextMsg).type.isAnswer = true) :
    Truthful sys { after with
        threads := s.threads.set index ⟨self, new ++ rest⟩ }
      (after.reqOf s.nextMsg) (after.msgs s.nextMsg).niFailType := by
  have runs := List.mem_of_getElem? found
  have within := wellScoped.ops _ runs op (by simp)
  rcases phase.creates within with same | ⟨created, creates, next, fixed⟩
  · have small : s.nextMsg < after.nextMsg := afoot.allocated later
    exact absurd small (same ▸ Nat.lt_irrefl _)
  have built := fresh_of_fixed fixed
  have outcome : (after.msgs s.nextMsg).niFailType = created.niFailType :=
    (congrArg BxiMsg.niFailType fixed :)
  rw [built.reqOf, outcome]
  rw [built.type] at answer
  cases creates with
  | @ack msg type fail slow =>
      exact (informed.ops _ runs _ List.mem_cons_self _ _ rfl).run wellScoped
        found phase steadfast
  | bxiAck => cases answer
  | @response msg type kind fail request responds =>
      have isRequest : (s.msgs msg).type.isRequest = true := by
        rw [request, ReqType.isRequest_msgType]
      have refusal : ∀ failure, failure ≠ .ok →
          ¬(s.reqs (s.reqOf msg)).processState > .created →
          after.log = s.log → failure = fail →
          Truthful sys { after with
            threads := s.threads.set index ⟨self, new ++ rest⟩ }
            (s.reqOf msg) fail := by
        rintro failure failed unknown log rfl
        unfold Truthful
        rw [if_neg failed]
        refine ⟨?_, .inl (refused_iff.mpr (.inl ⟨s.nextMsg, ?_, ?_, ?_⟩))⟩
        · rintro ⟨other, pt, list, me, logged⟩
          change _ ∈ after.log at logged
          rw [log] at logged
          exact unmatched solvent wellScoped unknown ⟨other, pt, list, me, logged⟩
        · change s.nextMsg < after.nextMsg
          rw [next]
          exact Nat.lt_succ_self _
        · exact built.reqOf
        · change (after.msgs s.nextMsg).niFailType ≠ .ok
          rw [outcome]
          exact failed
      cases phase with
      | @respondUnmatched _ failure kind' type' fetches unknown absent =>
          refine refusal failure (fun success =>
            (matchEntry_fail absent).mp success rfl) unknown
            (answering_log s msg failure kind') ?_
          obtain ⟨kind'', responds', same⟩ := ReqType.responseType_cases fetches
          refine Eq.trans ?_ outcome
          rw [same]
          simp [State.modMsg, newResponse, State.newMsg]
      | @matched _ pt list me failure kind' effects stop type' unknown matching
          memory later' stops =>
          exact absurd afoot (not_afoot_of_found wellScoped found
            (.matched type' unknown matching memory later' stops) running
            isRequest unknown matching)
      | quiet quiet => exact absurd next (Nat.ne_of_lt (Nat.lt_succ_self _))
      | handleResponse type =>
          exact absurd next (Nat.ne_of_lt (Nat.lt_succ_self _))
      | handlePtlAck type =>
          exact absurd next (Nat.ne_of_lt (Nat.lt_succ_self _))
      | ackWithoutAnswer type => cases running
      | handleBxiAck type =>
          exact absurd next (Nat.ne_of_lt (Nat.lt_succ_self _))
  | @copy msg =>
      have success : (s.msgs msg).niFailType = .ok := by
        cases phase with
        | retransmit pending more => exact steadfast.retried found pending more
        | quiet quiet => exact absurd next (Nat.ne_of_lt (Nat.lt_succ_self _))
        | gaveUp pending last =>
            exact absurd next (Nat.ne_of_lt (Nat.lt_succ_self _))
        | retryPanic pending beyond => cases running
      have told := informed.answers msg
        (.inr ⟨_, runs, _, List.mem_cons_self, List.mem_singleton_self _⟩) answer
      rw [success] at told
      exact told.run wellScoped found phase steadfast

/-- A response which is no longer held back comes with its data. -/
theorem released (informed : Informed sys s) (wellScoped : WellScoped s)
    (shaped : Shaped sys s)
    (found : s.threads[index]? = some ⟨self, op :: rest⟩)
    (executed : exec sys self s op = some (after, new))
    (running : after.halted = none)
    (steadfast : Steadfast sys s (.run index)) {msg : MsgId}
    (back : op.HoldsBack msg) :
    Truthful sys { after with
        threads := s.threads.set index ⟨self, new ++ rest⟩ }
      (after.reqOf msg) (after.msgs msg).niFailType := by
  have phase : Phase sys self s op after new := exec_phase executed
  have grows := phase.extends
  have runs := List.mem_of_getElem? found
  have within := wellScoped.ops _ runs op (by simp)
  obtain ⟨other, me, held⟩ := back
  obtain ⟨⟨pt, list, consumed⟩, same, success⟩ :=
    informed.prepared _ runs op (by simp) other me msg held
  have old : msg < s.nextMsg := by
    rcases held with rfl | rfl
    · exact within.2.2
    · exact within.2.2
  rw [grows.reqOf old, grows.niFailType old, same, success]
  rcases held with rfl | rfl
  · have type : (s.msgs other).type = .ptlGet :=
      (shaped.ops _ runs _ List.mem_cons_self).1
    have kind := ((shaped.msgs other within.1).of_isRequest
      (by rw [type]; rfl)).1
    rw [type] at kind
    have get : (s.reqs (s.reqOf other)).type = .get :=
      ReqType.msgType_injective kind.symm
    have served : Served sys after (s.reqOf other) := served_by_getFinish
      executed running wellScoped.tables get consumed
    exact served
  · exact (informed.ops _ runs _ List.mem_cons_self _ _ rfl).run wellScoped
      found phase steadfast

/-- What an operation adds tells what happened. -/
theorem added (informed : Informed sys s) (wellScoped : WellScoped s)
    (shaped : Shaped sys s) (solvent : Solvent sys s)
    (found : s.threads[index]? = some ⟨self, op :: rest⟩)
    (executed : exec sys self s op = some (after, new))
    (running : after.halted = none)
    (steadfast : Steadfast sys s (.run index)) {other : Op}
    (member : other ∈ new) (tells : other.tells after = some (req, fail)) :
    Truthful sys { after with
      threads := s.threads.set index ⟨self, new ++ rest⟩ } req fail := by
  have phase : Phase sys self s op after new := exec_phase executed
  have runs := List.mem_of_getElem? found
  have within := wellScoped.ops _ runs op (by simp)
  have shape := shaped.ops _ runs op (by simp)
  have answer : ∀ msg, msg ∈ op.handles →
      (s.msgs msg).type.isAnswer = true → Truthful sys { after with
        threads := s.threads.set index ⟨self, new ++ rest⟩ }
        (s.reqOf msg) (s.msgs msg).niFailType := by
    intro msg handled type
    exact (informed.answers msg (.inr ⟨_, runs, op, by simp, handled⟩)
      type).run wellScoped found phase steadfast
  rw [(phase.follows other member).tells_congr within phase.extends] at tells
  rcases phase.told member tells with told | ⟨msg, refuses⟩
  · cases told with
    | kept tells =>
        exact (informed.ops _ runs op (by simp) _ _ tells).run wellScoped
          found phase steadfast
    | @acked msg =>
        exact answer msg (by simp [Op.handles, Op.mentions])
          (by simp [MsgType.isAnswer, shape.2])
    | @replied msg =>
        exact answer msg (by simp [Op.handles, Op.mentions])
          (by simp [MsgType.isAnswer, shape.2])
    | @found msg pt list me request fetches unknown matching =>
        have served : Served sys after (s.reqOf msg) := served_by_handler
          executed running within wellScoped.tables (shaped.msgs msg within)
          shape request fetches unknown matching
        exact served
  · obtain ⟨rfl, rfl, rfl, failed, unknown, absent⟩ := refuses
    have small : index < s.threads.length :=
      (List.getElem?_eq_some_iff.mp found).1
    unfold Truthful
    rw [if_neg failed]
    refine ⟨fun consumed => ?_, .inl (refused_iff.mpr (.inr ⟨_,
      List.mem_iff_getElem?.mpr ⟨index, List.getElem?_set_self small⟩, _,
      List.mem_append_left _ member, Op.refuses_iff.mpr ⟨msg, .ptlAck, fail, rfl, ?_, failed⟩⟩))⟩
    · rcases phase.consumes within consumed with
        before | ⟨other, equal, same, request, fresh, matching⟩
      · exact unmatched solvent wellScoped unknown before
      · cases equal
        simp [absent] at matching
    · exact phase.extends.reqOf within

/-- What one operation does keeps everything informed. -/
theorem run (informed : Informed sys s) (wellScoped : WellScoped s)
    (shaped : Shaped sys s) (solvent : Solvent sys s)
    (found : s.threads[index]? = some ⟨self, op :: rest⟩)
    (executed : exec sys self s op = some (after, new))
    (running : after.halted = none)
    (steadfast : Steadfast sys s (.run index))
    (later : WellScoped { after with
      threads := s.threads.set index ⟨self, new ++ rest⟩ }) :
    Informed sys { after with
      threads := s.threads.set index ⟨self, new ++ rest⟩ } := by
  have phase : Phase sys self s op after new := exec_phase executed
  have grows := phase.extends
  have runs := List.mem_of_getElem? found
  have within := wellScoped.ops _ runs op (by simp)
  refine ⟨fun msg afoot answer => ?_, ?_, ?_⟩
  · change (after.msgs msg).type.isAnswer = true at answer
    rcases afoot.of_run wellScoped found phase running with
      before | rfl | back
    · have old := before.allocated wellScoped
      rw [grows.type old] at answer
      have told := informed.answers msg before answer
      rw [← grows.reqOf old, ← grows.niFailType old] at told
      exact told.run wellScoped found phase steadfast
    · exact informed.fresh wellScoped solvent found phase running steadfast
        later afoot answer
    · exact informed.released wellScoped shaped found executed running
        steadfast back
  · refine EveryPending.set ?_ ?_
    · intro thread member other pendingOp req fail tells
      change other.tells after = some (req, fail) at tells
      rw [Op.tells_congr grows (wellScoped.ops thread member other pendingOp)]
        at tells
      exact (informed.ops thread member other pendingOp req fail tells).run
        wellScoped found phase steadfast
    · intro other member req fail tells
      rcases List.mem_append.mp member with new | kept
      · exact informed.added wellScoped shaped solvent found executed running
          steadfast new tells
      · change other.tells after = some (req, fail) at tells
        have pendingOp := List.mem_cons_of_mem op kept
        rw [Op.tells_congr grows (wellScoped.ops _ runs other pendingOp)]
          at tells
        exact (informed.ops _ runs other pendingOp req fail tells).run
          wellScoped found phase steadfast
  · refine EveryPending.set ?_ ?_
    · intro thread member other pendingOp
      exact (informed.prepared thread member other pendingOp).mono
        (wellScoped.ops thread member other pendingOp) { grows with }
    · intro other member
      rcases List.mem_append.mp member with new | kept
      · exact phase.prepared_new within new
      · have pendingOp := List.mem_cons_of_mem op kept
        exact (informed.prepared _ runs other pendingOp).mono
          (wellScoped.ops _ runs other pendingOp) { grows with }

end Informed

/-! ## Runs -/

theorem Phase.transfers {op : Op} {new : List Op}
    (phase : Phase sys self s op after new) (within : op.Within s.bounds)
    (prepared : op.Prepared s) {obs : Obs} (logged : obs ∈ after.log)
    (transfers : obs.transfers req = true) :
    obs ∈ s.log ∨ after.Consumed req := by
  obtain ⟨extra, log, emitted⟩ := phase.emits within
  have either : obs ∈ s.log ++ extra := log ▸ logged
  rcases List.mem_append.mp either with before | added
  · exact .inl before
  have handled : ∀ msg, op = .handle msg → s.reqOf msg = req →
      obs ∈ s.log ∨ after.Consumed req := by
    rintro msg rfl rfl
    rcases phase.handle_logs within with
      ⟨request, fresh, matching, consumed⟩ | silent
    · exact .inr consumed
    · rcases silent obs logged with before | rfl
      · exact .inl before
      · cases transfers
  have finished : ∀ msg me response, op = .getFinish msg me response →
      s.reqOf msg = req → obs ∈ s.log ∨ after.Consumed req := by
    rintro msg me response rfl rfl
    obtain ⟨⟨pt, list, consumed⟩, _⟩ := prepared msg me response (.inl rfl)
    exact .inr ⟨msg, pt, list, me, phase.extends.log.mem consumed⟩
  have emits := emitted obs added
  cases emits with
  | @memcpy msg => exact handled msg rfl (by simpa [Obs.transfers] using transfers)
  | @atomicOp msg =>
      exact handled msg rfl (by simpa [Obs.transfers] using transfers)
  | @getMemcpy msg me response =>
      exact finished msg me response rfl
        (by simpa [Obs.transfers] using transfers)
  | @getAtomicOp msg me response =>
      exact finished msg me response rfl
        (by simpa [Obs.transfers] using transfers)
  | _ => cases transfers

theorem Recorded.run (recorded : Recorded sys s) (informed : Informed sys s)
    (wellScoped : WellScoped s) {index : ThreadId} {op : Op}
    {rest new : List Op}
    (found : s.threads[index]? = some ⟨self, op :: rest⟩)
    (phase : Phase sys self s op after new)
    (steadfast : Steadfast sys s (.run index)) :
    Recorded sys { after with
      threads := s.threads.set index ⟨self, new ++ rest⟩ } := by
  have runs := List.mem_of_getElem? found
  have within := wellScoped.ops _ runs op (by simp)
  refine ⟨fun eq event req logged tells => ?_, fun obs logged req moved => ?_⟩
  · obtain ⟨extra, log, emitted⟩ := phase.emits within
    have either : Obs.event eq event (.request req) ∈ s.log ++ extra :=
      log ▸ logged
    rcases List.mem_append.mp either with before | added
    · exact (recorded.events eq event req before tells).run wellScoped found
        phase steadfast
    · cases emitted _ added with
      | event =>
          exact (informed.ops _ runs _ List.mem_cons_self req
            event.niFailType (by simp [Op.tells, tells])).run wellScoped found
            phase steadfast
  · rcases phase.transfers within (informed.prepared _ runs op (by simp))
      logged moved with before | consumed
    · exact (recorded.memory obs before req moved).mono
        { phase.extends with }
    · exact consumed

section Start

variable {index : ThreadId} {new : List Op}

/-- An idle actor starts. -/
theorem Truthful.start (verdict : Truthful sys s req fail)
    (wellScoped : WellScoped s)
    (found : s.threads[index]? = some ⟨self, []⟩) (grows : Extends s after)
    (log : after.log = s.log)
    (progress : (s.reqs req).Progress (after.reqs req)) :
    Truthful sys { after with
      threads := s.threads.set index ⟨self, new⟩ } req fail := by
  unfold Truthful at verdict ⊢
  split at verdict
  · rename_i success
    rw [if_pos success]
    exact verdict.mono { grows with } wellScoped.tables
  · rename_i failed
    rw [if_neg failed]
    obtain ⟨unmatched, settled⟩ := verdict
    refine ⟨?_, ?_⟩
    · rintro ⟨msg, pt, list, me, logged⟩
      exact unmatched ⟨msg, pt, list, me, log ▸ logged⟩
    · rcases settled with refused | known
      · refine .inl (refused_iff.mpr ?_)
        rcases refused_iff.mp refused with ⟨msg, small, same, failure⟩ |
          ⟨thread, threadMember, op, member, refuses⟩
        · exact .inl ⟨msg, small.trans_le grows.nextMsg,
            (grows.reqOf small).trans same, fun success =>
              failure ((grows.niFailType small).symm.trans success)⟩
        · obtain ⟨msg, type, fail, rfl, same, failure⟩ :=
            Op.refuses_iff.mp refuses
          obtain ⟨position, present⟩ := List.mem_iff_getElem?.mp threadMember
          have elsewhere : index ≠ position := by
            rintro rfl
            cases found.symm.trans present
            cases member
          refine .inr ⟨thread, List.mem_iff_getElem?.mpr ⟨position, ?_⟩, _,
            member, Op.refuses_iff.mpr ⟨msg, type, fail, rfl, ?_, failure⟩⟩
          · rw [List.getElem?_set_ne elsewhere, present]
          · exact (grows.reqOf (wellScoped.ops thread threadMember _
              member)).trans same
      · exact .inr (Nat.lt_of_lt_of_le known progress.state)

theorem Informed.start (informed : Informed sys s)
    (wellScoped : WellScoped s)
    (found : s.threads[index]? = some ⟨self, []⟩) (grows : Extends s after)
    (log : after.log = s.log)
    (progress : ∀ req < s.nextReq, (s.reqs req).Progress (after.reqs req))
    (traffic : ∀ msg, after.traffic.Holds msg → s.traffic.Holds msg)
    (handled : ∀ op ∈ new, ∀ msg ∈ op.handles,
      s.traffic.Holds msg ∨ (after.msgs msg).type.isAnswer = false)
    (silent : ∀ op ∈ new, op.tells after = none ∧ ∀ msg, ¬op.HoldsBack msg) :
    Informed sys { after with
      threads := s.threads.set index ⟨self, new⟩ } := by
  have allocated := wellScoped.tables
  have tables : Extends s { after with
      threads := s.threads.set index ⟨self, new⟩ } := { grows with }
  have told : ∀ msg, Afoot s msg → (after.msgs msg).type.isAnswer = true →
      Truthful sys { after with
          threads := s.threads.set index ⟨self, new⟩ }
        (after.reqOf msg) (after.msgs msg).niFailType := by
    intro msg afoot answer
    have old := afoot.allocated wellScoped
    rw [grows.type old] at answer
    have parent := allocated.parents msg old
    have verdict := informed.answers msg afoot answer
    rw [← grows.reqOf old, ← grows.niFailType old] at verdict
    rw [← grows.reqOf old] at parent
    exact verdict.start wellScoped found grows log (progress _ parent)
  refine ⟨?_, ?_, ?_⟩
  · rintro msg (held | ⟨thread, threadMember, op, member, mine⟩) answer
    · exact told msg (.inl (traffic msg held)) answer
    · rcases List.mem_or_eq_of_mem_set threadMember with before | rfl
      · exact told msg (.inr ⟨thread, before, op, member, mine⟩) answer
      · rcases handled op member msg mine with held | other
        · exact told msg (.inl held) answer
        · exact absurd answer (by simp [other])
  · refine EveryPending.set ?_ fun op member req fail tells => ?_
    · intro thread member op pendingOp req fail tells
      have within := wellScoped.ops thread member op pendingOp
      rw [Op.tells_congr tables within] at tells
      exact (informed.ops thread member op pendingOp req fail tells).start
        wellScoped found grows log
        (progress _ (within.tells tells allocated))
    · have none : op.tells after = none := (silent op member).1
      exact absurd (none.symm.trans tells) (by simp)
  · refine EveryPending.set ?_ fun op member => ?_
    · intro thread member op pendingOp
      exact (informed.prepared thread member op pendingOp).mono
        (wellScoped.ops thread member op pendingOp) tables
    · intro msg me response back
      exact absurd ⟨msg, me, back⟩ ((silent op member).2 response)

theorem Recorded.start (recorded : Recorded sys s)
    (wellScoped : WellScoped s)
    (found : s.threads[index]? = some ⟨self, []⟩) (grows : Extends s after)
    (log : after.log = s.log)
    (progress : ∀ req < s.nextReq, (s.reqs req).Progress (after.reqs req)) :
    Recorded sys { after with
      threads := s.threads.set index ⟨self, new⟩ } := by
  refine ⟨fun eq event req logged tells => ?_, fun obs logged req moved => ?_⟩
  · have before : Obs.event eq event (.request req) ∈ s.log := log ▸ logged
    have old : req < s.nextReq := wellScoped.tables.log _ before
    exact (recorded.events eq event req before tells).start wellScoped found
      grows log (progress req old)
  · have before : obs ∈ s.log := log ▸ logged
    exact (recorded.memory obs before req moved).mono { grows with }

/-- What an API call leaves pending tells nothing. -/
theorem CallPhase.tells_nothing {call : Call}
    (phase : CallPhase sys self s call after new) :
    ∀ op ∈ new, op.tells after = none ∧ ∀ msg, ¬op.HoldsBack msg := by
  cases phase with
  | appendOverflow taken =>
      exact issueLink_every fun queue event type =>
        ⟨rfl, fun msg => by simp [Op.HoldsBack]⟩
  | _ => simp [Op.tells, Op.HoldsBack]

theorem CallPhase.handles_request {call : Call}
    (phase : CallPhase sys self s call after new) :
    ∀ op ∈ new, ∀ msg ∈ op.handles,
      (after.msgs msg).type.isAnswer = false := by
  cases phase with
  | appendOverflow taken => exact issueLink_every fun _ _ _ => nofun
  | @request cmd =>
      simp only [List.mem_singleton]
      rintro op rfl msg handled
      rw [List.mem_singleton.mp handled]
      have type : ((ptlRequest sys self s cmd).msgs s.nextMsg).type =
          cmd.type.msgType := by
        simp [ptlRequest, State.newMsg, newRequestMsg]
      rw [type]
      cases cmd.type <;> rfl
  | _ => simp [Op.handles, Op.mentions]

end Start

/-- Whatever an actor does, both ends keep the same view of every request. -/
theorem Informed.step {label : Label} (recorded : Recorded sys s)
    (informed : Informed sys s) (wellScoped : WellScoped s)
    (shaped : Shaped sys s) (solvent : Solvent sys s)
    (steadfast : Steadfast sys s label)
    (stepped : S4BXI.step sys s label = some after) :
    (after.halted = none → Informed sys after) ∧ Recorded sys after := by
  have later := wellScoped.advances (step_advances stepped)
  have moves := (step_advances stepped).moves
  generalize label.thread = index at moves
  cases moves with
  | dangling => exact ⟨nofun, { recorded with }⟩
  | run found phase =>
      refine ⟨fun running => ?_,
        recorded.run informed wellScoped found phase steadfast⟩
      obtain ⟨self, op, rest, ⟨after, new⟩, stacked, executed, equal⟩ :=
        step_executes stepped running
      rw [equal] at later running ⊢
      exact informed.run wellScoped shaped solvent stacked executed running
        steadfast later
  | @pick _ actor msg new mid picks idle =>
      have progress : ∀ req < s.nextReq,
          (s.reqs req).Progress (mid.reqs req) := by
        intro req _
        rw [picks.reqs]
        exact .refl _
      have handled : ∀ op ∈ new, ∀ other ∈ op.handles, s.traffic.Holds other ∨
          (mid.msgs other).type.isAnswer = false := by
        have held : ∀ other ∈ [msg], s.traffic.Holds other ∨
            (mid.msgs other).type.isAnswer = false := by
          simpa using .inl picks.held
        exact picks.every held nofun held held
      have silent : ∀ op ∈ new, op.tells mid = none ∧
          ∀ response, ¬op.HoldsBack response :=
        picks.every ⟨rfl, fun _ => by simp [Op.HoldsBack]⟩
          ⟨rfl, fun _ => by simp [Op.HoldsBack]⟩
          ⟨rfl, fun _ => by simp [Op.HoldsBack]⟩
          ⟨rfl, fun _ => by simp [Op.HoldsBack]⟩
      exact ⟨fun _ => informed.start wellScoped picks.found picks.grows
          picks.log progress picks.traffic handled silent,
        recorded.start wellScoped picks.found picks.grows picks.log progress⟩
  | call found phase =>
      obtain ⟨traffic, log, _⟩ := phase.carries
      have progress : ∀ req < s.nextReq,
          (s.reqs req).Progress _ := fun _ old => phase.progress old
      exact ⟨fun _ => informed.start wellScoped found phase.extends log progress
          (fun _ => traffic ▸ id)
          (fun op member msg handled =>
            .inr (phase.handles_request op member msg handled))
          phase.tells_nothing,
        recorded.start wellScoped found phase.extends log progress⟩

end Steps

/-! ## Executing runs -/

/-- The initiator was told the outcome of a request. -/
def State.told (s : State) (req : ReqId) (fail : NiFailType) : Bool :=
  s.log.any fun obs =>
    match obs with
    | .event _ event (.request other) =>
        other == req && event.tellsOutcome && event.niFailType == fail
    | _ => false

/-- A message of the request was matched. -/
def State.consumes (s : State) (req : ReqId) : Bool :=
  s.log.any fun obs =>
    match obs with
    | .consumed other _ _ _ _ => other == req
    | _ => false

theorem event_of_told {s : State} {req : ReqId} {fail : NiFailType}
    (told : s.told req fail = true) :
    ∃ eq event, Obs.event eq event (.request req) ∈ s.log ∧
      event.tellsOutcome = true ∧ event.niFailType = fail := by
  obtain ⟨obs, member, holds⟩ := List.any_eq_true.mp told
  split at holds
  · rename_i eq event other
    simp only [Bool.and_eq_true, beq_iff_eq] at holds
    obtain ⟨⟨rfl, tells⟩, outcome⟩ := holds
    exact ⟨eq, event, member, tells, outcome⟩
  · cases holds

theorem consumed_iff_consumes {s : State} {req : ReqId} :
    s.Consumed req ↔ s.consumes req = true := by
  constructor
  · rintro ⟨msg, pt, list, me, logged⟩
    exact List.any_eq_true.mpr ⟨_, logged, by simp⟩
  · intro consumes
    obtain ⟨obs, member, holds⟩ := List.any_eq_true.mp consumes
    split at holds
    · rename_i other msg pt list me
      rw [beq_iff_eq] at holds
      exact ⟨msg, pt, list, me, holds ▸ member⟩
    · cases holds

/-- A Put which nothing matches; its ACK is retransmitted and the copy comes
first. -/
def retransmittedRefusal : List Label :=
  receivedPut .ackReq ++ runs 9 5 ++ .take 8 :: runs 8 5 ++
    .wake 11 :: runs 11 3 ++ .take 8 :: runs 8 4 ++ .recv 4 1 :: runs 4 12

end S4BXI
