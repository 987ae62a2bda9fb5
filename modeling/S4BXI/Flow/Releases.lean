import S4BXI.Flow.Commands
import S4BXI.Flow.Counters

/-!
# Releases of flow-control entries

`release_e2e_entry` is called in four places, each of which computes the node,
the VN and the key again.  They are those which `check_flowctrl` took for the
message which is acknowledged.
-/

namespace S4BXI

open Lib

/-- A message has passed `check_flowctrl`: it is an E2E ACK, E2E is off at the
node which sends it, or its entries were debited. -/
def Charged (sys : Sys) (s : State) (msg : MsgId) : Prop :=
  (s.msgs msg).type ≠ .e2eAck →
    (sys.node (s.msgs msg).initiator).e2eOff = false →
    Obs.debit (s.msgs msg).initiator (s.vnOf msg) (flowctrlKey sys s msg)
      (s.reqOf msg) ∈ s.log

/-- The node, the VN, the key and the request of an acknowledged message. -/
structure Acknowledges (sys : Sys) (s : State) (nid : Nid) (vn : Vn)
    (key : FlowctrlProcessId) (req : ReqId) (acked : MsgId) : Prop where
  allocated : acked < s.nextMsg
  type : (s.msgs acked).type ≠ .e2eAck
  initiator : (s.msgs acked).initiator = nid
  vn : s.vnOf acked = vn
  key : flowctrlKey sys s acked = key
  req : s.reqOf acked = req
  charged : Charged sys s acked

/-- The message which an operation of a NIC target acknowledges: a BXI ACK that
which it answers, a response or a PTL ACK the request, and the quick `send_ack`
the message at hand. -/
def Op.Acks (s : State) : Op → MsgId → Prop
  | .handle msg, acked =>
      if (s.msgs msg).type = .e2eAck then (s.msgs msg).answersMsg = some acked
      else (s.msgs acked).type.isRequest = true ∧ s.reqOf acked = s.reqOf msg
  | .sendAck msg _ _, acked => acked = msg
  | _, _ => False

/-- The message of an operation which is past `check_flowctrl`. -/
def Op.charged : Op → Option MsgId
  | .handle msg | .sendAck msg _ _ | .putFinish msg _ _
  | .atomicFinish msg _ _ | .responseRest msg | .sendBxiAck msg _
  | .commInit msg | .e2eEnqueue msg | .commStart msg | .e2eWake msg =>
      some msg
  | _ => none

/-- The arguments of a release. -/
def Op.releases : Op → Option (Nid × Vn × FlowctrlProcessId × ReqId)
  | .releaseE2eEntry nid vn key req | .releaseCounts nid vn key req =>
      some (nid, vn, key, req)
  | _ => none

/-- A message which was retransmitted or answered has passed `check_flowctrl`,
and an answer comes after its request has. -/
structure Backed (sys : Sys) (s : State) (msg : MsgId) : Prop where
  copy : (s.msgs msg).retryCount ≠ 0 → Charged sys s msg
  answered : ∀ other, (s.msgs msg).answersMsg = some other →
    Charged sys s other
  answer : (s.msgs msg).type.isRequest = false →
    ∃ request < s.nextMsg, (s.msgs request).type.isRequest = true ∧
      s.reqOf request = s.reqOf msg ∧ Charged sys s request

/-- The messages in the RX mailboxes, in the queues of the E2E circuit and in
the hands of the actors behind them have passed `check_flowctrl`. -/
structure Charging (sys : Sys) (s : State) : Prop where
  rx : ∀ nid vn, ∀ msg ∈ s.traffic.rx nid vn, Charged sys s msg
  e2e : ∀ nid, ∀ msg ∈ s.traffic.e2e nid, Charged sys s msg
  ops : EveryPending (fun _ op => ∀ msg, op.charged = some msg →
    Charged sys s msg) s.threads
  msgs : ∀ msg < s.nextMsg, Backed sys s msg

/-- Every release is one of the entries of an acknowledged message. -/
def Releasing (sys : Sys) (s : State) : Prop :=
  EveryPending (fun _ op => ∀ nid vn key req,
    op.releases = some (nid, vn, key, req) →
      ∃ acked, Acknowledges sys s nid vn key req acked) s.threads

section Steps

variable {sys : Sys} {self : Actor} {s after : State} {msg : MsgId}

/-! ## What is fixed -/

theorem flowctrlKey_congr {other : MsgId}
    (reqs : (after.parent other).fixed = (s.parent msg).fixed)
    (vn : after.vnOf other = s.vnOf msg)
    (target : (after.msgs other).target = (s.msgs msg).target) :
    flowctrlKey sys after other = flowctrlKey sys s msg := by
  have md : (after.reqs (after.reqOf other)).md = (s.reqs (s.reqOf msg)).md :=
    (congrArg BxiRequest.md reqs :)
  have pid : (after.reqs (after.reqOf other)).targetPid =
      (s.reqs (s.reqOf msg)).targetPid :=
    (congrArg BxiRequest.targetPid reqs :)
  unfold flowctrlKey
  dsimp only
  rw [vn, target, md, pid]

theorem Extends.flowctrlKey (grows : Extends s after) (old : msg < s.nextMsg)
    (allocated : Allocated s) :
    flowctrlKey sys after msg = S4BXI.flowctrlKey sys s msg :=
  flowctrlKey_congr (grows.parent old allocated) (grows.vnOf old allocated)
    (grows.target old)

theorem Charged.mono (charged : Charged sys s msg) (grows : Extends s after)
    (old : msg < s.nextMsg) (allocated : Allocated s) :
    Charged sys after msg := by
  intro type on
  rw [grows.type old] at type
  rw [grows.initiator old] at on ⊢
  rw [grows.vnOf old allocated, grows.flowctrlKey old allocated,
    grows.reqOf old]
  exact grows.log.mem (charged type on)

theorem Acknowledges.mono {nid : Nid} {vn : Vn} {key : FlowctrlProcessId}
    {req : ReqId} (acknowledges : Acknowledges sys s nid vn key req msg)
    (grows : Extends s after) (allocated : Allocated s) :
    Acknowledges sys after nid vn key req msg := by
  have old := acknowledges.allocated
  constructor
  · exact lt_of_lt_of_le old grows.nextMsg
  · rw [grows.type old]
    exact acknowledges.type
  · rw [grows.initiator old]
    exact acknowledges.initiator
  · rw [grows.vnOf old allocated]
    exact acknowledges.vn
  · rw [grows.flowctrlKey old allocated]
    exact acknowledges.key
  · rw [grows.reqOf old]
    exact acknowledges.req
  · exact acknowledges.charged.mono grows old allocated

/-! ## Operations -/

/-- Only flow control itself lets an operation go on with a message. -/
theorem Follows.charged {op added : Op} (follows : Follows sys self s op added)
    (behind : added.charged = some msg) :
    op.charged = some msg ∨ op = .processTx msg := by
  cases follows with
  | @matched other pt list me fail kind type found =>
      cases kind with
      | put => exact .inl behind
      | atomic => exact .inl behind
      | get => cases behind
      | fetchAtomic => cases behind
  | commInit =>
      cases behind
      exact .inr rfl
  | releaseAnswered => cases behind
  | unmatchedAck => exact .inl behind
  | responseRest => exact .inl behind
  | ackBxiAck => exact .inl behind
  | putAcked => exact .inl behind
  | atomicAcked => exact .inl behind
  | responseBxiAck => exact .inl behind
  | e2eEnqueue => exact .inl behind
  | commStart => exact .inl behind
  | _ => cases behind

/-- A message which passes `check_flowctrl`. -/
theorem Phase.passes {new : List Op}
    (phase : Phase sys self s (.processTx msg) after new) (some' : new ≠ [])
    (owner : (s.msgs msg).initiator = self.nid)
    (copies : (s.msgs msg).retryCount ≠ 0 → Charged sys s msg)
    (old : msg < s.nextMsg) (allocated : Allocated s) :
    Charged sys after msg := by
  have grows := phase.extends
  cases phase with
  | quiet quiet => cases quiet
  | exempt free =>
      have passed : Charged sys s msg := by
        unfold exemptFromFlowctrl at free
        simp only [Bool.or_eq_true, beq_iff_eq, bne_iff_ne] at free
        rcases free with (off | ack) | retried
        · intro _ on
          rw [owner, off] at on
          cases on
        · exact fun type => absurd ack type
        · exact copies retried
      exact passed.mono grows old allocated
  | granted subject checked =>
      intro _ _
      rw [grows.initiator old, grows.vnOf old allocated,
        grows.flowctrlKey old allocated, grows.reqOf old, owner]
      exact List.mem_append_right _ (List.mem_singleton_self _)
  | refused => exact absurd rfl some'
  | creditsPanic => exact absurd rfl some'

/-! ## Messages -/

/-- Only the E2E actor counts retransmissions, apart from those of the answered
message which a BXI ACK keeps. -/
structure Uncounted (s after : State) : Prop where
  next : s.nextMsg ≤ after.nextMsg
  counts : ∀ msg < after.nextMsg, (after.msgs msg).retryCount ≠ 0 →
    (after.msgs msg).type ≠ .e2eAck →
    msg < s.nextMsg ∧ (s.msgs msg).retryCount ≠ 0 ∧
      (s.msgs msg).type ≠ .e2eAck

namespace Uncounted

variable {mid : State}

theorem of_msgs (nextMsg : after.nextMsg = s.nextMsg)
    (same : ∀ msg, (after.msgs msg).retryCount = (s.msgs msg).retryCount ∧
      (after.msgs msg).type = (s.msgs msg).type) : Uncounted s after := by
  constructor
  · exact le_of_eq nextMsg.symm
  · intro msg small counted type
    rw [nextMsg] at small
    rw [(same msg).1] at counted
    rw [(same msg).2] at type
    exact ⟨small, counted, type⟩

theorem refl (s : State) : Uncounted s s := of_msgs rfl fun _ => ⟨rfl, rfl⟩

theorem trans (first : Uncounted s mid) (second : Uncounted mid after) :
    Uncounted s after := by
  constructor
  · exact le_trans first.next second.next
  · intro msg small counted type
    obtain ⟨known, before, kind⟩ := second.counts msg small counted type
    exact first.counts msg known before kind

theorem modMsg (s : State) (msg : MsgId) {f : BxiMsg → BxiMsg}
    (keeps : ∀ m, (f m).retryCount = m.retryCount ∧ (f m).type = m.type) :
    Uncounted s (s.modMsg msg f) := by
  refine of_msgs rfl fun other => ?_
  simp only [State.modMsg, Function.update_apply]
  split
  · rename_i here
    rw [here]
    exact keeps _
  · exact ⟨rfl, rfl⟩

theorem newMsg (s : State) {msg : BxiMsg}
    (fresh : msg.retryCount = 0 ∨ msg.type = .e2eAck) :
    Uncounted s (s.newMsg msg) := by
  constructor
  · exact Nat.le_succ _
  · intro other below counted type
    by_cases new : other = s.nextMsg
    · rw [new, show (s.newMsg msg).msgs s.nextMsg = msg from
        Function.update_self _ _ _] at counted type
      rcases fresh with zero | ack
      · exact absurd zero counted
      · exact absurd ack type
    · have old := lt_of_le_of_ne (Nat.lt_succ_iff.mp below) new
      have kept : (s.newMsg msg).msgs other = s.msgs other :=
        Function.update_of_ne new _ _
      rw [kept] at counted type
      exact ⟨old, counted, type⟩

theorem drops (dropped : Drops s after) : Uncounted s after := by
  obtain ⟨sameReqs, sameMsgs, stops⟩ := dropped
  refine of_msgs rfl fun msg => ?_
  obtain ⟨live, count, same⟩ := sameMsgs msg
  constructor
  · simp only [same]
  · simp only [same]

theorem answering (s : State) (msg : MsgId) (fail : NiFailType)
    (kind : ReqType) : Uncounted s (answering s msg fail kind) := by
  cases kind with
  | put => exact refl s
  | atomic => exact refl s
  | get => exact newMsg s (.inl rfl)
  | fetchAtomic => exact newMsg s (.inl rfl)

theorem deposit (s : State) (msg : MsgId) (pt : PtId) (list : PtlList)
    (me : MeId) (fail : NiFailType) (kind : ReqType) :
    Uncounted s (deposit s msg pt list me fail kind) := by
  apply (answering s msg fail kind).trans
  apply of_msgs
  · exact takeEntry_nextMsg _ _ _ _ _
  · intro other
    unfold S4BXI.deposit S4BXI.receive takeEntry
    cases list with
    | priority => exact ⟨rfl, rfl⟩
    | overflow =>
        by_cases same : other = msg
        · subst same
          simp [State.ref, State.modMsg, State.modMe, State.modPt, State.emit]
        · simp [State.ref, State.modMsg, State.modMe, State.modPt, State.emit,
            same]

theorem leaves {me : MeId} {before following : List Op}
    (left : Leaves s me after before following) : Uncounted s after :=
  of_msgs left.nextMsg fun msg => by rw [left.msgs]; exact ⟨rfl, rfl⟩

end Uncounted

theorem Phase.uncounted {op : Op} {new : List Op}
    (phase : Phase sys self s op after new)
    (wakes : ∀ msg, op ≠ .e2eWake msg) : Uncounted s after := by
  cases phase with
  | @respondUnmatched msg fail kind type fetches fresh absent =>
      apply (Uncounted.answering s msg fail kind).trans
      exact .modMsg _ _ fun _ => ⟨rfl, rfl⟩
  | @matched msg pt list me fail kind effects stop type fresh found memory
      later stops =>
      exact { Uncounted.deposit s msg pt list me fail kind with }
  | sendAck slow =>
      unfold newAck
      refine (Uncounted.newMsg s ?_).trans (.modMsg _ _ fun _ => ⟨rfl, rfl⟩)
      exact .inl rfl
  | putFinish leaves => exact .leaves leaves
  | @getFinish msg me response effects stop after before following memory
      stops leaves =>
      refine Uncounted.trans ?_ (.leaves leaves)
      have sized := Uncounted.modMsg s response (f := fun m => { m with
        simulatedSize := (s.reqs (s.reqOf msg)).mlength }) fun _ => ⟨rfl, rfl⟩
      exact { sized with }
  | atomicEvents leaves => exact .leaves leaves
  | fetchAtomicFinish leaves =>
      refine Uncounted.trans ?_ (.leaves leaves)
      exact .modMsg _ _ fun _ => ⟨rfl, rfl⟩
  | deferredUnlink flagged unlinks =>
      exact .of_msgs unlinks.nextMsg fun msg => by
        rw [unlinks.msgs]
        exact ⟨rfl, rfl⟩
  | sendBxiAck on =>
      unfold newBxiAck
      refine (Uncounted.newMsg s ?_).trans (.modMsg _ _ fun _ => ⟨rfl, rfl⟩)
      exact .inr rfl
  | unref equality drops => exact .drops drops
  | @e2eEnqueue msg =>
      have held : Uncounted s (s.ref msg) :=
        .modMsg _ _ fun _ => ⟨rfl, rfl⟩
      exact { held with }
  | retransmit pending more => exact absurd rfl (wakes _)
  | _ => exact .of_msgs rfl fun _ => ⟨rfl, rfl⟩

/-- The copy of a message is charged with it. -/
theorem Charged.copy (charged : Charged sys after msg)
    (fresh : Fresh s after (s.msgs msg).copy) (grows : Extends s after)
    (old : msg < s.nextMsg) : Charged sys after s.nextMsg := by
  have type : (after.msgs s.nextMsg).type = (after.msgs msg).type :=
    fresh.type.trans (grows.type old).symm
  have initiator : (after.msgs s.nextMsg).initiator =
      (after.msgs msg).initiator :=
    fresh.initiator.trans (grows.initiator old).symm
  have target : (after.msgs s.nextMsg).target = (after.msgs msg).target :=
    fresh.target.trans (grows.target old).symm
  have req : after.reqOf s.nextMsg = after.reqOf msg :=
    fresh.reqOf.trans (grows.reqOf old).symm
  have parent : after.parent s.nextMsg = after.parent msg :=
    congrArg after.reqs req
  have vn : after.vnOf s.nextMsg = after.vnOf msg := by
    unfold State.vnOf BxiMsg.getVn
    rw [type, req]
  have key : flowctrlKey sys after s.nextMsg = flowctrlKey sys after msg :=
    flowctrlKey_congr (congrArg BxiRequest.fixed parent) vn target
  intro kind on
  rw [type] at kind
  rw [initiator] at on ⊢
  rw [vn, key, req]
  exact charged kind on

theorem Backed.mono (backed : Backed sys s msg) (grows : Extends s after)
    (old : msg < s.nextMsg) (allocated : Allocated s)
    (copy : (after.msgs msg).retryCount ≠ 0 → Charged sys after msg) :
    Backed sys after msg := by
  constructor
  · exact copy
  · intro other answers
    rw [grows.answersMsg old] at answers
    have older := lt_trans (allocated.answers msg old other answers) old
    exact (backed.answered other answers).mono grows older allocated
  · intro answer
    rw [grows.type old] at answer
    obtain ⟨request, small, type, same, charged⟩ := backed.answer answer
    refine ⟨request, lt_of_lt_of_le small grows.nextMsg, ?_, ?_, ?_⟩
    · rw [grows.type small]
      exact type
    · rw [grows.reqOf small, grows.reqOf old]
      exact same
    · exact charged.mono grows small allocated

/-- A new message, from what the operation which allocates it has. -/
theorem Creates.backed {op : Op} {created : BxiMsg}
    (creates : Creates sys s op created) (fresh : Fresh s after created)
    (grows : Extends s after) (wellScoped : WellScoped s)
    (charging : Charging sys s) (within : op.Within s.bounds)
    (shaped : op.Shaped s self)
    (charged : ∀ msg, op.charged = some msg → Charged sys after msg)
    (copy : (after.msgs s.nextMsg).retryCount ≠ 0 →
      Charged sys after s.nextMsg) : Backed sys after s.nextMsg := by
  have allocated := wellScoped.tables
  constructor
  · exact copy
  · intro other answers
    rw [fresh.answersMsg] at answers
    cases creates with
    | ack slow =>
        cases answers
        exact charged _ rfl
    | bxiAck =>
        cases answers
        exact charged _ rfl
    | response fail request responds => cases answers
    | copy => cases answers
  · intro answer
    rw [fresh.type] at answer
    rw [fresh.reqOf]
    -- The request of the message at hand, if it is an answer itself.
    have behind : ∀ msg, msg < s.nextMsg →
        (s.msgs msg).type.isRequest = false →
        ∃ request < after.nextMsg,
          (after.msgs request).type.isRequest = true ∧
            after.reqOf request = s.reqOf msg ∧
            Charged sys after request := by
      intro msg old type
      obtain ⟨request, small, kind, same, passed⟩ :=
        (charging.msgs msg old).answer type
      refine ⟨request, lt_of_lt_of_le small grows.nextMsg, ?_, ?_, ?_⟩
      · rw [grows.type small]
        exact kind
      · rw [grows.reqOf small]
        exact same
      · exact passed.mono grows small allocated
    have itself : ∀ msg, msg < s.nextMsg → op.charged = some msg →
        (s.msgs msg).type.isRequest = true →
        ∃ request < after.nextMsg,
          (after.msgs request).type.isRequest = true ∧
            after.reqOf request = s.reqOf msg ∧
            Charged sys after request := by
      intro msg old has type
      refine ⟨msg, lt_of_lt_of_le old grows.nextMsg, ?_, grows.reqOf old,
        charged msg has⟩
      rw [grows.type old]
      exact type
    cases creates with
    | @ack msg type fail slow =>
        apply itself msg within rfl
        rcases shaped.2.1 with put | atomic
        · rw [put]
          rfl
        · rw [atomic]
          rfl
    | @bxiAck msg md =>
        apply behind msg within
        rcases shaped.2 with response | ack
        · cases type : (s.msgs msg).type <;>
            simp_all [MsgType.isResponse, MsgType.isRequest]
        · rw [ack]
          rfl
    | @response msg type kind fail request responds =>
        apply itself msg within rfl
        rw [request]
        exact ReqType.isRequest_msgType kind
    | @copy msg => exact behind msg within answer

/-! ## Steps -/

/-- The mailboxes and the queues get messages which are charged. -/
theorem Carries.charged {op : Op} {new : List Op}
    (carries : Carries sys self s op after new) (running : after.halted = none)
    (rx : ∀ nid vn, ∀ msg ∈ s.traffic.rx nid vn, Charged sys after msg)
    (e2e : ∀ nid, ∀ msg ∈ s.traffic.e2e nid, Charged sys after msg)
    (charged : ∀ msg, op.charged = some msg → Charged sys after msg) :
    (∀ nid vn, ∀ msg ∈ after.traffic.rx nid vn, Charged sys after msg) ∧
      ∀ nid, ∀ msg ∈ after.traffic.e2e nid, Charged sys after msg := by
  have same : after.traffic.rx = s.traffic.rx →
      after.traffic.e2e = s.traffic.e2e →
      (∀ nid vn, ∀ msg ∈ after.traffic.rx nid vn, Charged sys after msg) ∧
        ∀ nid, ∀ msg ∈ after.traffic.e2e nid, Charged sys after msg := by
    intro sameRx sameE2e
    rw [sameRx, sameE2e]
    exact ⟨rx, e2e⟩
  cases carries with
  | start traffic log =>
      constructor
      · intro nid vn msg member
        rw [traffic] at member
        simp only [setQueue_apply] at member
        split at member
        · rcases List.mem_append.mp member with earlier | last
          · exact rx _ _ msg earlier
          · rw [List.mem_singleton.mp last]
            exact charged _ rfl
        · exact rx nid vn msg member
      · intro nid msg member
        rw [traffic] at member
        exact e2e nid msg member
  | enqueue traffic log =>
      constructor
      · intro nid vn msg member
        rw [traffic] at member
        exact rx nid vn msg member
      · intro nid msg member
        rw [traffic] at member
        simp only [Function.update_apply] at member
        split at member
        · rcases List.mem_append.mp member with earlier | last
          · exact e2e _ msg earlier
          · rw [List.mem_singleton.mp last]
            exact charged _ rfl
        · exact e2e nid msg member
  | still idle nothing traffic silent => exact same (by rw [traffic]) (by rw [traffic])
  | submit traffic log => exact same (by rw [traffic]) (by rw [traffic])
  | retry on traffic log => exact same (by rw [traffic]) (by rw [traffic])
  | mailbox off traffic log => exact same (by rw [traffic]) (by rw [traffic])
  | pass passes nothing traffic silent =>
      exact same (by rw [traffic]) (by rw [traffic])
  | park subject refused traffic log =>
      exact same (by rw [traffic]) (by rw [traffic])
  | init before nothing => exact same rfl rfl
  | push waiting traffic log => exact same (by rw [traffic]) (by rw [traffic])
  | pop waiting traffic log => exact same (by rw [traffic]) (by rw [traffic])
  | stop halted => exact absurd running halted

theorem Op.Within.charged {op : Op} {bounds : Bounds}
    (within : op.Within bounds) (behind : op.charged = some msg) :
    msg < bounds.msg := by
  cases op with
  | putFinish other me fail =>
      cases behind
      exact within.1
  | atomicFinish other me fail =>
      cases behind
      exact within.1
  | handle | sendAck | responseRest | sendBxiAck | commInit | e2eEnqueue |
    commStart | e2eWake =>
      cases behind
      exact within
  | _ => cases behind

theorem retransmit_msgs_of_ne (s : State) {msg other : MsgId} (different : other ≠ msg)
    (old : other ≠ s.nextMsg) :
    (retransmit sys self s msg).msgs other = s.msgs other := by
  unfold S4BXI.retransmit
  dsimp only
  split <;>
    simp [S4BXI.txPut, State.emit, State.modNode, State.newMsg, State.modMsg,
      different, old]

/-- A message with a positive retry count has passed `check_flowctrl`. -/
theorem Phase.charged_copies {op : Op} {new : List Op}
    (phase : Phase sys self s op after new) (within : op.Within s.bounds)
    (charged : ∀ msg, op.charged = some msg → Charged sys after msg)
    (copies : ∀ msg < s.nextMsg, (s.msgs msg).retryCount ≠ 0 →
      Charged sys after msg) :
    ∀ msg < after.nextMsg, (after.msgs msg).retryCount ≠ 0 →
      Charged sys after msg := by
  intro msg small counted
  by_cases wakes : ∃ other, op = .e2eWake other
  · obtain ⟨other, rfl⟩ := wakes
    have grows := phase.extends
    have creates := phase.creates within
    cases phase with
    | quiet quiet => exact copies msg small counted
    | gaveUp pending last => exact copies msg small counted
    | retryPanic pending beyond => exact copies msg small counted
    | retransmit pending more =>
        by_cases itself : msg = other
        · rw [itself]
          exact charged other rfl
        · by_cases new : msg = s.nextMsg
          · subst new
            rcases creates with same | ⟨created, creates, next, fixed⟩
            · rw [same] at small
              exact absurd small (Nat.lt_irrefl _)
            · cases creates with
              | copy =>
                  exact (charged other rfl).copy (fresh_of_fixed fixed) grows
                    within
          · rw [retransmit_msgs_of_ne s itself new] at counted
            apply copies msg _ counted
            have next : (S4BXI.retransmit sys self s other).nextMsg =
                s.nextMsg + 1 := by
              unfold S4BXI.retransmit
              dsimp only
              split <;> rfl
            rw [next] at small
            exact lt_of_le_of_ne (Nat.le_of_lt_succ small) new
  · intro type on
    have before := (phase.uncounted fun other same => wakes ⟨other, same⟩).counts
      msg small counted type
    exact copies msg before.1 before.2.1 type on

theorem Charging.run (charging : Charging sys s) (wellScoped : WellScoped s)
    (shaped : Shaped sys s) {index : ThreadId} {op : Op} {rest new : List Op}
    (found : s.threads[index]? = some ⟨self, op :: rest⟩)
    (phase : Phase sys self s op after new) (running : after.halted = none) :
    Charging sys { after with
      threads := s.threads.set index ⟨self, new ++ rest⟩ } := by
  have member := List.mem_of_getElem? found
  have within := wellScoped.ops _ member op (by simp)
  have fits := shaped.ops _ member op (by simp)
  have allocated := wellScoped.tables
  have grows := phase.extends
  have kept : ∀ msg, msg < s.nextMsg → Charged sys s msg →
      Charged sys after msg := fun msg old charged =>
    charged.mono grows old allocated
  have has : ∀ msg, op.charged = some msg → Charged sys after msg := by
    intro msg behind
    exact kept msg (within.charged behind)
      (charging.ops _ member op (by simp) msg behind)
  have copies := phase.charged_copies within has fun msg old counted =>
    kept msg old ((charging.msgs msg old).copy counted)
  obtain ⟨rx, e2e⟩ := (phase.carries within).charged running
    (fun nid vn msg member =>
      kept msg (allocated.rx nid vn msg member) (charging.rx nid vn msg member))
    (fun nid msg member => kept msg ((allocated.nodes nid).e2eQueue msg member)
      (charging.e2e nid msg member)) has
  have older : ∀ msg, msg < s.nextMsg → msg < after.nextMsg →
      Backed sys after msg := fun msg old small =>
    (charging.msgs msg old).mono grows old allocated (copies msg small)
  have backed : ∀ msg < after.nextMsg, Backed sys after msg := by
    intro msg small
    rcases phase.creates within with same | ⟨created, creates, next, fixed⟩
    · exact older msg (same ▸ small) small
    · by_cases fresh : msg = s.nextMsg
      · subst fresh
        exact creates.backed (fresh_of_fixed fixed) grows wellScoped charging
          within fits has (copies s.nextMsg small)
      · have below : msg < s.nextMsg + 1 := next ▸ small
        exact older msg (lt_of_le_of_ne (Nat.le_of_lt_succ below) fresh) small
  constructor
  · exact rx
  · exact e2e
  · show EveryPending (fun _ op => ∀ msg, op.charged = some msg →
      Charged sys after msg) (s.threads.set index ⟨self, new ++ rest⟩)
    refine charging.ops.run found ?_ ?_
    · intro thread threadMember other pends charged msg behind
      exact kept msg ((wellScoped.ops thread threadMember other pends).charged
        behind) (charged msg behind)
    · intro added newMember msg behind
      rcases (phase.follows added newMember).charged behind with same | rfl
      · exact has msg same
      · apply phase.passes _ fits _ within allocated
        · exact List.ne_nil_of_mem newMember
        · exact (charging.msgs msg within).copy
  · exact fun msg small => { backed msg small with }

theorem CallPhase.backed {call : Call} {new : List Op}
    (phase : CallPhase sys self s call after new) (wellScoped : WellScoped s)
    (backed : ∀ msg < s.nextMsg, Backed sys s msg) :
    ∀ msg < after.nextMsg, Backed sys after msg := by
  have grows := phase.extends
  have allocated := wellScoped.tables
  have older : ∀ msg, msg < s.nextMsg →
      (after.msgs msg).retryCount = (s.msgs msg).retryCount →
      Backed sys after msg := by
    intro msg old same
    apply (backed msg old).mono grows old allocated
    intro counted
    rw [same] at counted
    exact ((backed msg old).copy counted).mono grows old allocated
  intro msg small
  cases phase with
  | ptFree taken equality frees =>
      obtain ⟨drops, sameMes⟩ := frees
      obtain ⟨sameReqs, sameMsgs, stops⟩ := drops
      obtain ⟨live, count, same⟩ := sameMsgs msg
      apply older msg small
      simp only [same]
  | meUnlink free unlinks =>
      rw [unlinks.nextMsg] at small
      apply older msg small
      rw [unlinks.msgs]
  | @request cmd =>
      rcases Nat.lt_succ_iff_lt_or_eq.mp small with old | rfl
      · apply older msg old
        exact congrArg BxiMsg.retryCount
          (Function.update_of_ne (Nat.ne_of_lt old) _ _)
      · have created : (ptlRequest sys self s cmd).msgs s.nextMsg =
            newRequestMsg self cmd s.nextReq := by
          simp [ptlRequest, State.newMsg]
        constructor
        · rw [created]
          exact fun counted => absurd rfl counted
        · rw [created]
          intro answered answers
          cases answers
        · rw [created]
          intro answer
          rw [show (newRequestMsg self cmd s.nextReq).type.isRequest = true from
            ReqType.isRequest_msgType cmd.type] at answer
          cases answer
  | _ => exact older msg small rfl

/-- An idle actor which starts. -/
theorem Charging.start (charging : Charging sys s) (wellScoped : WellScoped s)
    {index : ThreadId} {new : List Op} {mid : State}
    (grows : Extends s mid)
    (rx : ∀ nid vn, ∀ msg ∈ mid.traffic.rx nid vn, msg ∈ s.traffic.rx nid vn)
    (e2e : ∀ nid, ∀ msg ∈ mid.traffic.e2e nid, msg ∈ s.traffic.e2e nid)
    (backed : ∀ msg < mid.nextMsg, Backed sys mid msg)
    (added : ∀ op ∈ new, ∀ msg, op.charged = some msg →
      (∃ nid vn, msg ∈ s.traffic.rx nid vn) ∨
        ∃ nid, msg ∈ s.traffic.e2e nid) :
    Charging sys { mid with threads := s.threads.set index ⟨self, new⟩ } := by
  have allocated := wellScoped.tables
  have kept : ∀ msg, msg < s.nextMsg → Charged sys s msg →
      Charged sys mid msg := fun msg old charged =>
    charged.mono grows old allocated
  have mailed : ∀ nid vn, ∀ msg ∈ s.traffic.rx nid vn, Charged sys mid msg :=
    fun nid vn msg member =>
      kept msg (allocated.rx nid vn msg member) (charging.rx nid vn msg member)
  have queued : ∀ nid, ∀ msg ∈ s.traffic.e2e nid, Charged sys mid msg :=
    fun nid msg member =>
      kept msg ((allocated.nodes nid).e2eQueue msg member)
        (charging.e2e nid msg member)
  constructor
  · exact fun nid vn msg member => mailed nid vn msg (rx nid vn msg member)
  · exact fun nid msg member => queued nid msg (e2e nid msg member)
  · show EveryPending (fun _ op => ∀ msg, op.charged = some msg →
      Charged sys mid msg) (s.threads.set index ⟨self, new⟩)
    refine charging.ops.start ?_ ?_
    · intro thread threadMember other pends charged msg behind
      exact kept msg ((wellScoped.ops thread threadMember other pends).charged
        behind) (charged msg behind)
    · intro op member msg behind
      rcases added op member msg behind with ⟨nid, vn, taken⟩ | ⟨nid, taken⟩
      · exact mailed nid vn msg taken
      · exact queued nid msg taken
  · exact fun msg small => { backed msg small with }

theorem Charging.advances {index : ThreadId} {label : Label}
    (charging : Charging sys s) (wellScoped : WellScoped s)
    (shaped : Shaped sys s) (advances : Advances sys s index label after)
    (running : after.halted = none) : Charging sys after := by
  cases advances with
  | dangling dead owner => cases running
  | run found alive phase =>
      exact charging.run wellScoped shaped found phase running
  | @recv self position msg found target queued =>
      have member : msg ∈ s.traffic.rx self.nid self.vn :=
        List.mem_of_getElem? queued
      apply charging.start wellScoped
      · exact .of_tables rfl rfl rfl rfl rfl rfl rfl rfl (List.prefix_refl _)
      · intro nid vn other taken
        change other ∈ setQueue s.rx self.nid self.vn
          ((s.rx self.nid self.vn).eraseIdx position) nid vn at taken
        rw [setQueue_apply] at taken
        split at taken
        · rename_i here
          rw [here.1, here.2]
          exact List.mem_of_mem_eraseIdx taken
        · exact taken
      · exact fun _ _ member => member
      · exact fun other small => { charging.msgs other small with }
      · intro op pends other behind
        rcases List.mem_cons.mp pends with rfl | rest
        · cases behind
          exact .inl ⟨_, _, member⟩
        · rw [List.mem_singleton.mp rest] at behind
          cases behind
  | @take self msg rest found initiator queued =>
      have traffic := s.traffic_take queued
      apply charging.start wellScoped (.modNode s _ _)
      · intro nid vn other member
        rw [show (State.modNode s self.nid _).traffic = _ from traffic] at member
        exact member
      · intro nid other member
        rw [show (State.modNode s self.nid _).traffic = _ from traffic] at member
        exact member
      · exact fun other small => { charging.msgs other small with }
      · intro op pends other behind
        rw [List.mem_singleton.mp pends] at behind
        cases behind
  | @wake self msg rest found e2e alive queued =>
      have traffic := s.traffic_e2e self.nid List.tail
      have member : msg ∈ s.traffic.e2e self.nid := by
        change msg ∈ (s.nodes self.nid).e2eQueue
        rw [queued]
        exact List.mem_cons_self
      apply charging.start wellScoped (.modNode s _ _)
      · intro nid vn other taken
        exact taken
      · intro nid other taken
        rw [show (State.modNode s self.nid _).traffic = _ from traffic] at taken
        simp only [Function.update_apply] at taken
        split at taken
        · rename_i here
          rw [here]
          exact List.mem_of_mem_tail taken
        · exact taken
      · exact fun other small => { charging.msgs other small with }
      · intro op pends other behind
        rw [List.mem_singleton.mp pends] at behind
        cases behind
        exact .inr ⟨_, member⟩
  | @call self call new next found user owned alive phase =>
      obtain ⟨traffic, log, nothing⟩ := phase.carries
      apply charging.start wellScoped phase.extends
      · rw [traffic]
        exact fun _ _ _ member => member
      · rw [traffic]
        exact fun _ _ member => member
      · exact phase.backed wellScoped charging.msgs
      · intro op pends other behind
        cases phase with
        | appendPriority taken =>
            rw [List.mem_singleton.mp pends] at behind
            cases behind
        | appendOverflow taken =>
            rw [issueLink_every (P := fun op => op.charged = none)
              (fun _ _ _ => rfl) op pends] at behind
            cases behind
        | request =>
            rw [List.mem_singleton.mp pends] at behind
            cases behind
        | _ => cases pends

/-! ## Releases -/

/-- A request message is debited with the key which `send_ack`,
`handle_response` and `handle_ptl_ack` compute from its request. -/
theorem acknowledges_request {request : MsgId} (small : request < s.nextMsg)
    (type : (s.msgs request).type.isRequest = true)
    (shape : Shape sys s request) (charged : Charged sys s request) :
    Acknowledges sys s (sys.mdNid (s.parent request).md) (s.vnOf request)
      ⟨sys.mdPid (s.parent request).md, (s.parent request).targetPid,
        (s.parent request).targetNid⟩ (s.reqOf request) request := by
  have way := (shape.of_isRequest type).2
  have vn : s.vnOf request = .request (s.parent request).serviceVn := by
    unfold State.vnOf BxiMsg.getVn
    rw [if_pos type]
    rfl
  constructor
  · exact small
  · intro ack
    rw [ack] at type
    cases type
  · exact way.initiator
  · rfl
  · have network : (s.vnOf request).isRequest = true := by
      rw [vn]
      cases (s.parent request).serviceVn <;> rfl
    unfold flowctrlKey
    dsimp only
    rw [if_pos network, way.target]
    rfl
  · rfl
  · exact charged

/-- The release of `handle_response` and `handle_ptl_ack`. -/
theorem releaseAnswered_acknowledges (charging : Charging sys s)
    (shaped : Shaped sys s) (old : msg < s.nextMsg)
    (here : (s.msgs msg).target = self.nid)
    (way : Inward sys s msg) (answer : (s.msgs msg).type.isRequest = false)
    (type : (s.msgs msg).type ≠ .e2eAck) :
    ∃ acked, (Op.handle msg).Acks s acked ∧ Acknowledges sys s self.nid
      (.request (s.reqs (s.reqOf msg)).serviceVn)
      ⟨sys.mdPid (s.reqs (s.reqOf msg)).md, (s.reqs (s.reqOf msg)).targetPid,
        (s.msgs msg).initiator⟩ (s.reqOf msg) acked := by
  obtain ⟨request, small, kind, same, charged⟩ :=
    (charging.msgs msg old).answer answer
  have acknowledges := acknowledges_request small kind (shaped.msgs request small)
    charged
  have parent : s.parent request = s.parent msg := congrArg s.reqs same
  have vn : s.vnOf request = .request (s.parent msg).serviceVn := by
    unfold State.vnOf BxiMsg.getVn
    rw [if_pos kind, same]
    rfl
  have node : sys.mdNid (s.parent msg).md = self.nid := by
    rw [← way.target]
    exact here
  rw [vn, parent, same, node, ← way.initiator] at acknowledges
  refine ⟨request, ?_, acknowledges⟩
  simp only [Op.Acks, if_neg type]
  exact ⟨kind, same⟩

/-- The release of `handle_bxi_ack`. -/
theorem bxiAck_acknowledges (charging : Charging sys s) (shaped : Shaped sys s)
    (wellScoped : WellScoped s) (old : msg < s.nextMsg)
    (here : (s.msgs msg).target = self.nid)
    (type : (s.msgs msg).type = .e2eAck) {answered : MsgId}
    (answers : (s.msgs msg).answersMsg = some answered) :
    Acknowledges sys s self.nid (s.vnOf answered)
      (bxiAckKey sys s msg answered) (s.reqOf msg) answered := by
  have older := lt_trans (wellScoped.tables.answers msg old answered answers) old
  have charged := (charging.msgs msg old).answered answered answers
  have shape := shaped.msgs answered older
  have way : (s.msgs answered).type ≠ .e2eAck ∧
      (s.msgs answered).initiator = (s.msgs msg).target ∧
      s.reqOf answered = s.reqOf msg := by
    cases shaped.msgs msg old with
    | request kind way =>
        have request : (s.msgs msg).type.isRequest = true := by
          rw [kind]
          exact ReqType.isRequest_msgType _
        rw [type] at request
        cases request
    | response kind way =>
        have answer := ReqType.isResponse_responseType kind
        rw [type] at answer
        cases answer
    | ptlAck kind putLike slow way =>
        rw [type] at kind
        cases kind
    | requestAck kind putLike slow way other answers' same kind' =>
        rw [answers] at answers'
        cases answers'
        have request : (s.msgs answered).type.isRequest = true := by
          rw [kind']
          exact ReqType.isRequest_msgType _
        refine ⟨?_, ?_, same⟩
        · intro ack
          rw [ack] at request
          cases request
        · rw [way.target, (shape.of_isRequest request).2.initiator]
          exact congrArg (fun req => sys.mdNid (s.reqs req).md) same
    | answerAck kind way other answers' same kind' =>
        rw [answers] at answers'
        cases answers'
        have inward : Inward sys s answered := by
          rcases kind' with response | ack
          · exact (shape.of_isResponse
              (ReqType.isResponse_responseType response)).2
          · exact (shape.of_ptlAck ack).2.2
        refine ⟨?_, ?_, same⟩
        · rcases kind' with response | ack
          · intro wrong
            have answer := ReqType.isResponse_responseType response
            rw [wrong] at answer
            cases answer
          · rw [ack]
            exact nofun
        · rw [way.target, inward.initiator]
          exact congrArg (fun req => (s.reqs req).targetNid) same
  obtain ⟨kind, initiator, same⟩ := way
  constructor
  · exact older
  · exact kind
  · exact initiator.trans here
  · rfl
  · unfold flowctrlKey bxiAckKey
    dsimp only
    rw [same]
  · exact same
  · exact charged

theorem Follows.releases {op added : Op} (follows : Follows sys self s op added)
    {args : Nid × Vn × FlowctrlProcessId × ReqId}
    (releases : added.releases = some args) :
    op.releases = some args ∨ (∃ msg, op = .handle msg) ∨
      ∃ msg type fail, op = .sendAck msg type fail := by
  cases follows with
  | releaseCounts => exact .inl releases
  | releaseAnswered => exact .inr (.inl ⟨_, rfl⟩)
  | releaseAcked => exact .inr (.inl ⟨_, rfl⟩)
  | quickRelease => exact .inr (.inr ⟨_, _, _, rfl⟩)
  | @matched msg pt list me fail kind type found =>
      cases kind <;> cases releases
  | _ => cases releases

/-- The releases which a handler leaves. -/
theorem Phase.acknowledges {op : Op} {new : List Op}
    (phase : Phase sys self s op after new) (charging : Charging sys s)
    (shaped : Shaped sys s) (wellScoped : WellScoped s)
    (within : op.Within s.bounds) (fits : op.Shaped s self)
    (passed : ∀ msg, op.charged = some msg → Charged sys s msg)
    {added : Op} (member : added ∈ new) {nid : Nid} {vn : Vn}
    {key : FlowctrlProcessId} {req : ReqId}
    (releases : added.releases = some (nid, vn, key, req)) :
    op.releases = some (nid, vn, key, req) ∨
      ∃ acked, op.Acks s acked ∧ Acknowledges sys s nid vn key req acked := by
  rcases (phase.follows added member).releases releases with
    same | ⟨msg, rfl⟩ | ⟨msg, type, fail, rfl⟩
  · exact .inl same
  · right
    cases phase with
    | quiet quiet =>
        cases quiet with
        | unmatched type fresh absent asked =>
            rw [List.mem_singleton.mp member] at releases
            cases releases
        | _ => cases member
    | respondUnmatched type fetches fresh absent =>
        rw [List.mem_singleton.mp member] at releases
        cases releases
    | @matched _ pt list me fail kind effects stop type fresh found memory
        later stops =>
        rcases List.mem_append.mp member with counter | finish
        · rw [meCounter_every (P := fun op => op.releases = none)
            (fun _ _ => rfl) added counter] at releases
          cases releases
        · rw [List.mem_singleton.mp finish] at releases
          cases kind <;> cases releases
    | handleResponse type =>
        rcases List.mem_cons.mp member with rfl | rest
        · cases releases
          have response : (s.msgs msg).type.isResponse = true := by
            rcases type with get | fetch
            · rw [get]
              rfl
            · rw [fetch]
              rfl
          apply releaseAnswered_acknowledges charging shaped within fits
          · exact ((shaped.msgs msg within).of_isResponse response).2
          · rcases type with get | fetch
            · rw [get]
              rfl
            · rw [fetch]
              rfl
          · intro wrong
            rw [wrong] at response
            cases response
        · rw [List.mem_singleton.mp rest] at releases
          cases releases
    | handlePtlAck type =>
        rcases List.mem_cons.mp member with rfl | rest
        · cases releases
          apply releaseAnswered_acknowledges charging shaped within fits
          · exact ((shaped.msgs msg within).of_ptlAck type).2.2
          · rw [type]
            rfl
          · rw [type]
            exact nofun
        · rcases List.mem_cons.mp rest with rfl | last
          · cases releases
          · rw [List.mem_singleton.mp last] at releases
            cases releases
    | ackWithoutAnswer type fresh missing => cases member
    | @handleBxiAck _ answered type fresh answers =>
        rcases List.mem_cons.mp member with rfl | rest
        · cases releases
          refine ⟨answered, ?_, bxiAck_acknowledges charging shaped wellScoped
            within fits type answers⟩
          simp only [Op.Acks, if_pos type]
          exact answers
        · rw [List.mem_singleton.mp rest] at releases
          cases releases
  · right
    obtain ⟨here, kinds, -⟩ := fits
    cases phase with
    | quiet quiet => cases quiet
    | sendAck slow =>
        rw [List.mem_singleton.mp member] at releases
        cases releases
    | quickAck quick =>
        rcases List.mem_cons.mp member with rfl | rest
        · cases releases
          have request : (s.msgs msg).type.isRequest = true := by
            rcases kinds with put | atomic
            · rw [put]
              rfl
            · rw [atomic]
              rfl
          have acknowledges := acknowledges_request within request
            (shaped.msgs msg within) (passed msg rfl)
          have way := ((shaped.msgs msg within).of_isRequest request).2
          rw [← way.target, here] at acknowledges
          exact ⟨msg, rfl, acknowledges⟩
        · rcases List.mem_cons.mp rest with rfl | acks
          · cases releases
          · rw [issueAck_every (P := fun op => op.releases = none)
              (fun _ _ => rfl) rfl added acks] at releases
            cases releases

theorem CallPhase.releases {call : Call} {new : List Op}
    (phase : CallPhase sys self s call after new) :
    ∀ op ∈ new, op.releases = none := by
  cases phase with
  | appendPriority taken => simp [Op.releases]
  | appendOverflow taken => exact issueLink_every fun _ _ _ => rfl
  | request => simp [Op.releases]
  | _ => simp

theorem Releasing.advances {index : ThreadId} {label : Label}
    (releasing : Releasing sys s) (charging : Charging sys s)
    (wellScoped : WellScoped s) (shaped : Shaped sys s)
    (advances : Advances sys s index label after) : Releasing sys after := by
  have grows := advances.extends
  have kept : ∀ op : Op, (∀ nid vn key req,
      op.releases = some (nid, vn, key, req) →
        ∃ acked, Acknowledges sys s nid vn key req acked) →
      ∀ nid vn key req, op.releases = some (nid, vn, key, req) →
        ∃ acked, Acknowledges sys after nid vn key req acked := by
    intro op known nid vn key req releases
    obtain ⟨acked, acknowledges⟩ := known nid vn key req releases
    exact ⟨acked, acknowledges.mono grows wellScoped.tables⟩
  have started : ∀ {self : Actor} {new : List Op},
      (∀ op ∈ new, op.releases = none) →
      EveryPending (fun _ op => ∀ nid vn key req,
        op.releases = some (nid, vn, key, req) →
          ∃ acked, Acknowledges sys after nid vn key req acked)
        (s.threads.set index ⟨self, new⟩) := by
    intro self new silent
    refine releasing.start (fun _ _ other _ => kept other) ?_
    intro op member nid vn key req releases
    rw [silent op member] at releases
    cases releases
  cases advances with
  | dangling dead owner => exact releasing.mono fun _ => kept
  | run found alive phase =>
      have member := List.mem_of_getElem? found
      refine releasing.run found (fun _ _ other _ => kept other) ?_
      intro added newMember
      apply kept
      intro nid vn key req releases
      rcases phase.acknowledges charging shaped wellScoped
        (wellScoped.ops _ member _ (by simp)) (shaped.ops _ member _ (by simp))
        (charging.ops _ member _ (by simp)) newMember releases with
        same | ⟨acked, acks, acknowledges⟩
      · exact releasing _ member _ (by simp) nid vn key req same
      · exact ⟨acked, acknowledges⟩
  | recv found target queued => exact started (by simp [Op.releases])
  | take found initiator queued => exact started (by simp [Op.releases])
  | wake found e2e alive queued => exact started (by simp [Op.releases])
  | call found user owned alive phase => exact started phase.releases

/-! ## Panics -/

/-- The panics of a release without its counters and of a BXI ACK without the
message it answers. -/
def Panic.unpaid : Panic → Bool
  | .missingNodeCounter | .missingProcessCounter | .ackWithoutAnswer => true
  | _ => false

def Halt.unpaid : Halt → Bool
  | .panic reason => reason.unpaid
  | _ => false

theorem checkLevel_panicked {maxInflight : Int} {negative reason : Panic}
    {count : Option Int}
    (panicked : (checkLevel maxInflight negative count).1 = .panicked reason) :
    reason = negative := by
  unfold checkLevel at panicked
  split at panicked
  · cases panicked
  · dsimp only at panicked
    split at panicked
    · exact (Grant.panicked.inj panicked).symm
    · split at panicked <;> cases panicked

theorem checkCredits_panicked {cfg : Config} {node : BxiNode} {vn : Vn}
    {key : FlowctrlProcessId} {reason : Panic}
    (panicked : (node.checkCredits cfg vn key).1 = .panicked reason) :
    reason.unpaid = false := by
  unfold BxiNode.checkCredits at panicked
  dsimp only at panicked
  split at panicked
  · split at panicked
    · cases panicked
    · rw [checkLevel_panicked panicked]
      rfl
  · rw [checkLevel_panicked panicked]
    rfl

theorem Unlinks.halted {me : MeId} (unlinks : Unlinks s me after)
    {halt : Halt} (halted : after.halted = some halt) :
    s.halted = some halt ∨ halt.unpaid = false := by
  cases unlinks with
  | deferred used => exact .inl halted
  | removed free linked => exact .inl halted
  | notLinked free absent =>
      cases halted
      exact .inr rfl

theorem Leaves.halted {me : MeId} {before following : List Op}
    (leaves : Leaves s me after before following) {halt : Halt}
    (halted : after.halted = some halt) :
    s.halted = some halt ∨ halt.unpaid = false := by
  cases leaves with
  | kept staying => exact .inl halted
  | unlinked eq event leaving unlinks kind => exact unlinks.halted halted

/-- An operation does not panic for want of a counter or of an answered message.
-/
theorem Phase.paid {op : Op} {new : List Op}
    (phase : Phase sys self s op after new) (within : op.Within s.bounds)
    (running : s.halted = none) (shaped : Shaped sys s)
    (counted : ∀ nid vn key req, op = .releaseCounts nid vn key req →
      (s.nodes nid).Counted sys.cfg vn key) {halt : Halt}
    (halted : after.halted = some halt) : halt.unpaid = false := by
  have still : s.halted = some halt → halt.unpaid = false := by
    intro same
    rw [running] at same
    cases same
  have stopped : ∀ {stop : Option Halt},
      stop = s.halted ∨ stop = some (.panic .nullCopy) →
      stop = some halt → halt.unpaid = false := by
    intro stop stops same
    rcases stops with kept | null
    · exact still (kept.symm.trans same)
    · cases null.symm.trans same
      rfl
  cases phase with
  | quiet quiet => exact still halted
  | @creditPanic nid vn key req reason nodeCounts processCounts released =>
      have present := counted nid vn key req rfl
      have panicked := BxiNode.releaseCredits_present present
        (congrArg Prod.fst released)
      cases halted
      rcases panicked with rfl | rfl
      · rfl
      · rfl
  | emptyDeque waiting =>
      cases halted
      rfl
  | matched type fresh found memory later stops => exact stopped stops halted
  | respondUnmatched type fetches fresh absent =>
      rcases fetches with rfl | rfl
      · exact still halted
      · exact still halted
  | @ackWithoutAnswer msg type fresh missing =>
      cases shaped.msgs msg within with
      | request kind way =>
          have request : (s.msgs msg).type.isRequest = true := by
            rw [kind]
            exact ReqType.isRequest_msgType _
          rw [type] at request
          cases request
      | response kind way =>
          have answer := ReqType.isResponse_responseType kind
          rw [type] at answer
          cases answer
      | ptlAck kind putLike slow way =>
          rw [type] at kind
          cases kind
      | requestAck kind putLike slow way other answers =>
          rw [missing] at answers
          cases answers
      | answerAck kind way other answers =>
          rw [missing] at answers
          cases answers
  | handleBxiAck type fresh answers => exact still halted
  | putFinish leaves => exact (leaves.halted halted).elim still id
  | getFinish memory stops leaves =>
      rcases leaves.halted halted with kept | paid
      · exact stopped stops kept
      · exact paid
  | atomicEvents leaves => exact (leaves.halted halted).elim still id
  | fetchAtomicFinish leaves => exact (leaves.halted halted).elim still id
  | deferredUnlink flagged unlinks =>
      exact (unlinks.halted halted).elim still id
  | unref equality drops =>
      obtain ⟨sameReqs, sameMsgs, stops⟩ := drops
      rcases stops with kept | ⟨ptr, dangling⟩
      · exact still (kept.symm.trans halted)
      · cases dangling.symm.trans halted
        rfl
  | creditsPanic subject checked =>
      cases halted
      exact checkCredits_panicked (congrArg Prod.fst checked)
  | @retransmit msg pending more =>
      apply still
      unfold S4BXI.retransmit at halted
      dsimp only at halted
      split at halted
      · exact halted
      · exact halted
  | retryPanic pending beyond =>
      cases halted
      rfl
  | noMatchedMe found missing =>
      cases halted
      rfl
  | _ => exact still halted

/-- The counters are released only where E2E is on. -/
def Enabled (sys : Sys) (s : State) : Prop :=
  EveryPending (fun _ op => ∀ nid vn key req,
    op = .releaseCounts nid vn key req → (sys.node nid).e2eOff = false)
    s.threads

theorem Phase.enabled {op : Op} {new : List Op}
    (phase : Phase sys self s op after new) {nid : Nid} {vn : Vn}
    {key : FlowctrlProcessId} {req : ReqId}
    (member : Op.releaseCounts nid vn key req ∈ new) :
    (sys.node nid).e2eOff = false := by
  have releases : op = .releaseE2eEntry nid vn key req := by
    generalize same : Op.releaseCounts nid vn key req = added at member
    cases phase.follows added member with
    | releaseCounts =>
        cases same
        rfl
    | @matched msg pt list me fail kind type found => cases kind <;> cases same
    | _ => cases same
  subst releases
  cases phase with
  | quiet quiet => cases quiet; cases member
  | releaseE2eEntry on => exact on

theorem Enabled.advances {index : ThreadId} {label : Label}
    (enabled : Enabled sys s) (advances : Advances sys s index label after) :
    Enabled sys after := by
  have started : ∀ {self : Actor} {new : List Op},
      (∀ op ∈ new, op.releases = none) →
      EveryPending (fun _ op => ∀ nid vn key req,
        op = .releaseCounts nid vn key req →
          (sys.node nid).e2eOff = false)
        (s.threads.set index ⟨self, new⟩) := by
    intro self new silent
    refine enabled.start (fun _ _ _ _ => id) ?_
    intro op member nid vn key req same
    have releases := silent op member
    rw [same] at releases
    cases releases
  cases advances with
  | dangling dead owner => exact enabled
  | run found alive phase =>
      refine enabled.run found (fun _ _ _ _ => id) ?_
      intro added member nid vn key req same
      rw [same] at member
      exact phase.enabled member
  | recv found target queued => exact started (by simp [Op.releases])
  | take found initiator queued => exact started (by simp [Op.releases])
  | wake found e2e alive queued => exact started (by simp [Op.releases])
  | call found user owned alive phase => exact started phase.releases

/-! ## Runs -/

theorem ReachedBy.charging {allowed : State → Label → Prop}
    (reached : ReachedBy sys allowed s) (running : s.halted = none) :
    Charging sys s := by
  let Along : State → Prop := fun s => s.halted = none → Charging sys s
  have along : Along s := by
    refine reached.invariant_of_reached (fun _ => ?_) ?_
    · constructor
      · exact fun _ _ _ member => nomatch member
      · exact fun _ _ member => nomatch member
      · intro thread member op pends
        obtain ⟨actor, _, rfl⟩ := List.mem_map.mp member
        cases pends
      · exact fun msg small => absurd small (Nat.not_lt_zero msg)
    · intro before after label earlier charging _ stepped running
      exact (charging (step_enabled stepped).1).advances
        (ReachedBy.wellScoped earlier) (ReachedBy.shaped earlier)
        (step_advances stepped) running
  exact along running

theorem ReachedBy.releasing {allowed : State → Label → Prop}
    (reached : ReachedBy sys allowed s) : Releasing sys s := by
  apply reached.invariant_of_reached
  · intro thread member op pends
    obtain ⟨actor, _, rfl⟩ := List.mem_map.mp member
    cases pends
  · intro before after label earlier releasing _ stepped
    exact releasing.advances
      (ReachedBy.charging earlier (step_enabled stepped).1)
      (ReachedBy.wellScoped earlier) (ReachedBy.shaped earlier)
      (step_advances stepped)

theorem ReachedBy.enabled {allowed : State → Label → Prop}
    (reached : ReachedBy sys allowed s) : Enabled sys s := by
  apply reached.invariant_of_reached
  · intro thread member op pends
    obtain ⟨actor, _, rfl⟩ := List.mem_map.mp member
    cases pends
  · intro before after label earlier enabled _ stepped
    exact enabled.advances (step_advances stepped)

/-- The counters which a pending release is about to use. -/
theorem ReachedBy.release_counted {allowed : State → Label → Prop}
    (reached : ReachedBy sys allowed s) {thread : Thread Actor Op}
    (member : thread ∈ s.threads) {nid : Nid} {vn : Vn}
    {key : FlowctrlProcessId} {req : ReqId}
    (pends : Op.releaseCounts nid vn key req ∈ thread.ops) :
    (s.nodes nid).Counted sys.cfg vn key := by
  obtain ⟨acked, acknowledges⟩ :=
    ReachedBy.releasing reached thread member _ pends nid vn key req rfl
  have on := ReachedBy.enabled reached thread member _ pends nid vn key req rfl
  have debited := acknowledges.charged acknowledges.type
    (acknowledges.initiator ▸ on)
  rw [acknowledges.initiator, acknowledges.vn, acknowledges.key,
    acknowledges.req] at debited
  exact ReachedBy.counting reached nid vn key req debited

theorem CallPhase.paid {call : Call} {new : List Op}
    (phase : CallPhase sys self s call after new) (running : s.halted = none)
    {halt : Halt} (halted : after.halted = some halt) :
    halt.unpaid = false := by
  have still : s.halted = some halt → halt.unpaid = false := by
    intro same
    rw [running] at same
    cases same
  cases phase with
  | pidInUse =>
      cases halted
      rfl
  | ptFree taken equality frees =>
      obtain ⟨drops, sameMes⟩ := frees
      obtain ⟨sameReqs, sameMsgs, stops⟩ := drops
      rcases stops with kept | ⟨ptr, dangling⟩
      · exact still (kept.symm.trans halted)
      · cases dangling.symm.trans halted
        rfl
  | meUnlink free unlinks => exact (unlinks.halted halted).elim still id
  | _ => exact still halted

/-- No run ends for want of a flow-control counter or of an answered message.
-/
theorem ReachedBy.paid {allowed : State → Label → Prop}
    (reached : ReachedBy sys allowed s) {halt : Halt}
    (halted : s.halted = some halt) : halt.unpaid = false := by
  let Paid : State → Prop := fun s => s.halted = some halt →
    halt.unpaid = false
  have paid : Paid s := by
    refine reached.invariant_of_reached nofun ?_
    intro before after label earlier _ _ stepped halted
    have running := (step_enabled stepped).1
    have wellScoped := ReachedBy.wellScoped earlier
    have still : before.halted = some halt → halt.unpaid = false := by
      intro same
      rw [running] at same
      cases same
    have advances := step_advances stepped
    generalize label.thread = index at advances
    cases advances with
    | dangling dead owner =>
        cases halted
        rfl
    | @run self op rest new next found alive phase =>
        have member := List.mem_of_getElem? found
        refine phase.paid (wellScoped.ops _ member op (by simp)) running
          (ReachedBy.shaped earlier) ?_ halted
        intro nid vn key req same
        subst same
        exact ReachedBy.release_counted earlier member List.mem_cons_self
    | recv found target queued => exact still halted
    | take found initiator queued => exact still halted
    | wake found e2e alive queued => exact still halted
    | call found user owned alive phase => exact phase.paid running halted
  exact paid halted

/-! ## Credits are released where they were taken -/

/-- The releases of a state: each call of `release_e2e_entry` names the node,
the VN and the key of an acknowledged message, which were debited if E2E is on;
those which a handler makes are for the message it acknowledges; and no counter
and no answered message was missed. -/
structure ReleasesMatch (sys : Sys) (s : State) : Prop where
  calls : ∀ thread ∈ s.threads, ∀ nid vn key req,
    Op.releaseE2eEntry nid vn key req ∈ thread.ops →
      (∃ acked, Acknowledges sys s nid vn key req acked) ∧
        ((sys.node nid).e2eOff = false →
          Obs.debit nid vn key req ∈ s.log)
  handlers : s.halted = none → ∀ (thread : ThreadId) (self : Actor) (op : Op)
    (rest : List Op) (new : Segment) (nid : Nid) (vn : Vn)
    (key : FlowctrlProcessId) (req : ReqId),
    s.threads[thread]? = some ⟨self, op :: rest⟩ →
      exec sys self s op = some new →
      Op.releaseE2eEntry nid vn key req ∈ new.2 →
        ∃ acked, op.Acks s acked ∧ Acknowledges sys s nid vn key req acked
  nodeCounter : s.halted ≠ some (.panic .missingNodeCounter)
  processCounter : s.halted ≠ some (.panic .missingProcessCounter)
  answered : s.halted ≠ some (.panic .ackWithoutAnswer)

theorem releases_match (reachable : Reachable sys s) : ReleasesMatch sys s := by
  have unpaid : ∀ {halt : Halt}, halt.unpaid = true →
      s.halted ≠ some halt := by
    intro halt unpaid halted
    rw [ReachedBy.paid reachable halted] at unpaid
    cases unpaid
  constructor
  · intro thread member nid vn key req pends
    obtain ⟨acked, acknowledges⟩ :=
      ReachedBy.releasing reachable thread member _ pends nid vn key req rfl
    refine ⟨⟨acked, acknowledges⟩, fun on => ?_⟩
    have debited := acknowledges.charged acknowledges.type
      (acknowledges.initiator ▸ on)
    rw [acknowledges.initiator, acknowledges.vn, acknowledges.key,
      acknowledges.req] at debited
    exact debited
  · intro running index self op rest new nid vn key req found executed member
    have charging := ReachedBy.charging reachable running
    have wellScoped := ReachedBy.wellScoped reachable
    have shaped := ReachedBy.shaped reachable
    have thread := List.mem_of_getElem? found
    have phase := exec_phase executed
    rcases phase.acknowledges charging shaped wellScoped
      (wellScoped.ops _ thread op (by simp)) (shaped.ops _ thread op (by simp))
      (charging.ops _ thread op (by simp)) member rfl with same | acknowledges
    · -- A release does not make another one.
      have first : (∃ msg, op = .handle msg) ∨
          ∃ msg type fail, op = .sendAck msg type fail := by
        generalize same' : Op.releaseE2eEntry nid vn key req = added at member
        cases phase.follows added member with
        | releaseAnswered => exact .inl ⟨_, rfl⟩
        | releaseAcked => exact .inl ⟨_, rfl⟩
        | quickRelease => exact .inr ⟨_, _, _, rfl⟩
        | @matched msg pt list me fail kind type found =>
            cases kind <;> cases same'
        | _ => cases same'
      rcases first with ⟨msg, rfl⟩ | ⟨msg, type, fail, rfl⟩
      · cases same
      · cases same
    · exact acknowledges
  · exact unpaid rfl
  · exact unpaid rfl
  · exact unpaid rfl

end Steps

/-- Both levels of flow control are on, and the initiator is about to release
the entries of its Put. -/
theorem put_releases_match :
    ∃ s, Reachable (twoNodes { maxInflightToTarget := 2
                               maxInflightToProcess := 1 }
        { e2eOff := false }) s ∧
      (∃ thread ∈ s.threads, ∃ nid vn key req,
        Op.releaseE2eEntry nid vn key req ∈ thread.ops) ∧
      ReleasesMatch (twoNodes { maxInflightToTarget := 2
                                maxInflightToProcess := 1 }
        { e2eOff := false }) s := by
  obtain ⟨s, reachable, holds⟩ := reachable_of_executes
    (twoNodes { maxInflightToTarget := 2, maxInflightToProcess := 1 }
      { e2eOff := false }) (acknowledgedPut.take 41)
    (fun s => s.threads.any fun thread => thread.ops.any fun op =>
      op.releases.isSome && !op.blocking) (by decide +kernel)
  refine ⟨s, reachable, ?_, releases_match reachable⟩
  obtain ⟨thread, member, found⟩ := List.any_eq_true.mp holds
  obtain ⟨op, pends, released⟩ := List.any_eq_true.mp found
  refine ⟨thread, member, ?_⟩
  cases op with
  | releaseE2eEntry nid vn key req => exact ⟨nid, vn, key, req, pends⟩
  | _ => cases released

end S4BXI
