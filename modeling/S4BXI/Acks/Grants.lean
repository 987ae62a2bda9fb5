import S4BXI.Acks.Tokens

/-!
# One grant for each request

A request which was matched is granted: its handler is about to acknowledge it,
or has built the answer.  Without retransmission there is at most one grant for
a request, and none before it is received.
-/

namespace S4BXI

open Lib

/-- Whether a message is the answer to a matched request, or its BXI ACK. -/
def State.grants (s : State) (msg : MsgId) : Bool :=
  (s.msgs msg).type.isAnswer && (s.msgs msg).niFailType == .ok ||
    (s.msgs msg).type == .e2eAck && s.replies msg

/-- The grant of a request which a message is. -/
def State.grant (s : State) (req : ReqId) (msg : MsgId) : Nat :=
  if s.reqOf msg = req ∧ s.grants msg = true then 1 else 0

/-- The grant of a request which an operation is about to send. -/
def Op.grant (s : State) (req : ReqId) : Op → Nat
  | .putFinish msg _ _ | .atomicFinish msg _ _ =>
      if s.reqOf msg = req then 1 else 0
  | .sendAck msg type fail =>
      if s.reqOf msg = req ∧ (type = .e2eAck ∨ fail = .ok) then 1 else 0
  | _ => 0

/-- The number of grants of a request. -/
def State.granted (s : State) (req : ReqId) : Nat :=
  pending (Op.grant s req) s.threads +
    ∑ msg ∈ Finset.range s.nextMsg, s.grant req msg

section Steps

variable {sys : Sys} {self : Actor} {s after : State}

theorem Extends.grants (grows : Extends s after) (allocated : Allocated s)
    {msg : MsgId} (old : msg < s.nextMsg) :
    after.grants msg = s.grants msg := by
  unfold State.grants
  rw [grows.type old, grows.niFailType old, grows.replies allocated old]

theorem Extends.grant (grows : Extends s after) (allocated : Allocated s)
    {msg : MsgId} (old : msg < s.nextMsg) (req : ReqId) :
    after.grant req msg = s.grant req msg := by
  unfold State.grant
  rw [grows.reqOf old, grows.grants allocated old]

theorem Op.grant_congr (grows : Extends s after) {op : Op}
    (within : op.Within s.bounds) (req : ReqId) :
    op.grant after req = op.grant s req := by
  cases op with
  | sendAck msg type fail => simp only [Op.grant, grows.reqOf within]
  | putFinish msg me fail => simp only [Op.grant, grows.reqOf within.1]
  | atomicFinish msg me fail => simp only [Op.grant, grows.reqOf within.1]
  | _ => rfl

/-- Only the handlers of a request leave an acknowledgement to send. -/
theorem Follows.grant {op added : Op} (follows : Follows sys self s op added)
    (handles : ∀ msg, op ≠ .handle msg)
    (finishes : ∀ msg me fail, op ≠ .putFinish msg me fail ∧
      op ≠ .atomicFinish msg me fail) (later : State) (req : ReqId) :
    added.grant later req = 0 := by
  cases follows with
  | putAcked => exact absurd rfl (finishes _ _ _).1
  | atomicAcked => exact absurd rfl (finishes _ _ _).2
  | unmatchedAck => exact absurd rfl (handles _)
  | matched => exact absurd rfl (handles _)
  | _ => rfl

/-- The grants which an operation leaves behind, in its operations and in the
message which it allocates. -/
def leftGrants (s after : State) (new : List Op) (req : ReqId) : Nat :=
  opsWeight (Op.grant after req) new +
    ∑ msg ∈ Finset.Ico s.nextMsg after.nextMsg, after.grant req msg

/-- The grant of an operation which ran is replaced by what it leaves. -/
theorem granted_run (wellScoped : WellScoped s) {index : ThreadId} {op : Op}
    {rest new : List Op}
    (found : s.threads[index]? = some ⟨self, op :: rest⟩)
    (phase : Phase sys self s op after new) (req : ReqId) :
    State.granted { after with
        threads := s.threads.set index ⟨self, new ++ rest⟩ } req +
        op.grant s req =
      s.granted req + leftGrants s after new req := by
  have grows := phase.extends
  have weights := @pending_run _ _ (Op.grant s req) (Op.grant after req) _ _ _
    _ _ found new fun thread member other pendingOp =>
      Op.grant_congr grows (wellScoped.ops thread member other pendingOp) req
  have split : ∑ msg ∈ Finset.range s.nextMsg, after.grant req msg +
      ∑ msg ∈ Finset.Ico s.nextMsg after.nextMsg, after.grant req msg =
        ∑ msg ∈ Finset.range after.nextMsg, after.grant req msg :=
    Finset.sum_range_add_sum_Ico _ grows.nextMsg
  have old : ∑ msg ∈ Finset.range s.nextMsg, after.grant req msg =
      ∑ msg ∈ Finset.range s.nextMsg, s.grant req msg :=
    Finset.sum_congr rfl fun msg member =>
      grows.grant wellScoped.tables (Finset.mem_range.mp member) req
  change pending (Op.grant after req)
      (s.threads.set index ⟨self, new ++ rest⟩) +
    ∑ msg ∈ Finset.range after.nextMsg, after.grant req msg + _ = _
  unfold State.granted leftGrants
  omega

theorem granted_start (wellScoped : WellScoped s) {index : ThreadId}
    {new : List Op} (found : s.threads[index]? = some ⟨self, []⟩)
    (begins : Begins s after new) (req : ReqId) :
    State.granted { after with
        threads := s.threads.set index ⟨self, new⟩ } req =
      s.granted req := by
  have grows := begins.grows
  have weights := @pending_start _ _ (Op.grant s req) (Op.grant after req) _ _
    _ found new fun thread member other pendingOp =>
      Op.grant_congr grows (wellScoped.ops thread member other pendingOp) req
  have none : opsWeight (Op.grant after req) new = 0 := by
    apply opsWeight_eq_zero
    intro op member
    have opens := begins.opens op member
    cases op <;> first | rfl | cases opens
  have split : ∑ msg ∈ Finset.range s.nextMsg, after.grant req msg +
      ∑ msg ∈ Finset.Ico s.nextMsg after.nextMsg, after.grant req msg =
        ∑ msg ∈ Finset.range after.nextMsg, after.grant req msg :=
    Finset.sum_range_add_sum_Ico _ grows.nextMsg
  have old : ∑ msg ∈ Finset.range s.nextMsg, after.grant req msg =
      ∑ msg ∈ Finset.range s.nextMsg, s.grant req msg :=
    Finset.sum_congr rfl fun msg member =>
      grows.grant wellScoped.tables (Finset.mem_range.mp member) req
  have fresh : ∑ msg ∈ Finset.Ico s.nextMsg after.nextMsg,
      after.grant req msg = 0 := by
    apply Finset.sum_eq_zero
    intro msg member
    obtain ⟨large, small⟩ := Finset.mem_Ico.mp member
    have request := (begins.requests msg small large).1
    apply if_neg
    rintro ⟨_, grants⟩
    unfold State.grants at grants
    revert request grants
    cases (after.msgs msg).type <;> simp [MsgType.isRequest,
      MsgType.isAnswer, MsgType.isResponse]
  change pending (Op.grant after req)
      (s.threads.set index ⟨self, new⟩) +
    ∑ msg ∈ Finset.range after.nextMsg, after.grant req msg = _
  unfold State.granted
  omega

/-- What is left of a grant when no message was allocated. -/
theorem leftGrants_ops {new : List Op} (same : after.nextMsg = s.nextMsg)
    (req : ReqId) :
    leftGrants s after new req = opsWeight (Op.grant after req) new := by
  simp [leftGrants, same]

/-- The acknowledgement of a request takes over its grant. -/
theorem newAck_grant {msg : MsgId} (old : msg < s.nextMsg) {type : MsgType}
    (kind : type = .ptlAck ∨ type = .e2eAck)
    (request : (s.msgs msg).type.isRequest = true) (fail : NiFailType)
    (req : ReqId) :
    (newAck s msg type fail).grant req s.nextMsg =
      (Op.sendAck msg type fail).grant s req := by
  obtain ⟨own, created⟩ := newAck_fresh s old type fail
  have token := newAck_token old kind request fail req
  have replies : (newAck s msg type fail).replies s.nextMsg = true := by
    have self := newAck_token old kind request fail (s.reqOf msg)
    unfold State.token at self
    rw [if_pos rfl, created, own] at self
    rcases kind with rfl | rfl <;> simpa [MsgType.isRequest] using self
  have outcome : ((newAck s msg type fail).msgs s.nextMsg).niFailType =
      fail := by
    have different : s.nextMsg ≠ msg := (ne_of_lt old).symm
    simp [newAck, State.newMsg, State.ref, State.modMsg, different]
  unfold State.grant State.grants Op.grant
  rw [own, created, outcome, replies]
  rcases kind with rfl | rfl <;> simp [MsgType.isAnswer, MsgType.isResponse]

/-- The BXI ACK of an answer is no grant. -/
theorem newBxiAck_grant {msg : MsgId} (old : msg < s.nextMsg)
    (answer : (s.msgs msg).type.isRequest = false) (req : ReqId) :
    (newBxiAck s msg).grant req s.nextMsg = 0 := by
  have grows : Extends s (newBxiAck s msg) :=
    (Extends.newMsg s _).trans (.ref _ _)
  have different : s.nextMsg ≠ msg := (ne_of_lt old).symm
  have older : ((newBxiAck s msg).msgs msg).type = (s.msgs msg).type :=
    grows.type old
  have type : ((newBxiAck s msg).msgs s.nextMsg).type = .e2eAck := by
    simp [newBxiAck, State.newMsg, State.ref, State.modMsg, different]
  have answers : ((newBxiAck s msg).msgs s.nextMsg).answersMsg =
      some msg := by
    simp [newBxiAck, State.newMsg, State.ref, State.modMsg, different]
  apply if_neg
  simp [State.grants, State.replies, type, answers, older, answer,
    MsgType.isAnswer, MsgType.isResponse]

theorem sendDue_grant (later : State) (msg : MsgId) (fail : NiFailType)
    (due : Option MsgType) (req : ReqId) :
    opsWeight (Op.grant later req) (sendDue msg fail due) ≤
      if later.reqOf msg = req then 1 else 0 := by
  rcases sendDue_cases msg fail due with ops | ⟨type, asked, ops⟩
  · simp [ops]
  · simp only [ops, opsWeight_cons, opsWeight_nil, Op.grant]
    by_cases own : later.reqOf msg = req
    · rw [if_pos own]
      split <;> simp
    · simp [own]

/-- The handler which found an entry grants the request, and nothing else. -/
theorem matched_grants {msg : MsgId} {pt : PtId} {list : PtlList} {me : MeId}
    {fail : NiFailType} {kind : ReqType} {effects : List Obs}
    {stop : Option Halt} (old : msg < s.nextMsg) (req : ReqId) :
    leftGrants s ((deposit s msg pt list me fail kind).touch effects stop)
        (meCounter s (s.reqOf msg) (s.mes me) ++
          [finishing msg me fail s.nextMsg kind]) req ≤
      if s.reqOf msg = req then 1 else 0 := by
  have grows : Extends s
      ((deposit s msg pt list me fail kind).touch effects stop) :=
    ((Extends.answering s msg fail kind).trans
      ((Extends.takeEntry _ _ _ _ _).trans (.receive _ _ _ _))).trans
        (.touch _ _ _)
  have own := grows.reqOf old
  have counter : ∀ later, opsWeight (Op.grant later req)
      (meCounter s (s.reqOf msg) (s.mes me)) = 0 := by
    intro later
    rcases meCounter_cases s (s.reqOf msg) (s.mes me) with
      ops | ⟨ct, amount, ops⟩ <;> simp [ops, Op.grant]
  unfold leftGrants
  rw [opsWeight_append, counter]
  simp only [opsWeight_cons, opsWeight_nil, Nat.zero_add, Nat.add_zero]
  by_cases fetches : kind = .get ∨ kind = .fetchAtomic
  · obtain ⟨answer, responds, same⟩ := ReqType.responseType_cases fetches
    obtain ⟨next, created⟩ := newResponse_created s msg answer fail
    obtain ⟨mine, outcome⟩ := @deposit_response s fail msg pt list me kind
      effects stop fetches
    have allocated : ((deposit s msg pt list me fail kind).touch effects
        stop).nextMsg = s.nextMsg + 1 := by
      simp [State.touch, deposit, same, receive, next]
    have silent : (finishing msg me fail s.nextMsg kind).grant
        ((deposit s msg pt list me fail kind).touch effects stop) req = 0 := by
      rcases fetches with rfl | rfl <;> rfl
    rw [allocated, Nat.Ico_succ_singleton, Finset.sum_singleton, silent,
      Nat.zero_add]
    unfold State.grant
    rw [mine]
    by_cases same : s.reqOf msg = req
    · rw [if_pos same]
      split <;> simp
    · simp [same]
  · have allocated : ((deposit s msg pt list me fail kind).touch effects
        stop).nextMsg = s.nextMsg := by
      cases kind with
      | put => simp [State.touch, deposit, receive, answering]
      | atomic => simp [State.touch, deposit, receive, answering]
      | get => simp at fetches
      | fetchAtomic => simp at fetches
    rw [allocated, Finset.Ico_self, Finset.sum_empty, Nat.add_zero]
    cases kind with
    | put => simp [finishing, Op.grant, own]
    | atomic => simp [finishing, Op.grant, own]
    | get => simp at fetches
    | fetchAtomic => simp at fetches

/-- A failing answer is no grant. -/
theorem respondUnmatched_grants {msg : MsgId} {fail : NiFailType}
    {kind : ReqType} (failed : fail ≠ .ok)
    (fetches : kind = .get ∨ kind = .fetchAtomic) (req : ReqId) :
    leftGrants s ((answering s msg fail kind).modMsg s.nextMsg fun m =>
        { m with simulatedSize := 0 }) [.txPut s.nextMsg] req = 0 := by
  obtain ⟨answer, responds, same⟩ := ReqType.responseType_cases fetches
  obtain ⟨next, created⟩ := newResponse_created s msg answer fail
  have response := ReqType.isResponse_responseType responds
  have outcome : ((newResponse s msg answer fail).msgs
      s.nextMsg).niFailType = fail := (congrArg BxiMsg.niFailType created :)
  have type : ((newResponse s msg answer fail).msgs s.nextMsg).type =
      answer := (congrArg BxiMsg.type created :)
  have different : answer ≠ .e2eAck := by
    rintro rfl
    cases response
  have allocated : ((newResponse s msg answer fail).modMsg s.nextMsg fun m =>
      { m with simulatedSize := 0 }).nextMsg = s.nextMsg + 1 := next
  unfold leftGrants
  rw [same, allocated, Nat.Ico_succ_singleton, Finset.sum_singleton]
  simp [Op.grant, State.grant, State.grants, State.modMsg, outcome, type,
    failed, different]

/-- The handler of a message grants a request only when it matches it. -/
theorem Phase.handle_grants {msg : MsgId} {new : List Op}
    (phase : Phase sys self s (.handle msg) after new)
    (old : msg < s.nextMsg) (running : after.halted = none) (req : ReqId) :
    leftGrants s after new req = 0 ∨
      leftGrants s after new req ≤ 1 ∧ s.reqOf msg = req ∧
        ¬(s.reqs req).processState > .created ∧
        (after.reqs req).processState = .received := by
  have still : ∀ {later : State} {ops : List Op},
      later.nextMsg = s.nextMsg → (∀ op ∈ ops, op.grant later req = 0) →
      leftGrants s later ops req = 0 := by
    intro later ops same silent
    rw [leftGrants_ops same, opsWeight_eq_zero silent]
  cases phase with
  | quiet quiet =>
      refine .inl (still rfl ?_)
      cases quiet with
      | @unmatched _ fail type fresh absent asked =>
          have failed : fail ≠ .ok := fun success =>
            (matchEntry_fail absent).mp success rfl
          simp [Op.grant, failed]
      | _ => simp
  | @respondUnmatched _ fail kind type fetches fresh absent =>
      exact .inl (respondUnmatched_grants
        (fun success => (matchEntry_fail absent).mp success rfl) fetches req)
  | @matched _ pt list me fail kind effects stop type fresh found memory
      later stops =>
      have bound := @matched_grants s msg pt list me fail kind effects stop old
        req
      by_cases same : s.reqOf msg = req
      · rw [if_pos same] at bound
        subst same
        exact .inr ⟨bound, rfl, fresh,
          deposit_processState old pt list me fail kind⟩
      · rw [if_neg same] at bound
        exact .inl (Nat.le_zero.mp bound)
  | handleResponse type =>
      exact .inl (still rfl (by simp [Op.grant, releaseAnswered]))
  | handlePtlAck type =>
      exact .inl (still rfl (by simp [Op.grant, releaseAnswered]))
  | ackWithoutAnswer type fresh missing => cases running
  | handleBxiAck type fresh answers =>
      exact .inl (still rfl (by simp [Op.grant]))

/-- An operation which grants a request hands its grant on. -/
theorem Phase.hands_on {op : Op} {new : List Op}
    (phase : Phase sys self s op after new) (within : op.Within s.bounds)
    (opShaped : op.Shaped s self) (handles : ∀ msg, op ≠ .handle msg)
    (single : ∀ msg, op = .e2eWake msg → after.nextMsg = s.nextMsg)
    (req : ReqId) : leftGrants s after new req ≤ op.grant s req := by
  have grows := phase.extends
  have idle : (∀ msg type fail, op ≠ .sendAck msg type fail) →
      (∀ msg md, op ≠ .sendBxiAck msg md) → after.nextMsg = s.nextMsg := by
    intro acks bxiAcks
    rcases phase.creates within with same | ⟨created, creates, next, fixed⟩
    · exact same
    · cases creates with
      | ack => exact absurd rfl (acks _ _ _)
      | bxiAck => exact absurd rfl (bxiAcks _ _)
      | response => exact absurd rfl (handles _)
      | copy => exact single _ rfl
  have silent : (∀ msg me fail, op ≠ .putFinish msg me fail ∧
      op ≠ .atomicFinish msg me fail) →
      opsWeight (Op.grant after req) new = 0 := fun finishes =>
    opsWeight_eq_zero fun added member =>
      (phase.follows added member).grant handles finishes after req
  cases op with
  | sendAck msg type fail =>
      have ops := silent (by simp)
      cases phase with
      | quiet quiet => cases quiet
      | quickAck quick =>
          refine ((leftGrants_ops ?_ req).trans ops).trans_le (Nat.zero_le _)
          rfl
      | sendAck slow =>
          have request : (s.msgs msg).type.isRequest = true := by
            rcases opShaped.2.1 with put | atomic
            · rw [put]
              rfl
            · rw [atomic]
              rfl
          have next : (newAck s msg type fail).nextMsg = s.nextMsg + 1 := rfl
          have hands := newAck_grant within opShaped.2.2 request fail req
          unfold leftGrants
          rw [ops, next, Nat.Ico_succ_singleton, Finset.sum_singleton, hands]
          omega
  | sendBxiAck msg md =>
      have ops := silent (by simp)
      cases phase with
      | quiet quiet =>
          exact ((leftGrants_ops rfl req).trans ops).trans_le (Nat.zero_le _)
      | sendBxiAck on =>
          have answer : (s.msgs msg).type.isRequest = false := by
            obtain ⟨_, kind⟩ := opShaped
            revert kind
            cases (s.msgs msg).type <;> decide
          have next : (newBxiAck s msg).nextMsg = s.nextMsg + 1 := rfl
          unfold leftGrants
          rw [ops, next, Nat.Ico_succ_singleton, Finset.sum_singleton,
            newBxiAck_grant within answer req]
          exact Nat.zero_le _
  | handle msg => exact absurd rfl (handles msg)
  | putFinish msg me fail =>
      have own : after.reqOf msg = s.reqOf msg := grows.reqOf within.1
      rw [leftGrants_ops (idle (by simp) (by simp))]
      cases phase with
      | quiet quiet => cases quiet
      | @putFinish _ _ _ _ before following leaves =>
          obtain ⟨first, last⟩ := leaves.every
            (P := fun op => op.grant after req = 0) (fun _ _ _ => rfl) rfl
          have event : ∀ op ∈ issuePutLike sys s .put (s.mes me)
              (s.reqOf msg), op.grant after req = 0 :=
            issuePutLike_every (P := fun op => op.grant after req = 0)
              fun _ _ _ => rfl
          have sleep : ∀ op ∈ pciSleep sys s self.nid msg,
              op.grant after req = 0 :=
            pciSleep_every (P := fun op => op.grant after req = 0) rfl
          have due := sendDue_grant after msg fail
            (ackDue sys s (s.reqOf msg) (s.mes me)) req
          rw [own] at due
          simp only [opsWeight_append, opsWeight_eq_zero first,
            opsWeight_eq_zero event, opsWeight_eq_zero last,
            opsWeight_eq_zero sleep, Op.grant]
          omega
  | atomicFinish msg me fail =>
      have own : after.reqOf msg = s.reqOf msg := grows.reqOf within.1
      rw [leftGrants_ops (idle (by simp) (by simp))]
      cases phase with
      | quiet quiet =>
          cases quiet with
          | atomicFinish =>
              have sleep : ∀ op ∈ pciSleep sys s self.nid msg,
                  op.grant s req = 0 :=
                pciSleep_every (P := fun op => op.grant s req = 0) rfl
              have due := sendDue_grant s msg fail
                (ackDue sys s (s.reqOf msg) (s.mes me)) req
              unfold S4BXI.atomicFinish
              simp only [opsWeight_append, opsWeight_cons,
                opsWeight_eq_zero sleep, Op.grant]
              omega
  | _ =>
      rw [leftGrants_ops (idle (by simp) (by simp)), silent (by simp)]
      exact Nat.zero_le _

/-- A quick acknowledgement leaves nothing to send. -/
theorem Phase.quick_grants {msg : MsgId} {type : MsgType} {fail : NiFailType}
    {new : List Op} (phase : Phase sys self s (.sendAck msg type fail) after new)
    (quick : sys.cfg.quickAcks = true) (req : ReqId) :
    leftGrants s after new req = 0 := by
  have ops : opsWeight (Op.grant after req) new = 0 :=
    opsWeight_eq_zero fun added member =>
      (phase.follows added member).grant (by simp) (by simp) after req
  cases phase with
  | quiet quiet => cases quiet
  | quickAck quick =>
      refine (leftGrants_ops ?_ req).trans ops
      rfl
  | sendAck slow => simp [quick] at slow

/-- Without retransmission the E2E circuit allocates no message. -/
theorem Unrepeated.nextMsg {index : ThreadId} {msg : MsgId}
    {rest new : List Op} (unrepeated : Unrepeated sys s (.run index))
    (found : s.threads[index]? = some ⟨self, .e2eWake msg :: rest⟩)
    (phase : Phase sys self s (.e2eWake msg) after new) :
    after.nextMsg = s.nextMsg := by
  cases phase with
  | quiet quiet => rfl
  | gaveUp pending last => rfl
  | retransmit pending more =>
      exact absurd more (unrepeated.not_retransmitted found pending)
  | retryPanic pending beyond => rfl

/-- What is not allocated is not granted. -/
theorem WellScoped.granted_fresh (wellScoped : WellScoped s) {req : ReqId}
    (fresh : s.nextReq ≤ req) : s.granted req = 0 := by
  have foreign : ∀ msg < s.nextMsg, s.reqOf msg ≠ req := by
    intro msg small same
    have bound := wellScoped.tables.parents msg small
    rw [same] at bound
    exact absurd fresh (not_le.mpr bound)
  have ops : pending (Op.grant s req) s.threads = 0 := by
    apply pending_eq_zero
    intro thread member op pendingOp
    have within := wellScoped.ops thread member op pendingOp
    cases op with
    | sendAck msg type fail => simp [Op.grant, foreign msg within]
    | putFinish msg me fail => exact if_neg (foreign msg within.1)
    | atomicFinish msg me fail => exact if_neg (foreign msg within.1)
    | _ => rfl
  have msgs : ∑ msg ∈ Finset.range s.nextMsg, s.grant req msg = 0 := by
    apply Finset.sum_eq_zero
    intro msg member
    apply if_neg
    rintro ⟨same, _⟩
    exact foreign msg (Finset.mem_range.mp member) same
  unfold State.granted
  omega

/-- A request is granted once, after it was received. -/
def Granting (s : State) : Prop :=
  ∀ req, s.granted req ≤ 1 ∧
    (¬(s.reqs req).processState > .created → s.granted req = 0)

theorem Granting.run (granting : Granting s) (wellScoped : WellScoped s)
    (shaped : Shaped sys s) {index : ThreadId} {op : Op} {rest new : List Op}
    (found : s.threads[index]? = some ⟨self, op :: rest⟩)
    (phase : Phase sys self s op after new) (running : after.halted = none)
    (unrepeated : Unrepeated sys s (.run index)) :
    Granting { after with
      threads := s.threads.set index ⟨self, new ++ rest⟩ } := by
  have member := List.mem_of_getElem? found
  have within := wellScoped.ops _ member op List.mem_cons_self
  intro req
  obtain ⟨once, fresh⟩ := granting req
  have law := granted_run wellScoped found phase req
  have progress := (phase.progress within req).state
  have known : ¬(after.reqs req).processState > .created →
      ¬(s.reqs req).processState > .created :=
    fun unknown received => unknown (Nat.lt_of_lt_of_le received progress)
  change _ ∧ (¬(after.reqs req).processState > .created → _)
  by_cases handles : ∃ msg, op = .handle msg
  · obtain ⟨msg, rfl⟩ := handles
    rcases phase.handle_grants within running req with
      none | ⟨bound, rfl, unknown, received⟩
    · refine ⟨by omega, fun created => ?_⟩
      have before := fresh (known created)
      omega
    · have before := fresh unknown
      refine ⟨by omega, fun created => ?_⟩
      rw [received] at created
      exact absurd (by decide) created
  · push Not at handles
    have bound := phase.hands_on within
      (shaped.ops _ member op List.mem_cons_self) handles (by
        rintro msg rfl
        exact unrepeated.nextMsg found phase) req
    refine ⟨by omega, fun created => ?_⟩
    have before := fresh (known created)
    omega

theorem Granting.start (granting : Granting s) (wellScoped : WellScoped s)
    {index : ThreadId} {new : List Op}
    (found : s.threads[index]? = some ⟨self, []⟩)
    (begins : Begins s after new) :
    Granting { after with threads := s.threads.set index ⟨self, new⟩ } := by
  intro req
  rw [granted_start wellScoped found begins]
  refine ⟨(granting req).1, fun unknown => ?_⟩
  by_cases old : req < s.nextReq
  · apply (granting req).2
    rw [← begins.processState req old]
    exact unknown
  · exact wellScoped.granted_fresh (not_lt.mp old)

theorem ReachedBy.granting {allowed : State → Label → Prop}
    (single : ∀ s label, allowed s label → Unrepeated sys s label)
    (reached : ReachedBy sys allowed s) (running : s.halted = none) :
    Granting s := by
  refine ReachedBy.always reached running ?_ ?_ ?_
  · intro req
    have start : Reachable sys (initial sys) := .refl
    have none : (initial sys).granted req = 0 :=
      (ReachedBy.wellScoped start).granted_fresh (Nat.zero_le _)
    exact ⟨by omega, fun _ => none⟩
  · intro s mid label index self new earlier _ granting _ found begins _ _ _
    exact granting.start (ReachedBy.wellScoped earlier) found begins
  · intro s after index self op rest new earlier _ granting permitted found
      phase running
    exact granting.run (ReachedBy.wellScoped earlier)
      (ReachedBy.shaped earlier) found phase running (single _ _ permitted)

end Steps

end S4BXI
