import S4BXI.Acks.Grants

/-!
# One answer for each request

An answer to a request is logged when its initiator learns of it: from a
response, from an acknowledgement, or from the NIC target itself with quick
acknowledgements.  What can still bring an answer about is a request message or
an answer which has not been handled, or a handler which is about to
acknowledge the request.  Without retransmission there is only one of these at
a time, so that no request is answered twice.
-/

namespace S4BXI

open Lib

/-- Whether a message which is handled leads to an answer of the request. -/
def State.answerable (s : State) (req : ReqId) (msg : MsgId) : Nat :=
  if s.reqOf msg = req ∧ ((s.msgs msg).type.isRequest = true ∨
      (s.msgs msg).type.isResponse = true ∨ s.replies msg = true) then 1
  else 0

/-- Whether an operation leads to an answer of the request. -/
def Op.answerable (s : State) (req : ReqId) : Op → Nat
  | .sendAck msg _ _ | .putFinish msg _ _ | .atomicFinish msg _ _ =>
      if s.reqOf msg = req then 1 else 0
  | _ => 0

/-- Whether an operation may allocate a message which leads to an answer of the
request. -/
def Op.begets (s : State) (req : ReqId) : Op → Nat
  | .handle msg =>
      if s.reqOf msg = req ∧ (s.msgs msg).type.isRequest = true then 1 else 0
  | .sendAck msg _ _ => if s.reqOf msg = req then 1 else 0
  | _ => 0

/-- The answers to a request, given or still to come. -/
def State.answers (s : State) (req : ReqId) : Nat :=
  s.log.count (.answered req) + pending (Op.answerable s req) s.threads +
    s.unhandled (s.answerable req)

section Steps

variable {sys : Sys} {self : Actor} {s after : State}

theorem Extends.answerable (grows : Extends s after) (allocated : Allocated s)
    {msg : MsgId} (old : msg < s.nextMsg) (req : ReqId) :
    after.answerable req msg = s.answerable req msg := by
  unfold State.answerable
  rw [grows.reqOf old, grows.type old, grows.replies allocated old]

theorem State.answerable_le (s : State) (req : ReqId) (msg : MsgId) :
    s.answerable req msg ≤ if s.reqOf msg = req then 1 else 0 := by
  unfold State.answerable
  by_cases own : s.reqOf msg = req
  · rw [if_pos own]
    split <;> simp
  · simp [own]

theorem Op.answerable_congr (grows : Extends s after) {op : Op}
    (within : op.Within s.bounds) (req : ReqId) :
    op.answerable after req = op.answerable s req := by
  cases op with
  | sendAck msg type fail => simp only [Op.answerable, grows.reqOf within]
  | putFinish msg me fail => simp only [Op.answerable, grows.reqOf within.1]
  | atomicFinish msg me fail => simp only [Op.answerable, grows.reqOf within.1]
  | _ => rfl

/-- Only the handlers of a request leave an acknowledgement to send. -/
theorem Follows.answerable {op added : Op}
    (follows : Follows sys self s op added)
    (handles : ∀ msg, op ≠ .handle msg)
    (finishes : ∀ msg me fail, op ≠ .putFinish msg me fail ∧
      op ≠ .atomicFinish msg me fail) (later : State) (req : ReqId) :
    added.answerable later req = 0 := by
  cases follows with
  | putAcked => exact absurd rfl (finishes _ _ _).1
  | atomicAcked => exact absurd rfl (finishes _ _ _).2
  | unmatchedAck => exact absurd rfl (handles _)
  | matched => exact absurd rfl (handles _)
  | _ => rfl

/-- What an operation leaves behind that leads to an answer, in its operations
and in the message which it allocates. -/
def leftAnswers (s after : State) (new : List Op) (req : ReqId) : Nat :=
  opsWeight (Op.answerable after req) new +
    ∑ msg ∈ Finset.Ico s.nextMsg after.nextMsg, after.answerable req msg

theorem leftAnswers_ops {new : List Op} (same : after.nextMsg = s.nextMsg)
    (req : ReqId) :
    leftAnswers s after new req = opsWeight (Op.answerable after req) new := by
  simp [leftAnswers, same]

/-- What leads to an answer is replaced by what it leaves. -/
theorem answers_run {allowed : State → Label → Prop}
    (undisturbed : ∀ s label, allowed s label → Undisturbed sys s label)
    (reached : ReachedBy sys allowed s) (before : s.halted = none)
    {index : ThreadId} {op : Op} {rest new : List Op}
    (found : s.threads[index]? = some ⟨self, op :: rest⟩)
    (phase : Phase sys self s op after new) (running : after.halted = none)
    (req : ReqId) :
    State.answers { after with
        threads := s.threads.set index ⟨self, new ++ rest⟩ } req +
        (s.log.count (.answered req) + op.answerable s req +
          op.handling (s.answerable req)) =
      s.answers req +
        (after.log.count (.answered req) + leftAnswers s after new req) := by
  have wellScoped := ReachedBy.wellScoped reached
  have grows := phase.extends
  have weights := @pending_run _ _ (Op.answerable s req)
    (Op.answerable after req) _ _ _ _ _ found new
    fun thread member other pendingOp =>
      Op.answerable_congr grows (wellScoped.ops thread member other pendingOp)
        req
  have messages := unhandled_run undisturbed reached before found phase running
    (fun msg old => grows.answerable wellScoped.tables old req)
  change after.log.count (.answered req) +
      pending (Op.answerable after req)
        (s.threads.set index ⟨self, new ++ rest⟩) +
      State.unhandled { after with
        threads := s.threads.set index ⟨self, new ++ rest⟩ }
          (after.answerable req) + _ = _
  unfold State.answers leftAnswers
  omega

/-! ## What an operation leaves -/

/-- A new message leads to an answer of the request of the message at hand, if
it leads to one at all. -/
theorem Phase.created_answerable {op : Op} {new : List Op}
    (phase : Phase sys self s op after new) (within : op.Within s.bounds)
    (opShaped : op.Shaped s self)
    (single : ∀ msg, op = .e2eWake msg → after.nextMsg = s.nextMsg)
    (req : ReqId) :
    ∑ msg ∈ Finset.Ico s.nextMsg after.nextMsg, after.answerable req msg ≤
      op.begets s req := by
  rcases phase.creates within with same | ⟨created, creates, next, fixed⟩
  · simp [same]
  · rw [next, Nat.Ico_succ_singleton, Finset.sum_singleton]
    have fresh := fresh_of_fixed fixed
    have grows := phase.extends
    have bound := after.answerable_le req s.nextMsg
    rw [fresh.reqOf] at bound
    cases creates with
    | ack slow => exact bound
    | @bxiAck msg md =>
        have older : (after.msgs msg).type = (s.msgs msg).type :=
          grows.type within
        have type : (after.msgs s.nextMsg).type = .e2eAck := fresh.type
        have answers : (after.msgs s.nextMsg).answersMsg = some msg :=
          fresh.answersMsg
        have other : (s.msgs msg).type.isRequest = false := by
          obtain ⟨_, kind⟩ := opShaped
          revert kind
          cases (s.msgs msg).type <;> decide
        have silent : after.replies s.nextMsg = false := by
          simp [State.replies, type, answers, older, other]
        simp [State.answerable, type, silent, MsgType.isRequest,
          MsgType.isResponse]
    | @response msg type kind fail request responds =>
        have isRequest : (s.msgs msg).type.isRequest = true := by
          rw [request]
          exact ReqType.isRequest_msgType kind
        simp only [Op.begets, isRequest, and_true]
        exact bound
    | copy =>
        have same := single _ rfl
        exact absurd (same.symm.trans next) (Nat.ne_of_lt (Nat.lt_succ_self _))

theorem sendDue_answerable (later : State) (msg : MsgId) (fail : NiFailType)
    (due : Option MsgType) (req : ReqId) :
    opsWeight (Op.answerable later req) (sendDue msg fail due) ≤
      if later.reqOf msg = req then 1 else 0 := by
  rcases sendDue_cases msg fail due with ops | ⟨type, asked, ops⟩
  · simp [ops]
  · simp [ops, Op.answerable]

/-- An entry of the log which is no answer. -/
theorem count_answered_append (log : List Obs) {extra : List Obs} {req : ReqId}
    (other : .answered req ∉ extra) :
    (log ++ extra).count (.answered req) = log.count (.answered req) := by
  rw [List.count_append, List.count_eq_zero.mpr other, Nat.add_zero]

/-- The handler of a message passes on what the message leads to. -/
theorem Phase.handle_answers {msg : MsgId} {new : List Op}
    (phase : Phase sys self s (.handle msg) after new) (old : msg < s.nextMsg)
    (opShaped : (Op.handle msg).Shaped s self) (running : after.halted = none)
    (req : ReqId) :
    after.log.count (.answered req) + leftAnswers s after new req ≤
      s.log.count (.answered req) + s.answerable req msg := by
  have created := phase.created_answerable old opShaped (by simp) req
  have silent : ∀ {later : State} {ops : List Op},
      later.log.count (.answered req) = s.log.count (.answered req) →
      later.nextMsg = s.nextMsg → (∀ op ∈ ops, op.answerable later req = 0) →
      later.log.count (.answered req) + leftAnswers s later ops req ≤
        s.log.count (.answered req) + s.answerable req msg := by
    intro later ops log same none
    rw [leftAnswers_ops same, opsWeight_eq_zero none, log]
    omega
  have request : (s.msgs msg).type.isRequest = true →
      s.answerable req msg = if s.reqOf msg = req then 1 else 0 := by
    intro type
    simp [State.answerable, type]
  have told : s.reqOf msg = req → (s.msgs msg).type.isRequest = true ∨
      (s.msgs msg).type.isResponse = true ∨ s.replies msg = true →
      s.answerable req msg = 1 := fun own leads => if_pos ⟨own, leads⟩
  have logged : ∀ {later : State} {ops : List Op},
      later.log = s.log ++ [.answered (s.reqOf msg)] →
      later.nextMsg = s.nextMsg → (∀ op ∈ ops, op.answerable later req = 0) →
      ((s.msgs msg).type.isRequest = true ∨
        (s.msgs msg).type.isResponse = true ∨ s.replies msg = true) →
      later.log.count (.answered req) + leftAnswers s later ops req ≤
        s.log.count (.answered req) + s.answerable req msg := by
    intro later ops log same none leads
    rw [leftAnswers_ops same, opsWeight_eq_zero none, log, List.count_append]
    by_cases own : s.reqOf msg = req
    · rw [told own leads, own, List.count_singleton_self, Nat.add_zero]
    · have other : [Obs.answered (s.reqOf msg)].count (.answered req) = 0 := by
        simp [own]
      omega
  cases phase with
  | quiet quiet =>
      cases quiet with
      | @unmatched _ fail type fresh absent asked =>
          rw [request (by rw [type]; rfl), leftAnswers_ops rfl]
          simp [Op.answerable]
      | _ => exact silent rfl rfl (by simp)
  | @respondUnmatched _ fail kind type fetches fresh absent =>
      have isRequest : (s.msgs msg).type.isRequest = true := by
        rw [type]
        exact ReqType.isRequest_msgType kind
      have log : ((answering s msg fail kind).modMsg s.nextMsg fun m =>
          { m with simulatedSize := 0 }).log = s.log :=
        answering_log s msg fail kind
      rw [log, request isRequest]
      simp only [Op.begets, isRequest, and_true] at created
      unfold leftAnswers
      simp only [opsWeight_cons, opsWeight_nil, Op.answerable]
      omega
  | @matched _ pt list me fail kind effects stop type fresh found memory
      later stops =>
      have isRequest : (s.msgs msg).type.isRequest = true := by
        rw [type]
        exact ReqType.isRequest_msgType kind
      have log : ((deposit s msg pt list me fail kind).touch effects
          stop).log.count (.answered req) = s.log.count (.answered req) := by
        change ((deposit s msg pt list me fail kind).log ++ effects).count _ = _
        rw [deposit_log old, List.append_assoc]
        apply count_answered_append
        cases memory <;> simp
      have grows : Extends s
          ((deposit s msg pt list me fail kind).touch effects stop) :=
        ((Extends.answering s msg fail kind).trans
          ((Extends.takeEntry _ _ _ _ _).trans (.receive _ _ _ _))).trans
            (.touch _ _ _)
      have counter : opsWeight (Op.answerable ((deposit s msg pt list me fail
          kind).touch effects stop) req)
            (meCounter s (s.reqOf msg) (s.mes me)) = 0 := by
        rcases meCounter_cases s (s.reqOf msg) (s.mes me) with
          ops | ⟨ct, amount, ops⟩ <;> simp [ops, Op.answerable]
      rw [log, request isRequest]
      simp only [Op.begets, isRequest, and_true] at created
      unfold leftAnswers
      rw [opsWeight_append, counter]
      simp only [opsWeight_cons, opsWeight_nil, Nat.zero_add, Nat.add_zero]
      cases kind with
      | get =>
          simp only [finishing, Op.answerable]
          omega
      | fetchAtomic =>
          simp only [finishing, Op.answerable]
          omega
      | put =>
          have same : ((deposit s msg pt list me fail .put).touch effects
              stop).nextMsg = s.nextMsg := by
            simp [State.touch, deposit, receive, answering]
          simp [same, finishing, Op.answerable, grows.reqOf old]
      | atomic =>
          have same : ((deposit s msg pt list me fail .atomic).touch effects
              stop).nextMsg = s.nextMsg := by
            simp [State.touch, deposit, receive, answering]
          simp [same, finishing, Op.answerable, grows.reqOf old]
  | handleResponse type =>
      refine logged rfl rfl (by simp [Op.answerable, releaseAnswered]) ?_
      refine .inr (.inl ?_)
      rcases type with type | type <;> rw [type] <;> rfl
  | handlePtlAck type =>
      refine logged rfl rfl (by simp [Op.answerable, releaseAnswered]) ?_
      simp [State.replies, type]
  | ackWithoutAnswer type fresh missing => cases running
  | @handleBxiAck _ answered type fresh answers =>
      cases acked : (s.vnOf answered).isRequest with
      | true =>
          refine logged ?_ rfl (by simp [Op.answerable]) ?_
          · simp [State.touch, State.modReq]
          · rw [State.vnOf_isRequest] at acked
            simp [State.replies, type, answers, acked]
      | false =>
          refine silent ?_ rfl (by simp [Op.answerable])
          simp [State.touch, State.modReq]

/-- An operation which leads to an answer hands it on. -/
theorem Phase.hands_answers {op : Op} {new : List Op}
    (phase : Phase sys self s op after new) (within : op.Within s.bounds)
    (opShaped : op.Shaped s self) (handles : ∀ msg, op ≠ .handle msg)
    (single : ∀ msg, op = .e2eWake msg → after.nextMsg = s.nextMsg)
    (req : ReqId) :
    after.log.count (.answered req) + leftAnswers s after new req ≤
      s.log.count (.answered req) + op.answerable s req := by
  have grows := phase.extends
  have created := phase.created_answerable within opShaped single req
  have silent : (∀ msg me fail, op ≠ .putFinish msg me fail ∧
      op ≠ .atomicFinish msg me fail) →
      opsWeight (Op.answerable after req) new = 0 := fun finishes =>
    opsWeight_eq_zero fun added member =>
      (phase.follows added member).answerable handles finishes after req
  have kept : (∀ msg type fail, op ≠ .sendAck msg type fail) →
      after.log.count (.answered req) = s.log.count (.answered req) :=
    fun acks => phase.answered_kept within handles acks req
  cases op with
  | handle msg => exact absurd rfl (handles msg)
  | sendAck msg type fail =>
      have ops := silent (by simp)
      cases phase with
      | quiet quiet => cases quiet
      | quickAck quick =>
          have log : (((s.modReq (s.reqOf msg) fun r =>
              { r with processState := .finished }).emit
              (.answered (s.reqOf msg))).log.count (.answered req)) =
              s.log.count (.answered req) +
                if s.reqOf msg = req then 1 else 0 := by
            simp [State.emit, State.modReq, List.count_append,
              List.count_singleton]
          unfold leftAnswers
          rw [log, ops]
          simp [State.emit, State.modReq, Op.answerable]
      | sendAck slow =>
          unfold leftAnswers
          rw [ops]
          simp only [Op.begets] at created
          change s.log.count _ + _ ≤ _ + if s.reqOf msg = req then 1 else 0
          omega
  | putFinish msg me fail =>
      have own : after.reqOf msg = s.reqOf msg := grows.reqOf within.1
      have log := kept (by simp)
      unfold leftAnswers
      simp only [Op.begets, Nat.le_zero] at created
      rw [created, log]
      cases phase with
      | quiet quiet => cases quiet
      | @putFinish _ _ _ _ before following leaves =>
          obtain ⟨first, last⟩ := leaves.every
            (P := fun op => op.answerable after req = 0) (fun _ _ _ => rfl) rfl
          have event : ∀ op ∈ issuePutLike sys s .put (s.mes me)
              (s.reqOf msg), op.answerable after req = 0 :=
            issuePutLike_every (P := fun op => op.answerable after req = 0)
              fun _ _ _ => rfl
          have sleep : ∀ op ∈ pciSleep sys s self.nid msg,
              op.answerable after req = 0 :=
            pciSleep_every (P := fun op => op.answerable after req = 0) rfl
          have due := sendDue_answerable after msg fail
            (ackDue sys s (s.reqOf msg) (s.mes me)) req
          rw [own] at due
          simp only [opsWeight_append, opsWeight_eq_zero first,
            opsWeight_eq_zero event, opsWeight_eq_zero last,
            opsWeight_eq_zero sleep, Op.answerable]
          omega
  | atomicFinish msg me fail =>
      have own : after.reqOf msg = s.reqOf msg := grows.reqOf within.1
      have log := kept (by simp)
      unfold leftAnswers
      simp only [Op.begets, Nat.le_zero] at created
      rw [created, log]
      cases phase with
      | quiet quiet =>
          cases quiet with
          | atomicFinish =>
              have sleep : ∀ op ∈ pciSleep sys s self.nid msg,
                  op.answerable s req = 0 :=
                pciSleep_every (P := fun op => op.answerable s req = 0) rfl
              have due := sendDue_answerable s msg fail
                (ackDue sys s (s.reqOf msg) (s.mes me)) req
              unfold S4BXI.atomicFinish
              simp only [opsWeight_append, opsWeight_cons,
                opsWeight_eq_zero sleep, Op.answerable]
              omega
  | _ =>
      have log := kept (by simp)
      have ops := silent (by simp)
      simp only [Op.begets, Nat.le_zero] at created
      unfold leftAnswers
      rw [created, log, ops]
      exact Nat.le_refl _

/-! ## Runs -/

/-- What is not allocated has no answers. -/
theorem WellScoped.answers_fresh (wellScoped : WellScoped s) {req : ReqId}
    (fresh : s.nextReq ≤ req) : s.answers req = 0 := by
  have foreign : ∀ msg < s.nextMsg, s.reqOf msg ≠ req := by
    intro msg small same
    have bound := wellScoped.tables.parents msg small
    rw [same] at bound
    exact absurd fresh (not_le.mpr bound)
  have log : s.log.count (.answered req) = 0 := by
    rw [List.count_eq_zero]
    intro member
    exact absurd fresh (not_le.mpr (wellScoped.tables.log _ member))
  have ops : pending (Op.answerable s req) s.threads = 0 := by
    apply pending_eq_zero
    intro thread member op pendingOp
    have within := wellScoped.ops thread member op pendingOp
    cases op with
    | sendAck msg type fail => simp [Op.answerable, foreign msg within]
    | putFinish msg me fail => exact if_neg (foreign msg within.1)
    | atomicFinish msg me fail => exact if_neg (foreign msg within.1)
    | _ => rfl
  have msgs : s.unhandled (s.answerable req) = 0 := by
    apply Finset.sum_eq_zero
    intro msg member
    have none : s.answerable req msg = 0 := by
      apply if_neg
      rintro ⟨same, _⟩
      exact foreign msg (Finset.mem_range.mp member) same
    rw [none, Nat.zero_mul]
  unfold State.answers
  omega

/-- An API call adds at most the message of a new request. -/
theorem CallPhase.created_answerable {call : Call} {new : List Op}
    (phase : CallPhase sys self s call after new) (req : ReqId) :
    ∑ msg ∈ Finset.Ico s.nextMsg after.nextMsg, after.answerable req msg ≤
      if req < s.nextReq then 0 else 1 := by
  have nothing : after.nextMsg = s.nextMsg →
      ∑ msg ∈ Finset.Ico s.nextMsg after.nextMsg, after.answerable req msg ≤
        if req < s.nextReq then 0 else 1 := by
    intro same
    simp [same]
  cases phase with
  | ptFree taken equality frees =>
      obtain ⟨drops, sameMes⟩ := frees
      cases drops
      exact nothing rfl
  | meUnlink free unlinks => exact nothing unlinks.nextMsg
  | @request cmd =>
      have next : (ptlRequest sys self s cmd).nextMsg = s.nextMsg + 1 := rfl
      have own : (ptlRequest sys self s cmd).reqOf s.nextMsg = s.nextReq := by
        simp [ptlRequest, State.newMsg, newRequestMsg, State.reqOf]
      have bound :=
        (ptlRequest sys self s cmd).answerable_le req s.nextMsg
      rw [own] at bound
      rw [next, Nat.Ico_succ_singleton, Finset.sum_singleton]
      by_cases old : req < s.nextReq
      · rw [if_neg (ne_of_gt old)] at bound
        rw [if_pos old]
        exact bound
      · rw [if_neg old]
        exact bound.trans (by split <;> simp)
  | _ => exact nothing rfl

/-- So does any actor which starts. -/
theorem Advances.begun_answerable {index : ThreadId} {label : Label}
    (advances : Advances sys s index label after)
    (idle : ∀ index, label ≠ .run index) (req : ReqId) :
    ∑ msg ∈ Finset.Ico s.nextMsg after.nextMsg, after.answerable req msg ≤
      if req < s.nextReq then 0 else 1 := by
  cases advances with
  | dangling dead owner => simp [State.halt]
  | run found alive phase => exact absurd rfl (idle index)
  | recv found target queued => simp [State.removeRx]
  | take found initiator queued => simp [State.popTx, State.modNode]
  | wake found e2e alive queued => simp [State.popE2e, State.modNode]
  | call found user owned alive phase => exact phase.created_answerable req

/-- Without retransmission, a request has at most one answer, given or to come.
-/
theorem ReachedBy.answers_le_one {allowed : State → Label → Prop}
    (undisturbed : ∀ s label, allowed s label → Undisturbed sys s label)
    (single : ∀ s label, allowed s label → Unrepeated sys s label)
    (reached : ReachedBy sys allowed s) (running : s.halted = none)
    (req : ReqId) : s.answers req ≤ 1 := by
  let Once (s : State) : Prop := ∀ req, s.answers req ≤ 1
  have once : Once s := by
    refine ReachedBy.always reached running ?_ ?_ ?_
    · intro req
      have start : Reachable sys (initial sys) := .refl
      rw [(ReachedBy.wellScoped start).answers_fresh (Nat.zero_le _)]
      exact Nat.zero_le 1
    · intro s mid label index self new earlier before once _ found begins idle
        advances running req
      have wellScoped := ReachedBy.wellScoped earlier
      have shaped := ReachedBy.shaped earlier
      have grows := begins.grows
      have weights := @pending_start _ _ (Op.answerable s req)
        (Op.answerable mid req) _ _ _ found new
        fun thread member other pendingOp => Op.answerable_congr grows
          (wellScoped.ops thread member other pendingOp) req
      have messages := unhandled_start wellScoped shaped begins idle advances
        running (fun msg old => grows.answerable wellScoped.tables old req)
      have added : ∑ msg ∈ Finset.Ico s.nextMsg mid.nextMsg,
          mid.answerable req msg ≤ if req < s.nextReq then 0 else 1 :=
        advances.begun_answerable idle req
      have ops : opsWeight (Op.answerable mid req) new = 0 := by
        apply opsWeight_eq_zero
        intro op member
        have opens := begins.opens op member
        cases op <;> first | rfl | cases opens
      have log : mid.log.count (.answered req) =
          s.log.count (.answered req) := by
        rw [begins.log]
      change mid.log.count (.answered req) + pending (Op.answerable mid req)
        (s.threads.set index ⟨self, new⟩) + State.unhandled { mid with
          threads := s.threads.set index ⟨self, new⟩ }
            (mid.answerable req) ≤ 1
      have bound : s.answers req ≤ 1 := once req
      by_cases old : req < s.nextReq
      · rw [if_pos old] at added
        unfold State.answers at bound
        omega
      · have fresh := wellScoped.answers_fresh (not_lt.mp old)
        rw [if_neg old] at added
        unfold State.answers at fresh
        omega
    · intro s after index self op rest new earlier before once permitted found
        phase running req
      have wellScoped := ReachedBy.wellScoped earlier
      have shaped := ReachedBy.shaped earlier
      have member := List.mem_of_getElem? found
      have within := wellScoped.ops _ member op List.mem_cons_self
      have opShaped := shaped.ops _ member op List.mem_cons_self
      have law := answers_run undisturbed earlier before found phase running req
      have bound : s.answers req ≤ 1 := once req
      by_cases handles : ∃ msg, op = .handle msg
      · obtain ⟨msg, rfl⟩ := handles
        have passed := phase.handle_answers within opShaped running req
        simp only [Op.answerable, Op.handling] at law
        omega
      · push Not at handles
        have handed := phase.hands_answers within opShaped handles (by
          rintro msg rfl
          exact (single _ _ permitted).nextMsg found phase) req
        have none : op.handling (s.answerable req) = 0 := by
          cases op with
          | handle msg => exact absurd rfl (handles msg)
          | _ => rfl
        omega
  exact once req

end Steps

end S4BXI
