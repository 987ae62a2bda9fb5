import S4BXI.Acks.Agreement
import S4BXI.Flow.Deliveries

/-!
# How requests progress

What a step changes in the requests and their messages: which operations move a
request on, which one issues its `SEND`, and what stays as it is while an idle
actor starts.
-/

namespace S4BXI

open Lib

/-! ## Actors which start -/

/-- The operations with which an idle actor starts. -/
def Op.opening : Op → Bool
  | .handle _ | .unref _ | .processTx _ | .e2eWake _ | .cqAcquire _ _
  | .walkThroughUHs _ _ | .putEvent _ _ (.entry _) => true
  | _ => false

/-- What an idle actor leaves as it is when it starts. -/
structure Begins (s after : State) (new : List Op) : Prop where
  grows : Extends s after
  log : after.log = s.log
  processState : ∀ req < s.nextReq,
    (after.reqs req).processState = (s.reqs req).processState
  issued : ∀ req < s.nextReq,
    (after.reqs req).sendEventIssued = (s.reqs req).sendEventIssued
  created : ∀ req < after.nextReq, s.nextReq ≤ req →
    (after.reqs req).processState = .created ∧
      (after.reqs req).sendEventIssued = false
  sizes : ∀ msg < s.nextMsg,
    (after.msgs msg).simulatedSize = (s.msgs msg).simulatedSize
  requests : ∀ msg < after.nextMsg, s.nextMsg ≤ msg →
    (after.msgs msg).type.isRequest = true ∧
      ((after.msgs msg).type ≠ .ptlGet → (after.msgs msg).simulatedSize =
        (after.reqs (after.reqOf msg)).payloadSize)
  opens : ∀ op ∈ new, op.opening = true

theorem Begins.of_tables {s after : State} {new : List Op}
    (grows : Extends s after) (log : after.log = s.log)
    (reqs : after.reqs = s.reqs) (nextReq : after.nextReq = s.nextReq)
    (msgs : after.msgs = s.msgs) (nextMsg : after.nextMsg = s.nextMsg)
    (opens : ∀ op ∈ new, op.opening = true) : Begins s after new where
  grows := grows
  log := log
  processState _ _ := by rw [reqs]
  issued _ _ := by rw [reqs]
  created req small large := absurd (nextReq ▸ small) (not_lt.mpr large)
  sizes _ _ := by rw [msgs]
  requests msg small large := absurd (nextMsg ▸ small) (not_lt.mpr large)
  opens := opens

section Steps

variable {sys : Sys} {self : Actor} {s after : State}

theorem CallPhase.begins {call : Call} {new : List Op}
    (phase : CallPhase sys self s call after new) : Begins s after new := by
  have grows := phase.extends
  have log := phase.carries.2.1
  cases phase with
  | ptFree taken equality frees =>
      obtain ⟨⟨sameReqs, sameMsgs, stops⟩, sameMes⟩ := frees
      refine ⟨grows, log, ?_, ?_, ?_, ?_, ?_, by simp⟩
      · intro req _
        obtain ⟨live, count, equal⟩ := sameReqs req
        exact (congrArg BxiRequest.processState equal :)
      · intro req _
        obtain ⟨live, count, equal⟩ := sameReqs req
        exact (congrArg BxiRequest.sendEventIssued equal :)
      · exact fun req small large => absurd small (not_lt.mpr large)
      · intro msg _
        obtain ⟨live, count, equal⟩ := sameMsgs msg
        exact (congrArg BxiMsg.simulatedSize equal :)
      · exact fun msg small large => absurd small (not_lt.mpr large)
  | meUnlink free unlinks =>
      exact .of_tables grows log unlinks.reqs unlinks.nextReq unlinks.msgs
        unlinks.nextMsg (by simp)
  | @request cmd =>
      refine ⟨grows, log, ?_, ?_, ?_, ?_, ?_, by simp [Op.opening]⟩
      · intro req small
        have other : req ≠ s.nextReq := Nat.ne_of_lt small
        simp only [ptlRequest, State.newMsg, newRequestMsg,
          Function.update_of_ne other]
      · intro req small
        have other : req ≠ s.nextReq := Nat.ne_of_lt small
        simp only [ptlRequest, State.newMsg, newRequestMsg,
          Function.update_of_ne other]
      · intro req small large
        have equal : req = s.nextReq :=
          Nat.le_antisymm (Nat.lt_succ_iff.mp small) large
        subst equal
        simp [ptlRequest, State.newMsg, newRequestMsg, newRequest]
      · intro msg small
        have other : msg ≠ s.nextMsg := Nat.ne_of_lt small
        simp only [ptlRequest, State.newMsg, Function.update_of_ne other]
      · intro msg small large
        have equal : msg = s.nextMsg :=
          Nat.le_antisymm (Nat.lt_succ_iff.mp small) large
        subst equal
        constructor
        · simp [ptlRequest, State.newMsg, newRequestMsg,
            ReqType.isRequest_msgType]
        · intro other
          have kind : cmd.type ≠ .get := by
            rintro get
            apply other
            simp [ptlRequest, State.newMsg, newRequestMsg, get,
              ReqType.msgType]
          simp [ptlRequest, State.newMsg, newRequestMsg, newRequest,
            State.reqOf, kind]
  | appendOverflow taken =>
      exact .of_tables grows log rfl rfl rfl rfl
        (issueLink_every fun _ _ _ => rfl)
  | _ => exact .of_tables grows log rfl rfl rfl rfl (by simp [Op.opening])

theorem Advances.begins {index : ThreadId} {label : Label}
    (advances : Advances sys s index label after)
    (idle : ∀ index, label ≠ .run index) (running : after.halted = none) :
    ∃ (self : Actor) (new : List Op) (mid : State),
      s.threads[index]? = some ⟨self, []⟩ ∧ Begins s mid new ∧
      after = { mid with threads := s.threads.set index ⟨self, new⟩ } := by
  cases advances with
  | dangling dead owner => cases running
  | run found alive phase => exact absurd rfl (idle index)
  | @recv self position msg found target queued =>
      exact ⟨self, _, s.removeRx self.nid self.vn position, found,
        .of_tables (.of_tables rfl rfl rfl rfl rfl rfl rfl rfl
          (List.prefix_refl _)) rfl rfl rfl rfl rfl (by simp [Op.opening]), rfl⟩
  | @take self msg rest found initiator queued =>
      exact ⟨self, _, s.popTx self.nid self.vn, found,
        .of_tables (.modNode _ _ _) rfl rfl rfl rfl rfl (by simp [Op.opening]), rfl⟩
  | @wake self msg rest found e2e alive queued =>
      exact ⟨self, _, s.popE2e self.nid, found,
        .of_tables (.modNode _ _ _) rfl rfl rfl rfl rfl (by simp [Op.opening]), rfl⟩
  | @call self call new after found user owned alive phase =>
      exact ⟨self, new, after, found, phase.begins, rfl⟩

/-- The invariant rule for what is left of a run, from a state in which the
invariant holds. -/
theorem ReachedBy.onward {allowed : State → Label → Prop}
    {Holds : State → Prop} {origin : State}
    (earlier : ReachedBy sys allowed origin)
    (reached : Reached (step sys) allowed origin s)
    (running : s.halted = none) (initially : Holds origin)
    (start : ∀ {s mid : State} {label : Label} {index : ThreadId}
      {self : Actor} {new : List Op}, ReachedBy sys allowed s →
      s.halted = none → Holds s → allowed s label →
      s.threads[index]? = some ⟨self, []⟩ → Begins s mid new →
      (∀ index, label ≠ .run index) →
      Advances sys s index label { mid with
        threads := s.threads.set index ⟨self, new⟩ } →
      mid.halted = none → Holds { mid with
        threads := s.threads.set index ⟨self, new⟩ })
    (run : ∀ {s after : State} {index : ThreadId} {self : Actor} {op : Op}
      {rest new : List Op}, ReachedBy sys allowed s → s.halted = none →
      Holds s → allowed s (.run index) →
      s.threads[index]? = some ⟨self, op :: rest⟩ →
      Phase sys self s op after new → after.halted = none →
      Holds { after with
        threads := s.threads.set index ⟨self, new ++ rest⟩ }) :
    Holds s := by
  let Along (state : State) : Prop := state.halted = none → Holds state
  have along : Along s := by
    refine reached.invariant_of_reached (fun _ => initially) ?_
    intro before after label later holds permitted stepped running
    have reachedBefore : ReachedBy sys allowed before := earlier.trans later
    have before_running := (step_enabled stepped).1
    have advances := step_advances stepped
    by_cases idle : ∀ index, label ≠ .run index
    · obtain ⟨self, new, mid, found, begins, rfl⟩ :=
        advances.begins idle running
      exact start reachedBefore before_running (holds before_running)
        permitted found begins idle advances running
    · push Not at idle
      obtain ⟨index, rfl⟩ := idle
      have moves : Moves sys before index (.run index) after := advances.moves
      cases moves with
      | dangling => cases running
      | run found phase =>
          exact run reachedBefore before_running (holds before_running)
            permitted found phase running
      | pick picks idle => exact absurd rfl (idle index)
  exact along running

/-- The invariant rule for runs which have not stopped: one case for an actor
which starts and one for an operation. -/
theorem ReachedBy.always {allowed : State → Label → Prop}
    {Holds : State → Prop} (reached : ReachedBy sys allowed s)
    (running : s.halted = none) (initially : Holds (initial sys))
    (start : ∀ {s mid : State} {label : Label} {index : ThreadId}
      {self : Actor} {new : List Op}, ReachedBy sys allowed s →
      s.halted = none → Holds s → allowed s label →
      s.threads[index]? = some ⟨self, []⟩ → Begins s mid new →
      (∀ index, label ≠ .run index) →
      Advances sys s index label { mid with
        threads := s.threads.set index ⟨self, new⟩ } →
      mid.halted = none → Holds { mid with
        threads := s.threads.set index ⟨self, new⟩ })
    (run : ∀ {s after : State} {index : ThreadId} {self : Actor} {op : Op}
      {rest new : List Op}, ReachedBy sys allowed s → s.halted = none →
      Holds s → allowed s (.run index) →
      s.threads[index]? = some ⟨self, op :: rest⟩ →
      Phase sys self s op after new → after.halted = none →
      Holds { after with
        threads := s.threads.set index ⟨self, new ++ rest⟩ }) :
    Holds s :=
  ReachedBy.onward .refl reached running initially start run

/-! ## The size of a request -/

theorem answering_msgs (s : State) (msg : MsgId) (fail : NiFailType)
    (kind : ReqType) {other : MsgId} (old : other < s.nextMsg) :
    (answering s msg fail kind).msgs other = s.msgs other := by
  cases kind with
  | put => rfl
  | atomic => rfl
  | get => exact Function.update_of_ne (ne_of_lt old) _ _
  | fetchAtomic => exact Function.update_of_ne (ne_of_lt old) _ _

theorem deposit_simulatedSize (s : State) (msg : MsgId) (pt : PtId)
    (list : PtlList) (me : MeId) (fail : NiFailType) (kind : ReqType)
    {other : MsgId} (old : other < s.nextMsg) :
    ((deposit s msg pt list me fail kind).msgs other).simulatedSize =
      (s.msgs other).simulatedSize := by
  have kept := answering_msgs s msg fail kind old
  unfold deposit receive takeEntry
  cases list with
  | priority => exact (congrArg BxiMsg.simulatedSize kept :)
  | overflow =>
      by_cases same : other = msg
      · subst same
        simpa [State.ref, State.modMsg, State.modMe, State.modPt, State.emit]
          using congrArg BxiMsg.simulatedSize kept
      · simpa [State.ref, State.modMsg, State.modMe, State.modPt, State.emit,
          same] using congrArg BxiMsg.simulatedSize kept

theorem retransmit_msgs (s : State) (msg : MsgId) :
    (retransmit sys self s msg).msgs =
      ((s.modMsg msg fun m => { m with
          retryCount := m.retryCount + 1 }).newMsg
        ((s.modMsg msg fun m => { m with
          retryCount := m.retryCount + 1 }).msgs msg).copy).msgs := by
  unfold retransmit
  dsimp only
  split <;> rfl

/-- Only a response which waits for its data gets a new size. -/
theorem Phase.simulatedSize {op : Op} {new : List Op}
    (phase : Phase sys self s op after new) {msg : MsgId}
    (old : msg < s.nextMsg) (ready : ¬op.HoldsBack msg) :
    (after.msgs msg).simulatedSize = (s.msgs msg).simulatedSize := by
  have new : msg ≠ s.nextMsg := ne_of_lt old
  have referenced : ∀ (before : State) (other : MsgId),
      ((before.ref other).msgs msg).simulatedSize =
        (before.msgs msg).simulatedSize := by
    intro before other
    by_cases same : msg = other
    · subst same
      simp [State.ref, State.modMsg]
    · simp [State.ref, State.modMsg, same]
  cases phase with
  | @respondUnmatched other fail kind type fetches fresh absent =>
      change (Function.update (answering s other fail kind).msgs s.nextMsg _
        msg).simulatedSize = _
      rw [Function.update_of_ne new, answering_msgs s other fail kind old]
  | @matched other pt list me fail kind effects stop type fresh found memory
      later stops => exact deposit_simulatedSize s other pt list me fail kind old
  | sendAck slow =>
      unfold newAck
      rw [referenced]
      simp only [State.newMsg, Function.update_of_ne new]
  | putFinish leaves => rw [leaves.msgs]
  | @getFinish other me response effects stop after before following memory
      stops leaves =>
      rw [leaves.msgs]
      have different : msg ≠ response :=
        fun same => ready ⟨other, me, .inl (by rw [same])⟩
      simp [State.touch, State.modMsg, different]
  | atomicEvents leaves => rw [leaves.msgs]
  | @fetchAtomicFinish other me response after before following leaves =>
      rw [leaves.msgs]
      have different : msg ≠ response :=
        fun same => ready ⟨other, me, .inr (by rw [same])⟩
      simp [State.modMsg, different]
  | deferredUnlink flagged unlinks => rw [unlinks.msgs]
  | sendBxiAck on =>
      unfold newBxiAck
      rw [referenced]
      simp only [State.newMsg, Function.update_of_ne new]
  | unref equality drops =>
      obtain ⟨sameReqs, sameMsgs, stops⟩ := drops
      obtain ⟨live, count, same⟩ := sameMsgs msg
      exact (congrArg BxiMsg.simulatedSize same :)
  | @e2eEnqueue other => exact referenced s other
  | @retransmit other pending more =>
      rw [retransmit_msgs]
      by_cases same : msg = other
      · subst same
        simp [State.newMsg, State.modMsg, new]
      · simp [State.newMsg, State.modMsg, new, same]
  | _ => rfl

/-- The responses which wait for their data belong to the request which was
matched. -/
theorem ReachedBy.prepared {allowed : State → Label → Prop}
    (reached : ReachedBy sys allowed s) :
    EveryPending (fun _ op => op.Prepared s) s.threads := by
  let Along (state : State) : Prop :=
    EveryPending (fun _ op => op.Prepared state) state.threads
  suffices along : Along s from along
  refine reached.invariant_of_reached ?_ ?_
  · intro thread member op pendingOp
    obtain ⟨actor, _, rfl⟩ := List.mem_map.mp member
    cases pendingOp
  · intro before after label earlier prepared _ stepped
    have wellScoped := ReachedBy.wellScoped earlier
    have advances := step_advances stepped
    have grows := advances.extends
    have kept : EveryPending (fun _ op => op.Prepared after)
        before.threads := by
      intro thread member op pendingOp
      exact (prepared thread member op pendingOp).mono
        (wellScoped.ops thread member op pendingOp) grows
    have moves := advances.moves
    generalize label.thread = index at moves
    cases moves with
    | dangling => exact kept
    | @run self op rest new after found phase =>
        have member := List.mem_of_getElem? found
        have within := wellScoped.ops _ member op List.mem_cons_self
        refine EveryPending.set kept fun other pendingOp => ?_
        rcases List.mem_append.mp pendingOp with added | old
        · exact phase.prepared_new within added
        · exact kept _ member other (List.mem_cons_of_mem _ old)
    | pick picks idle =>
        refine EveryPending.set kept (picks.every ?_ ?_ ?_ ?_) <;>
          rintro msg me response (back | back) <;> cases back
    | call found phase =>
        refine EveryPending.set kept fun op member => ?_
        intro msg me response back
        exact absurd ⟨msg, me, back⟩
          ((phase.tells_nothing op member).2 response)

/-- Whether a message is a Put or an Atomic. -/
def MsgType.putLike (type : MsgType) : Bool :=
  type == .ptlPut || type == .ptlAtomic

theorem Shape.putLike {msg : MsgId} (shape : Shape sys s msg)
    (request : (s.msgs msg).type.isRequest = true) :
    (s.msgs msg).type.putLike = (s.reqs (s.reqOf msg)).type.putLike := by
  have type := (shape.of_isRequest request).1
  change _ = (s.reqs (s.reqOf msg)).type.msgType at type
  rw [type]
  cases (s.reqs (s.reqOf msg)).type <;> rfl

/-- A response which waits for its data is no Put and no Atomic. -/
theorem Op.Prepared.not_holdsBack {op : Op} (prepared : op.Prepared s)
    (opShaped : op.Shaped s self) (within : op.Within s.bounds)
    (shape : ∀ msg < s.nextMsg, Shape sys s msg) {msg : MsgId}
    (old : msg < s.nextMsg) (putLike : (s.msgs msg).type.putLike = true) :
    ¬op.HoldsBack msg := by
  rintro ⟨other, me, back⟩
  have same := (prepared other me msg back).2.1
  have request : (s.msgs msg).type.isRequest = true := by
    revert putLike
    cases (s.msgs msg).type <;> decide
  have mine := (shape msg old).putLike request
  rw [same, putLike] at mine
  rcases back with rfl | rfl
  · have fetches : (s.msgs other).type.isRequest = true := by
      rw [opShaped.1]
      rfl
    rw [← (shape other within.1).putLike fetches, opShaped.1] at mine
    cases mine
  · have fetches : (s.msgs other).type.isRequest = true := by
      rw [opShaped.1]
      rfl
    rw [← (shape other within.1).putLike fetches, opShaped.1] at mine
    cases mine

/-- The message of a Put or of an Atomic weighs its payload. -/
def Sized (s : State) : Prop :=
  ∀ msg < s.nextMsg, (s.msgs msg).type.putLike = true →
    (s.msgs msg).simulatedSize = (s.reqs (s.reqOf msg)).payloadSize

theorem Sized.run {op : Op} {new : List Op} (sized : Sized s)
    (wellScoped : WellScoped s) (shape : ∀ msg < s.nextMsg, Shape sys s msg)
    (within : op.Within s.bounds) (opShaped : op.Shaped s self)
    (prepared : op.Prepared s) (phase : Phase sys self s op after new) :
    Sized after := by
  have grows := phase.extends
  intro msg small putLike
  by_cases old : msg < s.nextMsg
  · rw [grows.type old] at putLike
    rw [phase.simulatedSize old
        (prepared.not_holdsBack opShaped within shape old putLike),
      grows.reqOf old,
      grows.payloadSize (wellScoped.tables.parents msg old)]
    exact sized msg old putLike
  · rcases phase.creates within with same | ⟨created, creates, next, fixed⟩
    · exact absurd (same ▸ small) old
    · have equal : msg = s.nextMsg := by
        rw [next] at small
        exact Nat.le_antisymm (Nat.lt_succ_iff.mp small) (not_lt.mp old)
      subst equal
      have fresh := fresh_of_fixed fixed
      rw [fresh.type] at putLike
      cases creates with
      | ack slow =>
          rcases opShaped.2.2 with rfl | rfl <;> cases putLike
      | bxiAck => cases putLike
      | @response other type kind fail request responds =>
          have answers := ReqType.isResponse_responseType responds
          have other : type.isResponse = true → type.putLike = false := by
            cases type <;> decide
          change type.putLike = true at putLike
          rw [other answers] at putLike
          cases putLike
      | @copy other =>
          rw [fresh.reqOf]
          change _ = (after.reqs (s.reqOf other)).payloadSize
          rw [grows.payloadSize (wellScoped.tables.parents other within),
            ← sized other within putLike]
          cases phase with
          | quiet quiet => exact absurd next (Nat.ne_of_lt (Nat.lt_succ_self _))
          | gaveUp => exact absurd next (Nat.ne_of_lt (Nat.lt_succ_self _))
          | retryPanic => exact absurd next (Nat.ne_of_lt (Nat.lt_succ_self _))
          | retransmit pending more =>
              rw [retransmit_msgs]
              simp [State.newMsg, State.modMsg, BxiMsg.copy]

theorem Sized.start {new : List Op} (sized : Sized s)
    (wellScoped : WellScoped s) (begins : Begins s after new) :
    Sized after := by
  intro msg small putLike
  by_cases old : msg < s.nextMsg
  · rw [begins.grows.type old] at putLike
    rw [begins.sizes msg old, begins.grows.reqOf old,
      begins.grows.payloadSize (wellScoped.tables.parents msg old)]
    exact sized msg old putLike
  · apply (begins.requests msg small (not_lt.mp old)).2
    intro get
    rw [get] at putLike
    cases putLike

theorem ReachedBy.sized {allowed : State → Label → Prop}
    (reached : ReachedBy sys allowed s) (running : s.halted = none) :
    Sized s := by
  refine ReachedBy.always reached running ?_ ?_ ?_
  · intro msg small
    cases small
  · intro s mid label index self new earlier _ sized _ found begins _ _ _
    have middle := sized.start (ReachedBy.wellScoped earlier) begins
    exact middle
  · intro s after index self op rest new earlier _ sized _ found phase _
    have wellScoped := ReachedBy.wellScoped earlier
    have shaped := ReachedBy.shaped earlier
    have member := List.mem_of_getElem? found
    have later := sized.run wellScoped shaped.msgs
      (wellScoped.ops _ member op List.mem_cons_self)
      (shaped.ops _ member op List.mem_cons_self)
      (ReachedBy.prepared earlier _ member op List.mem_cons_self) phase
    exact later

theorem Extends.ackReq (grows : Extends s after) {req : ReqId}
    (old : req < s.nextReq) : (after.reqs req).ackReq = (s.reqs req).ackReq :=
  (congrArg BxiRequest.ackReq (grows.reqs req old) :)

theorem Extends.md (grows : Extends s after) {req : ReqId}
    (old : req < s.nextReq) : (after.reqs req).md = (s.reqs req).md :=
  (congrArg BxiRequest.md (grows.reqs req old) :)

theorem Extends.reqType (grows : Extends s after) {req : ReqId}
    (old : req < s.nextReq) : (after.reqs req).type = (s.reqs req).type :=
  (congrArg BxiRequest.type (grows.reqs req old) :)

/-! ## The states of a request -/

/-- The operations which move a request on, with what they leave to do. -/
inductive Turns (sys : Sys) (s : State) :
    Op → List Op → ReqId → ProcessState → Prop where
  | received {msg new} (request : (s.msgs msg).type.isRequest = true) :
      Turns sys s (.handle msg) new (s.reqOf msg) .received
  | acked {msg new} (type : (s.msgs msg).type = .e2eAck)
      (tail : .bxiAckTail msg ∈ new) :
      Turns sys s (.handle msg) new (s.reqOf msg) .finished
  | quick {msg type fail new} (tail : .maybeIssueSend (s.reqOf msg) ∈ new) :
      Turns sys s (.sendAck msg type fail) new (s.reqOf msg) .finished
  | responded {msg new} :
      Turns sys s (.responseRest msg) new (s.reqOf msg) .answered
  | answered {msg new} (tail : .maybeIssueSend (s.reqOf msg) ∈ new) :
      Turns sys s (.ptlAckTail msg) new (s.reqOf msg) .answered

theorem newMsg_processState (s : State) (msg : BxiMsg) (req : ReqId) :
    ((s.newMsg msg).reqs req).processState = (s.reqs req).processState := by
  by_cases same : req = msg.parentRequest
  · subst same
    simp [State.newMsg]
  · simp [State.newMsg, same]

theorem modReq_processState {s : State} {req other : ReqId}
    {f : BxiRequest → BxiRequest} (different : other ≠ req) :
    ((s.modReq req f).reqs other).processState =
      (s.reqs other).processState := by
  simp [State.modReq, different]

/-- How an operation moves a request on. -/
theorem Phase.turns {op : Op} {new : List Op}
    (phase : Phase sys self s op after new) (within : op.Within s.bounds)
    (running : after.halted = none) (req : ReqId) :
    (after.reqs req).processState = (s.reqs req).processState ∨
      Turns sys s op new req (after.reqs req).processState := by
  have sets : ∀ (other : ReqId) (state : ProcessState) {op : Op},
      Turns sys s op new other state →
      ((s.modReq other fun r => { r with processState := state }).reqs
          req).processState = (s.reqs req).processState ∨
        Turns sys s op new req ((s.modReq other fun r => { r with
          processState := state }).reqs req).processState := by
    intro other state op turns
    by_cases same : req = other
    · subst same
      refine .inr ?_
      simpa [State.modReq] using turns
    · exact .inl (modReq_processState same)
  have issues : ∀ (other : ReqId) (f : BxiRequest → BxiRequest),
      (∀ r, (f r).processState = r.processState) →
      ((s.modReq other f).reqs req).processState =
        (s.reqs req).processState := by
    intro other f same
    by_cases equal : req = other
    · subst equal
      simp [State.modReq, same]
    · exact modReq_processState equal
  have answered : ∀ (msg : MsgId) (fail : NiFailType) (kind : ReqType),
      ((answering s msg fail kind).reqs req).processState =
        (s.reqs req).processState := by
    intro msg fail kind
    cases kind with
    | put => rfl
    | atomic => rfl
    | get => exact newMsg_processState s _ req
    | fetchAtomic => exact newMsg_processState s _ req
  cases phase with
  | maybeIssueSend pending => exact .inl (issues _ _ fun _ => rfl)
  | maybeIssueGet pending => exact .inl (issues _ _ fun _ => rfl)
  | maybeIssueFetchAtomic pending => exact .inl (issues _ _ fun _ => rfl)
  | @respondUnmatched msg fail kind type fetches fresh absent =>
      exact .inl (answered msg fail kind)
  | @matched msg pt list me fail kind effects stop type fresh found memory
      later stops =>
      by_cases same : req = s.reqOf msg
      · subst same
        refine .inr ?_
        change Turns sys s _ _ _
          ((deposit s msg pt list me fail kind).reqs
            (s.reqOf msg)).processState
        rw [deposit_processState within]
        exact .received (by rw [type, ReqType.isRequest_msgType])
      · refine .inl ?_
        have kept : (answering s msg fail kind).reqOf msg = s.reqOf msg :=
          (Extends.answering s msg fail kind).reqOf within
        have others : (takeEntry (answering s msg fail kind) msg pt list
            me).reqOf msg = s.reqOf msg :=
          ((Extends.takeEntry _ msg pt list me).reqOf
            (within.trans_le (Extends.answering s msg fail kind).nextMsg)).trans
            kept
        change ((deposit s msg pt list me fail kind).reqs req).processState = _
        simp only [deposit, receive, others, Function.update_of_ne same,
          takeEntry_reqs]
        exact answered msg fail kind
  | ackWithoutAnswer type fresh missing => cases running
  | @handleBxiAck msg answered type fresh answers =>
      exact sets (s.reqOf msg) .finished (.acked type (by simp))
  | @quickAck msg type fail quick =>
      exact sets (s.reqOf msg) .finished (.quick (by simp))
  | @sendAck msg type fail slow => exact .inl (newMsg_processState s _ req)
  | putFinish leaves => exact .inl (by rw [leaves.reqs])
  | getFinish memory stops leaves =>
      refine .inl ?_
      rw [leaves.reqs]
      rfl
  | atomicEvents leaves => exact .inl (by rw [leaves.reqs])
  | fetchAtomicFinish leaves =>
      refine .inl ?_
      rw [leaves.reqs]
      rfl
  | deferredUnlink flagged unlinks => exact .inl (by rw [unlinks.reqs])
  | @responseRest msg fresh => exact sets (s.reqOf msg) .answered .responded
  | @sendBxiAck msg md on => exact .inl (newMsg_processState s _ req)
  | @ptlAckTail msg fresh =>
      exact sets (s.reqOf msg) .answered (.answered (by simp))
  | unref equality drops =>
      obtain ⟨sameReqs, sameMsgs, stops⟩ := drops
      obtain ⟨live, count, same⟩ := sameReqs req
      exact .inl (congrArg BxiRequest.processState same :)
  | @retransmit msg pending more =>
      refine .inl ?_
      unfold S4BXI.retransmit
      dsimp only
      split
      · exact newMsg_processState _ _ req
      · exact newMsg_processState _ _ req
  | _ => exact .inl rfl

theorem newMsg_issued (s : State) (msg : BxiMsg) (req : ReqId) :
    ((s.newMsg msg).reqs req).sendEventIssued =
      (s.reqs req).sendEventIssued := by
  by_cases same : req = msg.parentRequest
  · subst same
    simp [State.newMsg]
  · simp [State.newMsg, same]

/-- Only `maybe_issue_send` issues the `SEND` of a request. -/
theorem Phase.issues {op : Op} {new : List Op}
    (phase : Phase sys self s op after new) (within : op.Within s.bounds)
    {req : ReqId} (issued : (after.reqs req).sendEventIssued = true) :
    (s.reqs req).sendEventIssued = true ∨ op = .maybeIssueSend req ∧
      new = mdCounter s req (s.reqs req).md MdOption.eventCtSend ++
        [.sendEvent req] := by
  have turns : ∀ {other : ReqId} {f : BxiRequest → BxiRequest},
      ((s.modReq other f).reqs req).sendEventIssued = true →
      (∀ r, (f r).sendEventIssued = r.sendEventIssued) →
      (s.reqs req).sendEventIssued = true := by
    intro other f issued same
    by_cases equal : req = other
    · subst equal
      simpa [State.modReq, same] using issued
    · simpa [State.modReq, equal] using issued
  have sets : ∀ (other : ReqId) (state : ProcessState),
      ((s.modReq other fun r => { r with processState := state }).reqs
        req).sendEventIssued = true →
      (s.reqs req).sendEventIssued = true :=
    fun other state issued => turns issued fun _ => rfl
  have answered : ∀ (msg : MsgId) (fail : NiFailType) (kind : ReqType),
      ((answering s msg fail kind).reqs req).sendEventIssued =
        (s.reqs req).sendEventIssued := by
    intro msg fail kind
    cases kind with
    | put => rfl
    | atomic => rfl
    | get => exact newMsg_issued s _ req
    | fetchAtomic => exact newMsg_issued s _ req
  cases phase with
  | @maybeIssueSend other pending =>
      by_cases same : req = other
      · subst same
        exact .inr ⟨rfl, rfl⟩
      · refine .inl ?_
        simpa [State.modReq, same] using issued
  | maybeIssueGet pending => exact .inl (turns issued fun _ => rfl)
  | maybeIssueFetchAtomic pending => exact .inl (turns issued fun _ => rfl)
  | @respondUnmatched msg fail kind type fetches fresh absent =>
      exact .inl ((answered msg fail kind).symm.trans issued)
  | @matched msg pt list me fail kind effects stop type fresh found memory
      later stops =>
      refine .inl ((answered msg fail kind).symm.trans ?_)
      change ((deposit s msg pt list me fail kind).reqs req).sendEventIssued = _
        at issued
      unfold deposit receive at issued
      dsimp only at issued
      simp only [takeEntry_reqs, Function.update_apply] at issued
      split at issued
      · rename_i same
        rw [same]
        exact issued
      · exact issued
  | @handleBxiAck msg answered type fresh answers =>
      exact .inl (sets (s.reqOf msg) .finished issued)
  | @quickAck msg type fail quick =>
      exact .inl (sets (s.reqOf msg) .finished issued)
  | @ackWithoutAnswer msg type fresh missing =>
      exact .inl (sets (s.reqOf msg) .finished issued)
  | sendAck slow => exact .inl ((newMsg_issued s _ req).symm.trans issued)
  | putFinish leaves => exact .inl (leaves.reqs ▸ issued)
  | getFinish memory stops leaves =>
      rw [leaves.reqs] at issued
      exact .inl issued
  | atomicEvents leaves => exact .inl (leaves.reqs ▸ issued)
  | fetchAtomicFinish leaves =>
      rw [leaves.reqs] at issued
      exact .inl issued
  | deferredUnlink flagged unlinks => exact .inl (unlinks.reqs ▸ issued)
  | responseRest fresh => exact .inl (sets _ _ issued)
  | sendBxiAck on => exact .inl ((newMsg_issued s _ req).symm.trans issued)
  | ptlAckTail fresh => exact .inl (sets _ _ issued)
  | unref equality drops =>
      obtain ⟨sameReqs, sameMsgs, stops⟩ := drops
      obtain ⟨live, count, same⟩ := sameReqs req
      have kept := congrArg BxiRequest.sendEventIssued same
      exact .inl (kept.symm.trans issued)
  | @retransmit msg pending more =>
      refine .inl ?_
      unfold S4BXI.retransmit at issued
      dsimp only at issued
      split at issued
      · exact (newMsg_issued _ _ req).symm.trans issued
      · exact (newMsg_issued _ _ req).symm.trans issued
  | _ => exact .inl issued

/-! ## Sent messages and acknowledgements -/

/-- Only the start of its communication sends a message. -/
theorem Phase.sends {op : Op} {new : List Op}
    (phase : Phase sys self s op after new) (within : op.Within s.bounds)
    {msg : MsgId} (sent : 0 < after.deliveries msg) :
    0 < s.deliveries msg ∨ op = .commStart msg := by
  obtain ⟨extra, log, emitted⟩ := phase.emits within
  unfold State.deliveries at sent ⊢
  rw [log, List.countP_append] at sent
  by_cases before : 0 < s.log.countP (Obs.sends msg)
  · exact .inl before
  · have added : 0 < extra.countP (Obs.sends msg) := by omega
    obtain ⟨obs, member, sends⟩ := List.countP_pos_iff.mp added
    have emits := emitted obs member
    cases emits with
    | sent =>
        simp only [Obs.sends, beq_iff_eq] at sends
        exact .inr (by rw [sends])
    | _ => cases sends

theorem WellScoped.delivered (wellScoped : WellScoped s) {msg : MsgId}
    (sent : 0 < s.deliveries msg) : msg < s.nextMsg := by
  obtain ⟨obs, logged, sends⟩ := List.countP_pos_iff.mp sent
  have bound := wellScoped.tables.log obs logged
  cases obs with
  | sent nid vn other =>
      simp only [Obs.sends, beq_iff_eq] at sends
      exact sends ▸ bound
  | _ => cases sends

/-- A message which was not allocated was not handled. -/
theorem WellScoped.handled_fresh (wellScoped : WellScoped s) {msg : MsgId}
    (fresh : s.nextMsg ≤ msg) : s.handled msg = 0 := by
  have unsent : s.deliveries msg = 0 := by
    by_contra sent
    exact absurd (wellScoped.delivered (Nat.pos_of_ne_zero sent))
      (not_lt.mpr fresh)
  unfold State.handled
  rw [unsent, Nat.zero_sub]

theorem newAck_fresh (s : State) {msg : MsgId} (old : msg < s.nextMsg)
    (type : MsgType) (fail : NiFailType) :
    (newAck s msg type fail).reqOf s.nextMsg = s.reqOf msg ∧
      ((newAck s msg type fail).msgs s.nextMsg).type = type := by
  have new : s.nextMsg ≠ msg := Nat.ne_of_gt old
  constructor
  · simp [newAck, State.reqOf, State.ref, State.modMsg, State.newMsg, new,
      BxiMsg.copy]
  · simp [newAck, State.ref, State.modMsg, State.newMsg, new]

/-- Whether a message is an acknowledgement. -/
def MsgType.isAck (type : MsgType) : Bool :=
  type == .ptlAck || type == .e2eAck

/-- Every acknowledgement was submitted, or is about to be. -/
def Posted (s : State) : Prop :=
  ∀ msg < s.nextMsg, (s.msgs msg).type.isAck = true →
    (∃ nid vn, .submitted nid vn msg ∈ s.log) ∨
      SomePending (fun op => op = .txPut msg) s.threads

/-- No message is retransmitted. -/
def unrepeated (sys : Sys) (s : State) : Label → Bool
  | .run index =>
      match s.threads[index]? with
      | some ⟨_, .e2eWake msg :: _⟩ => !retransmits sys s msg
      | _ => true
  | _ => true

def Unrepeated (sys : Sys) (s : State) (label : Label) : Prop :=
  unrepeated sys s label = true

instance (sys : Sys) (s : State) (label : Label) :
    Decidable (Unrepeated sys s label) :=
  inferInstanceAs (Decidable (_ = true))

theorem Unrepeated.not_retransmitted {index : ThreadId}
    (unrepeated : Unrepeated sys s (.run index)) {msg : MsgId}
    {rest : List Op}
    (found : s.threads[index]? = some ⟨self, .e2eWake msg :: rest⟩)
    (pending : ¬(s.reqs (s.reqOf msg)).processState ≥
      ackedState (s.msgs msg).type) :
    ¬(s.msgs msg).retryCount < sys.cfg.maxRetries := by
  unfold Unrepeated S4BXI.unrepeated at unrepeated
  simpa [found, retransmits, pending] using unrepeated

theorem Posted.run (posted : Posted s) (wellScoped : WellScoped s)
    {index : ThreadId} {op : Op} {rest new : List Op}
    (found : s.threads[index]? = some ⟨self, op :: rest⟩)
    (phase : Phase sys self s op after new)
    (unrepeated : Unrepeated sys s (.run index)) :
    Posted { after with
      threads := s.threads.set index ⟨self, new ++ rest⟩ } := by
  have member := List.mem_of_getElem? found
  have within := wellScoped.ops _ member op List.mem_cons_self
  have grows := phase.extends
  intro msg small ack
  by_cases old : msg < s.nextMsg
  · have before : (s.msgs msg).type.isAck = true := by
      rw [← grows.type old]
      exact ack
    rcases posted msg old before with ⟨nid, vn, logged⟩ | pends
    · exact .inl ⟨nid, vn, grows.log.mem logged⟩
    · rcases pends.run found new (fun _ _ _ _ holds => holds) with rfl | later
      · refine .inl ⟨self.nid, self.txVn, ?_⟩
        cases phase with
        | quiet quiet => cases quiet
        | txPut => exact List.mem_append_right _ (List.mem_singleton_self _)
      · exact .inr later
  · rcases phase.creates within with same | ⟨created, creates, next, fixed⟩
    · exact absurd (same ▸ small) old
    · have equal : msg = s.nextMsg := by
        have bound : msg < s.nextMsg + 1 := next ▸ small
        exact Nat.le_antisymm (Nat.lt_succ_iff.mp bound) (not_lt.mp old)
      subst equal
      have fresh := fresh_of_fixed fixed
      have type : created.type.isAck = true := by
        rw [← fresh.type]
        exact ack
      have puts : .txPut s.nextMsg ∈ new → SomePending
          (fun op => op = .txPut s.nextMsg)
          (s.threads.set index ⟨self, new ++ rest⟩) := fun added =>
        SomePending.added found (List.mem_append_left _ added) rfl
      have absurdly : s.nextMsg ≠ s.nextMsg + 1 :=
        Nat.ne_of_lt (Nat.lt_succ_self _)
      cases creates with
      | ack slow =>
          refine .inr (puts ?_)
          cases phase with
          | quiet quiet => cases quiet
          | quickAck quick => simp [slow] at quick
          | sendAck slow => exact List.mem_singleton_self _
      | bxiAck =>
          refine .inr (puts ?_)
          cases phase with
          | quiet quiet => exact absurd next absurdly
          | sendBxiAck on => exact List.mem_singleton_self _
      | @response other kind req fail request responds =>
          have answers := ReqType.isResponse_responseType responds
          have other : kind.isResponse = true → kind.isAck = false := by
            cases kind <;> decide
          change kind.isAck = true at type
          rw [other answers] at type
          cases type
      | copy =>
          exfalso
          cases phase with
          | quiet quiet => exact absurd next absurdly
          | gaveUp => exact absurd next absurdly
          | retryPanic => exact absurd next absurdly
          | retransmit pending more =>
              exact unrepeated.not_retransmitted found pending more

theorem Posted.start (posted : Posted s) {index : ThreadId} {new : List Op}
    (found : s.threads[index]? = some ⟨self, []⟩)
    (begins : Begins s after new) :
    Posted { after with threads := s.threads.set index ⟨self, new⟩ } := by
  intro msg small ack
  by_cases old : msg < s.nextMsg
  · have before : (s.msgs msg).type.isAck = true := by
      rw [← begins.grows.type old]
      exact ack
    rcases posted msg old before with ⟨nid, vn, logged⟩ | pends
    · exact .inl ⟨nid, vn, begins.grows.log.mem logged⟩
    · exact .inr (pends.start found new)
  · have request := (begins.requests msg small (not_lt.mp old)).1
    exfalso
    change (after.msgs msg).type.isAck = true at ack
    revert request ack
    cases (after.msgs msg).type <;> decide

theorem ReachedBy.posted {allowed : State → Label → Prop}
    (single : ∀ s label, allowed s label → Unrepeated sys s label)
    (reached : ReachedBy sys allowed s) (running : s.halted = none) :
    Posted s := by
  refine ReachedBy.always reached running ?_ ?_ ?_
  · intro msg small
    cases small
  · intro s mid label index self new _ _ posted _ found begins _ _ _
    exact posted.start found begins
  · intro s after index self op rest new earlier _ posted permitted found phase
      _
    exact posted.run (ReachedBy.wellScoped earlier) found phase
      (single _ _ permitted)

end Steps

end S4BXI
