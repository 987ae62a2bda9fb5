import Mathlib.Algebra.BigOperators.Intervals
import S4BXI.Acks.Reports

/-!
# One acknowledgement for each request

Without retransmission a request is handled once.  The right to acknowledge it
is a token: first the request message has it, then the operations of the
handler, then the acknowledgement on its way, until the initiator is told.
-/

namespace S4BXI

open Lib

/-! ## Messages are handled once -/

/-- A message which was submitted once is sent at most once. -/
theorem deliveries_le_one {s : State} {msg : MsgId}
    (counts : ∀ nid vn, s.log.count (.sent nid vn msg) ≤
      s.log.count (.submitted nid vn msg))
    (once : s.log.countP (Obs.submits msg) ≤ 1) : s.deliveries msg ≤ 1 := by
  by_contra twice
  have sent : 0 < s.log.countP (Obs.sends msg) := by
    unfold State.deliveries at twice
    omega
  obtain ⟨obs, logged, sends⟩ := List.countP_pos_iff.mp sent
  obtain ⟨nid, vn, rfl⟩ : ∃ nid vn, obs = .sent nid vn msg := by
    cases obs with
    | sent nid vn other =>
        simp only [Obs.sends, beq_iff_eq] at sends
        exact ⟨nid, vn, by rw [sends]⟩
    | _ => cases sends
  have bound : ∀ node network, s.log.count (.submitted node network msg) ≤
      s.log.countP (Obs.submits msg) := by
    intro node network
    rw [List.count_eq_countP]
    apply List.countP_mono_left
    intro obs _ same
    rw [beq_iff_eq] at same
    simp [same, Obs.submits]
  by_cases elsewhere : ∃ node network, .sent node network msg ∈ s.log ∧
      ¬(node = nid ∧ network = vn)
  · obtain ⟨node, network, other, different⟩ := elsewhere
    have first := counts nid vn
    have second := counts node network
    have both := count_submitted_le s.log msg different
    have here : 0 < s.log.count (.sent nid vn msg) :=
      List.count_pos_iff.mpr logged
    have there : 0 < s.log.count (.sent node network msg) :=
      List.count_pos_iff.mpr other
    omega
  · have all : s.log.countP (Obs.sends msg) =
        s.log.count (.sent nid vn msg) := by
      rw [List.count_eq_countP]
      apply List.countP_congr
      intro obs member
      constructor
      · intro sends
        cases obs with
        | sent node network other =>
            simp only [Obs.sends, beq_iff_eq] at sends
            subst sends
            by_contra different
            refine elsewhere ⟨node, network, member, ?_⟩
            rintro ⟨rfl, rfl⟩
            simp at different
        | _ => cases sends
      · intro same
        rw [beq_iff_eq] at same
        simp [same, Obs.sends]
    have here := counts nid vn
    have there := bound nid vn
    unfold State.deliveries at twice
    omega

section Steps

variable {sys : Sys} {self : Actor} {s after : State}

/-- A message is sent at most once. -/
theorem ReachedBy.deliveries_le_one {allowed : State → Label → Prop}
    (undisturbed : ∀ s label, allowed s label → Undisturbed sys s label)
    (reached : ReachedBy sys allowed s) (running : s.halted = none)
    (msg : MsgId) : s.deliveries msg ≤ 1 := by
  have accounted := ReachedBy.accounted (reached.mono undisturbed) running
  have submissions := ReachedBy.submissions_le_one reached msg
  apply S4BXI.deliveries_le_one
  · intro nid vn
    have exact := accounted.exact nid vn msg
    unfold State.places at exact
    omega
  · unfold State.submissions at submissions
    omega

/-- A message which is about to be handled was not handled before. -/
theorem ReachedBy.unhandled {allowed : State → Label → Prop}
    (undisturbed : ∀ s label, allowed s label → Undisturbed sys s label)
    (reached : ReachedBy sys allowed s) (running : s.halted = none)
    {thread : Thread Actor Op} (member : thread ∈ s.threads) {msg : MsgId}
    (waits : .handle msg ∈ thread.ops) : s.handled msg = 0 := by
  have once := ReachedBy.deliveries_le_one undisturbed reached running msg
  have least : (Op.handle msg).receiving msg ≤
      pending (Op.receiving msg) s.threads := weight_le_pending member waits
  simp only [Op.receiving, if_true] at least
  unfold State.handled State.fielded
  omega

/-! ## What the initiator has heard -/

/-- Whether a message is an acknowledgement of a request, rather than of a
response or of another acknowledgement. -/
def State.replies (s : State) (msg : MsgId) : Bool :=
  match (s.msgs msg).type with
  | .ptlAck => true
  | .e2eAck => (s.msgs msg).answersMsg.any fun answered =>
      (s.msgs answered).type.isRequest
  | _ => false

/-- The answer which an operation of an initiator is about. -/
def Op.hears : Op → Option MsgId
  | .responseRest msg | .sendBxiAck msg _ | .ptlAckTail msg
  | .bxiAckTail msg => some msg
  | _ => none

/-- An initiator which knows of an answer has logged it. -/
structure Heard (s : State) : Prop where
  state : ∀ req < s.nextReq, (s.reqs req).processState ≥ .answered →
    .answered req ∈ s.log
  acks : ∀ msg < s.nextMsg, (s.msgs msg).type = .e2eAck →
    s.replies msg = false → .answered (s.reqOf msg) ∈ s.log
  ops : EveryPending (fun _ op => ∀ msg, op.hears = some msg →
    .answered (s.reqOf msg) ∈ s.log) s.threads

theorem Op.Within.hears {bounds : Bounds} {op : Op}
    (within : op.Within bounds) {msg : MsgId}
    (hears : op.hears = some msg) : msg < bounds.msg := by
  revert hears within
  cases op <;> intro within hears <;> cases hears <;> exact within

theorem State.vnOf_isRequest (s : State) (msg : MsgId) :
    (s.vnOf msg).isRequest = (s.msgs msg).type.isRequest := by
  unfold State.vnOf BxiMsg.getVn
  cases (s.msgs msg).type.isRequest <;> simp

theorem Extends.replies (grows : Extends s after) (allocated : Allocated s)
    {msg : MsgId} (old : msg < s.nextMsg) :
    after.replies msg = s.replies msg := by
  unfold State.replies
  rw [grows.type old, grows.answersMsg old]
  cases (s.msgs msg).type with
  | e2eAck =>
      cases answers : (s.msgs msg).answersMsg with
      | none => rfl
      | some answered =>
          have older := (allocated.answers msg old answered answers).trans old
          simp only [Option.any_some, grows.type older]
  | _ => rfl

/-- An acknowledgement of a request is logged when it is handled. -/
theorem Phase.hears_ack {msg : MsgId} {new : List Op}
    (phase : Phase sys self s (.handle msg) after new)
    (type : (s.msgs msg).type = .e2eAck) (replies : s.replies msg = true)
    (tail : .bxiAckTail msg ∈ new) :
    .answered (s.reqOf msg) ∈ after.log := by
  cases phase with
  | quiet quiet =>
      cases quiet with
      | unmatched => simp at tail
      | _ => cases tail
  | @handleBxiAck _ answered _ _ answers =>
      have request : (s.vnOf answered).isRequest = true := by
        simpa [State.replies, type, answers, State.vnOf_isRequest] using replies
      change _ ∈ s.log ++ _
      rw [if_pos request]
      exact List.mem_append_right _ (List.mem_singleton_self _)
  | respondUnmatched => simp at tail
  | @matched _ pt list me fail kind effects stop kindType =>
      cases kind <;> simp [type, ReqType.msgType] at kindType
  | handleResponse other => simp [type] at other
  | handlePtlAck other => simp [type] at other
  | ackWithoutAnswer => cases tail

/-- What an actor hears, it logs. -/
theorem Follows.hears {op added : Op} (follows : Follows sys self s op added)
    {msg : MsgId} (hears : added.hears = some msg) :
    op.hears = some msg ∨ op = .handle msg ∧
      (added = .responseRest msg ∧ (s.msgs msg).type.isResponse = true ∨
        (s.msgs msg).type = .ptlAck ∨
        added = .bxiAckTail msg ∧ (s.msgs msg).type = .e2eAck) := by
  cases follows with
  | @responseRest other type =>
      cases hears
      refine .inr ⟨rfl, .inl ⟨rfl, ?_⟩⟩
      rcases type with type | type <;> rw [type] <;> rfl
  | ackBxiAck type =>
      cases hears
      exact .inr ⟨rfl, .inr (.inl type)⟩
  | ptlAckTail type =>
      cases hears
      exact .inr ⟨rfl, .inr (.inl type)⟩
  | bxiAckTail type =>
      cases hears
      exact .inr ⟨rfl, .inr (.inr ⟨rfl, type⟩)⟩
  | @matched other pt list me fail kind type found => cases kind <;> cases hears
  | responseBxiAck => exact .inl hears
  | _ => cases hears

/-- A response or a Portals ACK is logged when it is handled. -/
theorem Phase.hears_answer {msg : MsgId} {new : List Op}
    (phase : Phase sys self s (.handle msg) after new)
    (answer : (s.msgs msg).type.isResponse = true ∨
      (s.msgs msg).type = .ptlAck) :
    .answered (s.reqOf msg) ∈ after.log := by
  have different : (s.msgs msg).type.isRequest = false ∧
      (s.msgs msg).type ≠ .e2eAck := by
    revert answer
    cases (s.msgs msg).type <;> decide
  cases phase with
  | quiet quiet =>
      cases quiet with
      | duplicate request => simp [different.1] at request
      | unmatched type => simp [type, MsgType.isRequest] at different
      | unanswered type =>
          rcases type with ⟨type, _⟩ | type <;>
            simp [type, MsgType.isRequest] at different
      | finished type => exact absurd type different.2
  | @respondUnmatched _ fail kind type =>
      rw [type, ReqType.isRequest_msgType] at different
      cases different.1
  | @matched _ pt list me fail kind effects stop type =>
      rw [type, ReqType.isRequest_msgType] at different
      cases different.1
  | handleResponse => exact List.mem_append_right _ (List.mem_singleton_self _)
  | handlePtlAck => exact List.mem_append_right _ (List.mem_singleton_self _)
  | ackWithoutAnswer type => exact absurd type different.2
  | handleBxiAck type => exact absurd type different.2

/-- The operation which handles an answer, or goes on with one, has it logged.
-/
theorem Heard.added (heard : Heard s) (wellScoped : WellScoped s)
    {index : ThreadId} {op added : Op} {rest new : List Op}
    (found : s.threads[index]? = some ⟨self, op :: rest⟩)
    (phase : Phase sys self s op after new) (member : added ∈ new)
    {msg : MsgId} (hears : added.hears = some msg) :
    msg < s.nextMsg ∧ .answered (s.reqOf msg) ∈ after.log := by
  have grows := phase.extends
  have threadMember := List.mem_of_getElem? found
  have within := wellScoped.ops _ threadMember op List.mem_cons_self
  rcases (phase.follows added member).hears hears with
    already | ⟨rfl, answers⟩
  · exact ⟨within.hears already, grows.log.mem
      (heard.ops _ threadMember op List.mem_cons_self msg already)⟩
  · refine ⟨within, ?_⟩
    rcases answers with ⟨_, response⟩ | ack | ⟨rfl, type⟩
    · exact phase.hears_answer (.inl response)
    · exact phase.hears_answer (.inr ack)
    · cases replies : s.replies msg with
      | true => exact phase.hears_ack type replies member
      | false => exact grows.log.mem (heard.acks msg within type replies)

/-- The acknowledgement built by an operation is one of a request, or was
logged. -/
theorem Heard.created (heard : Heard s) (wellScoped : WellScoped s)
    (shaped : Shaped sys s) {index : ThreadId} {op : Op} {rest : List Op}
    (found : s.threads[index]? = some ⟨self, op :: rest⟩) {created : BxiMsg}
    (creates : Creates sys s op created) (type : created.type = .e2eAck) :
    .answered created.parentRequest ∈ s.log ∨
      ∃ answered < s.nextMsg, created.answersMsg = some answered ∧
        (s.msgs answered).type.isRequest = true := by
  have threadMember := List.mem_of_getElem? found
  have within := wellScoped.ops _ threadMember op List.mem_cons_self
  have opShaped := shaped.ops _ threadMember op List.mem_cons_self
  cases creates with
  | @ack msg kind fail slow =>
      refine .inr ⟨msg, within, rfl, ?_⟩
      rcases opShaped.2.1 with put | atomic
      · rw [put]
        rfl
      · rw [atomic]
        rfl
  | bxiAck =>
      exact .inl (heard.ops _ threadMember _ List.mem_cons_self _ rfl)
  | @response msg kind request fail asked responds =>
      have answers := ReqType.isResponse_responseType responds
      change kind = .e2eAck at type
      rw [type] at answers
      cases answers
  | copy => exact absurd type opShaped.2

theorem Heard.run (heard : Heard s) (wellScoped : WellScoped s)
    (shaped : Shaped sys s) {index : ThreadId} {op : Op} {rest new : List Op}
    (found : s.threads[index]? = some ⟨self, op :: rest⟩)
    (phase : Phase sys self s op after new) (running : after.halted = none) :
    Heard { after with
      threads := s.threads.set index ⟨self, new ++ rest⟩ } := by
  have grows := phase.extends
  have threadMember := List.mem_of_getElem? found
  have within := wellScoped.ops _ threadMember op List.mem_cons_self
  have told : ∀ {added : Op} {msg : MsgId}, added ∈ new →
      added.hears = some msg → .answered (s.reqOf msg) ∈ after.log :=
    fun member hears => (heard.added wellScoped found phase member hears).2
  refine ⟨?_, ?_, ?_⟩
  · intro req small known
    have old : req < s.nextReq := phase.nextReq ▸ small
    change (after.reqs req).processState ≥ .answered at known
    rcases phase.turns within running req with same | turns
    · rw [same] at known
      exact grows.log.mem (heard.state req old known)
    · cases turned : (after.reqs req).processState with
      | created => exact absurd (turned ▸ known) (by decide)
      | received => exact absurd (turned ▸ known) (by decide)
      | answered =>
          rw [turned] at turns
          cases turns with
          | responded =>
              exact grows.log.mem
                (heard.ops _ threadMember _ List.mem_cons_self _ rfl)
          | answered =>
              exact grows.log.mem
                (heard.ops _ threadMember _ List.mem_cons_self _ rfl)
      | finished =>
          rw [turned] at turns
          cases turns with
          | acked type tail => exact told tail rfl
          | quick tail =>
              cases phase with
              | quiet quiet => cases quiet
              | quickAck =>
                  exact List.mem_append_right _ (List.mem_singleton_self _)
              | sendAck slow => simp at tail
  · intro msg small type replies
    change .answered (after.reqOf msg) ∈ after.log
    by_cases old : msg < s.nextMsg
    · rw [grows.reqOf old]
      apply grows.log.mem
      apply heard.acks msg old
      · rw [← grows.type old]
        exact type
      · rw [← grows.replies wellScoped.tables old]
        exact replies
    · rcases phase.creates within with same | ⟨created, creates, next, fixed⟩
      · exact absurd (same ▸ small) old
      · have equal : msg = s.nextMsg := by
          have bound : msg < s.nextMsg + 1 := next ▸ small
          exact Nat.le_antisymm (Nat.lt_succ_iff.mp bound) (not_lt.mp old)
        subst equal
        have fresh := fresh_of_fixed fixed
        have kind : created.type = .e2eAck := fresh.type.symm.trans type
        rcases heard.created wellScoped shaped found creates kind with
          logged | ⟨answered, older, answers, request⟩
        · rw [fresh.reqOf]
          exact grows.log.mem logged
        · exfalso
          have now : (after.msgs s.nextMsg).answersMsg = some answered :=
            fresh.answersMsg.trans answers
          change after.replies s.nextMsg = false at replies
          have type' : (after.msgs s.nextMsg).type = .e2eAck := type
          simp [State.replies, type', now, grows.type older, request] at replies
  · refine heard.ops.run found ?_ ?_
    · intro thread member other pendingOp logged msg hears
      have older := (wellScoped.ops thread member other pendingOp).hears hears
      change .answered (after.reqOf msg) ∈ after.log
      rw [grows.reqOf older]
      exact grows.log.mem (logged msg hears)
    · intro added member msg hears
      obtain ⟨older, logged⟩ :=
        heard.added wellScoped found phase member hears
      change .answered (after.reqOf msg) ∈ after.log
      rw [grows.reqOf older]
      exact logged

theorem Heard.start (heard : Heard s) (wellScoped : WellScoped s)
    {index : ThreadId} {new : List Op} (begins : Begins s after new) :
    Heard { after with threads := s.threads.set index ⟨self, new⟩ } := by
  have grows := begins.grows
  refine ⟨?_, ?_, ?_⟩
  · intro req small known
    change (after.reqs req).processState ≥ .answered at known
    by_cases old : req < s.nextReq
    · rw [begins.processState req old] at known
      exact grows.log.mem (heard.state req old known)
    · rw [(begins.created req small (not_lt.mp old)).1] at known
      exact absurd known (by decide)
  · intro msg small type replies
    change .answered (after.reqOf msg) ∈ after.log
    by_cases old : msg < s.nextMsg
    · rw [grows.reqOf old]
      apply grows.log.mem
      apply heard.acks msg old
      · rw [← grows.type old]
        exact type
      · rw [← grows.replies wellScoped.tables old]
        exact replies
    · have request := (begins.requests msg small (not_lt.mp old)).1
      change (after.msgs msg).type = .e2eAck at type
      rw [type] at request
      cases request
  · refine heard.ops.start ?_ ?_
    · intro thread member other pendingOp logged msg hears
      have older := (wellScoped.ops thread member other pendingOp).hears hears
      change .answered (after.reqOf msg) ∈ after.log
      rw [grows.reqOf older]
      exact grows.log.mem (logged msg hears)
    · intro added member msg hears
      have opens := begins.opens added member
      cases added with
      | responseRest => cases opens
      | sendBxiAck => cases opens
      | ptlAckTail => cases opens
      | bxiAckTail => cases opens
      | _ => cases hears

theorem ReachedBy.heard {allowed : State → Label → Prop}
    (reached : ReachedBy sys allowed s) (running : s.halted = none) :
    Heard s := by
  refine ReachedBy.always reached running ?_ ?_ ?_
  · refine ⟨?_, ?_, ?_⟩
    · intro req small
      cases small
    · intro msg small
      cases small
    · intro thread member op pendingOp
      obtain ⟨actor, _, rfl⟩ := List.mem_map.mp member
      cases pendingOp
  · intro s mid label index self new earlier _ heard _ _ begins _ _ _
    exact heard.start (ReachedBy.wellScoped earlier) begins
  · intro s after index self op rest new earlier _ heard _ found phase running
    exact heard.run (ReachedBy.wellScoped earlier) (ReachedBy.shaped earlier)
      found phase running

/-! ## Messages which are still to be handled -/

/-- The weight of the messages which have not been handled. -/
def State.unhandled (s : State) (weight : MsgId → Nat) : Nat :=
  ∑ msg ∈ Finset.range s.nextMsg, weight msg * (1 - s.handled msg)

/-- The weight of the message which an operation handles. -/
def Op.handling (weight : MsgId → Nat) : Op → Nat
  | .handle msg => weight msg
  | _ => 0

/-- The messages which an operation allocates are still to be handled, and the
one it handles no longer is. -/
theorem unhandled_run {allowed : State → Label → Prop}
    (undisturbed : ∀ s label, allowed s label → Undisturbed sys s label)
    (reached : ReachedBy sys allowed s) (before : s.halted = none)
    {index : ThreadId} {op : Op} {rest new : List Op}
    (found : s.threads[index]? = some ⟨self, op :: rest⟩)
    (phase : Phase sys self s op after new) (running : after.halted = none)
    {weight later : MsgId → Nat}
    (same : ∀ msg < s.nextMsg, later msg = weight msg) :
    State.unhandled { after with
        threads := s.threads.set index ⟨self, new ++ rest⟩ } later +
        op.handling weight =
      s.unhandled weight +
        ∑ msg ∈ Finset.Ico s.nextMsg after.nextMsg, later msg := by
  have wellScoped := ReachedBy.wellScoped reached
  have member := List.mem_of_getElem? found
  have within := wellScoped.ops _ member op List.mem_cons_self
  have handled := handled_run reached found phase before running
  have grows := phase.extends
  have fresh : ∀ msg ∈ Finset.Ico s.nextMsg after.nextMsg,
      later msg * (1 - State.handled { after with
        threads := s.threads.set index ⟨self, new ++ rest⟩ } msg) =
      later msg := by
    intro msg bounds
    have least := (Finset.mem_Ico.mp bounds).1
    rw [handled, wellScoped.handled_fresh least]
    cases op with
    | handle other =>
        have different : other ≠ msg := by
          rintro rfl
          exact absurd within (not_lt.mpr least)
        simp [Op.receiving, different]
    | _ => simp [Op.receiving]
  have old : ∀ msg ∈ Finset.range s.nextMsg,
      later msg * (1 - State.handled { after with
        threads := s.threads.set index ⟨self, new ++ rest⟩ } msg) +
        op.receiving msg * weight msg =
      weight msg * (1 - s.handled msg) := by
    intro msg bounds
    rw [handled, same msg (Finset.mem_range.mp bounds)]
    cases op with
    | handle other =>
        by_cases equal : other = msg
        · subst equal
          have none_yet := ReachedBy.unhandled undisturbed reached before
            member List.mem_cons_self
          simp [Op.receiving, none_yet]
        · simp [Op.receiving, equal]
    | _ => simp [Op.receiving]
  have taken : ∑ msg ∈ Finset.range s.nextMsg, op.receiving msg * weight msg =
      op.handling weight := by
    cases op with
    | handle other =>
        have small : other ∈ Finset.range s.nextMsg := Finset.mem_range.mpr within
        simp [Op.receiving, Op.handling, Finset.mem_range.mp small]
    | _ => simp [Op.receiving, Op.handling]
  have split : State.unhandled { after with
      threads := s.threads.set index ⟨self, new ++ rest⟩ } later =
      ∑ msg ∈ Finset.range s.nextMsg, later msg * (1 - State.handled { after with
        threads := s.threads.set index ⟨self, new ++ rest⟩ } msg) +
      ∑ msg ∈ Finset.Ico s.nextMsg after.nextMsg, later msg := by
    rw [← Finset.sum_congr rfl fresh]
    exact (Finset.sum_range_add_sum_Ico _ grows.nextMsg).symm
  have whole := Finset.sum_congr rfl old
  rw [Finset.sum_add_distrib, taken] at whole
  rw [split, State.unhandled, ← whole]
  omega

theorem unhandled_start (wellScoped : WellScoped s) (shaped : Shaped sys s)
    {index : ThreadId} {label : Label} {new : List Op}
    (begins : Begins s after new) (idle : ∀ index, label ≠ .run index)
    (advances : Advances sys s index label { after with
      threads := s.threads.set index ⟨self, new⟩ })
    (running : after.halted = none) {weight later : MsgId → Nat}
    (same : ∀ msg < s.nextMsg, later msg = weight msg) :
    State.unhandled { after with
        threads := s.threads.set index ⟨self, new⟩ } later =
      s.unhandled weight +
        ∑ msg ∈ Finset.Ico s.nextMsg after.nextMsg, later msg := by
  have handled := handled_start wellScoped shaped advances idle running
  have split := Finset.sum_range_add_sum_Ico (fun msg =>
    later msg * (1 - State.handled { after with
      threads := s.threads.set index ⟨self, new⟩ } msg)) begins.grows.nextMsg
  unfold State.unhandled
  rw [← split]
  congr 1
  · apply Finset.sum_congr rfl
    intro msg bounds
    rw [handled, same msg (Finset.mem_range.mp bounds)]
  · apply Finset.sum_congr rfl
    intro msg bounds
    rw [handled, wellScoped.handled_fresh (Finset.mem_Ico.mp bounds).1]
    simp

/-! ## The right to acknowledge a request -/

/-- A request message and an acknowledgement of the request carry the right to
acknowledge it. -/
def State.token (s : State) (req : ReqId) (msg : MsgId) : Nat :=
  if s.reqOf msg = req ∧
      ((s.msgs msg).type.isRequest = true ∨ s.replies msg = true) then 1 else 0

/-- The acknowledgements of a request which an operation is to send. -/
def Op.tokens (sys : Sys) (s : State) (req : ReqId) (op : Op) : Nat :=
  match op with
  | .sendAck msg _ _ | .putFinish msg _ _ | .atomicFinish msg _ _ =>
      if s.reqOf msg = req then (op.acks sys s).length else 0
  | _ => 0

/-- The rights to acknowledge a request, and the acknowledgements which reached
its initiator. -/
def State.claims (sys : Sys) (s : State) (req : ReqId) : Nat :=
  s.log.count (.answered req) + pending (Op.tokens sys s req) s.threads +
    s.unhandled (s.token req)

theorem Extends.token (grows : Extends s after) (allocated : Allocated s)
    {msg : MsgId} (old : msg < s.nextMsg) (req : ReqId) :
    after.token req msg = s.token req msg := by
  unfold State.token
  rw [grows.reqOf old, grows.type old, grows.replies allocated old]

theorem Op.tokens_congr (grows : Extends s after) (allocated : Allocated s)
    {op : Op} (within : op.Within s.bounds) (req : ReqId) :
    op.tokens sys after req = op.tokens sys s req := by
  unfold Op.tokens
  cases op with
  | sendAck msg type fail =>
      simp only [grows.reqOf within, Op.acks_congr grows allocated within]
  | putFinish msg me fail =>
      simp only [grows.reqOf within.1, Op.acks_congr grows allocated within]
  | atomicFinish msg me fail =>
      simp only [grows.reqOf within.1, Op.acks_congr grows allocated within]
  | _ => rfl

/-- Only the handlers of a request leave an acknowledgement to send. -/
theorem Follows.tokens {op added : Op} (follows : Follows sys self s op added)
    (handles : ∀ msg, op ≠ .handle msg)
    (finishes : ∀ msg me fail, op ≠ .putFinish msg me fail ∧
      op ≠ .atomicFinish msg me fail) (later : State) (req : ReqId) :
    added.tokens sys later req = 0 := by
  cases follows with
  | putAcked => exact absurd rfl (finishes _ _ _).1
  | atomicAcked => exact absurd rfl (finishes _ _ _).2
  | unmatchedAck => exact absurd rfl (handles _)
  | matched => exact absurd rfl (handles _)
  | _ => rfl

/-- An answer is logged by the handler of a message or by a quick
acknowledgement. -/
theorem Phase.answered_kept {op : Op} {new : List Op}
    (phase : Phase sys self s op after new) (within : op.Within s.bounds)
    (handles : ∀ msg, op ≠ .handle msg)
    (acks : ∀ msg type fail, op ≠ .sendAck msg type fail) (req : ReqId) :
    after.log.count (.answered req) = s.log.count (.answered req) := by
  obtain ⟨extra, log, emitted⟩ := phase.emits within
  have absent : .answered req ∉ extra := by
    intro member
    cases emitted _ member with
    | answered => exact handles _ rfl
    | quickAnswered => exact acks _ _ _ rfl
  rw [log, List.count_append, List.count_eq_zero.mpr absent, Nat.add_zero]

/-- Apart from acknowledgements and retransmissions, no new message carries the
right to acknowledge a request. -/
theorem Phase.token_created {op : Op} {new : List Op}
    (phase : Phase sys self s op after new) (within : op.Within s.bounds)
    (opShaped : op.Shaped s self)
    (acks : ∀ msg type fail, op ≠ .sendAck msg type fail)
    (single : ∀ msg, op = .e2eWake msg → after.nextMsg = s.nextMsg)
    (req : ReqId) :
    ∑ msg ∈ Finset.Ico s.nextMsg after.nextMsg, after.token req msg = 0 := by
  rcases phase.creates within with same | ⟨created, creates, next, fixed⟩
  · simp [same]
  · rw [next, Nat.Ico_succ_singleton, Finset.sum_singleton]
    have fresh := fresh_of_fixed fixed
    have grows := phase.extends
    cases creates with
    | ack slow => exact absurd rfl (acks _ _ _)
    | @bxiAck msg md =>
        have older : (after.msgs msg).type = (s.msgs msg).type :=
          grows.type within
        have type : (after.msgs s.nextMsg).type = .e2eAck := fresh.type
        have answers : (after.msgs s.nextMsg).answersMsg = some msg :=
          fresh.answersMsg
        have other : (s.msgs msg).type.isRequest = false := by
          obtain ⟨_, kind⟩ := opShaped
          revert kind
          cases (s.msgs msg).type <;> decide
        have silent : after.replies s.nextMsg = false := by
          simp [State.replies, type, answers, older, other]
        simp [State.token, type, silent, MsgType.isRequest]
    | @response msg type kind fail request responds =>
        have answer := ReqType.isResponse_responseType responds
        have kind : (after.msgs s.nextMsg).type = type := fresh.type
        unfold State.token State.replies
        rw [kind]
        revert answer
        cases type <;> simp [MsgType.isResponse, MsgType.isRequest]
    | copy =>
        have same := single _ rfl
        exact absurd (same.symm.trans next) (Nat.ne_of_lt (Nat.lt_succ_self _))

/-- The acknowledgement of a request takes over the right to acknowledge it. -/
theorem newAck_token {msg : MsgId} (old : msg < s.nextMsg) {type : MsgType}
    (kind : type = .ptlAck ∨ type = .e2eAck)
    (request : (s.msgs msg).type.isRequest = true) (fail : NiFailType)
    (req : ReqId) :
    (newAck s msg type fail).token req s.nextMsg =
      if s.reqOf msg = req then 1 else 0 := by
  have phase : Extends s (newAck s msg type fail) :=
    (Extends.newMsg s _).trans (.ref _ _)
  obtain ⟨own, created⟩ := newAck_fresh s old type fail
  have older : ((newAck s msg type fail).msgs msg).type = (s.msgs msg).type :=
    phase.type old
  have answers : ((newAck s msg type fail).msgs s.nextMsg).answersMsg =
      some msg := by
    have different : s.nextMsg ≠ msg := (ne_of_lt old).symm
    simp [newAck, State.newMsg, State.ref, State.modMsg, different]
  have replies : (newAck s msg type fail).replies s.nextMsg = true := by
    unfold State.replies
    rw [created, answers]
    rcases kind with rfl | rfl
    · rfl
    · simp [older, request]
  simp [State.token, own, replies]

end Steps

end S4BXI
