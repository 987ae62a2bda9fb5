import S4BXI.Acks.Outcomes
import S4BXI.Memory.Managed

/-!
# What a history attests

What an outcome is worth to a counter, the steps which are counted as they are,
and what the history of a run of such steps says about the requests: which of
them were received, which answers were taken in and which are still due.
-/

namespace S4BXI

open Lib

/-! ## What a counter should count -/

/-- The flag under which a descriptor counts the answer to a request. -/
def BxiRequest.answerFlag (req : BxiRequest) : Options :=
  if req.type.putLike then MdOption.eventCtAck else MdOption.eventCtReply

/-- The counter of the answers to a request. -/
def BxiRequest.answerCt (req : BxiRequest) : Option CtId :=
  req.replyMd.counts req.answerFlag

namespace Outcome

/-- What a successful operation adds to a counter: one, or its `mlength` when
the entry or the descriptor counts bytes. -/
def successes (s : State) (ct : CtId) : Outcome → Nat
  | .matched me _ mlength =>
      if (s.mes me).countsComm = some ct then (s.mes me).ctAmount mlength
      else 0
  | .answered req fail =>
      let r := s.reqs req
      if fail = .ok ∧ r.answerCt = some ct then r.replyMd.ctAmount r.mlength
      else 0

/-- What a failed operation adds to a counter. -/
def failures (s : State) (ct : CtId) : Outcome → Nat
  | .matched _ _ _ => 0
  | .answered req fail =>
      if fail ≠ .ok ∧ (s.reqs req).answerCt = some ct then 1 else 0

/-- An outcome which the code counts as it is: an answer is no failure, and
where bytes are counted the payload was not truncated. -/
def Whole (s : State) (ct : CtId) : Outcome → Prop
  | .matched me req mlength => (s.mes me).countsComm = some ct →
      (s.mes me).hasOption MeOption.eventCtBytes = true →
      mlength = (s.reqs req).payloadSize
  | .answered req fail => (s.reqs req).answerCt = some ct → fail = .ok ∧
      ((s.reqs req).replyMd.hasOption MdOption.eventCtBytes = true →
        (s.reqs req).mlength = (s.reqs req).payloadSize)

instance (s : State) (ct : CtId) (outcome : Outcome) :
    Decidable (outcome.Whole s ct) :=
  match outcome with
  | .matched me _ mlength => inferInstanceAs (Decidable (
      (s.mes me).countsComm = some ct → _ = true → mlength = _))
  | .answered req fail => inferInstanceAs (Decidable (
      (s.reqs req).answerCt = some ct → fail = .ok ∧ (_ = true → _ = _)))

end Outcome

/-- No BXI ACK which takes effect at once is counted as a Portals ACK. -/
def asked (sys : Sys) (ct : CtId) (s : State) : Label → Bool
  | .run index =>
      match s.threads[index]? with
      | some ⟨_, .sendAck msg .e2eAck _ :: _⟩ => !sys.cfg.quickAcks ||
          (s.reqs (s.reqOf msg)).answerCt ≠ some ct
      | _ => true
  | _ => true

/-- The steps which a counter counts as they are. -/
structure CountsWhole (sys : Sys) (ct : CtId) (s : State) (label : Label) :
    Prop where
  whole : ∀ outcome ∈ outcomes sys s label, outcome.Whole s ct
  asked : asked sys ct s label = true
  unrepeated : Unrepeated sys s label
  prompt : prompt s label = true

instance (sys : Sys) (ct : CtId) (s : State) (label : Label) :
    Decidable (CountsWhole sys ct s label) :=
  decidable_of_iff
    ((∀ outcome ∈ outcomes sys s label, outcome.Whole s ct) ∧
      S4BXI.asked sys ct s label = true ∧ Unrepeated sys s label ∧
      S4BXI.prompt s label = true)
    ⟨fun ⟨whole, asked, unrepeated, prompt⟩ =>
        ⟨whole, asked, unrepeated, prompt⟩,
      fun counts =>
        ⟨counts.whole, counts.asked, counts.unrepeated, counts.prompt⟩⟩

section Steps

variable {sys : Sys} {self : Actor} {s after : State} {ct : CtId}
  {history : List Outcome}

/-- The steps which have outcomes. -/
theorem Op.mem_outcomes {op : Op} {outcome : Outcome}
    (member : outcome ∈ op.outcomes sys self s) :
    (∃ msg pt list me fail, op = .handle msg ∧
        (s.msgs msg).type.isRequest = true ∧
        ¬(s.reqs (s.reqOf msg)).processState > .created ∧
        matchEntry sys s self.nid msg = (some (pt, list, me), fail) ∧
        outcome = .matched me (s.reqOf msg)
          ((s.mes me).getMlength (s.reqs (s.reqOf msg)))) ∨
      (∃ msg, op = .handle msg ∧ (s.msgs msg).type.isAnswer = true ∧
        outcome = .answered (s.reqOf msg) (s.msgs msg).niFailType) ∨
      ∃ msg fail, op = .sendAck msg .ptlAck fail ∧
        sys.cfg.quickAcks = true ∧
        outcome = .answered (s.reqOf msg) fail := by
  cases op with
  | handle msg =>
      simp only [Op.outcomes] at member
      split at member
      · rename_i request
        split at member
        · cases member
        · rename_i fresh
          left
          rcases found : matchEntry sys s self.nid msg with ⟨entry, fail⟩
          rw [found] at member
          cases entry with
          | none => cases member
          | some entry =>
              obtain ⟨pt, list, me⟩ := entry
              exact ⟨msg, pt, list, me, fail, rfl, request, fresh, found,
                List.mem_singleton.mp member⟩
      · split at member
        · rename_i answer
          exact .inr (.inl ⟨msg, rfl, answer, List.mem_singleton.mp member⟩)
        · cases member
  | sendAck msg type fail =>
      cases type with
      | ptlAck =>
          simp only [Op.outcomes] at member
          split at member
          · rename_i quick
            exact .inr (.inr ⟨msg, fail, rfl, quick,
              List.mem_singleton.mp member⟩)
          · cases member
      | _ => cases member
  | _ => cases member

/-- What is known of the outcomes of a run. -/
structure Attested (sys : Sys) (ct : CtId) (s : State)
    (history : List Outcome) : Prop where
  within : ∀ outcome ∈ history, outcome.Within s
  matched : ∀ me req mlength, .matched me req mlength ∈ history →
    (s.reqs req).processState > .created
  granted : ∀ req, .answered req .ok ∈ history →
    (s.reqs req).processState > .created
  whole : ∀ req fail, .answered req fail ∈ history →
    (Outcome.answered req fail).Whole s ct
  heard : ∀ req fail, .answered req fail ∈ history → Concluded s req
  ops : EveryPending (fun _ op => ∀ msg, op.concludes = some msg →
    .answered (s.reqOf msg) (s.msgs msg).niFailType ∈ history) s.threads
  known : ∀ req < s.nextReq, (s.reqs req).answerCt = some ct →
    (s.reqs req).processState ≥ .answered →
    .answered req .ok ∈ history ∨ ∃ msg < s.nextMsg, s.reqOf msg = req ∧
      (s.msgs msg).type = .e2eAck ∧ s.replies msg = true
  quick : sys.cfg.quickAcks = true → ∀ req,
    (s.reqs req).type.putLike = true → .answered req .ok ∈ history →
    s.granted req = 0

/-- The actor which takes in an answer was told by its message. -/
theorem Follows.concludes {op added : Op}
    (follows : Follows sys self s op added) {msg : MsgId}
    (concludes : added.concludes = some msg) :
    op = .handle msg ∧ (s.msgs msg).type.isAnswer = true := by
  cases follows with
  | @matched other pt list me fail kind type found =>
      cases kind <;> cases concludes
  | responseRest type =>
      cases concludes
      refine ⟨rfl, ?_⟩
      rcases type with type | type <;> rw [type] <;> rfl
  | ptlAckTail type =>
      cases concludes
      refine ⟨rfl, ?_⟩
      rw [type]
      rfl
  | _ => cases concludes

/-- The handler of an answer goes on to take it in. -/
theorem Phase.takes_in {msg : MsgId} {new : List Op}
    (phase : Phase sys self s (.handle msg) after new)
    (answer : (s.msgs msg).type.isAnswer = true) :
    ∃ tail ∈ new, tail.concludes = some msg := by
  have other : (s.msgs msg).type.isRequest = false ∧
      (s.msgs msg).type ≠ .e2eAck := by
    revert answer
    cases (s.msgs msg).type <;> decide
  cases phase with
  | quiet quiet =>
      cases quiet with
      | duplicate request => simp [other.1] at request
      | unmatched type => simp [type, MsgType.isRequest] at other
      | unanswered type =>
          rcases type with ⟨type, _⟩ | type <;>
            simp [type, MsgType.isRequest] at other
      | finished type => exact absurd type other.2
  | @respondUnmatched _ fail kind type =>
      rw [type, ReqType.isRequest_msgType] at other
      cases other.1
  | @matched _ pt list me fail kind effects stop type =>
      rw [type, ReqType.isRequest_msgType] at other
      cases other.1
  | handleResponse type => exact ⟨.responseRest msg, by simp, rfl⟩
  | handlePtlAck type => exact ⟨.ptlAckTail msg, by simp, rfl⟩
  | ackWithoutAnswer type => exact absurd type other.2
  | handleBxiAck type => exact absurd type other.2

theorem Op.outcomes_answer {msg : MsgId}
    (answer : (s.msgs msg).type.isAnswer = true) :
    (Op.handle msg).outcomes sys self s =
      [.answered (s.reqOf msg) (s.msgs msg).niFailType] := by
  have other : (s.msgs msg).type.isRequest = false := by
    revert answer
    cases (s.msgs msg).type <;> decide
  simp [Op.outcomes, other, answer]

/-- A message which is a grant counts. -/
theorem grant_le_granted {msg : MsgId} (small : msg < s.nextMsg)
    (grants : s.grants msg = true) : 1 ≤ s.granted (s.reqOf msg) := by
  have own : s.grant (s.reqOf msg) msg = 1 := if_pos ⟨rfl, grants⟩
  have least : s.grant (s.reqOf msg) msg ≤
      ∑ other ∈ Finset.range s.nextMsg, s.grant (s.reqOf msg) other :=
    Finset.single_le_sum (fun _ _ => Nat.zero_le _) (Finset.mem_range.mpr small)
  unfold State.granted
  omega

/-- So does an operation which is about to grant. -/
theorem op_grant_le_granted {thread : Thread Actor Op} {op : Op}
    (member : thread ∈ s.threads) (pendingOp : op ∈ thread.ops)
    (req : ReqId) : op.grant s req ≤ s.granted req := by
  have least : op.grant s req ≤ pending (Op.grant s req) s.threads :=
    weight_le_pending member pendingOp
  unfold State.granted
  omega

/-- Two messages grant twice. -/
theorem grants_distinct {msg other : MsgId} (small : msg < s.nextMsg)
    (bound : other < s.nextMsg) (different : msg ≠ other)
    (same : s.reqOf other = s.reqOf msg) (grants : s.grants msg = true)
    (again : s.grants other = true) : 2 ≤ s.granted (s.reqOf msg) := by
  have first : s.grant (s.reqOf msg) msg = 1 := if_pos ⟨rfl, grants⟩
  have second : s.grant (s.reqOf msg) other = 1 := if_pos ⟨same, again⟩
  have subset : {msg, other} ⊆ Finset.range s.nextMsg := by
    intro one member
    rcases Finset.mem_insert.mp member with rfl | last
    · exact Finset.mem_range.mpr small
    · rw [Finset.mem_singleton.mp last]
      exact Finset.mem_range.mpr bound
  have least : ∑ one ∈ {msg, other}, s.grant (s.reqOf msg) one ≤
      ∑ one ∈ Finset.range s.nextMsg, s.grant (s.reqOf msg) one :=
    Finset.sum_le_sum_of_subset subset
  rw [Finset.sum_pair different, first, second] at least
  unfold State.granted
  omega

/-- The steps of a run which a history attests. -/
structure Attests (sys : Sys) (ct : CtId) (s : State) (index : ThreadId)
    (actor : Actor) (op : Op) (rest : List Op) (after : State)
    (new : List Op) : Prop where
  wellScoped : WellScoped s
  shaped : Shaped sys s
  granting : Granting s
  confirming : Confirming s
  found : s.threads[index]? = some ⟨actor, op :: rest⟩
  phase : Phase sys actor s op after new
  running : after.halted = none
  counts : CountsWhole sys ct s (.run index)

namespace Attests

variable {index : ThreadId} {op : Op} {rest new : List Op}

theorem member (step : Attests sys ct s index self op rest after new) :
    ⟨self, op :: rest⟩ ∈ s.threads :=
  List.mem_of_getElem? step.found

theorem opWithin (step : Attests sys ct s index self op rest after new) :
    op.Within s.bounds :=
  step.wellScoped.ops _ step.member op List.mem_cons_self

theorem opShaped (step : Attests sys ct s index self op rest after new) :
    op.Shaped s self :=
  step.shaped.ops _ step.member op List.mem_cons_self

theorem whole (step : Attests sys ct s index self op rest after new) :
    ∀ outcome ∈ op.outcomes sys self s, outcome.Whole s ct := by
  have whole := step.counts.whole
  rw [outcomes_run step.found] at whole
  exact whole

theorem progress (step : Attests sys ct s index self op rest after new)
    (req : ReqId) :
    (s.reqs req).processState ≤ (after.reqs req).processState :=
  (step.phase.progress step.opWithin req).state

/-- A grant which is seen was preceded by the match of its request. -/
theorem received (step : Attests sys ct s index self op rest after new)
    {req : ReqId} (granted : 1 ≤ s.granted req) :
    (s.reqs req).processState > .created := by
  by_contra unknown
  have none := (step.granting req).2 unknown
  omega

/-- A new outcome is about objects which exist. -/
theorem outcome_within (step : Attests sys ct s index self op rest after new)
    {outcome : Outcome} (fresh : outcome ∈ op.outcomes sys self s) :
    outcome.Within s := by
  have within := step.opWithin
  have parents := step.wellScoped.tables.parents
  rcases Op.mem_outcomes fresh with
    ⟨msg, pt, list, me, fail, rfl, request, unknown, entry, rfl⟩ |
    ⟨msg, rfl, answer, rfl⟩ | ⟨msg, fail, rfl, quick, rfl⟩
  · exact ⟨(step.wellScoped.tables.matched (matched_of_matchEntry entry)).2,
      parents msg within⟩
  · exact parents msg within
  · exact parents msg within

/-- An answer which reports no failure is a grant. -/
theorem answered_granted
    (step : Attests sys ct s index self op rest after new) {req : ReqId}
    (fresh : .answered req .ok ∈ op.outcomes sys self s) :
    1 ≤ s.granted req := by
  have within := step.opWithin
  rcases Op.mem_outcomes fresh with
    ⟨msg, pt, list, me, fail, rfl, request, unknown, entry, equal⟩ |
    ⟨msg, rfl, answer, equal⟩ | ⟨msg, fail, rfl, quick, equal⟩
  · cases equal
  · obtain ⟨rfl, success⟩ := Outcome.answered.inj equal
    apply grant_le_granted within
    simp [State.grants, answer, ← success]
  · obtain ⟨rfl, rfl⟩ := Outcome.answered.inj equal
    have grant : (Op.sendAck msg .ptlAck .ok).grant s (s.reqOf msg) = 1 := by
      simp [Op.grant]
    rw [← grant]
    exact op_grant_le_granted step.member List.mem_cons_self _

theorem matched_received
    (step : Attests sys ct s index self op rest after new) {me : MeId}
    {req : ReqId} {mlength : Size}
    (fresh : .matched me req mlength ∈ op.outcomes sys self s) :
    ¬(s.reqs req).processState > .created ∧
      (after.reqs req).processState = .received := by
  have within := step.opWithin
  have phase := step.phase
  rcases Op.mem_outcomes fresh with
    ⟨msg, pt, list, entry, fail, rfl, request, unknown, search, equal⟩ |
    ⟨msg, rfl, answer, equal⟩ | ⟨msg, fail, rfl, quick, equal⟩
  · obtain ⟨rfl, rfl, rfl⟩ := Outcome.matched.inj equal
    obtain ⟨kind, effects, stop, type, rfl, ops⟩ :=
      phase.of_found request unknown search
    exact ⟨unknown, deposit_processState within pt list me fail kind⟩
  · cases equal
  · cases equal

/-- The `mlength` of a request which was received is final. -/
theorem mlength_kept (step : Attests sys ct s index self op rest after new)
    {req : ReqId} (old : req < s.nextReq)
    (received : (s.reqs req).processState > .created) :
    (after.reqs req).mlength = (s.reqs req).mlength := by
  cases step.phase.accesses step.opWithin with
  | untouched untouched uses =>
      have same := untouched.access req old
      exact congrArg (fun access => access.1) same
  | @matched msg pt list me _ _ fresh matched deposits uses =>
      have other : req ≠ s.reqOf msg := by
        rintro rfl
        exact fresh received
      have same := deposits.others req other
      exact congrArg (fun access => access.1) same

/-- The answer to a request which was counted is no BXI ACK of the request. -/
theorem not_acked (step : Attests sys ct s index self op rest after new)
    {msg other : MsgId} (small : msg < s.nextMsg) (bound : other < s.nextMsg)
    (answer : (s.msgs msg).type.isAnswer = true)
    (success : (s.msgs msg).niFailType = .ok)
    (same : s.reqOf other = s.reqOf msg)
    (type : (s.msgs other).type = .e2eAck)
    (replies : s.replies other = true) : False := by
  have different : msg ≠ other := by
    rintro rfl
    rw [type] at answer
    cases answer
  have twice := grants_distinct small bound different same
    (by simp [State.grants, answer, success])
    (by simp [State.grants, type, replies])
  have once := (step.granting (s.reqOf msg)).1
  omega

/-- An actor is about to take in an answer which was attested. -/
theorem told (step : Attests sys ct s index self op rest after new)
    (attested : Attested sys ct s history) {req : ReqId}
    (pends : Concluding s req) :
    ∃ msg < s.nextMsg, s.reqOf msg = req ∧
      (s.msgs msg).type.isAnswer = true ∧
      .answered req (s.msgs msg).niFailType ∈ history := by
  obtain ⟨thread, member, other, pendingOp, msg, concludes, rfl⟩ := pends
  have small := Op.concludes_within
    (step.wellScoped.ops thread member other pendingOp) concludes
  refine ⟨msg, small, rfl, ?_,
    attested.ops thread member other pendingOp msg concludes⟩
  have shape := step.shaped.ops thread member other pendingOp
  cases other with
  | ptlAckTail tail =>
      cases concludes
      simp [MsgType.isAnswer, shape.2]
  | responseRest tail =>
      cases concludes
      simp [MsgType.isAnswer, shape.2]
  | _ => cases concludes

/-- The BXI ACK of a request which was answered without a failure is the one of
its answer, which was taken in before. -/
theorem acked (step : Attests sys ct s index self op rest after new)
    {msg : MsgId} (handles : op = .handle msg) (type : (s.msgs msg).type = .e2eAck)
    (silent : s.replies msg = false) :
    (s.reqs (s.reqOf msg)).processState ≥ .answered := by
  subst handles
  have within : msg < s.nextMsg := step.opWithin
  rcases step.confirming.acks msg within type silent with known | pends
  · exact known
  · exfalso
    have prompt := step.counts.prompt
    unfold S4BXI.prompt at prompt
    simp only [step.found, type, silent, concluding_iff.mpr pends] at prompt
    simp at prompt

/-- A request which was received gets no new grant. -/
theorem hands_on (step : Attests sys ct s index self op rest after new)
    {req : ReqId} (received : (s.reqs req).processState > .created) :
    leftGrants s after new req ≤ op.grant s req := by
  have within := step.opWithin
  have phase := step.phase
  by_cases handles : ∃ msg, op = .handle msg
  · obtain ⟨msg, rfl⟩ := handles
    rcases phase.handle_grants within step.running req with
      none | ⟨_, _, unknown, _⟩
    · exact none.trans_le (Nat.zero_le _)
    · exact absurd received unknown
  · push Not at handles
    apply phase.hands_on within step.opShaped handles
    rintro msg rfl
    exact step.counts.unrepeated.nextMsg step.found phase

/-- In the quick mode a Put or an Atomic is answered by `send_ack`. -/
theorem quickly (step : Attests sys ct s index self op rest after new)
    (quick : sys.cfg.quickAcks = true) {req : ReqId} {fail : NiFailType}
    (putLike : (s.reqs req).type.putLike = true)
    (fresh : .answered req fail ∈ op.outcomes sys self s) :
    ∃ msg, op = .sendAck msg .ptlAck fail ∧ req = s.reqOf msg := by
  have within := step.opWithin
  rcases Op.mem_outcomes fresh with
    ⟨msg, pt, list, me, fail', rfl, request, unknown, entry, equal⟩ |
    ⟨msg, rfl, answer, equal⟩ | ⟨msg, fail', rfl, _, equal⟩
  · cases equal
  · obtain ⟨rfl, rfl⟩ := Outcome.answered.inj equal
    exfalso
    have shape := step.shaped.msgs msg within
    rcases (Bool.or_eq_true _ _).mp answer with ack | response
    · have slow := (shape.of_ptlAck (by simpa using ack)).2.1
      rw [quick] at slow
      cases slow
    · have responds := (shape.of_isResponse response).1
      change (s.reqs (s.reqOf msg)).type.responseType = _ at responds
      revert putLike responds
      cases (s.reqs (s.reqOf msg)).type <;>
        simp [ReqType.putLike, ReqType.responseType]
  · obtain ⟨rfl, rfl⟩ := Outcome.answered.inj equal
    exact ⟨msg, rfl, rfl⟩

/-- What a counted request which was taken in has to show. -/
theorem known (step : Attests sys ct s index self op rest after new)
    (attested : Attested sys ct s history) {req : ReqId}
    (old : req < s.nextReq) (counted : (s.reqs req).answerCt = some ct)
    (later : (after.reqs req).processState ≥ .answered) :
    .answered req .ok ∈ history ++ op.outcomes sys self s ∨
      ∃ msg < s.nextMsg, s.reqOf msg = req ∧
        (s.msgs msg).type = .e2eAck ∧ s.replies msg = true := by
  have within := step.opWithin
  have taken : ∀ msg, op.concludes = some msg → s.reqOf msg = req →
      .answered req .ok ∈ history ++ op.outcomes sys self s := by
    rintro msg concludes rfl
    have logged := attested.ops _ step.member op List.mem_cons_self msg
      concludes
    have success := (attested.whole _ _ logged counted).1
    rw [success] at logged
    exact List.mem_append_left _ logged
  by_cases before : (s.reqs req).processState ≥ .answered
  · exact (attested.known req old counted before).imp
      (List.mem_append_left _) id
  rcases step.phase.turns within step.running req with same | turns
  · exact absurd (same ▸ later) before
  · generalize reached : (after.reqs req).processState = state at turns later
    cases turns with
    | received request => exact absurd later (by decide)
    | @acked msg _ type tail =>
        right
        cases replies : s.replies msg with
        | true => exact ⟨msg, within, rfl, type, replies⟩
        | false => exact absurd (step.acked rfl type replies) before
    | @quick msg type fail _ tail =>
        left
        apply List.mem_append_right
        have quick : sys.cfg.quickAcks = true := by
          cases slow : sys.cfg.quickAcks with
          | true => rfl
          | false =>
              cases step.phase with
              | quiet quiet => cases quiet
              | quickAck quick => simp [slow] at quick
              | sendAck _ => simp at tail
        rcases step.opShaped.2.2 with rfl | rfl
        · have fresh : .answered (s.reqOf msg) fail ∈
              (Op.sendAck msg .ptlAck fail).outcomes sys self s := by
            simp [Op.outcomes, quick]
          obtain rfl : fail = .ok := (step.whole _ fresh counted).1
          exact fresh
        · have asked := step.counts.asked
          unfold S4BXI.asked at asked
          simp [step.found, quick, counted] at asked
    | responded => exact .inl (taken _ rfl rfl)
    | answered tail => exact .inl (taken _ rfl rfl)

end Attests

theorem Extends.answerCt (grows : Extends s after) {req : ReqId}
    (old : req < s.nextReq) :
    (after.reqs req).answerCt = (s.reqs req).answerCt := by
  have type := grows.reqType old
  have md := grows.md old
  have getMd : (after.reqs req).getMd = (s.reqs req).getMd :=
    (congrArg BxiRequest.getMd (grows.reqs req old) :)
  unfold BxiRequest.answerCt BxiRequest.answerFlag BxiRequest.replyMd
  rw [type, md, getMd]

theorem Extends.replyMd (grows : Extends s after) {req : ReqId}
    (old : req < s.nextReq) :
    (after.reqs req).replyMd = (s.reqs req).replyMd := by
  have type := grows.reqType old
  have md := grows.md old
  have getMd : (after.reqs req).getMd = (s.reqs req).getMd :=
    (congrArg BxiRequest.getMd (grows.reqs req old) :)
  unfold BxiRequest.replyMd
  rw [type, md, getMd]

theorem Outcome.Whole.mono {req : ReqId} {fail : NiFailType}
    (whole : (Outcome.answered req fail).Whole s ct) (grows : Extends s after)
    (old : req < s.nextReq)
    (kept : fail = .ok → (after.reqs req).mlength = (s.reqs req).mlength) :
    (Outcome.answered req fail).Whole after ct := by
  intro counted
  obtain ⟨success, bytes⟩ := whole ((grows.answerCt old).symm.trans counted)
  refine ⟨success, fun counts => ?_⟩
  rw [kept success, grows.payloadSize old]
  exact bytes (grows.replyMd old ▸ counts)

theorem Attested.run (attested : Attested sys ct s history)
    {index : ThreadId} {op : Op} {rest new : List Op}
    (step : Attests sys ct s index self op rest after new) :
    Attested sys ct { after with
        threads := s.threads.set index ⟨self, new ++ rest⟩ }
      (history ++ op.outcomes sys self s) := by
  have grows := step.phase.extends
  have later : Extends s { after with
    threads := s.threads.set index ⟨self, new ++ rest⟩ } := { grows with }
  have answered_within : ∀ {req : ReqId} {fail : NiFailType},
      .answered req fail ∈ history → req < s.nextReq :=
    fun old => attested.within _ old
  refine ⟨?_, ?_, ?_, ?_, ?_, ?_, ?_, ?_⟩
  · intro outcome member
    have earlier : outcome.Within s := by
      rcases List.mem_append.mp member with old | fresh
      · exact attested.within outcome old
      · exact step.outcome_within fresh
    exact earlier.mono later
  · intro me req mlength member
    rcases List.mem_append.mp member with old | fresh
    · exact Nat.lt_of_lt_of_le (attested.matched me req mlength old)
        (step.progress req)
    · change (after.reqs req).processState > .created
      rw [(step.matched_received fresh).2]
      decide
  · intro req member
    have before : (s.reqs req).processState > .created := by
      rcases List.mem_append.mp member with old | fresh
      · exact attested.granted req old
      · exact step.received (step.answered_granted fresh)
    exact Nat.lt_of_lt_of_le before (step.progress req)
  · intro req fail member
    rcases List.mem_append.mp member with old | fresh
    · refine (attested.whole req fail old).mono later (answered_within old) ?_
      rintro rfl
      exact step.mlength_kept (answered_within old) (attested.granted req old)
    · refine (step.whole _ fresh).mono later (step.outcome_within fresh) ?_
      rintro rfl
      exact step.mlength_kept (step.outcome_within fresh)
        (step.received (step.answered_granted fresh))
  · intro req fail member
    rcases List.mem_append.mp member with old | fresh
    · exact (attested.heard req fail old).run step.wellScoped step.found
        step.phase
    · have same := step.opWithin
      rcases Op.mem_outcomes fresh with
        ⟨msg, pt, list, me, fail', rfl, request, unknown, entry, equal⟩ |
        ⟨msg, rfl, answer, equal⟩ | ⟨msg, fail', rfl, quick, equal⟩
      · cases equal
      · obtain ⟨rfl, rfl⟩ := Outcome.answered.inj equal
        obtain ⟨tail, member, concludes⟩ := step.phase.takes_in answer
        exact .inr (SomePending.added step.found
          (List.mem_append_left _ member)
          ⟨msg, concludes, grows.reqOf same⟩)
      · obtain ⟨rfl, rfl⟩ := Outcome.answered.inj equal
        refine .inl ?_
        cases step.phase with
        | quiet quiet => cases quiet
        | quickAck quick =>
            simp only [State.modReq, State.emit, Function.update_self]
            decide
        | sendAck slow => simp [quick] at slow
  · refine attested.ops.run step.found ?_ ?_
    · intro thread threadMember other pendingOp logged msg concludes
      have small := Op.concludes_within
        (step.wellScoped.ops thread threadMember other pendingOp) concludes
      change Outcome.answered (after.reqOf msg)
        (after.msgs msg).niFailType ∈ _
      rw [grows.reqOf small, grows.niFailType small]
      exact List.mem_append_left _ (logged msg concludes)
    · intro added addedMember msg concludes
      obtain ⟨rfl, answer⟩ :=
        (step.phase.follows added addedMember).concludes concludes
      have small : msg < s.nextMsg := step.opWithin
      change Outcome.answered (after.reqOf msg)
        (after.msgs msg).niFailType ∈ _
      rw [grows.reqOf small, grows.niFailType small]
      apply List.mem_append_right
      rw [Op.outcomes_answer answer]
      exact List.mem_singleton_self _
  · intro req small counted known
    have old : req < s.nextReq := step.phase.nextReq ▸ small
    have before : (s.reqs req).answerCt = some ct :=
      (grows.answerCt old).symm.trans counted
    rcases step.known attested old before known with told | ⟨msg, bound, acked⟩
    · exact .inl told
    · refine .inr ⟨msg, bound.trans_le grows.nextMsg, ?_, ?_, ?_⟩
      · exact (grows.reqOf bound).trans acked.1
      · exact (grows.type bound).trans acked.2.1
      · exact (grows.replies step.wellScoped.tables bound).trans acked.2.2
  · intro quick req putLike member
    have law := granted_run step.wellScoped step.found step.phase req
    rcases List.mem_append.mp member with old | fresh
    · have kind : (s.reqs req).type.putLike = true :=
        (congrArg ReqType.putLike (grows.reqType (answered_within old))).symm.trans
          putLike
      have none := attested.quick quick req kind old
      have bound := step.hands_on (attested.granted req old)
      omega
    · have kind : (s.reqs req).type.putLike = true :=
        (congrArg ReqType.putLike
          (grows.reqType (step.outcome_within fresh))).symm.trans putLike
      obtain ⟨msg, rfl, rfl⟩ := step.quickly quick kind fresh
      have spent := step.phase.quick_grants quick (s.reqOf msg)
      have once := (step.granting (s.reqOf msg)).1
      have grant : (Op.sendAck msg .ptlAck .ok).grant s (s.reqOf msg) = 1 := by
        simp [Op.grant]
      omega

/-- An actor which starts does not change what was matched. -/
theorem Advances.mlength_kept {index : ThreadId} {label : Label}
    (advances : Advances sys s index label after) (wellScoped : WellScoped s)
    (found : s.threads[index]? = some ⟨self, []⟩) {req : ReqId}
    (old : req < s.nextReq) :
    (after.reqs req).mlength = (s.reqs req).mlength := by
  rcases advances.accesses wellScoped.ops with untouched |
    ⟨actor, msg, rest, pt, list, me, busy, _⟩
  · have same := untouched.access req old
    exact congrArg (fun access => access.1) same
  · rw [found] at busy
    cases busy

theorem Attested.start (attested : Attested sys ct s history)
    (wellScoped : WellScoped s) {index : ThreadId} {new : List Op}
    {label : Label} (found : s.threads[index]? = some ⟨self, []⟩)
    (begins : Begins s after new)
    (advances : Advances sys s index label { after with
      threads := s.threads.set index ⟨self, new⟩ }) :
    Attested sys ct { after with
      threads := s.threads.set index ⟨self, new⟩ } history := by
  have grows := begins.grows
  have later : Extends s { after with
    threads := s.threads.set index ⟨self, new⟩ } := { grows with }
  have old : ∀ {req : ReqId} {fail : NiFailType},
      .answered req fail ∈ history → req < s.nextReq :=
    fun member => attested.within _ member
  have same : ∀ {req : ReqId}, req < s.nextReq →
      (after.reqs req).processState = (s.reqs req).processState :=
    fun small => begins.processState _ small
  refine ⟨?_, ?_, ?_, ?_, ?_, ?_, ?_, ?_⟩
  · exact fun outcome member => (attested.within outcome member).mono later
  · intro me req mlength member
    change (after.reqs req).processState > .created
    rw [same (attested.within _ member).2]
    exact attested.matched me req mlength member
  · intro req member
    change (after.reqs req).processState > .created
    rw [same (old member)]
    exact attested.granted req member
  · intro req fail member
    refine (attested.whole req fail member).mono later (old member) ?_
    intro success
    exact advances.mlength_kept wellScoped found (old member)
  · exact fun req fail member =>
      (attested.heard req fail member).start wellScoped (old member) found
        begins
  · refine attested.ops.start ?_ ?_
    · intro thread member other pendingOp logged msg concludes
      have small := Op.concludes_within
        (wellScoped.ops thread member other pendingOp) concludes
      change Outcome.answered (after.reqOf msg)
        (after.msgs msg).niFailType ∈ _
      rw [grows.reqOf small, grows.niFailType small]
      exact logged msg concludes
    · intro added member msg concludes
      have opens := begins.opens added member
      cases added with
      | ptlAckTail tail => cases opens
      | responseRest tail => cases opens
      | _ => cases concludes
  · intro req small counted known
    change (after.reqs req).processState ≥ .answered at known
    by_cases earlier : req < s.nextReq
    · rw [same earlier] at known
      rcases attested.known req earlier
          ((grows.answerCt earlier).symm.trans counted) known with
        told | ⟨msg, bound, acked⟩
      · exact .inl told
      · refine .inr ⟨msg, bound.trans_le grows.nextMsg, ?_, ?_, ?_⟩
        · exact (grows.reqOf bound).trans acked.1
        · exact (grows.type bound).trans acked.2.1
        · exact (grows.replies wellScoped.tables bound).trans acked.2.2
    · rw [(begins.created req small (not_lt.mp earlier)).1] at known
      exact absurd known (by decide)
  · intro quick req putLike member
    rw [granted_start wellScoped found begins]
    apply attested.quick quick req _ member
    exact (congrArg ReqType.putLike (grows.reqType (old member))).symm.trans
      putLike

/-- A history attests the outcomes of its run. -/
theorem ChronicledBy.attested
    (chronicled : ChronicledBy sys (CountsWhole sys ct) s history)
    (running : s.halted = none) : Attested sys ct s history := by
  refine ChronicledBy.always chronicled running ?_ ?_ ?_
  · refine ⟨?_, ?_, ?_, ?_, ?_, ?_, ?_, ?_⟩
    · intro outcome member
      cases member
    · intro me req mlength member
      cases member
    · intro req member
      cases member
    · intro req fail member
      cases member
    · intro req fail member
      cases member
    · intro thread member op pendingOp
      obtain ⟨actor, _, rfl⟩ := List.mem_map.mp member
      cases pendingOp
    · intro req small
      cases small
    · intro quick req putLike member
      cases member
  · intro s mid history label index self new earlier _ attested found begins
      advances
    exact attested.start (ReachedBy.wellScoped earlier) found begins advances
  · intro s after history index self op rest new earlier before attested counts
      found phase running
    exact attested.run ⟨ReachedBy.wellScoped earlier, ReachedBy.shaped earlier,
      ReachedBy.granting (fun _ _ counts => counts.unrepeated) earlier before,
      ReachedBy.confirming earlier before, found, phase, running, counts⟩

end Steps

end S4BXI
