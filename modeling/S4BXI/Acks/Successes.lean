import S4BXI.Acks.Attested
import S4BXI.Api.Counter

/-!
# Counters and what was moved

The handlers add to the success of a counter, from six places and without a
look at the outcome of the operation.  The value of a counter is compared with
the outcomes which the history of the run tells.
-/

namespace S4BXI

open Lib

/-- The counter after the operations of a history. -/
def expectedCt (s : State) (ct : CtId) (history : List Outcome) : CtEvent where
  success := (∑ outcome ∈ history.toFinset, outcome.successes s ct) % 2 ^ 64
  failure := (∑ outcome ∈ history.toFinset, outcome.failures s ct) % 2 ^ 64

/-- The update of a counter which the log reports. -/
def Obs.ctUpdate (ct : CtId) : Obs → Option CtUpdate
  | .mdCounter _ other amount | .meCounter _ other amount =>
      if other = ct then some (.incrementSuccess amount) else none
  | _ => none

/-- The value of a counter. -/
def State.ctEvent (s : State) (ct : CtId) : CtEvent :=
  (s.log.filterMap (Obs.ctUpdate ct)).foldl CtEvent.updated {}

/-! ## The ledger of a counter -/

/-- What an operation is about to add to a counter. -/
def Op.gain (ct : CtId) : Op → Nat
  | .mdIncrementCt _ other amount | .meIncrementCt _ other amount =>
      if other = ct then amount else 0
  | _ => 0

/-- What was added to a counter. -/
def Obs.gain (ct : CtId) : Obs → Nat
  | .mdCounter _ other amount | .meCounter _ other amount =>
      if other = ct then amount else 0
  | _ => 0

/-- All that was added to a counter, or is about to be. -/
def State.gains (s : State) (ct : CtId) : Nat :=
  (s.log.map (Obs.gain ct)).sum + pending (Op.gain ct) s.threads

/-- What an outcome has added to a counter so far: an answer counts when it is
taken in. -/
def Outcome.booked (s : State) (ct : CtId) : Outcome → Nat
  | .matched me req mlength => (Outcome.matched me req mlength).successes s ct
  | .answered req fail =>
      if (s.reqs req).processState ≥ .answered then
        (Outcome.answered req fail).successes s ct
      else 0

/-- All that was booked for the outcomes of a history. -/
def State.books (s : State) (ct : CtId) (history : List Outcome) : Nat :=
  ∑ outcome ∈ history.toFinset, outcome.booked s ct

/-- An update adds to the success, modulo the size of a `ptl_size_t`. -/
theorem foldl_updated (ct : CtId) (log : List Obs) (success : Nat) :
    (log.filterMap (Obs.ctUpdate ct)).foldl CtEvent.updated
        { success := success % 2 ^ 64 } =
      { success := (success + (log.map (Obs.gain ct)).sum) % 2 ^ 64 } := by
  induction log generalizing success with
  | nil => simp
  | cons obs log induction =>
      have counts : ∀ (other : CtId) (amount : Size),
          obs.ctUpdate ct =
            (if other = ct then some (.incrementSuccess amount) else none) →
          obs.gain ct = (if other = ct then amount else 0) →
          ((obs :: log).filterMap (Obs.ctUpdate ct)).foldl CtEvent.updated
              { success := success % 2 ^ 64 } =
            { success := (success +
              ((obs :: log).map (Obs.gain ct)).sum) % 2 ^ 64 } := by
        intro other amount update credit
        by_cases same : other = ct
        · rw [if_pos same] at update credit
          have added : add64 (success % 2 ^ 64) amount =
              (success + amount) % 2 ^ 64 := by
            unfold add64
            omega
          simp only [List.filterMap_cons, update, List.foldl_cons,
            CtEvent.updated, added, induction, List.map_cons, List.sum_cons,
            credit, Nat.add_assoc]
        · rw [if_neg same] at update credit
          simp only [List.filterMap_cons, update, induction, List.map_cons,
            List.sum_cons, credit, Nat.zero_add]
      cases obs with
      | mdCounter req other amount => exact counts other amount rfl rfl
      | meCounter req other amount => exact counts other amount rfl rfl
      | _ =>
          simp only [List.filterMap_cons, Obs.ctUpdate, induction,
            List.map_cons, List.sum_cons, Obs.gain, Nat.zero_add]

section Steps

variable {sys : Sys} {self : Actor} {s after : State} {ct : CtId}
  {history : List Outcome}

theorem ctEvent_eq (s : State) (ct : CtId) : s.ctEvent ct =
    { success := (s.log.map (Obs.gain ct)).sum % 2 ^ 64 } := by
  have folded := foldl_updated ct s.log 0
  rw [Nat.zero_add, Nat.zero_mod] at folded
  exact folded

/-- What is added to a counter was about to be added. -/
theorem Phase.gained {op : Op} {new : List Op}
    (phase : Phase sys self s op after new) (within : op.Within s.bounds) :
    (after.log.map (Obs.gain ct)).sum =
      (s.log.map (Obs.gain ct)).sum + op.gain ct := by
  obtain ⟨extra, log, emitted⟩ := phase.emits within
  have silent : (∀ req other amount, op ≠ .mdIncrementCt req other amount ∧
      op ≠ .meIncrementCt req other amount) →
      (extra.map (Obs.gain ct)).sum = 0 := by
    intro others
    apply List.sum_eq_zero
    intro amount member
    obtain ⟨obs, logged, rfl⟩ := List.mem_map.mp member
    cases emitted obs logged with
    | mdCounter => exact absurd rfl (others _ _ _).1
    | meCounter => exact absurd rfl (others _ _ _).2
    | _ => rfl
  cases op with
  | mdIncrementCt req other amount =>
      cases phase with
      | quiet quiet => cases quiet
      | mdIncrementCt => simp [State.emit, Obs.gain, Op.gain]
  | meIncrementCt req other amount =>
      cases phase with
      | quiet quiet => cases quiet
      | meIncrementCt => simp [State.emit, Obs.gain, Op.gain]
  | _ =>
      rw [log, List.map_append, List.sum_append, silent (by simp)]
      rfl

theorem gains_run {index : ThreadId} {op : Op} {rest new : List Op}
    (found : s.threads[index]? = some ⟨self, op :: rest⟩)
    (phase : Phase sys self s op after new) (within : op.Within s.bounds) :
    State.gains { after with
        threads := s.threads.set index ⟨self, new ++ rest⟩ } ct =
      s.gains ct + opsWeight (Op.gain ct) new := by
  have weights := pending_run_same found new (Op.gain ct)
  have gained : (after.log.map (Obs.gain ct)).sum =
      (s.log.map (Obs.gain ct)).sum + op.gain ct := phase.gained within
  unfold State.gains
  dsimp only
  omega

theorem gains_start {index : ThreadId} {new : List Op}
    (found : s.threads[index]? = some ⟨self, []⟩)
    (begins : Begins s after new) :
    State.gains { after with threads := s.threads.set index ⟨self, new⟩ } ct =
      s.gains ct := by
  have weights := pending_start_same found new (Op.gain ct)
  have none : opsWeight (Op.gain ct) new = 0 := by
    apply opsWeight_eq_zero
    intro op member
    have opens := begins.opens op member
    cases op with
    | mdIncrementCt => cases opens
    | meIncrementCt => cases opens
    | _ => rfl
  unfold State.gains
  dsimp only
  rw [begins.log]
  omega

theorem mdCounter_gain (s : State) (req : ReqId) (md : BxiMD)
    (flag : Options) :
    opsWeight (Op.gain ct) (mdCounter s req md flag) =
      if md.counts flag = some ct then md.ctAmount (s.reqs req).payloadSize
      else 0 := by
  unfold mdCounter
  cases md.counts flag with
  | none => simp
  | some other => simp [Op.gain]

theorem meCounter_gain (s : State) (req : ReqId) (me : BxiME) :
    opsWeight (Op.gain ct) (meCounter s req me) =
      if me.countsComm = some ct then me.ctAmount (s.reqs req).payloadSize
      else 0 := by
  unfold meCounter
  cases me.countsComm with
  | none => simp
  | some other => simp [Op.gain]

/-- The operations which update counters are left by the handlers and by
`maybe_issue_send`. -/
theorem Follows.gain {op added : Op} (follows : Follows sys self s op added)
    (handles : ∀ msg, op ≠ .handle msg)
    (sends : ∀ req, op ≠ .maybeIssueSend req)
    (acks : ∀ msg type fail, op ≠ .sendAck msg type fail)
    (tails : ∀ msg, op.concludes ≠ some msg) : added.gain ct = 0 := by
  cases follows with
  | sendCounter => exact absurd rfl (sends _)
  | matchCounter => exact absurd rfl (handles _)
  | matched => exact absurd rfl (handles _)
  | quickCounter => exact absurd rfl (acks _ _ _)
  | replyCounter => exact absurd rfl (tails _)
  | ackedCounter => exact absurd rfl (tails _)
  | _ => rfl

/-- Only the handlers of requests count by themselves. -/
theorem Phase.unrequested_gain {msg : MsgId} {new : List Op}
    (phase : Phase sys self s (.handle msg) after new)
    (answer : (s.msgs msg).type.isRequest = false) :
    opsWeight (Op.gain ct) new = 0 := by
  apply opsWeight_eq_zero
  intro added member
  cases phase with
  | quiet quiet =>
      cases quiet with
      | unmatched =>
          obtain rfl := List.mem_singleton.mp member
          rfl
      | _ => cases member
  | @respondUnmatched _ fail kind type =>
      rw [type, ReqType.isRequest_msgType] at answer
      cases answer
  | @matched _ pt list me fail kind effects stop type =>
      rw [type, ReqType.isRequest_msgType] at answer
      cases answer
  | handleResponse type =>
      have release : (releaseAnswered sys self s msg).gain ct = 0 := rfl
      simp only [List.mem_cons, List.not_mem_nil, or_false] at member
      rcases member with rfl | rfl
      · exact release
      · rfl
  | handlePtlAck type =>
      have release : (releaseAnswered sys self s msg).gain ct = 0 := rfl
      simp only [List.mem_cons, List.not_mem_nil, or_false] at member
      rcases member with rfl | rfl | rfl
      · exact release
      · rfl
      · rfl
  | ackWithoutAnswer => cases member
  | handleBxiAck =>
      simp only [List.mem_cons, List.not_mem_nil, or_false] at member
      rcases member with rfl | rfl
      · rfl
      · rfl

theorem toFinset_snoc (history : List Outcome) (outcome : Outcome) :
    (history ++ [outcome]).toFinset = insert outcome history.toFinset := by
  ext other
  simp

/-- One outcome more, or one which is booked at last. -/
theorem sum_gain {old new : Finset Outcome} {before later : Outcome → Nat}
    (outcome : Outcome) (whole : new = insert outcome old)
    (same : ∀ other ∈ old, other ≠ outcome → later other = before other)
    (unbooked : outcome ∈ old → before outcome = 0) :
    ∑ other ∈ new, later other =
      ∑ other ∈ old, before other + later outcome := by
  subst whole
  by_cases member : outcome ∈ old
  · have kept : ∑ other ∈ old.erase outcome, later other =
        ∑ other ∈ old.erase outcome, before other :=
      Finset.sum_congr rfl fun other erased =>
        same other (Finset.mem_of_mem_erase erased) (Finset.ne_of_mem_erase erased)
    rw [Finset.insert_eq_of_mem member, ← Finset.add_sum_erase old later member,
      ← Finset.add_sum_erase old before member, unbooked member, kept]
    omega
  · rw [Finset.sum_insert member]
    have kept : ∑ other ∈ old, later other = ∑ other ∈ old, before other :=
      Finset.sum_congr rfl fun other present =>
        same other present (by rintro rfl; exact member present)
    omega

theorem booked_matched_kept (grows : Extends s after) {me : MeId}
    (old : me < s.nextMe) (req : ReqId) (mlength : Size) :
    (Outcome.matched me req mlength).booked after ct =
      (Outcome.matched me req mlength).booked s ct := by
  have entry : (after.mes me).me = (s.mes me).me :=
    (congrArg BxiME.me (grows.mes me old) :)
  have counted : (after.mes me).countsComm = (s.mes me).countsComm := by
    unfold BxiME.countsComm BxiME.hasOption
    rw [entry]
  have amount : (after.mes me).ctAmount mlength =
      (s.mes me).ctAmount mlength := by
    unfold BxiME.ctAmount BxiME.hasOption
    rw [entry]
  simp only [Outcome.booked, Outcome.successes, counted, amount]

/-- A Put and an Atomic are answered to their own descriptor. -/
theorem putLike_answer {req : BxiRequest} (putLike : req.type.putLike = true) :
    req.replyMd = req.md ∧ req.answerCt = req.md.counts MdOption.eventCtAck := by
  have own : req.replyMd = req.md := by
    apply if_neg
    intro type
    rw [type] at putLike
    cases putLike
  refine ⟨own, ?_⟩
  unfold BxiRequest.answerCt BxiRequest.answerFlag
  rw [own, if_pos putLike]

namespace Attests

variable {index : ThreadId} {op : Op} {rest new : List Op}

/-- An outcome stays booked, or stays unbooked, unless its request is taken
in. -/
theorem booked_kept (step : Attests sys ct s index self op rest after new)
    (attested : Attested sys ct s history) {outcome : Outcome}
    (member : outcome ∈ history)
    (same : ∀ req, outcome = .answered req .ok →
      (s.reqs req).answerCt = some ct →
      ((after.reqs req).processState ≥ .answered ↔
        (s.reqs req).processState ≥ .answered)) :
    outcome.booked after ct = outcome.booked s ct := by
  have grows := step.phase.extends
  have within := attested.within outcome member
  cases outcome with
  | matched me req mlength => exact booked_matched_kept grows within.1 _ _
  | answered req fail =>
      have old : req < s.nextReq := within
      simp only [Outcome.booked, Outcome.successes, grows.answerCt old,
        grows.replyMd old]
      by_cases counted : fail = .ok ∧ (s.reqs req).answerCt = some ct
      · obtain ⟨rfl, counted⟩ := counted
        have kept := step.mlength_kept old (attested.granted req member)
        have states := same req rfl counted
        by_cases taken : (s.reqs req).processState ≥ .answered
        · rw [if_pos taken, if_pos (states.mpr taken), kept]
        · rw [if_neg taken, if_neg fun later => taken (states.mp later)]
      · rw [if_neg counted, if_neg counted]
        simp

/-- Nothing happens to the outcomes, and nothing is counted. -/
theorem books_unmoved (step : Attests sys ct s index self op rest after new)
    (attested : Attested sys ct s history)
    (silent : op.outcomes sys self s = [])
    (idle : opsWeight (Op.gain ct) new = 0)
    (same : ∀ req, .answered req .ok ∈ history →
      (s.reqs req).answerCt = some ct →
      ((after.reqs req).processState ≥ .answered ↔
        (s.reqs req).processState ≥ .answered)) :
    after.books ct (history ++ op.outcomes sys self s) =
      s.books ct history + opsWeight (Op.gain ct) new := by
  rw [silent, List.append_nil, idle, Nat.add_zero]
  apply Finset.sum_congr rfl
  intro outcome present
  have member := List.mem_toFinset.mp present
  apply step.booked_kept attested member
  rintro req rfl counted
  exact same req member counted

/-- A request which an operation does not move on keeps its state. -/
theorem unturned (step : Attests sys ct s index self op rest after new)
    {req : ReqId}
    (still : ∀ state, ¬Turns sys s op new req state) :
    (after.reqs req).processState = (s.reqs req).processState := by
  rcases step.phase.turns step.opWithin step.running req with same | turns
  · exact same
  · exact absurd turns (still _)

/-- What an answer which was taken in adds. -/
theorem taken_booked (step : Attests sys ct s index self op rest after new)
    {req : ReqId} {fail : NiFailType} (old : req < s.nextReq)
    (whole : (Outcome.answered req fail).Whole s ct)
    (taken : (after.reqs req).processState ≥ .answered)
    (kept : (after.reqs req).mlength = (s.reqs req).mlength) :
    (Outcome.answered req fail).booked after ct =
      if (s.reqs req).answerCt = some ct then
        (s.reqs req).replyMd.ctAmount (s.reqs req).payloadSize
      else 0 := by
  have grows := step.phase.extends
  simp only [Outcome.booked, Outcome.successes, if_pos taken,
    grows.answerCt old, grows.replyMd old, kept]
  by_cases counted : (s.reqs req).answerCt = some ct
  · obtain ⟨rfl, bytes⟩ := whole counted
    rw [if_pos ⟨rfl, counted⟩, if_pos counted]
    unfold BxiMD.ctAmount
    split
    · rename_i counts
      exact bytes counts
    · rfl
  · rw [if_neg fun both => counted both.2, if_neg counted]

/-- The handler of a request takes in no answer. -/
theorem request_same (step : Attests sys ct s index self op rest after new)
    {msg : MsgId} (handles : op = .handle msg)
    (request : (s.msgs msg).type.isRequest = true) (req : ReqId) :
    (after.reqs req).processState ≥ .answered ↔
      (s.reqs req).processState ≥ .answered := by
  subst handles
  have progress := step.progress req
  rcases step.phase.turns step.opWithin step.running req with same | turns
  · rw [same]
  · generalize reached : (after.reqs req).processState = state
      at turns progress
    cases turns with
    | received _ =>
        constructor
        · intro later
          exact absurd later (by decide)
        · intro before
          exact ProcessState.le_trans before progress
    | acked type tail =>
        rw [type] at request
        cases request

/-- A request which is matched. -/
theorem books_matched (step : Attests sys ct s index self op rest after new)
    (attested : Attested sys ct s history) {msg : MsgId}
    (handles : op = .handle msg)
    (request : (s.msgs msg).type.isRequest = true)
    (fresh : ¬(s.reqs (s.reqOf msg)).processState > .created) {pt : PtId}
    {list : PtlList} {me : MeId} {fail : NiFailType}
    (found : matchEntry sys s self.nid msg = (some (pt, list, me), fail)) :
    after.books ct (history ++ op.outcomes sys self s) =
      s.books ct history + opsWeight (Op.gain ct) new := by
  subst handles
  have small : me < s.nextMe :=
    (step.wellScoped.tables.matched (matched_of_matchEntry found)).2
  obtain ⟨kind, effects, stop, type, equal, ops⟩ :=
    step.phase.of_found request fresh found
  let outcome : Outcome := .matched me (s.reqOf msg)
    ((s.mes me).getMlength (s.reqs (s.reqOf msg)))
  have logged : (Op.handle msg).outcomes sys self s = [outcome] := by
    simp [Op.outcomes, request, fresh, found, outcome]
  have gain : opsWeight (Op.gain ct) new = outcome.booked after ct := by
    have last : (finishing msg me fail s.nextMsg kind).gain ct = 0 := by
      cases kind <;> rfl
    have whole := step.whole outcome (by simp [logged])
    rw [booked_matched_kept step.phase.extends small, ops, opsWeight_append,
      opsWeight_cons, last, meCounter_gain]
    by_cases counted : (s.mes me).countsComm = some ct
    · have bytes := whole counted
      simp only [Outcome.booked, Outcome.successes, if_pos counted]
      unfold BxiME.ctAmount
      split
      · rename_i counts
        exact (bytes counts).symm
      · rfl
    · simp [Outcome.booked, Outcome.successes, if_neg counted]
  rw [gain]
  apply sum_gain outcome
  · rw [logged, toFinset_snoc]
  · intro other present _
    apply step.booked_kept attested (List.mem_toFinset.mp present)
    intro req _ _
    exact step.request_same rfl request req
  · intro present
    exact absurd (attested.matched _ _ _ (List.mem_toFinset.mp present)) fresh

/-- An answer which was attested and is not taken in is not booked. -/
theorem booked_untaken {req : ReqId} {fail : NiFailType}
    (untaken : ¬(s.reqs req).processState ≥ .answered) :
    (Outcome.answered req fail).booked s ct = 0 := if_neg untaken

theorem booked_failed {req : ReqId} {fail : NiFailType} (failed : fail ≠ .ok) :
    (Outcome.answered req fail).booked s ct = 0 := by
  simp [Outcome.booked, Outcome.successes, failed]

theorem booked_uncounted {req : ReqId} {fail : NiFailType}
    (uncounted : (s.reqs req).answerCt ≠ some ct) :
    (Outcome.answered req fail).booked s ct = 0 := by
  simp [Outcome.booked, Outcome.successes, uncounted]

/-- The handler of an answer counts nothing before it takes in the answer. -/
theorem books_told (step : Attests sys ct s index self op rest after new)
    (attested : Attested sys ct s history) {msg : MsgId}
    (handles : op = .handle msg)
    (answer : (s.msgs msg).type.isAnswer = true) :
    after.books ct (history ++ op.outcomes sys self s) =
      s.books ct history + opsWeight (Op.gain ct) new := by
  subst handles
  have within : msg < s.nextMsg := step.opWithin
  have old : s.reqOf msg < s.nextReq :=
    step.wellScoped.tables.parents msg within
  have logged : (Op.handle msg).outcomes sys self s =
      [.answered (s.reqOf msg) (s.msgs msg).niFailType] :=
    Op.outcomes_answer answer
  have whole := step.whole (.answered (s.reqOf msg) (s.msgs msg).niFailType)
    (by simp [logged])
  have kept : ∀ req, (after.reqs req).processState =
      (s.reqs req).processState := by
    intro req
    apply step.unturned
    intro state turns
    cases turns with
    | received request =>
        revert answer request
        cases (s.msgs msg).type <;> decide
    | acked type _ =>
        rw [type] at answer
        cases answer
  have idle : opsWeight (Op.gain ct) new = 0 := by
    apply step.phase.unrequested_gain
    revert answer
    cases (s.msgs msg).type <;> decide
  have same : ∀ outcome ∈ history.toFinset,
      outcome.booked after ct = outcome.booked s ct := by
    intro outcome present
    apply step.booked_kept attested (List.mem_toFinset.mp present)
    intro req _ _
    rw [kept]
  rw [logged, idle, Nat.add_zero]
  unfold State.books
  rw [toFinset_snoc]
  by_cases again : .answered (s.reqOf msg) (s.msgs msg).niFailType ∈
      history.toFinset
  · rw [Finset.insert_eq_of_mem again]
    exact Finset.sum_congr rfl same
  · rw [Finset.sum_insert again, Finset.sum_congr rfl same, Nat.add_eq_right]
    by_cases taken : (s.reqs (s.reqOf msg)).processState ≥ .answered
    · by_cases counted : (s.reqs (s.reqOf msg)).answerCt = some ct
      · exfalso
        have success := (whole counted).1
        rcases attested.known (s.reqOf msg) old counted taken with
          told | ⟨other, bound, equal, type, replies⟩
        · rw [success] at again
          exact again (List.mem_toFinset.mpr told)
        · exact step.not_acked within bound answer success equal type replies
      · apply booked_uncounted
        rw [step.phase.extends.answerCt old]
        exact counted
    · apply booked_untaken
      rw [kept]
      exact taken

/-- A BXI ACK counts nothing. -/
theorem books_acked (step : Attests sys ct s index self op rest after new)
    (attested : Attested sys ct s history) {msg : MsgId}
    (handles : op = .handle msg) (type : (s.msgs msg).type = .e2eAck) :
    after.books ct (history ++ op.outcomes sys self s) =
      s.books ct history + opsWeight (Op.gain ct) new := by
  subst handles
  have within : msg < s.nextMsg := step.opWithin
  apply step.books_unmoved attested
  · simp [Op.outcomes, type, MsgType.isRequest, MsgType.isAnswer,
      MsgType.isResponse]
  · apply step.phase.unrequested_gain
    rw [type]
    rfl
  · intro req member counted
    rcases step.phase.turns step.opWithin step.running req with same | turns
    · rw [same]
    · have before : (s.reqs req).processState ≥ .answered := by
        generalize (after.reqs req).processState = state at turns
        cases turns with
        | received request =>
            rw [type] at request
            cases request
        | acked _ _ =>
            cases replies : s.replies msg with
            | false => exact step.acked rfl type replies
            | true =>
                rcases attested.heard _ _ member with known | pends
                · exact known
                · obtain ⟨answer, bound, equal, kind, told⟩ :=
                    step.told attested pends
                  have success := (attested.whole _ _ told counted).1
                  exact absurd replies fun replies => step.not_acked bound
                    within kind success equal.symm type replies
      constructor
      · intro _
        exact before
      · intro _
        exact ProcessState.le_trans before (step.progress req)

/-- A request which is not matched counts nothing. -/
theorem books_unmatched (step : Attests sys ct s index self op rest after new)
    (attested : Attested sys ct s history) {msg : MsgId}
    (handles : op = .handle msg)
    (request : (s.msgs msg).type.isRequest = true)
    (missed : (s.reqs (s.reqOf msg)).processState > .created ∨
      (matchEntry sys s self.nid msg).1 = none) :
    after.books ct (history ++ op.outcomes sys self s) =
      s.books ct history + opsWeight (Op.gain ct) new := by
  subst handles
  apply step.books_unmoved attested
  · by_cases known : (s.reqs (s.reqOf msg)).processState > .created
    · simp [Op.outcomes, request, known]
    · have absent := missed.resolve_left known
      simp [Op.outcomes, request, absent]
  · apply opsWeight_eq_zero
    intro added member
    have phase := step.phase
    cases phase with
    | quiet quiet =>
        cases quiet with
        | unmatched =>
            obtain rfl := List.mem_singleton.mp member
            rfl
        | _ => cases member
    | respondUnmatched =>
        obtain rfl := List.mem_singleton.mp member
        rfl
    | matched type fresh found =>
        rcases missed with known | absent
        · exact absurd known fresh
        · rw [found] at absent
          cases absent
    | handleResponse type =>
        rcases type with type | type <;> rw [type] at request <;> cases request
    | handlePtlAck type =>
        rw [type] at request
        cases request
    | ackWithoutAnswer => cases member
    | handleBxiAck type =>
        rw [type] at request
        cases request
  · intro req _ _
    exact step.request_same rfl request req

/-- `send_ack` is about a Put or an Atomic. -/
theorem acks_putLike (step : Attests sys ct s index self op rest after new)
    {msg : MsgId} {type : MsgType} {fail : NiFailType}
    (acks : op = .sendAck msg type fail) :
    (s.reqs (s.reqOf msg)).type.putLike = true := by
  subst acks
  have shape := step.shaped.msgs msg step.opWithin
  rcases step.opShaped.2.1 with kind | kind
  · rw [← shape.putLike (by rw [kind]; rfl), kind]
    rfl
  · rw [← shape.putLike (by rw [kind]; rfl), kind]
    rfl

/-- What `send_ack` counts in the quick mode. -/
theorem quick_gain (step : Attests sys ct s index self op rest after new)
    {msg : MsgId} {type : MsgType} {fail : NiFailType}
    (acks : op = .sendAck msg type fail) (quick : sys.cfg.quickAcks = true) :
    opsWeight (Op.gain ct) new =
        (if (s.reqs (s.reqOf msg)).answerCt = some ct then
          (s.reqs (s.reqOf msg)).replyMd.ctAmount
            (s.reqs (s.reqOf msg)).payloadSize
        else 0) ∧
      (∀ req, req ≠ s.reqOf msg →
        (after.reqs req).processState = (s.reqs req).processState) ∧
      (after.reqs (s.reqOf msg)).processState = .finished ∧
      (after.reqs (s.reqOf msg)).mlength =
        (s.reqs (s.reqOf msg)).mlength := by
  obtain ⟨replyMd, answerCt⟩ :=
    putLike_answer (step.acks_putLike acks)
  subst acks
  have phase := step.phase
  cases phase with
  | quiet quiet => cases quiet
  | quickAck _ =>
      refine ⟨?_, ?_, ?_, ?_⟩
      · rw [replyMd, answerCt]
        unfold issueAck
        rw [opsWeight_cons, opsWeight_cons, opsWeight_append, mdCounter_gain]
        simp [Op.gain]
      · intro req other
        simp [State.modReq, State.emit, other]
      · simp [State.modReq, State.emit]
      · simp [State.modReq, State.emit]
  | sendAck slow => simp [quick] at slow

/-- A quick Portals ACK. -/
theorem books_quick (step : Attests sys ct s index self op rest after new)
    (attested : Attested sys ct s history) {msg : MsgId} {fail : NiFailType}
    (acks : op = .sendAck msg .ptlAck fail)
    (quick : sys.cfg.quickAcks = true) :
    after.books ct (history ++ op.outcomes sys self s) =
      s.books ct history + opsWeight (Op.gain ct) new := by
  obtain ⟨gain, others, finished, kept⟩ := step.quick_gain acks quick
  have putLike := step.acks_putLike acks
  subst acks
  have old : s.reqOf msg < s.nextReq :=
    step.wellScoped.tables.parents msg step.opWithin
  have logged : (Op.sendAck msg .ptlAck fail).outcomes sys self s =
      [.answered (s.reqOf msg) fail] := by
    simp [Op.outcomes, quick]
  have whole := step.whole (.answered (s.reqOf msg) fail) (by simp [logged])
  have booked := step.taken_booked old whole
    (by rw [finished]; decide) kept
  rw [gain, ← booked]
  apply sum_gain (.answered (s.reqOf msg) fail)
  · rw [logged, toFinset_snoc]
  · intro other present different
    apply step.booked_kept attested (List.mem_toFinset.mp present)
    rintro req rfl counted
    by_cases same : req = s.reqOf msg
    · subst same
      obtain rfl := (whole counted).1
      exact absurd rfl different
    · rw [others req same]
  · intro present
    by_cases success : fail = .ok
    · subst success
      exfalso
      have none := attested.quick quick _ putLike (List.mem_toFinset.mp present)
      have grant : (Op.sendAck msg .ptlAck .ok).grant s (s.reqOf msg) = 1 := by
        simp [Op.grant]
      have least := op_grant_le_granted step.member List.mem_cons_self
        (s.reqOf msg)
      omega
    · exact booked_failed success

/-- A quick BXI ACK, which is not counted by the descriptor. -/
theorem books_quickBxi (step : Attests sys ct s index self op rest after new)
    (attested : Attested sys ct s history) {msg : MsgId} {fail : NiFailType}
    (acks : op = .sendAck msg .e2eAck fail)
    (quick : sys.cfg.quickAcks = true) :
    after.books ct (history ++ op.outcomes sys self s) =
      s.books ct history + opsWeight (Op.gain ct) new := by
  obtain ⟨gain, others, _, _⟩ := step.quick_gain acks quick
  subst acks
  have uncounted : (s.reqs (s.reqOf msg)).answerCt ≠ some ct := by
    have asked := step.counts.asked
    unfold S4BXI.asked at asked
    simpa [step.found, quick] using asked
  apply step.books_unmoved attested rfl
  · rw [gain, if_neg uncounted]
  · intro req _ counted
    by_cases same : req = s.reqOf msg
    · subst same
      exact absurd counted uncounted
    · rw [others req same]

/-- An acknowledgement which is sent as a message. -/
theorem books_slow (step : Attests sys ct s index self op rest after new)
    (attested : Attested sys ct s history) {msg : MsgId} {type : MsgType}
    {fail : NiFailType} (acks : op = .sendAck msg type fail)
    (slow : sys.cfg.quickAcks = false) :
    after.books ct (history ++ op.outcomes sys self s) =
      s.books ct history + opsWeight (Op.gain ct) new := by
  subst acks
  have ops : new = [.txPut s.nextMsg] := by
    have phase := step.phase
    cases phase with
    | quiet quiet => cases quiet
    | quickAck quick => simp [slow] at quick
    | sendAck _ => rfl
  apply step.books_unmoved attested
  · cases type with
    | ptlAck => simp [Op.outcomes, slow]
    | _ => rfl
  · rw [ops]
    rfl
  · intro req _ _
    rw [step.unturned]
    intro state turns
    cases turns with
    | quick tail => simp [ops] at tail

/-- An answer which is taken in. -/
theorem books_taken (step : Attests sys ct s index self op rest after new)
    (attested : Attested sys ct s history) {msg : MsgId}
    (concludes : op.concludes = some msg)
    (untaken : ¬(s.reqs (s.reqOf msg)).processState ≥ .answered)
    (gain : opsWeight (Op.gain ct) new =
      if (s.reqs (s.reqOf msg)).answerCt = some ct then
        (s.reqs (s.reqOf msg)).replyMd.ctAmount
          (s.reqs (s.reqOf msg)).payloadSize
      else 0)
    (kept : (after.reqs (s.reqOf msg)).mlength =
      (s.reqs (s.reqOf msg)).mlength) :
    after.books ct (history ++ op.outcomes sys self s) =
      s.books ct history + opsWeight (Op.gain ct) new := by
  let fail := (s.msgs msg).niFailType
  have small := Op.concludes_within step.opWithin concludes
  have old : s.reqOf msg < s.nextReq :=
    step.wellScoped.tables.parents msg small
  have told : .answered (s.reqOf msg) fail ∈ history :=
    attested.ops _ step.member op List.mem_cons_self msg concludes
  have whole := attested.whole _ _ told
  have silent : op.outcomes sys self s = [] := by
    cases op with
    | ptlAckTail | responseRest => rfl
    | _ => cases concludes
  have booked := step.taken_booked old whole
    (step.phase.concludes concludes) kept
  rw [gain, ← booked, silent, List.append_nil]
  apply sum_gain (.answered (s.reqOf msg) fail)
  · rw [Finset.insert_eq_of_mem (List.mem_toFinset.mpr told)]
  · intro other present different
    apply step.booked_kept attested (List.mem_toFinset.mp present)
    rintro req rfl counted
    by_cases same : req = s.reqOf msg
    · subst same
      have success := (whole counted).1
      rw [success] at different
      exact absurd rfl different
    · rw [step.unturned]
      intro state turns
      cases turns with
      | received | acked | quick => cases concludes
      | responded =>
          cases concludes
          exact same rfl
      | answered =>
          cases concludes
          exact same rfl
  · intro _
    exact booked_untaken untaken

/-- What is about to take in an answer. -/
theorem books_concludes
    (step : Attests sys ct s index self op rest after new)
    (attested : Attested sys ct s history) {msg : MsgId}
    (concludes : op.concludes = some msg) :
    after.books ct (history ++ op.outcomes sys self s) =
      s.books ct history + opsWeight (Op.gain ct) new := by
  have silent : op.outcomes sys self s = [] := by
    cases op with
    | ptlAckTail | responseRest => rfl
    | _ => cases concludes
  have shape := step.opShaped
  have within := Op.concludes_within step.opWithin concludes
  have phase := step.phase
  cases phase with
  | quiet quiet =>
      have unmoved : opsWeight (Op.gain ct) new = 0 := by
        cases quiet with
        | responseKnown | ptlAckKnown => rfl
        | _ => cases concludes
      exact step.books_unmoved attested silent unmoved fun _ _ _ => Iff.rfl
  | responseRest fresh =>
      cases concludes
      have responds := ((step.shaped.msgs msg within).of_isResponse shape.2).1
      apply step.books_taken attested rfl
      · exact fresh
      · have flag : (s.reqs (s.reqOf msg)).answerCt =
            (s.reqs (s.reqOf msg)).replyMd.counts MdOption.eventCtReply := by
          have reads : (s.reqs (s.reqOf msg)).type.putLike = false := by
            change (s.reqs (s.reqOf msg)).type.responseType = _ at responds
            revert responds
            cases (s.reqs (s.reqOf msg)).type <;>
              simp [ReqType.putLike, ReqType.responseType]
          unfold BxiRequest.answerCt BxiRequest.answerFlag
          rw [reads]
          rfl
        have sleep : opsWeight (Op.gain ct) (pciSleep sys s self.nid msg) = 0 :=
          opsWeight_eq_zero (pciSleep_every rfl)
        rw [opsWeight_append, opsWeight_append, sleep, opsWeight_cons,
          mdCounter_gain, opsWeight_cons, sleep, flag]
        simp [Op.gain]
      · simp [State.modReq]
  | ptlAckTail fresh =>
      cases concludes
      have putLike := ((step.shaped.msgs msg within).of_ptlAck shape.2).1
      change (s.reqs (s.reqOf msg)).type.putLike = true at putLike
      obtain ⟨replyMd, answerCt⟩ := putLike_answer putLike
      apply step.books_taken attested rfl
      · exact Nat.not_le_of_lt (Nat.lt_succ_of_le fresh)
      · rw [replyMd, answerCt]
        unfold issueAck
        rw [opsWeight_cons, opsWeight_append, mdCounter_gain]
        simp [Op.gain]
      · simp [State.modReq]
  | _ => cases concludes

/-- `maybe_issue_send` counts for descriptors which are none of the counter. -/
theorem books_send (step : Attests sys ct s index self op rest after new)
    (attested : Attested sys ct s history) {req : ReqId}
    (sends : op = .maybeIssueSend req)
    (unsent : (s.reqs req).md.counts MdOption.eventCtSend ≠ some ct) :
    after.books ct (history ++ op.outcomes sys self s) =
      s.books ct history + opsWeight (Op.gain ct) new := by
  subst sends
  apply step.books_unmoved attested rfl
  · have phase := step.phase
    cases phase with
    | quiet quiet =>
        cases quiet with
        | sendIssued => rfl
    | maybeIssueSend =>
        rw [opsWeight_append, mdCounter_gain, if_neg unsent]
        rfl
  · intro other _ _
    rw [step.unturned]
    intro state turns
    cases turns

/-- What an operation counts is booked for an outcome. -/
theorem books_run (step : Attests sys ct s index self op rest after new)
    (attested : Attested sys ct s history)
    (unsent : ∀ req < s.nextReq,
      (s.reqs req).md.counts MdOption.eventCtSend ≠ some ct) :
    after.books ct (history ++ op.outcomes sys self s) =
      s.books ct history + opsWeight (Op.gain ct) new := by
  by_cases handles : ∃ msg, op = .handle msg
  · obtain ⟨msg, rfl⟩ := handles
    by_cases request : (s.msgs msg).type.isRequest = true
    · by_cases known : (s.reqs (s.reqOf msg)).processState > .created
      · exact step.books_unmatched attested rfl request (.inl known)
      · rcases found : matchEntry sys s self.nid msg with ⟨entry, fail⟩
        cases entry with
        | none =>
            exact step.books_unmatched attested rfl request
              (.inr (by rw [found]))
        | some entry =>
            exact step.books_matched attested rfl request known found
    · by_cases answer : (s.msgs msg).type.isAnswer = true
      · exact step.books_told attested rfl answer
      · apply step.books_acked attested rfl
        revert request answer
        cases (s.msgs msg).type <;> decide
  push Not at handles
  by_cases acks : ∃ msg type fail, op = .sendAck msg type fail
  · obtain ⟨msg, type, fail, rfl⟩ := acks
    by_cases quick : sys.cfg.quickAcks = true
    · rcases step.opShaped.2.2 with rfl | rfl
      · exact step.books_quick attested rfl quick
      · exact step.books_quickBxi attested rfl quick
    · exact step.books_slow attested rfl (Bool.eq_false_iff.mpr quick)
  push Not at acks
  by_cases concludes : ∃ msg, op.concludes = some msg
  · obtain ⟨msg, concludes⟩ := concludes
    exact step.books_concludes attested concludes
  push Not at concludes
  by_cases sends : ∃ req, op = .maybeIssueSend req
  · obtain ⟨req, rfl⟩ := sends
    exact step.books_send attested rfl (unsent req step.opWithin)
  push Not at sends
  apply step.books_unmoved attested
  · cases op with
    | handle msg => exact absurd rfl (handles msg)
    | sendAck msg type fail => exact absurd rfl (acks msg type fail)
    | _ => rfl
  · apply opsWeight_eq_zero
    intro added member
    exact (step.phase.follows added member).gain handles sends acks concludes
  · intro req _ _
    rw [step.unturned]
    intro state turns
    cases turns with
    | received | acked => exact absurd rfl (handles _)
    | quick => exact absurd rfl (acks _ _ _)
    | responded => exact absurd rfl (concludes _)
    | answered => exact absurd rfl (concludes _)

end Attests

theorem books_start (attested : Attested sys ct s history)
    (wellScoped : WellScoped s) {index : ThreadId} {new : List Op}
    {label : Label} (found : s.threads[index]? = some ⟨self, []⟩)
    (begins : Begins s after new)
    (advances : Advances sys s index label { after with
      threads := s.threads.set index ⟨self, new⟩ }) :
    State.books { after with threads := s.threads.set index ⟨self, new⟩ } ct
      history = s.books ct history := by
  apply Finset.sum_congr rfl
  intro outcome present
  have member := List.mem_toFinset.mp present
  have within := attested.within outcome member
  have grows := begins.grows
  have later : Extends s { after with
    threads := s.threads.set index ⟨self, new⟩ } := { grows with }
  cases outcome with
  | matched me req mlength => exact booked_matched_kept later within.1 _ _
  | answered req fail =>
      have old : req < s.nextReq := within
      have state := begins.processState req old
      have kept := advances.mlength_kept wellScoped found old
      change (after.reqs req).mlength = _ at kept
      have counted := later.answerCt old
      have replyMd := later.replyMd old
      change (after.reqs req).answerCt = _ at counted
      change (after.reqs req).replyMd = _ at replyMd
      simp only [Outcome.booked, Outcome.successes, state, kept, counted,
        replyMd]

/-- No descriptor counts its sends with a counter. -/
def State.Unsent (s : State) (ct : CtId) : Prop :=
  ∀ req < s.nextReq, (s.reqs req).md.counts MdOption.eventCtSend ≠ some ct

theorem State.Unsent.before (unsent : after.Unsent ct)
    (grows : Extends s after) : s.Unsent ct := by
  intro req old
  rw [← grows.md old]
  exact unsent req (old.trans_le grows.nextReq)

/-- All that was added to a counter is booked for an outcome. -/
theorem ChronicledBy.ledger
    (chronicled : ChronicledBy sys (CountsWhole sys ct) s history)
    (running : s.halted = none) (unsent : s.Unsent ct) :
    s.gains ct = s.books ct history := by
  let Holds (s : State) (history : List Outcome) : Prop :=
    Attested sys ct s history ∧
      (s.Unsent ct → s.gains ct = s.books ct history)
  have holds : Holds s history := by
    refine ChronicledBy.always chronicled running ?_ ?_ ?_
    · refine ⟨ChronicledBy.attested .refl rfl, fun _ => ?_⟩
      have idle : pending (Op.gain ct) (initial sys).threads = 0 := by
        apply pending_eq_zero
        intro thread member op pendingOp
        obtain ⟨actor, _, rfl⟩ := List.mem_map.mp member
        cases pendingOp
      unfold State.gains
      rw [idle]
      rfl
    · intro s mid history label index self new earlier _ holds found begins
        advances
      have wellScoped := ReachedBy.wellScoped earlier
      refine ⟨holds.1.start wellScoped found begins advances, fun unsent => ?_⟩
      have before : s.Unsent ct := State.Unsent.before unsent { begins.grows with }
      rw [gains_start found begins,
        books_start holds.1 wellScoped found begins advances]
      exact holds.2 before
    · intro s after history index self op rest new earlier before holds counts
        found phase running
      have step : Attests sys ct s index self op rest after new :=
        ⟨ReachedBy.wellScoped earlier, ReachedBy.shaped earlier,
          ReachedBy.granting (fun _ _ counts => counts.unrepeated) earlier
            before,
          ReachedBy.confirming earlier before, found, phase, running, counts⟩
      refine ⟨holds.1.run step, fun unsent => ?_⟩
      have earlier : s.Unsent ct :=
        State.Unsent.before unsent { phase.extends with }
      have ledger := holds.2 earlier
      have gains : State.gains { after with
          threads := s.threads.set index ⟨self, new ++ rest⟩ } ct =
        s.gains ct + opsWeight (Op.gain ct) new :=
          gains_run found phase step.opWithin
      have books := step.books_run holds.1 earlier
      change _ = after.books ct _
      omega
  exact holds.2 unsent

/-- Once nothing is in flight, every answer was booked. -/
theorem Attested.books_eq (attested : Attested sys ct s history)
    (quiescent : s.Quiescent) : s.books ct history =
      ∑ outcome ∈ history.toFinset, outcome.successes s ct := by
  apply Finset.sum_congr rfl
  intro outcome present
  cases outcome with
  | matched me req mlength => rfl
  | answered req fail =>
      have taken := (attested.heard req fail
        (List.mem_toFinset.mp present)).resolve_right quiescent.not_pending
      exact if_pos taken

/-- Where the outcomes are counted as they are, none of them is a failure. -/
theorem Attested.failures_eq (attested : Attested sys ct s history) :
    ∑ outcome ∈ history.toFinset, outcome.failures s ct = 0 := by
  apply Finset.sum_eq_zero
  intro outcome present
  cases outcome with
  | matched me req mlength => rfl
  | answered req fail =>
      apply if_neg
      rintro ⟨failed, counted⟩
      exact failed
        (attested.whole req fail (List.mem_toFinset.mp present) counted).1

/-- A counter counts what was moved, as long as no operation it counts fails or
is truncated where it counts bytes, and no quick BXI ACK is counted as a
Portals ACK. -/
theorem ctEvent_counts
    (chronicled : ChronicledBy sys (CountsWhole sys ct) s history)
    (running : s.halted = none) (quiescent : s.Quiescent)
    (unsent : s.Unsent ct) : s.ctEvent ct = expectedCt s ct history := by
  have attested := chronicled.attested running
  have ledger := chronicled.ledger running unsent
  have idle : pending (Op.gain ct) s.threads = 0 :=
    quiescent.pending_eq_zero _
  have added : (s.log.map (Obs.gain ct)).sum =
      ∑ outcome ∈ history.toFinset, outcome.successes s ct := by
    rw [← attested.books_eq quiescent, ← ledger]
    unfold State.gains
    omega
  unfold expectedCt
  rw [ctEvent_eq, added, attested.failures_eq, Nat.zero_mod]

end Steps

/-! ## Runs -/

instance (s : State) (ct : CtId) : Decidable (s.Unsent ct) :=
  inferInstanceAs (Decidable (∀ req < s.nextReq, _ ≠ some ct))

/-- An acknowledged Put between two descriptors which count bytes. -/
def countedPut : List Label :=
  prologue ++ appends
      { start := 1000, length := 100, ctHandle := some 1
        options := MeOption.eventCtComm + MeOption.eventCtBytes }
      .priority :: runs 6 3 ++
    .call 0 (.request
      { md :=
          { ni := 0, start := 500, length := 8, ctHandle := some 0
            options := MdOption.eventCtAck + MdOption.eventCtBytes }
        length := 8
        ackReq := .ctAckReq
        targetNid := 1
        targetPid := 11 }) :: runs 0 3 ++ .take 1 :: runs 1 6 ++
    .recv 9 0 :: runs 9 12 ++ .take 8 :: runs 8 3 ++ .recv 4 0 :: runs 4 9

/-- The acknowledgement of a Put of eight bytes is counted. -/
theorem counted_put_counts :
    ∃ s history, ChronicledBy (twoNodes {} { e2eOff := true })
        (CountsWhole (twoNodes {} { e2eOff := true }) 0) s history ∧
      s.Quiescent ∧ expectedCt s 0 history = { success := 8 } ∧
      s.ctEvent 0 = expectedCt s 0 history := by
  obtain ⟨s, history, chronicled, holds⟩ := chronicledBy_of_executes
    (twoNodes {} { e2eOff := true })
    (CountsWhole (twoNodes {} { e2eOff := true }) 0) countedPut
    (fun s history => s.rests && s.halted.isNone && decide (s.Unsent 0) &&
      decide (expectedCt s 0 history = { success := 8 }))
    (by decide +kernel)
  simp only [Bool.and_eq_true, decide_eq_true_eq, Option.isNone_iff_eq_none]
    at holds
  obtain ⟨⟨⟨rests, running⟩, unsent⟩, expected⟩ := holds
  have quiescent := State.Quiescent.of_rests chronicled.reached.anything rests
  exact ⟨s, history, chronicled, quiescent, expected,
    ctEvent_counts chronicled running quiescent unsent⟩

/-- A Get which no entry of its target matches. -/
def failedGet : List Label :=
  prologue ++ .call 0 (.request
      { type := .get
        md :=
          { ni := 0, start := 500, length := 8, ctHandle := some 0
            options := MdOption.eventCtReply }
        length := 8
        targetNid := 1
        targetPid := 11 }) :: runs 0 3 ++ .take 1 :: runs 1 3 ++
    .recv 9 0 :: runs 9 4 ++ .take 8 :: runs 8 5 ++ .recv 4 0 :: runs 4 8

/-- A Put of eight bytes to an entry of five bytes which counts bytes. -/
def truncatedPut : List Label :=
  prologue ++ appends
      { start := 1000, length := 5, ctHandle := some 0
        options := MeOption.eventCtComm + MeOption.eventCtBytes }
      .priority :: runs 6 3 ++
    puts .noAckReq 0 :: runs 0 3 ++ .take 1 :: runs 1 8 ++
    .recv 9 0 :: runs 9 9

/-- A failed Get is counted as a success, and a truncated Put counts the bytes
which were sent. -/
theorem failures_are_counted :
    (∃ s history, ChronicledBy (twoNodes {} { e2eOff := true })
        (Unrepeated (twoNodes {} { e2eOff := true })) s history ∧
      s.halted = none ∧ s.Quiescent ∧ s.Unsent 0 ∧
      s.ctEvent 0 = { success := 1 } ∧
      expectedCt s 0 history = { failure := 1 }) ∧
    ∃ s history, ChronicledBy (twoNodes {} { e2eOff := true })
        (Unrepeated (twoNodes {} { e2eOff := true })) s history ∧
      s.halted = none ∧ s.Quiescent ∧ s.Unsent 0 ∧
      s.ctEvent 0 = { success := 8 } ∧
      expectedCt s 0 history = { success := 5 } := by
  have counts : ∀ (labels : List Label) (counted expected : CtEvent),
      (executes (twoNodes {} { e2eOff := true }) (fun s label => decide
        (Unrepeated (twoNodes {} { e2eOff := true }) s label)) labels).any
        (fun s => s.rests && s.halted.isNone && decide (s.Unsent 0) &&
          decide (s.ctEvent 0 = counted) &&
          decide (expectedCt s 0 (recordLabels
            (step (twoNodes {} { e2eOff := true }))
            (outcomes (twoNodes {} { e2eOff := true }))
            (initial (twoNodes {} { e2eOff := true })) labels) =
              expected)) = true →
      ∃ s history, ChronicledBy (twoNodes {} { e2eOff := true })
          (Unrepeated (twoNodes {} { e2eOff := true })) s history ∧
        s.halted = none ∧ s.Quiescent ∧ s.Unsent 0 ∧
        s.ctEvent 0 = counted ∧ expectedCt s 0 history = expected := by
    intro labels counted expected executed
    obtain ⟨s, history, chronicled, holds⟩ := chronicledBy_of_executes _ _
      labels (fun s history => s.rests && s.halted.isNone &&
        decide (s.Unsent 0) && decide (s.ctEvent 0 = counted) &&
        decide (expectedCt s 0 history = expected)) executed
    simp only [Bool.and_eq_true, decide_eq_true_eq,
      Option.isNone_iff_eq_none] at holds
    obtain ⟨⟨⟨⟨rests, running⟩, unsent⟩, value⟩, sum⟩ := holds
    exact ⟨s, history, chronicled, running,
      .of_rests chronicled.reached.anything rests, unsent, value, sum⟩
  constructor
  · exact counts failedGet _ _ (by decide +kernel)
  · exact counts truncatedPut _ _ (by decide +kernel)

end S4BXI
