import S4BXI.Acks.Progress

/-!
# The event and the counter of a `SEND`

What `maybe_issue_send` leaves to its actor ends in the log, and the counter of
a descriptor is updated for the `SEND` and the acknowledgements only.
-/

namespace S4BXI

open Lib

section Steps

variable {sys : Sys} {self : Actor} {s after : State}

/-! ## The event -/

/-- The `SEND` event of a request. -/
def BxiRequest.sending (req : BxiRequest) : Event :=
  { type := .send
    niFailType := .ok
    userPtr := some req.userPtr
    mlength := some req.payloadSize }

/-- The event queue which gets the `SEND` event, unless it is disabled. -/
def BxiRequest.sendQueue (req : BxiRequest) : Option EqId :=
  if !req.md.hasOption MdOption.eventSendDisable &&
      !req.md.hasOption MdOption.eventSuccessDisable then
    req.md.eqHandle
  else
    none

theorem sendEvent_eq {req : ReqId} {eq : EqId}
    (queue : (s.reqs req).sendQueue = some eq) :
    sendEvent s req = [.putEvent eq (s.reqs req).sending (.request req)] := by
  unfold BxiRequest.sendQueue at queue
  unfold sendEvent
  dsimp only
  split at queue
  · rename_i enabled
    rw [if_pos enabled, queue]
    rfl
  · cases queue

/-- What is done for the `SEND` of a request was done, or is about to be. -/
structure Reports (r : BxiRequest) (req : ReqId) (log : List Obs)
    (threads : List (Thread Actor Op)) : Prop where
  event : ∀ eq, r.sendQueue = some eq →
    .event eq r.sending (.request req) ∈ log ∨
      SomePending (fun op => op = .sendEvent req ∨
        op = .putEvent eq r.sending (.request req)) threads
  counter : ∀ ct, r.md.counts MdOption.eventCtSend = some ct →
    .mdCounter req ct (r.md.ctAmount r.payloadSize) ∈ log ∨
      SomePending (fun op =>
        op = .mdIncrementCt req ct (r.md.ctAmount r.payloadSize)) threads

theorem Reports.run {req : ReqId}
    (reports : Reports (s.reqs req).fixed req s.log s.threads)
    {index : ThreadId} {op : Op} {rest new : List Op}
    (found : s.threads[index]? = some ⟨self, op :: rest⟩)
    (phase : Phase sys self s op after new) :
    Reports (s.reqs req).fixed req after.log
      (s.threads.set index ⟨self, new ++ rest⟩) := by
  have grows := phase.extends
  refine ⟨?_, ?_⟩
  · intro eq queue
    rcases reports.event eq queue with logged | pends
    · exact .inl (grows.log.mem logged)
    · rcases pends.run found new (fun _ _ _ _ holds => holds) with
        (rfl | rfl) | later
      · refine .inr (SomePending.added found (List.mem_append_left _ ?_)
          (.inr rfl))
        cases phase with
        | quiet quiet =>
            cases quiet with
            | sendEvent =>
                rw [sendEvent_eq queue]
                exact List.mem_singleton_self _
      · cases phase with
        | quiet quiet => cases quiet
        | putEvent =>
            exact .inl (List.mem_append_right _ (List.mem_singleton_self _))
      · exact .inr later
  · intro ct counts
    rcases reports.counter ct counts with logged | pends
    · exact .inl (grows.log.mem logged)
    · rcases pends.run found new (fun _ _ _ _ holds => holds) with rfl | later
      · cases phase with
        | quiet quiet => cases quiet
        | mdIncrementCt =>
            exact .inl (List.mem_append_right _ (List.mem_singleton_self _))
      · exact .inr later

theorem Reports.start {r : BxiRequest} {req : ReqId} {log : List Obs}
    {threads : List (Thread Actor Op)} (reports : Reports r req log threads)
    {index : ThreadId} (found : threads[index]? = some ⟨self, []⟩)
    (new : List Op) :
    Reports r req log (threads.set index ⟨self, new⟩) :=
  ⟨fun eq queue => (reports.event eq queue).imp_right fun pends =>
      pends.start found new,
    fun ct counts => (reports.counter ct counts).imp_right fun pends =>
      pends.start found new⟩

/-- The `SEND` which was issued is reported. -/
theorem ReachedBy.reports {allowed : State → Label → Prop}
    (reached : ReachedBy sys allowed s) (running : s.halted = none) :
    ∀ req < s.nextReq, (s.reqs req).sendEventIssued = true →
      Reports (s.reqs req).fixed req s.log s.threads := by
  let Along (state : State) : Prop := ∀ req < state.nextReq,
    (state.reqs req).sendEventIssued = true →
      Reports (state.reqs req).fixed req state.log state.threads
  suffices along : Along s from along
  refine ReachedBy.always reached running ?_ ?_ ?_
  · intro req small
    cases small
  · intro s mid label index self new _ _ reports _ found begins _ _ _ req small
      issued
    by_cases old : req < s.nextReq
    · have before : (s.reqs req).sendEventIssued = true :=
        (begins.issued req old).symm.trans issued
      have fixed : (mid.reqs req).fixed = (s.reqs req).fixed :=
        begins.grows.reqs req old
      have log : mid.log = s.log := begins.log
      change Reports (mid.reqs req).fixed req mid.log _
      rw [fixed, log]
      exact (reports req old before).start found new
    · have fresh := (begins.created req small (not_lt.mp old)).2
      exact absurd (fresh.symm.trans issued) (by decide)
  · intro s after index self op rest new earlier _ reports _ found phase _ req
      small issued
    have wellScoped := ReachedBy.wellScoped earlier
    have within := wellScoped.ops _ (List.mem_of_getElem? found) op
      List.mem_cons_self
    have old : req < s.nextReq := phase.nextReq ▸ small
    have fixed : (after.reqs req).fixed = (s.reqs req).fixed :=
      phase.extends.reqs req old
    change Reports (after.reqs req).fixed req after.log _
    rw [fixed]
    rcases phase.issues within issued with before | ⟨rfl, ops⟩
    · exact (reports req old before).run found phase
    · subst ops
      refine ⟨?_, ?_⟩
      · intro eq queue
        exact .inr (SomePending.added found (by simp) (.inl rfl))
      · intro ct counts
        have counter : mdCounter s req (s.reqs req).md MdOption.eventCtSend =
            [.mdIncrementCt req ct
              ((s.reqs req).md.ctAmount (s.reqs req).payloadSize)] := by
          have known : (s.reqs req).md.counts MdOption.eventCtSend =
            some ct := counts
          unfold mdCounter
          rw [known]
        refine .inr (SomePending.added found ?_ rfl)
        rw [counter]
        exact List.mem_cons_self

/-! ## Counters -/

/-- Whether an operation updates a counter for a request of its initiator. -/
def Op.counts (req : ReqId) : Op → Nat
  | .mdIncrementCt other _ _ => if other = req then 1 else 0
  | _ => 0

def Obs.counts (req : ReqId) : Obs → Bool
  | .mdCounter other _ _ => other == req
  | _ => false

/-- Whether an operation is the event of an acknowledgement. -/
def Op.acking (req : ReqId) : Op → Nat
  | .ackEvent other _ => if other = req then 1 else 0
  | _ => 0

/-- The number of updates which one of the `PTL_MD_EVENT_CT_*` flags asks
for. -/
def BxiMD.updates (md : BxiMD) (flag : Options) : Nat :=
  if md.counts flag = none then 0 else 1

theorem counts_mdCounter (s : State) (req : ReqId) (flag : Options)
    (other : ReqId) :
    opsWeight (Op.counts req) (mdCounter s other (s.reqs other).md flag) =
      if other = req then (s.reqs req).md.updates flag else 0 := by
  unfold mdCounter BxiMD.updates
  by_cases same : other = req
  · subst same
    cases (s.reqs other).md.counts flag with
    | none => simp
    | some ct => simp [Op.counts]
  · cases (s.reqs other).md.counts flag with
    | none => simp [same]
    | some ct => simp [same, Op.counts]

theorem acking_mdCounter (s : State) (req other : ReqId) (md : BxiMD)
    (flag : Options) :
    opsWeight (Op.acking req) (mdCounter s other md flag) = 0 := by
  rcases mdCounter_cases s other md flag with ops | ⟨ct, amount, ops⟩ <;>
    simp [ops, Op.acking]

theorem Follows.counts {op added : Op} (follows : Follows sys self s op added)
    (sends : ∀ req, op ≠ .maybeIssueSend req)
    (acks : ∀ msg type fail, op ≠ .sendAck msg type fail)
    (tails : ∀ msg, op ≠ .ptlAckTail msg)
    (rests : ∀ msg, op ≠ .responseRest msg) (req : ReqId) :
    added.counts req = 0 ∧ added.acking req = 0 := by
  cases follows with
  | sendCounter => exact absurd rfl (sends _)
  | quickCounter => exact absurd rfl (acks _ _ _)
  | quickAck => exact absurd rfl (acks _ _ _)
  | ackedCounter => exact absurd rfl (tails _)
  | ackedEvent => exact absurd rfl (tails _)
  | replyCounter => exact absurd rfl (rests _)
  | @matched msg pt list me fail kind type found => cases kind <;> exact ⟨rfl, rfl⟩
  | _ => exact ⟨rfl, rfl⟩

/-- The counter of a descriptor is updated for the `SEND` and for every
acknowledgement, as its options say. -/
theorem Phase.counts {op : Op} {new : List Op}
    (phase : Phase sys self s op after new) (within : op.Within s.bounds)
    (shape : ∀ msg < s.nextMsg, Shape sys s msg) (opShaped : op.Shaped s self)
    {req : ReqId} (putLike : (s.reqs req).type.putLike = true) :
    after.log.countP (Obs.counts req) + opsWeight (Op.counts req) new +
        (s.reqs req).sendEventIssued.toNat *
          (s.reqs req).md.updates MdOption.eventCtSend =
      s.log.countP (Obs.counts req) + op.counts req +
        (after.reqs req).sendEventIssued.toNat *
          (s.reqs req).md.updates MdOption.eventCtSend +
        opsWeight (Op.acking req) new *
          (s.reqs req).md.updates MdOption.eventCtAck := by
  obtain ⟨extra, log, emitted⟩ := phase.emits within
  have kept : op ≠ .maybeIssueSend req →
      (after.reqs req).sendEventIssued = (s.reqs req).sendEventIssued := by
    intro other
    rw [Bool.eq_iff_iff]
    constructor
    · intro issued
      rcases phase.issues within issued with before | ⟨same, _⟩
      · exact before
      · exact absurd same other
    · exact (phase.progress within req).send
  have unlogged : (∀ other ct amount, op ≠ .mdIncrementCt other ct amount) →
      after.log.countP (Obs.counts req) = s.log.countP (Obs.counts req) := by
    intro silent
    rw [log, List.countP_append]
    have none : extra.countP (Obs.counts req) = 0 := by
      rw [List.countP_eq_zero]
      intro obs member counts
      cases emitted obs member with
      | mdCounter => exact silent _ _ _ rfl
      | _ => cases counts
    omega
  have others : opsWeight (Op.counts req) new = 0 ∧
        opsWeight (Op.acking req) new = 0 → op.counts req = 0 →
      op ≠ .maybeIssueSend req →
      (∀ other ct amount, op ≠ .mdIncrementCt other ct amount) →
      after.log.countP (Obs.counts req) + opsWeight (Op.counts req) new +
          (s.reqs req).sendEventIssued.toNat *
            (s.reqs req).md.updates MdOption.eventCtSend =
        s.log.countP (Obs.counts req) + op.counts req +
          (after.reqs req).sendEventIssued.toNat *
            (s.reqs req).md.updates MdOption.eventCtSend +
          opsWeight (Op.acking req) new *
            (s.reqs req).md.updates MdOption.eventCtAck := by
    rintro ⟨counts, acking⟩ weight sends increments
    rw [kept sends, unlogged increments, counts, acking, weight, Nat.zero_mul]
    rfl
  have acked : ∀ (other : ReqId) (fail : NiFailType),
      opsWeight (Op.counts req) (issueAck s other fail) =
        opsWeight (Op.acking req) (issueAck s other fail) *
          (s.reqs req).md.updates MdOption.eventCtAck := by
    intro other fail
    unfold issueAck
    simp only [opsWeight_append, opsWeight_cons, opsWeight_nil,
      counts_mdCounter, acking_mdCounter, Op.counts, Op.acking]
    by_cases same : other = req <;> simp [same]
  cases op with
  | mdIncrementCt other ct amount =>
      rw [kept (by simp)]
      cases phase with
      | quiet quiet => cases quiet
      | mdIncrementCt =>
          simp [State.emit, List.countP_append, List.countP_cons, Obs.counts,
            Op.counts, Op.acking]
  | maybeIssueSend other =>
      rw [unlogged (by simp)]
      cases phase with
      | quiet quiet =>
          cases quiet with
          | sendIssued issued => simp [Op.counts]
      | maybeIssueSend pending =>
          simp only [opsWeight_append, opsWeight_cons, opsWeight_nil,
            counts_mdCounter, acking_mdCounter, Op.counts, Op.acking,
            Nat.add_zero, Nat.zero_mul]
          by_cases same : other = req
          · subst same
            simp [State.modReq, pending]
          · simp [State.modReq, same, Ne.symm same]
  | sendAck msg type fail =>
      rw [kept (by simp), unlogged (by simp)]
      cases phase with
      | quiet quiet => cases quiet
      | quickAck quick =>
          simp only [opsWeight_cons, acked]
          simp only [Op.counts, Op.acking, Nat.zero_add]
          omega
      | sendAck slow => simp [Op.counts, Op.acking]
  | ptlAckTail msg =>
      rw [kept (by simp), unlogged (by simp)]
      cases phase with
      | quiet quiet =>
          cases quiet with
          | ptlAckKnown known => simp [Op.counts]
      | ptlAckTail fresh =>
          simp only [opsWeight_cons, acked]
          simp only [Op.counts, Op.acking, Nat.zero_add]
          omega
  | responseRest msg =>
      have parent := (shape msg within).of_isResponse opShaped.2
      have different : s.reqOf msg ≠ req := by
        rintro rfl
        have responds : (s.reqs (s.reqOf msg)).type.responseType =
          some (s.msgs msg).type := parent.1
        revert putLike responds
        cases (s.reqs (s.reqOf msg)).type <;>
          simp [ReqType.putLike, ReqType.responseType]
      refine others ⟨opsWeight_eq_zero fun added member => ?_,
        opsWeight_eq_zero fun added member => ?_⟩ rfl (by simp) (by simp)
      · cases phase.follows added member with
        | replyCounter => exact if_neg different
        | _ => rfl
      · cases phase.follows added member with
        | _ => rfl
  | _ =>
      refine others ⟨opsWeight_eq_zero fun added member => ?_,
        opsWeight_eq_zero fun added member => ?_⟩ rfl (by simp) (by simp)
      · exact ((phase.follows added member).counts (by simp) (by simp)
          (by simp) (by simp) req).1
      · exact ((phase.follows added member).counts (by simp) (by simp)
          (by simp) (by simp) req).2

/-- The counter of a Put or of an Atomic which counts no acknowledgement is
updated once, for the `SEND`. -/
theorem ReachedBy.counted {allowed : State → Label → Prop}
    (reached : ReachedBy sys allowed s) (running : s.halted = none) :
    ∀ req < s.nextReq, (s.reqs req).type.putLike = true →
      (s.reqs req).md.counts MdOption.eventCtAck = none →
      s.log.countP (Obs.counts req) + pending (Op.counts req) s.threads =
        (s.reqs req).sendEventIssued.toNat *
          (s.reqs req).md.updates MdOption.eventCtSend := by
  let Along (state : State) : Prop := ∀ req < state.nextReq,
    (state.reqs req).type.putLike = true →
    (state.reqs req).md.counts MdOption.eventCtAck = none →
    state.log.countP (Obs.counts req) +
        pending (Op.counts req) state.threads =
      (state.reqs req).sendEventIssued.toNat *
        (state.reqs req).md.updates MdOption.eventCtSend
  suffices along : Along s from along
  refine ReachedBy.always reached running ?_ ?_ ?_
  · intro req small
    cases small
  · intro s mid label index self new earlier _ counted _ found begins _ _ _ req
      small putLike silent
    have wellScoped := ReachedBy.wellScoped earlier
    have weights := @pending_set _ _ (Op.counts req) _ _ _ ⟨self, new⟩ found
    have none : opsWeight (Op.counts req) new = 0 := by
      refine opsWeight_eq_zero fun op member => ?_
      have opens := begins.opens op member
      cases op <;> first | rfl | cases opens
    simp only [opsWeight_nil, none] at weights
    change mid.log.countP (Obs.counts req) + pending (Op.counts req)
        (s.threads.set index ⟨self, new⟩) = (mid.reqs req).sendEventIssued.toNat *
          (mid.reqs req).md.updates MdOption.eventCtSend
    rw [begins.log]
    by_cases old : req < s.nextReq
    · have same := counted req old (begins.grows.reqType old ▸ putLike)
        (begins.grows.md old ▸ silent)
      rw [begins.issued req old, begins.grows.md old]
      omega
    · have fresh := (begins.created req small (not_lt.mp old)).2
      have unlogged : s.log.countP (Obs.counts req) = 0 := by
        rw [List.countP_eq_zero]
        intro obs member counts
        have bound := wellScoped.tables.log obs member
        cases obs with
        | mdCounter other ct amount =>
            simp only [Obs.counts, beq_iff_eq] at counts
            exact old (counts ▸ bound)
        | _ => cases counts
      have idle : pending (Op.counts req) s.threads = 0 := by
        refine pending_eq_zero fun thread member op pendingOp => ?_
        have bound := wellScoped.ops thread member op pendingOp
        cases op with
        | mdIncrementCt other ct amount =>
            refine if_neg fun same => old ?_
            exact same ▸ bound
        | _ => rfl
      rw [fresh, unlogged]
      simp only [Bool.toNat_false, Nat.zero_mul]
      omega
  · intro s after index self op rest new earlier _ counted _ found phase _ req
      small putLike silent
    have wellScoped := ReachedBy.wellScoped earlier
    have shaped := ReachedBy.shaped earlier
    have member := List.mem_of_getElem? found
    have grows := phase.extends
    have old : req < s.nextReq := phase.nextReq ▸ small
    have kind : (s.reqs req).type.putLike = true :=
      grows.reqType old ▸ putLike
    have quiet : (s.reqs req).md.counts MdOption.eventCtAck = none :=
      grows.md old ▸ silent
    have weights := @pending_set _ _ (Op.counts req) _ _ _
      ⟨self, new ++ rest⟩ found
    have counts := phase.counts (wellScoped.ops _ member op List.mem_cons_self)
      shaped.msgs (shaped.ops _ member op List.mem_cons_self) kind
    have before := counted req old kind quiet
    have none : (s.reqs req).md.updates MdOption.eventCtAck = 0 := by
      unfold BxiMD.updates
      rw [if_pos quiet]
    rw [none, Nat.mul_zero] at counts
    simp only [opsWeight_cons, opsWeight_append] at weights
    change after.log.countP (Obs.counts req) + pending (Op.counts req)
        (s.threads.set index ⟨self, new ++ rest⟩) =
      (after.reqs req).sendEventIssued.toNat *
        (after.reqs req).md.updates MdOption.eventCtSend
    rw [grows.md old]
    omega

end Steps

end S4BXI
