import S4BXI.Acks.Grants
import S4BXI.Lib.History

/-!
# The outcomes of the operations

An operation is matched by an entry of its target and answered by a Portals ACK
or by a response.  The history of a run tells which operations were, and with
which `ni_fail_type`.
-/

namespace S4BXI

open Lib

/-- What happens to an operation of an initiator. -/
inductive Outcome where
  /-- An entry matched the request and accepts `mlength` bytes. -/
  | matched (me : MeId) (req : ReqId) (mlength : Size)
  /-- The answer to the request reached its initiator. -/
  | answered (req : ReqId) (fail : NiFailType)
  deriving DecidableEq

/-- The outcomes which a message or a quick acknowledgement brings about. -/
def Op.outcomes (sys : Sys) (self : Actor) (s : State) : Op → List Outcome
  | .handle msg =>
      let req := s.reqOf msg
      if (s.msgs msg).type.isRequest then
        if (s.reqs req).processState > .created then []
        else match (matchEntry sys s self.nid msg).1 with
          | none => []
          | some (_, _, me) =>
              [.matched me req ((s.mes me).getMlength (s.reqs req))]
      else if (s.msgs msg).type.isAnswer then
        [.answered req (s.msgs msg).niFailType]
      else []
  | .sendAck msg .ptlAck fail =>
      if sys.cfg.quickAcks then [.answered (s.reqOf msg) fail] else []
  | _ => []

/-- The outcomes of a step. -/
def outcomes (sys : Sys) (s : State) : Label → List Outcome
  | .run index =>
      match s.threads[index]? with
      | some ⟨self, op :: _⟩ => op.outcomes sys self s
      | _ => []
  | _ => []

/-- The states reached by the runs whose steps meet `allowed`, with the
outcomes of the operations. -/
def ChronicledBy (sys : Sys) (allowed : State → Label → Prop) (s : State)
    (history : List Outcome) : Prop :=
  Chronicle (step sys) allowed (outcomes sys) (initial sys) s history

/-- An outcome is about objects which exist. -/
def Outcome.Within (s : State) : Outcome → Prop
  | .matched me req _ => me < s.nextMe ∧ req < s.nextReq
  | .answered req _ => req < s.nextReq

/-- What a run computes holds of the state which it reaches and of its
history. -/
theorem chronicledBy_of_executes (sys : Sys) (allowed : State → Label → Prop)
    [∀ s label, Decidable (allowed s label)] (labels : List Label)
    (property : State → List Outcome → Bool)
    (executed : (executes sys (fun s label => decide (allowed s label))
      labels).any (fun s => property s
        (recordLabels (step sys) (outcomes sys) (initial sys) labels)) = true) :
    ∃ s history, ChronicledBy sys allowed s history ∧
      property s history = true := by
  obtain ⟨s, final, holds⟩ := (Option.any_eq_true _ _).mp executed
  exact ⟨s, _, chronicle_of_runLabels (fun _ _ => of_decide_eq_true) final,
    holds⟩

section Steps

variable {sys : Sys} {self : Actor} {s after : State}

theorem ChronicledBy.reached {allowed : State → Label → Prop}
    {history : List Outcome}
    (chronicled : ChronicledBy sys allowed s history) :
    ReachedBy sys allowed s :=
  Chronicle.reached chronicled

theorem outcomes_idle {label : Label} (idle : ∀ index, label ≠ .run index) :
    outcomes sys s label = [] := by
  cases label with
  | run index => exact absurd rfl (idle index)
  | _ => rfl

theorem outcomes_run {index : ThreadId} {op : Op} {rest : List Op}
    (found : s.threads[index]? = some ⟨self, op :: rest⟩) :
    outcomes sys s (.run index) = op.outcomes sys self s := by
  simp [outcomes, found]

/-- The invariant rule for runs with their outcomes which have not stopped. -/
theorem ChronicledBy.always {allowed : State → Label → Prop}
    {Holds : State → List Outcome → Prop} {history : List Outcome}
    (chronicled : ChronicledBy sys allowed s history)
    (running : s.halted = none) (initially : Holds (initial sys) [])
    (start : ∀ {s mid : State} {history : List Outcome} {label : Label}
      {index : ThreadId} {self : Actor} {new : List Op},
      ReachedBy sys allowed s → s.halted = none → Holds s history →
      s.threads[index]? = some ⟨self, []⟩ → Begins s mid new →
      Advances sys s index label { mid with
        threads := s.threads.set index ⟨self, new⟩ } →
      Holds { mid with threads := s.threads.set index ⟨self, new⟩ } history)
    (run : ∀ {s after : State} {history : List Outcome} {index : ThreadId}
      {self : Actor} {op : Op} {rest new : List Op},
      ReachedBy sys allowed s → s.halted = none → Holds s history →
      allowed s (.run index) →
      s.threads[index]? = some ⟨self, op :: rest⟩ →
      Phase sys self s op after new → after.halted = none →
      Holds { after with
        threads := s.threads.set index ⟨self, new ++ rest⟩ }
        (history ++ op.outcomes sys self s)) :
    Holds s history := by
  let Along (state : State) (history : List Outcome) : Prop :=
    state.halted = none → Holds state history
  have along : Along s history := by
    refine Chronicle.invariant (fun _ => initially) ?_ chronicled
    intro before after history label earlier holds permitted stepped running
    have reached : ReachedBy sys allowed before := earlier.reached
    have before_running := (step_enabled stepped).1
    have advances := step_advances stepped
    by_cases idle : ∀ index, label ≠ .run index
    · obtain ⟨self, new, mid, found, begins, rfl⟩ :=
        advances.begins idle running
      rw [outcomes_idle idle, List.append_nil]
      exact start reached before_running (holds before_running) found begins
        advances
    · push Not at idle
      obtain ⟨index, rfl⟩ := idle
      have moves : Moves sys before index (.run index) after := advances.moves
      cases moves with
      | dangling => cases running
      | run found phase =>
          rw [outcomes_run found]
          exact run reached before_running (holds before_running) permitted
            found phase running
      | pick picks idle => exact absurd rfl (idle index)
  exact along running

theorem Outcome.Within.mono {outcome : Outcome} (within : outcome.Within s)
    (grows : Extends s after) : outcome.Within after := by
  cases outcome with
  | matched me req mlength =>
      exact ⟨within.1.trans_le grows.nextMe, within.2.trans_le grows.nextReq⟩
  | answered req fail => exact within.trans_le grows.nextReq

/-! ## Answers which were taken in -/

/-- The answer which a handler is about to take in. -/
def Op.concludes : Op → Option MsgId
  | .ptlAckTail msg | .responseRest msg => some msg
  | _ => none

/-- An actor is about to take in an answer to a request. -/
def Concluding (s : State) (req : ReqId) : Prop :=
  SomePending (fun op => ∃ msg, op.concludes = some msg ∧ s.reqOf msg = req)
    s.threads

/-- An answer to a request was taken in, or is about to be. -/
def Concluded (s : State) (req : ReqId) : Prop :=
  (s.reqs req).processState ≥ .answered ∨ Concluding s req

theorem Op.concludes_within {op : Op} {bounds : Bounds}
    (within : op.Within bounds) {msg : MsgId}
    (concludes : op.concludes = some msg) : msg < bounds.msg := by
  revert concludes within
  cases op <;> intro within concludes <;> cases concludes <;> exact within

/-- What takes in an answer moves its request on. -/
theorem Phase.concludes {op : Op} {new : List Op}
    (phase : Phase sys self s op after new) {msg : MsgId}
    (concludes : op.concludes = some msg) :
    (after.reqs (s.reqOf msg)).processState ≥ .answered := by
  have beyond : ∀ {state : ProcessState}, state > .received →
      state ≥ .answered := fun later => later
  cases phase with
  | quiet quiet =>
      cases quiet with
      | responseKnown known =>
          cases concludes
          exact beyond known
      | ptlAckKnown known =>
          cases concludes
          exact beyond (Nat.lt_of_not_le known)
      | _ => cases concludes
  | responseRest fresh =>
      cases concludes
      simp only [State.modReq, Function.update_self]
      decide
  | ptlAckTail fresh =>
      cases concludes
      simp only [State.modReq, Function.update_self]
      decide
  | _ => cases concludes

theorem Concluded.run {req : ReqId} (concluded : Concluded s req)
    (wellScoped : WellScoped s) {index : ThreadId} {op : Op}
    {rest new : List Op}
    (found : s.threads[index]? = some ⟨self, op :: rest⟩)
    (phase : Phase sys self s op after new) :
    Concluded { after with
      threads := s.threads.set index ⟨self, new ++ rest⟩ } req := by
  have within := wellScoped.ops _ (List.mem_of_getElem? found) op
    List.mem_cons_self
  have grows := phase.extends
  rcases concluded with known | pends
  · exact .inl (ProcessState.le_trans known (phase.progress within req).state)
  · rcases pends.run found new (fun thread member other pendingOp concludes =>
      show ∃ msg, other.concludes = some msg ∧ after.reqOf msg = req by
        obtain ⟨msg, tail, same⟩ := concludes
        have small := Op.concludes_within
          (wellScoped.ops thread member other pendingOp) tail
        exact ⟨msg, tail, (grows.reqOf small).trans same⟩) with
      ⟨msg, tail, rfl⟩ | later
    · exact .inl (phase.concludes tail)
    · exact .inr later

theorem Concluded.start {req : ReqId} (concluded : Concluded s req)
    (wellScoped : WellScoped s) (old : req < s.nextReq) {index : ThreadId}
    {new : List Op} (found : s.threads[index]? = some ⟨self, []⟩)
    (begins : Begins s after new) :
    Concluded { after with
      threads := s.threads.set index ⟨self, new⟩ } req := by
  rcases concluded with known | pends
  · refine .inl ?_
    change (after.reqs req).processState ≥ .answered
    rw [begins.processState req old]
    exact known
  · refine .inr (SomePending.start ?_ found new)
    obtain ⟨thread, member, op, pendingOp, msg, tail, same⟩ := pends
    have small := Op.concludes_within
      (wellScoped.ops thread member op pendingOp) tail
    exact ⟨thread, member, op, pendingOp, msg, tail,
      (begins.grows.reqOf small).trans same⟩

/-- Whether an actor is about to take in an answer to a request. -/
def State.concluding (s : State) (req : ReqId) : Bool :=
  s.threads.any fun thread => thread.ops.any fun op =>
    op.concludes.any fun msg => s.reqOf msg == req

theorem concluding_iff {req : ReqId} :
    s.concluding req = true ↔ Concluding s req := by
  simp [State.concluding, Concluding, SomePending, Option.any_eq_true]

/-- A handler queues the BXI ACK of an answer and goes on without any simulated
time passing: it has taken in the answer when the BXI ACK is handled. -/
def prompt (s : State) : Label → Bool
  | .run index =>
      match s.threads[index]? with
      | some ⟨_, .handle msg :: _⟩ =>
          (s.msgs msg).type ≠ .e2eAck || s.replies msg ||
            !s.concluding (s.reqOf msg)
      | _ => true
  | _ => true

/-- The handlers of answers send BXI ACKs. -/
theorem Follows.sendsBxiAck {op added : Op}
    (follows : Follows sys self s op added) {msg : MsgId} {md : BxiMD}
    (sends : added = .sendBxiAck msg md) :
    op = .handle msg ∧ (s.msgs msg).type = .ptlAck ∨
      op = .responseRest msg := by
  cases follows with
  | @matched other pt list me fail kind type found => cases kind <;> cases sends
  | ackBxiAck type =>
      cases sends
      exact .inl ⟨rfl, type⟩
  | responseBxiAck =>
      cases sends
      exact .inr rfl
  | _ => cases sends

/-- The BXI ACK of an answer is sent by a handler which takes in the answer. -/
structure Confirming (s : State) : Prop where
  acks : ∀ msg < s.nextMsg, (s.msgs msg).type = .e2eAck →
    s.replies msg = false → Concluded s (s.reqOf msg)
  ops : EveryPending (fun _ op => ∀ msg md, op = .sendBxiAck msg md →
    Concluded s (s.reqOf msg)) s.threads

theorem Confirming.run (confirming : Confirming s)
    (wellScoped : WellScoped s) (shaped : Shaped sys s) {index : ThreadId}
    {op : Op} {rest new : List Op}
    (found : s.threads[index]? = some ⟨self, op :: rest⟩)
    (phase : Phase sys self s op after new) :
    Confirming { after with
      threads := s.threads.set index ⟨self, new ++ rest⟩ } := by
  have grows := phase.extends
  have member := List.mem_of_getElem? found
  have within := wellScoped.ops _ member op List.mem_cons_self
  refine ⟨?_, ?_⟩
  · intro msg small type silent
    by_cases old : msg < s.nextMsg
    · have same : after.reqOf msg = s.reqOf msg := grows.reqOf old
      have before := confirming.acks msg old ((grows.type old).symm.trans type)
        ((grows.replies wellScoped.tables old).symm.trans silent)
      have later := before.run wellScoped found phase
      rw [← same] at later
      exact later
    · rcases phase.creates within with equal | ⟨created, creates, next, fixed⟩
      · exact absurd (equal ▸ small) old
      · obtain rfl : msg = s.nextMsg := by
          have bound : msg < s.nextMsg + 1 := next ▸ small
          exact Nat.le_antisymm (Nat.lt_succ_iff.mp bound) (not_lt.mp old)
        have fresh := fresh_of_fixed fixed
        have kind : created.type = .e2eAck := fresh.type.symm.trans type
        cases creates with
        | @ack other kind' fail slow =>
            exfalso
            have request : (s.msgs other).type.isRequest = true := by
              rcases (shaped.ops _ member _ List.mem_cons_self).2.1 with
                put | atomic
              · rw [put]
                rfl
              · rw [atomic]
                rfl
            have answers : (after.msgs s.nextMsg).answersMsg = some other :=
              fresh.answersMsg
            change after.replies s.nextMsg = false at silent
            have type' : (after.msgs s.nextMsg).type = .e2eAck := type
            have older : (after.msgs other).type = (s.msgs other).type :=
              grows.type within
            simp [State.replies, type', answers, older, request] at silent
        | @bxiAck other md =>
            have before := confirming.ops _ member _ List.mem_cons_self
              other md rfl
            have same : after.reqOf s.nextMsg = s.reqOf other := fresh.reqOf
            have later := before.run wellScoped found phase
            rw [← same] at later
            exact later
        | @response other kind' request fail asked responds =>
            have answers := ReqType.isResponse_responseType responds
            change kind' = .e2eAck at kind
            rw [kind] at answers
            cases answers
        | copy =>
            exact absurd kind (shaped.ops _ member _ List.mem_cons_self).2
  · refine confirming.ops.run found ?_ ?_
    · intro thread threadMember other pendingOp concluded msg md equal
      have small : msg < s.nextMsg := by
        have bound := wellScoped.ops thread threadMember other pendingOp
        rw [equal] at bound
        exact bound
      have same : after.reqOf msg = s.reqOf msg := grows.reqOf small
      have later := (concluded msg md equal).run wellScoped found phase
      rw [← same] at later
      exact later
    · rintro added addedMember msg md rfl
      rcases (phase.follows _ addedMember).sendsBxiAck rfl with
        ⟨rfl, type⟩ | rfl
      · suffices tail : .ptlAckTail msg ∈ new ++ rest from
          .inr (SomePending.added found tail ⟨msg, rfl, rfl⟩)
        cases phase with
        | handlePtlAck type => simp
        | quiet quiet => cases quiet <;> simp at addedMember
        | respondUnmatched => simp at addedMember
        | @matched _ pt list me fail kind effects stop type' =>
            rw [type] at type'
            cases kind <;> cases type'
        | handleResponse type' => simp [type] at type'
        | ackWithoutAnswer => simp at addedMember
        | handleBxiAck => simp at addedMember
      · have same : after.reqOf msg = s.reqOf msg := grows.reqOf within
        refine .inl ?_
        change (after.reqs (after.reqOf msg)).processState ≥ .answered
        rw [same]
        exact phase.concludes rfl

theorem Confirming.start (confirming : Confirming s)
    (wellScoped : WellScoped s) {index : ThreadId} {new : List Op}
    (found : s.threads[index]? = some ⟨self, []⟩)
    (begins : Begins s after new) :
    Confirming { after with
      threads := s.threads.set index ⟨self, new⟩ } := by
  have grows := begins.grows
  refine ⟨?_, ?_⟩
  · intro msg small type silent
    by_cases old : msg < s.nextMsg
    · have same : after.reqOf msg = s.reqOf msg := grows.reqOf old
      have before := confirming.acks msg old
        ((grows.type old).symm.trans type)
        ((grows.replies wellScoped.tables old).symm.trans silent)
      have later := before.start wellScoped (wellScoped.tables.parents msg old)
        found begins
      rw [← same] at later
      exact later
    · have request := (begins.requests msg small (not_lt.mp old)).1
      change (after.msgs msg).type = .e2eAck at type
      rw [type] at request
      cases request
  · refine confirming.ops.start ?_ ?_
    · intro thread threadMember other pendingOp concluded msg md equal
      have small : msg < s.nextMsg := by
        have bound := wellScoped.ops thread threadMember other pendingOp
        rw [equal] at bound
        exact bound
      have same : after.reqOf msg = s.reqOf msg := grows.reqOf small
      have later := (concluded msg md equal).start wellScoped
        (wellScoped.tables.parents msg small) found begins
      rw [← same] at later
      exact later
    · rintro added addedMember msg md rfl
      cases begins.opens _ addedMember

theorem ReachedBy.confirming {allowed : State → Label → Prop}
    (reached : ReachedBy sys allowed s) (running : s.halted = none) :
    Confirming s := by
  refine ReachedBy.always reached running ?_ ?_ ?_
  · refine ⟨?_, ?_⟩
    · intro msg small
      cases small
    · intro thread member op pendingOp
      obtain ⟨actor, _, rfl⟩ := List.mem_map.mp member
      cases pendingOp
  · intro s mid label index self new earlier _ confirming _ found begins _ _
      _
    exact confirming.start (ReachedBy.wellScoped earlier) found begins
  · intro s after index self op rest new earlier _ confirming _ found phase
      _
    exact confirming.run (ReachedBy.wellScoped earlier)
      (ReachedBy.shaped earlier) found phase

end Steps

end S4BXI
