import S4BXI.Nic.Runs
import S4BXI.Safety.Effects

/-!
# The acknowledgements sent by a handler

The calls of `send_ack` which the handler of a Put or of an Atomic makes, from
the start of the handler to its return.  The other actors run in between.
-/

namespace S4BXI

open Lib

/-- The type of an acknowledgement and the `ni_fail_type` it carries. -/
abbrev Ack := MsgType × NiFailType

/-- The call of `send_ack` which an operation is. -/
def Op.calls : Op → List Ack
  | .sendAck _ type fail => [(type, fail)]
  | _ => []

/-- A run of the handler which the actor `index` started in the state `start`,
with the number of steps of this actor and its calls of `send_ack`.  Below the
handler, `rest` is pending. -/
inductive Handling (sys : Sys) (index : ThreadId) (self : Actor)
    (rest : List Op) (start : State) : Nat → List Ack → State → Prop where
  | start : Handling sys index self rest start 0 [] start
  | own {steps calls s after op ops}
      (earlier : Handling sys index self rest start steps calls s)
      (working : s.threads[index]? = some ⟨self, op :: ops ++ rest⟩)
      (stepped : step sys s (.run index) = some after) :
      Handling sys index self rest start (steps + 1) (calls ++ op.calls) after
  | other {steps calls s after label}
      (earlier : Handling sys index self rest start steps calls s)
      (elsewhere : label.thread ≠ index)
      (stepped : step sys s label = some after) :
      Handling sys index self rest start steps calls after

/-! ## The rule -/

section Rule

variable (sys : Sys) (self : Actor) (s : State) (msg : MsgId)

/-- Whether the request was matched by an entry with `PTL_ME_ACK_DISABLE`. -/
def ackDisabled : Bool :=
  (matchEntry sys s self.nid msg).1.any fun found =>
    (s.mes found.2.2).hasOption MeOption.ackDisable

/-- The acknowledgement a Put or an Atomic should get. -/
def ackRule : Option MsgType :=
  let r := s.reqs (s.reqOf msg)
  if r.ackReq ≠ .noAckReq ∧ ackDisabled sys self s msg = false then
    some .ptlAck
  else if sys.e2eOff (sys.mdNid r.md) = false then
    some .e2eAck
  else
    none

/-- Exactly the acknowledgement which is due was sent, and a `PTL_ACK` carries
the result of the match. -/
def AsDue (calls : List Ack) : Prop :=
  calls.map Prod.fst = (ackRule sys self s msg).toList ∧
    ∀ fail, (MsgType.ptlAck, fail) ∈ calls →
      fail = (matchEntry sys s self.nid msg).2

/-- The calls of `send_ack` which the handlers of the source make. -/
def handlerAcks : List Ack :=
  match matchEntry sys s self.nid msg with
  | (none, fail) =>
      if (s.msgs msg).type = .ptlPut ∧
          (s.reqs (s.reqOf msg)).ackReq ≠ .noAckReq then
        [(.ptlAck, fail)]
      else
        []
  | (some (_, _, me), fail) =>
      (ackDue sys s (s.reqOf msg) (s.mes me)).toList.map fun type => (type, fail)

end Rule

/-! ## What a handler still has to send -/

/-- The acknowledgements which an operation will send. -/
def Op.acks (sys : Sys) (s : State) : Op → List Ack
  | .sendAck _ type fail => [(type, fail)]
  | .putFinish msg me fail | .atomicFinish msg me fail =>
      (ackDue sys s (s.reqOf msg) (s.mes me)).toList.map fun type => (type, fail)
  | _ => []

def Op.isHandle : Op → Bool
  | .handle _ => true
  | _ => false

/-- An operation which sends no acknowledgement and leaves none to send. -/
def Op.Mute (sys : Sys) (s : State) (op : Op) : Prop :=
  op.isHandle = false ∧ op.acks sys s = []

/-- The operations which may come before an acknowledgement. -/
def Op.brief : Op → Bool
  | .resched | .deferredUnlink _ | .putEvent _ _ _ | .meIncrementCt _ _ _ => true
  | _ => false

/-- The steps which a brief operation takes. -/
def Op.delay : Op → Nat
  | .putEvent _ _ _ | .meIncrementCt _ _ _ => 2
  | _ => 1

/-- The steps up to the call of `send_ack`. -/
def Op.lead : Op → Nat
  | .putFinish _ _ _ => 7
  | .atomicFinish _ _ _ => 3
  | _ => 1

/-- The part of the stack which belongs to a handler that has still to call
`send_ack`, or that has made all its calls. -/
inductive Serving (sys : Sys) (due : List Ack) (s : State) :
    Nat → List Ack → List Op → Prop where
  | waiting {steps before op after} (brief : ∀ op ∈ before, op.brief = true)
      (handled : op.isHandle = false) (asks : op.acks sys s = due)
      (silent : ∀ later ∈ after, later.Mute sys s)
      (bound : steps + opsWeight Op.delay before + op.lead ≤ 10) :
      Serving sys due s steps [] (before ++ op :: after)
  | settled {steps stack} (silent : ∀ op ∈ stack, op.Mute sys s) :
      Serving sys due s steps due stack

section Serving

variable {sys : Sys} {self : Actor} {s after : State}

theorem ackDue_congr (grows : Extends s after) {req : ReqId} {me : MeId}
    (oldReq : req < s.nextReq) (oldMe : me < s.nextMe) :
    ackDue sys after req (after.mes me) = ackDue sys s req (s.mes me) := by
  have ackReq : (after.reqs req).ackReq = (s.reqs req).ackReq :=
    (congrArg BxiRequest.ackReq (grows.reqs req oldReq) :)
  have md : (after.reqs req).md = (s.reqs req).md :=
    (congrArg BxiRequest.md (grows.reqs req oldReq) :)
  have entry : (after.mes me).me = (s.mes me).me :=
    (congrArg BxiME.me (grows.mes me oldMe) :)
  unfold ackDue BxiME.hasOption
  dsimp only
  rw [ackReq, md, entry]

theorem Op.acks_congr (grows : Extends s after) (allocated : Allocated s)
    {op : Op} (within : op.Within s.bounds) :
    op.acks sys after = op.acks sys s := by
  cases op with
  | putFinish msg me fail =>
      simp only [Op.acks, grows.reqOf within.1]
      rw [ackDue_congr grows (allocated.parents msg within.1) within.2]
  | atomicFinish msg me fail =>
      simp only [Op.acks, grows.reqOf within.1]
      rw [ackDue_congr grows (allocated.parents msg within.1) within.2]
  | _ => rfl

theorem Op.Mute.mono (grows : Extends s after) (allocated : Allocated s)
    {op : Op} (within : op.Within s.bounds) (mute : op.Mute sys s) :
    op.Mute sys after :=
  ⟨mute.1, (Op.acks_congr grows allocated within).trans mute.2⟩

theorem Serving.of_threads {due calls : List Ack} {steps : Nat}
    {stack : List Op} (serving : Serving sys due s steps calls stack)
    (threads : List (Thread Actor Op)) :
    Serving sys due { s with threads := threads } steps calls stack := by
  cases serving with
  | waiting brief handled asks silent bound =>
      exact .waiting brief handled asks silent bound
  | settled silent => exact .settled silent

/-- What the other actors do leaves a handler where it is. -/
theorem Serving.mono {due calls : List Ack} {steps : Nat} {stack : List Op}
    (serving : Serving sys due s steps calls stack) (grows : Extends s after)
    (allocated : Allocated s) (within : ∀ op ∈ stack, op.Within s.bounds) :
    Serving sys due after steps calls stack := by
  cases serving with
  | waiting brief handled asks silent bound =>
      refine .waiting brief handled ?_ ?_ bound
      · rw [Op.acks_congr grows allocated (within _ (by simp)), asks]
      · intro later member
        exact (silent later member).mono grows allocated
          (within later (by simp [member]))
  | settled silent =>
      exact .settled fun op member =>
        (silent op member).mono grows allocated (within op member)

/-- A mute operation leaves mute operations. -/
theorem Follows.mute {op added : Op} (follows : Follows sys self s op added)
    (mute : op.Mute sys s) (later : State) : added.Mute sys later := by
  cases follows with
  | unmatchedAck type => cases mute.1
  | matched type found => cases mute.1
  | putAcked due => simp [Op.Mute, Op.acks, due] at mute
  | atomicAcked due => simp [Op.Mute, Op.acks, due] at mute
  | _ => exact ⟨rfl, rfl⟩

theorem Op.mute_of_brief {op : Op} (brief : op.brief = true) (s : State) :
    op.Mute sys s := by
  cases op <;> first | exact ⟨rfl, rfl⟩ | cases brief

/-- A brief operation leaves brief operations which take less time. -/
theorem Phase.brief {op : Op} {new : List Op}
    (phase : Phase sys self s op after new) (brief : op.brief = true) :
    (∀ added ∈ new, added.brief = true) ∧
      opsWeight Op.delay new < op.delay := by
  cases phase with
  | quiet quiet => cases quiet <;> simp_all [Op.brief, Op.delay]
  | putEvent => simp [Op.brief, Op.delay]
  | meIncrementCt => simp [Op.brief, Op.delay]
  | deferredUnlink flagged unlinks => simp [Op.delay]
  | _ => cases brief

theorem issueEvent_delay (eq : Option EqId) (event : Event) (origin : Origin) :
    opsWeight Op.delay (issueEvent eq event origin) ≤ 2 := by
  rcases issueEvent_cases eq event origin with ops | ⟨queue, ops⟩ <;>
    simp [ops, Op.delay]

/-- What a handler does between the counter update and `send_ack`. -/
theorem Leaves.delay {me : MeId} {before following : List Op}
    (leaves : Leaves s me after before following) (kind : EventKind)
    (entry : BxiME) (req : ReqId) :
    (∀ op ∈ before ++ issuePutLike sys s kind entry req ++ following,
        op.brief = true) ∧
      opsWeight Op.delay
        (before ++ issuePutLike sys s kind entry req ++ following) ≤ 5 := by
  have reported : (∀ op ∈ issuePutLike sys s kind entry req,
        op.brief = true) ∧
      opsWeight Op.delay (issuePutLike sys s kind entry req) ≤ 2 := by
    rcases issuePutLike_cases sys s kind entry req with
      ops | ⟨queue, event, type, ops⟩ <;> simp [ops, Op.brief, Op.delay]
  obtain ⟨first, last⟩ := leaves.every
    (P := fun op => op.brief = true) (fun _ _ _ => rfl) rfl
  have short : opsWeight Op.delay before + opsWeight Op.delay following ≤ 3 := by
    cases leaves with
    | kept staying => simp [Op.delay]
    | unlinked eq event leaving unlinks kind =>
        have bound := issueEvent_delay eq event (.entry me)
        simp only [opsWeight_nil]
        omega
  constructor
  · intro op member
    simp only [List.mem_append] at member
    rcases member with (left | middle) | right
    · exact first op left
    · exact reported.1 op middle
    · exact last op right
  · simp only [opsWeight_append]
    have middle := reported.2
    omega

/-- The operation which calls `send_ack`, or leads to the call, has run. -/
theorem Serving.serve {due : List Ack} {steps : Nat} {op : Op}
    {new later : List Op} (phase : Phase sys self s op after new)
    (handled : op.isHandle = false) (asks : op.acks sys s = due)
    (silent : ∀ op ∈ later, op.Mute sys after)
    (bound : steps + op.lead ≤ 10) :
    Serving sys due after (steps + 1) op.calls (new ++ later) := by
  have settled : op.acks sys s = op.calls →
      (∀ added ∈ new, added.Mute sys after) →
      Serving sys due after (steps + 1) op.calls (new ++ later) := by
    intro same mute
    rw [← same, asks]
    refine .settled fun op member => ?_
    rcases List.mem_append.mp member with added | kept
    · exact mute op added
    · exact silent op kept
  have others : op.acks sys s = [] → op.calls = [] →
      Serving sys due after (steps + 1) op.calls (new ++ later) :=
    fun none quiet => settled (none.trans quiet.symm) fun added member =>
      (phase.follows added member).mute ⟨handled, none⟩ after
  have sleeps : ∀ (nid : Nid) (msg : MsgId), ∀ op ∈ pciSleep sys s nid msg,
      op.Mute sys after := fun nid msg => pciSleep_every ⟨rfl, rfl⟩
  cases op with
  | sendAck msg type fail =>
      have acked : ∀ op ∈ issueAck s (s.reqOf msg) fail, op.Mute sys after :=
        issueAck_every (fun _ _ => ⟨rfl, rfl⟩) ⟨rfl, rfl⟩
      refine settled rfl fun added member => ?_
      cases phase with
      | quiet quiet => cases quiet
      | quickAck quick =>
          rcases List.mem_cons.mp member with rfl | rest
          · exact ⟨rfl, rfl⟩
          rcases List.mem_cons.mp rest with rfl | rest
          · exact ⟨rfl, rfl⟩
          · exact acked added rest
      | sendAck slow =>
          rw [List.mem_singleton.mp member]
          exact ⟨rfl, rfl⟩
  | putFinish msg me fail =>
      cases type : ackDue sys s (s.reqOf msg) (s.mes me) with
      | none => exact others (by simp [Op.acks, type]) rfl
      | some ack =>
          cases phase with
          | quiet quiet => cases quiet
          | putFinish leaves =>
              obtain ⟨brief, delay⟩ := leaves.delay .put (s.mes me) (s.reqOf msg)
              rw [type]
              simp only [sendDue, List.append_assoc, List.cons_append,
                List.nil_append] at brief delay ⊢
              rw [← List.append_assoc, ← List.append_assoc]
              refine .waiting (by simpa using brief) rfl ?_ ?_ ?_
              · rw [← asks]
                simp [Op.acks, type]
              · intro op member
                rcases List.mem_append.mp member with sleep | kept
                · exact sleeps _ _ op sleep
                · exact silent op kept
              · simp only [Op.lead, List.append_assoc] at bound ⊢
                omega
  | atomicFinish msg me fail =>
      cases type : ackDue sys s (s.reqOf msg) (s.mes me) with
      | none => exact others (by simp [Op.acks, type]) rfl
      | some ack =>
          cases phase with
          | quiet quiet =>
              cases quiet with
              | atomicFinish =>
                  unfold S4BXI.atomicFinish
                  rw [type]
                  simp only [sendDue, List.append_assoc, List.cons_append,
                    List.nil_append]
                  refine .waiting (pciSleep_every rfl) rfl ?_ ?_ ?_
                  · rw [← asks]
                    simp [Op.acks, type]
                  · intro op member
                    rcases List.mem_cons.mp member with rfl | rest
                    · exact ⟨rfl, rfl⟩
                    rcases List.mem_append.mp rest with sleep | kept
                    · exact sleeps _ _ op sleep
                    · exact silent op kept
                  · rcases pciSleep_cases sys s self.nid msg with ops | ops <;>
                      simp [ops, Op.lead, Op.delay] at bound ⊢ <;> omega
  | handle msg => cases handled
  | _ => exact others rfl rfl

theorem Op.Mute.calls {op : Op} (mute : op.Mute sys s) : op.calls = [] := by
  cases op with
  | sendAck msg type fail => exact absurd mute.2 (List.cons_ne_nil _ _)
  | _ => rfl

/-- A step of the handler. -/
theorem Serving.run {due calls : List Ack} {steps : Nat} {op : Op}
    {stack new : List Op}
    (serving : Serving sys due s steps calls (op :: stack))
    (phase : Phase sys self s op after new) (allocated : Allocated s)
    (within : ∀ op ∈ stack, op.Within s.bounds) :
    Serving sys due after (steps + 1) (calls ++ op.calls) (new ++ stack) := by
  have grows := phase.extends
  generalize equality : op :: stack = ops at serving
  cases serving with
  | @waiting before asking later brief handled asks silent bound =>
      cases before with
      | nil =>
          obtain ⟨rfl, rfl⟩ := List.cons.inj equality
          refine Serving.serve phase handled asks ?_ (by simpa using bound)
          intro other member
          exact (silent other member).mono grows allocated (within other member)
      | cons first before =>
          simp only [List.cons_append] at equality
          obtain ⟨rfl, rfl⟩ := List.cons.inj equality
          have head := brief op (by simp)
          obtain ⟨added, shorter⟩ := phase.brief head
          rw [(@Op.mute_of_brief sys _ head s).calls, List.append_nil, ← List.append_assoc]
          refine .waiting ?_ handled ?_ ?_ ?_
          · intro other member
            rcases List.mem_append.mp member with new | old
            · exact added other new
            · exact brief other (by simp [old])
          · rw [Op.acks_congr grows allocated (within asking (by simp)), asks]
          · intro other member
            exact (silent other member).mono grows allocated
              (within other (by simp [member]))
          · simp only [opsWeight_append, opsWeight_cons] at bound ⊢
            omega
  | settled silent =>
      subst equality
      have first := silent op (by simp)
      rw [first.calls, List.append_nil]
      refine .settled fun other member => ?_
      rcases List.mem_append.mp member with added | old
      · exact (phase.follows other added).mute first after
      · exact (silent other (by simp [old])).mono grows allocated
          (within other old)

/-- The first step of the handler. -/
theorem Serving.handle {msg : MsgId} {new : List Op}
    (phase : Phase sys self s (.handle msg) after new) (allocated : Allocated s)
    (old : msg < s.nextMsg)
    (kind : (s.msgs msg).type = .ptlPut ∨ (s.msgs msg).type = .ptlAtomic)
    (first : (s.reqs (s.reqOf msg)).processState = .created) :
    Serving sys (handlerAcks sys self s msg) after 1 [] new := by
  have fresh : ¬(s.reqs (s.reqOf msg)).processState > .created := by
    rw [first]
    exact Nat.lt_irrefl _
  have grows := phase.extends
  cases phase with
  | quiet quiet =>
      cases quiet with
      | duplicate request known => exact absurd known fresh
      | unmatched type _ absent asked =>
          refine @Serving.waiting sys _ s 1 [] (.sendAck msg .ptlAck _) [] (by simp)
            rfl ?_ (by simp) (by simp [Op.lead])
          simp [handlerAcks, absent, type, asked, Op.acks]
      | unanswered type _ absent =>
          have none : handlerAcks sys self s msg = [] := by
            unfold handlerAcks
            split
            · refine if_neg ?_
              rintro ⟨put, asked⟩
              rcases type with ⟨_, silent⟩ | atomic
              · exact asked silent
              · rw [atomic] at put
                cases put
            · rename_i found
              rw [found] at absent
              cases absent
          rw [none]
          exact .settled (by simp)
      | finished type known => rcases kind with kind | kind <;> simp [kind] at type
  | respondUnmatched type fetches _ absent =>
      rcases fetches with rfl | rfl <;> rcases kind with kind | kind <;>
        simp [kind, ReqType.msgType] at type
  | @matched _ pt list me fail reqKind effects stop type _ found memory later
      stops =>
      obtain ⟨_, oldMe⟩ := allocated.matched (matched_of_matchEntry found)
      have due : ackDue sys ((deposit s msg pt list me fail reqKind).touch
          effects stop) (s.reqOf msg) (State.mes ((deposit s msg pt list me
          fail reqKind).touch effects stop) me) =
          ackDue sys s (s.reqOf msg) (s.mes me) :=
        ackDue_congr grows (allocated.parents msg old) oldMe
      have acks : (finishing msg me fail s.nextMsg reqKind).isHandle = false ∧
          (finishing msg me fail s.nextMsg reqKind).acks sys
            ((deposit s msg pt list me fail reqKind).touch effects stop) =
            handlerAcks sys self s msg ∧
          (finishing msg me fail s.nextMsg reqKind).lead ≤ 7 := by
        have codeAcks : handlerAcks sys self s msg =
            (ackDue sys s (s.reqOf msg) (s.mes me)).toList.map
              fun type => (type, fail) := by
          simp [handlerAcks, found]
        rw [codeAcks, ← due]
        cases reqKind with
        | put =>
            refine ⟨rfl, ?_, Nat.le_refl _⟩
            simp only [finishing, Op.acks, grows.reqOf old]
        | atomic =>
            refine ⟨rfl, ?_, by simp [finishing, Op.lead]⟩
            simp only [finishing, Op.acks, grows.reqOf old]
        | get => rcases kind with kind | kind <;>
            simp [kind, ReqType.msgType] at type
        | fetchAtomic => rcases kind with kind | kind <;>
            simp [kind, ReqType.msgType] at type
      refine .waiting (meCounter_every fun _ _ => rfl) acks.1 acks.2.1
        (by simp) ?_
      have bound := acks.2.2
      rcases meCounter_cases s (s.reqOf msg) (s.mes me) with
        ops | ⟨ct, amount, ops⟩ <;> simp [ops, Op.delay] <;> omega
  | handleResponse type => rcases kind with kind | kind <;> simp [kind] at type
  | handlePtlAck type => rcases kind with kind | kind <;> simp [kind] at type
  | ackWithoutAnswer type _ missing =>
      rcases kind with kind | kind <;> simp [kind] at type
  | handleBxiAck type _ answers =>
      rcases kind with kind | kind <;> simp [kind] at type

theorem Handling.reachable {index : ThreadId} {rest : List Op}
    {start : State} {steps : Nat} {calls : List Ack}
    (handling : Handling sys index self rest start steps calls s)
    (reachable : Reachable sys start) : Reachable sys s := by
  induction handling with
  | start => exact reachable
  | own earlier working stepped induction =>
      exact induction.tail trivial stepped
  | other earlier elsewhere stepped induction =>
      exact induction.tail trivial stepped

/-- The threads which do not run keep their operations. -/
theorem Advances.elsewhere {index other : ThreadId} {label : Label}
    (advances : Advances sys s index label after) (different : other ≠ index) :
    after.threads[other]? = s.threads[other]? := by
  cases advances with
  | dangling dead owner => rfl
  | _ => exact List.getElem?_set_ne (Ne.symm different)

/-- Where a handler is, at any time of its run. -/
theorem Handling.serving {index : ThreadId} {rest : List Op} {start : State}
    {msg : MsgId} {steps : Nat} {calls : List Ack}
    (handling : Handling sys index self rest start steps calls s)
    (reachable : Reachable sys start)
    (found : start.threads[index]? = some ⟨self, .handle msg :: rest⟩)
    (kind : (start.msgs msg).type = .ptlPut ∨
      (start.msgs msg).type = .ptlAtomic)
    (first : (start.reqs (start.reqOf msg)).processState = .created)
    (running : s.halted = none) :
    s = start ∧ steps = 0 ∧ calls = [] ∨
      ∃ stack, s.threads[index]? = some ⟨self, stack ++ rest⟩ ∧
        Serving sys (handlerAcks sys self start msg) s steps calls stack := by
  induction handling with
  | start => exact .inl ⟨rfl, rfl, rfl⟩
  | @own steps calls s after op ops earlier working stepped induction =>
      have wellScoped := ReachedBy.wellScoped (earlier.reachable reachable)
      have advances : Advances sys s index (.run index) after :=
        step_advances stepped
      have before := induction (step_enabled stepped).1
      cases advances with
      | dangling dead owner => cases running
      | @run role op' kept new after found' alive phase =>
          have same := working.symm.trans found'
          simp only [List.cons_append, Option.some.injEq, Thread.mk.injEq,
            List.cons.injEq] at same
          obtain ⟨rfl, rfl, rfl⟩ := same
          have length : index < s.threads.length :=
            (List.getElem?_eq_some_iff.mp found').1
          refine .inr ⟨new ++ ops, ?_, ?_⟩
          · simp [List.getElem?_set_self length]
          · have inside : ∀ other ∈ op :: ops ++ rest,
                other.Within s.bounds :=
              wellScoped.ops _ (List.mem_of_getElem? found')
            rcases before with ⟨rfl, rfl, rfl⟩ | ⟨stack, stacked, serving⟩
            · have equal := found.symm.trans found'
              simp only [Option.some.injEq, Thread.mk.injEq, List.cons.injEq,
                true_and] at equal
              obtain ⟨rfl, tail⟩ := equal
              have none : ops = [] := List.append_left_eq_self.mp tail.symm
              subst none
              rw [List.append_nil]
              exact (Serving.handle phase wellScoped.tables
                (inside (.handle msg) (by simp)) kind first).of_threads _
            · have equal := stacked.symm.trans found'
              simp only [Option.some.injEq, Thread.mk.injEq, true_and] at equal
              have split : stack = op :: ops := List.append_cancel_right equal
              subst split
              refine (serving.run phase wellScoped.tables ?_).of_threads _
              exact fun other member => inside other (by simp [member])
  | @other steps calls s after label earlier elsewhere stepped induction =>
      have wellScoped := ReachedBy.wellScoped (earlier.reachable reachable)
      have advances := step_advances stepped
      have kept := advances.elsewhere (Ne.symm elsewhere)
      rcases induction (step_enabled stepped).1 with
        ⟨rfl, rfl, rfl⟩ | ⟨stack, stacked, serving⟩
      · exact absurd (step_thread stepped found rfl) elsewhere
      · refine .inr ⟨stack, kept.trans stacked, ?_⟩
        refine serving.mono advances.extends wellScoped.tables fun op member => ?_
        exact wellScoped.ops _ (List.mem_of_getElem? stacked) op
          (by simp [member])

/-- The calls of `send_ack` made by a handler which has returned or has made
ten steps. -/
theorem Handling.calls_eq {index : ThreadId} {rest : List Op} {start : State}
    {msg : MsgId} {steps : Nat} {calls : List Ack}
    (handling : Handling sys index self rest start steps calls s)
    (reachable : Reachable sys start)
    (found : start.threads[index]? = some ⟨self, .handle msg :: rest⟩)
    (kind : (start.msgs msg).type = .ptlPut ∨
      (start.msgs msg).type = .ptlAtomic)
    (first : (start.reqs (start.reqOf msg)).processState = .created)
    (running : s.halted = none)
    (done : 10 ≤ steps ∨ s.threads[index]? = some ⟨self, rest⟩) :
    calls = handlerAcks sys self start msg := by
  rcases handling.serving reachable found kind first running with
    ⟨rfl, rfl, rfl⟩ | ⟨stack, stacked, serving⟩
  · rcases done with many | returned
    · exact absurd many (by decide)
    · have equal := found.symm.trans returned
      simp only [Option.some.injEq, Thread.mk.injEq, true_and] at equal
      exact absurd equal (List.cons_ne_self _ _)
  · cases serving with
    | @waiting before op after brief handled asks silent bound =>
        rcases done with many | returned
        · have positive : 0 < op.lead := by cases op <;> simp [Op.lead]
          omega
        · have equal := stacked.symm.trans returned
          simp only [Option.some.injEq, Thread.mk.injEq, true_and] at equal
          have none := List.append_left_eq_self.mp equal
          simp at none
    | settled silent => rfl

/-- The calls which the handlers make are those which are due, except for a
request without a match which is not a Put with an acknowledgement. -/
theorem handlerAcks_asDue_iff {msg : MsgId}
    (kind : (s.msgs msg).type = .ptlPut ∨ (s.msgs msg).type = .ptlAtomic) :
    AsDue sys self s msg (handlerAcks sys self s msg) ↔
      (matchEntry sys s self.nid msg).1 ≠ none ∨
      (s.msgs msg).type = .ptlPut ∧
        (s.reqs (s.reqOf msg)).ackReq ≠ .noAckReq ∨
      (s.reqs (s.reqOf msg)).ackReq = .noAckReq ∧
        sys.e2eOff (sys.mdNid (s.reqs (s.reqOf msg)).md) = true := by
  unfold AsDue handlerAcks ackRule ackDisabled
  rcases result : matchEntry sys s self.nid msg with ⟨found, fail⟩
  cases found with
  | none =>
      by_cases put : (s.msgs msg).type = .ptlPut
      · by_cases asked : (s.reqs (s.reqOf msg)).ackReq = .noAckReq <;>
          cases off : sys.e2eOff (sys.mdNid (s.reqs (s.reqOf msg)).md) <;>
            simp [put, asked, off]
      · have atomic := kind.resolve_left put
        by_cases asked : (s.reqs (s.reqOf msg)).ackReq = .noAckReq <;>
          cases off : sys.e2eOff (sys.mdNid (s.reqs (s.reqOf msg)).md) <;>
            simp [atomic, asked, off]
  | some found =>
      obtain ⟨pt, list, me⟩ := found
      unfold ackDue
      by_cases asked : (s.reqs (s.reqOf msg)).ackReq = .noAckReq <;>
        cases disabled : (s.mes me).hasOption MeOption.ackDisable <;>
        cases off : sys.e2eOff (sys.mdNid (s.reqs (s.reqOf msg)).md) <;>
          simp [asked, disabled, off]

end Serving

/-! ## Executing a handler -/

/-- The next steps of the handler of an actor, without interruption, with its
calls of `send_ack`.  The handler has more than `depth` pending operations. -/
def runHandler (sys : Sys) (index : ThreadId) (depth : Nat) :
    Nat → State → Option (List Ack × State)
  | 0, s => some ([], s)
  | steps + 1, s =>
      match (s.threads[index]? : Option (Thread Actor Op)) with
      | some ⟨_, op :: ops⟩ =>
          if ops.length < depth then
            none
          else
            (step sys s (.run index)).bind fun next =>
              (runHandler sys index depth steps next).map fun last =>
                (op.calls ++ last.1, last.2)
      | _ => none

theorem Handling.trans {sys : Sys} {self : Actor} {start mid s : State}
    {index : ThreadId} {rest : List Op} {first later : Nat}
    {before after : List Ack}
    (earlier : Handling sys index self rest start first before mid)
    (handling : Handling sys index self rest mid later after s) :
    Handling sys index self rest start (first + later) (before ++ after) s := by
  induction handling with
  | start => simpa using earlier
  | own _ working stepped induction =>
      rw [← List.append_assoc, ← Nat.add_assoc]
      exact .own induction working stepped
  | other _ elsewhere stepped induction => exact .other induction elsewhere stepped

/-- What is executed is a run of the handler. -/
theorem Handling.of_runHandler {sys : Sys} {self : Actor} {s last : State}
    {index : ThreadId} {rest stack : List Op} {steps : Nat}
    {calls : List Ack}
    (found : s.threads[index]? = some ⟨self, stack ++ rest⟩)
    (executed : runHandler sys index rest.length steps s = some (calls, last))
    (running : last.halted = none) :
    Handling sys index self rest s steps calls last ∧
      ∃ left, last.threads[index]? = some ⟨self, left ++ rest⟩ := by
  induction steps generalizing s stack calls with
  | zero =>
      simp only [runHandler, Option.some.injEq, Prod.mk.injEq] at executed
      obtain ⟨rfl, rfl⟩ := executed
      exact ⟨.start, stack, found⟩
  | succ steps induction =>
      simp only [runHandler, found] at executed
      cases stack with
      | nil =>
          exfalso
          cases rest with
          | nil => simp at executed
          | cons op ops => simp at executed
      | cons op ops =>
          simp only [List.cons_append, List.length_append, Nat.not_lt.mpr
            (Nat.le_add_left rest.length ops.length), if_false] at executed
          obtain ⟨next, stepped, mapped⟩ := Option.bind_eq_some_iff.mp executed
          obtain ⟨⟨later, final⟩, continued, equality⟩ :=
            Option.map_eq_some_iff.mp mapped
          clear executed mapped
          simp only [Prod.mk.injEq] at equality
          obtain ⟨rfl, rfl⟩ := equality
          have advances : Advances sys s index (.run index) next :=
            step_advances stepped
          cases advances with
          | dangling dead owner =>
              -- a halted simulation makes no step
              cases steps with
              | zero =>
                  simp only [runHandler, Option.some.injEq,
                    Prod.mk.injEq] at continued
                  obtain ⟨_, rfl⟩ := continued
                  cases running
              | succ steps =>
                  simp [runHandler, State.halt, found, step] at continued
          | @run role op' kept new after found' alive phase =>
              have same := found.symm.trans found'
              simp only [List.cons_append, Option.some.injEq, Thread.mk.injEq,
                List.cons.injEq] at same
              obtain ⟨rfl, rfl, rfl⟩ := same
              have length : index < s.threads.length :=
                (List.getElem?_eq_some_iff.mp found').1
              have placed : (s.threads.set index
                  ⟨self, new ++ (ops ++ rest)⟩)[index]? =
                    some ⟨self, new ++ ops ++ rest⟩ := by
                rw [List.getElem?_set_self length, List.append_assoc]
              have tail := @induction _ (new ++ ops) _ placed continued
              have first : Handling sys index self rest s 1 op.calls _ :=
                .own .start found stepped
              have whole := first.trans tail.1
              rw [Nat.add_comm] at whole
              exact ⟨whole, tail.2⟩

/-- The first operation of an actor is the handler of a Put or of an Atomic
which was not received yet; the handler returns after the given number of
steps, having made the given calls. -/
def handlesWith (sys : Sys) (index : ThreadId) (msg : MsgId) (steps : Nat)
    (calls : List Ack) (s : State) : Bool :=
  match (s.threads[index]? : Option (Thread Actor Op)) with
  | some ⟨_, .handle first :: rest⟩ =>
      first == msg &&
        ((s.msgs msg).type = .ptlPut ∨ (s.msgs msg).type = .ptlAtomic) &&
        (s.reqs (s.reqOf msg)).processState = .created &&
        (runHandler sys index rest.length steps s).any fun last =>
          last.1 == calls && last.2.halted.isNone &&
            (last.2.threads[index]?).any fun thread =>
              thread.ops.length = rest.length
  | _ => false

theorem handling_of_handlesWith {sys : Sys} {index : ThreadId} {msg : MsgId}
    {steps : Nat} {calls : List Ack} {s : State}
    (holds : handlesWith sys index msg steps calls s = true) :
    ∃ self rest last,
      s.threads[index]? = some ⟨self, .handle msg :: rest⟩ ∧
      ((s.msgs msg).type = .ptlPut ∨ (s.msgs msg).type = .ptlAtomic) ∧
      (s.reqs (s.reqOf msg)).processState = .created ∧
      Handling sys index self rest s steps calls last ∧
      last.halted = none ∧ last.threads[index]? = some ⟨self, rest⟩ := by
  unfold handlesWith at holds
  split at holds
  · rename_i self first rest found
    simp only [Bool.and_eq_true, decide_eq_true_eq, beq_iff_eq,
      Option.any_eq_true, Option.isNone_iff_eq_none] at holds
    obtain ⟨⟨⟨rfl, kind⟩, first⟩, ⟨made, last⟩, executed, ⟨rfl, running⟩, thread,
      present, length⟩ := holds
    obtain ⟨handling, left, final⟩ := Handling.of_runHandler
      (show s.threads[index]? = some ⟨self, [.handle _] ++ rest⟩ from found)
      executed running
    have equal := final.symm.trans present
    simp only [Option.some.injEq] at equal
    subst equal
    have none : left = [] := by
      apply List.eq_nil_of_length_eq_zero
      simpa using length
    subst none
    exact ⟨self, rest, last, found, kind, first, handling, running, final⟩
  · cases holds

/-- A Put to the second node, up to its reception. -/
def receivedPut (ack : AckReq) : List Label :=
  prologue ++ puts ack 0 :: runs 0 3 ++ .take 1 :: runs 1 10 ++ [.recv 9 0]

end S4BXI
