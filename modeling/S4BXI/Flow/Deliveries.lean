import S4BXI.Flow.Commands

/-!
# Deliveries

A message which was sent is in the RX mailbox of its target, in the hands of
the actor which took it from there, or it has been handled.  The number of
times it was handled is what the log and the mailboxes leave over.
-/

namespace S4BXI

open Lib

/-- The number of times a message is in the mailboxes of a node. -/
def mailed (rx : Nid → Vn → List MsgId) (nid : Nid) (msg : MsgId) : Nat :=
  (rx nid .computeRequest).count msg + (rx nid .computeResponse).count msg +
    (rx nid .serviceRequest).count msg + (rx nid .serviceResponse).count msg

/-- Whether an actor is about to handle a message. -/
def Op.receiving (msg : MsgId) : Op → Nat
  | .handle other => if other = msg then 1 else 0
  | _ => 0

def Obs.sends (msg : MsgId) : Obs → Bool
  | .sent _ _ other => other == msg
  | _ => false

namespace State

/-- The number of times a message was sent. -/
def deliveries (s : State) (msg : MsgId) : Nat :=
  s.log.countP (Obs.sends msg)

/-- The number of times a message waits to be handled. -/
def fielded (s : State) (msg : MsgId) : Nat :=
  mailed s.rx (s.msgs msg).target msg +
    pending (Op.receiving msg) s.threads

/-- The number of times a message was handled. -/
def handled (s : State) (msg : MsgId) : Nat :=
  s.deliveries msg - s.fielded msg

end State

theorem mailed_setQueue (rx : Nid → Vn → List MsgId) (nid : Nid) (vn : Vn)
    (queue : List MsgId) (node : Nid) (msg : MsgId) :
    mailed (setQueue rx nid vn queue) node msg +
        (if node = nid then (rx nid vn).count msg else 0) =
      mailed rx node msg + if node = nid then queue.count msg else 0 := by
  unfold mailed
  simp only [setQueue_apply]
  by_cases here : node = nid
  · subst here
    cases vn <;> simp <;> omega
  · simp [here]

theorem mailed_eq_zero {rx : Nid → Vn → List MsgId} {nid : Nid} {msg : MsgId}
    (absent : ∀ vn, msg ∉ rx nid vn) : mailed rx nid msg = 0 := by
  unfold mailed
  simp [List.count_eq_zero.mpr (absent _)]

section Steps

variable {sys : Sys} {self : Actor} {s after : State}

theorem Follows.receiving {op added : Op}
    (follows : Follows sys self s op added) (msg : MsgId) :
    added.receiving msg = 0 := by
  cases follows with
  | @matched other pt list me fail kind type found => cases kind <;> rfl
  | _ => rfl

theorem Silent.deliveries (silent : Silent s after) (msg : MsgId) :
    after.deliveries msg = s.deliveries msg := by
  obtain ⟨extra, log, quiet⟩ := silent
  unfold State.deliveries
  rw [log, List.countP_append]
  have none : extra.countP (Obs.sends msg) = 0 := by
    rw [List.countP_eq_zero]
    intro obs member sends
    have moves := quiet obs member
    cases obs with
    | sent nid vn other => cases moves
    | _ => cases sends
  omega

/-- How the mailboxes and the log change together. -/
theorem Carries.mailed_sent {op : Op} {new : List Op}
    (carries : Carries sys self s op after new) (running : after.halted = none)
    (wellScoped : WellScoped s) (within : op.Within s.bounds)
    (grows : Extends s after) (msg : MsgId) :
    mailed after.rx (after.msgs msg).target msg + s.deliveries msg =
      mailed s.rx (s.msgs msg).target msg + after.deliveries msg := by
  have absent : s.nextMsg ≤ msg → ∀ nid, mailed s.rx nid msg = 0 := by
    intro fresh nid
    apply mailed_eq_zero
    intro vn member
    exact absurd (wellScoped.tables.rx nid vn msg member) (not_lt.mpr fresh)
  have same : after.rx = s.rx → mailed after.rx (after.msgs msg).target msg =
      mailed s.rx (s.msgs msg).target msg := by
    intro rx
    rw [rx]
    by_cases old : msg < s.nextMsg
    · rw [grows.target old]
    · rw [absent (not_lt.mp old), absent (not_lt.mp old)]
  have plain : after.rx = s.rx → after.deliveries msg = s.deliveries msg →
      mailed after.rx (after.msgs msg).target msg + s.deliveries msg =
        mailed s.rx (s.msgs msg).target msg + after.deliveries msg := by
    intro rx log
    rw [same rx, log]
  have logged : ∀ obs, after.log = s.log ++ [obs] →
      obs.sends msg = false → after.deliveries msg = s.deliveries msg := by
    intro obs log silent
    unfold State.deliveries
    rw [log, List.countP_append]
    simp [silent]
  have unlogged : after.log = s.log →
      after.deliveries msg = s.deliveries msg := by
    intro log
    unfold State.deliveries
    rw [log]
  have rxOf : ∀ {traffic : Traffic}, after.traffic = traffic →
      traffic.rx = s.traffic.rx → after.rx = s.rx := by
    intro traffic equal rx
    have first : after.rx = traffic.rx := congrArg Traffic.rx equal
    exact first.trans rx
  cases carries with
  | still idle nothing traffic silent =>
      exact plain (rxOf traffic rfl) (silent.deliveries msg)
  | submit traffic log => exact plain (rxOf traffic rfl) (logged _ log rfl)
  | retry on traffic log => exact plain (rxOf traffic rfl) (logged _ log rfl)
  | mailbox off traffic log => exact plain (rxOf traffic rfl) (unlogged log)
  | pass passes nothing traffic silent =>
      exact plain (rxOf traffic rfl) (silent.deliveries msg)
  | park subject refused traffic log =>
      exact plain (rxOf traffic rfl) (unlogged log)
  | init before nothing => exact plain rfl rfl
  | @start other _ traffic log =>
      have old : other < s.nextMsg := within
      have rx : after.rx = setQueue s.rx (s.msgs other).target self.vn
          (s.rx (s.msgs other).target self.vn ++ [other]) :=
        congrArg Traffic.rx traffic
      have pushed := mailed_setQueue s.rx (s.msgs other).target self.vn
        (s.rx (s.msgs other).target self.vn ++ [other])
        (after.msgs msg).target msg
      have sent : after.deliveries msg =
          s.deliveries msg + if other = msg then 1 else 0 := by
        unfold State.deliveries
        rw [log, List.countP_append]
        simp [List.countP_cons, Obs.sends]
      rw [rx, sent]
      simp only [List.count_append, List.count_singleton] at pushed
      by_cases equal : other = msg
      · subst equal
        rw [grows.target old] at pushed ⊢
        simp at pushed ⊢
        omega
      · simp only [beq_iff_eq, equal, if_false, Nat.add_zero] at pushed ⊢
        by_cases small : msg < s.nextMsg
        · rw [grows.target small] at pushed ⊢
          omega
        · rw [absent (not_lt.mp small)] at pushed ⊢
          have zero := absent (not_lt.mp small) (s.msgs other).target
          omega
  | push waiting traffic log => exact plain (rxOf traffic rfl) (unlogged log)
  | pop waiting traffic log => exact plain (rxOf traffic rfl) (unlogged log)
  | enqueue traffic log => exact plain (rxOf traffic rfl) (unlogged log)
  | stop halted => exact absurd running halted

/-- An operation handles the message it is about, and no other one. -/
theorem fielded_run {index : ThreadId} {op : Op} {rest new : List Op}
    (wellScoped : WellScoped s)
    (found : s.threads[index]? = some ⟨self, op :: rest⟩)
    (phase : Phase sys self s op after new) (running : after.halted = none)
    (msg : MsgId) :
    State.fielded { after with
          threads := s.threads.set index ⟨self, new ++ rest⟩ } msg +
        op.receiving msg + s.deliveries msg =
      s.fielded msg + after.deliveries msg := by
  have within := wellScoped.ops _ (List.mem_of_getElem? found) op (by simp)
  have mailed := (phase.carries within).mailed_sent running wellScoped within
    phase.extends msg
  have weights := @pending_set _ _ (Op.receiving msg) _ _ _
    ⟨self, new ++ rest⟩ found
  have none : opsWeight (Op.receiving msg) new = 0 :=
    opsWeight_eq_zero fun added member =>
      (phase.follows added member).receiving msg
  simp only [opsWeight_cons, opsWeight_append, none] at weights
  unfold State.fielded
  dsimp only
  omega

/-- An idle actor which starts takes at most one message from a mailbox. -/
theorem fielded_start {index : ThreadId} {label : Label}
    (wellScoped : WellScoped s) (shaped : Shaped sys s)
    (advances : Advances sys s index label after)
    (idle : ∀ index, label ≠ .run index) (running : after.halted = none)
    (msg : MsgId) :
    after.fielded msg = s.fielded msg ∧
      after.deliveries msg = s.deliveries msg := by
  have started : ∀ {self : Actor} {new : List Op},
      s.threads[index]? = some ⟨self, []⟩ →
      pending (Op.receiving msg) (s.threads.set index ⟨self, new⟩) =
        pending (Op.receiving msg) s.threads +
          opsWeight (Op.receiving msg) new := by
    intro self new found
    have weights := @pending_set _ _ (Op.receiving msg) _ _ _ ⟨self, new⟩ found
    simpa using weights
  cases advances with
  | dangling dead owner => cases running
  | run found alive phase => exact absurd rfl (idle index)
  | @recv self position other found target queued =>
      refine ⟨?_, rfl⟩
      have taken := mailed_setQueue s.rx self.nid self.vn
        ((s.rx self.nid self.vn).eraseIdx position) (s.msgs msg).target msg
      have here : (s.msgs other).target = self.nid :=
        shaped.queues.rx self.nid self.vn other (List.mem_of_getElem? queued)
      have erased : ((s.rx self.nid self.vn).eraseIdx position).count msg +
          (if other = msg then 1 else 0) =
            (s.rx self.nid self.vn).count msg := by
        obtain ⟨small, rfl⟩ := List.getElem?_eq_some_iff.mp queued
        have perm := List.getElem_cons_eraseIdx_perm small
        have counts := perm.count_eq msg
        simp only [List.count_cons, beq_iff_eq] at counts
        exact counts
      have pending := @started self [.handle other, .unref other] found
      change mailed (setQueue s.rx self.nid self.vn
          ((s.rx self.nid self.vn).eraseIdx position)) (s.msgs msg).target msg +
        Lib.pending (Op.receiving msg) _ = _
      unfold State.fielded
      rw [pending]
      simp only [opsWeight_cons, opsWeight_nil, Op.receiving]
      by_cases same : other = msg
      · subst same
        simp only [here, if_true] at taken erased ⊢
        omega
      · simp only [same, if_false] at erased ⊢
        split at taken <;> omega
  | @take self other rest found initiator queued =>
      refine ⟨?_, rfl⟩
      have pending := @started self [.processTx other] found
      change mailed s.rx (s.msgs msg).target msg +
        Lib.pending (Op.receiving msg) _ = _
      unfold State.fielded
      rw [pending]
      rfl
  | @wake self other rest found e2e alive queued =>
      refine ⟨?_, rfl⟩
      have pending := @started self [.e2eWake other] found
      change mailed s.rx (s.msgs msg).target msg +
        Lib.pending (Op.receiving msg) _ = _
      unfold State.fielded
      rw [pending]
      rfl
  | @call self call new after found user owned alive phase =>
      obtain ⟨traffic, log, nothing⟩ := phase.carries
      have grows := phase.extends
      have rx : after.rx = s.rx := congrArg Traffic.rx traffic
      have none : opsWeight (Op.receiving msg) new = 0 := by
        apply opsWeight_eq_zero
        cases phase with
        | appendOverflow taken => exact issueLink_every fun _ _ _ => rfl
        | _ => simp [Op.receiving]
      have pending := @started self new found
      have logged : after.deliveries msg = s.deliveries msg := by
        unfold State.deliveries
        rw [log]
      refine ⟨?_, logged⟩
      change mailed after.rx (after.msgs msg).target msg +
        Lib.pending (Op.receiving msg) _ = _
      unfold State.fielded
      rw [pending, none, rx]
      by_cases old : msg < s.nextMsg
      · rw [grows.target old]
        rfl
      · have absent : ∀ nid, mailed s.rx nid msg = 0 := by
          intro nid
          apply mailed_eq_zero
          intro vn member
          exact absurd (wellScoped.tables.rx nid vn msg member) old
        rw [absent, absent]
        rfl

/-- No message waits to be handled more often than it was sent. -/
theorem ReachedBy.fielded_le {allowed : State → Label → Prop}
    (reached : ReachedBy sys allowed s) (running : s.halted = none)
    (msg : MsgId) : s.fielded msg ≤ s.deliveries msg := by
  let Along (state : State) : Prop := state.halted = none →
    state.fielded msg ≤ state.deliveries msg
  have along : Along s := by
    refine reached.invariant_of_reached ?_ ?_
    · intro _
      have none : pending (Op.receiving msg) (initial sys).threads = 0 := by
        apply pending_eq_zero
        intro thread member op pendingOp
        obtain ⟨actor, _, rfl⟩ := List.mem_map.mp member
        cases pendingOp
      unfold State.fielded
      rw [none]
      simp [mailed, initial]
    · intro before after label earlier bound _ stepped running
      have bound := bound (step_enabled stepped).1
      have wellScoped := ReachedBy.wellScoped earlier
      have advances := step_advances stepped
      by_cases idle : ∀ index, label ≠ .run index
      · have same := fielded_start wellScoped (ReachedBy.shaped earlier)
          advances idle running msg
        omega
      · push Not at idle
        obtain ⟨index, rfl⟩ := idle
        have moves : Moves sys before index (.run index) after := advances.moves
        cases moves with
        | dangling => cases running
        | @run self op rest new after found phase =>
            have same := fielded_run wellScoped found phase running msg
            have log : State.deliveries { after with
              threads := before.threads.set index ⟨self, new ++ rest⟩ } msg =
                after.deliveries msg := rfl
            omega
        | pick picks idle => exact absurd rfl (idle index)
  exact along running

/-- An operation handles the message it is about. -/
theorem handled_run {allowed : State → Label → Prop}
    (reached : ReachedBy sys allowed s) {index : ThreadId} {op : Op}
    {rest new : List Op}
    (found : s.threads[index]? = some ⟨self, op :: rest⟩)
    (phase : Phase sys self s op after new) (before : s.halted = none)
    (running : after.halted = none) (msg : MsgId) :
    State.handled { after with
        threads := s.threads.set index ⟨self, new ++ rest⟩ } msg =
      s.handled msg + op.receiving msg := by
  have bound := ReachedBy.fielded_le reached before msg
  have same := fielded_run (ReachedBy.wellScoped reached) found phase running
    msg
  have log : State.deliveries { after with
      threads := s.threads.set index ⟨self, new ++ rest⟩ } msg =
    after.deliveries msg := rfl
  have waits : op.receiving msg ≤ s.fielded msg := by
    have least : op.receiving msg ≤ pending (Op.receiving msg) s.threads :=
      weight_le_pending (List.mem_of_getElem? found) List.mem_cons_self
    exact least.trans (Nat.le_add_left _ _)
  have grows : s.deliveries msg ≤ after.deliveries msg :=
    phase.extends.log.sublist.countP_le
  unfold State.handled
  omega

/-- No message is handled when an idle actor starts. -/
theorem handled_start {index : ThreadId} {label : Label}
    (wellScoped : WellScoped s) (shaped : Shaped sys s)
    (advances : Advances sys s index label after)
    (idle : ∀ index, label ≠ .run index) (running : after.halted = none)
    (msg : MsgId) : after.handled msg = s.handled msg := by
  obtain ⟨fielded, deliveries⟩ :=
    fielded_start wellScoped shaped advances idle running msg
  unfold State.handled
  rw [fielded, deliveries]

end Steps

/-! ## Quiescent states -/

/-- No message is in a queue or a mailbox and no actor has anything left to
do. -/
structure State.Quiescent (s : State) : Prop where
  idle : ∀ thread ∈ s.threads, thread.ops = []
  tx : ∀ nid vn, s.traffic.tx nid vn = []
  waiting : ∀ nid vn, s.traffic.waiting nid vn = []
  rx : ∀ nid vn, s.rx nid vn = []
  e2e : ∀ nid, s.traffic.e2e nid = []

namespace State.Quiescent

variable {s : State}

theorem not_pending (quiescent : s.Quiescent) {property : Op → Prop} :
    ¬SomePending property s.threads := by
  rintro ⟨thread, member, op, pendingOp, _⟩
  rw [quiescent.idle thread member] at pendingOp
  cases pendingOp

theorem pending_eq_zero (quiescent : s.Quiescent) (weight : Op → Nat) :
    pending weight s.threads = 0 := by
  apply Lib.pending_eq_zero
  intro thread member op pendingOp
  rw [quiescent.idle thread member] at pendingOp
  cases pendingOp

/-- Every message which was sent has been handled. -/
theorem handled (quiescent : s.Quiescent) (msg : MsgId) :
    s.handled msg = s.deliveries msg := by
  have mailed : mailed s.rx (s.msgs msg).target msg = 0 := by
    apply mailed_eq_zero
    intro vn member
    rw [quiescent.rx] at member
    cases member
  unfold State.handled State.fielded
  rw [mailed, quiescent.pending_eq_zero]
  omega

/-- Every message which was submitted has been sent. -/
theorem sent_of_submitted (quiescent : s.Quiescent) (accounted : Accounted s)
    {nid : Nid} {vn : Vn} {msg : MsgId}
    (submitted : .submitted nid vn msg ∈ s.log) :
    .sent nid vn msg ∈ s.log := by
  have exact := accounted.exact nid vn msg
  have counted : 0 < s.log.count (.submitted nid vn msg) :=
    List.count_pos_iff.mpr submitted
  have hands : s.hands nid vn = [] := by
    rw [List.eq_nil_iff_forall_not_mem]
    intro held member
    obtain ⟨thread, threadMember, op, pendingOp, _⟩ := mem_gather.mp member
    rw [quiescent.idle thread threadMember] at pendingOp
    cases pendingOp
  have parked : s.parked nid vn = [] := by
    unfold State.parked
    rw [quiescent.waiting, List.drop_nil]
  unfold State.places at exact
  rw [quiescent.tx, parked, hands] at exact
  simp only [List.count_nil, Nat.zero_add] at exact
  apply List.count_pos_iff.mp
  omega

/-- Every message which was submitted has been handled. -/
theorem handled_of_submitted (quiescent : s.Quiescent)
    (accounted : Accounted s) {nid : Nid} {vn : Vn} {msg : MsgId}
    (submitted : .submitted nid vn msg ∈ s.log) : 0 < s.handled msg := by
  rw [quiescent.handled]
  exact List.countP_pos_iff.mpr
    ⟨_, quiescent.sent_of_submitted accounted submitted, by simp [Obs.sends]⟩

end State.Quiescent

/-- Whether a message is in a queue or a mailbox of its nodes. -/
def State.waits (s : State) (msg : MsgId) : Bool :=
  let m := s.msgs msg
  [Vn.computeRequest, .computeResponse, .serviceRequest,
      .serviceResponse].any (fun vn =>
    decide (msg ∈ s.traffic.tx m.initiator vn) ||
      decide (msg ∈ s.traffic.waiting m.initiator vn) ||
      decide (msg ∈ s.rx m.target vn)) ||
    decide (msg ∈ s.traffic.e2e m.initiator)

/-- The executable form of `Quiescent` for the states of a run. -/
def State.rests (s : State) : Bool :=
  (s.threads.all fun thread => thread.ops.isEmpty) &&
    (List.range s.nextMsg).all fun msg => !s.waits msg

theorem State.Quiescent.of_rests {sys : Sys} {s : State}
    (reachable : Reachable sys s) (rests : s.rests = true) :
    s.Quiescent := by
  have wellScoped := ReachedBy.wellScoped reachable
  have placed := (ReachedBy.shaped reachable).queues
  obtain ⟨idle, absent⟩ := Bool.and_eq_true_iff.mp rests
  have absent : ∀ msg < s.nextMsg, s.waits msg = false := by
    simpa using absent
  have vns : ∀ vn : Vn, vn ∈ [Vn.computeRequest, .computeResponse,
      .serviceRequest, .serviceResponse] := by
    intro vn
    cases vn <;> simp
  have empty : ∀ queue : List MsgId, (∀ msg ∈ queue, msg < s.nextMsg) →
      (∀ msg ∈ queue, s.waits msg = true) → queue = [] := by
    intro queue small waits
    rw [List.eq_nil_iff_forall_not_mem]
    intro msg member
    have contradiction := absent msg (small msg member)
    rw [waits msg member] at contradiction
    cases contradiction
  refine ⟨?_, ?_, ?_, ?_, ?_⟩
  · simpa using idle
  · intro nid vn
    refine empty _ ((wellScoped.tables.nodes nid).txQueues vn) ?_
    intro msg member
    obtain rfl := (placed.nodes nid).tx vn msg member
    have here : msg ∈ s.traffic.tx (s.msgs msg).initiator vn := member
    simp only [State.waits, Bool.or_eq_true, List.any_eq_true,
      decide_eq_true_eq]
    exact .inl ⟨vn, vns vn, .inl (.inl here)⟩
  · intro nid vn
    refine empty _ ((wellScoped.tables.nodes nid).waiting vn) ?_
    intro msg member
    obtain rfl := (placed.nodes nid).waiting vn msg member
    have here : msg ∈ s.traffic.waiting (s.msgs msg).initiator vn := member
    simp only [State.waits, Bool.or_eq_true, List.any_eq_true,
      decide_eq_true_eq]
    exact .inl ⟨vn, vns vn, .inl (.inr here)⟩
  · intro nid vn
    refine empty _ (wellScoped.tables.rx nid vn) ?_
    intro msg member
    obtain rfl := placed.rx nid vn msg member
    simp only [State.waits, Bool.or_eq_true, List.any_eq_true,
      decide_eq_true_eq]
    exact .inl ⟨vn, vns vn, .inr member⟩
  · intro nid
    refine empty _ (wellScoped.tables.nodes nid).e2eQueue ?_
    intro msg member
    obtain ⟨rfl, _⟩ := (placed.nodes nid).e2e msg member
    have here : msg ∈ s.traffic.e2e (s.msgs msg).initiator := member
    simp only [State.waits, Bool.or_eq_true, decide_eq_true_eq]
    exact .inr here

end S4BXI
