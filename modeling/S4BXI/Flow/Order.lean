import S4BXI.Flow.Places

/-!
# Messages are transmitted in the order of their submission

With one NIC initiator for a network of a node, the messages which were put in
its TX queue are those which were transmitted, then the one in the hands of the
initiator, then those in the queue.  A message which is refused by flow control
leaves this line, and comes back at its end.
-/

namespace S4BXI

open Lib

/-- The message which an effect puts in the TX queue of a network. -/
def Obs.submission (nid : Nid) (vn : Vn) : Obs → Option MsgId
  | .submitted node network msg =>
      if node = nid ∧ network = vn then some msg else none
  | _ => none

/-- The message which an effect transmits on a network. -/
def Obs.transmission (nid : Nid) (vn : Vn) : Obs → Option MsgId
  | .sent node network msg =>
      if node = nid ∧ network = vn then some msg else none
  | _ => none

def submissions (nid : Nid) (vn : Vn) (log : List Obs) : List MsgId :=
  log.filterMap (Obs.submission nid vn)

def transmissions (nid : Nid) (vn : Vn) (log : List Obs) : List MsgId :=
  log.filterMap (Obs.transmission nid vn)

/-- Whether an actor is a NIC initiator of the network. -/
def Actor.initiates (nid : Nid) (vn : Vn) (self : Actor) : Bool :=
  self.kind = .nicInitiator ∧ self.nid = nid ∧ self.vn = vn

/-- Whether the step refuses a message of the network. -/
def refuses (sys : Sys) (nid : Nid) (vn : Vn) (s : State) : Label → Bool
  | .run index =>
      match s.threads[index]? with
      | some ⟨self, .processTx msg :: _⟩ =>
          self.nid = nid ∧ self.vn = vn ∧
            (checkFlowctrl sys s self.nid msg).1 = .refused
      | _ => false
  | _ => false

def Unrefused (sys : Sys) (nid : Nid) (vn : Vn) (s : State) (label : Label) :
    Prop :=
  refuses sys nid vn s label = false

instance (sys : Sys) (nid : Nid) (vn : Vn) (s : State) (label : Label) :
    Decidable (Unrefused sys nid vn s label) :=
  inferInstanceAs (Decidable (_ = false))

/-- The operations by which a NIC initiator handles a message. -/
def Op.initiating : Op → Bool
  | .processTx _ | .commInit _ | .commStart _ => true
  | _ => false

/-- Only the NIC initiators of the system handle messages to transmit. -/
structure Manned (sys : Sys) (s : State) : Prop where
  roles : s.threads.map (·.role) = sys.actors
  ops : EveryPending (fun self op => op.initiating = true →
    self.kind = .nicInitiator) s.threads

/-- What was submitted was transmitted, is in the hands of the NIC initiator or
is in the queue. -/
structure InLine (nid : Nid) (vn : Vn) (s : State) : Prop where
  waiting : s.traffic.waiting nid vn = []
  alone : (s.hands nid vn).length ≤ 1
  line : submissions nid vn s.log =
    transmissions nid vn s.log ++ s.hands nid vn ++ s.traffic.tx nid vn

section Lists

variable {Item : Type} {holds : Item → Bool}

/-- There is at most one place where it holds. -/
theorem index_unique {items : List Item} (single : items.countP holds ≤ 1)
    {first second : Nat} {here there : Item}
    (found : items[first]? = some here) (found' : items[second]? = some there)
    (holdsHere : holds here = true) (holdsThere : holds there = true) :
    first = second := by
  have none : ∀ {rest : List Item} {index : Nat} {item : Item},
      rest.countP holds = 0 → rest[index]? = some item → holds item ≠ true :=
    fun zero found => List.countP_eq_zero.mp zero _ (List.mem_of_getElem? found)
  induction items generalizing first second with
  | nil => simp at found
  | cons head tail induction =>
      rw [List.countP_cons] at single
      cases first with
      | zero =>
          cases second with
          | zero => rfl
          | succ second =>
              simp only [List.getElem?_cons_zero, Option.some.injEq] at found
              rw [List.getElem?_cons_succ] at found'
              rw [found, holdsHere, if_pos rfl] at single
              exact absurd holdsThere (none (by omega) found')
      | succ first =>
          rw [List.getElem?_cons_succ] at found
          cases second with
          | zero =>
              simp only [List.getElem?_cons_zero, Option.some.injEq] at found'
              rw [found', holdsThere, if_pos rfl] at single
              exact absurd holdsHere (none (by omega) found)
          | succ second =>
              rw [List.getElem?_cons_succ] at found'
              rw [induction (Nat.le_trans (Nat.le_add_right _ _) single) found
                found']

end Lists

section Steps

variable {sys : Sys} {self : Actor} {s after : State} {nid : Nid} {vn : Vn}

/-! ## The actors -/

theorem Follows.initiating {op added : Op}
    (follows : Follows sys self s op added)
    (initiates : added.initiating = true) : op.initiating = true := by
  cases follows with
  | commInit => rfl
  | commStart => rfl
  | @matched msg pt list me fail kind type found =>
      cases kind <;> cases initiates
  | _ => cases initiates

theorem CallPhase.initiating {call : Call} {new : List Op}
    (phase : CallPhase sys self s call after new) :
    ∀ op ∈ new, op.initiating = false := by
  cases phase with
  | appendOverflow taken =>
      exact issueLink_every (P := fun op => op.initiating = false)
        fun _ _ _ => rfl
  | _ => simp [Op.initiating]

/-- An actor which runs keeps its role. -/
theorem roles_set {index : ThreadId} {old new : List Op}
    (found : s.threads[index]? = some ⟨self, old⟩) :
    (s.threads.set index ⟨self, new⟩).map (·.role) =
      s.threads.map (·.role) := by
  have role : (s.threads.map (·.role))[index]? = some self := by
    rw [List.getElem?_map, found]
    rfl
  obtain ⟨bound, same⟩ := List.getElem?_eq_some_iff.mp role
  rw [List.map_set]
  conv_lhs => rw [← same]
  exact List.set_getElem_self bound

theorem Manned.advances {index : ThreadId} {label : Label}
    (manned : Manned sys s) (advances : Advances sys s index label after) :
    Manned sys after := by
  cases advances with
  | dangling dead owner => exact ⟨manned.roles, manned.ops⟩
  | @run self op rest new after found alive phase =>
      refine ⟨(roles_set found).trans manned.roles,
        manned.ops.run found (fun _ _ _ _ => id) ?_⟩
      intro added member initiates
      exact manned.ops _ (List.mem_of_getElem? found) op List.mem_cons_self
        ((phase.follows added member).initiating initiates)
  | recv found target queued =>
      refine ⟨(roles_set found).trans manned.roles,
        manned.ops.start (fun _ _ _ _ => id) ?_⟩
      simp [Op.initiating]
  | take found initiator queued =>
      exact ⟨(roles_set found).trans manned.roles,
        manned.ops.start (fun _ _ _ _ => id) fun _ _ _ => initiator⟩
  | wake found e2e alive queued =>
      refine ⟨(roles_set found).trans manned.roles,
        manned.ops.start (fun _ _ _ _ => id) ?_⟩
      simp [Op.initiating]
  | call found user owned alive phase =>
      refine ⟨(roles_set found).trans manned.roles,
        manned.ops.start (fun _ _ _ _ => id) ?_⟩
      intro added member initiates
      rw [phase.initiating added member] at initiates
      cases initiates

theorem ReachedBy.manned {allowed : State → Label → Prop}
    (reached : ReachedBy sys allowed s) : Manned sys s := by
  have start : Manned sys (initial sys) := by
    constructor
    · change (sys.actors.map _).map _ = _
      rw [List.map_map]
      exact List.map_id _
    · simp [EveryPending, initial]
  apply reached.invariant_of_reached start
  intro before after label _ manned _ stepped
  exact manned.advances (step_advances stepped)

/-- A message is in the hands of an actor which initiates. -/
theorem Op.holder {op : Op} {msg : MsgId}
    (holds : msg ∈ op.holding nid vn self) :
    op.initiating = true ∧ self.nid = nid ∧ self.vn = vn := by
  have taken : ∀ {other : MsgId},
      msg ∈ (if self.nid = nid ∧ self.vn = vn then [other] else []) →
      self.nid = nid ∧ self.vn = vn := by
    intro other member
    split at member
    · assumption
    · cases member
  cases op with
  | processTx | commInit | commStart => exact ⟨rfl, taken holds⟩
  | _ => cases holds

/-- While the only NIC initiator of a network is idle, no message of the network
is in the hands of an actor. -/
theorem Manned.idle_hands (manned : Manned sys s)
    (single : sys.actors.countP (Actor.initiates nid vn) ≤ 1)
    {index : ThreadId} (found : s.threads[index]? = some ⟨self, []⟩)
    (initiates : self.initiates nid vn = true) : s.hands nid vn = [] := by
  apply List.eq_nil_iff_forall_not_mem.mpr
  intro msg member
  obtain ⟨thread, threadMember, op, pends, holds⟩ := mem_gather.mp member
  obtain ⟨initiating, node, network⟩ := Op.holder holds
  obtain ⟨position, present⟩ := List.mem_iff_getElem?.mp threadMember
  have kind := manned.ops thread threadMember op pends initiating
  have here : sys.actors[index]? = some self := by
    rw [← manned.roles, List.getElem?_map, found]
    rfl
  have there : sys.actors[position]? = some thread.role := by
    rw [← manned.roles, List.getElem?_map, present]
    rfl
  have same : index = position :=
    index_unique single here there initiates
      (by simp [Actor.initiates, kind, node, network])
  subst same
  cases found.symm.trans present
  cases pends

/-! ## The line -/

theorem submissions_append (log extra : List Obs) :
    submissions nid vn (log ++ extra) =
      submissions nid vn log ++ submissions nid vn extra :=
  List.filterMap_append

theorem transmissions_append (log extra : List Obs) :
    transmissions nid vn (log ++ extra) =
      transmissions nid vn log ++ transmissions nid vn extra :=
  List.filterMap_append

theorem Silent.submissions (silent : Silent s after) :
    submissions nid vn after.log = submissions nid vn s.log := by
  obtain ⟨extra, log, quiet⟩ := silent
  have nothing : S4BXI.submissions nid vn extra = [] := by
    apply List.filterMap_eq_nil_iff.mpr
    intro obs member
    have still := quiet obs member
    cases obs with
    | submitted => cases still
    | _ => rfl
  rw [log, submissions_append, nothing, List.append_nil]

theorem Silent.transmissions (silent : Silent s after) :
    transmissions nid vn after.log = transmissions nid vn s.log := by
  obtain ⟨extra, log, quiet⟩ := silent
  have nothing : S4BXI.transmissions nid vn extra = [] := by
    apply List.filterMap_eq_nil_iff.mpr
    intro obs member
    have still := quiet obs member
    cases obs with
    | sent => cases still
    | _ => rfl
  rw [log, transmissions_append, nothing, List.append_nil]

/-- An operation leaves the hands of the other actors alone. -/
theorem hands_set {index : ThreadId} {op : Op} {rest : List Op}
    (found : s.threads[index]? = some ⟨self, op :: rest⟩) (new : List Op)
    (nid : Nid) (vn : Vn) :
    ∃ left right, s.hands nid vn = left ++ op.holding nid vn self ++ right ∧
      gather (Op.holding nid vn) (s.threads.set index ⟨self, new ++ rest⟩) =
        left ++ new.flatMap (Op.holding nid vn self) ++ right := by
  obtain ⟨left, right, before, later⟩ :=
    gather_set (Op.holding nid vn) found
  refine ⟨left, rest.flatMap (Op.holding nid vn self) ++ right, ?_, ?_⟩
  · unfold State.hands
    rw [before]
    simp
  · rw [later]
    simp

/-- What an operation holds it hands on. -/
theorem hands_kept {index : ThreadId} {op : Op} {rest new : List Op}
    (found : s.threads[index]? = some ⟨self, op :: rest⟩)
    (same : new.flatMap (Op.holding nid vn self) = op.holding nid vn self) :
    gather (Op.holding nid vn) (s.threads.set index ⟨self, new ++ rest⟩) =
      s.hands nid vn := by
  obtain ⟨left, right, before, later⟩ := hands_set found new nid vn
  rw [later, before, same]

/-- Another queue of the table changes. -/
theorem setQueue_other {queues : Nid → Vn → List MsgId} {node : Nid}
    {network : Vn} (queue : List MsgId)
    (other : ¬(nid = node ∧ vn = network)) :
    setQueue queues node network queue nid vn = queues nid vn := by
  rw [setQueue_apply, if_neg other]

theorem setQueue_same (queues : Nid → Vn → List MsgId) (queue : List MsgId) :
    setQueue queues nid vn queue nid vn = queue := by
  rw [setQueue_apply, if_pos ⟨rfl, rfl⟩]

/-- A message which is put in the queue is the last of the line. -/
theorem InLine.submit (inLine : InLine nid vn s) {node : Nid} {network : Vn}
    {msg : MsgId} :
    submissions nid vn (s.log ++ [.submitted node network msg]) =
      transmissions nid vn (s.log ++ [.submitted node network msg]) ++
        s.hands nid vn ++ setQueue s.traffic.tx node network
          (s.traffic.tx node network ++ [msg]) nid vn := by
  rw [submissions_append, transmissions_append, inLine.line]
  have silent : transmissions nid vn [.submitted node network msg] = [] := rfl
  rw [silent, List.append_nil]
  by_cases here : nid = node ∧ vn = network
  · obtain ⟨rfl, rfl⟩ := here
    have added : submissions nid vn [.submitted nid vn msg] = [msg] := by
      simp [submissions, Obs.submission]
    rw [added, setQueue_same]
    simp only [List.append_assoc]
  · have absent : submissions nid vn [.submitted node network msg] = [] := by
      have elsewhere : ¬(node = nid ∧ network = vn) :=
        fun same => here ⟨same.1.symm, same.2.symm⟩
      simp [submissions, Obs.submission, elsewhere]
    rw [absent, setQueue_other _ here, List.append_nil]

theorem Unrefused.passes {index : ThreadId} {msg : MsgId} {rest : List Op}
    (unrefused : Unrefused sys nid vn s (.run index))
    (found : s.threads[index]? = some ⟨self, .processTx msg :: rest⟩)
    (refused : (checkFlowctrl sys s self.nid msg).1 = .refused) :
    ¬(nid = self.nid ∧ vn = self.vn) := by
  rintro ⟨rfl, rfl⟩
  unfold Unrefused refuses at unrefused
  simp only [found, refused] at unrefused
  simp at unrefused

/-- No message of the network is parked. -/
theorem InLine.empty_deque (inLine : InLine nid vn s) {node : Nid}
    {network : Vn} {msg : MsgId} {rest : List MsgId}
    (waiting : s.traffic.waiting node network = msg :: rest) :
    ¬(nid = node ∧ vn = network) := by
  rintro ⟨rfl, rfl⟩
  cases waiting.symm.trans inLine.waiting

/-- The message in the hands of the NIC initiator is transmitted. -/
theorem InLine.transmit {msg : MsgId} {rest : List Op} {index : ThreadId}
    (inLine : InLine self.nid self.vn s)
    (found : s.threads[index]? = some ⟨self, .commStart msg :: rest⟩)
    (traffic : after.traffic = { s.traffic with
      rx := setQueue s.traffic.rx (s.msgs msg).target self.vn
        (s.traffic.rx (s.msgs msg).target self.vn ++ [msg]) })
    (log : after.log = s.log ++ [.sent self.nid self.vn msg]) :
    InLine self.nid self.vn { after with
      threads := s.threads.set index ⟨self, [] ++ rest⟩ } := by
  obtain ⟨left, right, before, later⟩ := hands_set found [] self.nid self.vn
  have held : (Op.commStart msg).holding self.nid self.vn self = [msg] :=
    if_pos ⟨rfl, rfl⟩
  have alone := inLine.alone
  rw [before, held] at alone
  simp only [List.length_append, List.length_singleton] at alone
  obtain rfl : left = [] := List.eq_nil_of_length_eq_zero (by omega)
  obtain rfl : right = [] := List.eq_nil_of_length_eq_zero (by omega)
  have sent : Obs.transmission self.nid self.vn (.sent self.nid self.vn msg) =
      some msg := if_pos ⟨rfl, rfl⟩
  refine ⟨?_, ?_, ?_⟩
  · change after.traffic.waiting self.nid self.vn = []
    rw [traffic]
    exact inLine.waiting
  · change (gather _ _).length ≤ 1
    rw [later]
    simp
  · change submissions self.nid self.vn after.log =
      transmissions self.nid self.vn after.log ++ gather _ _ ++
        after.traffic.tx self.nid self.vn
    have line := inLine.line
    rw [before, held] at line
    rw [later, traffic, log, submissions_append, transmissions_append, line]
    simp [submissions, transmissions, Obs.submission, sent]

/-- An operation keeps the line, unless it refuses a message. -/
theorem InLine.run (inLine : InLine nid vn s) {index : ThreadId} {op : Op}
    {rest new : List Op}
    (found : s.threads[index]? = some ⟨self, op :: rest⟩)
    (carries : Carries sys self s op after new)
    (unrefused : Unrefused sys nid vn s (.run index))
    (running : after.halted = none) :
    InLine nid vn { after with
      threads := s.threads.set index ⟨self, new ++ rest⟩ } := by
  have keep : new.flatMap (Op.holding nid vn self) = op.holding nid vn self →
      after.traffic.waiting nid vn = s.traffic.waiting nid vn →
      submissions nid vn after.log = transmissions nid vn after.log ++
        s.hands nid vn ++ after.traffic.tx nid vn →
      InLine nid vn { after with
        threads := s.threads.set index ⟨self, new ++ rest⟩ } := by
    intro same waiting line
    have hands : gather (Op.holding nid vn)
        (s.threads.set index ⟨self, new ++ rest⟩) = s.hands nid vn :=
      hands_kept found same
    refine ⟨waiting.trans inLine.waiting, ?_, ?_⟩
    · change (gather _ _).length ≤ 1
      rw [hands]
      exact inLine.alone
    · change _ = transmissions nid vn after.log ++ gather _ _ ++ _
      rw [hands]
      exact line
  have nothing : ∀ {ops : List Op}, (∀ op ∈ ops, op.carrying = false) →
      ops.flatMap (Op.holding nid vn self) = [] :=
    fun idle => holding_of_nothing idle nid vn self
  cases carries with
  | still idle none traffic silent =>
      apply keep
      · rw [Op.holding_of_idle idle, nothing none]
      · rw [traffic]
      · rw [silent.submissions, silent.transmissions, traffic]
        exact inLine.line
  | submit traffic log | retry on traffic log =>
      apply keep
      · rfl
      · rw [traffic]
      · rw [traffic, log]
        exact inLine.submit
  | mailbox off traffic log | enqueue traffic log =>
      apply keep
      · rfl
      · rw [traffic]
      · rw [traffic, log]
        exact inLine.line
  | pass passes none traffic silent =>
      apply keep
      · rw [List.flatMap_cons, nothing none, List.append_nil]
        rfl
      · rw [traffic]
      · rw [silent.submissions, silent.transmissions, traffic]
        exact inLine.line
  | park subject refused traffic log =>
      have other := unrefused.passes found refused
      apply keep
      · simp only [Op.holding]
        rw [if_neg fun same => other ⟨same.1.symm, same.2.symm⟩]
        rfl
      · rw [traffic]
        exact setQueue_other _ other
      · rw [traffic, log]
        exact inLine.line
  | init before none =>
      apply keep
      · rw [List.flatMap_append, nothing none, List.flatMap_singleton]
        rfl
      · rfl
      · exact inLine.line
  | @start msg after traffic log =>
      by_cases here : nid = self.nid ∧ vn = self.vn
      · obtain ⟨rfl, rfl⟩ := here
        exact inLine.transmit found traffic log
      · apply keep
        · simp only [Op.holding]
          rw [if_neg fun same => here ⟨same.1.symm, same.2.symm⟩]
          rfl
        · rw [traffic]
        · have silent : Obs.transmission nid vn (.sent self.nid self.vn msg) =
              none := if_neg fun same => here ⟨same.1.symm, same.2.symm⟩
          rw [traffic, log, submissions_append, transmissions_append]
          simp only [transmissions, submissions, List.filterMap_cons, silent,
            Obs.submission, List.filterMap_nil, List.append_nil]
          exact inLine.line
  | push waiting traffic log =>
      have other := inLine.empty_deque waiting
      apply keep
      · rfl
      · rw [traffic]
      · rw [traffic, log]
        dsimp only
        rw [setQueue_other _ other]
        exact inLine.line
  | pop waiting traffic log =>
      have other := inLine.empty_deque waiting
      apply keep
      · rfl
      · rw [traffic]
        exact setQueue_other _ other
      · rw [traffic, log]
        exact inLine.line
  | stop halted => exact absurd running halted

/-- An actor which starts keeps the line. -/
theorem InLine.start (inLine : InLine nid vn s) {index : ThreadId}
    {new : List Op} (found : s.threads[index]? = some ⟨self, []⟩)
    (taken : s.traffic.tx nid vn = new.flatMap (Op.holding nid vn self) ++
      after.traffic.tx nid vn)
    (idle : new.flatMap (Op.holding nid vn self) ≠ [] → s.hands nid vn = [])
    (single : (new.flatMap (Op.holding nid vn self)).length ≤ 1)
    (waiting : after.traffic.waiting = s.traffic.waiting)
    (log : after.log = s.log) :
    InLine nid vn { after with
      threads := s.threads.set index ⟨self, new⟩ } := by
  obtain ⟨left, right, before, later⟩ := gather_set (Op.holding nid vn) found
  have hands : gather (Op.holding nid vn) (s.threads.set index ⟨self, new⟩) =
      s.hands nid vn ++ new.flatMap (Op.holding nid vn self) := by
    unfold State.hands
    rw [later, before]
    cases held : new.flatMap (Op.holding nid vn self) with
    | nil => simp
    | cons msg rest =>
        have empty := idle (by simp [held])
        unfold State.hands at empty
        rw [before] at empty
        simp only [List.append_eq_nil_iff] at empty
        simp [empty]
  refine ⟨?_, ?_, ?_⟩
  · change after.traffic.waiting nid vn = []
    rw [waiting]
    exact inLine.waiting
  · change (gather _ _).length ≤ 1
    rw [hands]
    by_cases nothing : new.flatMap (Op.holding nid vn self) = []
    · rw [nothing, List.append_nil]
      exact inLine.alone
    · rw [idle nothing]
      exact single
  · change submissions nid vn after.log = transmissions nid vn after.log ++
      gather _ _ ++ after.traffic.tx nid vn
    rw [hands, log, inLine.line, taken]
    simp only [List.append_assoc]

theorem InLine.advances (inLine : InLine nid vn s)
    (wellScoped : WellScoped s) (manned : Manned sys s)
    (single : sys.actors.countP (Actor.initiates nid vn) ≤ 1)
    {index : ThreadId} {label : Label}
    (advances : Advances sys s index label after)
    (unrefused : Unrefused sys nid vn s label)
    (running : after.halted = none) : InLine nid vn after := by
  cases advances with
  | dangling dead owner => cases running
  | run found alive phase =>
      have within := wellScoped.ops _ (List.mem_of_getElem? found) _
        List.mem_cons_self
      exact inLine.run found (phase.carries within) unrefused running
  | recv found target queued =>
      exact inLine.start found rfl (fun held => absurd rfl held)
        (Nat.zero_le 1) rfl rfl
  | @take self msg rest found initiator queued =>
      have traffic := s.traffic_take queued
      have head : s.traffic.tx self.nid self.vn = msg :: rest := queued
      by_cases here : self.nid = nid ∧ self.vn = vn
      · have held : [Op.processTx msg].flatMap (Op.holding nid vn self) =
            [msg] := by
          simp [Op.holding, here]
        refine inLine.start found ?_ ?_ ?_ ?_ rfl
        · rw [held, traffic]
          obtain ⟨rfl, rfl⟩ := here
          dsimp only
          rw [setQueue_same, head]
          rfl
        · intro _
          apply manned.idle_hands single found
          simp [Actor.initiates, initiator, here]
        · rw [held]
          exact Nat.le_refl 1
        · rw [traffic]
      · have held : [Op.processTx msg].flatMap (Op.holding nid vn self) =
            [] := by
          simp [Op.holding, here]
        have other : ¬(nid = self.nid ∧ vn = self.vn) :=
          fun same => here ⟨same.1.symm, same.2.symm⟩
        refine inLine.start found ?_ (fun some => absurd held some) ?_ ?_ rfl
        · rw [held, traffic]
          dsimp only
          rw [setQueue_other _ other]
          rfl
        · rw [held]
          exact Nat.zero_le 1
        · rw [traffic]
  | @wake self msg rest found e2e alive queued =>
      have traffic : (s.popE2e self.nid).traffic = _ :=
        s.traffic_e2e self.nid List.tail
      refine inLine.start found ?_ (fun held => absurd rfl held) ?_ ?_ rfl
      · rw [traffic]
        rfl
      · exact Nat.zero_le 1
      · rw [traffic]
  | call found user owned alive phase =>
      obtain ⟨traffic, log, nothing⟩ := phase.carries
      have held := holding_of_nothing nothing nid vn
      refine inLine.start found ?_ (fun some => absurd (held _) some) ?_ ?_ log
      · rw [traffic, held, List.nil_append]
      · rw [held]
        exact Nat.zero_le 1
      · rw [traffic]

/-- The line of a network whose only NIC initiator refused no message. -/
theorem ReachedBy.inLine
    (single : sys.actors.countP (Actor.initiates nid vn) ≤ 1)
    (reached : ReachedBy sys (Unrefused sys nid vn) s)
    (running : s.halted = none) : InLine nid vn s := by
  let Along (state : State) : Prop :=
    state.halted = none → InLine nid vn state
  have start : Along (initial sys) := by
    intro _
    have hands : (initial sys).hands nid vn = [] := by
      apply List.eq_nil_iff_forall_not_mem.mpr
      intro msg member
      obtain ⟨thread, threadMember, op, pends, _⟩ := mem_gather.mp member
      obtain ⟨actor, _, rfl⟩ := List.mem_map.mp threadMember
      cases pends
    refine ⟨rfl, ?_, ?_⟩
    · rw [hands]
      exact Nat.zero_le 1
    · rw [hands]
      rfl
  have along : Along s := by
    apply reached.invariant_of_reached start
    intro before after label earlier kept unrefused stepped running
    have known := earlier.mono fun _ _ _ => trivial
    exact (kept (step_enabled stepped).1).advances (ReachedBy.wellScoped known)
      (ReachedBy.manned known) single (step_advances stepped) unrefused running
  exact along running

/-- With one NIC initiator for the network, and as long as flow control refuses
none of its messages, these are transmitted in the order in which they were put
in the TX queue: the messages not yet transmitted are the one in the hands of
the initiator, then those of the queue. -/
theorem transmissions_in_order
    (single : sys.actors.countP (Actor.initiates nid vn) ≤ 1)
    (reached : ReachedBy sys (Unrefused sys nid vn) s)
    (running : s.halted = none) :
    submissions nid vn s.log =
        transmissions nid vn s.log ++ s.hands nid vn ++ s.traffic.tx nid vn ∧
      (s.hands nid vn).length ≤ 1 ∧ s.traffic.waiting nid vn = [] := by
  have inLine := ReachedBy.inLine single reached running
  exact ⟨inLine.line, inLine.alone, inLine.waiting⟩

/-- Flow control without credits refuses no message. -/
theorem unrefused_of_unlimited (target : sys.cfg.maxInflightToTarget = 0)
    (process : sys.cfg.maxInflightToProcess = 0) (s : State) (label : Label) :
    Unrefused sys nid vn s label := by
  have granted : ∀ node msg, (checkFlowctrl sys s node msg).1 = .granted := by
    intro node msg
    rw [checkFlowctrl_answer]
    split
    · rfl
    · simp [BxiNode.checkCredits, checkLevel, target, process]
  unfold Unrefused refuses
  split
  · split
    · simp [granted]
    · rfl
  · rfl

/-- Without flow control, what a network of one NIC initiator transmitted is in
every run the beginning of what was put in its TX queue. -/
theorem transmissions_in_order_unlimited
    (target : sys.cfg.maxInflightToTarget = 0)
    (process : sys.cfg.maxInflightToProcess = 0)
    (single : sys.actors.countP (Actor.initiates nid vn) ≤ 1)
    (reachable : Reachable sys s) (running : s.halted = none) :
    transmissions nid vn s.log <+: submissions nid vn s.log := by
  have reached : ReachedBy sys (Unrefused sys nid vn) s :=
    Reached.mono (fun state label _ =>
      unrefused_of_unlimited target process state label) reachable
  rw [(ReachedBy.inLine single reached running).line, List.append_assoc]
  exact List.prefix_append _ _

end Steps

/-- Credits for three Puts. -/
def threeCredits : Sys :=
  twoNodes { maxInflightToTarget := 3, maxInflightToProcess := 3 }
    { e2eOff := false }

/-- Three Puts to the second node: one is transmitted, one is in the hands of
the NIC initiator and one in its queue. -/
def queuedPuts : List Label :=
  putsTo 1 .ackReq :: runs 0 3 ++ .take 1 :: runs 1 10 ++
    putsTo 1 .ackReq :: runs 0 3 ++ putsTo 1 .ackReq :: runs 0 3 ++
    .take 1 :: runs 1 1

theorem queued_puts_in_order :
    ∃ s, ReachedBy threeCredits (Unrefused threeCredits 0 .computeRequest) s ∧
      submissions 0 .computeRequest s.log = [0, 1, 2] ∧
      s.traffic.tx 0 .computeRequest = [2] ∧
      transmissions 0 .computeRequest s.log ++ s.hands 0 .computeRequest =
        [0, 1] := by
  obtain ⟨s, reached, holds⟩ := reachedBy_of_executes threeCredits
    (Unrefused threeCredits 0 .computeRequest) queuedPuts (fun s =>
      s.halted.isNone && submissions 0 .computeRequest s.log == [0, 1, 2] &&
      s.traffic.tx 0 .computeRequest == [2]) (by decide +kernel)
  simp only [Bool.and_eq_true, Option.isNone_iff_eq_none, beq_iff_eq] at holds
  obtain ⟨⟨running, submitted⟩, queued⟩ := holds
  refine ⟨s, reached, submitted, queued, ?_⟩
  have single : threeCredits.actors.countP
      (Actor.initiates 0 .computeRequest) ≤ 1 := by decide
  have line := (transmissions_in_order single reached running).1
  rw [submitted, queued] at line
  exact (@List.append_cancel_right _ [0, 1] _ _ line).symm

end S4BXI
