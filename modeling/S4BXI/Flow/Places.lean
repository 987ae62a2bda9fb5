import S4BXI.Flow.Traffic
import S4BXI.Nic.Runs

/-!
# Where a submitted message is

A message put in a TX queue is in that queue, parked for lack of credits, in
the hands of a NIC initiator, or sent.  `resume_waiting_tx_actors` puts the head
of the deque back in the TX queue before it removes it, so that this head counts
as queued until then.
-/

namespace S4BXI

open Lib

/-- The message which an operation of a NIC initiator holds. -/
def Op.holding (nid : Nid) (vn : Vn) (self : Actor) : Op → List MsgId
  | .processTx msg | .commInit msg | .commStart msg =>
      if self.nid = nid ∧ self.vn = vn then [msg] else []
  | _ => []

/-- Whether an operation has still to remove the head of a deque. -/
def Op.popping (nid : Nid) (vn : Vn) : Op → Nat
  | .resumePop node network => if node = nid ∧ network = vn then 1 else 0
  | _ => 0

/-- Whether an operation is about to put a message in a TX queue for the first
time. -/
def Op.submitting (msg : MsgId) : Op → Nat
  | .txPut other | .cqAcquire _ other | .getFinish _ _ other
  | .fetchAtomicFinish _ _ other => if other = msg then 1 else 0
  | _ => 0

def Obs.submits (msg : MsgId) : Obs → Bool
  | .submitted _ _ other => other == msg
  | _ => false

namespace State

/-- The messages in the hands of the NIC initiators of a network. -/
def hands (s : State) (nid : Nid) (vn : Vn) : List MsgId :=
  gather (Op.holding nid vn) s.threads

/-- The number of actors between the `put` and the `pop_front` of
`resume_waiting_tx_actors`. -/
def resuming (s : State) (nid : Nid) (vn : Vn) : Nat :=
  pending (Op.popping nid vn) s.threads

/-- The messages of a deque which have not been put back. -/
def parked (s : State) (nid : Nid) (vn : Vn) : List MsgId :=
  (s.traffic.waiting nid vn).drop (s.resuming nid vn)

/-- The number of places in which a message is. -/
def places (s : State) (nid : Nid) (vn : Vn) (msg : MsgId) : Nat :=
  (s.traffic.tx nid vn).count msg + (s.parked nid vn).count msg +
    (s.hands nid vn).count msg + s.log.count (.sent nid vn msg)

end State

/-- Neither a message which is still at the head of the deque is refused, nor
does a second actor put the same head back. -/
def undisturbed (sys : Sys) (s : State) : Label → Bool
  | .run index =>
      match s.threads[index]? with
      | some ⟨self, .processTx msg :: _⟩ =>
          (checkFlowctrl sys s self.nid msg).1 ≠ .refused ||
            msg ∉ s.traffic.waiting self.nid self.vn
      | some ⟨_, .resumeLoop nid vn :: _⟩ =>
          s.traffic.waiting nid vn = [] || s.resuming nid vn = 0
      | _ => true
  | _ => true

def Undisturbed (sys : Sys) (s : State) (label : Label) : Prop :=
  undisturbed sys s label = true

instance (sys : Sys) (s : State) (label : Label) :
    Decidable (Undisturbed sys s label) :=
  inferInstanceAs (Decidable (_ = true))

theorem Undisturbed.refused {sys : Sys} {s : State} {index : ThreadId}
    (undisturbed : Undisturbed sys s (.run index)) {self : Actor}
    {msg : MsgId} {rest : List Op}
    (found : s.threads[index]? = some ⟨self, .processTx msg :: rest⟩)
    (refused : (checkFlowctrl sys s self.nid msg).1 = .refused) :
    msg ∉ s.traffic.waiting self.nid self.vn := by
  unfold Undisturbed S4BXI.undisturbed at undisturbed
  simp only [found, refused] at undisturbed
  simpa using undisturbed

theorem Undisturbed.alone {sys : Sys} {s : State} {index : ThreadId}
    (undisturbed : Undisturbed sys s (.run index)) {self : Actor} {nid : Nid}
    {vn : Vn} {rest : List Op}
    (found : s.threads[index]? = some ⟨self, .resumeLoop nid vn :: rest⟩)
    (nonempty : s.traffic.waiting nid vn ≠ []) : s.resuming nid vn = 0 := by
  unfold Undisturbed S4BXI.undisturbed at undisturbed
  simp only [found, Bool.or_eq_true, decide_eq_true_eq] at undisturbed
  exact undisturbed.resolve_left nonempty

section Counts

variable {sys : Sys} {self : Actor} {s after : State}

theorem Op.holding_of_idle {op : Op} (idle : op.carrying = false) (nid : Nid)
    (vn : Vn) (self : Actor) : op.holding nid vn self = [] := by
  cases op <;> first | rfl | cases idle

theorem Op.popping_of_idle {op : Op} (idle : op.carrying = false) (nid : Nid)
    (vn : Vn) : op.popping nid vn = 0 := by
  cases op <;> first | rfl | cases idle

theorem holding_of_nothing {ops : List Op}
    (nothing : ∀ op ∈ ops, op.carrying = false) (nid : Nid) (vn : Vn)
    (self : Actor) : ops.flatMap (Op.holding nid vn self) = [] :=
  List.flatMap_eq_nil_iff.mpr fun op member =>
    Op.holding_of_idle (nothing op member) nid vn self

theorem popping_of_nothing {ops : List Op}
    (nothing : ∀ op ∈ ops, op.carrying = false) (nid : Nid) (vn : Vn) :
    opsWeight (Op.popping nid vn) ops = 0 :=
  opsWeight_eq_zero fun op member =>
    Op.popping_of_idle (nothing op member) nid vn

/-- The log keeps its counts of moves. -/
theorem Silent.count (silent : Silent s after) {obs : Obs}
    (moves : obs.moves = true) : after.log.count obs = s.log.count obs := by
  obtain ⟨extra, log, quiet⟩ := silent
  have absent : extra.count obs = 0 := by
    apply List.count_eq_zero.mpr
    intro member
    rw [quiet obs member] at moves
    cases moves
  rw [log, List.count_append, absent, Nat.add_zero]

/-- The hands of the initiators after a thread has run. -/
theorem hands_run {index : ThreadId} {op : Op} {rest : List Op}
    (found : s.threads[index]? = some ⟨self, op :: rest⟩) (new : List Op)
    (nid : Nid) (vn : Vn) (msg : MsgId) :
    (gather (Op.holding nid vn)
        (s.threads.set index ⟨self, new ++ rest⟩)).count msg +
        (op.holding nid vn self).count msg =
      (s.hands nid vn).count msg +
        (new.flatMap (Op.holding nid vn self)).count msg := by
  have counts := count_gather_set (Op.holding nid vn) found
    ⟨self, new ++ rest⟩ msg
  simp only [List.flatMap_cons, List.flatMap_append, List.count_append] at counts
  unfold State.hands
  omega

theorem resuming_run {index : ThreadId} {op : Op} {rest : List Op}
    (found : s.threads[index]? = some ⟨self, op :: rest⟩) (new : List Op)
    (nid : Nid) (vn : Vn) :
    pending (Op.popping nid vn) (s.threads.set index ⟨self, new ++ rest⟩) +
        op.popping nid vn =
      s.resuming nid vn + opsWeight (Op.popping nid vn) new := by
  have weights := @pending_set _ _ (Op.popping nid vn) _ _ _
    ⟨self, new ++ rest⟩ found
  simp only [opsWeight_cons, opsWeight_append] at weights
  unfold State.resuming
  omega

/-- The hands of the initiators after an idle thread has started. -/
theorem hands_start {index : ThreadId}
    (found : s.threads[index]? = some ⟨self, []⟩) (new : List Op) (nid : Nid)
    (vn : Vn) (msg : MsgId) :
    (gather (Op.holding nid vn) (s.threads.set index ⟨self, new⟩)).count msg =
      (s.hands nid vn).count msg +
        (new.flatMap (Op.holding nid vn self)).count msg := by
  have counts := count_gather_set (Op.holding nid vn) found ⟨self, new⟩ msg
  simp only [List.flatMap_nil, List.count_nil] at counts
  unfold State.hands
  omega

theorem resuming_start {index : ThreadId}
    (found : s.threads[index]? = some ⟨self, []⟩) (new : List Op) (nid : Nid)
    (vn : Vn) :
    pending (Op.popping nid vn) (s.threads.set index ⟨self, new⟩) =
      s.resuming nid vn + opsWeight (Op.popping nid vn) new := by
  have weights := @pending_set _ _ (Op.popping nid vn) _ _ _ ⟨self, new⟩ found
  simp only [opsWeight_nil] at weights
  unfold State.resuming
  omega

/-- Whether two messages on their networks are the same. -/
def coincide (nid : Nid) (vn : Vn) (msg : MsgId) (node : Nid) (network : Vn)
    (other : MsgId) : Nat :=
  if nid = node ∧ vn = network ∧ msg = other then 1 else 0

section Coincide

variable (nid : Nid) (vn : Vn) (msg : MsgId) (node : Nid) (network : Vn)
  (other : MsgId)

theorem coincide_of_ne (different : msg ≠ other) :
    coincide nid vn msg node network other = 0 :=
  if_neg fun same => different same.2.2

theorem count_push (queues : Nid → Vn → List MsgId) :
    (setQueue queues nid vn (queues nid vn ++ [msg]) node network).count other =
      (queues node network).count other +
        coincide nid vn msg node network other := by
  rw [setQueue_apply]
  unfold coincide
  by_cases here : node = nid ∧ network = vn
  · obtain ⟨rfl, rfl⟩ := here
    by_cases same : msg = other
    · simp [same]
    · simp [same]
  · have elsewhere : ¬(nid = node ∧ vn = network ∧ msg = other) :=
      fun both => here ⟨both.1.symm, both.2.1.symm⟩
    rw [if_neg here, if_neg elsewhere, Nat.add_zero]

theorem count_pop {queues : Nid → Vn → List MsgId} {rest : List MsgId}
    (head : queues nid vn = msg :: rest) :
    (setQueue queues nid vn rest node network).count other +
        coincide nid vn msg node network other =
      (queues node network).count other := by
  rw [setQueue_apply]
  unfold coincide
  by_cases here : node = nid ∧ network = vn
  · obtain ⟨rfl, rfl⟩ := here
    rw [head]
    by_cases same : msg = other
    · simp [same]
    · simp [same]
  · have elsewhere : ¬(nid = node ∧ vn = network ∧ msg = other) :=
      fun both => here ⟨both.1.symm, both.2.1.symm⟩
    rw [if_neg here, if_neg elsewhere, Nat.add_zero]

theorem count_holding {op : Op} {self : Actor}
    (holds : op = .processTx msg ∨ op = .commInit msg ∨ op = .commStart msg) :
    (op.holding node network self).count other =
      coincide self.nid self.vn msg node network other := by
  have items : op.holding node network self =
      if self.nid = node ∧ self.vn = network then [msg] else [] := by
    rcases holds with rfl | rfl | rfl <;> rfl
  rw [items]
  unfold coincide
  by_cases here : self.nid = node ∧ self.vn = network
  · by_cases same : msg = other
    · simp [here, same]
    · simp [here, same]
  · have elsewhere : ¬(self.nid = node ∧ self.vn = network ∧ msg = other) :=
      fun both => here ⟨both.1, both.2.1⟩
    rw [if_neg here, if_neg elsewhere, List.count_nil]

theorem count_submitted (log : List Obs) :
    (log ++ [Obs.submitted nid vn msg]).count (.submitted node network other) =
      log.count (.submitted node network other) +
        coincide nid vn msg node network other := by
  rw [List.count_append, List.count_singleton]
  congr 1
  simp only [beq_iff_eq, Obs.submitted.injEq]
  rfl

theorem count_sent (log : List Obs) :
    (log ++ [Obs.sent nid vn msg]).count (.sent node network other) =
      log.count (.sent node network other) +
        coincide nid vn msg node network other := by
  rw [List.count_append, List.count_singleton]
  congr 1
  simp only [beq_iff_eq, Obs.sent.injEq]
  rfl

end Coincide

end Counts

/-- The invariant of flow control: at most one actor is putting messages back,
from a deque which is not empty, and every submission is accounted for. -/
structure Accounted (s : State) : Prop where
  single : ∀ nid vn, s.resuming nid vn ≤ 1
  nonempty : ∀ nid vn, s.resuming nid vn ≤ (s.traffic.waiting nid vn).length
  exact : ∀ nid vn msg,
    s.places nid vn msg = s.log.count (.submitted nid vn msg)

namespace Accounted

variable {sys : Sys} {self : Actor} {s after : State}

/-- Nothing moves. -/
theorem keep (accounted : Accounted s)
    (tx : after.traffic.tx = s.traffic.tx)
    (waiting : after.traffic.waiting = s.traffic.waiting)
    (silent : Silent s after)
    (resuming : ∀ nid vn, after.resuming nid vn = s.resuming nid vn)
    (hands : ∀ nid vn msg, (after.hands nid vn).count msg =
      (s.hands nid vn).count msg) : Accounted after := by
  refine ⟨fun nid vn => ?_, fun nid vn => ?_, fun nid vn msg => ?_⟩
  · rw [resuming]
    exact accounted.single nid vn
  · rw [resuming, waiting]
    exact accounted.nonempty nid vn
  · have exact := accounted.exact nid vn msg
    unfold State.places State.parked at exact ⊢
    rw [tx, waiting, resuming, hands, silent.count rfl, silent.count rfl]
    exact exact

/-- A message enters a TX queue for the first time. -/
theorem submit (accounted : Accounted s) {nid : Nid} {vn : Vn} {msg : MsgId}
    (traffic : after.traffic = { s.traffic with
      tx := setQueue s.traffic.tx nid vn (s.traffic.tx nid vn ++ [msg]) })
    (log : after.log = s.log ++ [.submitted nid vn msg])
    (resuming : ∀ nid vn, after.resuming nid vn = s.resuming nid vn)
    (hands : ∀ nid vn msg, (after.hands nid vn).count msg =
      (s.hands nid vn).count msg) : Accounted after := by
  refine ⟨fun node network => ?_, fun node network => ?_,
    fun node network other => ?_⟩
  · rw [resuming]
    exact accounted.single node network
  · rw [resuming, traffic]
    exact accounted.nonempty node network
  · have exact := accounted.exact node network other
    have sent : after.log.count (.sent node network other) =
        s.log.count (.sent node network other) := by simp [log]
    unfold State.places State.parked at exact ⊢
    rw [traffic, resuming, hands, sent, log, count_submitted, count_push]
    dsimp only
    omega

/-- A NIC initiator takes the head of its TX queue. -/
theorem take (accounted : Accounted s) {nid : Nid} {vn : Vn} {msg : MsgId}
    {rest : List MsgId} (head : s.traffic.tx nid vn = msg :: rest)
    (traffic : after.traffic = { s.traffic with
      tx := setQueue s.traffic.tx nid vn rest })
    (log : after.log = s.log)
    (resuming : ∀ nid vn, after.resuming nid vn = s.resuming nid vn)
    (hands : ∀ node network other, (after.hands node network).count other =
      (s.hands node network).count other +
        coincide nid vn msg node network other) : Accounted after := by
  refine ⟨fun node network => ?_, fun node network => ?_,
    fun node network other => ?_⟩
  · rw [resuming]
    exact accounted.single node network
  · rw [resuming, traffic]
    exact accounted.nonempty node network
  · have exact := accounted.exact node network other
    have popped := count_pop nid vn msg node network other head
    unfold State.places State.parked at exact ⊢
    rw [traffic, resuming, hands, log]
    dsimp only
    omega

/-- A message is sent. -/
theorem start (accounted : Accounted s) {nid : Nid} {vn : Vn} {msg : MsgId}
    (tx : after.traffic.tx = s.traffic.tx)
    (waiting : after.traffic.waiting = s.traffic.waiting)
    (log : after.log = s.log ++ [.sent nid vn msg])
    (resuming : ∀ nid vn, after.resuming nid vn = s.resuming nid vn)
    (hands : ∀ node network other, (after.hands node network).count other +
        coincide nid vn msg node network other =
      (s.hands node network).count other) : Accounted after := by
  refine ⟨fun node network => ?_, fun node network => ?_,
    fun node network other => ?_⟩
  · rw [resuming]
    exact accounted.single node network
  · rw [resuming, waiting]
    exact accounted.nonempty node network
  · have exact := accounted.exact node network other
    have held := hands node network other
    have submitted : after.log.count (.submitted node network other) =
        s.log.count (.submitted node network other) := by simp [log]
    unfold State.places State.parked at exact ⊢
    rw [tx, waiting, resuming, submitted, log, count_sent]
    omega

/-- A refused message is parked. -/
theorem park (accounted : Accounted s) {nid : Nid} {vn : Vn} {msg : MsgId}
    (absent : msg ∉ s.traffic.waiting nid vn)
    (traffic : after.traffic = { s.traffic with
      waiting := setQueue s.traffic.waiting nid vn
        (parking (s.traffic.waiting nid vn) msg) })
    (log : after.log = s.log)
    (resuming : ∀ nid vn, after.resuming nid vn = s.resuming nid vn)
    (hands : ∀ node network other, (after.hands node network).count other +
        coincide nid vn msg node network other =
      (s.hands node network).count other) : Accounted after := by
  have deque : after.traffic.waiting = setQueue s.traffic.waiting nid vn
      (s.traffic.waiting nid vn ++ [msg]) := by
    rw [traffic]
    unfold parking
    rw [if_neg absent]
  refine ⟨fun node network => ?_, fun node network => ?_,
    fun node network other => ?_⟩
  · rw [resuming]
    exact accounted.single node network
  · have bound := accounted.nonempty node network
    rw [resuming, deque, setQueue_apply]
    split
    · rename_i here
      rw [here.1, here.2] at bound ⊢
      rw [List.length_append]
      omega
    · exact bound
  · have exact := accounted.exact node network other
    have held := hands node network other
    have bound := accounted.nonempty node network
    have parked : (after.parked node network).count other =
        (s.parked node network).count other +
          coincide nid vn msg node network other := by
      unfold State.parked
      rw [resuming, deque, setQueue_apply]
      split
      · rename_i here
        obtain ⟨rfl, rfl⟩ := here
        rw [List.drop_append_of_le_length bound, List.count_append]
        simp [coincide, List.count_singleton]
      · rename_i here
        have elsewhere : ¬(nid = node ∧ vn = network ∧ msg = other) :=
          fun both => here ⟨both.1.symm, both.2.1.symm⟩
        simp [coincide, elsewhere]
    unfold State.places at exact ⊢
    rw [parked, log, show after.traffic.tx = s.traffic.tx by rw [traffic]]
    omega

/-- The head of a deque is put back in the TX queue. -/
theorem push (accounted : Accounted s) {nid : Nid} {vn : Vn} {msg : MsgId}
    {rest : List MsgId} (alone : s.resuming nid vn = 0)
    (head : s.traffic.waiting nid vn = msg :: rest)
    (traffic : after.traffic = { s.traffic with
      tx := setQueue s.traffic.tx nid vn (s.traffic.tx nid vn ++ [msg]) })
    (log : after.log = s.log)
    (resuming : ∀ node network, after.resuming node network =
      s.resuming node network +
        if nid = node ∧ vn = network then 1 else 0)
    (hands : ∀ nid vn msg, (after.hands nid vn).count msg =
      (s.hands nid vn).count msg) : Accounted after := by
  have waiting : after.traffic.waiting = s.traffic.waiting := by rw [traffic]
  refine ⟨fun node network => ?_, fun node network => ?_,
    fun node network other => ?_⟩
  · rw [resuming]
    split
    · rename_i here
      rw [← here.1, ← here.2, alone]
    · exact accounted.single node network
  · rw [resuming, waiting]
    split
    · rename_i here
      rw [← here.1, ← here.2, alone, head]
      simp
    · exact accounted.nonempty node network
  · have exact := accounted.exact node network other
    have parked : (s.parked node network).count other =
        (after.parked node network).count other +
          coincide nid vn msg node network other := by
      unfold State.parked coincide
      rw [resuming, waiting]
      by_cases here : nid = node ∧ vn = network
      · obtain ⟨rfl, rfl⟩ := here
        by_cases same : msg = other
        · simp [alone, head, same]
        · simp [alone, head, same]
      · have elsewhere : ¬(nid = node ∧ vn = network ∧ msg = other) :=
          fun both => here ⟨both.1, both.2.1⟩
        rw [if_neg here, if_neg elsewhere]
        simp
    have pushed := count_push nid vn msg node network other s.traffic.tx
    unfold State.places at exact ⊢
    rw [hands, log, show after.traffic.tx = _ by rw [traffic]]
    dsimp only at pushed ⊢
    omega

/-- The head of a deque is removed from it. -/
theorem pop (accounted : Accounted s) {nid : Nid} {vn : Vn} {msg : MsgId}
    {rest : List MsgId} (head : s.traffic.waiting nid vn = msg :: rest)
    (traffic : after.traffic = { s.traffic with
      waiting := setQueue s.traffic.waiting nid vn rest })
    (log : after.log = s.log)
    (resuming : ∀ node network, after.resuming node network +
        (if nid = node ∧ vn = network then 1 else 0) =
      s.resuming node network)
    (hands : ∀ nid vn msg, (after.hands nid vn).count msg =
      (s.hands nid vn).count msg) : Accounted after := by
  have deque : after.traffic.waiting = setQueue s.traffic.waiting nid vn rest := by
    rw [traffic]
  have single := accounted.single nid vn
  have popped := resuming nid vn
  rw [if_pos ⟨rfl, rfl⟩] at popped
  refine ⟨fun node network => ?_, fun node network => ?_,
    fun node network other => ?_⟩
  · have bound := accounted.single node network
    have fewer := resuming node network
    omega
  · have bound := accounted.nonempty node network
    have fewer := resuming node network
    rw [deque, setQueue_apply]
    split
    · rename_i here
      obtain ⟨rfl, rfl⟩ := here
      rw [if_pos ⟨rfl, rfl⟩] at fewer
      omega
    · omega
  · have exact := accounted.exact node network other
    have parked : after.parked node network = s.parked node network := by
      have fewer := resuming node network
      unfold State.parked
      rw [deque, setQueue_apply]
      by_cases here : node = nid ∧ network = vn
      · obtain ⟨rfl, rfl⟩ := here
        have before : s.resuming node network = 1 := by omega
        have nobody : after.resuming node network = 0 := by omega
        rw [if_pos ⟨rfl, rfl⟩, before, nobody, head]
        rfl
      · rw [if_neg fun both => here ⟨both.1.symm, both.2.symm⟩] at fewer
        rw [if_neg here, ← fewer, Nat.add_zero]
    unfold State.places at exact ⊢
    rw [parked, hands, log, show after.traffic.tx = s.traffic.tx by rw [traffic]]
    exact exact

/-- What a thread does keeps the account, unless it stops the simulation. -/
theorem run (accounted : Accounted s) {index : ThreadId} {op : Op}
    {rest new : List Op}
    (found : s.threads[index]? = some ⟨self, op :: rest⟩)
    (allowed : Undisturbed sys s (.run index))
    (carries : Carries sys self s op after new) (running : after.halted = none) :
    Accounted { after with
      threads := s.threads.set index ⟨self, new ++ rest⟩ } := by
  have resuming := resuming_run found new
  have hands := hands_run found new
  have idleResuming : op.carrying = false →
      (∀ added ∈ new, added.carrying = false) → ∀ nid vn,
      pending (Op.popping nid vn) (s.threads.set index ⟨self, new ++ rest⟩) =
        s.resuming nid vn := by
    intro idle nothing nid vn
    have weights := resuming nid vn
    rw [Op.popping_of_idle idle, popping_of_nothing nothing] at weights
    exact weights
  have idleHands : op.carrying = false →
      (∀ added ∈ new, added.carrying = false) → ∀ nid vn msg,
      (gather (Op.holding nid vn)
        (s.threads.set index ⟨self, new ++ rest⟩)).count msg =
        (s.hands nid vn).count msg := by
    intro idle nothing nid vn msg
    have counts := hands nid vn msg
    rw [Op.holding_of_idle idle, holding_of_nothing nothing] at counts
    exact counts
  have same : s.log = s.log ++ [] := by simp
  cases carries with
  | still idle nothing traffic silent =>
      exact accounted.keep (congrArg Traffic.tx traffic :)
        (congrArg Traffic.waiting traffic :) silent (idleResuming idle nothing)
        (idleHands idle nothing)
  | submit traffic log =>
      exact accounted.submit traffic log
        (idleResuming rfl (by simp [Op.carrying]))
        (idleHands rfl (by simp [Op.carrying]))
  | retry on traffic log =>
      exact accounted.submit traffic log
        (idleResuming rfl (by simp [Op.carrying]))
        (idleHands rfl (by simp [Op.carrying]))
  | mailbox off traffic log =>
      exact accounted.keep (congrArg Traffic.tx traffic :)
        (congrArg Traffic.waiting traffic :) ⟨[], log.trans same, by simp⟩
        (idleResuming rfl (by simp [Op.carrying]))
        (idleHands rfl (by simp [Op.carrying]))
  | @pass msg after tail passes nothing traffic silent =>
      refine accounted.keep (congrArg Traffic.tx traffic :)
        (congrArg Traffic.waiting traffic :) silent (fun nid vn => ?_)
        fun nid vn other => ?_
      · have weights := resuming nid vn
        rw [opsWeight_cons, popping_of_nothing nothing] at weights
        exact weights
      · have counts := hands nid vn other
        rw [List.flatMap_cons, holding_of_nothing nothing, List.append_nil,
          count_holding msg nid vn other (.inl rfl),
          count_holding msg nid vn other (.inr (.inl rfl))] at counts
        exact Nat.add_right_cancel counts
  | @park msg after subject refused traffic log =>
      refine accounted.park (allowed.refused found refused) traffic log
        (fun nid vn => resuming nid vn) fun nid vn other => ?_
      have counts := hands nid vn other
      rw [count_holding msg nid vn other (.inl rfl)] at counts
      exact counts
  | @init msg before nothing =>
      refine accounted.keep rfl rfl ⟨[], same, by simp⟩ (fun nid vn => ?_)
        fun nid vn other => ?_
      · have weights := resuming nid vn
        rw [opsWeight_append, popping_of_nothing nothing] at weights
        exact weights
      · have counts := hands nid vn other
        rw [List.flatMap_append, holding_of_nothing nothing, List.nil_append,
          List.flatMap_singleton, count_holding msg nid vn other (.inr (.inl rfl)),
          count_holding msg nid vn other (.inr (.inr rfl))] at counts
        exact Nat.add_right_cancel counts
  | @start msg after traffic log =>
      refine accounted.start (congrArg Traffic.tx traffic :)
        (congrArg Traffic.waiting traffic :) log
        (fun nid vn => resuming nid vn) fun nid vn other => ?_
      have counts := hands nid vn other
      rw [count_holding msg nid vn other (.inr (.inr rfl))] at counts
      exact counts
  | push waiting traffic log =>
      exact accounted.push (allowed.alone found (by simp [waiting])) waiting
        traffic log (fun nid vn => resuming nid vn)
        fun nid vn other => hands nid vn other
  | pop waiting traffic log =>
      exact accounted.pop waiting traffic log (fun nid vn => resuming nid vn)
        fun nid vn other => hands nid vn other
  | enqueue traffic log =>
      exact accounted.keep (congrArg Traffic.tx traffic :)
        (congrArg Traffic.waiting traffic :) ⟨[], log.trans same, by simp⟩
        (idleResuming rfl (by simp)) (idleHands rfl (by simp))
  | stop halted => exact absurd running halted

/-- A step keeps the account, unless it stops the simulation. -/
theorem advances (accounted : Accounted s) (wellScoped : WellScoped s)
    {label : Label} {index : ThreadId}
    (advances : Advances sys s index label after)
    (allowed : Undisturbed sys s label) (running : after.halted = none) :
    Accounted after := by
  have same : s.log = s.log ++ [] := by simp
  cases advances with
  | dangling dead owner => cases running
  | run found alive phase =>
      have within := wellScoped.ops _ (List.mem_of_getElem? found) _
        List.mem_cons_self
      exact accounted.run found allowed (phase.carries within) running
  | recv found target queued =>
      refine accounted.keep rfl rfl ⟨[], same, by simp⟩ (fun nid vn => ?_)
        fun nid vn other => ?_
      · exact resuming_start found _ nid vn
      · exact hands_start found _ nid vn other
  | @take self msg rest found initiator queued =>
      refine accounted.take queued ?_ rfl (fun nid vn => ?_)
        fun nid vn other => ?_
      · exact s.traffic_take queued
      · exact resuming_start found _ nid vn
      · have counts := hands_start found [.processTx msg] nid vn other
        rw [List.flatMap_singleton,
          count_holding msg nid vn other (.inl rfl)] at counts
        exact counts
  | @wake self msg rest found e2e alive queued =>
      have traffic := s.traffic_e2e self.nid List.tail
      refine accounted.keep (congrArg Traffic.tx traffic :)
        (congrArg Traffic.waiting traffic :) ⟨[], same, by simp⟩
        (fun nid vn => ?_) fun nid vn other => ?_
      · exact resuming_start found _ nid vn
      · exact hands_start found _ nid vn other
  | @call self call new after found user owned alive phase =>
      obtain ⟨traffic, log, nothing⟩ := phase.carries
      refine accounted.keep (congrArg Traffic.tx traffic :)
        (congrArg Traffic.waiting traffic :) ⟨[], log.trans same, by simp⟩
        (fun nid vn => ?_) fun nid vn other => ?_
      · have weights := resuming_start found new nid vn
        rw [popping_of_nothing nothing, Nat.add_zero] at weights
        exact weights
      · have counts := hands_start found new nid vn other
        rw [holding_of_nothing nothing, List.count_nil, Nat.add_zero] at counts
        exact counts

theorem initial (sys : Sys) : Accounted (initial sys) := by
  have nobody : ∀ thread ∈ (S4BXI.initial sys).threads, thread.ops = [] := by
    intro thread member
    obtain ⟨actor, _, rfl⟩ := List.mem_map.mp member
    rfl
  have resuming : ∀ nid vn, (S4BXI.initial sys).resuming nid vn = 0 := by
    intro nid vn
    apply pending_eq_zero
    intro thread member op pendingOp
    rw [nobody thread member] at pendingOp
    cases pendingOp
  have hands : ∀ nid vn, (S4BXI.initial sys).hands nid vn = [] := by
    intro nid vn
    apply List.flatMap_eq_nil_iff.mpr
    intro thread member
    rw [nobody thread member]
    rfl
  refine ⟨fun nid vn => ?_, fun nid vn => ?_, fun nid vn msg => ?_⟩
  · rw [resuming]
    exact Nat.zero_le _
  · rw [resuming]
    exact Nat.zero_le _
  · unfold State.places State.parked
    rw [hands, resuming]
    rfl

end Accounted

theorem ReachedBy.accounted {sys : Sys} {s : State}
    (reached : ReachedBy sys (Undisturbed sys) s) (running : s.halted = none) :
    Accounted s := by
  let Along (state : State) : Prop := state.halted = none → Accounted state
  have along : Along s := by
    refine reached.invariant_of_reached (fun _ => Accounted.initial sys) ?_
    intro before after label earlier accounted allowed stepped running
    exact (accounted (step_enabled stepped).1).advances
      (ReachedBy.wellScoped earlier) (step_advances stepped) allowed running
  exact along running

/-! ## Submissions -/

/-- The number of submissions of a message, made or to come. -/
def State.submissions (s : State) (msg : MsgId) : Nat :=
  s.log.countP (Obs.submits msg) + pending (Op.submitting msg) s.threads

section Submissions

variable {sys : Sys} {self : Actor} {s after : State}

/-- The operations which may announce a submission. -/
def Op.announces : Op → Bool
  | .handle _ | .sendAck _ _ _ | .getFinish _ _ _ | .fetchAtomicFinish _ _ _
  | .sendBxiAck _ _ | .cqAcquire _ _ => true
  | _ => false

/-- The operations which put a message in a TX queue for the first time. -/
def Op.submitsNow : Op → Bool
  | .txPut _ | .e2eWake _ => true
  | _ => false

theorem Follows.submitting {op added : Op}
    (follows : Follows sys self s op added) (silent : op.announces = false)
    (msg : MsgId) : added.submitting msg = 0 := by
  cases follows <;> first | rfl | cases silent

theorem Emits.submits {op : Op} {obs : Obs} (emits : Emits sys self s op obs)
    (silent : op.submitsNow = false) (msg : MsgId) :
    obs.submits msg = false := by
  cases emits <;> first | rfl | cases silent

/-- How an operation and those it leaves submit a message: every message is
announced when it is allocated. -/
theorem Phase.submissions {op : Op} {new : List Op}
    (phase : Phase sys self s op after new) (within : op.Within s.bounds)
    (msg : MsgId) :
    after.log.countP (Obs.submits msg) +
        opsWeight (Op.submitting msg) new ≤
      s.log.countP (Obs.submits msg) + op.submitting msg +
        if s.nextMsg = msg then 1 else 0 := by
  have logged : op.submitsNow = false →
      after.log.countP (Obs.submits msg) =
        s.log.countP (Obs.submits msg) := by
    intro silent
    obtain ⟨extra, log, emitted⟩ := phase.emits within
    have none : extra.countP (Obs.submits msg) = 0 := by
      apply List.countP_eq_zero.mpr
      intro obs member
      rw [(emitted obs member).submits silent msg]
      exact Bool.false_ne_true
    rw [log, List.countP_append, none, Nat.add_zero]
  have announced : op.announces = false →
      opsWeight (Op.submitting msg) new = 0 := fun silent =>
    opsWeight_eq_zero fun added member =>
      (phase.follows added member).submitting silent msg
  have counters : ∀ {ops : List Op}, (∀ op ∈ ops, op.submitting msg = 0) →
      opsWeight (Op.submitting msg) ops = 0 := opsWeight_eq_zero
  cases phase with
  | quiet quiet =>
      cases quiet with
      | unmatched type fresh absent asked =>
          rw [logged rfl]
          simp [Op.submitting]
      | acknowledged known => simp [Op.submitting]
      | _ =>
          rw [logged rfl]
          first
            | rw [opsWeight_nil]; omega
            | rw [announced rfl]; omega
  | respondUnmatched type fetches fresh absent =>
      rw [logged rfl]
      simp [Op.submitting]
  | @matched msg pt list me fail kind effects stop type fresh found memory
      later stops =>
      rw [logged rfl, opsWeight_append, counters (meCounter_every fun _ _ => rfl)]
      cases kind <;> simp [Op.submitting, finishing]
  | handleResponse type =>
      rw [logged rfl]
      simp [Op.submitting, releaseAnswered]
  | handlePtlAck type =>
      rw [logged rfl]
      simp [Op.submitting, releaseAnswered]
  | ackWithoutAnswer type fresh missing =>
      rw [logged rfl, opsWeight_nil]
      omega
  | handleBxiAck type fresh answers =>
      rw [logged rfl]
      simp [Op.submitting]
  | quickAck quick =>
      rw [logged rfl, opsWeight_cons, opsWeight_cons,
        counters (issueAck_every (fun _ _ => rfl) rfl)]
      simp [Op.submitting]
  | sendAck slow =>
      rw [logged rfl]
      simp [Op.submitting]
  | getFinish memory stops leaves =>
      obtain ⟨first, last⟩ := leaves.every
        (P := fun op => op.submitting msg = 0) (fun _ _ _ => rfl) rfl
      rw [logged rfl, opsWeight_append, opsWeight_append, counters first,
        counters last]
      simp [Op.submitting]
  | fetchAtomicFinish leaves =>
      obtain ⟨first, last⟩ := leaves.every
        (P := fun op => op.submitting msg = 0) (fun _ _ _ => rfl) rfl
      rw [logged rfl, opsWeight_append, opsWeight_append, counters first,
        counters last]
      simp [Op.submitting]
  | txPut =>
      simp [S4BXI.txPut, State.emit, State.modNode, List.countP_append,
        Op.submitting, Obs.submits]
  | sendBxiAck on =>
      rw [logged rfl]
      simp [Op.submitting]
  | gaveUp pending last => simp [Op.submitting, State.modNode]
  | retransmit pending more =>
      unfold S4BXI.retransmit
      dsimp only
      split
      · simp [S4BXI.txPut, State.emit, State.modNode, State.newMsg,
          State.modMsg, List.countP_append, Op.submitting, Obs.submits]
      · simp [State.modNode, State.newMsg, State.modMsg, Op.submitting]
  | retryPanic pending beyond => simp [Op.submitting, State.halt]
  | cqAcquire left =>
      rw [logged rfl]
      simp [Op.submitting]
  | _ =>
      rw [logged rfl, announced rfl]
      omega

theorem CallPhase.submissions {call : Call} {new : List Op}
    (phase : CallPhase sys self s call after new) (msg : MsgId) :
    opsWeight (Op.submitting msg) new ≤
      if s.nextMsg = msg then 1 else 0 := by
  cases phase with
  | appendPriority taken => simp [Op.submitting]
  | appendOverflow taken =>
      rw [opsWeight_eq_zero (issueLink_every fun _ _ _ => rfl)]
      exact Nat.zero_le _
  | request => simp [Op.submitting]
  | _ => simp

/-- A message which was not allocated has not been submitted. -/
theorem WellScoped.submissions_fresh (wellScoped : WellScoped s)
    {msg : MsgId} (fresh : s.nextMsg ≤ msg) : s.submissions msg = 0 := by
  have log : s.log.countP (Obs.submits msg) = 0 := by
    apply List.countP_eq_zero.mpr
    intro obs member submits
    have within := wellScoped.tables.log obs member
    cases obs with
    | submitted nid vn other =>
        have same : other = msg := by simpa [Obs.submits] using submits
        subst same
        exact absurd within (not_lt.mpr fresh)
    | _ => cases submits
  have ops : pending (Op.submitting msg) s.threads = 0 := by
    apply pending_eq_zero
    intro thread member op pendingOp
    have within := wellScoped.ops thread member op pendingOp
    have old : ∀ other, other < s.nextMsg → ¬other = msg :=
      fun other below same => absurd fresh (not_le.mpr (same ▸ below))
    cases op with
    | txPut other => exact if_neg (old other within)
    | cqAcquire ni other => exact if_neg (old other within)
    | getFinish other me response => exact if_neg (old response within.2.2)
    | fetchAtomicFinish other me response =>
        exact if_neg (old response within.2.2)
    | _ => rfl
  unfold State.submissions
  rw [log, ops]

/-- A step submits only the message it allocates. -/
theorem Advances.submissions {index : ThreadId} {label : Label}
    (advances : Advances sys s index label after)
    (wellScoped : WellScoped s) (msg : MsgId) :
    after.submissions msg ≤
      s.submissions msg + if s.nextMsg = msg then 1 else 0 := by
  unfold State.submissions
  cases advances with
  | dangling dead owner => exact Nat.le_add_right _ _
  | @run self op rest new after found alive phase =>
      have within := wellScoped.ops _ (List.mem_of_getElem? found) _
        List.mem_cons_self
      have bound := phase.submissions within msg
      have weights := @pending_set _ _ (Op.submitting msg) _ _ _
        ⟨self, new ++ rest⟩ found
      rw [opsWeight_append, opsWeight_cons] at weights
      dsimp only
      omega
  | @recv self position other found target queued =>
      have weights := @pending_set _ _ (Op.submitting msg) _ _ _
        ⟨self, [.handle other, .unref other]⟩ found
      simp [Op.submitting] at weights
      simp only [State.removeRx, weights]
      omega
  | @take self other rest found initiator queued =>
      have weights := @pending_set _ _ (Op.submitting msg) _ _ _
        ⟨self, [.processTx other]⟩ found
      simp [Op.submitting] at weights
      simp only [State.popTx, State.modNode, weights]
      omega
  | @wake self other rest found e2e alive queued =>
      have weights := @pending_set _ _ (Op.submitting msg) _ _ _
        ⟨self, [.e2eWake other]⟩ found
      simp [Op.submitting] at weights
      simp only [State.popE2e, State.modNode, weights]
      omega
  | @call self call new after found user owned alive phase =>
      have weights := @pending_set _ _ (Op.submitting msg) _ _ _
        ⟨self, new⟩ found
      rw [opsWeight_nil] at weights
      dsimp only at weights
      have bound := phase.submissions msg
      have log : after.log = s.log := phase.carries.2.1
      dsimp only
      rw [log]
      omega

/-- Every message is submitted at most once. -/
theorem ReachedBy.submissions_le_one {allowed : State → Label → Prop}
    (reached : ReachedBy sys allowed s) (msg : MsgId) :
    s.submissions msg ≤ 1 := by
  let Once (state : State) : Prop := state.submissions msg ≤ 1
  have once : Once s := by
    refine reached.invariant_of_reached ?_ ?_
    · have fresh := (wellScoped_initial sys).submissions_fresh (Nat.zero_le msg)
      change (initial sys).submissions msg ≤ 1
      rw [fresh]
      exact Nat.zero_le 1
    · intro before after label earlier once _ stepped
      have wellScoped := ReachedBy.wellScoped earlier
      have bound := (step_advances stepped).submissions wellScoped msg
      change before.submissions msg ≤ 1 at once
      change after.submissions msg ≤ 1
      by_cases new : before.nextMsg = msg
      · have fresh := wellScoped.submissions_fresh (le_of_eq new)
        rw [fresh, if_pos new] at bound
        exact bound
      · rw [if_neg new] at bound
        omega
  exact once

/-- Submissions of a message on two networks are two submissions. -/
theorem count_submitted_le (log : List Obs) {nid node : Nid}
    {vn network : Vn} (msg : MsgId) (elsewhere : ¬(node = nid ∧ network = vn)) :
    log.count (.submitted nid vn msg) + log.count (.submitted node network msg) ≤
      log.countP (Obs.submits msg) := by
  induction log with
  | nil => exact Nat.le_refl 0
  | cons obs log induction =>
      simp only [List.count_cons, List.countP_cons]
      by_cases first : obs = .submitted nid vn msg
      · have second : ¬obs = .submitted node network msg := by
          rintro rfl
          cases first
          exact elsewhere ⟨rfl, rfl⟩
        subst first
        simp [second, Obs.submits]
        omega
      · by_cases second : obs = .submitted node network msg
        · subst second
          simp [first, Obs.submits]
          omega
        · simp only [first, second, beq_iff_eq, if_false]
          omega

end Submissions

/-! ## Flow control loses and duplicates no message -/

/-- In every run in which no message is refused while it is still at the head
of the deque, and no deque is put back by two actors at once, every message put
in a TX queue is in exactly one place: in that queue, parked, in the hands of a
NIC initiator or sent. -/
theorem message_in_one_place {sys : Sys} {s : State}
    (reached : ReachedBy sys (Undisturbed sys) s) (running : s.halted = none)
    {nid : Nid} {vn : Vn} {msg : MsgId}
    (submitted : .submitted nid vn msg ∈ s.log) :
    s.places nid vn msg = 1 ∧
      ∀ node network, ¬(node = nid ∧ network = vn) →
        s.places node network msg = 0 := by
  have accounted := ReachedBy.accounted reached running
  have once := ReachedBy.submissions_le_one reached msg
  unfold State.submissions at once
  have first := List.count_pos_iff.mpr submitted
  have alone : ∀ node network, ¬(node = nid ∧ network = vn) →
      s.log.count (.submitted node network msg) = 0 ∧
        s.log.count (.submitted nid vn msg) = 1 := by
    intro node network elsewhere
    have both := count_submitted_le s.log msg elsewhere
    omega
  refine ⟨?_, fun node network elsewhere => ?_⟩
  · rw [accounted.exact]
    exact (alone (nid + 1) vn (by simp)).2
  · rw [accounted.exact]
    exact (alone node network elsewhere).1

/-- `PtlPut` of eight bytes from the first application to a node. -/
def putsTo (nid : Nid) (ack : AckReq) : Label :=
  .call 0 (.request
    { md := { ni := 0, start := 500, length := 8, eqHandle := some 3 }
      length := 8
      ackReq := ack
      targetNid := nid
      targetPid := 10 + nid })

/-- One credit for every node and no PCI transfer of commands. -/
def oneCredit : Sys :=
  twoNodes { maxInflightToTarget := 1 }
    { e2eOff := false, modelPciCommands := false }

/-- Two Puts to the second node: the second one is parked. -/
def parkedPut : List Label :=
  putsTo 1 .ackReq :: runs 0 3 ++ .take 1 :: runs 1 10 ++
    putsTo 1 .ackReq :: runs 0 3 ++ .take 1 :: runs 1 1

theorem parked_put_in_one_place :
    ∃ s, ReachedBy oneCredit (Undisturbed oneCredit) s ∧
      1 ∈ s.parked 0 .computeRequest ∧ s.places 0 .computeRequest 1 = 1 := by
  obtain ⟨s, reached, holds⟩ := reachedBy_of_executes oneCredit
    (Undisturbed oneCredit) parkedPut (fun s => s.halted.isNone &&
      decide (Obs.submitted 0 .computeRequest 1 ∈ s.log) &&
      decide (1 ∈ s.parked 0 .computeRequest)) (by decide +kernel)
  simp only [Bool.and_eq_true, Option.isNone_iff_eq_none,
    decide_eq_true_eq] at holds
  exact ⟨s, reached, holds.2, (message_in_one_place reached holds.1.1
    holds.1.2).1⟩

/-- A third Put, to the first node itself, is acknowledged.  The release puts
the parked message back; its NIC initiator refuses it again and finds it still
in the deque, from which it is then removed. -/
def crossedRelease : List Label :=
  parkedPut ++ putsTo 0 .ackReq :: runs 0 3 ++ .take 1 :: runs 1 10 ++
    .recv 3 0 :: runs 3 5 ++ .take 2 :: runs 2 5 ++ .recv 4 0 :: runs 4 4 ++
    .take 1 :: runs 1 1 ++ runs 4 11

theorem parked_message_lost :
    ∃ s, Reachable oneCredit s ∧ s.halted = none ∧
      .submitted 0 .computeRequest 1 ∈ s.log ∧
      1 ∉ s.traffic.tx 0 .computeRequest ∧
      1 ∉ s.traffic.waiting 0 .computeRequest ∧
      1 ∉ s.hands 0 .computeRequest ∧ .sent 0 .computeRequest 1 ∉ s.log := by
  obtain ⟨s, reached, holds⟩ := reachable_of_executes oneCredit crossedRelease
    (fun s => s.halted.isNone &&
      decide (Obs.submitted 0 .computeRequest 1 ∈ s.log) &&
      decide (1 ∉ s.traffic.tx 0 .computeRequest) &&
      decide (1 ∉ s.traffic.waiting 0 .computeRequest) &&
      decide (1 ∉ s.hands 0 .computeRequest) &&
      decide (Obs.sent 0 .computeRequest 1 ∉ s.log)) (by decide +kernel)
  simp only [Bool.and_eq_true, Option.isNone_iff_eq_none,
    decide_eq_true_eq] at holds
  obtain ⟨⟨⟨⟨⟨running, submitted⟩, tx⟩, waiting⟩, hands⟩, sent⟩ := holds
  exact ⟨s, reached, running, submitted, tx, waiting, hands, sent⟩

end S4BXI
