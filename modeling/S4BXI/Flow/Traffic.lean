import S4BXI.Safety.Effects

/-!
# Messages on their way

Where the messages of all nodes wait: TX queues, deques of parked messages, RX
mailboxes, E2E queues and the mailboxes nobody reads.  `Carries` says how an
operation moves messages between these places and the hands of its actor; all
properties of message transport are proved from it.
-/

namespace S4BXI

open Lib

/-- The messages which wait somewhere. -/
@[ext] structure Traffic where
  tx : Nid → Vn → List MsgId
  waiting : Nid → Vn → List MsgId
  rx : Nid → Vn → List MsgId
  e2e : Nid → List MsgId
  mailbox : Nid → Vn → List MsgId

def State.traffic (s : State) : Traffic where
  tx nid vn := (s.nodes nid).txQueues vn
  waiting nid vn := (s.nodes nid).flowctrlWaitingMessages vn
  rx := s.rx
  e2e nid := (s.nodes nid).e2eQueue
  mailbox nid vn := (s.nodes nid).nicTxMailbox vn

/-- One of the queues of a table gets a new content. -/
def setQueue (queues : Nid → Vn → List MsgId) (nid : Nid) (vn : Vn)
    (queue : List MsgId) : Nid → Vn → List MsgId :=
  Function.update queues nid (Function.update (queues nid) vn queue)

theorem setQueue_apply (queues : Nid → Vn → List MsgId) (nid : Nid) (vn : Vn)
    (queue : List MsgId) (other : Nid) (network : Vn) :
    setQueue queues nid vn queue other network =
      if other = nid ∧ network = vn then queue else queues other network := by
  unfold setQueue
  simp only [Function.update_apply]
  by_cases node : other = nid
  · subst node
    simp [Function.update_apply]
  · simp [node]

/-- A deque after a refused message was parked. -/
def parking (deque : List MsgId) (msg : MsgId) : List MsgId :=
  if msg ∈ deque then deque else deque ++ [msg]

/-- Whether an operation holds a message for the network or has still to remove
one from a deque. -/
def Op.carrying : Op → Bool
  | .processTx _ | .commInit _ | .commStart _ | .resumePop _ _ => true
  | _ => false

/-- Whether an entry of the log is about the way of a message. -/
def Obs.moves : Obs → Bool
  | .submitted _ _ _ | .sent _ _ _ => true
  | _ => false

/-- The log grows by entries which are not about the way of a message. -/
def Silent (s after : State) : Prop :=
  ∃ extra, after.log = s.log ++ extra ∧ ∀ obs ∈ extra, obs.moves = false

section Operations

variable (sys : Sys) (self : Actor) (s : State)

/-- How an operation moves messages. -/
inductive Carries : Op → State → List Op → Prop where
  | still {op after new} (idle : op.carrying = false)
      (nothing : ∀ added ∈ new, added.carrying = false)
      (traffic : after.traffic = s.traffic) (silent : Silent s after) :
      Carries op after new
  | submit {msg after} (traffic : after.traffic = { s.traffic with
        tx := setQueue s.traffic.tx self.nid self.txVn
          (s.traffic.tx self.nid self.txVn ++ [msg]) })
      (log : after.log = s.log ++ [.submitted self.nid self.txVn msg]) :
      Carries (.txPut msg) after [.resched]
  | retry {msg after} (on : sys.modelPciCommands self.nid = true)
      (traffic : after.traffic = { s.traffic with
        tx := setQueue s.traffic.tx self.nid (s.vnOf msg)
          (s.traffic.tx self.nid (s.vnOf msg) ++ [s.nextMsg]) })
      (log : after.log =
        s.log ++ [.submitted self.nid (s.vnOf msg) s.nextMsg]) :
      Carries (.e2eWake msg) after [.resched, .unref msg]
  | mailbox {msg after} (off : sys.modelPciCommands self.nid = false)
      (traffic : after.traffic = { s.traffic with
        mailbox := setQueue s.traffic.mailbox self.nid (s.vnOf msg)
          (s.traffic.mailbox self.nid (s.vnOf msg) ++ [s.nextMsg]) })
      (log : after.log = s.log) :
      Carries (.e2eWake msg) after [.resched, .unref msg]
  | pass {msg after tail}
      (passes : (checkFlowctrl sys s self.nid msg).1 = .granted)
      (nothing : ∀ added ∈ tail, added.carrying = false)
      (traffic : after.traffic = s.traffic) (silent : Silent s after) :
      Carries (.processTx msg) after (.commInit msg :: tail)
  | park {msg after} (subject : exemptFromFlowctrl sys s self.nid msg = false)
      (refused : (checkFlowctrl sys s self.nid msg).1 = .refused)
      (traffic : after.traffic = { s.traffic with
        waiting := setQueue s.traffic.waiting self.nid self.vn
          (parking (s.traffic.waiting self.nid self.vn) msg) })
      (log : after.log = s.log) :
      Carries (.processTx msg) after []
  | init {msg} (before : List Op)
      (nothing : ∀ added ∈ before, added.carrying = false) :
      Carries (.commInit msg) s (before ++ [.commStart msg])
  | start {msg after} (traffic : after.traffic = { s.traffic with
        rx := setQueue s.rx (s.msgs msg).target self.vn
          (s.rx (s.msgs msg).target self.vn ++ [msg]) })
      (log : after.log = s.log ++ [.sent self.nid self.vn msg]) :
      Carries (.commStart msg) after []
  | push {nid vn parked rest after}
      (waiting : s.traffic.waiting nid vn = parked :: rest)
      (traffic : after.traffic = { s.traffic with
        tx := setQueue s.traffic.tx nid vn
          (s.traffic.tx nid vn ++ [parked]) })
      (log : after.log = s.log) :
      Carries (.resumeLoop nid vn) after [.resumePop nid vn]
  | pop {nid vn parked rest after}
      (waiting : s.traffic.waiting nid vn = parked :: rest)
      (traffic : after.traffic = { s.traffic with
        waiting := setQueue s.traffic.waiting nid vn rest })
      (log : after.log = s.log) :
      Carries (.resumePop nid vn) after [.resumeLoop nid vn]
  | enqueue {msg after} (traffic : after.traffic = { s.traffic with
        e2e := Function.update s.traffic.e2e self.nid
          (s.traffic.e2e self.nid ++ [msg]) })
      (log : after.log = s.log) :
      Carries (.e2eEnqueue msg) after []
  | stop {op after} (halted : after.halted ≠ none) : Carries op after []

end Operations

section Phases

variable {sys : Sys} {self : Actor} {s after : State}

/-- Only three operations leave a message in the hands of an actor. -/
theorem Follows.carrying {op added : Op} (follows : Follows sys self s op added)
    (carries : added.carrying = true) :
    (∃ msg, op = .processTx msg ∧ added = .commInit msg) ∨
      (∃ msg, op = .commInit msg ∧ added = .commStart msg) ∨
      ∃ nid vn, op = .resumeLoop nid vn ∧ added = .resumePop nid vn := by
  cases follows with
  | commInit => exact .inl ⟨_, rfl, rfl⟩
  | commStart => exact .inr (.inl ⟨_, rfl, rfl⟩)
  | resumePop => exact .inr (.inr ⟨_, _, rfl, rfl⟩)
  | @matched msg pt list me fail kind type found => cases kind <;> cases carries
  | _ => cases carries

/-- Only three operations log the way of a message. -/
theorem Emits.moves {op : Op} {obs : Obs} (emits : Emits sys self s op obs)
    (moves : obs.moves = true) :
    (∃ msg, op = .txPut msg) ∨ (∃ msg, op = .e2eWake msg) ∨
      ∃ msg, op = .commStart msg := by
  cases emits with
  | submitted => exact .inl ⟨_, rfl⟩
  | resubmitted => exact .inr (.inl ⟨_, rfl⟩)
  | sent => exact .inr (.inr ⟨_, rfl⟩)
  | _ => cases moves

theorem State.traffic_of_nodes (rx : after.rx = s.rx)
    (nodes : after.nodes = s.nodes) : after.traffic = s.traffic := by
  unfold State.traffic
  rw [rx, nodes]

/-- A node changes, and its queues with it. -/
theorem State.traffic_modNode (s : State) (nid : Nid) (f : BxiNode → BxiNode) :
    (s.modNode nid f).traffic =
      { tx := Function.update s.traffic.tx nid (f (s.nodes nid)).txQueues
        waiting := Function.update s.traffic.waiting nid
          (f (s.nodes nid)).flowctrlWaitingMessages
        rx := s.rx
        e2e := Function.update s.traffic.e2e nid (f (s.nodes nid)).e2eQueue
        mailbox := Function.update s.traffic.mailbox nid
          (f (s.nodes nid)).nicTxMailbox } := by
  apply Traffic.ext <;> funext other
  · by_cases node : other = nid
    · subst node
      simp [State.traffic, State.modNode]
    · simp [State.traffic, State.modNode, node]
  · by_cases node : other = nid
    · subst node
      simp [State.traffic, State.modNode]
    · simp [State.traffic, State.modNode, node]
  · rfl
  · by_cases node : other = nid
    · subst node
      simp [State.traffic, State.modNode]
    · simp [State.traffic, State.modNode, node]
  · by_cases node : other = nid
    · subst node
      simp [State.traffic, State.modNode]
    · simp [State.traffic, State.modNode, node]

theorem Traffic.tx_self (s : State) (nid : Nid) :
    Function.update s.traffic.tx nid (s.nodes nid).txQueues = s.traffic.tx :=
  Function.update_eq_self nid s.traffic.tx

theorem Traffic.waiting_self (s : State) (nid : Nid) :
    Function.update s.traffic.waiting nid
      (s.nodes nid).flowctrlWaitingMessages = s.traffic.waiting :=
  Function.update_eq_self nid s.traffic.waiting

theorem Traffic.e2e_self (s : State) (nid : Nid) :
    Function.update s.traffic.e2e nid (s.nodes nid).e2eQueue =
      s.traffic.e2e :=
  Function.update_eq_self nid s.traffic.e2e

theorem Traffic.mailbox_self (s : State) (nid : Nid) :
    Function.update s.traffic.mailbox nid (s.nodes nid).nicTxMailbox =
      s.traffic.mailbox :=
  Function.update_eq_self nid s.traffic.mailbox

/-- A node changes, but not its queues. -/
theorem State.traffic_kept (s : State) {nid : Nid} {f : BxiNode → BxiNode}
    (tx : (f (s.nodes nid)).txQueues = (s.nodes nid).txQueues)
    (waiting : (f (s.nodes nid)).flowctrlWaitingMessages =
      (s.nodes nid).flowctrlWaitingMessages)
    (e2e : (f (s.nodes nid)).e2eQueue = (s.nodes nid).e2eQueue)
    (mailbox : (f (s.nodes nid)).nicTxMailbox =
      (s.nodes nid).nicTxMailbox) :
    (s.modNode nid f).traffic = s.traffic := by
  rw [s.traffic_modNode, tx, waiting, e2e, mailbox, Traffic.tx_self,
    Traffic.waiting_self, Traffic.e2e_self, Traffic.mailbox_self]
  rfl

theorem State.traffic_setCounts (s : State) (nid : Nid)
    (nodeCounts : Vn → Nid → Option Int)
    (processCounts : Vn → FlowctrlProcessId → Option Int) :
    (s.setCounts nid nodeCounts processCounts).traffic = s.traffic :=
  s.traffic_kept rfl rfl rfl rfl

theorem State.traffic_emit (s : State) (obs : Obs) :
    (s.emit obs).traffic = s.traffic := rfl

theorem State.traffic_pushTx (s : State) (nid : Nid) (vn : Vn) (msg : MsgId) :
    (s.modNode nid fun node => node.pushTx vn msg).traffic =
      { s.traffic with
        tx := setQueue s.traffic.tx nid vn (s.traffic.tx nid vn ++ [msg]) } := by
  rw [s.traffic_modNode]
  simp only [BxiNode.pushTx, Traffic.waiting_self, Traffic.e2e_self,
    Traffic.mailbox_self]
  rfl

theorem State.traffic_popTx (s : State) (nid : Nid) (vn : Vn) :
    (s.popTx nid vn).traffic =
      { s.traffic with
        tx := setQueue s.traffic.tx nid vn (s.traffic.tx nid vn).tail } := by
  unfold State.popTx
  rw [s.traffic_modNode]
  simp only [BxiNode.popTx, Traffic.waiting_self, Traffic.e2e_self,
    Traffic.mailbox_self]
  rfl

theorem State.traffic_take (s : State) {nid : Nid} {vn : Vn} {msg : MsgId}
    {rest : List MsgId} (queued : (s.nodes nid).txQueues vn = msg :: rest) :
    (s.popTx nid vn).traffic =
      { s.traffic with tx := setQueue s.traffic.tx nid vn rest } := by
  have head : s.traffic.tx nid vn = msg :: rest := queued
  rw [s.traffic_popTx, head]
  rfl

theorem State.traffic_popWaiting (s : State) (nid : Nid) (vn : Vn) :
    (s.modNode nid fun node => node.popWaiting vn).traffic =
      { s.traffic with
        waiting := setQueue s.traffic.waiting nid vn
          (s.traffic.waiting nid vn).tail } := by
  rw [s.traffic_modNode]
  simp only [BxiNode.popWaiting, Traffic.tx_self, Traffic.e2e_self,
    Traffic.mailbox_self]
  rfl

theorem BxiNode.park_waiting (node : BxiNode) (vn : Vn) (msg : MsgId) :
    (node.park vn msg).flowctrlWaitingMessages =
      Function.update node.flowctrlWaitingMessages vn
        (parking (node.flowctrlWaitingMessages vn) msg) := by
  unfold BxiNode.park parking
  split
  · exact (Function.update_eq_self vn _).symm
  · rfl

theorem BxiNode.park_others (node : BxiNode) (vn : Vn) (msg : MsgId) :
    (node.park vn msg).txQueues = node.txQueues ∧
      (node.park vn msg).e2eQueue = node.e2eQueue ∧
      (node.park vn msg).nicTxMailbox = node.nicTxMailbox := by
  unfold BxiNode.park
  split <;> exact ⟨rfl, rfl, rfl⟩

theorem State.traffic_park (s : State) (nid : Nid) (vn : Vn) (msg : MsgId) :
    (s.modNode nid fun node => node.park vn msg).traffic =
      { s.traffic with
        waiting := setQueue s.traffic.waiting nid vn
          (parking (s.traffic.waiting nid vn) msg) } := by
  obtain ⟨tx, e2e, mailbox⟩ := (s.nodes nid).park_others vn msg
  rw [s.traffic_modNode, tx, e2e, mailbox, BxiNode.park_waiting,
    Traffic.tx_self, Traffic.e2e_self, Traffic.mailbox_self]
  rfl

theorem State.traffic_e2e (s : State) (nid : Nid)
    (queue : List MsgId → List MsgId) :
    (s.modNode nid fun node =>
        { node with e2eQueue := queue node.e2eQueue }).traffic =
      { s.traffic with
        e2e := Function.update s.traffic.e2e nid
          (queue (s.traffic.e2e nid)) } := by
  rw [s.traffic_modNode]
  simp only [Traffic.tx_self, Traffic.waiting_self, Traffic.mailbox_self]
  rfl

theorem State.traffic_mailbox (s : State) (nid : Nid) (vn : Vn)
    (msg : MsgId) :
    (s.modNode nid fun node =>
        { node with
          nicTxMailbox := Function.update node.nicTxMailbox vn
            (node.nicTxMailbox vn ++ [msg]) }).traffic =
      { s.traffic with
        mailbox := setQueue s.traffic.mailbox nid vn
          (s.traffic.mailbox nid vn ++ [msg]) } := by
  rw [s.traffic_modNode]
  simp only [Traffic.tx_self, Traffic.waiting_self, Traffic.e2e_self]
  rfl

/-- The answer of `check_flowctrl`. -/
theorem checkFlowctrl_answer (sys : Sys) (s : State) (nid : Nid)
    (msg : MsgId) :
    (checkFlowctrl sys s nid msg).1 =
      if exemptFromFlowctrl sys s nid msg then .granted
      else ((s.nodes nid).checkCredits sys.cfg (s.vnOf msg)
        (flowctrlKey sys s msg)).1 := by
  unfold checkFlowctrl
  split
  · rfl
  · dsimp only
    split
    · rename_i answer
      exact answer.symm
    · rfl

/-- Memory accesses and the other effects which are not moves. -/
theorem Phase.silent {op : Op} {new : List Op}
    (phase : Phase sys self s op after new) (within : op.Within s.bounds)
    (submits : ∀ msg, op ≠ .txPut msg) (retries : ∀ msg, op ≠ .e2eWake msg)
    (starts : ∀ msg, op ≠ .commStart msg) : Silent s after := by
  obtain ⟨extra, log, emitted⟩ := phase.emits within
  refine ⟨extra, log, fun obs member => ?_⟩
  cases moves : obs.moves with
  | false => rfl
  | true =>
      rcases (emitted obs member).moves moves with
        ⟨msg, equal⟩ | ⟨msg, equal⟩ | ⟨msg, equal⟩
      · exact absurd equal (submits msg)
      · exact absurd equal (retries msg)
      · exact absurd equal (starts msg)

theorem Phase.nothing_carried {op : Op} {new : List Op}
    (phase : Phase sys self s op after new)
    (passes : ∀ msg, op ≠ .processTx msg) (inits : ∀ msg, op ≠ .commInit msg)
    (resumes : ∀ nid vn, op ≠ .resumeLoop nid vn) :
    ∀ added ∈ new, added.carrying = false := by
  intro added member
  cases carries : added.carrying with
  | false => rfl
  | true =>
      rcases (phase.follows added member).carrying carries with
        ⟨msg, equal, _⟩ | ⟨msg, equal, _⟩ | ⟨nid, vn, equal, _⟩
      · exact absurd equal (passes msg)
      · exact absurd equal (inits msg)
      · exact absurd equal (resumes nid vn)

theorem transmit_carries (s : State) (msg : MsgId) :
    ∃ tail, transmit s msg = .commInit msg :: tail ∧
      ∀ added ∈ tail, added.carrying = false := by
  rcases transmit_cases s msg with ⟨_, ops⟩ | ops | ⟨_, ops⟩
  · exact ⟨_, ops, by simp [Op.carrying]⟩
  · exact ⟨_, ops, by simp⟩
  · exact ⟨_, ops, by simp [Op.carrying]⟩

/-- A copy reaches the TX queue which is built on the mailbox. -/
theorem retransmit_on (s : State) (msg : MsgId)
    (on : sys.modelPciCommands self.nid = true) :
    (retransmit sys self s msg).traffic =
        { s.traffic with
          tx := setQueue s.traffic.tx self.nid (s.vnOf msg)
            (s.traffic.tx self.nid (s.vnOf msg) ++ [s.nextMsg]) } ∧
      (retransmit sys self s msg).log =
        s.log ++ [.submitted self.nid (s.vnOf msg) s.nextMsg] := by
  let copied := ((s.modMsg msg fun m =>
    { m with retryCount := m.retryCount + 1 }).newMsg
      ((s.modMsg msg fun m =>
        { m with retryCount := m.retryCount + 1 }).msgs msg).copy).modNode
    self.nid fun node => { node with e2eRetried := node.e2eRetried + 1 }
  have same : copied.traffic = s.traffic :=
    State.traffic_kept _ rfl rfl rfl rfl
  unfold retransmit
  rw [if_pos on]
  refine ⟨?_, rfl⟩
  rw [← same]
  exact copied.traffic_pushTx self.nid (s.vnOf msg) s.nextMsg

/-- A copy reaches a mailbox which is not a queue of the NIC initiators. -/
theorem retransmit_off (s : State) (msg : MsgId)
    (off : sys.modelPciCommands self.nid = false) :
    (retransmit sys self s msg).traffic =
        { s.traffic with
          mailbox := setQueue s.traffic.mailbox self.nid (s.vnOf msg)
            (s.traffic.mailbox self.nid (s.vnOf msg) ++ [s.nextMsg]) } ∧
      (retransmit sys self s msg).log = s.log := by
  let copied := ((s.modMsg msg fun m =>
    { m with retryCount := m.retryCount + 1 }).newMsg
      ((s.modMsg msg fun m =>
        { m with retryCount := m.retryCount + 1 }).msgs msg).copy).modNode
    self.nid fun node => { node with e2eRetried := node.e2eRetried + 1 }
  have same : copied.traffic = s.traffic :=
    State.traffic_kept _ rfl rfl rfl rfl
  unfold retransmit
  rw [if_neg (by simp [off])]
  refine ⟨?_, rfl⟩
  rw [← same]
  exact copied.traffic_mailbox self.nid (s.vnOf msg) s.nextMsg

/-- How every operation moves messages. -/
theorem Phase.carries {op : Op} {new : List Op}
    (phase : Phase sys self s op after new) (within : op.Within s.bounds) :
    Carries sys self s op after new := by
  have silent := phase.silent within
  have nothing := phase.nothing_carried
  cases phase with
  | quiet quiet =>
      cases quiet with
      | @commInit msg =>
          rcases commInit_cases sys self s msg with
            ⟨_, _, ⟨_, ops⟩ | ⟨_, ops⟩⟩ | ⟨_, ops⟩
          · rw [ops]
            exact .init [.acquireE2eEntry msg, .e2eEnqueue msg]
              (by simp [Op.carrying])
          · rw [ops]
            exact .init [.e2eEnqueue msg] (by simp [Op.carrying])
          · rw [ops]
            exact .init [] (by simp)
      | resumeDone waiting =>
          exact .still rfl (by simp) rfl ⟨[], by simp, by simp⟩
      | acknowledged known =>
          exact .still rfl (by simp [Op.carrying]) rfl ⟨[], by simp, by simp⟩
      | _ =>
          exact .still rfl (nothing (by simp) (by simp) (by simp)) rfl
            ⟨[], by simp, by simp⟩
  | releaseE2eEntry on =>
      exact .still rfl (nothing (by simp) (by simp) (by simp))
        ((State.traffic_emit _ _).trans (s.traffic_kept rfl rfl rfl rfl))
        (silent (by simp) (by simp) (by simp))
  | creditPanic released => exact .stop (by simp [State.halt])
  | releaseCounts released =>
      exact .still rfl (nothing (by simp) (by simp) (by simp))
        ((State.traffic_emit _ _).trans (s.traffic_setCounts _ _ _))
        (silent (by simp) (by simp) (by simp))
  | resumeLoop waiting =>
      exact .push waiting (s.traffic_pushTx _ _ _) rfl
  | emptyDeque waiting => exact .stop (by simp [State.halt])
  | @resumePop nid vn parked rest waiting =>
      refine .pop waiting ?_ rfl
      have deque : s.traffic.waiting nid vn = parked :: rest := waiting
      rw [s.traffic_popWaiting nid vn, deque]
      rfl
  | respondUnmatched type fetches fresh absent =>
      obtain ⟨rx, nodes⟩ := answering_queues s _ _ _
      exact .still rfl (nothing (by simp) (by simp) (by simp))
        (State.traffic_of_nodes rx nodes) (silent (by simp) (by simp) (by simp))
  | @matched msg pt list me fail kind effects stop type fresh found memory
      later stops =>
      obtain ⟨rx, nodes⟩ := answering_queues s msg fail kind
      obtain ⟨rxTaken, nodesTaken⟩ :=
        takeEntry_queues (answering s msg fail kind) msg pt list me
      exact .still rfl (nothing (by simp) (by simp) (by simp))
        (State.traffic_of_nodes (rxTaken.trans rx) (nodesTaken.trans nodes))
        (silent (by simp) (by simp) (by simp))
  | ackWithoutAnswer type fresh missing => exact .stop (by simp [State.halt])
  | putFinish leaves =>
      exact .still rfl (nothing (by simp) (by simp) (by simp))
        (State.traffic_of_nodes leaves.queues.1 leaves.queues.2)
        (silent (by simp) (by simp) (by simp))
  | getFinish memory stops leaves =>
      exact .still rfl (nothing (by simp) (by simp) (by simp))
        (State.traffic_of_nodes leaves.queues.1 leaves.queues.2)
        (silent (by simp) (by simp) (by simp))
  | atomicEvents leaves =>
      exact .still rfl (nothing (by simp) (by simp) (by simp))
        (State.traffic_of_nodes leaves.queues.1 leaves.queues.2)
        (silent (by simp) (by simp) (by simp))
  | fetchAtomicFinish leaves =>
      exact .still rfl (nothing (by simp) (by simp) (by simp))
        (State.traffic_of_nodes leaves.queues.1 leaves.queues.2)
        (silent (by simp) (by simp) (by simp))
  | deferredUnlink flagged unlinks =>
      exact .still rfl (nothing (by simp) (by simp) (by simp))
        (State.traffic_of_nodes unlinks.queues.1 unlinks.queues.2)
        (silent (by simp) (by simp) (by simp))
  | txPut => exact .submit (s.traffic_pushTx _ _ _) rfl
  | unref equality drops =>
      cases drops
      exact .still rfl (nothing (by simp) (by simp) (by simp)) rfl
        (silent (by simp) (by simp) (by simp))
  | @exempt msg free =>
      obtain ⟨tail, ops, rest⟩ := transmit_carries s msg
      rw [ops]
      exact .pass (by rw [checkFlowctrl_answer, if_pos free]) rest rfl
        (silent (by simp) (by simp) (by simp))
  | @granted msg nodeCounts processCounts subject checked =>
      obtain ⟨tail, ops, rest⟩ := transmit_carries s msg
      rw [ops]
      refine .pass ?_ rest (s.traffic_setCounts self.nid nodeCounts processCounts)
        (silent (by simp) (by simp) (by simp))
      rw [checkFlowctrl_answer, subject, checked]
      rfl
  | @refused msg nodeCounts processCounts subject checked =>
      refine .park subject ?_ ?_ rfl
      · rw [checkFlowctrl_answer, subject, checked]
        rfl
      · rw [State.traffic_park, s.traffic_setCounts]
  | creditsPanic subject checked => exact .stop (by simp [State.halt])
  | acquireE2eEntry left =>
      exact .still rfl (by simp)
        ((State.traffic_emit _ _).trans (s.traffic_kept rfl rfl rfl rfl))
        (silent (by simp) (by simp) (by simp))
  | @e2eEnqueue msg =>
      exact .enqueue ((s.ref msg).traffic_e2e self.nid fun queue =>
        queue ++ [msg]) rfl
  | commStart => exact .start rfl rfl
  | gaveUp pending last =>
      exact .still rfl (by simp [Op.carrying]) (s.traffic_kept rfl rfl rfl rfl)
        ⟨[], by simp [State.modNode], by simp⟩
  | @retransmit msg pending more =>
      cases on : sys.modelPciCommands self.nid with
      | true =>
          obtain ⟨traffic, log⟩ := retransmit_on s msg on
          exact .retry on traffic log
      | false =>
          obtain ⟨traffic, log⟩ := retransmit_off s msg on
          exact .mailbox on traffic log
  | retryPanic pending beyond => exact .stop (by simp [State.halt])
  | noMatchedMe found missing => exact .stop (by simp [State.halt])
  | _ =>
      exact .still rfl (nothing (by simp) (by simp) (by simp)) rfl
        (silent (by simp) (by simp) (by simp))

/-- API calls move no message. -/
theorem CallPhase.carries {call : Call} {new : List Op}
    (phase : CallPhase sys self s call after new) :
    after.traffic = s.traffic ∧ after.log = s.log ∧
      ∀ added ∈ new, added.carrying = false := by
  cases phase with
  | niInit => exact ⟨s.traffic_kept rfl rfl rfl rfl, rfl, by simp⟩
  | ptFree taken equality frees =>
      obtain ⟨drops, sameMes⟩ := frees
      cases drops
      exact ⟨rfl, rfl, by simp⟩
  | appendPriority taken => exact ⟨rfl, rfl, by simp [Op.carrying]⟩
  | appendOverflow taken =>
      exact ⟨rfl, rfl, issueLink_every fun _ _ _ => rfl⟩
  | meUnlink free unlinks =>
      exact ⟨State.traffic_of_nodes unlinks.queues.1 unlinks.queues.2,
        unlinks.log, by simp⟩
  | request => exact ⟨rfl, rfl, by simp [Op.carrying]⟩
  | _ => exact ⟨rfl, rfl, by simp⟩

end Phases

end S4BXI
