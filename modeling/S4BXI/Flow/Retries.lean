import S4BXI.Flow.Places

/-!
# Retransmissions

A copy made by the E2E actor has a positive retry count, so flow control never
refuses it: once it is in a TX queue it stays there, is in the hands of a NIC
initiator or has been sent.
-/

namespace S4BXI

open Lib

/-- Retry counts only grow, and never become negative. -/
structure Patient (s after : State) : Prop where
  next : s.nextMsg ≤ after.nextMsg
  grows : ∀ msg < s.nextMsg,
    (s.msgs msg).retryCount ≤ (after.msgs msg).retryCount
  natural : (∀ msg < s.nextMsg, 0 ≤ (s.msgs msg).retryCount) →
    ∀ msg < after.nextMsg, 0 ≤ (after.msgs msg).retryCount

namespace Patient

variable {s mid after : State}

theorem of_msgs (nextMsg : after.nextMsg = s.nextMsg)
    (same : ∀ msg, (s.msgs msg).retryCount ≤ (after.msgs msg).retryCount) :
    Patient s after := by
  refine ⟨le_of_eq nextMsg.symm, fun msg _ => same msg, ?_⟩
  intro natural msg old
  rw [nextMsg] at old
  exact le_trans (natural msg old) (same msg)

theorem refl (s : State) : Patient s s :=
  of_msgs rfl fun _ => le_refl _

theorem trans (first : Patient s mid) (second : Patient mid after) :
    Patient s after where
  next := le_trans first.next second.next
  grows msg old := le_trans (first.grows msg old)
    (second.grows msg (lt_of_lt_of_le old first.next))
  natural natural := second.natural (first.natural natural)

theorem modMsg (s : State) (msg : MsgId) {f : BxiMsg → BxiMsg}
    (grows : ∀ m, m.retryCount ≤ (f m).retryCount) :
    Patient s (s.modMsg msg f) := by
  refine of_msgs rfl fun other => ?_
  by_cases same : other = msg
  · subst same
    simpa [State.modMsg] using grows _
  · simp [State.modMsg, same]

theorem ref (s : State) (msg : MsgId) : Patient s (s.ref msg) := by
  refine modMsg s msg ?_
  intro m
  exact le_refl _

theorem newMsg (s : State) {msg : BxiMsg}
    (natural : (∀ other < s.nextMsg, 0 ≤ (s.msgs other).retryCount) →
      0 ≤ msg.retryCount) :
    Patient s (s.newMsg msg) := by
  have kept : ∀ other < s.nextMsg, (s.newMsg msg).msgs other = s.msgs other :=
    fun other old => Function.update_of_ne (ne_of_lt old) _ _
  refine ⟨Nat.le_succ _, fun other old => by rw [kept other old], ?_⟩
  intro earlier other below
  by_cases new : other = s.nextMsg
  · rw [new, show (s.newMsg msg).msgs s.nextMsg = msg from
      Function.update_self _ _ _]
    exact natural earlier
  · have old := lt_of_le_of_ne (Nat.lt_succ_iff.mp below) new
    rw [kept other old]
    exact earlier other old

theorem drops (dropped : Drops s after) : Patient s after := by
  obtain ⟨sameReqs, sameMsgs, stops⟩ := dropped
  refine of_msgs rfl fun msg => ?_
  obtain ⟨live, count, same⟩ := sameMsgs msg
  simp only [same, le_refl]

theorem answering (s : State) (msg : MsgId) (fail : NiFailType)
    (kind : ReqType) : Patient s (answering s msg fail kind) := by
  cases kind with
  | put => exact refl s
  | atomic => exact refl s
  | get => exact newMsg s fun _ => le_refl _
  | fetchAtomic => exact newMsg s fun _ => le_refl _

theorem deposit (s : State) (msg : MsgId) (pt : PtId) (list : PtlList)
    (me : MeId) (fail : NiFailType) (kind : ReqType) :
    Patient s (deposit s msg pt list me fail kind) := by
  refine (answering s msg fail kind).trans (of_msgs ?_ fun other => ?_)
  · exact takeEntry_nextMsg _ _ _ _ _
  · unfold S4BXI.deposit S4BXI.receive takeEntry
    cases list with
    | priority => exact le_refl _
    | overflow =>
        by_cases same : other = msg
        · subst same
          simp [State.ref, State.modMsg, State.modMe, State.modPt, State.emit]
        · simp [State.ref, State.modMsg, State.modMe, State.modPt, State.emit,
            same]

end Patient

section Steps

variable {sys : Sys} {self : Actor} {s after : State}

theorem Unlinks.msgs {me : MeId} (unlinks : Unlinks s me after) :
    after.msgs = s.msgs := by
  cases unlinks <;> rfl

theorem Leaves.msgs {me : MeId} {before following : List Op}
    (leaves : Leaves s me after before following) : after.msgs = s.msgs := by
  cases leaves with
  | kept staying => rfl
  | unlinked eq event leaving unlinks kind => exact unlinks.msgs

theorem Patient.leaves {me : MeId} {before following : List Op}
    (left : Leaves s me after before following) : Patient s after :=
  .of_msgs left.nextMsg fun msg => by rw [left.msgs]

theorem Patient.resize (s : State) (msg : MsgId) (size : Size) :
    Patient s (s.modMsg msg fun m => { m with simulatedSize := size }) := by
  refine .modMsg s msg ?_
  intro m
  exact le_refl _

/-- An operation never lowers a retry count. -/
theorem Phase.patient {op : Op} {new : List Op}
    (phase : Phase sys self s op after new) (within : op.Within s.bounds) :
    Patient s after := by
  cases phase with
  | @respondUnmatched msg fail kind type fetches fresh absent =>
      exact (Patient.answering s msg fail kind).trans
        (.modMsg _ _ fun _ => le_refl _)
  | @matched msg pt list me fail kind effects stop type fresh found memory
      later stops =>
      exact { Patient.deposit s msg pt list me fail kind with }
  | sendAck slow =>
      unfold newAck
      exact (Patient.newMsg s fun _ => le_refl _).trans (.ref _ _)
  | putFinish leaves =>
      exact .leaves leaves
  | getFinish memory stops leaves =>
      refine Patient.trans ?_ (.leaves leaves)
      exact { Patient.resize s _ _ with }
  | atomicEvents leaves =>
      exact .leaves leaves
  | fetchAtomicFinish leaves =>
      refine Patient.trans ?_ (.leaves leaves)
      exact { Patient.resize s _ _ with }
  | deferredUnlink flagged unlinks =>
      exact .of_msgs unlinks.nextMsg fun msg => by rw [unlinks.msgs]
  | @sendBxiAck msg md on =>
      unfold newBxiAck
      refine Patient.trans ?_ (.ref _ _)
      exact .newMsg s fun natural => natural msg within
  | unref equality drops => exact .drops drops
  | @e2eEnqueue msg => exact { Patient.ref s msg with }
  | @retransmit msg pending more =>
      have counted : Patient s (s.modMsg msg fun m =>
          { m with retryCount := m.retryCount + 1 }) := by
        refine .modMsg s msg ?_
        intro m
        dsimp only
        omega
      have copied : Patient s ((s.modMsg msg fun m =>
          { m with retryCount := m.retryCount + 1 }).newMsg
            ((s.modMsg msg fun m =>
              { m with retryCount := m.retryCount + 1 }).msgs msg).copy) := by
        refine counted.trans ?_
        exact .newMsg _ fun natural => natural msg within
      unfold S4BXI.retransmit
      dsimp only
      split
      · exact { copied with }
      · exact { copied with }
  | _ => exact .of_msgs rfl fun _ => le_refl _

theorem CallPhase.patient {call : Call} {new : List Op}
    (phase : CallPhase sys self s call after new) : Patient s after := by
  cases phase with
  | ptFree taken equality frees =>
      obtain ⟨drops, sameMes⟩ := frees
      exact { Patient.drops drops with }
  | meUnlink free unlinks =>
      exact .of_msgs unlinks.nextMsg fun msg => by rw [unlinks.msgs]
  | @request cmd =>
      have created : Patient s (s.newMsg (newRequestMsg self cmd s.nextReq)) :=
        .newMsg s fun _ => le_refl _
      exact { created with }
  | _ => exact .of_msgs rfl fun _ => le_refl _

theorem Advances.patient {index : ThreadId} {label : Label}
    (advances : Advances sys s index label after)
    (wellScoped : WellScoped s) : Patient s after := by
  cases advances with
  | run found alive phase =>
      have within := wellScoped.ops _ (List.mem_of_getElem? found) _
        List.mem_cons_self
      exact { phase.patient within with }
  | call found user owned alive phase => exact { phase.patient with }
  | _ => exact .of_msgs rfl fun _ => le_refl _

/-- Retry counts are natural numbers. -/
theorem ReachedBy.retryCount_nonneg {allowed : State → Label → Prop}
    (reached : ReachedBy sys allowed s) :
    ∀ msg < s.nextMsg, 0 ≤ (s.msgs msg).retryCount := by
  let Natural (state : State) : Prop :=
    ∀ msg < state.nextMsg, 0 ≤ (state.msgs msg).retryCount
  have natural : Natural s := by
    refine reached.invariant_of_reached nofun ?_
    intro before after label earlier natural _ stepped
    exact ((step_advances stepped).patient
      (ReachedBy.wellScoped earlier)).natural natural
  exact natural

end Steps

/-! ## Copies -/

/-- The number of places of a message which is not parked. -/
def State.underway (s : State) (nid : Nid) (vn : Vn) (msg : MsgId) : Nat :=
  (s.traffic.tx nid vn).count msg + (s.hands nid vn).count msg +
    s.log.count (.sent nid vn msg)

/-- A copy which was put in a TX queue and is never parked. -/
structure OnItsWay (nid : Nid) (vn : Vn) (copy : MsgId) (s : State) :
    Prop where
  old : copy < s.nextMsg
  retried : 0 < (s.msgs copy).retryCount
  submitted : .submitted nid vn copy ∈ s.log
  unparked : ∀ node network, copy ∉ s.traffic.waiting node network
  one : s.underway nid vn copy = 1

namespace OnItsWay

variable {sys : Sys} {self : Actor} {s after : State} {nid : Nid} {vn : Vn}
  {copy : MsgId}

/-- Flow control does not stop a retransmission. -/
theorem exempt (way : OnItsWay nid vn copy s) (sys : Sys) (node : Nid) :
    exemptFromFlowctrl sys s node copy = true := by
  have positive := way.retried
  unfold exemptFromFlowctrl
  simp only [Bool.or_eq_true, bne_iff_ne, ne_eq]
  right
  omega

/-- A copy is not submitted again. -/
theorem not_submitting (way : OnItsWay nid vn copy s)
    (once : s.submissions copy ≤ 1) {index : ThreadId} {op : Op}
    {rest : List Op} (found : s.threads[index]? = some ⟨self, op :: rest⟩) :
    op.submitting copy = 0 := by
  have logged : 0 < s.log.countP (Obs.submits copy) :=
    List.countP_pos_iff.mpr ⟨_, way.submitted, by simp [Obs.submits]⟩
  have bound : op.submitting copy ≤ pending (Op.submitting copy) s.threads :=
    weight_le_pending (List.mem_of_getElem? found) List.mem_cons_self
  unfold State.submissions at once
  omega

/-- The operations of an actor keep a copy on its way. -/
theorem run (way : OnItsWay nid vn copy s) (once : s.submissions copy ≤ 1)
    {index : ThreadId} {op : Op} {rest new : List Op}
    (found : s.threads[index]? = some ⟨self, op :: rest⟩)
    (carries : Carries sys self s op after new) (running : after.halted = none)
    (grows : Extends s after) (patient : Patient s after) :
    OnItsWay nid vn copy { after with
      threads := s.threads.set index ⟨self, new ++ rest⟩ } := by
  have hands := hands_run found new nid vn copy
  have unsubmitted := way.not_submitting once found
  have one := way.one
  have keep : (∀ node network, copy ∉ after.traffic.waiting node network) →
      (after.traffic.tx nid vn).count copy +
          (gather (Op.holding nid vn)
            (s.threads.set index ⟨self, new ++ rest⟩)).count copy +
          after.log.count (.sent nid vn copy) = 1 →
      OnItsWay nid vn copy { after with
        threads := s.threads.set index ⟨self, new ++ rest⟩ } :=
    fun unparked one => ⟨lt_of_lt_of_le way.old patient.next,
      lt_of_lt_of_le way.retried (patient.grows copy way.old),
      grows.log.subset way.submitted, unparked, one⟩
  unfold State.underway at one
  cases carries with
  | still idle nothing traffic silent =>
      rw [Op.holding_of_idle idle, holding_of_nothing nothing] at hands
      refine keep (by rw [traffic]; exact way.unparked) ?_
      rw [traffic, silent.count rfl]
      simp only [List.count_nil] at hands
      omega
  | @submit msg after traffic log =>
      have different : msg ≠ copy := by
        rintro rfl
        simp [Op.submitting] at unsubmitted
      refine keep (by rw [traffic]; exact way.unparked) ?_
      rw [traffic, log]
      simp only [count_push, coincide_of_ne _ _ _ _ _ _ different,
        List.count_append, List.count_singleton]
      simp [Op.holding] at hands ⊢
      omega
  | @retry msg after on traffic log =>
      have different : s.nextMsg ≠ copy := (ne_of_lt way.old).symm
      refine keep (by rw [traffic]; exact way.unparked) ?_
      rw [traffic, log]
      simp only [count_push, coincide_of_ne _ _ _ _ _ _ different,
        List.count_append, List.count_singleton]
      simp [Op.holding] at hands ⊢
      omega
  | mailbox off traffic log =>
      refine keep (by rw [traffic]; exact way.unparked) ?_
      rw [traffic, log]
      simp [Op.holding] at hands ⊢
      omega
  | @pass msg after tail passes nothing traffic silent =>
      rw [List.flatMap_cons, holding_of_nothing nothing, List.append_nil,
        count_holding msg nid vn copy (.inl rfl),
        count_holding msg nid vn copy (.inr (.inl rfl))] at hands
      refine keep (by rw [traffic]; exact way.unparked) ?_
      rw [traffic, silent.count rfl]
      omega
  | @park msg after subject refused traffic log =>
      have different : msg ≠ copy := by
        rintro rfl
        rw [way.exempt sys self.nid] at subject
        cases subject
      rw [count_holding msg nid vn copy (.inl rfl),
        coincide_of_ne _ _ _ _ _ _ different] at hands
      refine keep ?_ ?_
      · rw [traffic]
        intro node network member
        simp only [setQueue_apply] at member
        split at member
        · unfold parking at member
          split at member
          · exact way.unparked _ _ member
          · rcases List.mem_append.mp member with old | new
            · exact way.unparked _ _ old
            · exact different (List.mem_singleton.mp new).symm
        · exact way.unparked _ _ member
      · rw [traffic, log]
        simp only [List.flatMap_nil, List.count_nil] at hands
        dsimp only
        omega
  | @init msg before nothing =>
      rw [List.flatMap_append, holding_of_nothing nothing, List.nil_append,
        List.flatMap_singleton, count_holding msg nid vn copy (.inr (.inl rfl)),
        count_holding msg nid vn copy (.inr (.inr rfl))] at hands
      exact keep way.unparked (by omega)
  | @start msg after traffic log =>
      rw [count_holding msg nid vn copy (.inr (.inr rfl))] at hands
      refine keep (by rw [traffic]; exact way.unparked) ?_
      rw [traffic, log, count_sent]
      simp only [List.flatMap_nil, List.count_nil] at hands
      dsimp only
      omega
  | @push node network parked others after waiting traffic log =>
      have different : parked ≠ copy := by
        rintro rfl
        exact way.unparked node network (by rw [waiting]; exact List.mem_cons_self)
      refine keep (by rw [traffic]; exact way.unparked) ?_
      rw [traffic, log]
      simp only [count_push, coincide_of_ne _ _ _ _ _ _ different]
      simp [Op.holding] at hands ⊢
      omega
  | @pop node network parked others after waiting traffic log =>
      refine keep ?_ ?_
      · rw [traffic]
        intro other vn member
        simp only [setQueue_apply] at member
        split at member
        · exact way.unparked node network
            (by rw [waiting]; exact List.mem_cons_of_mem _ member)
        · exact way.unparked _ _ member
      · rw [traffic, log]
        simp [Op.holding] at hands ⊢
        omega
  | enqueue traffic log =>
      refine keep (by rw [traffic]; exact way.unparked) ?_
      rw [traffic, log]
      simp [Op.holding] at hands ⊢
      omega
  | stop halted => exact absurd running halted

/-- An idle actor starts, and takes what it holds from a TX queue. -/
theorem start (way : OnItsWay nid vn copy s) {index : ThreadId}
    {new : List Op} (found : s.threads[index]? = some ⟨self, []⟩)
    (tx : (after.traffic.tx nid vn).count copy +
        (new.flatMap (Op.holding nid vn self)).count copy =
      (s.traffic.tx nid vn).count copy)
    (waiting : after.traffic.waiting = s.traffic.waiting)
    (log : after.log = s.log) (patient : Patient s after) :
    OnItsWay nid vn copy { after with
      threads := s.threads.set index ⟨self, new⟩ } := by
  have hands := hands_start found new nid vn copy
  have one := way.one
  unfold State.underway at one
  refine ⟨lt_of_lt_of_le way.old patient.next,
    lt_of_lt_of_le way.retried (patient.grows copy way.old), ?_, ?_, ?_⟩
  · change _ ∈ after.log
    rw [log]
    exact way.submitted
  · change ∀ node network, copy ∉ after.traffic.waiting node network
    rw [waiting]
    exact way.unparked
  · change (after.traffic.tx nid vn).count copy + (gather _ _).count copy +
      after.log.count (.sent nid vn copy) = 1
    rw [hands, log]
    omega

/-- A step keeps a copy on its way. -/
theorem advances (way : OnItsWay nid vn copy s) (wellScoped : WellScoped s)
    (once : s.submissions copy ≤ 1) {index : ThreadId} {label : Label}
    (advances : Advances sys s index label after)
    (running : after.halted = none) : OnItsWay nid vn copy after := by
  cases advances with
  | dangling dead owner => cases running
  | run found alive phase =>
      have within := wellScoped.ops _ (List.mem_of_getElem? found) _
        List.mem_cons_self
      exact way.run once found (phase.carries within) running phase.extends
        (phase.patient within)
  | recv found target queued =>
      exact way.start found rfl rfl rfl (.of_msgs rfl fun _ => le_refl _)
  | @take self msg rest found initiator queued =>
      have traffic := s.traffic_take queued
      have head : s.traffic.tx self.nid self.vn = msg :: rest := queued
      have popped := count_pop self.nid self.vn msg nid vn copy head
      refine way.start found ?_ ?_ rfl (.of_msgs rfl fun _ => le_refl _)
      · rw [traffic, List.flatMap_singleton,
          count_holding msg nid vn copy (.inl rfl)]
        exact popped
      · rw [traffic]
  | @wake self msg rest found e2e alive queued =>
      have traffic : (s.popE2e self.nid).traffic = _ :=
        s.traffic_e2e self.nid List.tail
      refine way.start found ?_ ?_ rfl (.of_msgs rfl fun _ => le_refl _)
      · rw [traffic]
        rfl
      · rw [traffic]
  | call found user owned alive phase =>
      obtain ⟨traffic, log, nothing⟩ := phase.carries
      refine way.start found ?_ ?_ log phase.patient
      · rw [traffic, holding_of_nothing nothing, List.count_nil, Nat.add_zero]
      · rw [traffic]

/-- A copy stays on its way in all later states. -/
theorem later (way : OnItsWay nid vn copy s)
    (reachable : Reachable sys s)
    (reached : Reached (step sys) Anything s after)
    (running : after.halted = none) : OnItsWay nid vn copy after := by
  let Along (state : State) : Prop :=
    state.halted = none → OnItsWay nid vn copy state
  have along : Along after := by
    refine reached.invariant_of_reached (fun _ => way) ?_
    intro before after label earlier kept _ stepped running
    have known : Reachable sys before := reachable.trans earlier
    exact (kept (step_enabled stepped).1).advances
      (ReachedBy.wellScoped known) (ReachedBy.submissions_le_one known copy)
      (step_advances stepped) running
  exact along running

end OnItsWay

section Retransmit

variable {sys : Sys} {self : Actor} {s after : State}

/-- A message which is not allocated is nowhere. -/
theorem WellScoped.underway_fresh (wellScoped : WellScoped s) (nid : Nid)
    (vn : Vn) : s.underway nid vn s.nextMsg = 0 := by
  have node := wellScoped.tables.nodes nid
  have tx : (s.traffic.tx nid vn).count s.nextMsg = 0 :=
    List.count_eq_zero.mpr fun member =>
      Nat.lt_irrefl _ (node.txQueues vn _ member)
  have sent : s.log.count (.sent nid vn s.nextMsg) = 0 :=
    List.count_eq_zero.mpr fun member =>
      Nat.lt_irrefl s.nextMsg (wellScoped.tables.log _ member)
  have hands : (s.hands nid vn).count s.nextMsg = 0 := by
    apply List.count_eq_zero.mpr
    intro member
    obtain ⟨thread, threadMember, op, pendingOp, held⟩ := mem_gather.mp member
    have within := wellScoped.ops thread threadMember op pendingOp
    have new : ∀ msg, msg < s.nextMsg →
        s.nextMsg ∉ if thread.role.nid = nid ∧ thread.role.vn = vn then [msg]
          else [] := by
      intro msg old member
      split at member
      · exact absurd (List.mem_singleton.mp member) (ne_of_lt old).symm
      · cases member
    cases op with
    | processTx msg => exact new msg within held
    | commInit msg => exact new msg within held
    | commStart msg => exact new msg within held
    | _ => cases held
  unfold State.underway
  omega

/-- A counted retry is a retransmission. -/
theorem retried_step {index : ThreadId} {msg : MsgId} {rest : List Op}
    (found : s.threads[index]? = some ⟨self, .e2eWake msg :: rest⟩)
    (stepped : step sys s (.run index) = some after)
    (counted : (after.nodes self.nid).e2eRetried =
      (s.nodes self.nid).e2eRetried + 1) :
    after = { retransmit sys self s msg with
      threads := s.threads.set index
        ⟨self, [.resched, .unref msg] ++ rest⟩ } := by
  have advances : Advances sys s index (.run index) after :=
    step_advances stepped
  cases advances with
  | dangling dead owner =>
      simp [State.halt] at counted
  | run found' alive phase =>
      rw [found] at found'
      cases found'
      cases phase with
      | quiet quiet =>
          dsimp only at counted
          omega
      | gaveUp pending last => simp [State.modNode] at counted
      | retransmit pending more => rfl
      | retryPanic pending beyond => simp [State.halt] at counted

theorem retransmit_nextMsg (s : State) (msg : MsgId) :
    (retransmit sys self s msg).nextMsg = s.nextMsg + 1 := by
  unfold retransmit
  dsimp only
  split <;> rfl

theorem retransmit_copy (s : State) (msg : MsgId) :
    ((retransmit sys self s msg).msgs s.nextMsg).retryCount =
      (s.msgs msg).retryCount + 1 := by
  unfold retransmit
  dsimp only
  split <;> simp [txPut, State.emit, State.modNode, State.newMsg, State.modMsg,
    BxiMsg.copy]

/-- Nothing is in the hands of the initiators but what was. -/
theorem hands_nothing {index : ThreadId} {op : Op} {rest new : List Op}
    (found : s.threads[index]? = some ⟨self, op :: rest⟩)
    (idle : op.carrying = false)
    (nothing : ∀ added ∈ new, added.carrying = false) (nid : Nid) (vn : Vn)
    (msg : MsgId) :
    (gather (Op.holding nid vn)
        (s.threads.set index ⟨self, new ++ rest⟩)).count msg =
      (s.hands nid vn).count msg := by
  have hands := hands_run found new nid vn msg
  rw [Op.holding_of_idle idle, holding_of_nothing nothing] at hands
  exact hands

/-- The copy which a retransmission puts in a TX queue. -/
theorem onItsWay_retransmit (reachable : Reachable sys s) {index : ThreadId}
    {msg : MsgId} {rest : List Op} (new : List Op)
    (found : s.threads[index]? = some ⟨self, .e2eWake msg :: rest⟩)
    (nothing : ∀ added ∈ new, added.carrying = false)
    (on : sys.modelPciCommands self.nid = true) :
    OnItsWay self.nid (s.vnOf msg) s.nextMsg { retransmit sys self s msg with
      threads := s.threads.set index ⟨self, new ++ rest⟩ } := by
  have wellScoped := ReachedBy.wellScoped reachable
  have old : msg < s.nextMsg :=
    wellScoped.ops _ (List.mem_of_getElem? found) _ List.mem_cons_self
  have natural := ReachedBy.retryCount_nonneg reachable msg old
  have nowhere := wellScoped.underway_fresh self.nid (s.vnOf msg)
  obtain ⟨traffic, log⟩ := retransmit_on s msg on
  refine ⟨?_, ?_, ?_, ?_, ?_⟩
  · change s.nextMsg < (retransmit sys self s msg).nextMsg
    rw [retransmit_nextMsg]
    exact Nat.lt_succ_self _
  · change 0 < ((retransmit sys self s msg).msgs s.nextMsg).retryCount
    rw [retransmit_copy]
    omega
  · change _ ∈ (retransmit sys self s msg).log
    rw [log]
    simp
  · intro node network member
    change s.nextMsg ∈ (retransmit sys self s msg).traffic.waiting node
      network at member
    rw [traffic] at member
    exact Nat.lt_irrefl _
      ((wellScoped.tables.nodes node).waiting network _ member)
  · change ((retransmit sys self s msg).traffic.tx _ _).count _ +
      (gather _ _).count _ + (retransmit sys self s msg).log.count _ = 1
    rw [traffic, log, hands_nothing found rfl nothing]
    unfold State.underway at nowhere
    simp only [count_push, coincide, and_self, if_true, List.count_append]
    simp
    omega

end Retransmit

/-- A Put which nobody answers, up to the end of the sleep of the E2E actor. -/
def expiredPut : List Label :=
  putsTo 1 .ackReq :: runs 0 3 ++ .take 1 :: runs 1 10 ++ [.wake 5]

/-- Whether the E2E actor of the first node counts a retry of the first message
in the next step. -/
def retriesFirst (sys : Sys) (s : State) : Bool :=
  match (s.threads[5]? : Option (Lib.Thread Actor Op)) with
  | some ⟨self, .e2eWake msg :: _⟩ =>
      (step sys s (.run 5)).any fun after =>
        (after.nodes self.nid).e2eRetried ==
            (s.nodes self.nid).e2eRetried + 1 &&
          self.nid == 0 && s.nextMsg == 1 && s.vnOf msg == .computeRequest
  | _ => false

end S4BXI
