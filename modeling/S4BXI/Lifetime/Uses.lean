import S4BXI.Lifetime.Counts
import S4BXI.Safety.Halts

/-!
# What uses a message finds it alive

Whoever works on a message holds a reference to it: a handler of a NIC target is
followed by the `unref` of the message it handles, and a NIC initiator holds a
message until it starts the communication.  A handler therefore never meets a
message or a request which has been destroyed, and no reference is released
twice.  Only what a NIC initiator does after it has started the communication
comes without a reference.
-/

namespace S4BXI

open Lib

/-! ## Releases -/

section Releases

variable {s : State} {held : MsgId → Nat} {extra : ReqId → Nat}

/-- The release of a reference which is held finds alive what it destroys. -/
theorem State.halted_unrefWithin (fuel : Nat)
    (counted : RefCounted s.nextMsg held s.cells)
    (tallied : S4BXI.Tallied extra s)
    {msg : MsgId} (holds : 0 < held msg) :
    (s.unrefWithin fuel msg).halted = s.halted := by
  induction fuel generalizing s held extra msg with
  | zero => rfl
  | succ fuel induction =>
      have live := counted.live_of_held holds
      have alive : s.live (.msg msg) = true := by
        rw [← s.cells_live]
        exact live
      have old := State.old_of_live alive
      by_cases last : (s.msgs msg).refCount = 1
      · let lowered := s.modMsg msg fun m =>
          { m with refCount := m.refCount - 1 }
        let dead := lowered.modMsg msg fun m => { m with live := false }
        have loweredAlive : lowered.live (.msg msg) = true := by
          rw [State.live_msg_iff] at alive ⊢
          simpa [lowered, State.modMsg] using alive
        have loweredTallied : S4BXI.Tallied extra lowered := by
          apply tallied.modMsg old
          · rfl
          · intro req
            rfl
        have without := loweredTallied.destroyed loweredAlive
        have count : (s.cells msg).count = 1 := by
          rw [State.cells_old old]
          exact last
        have remains : RefCounted dead.nextMsg
            (fun other => held other + (s.cells msg).refers other -
              single msg other) dead.cells := by
          have cells : dead.cells = Function.update s.cells msg
              { s.cells msg with live := false, count := 0 } :=
            State.cells_destroyed old last
          rw [cells]
          apply counted.destroy live count holds
          intro other
          by_cases same : other = msg
          · subst same
            rw [single_self]
            omega
          · rw [single_of_ne same]
            omega
        rw [State.unrefWithin_last fuel alive last]
        change (lowered.destroyMsg (State.unrefWithin fuel) msg).halted = _
        unfold State.destroyMsg
        dsimp only
        split
        · rename_i answered answers
          have drops := Drops.unrefWithin fuel dead answered
          have rest := without.unrefWithin fuel answered
          rw [(loweredTallied.dropParent loweredAlive drops rest).2]
          have child : (s.cells msg).child = some answered := by
            rw [State.cells_old old, ← answers]
            simp [lowered, State.modMsg, BxiMsg.cell]
          have refers : (s.cells msg).refers answered = 1 :=
            if_pos ⟨live, child⟩
          have older := counted.older msg answered child
          apply induction remains without
          rw [refers, single_of_ne (Nat.ne_of_lt older)]
          omega
        · exact (loweredTallied.dropParent loweredAlive (.refl _) without).2
      · rw [State.unrefWithin_kept fuel alive last]
        rfl

end Releases

/-! ## What stands behind an operation -/

/-- What keeps the message of an operation alive: an operation of the same actor
behind it. -/
def Op.supported (s : State) (self : Actor) (rest : List Op) : Op → Prop
  | .handle msg | .sendAck msg _ _ | .putFinish msg _ _ | .getFinish msg _ _
  | .atomicFinish msg _ _ | .atomicEvents msg _ | .fetchAtomicFinish msg _ _
  | .responseRest msg | .sendBxiAck msg _ | .replyEvent msg | .ptlAckTail msg
  | .bxiAckTail msg => .unref msg ∈ rest
  | .e2eEnqueue msg => .commStart msg ∈ rest
  | .maybeIssueSend req | .maybeIssueGet req | .maybeIssueFetchAtomic req
  | .sendEvent req => self.kind = .nicInitiator ∨
      ∃ msg, s.reqOf msg = req ∧ .unref msg ∈ rest
  | .ackEvent req _ => ∃ msg, s.reqOf msg = req ∧ .unref msg ∈ rest
  | .processTx _ | .commInit _ | .handlePutEnd _ | .handleResponseEnd _ =>
      self.kind = .nicInitiator
  | _ => True

/-- What a NIC initiator does once it has started a communication. -/
def Op.detached : Op → Bool
  | .handlePutEnd _ | .handleResponseEnd _ | .maybeIssueSend _
  | .maybeIssueGet _ | .maybeIssueFetchAtomic _ | .sendEvent _ => true
  | _ => false

/-- The operations of an actor are supported by those behind them. -/
def Supported (s : State) (self : Actor) : List Op → Prop
  | [] => True
  | op :: rest => op.supported s self rest ∧ Supported s self rest

section Steps

variable {sys : Sys} {self : Actor} {s after : State}

theorem Op.supported.mono {op : Op} {rest more : List Op}
    (supported : op.supported s self rest) (subset : rest ⊆ more) :
    op.supported s self more := by
  cases op with
  | maybeIssueSend req | maybeIssueGet req | maybeIssueFetchAtomic req
  | sendEvent req =>
      rcases supported with initiator | ⟨msg, parent, member⟩
      · exact .inl initiator
      · exact .inr ⟨msg, parent, subset member⟩
  | ackEvent req fail =>
      obtain ⟨msg, parent, member⟩ := supported
      exact ⟨msg, parent, subset member⟩
  | handle | sendAck | putFinish | getFinish | atomicFinish | atomicEvents
  | fetchAtomicFinish | responseRest | sendBxiAck | replyEvent | ptlAckTail
  | bxiAckTail | e2eEnqueue => exact subset supported
  | _ => exact supported

theorem Op.supported.grow {op : Op} {rest : List Op}
    (supported : op.supported s self rest) (grows : Extends s after)
    (within : ∀ op ∈ rest, op.Within s.bounds) :
    op.supported after self rest := by
  have parents : ∀ {msg : MsgId}, .unref msg ∈ rest →
      after.reqOf msg = s.reqOf msg :=
    fun member => grows.reqOf (within _ member)
  cases op with
  | maybeIssueSend req | maybeIssueGet req | maybeIssueFetchAtomic req
  | sendEvent req =>
      rcases supported with initiator | ⟨msg, parent, member⟩
      · exact .inl initiator
      · exact .inr ⟨msg, (parents member).trans parent, member⟩
  | ackEvent req fail =>
      obtain ⟨msg, parent, member⟩ := supported
      exact ⟨msg, (parents member).trans parent, member⟩
  | _ => exact supported

namespace Supported

theorem append {new rest : List Op}
    (first : ∀ op ∈ new, op.supported s self rest)
    (supported : Supported s self rest) : Supported s self (new ++ rest) := by
  induction new with
  | nil => exact supported
  | cons op new induction =>
      have head := first op List.mem_cons_self
      exact ⟨head.mono (List.subset_append_right new rest),
        induction fun other member =>
          first other (List.mem_cons_of_mem op member)⟩

theorem grow {ops : List Op} (supported : Supported s self ops)
    (grows : Extends s after) (within : ∀ op ∈ ops, op.Within s.bounds) :
    Supported after self ops := by
  induction ops with
  | nil => trivial
  | cons op rest induction =>
      have behind : ∀ op ∈ rest, op.Within s.bounds := fun other member =>
        within other (List.mem_cons_of_mem op member)
      exact ⟨supported.1.grow grows behind, induction supported.2 behind⟩

end Supported

/-- An operation hands on what stands behind it. -/
theorem Follows.supported {op added : Op} {rest : List Op}
    (follows : Follows sys self s op added)
    (supported : op.supported s self rest)
    (init : ∀ msg, op ≠ .commInit msg) : added.supported s self rest := by
  cases follows with
  | @matched msg pt list me fail kind type found =>
      cases kind <;> exact supported
  | quickSend | ackedSend | bxiAckedSend | bxiAckedGet
  | bxiAckedFetchAtomic => exact .inr ⟨_, rfl, supported⟩
  | quickAck | ackedEvent => exact ⟨_, rfl, supported⟩
  | bufferedSend | responseGet | responseFetchAtomic => exact .inl supported
  | @e2eEnqueue msg => exact absurd rfl (init msg)
  | _ => first | exact trivial | exact supported

theorem Supported.commInit {msg : MsgId} {rest : List Op}
    (supported : Supported after self rest) :
    Supported after self (commInit sys self s msg ++ rest) := by
  have started : Supported after self (.commStart msg :: rest) :=
    ⟨trivial, supported⟩
  have queued :
      Supported after self (.e2eEnqueue msg :: .commStart msg :: rest) :=
    ⟨List.mem_cons_self, started⟩
  unfold S4BXI.commInit
  split
  · split
    · exact ⟨trivial, queued⟩
    · exact queued
  · exact started

/-- What an operation leaves to do is supported as it was. -/
theorem Phase.supported {op : Op} {rest new : List Op} {later : State}
    (phase : Phase sys self s op after new) (grows : Extends s later)
    (within : ∀ op ∈ rest, op.Within s.bounds)
    (supported : Supported s self (op :: rest)) :
    Supported later self (new ++ rest) := by
  have behind : Supported later self rest := supported.2.grow grows within
  by_cases init : ∃ msg, op = .commInit msg
  · obtain ⟨msg, rfl⟩ := init
    cases phase with
    | quiet quiet =>
        cases quiet
        exact behind.commInit
  · apply Supported.append _ behind
    intro added member
    have handed := (phase.follows added member).supported supported.1
      fun msg equal => init ⟨msg, equal⟩
    exact handed.grow grows within

/-- In every reachable state, the operations of all actors are supported. -/
theorem ReachedBy.supported {allowed : State → Label → Prop}
    (reached : ReachedBy sys allowed s) :
    ∀ thread ∈ s.threads, Supported s thread.role thread.ops := by
  let Along (state : State) : Prop :=
    ∀ thread ∈ state.threads, Supported state thread.role thread.ops
  suffices along : Along s from along
  refine reached.invariant_of_reached ?_ ?_
  · intro thread member
    obtain ⟨actor, _, rfl⟩ := List.mem_map.mp member
    trivial
  · intro before after label earlier supported _ stepped
    have wellScoped := ReachedBy.wellScoped earlier
    have advances := step_advances stepped
    have grows := advances.extends
    generalize label.thread = index at advances
    have replaced : ∀ {role : Actor} {ops : List Op},
        after.threads = before.threads.set index ⟨role, ops⟩ →
        Supported after role ops → Along after := by
      intro role ops threads mine thread member
      rw [threads] at member
      rcases List.mem_or_eq_of_mem_set member with old | rfl
      · exact (supported thread old).grow grows (wellScoped.ops thread old)
      · exact mine
    cases advances with
    | dangling dead owner =>
        exact fun thread member =>
          (supported thread member).grow grows (wellScoped.ops thread member)
    | @run self op rest new after found alive phase =>
        have member := List.mem_of_getElem? found
        apply replaced rfl
        apply phase.supported grows _ (supported _ member)
        exact fun other behind =>
          wellScoped.ops _ member other (List.mem_cons_of_mem op behind)
    | recv found target queued =>
        exact replaced rfl ⟨List.mem_cons_self, trivial, trivial⟩
    | take found initiator queued => exact replaced rfl ⟨initiator, trivial⟩
    | wake found e2e alive queued => exact replaced rfl ⟨trivial, trivial⟩
    | @call self call new made found user owned alive phase =>
        apply replaced rfl
        have nothing : ∀ op ∈ new, op.supported { made with
            threads := before.threads.set index ⟨self, new⟩ } self [] := by
          cases phase with
          | appendOverflow allocated =>
              exact issueLink_every fun _ _ _ => trivial
          | _ => simp [Op.supported]
        have whole : Supported { made with
            threads := before.threads.set index ⟨self, new⟩ } self
            (new ++ []) := Supported.append nothing trivial
        rw [List.append_nil] at whole
        exact whole

end Steps

/-! ## What is found alive -/

section Live

variable {sys : Sys} {self : Actor} {s : State}

theorem holders_of_refs {thread : Thread Actor Op}
    (member : thread ∈ s.threads) {op : Op} (pends : op ∈ thread.ops)
    {msg : MsgId} (refs : 0 < op.refs msg) : 0 < s.holders msg := by
  have least : op.refs msg ≤ pending (Op.refs msg) s.threads :=
    weight_le_pending member pends
  unfold State.holders
  dsimp only
  omega

/-- A NIC initiator holds the message which it has taken. -/
theorem holders_of_hands {thread : Thread Actor Op}
    (member : thread ∈ s.threads) {op : Op} (pends : op ∈ thread.ops)
    (shaped : op.Shaped s thread.role) {msg : MsgId}
    (holds : op = .processTx msg ∨ op = .commInit msg ∨ op = .commStart msg) :
    0 < s.holders msg := by
  have here : (s.msgs msg).initiator = thread.role.nid := by
    rcases holds with rfl | rfl | rfl
    · exact shaped
    · exact shaped
    · exact shaped
  have mine : msg ∈ op.holding thread.role.nid thread.role.vn thread.role := by
    rcases holds with rfl | rfl | rfl
    · simp [Op.holding]
    · simp [Op.holding]
    · simp [Op.holding]
  have held : msg ∈ s.hands thread.role.nid thread.role.vn :=
    mem_gather.mpr ⟨thread, member, op, pends, mine⟩
  have counts := mailed_pos held
  rw [← here] at counts
  unfold State.holders
  dsimp only
  omega

/-- The request of a message which is alive is alive. -/
theorem live_of_message (tallied : s.Tallied) {msg : MsgId}
    (alive : s.live (.msg msg) = true) :
    ∀ ptr ∈ msgPtrs s msg, s.live ptr = true := by
  obtain ⟨live, old⟩ := State.live_msg_iff.mp alive
  have parent := tallied.parents msg old
  have request := (tallied.live_iff parent).mpr ⟨msg, old, live, rfl⟩
  intro ptr member
  simp only [msgPtrs, List.mem_cons, List.not_mem_nil, or_false] at member
  rcases member with rfl | rfl
  · exact alive
  · simp [State.live, request, parent]

theorem live_of_holders (counted : WellCounted s) (tallied : s.Tallied)
    {msg : MsgId} (holds : 0 < s.holders msg) :
    ∀ ptr ∈ msgPtrs s msg, s.live ptr = true := by
  apply live_of_message tallied
  rw [← s.cells_live]
  exact counted.live_of_held holds

/-- The message which an acknowledgement answers is alive. -/
theorem live_of_answered (counted : WellCounted s) (tallied : s.Tallied)
    {msg answered : MsgId} (alive : s.live (.msg msg) = true)
    (answers : (s.msgs msg).answersMsg = some answered) :
    ∀ ptr ∈ msgPtrs s answered, s.live ptr = true := by
  have live := (s.cells_live msg).trans alive
  have child : (s.cells msg).child = some answered := by
    rw [State.cells_old (State.old_of_live alive)]
    exact answers
  apply live_of_message tallied
  rw [← s.cells_live]
  exact counted.live_child live child

theorem live_of_headers (counted : WellCounted s) (tallied : s.Tallied)
    {pt : PtId} (inside : pt < s.nextPt) (index : Nat) :
    ∀ ptr ∈ headerPtrs s pt index, s.live ptr = true := by
  intro ptr member
  obtain ⟨header, waits, mine⟩ := List.mem_flatMap.mp member
  have headed : 0 < s.headed header :=
    State.headed_pos_iff.mpr ⟨pt, inside, List.mem_of_mem_drop waits⟩
  have holds : 0 < s.holders header := by
    unfold State.holders
    dsimp only
    omega
  exact live_of_holders counted tallied holds ptr mine

/-- An operation finds alive the messages and the requests which it uses. -/
theorem finds_live {op : Op} {rest : List Op} (counted : WellCounted s)
    (tallied : s.Tallied) (wellScoped : WellScoped s) (shaped : Shaped sys s)
    (member : ⟨self, op :: rest⟩ ∈ s.threads)
    (supported : op.supported s self rest)
    (attached : self.kind = .nicInitiator → op.detached = false) :
    ∀ ptr ∈ op.derefs sys self s, s.live ptr = true ∨ ∃ me, ptr = .me me := by
  have behind : ∀ {msg : MsgId}, .unref msg ∈ rest →
      ∀ ptr ∈ msgPtrs s msg, s.live ptr = true := by
    intro msg unref
    apply live_of_holders counted tallied
    apply holders_of_refs member (List.mem_cons_of_mem op unref)
    simp [Op.refs]
  have itself : ∀ {msg : MsgId}, 0 < op.refs msg →
      ∀ ptr ∈ msgPtrs s msg, s.live ptr = true := by
    intro msg refs
    exact live_of_holders counted tallied
      (holders_of_refs member List.mem_cons_self refs)
  have carried : ∀ {other : Op} {msg : MsgId}, other ∈ op :: rest →
      (other = .processTx msg ∨ other = .commInit msg ∨
        other = .commStart msg) →
      ∀ ptr ∈ msgPtrs s msg, s.live ptr = true := by
    intro other msg pends holds
    exact live_of_holders counted tallied
      (holders_of_hands member pends (shaped.ops _ member other pends) holds)
  have message : ∀ {msg : MsgId}, (∀ ptr ∈ msgPtrs s msg, s.live ptr = true) →
      s.live (.msg msg) = true :=
    fun live => live _ (by simp [msgPtrs])
  have parent : ∀ {req : ReqId},
      (∃ msg, s.reqOf msg = req ∧ .unref msg ∈ rest) →
        s.live (.req req) = true := by
    intro req backs
    obtain ⟨msg, rfl, unref⟩ := backs
    exact behind unref _ (by simp [msgPtrs])
  have entry : ∀ {me : MeId} {ptrs : List Ptr},
      (∀ ptr ∈ ptrs, s.live ptr = true) → ∀ ptr ∈ .me me :: ptrs,
        s.live ptr = true ∨ ∃ me, ptr = .me me := by
    intro me ptrs live ptr used
    rcases List.mem_cons.mp used with rfl | used
    · exact .inr ⟨me, rfl⟩
    · exact .inl (live ptr used)
  intro ptr used
  cases op with
  | handle msg =>
      have live := behind supported
      rcases List.mem_append.mp used with used | used
      · exact .inl (live ptr used)
      · cases answers : (s.msgs msg).answersMsg with
        | none =>
            rw [answers] at used
            cases used
        | some answered =>
            rw [answers] at used
            exact .inl (live_of_answered counted tallied (message live) answers
              ptr used)
  | putFinish msg me fail | atomicFinish msg me fail | atomicEvents msg me =>
      exact entry (behind supported) ptr used
  | getFinish msg me response | fetchAtomicFinish msg me response =>
      apply entry _ ptr used
      intro other used
      rcases List.mem_cons.mp used with rfl | used
      · exact message (itself (by simp [Op.refs]))
      · exact behind supported other used
  | sendAck msg type fail => exact .inl (behind supported ptr used)
  | responseRest msg | sendBxiAck msg md | replyEvent msg | ptlAckTail msg
  | bxiAckTail msg => exact .inl (behind supported ptr used)
  | e2eWake msg => exact .inl (itself (by simp [Op.refs]) ptr used)
  | processTx msg =>
      exact .inl (carried List.mem_cons_self (.inl rfl) ptr used)
  | commInit msg =>
      have live := carried List.mem_cons_self (.inr (.inl rfl))
      cases List.mem_singleton.mp used
      exact .inl (message live)
  | commStart msg =>
      have live := carried List.mem_cons_self (.inr (.inr rfl))
      cases List.mem_singleton.mp used
      exact .inl (message live)
  | e2eEnqueue msg =>
      have live := carried (List.mem_cons_of_mem _ supported)
        (.inr (.inr rfl))
      cases List.mem_singleton.mp used
      exact .inl (message live)
  | maybeIssueSend req | maybeIssueGet req | maybeIssueFetchAtomic req
  | sendEvent req =>
      rcases supported with initiator | backs
      · cases attached initiator
      · cases List.mem_singleton.mp used
        exact .inl (parent backs)
  | ackEvent req fail =>
      cases List.mem_singleton.mp used
      exact .inl (parent supported)
  | handlePutEnd msg | handleResponseEnd msg => cases attached supported
  | walkThroughUHs me index =>
      have within := wellScoped.ops _ member _ List.mem_cons_self
      exact entry (live_of_headers counted tallied
        (wellScoped.tables.entries me within) index) ptr used
  | deferredUnlink me | appendConsumed me =>
      exact .inr ⟨me, List.mem_singleton.mp used⟩
  | _ => cases used

end Live

/-! ## Steps which meet a destroyed object -/

/-- How a step stops at a destroyed object. -/
inductive Dangles (sys : Sys) (s : State) : Label → Ptr → Prop where
  | used {index : ThreadId} {self : Actor} {op : Op} {rest : List Op}
      {ptr : Ptr} (found : s.threads[index]? = some ⟨self, op :: rest⟩)
      (member : ptr ∈ op.derefs sys self s) (dead : s.live ptr = false) :
      Dangles sys s (.run index) ptr
  | operation {index : ThreadId} {self : Actor} {op : Op}
      {rest new : List Op} {after : State} {ptr : Ptr}
      (found : s.threads[index]? = some ⟨self, op :: rest⟩)
      (phase : Phase sys self s op after new)
      (halted : after.halted = some (.dangling ptr)) :
      Dangles sys s (.run index) ptr
  | queued {index : ThreadId} {self : Actor} {msg : MsgId}
      (waits : msg ∈ s.traffic.e2e self.nid)
      (dead : s.live (.msg msg) = false) :
      Dangles sys s (.wake index) (.msg msg)
  | argument {index : ThreadId} {call : Call} {ptr : Ptr}
      (first : (call.derefs s).find? (fun ptr => !s.live ptr) = some ptr) :
      Dangles sys s (.call index call) ptr
  | call {index : ThreadId} {self : Actor} {call : Call} {new : List Op}
      {after : State} {ptr : Ptr} (phase : CallPhase sys self s call after new)
      (halted : after.halted = some (.dangling ptr)) :
      Dangles sys s (.call index call) ptr

section Dangling

variable {sys : Sys} {s after : State} {label : Label} {ptr : Ptr}

theorem step_dangles (stepped : step sys s label = some after)
    (halted : after.halted = some (.dangling ptr)) :
    Dangles sys s label ptr := by
  have enabled := step_enabled stepped
  have fresh : s.halted ≠ some (.dangling ptr) := by
    rw [enabled.1]
    exact Option.some_ne_none _ ∘ Eq.symm
  simp only [step, enabled.1, enabled.2, Option.isSome_none, Bool.not_true,
    Bool.or_self, Bool.false_eq_true, if_false] at stepped
  split at stepped
  · cases stepped
  · rename_i thread found
    obtain ⟨activation, activated, result⟩ :=
      Option.map_eq_some_iff.mp stepped
    obtain ⟨self, ops⟩ := thread
    cases label with
    | run index =>
        cases ops with
        | nil => cases activated
        | cons op rest =>
            obtain ⟨segment, executed, rfl⟩ :=
              Option.map_eq_some_iff.mp activated
            split at result
            · rename_i other dead
              subst result
              cases halted
              exact .used found (List.mem_of_find?_eq_some dead)
                (by simpa using List.find?_some dead)
            · subst result
              exact .operation found (exec_phase executed) halted
    | recv index position | take index =>
        simp only [activate] at activated
        split at activated
        · obtain ⟨msg, queued, rfl⟩ := Option.map_eq_some_iff.mp activated
          subst result
          exact absurd halted fresh
        · cases activated
    | wake index =>
        simp only [activate] at activated
        split at activated
        · obtain ⟨msg, queued, rfl⟩ := Option.map_eq_some_iff.mp activated
          split at result
          · rename_i other dead
            subst result
            cases halted
            have same := List.mem_singleton.mp (List.mem_of_find?_eq_some dead)
            subst same
            exact .queued (List.mem_of_mem_head? queued)
              (by simpa using List.find?_some dead)
          · subst result
            exact absurd halted fresh
        · cases activated
    | call index call =>
        simp only [activate] at activated
        split at activated
        · obtain ⟨segment, called, rfl⟩ := Option.map_eq_some_iff.mp activated
          split at result
          · rename_i other dead
            subst result
            cases halted
            exact .argument dead
          · subst result
            exact .call (apiCall_phase called) halted
        · cases activated

/-- The scan of the unexpected headers by `PtlMEUnlink`. -/
theorem unlink_finds_live (counted : WellCounted s) (tallied : s.Tallied)
    (wellScoped : WellScoped s) {me : MeId}
    (first : ((Call.meUnlink me).derefs s).find? (fun ptr => !s.live ptr) =
      some ptr) : ptr = .me me := by
  by_cases alive : s.live (.me me) = true
  · have old : me < s.nextMe := by
      simp only [State.live, Bool.and_eq_true, decide_eq_true_eq] at alive
      exact alive.2
    have dead : s.live ptr = false := by simpa using List.find?_some first
    rcases List.mem_cons.mp (List.mem_of_find?_eq_some first) with same | used
    · exact same
    · rw [live_of_headers counted tallied (wellScoped.tables.entries me old) 0
        ptr used] at dead
      cases dead
  · have head : ((Call.meUnlink me).derefs s).find? (fun ptr => !s.live ptr) =
        some (.me me) := by
      simp [Call.derefs, alive]
    rw [head] at first
    exact (Option.some.inj first).symm

/-- What is found destroyed is an entry. -/
theorem Dangles.entry (dangles : Dangles sys s label ptr)
    (counted : WellCounted s) (tallied : s.Tallied)
    (wellScoped : WellScoped s) (shaped : Shaped sys s)
    (supported : ∀ thread ∈ s.threads, Supported s thread.role thread.ops)
    (running : s.halted = none) (keeps : label.frees = false)
    (attached : ∀ self op rest,
      s.threads[label.thread]? = some ⟨self, op :: rest⟩ →
        self.kind = .nicInitiator → op.detached = false) :
    ∃ me, ptr = .me me := by
  have fresh : s.halted ≠ some (.dangling ptr) := by
    rw [running]
    exact Option.some_ne_none _ ∘ Eq.symm
  cases dangles with
  | @used index self op rest _ found used dead =>
      have member := List.mem_of_getElem? found
      have live := finds_live counted tallied wellScoped shaped member
        (supported _ member).1 (attached self op rest found) ptr used
      rcases live with alive | entry
      · rw [alive] at dead
        cases dead
      · exact entry
  | @operation index self op rest new after _ found phase halted =>
      have stops := (phase.stopped halted).resolve_left fresh
      cases stops with
      | @dangling msg _ =>
          have holds : 0 < s.holders msg :=
            holders_of_refs (List.mem_of_getElem? found) List.mem_cons_self
              (by simp [Op.refs])
          cases phase with
          | unref equality drops =>
              have kept : (s.unref msg).halted = s.halted :=
                State.halted_unrefWithin (msg + 1) counted tallied holds
              rw [equality, kept] at halted
              exact absurd halted fresh
          | quiet quiet => cases quiet
  | @queued index self msg waits dead =>
      have here := ((shaped.queues.nodes self.nid).e2e msg waits).1
      have holds : 0 < s.holders msg := by
        have counts := List.count_pos_iff.mpr waits
        rw [← here] at counts
        unfold State.holders
        dsimp only
        omega
      have live := live_of_holders counted tallied holds (.msg msg)
        (by simp [msgPtrs])
      rw [live] at dead
      cases dead
  | @argument index call _ first =>
      cases call with
      | meUnlink me =>
          exact ⟨me, unlink_finds_live counted tallied wellScoped first⟩
      | _ => cases first
  | call phase halted =>
      have stops := (phase.stopped halted).resolve_left fresh
      cases stops
      cases keeps

/-- In every careful run, no actor uses a message or a request which has been
destroyed, and none is released twice, but for what a NIC initiator does once it
has started a communication. -/
theorem no_use_after_free (reached : ReachedBy sys (Careful sys) s)
    (careful : Careful sys s label) (stepped : step sys s label = some after)
    (attached : ∀ self op rest,
      s.threads[label.thread]? = some ⟨self, op :: rest⟩ →
        self.kind = .nicInitiator → op.detached = false) :
    (∀ msg, after.halted ≠ some (.dangling (.msg msg))) ∧
      ∀ req, after.halted ≠ some (.dangling (.req req)) := by
  have running := (step_enabled stepped).1
  have entries : ∀ ptr, after.halted = some (.dangling ptr) →
      ∃ me, ptr = .me me := by
    intro ptr halted
    exact (step_dangles stepped halted).entry
      (ReachedBy.wellCounted reached running) (ReachedBy.tallied reached)
      (ReachedBy.wellScoped reached) (ReachedBy.shaped reached)
      (ReachedBy.supported reached) running careful.keeps attached
  constructor
  · intro msg halted
    obtain ⟨me, same⟩ := entries _ halted
    cases same
  · intro req halted
    obtain ⟨me, same⟩ := entries _ halted
    cases same

end Dangling

/-- A Put whose NIC target is about to release it. -/
def handledPut : List Label :=
  prologue ++ appends { start := 1000, length := 100 } .priority :: runs 6 3 ++
    puts .ackReq 0 :: runs 0 3 ++ .take 1 :: runs 1 10 ++
    .recv 9 0 :: runs 9 9

theorem handled_put_is_alive :
    ∃ s after, ReachedBy (twoNodes {} { e2eOff := false })
        (Careful (twoNodes {} { e2eOff := false })) s ∧
      step (twoNodes {} { e2eOff := false }) s (.run 9) = some after ∧
      after.halted ≠ some (.dangling (.msg 0)) := by
  obtain ⟨s, reached, holds⟩ := reachedBy_of_executes
    (twoNodes {} { e2eOff := false })
    (Careful (twoNodes {} { e2eOff := false })) handledPut
    (fun s => decide (Careful (twoNodes {} { e2eOff := false }) s (.run 9)) &&
      (step (twoNodes {} { e2eOff := false }) s (.run 9)).isSome &&
      s.threads[9]?.all fun thread => thread.role.kind != .nicInitiator)
    (by decide +kernel)
  simp only [Bool.and_eq_true, decide_eq_true_eq] at holds
  obtain ⟨⟨careful, steps⟩, target⟩ := holds
  obtain ⟨after, stepped⟩ := Option.isSome_iff_exists.mp steps
  refine ⟨s, after, reached, stepped, ?_⟩
  apply (no_use_after_free reached careful stepped _).1
  intro self op rest found initiator
  have thread : s.threads[9]? = some ⟨self, op :: rest⟩ := found
  rw [thread] at target
  simp [initiator] at target

/-- `handle_put` of the NIC initiator reads the size of a message which the
target has already released, when the E2E circuit is off. -/
theorem detached_put_dangles :
    ∃ s, Reachable (twoNodes {} {}) s ∧
      s.halted = some (.dangling (.msg 0)) := by
  obtain ⟨s, reachable, holds⟩ := reachable_of_executes (twoNodes {} {})
    (prologue ++ appends { start := 1000, length := 100 } .priority ::
      runs 6 3 ++ puts .noAckReq 0 :: runs 0 3 ++ .take 1 :: runs 1 3 ++
      .recv 9 0 :: runs 9 7 ++ [.run 1])
    (fun s => decide (s.halted = some (.dangling (.msg 0))))
    (by decide +kernel)
  exact ⟨s, reachable, of_decide_eq_true holds⟩

end S4BXI
