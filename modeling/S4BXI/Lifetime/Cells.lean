import S4BXI.Lib.References
import S4BXI.Flow.Retries

/-!
# The reference counts of messages

The messages of a simulation as a heap of counted objects: an acknowledgement
holds a reference to the message it answers.  `BxiMsg::unref` is the release of
such a heap.  Most operations leave the counts of messages and requests as they
are.
-/

namespace S4BXI

open Lib

/-- The part of a message which its lifetime depends on. -/
def BxiMsg.cell (msg : BxiMsg) : Cell where
  live := msg.live
  count := msg.refCount
  child := msg.answersMsg

/-- The messages which have been allocated. -/
def State.cells (s : State) (msg : MsgId) : Cell :=
  if msg < s.nextMsg then (s.msgs msg).cell else {}

theorem State.cells_old {s : State} {msg : MsgId} (old : msg < s.nextMsg) :
    s.cells msg = (s.msgs msg).cell := if_pos old

/-- The counts of messages and requests are the same in both states. -/
structure Preserves (s after : State) : Prop where
  nextMsg : after.nextMsg = s.nextMsg
  nextReq : after.nextReq = s.nextReq
  cell : ∀ msg, (after.msgs msg).cell = (s.msgs msg).cell
  parent : ∀ msg, after.reqOf msg = s.reqOf msg
  live : ∀ req, (after.reqs req).live = (s.reqs req).live
  count : ∀ req, (after.reqs req).msgRefCount = (s.reqs req).msgRefCount

/-- The operations which change the count of a message. -/
def Op.counting : Op → Bool
  | .handle _ | .sendAck _ _ _ | .sendBxiAck _ _ | .unref _ | .e2eEnqueue _
  | .e2eWake _ => true
  | _ => false

namespace Preserves

variable {s mid after : State}

theorem refl (s : State) : Preserves s s :=
  ⟨rfl, rfl, fun _ => rfl, fun _ => rfl, fun _ => rfl, fun _ => rfl⟩

theorem trans (first : Preserves s mid) (second : Preserves mid after) :
    Preserves s after where
  nextMsg := second.nextMsg.trans first.nextMsg
  nextReq := second.nextReq.trans first.nextReq
  cell msg := (second.cell msg).trans (first.cell msg)
  parent msg := (second.parent msg).trans (first.parent msg)
  live req := (second.live req).trans (first.live req)
  count req := (second.count req).trans (first.count req)

theorem cells (preserves : Preserves s after) : after.cells = s.cells := by
  funext msg
  unfold State.cells
  rw [preserves.nextMsg, preserves.cell]

theorem of_tables (nextMsg : after.nextMsg = s.nextMsg)
    (nextReq : after.nextReq = s.nextReq) (msgs : after.msgs = s.msgs)
    (reqs : after.reqs = s.reqs) : Preserves s after := by
  refine ⟨nextMsg, nextReq, ?_, ?_, ?_, ?_⟩
  · rw [msgs]
    exact fun _ => rfl
  · unfold State.reqOf
    rw [msgs]
    exact fun _ => rfl
  · rw [reqs]
    exact fun _ => rfl
  · rw [reqs]
    exact fun _ => rfl

theorem modReq (s : State) (req : ReqId) {f : BxiRequest → BxiRequest}
    (live : (f (s.reqs req)).live = (s.reqs req).live)
    (count : (f (s.reqs req)).msgRefCount = (s.reqs req).msgRefCount) :
    Preserves s (s.modReq req f) := by
  refine ⟨rfl, rfl, fun _ => rfl, fun _ => rfl, ?_, ?_⟩
  · intro other
    by_cases same : other = req
    · subst same
      simpa [State.modReq] using live
    · simp [State.modReq, same]
  · intro other
    by_cases same : other = req
    · subst same
      simpa [State.modReq] using count
    · simp [State.modReq, same]

/-- The end of the processing of a request. -/
theorem finished (s : State) (req : ReqId) :
    Preserves s (s.modReq req fun r =>
      { r with processState := .finished }) := .modReq s req rfl rfl

theorem modMsg (s : State) (msg : MsgId) {f : BxiMsg → BxiMsg}
    (cell : (f (s.msgs msg)).cell = (s.msgs msg).cell)
    (parent : (f (s.msgs msg)).parentRequest = (s.msgs msg).parentRequest) :
    Preserves s (s.modMsg msg f) := by
  refine ⟨rfl, rfl, ?_, ?_, fun _ => rfl, fun _ => rfl⟩
  · intro other
    by_cases same : other = msg
    · subst same
      simpa [State.modMsg] using cell
    · simp [State.modMsg, same]
  · intro other
    unfold State.reqOf
    by_cases same : other = msg
    · subst same
      simpa [State.modMsg] using parent
    · simp [State.modMsg, same]

theorem touch (s : State) (effects : List Obs) (stop : Option Halt) :
    Preserves s (s.touch effects stop) := of_tables rfl rfl rfl rfl

theorem unlinks {me : MeId} (unlinked : Unlinks s me after) :
    Preserves s after := by
  cases unlinked <;> exact of_tables rfl rfl rfl rfl

theorem leaves {me : MeId} {before following : List Op}
    (left : Leaves s me after before following) : Preserves s after := by
  cases left with
  | kept staying => exact of_tables rfl rfl rfl rfl
  | unlinked eq event leaving unlinked kind =>
      have leaves : Preserves s (s.leaveMe me) := of_tables rfl rfl rfl rfl
      exact leaves.trans (unlinks unlinked)

theorem receive (s : State) (msg : MsgId) (me : MeId) (copied : Bool) :
    Preserves s (receive s msg me copied) := by
  refine ⟨rfl, rfl, fun _ => rfl, fun _ => rfl, ?_, ?_⟩
  · intro req
    by_cases same : req = s.reqOf msg
    · simp [S4BXI.receive, same]
    · simp [S4BXI.receive, same]
  · intro req
    by_cases same : req = s.reqOf msg
    · simp [S4BXI.receive, same]
    · simp [S4BXI.receive, same]

/-- The same message is allocated in both states. -/
theorem newMsg (preserves : Preserves s after) (msg : BxiMsg) :
    Preserves (s.newMsg msg) (after.newMsg msg) where
  nextMsg := congrArg (· + 1) preserves.nextMsg
  nextReq := preserves.nextReq
  cell other := by
    have cell := preserves.cell other
    unfold State.newMsg
    dsimp only
    rw [preserves.nextMsg]
    by_cases new : other = s.nextMsg
    · simp [new]
    · simpa [new] using cell
  parent other := by
    have parent := preserves.parent other
    unfold State.newMsg State.reqOf at *
    dsimp only
    rw [preserves.nextMsg]
    by_cases new : other = s.nextMsg
    · simp [new]
    · simpa [new] using parent
  live req := by
    have live := preserves.live req
    by_cases same : req = msg.parentRequest
    · simpa [State.newMsg, same] using live
    · simpa [State.newMsg, same] using live
  count req := by
    have count := preserves.count req
    by_cases same : req = msg.parentRequest
    · subst same
      simpa [State.newMsg] using count
    · simpa [State.newMsg, same] using count

end Preserves

/-! ## The operations on a heap -/

section Heap

variable (s : State)

theorem State.cells_newMsg (msg : BxiMsg) :
    (s.newMsg msg).cells = Function.update s.cells s.nextMsg msg.cell := by
  funext other
  unfold State.cells State.newMsg
  dsimp only
  by_cases new : other = s.nextMsg
  · subst new
    simp
  · rw [Function.update_of_ne new, Function.update_of_ne new]
    by_cases old : other < s.nextMsg
    · rw [if_pos old, if_pos (Nat.lt_succ_of_lt old)]
    · have outside : ¬other < s.nextMsg + 1 := fun below =>
        (Nat.lt_succ_iff_lt_or_eq.mp below).elim old new
      rw [if_neg old, if_neg outside]

theorem State.cells_modMsg {msg : MsgId} (old : msg < s.nextMsg)
    (f : BxiMsg → BxiMsg) :
    (s.modMsg msg f).cells =
      Function.update s.cells msg (f (s.msgs msg)).cell := by
  funext other
  unfold State.cells State.modMsg
  dsimp only
  by_cases same : other = msg
  · subst same
    simp [old]
  · rw [Function.update_of_ne same, Function.update_of_ne same]

theorem State.cells_ref {msg : MsgId} (old : msg < s.nextMsg) :
    (s.ref msg).cells = retain s.cells msg := by
  unfold State.ref retain
  rw [s.cells_modMsg old, State.cells_old old]
  rfl

theorem State.cells_dropRequestRef (req : ReqId) :
    (s.dropRequestRef req).cells = s.cells := by
  unfold State.dropRequestRef
  split <;> rfl

/-- A message which is not alive has no cell which is. -/
theorem State.cells_live (msg : MsgId) :
    (s.cells msg).live = s.live (.msg msg) := by
  unfold State.cells State.live
  by_cases old : msg < s.nextMsg
  · simp [old, BxiMsg.cell]
  · simp [old]

end Heap

section Unref

variable {s : State} {msg : MsgId} (fuel : Nat)

theorem State.unrefWithin_dead (dead : s.live (.msg msg) = false) :
    s.unrefWithin (fuel + 1) msg = s.halt (.dangling (.msg msg)) := by
  rw [State.unrefWithin]
  exact if_pos (by simp [dead])

theorem State.unrefWithin_kept (alive : s.live (.msg msg) = true)
    (more : (s.msgs msg).refCount ≠ 1) :
    s.unrefWithin (fuel + 1) msg =
      s.modMsg msg fun m => { m with refCount := m.refCount - 1 } := by
  rw [State.unrefWithin]
  exact (if_neg (by simp [alive])).trans (if_neg more)

theorem State.unrefWithin_last (alive : s.live (.msg msg) = true)
    (last : (s.msgs msg).refCount = 1) :
    s.unrefWithin (fuel + 1) msg =
      (s.modMsg msg fun m => { m with refCount := m.refCount - 1 }).destroyMsg
        (State.unrefWithin fuel) msg := by
  rw [State.unrefWithin]
  exact (if_neg (by simp [alive])).trans (if_pos last)

end Unref

theorem State.live_msg_iff {s : State} {msg : MsgId} :
    s.live (.msg msg) = true ↔ (s.msgs msg).live = true ∧ msg < s.nextMsg := by
  unfold State.live
  rw [Bool.and_eq_true, decide_eq_true_eq]

/-- A message which is alive has been allocated. -/
theorem State.old_of_live {s : State} {msg : MsgId}
    (alive : s.live (.msg msg) = true) : msg < s.nextMsg :=
  (State.live_msg_iff.mp alive).2

/-- The cells of a message which the last reference destroys. -/
theorem State.cells_destroyed {s : State} {msg : MsgId} (old : msg < s.nextMsg)
    (last : (s.msgs msg).refCount = 1) :
    ((s.modMsg msg fun m => { m with refCount := m.refCount - 1 }).modMsg msg
        fun m => { m with live := false }).cells =
      Function.update s.cells msg
        { s.cells msg with live := false, count := 0 } := by
  let mid := s.modMsg msg fun m => { m with refCount := m.refCount - 1 }
  have oldMid : msg < mid.nextMsg := old
  rw [mid.cells_modMsg oldMid, s.cells_modMsg old, Function.update_idem,
    State.cells_old old]
  simp [mid, State.modMsg, BxiMsg.cell, last]

/-- `BxiMsg::unref` with its destructors releases a reference. -/
theorem State.cells_unrefWithin (fuel : Nat) (s : State) (msg : MsgId) :
    (s.unrefWithin fuel msg).cells = release fuel s.cells msg := by
  induction fuel generalizing s msg with
  | zero => rfl
  | succ fuel induction =>
      have live := s.cells_live msg
      by_cases dead : s.live (.msg msg) = false
      · rw [dead] at live
        rw [State.unrefWithin_dead fuel dead, release, if_pos live]
        rfl
      · have alive : s.live (.msg msg) = true := by simpa using dead
        have old := State.old_of_live alive
        have cell := State.cells_old old
        rw [alive] at live
        rw [release, if_neg (by simp [live])]
        by_cases last : (s.msgs msg).refCount = 1
        · have count : (s.cells msg).count = 1 := by
            rw [cell]
            exact last
          let mid := s.modMsg msg fun m => { m with refCount := m.refCount - 1 }
          have answers : ((mid.modMsg msg fun m =>
              { m with live := false }).msgs msg).answersMsg =
              (s.cells msg).child := by
            rw [cell]
            simp [mid, State.modMsg, BxiMsg.cell]
          rw [State.unrefWithin_last fuel alive last, if_pos count]
          change (mid.destroyMsg (State.unrefWithin fuel) msg).cells = _
          unfold State.destroyMsg
          dsimp only
          rw [State.cells_dropRequestRef, answers,
            ← State.cells_destroyed old last]
          cases (s.cells msg).child with
          | none => rfl
          | some answered => exact induction _ answered
        · have count : (s.cells msg).count ≠ 1 := by
            rw [cell]
            exact last
          rw [State.unrefWithin_kept fuel alive last, if_neg count,
            State.cells_modMsg _ old, cell]
          rfl

theorem State.cells_unref (s : State) (msg : MsgId) :
    (s.unref msg).cells = release (msg + 1) s.cells msg :=
  s.cells_unrefWithin (msg + 1) msg

/-! ## Phases -/

section Phases

variable {sys : Sys} {self : Actor} {s after : State}

/-- The other operations leave the counts alone. -/
theorem Phase.preserves {op : Op} {new : List Op}
    (phase : Phase sys self s op after new) (plain : op.counting = false) :
    Preserves s after := by
  cases phase with
  | quiet quiet => exact .refl s
  | maybeIssueSend pending => exact .modReq s _ rfl rfl
  | maybeIssueGet pending => exact .modReq s _ rfl rfl
  | maybeIssueFetchAtomic pending => exact .modReq s _ rfl rfl
  | putFinish leaves => exact .leaves leaves
  | atomicEvents leaves => exact .leaves leaves
  | getFinish memory stops leaves =>
      refine Preserves.trans ?_ (.leaves leaves)
      exact (Preserves.modMsg s _ rfl rfl).trans (.touch _ _ _)
  | fetchAtomicFinish leaves =>
      exact (Preserves.modMsg s _ rfl rfl).trans (.leaves leaves)
  | deferredUnlink flagged unlinks => exact .unlinks unlinks
  | responseRest fresh => exact .modReq s _ rfl rfl
  | ptlAckTail fresh => exact .modReq s _ rfl rfl
  | respondUnmatched | matched | handleResponse | handlePtlAck
  | ackWithoutAnswer | handleBxiAck | quickAck | sendAck | sendBxiAck | unref
  | e2eEnqueue | gaveUp | retransmit | retryPanic => cases plain
  | _ => exact .of_tables rfl rfl rfl rfl

/-- A state in which a message which waits in the unexpected headers is held
once more. -/
def State.keep (s : State) (msg : MsgId) : PtlList → State
  | .priority => s
  | .overflow => s.ref msg

/-- A matched request is kept by the unexpected headers of an overflow entry. -/
theorem Preserves.deposit (s : State) (msg : MsgId) (pt : PtId)
    (list : PtlList) (me : MeId) (fail : NiFailType) (kind : ReqType)
    (effects : List Obs) (stop : Option Halt) :
    Preserves ((answering s msg fail kind).keep msg list)
      ((deposit s msg pt list me fail kind).touch effects stop) := by
  have taken : Preserves ((answering s msg fail kind).keep msg list)
      (takeEntry (answering s msg fail kind) msg pt list me) := by
    cases list with
    | priority => exact .of_tables rfl rfl rfl rfl
    | overflow => exact .of_tables rfl rfl rfl rfl
  exact (taken.trans (.receive _ _ _ _)).trans (.touch _ _ _)

/-- The copy which is retransmitted. -/
theorem Preserves.retransmit (sys : Sys) (self : Actor) (s : State)
    (msg : MsgId) :
    ∃ copy : BxiMsg, copy.cell = { live := true, count := 1 } ∧
      copy.parentRequest = s.reqOf msg ∧
      Preserves (s.newMsg copy) (retransmit sys self s msg) := by
  let counted := s.modMsg msg fun m => { m with retryCount := m.retryCount + 1 }
  have same : Preserves s counted := .modMsg s msg rfl rfl
  refine ⟨(counted.msgs msg).copy, rfl, same.parent msg, ?_⟩
  have copied := same.newMsg (counted.msgs msg).copy
  unfold S4BXI.retransmit
  dsimp only
  split
  · exact copied.trans (.of_tables rfl rfl rfl rfl)
  · exact copied.trans (.of_tables rfl rfl rfl rfl)

end Phases

end S4BXI
