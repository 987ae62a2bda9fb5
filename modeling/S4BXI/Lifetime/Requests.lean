import S4BXI.Lifetime.Cells
import S4BXI.Nic.Runs

/-!
# Requests live with their messages

The destructor of a message drops its reference to the request, and the last one
destroys the request.  In every state a request is counted by its messages which
are alive, whatever `BxiPT::free` deletes.
-/

namespace S4BXI

open Lib

/-- Whether a message is alive and belongs to a request. -/
def BxiMsg.belongs (req : ReqId) (msg : BxiMsg) : Nat :=
  if msg.live = true ∧ msg.parentRequest = req then 1 else 0

/-- The messages of a request which are alive. -/
def State.members (s : State) (req : ReqId) : Nat :=
  total s.nextMsg (BxiMsg.belongs req) s.msgs

theorem State.members_newMsg (s : State) {msg : BxiMsg}
    (live : msg.live = true) (req : ReqId) :
    (s.newMsg msg).members req =
      s.members req + single msg.parentRequest req := by
  change total (s.nextMsg + 1) _ (Function.update s.msgs s.nextMsg msg) = _
  have belongs : msg.belongs req = single msg.parentRequest req := by
    unfold BxiMsg.belongs single
    by_cases here : msg.parentRequest = req
    · simp [live, here]
    · simp [here, Ne.symm here]
  rw [total_succ, total_update_outside (Nat.le_refl _), Function.update_self,
    belongs]
  rfl

/-- Every request is counted by its messages, and by `extra` for those whose
destructor is running. -/
structure Tallied (extra : ReqId → Nat) (s : State) : Prop where
  parents : ∀ msg < s.nextMsg, s.reqOf msg < s.nextReq
  exact : ∀ req < s.nextReq,
    (s.reqs req).msgRefCount = s.members req + extra req
  alive : ∀ req < s.nextReq,
    (s.reqs req).live = true ↔ 0 < (s.reqs req).msgRefCount

namespace Tallied

variable {extra more : ReqId → Nat} {s after : State}

theorem preserves (tallied : Tallied extra s) (kept : Preserves s after) :
    Tallied extra after := by
  have members : ∀ req, after.members req = s.members req := by
    intro req
    unfold State.members
    rw [kept.nextMsg]
    apply total_congr
    intro msg _
    have live : (after.msgs msg).live = (s.msgs msg).live :=
      congrArg Cell.live (kept.cell msg)
    have parent : (after.msgs msg).parentRequest =
        (s.msgs msg).parentRequest := kept.parent msg
    unfold BxiMsg.belongs
    rw [live, parent]
  refine ⟨?_, ?_, ?_⟩
  · rw [kept.nextMsg, kept.nextReq]
    intro msg old
    rw [kept.parent]
    exact tallied.parents msg old
  · rw [kept.nextReq]
    intro req old
    rw [kept.count, members]
    exact tallied.exact req old
  · rw [kept.nextReq]
    intro req old
    rw [kept.live, kept.count]
    exact tallied.alive req old

/-- A message changes, and its request may lose it. -/
theorem modMsg (tallied : Tallied extra s) {msg : MsgId}
    (old : msg < s.nextMsg) {f : BxiMsg → BxiMsg}
    (parent : (f (s.msgs msg)).parentRequest = (s.msgs msg).parentRequest)
    (moved : ∀ req, more req + (f (s.msgs msg)).belongs req =
      extra req + (s.msgs msg).belongs req) :
    Tallied more (s.modMsg msg f) := by
  refine ⟨?_, ?_, tallied.alive⟩
  · intro other below
    have same : (s.modMsg msg f).reqOf other = s.reqOf other := by
      unfold State.reqOf
      by_cases here : other = msg
      · subst here
        simpa [State.modMsg] using parent
      · simp [State.modMsg, here]
    rw [same]
    exact tallied.parents other below
  · intro req below
    have members : (s.modMsg msg f).members req + (s.msgs msg).belongs req =
        s.members req + (f (s.msgs msg)).belongs req := total_update old _
    have before := tallied.exact req below
    have balance := moved req
    change (s.reqs req).msgRefCount = _
    omega

theorem ref (tallied : Tallied extra s) {msg : MsgId} (old : msg < s.nextMsg) :
    Tallied extra (s.ref msg) := by
  apply tallied.modMsg old
  · rfl
  · intro req
    rfl

/-- A new message of a request which is alive. -/
theorem newMsg (tallied : Tallied extra s) {msg : BxiMsg}
    (live : msg.live = true) (old : msg.parentRequest < s.nextReq)
    (parent : (s.reqs msg.parentRequest).live = true) :
    Tallied extra (s.newMsg msg) := by
  have members := s.members_newMsg live
  refine ⟨?_, ?_, ?_⟩
  · intro other below
    change ((Function.update s.msgs s.nextMsg msg) other).parentRequest < _
    by_cases new : other = s.nextMsg
    · subst new
      rw [Function.update_self]
      exact old
    · rw [Function.update_of_ne new]
      have below : other < s.nextMsg + 1 := below
      have earlier : other < s.nextMsg :=
        lt_of_le_of_ne (Nat.lt_succ_iff.mp below) new
      exact tallied.parents other earlier
  · intro req below
    have before := tallied.exact req below
    rw [members]
    by_cases here : req = msg.parentRequest
    · subst here
      rw [single_self]
      simp only [State.newMsg, Function.update_self]
      omega
    · rw [single_of_ne here]
      simpa [State.newMsg, here] using before
  · intro req below
    by_cases here : req = msg.parentRequest
    · subst here
      simp [State.newMsg, parent]
    · simpa [State.newMsg, here] using tallied.alive req below

/-- A new request with its message. -/
theorem newRequest (tallied : Tallied extra s) {req : BxiRequest}
    {msg : BxiMsg} (live : req.live = true) (unused : req.msgRefCount = 0)
    (alive : msg.live = true) (parent : msg.parentRequest = s.nextReq)
    (nothing : extra s.nextReq = 0) :
    Tallied extra (State.newMsg { s with
      reqs := Function.update s.reqs s.nextReq req
      nextReq := s.nextReq + 1 } msg) := by
  let created : State := { s with
    reqs := Function.update s.reqs s.nextReq req
    nextReq := s.nextReq + 1 }
  have members := created.members_newMsg alive
  rw [parent] at members
  have none_yet : s.members s.nextReq = 0 := by
    apply total_eq_zero
    intro other old
    have elsewhere : ¬(s.msgs other).parentRequest = s.nextReq :=
      Nat.ne_of_lt (tallied.parents other old)
    simp [BxiMsg.belongs, elsewhere]
  refine ⟨?_, ?_, ?_⟩
  · intro other below
    change ((Function.update s.msgs s.nextMsg msg) other).parentRequest <
      s.nextReq + 1
    by_cases new : other = s.nextMsg
    · subst new
      rw [Function.update_self, parent]
      exact Nat.lt_succ_self _
    · rw [Function.update_of_ne new]
      have below : other < s.nextMsg + 1 := below
      have earlier : other < s.nextMsg :=
        lt_of_le_of_ne (Nat.lt_succ_iff.mp below) new
      exact Nat.lt_succ_of_lt (tallied.parents other earlier)
  · intro other below
    have counted := members other
    rw [counted]
    change _ = s.members other + _ + _
    by_cases here : other = s.nextReq
    · subst here
      simp [State.newMsg, parent, unused, none_yet, nothing]
    · have below : other < s.nextReq + 1 := below
      have before := tallied.exact other
        (lt_of_le_of_ne (Nat.lt_succ_iff.mp below) here)
      rw [single_of_ne here]
      simpa [State.newMsg, parent, here] using before
  · intro other below
    by_cases here : other = s.nextReq
    · subst here
      simp [State.newMsg, parent, live]
    · have below : other < s.nextReq + 1 := below
      have before := tallied.alive other
        (lt_of_le_of_ne (Nat.lt_succ_iff.mp below) here)
      simpa [State.newMsg, parent, here] using before

/-- A destructor drops the reference to the request. -/
theorem dropRequestRef (tallied : Tallied extra s) {req : ReqId}
    (old : req < s.nextReq)
    (loses : ∀ other, more other + single req other = extra other) :
    Tallied more (s.dropRequestRef req) ∧
      (s.dropRequestRef req).halted = s.halted := by
  have here := loses req
  have counted := tallied.exact req old
  rw [single_self] at here
  have positive : 0 < (s.reqs req).msgRefCount := by omega
  have alive := (tallied.alive req old).mpr positive
  have live : s.live (.req req) = true := by
    simp [State.live, alive, old]
  unfold State.dropRequestRef
  rw [if_neg (by simp [live])]
  refine ⟨⟨tallied.parents, ?_, ?_⟩, rfl⟩
  · intro other below
    have before := tallied.exact other below
    have moved := loses other
    change _ = s.members other + more other
    by_cases same : other = req
    · subst same
      simp only [State.modReq, Function.update_self]
      omega
    · rw [single_of_ne same] at moved
      simp only [State.modReq, Function.update_of_ne same]
      omega
  · intro other below
    by_cases same : other = req
    · subst same
      simp only [State.modReq, Function.update_self, decide_eq_true_eq]
      omega
    · simp only [State.modReq, Function.update_of_ne same]
      exact tallied.alive other below

/-- A message whose destructor runs has still to drop its request. -/
theorem destroyed (tallied : Tallied extra s) {msg : MsgId}
    (alive : s.live (.msg msg) = true) :
    Tallied (fun req => extra req + single (s.reqOf msg) req)
      (s.modMsg msg fun m => { m with live := false }) := by
  have live := (State.live_msg_iff.mp alive).1
  apply tallied.modMsg (State.old_of_live alive)
  · rfl
  · intro req
    have gone : BxiMsg.belongs req
        { s.msgs msg with live := false } = 0 := by
      simp [BxiMsg.belongs]
    have mine : (s.msgs msg).belongs req = single (s.reqOf msg) req := by
      unfold BxiMsg.belongs single State.reqOf
      by_cases here : (s.msgs msg).parentRequest = req
      · simp [live, here]
      · simp [here, Ne.symm here]
    rw [gone, mine]
    rfl

/-- The end of a destructor, after the messages it has released. -/
theorem dropParent (tallied : Tallied extra s) {msg : MsgId}
    (alive : s.live (.msg msg) = true) {state : State}
    (dropped : Drops (s.modMsg msg fun m => { m with live := false }) state)
    (rest : Tallied (fun req => extra req + single (s.reqOf msg) req) state) :
    Tallied extra (state.dropRequestRef (state.reqOf msg)) ∧
      (state.dropRequestRef (state.reqOf msg)).halted = state.halted := by
  let dead := s.modMsg msg fun m => { m with live := false }
  have parent : s.reqOf msg < s.nextReq :=
    tallied.parents msg (State.old_of_live alive)
  have reqOf : dead.reqOf msg = s.reqOf msg := by
    simp [dead, State.reqOf, State.modMsg]
  have same : state.reqOf msg = s.reqOf msg := by
    obtain ⟨sameReqs, sameMsgs, stops⟩ := dropped
    obtain ⟨live, count, equal⟩ := sameMsgs msg
    rw [← reqOf]
    exact (congrArg BxiMsg.parentRequest equal :)
  have below : s.reqOf msg < state.nextReq := by
    cases dropped
    exact parent
  rw [same]
  exact rest.dropRequestRef below fun _ => rfl

/-- A destructor which releases other messages on its way. -/
theorem destroyMsg {unref : State → MsgId → State}
    (drops : ∀ s msg, Drops s (unref s msg))
    (keeps : ∀ {extra : ReqId → Nat} {s : State} (msg : MsgId),
      Tallied extra s → Tallied extra (unref s msg))
    (tallied : Tallied extra s) {msg : MsgId}
    (alive : s.live (.msg msg) = true) :
    Tallied extra (s.destroyMsg unref msg) := by
  have without := tallied.destroyed alive
  unfold State.destroyMsg
  dsimp only
  split
  · rename_i answered answers
    exact (tallied.dropParent alive (drops _ answered)
      (keeps answered without)).1
  · exact (tallied.dropParent alive (.refl _) without).1

theorem halt (tallied : Tallied extra s) (reason : Halt) :
    Tallied extra (s.halt reason) := { tallied with }

theorem unrefWithin (fuel : Nat) (tallied : Tallied extra s) (msg : MsgId) :
    Tallied extra (s.unrefWithin fuel msg) := by
  induction fuel generalizing extra s msg with
  | zero => exact tallied
  | succ fuel induction =>
      cases alive : s.live (.msg msg) with
      | false =>
          rw [State.unrefWithin_dead fuel alive]
          exact tallied.halt _
      | true =>
          have lowered : Tallied extra (s.modMsg msg fun m =>
              { m with refCount := m.refCount - 1 }) := by
            apply tallied.modMsg (State.old_of_live alive)
            · rfl
            · intro req
              rfl
          by_cases last : (s.msgs msg).refCount = 1
          · rw [State.unrefWithin_last fuel alive last]
            apply destroyMsg (Drops.unrefWithin fuel)
            · intro extra s msg tallied
              exact induction tallied msg
            · exact lowered
            · rw [State.live_msg_iff] at alive ⊢
              simpa [State.modMsg] using alive
          · rw [State.unrefWithin_kept fuel alive last]
            exact lowered

theorem unref (tallied : Tallied extra s) (msg : MsgId) :
    Tallied extra (s.unref msg) := tallied.unrefWithin (msg + 1) msg

/-- `BxiPT::free` deletes headers which others may still hold. -/
theorem deleteMsg (tallied : Tallied extra s) (msg : MsgId) :
    Tallied extra (s.deleteMsg msg) := by
  unfold State.deleteMsg
  cases alive : s.live (.msg msg) with
  | false => exact tallied.halt _
  | true =>
      apply destroyMsg Drops.unref
      · intro extra s msg tallied
        exact tallied.unref msg
      · exact tallied
      · exact alive

theorem ptFree (tallied : Tallied extra s) (ni : NiId) (index : Nat)
    (pt : PtId) : Tallied extra (ptFree s ni index pt) := by
  have entries : ∀ (entries : List MeId) {s : State}, Tallied extra s →
      Tallied extra (entries.foldl destroyMe s) := by
    intro entries
    induction entries with
    | nil => exact fun tallied => tallied
    | cons me entries induction =>
        intro s tallied
        exact induction (tallied.preserves (.of_tables rfl rfl rfl rfl))
  have headers : ∀ (headers : List MsgId) {s : State}, Tallied extra s →
      Tallied extra (headers.foldl State.deleteMsg s) := by
    intro headers
    induction headers with
    | nil => exact fun tallied => tallied
    | cons header headers induction =>
        intro s tallied
        exact induction (tallied.deleteMsg header)
  have deleted := headers (s.pts pt).unexpectedHeaders
    (entries (s.pts pt).overflowList (entries (s.pts pt).priorityList tallied))
  exact deleted.preserves (.of_tables rfl rfl rfl rfl)

end Tallied

/-! ## Steps -/

section Steps

variable {sys : Sys} {self : Actor} {s after : State}

/-- Nothing is being destroyed. -/
def State.Tallied (s : State) : Prop := S4BXI.Tallied (fun _ => 0) s

theorem msgPtrs_live {msg : MsgId} {ptrs : List Ptr}
    (alive : ∀ ptr ∈ ptrs, s.live ptr = true)
    (within : msgPtrs s msg ⊆ ptrs) :
    s.live (.msg msg) = true ∧ (s.reqs (s.reqOf msg)).live = true ∧
      s.reqOf msg < s.nextReq := by
  have message := alive (.msg msg) (within (by simp [msgPtrs]))
  have request := alive (.req (s.reqOf msg)) (within (by simp [msgPtrs]))
  simp only [State.live, Bool.and_eq_true, decide_eq_true_eq] at request
  exact ⟨message, request⟩

/-- An answer to a message whose request is alive. -/
theorem State.Tallied.answer (tallied : s.Tallied) {msg : MsgId}
    {answer : BxiMsg} (live : answer.live = true)
    (parent : answer.parentRequest = s.reqOf msg)
    (alive : s.live (.msg msg) = true ∧
      (s.reqs (s.reqOf msg)).live = true ∧ s.reqOf msg < s.nextReq) :
    (s.newMsg answer).Tallied := by
  apply S4BXI.Tallied.newMsg tallied live
  · rw [parent]
    exact alive.2.2
  · rw [parent]
    exact alive.2.1

theorem State.Tallied.answering (tallied : s.Tallied) {msg : MsgId}
    (fail : NiFailType) (kind : ReqType)
    (alive : s.live (.msg msg) = true ∧
      (s.reqs (s.reqOf msg)).live = true ∧ s.reqOf msg < s.nextReq) :
    (answering s msg fail kind).Tallied := by
  cases kind with
  | put => exact tallied
  | atomic => exact tallied
  | get => exact tallied.answer rfl rfl alive
  | fetchAtomic => exact tallied.answer rfl rfl alive

theorem Phase.tallied {op : Op} {new : List Op}
    (phase : Phase sys self s op after new) (within : op.Within s.bounds)
    (alive : ∀ ptr ∈ op.derefs sys self s, s.live ptr = true)
    (tallied : s.Tallied) : after.Tallied := by
  by_cases plain : op.counting = false
  · exact S4BXI.Tallied.preserves tallied (phase.preserves plain)
  have kept : Preserves s after → after.Tallied :=
    S4BXI.Tallied.preserves tallied
  cases phase with
  | quiet quiet => exact tallied
  | @respondUnmatched msg fail kind type fetches fresh absent =>
      have known := msgPtrs_live alive (List.subset_append_left _ _)
      have answered := tallied.answering fail kind known
      exact answered.preserves (.modMsg _ _ rfl rfl)
  | @matched msg pt list me fail kind effects stop type fresh found memory
      later stops =>
      have known := msgPtrs_live alive (List.subset_append_left _ _)
      have old : msg < (answering s msg fail kind).nextMsg :=
        lt_of_lt_of_le within (Extends.answering s msg fail kind).nextMsg
      have answered := tallied.answering fail kind known
      have held : ((answering s msg fail kind).keep msg list).Tallied := by
        cases list with
        | priority => exact answered
        | overflow => exact answered.ref old
      exact held.preserves (.deposit s msg pt list me fail kind effects stop)
  | handleResponse type | handlePtlAck type =>
      exact kept (.of_tables rfl rfl rfl rfl)
  | @ackWithoutAnswer msg type fresh missing =>
      have changed := Preserves.finished s (s.reqOf msg)
      exact kept { changed with }
  | @handleBxiAck msg answered type fresh answers =>
      have changed := Preserves.finished s (s.reqOf msg)
      exact kept (changed.trans (.touch _ _ _))
  | @quickAck msg type fail quick =>
      have changed := Preserves.finished s (s.reqOf msg)
      exact kept { changed with }
  | @sendAck msg type fail slow | @sendBxiAck msg md on =>
      have known := msgPtrs_live alive (List.Subset.refl _)
      apply S4BXI.Tallied.ref
      · exact tallied.answer rfl rfl known
      · exact Nat.lt_succ_of_lt within
  | @unref msg after equality drops =>
      rw [equality]
      exact S4BXI.Tallied.unref tallied msg
  | @e2eEnqueue msg =>
      exact (S4BXI.Tallied.ref tallied within).preserves
        (.of_tables rfl rfl rfl rfl)
  | gaveUp pending last => exact kept (.of_tables rfl rfl rfl rfl)
  | @retransmit msg pending more =>
      have known := msgPtrs_live alive (List.Subset.refl _)
      obtain ⟨copy, cell, parent, copied⟩ :=
        Preserves.retransmit sys self s msg
      have live : copy.live = true := congrArg Cell.live cell
      exact (tallied.answer live parent known).preserves copied
  | retryPanic pending beyond => exact kept (.of_tables rfl rfl rfl rfl)
  | _ => exact absurd rfl plain

theorem CallPhase.tallied {call : Call} {new : List Op}
    (phase : CallPhase sys self s call after new) (tallied : s.Tallied) :
    after.Tallied := by
  have kept : Preserves s after → after.Tallied :=
    S4BXI.Tallied.preserves tallied
  cases phase with
  | @ptFree ni index pt after allocated equality frees =>
      rw [equality]
      exact S4BXI.Tallied.ptFree tallied ni index pt
  | meUnlink free unlinks => exact kept (.unlinks unlinks)
  | @request cmd =>
      apply S4BXI.Tallied.newRequest tallied
      · rfl
      · rfl
      · rfl
      · rfl
      · rfl
  | _ => exact kept (.of_tables rfl rfl rfl rfl)

theorem Advances.tallied {index : ThreadId} {label : Label}
    (advances : Advances sys s index label after) (wellScoped : WellScoped s)
    (tallied : s.Tallied) : after.Tallied := by
  have kept : Preserves s after → after.Tallied :=
    S4BXI.Tallied.preserves tallied
  cases advances with
  | run found alive phase =>
      have within := wellScoped.ops _ (List.mem_of_getElem? found) _
        List.mem_cons_self
      exact { phase.tallied within alive tallied with }
  | call found user owned alive phase => exact { phase.tallied tallied with }
  | _ => exact kept (.of_tables rfl rfl rfl rfl)

theorem ReachedBy.tallied {allowed : State → Label → Prop}
    (reached : ReachedBy sys allowed s) : s.Tallied := by
  have start : (initial sys).Tallied := by
    refine ⟨?_, ?_, ?_⟩
    · intro msg old
      exact absurd old (Nat.not_lt_zero msg)
    · intro req old
      exact absurd old (Nat.not_lt_zero req)
    · intro req old
      exact absurd old (Nat.not_lt_zero req)
  apply reached.invariant_of_reached start
  intro before after label earlier tallied _ stepped
  exact (step_advances stepped).tallied (ReachedBy.wellScoped earlier) tallied

/-- A request is alive as long as one of its messages is. -/
theorem State.Tallied.live_iff (tallied : s.Tallied) {req : ReqId}
    (old : req < s.nextReq) :
    (s.reqs req).live = true ↔ ∃ msg < s.nextMsg,
      (s.msgs msg).live = true ∧ s.reqOf msg = req := by
  rw [tallied.alive req old, tallied.exact req old]
  constructor
  · intro positive
    by_contra nobody
    have nothing : s.members req = 0 := by
      apply total_eq_zero
      intro msg below
      unfold BxiMsg.belongs
      exact if_neg fun both => nobody ⟨msg, below, both⟩
    omega
  · intro somebody
    obtain ⟨msg, below, both⟩ := somebody
    have least : (s.msgs msg).belongs req ≤ s.members req :=
      weight_le_total below
    have mine : (s.msgs msg).belongs req = 1 := if_pos both
    omega

/-- In every reachable state, a request counts its messages which are alive, and
it is alive exactly as long as one of them is. -/
theorem request_lives_with_messages (reachable : Reachable sys s)
    {req : ReqId} (old : req < s.nextReq) :
    (s.reqs req).msgRefCount = s.members req ∧
      ((s.reqs req).live = true ↔ ∃ msg < s.nextMsg,
        (s.msgs msg).live = true ∧ s.reqOf msg = req) := by
  have tallied := ReachedBy.tallied reachable
  exact ⟨tallied.exact req old, tallied.live_iff old⟩

end Steps

/-- The messages of an acknowledged Put: the request, its acknowledgement and
the BXI ACK. -/
theorem acknowledged_request_lives :
    ∃ s, Reachable (twoNodes {} { e2eOff := false }) s ∧ s.members 0 = 3 ∧
      ∃ msg < s.nextMsg, (s.msgs msg).live = true ∧ s.reqOf msg = 0 := by
  obtain ⟨s, reachable, holds⟩ := reachable_of_executes
    (twoNodes {} { e2eOff := false }) acknowledgedPut
    (fun s => decide (0 < s.nextReq) && (s.reqs 0).live &&
      (s.reqs 0).msgRefCount == 3) (by decide +kernel)
  simp only [Bool.and_eq_true, decide_eq_true_eq, beq_iff_eq] at holds
  obtain ⟨⟨old, live⟩, three⟩ := holds
  have lives := request_lives_with_messages reachable old
  exact ⟨s, reachable, lives.1.symm.trans three, lives.2.mp live⟩

end S4BXI
