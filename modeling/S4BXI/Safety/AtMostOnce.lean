import S4BXI.Nic.Runs
import S4BXI.Safety.Shape

/-!
# At-most-once processing

Every effect of a request is paid for by the progress of the request: its
`process_state` and its `*_event_issued` flags only grow, and each of them
allows one effect.  A handler which is suspended between the test which allows
an effect and the effect itself owes it, so that the effects performed and the
effects owed never exceed what the request allows.
-/

namespace S4BXI

open Lib

/-- The effects of a request: the match, the memory accesses, the counter and
the event at the target, and the three events at the initiator. -/
inductive Effect where
  | consumed | copied | applied | counted | reported | sent | acked | replied
  deriving DecidableEq, Repr

/-- The effect of issuing an event for a request. -/
def EventKind.effect : EventKind → Option Effect
  | .put | .atomic | .get | .fetchAtomic => some .reported
  | .send => some .sent
  | .ack => some .acked
  | .reply => some .replied
  | .getOverflow | .putOverflow | .atomicOverflow | .fetchAtomicOverflow
  | .ptDisabled | .autoUnlink | .autoFree | .search | .link => none

/-- Whether an entry of the log is the given effect of a request. -/
def Obs.achieves (effect : Effect) (req : ReqId) : Obs → Bool
  | .consumed other _ _ _ _ => effect == .consumed && other == req
  | .memcpy other _ _ _ => effect == .copied && other == req
  | .atomicOp other _ => effect == .applied && other == req
  | .meCounter other _ _ => effect == .counted && other == req
  | .event _ issued (.request other) =>
      issued.type.effect == some effect && other == req
  | _ => false

/-- How often a request had an effect. -/
def State.achieved (s : State) (effect : Effect) (req : ReqId) : Nat :=
  s.log.countP (Obs.achieves effect req)

/-! ## Progress of a request -/

/-- The state and the flags of a request only grow. -/
structure BxiRequest.Progress (before after : BxiRequest) : Prop where
  state : before.processState ≤ after.processState
  send : before.sendEventIssued = true → after.sendEventIssued = true
  get : before.getEventIssued = true → after.getEventIssued = true
  fetchAtomic : before.fetchAtomicEventIssued = true →
    after.fetchAtomicEventIssued = true

theorem ProcessState.le_refl (state : ProcessState) : state ≤ state :=
  Nat.le_refl _

theorem ProcessState.le_trans {first second third : ProcessState}
    (left : first ≤ second) (right : second ≤ third) : first ≤ third :=
  Nat.le_trans left right

theorem ProcessState.le_finished (state : ProcessState) :
    state ≤ .finished :=
  state.rank_le_three

theorem ProcessState.created_le (state : ProcessState) : .created ≤ state :=
  Nat.zero_le _

namespace BxiRequest.Progress

theorem refl (req : BxiRequest) : req.Progress req :=
  ⟨ProcessState.le_refl _, id, id, id⟩

theorem trans {first second third : BxiRequest}
    (left : first.Progress second) (right : second.Progress third) :
    first.Progress third :=
  ⟨ProcessState.le_trans left.state right.state, right.send ∘ left.send,
    right.get ∘ left.get, right.fetchAtomic ∘ left.fetchAtomic⟩

theorem modReq (s : State) (req : ReqId) (f : BxiRequest → BxiRequest)
    (grows : (s.reqs req).Progress (f (s.reqs req))) (other : ReqId) :
    (s.reqs other).Progress ((s.modReq req f).reqs other) := by
  simp only [State.modReq, Function.update_apply]
  split
  · rename_i equal
    exact equal ▸ grows
  · exact refl _

theorem setState {s : State} {req : ReqId} {state : ProcessState}
    (grows : (s.reqs req).processState ≤ state) (other : ReqId) :
    (s.reqs other).Progress
      ((s.modReq req fun r => { r with processState := state }).reqs other) :=
  modReq s req _ ⟨grows, id, id, id⟩ other

theorem newMsg (s : State) (msg : BxiMsg) (other : ReqId) :
    (s.reqs other).Progress ((s.newMsg msg).reqs other) := by
  simp only [State.newMsg, Function.update_apply]
  split
  · rename_i equal
    subst equal
    exact ⟨ProcessState.le_refl _, id, id, id⟩
  · exact refl _

theorem drops {s after : State} (dropped : Drops s after) (other : ReqId) :
    (s.reqs other).Progress (after.reqs other) := by
  obtain ⟨sameReqs, sameMsgs, stops⟩ := dropped
  obtain ⟨live, count, same⟩ := sameReqs other
  simp only [same]
  exact ⟨ProcessState.le_refl _, id, id, id⟩

theorem answering (s : State) (msg : MsgId) (fail : NiFailType)
    (kind : ReqType) (other : ReqId) :
    (s.reqs other).Progress ((answering s msg fail kind).reqs other) := by
  cases kind with
  | put => exact refl _
  | atomic => exact refl _
  | get => exact newMsg s _ other
  | fetchAtomic => exact newMsg s _ other

/-- A request which has not been received yet makes progress with its
deposit. -/
theorem deposit (s : State) (msg : MsgId) (pt : PtId) (list : PtlList)
    (me : MeId) (fail : NiFailType) (kind : ReqType)
    (fresh : ¬(s.reqs (s.reqOf msg)).processState > .created)
    (old : msg < s.nextMsg) (other : ReqId) :
    (s.reqs other).Progress
      ((deposit s msg pt list me fail kind).reqs other) := by
  have answered := answering s msg fail kind other
  have same : (takeEntry (S4BXI.answering s msg fail kind) msg pt list
      me).reqOf msg = s.reqOf msg := by
    rw [(Extends.takeEntry (S4BXI.answering s msg fail kind) msg pt list
      me).reqOf (old.trans_le (Extends.answering s msg fail kind).nextMsg),
      (Extends.answering s msg fail kind).reqOf old]
  simp only [S4BXI.deposit, receive, Function.update_apply, same]
  split
  · rename_i equal
    subst equal
    rw [takeEntry_reqs]
    refine answered.trans ⟨?_, id, id, id⟩
    have created : (s.reqs (s.reqOf msg)).processState = .created := by
      cases state : (s.reqs (s.reqOf msg)).processState
      case created => rfl
      all_goals exact absurd (by rw [state]; decide) fresh
    cases kind <;>
      simp [S4BXI.answering, newResponse, State.newMsg, BxiMsg.copy,
        State.reqOf] at created ⊢ <;>
      (rw [created]; decide)
  · rw [takeEntry_reqs]
    exact answered

end BxiRequest.Progress

section Steps

variable {sys : Sys} {self : Actor} {s after : State}

theorem Unlinks.reqs {me : MeId} (unlinks : Unlinks s me after) :
    after.reqs = s.reqs := by
  cases unlinks <;> rfl

theorem Leaves.reqs {me : MeId} {before following : List Op}
    (leaves : Leaves s me after before following) : after.reqs = s.reqs := by
  cases leaves with
  | kept staying => rfl
  | unlinked eq event leaving unlinks kind => exact unlinks.reqs

theorem Unlinks.nextReq {me : MeId} (unlinks : Unlinks s me after) :
    after.nextReq = s.nextReq := by
  cases unlinks <;> rfl

theorem Leaves.nextReq {me : MeId} {before following : List Op}
    (leaves : Leaves s me after before following) :
    after.nextReq = s.nextReq := by
  cases leaves with
  | kept staying => rfl
  | unlinked eq event leaving unlinks kind => exact unlinks.nextReq

/-- Only API calls make requests. -/
theorem Phase.nextReq {op : Op} {new : List Op}
    (phase : Phase sys self s op after new) : after.nextReq = s.nextReq := by
  cases phase with
  | @respondUnmatched msg fail kind type fetches fresh absent =>
      cases kind <;> rfl
  | @matched msg pt list me fail kind effects stop type fresh found memory
      later stops => cases kind <;> cases list <;> rfl
  | putFinish leaves => exact leaves.nextReq
  | getFinish memory stops leaves => exact leaves.nextReq
  | atomicEvents leaves => exact leaves.nextReq
  | fetchAtomicFinish leaves => exact leaves.nextReq
  | deferredUnlink flagged unlinks => exact unlinks.nextReq
  | unref equality drops =>
      cases drops
      rfl
  | retransmit pending more =>
      unfold S4BXI.retransmit
      dsimp only
      split <;> rfl
  | _ => rfl

open BxiRequest.Progress in
theorem Phase.progress {op : Op} {new : List Op}
    (phase : Phase sys self s op after new) (within : op.Within s.bounds)
    (req : ReqId) : (s.reqs req).Progress (after.reqs req) := by
  cases phase with
  | maybeIssueSend pending =>
      refine modReq s _ _ ?_ req
      exact ⟨ProcessState.le_refl _, fun _ => rfl, id, id⟩
  | maybeIssueGet pending =>
      refine modReq s _ _ ?_ req
      exact ⟨ProcessState.le_refl _, id, fun _ => rfl, id⟩
  | maybeIssueFetchAtomic pending =>
      refine modReq s _ _ ?_ req
      exact ⟨ProcessState.le_refl _, id, id, fun _ => rfl⟩
  | respondUnmatched type fetches fresh absent =>
      exact BxiRequest.Progress.answering s _ _ _ req
  | matched type fresh found memory later stops =>
      exact BxiRequest.Progress.deposit s _ _ _ _ _ _ fresh within req
  | ackWithoutAnswer type fresh missing =>
      exact setState (ProcessState.le_finished _) req
  | handleBxiAck type fresh answers =>
      exact setState (ProcessState.le_finished _) req
  | quickAck quick =>
      exact setState (ProcessState.le_finished _) req
  | sendAck slow => exact BxiRequest.Progress.newMsg s _ req
  | putFinish leaves => exact leaves.reqs ▸ refl _
  | getFinish memory stops leaves => exact leaves.reqs ▸ refl _
  | atomicEvents leaves => exact leaves.reqs ▸ refl _
  | fetchAtomicFinish leaves => exact leaves.reqs ▸ refl _
  | deferredUnlink flagged unlinks => exact unlinks.reqs ▸ refl _
  | @responseRest msg fresh =>
      exact setState ((Nat.le_of_not_lt fresh).trans (by decide)) req
  | sendBxiAck on => exact BxiRequest.Progress.newMsg s _ req
  | @ptlAckTail msg fresh =>
      exact setState (Nat.le_trans fresh (by decide)) req
  | unref equality drops => exact BxiRequest.Progress.drops drops req
  | @retransmit msg pending more =>
      unfold S4BXI.retransmit
      dsimp only
      split <;> exact BxiRequest.Progress.newMsg _ _ req
  | _ => exact refl _

theorem CallPhase.progress {call : Call} {new : List Op}
    (phase : CallPhase sys self s call after new) {req : ReqId}
    (old : req < s.nextReq) : (s.reqs req).Progress (after.reqs req) := by
  cases phase with
  | ptFree taken equality frees =>
      obtain ⟨drops, sameMes⟩ := frees
      exact BxiRequest.Progress.drops drops req
  | meUnlink free unlinks => exact unlinks.reqs ▸ .refl _
  | @request cmd =>
      have other : req ≠ s.nextReq := Nat.ne_of_lt old
      simp only [ptlRequest, State.newMsg, newRequestMsg,
        Function.update_of_ne other]
      exact .refl _
  | _ => exact .refl _

theorem Advances.progress {index : ThreadId} {label : Label}
    (advances : Advances sys s index label after) (wellScoped : WellScoped s)
    {req : ReqId} (old : req < s.nextReq) :
    (s.reqs req).Progress (after.reqs req) := by
  cases advances with
  | dangling dead owner => exact .refl _
  | run found alive phase =>
      exact phase.progress
        (wellScoped.ops _ (List.mem_of_getElem? found) _ (by simp)) req
  | recv found target queued => exact .refl _
  | take found initiator queued => exact .refl _
  | wake found e2e alive queued => exact .refl _
  | call found user owned alive phase => exact phase.progress old

/-- A request makes progress along every run. -/
theorem Reached.progress {allowed : State → Label → Prop} {later : State}
    (reached : Reached (step sys) allowed s later) (wellScoped : WellScoped s)
    {req : ReqId} (old : req < s.nextReq) :
    (s.reqs req).Progress (later.reqs req) := by
  let Along (state : State) : Prop := WellScoped state ∧
    s.nextReq ≤ state.nextReq ∧ (s.reqs req).Progress (state.reqs req)
  have along : Along later := by
    refine reached.invariant ⟨wellScoped, Nat.le_refl _, .refl _⟩ ?_
    rintro before after label ⟨scope, grows, progress⟩ permitted stepped
    have advances := step_advances stepped
    exact ⟨scope.advances advances,
      grows.trans advances.extends.nextReq,
      progress.trans (advances.progress scope (old.trans_le grows))⟩
  exact along.2.2

end Steps

/-! ## What is owed and what is allowed -/

/-- One effect owed to a request. -/
def owed (due effect : Effect) (other req : ReqId) : Nat :=
  if due = effect ∧ other = req then 1 else 0

/-- The effects which an operation will have on a request.  With quick
acknowledgements, the call of `send_ack` issues the `ACK` event. -/
def Op.owes (quick : Bool) (reqOf : MsgId → ReqId) (effect : Effect)
    (req : ReqId) : Op → Nat
  | .putEvent _ event (.request other) =>
      match event.type.effect with
      | some due => owed due effect other req
      | none => 0
  | .meIncrementCt other _ _ => owed .counted effect other req
  | .sendEvent other => owed .sent effect other req
  | .ackEvent other _ => owed .acked effect other req
  | .sendAck msg _ _ =>
      if quick then owed .acked effect (reqOf msg) req else 0
  | .putFinish msg _ _ | .atomicFinish msg _ _ =>
      owed .reported effect (reqOf msg) req +
        if quick then owed .acked effect (reqOf msg) req else 0
  | .atomicEvents msg _ => owed .reported effect (reqOf msg) req
  | .getFinish msg _ _ =>
      owed .copied effect (reqOf msg) req +
        owed .applied effect (reqOf msg) req
  | .replyEvent msg => owed .replied effect (reqOf msg) req
  | _ => 0

attribute [local simp] Op.owes

/-- The effects which the progress of a request allows. -/
def BxiRequest.allows (quick : Bool) (req : BxiRequest) : Effect → Nat
  | .consumed | .copied | .applied | .counted =>
      (decide (req.processState > .created)).toNat
  | .reported =>
      match req.type with
      | .put | .atomic => (decide (req.processState > .created)).toNat
      | .get => req.getEventIssued.toNat
      | .fetchAtomic => req.fetchAtomicEventIssued.toNat
  | .sent => req.sendEventIssued.toNat
  | .acked =>
      if quick then (decide (req.processState > .created)).toNat
      else (decide (req.processState ≥ .answered)).toNat
  | .replied => (decide (req.processState ≥ .answered)).toNat

theorem BxiRequest.allows_le_one (quick : Bool) (req : BxiRequest)
    (effect : Effect) : req.allows quick effect ≤ 1 := by
  cases effect <;> simp only [BxiRequest.allows]
  case reported => split <;> exact Bool.toNat_le _
  case acked => split <;> exact Bool.toNat_le _
  all_goals exact Bool.toNat_le _

theorem BxiRequest.Progress.allows {before after : BxiRequest}
    (progress : before.Progress after) (same : after.type = before.type)
    (quick : Bool) (effect : Effect) :
    before.allows quick effect ≤ after.allows quick effect := by
  have received : before.processState > .created →
      after.processState > .created := fun ahead =>
    Nat.lt_of_lt_of_le ahead progress.state
  have answered : before.processState ≥ .answered →
      after.processState ≥ .answered := fun ahead =>
    Nat.le_trans ahead progress.state
  have step : ∀ {left right : Bool}, (left = true → right = true) →
      left.toNat ≤ right.toNat := fun grows => Bool.toNat_le_toNat grows
  cases effect <;> simp only [BxiRequest.allows, same]
  case reported =>
    split
    · exact step (by simpa using received)
    · exact step (by simpa using received)
    · exact step progress.get
    · exact step progress.fetchAtomic
  case sent => exact step progress.send
  case acked =>
    split
    · exact step (by simpa using received)
    · exact step (by simpa using answered)
  case replied => exact step (by simpa using answered)
  all_goals exact step (by simpa using received)

section Owed

variable (quick : Bool) (reqOf : MsgId → ReqId) (effect : Effect)
  (req : ReqId)

theorem owes_mdCounter (s : State) (other : ReqId) (md : BxiMD)
    (flag : Options) :
    opsWeight (Op.owes quick reqOf effect req)
      (mdCounter s other md flag) = 0 := by
  rcases mdCounter_cases s other md flag with ops | ⟨ct, amount, ops⟩ <;>
    simp [ops]

theorem owes_meCounter (s : State) (other : ReqId) (me : BxiME) :
    opsWeight (Op.owes quick reqOf effect req) (meCounter s other me) ≤
      owed .counted effect other req := by
  rcases meCounter_cases s other me with ops | ⟨ct, amount, ops⟩ <;>
    simp [ops]

theorem owes_pciSleep (sys : Sys) (s : State) (nid : Nid) (msg : MsgId) :
    opsWeight (Op.owes quick reqOf effect req)
      (pciSleep sys s nid msg) = 0 := by
  rcases pciSleep_cases sys s nid msg with ops | ops <;> simp [ops]

theorem owes_issueAck (s : State) (other : ReqId) (fail : NiFailType) :
    opsWeight (Op.owes quick reqOf effect req) (issueAck s other fail) =
      owed .acked effect other req := by
  simp [issueAck, owes_mdCounter]

theorem owes_issueEvent (eq : Option EqId) (event : Event) (origin : Origin)
    (other : ∀ owner, origin ≠ .request owner) :
    opsWeight (Op.owes quick reqOf effect req)
      (issueEvent eq event origin) = 0 := by
  rcases issueEvent_cases eq event origin with ops | ⟨queue, ops⟩
  · simp [ops]
  · cases origin with
    | request owner => exact absurd rfl (other owner)
    | header msg me => simp [ops]
    | entry me => simp [ops]

/-- An event reported for a request is the effect of its kind. -/
theorem owes_reported {ops : List Op} {kind : EventKind} {other : ReqId}
    {due : Effect} (reports : kind.effect = some due)
    (cases : ops = [] ∨ ∃ queue event, event.type = kind ∧
      ops = [.putEvent queue event (.request other)]) :
    opsWeight (Op.owes quick reqOf effect req) ops ≤
      owed due effect other req := by
  rcases cases with rfl | ⟨queue, event, type, rfl⟩
  · simp
  · simp [type, reports]

theorem owes_issueLink (s : State) (me : MeId) :
    opsWeight (Op.owes quick reqOf effect req) (issueLink s me) = 0 := by
  rcases issueLink_cases s me with ops | ⟨queue, event, type, ops⟩ <;>
    simp [ops]

theorem owes_sendDue (msg : MsgId) (fail : NiFailType)
    (ack : Option MsgType) :
    opsWeight (Op.owes quick reqOf effect req) (sendDue msg fail ack) ≤
      if quick then owed .acked effect (reqOf msg) req else 0 := by
  rcases sendDue_cases msg fail ack with ops | ⟨type, due, ops⟩ <;>
    simp [ops]

theorem owes_transmit (s : State) (msg : MsgId) :
    opsWeight (Op.owes quick reqOf effect req) (transmit s msg) = 0 := by
  rcases transmit_cases s msg with ⟨type, ops⟩ | ops | ⟨type, ops⟩ <;>
    simp [ops]

theorem Leaves.owes {s after : State} {me : MeId}
    {before following : List Op}
    (leaves : Leaves s me after before following) :
    opsWeight (Op.owes quick reqOf effect req) before = 0 ∧
      opsWeight (Op.owes quick reqOf effect req) following = 0 := by
  cases leaves with
  | kept staying => simp
  | unlinked eq event leaving unlinks kind =>
      exact ⟨owes_issueEvent quick reqOf effect req eq event _ (by simp),
        by simp⟩

end Owed

/-! ## Effects of a phase -/

section Achieved

variable (s : State) (effect : Effect) (req : ReqId)

theorem achieved_emit (obs : Obs) :
    (s.emit obs).achieved effect req =
      s.achieved effect req + (obs.achieves effect req).toNat := by
  cases achieves : obs.achieves effect req <;>
    simp [State.achieved, State.emit, List.countP_append, achieves]

theorem achieved_touch (effects : List Obs) (stop : Option Halt) :
    (s.touch effects stop).achieved effect req =
      s.achieved effect req + effects.countP (Obs.achieves effect req) := by
  simp [State.achieved, State.touch, List.countP_append]

variable {s}

theorem achieved_of_log {after : State} (same : after.log = s.log) :
    after.achieved effect req = s.achieved effect req := by
  simp [State.achieved, same]

theorem MemoryEffects.achieved {other : ReqId} {effects : List Obs}
    (memory : MemoryEffects other effects) :
    effects.countP (Obs.achieves effect req) ≤
      owed .copied effect other req + owed .applied effect other req := by
  cases memory <;> cases effect <;> by_cases same : other = req <;>
    simp [Obs.achieves, owed, same]

theorem Unlinks.log {after : State} {me : MeId}
    (unlinks : Unlinks s me after) : after.log = s.log := by
  cases unlinks <;> rfl

theorem Leaves.log {after : State} {me : MeId} {before following : List Op}
    (leaves : Leaves s me after before following) : after.log = s.log := by
  cases leaves with
  | kept staying => rfl
  | unlinked eq event leaving unlinks kind => exact unlinks.log

theorem takeEntry_log (s : State) (msg : MsgId) (pt : PtId) (list : PtlList)
    (me : MeId) : (takeEntry s msg pt list me).log =
      s.log ++ [.consumed (s.reqOf msg) msg pt list me] := by
  cases list with
  | priority => rfl
  | overflow =>
      simp [takeEntry, State.emit, State.modPt, State.ref, State.modMsg,
        State.modMe, State.reqOf]

theorem answering_log (s : State) (msg : MsgId) (fail : NiFailType)
    (kind : ReqType) : (answering s msg fail kind).log = s.log := by
  cases kind <;> rfl

theorem deposit_log {msg : MsgId} (old : msg < s.nextMsg) (pt : PtId)
    (list : PtlList) (me : MeId) (fail : NiFailType) (kind : ReqType) :
    (deposit s msg pt list me fail kind).log =
      s.log ++ [.consumed (s.reqOf msg) msg pt list me] := by
  have same := (Extends.answering s msg fail kind).reqOf old
  rw [← same, ← answering_log s msg fail kind]
  exact takeEntry_log _ msg pt list me

theorem deposit_processState {msg : MsgId} (old : msg < s.nextMsg)
    (pt : PtId) (list : PtlList) (me : MeId) (fail : NiFailType)
    (kind : ReqType) :
    ((deposit s msg pt list me fail kind).reqs
      (s.reqOf msg)).processState = .received := by
  have same : (takeEntry (answering s msg fail kind) msg pt list me).reqOf
      msg = s.reqOf msg := by
    rw [(Extends.takeEntry (answering s msg fail kind) msg pt list
      me).reqOf (old.trans_le (Extends.answering s msg fail kind).nextMsg),
      (Extends.answering s msg fail kind).reqOf old]
  simp [deposit, receive, same]

end Achieved

section Pays

variable {sys : Sys} {self : Actor} {s after : State}

/-- The handler of an unmatched Put calls `send_ack` at once. -/
def Unmatched (sys : Sys) (s : State) (op : Op) (new : List Op) : Prop :=
  sys.cfg.quickAcks = true ∧ ∃ msg fail, op = .handle msg ∧
    new = [.sendAck msg .ptlAck fail] ∧
    (s.reqs (s.reqOf msg)).processState = .created

theorem Quiet.pays {op : Op} {new : List Op}
    (quiet : Quiet sys self s op new) :
    (∀ effect req,
      opsWeight (Op.owes sys.cfg.quickAcks s.reqOf effect req) new ≤
        op.owes sys.cfg.quickAcks s.reqOf effect req) ∨
    Unmatched sys s op new := by
  cases quiet with
  | resched | releaseOff off | resumeDone waiting | sendIssued issued
  | getIssued issued | fetchAtomicIssued issued | duplicate request known
  | unanswered type fresh absent | finished type known
  | notFlagged unflagged | responseKnown known | bxiAckOff off
  | ptlAckKnown known => exact .inl fun effect req => by simp
  | sendEvent =>
      exact .inl fun effect req =>
        owes_reported _ _ effect req rfl (sendEvent_cases s _)
  | ackEvent =>
      exact .inl fun effect req =>
        owes_reported _ _ effect req rfl (ackEvent_cases s _ _)
  | @unmatched msg fail type fresh absent asked =>
      cases quick : sys.cfg.quickAcks with
      | false => exact .inl fun effect req => by simp
      | true =>
          refine .inr ⟨quick, msg, fail, rfl, rfl, ?_⟩
          cases state : (s.reqs (s.reqOf msg)).processState
          case created => rfl
          all_goals exact absurd (by rw [state]; decide) fresh
  | @atomicFinish msg me fail =>
      refine .inl fun effect req => ?_
      have due := owes_sendDue sys.cfg.quickAcks s.reqOf effect req msg fail
        (ackDue sys s (s.reqOf msg) (s.mes me))
      simp only [S4BXI.atomicFinish, opsWeight_append, opsWeight_cons,
        owes_pciSleep, Op.owes]
      omega
  | replyEvent =>
      exact .inl fun effect req =>
        owes_reported _ _ effect req rfl (replyEvent_cases s _)
  | @bxiAckTail msg =>
      refine .inl fun effect req => ?_
      rcases bxiAckTail_cases s msg with
        ops | ops | ⟨type, ops⟩ | ⟨type, ops⟩ <;> simp [ops]
  | @commInit msg =>
      refine .inl fun effect req => ?_
      rcases commInit_cases sys self s msg with
        ⟨on, type, ⟨first, ops⟩ | ⟨again, ops⟩⟩ | ⟨off, ops⟩ <;>
        simp [ops]
  | @handlePutEnd msg =>
      refine .inl fun effect req => ?_
      rcases handlePutEnd_cases s msg with ops | ops <;> simp [ops]
  | @handleResponseEnd msg =>
      refine .inl fun effect req => ?_
      rcases handleResponseEnd_cases sys self s msg with
        ops | ⟨type, ops⟩ | ⟨type, ops⟩ <;> simp [ops]
  | acknowledged known => exact .inl fun effect req => by simp

/-- The account of a phase: what it does and what it still owes was owed before
or is allowed by the progress it makes. -/
def Balanced (sys : Sys) (s : State) (op : Op) (after : State)
    (new : List Op) (effect : Effect) (req : ReqId) : Prop :=
  after.achieved effect req +
      opsWeight (Op.owes sys.cfg.quickAcks after.reqOf effect req) new +
      (s.reqs req).allows sys.cfg.quickAcks effect ≤
    s.achieved effect req + op.owes sys.cfg.quickAcks s.reqOf effect req +
      (after.reqs req).allows sys.cfg.quickAcks effect

/-- The deposit of a request allows all its effects at the target. -/
theorem balanced_matched {msg : MsgId} {pt : PtId} {list : PtlList}
    {me : MeId} {fail : NiFailType} {kind : ReqType} {effects : List Obs}
    {stop : Option Halt} (old : msg < s.nextMsg)
    (parent : s.reqOf msg < s.nextReq) (type : (s.parent msg).type = kind)
    (fresh : ¬(s.reqs (s.reqOf msg)).processState > .created)
    (memory : MemoryEffects (s.reqOf msg) effects)
    (later : kind = .get → effects = []) {effect : Effect} {req : ReqId}
    (mono : (s.reqs req).allows sys.cfg.quickAcks effect ≤
      ((deposit s msg pt list me fail kind).reqs req).allows
        sys.cfg.quickAcks effect) :
    Balanced sys s (.handle msg)
      ((deposit s msg pt list me fail kind).touch effects stop)
      (meCounter s (s.reqOf msg) (s.mes me) ++
        [finishing msg me fail s.nextMsg kind]) effect req := by
  have grows := Extends.deposit s msg pt list me fail kind
  have counter := owes_meCounter sys.cfg.quickAcks
    (deposit s msg pt list me fail kind).reqOf effect req s (s.reqOf msg)
    (s.mes me)
  have accesses := memory.achieved effect req
  have same : (deposit s msg pt list me fail kind).reqOf msg =
      s.reqOf msg := grows.reqOf old
  have log : (deposit s msg pt list me fail kind).achieved effect req =
      s.achieved effect req + owed .consumed effect (s.reqOf msg) req := by
    unfold State.achieved
    rw [deposit_log old]
    cases effect <;> by_cases equal : s.reqOf msg = req <;>
      simp [List.countP_append, Obs.achieves, owed, equal]
  unfold Balanced
  rw [achieved_touch, log]
  simp only [opsWeight_append, opsWeight_cons, opsWeight_nil]
  change _ + _ + _ + (opsWeight (Op.owes _
    (deposit s msg pt list me fail kind).reqOf effect req) _ + (Op.owes _
    (deposit s msg pt list me fail kind).reqOf effect req _ + 0)) + _ ≤
    _ + 0 + ((deposit s msg pt list me fail kind).reqs req).allows _ effect
  have none : kind = .get →
      effects.countP (Obs.achieves effect req) = 0 := by
    intro fetches
    simp [later fetches]
  generalize effects.countP (Obs.achieves effect req) = accessed
    at accesses none ⊢
  generalize opsWeight _ (meCounter s (s.reqOf msg) (s.mes me)) = counted
    at counter ⊢
  by_cases equal : s.reqOf msg = req
  · subst equal
    have received := deposit_processState old pt list me fail kind
    have unreceived : decide
        ((s.reqs (s.reqOf msg)).processState > .created) = false := by
      simpa using fresh
    have sameType : ((deposit s msg pt list me fail kind).reqs
        (s.reqOf msg)).type = kind :=
      (congrArg BxiRequest.type (grows.reqs _ parent)).trans type
    have ahead : decide (ProcessState.received > .created) = true := rfl
    unfold State.parent at type
    generalize sys.cfg.quickAcks = quick at mono ⊢
    cases effect <;> cases kind <;> cases quick <;>
      simp_all [BxiRequest.allows, finishing, owed]
  · cases kind <;> cases effect <;>
      simp [finishing, owed, same, equal] at accesses counter ⊢ <;>
      omega

/-- A phase which neither has nor adds any effect of a request. -/
theorem Balanced.idle {op : Op} {new : List Op} {effect : Effect}
    {req : ReqId}
    (mono : (s.reqs req).allows sys.cfg.quickAcks effect ≤
      (after.reqs req).allows sys.cfg.quickAcks effect)
    (log : after.achieved effect req = s.achieved effect req)
    (added : opsWeight (Op.owes sys.cfg.quickAcks after.reqOf effect req)
      new = 0) : Balanced sys s op after new effect req := by
  unfold Balanced
  omega

theorem achieved_answered (s : State) (other : ReqId) (effect : Effect)
    (req : ReqId) :
    (s.emit (.answered other)).achieved effect req =
      s.achieved effect req := by
  simp [achieved_emit, Obs.achieves]

/-- A phase which adds one effect of a request and makes the progress which
allows it. -/
theorem Balanced.paid {op : Op} {new : List Op} {due effect : Effect}
    {other req : ReqId}
    (mono : (s.reqs req).allows sys.cfg.quickAcks effect ≤
      (after.reqs req).allows sys.cfg.quickAcks effect)
    (log : after.achieved effect req = s.achieved effect req)
    (added : opsWeight (Op.owes sys.cfg.quickAcks after.reqOf effect req)
      new ≤ owed due effect other req)
    (before : (s.reqs other).allows sys.cfg.quickAcks due = 0)
    (now : (after.reqs other).allows sys.cfg.quickAcks due = 1) :
    Balanced sys s op after new effect req := by
  unfold Balanced
  by_cases paid : due = effect ∧ other = req
  · obtain ⟨rfl, rfl⟩ := paid
    have once : owed due due other other = 1 := if_pos ⟨rfl, rfl⟩
    omega
  · have none : owed due effect other req = 0 := if_neg paid
    omega

/-- A request which was not answered yet is answered. -/
theorem allows_answered {req : ReqId} {due : Effect} {quick : Bool}
    (fresh : (s.reqs req).processState ≤ .received)
    (allowed : ∀ r : BxiRequest, r.allows quick due =
      (decide (r.processState ≥ .answered)).toNat) :
    (s.reqs req).allows quick due = 0 ∧
      ((s.modReq req fun r => { r with processState := .answered }).reqs
        req).allows quick due = 1 := by
  have early : ¬(s.reqs req).processState ≥ .answered := fun late =>
    absurd (Nat.le_trans late fresh) (by decide)
  have reached : ProcessState.answered ≥ .answered := Nat.le_refl _
  rw [allowed, allowed]
  simp [State.modReq, early, reached]

theorem Phase.pays {op : Op} {new : List Op}
    (phase : Phase sys self s op after new) (allocated : Allocated s)
    (shape : ∀ msg < s.nextMsg, Shape sys s msg)
    (within : op.Within s.bounds) (opShaped : op.Shaped s self) :
    (∀ effect, ∀ req < s.nextReq, Balanced sys s op after new effect req) ∨
      after = s ∧ Unmatched sys s op new := by
  have grows := phase.extends
  have progress := phase.progress within
  have mono : ∀ effect, ∀ req < s.nextReq,
      (s.reqs req).allows sys.cfg.quickAcks effect ≤
        (after.reqs req).allows sys.cfg.quickAcks effect :=
    fun effect req old => (progress req).allows
      (congrArg BxiRequest.type (grows.reqs req old) :) _ _
  cases phase with
  | quiet quiet =>
      rcases quiet.pays with pays | unmatched
      · refine .inl fun effect req old => ?_
        have bound := pays effect req
        unfold Balanced
        omega
      · exact .inr ⟨rfl, unmatched⟩
  | @putEvent eq event origin =>
      refine .inl fun effect req old => ?_
      unfold Balanced
      rw [achieved_emit]
      have paid : (Obs.achieves effect req (.event eq event origin)).toNat =
          Op.owes sys.cfg.quickAcks s.reqOf effect req
            (.putEvent eq event origin) := by
        cases origin with
        | entry me => rfl
        | header msg me => rfl
        | request other =>
            cases due : event.type.effect with
            | none => simp [Obs.achieves, due]
            | some due' =>
                by_cases same : due' = effect <;>
                  by_cases equal : other = req <;>
                  simp [Obs.achieves, owed, due, same, equal]
      have sleep : opsWeight (Op.owes sys.cfg.quickAcks
          (s.emit (.event eq event origin)).reqOf effect req) [.resched] =
          0 := rfl
      rw [paid, sleep]
      exact Nat.le_refl _
  | @meIncrementCt other ct amount =>
      refine .inl fun effect req old => ?_
      unfold Balanced
      rw [achieved_emit]
      have paid : (Obs.achieves effect req
            (.meCounter other ct amount)).toNat =
          Op.owes sys.cfg.quickAcks s.reqOf effect req
            (.meIncrementCt other ct amount) := by
        by_cases equal : other = req <;> cases effect <;>
          simp [Obs.achieves, owed, equal]
      have sleep : opsWeight (Op.owes sys.cfg.quickAcks
          (s.emit (.meCounter other ct amount)).reqOf effect req) [.resched] =
          0 := rfl
      rw [paid, sleep]
      exact Nat.le_refl _
  | @maybeIssueSend other pending =>
      refine .inl fun effect req old => ?_
      have added : opsWeight (Op.owes sys.cfg.quickAcks s.reqOf effect req)
          (mdCounter s other (s.reqs other).md MdOption.eventCtSend ++
            [.sendEvent other]) ≤ owed .sent effect other req := by
        simp [owes_mdCounter]
      exact .paid (mono effect req old) rfl added
        (by simp [BxiRequest.allows, pending])
        (by simp [BxiRequest.allows, State.modReq])
  | @maybeIssueGet other pending =>
      refine .inl fun effect req old =>
        .paid (mono effect req old) rfl
          (owes_reported _ _ effect req rfl (issueFetchEvent_cases _ _ _ _ _))
          ?_ ?_
      · have type : (s.reqs other).type = .get := opShaped
        simp [BxiRequest.allows, type, pending]
      · have type : (s.reqs other).type = .get := opShaped
        simp [BxiRequest.allows, type, State.modReq]
  | @maybeIssueFetchAtomic other pending =>
      refine .inl fun effect req old =>
        .paid (mono effect req old) rfl
          (owes_reported _ _ effect req rfl (issueFetchEvent_cases _ _ _ _ _))
          ?_ ?_
      · have type : (s.reqs other).type = .fetchAtomic := opShaped
        simp [BxiRequest.allows, type, pending]
      · have type : (s.reqs other).type = .fetchAtomic := opShaped
        simp [BxiRequest.allows, type, State.modReq]
  | respondUnmatched type fetches fresh absent =>
      exact .inl fun effect req old => .idle (mono effect req old)
        (achieved_of_log _ _ (answering_log s _ _ _)) (by simp)
  | @matched msg pt list me fail kind effects stop type fresh found memory
      later stops =>
      have request : (s.msgs msg).type.isRequest = true := by
        rw [type, ReqType.isRequest_msgType]
      have same := ((shape msg within).of_isRequest request).1
      rw [type] at same
      exact .inl fun effect req old => balanced_matched within
        (allocated.parents msg within) (ReqType.msgType_injective same).symm
        fresh memory later (mono effect req old)
  | handleResponse type =>
      exact .inl fun effect req old => .idle (mono effect req old)
        (achieved_answered _ _ _ _) (by simp [releaseAnswered])
  | handlePtlAck type =>
      exact .inl fun effect req old => .idle (mono effect req old)
        (achieved_answered _ _ _ _) (by simp [releaseAnswered])
  | handleBxiAck type fresh answers =>
      refine .inl fun effect req old => .idle (mono effect req old) ?_
        (by simp)
      rw [achieved_touch]
      split <;> simp [Obs.achieves, State.achieved, State.modReq]
  | @quickAck msg type fail quick =>
      refine .inl fun effect req old => ?_
      have less := mono effect req old
      unfold Balanced
      rw [achieved_answered]
      simp only [opsWeight_cons, owes_issueAck, Op.owes, quick, if_true]
        at less ⊢
      change s.achieved effect req + _ + _ ≤ s.achieved effect req + _ + _
      omega
  | sendAck slow =>
      exact .inl fun effect req old => .idle (mono effect req old) rfl
        (by simp)
  | @putFinish msg me fail after before following leaves =>
      refine .inl fun effect req old => ?_
      have less := mono effect req old
      obtain ⟨first, last⟩ :=
        leaves.owes sys.cfg.quickAcks after.reqOf effect req
      have event := owes_reported sys.cfg.quickAcks after.reqOf effect req
        rfl (issuePutLike_cases sys s .put (s.mes me) (s.reqOf msg))
      have due := owes_sendDue sys.cfg.quickAcks after.reqOf effect req msg
        fail (ackDue sys s (s.reqOf msg) (s.mes me))
      rw [grows.reqOf within.1] at due
      unfold Balanced
      rw [achieved_of_log effect req leaves.log]
      simp only [opsWeight_append, owes_pciSleep, Op.owes]
      omega
  | @getFinish msg me response effects stop after before following memory
      stops leaves =>
      refine .inl fun effect req old => ?_
      have less := mono effect req old
      obtain ⟨first, last⟩ :=
        leaves.owes sys.cfg.quickAcks after.reqOf effect req
      have accesses := memory.achieved effect req
      unfold Balanced
      rw [achieved_of_log effect req leaves.log, achieved_touch]
      simp only [opsWeight_append, opsWeight_cons, opsWeight_nil, Op.owes]
      change s.achieved effect req + _ + _ + _ ≤ _
      omega
  | @atomicEvents msg me after before following leaves =>
      refine .inl fun effect req old => ?_
      have less := mono effect req old
      obtain ⟨first, last⟩ :=
        leaves.owes sys.cfg.quickAcks after.reqOf effect req
      have event := owes_reported sys.cfg.quickAcks after.reqOf effect req
        rfl (issuePutLike_cases sys s .atomic (s.mes me) (s.reqOf msg))
      unfold Balanced
      rw [achieved_of_log effect req leaves.log]
      simp only [opsWeight_append, Op.owes]
      omega
  | @fetchAtomicFinish msg me response after before following leaves =>
      refine .inl fun effect req old => .idle (mono effect req old)
        (achieved_of_log effect req leaves.log) ?_
      obtain ⟨first, last⟩ :=
        leaves.owes sys.cfg.quickAcks after.reqOf effect req
      simp [first, last]
  | deferredUnlink flagged unlinks =>
      exact .inl fun effect req old => .idle (mono effect req old)
        (achieved_of_log effect req unlinks.log) rfl
  | txPut =>
      exact .inl fun effect req old => .idle (mono effect req old)
        (by simp [S4BXI.txPut, State.emit, Obs.achieves, State.achieved,
          State.modNode]) rfl
  | @responseRest msg fresh =>
      obtain ⟨before, now⟩ := @allows_answered s (s.reqOf msg) .replied
        sys.cfg.quickAcks (Nat.le_of_not_lt fresh) fun _ => rfl
      refine .inl fun effect req old =>
        .paid (mono effect req old) rfl ?_ before now
      simp only [opsWeight_append, opsWeight_cons, owes_pciSleep,
        owes_mdCounter, Op.owes, Nat.zero_add, Nat.add_zero]
      exact Nat.le_refl _
  | @ptlAckTail msg fresh =>
      have slow := ((shape msg within).of_ptlAck opShaped.2).2.1
      obtain ⟨before, now⟩ := @allows_answered s (s.reqOf msg) .acked
        sys.cfg.quickAcks fresh fun _ => by simp [BxiRequest.allows, slow]
      refine .inl fun effect req old =>
        .paid (mono effect req old) rfl ?_ before now
      simp [owes_issueAck]
  | unref equality drops =>
      cases drops
      exact .inl fun effect req old => .idle (mono effect req old) rfl rfl
  | exempt free =>
      exact .inl fun effect req old => .idle (mono effect req old) rfl
        (owes_transmit _ _ effect req s _)
  | granted subject checked =>
      exact .inl fun effect req old => .idle (mono effect req old)
        (by simp [releaseCq, State.achieved, State.emit, State.setCounts,
          State.modNode, Obs.achieves])
        (owes_transmit _ _ effect req s _)
  | retransmit pending more =>
      refine .inl fun effect req old => .idle (mono effect req old) ?_ rfl
      unfold S4BXI.retransmit
      dsimp only
      split <;> simp [S4BXI.txPut, State.achieved, State.emit, State.modNode,
        State.newMsg, State.modMsg, Obs.achieves]
  | appendInsert scanned =>
      exact .inl fun effect req old => .idle (mono effect req old) rfl
        (owes_issueLink _ _ effect req s _)
  | @overflow me index position header matched found deposited =>
      refine .inl fun effect req old => .idle (mono effect req old)
        (by simp [State.achieved, State.emit, State.modPt, State.modMe,
          Obs.achieves]) ?_
      rw [List.cons_append, opsWeight_cons, opsWeight_append,
        owes_issueEvent _ _ effect req _ _ _ (by simp)]
      split <;> rfl
  | releaseCounts released =>
      exact .inl fun effect req old => .idle (mono effect req old)
        (by simp [State.achieved, State.emit, State.setCounts, State.modNode,
          Obs.achieves]) (by split <;> rfl)
  | ackWithoutAnswer type fresh missing | sendBxiAck on | e2eEnqueue
  | appendConsumed =>
      exact .inl fun effect req old => .idle (mono effect req old) rfl rfl
  | _ =>
      exact .inl fun effect req old => .idle (mono effect req old)
        (by simp [State.achieved, State.emit, State.halt, State.modNode,
          State.setCounts, Obs.achieves, S4BXI.commStart]) rfl

/-! ## Steps and runs -/

/-- The effects a request had and the ones it is owed. -/
def State.account (sys : Sys) (s : State) (effect : Effect) (req : ReqId) :
    Nat :=
  s.achieved effect req +
    pending (Op.owes sys.cfg.quickAcks s.reqOf effect req) s.threads

/-- The handler of an unmatched Put is about to call `send_ack`. -/
def Answering (sys : Sys) (s : State) (req : ReqId) : Prop :=
  sys.cfg.quickAcks = true ∧
    ∃ (index : ThreadId) (self : Actor) (msg : MsgId) (type : MsgType)
      (fail : NiFailType) (rest : List Op),
      s.threads[index]? = some ⟨self, .sendAck msg type fail :: rest⟩ ∧
        s.reqOf msg = req

/-- What a request had and is owed is what it allows. -/
def Solvent (sys : Sys) (s : State) : Prop :=
  ∀ effect, ∀ req < s.nextReq,
    s.account sys effect req ≤ (s.reqs req).allows sys.cfg.quickAcks effect ∨
      effect = .acked ∧ s.account sys effect req ≤ 1 ∧ Answering sys s req

theorem Op.owes_congr (grows : Extends s after) {op : Op}
    (within : op.Within s.bounds) (quick : Bool) (effect : Effect)
    (req : ReqId) :
    op.owes quick after.reqOf effect req = op.owes quick s.reqOf effect req := by
  cases op with
  | sendAck msg type fail => simp only [Op.owes, grows.reqOf within]
  | putFinish msg me fail => simp only [Op.owes, grows.reqOf within.1]
  | atomicFinish msg me fail => simp only [Op.owes, grows.reqOf within.1]
  | atomicEvents msg me => simp only [Op.owes, grows.reqOf within.1]
  | getFinish msg me response => simp only [Op.owes, grows.reqOf within.1]
  | replyEvent msg => simp only [Op.owes, grows.reqOf within]
  | putEvent eq event origin => cases origin <;> rfl
  | _ => rfl

/-- The operations which stay pending owe what they owed. -/
theorem pending_owes (grows : Extends s after) (ops : OpsAllocated s)
    (quick : Bool) (effect : Effect) (req : ReqId) :
    pending (Op.owes quick after.reqOf effect req) s.threads =
      pending (Op.owes quick s.reqOf effect req) s.threads :=
  pending_congr fun thread member op pendingOp =>
    Op.owes_congr grows (ops thread member op pendingOp) quick effect req

theorem opsWeight_owes (grows : Extends s after) {ops : List Op}
    (within : ∀ op ∈ ops, op.Within s.bounds) (quick : Bool)
    (effect : Effect) (req : ReqId) :
    opsWeight (Op.owes quick after.reqOf effect req) ops =
      opsWeight (Op.owes quick s.reqOf effect req) ops :=
  congrArg List.sum (List.map_congr_left fun op member =>
    Op.owes_congr grows (within op member) quick effect req)

/-- The account after the first operation of a thread was run. -/
theorem account_run {index : ThreadId} {op : Op} {rest new : List Op}
    (ops : OpsAllocated s)
    (found : s.threads[index]? = some ⟨self, op :: rest⟩)
    (phase : Phase sys self s op after new) (effect : Effect) (req : ReqId) :
    State.account sys { after with
        threads := s.threads.set index ⟨self, new ++ rest⟩ } effect req +
        s.achieved effect req +
        op.owes sys.cfg.quickAcks s.reqOf effect req =
      s.account sys effect req + after.achieved effect req +
        opsWeight (Op.owes sys.cfg.quickAcks after.reqOf effect req) new := by
  have grows := phase.extends
  have exchanged := @pending_set _ _
    (Op.owes sys.cfg.quickAcks after.reqOf effect req) _ _ _
    ⟨self, new ++ rest⟩ found
  have kept := pending_owes grows ops sys.cfg.quickAcks effect req
  have head := Op.owes_congr grows
    (ops _ (List.mem_of_getElem? found) op (by simp)) sys.cfg.quickAcks effect
    req
  simp only [opsWeight_append, opsWeight_cons] at exchanged
  unfold State.account
  change after.achieved effect req + pending (Op.owes sys.cfg.quickAcks
    after.reqOf effect req) (s.threads.set index ⟨self, new ++ rest⟩) + _ + _
    = _
  omega

/-- The account when an idle thread starts on operations which owe nothing. -/
theorem account_start {index : ThreadId} {new : List Op}
    (ops : OpsAllocated s) (grows : Extends s after)
    (found : s.threads[index]? = some ⟨self, []⟩) {effect : Effect}
    {req : ReqId}
    (log : after.achieved effect req = s.achieved effect req)
    (silent : opsWeight (Op.owes sys.cfg.quickAcks after.reqOf effect req)
      new = 0) :
    State.account sys { after with
        threads := s.threads.set index ⟨self, new⟩ } effect req =
      s.account sys effect req := by
  have exchanged := @pending_set _ _
    (Op.owes sys.cfg.quickAcks after.reqOf effect req) _ _ _ ⟨self, new⟩ found
  have kept := pending_owes grows ops sys.cfg.quickAcks effect req
  simp only [opsWeight_nil] at exchanged
  unfold State.account
  change after.achieved effect req + pending (Op.owes sys.cfg.quickAcks
    after.reqOf effect req) (s.threads.set index ⟨self, new⟩) = _
  omega

/-- A request which has not been made yet has and is owed nothing. -/
theorem account_fresh (wellScoped : WellScoped s) {req : ReqId}
    (fresh : s.nextReq ≤ req) (effect : Effect) :
    s.account sys effect req = 0 := by
  have other : ∀ {older}, older < s.nextReq → older ≠ req := fun old equal =>
    Nat.not_lt.mpr fresh (equal ▸ old)
  have done : s.achieved effect req = 0 := by
    refine List.countP_eq_zero.mpr fun obs member achieves => ?_
    have within := wellScoped.tables.log obs member
    cases obs with
    | consumed older msg pt list me =>
        simp [Obs.achieves, other within.1] at achieves
    | memcpy older dest src count =>
        simp [Obs.achieves, other within] at achieves
    | atomicOp older call => simp [Obs.achieves, other within] at achieves
    | meCounter older ct amount =>
        simp [Obs.achieves, other within] at achieves
    | event eq event origin =>
        cases origin with
        | request older => simp [Obs.achieves, other within] at achieves
        | header msg me => simp [Obs.achieves] at achieves
        | entry me => simp [Obs.achieves] at achieves
    | _ => simp [Obs.achieves] at achieves
  have owes : pending (Op.owes sys.cfg.quickAcks s.reqOf effect req)
      s.threads = 0 := by
    refine pending_eq_zero fun thread member op pendingOp => ?_
    have within := wellScoped.ops thread member op pendingOp
    have parents := wellScoped.tables.parents
    cases op with
    | putEvent eq event origin =>
        cases origin with
        | entry me => rfl
        | header msg me => rfl
        | request older =>
            simp only [Op.owes]
            split
            · simp [owed, other within]
            · rfl
    | meIncrementCt older ct amount => simp [owed, other within]
    | sendEvent older => simp [owed, other within]
    | ackEvent older fail => simp [owed, other within]
    | sendAck msg type fail =>
        simp [owed, other (parents msg within)]
    | putFinish msg me fail =>
        simp [owed, other (parents msg within.1)]
    | atomicFinish msg me fail =>
        simp [owed, other (parents msg within.1)]
    | atomicEvents msg me =>
        simp [owed, other (parents msg within.1)]
    | getFinish msg me response =>
        simp [owed, other (parents msg within.1)]
    | replyEvent msg => simp [owed, other (parents msg within)]
    | _ => rfl
  unfold State.account
  omega

theorem CallPhase.owes {call : Call} {new : List Op}
    (phase : CallPhase sys self s call after new) (effect : Effect)
    (req : ReqId) :
    after.achieved effect req = s.achieved effect req ∧
      opsWeight (Op.owes sys.cfg.quickAcks after.reqOf effect req) new =
        0 := by
  cases phase with
  | ptFree taken equality frees =>
      obtain ⟨drops, sameMes⟩ := frees
      cases drops
      exact ⟨rfl, rfl⟩
  | appendOverflow taken => exact ⟨rfl, owes_issueLink _ _ effect req _ _⟩
  | meUnlink free unlinks => exact ⟨achieved_of_log _ _ unlinks.log, rfl⟩
  | _ => exact ⟨rfl, rfl⟩

/-- The account of a request whose `send_ack` is about to run. -/
theorem Answering.runs {label : Label} {req : ReqId}
    (answering : Answering sys s req)
    (stepped : step sys s label = some after) :
    ∃ (self : Actor) (msg : MsgId) (type : MsgType) (fail : NiFailType)
      (rest : List Op), s.threads[label.thread]? =
        some ⟨self, .sendAck msg type fail :: rest⟩ ∧ s.reqOf msg = req := by
  obtain ⟨quick, index, self, msg, type, fail, rest, found, same⟩ := answering
  have running := step_thread stepped found rfl
  exact ⟨self, msg, type, fail, rest, running ▸ found, same⟩

theorem Phase.quickAck_account {msg : MsgId} {type : MsgType}
    {fail : NiFailType} {new : List Op}
    (phase : Phase sys self s (.sendAck msg type fail) after new)
    (quick : sys.cfg.quickAcks = true) (effect : Effect) (req : ReqId) :
    after.achieved effect req = s.achieved effect req ∧
      opsWeight (Op.owes sys.cfg.quickAcks after.reqOf effect req) new =
        owed .acked effect (s.reqOf msg) req ∧
      (after.reqs (s.reqOf msg)).processState = .finished := by
  cases phase with
  | quiet quiet => cases quiet
  | quickAck =>
      refine ⟨achieved_answered _ _ _ _, ?_, ?_⟩
      · simp [owes_issueAck]
      · simp [State.emit, State.modReq]
  | sendAck slow => simp [quick] at slow

theorem Solvent.run {index : ThreadId} {op : Op} {rest new : List Op}
    (solvent : Solvent sys s) (wellScoped : WellScoped s)
    (shaped : Shaped sys s)
    (found : s.threads[index]? = some ⟨self, op :: rest⟩)
    (phase : Phase sys self s op after new)
    (exclusive : ∀ req, Answering sys s req →
      ∃ msg type fail, op = .sendAck msg type fail ∧ s.reqOf msg = req)
    {effect : Effect} {req : ReqId} (old : req < s.nextReq) :
    State.account sys { after with
        threads := s.threads.set index ⟨self, new ++ rest⟩ } effect req ≤
        (after.reqs req).allows sys.cfg.quickAcks effect ∨
      effect = .acked ∧
        State.account sys { after with
          threads := s.threads.set index ⟨self, new ++ rest⟩ } effect req ≤
          1 ∧
        Answering sys { after with
          threads := s.threads.set index ⟨self, new ++ rest⟩ } req := by
  have member := List.mem_of_getElem? found
  have within := wellScoped.ops _ member op (by simp)
  have opShaped := shaped.ops _ member op (by simp)
  have exchanged := account_run wellScoped.ops found phase effect req
  rcases solvent effect req old with enough | ⟨rfl, single, answering⟩
  · rcases phase.pays wellScoped.tables shaped.msgs within opShaped with
      balanced | ⟨rfl, quick, msg, fail, rfl, rfl, created⟩
    · have balance := balanced effect req old
      unfold Balanced at balance
      left
      omega
    · by_cases paid : effect = .acked ∧ after.reqOf msg = req
      · obtain ⟨rfl, rfl⟩ := paid
        right
        have unpaid : (after.reqs (after.reqOf msg)).allows sys.cfg.quickAcks
            .acked = 0 := by
          have early : ¬ProcessState.created > .created := by decide
          simp [BxiRequest.allows, quick, created, early]
        have once : opsWeight (Op.owes sys.cfg.quickAcks after.reqOf .acked
            (after.reqOf msg)) [.sendAck msg .ptlAck fail] = 1 := by
          simp [owed, quick]
        refine ⟨rfl, ?_, quick, index, self, msg, .ptlAck, fail, rest, ?_,
          rfl⟩
        · omega
        · exact List.getElem?_set_self
            (List.getElem?_eq_some_iff.mp found).1
      · left
        have none : opsWeight (Op.owes sys.cfg.quickAcks after.reqOf effect
            req) [.sendAck msg .ptlAck fail] = 0 := by
          have unpaid : ¬(Effect.acked = effect ∧ after.reqOf msg = req) :=
            fun both => paid ⟨both.1.symm, both.2⟩
          simp [owed, unpaid]
        omega
  · left
    obtain ⟨msg, type, fail, rfl, same⟩ := exclusive req answering
    have quick := answering.1
    obtain ⟨log, added, state⟩ := phase.quickAck_account quick .acked req
    have finished : ProcessState.finished > .created := by decide
    have allowed : (after.reqs req).allows sys.cfg.quickAcks .acked = 1 := by
      rw [← same]
      simp [BxiRequest.allows, quick, state, finished]
    simp only [Op.owes, quick, if_true] at exchanged
    simp only [quick] at added allowed ⊢
    omega

/-- An idle actor starts on operations which owe nothing. -/
theorem Solvent.start {index : ThreadId} {new : List Op}
    (solvent : Solvent sys s) (wellScoped : WellScoped s)
    (grows : Extends s after)
    (progress : ∀ req < s.nextReq, (s.reqs req).Progress (after.reqs req))
    (found : s.threads[index]? = some ⟨self, []⟩)
    (idle : ∀ req, ¬Answering sys s req)
    (log : ∀ effect req, after.achieved effect req = s.achieved effect req)
    (silent : ∀ effect req, opsWeight
      (Op.owes sys.cfg.quickAcks after.reqOf effect req) new = 0) :
    Solvent sys { after with threads := s.threads.set index ⟨self, new⟩ } := by
  intro effect req small
  rw [account_start wellScoped.ops grows found (log effect req)
    (silent effect req)]
  left
  rcases Nat.lt_or_ge req s.nextReq with old | fresh
  · rcases solvent effect req old with enough | ⟨acked, single, answering⟩
    · exact enough.trans ((progress req old).allows
        (congrArg BxiRequest.type (grows.reqs req old) :) _ _)
    · exact absurd answering (idle req)
  · rw [account_fresh wellScoped fresh]
    exact Nat.zero_le _

theorem Solvent.step {label : Label} (solvent : Solvent sys s)
    (wellScoped : WellScoped s) (shaped : Shaped sys s)
    (stepped : step sys s label = some after) : Solvent sys after := by
  have advances := step_advances stepped
  have grows := advances.extends
  have progress : ∀ req < s.nextReq,
      (s.reqs req).Progress (after.reqs req) :=
    fun req old => advances.progress wellScoped old
  -- an idle actor runs, so no `send_ack` is about to run
  have idle : ∀ {self}, s.threads[label.thread]? = some ⟨self, []⟩ →
      ∀ req, ¬Answering sys s req := by
    intro self found req answering
    obtain ⟨other, msg, type, fail, rest, busy, same⟩ :=
      answering.runs stepped
    rw [found] at busy
    cases busy
  have busy : ∀ {self op rest},
      s.threads[label.thread]? = some ⟨self, op :: rest⟩ →
      ∀ req, Answering sys s req →
        ∃ msg type fail, op = .sendAck msg type fail ∧ s.reqOf msg = req := by
    intro self op rest found req answering
    obtain ⟨other, msg, type, fail, later, running, same⟩ :=
      answering.runs stepped
    rw [found] at running
    cases running
    exact ⟨msg, type, fail, rfl, same⟩
  generalize label.thread = index at advances idle busy
  cases advances with
  | dangling dead owner => exact solvent
  | @run self op rest new after found alive phase =>
      intro effect req small
      rcases Nat.lt_or_ge req s.nextReq with old | fresh
      · exact solvent.run wellScoped shaped found phase (busy found) old
      · exact absurd small (Nat.not_lt.mpr (phase.nextReq ▸ fresh))
  | recv found target queued =>
      exact solvent.start wellScoped { grows with } progress found
        (idle found) (fun _ _ => rfl) (fun _ _ => rfl)
  | take found initiator queued =>
      exact solvent.start wellScoped { grows with } progress found
        (idle found) (fun _ _ => rfl) (fun _ _ => rfl)
  | wake found e2e alive queued =>
      exact solvent.start wellScoped { grows with } progress found
        (idle found) (fun _ _ => rfl) (fun _ _ => rfl)
  | call found user owned alive phase =>
      exact solvent.start wellScoped phase.extends
        (fun req old => phase.progress old) found (idle found)
        (fun effect req => (phase.owes effect req).1)
        (fun effect req => (phase.owes effect req).2)

theorem solvent_initial (sys : Sys) : Solvent sys (initial sys) := by
  intro effect req small
  exact absurd small (Nat.not_lt_zero req)

theorem ReachedBy.solvent {allowed : State → Label → Prop}
    (reached : ReachedBy sys allowed s) : Solvent sys s :=
  reached.invariant_of_reached (solvent_initial sys)
    fun earlier holds _ stepped => holds.step (ReachedBy.wellScoped earlier)
      (ReachedBy.shaped earlier) stepped

/-- No effect happens twice. -/
theorem Solvent.achieved_le_one (solvent : Solvent sys s)
    (wellScoped : WellScoped s) (effect : Effect) (req : ReqId) :
    s.achieved effect req ≤ 1 := by
  have bound : s.account sys effect req ≤ 1 := by
    rcases Nat.lt_or_ge req s.nextReq with old | fresh
    · rcases solvent effect req old with enough | ⟨acked, single, answering⟩
      · exact enough.trans (BxiRequest.allows_le_one _ _ _)
      · exact single
    · rw [account_fresh wellScoped fresh]
      exact Nat.zero_le _
  exact (Nat.le_add_right _ _).trans bound

/-- At-most-once processing: the state of a request never decreases along a
run and each of its effects happens at most once. -/
theorem request_processed_at_most_once (reachable : Reachable sys s) :
    (∀ effect req, s.achieved effect req ≤ 1) ∧
      ∀ later, Reached (S4BXI.step sys) Anything s later →
        ∀ req < s.nextReq,
          (s.reqs req).processState ≤ (later.reqs req).processState := by
  refine ⟨fun effect req => ?_, fun later reached req old => ?_⟩
  · exact (ReachedBy.solvent reachable).achieved_le_one
      (ReachedBy.wellScoped reachable) effect req
  · exact (Reached.progress reached (ReachedBy.wellScoped reachable)
      old).state

end Pays

/-- A Put which is matched and acknowledged has each of its effects once. -/
theorem acknowledged_put_processed_once :
    ∃ s, Reachable (twoNodes {} { e2eOff := false }) s ∧
      s.achieved .consumed 0 = 1 ∧ s.achieved .reported 0 = 1 ∧
      s.achieved .sent 0 = 1 ∧ s.achieved .acked 0 = 1 ∧
      ∀ effect req, s.achieved effect req ≤ 1 := by
  obtain ⟨s, reachable, holds⟩ := reachable_of_executes
    (twoNodes {} { e2eOff := false }) acknowledgedPut
    (fun s => s.achieved .consumed 0 == 1 && s.achieved .reported 0 == 1 &&
      s.achieved .sent 0 == 1 && s.achieved .acked 0 == 1)
    (by decide +kernel)
  simp only [Bool.and_eq_true, beq_iff_eq] at holds
  obtain ⟨⟨⟨consumed, reported⟩, sent⟩, acked⟩ := holds
  exact ⟨s, reachable, consumed, reported, sent, acked,
    (request_processed_at_most_once reachable).1⟩

end S4BXI
