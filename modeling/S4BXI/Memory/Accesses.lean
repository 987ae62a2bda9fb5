import S4BXI.Memory.Managed

/-!
# The memory accessed for a request

The handlers access the memory of the target only at the address and with the
length which they stored in the request when they matched it.
-/

namespace S4BXI

open Lib

/-- Whether an effect accesses the memory of the target in the range stored in
its request only.  A Put writes it, a Get and a FetchAtomic read it, and an
atomic operation does both. -/
def Obs.InRange (s : State) : Obs → Prop
  | .memcpy req dest src count =>
      (if (s.reqs req).type = .put then dest else src) = (s.reqs req).start ∧
        count ≤ (s.reqs req).mlength
  | .atomicOp req call =>
      call.me = (s.reqs req).start ∧ call.tx = (s.reqs req).start ∧
        call.len = (s.reqs req).mlength
  | _ => True

/-- The log grows by accesses in the ranges of their requests. -/
def Ranged (s after : State) : Prop :=
  ∃ extra, after.log = s.log ++ extra ∧ ∀ obs ∈ extra, obs.InRange after

theorem cappedCount_le (cfg : Config) (count : Size) :
    cappedCount cfg count ≤ count := by
  unfold cappedCount
  split
  · exact Nat.le_refl _
  · split
    · rename_i small
      exact Nat.le_of_lt small
    · exact Nat.le_refl _

namespace Obs.InRange

variable {s after : State}

theorem of_reqs {obs : Obs} (inRange : obs.InRange s)
    (reqs : after.reqs = s.reqs) : obs.InRange after := by
  cases obs with
  | memcpy req dest src count =>
      unfold Obs.InRange
      rw [reqs]
      exact inRange
  | atomicOp req call =>
      unfold Obs.InRange
      rw [reqs]
      exact inRange
  | _ => exact trivial

end Obs.InRange

namespace Ranged

variable {s mid after : State}

theorem refl (s : State) : Ranged s s :=
  ⟨[], (List.append_nil _).symm, by simp⟩

theorem of_same (ranged : Ranged s mid) (log : after.log = mid.log)
    (reqs : after.reqs = mid.reqs) : Ranged s after := by
  obtain ⟨extra, grown, inRange⟩ := ranged
  exact ⟨extra, log.trans grown, fun obs member =>
    (inRange obs member).of_reqs reqs⟩

theorem emit (ranged : Ranged s mid) {obs : Obs} (inRange : obs.InRange mid) :
    Ranged s (mid.emit obs) := by
  obtain ⟨extra, grown, earlier⟩ := ranged
  refine ⟨extra ++ [obs], ?_, ?_⟩
  · change mid.log ++ [obs] = _
    rw [grown, List.append_assoc]
  · intro other member
    rcases List.mem_append.mp member with early | last
    · exact (earlier other early).of_reqs rfl
    · rw [List.mem_singleton.mp last]
      exact inRange.of_reqs rfl

theorem cappedMemcpy (sys : Sys) (ranged : Ranged s mid) {req : ReqId}
    {dest src : Addr}
    (place : (if (mid.reqs req).type = .put then dest else src) =
      (mid.reqs req).start) :
    Ranged s (S4BXI.cappedMemcpy sys mid req dest src
      (mid.reqs req).mlength) := by
  unfold S4BXI.cappedMemcpy
  dsimp only
  split
  · exact ranged.of_same rfl rfl
  · exact ranged.emit ⟨place, cappedCount_le _ _⟩

end Ranged

section Steps

variable {sys : Sys} {self : Actor} {s after : State}

/-! ## The handlers of requests -/

theorem ranged_deposit {msg : MsgId} (old : msg < s.nextMsg) (pt : PtId)
    (list : PtlList) (me : MeId) (fail : NiFailType) (kind : ReqType) :
    Ranged s (deposit s msg pt list me fail kind) := by
  refine ⟨_, deposit_log old pt list me fail kind, ?_⟩
  intro obs member
  rw [List.mem_singleton.mp member]
  exact trivial

theorem deposit_type {msg : MsgId} (oldReq : s.reqOf msg < s.nextReq)
    (pt : PtId) (list : PtlList) (me : MeId) (fail : NiFailType)
    (kind : ReqType) :
    ((deposit s msg pt list me fail kind).reqs (s.reqOf msg)).type =
      (s.reqs (s.reqOf msg)).type :=
  (congrArg BxiRequest.type ((Extends.deposit s msg pt list me fail kind).reqs
    _ oldReq) :)

/-- A request before its handler runs. -/
structure Arrived (s : State) (msg : MsgId) : Prop where
  allocated : msg < s.nextMsg
  parent : s.reqOf msg < s.nextReq
  type : (s.msgs msg).type.isRequest = true →
    (s.msgs msg).type = (s.parent msg).type.msgType

theorem Arrived.reqType {msg : MsgId} (arrived : Arrived s msg)
    {kind : ReqType} (type : (s.msgs msg).type = kind.msgType) :
    (s.reqs (s.reqOf msg)).type = kind := by
  have request : (s.msgs msg).type.isRequest = true := by
    rw [type]
    cases kind <;> rfl
  have same := arrived.type request
  rw [type] at same
  change _ = (s.reqs (s.reqOf msg)).type.msgType at same
  revert same
  cases kind <;> cases (s.reqs (s.reqOf msg)).type <;> simp [ReqType.msgType]

theorem handlePutRequest_ranged {msg : MsgId} (arrived : Arrived s msg)
    (type : (s.msgs msg).type = .ptlPut) :
    Ranged s (handlePutRequest sys self s msg).1 := by
  have put := @Arrived.reqType _ _ arrived .put type
  unfold handlePutRequest
  dsimp only
  split
  case isTrue known => exact .refl s
  case isFalse fresh =>
      split
      case h_1 fail absent => exact .refl s
      case h_2 pt list me fail found =>
          have shape : receive (takeEntry s msg pt list me) msg me
              (((takeEntry s msg pt list me).mes me).list == .overflow) =
              deposit s msg pt list me fail .put := by
            simp [deposit, answering, copies]
          have deposited := ranged_deposit arrived.allocated pt list me fail .put
          simp only [shape]
          split
          · apply deposited.cappedMemcpy
            rw [deposit_type arrived.parent, put]
            rfl
          · exact deposited

theorem handleAtomicRequest_ranged {msg : MsgId} (arrived : Arrived s msg) :
    Ranged s (handleAtomicRequest sys self s msg).1 := by
  unfold handleAtomicRequest
  dsimp only
  split
  case isTrue known => exact .refl s
  case isFalse fresh =>
      split
      case h_1 fail absent => exact .refl s
      case h_2 pt list me fail found =>
          have shape : receive (takeEntry s msg pt list me) msg me
              (((takeEntry s msg pt list me).mes me).list == .overflow) =
              deposit s msg pt list me fail .atomic := by
            simp [deposit, answering, copies]
          have deposited := ranged_deposit arrived.allocated pt list me fail .atomic
          simp only [shape]
          split
          · exact deposited.emit ⟨rfl, rfl, rfl⟩
          · exact deposited

theorem respondUnmatched_ranged (msg : MsgId) (type : MsgType)
    (fail : NiFailType) (response : MsgId) :
    Ranged s (respondUnmatched (newResponse s msg type fail) response).1 :=
  ⟨[], (List.append_nil _).symm, by simp⟩

theorem handleGetRequest_ranged {msg : MsgId} (arrived : Arrived s msg) :
    Ranged s (handleGetRequest sys self s msg).1 := by
  unfold handleGetRequest
  dsimp only
  split
  case isTrue known => exact .refl s
  case isFalse fresh =>
      split
      case h_1 fail absent => exact respondUnmatched_ranged msg _ fail _
      case h_2 pt list me fail found =>
          exact ranged_deposit arrived.allocated pt list me fail .get

/-- The address of the operand at the target is the one stored in the request,
since the copy of the entry is made before its offset advances. -/
theorem matchedAddr_deposit {msg : MsgId} (old : msg < s.nextMsg) (pt : PtId)
    (list : PtlList) (me : MeId) (fail : NiFailType) :
    (matchedAddr (deposit s msg pt list me fail .fetchAtomic)
      (s.reqOf msg)).1 =
      ((deposit s msg pt list me fail .fetchAtomic).reqs
        (s.reqOf msg)).start := by
  have same : (takeEntry (answering s msg fail .fetchAtomic) msg pt list
      me).reqOf msg = s.reqOf msg := by
    rw [(Extends.takeEntry (answering s msg fail .fetchAtomic) msg pt list
      me).reqOf (old.trans_le (Extends.answering s msg fail .fetchAtomic).nextMsg),
      (Extends.answering s msg fail .fetchAtomic).reqOf old]
  have copied : ((deposit s msg pt list me fail .fetchAtomic).reqs
      (s.reqOf msg)).matchedMe = some ((takeEntry (answering s msg fail
        .fetchAtomic) msg pt list me).mes me).copy := by
    simp only [deposit, receive, same, copies, if_true, Function.update_self]
    rfl
  unfold matchedAddr
  rw [copied]
  simp only [deposit, receive, same, Function.update_self]
  rfl

theorem matchedAddr_of_reqs {mid : State} {req : ReqId}
    (reqs : after.reqs = mid.reqs) :
    (matchedAddr after req).1 = (matchedAddr mid req).1 := by
  unfold matchedAddr
  rw [reqs]
  cases (mid.reqs req).matchedMe <;> rfl

theorem fetchAtomicMemory_ranged {mid : State} (ranged : Ranged s mid)
    {req : ReqId} (me : MeId) (kept : OffsetKept mid req)
    (fetches : (mid.reqs req).type = .fetchAtomic)
    (address : (matchedAddr mid req).1 = (mid.reqs req).start) :
    Ranged s (fetchAtomicMemory sys self mid req me) := by
  -- The atomic operation follows the copy of the previous value.
  have applied : ∀ {next : State} {call : AtomicCall}, Ranged s next →
      next.reqs = mid.reqs → call.me = (mid.reqs req).start →
      call.len = (mid.reqs req).mlength →
      call.tx = (matchedAddr next req).1 →
      Ranged s ((matchedAddr next req).2.emit (.atomicOp req call)) := by
    intro next call before reqs base length operand
    have same : OffsetKept next req := by
      unfold OffsetKept
      rw [reqs]
      exact kept
    rw [matchedAddr_state same]
    apply before.emit
    refine ⟨?_, ?_, ?_⟩
    · rw [reqs, base]
    · rw [operand, matchedAddr_of_reqs reqs, reqs, address]
    · rw [reqs, length]
  unfold fetchAtomicMemory
  dsimp only
  split
  · split
    · have copied : Ranged s (cappedMemcpy sys mid req
          (add64 (mid.reqs req).getMd.start (mid.reqs req).getLocalOffset)
          (mid.reqs req).start (mid.reqs req).mlength) := by
        apply ranged.cappedMemcpy
        rw [fetches]
        rfl
      have reqs : (cappedMemcpy sys mid req
          (add64 (mid.reqs req).getMd.start (mid.reqs req).getLocalOffset)
          (mid.reqs req).start (mid.reqs req).mlength).reqs = mid.reqs := by
        unfold cappedMemcpy
        dsimp only
        split <;> rfl
      exact applied copied reqs rfl rfl rfl
    · exact applied ranged rfl rfl rfl rfl
  · exact ranged

theorem handleFetchAtomicRequest_ranged {msg : MsgId}
    (arrived : Arrived s msg) (type : (s.msgs msg).type = .ptlFetchAtomic) :
    Ranged s (handleFetchAtomicRequest sys self s msg).1 := by
  have fetches := @Arrived.reqType _ _ arrived .fetchAtomic type
  unfold handleFetchAtomicRequest
  dsimp only
  split
  case isTrue known => exact .refl s
  case isFalse fresh =>
      split
      case h_1 fail absent => exact respondUnmatched_ranged msg _ fail _
      case h_2 pt list me fail found =>
          apply fetchAtomicMemory_ranged
          · exact ranged_deposit arrived.allocated pt list me fail .fetchAtomic
          · exact offsetKept_deposit s msg pt list me fail
          · exact (deposit_type arrived.parent pt list me fail
              .fetchAtomic).trans fetches
          · exact matchedAddr_deposit arrived.allocated pt list me fail

theorem handleBxiAck_ranged (msg : MsgId) :
    Ranged s (handleBxiAck sys self s msg).1 := by
  have finished : Ranged s (s.modReq (s.reqOf msg) fun r =>
      { r with processState := .finished }) :=
    ⟨[], (List.append_nil _).symm, by simp⟩
  unfold handleBxiAck
  dsimp only
  split
  · exact .refl s
  · split
    · exact finished.of_same rfl rfl
    · split
      · exact finished.emit trivial
      · exact finished

/-- The read of a Get. -/
theorem getFinish_ranged {msg : MsgId} (me : MeId) (response : MsgId)
    (gets : (s.reqs (s.reqOf msg)).type = .get) :
    Ranged s (getFinish sys s msg me response).1 := by
  have left : ∀ {base : State}, Ranged s base →
      Ranged s (leaveEntry base me []).1 := by
    intro base before
    obtain ⟨earlier, following, leaves, ops⟩ := leaves_leaveEntry base me []
    exact before.of_same leaves.log leaves.reqs
  have sized : Ranged s (s.modMsg response fun m =>
      { m with simulatedSize := (s.reqs (s.reqOf msg)).mlength }) :=
    (Ranged.refl s).of_same rfl rfl
  unfold getFinish
  dsimp only
  split
  · apply left
    apply sized.cappedMemcpy
    change (if (s.reqs (s.reqOf msg)).type = .put then _ else _) = _
    rw [gets]
    rfl
  · exact left sized

/-- No other operation accesses the memory of the target. -/
theorem Emits.inRange {op : Op} {obs : Obs} (emits : Emits sys self s op obs)
    (handles : ∀ msg, op ≠ .handle msg)
    (finishes : ∀ msg me response, op ≠ .getFinish msg me response) :
    obs.InRange after := by
  cases emits with
  | memcpy => exact absurd rfl (handles _)
  | atomicOp => exact absurd rfl (handles _)
  | getMemcpy => exact absurd rfl (finishes _ _ _)
  | getAtomicOp => exact absurd rfl (finishes _ _ _)
  | _ => exact trivial

theorem exec_ranged {op : Op} {segment : Segment}
    (executed : exec sys self s op = some segment)
    (wellScoped : WellScoped s) (shaped : Shaped sys s)
    (within : op.Within s.bounds) (fits : op.Shaped s self) :
    Ranged s segment.1 := by
  by_cases accesses : (∃ msg, op = .handle msg) ∨
      ∃ msg me response, op = .getFinish msg me response
  · rcases accesses with ⟨msg, rfl⟩ | ⟨msg, me, response, rfl⟩
    · cases executed
      have parent := wellScoped.tables.parents msg within
      have arrived : Arrived s msg :=
        ⟨within, parent, fun request =>
          ((shaped.msgs msg within).of_isRequest request).1⟩
      unfold handleMsg
      cases type : (s.msgs msg).type with
      | ptlPut => exact handlePutRequest_ranged arrived type
      | ptlGet => exact handleGetRequest_ranged arrived
      | ptlAtomic => exact handleAtomicRequest_ranged arrived
      | ptlFetchAtomic => exact handleFetchAtomicRequest_ranged arrived type
      | ptlGetResponse => exact (Ranged.refl s).emit trivial
      | ptlFetchAtomicResponse => exact (Ranged.refl s).emit trivial
      | ptlAck => exact (Ranged.refl s).emit trivial
      | e2eAck => exact handleBxiAck_ranged msg
    · cases executed
      obtain ⟨type, owner⟩ := fits
      have parent := wellScoped.tables.parents msg within.1
      have arrived : Arrived s msg :=
        ⟨within.1, parent, fun request =>
          ((shaped.msgs msg within.1).of_isRequest request).1⟩
      exact getFinish_ranged me response (@Arrived.reqType _ _ arrived .get type)
  · have phase := exec_phase executed
    obtain ⟨extra, log, emitted⟩ := phase.emits within
    refine ⟨extra, log, fun obs member => (emitted obs member).inRange ?_ ?_⟩
    · exact fun msg same => accesses (.inl ⟨msg, same⟩)
    · exact fun msg me response same =>
        accesses (.inr ⟨msg, me, response, same⟩)

/-! ## Runs -/

/-- All accesses to the memory of the targets are in the ranges stored in their
requests. -/
def Contained (s : State) : Prop :=
  ∀ obs ∈ s.log, obs.InRange s

/-- An access whose request keeps its range. -/
theorem Obs.InRange.kept {obs : Obs} (inRange : obs.InRange s)
    (within : obs.Within s.bounds) (grows : Extends s after)
    (access : ∀ req < s.nextReq,
      0 < s.achieved .copied req + s.achieved .applied req →
      (after.reqs req).access = (s.reqs req).access)
    (logged : obs ∈ s.log) : obs.InRange after := by
  cases obs with
  | memcpy req dest src count =>
      have counted : 0 < s.achieved .copied req := by
        apply List.countP_pos_iff.mpr
        exact ⟨_, logged, by simp [Obs.achieves]⟩
      have same := access req within (Nat.add_pos_left counted _)
      have type : (after.reqs req).type = (s.reqs req).type :=
        (congrArg BxiRequest.type (grows.reqs req within) :)
      simp only [Obs.InRange] at inRange ⊢
      rw [type, (Prod.mk.inj same).1,
        (Prod.mk.inj (Prod.mk.inj same).2).1]
      exact inRange
  | atomicOp req call =>
      have counted : 0 < s.achieved .applied req := by
        apply List.countP_pos_iff.mpr
        exact ⟨_, logged, by simp [Obs.achieves]⟩
      have same := access req within (Nat.add_pos_right _ counted)
      simp only [Obs.InRange] at inRange ⊢
      rw [(Prod.mk.inj same).1, (Prod.mk.inj (Prod.mk.inj same).2).1]
      exact inRange
  | _ => exact trivial

/-- A fresh request has not accessed the memory. -/
theorem Solvent.not_accessed (solvent : Solvent sys s) {req : ReqId}
    (old : req < s.nextReq) (fresh : ¬(s.reqs req).processState > .created) :
    s.achieved .copied req + s.achieved .applied req = 0 := by
  have none' : ∀ effect, effect = .copied ∨ effect = .applied →
      s.achieved effect req = 0 := by
    intro effect accesses
    rcases solvent effect req old with enough | ⟨acked, -, -⟩
    · have nothing : (s.reqs req).allows sys.cfg.quickAcks effect = 0 := by
        rcases accesses with rfl | rfl <;> simp [BxiRequest.allows, fresh]
      unfold State.account at enough
      omega
    · rw [acked] at accesses
      simp at accesses
  rw [none' _ (.inl rfl), none' _ (.inr rfl)]

theorem Advances.keepsAccess {index : ThreadId} {label : Label}
    (advances : Advances sys s index label after) (wellScoped : WellScoped s)
    (solvent : Solvent sys s) (req : ReqId) (old : req < s.nextReq)
    (accessed : 0 < s.achieved .copied req + s.achieved .applied req) :
    (after.reqs req).access = (s.reqs req).access := by
  rcases advances.accesses wellScoped.ops with untouched |
    ⟨self, msg, rest, pt, list, me, found, fresh, -, deposits⟩
  · exact untouched.access req old
  · apply deposits.others
    intro same
    rw [same] at old accessed
    rw [solvent.not_accessed old fresh] at accessed
    exact Nat.lt_irrefl 0 accessed

/-- No API call adds to the log. -/
theorem CallPhase.log {call : Call} {new : List Op}
    (phase : CallPhase sys self s call after new) : after.log = s.log := by
  cases phase with
  | ptFree taken equality frees =>
      obtain ⟨drops, sameMes⟩ := frees
      cases drops
      rfl
  | meUnlink free unlinks => exact unlinks.log
  | _ => rfl

/-- What a step adds to the log is in range. -/
theorem step_ranged {label : Label} (stepped : step sys s label = some after)
    (running : after.halted = none) (wellScoped : WellScoped s)
    (shaped : Shaped sys s) : Ranged s after := by
  have silent : after.log = s.log → Ranged s after := fun log =>
    ⟨[], log.trans (List.append_nil _).symm, by simp⟩
  have advances := step_advances stepped
  cases label with
  | run index =>
      obtain ⟨self, op, rest, segment, found, executed, same⟩ :=
        step_executes stepped running
      have member := List.mem_of_getElem? found
      have ranged := exec_ranged executed wellScoped shaped
        (wellScoped.ops _ member op (by simp))
        (shaped.ops _ member op (by simp))
      rw [same]
      exact ranged.of_same rfl rfl
  | recv index position =>
      cases advances with
      | dangling dead owner => exact silent rfl
      | recv found target queued => exact silent rfl
  | take index =>
      cases advances with
      | dangling dead owner => exact silent rfl
      | take found initiator queued => exact silent rfl
  | wake index =>
      cases advances with
      | dangling dead owner => exact silent rfl
      | wake found e2e alive queued => exact silent rfl
  | call index call =>
      cases advances with
      | dangling dead owner => exact silent rfl
      | call found user owned alive phase => exact silent phase.log

/-- In every run each access is in the range stored in its request. -/
theorem ReachedBy.contained {allowed : State → Label → Prop}
    (reached : ReachedBy sys allowed s) (running : s.halted = none) :
    Contained s := by
  let Along : State → Prop := fun s => s.halted = none → Contained s
  have along : Along s := by
    refine reached.invariant_of_reached (fun _ obs logged => ?_) ?_
    · cases logged
    · intro before after label earlier holds _ stepped running obs logged
      have wellScoped := ReachedBy.wellScoped earlier
      have solvent := ReachedBy.solvent earlier
      have advances := step_advances stepped
      obtain ⟨extra, log, ranged⟩ := step_ranged stepped running wellScoped
        (ReachedBy.shaped earlier)
      rw [log] at logged
      rcases List.mem_append.mp logged with early | late
      · apply (holds (step_enabled stepped).1 obs early).kept
          (wellScoped.tables.log obs early) advances.extends _ early
        exact advances.keepsAccess wellScoped solvent
      · exact ranged obs late
  exact along running

end Steps

end S4BXI
