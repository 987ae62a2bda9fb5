import S4BXI.Nic.Phases

/-!
# Inversion of the transition function

Every branch of `exec` is a `Phase`, every branch of `apiCall` a `CallPhase`,
and every step `Advances`.
-/

namespace S4BXI

open Lib

/-! ## Entries -/

theorem unlinks_unlink (s : State) (me : MeId) :
    Unlinks s me (unlink s me) := by
  cases used : (s.mes me).inUse with
  | true =>
      simp only [unlink, used, if_true]
      exact .deferred used
  | false =>
      by_cases linked : me ∈ (s.pts (s.mes me).pt).listOf (s.mes me).list
      · simpa [unlink, used, linked, State.modPt] using
          Unlinks.removed used linked
      · simpa [unlink, used, linked] using Unlinks.notLinked used linked

theorem leaves_leaveEntry (s : State) (me : MeId) (reported : List Op) :
    ∃ before after, Leaves s me (leaveEntry s me reported).1 before after ∧
      (leaveEntry s me reported).2 = before ++ reported ++ after := by
  have same : ((s.leaveMe me).mes me).shouldAutoUnlink =
      (s.mes me).shouldAutoUnlink := by
    simp [State.leaveMe, State.modMe, BxiME.shouldAutoUnlink, BxiME.hasOption]
  cases leaving : (s.mes me).shouldAutoUnlink with
  | false =>
      refine ⟨[], [.deferredUnlink me], ?_, ?_⟩
      · simpa [leaveEntry, maybeAutoUnlink, same, leaving] using
          Leaves.kept leaving
      · simp [leaveEntry, maybeAutoUnlink, same, leaving]
  | true =>
      have unlinks := unlinks_unlink (s.leaveMe me) me
      simp only [leaveEntry, maybeAutoUnlink, same, leaving]
      simp only [Bool.not_true, Bool.false_eq_true, if_false, if_true,
        List.append_nil]
      split
      · exact ⟨_, [], .unlinked _ (autoUnlinkEvent _ _) leaving unlinks rfl,
          by simp; rfl⟩
      · exact ⟨[], [], .unlinked none (autoUnlinkEvent s (s.mes me)) leaving
          unlinks rfl, by simp⟩

/-! ## Reference counts -/

namespace Drops

variable {s mid after : State}

theorem refl (s : State) : Drops s s :=
  .mk (fun _ => ⟨_, _, rfl⟩) (fun _ => ⟨_, _, rfl⟩) (.inl rfl)

theorem trans (first : Drops s mid) (second : Drops mid after) :
    Drops s after := by
  obtain ⟨firstReqs, firstMsgs, firstStops⟩ := first
  obtain ⟨secondReqs, secondMsgs, secondStops⟩ := second
  refine .mk (fun req => ?_) (fun msg => ?_) ?_
  · obtain ⟨live, count, first⟩ := firstReqs req
    obtain ⟨live', count', second⟩ := secondReqs req
    exact ⟨live', count', by simp only [second, first]⟩
  · obtain ⟨live, count, first⟩ := firstMsgs msg
    obtain ⟨live', count', second⟩ := secondMsgs msg
    exact ⟨live', count', by simp only [second, first]⟩
  · rcases secondStops with rfl | stopped
    · exact firstStops
    · exact .inr stopped

theorem halt (s : State) (ptr : Ptr) : Drops s (s.halt (.dangling ptr)) :=
  .mk (fun _ => ⟨_, _, rfl⟩) (fun _ => ⟨_, _, rfl⟩) (.inr ⟨ptr, rfl⟩)

theorem modMsg (s : State) (msg : MsgId) (live : BxiMsg → Bool)
    (count : BxiMsg → Nat) :
    Drops s (s.modMsg msg fun m =>
      { m with live := live m, refCount := count m }) := by
  refine .mk (fun _ => ⟨_, _, rfl⟩) (fun other => ?_) (.inl rfl)
  by_cases equal : other = msg
  · subst equal
    exact ⟨_, _, by rw [Function.update_self]⟩
  · exact ⟨_, _, by rw [Function.update_of_ne equal]⟩

theorem dropRequestRef (s : State) (req : ReqId) :
    Drops s (s.dropRequestRef req) := by
  unfold State.dropRequestRef
  split
  · exact halt s _
  · refine .mk (fun other => ?_) (fun _ => ⟨_, _, rfl⟩) (.inl rfl)
    by_cases equal : other = req
    · subst equal
      exact ⟨_, _, by rw [Function.update_self]⟩
    · exact ⟨_, _, by rw [Function.update_of_ne equal]⟩

theorem destroyMsg {unref : State → MsgId → State}
    (drops : ∀ s msg, Drops s (unref s msg)) (s : State) (msg : MsgId) :
    Drops s (State.destroyMsg unref s msg) := by
  unfold State.destroyMsg
  have dead := modMsg s msg (fun _ => false) (fun m => m.refCount)
  refine dead.trans ?_
  dsimp only
  split
  · exact (drops _ _).trans (dropRequestRef _ _)
  · exact dropRequestRef _ _

theorem unrefWithin (fuel : Nat) (s : State) (msg : MsgId) :
    Drops s (State.unrefWithin fuel s msg) := by
  induction fuel generalizing s msg with
  | zero => exact refl s
  | succ fuel induction =>
      unfold State.unrefWithin
      split
      · exact halt s _
      · have counted := modMsg s msg (fun m => m.live)
          (fun m => m.refCount - 1)
        dsimp only
        split
        · exact counted.trans (destroyMsg induction _ _)
        · exact counted

theorem unref (s : State) (msg : MsgId) : Drops s (s.unref msg) :=
  unrefWithin _ s msg

theorem deleteMsg (s : State) (msg : MsgId) : Drops s (s.deleteMsg msg) := by
  unfold State.deleteMsg
  split
  · exact halt s _
  · exact destroyMsg unref s msg

theorem foldl_deleteMsg (headers : List MsgId) (s : State) :
    Drops s (headers.foldl State.deleteMsg s) := by
  induction headers generalizing s with
  | nil => exact refl s
  | cons header headers induction =>
      exact (deleteMsg s header).trans (induction _)

end Drops

theorem foldl_destroyMe (entries : List MeId) (s : State) :
    ∃ mes, entries.foldl destroyMe s = { s with mes := mes } ∧
      ∀ me, ∃ live, mes me = { s.mes me with live := live } := by
  induction entries generalizing s with
  | nil => exact ⟨s.mes, rfl, fun me => ⟨_, rfl⟩⟩
  | cons entry entries induction =>
      obtain ⟨mes, equality, same⟩ := induction (destroyMe s entry)
      refine ⟨mes, by simpa [destroyMe, State.modMe] using equality, ?_⟩
      intro me
      obtain ⟨live, sameMe⟩ := same me
      by_cases equal : me = entry
      · subst equal
        exact ⟨live, by simpa [destroyMe, State.modMe] using sameMe⟩
      · exact ⟨live, by simpa [destroyMe, State.modMe, equal] using sameMe⟩

theorem frees_ptFree (s : State) (ni : NiId) (index : Nat) (pt : PtId) :
    Frees s ni index pt (ptFree s ni index pt) := by
  obtain ⟨first, firstEq, firstSame⟩ :=
    foldl_destroyMe (s.pts pt).priorityList s
  obtain ⟨second, secondEq, secondSame⟩ :=
    foldl_destroyMe (s.pts pt).overflowList { s with mes := first }
  have same : ∀ me, ∃ live, second me = { s.mes me with live := live } := by
    intro me
    obtain ⟨live, firstMe⟩ := firstSame me
    obtain ⟨live', secondMe⟩ := secondSame me
    exact ⟨live', by simp only [secondMe, firstMe]⟩
  have dropped := Drops.foldl_deleteMsg (s.pts pt).unexpectedHeaders
    { s with mes := second }
  simp only [ptFree, firstEq, secondEq]
  generalize (s.pts pt).unexpectedHeaders.foldl State.deleteMsg
    { s with mes := second } = mid at dropped ⊢
  obtain @⟨reqs, msgs, stop, sameReqs, sameMsgs, stops⟩ := dropped
  exact @Frees.mk s ni index pt
    { s with reqs := reqs, msgs := msgs, halted := stop } second
    (.mk sameReqs sameMsgs stops) same

/-! ## Flow control -/

theorem checkCredits_counts (cfg : Config) (node : BxiNode) (vn : Vn)
    (key : FlowctrlProcessId) :
    ∃ nodeCounts processCounts, (node.checkCredits cfg vn key).2 =
      { node with
        flowctrlNodeCounts := nodeCounts
        flowctrlProcessCounts := processCounts } := by
  unfold BxiNode.checkCredits
  dsimp only
  split
  · split <;> exact ⟨_, _, rfl⟩
  · exact ⟨_, _, rfl⟩

theorem releaseCredits_counts (cfg : Config) (node : BxiNode) (vn : Vn)
    (key : FlowctrlProcessId) :
    ∃ nodeCounts processCounts, (node.releaseCredits cfg vn key).2 =
      { node with
        flowctrlNodeCounts := nodeCounts
        flowctrlProcessCounts := processCounts } := by
  unfold BxiNode.releaseCredits
  dsimp only
  split <;> exact ⟨_, _, rfl⟩

section Operations

variable {sys : Sys} {self : Actor} {s : State}

theorem releaseCounts_phase (nid : Nid) (vn : Vn) (key : FlowctrlProcessId)
    (req : ReqId) :
    Phase sys self s (.releaseCounts nid vn key req)
      (releaseCounts sys s nid vn key req).1
      (releaseCounts sys s nid vn key req).2 := by
  obtain ⟨nodeCounts, processCounts, counts⟩ :=
    releaseCredits_counts sys.cfg (s.nodes nid) vn key
  have state : (s.modNode nid fun _ => { s.nodes nid with
      flowctrlNodeCounts := nodeCounts
      flowctrlProcessCounts := processCounts }) =
      s.setCounts nid nodeCounts processCounts := rfl
  unfold releaseCounts
  simp only [counts, state]
  cases reason : ((s.nodes nid).releaseCredits sys.cfg vn key).1 with
  | none => exact .releaseCounts (Prod.ext reason counts)
  | some reason' => exact .creditPanic (Prod.ext reason counts)

theorem processTx_phase (msg : MsgId) :
    Phase sys self s (.processTx msg) (processTx sys self s msg).1
      (processTx sys self s msg).2 := by
  unfold processTx checkFlowctrl
  cases free : exemptFromFlowctrl sys s self.nid msg with
  | true => exact .exempt free
  | false =>
      obtain ⟨nodeCounts, processCounts, counts⟩ := checkCredits_counts
        sys.cfg (s.nodes self.nid) (s.vnOf msg) (flowctrlKey sys s msg)
      have state : (s.modNode self.nid fun _ => { s.nodes self.nid with
          flowctrlNodeCounts := nodeCounts
          flowctrlProcessCounts := processCounts }) =
          s.setCounts self.nid nodeCounts processCounts := rfl
      simp only [Bool.false_eq_true, if_false, counts, state]
      cases answer : ((s.nodes self.nid).checkCredits sys.cfg (s.vnOf msg)
          (flowctrlKey sys s msg)).1 with
      | granted => exact .granted free (Prod.ext answer counts)
      | refused => exact .refused free (Prod.ext answer counts)
      | panicked reason => exact .creditsPanic free (Prod.ext answer counts)

/-! ## Request handlers -/

theorem cappedMemcpy_touch (sys : Sys) (s : State) (req : ReqId) (dest src : Addr)
    (count : Size) :
    ∃ effects stop, cappedMemcpy sys s req dest src count =
        s.touch effects stop ∧
      (effects = [] ∨ ∃ count', effects = [.memcpy req dest src count']) ∧
      (stop = s.halted ∨ stop = some (.panic .nullCopy)) := by
  unfold cappedMemcpy
  dsimp only
  split
  · exact ⟨[], _, by simp [State.halt, State.touch], .inl rfl, .inr rfl⟩
  · exact ⟨_, s.halted, rfl, .inr ⟨_, rfl⟩, .inl rfl⟩

theorem meCounter_congr {s after : State} {req : ReqId} {entry left : BxiME}
    (entries : left.me = entry.me)
    (payload : (after.reqs req).payloadSize = (s.reqs req).payloadSize) :
    meCounter after req left = meCounter s req entry := by
  simp only [meCounter, BxiME.countsComm, BxiME.ctAmount, BxiME.hasOption,
    entries, payload]
  rfl

@[simp] theorem answering_mes (s : State) (msg : MsgId) (fail : NiFailType)
    (kind : ReqType) : (answering s msg fail kind).mes = s.mes := by
  cases kind <;> rfl

@[simp] theorem answering_reqOf (s : State) (fail : NiFailType)
    (kind : ReqType) {msg : MsgId} (old : msg < s.nextMsg) :
    (answering s msg fail kind).reqOf msg = s.reqOf msg := by
  have distinct : msg ≠ s.nextMsg := Nat.ne_of_lt old
  cases kind <;>
    simp [answering, newResponse, State.newMsg, State.reqOf, distinct]

theorem answering_payloadSize (s : State) (msg : MsgId) (fail : NiFailType)
    (kind : ReqType) (req : ReqId) :
    ((answering s msg fail kind).reqs req).payloadSize =
      (s.reqs req).payloadSize := by
  cases kind <;>
    simp only [answering, newResponse, State.newMsg, Function.update_apply]
  all_goals split <;> simp_all

@[simp] theorem takeEntry_mes_me (s : State) (msg : MsgId) (pt : PtId)
    (list : PtlList) (me other : MeId) :
    ((takeEntry s msg pt list me).mes other).me = (s.mes other).me := by
  cases list <;>
    simp only [takeEntry, State.emit, State.modPt, State.ref, State.modMsg,
      State.modMe, Function.update_apply] <;>
    split <;> simp_all

@[simp] theorem takeEntry_mes_list (s : State) (msg : MsgId) (pt : PtId)
    (list : PtlList) (me other : MeId) :
    ((takeEntry s msg pt list me).mes other).list = (s.mes other).list := by
  cases list <;>
    simp only [takeEntry, State.emit, State.modPt, State.ref, State.modMsg,
      State.modMe, Function.update_apply] <;>
    split <;> simp_all

@[simp] theorem takeEntry_reqs (s : State) (msg : MsgId) (pt : PtId)
    (list : PtlList) (me : MeId) :
    (takeEntry s msg pt list me).reqs = s.reqs := by
  cases list <;> rfl

@[simp] theorem takeEntry_halted (s : State) (msg : MsgId) (pt : PtId)
    (list : PtlList) (me : MeId) :
    (takeEntry s msg pt list me).halted = s.halted := by
  cases list <;> rfl

@[simp] theorem takeEntry_nextMsg (s : State) (msg : MsgId) (pt : PtId)
    (list : PtlList) (me : MeId) :
    (takeEntry s msg pt list me).nextMsg = s.nextMsg := by
  cases list <;> rfl

@[simp] theorem receive_mes_me (s : State) (msg : MsgId) (me : MeId)
    (copied : Bool) :
    ((receive s msg me copied).mes me).me = (s.mes me).me := by
  simp [receive]

@[simp] theorem receive_payloadSize (s : State) (msg : MsgId) (me : MeId)
    (copied : Bool) (req : ReqId) :
    ((receive s msg me copied).reqs req).payloadSize =
      (s.reqs req).payloadSize := by
  simp only [receive, Function.update_apply]
  split <;> simp_all

@[simp] theorem touch_nothing (s : State) : s.touch [] s.halted = s := by
  simp [State.touch]

theorem emit_eq_touch (s : State) (obs : Obs) :
    s.emit obs = s.touch [obs] s.halted := rfl

theorem touch_touch (s : State) (first second : List Obs)
    (stop last : Option Halt) :
    (s.touch first stop).touch second last =
      s.touch (first ++ second) last := by
  simp [State.touch]

@[simp] theorem deposit_halted (s : State) (msg : MsgId) (pt : PtId)
    (list : PtlList) (me : MeId) (fail : NiFailType) (kind : ReqType) :
    (deposit s msg pt list me fail kind).halted = s.halted := by
  cases kind <;> simp [deposit, receive, answering, newResponse, State.newMsg]

theorem meCounter_deposit (s : State) (msg : MsgId) (pt : PtId)
    (list : PtlList) (me : MeId) (fail : NiFailType) (kind : ReqType)
    (req : ReqId) (effects : List Obs) (stop : Option Halt) :
    meCounter ((deposit s msg pt list me fail kind).touch effects stop) req
      (((deposit s msg pt list me fail kind).touch effects stop).mes me) =
      meCounter s req (s.mes me) := by
  apply meCounter_congr
  · simp [State.touch, deposit]
  · simp [State.touch, deposit, answering_payloadSize]

theorem handlePutRequest_phase {msg : MsgId}
    (type : (s.msgs msg).type = .ptlPut) :
    Phase sys self s (.handle msg) (handlePutRequest sys self s msg).1
      (handlePutRequest sys self s msg).2 := by
  unfold handlePutRequest
  dsimp only
  split
  case isTrue known =>
      exact .quiet (.duplicate (by simp [type, MsgType.isRequest]) known)
  case isFalse fresh =>
      split
      case h_1 fail absent =>
          split
          case isTrue asked => exact .quiet (.unmatched type fresh absent asked)
          case isFalse silent =>
              refine .quiet (.unanswered (.inl ⟨type, ?_⟩) fresh ?_)
              · simpa using silent
              · rw [absent]
      case h_2 pt list me fail found =>
          have shape : receive (takeEntry s msg pt list me) msg me
              (((takeEntry s msg pt list me).mes me).list == .overflow) =
              deposit s msg pt list me fail .put := by
            simp [deposit, answering, copies]
          simp only [shape]
          split
          · obtain ⟨effects, stop, touched, copied, stops⟩ :=
              cappedMemcpy_touch sys
                (deposit s msg pt list me fail .put) (s.reqOf msg) _ _ _
            rw [touched, meCounter_deposit]
            refine .matched type fresh found ?_ (by simp) (by simpa using stops)
            rcases copied with rfl | ⟨count, rfl⟩
            · exact .nothing
            · exact .copy
          · have untouched : deposit s msg pt list me fail .put =
                (deposit s msg pt list me fail .put).touch [] s.halted := by
              rw [← deposit_halted s msg pt list me fail .put, touch_nothing]
            rw [untouched, meCounter_deposit]
            exact .matched type fresh found .nothing (by simp) (.inl rfl)

theorem handleAtomicRequest_phase {msg : MsgId}
    (type : (s.msgs msg).type = .ptlAtomic) :
    Phase sys self s (.handle msg) (handleAtomicRequest sys self s msg).1
      (handleAtomicRequest sys self s msg).2 := by
  unfold handleAtomicRequest
  dsimp only
  split
  case isTrue known =>
      exact .quiet (.duplicate (by simp [type, MsgType.isRequest]) known)
  case isFalse fresh =>
      split
      case h_1 fail absent =>
          exact .quiet (.unanswered (.inr type) fresh (by rw [absent]))
      case h_2 pt list me fail found =>
          have shape : receive (takeEntry s msg pt list me) msg me
              (((takeEntry s msg pt list me).mes me).list == .overflow) =
              deposit s msg pt list me fail .atomic := by
            simp [deposit, answering, copies]
          simp only [shape]
          split
          · rw [emit_eq_touch, meCounter_deposit]
            exact .matched type fresh found .atomic (by simp) (by simp)
          · have untouched : deposit s msg pt list me fail .atomic =
                (deposit s msg pt list me fail .atomic).touch [] s.halted := by
              rw [← deposit_halted s msg pt list me fail .atomic, touch_nothing]
            rw [untouched, meCounter_deposit]
            exact .matched type fresh found .nothing (by simp) (.inl rfl)

theorem handleGetRequest_phase {msg : MsgId}
    (type : (s.msgs msg).type = .ptlGet) :
    Phase sys self s (.handle msg) (handleGetRequest sys self s msg).1
      (handleGetRequest sys self s msg).2 := by
  unfold handleGetRequest
  dsimp only
  split
  case isTrue known =>
      exact .quiet (.duplicate (by simp [type, MsgType.isRequest]) known)
  case isFalse fresh =>
      split
      case h_1 fail absent =>
          exact @Phase.respondUnmatched sys self s msg fail .get type
            (.inl rfl) fresh absent
      case h_2 pt list me fail found =>
          have shape : receive (takeEntry (newResponse s msg .ptlGetResponse
              fail) msg pt list me) msg me true =
              (deposit s msg pt list me fail .get).touch [] s.halted := by
            rw [← deposit_halted s msg pt list me fail .get, touch_nothing]
            rfl
          rw [shape, meCounter_deposit]
          exact @Phase.matched sys self s msg pt list me fail .get [] s.halted
            type fresh found .nothing (by simp) (.inl rfl)

/-- Whether the `target_remote_offset` of a request is the one which the copy of
its entry gives. -/
def OffsetKept (s : State) (req : ReqId) : Prop :=
  ∀ matched, (s.reqs req).matchedMe = some matched →
    (s.reqs req).targetRemoteOffset = matched.offsetInTarget (s.reqs req)

theorem matchedAddr_state {s : State} {req : ReqId} (kept : OffsetKept s req) :
    (matchedAddr s req).2 = s := by
  unfold matchedAddr
  split
  · rfl
  · rename_i matched copied
    have same := kept matched copied
    simp only [State.modReq]
    rw [← same, Function.update_eq_self]

/-- The copy of the entry is made before its offset advances. -/
theorem offsetKept_deposit (s : State) (msg : MsgId) (pt : PtId)
    (list : PtlList) (me : MeId) (fail : NiFailType) :
    OffsetKept (deposit s msg pt list me fail .fetchAtomic) (s.reqOf msg) := by
  intro matched copied
  have parent : (takeEntry (answering s msg fail .fetchAtomic) msg pt list
      me).reqOf msg = s.reqOf msg := by
    have same : (answering s msg fail .fetchAtomic).reqOf msg =
        s.reqOf msg := by
      simp only [answering, newResponse, State.newMsg, State.reqOf,
        Function.update_apply]
      split <;> rfl
    rw [← same]
    cases list with
    | priority => rfl
    | overflow =>
        simp only [takeEntry, State.emit, State.modPt, State.ref,
          State.modMsg, State.modMe, State.reqOf, Function.update_self]
  simp only [deposit, receive, parent, copies, if_true,
    Function.update_self] at copied ⊢
  cases copied
  rfl

theorem fetchAtomicMemory_touch (sys : Sys) (self : Actor) {s : State}
    {req : ReqId} (kept : OffsetKept s req) (me : MeId) :
    ∃ effects stop, fetchAtomicMemory sys self s req me =
        s.touch effects stop ∧ MemoryEffects req effects ∧
      (stop = s.halted ∨ stop = some (.panic .nullCopy)) := by
  unfold fetchAtomicMemory
  dsimp only
  split
  · split
    · obtain ⟨effects, stop, touched, copied, stops⟩ :=
        cappedMemcpy_touch sys s req _ _ _
      have same : OffsetKept (s.touch effects stop) req := kept
      rw [touched, matchedAddr_state same, emit_eq_touch]
      refine ⟨_, stop, touch_touch _ _ _ _ _, ?_, stops⟩
      rcases copied with rfl | ⟨count, rfl⟩
      · exact .atomic
      · exact .fetch
    · rw [matchedAddr_state kept]
      exact ⟨_, s.halted, rfl, .atomic, .inl rfl⟩
  · exact ⟨[], s.halted, by simp, .nothing, .inl rfl⟩

theorem handleFetchAtomicRequest_phase {msg : MsgId}
    (type : (s.msgs msg).type = .ptlFetchAtomic) :
    Phase sys self s (.handle msg)
      (handleFetchAtomicRequest sys self s msg).1
      (handleFetchAtomicRequest sys self s msg).2 := by
  unfold handleFetchAtomicRequest
  dsimp only
  split
  case isTrue known =>
      exact .quiet (.duplicate (by simp [type, MsgType.isRequest]) known)
  case isFalse fresh =>
      split
      case h_1 fail absent =>
          exact @Phase.respondUnmatched sys self s msg fail .fetchAtomic type
            (.inr rfl) fresh absent
      case h_2 pt list me fail found =>
          have shape : receive (takeEntry (newResponse s msg
              .ptlFetchAtomicResponse fail) msg pt list me) msg me true =
              deposit s msg pt list me fail .fetchAtomic := rfl
          obtain ⟨effects, stop, touched, memory, stops⟩ :=
            fetchAtomicMemory_touch sys self
              (offsetKept_deposit s msg pt list me fail) me
          rw [shape, touched, meCounter_deposit]
          exact @Phase.matched sys self s msg pt list me fail .fetchAtomic
            effects stop type fresh found memory (by simp) (by simpa using stops)

theorem handleBxiAck_phase {msg : MsgId}
    (type : (s.msgs msg).type = .e2eAck) :
    Phase sys self s (.handle msg) (handleBxiAck sys self s msg).1
      (handleBxiAck sys self s msg).2 := by
  unfold handleBxiAck
  dsimp only
  split
  case isTrue known => exact .quiet (.finished type known)
  case isFalse fresh =>
      split
      case h_1 missing => exact .ackWithoutAnswer type fresh missing
      case h_2 answered answers =>
          have phase := @Phase.handleBxiAck sys self s msg answered type fresh
            answers
          cases request : (s.vnOf answered).isRequest with
          | true => simpa [request, emit_eq_touch, State.modReq] using phase
          | false =>
              simpa [request, State.touch, State.modReq] using phase

theorem handleMsg_phase (msg : MsgId) :
    Phase sys self s (.handle msg) (handleMsg sys self s msg).1
      (handleMsg sys self s msg).2 := by
  unfold handleMsg
  cases type : (s.msgs msg).type with
  | ptlPut => exact handlePutRequest_phase type
  | ptlGet => exact handleGetRequest_phase type
  | ptlAtomic => exact handleAtomicRequest_phase type
  | ptlFetchAtomic => exact handleFetchAtomicRequest_phase type
  | ptlGetResponse => exact .handleResponse (.inl type)
  | ptlFetchAtomicResponse => exact .handleResponse (.inr type)
  | ptlAck => exact .handlePtlAck type
  | e2eAck => exact handleBxiAck_phase type

theorem sendAck_phase (msg : MsgId) (type : MsgType) (fail : NiFailType) :
    Phase sys self s (.sendAck msg type fail)
      (sendAck sys self s msg type fail).1
      (sendAck sys self s msg type fail).2 := by
  cases quick : sys.cfg.quickAcks with
  | true =>
      simp only [sendAck, quick, if_true]
      exact .quickAck quick
  | false =>
      simp only [sendAck, quick, Bool.false_eq_true, if_false]
      exact .sendAck quick

/-! ## The end of the handlers -/

theorem putFinish_phase (msg : MsgId) (me : MeId) (fail : NiFailType) :
    Phase sys self s (.putFinish msg me fail)
      (putFinish sys self s msg me fail).1
      (putFinish sys self s msg me fail).2 := by
  obtain ⟨before, following, leaves, ops⟩ := leaves_leaveEntry s me
    (issuePutLike sys s .put (s.mes me) (s.reqOf msg))
  simp only [putFinish, ops]
  exact .putFinish leaves

theorem atomicEvents_phase (msg : MsgId) (me : MeId) :
    Phase sys self s (.atomicEvents msg me) (atomicEvents sys s msg me).1
      (atomicEvents sys s msg me).2 := by
  obtain ⟨before, following, leaves, ops⟩ := leaves_leaveEntry s me
    (issuePutLike sys s .atomic (s.mes me) (s.reqOf msg))
  have phase := @Phase.atomicEvents sys self s msg me _ _ _ leaves
  rw [← ops] at phase
  exact phase

theorem fetchAtomicFinish_phase (msg : MsgId) (me : MeId)
    (response : MsgId) :
    Phase sys self s (.fetchAtomicFinish msg me response)
      (fetchAtomicFinish s msg me response).1
      (fetchAtomicFinish s msg me response).2 := by
  obtain ⟨before, following, leaves, ops⟩ := leaves_leaveEntry
    (s.modMsg response fun m => { m with
      simulatedSize := (s.reqs (s.reqOf msg)).mlength }) me []
  simp only [fetchAtomicFinish, ops, List.append_nil]
  exact .fetchAtomicFinish leaves

theorem getFinish_phase (msg : MsgId) (me : MeId) (response : MsgId) :
    Phase sys self s (.getFinish msg me response)
      (getFinish sys s msg me response).1
      (getFinish sys s msg me response).2 := by
  have touched : ∃ effects stop, MemoryEffects (s.reqOf msg) effects ∧
      (stop = s.halted ∨ stop = some (.panic .nullCopy)) ∧
      getFinish sys s msg me response =
        let left := leaveEntry ((s.modMsg response fun m => { m with
          simulatedSize := (s.reqs (s.reqOf msg)).mlength }).touch effects
            stop) me []
        (left.1, left.2 ++ [.txPut response]) := by
    unfold getFinish
    dsimp only
    split
    · obtain ⟨effects, stop, touched, copied, stops⟩ :=
        cappedMemcpy_touch sys (s.modMsg response fun m => { m with
          simulatedSize := (s.reqs (s.reqOf msg)).mlength }) (s.reqOf msg)
          _ _ _
      refine ⟨effects, stop, ?_, stops, by rw [touched]⟩
      rcases copied with rfl | ⟨count, rfl⟩
      · exact .nothing
      · exact .copy
    · refine ⟨[], s.halted, .nothing, .inl rfl, ?_⟩
      exact congrArg (fun mid => ((leaveEntry mid me []).1,
        (leaveEntry mid me []).2 ++ [Op.txPut response]))
        (touch_nothing _).symm
  obtain ⟨effects, stop, memory, stops, equality⟩ := touched
  obtain ⟨before, following, leaves, ops⟩ := leaves_leaveEntry
    ((s.modMsg response fun m => { m with
      simulatedSize := (s.reqs (s.reqOf msg)).mlength }).touch effects stop)
    me []
  simp only [equality, ops, List.append_nil]
  exact .getFinish memory stops leaves

theorem e2eWake_phase (msg : MsgId) :
    Phase sys self s (.e2eWake msg) (e2eWake sys self s msg).1
      (e2eWake sys self s msg).2 := by
  unfold e2eWake
  dsimp only
  split
  case isTrue known => exact .quiet (.acknowledged known)
  case isFalse pending =>
      split
      case isTrue last => exact .gaveUp pending last
      case isFalse differs =>
          split
          case isTrue more => exact .retransmit pending more
          case isFalse beyond =>
              refine .retryPanic pending ?_
              omega

theorem walkThroughUHs_phase (me : MeId) (index : Nat) :
    Phase sys self s (.walkThroughUHs me index)
      (walkThroughUHs sys s me index).1
      (walkThroughUHs sys s me index).2 := by
  unfold walkThroughUHs
  dsimp only
  split
  case h_1 scanned => exact .appendInsert scanned
  case h_2 position header found =>
      split
      case h_1 missing => exact .noMatchedMe found missing
      case h_2 matched deposited => exact .overflow found deposited

theorem exec_phase {op : Op} {segment : Segment}
    (executed : exec sys self s op = some segment) :
    Phase sys self s op segment.1 segment.2 := by
  cases op <;> simp only [exec, Option.some.injEq] at executed
  case acquireE2eEntry msg =>
      unfold acquireE2eEntry at executed
      split at executed
      · cases executed
      · rename_i left
        cases executed
        exact .acquireE2eEntry left
  case cqAcquire ni msg =>
      unfold cqAcquire at executed
      split at executed
      · cases executed
      · rename_i left
        cases executed
        exact .cqAcquire left
  all_goals subst executed
  case resched => exact .quiet .resched
  case putEvent => exact .putEvent
  case mdIncrementCt => exact .mdIncrementCt
  case meIncrementCt => exact .meIncrementCt
  case releaseE2eEntry nid vn key req =>
      unfold releaseE2eEntry
      cases off : (sys.node nid).e2eOff with
      | true => exact .quiet (.releaseOff off)
      | false => exact .releaseE2eEntry off
  case releaseCounts nid vn key req => exact releaseCounts_phase nid vn key req
  case resumeLoop nid vn =>
      unfold resumeLoop
      split
      case h_1 waiting => exact .quiet (.resumeDone waiting)
      case h_2 waiting => exact .resumeLoop waiting
  case resumePop nid vn =>
      unfold resumePop
      split
      case h_1 waiting => exact .emptyDeque waiting
      case h_2 waiting => exact .resumePop waiting
  case maybeIssueSend req =>
      unfold maybeIssueSend
      cases issued : (s.reqs req).sendEventIssued with
      | true => exact .quiet (.sendIssued issued)
      | false => exact .maybeIssueSend issued
  case sendEvent => exact .quiet .sendEvent
  case ackEvent => exact .quiet .ackEvent
  case maybeIssueGet req =>
      unfold maybeIssueGet
      cases issued : (s.reqs req).getEventIssued with
      | true => exact .quiet (.getIssued issued)
      | false => exact .maybeIssueGet issued
  case maybeIssueFetchAtomic req =>
      unfold maybeIssueFetchAtomic
      cases issued : (s.reqs req).fetchAtomicEventIssued with
      | true => exact .quiet (.fetchAtomicIssued issued)
      | false => exact .maybeIssueFetchAtomic issued
  case handle msg => exact handleMsg_phase msg
  case sendAck msg type fail => exact sendAck_phase msg type fail
  case putFinish msg me fail => exact putFinish_phase msg me fail
  case getFinish msg me response => exact getFinish_phase msg me response
  case atomicFinish => exact .quiet .atomicFinish
  case atomicEvents msg me => exact atomicEvents_phase msg me
  case fetchAtomicFinish msg me response =>
      exact fetchAtomicFinish_phase msg me response
  case deferredUnlink me =>
      unfold deferredUnlink
      cases flagged : (s.mes me).needsUnlink with
      | true => exact .deferredUnlink flagged (unlinks_unlink s me)
      | false => exact .quiet (.notFlagged flagged)
  case txPut => exact .txPut
  case responseRest msg =>
      unfold responseRest
      dsimp only
      split
      case isTrue known => exact .quiet (.responseKnown known)
      case isFalse fresh => exact .responseRest fresh
  case sendBxiAck msg md =>
      unfold sendBxiAck
      cases off : sys.e2eOff (sys.mdNid md) with
      | true => exact .quiet (.bxiAckOff off)
      | false => exact .sendBxiAck off
  case replyEvent => exact .quiet .replyEvent
  case ptlAckTail msg =>
      unfold ptlAckTail
      dsimp only
      split
      case isTrue fresh => exact .ptlAckTail fresh
      case isFalse known => exact .quiet (.ptlAckKnown known)
  case bxiAckTail => exact .quiet .bxiAckTail
  case unref msg => exact .unref rfl (Drops.unref s msg)
  case processTx msg => exact processTx_phase msg
  case commInit => exact .quiet .commInit
  case e2eEnqueue => exact .e2eEnqueue
  case commStart => exact .commStart
  case handlePutEnd => exact .quiet .handlePutEnd
  case handleResponseEnd => exact .quiet .handleResponseEnd
  case e2eWake msg => exact e2eWake_phase msg
  case walkThroughUHs me index => exact walkThroughUHs_phase me index
  case appendConsumed => exact .appendConsumed

theorem apiCall_phase {call : Call} {segment : Segment}
    (called : apiCall sys self s call = some segment) :
    CallPhase sys self s call segment.1 segment.2 := by
  cases call <;>
    simp only [apiCall, Option.some.injEq, Option.map_eq_some_iff] at called
  case niInit ni =>
      subst called
      unfold niInit
      split
      · exact .pidInUse
      · exact .niInit
  case ptAlloc ni index eq =>
      subst called
      unfold ptAlloc
      split
      case h_1 pt taken => exact .ptKept taken
      case h_2 free => exact .ptAlloc free
  case ptEnable ni index =>
      obtain ⟨pt, allocated, rfl⟩ := called
      exact .ptEnable allocated
  case ptDisable ni index =>
      obtain ⟨pt, allocated, rfl⟩ := called
      exact .ptDisable allocated
  case ptFree ni index =>
      obtain ⟨pt, allocated, rfl⟩ := called
      exact .ptFree allocated rfl (frees_ptFree s ni index pt)
  case meAppend ni index me list userPtr =>
      obtain ⟨pt, allocated, rfl⟩ := called
      cases list with
      | priority => exact .appendPriority allocated
      | overflow => exact .appendOverflow allocated
  case meUnlink me =>
      subst called
      unfold ptlMEUnlink
      dsimp only
      split
      case isTrue kept =>
          rw [Bool.and_eq_true, decide_eq_true_eq] at kept
          exact .keptByHeader kept.1 kept.2
      case isFalse free =>
          rw [Bool.and_eq_true, decide_eq_true_eq] at free
          exact .meUnlink free (unlinks_unlink s me)
  case request cmd =>
      subst called
      exact .request

end Operations

/-- A process has obtained the handles it uses itself, on its own node. -/
theorem Call.owned_interface {sys : Sys} {self : Actor} {index : ThreadId}
    {s : State} {call : Call} (owned : call.ownedBy sys self index s = true)
    {ni : NiId} (used : ni ∈ call.interfaces s) :
    (sys.ni ni).process = index ∧ (sys.ni ni).node = self.nid := by
  simpa using List.all_eq_true.mp owned ni used

/-! ## Steps -/

section Steps

variable {sys : Sys} {s after : State} {label : Label}

/-- A step runs while nothing has stopped the simulation and while every other
actor is suspended. -/
theorem step_enabled (stepped : step sys s label = some after) :
    s.halted = none ∧
      (s.threads.eraseIdx label.thread).all suspended = true := by
  unfold step at stepped
  split at stepped
  · cases stepped
  · rename_i enabled
    simpa using enabled

/-- An actor which has not reached its next SimGrid call is the one which
runs. -/
theorem step_thread (stepped : step sys s label = some after)
    {index : ThreadId} {self : Actor} {op : Op} {rest : List Op}
    (found : s.threads[index]? = some ⟨self, op :: rest⟩)
    (running : op.blocking = false) : label.thread = index := by
  by_contra other
  have member : (⟨self, op :: rest⟩ : Thread Actor Op) ∈
      s.threads.eraseIdx label.thread :=
    List.mem_eraseIdx_iff_getElem?.mpr ⟨index, Ne.symm other, found⟩
  have waits := List.all_eq_true.mp (step_enabled stepped).2 _ member
  simp [suspended, running] at waits

/-- An actor which runs executes its first pending operation, unless it
dereferences a destroyed object. -/
theorem step_executes {index : ThreadId}
    (stepped : step sys s (.run index) = some after)
    (running : after.halted = none) :
    ∃ self op rest segment, s.threads[index]? = some ⟨self, op :: rest⟩ ∧
      exec sys self s op = some segment ∧
      after = { segment.1 with
        threads := s.threads.set index ⟨self, segment.2 ++ rest⟩ } := by
  have enabled := step_enabled stepped
  simp only [step, enabled.1, enabled.2, Option.isSome_none, Bool.not_true,
    Bool.or_self, Bool.false_eq_true, if_false] at stepped
  split at stepped
  · cases stepped
  · rename_i thread found
    obtain ⟨activation, activated, result⟩ :=
      Option.map_eq_some_iff.mp stepped
    split at result
    · subst result
      cases running
    · obtain ⟨self, ops⟩ := thread
      cases ops with
      | nil => cases activated
      | cons op rest =>
          obtain ⟨segment, executed, rfl⟩ :=
            Option.map_eq_some_iff.mp activated
          exact ⟨self, op, rest, segment, found, executed, result.symm⟩

theorem step_advances (stepped : step sys s label = some after) :
    Advances sys s label.thread label after := by
  have enabled := step_enabled stepped
  simp only [step, enabled.1, enabled.2, Option.isSome_none, Bool.not_true,
    Bool.or_self, Bool.false_eq_true, if_false] at stepped
  split at stepped
  · cases stepped
  · rename_i thread found
    obtain ⟨activation, activated, result⟩ :=
      Option.map_eq_some_iff.mp stepped
    split at result
    · rename_i ptr dead
      subst result
      exact .dangling (by simpa using List.find?_some dead) rfl
    · rename_i alive
      have alive' : ∀ ptr ∈ activation.derefs, s.live ptr = true := by
        simpa using alive
      obtain ⟨self, ops⟩ := thread
      cases label with
      | run index =>
          cases ops with
          | nil => cases activated
          | cons op rest =>
              obtain ⟨segment, executed, rfl⟩ :=
                Option.map_eq_some_iff.mp activated
              subst result
              exact .run found alive' (exec_phase executed)
      | recv index position =>
          simp only [activate] at activated
          split at activated
          · rename_i idle
            obtain ⟨target, rfl⟩ := idle
            obtain ⟨msg, queued, rfl⟩ := Option.map_eq_some_iff.mp activated
            subst result
            exact .recv found target queued
          · cases activated
      | take index =>
          simp only [activate] at activated
          split at activated
          · rename_i idle
            obtain ⟨initiator, rfl⟩ := idle
            obtain ⟨msg, queued, rfl⟩ := Option.map_eq_some_iff.mp activated
            subst result
            obtain ⟨rest, queue⟩ := List.head?_eq_some_iff.mp queued
            exact .take found initiator queue
          · cases activated
      | wake index =>
          simp only [activate] at activated
          split at activated
          · rename_i idle
            obtain ⟨e2e, rfl⟩ := idle
            obtain ⟨msg, queued, rfl⟩ := Option.map_eq_some_iff.mp activated
            subst result
            obtain ⟨rest, queue⟩ := List.head?_eq_some_iff.mp queued
            exact .wake found e2e (alive' _ (by simp)) queue
          · cases activated
      | call index call =>
          simp only [activate] at activated
          split at activated
          · rename_i idle
            obtain ⟨user, rfl, owned⟩ := idle
            obtain ⟨segment, called, rfl⟩ :=
              Option.map_eq_some_iff.mp activated
            subst result
            simpa [Label.thread] using Advances.call found user owned alive'
              (apiCall_phase called)
          · cases activated

end Steps

end S4BXI
