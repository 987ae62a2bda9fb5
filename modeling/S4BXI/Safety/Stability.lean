import S4BXI.Nic.Inversion

/-!
# What a step never changes

Objects keep the fields their constructors assign for good, identifiers are
never reused and the log only grows.  `Extends` says so for one phase, for one
step and for a whole run.
-/

namespace S4BXI

open Lib

/-- The fields of a request which no modelled function assigns after its
constructor. -/
def BxiRequest.fixed (req : BxiRequest) : BxiRequest :=
  { req with
    live := true
    processState := .created
    msgRefCount := 0
    mlength := 0
    targetRemoteOffset := 0
    start := 0
    matchedMe := none
    sendEventIssued := false
    getEventIssued := false
    fetchAtomicEventIssued := false }

/-- The fields of a message which keep the value they have when it is first
queued. -/
def BxiMsg.fixed (msg : BxiMsg) : BxiMsg :=
  { msg with live := true, simulatedSize := 0, retryCount := 0, refCount := 0 }

/-- The fields of an entry which no modelled function assigns after its
constructor. -/
def BxiME.fixed (me : BxiME) : BxiME :=
  { me with
    live := true
    used := false
    manageLocalOffset := 0
    needsUnlink := false
    inUse := false }

/-- The fields of a portal table entry which no modelled function assigns after
its constructor. -/
def BxiPT.fixed (pt : BxiPT) : BxiPT :=
  { pt with
    priorityList := []
    overflowList := []
    unexpectedHeaders := []
    enabled := true }

/-- The objects of `s` are those of `after`, up to what may change. -/
structure Extends (s after : State) : Prop where
  nextReq : s.nextReq ≤ after.nextReq
  nextMsg : s.nextMsg ≤ after.nextMsg
  nextMe : s.nextMe ≤ after.nextMe
  nextPt : s.nextPt ≤ after.nextPt
  reqs : ∀ req < s.nextReq, (after.reqs req).fixed = (s.reqs req).fixed
  msgs : ∀ msg < s.nextMsg, (after.msgs msg).fixed = (s.msgs msg).fixed
  mes : ∀ me < s.nextMe, (after.mes me).fixed = (s.mes me).fixed
  pts : ∀ pt < s.nextPt, (after.pts pt).fixed = (s.pts pt).fixed
  log : s.log <+: after.log

namespace Extends

variable {s mid after : State}

theorem refl (s : State) : Extends s s :=
  ⟨le_refl _, le_refl _, le_refl _, le_refl _, fun _ _ => rfl, fun _ _ => rfl,
    fun _ _ => rfl, fun _ _ => rfl, List.prefix_refl _⟩

theorem trans (first : Extends s mid) (second : Extends mid after) :
    Extends s after where
  nextReq := first.nextReq.trans second.nextReq
  nextMsg := first.nextMsg.trans second.nextMsg
  nextMe := first.nextMe.trans second.nextMe
  nextPt := first.nextPt.trans second.nextPt
  reqs req old :=
    (second.reqs req (old.trans_le first.nextReq)).trans (first.reqs req old)
  msgs msg old :=
    (second.msgs msg (old.trans_le first.nextMsg)).trans (first.msgs msg old)
  mes me old :=
    (second.mes me (old.trans_le first.nextMe)).trans (first.mes me old)
  pts pt old :=
    (second.pts pt (old.trans_le first.nextPt)).trans (first.pts pt old)
  log := first.log.trans second.log

/-- Nothing but the nodes, the mailboxes and the actors differs. -/
theorem of_tables (reqs : after.reqs = s.reqs) (msgs : after.msgs = s.msgs)
    (mes : after.mes = s.mes) (pts : after.pts = s.pts)
    (nextReq : after.nextReq = s.nextReq)
    (nextMsg : after.nextMsg = s.nextMsg) (nextMe : after.nextMe = s.nextMe)
    (nextPt : after.nextPt = s.nextPt) (log : s.log <+: after.log) :
    Extends s after where
  nextReq := nextReq.ge
  nextMsg := nextMsg.ge
  nextMe := nextMe.ge
  nextPt := nextPt.ge
  reqs _ _ := by rw [reqs]
  msgs _ _ := by rw [msgs]
  mes _ _ := by rw [mes]
  pts _ _ := by rw [pts]
  log := log

theorem emit (s : State) (obs : Obs) : Extends s (s.emit obs) :=
  of_tables rfl rfl rfl rfl rfl rfl rfl rfl (List.prefix_append _ _)

theorem halt (s : State) (reason : Halt) : Extends s (s.halt reason) :=
  of_tables rfl rfl rfl rfl rfl rfl rfl rfl (List.prefix_refl _)

theorem touch (s : State) (effects : List Obs) (stop : Option Halt) :
    Extends s (s.touch effects stop) :=
  of_tables rfl rfl rfl rfl rfl rfl rfl rfl (List.prefix_append _ _)

theorem modNode (s : State) (nid : Nid) (f : BxiNode → BxiNode) :
    Extends s (s.modNode nid f) :=
  of_tables rfl rfl rfl rfl rfl rfl rfl rfl (List.prefix_refl _)

theorem modReq (s : State) (req : ReqId) (f : BxiRequest → BxiRequest)
    (keeps : ∀ r, (f r).fixed = r.fixed) : Extends s (s.modReq req f) :=
  { refl s with
    reqs := by
      intro other old
      simp only [State.modReq, Function.update_apply]
      split
      · rename_i equal
        rw [keeps, equal]
      · rfl }

theorem modMsg (s : State) (msg : MsgId) (f : BxiMsg → BxiMsg)
    (keeps : ∀ m, (f m).fixed = m.fixed) : Extends s (s.modMsg msg f) :=
  { refl s with
    msgs := by
      intro other old
      simp only [State.modMsg, Function.update_apply]
      split
      · rename_i equal
        rw [keeps, equal]
      · rfl }

theorem ref (s : State) (msg : MsgId) : Extends s (s.ref msg) :=
  modMsg s msg _ fun _ => rfl

theorem modMe (s : State) (me : MeId) (f : BxiME → BxiME)
    (keeps : ∀ m, (f m).fixed = m.fixed) : Extends s (s.modMe me f) :=
  { refl s with
    mes := by
      intro other old
      simp only [State.modMe, Function.update_apply]
      split
      · rename_i equal
        rw [keeps, equal]
      · rfl }

theorem modPt (s : State) (pt : PtId) (f : BxiPT → BxiPT)
    (keeps : ∀ p, (f p).fixed = p.fixed) : Extends s (s.modPt pt f) :=
  { refl s with
    pts := by
      intro other old
      simp only [State.modPt, Function.update_apply]
      split
      · rename_i equal
        rw [keeps, equal]
      · rfl }

theorem newMsg (s : State) (msg : BxiMsg) : Extends s (s.newMsg msg) :=
  { refl s with
    nextMsg := Nat.le_succ _
    msgs := by
      intro other old
      simp only [State.newMsg]
      rw [Function.update_of_ne (Nat.ne_of_lt old)]
    reqs := by
      intro other old
      simp only [State.newMsg, Function.update_apply]
      split
      · rename_i equal
        rw [equal]
        rfl
      · rfl }

theorem drops (dropped : Drops s after) : Extends s after := by
  obtain ⟨sameReqs, sameMsgs, stops⟩ := dropped
  refine { refl s with reqs := fun req _ => ?_, msgs := fun msg _ => ?_ }
  · obtain ⟨live, count, equality⟩ := sameReqs req
    simp only [equality]
    rfl
  · obtain ⟨live, count, equality⟩ := sameMsgs msg
    simp only [equality]
    rfl

theorem setList_fixed (pt : BxiPT) (list : PtlList) (entries : List MeId) :
    (pt.setList list entries).fixed = pt.fixed := by
  cases list <;> rfl

theorem unlinks {me : MeId} (unlinked : Unlinks s me after) :
    Extends s after := by
  cases unlinked with
  | deferred used => exact modMe s me _ fun _ => rfl
  | removed free linked =>
      exact (modPt s _ _ (by intro; exact setList_fixed _ _ _)).trans
        (modMe _ me _ fun _ => rfl)
  | notLinked free absent => exact halt s _

theorem leaves {me : MeId} {before following : List Op}
    (left : Leaves s me after before following) : Extends s after := by
  have leaving : Extends s (s.leaveMe me) := modMe s me _ fun _ => rfl
  cases left with
  | kept staying => exact leaving
  | unlinked eq event leaves unlinked kind =>
      exact leaving.trans (unlinks unlinked)

theorem answering (s : State) (msg : MsgId) (fail : NiFailType)
    (kind : ReqType) : Extends s (answering s msg fail kind) := by
  cases kind with
  | put => exact refl s
  | atomic => exact refl s
  | get => exact newMsg s _
  | fetchAtomic => exact newMsg s _

theorem takeEntry (s : State) (msg : MsgId) (pt : PtId) (list : PtlList)
    (me : MeId) : Extends s (takeEntry s msg pt list me) := by
  have used := modMe s me (fun m => { m with used := true }) fun _ => rfl
  cases list with
  | priority => exact used.trans (emit _ _)
  | overflow =>
      exact ((used.trans (ref _ msg)).trans
        (modPt _ pt _ (by intro; rfl))).trans (emit _ _)

theorem advanceOffset_fixed (me : BxiME) (req : BxiRequest) :
    (me.advanceOffset req).fixed = me.fixed := by
  unfold BxiME.advanceOffset
  split <;> rfl

theorem receive (s : State) (msg : MsgId) (me : MeId) (copied : Bool) :
    Extends s (receive s msg me copied) :=
  { refl s with
    reqs := by
      intro other old
      simp only [S4BXI.receive, Function.update_apply]
      split
      · rename_i equal
        rw [equal]
        rfl
      · rfl
    mes := by
      intro other old
      simp only [S4BXI.receive, Function.update_apply]
      split
      · rename_i equal
        rw [advanceOffset_fixed, equal]
        rfl
      · rfl }

theorem deposit (s : State) (msg : MsgId) (pt : PtId) (list : PtlList)
    (me : MeId) (fail : NiFailType) (kind : ReqType) :
    Extends s (deposit s msg pt list me fail kind) :=
  ((answering s msg fail kind).trans (takeEntry _ _ _ _ _)).trans
    (receive _ _ _ _)

theorem appendInsert (s : State) (me : MeId) :
    Extends s (appendInsert s me) :=
  modPt s _ _ (by intro; exact setList_fixed _ _ _)

theorem newMe (s : State) (pt : PtId) (me : PtlMe) (list : PtlList)
    (userPtr : Nat) : Extends s (newMe s pt me list userPtr) :=
  { refl s with
    nextMe := Nat.le_succ _
    mes := by
      intro other old
      simp only [S4BXI.newMe]
      rw [Function.update_of_ne (Nat.ne_of_lt old)] }

theorem retransmit (sys : Sys) (self : Actor) (s : State) (msg : MsgId) :
    Extends s (retransmit sys self s msg) := by
  unfold S4BXI.retransmit
  dsimp only
  have counted := modMsg s msg
    (fun m => { m with retryCount := m.retryCount + 1 }) fun _ => rfl
  split
  · exact (((counted.trans (newMsg _ _)).trans (modNode _ _ _)).trans
      (modNode _ _ _)).trans (emit _ _)
  · exact ((counted.trans (newMsg _ _)).trans (modNode _ _ _)).trans
      (modNode _ _ _)

end Extends

section Steps

variable {sys : Sys} {self : Actor} {s after : State}

theorem Phase.extends {op : Op} {new : List Op}
    (phase : Phase sys self s op after new) : Extends s after := by
  cases phase with
  | quiet quiet => exact .refl s
  | putEvent => exact .emit s _
  | mdIncrementCt => exact .emit s _
  | meIncrementCt => exact .emit s _
  | releaseE2eEntry on => exact (Extends.modNode s _ _).trans (.emit _ _)
  | creditPanic released =>
      exact ((Extends.modNode s _ _).trans (.emit _ _)).trans (.halt _ _)
  | releaseCounts released => exact (Extends.modNode s _ _).trans (.emit _ _)
  | resumeLoop waiting => exact .modNode s _ _
  | emptyDeque waiting => exact .halt s _
  | resumePop waiting => exact .modNode s _ _
  | maybeIssueSend pending => exact .modReq s _ _ (by intro; rfl)
  | maybeIssueGet pending => exact .modReq s _ _ (by intro; rfl)
  | maybeIssueFetchAtomic pending => exact .modReq s _ _ (by intro; rfl)
  | respondUnmatched type fetches fresh absent =>
      exact (Extends.answering s _ _ _).trans (.modMsg _ _ _ (by intro; rfl))
  | matched type fresh found memory later stops =>
      exact (Extends.deposit s _ _ _ _ _ _).trans (.touch _ _ _)
  | handleResponse type => exact .emit s _
  | handlePtlAck type => exact .emit s _
  | ackWithoutAnswer type fresh missing =>
      exact (Extends.modReq s _ _ (by intro; rfl)).trans (.halt _ _)
  | handleBxiAck type fresh answers =>
      exact (Extends.modReq s _ _ (by intro; rfl)).trans (.touch _ _ _)
  | quickAck quick =>
      exact (Extends.modReq s _ _ (by intro; rfl)).trans (.emit _ _)
  | sendAck slow =>
      exact (Extends.newMsg s _).trans (.ref _ _)
  | putFinish leaves => exact .leaves leaves
  | getFinish memory stops leaves =>
      exact ((Extends.modMsg s _ _ (by intro; rfl)).trans (.touch _ _ _)).trans
        (.leaves leaves)
  | atomicEvents leaves => exact .leaves leaves
  | fetchAtomicFinish leaves =>
      exact (Extends.modMsg s _ _ (by intro; rfl)).trans (.leaves leaves)
  | deferredUnlink flagged unlinks => exact .unlinks unlinks
  | txPut => exact (Extends.modNode s _ _).trans (.emit _ _)
  | responseRest fresh => exact .modReq s _ _ (by intro; rfl)
  | sendBxiAck on =>
      exact (Extends.newMsg s _).trans (.ref _ _)
  | ptlAckTail fresh => exact .modReq s _ _ (by intro; rfl)
  | unref equality drops => exact .drops drops
  | exempt free =>
      exact .of_tables rfl rfl rfl rfl rfl rfl rfl rfl (List.prefix_refl _)
  | granted subject checked =>
      exact .of_tables rfl rfl rfl rfl rfl rfl rfl rfl
        (List.prefix_append _ _)
  | refused subject checked =>
      exact (Extends.modNode s _ _).trans (.modNode _ _ _)
  | creditsPanic subject checked =>
      exact (Extends.modNode s _ _).trans (.halt _ _)
  | acquireE2eEntry left => exact (Extends.modNode s _ _).trans (.emit _ _)
  | e2eEnqueue =>
      exact (Extends.ref s _).trans (.modNode _ _ _)
  | commStart =>
      exact .of_tables rfl rfl rfl rfl rfl rfl rfl rfl
        (List.prefix_append _ _)
  | gaveUp pending last => exact .modNode s _ _
  | retransmit pending more => exact .retransmit sys self s _
  | retryPanic pending beyond => exact .halt s _
  | cqAcquire left =>
      exact .of_tables rfl rfl rfl rfl rfl rfl rfl rfl (List.prefix_refl _)
  | appendInsert scanned => exact .appendInsert s _
  | noMatchedMe found missing => exact .halt s _
  | overflow found deposited =>
      exact ((Extends.modMe s _ _ (by intro; rfl)).trans
        (.modPt _ _ _ (by intro; rfl))).trans (.emit _ _)
  | appendConsumed => exact .modMe s _ _ (by intro; rfl)

theorem CallPhase.extends {call : Call} {new : List Op}
    (phase : CallPhase sys self s call after new) : Extends s after := by
  cases phase with
  | pidInUse => exact .halt s _
  | niInit => exact .modNode s _ _
  | ptKept taken => exact .refl s
  | ptAlloc free =>
      refine { Extends.refl s with
        nextPt := Nat.le_succ _
        pts := fun pt old => ?_ }
      simp [Nat.ne_of_lt old]
  | ptEnable allocated => exact .modPt s _ _ (by intro; rfl)
  | ptDisable allocated => exact .modPt s _ _ (by intro; rfl)
  | ptFree allocated equality frees =>
      cases frees with
      | mk drops sameMes =>
          have dropped := Extends.drops drops
          refine { dropped with
            mes := fun me _ => ?_
            pts := fun pt _ => ?_
            nextPt := dropped.nextPt }
          · obtain ⟨live, equality⟩ := sameMes me
            simp only [equality]
            rfl
          · simp only [Function.update_apply]
            split
            · rename_i equal
              rw [equal]
              rfl
            · rfl
  | appendPriority allocated => exact .newMe s _ _ _ _
  | appendOverflow allocated =>
      exact (Extends.newMe s _ _ _ _).trans (.appendInsert _ _)
  | keptByHeader overflow header => exact .refl s
  | meUnlink free unlinks => exact .unlinks unlinks
  | request =>
      refine Extends.trans ?_ (.newMsg _ _)
      refine { Extends.refl s with
        nextReq := Nat.le_succ _
        reqs := fun req old => ?_ }
      simp [Nat.ne_of_lt old]

theorem Advances.extends {index : ThreadId} {label : Label}
    (advances : Advances sys s index label after) : Extends s after := by
  cases advances with
  | dangling dead owner => exact .halt s _
  | run found alive phase => exact { phase.extends with }
  | recv found target queued =>
      exact .of_tables rfl rfl rfl rfl rfl rfl rfl rfl (List.prefix_refl _)
  | take found initiator queued =>
      exact .of_tables rfl rfl rfl rfl rfl rfl rfl rfl (List.prefix_refl _)
  | wake found e2e alive queued =>
      exact .of_tables rfl rfl rfl rfl rfl rfl rfl rfl (List.prefix_refl _)
  | call found user owned alive phase => exact { phase.extends with }

/-- The run lemma: the objects of a state are those of every later state. -/
theorem Reached.extends {allowed : State → Label → Prop}
    (reached : Reached (step sys) allowed s after) : Extends s after := by
  induction reached with
  | refl => exact .refl s
  | tail earlier permitted stepped induction =>
      exact induction.trans (step_advances stepped).extends

end Steps

end S4BXI
