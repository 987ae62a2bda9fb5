import S4BXI.Safety.AtMostOnce

/-!
# What a step does to the match lists

The cases of a step as the portal table entries see them: a request is matched,
an append scans a header, inserts its entry or drops it, an entry is unlinked,
or nothing happens.
-/

namespace S4BXI

open Lib

/-- The entry which an operation appends. -/
def Op.appending : Op → Option MeId
  | .walkThroughUHs me _ | .appendConsumed me => some me
  | _ => none

/-- The effects which pair a request with an entry. -/
def Obs.pairs : Obs → Bool
  | .consumed _ _ _ _ _ | .overflow _ _ _ _ => true
  | _ => false

/-- No request is paired between the two states and no entry is linked. -/
structure Shrinks (s after : State) : Prop where
  lists : ∀ pt list,
    ((after.pts pt).listOf list).Sublist ((s.pts pt).listOf list)
  headers : ∀ pt,
    (after.pts pt).unexpectedHeaders = (s.pts pt).unexpectedHeaders
  used : ∀ me, (after.mes me).used = (s.mes me).used
  nextMe : after.nextMe = s.nextMe
  log : ∃ extra, after.log = s.log ++ extra ∧ ∀ obs ∈ extra, obs.pairs = false
  matchedMe : ∀ req < s.nextReq,
    (after.reqs req).matchedMe = (s.reqs req).matchedMe

/-- A request is matched with an entry. -/
structure Arrives (s : State) (msg : MsgId) (pt : PtId) (list : PtlList)
    (me : MeId) (after : State) : Prop where
  lists : ∀ other kind, (after.pts other).listOf kind =
    (s.pts other).listOf kind
  headers : ∀ other, (after.pts other).unexpectedHeaders =
    if list = .overflow ∧ other = pt then
      (s.pts other).unexpectedHeaders ++ [msg]
    else
      (s.pts other).unexpectedHeaders
  used : ∀ other, (after.mes other).used =
    if other = me then true else (s.mes other).used
  nextMe : after.nextMe = s.nextMe
  log : ∃ extra, after.log =
      s.log ++ .consumed (s.reqOf msg) msg pt list me :: extra ∧
    ∀ obs ∈ extra, obs.pairs = false
  deposited : (s.mes me).list = .overflow →
    (after.reqs (s.reqOf msg)).matchedMe = some (s.mes me).copy
  others : ∀ req, req ≠ s.reqOf msg →
    (after.reqs req).matchedMe = (s.reqs req).matchedMe

/-- The phases as the match lists see them. -/
inductive Pairs (sys : Sys) (self : Actor) (s : State) :
    Op → State → List Op → Prop where
  | shrink {op after new} (idle : op.appending = none)
      (nothing : ∀ added ∈ new, added.appending = none)
      (shrinks : Shrinks s after) : Pairs sys self s op after new
  | arrive {msg pt list me after new}
      (nothing : ∀ added ∈ new, added.appending = none)
      (fresh : ¬(s.reqs (s.reqOf msg)).processState > .created)
      (matched : Matched sys s self.nid msg pt list me)
      (arrives : Arrives s msg pt list me after) :
      Pairs sys self s (.handle msg) after new
  | insert {me index}
      (scanned : (s.pts (s.mes me).pt).findHeader
        (fun header => s.reqs (s.reqOf header)) (s.mes me) index = none) :
      Pairs sys self s (.walkThroughUHs me index) (appendInsert s me)
        (issueLink s me)
  | stop {me index reason} :
      Pairs sys self s (.walkThroughUHs me index) (s.halt reason) []
  | overflow {me index position header matched}
      (found : (s.pts (s.mes me).pt).findHeader
        (fun header => s.reqs (s.reqOf header)) (s.mes me) index =
          some (position, header))
      (deposited : (s.reqs (s.reqOf header)).matchedMe = some matched) :
      Pairs sys self s (.walkThroughUHs me index)
        (((s.modMe me fun m => { m with used := true }).modPt (s.mes me).pt
            fun p => { p with
              unexpectedHeaders := p.unexpectedHeaders.eraseIdx position }
            ).emit (.overflow (s.reqOf header) header (s.mes me).pt me))
        (.unref header :: issueEvent (s.pts (s.mes me).pt).eq
            (overflowEvent sys s (s.reqs (s.reqOf header)) matched)
            (.header header me) ++
          [if (s.mes me).hasOption MeOption.useOnce then .appendConsumed me
            else .walkThroughUHs me position])
  | consumed {me} : Pairs sys self s (.appendConsumed me) (destroyMe s me) []

namespace Shrinks

variable {s mid after : State}

theorem of_tables (pts : after.pts = s.pts) (mes : after.mes = s.mes)
    (nextMe : after.nextMe = s.nextMe)
    (reqs : ∀ req < s.nextReq,
      (after.reqs req).matchedMe = (s.reqs req).matchedMe)
    (log : ∃ extra, after.log = s.log ++ extra ∧
      ∀ obs ∈ extra, obs.pairs = false) : Shrinks s after where
  lists pt list := by rw [pts]
  headers pt := by rw [pts]
  used me := by rw [mes]
  nextMe := nextMe
  log := log
  matchedMe := reqs

theorem refl (s : State) : Shrinks s s :=
  of_tables rfl rfl rfl (fun _ _ => rfl) ⟨[], by simp⟩

theorem trans (first : Shrinks s mid) (second : Shrinks mid after)
    (nextReq : mid.nextReq = s.nextReq) : Shrinks s after where
  lists pt list := (second.lists pt list).trans (first.lists pt list)
  headers pt := (second.headers pt).trans (first.headers pt)
  used me := (second.used me).trans (first.used me)
  nextMe := second.nextMe.trans first.nextMe
  log := by
    obtain ⟨extra, log, silent⟩ := first.log
    obtain ⟨more, logMore, silentMore⟩ := second.log
    refine ⟨extra ++ more, by rw [logMore, log, List.append_assoc], ?_⟩
    intro obs member
    rcases List.mem_append.mp member with early | late
    · exact silent obs early
    · exact silentMore obs late
  matchedMe req old :=
    (second.matchedMe req (nextReq ▸ old)).trans (first.matchedMe req old)

theorem emit (s : State) {obs : Obs} (silent : obs.pairs = false) :
    Shrinks s (s.emit obs) :=
  of_tables rfl rfl rfl (fun _ _ => rfl) ⟨[obs], rfl, by simp [silent]⟩

theorem halt (s : State) (reason : Halt) : Shrinks s (s.halt reason) :=
  { refl s with }

theorem touch (s : State) {effects : List Obs} (stop : Option Halt)
    (silent : ∀ obs ∈ effects, obs.pairs = false) :
    Shrinks s (s.touch effects stop) :=
  of_tables rfl rfl rfl (fun _ _ => rfl) ⟨effects, rfl, silent⟩

theorem modReq (s : State) (req : ReqId) {f : BxiRequest → BxiRequest}
    (keeps : ∀ r, (f r).matchedMe = r.matchedMe) :
    Shrinks s (s.modReq req f) := by
  refine of_tables rfl rfl rfl (fun other _ => ?_) ⟨[], by simp [State.modReq]⟩
  simp only [State.modReq, Function.update_apply]
  split
  · rename_i equal
    rw [keeps, equal]
  · rfl

theorem newMsg (s : State) (msg : BxiMsg) : Shrinks s (s.newMsg msg) := by
  refine of_tables rfl rfl rfl (fun other _ => ?_)
    ⟨[], by simp [State.newMsg]⟩
  simp only [State.newMsg, Function.update_apply]
  split
  · rename_i equal
    rw [equal]
  · rfl

theorem modMe (s : State) (me : MeId) {f : BxiME → BxiME}
    (keeps : ∀ m, (f m).used = m.used) : Shrinks s (s.modMe me f) :=
  { refl s with
    used := by
      intro other
      simp only [State.modMe, Function.update_apply]
      split
      · rename_i equal
        rw [keeps, equal]
      · rfl }

theorem drops (dropped : Drops s after) : Shrinks s after := by
  obtain ⟨sameReqs, sameMsgs, stops⟩ := dropped
  refine of_tables rfl rfl rfl (fun req _ => ?_) ⟨[], by simp⟩
  obtain ⟨live, count, same⟩ := sameReqs req
  simp only [same]

theorem unlinks {me : MeId} (unlinked : Unlinks s me after) :
    Shrinks s after := by
  cases unlinked with
  | deferred used => exact modMe s me fun _ => rfl
  | removed free linked =>
      have erased : Shrinks s (s.modPt (s.mes me).pt fun p =>
          p.setList (s.mes me).list ((p.listOf (s.mes me).list).erase me)) := by
        refine { refl s with lists := ?_, headers := ?_ }
        · intro pt list
          simp only [State.modPt, Function.update_apply]
          split
          · rename_i equal
            subst equal
            generalize (s.mes me).list = kind
            cases kind <;> cases list <;>
              simp [BxiPT.setList, BxiPT.listOf, List.erase_sublist]
          · exact List.Sublist.refl _
        · intro pt
          simp only [State.modPt, Function.update_apply]
          split
          · rename_i equal
            subst equal
            generalize (s.mes me).list = kind
            cases kind <;> rfl
          · rfl
      exact erased.trans (modMe _ me fun _ => rfl) rfl
  | notLinked free absent => exact { refl s with }

theorem leaves {me : MeId} {before following : List Op}
    (left : Leaves s me after before following) : Shrinks s after := by
  have leaving : Shrinks s (s.leaveMe me) := modMe s me fun _ => rfl
  cases left with
  | kept staying => exact leaving
  | unlinked eq event leaves unlinked kind =>
      exact leaving.trans (Shrinks.unlinks unlinked) rfl

end Shrinks

/-! ## Phases -/

section Steps

variable {sys : Sys} {self : Actor} {s after : State}

theorem MemoryEffects.pairs {req : ReqId} {effects : List Obs}
    (memory : MemoryEffects req effects) :
    ∀ obs ∈ effects, obs.pairs = false := by
  cases memory <;> simp [Obs.pairs]

theorem Shrinks.answering (s : State) (msg : MsgId) (fail : NiFailType)
    (kind : ReqType) : Shrinks s (answering s msg fail kind) := by
  cases kind with
  | put => exact .refl s
  | atomic => exact .refl s
  | get => exact .newMsg s _
  | fetchAtomic => exact .newMsg s _

theorem answering_tables (s : State) (msg : MsgId) (fail : NiFailType)
    (kind : ReqType) :
    (answering s msg fail kind).pts = s.pts ∧
      (answering s msg fail kind).nextMe = s.nextMe ∧
      ∀ req, ((answering s msg fail kind).reqs req).matchedMe =
        (s.reqs req).matchedMe := by
  refine ⟨by cases kind <;> rfl, by cases kind <;> rfl, fun req => ?_⟩
  cases kind with
  | put => rfl
  | atomic => rfl
  | get =>
      simp only [answering, newResponse, State.newMsg, Function.update_apply]
      split
      · rename_i equal
        rw [equal]
      · rfl
  | fetchAtomic =>
      simp only [answering, newResponse, State.newMsg, Function.update_apply]
      split
      · rename_i equal
        rw [equal]
      · rfl

theorem takeEntry_pts (s : State) (msg : MsgId) (pt : PtId) (list : PtlList)
    (me : MeId) : (takeEntry s msg pt list me).pts =
      match list with
      | .priority => s.pts
      | .overflow => Function.update s.pts pt { s.pts pt with
          unexpectedHeaders := (s.pts pt).unexpectedHeaders ++ [msg] } := by
  cases list <;> rfl

theorem takeEntry_mes (s : State) (msg : MsgId) (pt : PtId) (list : PtlList)
    (me : MeId) : (takeEntry s msg pt list me).mes =
      Function.update s.mes me { s.mes me with used := true } := by
  cases list <;> rfl

/-- What the deposit of a request changes in the match lists. -/
theorem arrives_deposit {msg : MsgId} (old : msg < s.nextMsg) (pt : PtId)
    (list : PtlList) (me : MeId) (fail : NiFailType) (kind : ReqType)
    {effects : List Obs} (stop : Option Halt)
    (silent : ∀ obs ∈ effects, obs.pairs = false) :
    Arrives s msg pt list me
      ((deposit s msg pt list me fail kind).touch effects stop) := by
  obtain ⟨pts, nextMe, matchedMe⟩ := answering_tables s msg fail kind
  have same : (takeEntry (answering s msg fail kind) msg pt list me).reqOf
      msg = s.reqOf msg := by
    rw [(Extends.takeEntry (answering s msg fail kind) msg pt list
      me).reqOf (old.trans_le (Extends.answering s msg fail kind).nextMsg),
      (Extends.answering s msg fail kind).reqOf old]
  constructor
  · intro other list'
    change ((takeEntry (answering s msg fail kind) msg pt list me).pts
      other).listOf list' = _
    rw [takeEntry_pts, pts]
    cases list with
    | priority => rfl
    | overflow =>
        simp only [Function.update_apply]
        split
        · rename_i equal
          subst equal
          cases list' <;> rfl
        · rfl
  · intro other
    change ((takeEntry (answering s msg fail kind) msg pt list me).pts
      other).unexpectedHeaders = _
    rw [takeEntry_pts, pts]
    cases list with
    | priority => simp
    | overflow =>
        by_cases equal : other = pt
        · subst equal
          simp
        · simp [equal]
  · intro other
    simp only [State.touch, deposit, receive, takeEntry_mes, answering_mes,
      Function.update_apply]
    split
    · simp
    · rfl
  · change (takeEntry (answering s msg fail kind) msg pt list me).nextMe = _
    rw [← nextMe]
    cases list <;> rfl
  · refine ⟨effects, ?_, silent⟩
    change (deposit s msg pt list me fail kind).log ++ effects = _
    rw [deposit_log old]
    simp
  · intro overflow
    have copied : copies (s.mes me) kind = true := by
      cases kind <;> simp [copies, overflow]
    simp [State.touch, deposit, receive, same, copied, takeEntry_mes,
      BxiME.copy]
  · intro req other
    simp only [State.touch, deposit, receive, same,
      Function.update_of_ne other, takeEntry_reqs]
    exact matchedMe req

theorem Quiet.appending_new {op : Op} {new : List Op}
    (quiet : Quiet sys self s op new) :
    op.appending = none ∧ ∀ added ∈ new, added.appending = none := by
  cases quiet with
  | @sendEvent req =>
      refine ⟨rfl, ?_⟩
      rcases sendEvent_cases s req with ops | ⟨queue, event, type, ops⟩ <;>
        simp [ops, Op.appending]
  | @ackEvent req fail =>
      refine ⟨rfl, ?_⟩
      rcases ackEvent_cases s req fail with ops | ⟨queue, event, type, ops⟩ <;>
        simp [ops, Op.appending]
  | @atomicFinish msg me fail =>
      refine ⟨rfl, ?_⟩
      simp only [S4BXI.atomicFinish, List.mem_append, List.mem_cons]
      rintro added ((sleep | due) | rfl | sleep)
      · exact pciSleep_every (P := (·.appending = none)) rfl added sleep
      · exact sendDue_every (P := (·.appending = none)) (fun _ _ => rfl)
          added due
      · rfl
      · exact pciSleep_every (P := (·.appending = none)) rfl added sleep
  | @replyEvent msg =>
      refine ⟨rfl, ?_⟩
      rcases replyEvent_cases s msg with ops | ⟨queue, event, type, ops⟩ <;>
        simp [ops, Op.appending]
  | @bxiAckTail msg =>
      refine ⟨rfl, ?_⟩
      rcases bxiAckTail_cases s msg with
        ops | ops | ⟨type, ops⟩ | ⟨type, ops⟩ <;> simp [ops, Op.appending]
  | @commInit msg =>
      refine ⟨rfl, ?_⟩
      rcases commInit_cases sys self s msg with
        ⟨on, type, ⟨first, ops⟩ | ⟨again, ops⟩⟩ | ⟨off, ops⟩ <;>
        simp [ops, Op.appending]
  | @handlePutEnd msg =>
      refine ⟨rfl, ?_⟩
      rcases handlePutEnd_cases s msg with ops | ops <;>
        simp [ops, Op.appending]
  | @handleResponseEnd msg =>
      refine ⟨rfl, ?_⟩
      rcases handleResponseEnd_cases sys self s msg with
        ops | ⟨type, ops⟩ | ⟨type, ops⟩ <;> simp [ops, Op.appending]
  | _ => simp [Op.appending]

/-- The operations of an append only come from an append. -/
theorem Phase.appending_new {op : Op} {new : List Op}
    (phase : Phase sys self s op after new) (idle : op.appending = none) :
    ∀ added ∈ new, added.appending = none := by
  cases phase with
  | quiet quiet => exact quiet.appending_new.2
  | releaseCounts released => split <;> simp [Op.appending]
  | maybeIssueSend pending =>
      simp only [List.mem_append, List.mem_singleton]
      rintro added (counter | rfl)
      · exact mdCounter_every (P := (·.appending = none)) (fun _ _ => rfl)
          added counter
      · rfl
  | maybeIssueGet pending => exact issueFetchEvent_every fun _ _ _ => rfl
  | maybeIssueFetchAtomic pending =>
      exact issueFetchEvent_every fun _ _ _ => rfl
  | @matched msg pt list me fail kind effects stop type fresh found memory
      later stops =>
      simp only [List.mem_append, List.mem_singleton]
      rintro added (counter | rfl)
      · exact meCounter_every (P := (·.appending = none)) (fun _ _ => rfl)
          added counter
      · cases kind <;> rfl
  | quickAck quick =>
      simp only [List.mem_cons]
      rintro added (rfl | rfl | issued)
      · rfl
      · rfl
      · exact issueAck_every (P := (·.appending = none)) (fun _ _ => rfl) rfl
          added issued
  | putFinish leaves =>
      obtain ⟨first, last⟩ := leaves.every (P := (·.appending = none))
        (fun _ _ _ => rfl) rfl
      simp only [List.mem_append]
      rintro added ((((issued | issued) | issued) | issued) | issued)
      · exact first added issued
      · exact issuePutLike_every (P := (·.appending = none))
          (fun _ _ _ => rfl) added issued
      · exact last added issued
      · exact sendDue_every (P := (·.appending = none)) (fun _ _ => rfl)
          added issued
      · exact pciSleep_every (P := (·.appending = none)) rfl added issued
  | getFinish memory stops leaves =>
      obtain ⟨first, last⟩ := leaves.every (P := (·.appending = none))
        (fun _ _ _ => rfl) rfl
      simp only [List.mem_append, List.mem_singleton]
      rintro added ((issued | issued) | rfl)
      · exact first added issued
      · exact last added issued
      · rfl
  | atomicEvents leaves =>
      obtain ⟨first, last⟩ := leaves.every (P := (·.appending = none))
        (fun _ _ _ => rfl) rfl
      simp only [List.mem_append]
      rintro added ((issued | issued) | issued)
      · exact first added issued
      · exact issuePutLike_every (P := (·.appending = none))
          (fun _ _ _ => rfl) added issued
      · exact last added issued
  | fetchAtomicFinish leaves =>
      obtain ⟨first, last⟩ := leaves.every (P := (·.appending = none))
        (fun _ _ _ => rfl) rfl
      simp only [List.mem_append, List.mem_singleton]
      rintro added ((issued | issued) | rfl)
      · exact first added issued
      · exact last added issued
      · rfl
  | responseRest fresh =>
      simp only [List.mem_append, List.mem_cons]
      rintro added ((issued | rfl | issued) | rfl | issued)
      · exact pciSleep_every (P := (·.appending = none)) rfl added issued
      · rfl
      · exact mdCounter_every (P := (·.appending = none)) (fun _ _ => rfl)
          added issued
      · rfl
      · exact pciSleep_every (P := (·.appending = none)) rfl added issued
  | ptlAckTail fresh =>
      simp only [List.mem_cons]
      rintro added (rfl | issued)
      · rfl
      · exact issueAck_every (P := (·.appending = none)) (fun _ _ => rfl) rfl
          added issued
  | exempt free => exact transmit_every rfl (fun _ => rfl) fun _ => rfl
  | granted subject checked =>
      exact transmit_every rfl (fun _ => rfl) fun _ => rfl
  | appendInsert scanned => cases idle
  | noMatchedMe found missing => cases idle
  | overflow found deposited => cases idle
  | _ => simp [Op.appending, releaseAnswered]

theorem Phase.pairs {op : Op} {new : List Op}
    (phase : Phase sys self s op after new) (within : op.Within s.bounds) :
    Pairs sys self s op after new := by
  have nothing := phase.appending_new
  cases phase with
  | quiet quiet =>
      exact .shrink quiet.appending_new.1 quiet.appending_new.2 (.refl s)
  | putEvent => exact .shrink rfl (nothing rfl) (.emit s rfl)
  | mdIncrementCt => exact .shrink rfl (nothing rfl) (.emit s rfl)
  | meIncrementCt => exact .shrink rfl (nothing rfl) (.emit s rfl)
  | releaseE2eEntry on =>
      exact .shrink rfl (nothing rfl)
        (.of_tables rfl rfl rfl (fun _ _ => rfl) ⟨_, rfl, by simp [Obs.pairs]⟩)
  | creditPanic released =>
      exact .shrink rfl (nothing rfl)
        (.of_tables rfl rfl rfl (fun _ _ => rfl) ⟨_, rfl, by simp [Obs.pairs]⟩)
  | releaseCounts released =>
      exact .shrink rfl (nothing rfl)
        (.of_tables rfl rfl rfl (fun _ _ => rfl) ⟨_, rfl, by simp [Obs.pairs]⟩)
  | maybeIssueSend pending =>
      exact .shrink rfl (nothing rfl) (.modReq s _ fun _ => rfl)
  | maybeIssueGet pending =>
      exact .shrink rfl (nothing rfl) (.modReq s _ fun _ => rfl)
  | maybeIssueFetchAtomic pending =>
      exact .shrink rfl (nothing rfl) (.modReq s _ fun _ => rfl)
  | @respondUnmatched msg fail kind type fetches fresh absent =>
      exact .shrink rfl (nothing rfl)
        { Shrinks.answering s msg fail kind with }
  | @matched msg pt list me fail kind effects stop type fresh found memory
      later stops =>
      exact .arrive (nothing rfl) fresh (matched_of_matchEntry found)
        (arrives_deposit within pt list me fail kind stop memory.pairs)
  | handleResponse type => exact .shrink rfl (nothing rfl) (.emit s rfl)
  | handlePtlAck type => exact .shrink rfl (nothing rfl) (.emit s rfl)
  | ackWithoutAnswer type fresh missing =>
      exact .shrink rfl (nothing rfl) (Shrinks.trans
        (Shrinks.modReq s _ (by intro; rfl)) (.halt _ _) rfl)
  | handleBxiAck type fresh answers =>
      refine .shrink rfl (nothing rfl) (Shrinks.trans
        (Shrinks.modReq s _ (by intro; rfl)) (.touch _ _ ?_) rfl)
      intro obs member
      split at member
      · rw [List.mem_singleton.mp member]
        rfl
      · cases member
  | quickAck quick =>
      exact .shrink rfl (nothing rfl) (Shrinks.trans
        (Shrinks.modReq s _ (by intro; rfl)) (.emit _ rfl) rfl)
  | sendAck slow => exact .shrink rfl (nothing rfl) { Shrinks.newMsg s _ with }
  | putFinish leaves => exact .shrink rfl (nothing rfl) (.leaves leaves)
  | @getFinish msg me response effects stop after before following memory
      stops leaves =>
      have accessed : Shrinks s ((s.modMsg response fun m => { m with
          simulatedSize := (s.reqs (s.reqOf msg)).mlength }).touch effects
          stop) := { Shrinks.touch s stop memory.pairs with }
      exact .shrink rfl (nothing rfl) (accessed.trans (.leaves leaves) rfl)
  | atomicEvents leaves => exact .shrink rfl (nothing rfl) (.leaves leaves)
  | fetchAtomicFinish leaves =>
      exact .shrink rfl (nothing rfl) { Shrinks.leaves leaves with }
  | deferredUnlink flagged unlinks =>
      exact .shrink rfl (nothing rfl) (.unlinks unlinks)
  | txPut =>
      exact .shrink rfl (nothing rfl)
        (.of_tables rfl rfl rfl (fun _ _ => rfl) ⟨_, rfl, by simp [Obs.pairs]⟩)
  | responseRest fresh =>
      exact .shrink rfl (nothing rfl) (.modReq s _ fun _ => rfl)
  | sendBxiAck on =>
      exact .shrink rfl (nothing rfl) { Shrinks.newMsg s _ with }
  | ptlAckTail fresh =>
      exact .shrink rfl (nothing rfl) (.modReq s _ fun _ => rfl)
  | unref equality drops => exact .shrink rfl (nothing rfl) (.drops drops)
  | granted subject checked =>
      exact .shrink rfl (nothing rfl)
        (.of_tables rfl rfl rfl (fun _ _ => rfl) ⟨_, rfl, by simp [Obs.pairs]⟩)
  | acquireE2eEntry left =>
      exact .shrink rfl (nothing rfl)
        (.of_tables rfl rfl rfl (fun _ _ => rfl) ⟨_, rfl, by simp [Obs.pairs]⟩)
  | commStart =>
      exact .shrink rfl (nothing rfl)
        (.of_tables rfl rfl rfl (fun _ _ => rfl) ⟨_, rfl, by simp [Obs.pairs]⟩)
  | @retransmit msg pending more =>
      refine .shrink rfl (nothing rfl) ?_
      have copied := Shrinks.newMsg (s.modMsg msg fun m =>
        { m with retryCount := m.retryCount + 1 })
        ((s.modMsg msg fun m =>
          { m with retryCount := m.retryCount + 1 }).msgs msg).copy
      unfold S4BXI.retransmit
      dsimp only
      split
      · exact { copied with log := ⟨_, rfl, by simp [Obs.pairs]⟩ }
      · exact { copied with }
  | appendInsert scanned => exact .insert scanned
  | noMatchedMe found missing => exact .stop
  | overflow found deposited => exact .overflow found deposited
  | appendConsumed => exact .consumed
  | _ => exact .shrink rfl (nothing rfl) { Shrinks.refl s with }

/-! ## Steps -/

/-- An API call as the match lists see it. -/
inductive CallPairs (s : State) : Call → State → List Op → Prop where
  | shrink {call after new}
      (nothing : ∀ added ∈ new, added.appending = none)
      (shrinks : Shrinks s after) : CallPairs s call after new
  | ptAlloc {ni index eq after}
      (pts : after.pts = Function.update s.pts s.nextPt
        { eq := eq, ni := ni, index := index })
      (mes : after.mes = s.mes) (nextMe : after.nextMe = s.nextMe)
      (log : after.log = s.log) (reqs : after.reqs = s.reqs) :
      CallPairs s (.ptAlloc ni index eq) after []
  | ptFree {ni index pt after} (allocated : s.ptIndexes ni index = some pt)
      (pts : after.pts = Function.update s.pts pt { s.pts pt with
        priorityList := [], overflowList := [], unexpectedHeaders := [] })
      (used : ∀ me, (after.mes me).used = (s.mes me).used)
      (nextMe : after.nextMe = s.nextMe) (log : after.log = s.log)
      (reqs : ∀ req, (after.reqs req).matchedMe = (s.reqs req).matchedMe) :
      CallPairs s (.ptFree ni index) after []
  | appendPriority {ni index pt me userPtr}
      (allocated : s.ptIndexes ni index = some pt) :
      CallPairs s (.meAppend ni index me .priority userPtr)
        (newMe s pt me .priority userPtr) [.walkThroughUHs s.nextMe 0]
  | appendOverflow {ni index pt me userPtr}
      (allocated : s.ptIndexes ni index = some pt) :
      CallPairs s (.meAppend ni index me .overflow userPtr)
        (appendInsert (newMe s pt me .overflow userPtr) s.nextMe)
        (issueLink (newMe s pt me .overflow userPtr) s.nextMe)

theorem CallPhase.pairs {call : Call} {new : List Op}
    (phase : CallPhase sys self s call after new) :
    CallPairs s call after new := by
  cases phase with
  | ptAlloc free => exact .ptAlloc rfl rfl rfl rfl rfl
  | ptFree taken equality frees =>
      obtain ⟨drops, sameMes⟩ := frees
      obtain ⟨sameReqs, sameMsgs, stops⟩ := drops
      refine .ptFree taken rfl (fun me => ?_) rfl rfl fun req => ?_
      · obtain ⟨live, same⟩ := sameMes me
        simp only [same]
      · obtain ⟨live, count, same⟩ := sameReqs req
        simp only [same]
  | appendPriority taken => exact .appendPriority taken
  | appendOverflow taken => exact .appendOverflow taken
  | meUnlink free unlinks => exact .shrink (by simp) (.unlinks unlinks)
  | ptEnable taken =>
      refine .shrink (by simp) { Shrinks.refl s with lists := ?_, headers := ?_ }
      all_goals
        intro pt
        simp only [State.modPt, Function.update_apply]
        split
        · rename_i equal
          subst equal
          first | rfl | exact fun list => by cases list <;> exact .refl _
        · first | rfl | exact fun list => .refl _
  | ptDisable taken =>
      refine .shrink (by simp) { Shrinks.refl s with lists := ?_, headers := ?_ }
      all_goals
        intro pt
        simp only [State.modPt, Function.update_apply]
        split
        · rename_i equal
          subst equal
          first | rfl | exact fun list => by cases list <;> exact .refl _
        · first | rfl | exact fun list => .refl _
  | request =>
      refine .shrink (by simp [Op.appending]) (.of_tables rfl rfl rfl
        (fun req old => ?_) ⟨[], by simp [ptlRequest, State.newMsg]⟩)
      have other : req ≠ s.nextReq := Nat.ne_of_lt old
      simp only [ptlRequest, State.newMsg, newRequestMsg,
        Function.update_of_ne other]
  | _ => exact .shrink (by simp) { Shrinks.refl s with }

/-- A step as the match lists see it. -/
inductive Pairing (sys : Sys) (s : State) (index : ThreadId) :
    Label → State → Prop where
  | halt {label reason} : Pairing sys s index label (s.halt reason)
  | run {self : Actor} {op : Op} {rest new : List Op} {after : State}
      (found : s.threads[index]? = some ⟨self, op :: rest⟩)
      (pairs : Pairs sys self s op after new) :
      Pairing sys s index (.run index) { after with
        threads := s.threads.set index ⟨self, new ++ rest⟩ }
  | start {label : Label} {self : Actor} {new : List Op} {after : State}
      (found : s.threads[index]? = some ⟨self, []⟩)
      (nothing : ∀ added ∈ new, added.appending = none)
      (shrinks : Shrinks s after) :
      Pairing sys s index label { after with
        threads := s.threads.set index ⟨self, new⟩ }
  | call {self : Actor} {call : Call} {new : List Op} {after : State}
      (found : s.threads[index]? = some ⟨self, []⟩)
      (owned : call.ownedBy sys self index s = true)
      (pairs : CallPairs s call after new) :
      Pairing sys s index (.call index call) { after with
        threads := s.threads.set index ⟨self, new⟩ }

theorem Advances.pairing {index : ThreadId} {label : Label}
    (advances : Advances sys s index label after) (ops : OpsAllocated s) :
    Pairing sys s index label after := by
  cases advances with
  | dangling dead owner => exact .halt
  | run found alive phase =>
      exact .run found (phase.pairs
        (ops _ (List.mem_of_getElem? found) _ (by simp)))
  | @recv self position msg found target queued =>
      exact .start found (by simp [Op.appending])
        ({ Shrinks.refl s with } : Shrinks s (s.removeRx self.nid self.vn position))
  | @take self msg rest found initiator queued =>
      exact .start found (by simp [Op.appending])
        ({ Shrinks.refl s with } : Shrinks s (s.popTx self.nid self.vn))
  | @wake self msg rest found e2e alive queued =>
      exact .start found (by simp [Op.appending])
        ({ Shrinks.refl s with } : Shrinks s (s.popE2e self.nid))
  | call found user owned alive phase => exact .call found owned phase.pairs

end Steps

end S4BXI
