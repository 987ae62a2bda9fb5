import S4BXI.Memory.Accesses

/-!
# The events of matched requests

A request which was matched is reported by its handler or by its answer and,
when it was deposited in an overflow entry, by the append which finds its
header.  These events are determined by the request and by the entry it was
matched with.
-/

namespace S4BXI

open Lib

/-- The kind of the event which reports a request on the expected path. -/
def ReqType.targetKind : ReqType → EventKind
  | .put => .put
  | .get => .get
  | .atomic => .atomic
  | .fetchAtomic => .fetchAtomic

/-- The kinds of the events of the expected path. -/
def EventKind.ofTarget : EventKind → Bool
  | .put | .get | .atomic | .fetchAtomic => true
  | _ => false

/-- The event which reports a request matched with an entry. -/
def targetReport (sys : Sys) (kind : EventKind) (req : BxiRequest)
    (me : BxiME) : Event :=
  { type := kind
    initiator := some (sys.mdNid req.md, sys.mdPid req.md)
    niFailType := .ok
    ptIndex := some req.ptIndex
    userPtr := some me.userPtr
    hdrData := if kind = .get then none else some req.hdr
    rlength := some req.payloadSize
    mlength := some req.mlength
    remoteOffset := some req.remoteOffset
    matchBits := some req.matchBits
    start := some req.start }

/-- The event which reports a request found in the unexpected headers. -/
def overflowReport (sys : Sys) (req : BxiRequest) (me : BxiME) : Event :=
  { targetReport sys req.type.overflowKind req me with
    hdrData := if req.type = .get then none else some req.hdr
    remoteOffset := none }

/-- The request was matched with the entry. -/
def State.Took (s : State) (req : ReqId) (me : MeId) : Prop :=
  ∃ msg pt list, Obs.consumed req msg pt list me ∈ s.log

/-- The event is the one which reports its request. -/
def Event.Describes (sys : Sys) (s : State) (event : Event) : Origin → Prop
  | .request req => event.type.ofTarget = true → ∃ me, s.Took req me ∧
      event = targetReport sys event.type (s.reqs req) (s.mes me)
  | .header header _ => header < s.nextMsg ∧ ∃ me,
      s.Took (s.reqOf header) me ∧
        event = overflowReport sys (s.reqs (s.reqOf header)) (s.mes me)
  | .entry _ => True

/-- What an operation knows about the request it reports. -/
def Op.Describes (sys : Sys) (s : State) : Op → Prop
  | .putEvent _ event origin => event.Describes sys s origin
  | .putFinish msg me _ | .atomicFinish msg me _ | .atomicEvents msg me =>
      msg < s.nextMsg ∧ s.Took (s.reqOf msg) me
  | _ => True

def Obs.Describes (sys : Sys) (s : State) : Obs → Prop
  | .event _ report origin => report.Describes sys s origin
  | _ => True

/-- The events are those of their requests, which keep a copy of the entry they
were matched with. -/
structure Describing (sys : Sys) (s : State) : Prop where
  ops : EveryPending (fun _ op => op.Describes sys s) s.threads
  log : ∀ obs ∈ s.log, obs.Describes sys s
  copies : ∀ req < s.nextReq, ∀ matched,
    (s.reqs req).matchedMe = some matched →
      ∃ me, s.Took req me ∧ matched.fixed = (s.mes me).fixed
  tables : ∀ req me, s.Took req me →
    (s.pts (s.mes me).pt).index = (s.reqs req).ptIndex

section Steps

variable {sys : Sys} {self : Actor} {s after : State} {req : ReqId}
  {me : MeId}

/-! ## What stays -/

theorem State.Took.mono (took : s.Took req me) (grows : Extends s after) :
    after.Took req me := by
  obtain ⟨msg, pt, list, logged⟩ := took
  exact ⟨msg, pt, list, grows.log.mem logged⟩

theorem State.Took.within (took : s.Took req me) (allocated : Allocated s) :
    req < s.nextReq ∧ me < s.nextMe := by
  obtain ⟨msg, pt, list, logged⟩ := took
  have within := allocated.log _ logged
  exact ⟨within.1, within.2.2.2⟩

/-- Only the handler of a fresh request computes its access, and a request which
was matched is not fresh. -/
theorem State.Took.access {index : ThreadId} {label : Label}
    (took : s.Took req me) (wellScoped : WellScoped s)
    (solvent : Solvent sys s) (advances : Advances sys s index label after) :
    (after.reqs req).access = (s.reqs req).access := by
  have old := (took.within wellScoped.tables).1
  rcases advances.accesses wellScoped.ops with untouched |
    ⟨self, msg, rest, pt, list, entry, found, fresh, matched, deposits⟩
  · exact untouched.access req old
  · apply deposits.others
    rintro rfl
    obtain ⟨other, pt', list', logged⟩ := took
    apply solvent.not_matched old fresh me
    apply List.mem_filterMap.mpr
    exact ⟨_, logged, by simp [Obs.matchOf]⟩

theorem targetReport_congr {first second : BxiRequest} {entry other : BxiME}
    (kind : EventKind) (fixed : second.fixed = first.fixed)
    (access : second.access = first.access)
    (same : other.fixed = entry.fixed) :
    targetReport sys kind second other =
      targetReport sys kind first entry := by
  have md : second.md = first.md := (congrArg BxiRequest.md fixed :)
  have index : second.ptIndex = first.ptIndex :=
    (congrArg BxiRequest.ptIndex fixed :)
  have hdr : second.hdr = first.hdr := (congrArg BxiRequest.hdr fixed :)
  have payload : second.payloadSize = first.payloadSize :=
    (congrArg BxiRequest.payloadSize fixed :)
  have remote : second.remoteOffset = first.remoteOffset :=
    (congrArg BxiRequest.remoteOffset fixed :)
  have bits : second.matchBits = first.matchBits :=
    (congrArg BxiRequest.matchBits fixed :)
  have userPtr : other.userPtr = entry.userPtr :=
    (congrArg BxiME.userPtr same :)
  have length : second.mlength = first.mlength :=
    (congrArg Prod.fst access :)
  have start : second.start = first.start :=
    (congrArg (fun access => access.2.1) access :)
  simp only [targetReport, md, index, hdr, payload, remote, bits, userPtr,
    length, start]

theorem overflowReport_congr {first second : BxiRequest}
    {entry other : BxiME} (fixed : second.fixed = first.fixed)
    (access : second.access = first.access)
    (same : other.fixed = entry.fixed) :
    overflowReport sys second other = overflowReport sys first entry := by
  have type : second.type = first.type := (congrArg BxiRequest.type fixed :)
  have hdr : second.hdr = first.hdr := (congrArg BxiRequest.hdr fixed :)
  unfold overflowReport
  rw [targetReport_congr _ fixed access same, type, hdr]

/-- An event goes on describing its request. -/
theorem Event.Describes.mono {event : Event} {origin : Origin}
    (describes : event.Describes sys s origin) (grows : Extends s after)
    (allocated : Allocated s)
    (accesses : ∀ req me, s.Took req me →
      (after.reqs req).access = (s.reqs req).access) :
    event.Describes sys after origin := by
  cases origin with
  | request req =>
      intro target
      obtain ⟨me, took, report⟩ := describes target
      obtain ⟨oldReq, oldMe⟩ := took.within allocated
      refine ⟨me, took.mono grows, report.trans ?_⟩
      exact (targetReport_congr _ (grows.reqs req oldReq)
        (accesses req me took) (grows.mes me oldMe)).symm
  | header header later =>
      obtain ⟨small, me, took, report⟩ := describes
      obtain ⟨oldReq, oldMe⟩ := took.within allocated
      have same : after.reqOf header = s.reqOf header := grows.reqOf small
      refine ⟨lt_of_lt_of_le small grows.nextMsg, me, ?_, ?_⟩
      · rw [same]
        exact took.mono grows
      · rw [same]
        exact report.trans (overflowReport_congr (grows.reqs _ oldReq)
          (accesses _ me took) (grows.mes me oldMe)).symm
  | entry entry => trivial

theorem Op.Describes.mono {op : Op} (describes : op.Describes sys s)
    (grows : Extends s after) (allocated : Allocated s)
    (accesses : ∀ req me, s.Took req me →
      (after.reqs req).access = (s.reqs req).access) :
    op.Describes sys after := by
  have kept : ∀ {msg : MsgId} {me : MeId},
      msg < s.nextMsg ∧ s.Took (s.reqOf msg) me →
        msg < after.nextMsg ∧ after.Took (after.reqOf msg) me := by
    rintro msg me ⟨old, took⟩
    rw [grows.reqOf old]
    exact ⟨lt_of_lt_of_le old grows.nextMsg, took.mono grows⟩
  cases op with
  | putEvent eq event origin =>
      exact Event.Describes.mono describes grows allocated accesses
  | putFinish msg me fail => exact kept describes
  | atomicFinish msg me fail => exact kept describes
  | atomicEvents msg me => exact kept describes
  | _ => trivial

theorem Obs.Describes.mono {obs : Obs} (describes : obs.Describes sys s)
    (grows : Extends s after) (allocated : Allocated s)
    (accesses : ∀ req me, s.Took req me →
      (after.reqs req).access = (s.reqs req).access) :
    obs.Describes sys after := by
  cases obs with
  | event eq report origin =>
      exact Event.Describes.mono describes grows allocated accesses
  | _ => trivial

/-! ## Operations -/

theorem mem_issueEvent {eq : Option EqId} {queue : EqId}
    {event reported : Event} {origin issuer : Origin}
    (member : Op.putEvent queue reported issuer ∈
      issueEvent eq event origin) : reported = event ∧ issuer = origin := by
  cases eq with
  | none => cases member
  | some eq =>
      cases List.mem_singleton.mp member
      exact ⟨rfl, rfl⟩

theorem putLikeEvent_eq {kind : EventKind} {entry : BxiME}
    (putLike : kind ≠ .get)
    (index : (s.pts entry.pt).index = (s.reqs req).ptIndex) :
    putLikeEvent sys s kind entry (s.reqs req) =
      targetReport sys kind (s.reqs req) entry := by
  unfold putLikeEvent targetReport
  rw [if_neg putLike, index]

/-- The `PUT` or `ATOMIC` event of a request which was matched. -/
theorem issuePutLike_describes {kind : EventKind} {queue : EqId}
    {event : Event} {origin : Origin} (putLike : kind ≠ .get)
    (took : s.Took req me)
    (index : (s.pts (s.mes me).pt).index = (s.reqs req).ptIndex)
    (member : Op.putEvent queue event origin ∈
      issuePutLike sys s kind (s.mes me) req) :
    event.Describes sys s origin := by
  unfold issuePutLike at member
  split at member
  · obtain ⟨rfl, rfl⟩ := mem_issueEvent member
    intro _
    refine ⟨me, took, ?_⟩
    exact putLikeEvent_eq putLike index
  · cases member

/-- The `GET` or `FETCH_ATOMIC` event of a request which was matched. -/
theorem issueFetchEvent_describes (describing : Describing sys s)
    (old : req < s.nextReq) {kind : EventKind} {hdr : Option Nat}
    {queue : EqId} {event : Event} {origin : Origin}
    (header : hdr = if kind = .get then none else some (s.reqs req).hdr)
    (member : Op.putEvent queue event origin ∈
      issueFetchEvent sys s req kind hdr) : event.Describes sys s origin := by
  unfold issueFetchEvent at member
  split at member
  · cases member
  · rename_i matched deposited
    split at member
    · obtain ⟨rfl, rfl⟩ := mem_issueEvent member
      intro _
      obtain ⟨me, took, same⟩ := describing.copies req old matched deposited
      have userPtr : matched.userPtr = (s.mes me).userPtr :=
        (congrArg BxiME.userPtr same :)
      have pt : matched.pt = (s.mes me).pt := (congrArg BxiME.pt same :)
      refine ⟨me, took, ?_⟩
      unfold fetchEvent targetReport
      rw [userPtr, pt, describing.tables req me took, header]
    · cases member

/-- The `*_OVERFLOW` event of a header. -/
theorem overflowEvent_eq (describing : Describing sys s)
    (old : req < s.nextReq) {matched : BxiME}
    (deposited : (s.reqs req).matchedMe = some matched) :
    ∃ me, s.Took req me ∧ overflowEvent sys s (s.reqs req) matched =
      overflowReport sys (s.reqs req) (s.mes me) := by
  obtain ⟨me, took, same⟩ := describing.copies req old matched deposited
  have userPtr : matched.userPtr = (s.mes me).userPtr :=
    (congrArg BxiME.userPtr same :)
  have pt : matched.pt = (s.mes me).pt := (congrArg BxiME.pt same :)
  refine ⟨me, took, ?_⟩
  unfold overflowEvent overflowReport targetReport
  rw [userPtr, pt, describing.tables req me took]
  simp

theorem Event.Describes.of_kind {event : Event} {origin : ReqId}
    (kind : event.type.ofTarget = false) :
    event.Describes sys s (.request origin) := by
  intro target
  rw [kind] at target
  cases target

/-- Leaving an entry reports no request. -/
theorem Leaves.no_report {base : State} {before following : List Op}
    (leaves : Leaves base me after before following) (req : ReqId)
    (queue : EqId) (event : Event) :
    Op.putEvent queue event (.request req) ∉ before ∧
      Op.putEvent queue event (.request req) ∉ following := by
  have silent := leaves.every (P := fun op =>
    op ≠ .putEvent queue event (.request req)) (by simp) (by simp)
  constructor
  · exact fun member => silent.1 _ member rfl
  · exact fun member => silent.2 _ member rfl

/-- The handler which goes on to use an entry has matched its request. -/
theorem Phase.took {msg : MsgId} {new : List Op}
    (phase : Phase sys self s (.handle msg) after new) (old : msg < s.nextMsg)
    {added : Op} (member : added ∈ new) (uses : added.using = some me) :
    after.Took (s.reqOf msg) me := by
  have weight : 1 ≤ opsWeight (Op.uses me) new := by
    have bound : Op.uses me added ≤ opsWeight (Op.uses me) new :=
      List.single_le_sum (by simp) _ (List.mem_map_of_mem member)
    rw [Op.uses, if_pos uses] at bound
    exact bound
  cases phase.accesses old with
  | untouched untouched counts =>
      have none' := counts me
      simp only [Op.leaves, Op.uses, Op.using] at none'
      simp at none'
      omega
  | @matched _ pt list entry _ _ fresh matched deposits counts =>
      have count := counts me
      by_cases same : entry = me
      · subst same
        obtain ⟨table, kind, extra, log, silent⟩ := deposits.log
        refine ⟨msg, table, kind, ?_⟩
        rw [log]
        simp
      · rw [if_neg same] at count
        omega

/-- What an operation which reports a request leaves of it. -/
theorem Phase.reports {op : Op} {new : List Op}
    (phase : Phase sys self s op after new) (describing : Describing sys s)
    (wellScoped : WellScoped s) (within : op.Within s.bounds)
    (knows : op.Describes sys s) {queue : EqId} {event : Event}
    {origin : Origin} (member : Op.putEvent queue event origin ∈ new) :
    event.Describes sys s origin := by
  generalize same : Op.putEvent queue event origin = added at member
  cases phase.follows added member with
  | putSend type =>
      cases same
      exact .of_kind (by rw [type]; rfl)
  | putAck type =>
      cases same
      exact .of_kind (by rw [type]; rfl)
  | putReply type =>
      cases same
      exact .of_kind (by rw [type]; rfl)
  | putGet type =>
      cases same
      cases phase with
      | quiet quiet => cases quiet; cases member
      | maybeIssueGet pending =>
          exact issueFetchEvent_describes describing within rfl member
  | putFetchAtomic type =>
      cases same
      cases phase with
      | quiet quiet => cases quiet; cases member
      | maybeIssueFetchAtomic pending =>
          exact issueFetchEvent_describes describing within rfl member
  | @putReported msg me fail _ _ type =>
      cases same
      cases phase with
      | quiet quiet => cases quiet
      | @putFinish _ _ _ _ before following leaves =>
          have silent := leaves.no_report (s.reqOf msg) queue event
          have reported : Op.putEvent queue event
              (.request (s.reqOf msg)) ∈
              issuePutLike sys s .put (s.mes me) (s.reqOf msg) := by
            simp only [List.mem_append] at member
            rcases member with (((earlier | here) | later) | ack) | sleep
            · exact absurd earlier silent.1
            · exact here
            · exact absurd later silent.2
            · exact absurd rfl (sendDue_every (P := fun op =>
                op ≠ .putEvent queue event (.request (s.reqOf msg)))
                (by simp) _ ack)
            · exact absurd rfl (pciSleep_every (P := fun op =>
                op ≠ .putEvent queue event (.request (s.reqOf msg)))
                (by simp) _ sleep)
          exact issuePutLike_describes (by decide) knows.2
            (describing.tables _ _ knows.2) reported
  | @atomicReported msg me _ _ type =>
      cases same
      cases phase with
      | quiet quiet => cases quiet
      | @atomicEvents _ _ _ before following leaves =>
          have silent := leaves.no_report (s.reqOf msg) queue event
          have reported : Op.putEvent queue event
              (.request (s.reqOf msg)) ∈
              issuePutLike sys s .atomic (s.mes me) (s.reqOf msg) := by
            simp only [List.mem_append] at member
            rcases member with (earlier | here) | later
            · exact absurd earlier silent.1
            · exact here
            · exact absurd later silent.2
          exact issuePutLike_describes (by decide) knows.2
            (describing.tables _ _ knows.2) reported
  | putUnlinked type => cases same; trivial
  | getUnlinked type => cases same; trivial
  | atomicUnlinked type => cases same; trivial
  | fetchUnlinked type => cases same; trivial
  | linked type => cases same; trivial
  | @headerEvent me index header _ _ =>
      cases same
      cases phase with
      | quiet quiet => cases quiet
      | appendInsert scanned =>
          rcases issueLink_cases s me with none' | ⟨eq, link, type, some'⟩
          · rw [none'] at member
            cases member
          · rw [some'] at member
            cases List.mem_singleton.mp member
      | noMatchedMe found missing => cases member
      | @overflow _ _ position other matched found deposited =>
          obtain ⟨ahead, present, matching, missed⟩ :=
            BxiPT.findHeader_some found
          have small := (wellScoped.tables.pts _).headers other
            (List.mem_of_getElem? present)
          obtain ⟨entry, took, report⟩ := overflowEvent_eq describing
            (wellScoped.tables.parents other small) deposited
          simp only [List.mem_append, List.mem_cons, List.not_mem_nil,
            or_false] at member
          rcases member with (unrefs | issued) | continues
          · cases unrefs
          · obtain ⟨rfl, equal⟩ := mem_issueEvent issued
            cases equal
            exact ⟨small, entry, took, report⟩
          · split at continues
            · cases continues
            · cases continues
  | @matched msg pt list me fail kind type found => cases kind <;> cases same
  | _ => cases same

/-- The operations which an operation leaves know the request they report. -/
theorem Phase.describes {op : Op} {new : List Op}
    (phase : Phase sys self s op after new) (describing : Describing sys s)
    (wellScoped : WellScoped s) (within : op.Within s.bounds)
    (knows : op.Describes sys s) {added : Op} (member : added ∈ new) :
    added.Describes sys s ∨ added.Describes sys after := by
  cases added with
  | putEvent queue event origin =>
      exact .inl (phase.reports describing wellScoped within knows member)
  | putFinish msg me fail =>
      right
      generalize same : Op.putFinish msg me fail = added at member
      cases phase.follows added member with
      | @matched other pt list entry reason kind type found =>
          have took := phase.took within member (by rw [← same]; rfl)
          cases kind <;> cases same
          refine ⟨lt_of_lt_of_le within phase.extends.nextMsg, ?_⟩
          rw [phase.extends.reqOf within]
          exact took
      | _ => cases same
  | atomicFinish msg me fail =>
      right
      generalize same : Op.atomicFinish msg me fail = added at member
      cases phase.follows added member with
      | @matched other pt list entry reason kind type found =>
          have took := phase.took within member (by rw [← same]; rfl)
          cases kind <;> cases same
          refine ⟨lt_of_lt_of_le within phase.extends.nextMsg, ?_⟩
          rw [phase.extends.reqOf within]
          exact took
      | _ => cases same
  | atomicEvents msg me =>
      left
      generalize same : Op.atomicEvents msg me = added at member
      cases phase.follows added member with
      | atomicEvents =>
          cases same
          exact knows
      | @matched other pt list entry reason kind type found =>
          cases kind <;> cases same
      | _ => cases same
  | _ => exact .inl trivial

/-! ## Copies -/

/-- A handler keeps a copy of the entry it matched, or what was there. -/
theorem deposit_matchedMe {msg : MsgId} (old : msg < s.nextMsg) (pt : PtId)
    (list : PtlList) (me : MeId) (fail : NiFailType) (kind : ReqType)
    {matched : BxiME}
    (copied : ((deposit s msg pt list me fail kind).reqs
      (s.reqOf msg)).matchedMe = some matched) :
    (s.reqs (s.reqOf msg)).matchedMe = some matched ∨
      matched.fixed = (s.mes me).fixed := by
  have same : (takeEntry (answering s msg fail kind) msg pt list me).reqOf
      msg = s.reqOf msg := by
    rw [(Extends.takeEntry (answering s msg fail kind) msg pt list
      me).reqOf (old.trans_le (Extends.answering s msg fail kind).nextMsg),
      (Extends.answering s msg fail kind).reqOf old]
  have kept := (answering_tables s msg fail kind).2.2 (s.reqOf msg)
  simp only [deposit, receive, same, Function.update_self, takeEntry_mes,
    answering_mes, takeEntry_reqs] at copied
  split at copied
  · cases copied
    exact .inr rfl
  · rw [kept] at copied
    exact .inl copied

/-- A request gets the copy of an entry when it is matched with it. -/
theorem Phase.copies {op : Op} {new : List Op}
    (phase : Phase sys self s op after new) (within : op.Within s.bounds)
    (old : req < s.nextReq) {matched : BxiME}
    (copied : (after.reqs req).matchedMe = some matched) :
    (s.reqs req).matchedMe = some matched ∨
      ∃ me, after.Took req me ∧ matched.fixed = (s.mes me).fixed := by
  cases phase.pairs within with
  | shrink idle nothing shrinks =>
      rw [shrinks.matchedMe req old] at copied
      exact .inl copied
  | @arrive msg pt list me _ _ nothing fresh match' arrives =>
      by_cases here : req = s.reqOf msg
      · subst here
        cases phase with
        | quiet quiet => exact .inl copied
        | @matched _ table kind' entry fail kind effects stop type fresh' found
            memory later stops =>
            rcases deposit_matchedMe within table kind' entry fail kind
              copied with kept | same
            · exact .inl kept
            · have log := (arrives_deposit within table kind' entry fail kind
                stop memory.pairs).log
              obtain ⟨extra, log, silent⟩ := log
              refine .inr ⟨entry, ⟨msg, table, kind', ?_⟩, same⟩
              rw [log]
              simp
        | respondUnmatched type fetches fresh' absent =>
            left
            rw [← (answering_tables s msg _ _).2.2 (s.reqOf msg)]
            exact copied
        | handleResponse type => exact .inl copied
        | handlePtlAck type => exact .inl copied
        | ackWithoutAnswer type fresh' missing =>
            left
            simpa [State.modReq, State.halt] using copied
        | handleBxiAck type fresh' answers =>
            left
            simpa [State.modReq, State.touch] using copied
      · rw [arrives.others req here] at copied
        exact .inl copied
  | insert scanned => exact .inl copied
  | stop => exact .inl copied
  | overflow found deposited => exact .inl copied
  | consumed => exact .inl copied

theorem CallPhase.copies {call : Call} {new : List Op}
    (phase : CallPhase sys self s call after new) (small : req < after.nextReq)
    {matched : BxiME} (copied : (after.reqs req).matchedMe = some matched) :
    req < s.nextReq ∧ (s.reqs req).matchedMe = some matched := by
  cases phase with
  | ptFree taken equality frees =>
      obtain ⟨drops, sameMes⟩ := frees
      obtain ⟨sameReqs, sameMsgs, stops⟩ := drops
      obtain ⟨live, count, same⟩ := sameReqs req
      refine ⟨small, ?_⟩
      simp only [same] at copied
      exact copied
  | meUnlink free unlinks =>
      rw [unlinks.nextReq] at small
      rw [unlinks.reqs] at copied
      exact ⟨small, copied⟩
  | @request cmd =>
      rcases Nat.lt_succ_iff_lt_or_eq.mp small with old | rfl
      · refine ⟨old, ?_⟩
        have other : req ≠ s.nextReq := Nat.ne_of_lt old
        simpa [ptlRequest, State.newMsg, newRequestMsg, other] using copied
      · simp [ptlRequest, State.newMsg, newRequestMsg, newRequest] at copied
  | _ => exact ⟨small, copied⟩

/-- A matched request was matched in its portal table entry. -/
theorem Matched.index {nid : Nid} {msg : MsgId} {pt : PtId} {list : PtlList}
    (matched : Matched sys s nid msg pt list me) (allocated : Allocated s)
    (appending : Appending sys s) :
    (s.pts (s.mes me).pt).index = (s.reqs (s.reqOf msg)).ptIndex := by
  obtain ⟨ni, member, canMatch, taken⟩ := matched.interface
  have linked := (appending.lists pt list me
    (BxiPT.findEntry_mem matched.found).1).1
  rw [linked]
  exact (allocated.ptIndexes ni _ pt taken).2.2

/-- A request which has just been matched. -/
theorem State.Took.before {index : ThreadId} {label : Label}
    (took : after.Took req me) (wellScoped : WellScoped s)
    (appending : Appending sys s)
    (advances : Advances sys s index label after) :
    s.Took req me ∨ req < s.nextReq ∧ me < s.nextMe ∧
      (s.pts (s.mes me).pt).index = (s.reqs req).ptIndex := by
  obtain ⟨msg, pt, list, logged⟩ := took
  rcases advances.accesses wellScoped.ops with untouched |
    ⟨self, other, rest, table, kind, entry, found, fresh, matched, deposits⟩
  · obtain ⟨extra, log, silent⟩ := untouched.log
    rw [log] at logged
    rcases List.mem_append.mp logged with earlier | new
    · exact .inl ⟨msg, pt, list, earlier⟩
    · have none' := silent _ new me
      simp [Obs.matchOf] at none'
  · obtain ⟨table', kind', extra, log, silent⟩ := deposits.log
    rw [log] at logged
    rcases List.mem_append.mp logged with earlier | new
    · exact .inl ⟨msg, pt, list, earlier⟩
    · rcases List.mem_cons.mp new with here | later
      · cases here
        have old : msg < s.nextMsg :=
          wellScoped.ops _ (List.mem_of_getElem? found) (.handle msg) (by simp)
        refine .inr ⟨wellScoped.tables.parents msg old,
          (wellScoped.tables.matched matched).2, ?_⟩
        exact matched.index wellScoped.tables appending
      · have none' := silent _ later me
        simp [Obs.matchOf] at none'

/-! ## Runs -/

theorem Describing.advances {index : ThreadId} {label : Label}
    (describing : Describing sys s) (wellScoped : WellScoped s)
    (solvent : Solvent sys s) (appending : Appending sys s)
    (advances : Advances sys s index label after) :
    Describing sys after := by
  have grows := advances.extends
  have allocated := wellScoped.tables
  have accesses : ∀ req me, s.Took req me →
      (after.reqs req).access = (s.reqs req).access :=
    fun req me took => took.access wellScoped solvent advances
  have keptOp : ∀ thread ∈ s.threads, ∀ op ∈ thread.ops,
      op.Describes sys s → op.Describes sys after :=
    fun thread member op pends describes =>
      describes.mono grows allocated accesses
  have keptLog : ∀ obs ∈ s.log, obs.Describes sys after :=
    fun obs logged =>
      (describing.log obs logged).mono grows allocated accesses
  have keptCopy : ∀ req < s.nextReq, ∀ matched,
      (s.reqs req).matchedMe = some matched →
        ∃ me, after.Took req me ∧ matched.fixed = (after.mes me).fixed := by
    intro req old matched copied
    obtain ⟨me, took, same⟩ := describing.copies req old matched copied
    refine ⟨me, took.mono grows, same.trans ?_⟩
    exact (grows.mes me (took.within allocated).2).symm
  have tables : ∀ req me, after.Took req me →
      (after.pts (after.mes me).pt).index = (after.reqs req).ptIndex := by
    intro req me took
    have fixed : req < s.nextReq ∧ me < s.nextMe ∧
        (s.pts (s.mes me).pt).index = (s.reqs req).ptIndex := by
      rcases took.before wellScoped appending advances with earlier | new
      · obtain ⟨oldReq, oldMe⟩ := earlier.within allocated
        exact ⟨oldReq, oldMe, describing.tables req me earlier⟩
      · exact new
    obtain ⟨oldReq, oldMe, same⟩ := fixed
    rw [grows.mePt oldMe]
    have table := congrArg BxiPT.index
      (grows.pts _ (allocated.entries me oldMe))
    have asked := congrArg BxiRequest.ptIndex (grows.reqs req oldReq)
    exact (table.trans same).trans asked.symm
  have started : ∀ {self : Actor} {new : List Op},
      (∀ op ∈ new, op.Describes sys after) →
      EveryPending (fun _ op => op.Describes sys after)
        (s.threads.set index ⟨self, new⟩) :=
    fun news => describing.ops.start keptOp news
  cases advances with
  | dangling dead owner => exact { describing with }
  | @run self op rest new mid found alive phase =>
      have member := List.mem_of_getElem? found
      have within := wellScoped.ops _ member op (by simp)
      have knows := describing.ops _ member op (by simp)
      constructor
      · refine describing.ops.run found keptOp ?_
        intro added newMember
        rcases phase.describes describing wellScoped within knows newMember with
          before | now
        · exact before.mono grows allocated accesses
        · exact now
      · intro obs logged
        obtain ⟨extra, log, emitted⟩ := phase.emits within
        rw [show ({ mid with threads := _ } : State).log = mid.log from rfl,
          log] at logged
        rcases List.mem_append.mp logged with earlier | new
        · exact keptLog obs earlier
        · cases emitted obs new with
          | event => exact Op.Describes.mono knows grows allocated accesses
          | _ => trivial
      · intro req small matched copied
        rw [show ({ mid with threads := _ } : State).nextReq = mid.nextReq
          from rfl, phase.nextReq] at small
        rcases phase.copies within small copied with kept | ⟨me, took, same⟩
        · exact keptCopy req small matched kept
        · have taken : State.Took { mid with
              threads := s.threads.set index ⟨self, new ++ rest⟩ } req me :=
            took
          have old : me < s.nextMe := by
            rcases taken.before wellScoped appending (.run found alive phase)
              with earlier | now
            · exact (earlier.within allocated).2
            · exact now.2.1
          exact ⟨me, taken, same.trans (grows.mes me old).symm⟩
      · exact tables
  | recv found target queued =>
      exact ⟨started (by simp [Op.Describes]), keptLog, keptCopy, tables⟩
  | take found initiator queued =>
      exact ⟨started (by simp [Op.Describes]), keptLog, keptCopy, tables⟩
  | wake found e2e alive queued =>
      exact ⟨started (by simp [Op.Describes]), keptLog, keptCopy, tables⟩
  | call found user owned alive phase =>
      refine ⟨started ?_, ?_, ?_, tables⟩
      · cases phase with
        | appendPriority taken => simp [Op.Describes]
        | appendOverflow taken =>
            exact issueLink_every fun _ _ _ => trivial
        | request => simp [Op.Describes]
        | _ => simp
      · intro obs logged
        rw [show (_ : State).log = _ from phase.log] at logged
        exact keptLog obs logged
      · intro req small matched copied
        obtain ⟨old, kept⟩ := phase.copies small copied
        exact keptCopy req old matched kept

theorem describing_initial (sys : Sys) : Describing sys (initial sys) := by
  constructor
  · intro thread member op pends
    obtain ⟨actor, _, rfl⟩ := List.mem_map.mp member
    cases pends
  · intro obs logged
    cases logged
  · intro req small
    exact absurd small (Nat.not_lt_zero req)
  · rintro req me ⟨msg, pt, list, logged⟩
    cases logged

theorem ReachedBy.describing {allowed : State → Label → Prop}
    (reached : ReachedBy sys allowed s) : Describing sys s := by
  apply reached.invariant_of_reached (describing_initial sys)
  intro before after label earlier describing _ stepped
  exact describing.advances (ReachedBy.wellScoped earlier)
    (ReachedBy.solvent earlier) (ReachedBy.appending earlier)
    (step_advances stepped)

/-- A request is matched with one entry. -/
theorem ReachedBy.took_unique {allowed : State → Label → Prop}
    (reached : ReachedBy sys allowed s) {other : MeId}
    (first : s.Took req me) (second : s.Took req other) : other = me := by
  have once : s.achieved .consumed req ≤ 1 :=
    (ReachedBy.solvent reached).achieved_le_one
      (ReachedBy.wellScoped reached) .consumed req
  obtain ⟨msg, pt, list, logged⟩ := first
  obtain ⟨msg', pt', list', logged'⟩ := second
  have achieves : ∀ {msg pt list me}, Obs.consumed req msg pt list me ∈ s.log →
      Obs.consumed req msg pt list me ∈
        s.log.filter (Obs.achieves .consumed req) := by
    intro msg pt list me member
    exact List.mem_filter.mpr ⟨member, by simp [Obs.achieves]⟩
  have here := achieves logged
  have there := achieves logged'
  unfold State.achieved at once
  rw [List.countP_eq_length_filter] at once
  generalize s.log.filter (Obs.achieves .consumed req) = matches' at *
  cases matches' with
  | nil => cases here
  | cons obs rest =>
      have none' : rest = [] :=
        List.eq_nil_of_length_eq_zero (Nat.le_zero.mp (Nat.le_of_succ_le_succ once))
      subst none'
      have same := (List.mem_singleton.mp there).trans
        (List.mem_singleton.mp here).symm
      exact (Obs.consumed.inj same).2.2.2.2

end Steps

/-! ## The expected and the unexpected path -/

/-- Both events report the same message. -/
structure SameReport (kind : ReqType) (expected unexpected : Event) : Prop where
  initiator : unexpected.initiator = expected.initiator
  niFailType : unexpected.niFailType = expected.niFailType
  ptIndex : unexpected.ptIndex = expected.ptIndex
  userPtr : unexpected.userPtr = expected.userPtr
  rlength : unexpected.rlength = expected.rlength
  mlength : unexpected.mlength = expected.mlength
  matchBits : unexpected.matchBits = expected.matchBits
  remoteOffset : unexpected.remoteOffset = expected.remoteOffset
  hdrData : kind ≠ .get → unexpected.hdrData = expected.hdrData

/-- The events of one request in two orders: in `s` it was matched with the
priority entry `me`; in `t` it was deposited in the overflow entry `overflow`
and then found by the append of the same priority entry, `later`.  Neither
entry truncates it. -/
structure TwoOrders (s t : State) (req : ReqId) (header : MsgId)
    (me overflow later : MeId) (expected unexpected : Event) : Prop where
  matched : ∃ msg pt, Obs.consumed req msg pt .priority me ∈ s.log
  reported : ∃ eq, Obs.event eq expected (.request req) ∈ s.log
  kind : expected.type = (s.reqs req).type.targetKind
  deposited : ∃ pt,
    Obs.consumed (t.reqOf header) header pt .overflow overflow ∈ t.log
  found : ∃ eq, Obs.event eq unexpected (.header header later) ∈ t.log
  request : (t.reqs (t.reqOf header)).fixed = (s.reqs req).fixed
  options : (t.mes later).me = (s.mes me).me
  userPtr : (t.mes later).userPtr = (s.mes me).userPtr
  whole : (s.reqs req).mlength = (s.reqs req).payloadSize
  deposit : (t.reqs (t.reqOf header)).mlength =
    (t.reqs (t.reqOf header)).payloadSize

/-- The event of the unexpected path has no remote offset, so that it never is
that of the expected path.  It has the user pointer of the overflow entry; the
other fields are the same. -/
theorem unexpected_report_differs {sys : Sys} {s t : State}
    (first : Reachable sys s) (second : Reachable sys t) {req : ReqId}
    {header : MsgId} {me overflow later : MeId} {expected unexpected : Event}
    (orders : TwoOrders s t req header me overflow later expected
      unexpected) :
    ¬SameReport (s.reqs req).type expected unexpected ∧
      unexpected.remoteOffset = none ∧
      expected.remoteOffset = some (s.reqs req).remoteOffset ∧
      (unexpected.userPtr = expected.userPtr ↔
        (t.mes overflow).userPtr = (t.mes later).userPtr) ∧
      SameReport (s.reqs req).type expected { unexpected with
        userPtr := expected.userPtr
        remoteOffset := expected.remoteOffset } := by
  obtain ⟨msg, pt, taken⟩ := orders.matched
  obtain ⟨eq, reported⟩ := orders.reported
  obtain ⟨pt', taken'⟩ := orders.deposited
  obtain ⟨eq', found⟩ := orders.found
  have target : expected.type.ofTarget = true := by
    rw [orders.kind]
    cases (s.reqs req).type <;> rfl
  obtain ⟨entry, took, report⟩ :=
    (ReachedBy.describing first).log _ reported target
  have here := ReachedBy.took_unique first ⟨msg, pt, _, taken⟩ took
  obtain ⟨small, entry', took', report'⟩ :=
    (ReachedBy.describing second).log _ found
  have there := ReachedBy.took_unique second ⟨header, pt', _, taken'⟩ took'
  subst here there
  have fixed := orders.request
  have type : (t.reqs (t.reqOf header)).type = (s.reqs req).type :=
    (congrArg BxiRequest.type fixed :)
  have md : (t.reqs (t.reqOf header)).md = (s.reqs req).md :=
    (congrArg BxiRequest.md fixed :)
  have index : (t.reqs (t.reqOf header)).ptIndex = (s.reqs req).ptIndex :=
    (congrArg BxiRequest.ptIndex fixed :)
  have payload : (t.reqs (t.reqOf header)).payloadSize =
      (s.reqs req).payloadSize := (congrArg BxiRequest.payloadSize fixed :)
  have bits : (t.reqs (t.reqOf header)).matchBits = (s.reqs req).matchBits :=
    (congrArg BxiRequest.matchBits fixed :)
  have hdr : (t.reqs (t.reqOf header)).hdr = (s.reqs req).hdr :=
    (congrArg BxiRequest.hdr fixed :)
  have length : (t.reqs (t.reqOf header)).mlength = (s.reqs req).mlength := by
    rw [orders.deposit, orders.whole, payload]
  have userPtr := orders.userPtr
  have data : (s.reqs req).type ≠ .get →
      (s.reqs req).type.targetKind ≠ .get := by
    cases (s.reqs req).type <;> simp [ReqType.targetKind]
  rw [orders.kind] at report
  clear orders found reported target
  subst report report'
  refine ⟨?_, rfl, rfl, ?_, ?_⟩
  · intro same
    cases same.remoteOffset
  · simp only [overflowReport, targetReport, Option.some.injEq]
    rw [userPtr]
  · constructor
    · exact congrArg (fun md => some (sys.mdNid md, sys.mdPid md)) md
    · rfl
    · exact congrArg some index
    · rfl
    · exact congrArg some payload
    · exact congrArg some length
    · exact congrArg some bits
    · rfl
    · intro puts
      simp only [overflowReport, targetReport, type, hdr, if_neg puts,
        if_neg (data puts)]

/-- The append of an overflow entry with the user pointer 5. -/
def overflowAppend : List Label :=
  appends { start := 2000, length := 100, ignoreBits := 255 } .overflow ::
    runs 6 2

/-- The append of a priority entry with the user pointer 6. -/
def priorityAppend : List Label :=
  .call 6 (.meAppend 1 0 { start := 1000, length := 100, matchBits := 1 }
    .priority 6) :: runs 6 3

/-- A Put with the match bits 1, up to its event or its deposit. -/
def arrivingPut (count : Nat) : List Label :=
  puts .noAckReq 1 :: runs 0 3 ++ .take 1 :: runs 1 6 ++
    .recv 9 0 :: runs 9 count

/-- The `PUT` event of the Put which arrives after the priority entry. -/
def putReport : Event :=
  { type := .put
    niFailType := .ok
    initiator := some (0, 10)
    ptIndex := some 0
    userPtr := some 6
    hdrData := some 0
    rlength := some 8
    mlength := some 8
    remoteOffset := some 0
    matchBits := some 1
    start := some 1000 }

/-- The `PUT_OVERFLOW` event of the Put which arrives before it. -/
def putOverflowReport : Event :=
  { putReport with
    type := .putOverflow
    userPtr := some 5
    remoteOffset := none
    start := some 2000 }

theorem put_in_two_orders :
    ∃ s t, Reachable (twoNodes {} {}) s ∧ Reachable (twoNodes {} {}) t ∧
      (s.reqs 0).type = .put ∧
      TwoOrders s t 0 0 1 0 1 putReport putOverflowReport := by
  obtain ⟨s, t, first, second, holds⟩ := reachable_pair_of_executes
    (twoNodes {} {}) (twoNodes {} {})
    (prologue ++ overflowAppend ++ priorityAppend ++ arrivingPut 6)
    (prologue ++ overflowAppend ++ arrivingPut 5 ++ priorityAppend)
    (fun s t => decide ((s.reqs 0).type = .put ∧
      Obs.consumed 0 0 0 .priority 1 ∈ s.log ∧
      Obs.event 7 putReport (.request 0) ∈ s.log ∧
      t.reqOf 0 = 0 ∧ Obs.consumed 0 0 0 .overflow 0 ∈ t.log ∧
      Obs.event 7 putOverflowReport (.header 0 1) ∈ t.log ∧
      (t.reqs 0).fixed = (s.reqs 0).fixed ∧
      (t.mes 1).me = (s.mes 1).me ∧ (t.mes 1).userPtr = (s.mes 1).userPtr ∧
      (s.reqs 0).mlength = (s.reqs 0).payloadSize ∧
      (t.reqs 0).mlength = (t.reqs 0).payloadSize)) (by decide +kernel)
  obtain ⟨type, matched, reported, parent, deposited, found, request, options,
    userPtr, whole, deposit⟩ := of_decide_eq_true holds
  refine ⟨s, t, first, second, type, ?_⟩
  constructor
  · exact ⟨0, 0, matched⟩
  · exact ⟨7, reported⟩
  · rw [type]
    rfl
  · rw [parent]
    exact ⟨0, deposited⟩
  · exact ⟨7, found⟩
  · rw [parent]
    exact request
  · exact options
  · exact userPtr
  · exact whole
  · rw [parent]
    exact deposit

/-- The Put is reported with the user pointer and the remote offset of the
priority entry in one order only. -/
theorem put_reports_differ :
    ∃ s t, Reachable (twoNodes {} {}) s ∧ Reachable (twoNodes {} {}) t ∧
      TwoOrders s t 0 0 1 0 1 putReport putOverflowReport ∧
      ¬SameReport (s.reqs 0).type putReport putOverflowReport ∧
      putOverflowReport.userPtr ≠ putReport.userPtr := by
  obtain ⟨s, t, first, second, type, orders⟩ := put_in_two_orders
  refine ⟨s, t, first, second, orders, ?_, by decide⟩
  intro same
  cases same.remoteOffset

theorem unexpected_put_report_differs :
    ∃ s t, Reachable (twoNodes {} {}) s ∧ Reachable (twoNodes {} {}) t ∧
      ¬SameReport (s.reqs 0).type putReport putOverflowReport ∧
      SameReport (s.reqs 0).type putReport { putOverflowReport with
        userPtr := putReport.userPtr
        remoteOffset := putReport.remoteOffset } := by
  obtain ⟨s, t, first, second, type, orders⟩ := put_in_two_orders
  have differs := unexpected_report_differs first second orders
  exact ⟨s, t, first, second, differs.1, differs.2.2.2.2⟩

end S4BXI
