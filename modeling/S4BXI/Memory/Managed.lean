import S4BXI.Matching.Appends
import S4BXI.Safety.Effects

/-!
# The accesses to an entry

A handler computes the address and the length of its access from the request
and from the managed offset of the entry, and then advances that offset.  The
offset of an entry, and the accesses of the requests which were matched with
it, are therefore determined by the sizes of these requests in their order.
-/

namespace S4BXI

open Lib

/-- The request which an effect matches with an entry. -/
def Obs.matchOf (me : MeId) : Obs → Option ReqId
  | .consumed req _ _ _ other => if other = me then some req else none
  | _ => none

/-- The requests which were matched with an entry, in their order. -/
def State.matchedWith (s : State) (me : MeId) : List ReqId :=
  s.log.filterMap (Obs.matchOf me)

/-- The sizes of the requests which were matched with an entry. -/
def State.sizes (s : State) (me : MeId) : List Size :=
  (s.matchedWith me).map fun req => (s.reqs req).payloadSize

/-- `PTL_ME_MANAGE_LOCAL`. -/
def PtlMe.managesLocal (me : PtlMe) : Bool :=
  hasPtlOption me.options MeOption.manageLocal

/-- The managed offset after one more request. -/
def PtlMe.nextOffset (me : PtlMe) (offset size : Size) : Size :=
  if !me.managesLocal then
    offset
  else if add64 offset size ≤ me.length then
    add64 offset size
  else
    me.length

/-- The managed offset after requests of the given sizes. -/
def PtlMe.offsetAfter (me : PtlMe) (sizes : List Size) : Size :=
  sizes.foldl me.nextOffset 0

/-- The entry with a given managed offset. -/
def BxiME.withOffset (me : BxiME) (offset : Size) : BxiME :=
  { me with manageLocalOffset := offset }

/-- What `get_mlength` and `get_offsetted_addr` compute for a request. -/
def BxiME.access (me : BxiME) (req : BxiRequest) : Size × Addr × Size :=
  (me.getMlength req, me.getOffsettedAddr req, me.offsetInTarget req)

/-- The access stored in a request. -/
def BxiRequest.access (req : BxiRequest) : Size × Addr × Size :=
  (req.mlength, req.start, req.targetRemoteOffset)

/-- The entry which a handler leaves by the operation. -/
def Op.leaves : Op → Option MeId
  | .putFinish _ me _ | .getFinish _ me _ | .atomicEvents _ me
  | .fetchAtomicFinish _ me _ => some me
  | _ => none

/-- The entry which a handler still uses before the operation. -/
def Op.using : Op → Option MeId
  | .atomicFinish _ me _ => some me
  | op => op.leaves

/-- The handlers which use an entry. -/
def Op.uses (me : MeId) (op : Op) : Nat :=
  if op.using = some me then 1 else 0

theorem offsetAfter_concat (me : PtlMe) (sizes : List Size) (size : Size) :
    me.offsetAfter (sizes ++ [size]) =
      me.nextOffset (me.offsetAfter sizes) size := by
  simp [PtlMe.offsetAfter]

theorem advanceOffset_offset (me : BxiME) (req : BxiRequest) :
    (me.advanceOffset req).manageLocalOffset =
      me.me.nextOffset me.manageLocalOffset req.payloadSize := by
  unfold BxiME.advanceOffset PtlMe.nextOffset
  change (if !me.me.managesLocal then me else _ : BxiME).manageLocalOffset = _
  split
  · rfl
  · rfl

/-- The access depends on the description of the entry, on its offset and on
the fixed fields of the request only. -/
theorem access_congr {me left : BxiME} {req asked : BxiRequest}
    (same : left.me = me.me)
    (offset : left.manageLocalOffset = me.manageLocalOffset)
    (fixed : asked.fixed = req.fixed) : left.access asked = me.access req := by
  have payload : asked.payloadSize = req.payloadSize :=
    (congrArg BxiRequest.payloadSize fixed :)
  have remote : asked.remoteOffset = req.remoteOffset :=
    (congrArg BxiRequest.remoteOffset fixed :)
  simp only [BxiME.access, BxiME.getMlength, BxiME.getOffsettedAddr,
    BxiME.offsetInTarget, BxiME.hasOption, same, offset, payload, remote]
  rfl

/-! ## What a step does to the accesses -/

/-- No request is matched between the two states. -/
structure Untouched (s after : State) : Prop where
  offset : ∀ me < s.nextMe,
    (after.mes me).manageLocalOffset = (s.mes me).manageLocalOffset
  created : ∀ me, s.nextMe ≤ me → me < after.nextMe →
    (after.mes me).manageLocalOffset = 0
  access : ∀ req < s.nextReq,
    (after.reqs req).access = (s.reqs req).access
  log : ∃ extra, after.log = s.log ++ extra ∧
    ∀ obs ∈ extra, ∀ me, obs.matchOf me = none

/-- A request is matched with an entry. -/
structure Deposits (s : State) (msg : MsgId) (me : MeId) (after : State) :
    Prop where
  offset : ∀ other, (after.mes other).manageLocalOffset =
    if other = me then
      (s.mes me).me.nextOffset (s.mes me).manageLocalOffset
        (s.reqs (s.reqOf msg)).payloadSize
    else
      (s.mes other).manageLocalOffset
  nextMe : after.nextMe = s.nextMe
  access : (after.reqs (s.reqOf msg)).access =
    (s.mes me).access (s.reqs (s.reqOf msg))
  others : ∀ req, req ≠ s.reqOf msg →
    (after.reqs req).access = (s.reqs req).access
  log : ∃ pt list extra, after.log =
      s.log ++ .consumed (s.reqOf msg) msg pt list me :: extra ∧
    ∀ obs ∈ extra, ∀ me, obs.matchOf me = none

namespace Untouched

variable {s mid after : State}

theorem of_tables (mes : after.mes = s.mes) (nextMe : after.nextMe = s.nextMe)
    (access : ∀ req < s.nextReq,
      (after.reqs req).access = (s.reqs req).access)
    (log : ∃ extra, after.log = s.log ++ extra ∧
      ∀ obs ∈ extra, ∀ me, obs.matchOf me = none) : Untouched s after := by
  constructor
  · intro me _
    rw [mes]
  · intro me created old
    rw [nextMe] at old
    exact absurd old (Nat.not_lt.mpr created)
  · exact access
  · exact log

theorem refl (s : State) : Untouched s s :=
  of_tables rfl rfl (fun _ _ => rfl) ⟨[], by simp⟩

theorem trans (first : Untouched s mid) (second : Untouched mid after)
    (nextMe : mid.nextMe = s.nextMe) (nextReq : mid.nextReq = s.nextReq) :
    Untouched s after := by
  constructor
  · intro me old
    rw [second.offset me (nextMe ▸ old), first.offset me old]
  · intro me created old
    exact second.created me (nextMe ▸ created) old
  · intro req old
    rw [second.access req (nextReq ▸ old), first.access req old]
  · obtain ⟨extra, log, silent⟩ := first.log
    obtain ⟨more, logMore, silentMore⟩ := second.log
    refine ⟨extra ++ more, by rw [logMore, log, List.append_assoc], ?_⟩
    intro obs member
    rcases List.mem_append.mp member with early | late
    · exact silent obs early
    · exact silentMore obs late

theorem emit (s : State) {obs : Obs} (silent : ∀ me, obs.matchOf me = none) :
    Untouched s (s.emit obs) :=
  of_tables rfl rfl (fun _ _ => rfl) ⟨[obs], rfl, by simpa using silent⟩

theorem touch (s : State) {effects : List Obs} (stop : Option Halt)
    (silent : ∀ obs ∈ effects, ∀ me, obs.matchOf me = none) :
    Untouched s (s.touch effects stop) :=
  of_tables rfl rfl (fun _ _ => rfl) ⟨effects, rfl, silent⟩

theorem modReq (s : State) (req : ReqId) {f : BxiRequest → BxiRequest}
    (keeps : ∀ r, (f r).access = r.access) :
    Untouched s (s.modReq req f) := by
  refine of_tables rfl rfl (fun other _ => ?_) ⟨[], by simp [State.modReq]⟩
  simp only [State.modReq, Function.update_apply]
  split
  · rename_i equal
    rw [keeps, equal]
  · rfl

theorem newMsg (s : State) (msg : BxiMsg) : Untouched s (s.newMsg msg) := by
  refine of_tables rfl rfl (fun other _ => ?_) ⟨[], by simp [State.newMsg]⟩
  simp only [State.newMsg, Function.update_apply]
  split
  · rename_i equal
    rw [equal]
    rfl
  · rfl

theorem modMe (s : State) (me : MeId) {f : BxiME → BxiME}
    (keeps : ∀ m, (f m).manageLocalOffset = m.manageLocalOffset) :
    Untouched s (s.modMe me f) := by
  constructor
  · intro other _
    simp only [State.modMe, Function.update_apply]
    split
    · rename_i equal
      rw [keeps, equal]
    · rfl
  · intro other created old
    exact absurd old (Nat.not_lt.mpr created)
  · exact fun _ _ => rfl
  · exact ⟨[], by simp [State.modMe]⟩

theorem drops (dropped : Drops s after) : Untouched s after := by
  obtain ⟨sameReqs, sameMsgs, stops⟩ := dropped
  refine of_tables rfl rfl (fun req _ => ?_) ⟨[], by simp⟩
  obtain ⟨live, count, same⟩ := sameReqs req
  simp only [same, BxiRequest.access]

theorem unlinks {me : MeId} (unlinked : Unlinks s me after) :
    Untouched s after := by
  cases unlinked with
  | deferred used => exact modMe s me fun _ => rfl
  | removed free linked =>
      have destroyed := modMe (s.modPt (s.mes me).pt fun p =>
        p.setList (s.mes me).list ((p.listOf (s.mes me).list).erase me)) me
        (f := fun m => { m with live := false }) fun _ => rfl
      exact { destroyed with }
  | notLinked free absent => exact { refl s with }

theorem leaves {me : MeId} {before following : List Op}
    (left : Leaves s me after before following) : Untouched s after := by
  have leaving : Untouched s (s.leaveMe me) := modMe s me fun _ => rfl
  cases left with
  | kept staying => exact leaving
  | unlinked eq event leaves unlinked kind =>
      exact leaving.trans (Untouched.unlinks unlinked) rfl rfl

end Untouched

section Steps

variable {sys : Sys} {self : Actor} {s after : State}

theorem MemoryEffects.matchOf {req : ReqId} {effects : List Obs}
    (memory : MemoryEffects req effects) :
    ∀ obs ∈ effects, ∀ me, obs.matchOf me = none := by
  cases memory <;> simp [Obs.matchOf]

/-- What the deposit of a request changes. -/
theorem deposits_deposit {msg : MsgId} (old : msg < s.nextMsg) (pt : PtId)
    (list : PtlList) (me : MeId) (fail : NiFailType) (kind : ReqType)
    {effects : List Obs} (stop : Option Halt)
    (silent : ∀ obs ∈ effects, ∀ me, obs.matchOf me = none) :
    Deposits s msg me
      ((deposit s msg pt list me fail kind).touch effects stop) := by
  have same : (takeEntry (answering s msg fail kind) msg pt list me).reqOf
      msg = s.reqOf msg := by
    rw [(Extends.takeEntry (answering s msg fail kind) msg pt list
      me).reqOf (old.trans_le (Extends.answering s msg fail kind).nextMsg),
      (Extends.answering s msg fail kind).reqOf old]
  have counted : ∀ req, ∃ count, (answering s msg fail kind).reqs req =
      { s.reqs req with msgRefCount := count } := by
    intro req
    cases kind with
    | put => exact ⟨_, rfl⟩
    | atomic => exact ⟨_, rfl⟩
    | get =>
        simp only [answering, newResponse, State.newMsg, Function.update_apply]
        split
        · rename_i equal
          subst equal
          exact ⟨_, rfl⟩
        · exact ⟨_, rfl⟩
    | fetchAtomic =>
        simp only [answering, newResponse, State.newMsg, Function.update_apply]
        split
        · rename_i equal
          subst equal
          exact ⟨_, rfl⟩
        · exact ⟨_, rfl⟩
  constructor
  · intro other
    simp only [State.touch, deposit, receive, takeEntry_mes, answering_mes,
      takeEntry_reqs, same, Function.update_apply]
    obtain ⟨count, asked⟩ := counted (s.reqOf msg)
    split
    · simp only [if_true]
      rw [advanceOffset_offset, asked]
    · rfl
  · obtain ⟨-, nextMe, -⟩ := answering_tables s msg fail kind
    change (takeEntry (answering s msg fail kind) msg pt list me).nextMe = _
    rw [← nextMe]
    cases list <;> rfl
  · obtain ⟨count, asked⟩ := counted (s.reqOf msg)
    simp only [State.touch, deposit, receive, same, takeEntry_mes,
      answering_mes, takeEntry_reqs, Function.update_self]
    change ({ { s.mes me with used := true } with inUse := true } :
      BxiME).access ((answering s msg fail kind).reqs (s.reqOf msg)) = _
    apply access_congr
    · rfl
    · rfl
    · rw [asked]
      rfl
  · intro req other
    obtain ⟨count, asked⟩ := counted req
    simp only [State.touch, deposit, receive, same,
      Function.update_of_ne other, takeEntry_reqs, asked]
    rfl
  · refine ⟨pt, list, effects, ?_, silent⟩
    change (deposit s msg pt list me fail kind).log ++ effects = _
    rw [deposit_log old]
    simp

/-- The phases as the accesses see them.  A handler which matched a request uses
the entry until it leaves it. -/
inductive Accesses (sys : Sys) (self : Actor) (s : State) :
    Op → State → List Op → Prop where
  | untouched {op after new} (untouched : Untouched s after)
      (uses : ∀ me, opsWeight (Op.uses me) new +
        (if op.leaves = some me then 1 else 0) = op.uses me) :
      Accesses sys self s op after new
  | matched {msg pt list me after new}
      (fresh : ¬(s.reqs (s.reqOf msg)).processState > .created)
      (matched : Matched sys s self.nid msg pt list me)
      (deposits : Deposits s msg me after)
      (uses : ∀ other, opsWeight (Op.uses other) new =
        if me = other then 1 else 0) :
      Accesses sys self s (.handle msg) after new

/-- Apart from the handlers of requests, nothing starts to use an entry. -/
theorem Follows.using {op added : Op} (follows : Follows sys self s op added)
    (handles : ∀ msg, op ≠ .handle msg)
    (applies : ∀ msg me fail, op ≠ .atomicFinish msg me fail) :
    added.using = none := by
  cases follows with
  | unmatchedAck | respond | matchCounter | matched | releaseAnswered |
    responseRest | ackBxiAck | ptlAckTail | releaseAcked | bxiAckTail =>
      exact absurd rfl (handles _)
  | atomicSleep | atomicAcked | atomicEvents =>
      exact absurd rfl (applies _ _ _)
  | _ => rfl

theorem opsWeight_uses {ops : List Op} (idle : ∀ op ∈ ops, op.using = none)
    (me : MeId) : opsWeight (Op.uses me) ops = 0 := by
  apply opsWeight_eq_zero
  intro op member
  rw [Op.uses, idle op member]
  rfl

theorem Phase.uses {op : Op} {new : List Op}
    (phase : Phase sys self s op after new)
    (handles : ∀ msg, op ≠ .handle msg)
    (applies : ∀ msg me fail, op ≠ .atomicFinish msg me fail) (me : MeId) :
    opsWeight (Op.uses me) new + (if op.leaves = some me then 1 else 0) =
      op.uses me := by
  have idle := opsWeight_uses (fun added member =>
    (phase.follows added member).using handles applies) me
  have leaves : op.using = op.leaves := by
    cases op with
    | atomicFinish msg entry fail => exact absurd rfl (applies _ _ _)
    | _ => rfl
  rw [idle, Op.uses, leaves, Nat.zero_add]

theorem atomicFinish_uses (msg : MsgId) (entry : MeId) (fail : NiFailType)
    (me : MeId) :
    opsWeight (Op.uses me) (atomicFinish sys self s msg entry fail) =
      (Op.atomicFinish msg entry fail).uses me := by
  have sleeps := opsWeight_uses (@pciSleep_every (fun op => op.using = none)
    sys s self.nid msg rfl) me
  have due := opsWeight_uses (@sendDue_every (fun op => op.using = none) msg
    fail (ackDue sys s (s.reqOf msg) (s.mes entry)) fun _ _ => rfl) me
  unfold atomicFinish
  rw [opsWeight_append, opsWeight_append, opsWeight_cons, sleeps, due]
  simp [Op.uses, Op.using, Op.leaves]

theorem Phase.accesses {op : Op} {new : List Op}
    (phase : Phase sys self s op after new) (within : op.Within s.bounds) :
    Accesses sys self s op after new := by
  have uses := phase.uses
  have tables : ∀ {state : State}, state.mes = s.mes →
      state.nextMe = s.nextMe → state.reqs = s.reqs →
      (∃ extra, state.log = s.log ++ extra ∧
        ∀ obs ∈ extra, ∀ me, obs.matchOf me = none) → Untouched s state := by
    intro state mes nextMe reqs log
    exact .of_tables mes nextMe (fun _ _ => by rw [reqs]) log
  have silent : ∀ {msg : MsgId} {ops : List Op}, (∀ op ∈ ops, op.using = none) →
      ∀ me, opsWeight (Op.uses me) ops +
        (if (Op.handle msg).leaves = some me then 1 else 0) =
          (Op.handle msg).uses me := by
    intro msg ops idle me
    rw [opsWeight_uses idle]
    rfl
  cases phase with
  | quiet quiet =>
      apply Accesses.untouched (.refl s)
      cases quiet with
      | @atomicFinish msg me fail =>
          intro other
          rw [atomicFinish_uses]
          rfl
      | duplicate request known => exact silent (by simp)
      | unmatched type fresh absent asked =>
          exact silent (by simp [Op.using, Op.leaves])
      | unanswered type fresh absent => exact silent (by simp)
      | finished type known => exact silent (by simp)
      | _ => exact uses (by simp) (by simp)
  | @matched msg pt list me fail kind effects stop type fresh found memory
      later stops =>
      apply Accesses.matched fresh (matched_of_matchEntry found)
        (deposits_deposit within pt list me fail kind stop memory.matchOf)
      intro other
      have counter := opsWeight_uses (@meCounter_every
        (fun op => op.using = none) s (s.reqOf msg) (s.mes me)
        fun _ _ => rfl) other
      rw [opsWeight_append, counter, opsWeight_cons, opsWeight_nil,
        Nat.zero_add, Nat.add_zero]
      cases kind <;> simp [finishing, Op.uses, Op.using, Op.leaves]
  | maybeIssueSend pending =>
      exact .untouched (.modReq s _ fun _ => rfl) (uses (by simp) (by simp))
  | maybeIssueGet pending =>
      exact .untouched (.modReq s _ fun _ => rfl) (uses (by simp) (by simp))
  | maybeIssueFetchAtomic pending =>
      exact .untouched (.modReq s _ fun _ => rfl) (uses (by simp) (by simp))
  | @respondUnmatched msg fail kind type fetches fresh absent =>
      apply Accesses.untouched
      · cases kind with
        | put => simp at fetches
        | atomic => simp at fetches
        | get => exact { Untouched.newMsg s _ with }
        | fetchAtomic => exact { Untouched.newMsg s _ with }
      · exact silent (by simp [Op.using, Op.leaves])
  | handleResponse type =>
      exact .untouched (tables rfl rfl rfl ⟨_, rfl, by simp [Obs.matchOf]⟩)
        (silent (by simp [Op.using, Op.leaves, releaseAnswered]))
  | handlePtlAck type =>
      exact .untouched (tables rfl rfl rfl ⟨_, rfl, by simp [Obs.matchOf]⟩)
        (silent (by simp [Op.using, Op.leaves, releaseAnswered]))
  | @ackWithoutAnswer msg type fresh missing =>
      have acked := Untouched.modReq s (s.reqOf msg)
        (f := fun r => { r with processState := .finished }) fun _ => rfl
      exact .untouched { acked with } (silent (by simp))
  | handleBxiAck type fresh answers =>
      apply Accesses.untouched
      · refine (Untouched.modReq s _ fun _ => ?_).trans
          (.touch _ _ ?_) rfl rfl
        · rfl
        · intro obs member
          split at member
          · rw [List.mem_singleton.mp member]
            exact fun _ => rfl
          · cases member
      · exact silent (by simp [Op.using, Op.leaves])
  | quickAck quick =>
      apply Accesses.untouched
      · refine (Untouched.modReq s _ fun _ => ?_).trans (.emit _ ?_) rfl rfl
        · rfl
        · exact fun _ => rfl
      · exact uses (by simp) (by simp)
  | sendAck slow =>
      exact .untouched { Untouched.newMsg s _ with } (uses (by simp) (by simp))
  | putFinish leaves => exact .untouched (.leaves leaves) (uses (by simp) (by simp))
  | @getFinish msg me response effects stop after before following memory
      stops leaves =>
      have accessed : Untouched s ((s.modMsg response fun m => { m with
          simulatedSize := (s.reqs (s.reqOf msg)).mlength }).touch effects
          stop) := { Untouched.touch s stop memory.matchOf with }
      exact .untouched (accessed.trans (.leaves leaves) rfl rfl)
        (uses (by simp) (by simp))
  | atomicEvents leaves => exact .untouched (.leaves leaves) (uses (by simp) (by simp))
  | fetchAtomicFinish leaves =>
      exact .untouched { Untouched.leaves leaves with } (uses (by simp) (by simp))
  | deferredUnlink flagged unlinks =>
      exact .untouched (.unlinks unlinks) (uses (by simp) (by simp))
  | responseRest fresh =>
      exact .untouched (.modReq s _ fun _ => rfl) (uses (by simp) (by simp))
  | sendBxiAck on =>
      exact .untouched { Untouched.newMsg s _ with } (uses (by simp) (by simp))
  | ptlAckTail fresh =>
      exact .untouched (.modReq s _ fun _ => rfl) (uses (by simp) (by simp))
  | unref equality drops =>
      exact .untouched (.drops drops) (uses (by simp) (by simp))
  | @retransmit msg pending more =>
      apply Accesses.untouched
      · have copied := Untouched.newMsg (s.modMsg msg fun m =>
          { m with retryCount := m.retryCount + 1 })
          ((s.modMsg msg fun m =>
            { m with retryCount := m.retryCount + 1 }).msgs msg).copy
        unfold S4BXI.retransmit
        dsimp only
        split
        · exact { copied with log := ⟨_, rfl, by simp [Obs.matchOf]⟩ }
        · exact { copied with }
      · exact uses (by simp) (by simp)
  | @overflow me index position header matched found deposited =>
      have used := Untouched.modMe s me
        (f := fun m => { m with used := true }) fun _ => rfl
      exact .untouched { used with log := ⟨_, rfl, by simp [Obs.matchOf]⟩ }
        (uses (by simp) (by simp))
  | appendConsumed =>
      exact .untouched (.modMe s _ fun _ => rfl) (uses (by simp) (by simp))
  | putEvent | mdIncrementCt | meIncrementCt | releaseE2eEntry |
    creditPanic | releaseCounts | txPut | granted | acquireE2eEntry |
    commStart =>
      exact .untouched (tables rfl rfl rfl ⟨_, rfl, by simp [Obs.matchOf]⟩)
        (uses (by simp) (by simp))
  | _ =>
      exact .untouched (tables rfl rfl rfl
        ⟨[], (List.append_nil _).symm, by simp⟩) (uses (by simp) (by simp))

/-- No API call matches a request. -/
theorem CallPhase.untouched {call : Call} {new : List Op}
    (phase : CallPhase sys self s call after new) : Untouched s after := by
  have appended : ∀ {pt : PtId} {entry : PtlMe} {list : PtlList}
      {userPtr : Nat}, Untouched s (newMe s pt entry list userPtr) := by
    intro pt entry list userPtr
    constructor
    · intro me old
      simp only [newMe, Function.update_of_ne (Nat.ne_of_lt old)]
    · intro me created old
      have same : me = s.nextMe :=
        Nat.le_antisymm (Nat.le_of_lt_succ old) created
      simp only [newMe, same, Function.update_self]
    · exact fun _ _ => rfl
    · exact ⟨[], (List.append_nil _).symm, by simp⟩
  cases phase with
  | appendPriority taken => exact appended
  | @appendOverflow ni index pt entry userPtr taken =>
      exact { @appended pt entry .overflow userPtr with }
  | meUnlink free unlinks => exact .unlinks unlinks
  | ptFree taken equality frees =>
      obtain ⟨drops, sameMes⟩ := frees
      have dropped := Untouched.drops drops
      obtain ⟨sameReqs, sameMsgs, stops⟩ := drops
      refine { dropped with offset := ?_, created := ?_ }
      · intro me _
        obtain ⟨live, same⟩ := sameMes me
        simp only [same]
      · intro me created old
        exact absurd old (Nat.not_lt.mpr created)
  | request =>
      refine .of_tables rfl rfl (fun req old => ?_)
        ⟨[], (List.append_nil _).symm, by simp⟩
      have other : req ≠ s.nextReq := Nat.ne_of_lt old
      simp only [ptlRequest, State.newMsg, newRequestMsg,
        Function.update_of_ne other]
  | _ =>
      exact .of_tables rfl rfl (fun _ _ => rfl)
        ⟨[], (List.append_nil _).symm, by simp⟩

/-- A step as the accesses see it: the handler of a fresh request matches it, or
nothing is accessed. -/
theorem Advances.accesses {index : ThreadId} {label : Label}
    (advances : Advances sys s index label after) (ops : OpsAllocated s) :
    Untouched s after ∨
      ∃ (self : Actor) (msg : MsgId) (rest : List Op) (pt : PtId)
        (list : PtlList) (me : MeId),
        s.threads[index]? = some ⟨self, .handle msg :: rest⟩ ∧
          ¬(s.reqs (s.reqOf msg)).processState > .created ∧
          Matched sys s self.nid msg pt list me ∧ Deposits s msg me after := by
  cases advances with
  | dangling dead owner => exact .inl { Untouched.refl s with }
  | @run self op rest new after found alive phase =>
      cases phase.accesses (ops _ (List.mem_of_getElem? found) _ (by simp)) with
      | untouched untouched uses => exact .inl { untouched with }
      | @matched msg pt list me _ _ fresh matched deposits uses =>
          exact .inr ⟨self, msg, rest, pt, list, me, found, fresh, matched,
            { deposits with }⟩
  | @recv self position msg found target queued =>
      exact .inl { Untouched.refl s with }
  | @take self msg rest found initiator queued =>
      exact .inl { Untouched.refl s with }
  | @wake self msg rest found e2e alive queued =>
      exact .inl { Untouched.refl s with }
  | call found user owned alive phase =>
      exact .inl { phase.untouched with }

end Steps

/-! ## The accesses of a run -/

section Runs

variable {sys : Sys} {s after : State}

/-- Matches of requests and sizes when the log grows without a match. -/
theorem Untouched.matchedWith (untouched : Untouched s after) (me : MeId) :
    after.matchedWith me = s.matchedWith me := by
  obtain ⟨extra, log, silent⟩ := untouched.log
  have none' : extra.filterMap (Obs.matchOf me) = [] :=
    List.filterMap_eq_nil_iff.mpr fun obs member => silent obs member me
  unfold State.matchedWith
  rw [log, List.filterMap_append, none', List.append_nil]

theorem Deposits.matchedWith {msg : MsgId} {me : MeId}
    (deposits : Deposits s msg me after) (other : MeId) :
    after.matchedWith other =
      s.matchedWith other ++ if me = other then [s.reqOf msg] else [] := by
  obtain ⟨pt, list, extra, log, silent⟩ := deposits.log
  have none' : extra.filterMap (Obs.matchOf other) = [] :=
    List.filterMap_eq_nil_iff.mpr fun obs member => silent obs member other
  unfold State.matchedWith
  rw [log, List.filterMap_append, List.filterMap_cons, none']
  simp only [Obs.matchOf]
  split <;> rename_i equal <;> simp_all

theorem matchedWith_within (allocated : Allocated s) {me : MeId} {req : ReqId}
    (member : req ∈ s.matchedWith me) : req < s.nextReq ∧ me < s.nextMe := by
  obtain ⟨obs, logged, matched⟩ := List.mem_filterMap.mp member
  cases obs with
  | consumed other msg pt list entry =>
      have within := allocated.log _ logged
      simp only [Obs.matchOf, Option.ite_none_right_eq_some,
        Option.some.injEq] at matched
      obtain ⟨rfl, rfl⟩ := matched
      exact ⟨within.1, within.2.2.2⟩
  | _ => cases matched

theorem map_payloadSize (grows : Extends s after) {reqs : List ReqId}
    (old : ∀ req ∈ reqs, req < s.nextReq) :
    (reqs.map fun req => (after.reqs req).payloadSize) =
      reqs.map fun req => (s.reqs req).payloadSize :=
  List.map_congr_left fun req member => grows.payloadSize (old req member)

theorem Untouched.sizes (untouched : Untouched s after)
    (allocated : Allocated s) (grows : Extends s after) (me : MeId) :
    after.sizes me = s.sizes me := by
  unfold State.sizes
  rw [untouched.matchedWith]
  exact map_payloadSize grows fun req member =>
    (matchedWith_within allocated member).1

theorem Deposits.sizes {msg : MsgId} {me : MeId}
    (deposits : Deposits s msg me after) (allocated : Allocated s)
    (grows : Extends s after) (old : msg < s.nextMsg) (other : MeId) :
    after.sizes other = s.sizes other ++
      if me = other then [(s.reqs (s.reqOf msg)).payloadSize] else [] := by
  unfold State.sizes
  rw [deposits.matchedWith, List.map_append, map_payloadSize grows
    fun req member => (matchedWith_within allocated member).1]
  split
  · rw [List.map_singleton, grows.payloadSize (allocated.parents msg old)]
  · rfl

/-- A fresh request has not been matched. -/
theorem Solvent.not_matched (solvent : Solvent sys s) {req : ReqId}
    (old : req < s.nextReq)
    (fresh : ¬(s.reqs req).processState > .created) (me : MeId) :
    req ∉ s.matchedWith me := by
  intro member
  have none' : s.achieved .consumed req = 0 := by
    rcases solvent .consumed req old with enough | ⟨acked, -, -⟩
    · have nothing : (s.reqs req).allows sys.cfg.quickAcks .consumed = 0 := by
        simp [BxiRequest.allows, fresh]
      unfold State.account at enough
      omega
    · cases acked
  obtain ⟨obs, logged, matched⟩ := List.mem_filterMap.mp member
  have absent := List.countP_eq_zero.mp none' obs logged
  cases obs with
  | consumed other msg pt list entry =>
      simp only [Obs.matchOf, Option.ite_none_right_eq_some,
        Option.some.injEq] at matched
      simp [Obs.achieves, matched.2] at absent
  | _ => cases matched

/-- The offset of every entry, and the accesses of the requests which were
matched with it, are those of the sizes of these requests. -/
structure Tracked (s : State) : Prop where
  offset : ∀ me < s.nextMe, (s.mes me).manageLocalOffset =
    (s.mes me).me.offsetAfter (s.sizes me)
  access : ∀ me k req, (s.matchedWith me)[k]? = some req →
    (s.reqs req).access = ((s.mes me).withOffset
      ((s.mes me).me.offsetAfter ((s.sizes me).take k))).access (s.reqs req)

theorem Tracked.untouched (tracked : Tracked s) (wellScoped : WellScoped s)
    (grows : Extends s after) (untouched : Untouched s after) :
    Tracked after := by
  have sizes := untouched.sizes wellScoped.tables grows
  constructor
  · intro me small
    rw [sizes]
    rcases Nat.lt_or_ge me s.nextMe with old | created
    · rw [untouched.offset me old, grows.meOptions old, tracked.offset me old]
    · have nothing : s.sizes me = [] := by
        apply List.map_eq_nil_iff.mpr
        apply List.eq_nil_iff_forall_not_mem.mpr
        intro req member
        exact absurd (matchedWith_within wellScoped.tables member).2
          (Nat.not_lt.mpr created)
      rw [untouched.created me created small, nothing]
      rfl
  · intro me k req found
    rw [untouched.matchedWith] at found
    obtain ⟨oldReq, oldMe⟩ := matchedWith_within wellScoped.tables
      (List.mem_of_getElem? found)
    rw [sizes, untouched.access req oldReq, tracked.access me k req found]
    apply access_congr
    · exact (grows.meOptions oldMe).symm
    · rw [BxiME.withOffset, BxiME.withOffset, grows.meOptions oldMe]
    · exact (grows.reqs req oldReq).symm

theorem Tracked.deposits (tracked : Tracked s) (wellScoped : WellScoped s)
    (solvent : Solvent sys s) (grows : Extends s after) {msg : MsgId}
    {me : MeId} (oldMsg : msg < s.nextMsg) (linked : me < s.nextMe)
    (fresh : ¬(s.reqs (s.reqOf msg)).processState > .created)
    (deposits : Deposits s msg me after) : Tracked after := by
  have oldReq := wellScoped.tables.parents msg oldMsg
  have sizes := deposits.sizes wellScoped.tables grows oldMsg
  constructor
  · intro other small
    rw [deposits.nextMe] at small
    rw [deposits.offset, sizes, grows.meOptions small]
    by_cases same : other = me
    · subst same
      rw [if_pos rfl, if_pos rfl, offsetAfter_concat,
        ← tracked.offset other small]
    · rw [if_neg same, if_neg (Ne.symm same), List.append_nil,
        tracked.offset other small]
  · intro other k req found
    rw [deposits.matchedWith] at found
    rcases Nat.lt_or_ge k (s.matchedWith other).length with early | late
    · rw [List.getElem?_append_left early] at found
      have member := List.mem_of_getElem? found
      obtain ⟨old, oldMe⟩ := matchedWith_within wellScoped.tables member
      have different : req ≠ s.reqOf msg := by
        intro same
        rw [same] at member
        exact solvent.not_matched oldReq fresh other member
      have before : (after.sizes other).take k = (s.sizes other).take k := by
        rw [sizes, List.take_append_of_le_length]
        unfold State.sizes
        rw [List.length_map]
        exact le_of_lt early
      rw [before, deposits.others req different, tracked.access other k req
        found]
      apply access_congr
      · exact (grows.meOptions oldMe).symm
      · rw [BxiME.withOffset, BxiME.withOffset, grows.meOptions oldMe]
      · exact (grows.reqs req old).symm
    · rw [List.getElem?_append_right late] at found
      by_cases same : me = other
      · subst same
        rw [if_pos rfl] at found
        have last : k = (s.matchedWith me).length ∧ req = s.reqOf msg := by
          have within := (List.getElem?_eq_some_iff.mp found).1
          rw [List.length_singleton] at within
          have place : k - (s.matchedWith me).length = 0 := by omega
          rw [place] at found
          exact ⟨by omega, (Option.some.inj found).symm⟩
        obtain ⟨place, rfl⟩ := last
        have before : (after.sizes me).take k = s.sizes me := by
          rw [sizes, place]
          have length : (s.matchedWith me).length = (s.sizes me).length := by
            unfold State.sizes
            rw [List.length_map]
          rw [length, List.take_left]
        rw [before, deposits.access]
        apply access_congr
        · exact (grows.meOptions linked).symm
        · rw [BxiME.withOffset, grows.meOptions linked,
            tracked.offset me linked]
        · exact (grows.reqs _ oldReq).symm
      · rw [if_neg same] at found
        cases found

theorem tracked_initial (sys : Sys) : Tracked (initial sys) := by
  constructor
  · intro me small
    exact absurd small (Nat.not_lt_zero me)
  · intro me k req found
    cases found

/-- The accesses along any run. -/
theorem ReachedBy.tracked {allowed : State → Label → Prop}
    (reached : ReachedBy sys allowed s) : Tracked s := by
  apply reached.invariant_of_reached (tracked_initial sys)
  intro before after label earlier tracked _ stepped
  have wellScoped := ReachedBy.wellScoped earlier
  have advances := step_advances stepped
  have grows := advances.extends
  rcases advances.accesses wellScoped.ops with untouched |
    ⟨self, msg, rest, pt, list, me, found, fresh, matched, deposits⟩
  · exact tracked.untouched wellScoped grows untouched
  · apply tracked.deposits wellScoped (ReachedBy.solvent earlier) grows _ _
      fresh deposits
    · exact wellScoped.ops _ (List.mem_of_getElem? found) (.handle msg)
        (by simp)
    · exact (wellScoped.tables.matched matched).2

end Runs

end S4BXI
