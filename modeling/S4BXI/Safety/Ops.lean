import S4BXI.Nic.Phases

/-!
# The operations which the functions add

Every function which issues an event, updates a counter or may send an
acknowledgement adds at most one operation for it.
-/

namespace S4BXI

theorem issueEvent_cases (eq : Option EqId) (event : Event)
    (origin : Origin) :
    issueEvent eq event origin = [] ∨
      ∃ queue, issueEvent eq event origin =
        [.putEvent queue event origin] := by
  cases eq with
  | none => exact .inl rfl
  | some queue => exact .inr ⟨queue, rfl⟩

theorem mdCounter_cases (s : State) (req : ReqId) (md : BxiMD)
    (flag : Options) :
    mdCounter s req md flag = [] ∨
      ∃ ct amount, mdCounter s req md flag =
        [.mdIncrementCt req ct amount] := by
  unfold mdCounter
  split
  · exact .inl rfl
  · exact .inr ⟨_, _, rfl⟩

theorem meCounter_cases (s : State) (req : ReqId) (me : BxiME) :
    meCounter s req me = [] ∨
      ∃ ct amount, meCounter s req me = [.meIncrementCt req ct amount] := by
  unfold meCounter
  split
  · exact .inl rfl
  · exact .inr ⟨_, _, rfl⟩

theorem sendEvent_cases (s : State) (req : ReqId) :
    sendEvent s req = [] ∨
      ∃ queue event, event.type = .send ∧
        sendEvent s req = [.putEvent queue event (.request req)] := by
  unfold sendEvent
  dsimp only
  split
  · rcases issueEvent_cases (s.reqs req).md.eqHandle _ (.request req) with
      none | ⟨queue, some⟩
    · exact .inl none
    · exact .inr ⟨queue, _, rfl, some⟩
  · exact .inl rfl

theorem ackEvent_cases (s : State) (req : ReqId) (fail : NiFailType) :
    ackEvent s req fail = [] ∨
      ∃ queue event, event.type = .ack ∧
        ackEvent s req fail = [.putEvent queue event (.request req)] := by
  unfold ackEvent
  dsimp only
  split
  · rcases issueEvent_cases (s.reqs req).md.eqHandle _ (.request req) with
      none | ⟨queue, some⟩
    · exact .inl none
    · exact .inr ⟨queue, _, rfl, some⟩
  · exact .inl rfl

theorem replyEvent_cases (s : State) (msg : MsgId) :
    replyEvent s msg = [] ∨
      ∃ queue event, event.type = .reply ∧
        replyEvent s msg =
          [.putEvent queue event (.request (s.reqOf msg))] := by
  unfold replyEvent
  dsimp only
  rcases issueEvent_cases (s.reqs (s.reqOf msg)).replyMd.eqHandle _
      (.request (s.reqOf msg)) with none | ⟨queue, some⟩
  · exact .inl none
  · exact .inr ⟨queue, _, rfl, some⟩

theorem issueFetchEvent_cases (sys : Sys) (s : State) (req : ReqId)
    (kind : EventKind) (hdr : Option Nat) :
    issueFetchEvent sys s req kind hdr = [] ∨
      ∃ queue event, event.type = kind ∧
        issueFetchEvent sys s req kind hdr =
          [.putEvent queue event (.request req)] := by
  unfold issueFetchEvent
  split
  · exact .inl rfl
  · rename_i matched deposited
    split
    · rcases issueEvent_cases (s.pts matched.pt).eq
          (fetchEvent sys s kind hdr (s.reqs req) matched) (.request req) with
        none | ⟨queue, some⟩
      · exact .inl none
      · exact .inr ⟨queue, _, rfl, some⟩
    · exact .inl rfl

theorem issuePutLike_cases (sys : Sys) (s : State) (kind : EventKind)
    (me : BxiME) (req : ReqId) :
    issuePutLike sys s kind me req = [] ∨
      ∃ queue event, event.type = kind ∧
        issuePutLike sys s kind me req =
          [.putEvent queue event (.request req)] := by
  unfold issuePutLike
  split
  · rcases issueEvent_cases (s.pts me.pt).eq
        (putLikeEvent sys s kind me (s.reqs req)) (.request req) with
      none | ⟨queue, some⟩
    · exact .inl none
    · exact .inr ⟨queue, _, rfl, some⟩
  · exact .inl rfl

theorem issueLink_cases (s : State) (me : MeId) :
    issueLink s me = [] ∨
      ∃ queue event, event.type = .link ∧
        issueLink s me = [.putEvent queue event (.entry me)] := by
  unfold issueLink
  dsimp only
  split
  · rcases issueEvent_cases (s.pts (s.mes me).pt).eq
        (linkEvent s (s.mes me)) (.entry me) with none | ⟨queue, some⟩
    · exact .inl none
    · exact .inr ⟨queue, _, rfl, some⟩
  · exact .inl rfl

theorem pciSleep_cases (sys : Sys) (s : State) (nid : Nid) (msg : MsgId) :
    pciSleep sys s nid msg = [] ∨ pciSleep sys s nid msg = [.resched] := by
  unfold pciSleep
  split
  · exact .inr rfl
  · exact .inl rfl

theorem sendDue_cases (msg : MsgId) (fail : NiFailType)
    (ack : Option MsgType) :
    sendDue msg fail ack = [] ∨
      ∃ type, ack = some type ∧
        sendDue msg fail ack = [.sendAck msg type fail] := by
  cases ack with
  | none => exact .inl rfl
  | some type => exact .inr ⟨type, rfl, rfl⟩

theorem bxiAckTail_cases (s : State) (msg : MsgId) :
    bxiAckTail s msg = [] ∨
      bxiAckTail s msg = [.maybeIssueSend (s.reqOf msg)] ∨
      (s.reqs (s.reqOf msg)).type = .get ∧
        bxiAckTail s msg = [.maybeIssueGet (s.reqOf msg)] ∨
      (s.reqs (s.reqOf msg)).type = .fetchAtomic ∧
        bxiAckTail s msg = [.maybeIssueFetchAtomic (s.reqOf msg)] := by
  unfold bxiAckTail
  cases type : (s.reqs (s.reqOf msg)).type with
  | put => by_cases silent : (s.reqs (s.reqOf msg)).ackReq = .noAckReq <;>
      simp [type, silent]
  | atomic => by_cases silent : (s.reqs (s.reqOf msg)).ackReq = .noAckReq <;>
      simp [type, silent]
  | get => simp [type]
  | fetchAtomic => simp [type]

theorem handlePutEnd_cases (s : State) (msg : MsgId) :
    handlePutEnd s msg = [] ∨
      handlePutEnd s msg = [.maybeIssueSend (s.reqOf msg)] := by
  unfold handlePutEnd
  split
  · exact .inr rfl
  · exact .inl rfl

theorem handleResponseEnd_cases (sys : Sys) (self : Actor) (s : State)
    (msg : MsgId) :
    handleResponseEnd sys self s msg = [] ∨
      (s.msgs msg).type = .ptlGetResponse ∧
        handleResponseEnd sys self s msg =
          [.maybeIssueGet (s.reqOf msg)] ∨
      (s.msgs msg).type ≠ .ptlGetResponse ∧
        handleResponseEnd sys self s msg =
          [.maybeIssueFetchAtomic (s.reqOf msg)] := by
  unfold handleResponseEnd
  split
  · split
    · rename_i type
      exact .inr (.inl ⟨type, rfl⟩)
    · rename_i type
      exact .inr (.inr ⟨type, rfl⟩)
  · exact .inl rfl

theorem ackDue_cases {sys : Sys} {s : State} {req : ReqId} {me : BxiME}
    {type : MsgType} (due : ackDue sys s req me = some type) :
    type = .ptlAck ∨ type = .e2eAck := by
  unfold ackDue at due
  dsimp only at due
  split at due
  · exact .inl (Option.some.inj due).symm
  · split at due
    · exact .inr (Option.some.inj due).symm
    · cases due

theorem commInit_cases (sys : Sys) (self : Actor) (s : State) (msg : MsgId) :
    ((sys.node self.nid).e2eOff = false ∧ (s.msgs msg).type ≠ .e2eAck ∧
        ((s.msgs msg).retryCount = 0 ∧ commInit sys self s msg =
            [.acquireE2eEntry msg, .e2eEnqueue msg, .commStart msg] ∨
          (s.msgs msg).retryCount ≠ 0 ∧ commInit sys self s msg =
            [.e2eEnqueue msg, .commStart msg])) ∨
      ((sys.node self.nid).e2eOff = true ∨ (s.msgs msg).type = .e2eAck) ∧
        commInit sys self s msg = [.commStart msg] := by
  unfold commInit
  cases off : (sys.node self.nid).e2eOff with
  | true => simp
  | false =>
      by_cases type : (s.msgs msg).type = .e2eAck
      · simp [type]
      · by_cases first : (s.msgs msg).retryCount = 0 <;> simp [type, first]

theorem transmit_cases (s : State) (msg : MsgId) :
    (s.msgs msg).type.isRequest = true ∧
        transmit s msg = [.commInit msg, .handlePutEnd msg] ∨
      transmit s msg = [.commInit msg] ∨
      ((s.msgs msg).type = .ptlGetResponse ∨
          (s.msgs msg).type = .ptlFetchAtomicResponse) ∧
        transmit s msg = [.commInit msg, .handleResponseEnd msg] := by
  unfold transmit
  cases type : (s.msgs msg).type <;> simp [MsgType.isRequest]

/-! ## Properties of all the operations added -/

section Every

variable {P : Op → Prop}

theorem issueEvent_every {eq : Option EqId} {event : Event} {origin : Origin}
    (every : ∀ queue, P (.putEvent queue event origin)) :
    ∀ op ∈ issueEvent eq event origin, P op := by
  rcases issueEvent_cases eq event origin with ops | ⟨queue, ops⟩
  · simp [ops]
  · simpa [ops] using every queue

theorem mdCounter_every {s : State} {req : ReqId} {md : BxiMD}
    {flag : Options}
    (every : ∀ ct amount, P (.mdIncrementCt req ct amount)) :
    ∀ op ∈ mdCounter s req md flag, P op := by
  rcases mdCounter_cases s req md flag with ops | ⟨ct, amount, ops⟩
  · simp [ops]
  · simpa [ops] using every ct amount

theorem meCounter_every {s : State} {req : ReqId} {me : BxiME}
    (every : ∀ ct amount, P (.meIncrementCt req ct amount)) :
    ∀ op ∈ meCounter s req me, P op := by
  rcases meCounter_cases s req me with ops | ⟨ct, amount, ops⟩
  · simp [ops]
  · simpa [ops] using every ct amount

theorem pciSleep_every {sys : Sys} {s : State} {nid : Nid} {msg : MsgId}
    (every : P .resched) : ∀ op ∈ pciSleep sys s nid msg, P op := by
  rcases pciSleep_cases sys s nid msg with ops | ops
  · simp [ops]
  · simpa [ops] using every

theorem issueAck_every {s : State} {req : ReqId} {fail : NiFailType}
    (counter : ∀ ct amount, P (.mdIncrementCt req ct amount))
    (event : P (.ackEvent req fail)) :
    ∀ op ∈ issueAck s req fail, P op := by
  simp only [issueAck, List.mem_append, List.mem_singleton]
  rintro op (counts | rfl)
  · exact mdCounter_every counter op counts
  · exact event

theorem issuePutLike_every {sys : Sys} {s : State} {kind : EventKind}
    {me : BxiME} {req : ReqId}
    (every : ∀ queue event, event.type = kind →
      P (.putEvent queue event (.request req))) :
    ∀ op ∈ issuePutLike sys s kind me req, P op := by
  rcases issuePutLike_cases sys s kind me req with
    ops | ⟨queue, event, type, ops⟩
  · simp [ops]
  · simpa [ops] using every queue event type

theorem issueFetchEvent_every {sys : Sys} {s : State} {req : ReqId}
    {kind : EventKind} {hdr : Option Nat}
    (every : ∀ queue event, event.type = kind →
      P (.putEvent queue event (.request req))) :
    ∀ op ∈ issueFetchEvent sys s req kind hdr, P op := by
  rcases issueFetchEvent_cases sys s req kind hdr with
    ops | ⟨queue, event, type, ops⟩
  · simp [ops]
  · simpa [ops] using every queue event type

theorem issueLink_every {s : State} {me : MeId}
    (every : ∀ queue event, event.type = .link →
      P (.putEvent queue event (.entry me))) :
    ∀ op ∈ issueLink s me, P op := by
  rcases issueLink_cases s me with ops | ⟨queue, event, type, ops⟩
  · simp [ops]
  · simpa [ops] using every queue event type

theorem sendDue_every {msg : MsgId} {fail : NiFailType}
    {ack : Option MsgType}
    (every : ∀ type, ack = some type → P (.sendAck msg type fail)) :
    ∀ op ∈ sendDue msg fail ack, P op := by
  rcases sendDue_cases msg fail ack with ops | ⟨type, due, ops⟩
  · simp [ops]
  · simpa [ops] using every type due

theorem transmit_every {s : State} {msg : MsgId} (first : P (.commInit msg))
    (put : (s.msgs msg).type.isRequest = true → P (.handlePutEnd msg))
    (response : (s.msgs msg).type = .ptlGetResponse ∨
      (s.msgs msg).type = .ptlFetchAtomicResponse →
      P (.handleResponseEnd msg)) :
    ∀ op ∈ transmit s msg, P op := by
  rcases transmit_cases s msg with ⟨type, ops⟩ | ops | ⟨type, ops⟩
  · simpa [ops] using ⟨first, put type⟩
  · simpa [ops] using first
  · simpa [ops] using ⟨first, response type⟩

theorem Leaves.every {s after : State} {me : MeId}
    {before following : List Op}
    (leaves : Leaves s me after before following)
    (event : ∀ queue event, event.type = .autoUnlink →
      P (.putEvent queue event (.entry me)))
    (unlink : P (.deferredUnlink me)) :
    (∀ op ∈ before, P op) ∧ ∀ op ∈ following, P op := by
  cases leaves with
  | kept staying => simpa using unlink
  | unlinked eq reported leaving unlinks kind =>
      exact ⟨issueEvent_every fun queue => event queue reported kind, by simp⟩

end Every

end S4BXI
