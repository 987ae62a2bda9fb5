import S4BXI.Acks.Reports

/-!
# Local completion

The `SEND` of a Put or of an Atomic is issued by the NIC initiator for a
buffered payload, and otherwise by whichever acknowledgement comes back.  What
is promised to a request passes from one operation to the next and through the
acknowledgement which is on its way.
-/

namespace S4BXI

open Lib

section Steps

variable {sys : Sys} {self : Actor} {s after : State}

/-! ## Requests whose `SEND` is certain -/

/-- Whether an operation issues the `SEND` of a request if nobody did. -/
def Op.settles (s : State) (req : ReqId) : Op → Prop
  | .maybeIssueSend other => other = req
  | .handlePutEnd msg =>
      s.reqOf msg = req ∧ (s.reqs req).payloadSize ≤ 64
  | .bxiAckTail msg => s.reqOf msg = req ∧ (s.reqs req).ackReq = .noAckReq
  | _ => False

/-- The `SEND` of a request was issued, or is about to be. -/
def Settling (s : State) (req : ReqId) : Prop :=
  (s.reqs req).sendEventIssued = true ∨
    SomePending (Op.settles s req) s.threads

theorem Op.settles.mono {op : Op} {req : ReqId} (settles : op.settles s req)
    (grows : Extends s after) (within : op.Within s.bounds)
    (old : req < s.nextReq) : op.settles after req := by
  cases op with
  | handlePutEnd msg =>
      exact ⟨(grows.reqOf within).trans settles.1,
        (grows.payloadSize old).trans_le settles.2⟩
  | bxiAckTail msg =>
      exact ⟨(grows.reqOf within).trans settles.1,
        (grows.ackReq old).trans settles.2⟩
  | maybeIssueSend other => exact settles
  | _ => exact settles.elim

theorem maybeIssueSend_issued {req : ReqId} {new : List Op}
    (phase : Phase sys self s (.maybeIssueSend req) after new) :
    (after.reqs req).sendEventIssued = true := by
  cases phase with
  | quiet quiet =>
      cases quiet with
      | sendIssued issued => exact issued
  | maybeIssueSend pending => simp [State.modReq]

/-- The operations which are certain to issue the `SEND` pass it on until it is
issued. -/
theorem Settling.run {req : ReqId} (settling : Settling s req)
    (wellScoped : WellScoped s) (shaped : Shaped sys s) (sized : Sized s)
    (old : req < s.nextReq) (putLike : (s.reqs req).type.putLike = true)
    {index : ThreadId} {op : Op} {rest new : List Op}
    (found : s.threads[index]? = some ⟨self, op :: rest⟩)
    (phase : Phase sys self s op after new) :
    Settling { after with
      threads := s.threads.set index ⟨self, new ++ rest⟩ } req := by
  have member := List.mem_of_getElem? found
  have within := wellScoped.ops _ member op List.mem_cons_self
  have opShaped := shaped.ops _ member op List.mem_cons_self
  have grows := phase.extends
  have issues : .maybeIssueSend req ∈ new → Settling { after with
      threads := s.threads.set index ⟨self, new ++ rest⟩ } req := fun added =>
    .inr (SomePending.added found (List.mem_append_left _ added) rfl)
  rcases settling with issued | pends
  · exact .inl ((phase.progress within req).send issued)
  have kept : ∀ thread ∈ s.threads, ∀ other ∈ thread.ops,
      other.settles s req → other.settles { after with
        threads := s.threads.set index ⟨self, new ++ rest⟩ } req := by
    intro thread threadMember other pendingOp settles
    exact settles.mono { grows with }
      (wellScoped.ops thread threadMember other pendingOp) old
  rcases pends.run found new kept with settles | later
  · cases op with
    | maybeIssueSend other =>
        cases settles
        have issued := maybeIssueSend_issued phase
        exact .inl issued
    | handlePutEnd msg =>
        obtain ⟨rfl, small⟩ := settles
        apply issues
        cases phase with
        | quiet quiet =>
            cases quiet with
            | handlePutEnd =>
                have type : (s.msgs msg).type.putLike = true :=
                  ((shaped.msgs msg within).putLike opShaped).trans putLike
                have size := sized msg within type
                unfold handlePutEnd
                rw [if_pos (size.trans_le small)]
                exact List.mem_singleton_self _
    | bxiAckTail msg =>
        obtain ⟨rfl, silent⟩ := settles
        apply issues
        cases phase with
        | quiet quiet =>
            cases quiet with
            | bxiAckTail =>
                unfold bxiAckTail
                dsimp only
                cases kind : (s.reqs (s.reqOf msg)).type with
                | put => simp [silent]
                | atomic => simp [silent]
                | get => simp [kind, ReqType.putLike] at putLike
                | fetchAtomic => simp [kind, ReqType.putLike] at putLike
    | _ => exact settles.elim
  · exact .inr later

theorem Settling.start {req : ReqId} (settling : Settling s req)
    (wellScoped : WellScoped s) (old : req < s.nextReq) {index : ThreadId}
    {new : List Op} (found : s.threads[index]? = some ⟨self, []⟩)
    (begins : Begins s after new) :
    Settling { after with
      threads := s.threads.set index ⟨self, new⟩ } req := by
  rcases settling with issued | pends
  · exact .inl ((begins.issued req old).trans issued)
  · have kept : SomePending (Op.settles { after with
        threads := s.threads.set index ⟨self, new⟩ } req) s.threads := by
      obtain ⟨thread, member, op, pendingOp, settles⟩ := pends
      exact ⟨thread, member, op, pendingOp, settles.mono
        { begins.grows with } (wellScoped.ops thread member op pendingOp) old⟩
    exact .inr (kept.start found new)

/-! ## Acknowledged requests -/

/-- The request was answered, or finished without a Portals ACK. -/
def BxiRequest.acknowledged (req : BxiRequest) : Prop :=
  req.processState = .answered ∨
    req.processState = .finished ∧ req.ackReq = .noAckReq

/-- The `SEND` of an acknowledged Put or Atomic is certain. -/
def Acknowledging (s : State) : Prop :=
  ∀ req < s.nextReq, (s.reqs req).type.putLike = true →
    (s.reqs req).acknowledged → Settling s req

theorem Acknowledging.run (acknowledging : Acknowledging s)
    (wellScoped : WellScoped s) (shaped : Shaped sys s) (sized : Sized s)
    {index : ThreadId} {op : Op} {rest new : List Op}
    (found : s.threads[index]? = some ⟨self, op :: rest⟩)
    (phase : Phase sys self s op after new) (running : after.halted = none) :
    Acknowledging { after with
      threads := s.threads.set index ⟨self, new ++ rest⟩ } := by
  have member := List.mem_of_getElem? found
  have within := wellScoped.ops _ member op List.mem_cons_self
  have opShaped := shaped.ops _ member op List.mem_cons_self
  have grows := phase.extends
  intro req small putLike acknowledged
  have old : req < s.nextReq := phase.nextReq ▸ small
  have kind : (s.reqs req).type.putLike = true := by
    rw [← grows.reqType old]
    exact putLike
  have silent : (after.reqs req).ackReq = (s.reqs req).ackReq :=
    grows.ackReq old
  have issues : .maybeIssueSend req ∈ new → Settling { after with
      threads := s.threads.set index ⟨self, new ++ rest⟩ } req := fun added =>
    .inr (SomePending.added found (List.mem_append_left _ added) rfl)
  rcases phase.turns within running req with same | turns
  · refine (acknowledging req old kind ?_).run wellScoped shaped sized old kind
      found phase
    unfold BxiRequest.acknowledged at acknowledged ⊢
    rw [← same, ← silent]
    exact acknowledged
  · generalize state : (after.reqs req).processState = next at turns
    cases turns with
    | received request =>
        rcases acknowledged with answered | ⟨finished, _⟩
        · exact absurd (state.symm.trans answered) (by decide)
        · exact absurd (state.symm.trans finished) (by decide)
    | @acked msg new type tail =>
        rcases acknowledged with answered | ⟨_, asked⟩
        · exact absurd (state.symm.trans answered) (by decide)
        · refine .inr (SomePending.added found (List.mem_append_left _ tail)
            ⟨?_, asked⟩)
          exact grows.reqOf within
    | quick tail => exact issues tail
    | @responded msg =>
        have parent := (shaped.msgs msg within).of_isResponse opShaped.2
        exfalso
        have responds : (s.reqs (s.reqOf msg)).type.responseType =
          some (s.msgs msg).type := parent.1
        revert kind responds
        cases (s.reqs (s.reqOf msg)).type <;>
          simp [ReqType.putLike, ReqType.responseType]
    | answered tail => exact issues tail

theorem Acknowledging.start (acknowledging : Acknowledging s)
    (wellScoped : WellScoped s) {index : ThreadId} {new : List Op}
    (found : s.threads[index]? = some ⟨self, []⟩)
    (begins : Begins s after new) :
    Acknowledging { after with
      threads := s.threads.set index ⟨self, new⟩ } := by
  intro req small putLike acknowledged
  by_cases old : req < s.nextReq
  · refine (acknowledging req old ?_ ?_).start wellScoped old found begins
    · rw [← begins.grows.reqType old]
      exact putLike
    · unfold BxiRequest.acknowledged at acknowledged ⊢
      rw [← begins.processState req old, ← begins.grows.ackReq old]
      exact acknowledged
  · have created := (begins.created req small (not_lt.mp old)).1
    rcases acknowledged with answered | ⟨finished, _⟩
    · exact absurd (created.symm.trans answered) (by decide)
    · exact absurd (created.symm.trans finished) (by decide)

theorem ReachedBy.acknowledging {allowed : State → Label → Prop}
    (reached : ReachedBy sys allowed s) (running : s.halted = none) :
    Acknowledging s := by
  refine ReachedBy.always reached running ?_ ?_ ?_
  · intro req small
    cases small
  · intro s mid label index self new earlier _ acknowledging _ found begins
      _ _ _
    exact acknowledging.start (ReachedBy.wellScoped earlier) found begins
  · intro s after index self op rest new earlier before acknowledging _ found
      phase running
    exact acknowledging.run (ReachedBy.wellScoped earlier)
      (ReachedBy.shaped earlier) (ReachedBy.sized earlier before) found phase
      running

/-! ## Buffered payloads -/

/-- An actor which transmits a Put or an Atomic ends with `handle_put`. -/
def Concludes (s : State) : List Op → Prop
  | [] => True
  | op :: rest =>
      (∀ msg, op = .commInit msg ∨ op = .commStart msg →
        (s.msgs msg).type.putLike = true → .handlePutEnd msg ∈ rest) ∧
      Concludes s rest

theorem Concludes.of_idle {new rest : List Op} (concludes : Concludes s rest)
    (idle : ∀ op ∈ new, ∀ msg, op ≠ .commInit msg ∧ op ≠ .commStart msg) :
    Concludes s (new ++ rest) := by
  induction new with
  | nil => exact concludes
  | cons op new induction =>
      refine ⟨?_, induction fun other member =>
        idle other (List.mem_cons_of_mem _ member)⟩
      rintro msg (first | second)
      · exact absurd first (idle op List.mem_cons_self msg).1
      · exact absurd second (idle op List.mem_cons_self msg).2

theorem Concludes.mono {ops : List Op} (concludes : Concludes s ops)
    (grows : Extends s after) (within : ∀ op ∈ ops, op.Within s.bounds) :
    Concludes after ops := by
  induction ops with
  | nil => trivial
  | cons op ops induction =>
      refine ⟨?_, induction concludes.2 fun other member =>
        within other (List.mem_cons_of_mem _ member)⟩
      intro msg starts putLike
      have old : msg < s.nextMsg := by
        have first := within op List.mem_cons_self
        rcases starts with rfl | rfl <;> exact first
      rw [grows.type old] at putLike
      exact concludes.1 msg starts putLike

theorem Concludes.mem {op : Op} {ops : List Op} {msg : MsgId}
    (concludes : Concludes s (op :: ops))
    (starts : op = .commInit msg ∨ op = .commStart msg)
    (putLike : (s.msgs msg).type.putLike = true) :
    .handlePutEnd msg ∈ ops :=
  concludes.1 msg starts putLike

theorem Follows.transmits {op added : Op}
    (follows : Follows sys self s op added) {msg : MsgId}
    (starts : added = .commInit msg ∨ added = .commStart msg) :
    op = .processTx msg ∨ op = .commInit msg := by
  cases follows with
  | commInit =>
      rcases starts with equal | equal <;> cases equal
      exact .inl rfl
  | commStart =>
      rcases starts with equal | equal <;> cases equal
      exact .inr rfl
  | @matched other pt list me fail kind type found =>
      cases kind <;> rcases starts with equal | equal <;> cases equal
  | _ => rcases starts with equal | equal <;> cases equal

theorem Concludes.run {op : Op} {rest new : List Op}
    (concludes : Concludes s (op :: rest))
    (within : ∀ other ∈ op :: rest, other.Within s.bounds)
    (phase : Phase sys self s op after new) : Concludes after (new ++ rest) := by
  have grows := phase.extends
  have kept : Concludes after rest := concludes.2.mono grows fun other member =>
    within other (List.mem_cons_of_mem _ member)
  have first := within op List.mem_cons_self
  have sends : ∀ msg, msg < s.nextMsg →
      Concludes after (transmit s msg ++ rest) := by
    intro msg old
    have type := grows.type old
    unfold transmit
    cases kind : (s.msgs msg).type with
    | ptlPut | ptlAtomic | ptlFetchAtomic =>
        refine ⟨?_, by simp, kept⟩
        intro other starts _
        rcases starts with equal | equal <;> cases equal
        exact List.mem_cons_self
    | ptlGet | ptlAck | e2eAck =>
        refine ⟨?_, kept⟩
        intro other starts putLike
        rcases starts with equal | equal <;> cases equal
        rw [type, kind] at putLike
        cases putLike
    | ptlGetResponse | ptlFetchAtomicResponse =>
        refine ⟨?_, by simp, kept⟩
        intro other starts putLike
        rcases starts with equal | equal <;> cases equal
        rw [type, kind] at putLike
        cases putLike
  cases op with
  | processTx msg =>
      cases phase with
      | quiet quiet => cases quiet
      | exempt free => exact sends msg first
      | granted subject checked => exact sends msg first
      | refused subject checked => exact kept
      | creditsPanic subject checked => exact kept
  | commInit msg =>
      cases phase with
      | quiet quiet =>
          cases quiet with
          | commInit =>
              have starts : Concludes s (.commStart msg :: rest) := by
                refine ⟨?_, kept⟩
                intro other equal putLike
                rcases equal with equal | equal <;> cases equal
                exact concludes.mem (.inl rfl) putLike
              rcases commInit_cases sys self s msg with
                ⟨_, _, ⟨_, ops⟩ | ⟨_, ops⟩⟩ | ⟨_, ops⟩
              · rw [ops]
                exact ⟨by simp, by simp, starts⟩
              · rw [ops]
                exact ⟨by simp, starts⟩
              · rw [ops]
                exact starts
  | _ =>
      refine kept.of_idle fun added member msg => ?_
      have follows := phase.follows added member
      constructor
      · intro equal
        rcases follows.transmits (.inl equal) with absurd | absurd <;>
          cases absurd
      · intro equal
        rcases follows.transmits (.inr equal) with absurd | absurd <;>
          cases absurd

theorem Concludes.of_threads {ops : List Op} (concludes : Concludes s ops)
    (threads : List (Thread Actor Op)) :
    Concludes { s with threads := threads } ops := by
  induction ops with
  | nil => trivial
  | cons op ops induction => exact ⟨concludes.1, induction concludes.2⟩

/-- Every actor concludes what it transmits. -/
theorem ReachedBy.concludes {allowed : State → Label → Prop}
    (reached : ReachedBy sys allowed s) (running : s.halted = none) :
    ∀ thread ∈ s.threads, Concludes s thread.ops := by
  let Along (state : State) : Prop :=
    ∀ thread ∈ state.threads, Concludes state thread.ops
  suffices along : Along s from along
  refine ReachedBy.always reached running ?_ ?_ ?_
  · intro thread member
    obtain ⟨actor, _, rfl⟩ := List.mem_map.mp member
    trivial
  · intro s mid label index self new earlier _ concludes _ found begins _ _ _
      thread member
    have wellScoped := ReachedBy.wellScoped earlier
    rcases List.mem_or_eq_of_mem_set member with old | rfl
    · exact ((concludes thread old).mono begins.grows
        (wellScoped.ops thread old)).of_threads _
    · have empty : Concludes mid [] := trivial
      have added := empty.of_idle fun op opened msg => by
        have opens := begins.opens op opened
        constructor <;> rintro rfl <;> cases opens
      rw [List.append_nil] at added
      exact added.of_threads _
  · intro s after index self op rest new earlier _ concludes _ found phase _
      thread member
    have wellScoped := ReachedBy.wellScoped earlier
    rcases List.mem_or_eq_of_mem_set member with old | rfl
    · exact ((concludes thread old).mono phase.extends
        (wellScoped.ops thread old)).of_threads _
    · have mine := List.mem_of_getElem? found
      exact ((concludes _ mine).run (wellScoped.ops _ mine) phase).of_threads _

/-- The `SEND` of a buffered Put or Atomic is certain once it was sent. -/
def Buffering (s : State) : Prop :=
  ∀ msg < s.nextMsg, (s.msgs msg).type.putLike = true →
    (s.reqs (s.reqOf msg)).payloadSize ≤ 64 → 0 < s.deliveries msg →
    Settling s (s.reqOf msg)

theorem Buffering.run (buffering : Buffering s) (wellScoped : WellScoped s)
    (shaped : Shaped sys s) (sized : Sized s) {index : ThreadId} {op : Op}
    {rest new : List Op} (concludes : Concludes s (op :: rest))
    (found : s.threads[index]? = some ⟨self, op :: rest⟩)
    (phase : Phase sys self s op after new) :
    Buffering { after with
      threads := s.threads.set index ⟨self, new ++ rest⟩ } := by
  have member := List.mem_of_getElem? found
  have within := wellScoped.ops _ member op List.mem_cons_self
  have grows := phase.extends
  intro msg small putLike payload sent
  have old : msg < s.nextMsg := by
    rcases phase.sends within sent with before | rfl
    · exact wellScoped.delivered before
    · exact within
  have parent := wellScoped.tables.parents msg old
  have same : after.reqOf msg = s.reqOf msg := grows.reqOf old
  have type : (s.msgs msg).type.putLike = true := by
    rw [← grows.type old]
    exact putLike
  have request : (s.msgs msg).type.isRequest = true := by
    revert type
    cases (s.msgs msg).type <;> decide
  have size : (s.reqs (s.reqOf msg)).payloadSize ≤ 64 := by
    rw [← grows.payloadSize parent, ← same]
    exact payload
  change Settling _ (after.reqOf msg)
  rw [same]
  rcases phase.sends within sent with before | rfl
  · have kind := ((shaped.msgs msg old).putLike request).symm.trans type
    exact (buffering msg old type size before).run wellScoped shaped sized
      parent kind found phase
  · have concluded := concludes.mem (.inr rfl) type
    refine .inr (SomePending.added found (List.mem_append_right _ concluded)
      ⟨same, ?_⟩)
    exact (grows.payloadSize parent).trans_le size

theorem Buffering.start (buffering : Buffering s) (wellScoped : WellScoped s)
    {index : ThreadId} {new : List Op}
    (found : s.threads[index]? = some ⟨self, []⟩)
    (begins : Begins s after new) :
    Buffering { after with
      threads := s.threads.set index ⟨self, new⟩ } := by
  have grows := begins.grows
  intro msg small putLike payload sent
  have before : 0 < s.deliveries msg := by
    unfold State.deliveries at sent ⊢
    rw [← begins.log]
    exact sent
  have old := wellScoped.delivered before
  have parent := wellScoped.tables.parents msg old
  have same : after.reqOf msg = s.reqOf msg := grows.reqOf old
  change Settling _ (after.reqOf msg)
  rw [same]
  refine (buffering msg old ?_ ?_ before).start wellScoped parent found begins
  · rw [← grows.type old]
    exact putLike
  · rw [← grows.payloadSize parent, ← same]
    exact payload

theorem ReachedBy.buffering {allowed : State → Label → Prop}
    (reached : ReachedBy sys allowed s) (running : s.halted = none) :
    Buffering s := by
  refine ReachedBy.always reached running ?_ ?_ ?_
  · intro msg small
    cases small
  · intro s mid label index self new earlier _ buffering _ found begins _ _ _
    exact buffering.start (ReachedBy.wellScoped earlier) found begins
  · intro s after index self op rest new earlier before buffering _ found
      phase _
    exact buffering.run (ReachedBy.wellScoped earlier)
      (ReachedBy.shaped earlier) (ReachedBy.sized earlier before)
      (ReachedBy.concludes earlier before _ (List.mem_of_getElem? found)) found
      phase

/-! ## Acknowledgements on their way -/

/-- Whether an acknowledgement of this type leads to the `SEND` of a
request. -/
def settlesWith (sys : Sys) (req : BxiRequest) (type : MsgType) : Bool :=
  type == .ptlAck || sys.cfg.quickAcks || req.ackReq == .noAckReq

/-- Whether an operation leads to an acknowledgement which issues the `SEND` of
a request. -/
def Op.promises (sys : Sys) (s : State) (req : ReqId) : Op → Prop
  | .ptlAckTail msg => s.reqOf msg = req
  | .sendAck msg type _ =>
      s.reqOf msg = req ∧ settlesWith sys (s.reqs req) type = true
  | .putFinish msg me _ | .atomicFinish msg me _ =>
      s.reqOf msg = req ∧
        (ackDue sys s req (s.mes me)).any (settlesWith sys (s.reqs req)) = true
  | _ => False

/-- An acknowledgement which issues the `SEND` of its request, and was not
handled yet. -/
structure Returning (s : State) (req : ReqId) (msg : MsgId) : Prop where
  old : msg < s.nextMsg
  own : s.reqOf msg = req
  kind : (s.msgs msg).type = .ptlAck ∨
    (s.msgs msg).type = .e2eAck ∧ (s.reqs req).ackReq = .noAckReq
  unhandled : s.handled msg = 0

/-- An acknowledgement will issue the `SEND` of a request. -/
def Promised (sys : Sys) (s : State) (req : ReqId) : Prop :=
  SomePending (Op.promises sys s req) s.threads ∨ ∃ msg, Returning s req msg

theorem settlesWith_congr (grows : Extends s after) {req : ReqId}
    (old : req < s.nextReq) (type : MsgType) :
    settlesWith sys (after.reqs req) type =
      settlesWith sys (s.reqs req) type := by
  unfold settlesWith
  rw [grows.ackReq old]

theorem Op.promises.mono {op : Op} {req : ReqId}
    (promises : op.promises sys s req) (grows : Extends s after)
    (within : op.Within s.bounds) (old : req < s.nextReq) :
    op.promises sys after req := by
  cases op with
  | ptlAckTail msg => exact (grows.reqOf within).trans promises
  | sendAck msg type fail =>
      exact ⟨(grows.reqOf within).trans promises.1,
        (settlesWith_congr grows old type).trans promises.2⟩
  | putFinish msg me fail =>
      refine ⟨(grows.reqOf within.1).trans promises.1, ?_⟩
      rw [ackDue_congr grows old within.2, funext (settlesWith_congr grows old)]
      exact promises.2
  | atomicFinish msg me fail =>
      refine ⟨(grows.reqOf within.1).trans promises.1, ?_⟩
      rw [ackDue_congr grows old within.2, funext (settlesWith_congr grows old)]
      exact promises.2
  | _ => exact promises.elim

/-! ## The condition -/

/-- Whether a matched request of this size gets its `SEND`. -/
def covered (sys : Sys) (s : State) (req : ReqId) (me : MeId) : Bool :=
  decide ((s.reqs req).payloadSize ≤ 64) ||
    (ackDue sys s req (s.mes me)).any (settlesWith sys (s.reqs req))

/-- The BXI ACK of a Portals ACK is not handled before the Portals ACK, and a
Put or an Atomic which is not buffered is matched only by entries for which an
acknowledgement with a `SEND` is due. -/
def completes (sys : Sys) (s : State) : Label → Bool
  | .run index =>
      match s.threads[index]? with
      | some ⟨_, .ptlAckTail msg :: _⟩ =>
          decide ((s.reqs (s.reqOf msg)).processState ≠ .finished) ||
            decide ((s.reqs (s.reqOf msg)).payloadSize ≤ 64)
      | some ⟨self, .handle msg :: _⟩ =>
          !(s.msgs msg).type.putLike ||
            decide ((s.reqs (s.reqOf msg)).processState > .created) ||
            (matchEntry sys s self.nid msg).1.all fun found =>
              covered sys s (s.reqOf msg) found.2.2
      | _ => true
  | _ => true

/-- Messages are not disturbed nor retransmitted, and every Put and Atomic is
covered. -/
structure Completes (sys : Sys) (s : State) (label : Label) : Prop where
  undisturbed : Undisturbed sys s label
  unrepeated : Unrepeated sys s label
  completes : completes sys s label = true

instance (sys : Sys) (s : State) (label : Label) :
    Decidable (Completes sys s label) :=
  decidable_of_iff (Undisturbed sys s label ∧ Unrepeated sys s label ∧
      completes sys s label = true)
    ⟨fun ⟨first, second, third⟩ => ⟨first, second, third⟩,
      fun ⟨first, second, third⟩ => ⟨first, second, third⟩⟩

theorem Completes.tail {index : ThreadId}
    (allowed : Completes sys s (.run index)) {msg : MsgId} {rest : List Op}
    (found : s.threads[index]? = some ⟨self, .ptlAckTail msg :: rest⟩)
    (large : 64 < (s.reqs (s.reqOf msg)).payloadSize) :
    (s.reqs (s.reqOf msg)).processState ≠ .finished := by
  have condition := allowed.completes
  unfold S4BXI.completes at condition
  simpa [found, not_le.mpr large] using condition

theorem Completes.matched {index : ThreadId}
    (allowed : Completes sys s (.run index)) {msg : MsgId} {rest : List Op}
    (found : s.threads[index]? = some ⟨self, .handle msg :: rest⟩)
    (putLike : (s.msgs msg).type.putLike = true)
    (fresh : ¬(s.reqs (s.reqOf msg)).processState > .created) {pt : PtId}
    {list : PtlList} {me : MeId} {fail : NiFailType}
    (matching : matchEntry sys s self.nid msg = (some (pt, list, me), fail)) :
    covered sys s (s.reqOf msg) me = true := by
  have condition := allowed.completes
  unfold S4BXI.completes at condition
  simpa [found, putLike, fresh, matching] using condition

/-- An acknowledgement which is handled issues the `SEND`, or leaves it to the
end of its handler. -/
theorem Returning.handle {req : ReqId} {msg : MsgId}
    (returning : Returning s req msg) (acknowledging : Acknowledging s)
    (wellScoped : WellScoped s) (shaped : Shaped sys s) (sized : Sized s)
    (old : req < s.nextReq) (putLike : (s.reqs req).type.putLike = true)
    {index : ThreadId} {rest new : List Op}
    (found : s.threads[index]? = some ⟨self, .handle msg :: rest⟩)
    (phase : Phase sys self s (.handle msg) after new)
    (running : after.halted = none) :
    Settling { after with
        threads := s.threads.set index ⟨self, new ++ rest⟩ } req ∨
      Promised sys { after with
        threads := s.threads.set index ⟨self, new ++ rest⟩ } req := by
  have grows := phase.extends
  have known := phase
  have reqOf : after.reqOf msg = req :=
    (grows.reqOf returning.old).trans returning.own
  obtain ⟨_, own, kind, _⟩ := returning
  subst own
  rcases kind with type | ⟨type, silent⟩
  · refine .inr (.inl ?_)
    have tail : .ptlAckTail msg ∈ new := by
      cases phase with
      | handlePtlAck => simp
      | quiet quiet =>
          cases quiet with
          | duplicate request => simp [type, MsgType.isRequest] at request
          | unmatched other => simp [type] at other
          | unanswered other => simp [type] at other
          | finished other => simp [type] at other
      | respondUnmatched other fetches =>
          rcases fetches with rfl | rfl <;>
            simp [type, ReqType.msgType] at other
      | @matched _ pt list me fail kind effects stop other =>
          cases kind <;> simp [type, ReqType.msgType] at other
      | handleResponse other => simp [type] at other
      | ackWithoutAnswer other => simp [type] at other
      | handleBxiAck other => simp [type] at other
    exact SomePending.added found (List.mem_append_left _ tail) reqOf
  · refine .inl ?_
    have still : (s.reqs (s.reqOf msg)).processState ≥ .finished →
        Settling { after with
          threads := s.threads.set index ⟨self, new ++ rest⟩ }
            (s.reqOf msg) := by
      intro finished
      refine (acknowledging _ old putLike (.inr ⟨?_, silent⟩)).run wellScoped
        shaped sized old putLike found known
      revert finished
      cases (s.reqs (s.reqOf msg)).processState <;> decide
    have ends : .bxiAckTail msg ∈ new → Settling { after with
        threads := s.threads.set index ⟨self, new ++ rest⟩ }
          (s.reqOf msg) := fun tail =>
      .inr (SomePending.added found (List.mem_append_left _ tail)
        ⟨reqOf, (grows.ackReq old).trans silent⟩)
    cases phase with
    | handleBxiAck => exact ends (by simp)
    | quiet quiet =>
        cases quiet with
        | duplicate request => simp [type, MsgType.isRequest] at request
        | unmatched other => simp [type] at other
        | unanswered other => simp [type] at other
        | finished other finished => exact still finished
    | respondUnmatched other fetches =>
        rcases fetches with rfl | rfl <;> simp [type, ReqType.msgType] at other
    | @matched _ pt list me fail kind effects stop other =>
        cases kind <;> simp [type, ReqType.msgType] at other
    | handleResponse other => simp [type] at other
    | ackWithoutAnswer => cases running
    | handlePtlAck other => simp [type] at other

/-- A promise is kept: it is passed on, or the `SEND` becomes certain. -/
theorem Promised.run {allowed : State → Label → Prop} {req : ReqId}
    (promised : Promised sys s req) (reached : ReachedBy sys allowed s)
    (before : s.halted = none) (old : req < s.nextReq)
    (putLike : (s.reqs req).type.putLike = true)
    (large : 64 < (s.reqs req).payloadSize) {index : ThreadId} {op : Op}
    {rest new : List Op}
    (found : s.threads[index]? = some ⟨self, op :: rest⟩)
    (phase : Phase sys self s op after new) (running : after.halted = none)
    (permitted : Completes sys s (.run index)) :
    Settling { after with
        threads := s.threads.set index ⟨self, new ++ rest⟩ } req ∨
      Promised sys { after with
        threads := s.threads.set index ⟨self, new ++ rest⟩ } req := by
  have wellScoped := ReachedBy.wellScoped reached
  have shaped := ReachedBy.shaped reached
  have sized := ReachedBy.sized reached before
  have acknowledging := ReachedBy.acknowledging reached before
  have member := List.mem_of_getElem? found
  have within := wellScoped.ops _ member op List.mem_cons_self
  have opShaped := shaped.ops _ member op List.mem_cons_self
  have grows := phase.extends
  have handled := handled_run reached found phase before running
  rcases promised with pends | ⟨msg, returning⟩
  · have kept : ∀ thread ∈ s.threads, ∀ other ∈ thread.ops,
        other.promises sys s req → other.promises sys { after with
          threads := s.threads.set index ⟨self, new ++ rest⟩ } req := by
      intro thread threadMember other pendingOp promises
      exact promises.mono { grows with }
        (wellScoped.ops thread threadMember other pendingOp) old
    rcases pends.run found new kept with promises | later
    · have issues : .maybeIssueSend req ∈ new → Settling { after with
          threads := s.threads.set index ⟨self, new ++ rest⟩ } req :=
        fun added =>
          .inr (SomePending.added found (List.mem_append_left _ added) rfl)
      have acks : ∀ msg type fail, s.reqOf msg = req → msg < s.nextMsg →
          settlesWith sys (s.reqs req) type = true →
          .sendAck msg type fail ∈ new → Promised sys { after with
            threads := s.threads.set index ⟨self, new ++ rest⟩ } req := by
        intro msg type fail own oldMsg settles added
        refine .inl (SomePending.added found (List.mem_append_left _ added)
          ⟨(grows.reqOf oldMsg).trans own, ?_⟩)
        exact (settlesWith_congr grows old type).trans settles
      cases op with
      | ptlAckTail msg =>
          cases promises
          refine .inl ?_
          have known := phase
          cases phase with
          | quiet quiet =>
              cases quiet with
              | ptlAckKnown later =>
                  have unfinished := permitted.tail found large
                  have answered :
                      (s.reqs (s.reqOf msg)).processState = .answered := by
                    revert later unfinished
                    cases (s.reqs (s.reqOf msg)).processState <;> decide
                  exact (acknowledging _ old putLike (.inl answered)).run
                    wellScoped shaped sized old putLike found known
          | ptlAckTail fresh => exact issues (by simp)
      | sendAck msg type fail =>
          obtain ⟨rfl, settles⟩ := promises
          cases phase with
          | quiet quiet => cases quiet
          | quickAck quick => exact .inl (issues (by simp))
          | sendAck slow =>
              obtain ⟨own, kind⟩ := newAck_fresh s within type fail
              refine .inr (.inr ⟨s.nextMsg, Nat.lt_succ_self _, own, ?_, ?_⟩)
              · change ((newAck s msg type fail).msgs s.nextMsg).type = _ ∨
                  ((newAck s msg type fail).msgs s.nextMsg).type = _ ∧
                    ((newAck s msg type fail).reqs (s.reqOf msg)).ackReq = _
                rw [kind, grows.ackReq old]
                simp only [settlesWith, slow, Bool.or_false, Bool.or_eq_true,
                  beq_iff_eq] at settles
                rcases settles with ptlAck | silent
                · exact .inl ptlAck
                · exact opShaped.2.2.imp_right fun e2eAck => ⟨e2eAck, silent⟩
              · rw [handled, wellScoped.handled_fresh (Nat.le_refl _)]
                rfl
      | putFinish msg me fail =>
          obtain ⟨rfl, due⟩ := promises
          cases ack : ackDue sys s (s.reqOf msg) (s.mes me) with
          | none => simp [ack] at due
          | some type =>
              refine .inr (acks msg type fail rfl within.1 ?_ ?_)
              · simpa [ack] using due
              · cases phase with
                | quiet quiet => cases quiet
                | putFinish leaves => simp [ack, sendDue]
      | atomicFinish msg me fail =>
          obtain ⟨rfl, due⟩ := promises
          cases ack : ackDue sys s (s.reqOf msg) (s.mes me) with
          | none => simp [ack] at due
          | some type =>
              refine .inr (acks msg type fail rfl within.1 ?_ ?_)
              · simpa [ack] using due
              · cases phase with
                | quiet quiet =>
                    cases quiet with
                    | atomicFinish => simp [atomicFinish, ack, sendDue]
      | _ => exact promises.elim
    · exact .inr (.inl later)
  · by_cases receiving : op = .handle msg
    · subst receiving
      exact returning.handle acknowledging wellScoped shaped sized old putLike
        found phase running
    · refine .inr (.inr ⟨msg, returning.old.trans_le grows.nextMsg, ?_, ?_, ?_⟩)
      · exact (grows.reqOf returning.old).trans returning.own
      · have type := grows.type returning.old
        have silent := grows.ackReq old
        change (after.msgs msg).type = _ ∨ (after.msgs msg).type = _ ∧
          (after.reqs req).ackReq = _
        rw [type, silent]
        exact returning.kind
      · rw [handled, returning.unhandled]
        cases op with
        | handle other =>
            have different : other ≠ msg := fun same => receiving (by rw [same])
            simp [Op.receiving, different]
        | _ => rfl

theorem Promised.start {req : ReqId} (promised : Promised sys s req)
    (wellScoped : WellScoped s) (shaped : Shaped sys s)
    (old : req < s.nextReq) {index : ThreadId} {label : Label}
    {new : List Op} (found : s.threads[index]? = some ⟨self, []⟩)
    (begins : Begins s after new) (idle : ∀ index, label ≠ .run index)
    (advances : Advances sys s index label { after with
      threads := s.threads.set index ⟨self, new⟩ })
    (running : after.halted = none) :
    Promised sys { after with
      threads := s.threads.set index ⟨self, new⟩ } req := by
  have grows := begins.grows
  rcases promised with pends | ⟨msg, returning⟩
  · have kept : SomePending (Op.promises sys { after with
        threads := s.threads.set index ⟨self, new⟩ } req) s.threads := by
      obtain ⟨thread, member, op, pendingOp, promises⟩ := pends
      exact ⟨thread, member, op, pendingOp, promises.mono { grows with }
        (wellScoped.ops thread member op pendingOp) old⟩
    exact .inl (kept.start found new)
  · refine .inr ⟨msg, returning.old.trans_le grows.nextMsg, ?_, ?_, ?_⟩
    · exact (grows.reqOf returning.old).trans returning.own
    · have type := grows.type returning.old
      have silent := grows.ackReq old
      change (after.msgs msg).type = _ ∨ (after.msgs msg).type = _ ∧
        (after.reqs req).ackReq = _
      rw [type, silent]
      exact returning.kind
    · rw [handled_start wellScoped shaped advances idle running]
      exact returning.unhandled

/-! ## Matched requests -/

/-- The `SEND` of a matched Put or Atomic is certain, or promised if its payload
is not buffered. -/
def Fulfilling (sys : Sys) (s : State) : Prop :=
  ∀ req < s.nextReq, (s.reqs req).type.putLike = true → s.Consumed req →
    Settling s req ∨ 64 < (s.reqs req).payloadSize ∧ Promised sys s req

theorem ReachedBy.fulfilling (reached : ReachedBy sys (Completes sys) s)
    (running : s.halted = none) : Fulfilling sys s := by
  refine ReachedBy.always reached running ?_ ?_ ?_
  · intro req small
    cases small
  · intro s mid label index self new earlier _ fulfilling _ found begins idle
      advances running req small putLike consumed
    have wellScoped := ReachedBy.wellScoped earlier
    have before : s.Consumed req := by
      obtain ⟨msg, pt, list, me, logged⟩ := consumed
      have same : mid.log = s.log := begins.log
      exact ⟨msg, pt, list, me, same ▸ logged⟩
    have old : req < s.nextReq := by
      obtain ⟨msg, pt, list, me, logged⟩ := before
      exact (wellScoped.tables.log _ logged).1
    have kind : (s.reqs req).type.putLike = true := by
      rw [← begins.grows.reqType old]
      exact putLike
    rcases fulfilling req old kind before with settling | ⟨large, promised⟩
    · exact .inl (settling.start wellScoped old found begins)
    · refine .inr ⟨large.trans_eq (begins.grows.payloadSize old).symm, ?_⟩
      exact promised.start wellScoped (ReachedBy.shaped earlier) old found
        begins idle advances running
  · intro s after index self op rest new earlier before fulfilling permitted
      found phase running req small putLike consumed
    have wellScoped := ReachedBy.wellScoped earlier
    have shaped := ReachedBy.shaped earlier
    have sized := ReachedBy.sized earlier before
    have member := List.mem_of_getElem? found
    have within := wellScoped.ops _ member op List.mem_cons_self
    have grows := phase.extends
    have old : req < s.nextReq := phase.nextReq ▸ small
    have kind : (s.reqs req).type.putLike = true := by
      rw [← grows.reqType old]
      exact putLike
    have size : (after.reqs req).payloadSize = (s.reqs req).payloadSize :=
      grows.payloadSize old
    have stays : Settling s req → Settling { after with
        threads := s.threads.set index ⟨self, new ++ rest⟩ } req :=
      fun settling => settling.run wellScoped shaped sized old kind found phase
    rcases phase.consumes within consumed with
      already | ⟨msg, rfl, rfl, request, fresh, matching⟩
    · rcases fulfilling req old kind already with settling | ⟨large, promised⟩
      · exact .inl (stays settling)
      · rcases promised.run earlier before old kind large found phase running
          permitted with settling | promised
        · exact .inl settling
        · exact .inr ⟨large.trans_eq size.symm, promised⟩
    · have type : (s.msgs msg).type.putLike = true :=
        ((shaped.msgs msg within).putLike request).trans kind
      obtain ⟨⟨⟨pt, list, me⟩, fail⟩, result⟩ :
          ∃ found : (PtId × PtlList × MeId) × NiFailType,
            matchEntry sys s self.nid msg = (some found.1, found.2) := by
        cases equal : matchEntry sys s self.nid msg with
        | mk entry fail =>
            cases entry with
            | none => simp [equal] at matching
            | some entry => exact ⟨(entry, fail), rfl⟩
      by_cases small : (s.reqs (s.reqOf msg)).payloadSize ≤ 64
      · refine .inl (stays ?_)
        have waits : 0 < s.fielded msg := by
          have least : (Op.handle msg).receiving msg ≤
              pending (Op.receiving msg) s.threads :=
            weight_le_pending member List.mem_cons_self
          simp only [Op.receiving, if_true] at least
          unfold State.fielded
          omega
        have sent := waits.trans_le (ReachedBy.fielded_le earlier before msg)
        exact ReachedBy.buffering earlier before msg within type small sent
      · have covers := permitted.matched found type fresh result
        have due : (ackDue sys s (s.reqOf msg) (s.mes me)).any
            (settlesWith sys (s.reqs (s.reqOf msg))) = true := by
          simpa [covered, small] using covers
        have oldMe : me < s.nextMe :=
          (wellScoped.tables.matched (matched_of_matchEntry result)).2
        obtain ⟨kind, effects, stop, same, _, ops⟩ :=
          phase.of_found request fresh result
        have promises : (finishing msg me fail s.nextMsg kind).promises sys
            { after with threads := s.threads.set index ⟨self, new ++ rest⟩ }
            (s.reqOf msg) := by
          have later : (ackDue sys after (s.reqOf msg) (after.mes me)).any
              (settlesWith sys (after.reqs (s.reqOf msg))) = true := by
            rw [ackDue_congr grows old oldMe,
              funext (settlesWith_congr grows old)]
            exact due
          rw [same] at type
          cases kind with
          | put => exact ⟨grows.reqOf within, later⟩
          | atomic => exact ⟨grows.reqOf within, later⟩
          | get => cases type
          | fetchAtomic => cases type
        refine .inr ⟨(not_le.mp small).trans_eq size.symm, .inl ?_⟩
        refine SomePending.added found (List.mem_append_left _ ?_) promises
        rw [ops]
        exact List.mem_append_right _ (List.mem_singleton_self _)

/-! ## Local completion -/

/-- The `SEND` of a request was issued exactly once, with its event and the
update of its counter unless its descriptor disables them. -/
structure Completed (s : State) (req : ReqId) : Prop where
  issued : (s.reqs req).sendEventIssued = true
  event : ∀ eq, (s.reqs req).sendQueue = some eq →
    .event eq (s.reqs req).sending (.request req) ∈ s.log ∧
      s.achieved .sent req = 1
  counter : ∀ ct, (s.reqs req).md.counts MdOption.eventCtSend = some ct →
    .mdCounter req ct ((s.reqs req).md.ctAmount (s.reqs req).payloadSize) ∈
      s.log
  updates : (s.reqs req).md.counts MdOption.eventCtAck = none →
    s.log.countP (Obs.counts req) =
      (s.reqs req).md.updates MdOption.eventCtSend

/-- Every Put and Atomic which was matched completes locally. -/
theorem put_completes_locally (reached : ReachedBy sys (Completes sys) s)
    (running : s.halted = none) (quiescent : s.Quiescent) {req : ReqId}
    (putLike : (s.reqs req).type.putLike = true)
    (consumed : s.Consumed req) : Completed s req := by
  have wellScoped := ReachedBy.wellScoped reached
  have old : req < s.nextReq := by
    obtain ⟨msg, pt, list, me, logged⟩ := consumed
    exact (wellScoped.tables.log _ logged).1
  have settles : Settling s req := by
    rcases ReachedBy.fulfilling reached running req old putLike consumed with
      settling | ⟨_, pends | ⟨msg, returning⟩⟩
    · exact settling
    · exact absurd pends quiescent.not_pending
    · exfalso
      have ack : (s.msgs msg).type.isAck = true := by
        rcases returning.kind with type | ⟨type, _⟩ <;> rw [type] <;> rfl
      rcases ReachedBy.posted (fun _ _ allowed => allowed.unrepeated) reached
          running msg returning.old ack with ⟨nid, vn, submitted⟩ | pends
      · have accounted := ReachedBy.accounted
          (reached.mono fun _ _ allowed => allowed.undisturbed) running
        have handled := quiescent.handled_of_submitted accounted submitted
        exact absurd returning.unhandled (Nat.ne_of_gt handled)
      · exact quiescent.not_pending pends
  have issued : (s.reqs req).sendEventIssued = true := by
    rcases settles with issued | pends
    · exact issued
    · exact absurd pends quiescent.not_pending
  have reports := ReachedBy.reports reached running req old issued
  refine ⟨issued, ?_, ?_, ?_⟩
  · intro eq queue
    rcases reports.event eq queue with logged | pends
    · have bound := (ReachedBy.solvent reached).achieved_le_one wellScoped
        .sent req
      have reported : 0 < s.achieved .sent req :=
        List.countP_pos_iff.mpr ⟨_, logged, by
          simp [Obs.achieves, BxiRequest.sending, EventKind.effect]⟩
      exact ⟨logged, by omega⟩
    · exact absurd pends quiescent.not_pending
  · intro ct counts
    rcases reports.counter ct counts with logged | pends
    · exact logged
    · exact absurd pends quiescent.not_pending
  · intro silent
    have counted := ReachedBy.counted reached running req old putLike silent
    rw [quiescent.pending_eq_zero, issued] at counted
    simpa using counted

end Steps

/-- `PtlPut` of a hundred bytes from the first application to an entry of the
second one, handled by the NIC target. -/
def largePut (ack : AckReq) (handling : Nat) : List Label :=
  prologue ++ appends { start := 1000, length := 100 } .priority :: runs 6 3 ++
    .call 0 (.request
      { md := { ni := 0, start := 500, length := 100, eqHandle := some 3 }
        length := 100
        ackReq := ack
        targetNid := 1
        targetPid := 11 }) ::
    runs 0 3 ++ .take 1 :: runs 1 4 ++ .recv 9 0 :: runs 9 handling

/-- A large Put with a Portals ACK completes locally. -/
theorem acknowledged_put_completes :
    ∃ s, ReachedBy (twoNodes {} { e2eOff := true })
        (Completes (twoNodes {} { e2eOff := true })) s ∧ s.Quiescent ∧
      s.Consumed 0 ∧ 64 < (s.reqs 0).payloadSize ∧ Completed s 0 := by
  obtain ⟨s, reached, holds⟩ := reachedBy_of_executes
    (twoNodes {} { e2eOff := true })
    (Completes (twoNodes {} { e2eOff := true }))
    (largePut .ackReq 10 ++ .take 8 :: runs 8 3 ++ .recv 4 0 :: runs 4 12)
    (fun s => s.rests && s.consumes 0 && (s.reqs 0).type.putLike &&
      decide (64 < (s.reqs 0).payloadSize) && s.halted.isNone)
    (by decide +kernel)
  simp only [Bool.and_eq_true, decide_eq_true_eq, Option.isNone_iff_eq_none]
    at holds
  obtain ⟨⟨⟨⟨rests, consumes⟩, putLike⟩, large⟩, running⟩ := holds
  have quiescent := State.Quiescent.of_rests reached.anything rests
  have consumed := consumed_iff_consumes.mpr consumes
  exact ⟨s, reached, quiescent, consumed, large,
    put_completes_locally reached running quiescent putLike consumed⟩

/-- A large Put without a Portals ACK, matched with E2E off, never completes. -/
theorem silent_put_never_completes :
    ∃ s, ReachedBy (twoNodes {} { e2eOff := true })
        (Unrepeated (twoNodes {} { e2eOff := true })) s ∧
      s.halted = none ∧ s.Quiescent ∧ (s.reqs 0).type.putLike = true ∧
      s.Consumed 0 ∧ (s.reqs 0).sendEventIssued = false ∧
      (s.reqs 0).sendQueue = some 3 ∧ s.achieved .sent 0 = 0 := by
  obtain ⟨s, reached, holds⟩ := reachedBy_of_executes
    (twoNodes {} { e2eOff := true })
    (Unrepeated (twoNodes {} { e2eOff := true })) (largePut .noAckReq 7)
    (fun s => s.rests && s.consumes 0 && (s.reqs 0).type.putLike &&
      (s.reqs 0).sendEventIssued == false &&
      (s.reqs 0).sendQueue == some 3 && s.achieved .sent 0 == 0 &&
      s.halted.isNone)
    (by decide +kernel)
  simp only [Bool.and_eq_true, beq_iff_eq, Option.isNone_iff_eq_none] at holds
  obtain ⟨⟨⟨⟨⟨⟨rests, consumes⟩, putLike⟩, unissued⟩, queue⟩, unsent⟩,
    running⟩ := holds
  exact ⟨s, reached, running, .of_rests reached.anything rests, putLike,
    consumed_iff_consumes.mpr consumes, unissued, queue, unsent⟩

end S4BXI
