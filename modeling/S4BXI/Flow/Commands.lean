import Mathlib.Algebra.BigOperators.Ring.Finset
import Mathlib.Algebra.Order.BigOperators.Group.Finset
import S4BXI.Flow.Retries

/-!
# Slots of the command queues

A request takes a slot of the command queue of its interface when `cq->acquire()`
returns, and `handle_put` or `handle_get` gives it back when a NIC initiator
takes a message of the request.  As long as a request waits for its slot, its
message is nowhere else.
-/

namespace S4BXI

open Lib

/-! ## Requests which wait for a slot -/

/-- The messages which an operation may move or answer. -/
def Op.mentions : Op → List MsgId
  | .handle msg | .sendAck msg _ _ | .putFinish msg _ _
  | .atomicFinish msg _ _ | .atomicEvents msg _ | .txPut msg
  | .responseRest msg | .sendBxiAck msg _ | .replyEvent msg
  | .ptlAckTail msg | .bxiAckTail msg | .processTx msg | .commInit msg
  | .acquireE2eEntry msg | .e2eEnqueue msg | .commStart msg
  | .handlePutEnd msg | .handleResponseEnd msg | .e2eWake msg => [msg]
  | .getFinish msg _ response | .fetchAtomicFinish msg _ response =>
      [msg, response]
  | _ => []

/-- Whether an operation waits for the slot of a message. -/
def Op.isCqAcquire : Op → Bool
  | .cqAcquire _ _ => true
  | _ => false

/-- A message waits in some queue. -/
def Traffic.Holds (traffic : Traffic) (msg : MsgId) : Prop :=
  (∃ nid vn, msg ∈ traffic.tx nid vn ∨ msg ∈ traffic.waiting nid vn ∨
    msg ∈ traffic.rx nid vn ∨ msg ∈ traffic.mailbox nid vn) ∨
    ∃ nid, msg ∈ traffic.e2e nid

/-- Nobody has a message yet, and its request has no other one. -/
structure Aside (s : State) (msg : MsgId) : Prop where
  unmentioned : ∀ thread ∈ s.threads, ∀ op ∈ thread.ops, msg ∉ op.mentions
  unqueued : ¬s.traffic.Holds msg
  unsent : ∀ nid vn, .sent nid vn msg ∉ s.log
  sole : ∀ other < s.nextMsg, s.reqOf other = s.reqOf msg → other = msg

/-! ## Messages taken from the queues -/

/-- An idle actor takes a message from a queue. -/
structure Picks (s : State) (index : ThreadId) (actor : Actor) (msg : MsgId)
    (new : List Op) (mid : State) : Prop where
  found : s.threads[index]? = some ⟨actor, []⟩
  reqs : mid.reqs = s.reqs
  nextReq : mid.nextReq = s.nextReq
  nextMsg : mid.nextMsg = s.nextMsg
  log : mid.log = s.log
  halted : mid.halted = s.halted
  grows : Extends s mid
  held : s.traffic.Holds msg
  traffic : ∀ other, mid.traffic.Holds other → s.traffic.Holds other
  ops : new = [.handle msg, .unref msg] ∨ new = [.processTx msg] ∨
    new = [.e2eWake msg]

/-- The steps: an actor runs into a destroyed object, runs an operation, takes a
message from a queue or makes an API call. -/
inductive Moves (sys : Sys) (s : State) (index : ThreadId) :
    Label → State → Prop where
  | dangling {label ptr} : Moves sys s index label (s.halt (.dangling ptr))
  | run {self : Actor} {op : Op} {rest new : List Op} {after : State}
      (found : s.threads[index]? = some ⟨self, op :: rest⟩)
      (phase : Phase sys self s op after new) :
      Moves sys s index (.run index) { after with
        threads := s.threads.set index ⟨self, new ++ rest⟩ }
  | pick {label : Label} {self : Actor} {msg : MsgId} {new : List Op}
      {mid : State} (picks : Picks s index self msg new mid)
      (idle : ∀ thread, label ≠ .run thread) :
      Moves sys s index label { mid with
        threads := s.threads.set index ⟨self, new⟩ }
  | call {self : Actor} {call : Call} {new : List Op} {after : State}
      (found : s.threads[index]? = some ⟨self, []⟩)
      (phase : CallPhase sys self s call after new) :
      Moves sys s index (.call index call) { after with
        threads := s.threads.set index ⟨self, new⟩ }

theorem Advances.moves {sys : Sys} {s after : State} {index : ThreadId}
    {label : Label} (advances : Advances sys s index label after) :
    Moves sys s index label after := by
  cases advances with
  | dangling dead owner => exact .dangling
  | run found alive phase => exact .run found phase
  | @recv self position msg found target queued =>
      refine @Moves.pick sys s index _ self msg _
        (s.removeRx self.nid self.vn position) ⟨found, rfl, rfl, rfl, rfl, rfl, Extends.of_tables rfl rfl rfl rfl rfl
          rfl rfl rfl (List.prefix_refl _), ?_, ?_, .inl rfl⟩ nofun
      · exact .inl ⟨self.nid, self.vn,
          .inr (.inr (.inl (List.mem_of_getElem? queued)))⟩
      · rintro other (⟨nid, vn, tx | waiting | rx | mailbox⟩ | e2e)
        · exact .inl ⟨nid, vn, .inl tx⟩
        · exact .inl ⟨nid, vn, .inr (.inl waiting)⟩
        · change other ∈ setQueue s.rx self.nid self.vn
            ((s.rx self.nid self.vn).eraseIdx position) nid vn at rx
          rw [setQueue_apply] at rx
          split at rx
          · exact .inl ⟨_, _, .inr (.inr (.inl (List.mem_of_mem_eraseIdx rx)))⟩
          · exact .inl ⟨_, _, .inr (.inr (.inl rx))⟩
        · exact .inl ⟨nid, vn, .inr (.inr (.inr mailbox))⟩
        · exact .inr e2e
  | @take self msg rest found initiator queued =>
      have traffic := s.traffic_take queued
      have head : s.traffic.tx self.nid self.vn = msg :: rest := queued
      refine @Moves.pick sys s index _ self msg _ (s.popTx self.nid self.vn)
        ⟨found, rfl, rfl, rfl, rfl, rfl, Extends.modNode s _ _, ?_, ?_,
          .inr (.inl rfl)⟩ nofun
      · exact .inl ⟨self.nid, self.vn, .inl (head ▸ List.mem_cons_self)⟩
      · rw [traffic]
        rintro other (⟨nid, vn, tx | others⟩ | e2e)
        · simp only [setQueue_apply] at tx
          split at tx
          · exact .inl ⟨self.nid, self.vn,
              .inl (head ▸ List.mem_cons_of_mem _ tx)⟩
          · exact .inl ⟨nid, vn, .inl tx⟩
        · exact .inl ⟨nid, vn, .inr others⟩
        · exact .inr e2e
  | @wake self msg rest found e2e alive queued =>
      have traffic : (s.popE2e self.nid).traffic = _ :=
        s.traffic_e2e self.nid List.tail
      have head : s.traffic.e2e self.nid = msg :: rest := queued
      refine @Moves.pick sys s index _ self msg _ (s.popE2e self.nid)
        ⟨found, rfl, rfl, rfl, rfl, rfl, Extends.modNode s _ _, ?_, ?_,
          .inr (.inr rfl)⟩ nofun
      · exact .inr ⟨self.nid, head ▸ List.mem_cons_self⟩
      · rw [traffic]
        rintro other (others | ⟨nid, member⟩)
        · exact .inl others
        · simp only [Function.update_apply] at member
          split at member
          · exact .inr ⟨self.nid, List.mem_of_mem_tail member⟩
          · exact .inr ⟨nid, member⟩
  | call found user owned alive phase => exact .call found phase

/-- The operations of an actor which took a message are about it. -/
theorem Picks.every {s mid : State} {index : ThreadId} {self : Actor}
    {msg : MsgId} {new : List Op} (picks : Picks s index self msg new mid)
    {P : Op → Prop} (handle : P (.handle msg)) (unref : P (.unref msg))
    (processTx : P (.processTx msg)) (e2eWake : P (.e2eWake msg)) :
    ∀ op ∈ new, P op := by
  rcases picks.ops with rfl | rfl | rfl
  · simpa using ⟨handle, unref⟩
  · simpa using processTx
  · simpa using e2eWake

section Mentions

variable {sys : Sys} {self : Actor} {s after : State}

/-- An operation leaves the messages it mentions and those it allocates. -/
theorem Follows.mentions {op added : Op} (follows : Follows sys self s op added)
    (acquired : op.isCqAcquire = false) {msg : MsgId}
    (mentioned : msg ∈ added.mentions) :
    msg ∈ op.mentions ∨ msg = s.nextMsg := by
  cases follows with
  | cqAcquired => cases acquired
  | @matched other pt list me fail kind type found =>
      cases kind <;> simp_all [finishing, Op.mentions]
  | releaseAnswered => cases mentioned
  | _ => simp_all [Op.mentions]

/-- The queues hold what they held, what the operation mentions and what it
allocates. -/
theorem Carries.holds {op : Op} {new : List Op}
    (carries : Carries sys self s op after new) (running : after.halted = none)
    {msg : MsgId} (holds : after.traffic.Holds msg) :
    s.traffic.Holds msg ∨ msg ∈ op.mentions ∨ msg = s.nextMsg := by
  have queued : ∀ {nid : Nid} {vn : Vn} {node : Nid} {network : Vn}
      {queues : Nid → Vn → List MsgId} {queue : List MsgId},
      msg ∈ setQueue queues nid vn queue node network →
      msg ∈ queues node network ∨ msg ∈ queue := by
    intro nid vn node network queues queue member
    rw [setQueue_apply] at member
    split at member
    · exact .inr member
    · exact .inl member
  have heldTx : ∀ {nid vn}, msg ∈ s.traffic.tx nid vn → s.traffic.Holds msg :=
    fun member => .inl ⟨_, _, .inl member⟩
  have heldWaiting : ∀ {nid vn}, msg ∈ s.traffic.waiting nid vn →
      s.traffic.Holds msg := fun member => .inl ⟨_, _, .inr (.inl member)⟩
  have heldRx : ∀ {nid vn}, msg ∈ s.traffic.rx nid vn → s.traffic.Holds msg :=
    fun member => .inl ⟨_, _, .inr (.inr (.inl member))⟩
  have heldMailbox : ∀ {nid vn}, msg ∈ s.traffic.mailbox nid vn →
      s.traffic.Holds msg :=
    fun member => .inl ⟨_, _, .inr (.inr (.inr member))⟩
  have pushed : ∀ {nid : Nid} {vn : Vn} {added : MsgId},
      after.traffic = { s.traffic with
        tx := setQueue s.traffic.tx nid vn (s.traffic.tx nid vn ++ [added]) } →
      s.traffic.Holds msg ∨ msg = added := by
    intro nid vn added traffic
    rw [traffic] at holds
    rcases holds with ⟨node, network, tx | others⟩ | e2e
    · rcases queued tx with old | new
      · exact .inl (heldTx old)
      · rcases List.mem_append.mp new with old | new
        · exact .inl (heldTx old)
        · exact .inr (List.mem_singleton.mp new)
    · exact .inl (.inl ⟨node, network, .inr others⟩)
    · exact .inl (.inr e2e)
  cases carries with
  | still idle nothing traffic silent => exact .inl (traffic ▸ holds)
  | submit traffic log =>
      rcases pushed traffic with old | rfl
      · exact .inl old
      · exact .inr (.inl (by simp [Op.mentions]))
  | retry on traffic log =>
      rcases pushed traffic with old | new
      · exact .inl old
      · exact .inr (.inr new)
  | mailbox off traffic log =>
      rw [traffic] at holds
      rcases holds with ⟨node, network, tx | waiting | rx | mailbox⟩ | e2e
      · exact .inl (heldTx tx)
      · exact .inl (heldWaiting waiting)
      · exact .inl (heldRx rx)
      · rcases queued mailbox with old | new
        · exact .inl (heldMailbox old)
        · rcases List.mem_append.mp new with old | new
          · exact .inl (heldMailbox old)
          · exact .inr (.inr (List.mem_singleton.mp new))
      · exact .inl (.inr e2e)
  | pass passes nothing traffic silent => exact .inl (traffic ▸ holds)
  | park subject refused traffic log =>
      rw [traffic] at holds
      rcases holds with ⟨node, network, tx | waiting | others⟩ | e2e
      · exact .inl (heldTx tx)
      · rcases queued waiting with old | new
        · exact .inl (heldWaiting old)
        · unfold parking at new
          split at new
          · exact .inl (heldWaiting new)
          · rcases List.mem_append.mp new with old | new
            · exact .inl (heldWaiting old)
            · exact .inr (.inl new)
      · exact .inl (.inl ⟨node, network, .inr (.inr others)⟩)
      · exact .inl (.inr e2e)
  | init before nothing => exact .inl holds
  | start traffic log =>
      rw [traffic] at holds
      rcases holds with ⟨node, network, tx | waiting | rx | mailbox⟩ | e2e
      · exact .inl (heldTx tx)
      · exact .inl (heldWaiting waiting)
      · rcases queued rx with old | new
        · exact .inl (heldRx old)
        · rcases List.mem_append.mp new with old | new
          · exact .inl (heldRx old)
          · exact .inr (.inl new)
      · exact .inl (heldMailbox mailbox)
      · exact .inl (.inr e2e)
  | push waiting traffic log =>
      rcases pushed traffic with old | rfl
      · exact .inl old
      · exact .inl (heldWaiting (waiting ▸ List.mem_cons_self))
  | pop waiting traffic log =>
      rw [traffic] at holds
      rcases holds with ⟨node, network, tx | deque | others⟩ | e2e
      · exact .inl (heldTx tx)
      · rcases queued deque with old | rest
        · exact .inl (heldWaiting old)
        · exact .inl (heldWaiting (waiting ▸ List.mem_cons_of_mem _ rest))
      · exact .inl (.inl ⟨node, network, .inr (.inr others)⟩)
      · exact .inl (.inr e2e)
  | enqueue traffic log =>
      rw [traffic] at holds
      rcases holds with others | ⟨node, member⟩
      · exact .inl (.inl others)
      · simp only [Function.update_apply] at member
        split at member
        · rcases List.mem_append.mp member with old | new
          · exact .inl (.inr ⟨_, old⟩)
          · exact .inr (.inl new)
        · exact .inl (.inr ⟨node, member⟩)
  | stop halted => exact absurd running halted

/-- The message which an operation allocates belongs to the request of one it
mentions. -/
theorem Creates.mentioned {op : Op} {msg : BxiMsg}
    (creates : Creates sys s op msg) :
    ∃ answered ∈ op.mentions, msg.parentRequest = s.reqOf answered := by
  cases creates with
  | ack slow => exact ⟨_, List.mem_singleton_self _, rfl⟩
  | bxiAck => exact ⟨_, List.mem_singleton_self _, rfl⟩
  | response fail request responds =>
      exact ⟨_, List.mem_singleton_self _, rfl⟩
  | copy => exact ⟨_, List.mem_singleton_self _, rfl⟩

theorem Emits.sent_mentioned {op : Op} {nid : Nid} {vn : Vn} {msg : MsgId}
    (emits : Emits sys self s op (.sent nid vn msg)) : msg ∈ op.mentions := by
  cases emits with
  | sent => exact List.mem_singleton_self _

theorem Op.Within.mentions {bounds : Bounds} {op : Op}
    (within : op.Within bounds) : ∀ msg ∈ op.mentions, msg < bounds.msg := by
  intro msg mentioned
  cases op <;> simp_all [Op.Within, Op.mentions]
  all_goals
    rcases mentioned with rfl | rfl
    · exact within.1
    · exact within.2.2

end Mentions

/-- The messages in the queues are allocated. -/
theorem WellScoped.held {s : State} (wellScoped : WellScoped s) {msg : MsgId}
    (held : s.traffic.Holds msg) : msg < s.nextMsg := by
  have tables := wellScoped.tables
  rcases held with ⟨nid, vn, tx | waiting | rx | mailbox⟩ | ⟨nid, e2e⟩
  · exact (tables.nodes nid).txQueues vn _ tx
  · exact (tables.nodes nid).waiting vn _ waiting
  · exact tables.rx nid vn _ rx
  · exact (tables.nodes nid).nicTxMailbox vn _ mailbox
  · exact (tables.nodes nid).e2eQueue _ e2e

namespace Aside

variable {sys : Sys} {self : Actor} {s after : State} {msg : MsgId}

/-- A message which is being allocated by an API call. -/
theorem fresh (wellScoped : WellScoped s) (extends' : Extends s after)
    (next : after.nextMsg = s.nextMsg + 1)
    (request : after.reqOf s.nextMsg = s.nextReq)
    (traffic : after.traffic = s.traffic) (log : after.log = s.log)
    {threads : List (Thread Actor Op)}
    (unmentioned : ∀ thread ∈ threads, ∀ op ∈ thread.ops,
      s.nextMsg ∉ op.mentions) :
    Aside { after with threads := threads } s.nextMsg := by
  have tables := wellScoped.tables
  refine ⟨unmentioned, ?_, ?_, ?_⟩
  · change ¬after.traffic.Holds s.nextMsg
    rw [traffic]
    exact fun held => Nat.lt_irrefl _ (wellScoped.held held)
  · intro nid vn member
    have logged : Obs.sent nid vn s.nextMsg ∈ s.log := log ▸ member
    exact Nat.lt_irrefl s.nextMsg (tables.log _ logged)
  · intro other below same
    change after.reqOf other = after.reqOf s.nextMsg at same
    by_contra different
    have old : other < s.nextMsg := by
      have bound : other < s.nextMsg + 1 := next ▸ below
      exact lt_of_le_of_ne (Nat.lt_succ_iff.mp bound) different
    rw [extends'.reqOf old, request] at same
    exact Nat.lt_irrefl _ (same ▸ tables.parents other old)

/-- What a thread does leaves a message aside, unless it is that message which
gets its slot. -/
theorem run (aside : Aside s msg) (wellScoped : WellScoped s)
    (old : msg < s.nextMsg) {index : ThreadId} {op : Op} {rest new : List Op}
    (found : s.threads[index]? = some ⟨self, op :: rest⟩)
    (others : ∀ ni other, op = .cqAcquire ni other → other ≠ msg)
    (phase : Phase sys self s op after new) (running : after.halted = none) :
    Aside { after with
      threads := s.threads.set index ⟨self, new ++ rest⟩ } msg := by
  have member := List.mem_of_getElem? found
  have within := wellScoped.ops _ member _ List.mem_cons_self
  have silent := aside.unmentioned _ member op List.mem_cons_self
  have later : msg ≠ s.nextMsg := ne_of_lt old
  refine ⟨?_, ?_, ?_, ?_⟩
  · intro thread threadMember pending pendingMember mentioned
    rcases List.mem_or_eq_of_mem_set threadMember with before | rfl
    · exact aside.unmentioned thread before pending pendingMember mentioned
    · rcases List.mem_append.mp pendingMember with added | kept
      · cases acquire : op.isCqAcquire with
        | false =>
            rcases (phase.follows pending added).mentions acquire mentioned with
              before | equal
            · exact silent before
            · exact later equal
        | true =>
            cases op with
            | cqAcquire ni other =>
                cases phase.follows pending added with
                | cqAcquired =>
                    exact others ni other rfl (List.mem_singleton.mp mentioned).symm
            | _ => cases acquire
      · exact aside.unmentioned _ member pending (List.mem_cons_of_mem _ kept)
          mentioned
  · intro holds
    rcases (phase.carries within).holds running holds with
      before | mentioned | equal
    · exact aside.unqueued before
    · exact silent mentioned
    · exact later equal
  · intro nid vn logged
    obtain ⟨extra, log, emitted⟩ := phase.emits within
    have either : Obs.sent nid vn msg ∈ s.log ++ extra := log ▸ logged
    rcases List.mem_append.mp either with before | sent
    · exact aside.unsent nid vn before
    · exact silent (emitted _ sent).sent_mentioned
  · intro other below same
    have grows := phase.extends
    change after.reqOf other = after.reqOf msg at same
    rw [grows.reqOf old] at same
    rcases phase.creates within with kept | ⟨created, creates, next, fixed⟩
    · have before : other < s.nextMsg := kept ▸ below
      rw [grows.reqOf before] at same
      exact aside.sole other before same
    · by_cases new : other = s.nextMsg
      · exfalso
        obtain ⟨answered, mentioned, parent⟩ := creates.mentioned
        rw [new, (fresh_of_fixed fixed).reqOf, parent] at same
        have answers := aside.sole answered (within.mentions _ mentioned) same
        exact silent (answers ▸ mentioned)
      · have bound : other < s.nextMsg + 1 := next ▸ below
        have before := lt_of_le_of_ne (Nat.lt_succ_iff.mp bound) new
        rw [grows.reqOf before] at same
        exact aside.sole other before same

/-- An idle actor takes a message from a queue, or makes an API call. -/
theorem start (aside : Aside s msg) (old : msg < s.nextMsg)
    {index : ThreadId} {new : List Op} (grows : Extends s after)
    (traffic : ∀ other, after.traffic.Holds other → s.traffic.Holds other)
    (log : after.log = s.log)
    (added : ∀ op ∈ new, ∀ other ∈ op.mentions, s.traffic.Holds other)
    (created : ∀ other < after.nextMsg, s.nextMsg ≤ other →
      after.reqOf other = s.nextReq)
    (parent : s.reqOf msg < s.nextReq) :
    Aside { after with threads := s.threads.set index ⟨self, new⟩ } msg := by
  refine ⟨?_, fun holds => aside.unqueued (traffic msg holds), ?_, ?_⟩
  · intro thread threadMember op pendingOp mentioned
    rcases List.mem_or_eq_of_mem_set threadMember with before | rfl
    · exact aside.unmentioned thread before op pendingOp mentioned
    · exact aside.unqueued (added op pendingOp msg mentioned)
  · intro nid vn logged
    exact aside.unsent nid vn (log ▸ logged)
  · intro other below same
    change after.reqOf other = after.reqOf msg at same
    rw [grows.reqOf old] at same
    by_cases before : other < s.nextMsg
    · rw [grows.reqOf before] at same
      exact aside.sole other before same
    · rw [created other below (not_lt.mp before)] at same
      exact absurd parent (same ▸ Nat.lt_irrefl _)

end Aside

/-- The message of a request which waits for its slot is aside. -/
def Attended (s : State) : Prop :=
  EveryPending (fun _ op => ∀ ni msg, op = .cqAcquire ni msg →
    ni = (s.parent msg).md.ni ∧ Aside s msg) s.threads

section Attended

variable {sys : Sys} {self : Actor} {s after : State}

theorem Follows.not_cqAcquire {op added : Op}
    (follows : Follows sys self s op added) : added.isCqAcquire = false := by
  cases follows with
  | @matched msg pt list me fail kind type found => cases kind <;> rfl
  | _ => rfl

theorem Extends.parent_ni (grows : Extends s after) (allocated : Allocated s)
    {msg : MsgId} (old : msg < s.nextMsg) :
    (after.parent msg).md.ni = (s.parent msg).md.ni :=
  (congrArg (fun r => r.md.ni) (grows.parent old allocated) :)

theorem Attended.run (attended : Attended s) (wellScoped : WellScoped s)
    (once : ∀ msg, s.submissions msg ≤ 1) {index : ThreadId} {op : Op}
    {rest new : List Op}
    (found : s.threads[index]? = some ⟨self, op :: rest⟩)
    (phase : Phase sys self s op after new) (running : after.halted = none) :
    Attended { after with
      threads := s.threads.set index ⟨self, new ++ rest⟩ } := by
  intro thread threadMember pending pendingMember ni msg equal
  subst equal
  rcases mem_set_append threadMember pendingMember with added | ⟨other, kept, member⟩
  · cases (phase.follows _ added).not_cqAcquire
  have others : ∀ ni other, op = .cqAcquire ni other → other ≠ msg := by
    rintro ni other rfl rfl
    have single : Lib.pending (Op.submitting other) s.threads ≤
        (Op.cqAcquire ni other).submitting other := by
      have bound := once other
      simp only [State.submissions, Op.submitting, if_true] at bound ⊢
      omega
    have light := weight_eq_zero_of_first found single _ kept _ member
    simp [Op.submitting] at light
  obtain ⟨before, beforeMember, pendingBefore⟩ : ∃ before ∈ s.threads,
      Op.cqAcquire ni msg ∈ before.ops := by
    rcases List.mem_or_eq_of_mem_set kept with old | rfl
    · exact ⟨other, old, member⟩
    · exact ⟨_, List.mem_of_getElem? found, List.mem_cons_of_mem _ member⟩
  obtain ⟨interface, aside⟩ :=
    attended before beforeMember _ pendingBefore ni msg rfl
  have old : msg < s.nextMsg :=
    wellScoped.ops before beforeMember _ pendingBefore
  exact ⟨interface.trans (phase.extends.parent_ni wellScoped.tables old).symm,
    aside.run wellScoped old found others phase running⟩

/-- An idle actor starts without asking for a slot. -/
theorem Attended.start (attended : Attended s) (wellScoped : WellScoped s)
    {index : ThreadId} {new : List Op} (grows : Extends s after)
    (traffic : ∀ other, after.traffic.Holds other → s.traffic.Holds other)
    (log : after.log = s.log)
    (added : ∀ op ∈ new, ∀ other ∈ op.mentions, s.traffic.Holds other)
    (created : ∀ other < after.nextMsg, s.nextMsg ≤ other →
      after.reqOf other = s.nextReq)
    (asked : ∀ op ∈ new, ∀ ni msg, op = .cqAcquire ni msg →
      ni = (after.parent msg).md.ni ∧ Aside { after with
        threads := s.threads.set index ⟨self, new⟩ } msg) :
    Attended { after with threads := s.threads.set index ⟨self, new⟩ } := by
  refine EveryPending.set ?_ asked
  intro thread member op pendingOp ni msg equal
  obtain ⟨interface, aside⟩ := attended thread member op pendingOp ni msg equal
  have old : msg < s.nextMsg := by
    have within := wellScoped.ops thread member op pendingOp
    subst equal
    exact within
  exact ⟨interface.trans (grows.parent_ni wellScoped.tables old).symm,
    aside.start old grows traffic log added created
      (wellScoped.tables.parents msg old)⟩

theorem Attended.call (attended : Attended s) (wellScoped : WellScoped s)
    {index : ThreadId} {call : Call} {new : List Op}
    (phase : CallPhase sys self s call after new) :
    Attended { after with threads := s.threads.set index ⟨self, new⟩ } := by
  have grows := phase.extends
  obtain ⟨traffic, log, nothing⟩ := phase.carries
  have kept : after.nextMsg = s.nextMsg →
      ∀ other < after.nextMsg, s.nextMsg ≤ other →
        after.reqOf other = s.nextReq := by
    intro same other below above
    exact absurd (same ▸ below) (not_lt.mpr above)
  refine attended.start wellScoped grows (fun other => traffic ▸ id) log ?_ ?_ ?_
  · cases phase with
    | appendOverflow taken => exact issueLink_every (by simp [Op.mentions])
    | _ => simp [Op.mentions]
  · cases phase with
    | ptFree taken equality frees =>
        obtain ⟨drops, sameMes⟩ := frees
        cases drops
        exact kept rfl
    | meUnlink free unlinks => exact kept unlinks.nextMsg
    | @request cmd =>
        intro other below above
        have last : other = s.nextMsg :=
          Nat.le_antisymm (Nat.lt_succ_iff.mp below) above
        subst last
        simp [State.reqOf, ptlRequest, State.newMsg, newRequestMsg]
    | _ => exact kept rfl
  · cases phase with
    | @request cmd =>
        simp only [List.mem_singleton]
        rintro op rfl ni msg equal
        cases equal
        refine ⟨?_, Aside.fresh wellScoped grows rfl ?_ traffic log ?_⟩
        · simp [State.parent, State.reqOf, ptlRequest, State.newMsg,
            newRequestMsg, newRequest]
        · simp [State.reqOf, ptlRequest, State.newMsg, newRequestMsg]
        · intro thread member op pendingOp mentioned
          rcases List.mem_or_eq_of_mem_set member with old | rfl
          · have within := wellScoped.ops thread old op pendingOp
            exact Nat.lt_irrefl _ (within.mentions _ mentioned)
          · simp only [List.mem_singleton] at pendingOp
            subst pendingOp
            cases mentioned
    | appendOverflow taken => exact issueLink_every (by simp)
    | _ => simp

theorem Attended.advances (attended : Attended s) (wellScoped : WellScoped s)
    (once : ∀ msg, s.submissions msg ≤ 1) {index : ThreadId} {label : Label}
    (advances : Advances sys s index label after)
    (running : after.halted = none) : Attended after := by
  cases advances.moves with
  | dangling => cases running
  | run found phase => exact attended.run wellScoped once found phase running
  | @pick _ self msg new mid picks idle =>
      refine attended.start wellScoped picks.grows picks.traffic picks.log
        (picks.every ?_ ?_ ?_ ?_) ?_ (picks.every ?_ ?_ ?_ ?_)
      case refine_5 =>
          intro other below above
          rw [picks.nextMsg] at below
          exact absurd below (not_lt.mpr above)
      case refine_2 => exact nofun
      case refine_1 | refine_3 | refine_4 =>
          intro other mentioned
          rw [List.mem_singleton.mp mentioned]
          exact picks.held
      all_goals exact nofun
  | call found phase => exact attended.call wellScoped phase

theorem ReachedBy.attended {allowed : State → Label → Prop}
    (reached : ReachedBy sys allowed s) (running : s.halted = none) :
    Attended s := by
  let Along (state : State) : Prop := state.halted = none → Attended state
  have along : Along s := by
    refine reached.invariant_of_reached ?_ ?_
    · intro _ thread member op pendingOp
      obtain ⟨actor, _, rfl⟩ := List.mem_map.mp member
      cases pendingOp
    · intro before after label earlier attended _ stepped running
      exact (attended (step_enabled stepped).1).advances
        (ReachedBy.wellScoped earlier)
        (ReachedBy.submissions_le_one earlier) (step_advances stepped) running
  exact along running

end Attended

/-! ## Slots -/

/-- Whether a message opens a request. -/
def State.isCommand (s : State) (req : ReqId) (msg : MsgId) : Bool :=
  (s.msgs msg).type.isRequest && s.reqOf msg == req

/-- Whether an operation sends a message of a request which `handle_put` or
`handle_get` has taken. -/
def Op.taking (s : State) (req : ReqId) : Op → Nat
  | .commInit msg | .commStart msg => (s.isCommand req msg).toNat
  | _ => 0

def Obs.taken (s : State) (req : ReqId) : Obs → Bool
  | .sent _ _ msg => s.isCommand req msg
  | _ => false

/-- Whether an operation waits for the slot of a request. -/
def Op.awaiting (s : State) (req : ReqId) : Op → Nat
  | .cqAcquire _ msg => if s.reqOf msg = req then 1 else 0
  | _ => 0

namespace State

/-- How often `handle_put` or `handle_get` took a message of a request. -/
def takes (s : State) (req : ReqId) : Nat :=
  pending (Op.taking s req) s.threads + s.log.countP (Obs.taken s req)

/-- The number of API calls blocked in `cq->acquire()` for a request. -/
def awaits (s : State) (req : ReqId) : Nat :=
  pending (Op.awaiting s req) s.threads

/-- The number of requests of an interface which got their slot and were not
taken yet. -/
def outstanding (s : State) (ni : NiId) : Nat :=
  ((Finset.range s.nextReq).filter fun req =>
    (s.reqs req).md.ni = ni ∧ s.awaits req = 0 ∧ s.takes req = 0).card

/-- What a request contributes to the free slots of an interface. -/
def contribution (s : State) (ni : NiId) (req : ReqId) : Int :=
  if (s.reqs req).md.ni = ni then (s.takes req : Int) + s.awaits req - 1 else 0

end State

/-- The free slots are those which are not taken by the requests. -/
def Conserved (s : State) : Prop :=
  ∀ ni, s.cqs ni = cqInitialCapacity +
    ∑ req ∈ Finset.range s.nextReq, s.contribution ni req

section Slots

variable {sys : Sys} {self : Actor} {s after : State}

theorem Op.taking_of_idle {op : Op} (idle : op.carrying = false)
    (req : ReqId) : op.taking s req = 0 := by
  cases op <;> first | rfl | cases idle

theorem taking_of_nothing {ops : List Op}
    (nothing : ∀ op ∈ ops, op.carrying = false) (req : ReqId) :
    opsWeight (Op.taking s req) ops = 0 :=
  opsWeight_eq_zero fun op member => Op.taking_of_idle (nothing op member) req

theorem Silent.taken (silent : Silent s after) (req : ReqId) :
    after.log.countP (Obs.taken s req) = s.log.countP (Obs.taken s req) := by
  obtain ⟨extra, log, quiet⟩ := silent
  have absent : extra.countP (Obs.taken s req) = 0 := by
    apply List.countP_eq_zero.mpr
    intro obs member taken
    have still := quiet obs member
    cases obs with
    | sent => cases still
    | _ => cases taken
  rw [log, List.countP_append, absent, Nat.add_zero]

/-- Only `handle_put` and `handle_get` take messages. -/
theorem Carries.takes {op : Op} {new : List Op}
    (carries : Carries sys self s op after new) (running : after.halted = none)
    (passing : ∀ msg, op = .processTx msg →
      (checkFlowctrl sys s self.nid msg).1 ≠ .granted) (req : ReqId) :
    opsWeight (Op.taking s req) new + after.log.countP (Obs.taken s req) =
      op.taking s req + s.log.countP (Obs.taken s req) := by
  cases carries with
  | still idle nothing traffic silent =>
      rw [taking_of_nothing nothing, Op.taking_of_idle idle, silent.taken]
  | submit traffic log => simp [log, Op.taking, Obs.taken, List.countP_append]
  | retry on traffic log => simp [log, Op.taking, Obs.taken, List.countP_append]
  | mailbox off traffic log => simp [log, Op.taking]
  | pass passes nothing traffic silent => exact absurd passes (passing _ rfl)
  | park subject refused traffic log => simp [log, Op.taking]
  | init before nothing =>
      rw [opsWeight_append, taking_of_nothing nothing]
      simp [Op.taking]
  | @start msg after traffic log =>
      rw [log, List.countP_append, opsWeight_nil]
      cases command : s.isCommand req msg <;>
        simp [Op.taking, Obs.taken, command]
      omega
  | push waiting traffic log => simp [log, Op.taking]
  | pop waiting traffic log => simp [log, Op.taking]
  | enqueue traffic log => simp [log, Op.taking]
  | stop halted => exact absurd running halted

/-- How an operation uses the slots of the command queues. -/
inductive Slots (sys : Sys) (self : Actor) (s : State) :
    Op → State → List Op → Prop where
  | kept {op after new} (cqs : after.cqs = s.cqs)
      (other : op.isCqAcquire = false)
      (takes : ∀ req, opsWeight (Op.taking s req) new +
          after.log.countP (Obs.taken s req) =
        op.taking s req + s.log.countP (Obs.taken s req)) :
      Slots sys self s op after new
  | given {msg after new}
      (passes : (checkFlowctrl sys s self.nid msg).1 = .granted)
      (request : (s.msgs msg).type.isRequest = true)
      (cqs : after.cqs = Function.update s.cqs (s.parent msg).md.ni
        (s.cqs (s.parent msg).md.ni + 1))
      (takes : ∀ req, opsWeight (Op.taking s req) new +
          after.log.countP (Obs.taken s req) =
        s.log.countP (Obs.taken s req) + (s.isCommand req msg).toNat) :
      Slots sys self s (.processTx msg) after new
  | used {ni msg after}
      (cqs : after.cqs = Function.update s.cqs ni (s.cqs ni - 1))
      (log : after.log = s.log) :
      Slots sys self s (.cqAcquire ni msg) after [.txPut msg]

theorem Unlinks.cqs {me : MeId} (unlinks : Unlinks s me after) :
    after.cqs = s.cqs := by
  cases unlinks <;> rfl

theorem Leaves.cqs {me : MeId} {before following : List Op}
    (leaves : Leaves s me after before following) : after.cqs = s.cqs := by
  cases leaves with
  | kept staying => rfl
  | unlinked eq event leaving unlinks kind => exact unlinks.cqs

theorem deposit_cqs (s : State) (msg : MsgId) (pt : PtId) (list : PtlList)
    (me : MeId) (fail : NiFailType) (kind : ReqType) :
    (deposit s msg pt list me fail kind).cqs = s.cqs := by
  cases kind <;> cases list <;> rfl

theorem retransmit_cqs (s : State) (msg : MsgId) :
    (retransmit sys self s msg).cqs = s.cqs := by
  unfold retransmit
  dsimp only
  split <;> rfl

/-- A message which passes flow control is taken, and a request gives its slot
back. -/
theorem slots_pass {msg : MsgId}
    (passes : (checkFlowctrl sys s self.nid msg).1 = .granted)
    (cqs : after.cqs = (releaseCq s msg).cqs) (silent : Silent s after) :
    Slots sys self s (.processTx msg) after (transmit s msg) := by
  obtain ⟨tail, ops, nothing⟩ := transmit_carries s msg
  have takes : ∀ req, opsWeight (Op.taking s req) (transmit s msg) +
      after.log.countP (Obs.taken s req) =
        s.log.countP (Obs.taken s req) + (s.isCommand req msg).toNat := by
    intro req
    rw [ops, opsWeight_cons, taking_of_nothing nothing, silent.taken]
    simp only [Op.taking]
    omega
  cases request : (s.msgs msg).type.isRequest with
  | true =>
      refine .given passes request ?_ takes
      rw [cqs]
      simp [releaseCq, request, State.parent]
  | false =>
      refine .kept ?_ rfl fun req => ?_
      · rw [cqs]
        simp [releaseCq, request]
      · rw [takes]
        simp [State.isCommand, request, Op.taking]

theorem Phase.slots {op : Op} {new : List Op}
    (phase : Phase sys self s op after new) (within : op.Within s.bounds)
    (running : after.halted = none) : Slots sys self s op after new := by
  have carries := phase.carries within
  have silent := phase.silent within
  have kept : op.isCqAcquire = false → after.cqs = s.cqs →
      (∀ msg, op = .processTx msg →
        (checkFlowctrl sys s self.nid msg).1 ≠ .granted) →
      Slots sys self s op after new := fun other cqs passing =>
    .kept cqs other (carries.takes running passing)
  cases phase with
  | quiet quiet =>
      refine kept ?_ rfl ?_
      · cases quiet <;> rfl
      · cases quiet <;> nofun
  | matched type fresh found memory later stops =>
      exact kept rfl (deposit_cqs _ _ _ _ _ _ _) nofun
  | @respondUnmatched msg fail kind type fetches fresh absent =>
      exact kept rfl (by cases kind <;> rfl) nofun
  | putFinish leaves => exact kept rfl leaves.cqs nofun
  | getFinish memory stops leaves => exact kept rfl leaves.cqs nofun
  | atomicEvents leaves => exact kept rfl leaves.cqs nofun
  | fetchAtomicFinish leaves => exact kept rfl leaves.cqs nofun
  | deferredUnlink flagged unlinks => exact kept rfl unlinks.cqs nofun
  | unref equality drops =>
      cases drops
      exact kept rfl rfl nofun
  | exempt free =>
      refine slots_pass ?_ rfl (silent (by simp) (by simp) (by simp))
      rw [checkFlowctrl_answer, if_pos free]
  | granted subject checked =>
      refine slots_pass ?_ rfl (silent (by simp) (by simp) (by simp))
      rw [checkFlowctrl_answer, subject, checked]
      rfl
  | refused subject checked =>
      refine kept rfl rfl ?_
      rintro msg ⟨rfl⟩
      rw [checkFlowctrl_answer, subject, checked]
      exact nofun
  | creditsPanic subject checked => cases running
  | retransmit pending more => exact kept rfl (retransmit_cqs _ _) nofun
  | cqAcquire left => exact .used rfl rfl
  | _ => exact kept rfl rfl nofun

theorem Extends.isCommand (grows : Extends s after) {msg : MsgId}
    (old : msg < s.nextMsg) (req : ReqId) :
    after.isCommand req msg = s.isCommand req msg := by
  unfold State.isCommand
  rw [grows.type old, grows.reqOf old]

theorem Op.taking_congr (grows : Extends s after) {op : Op}
    (within : op.Within s.bounds) (req : ReqId) :
    op.taking after req = op.taking s req := by
  cases op with
  | commInit msg => simp only [Op.taking, grows.isCommand within]
  | commStart msg => simp only [Op.taking, grows.isCommand within]
  | _ => rfl

theorem Op.awaiting_congr (grows : Extends s after) {op : Op}
    (within : op.Within s.bounds) (req : ReqId) :
    op.awaiting after req = op.awaiting s req := by
  cases op with
  | cqAcquire ni msg => simp only [Op.awaiting, grows.reqOf within]
  | _ => rfl

/-- The entries of a log about allocated messages. -/
theorem taken_congr (grows : Extends s after) {log : List Obs}
    (old : ∀ nid vn msg, .sent nid vn msg ∈ log → msg < s.nextMsg)
    (req : ReqId) :
    log.countP (Obs.taken after req) = log.countP (Obs.taken s req) := by
  apply List.countP_congr
  intro obs member
  cases obs with
  | sent nid vn msg =>
      simp only [Obs.taken, grows.isCommand (old nid vn msg member)]
  | _ => rfl

theorem takes_run (wellScoped : WellScoped s) {index : ThreadId} {op : Op}
    {rest new : List Op}
    (found : s.threads[index]? = some ⟨self, op :: rest⟩)
    (phase : Phase sys self s op after new) (req : ReqId) :
    State.takes { after with
        threads := s.threads.set index ⟨self, new ++ rest⟩ } req +
        op.taking s req + s.log.countP (Obs.taken s req) =
      s.takes req + opsWeight (Op.taking s req) new +
        after.log.countP (Obs.taken s req) := by
  have grows := phase.extends
  have within := wellScoped.ops _ (List.mem_of_getElem? found) _
    List.mem_cons_self
  have weights := @pending_set _ _ (Op.taking after req) _ _ _
    ⟨self, new ++ rest⟩ found
  have others : pending (Op.taking after req) s.threads =
      pending (Op.taking s req) s.threads :=
    pending_congr fun thread member op pendingOp =>
      Op.taking_congr grows (wellScoped.ops thread member op pendingOp) req
  have added : opsWeight (Op.taking after req) new =
      opsWeight (Op.taking s req) new := by
    refine congrArg List.sum (List.map_congr_left fun added member => ?_)
    cases carries : added.carrying with
    | false => rw [Op.taking_of_idle carries, Op.taking_of_idle carries]
    | true =>
        rcases (phase.follows added member).carrying carries with
          ⟨msg, rfl, rfl⟩ | ⟨msg, rfl, rfl⟩ | ⟨nid, vn, rfl, rfl⟩
        · simp only [Op.taking, grows.isCommand within]
        · simp only [Op.taking, grows.isCommand within]
        · rfl
  have logged : after.log.countP (Obs.taken after req) =
      after.log.countP (Obs.taken s req) := by
    refine taken_congr grows (fun nid vn msg member => ?_) req
    obtain ⟨extra, log, emitted⟩ := phase.emits within
    rw [log] at member
    rcases List.mem_append.mp member with before | sent
    · exact wellScoped.tables.log _ before
    · exact within.mentions _ (emitted _ sent).sent_mentioned
  have first := Op.taking_congr grows within req
  simp only [opsWeight_append, opsWeight_cons] at weights
  change pending (Op.taking after req) (s.threads.set index ⟨self, new ++ rest⟩) +
    after.log.countP (Obs.taken after req) + _ + _ = _
  unfold State.takes
  omega

theorem awaits_run (wellScoped : WellScoped s) {index : ThreadId} {op : Op}
    {rest new : List Op}
    (found : s.threads[index]? = some ⟨self, op :: rest⟩)
    (phase : Phase sys self s op after new) (req : ReqId) :
    State.awaits { after with
        threads := s.threads.set index ⟨self, new ++ rest⟩ } req +
        op.awaiting s req =
      s.awaits req := by
  have grows := phase.extends
  have within := wellScoped.ops _ (List.mem_of_getElem? found) _
    List.mem_cons_self
  have weights := @pending_set _ _ (Op.awaiting after req) _ _ _
    ⟨self, new ++ rest⟩ found
  have others : pending (Op.awaiting after req) s.threads =
      pending (Op.awaiting s req) s.threads :=
    pending_congr fun thread member op pendingOp =>
      Op.awaiting_congr grows (wellScoped.ops thread member op pendingOp) req
  have added : opsWeight (Op.awaiting after req) new = 0 := by
    apply opsWeight_eq_zero
    intro added member
    have other := (phase.follows added member).not_cqAcquire
    cases added with
    | cqAcquire ni msg => cases other
    | _ => rfl
  have first := Op.awaiting_congr grows within req
  simp only [opsWeight_append, opsWeight_cons] at weights
  change pending (Op.awaiting after req)
    (s.threads.set index ⟨self, new ++ rest⟩) + _ = _
  unfold State.awaits
  omega

/-- The contribution of one request changes. -/
theorem sum_contribution {count : Nat} {changed : ReqId}
    {before later : ReqId → Int} {amount : Int} (old : changed < count)
    (step : ∀ req < count, later req =
      before req + if req = changed then amount else 0) :
    ∑ req ∈ Finset.range count, later req =
      ∑ req ∈ Finset.range count, before req + amount := by
  rw [Finset.sum_congr rfl fun req member =>
    step req (Finset.mem_range.mp member), Finset.sum_add_distrib,
    Finset.sum_ite_eq', if_pos (Finset.mem_range.mpr old)]

/-- The slots of an interface change with the contribution of one request. -/
theorem Conserved.change {later : State} {home : NiId} {changed : ReqId}
    {amount : Int} (conserved : Conserved s) (old : changed < s.nextReq)
    (here : (s.reqs changed).md.ni = home)
    (nextReq : later.nextReq = s.nextReq)
    (interface : ∀ req < s.nextReq,
      (later.reqs req).md.ni = (s.reqs req).md.ni)
    (cqs : later.cqs = Function.update s.cqs home (s.cqs home + amount))
    (others : ∀ req, (later.takes req : Int) + later.awaits req =
      s.takes req + s.awaits req + if req = changed then amount else 0) :
    Conserved later := by
  intro ni
  have before := conserved ni
  have sum := @sum_contribution s.nextReq changed (s.contribution ni)
    (later.contribution ni) (if home = ni then amount else 0) old
    fun req below => by
      have change := others req
      unfold State.contribution
      rw [interface req below]
      by_cases same : req = changed
      · subst same
        rw [here]
        rw [if_pos rfl] at change ⊢
        by_cases owner : home = ni
        · simp only [owner, if_true]
          omega
        · simp only [owner, if_false]
          rfl
      · rw [if_neg same] at change ⊢
        by_cases owner : (s.reqs req).md.ni = ni
        · rw [if_pos owner, if_pos owner]
          omega
        · rw [if_neg owner, if_neg owner]
          rfl
  rw [nextReq, sum, cqs, Function.update_apply]
  by_cases owner : ni = home
  · subst owner
    rw [if_pos rfl, if_pos rfl, before]
    omega
  · rw [if_neg owner, if_neg (Ne.symm owner), before]
    omega

/-- No request changes its contribution. -/
theorem Conserved.keep {later : State} (conserved : Conserved s)
    (nextReq : later.nextReq = s.nextReq)
    (interface : ∀ req < s.nextReq,
      (later.reqs req).md.ni = (s.reqs req).md.ni)
    (cqs : later.cqs = s.cqs)
    (others : ∀ req, later.takes req + later.awaits req =
      s.takes req + s.awaits req) : Conserved later := by
  intro ni
  rw [nextReq, cqs, conserved ni]
  congr 1
  refine Finset.sum_congr rfl fun req member => ?_
  have change := others req
  unfold State.contribution
  rw [interface req (Finset.mem_range.mp member)]
  split
  · omega
  · rfl

theorem Conserved.run (conserved : Conserved s) (wellScoped : WellScoped s)
    (attended : Attended s) {index : ThreadId} {op : Op} {rest new : List Op}
    (found : s.threads[index]? = some ⟨self, op :: rest⟩)
    (phase : Phase sys self s op after new) (running : after.halted = none) :
    Conserved { after with
      threads := s.threads.set index ⟨self, new ++ rest⟩ } := by
  have member := List.mem_of_getElem? found
  have within := wellScoped.ops _ member _ List.mem_cons_self
  have takes := takes_run wellScoped found phase
  have awaits := awaits_run wellScoped found phase
  have interface : ∀ req < s.nextReq,
      (after.reqs req).md.ni = (s.reqs req).md.ni := fun req old =>
    (congrArg (fun r => r.md.ni) (phase.extends.reqs req old) :)
  cases phase.slots within running with
  | kept cqs other exchanged =>
      refine conserved.keep phase.nextReq interface cqs fun req => ?_
      have silent : op.awaiting s req = 0 := by
        cases op with
        | cqAcquire ni msg => cases other
        | _ => rfl
      have took := takes req
      have awaited := awaits req
      have exchange := exchanged req
      omega
  | @given msg after new passes request cqs exchanged =>
      refine conserved.change (wellScoped.tables.parents msg within) rfl
        phase.nextReq interface cqs fun req => ?_
      have took := takes req
      have awaited := awaits req
      have exchange := exchanged req
      simp only [Op.awaiting, Op.taking, State.isCommand, request,
        Bool.true_and] at took awaited exchange
      by_cases same : req = s.reqOf msg
      · subst same
        simp only [BEq.rfl, Bool.toNat_true] at exchange
        rw [if_pos rfl]
        omega
      · simp only [beq_eq_false_iff_ne.mpr (Ne.symm same),
          Bool.toNat_false] at exchange
        rw [if_neg same]
        omega
  | @used home msg after cqs log =>
      obtain ⟨here, aside⟩ := attended _ member _ List.mem_cons_self home msg rfl
      refine conserved.change (wellScoped.tables.parents msg within) here.symm
        phase.nextReq interface cqs fun req => ?_
      have took := takes req
      have awaited := awaits req
      have logged : after.log.countP (Obs.taken s req) =
          s.log.countP (Obs.taken s req) := by rw [log]
      simp only [Op.taking, opsWeight_cons, opsWeight_nil] at took
      simp only [Op.awaiting] at awaited
      by_cases same : req = s.reqOf msg
      · subst same
        rw [if_pos rfl] at awaited ⊢
        omega
      · rw [if_neg (Ne.symm same)] at awaited
        rw [if_neg same]
        omega

/-- What an idle actor starts with takes no message. -/
theorem takes_start (wellScoped : WellScoped s) {index : ThreadId}
    (found : s.threads[index]? = some ⟨self, []⟩) (new : List Op)
    (grows : Extends s after) (log : after.log = s.log)
    (silent : ∀ req, ∀ op ∈ new, op.taking after req = 0) (req : ReqId) :
    State.takes { after with threads := s.threads.set index ⟨self, new⟩ } req =
      s.takes req := by
  have weights := @pending_set _ _ (Op.taking after req) _ _ _ ⟨self, new⟩ found
  have others : pending (Op.taking after req) s.threads =
      pending (Op.taking s req) s.threads :=
    pending_congr fun thread member op pendingOp =>
      Op.taking_congr grows (wellScoped.ops thread member op pendingOp) req
  have logged := taken_congr grows (fun nid vn msg member =>
    wellScoped.tables.log (.sent nid vn msg) member) req
  have added := opsWeight_eq_zero (silent req)
  simp only [opsWeight_nil] at weights
  change pending (Op.taking after req) (s.threads.set index ⟨self, new⟩) +
    after.log.countP (Obs.taken after req) = _
  rw [log]
  unfold State.takes
  omega

theorem awaits_start (wellScoped : WellScoped s) {index : ThreadId}
    (found : s.threads[index]? = some ⟨self, []⟩) (new : List Op)
    (grows : Extends s after) (req : ReqId) :
    State.awaits { after with threads := s.threads.set index ⟨self, new⟩ } req =
      s.awaits req + opsWeight (Op.awaiting after req) new := by
  have weights := @pending_set _ _ (Op.awaiting after req) _ _ _ ⟨self, new⟩
    found
  have others : pending (Op.awaiting after req) s.threads =
      pending (Op.awaiting s req) s.threads :=
    pending_congr fun thread member op pendingOp =>
      Op.awaiting_congr grows (wellScoped.ops thread member op pendingOp) req
  simp only [opsWeight_nil] at weights
  change pending (Op.awaiting after req) (s.threads.set index ⟨self, new⟩) = _
  unfold State.awaits
  omega

theorem Conserved.start (conserved : Conserved s) (wellScoped : WellScoped s)
    {index : ThreadId} {new : List Op}
    (found : s.threads[index]? = some ⟨self, []⟩) (grows : Extends s after)
    (nextReq : after.nextReq = s.nextReq) (cqs : after.cqs = s.cqs)
    (log : after.log = s.log)
    (takes : ∀ req, ∀ op ∈ new, op.taking after req = 0)
    (awaits : ∀ req, ∀ op ∈ new, op.awaiting after req = 0) :
    Conserved { after with threads := s.threads.set index ⟨self, new⟩ } := by
  refine conserved.keep nextReq ?_ cqs fun req => ?_
  · intro req old
    exact (congrArg (fun r => r.md.ni) (grows.reqs req old) :)
  · rw [takes_start wellScoped found new grows log takes,
      awaits_start wellScoped found new grows, opsWeight_eq_zero (awaits req),
      Nat.add_zero]

/-- A request which does not exist was not taken and waits for nothing. -/
theorem WellScoped.takes_fresh (wellScoped : WellScoped s) :
    s.takes s.nextReq = 0 ∧ s.awaits s.nextReq = 0 := by
  have other : ∀ msg < s.nextMsg, ¬s.reqOf msg = s.nextReq :=
    fun msg old => ne_of_lt (wellScoped.tables.parents msg old)
  have command : ∀ msg < s.nextMsg, s.isCommand s.nextReq msg = false := by
    intro msg old
    unfold State.isCommand
    rw [beq_eq_false_iff_ne.mpr (other msg old), Bool.and_false]
  have log : s.log.countP (Obs.taken s s.nextReq) = 0 := by
    apply List.countP_eq_zero.mpr
    intro obs member taken
    cases obs with
    | sent nid vn msg =>
        have old : msg < s.nextMsg := wellScoped.tables.log _ member
        simp only [Obs.taken, command msg old] at taken
        cases taken
    | _ => cases taken
  constructor
  · unfold State.takes
    rw [log, Nat.add_zero]
    apply pending_eq_zero
    intro thread member op pendingOp
    have within := wellScoped.ops thread member op pendingOp
    cases op with
    | commInit msg => simp only [Op.taking, command msg within, Bool.toNat_false]
    | commStart msg =>
        simp only [Op.taking, command msg within, Bool.toNat_false]
    | _ => rfl
  · apply pending_eq_zero
    intro thread member op pendingOp
    have within := wellScoped.ops thread member op pendingOp
    cases op with
    | cqAcquire ni msg => simp only [Op.awaiting, other msg within, if_false]
    | _ => rfl

/-- A new request waits for its slot. -/
theorem Conserved.request (conserved : Conserved s) (wellScoped : WellScoped s)
    {index : ThreadId} (cmd : Command)
    (found : s.threads[index]? = some ⟨self, []⟩) :
    Conserved { ptlRequest sys self s cmd with
      threads := s.threads.set index
        ⟨self, [.cqAcquire cmd.md.ni s.nextMsg]⟩ } := by
  have phase : CallPhase sys self s (.request cmd) _ _ := .request
  have grows := phase.extends
  have fresh : (ptlRequest sys self s cmd).reqOf s.nextMsg = s.nextReq := by
    simp [State.reqOf, ptlRequest, State.newMsg, newRequestMsg]
  have takes := takes_start wellScoped found [.cqAcquire cmd.md.ni s.nextMsg]
    grows rfl (by simp [Op.taking])
  have awaits := awaits_start wellScoped found
    [.cqAcquire cmd.md.ni s.nextMsg] grows
  intro ni
  change s.cqs ni = cqInitialCapacity +
    ∑ req ∈ Finset.range (s.nextReq + 1), State.contribution
      { ptlRequest sys self s cmd with
        threads := s.threads.set index
          ⟨self, [.cqAcquire cmd.md.ni s.nextMsg]⟩ } ni req
  rw [Finset.sum_range_succ, conserved ni]
  have last : State.contribution { ptlRequest sys self s cmd with
      threads := s.threads.set index
        ⟨self, [.cqAcquire cmd.md.ni s.nextMsg]⟩ } ni s.nextReq = 0 := by
    unfold State.contribution
    rw [takes, awaits, wellScoped.takes_fresh.1, wellScoped.takes_fresh.2]
    simp [Op.awaiting, fresh]
  rw [last, Int.add_zero]
  congr 1
  refine Finset.sum_congr rfl fun req member => ?_
  have old := Finset.mem_range.mp member
  have same : ((ptlRequest sys self s cmd).reqs req).md.ni =
      (s.reqs req).md.ni :=
    (congrArg (fun r => r.md.ni) (grows.reqs req old) :)
  unfold State.contribution
  rw [takes, awaits]
  simp only [same, opsWeight_cons, opsWeight_nil, Op.awaiting, fresh,
    (ne_of_lt old).symm, if_false, Nat.add_zero]

theorem Conserved.advances (conserved : Conserved s)
    (wellScoped : WellScoped s) (attended : Attended s) {index : ThreadId}
    {label : Label} (advances : Advances sys s index label after)
    (running : after.halted = none) : Conserved after := by
  cases advances with
  | dangling dead owner => cases running
  | run found alive phase =>
      exact conserved.run wellScoped attended found phase running
  | recv found target queued =>
      exact conserved.start wellScoped found (Extends.of_tables rfl rfl rfl rfl
        rfl rfl rfl rfl (List.prefix_refl _)) rfl rfl rfl (by simp [Op.taking])
        (by simp [Op.awaiting])
  | take found initiator queued =>
      exact conserved.start wellScoped found (Extends.modNode s _ _) rfl rfl rfl
        (by simp [Op.taking]) (by simp [Op.awaiting])
  | wake found e2e alive queued =>
      exact conserved.start wellScoped found (Extends.modNode s _ _) rfl rfl rfl
        (by simp [Op.taking]) (by simp [Op.awaiting])
  | call found user owned alive phase =>
      have grows := phase.extends
      obtain ⟨traffic, log, nothing⟩ := phase.carries
      have start := fun nextReq cqs => conserved.start wellScoped found grows
        nextReq cqs log fun req op member => Op.taking_of_idle (nothing op member) req
      cases phase with
      | ptFree taken equality frees =>
          obtain ⟨drops, sameMes⟩ := frees
          cases drops
          exact start rfl rfl (by simp)
      | meUnlink free unlinks => exact start unlinks.nextReq unlinks.cqs (by simp)
      | appendOverflow taken =>
          exact start rfl rfl fun req => issueLink_every fun _ _ _ => rfl
      | @request cmd => exact conserved.request wellScoped cmd found
      | _ => exact start rfl rfl (by simp [Op.awaiting])

theorem ReachedBy.conserved {allowed : State → Label → Prop}
    (reached : ReachedBy sys allowed s) (running : s.halted = none) :
    Conserved s := by
  let Along (state : State) : Prop := state.halted = none → Conserved state
  have along : Along s := by
    refine reached.invariant_of_reached ?_ ?_
    · intro _ ni
      simp [initial]
    · intro before after label earlier conserved _ stepped running
      have still := (step_enabled stepped).1
      exact (conserved still).advances (ReachedBy.wellScoped earlier)
        (ReachedBy.attended earlier still) (step_advances stepped) running
  exact along running

/-- A message which is aside is the only one of its request for which a call
may wait. -/
theorem Aside.awaits {msg : MsgId} (aside : Aside s msg)
    (wellScoped : WellScoped s) :
    s.awaits (s.reqOf msg) ≤ pending (Op.submitting msg) s.threads := by
  have agree : s.awaits (s.reqOf msg) = pending (fun op =>
      if op.isCqAcquire then op.submitting msg else 0) s.threads := by
    apply pending_congr
    intro thread member op pendingOp
    cases op with
    | cqAcquire ni other =>
        have below := wellScoped.ops _ member _ pendingOp
        simp only [Op.awaiting, Op.isCqAcquire, Op.submitting, if_true]
        by_cases equal : other = msg
        · rw [equal, if_pos rfl, if_pos rfl]
        · rw [if_neg equal, if_neg fun same =>
            equal (aside.sole other below same)]
    | _ => rfl
  rw [agree]
  refine pending_le_of_le (fun op => ?_) s.threads
  split
  · exact Nat.le_refl _
  · exact Nat.zero_le _

/-- No message was taken for a request whose message is aside. -/
theorem Aside.takes {msg : MsgId} (aside : Aside s msg)
    (wellScoped : WellScoped s) : s.takes (s.reqOf msg) = 0 := by
  have command : ∀ other < s.nextMsg, other ≠ msg →
      s.isCommand (s.reqOf msg) other = false := by
    intro other below different
    unfold State.isCommand
    rw [beq_eq_false_iff_ne.mpr fun same =>
      different (aside.sole other below same), Bool.and_false]
  have log : s.log.countP (Obs.taken s (s.reqOf msg)) = 0 := by
    apply List.countP_eq_zero.mpr
    intro obs logged taken
    cases obs with
    | sent nid vn other =>
        have different : other ≠ msg := by
          rintro rfl
          exact aside.unsent nid vn logged
        simp only [Obs.taken, command other (wellScoped.tables.log _ logged)
          different] at taken
        cases taken
    | _ => cases taken
  unfold State.takes
  rw [log, Nat.add_zero]
  apply pending_eq_zero
  intro thread member op pendingOp
  have below := wellScoped.ops _ member _ pendingOp
  have unmentioned := aside.unmentioned _ member _ pendingOp
  have idle : ∀ carried < s.nextMsg, msg ∉ [carried] →
      (s.isCommand (s.reqOf msg) carried).toNat = 0 := by
    intro carried small absent
    rw [command carried small fun same =>
      absent (same ▸ List.mem_singleton_self _), Bool.toNat_false]
  cases op with
  | commInit carried => exact idle carried below unmentioned
  | commStart carried => exact idle carried below unmentioned
  | _ => rfl

/-- A request waits in at most one call, and is not taken before. -/
theorem ReachedBy.awaits_takes {allowed : State → Label → Prop}
    (reached : ReachedBy sys allowed s) (running : s.halted = none)
    (req : ReqId) :
    s.awaits req = 0 ∨ s.awaits req = 1 ∧ s.takes req = 0 := by
  have wellScoped := ReachedBy.wellScoped reached
  by_cases none : s.awaits req = 0
  · exact .inl none
  have waits : ∃ thread ∈ s.threads, ∃ op ∈ thread.ops,
      op.awaiting s req ≠ 0 := by
    by_contra nobody
    refine none (pending_eq_zero fun thread member op pendingOp => ?_)
    by_contra awaiting
    exact nobody ⟨thread, member, op, pendingOp, awaiting⟩
  obtain ⟨thread, member, op, pendingOp, awaiting⟩ := waits
  cases op with
  | cqAcquire ni msg =>
      have same : s.reqOf msg = req := by
        by_contra different
        exact awaiting (if_neg different)
      subst same
      have aside := (ReachedBy.attended reached running thread member _
        pendingOp ni msg rfl).2
      have once := ReachedBy.submissions_le_one reached msg
      have bound := aside.awaits wellScoped
      unfold State.submissions at once
      exact .inr ⟨by omega, aside.takes wellScoped⟩
  | _ => exact absurd rfl awaiting

/-- The slots of an interface are conserved exactly when none of its requests
was taken twice. -/
theorem slots_conserved_iff {allowed : State → Label → Prop}
    (reached : ReachedBy sys allowed s) (running : s.halted = none)
    (ni : NiId) :
    s.cqs ni + s.outstanding ni = cqInitialCapacity ↔
      ∀ req < s.nextReq, (s.reqs req).md.ni = ni → s.takes req ≤ 1 := by
  have waits := ReachedBy.awaits_takes reached running
  have surplus : s.cqs ni + s.outstanding ni = cqInitialCapacity +
      ∑ req ∈ Finset.range s.nextReq,
        if (s.reqs req).md.ni = ni then ((s.takes req - 1 : Nat) : Int)
          else 0 := by
    unfold State.outstanding
    rw [ReachedBy.conserved reached running ni, Finset.card_filter,
      Nat.cast_sum, Int.add_assoc, ← Finset.sum_add_distrib]
    congr 1
    refine Finset.sum_congr rfl fun req member => ?_
    unfold State.contribution
    by_cases owner : (s.reqs req).md.ni = ni
    · simp only [owner, true_and, if_true]
      rcases waits req with free | ⟨waiting, untaken⟩
      · by_cases untaken : s.takes req = 0
        · simp [free, untaken]
        · simp only [free, untaken, and_false, if_false]
          omega
      · simp [waiting, untaken]
    · simp [owner]
  have terms : ∀ req ∈ Finset.range s.nextReq,
      0 ≤ if (s.reqs req).md.ni = ni then ((s.takes req - 1 : Nat) : Int)
        else 0 := by
    intro req _
    split <;> omega
  constructor
  · intro balanced req old owner
    have nothing := (Finset.sum_eq_zero_iff_of_nonneg terms).mp (by omega) req
      (Finset.mem_range.mpr old)
    rw [if_pos owner] at nothing
    omega
  · intro single
    rw [surplus, Finset.sum_eq_zero, Int.add_zero]
    intro req member
    split
    · rename_i owner
      have bound := single req (Finset.mem_range.mp member) owner
      omega
    · rfl

end Slots

/-! ## Requests taken once -/

/-- `handle_put` and `handle_get` are not run for a message whose request was
taken before, in the form of that message or of one it is a copy of. -/
def takenOnce (sys : Sys) (s : State) : Label → Bool
  | .run index =>
      match (s.threads[index]? : Option (Thread Actor Op)) with
      | some ⟨self, .processTx msg :: _⟩ =>
          !(s.msgs msg).type.isRequest ||
            (checkFlowctrl sys s self.nid msg).1 ≠ .granted ||
            s.takes (s.reqOf msg) = 0
      | _ => true
  | _ => true

def TakenOnce (sys : Sys) (s : State) (label : Label) : Prop :=
  takenOnce sys s label = true

instance (sys : Sys) (s : State) (label : Label) :
    Decidable (TakenOnce sys s label) :=
  inferInstanceAs (Decidable (_ = true))

section Once

variable {sys : Sys} {self : Actor} {s after : State}

theorem TakenOnce.untaken {index : ThreadId} {msg : MsgId} {rest : List Op}
    (allowed : TakenOnce sys s (.run index))
    (found : s.threads[index]? = some ⟨self, .processTx msg :: rest⟩)
    (request : (s.msgs msg).type.isRequest = true)
    (passes : (checkFlowctrl sys s self.nid msg).1 = .granted) :
    s.takes (s.reqOf msg) = 0 := by
  unfold TakenOnce takenOnce at allowed
  simp only [found, request, passes] at allowed
  simpa using allowed

theorem takes_le_one (single : ∀ req, s.takes req ≤ 1)
    (wellScoped : WellScoped s) {index : ThreadId} {label : Label}
    (advances : Advances sys s index label after)
    (allowed : TakenOnce sys s label) (running : after.halted = none)
    (req : ReqId) : after.takes req ≤ 1 := by
  have bound := single req
  cases advances with
  | dangling dead owner => cases running
  | @run self op rest new after found alive phase =>
      have within := wellScoped.ops _ (List.mem_of_getElem? found) _
        List.mem_cons_self
      have took := takes_run wellScoped found phase req
      cases phase.slots within running with
      | kept cqs other exchanged =>
          have exchange := exchanged req
          omega
      | @given msg after new passes request cqs exchanged =>
          have exchange := exchanged req
          have untaken := allowed.untaken found request passes
          simp only [Op.taking, State.isCommand, request,
            Bool.true_and] at took exchange
          by_cases same : s.reqOf msg = req
          · subst same
            simp only [BEq.rfl, Bool.toNat_true] at exchange
            omega
          · simp only [beq_eq_false_iff_ne.mpr same,
              Bool.toNat_false] at exchange
            omega
      | @used home msg after cqs log =>
          have logged : after.log.countP (Obs.taken s req) =
              s.log.countP (Obs.taken s req) := by rw [log]
          simp only [Op.taking, opsWeight_cons, opsWeight_nil] at took
          omega
  | recv found target queued =>
      refine le_trans (le_of_eq (takes_start wellScoped found _ ?_ rfl ?_ req))
        bound
      · exact .refl s
      · simp [Op.taking]
  | take found initiator queued =>
      refine le_trans (le_of_eq (takes_start wellScoped found _ ?_ rfl ?_ req))
        bound
      · exact .refl s
      · simp [Op.taking]
  | wake found e2e alive queued =>
      refine le_trans (le_of_eq (takes_start wellScoped found _ ?_ rfl ?_ req))
        bound
      · exact .refl s
      · simp [Op.taking]
  | call found user owned alive phase =>
      obtain ⟨traffic, log, nothing⟩ := phase.carries
      rw [takes_start wellScoped found _ phase.extends log
        fun req op member => Op.taking_of_idle (nothing op member) req]
      exact bound

/-- In every run in which no request is taken twice, the free slots of a command
queue and the requests which have a slot and were not taken yet add up to its
capacity. -/
theorem command_slots_conserved (reached : ReachedBy sys (TakenOnce sys) s)
    (running : s.halted = none) (ni : NiId) :
    s.cqs ni + s.outstanding ni = cqInitialCapacity ∧
      s.cqs ni ≤ cqInitialCapacity := by
  let Single (state : State) : Prop :=
    state.halted = none → ∀ req, state.takes req ≤ 1
  have single : Single s := by
    refine reached.invariant_of_reached ?_ ?_
    · intro _ req
      have empty : pending (Op.taking (initial sys) req)
          (initial sys).threads = 0 := by
        apply pending_eq_zero
        intro thread member op pendingOp
        obtain ⟨actor, _, rfl⟩ := List.mem_map.mp member
        cases pendingOp
      unfold State.takes
      rw [empty]
      exact Nat.zero_le _
    · intro before after label earlier single allowed stepped running
      exact takes_le_one (single (step_enabled stepped).1)
        (ReachedBy.wellScoped earlier) (step_advances stepped) allowed running
  have balanced := (slots_conserved_iff reached running ni).mpr
    fun req _ _ => single running req
  exact ⟨balanced, by omega⟩

end Once

/-- The first node after a Put was submitted and before it is taken. -/
theorem submitted_put_holds_slot :
    ∃ s, ReachedBy (twoNodes {} { e2eOff := false })
        (TakenOnce (twoNodes {} { e2eOff := false })) s ∧
      s.cqs 0 = 15 ∧ s.outstanding 0 = 1 := by
  obtain ⟨s, reached, holds⟩ := reachedBy_of_executes
    (twoNodes {} { e2eOff := false })
    (TakenOnce (twoNodes {} { e2eOff := false }))
    (putsTo 1 .ackReq :: runs 0 3) (fun s => s.halted.isNone &&
      s.cqs 0 == 15) (by decide +kernel)
  simp only [Bool.and_eq_true, Option.isNone_iff_eq_none, beq_iff_eq] at holds
  have balanced := (command_slots_conserved reached holds.1 0).1
  rw [holds.2] at balanced
  refine ⟨s, reached, holds.2, ?_⟩
  unfold cqInitialCapacity at balanced
  omega

/-- The retransmitted copy of a Put gives a second slot back. -/
theorem retransmission_releases_slot :
    ∃ s, Reachable (twoNodes {} { e2eOff := false }) s ∧ s.halted = none ∧
      cqInitialCapacity < s.cqs 0 ∧
      s.cqs 0 + s.outstanding 0 ≠ cqInitialCapacity := by
  obtain ⟨s, reached, holds⟩ := reachable_of_executes
    (twoNodes {} { e2eOff := false })
    (expiredPut ++ runs 5 3 ++ .take 1 :: runs 1 1) (fun s => s.halted.isNone &&
      decide (cqInitialCapacity < s.cqs 0)) (by decide +kernel)
  simp only [Bool.and_eq_true, Option.isNone_iff_eq_none,
    decide_eq_true_eq] at holds
  exact ⟨s, reached, holds.1, holds.2, by omega⟩

end S4BXI
