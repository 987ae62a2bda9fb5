import S4BXI.Lifetime.Requests
import S4BXI.Flow.Deliveries
import S4BXI.Matching.Unexpected

/-!
# Who holds a message

A message is held where it waits: in a TX queue or a deque, in the hands of a
NIC initiator, in an RX mailbox, in an E2E queue or among the unexpected
headers.  It is also held by an operation which has still to submit or to
release it.  As long as flow control neither loses nor duplicates a message and
no portal table entry is freed, the count of a message is the number of its
holders and of the acknowledgements which answer it.
-/

namespace S4BXI

open Lib

/-- The references which an operation holds. -/
def Op.refs (msg : MsgId) : Op → Nat
  | .txPut other | .cqAcquire _ other | .getFinish _ _ other
  | .fetchAtomicFinish _ _ other | .unref other | .e2eWake other =>
      single other msg
  | _ => 0

/-- The operations after which another message may be held. -/
def Op.moving : Op → Bool
  | .handle _ | .sendAck _ _ _ | .sendBxiAck _ _ | .unref _ | .e2eEnqueue _
  | .e2eWake _ | .walkThroughUHs _ _ => true
  | _ => false

namespace State

/-- How often a message is among the unexpected headers. -/
def headed (s : State) (msg : MsgId) : Nat :=
  total s.nextPt (fun pt => pt.unexpectedHeaders.count msg) s.pts

/-- The references which are held to a message, apart from acknowledgements. -/
def holders (s : State) (msg : MsgId) : Nat :=
  let nid := (s.msgs msg).initiator
  mailed s.traffic.tx nid msg + mailed s.parked nid msg +
    mailed s.hands nid msg + mailed s.traffic.mailbox nid msg +
    (s.traffic.e2e nid).count msg + mailed s.rx (s.msgs msg).target msg +
    s.headed msg + pending (Op.refs msg) s.threads

/-- The holders of a message whose place does not depend on its transmission,
with its submissions. -/
def anchors (s : State) (msg : MsgId) : Nat :=
  s.log.countP (Obs.submits msg) +
    mailed s.traffic.mailbox (s.msgs msg).initiator msg +
    (s.traffic.e2e (s.msgs msg).initiator).count msg + s.headed msg +
    pending (Op.refs msg) s.threads

end State

theorem mailed_pos {rx : Nid → Vn → List MsgId} {nid : Nid} {vn : Vn}
    {msg : MsgId} (member : msg ∈ rx nid vn) : 0 < mailed rx nid msg := by
  have counts := List.count_pos_iff.mpr member
  unfold mailed
  cases vn <;> omega

theorem State.headed_pos_iff {s : State} {msg : MsgId} :
    0 < s.headed msg ↔
      ∃ pt < s.nextPt, msg ∈ (s.pts pt).unexpectedHeaders := by
  constructor
  · intro headed
    by_contra nowhere
    have nothing : s.headed msg = 0 := by
      apply total_eq_zero
      intro pt inside
      apply List.count_eq_zero.mpr
      exact fun member => nowhere ⟨pt, inside, member⟩
    omega
  · intro header
    obtain ⟨pt, inside, member⟩ := header
    have least : (s.pts pt).unexpectedHeaders.count msg ≤ s.headed msg :=
      @weight_le_total _ s.nextPt pt
        (fun table => table.unexpectedHeaders.count msg) s.pts inside
    have counts := List.count_pos_iff.mpr member
    omega

/-- What an operation gives and takes, apart from transmissions: it takes `lost`
references to a message and gives `gained`. -/
def Exchanges (s after : State) (op : Op) (new : List Op) (msg : MsgId)
    (lost gained : Nat) : Prop :=
  let nid := (after.msgs msg).initiator
  after.log.countP (Obs.submits msg) + mailed after.traffic.mailbox nid msg +
      (after.traffic.e2e nid).count msg + after.headed msg +
      opsWeight (Op.refs msg) new + lost =
    s.log.countP (Obs.submits msg) + mailed s.traffic.mailbox nid msg +
      (s.traffic.e2e nid).count msg + s.headed msg + op.refs msg + gained

/-- How an operation changes the references to messages. -/
inductive Recounts (s : State) : Op → State → List Op → Prop where
  | still {op after new} (preserves : Preserves s after)
      (exchanges : ∀ msg, Exchanges s after op new msg 0 0) : Recounts s op after new
  | gain {op after new} (kept : MsgId) (live : s.live (.msg kept) = true)
      (preserves : Preserves (s.ref kept) after)
      (exchanges : ∀ msg, Exchanges s after op new msg 0 (single kept msg)) :
      Recounts s op after new
  | drop {msg new} (exchanges : ∀ other,
        Exchanges s (s.unref msg) (.unref msg) new other (single msg other) 0) :
      Recounts s (.unref msg) (s.unref msg) new
  | create {op after new} (created : BxiMsg)
      (cell : created.cell = { live := true, count := 1 })
      (preserves : Preserves (s.newMsg created) after)
      (exchanges : ∀ msg, Exchanges s after op new msg 0 (single s.nextMsg msg)) :
      Recounts s op after new
  | deposit {op after new} (created : BxiMsg) (kept : MsgId)
      (cell : created.cell = { live := true, count := 1 })
      (live : s.live (.msg kept) = true)
      (preserves : Preserves ((s.newMsg created).ref kept) after)
      (exchanges : ∀ msg, Exchanges s after op new msg 0
        (single s.nextMsg msg + single kept msg)) :
      Recounts s op after new
  | answer {op after new} (created : BxiMsg) (answered : MsgId)
      (cell : created.cell = { live := true, count := 1, child := answered })
      (live : s.live (.msg answered) = true)
      (preserves : Preserves ((s.newMsg created).ref answered) after)
      (exchanges : ∀ msg, Exchanges s after op new msg 0 (single s.nextMsg msg)) :
      Recounts s op after new

/-- Messages are submitted and sent by their node. -/
def Local (s : State) : Prop :=
  ∀ nid vn msg, .submitted nid vn msg ∈ s.log ∨ .sent nid vn msg ∈ s.log →
    (s.msgs msg).initiator = nid

section Logs

variable {log : List Obs} {nid : Nid} {msg : MsgId}

/-- The number of times a message was submitted at a node. -/
def submittedAt (log : List Obs) (nid : Nid) (msg : MsgId) : Nat :=
  log.count (.submitted nid .computeRequest msg) +
    log.count (.submitted nid .computeResponse msg) +
    log.count (.submitted nid .serviceRequest msg) +
    log.count (.submitted nid .serviceResponse msg)

/-- The number of times a message was sent from a node. -/
def sentAt (log : List Obs) (nid : Nid) (msg : MsgId) : Nat :=
  log.count (.sent nid .computeRequest msg) +
    log.count (.sent nid .computeResponse msg) +
    log.count (.sent nid .serviceRequest msg) +
    log.count (.sent nid .serviceResponse msg)

/-- What a log tells of a message, counted for each VN of its node. -/
theorem countP_vns {tells : Obs → Bool} (told : Vn → Obs)
    (injective : Function.Injective told)
    (home : ∀ obs ∈ log, tells obs = true ↔ ∃ vn, obs = told vn) :
    log.countP tells =
      log.count (told .computeRequest) + log.count (told .computeResponse) +
        log.count (told .serviceRequest) +
        log.count (told .serviceResponse) := by
  induction log with
  | nil => rfl
  | cons obs log induction =>
      have rest := induction fun other member =>
        home other (List.mem_cons_of_mem _ member)
      have here := home obs List.mem_cons_self
      rw [List.countP_cons, rest]
      simp only [List.count_cons]
      by_cases tell : tells obs = true
      · obtain ⟨vn, rfl⟩ := here.mp tell
        cases vn <;> simp [tell, injective.eq_iff] <;> omega
      · have silent : ∀ vn, obs ≠ told vn := fun vn same =>
          tell (here.mpr ⟨vn, same⟩)
        simp [tell, silent]

theorem countP_submits
    (home : ∀ node vn, .submitted node vn msg ∈ log → node = nid) :
    log.countP (Obs.submits msg) = submittedAt log nid msg := by
  apply countP_vns fun vn => .submitted nid vn msg
  · intro first second same
    cases same
    rfl
  · intro obs member
    constructor
    · intro tells
      cases obs with
      | submitted node vn other =>
          obtain rfl : other = msg := by simpa [Obs.submits] using tells
          exact ⟨vn, by rw [home node vn member]⟩
      | _ => cases tells
    · intro told
      obtain ⟨vn, rfl⟩ := told
      simp [Obs.submits]

theorem countP_sends
    (home : ∀ node vn, .sent node vn msg ∈ log → node = nid) :
    log.countP (Obs.sends msg) = sentAt log nid msg := by
  apply countP_vns fun vn => .sent nid vn msg
  · intro first second same
    cases same
    rfl
  · intro obs member
    constructor
    · intro tells
      cases obs with
      | sent node vn other =>
          obtain rfl : other = msg := by simpa [Obs.sends] using tells
          exact ⟨vn, by rw [home node vn member]⟩
      | _ => cases tells
    · intro told
      obtain ⟨vn, rfl⟩ := told
      simp [Obs.sends]

end Logs

/-- The holders of a message and its transmissions account for its submissions.
-/
theorem State.holders_ledger {s : State} (accounted : Accounted s)
    (home : Local s) (msg : MsgId) :
    s.holders msg + s.deliveries msg =
      s.anchors msg + mailed s.rx (s.msgs msg).target msg := by
  have submitted : s.log.countP (Obs.submits msg) =
      submittedAt s.log (s.msgs msg).initiator msg :=
    countP_submits fun node vn member => (home node vn msg (.inl member)).symm
  have sent : s.deliveries msg = sentAt s.log (s.msgs msg).initiator msg :=
    countP_sends fun node vn member => (home node vn msg (.inr member)).symm
  have first := accounted.exact (s.msgs msg).initiator .computeRequest msg
  have second := accounted.exact (s.msgs msg).initiator .computeResponse msg
  have third := accounted.exact (s.msgs msg).initiator .serviceRequest msg
  have fourth := accounted.exact (s.msgs msg).initiator .serviceResponse msg
  unfold State.places at first second third fourth
  unfold State.holders State.anchors
  rw [submitted, sent]
  unfold submittedAt sentAt mailed
  dsimp only
  omega

section Steps

variable {sys : Sys} {self : Actor} {s after : State}

/-! ## The nodes of messages -/

theorem Local.grow (home : Local s) (wellScoped : WellScoped s)
    (grows : Extends s after) {extra : List Obs}
    (log : after.log = s.log ++ extra)
    (new : ∀ nid vn msg, .submitted nid vn msg ∈ extra ∨
      .sent nid vn msg ∈ extra → (after.msgs msg).initiator = nid) :
    Local after := by
  have kept : ∀ nid vn msg, .submitted nid vn msg ∈ s.log ∨
      .sent nid vn msg ∈ s.log → (after.msgs msg).initiator = nid := by
    intro nid vn msg member
    have old : msg < s.nextMsg := by
      rcases member with member | member
      · exact wellScoped.tables.log _ member
      · exact wellScoped.tables.log _ member
    rw [grows.initiator old]
    exact home nid vn msg member
  intro nid vn msg member
  rw [log] at member
  rcases member with member | member
  · rcases List.mem_append.mp member with old | fresh
    · exact kept nid vn msg (.inl old)
    · exact new nid vn msg (.inl fresh)
  · rcases List.mem_append.mp member with old | fresh
    · exact kept nid vn msg (.inr old)
    · exact new nid vn msg (.inr fresh)

/-- An operation submits and sends messages of its node. -/
theorem Local.run (home : Local s) (wellScoped : WellScoped s) {op : Op}
    {new : List Op} (within : op.Within s.bounds)
    (opShaped : op.Shaped s self) (phase : Phase sys self s op after new) :
    Local after := by
  obtain ⟨extra, log, emitted⟩ := phase.emits within
  have grows := phase.extends
  apply home.grow wellScoped grows log
  intro nid vn msg member
  rcases member with member | member
  · cases op with
    | txPut other =>
        cases emitted _ member
        rw [grows.initiator within]
        exact opShaped
    | e2eWake other =>
        cases emitted _ member
        rcases phase.creates within with same | ⟨copy, creates, next, fixed⟩
        · have late : .submitted self.nid (s.vnOf other) s.nextMsg ∈
              after.log := by
            rw [log]
            exact List.mem_append_right _ member
          have logged : s.nextMsg < after.nextMsg :=
            (phase.allocated wellScoped.tables within).log _ late
          rw [same] at logged
          exact absurd logged (Nat.lt_irrefl _)
        · rw [(fresh_of_fixed fixed).initiator]
          exact creates.initiator opShaped
    | _ => cases emitted _ member
  · cases op with
    | commStart other =>
        cases emitted _ member
        rw [grows.initiator within]
        exact opShaped
    | _ => cases emitted _ member

theorem Local.advances (home : Local s) (wellScoped : WellScoped s)
    (shaped : Shaped sys s) {index : ThreadId} {label : Label}
    (advances : Advances sys s index label after) : Local after := by
  cases advances with
  | @run self op rest new after found alive phase =>
      have member := List.mem_of_getElem? found
      have kept : Local after := home.run wellScoped
        (wellScoped.ops _ member _ List.mem_cons_self)
        (shaped.ops _ member _ List.mem_cons_self) phase
      exact kept
  | @call self call new after found user owned alive phase =>
      have log : after.log = s.log ++ [] := by
        rw [phase.carries.2.1, List.append_nil]
      have grown : Local after :=
        home.grow wellScoped phase.extends log (by simp)
      exact grown
  | _ => exact home

theorem ReachedBy.home {allowed : State → Label → Prop}
    (reached : ReachedBy sys allowed s) : Local s := by
  have start : Local (initial sys) := by
    intro nid vn msg member
    rcases member with member | member
    · cases member
    · cases member
  apply reached.invariant_of_reached start
  intro before after label earlier home _ stepped
  exact home.advances (ReachedBy.wellScoped earlier)
    (ReachedBy.shaped earlier) (step_advances stepped)

/-! ## Anchors -/

/-- An operation allocates no portal table entry. -/
theorem Phase.nextPt {op : Op} {new : List Op}
    (phase : Phase sys self s op after new) : after.nextPt = s.nextPt := by
  have unlinks : ∀ {s after : State} {me : MeId}, Unlinks s me after →
      after.nextPt = s.nextPt := by
    intro s after me unlinked
    cases unlinked <;> rfl
  have leaves : ∀ {s after : State} {me : MeId} {before following : List Op},
      Leaves s me after before following → after.nextPt = s.nextPt := by
    intro s after me before following left
    cases left with
    | kept staying => rfl
    | unlinked eq event leaving unlinked kind =>
        have same := unlinks unlinked
        exact same
  cases phase with
  | matched type fresh found memory later stops =>
      rename_i list me fail kind effects stop
      cases kind <;> cases list <;> rfl
  | putFinish left => exact leaves left
  | getFinish memory stops left =>
      have same := leaves left
      exact same
  | atomicEvents left => exact leaves left
  | fetchAtomicFinish left =>
      have same := leaves left
      exact same
  | deferredUnlink flagged unlinked => exact unlinks unlinked
  | unref equality drops =>
      cases drops
      rfl
  | respondUnmatched type fetches fresh absent =>
      rcases fetches with rfl | rfl <;> rfl
  | retransmit pending more =>
      unfold S4BXI.retransmit
      dsimp only
      split <;> rfl
  | _ => rfl

/-- What waits for the E2E circuit, or in a mailbox which nobody reads, stays
there. -/
theorem Carries.waits {op : Op} {new : List Op}
    (carries : Carries sys self s op after new) (running : after.halted = none)
    (enqueues : ∀ msg, op ≠ .e2eEnqueue msg)
    (retries : ∀ msg, op ≠ .e2eWake msg) :
    after.traffic.mailbox = s.traffic.mailbox ∧
      after.traffic.e2e = s.traffic.e2e := by
  cases carries with
  | @retry msg _ on traffic log => exact absurd rfl (retries msg)
  | @mailbox msg _ off traffic log => exact absurd rfl (retries msg)
  | @enqueue msg _ traffic log => exact absurd rfl (enqueues msg)
  | init before nothing => exact ⟨rfl, rfl⟩
  | stop halted => exact absurd running halted
  | still idle nothing traffic silent => rw [traffic]; exact ⟨rfl, rfl⟩
  | submit traffic log => rw [traffic]; exact ⟨rfl, rfl⟩
  | pass passes nothing traffic silent => rw [traffic]; exact ⟨rfl, rfl⟩
  | park subject refused traffic log => rw [traffic]; exact ⟨rfl, rfl⟩
  | start traffic log => rw [traffic]; exact ⟨rfl, rfl⟩
  | push waiting traffic log => rw [traffic]; exact ⟨rfl, rfl⟩
  | pop waiting traffic log => rw [traffic]; exact ⟨rfl, rfl⟩

theorem State.headed_congr (same : after.nextPt = s.nextPt)
    (headers : ∀ pt, (after.pts pt).unexpectedHeaders =
      (s.pts pt).unexpectedHeaders) (msg : MsgId) :
    after.headed msg = s.headed msg := by
  unfold State.headed
  rw [same]
  apply total_congr
  intro pt _
  rw [headers]

/-- The unexpected headers stay as they are, but for arrivals and appends. -/
theorem Pairs.headed {op : Op} {new : List Op}
    (pairs : Pairs sys self s op after new) (same : after.nextPt = s.nextPt)
    (handles : ∀ msg, op ≠ .handle msg)
    (appends : ∀ me index, op ≠ .walkThroughUHs me index) (msg : MsgId) :
    after.headed msg = s.headed msg := by
  have kept : (∀ pt, (after.pts pt).unexpectedHeaders =
      (s.pts pt).unexpectedHeaders) → after.headed msg = s.headed msg :=
    fun headers => State.headed_congr same headers msg
  cases pairs with
  | shrink idle nothing shrinks => exact kept shrinks.headers
  | @arrive msg _ _ _ _ _ => exact absurd rfl (handles msg)
  | @insert me index => exact absurd rfl (appends me index)
  | @stop me index => exact absurd rfl (appends me index)
  | @overflow me index => exact absurd rfl (appends me index)
  | consumed => exact kept fun _ => rfl

theorem Follows.refs {op added : Op} (follows : Follows sys self s op added)
    (silent : op.announces = false) (plain : op.moving = false) (msg : MsgId) :
    added.refs msg = 0 := by
  cases follows <;> first | rfl | (cases silent; done) | cases plain

/-- Only two operations submit a message. -/
theorem Phase.submits_silent {op : Op} {new : List Op}
    (phase : Phase sys self s op after new) (within : op.Within s.bounds)
    (silent : op.submitsNow = false) (msg : MsgId) :
    after.log.countP (Obs.submits msg) = s.log.countP (Obs.submits msg) := by
  obtain ⟨extra, log, emitted⟩ := phase.emits within
  have none : extra.countP (Obs.submits msg) = 0 := by
    apply List.countP_eq_zero.mpr
    intro obs member
    rw [(emitted obs member).submits silent msg]
    exact Bool.false_ne_true
  rw [log, List.countP_append, none, Nat.add_zero]

/-- The other operations hand on the references which they hold. -/
theorem Phase.refs {op : Op} {new : List Op}
    (phase : Phase sys self s op after new) (within : op.Within s.bounds)
    (plain : op.moving = false) (msg : MsgId) :
    after.log.countP (Obs.submits msg) + opsWeight (Op.refs msg) new =
      s.log.countP (Obs.submits msg) + op.refs msg := by
  have logged := fun silent => phase.submits_silent within silent msg
  have handed : op.announces = false → opsWeight (Op.refs msg) new = 0 :=
    fun silent => opsWeight_eq_zero fun added member =>
      (phase.follows added member).refs silent plain msg
  have nothing : ∀ {ops : List Op}, (∀ op ∈ ops, op.refs msg = 0) →
      opsWeight (Op.refs msg) ops = 0 := opsWeight_eq_zero
  cases phase with
  | quiet quiet =>
      cases quiet with
      | duplicate | unmatched | unanswered | finished | bxiAckOff
      | acknowledged => cases plain
      | _ =>
          rw [logged rfl, handed rfl]
          rfl
  | getFinish memory stops leaves =>
      obtain ⟨first, last⟩ := leaves.every
        (P := fun op => op.refs msg = 0) (fun _ _ _ => rfl) rfl
      rw [logged rfl, opsWeight_append, opsWeight_append, nothing first,
        nothing last]
      simp [Op.refs]
  | fetchAtomicFinish leaves =>
      obtain ⟨first, last⟩ := leaves.every
        (P := fun op => op.refs msg = 0) (fun _ _ _ => rfl) rfl
      rw [logged rfl, opsWeight_append, opsWeight_append, nothing first,
        nothing last]
      simp [Op.refs]
  | @txPut other =>
      by_cases same : other = msg
      · simp [S4BXI.txPut, State.emit, State.modNode, List.countP_append,
          Op.refs, Obs.submits, same]
      · simp [S4BXI.txPut, State.emit, State.modNode, List.countP_append,
          Op.refs, Obs.submits, same, single_of_ne (Ne.symm same)]
  | cqAcquire left =>
      rw [logged rfl]
      simp [Op.refs]
  | respondUnmatched | matched | handleResponse | handlePtlAck
  | ackWithoutAnswer | handleBxiAck | quickAck | sendAck | sendBxiAck | unref
  | e2eEnqueue | gaveUp | retransmit | retryPanic | appendInsert | noMatchedMe
  | overflow => cases plain
  | _ =>
      rw [logged rfl, handed rfl]
      rfl

/-- A call moves no unexpected header, unless it frees a table entry. -/
theorem CallPhase.headed {call : Call} {new : List Op}
    (phase : CallPhase sys self s call after new)
    (keeps : ∀ ni index, call ≠ .ptFree ni index) (msg : MsgId) :
    after.headed msg = s.headed msg := by
  have kept : ∀ {pt : PtId} {f : BxiPT → BxiPT},
      (∀ table, (f table).unexpectedHeaders = table.unexpectedHeaders) →
      (s.modPt pt f).headed msg = s.headed msg := by
    intro pt f headers
    apply State.headed_congr
    · rfl
    · intro other
      by_cases here : other = pt
      · subst here
        simp [State.modPt, headers]
      · simp [State.modPt, here]
  cases phase with
  | @ptFree ni index pt after allocated equality frees =>
      exact absurd rfl (keeps ni index)
  | ptAlloc free =>
      unfold State.headed
      dsimp only
      rw [total_succ, total_update_outside (Nat.le_refl _),
        Function.update_self]
      rfl
  | ptEnable allocated => exact kept fun _ => rfl
  | ptDisable allocated => exact kept fun _ => rfl
  | @appendOverflow ni index pt me userPtr allocated =>
      apply State.headed_congr
      · rfl
      · intro other
        rw [appendInsert_headers]
        rfl
  | meUnlink free unlinks =>
      have same : after.nextPt = s.nextPt := by
        cases unlinks <;> rfl
      exact State.headed_congr same (Shrinks.unlinks unlinks).headers msg
  | _ => rfl

/-- The headers of one table entry change. -/
theorem State.headed_update (same : after.nextPt = s.nextPt) {pt : PtId}
    (inside : pt < s.nextPt)
    (others : ∀ other, other ≠ pt → (after.pts other).unexpectedHeaders =
      (s.pts other).unexpectedHeaders) {msg : MsgId} {lost gained : Nat}
    (here : (after.pts pt).unexpectedHeaders.count msg + lost =
      (s.pts pt).unexpectedHeaders.count msg + gained) :
    after.headed msg + lost = s.headed msg + gained := by
  let weight (table : BxiPT) : Nat := table.unexpectedHeaders.count msg
  have updated :
      total s.nextPt weight (Function.update s.pts pt (after.pts pt)) +
        weight (s.pts pt) =
      total s.nextPt weight s.pts + weight (after.pts pt) :=
    total_update inside (after.pts pt)
  have equal : after.headed msg =
      total s.nextPt weight (Function.update s.pts pt (after.pts pt)) := by
    unfold State.headed
    rw [same]
    apply total_congr
    intro other _
    by_cases this : other = pt
    · subst this
      rw [Function.update_self]
    · rw [Function.update_of_ne this]
      exact congrArg (List.count msg) (others other this)
  have before : s.headed msg = total s.nextPt weight s.pts := rfl
  have first : weight (after.pts pt) =
    (after.pts pt).unexpectedHeaders.count msg := rfl
  have second : weight (s.pts pt) =
    (s.pts pt).unexpectedHeaders.count msg := rfl
  omega

/-- A message which is deposited in an overflow entry becomes a header. -/
theorem Arrives.headed {msg : MsgId} {pt : PtId} {list : PtlList} {me : MeId}
    (arrives : Arrives s msg pt list me after)
    (same : after.nextPt = s.nextPt) (inside : pt < s.nextPt) (other : MsgId) :
    after.headed other =
      s.headed other + if list = .overflow then single msg other else 0 := by
  have changed : after.headed other + 0 =
      s.headed other + if list = .overflow then single msg other else 0 := by
    apply State.headed_update same inside
    · intro table different
      rw [arrives.headers, if_neg fun both => different both.2]
    · rw [arrives.headers]
      by_cases waits : list = .overflow
      · rw [if_pos ⟨waits, rfl⟩, if_pos waits, List.count_append,
          List.count_singleton]
        by_cases this : other = msg
        · simp [this]
        · simp [single_of_ne this, Ne.symm this]
      · rw [if_neg fun both => waits both.1, if_neg waits]
  exact changed

/-! ## Steps -/

/-- The node of a message is fixed when it is allocated, and before that it is
nowhere. -/
theorem waits_home (wellScoped : WellScoped s) (grows : Extends s after)
    (msg : MsgId) :
    mailed s.traffic.mailbox (after.msgs msg).initiator msg =
        mailed s.traffic.mailbox (s.msgs msg).initiator msg ∧
      (s.traffic.e2e (after.msgs msg).initiator).count msg =
        (s.traffic.e2e (s.msgs msg).initiator).count msg := by
  by_cases old : msg < s.nextMsg
  · rw [grows.initiator old]
    exact ⟨rfl, rfl⟩
  · have mailbox : ∀ nid, mailed s.traffic.mailbox nid msg = 0 := by
      intro nid
      apply mailed_eq_zero
      intro vn member
      exact old ((wellScoped.tables.nodes nid).nicTxMailbox vn msg member)
    have e2e : ∀ nid, (s.traffic.e2e nid).count msg = 0 := by
      intro nid
      apply List.count_eq_zero.mpr
      intro member
      exact old ((wellScoped.tables.nodes nid).e2eQueue msg member)
    rw [mailbox, mailbox, e2e, e2e]
    exact ⟨rfl, rfl⟩

/-- What an operation gives and takes is what the holders gain and lose. -/
theorem holders_run (wellScoped : WellScoped s) {index : ThreadId} {op : Op}
    {rest new : List Op}
    (found : s.threads[index]? = some ⟨self, op :: rest⟩)
    (phase : Phase sys self s op after new) (running : after.halted = none)
    (accounted : Accounted s) (home : Local s)
    (accountedAfter : Accounted { after with
      threads := s.threads.set index ⟨self, new ++ rest⟩ })
    (homeAfter : Local after) {msg : MsgId} {lost gained : Nat}
    (moved : Exchanges s after op new msg lost gained) :
    State.holders { after with
        threads := s.threads.set index ⟨self, new ++ rest⟩ } msg + lost =
      s.holders msg + gained := by
  have within := wellScoped.ops _ (List.mem_of_getElem? found) op
    List.mem_cons_self
  have before := State.holders_ledger accounted home msg
  have later := State.holders_ledger accountedAfter homeAfter msg
  have sent := (phase.carries within).mailed_sent running wellScoped within
    phase.extends msg
  obtain ⟨mailbox, e2e⟩ := waits_home wellScoped phase.extends msg
  unfold Exchanges at moved
  dsimp only at moved
  rw [mailbox, e2e] at moved
  have weights := pending_run_same found new (Op.refs msg)
  unfold State.anchors at before later
  have deliveries : State.deliveries { after with
      threads := s.threads.set index ⟨self, new ++ rest⟩ } msg =
    after.deliveries msg := rfl
  have headed : State.headed { after with
      threads := s.threads.set index ⟨self, new ++ rest⟩ } msg =
    after.headed msg := rfl
  have traffic : State.traffic { after with
      threads := s.threads.set index ⟨self, new ++ rest⟩ } =
    after.traffic := rfl
  rw [deliveries, headed, traffic] at later
  dsimp only at later
  omega

/-- An operation which submits nothing and appends nothing. -/
theorem Phase.exchanges_silent {op : Op} {new : List Op}
    (phase : Phase sys self s op after new) (running : after.halted = none)
    (within : op.Within s.bounds) (silent : op.submitsNow = false)
    (enqueues : ∀ msg, op ≠ .e2eEnqueue msg) {msg : MsgId} {lost gained : Nat}
    (moved : after.headed msg + opsWeight (Op.refs msg) new + lost =
      s.headed msg + op.refs msg + gained) :
    Exchanges s after op new msg lost gained := by
  have retries : ∀ msg, op ≠ .e2eWake msg := by
    rintro other rfl
    cases silent
  have waits := (phase.carries within).waits running enqueues retries
  unfold Exchanges
  dsimp only
  rw [phase.submits_silent within silent, waits.1, waits.2]
  omega

theorem Phase.recounts_plain {op : Op} {new : List Op}
    (phase : Phase sys self s op after new) (running : after.halted = none)
    (within : op.Within s.bounds) (plain : op.moving = false) :
    Recounts s op after new := by
  have counting : op.counting = false := by
    cases op <;> first | rfl | cases plain
  apply Recounts.still (phase.preserves counting)
  intro msg
  have waits := (phase.carries within).waits running
    (by rintro other rfl; cases plain) (by rintro other rfl; cases plain)
  have headed := (phase.pairs within).headed phase.nextPt
    (by rintro other rfl; cases plain) (by rintro other index rfl; cases plain)
    msg
  have refs := phase.refs within plain msg
  unfold Exchanges
  dsimp only
  rw [waits.1, waits.2, headed]
  omega

/-- The request handlers keep what they match in the unexpected headers, and
allocate the response to a request which fetches. -/
theorem recounts_matched {msg : MsgId} {pt : PtId} {list : PtlList} {me : MeId}
    {fail : NiFailType} {kind : ReqType} {effects : List Obs}
    {stop : Option Halt} {new : List Op}
    (live : s.live (.msg msg) = true)
    (exchanges : ∀ other, Exchanges s
      ((deposit s msg pt list me fail kind).touch effects stop) (.handle msg)
      new other 0 ((if kind = .get ∨ kind = .fetchAtomic then
          single s.nextMsg other else 0) +
        if list = .overflow then single msg other else 0)) :
    Recounts s (.handle msg)
      ((deposit s msg pt list me fail kind).touch effects stop) new := by
  have preserves := Preserves.deposit s msg pt list me fail kind effects stop
  by_cases fetches : kind = .get ∨ kind = .fetchAtomic
  · obtain ⟨type, responds, same⟩ := ReqType.responseType_cases fetches
    rw [same] at preserves
    cases list with
    | priority =>
        apply Recounts.create _ _ preserves
        · intro other
          have moved := exchanges other
          rw [if_pos fetches, if_neg (by simp)] at moved
          exact moved
        · rfl
    | overflow =>
        apply Recounts.deposit _ msg _ live preserves
        · intro other
          have moved := exchanges other
          rw [if_pos fetches, if_pos rfl] at moved
          exact moved
        · rfl
  · have same : answering s msg fail kind = s := by
      cases kind <;> first | rfl | exact absurd (by simp) fetches
    rw [same] at preserves
    cases list with
    | priority =>
        apply Recounts.still preserves
        intro other
        have moved := exchanges other
        rw [if_neg fetches, if_neg (by simp)] at moved
        exact moved
    | overflow =>
        apply Recounts.gain msg live preserves
        intro other
        have moved := exchanges other
        rw [if_neg fetches, if_pos rfl, Nat.zero_add] at moved
        exact moved

/-- The E2E circuit holds a message until the end of its sleep. -/
theorem recounts_enqueue {msg : MsgId} (live : s.live (.msg msg) = true)
    (here : (s.msgs msg).initiator = self.nid) :
    Recounts s (.e2eEnqueue msg) (e2eEnqueue self s msg) [] := by
  have traffic : (e2eEnqueue self s msg).traffic = { s.traffic with
      e2e := Function.update s.traffic.e2e self.nid
        (s.traffic.e2e self.nid ++ [msg]) } :=
    (s.ref msg).traffic_e2e self.nid fun queue => queue ++ [msg]
  have preserves : Preserves (s.ref msg) (e2eEnqueue self s msg) :=
    .of_tables rfl rfl rfl rfl
  apply Recounts.gain msg live preserves
  intro other
  have initiator : ((e2eEnqueue self s msg).msgs other).initiator =
      (s.msgs other).initiator := by
    by_cases same : other = msg
    · simp [e2eEnqueue, State.ref, State.modMsg, State.modNode, same]
    · simp [e2eEnqueue, State.ref, State.modMsg, State.modNode, same]
  have headed : (e2eEnqueue self s msg).headed other = s.headed other := rfl
  have log : (e2eEnqueue self s msg).log = s.log := rfl
  unfold Exchanges
  dsimp only
  rw [traffic, initiator, headed, log]
  dsimp only
  by_cases node : (s.msgs other).initiator = self.nid
  · rw [node, Function.update_self, List.count_append, List.count_singleton]
    by_cases same : other = msg
    · simp [same, Op.refs]
      omega
    · simp [Ne.symm same, single_of_ne same, Op.refs]
  · have different : other ≠ msg := by
      rintro rfl
      exact node here
    rw [Function.update_of_ne node, single_of_ne different]
    simp [Op.refs]

/-- The copy of a message is submitted, or waits in a mailbox which nobody
reads. -/
theorem recounts_retransmit {msg : MsgId}
    (here : (s.msgs msg).initiator = self.nid) :
    Recounts s (.e2eWake msg) (retransmit sys self s msg)
      [.resched, .unref msg] := by
  obtain ⟨copy, cell, parent, copied⟩ := Preserves.retransmit sys self s msg
  apply Recounts.create copy cell copied
  intro other
  have tables : (retransmit sys self s msg).pts = s.pts ∧
      (retransmit sys self s msg).nextPt = s.nextPt := by
    unfold retransmit
    dsimp only
    split <;> exact ⟨rfl, rfl⟩
  have headed : (retransmit sys self s msg).headed other = s.headed other := by
    unfold State.headed
    rw [tables.1, tables.2]
  have refs : opsWeight (Op.refs other) [.resched, .unref msg] =
      (Op.e2eWake msg).refs other := by simp [Op.refs]
  unfold Exchanges
  dsimp only
  rw [headed, refs]
  cases on : sys.modelPciCommands self.nid with
  | true =>
      obtain ⟨traffic, log⟩ := retransmit_on s msg on
      have submitted : (retransmit sys self s msg).log.countP
          (Obs.submits other) =
            s.log.countP (Obs.submits other) + single s.nextMsg other := by
        rw [log, List.countP_append]
        by_cases same : other = s.nextMsg
        · simp [Obs.submits, same]
        · simp [Obs.submits, Ne.symm same, single_of_ne same]
      rw [traffic, submitted]
      dsimp only
      omega
  | false =>
      obtain ⟨traffic, log⟩ := retransmit_off s msg on
      have moved := mailed_setQueue s.traffic.mailbox self.nid (s.vnOf msg)
        (s.traffic.mailbox self.nid (s.vnOf msg) ++ [s.nextMsg])
        ((retransmit sys self s msg).msgs other).initiator other
      rw [List.count_append, List.count_singleton] at moved
      rw [traffic, log]
      dsimp only
      by_cases same : other = s.nextMsg
      · have initiator : ((retransmit sys self s msg).msgs other).initiator =
            self.nid := by
          rw [← here, same]
          unfold retransmit
          dsimp only
          split <;> simp [txPut, State.emit, State.modNode, State.newMsg,
            State.modMsg, BxiMsg.copy]
        rw [initiator] at moved ⊢
        rw [same] at moved ⊢
        rw [single_self]
        simp at moved
        omega
      · rw [single_of_ne same]
        simp only [beq_iff_eq, Ne.symm same, if_false, Nat.add_zero] at moved
        omega

/-- An append takes a header from its list. -/
theorem headed_overflow (same : after.nextPt = s.nextPt) {pt : PtId}
    (inside : pt < s.nextPt) {position : Nat} {header : MsgId}
    (present : (s.pts pt).unexpectedHeaders[position]? = some header)
    (headers : ∀ other, (after.pts other).unexpectedHeaders =
      if other = pt then (s.pts pt).unexpectedHeaders.eraseIdx position
      else (s.pts other).unexpectedHeaders) (msg : MsgId) :
    after.headed msg + single header msg = s.headed msg := by
  have taken : after.headed msg + single header msg = s.headed msg + 0 := by
    apply State.headed_update same inside
    · intro other different
      rw [headers, if_neg different]
    · obtain ⟨bound, here⟩ := List.getElem?_eq_some_iff.mp present
      have counted := (List.getElem_cons_eraseIdx_perm bound).count_eq msg
      rw [here, List.count_cons] at counted
      rw [headers, if_pos rfl, ← counted]
      by_cases this : msg = header
      · simp [this]
      · simp [single_of_ne this, Ne.symm this]
  exact taken

/-- How an operation changes the references to messages. -/
theorem Phase.recounts {op : Op} {new : List Op}
    (phase : Phase sys self s op after new) (running : after.halted = none)
    (wellScoped : WellScoped s) (within : op.Within s.bounds)
    (opShaped : op.Shaped s self)
    (alive : ∀ ptr ∈ op.derefs sys self s, s.live ptr = true) :
    Recounts s op after new := by
  by_cases plain : op.moving = false
  · exact phase.recounts_plain running within plain
  have headed : after.pts = s.pts → ∀ msg, after.headed msg = s.headed msg := by
    intro pts msg
    unfold State.headed
    rw [phase.nextPt, pts]
  have silent : op.submitsNow = false → (∀ msg, op ≠ .e2eEnqueue msg) →
      ∀ {msg lost gained}, after.headed msg + opsWeight (Op.refs msg) new +
        lost = s.headed msg + op.refs msg + gained →
      Exchanges s after op new msg lost gained :=
    fun silent enqueues {msg lost gained} moved =>
      phase.exchanges_silent running within silent enqueues moved
  have nothing : ∀ {ops : List Op} {msg : MsgId},
      (∀ op ∈ ops, op.refs msg = 0) → opsWeight (Op.refs msg) ops = 0 :=
    opsWeight_eq_zero
  have still : op.submitsNow = false → (∀ msg, op ≠ .e2eEnqueue msg) →
      Preserves s after → (∀ msg, after.headed msg = s.headed msg) →
      (∀ msg, opsWeight (Op.refs msg) new = op.refs msg) →
      Recounts s op after new := by
    intro silentOp enqueues preserves same refs
    apply Recounts.still preserves
    intro msg
    apply silent silentOp enqueues
    rw [same, refs]
  have grows := phase.extends
  have nextPt := phase.nextPt
  cases phase with
  | quiet quiet =>
      apply Recounts.still (.refl s)
      intro msg
      unfold Exchanges
      dsimp only
      cases quiet <;> first | (exact absurd rfl plain) | simp [Op.refs]
  | @respondUnmatched msg fail kind type fetches fresh absent =>
      obtain ⟨answer, responds, same⟩ := ReqType.responseType_cases fetches
      have resized : Preserves (answering s msg fail kind)
          ((answering s msg fail kind).modMsg s.nextMsg fun m =>
            { m with simulatedSize := 0 }) := .modMsg _ _ rfl rfl
      rw [same] at resized headed
      rw [same]
      apply Recounts.create _ _ resized
      · intro other
        rw [← same]
        apply silent rfl (by simp)
        rw [same, headed rfl]
        simp [Op.refs]
      · rfl
  | @matched msg pt list me fail kind effects stop type fresh found memory
      later stops =>
      have known := msgPtrs_live alive (List.subset_append_left _ _)
      have inside := (wellScoped.tables.matched
        (matched_of_matchEntry found)).1
      have arrives := arrives_deposit within pt list me fail kind stop
        memory.pairs
      have counter : ∀ other, opsWeight (Op.refs other)
          (meCounter s (s.reqOf msg) (s.mes me)) = 0 :=
        fun other => nothing (meCounter_every fun _ _ => rfl)
      apply recounts_matched known.1
      intro other
      apply silent rfl (by simp)
      rw [arrives.headed nextPt inside, opsWeight_append, counter]
      cases kind <;> simp [Op.refs, finishing] <;> omega
  | handleResponse type | handlePtlAck type =>
      apply still rfl (by simp) (.of_tables rfl rfl rfl rfl) (headed rfl)
      simp [Op.refs, releaseAnswered]
  | ackWithoutAnswer type fresh missing => cases running
  | @handleBxiAck msg answered type fresh answers =>
      have changed := Preserves.finished s (s.reqOf msg)
      apply still rfl (by simp) (changed.trans (.touch _ _ _)) (headed rfl)
      simp [Op.refs]
  | @quickAck msg type fail quick =>
      have changed := Preserves.finished s (s.reqOf msg)
      apply still rfl (by simp) { changed with } (headed rfl)
      intro other
      rw [opsWeight_cons, opsWeight_cons,
        nothing (issueAck_every (fun _ _ => rfl) rfl)]
      rfl
  | @sendAck msg type fail slow | @sendBxiAck msg md on =>
      have known := msgPtrs_live alive (List.Subset.refl _)
      apply Recounts.answer _ msg _ known.1 (.refl _)
      · intro other
        apply silent rfl (by simp)
        rw [headed rfl]
        simp [Op.refs]
      · rfl
  | @unref msg _ equality drops =>
      have pts : after.pts = s.pts := by
        cases drops
        rfl
      subst equality
      apply Recounts.drop
      intro other
      apply silent rfl (by simp)
      rw [headed pts]
      rfl
  | e2eEnqueue =>
      exact recounts_enqueue (alive _ List.mem_cons_self) opShaped.1
  | @gaveUp msg pending last =>
      apply Recounts.still
      · exact .of_tables rfl rfl rfl rfl
      · intro other
        have traffic := @State.traffic_kept s self.nid
          (fun node => { node with e2eGaveUp := node.e2eGaveUp + 1 })
          rfl rfl rfl rfl
        unfold Exchanges
        dsimp only
        rw [traffic, headed rfl]
        simp [Op.refs, State.modNode]
  | retransmit pending more =>
      exact recounts_retransmit opShaped.1
  | retryPanic pending beyond => cases running
  | @appendInsert me index scanned =>
      apply still rfl (by simp) (.of_tables rfl rfl rfl rfl)
      · intro msg
        unfold State.headed
        apply total_congr
        intro pt _
        rw [appendInsert_headers]
      · intro msg
        exact nothing (issueLink_every fun _ _ _ => rfl)
  | noMatchedMe found missing => cases running
  | @overflow me index position header matched found deposited =>
      have inside := wellScoped.tables.entries me within
      apply Recounts.still
      · exact .of_tables rfl rfl rfl rfl
      · intro msg
        have taken := headed_overflow nextPt inside
          (BxiPT.findHeader_some found).2.1 (fun other => by
            by_cases this : other = (s.mes me).pt
            · simp [State.emit, State.modPt, State.modMe, this]
            · simp [State.emit, State.modPt, State.modMe, this]) msg
        have event : opsWeight (Op.refs msg)
            (issueEvent (s.pts (s.mes me).pt).eq
              (overflowEvent sys s (s.reqs (s.reqOf header)) matched)
              (.header header me)) = 0 :=
          nothing (issueEvent_every fun _ => rfl)
        have last : Op.refs msg (if (s.mes me).hasOption MeOption.useOnce then
            .appendConsumed me else .walkThroughUHs me position) = 0 := by
          split <;> rfl
        apply silent rfl (by simp)
        rw [opsWeight_append, opsWeight_cons, event, opsWeight_cons, last]
        simp only [Op.refs, opsWeight_nil]
        omega
  | _ => exact absurd rfl plain

/-- The counts of the messages are right. -/
def WellCounted (s : State) : Prop := RefCounted s.nextMsg s.holders s.cells

theorem State.cells_of_live {msg : MsgId} (live : s.live (.msg msg) = true) :
    (s.cells msg).live = true := (s.cells_live msg).trans live

namespace WellCounted

/-- The counts after a change of the references, given the holders after it. -/
theorem recounts {op : Op} {new : List Op} (counted : WellCounted s)
    (recounts : Recounts s op after new) {holders : MsgId → Nat}
    (moved : ∀ {msg lost gained}, Exchanges s after op new msg lost gained →
      holders msg + lost = s.holders msg + gained) :
    RefCounted after.nextMsg holders after.cells := by
  cases recounts with
  | still preserves exchanges =>
      rw [preserves.nextMsg, preserves.cells]
      exact RefCounted.congr counted fun msg => moved (exchanges msg)
  | gain kept live preserves exchanges =>
      have old := State.old_of_live live
      rw [preserves.nextMsg, preserves.cells, s.cells_ref old]
      apply RefCounted.retain counted (State.cells_of_live live)
      intro msg
      exact moved (exchanges msg)
  | @drop msg new exchanges =>
      have nextMsg : (s.unref msg).nextMsg = s.nextMsg := by
        have drops := Drops.unref s msg
        generalize s.unref msg = after at drops
        cases drops
        rfl
      rw [nextMsg, s.cells_unref]
      apply RefCounted.release counted (Nat.lt_succ_self msg)
      intro other
      exact moved (exchanges other)
  | create created cell preserves exchanges =>
      rw [preserves.nextMsg, preserves.cells, s.cells_newMsg, cell]
      apply RefCounted.allocate counted
      · simp
      · intro msg
        rw [if_neg (by simp)]
        exact moved (exchanges msg)
  | deposit created kept cell live preserves exchanges =>
      have old := State.old_of_live live
      have allocated : RefCounted (s.newMsg created).nextMsg
          (fun msg => s.holders msg + single s.nextMsg msg)
          (s.newMsg created).cells := by
        rw [s.cells_newMsg, cell]
        apply RefCounted.allocate counted
        · simp
        · intro msg
          rw [if_neg (by simp)]
          rfl
      rw [preserves.nextMsg, preserves.cells,
        State.cells_ref _ (Nat.lt_succ_of_lt old)]
      apply allocated.retain
      · rw [s.cells_newMsg, Function.update_of_ne (Nat.ne_of_lt old)]
        exact State.cells_of_live live
      · intro msg
        have gains := moved (exchanges msg)
        omega
  | answer created answered cell live preserves exchanges =>
      have old := State.old_of_live live
      have kept : RefCounted s.nextMsg
          (fun msg => s.holders msg + single answered msg)
          (retain s.cells answered) :=
        RefCounted.retain counted (State.cells_of_live live) fun _ => rfl
      rw [preserves.nextMsg, preserves.cells,
        State.cells_ref _ (Nat.lt_succ_of_lt old), s.cells_newMsg, cell,
        retain_update _ (Nat.ne_of_lt old)]
      apply kept.allocate
      · intro msg child
        cases child
        exact old
      · intro msg
        have gains := moved (exchanges msg)
        by_cases same : answered = msg
        · subst same
          rw [if_pos rfl, single_self]
          omega
        · have other : ¬some answered = some msg := fun equal =>
            same (Option.some.inj equal)
          rw [if_neg other, single_of_ne (Ne.symm same)]
          omega

/-- An operation keeps the counts right. -/
theorem run (counted : WellCounted s) (wellScoped : WellScoped s)
    (shaped : Shaped sys s) {index : ThreadId} {op : Op} {rest new : List Op}
    (found : s.threads[index]? = some ⟨self, op :: rest⟩)
    (alive : ∀ ptr ∈ op.derefs sys self s, s.live ptr = true)
    (phase : Phase sys self s op after new) (running : after.halted = none)
    (accounted : Accounted s) (home : Local s)
    (accountedAfter : Accounted { after with
      threads := s.threads.set index ⟨self, new ++ rest⟩ })
    (homeAfter : Local after) :
    WellCounted { after with
      threads := s.threads.set index ⟨self, new ++ rest⟩ } := by
  have member := List.mem_of_getElem? found
  have within := wellScoped.ops _ member op List.mem_cons_self
  have opShaped := shaped.ops _ member op List.mem_cons_self
  apply counted.recounts
    (phase.recounts running wellScoped within opShaped alive)
  intro msg lost gained exchanges
  exact holders_run wellScoped found phase running accounted home
    accountedAfter homeAfter exchanges

/-- The holders of a message when an idle actor starts: what a NIC target takes
from its mailbox it has still to handle. -/
theorem holders_start {index : ThreadId} {label : Label} {new : List Op}
    (wellScoped : WellScoped s) (shaped : Shaped sys s)
    (advances : Advances sys s index label { after with
      threads := s.threads.set index ⟨self, new⟩ })
    (idle : ∀ index, label ≠ .run index) (running : after.halted = none)
    (found : s.threads[index]? = some ⟨self, []⟩)
    (accounted : Accounted s) (home : Local s)
    (accountedAfter : Accounted { after with
      threads := s.threads.set index ⟨self, new⟩ })
    (homeAfter : Local after) (grows : Extends s after)
    (log : after.log = s.log)
    (mailbox : after.traffic.mailbox = s.traffic.mailbox) {msg : MsgId}
    (headed : after.headed msg = s.headed msg) {gained : Nat}
    (moved : (after.traffic.e2e (after.msgs msg).initiator).count msg +
        opsWeight (Op.refs msg) new =
      (s.traffic.e2e (after.msgs msg).initiator).count msg +
        opsWeight (Op.receiving msg) new + gained) :
    State.holders { after with
        threads := s.threads.set index ⟨self, new⟩ } msg =
      s.holders msg + gained := by
  have before := State.holders_ledger accounted home msg
  have later := State.holders_ledger accountedAfter homeAfter msg
  have fielded :=
    (fielded_start wellScoped shaped advances idle running msg).1
  have receives := pending_start_same found new (Op.receiving msg)
  have taken : mailed after.rx (after.msgs msg).target msg +
      opsWeight (Op.receiving msg) new =
        mailed s.rx (s.msgs msg).target msg := by
    unfold State.fielded at fielded
    dsimp only at fielded
    omega
  obtain ⟨same, e2e⟩ := waits_home wellScoped grows msg
  rw [e2e] at moved
  have weights := pending_start_same found new (Op.refs msg)
  unfold State.anchors at before later
  have deliveries : State.deliveries { after with
      threads := s.threads.set index ⟨self, new⟩ } msg = s.deliveries msg := by
    change after.log.countP _ = _
    rw [log]
    rfl
  have kept : State.headed { after with
      threads := s.threads.set index ⟨self, new⟩ } msg = s.headed msg := headed
  have traffic : State.traffic { after with
      threads := s.threads.set index ⟨self, new⟩ } = after.traffic := rfl
  rw [deliveries, kept, traffic, mailbox] at later
  dsimp only at later
  have submitted : after.log.countP (Obs.submits msg) =
      s.log.countP (Obs.submits msg) := by rw [log]
  rw [same] at later
  omega

/-- A step keeps the counts right, unless it frees a portal table entry. -/
theorem advances (counted : WellCounted s) (wellScoped : WellScoped s)
    (shaped : Shaped sys s) {index : ThreadId} {label : Label}
    (advances : Advances sys s index label after)
    (keeps : label.frees = false) (running : after.halted = none)
    (accounted : Accounted s) (home : Local s)
    (accountedAfter : Accounted after) (homeAfter : Local after) :
    WellCounted after := by
  have whole := advances
  have grows := advances.extends
  cases advances with
  | dangling dead owner => cases running
  | run found alive phase =>
      exact counted.run wellScoped shaped found alive phase running accounted
        home accountedAfter homeAfter
  | @recv self position msg found target queued =>
      apply RefCounted.congr counted
      intro other
      change _ = s.holders other + 0
      apply holders_start wellScoped shaped whole (by simp) running found
        accounted home accountedAfter homeAfter { grows with } rfl rfl rfl
      by_cases same : other = msg
      · simp [Op.refs, Op.receiving, same]
        rfl
      · simp [Op.refs, Op.receiving, single_of_ne same, Ne.symm same]
        rfl
  | @take self msg rest found initiator queued =>
      have traffic := s.traffic_take queued
      apply RefCounted.congr counted
      intro other
      change _ = s.holders other + 0
      apply holders_start wellScoped shaped whole (by simp) running found
        accounted home accountedAfter homeAfter { grows with } rfl
      · rw [traffic]
      · rfl
      · rw [traffic]
        rfl
  | @wake self msg rest found e2e alive queued =>
      have traffic : (s.popE2e self.nid).traffic = _ :=
        s.traffic_e2e self.nid List.tail
      have head : s.traffic.e2e self.nid = msg :: rest := queued
      have here : (s.msgs msg).initiator = self.nid :=
        ((shaped.queues.nodes self.nid).e2e msg
          (queued ▸ List.mem_cons_self)).1
      apply RefCounted.congr counted
      intro other
      change _ = s.holders other + 0
      apply holders_start wellScoped shaped whole (by simp) running found
        accounted home accountedAfter homeAfter { grows with } rfl
      · rw [traffic]
      · rfl
      · rw [traffic, head]
        change ((Function.update s.traffic.e2e self.nid rest)
          (s.msgs other).initiator).count other + (single msg other + 0) =
            (s.traffic.e2e (s.msgs other).initiator).count other + 0 + 0
        by_cases same : other = msg
        · subst same
          rw [here, Function.update_self, head, List.count_cons_self,
            single_self]
        · rw [single_of_ne same]
          by_cases home : (s.msgs other).initiator = self.nid
          · rw [home, Function.update_self, head,
              List.count_cons_of_ne (Ne.symm same)]
          · rw [Function.update_of_ne home]
  | @call self call new after found user owned alive phase =>
      obtain ⟨traffic, log, nothing⟩ := phase.carries
      have headed := phase.headed (by rintro ni index rfl; cases keeps)
      have begin : ∀ {gained : MsgId → Nat},
          (∀ msg, opsWeight (Op.refs msg) new =
            opsWeight (Op.receiving msg) new + gained msg) →
          ∀ msg, State.holders { after with
              threads := s.threads.set index ⟨self, new⟩ } msg =
            s.holders msg + gained msg := by
        intro gained refs msg
        apply holders_start wellScoped shaped whole (by simp) running found
          accounted home accountedAfter homeAfter { grows with } log
        · rw [traffic]
        · exact headed msg
        · rw [traffic, refs]
          exact (Nat.add_assoc _ _ _).symm
      have still : Preserves s after →
          (∀ op ∈ new, ∀ msg, op.refs msg = 0 ∧ op.receiving msg = 0) →
          WellCounted { after with
            threads := s.threads.set index ⟨self, new⟩ } := by
        intro preserves light
        have same := @begin (fun _ => 0) fun msg => by
          rw [opsWeight_eq_zero fun op member => (light op member msg).1,
            opsWeight_eq_zero fun op member => (light op member msg).2]
        have preserved : Preserves s { after with
          threads := s.threads.set index ⟨self, new⟩ } := { preserves with }
        have moved : RefCounted s.nextMsg _ s.cells :=
          RefCounted.congr counted same
        rw [← preserved.nextMsg, ← preserved.cells] at moved
        exact moved
      cases phase with
      | pidInUse => cases running
      | ptFree allocated equality frees => cases keeps
      | @request cmd =>
          have same := @begin (single s.nextMsg) fun msg => by
            simp [Op.refs, Op.receiving]
          let created : State := { s with
            reqs := Function.update s.reqs s.nextReq (newRequest sys self cmd)
            nextReq := s.nextReq + 1 }
          have cells : (ptlRequest sys self s cmd).cells =
              Function.update s.cells s.nextMsg
                { live := true, count := 1, child := none } :=
            State.cells_newMsg created (newRequestMsg self cmd s.nextReq)
          have allocated : ∀ {holders : MsgId → Nat},
              (∀ msg, holders msg = s.holders msg + single s.nextMsg msg) →
              RefCounted (s.nextMsg + 1) holders
                (ptlRequest sys self s cmd).cells := by
            intro holders gains
            rw [cells]
            apply RefCounted.allocate counted
            · simp
            · intro msg
              rw [if_neg (by simp)]
              exact gains msg
          exact allocated same
      | meUnlink free unlinks => exact still (.unlinks unlinks) (by simp)
      | appendOverflow allocated =>
          apply still (.of_tables rfl rfl rfl rfl)
          exact issueLink_every fun _ _ _ _ => ⟨rfl, rfl⟩
      | appendPriority allocated =>
          apply still (.of_tables rfl rfl rfl rfl)
          simp [Op.refs, Op.receiving]
      | _ => exact still (.of_tables rfl rfl rfl rfl) (by simp)

end WellCounted

end Steps

end S4BXI
