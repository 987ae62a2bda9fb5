import S4BXI.Lib.Transition
import S4BXI.Portals.Objects

/-!
# Counting events

`BxiCT`: the updates of a counter and the actors which wait for it.  `wait` and
`poll` go to sleep unless the counter is at least the value they wait for,
while `on_update` wakes up the entries whose value is exactly the counter.  An
update therefore loses a wake-up when it jumps over the value of an entry.
-/

namespace S4BXI

open Lib

/-- `ptl_ct_event_t`. -/
structure CtEvent where
  success : Size := 0
  failure : Size := 0
  deriving DecidableEq

/-- What `on_update` resumes: an actor suspended by `PtlCTWait` or the mailbox
of a `PtlCTPoll`. -/
inductive Sleeper where
  | actor (actor : ThreadId)
  | mailbox (mailbox : Nat)
  deriving DecidableEq

/-- `ActorWaitingCT`. -/
structure ActorWaitingCT where
  sleeper : Sleeper
  test : Size
  deriving DecidableEq

/-- `BxiCT`. -/
structure BxiCT where
  event : CtEvent := {}
  waiting : List ActorWaitingCT := []
  deriving DecidableEq

/-- The condition an entry of the waiting list waits for. -/
def CtEvent.reached (event : CtEvent) (test : Size) : Bool :=
  decide (event.success ≥ test) || event.failure != 0

/-- The test of `BxiCT::on_update`. -/
def CtEvent.wakes (event : CtEvent) (test : Size) : Bool :=
  test == event.success || event.failure != 0

/-- The loop of `BxiCT::on_update`: the entries which stay and those which are
woken up.  An entry is erased before it is woken up, and the loop goes on with
the entry behind it. -/
def onUpdateLoop (event : CtEvent) :
    List ActorWaitingCT → List ActorWaitingCT × List ActorWaitingCT
  | [] => ([], [])
  | entry :: rest =>
      let after := onUpdateLoop event rest
      if event.wakes entry.test then
        (after.1, entry :: after.2)
      else
        (entry :: after.1, after.2)

/-- The updates of a counter: `BxiCT::increment_success`, `BxiCT::set_value`
and `BxiCT::increment`. -/
inductive CtUpdate where
  | incrementSuccess (amount : Size)
  | setValue (event : CtEvent)
  | increment (event : CtEvent)
  deriving DecidableEq

/-- The value of the counter after an update. -/
def CtEvent.updated (event : CtEvent) : CtUpdate → CtEvent
  | .incrementSuccess amount =>
      { event with success := add64 event.success amount }
  | .setValue value => value
  | .increment amount =>
      { success := add64 event.success amount.success
        failure := add64 event.failure amount.failure }

namespace BxiCT

/-- `BxiCT::on_update`, with the entries it wakes up. -/
def onUpdate (ct : BxiCT) : BxiCT × List ActorWaitingCT :=
  let after := onUpdateLoop ct.event ct.waiting
  ({ ct with waiting := after.1 }, after.2)

/-- An update of the counter. -/
def update (ct : BxiCT) (update : CtUpdate) :
    BxiCT × List ActorWaitingCT :=
  { ct with event := ct.event.updated update }.onUpdate

/-- `BxiCT::wait` up to the suspension of the actor. -/
def wait (ct : BxiCT) (self : ThreadId) (test : Size) : BxiCT :=
  if ct.event.success < test && ct.event.failure == 0 then
    { ct with waiting := ct.waiting ++ [⟨.actor self, test⟩] }
  else
    ct

/-- The registration of `BxiCT::poll` in one counter. -/
def register (ct : BxiCT) (mailbox : Nat) (test : Size) : BxiCT :=
  { ct with waiting := ct.waiting ++ [⟨.mailbox mailbox, test⟩] }

end BxiCT

/-- A counter passed to `BxiCT::poll`, with its test and the mailbox which
`get_random_mailbox` returns for it. -/
structure PollEntry where
  ct : CtId
  test : Size
  mailbox : Nat
  deriving DecidableEq

/-- `BxiCT::poll` up to `wait_any`. -/
def poll (cts : CtId → BxiCT) (entries : List PollEntry) : CtId → BxiCT :=
  if entries.any fun entry => (cts entry.ct).event.reached entry.test then
    cts
  else
    entries.foldl (fun cts entry => Function.update cts entry.ct
      ((cts entry.ct).register entry.mailbox entry.test)) cts

/-- The calls on the counters. -/
inductive CtCall where
  | wait (self : ThreadId) (ct : CtId) (test : Size)
  | poll (entries : List PollEntry)
  | update (ct : CtId) (update : CtUpdate)

/-- The counters after a call. -/
def ctStep (cts : CtId → BxiCT) : CtCall → Option (CtId → BxiCT)
  | .wait self ct test =>
      some (Function.update cts ct ((cts ct).wait self test))
  | .poll entries => some (poll cts entries)
  | .update ct update =>
      some (Function.update cts ct ((cts ct).update update).1)

/-- Newly allocated counters. -/
def initialCounters : CtId → BxiCT := fun _ => {}

/-- The update wakes up the entries whose condition holds, and no other. -/
def BxiCT.WakesAll (ct : BxiCT) (update : CtUpdate) : Prop :=
  (∀ entry ∈ (ct.update update).1.waiting,
      (ct.event.updated update).reached entry.test = false) ∧
    ∀ entry ∈ (ct.update update).2,
      (ct.event.updated update).reached entry.test = true

/-- The update does not jump over the value an entry waits for. -/
def BxiCT.Hits (ct : BxiCT) (update : CtUpdate) : Prop :=
  (ct.event.updated update).failure ≠ 0 ∨
    ∀ entry ∈ ct.waiting, (ct.event.updated update).success ≤ entry.test

/-- The updates of the counters hit the values which are waited for. -/
def CtCall.Hits (cts : CtId → BxiCT) : CtCall → Prop
  | .update ct new => (cts ct).Hits new
  | _ => True

/-- No entry waits for a condition which holds. -/
def BxiCT.Asleep (ct : BxiCT) : Prop :=
  ∀ entry ∈ ct.waiting, ct.event.reached entry.test = false

section Loop

variable {event : CtEvent} {waiting : List ActorWaitingCT}

theorem onUpdateLoop_kept : (onUpdateLoop event waiting).1 =
    waiting.filter fun entry => !event.wakes entry.test := by
  induction waiting with
  | nil => rfl
  | cons entry rest induction =>
      simp only [onUpdateLoop]
      split
      · rename_i wakes
        rw [induction, List.filter_cons_of_neg (by simp [wakes])]
      · rename_i sleeps
        rw [List.filter_cons_of_pos (by simpa using sleeps), induction]

theorem onUpdateLoop_woken : (onUpdateLoop event waiting).2 =
    waiting.filter fun entry => event.wakes entry.test := by
  induction waiting with
  | nil => rfl
  | cons entry rest induction =>
      simp only [onUpdateLoop]
      split
      · rename_i wakes
        rw [List.filter_cons_of_pos (by simpa using wakes), induction]
      · rename_i sleeps
        rw [induction, List.filter_cons_of_neg (by simpa using sleeps)]

end Loop

/-- What is woken up has reached its value. -/
theorem CtEvent.reached_of_wakes {event : CtEvent} {test : Size}
    (wakes : event.wakes test = true) : event.reached test = true := by
  unfold CtEvent.wakes at wakes
  unfold CtEvent.reached
  rcases (Bool.or_eq_true _ _).mp wakes with equal | failed
  · have same : test = event.success := by simpa using equal
    simp [same]
  · simp [failed]

/-- What is not woken up has not reached its value, unless the counter jumped
over it. -/
theorem CtEvent.reached_of_sleeps {event : CtEvent} {test : Size}
    (sleeps : event.wakes test = false) :
    event.reached test = false ↔ event.success ≤ test := by
  unfold CtEvent.wakes at sleeps
  unfold CtEvent.reached
  simp only [Bool.or_eq_false_iff, beq_eq_false_iff_ne, bne_eq_false_iff_eq]
    at sleeps
  obtain ⟨differs, succeeded⟩ := sleeps
  simp only [succeeded, Bool.or_eq_false_iff, decide_eq_false_iff_not,
    bne_self_eq_false, and_true, ge_iff_le, not_le]
  exact ⟨Nat.le_of_lt, fun below => Nat.lt_of_le_of_ne below (Ne.symm differs)⟩

namespace BxiCT

variable {ct : BxiCT}

theorem update_waiting (update : CtUpdate) : (ct.update update).1.waiting =
    ct.waiting.filter fun entry =>
      !(ct.event.updated update).wakes entry.test :=
  onUpdateLoop_kept

theorem update_event (update : CtUpdate) :
    (ct.update update).1.event = ct.event.updated update := rfl

/-- An update loses no wake-up exactly when it hits. -/
theorem wakesAll_iff_hits (update : CtUpdate) :
    ct.WakesAll update ↔ ct.Hits update := by
  have woken : ∀ entry ∈ (ct.update update).2,
      (ct.event.updated update).reached entry.test = true := by
    intro entry member
    change entry ∈ (onUpdateLoop _ _).2 at member
    rw [onUpdateLoop_woken] at member
    exact CtEvent.reached_of_wakes (List.mem_filter.mp member).2
  unfold WakesAll Hits
  rw [update_waiting]
  constructor
  · rintro ⟨kept, -⟩
    by_cases failed : (ct.event.updated update).failure = 0
    · right
      intro entry member
      cases wakes : (ct.event.updated update).wakes entry.test with
      | true =>
          have equal : entry.test = (ct.event.updated update).success := by
            simpa [CtEvent.wakes, failed] using wakes
          exact equal.ge
      | false =>
          exact (CtEvent.reached_of_sleeps wakes).mp
            (kept entry (List.mem_filter.mpr ⟨member, by simp [wakes]⟩))
    · exact .inl failed
  · intro hits
    refine ⟨fun entry member => ?_, woken⟩
    obtain ⟨waits, sleeps⟩ := List.mem_filter.mp member
    have sleeps' : (ct.event.updated update).wakes entry.test = false := by
      simpa using sleeps
    rcases hits with failed | below
    · simp [CtEvent.wakes, failed] at sleeps'
    · exact (CtEvent.reached_of_sleeps sleeps').mpr (below entry waits)

theorem Asleep.wait (asleep : ct.Asleep) (self : ThreadId) (test : Size) :
    (ct.wait self test).Asleep := by
  unfold BxiCT.wait
  split
  · rename_i below
    intro entry member
    rcases List.mem_append.mp member with old | new
    · exact asleep entry old
    · rw [List.mem_singleton.mp new]
      simp only [Bool.and_eq_true, decide_eq_true_eq, beq_iff_eq] at below
      simp [CtEvent.reached, below.1, below.2]
  · exact asleep

theorem Asleep.register (asleep : ct.Asleep) {mailbox : Nat} {test : Size}
    (below : ct.event.reached test = false) :
    (ct.register mailbox test).Asleep := by
  intro entry member
  rcases List.mem_append.mp member with old | new
  · exact asleep entry old
  · rw [List.mem_singleton.mp new]
    exact below

theorem Asleep.update {update : CtUpdate} (hits : ct.Hits update) :
    (ct.update update).1.Asleep := by
  intro entry member
  rw [update_event]
  exact ((wakesAll_iff_hits update).mpr hits).1 entry member

end BxiCT

/-- The loop of `poll` registers in counters which have not been reached. -/
theorem poll_asleep {cts : CtId → BxiCT} (entries : List PollEntry)
    (asleep : ∀ ct, (cts ct).Asleep) : ∀ ct, (poll cts entries ct).Asleep := by
  unfold poll
  split
  · exact asleep
  · rename_i absent
    have below : ∀ entry ∈ entries,
        (cts entry.ct).event.reached entry.test = false := by
      simpa using absent
    clear absent
    -- the registrations leave the values of the counters as they are
    induction entries generalizing cts with
    | nil => exact asleep
    | cons entry rest induction =>
        refine induction (fun ct => ?_) fun other member => ?_
        · simp only [Function.update_apply]
          split
          · exact (asleep entry.ct).register
              (below entry List.mem_cons_self)
          · exact asleep ct
        · simp only [Function.update_apply]
          split
          · rename_i same
            rw [← same]
            exact below other (List.mem_cons_of_mem _ member)
          · exact below other (List.mem_cons_of_mem _ member)

/-- Runs whose updates all hit lose no wake-up. -/
theorem counters_asleep {cts : CtId → BxiCT}
    (reached : Reached ctStep CtCall.Hits initialCounters cts) :
    ∀ ct, (cts ct).Asleep := by
  let Along (state : CtId → BxiCT) : Prop := ∀ ct, (state ct).Asleep
  have along : Along cts := by
    refine reached.invariant (fun ct entry member => by cases member) ?_
    intro before after call asleep hits stepped
    cases call with
    | wait self ct test =>
        cases stepped
        intro other
        simp only [Function.update_apply]
        split
        · exact (asleep ct).wait self test
        · exact asleep other
    | poll entries =>
        cases stepped
        exact poll_asleep entries asleep
    | update ct update =>
        cases stepped
        intro other
        simp only [Function.update_apply]
        split
        · exact BxiCT.Asleep.update hits
        · exact asleep other
  exact along

end S4BXI
