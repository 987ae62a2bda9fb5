import Mathlib
import S4BXI.Lib.Transition
import S4BXI.Portals.Objects

/-!
# Polling several event queues

`BxiEQ::poll` posts a receive on the mailbox of every queue.  All of them store
the event which they receive in the same pointer, so the event of each receive
which completes before the call returns replaces the one before.
-/

namespace S4BXI

open Lib

/-- A receive which has completed with an event of a queue. -/
structure CompletedReceive where
  index : Nat
  eq : EqId
  event : Event
  deriving DecidableEq

/-- What an actor is doing between two simcalls. -/
inductive EqActivity where
  | idle
  /-- `BxiEQ::wait`. -/
  | waiting (eq : EqId)
  /-- The loop of `poll` which posts the receives from `next` on. -/
  | posting (eqs : List EqId) (forever : Bool) (next : Nat)
  /-- `poll` in `wait_any`. -/
  | polling (eqs : List EqId) (forever : Bool)
  /-- The loop of `poll` which cancels the receives from `next` on. -/
  | cancelling (eqs : List EqId) (which : Option Nat) (next : Nat)
  deriving DecidableEq

/-- An actor with its `ev_ptr`.  `held` are the receives which have completed
in its call. -/
structure EqActor where
  activity : EqActivity := .idle
  evPtr : Option Event := none
  held : List CompletedReceive := []

/-- What happens to the events: they reach a queue, a receive of an actor takes
them from it, and a call returns them. -/
inductive EqPollObs where
  | put (eq : EqId) (event : Event)
  | took (actor : ThreadId) (eq : EqId) (event : Event)
  | returned (actor : ThreadId) (eq : EqId) (event : Event)

/-- The events in the mailboxes of the queues, the receives which wait there in
the order in which they were posted, and the actors. -/
structure EqPolls where
  contents : EqId → List Event := fun _ => []
  receives : EqId → List (ThreadId × Nat) := fun _ => []
  actors : ThreadId → EqActor := fun _ => {}
  log : List EqPollObs := []

namespace EqPolls

variable (s : EqPolls)

def setActor (actor : ThreadId) (value : EqActor) : EqPolls :=
  { s with actors := Function.update s.actors actor value }

def act (actor : ThreadId) (activity : EqActivity) : EqPolls :=
  s.setActor actor { s.actors actor with activity := activity }

def emit (obs : EqPollObs) : EqPolls :=
  { s with log := s.log ++ [obs] }

/-- A receive completes: it stores the event in the pointer of its call. -/
def complete (actor : ThreadId) (index : Nat) (eq : EqId) (event : Event) :
    EqPolls :=
  (s.setActor actor
    { s.actors actor with
      evPtr := some event
      held := (s.actors actor).held ++ [⟨index, eq, event⟩] }).emit
    (.took actor eq event)

/-- `get_async` and `get_init`: a receive on the mailbox of a queue. -/
def post (actor : ThreadId) (index : Nat) (eq : EqId) : EqPolls :=
  match s.contents eq with
  | [] =>
      { s with
        receives := Function.update s.receives eq
          (s.receives eq ++ [(actor, index)]) }
  | event :: rest =>
      { s with contents := Function.update s.contents eq rest }.complete actor
        index eq event

/-- `BxiNode::issue_event`: a put to the mailbox of a queue. -/
def issueEvent (eq : EqId) (event : Event) : EqPolls :=
  let issued := s.emit (.put eq event)
  match s.receives eq with
  | [] =>
      { issued with
        contents := Function.update s.contents eq (s.contents eq ++ [event]) }
  | (actor, index) :: rest =>
      { issued with
        receives := Function.update s.receives eq rest
        }.complete actor index eq event

/-- `cancel` of a receive. -/
def cancel (actor : ThreadId) (index : Nat) (eq : EqId) : EqPolls :=
  { s with
    receives := Function.update s.receives eq
      ((s.receives eq).filter fun receive => receive ≠ (actor, index)) }

/-- The return of a call, with an event of a queue or without one. -/
def finish (actor : ThreadId) (result : Option (EqId × Event)) : EqPolls :=
  match result with
  | none => s.setActor actor {}
  | some (eq, event) => (s.setActor actor {}).emit (.returned actor eq event)

/-- `BxiEQ::wait` on a mailbox which has an event. -/
def waitReady (actor : ThreadId) (eq : EqId) (event : Event)
    (rest : List Event) : EqPolls :=
  ({ s with contents := Function.update s.contents eq rest }.emit
    (.took actor eq event)).emit (.returned actor eq event)

/-- The first queue which has an event. -/
def firstReady : List EqId → Option (EqId × Event × List Event)
  | [] => none
  | eq :: rest =>
      match s.contents eq with
      | [] => firstReady rest
      | event :: later => some (eq, event, later)

/-- The result of `poll` after its receives have been cancelled. -/
def pollResult (actor : ThreadId) (eqs : List EqId) (which : Option Nat) :
    Option (EqId × Event) :=
  match which.bind (eqs[·]?), (s.actors actor).evPtr with
  | some eq, some event => some (eq, event)
  | _, _ => none

/-- The next simcall of an actor which is not blocked. -/
def runActor (actor : ThreadId) : Option EqPolls :=
  match (s.actors actor).activity with
  | .idle | .polling _ _ => none
  | .waiting eq =>
      (s.actors actor).evPtr.map fun event => s.finish actor (some (eq, event))
  | .posting eqs forever next =>
      match eqs[next]? with
      | some eq =>
          some ((s.act actor (.posting eqs forever (next + 1))).post actor next
            eq)
      | none => some (s.act actor (.polling eqs forever))
  | .cancelling eqs which next =>
      match eqs[next]? with
      | some eq =>
          some ((s.act actor (.cancelling eqs which (next + 1))).cancel actor
            next eq)
      | none => some (s.finish actor (s.pollResult actor eqs which))

end EqPolls

/-- The steps.  `wakeAny` is the return of `wait_any` or `wait_any_for`, with
the index of a receive which has completed or after the timeout. -/
inductive EqPollLabel where
  | issue (eq : EqId) (event : Event)
  | get (actor : ThreadId) (eq : EqId)
  | wait (actor : ThreadId) (eq : EqId)
  | poll (actor : ThreadId) (eqs : List EqId) (forever : Bool)
  | wakeAny (actor : ThreadId) (which : Option Nat)
  | run (actor : ThreadId)

def eqPollStep (s : EqPolls) : EqPollLabel → Option EqPolls
  | .issue eq event => some (s.issueEvent eq event)
  | .get actor eq =>
      if (s.actors actor).activity = .idle then
        match s.contents eq with
        | [] => some s
        | event :: rest => some (s.waitReady actor eq event rest)
      else
        none
  | .wait actor eq =>
      if (s.actors actor).activity = .idle then
        some ((s.act actor (.waiting eq)).post actor 0 eq)
      else
        none
  | .poll actor eqs forever =>
      if (s.actors actor).activity = .idle then
        match s.firstReady eqs with
        | some (eq, event, rest) => some (s.waitReady actor eq event rest)
        | none => some (s.act actor (.posting eqs forever 0))
      else
        none
  | .wakeAny actor which =>
      match (s.actors actor).activity with
      | .polling eqs forever =>
          let possible :=
            match which with
            | none => !forever
            | some index =>
                (s.actors actor).held.any fun done => done.index = index
          if possible = true then
            some (s.act actor (.cancelling eqs which 0))
          else
            none
      | _ => none
  | .run actor => s.runActor actor

namespace EqPolls

/-- The events which reached a queue, and those which receives took from it. -/
def puts (s : EqPolls) (eq : EqId) : List Event :=
  s.log.filterMap fun
    | .put eq' event => if eq' = eq then some event else none
    | _ => none

def takes (s : EqPolls) (eq : EqId) : List Event :=
  s.log.filterMap fun
    | .took _ eq' event => if eq' = eq then some event else none
    | _ => none

/-- The events which an actor took, and those which its calls returned, with
their queues. -/
def takenBy (s : EqPolls) (actor : ThreadId) : List (EqId × Event) :=
  s.log.filterMap fun
    | .took actor' eq event => if actor' = actor then some (eq, event) else none
    | _ => none

def returnedTo (s : EqPolls) (actor : ThreadId) : List (EqId × Event) :=
  s.log.filterMap fun
    | .returned actor' eq event =>
        if actor' = actor then some (eq, event) else none
    | _ => none

/-- What the receives of the running call of an actor have taken. -/
def heldBy (s : EqPolls) (actor : ThreadId) : List (EqId × Event) :=
  (s.actors actor).held.map fun done => (done.eq, done.event)

end EqPolls

/-- What `poll` needs when it returns: one of its receives has completed if
`wait_any` returned one, and none after a timeout. -/
def EqPollLabel.Single (s : EqPolls) : EqPollLabel → Prop
  | .run actor =>
      match (s.actors actor).activity with
      | .cancelling eqs which next =>
          eqs[next]? = none →
            (s.actors actor).held.length = if which.isSome then 1 else 0
      | _ => True
  | _ => True

/-! ## Receives and completed receives -/

/-- A receive which a call may have on the mailbox of a queue. -/
def EqActivity.Owns (index : Nat) (eq : EqId) : EqActivity → Prop
  | .idle => False
  | .waiting own => own = eq ∧ index = 0
  | .posting eqs _ next => index < next ∧ eqs[index]? = some eq
  | .polling eqs _ => eqs[index]? = some eq
  | .cancelling eqs _ next => next ≤ index ∧ eqs[index]? = some eq

/-- A receive of a call which may have completed. -/
def EqActivity.Holds (done : CompletedReceive) : EqActivity → Prop
  | .idle => False
  | .waiting own => own = done.eq
  | .posting eqs _ _ | .polling eqs _ | .cancelling eqs _ _ =>
      eqs[done.index]? = some done.eq

namespace EqPolls

variable {s after : EqPolls}

/-- A call of `wait` has one receive, which waits or has completed. -/
def Once (s : EqPolls) (actor : ThreadId) : Prop :=
  (s.actors actor).held = [] ∨ (s.actors actor).held.length = 1 ∧
    ∀ eq index, (actor, index) ∉ s.receives eq

/-- The events of a queue are taken in their order, and the receives and what
they took belong to running calls. -/
structure Sound (s : EqPolls) : Prop where
  fifo : ∀ eq, s.puts eq = s.takes eq ++ s.contents eq
  apart : ∀ eq, s.contents eq = [] ∨ s.receives eq = []
  owns : ∀ eq actor index, (actor, index) ∈ s.receives eq →
    (s.actors actor).activity.Owns index eq
  distinct : ∀ eq, (s.receives eq).Nodup
  holds : ∀ actor, ∀ done ∈ (s.actors actor).held,
    (s.actors actor).activity.Holds done
  last : ∀ actor, (s.actors actor).evPtr =
    (s.actors actor).held.getLast?.map CompletedReceive.event
  once : ∀ actor eq, (s.actors actor).activity = .waiting eq → s.Once actor
  chosen : ∀ actor eqs which next,
    (s.actors actor).activity = .cancelling eqs (some which) next →
      ∃ done ∈ (s.actors actor).held, done.index = which

theorem sound_initial : ({} : EqPolls).Sound :=
  { fifo := fun _ => rfl
    apart := fun _ => .inl rfl
    owns := by simp
    distinct := fun _ => .nil
    holds := by simp
    last := fun _ => rfl
    once := by simp
    chosen := by simp }

theorem Sound.idle_held (sound : s.Sound) {actor : ThreadId}
    (idle : (s.actors actor).activity = .idle) :
    (s.actors actor).held = [] := by
  apply List.eq_nil_iff_forall_not_mem.mpr
  intro done member
  have holds := sound.holds actor done member
  rw [idle] at holds
  exact holds

theorem Sound.idle_receives (sound : s.Sound) {actor : ThreadId}
    (idle : (s.actors actor).activity = .idle) (eq : EqId) (index : Nat) :
    (actor, index) ∉ s.receives eq := by
  intro member
  have owns := sound.owns eq actor index member
  rw [idle] at owns
  exact owns

theorem setActor_self (actor : ThreadId) (value : EqActor) :
    (s.setActor actor value).actors actor = value :=
  Function.update_self ..

theorem setActor_of_ne {actor other : ThreadId} (different : other ≠ actor)
    (value : EqActor) :
    (s.setActor actor value).actors other = s.actors other :=
  Function.update_of_ne different ..

/-- An actor goes on to an activity which has its receives too. -/
theorem Sound.act (sound : s.Sound) {actor : ThreadId}
    {activity : EqActivity}
    (owns : ∀ index eq, (actor, index) ∈ s.receives eq →
      activity.Owns index eq)
    (holds : ∀ done ∈ (s.actors actor).held, activity.Holds done)
    (once : ∀ eq, activity = .waiting eq → s.Once actor)
    (chosen : ∀ eqs which next, activity = .cancelling eqs (some which) next →
      ∃ done ∈ (s.actors actor).held, done.index = which) :
    (s.act actor activity).Sound := by
  have same : ∀ other, ((s.act actor activity).actors other).held =
        (s.actors other).held ∧
      ((s.act actor activity).actors other).evPtr =
        (s.actors other).evPtr := by
    intro other
    by_cases own : other = actor
    · subst own
      rw [EqPolls.act, setActor_self]
      exact ⟨rfl, rfl⟩
    · rw [EqPolls.act, setActor_of_ne own]
      exact ⟨rfl, rfl⟩
  have current : ∀ other, ((s.act actor activity).actors other).activity =
      if other = actor then activity else (s.actors other).activity := by
    intro other
    by_cases own : other = actor
    · subst own
      rw [EqPolls.act, setActor_self, if_pos rfl]
    · rw [EqPolls.act, setActor_of_ne own, if_neg own]
  constructor
  · exact sound.fifo
  · exact sound.apart
  · intro eq other index member
    have before := sound.owns eq other index member
    rw [current]
    split
    · rename_i own
      subst own
      exact owns index eq member
    · exact before
  · exact sound.distinct
  · intro other done member
    rw [(same other).1] at member
    have before := sound.holds other done member
    rw [current]
    split
    · rename_i own
      subst own
      exact holds done member
    · exact before
  · intro other
    rw [(same other).1, (same other).2]
    exact sound.last other
  · intro other eq waits
    rw [current] at waits
    have before : s.Once other := by
      split at waits
      · rename_i own
        subst own
        exact once eq waits
      · exact sound.once other eq waits
    unfold Once at before ⊢
    rw [(same other).1]
    exact before
  · intro other eqs which next cancels
    rw [current] at cancels
    rw [(same other).1]
    split at cancels
    · rename_i own
      subst own
      exact chosen eqs which next cancels
    · exact sound.chosen other eqs which next cancels

/-! ## The log -/

theorem puts_emit (obs : EqPollObs) (eq : EqId) :
    (s.emit obs).puts eq = s.puts eq ++ (match obs with
      | .put eq' event => if eq' = eq then [event] else []
      | _ => []) := by
  simp only [puts, emit, List.filterMap_append]
  cases obs with
  | put eq' event =>
      by_cases same : eq' = eq <;> simp [same]
  | took actor eq' event => simp
  | returned actor eq' event => simp

theorem takes_emit (obs : EqPollObs) (eq : EqId) :
    (s.emit obs).takes eq = s.takes eq ++ (match obs with
      | .took _ eq' event => if eq' = eq then [event] else []
      | _ => []) := by
  simp only [takes, emit, List.filterMap_append]
  cases obs with
  | put eq' event => simp
  | took actor eq' event =>
      by_cases same : eq' = eq <;> simp [same]
  | returned actor eq' event => simp

theorem takenBy_emit (obs : EqPollObs) (actor : ThreadId) :
    (s.emit obs).takenBy actor = s.takenBy actor ++ (match obs with
      | .took actor' eq event => if actor' = actor then [(eq, event)] else []
      | _ => []) := by
  simp only [takenBy, emit, List.filterMap_append]
  cases obs with
  | put eq' event => simp
  | took actor' eq' event =>
      by_cases same : actor' = actor <;> simp [same]
  | returned actor' eq' event => simp

theorem returnedTo_emit (obs : EqPollObs) (actor : ThreadId) :
    (s.emit obs).returnedTo actor = s.returnedTo actor ++ (match obs with
      | .returned actor' eq event =>
          if actor' = actor then [(eq, event)] else []
      | _ => []) := by
  simp only [returnedTo, emit, List.filterMap_append]
  cases obs with
  | put eq' event => simp
  | took actor' eq' event => simp
  | returned actor' eq' event =>
      by_cases same : actor' = actor <;> simp [same]

/-! ## The steps keep the receives apart -/

theorem complete_actor (actor : ThreadId) (index : Nat) (eq : EqId)
    (event : Event) (other : ThreadId) :
    (s.complete actor index eq event).actors other =
      if other = actor then
        { s.actors actor with
          evPtr := some event
          held := (s.actors actor).held ++ [⟨index, eq, event⟩] }
      else s.actors other := by
  change Function.update s.actors actor _ other = _
  rw [Function.update_apply]

/-- A receive completes with an event which is no longer in its queue. -/
theorem Sound.complete (sound : s.Sound) {base : EqPolls} {actor : ThreadId}
    {index : Nat} {eq : EqId} {event : Event}
    (actors : base.actors = s.actors)
    (fifo : ∀ queue, base.puts queue = base.takes queue ++
      (if eq = queue then [event] else []) ++ base.contents queue)
    (apart : ∀ queue, base.contents queue = [] ∨ base.receives queue = [])
    (fewer : ∀ queue, (base.receives queue).Sublist (s.receives queue))
    (holds : (s.actors actor).activity.Holds ⟨index, eq, event⟩)
    (once : ∀ own, (s.actors actor).activity = .waiting own →
      (s.actors actor).held = [] ∧
        ∀ queue place, (actor, place) ∉ base.receives queue) :
    (base.complete actor index eq event).Sound := by
  have current : ∀ other,
      ((base.complete actor index eq event).actors other).activity =
        (s.actors other).activity := by
    intro other
    rw [complete_actor, actors]
    split
    · rename_i own
      subst own
      rfl
    · rfl
  constructor
  · intro queue
    change (EqPolls.emit _ _).puts queue =
      (EqPolls.emit _ _).takes queue ++ base.contents queue
    rw [puts_emit, takes_emit, List.append_nil]
    exact fifo queue
  · exact apart
  · intro queue other place member
    rw [current]
    exact sound.owns queue other place ((fewer queue).subset member)
  · intro queue
    exact (sound.distinct queue).sublist (fewer queue)
  · intro other done member
    rw [current]
    rw [complete_actor, actors] at member
    split at member
    · rename_i own
      subst own
      rcases List.mem_append.mp member with old | new
      · exact sound.holds other done old
      · rw [List.mem_singleton.mp new]
        exact holds
    · exact sound.holds other done member
  · intro other
    rw [complete_actor, actors]
    split
    · simp
    · exact sound.last other
  · intro other own waits
    rw [current] at waits
    unfold Once
    rw [complete_actor, actors]
    split
    · rename_i same
      subst same
      obtain ⟨empty, gone⟩ := once own waits
      right
      exact ⟨by simp [empty], gone⟩
    · rcases sound.once other own waits with empty | ⟨one, gone⟩
      · exact .inl empty
      · exact .inr ⟨one, fun queue place member =>
          gone queue place ((fewer queue).subset member)⟩
  · intro other eqs which next cancels
    rw [current] at cancels
    obtain ⟨done, member, same⟩ := sound.chosen other eqs which next cancels
    refine ⟨done, ?_, same⟩
    rw [complete_actor, actors]
    split
    · rename_i own
      subst own
      exact List.mem_append_left _ member
    · exact member

/-- A receive is posted by a call which may have it. -/
theorem Sound.post (sound : s.Sound) {actor : ThreadId} {index : Nat}
    {eq : EqId} (owns : (s.actors actor).activity.Owns index eq)
    (holds : ∀ event, (s.actors actor).activity.Holds ⟨index, eq, event⟩)
    (fresh : ∀ queue, (actor, index) ∉ s.receives queue)
    (once : ∀ own, (s.actors actor).activity = .waiting own →
      (s.actors actor).held = [] ∧
        ∀ queue place, (actor, place) ∉ s.receives queue) :
    (s.post actor index eq).Sound := by
  unfold EqPolls.post
  split
  · rename_i empty
    have member : ∀ queue receive, receive ∈ (Function.update s.receives eq
        (s.receives eq ++ [(actor, index)])) queue ↔
          receive ∈ s.receives queue ∨ queue = eq ∧ receive = (actor, index) := by
      intro queue receive
      rw [Function.update_apply]
      split
      · rename_i same
        subst same
        simp
      · rename_i different
        simp [different]
    constructor
    · exact sound.fifo
    · intro queue
      by_cases same : queue = eq
      · subst same
        exact .inl empty
      · simp only [Function.update_of_ne same]
        exact sound.apart queue
    · intro queue other place inside
      rcases (member queue _).mp inside with old | ⟨rfl, new⟩
      · exact sound.owns queue other place old
      · cases new
        exact owns
    · intro queue
      by_cases same : queue = eq
      · subst same
        simp only [Function.update_self]
        refine List.nodup_append.mpr
          ⟨sound.distinct queue, List.nodup_singleton _, ?_⟩
        intro receive old other new equal
        rw [equal, List.mem_singleton.mp new] at old
        exact fresh queue old
      · simp only [Function.update_of_ne same]
        exact sound.distinct queue
    · exact sound.holds
    · exact sound.last
    · intro other own waits
      by_cases same : other = actor
      · subst same
        exact .inl (once own waits).1
      · rcases sound.once other own waits with none' | ⟨one, gone⟩
        · exact .inl none'
        · refine .inr ⟨one, fun queue place inside => ?_⟩
          rcases (member queue _).mp inside with old | ⟨-, new⟩
          · exact gone queue place old
          · cases new
            exact same rfl
    · exact sound.chosen
  · rename_i event rest full
    apply sound.complete
    · rfl
    · intro queue
      change s.puts queue = s.takes queue ++ _ ++ Function.update s.contents eq
        rest queue
      rw [sound.fifo queue, Function.update_apply]
      by_cases same : queue = eq
      · subst same
        simp [full]
      · simp [same, Ne.symm same]
    · intro queue
      by_cases same : queue = eq
      · subst same
        refine .inr ((sound.apart queue).resolve_left ?_)
        rw [full]
        simp
      · simp only [Function.update_of_ne same]
        exact sound.apart queue
    · exact fun queue => List.Sublist.refl _
    · exact holds event
    · exact once

/-- An event reaches a queue. -/
theorem Sound.issueEvent (sound : s.Sound) (eq : EqId) (event : Event) :
    (s.issueEvent eq event).Sound := by
  unfold EqPolls.issueEvent
  dsimp only
  split
  · rename_i empty
    constructor
    · intro queue
      change (s.emit _).puts queue = (s.emit _).takes queue ++
        Function.update s.contents eq _ queue
      rw [puts_emit, takes_emit, List.append_nil, sound.fifo queue,
        Function.update_apply]
      by_cases same : queue = eq
      · subst same
        simp
      · simp [same, Ne.symm same]
    · intro queue
      by_cases same : queue = eq
      · subst same
        exact .inr empty
      · simp only [Function.update_of_ne same]
        exact sound.apart queue
    · exact sound.owns
    · exact sound.distinct
    · exact sound.holds
    · exact sound.last
    · exact sound.once
    · exact sound.chosen
  · rename_i actor index rest full
    have empty : s.contents eq = [] := by
      refine (sound.apart eq).resolve_right ?_
      rw [full]
      simp
    have first : (actor, index) ∈ s.receives eq := by
      rw [full]
      exact List.mem_cons_self
    have owns := sound.owns eq actor index first
    have fewer : ∀ queue, (Function.update s.receives eq rest queue).Sublist
        (s.receives queue) := by
      intro queue
      rw [Function.update_apply]
      split
      · rename_i same
        rw [same, full]
        exact List.sublist_cons_self _ _
      · exact List.Sublist.refl _
    apply sound.complete
    · rfl
    · intro queue
      change (s.emit _).puts queue = (s.emit _).takes queue ++ _ ++
        s.contents queue
      rw [puts_emit, takes_emit, List.append_nil, sound.fifo queue]
      by_cases same : eq = queue
      · subst same
        simp [empty]
      · simp [same]
    · intro queue
      by_cases same : queue = eq
      · subst same
        exact .inl empty
      · simp only [Function.update_of_ne same]
        exact sound.apart queue
    · exact fewer
    · cases current : (s.actors actor).activity with
      | idle =>
          rw [current] at owns
          cases owns
      | waiting own =>
          rw [current] at owns
          exact owns.1
      | posting eqs forever next =>
          rw [current] at owns
          exact owns.2
      | polling eqs forever =>
          rw [current] at owns
          exact owns
      | cancelling eqs which next =>
          rw [current] at owns
          exact owns.2
    · intro own waits
      constructor
      · rcases sound.once actor own waits with none' | ⟨-, gone⟩
        · exact none'
        · exact absurd first (gone eq index)
      · intro queue place inside
        have before := sound.owns queue actor place
          ((fewer queue).subset inside)
        rw [waits] at before owns
        obtain ⟨rfl, rfl⟩ := before
        obtain ⟨rfl, rfl⟩ := owns
        have distinct := sound.distinct own
        rw [full] at distinct
        change (actor, 0) ∈ Function.update s.receives own rest own at inside
        rw [Function.update_self] at inside
        exact (List.nodup_cons.mp distinct).1 inside

/-- A receive is withdrawn, if it still waits. -/
theorem Sound.cancel (sound : s.Sound) (actor : ThreadId) (index : Nat)
    (eq : EqId) : (s.cancel actor index eq).Sound := by
  have fewer : ∀ queue, ((s.cancel actor index eq).receives queue).Sublist
      (s.receives queue) := by
    intro queue
    change (Function.update s.receives eq _ queue).Sublist _
    rw [Function.update_apply]
    split
    · rename_i same
      rw [same]
      exact List.filter_sublist
    · exact List.Sublist.refl _
  constructor
  · exact sound.fifo
  · intro queue
    apply (sound.apart queue).imp_right
    intro empty
    exact List.sublist_nil.mp (empty ▸ fewer queue)
  · intro queue other place member
    exact sound.owns queue other place ((fewer queue).subset member)
  · intro queue
    exact (sound.distinct queue).sublist (fewer queue)
  · exact sound.holds
  · exact sound.last
  · intro other own waits
    rcases sound.once other own waits with empty | ⟨one, gone⟩
    · exact .inl empty
    · exact .inr ⟨one, fun queue place member =>
        gone queue place ((fewer queue).subset member)⟩
  · exact sound.chosen

theorem Sound.returned (sound : s.Sound) (actor : ThreadId) (eq : EqId)
    (event : Event) : (s.emit (.returned actor eq event)).Sound := by
  constructor
  · intro queue
    rw [puts_emit, takes_emit, List.append_nil, List.append_nil]
    exact sound.fifo queue
  · exact sound.apart
  · exact sound.owns
  · exact sound.distinct
  · exact sound.holds
  · exact sound.last
  · exact sound.once
  · exact sound.chosen

/-- A call returns which has no receive on a mailbox any more. -/
theorem Sound.finish (sound : s.Sound) {actor : ThreadId}
    (alone : ∀ eq index, (actor, index) ∉ s.receives eq)
    (result : Option (EqId × Event)) : (s.finish actor result).Sound := by
  have ended : (s.setActor actor {}).Sound := by
    have current : ∀ other, (s.setActor actor {}).actors other =
        if other = actor then {} else s.actors other := by
      intro other
      change Function.update s.actors actor {} other = _
      rw [Function.update_apply]
    constructor
    · exact sound.fifo
    · exact sound.apart
    · intro eq other index member
      have different : other ≠ actor := by
        intro same
        subst same
        exact alone eq index member
      rw [current, if_neg different]
      exact sound.owns eq other index member
    · exact sound.distinct
    · intro other done member
      rw [current] at member ⊢
      split at member
      · cases member
      · rename_i different
        rw [if_neg different]
        exact sound.holds other done member
    · intro other
      rw [current]
      split
      · rfl
      · exact sound.last other
    · intro other own waits
      rw [current] at waits
      split at waits
      · cases waits
      · rename_i different
        have before := sound.once other own waits
        unfold Once at before ⊢
        rw [current, if_neg different]
        exact before
    · intro other eqs which next cancels
      rw [current] at cancels ⊢
      split at cancels
      · cases cancels
      · rename_i different
        rw [if_neg different]
        exact sound.chosen other eqs which next cancels
  cases result with
  | none => exact ended
  | some pair => exact ended.returned actor pair.1 pair.2

/-- `wait` on a queue which has an event. -/
theorem Sound.waitReady (sound : s.Sound) (actor : ThreadId) {eq : EqId}
    {event : Event} {rest : List Event} (full : s.contents eq = event :: rest) :
    (s.waitReady actor eq event rest).Sound := by
  apply Sound.returned
  constructor
  · intro queue
    rw [puts_emit, takes_emit, List.append_nil]
    change s.puts queue = s.takes queue ++ _ ++
      Function.update s.contents eq rest queue
    rw [sound.fifo queue, Function.update_apply]
    by_cases same : queue = eq
    · subst same
      simp [full]
    · simp [same, Ne.symm same]
  · intro queue
    by_cases same : queue = eq
    · subst same
      refine .inr ((sound.apart queue).resolve_left ?_)
      rw [full]
      simp
    · change Function.update s.contents eq rest queue = [] ∨ _
      rw [Function.update_of_ne same]
      exact sound.apart queue
  · exact sound.owns
  · exact sound.distinct
  · exact sound.holds
  · exact sound.last
  · exact sound.once
  · exact sound.chosen

theorem firstReady_some {eqs : List EqId} {eq : EqId} {event : Event}
    {rest : List Event} (found : s.firstReady eqs = some (eq, event, rest)) :
    s.contents eq = event :: rest := by
  induction eqs with
  | nil => cases found
  | cons own later induction =>
      unfold firstReady at found
      split at found
      · exact induction found
      · rename_i first others full
        cases found
        exact full

/-- A call which has cancelled all its receives has none on a mailbox. -/
theorem Sound.cancelled (sound : s.Sound) {actor : ThreadId}
    {eqs : List EqId} {which : Option Nat} {next : Nat}
    (current : (s.actors actor).activity = .cancelling eqs which next)
    (last : eqs[next]? = none) (eq : EqId) (index : Nat) :
    (actor, index) ∉ s.receives eq := by
  intro member
  have owns := sound.owns eq actor index member
  rw [current] at owns
  obtain ⟨later, posted⟩ := owns
  obtain ⟨within, -⟩ := List.getElem?_eq_some_iff.mp posted
  have beyond := List.getElem?_eq_none_iff.mp last
  omega

/-- A call of `wait` which has received its event has no receive any more. -/
theorem Sound.received (sound : s.Sound) {actor : ThreadId} {eq : EqId}
    {event : Event} (current : (s.actors actor).activity = .waiting eq)
    (stored : (s.actors actor).evPtr = some event) :
    (s.actors actor).held.length = 1 ∧
      ∀ queue index, (actor, index) ∉ s.receives queue := by
  rcases sound.once actor eq current with empty | alone
  · have last := sound.last actor
    rw [stored, empty] at last
    cases last
  · exact alone

/-- Every step keeps the receives sound. -/
theorem Sound.step (sound : s.Sound) {label : EqPollLabel}
    (stepped : eqPollStep s label = some after) : after.Sound := by
  cases label with
  | issue eq event =>
      cases stepped
      exact sound.issueEvent eq event
  | get actor eq =>
      obtain ⟨-, result⟩ := Option.ite_none_right_eq_some.mp stepped
      split at result
      · cases result
        exact sound
      · rename_i event rest full
        cases result
        exact sound.waitReady actor full
  | wait actor eq =>
      obtain ⟨idle, result⟩ := Option.ite_none_right_eq_some.mp stepped
      cases result
      have empty := sound.idle_held idle
      have waiting : (s.act actor (.waiting eq)).Sound := by
        apply sound.act
        · intro index queue member
          exact absurd member (sound.idle_receives idle queue index)
        · rw [empty]
          simp
        · intro own same
          exact .inl empty
        · simp
      apply waiting.post
      · rw [EqPolls.act, setActor_self]
        exact ⟨rfl, rfl⟩
      · intro event
        rw [EqPolls.act, setActor_self]
        rfl
      · intro queue
        exact sound.idle_receives idle queue 0
      · intro own same
        rw [EqPolls.act, setActor_self]
        exact ⟨empty, fun queue place => sound.idle_receives idle queue place⟩
  | poll actor eqs forever =>
      obtain ⟨idle, result⟩ := Option.ite_none_right_eq_some.mp stepped
      split at result
      · rename_i eq event rest found
        cases result
        exact sound.waitReady actor (firstReady_some found)
      · cases result
        apply sound.act
        · intro index queue member
          exact absurd member (sound.idle_receives idle queue index)
        · rw [sound.idle_held idle]
          simp
        · simp
        · simp
  | wakeAny actor which =>
      simp only [eqPollStep] at stepped
      split at stepped
      · rename_i eqs forever current
        obtain ⟨possible, result⟩ := Option.ite_none_right_eq_some.mp stepped
        cases result
        apply sound.act
        · intro index eq member
          have owns := sound.owns eq actor index member
          rw [current] at owns
          exact ⟨Nat.zero_le _, owns⟩
        · intro done member
          have holds := sound.holds actor done member
          rw [current] at holds
          exact holds
        · simp
        · intro eqs' index next same
          cases same
          obtain ⟨done, member, equal⟩ := List.any_eq_true.mp possible
          exact ⟨done, member, of_decide_eq_true equal⟩
      · cases stepped
  | run actor =>
      simp only [eqPollStep, runActor] at stepped
      split at stepped
      · cases stepped
      · cases stepped
      · rename_i eq current
        obtain ⟨event, stored, result⟩ := Option.map_eq_some_iff.mp stepped
        subst result
        exact sound.finish (sound.received current stored).2 _
      · rename_i eqs forever next current
        split at stepped
        · rename_i eq found
          cases stepped
          have posting : (s.act actor
              (.posting eqs forever (next + 1))).Sound := by
            apply sound.act
            · intro index queue member
              have owns := sound.owns queue actor index member
              rw [current] at owns
              exact ⟨Nat.lt_succ_of_lt owns.1, owns.2⟩
            · intro done member
              have holds := sound.holds actor done member
              rw [current] at holds
              exact holds
            · simp
            · simp
          apply posting.post
          · rw [EqPolls.act, setActor_self]
            exact ⟨Nat.lt_succ_self next, found⟩
          · intro event
            rw [EqPolls.act, setActor_self]
            exact found
          · intro queue member
            have owns := sound.owns queue actor next member
            rw [current] at owns
            exact Nat.lt_irrefl next owns.1
          · intro own waits
            rw [EqPolls.act, setActor_self] at waits
            cases waits
        · cases stepped
          apply sound.act
          · intro index queue member
            have owns := sound.owns queue actor index member
            rw [current] at owns
            exact owns.2
          · intro done member
            have holds := sound.holds actor done member
            rw [current] at holds
            exact holds
          · simp
          · simp
      · rename_i eqs which next current
        split at stepped
        · rename_i eq found
          cases stepped
          change ((s.cancel actor next eq).act actor
            (.cancelling eqs which (next + 1))).Sound
          apply (sound.cancel actor next eq).act
          · intro index queue member
            have fewer : (actor, index) ∈ s.receives queue ∧
                (queue = eq → index ≠ next) := by
              change _ ∈ Function.update s.receives eq _ queue at member
              rw [Function.update_apply] at member
              split at member
              · rename_i same
                subst same
                obtain ⟨old, different⟩ := List.mem_filter.mp member
                refine ⟨old, fun _ equal => ?_⟩
                subst equal
                simp at different
              · rename_i different
                exact ⟨member, fun same => absurd same different⟩
            have owns := sound.owns queue actor index fewer.1
            rw [current] at owns
            obtain ⟨later, posted⟩ := owns
            refine ⟨?_, posted⟩
            have different : index ≠ next := by
              intro same
              subst same
              rw [found] at posted
              exact fewer.2 (Option.some.inj posted).symm rfl
            omega
          · intro done member
            have holds := sound.holds actor done member
            rw [current] at holds
            exact holds
          · simp
          · intro eqs' index next' same
            cases same
            exact sound.chosen actor eqs index next current
        · rename_i last
          cases stepped
          exact sound.finish (sound.cancelled current last) _

/-! ## What the calls return -/

/-- Everything which the receives of an actor took has been returned to it, but
for what its running call holds. -/
def Obtained (s : EqPolls) : Prop :=
  ∀ actor, s.takenBy actor = s.returnedTo actor ++ s.heldBy actor

theorem obtained_initial : ({} : EqPolls).Obtained := fun _ => rfl

theorem heldBy_act (actor : ThreadId) (activity : EqActivity)
    (other : ThreadId) :
    (s.act actor activity).heldBy other = s.heldBy other := by
  unfold heldBy
  by_cases own : other = actor
  · subst own
    rw [EqPolls.act, setActor_self]
  · rw [EqPolls.act, setActor_of_ne own]

theorem Obtained.act (obtained : s.Obtained) (actor : ThreadId)
    (activity : EqActivity) : (s.act actor activity).Obtained := by
  intro other
  rw [heldBy_act]
  exact obtained other

theorem Obtained.complete (obtained : s.Obtained) (actor : ThreadId)
    (index : Nat) (eq : EqId) (event : Event) :
    (s.complete actor index eq event).Obtained := by
  intro other
  have held : (s.complete actor index eq event).heldBy other =
      s.heldBy other ++ (if actor = other then [(eq, event)] else []) := by
    unfold heldBy
    rw [complete_actor]
    by_cases own : other = actor
    · subst own
      simp
    · simp [own, Ne.symm own]
  rw [held]
  change (EqPolls.emit _ _).takenBy other =
    (EqPolls.emit _ _).returnedTo other ++ _
  rw [takenBy_emit, returnedTo_emit, List.append_nil, ← List.append_assoc]
  change s.takenBy other ++ _ = s.returnedTo other ++ s.heldBy other ++ _
  rw [obtained other]

theorem Obtained.post (obtained : s.Obtained) (actor : ThreadId)
    (index : Nat) (eq : EqId) : (s.post actor index eq).Obtained := by
  unfold EqPolls.post
  split
  · exact obtained
  · apply Obtained.complete
    exact obtained

/-- A put is neither taken nor returned. -/
theorem Obtained.put (obtained : s.Obtained) (eq : EqId) (event : Event) :
    (s.emit (.put eq event)).Obtained := by
  intro other
  rw [takenBy_emit, returnedTo_emit, List.append_nil, List.append_nil]
  exact obtained other

theorem Obtained.issueEvent (obtained : s.Obtained) (eq : EqId)
    (event : Event) : (s.issueEvent eq event).Obtained := by
  have issued := obtained.put eq event
  unfold EqPolls.issueEvent
  dsimp only
  split
  · exact issued
  · apply Obtained.complete
    exact issued

/-- `wait` on a queue which has an event returns what it takes. -/
theorem Obtained.waitReady (obtained : s.Obtained) {actor : ThreadId}
    (empty : (s.actors actor).held = []) (eq : EqId) (event : Event)
    (rest : List Event) : (s.waitReady actor eq event rest).Obtained := by
  intro other
  unfold EqPolls.waitReady
  rw [takenBy_emit, returnedTo_emit, takenBy_emit, returnedTo_emit]
  simp only [List.append_nil]
  change s.takenBy other ++ _ = s.returnedTo other ++ _ ++ s.heldBy other
  rw [obtained other]
  by_cases own : actor = other
  · subst own
    have nothing : s.heldBy actor = [] := by
      rw [heldBy, empty]
      rfl
    rw [nothing]
    simp
  · simp [own]

/-- A call returns everything which it holds, or loses a part of it. -/
theorem Obtained.finish_iff (obtained : s.Obtained) (actor : ThreadId)
    (result : Option (EqId × Event)) :
    (s.finish actor result).Obtained ↔ s.heldBy actor = result.toList := by
  have taken : ∀ other, (s.finish actor result).takenBy other =
      s.takenBy other := by
    intro other
    cases result with
    | none => rfl
    | some pair =>
        change (EqPolls.emit _ _).takenBy other = _
        rw [takenBy_emit, List.append_nil]
        rfl
  have returned : ∀ other, (s.finish actor result).returnedTo other =
      s.returnedTo other ++ (if other = actor then result.toList else []) := by
    intro other
    cases result with
    | none => simp [EqPolls.finish, returnedTo, setActor]
    | some pair =>
        change (EqPolls.emit _ _).returnedTo other = _
        rw [returnedTo_emit]
        by_cases own : other = actor
        · subst own
          simp [returnedTo, setActor]
        · simp [returnedTo, setActor, own, Ne.symm own]
  have held : ∀ other, (s.finish actor result).heldBy other =
      if other = actor then [] else s.heldBy other := by
    intro other
    have current : (s.finish actor result).actors other =
        if other = actor then {} else s.actors other := by
      cases result with
      | none =>
          change Function.update s.actors actor {} other = _
          rw [Function.update_apply]
      | some pair =>
          change Function.update s.actors actor {} other = _
          rw [Function.update_apply]
    unfold heldBy
    rw [current]
    split <;> rfl
  constructor
  · intro after
    have own := after actor
    rw [taken, returned, held, if_pos rfl, if_pos rfl, List.append_nil,
      obtained actor] at own
    exact List.append_cancel_left own
  · intro all other
    rw [taken, returned, held, obtained other]
    by_cases own : other = actor
    · subst own
      rw [if_pos rfl, if_pos rfl, List.append_nil, all]
    · rw [if_neg own, if_neg own, List.append_nil]

/-- `poll` returns all that its receives took exactly when one of them has
completed if `wait_any` returned one, and none after a timeout. -/
theorem Sound.pollResult_all_iff (sound : s.Sound) {actor : ThreadId}
    {eqs : List EqId} {which : Option Nat} {next : Nat}
    (current : (s.actors actor).activity = .cancelling eqs which next) :
    s.heldBy actor = (s.pollResult actor eqs which).toList ↔
      (s.actors actor).held.length = if which.isSome then 1 else 0 := by
  cases which with
  | none =>
      change (s.actors actor).held.map _ = [] ↔ _ = 0
      rw [List.map_eq_nil_iff, List.length_eq_zero_iff]
  | some index =>
      obtain ⟨done, member, same⟩ := sound.chosen actor eqs index next current
      have holds := sound.holds actor done member
      rw [current] at holds
      change eqs[done.index]? = some done.eq at holds
      rw [same] at holds
      have last := sound.last actor
      change s.heldBy actor = _ ↔ _ = 1
      unfold pollResult heldBy
      rw [last, Option.bind_some, holds]
      cases received : (s.actors actor).held with
      | nil =>
          rw [received] at member
          cases member
      | cons first rest =>
          cases rest with
          | nil =>
              rw [received] at member
              have only := List.mem_singleton.mp member
              subst only
              simp
          | cons second later =>
              rw [List.getLast?_cons_cons]
              obtain ⟨event, stored⟩ : ∃ event,
                  (second :: later).getLast? = some event :=
                ⟨_, List.getLast?_cons⟩
              simp [stored]

/-- The step of a call of `poll` which has cancelled all its receives. -/
theorem poll_returns {actor : ThreadId} {eqs : List EqId}
    {which : Option Nat} {next : Nat}
    (current : (s.actors actor).activity = .cancelling eqs which next)
    (last : eqs[next]? = none) :
    eqPollStep s (.run actor) =
      some (s.finish actor (s.pollResult actor eqs which)) := by
  simp only [eqPollStep, runActor, current, last]

/-- A step loses no event unless it is the return of a `poll` whose receives
did not complete as it needs. -/
theorem Obtained.step (obtained : s.Obtained) (sound : s.Sound)
    {label : EqPollLabel} (single : label.Single s)
    (stepped : eqPollStep s label = some after) : after.Obtained := by
  cases label with
  | issue eq event =>
      cases stepped
      exact obtained.issueEvent eq event
  | get actor eq =>
      obtain ⟨idle, result⟩ := Option.ite_none_right_eq_some.mp stepped
      split at result
      · cases result
        exact obtained
      · cases result
        exact obtained.waitReady (sound.idle_held idle) _ _ _
  | wait actor eq =>
      obtain ⟨-, result⟩ := Option.ite_none_right_eq_some.mp stepped
      cases result
      exact (obtained.act actor _).post actor 0 eq
  | poll actor eqs forever =>
      obtain ⟨idle, result⟩ := Option.ite_none_right_eq_some.mp stepped
      split at result
      · cases result
        exact obtained.waitReady (sound.idle_held idle) _ _ _
      · cases result
        exact obtained.act actor _
  | wakeAny actor which =>
      simp only [eqPollStep] at stepped
      split at stepped
      · obtain ⟨-, result⟩ := Option.ite_none_right_eq_some.mp stepped
        cases result
        exact obtained.act actor _
      · cases stepped
  | run actor =>
      simp only [eqPollStep, runActor] at stepped
      split at stepped
      · cases stepped
      · cases stepped
      · rename_i eq current
        obtain ⟨event, stored, result⟩ := Option.map_eq_some_iff.mp stepped
        subst result
        rw [obtained.finish_iff]
        obtain ⟨one, -⟩ := sound.received current stored
        obtain ⟨done, only⟩ := List.length_eq_one_iff.mp one
        have holds := sound.holds actor done (only ▸ List.mem_cons_self)
        rw [current] at holds
        change eq = done.eq at holds
        have last := sound.last actor
        rw [stored, only] at last
        have same : event = done.event := Option.some.inj last
        rw [heldBy, only, holds, same]
        rfl
      · split at stepped
        · cases stepped
          exact (obtained.act actor _).post actor _ _
        · cases stepped
          exact obtained.act actor _
      · rename_i eqs which next current
        split at stepped
        · cases stepped
          exact obtained.act actor _
        · rename_i last
          cases stepped
          rw [obtained.finish_iff, sound.pollResult_all_iff current]
          simp only [EqPollLabel.Single, current] at single
          exact single last

end EqPolls

/-- The receives along any run. -/
theorem eqPolls_sound {s : EqPolls}
    (reached : Reached eqPollStep Anything {} s) : s.Sound := by
  apply reached.invariant EqPolls.sound_initial
  intro before after label sound _ stepped
  exact sound.step stepped

/-- In every run the events of a queue are taken in the order in which they
reached it, and those which have not been taken are still in it.  As long as
every `poll` which returns has one completed receive if `wait_any` returned one,
and none after a timeout, everything which the receives of an actor took was
returned by its calls in this order, with the queue from which it was taken;
and the next `poll` which returns keeps this exactly when that holds of it. -/
theorem poll_returns_events_iff (s : EqPolls) :
    (Reached eqPollStep Anything {} s →
      ∀ eq, s.puts eq = s.takes eq ++ s.contents eq) ∧
    (Reached eqPollStep (fun s label => label.Single s) {} s →
      s.Obtained ∧
      ∀ actor eqs which next,
        (s.actors actor).activity = .cancelling eqs which next →
        eqs[next]? = none →
        ∃ after, eqPollStep s (.run actor) = some after ∧
          (after.Obtained ↔ (EqPollLabel.run actor).Single s)) := by
  constructor
  · intro reached
    exact (eqPolls_sound reached).fifo
  · intro reached
    have obtained : s.Obtained := by
      apply reached.invariant_of_reached EqPolls.obtained_initial
      intro before after label earlier obtained single stepped
      exact obtained.step (eqPolls_sound earlier.anything) single stepped
    refine ⟨obtained, ?_⟩
    intro actor eqs which next current last
    refine ⟨_, EqPolls.poll_returns current last, ?_⟩
    rw [obtained.finish_iff,
      (eqPolls_sound reached.anything).pollResult_all_iff current]
    simp only [EqPollLabel.Single, current]
    constructor
    · exact fun single _ => single
    · exact fun single => single last

/-- Two queues are polled and an event reaches each of them before the caller
runs again.  It is told that the event of the second queue came from the first,
and the event of the first queue is lost. -/
theorem poll_misattributes_event :
    ∃ s, Reached eqPollStep Anything {} s ∧
      ∃ first second : Event, s.puts 0 = [first] ∧ s.puts 1 = [second] ∧
        first ≠ second ∧ s.returnedTo 0 = [(0, second)] ∧
        s.contents 0 = [] ∧ s.receives 0 = [] ∧
        (s.actors 0).activity = .idle := by
  let first : Event := { type := .put, niFailType := .ok }
  let second : Event := { type := .get, niFailType := .ok }
  obtain ⟨s, final, ends⟩ :
      ∃ s, runLabels eqPollStep (fun _ _ => true) {}
        [.poll 0 [0, 1] true, .run 0, .run 0, .run 0, .issue 0 first,
          .issue 1 second, .wakeAny 0 (some 0), .run 0, .run 0, .run 0] =
            some s ∧
        s.puts 0 = [first] ∧ s.puts 1 = [second] ∧
        s.returnedTo 0 = [(0, second)] ∧ s.contents 0 = [] ∧
        s.receives 0 = [] ∧ (s.actors 0).activity = .idle :=
    ⟨_, rfl, rfl, rfl, rfl, rfl, rfl, rfl⟩
  obtain ⟨put, other, returned, empty, none', idle⟩ := ends
  exact ⟨s, reached_of_runLabels (fun _ _ _ => trivial) final, first, second,
    put, other, by decide, returned, empty, none', idle⟩

/-- An event reaches one of two queues which are polled, and an event which
reaches the other one after the call has returned stays there. -/
theorem poll_returns_one_event :
    ∃ s, Reached eqPollStep (fun s label => label.Single s) {} s ∧
      s.Obtained ∧
      ∃ first second : Event, s.returnedTo 0 = [(1, first)] ∧
        s.contents 0 = [second] ∧ s.puts 0 = s.takes 0 ++ s.contents 0 := by
  let first : Event := { type := .put, niFailType := .ok }
  let second : Event := { type := .get, niFailType := .ok }
  have start : Reached eqPollStep (fun s label => label.Single s) {} {} := .refl
  have polled := ((((((start.next (.poll 0 [0, 1] true) trivial rfl).next
    (.run 0) trivial rfl).next
    (.run 0) trivial rfl).next
    (.run 0) trivial rfl).next
    (.issue 1 first) trivial rfl).next
    (.wakeAny 0 (some 1)) trivial rfl)
  have cancelled := (polled.next (.run 0) (fun last => by cases last) rfl).next
    (.run 0) (fun last => by cases last) rfl
  have returned := cancelled.next (.run 0) (fun _ => rfl) rfl
  have received := returned.next (.issue 0 second) trivial rfl
  exact ⟨_, received, ((poll_returns_events_iff _).2 received).1, first, second,
    rfl, rfl, (poll_returns_events_iff _).1 received.anything 0⟩

end S4BXI
