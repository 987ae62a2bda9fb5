import Mathlib.Algebra.Order.Field.Rat
import Mathlib.Data.List.Perm.Basic
import Mathlib.Tactic.Linarith
import S4BXI.Nic.Machine

/-!
# Retransmission timeouts

`BxiNicE2E` with the simulated clock.  The NIC initiators hand messages to
`process_message`, which stamps them with the current time; the E2E actor
sleeps until the head of its queue has waited for `retry_timeout` and then
drops or retransmits it.  Every step but a sleep of the actor takes no time, so
the clock only advances while the actor is blocked.
-/

namespace S4BXI

open Lib

/-- The constants of the E2E circuit. -/
structure E2eConfig where
  retryTimeout : ℚ
  maxRetries : Int

/-- What the E2E actor decides about a message after its sleep. -/
inductive Verdict where
  | acked | gaveUp | retried | panicked
  deriving DecidableEq

/-- The tests which follow the sleep in `BxiNicE2E::operator()`. -/
def e2eVerdict (maxRetries : Int) (known : Bool) (retryCount : Int) :
    Verdict :=
  if known then .acked
  else if retryCount = maxRetries then .gaveUp
  else if retryCount < maxRetries then .retried
  else .panicked

/-- The fields of `BxiMsg` which E2E uses.  `original` labels a copy with the
message of which it is a retransmission. -/
structure TimedMsg where
  retryCount : Int := 0
  sendInitTime : ℚ := 0
  original : MsgId := 0

/-- Where the E2E actor is in its loop. -/
inductive E2eActor where
  | idle
  | sleeping (msg : MsgId) (wakeUpTime : ℚ)
  | awake (msg : MsgId)

/-- `current_msg`. -/
def E2eActor.current : E2eActor → List MsgId
  | .idle => []
  | .sleeping msg _ | .awake msg => [msg]

/-- The panics of `BxiNicE2E::operator()`. -/
inductive E2ePanic where
  | negativeSleep | retryCount
  deriving DecidableEq

/-- The E2E circuit of a node.  `commands` holds the messages which its NIC
initiators have not taken yet, `acquiring` those whose initiator is blocked in
`acquire_e2e_entry`, and `starting` those handed over whose communication has
not started yet. -/
structure Timed where
  clock : ℚ := 0
  msgs : MsgId → TimedMsg := fun _ => {}
  nextMsg : MsgId := 0
  e2eEntries : Int := maxE2eEntries
  commands : List MsgId := []
  acquiring : List MsgId := []
  queue : List MsgId := []
  actor : E2eActor := .idle
  starting : List MsgId := []
  transmitted : List MsgId := []
  panic : Option E2ePanic := none

namespace Timed

def modMsg (t : Timed) (msg : MsgId) (f : TimedMsg → TimedMsg) : Timed :=
  { t with msgs := Function.update t.msgs msg (f (t.msgs msg)) }

/-- The time at which a message has waited long enough. -/
def wakeUpTime (cfg : E2eConfig) (t : Timed) (msg : MsgId) : ℚ :=
  (t.msgs msg).sendInitTime + cfg.retryTimeout

/-- A new message reaches a TX queue. -/
def submit (t : Timed) : Timed :=
  { t with
    msgs := Function.update t.msgs t.nextMsg { original := t.nextMsg }
    nextMsg := t.nextMsg + 1
    commands := t.commands ++ [t.nextMsg] }

/-- `BxiNicE2E::process_message` after `acquire_e2e_entry`; the initiator then
starts the communication. -/
def enqueue (t : Timed) (msg : MsgId) : Timed :=
  { t.modMsg msg fun m => { m with sendInitTime := t.clock } with
    queue := t.queue ++ [msg]
    starting := t.starting ++ [msg] }

/-- A NIC initiator takes a message and calls `process_message`: only a new
message needs an entry. -/
def take (t : Timed) (position : Nat) : Option Timed :=
  (t.commands[position]?).map fun msg =>
    let t := { t with commands := t.commands.eraseIdx position }
    if (t.msgs msg).retryCount = 0 then
      { t with acquiring := t.acquiring ++ [msg] }
    else
      t.enqueue msg

/-- `acquire_e2e_entry` returns for one of the blocked initiators. -/
def acquire (t : Timed) (position : Nat) : Option Timed :=
  if t.e2eEntries ≤ 0 then
    none
  else
    (t.acquiring[position]?).map fun msg =>
      { t with
        e2eEntries := t.e2eEntries - 1
        acquiring := t.acquiring.eraseIdx position }.enqueue msg

/-- A communication starts. -/
def start (t : Timed) (position : Nat) : Option Timed :=
  (t.starting[position]?).map fun msg =>
    { t with
      starting := t.starting.eraseIdx position
      transmitted := t.transmitted ++ [msg] }

/-- Time goes by while the E2E actor waits for a message or sleeps; it resumes
at its wake-up time. -/
def elapse (t : Timed) (time : ℚ) : Option Timed :=
  let blocked := match t.actor with
    | .idle => t.queue.isEmpty
    | .sleeping _ wakeUpTime => decide (time ≤ wakeUpTime)
    | .awake _ => false
  if t.clock ≤ time && blocked then some { t with clock := time } else none

/-- `queue.get()` and the computation of the wake-up time.  A sleep shorter
than the precision of the simulation is skipped. -/
def get (cfg : E2eConfig) (t : Timed) : Option Timed :=
  match t.actor, t.queue with
  | .idle, msg :: rest =>
      let wakeUpTime := t.wakeUpTime cfg msg
      let t := { t with queue := rest }
      if wakeUpTime < t.clock then
        some { t with panic := some .negativeSleep }
      else if t.clock + 1 / 10 ^ 9 < wakeUpTime then
        some { t with actor := .sleeping msg wakeUpTime }
      else
        some { t with actor := .awake msg }
  | _, _ => none

/-- The return of `sleep_until`. -/
def wake (t : Timed) : Option Timed :=
  match t.actor with
  | .sleeping msg wakeUpTime =>
      if t.clock = wakeUpTime then some { t with actor := .awake msg } else none
  | _ => none

/-- The copy of a message which did not get an answer in time. -/
def retransmit (t : Timed) (msg : MsgId) : Timed :=
  let m := { t.msgs msg with retryCount := (t.msgs msg).retryCount + 1 }
  { t with
    msgs := Function.update (Function.update t.msgs msg m) t.nextMsg m
    nextMsg := t.nextMsg + 1
    commands := t.commands ++ [t.nextMsg] }

/-- The end of an iteration; `known` tells whether the request was answered. -/
def process (cfg : E2eConfig) (t : Timed) (known : Bool) : Option Timed :=
  match t.actor with
  | .awake msg =>
      let t := { t with actor := .idle }
      match e2eVerdict cfg.maxRetries known (t.msgs msg).retryCount with
      | .acked | .gaveUp => some t
      | .retried => some (t.retransmit msg)
      | .panicked => some { t with panic := some .retryCount }
  | _ => none

end Timed

/-- What happens in the E2E circuit. -/
inductive E2eLabel where
  | submit
  | take (position : Nat)
  | acquire (position : Nat)
  | release
  | start (position : Nat)
  | elapse (time : ℚ)
  | get
  | wake
  | process (known : Bool)

/-- One step; nothing happens after a panic. -/
def e2eStep (cfg : E2eConfig) (t : Timed) (label : E2eLabel) : Option Timed :=
  if t.panic.isSome then
    none
  else
    match label with
    | .submit => some t.submit
    | .take position => t.take position
    | .acquire position => t.acquire position
    | .release => some { t with e2eEntries := t.e2eEntries + 1 }
    | .start position => t.start position
    | .elapse time => t.elapse time
    | .get => t.get cfg
    | .wake => t.wake
    | .process known => t.process cfg known

/-- `BxiNicE2E::operator()` of the simulation takes the same decisions. -/
theorem e2eWake_verdict (sys : Sys) (self : Actor) (s : State) (msg : MsgId) :
    e2eWake sys self s msg =
      match e2eVerdict sys.cfg.maxRetries
        (decide ((s.reqs (s.reqOf msg)).processState ≥
          ackedState (s.msgs msg).type)) (s.msgs msg).retryCount with
      | .acked => (s, [.unref msg])
      | .gaveUp => (s.modNode self.nid fun node =>
          { node with e2eGaveUp := node.e2eGaveUp + 1 }, [.unref msg])
      | .retried => (retransmit sys self s msg, [.resched, .unref msg])
      | .panicked => (s.halt (.panic .retryCount), []) := by
  unfold e2eWake e2eVerdict State.reqOf
  by_cases known : (s.reqs (s.msgs msg).parentRequest).processState ≥
      ackedState (s.msgs msg).type
  · simp [known]
  · by_cases last : (s.msgs msg).retryCount = sys.cfg.maxRetries
    · simp [known, last]
    · by_cases more : (s.msgs msg).retryCount < sys.cfg.maxRetries
      · simp [known, last, more]
      · simp [known, last, more]

/-! ## Retries -/

namespace Timed

/-- The messages which may still be transmitted: at most one for every
original. -/
def active (t : Timed) : List MsgId :=
  t.commands ++ t.acquiring ++ t.queue ++ t.actor.current

theorem early_subset (t : Timed) : t.commands ++ t.acquiring ⊆ t.active :=
  fun _ member => List.mem_append_left _ (List.mem_append_left _ member)

theorem late_subset (t : Timed) : t.queue ++ t.actor.current ⊆ t.active := by
  unfold active
  rw [List.append_assoc]
  exact fun _ member => List.mem_append_right _ member

/-- The number of transmissions of an original message and of its copies. -/
def transmissions (t : Timed) (original : MsgId) : Nat :=
  t.transmitted.countP fun msg => (t.msgs msg).original = original

/-- The number of times an original or one of its copies was handed over. -/
def handed (t : Timed) (original : MsgId) : Nat :=
  (t.starting ++ t.transmitted).countP fun msg =>
    (t.msgs msg).original = original

/-- The retry counts follow the hand-overs: a message which was not handed over
yet has been retried as often as it was transmitted, a message which waits for
its timeout once less. -/
structure Counted (cfg : E2eConfig) (t : Timed) : Prop where
  old : ∀ msg ∈ t.active ++ (t.starting ++ t.transmitted), msg < t.nextMsg
  roots : ∀ msg < t.nextMsg, (t.msgs msg).original < t.nextMsg
  alone : (t.active.map fun msg => (t.msgs msg).original).Nodup
  bounded : ∀ original, (t.handed original : Int) ≤ 1 + cfg.maxRetries
  tries : ∀ msg, (t.msgs msg).retryCount ≤ cfg.maxRetries
  before : ∀ msg ∈ t.commands ++ t.acquiring,
    (t.msgs msg).retryCount = t.handed (t.msgs msg).original
  since : ∀ msg ∈ t.queue ++ t.actor.current,
    (t.msgs msg).retryCount + 1 = t.handed (t.msgs msg).original

namespace Counted

variable {cfg : E2eConfig} {t after : Timed}

/-- Messages move or disappear, and no count changes. -/
theorem rearrange (counted : t.Counted cfg) (msgs : after.msgs = t.msgs)
    (nextMsg : after.nextMsg = t.nextMsg)
    (active : after.active.Subperm t.active)
    (sent : (after.starting ++ after.transmitted).Perm
      (t.starting ++ t.transmitted))
    (early : after.commands ++ after.acquiring ⊆ t.commands ++ t.acquiring)
    (late : after.queue ++ after.actor.current ⊆
      t.queue ++ t.actor.current) :
    after.Counted cfg := by
  have same : after.handed = t.handed := by
    funext original
    unfold handed
    rw [msgs]
    exact sent.countP_eq _
  refine ⟨?_, ?_, ?_, ?_, ?_, ?_, ?_⟩
  · intro msg member
    rw [nextMsg]
    apply counted.old
    rcases List.mem_append.mp member with active' | sent'
    · exact List.mem_append_left _ (active.subset active')
    · exact List.mem_append_right _ (sent.mem_iff.mp sent')
  · rw [msgs, nextMsg]
    exact counted.roots
  · rw [msgs]
    obtain ⟨kept, permuted, sublist⟩ := active
    have nodup := counted.alone.sublist (sublist.map fun msg =>
      (t.msgs msg).original)
    exact ((permuted.map _).nodup_iff).mp nodup
  · rw [same]
    exact counted.bounded
  · rw [msgs]
    exact counted.tries
  · rw [msgs, same]
    exact fun msg member => counted.before msg (early member)
  · rw [msgs, same]
    exact fun msg member => counted.since msg (late member)

/-- A message which a NIC initiator holds before it is handed over. -/
structure Held (t : Timed) (cfg : E2eConfig) (msg : MsgId) : Prop where
  counted : t.Counted cfg
  old : msg < t.nextMsg
  apart : (t.msgs msg).original ∉
    t.active.map fun other => (t.msgs other).original
  retries : (t.msgs msg).retryCount = t.handed (t.msgs msg).original

theorem Held.not_mem {msg : MsgId} (held : Held t cfg msg) :
    msg ∉ t.active :=
  fun member => held.apart (List.mem_map_of_mem member)

/-- A NIC initiator takes a message out of a queue. -/
theorem held (counted : t.Counted cfg) {msg : MsgId}
    (early : msg ∈ t.commands ++ t.acquiring) (msgs : after.msgs = t.msgs)
    (nextMsg : after.nextMsg = t.nextMsg)
    (active : t.active.Perm (msg :: after.active))
    (starting : after.starting = t.starting)
    (transmitted : after.transmitted = t.transmitted)
    (rest : after.commands ++ after.acquiring ⊆ t.commands ++ t.acquiring)
    (late : after.queue ++ after.actor.current ⊆
      t.queue ++ t.actor.current) :
    Held after cfg msg := by
  have alone := (active.map fun other => (t.msgs other).original).nodup_iff.mp
    counted.alone
  rw [List.map_cons, List.nodup_cons] at alone
  have same : after.handed = t.handed := by
    funext original
    unfold handed
    rw [msgs, starting, transmitted]
  refine ⟨?_, ?_, ?_, ?_⟩
  · refine counted.rearrange msgs nextMsg ?_ ?_ rest late
    · exact (List.sublist_cons_self msg after.active).subperm.trans
        active.symm.subperm
    · rw [starting, transmitted]
  · rw [nextMsg]
    apply counted.old
    apply List.mem_append_left
    exact active.mem_iff.mpr (List.mem_cons_self)
  · rw [msgs]
    exact alone.1
  · rw [msgs, same]
    exact counted.before msg early

/-- `process_message` hands a message to the E2E actor. -/
theorem enqueue {msg : MsgId} (held : Held t cfg msg) :
    (t.enqueue msg).Counted cfg := by
  have originals : ∀ other, ((t.enqueue msg).msgs other).original =
      (t.msgs other).original := by
    intro other
    by_cases same : other = msg
    · simp [Timed.enqueue, modMsg, same]
    · simp [Timed.enqueue, modMsg, same]
  have retries : ∀ other, ((t.enqueue msg).msgs other).retryCount =
      (t.msgs other).retryCount := by
    intro other
    by_cases same : other = msg
    · simp [Timed.enqueue, modMsg, same]
    · simp [Timed.enqueue, modMsg, same]
  have count : ∀ original, (t.enqueue msg).handed original =
      t.handed original + if (t.msgs msg).original = original then 1 else 0 := by
    intro original
    unfold handed
    simp only [originals]
    simp only [Timed.enqueue, modMsg, List.countP_append, List.countP_singleton,
      decide_eq_true_eq]
    omega
  have active : (t.enqueue msg).active.Perm (msg :: t.active) := by
    change (t.commands ++ t.acquiring ++ (t.queue ++ [msg]) ++
      t.actor.current).Perm _
    unfold Timed.active
    rw [← List.append_assoc, List.append_assoc _ [msg], List.singleton_append]
    exact List.perm_middle
  have apart : ∀ other ∈ t.active,
      (t.msgs msg).original ≠ (t.msgs other).original := fun other member same =>
    held.apart (same ▸ List.mem_map_of_mem member)
  have unchanged : ∀ other ∈ t.active,
      (t.enqueue msg).handed (t.msgs other).original =
        t.handed (t.msgs other).original := by
    intro other member
    rw [count, if_neg (apart other member), Nat.add_zero]
  have counted := held.counted
  refine ⟨?_, ?_, ?_, ?_, ?_, ?_, ?_⟩
  · intro other member
    change other < t.nextMsg
    rcases List.mem_append.mp member with live | sent
    · rcases List.mem_cons.mp (active.mem_iff.mp live) with rfl | live
      · exact held.old
      · exact counted.old other (List.mem_append_left _ live)
    · change other ∈ t.starting ++ [msg] ++ t.transmitted at sent
      simp only [List.mem_append, List.mem_singleton] at sent
      rcases sent with (starting | rfl) | transmitted
      · exact counted.old other (by simp [starting])
      · exact held.old
      · exact counted.old other (by simp [transmitted])
  · intro other old
    rw [originals]
    exact counted.roots other old
  · simp only [originals]
    refine ((active.map _).nodup_iff).mpr ?_
    rw [List.map_cons, List.nodup_cons]
    exact ⟨held.apart, counted.alone⟩
  · intro original
    rw [count]
    split
    · rename_i same
      have retried := held.retries
      have bound := counted.tries msg
      rw [same] at retried
      omega
    · exact counted.bounded original
  · intro other
    rw [retries]
    exact counted.tries other
  · intro other member
    change other ∈ t.commands ++ t.acquiring at member
    rw [retries, originals, unchanged other (t.early_subset member)]
    exact counted.before other member
  · intro other member
    change other ∈ (t.queue ++ [msg]) ++ t.actor.current at member
    simp only [List.mem_append, List.mem_singleton] at member
    rw [retries, originals]
    rcases member with (queued | rfl) | current
    · have late := List.mem_append_left t.actor.current queued
      rw [unchanged other (t.late_subset late)]
      exact counted.since other late
    · rw [count, if_pos rfl, held.retries]
      push_cast
      rfl
    · have late := List.mem_append_right t.queue current
      rw [unchanged other (t.late_subset late)]
      exact counted.since other late

/-- The messages which exist before a new one is allocated. -/
theorem handed_alloc (counted : t.Counted cfg)
    (starting : after.starting = t.starting)
    (transmitted : after.transmitted = t.transmitted)
    (originals : ∀ msg < t.nextMsg,
      (after.msgs msg).original = (t.msgs msg).original) :
    after.handed = t.handed := by
  funext original
  unfold handed
  rw [starting, transmitted]
  apply List.countP_congr
  intro msg member
  rw [originals msg (counted.old msg (List.mem_append_right _ member))]

theorem handed_fresh (counted : t.Counted cfg) : t.handed t.nextMsg = 0 := by
  unfold handed
  rw [List.countP_eq_zero]
  intro msg member
  have root := counted.roots msg
    (counted.old msg (List.mem_append_right _ member))
  simpa using ne_of_lt root

/-- The allocation of a message `new`, which enters a TX queue.  Only the
message the E2E actor is at may leave. -/
theorem alloc (counted : t.Counted cfg) (new : TimedMsg)
    (nextMsg : after.nextMsg = t.nextMsg + 1)
    (created : after.msgs t.nextMsg = new)
    (commands : after.commands = t.commands ++ [t.nextMsg])
    (acquiring : after.acquiring = t.acquiring)
    (queue : after.queue = t.queue)
    (starting : after.starting = t.starting)
    (transmitted : after.transmitted = t.transmitted)
    (current : after.actor.current.Sublist t.actor.current)
    (originals : ∀ msg < t.nextMsg,
      (after.msgs msg).original = (t.msgs msg).original)
    (kept : ∀ msg ∈ t.commands ++ t.acquiring ++ t.queue ++
        after.actor.current,
      (after.msgs msg).retryCount = (t.msgs msg).retryCount)
    (tries : ∀ msg, (after.msgs msg).retryCount ≤ cfg.maxRetries)
    (root : new.original < t.nextMsg + 1)
    (apart : new.original ∉ (t.commands ++ t.acquiring ++ t.queue ++
      after.actor.current).map fun msg => (t.msgs msg).original)
    (retries : new.retryCount = t.handed new.original) :
    after.Counted cfg := by
  have same := counted.handed_alloc starting transmitted originals
  have staying : (t.commands ++ t.acquiring ++ t.queue ++
      after.actor.current).Sublist t.active :=
    List.Sublist.append_left current _
  have old : ∀ msg ∈ t.commands ++ t.acquiring ++ t.queue ++
      after.actor.current, msg < t.nextMsg := fun msg member =>
    counted.old msg (List.mem_append_left _ (staying.subset member))
  have active : after.active.Perm (t.nextMsg :: (t.commands ++ t.acquiring ++
      t.queue ++ after.actor.current)) := by
    unfold Timed.active
    rw [commands, acquiring, queue]
    simp only [List.append_assoc, List.singleton_append]
    exact List.perm_middle
  refine ⟨?_, ?_, ?_, ?_, tries, ?_, ?_⟩
  · intro msg member
    rw [nextMsg]
    rcases List.mem_append.mp member with live | sent
    · rcases List.mem_cons.mp (active.mem_iff.mp live) with rfl | live
      · exact Nat.lt_succ_self _
      · exact Nat.lt_succ_of_lt (old msg live)
    · rw [starting, transmitted] at sent
      exact Nat.lt_succ_of_lt (counted.old msg (List.mem_append_right _ sent))
  · intro msg below
    rw [nextMsg] at below ⊢
    by_cases fresh : msg = t.nextMsg
    · rw [fresh, created]
      exact root
    · have older := lt_of_le_of_ne (Nat.lt_succ_iff.mp below) fresh
      rw [originals msg older]
      exact Nat.lt_succ_of_lt (counted.roots msg older)
  · refine ((active.map _).nodup_iff).mpr ?_
    rw [List.map_cons, created, List.map_congr_left fun msg member =>
      originals msg (old msg member), List.nodup_cons]
    exact ⟨apart, counted.alone.sublist (staying.map _)⟩
  · rw [same]
    exact counted.bounded
  · intro msg member
    rw [commands, acquiring] at member
    simp only [List.mem_append, List.mem_singleton] at member
    rw [same]
    by_cases fresh : msg = t.nextMsg
    · rw [fresh, created, retries]
    · have early : msg ∈ t.commands ++ t.acquiring := by
        simp only [List.mem_append]
        tauto
      have stays : msg ∈ t.commands ++ t.acquiring ++ t.queue ++
          after.actor.current :=
        List.mem_append_left _ (List.mem_append_left _ early)
      rw [kept msg stays, originals msg (old msg stays)]
      exact counted.before msg early
  · intro msg member
    rw [queue] at member
    have stays : msg ∈ t.commands ++ t.acquiring ++ t.queue ++
        after.actor.current := by
      rw [List.append_assoc]
      exact List.mem_append_right _ member
    rw [same, kept msg stays, originals msg (old msg stays)]
    exact counted.since msg
      ((List.Sublist.append_left current t.queue).subset member)

/-- A new message. -/
theorem submit (counted : t.Counted cfg) (retries : 0 ≤ cfg.maxRetries) :
    t.submit.Counted cfg := by
  have kept : ∀ msg < t.nextMsg, t.submit.msgs msg = t.msgs msg :=
    fun msg old => Function.update_of_ne (ne_of_lt old) _ _
  have old : ∀ msg ∈ t.active, msg < t.nextMsg :=
    fun msg member => counted.old msg (List.mem_append_left _ member)
  refine counted.alloc { original := t.nextMsg } rfl
    (Function.update_self _ _ _) rfl rfl rfl rfl rfl (List.Sublist.refl _)
    (fun msg older => by rw [kept msg older])
    (fun msg member => by rw [kept msg (old msg member)]) ?_
    (Nat.lt_succ_self _) ?_ ?_
  · intro msg
    by_cases fresh : msg = t.nextMsg
    · rw [fresh, show t.submit.msgs t.nextMsg = _ from
        Function.update_self _ _ _]
      exact retries
    · rw [show t.submit.msgs msg = t.msgs msg from
        Function.update_of_ne fresh _ _]
      exact counted.tries msg
  · intro member
    obtain ⟨msg, live, root⟩ := List.mem_map.mp member
    exact absurd root (ne_of_lt (counted.roots msg (old msg live)))
  · exact (congrArg Nat.cast counted.handed_fresh).symm

/-- The E2E actor retransmits the message it is at. -/
theorem retransmit (counted : t.Counted cfg) {msg : MsgId}
    (awake : t.actor = .awake msg)
    (more : (t.msgs msg).retryCount < cfg.maxRetries) :
    (Timed.retransmit { t with actor := .idle } msg).Counted cfg := by
  have live : t.active = t.commands ++ t.acquiring ++ t.queue ++ [msg] := by
    unfold Timed.active
    rw [awake]
    rfl
  have current : msg ∈ t.queue ++ t.actor.current := by
    rw [awake]
    exact List.mem_append_right _ (List.mem_singleton_self _)
  have oldMsg : msg < t.nextMsg :=
    counted.old msg (List.mem_append_left _ (t.late_subset current))
  have alone := counted.alone
  rw [live, List.map_append, List.nodup_append] at alone
  have apart : ∀ other ∈ t.commands ++ t.acquiring ++ t.queue,
      (t.msgs other).original ≠ (t.msgs msg).original :=
    fun other member => alone.2.2 _ (List.mem_map_of_mem member) _ (by simp)
  have others : ∀ other ≠ t.nextMsg, other ≠ msg →
      (Timed.retransmit { t with actor := .idle } msg).msgs other =
        t.msgs other := by
    intro other fresh different
    simp [Timed.retransmit, fresh, different]
  have self : (Timed.retransmit { t with actor := .idle } msg).msgs msg =
      { t.msgs msg with retryCount := (t.msgs msg).retryCount + 1 } := by
    simp [Timed.retransmit, ne_of_lt oldMsg]
  refine counted.alloc
    { t.msgs msg with retryCount := (t.msgs msg).retryCount + 1 } rfl
    (Function.update_self _ _ _) rfl rfl rfl rfl rfl (List.nil_sublist _)
    ?_ ?_ ?_ ?_ ?_ ?_
  · intro other older
    by_cases same : other = msg
    · rw [same, self]
    · rw [others other (ne_of_lt older) same]
  · intro other member
    change other ∈ t.commands ++ t.acquiring ++ t.queue ++ [] at member
    rw [List.append_nil] at member
    have older : other < t.nextMsg := by
      apply counted.old other
      rw [live]
      exact List.mem_append_left _ (List.mem_append_left _ member)
    have different : other ≠ msg := fun same => apart other member (by rw [same])
    rw [others other (ne_of_lt older) different]
  · intro other
    by_cases fresh : other = t.nextMsg
    · rw [fresh, show (Timed.retransmit { t with actor := .idle } msg).msgs
        t.nextMsg = _ from Function.update_self _ _ _]
      exact more
    · by_cases same : other = msg
      · rw [same, self]
        exact more
      · rw [others other fresh same]
        exact counted.tries other
  · exact Nat.lt_succ_of_lt (counted.roots msg oldMsg)
  · change _ ∉ (t.commands ++ t.acquiring ++ t.queue ++ []).map _
    rw [List.append_nil]
    intro member
    obtain ⟨other, stays, same⟩ := List.mem_map.mp member
    exact apart other stays same
  · exact counted.since msg current

end Counted

/-! ## Timeouts -/

/-- The queue is in the order of the timeouts, and none of them is missed. -/
structure Punctual (cfg : E2eConfig) (t : Timed) : Prop where
  sorted : t.queue.Pairwise fun first second =>
    (t.msgs first).sendInitTime ≤ (t.msgs second).sendInitTime
  past : ∀ msg ∈ t.queue ++ t.actor.current,
    (t.msgs msg).sendInitTime ≤ t.clock
  first : ∀ msg ∈ t.actor.current, ∀ queued ∈ t.queue,
    (t.msgs msg).sendInitTime ≤ (t.msgs queued).sendInitTime
  current : ∀ msg ∈ t.actor.current, t.clock ≤ t.wakeUpTime cfg msg
  queued : t.actor = .idle → ∀ msg ∈ t.queue, t.clock ≤ t.wakeUpTime cfg msg
  sleeping : ∀ msg limit, t.actor = .sleeping msg limit →
    limit = t.wakeUpTime cfg msg

/-- A retransmission leaves the stamps as they are. -/
theorem retransmit_stamp {t : Timed} {msg other : MsgId}
    (old : other ≠ t.nextMsg) :
    ((t.retransmit msg).msgs other).sendInitTime =
      (t.msgs other).sendInitTime := by
  by_cases same : other = msg
  · simp [retransmit, same ▸ old, same]
  · simp [retransmit, old, same]

namespace Punctual

variable {cfg : E2eConfig} {t after : Timed}

/-- Neither the clock nor the E2E actor moves. -/
theorem keep (punctual : t.Punctual cfg) (clock : after.clock = t.clock)
    (queue : after.queue = t.queue) (actor : after.actor = t.actor)
    (stamps : ∀ msg ∈ t.queue ++ t.actor.current,
      (after.msgs msg).sendInitTime = (t.msgs msg).sendInitTime) :
    after.Punctual cfg := by
  have waits : ∀ msg ∈ t.queue ++ t.actor.current,
      after.wakeUpTime cfg msg = t.wakeUpTime cfg msg := by
    intro msg member
    unfold wakeUpTime
    rw [stamps msg member]
  refine ⟨?_, ?_, ?_, ?_, ?_, ?_⟩
  · rw [queue]
    refine punctual.sorted.imp_of_mem fun left right ordered => ?_
    rw [stamps _ (List.mem_append_left _ left),
      stamps _ (List.mem_append_left _ right)]
    exact ordered
  · rw [queue, actor, clock]
    intro msg member
    rw [stamps msg member]
    exact punctual.past msg member
  · rw [queue, actor]
    intro msg member queued waiting
    rw [stamps msg (List.mem_append_right _ member),
      stamps queued (List.mem_append_left _ waiting)]
    exact punctual.first msg member queued waiting
  · rw [actor, clock]
    intro msg member
    rw [waits msg (List.mem_append_right _ member)]
    exact punctual.current msg member
  · rw [queue, actor, clock]
    intro idle msg member
    rw [waits msg (List.mem_append_left _ member)]
    exact punctual.queued idle msg member
  · rw [actor]
    intro msg limit asleep
    rw [waits msg (by rw [asleep]; simp [E2eActor.current])]
    exact punctual.sleeping msg limit asleep

/-- A message is stamped with the current time and goes to the end of the
queue. -/
theorem enqueue (punctual : t.Punctual cfg) (timeout : 0 ≤ cfg.retryTimeout)
    {msg : MsgId} (apart : msg ∉ t.active) :
    (t.enqueue msg).Punctual cfg := by
  have apart' : msg ∉ t.queue ++ t.actor.current :=
    fun member => apart (t.late_subset member)
  have stamp : ((t.enqueue msg).msgs msg).sendInitTime = t.clock := by
    simp [Timed.enqueue, modMsg]
  have stamps : ∀ other ∈ t.queue ++ t.actor.current,
      (t.enqueue msg).msgs other = t.msgs other := by
    intro other member
    have different : other ≠ msg := by
      rintro rfl
      exact apart' member
    exact Function.update_of_ne different _ _
  refine ⟨?_, ?_, ?_, ?_, ?_, ?_⟩
  · change (t.queue ++ [msg]).Pairwise _
    rw [List.pairwise_append]
    refine ⟨?_, List.pairwise_singleton _ _, ?_⟩
    · refine punctual.sorted.imp_of_mem fun left right ordered => ?_
      rw [stamps _ (List.mem_append_left _ left),
        stamps _ (List.mem_append_left _ right)]
      exact ordered
    · intro other member last atEnd
      rw [List.mem_singleton] at atEnd
      rw [atEnd, stamp, stamps other (List.mem_append_left _ member)]
      exact punctual.past other (List.mem_append_left _ member)
  · intro other member
    change other ∈ t.queue ++ [msg] ++ t.actor.current at member
    change _ ≤ t.clock
    by_cases same : other = msg
    · rw [same, stamp]
    · have member' : other ∈ t.queue ++ t.actor.current := by
        simp only [List.mem_append, List.mem_singleton] at member ⊢
        tauto
      rw [stamps other member']
      exact punctual.past other member'
  · intro other member queued waiting
    change other ∈ t.actor.current at member
    change queued ∈ t.queue ++ [msg] at waiting
    rw [stamps other (List.mem_append_right _ member)]
    by_cases same : queued = msg
    · rw [same, stamp]
      exact punctual.past other (List.mem_append_right _ member)
    · have waiting' : queued ∈ t.queue := by
        simp only [List.mem_append, List.mem_singleton] at waiting
        tauto
      rw [stamps queued (List.mem_append_left _ waiting')]
      exact punctual.first other member queued waiting'
  · intro other member
    change other ∈ t.actor.current at member
    change t.clock ≤ _
    unfold wakeUpTime
    rw [stamps other (List.mem_append_right _ member)]
    exact punctual.current other member
  · intro idle other member
    change other ∈ t.queue ++ [msg] at member
    change t.clock ≤ _
    unfold wakeUpTime
    by_cases same : other = msg
    · rw [same, stamp]
      linarith
    · have member' : other ∈ t.queue := by
        simp only [List.mem_append, List.mem_singleton] at member
        tauto
      rw [stamps other (List.mem_append_left _ member')]
      exact punctual.queued idle other member'
  · intro other limit asleep
    change t.actor = _ at asleep
    unfold wakeUpTime
    rw [stamps other (by rw [asleep]; simp [E2eActor.current])]
    exact punctual.sleeping other limit asleep

/-- Time goes by while the E2E actor is blocked. -/
theorem elapse (punctual : t.Punctual cfg) {time : ℚ}
    (elapsed : t.elapse time = some after) : after.Punctual cfg := by
  unfold Timed.elapse at elapsed
  obtain ⟨permitted, equality⟩ := Option.ite_none_right_eq_some.mp elapsed
  cases equality
  rw [Bool.and_eq_true, decide_eq_true_eq] at permitted
  obtain ⟨later, blocked⟩ := permitted
  refine ⟨punctual.sorted, fun msg member =>
    le_trans (punctual.past msg member) later, punctual.first, ?_, ?_,
    punctual.sleeping⟩
  · intro msg member
    cases actor : t.actor with
    | idle => simp [actor, E2eActor.current] at member
    | awake other => simp [actor] at blocked
    | sleeping other limit =>
        simp only [actor, E2eActor.current, List.mem_singleton] at member
        simp only [actor, decide_eq_true_eq] at blocked
        rw [punctual.sleeping other limit actor] at blocked
        rw [member]
        exact blocked
  · intro idle msg member
    change t.actor = .idle at idle
    simp only [idle, List.isEmpty_iff] at blocked
    change msg ∈ t.queue at member
    rw [blocked] at member
    cases member

/-- The E2E actor takes the head of its queue: its timeout is not over. -/
theorem get (punctual : t.Punctual cfg) (quiet : t.panic = none)
    (got : t.get cfg = some after) :
    after.Punctual cfg ∧ after.panic = none := by
  unfold Timed.get at got
  split at got
  · rename_i msg rest idle queue
    have due := punctual.queued idle msg (by rw [queue]; exact List.mem_cons_self)
    have sorted := punctual.sorted
    rw [queue, List.pairwise_cons] at sorted
    have past : ∀ other ∈ rest ++ [msg],
        (t.msgs other).sendInitTime ≤ t.clock := by
      intro other member
      apply punctual.past
      rw [queue]
      simp only [List.mem_append, List.mem_cons] at member ⊢
      tauto
    have first : ∀ other ∈ [msg], ∀ queued ∈ rest,
        (t.msgs other).sendInitTime ≤ (t.msgs queued).sendInitTime := by
      intro other member queued waiting
      rw [List.mem_singleton.mp member]
      exact sorted.1 queued waiting
    have current : ∀ other ∈ [msg], t.clock ≤ t.wakeUpTime cfg other := by
      intro other member
      rw [List.mem_singleton.mp member]
      exact due
    dsimp only at got
    rw [if_neg (not_lt.mpr due)] at got
    split at got
    · cases got
      refine ⟨⟨sorted.2, past, first, current, nofun, ?_⟩, quiet⟩
      intro other limit asleep
      cases asleep
      rfl
    · cases got
      exact ⟨⟨sorted.2, past, first, current, nofun, nofun⟩, quiet⟩
  · cases got

/-- The end of an iteration: the next timeouts are later. -/
theorem leave (punctual : t.Punctual cfg) {msg : MsgId}
    (awake : t.actor = .awake msg) :
    Punctual cfg { t with actor := .idle } := by
  have current : msg ∈ t.actor.current := by
    rw [awake]
    exact List.mem_singleton_self _
  refine ⟨punctual.sorted, ?_, nofun, nofun, ?_, nofun⟩
  · intro other member
    change other ∈ t.queue ++ [] at member
    rw [List.append_nil] at member
    exact punctual.past other (List.mem_append_left _ member)
  · intro _ other member
    have due := punctual.current msg current
    have ordered := punctual.first msg current other member
    unfold wakeUpTime at due ⊢
    change t.clock ≤ (t.msgs other).sendInitTime + cfg.retryTimeout
    linarith

end Punctual

end Timed

/-! ## Runs -/

/-- The invariant of the E2E circuit. -/
structure Timed.Sound (cfg : E2eConfig) (t : Timed) : Prop where
  quiet : t.panic = none
  counted : t.Counted cfg
  punctual : t.Punctual cfg

namespace Timed.Sound

variable {cfg : E2eConfig} {t after : Timed}

theorem initial (retries : 0 ≤ cfg.maxRetries) : Sound cfg {} := by
  refine ⟨rfl, ⟨nofun, nofun, List.nodup_nil, ?_, fun _ => retries, nofun,
    nofun⟩, ⟨List.Pairwise.nil, nofun, nofun, nofun, nofun, nofun⟩⟩
  intro original
  change ((0 : Nat) : Int) ≤ _
  omega

/-- Taking the element at a position out of one of the first two lists of
active messages. -/
theorem eraseIdx_perm {queue : List MsgId} {position : Nat} {msg : MsgId}
    (found : queue[position]? = some msg) :
    queue.Perm (msg :: queue.eraseIdx position) := by
  obtain ⟨inside, rfl⟩ := List.getElem?_eq_some_iff.mp found
  exact (List.getElem_cons_eraseIdx_perm inside).symm

theorem take (sound : t.Sound cfg) (timeout : 0 ≤ cfg.retryTimeout)
    {position : Nat} (taken : t.take position = some after) :
    after.Sound cfg := by
  obtain ⟨msg, found, rfl⟩ := Option.map_eq_some_iff.mp taken
  have perm := eraseIdx_perm found
  dsimp only
  split
  · -- The initiator waits for an entry with its message.
    refine ⟨sound.quiet, ?_, sound.punctual.keep rfl rfl rfl fun _ _ => rfl⟩
    have early : (t.commands.eraseIdx position ++ (t.acquiring ++ [msg])).Perm
        (t.commands ++ t.acquiring) := by
      rw [← List.append_assoc]
      refine List.perm_append_comm.trans ?_
      exact (perm.append_right t.acquiring).symm
    refine sound.counted.rearrange rfl rfl ?_ (List.Perm.refl _) early.subset
      (List.Subset.refl _)
    exact ((early.append_right t.queue).append_right
      t.actor.current).subperm
  · have held : Counted.Held
        { t with commands := t.commands.eraseIdx position } cfg msg := by
      refine sound.counted.held ?_ rfl rfl ?_ rfl rfl ?_ (List.Subset.refl _)
      · exact List.mem_append_left _ (List.mem_of_getElem? found)
      · exact ((perm.append_right t.acquiring).append_right
          t.queue).append_right t.actor.current
      · exact List.append_subset.mpr ⟨fun _ member => List.mem_append_left _
          (List.mem_of_mem_eraseIdx member), List.subset_append_right _ _⟩
    refine ⟨sound.quiet, Counted.enqueue held, ?_⟩
    have punctual : Punctual cfg
        { t with commands := t.commands.eraseIdx position } :=
      sound.punctual.keep rfl rfl rfl fun _ _ => rfl
    exact punctual.enqueue timeout held.not_mem

theorem acquire (sound : t.Sound cfg) (timeout : 0 ≤ cfg.retryTimeout)
    {position : Nat} (acquired : t.acquire position = some after) :
    after.Sound cfg := by
  obtain ⟨left, mapped⟩ := Option.ite_none_left_eq_some.mp acquired
  obtain ⟨msg, found, rfl⟩ := Option.map_eq_some_iff.mp mapped
  have perm := eraseIdx_perm found
  have held : Counted.Held
      { t with
        e2eEntries := t.e2eEntries - 1
        acquiring := t.acquiring.eraseIdx position } cfg msg := by
    refine sound.counted.held ?_ rfl rfl ?_ rfl rfl ?_ (List.Subset.refl _)
    · exact List.mem_append_right _ (List.mem_of_getElem? found)
    · refine (((perm.append_left t.commands).trans
        List.perm_middle).append_right t.queue).append_right t.actor.current
    · exact List.append_subset.mpr ⟨List.subset_append_left _ _,
        fun _ member => List.mem_append_right _
          (List.mem_of_mem_eraseIdx member)⟩
  refine ⟨sound.quiet, Counted.enqueue held, ?_⟩
  have punctual : Punctual cfg
      { t with
        e2eEntries := t.e2eEntries - 1
        acquiring := t.acquiring.eraseIdx position } :=
    sound.punctual.keep rfl rfl rfl fun _ _ => rfl
  exact punctual.enqueue timeout held.not_mem

theorem start (sound : t.Sound cfg) {position : Nat}
    (started : t.start position = some after) : after.Sound cfg := by
  obtain ⟨msg, found, rfl⟩ := Option.map_eq_some_iff.mp started
  refine ⟨sound.quiet, ?_, sound.punctual.keep rfl rfl rfl fun _ _ => rfl⟩
  refine sound.counted.rearrange rfl rfl (List.Subperm.refl _) ?_
    (List.Subset.refl _) (List.Subset.refl _)
  change (t.starting.eraseIdx position ++ (t.transmitted ++ [msg])).Perm _
  rw [← List.append_assoc]
  refine List.perm_append_comm.trans ?_
  exact ((eraseIdx_perm found).append_right t.transmitted).symm

theorem elapse (sound : t.Sound cfg) {time : ℚ}
    (elapsed : t.elapse time = some after) : after.Sound cfg := by
  have punctual := sound.punctual.elapse elapsed
  unfold Timed.elapse at elapsed
  obtain ⟨permitted, equality⟩ := Option.ite_none_right_eq_some.mp elapsed
  cases equality
  exact ⟨sound.quiet, { sound.counted with }, punctual⟩

theorem get (sound : t.Sound cfg) (got : t.get cfg = some after) :
    after.Sound cfg := by
  obtain ⟨punctual, quiet⟩ := sound.punctual.get sound.quiet got
  refine ⟨quiet, ?_, punctual⟩
  have moved : ∀ msg rest, t.actor = .idle → t.queue = msg :: rest →
      ∀ actor : E2eActor, actor.current = [msg] →
        Counted cfg { t with queue := rest, actor := actor } := by
    intro msg rest idle queue actor current
    have late : (rest ++ actor.current).Perm (t.queue ++ t.actor.current) := by
      rw [queue, idle, current]
      exact (List.perm_append_singleton msg rest).trans (by simp [E2eActor.current])
    refine sound.counted.rearrange rfl rfl ?_ (List.Perm.refl _)
      (List.Subset.refl _) late.subset
    simp only [active, List.append_assoc]
    exact ((late.append_left t.acquiring).append_left t.commands).subperm
  unfold Timed.get at got
  split at got
  · rename_i msg rest idle queue
    dsimp only at got
    split at got
    · cases got
      cases quiet
    · split at got
      · cases got
        exact moved msg rest idle queue _ rfl
      · cases got
        exact moved msg rest idle queue _ rfl
  · cases got

theorem wake (sound : t.Sound cfg) (woken : t.wake = some after) :
    after.Sound cfg := by
  unfold Timed.wake at woken
  split at woken
  · rename_i msg limit asleep
    obtain ⟨due, equality⟩ := Option.ite_none_right_eq_some.mp woken
    cases equality
    have current : E2eActor.current (.awake msg) = t.actor.current := by
      rw [asleep]
      rfl
    refine ⟨sound.quiet, ?_, ?_⟩
    · refine sound.counted.rearrange rfl rfl ?_ (List.Perm.refl _)
        (List.Subset.refl _) ?_
      · unfold active
        rw [current]
      · rw [current]
        exact List.Subset.refl _
    · refine ⟨sound.punctual.sorted, ?_, ?_, ?_, nofun, nofun⟩
      · rw [current]
        exact sound.punctual.past
      · rw [current]
        exact sound.punctual.first
      · rw [current]
        exact sound.punctual.current
  · cases woken

theorem process (sound : t.Sound cfg) {known : Bool}
    (processed : t.process cfg known = some after) : after.Sound cfg := by
  unfold Timed.process at processed
  split at processed
  · rename_i msg awake
    have punctual := sound.punctual.leave awake
    have dropped : Sound cfg { t with actor := .idle } := by
      refine ⟨sound.quiet, ?_, punctual⟩
      refine sound.counted.rearrange rfl rfl ?_ (List.Perm.refl _)
        (List.Subset.refl _) ?_
      · exact (List.Sublist.append_left (List.nil_sublist _) _).subperm
      · exact (List.Sublist.append_left (List.nil_sublist _) _).subset
    have bound := sound.counted.tries msg
    dsimp only at processed
    split at processed
    · cases processed
      exact dropped
    · cases processed
      exact dropped
    · rename_i verdict
      cases processed
      have more : (t.msgs msg).retryCount < cfg.maxRetries := by
        unfold e2eVerdict at verdict
        split at verdict
        · cases verdict
        · split at verdict
          · cases verdict
          · split at verdict
            · assumption
            · cases verdict
      refine ⟨sound.quiet, sound.counted.retransmit awake more,
        punctual.keep rfl rfl rfl ?_⟩
      intro other member
      have older : other < t.nextMsg := dropped.counted.old other
        (List.mem_append_left _ (late_subset _ member))
      exact retransmit_stamp (ne_of_lt older)
    · rename_i verdict
      unfold e2eVerdict at verdict
      split at verdict
      · cases verdict
      · split at verdict
        · cases verdict
        · split at verdict
          · cases verdict
          · omega
  · cases processed

/-- Every step of the E2E circuit keeps the invariant. -/
theorem step (sound : t.Sound cfg) (timeout : 0 ≤ cfg.retryTimeout)
    (retries : 0 ≤ cfg.maxRetries) {label : E2eLabel}
    (stepped : e2eStep cfg t label = some after) : after.Sound cfg := by
  unfold e2eStep at stepped
  rw [if_neg (by simp [sound.quiet])] at stepped
  cases label with
  | submit =>
      cases stepped
      refine ⟨sound.quiet, sound.counted.submit retries,
        sound.punctual.keep rfl rfl rfl ?_⟩
      intro msg member
      have old : msg < t.nextMsg := sound.counted.old msg
        (List.mem_append_left _ (t.late_subset member))
      rw [show t.submit.msgs msg = t.msgs msg from
        Function.update_of_ne (ne_of_lt old) _ _]
  | take position => exact sound.take timeout stepped
  | acquire position => exact sound.acquire timeout stepped
  | release =>
      cases stepped
      exact ⟨sound.quiet, { sound.counted with }, { sound.punctual with }⟩
  | start position => exact sound.start stepped
  | elapse time => exact sound.elapse stepped
  | get => exact sound.get stepped
  | wake => exact sound.wake stepped
  | process known => exact sound.process stepped

/-- The invariant holds in every reachable state. -/
theorem reached (timeout : 0 ≤ cfg.retryTimeout)
    (retries : 0 ≤ cfg.maxRetries)
    (reached : Reached (e2eStep cfg) Anything {} t) : t.Sound cfg :=
  reached.invariant (initial retries) fun sound _ stepped =>
    sound.step timeout retries stepped

end Timed.Sound

/-- A message which is never answered, with a timeout of five seconds and one
retry. -/
def unansweredMessage : List E2eLabel :=
  [.submit, .take 0, .acquire 0, .start 0, .get, .elapse 5, .wake,
    .process false, .take 0, .start 0, .get, .elapse 10, .wake, .process false]

end S4BXI
