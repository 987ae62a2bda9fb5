import S4BXI.Lib.Transition
import S4BXI.Portals.Objects

/-!
# Event queues and the mailbox pool

Every event queue stands on a SimGrid mailbox taken from the pool of
`s4bxi_mailbox_pool.cpp`, and so does every `PtlCTPoll`.  A mailbox goes back to
the pool as it is: the events which were not received yet are found by its next
owner.  The queues are isolated in the runs which free a queue only when it is
empty and in which `random_int` does not return the number of a mailbox in use.
-/

namespace S4BXI

open Lib

/-- The events put in a queue and those obtained from it. -/
inductive EqObs where
  | put (eq : EqId) (event : Event)
  | obtained (eq : EqId) (event : Event)
  deriving DecidableEq

/-- `BxiEQ`. -/
structure BxiEQ where
  mailbox : MailboxId := 0
  live : Bool := false
  deriving DecidableEq

/-- A counter waiting for its mailbox in `PtlCTPoll`.  `posted` tells that the
asynchronous receive has not been matched yet. -/
structure PollMailbox where
  mailbox : MailboxId
  posted : Bool
  deriving DecidableEq

/-- The event queues, the mailboxes and the events on their way to a queue. -/
structure Mailboxes where
  contents : MailboxId → List Event := fun _ => []
  pool : List MailboxId := []
  eqs : EqId → BxiEQ := fun _ => {}
  nextEq : EqId := 0
  polls : List PollMailbox := []
  transfers : List (EqId × Event) := []
  log : List EqObs := []

namespace Mailboxes

/-- `get_random_mailbox`, where `random` is what `random_int` returns. -/
def getRandomMailbox (s : Mailboxes) (random : Nat) :
    MailboxId × Mailboxes :=
  match s.pool with
  | mailbox :: pool => (mailbox, { s with pool := pool })
  | [] => (random, s)

/-- `free_random_mailbox`. -/
def freeRandomMailbox (s : Mailboxes) (mailbox : MailboxId) : Mailboxes :=
  { s with pool := mailbox :: s.pool }

/-- `BxiEQ::BxiEQ`. -/
def eqAlloc (s : Mailboxes) (random : Nat) : Mailboxes :=
  let taken := s.getRandomMailbox random
  { taken.2 with
    eqs := Function.update s.eqs s.nextEq ⟨taken.1, true⟩
    nextEq := s.nextEq + 1 }

/-- `BxiEQ::~BxiEQ`. -/
def eqFree (s : Mailboxes) (eq : EqId) : Mailboxes :=
  { s with
    eqs := Function.update s.eqs eq { s.eqs eq with live := false }
    }.freeRandomMailbox (s.eqs eq).mailbox

/-- `BxiNode::issue_event` after the PCI transfer: a detached put. -/
def putEvent (s : Mailboxes) (eq : EqId) (event : Event) : Mailboxes :=
  let mailbox := (s.eqs eq).mailbox
  { s with
    contents := Function.update s.contents mailbox
      (s.contents mailbox ++ [event])
    log := s.log ++ [.put eq event] }

/-- `BxiEQ::get` and `BxiEQ::wait` on a mailbox which is ready. -/
def eqGet (s : Mailboxes) (eq : EqId) : Option Mailboxes :=
  let mailbox := (s.eqs eq).mailbox
  match s.contents mailbox with
  | [] => none
  | event :: rest =>
      some { s with
        contents := Function.update s.contents mailbox rest
        log := s.log ++ [.obtained eq event] }

/-- The registration of `BxiCT::poll`: its asynchronous receive takes what it
finds in the mailbox. -/
def ctPoll (s : Mailboxes) (random : Nat) : Mailboxes :=
  let taken := s.getRandomMailbox random
  { taken.2 with
    contents := Function.update s.contents taken.1 (s.contents taken.1).tail
    polls := s.polls ++ [⟨taken.1, (s.contents taken.1).isEmpty⟩] }

/-- `BxiCT::on_update` for a mailbox: its put is matched by the receive of
`poll` and the mailbox is freed. -/
def ctWake (s : Mailboxes) (index : Nat) : Option Mailboxes :=
  match s.polls[index]? with
  | some ⟨mailbox, true⟩ =>
      some ({ s with polls := s.polls.eraseIdx index
        }.freeRandomMailbox mailbox)
  | _ => none

end Mailboxes

/-- What can happen to the event queues. -/
inductive EqCall where
  | eqAlloc (random : Nat)
  | eqFree (eq : EqId)
  /-- `issue_event` up to its PCI transfer. -/
  | issue (eq : EqId) (event : Event)
  /-- `issue_event` after the transfer at `index`. -/
  | put (index : Nat)
  | get (eq : EqId)
  | ctPoll (random : Nat)
  | ctWake (index : Nat)

/-- One step; the program does not use a queue which has been freed, and
`none` stands for an access to one. -/
def eqStep (s : Mailboxes) : EqCall → Option Mailboxes
  | .eqAlloc random => some (s.eqAlloc random)
  | .eqFree eq => if (s.eqs eq).live then some (s.eqFree eq) else none
  | .issue eq event =>
      if (s.eqs eq).live then
        some { s with transfers := s.transfers ++ [(eq, event)] }
      else
        none
  | .put index =>
      match s.transfers[index]? with
      | none => none
      | some (eq, event) =>
          if (s.eqs eq).live then
            some ({ s with transfers := s.transfers.eraseIdx index }.putEvent eq
              event)
          else
            none
  | .get eq => if (s.eqs eq).live then s.eqGet eq else none
  | .ctPoll random => some (s.ctPoll random)
  | .ctWake index => s.ctWake index

/-- The events put in a queue, in order. -/
def issuedTo (eq : EqId) (log : List EqObs) : List Event :=
  log.filterMap fun
    | .put other event => if other = eq then some event else none
    | _ => none

/-- The events obtained from a queue, in order. -/
def obtainedFrom (eq : EqId) (log : List EqObs) : List Event :=
  log.filterMap fun
    | .obtained other event => if other = eq then some event else none
    | _ => none

/-- The events obtained from a queue are the first ones which were put in it,
each once and in the same order; a queue holds the events which were put in it
since its allocation and not obtained yet; no two queues share a mailbox; and
no event is on its way to a queue which has been freed. -/
structure Mailboxes.Isolated (s : Mailboxes) : Prop where
  obtained : ∀ eq, obtainedFrom eq s.log <+: issuedTo eq s.log
  held : ∀ eq, (s.eqs eq).live = true → issuedTo eq s.log =
    obtainedFrom eq s.log ++ s.contents (s.eqs eq).mailbox
  apart : ∀ eq other, (s.eqs eq).live = true → (s.eqs other).live = true →
    (s.eqs eq).mailbox = (s.eqs other).mailbox → eq = other
  expected : ∀ transfer ∈ s.transfers, (s.eqs transfer.1).live = true

/-- The mailbox belongs to a queue or to a waiting counter. -/
def Mailboxes.InUse (s : Mailboxes) (mailbox : MailboxId) : Prop :=
  (∃ eq, (s.eqs eq).live = true ∧ (s.eqs eq).mailbox = mailbox) ∨
    ∃ poll ∈ s.polls, poll.mailbox = mailbox

/-- A queue is freed when it is empty and no event is on its way to it, and a
new mailbox does not get the number of a mailbox in use. -/
def EqCall.Clean (s : Mailboxes) : EqCall → Prop
  | .eqAlloc random | .ctPoll random => s.pool = [] → ¬s.InUse random
  | .eqFree eq => s.contents (s.eqs eq).mailbox = [] ∧
      ∀ transfer ∈ s.transfers, transfer.1 ≠ eq
  | _ => True

namespace Mailboxes

variable {s : Mailboxes}

/-- The queues are isolated and the other mailboxes are empty. -/
structure Tidy (s : Mailboxes) : Prop extends s.Isolated where
  drained : ∀ mailbox, (∀ eq, (s.eqs eq).live = true →
    (s.eqs eq).mailbox ≠ mailbox) → s.contents mailbox = []
  pooled : ∀ mailbox ∈ s.pool, ¬s.InUse mailbox
  nodup : s.pool.Nodup
  counters : (s.polls.map PollMailbox.mailbox).Nodup
  counted : ∀ poll ∈ s.polls, ∀ eq, (s.eqs eq).live = true →
    (s.eqs eq).mailbox ≠ poll.mailbox
  unborn : ∀ eq, s.nextEq ≤ eq → (s.eqs eq).live = false ∧
    issuedTo eq s.log = [] ∧ obtainedFrom eq s.log = []

theorem issuedTo_put (eq other : EqId) (event : Event) (log : List EqObs) :
    issuedTo eq (log ++ [.put other event]) =
      issuedTo eq log ++ if other = eq then [event] else [] := by
  by_cases same : other = eq <;> simp [issuedTo, same]

theorem issuedTo_obtained (eq other : EqId) (event : Event)
    (log : List EqObs) :
    issuedTo eq (log ++ [.obtained other event]) = issuedTo eq log := by
  simp [issuedTo]

theorem obtainedFrom_put (eq other : EqId) (event : Event)
    (log : List EqObs) :
    obtainedFrom eq (log ++ [.put other event]) = obtainedFrom eq log := by
  simp [obtainedFrom]

theorem obtainedFrom_obtained (eq other : EqId) (event : Event)
    (log : List EqObs) :
    obtainedFrom eq (log ++ [.obtained other event]) =
      obtainedFrom eq log ++ if other = eq then [event] else [] := by
  by_cases same : other = eq <;> simp [obtainedFrom, same]

/-- The mailbox which is taken is empty, belongs to nobody and leaves the
pool. -/
theorem Tidy.getRandomMailbox (tidy : s.Tidy) {random : Nat}
    (clean : s.pool = [] → ¬s.InUse random) :
    ∃ pool, (s.getRandomMailbox random).2 = { s with pool := pool } ∧
      pool.Nodup ∧ (∀ mailbox ∈ pool, mailbox ∈ s.pool) ∧
      ¬s.InUse (s.getRandomMailbox random).1 ∧
      (s.getRandomMailbox random).1 ∉ pool ∧
      s.contents (s.getRandomMailbox random).1 = [] := by
  have empty : ∀ mailbox, ¬s.InUse mailbox → s.contents mailbox = [] :=
    fun mailbox free => tidy.drained mailbox
      fun eq live same => free (.inl ⟨eq, live, same⟩)
  unfold Mailboxes.getRandomMailbox
  cases known : s.pool with
  | nil =>
      refine ⟨[], ?_, List.nodup_nil, by simp, clean known, by simp,
        empty random (clean known)⟩
      simp [← known]
  | cons mailbox pool =>
      have free : ¬s.InUse mailbox := tidy.pooled mailbox (by simp [known])
      have distinct := tidy.nodup
      rw [known] at distinct
      obtain ⟨absent, rest⟩ := List.nodup_cons.mp distinct
      exact ⟨pool, rfl, rest, fun other member =>
        List.mem_cons_of_mem _ member, free, absent, empty mailbox free⟩

theorem Tidy.eqAlloc (tidy : s.Tidy) {random : Nat}
    (clean : s.pool = [] → ¬s.InUse random) : (s.eqAlloc random).Tidy := by
  obtain ⟨pool, taken, distinct, smaller, free, absent, empty⟩ :=
    tidy.getRandomMailbox clean
  unfold Mailboxes.eqAlloc
  dsimp only
  rw [taken]
  generalize (s.getRandomMailbox random).1 = mailbox at *
  obtain ⟨dead, noneIssued, noneObtained⟩ := tidy.unborn s.nextEq (Nat.le_refl _)
  have old : ∀ {eq}, (s.eqs eq).live = true → eq ≠ s.nextEq := by
    rintro eq live rfl
    rw [dead] at live
    cases live
  have unused : ∀ eq, (s.eqs eq).live = true → (s.eqs eq).mailbox ≠ mailbox :=
    fun eq live same => free (.inl ⟨eq, live, same⟩)
  refine { obtained := tidy.obtained, held := ?_, apart := ?_,
           expected := ?_, drained := ?_, pooled := ?_, nodup := distinct,
           counters := tidy.counters, counted := ?_, unborn := ?_ }
  · intro eq live
    by_cases new : eq = s.nextEq
    · subst new
      simp [noneIssued, noneObtained, empty]
    · simp only [Function.update_of_ne new] at live ⊢
      exact tidy.held eq live
  · intro eq other live live' same
    by_cases new : eq = s.nextEq <;> by_cases new' : other = s.nextEq
    · rw [new, new']
    · subst new
      simp only [Function.update_of_ne new'] at live' same
      simp only [Function.update_self] at same
      exact absurd same.symm (unused other live')
    · subst new'
      simp only [Function.update_of_ne new] at live same
      simp only [Function.update_self] at same
      exact absurd same (unused eq live)
    · simp only [Function.update_of_ne new] at live same
      simp only [Function.update_of_ne new'] at live' same
      exact tidy.apart eq other live live' same
  · intro transfer member
    have live := tidy.expected transfer member
    simp only [Function.update_of_ne (old live)]
    exact live
  · intro other others
    refine tidy.drained other fun eq live => ?_
    have differs := others eq
    simp only [Function.update_of_ne (old live)] at differs
    exact differs live
  · rintro other member (⟨eq, live, same⟩ | ⟨poll, known, same⟩)
    · by_cases new : eq = s.nextEq
      · subst new
        simp only [Function.update_self] at same
        exact absent (same ▸ member)
      · simp only [Function.update_of_ne new] at live same
        exact tidy.pooled other (smaller other member) (.inl ⟨eq, live, same⟩)
    · exact tidy.pooled other (smaller other member)
        (.inr ⟨poll, known, same⟩)
  · intro poll known eq live
    by_cases new : eq = s.nextEq
    · subst new
      simp only [Function.update_self]
      exact fun same => free (.inr ⟨poll, known, same.symm⟩)
    · simp only [Function.update_of_ne new] at live ⊢
      exact tidy.counted poll known eq live
  · intro eq later
    have larger : eq ≠ s.nextEq := by
      rintro rfl
      exact absurd later (Nat.not_succ_le_self _)
    simp only [Function.update_of_ne larger]
    exact tidy.unborn eq (Nat.le_of_succ_le later)

theorem Tidy.eqFree (tidy : s.Tidy) {eq : EqId}
    (live : (s.eqs eq).live = true)
    (empty : s.contents (s.eqs eq).mailbox = [])
    (unexpected : ∀ transfer ∈ s.transfers, transfer.1 ≠ eq) :
    (s.eqFree eq).Tidy := by
  have others : ∀ other, (Function.update s.eqs eq
      { s.eqs eq with live := false } other).live = true →
        other ≠ eq ∧ (s.eqs other).live = true := by
    intro other alive
    by_cases same : other = eq
    · subst same
      simp at alive
    · simp only [Function.update_of_ne same] at alive
      exact ⟨same, alive⟩
  unfold Mailboxes.eqFree Mailboxes.freeRandomMailbox
  refine { obtained := tidy.obtained, held := ?_, apart := ?_,
           expected := ?_, drained := ?_, pooled := ?_, nodup := ?_,
           counters := tidy.counters, counted := ?_, unborn := ?_ }
  · intro other alive
    obtain ⟨differs, alive'⟩ := others other alive
    simp only [Function.update_of_ne differs]
    exact tidy.held other alive'
  · intro first second alive alive' same
    obtain ⟨differs, alive⟩ := others first alive
    obtain ⟨differs', alive'⟩ := others second alive'
    simp only [Function.update_of_ne differs, Function.update_of_ne differs'] at same
    exact tidy.apart first second alive alive' same
  · intro transfer member
    simp only [Function.update_of_ne (unexpected transfer member)]
    exact tidy.expected transfer member
  · intro mailbox unowned
    by_cases same : (s.eqs eq).mailbox = mailbox
    · exact same ▸ empty
    · refine tidy.drained mailbox fun other alive => ?_
      by_cases equal : other = eq
      · exact equal ▸ same
      · have differs := unowned other
        simp only [Function.update_of_ne equal] at differs
        exact differs alive
  · rintro mailbox member (⟨other, alive, same⟩ | ⟨poll, known, same⟩)
    · obtain ⟨differs, alive⟩ := others other alive
      simp only [Function.update_of_ne differs] at same
      rcases List.mem_cons.mp member with rfl | pooled
      · exact differs (tidy.apart other eq alive live same)
      · exact tidy.pooled mailbox pooled (.inl ⟨other, alive, same⟩)
    · rcases List.mem_cons.mp member with rfl | pooled
      · exact tidy.counted poll known eq live same.symm
      · exact tidy.pooled mailbox pooled (.inr ⟨poll, known, same⟩)
  · exact List.nodup_cons.mpr ⟨fun pooled => tidy.pooled _ pooled
      (.inl ⟨eq, live, rfl⟩), tidy.nodup⟩
  · intro poll known other alive
    obtain ⟨differs, alive⟩ := others other alive
    simp only [Function.update_of_ne differs]
    exact tidy.counted poll known other alive
  · intro other later
    obtain ⟨dead, silent⟩ := tidy.unborn other later
    refine ⟨?_, silent⟩
    simp only [Function.update_apply]
    split
    · rfl
    · exact dead

theorem Tidy.issue (tidy : s.Tidy) {eq : EqId} {event : Event}
    (live : (s.eqs eq).live = true) :
    ({ s with transfers := s.transfers ++ [(eq, event)] } : Mailboxes).Tidy :=
  { tidy with
    expected := by
      intro transfer member
      rcases List.mem_append.mp member with old | new
      · exact tidy.expected transfer old
      · rw [List.mem_singleton.mp new]
        exact live }

theorem Tidy.putEvent (tidy : s.Tidy) {eq : EqId} {event : Event}
    (live : (s.eqs eq).live = true) : (s.putEvent eq event).Tidy := by
  unfold Mailboxes.putEvent
  refine { tidy with
    obtained := ?_, held := ?_, drained := ?_, unborn := ?_ }
  · intro other
    rw [issuedTo_put, obtainedFrom_put]
    exact (tidy.obtained other).trans (List.prefix_append _ _)
  · intro other alive
    rw [issuedTo_put, obtainedFrom_put, tidy.held other alive]
    by_cases same : other = eq
    · subst same
      simp
    · have apart : (s.eqs other).mailbox ≠ (s.eqs eq).mailbox :=
        fun shared => same (tidy.apart other eq alive live shared)
      simp [Ne.symm same, Function.update_of_ne apart]
  · intro mailbox unowned
    simp only [Function.update_of_ne (Ne.symm (unowned eq live))]
    exact tidy.drained mailbox unowned
  · intro other later
    obtain ⟨dead, noneIssued, noneObtained⟩ := tidy.unborn other later
    have differs : eq ≠ other := by
      rintro rfl
      rw [dead] at live
      cases live
    rw [issuedTo_put, obtainedFrom_put, noneIssued]
    exact ⟨dead, by simp [differs], noneObtained⟩

theorem Tidy.eqGet (tidy : s.Tidy) {eq : EqId} {after : Mailboxes}
    (live : (s.eqs eq).live = true) (got : s.eqGet eq = some after) :
    after.Tidy := by
  unfold Mailboxes.eqGet at got
  dsimp only at got
  split at got
  · cases got
  rename_i event rest ready
  cases got
  have pending := tidy.held eq live
  rw [ready] at pending
  refine { tidy with
    obtained := ?_, held := ?_, drained := ?_, unborn := ?_ }
  · intro other
    rw [issuedTo_obtained, obtainedFrom_obtained]
    by_cases same : eq = other
    · subst same
      rw [pending, if_pos rfl]
      exact (List.prefix_append_right_inj _).mpr
        (List.prefix_append [event] rest)
    · simpa [same] using tidy.obtained other
  · intro other alive
    rw [issuedTo_obtained, obtainedFrom_obtained]
    by_cases same : eq = other
    · subst same
      simp [pending]
    · have apart : (s.eqs other).mailbox ≠ (s.eqs eq).mailbox :=
        fun shared => same (tidy.apart other eq alive live shared).symm
      simp only [same, if_false, List.append_nil, Function.update_of_ne apart]
      exact tidy.held other alive
  · intro mailbox unowned
    simp only [Function.update_of_ne (Ne.symm (unowned eq live))]
    exact tidy.drained mailbox unowned
  · intro other later
    obtain ⟨dead, noneIssued, noneObtained⟩ := tidy.unborn other later
    have differs : eq ≠ other := by
      rintro rfl
      rw [dead] at live
      cases live
    rw [issuedTo_obtained, obtainedFrom_obtained, noneObtained]
    exact ⟨dead, noneIssued, by simp [differs]⟩

theorem Tidy.ctPoll (tidy : s.Tidy) {random : Nat}
    (clean : s.pool = [] → ¬s.InUse random) : (s.ctPoll random).Tidy := by
  obtain ⟨pool, taken, distinct, smaller, free, absent, empty⟩ :=
    tidy.getRandomMailbox clean
  unfold Mailboxes.ctPoll
  dsimp only
  rw [taken]
  generalize (s.getRandomMailbox random).1 = mailbox at *
  have same : Function.update s.contents mailbox
      (s.contents mailbox).tail = s.contents := by
    rw [empty, List.tail_nil, ← empty, Function.update_eq_self]
  rw [same]
  refine { tidy with
    pooled := ?_, nodup := distinct, counters := ?_, counted := ?_ }
  · rintro other member (owned | ⟨poll, known, same⟩)
    · exact tidy.pooled other (smaller other member) (.inl owned)
    · rcases List.mem_append.mp known with old | new
      · exact tidy.pooled other (smaller other member)
          (.inr ⟨poll, old, same⟩)
      · rw [List.mem_singleton.mp new] at same
        subst same
        exact absent member
  · rw [List.map_append, List.map_singleton]
    refine List.nodup_append.mpr ⟨tidy.counters, by simp, ?_⟩
    intro old member new last
    rw [List.mem_singleton.mp last]
    obtain ⟨poll, known, rfl⟩ := List.mem_map.mp member
    exact fun equal => free (.inr ⟨poll, known, equal⟩)
  · intro poll known eq live
    rcases List.mem_append.mp known with old | new
    · exact tidy.counted poll old eq live
    · rw [List.mem_singleton.mp new]
      exact fun equal => free (.inl ⟨eq, live, equal⟩)

theorem Tidy.ctWake (tidy : s.Tidy) {index : Nat} {after : Mailboxes}
    (woken : s.ctWake index = some after) : after.Tidy := by
  unfold Mailboxes.ctWake at woken
  split at woken
  · rename_i mailbox found
    cases woken
    have member := List.mem_of_getElem? found
    have remaining : ∀ poll ∈ s.polls.eraseIdx index,
        poll ∈ s.polls ∧ poll.mailbox ≠ mailbox := by
      intro poll kept
      refine ⟨List.mem_of_mem_eraseIdx kept, fun same => ?_⟩
      obtain ⟨other, differs, there⟩ := List.mem_eraseIdx_iff_getElem?.mp kept
      have inside : index < (s.polls.map PollMailbox.mailbox).length := by
        rw [List.length_map]
        exact (List.getElem?_eq_some_iff.mp found).1
      refine differs ((List.getElem?_inj inside tidy.counters).mp ?_).symm
      rw [List.getElem?_map, List.getElem?_map, found, there, Option.map_some,
        Option.map_some, same]
    refine { tidy with
      pooled := ?_, nodup := ?_, counters := ?_, counted := ?_ }
    · rintro other pooled used
      rcases List.mem_cons.mp pooled with rfl | old
      · rcases used with ⟨eq, live, same⟩ | ⟨poll, known, same⟩
        · exact tidy.counted _ member eq live same
        · exact (remaining poll known).2 same
      · rcases used with owned | ⟨poll, known, same⟩
        · exact tidy.pooled other old (.inl owned)
        · exact tidy.pooled other old
            (.inr ⟨poll, (remaining poll known).1, same⟩)
    · exact List.nodup_cons.mpr ⟨fun pooled => tidy.pooled _ pooled
        (.inr ⟨_, member, rfl⟩), tidy.nodup⟩
    · exact tidy.counters.sublist ((List.eraseIdx_sublist _ _).map _)
    · exact fun poll known => tidy.counted poll (remaining poll known).1
  · cases woken

theorem tidy_initial : ({} : Mailboxes).Tidy where
  obtained _ := List.prefix_rfl
  held _ live := by cases live
  apart _ _ live := by cases live
  expected _ member := by cases member
  drained _ _ := rfl
  pooled _ member := by cases member
  nodup := List.nodup_nil
  counters := List.nodup_nil
  counted _ member := by cases member
  unborn _ _ := ⟨rfl, rfl, rfl⟩

theorem Tidy.step {after : Mailboxes} {call : EqCall} (tidy : s.Tidy)
    (clean : call.Clean s) (stepped : eqStep s call = some after) :
    after.Tidy := by
  cases call with
  | eqAlloc random =>
      cases stepped
      exact tidy.eqAlloc clean
  | eqFree eq =>
      obtain ⟨live, equal⟩ := Option.ite_none_right_eq_some.mp stepped
      cases equal
      exact tidy.eqFree live clean.1 clean.2
  | issue eq event =>
      obtain ⟨live, equal⟩ := Option.ite_none_right_eq_some.mp stepped
      cases equal
      exact tidy.issue live
  | put index =>
      simp only [eqStep] at stepped
      split at stepped
      · cases stepped
      · obtain ⟨live, equal⟩ := Option.ite_none_right_eq_some.mp stepped
        cases equal
        have fewer : ({ s with
            transfers := s.transfers.eraseIdx index } : Mailboxes).Tidy :=
          { tidy with expected := fun transfer kept =>
              tidy.expected transfer (List.mem_of_mem_eraseIdx kept) }
        exact fewer.putEvent live
  | get eq =>
      obtain ⟨live, got⟩ := Option.ite_none_right_eq_some.mp stepped
      exact tidy.eqGet live got
  | ctPoll random =>
      cases stepped
      exact tidy.ctPoll clean
  | ctWake index => exact tidy.ctWake stepped

end Mailboxes

/-- The event queues are isolated in every run which frees empty queues only
and in which no new mailbox gets the number of a mailbox in use. -/
theorem event_queues_isolated {s : Mailboxes}
    (reached : Reached eqStep (fun s call => call.Clean s) {} s) :
    s.Isolated := by
  have tidy : s.Tidy := reached.invariant Mailboxes.tidy_initial
    fun holds clean stepped => holds.step clean stepped
  exact tidy.toIsolated

/-- An event which is left in a queue when it is freed is found in the queue
which is allocated next. -/
theorem freed_event_queue_leaks :
    ∃ s, Reached eqStep Anything {} s ∧ ¬s.Isolated := by
  let event : Event := { type := .put, niFailType := .ok }
  obtain ⟨s, final, leaked⟩ : ∃ s, runLabels eqStep (fun _ _ => true) {}
      [.eqAlloc 5, .issue 0 event, .put 0, .eqFree 0, .eqAlloc 9, .get 1] =
        some s ∧ obtainedFrom 1 s.log = [event] ∧ issuedTo 1 s.log = [] :=
    ⟨_, rfl, rfl, rfl⟩
  refine ⟨s, reached_of_runLabels (fun _ _ _ => trivial) final, ?_⟩
  intro isolated
  have received := isolated.obtained 1
  rw [leaked.1, leaked.2] at received
  cases List.eq_nil_of_prefix_nil received

/-- A queue which is freed once its event was obtained. -/
theorem drained_event_queue_isolated :
    ∃ s, Reached eqStep (fun s call => call.Clean s) {} s ∧
      obtainedFrom 0 s.log = [{ type := .put, niFailType := .ok }] ∧
      (s.eqs 0).live = false ∧ s.Isolated := by
  have reached : Reached eqStep (fun s call => call.Clean s) {} _ :=
    .tail (.tail (.tail (.tail (.tail .refl
      (show EqCall.Clean {} (.eqAlloc 5) from fun _ used => by
        rcases used with ⟨eq, live, same⟩ | ⟨poll, member, same⟩
        · cases live
        · cases member) rfl)
      (show EqCall.Clean _ (.issue 0 { type := .put, niFailType := .ok })
        from trivial) rfl)
      (show EqCall.Clean _ (.put 0) from trivial) rfl)
      (show EqCall.Clean _ (.get 0) from trivial) rfl)
      (show EqCall.Clean _ (.eqFree 0) from
        ⟨rfl, fun transfer member => by cases member⟩) rfl
  exact ⟨_, reached, rfl, rfl, event_queues_isolated reached⟩

end S4BXI
