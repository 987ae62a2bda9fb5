import S4BXI.Api.Counter

/-!
# Polling several counters

`BxiCT::poll` and `BxiCT::on_update` with the communications between them.
`poll` registers a mailbox in each counter and posts a receive on it;
`on_update` erases the entry it wakes up, puts to its mailbox, waits for the
put and gives the mailbox back to the pool.  Nothing else removes an entry or
gives a mailbox back.
-/

namespace S4BXI

open Lib

/-- A receive is waiting until a put matches it or `cancel` withdraws it. -/
inductive CommState where
  | waiting | matched | cancelled
  deriving DecidableEq

/-- What is known of the registration of a call of `poll` in one counter:
whether the entry is still in the waiting list, and whether the mailbox has
been given back. -/
structure Registration where
  call : Nat
  ct : CtId
  mailbox : MailboxId
  listed : Bool := true
  givenBack : Bool := false
  deriving DecidableEq

/-- The receive posted for a registration. -/
structure Receive extends Registration where
  comm : CommState
  deriving DecidableEq

/-- A receive which waits on a mailbox. -/
def Receive.waits (mailbox : MailboxId) (x : Receive) : Bool :=
  x.mailbox = mailbox && x.comm = .waiting

/-- A receive whose entry is registered with a mailbox. -/
def Receive.lists (mailbox : MailboxId) (x : Receive) : Bool :=
  x.mailbox = mailbox && x.listed

/-- An entry of a waiting list, with the receive of `poll` it belongs to. -/
structure Waiter where
  entry : ActorWaitingCT
  receive : Option Nat := none
  deriving DecidableEq

/-- What an actor is doing between two simcalls. -/
inductive PollActivity where
  | idle
  /-- Suspended in `BxiCT::wait`. -/
  | suspended
  /-- The loop of `poll` which registers the remaining counters. -/
  | registering (call : Nat) (handles : List CtId) (forever : Bool)
      (rest : List (CtId × Size))
  /-- `poll` in `wait_any`. -/
  | polling (call : Nat) (handles : List CtId) (forever : Bool)
  /-- The loop of `poll` which cancels the remaining receives. -/
  | cancelling (call : Nat) (handles : List CtId) (which : Option Nat)
      (rest : List Nat)
  /-- `on_update` with its iterator at `position`. -/
  | onUpdate (ct : CtId) (position : Nat)
  /-- `on_update` in the put for an entry; `done` once it has been matched. -/
  | putting (ct : CtId) (position : Nat) (mailbox : MailboxId)
      (receive : Option Nat) (done : Bool)
  deriving DecidableEq

/-- The counters, the mailbox pool, the communications and the actors.  `puts`
has the puts which no receive has matched, in their order. -/
structure Polls where
  event : CtId → CtEvent := fun _ => {}
  waiting : CtId → List Waiter := fun _ => []
  pool : List MailboxId := []
  receives : List Receive := []
  puts : List (ThreadId × MailboxId) := []
  activity : ThreadId → PollActivity := fun _ => .idle
  nextCall : Nat := 0
  returned : List (Nat × Option (Nat × CtEvent)) := []

namespace Polls

variable (s : Polls)

def act (actor : ThreadId) (activity : PollActivity) : Polls :=
  { s with activity := Function.update s.activity actor activity }

/-- `waiting.push_back`. -/
def enlist (ct : CtId) (waiter : Waiter) : Polls :=
  { s with
    waiting := Function.update s.waiting ct (s.waiting ct ++ [waiter]) }

/-- The receives of a call, in the order in which they were posted. -/
def receivesOf (call : Nat) : List Nat :=
  (List.range s.receives.length).filter fun r =>
    s.receives[r]?.any fun x => x.call = call

/-- `get_random_mailbox`, with the number which `random_int` returns. -/
def getRandomMailbox (drawn : MailboxId) : MailboxId × List MailboxId :=
  match s.pool with
  | [] => (drawn, [])
  | mailbox :: rest => (mailbox, rest)

/-- A receive is matched with the first put to its mailbox. -/
def postReceive (call : Nat) (ct : CtId) (mailbox : MailboxId) : Polls :=
  let post (comm : CommState) : Polls :=
    { s with
      receives := s.receives ++
        [{ call := call, ct := ct, mailbox := mailbox, comm := comm }] }
  match s.puts.find? fun put => put.2 = mailbox with
  | none => post .waiting
  | some (putter, _) =>
      let posted := post .matched
      let posted := { posted with puts := s.puts.erase (putter, mailbox) }
      match s.activity putter with
      | .putting other position mailbox receive _ =>
          posted.act putter (.putting other position mailbox receive true)
      | _ => posted

/-- An iteration of the loop of `poll` which registers the counters. -/
def registerOne (call : Nat) (ct : CtId) (test : Size) (drawn : MailboxId) :
    Polls :=
  let (mailbox, pool) := s.getRandomMailbox drawn
  let taken := { s with pool := pool }
  (taken.enlist ct ⟨⟨.mailbox mailbox, test⟩, some s.receives.length⟩).postReceive
    call ct mailbox

/-- A put is matched with the first receive which waits on its mailbox. -/
def firstReceive (mailbox : MailboxId) : Option Nat :=
  s.receives.findIdx? (Receive.waits mailbox)

def setReceive (r : Nat) (change : Receive → Receive) : Polls :=
  { s with receives := s.receives.modify r change }

/-- The put of `on_update`, up to its match. -/
def put (actor : ThreadId) (ct : CtId) (position : Nat) (mailbox : MailboxId)
    (receive : Option Nat) : Polls :=
  match s.firstReceive mailbox with
  | some r =>
      (s.setReceive r fun x => { x with comm := .matched }).act actor
        (.putting ct position mailbox receive true)
  | none =>
      { s with puts := s.puts ++ [(actor, mailbox)] }.act actor
        (.putting ct position mailbox receive false)

/-- `actor->resume()`, which does nothing to an actor which is not
suspended. -/
def resume (sleeper : ThreadId) : Polls :=
  if s.activity sleeper = .suspended then s.act sleeper .idle else s

/-- `waiting.erase(it--)`. -/
def erase (ct : CtId) (position : Nat) : Polls :=
  { s with
    waiting := Function.update s.waiting ct
      ((s.waiting ct).eraseIdx position) }

/-- The wake-up of an entry, after it has been erased. -/
def wakeUp (actor : ThreadId) (ct : CtId) (position : Nat) (waiter : Waiter) :
    Polls :=
  let erased := s.erase ct position
  match waiter.entry.sleeper with
  | .actor sleeper => (erased.resume sleeper).act actor (.onUpdate ct position)
  | .mailbox mailbox =>
      match waiter.receive with
      | none => erased.put actor ct position mailbox none
      | some r =>
          (erased.setReceive r fun x => { x with listed := false }).put actor
            ct position mailbox (some r)

/-- `on_update` from `position` to its next simcall, or to its end.  There is
no result where another update has shortened the list below the iterator. -/
def advance (actor : ThreadId) (ct : CtId) (position : Nat) : Option Polls :=
  if (s.waiting ct).length < position then
    none
  else
    match ((s.waiting ct).drop position).findIdx? fun waiter =>
        (s.event ct).wakes waiter.entry.test with
    | none => some (s.act actor .idle)
    | some offset =>
        (s.waiting ct)[position + offset]?.map
          (s.wakeUp actor ct (position + offset))

/-- `free_random_mailbox` after the put. -/
def freeRandomMailbox (mailbox : MailboxId) (receive : Option Nat) : Polls :=
  let freed := { s with pool := mailbox :: s.pool }
  match receive with
  | none => freed
  | some r => freed.setReceive r fun x => { x with givenBack := true }

/-- Whether `wait_any` can return a result: a receive which has been matched, or
a timeout. -/
def mayWake (call : Nat) (forever : Bool) (which : Option Nat) : Bool :=
  match which with
  | none => !forever
  | some index =>
      ((s.receivesOf call)[index]?.bind (s.receives[·]?)).any
        fun x => x.comm = .matched

/-- The result of a call which returns. -/
def result (handles : List CtId) (which : Option Nat) :
    Option (Nat × CtEvent) :=
  which.bind fun index => handles[index]?.map fun ct => (index, s.event ct)

def finish (actor : ThreadId) (call : Nat) (handles : List CtId)
    (which : Option Nat) : Polls :=
  { s with
    returned := s.returned ++ [(call, s.result handles which)]
    }.act actor .idle

end Polls

/-- The steps.  `wakeAny` is the return of `wait_any` or `wait_any_for`. -/
inductive PollLabel where
  | wait (actor : ThreadId) (ct : CtId) (test : Size)
  | poll (actor : ThreadId) (entries : List (CtId × Size)) (forever : Bool)
  | update (actor : ThreadId) (ct : CtId) (update : CtUpdate)
  | wakeAny (actor : ThreadId) (which : Option Nat)
  | run (actor : ThreadId) (drawn : MailboxId)

/-- The next simcall of an actor which is not waiting for anything. -/
def runActor (s : Polls) (actor : ThreadId) (drawn : MailboxId) :
    Option Polls :=
  match s.activity actor with
  | .registering call handles forever ((ct, test) :: rest) =>
      some ((s.act actor (.registering call handles forever rest)).registerOne
        call ct test drawn)
  | .registering call handles forever [] =>
      some (s.act actor (.polling call handles forever))
  | .cancelling call handles which (r :: rest) =>
      some ((s.act actor (.cancelling call handles which rest)).setReceive r
        fun x => { x with
          comm := if x.comm = .waiting then .cancelled else x.comm })
  | .cancelling call handles which [] =>
      some (s.finish actor call handles which)
  | .onUpdate ct position => s.advance actor ct position
  | .putting ct position mailbox receive true =>
      some ((s.act actor (.onUpdate ct position)).freeRandomMailbox mailbox
        receive)
  | .putting _ _ _ _ false | .idle | .suspended | .polling _ _ _ => none

def pollStep (s : Polls) : PollLabel → Option Polls
  | .wait actor ct test =>
      if s.activity actor = .idle then
        if (s.event ct).success < test && (s.event ct).failure == 0 then
          some ((s.enlist ct ⟨⟨.actor actor, test⟩, none⟩).act actor
            .suspended)
        else
          some s
      else
        none
  | .poll actor entries forever =>
      if s.activity actor = .idle then
        let handles := entries.map Prod.fst
        let begun := { s with nextCall := s.nextCall + 1 }
        match entries.findIdx? fun entry =>
            (s.event entry.1).reached entry.2 with
        | some index =>
            some (begun.finish actor s.nextCall handles (some index))
        | none =>
            some (begun.act actor
              (.registering s.nextCall handles forever entries))
      else
        none
  | .update actor ct update =>
      if s.activity actor = .idle then
        some
          ({ s with
            event := Function.update s.event ct ((s.event ct).updated update)
            }.act actor (.onUpdate ct 0))
      else
        none
  | .wakeAny actor which =>
      match s.activity actor with
      | .polling call handles forever =>
          if s.mayWake call forever which then
            some (s.act actor
              (.cancelling call handles which (s.receivesOf call)))
          else
            none
      | _ => none
  | .run actor drawn => runActor s actor drawn

/-- The receive whose put an actor is in. -/
def PollActivity.inPut : PollActivity → Option Nat
  | .putting _ _ _ receive _ => receive
  | .idle | .suspended | .registering _ _ _ _ | .polling _ _ _
  | .cancelling _ _ _ _ | .onUpdate _ _ => none

/-- The call of `poll` an actor is in. -/
def PollActivity.inCall : PollActivity → Option Nat
  | .registering call _ _ _ | .polling call _ _ | .cancelling call _ _ _ =>
      some call
  | .idle | .suspended | .onUpdate _ _ | .putting _ _ _ _ _ => none

namespace Polls

/-- What is known of a receive, apart from its communication. -/
def registration (s : Polls) (r : Nat) : Option Registration :=
  s.receives[r]?.map Receive.toRegistration

/-- No waiting list has the entry of a receive. -/
def Unlisted (s : Polls) (r : Nat) : Prop :=
  ∀ ct, ∀ waiter ∈ s.waiting ct, waiter.receive ≠ some r

/-- No update is in the put of a receive. -/
def Unput (s : Polls) (r : Nat) : Prop :=
  ∀ actor, (s.activity actor).inPut ≠ some r

/-- A call has left nothing behind: no entry in a waiting list, and every
mailbox has been given back. -/
def Clean (s : Polls) (call : Nat) : Prop :=
  ∀ r x, s.registration r = some x → x.call = call →
    s.Unlisted r ∧ x.givenBack = true

/-- Every entry of a call has been woken up by an update which has come back
from its put. -/
def Served (s : Polls) (call : Nat) : Prop :=
  ∀ r x, s.registration r = some x → x.call = call → s.Unlisted r ∧ s.Unput r

end Polls

/-- What `poll` needs when it returns: all its entries have been served, and
no receive is withdrawn before a put has matched it. -/
def PollLabel.Orderly (s : Polls) : PollLabel → Prop
  | .run actor _ =>
      match s.activity actor with
      | .cancelling _ _ _ (r :: _) =>
          ∀ x, s.receives[r]? = some x → x.comm = .matched
      | .cancelling call _ _ [] => s.Served call
      | _ => True
  | _ => True

/-! ## Where the entries and the mailboxes are -/

namespace Polls

variable {s after : Polls}

/-- What an entry of the list of a counter is about: a suspended actor, or a
receive which is listed there. -/
def About (s : Polls) (ct : CtId) (waiter : Waiter) : Prop :=
  match waiter.receive with
  | none => ∃ actor, waiter.entry.sleeper = .actor actor
  | some r => ∃ x, s.registration r = some x ∧ x.listed = true ∧ x.ct = ct ∧
      waiter.entry.sleeper = .mailbox x.mailbox

/-- A registration is in the waiting list of its counter, in the put of one
update, or given back. -/
structure Custody (s : Polls) : Prop where
  about : ∀ ct, ∀ waiter ∈ s.waiting ct, s.About ct waiter
  once : ∀ ct, ((s.waiting ct).filterMap Waiter.receive).Nodup
  inPut : ∀ actor r, (s.activity actor).inPut = some r →
    ∃ x, s.registration r = some x ∧ x.listed = false ∧ x.givenBack = false
  alone : ∀ actor other r, (s.activity actor).inPut = some r →
    (s.activity other).inPut = some r → actor = other
  placed : ∀ r x, s.registration r = some x →
    (x.givenBack = false ∧ ∃ waiter ∈ s.waiting x.ct,
      waiter.receive = some r) ∨
    (x.listed = false ∧ x.givenBack = true) ∨
    ∃ actor, (s.activity actor).inPut = some r

theorem custody_initial : ({} : Polls).Custody :=
  { about := by simp
    once := fun _ => .nil
    inPut := by simp [PollActivity.inPut]
    alone := by simp [PollActivity.inPut]
    placed := by simp [registration] }

/-- The receive of an entry is listed. -/
theorem Custody.listed (custody : s.Custody) {ct : CtId} {waiter : Waiter}
    (member : waiter ∈ s.waiting ct) {r : Nat}
    (own : waiter.receive = some r) :
    ∃ x, s.registration r = some x ∧ x.listed = true ∧ x.ct = ct ∧
      waiter.entry.sleeper = .mailbox x.mailbox := by
  have about := custody.about ct waiter member
  unfold About at about
  rw [own] at about
  exact about

theorem Custody.unlisted (custody : s.Custody) {r : Nat} {x : Registration}
    (known : s.registration r = some x) (removed : x.listed = false) :
    s.Unlisted r := by
  intro ct waiter member own
  obtain ⟨x', known', listed, -⟩ := custody.listed member own
  rw [known] at known'
  cases known'
  rw [removed] at listed
  cases listed

/-- A call has left nothing behind exactly when its entries have been
served. -/
theorem Custody.clean_iff (custody : s.Custody) (call : Nat) :
    s.Clean call ↔ s.Served call := by
  constructor
  · intro clean r x known own
    obtain ⟨unlisted, back⟩ := clean r x known own
    refine ⟨unlisted, ?_⟩
    intro actor putting
    obtain ⟨x', known', -, kept⟩ := custody.inPut actor r putting
    rw [known] at known'
    cases known'
    rw [back] at kept
    cases kept
  · intro served r x known own
    obtain ⟨unlisted, unput⟩ := served r x known own
    refine ⟨unlisted, ?_⟩
    rcases custody.placed r x known with ⟨-, waiter, member, same⟩ | ⟨-, back⟩ |
      ⟨actor, putting⟩
    · exact absurd same (unlisted x.ct waiter member)
    · exact back
    · exact absurd putting (unput actor)

/-- What neither moves an entry nor a put keeps the custody. -/
theorem Custody.frame (custody : s.Custody)
    (waiting : after.waiting = s.waiting)
    (known : ∀ r, after.registration r = s.registration r)
    (puts : ∀ actor, (after.activity actor).inPut =
      (s.activity actor).inPut) : after.Custody := by
  constructor
  · intro ct waiter member
    rw [waiting] at member
    have about := custody.about ct waiter member
    unfold About at about ⊢
    simpa only [known] using about
  · rw [waiting]
    exact custody.once
  · intro actor r putting
    rw [puts] at putting
    rw [known]
    exact custody.inPut actor r putting
  · intro actor other r putting putting'
    rw [puts] at putting putting'
    exact custody.alone actor other r putting putting'
  · intro r x found
    rw [known] at found
    rw [waiting]
    simpa only [puts] using custody.placed r x found

theorem inPut_act {actor : ThreadId} {activity : PollActivity}
    (same : activity.inPut = (s.activity actor).inPut) (other : ThreadId) :
    ((s.act actor activity).activity other).inPut =
      (s.activity other).inPut := by
  simp only [act, Function.update_apply]
  split
  · rename_i equal
    rw [equal, same]
  · rfl

theorem registration_act (actor : ThreadId) (activity : PollActivity)
    (r : Nat) : (s.act actor activity).registration r = s.registration r := rfl

theorem registration_setReceive (r place : Nat) (change : Receive → Receive) :
    (s.setReceive r change).registration place =
      if r = place then s.receives[place]?.map fun x =>
        (change x).toRegistration
      else s.registration place := by
  simp only [registration, setReceive, List.getElem?_modify]
  split
  · simp [Function.comp_def]
  · simp

/-- A change of the communication only. -/
theorem registration_setComm (r place : Nat) (comm : Receive → CommState) :
    (s.setReceive r fun x => { x with comm := comm x }).registration place =
      s.registration place := by
  rw [registration_setReceive]
  split
  · rfl
  · rfl

/-- An idle step of an actor. -/
theorem Custody.act (custody : s.Custody) {actor : ThreadId}
    {activity : PollActivity}
    (same : activity.inPut = (s.activity actor).inPut) :
    (s.act actor activity).Custody :=
  custody.frame rfl (fun _ => rfl) (inPut_act same)

theorem mem_enlist {ct place : CtId} {waiter new : Waiter} :
    waiter ∈ (s.enlist ct new).waiting place ↔
      waiter ∈ s.waiting place ∨ place = ct ∧ waiter = new := by
  simp only [enlist, Function.update_apply]
  split
  · rename_i same
    subst same
    simp
  · rename_i different
    simp [different]

/-- `wait` registers an actor. -/
theorem Custody.enlist_actor (custody : s.Custody) (ct : CtId)
    (actor : ThreadId) (test : Size) :
    (s.enlist ct ⟨⟨.actor actor, test⟩, none⟩).Custody := by
  constructor
  · intro place waiter member
    rcases mem_enlist.mp member with old | ⟨-, rfl⟩
    · exact custody.about place waiter old
    · exact ⟨actor, rfl⟩
  · intro place
    have once := custody.once place
    simp only [enlist, Function.update_apply]
    split
    · rename_i same
      subst same
      simpa using once
    · exact once
  · exact custody.inPut
  · exact custody.alone
  · intro r x known
    refine (custody.placed r x known).imp_left ?_
    rintro ⟨kept, waiter, member, own⟩
    exact ⟨kept, waiter, mem_enlist.mpr (.inl member), own⟩

theorem registration_lt {r : Nat} {x : Registration}
    (known : s.registration r = some x) : r < s.receives.length := by
  obtain ⟨receive, found, -⟩ := Option.map_eq_some_iff.mp known
  exact (List.getElem?_eq_some_iff.mp found).1

/-- The registrations after a receive has been posted. -/
theorem registration_postReceive (call : Nat) (ct : CtId)
    (mailbox : MailboxId) (r : Nat) :
    (s.postReceive call ct mailbox).registration r =
      if r = s.receives.length then some ⟨call, ct, mailbox, true, false⟩
      else s.registration r := by
  have grown : ∀ new : Receive, (s.receives ++ [new])[r]?.map
      Receive.toRegistration = if r = s.receives.length then
        some new.toRegistration else s.registration r := by
    intro new
    rcases Nat.lt_trichotomy r s.receives.length with low | same | high
    · rw [List.getElem?_append_left low, if_neg (Nat.ne_of_lt low)]
      rfl
    · subst same
      simp
    · rw [if_neg (Nat.ne_of_gt high), registration,
        List.getElem?_eq_none (by simp; omega),
        List.getElem?_eq_none (Nat.le_of_lt high)]
  unfold postReceive
  dsimp only
  split
  · exact grown _
  · split
    · exact grown _
    · exact grown _

theorem waiting_postReceive (call : Nat) (ct : CtId) (mailbox : MailboxId) :
    (s.postReceive call ct mailbox).waiting = s.waiting := by
  unfold postReceive
  dsimp only
  split
  · rfl
  · split <;> rfl

theorem inPut_postReceive (call : Nat) (ct : CtId) (mailbox : MailboxId)
    (actor : ThreadId) :
    ((s.postReceive call ct mailbox).activity actor).inPut =
      (s.activity actor).inPut := by
  unfold postReceive
  dsimp only
  split
  · rfl
  · split
    · rename_i putter _ _ other position own receive done putting
      apply inPut_act
      rw [putting]
      rfl
    · rfl

theorem registration_registerOne (call : Nat) (ct : CtId) (test : Size)
    (drawn : MailboxId) (r : Nat) :
    (s.registerOne call ct test drawn).registration r =
      if r = s.receives.length then
        some ⟨call, ct, (s.getRandomMailbox drawn).1, true, false⟩
      else s.registration r :=
  registration_postReceive call ct _ r

/-- An iteration of the registration loop of `poll`. -/
theorem Custody.registerOne (custody : s.Custody) (call : Nat) (ct : CtId)
    (test : Size) (drawn : MailboxId) :
    (s.registerOne call ct test drawn).Custody := by
  let mailbox := (s.getRandomMailbox drawn).1
  let new : Waiter := ⟨⟨.mailbox mailbox, test⟩, some s.receives.length⟩
  have waiting : (s.registerOne call ct test drawn).waiting =
      (s.enlist ct new).waiting := waiting_postReceive call ct mailbox
  have known : ∀ r, (s.registerOne call ct test drawn).registration r =
      if r = s.receives.length then some ⟨call, ct, mailbox, true, false⟩
      else s.registration r := registration_registerOne call ct test drawn
  have puts : ∀ actor,
      ((s.registerOne call ct test drawn).activity actor).inPut =
        (s.activity actor).inPut := inPut_postReceive call ct mailbox
  have old : ∀ {r x}, s.registration r = some x →
      (s.registerOne call ct test drawn).registration r = some x := by
    intro r x before
    rw [known, if_neg (Nat.ne_of_lt (registration_lt before)), before]
  constructor
  · intro place waiter member
    rw [waiting] at member
    rcases mem_enlist.mp member with before | ⟨rfl, rfl⟩
    · have about := custody.about place waiter before
      unfold About at about ⊢
      cases receive : waiter.receive with
      | none => simpa only [receive] using about
      | some r =>
          rw [receive] at about
          obtain ⟨x, found, rest⟩ := about
          exact ⟨x, old found, rest⟩
    · exact ⟨_, by rw [known, if_pos rfl], rfl, rfl, rfl⟩
  · intro place
    rw [waiting]
    have once := custody.once place
    simp only [enlist, Function.update_apply]
    split
    · rename_i same
      subst same
      rw [List.filterMap_append]
      refine List.nodup_append.mpr ⟨once, by simp [new], ?_⟩
      intro r listed other fresh equal
      obtain ⟨waiter, member, own⟩ := List.mem_filterMap.mp listed
      obtain ⟨x, found, -⟩ := custody.listed member own
      have same : other = s.receives.length := by simpa [new] using fresh
      exact Nat.ne_of_lt (registration_lt found) (equal.trans same)
    · exact once
  · intro actor r putting
    rw [puts] at putting
    obtain ⟨x, found, rest⟩ := custody.inPut actor r putting
    exact ⟨x, old found, rest⟩
  · intro actor other r putting putting'
    rw [puts] at putting putting'
    exact custody.alone actor other r putting putting'
  · intro r x found
    rw [known] at found
    rw [waiting]
    split at found
    · rename_i same
      cases found
      exact .inl ⟨rfl, new, mem_enlist.mpr (.inr ⟨rfl, rfl⟩), by rw [same]⟩
    · simp only [puts]
      refine (custody.placed r x found).imp_left ?_
      rintro ⟨kept, waiter, member, own⟩
      exact ⟨kept, waiter, mem_enlist.mpr (.inl member), own⟩

theorem registration_put (actor : ThreadId) (ct : CtId) (position : Nat)
    (mailbox : MailboxId) (receive : Option Nat) (r : Nat) :
    (s.put actor ct position mailbox receive).registration r =
      s.registration r := by
  unfold put
  split
  · exact registration_setComm _ _ _
  · rfl

theorem waiting_put (actor : ThreadId) (ct : CtId) (position : Nat)
    (mailbox : MailboxId) (receive : Option Nat) :
    (s.put actor ct position mailbox receive).waiting = s.waiting := by
  unfold put
  split <;> rfl

theorem inPut_put (actor : ThreadId) (ct : CtId) (position : Nat)
    (mailbox : MailboxId) (receive : Option Nat) (other : ThreadId) :
    ((s.put actor ct position mailbox receive).activity other).inPut =
      if other = actor then receive else (s.activity other).inPut := by
  unfold put
  split
  · simp only [act, setReceive, Function.update_apply]
    split <;> rfl
  · simp only [act, Function.update_apply]
    split <;> rfl

theorem inPut_resume (sleeper other : ThreadId) :
    ((s.resume sleeper).activity other).inPut =
      (s.activity other).inPut := by
  unfold resume
  split
  · rename_i suspended
    apply inPut_act
    rw [suspended]
    rfl
  · rfl

/-- The entries of a list without the one at a position. -/
theorem mem_of_mem_eraseIdx {ct place : CtId} {position : Nat}
    {waiter : Waiter}
    (member : waiter ∈ Function.update s.waiting ct
      ((s.waiting ct).eraseIdx position) place) :
    waiter ∈ s.waiting place := by
  rw [Function.update_apply] at member
  split at member
  · rename_i same
    rw [same]
    exact List.mem_of_mem_eraseIdx member
  · exact member

/-- An entry with another receive stays. -/
theorem mem_eraseIdx_of_ne {ct place : CtId} {position : Nat}
    {waiter erased : Waiter} (found : (s.waiting ct)[position]? = some erased)
    (member : waiter ∈ s.waiting place) (different : waiter ≠ erased) :
    waiter ∈ Function.update s.waiting ct
      ((s.waiting ct).eraseIdx position) place := by
  rw [Function.update_apply]
  split
  · rename_i same
    subst same
    obtain ⟨index, inside⟩ := List.mem_iff_getElem?.mp member
    refine List.mem_eraseIdx_iff_getElem?.mpr ⟨index, ?_, inside⟩
    intro equal
    rw [equal, found] at inside
    exact different (Option.some.inj inside).symm
  · exact member

theorem Custody.once_erased (custody : s.Custody) (ct : CtId)
    (position : Nat) (place : CtId) :
    ((Function.update s.waiting ct
      ((s.waiting ct).eraseIdx position) place).filterMap
        Waiter.receive).Nodup := by
  rw [Function.update_apply]
  split
  · rename_i same
    have once := custody.once ct
    exact once.sublist ((List.eraseIdx_sublist _ _).filterMap _)
  · exact custody.once place

/-- The receive of an erased entry is in no list any more. -/
theorem Custody.erased_unlisted (custody : s.Custody) {ct place : CtId}
    {position r : Nat} {erased waiter : Waiter}
    (found : (s.waiting ct)[position]? = some erased)
    (own : erased.receive = some r)
    (member : waiter ∈ Function.update s.waiting ct
      ((s.waiting ct).eraseIdx position) place) :
    waiter.receive ≠ some r := by
  intro same
  have before := mem_of_mem_eraseIdx member
  obtain ⟨x, known, -, here, -⟩ :=
    custody.listed (List.mem_of_getElem? found) own
  obtain ⟨x', known', -, there, -⟩ := custody.listed before same
  rw [known] at known'
  cases known'
  have equal : place = ct := there.symm.trans here
  subst equal
  rw [Function.update_self] at member
  obtain ⟨inside, value⟩ := List.getElem?_eq_some_iff.mp found
  -- the list splits around the erased entry, so its receive occurs twice
  have shape : s.waiting place = (s.waiting place).take position ++
      erased :: (s.waiting place).drop (position + 1) := by
    rw [← value, List.getElem_cons_drop, List.take_append_drop]
  have once := custody.once place
  rw [shape, List.filterMap_append, List.filterMap_cons_some own] at once
  have absent := (List.nodup_cons.mp (List.nodup_middle.mp once)).1
  rw [List.eraseIdx_eq_take_drop_succ] at member
  rw [← List.filterMap_append] at absent
  exact absent (List.mem_filterMap.mpr ⟨waiter, member, same⟩)

/-- The entry of a suspended actor is erased. -/
theorem Custody.erase_actor (custody : s.Custody) {ct : CtId}
    {position : Nat} {waiter : Waiter}
    (found : (s.waiting ct)[position]? = some waiter)
    (own : waiter.receive = none) : (s.erase ct position).Custody := by
  constructor
  · intro place other member
    exact custody.about place other (mem_of_mem_eraseIdx member)
  · exact custody.once_erased ct position
  · exact custody.inPut
  · exact custody.alone
  · intro r x known
    refine (custody.placed r x known).imp_left ?_
    rintro ⟨kept, other, member, same⟩
    refine ⟨kept, other, mem_eraseIdx_of_ne found member ?_, same⟩
    intro equal
    rw [equal, own] at same
    cases same

/-- The registration of a poll goes from the list to the put. -/
theorem Custody.erase_mailbox (custody : s.Custody) {actor : ThreadId}
    {ct : CtId} {position r : Nat} {waiter : Waiter} {x : Registration}
    (found : (s.waiting ct)[position]? = some waiter)
    (own : waiter.receive = some r) (known : s.registration r = some x)
    (idle : (s.activity actor).inPut = none)
    (waiting : after.waiting = (s.erase ct position).waiting)
    (registrations : ∀ place, after.registration place =
      if place = r then some { x with listed := false }
      else s.registration place)
    (puts : ∀ other, (after.activity other).inPut =
      if other = actor then some r else (s.activity other).inPut) :
    after.Custody := by
  obtain ⟨x', known', listed, rfl, -⟩ :=
    custody.listed (List.mem_of_getElem? found) own
  rw [known] at known'
  cases known'
  have gone : ∀ place, ∀ other ∈ after.waiting place,
      other ∈ s.waiting place ∧ other.receive ≠ some r := by
    intro place other member
    rw [waiting] at member
    exact ⟨mem_of_mem_eraseIdx member,
      custody.erased_unlisted found own member⟩
  have kept : x.givenBack = false := by
    rcases custody.placed r x known with ⟨kept, -⟩ | ⟨removed, -⟩ |
      ⟨other, putting⟩
    · exact kept
    · rw [listed] at removed
      cases removed
    · obtain ⟨x', known', removed, -⟩ := custody.inPut other r putting
      rw [known] at known'
      cases known'
      rw [listed] at removed
      cases removed
  have unput : ∀ other, (s.activity other).inPut ≠ some r := by
    intro other putting
    obtain ⟨x', known', removed, -⟩ := custody.inPut other r putting
    rw [known] at known'
    cases known'
    rw [listed] at removed
    cases removed
  constructor
  · intro place other member
    obtain ⟨before, different⟩ := gone place other member
    have about := custody.about place other before
    unfold About at about ⊢
    cases receive : other.receive with
    | none => simpa only [receive] using about
    | some q =>
        rw [receive] at about different
        obtain ⟨y, found', rest⟩ := about
        refine ⟨y, ?_, rest⟩
        rw [registrations, if_neg fun equal => different (by rw [equal])]
        exact found'
  · intro place
    rw [waiting]
    exact custody.once_erased _ position place
  · intro other q putting
    rw [puts] at putting
    split at putting
    · cases putting
      exact ⟨{ x with listed := false }, by rw [registrations, if_pos rfl],
        rfl, kept⟩
    · obtain ⟨y, found', rest⟩ := custody.inPut other q putting
      refine ⟨y, ?_, rest⟩
      rw [registrations, if_neg, found']
      rintro rfl
      exact unput other putting
  · intro first second q putting putting'
    rw [puts] at putting putting'
    split at putting
    · rename_i same
      cases putting
      split at putting'
      · rename_i same'
        exact same.trans same'.symm
      · exact absurd putting' (unput second)
    · split at putting'
      · cases putting'
        exact absurd putting (unput first)
      · exact custody.alone first second q putting putting'
  · intro q y found'
    rw [registrations] at found'
    split at found'
    · rename_i same
      subst same
      exact .inr (.inr ⟨actor, by rw [puts, if_pos rfl]⟩)
    · rename_i different
      rcases custody.placed q y found' with ⟨stays, other, member, same⟩ |
        back | ⟨other, putting⟩
      · refine .inl ⟨stays, other, ?_, same⟩
        rw [waiting]
        apply mem_eraseIdx_of_ne found member
        intro equal
        rw [equal, own] at same
        cases same
        exact different rfl
      · exact .inr (.inl back)
      · refine .inr (.inr ⟨other, ?_⟩)
        rw [puts, if_neg, putting]
        intro equal
        rw [equal, idle] at putting
        cases putting

/-- `on_update` wakes up an entry. -/
theorem Custody.wakeUp (custody : s.Custody) {actor : ThreadId} {ct : CtId}
    {position : Nat} {waiter : Waiter}
    (found : (s.waiting ct)[position]? = some waiter)
    (idle : (s.activity actor).inPut = none) :
    (s.wakeUp actor ct position waiter).Custody := by
  have inside := List.mem_of_getElem? found
  have about := custody.about ct waiter inside
  unfold About at about
  cases own : waiter.receive with
  | none =>
      rw [own] at about
      obtain ⟨sleeper, sleeps⟩ := about
      have erased := custody.erase_actor found own
      simp only [Polls.wakeUp, sleeps]
      have resumed : ((s.erase ct position).resume sleeper).Custody := by
        apply erased.frame
        · unfold resume
          split <;> rfl
        · unfold resume
          split <;> exact fun _ => rfl
        · exact inPut_resume sleeper
      apply resumed.act
      rw [inPut_resume]
      exact idle.symm
  | some r =>
      rw [own] at about
      obtain ⟨x, known, -, -, sleeps⟩ := about
      simp only [Polls.wakeUp, sleeps, own]
      apply custody.erase_mailbox found own known idle
      · rw [waiting_put]
        rfl
      · intro place
        rw [registration_put, registration_setReceive]
        by_cases same : r = place
        · subst same
          rw [if_pos rfl, if_pos rfl]
          obtain ⟨receive, there, equal⟩ := Option.map_eq_some_iff.mp known
          change s.receives[r]?.map _ = _
          rw [there, Option.map_some, ← equal]
        · rw [if_neg same, if_neg (Ne.symm same)]
          rfl
      · intro other
        rw [inPut_put]
        rfl

/-- `on_update` up to its next simcall. -/
theorem Custody.advance (custody : s.Custody) {actor : ThreadId} {ct : CtId}
    {position : Nat} (idle : (s.activity actor).inPut = none)
    (stepped : s.advance actor ct position = some after) : after.Custody := by
  unfold Polls.advance at stepped
  split at stepped
  · cases stepped
  · split at stepped
    · cases stepped
      exact custody.act idle.symm
    · obtain ⟨waiter, found, equal⟩ := Option.map_eq_some_iff.mp stepped
      subst equal
      exact custody.wakeUp found idle

/-- A mailbox is given back after the put. -/
theorem Custody.freeRandomMailbox (custody : s.Custody) {actor : ThreadId}
    (ct : CtId) (position : Nat) (mailbox : MailboxId) {receive : Option Nat}
    (putting : (s.activity actor).inPut = receive) :
    ((s.act actor (.onUpdate ct position)).freeRandomMailbox mailbox
      receive).Custody := by
  cases receive with
  | none =>
      have acted : (s.act actor (.onUpdate ct position)).Custody :=
        custody.act putting.symm
      exact acted.frame rfl (fun _ => rfl) (fun _ => rfl)
  | some r =>
      let freed := (s.act actor (.onUpdate ct position)).freeRandomMailbox
        mailbox (some r)
      change freed.Custody
      obtain ⟨x, known, removed, kept⟩ := custody.inPut actor r putting
      have registrations : ∀ place, freed.registration place =
          if place = r then some { x with givenBack := true }
          else s.registration place := by
        intro place
        change (Polls.setReceive _ r _).registration place = _
        rw [registration_setReceive]
        by_cases same : r = place
        · subst same
          rw [if_pos rfl, if_pos rfl]
          obtain ⟨there, found, equal⟩ := Option.map_eq_some_iff.mp known
          change s.receives[r]?.map _ = _
          rw [found, Option.map_some, ← equal]
        · rw [if_neg same, if_neg (Ne.symm same)]
          rfl
      have puts : ∀ other, (freed.activity other).inPut =
          if other = actor then none else (s.activity other).inPut := by
        intro other
        change (Function.update s.activity actor (.onUpdate ct position)
          other).inPut = _
        rw [Function.update_apply]
        split <;> rfl
      have unlisted := custody.unlisted known removed
      constructor
      · intro place other member
        have about := custody.about place other member
        have different := unlisted place other member
        unfold About at about ⊢
        cases own : other.receive with
        | none => simpa only [own] using about
        | some q =>
            rw [own] at about different
            obtain ⟨y, found, rest⟩ := about
            refine ⟨y, ?_, rest⟩
            rw [registrations, if_neg fun equal => different (by rw [equal])]
            exact found
      · exact custody.once
      · intro other q within
        rw [puts] at within
        split at within
        · cases within
        · rename_i different
          obtain ⟨y, found, rest⟩ := custody.inPut other q within
          refine ⟨y, ?_, rest⟩
          rw [registrations, if_neg, found]
          rintro rfl
          exact different (custody.alone other actor q within putting)
      · intro first second q within within'
        rw [puts] at within within'
        split at within
        · cases within
        · split at within'
          · cases within'
          · exact custody.alone first second q within within'
      · intro q y found
        rw [registrations] at found
        split at found
        · cases found
          exact .inr (.inl ⟨removed, rfl⟩)
        · rename_i different
          refine (custody.placed q y found).imp_right (Or.imp_right ?_)
          rintro ⟨other, within⟩
          refine ⟨other, ?_⟩
          rw [puts, if_neg, within]
          rintro rfl
          rw [putting] at within
          cases within
          exact different rfl

/-- The next simcall of an actor. -/
theorem Custody.runActor (custody : s.Custody) {actor : ThreadId}
    {drawn : MailboxId} (stepped : runActor s actor drawn = some after) :
    after.Custody := by
  unfold S4BXI.runActor at stepped
  split at stepped
  · rename_i call handles forever ct test rest current
    cases stepped
    have acted : (s.act actor
        (.registering call handles forever rest)).Custody := by
      apply custody.act
      rw [current]
      rfl
    exact acted.registerOne call ct test drawn
  · rename_i call handles forever current
    cases stepped
    apply custody.act
    rw [current]
    rfl
  · rename_i call handles which r rest current
    cases stepped
    have acted : (s.act actor
        (.cancelling call handles which rest)).Custody := by
      apply custody.act
      rw [current]
      rfl
    exact acted.frame rfl (fun place => registration_setComm r place _)
      fun _ => rfl
  · rename_i call handles which current
    cases stepped
    have acted : (s.act actor .idle).Custody := by
      apply custody.act
      rw [current]
      rfl
    exact acted.frame rfl (fun _ => rfl) (fun _ => rfl)
  · rename_i ct position current
    exact custody.advance (by rw [current]; rfl) stepped
  · rename_i ct position mailbox receive current
    cases stepped
    apply custody.freeRandomMailbox
    rw [current]
    rfl
  all_goals cases stepped

/-- Every step keeps the custody. -/
theorem Custody.step (custody : s.Custody) {label : PollLabel}
    (stepped : pollStep s label = some after) : after.Custody := by
  cases label with
  | wait actor ct test =>
      obtain ⟨idle, result⟩ := Option.ite_none_right_eq_some.mp stepped
      split at result
      · cases result
        apply (custody.enlist_actor ct actor test).act
        change _ = (s.activity actor).inPut
        rw [idle]
        rfl
      · cases result
        exact custody
  | poll actor entries forever =>
      obtain ⟨idle, result⟩ := Option.ite_none_right_eq_some.mp stepped
      split at result
      · cases result
        have acted : (s.act actor .idle).Custody := by
          apply custody.act
          rw [idle]
        exact acted.frame rfl (fun _ => rfl) (fun _ => rfl)
      · cases result
        have acted : (s.act actor (.registering s.nextCall
            (entries.map Prod.fst) forever entries)).Custody := by
          apply custody.act
          rw [idle]
          rfl
        exact acted.frame rfl (fun _ => rfl) (fun _ => rfl)
  | update actor ct update =>
      obtain ⟨idle, result⟩ := Option.ite_none_right_eq_some.mp stepped
      cases result
      have acted : (s.act actor (.onUpdate ct 0)).Custody := by
        apply custody.act
        rw [idle]
        rfl
      exact acted.frame rfl (fun _ => rfl) (fun _ => rfl)
  | wakeAny actor which =>
      simp only [pollStep] at stepped
      split at stepped
      · rename_i call handles forever current
        obtain ⟨-, result⟩ := Option.ite_none_right_eq_some.mp stepped
        cases result
        apply custody.act
        rw [current]
        rfl
      · cases stepped
  | run actor drawn => exact custody.runActor stepped

end Polls

end S4BXI
