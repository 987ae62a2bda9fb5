import S4BXI.Api.Polls

/-!
# What a poll leaves behind

The calls of `BxiCT::poll` which have returned, and the puts which nobody
receives.
-/

namespace S4BXI

open Lib

namespace Polls

variable {s after : Polls}

/-! ## The calls which have returned -/

/-- A registration is only ever removed and given back. -/
def Later (x y : Registration) : Prop :=
  y.call = x.call ∧ (x.listed = false → y.listed = false) ∧
    (x.givenBack = true → y.givenBack = true)

theorem Later.refl (x : Registration) : Later x x :=
  ⟨rfl, id, id⟩

/-- The registrations after a change of one receive. -/
theorem later_setReceive {r : Nat} {change : Receive → Receive}
    (later : ∀ x : Receive, Later x.toRegistration (change x).toRegistration)
    {place : Nat} {y : Registration}
    (known : (s.setReceive r change).registration place = some y) :
    ∃ x, s.registration place = some x ∧ Later x y := by
  rw [registration_setReceive] at known
  split at known
  · obtain ⟨receive, found, equal⟩ := Option.map_eq_some_iff.mp known
    subst equal
    refine ⟨receive.toRegistration, ?_, later receive⟩
    rw [registration, found, Option.map_some]
  · exact ⟨y, known, Later.refl y⟩

theorem later_wakeUp {actor : ThreadId} {ct : CtId} {position : Nat}
    {waiter : Waiter} {place : Nat} {y : Registration}
    (known : (s.wakeUp actor ct position waiter).registration place =
      some y) : ∃ x, s.registration place = some x ∧ Later x y := by
  unfold Polls.wakeUp at known
  dsimp only at known
  split at known
  · refine ⟨y, ?_, Later.refl y⟩
    unfold resume at known
    split at known <;> exact known
  · split at known
    · rw [registration_put] at known
      exact ⟨y, known, Later.refl y⟩
    · rw [registration_put] at known
      refine @later_setReceive (s.erase ct position) _ _ ?_ _ _ known
      exact fun _ => ⟨rfl, fun _ => rfl, id⟩

/-- The registrations after a step: older ones, and a new one of a call which
registers. -/
theorem step_registrations {label : PollLabel}
    (stepped : pollStep s label = some after) {place : Nat}
    {y : Registration} (known : after.registration place = some y) :
    (∃ x, s.registration place = some x ∧ Later x y) ∨
      ∃ actor, (s.activity actor).inCall = some y.call := by
  have same : after.registration place = s.registration place →
      ∃ x, s.registration place = some x ∧ Later x y := by
    intro equal
    rw [equal] at known
    exact ⟨y, known, Later.refl y⟩
  cases label with
  | wait actor ct test =>
      obtain ⟨-, result⟩ := Option.ite_none_right_eq_some.mp stepped
      split at result <;> cases result <;> exact .inl (same rfl)
  | poll actor entries forever =>
      obtain ⟨-, result⟩ := Option.ite_none_right_eq_some.mp stepped
      split at result <;> cases result <;> exact .inl (same rfl)
  | update actor ct update =>
      obtain ⟨-, result⟩ := Option.ite_none_right_eq_some.mp stepped
      cases result
      exact .inl (same rfl)
  | wakeAny actor which =>
      simp only [pollStep] at stepped
      split at stepped
      · obtain ⟨-, result⟩ := Option.ite_none_right_eq_some.mp stepped
        cases result
        exact .inl (same rfl)
      · cases stepped
  | run actor drawn =>
      simp only [pollStep, S4BXI.runActor] at stepped
      split at stepped
      · rename_i call handles forever ct test rest current
        cases stepped
        rw [registration_registerOne] at known
        by_cases new : place = (s.act actor
            (.registering call handles forever rest)).receives.length
        · rw [if_pos new] at known
          cases known
          exact .inr ⟨actor, by rw [current]; rfl⟩
        · rw [if_neg new] at known
          exact .inl ⟨y, known, Later.refl y⟩
      · cases stepped
        exact .inl (same rfl)
      · cases stepped
        exact .inl (same (registration_setComm _ place _))
      · cases stepped
        exact .inl (same rfl)
      · rename_i ct position current
        unfold Polls.advance at stepped
        split at stepped
        · cases stepped
        · split at stepped
          · cases stepped
            exact .inl (same rfl)
          · obtain ⟨waiter, -, equal⟩ := Option.map_eq_some_iff.mp stepped
            subst equal
            exact .inl (later_wakeUp known)
      · rename_i ct position mailbox receive current
        cases stepped
        cases receive with
        | none => exact .inl (same rfl)
        | some r =>
            refine .inl (@later_setReceive s _ _ ?_ _ _ known)
            exact fun _ => ⟨rfl, id, fun _ => rfl⟩
      all_goals cases stepped

/-- What a clean call has left, in terms of its registrations. -/
theorem Custody.clean_registrations (custody : s.Custody) (call : Nat) :
    s.Clean call ↔ ∀ r x, s.registration r = some x → x.call = call →
      x.listed = false ∧ x.givenBack = true := by
  constructor
  · intro clean r x known own
    obtain ⟨unlisted, back⟩ := clean r x known own
    refine ⟨?_, back⟩
    rcases custody.placed r x known with ⟨kept, -⟩ | ⟨removed, -⟩ |
      ⟨actor, putting⟩
    · rw [back] at kept
      cases kept
    · exact removed
    · obtain ⟨x', known', removed, -⟩ := custody.inPut actor r putting
      rw [known] at known'
      cases known'
      exact removed
  · intro gone r x known own
    obtain ⟨removed, back⟩ := gone r x known own
    exact ⟨custody.unlisted known removed, back⟩

/-- The calls: those of the actors are different and have not returned. -/
structure Numbered (s : Polls) : Prop where
  active : ∀ actor call, (s.activity actor).inCall = some call →
    call < s.nextCall ∧ call ∉ s.returned.map Prod.fst
  single : ∀ actor other call, (s.activity actor).inCall = some call →
    (s.activity other).inCall = some call → actor = other
  returned : ∀ call ∈ s.returned.map Prod.fst, call < s.nextCall
  registered : ∀ r x, s.registration r = some x → x.call < s.nextCall

theorem numbered_initial : ({} : Polls).Numbered :=
  { active := by simp [PollActivity.inCall]
    single := by simp [PollActivity.inCall]
    returned := by simp
    registered := by simp [registration] }

theorem inCall_act {actor : ThreadId} {activity : PollActivity}
    (same : activity.inCall = (s.activity actor).inCall) (other : ThreadId) :
    ((s.act actor activity).activity other).inCall =
      (s.activity other).inCall := by
  simp only [act, Function.update_apply]
  split
  · rename_i equal
    rw [equal, same]
  · rfl

theorem inCall_registerOne (call : Nat) (ct : CtId) (test : Size)
    (drawn : MailboxId) (other : ThreadId) :
    ((s.registerOne call ct test drawn).activity other).inCall =
      (s.activity other).inCall := by
  unfold registerOne postReceive
  dsimp only
  split
  · rfl
  · split
    · rename_i putting
      apply inCall_act
      rw [putting]
      rfl
    · rfl

/-- The calls after `on_update` has woken up an entry. -/
theorem inCall_wakeUp {actor : ThreadId} {ct : CtId} {position : Nat}
    {waiter : Waiter} (idle : (s.activity actor).inCall = none)
    (other : ThreadId) :
    ((s.wakeUp actor ct position waiter).activity other).inCall =
      (s.activity other).inCall := by
  have put : ∀ (before : Polls) mailbox receive,
      before.activity = s.activity →
      ((before.put actor ct position mailbox receive).activity other).inCall =
        (s.activity other).inCall := by
    intro before mailbox receive same
    unfold Polls.put
    split
    · rw [inCall_act]
      · exact congrArg (fun a => (a other).inCall) same
      · change _ = (before.activity actor).inCall
        rw [same, idle]
        rfl
    · rw [inCall_act]
      · exact congrArg (fun a => (a other).inCall) same
      · change _ = (before.activity actor).inCall
        rw [same, idle]
        rfl
  have resumed : ∀ (sleeper other : ThreadId),
      (((s.erase ct position).resume sleeper).activity other).inCall =
        (s.activity other).inCall := by
    intro sleeper other
    unfold resume
    split
    · rename_i suspended
      rw [inCall_act]
      · rfl
      · rw [suspended]
        rfl
    · rfl
  unfold Polls.wakeUp
  dsimp only
  split
  · rename_i sleeper sleeps
    rw [inCall_act, resumed]
    rw [resumed, idle]
    rfl
  · split
    · exact put _ _ _ rfl
    · exact put _ _ _ rfl

/-- The effect of a step on the calls: none, a call which begins, or a call
which returns. -/
theorem step_calls {label : PollLabel}
    (stepped : pollStep s label = some after) :
    ((∀ other, (after.activity other).inCall = (s.activity other).inCall) ∧
      after.nextCall = s.nextCall ∧ after.returned = s.returned) ∨
    (∃ actor, (s.activity actor).inCall = none ∧
      (∀ other, (after.activity other).inCall =
        if other = actor then some s.nextCall
        else (s.activity other).inCall) ∧
      after.nextCall = s.nextCall + 1 ∧ after.returned = s.returned) ∨
    (∃ result, (∀ other, (after.activity other).inCall =
        (s.activity other).inCall) ∧
      after.nextCall = s.nextCall + 1 ∧
      after.returned = s.returned ++ [(s.nextCall, result)]) ∨
    (∃ actor drawn call handles which, label = .run actor drawn ∧
      s.activity actor = .cancelling call handles which [] ∧
      after = s.finish actor call handles which) := by
  cases label with
  | wait actor ct test =>
      obtain ⟨idle, result⟩ := Option.ite_none_right_eq_some.mp stepped
      left
      split at result
      · cases result
        refine ⟨fun other => ?_, rfl, rfl⟩
        rw [inCall_act]
        · rfl
        · change _ = (s.activity actor).inCall
          rw [idle]
          rfl
      · cases result
        exact ⟨fun _ => rfl, rfl, rfl⟩
  | poll actor entries forever =>
      obtain ⟨idle, result⟩ := Option.ite_none_right_eq_some.mp stepped
      right
      split at result
      · cases result
        refine .inr (.inl ⟨_, fun other => ?_, rfl, rfl⟩)
        change ((s.act actor .idle).activity other).inCall = _
        apply inCall_act
        rw [idle]
      · cases result
        refine .inl ⟨actor, by rw [idle]; rfl, fun other => ?_, rfl, rfl⟩
        simp only [act, Function.update_apply]
        split <;> rfl
  | update actor ct update =>
      obtain ⟨idle, result⟩ := Option.ite_none_right_eq_some.mp stepped
      cases result
      refine .inl ⟨fun other => ?_, rfl, rfl⟩
      change ((s.act actor (.onUpdate ct 0)).activity other).inCall = _
      apply inCall_act
      rw [idle]
      rfl
  | wakeAny actor which =>
      simp only [pollStep] at stepped
      split at stepped
      · rename_i call handles forever current
        obtain ⟨-, result⟩ := Option.ite_none_right_eq_some.mp stepped
        cases result
        refine .inl ⟨fun other => ?_, rfl, rfl⟩
        apply inCall_act
        rw [current]
        rfl
      · cases stepped
  | run actor drawn =>
      simp only [pollStep, S4BXI.runActor] at stepped
      split at stepped
      · rename_i call handles forever ct test rest current
        cases stepped
        have fixed : ∀ before : Polls, (before.registerOne call ct test
            drawn).nextCall = before.nextCall ∧ (before.registerOne call ct
            test drawn).returned = before.returned := by
          intro before
          unfold Polls.registerOne postReceive
          dsimp only
          split
          · exact ⟨rfl, rfl⟩
          · split <;> exact ⟨rfl, rfl⟩
        refine .inl ⟨fun other => ?_, (fixed _).1, (fixed _).2⟩
        rw [inCall_registerOne]
        apply inCall_act
        rw [current]
        rfl
      · rename_i call handles forever current
        cases stepped
        refine .inl ⟨fun other => ?_, rfl, rfl⟩
        apply inCall_act
        rw [current]
        rfl
      · rename_i call handles which r rest current
        cases stepped
        refine .inl ⟨fun other => ?_, rfl, rfl⟩
        change ((s.act actor (.cancelling call handles which rest)).activity
          other).inCall = _
        apply inCall_act
        rw [current]
        rfl
      · rename_i call handles which current
        cases stepped
        exact .inr (.inr (.inr ⟨actor, drawn, call, handles, which, rfl,
          current, rfl⟩))
      · rename_i ct position current
        have idle : (s.activity actor).inCall = none := by
          rw [current]
          rfl
        unfold Polls.advance at stepped
        split at stepped
        · cases stepped
        · split at stepped
          · cases stepped
            exact .inl ⟨inCall_act idle.symm, rfl, rfl⟩
          · obtain ⟨waiter, -, equal⟩ := Option.map_eq_some_iff.mp stepped
            subst equal
            refine .inl ⟨inCall_wakeUp idle, ?_, ?_⟩
            all_goals
              unfold Polls.wakeUp resume put
              dsimp only
              repeat' split
              all_goals rfl
      · rename_i ct position mailbox receive current
        cases stepped
        refine .inl ⟨fun other => ?_, ?_, ?_⟩
        · have acted : ((s.act actor (.onUpdate ct position)).activity
              other).inCall = (s.activity other).inCall := by
            apply inCall_act
            rw [current]
            rfl
          cases receive <;> exact acted
        · cases receive <;> rfl
        · cases receive <;> rfl
      all_goals cases stepped

theorem step_registered (numbered : s.Numbered) {label : PollLabel}
    (stepped : pollStep s label = some after) {r : Nat} {y : Registration}
    (known : after.registration r = some y) : y.call < s.nextCall := by
  rcases step_registrations stepped known with ⟨x, before, same, -⟩ |
    ⟨actor, current⟩
  · rw [same]
    exact numbered.registered r x before
  · exact (numbered.active actor y.call current).1

/-- Every step keeps the numbers of the calls. -/
theorem Numbered.step (numbered : s.Numbered) {label : PollLabel}
    (stepped : pollStep s label = some after) : after.Numbered := by
  have registered : ∀ r y, after.registration r = some y →
      y.call < s.nextCall := fun _ _ known =>
    step_registered numbered stepped known
  rcases step_calls stepped with ⟨calls, next, returned⟩ |
    ⟨actor, idle, calls, next, returned⟩ | ⟨result, calls, next, returned⟩ |
    ⟨actor, drawn, call, handles, which, -, current, rfl⟩
  · constructor
    · simp only [calls, next, returned]
      exact numbered.active
    · simp only [calls]
      exact numbered.single
    · rw [next, returned]
      exact numbered.returned
    · rw [next]
      exact registered
  · constructor
    · intro other call inside
      rw [calls] at inside
      rw [next, returned]
      split at inside
      · cases inside
        refine ⟨Nat.lt_succ_self _, fun member => ?_⟩
        exact Nat.lt_irrefl _ (numbered.returned _ member)
      · obtain ⟨low, absent⟩ := numbered.active other call inside
        exact ⟨Nat.lt_succ_of_lt low, absent⟩
    · intro first second call inside inside'
      rw [calls] at inside inside'
      split at inside
      · rename_i same
        split at inside'
        · rename_i same'
          exact same.trans same'.symm
        · cases inside
          exact absurd (numbered.active second _ inside').1
            (Nat.lt_irrefl _)
      · split at inside'
        · cases inside'
          exact absurd (numbered.active first _ inside).1 (Nat.lt_irrefl _)
        · exact numbered.single first second call inside inside'
    · rw [next, returned]
      exact fun call member => Nat.lt_succ_of_lt (numbered.returned call member)
    · rw [next]
      exact fun r y known => Nat.lt_succ_of_lt (registered r y known)
  · constructor
    · intro other call inside
      rw [calls] at inside
      obtain ⟨low, absent⟩ := numbered.active other call inside
      rw [next, returned]
      refine ⟨Nat.lt_succ_of_lt low, ?_⟩
      rw [List.map_append, List.mem_append]
      rintro (old | new)
      · exact absent old
      · exact Nat.ne_of_lt low (List.mem_singleton.mp new)
    · simp only [calls]
      exact numbered.single
    · intro call member
      rw [next]
      rw [returned, List.map_append, List.mem_append] at member
      rcases member with old | new
      · exact Nat.lt_succ_of_lt (numbered.returned call old)
      · rw [List.mem_singleton.mp new]
        exact Nat.lt_succ_self _
    · rw [next]
      exact fun r y known => Nat.lt_succ_of_lt (registered r y known)
  · have own : (s.activity actor).inCall = some call := by
      rw [current]
      rfl
    have calls : ∀ other, ((s.finish actor call handles which).activity
        other).inCall = if other = actor then none
          else (s.activity other).inCall := by
      intro other
      simp only [finish, act, Function.update_apply]
      split <;> rfl
    constructor
    · intro other call' inside
      rw [calls] at inside
      split at inside
      · cases inside
      · rename_i different
        obtain ⟨low, absent⟩ := numbered.active other call' inside
        refine ⟨low, ?_⟩
        change call' ∉ (s.returned ++ [_]).map Prod.fst
        rw [List.map_append, List.mem_append]
        rintro (old | new)
        · exact absent old
        · rw [List.mem_singleton.mp new] at inside
          exact different (numbered.single other actor call inside own)
    · intro first second call' inside inside'
      rw [calls] at inside inside'
      split at inside
      · cases inside
      · split at inside'
        · cases inside'
        · exact numbered.single first second call' inside inside'
    · intro call' member
      change call' ∈ (s.returned ++ [_]).map Prod.fst at member
      rw [List.map_append, List.mem_append] at member
      rcases member with old | new
      · exact numbered.returned call' old
      · rw [List.mem_singleton.mp new]
        exact (numbered.active actor call own).1
    · exact registered

/-- A call which has returned and left nothing stays so. -/
theorem clean_step (custody : s.Custody) (numbered : s.Numbered)
    {label : PollLabel} (stepped : pollStep s label = some after) {call : Nat}
    (done : call ∈ s.returned.map Prod.fst) (clean : s.Clean call) :
    after.Clean call := by
  rw [(custody.step stepped).clean_registrations]
  intro r y known own
  rcases step_registrations stepped known with
    ⟨x, before, same, removed, back⟩ | ⟨actor, current⟩
  · obtain ⟨unlisted, given⟩ := (custody.clean_registrations call).mp clean r x
      before (same.symm.trans own)
    exact ⟨removed unlisted, back given⟩
  · rw [own] at current
    exact absurd done (numbered.active actor call current).2

/-- The return of a call changes no entry and no registration. -/
theorem clean_finish (actor : ThreadId) (call : Nat) (handles : List CtId)
    (which : Option Nat) (other : Nat) :
    (s.finish actor call handles which).Clean other ↔ s.Clean other :=
  Iff.rfl

/-- The calls which have returned have left nothing behind. -/
def AllClean (s : Polls) : Prop :=
  ∀ call ∈ s.returned.map Prod.fst, s.Clean call

theorem allClean_initial : ({} : Polls).AllClean := by
  intro call member
  cases member

theorem AllClean.step (allClean : s.AllClean) (custody : s.Custody)
    (numbered : s.Numbered) {label : PollLabel} (orderly : label.Orderly s)
    (stepped : pollStep s label = some after) : after.AllClean := by
  intro call member
  rcases step_calls stepped with ⟨-, -, returned⟩ | ⟨-, -, -, -, returned⟩ |
    ⟨result, -, -, returned⟩ |
    ⟨actor, drawn, own, handles, which, rfl, current, rfl⟩
  · rw [returned] at member
    exact clean_step custody numbered stepped member (allClean call member)
  · rw [returned] at member
    exact clean_step custody numbered stepped member (allClean call member)
  · rw [returned, List.map_append, List.mem_append] at member
    rcases member with old | new
    · exact clean_step custody numbered stepped old (allClean call old)
    · rw [List.mem_singleton.mp new]
      intro r y known same
      have low := step_registered numbered stepped known
      exact absurd same (Nat.ne_of_lt low)
  · change call ∈ (s.returned ++ [_]).map Prod.fst at member
    rw [List.map_append, List.mem_append] at member
    rw [clean_finish]
    rcases member with old | new
    · exact allClean call old
    · have same : call = own := List.mem_singleton.mp new
      rw [same, custody.clean_iff]
      simp only [PollLabel.Orderly, current] at orderly
      exact orderly

/-! ## The puts which nobody receives -/

/-- The number of receives with a property after one of them has changed. -/
theorem countP_modify (property : Receive → Bool) {receives : List Receive}
    {r : Nat} {x : Receive} (found : receives[r]? = some x)
    (change : Receive → Receive) :
    (receives.modify r change).countP property +
        (if property x then 1 else 0) =
      receives.countP property + if property (change x) then 1 else 0 := by
  induction receives generalizing r with
  | nil => cases found
  | cons first rest induction =>
      cases r with
      | zero =>
          cases found
          simp only [List.modify_zero_cons, List.countP_cons]
          omega
      | succ r =>
          have inner := induction found
          simp only [List.modify_succ_cons, List.countP_cons]
          omega

/-- On every mailbox as many receives wait as entries are registered, so that
no put is blocked. -/
structure Balanced (s : Polls) : Prop where
  balance : ∀ mailbox, s.receives.countP (Receive.waits mailbox) =
    s.receives.countP (Receive.lists mailbox)
  puts : s.puts = []
  done : ∀ actor ct position mailbox receive,
    s.activity actor ≠ .putting ct position mailbox receive false

theorem balanced_initial : ({} : Polls).Balanced :=
  { balance := fun _ => rfl
    puts := rfl
    done := by simp }

/-- A step of an actor which starts no blocked put. -/
theorem Balanced.act (balanced : s.Balanced) {actor : ThreadId}
    {activity : PollActivity}
    (done : ∀ ct position mailbox receive,
      activity ≠ .putting ct position mailbox receive false) :
    (s.act actor activity).Balanced := by
  refine ⟨balanced.balance, balanced.puts, ?_⟩
  intro other ct position mailbox receive
  simp only [Polls.act, Function.update_apply]
  split
  · exact done ct position mailbox receive
  · exact balanced.done other ct position mailbox receive

/-- A change which keeps the communication and the entry of a receive. -/
theorem Balanced.setReceive (balanced : s.Balanced) (r : Nat)
    {change : Receive → Receive}
    (waits : ∀ x, s.receives[r]? = some x → ∀ mailbox,
      (change x).waits mailbox = x.waits mailbox)
    (lists : ∀ x, s.receives[r]? = some x → ∀ mailbox,
      (change x).lists mailbox = x.lists mailbox) :
    (s.setReceive r change).Balanced := by
  refine ⟨?_, balanced.puts, balanced.done⟩
  intro mailbox
  change (s.receives.modify r change).countP _ =
    (s.receives.modify r change).countP _
  have before := balanced.balance mailbox
  cases found : s.receives[r]? with
  | none =>
      have same : s.receives.modify r change = s.receives := by
        apply List.modify_eq_self
        exact List.getElem?_eq_none_iff.mp found
      rw [same]
      exact before
  | some x =>
      have left := countP_modify (Receive.waits mailbox) found change
      have right := countP_modify (Receive.lists mailbox) found change
      rw [waits x found mailbox] at left
      rw [lists x found mailbox] at right
      omega

theorem Balanced.registerOne (balanced : s.Balanced) (call : Nat) (ct : CtId)
    (test : Size) (drawn : MailboxId) :
    (s.registerOne call ct test drawn).Balanced := by
  have none' : (s.puts.find? fun put =>
      decide (put.2 = (s.getRandomMailbox drawn).1)) = none := by
    rw [balanced.puts]
    rfl
  have shape : (s.registerOne call ct test drawn).receives = s.receives ++
      [{ call := call, ct := ct, mailbox := (s.getRandomMailbox drawn).1
         comm := .waiting }] := by
    unfold Polls.registerOne postReceive
    simp only [enlist, none']
  have same : (s.registerOne call ct test drawn).puts = s.puts ∧
      (s.registerOne call ct test drawn).activity = s.activity := by
    unfold Polls.registerOne postReceive
    simp only [enlist, none', and_self]
  constructor
  · intro mailbox
    rw [shape, List.countP_append, List.countP_append,
      balanced.balance mailbox]
    simp [Receive.waits, Receive.lists]
  · rw [same.1]
    exact balanced.puts
  · rw [same.2]
    exact balanced.done

/-- The put for a registered entry finds a receive. -/
theorem Balanced.wakeUp (balanced : s.Balanced) (custody : s.Custody)
    {actor : ThreadId} {ct : CtId} {position : Nat} {waiter : Waiter}
    (found : (s.waiting ct)[position]? = some waiter) :
    (s.wakeUp actor ct position waiter).Balanced := by
  have about := custody.about ct waiter (List.mem_of_getElem? found)
  unfold About at about
  have erased : (s.erase ct position).Balanced :=
    ⟨balanced.balance, balanced.puts, balanced.done⟩
  cases own : waiter.receive with
  | none =>
      rw [own] at about
      obtain ⟨sleeper, sleeps⟩ := about
      simp only [Polls.wakeUp, sleeps]
      apply Balanced.act
      · unfold resume
        split
        · apply erased.act
          simp
        · exact erased
      · simp
  | some r =>
      rw [own] at about
      obtain ⟨x, known, listed, -, sleeps⟩ := about
      obtain ⟨receive, there, rfl⟩ := Option.map_eq_some_iff.mp known
      simp only [Polls.wakeUp, sleeps, own]
      let removed := (s.erase ct position).setReceive r fun x =>
        { x with listed := false }
      change (removed.put actor ct position receive.mailbox (some r)).Balanced
      have left : ∀ mailbox, removed.receives.countP (Receive.waits mailbox) =
          s.receives.countP (Receive.waits mailbox) := by
        intro mailbox
        have count := countP_modify (Receive.waits mailbox) there
          fun x => { x with listed := false }
        exact Nat.add_right_cancel count
      have right : ∀ mailbox, removed.receives.countP (Receive.lists mailbox) +
          (if receive.mailbox = mailbox then 1 else 0) =
          s.receives.countP (Receive.lists mailbox) := by
        intro mailbox
        have count := countP_modify (Receive.lists mailbox) there
          fun x => { x with listed := false }
        have before : receive.lists mailbox =
            decide (receive.mailbox = mailbox) := by
          rw [Receive.lists, listed, Bool.and_true]
        have after : Receive.lists mailbox
            { receive with listed := false } = false := by
          rw [Receive.lists, Bool.and_false]
        rw [before, after] at count
        simp only [decide_eq_true_eq, Bool.false_eq_true, if_false,
          Nat.add_zero] at count
        exact count
      have waiting : 0 < removed.receives.countP
          (Receive.waits receive.mailbox) := by
        have one := right receive.mailbox
        rw [if_pos rfl] at one
        rw [left, balanced.balance]
        omega
      obtain ⟨first, member, waits⟩ := List.countP_pos_iff.mp waiting
      unfold Polls.put
      cases search : removed.firstReceive receive.mailbox with
      | none =>
          have absent := List.findIdx?_eq_none_iff.mp search first member
          rw [waits] at absent
          cases absent
      | some q =>
          dsimp only
          apply Balanced.act
          · obtain ⟨within, holds, -⟩ :=
              List.findIdx?_eq_some_iff_getElem.mp search
            have there' : removed.receives[q]? = some removed.receives[q] :=
              List.getElem?_eq_getElem within
            refine ⟨?_, balanced.puts, balanced.done⟩
            intro mailbox
            change (removed.receives.modify q _).countP _ =
              (removed.receives.modify q _).countP _
            have waits' := countP_modify (Receive.waits mailbox)
              there' fun x => { x with comm := .matched }
            have lists' := countP_modify (Receive.lists mailbox)
              there' fun x => { x with comm := .matched }
            have own' : removed.receives[q].waits mailbox =
                decide (receive.mailbox = mailbox) := by
              obtain ⟨same, comm⟩ := (Bool.and_eq_true _ _).mp holds
              rw [Receive.waits, comm, Bool.and_true,
                of_decide_eq_true same]
            have gone : Receive.waits mailbox
                { removed.receives[q] with comm := .matched } = false := by
              simp [Receive.waits]
            have kept : Receive.lists mailbox
                { removed.receives[q] with comm := .matched } =
                  removed.receives[q].lists mailbox := rfl
            rw [own', gone] at waits'
            rw [kept] at lists'
            have before := balanced.balance mailbox
            have lost := right mailbox
            rw [← left] at before
            simp only [decide_eq_true_eq, Bool.false_eq_true, if_false]
              at waits'
            omega
          · simp

/-- A step which withdraws no waiting receive keeps the balance. -/
theorem Balanced.step (balanced : s.Balanced) (custody : s.Custody)
    {label : PollLabel} (orderly : label.Orderly s)
    (stepped : pollStep s label = some after) : after.Balanced := by
  cases label with
  | wait actor ct test =>
      obtain ⟨-, result⟩ := Option.ite_none_right_eq_some.mp stepped
      split at result
      · cases result
        have enlisted : (s.enlist ct ⟨⟨.actor actor, test⟩, none⟩).Balanced :=
          ⟨balanced.balance, balanced.puts, balanced.done⟩
        apply enlisted.act
        simp
      · cases result
        exact balanced
  | poll actor entries forever =>
      obtain ⟨-, result⟩ := Option.ite_none_right_eq_some.mp stepped
      have begun : Balanced { s with nextCall := s.nextCall + 1 } :=
        ⟨balanced.balance, balanced.puts, balanced.done⟩
      split at result
      · cases result
        have ended := @Balanced.act _ begun actor .idle (by simp)
        exact ⟨ended.balance, ended.puts, ended.done⟩
      · cases result
        apply begun.act
        simp
  | update actor ct update =>
      obtain ⟨-, result⟩ := Option.ite_none_right_eq_some.mp stepped
      cases result
      have updated : Balanced { s with
          event := Function.update s.event ct
            ((s.event ct).updated update) } :=
        ⟨balanced.balance, balanced.puts, balanced.done⟩
      apply updated.act
      simp
  | wakeAny actor which =>
      simp only [pollStep] at stepped
      split at stepped
      · obtain ⟨-, result⟩ := Option.ite_none_right_eq_some.mp stepped
        cases result
        apply balanced.act
        simp
      · cases stepped
  | run actor drawn =>
      simp only [pollStep, S4BXI.runActor] at stepped
      split at stepped
      · cases stepped
        apply Balanced.registerOne
        apply balanced.act
        simp
      · cases stepped
        apply balanced.act
        simp
      · rename_i call handles which r rest current
        cases stepped
        simp only [PollLabel.Orderly, current] at orderly
        apply Balanced.setReceive
        · apply balanced.act
          simp
        · intro x found mailbox
          have matched := orderly x found
          simp [matched, Receive.waits]
        · intro x found mailbox
          rfl
      · rename_i call handles which current
        cases stepped
        have ended := @Balanced.act _ balanced actor .idle (by simp)
        exact ⟨ended.balance, ended.puts, ended.done⟩
      · rename_i ct position current
        unfold Polls.advance at stepped
        split at stepped
        · cases stepped
        · split at stepped
          · cases stepped
            apply balanced.act
            simp
          · obtain ⟨waiter, found, equal⟩ := Option.map_eq_some_iff.mp stepped
            subst equal
            exact balanced.wakeUp custody found
      · rename_i ct position mailbox receive current
        cases stepped
        have acted : (s.act actor (.onUpdate ct position)).Balanced := by
          apply balanced.act
          simp
        cases receive with
        | none => exact ⟨acted.balance, acted.puts, acted.done⟩
        | some r =>
            have freed := @Balanced.setReceive _ acted r
              (fun x => { x with givenBack := true })
              (fun _ _ _ => rfl) (fun _ _ _ => rfl)
            exact ⟨freed.balance, freed.puts, freed.done⟩
      all_goals cases stepped

end Polls

/-- Custody and numbers along any run. -/
theorem polls_kept {s : Polls} (reached : Reached pollStep Anything {} s) :
    s.Custody ∧ s.Numbered := by
  let Along : Polls → Prop := fun s => s.Custody ∧ s.Numbered
  have along : Along s := by
    refine reached.invariant ⟨Polls.custody_initial, Polls.numbered_initial⟩ ?_
    intro before after label holds _ stepped
    exact ⟨holds.1.step stepped, holds.2.step stepped⟩
  exact along

end S4BXI
