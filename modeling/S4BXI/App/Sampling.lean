import Mathlib
import S4BXI.Lib.Transition
import S4BXI.Memory.SharedMalloc

/-!
# Sampled loops

The loops of `S4BXI_SAMPLE_LOCAL` and `S4BXI_SAMPLE_GLOBAL` on the functions
`s4bxi_sample_1`, `s4bxi_sample_2`, `s4bxi_sample_3` and `s4bxi_sample_exit`,
for any number of actors at one source line.  An actor gives the others a turn
only while it simulates time, in `s4bxi_bench_end` and in `s4bxi_execute`.
-/

namespace S4BXI

open Lib

/-- The arithmetic of `double`, on which nothing is assumed. -/
class Double (D : Type) extends Zero D, Add D, Sub D, Mul D, Div D where
  sqrt : D → D
  ofInt : Int → D
  gt : D → D → Bool
  ne : D → D → Bool

namespace Sampling

variable {D : Type}

/-- `LocalData`. -/
structure LocalData (D : Type) where
  threshold : D
  relstderr : D
  mean : D
  sum : D
  sumPow2 : D
  iters : Int
  count : Int
  benching : Bool

/-- The macro's place and arguments. -/
structure Settings (D : Type) where
  file : String
  line : Int
  iters : Int
  threshold : D

/-- `SampleLocation`. -/
def sampleLocation (settings : Settings D) (global : Bool) (pid : Nat) :
    String :=
  sourceLocation settings.file settings.line ++
    if global then "" else ":" ++ toString pid

/-- What a visit of the loop does: the end of the previous computation, a run
of the body, or a call of `s4bxi_execute`, with the times which have been
measured at the location until then. -/
inductive SampleEvent (D : Type) where
  | benchEnded
  | body
  | executed (duration : D) (benched : List D)

/-- A visit of the loop, with the number of its iterations. -/
structure Visit (D : Type) where
  global : Bool := false
  iterations : Nat := 0
  events : List (SampleEvent D) := []

/-- Where an actor is: outside of the loop, in `s4bxi_bench_end` before as
many iterations as are left after the present one, or in `s4bxi_execute`. -/
inductive Phase where
  | outside
  | benchEnding (remaining : Nat)
  | executing

structure Actor (D : Type) where
  isSampling : Bool := false
  phase : Phase := .outside
  iterCount : Int := 0
  visit : Visit D := {}

/-- The ways in which the functions give up. -/
inductive Death where
  | recursiveBench
  | differentSettings
  | noSettings
  | noSample
  | impossible

/-- The samples and the actors, with the times which have been measured at
each location and the visits which are over. -/
structure State (D : Type) where
  samples : String → Option (LocalData D) := fun _ => none
  actors : Nat → Actor D := fun _ => {}
  benched : String → List D := fun _ => []
  finished : List (Visit D) := []
  died : Option Death := none

namespace State

def setActor (s : State D) (pid : Nat) (actor : Actor D) : State D :=
  { s with actors := Function.update s.actors pid actor }

def setSample (s : State D) (loc : String) (data : LocalData D) : State D :=
  { s with samples := Function.update s.samples loc (some data) }

def record (s : State D) (pid : Nat) (event : SampleEvent D) : State D :=
  s.setActor pid { s.actors pid with
    visit := { (s.actors pid).visit with
      events := (s.actors pid).visit.events ++ [event] } }

/-- `set_sampling`. -/
def setSampling (s : State D) (pid : Nat) (sampling : Bool) : State D :=
  s.setActor pid { s.actors pid with isSampling := sampling }

def setPhase (s : State D) (pid : Nat) (phase : Phase) : State D :=
  s.setActor pid { s.actors pid with phase := phase }

/-- The loop is over. -/
def leave (s : State D) (pid : Nat) : State D :=
  { s.setPhase pid .outside with
    finished := (s.actors pid).visit :: s.finished }

end State

variable [Double D]

/-- `need_more_benchs`. -/
def LocalData.needMoreBenchs (data : LocalData D) : Bool :=
  decide (data.count < data.iters) ||
    (Double.gt data.threshold 0 &&
      (decide (data.count < 2) || Double.gt data.relstderr data.threshold))

/-- The call of `s4bxi_bench_end`, which is not left before the actor is
resumed. -/
def benchEnd (s : State D) (pid remaining : Nat) : Except Death (State D) :=
  if (s.actors pid).isSampling then .error .recursiveBench
  else .ok ((s.record pid .benchEnded).setPhase pid (.benchEnding remaining))

/-- `s4bxi_sample_1` once the actor is sampling. -/
def sample1 (settings : Settings D) (loc : String) (s : State D) :
    Except Death (State D) :=
  match s.samples loc with
  | none =>
      if Double.gt settings.threshold 0 || decide (settings.iters > 0) then
        .ok (s.setSample loc
          { threshold := settings.threshold
            relstderr := 0
            mean := 0
            sum := 0
            sumPow2 := 0
            iters := settings.iters
            count := 0
            benching := true })
      else .error .noSettings
  | some data =>
      if decide (data.iters ≠ settings.iters) ||
          Double.ne data.threshold settings.threshold then
        .error .differentSettings
      else .ok (s.setSample loc { data with benching := data.needMoreBenchs })

/-- The end of the sampling, with the call of `s4bxi_execute`. -/
def inject (s : State D) (pid : Nat) (loc : String) (data : LocalData D) :
    State D :=
  ((s.setSampling pid false).record pid
    (.executed (data.mean * Double.ofInt (s.actors pid).iterCount)
      (s.benched loc))).setPhase pid .executing

/-- `s4bxi_sample_2`, and whether the body is run. -/
def sample2 (pid : Nat) (loc : String) (s : State D) :
    Except Death (Bool × State D) :=
  match s.samples loc with
  | none => .error .noSample
  | some data =>
      if data.benching then .ok (true, s)
      else if !data.needMoreBenchs then .ok (false, inject s pid loc data)
      else .ok (true, s)

/-- What `s4bxi_sample_3` makes of a measured time. -/
def LocalData.update (data : LocalData D) (period : D) : LocalData D :=
  let count := wrapInt (data.count + 1)
  let sum := data.sum + period
  let sumPow2 := data.sumPow2 + period * period
  let n : D := Double.ofInt count
  let mean := sum / n
  { data with
    count := count
    sum := sum
    sumPow2 := sumPow2
    mean := mean
    relstderr := Double.sqrt ((sumPow2 / n - mean * mean) / n) / mean
    benching := false }

/-- `s4bxi_sample_3`. -/
def sample3 (loc : String) (period : D) (s : State D) :
    Except Death (State D) :=
  match s.samples loc with
  | none => .error .noSample
  | some data =>
      if !data.benching then .error .impossible
      else .ok
        { s.setSample loc (data.update period) with
          benched := Function.update s.benched loc
            (s.benched loc ++ [period]) }

/-- `s4bxi_sample_exit`, after which the loop is over. -/
def sampleExit (pid : Nat) (loc : String) (s : State D) :
    Except Death (State D) :=
  if (s.actors pid).isSampling then
    match s.samples loc with
    | none => .error .noSample
    | some data => .ok (inject s pid loc data)
  else .ok (s.leave pid)

/-- The `for` statement from its condition on, with the iterations which are
left, until the actor gives the others a turn. -/
def runLoop (settings : Settings D) (pid : Nat) (loc : String)
    (periods : Nat → D) : Nat → State D → Except Death (State D)
  | 0, s => sampleExit pid loc s
  | remaining + 1, s =>
      if (s.actors pid).isSampling then
        match sample1 settings loc s with
        | .error death => .error death
        | .ok s =>
            match sample2 pid loc s with
            | .error death => .error death
            | .ok (false, s) => .ok s
            | .ok (true, s) =>
                match sample3 loc (periods remaining) (s.record pid .body) with
                | .error death => .error death
                | .ok s => runLoop settings pid loc periods remaining s
      else benchEnd s pid remaining

/-- The counting loop of the macro. -/
def countIterations : Nat → Int
  | 0 => 0
  | iterations + 1 => wrapInt (countIterations iterations + 1)

/-- An actor enters the loop, or goes on when the simulated time has passed,
with the times it measures. -/
inductive Label (D : Type) where
  | enter (pid : Nat) (global : Bool) (iterations : Nat)
  | resume (pid : Nat) (periods : Nat → D)

/-- The counting loop has run, and the visit begins. -/
def begin (s : State D) (pid : Nat) (global : Bool) (iterations : Nat) :
    State D :=
  s.setActor pid { s.actors pid with
    iterCount := countIterations iterations
    visit := { global := global, iterations := iterations } }

def commit (s : State D) : Except Death (State D) → State D
  | .ok after => after
  | .error death => { s with died := some death }

def step (settings : Settings D) (s : State D) :
    Label D → Option (State D)
  | .enter pid global iterations =>
      match s.died, (s.actors pid).phase with
      | none, .outside =>
          some (commit s (runLoop settings pid
            (sampleLocation settings global pid) (fun _ => 0) iterations
            (begin s pid global iterations)))
      | _, _ => none
  | .resume pid periods =>
      match s.died, (s.actors pid).phase with
      | none, .benchEnding remaining =>
          some (commit s (runLoop settings pid
            (sampleLocation settings (s.actors pid).visit.global pid) periods
            (remaining + 1) (s.setSampling pid true)))
      | none, .executing => some (s.leave pid)
      | _, _ => none

/-- The mean of the times measured at a location, counted by an `int`. -/
def meanOf (benched : List D) : D :=
  benched.foldl (· + ·) 0 / Double.ofInt (wrapInt benched.length)

/-- A sample describes the times which have been measured. -/
structure Describes (settings : Settings D) (data : LocalData D)
    (benched : List D) : Prop where
  iters : data.iters = settings.iters
  threshold : data.threshold = settings.threshold
  count : data.count = wrapInt benched.length
  sum : data.sum = benched.foldl (· + ·) 0
  mean : benched ≠ [] → data.mean = meanOf benched

structure Consistent (settings : Settings D) (s : State D) : Prop where
  known : ∀ {loc data}, s.samples loc = some data →
    Describes settings data (s.benched loc)
  unknown : ∀ {loc}, s.samples loc = none → s.benched loc = []

/-- The loop injects its whole duration once, at its end, and nothing when it
has no iterations. -/
def Injects (visit : Visit D) : Prop :=
  (visit.iterations = 0 ∧ visit.events = []) ∨
    (0 < visit.iterations ∧ ∃ bodies benched,
      bodies ≤ visit.iterations ∧ benched ≠ [] ∧
      visit.events = .benchEnded :: List.replicate bodies .body ++
        [.executed (meanOf benched *
          Double.ofInt (countIterations visit.iterations)) benched])

section Samples

variable {settings : Settings D} {s : State D} {data : LocalData D}
  {benched : List D} {loc : String}

theorem wrapInt_zero : wrapInt 0 = 0 := by decide

theorem wrapInt_succ (number : Int) :
    wrapInt (wrapInt number + 1) = wrapInt (number + 1) := by
  simp only [wrapInt]
  omega

theorem countIterations_eq (iterations : Nat) :
    countIterations iterations = wrapInt iterations := by
  induction iterations with
  | zero => decide
  | succ iterations induction =>
      rw [countIterations, induction, wrapInt_succ]
      rfl

/-- More is asked for as long as nothing has been measured. -/
theorem Describes.measured
    (positive : Double.gt settings.threshold 0 = true ∨ 0 < settings.iters)
    (describes : Describes settings data benched)
    (enough : data.needMoreBenchs = false) : benched ≠ [] := by
  intro empty
  have zero : data.count = 0 := by
    rw [describes.count, empty]
    exact wrapInt_zero
  simp only [LocalData.needMoreBenchs, zero, describes.iters,
    describes.threshold, Bool.or_eq_false_iff, Bool.and_eq_false_iff,
    decide_eq_false_iff_not] at enough
  obtain ⟨noIters, noThreshold | ⟨few, _⟩⟩ := enough
  · rcases positive with threshold | iters
    · rw [noThreshold] at threshold
      cases threshold
    · exact noIters iters
  · exact few (by decide)

theorem Describes.update (describes : Describes settings data benched)
    (period : D) :
    Describes settings (data.update period) (benched ++ [period]) := by
  have count : (data.update period).count =
      wrapInt (benched ++ [period]).length := by
    simp only [LocalData.update, describes.count, wrapInt_succ,
      List.length_append, List.length_singleton, Nat.cast_add, Nat.cast_one]
  have sum : (data.update period).sum =
      (benched ++ [period]).foldl (· + ·) 0 := by
    rw [List.foldl_append, ← describes.sum]
    rfl
  refine ⟨describes.iters, describes.threshold, count, sum, fun _ => ?_⟩
  rw [meanOf, ← count, ← sum]
  rfl

/-- A sample at one location, and the times there. -/
theorem Consistent.set (consistent : Consistent settings s)
    {after : State D} (samples : after.samples =
      Function.update s.samples loc (some data))
    (times : after.benched = Function.update s.benched loc benched)
    (describes : Describes settings data benched) :
    Consistent settings after := by
  constructor
  · intro place other found
    rw [samples] at found
    rw [times]
    by_cases here : place = loc
    · rw [here, Function.update_self] at found ⊢
      cases found
      exact describes
    · rw [Function.update_of_ne here] at found ⊢
      exact consistent.known found
  · intro place missing
    rw [samples] at missing
    rw [times]
    by_cases here : place = loc
    · rw [here, Function.update_self] at missing
      cases missing
    · rw [Function.update_of_ne here] at missing ⊢
      exact consistent.unknown missing

/-- `s4bxi_sample_1` finds or makes a sample, which is benched unless enough
has been measured. -/
theorem sample1_ok
    (positive : Double.gt settings.threshold 0 = true ∨ 0 < settings.iters)
    (same : Double.ne settings.threshold settings.threshold = false)
    (consistent : Consistent settings s) (loc : String) :
    ∃ data, sample1 settings loc s = .ok (s.setSample loc data) ∧
      Describes settings data (s.benched loc) ∧
      (data.benching = false → data.needMoreBenchs = false) := by
  unfold sample1
  cases found : s.samples loc with
  | none =>
      have accepted : (Double.gt settings.threshold 0 ||
          decide (settings.iters > 0)) = true := by
        rcases positive with threshold | iters
        · rw [threshold, Bool.true_or]
        · rw [decide_eq_true iters, Bool.or_true]
      have empty := consistent.unknown found
      refine ⟨_, if_pos accepted, ?_, fun benching => by cases benching⟩
      rw [empty]
      exact ⟨rfl, rfl, wrapInt_zero.symm, rfl,
        fun some => absurd rfl some⟩
  | some data =>
      have describes := consistent.known found
      have agreed : (decide (data.iters ≠ settings.iters) ||
          Double.ne data.threshold settings.threshold) = false := by
        rw [describes.iters, describes.threshold, same, Bool.or_false]
        exact decide_eq_false (fun different => different rfl)
      refine ⟨{ data with benching := data.needMoreBenchs }, ?_, ?_, ?_⟩
      · simp only [agreed, Bool.false_eq_true, if_false]
      · exact ⟨describes.iters, describes.threshold, describes.count,
          describes.sum, describes.mean⟩
      · intro benching
        exact benching

end Samples

section Loop

variable {settings : Settings D} {s : State D} {pid : Nat} {loc : String}

/-- An actor which has begun a visit and run the body some times. -/
structure Running (s : State D) (pid : Nat) (loc : String)
    (bodies remaining : Nat) : Prop where
  sampling : (s.actors pid).isSampling = true
  counted : (s.actors pid).iterCount =
    countIterations (s.actors pid).visit.iterations
  events : (s.actors pid).visit.events =
    .benchEnded :: List.replicate bodies .body
  total : bodies + remaining = (s.actors pid).visit.iterations
  measured : 0 < bodies → s.benched loc ≠ []

/-- An actor which has injected the duration of its visit. -/
structure Executing (s after : State D) (pid : Nat) : Prop where
  others : ∀ other, other ≠ pid → after.actors other = s.actors other
  sampling : (after.actors pid).isSampling = false
  phase : (after.actors pid).phase = .executing
  injects : Injects (after.actors pid).visit
  finished : after.finished = s.finished
  died : after.died = s.died

theorem inject_executing {data : LocalData D} {bodies remaining : Nat}
    (running : Running s pid loc bodies remaining)
    (describes : Describes settings data (s.benched loc))
    (measured : s.benched loc ≠ []) (some : 0 < bodies + remaining) :
    Executing s (inject s pid loc data) pid := by
  have total := running.total
  constructor
  · intro other different
    simp [inject, State.setPhase, State.record, State.setSampling,
      State.setActor, Function.update_of_ne different]
  · simp [inject, State.setPhase, State.record, State.setSampling,
      State.setActor]
  · simp [inject, State.setPhase, State.record, State.setSampling,
      State.setActor]
  · right
    simp only [inject, State.setPhase, State.record, State.setSampling,
      State.setActor, Function.update_self]
    refine ⟨by omega, bodies, s.benched loc, by omega, measured, ?_⟩
    rw [running.events, running.counted, describes.mean measured]
  · rfl
  · rfl

theorem Consistent.of_eq {after : State D}
    (consistent : Consistent settings s) (samples : after.samples = s.samples)
    (benched : after.benched = s.benched) : Consistent settings after := by
  constructor
  · intro place data found
    rw [benched]
    exact consistent.known (samples ▸ found)
  · intro place missing
    rw [benched]
    exact consistent.unknown (samples ▸ missing)

/-- Nothing but the actor itself matters for where it is. -/
theorem Executing.since {middle after : State D}
    (executing : Executing middle after pid)
    (others : ∀ other, other ≠ pid → middle.actors other = s.actors other)
    (finished : middle.finished = s.finished) (died : middle.died = s.died) :
    Executing s after pid := by
  constructor
  · intro other different
    rw [executing.others other different, others other different]
  · exact executing.sampling
  · exact executing.phase
  · exact executing.injects
  · rw [executing.finished, finished]
  · rw [executing.died, died]

/-- The loop ends with one injection, through either of its exits. -/
theorem runLoop_injects
    (positive : Double.gt settings.threshold 0 = true ∨ 0 < settings.iters)
    (same : Double.ne settings.threshold settings.threshold = false)
    (periods : Nat → D) {bodies remaining : Nat}
    (consistent : Consistent settings s)
    (running : Running s pid loc bodies remaining)
    (some : 0 < bodies + remaining) :
    ∃ after, runLoop settings pid loc periods remaining s = .ok after ∧
      Consistent settings after ∧ Executing s after pid := by
  induction remaining generalizing s bodies with
  | zero =>
      have measured := running.measured (by omega)
      cases found : s.samples loc with
      | none => exact absurd (consistent.unknown found) measured
      | some data =>
          refine ⟨inject s pid loc data, ?_, consistent.of_eq rfl rfl,
            inject_executing running (consistent.known found) measured some⟩
          rw [runLoop, sampleExit, if_pos running.sampling, found]
  | succ remaining induction =>
      obtain ⟨data, sampled, describes, enough⟩ :=
        sample1_ok positive same consistent loc
      rw [runLoop, if_pos running.sampling, sampled]
      have here : (s.setSample loc data).samples loc = Option.some data :=
        Function.update_self _ _ _
      have kept : Consistent settings (s.setSample loc data) := by
        apply consistent.set rfl _ describes
        exact (Function.update_eq_self loc s.benched).symm
      cases benching : data.benching with
      | false =>
          have measured := describes.measured positive (enough benching)
          refine ⟨inject (s.setSample loc data) pid loc data, ?_,
            kept.of_eq rfl rfl, ?_⟩
          · simp only [sample2, here, benching, enough benching,
              Bool.false_eq_true, if_false, Bool.not_false, if_true]
          · have executing := inject_executing (s := s.setSample loc data)
              ⟨running.sampling, running.counted, running.events,
                running.total, running.measured⟩ describes measured some
            exact executing.since (fun _ _ => rfl) rfl rfl
      | true =>
          let benched := { (((s.setSample loc data).record pid .body).setSample
              loc (data.update (periods remaining))) with
            benched := Function.update s.benched loc
              (s.benched loc ++ [periods remaining]) }
          have measuredOnce : sample3 loc (periods remaining)
              ((s.setSample loc data).record pid .body) = .ok benched := by
            have sample : ((s.setSample loc data).record pid .body).samples
              loc = Option.some data := here
            simp only [sample3, sample, benching, Bool.not_true,
              Bool.false_eq_true, if_false]
            rfl
          have consistentAfter : Consistent settings benched :=
            kept.set rfl rfl (describes.update _)
          have runningAfter : Running benched pid loc (bodies + 1)
              remaining := by
            have actor : benched.actors pid = { s.actors pid with
                visit := { (s.actors pid).visit with
                  events := (s.actors pid).visit.events ++ [.body] } } :=
              Function.update_self _ _ _
            have total := running.total
            constructor
            · rw [actor]
              exact running.sampling
            · rw [actor]
              exact running.counted
            · rw [actor]
              simp only [running.events, List.cons_append,
                List.replicate_succ']
            · rw [actor]
              change bodies + 1 + remaining = (s.actors pid).visit.iterations
              omega
            · intro _
              have times : benched.benched loc =
                  s.benched loc ++ [periods remaining] :=
                Function.update_self _ _ _
              simp [times]
          obtain ⟨after, ran, consistentEnd, executing⟩ :=
            induction consistentAfter runningAfter (by omega)
          refine ⟨after, ?_, consistentEnd,
            executing.since (fun other different =>
              Function.update_of_ne different _ _) rfl rfl⟩
          simp only [sample2, here, benching, if_true, measuredOnce, ran]

/-- What an actor has done when another one runs. -/
structure Actor.Rests (actor : Actor D) : Prop where
  sampling : actor.isSampling = false
  entered : ∀ remaining, actor.phase = .benchEnding remaining →
    actor.iterCount = countIterations actor.visit.iterations ∧
    actor.visit.events = [.benchEnded] ∧
    actor.visit.iterations = remaining + 1
  injected : actor.phase = .executing → Injects actor.visit

/-- The invariant of the runs of all actors. -/
structure Sound (settings : Settings D) (s : State D) : Prop where
  consistent : Consistent settings s
  rests : ∀ pid, (s.actors pid).Rests
  finished : ∀ visit ∈ s.finished, Injects visit
  alive : s.died = none

theorem Executing.sound (sound : Sound settings s) {after : State D}
    (consistent : Consistent settings after)
    (executing : Executing s after pid) : Sound settings after := by
  constructor
  · exact consistent
  · intro other
    by_cases same : other = pid
    · subst same
      constructor
      · exact executing.sampling
      · intro remaining suspended
        rw [executing.phase] at suspended
        cases suspended
      · intro _
        exact executing.injects
    · rw [executing.others other same]
      exact sound.rests other
  · rw [executing.finished]
    exact sound.finished
  · rw [executing.died]
    exact sound.alive

omit [Double D] in
theorem State.setActor_self (s : State D) (pid : Nat) (actor : Actor D) :
    (s.setActor pid actor).actors pid = actor :=
  Function.update_self _ _ _

theorem Actor.rests_outside {actor : Actor D}
    (sampling : actor.isSampling = false) (outside : actor.phase = .outside) :
    actor.Rests := by
  constructor
  · exact sampling
  · intro remaining suspended
    rw [outside] at suspended
    cases suspended
  · intro executing
    rw [outside] at executing
    cases executing

theorem Sound.setActor (sound : Sound settings s) {actor : Actor D}
    (rests : actor.Rests) : Sound settings (s.setActor pid actor) := by
  constructor
  · exact sound.consistent.of_eq rfl rfl
  · intro other
    by_cases same : other = pid
    · rw [same, s.setActor_self]
      exact rests
    · have kept : (s.setActor pid actor).actors other = s.actors other :=
        Function.update_of_ne same _ _
      rw [kept]
      exact sound.rests other
  · exact sound.finished
  · exact sound.alive

theorem Sound.leave (sound : Sound settings s)
    (injects : Injects (s.actors pid).visit) :
    Sound settings (s.leave pid) := by
  have outside : Sound settings (s.setPhase pid .outside) :=
    sound.setActor (Actor.rests_outside (sound.rests pid).sampling rfl)
  constructor
  · exact outside.consistent.of_eq rfl rfl
  · exact outside.rests
  · intro visit member
    rcases List.mem_cons.mp member with rfl | earlier
    · exact injects
    · exact sound.finished visit earlier
  · exact outside.alive

/-- Entering the loop ends the previous computation, or leaves at once. -/
theorem Sound.enter (sound : Sound settings s) (global : Bool)
    (iterations : Nat) (outside : (s.actors pid).phase = .outside) :
    ∃ after, runLoop settings pid (sampleLocation settings global pid)
      (fun _ => 0) iterations (begin s pid global iterations) = .ok after ∧
        Sound settings after := by
  have sampling := (sound.rests pid).sampling
  have awake : (begin s pid global iterations).actors pid =
      { s.actors pid with
        iterCount := countIterations iterations
        visit := { global := global, iterations := iterations } } :=
    s.setActor_self pid _
  have entered : Sound settings (begin s pid global iterations) := by
    apply sound.setActor
    exact Actor.rests_outside sampling outside
  generalize begin s pid global iterations = begun at awake entered ⊢
  have begunSampling : (begun.actors pid).isSampling = false := by
    rw [awake]
    exact sampling
  cases iterations with
  | zero =>
      refine ⟨begun.leave pid, ?_, entered.leave ?_⟩
      · rw [runLoop, sampleExit, if_neg (by simp [begunSampling])]
      · rw [awake]
        exact .inl ⟨rfl, rfl⟩
  | succ remaining =>
      refine ⟨(begun.record pid .benchEnded).setPhase pid
        (.benchEnding remaining), ?_, ?_⟩
      · rw [runLoop, if_neg (by simp [begunSampling]), benchEnd,
          if_neg (by simp [begunSampling])]
      · have recorded : Sound settings (begun.record pid .benchEnded) := by
          apply entered.setActor
          rw [awake]
          exact Actor.rests_outside sampling outside
        apply recorded.setActor
        rw [State.record, State.setActor_self, awake]
        constructor
        · exact sampling
        · intro left suspended
          cases suspended
          exact ⟨rfl, rfl, rfl⟩
        · intro executing
          cases executing

/-- Going on after the previous computation runs the loop to its end. -/
theorem Sound.resume
    (positive : Double.gt settings.threshold 0 = true ∨ 0 < settings.iters)
    (same : Double.ne settings.threshold settings.threshold = false)
    (sound : Sound settings s) (loc : String) (periods : Nat → D)
    {remaining : Nat}
    (suspended : (s.actors pid).phase = .benchEnding remaining) :
    ∃ after, runLoop settings pid loc periods (remaining + 1)
      (s.setSampling pid true) = .ok after ∧ Sound settings after := by
  obtain ⟨counted, events, total⟩ :=
    (sound.rests pid).entered remaining suspended
  have awake := s.setActor_self pid { s.actors pid with isSampling := true }
  have running : Running (s.setSampling pid true) pid loc 0
      (remaining + 1) := by
    rw [State.setSampling]
    constructor
    · rw [awake]
    · rw [awake]
      exact counted
    · rw [awake]
      exact events
    · rw [awake, Nat.zero_add]
      exact total.symm
    · intro none
      cases none
  have consistentToo : Consistent settings (s.setSampling pid true) :=
    sound.consistent.of_eq rfl rfl
  obtain ⟨after, ran, consistent, executing⟩ := runLoop_injects positive same
    periods consistentToo running (by omega)
  have since : Executing s after pid :=
    executing.since (fun other different =>
      Function.update_of_ne different _ _) rfl rfl
  exact ⟨after, ran, Executing.sound sound consistent since⟩

theorem Sound.step
    (positive : Double.gt settings.threshold 0 = true ∨ 0 < settings.iters)
    (same : Double.ne settings.threshold settings.threshold = false)
    (sound : Sound settings s) {label : Label D} {after : State D}
    (stepped : step settings s label = some after) : Sound settings after := by
  cases label with
  | enter pid global iterations =>
      simp only [Sampling.step, sound.alive] at stepped
      cases phase : (s.actors pid).phase with
      | outside =>
          simp only [phase, Option.some.injEq] at stepped
          obtain ⟨final, ran, finalSound⟩ :=
            sound.enter global iterations phase
          rw [ran] at stepped
          exact stepped ▸ finalSound
      | benchEnding remaining => simp [phase] at stepped
      | executing => simp [phase] at stepped
  | resume pid periods =>
      simp only [Sampling.step, sound.alive] at stepped
      cases phase : (s.actors pid).phase with
      | outside => simp [phase] at stepped
      | benchEnding remaining =>
          simp only [phase, Option.some.injEq] at stepped
          obtain ⟨final, ran, finalSound⟩ :=
            sound.resume positive same _ periods phase
          rw [ran] at stepped
          exact stepped ▸ finalSound
      | executing =>
          simp only [phase, Option.some.injEq] at stepped
          exact stepped ▸ sound.leave ((sound.rests pid).injected phase)

theorem sound_of_reached
    (positive : Double.gt settings.threshold 0 = true ∨ 0 < settings.iters)
    (same : Double.ne settings.threshold settings.threshold = false)
    (reached : Reached (step settings) Anything {} s) :
    Sound settings s := by
  apply reached.invariant
  · constructor
    · constructor
      · intro loc data found
        cases found
      · intro loc _
        rfl
    · intro pid
      exact Actor.rests_outside rfl rfl
    · intro visit member
      cases member
    · rfl
  · intro before after label sound _ stepped
    exact sound.step positive same stepped

/-- The mean of some times. -/
def exactMean (benched : List D) : D :=
  benched.foldl (· + ·) 0 / Double.ofInt benched.length

/-- The end of the previous computation, runs of the body, and one call of
`s4bxi_execute`. -/
def EndsWith (visit : Visit D) (duration : D) (benched : List D) : Prop :=
  ∃ bodies, bodies ≤ visit.iterations ∧ benched ≠ [] ∧
    visit.events = .benchEnded :: List.replicate bodies .body ++
      [.executed duration benched]

theorem wrapInt_of_lt {number : Nat} (small : number < 2 ^ 31) :
    wrapInt number = number := by
  simp only [wrapInt]
  omega

/-- A sampled loop injects once, at its end, the mean of what has been measured
at its location times the number of its iterations, as long as an `int` counts
the iterations and the measures. -/
theorem sampled_loops_inject_once
    (positive : Double.gt settings.threshold 0 = true ∨ 0 < settings.iters)
    (same : Double.ne settings.threshold settings.threshold = false)
    (reached : Reached (step settings) Anything {} s) :
    s.died = none ∧
      (∀ pid, (s.actors pid).phase = .outside →
        (s.actors pid).isSampling = false) ∧
      ∀ visit ∈ s.finished,
        (visit.iterations = 0 → visit.events = []) ∧
        (0 < visit.iterations → ∃ duration benched,
          EndsWith visit duration benched ∧
          (visit.iterations < 2 ^ 31 → benched.length < 2 ^ 31 →
            duration =
              exactMean benched * Double.ofInt visit.iterations)) := by
  have sound := sound_of_reached positive same reached
  refine ⟨sound.alive, fun pid _ => (sound.rests pid).sampling, ?_⟩
  intro visit member
  rcases sound.finished visit member with
    ⟨none, nothing⟩ | ⟨some, bodies, benched, within, measured, events⟩
  · exact ⟨fun _ => nothing, fun some => by omega⟩
  · refine ⟨fun none => by omega, fun _ => ?_⟩
    refine ⟨_, benched, ⟨bodies, within, measured, events⟩, ?_⟩
    intro fewIterations fewMeasures
    rw [meanOf, countIterations_eq, wrapInt_of_lt fewIterations,
      wrapInt_of_lt fewMeasures, exactMean]

end Loop

section Rationals

/-- The rational numbers calculate as doubles do with small integers. -/
instance : Double ℚ where
  sqrt := Rat.sqrt
  ofInt number := number
  gt first second := decide (first > second)
  ne first second := decide (first ≠ second)

def oneSample : Settings ℚ := ⟨"loop.c", 7, 1, 0⟩

/-- Two actors at one loop, the second of which runs before the first one goes
on. -/
theorem two_actors_inject :
    ∃ s : State ℚ, Reached (step oneSample) Anything {} s ∧
      s.finished.length = 2 ∧ s.died = none ∧
      (∀ pid, (s.actors pid).phase = .outside →
        (s.actors pid).isSampling = false) ∧
      ∀ visit ∈ s.finished,
        (visit.iterations = 0 → visit.events = []) ∧
        (0 < visit.iterations → ∃ duration benched,
          EndsWith visit duration benched ∧
          (visit.iterations < 2 ^ 31 → benched.length < 2 ^ 31 →
            duration =
              exactMean benched * Double.ofInt visit.iterations)) := by
  have executed : (runLabels (step oneSample) (fun _ _ => true) {}
      [.enter 0 true 3, .enter 1 true 2, .resume 1 fun _ => 5, .resume 1 0,
        .resume 0 fun _ => 5, .resume 0 0]).any
      (fun s => decide (s.finished.length = 2)) = true := by
    decide +kernel
  obtain ⟨s, final, both⟩ := (Option.any_eq_true _ _).mp executed
  have reached : Reached (step oneSample) Anything {} s :=
    reached_of_runLabels (fun _ _ _ => trivial) final
  exact ⟨s, reached, of_decide_eq_true both,
    sampled_loops_inject_once (.inr (by decide)) (by decide) reached⟩

/-- The counting loop of `2 ^ 31` iterations overflows. -/
theorem too_many_iterations :
    ¬ ∀ (s : State ℚ), Reached (step oneSample) Anything {} s →
      ∀ visit ∈ s.finished, 0 < visit.iterations → ∃ duration benched,
        EndsWith visit duration benched ∧
        duration = exactMean benched * Double.ofInt visit.iterations := by
  intro claimed
  have executed : (runLabels (step oneSample) (fun _ _ => true) {}
      [.enter 0 true (2 ^ 31), .resume 0 fun _ => 1, .resume 0 0]).any
      (fun s => s.finished.any fun visit =>
        decide (visit.iterations = 2 ^ 31) &&
        match visit.events with
        | [_, _, .executed _ benched] => decide (benched = [1])
        | _ => false) = true := by
    decide +kernel
  obtain ⟨s, final, found⟩ := (Option.any_eq_true _ _).mp executed
  have reached : Reached (step oneSample) Anything {} s :=
    reached_of_runLabels (fun _ _ _ => trivial) final
  obtain ⟨visit, member, checked⟩ := List.any_eq_true.mp found
  rw [Bool.and_eq_true] at checked
  obtain ⟨iterations, shape⟩ := checked
  have many : visit.iterations = 2 ^ 31 := of_decide_eq_true iterations
  have sound := sound_of_reached (.inr (by decide)) (by decide) reached
  obtain ⟨duration, benched, ⟨bodies, -, -, events⟩, exactly⟩ :=
    claimed s reached visit member (by omega)
  rcases sound.finished visit member with
    ⟨none, -⟩ | ⟨-, others, times, -, -, injected⟩
  · omega
  · split at shape
    next first second measure benchedOnce shown =>
      have once : benchedOnce = [1] := of_decide_eq_true shape
      rw [shown] at events injected
      have lastEvents := congrArg List.getLast? events
      rw [List.getLast?_concat] at lastEvents
      simp only [List.getLast?_cons_cons, List.getLast?_singleton,
        Option.some.injEq, SampleEvent.executed.injEq] at lastEvents
      have lastInjected := congrArg List.getLast? injected
      rw [List.getLast?_concat] at lastInjected
      simp only [List.getLast?_cons_cons, List.getLast?_singleton,
        Option.some.injEq, SampleEvent.executed.injEq] at lastInjected
      rw [← lastEvents.1, ← lastEvents.2, lastInjected.1,
        ← lastInjected.2, once, many, countIterations_eq] at exactly
      have overflow : wrapInt ((2 ^ 31 : Nat) : Int) = -2 ^ 31 := by decide
      rw [overflow] at exactly
      simp only [meanOf, exactMean, Double.ofInt, List.foldl_cons,
        List.foldl_nil, List.length_singleton] at exactly
      have one : wrapInt ((1 : Nat) : Int) = 1 := by decide
      rw [one] at exactly
      norm_num at exactly
    next => cases shape

end Rationals

end Sampling

end S4BXI
