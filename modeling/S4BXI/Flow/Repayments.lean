import Mathlib.Data.List.Perm.Subperm
import S4BXI.Acks.Answers
import S4BXI.Flow.Credits
import S4BXI.Safety.Halts

/-!
# No credit is given back twice

The entries of a request are released where an answer to it is logged, and those
of an answer where the request becomes `FINISHED`.  Without retransmission each
of these happens once, so that every credit which is given back was taken
before, and none of the panics of flow control is reachable.
-/

namespace S4BXI

open Lib

/-- No message is retransmitted, and no parked message is put back twice. -/
structure Steady (sys : Sys) (s : State) (label : Label) : Prop where
  undisturbed : Undisturbed sys s label
  unrepeated : Unrepeated sys s label

instance (sys : Sys) (s : State) (label : Label) :
    Decidable (Steady sys s label) :=
  decidable_of_iff (Undisturbed sys s label ∧ Unrepeated sys s label)
    ⟨fun both => ⟨both.1, both.2⟩, fun steady =>
      ⟨steady.undisturbed, steady.unrepeated⟩⟩

/-- Whether an entry of the log gives back the credits of the message of a
request on a network. -/
def Obs.repays (vn : Vn) (req : ReqId) : Obs → Bool
  | .credit _ network _ other => network = vn && other = req
  | _ => false

/-- Whether an operation is about to give them back. -/
def Op.repays (vn : Vn) (req : ReqId) (op : Op) : Nat :=
  match op.releases with
  | some (_, network, _, other) => if network = vn ∧ other = req then 1 else 0
  | none => 0

/-- How often the credits are given back, or are about to be. -/
def State.repaid (s : State) (vn : Vn) (req : ReqId) : Nat :=
  s.log.countP (Obs.repays vn req) + pending (Op.repays vn req) s.threads

/-- What a release of the credits is due to. -/
def Earned (s after : State) (vn : Vn) (req : ReqId) : Prop :=
  if vn.isRequest then
    after.log.count (.answered req) = s.log.count (.answered req) + 1
  else
    (s.reqs req).processState ≠ .finished ∧
      (after.reqs req).processState = .finished

section Steps

variable {sys : Sys} {self : Actor} {s after : State} {vn : Vn} {req : ReqId}

theorem opsWeight_repays {new : List Op}
    (none_new : ∀ added ∈ new, added.releases = none) :
    opsWeight (Op.repays vn req) new = 0 := by
  apply opsWeight_eq_zero
  intro added member
  unfold Op.repays
  rw [none_new added member]

/-- Only a release of the counters gives credits back. -/
theorem Phase.repaid_log {op : Op} {new : List Op}
    (phase : Phase sys self s op after new) (within : op.Within s.bounds)
    (other : ∀ nid network key req, op ≠ .releaseCounts nid network key req)
    (vn : Vn) (req : ReqId) :
    after.log.countP (Obs.repays vn req) = s.log.countP (Obs.repays vn req) := by
  obtain ⟨extra, log, emitted⟩ := phase.emits within
  have silent : extra.countP (Obs.repays vn req) = 0 := by
    rw [List.countP_eq_zero]
    intro obs member
    cases emitted obs member <;>
      first | exact Bool.false_ne_true | exact absurd rfl (other _ _ _ _)
  rw [log, List.countP_append, silent, Nat.add_zero]

/-- A handler which answers a request, or which finishes it, releases its
entries. -/
theorem Phase.handle_repays {msg : MsgId} {new : List Op}
    (phase : Phase sys self s (.handle msg) after new)
    (running : after.halted = none) (vn : Vn) (req : ReqId) :
    opsWeight (Op.repays vn req) new = 0 ∨
      opsWeight (Op.repays vn req) new = 1 ∧ Earned s after vn req := by
  have nothing : (∀ added ∈ new, added.releases = none) →
      opsWeight (Op.repays vn req) new = 0 ∨
        opsWeight (Op.repays vn req) new = 1 ∧ Earned s after vn req :=
    fun none_new => .inl (opsWeight_repays none_new)
  have answer : ∀ rest : List Op, (∀ added ∈ rest, added.releases = none) →
      after.log = s.log ++ [.answered (s.reqOf msg)] →
      opsWeight (Op.repays vn req)
          (releaseAnswered sys self s msg :: rest) = 0 ∨
        opsWeight (Op.repays vn req)
            (releaseAnswered sys self s msg :: rest) = 1 ∧
          Earned s after vn req := by
    intro rest none_rest log
    rw [opsWeight_cons, opsWeight_repays none_rest, Nat.add_zero]
    by_cases own : Vn.request (s.reqs (s.reqOf msg)).serviceVn = vn ∧
        s.reqOf msg = req
    · refine .inr ⟨?_, ?_⟩
      · exact if_pos own
      · obtain ⟨network, rfl⟩ := own
        unfold Earned
        rw [← network, Vn.isRequest_request, if_pos rfl, log,
          List.count_append, List.count_singleton_self]
    · exact .inl (if_neg own)
  cases phase with
  | quiet quiet =>
      apply nothing
      cases quiet <;> simp [Op.releases]
  | respondUnmatched type fetches fresh absent =>
      exact nothing (by simp [Op.releases])
  | @matched _ pt list me fail kind effects stop type fresh found memory later
      stops =>
      apply nothing
      intro added member
      rcases List.mem_append.mp member with counter | finish
      · exact meCounter_every (P := fun op => op.releases = none)
          (fun _ _ => rfl) added counter
      · rw [List.mem_singleton.mp finish]
        cases kind <;> rfl
  | handleResponse type => exact answer _ (by simp [Op.releases]) rfl
  | handlePtlAck type => exact answer _ (by simp [Op.releases]) rfl
  | ackWithoutAnswer type fresh missing => cases running
  | @handleBxiAck _ answered type fresh answers =>
      have tail : opsWeight (Op.repays vn req) [.bxiAckTail msg] = 0 :=
        opsWeight_repays (by simp [Op.releases])
      rw [opsWeight_cons, tail, Nat.add_zero]
      by_cases own : s.vnOf answered = vn ∧ s.reqOf msg = req
      · refine .inr ⟨?_, ?_⟩
        · exact if_pos own
        · obtain ⟨rfl, rfl⟩ := own
          unfold Earned
          cases network : (s.vnOf answered).isRequest with
          | true => simp [State.touch, State.modReq]
          | false =>
              refine ⟨fun finished => fresh ?_, ?_⟩
              · rw [finished]
                exact ProcessState.le_refl _
              · simp [State.touch, State.modReq]
      · exact .inl (if_neg own)

/-- So does a quick acknowledgement. -/
theorem Phase.sendAck_repays {msg : MsgId} {type : MsgType} {fail : NiFailType}
    {new : List Op} (phase : Phase sys self s (.sendAck msg type fail) after new)
    (request : (s.msgs msg).type.isRequest = true) (vn : Vn) (req : ReqId) :
    opsWeight (Op.repays vn req) new = 0 ∨
      opsWeight (Op.repays vn req) new = 1 ∧ Earned s after vn req := by
  cases phase with
  | quiet quiet => cases quiet
  | sendAck slow => exact .inl (opsWeight_repays (by simp [Op.releases]))
  | quickAck quick =>
      have tail : opsWeight (Op.repays vn req)
          (.maybeIssueSend (s.reqOf msg) :: issueAck s (s.reqOf msg) fail) =
          0 := by
        apply opsWeight_repays
        intro added member
        rcases List.mem_cons.mp member with rfl | acks
        · rfl
        · exact issueAck_every (P := fun op => op.releases = none)
            (fun _ _ => rfl) rfl added acks
      rw [opsWeight_cons, tail, Nat.add_zero]
      by_cases own : s.vnOf msg = vn ∧ s.reqOf msg = req
      · refine .inr ⟨?_, ?_⟩
        · exact if_pos own
        · obtain ⟨rfl, rfl⟩ := own
          unfold Earned
          rw [State.vnOf_isRequest, request, if_pos rfl]
          simp [State.emit, State.modReq]
      · exact .inl (if_neg own)

/-- What an operation does to the releases of a message. -/
theorem Phase.repays {op : Op} {new : List Op}
    (phase : Phase sys self s op after new) (within : op.Within s.bounds)
    (opShaped : op.Shaped s self) (running : after.halted = none)
    (vn : Vn) (req : ReqId) :
    let left := after.log.countP (Obs.repays vn req) +
      opsWeight (Op.repays vn req) new
    let before := s.log.countP (Obs.repays vn req) + op.repays vn req
    left ≤ before ∨ left = before + 1 ∧ Earned s after vn req := by
  dsimp only
  cases op with
  | releaseCounts nid network key other =>
      refine .inl ?_
      cases phase with
      | quiet quiet => cases quiet
      | creditPanic released => cases running
      | releaseCounts released =>
          have none_new : opsWeight (Op.repays vn req)
              (if sys.cfg.maxInflightToProcess ≠ 0 ||
                sys.cfg.maxInflightToTarget ≠ 0 then [.resumeLoop nid network]
                else []) = 0 := by
            apply opsWeight_repays
            intro added member
            split at member
            · rw [List.mem_singleton.mp member]
              rfl
            · cases member
          rw [none_new]
          simp only [State.emit, State.setCounts, State.modNode,
            List.countP_append, List.countP_singleton, Obs.repays, Op.repays,
            Op.releases, Bool.and_eq_true, decide_eq_true_eq]
          exact Nat.le_refl _
  | releaseE2eEntry nid network key other =>
      refine .inl ?_
      rw [phase.repaid_log within (by simp) vn req]
      cases phase with
      | quiet quiet =>
          cases quiet
          exact Nat.le_add_right _ _
      | releaseE2eEntry on => exact Nat.le_refl _
  | handle msg =>
      have log := phase.repaid_log within (by simp) vn req
      rw [log]
      have none_before : (Op.handle msg).repays vn req = 0 := rfl
      rcases phase.handle_repays running vn req with
        nothing | ⟨one, earned⟩
      · exact .inl (by omega)
      · exact .inr ⟨by omega, earned⟩
  | sendAck msg type fail =>
      have log := phase.repaid_log within (by simp) vn req
      rw [log]
      have none_before : (Op.sendAck msg type fail).repays vn req = 0 := rfl
      have request : (s.msgs msg).type.isRequest = true := by
        rcases opShaped.2.1 with put | atomic
        · rw [put]
          rfl
        · rw [atomic]
          rfl
      rcases phase.sendAck_repays request vn req with
        nothing | ⟨one, earned⟩
      · exact .inl (by omega)
      · exact .inr ⟨by omega, earned⟩
  | _ =>
      refine .inl ?_
      rw [phase.repaid_log within (by simp) vn req]
      have none_new : opsWeight (Op.repays vn req) new = 0 := by
        apply opsWeight_repays
        intro added member
        cases releases : added.releases with
        | none => rfl
        | some args =>
            rcases (phase.follows added member).releases releases with
              same | ⟨msg, same⟩ | ⟨msg, type, fail, same⟩
            · cases same
            · cases same
            · cases same
      rw [none_new]
      exact Nat.le_add_right _ _

/-! ## Runs -/

theorem ProcessState.eq_finished {state : ProcessState}
    (least : .finished ≤ state) : state = .finished := by
  cases state with
  | finished => rfl
  | _ => exact absurd least (by decide)

/-- No credits are given back before they are earned: those of a request with
its answers, and those of an answer once its request is `FINISHED`. -/
structure Repaying (s : State) : Prop where
  requests : ∀ vn req, vn.isRequest = true →
    s.repaid vn req ≤ s.log.count (.answered req)
  responses : ∀ vn req, vn.isRequest = false →
    s.repaid vn req ≤
      if (s.reqs req).processState = .finished then 1 else 0

/-- What is not allocated has nothing to give back. -/
theorem WellScoped.repaid_fresh (wellScoped : WellScoped s) (vn : Vn)
    (fresh : s.nextReq ≤ req) : s.repaid vn req = 0 := by
  have log : s.log.countP (Obs.repays vn req) = 0 := by
    rw [List.countP_eq_zero]
    intro obs member repays
    have within := wellScoped.tables.log obs member
    cases obs with
    | credit nid network key other =>
        have own : network = vn ∧ other = req := by
          simpa [Obs.repays] using repays
        rw [own.2] at within
        exact absurd fresh (not_le.mpr within)
    | _ => cases repays
  have ops : pending (Op.repays vn req) s.threads = 0 := by
    apply pending_eq_zero
    intro thread member op pends
    have within := wellScoped.ops thread member op pends
    cases op with
    | releaseE2eEntry nid network key other =>
        apply if_neg
        rintro ⟨_, rfl⟩
        exact absurd fresh (not_le.mpr within)
    | releaseCounts nid network key other =>
        apply if_neg
        rintro ⟨_, rfl⟩
        exact absurd fresh (not_le.mpr within)
    | _ => rfl
  unfold State.repaid
  omega

theorem Repaying.start {mid : State} {index : ThreadId} {new : List Op}
    (repaying : Repaying s) (wellScoped : WellScoped s)
    (found : s.threads[index]? = some ⟨self, []⟩)
    (begins : Begins s mid new) :
    Repaying { mid with threads := s.threads.set index ⟨self, new⟩ } := by
  have kept : ∀ vn req, State.repaid { mid with
      threads := s.threads.set index ⟨self, new⟩ } vn req =
        s.repaid vn req := by
    intro vn req
    have weights := @pending_start _ _ (Op.repays vn req) (Op.repays vn req)
      _ _ _ found new fun _ _ _ _ => rfl
    have none_new : opsWeight (Op.repays vn req) new = 0 := by
      apply opsWeight_repays
      intro op member
      have opens := begins.opens op member
      cases op <;> first | rfl | cases opens
    unfold State.repaid
    dsimp only
    rw [begins.log]
    omega
  constructor
  · intro vn req request
    rw [kept, begins.log]
    exact repaying.requests vn req request
  · intro vn req response
    rw [kept]
    by_cases old : req < s.nextReq
    · dsimp only
      rw [begins.processState req old]
      exact repaying.responses vn req response
    · rw [wellScoped.repaid_fresh vn (not_lt.mp old)]
      exact Nat.zero_le _

theorem Repaying.run {index : ThreadId} {op : Op} {rest new : List Op}
    (repaying : Repaying s) (wellScoped : WellScoped s) (shaped : Shaped sys s)
    (found : s.threads[index]? = some ⟨self, op :: rest⟩)
    (phase : Phase sys self s op after new) (running : after.halted = none) :
    Repaying { after with
      threads := s.threads.set index ⟨self, new ++ rest⟩ } := by
  have member := List.mem_of_getElem? found
  have within := wellScoped.ops _ member op List.mem_cons_self
  have opShaped := shaped.ops _ member op List.mem_cons_self
  have law : ∀ vn req, State.repaid { after with
      threads := s.threads.set index ⟨self, new ++ rest⟩ } vn req ≤
        s.repaid vn req ∨
      State.repaid { after with
        threads := s.threads.set index ⟨self, new ++ rest⟩ } vn req =
          s.repaid vn req + 1 ∧ Earned s after vn req := by
    intro vn req
    have weights := @pending_run _ _ (Op.repays vn req) (Op.repays vn req)
      _ _ _ _ _ found new fun _ _ _ _ => rfl
    have step := phase.repays within opShaped running vn req
    dsimp only at step
    unfold State.repaid
    dsimp only
    rcases step with less | ⟨more, earned⟩
    · exact .inl (by omega)
    · exact .inr ⟨by omega, earned⟩
  constructor
  · intro vn req request
    have before := repaying.requests vn req request
    obtain ⟨extra, log, _⟩ := phase.emits within
    have grown : s.log.count (.answered req) ≤
        after.log.count (.answered req) := by
      rw [log, List.count_append]
      exact Nat.le_add_right _ _
    rcases law vn req with less | ⟨more, earned⟩
    · exact less.trans (before.trans grown)
    · rw [Earned, if_pos request] at earned
      dsimp only at more ⊢
      omega
  · intro vn req response
    have before := repaying.responses vn req response
    rcases law vn req with less | ⟨more, earned⟩
    · refine less.trans (before.trans ?_)
      split
      · rename_i finished
        have least := (phase.progress within req).state
        rw [finished] at least
        have same : (after.reqs req).processState = .finished :=
          ProcessState.eq_finished least
        rw [if_pos same]
      · exact Nat.zero_le _
    · rw [Earned, if_neg (by simp [response])] at earned
      rw [if_neg earned.1] at before
      rw [if_pos earned.2]
      omega

/-- A pair of a message and its request gives its credits back once at most. -/
theorem ReachedBy.repaid_le_one {allowed : State → Label → Prop}
    (undisturbed : ∀ s label, allowed s label → Undisturbed sys s label)
    (single : ∀ s label, allowed s label → Unrepeated sys s label)
    (reached : ReachedBy sys allowed s) (running : s.halted = none) (vn : Vn)
    (req : ReqId) : s.repaid vn req ≤ 1 := by
  have repaying : Repaying s := by
    refine ReachedBy.always reached running ?_ ?_ ?_
    · have start : Reachable sys (initial sys) := .refl
      have none_yet := fun vn req =>
        (ReachedBy.wellScoped start).repaid_fresh vn (Nat.zero_le req)
      constructor
      · intro vn req request
        rw [none_yet]
        exact Nat.zero_le _
      · intro vn req response
        rw [none_yet]
        exact Nat.zero_le _
    · intro s mid label index self new earlier _ repaying _ found begins _ _ _
      exact repaying.start (ReachedBy.wellScoped earlier) found begins
    · intro s after index self op rest new earlier _ repaying _ found phase
        running
      exact repaying.run (ReachedBy.wellScoped earlier)
        (ReachedBy.shaped earlier) found phase running
  cases request : vn.isRequest with
  | true =>
      have answered := repaying.requests vn req request
      have once := ReachedBy.answers_le_one undisturbed single reached running
        req
      unfold State.answers at once
      omega
  | false =>
      have finished := repaying.responses vn req request
      split at finished <;> omega

/-! ## Loans -/

end Steps

/-- The credits which `check_flowctrl` takes for a message. -/
structure Loan where
  nid : Nid
  vn : Vn
  key : FlowctrlProcessId
  req : ReqId
  deriving DecidableEq

def Obs.borrowed : Obs → Option Loan
  | .debit nid vn key req => some ⟨nid, vn, key, req⟩
  | _ => none

def Obs.givenBack : Obs → Option Loan
  | .credit nid vn key req => some ⟨nid, vn, key, req⟩
  | _ => none

/-- Whether a loan uses a counter of a node. -/
def Loan.uses (nid : Nid) (vn : Vn) (level : FlowctrlLevel) (loan : Loan) :
    Bool :=
  loan.nid = nid ∧ loan.vn = vn ∧ level.covers loan.key

theorem count_borrowed (log : List Obs) (nid : Nid) (vn : Vn)
    (level : FlowctrlLevel) :
    (log.filterMap (Obs.creditEvent nid vn level)).count .acquire =
      (log.filterMap Obs.borrowed).countP (Loan.uses nid vn level) := by
  induction log with
  | nil => rfl
  | cons obs log ih =>
      rw [List.filterMap_cons, List.filterMap_cons]
      cases obs with
      | debit node network key req =>
          by_cases uses : node = nid ∧ network = vn ∧ level.covers key = true
          · simp [Obs.creditEvent, Obs.borrowed, Loan.uses, uses, ih]
          · simp [Obs.creditEvent, Obs.borrowed, Loan.uses, uses, ih]
      | credit node network key req =>
          by_cases uses : node = nid ∧ network = vn ∧ level.covers key = true
          · simp [Obs.creditEvent, Obs.borrowed, uses, ih]
          · simp [Obs.creditEvent, Obs.borrowed, uses, ih]
      | _ => exact ih

theorem count_givenBack (log : List Obs) (nid : Nid) (vn : Vn)
    (level : FlowctrlLevel) :
    (log.filterMap (Obs.creditEvent nid vn level)).count .release =
      (log.filterMap Obs.givenBack).countP (Loan.uses nid vn level) := by
  induction log with
  | nil => rfl
  | cons obs log ih =>
      rw [List.filterMap_cons, List.filterMap_cons]
      cases obs with
      | debit node network key req =>
          by_cases uses : node = nid ∧ network = vn ∧ level.covers key = true
          · simp [Obs.creditEvent, Obs.givenBack, uses, ih]
          · simp [Obs.creditEvent, Obs.givenBack, uses, ih]
      | credit node network key req =>
          by_cases uses : node = nid ∧ network = vn ∧ level.covers key = true
          · simp [Obs.creditEvent, Obs.givenBack, Loan.uses, uses, ih]
          · simp [Obs.creditEvent, Obs.givenBack, Loan.uses, uses, ih]
      | _ => exact ih

theorem count_givenBack_le (log : List Obs) (loan : Loan) :
    (log.filterMap Obs.givenBack).count loan ≤
      log.countP (Obs.repays loan.vn loan.req) := by
  induction log with
  | nil => exact Nat.le_refl _
  | cons obs log ih =>
      rw [List.filterMap_cons, List.countP_cons]
      cases obs with
      | credit nid vn key req =>
          by_cases own : Loan.mk nid vn key req = loan
          · subst own
            simpa [Obs.givenBack, Obs.repays] using ih
          · refine Nat.le_trans ?_ (Nat.le_add_right _ _)
            simpa [Obs.givenBack, own] using ih
      | _ => exact ih

/-- The panics of `check_flowctrl` and `release_e2e_entry`. -/
def Panic.ofCredits : Panic → Bool
  | .negativeNodeCredits | .negativeProcessCredits
  | .missingNodeCounter | .missingProcessCounter
  | .nodeCapacity | .processCapacity => true
  | _ => false

/-- Those of `check_flowctrl`. -/
def Panic.overdrawn : Panic → Bool
  | .negativeNodeCredits | .negativeProcessCredits => true
  | _ => false

namespace BxiNode

theorem releaseLevel_overdrawn {maxInflight : Int}
    {missing capacity reason : Panic} {count : Option Int}
    (panicked : (releaseLevel maxInflight missing capacity count).1 =
      some reason) : reason = missing ∨ reason = capacity := by
  unfold releaseLevel at panicked
  split at panicked
  · cases panicked
  · cases count with
    | none => exact .inl (Option.some.inj panicked).symm
    | some credits =>
        dsimp only at panicked
        split at panicked
        · cases panicked
        · exact .inr (Option.some.inj panicked).symm

theorem releaseCredits_overdrawn {cfg : Config} {node : BxiNode} {vn : Vn}
    {key : FlowctrlProcessId} {reason : Panic}
    (panicked : (node.releaseCredits cfg vn key).1 = some reason) :
    reason.overdrawn = false := by
  unfold releaseCredits at panicked
  dsimp only at panicked
  split at panicked
  · rename_i failed
    cases panicked
    rcases releaseLevel_overdrawn failed with rfl | rfl <;> rfl
  · rcases releaseLevel_overdrawn panicked with rfl | rfl <;> rfl

theorem releaseLevel_full {maxInflight : Int} {missing capacity reason : Panic}
    {count : Option Int}
    (panicked : (releaseLevel maxInflight missing capacity count).1 =
      some reason) :
    maxInflight ≠ 0 ∧ maxInflight ≤ count.getD maxInflight := by
  unfold releaseLevel at panicked
  by_cases off : maxInflight = 0
  · rw [if_pos off] at panicked
    cases panicked
  · refine ⟨off, ?_⟩
    rw [if_neg off] at panicked
    cases count with
    | none => exact le_refl _
    | some credits =>
        by_contra below
        have room : credits + 1 ≤ maxInflight := not_le.mp below
        simp [room] at panicked

/-- A release which panics found a counter of the message full. -/
theorem releaseCredits_full {cfg : Config} {node : BxiNode} {vn : Vn}
    {key : FlowctrlProcessId} {reason : Panic}
    (panicked : (node.releaseCredits cfg vn key).1 = some reason) :
    ∃ level : FlowctrlLevel, level.covers key = true ∧
      level.maxInflight cfg ≠ 0 ∧
      level.maxInflight cfg ≤ node.credits cfg vn level := by
  unfold releaseCredits at panicked
  dsimp only at panicked
  split at panicked
  · rename_i failed
    refine ⟨.target key.dstNid, ?_, releaseLevel_full failed⟩
    simp [FlowctrlLevel.covers]
  · refine ⟨.process key, ?_, releaseLevel_full panicked⟩
    simp [FlowctrlLevel.covers]

end BxiNode

section Steps

variable {sys : Sys} {self : Actor} {s after : State}

/-- The credits which a pending release is about to give back were taken. -/
theorem ReachedBy.release_debited {allowed : State → Label → Prop}
    (reached : ReachedBy sys allowed s) {thread : Thread Actor Op}
    (member : thread ∈ s.threads) {nid : Nid} {vn : Vn}
    {key : FlowctrlProcessId} {req : ReqId}
    (pends : Op.releaseCounts nid vn key req ∈ thread.ops) :
    Obs.debit nid vn key req ∈ s.log := by
  obtain ⟨acked, acknowledges⟩ :=
    ReachedBy.releasing reached thread member _ pends nid vn key req rfl
  have on := ReachedBy.enabled reached thread member _ pends nid vn key req rfl
  have debited := acknowledges.charged acknowledges.type
    (acknowledges.initiator ▸ on)
  rw [acknowledges.initiator, acknowledges.vn, acknowledges.key,
    acknowledges.req] at debited
  exact debited

/-- So were all those which have been given back. -/
theorem ReachedBy.credit_debited {allowed : State → Label → Prop}
    (reached : ReachedBy sys allowed s) (running : s.halted = none)
    {nid : Nid} {vn : Vn} {key : FlowctrlProcessId} {req : ReqId}
    (credited : Obs.credit nid vn key req ∈ s.log) :
    Obs.debit nid vn key req ∈ s.log := by
  let Debited (s : State) : Prop := Obs.credit nid vn key req ∈ s.log →
    Obs.debit nid vn key req ∈ s.log
  have debited : Debited s := by
    refine ReachedBy.always reached running ?_ ?_ ?_
    · intro credited
      cases credited
    · intro s mid label index self new _ _ debited _ _ begins _ _ _ credited
      dsimp only at credited ⊢
      rw [begins.log] at credited ⊢
      exact debited credited
    · intro s after index self op rest new earlier _ debited _ found phase _
        credited
      have member := List.mem_of_getElem? found
      obtain ⟨extra, log, emitted⟩ := phase.emits
        ((ReachedBy.wellScoped earlier).ops _ member op List.mem_cons_self)
      dsimp only at credited ⊢
      rw [log] at credited ⊢
      apply List.mem_append_left
      rcases List.mem_append.mp credited with old | added
      · exact debited old
      · cases emitted _ added
        exact ReachedBy.release_debited earlier member List.mem_cons_self
  exact debited credited

/-- A counter from which a pending release takes a message is not full. -/
theorem ReachedBy.release_below {allowed : State → Label → Prop}
    (undisturbed : ∀ s label, allowed s label → Undisturbed sys s label)
    (single : ∀ s label, allowed s label → Unrepeated sys s label)
    (reached : ReachedBy sys allowed s) (running : s.halted = none)
    {thread : Thread Actor Op} (member : thread ∈ s.threads) {nid : Nid}
    {vn : Vn} {key : FlowctrlProcessId} {req : ReqId}
    (pends : Op.releaseCounts nid vn key req ∈ thread.ops)
    {level : FlowctrlLevel} (covers : level.covers key = true)
    (enabled : 0 < level.maxInflight sys.cfg) :
    (s.nodes nid).credits sys.cfg vn level < level.maxInflight sys.cfg := by
  let due : Loan := ⟨nid, vn, key, req⟩
  let repaid : List Loan := due :: s.log.filterMap Obs.givenBack
  have distinct : repaid.Nodup := by
    rw [List.nodup_iff_count_le_one]
    intro loan
    have once := ReachedBy.repaid_le_one undisturbed single reached running
      loan.vn loan.req
    have logged := count_givenBack_le s.log loan
    unfold State.repaid at once
    rw [List.count_cons]
    by_cases own : due = loan
    · subst own
      have weighs : (Op.releaseCounts nid vn key req).repays vn req = 1 :=
        if_pos ⟨rfl, rfl⟩
      have still := @weight_le_pending _ _ (Op.repays vn req) _ _ _ member pends
      rw [weighs] at still
      simp only [beq_self_eq_true, if_true]
      dsimp only [due] at logged once ⊢
      omega
    · rw [if_neg (by simpa using own)]
      omega
  have taken : repaid ⊆ s.log.filterMap Obs.borrowed := by
    intro loan found
    rw [List.mem_filterMap]
    rcases List.mem_cons.mp found with rfl | returned
    · exact ⟨_, ReachedBy.release_debited reached member pends, rfl⟩
    · obtain ⟨obs, logged, own⟩ := List.mem_filterMap.mp returned
      cases obs with
      | credit nid vn key req =>
          cases own
          exact ⟨_, ReachedBy.credit_debited reached running logged, rfl⟩
      | _ => cases own
  have fewer := (List.subperm_of_subset distinct taken).countP_le
    (Loan.uses nid vn level)
  have uses : due.uses nid vn level = true := by
    simp [Loan.uses, due, covers]
  rw [List.countP_cons_of_pos uses, ← count_borrowed,
    ← count_givenBack] at fewer
  obtain ⟨told, _⟩ :=
    (ReachedBy.metered reached running).credits nid vn level enabled
  rw [told, SemaphoreEvent.value_eq_counts]
  unfold State.creditEvents
  omega

/-! ## Panics of flow control -/

/-- The configurations in which no maximum is negative. -/
def Config.Credited (cfg : Config) : Prop :=
  0 ≤ cfg.maxInflightToTarget ∧ 0 ≤ cfg.maxInflightToProcess

instance (cfg : Config) : Decidable cfg.Credited :=
  inferInstanceAs (Decidable (_ ∧ _))

theorem Config.Credited.positive {cfg : Config} (credited : cfg.Credited)
    {level : FlowctrlLevel} (enabled : level.maxInflight cfg ≠ 0) :
    0 < level.maxInflight cfg := by
  apply lt_of_le_of_ne _ enabled.symm
  cases level with
  | target nid => exact credited.1
  | process key => exact credited.2

/-- No counter is ever negative. -/
theorem ReachedBy.covered {allowed : State → Label → Prop}
    (credited : sys.cfg.Credited) (reached : ReachedBy sys allowed s)
    (running : s.halted = none) (nid : Nid) (vn : Vn) {level : FlowctrlLevel}
    (enabled : level.maxInflight sys.cfg ≠ 0) :
    0 ≤ (s.nodes nid).credits sys.cfg vn level := by
  obtain ⟨told, regular⟩ := (ReachedBy.metered reached running).credits nid vn
    level (credited.positive enabled)
  rw [told]
  exact regular.now.1

/-- No run ends with a panic of `check_flowctrl`. -/
theorem checks_never_panic (credited : sys.cfg.Credited)
    (reachable : Reachable sys s) {reason : Panic}
    (broke : reason.overdrawn = true) :
    s.halted ≠ some (.panic reason) := by
  intro halted
  rcases ReachedBy.stopped reachable halted with ⟨ptr, same⟩ |
    ⟨call, stops⟩ | ⟨before, index, self, op, rest, earlier, running, found,
      stops⟩
  · cases same
  · cases stops
    cases broke
  · cases stops with
    | @checked msg _ panicked =>
        obtain ⟨level, enabled, negative⟩ :=
          BxiNode.checkCredits_negative panicked
        have covered := ReachedBy.covered credited earlier running self.nid
          (before.vnOf msg) enabled
        exact absurd negative (not_lt.mpr covered)
    | released panicked =>
        rw [BxiNode.releaseCredits_overdrawn panicked] at broke
        cases broke
    | _ => cases broke

end Steps

theorem acknowledged_put_never_panics :
    ∃ s, Reachable (twoNodes { maxInflightToTarget := 1
                               maxInflightToProcess := 1 }
        { e2eOff := false }) s ∧
      s.log.countP (Obs.repays .computeRequest 0) = 1 ∧
      s.halted ≠ some (.panic .negativeNodeCredits) := by
  obtain ⟨s, reachable, holds⟩ := reachable_of_executes
    (twoNodes { maxInflightToTarget := 1, maxInflightToProcess := 1 }
      { e2eOff := false }) acknowledgedPut
    (fun s => s.log.countP (Obs.repays .computeRequest 0) == 1)
    (by decide +kernel)
  exact ⟨s, reachable, beq_iff_eq.mp holds,
    checks_never_panic (by decide) reachable rfl⟩

end S4BXI
