import S4BXI.Lib.Semaphore
import S4BXI.Flow.Releases

/-!
# Flow-control counters as semaphores

Each counter of `check_flowctrl` is a semaphore whose capacity and ceiling are
the configured maximum, and the entries of the E2E circuit are one without a
ceiling.  The log of a run is the history of all of them.
-/

namespace S4BXI

open Lib

/-- A counter of a node for one network: for a target node, or for a pair of
processes. -/
inductive FlowctrlLevel where
  | target (nid : Nid)
  | process (key : FlowctrlProcessId)
  deriving DecidableEq

namespace FlowctrlLevel

/-- Whether a message with the given key uses the counter. -/
def covers : FlowctrlLevel → FlowctrlProcessId → Bool
  | .target nid, key => key.dstNid == nid
  | .process own, key => key == own

def maxInflight (cfg : Config) : FlowctrlLevel → Int
  | .target _ => cfg.maxInflightToTarget
  | .process _ => cfg.maxInflightToProcess

end FlowctrlLevel

/-- The credits of a counter, which is created with all of them. -/
def BxiNode.credits (cfg : Config) (node : BxiNode) (vn : Vn) :
    FlowctrlLevel → Int
  | .target nid => (node.flowctrlNodeCounts vn nid).getD cfg.maxInflightToTarget
  | .process key =>
      (node.flowctrlProcessCounts vn key).getD cfg.maxInflightToProcess

/-- What an entry of the log is for a counter. -/
def Obs.creditEvent (nid : Nid) (vn : Vn) (level : FlowctrlLevel) :
    Obs → Option SemaphoreEvent
  | .debit node network key _ =>
      if node = nid ∧ network = vn ∧ level.covers key then some .acquire
      else none
  | .credit node network key _ =>
      if node = nid ∧ network = vn ∧ level.covers key then some .release
      else none
  | _ => none

/-- What an entry of the log is for the E2E entries of a node. -/
def Obs.entryEvent (nid : Nid) : Obs → Option SemaphoreEvent
  | .e2eAcquire node _ _ => if node = nid then some .acquire else none
  | .e2eRelease node _ _ => if node = nid then some .release else none
  | _ => none

namespace State

/-- The history of a counter. -/
def creditEvents (s : State) (nid : Nid) (vn : Vn) (level : FlowctrlLevel) :
    List SemaphoreEvent :=
  s.log.filterMap (Obs.creditEvent nid vn level)

/-- The history of the E2E entries of a node. -/
def entryEvents (s : State) (nid : Nid) : List SemaphoreEvent :=
  s.log.filterMap (Obs.entryEvent nid)

end State

/-! ## One level -/

theorem checkLevel_getD (maxInflight : Int) (negative : Panic)
    (count : Option Int) :
    (checkLevel maxInflight negative count).2.getD maxInflight =
      count.getD maxInflight := by
  unfold checkLevel
  split <;> rfl

theorem checkLevel_granted {maxInflight : Int} {negative : Panic}
    {count : Option Int} (on : maxInflight ≠ 0)
    (granted : (checkLevel maxInflight negative count).1 = .granted) :
    (debitLevel maxInflight (checkLevel maxInflight negative count).2).getD
        maxInflight = count.getD maxInflight - 1 ∧
      0 < count.getD maxInflight := by
  unfold checkLevel at granted ⊢
  rw [if_neg on] at granted ⊢
  refine ⟨by simp [debitLevel, on], ?_⟩
  dsimp only at granted
  by_cases below : count.getD maxInflight < 0
  · simp [below] at granted
  · by_cases zero : count.getD maxInflight = 0
    · simp [zero] at granted
    · omega

theorem checkLevel_negative {maxInflight : Int} {negative reason : Panic}
    {count : Option Int}
    (panicked : (checkLevel maxInflight negative count).1 = .panicked reason) :
    maxInflight ≠ 0 ∧ count.getD maxInflight < 0 := by
  unfold checkLevel at panicked
  by_cases off : maxInflight = 0
  · simp [off] at panicked
  · refine ⟨off, ?_⟩
    rw [if_neg off] at panicked
    dsimp only at panicked
    by_contra positive
    rw [if_neg positive] at panicked
    split at panicked <;> cases panicked

theorem releaseLevel_released {maxInflight : Int} {missing capacity : Panic}
    {count : Option Int} (on : maxInflight ≠ 0)
    (released : (releaseLevel maxInflight missing capacity count).1 = none) :
    (releaseLevel maxInflight missing capacity count).2.getD maxInflight =
        count.getD maxInflight + 1 ∧
      count.getD maxInflight + 1 ≤ maxInflight := by
  unfold releaseLevel at released ⊢
  rw [if_neg on] at released ⊢
  cases count with
  | none => cases released
  | some credits =>
      refine ⟨rfl, ?_⟩
      dsimp only [Option.getD_some] at released ⊢
      by_contra excess
      simp [excess] at released

/-! ## Both levels -/

namespace BxiNode

variable {cfg : Config} {node after : BxiNode} {vn : Vn}
  {key : FlowctrlProcessId} {level : FlowctrlLevel} (network : Vn)

theorem credits_congr
    (target : after.flowctrlNodeCounts = node.flowctrlNodeCounts)
    (process : after.flowctrlProcessCounts = node.flowctrlProcessCounts) :
    after.credits cfg vn level = node.credits cfg vn level := by
  cases level with
  | target nid =>
      unfold credits
      rw [target]
  | process key =>
      unfold credits
      rw [process]

theorem credits_setNodeCount (node : BxiNode) (vn : Vn) (target : Nid)
    (count : Option Int) :
    (node.setNodeCount vn target count).credits cfg network level =
      if network = vn ∧ level = .target target then
        count.getD cfg.maxInflightToTarget
      else
        node.credits cfg network level := by
  cases level with
  | process key => simp [credits, setNodeCount]
  | target nid =>
      simp only [credits, setNodeCount, Function.update_apply]
      by_cases network' : network = vn
      · subst network'
        by_cases here : nid = target
        · subst here
          simp
        · simp [here]
      · simp [network']

theorem credits_setProcessCount (node : BxiNode) (vn : Vn)
    (key : FlowctrlProcessId) (count : Option Int) :
    (node.setProcessCount vn key count).credits cfg network level =
      if network = vn ∧ level = .process key then
        count.getD cfg.maxInflightToProcess
      else
        node.credits cfg network level := by
  cases level with
  | target nid => simp [credits, setProcessCount]
  | process other =>
      simp only [credits, setProcessCount, Function.update_apply]
      by_cases network' : network = vn
      · subst network'
        by_cases here : other = key
        · subst here
          simp
        · simp [here]
      · simp [network']

theorem covers_iff : level.covers key = true ↔
    level = .target key.dstNid ∨ level = .process key := by
  cases level with
  | target nid =>
      simp only [FlowctrlLevel.covers, beq_iff_eq, FlowctrlLevel.target.injEq,
        reduceCtorEq, or_false]
      exact eq_comm
  | process own =>
      simp only [FlowctrlLevel.covers, beq_iff_eq,
        FlowctrlLevel.process.injEq, reduceCtorEq, false_or]
      exact eq_comm

/-- `check_flowctrl` takes a credit of each counter of the message, none of
which was empty. -/
theorem checkCredits_granted (on : level.maxInflight cfg ≠ 0)
    (checked : node.checkCredits cfg vn key = (.granted, after)) :
    after.credits cfg network level = node.credits cfg network level -
        (if network = vn ∧ level.covers key = true then 1 else 0) ∧
      (level.covers key = true → 0 < node.credits cfg vn level) := by
  unfold checkCredits at checked
  dsimp only at checked
  split at checked
  case h_2 refused => exact absurd (congrArg Prod.fst checked) refused
  case h_1 first =>
    split at checked
    case h_2 refused => exact absurd (congrArg Prod.fst checked) refused
    case h_1 second =>
      cases checked
      simp only [credits_setProcessCount, credits_setNodeCount, covers_iff]
      cases level with
      | target nid =>
          have counts : cfg.maxInflightToTarget ≠ 0 := on
          obtain ⟨fewer, positive⟩ := checkLevel_granted counts first
          simp only [FlowctrlLevel.target.injEq, reduceCtorEq, or_false,
            and_false, if_false, fewer]
          constructor
          · by_cases here : network = vn ∧ nid = key.dstNid
            · obtain ⟨rfl, rfl⟩ := here
              simp [credits]
            · simp [here]
          · rintro rfl
            exact positive
      | process own =>
          have counts : cfg.maxInflightToProcess ≠ 0 := on
          obtain ⟨fewer, positive⟩ := checkLevel_granted counts second
          simp only [FlowctrlLevel.process.injEq, reduceCtorEq, false_or,
            and_false, if_false, fewer]
          constructor
          · by_cases here : network = vn ∧ own = key
            · obtain ⟨rfl, rfl⟩ := here
              simp [credits, setNodeCount]
            · simp [here]
          · rintro rfl
            exact positive

/-- A message which is refused costs nothing. -/
theorem checkCredits_refused (refused : (node.checkCredits cfg vn key).1 ≠
      .granted) :
    (node.checkCredits cfg vn key).2.credits cfg network level =
      node.credits cfg network level := by
  unfold checkCredits at refused ⊢
  dsimp only at refused ⊢
  have first : ∀ level, (node.setNodeCount vn key.dstNid
      (checkLevel cfg.maxInflightToTarget .negativeNodeCredits
        (node.flowctrlNodeCounts vn key.dstNid)).2).credits cfg network level =
      node.credits cfg network level := by
    intro level
    rw [credits_setNodeCount, checkLevel_getD]
    split
    · rename_i here
      rw [here.1, here.2]
      rfl
    · rfl
  split at refused
  case h_2 => exact first level
  case h_1 =>
    split at refused
    case h_1 => exact absurd rfl refused
    case h_2 =>
      dsimp only
      rw [credits_setProcessCount, checkLevel_getD, first]
      split
      · rename_i here
        rw [here.1, here.2]
        rfl
      · rfl

/-- `release_e2e_entry` gives a credit back to each counter of the message, none
of which was full. -/
theorem releaseCredits_released (on : level.maxInflight cfg ≠ 0)
    (released : node.releaseCredits cfg vn key = (none, after)) :
    after.credits cfg network level = node.credits cfg network level +
        (if network = vn ∧ level.covers key = true then 1 else 0) ∧
      (level.covers key = true →
        node.credits cfg vn level < level.maxInflight cfg) := by
  unfold releaseCredits at released
  dsimp only at released
  split at released
  case h_1 => cases released
  case h_2 first =>
    obtain ⟨second, rfl⟩ := Prod.ext_iff.mp released
    dsimp only at second ⊢
    simp only [credits_setProcessCount, credits_setNodeCount, covers_iff]
    cases level with
    | target nid =>
        have counts : cfg.maxInflightToTarget ≠ 0 := on
        obtain ⟨more, below⟩ := releaseLevel_released counts first
        simp only [FlowctrlLevel.target.injEq, reduceCtorEq, or_false,
          and_false, if_false, more]
        constructor
        · by_cases here : network = vn ∧ nid = key.dstNid
          · obtain ⟨rfl, rfl⟩ := here
            simp [credits]
          · simp [here]
        · rintro rfl
          exact Int.lt_of_add_one_le below
    | process own =>
        have counts : cfg.maxInflightToProcess ≠ 0 := on
        obtain ⟨more, below⟩ := releaseLevel_released counts second
        simp only [FlowctrlLevel.process.injEq, reduceCtorEq, false_or,
          and_false, if_false, more]
        constructor
        · by_cases here : network = vn ∧ own = key
          · obtain ⟨rfl, rfl⟩ := here
            simp [credits, setNodeCount]
          · simp [here]
        · rintro rfl
          exact Int.lt_of_add_one_le below

/-- A check which panics found a counter of the message negative. -/
theorem checkCredits_negative {reason : Panic}
    (panicked : (node.checkCredits cfg vn key).1 = .panicked reason) :
    ∃ level : FlowctrlLevel, level.maxInflight cfg ≠ 0 ∧
      node.credits cfg vn level < 0 := by
  unfold checkCredits at panicked
  dsimp only at panicked
  split at panicked
  · split at panicked
    · cases panicked
    · exact ⟨.process key, checkLevel_negative panicked⟩
  · exact ⟨.target key.dstNid, checkLevel_negative panicked⟩

end BxiNode

/-! ## Operations -/

section Steps

variable {sys : Sys} {self : Actor} {s after : State}

/-- What a node keeps when it changes and the others do not. -/
theorem nodes_update_kept {Part : Type} (part : BxiNode → Part) {nid : Nid}
    {node : BxiNode} (nodes : after.nodes = Function.update s.nodes nid node)
    (same : part node = part (s.nodes nid)) (other : Nid) :
    part (after.nodes other) = part (s.nodes other) := by
  rw [nodes, Function.update_apply]
  split
  · rename_i here
    rw [here, same]
  · rfl

/-- The flow-control counters of a node. -/
def BxiNode.counters (node : BxiNode) :
    (Vn → Nid → Option Int) × (Vn → FlowctrlProcessId → Option Int) :=
  (node.flowctrlNodeCounts, node.flowctrlProcessCounts)

theorem BxiNode.credits_of_counters {cfg : Config} {node later : BxiNode}
    (same : later.counters = node.counters) (vn : Vn)
    (level : FlowctrlLevel) :
    later.credits cfg vn level = node.credits cfg vn level :=
  credits_congr (congrArg Prod.fst same) (congrArg Prod.snd same)

/-- The operations which use a semaphore of a node. -/
def Op.metered : Op → Bool
  | .processTx _ | .releaseCounts _ _ _ _ | .acquireE2eEntry _
  | .releaseE2eEntry _ _ _ _ => true
  | _ => false

/-- The other operations change neither the counters nor the entries. -/
theorem Phase.meters_kept {op : Op} {new : List Op}
    (phase : Phase sys self s op after new) (free : op.metered = false)
    (nid : Nid) :
    (after.nodes nid).counters = (s.nodes nid).counters ∧
      (after.nodes nid).e2eEntries = (s.nodes nid).e2eEntries := by
  let part (node : BxiNode) := (node.counters, node.e2eEntries)
  suffices part (after.nodes nid) = part (s.nodes nid) from
    ⟨congrArg Prod.fst this, congrArg Prod.snd this⟩
  have same : after.nodes = s.nodes →
      part (after.nodes nid) = part (s.nodes nid) := fun nodes => by
    rw [nodes]
  cases phase with
  | quiet quiet => rfl
  | resumeLoop waiting =>
      refine nodes_update_kept part rfl ?_ nid
      rfl
  | resumePop waiting =>
      refine nodes_update_kept part rfl ?_ nid
      rfl
  | respondUnmatched type fetches fresh absent =>
      exact same (answering_queues s _ _ _).2
  | @matched msg pt list me fail kind effects stop type fresh found memory
      later stops =>
      exact same ((takeEntry_queues _ msg pt list me).2.trans
        (answering_queues s msg fail kind).2)
  | putFinish leaves => exact same leaves.queues.2
  | getFinish memory stops leaves => exact same leaves.queues.2
  | atomicEvents leaves => exact same leaves.queues.2
  | fetchAtomicFinish leaves => exact same leaves.queues.2
  | deferredUnlink flagged unlinks => exact same unlinks.queues.2
  | txPut =>
      refine nodes_update_kept part rfl ?_ nid
      rfl
  | unref equality drops =>
      cases drops
      exact same rfl
  | e2eEnqueue =>
      refine nodes_update_kept part rfl ?_ nid
      rfl
  | gaveUp pending last =>
      refine nodes_update_kept part rfl ?_ nid
      rfl
  | @retransmit msg pending more =>
      unfold S4BXI.retransmit S4BXI.txPut
      dsimp only
      have counted : ∀ other, part ((s.modNode self.nid fun node =>
          { node with e2eRetried := node.e2eRetried + 1 }).nodes other) =
          part (s.nodes other) := by
        intro other
        refine nodes_update_kept part rfl ?_ other
        rfl
      split
      · refine Eq.trans ?_ (counted nid)
        refine nodes_update_kept part rfl ?_ nid
        rfl
      · refine Eq.trans ?_ (counted nid)
        refine nodes_update_kept part rfl ?_ nid
        rfl
  | releaseE2eEntry on => cases free
  | creditPanic released => cases free
  | releaseCounts released => cases free
  | exempt exempted => cases free
  | granted subject checked => cases free
  | refused subject checked => cases free
  | creditsPanic subject checked => cases free
  | acquireE2eEntry left => cases free
  | _ => exact same rfl

/-- The histories of the semaphores only grow by the operations which use them.
-/
theorem Phase.events_kept {op : Op} {new : List Op}
    (phase : Phase sys self s op after new) (within : op.Within s.bounds)
    (free : op.metered = false) :
    (∀ nid vn level, after.creditEvents nid vn level =
        s.creditEvents nid vn level) ∧
      ∀ nid, after.entryEvents nid = s.entryEvents nid := by
  obtain ⟨extra, log, emitted⟩ := phase.emits within
  have silent : ∀ obs ∈ extra, ∀ nid vn level,
      obs.creditEvent nid vn level = none ∧ obs.entryEvent nid = none := by
    intro obs member nid vn level
    cases emitted obs member <;> first | exact ⟨rfl, rfl⟩ | cases free
  constructor
  · intro nid vn level
    have none_new : extra.filterMap (Obs.creditEvent nid vn level) = [] :=
      List.filterMap_eq_nil_iff.mpr fun obs member =>
        (silent obs member nid vn level).1
    simp only [State.creditEvents, log, List.filterMap_append, none_new,
      List.append_nil]
  · intro nid
    have none_new : extra.filterMap (Obs.entryEvent nid) = [] :=
      List.filterMap_eq_nil_iff.mpr fun obs member =>
        (silent obs member nid .serviceRequest (.target 0)).2
    simp only [State.entryEvents, log, List.filterMap_append, none_new,
      List.append_nil]

/-- The entry which an operation logs for a counter. -/
theorem creditEvents_logged (obs : Obs) (grown : after.log = s.log ++ [obs])
    (nid : Nid) (vn : Vn) (level : FlowctrlLevel) :
    after.creditEvents nid vn level = s.creditEvents nid vn level ++
      (obs.creditEvent nid vn level).toList := by
  unfold State.creditEvents
  rw [grown, List.filterMap_append]
  cases told : obs.creditEvent nid vn level <;> simp [told]

/-- The entry which an operation logs for the E2E entries. -/
theorem entryEvents_logged (obs : Obs) (grown : after.log = s.log ++ [obs])
    (nid : Nid) :
    after.entryEvents nid =
      s.entryEvents nid ++ (obs.entryEvent nid).toList := by
  unfold State.entryEvents
  rw [grown, List.filterMap_append]
  cases told : obs.entryEvent nid <;> simp [told]

/-- What a counter covers at a node follows its history, and the other counters
stay. -/
theorem credit_changed (node : Nid) (network : Vn) (covered : Bool)
    (event : SemaphoreEvent) {changed : BxiNode} {nid : Nid} {vn : Vn}
    {level : FlowctrlLevel} {ceiling : Option Int}
    (nodes : after.nodes = Function.update s.nodes node changed)
    (credits : changed.credits sys.cfg vn level =
      (s.nodes node).credits sys.cfg vn level +
        if vn = network ∧ covered = true then event.delta else 0)
    (history : after.creditEvents nid vn level =
      s.creditEvents nid vn level ++ Option.toList
        (if node = nid ∧ network = vn ∧ covered = true then some event
          else none))
    (possible : covered = true → SemaphoreEvent.Operates ceiling
      ((s.nodes node).credits sys.cfg network level)
      ((s.nodes node).credits sys.cfg network level + event.delta)
      (s.creditEvents node network level)
      (s.creditEvents node network level ++ [event])) :
    SemaphoreEvent.Operates ceiling
      ((s.nodes nid).credits sys.cfg vn level)
      ((after.nodes nid).credits sys.cfg vn level)
      (s.creditEvents nid vn level) (after.creditEvents nid vn level) := by
  rw [history, nodes]
  by_cases here : nid = node
  · subst here
    rw [Function.update_self, credits]
    by_cases uses : vn = network ∧ covered = true
    · obtain ⟨rfl, covers⟩ := uses
      simpa [covers] using possible covers
    · have off : ¬(nid = nid ∧ network = vn ∧ covered = true) :=
        fun all => uses ⟨all.2.1.symm, all.2.2⟩
      rw [if_neg uses, if_neg off, Option.toList_none, List.append_nil]
      exact .kept (Int.add_zero _)
  · have off : ¬(node = nid ∧ network = vn ∧ covered = true) :=
      fun all => here all.1.symm
    rw [Function.update_of_ne here, if_neg off, Option.toList_none,
      List.append_nil]
    exact .kept rfl

/-- A release uses the counters of its key. -/
theorem Phase.credit_released {node : Nid} {network : Vn}
    {key : FlowctrlProcessId} {req : ReqId} {new : List Op}
    (phase : Phase sys self s (.releaseCounts node network key req) after new)
    (running : after.halted = none) {nid : Nid} {vn : Vn}
    {level : FlowctrlLevel} (on : level.maxInflight sys.cfg ≠ 0) :
    SemaphoreEvent.Operates (some (level.maxInflight sys.cfg))
      ((s.nodes nid).credits sys.cfg vn level)
      ((after.nodes nid).credits sys.cfg vn level)
      (s.creditEvents nid vn level) (after.creditEvents nid vn level) := by
  cases phase with
  | quiet quiet => cases quiet
  | creditPanic released => cases running
  | @releaseCounts _ _ _ _ nodeCounts processCounts released =>
      obtain ⟨more, below⟩ :=
        BxiNode.releaseCredits_released vn on released
      apply credit_changed node network (level.covers key) .release rfl more
      · exact creditEvents_logged (.credit node network key req) rfl nid vn
          level
      · exact fun covers => .released (by simpa using below covers) rfl

/-- A message which passes `check_flowctrl` uses the counters of its key. -/
theorem Phase.credit_acquired {msg : MsgId} {new : List Op}
    (phase : Phase sys self s (.processTx msg) after new)
    (running : after.halted = none) {nid : Nid} {vn : Vn}
    {level : FlowctrlLevel} (on : level.maxInflight sys.cfg ≠ 0) :
    SemaphoreEvent.Operates (some (level.maxInflight sys.cfg))
      ((s.nodes nid).credits sys.cfg vn level)
      ((after.nodes nid).credits sys.cfg vn level)
      (s.creditEvents nid vn level) (after.creditEvents nid vn level) := by
  cases phase with
  | quiet quiet => cases quiet
  | exempt free => exact .kept rfl
  | creditsPanic subject checked => cases running
  | @refused _ nodeCounts processCounts subject checked =>
      refine .kept ?_
      have same : BxiNode.credits sys.cfg ((s.nodes self.nid).checkCredits
          sys.cfg (s.vnOf msg) (flowctrlKey sys s msg)).2 vn level = _ :=
        BxiNode.checkCredits_refused vn (by simp [checked])
      rw [checked] at same
      by_cases here : nid = self.nid
      · subst here
        rw [← same]
        apply BxiNode.credits_of_counters
        simp only [State.setCounts, State.modNode, Function.update_self]
        unfold BxiNode.park
        split <;> rfl
      · simp [State.setCounts, State.modNode, here]
  | @granted _ nodeCounts processCounts subject checked =>
      obtain ⟨fewer, positive⟩ :=
        BxiNode.checkCredits_granted vn on checked
      apply credit_changed self.nid (s.vnOf msg)
        (level.covers (flowctrlKey sys s msg)) .acquire rfl
      · rw [fewer]
        split
        · rfl
        · rfl
      · exact creditEvents_logged (.debit self.nid (s.vnOf msg)
          (flowctrlKey sys s msg) (s.reqOf msg)) rfl nid vn level
      · exact fun covers => .acquired (positive covers) rfl

/-- What an operation does to a counter. -/
theorem Phase.credit_operates {op : Op} {new : List Op}
    (phase : Phase sys self s op after new) (within : op.Within s.bounds)
    (running : after.halted = none) (nid : Nid) (vn : Vn)
    {level : FlowctrlLevel} (on : level.maxInflight sys.cfg ≠ 0) :
    SemaphoreEvent.Operates (some (level.maxInflight sys.cfg))
      ((s.nodes nid).credits sys.cfg vn level)
      ((after.nodes nid).credits sys.cfg vn level)
      (s.creditEvents nid vn level) (after.creditEvents nid vn level) := by
  have idle : (after.nodes nid).counters = (s.nodes nid).counters →
      after.creditEvents nid vn level = s.creditEvents nid vn level →
      SemaphoreEvent.Operates (some (level.maxInflight sys.cfg))
        ((s.nodes nid).credits sys.cfg vn level)
        ((after.nodes nid).credits sys.cfg vn level)
        (s.creditEvents nid vn level) (after.creditEvents nid vn level) := by
    intro counters events
    rw [events]
    exact .kept (BxiNode.credits_of_counters counters vn level)
  cases metered : op.metered with
  | false =>
      exact idle (phase.meters_kept metered nid).1
        ((phase.events_kept within metered).1 nid vn level)
  | true =>
      cases op with
      | processTx msg => exact phase.credit_acquired running on
      | releaseCounts node network key req =>
          exact phase.credit_released running on
      | acquireE2eEntry msg =>
          refine idle ?_ ?_
          · cases phase with
            | quiet quiet => cases quiet
            | acquireE2eEntry left =>
                refine nodes_update_kept BxiNode.counters rfl ?_ nid
                rfl
          · cases phase with
            | quiet quiet => cases quiet
            | acquireE2eEntry left =>
                exact (creditEvents_logged (.e2eAcquire self.nid (s.vnOf msg)
                  (s.reqOf msg)) rfl nid vn level).trans (List.append_nil _)
      | releaseE2eEntry node network key req =>
          refine idle ?_ ?_
          · cases phase with
            | quiet quiet =>
                cases quiet
                rfl
            | releaseE2eEntry on =>
                refine nodes_update_kept BxiNode.counters rfl ?_ nid
                rfl
          · cases phase with
            | quiet quiet =>
                cases quiet
                rfl
            | releaseE2eEntry on =>
                exact (creditEvents_logged (.e2eRelease node network req) rfl
                  nid vn level).trans (List.append_nil _)
      | _ => cases metered

/-- Whoever keeps the E2E entries of a node and logs nothing about them. -/
theorem entry_kept {nid : Nid}
    (entries : (after.nodes nid).e2eEntries = (s.nodes nid).e2eEntries)
    (events : after.entryEvents nid = s.entryEvents nid) :
    SemaphoreEvent.Operates none (s.nodes nid).e2eEntries
      (after.nodes nid).e2eEntries (s.entryEvents nid)
      (after.entryEvents nid) := by
  rw [events]
  exact .kept entries

/-- The E2E entries of a node follow their history. -/
theorem entry_changed (node : Nid) (event : SemaphoreEvent)
    {changed : BxiNode} {nid : Nid} {ceiling : Option Int}
    (nodes : after.nodes = Function.update s.nodes node changed)
    (entries : changed.e2eEntries = (s.nodes node).e2eEntries + event.delta)
    (history : after.entryEvents nid = s.entryEvents nid ++
      Option.toList (if node = nid then some event else none))
    (possible : SemaphoreEvent.Operates ceiling (s.nodes node).e2eEntries
      ((s.nodes node).e2eEntries + event.delta) (s.entryEvents node)
      (s.entryEvents node ++ [event])) :
    SemaphoreEvent.Operates ceiling (s.nodes nid).e2eEntries
      (after.nodes nid).e2eEntries (s.entryEvents nid)
      (after.entryEvents nid) := by
  rw [history, nodes]
  by_cases here : nid = node
  · subst here
    rw [Function.update_self, entries, if_pos rfl]
    exact possible
  · rw [Function.update_of_ne here, if_neg (Ne.symm here), Option.toList_none,
      List.append_nil]
    exact .kept rfl

/-- What an operation does to the E2E entries of a node. -/
theorem Phase.entry_operates {op : Op} {new : List Op}
    (phase : Phase sys self s op after new) (within : op.Within s.bounds)
    (nid : Nid) :
    SemaphoreEvent.Operates none (s.nodes nid).e2eEntries
      (after.nodes nid).e2eEntries (s.entryEvents nid)
      (after.entryEvents nid) := by
  cases metered : op.metered with
  | false =>
      exact entry_kept (phase.meters_kept metered nid).2
        ((phase.events_kept within metered).2 nid)
  | true =>
      cases op with
      | processTx msg =>
          cases phase with
          | quiet quiet => cases quiet
          | exempt free => exact .kept rfl
          | creditsPanic subject checked =>
              refine entry_kept ?_ rfl
              refine nodes_update_kept BxiNode.e2eEntries rfl ?_ nid
              rfl
          | @granted _ nodeCounts processCounts subject checked =>
              apply entry_kept
              · refine nodes_update_kept BxiNode.e2eEntries rfl ?_ nid
                rfl
              · exact (entryEvents_logged (.debit self.nid (s.vnOf msg)
                  (flowctrlKey sys s msg) (s.reqOf msg)) rfl nid).trans
                    (List.append_nil _)
          | @refused _ nodeCounts processCounts subject checked =>
              refine entry_kept ?_ rfl
              have checks : ((s.setCounts self.nid nodeCounts
                  processCounts).nodes nid).e2eEntries =
                  (s.nodes nid).e2eEntries := by
                refine nodes_update_kept BxiNode.e2eEntries rfl ?_ nid
                rfl
              rw [← checks]
              refine nodes_update_kept BxiNode.e2eEntries rfl ?_ nid
              dsimp only [BxiNode.park]
              split <;> rfl
      | releaseCounts node network key req =>
          have logged : ∀ after : State, after.log =
              s.log ++ [.credit node network key req] →
              after.entryEvents nid = s.entryEvents nid :=
            fun after grown => (entryEvents_logged _ grown nid).trans
              (List.append_nil _)
          cases phase with
          | quiet quiet => cases quiet
          | creditPanic released =>
              refine entry_kept ?_ (logged _ rfl)
              refine nodes_update_kept BxiNode.e2eEntries rfl ?_ nid
              rfl
          | releaseCounts released =>
              refine entry_kept ?_ (logged _ rfl)
              refine nodes_update_kept BxiNode.e2eEntries rfl ?_ nid
              rfl
      | acquireE2eEntry msg =>
          cases phase with
          | quiet quiet => cases quiet
          | acquireE2eEntry left =>
              apply entry_changed self.nid .acquire rfl rfl
              · exact entryEvents_logged (.e2eAcquire self.nid (s.vnOf msg)
                  (s.reqOf msg)) rfl nid
              · exact .acquired (not_le.mp left) rfl
      | releaseE2eEntry node network key req =>
          cases phase with
          | quiet quiet =>
              cases quiet
              exact .kept rfl
          | releaseE2eEntry on =>
              apply entry_changed node .release rfl rfl
              · exact entryEvents_logged (.e2eRelease node network req) rfl nid
              · exact .released (by simp) rfl
      | _ => cases metered

/-! ## Runs -/

/-- The semaphores of a run have the values which its log tells. -/
structure Metered (sys : Sys) (s : State) : Prop where
  credits : ∀ nid vn (level : FlowctrlLevel), 0 < level.maxInflight sys.cfg →
    (s.nodes nid).credits sys.cfg vn level =
        SemaphoreEvent.value (level.maxInflight sys.cfg)
          (s.creditEvents nid vn level) ∧
      SemaphoreEvent.Regular (level.maxInflight sys.cfg)
        (some (level.maxInflight sys.cfg)) (s.creditEvents nid vn level)
  entries : ∀ nid, (s.nodes nid).e2eEntries =
      SemaphoreEvent.value maxE2eEntries (s.entryEvents nid) ∧
    SemaphoreEvent.Regular maxE2eEntries none (s.entryEvents nid)

theorem Metered.initial (sys : Sys) : Metered sys (initial sys) := by
  constructor
  · intro nid vn level positive
    constructor
    · cases level <;> exact (SemaphoreEvent.value_nil _).symm
    · apply SemaphoreEvent.Regular.nil (le_of_lt positive)
      simp
  · intro nid
    refine ⟨(SemaphoreEvent.value_nil _).symm, ?_⟩
    apply SemaphoreEvent.Regular.nil
    · decide
    · simp

/-- Whoever keeps the counters, the entries and the log of a state. -/
theorem Metered.keep (metered : Metered sys s) (log : after.log = s.log)
    (nodes : ∀ nid, (after.nodes nid).counters = (s.nodes nid).counters ∧
      (after.nodes nid).e2eEntries = (s.nodes nid).e2eEntries) :
    Metered sys after := by
  constructor
  · intro nid vn level positive
    rw [BxiNode.credits_of_counters (nodes nid).1]
    unfold State.creditEvents
    rw [log]
    exact metered.credits nid vn level positive
  · intro nid
    rw [(nodes nid).2]
    unfold State.entryEvents
    rw [log]
    exact metered.entries nid

theorem CallPhase.meters_kept {call : Call} {new : List Op}
    (phase : CallPhase sys self s call after new) (nid : Nid) :
    (after.nodes nid).counters = (s.nodes nid).counters ∧
      (after.nodes nid).e2eEntries = (s.nodes nid).e2eEntries := by
  cases phase with
  | niInit =>
      constructor
      · refine nodes_update_kept BxiNode.counters rfl ?_ nid
        rfl
      · refine nodes_update_kept BxiNode.e2eEntries rfl ?_ nid
        rfl
  | ptFree taken equality frees =>
      obtain ⟨drops, sameMes⟩ := frees
      cases drops
      exact ⟨rfl, rfl⟩
  | meUnlink free unlinks =>
      rw [unlinks.queues.2]
      exact ⟨rfl, rfl⟩
  | _ => exact ⟨rfl, rfl⟩

theorem Metered.advances {index : ThreadId} {label : Label}
    (metered : Metered sys s) (wellScoped : WellScoped s)
    (advances : Advances sys s index label after)
    (running : after.halted = none) : Metered sys after := by
  cases advances with
  | dangling dead owner => cases running
  | @run self op rest new next found alive phase =>
      have within := wellScoped.ops _ (List.mem_of_getElem? found) op (by simp)
      constructor
      · intro nid vn level positive
        obtain ⟨told, regular⟩ := metered.credits nid vn level positive
        have operates := phase.credit_operates within running nid vn
          (ne_of_gt positive)
        exact operates.step told regular
      · intro nid
        obtain ⟨told, regular⟩ := metered.entries nid
        exact (phase.entry_operates within nid).step told regular
  | recv found target queued => exact metered.keep rfl fun _ => ⟨rfl, rfl⟩
  | take found initiator queued =>
      refine metered.keep rfl fun nid => ⟨?_, ?_⟩
      · refine nodes_update_kept BxiNode.counters rfl ?_ nid
        rfl
      · refine nodes_update_kept BxiNode.e2eEntries rfl ?_ nid
        rfl
  | wake found e2e alive queued =>
      refine metered.keep rfl fun nid => ⟨?_, ?_⟩
      · refine nodes_update_kept BxiNode.counters rfl ?_ nid
        rfl
      · refine nodes_update_kept BxiNode.e2eEntries rfl ?_ nid
        rfl
  | call found user owned alive phase =>
      exact metered.keep phase.carries.2.1 phase.meters_kept

theorem ReachedBy.metered {allowed : State → Label → Prop}
    (reached : ReachedBy sys allowed s) (running : s.halted = none) :
    Metered sys s := by
  let Along : State → Prop := fun s => s.halted = none → Metered sys s
  have along : Along s := by
    refine reached.invariant_of_reached (fun _ => .initial sys) ?_
    intro before after label earlier metered _ stepped running
    exact (metered (step_enabled stepped).1).advances
      (ReachedBy.wellScoped earlier) (step_advances stepped) running
  exact along running

/-! ## The window of messages in flight -/

/-- The credits of a counter which a log tells to be taken and not given back.
-/
def inflight (log : List Obs) (nid : Nid) (vn : Vn) (level : FlowctrlLevel) :
    Int :=
  let events := log.filterMap (Obs.creditEvent nid vn level)
  events.count .acquire - events.count .release

/-- The E2E entries of a node which a log tells to be in use. -/
def entriesInUse (log : List Obs) (nid : Nid) : Int :=
  let events := log.filterMap (Obs.entryEvent nid)
  events.count .acquire - events.count .release

/-- A counter of flow control holds its maximum less the messages in flight, of
which at no moment of the run there were more than the maximum, nor fewer than
none. -/
theorem flowctrl_window (reachable : Reachable sys s)
    (running : s.halted = none) (nid : Nid) (vn : Vn) {level : FlowctrlLevel}
    (enabled : 0 < level.maxInflight sys.cfg) :
    (s.nodes nid).credits sys.cfg vn level =
        level.maxInflight sys.cfg - inflight s.log nid vn level ∧
      ∀ earlier, earlier <+: s.log →
        0 ≤ inflight earlier nid vn level ∧
          inflight earlier nid vn level ≤ level.maxInflight sys.cfg := by
  obtain ⟨told, regular⟩ :=
    (ReachedBy.metered reachable running).credits nid vn level enabled
  constructor
  · rw [told, SemaphoreEvent.value_eq_counts]
    unfold inflight State.creditEvents
    dsimp only
    omega
  · intro earlier past
    have moment := past.filterMap (Obs.creditEvent nid vn level)
    have least := regular.released_le moment
    have most := regular.held_le moment
    unfold inflight
    dsimp only
    constructor
    · omega
    · exact most

end Steps

/-- A Put takes one of the two credits of its target node and one of the E2E
entries of its own. -/
theorem put_takes_credits :
    ∃ s, Reachable (twoNodes { maxInflightToTarget := 2
                               maxInflightToProcess := 1 }
        { e2eOff := false }) s ∧
      inflight s.log 0 .computeRequest (.target 1) = 1 ∧
      (s.nodes 0).credits { maxInflightToTarget := 2
                            maxInflightToProcess := 1 }
        .computeRequest (.target 1) = 1 := by
  obtain ⟨s, reachable, holds⟩ := reachable_of_executes
    (twoNodes { maxInflightToTarget := 2, maxInflightToProcess := 1 }
      { e2eOff := false }) (acknowledgedPut.take 25)
    (fun s => s.halted.isNone &&
      inflight s.log 0 .computeRequest (.target 1) == 1) (by decide +kernel)
  simp only [Bool.and_eq_true, Option.isNone_iff_eq_none, beq_iff_eq] at holds
  refine ⟨s, reachable, holds.2, ?_⟩
  have enabled : 0 < FlowctrlLevel.maxInflight (twoNodes
      { maxInflightToTarget := 2, maxInflightToProcess := 1 }
      { e2eOff := false }).cfg (.target 1) := by decide
  have window := (flowctrl_window reachable holds.1 0 .computeRequest enabled).1
  rw [holds.2] at window
  exact window

end S4BXI
