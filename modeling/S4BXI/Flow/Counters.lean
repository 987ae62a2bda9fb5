import S4BXI.Flow.Traffic

/-!
# The flow-control counters

`check_flowctrl` creates the counters of a message it lets pass, and no counter
is ever removed.
-/

namespace S4BXI

open Lib

/-- The counters which `check_flowctrl` and `release_e2e_entry` use for a key
exist, as far as their level is enabled. -/
structure BxiNode.Counted (cfg : Config) (node : BxiNode) (vn : Vn)
    (key : FlowctrlProcessId) : Prop where
  target : cfg.maxInflightToTarget ≠ 0 →
    (node.flowctrlNodeCounts vn key.dstNid).isSome = true
  process : cfg.maxInflightToProcess ≠ 0 →
    (node.flowctrlProcessCounts vn key).isSome = true

/-- No counter is removed. -/
structure BxiNode.CountersKept (node after : BxiNode) : Prop where
  target : ∀ vn nid, (node.flowctrlNodeCounts vn nid).isSome = true →
    (after.flowctrlNodeCounts vn nid).isSome = true
  process : ∀ vn key, (node.flowctrlProcessCounts vn key).isSome = true →
    (after.flowctrlProcessCounts vn key).isSome = true

/-! ## One level -/

theorem checkLevel_isSome (maxInflight : Int) (negative : Panic)
    (count : Option Int) :
    (count.isSome = true →
        (checkLevel maxInflight negative count).2.isSome = true) ∧
      (maxInflight ≠ 0 →
        (checkLevel maxInflight negative count).2.isSome = true) := by
  unfold checkLevel
  split
  · rename_i off
    exact ⟨id, fun on => absurd off on⟩
  · exact ⟨fun _ => rfl, fun _ => rfl⟩

theorem debitLevel_isSome (maxInflight : Int) (count : Option Int) :
    (debitLevel maxInflight count).isSome = count.isSome := by
  unfold debitLevel
  split
  · rfl
  · exact Option.isSome_map

theorem releaseLevel_isSome (maxInflight : Int) (missing capacity : Panic)
    {count : Option Int} (present : count.isSome = true) :
    (releaseLevel maxInflight missing capacity count).2.isSome = true := by
  unfold releaseLevel
  split
  · exact present
  · cases count with
    | none => cases present
    | some credits => rfl

/-- With its counter, a release reports nothing but an excess of credits. -/
theorem releaseLevel_reason {maxInflight : Int} {missing capacity : Panic}
    {count : Option Int} (present : maxInflight ≠ 0 → count.isSome = true)
    {reason : Panic}
    (panicked : (releaseLevel maxInflight missing capacity count).1 =
      some reason) : reason = capacity := by
  unfold releaseLevel at panicked
  split at panicked
  · cases panicked
  · rename_i on
    cases count with
    | none => cases present on
    | some credits =>
        dsimp only at panicked
        split at panicked
        · cases panicked
        · exact (Option.some.inj panicked).symm

/-! ## Both levels -/

namespace BxiNode

namespace CountersKept

variable {node mid after : BxiNode}

theorem refl (node : BxiNode) : CountersKept node node :=
  ⟨fun _ _ => id, fun _ _ => id⟩

theorem trans (first : CountersKept node mid)
    (second : CountersKept mid after) : CountersKept node after where
  target vn nid present := second.target vn nid (first.target vn nid present)
  process vn key present :=
    second.process vn key (first.process vn key present)

theorem of_counts
    (target : after.flowctrlNodeCounts = node.flowctrlNodeCounts)
    (process : after.flowctrlProcessCounts = node.flowctrlProcessCounts) :
    CountersKept node after := by
  constructor
  · intro vn nid present
    rw [target]
    exact present
  · intro vn key present
    rw [process]
    exact present

theorem parked (node : BxiNode) (vn : Vn) (msg : MsgId) :
    CountersKept node (node.park vn msg) := by
  unfold BxiNode.park
  split <;> exact of_counts rfl rfl

theorem setNodeCount (node : BxiNode) (vn : Vn) (target : Nid)
    {count : Option Int}
    (keeps : (node.flowctrlNodeCounts vn target).isSome = true →
      count.isSome = true) :
    CountersKept node (node.setNodeCount vn target count) := by
  constructor
  · intro network nid present
    simp only [BxiNode.setNodeCount, Function.update_apply]
    by_cases network' : network = vn
    · subst network'
      by_cases here : nid = target
      · subst here
        simpa using keeps present
      · simpa [here] using present
    · simpa [network'] using present
  · exact fun _ _ => id

theorem setProcessCount (node : BxiNode) (vn : Vn) (key : FlowctrlProcessId)
    {count : Option Int}
    (keeps : (node.flowctrlProcessCounts vn key).isSome = true →
      count.isSome = true) :
    CountersKept node (node.setProcessCount vn key count) := by
  constructor
  · exact fun _ _ => id
  · intro network other present
    simp only [BxiNode.setProcessCount, Function.update_apply]
    by_cases network' : network = vn
    · subst network'
      by_cases here : other = key
      · subst here
        simpa using keeps present
      · simpa [here] using present
    · simpa [network'] using present

end CountersKept

theorem Counted.kept {cfg : Config} {node after : BxiNode} {vn : Vn}
    {key : FlowctrlProcessId} (counted : node.Counted cfg vn key)
    (kept : CountersKept node after) : after.Counted cfg vn key where
  target on := kept.target vn key.dstNid (counted.target on)
  process on := kept.process vn key (counted.process on)

theorem setNodeCount_self (node : BxiNode) (vn : Vn) (target : Nid)
    (count : Option Int) :
    (node.setNodeCount vn target count).flowctrlNodeCounts vn target =
      count := by
  simp [setNodeCount]

theorem setProcessCount_self (node : BxiNode) (vn : Vn)
    (key : FlowctrlProcessId) (count : Option Int) :
    (node.setProcessCount vn key count).flowctrlProcessCounts vn key =
      count := by
  simp [setProcessCount]

/-- The counters after both levels have been checked. -/
def checked (cfg : Config) (node : BxiNode) (vn : Vn)
    (key : FlowctrlProcessId) : BxiNode :=
  (node.setNodeCount vn key.dstNid (checkLevel cfg.maxInflightToTarget
    .negativeNodeCredits (node.flowctrlNodeCounts vn key.dstNid)).2
    ).setProcessCount vn key (checkLevel cfg.maxInflightToProcess
      .negativeProcessCredits (node.flowctrlProcessCounts vn key)).2

theorem checked_kept (cfg : Config) (node : BxiNode) (vn : Vn)
    (key : FlowctrlProcessId) :
    CountersKept node (checked cfg node vn key) := by
  apply (CountersKept.setNodeCount node vn key.dstNid
    (checkLevel_isSome _ _ _).1).trans
  exact .setProcessCount _ vn key (checkLevel_isSome _ _ _).1

theorem checked_counted (cfg : Config) (node : BxiNode) (vn : Vn)
    (key : FlowctrlProcessId) : (checked cfg node vn key).Counted cfg vn key := by
  constructor
  · intro on
    change Option.isSome ((node.setNodeCount vn key.dstNid
      _).flowctrlNodeCounts vn key.dstNid) = true
    rw [setNodeCount_self]
    exact (checkLevel_isSome _ _ _).2 on
  · intro on
    unfold checked
    rw [setProcessCount_self]
    exact (checkLevel_isSome _ _ _).2 on

/-- The debit of both levels. -/
theorem debited_kept (cfg : Config) (node : BxiNode) (vn : Vn)
    (key : FlowctrlProcessId) {nodeCount processCount : Option Int}
    (target : node.flowctrlNodeCounts vn key.dstNid = nodeCount)
    (process : node.flowctrlProcessCounts vn key = processCount) :
    CountersKept node ((node.setNodeCount vn key.dstNid
      (debitLevel cfg.maxInflightToTarget nodeCount)).setProcessCount vn key
        (debitLevel cfg.maxInflightToProcess processCount)) := by
  have first : CountersKept node (node.setNodeCount vn key.dstNid
      (debitLevel cfg.maxInflightToTarget nodeCount)) := by
    apply CountersKept.setNodeCount
    intro present
    rw [debitLevel_isSome, ← target]
    exact present
  apply first.trans
  apply CountersKept.setProcessCount
  intro present
  rw [debitLevel_isSome, ← process]
  exact present

/-- What `check_flowctrl` leaves of the counters. -/
theorem checkCredits_cases (cfg : Config) (node : BxiNode) (vn : Vn)
    (key : FlowctrlProcessId) :
    CountersKept node (node.checkCredits cfg vn key).2 ∧
      ((node.checkCredits cfg vn key).1 = .granted →
        (node.checkCredits cfg vn key).2.Counted cfg vn key) := by
  have both := checked_kept cfg node vn key
  have counted := checked_counted cfg node vn key
  have debited := debited_kept cfg (checked cfg node vn key) vn key
    (show _ = (checkLevel cfg.maxInflightToTarget .negativeNodeCredits
      (node.flowctrlNodeCounts vn key.dstNid)).2 from
        setNodeCount_self node vn key.dstNid _)
    (setProcessCount_self _ vn key _)
  unfold checkCredits
  dsimp only
  split
  · split
    · exact ⟨both.trans debited, fun _ => counted.kept debited⟩
    · rename_i refused
      exact ⟨both, fun granted => absurd granted refused⟩
  · rename_i refused
    refine ⟨?_, fun granted => absurd granted refused⟩
    exact .setNodeCount node vn key.dstNid (checkLevel_isSome _ _ _).1

theorem releaseCredits_kept (cfg : Config) (node : BxiNode) (vn : Vn)
    (key : FlowctrlProcessId) :
    CountersKept node (node.releaseCredits cfg vn key).2 := by
  have first := CountersKept.setNodeCount node vn key.dstNid
    (releaseLevel_isSome cfg.maxInflightToTarget .missingNodeCounter
      .nodeCapacity)
  unfold releaseCredits
  dsimp only
  split
  · exact first
  · apply first.trans
    exact .setProcessCount _ vn key (releaseLevel_isSome _ _ _)

/-- With their counters, a release panics because of an excess of credits only.
-/
theorem releaseCredits_present {cfg : Config} {node : BxiNode} {vn : Vn}
    {key : FlowctrlProcessId} (counted : node.Counted cfg vn key)
    {reason : Panic}
    (panicked : (node.releaseCredits cfg vn key).1 = some reason) :
    reason = .nodeCapacity ∨ reason = .processCapacity := by
  unfold releaseCredits at panicked
  dsimp only at panicked
  split at panicked
  · rename_i other failed
    cases panicked
    exact .inl (releaseLevel_reason counted.target failed)
  · exact .inr (releaseLevel_reason counted.process panicked)

end BxiNode

/-! ## Runs -/

/-- Every message which was debited has its counters. -/
def Counting (sys : Sys) (s : State) : Prop :=
  ∀ nid vn key req, Obs.debit nid vn key req ∈ s.log →
    (s.nodes nid).Counted sys.cfg vn key

section Steps

variable {sys : Sys} {self : Actor} {s after : State}

theorem counters_update {nid : Nid} {node : BxiNode}
    (nodes : after.nodes = Function.update s.nodes nid node)
    (kept : (s.nodes nid).CountersKept node) (other : Nid) :
    (s.nodes other).CountersKept (after.nodes other) := by
  rw [nodes, Function.update_apply]
  split
  · rename_i here
    subst here
    exact kept
  · exact .refl _

/-- What an operation does to the counters. -/
theorem Phase.counters {op : Op} {new : List Op}
    (phase : Phase sys self s op after new) (nid : Nid) :
    (s.nodes nid).CountersKept (after.nodes nid) := by
  have same : after.nodes = s.nodes →
      (s.nodes nid).CountersKept (after.nodes nid) := by
    intro nodes
    rw [nodes]
    exact .refl _
  cases phase with
  | releaseE2eEntry on =>
      refine counters_update rfl ?_ nid
      exact .of_counts rfl rfl
  | @creditPanic node vn key req reason nodeCounts processCounts released =>
      have kept := (s.nodes node).releaseCredits_kept sys.cfg vn key
      rw [released] at kept
      exact counters_update rfl kept nid
  | @releaseCounts node vn key req nodeCounts processCounts released =>
      have kept := (s.nodes node).releaseCredits_kept sys.cfg vn key
      rw [released] at kept
      exact counters_update rfl kept nid
  | resumeLoop waiting =>
      refine counters_update rfl ?_ nid
      exact .of_counts rfl rfl
  | resumePop waiting =>
      refine counters_update rfl ?_ nid
      exact .of_counts rfl rfl
  | respondUnmatched type fetches fresh absent =>
      exact same (answering_queues s _ _ _).2
  | @matched msg pt list me fail kind effects stop type fresh found memory
      later stops =>
      exact same ((takeEntry_queues _ msg pt list me).2.trans
        (answering_queues s msg fail kind).2)
  | putFinish leaves => exact same leaves.queues.2
  | getFinish memory stops leaves => exact same leaves.queues.2
  | atomicEvents leaves => exact same leaves.queues.2
  | fetchAtomicFinish leaves => exact same leaves.queues.2
  | deferredUnlink flagged unlinks => exact same unlinks.queues.2
  | txPut =>
      refine counters_update rfl ?_ nid
      exact .of_counts rfl rfl
  | unref equality drops =>
      cases drops
      exact same rfl
  | @granted msg nodeCounts processCounts subject checked =>
      have kept := ((s.nodes self.nid).checkCredits_cases sys.cfg (s.vnOf msg)
        (flowctrlKey sys s msg)).1
      rw [checked] at kept
      exact counters_update rfl kept nid
  | @refused msg nodeCounts processCounts subject checked =>
      have kept := ((s.nodes self.nid).checkCredits_cases sys.cfg (s.vnOf msg)
        (flowctrlKey sys s msg)).1
      rw [checked] at kept
      have parked := (kept.trans (.parked _ self.vn msg))
      apply counters_update _ parked
      simp only [State.setCounts, State.modNode, Function.update_self,
        Function.update_idem]
  | @creditsPanic msg reason nodeCounts processCounts subject checked =>
      have kept := ((s.nodes self.nid).checkCredits_cases sys.cfg (s.vnOf msg)
        (flowctrlKey sys s msg)).1
      rw [checked] at kept
      exact counters_update rfl kept nid
  | acquireE2eEntry left =>
      refine counters_update rfl ?_ nid
      exact .of_counts rfl rfl
  | @e2eEnqueue msg =>
      refine counters_update rfl ?_ nid
      exact .of_counts rfl rfl
  | gaveUp pending last =>
      refine counters_update rfl ?_ nid
      exact .of_counts rfl rfl
  | @retransmit msg pending more =>
      unfold S4BXI.retransmit S4BXI.txPut
      dsimp only
      have counted : ∀ other, (s.nodes other).CountersKept
          ((s.modNode self.nid fun node =>
            { node with e2eRetried := node.e2eRetried + 1 }).nodes other) :=
        counters_update rfl (.of_counts rfl rfl)
      split
      · apply (counted nid).trans
        refine counters_update rfl ?_ nid
        exact .of_counts rfl rfl
      · apply (counted nid).trans
        refine counters_update rfl ?_ nid
        exact .of_counts rfl rfl
  | _ => exact same rfl

/-- Only `check_flowctrl` debits, and then it has the counters. -/
theorem Phase.debits {op : Op} {new : List Op}
    (phase : Phase sys self s op after new) (within : op.Within s.bounds)
    {nid : Nid} {vn : Vn} {key : FlowctrlProcessId} {req : ReqId}
    (debited : Obs.debit nid vn key req ∈ after.log) :
    Obs.debit nid vn key req ∈ s.log ∨
      (after.nodes nid).Counted sys.cfg vn key := by
  obtain ⟨extra, log, emitted⟩ := phase.emits within
  have either := debited
  rw [log] at either
  rcases List.mem_append.mp either with earlier | new
  · exact .inl earlier
  · cases emitted _ new with
    | @debit msg =>
        cases phase with
        | granted subject checked =>
            have counted := (BxiNode.checkCredits_cases sys.cfg
              (s.nodes self.nid) (s.vnOf msg) (flowctrlKey sys s msg)).2
            rw [checked] at counted
            right
            simp only [releaseCq, State.emit, State.setCounts, State.modNode,
              Function.update_self]
            exact counted rfl
        | exempt free => exact .inl debited
        | refused subject checked => exact .inl debited
        | creditsPanic subject checked => exact .inl debited
        | quiet quiet => cases quiet

theorem CallPhase.counters {call : Call} {new : List Op}
    (phase : CallPhase sys self s call after new) (nid : Nid) :
    (s.nodes nid).CountersKept (after.nodes nid) := by
  cases phase with
  | niInit =>
      refine counters_update rfl ?_ nid
      exact .of_counts rfl rfl
  | ptFree taken equality frees =>
      obtain ⟨drops, sameMes⟩ := frees
      cases drops
      exact .refl _
  | meUnlink free unlinks =>
      rw [unlinks.queues.2]
      exact .refl _
  | _ => exact .refl _

theorem Counting.advances {index : ThreadId} {label : Label}
    (counting : Counting sys s) (wellScoped : WellScoped s)
    (advances : Advances sys s index label after) : Counting sys after := by
  intro nid vn key req debited
  cases advances with
  | dangling dead owner => exact counting nid vn key req debited
  | @run self op rest new next found alive phase =>
      have within := wellScoped.ops _ (List.mem_of_getElem? found) op (by simp)
      rcases phase.debits within debited with earlier | counted
      · exact (counting nid vn key req earlier).kept (phase.counters nid)
      · exact counted
  | recv found target queued => exact counting nid vn key req debited
  | take found initiator queued =>
      apply (counting nid vn key req debited).kept
      refine counters_update rfl ?_ nid
      exact .of_counts rfl rfl
  | wake found e2e alive queued =>
      apply (counting nid vn key req debited).kept
      refine counters_update rfl ?_ nid
      exact .of_counts rfl rfl
  | call found user owned alive phase =>
      rw [show (_ : State).log = _ from phase.carries.2.1] at debited
      exact (counting nid vn key req debited).kept (phase.counters nid)

theorem ReachedBy.counting {allowed : State → Label → Prop}
    (reached : ReachedBy sys allowed s) : Counting sys s := by
  apply reached.invariant_of_reached
  · intro nid vn key req debited
    cases debited
  · intro before after label earlier counting _ stepped
    exact counting.advances (ReachedBy.wellScoped earlier)
      (step_advances stepped)

end Steps

end S4BXI
