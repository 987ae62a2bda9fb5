import Mathlib.Data.List.Perm.Basic
import S4BXI.Lib.Transition
import S4BXI.Portals.Objects

/-!
# Network interfaces and their PIDs

`PtlNIInit` and `PtlNIFini` of the processes of one node.  `PtlNIFini` gives the
PID back before it drains the command queue, so that the interface is still
known to `match_entry` while its PID is already free for another one.
-/

namespace S4BXI

open Lib

/-- The erase-remove idiom with a single-element `erase`: what `remove` leaves
behind its result is erased once only.  It is undefined when nothing was
removed. -/
def eraseRemove {Item : Type} [DecidableEq Item] (items : List Item)
    (item : Item) : Option (List Item) :=
  let kept := items.filter fun other => other ≠ item
  if kept.length = items.length then
    none
  else
    some (kept ++ items.drop (kept.length + 1))

/-- What a process of the node is doing. -/
inductive NiOp where
  | idle
  /-- `PtlNIInit` in its PCI command. -/
  | initCommand (pid : Pid)
  /-- `PtlNIFini` in its PCI command. -/
  | finiCommand (ni : NiId)
  /-- The loop of `BxiNI::fini`, with the number of slots still to acquire. -/
  | drain (ni : NiId) (left : Nat)
  deriving DecidableEq

/-- The interfaces of a node.  `pids` and `owners` are what each interface got
from the process which initialised it. -/
structure Interfaces where
  usedPids : List Pid := []
  niHandles : List NiId := []
  pids : NiId → Pid := fun _ => 0
  owners : NiId → ThreadId := fun _ => 0
  nextNi : NiId := 0
  cqs : NiId → Nat := fun _ => cqInitialCapacity.toNat
  processes : ThreadId → NiOp := fun _ => .idle
  panicked : Bool := false

/-- The search of `PtlNIInit` for `PTL_PID_ANY` from `pid` on, at most `fuel`
tries. -/
def searchPid (usedPids : List Pid) : Nat → Pid → Option Pid
  | 0, _ => none
  | fuel + 1, pid =>
      if pid ∈ usedPids then searchPid usedPids fuel (pid + 1) else some pid

namespace Interfaces

def setProcess (s : Interfaces) (process : ThreadId) (op : NiOp) :
    Interfaces :=
  { s with processes := Function.update s.processes process op }

/-- The end of `PtlNIInit`, with the PID it uses. -/
def addInterface (s : Interfaces) (process : ThreadId) (pid : Pid) :
    Interfaces :=
  { s with
    usedPids := s.usedPids ++ [pid]
    niHandles := s.niHandles ++ [s.nextNi]
    pids := Function.update s.pids s.nextNi pid
    owners := Function.update s.owners s.nextNi process
    nextNi := s.nextNi + 1 }.setProcess process .idle

/-- `PtlNIInit` after its PCI command. -/
def niInit (s : Interfaces) (process : ThreadId) (pid : Pid) :
    Option Interfaces :=
  if pid = pidAny then
    (searchPid s.usedPids (s.usedPids.length + 1) 2048).map
      (s.addInterface process)
  else if pid ∈ s.usedPids then
    some { s with panicked := true }
  else
    some (s.addInterface process pid)

/-- `PtlNIFini` after its PCI command, up to the loop of `BxiNI::fini`. -/
def niFini (s : Interfaces) (process : ThreadId) (ni : NiId) :
    Option Interfaces :=
  (eraseRemove s.usedPids (s.pids ni)).map fun usedPids =>
    { s with usedPids := usedPids }.setProcess process
      (.drain ni cqInitialCapacity.toNat)

/-- One acquisition of the loop of `BxiNI::fini`; after the last one the
interface is destroyed and `PtlNIFini` returns. -/
def drainOne (s : Interfaces) (process : ThreadId) (ni : NiId) (left : Nat) :
    Option Interfaces :=
  if s.cqs ni = 0 then
    none
  else
    let s := { s with cqs := Function.update s.cqs ni (s.cqs ni - 1) }
    if left = 1 then
      (eraseRemove s.niHandles ni).map fun niHandles =>
        { s with niHandles := niHandles }.setProcess process .idle
    else
      some (s.setProcess process (.drain ni (left - 1)))

end Interfaces

/-- The steps of the processes, and the commands which take and give back the
slots of a command queue. -/
inductive NiLabel where
  | callInit (process : ThreadId) (pid : Pid)
  | callFini (process : ThreadId) (ni : NiId)
  | run (process : ThreadId)
  | acceptCommand (ni : NiId)
  | releaseCommand (ni : NiId)

/-- One step.  A process finalises its own interfaces, each of them once. -/
def niStep (s : Interfaces) : NiLabel → Option Interfaces
  | .callInit process pid =>
      if s.panicked = false ∧ s.processes process = .idle then
        some (s.setProcess process (.initCommand pid))
      else
        none
  | .callFini process ni =>
      if s.panicked = false ∧ s.processes process = .idle ∧
          ni ∈ s.niHandles ∧ s.owners ni = process then
        some (s.setProcess process (.finiCommand ni))
      else
        none
  | .run process =>
      if s.panicked then
        none
      else
        match s.processes process with
        | .idle => none
        | .initCommand pid => s.niInit process pid
        | .finiCommand ni => s.niFini process ni
        | .drain ni left => s.drainOne process ni left
  | .acceptCommand ni =>
      if s.cqs ni = 0 then
        none
      else
        some { s with cqs := Function.update s.cqs ni (s.cqs ni - 1) }
  | .releaseCommand ni =>
      some { s with cqs := Function.update s.cqs ni (s.cqs ni + 1) }

/-- The interfaces have different PIDs, and these are the PIDs in use. -/
def Interfaces.OnePerPid (s : Interfaces) : Prop :=
  (s.niHandles.map s.pids).Nodup ∧ s.usedPids.Perm (s.niHandles.map s.pids)

/-- Whether a process drains the command queue of an interface. -/
def NiOp.drains (op : NiOp) (ni : NiId) : Bool :=
  match op with
  | .drain other _ => other == ni
  | _ => false

/-- Whether the owner of an interface is draining its command queue. -/
def Interfaces.draining (s : Interfaces) (ni : NiId) : Bool :=
  (s.processes (s.owners ni)).drains ni

/-- The PID which `PtlNIInit` would use is not the one of an interface whose
command queue is being drained. -/
def NiLabel.Apart (s : Interfaces) : NiLabel → Prop
  | .run process => ∀ pid, s.processes process = .initCommand pid →
      ∀ ni ∈ s.niHandles, s.draining ni = true →
        (if pid = pidAny then
          searchPid s.usedPids (s.usedPids.length + 1) 2048
        else some pid) ≠ some (s.pids ni)
  | _ => True

/-- Without duplicates the idiom erases the item. -/
theorem eraseRemove_of_nodup {Item : Type} [DecidableEq Item]
    {items : List Item} {item : Item} (nodup : items.Nodup)
    (member : item ∈ items) :
    eraseRemove items item = some (items.erase item) := by
  have kept : items.filter (fun other => other ≠ item) = items.erase item := by
    rw [nodup.erase_eq_filter]
    simp [bne, beq_eq_decide]
  have length := List.length_erase_of_mem member
  have positive := List.length_pos_of_mem member
  unfold eraseRemove
  rw [kept]
  dsimp only
  rw [if_neg (by omega), List.drop_eq_nil_of_le (by omega), List.append_nil]

/-- The PIDs tried by a search which does not end. -/
theorem searchPid_none {usedPids : List Pid} {fuel : Nat} {pid : Pid}
    (failed : searchPid usedPids fuel pid = none) :
    ∀ other ∈ List.range' pid fuel, other ∈ usedPids := by
  induction fuel generalizing pid with
  | zero => simp
  | succ fuel induction =>
      unfold searchPid at failed
      split at failed
      · rename_i used
        intro other member
        rw [List.range'_succ] at member
        rcases List.mem_cons.mp member with rfl | later
        · exact used
        · exact induction failed other later
      · cases failed

theorem searchPid_unused {usedPids : List Pid} {fuel : Nat} {start pid : Pid}
    (found : searchPid usedPids fuel start = some pid) : pid ∉ usedPids := by
  induction fuel generalizing start with
  | zero => cases found
  | succ fuel induction =>
      unfold searchPid at found
      split at found
      · exact induction found
      · rename_i unused
        cases found
        exact unused

/-- The search for `PTL_PID_ANY` ends with an unused PID. -/
theorem searchPid_ends (usedPids : List Pid) (start : Pid) :
    ∃ pid, searchPid usedPids (usedPids.length + 1) start = some pid ∧
      pid ∉ usedPids := by
  cases found : searchPid usedPids (usedPids.length + 1) start with
  | some pid => exact ⟨pid, rfl, searchPid_unused found⟩
  | none =>
      have subset : List.range' start (usedPids.length + 1) ⊆ usedPids :=
        searchPid_none found
      have bound := (List.subperm_of_subset List.nodup_range' subset).length_le
      rw [List.length_range'] at bound
      exact absurd bound (Nat.not_succ_le_self _)

namespace Interfaces

variable {s after : Interfaces}

/-- The PIDs in use are those of the interfaces which are not drained. -/
structure Registered (s : Interfaces) : Prop where
  nodup : (s.niHandles.map s.pids).Nodup
  used : s.usedPids.Perm
    ((s.niHandles.filter fun ni => !s.draining ni).map s.pids)
  known : ∀ ni ∈ s.niHandles, ni < s.nextNi
  drained : ∀ process ni left, s.processes process = .drain ni left →
    ni ∈ s.niHandles ∧ s.owners ni = process
  finalised : ∀ process ni, s.processes process = .finiCommand ni →
    ni ∈ s.niHandles ∧ s.owners ni = process

theorem registered_initial : ({} : Interfaces).Registered where
  nodup := List.nodup_nil
  used := .refl _
  known _ member := by cases member
  drained _ _ _ draining := by cases draining
  finalised _ _ finalising := by cases finalising

theorem setProcess_draining (process : ThreadId) (op : NiOp) (ni : NiId) :
    (s.setProcess process op).draining ni =
      if s.owners ni = process then op.drains ni else s.draining ni := by
  simp only [draining, Interfaces.setProcess, Function.update_apply]
  split <;> rfl

theorem drains_eq_false {op : NiOp} (other : ∀ ni left, op ≠ .drain ni left)
    (ni : NiId) : op.drains ni = false := by
  cases op with
  | drain drained left => exact absurd rfl (other drained left)
  | _ => rfl

/-- A process goes on with something else than a drain. -/
theorem Registered.setProcess (registered : s.Registered)
    {process : ThreadId} {op : NiOp}
    (before : ∀ ni left, s.processes process ≠ .drain ni left)
    (after : ∀ ni left, op ≠ .drain ni left)
    (finalises : ∀ ni, op = .finiCommand ni →
      ni ∈ s.niHandles ∧ s.owners ni = process) :
    (s.setProcess process op).Registered := by
  have same : ∀ ni, (s.setProcess process op).draining ni = s.draining ni := by
    intro ni
    rw [setProcess_draining, drains_eq_false after]
    split
    · rename_i own
      rw [draining, own, drains_eq_false before]
    · rfl
  constructor
  · exact registered.nodup
  · rw [List.filter_congr fun ni _ => by rw [same ni]]
    exact registered.used
  · exact registered.known
  · intro other ni left draining
    simp only [Interfaces.setProcess, Function.update_apply] at draining
    split at draining
    · exact absurd draining (after ni left)
    · exact registered.drained other ni left draining
  · intro other ni finalising
    simp only [Interfaces.setProcess, Function.update_apply] at finalising
    split at finalising
    · rename_i own
      subst own
      exact finalises ni finalising
    · exact registered.finalised other ni finalising

/-- `PtlNIInit` registers a PID which no interface has. -/
theorem Registered.addInterface (registered : s.Registered)
    {process : ThreadId} {pid : Pid}
    (before : ∀ ni left, s.processes process ≠ .drain ni left)
    (unused : pid ∉ s.usedPids)
    (apart : ∀ ni ∈ s.niHandles, s.draining ni = true → s.pids ni ≠ pid) :
    (s.addInterface process pid).Registered := by
  have fresh : s.nextNi ∉ s.niHandles := fun member =>
    Nat.lt_irrefl _ (registered.known _ member)
  have others : ∀ ni ∈ s.niHandles, s.pids ni ≠ pid := by
    intro ni member
    cases draining : s.draining ni with
    | true => exact apart ni member draining
    | false =>
        rintro rfl
        refine unused (registered.used.mem_iff.mpr (List.mem_map_of_mem ?_))
        exact List.mem_filter.mpr ⟨member, by simp [draining]⟩
  have notNew : ∀ ni ∈ s.niHandles, ni ≠ s.nextNi := by
    rintro ni member rfl
    exact fresh member
  have samePids : s.niHandles.map (Function.update s.pids s.nextNi pid) =
      s.niHandles.map s.pids :=
    List.map_congr_left fun ni member =>
      Function.update_of_ne (notNew ni member) _ _
  have added : ({ s with
      usedPids := s.usedPids ++ [pid]
      niHandles := s.niHandles ++ [s.nextNi]
      pids := Function.update s.pids s.nextNi pid
      owners := Function.update s.owners s.nextNi process
      nextNi := s.nextNi + 1 } : Interfaces).Registered := by
    have same : ∀ ni ∈ s.niHandles, ({ s with
        usedPids := s.usedPids ++ [pid]
        niHandles := s.niHandles ++ [s.nextNi]
        pids := Function.update s.pids s.nextNi pid
        owners := Function.update s.owners s.nextNi process
        nextNi := s.nextNi + 1 } : Interfaces).draining ni =
          s.draining ni := by
      intro ni member
      simp only [draining, Function.update_of_ne (notNew ni member)]
    have idle : ({ s with
        usedPids := s.usedPids ++ [pid]
        niHandles := s.niHandles ++ [s.nextNi]
        pids := Function.update s.pids s.nextNi pid
        owners := Function.update s.owners s.nextNi process
        nextNi := s.nextNi + 1 } : Interfaces).draining s.nextNi = false := by
      simp only [draining, Function.update_self, drains_eq_false before]
    constructor
    · simp only [List.map_append, samePids, List.map_singleton,
        Function.update_self]
      refine List.nodup_append.mpr ⟨registered.nodup, by simp, ?_⟩
      intro old member new last
      rw [List.mem_singleton.mp last]
      obtain ⟨ni, known, rfl⟩ := List.mem_map.mp member
      exact others ni known
    · rw [List.filter_append, List.filter_cons_of_pos (by simp [idle]),
        List.filter_nil, List.filter_congr fun ni member => by
          rw [same ni member], List.map_append]
      refine List.Perm.append ?_ (by simp)
      rw [List.map_congr_left fun ni member => Function.update_of_ne
        (notNew ni (List.mem_of_mem_filter member)) _ _]
      exact registered.used
    · intro ni member
      rcases List.mem_append.mp member with old | new
      · exact Nat.lt_succ_of_lt (registered.known ni old)
      · rw [List.mem_singleton.mp new]
        exact Nat.lt_succ_self _
    · intro other ni left draining
      obtain ⟨member, own⟩ := registered.drained other ni left draining
      refine ⟨List.mem_append_left _ member, ?_⟩
      simp only [Function.update_of_ne (notNew ni member)]
      exact own
    · intro other ni finalising
      obtain ⟨member, own⟩ := registered.finalised other ni finalising
      refine ⟨List.mem_append_left _ member, ?_⟩
      simp only [Function.update_of_ne (notNew ni member)]
      exact own
  exact added.setProcess before (by simp) (by simp)

/-- `PtlNIFini` gives its PID back and starts the drain. -/
theorem Registered.niFini (registered : s.Registered) {process : ThreadId}
    {ni : NiId} (finalising : s.processes process = .finiCommand ni)
    (stepped : s.niFini process ni = some after) : after.Registered := by
  obtain ⟨member, own⟩ := registered.finalised process ni finalising
  have idle : s.draining ni = false := by
    rw [draining, own, finalising]
    rfl
  have nodupHandles : s.niHandles.Nodup := registered.nodup.of_map _
  have remaining : ni ∈ s.niHandles.filter fun ni => !s.draining ni :=
    List.mem_filter.mpr ⟨member, by simp [idle]⟩
  have usedNodup : s.usedPids.Nodup := registered.used.nodup_iff.mpr
    (registered.nodup.sublist (List.filter_sublist.map _))
  have used : s.pids ni ∈ s.usedPids :=
    registered.used.mem_iff.mpr (List.mem_map_of_mem remaining)
  unfold Interfaces.niFini at stepped
  rw [eraseRemove_of_nodup usedNodup used] at stepped
  cases stepped
  have drainings : ∀ other, (({ s with
      usedPids := s.usedPids.erase (s.pids ni) } : Interfaces).setProcess
        process (.drain ni cqInitialCapacity.toNat)).draining other =
      (s.draining other || other == ni) := by
    intro other
    rw [setProcess_draining]
    split
    · rename_i owned
      change s.owners other = process at owned
      rw [draining, owned, finalising]
      simp [NiOp.drains, Bool.beq_comm]
    · rename_i foreign
      have differs : other ≠ ni := by
        rintro rfl
        exact foreign own
      simp [draining, differs]
  constructor
  · exact registered.nodup
  · rw [List.filter_congr fun other _ => by rw [drainings other]]
    have split : (s.niHandles.filter fun other =>
        !(s.draining other || other == ni)) =
        (s.niHandles.filter fun ni => !s.draining ni).erase ni := by
      rw [(nodupHandles.filter _).erase_eq_filter, List.filter_filter]
      refine List.filter_congr fun other _ => ?_
      simp [Bool.and_comm, bne]
    change (s.usedPids.erase (s.pids ni)).Perm ((s.niHandles.filter
      fun other => !(s.draining other || other == ni)).map s.pids)
    rw [split]
    have exchanged := registered.used.trans
      ((List.perm_cons_erase remaining).map s.pids)
    have erased := exchanged.erase (s.pids ni)
    rwa [List.map_cons, List.erase_cons_head] at erased
  · exact registered.known
  · intro other drained left drains
    simp only [Interfaces.setProcess, Function.update_apply] at drains
    split at drains
    · rename_i same
      cases drains
      exact ⟨member, own.trans same.symm⟩
    · exact registered.drained other drained left drains
  · intro other finalised finalises
    simp only [Interfaces.setProcess, Function.update_apply] at finalises
    split at finalises
    · cases finalises
    · exact registered.finalised other finalised finalises

/-- An acquisition of the drain, and the end of `PtlNIFini`. -/
theorem Registered.drainOne (registered : s.Registered) {process : ThreadId}
    {ni : NiId} {left : Nat} (drains : s.processes process = .drain ni left)
    (stepped : s.drainOne process ni left = some after) :
    after.Registered := by
  obtain ⟨member, own⟩ := registered.drained process ni left drains
  have drained : s.draining ni = true := by
    rw [draining, own, drains]
    simp [NiOp.drains]
  have nodupHandles : s.niHandles.Nodup := registered.nodup.of_map _
  unfold Interfaces.drainOne at stepped
  dsimp only at stepped
  split at stepped
  · cases stepped
  split at stepped
  · rw [eraseRemove_of_nodup nodupHandles member] at stepped
    cases stepped
    have drainings : ∀ other ≠ ni, (({ s with
        cqs := Function.update s.cqs ni (s.cqs ni - 1)
        niHandles := s.niHandles.erase ni } : Interfaces).setProcess
          process .idle).draining other = s.draining other := by
      intro other differs
      rw [setProcess_draining]
      split
      · rename_i owned
        change s.owners other = process at owned
        rw [draining, owned, drains]
        simp [NiOp.drains, Ne.symm differs]
      · rfl
    have remaining : ∀ other ∈ s.niHandles.erase ni,
        other ≠ ni ∧ other ∈ s.niHandles := fun other kept =>
      (nodupHandles.mem_erase_iff).mp kept
    constructor
    · exact registered.nodup.sublist (List.erase_sublist.map _)
    · change s.usedPids.Perm (((s.niHandles.erase ni).filter _).map s.pids)
      rw [List.filter_congr fun other kept => by
        rw [drainings other (remaining other kept).1]]
      rw [nodupHandles.erase_eq_filter, List.filter_filter,
        List.filter_congr fun other _ => show
          (!s.draining other && (other != ni)) = !s.draining other from ?_]
      · exact registered.used
      · by_cases same : other = ni
        · simp [same, drained]
        · simp [same]
    · intro other kept
      exact registered.known other (remaining other kept).2
    · intro other entry count draining
      simp only [Interfaces.setProcess, Function.update_apply] at draining
      split at draining
      · cases draining
      · rename_i foreign
        obtain ⟨known, owned⟩ := registered.drained other entry count draining
        refine ⟨(nodupHandles.mem_erase_iff).mpr ⟨?_, known⟩, owned⟩
        rintro rfl
        exact foreign (owned.symm.trans own)
    · intro other entry finalising
      simp only [Interfaces.setProcess, Function.update_apply] at finalising
      split at finalising
      · cases finalising
      · rename_i foreign
        obtain ⟨known, owned⟩ := registered.finalised other entry finalising
        refine ⟨(nodupHandles.mem_erase_iff).mpr ⟨?_, known⟩, owned⟩
        rintro rfl
        exact foreign (owned.symm.trans own)
  · cases stepped
    have drainings : ∀ other, (({ s with
        cqs := Function.update s.cqs ni (s.cqs ni - 1) } :
          Interfaces).setProcess process (.drain ni (left - 1))).draining
            other = s.draining other := by
      intro other
      rw [setProcess_draining]
      split
      · rename_i owned
        change s.owners other = process at owned
        rw [draining, owned, drains]
        rfl
      · rfl
    constructor
    · exact registered.nodup
    · rw [List.filter_congr fun other _ => by rw [drainings other]]
      exact registered.used
    · exact registered.known
    · intro other entry count draining
      simp only [Interfaces.setProcess, Function.update_apply] at draining
      split at draining
      · rename_i same
        cases draining
        exact ⟨member, own.trans same.symm⟩
      · exact registered.drained other entry count draining
    · intro other entry finalising
      simp only [Interfaces.setProcess, Function.update_apply] at finalising
      split at finalising
      · cases finalising
      · exact registered.finalised other entry finalising

theorem Registered.niInit (registered : s.Registered) {process : ThreadId}
    {pid : Pid} (current : s.processes process = .initCommand pid)
    (apart : NiLabel.Apart s (.run process))
    (stepped : s.niInit process pid = some after) : after.Registered := by
  have before : ∀ ni left, s.processes process ≠ .drain ni left := by
    intro ni left
    rw [current]
    exact NiOp.noConfusion
  unfold Interfaces.niInit at stepped
  split at stepped
  · rename_i any
    obtain ⟨found, searched, rfl⟩ := Option.map_eq_some_iff.mp stepped
    refine registered.addInterface before (searchPid_unused searched) ?_
    intro ni member draining same
    have differs := apart pid current ni member draining
    rw [if_pos any, searched, same] at differs
    exact differs rfl
  · rename_i specific
    split at stepped
    · cases stepped
      exact { registered with }
    · rename_i unused
      cases stepped
      refine registered.addInterface before unused ?_
      intro ni member draining same
      have differs := apart pid current ni member draining
      rw [if_neg specific, same] at differs
      exact differs rfl

theorem Registered.step {label : NiLabel} (registered : s.Registered)
    (apart : label.Apart s) (stepped : niStep s label = some after) :
    after.Registered := by
  cases label with
  | callInit process pid =>
      obtain ⟨⟨running, idle⟩, equal⟩ :=
        Option.ite_none_right_eq_some.mp stepped
      cases equal
      exact registered.setProcess (by simp [idle]) (by simp) (by simp)
  | callFini process ni =>
      obtain ⟨⟨running, idle, member, own⟩, equal⟩ :=
        Option.ite_none_right_eq_some.mp stepped
      cases equal
      refine registered.setProcess (by simp [idle]) (by simp) ?_
      rintro other equal
      cases equal
      exact ⟨member, own⟩
  | run process =>
      simp only [niStep] at stepped
      split at stepped
      · cases stepped
      cases current : s.processes process with
      | idle =>
          rw [current] at stepped
          cases stepped
      | initCommand pid =>
          rw [current] at stepped
          exact registered.niInit current apart stepped
      | finiCommand ni =>
          rw [current] at stepped
          exact registered.niFini current stepped
      | drain ni left =>
          rw [current] at stepped
          exact registered.drainOne current stepped
  | acceptCommand ni =>
      simp only [niStep] at stepped
      split at stepped
      · cases stepped
      · cases stepped
        exact { registered with }
  | releaseCommand ni =>
      cases stepped
      exact { registered with }

/-- The PIDs are those in use exactly when no command queue is drained. -/
theorem Registered.onePerPid_iff (registered : s.Registered) :
    s.OnePerPid ↔ ∀ ni ∈ s.niHandles, s.draining ni = false := by
  constructor
  · rintro ⟨-, exact'⟩ ni member
    have length := (registered.used.symm.trans exact').length_eq
    rw [List.length_map, List.length_map] at length
    simpa using List.length_filter_eq_length_iff.mp length ni member
  · intro idle
    refine ⟨registered.nodup, ?_⟩
    have all : (s.niHandles.filter fun ni => !s.draining ni) = s.niHandles :=
      List.filter_eq_self.mpr fun ni member => by simp [idle ni member]
    have used := registered.used
    rwa [all] at used

end Interfaces

/-- As long as no `PtlNIInit` gets the PID of an interface whose command queue
is being drained, the interfaces of a node have different PIDs; the PIDs in use
are theirs exactly in the states in which no command queue is being drained;
and the search for `PTL_PID_ANY` always ends with an unused PID. -/
theorem one_interface_per_pid_iff {s : Interfaces}
    (reached : Reached niStep (fun s label => label.Apart s) {} s) :
    (s.OnePerPid ↔ ∀ ni ∈ s.niHandles, s.draining ni = false) ∧
      (s.niHandles.map s.pids).Nodup ∧
      ∃ pid, searchPid s.usedPids (s.usedPids.length + 1) 2048 = some pid ∧
        pid ∉ s.usedPids := by
  have registered : s.Registered :=
    reached.invariant Interfaces.registered_initial
      fun holds apart stepped => holds.step apart stepped
  exact ⟨registered.onePerPid_iff, registered.nodup,
    searchPid_ends s.usedPids 2048⟩

/-- A process initialises an interface with the PID of the one which another
process is still draining: one of its commands has not been accepted yet. -/
theorem drained_interface_shares_pid :
    ∃ s, Reached niStep Anything {} s ∧ s.niHandles.map s.pids = [10, 10] ∧
      ¬s.OnePerPid := by
  obtain ⟨s, final, shared⟩ : ∃ s, runLabels niStep (fun _ _ => true) {}
      [.callInit 0 10, .run 0, .acceptCommand 0, .callFini 0 0, .run 0, .run 0,
        .callInit 1 10, .run 1] = some s ∧
        s.niHandles.map s.pids = [10, 10] := ⟨_, rfl, rfl⟩
  refine ⟨s, reached_of_runLabels (fun _ _ _ => trivial) final, shared, ?_⟩
  rintro ⟨nodup, -⟩
  rw [shared] at nodup
  simp at nodup

/-- Two processes initialise an interface, one of them with `PTL_PID_ANY`. -/
theorem initialised_interfaces_one_per_pid :
    ∃ s, Reached niStep (fun s label => label.Apart s) {} s ∧
      s.niHandles.map s.pids = [10, 2048] ∧ s.OnePerPid := by
  have first : Reached niStep (fun s label => label.Apart s) {} _ :=
    .tail (.tail .refl
      (show NiLabel.Apart {} (.callInit 0 10) from trivial) rfl)
      (show NiLabel.Apart _ (.run 0) from
        fun pid current ni member => by cases member) rfl
  have second : Reached niStep (fun s label => label.Apart s) {} _ :=
    .tail (.tail first
      (show NiLabel.Apart _ (.callInit 1 pidAny) from trivial) rfl)
      (show NiLabel.Apart _ (.run 1) from
        fun pid current ni member draining => by
          rw [List.mem_singleton.mp member] at draining
          cases draining) rfl
  refine ⟨_, second, rfl, (one_interface_per_pid_iff second).1.mpr ?_⟩
  intro ni member
  rcases List.mem_cons.mp member with rfl | last
  · rfl
  · rw [List.mem_singleton.mp last]
    rfl

end S4BXI
