import S4BXI.Matching.Cases

/-!
# The append in progress

Only the process which allocated a portal table entry appends to it, one entry
at a time.  The entry being appended is the newest one of its portal table
entry and is not linked yet, so that the priority list is sorted by the order
of the appends.
-/

namespace S4BXI

open Lib

/-- The operation is pending at the actor. -/
def State.Pends (s : State) (index : ThreadId) (op : Op) : Prop :=
  PendsAt s.threads index op

/-- The number of appends among pending operations. -/
def appendsIn (ops : List Op) : Nat := ops.countP fun op => op.appending.isSome

structure Appending (sys : Sys) (s : State) : Prop where
  owner : ∀ {index op me}, s.Pends index op → op.appending = some me →
    (sys.ni (s.pts (s.mes me).pt).ni).process = index
  single : ∀ thread ∈ s.threads, appendsIn thread.ops ≤ 1
  newest : ∀ {index op me}, s.Pends index op → op.appending = some me →
    ∀ other < s.nextMe, (s.mes other).pt = (s.mes me).pt → other ≤ me
  unlinked : ∀ {index op me}, s.Pends index op → op.appending = some me →
    ∀ pt list, me ∉ (s.pts pt).listOf list
  scans : ∀ {index me position}, s.Pends index (.walkThroughUHs me position) →
    (s.mes me).list = .priority
  lists : ∀ pt list, ∀ me ∈ (s.pts pt).listOf list,
    (s.mes me).pt = pt ∧ (s.mes me).list = list
  sorted : ∀ pt, (s.pts pt).priorityList.Pairwise (· < ·)

section Fixed

variable {s after : State} (grows : Extends s after) {me : MeId}
  (old : me < s.nextMe)

include grows old

theorem Extends.mePt : (after.mes me).pt = (s.mes me).pt :=
  (congrArg BxiME.pt (grows.mes me old) :)

theorem Extends.meList : (after.mes me).list = (s.mes me).list :=
  (congrArg BxiME.list (grows.mes me old) :)

theorem Extends.meOptions : (after.mes me).me = (s.mes me).me :=
  (congrArg BxiME.me (grows.mes me old) :)

/-- The interface of the portal table entry of an entry. -/
theorem Extends.meNi (allocated : Allocated s) :
    (after.pts (after.mes me).pt).ni = (s.pts (s.mes me).pt).ni := by
  rw [grows.mePt old]
  exact (congrArg BxiPT.ni (grows.pts _ (allocated.entries me old)) :)

end Fixed

theorem Op.within_appending {bounds : Bounds} {op : Op} {me : MeId}
    (within : op.Within bounds) (appends : op.appending = some me) :
    me < bounds.me := by
  cases op with
  | walkThroughUHs other index =>
      cases appends
      exact within
  | appendConsumed other =>
      cases appends
      exact within
  | _ => cases appends

/-- An operation which is pending at some actor mentions allocated objects. -/
theorem OpsAllocated.pends {s : State} (ops : OpsAllocated s)
    {index : ThreadId} {op : Op} (pends : s.Pends index op) :
    op.Within s.bounds := by
  obtain ⟨thread, member, pending⟩ := pends.mem
  exact ops thread member op pending

namespace Appending

variable {sys : Sys} {s after : State}

/-- Two appends on the same portal table entry are made by the same actor. -/
theorem same_actor (appending : Appending sys s) {index other : ThreadId}
    {op op' : Op} {me me' : MeId} (pends : s.Pends index op)
    (appends : op.appending = some me) (pends' : s.Pends other op')
    (appends' : op'.appending = some me')
    (same : (s.mes me').pt = (s.mes me).pt) : other = index := by
  rw [← appending.owner pends appends, ← appending.owner pends' appends',
    same]

/-- An actor with an append as its next operation has no other one. -/
theorem rest_silent (appending : Appending sys s) {index : ThreadId}
    {self : Actor} {op : Op} {rest : List Op} {me : MeId}
    (found : s.threads[index]? = some ⟨self, op :: rest⟩)
    (appends : op.appending = some me) :
    ∀ later ∈ rest, later.appending = none := by
  have bound := appending.single _ (List.mem_of_getElem? found)
  have none : rest.countP (fun op => op.appending.isSome) = 0 := by
    simp only [appendsIn, List.countP_cons, appends, Option.isSome_some,
      if_true] at bound
    omega
  intro later member
  have absent := List.countP_eq_zero.mp none later member
  simpa using absent

/-- The append which an operation continues. -/
def Continues (s : State) (index : ThreadId) (op : Op) (me : MeId) : Prop :=
  ∃ earlier, s.Pends index earlier ∧ earlier.appending = some me ∧
    ∀ position, op = .walkThroughUHs me position →
      ∃ before, earlier = .walkThroughUHs me before

theorem continues_self {index : ThreadId} {op : Op} {me : MeId}
    (pends : s.Pends index op) (appends : op.appending = some me) :
    Continues s index op me :=
  ⟨op, pends, appends, fun position equal => ⟨position, equal⟩⟩

/-- What stays when no entry is linked and no append starts. -/
theorem keep (appending : Appending sys s) (wellScoped : WellScoped s)
    (grows : Extends s after) (nextMe : after.nextMe = s.nextMe)
    (lists : ∀ pt list,
      ((after.pts pt).listOf list).Sublist ((s.pts pt).listOf list))
    (pends : ∀ {index op me}, after.Pends index op →
      op.appending = some me → Continues s index op me)
    (single : ∀ thread ∈ after.threads, appendsIn thread.ops ≤ 1) :
    Appending sys after where
  owner pending appends := by
    obtain ⟨earlier, began, same, scans⟩ := pends pending appends
    rw [grows.meNi (Op.within_appending (wellScoped.ops.pends began)
      same) wellScoped.tables]
    exact appending.owner began same
  single := single
  newest pending appends other small samePt := by
    obtain ⟨earlier, began, same, scans⟩ := pends pending appends
    have old := Op.within_appending (wellScoped.ops.pends began) same
    rw [nextMe] at small
    rw [grows.mePt small, grows.mePt old] at samePt
    exact appending.newest began same other small samePt
  unlinked pending appends pt list member := by
    obtain ⟨earlier, began, same, scans⟩ := pends pending appends
    exact appending.unlinked began same pt list
      ((lists pt list).subset member)
  scans pending := by
    obtain ⟨earlier, began, same, scans⟩ := pends pending rfl
    obtain ⟨before, rfl⟩ := scans _ rfl
    rw [grows.meList (wellScoped.ops.pends began)]
    exact appending.scans began
  lists pt list me member := by
    have linked := (lists pt list).subset member
    have old := (wellScoped.tables.pts pt).entries list me linked
    rw [grows.mePt old, grows.meList old]
    exact appending.lists pt list me linked
  sorted pt := (appending.sorted pt).sublist (lists pt .priority)

end Appending

section Threads

variable {s : State} {index : ThreadId} {self : Actor}

/-- The operations pending after an actor ran its next one. -/
theorem pends_run {op : Op} {rest new : List Op} {other : ThreadId}
    {pending : Op} (found : s.threads[index]? = some ⟨self, op :: rest⟩)
    (pends : PendsAt (s.threads.set index ⟨self, new ++ rest⟩) other
      pending) :
    other ≠ index ∧ s.Pends other pending ∨
      other = index ∧ (pending ∈ new ∨
        pending ∈ rest ∧ s.Pends other pending) := by
  rcases pends.of_set with ⟨differs, earlier⟩ | ⟨rfl, member⟩
  · exact .inl ⟨differs, earlier⟩
  · rcases List.mem_append.mp member with added | kept
    · exact .inr ⟨rfl, .inl added⟩
    · exact .inr ⟨rfl, .inr ⟨kept, _, found, List.mem_cons_of_mem _ kept⟩⟩

/-- The appends pending after an actor ran an operation which adds none. -/
theorem pends_silent {op : Op} {rest new : List Op}
    (found : s.threads[index]? = some ⟨self, op :: rest⟩)
    (nothing : ∀ added ∈ new, added.appending = none) {other : ThreadId}
    {pending : Op} {me : MeId}
    (pends : PendsAt (s.threads.set index ⟨self, new ++ rest⟩) other pending)
    (appends : pending.appending = some me) : s.Pends other pending := by
  rcases pends_run found pends with ⟨differs, earlier⟩ | ⟨same, added | kept⟩
  · exact earlier
  · rw [nothing pending added] at appends
    cases appends
  · exact kept.2

/-- The appends pending after an idle actor started on operations which append
nothing. -/
theorem pends_idle {new : List Op}
    (nothing : ∀ added ∈ new, added.appending = none) {other : ThreadId}
    {pending : Op} {me : MeId}
    (pends : PendsAt (s.threads.set index ⟨self, new⟩) other pending)
    (appends : pending.appending = some me) : s.Pends other pending := by
  rcases pends.of_set with ⟨differs, earlier⟩ | ⟨same, added⟩
  · exact earlier
  · simp [nothing pending added] at appends

theorem appendsIn_silent {ops : List Op}
    (nothing : ∀ op ∈ ops, op.appending = none) : appendsIn ops = 0 :=
  List.countP_eq_zero.mpr fun op member => by simp [nothing op member]

theorem appendsIn_append (first second : List Op) :
    appendsIn (first ++ second) = appendsIn first + appendsIn second :=
  List.countP_append

theorem appendsIn_cons (op : Op) (ops : List Op) :
    appendsIn (op :: ops) = op.appending.isSome.toNat + appendsIn ops := by
  unfold appendsIn
  rw [List.countP_cons]
  cases op.appending <;> simp [Nat.add_comm]

/-- The appends of every actor, after one of them ran. -/
theorem single_set {next : Thread Actor Op}
    (single : ∀ thread ∈ s.threads, appendsIn thread.ops ≤ 1)
    (bound : appendsIn next.ops ≤ 1) :
    ∀ thread ∈ s.threads.set index next, appendsIn thread.ops ≤ 1 := by
  intro thread member
  rcases List.mem_or_eq_of_mem_set member with old | rfl
  · exact single thread old
  · exact bound

end Threads

section Steps

variable {sys : Sys} {self : Actor} {s after : State} {index : ThreadId}

theorem setList_listOf (p : BxiPT) (list other : PtlList)
    (entries : List MeId) :
    (p.setList list entries).listOf other =
      if other = list then entries else p.listOf other := by
  cases list <;> cases other <;> rfl

theorem setList_headers (p : BxiPT) (list : PtlList) (entries : List MeId) :
    (p.setList list entries).unexpectedHeaders = p.unexpectedHeaders := by
  cases list <;> rfl

/-- The lists after an entry was linked. -/
theorem appendInsert_listOf (s : State) (me : MeId) (pt : PtId)
    (list : PtlList) :
    ((appendInsert s me).pts pt).listOf list =
      if pt = (s.mes me).pt ∧ list = (s.mes me).list then
        (s.pts pt).listOf list ++ [me]
      else
        (s.pts pt).listOf list := by
  simp only [appendInsert, State.modPt, Function.update_apply]
  by_cases same : pt = (s.mes me).pt
  · subst same
    simp only [if_true, setList_listOf, true_and]
    split
    · rename_i equal
      rw [equal]
    · rfl
  · simp [same]

theorem appendInsert_headers (s : State) (me : MeId) (pt : PtId) :
    ((appendInsert s me).pts pt).unexpectedHeaders =
      (s.pts pt).unexpectedHeaders := by
  simp only [appendInsert, State.modPt, Function.update_apply]
  split
  · rename_i same
    subst same
    exact setList_headers _ _ _
  · rfl

namespace Appending

/-- The entry whose headers have been scanned is linked. -/
theorem insert (appending : Appending sys s) (wellScoped : WellScoped s)
    {me : MeId} {position : Nat} {rest new : List Op}
    (found : s.threads[index]? =
      some ⟨self, .walkThroughUHs me position :: rest⟩)
    (nothing : ∀ added ∈ new, added.appending = none) :
    Appending sys { appendInsert s me with
      threads := s.threads.set index ⟨self, new ++ rest⟩ } := by
  have pendsMe : s.Pends index (.walkThroughUHs me position) :=
    ⟨_, found, List.mem_cons_self⟩
  have silent := appending.rest_silent found rfl
  have others : ∀ {other op me'},
      PendsAt (s.threads.set index ⟨self, new ++ rest⟩) other op →
        op.appending = some me' → s.Pends other op ∧ me' ≠ me := by
    intro other op me' pends appends
    rcases pends_run found pends with
      ⟨differs, earlier⟩ | ⟨same, added | ⟨kept, earlier⟩⟩
    · refine ⟨earlier, fun equal => differs ?_⟩
      exact appending.same_actor pendsMe rfl earlier appends (by rw [equal])
    · simp [nothing op added] at appends
    · simp [silent op kept] at appends
  have bound : appendsIn (new ++ rest) ≤ 1 := by
    simp [appendsIn_append, appendsIn_silent nothing, appendsIn_silent silent]
  constructor
  · intro other op me' pends appends
    have kept := (others pends appends).1
    have same : (s.mes me').pt < s.nextPt := wellScoped.tables.entries me'
      (Op.within_appending (wellScoped.ops.pends kept) appends)
    rw [show ((appendInsert s me).pts ((appendInsert s me).mes me').pt).ni =
      (s.pts (s.mes me').pt).ni from
      (Extends.appendInsert s me).meNi (Op.within_appending
        (wellScoped.ops.pends kept) appends) wellScoped.tables]
    exact appending.owner kept appends
  · exact single_set appending.single bound
  · intro other op me' pends appends
    exact appending.newest (others pends appends).1 appends
  · intro other op me' pends appends pt list member
    obtain ⟨kept, differs⟩ := others pends appends
    change me' ∈ ((appendInsert s me).pts pt).listOf list at member
    rw [appendInsert_listOf] at member
    split at member
    · rcases List.mem_append.mp member with linked | new
      · exact appending.unlinked kept appends pt list linked
      · exact differs (List.mem_singleton.mp new)
    · exact appending.unlinked kept appends pt list member
  · intro other me' position' pends
    exact appending.scans (others pends rfl).1
  · intro pt list me' member
    change me' ∈ ((appendInsert s me).pts pt).listOf list at member
    rw [appendInsert_listOf] at member
    split at member
    · rename_i here
      rcases List.mem_append.mp member with linked | new
      · exact appending.lists pt list me' linked
      · rw [List.mem_singleton.mp new]
        exact ⟨here.1.symm, here.2.symm⟩
    · exact appending.lists pt list me' member
  · intro pt
    change (((appendInsert s me).pts pt).listOf .priority).Pairwise _
    rw [appendInsert_listOf]
    split
    · rename_i here
      refine List.pairwise_append.mpr ⟨appending.sorted pt, by simp, ?_⟩
      intro other linked last member
      rw [List.mem_singleton.mp member]
      have small := (wellScoped.tables.pts pt).entries .priority other linked
      have samePt := (appending.lists pt .priority other linked).1
      refine lt_of_le_of_ne (appending.newest pendsMe rfl other small
        (by rw [samePt, here.1])) ?_
      intro equal
      exact appending.unlinked pendsMe rfl pt .priority (equal ▸ linked)
    · exact appending.sorted pt

/-- An idle process calls `PtlMEAppend` for the priority list. -/
theorem start (appending : Appending sys s) (wellScoped : WellScoped s)
    {pt : PtId} (me : PtlMe) (userPtr : Nat)
    (owner : (sys.ni (s.pts pt).ni).process = index) :
    Appending sys { newMe s pt me .priority userPtr with
      threads := s.threads.set index ⟨self, [.walkThroughUHs s.nextMe 0]⟩ } := by
  have grows := Extends.newMe s pt me .priority userPtr
  have created : (newMe s pt me .priority userPtr).mes s.nextMe =
      { pt := pt, me := me, list := .priority, userPtr := userPtr } := by
    simp [newMe]
  have cases : ∀ {other op me'}, PendsAt (s.threads.set index
      ⟨self, [.walkThroughUHs s.nextMe 0]⟩) other op →
        op.appending = some me' →
      other = index ∧ op = .walkThroughUHs s.nextMe 0 ∧ me' = s.nextMe ∨
        other ≠ index ∧ s.Pends other op ∧ me' < s.nextMe := by
    intro other op me' pends appends
    rcases pends.of_set with ⟨differs, earlier⟩ | ⟨same, member⟩
    · exact .inr ⟨differs, earlier,
        Op.within_appending (wellScoped.ops.pends earlier) appends⟩
    · rw [List.mem_singleton.mp member] at appends ⊢
      cases appends
      exact .inl ⟨same, rfl, rfl⟩
  constructor
  · intro other op me' pends appends
    change (sys.ni (s.pts ((newMe s pt me .priority userPtr).mes
      me').pt).ni).process = other
    rcases cases pends appends with
      ⟨rfl, rfl, rfl⟩ | ⟨differs, earlier, small⟩
    · rw [created]
      exact owner
    · rw [grows.mePt small]
      exact appending.owner earlier appends
  · exact single_set appending.single (by simp [appendsIn, Op.appending])
  · intro other op me' pends appends entry small samePt
    change ((newMe s pt me .priority userPtr).mes entry).pt =
      ((newMe s pt me .priority userPtr).mes me').pt at samePt
    rcases cases pends appends with
      ⟨rfl, rfl, rfl⟩ | ⟨differs, earlier, smaller⟩
    · exact Nat.le_of_lt_succ small
    · rcases Nat.lt_succ_iff_lt_or_eq.mp small with older | rfl
      · rw [grows.mePt older, grows.mePt smaller] at samePt
        exact appending.newest earlier appends entry older samePt
      · -- the other append would be on the portal table entry of this process
        rw [created, grows.mePt smaller] at samePt
        refine absurd ?_ differs
        rw [← appending.owner earlier appends, ← owner, ← samePt]
  · intro other op me' pends appends table list member
    change me' ∈ (s.pts table).listOf list at member
    rcases cases pends appends with
      ⟨rfl, rfl, rfl⟩ | ⟨differs, earlier, small⟩
    · exact absurd ((wellScoped.tables.pts table).entries list _ member)
        (Nat.lt_irrefl _)
    · exact appending.unlinked earlier appends table list member
  · intro other me' position pends
    change ((newMe s pt me .priority userPtr).mes me').list = .priority
    rcases cases pends rfl with
      ⟨rfl, equal, rfl⟩ | ⟨differs, earlier, small⟩
    · rw [created]
    · rw [grows.meList small]
      exact appending.scans earlier
  · intro table list entry member
    change ((newMe s pt me .priority userPtr).mes entry).pt = table ∧
      ((newMe s pt me .priority userPtr).mes entry).list = list
    have small := (wellScoped.tables.pts table).entries list entry member
    rw [grows.mePt small, grows.meList small]
    exact appending.lists table list entry member
  · exact appending.sorted

/-- An idle process calls `PtlMEAppend` for the overflow list. -/
theorem link (appending : Appending sys s) (wellScoped : WellScoped s)
    {pt : PtId} (me : PtlMe) (userPtr : Nat) {new : List Op}
    (owner : (sys.ni (s.pts pt).ni).process = index)
    (nothing : ∀ added ∈ new, added.appending = none) :
    Appending sys
      { appendInsert (newMe s pt me .overflow userPtr) s.nextMe with
        threads := s.threads.set index ⟨self, new⟩ } := by
  have grows : Extends s
      (appendInsert (newMe s pt me .overflow userPtr) s.nextMe) :=
    (Extends.newMe s pt me .overflow userPtr).trans (.appendInsert _ _)
  have created : (newMe s pt me .overflow userPtr).mes s.nextMe =
      { pt := pt, me := me, list := .overflow, userPtr := userPtr } := by
    simp [newMe]
  have others : ∀ {other op me'},
      PendsAt (s.threads.set index ⟨self, new⟩) other op →
        op.appending = some me' →
      other ≠ index ∧ s.Pends other op ∧ me' < s.nextMe := by
    intro other op me' pends appends
    rcases pends.of_set with ⟨differs, earlier⟩ | ⟨same, member⟩
    · exact ⟨differs, earlier,
        Op.within_appending (wellScoped.ops.pends earlier) appends⟩
    · simp [nothing op member] at appends
  have lists : ∀ table list entry,
      entry ∈ ((appendInsert (newMe s pt me .overflow userPtr)
        s.nextMe).pts table).listOf list →
      entry ∈ (s.pts table).listOf list ∨
        entry = s.nextMe ∧ table = pt ∧ list = .overflow := by
    intro table list entry member
    rw [appendInsert_listOf, created] at member
    split at member
    · rename_i here
      rcases List.mem_append.mp member with linked | last
      · exact .inl linked
      · exact .inr ⟨List.mem_singleton.mp last, here⟩
    · exact .inl member
  constructor
  · intro other op me' pends appends
    obtain ⟨differs, earlier, small⟩ := others pends appends
    rw [show _ = (s.pts (s.mes me').pt).ni from
      grows.meNi small wellScoped.tables]
    exact appending.owner earlier appends
  · exact single_set appending.single (by simp [appendsIn_silent nothing])
  · intro other op me' pends appends entry small samePt
    obtain ⟨differs, earlier, smaller⟩ := others pends appends
    change ((newMe s pt me .overflow userPtr).mes entry).pt =
      ((newMe s pt me .overflow userPtr).mes me').pt at samePt
    rw [(Extends.newMe s pt me .overflow userPtr).mePt smaller] at samePt
    rcases Nat.lt_succ_iff_lt_or_eq.mp small with older | rfl
    · rw [(Extends.newMe s pt me .overflow userPtr).mePt older] at samePt
      exact appending.newest earlier appends entry older samePt
    · rw [created] at samePt
      refine absurd ?_ differs
      rw [← appending.owner earlier appends, ← owner, ← samePt]
  · intro other op me' pends appends table list member
    obtain ⟨differs, earlier, small⟩ := others pends appends
    rcases lists table list me' member with linked | ⟨rfl, here⟩
    · exact appending.unlinked earlier appends table list linked
    · exact absurd small (Nat.lt_irrefl _)
  · intro other me' position pends
    obtain ⟨differs, earlier, small⟩ := others pends rfl
    rw [show _ = (s.mes me').list from grows.meList small]
    exact appending.scans earlier
  · intro table list entry member
    rcases lists table list entry member with linked | ⟨rfl, rfl, rfl⟩
    · have small := (wellScoped.tables.pts table).entries list entry linked
      change ((appendInsert (newMe s pt me .overflow userPtr)
        s.nextMe).mes entry).pt = table ∧ _ = list
      rw [grows.mePt small, show _ = (s.mes entry).list from
        grows.meList small]
      exact appending.lists table list entry linked
    · change ((newMe s table me .overflow userPtr).mes s.nextMe).pt = table ∧
        ((newMe s table me .overflow userPtr).mes s.nextMe).list = .overflow
      rw [created]
      exact ⟨rfl, rfl⟩
  · intro table
    change (((appendInsert (newMe s pt me .overflow userPtr)
      s.nextMe).pts table).listOf .priority).Pairwise _
    rw [appendInsert_listOf, created]
    simp only [reduceCtorEq, and_false, if_false]
    exact appending.sorted table

/-- The process which calls an append owns the portal table entry. -/
theorem owner_of_call (allocated : Allocated s) {ni : NiId} {slot : Nat}
    {pt : PtId} (taken : s.ptIndexes ni slot = some pt)
    (owned : (sys.ni ni).process = index) :
    (sys.ni (s.pts pt).ni).process = index := by
  rw [(allocated.ptIndexes ni slot pt taken).2.1]
  exact owned

theorem pairing {label : Label} (appending : Appending sys s)
    (wellScoped : WellScoped s) (grows : Extends s after)
    (pairing : Pairing sys s index label after) : Appending sys after := by
  cases pairing with
  | halt =>
      exact appending.keep wellScoped grows rfl (fun _ _ => .refl _)
        (fun pends appends => continues_self pends appends) appending.single
  | @run self op rest new after found pairs =>
      have member := List.mem_of_getElem? found
      have bound := appending.single _ member
      rw [appendsIn_cons] at bound
      cases pairs with
      | shrink idle nothing shrinks =>
          refine appending.keep wellScoped grows shrinks.nextMe shrinks.lists
            (fun pends appends => continues_self
              (pends_silent found nothing pends appends) appends)
            (single_set appending.single ?_)
          rw [appendsIn_append, appendsIn_silent nothing]
          omega
      | arrive nothing fresh matched arrives =>
          refine appending.keep wellScoped grows arrives.nextMe
            (fun pt list => (arrives.lists pt list).symm ▸ .refl _)
            (fun pends appends => continues_self
              (pends_silent found nothing pends appends) appends)
            (single_set appending.single ?_)
          rw [appendsIn_append, appendsIn_silent nothing]
          omega
      | insert scanned =>
          exact appending.insert wellScoped found
            (issueLink_every fun _ _ _ => rfl)
      | stop =>
          refine appending.keep wellScoped grows rfl (fun _ _ => .refl _)
            (fun pends appends => continues_self
              (pends_silent found (by simp) pends appends) appends)
            (single_set appending.single ?_)
          exact (Nat.le_add_left _ _).trans bound
      | @overflow me start position header matched search deposited =>
          have silent := appending.rest_silent found rfl
          have quiet : ∀ op ∈ (Op.unref header :: issueEvent
              (s.pts (s.mes me).pt).eq (overflowEvent sys s
                (s.reqs (s.reqOf header)) matched) (.header header me)),
              op.appending = none := by
            simp only [List.mem_cons]
            rintro op (rfl | issued)
            · rfl
            · exact issueEvent_every (P := (·.appending = none))
                (fun _ => rfl) op issued
          refine appending.keep wellScoped grows rfl ?_ ?_
            (single_set appending.single ?_)
          · intro pt list
            simp only [State.emit, State.modPt, State.modMe,
              Function.update_apply]
            split
            · rename_i same
              subst same
              cases list <;> exact .refl _
            · exact .refl _
          · intro other op me' pends appends
            rcases pends_run found pends with
              ⟨differs, earlier⟩ | ⟨rfl, added | ⟨kept, earlier⟩⟩
            · exact continues_self earlier appends
            · rcases List.mem_append.mp added with early | last
              · simp [quiet op early] at appends
              · rw [List.mem_singleton.mp last] at appends ⊢
                have same : me' = me := by
                  split at appends <;> exact (Option.some.inj appends).symm
                subst same
                exact ⟨_, ⟨_, found, List.mem_cons_self⟩, rfl,
                  fun _ _ => ⟨start, rfl⟩⟩
            · simp [silent op kept] at appends
          · change appendsIn ((_ ++ _) ++ rest) ≤ 1
            rw [appendsIn_append, appendsIn_append, appendsIn_silent quiet,
              appendsIn_silent silent]
            split <;> simp [appendsIn, Op.appending]
      | consumed =>
          refine appending.keep wellScoped grows rfl (fun _ _ => .refl _)
            (fun pends appends => continues_self
              (pends_silent found (by simp) pends appends) appends)
            (single_set appending.single ?_)
          exact (Nat.le_add_left _ _).trans bound
  | start found nothing shrinks =>
      refine appending.keep wellScoped grows shrinks.nextMe shrinks.lists
        (fun pends appends => continues_self
          (pends_idle nothing pends appends) appends)
        (single_set appending.single ?_)
      exact (appendsIn_silent nothing).le.trans (Nat.zero_le 1)
  | call found owned pairs =>
      have silent : ∀ op ∈ ([] : List Op), op.appending = none := by simp
      cases pairs with
      | shrink nothing shrinks =>
          refine appending.keep wellScoped grows shrinks.nextMe shrinks.lists
            (fun pends appends => continues_self
              (pends_idle nothing pends appends) appends)
            (single_set appending.single ?_)
          exact (appendsIn_silent nothing).le.trans (Nat.zero_le 1)
      | ptAlloc pts mes nextMe log reqs =>
          refine appending.keep wellScoped grows nextMe ?_
            (fun pends appends => continues_self
              (pends_idle silent pends appends) appends)
            (single_set appending.single (Nat.zero_le 1))
          intro pt list
          simp only [pts, Function.update_apply]
          split
          · cases list <;> exact List.nil_sublist _
          · exact .refl _
      | ptFree taken pts used nextMe log reqs =>
          refine appending.keep wellScoped grows nextMe ?_
            (fun pends appends => continues_self
              (pends_idle silent pends appends) appends)
            (single_set appending.single (Nat.zero_le 1))
          intro pt list
          simp only [pts, Function.update_apply]
          split
          · cases list <;> exact List.nil_sublist _
          · exact .refl _
      | appendPriority taken =>
          have owner := (Call.owned_interface owned List.mem_cons_self).1
          exact appending.start wellScoped _ _
            (owner_of_call wellScoped.tables taken owner)
      | appendOverflow taken =>
          have owner := (Call.owned_interface owned List.mem_cons_self).1
          exact appending.link wellScoped _ _
            (owner_of_call wellScoped.tables taken owner)
            (issueLink_every fun _ _ _ => rfl)

end Appending

/-- Nothing is pending initially. -/
theorem not_pends_initial (sys : Sys) {index : ThreadId} {op : Op} :
    ¬(initial sys).Pends index op := by
  intro pends
  obtain ⟨thread, member, pending⟩ := pends.mem
  obtain ⟨actor, actorMember, rfl⟩ := List.mem_map.mp member
  cases pending

theorem appending_initial (sys : Sys) : Appending sys (initial sys) := by
  have idle : ∀ {index op}, ¬(initial sys).Pends index op :=
    not_pends_initial sys
  constructor
  · exact fun pends => absurd pends idle
  · intro thread member
    obtain ⟨actor, actorMember, rfl⟩ := List.mem_map.mp member
    exact Nat.zero_le _
  · exact fun pends => absurd pends idle
  · exact fun pends => absurd pends idle
  · exact fun pends => absurd pends idle
  · intro pt list
    cases list <;> simp [initial, BxiPT.listOf]
  · simp [initial]

theorem ReachedBy.appending {allowed : State → Label → Prop}
    (reached : ReachedBy sys allowed s) : Appending sys s :=
  reached.invariant_of_reached (appending_initial sys) fun earlier holds _
    stepped => holds.pairing (ReachedBy.wellScoped earlier)
      (step_advances stepped).extends ((step_advances stepped).pairing
        (ReachedBy.wellScoped earlier).ops)

end Steps

end S4BXI
