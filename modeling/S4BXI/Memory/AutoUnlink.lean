import S4BXI.Memory.Accesses
import S4BXI.Memory.Filling
import S4BXI.Nic.Runs

/-!
# The automatic unlink of an entry

While the requests for an entry are handled one after the other, the handler of
the first request which exhausts it unlinks it, with its only `AUTO_UNLINK`
event, and no request is matched with it any more.
-/

namespace S4BXI

open Lib

/-- The handlers which use an entry. -/
def State.using (s : State) (me : MeId) : Nat :=
  pending (Op.uses me) s.threads

/-- The `AUTO_UNLINK` events of an entry which an operation issues. -/
def Op.autoUnlinks (me : MeId) : Op → Nat
  | .putEvent _ event (.entry other) =>
      if event.type = .autoUnlink ∧ other = me then 1 else 0
  | _ => 0

/-- Whether an effect is an `AUTO_UNLINK` event of an entry. -/
def Obs.autoUnlinks (me : MeId) : Obs → Bool
  | .event _ issued (.entry other) =>
      issued.type == .autoUnlink && other == me
  | _ => false

/-- The `AUTO_UNLINK` events of an entry, issued or about to be issued. -/
def State.autoUnlinks (s : State) (me : MeId) : Nat :=
  s.log.countP (Obs.autoUnlinks me) + pending (Op.autoUnlinks me) s.threads

/-- The `AUTO_UNLINK` event of an entry, unless it is disabled or there is no
event queue. -/
def State.unlinkDue (s : State) (me : MeId) : Nat :=
  if !(s.mes me).hasOption MeOption.eventUnlinkDisable &&
      !(s.mes me).hasOption MeOption.eventSuccessDisable &&
      (s.pts (s.mes me).pt).eq.isSome then 1
  else 0

/-- The requests for an entry are handled one after the other: none is matched
with it while the handler of another one uses it. -/
def Label.OneByOne (sys : Sys) (me : MeId) (s : State) : Label → Prop
  | .run index => ∀ self msg rest pt list,
      s.threads[index]? = some ⟨self, .handle msg :: rest⟩ →
        ¬(s.reqs (s.reqOf msg)).processState > .created →
        Matched sys s self.nid msg pt list me → s.using me = 0
  | _ => True

/-- All requests for an entry have been handled and have exhausted it. -/
structure Closed (s : State) (me : MeId) : Prop where
  unused : s.using me = 0
  filled : s.sizes me ≠ []
  exhausted : (s.mes me).me.Exhausted (s.sizes me)

/-- The life of an entry: only the last of its requests may exhaust it, and it is
unlinked with one event when that request has been handled. -/
structure Draining (s : State) (me : MeId) : Prop where
  single : s.using me ≤ 1
  started : s.using me = 1 → s.sizes me ≠ []
  earlier : ∀ k, 0 < k → k < (s.sizes me).length →
    ¬(s.mes me).me.Exhausted ((s.sizes me).take k)
  unlinked : Closed s me → s.autoUnlinks me = s.unlinkDue me
  linked : ¬Closed s me → s.autoUnlinks me = 0
  gone : Closed s me → Gone s me

section Steps

variable {sys : Sys} {self : Actor} {s after : State} {me : MeId}

/-! ## `AUTO_UNLINK` events -/

theorem opsWeight_autoUnlinks {ops : List Op}
    (silent : ∀ op ∈ ops, op.autoUnlinks me = 0) :
    opsWeight (Op.autoUnlinks me) ops = 0 :=
  opsWeight_eq_zero silent

/-- Only a handler which leaves an entry issues its event. -/
theorem Follows.autoUnlinks {op added : Op}
    (follows : Follows sys self s op added) (stays : op.leaves ≠ some me) :
    added.autoUnlinks me = 0 := by
  have other : ∀ {entry : MeId}, op.leaves = some entry → entry ≠ me := by
    intro entry leaves same
    rw [same] at leaves
    exact stays leaves
  cases follows with
  | matched type found =>
      rename_i kind
      cases kind <;> rfl
  | putUnlinked type => simp [Op.autoUnlinks, other rfl]
  | getUnlinked type => simp [Op.autoUnlinks, other rfl]
  | atomicUnlinked type => simp [Op.autoUnlinks, other rfl]
  | fetchUnlinked type => simp [Op.autoUnlinks, other rfl]
  | linked type => simp [Op.autoUnlinks, type]
  | _ => rfl

theorem Emits.autoUnlinks {op : Op} {obs : Obs}
    (emits : Emits sys self s op obs)
    (puts : ∀ eq event origin, op ≠ .putEvent eq event origin) :
    obs.autoUnlinks me = false := by
  cases emits with
  | event => exact absurd rfl (puts _ _ _)
  | _ => rfl

theorem Phase.log_autoUnlinks {op : Op} {new : List Op}
    (phase : Phase sys self s op after new) (within : op.Within s.bounds)
    (puts : ∀ eq event origin, op ≠ .putEvent eq event origin) :
    after.log.countP (Obs.autoUnlinks me) =
      s.log.countP (Obs.autoUnlinks me) := by
  obtain ⟨extra, log, emitted⟩ := phase.emits within
  have silent : extra.countP (Obs.autoUnlinks me) = 0 := by
    apply List.countP_eq_zero.mpr
    intro obs member
    simp [(emitted obs member).autoUnlinks puts]
  rw [log, List.countP_append, silent, Nat.add_zero]

/-- Apart from the handlers which leave the entry, the events are issued as they
were pending. -/
theorem Phase.autoUnlinks {op : Op} {new : List Op}
    (phase : Phase sys self s op after new) (within : op.Within s.bounds)
    (stays : op.leaves ≠ some me) :
    after.log.countP (Obs.autoUnlinks me) +
        opsWeight (Op.autoUnlinks me) new =
      s.log.countP (Obs.autoUnlinks me) + op.autoUnlinks me := by
  have quiet := opsWeight_autoUnlinks fun added member =>
    (phase.follows added member).autoUnlinks stays
  rw [quiet, Nat.add_zero]
  by_cases puts : ∃ eq event origin, op = .putEvent eq event origin
  · obtain ⟨eq, event, origin, rfl⟩ := puts
    cases phase with
    | quiet quiet => cases quiet
    | putEvent =>
        simp only [State.emit, List.countP_append, List.countP_singleton]
        cases origin with
        | entry other => simp [Obs.autoUnlinks, Op.autoUnlinks]
        | request req => simp [Obs.autoUnlinks, Op.autoUnlinks]
        | header msg entry => simp [Obs.autoUnlinks, Op.autoUnlinks]
  · have silent : op.autoUnlinks me = 0 := by
      cases op with
      | putEvent eq event origin => exact absurd ⟨eq, event, origin, rfl⟩ puts
      | _ => rfl
    rw [silent, Nat.add_zero]
    exact phase.log_autoUnlinks within fun eq event origin same =>
      puts ⟨eq, event, origin, same⟩

/-- What a handler leaves when it leaves an entry. -/
theorem leaveEntry_autoUnlinks {reported : List Op}
    (silent : opsWeight (Op.autoUnlinks me) reported = 0) :
    opsWeight (Op.autoUnlinks me) (leaveEntry s me reported).2 =
      if (s.mes me).shouldAutoUnlink then s.unlinkDue me else 0 := by
  have left : (s.leaveMe me).mes me = { s.mes me with inUse := false } := by
    simp [State.leaveMe, State.modMe]
  have same : ((s.leaveMe me).mes me).shouldAutoUnlink =
      (s.mes me).shouldAutoUnlink := by
    rw [left]
    rfl
  cases unlinks : (s.mes me).shouldAutoUnlink with
  | false =>
      simp only [leaveEntry, maybeAutoUnlink, same, unlinks, Bool.not_false,
        if_true, List.nil_append, opsWeight_append, silent]
      rfl
  | true =>
      simp only [leaveEntry, maybeAutoUnlink, same, unlinks, Bool.not_true,
        Bool.false_eq_true, if_false, if_true, opsWeight_append, silent,
        opsWeight_nil, Nat.add_zero]
      unfold State.unlinkDue
      rw [left]
      change opsWeight _ (if (!(s.mes me).hasOption _ &&
        !(s.mes me).hasOption _) = true then issueEvent
          (s.pts (s.mes me).pt).eq _ _ else []) = _
      cases disabled : (!(s.mes me).hasOption MeOption.eventUnlinkDisable &&
          !(s.mes me).hasOption MeOption.eventSuccessDisable) with
      | false => rfl
      | true =>
          simp only [if_true, Bool.true_and]
          cases (s.pts (s.mes me).pt).eq with
          | none => rfl
          | some queue =>
              simp [issueEvent, Op.autoUnlinks, autoUnlinkEvent]

/-- The operations by which the handlers leave an entry. -/
theorem exec_leaves {op : Op} {segment : Segment}
    (executed : exec sys self s op = some segment)
    (leaves : op.leaves = some me) :
    ∃ base reported following, base.mes = s.mes ∧ base.pts = s.pts ∧
      opsWeight (Op.autoUnlinks me) reported = 0 ∧
      opsWeight (Op.autoUnlinks me) following = 0 ∧
      segment = ((leaveEntry base me reported).1,
        (leaveEntry base me reported).2 ++ following) := by
  have reports : ∀ kind req, opsWeight (Op.autoUnlinks me)
      (issuePutLike sys s kind (s.mes me) req) = 0 := by
    intro kind req
    exact opsWeight_autoUnlinks (@issuePutLike_every
      (fun op => op.autoUnlinks me = 0) sys s kind (s.mes me) req
      fun _ _ _ => rfl)
  cases op with
  | putFinish msg entry fail =>
      cases leaves
      cases executed
      refine ⟨s, _, sendDue msg fail (ackDue sys s (s.reqOf msg) (s.mes me)) ++
        pciSleep sys s self.nid msg, rfl, rfl, reports .put (s.reqOf msg), ?_,
        ?_⟩
      · rw [opsWeight_append, opsWeight_autoUnlinks (@sendDue_every
          (fun op => op.autoUnlinks me = 0) msg fail _ fun _ _ => rfl),
          opsWeight_autoUnlinks (@pciSleep_every
          (fun op => op.autoUnlinks me = 0) sys s self.nid msg rfl)]
      · simp only [putFinish, List.append_assoc]
  | getFinish msg entry response =>
      cases leaves
      cases executed
      refine ⟨_, [], [.txPut response], ?_, ?_, rfl, rfl, rfl⟩
      · split
        · unfold cappedMemcpy
          dsimp only
          split <;> rfl
        · rfl
      · split
        · unfold cappedMemcpy
          dsimp only
          split <;> rfl
        · rfl
  | atomicEvents msg entry =>
      cases leaves
      cases executed
      refine ⟨s, _, [], rfl, rfl, reports .atomic (s.reqOf msg), rfl, ?_⟩
      rw [List.append_nil]
      rfl
  | fetchAtomicFinish msg entry response =>
      cases leaves
      cases executed
      refine ⟨_, [], [.txPut response], ?_, ?_, rfl, rfl, rfl⟩
      · rfl
      · rfl
  | _ => cases leaves

/-! ## The test of `maybe_auto_unlink` -/

/-- A handler unlinks an entry when it is exhausted. -/
theorem shouldAutoUnlink_iff (tracked : Tracked s) (old : me < s.nextMe)
    (managed : (s.mes me).me.managesLocal = true)
    (reusable : (s.mes me).hasOption MeOption.useOnce = false)
    (summable : s.Summable me) :
    (s.mes me).shouldAutoUnlink = true ↔
      (s.mes me).me.Exhausted (s.sizes me) := by
  have manages : (s.mes me).hasOption MeOption.manageLocal = true := managed
  have offset : (s.mes me).manageLocalOffset =
      (s.mes me).me.filled (s.sizes me) := by
    rw [tracked.offset me old, offsetAfter_filled managed summable.sizes]
  have total : add64 (s.mes me).manageLocalOffset (s.mes me).me.minFree =
      (s.mes me).me.filled (s.sizes me) + (s.mes me).me.minFree := by
    rw [offset]
    exact Nat.mod_eq_of_lt summable.free
  unfold BxiME.shouldAutoUnlink
  rw [reusable, manages, Bool.false_or, Bool.true_and, decide_eq_true_iff,
    total]
  exact (Nat.sub_lt_iff_lt_add' (filled_le _ _)).symm

/-- The static parts of an entry. -/
theorem Extends.unlinkDue (grows : Extends s after)
    (allocated : Allocated s) (old : me < s.nextMe) :
    after.unlinkDue me = s.unlinkDue me := by
  have eq : (after.pts (s.mes me).pt).eq = (s.pts (s.mes me).pt).eq :=
    (congrArg BxiPT.eq (grows.pts _ (allocated.entries me old)) :)
  unfold State.unlinkDue BxiME.hasOption
  rw [grows.meOptions old, grows.mePt old, eq]

/-! ## Steps -/

/-- A step which concerns neither the requests of the entry nor its event. -/
theorem Draining.keep (draining : Draining s me)
    (options : (after.mes me).me = (s.mes me).me)
    (due : after.unlinkDue me = s.unlinkDue me)
    (sizes : after.sizes me = s.sizes me)
    (using' : after.using me = s.using me)
    (unlinks : after.autoUnlinks me = s.autoUnlinks me)
    (gone : Gone s me → Gone after me) : Draining after me := by
  have closed : Closed after me ↔ Closed s me := by
    constructor
    · intro closed
      exact ⟨using' ▸ closed.unused, sizes ▸ closed.filled,
        options ▸ sizes ▸ closed.exhausted⟩
    · intro closed
      exact ⟨using'.trans closed.unused, sizes.symm ▸ closed.filled,
        options.symm ▸ sizes.symm ▸ closed.exhausted⟩
  constructor
  · exact using'.le.trans draining.single
  · intro used
    rw [sizes]
    exact draining.started (using'.symm.trans used)
  · rw [sizes, options]
    exact draining.earlier
  · intro ends
    rw [unlinks, due]
    exact draining.unlinked (closed.mp ends)
  · intro goes
    rw [unlinks]
    exact draining.linked fun ends => goes (closed.mpr ends)
  · exact fun ends => gone (draining.gone (closed.mp ends))

/-- An entry which no request was matched with. -/
theorem draining_unused (sizes : s.sizes me = []) (using' : s.using me = 0)
    (unlinks : s.autoUnlinks me = 0) : Draining s me := by
  have opened : ¬Closed s me := fun closed => closed.filled sizes
  constructor
  · exact using'.le.trans (Nat.zero_le 1)
  · intro used
    rw [using'] at used
    cases used
  · intro k _ small
    rw [sizes] at small
    cases small
  · exact fun closed => absurd closed opened
  · exact fun _ => unlinks
  · exact fun closed => absurd closed opened

/-- A request is matched with the entry. -/
theorem Draining.matched (draining : Draining s me) {size : Size}
    (options : (after.mes me).me = (s.mes me).me)
    (linked : ¬Gone s me) (idle : s.using me = 0)
    (sizes : after.sizes me = s.sizes me ++ [size])
    (using' : after.using me = 1)
    (unlinks : after.autoUnlinks me = s.autoUnlinks me) :
    Draining after me := by
  have before : ¬Closed s me := fun closed => linked (draining.gone closed)
  have opened : ¬Closed after me := by
    intro closed
    have unused := closed.unused
    rw [using'] at unused
    cases unused
  constructor
  · exact using'.le
  · intro _
    rw [sizes]
    simp
  · intro k positive small
    rw [sizes, List.length_append, List.length_singleton] at small
    rw [options, sizes, List.take_append_of_le_length (Nat.le_of_lt_succ small)]
    rcases Nat.lt_or_eq_of_le (Nat.le_of_lt_succ small) with early | last
    · exact draining.earlier k positive early
    · intro exhausted
      rw [last, List.take_length] at exhausted
      refine before ⟨idle, ?_, exhausted⟩
      intro none'
      rw [last, none'] at positive
      cases positive
  · exact fun closed => absurd closed opened
  · intro _
    rw [unlinks]
    exact draining.linked before
  · exact fun closed => absurd closed opened

/-- A handler leaves the entry. -/
theorem Draining.left (draining : Draining s me) (used : s.using me = 1)
    (options : (after.mes me).me = (s.mes me).me)
    (due : after.unlinkDue me = s.unlinkDue me)
    (sizes : after.sizes me = s.sizes me) (using' : after.using me = 0)
    (exhausts : (s.mes me).me.Exhausted (s.sizes me) →
      after.autoUnlinks me = s.autoUnlinks me + s.unlinkDue me ∧
        Gone after me)
    (remains : ¬(s.mes me).me.Exhausted (s.sizes me) →
      after.autoUnlinks me = s.autoUnlinks me) : Draining after me := by
  have nothing : s.autoUnlinks me = 0 := by
    apply draining.linked
    intro closed
    have unused := closed.unused
    rw [used] at unused
    cases unused
  constructor
  · exact using'.le.trans (Nat.zero_le 1)
  · intro still
    rw [using'] at still
    cases still
  · rw [sizes, options]
    exact draining.earlier
  · intro closed
    have exhausted := closed.exhausted
    rw [options, sizes] at exhausted
    rw [(exhausts exhausted).1, nothing, Nat.zero_add, due]
  · intro goes
    rw [remains, nothing]
    intro exhausted
    refine goes ⟨using', ?_, ?_⟩
    · rw [sizes]
      exact draining.started used
    · rw [options, sizes]
      exact exhausted
  · intro closed
    have exhausted := closed.exhausted
    rw [options, sizes] at exhausted
    exact (exhausts exhausted).2

/-- What a handler which leaves an exhausted entry leaves behind. -/
theorem gone_of_leaves {base : State} {reported : List Op}
    (mes : base.mes = s.mes) (pts : base.pts = s.pts)
    (appending : Appending sys s) (once : LinkedOnce s)
    (unlinks : (s.mes me).shouldAutoUnlink = true)
    (running : (leaveEntry base me reported).1.halted = none)
    {threads : List (Thread Actor Op)}
    (pends : ∀ index op, PendsAt threads index op →
      op.appending = some me → s.Pends index op) :
    Gone { (leaveEntry base me reported).1 with threads := threads } me := by
  have left : (base.leaveMe me).mes me = { s.mes me with inUse := false } := by
    simp [State.leaveMe, State.modMe, mes]
  have same : ((base.leaveMe me).mes me).shouldAutoUnlink = true := by
    rw [left, ← unlinks]
    rfl
  have state : (leaveEntry base me reported).1 =
      unlink (base.leaveMe me) me := by
    simp [leaveEntry, maybeAutoUnlink, same]
  have unlinked := unlinks_unlink (base.leaveMe me) me
  rw [state] at running ⊢
  generalize unlink (base.leaveMe me) me = last at running unlinked ⊢
  cases unlinked with
  | deferred used =>
      rw [left] at used
      cases used
  | notLinked free absent => cases running
  | removed free linked =>
      have lists : ∀ pt list, (base.leaveMe me).pts pt = s.pts pt ∧
          BxiPT.listOf ((base.leaveMe me).pts pt) list =
            (s.pts pt).listOf list := by
        intro pt list
        change base.pts pt = _ ∧ (base.pts pt).listOf list = _
        rw [pts]
        exact ⟨rfl, rfl⟩
      have table : ((base.leaveMe me).mes me).pt = (s.mes me).pt := by
        rw [left]
      have kind : ((base.leaveMe me).mes me).list = (s.mes me).list := by
        rw [left]
      rw [table, kind, (lists _ _).2] at linked
      rw [table, kind]
      constructor
      · intro pt list member
        change me ∈ BxiPT.listOf (Function.update (base.leaveMe me).pts _ _
          pt) list at member
        rw [Function.update_apply] at member
        split at member
        · rename_i here
          subst here
          rw [setList_listOf, (lists _ _).2] at member
          split at member
          · exact (once _ _).not_mem_erase member
          · rename_i different
            rw [(lists _ _).2] at member
            exact different (appending.lists _ list me member).2.symm
        · rename_i different
          rw [(lists _ _).2] at member
          exact different (appending.lists pt list me member).1.symm
      · intro index op pending appends
        exact appending.unlinked (pends index op pending appends) appends _ _
          linked

/-- The steps of the actors keep the life of an entry. -/
theorem Draining.run (draining : Draining s me) (wellScoped : WellScoped s)
    (tracked : Tracked s) (appending : Appending sys s) (once : LinkedOnce s)
    {index : ThreadId} (stepped : step sys s (.run index) = some after)
    (running : after.halted = none) (old : me < s.nextMe)
    (managed : (s.mes me).me.managesLocal = true)
    (reusable : (s.mes me).hasOption MeOption.useOnce = false)
    (summable : s.Summable me)
    (oneByOne : (Label.run index).OneByOne sys me s) : Draining after me := by
  have advances := step_advances stepped
  have grows := advances.extends
  have pairing := advances.pairing wellScoped.ops
  have options := grows.meOptions old
  have due := grows.unlinkDue wellScoped.tables old
  obtain ⟨self, op, rest, ⟨next, new⟩, found, executed, same⟩ :=
    step_executes stepped running
  have phase : Phase sys self s op next new := exec_phase executed
  have within := wellScoped.ops _ (List.mem_of_getElem? found) op (by simp)
  have users := pending_run_same found new (Op.uses me)
  have issued := pending_run_same found new (Op.autoUnlinks me)
  have using' : after.using me + op.uses me =
      s.using me + opsWeight (Op.uses me) new := by
    rw [same]
    exact users
  have unlinks : after.autoUnlinks me + op.autoUnlinks me +
      s.log.countP (Obs.autoUnlinks me) =
      s.autoUnlinks me + next.log.countP (Obs.autoUnlinks me) +
        opsWeight (Op.autoUnlinks me) new := by
    rw [same]
    unfold State.autoUnlinks
    dsimp only
    omega
  cases phase.accesses within with
  | untouched untouched uses =>
      have idle := uses me
      have moved : Untouched s after := by
        rw [same]
        exact { untouched with }
      have sizes := moved.sizes wellScoped.tables grows me
      by_cases leaves : op.leaves = some me
      · have one : op.uses me = 1 := by
          unfold Op.uses
          rw [if_pos]
          cases op with
          | atomicFinish msg entry fail => cases leaves
          | _ => exact leaves
        rw [if_pos leaves, one] at idle
        rw [one] at using'
        have used : s.using me = 1 := by
          have bound := draining.single
          omega
        have puts : ∀ eq event origin, op ≠ .putEvent eq event origin := by
          intro eq event origin equal
          rw [equal] at leaves
          cases leaves
        have silent : op.autoUnlinks me = 0 := by
          cases op with
          | putEvent eq event origin => exact absurd rfl (puts _ _ _)
          | _ => rfl
        have logged : next.log.countP (Obs.autoUnlinks me) =
            s.log.countP (Obs.autoUnlinks me) :=
          phase.log_autoUnlinks within puts
        obtain ⟨base, reported, following, mes, pts, quiet, silent', parts⟩ :=
          exec_leaves executed leaves
        obtain ⟨nextEq, newEq⟩ := Prod.mk.inj parts
        have issues : opsWeight (Op.autoUnlinks me) new =
            if (s.mes me).shouldAutoUnlink then s.unlinkDue me else 0 := by
          rw [newEq, opsWeight_append, silent', Nat.add_zero,
            leaveEntry_autoUnlinks quiet]
          unfold State.unlinkDue
          rw [mes, pts]
        have test := shouldAutoUnlink_iff tracked old managed reusable summable
        apply draining.left used options due sizes
        · omega
        · intro exhausted
          have unlinked := test.mpr exhausted
          rw [unlinked, if_pos rfl] at issues
          constructor
          · omega
          · rw [same, nextEq]
            apply gone_of_leaves mes pts appending once unlinked
            · rw [← nextEq]
              rw [same] at running
              exact running
            · intro other op' pending appends
              have inert : op.appending = none := by
                cases op with
                | walkThroughUHs entry position => cases leaves
                | appendConsumed entry => cases leaves
                | _ => rfl
              exact pends_silent found (phase.appending_new inert) pending
                appends
        · intro remains
          have kept : (s.mes me).shouldAutoUnlink = false :=
            Bool.eq_false_iff.mpr fun unlinked => remains (test.mp unlinked)
          rw [kept] at issues
          simp only [Bool.false_eq_true, if_false] at issues
          omega
      · have balance := phase.autoUnlinks within leaves
        rw [if_neg leaves] at idle
        apply draining.keep options due sizes
        · omega
        · omega
        · exact fun gone => gone.step old pairing
  | @matched msg pt list entry _ _ fresh matched deposits uses =>
      have balance := @Phase.autoUnlinks _ _ _ _ me _ _ phase within nofun
      have weight := uses me
      have none' : (Op.handle msg).uses me = 0 := rfl
      rw [none'] at using'
      have moved : Deposits s msg entry after := by
        rw [same]
        exact { deposits with }
      have sizes := moved.sizes wellScoped.tables grows within me
      by_cases here : entry = me
      · subst here
        rw [if_pos rfl] at weight sizes
        have idle : s.using entry = 0 :=
          oneByOne self msg rest pt list found fresh matched
        apply draining.matched options _ idle sizes
        · omega
        · omega
        · intro gone
          exact gone.lists pt list (BxiPT.findEntry_mem matched.found).1
      · rw [if_neg here] at weight sizes
        rw [List.append_nil] at sizes
        apply draining.keep options due sizes
        · omega
        · omega
        · exact fun gone => gone.step old pairing

/-- An idle actor which starts neither uses an entry nor unlinks it. -/
theorem Draining.start (draining : Draining s me) (wellScoped : WellScoped s)
    {index : ThreadId} {label : Label} {new : List Op}
    (found : s.threads[index]? = some ⟨self, []⟩)
    (threads : after.threads = s.threads.set index ⟨self, new⟩)
    (grows : Extends s after) (untouched : Untouched s after)
    (pairing : Pairing sys s index label after) (log : after.log = s.log)
    (uses : opsWeight (Op.uses me) new = 0)
    (unlinks : opsWeight (Op.autoUnlinks me) new = 0)
    (old : me < s.nextMe) : Draining after me := by
  have users := pending_start_same found new (Op.uses me)
  have issued := pending_start_same found new (Op.autoUnlinks me)
  apply draining.keep (grows.meOptions old)
    (grows.unlinkDue wellScoped.tables old)
    (untouched.sizes wellScoped.tables grows me)
  · unfold State.using
    rw [threads, users, uses, Nat.add_zero]
  · unfold State.autoUnlinks
    rw [threads, issued, unlinks, Nat.add_zero, log]
  · exact fun gone => gone.step old pairing

/-- What an API call leaves to its actor. -/
theorem CallPhase.quiet {call : Call} {new : List Op}
    (phase : CallPhase sys self s call after new) (me : MeId) :
    opsWeight (Op.uses me) new = 0 ∧
      opsWeight (Op.autoUnlinks me) new = 0 := by
  cases phase with
  | appendOverflow taken =>
      constructor
      · exact opsWeight_uses (issueLink_every fun _ _ _ => rfl) me
      · apply opsWeight_autoUnlinks
        apply issueLink_every
        intro queue event kind
        simp [Op.autoUnlinks, kind]
  | _ => exact ⟨rfl, rfl⟩

/-- Nothing concerns an entry before it is allocated. -/
theorem unused_of_ge (wellScoped : WellScoped s) (fresh : s.nextMe ≤ me) :
    s.matchedWith me = [] ∧ s.using me = 0 ∧ s.autoUnlinks me = 0 := by
  have beyond : ¬me < s.nextMe := Nat.not_lt.mpr fresh
  refine ⟨?_, ?_, ?_⟩
  · apply List.eq_nil_iff_forall_not_mem.mpr
    intro req member
    exact beyond (matchedWith_within wellScoped.tables member).2
  · apply pending_eq_zero
    intro thread member op pends
    have within := wellScoped.ops thread member op pends
    unfold Op.uses
    rw [if_neg]
    intro uses
    cases op with
    | putFinish msg entry fail =>
        cases uses
        exact beyond within.2
    | atomicFinish msg entry fail =>
        cases uses
        exact beyond within.2
    | atomicEvents msg entry =>
        cases uses
        exact beyond within.2
    | getFinish msg entry response =>
        cases uses
        exact beyond within.2.1
    | fetchAtomicFinish msg entry response =>
        cases uses
        exact beyond within.2.1
    | _ => cases uses
  · have logged : s.log.countP (Obs.autoUnlinks me) = 0 := by
      apply List.countP_eq_zero.mpr
      intro obs member issued
      have within := wellScoped.tables.log obs member
      cases obs with
      | event eq issuedEvent origin =>
          cases origin with
          | entry other =>
              obtain ⟨-, same⟩ := (Bool.and_eq_true _ _).mp issued
              exact beyond (of_decide_eq_true same ▸ within)
          | _ => cases issued
      | _ => cases issued
    have waiting : pending (Op.autoUnlinks me) s.threads = 0 := by
      apply pending_eq_zero
      intro thread member op pends
      have within := wellScoped.ops thread member op pends
      cases op with
      | putEvent eq event origin =>
          cases origin with
          | entry other =>
              have different : other ≠ me := fun same => beyond (same ▸ within)
              simp [Op.autoUnlinks, different]
          | _ => rfl
      | _ => rfl
    unfold State.autoUnlinks
    rw [logged, waiting]

end Steps

/-! ## Runs -/

section Runs

variable {sys : Sys} {s : State}

/-- What the runs need for an entry. -/
def Label.Managed (sys : Sys) (me : MeId) (s : State) (label : Label) : Prop :=
  label.Typed ∧ label.OneByOne sys me s

/-- The life of an entry along every run in which its requests are handled one
after the other. -/
theorem ReachedBy.draining {me : MeId}
    (reached : ReachedBy sys (fun s label => label.Managed sys me s) s)
    (running : s.halted = none) (old : me < s.nextMe)
    (managed : (s.mes me).me.managesLocal = true)
    (reusable : (s.mes me).hasOption MeOption.useOnce = false)
    (summable : s.Summable me) : Draining s me := by
  let Along : State → Prop := fun s => s.halted = none → me < s.nextMe →
    (s.mes me).me.managesLocal = true →
    (s.mes me).hasOption MeOption.useOnce = false → s.Summable me →
    Draining s me
  have along : Along s := by
    refine reached.invariant_of_reached
      (fun _ small => absurd small (Nat.not_lt_zero me)) ?_
    intro before after label earlier holds allowed stepped running small
      managed reusable summable
    have wellScoped := ReachedBy.wellScoped earlier
    have advances := step_advances stepped
    have grows := advances.extends
    have pairing := advances.pairing wellScoped.ops
    rcases Nat.lt_or_ge me before.nextMe with old | fresh
    · -- The entry existed before the step.
      have options := grows.meOptions old
      have sizes : (before.sizes me).Sublist (after.sizes me) := by
        rcases advances.accesses wellScoped.ops with untouched |
          ⟨self, msg, rest, pt, list, entry, found, -, -, deposits⟩
        · rw [untouched.sizes wellScoped.tables grows]
        · have within : msg < before.nextMsg := wellScoped.ops _
            (List.mem_of_getElem? found) (.handle msg) (by simp)
          rw [deposits.sizes wellScoped.tables grows within]
          exact List.sublist_append_left _ _
      have less : (before.sizes me).sum ≤ (after.sizes me).sum :=
        sizes.sum_le_sum fun _ _ => Nat.zero_le _
      have summed : before.Summable me := by
        constructor
        · exact lt_of_le_of_lt less summable.sizes
        · have free := summable.free
          rw [options] at free
          exact lt_of_le_of_lt (Nat.add_le_add_right
            (min_le_min_left _ less) _) free
      have draining : Draining before me := by
        apply holds (step_enabled stepped).1 old
        · rw [← options]
          exact managed
        · unfold BxiME.hasOption at reusable ⊢
          rw [← options]
          exact reusable
        · exact summed
      rw [options] at managed
      have reused : (before.mes me).hasOption MeOption.useOnce = false := by
        unfold BxiME.hasOption at reusable ⊢
        rw [← options]
        exact reusable
      cases label with
      | run index =>
          exact draining.run wellScoped (ReachedBy.tracked earlier)
            (ReachedBy.appending earlier) (ReachedBy.linkedOnce earlier)
            stepped running old managed reused summed allowed.2
      | recv index position =>
          cases advances with
          | dangling dead owner => cases running
          | recv found target queued =>
              exact draining.start wellScoped found rfl grows
                { Untouched.refl before with } pairing rfl rfl rfl old
      | take index =>
          cases advances with
          | dangling dead owner => cases running
          | take found initiator queued =>
              exact draining.start wellScoped found rfl grows
                { Untouched.refl before with } pairing rfl rfl rfl old
      | wake index =>
          cases advances with
          | dangling dead owner => cases running
          | wake found e2e alive queued =>
              exact draining.start wellScoped found rfl grows
                { Untouched.refl before with } pairing rfl rfl rfl old
      | call index call =>
          cases advances with
          | dangling dead owner => cases running
          | call found user owned alive phase =>
              obtain ⟨uses, unlinks⟩ := phase.quiet me
              exact draining.start wellScoped found rfl grows
                { phase.untouched with } pairing phase.log uses unlinks old
    · -- The step is the call which made the entry.
      obtain ⟨unmatched, unused, none'⟩ := unused_of_ge wellScoped fresh
      have beyond : ¬me < before.nextMe := Nat.not_lt.mpr fresh
      cases label with
      | run index =>
          cases advances with
          | dangling dead owner => cases running
          | @run self op rest new next found alive phase =>
              have within := wellScoped.ops _ (List.mem_of_getElem? found) op
                (by simp)
              change me < next.nextMe at small
              rw [phase.nextMe within] at small
              exact absurd small beyond
      | recv index position =>
          cases advances with
          | dangling dead owner => cases running
          | recv found target queued => exact absurd small beyond
      | take index =>
          cases advances with
          | dangling dead owner => cases running
          | take found initiator queued => exact absurd small beyond
      | wake index =>
          cases advances with
          | dangling dead owner => cases running
          | wake found e2e alive queued => exact absurd small beyond
      | call index call =>
          cases advances with
          | dangling dead owner => cases running
          | @call self _ new next found user owned alive phase =>
              obtain ⟨uses, unlinks⟩ := phase.quiet me
              have users := pending_start_same found new (Op.uses me)
              have issued := pending_start_same found new (Op.autoUnlinks me)
              apply draining_unused
              · have untouched : Untouched before { next with
                    threads := before.threads.set index ⟨self, new⟩ } :=
                  { phase.untouched with }
                have nothing := untouched.matchedWith me
                rw [unmatched] at nothing
                exact List.map_eq_nil_iff.mpr nothing
              · unfold State.using at unused ⊢
                rw [users, unused, uses]
              · unfold State.autoUnlinks at none' ⊢
                dsimp only
                rw [issued, unlinks, phase.log]
                exact none'
  exact along running old managed reusable summable

/-- The requests which were matched with an entry fill it from its start,
without gap or overlap, and access nothing else of it. -/
structure FilledInOrder (s : State) (me : MeId) : Prop where
  offset : (s.mes me).manageLocalOffset = (s.mes me).me.filled (s.sizes me)
  fills : ∀ k req, (s.matchedWith me)[k]? = some req →
    Fills (s.mes me).me (s.sizes me) k (s.reqs req)
  inside : ∀ req ∈ s.matchedWith me,
    (s.reqs req).targetRemoteOffset + (s.reqs req).mlength ≤
      (s.mes me).me.length
  apart : ∀ (j k : Nat) (earlier later : ReqId),
    (s.matchedWith me)[j]? = some earlier →
    (s.matchedWith me)[k]? = some later → j < k →
      (s.reqs earlier).targetRemoteOffset + (s.reqs earlier).mlength ≤
        (s.reqs later).targetRemoteOffset
  accesses : Contained s

theorem filledInOrder_of_tracked {me : MeId} (tracked : Tracked s)
    (contained : Contained s) (old : me < s.nextMe)
    (typed : (s.mes me).me.Typed)
    (managed : (s.mes me).me.managesLocal = true)
    (summable : s.Summable me) : FilledInOrder s me := by
  have fills : ∀ k req, (s.matchedWith me)[k]? = some req →
      Fills (s.mes me).me (s.sizes me) k (s.reqs req) :=
    fun k req found =>
      fills_of_tracked tracked typed managed summable.sizes found
  constructor
  · rw [tracked.offset me old, offsetAfter_filled managed summable.sizes]
  · exact fills
  · intro req matched
    obtain ⟨k, found⟩ := List.mem_iff_getElem?.mp matched
    rw [(fills k req found).offset, (fills k req found).mlength]
    exact filled_le _ _
  · intro j k earlier later first second before
    exact (fills j earlier first).apart (fills k later second) before
  · exact contained

/-- For every entry which manages its offset: the requests which were matched
with it fill it in their order, and while they are handled one after the other
the first one which leaves less than `min_free` unlinks it, with one
`AUTO_UNLINK` event, and no request is matched with it any more. -/
theorem managed_entry_filled (me : MeId)
    (reached : ReachedBy sys (fun s label => label.Managed sys me s) s)
    (running : s.halted = none) (old : me < s.nextMe)
    (managed : (s.mes me).me.managesLocal = true)
    (summable : s.Summable me) :
    FilledInOrder s me ∧
      ((s.mes me).hasOption MeOption.useOnce = false → Draining s me) := by
  constructor
  · have typed : TypedState s :=
      ReachedBy.typedState (reached.mono fun _ _ allowed => allowed.1)
    exact filledInOrder_of_tracked (ReachedBy.tracked reached)
      (ReachedBy.contained reached running) old (typed.mes me old) managed
      summable
  · intro reusable
    exact ReachedBy.draining reached running old managed reusable summable

/-- A request which cannot overtake the handler of another one. -/
def Label.quietFor (me : MeId) (s : State) : Label → Bool
  | .run index =>
      match (s.threads[index]? : Option (Thread Actor Op)) with
      | some ⟨_, .handle _ :: _⟩ => s.using me == 0
      | _ => true
  | _ => true

theorem Label.quietFor.oneByOne {me : MeId} {label : Label}
    (quiet : label.quietFor me s = true) : label.OneByOne sys me s := by
  cases label with
  | run index =>
      intro self msg rest pt list found _ _
      simp only [Label.quietFor, found, beq_iff_eq] at quiet
      exact quiet
  | _ => exact trivial

end Runs

/-- Two Puts of eight bytes to an entry of twenty bytes, one after the other. -/
def fillingPuts : List Label :=
  let put : List Label := .call 0 (.request
      { md := { ni := 0, start := 500, length := 8 }, length := 8
        targetNid := 1, targetPid := 11, remoteOffset := 3 }) ::
    runs 0 3 ++ .take 1 :: runs 1 6 ++ .recv 9 0 :: runs 9 7
  prologue ++ appends
    { start := 1000, length := 20, minFree := 5
      options := MeOption.manageLocal } .priority :: runs 6 3 ++ put ++ put

/-- The second Put starts behind the first one, leaves four bytes and unlinks
the entry. -/
theorem second_put_unlinks_entry :
    ∃ s, ReachedBy (twoNodes {} { e2eOff := true })
        (fun s label => label.Managed (twoNodes {} { e2eOff := true }) 0 s) s ∧
      s.sizes 0 = [8, 8] ∧ (s.reqs 1).targetRemoteOffset = 8 ∧
      FilledInOrder s 0 ∧ Draining s 0 ∧ Closed s 0 ∧ s.unlinkDue 0 = 1 := by
  obtain ⟨s, reached, holds⟩ := reachedBy_of_executes
    (twoNodes {} { e2eOff := true })
    (fun s label => label.Typed ∧ label.quietFor 0 s = true) fillingPuts
    (fun s => decide (s.sizes 0 = [8, 8]) && decide (s.halted = none) &&
      decide (s.nextMe = 1 ∧ (s.reqs 1).targetRemoteOffset = 8) &&
      decide ((s.mes 0).me = { start := 1000, length := 20, minFree := 5
                               options := MeOption.manageLocal }) &&
      decide (s.using 0 = 0 ∧ s.unlinkDue 0 = 1))
    (by decide +kernel)
  simp only [Bool.and_eq_true, decide_eq_true_eq] at holds
  obtain ⟨⟨⟨⟨sizes, running⟩, allocated, offset⟩, entry⟩, unused, due⟩ := holds
  have oneByOne := reached.mono fun _ _ allowed =>
    (show Label.Managed (twoNodes {} { e2eOff := true }) 0 _ _ from
      ⟨allowed.1, Label.quietFor.oneByOne allowed.2⟩)
  have managed : (s.mes 0).me.managesLocal = true := by
    rw [entry]
    decide
  have summable : s.Summable 0 := by
    constructor
    · rw [sizes]
      decide
    · rw [sizes, entry]
      decide
  have reusable : (s.mes 0).hasOption MeOption.useOnce = false := by
    unfold BxiME.hasOption
    rw [entry]
    decide
  obtain ⟨filled, drains⟩ := managed_entry_filled 0 oneByOne running
    (by rw [allocated]; exact Nat.one_pos) managed summable
  refine ⟨s, oneByOne, sizes, offset, filled, drains reusable, ?_, due⟩
  refine ⟨unused, by rw [sizes]; simp, ?_⟩
  rw [sizes, entry]
  unfold PtlMe.Exhausted
  decide

end S4BXI
