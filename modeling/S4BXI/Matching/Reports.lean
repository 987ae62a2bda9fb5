import S4BXI.Matching.Linked
import S4BXI.Matching.Unexpected

/-!
# What an append reports

An append reports the requests which waited in the unexpected headers in the
order in which they arrived.  An entry which is to be used once is paired with
one request at most.
-/

namespace S4BXI

open Lib

/-- The request which an effect reports to an entry. -/
def Obs.reportTo (me : MeId) : Obs → Option ReqId
  | .overflow req _ _ other => if other = me then some req else none
  | _ => none

/-- The requests which the append of an entry has reported. -/
def reportedTo (me : MeId) (log : List Obs) : List ReqId :=
  log.filterMap (Obs.reportTo me)

/-- Whether an effect pairs a request with the entry. -/
def Obs.uses (me : MeId) : Obs → Bool
  | .consumed _ _ _ _ other | .overflow _ _ _ other => other = me
  | _ => false

/-- An entry to be used once is paired once at most, and is used then. -/
def UsedOnce (s : State) : Prop :=
  ∀ me < s.nextMe, (s.mes me).hasOption MeOption.useOnce = true →
    s.log.countP (Obs.uses me) ≤ if (s.mes me).used then 1 else 0

/-- Whether an effect reports a header to an entry. -/
def Obs.reportsHeader (header : MsgId) (me : MeId) : Obs → Bool
  | .overflow _ msg _ entry => msg = header && entry = me
  | _ => false

/-- Whether an effect is the event of such a report. -/
def Obs.declares (header : MsgId) (me : MeId) : Obs → Bool
  | .event _ _ (.header msg entry) => msg = header && entry = me
  | _ => false

/-- Whether an operation is about to issue this event. -/
def Op.declares (header : MsgId) (me : MeId) : Op → Nat
  | .putEvent _ _ (.header msg entry) =>
      if msg = header ∧ entry = me then 1 else 0
  | _ => 0

/-- Where the portal table entry has an event queue, every report has its
event, which may still have to be issued. -/
def Announcing (s : State) : Prop :=
  ∀ header me, s.log.countP (Obs.declares header me) +
      pending (Op.declares header me) s.threads =
    if (s.pts (s.mes me).pt).eq.isSome then
      s.log.countP (Obs.reportsHeader header me)
    else 0

section Logs

variable {s : State} {me : MeId}

theorem reportedTo_append (log extra : List Obs) :
    reportedTo me (log ++ extra) = reportedTo me log ++ reportedTo me extra :=
  List.filterMap_append

theorem reportedTo_silent {extra : List Obs}
    (silent : ∀ obs ∈ extra, obs.pairs = false) :
    reportedTo me extra = [] := by
  refine List.filterMap_eq_nil_iff.mpr fun obs member => ?_
  have none := silent obs member
  cases obs <;> first | rfl | cases none

theorem reportedTo_fresh (allocated : Allocated s) (fresh : s.nextMe ≤ me) :
    reportedTo me s.log = [] := by
  refine List.filterMap_eq_nil_iff.mpr fun obs logged => ?_
  have within := allocated.log obs logged
  cases obs with
  | overflow req msg pt other =>
      apply if_neg
      rintro rfl
      exact absurd fresh (not_le.mpr within.2.2.2)
  | _ => rfl

end Logs

/-! ## Arrival order -/

/-- What an append has reported, and then the headers which it has not passed,
arrived in that order. -/
structure Reporting (s : State) : Prop where
  reported : ∀ me < s.nextMe,
    (reportedTo me s.log).Sublist (arrivals (s.mes me).pt s.log)
  ahead : ∀ {index me position},
    s.Pends index (.walkThroughUHs me position) →
      (reportedTo me s.log ++
        ((s.pts (s.mes me).pt).unexpectedHeaders.drop position).map
          s.reqOf).Sublist (arrivals (s.mes me).pt s.log)

section Steps

variable {sys : Sys} {s after : State} {index : ThreadId} {self : Actor}

namespace Reporting

/-- What stays when no request is paired.  An append may begin. -/
theorem keep (reporting : Reporting s) (wellScoped : WellScoped s)
    (grows : Extends s after) (ordered : ∀ pt, Ordered sys after pt)
    (log : ∃ extra, after.log = s.log ++ extra ∧
      ∀ obs ∈ extra, obs.pairs = false)
    (headers : ∀ pt, (after.pts pt).unexpectedHeaders =
        (s.pts pt).unexpectedHeaders ∨
      (after.pts pt).unexpectedHeaders = [])
    (pends : ∀ {index me position},
      after.Pends index (.walkThroughUHs me position) →
        position = 0 ∧ s.nextMe ≤ me ∨
          s.Pends index (.walkThroughUHs me position)) : Reporting after := by
  obtain ⟨extra, log, silent⟩ := log
  have reports : ∀ me, reportedTo me after.log = reportedTo me s.log := by
    intro me
    rw [log, reportedTo_append, reportedTo_silent silent, List.append_nil]
  have arrived : ∀ pt, arrivals pt after.log = arrivals pt s.log := by
    intro pt
    rw [log, arrivals_append, arrivals_silent silent, List.append_nil]
  constructor
  · intro me _
    rw [reports]
    by_cases old : me < s.nextMe
    · rw [arrived, grows.mePt old]
      exact reporting.reported me old
    · rw [reportedTo_fresh wellScoped.tables (not_lt.mp old)]
      exact List.nil_sublist _
  · intro other me position pending
    rcases pends pending with ⟨rfl, fresh⟩ | earlier
    · rw [reports, reportedTo_fresh wellScoped.tables fresh, List.nil_append,
        List.drop_zero]
      exact (ordered _).headers
    · have old : me < s.nextMe := wellScoped.ops.pends earlier
      rw [reports, arrived, grows.mePt old]
      rcases headers (s.mes me).pt with same | none_left
      · rw [same, Ordered.map_reqOf grows fun msg member =>
          (wellScoped.tables.pts _).headers msg (List.mem_of_mem_drop member)]
        exact reporting.ahead earlier
      · rw [none_left, List.drop_nil, List.map_nil, List.append_nil]
        exact reporting.reported me old

/-- A request arrives behind the headers. -/
theorem arrive (reporting : Reporting s) (wellScoped : WellScoped s)
    (scanned : Scanned s) (grows : Extends s after) {msg : MsgId} {pt : PtId}
    {list : PtlList} {entry : MeId} (old : msg < s.nextMsg)
    (arrives : Arrives s msg pt list entry after)
    (pends : ∀ {index me position},
      after.Pends index (.walkThroughUHs me position) →
        s.Pends index (.walkThroughUHs me position)) : Reporting after := by
  obtain ⟨extra, log, silent⟩ := arrives.log
  have reports : ∀ me, reportedTo me after.log = reportedTo me s.log := by
    intro me
    rw [log, ← List.singleton_append, reportedTo_append, reportedTo_append,
      reportedTo_silent silent]
    exact List.append_nil _
  have arrived : ∀ table, arrivals table after.log = arrivals table s.log ++
      (if pt = table then [s.reqOf msg] else []) := by
    intro table
    rw [log, ← List.singleton_append, arrivals_append, arrivals_append,
      arrivals_silent silent, List.append_nil]
    by_cases here : pt = table
    · simp [arrivals, Obs.arrival, here]
    · simp [arrivals, Obs.arrival, here]
  constructor
  · intro me small
    rw [arrives.nextMe] at small
    rw [reports, arrived, grows.mePt small]
    exact (reporting.reported me small).trans (List.sublist_append_left _ _)
  · intro other me position pending
    have earlier := pends pending
    have small : me < s.nextMe := wellScoped.ops.pends earlier
    have inside := scanned.bound earlier
    have before := reporting.ahead earlier
    rw [reports, arrived, grows.mePt small, arrives.headers]
    by_cases waits : list = .overflow ∧ (s.mes me).pt = pt
    · rw [if_pos waits, if_pos waits.2.symm,
        List.drop_append_of_le_length inside, List.map_append,
        Ordered.map_reqOf grows fun msg member =>
          (wellScoped.tables.pts _).headers msg (List.mem_of_mem_drop member),
        List.map_singleton, grows.reqOf old, ← List.append_assoc]
      exact before.append (.refl _)
    · rw [if_neg waits, Ordered.map_reqOf grows fun msg member =>
        (wellScoped.tables.pts _).headers msg (List.mem_of_mem_drop member)]
      exact before.trans (List.sublist_append_left _ _)

/-- The scan reports a header and goes on behind it. -/
theorem overflow (reporting : Reporting s) (wellScoped : WellScoped s)
    (appending : Appending sys s) {me : MeId} {start position : Nat}
    {header : MsgId} {rest new : List Op} (grows : Extends s after)
    (nextMe : after.nextMe = s.nextMe)
    (threads : after.threads = s.threads.set index ⟨self, new ++ rest⟩)
    (headers : ∀ pt, (after.pts pt).unexpectedHeaders =
      if pt = (s.mes me).pt then
        (s.pts pt).unexpectedHeaders.eraseIdx position
      else (s.pts pt).unexpectedHeaders)
    (log : after.log = s.log ++
      [.overflow (s.reqOf header) header (s.mes me).pt me])
    (found : s.threads[index]? =
      some ⟨self, .walkThroughUHs me start :: rest⟩)
    (search : (s.pts (s.mes me).pt).findHeader
      (fun header => s.reqs (s.reqOf header)) (s.mes me) start =
        some (position, header))
    (resumes : ∀ op ∈ new, op.appending.isSome →
      op = .walkThroughUHs me position ∨ op = .appendConsumed me) :
    Reporting after := by
  have pendsMe : s.Pends index (.walkThroughUHs me start) :=
    ⟨_, found, List.mem_cons_self⟩
  have smallMe : me < s.nextMe := wellScoped.ops.pends pendsMe
  have silent := appending.rest_silent found rfl
  obtain ⟨late, present, matching, missed⟩ := BxiPT.findHeader_some search
  obtain ⟨inside, here⟩ := List.getElem?_eq_some_iff.mp present
  have reports : ∀ other, reportedTo other after.log =
      reportedTo other s.log ++
        (if me = other then [s.reqOf header] else []) := by
    intro other
    rw [log, reportedTo_append]
    by_cases same : me = other
    · simp [reportedTo, Obs.reportTo, same]
    · simp [reportedTo, Obs.reportTo, same]
  have arrived : ∀ pt, arrivals pt after.log = arrivals pt s.log := by
    intro pt
    rw [log, arrivals_append]
    exact List.append_nil _
  have kept : ∀ {pt position}, ((s.pts pt).unexpectedHeaders.drop
      position).map after.reqOf =
        ((s.pts pt).unexpectedHeaders.drop position).map s.reqOf :=
    Ordered.map_reqOf grows fun msg member =>
      (wellScoped.tables.pts _).headers msg (List.mem_of_mem_drop member)
  have erased : ((s.pts (s.mes me).pt).unexpectedHeaders.eraseIdx
      position).drop position =
        (s.pts (s.mes me).pt).unexpectedHeaders.drop (position + 1) := by
    rw [List.eraseIdx_eq_take_drop_succ]
    exact List.drop_left' (List.length_take_of_le (Nat.le_of_lt inside))
  -- what the scan has not passed begins with the header
  have split : (((s.pts (s.mes me).pt).unexpectedHeaders.drop position).map
      s.reqOf) = s.reqOf header ::
        ((s.pts (s.mes me).pt).unexpectedHeaders.drop (position + 1)).map
          s.reqOf := by
    rw [List.drop_eq_getElem_cons inside, here, List.map_cons]
  have next : (reportedTo me s.log ++ s.reqOf header ::
      ((s.pts (s.mes me).pt).unexpectedHeaders.drop (position + 1)).map
        s.reqOf).Sublist (arrivals (s.mes me).pt s.log) := by
    refine List.Sublist.trans ?_ (reporting.ahead pendsMe)
    rw [← split]
    have fewer : ((s.pts (s.mes me).pt).unexpectedHeaders.drop
        position).Sublist
          ((s.pts (s.mes me).pt).unexpectedHeaders.drop start) :=
      List.drop_sublist_drop_left _ late
    exact (List.Sublist.refl _).append (fewer.map _)
  constructor
  · intro other small
    rw [nextMe] at small
    rw [reports, arrived, grows.mePt small]
    by_cases same : me = other
    · subst same
      rw [if_pos rfl]
      refine List.Sublist.trans ?_ next
      exact (List.Sublist.refl _).append
        (List.singleton_sublist.mpr List.mem_cons_self)
    · rw [if_neg same, List.append_nil]
      exact reporting.reported other small
  · intro other entry place pends
    unfold State.Pends at pends
    rw [threads] at pends
    rcases pends_run found pends with
      ⟨differs, earlier⟩ | ⟨same, added | ⟨rests, earlier⟩⟩
    · have elsewhere : (s.mes entry).pt ≠ (s.mes me).pt := fun equal =>
        differs (appending.same_actor pendsMe rfl earlier rfl equal)
      have other : me ≠ entry := fun same => elsewhere (same ▸ rfl)
      rw [reports, arrived, grows.mePt (wellScoped.ops.pends earlier), headers,
        if_neg other, if_neg elsewhere, List.append_nil, kept]
      exact reporting.ahead earlier
    · rcases resumes _ added rfl with resumed | consumed
      · cases resumed
        rw [reports, arrived, grows.mePt smallMe, headers, if_pos rfl,
          if_pos rfl, erased, kept,
          List.append_assoc]
        exact next
      · cases consumed
    · have absent := silent _ rests
      cases absent

theorem pairing {label : Label} (reporting : Reporting s)
    (wellScoped : WellScoped s) (scanned : Scanned s)
    (appending : Appending sys s) (grows : Extends s after)
    (ordered : ∀ pt, Ordered sys after pt)
    (pairing : Pairing sys s index label after) : Reporting after := by
  cases pairing with
  | halt =>
      exact reporting.keep wellScoped grows ordered ⟨[], by simp [State.halt]⟩
        (fun _ => .inl rfl) .inr
  | @run self op rest new after found pairs =>
      cases pairs with
      | shrink idle nothing shrinks =>
          exact reporting.keep wellScoped grows ordered shrinks.log
            (fun pt => .inl (shrinks.headers pt))
            fun pends => .inr (pends_silent found nothing pends rfl)
      | arrive nothing fresh matched arrives =>
          have old := wellScoped.ops _ (List.mem_of_getElem? found) _
            List.mem_cons_self
          exact reporting.arrive wellScoped scanned grows old { arrives with }
            fun pends => pends_silent found nothing pends rfl
      | @insert me position complete =>
          exact reporting.keep wellScoped grows ordered
            ⟨[], by simp [appendInsert, State.modPt]⟩
            (fun pt => .inl (appendInsert_headers s me pt))
            fun pends => .inr (pends_silent found
              (issueLink_every fun _ _ _ => rfl) pends rfl)
      | stop =>
          exact reporting.keep wellScoped grows ordered
            ⟨[], by simp [State.halt]⟩ (fun _ => .inl rfl)
            fun pends => .inr (pends_silent found (by simp) pends rfl)
      | @overflow me start position header matched search deposited =>
          refine reporting.overflow wellScoped appending grows rfl rfl ?_ rfl
            found search ?_
          · intro pt
            simp only [State.emit, State.modPt, State.modMe,
              Function.update_apply]
            split
            · rename_i same
              rw [same]
            · rfl
          · intro op member appends
            simp only [List.mem_append, List.mem_cons, List.not_mem_nil,
              or_false] at member
            rcases member with (rfl | issued) | rfl
            · cases appends
            · have quiet := issueEvent_every (P := (·.appending = none))
                (fun _ => rfl) op issued
              simp [quiet] at appends
            · split
              · exact .inr rfl
              · exact .inl rfl
      | consumed =>
          exact reporting.keep wellScoped grows ordered
            ⟨[], by simp [destroyMe, State.modMe]⟩ (fun _ => .inl rfl)
            fun pends => .inr (pends_silent found (by simp) pends rfl)
  | start found nothing shrinks =>
      exact reporting.keep wellScoped grows ordered shrinks.log
        (fun pt => .inl (shrinks.headers pt))
        fun pends => .inr (pends_idle nothing pends rfl)
  | call found owned pairs =>
      have silent : ∀ op ∈ ([] : List Op), op.appending = none := by simp
      cases pairs with
      | shrink nothing shrinks =>
          exact reporting.keep wellScoped grows ordered shrinks.log
            (fun pt => .inl (shrinks.headers pt))
            fun pends => .inr (pends_idle nothing pends rfl)
      | ptAlloc pts mes nextMe log reqs =>
          refine reporting.keep wellScoped grows ordered ⟨[], by simp [log]⟩ ?_
            fun pends => .inr (pends_idle silent pends rfl)
          intro pt
          simp only [pts, Function.update_apply]
          split
          · exact .inr rfl
          · exact .inl rfl
      | ptFree taken pts used nextMe log reqs =>
          refine reporting.keep wellScoped grows ordered ⟨[], by simp [log]⟩ ?_
            fun pends => .inr (pends_idle silent pends rfl)
          intro pt
          simp only [pts, Function.update_apply]
          split
          · exact .inr rfl
          · exact .inl rfl
      | appendPriority taken =>
          refine reporting.keep wellScoped grows ordered
            ⟨[], by simp [newMe]⟩ (fun _ => .inl rfl) fun pends => ?_
          rcases pends.of_set with ⟨differs, earlier⟩ | ⟨here, member⟩
          · exact .inr earlier
          · cases List.mem_singleton.mp member
            exact .inl ⟨rfl, Nat.le_refl _⟩
      | appendOverflow taken =>
          exact reporting.keep wellScoped grows ordered
            ⟨[], by simp [appendInsert, State.modPt, newMe]⟩
            (fun pt => .inl (appendInsert_headers _ _ pt))
            fun pends => .inr (pends_idle
              (issueLink_every fun _ _ _ => rfl) pends rfl)

end Reporting

theorem ReachedBy.reporting {allowed : State → Label → Prop}
    (reached : ReachedBy sys allowed s) : Reporting s := by
  refine reached.invariant_of_reached ?_ ?_
  · constructor
    · intro me small
      exact absurd small (Nat.not_lt_zero me)
    · intro index me position pends
      exact absurd pends (not_pends_initial sys)
  · intro before after label earlier reporting permitted stepped
    have later : ReachedBy sys allowed after := .tail earlier permitted stepped
    have advances := step_advances stepped
    have wellScoped := ReachedBy.wellScoped earlier
    exact reporting.pairing wellScoped (ReachedBy.scanned earlier)
      (ReachedBy.appending earlier) advances.extends (ReachedBy.ordered later)
      (advances.pairing wellScoped.ops)

/-! ## Entries to be used once -/

theorem BxiME.unused_of_matches {entry : BxiME} {request : BxiRequest}
    (once : entry.hasOption MeOption.useOnce = true)
    (matching : entry.matchesRequest request = true) : entry.used = false := by
  cases used : entry.used with
  | false => rfl
  | true =>
      unfold BxiME.matchesRequest at matching
      simp [once, used] at matching

/-- What is not paired is not used. -/
theorem countP_uses_silent {extra : List Obs} {me : MeId}
    (silent : ∀ obs ∈ extra, obs.pairs = false) :
    extra.countP (Obs.uses me) = 0 := by
  rw [List.countP_eq_zero]
  intro obs member
  have none := silent obs member
  cases obs <;> first | exact Bool.false_ne_true | cases none

namespace UsedOnce

theorem keep (usedOnce : UsedOnce s) (grows : Extends s after)
    (allocated : Allocated s)
    (log : ∃ extra, after.log = s.log ++ extra ∧
      ∀ obs ∈ extra, obs.pairs = false)
    (used : ∀ me < s.nextMe, (after.mes me).used = (s.mes me).used) :
    UsedOnce after := by
  obtain ⟨extra, log, silent⟩ := log
  intro me _ once
  rw [log, List.countP_append, countP_uses_silent silent, Nat.add_zero]
  by_cases old : me < s.nextMe
  · rw [used me old]
    apply usedOnce me old
    unfold BxiME.hasOption at once ⊢
    rw [← grows.meOptions old]
    exact once
  · have fresh : s.log.countP (Obs.uses me) = 0 := by
      rw [List.countP_eq_zero]
      intro obs logged uses
      have within := allocated.log obs logged
      cases obs with
      | consumed req msg pt list other =>
          have same : other = me := by simpa [Obs.uses] using uses
          exact old (same ▸ within.2.2.2)
      | overflow req msg pt other =>
          have same : other = me := by simpa [Obs.uses] using uses
          exact old (same ▸ within.2.2.2)
      | _ => cases uses
    rw [fresh]
    exact Nat.zero_le _

/-- An entry is paired with a request which it matches. -/
theorem pair (usedOnce : UsedOnce s) (grows : Extends s after) {entry : MeId}
    {obs : Obs} {extra : List Obs} {request : BxiRequest}
    (nextMe : after.nextMe = s.nextMe)
    (log : after.log = s.log ++ obs :: extra)
    (silent : ∀ obs ∈ extra, obs.pairs = false)
    (uses : ∀ me, obs.uses me = decide (entry = me))
    (used : ∀ me, (after.mes me).used =
      if me = entry then true else (s.mes me).used)
    (matching : (s.mes entry).matchesRequest request = true) :
    UsedOnce after := by
  intro me small once
  rw [nextMe] at small
  have before : (s.mes me).hasOption MeOption.useOnce = true := by
    unfold BxiME.hasOption at once ⊢
    rw [← grows.meOptions small]
    exact once
  have bound := usedOnce me small before
  rw [log, List.countP_append, List.countP_cons, countP_uses_silent silent,
    uses, used]
  by_cases same : entry = me
  · subst same
    rw [BxiME.unused_of_matches before matching] at bound
    simpa using bound
  · simpa [same, Ne.symm same] using bound

theorem pairing {label : Label} (usedOnce : UsedOnce s)
    (grows : Extends s after) (allocated : Allocated s)
    (pairing : Pairing sys s index label after) : UsedOnce after := by
  cases pairing with
  | halt =>
      exact usedOnce.keep grows allocated ⟨[], by simp [State.halt]⟩
        fun _ _ => rfl
  | run found pairs =>
      cases pairs with
      | shrink idle nothing shrinks =>
          exact usedOnce.keep grows allocated shrinks.log
            fun me _ => shrinks.used me
      | arrive nothing fresh matched arrives =>
          obtain ⟨extra, log, silent⟩ := arrives.log
          exact usedOnce.pair grows arrives.nextMe log silent (fun _ => rfl)
            arrives.used (BxiPT.findEntry_mem matched.found).2
      | @insert me position scanned =>
          exact usedOnce.keep grows allocated
            ⟨[], by simp [appendInsert, State.modPt]⟩ fun _ _ => rfl
      | stop =>
          exact usedOnce.keep grows allocated ⟨[], by simp [State.halt]⟩
            fun _ _ => rfl
      | @overflow me start position header matched search copied =>
          refine usedOnce.pair grows rfl rfl (List.forall_mem_nil _)
            (fun _ => rfl) ?_ (BxiPT.findHeader_some search).2.2.1
          intro other
          simp only [State.emit, State.modPt, State.modMe,
            Function.update_apply]
          split
          · rfl
          · rfl
      | @consumed me =>
          refine usedOnce.keep grows allocated
            ⟨[], by simp [destroyMe, State.modMe]⟩ ?_
          intro other _
          simp only [destroyMe, State.modMe, Function.update_apply]
          split
          · rename_i same
            rw [same]
          · rfl
  | start found nothing shrinks =>
      exact usedOnce.keep grows allocated shrinks.log
        fun me _ => shrinks.used me
  | call found owned pairs =>
      cases pairs with
      | shrink nothing shrinks =>
          exact usedOnce.keep grows allocated shrinks.log
            fun me _ => shrinks.used me
      | ptAlloc pts mes nextMe log reqs =>
          refine usedOnce.keep grows allocated ⟨[], by simp [log]⟩ ?_
          intro me _
          dsimp only
          rw [mes]
      | ptFree taken pts used nextMe log reqs =>
          exact usedOnce.keep grows allocated ⟨[], by simp [log]⟩
            fun me _ => used me
      | appendPriority taken =>
          refine usedOnce.keep grows allocated ⟨[], by simp [newMe]⟩ ?_
          intro me old
          simp [newMe, Nat.ne_of_lt old]
      | appendOverflow taken =>
          refine usedOnce.keep grows allocated
            ⟨[], by simp [appendInsert, State.modPt, newMe]⟩ ?_
          intro me old
          simp [appendInsert, State.modPt, newMe, Nat.ne_of_lt old]

end UsedOnce

theorem ReachedBy.usedOnce {allowed : State → Label → Prop}
    (reached : ReachedBy sys allowed s) : UsedOnce s := by
  refine reached.invariant_of_reached ?_ ?_
  · intro me small
    exact absurd small (Nat.not_lt_zero me)
  · intro before after label earlier usedOnce permitted stepped
    have advances := step_advances stepped
    have wellScoped := ReachedBy.wellScoped earlier
    exact usedOnce.pairing advances.extends wellScoped.tables
      (advances.pairing wellScoped.ops)

/-- The entry is not linked and nobody looks at the headers for it. -/
structure Unlisted (s : State) (me : MeId) : Prop where
  lists : ∀ pt list, me ∉ (s.pts pt).listOf list
  scans : ∀ index position, ¬s.Pends index (.walkThroughUHs me position)

/-- A scan goes on, unless it has just begun. -/
theorem Pairing.scans {label : Label} {other : ThreadId} {position : Nat}
    {me : MeId} (pairing : Pairing sys s index label after)
    (old : me < s.nextMe)
    (pends : after.Pends other (.walkThroughUHs me position)) :
    ∃ earlier, s.Pends other (.walkThroughUHs me earlier) := by
  cases pairing with
  | halt => exact ⟨position, pends⟩
  | @run self op rest new after found pairs =>
      cases pairs with
      | shrink idle nothing shrinks =>
          exact ⟨position, pends_silent found nothing pends rfl⟩
      | arrive nothing fresh matched arrives =>
          exact ⟨position, pends_silent found nothing pends rfl⟩
      | insert scanned =>
          exact ⟨position, pends_silent found (issueLink_every fun _ _ _ => rfl)
            pends rfl⟩
      | stop => exact ⟨position, pends_silent found (by simp) pends rfl⟩
      | @overflow entry start place header matched search copied =>
          rcases pends_run found pends with
            ⟨differs, earlier⟩ | ⟨rfl, added | ⟨rests, earlier⟩⟩
          · exact ⟨position, earlier⟩
          · rcases List.mem_append.mp added with first | last
            · rcases List.mem_cons.mp first with same | issued
              · cases same
              · have quiet := issueEvent_every (P := (·.appending = none))
                  (fun _ => rfl) _ issued
                cases quiet
            · have same := List.mem_singleton.mp last
              split at same
              · cases same
              · cases same
                exact ⟨start, _, found, List.mem_cons_self⟩
          · exact ⟨position, earlier⟩
      | consumed => exact ⟨position, pends_silent found (by simp) pends rfl⟩
  | start found nothing shrinks =>
      exact ⟨position, pends_idle nothing pends rfl⟩
  | call found owned pairs =>
      have silent : ∀ op ∈ ([] : List Op), op.appending = none := by simp
      cases pairs with
      | shrink nothing shrinks =>
          exact ⟨position, pends_idle nothing pends rfl⟩
      | ptAlloc pts mes nextMe log reqs =>
          exact ⟨position, pends_idle silent pends rfl⟩
      | ptFree taken pts used nextMe log reqs =>
          exact ⟨position, pends_idle silent pends rfl⟩
      | appendPriority taken =>
          rcases pends.of_set with ⟨differs, earlier⟩ | ⟨here, member⟩
          · exact ⟨position, earlier⟩
          · cases List.mem_singleton.mp member
            exact absurd old (Nat.lt_irrefl _)
      | appendOverflow taken =>
          exact ⟨position, pends_idle (issueLink_every fun _ _ _ => rfl) pends
            rfl⟩

/-- An entry is linked at the end of its scan. -/
theorem Pairing.listed {label : Label} {me : MeId} {pt : PtId} {list : PtlList}
    (pairing : Pairing sys s index label after) (old : me < s.nextMe)
    (member : me ∈ (after.pts pt).listOf list) :
    me ∈ (s.pts pt).listOf list ∨
      ∃ position, s.Pends index (.walkThroughUHs me position) := by
  cases pairing with
  | halt => exact .inl member
  | run found pairs =>
      cases pairs with
      | shrink idle nothing shrinks =>
          exact .inl ((shrinks.lists pt list).subset member)
      | arrive nothing fresh matched arrives =>
          exact .inl (arrives.lists pt list ▸ member)
      | @insert entry position scanned =>
          dsimp only at member
          rw [appendInsert_listOf] at member
          split at member
          · rcases List.mem_append.mp member with linked | last
            · exact .inl linked
            · cases List.mem_singleton.mp last
              exact .inr ⟨position, _, found, List.mem_cons_self⟩
          · exact .inl member
      | stop => exact .inl member
      | @overflow entry start place header matched search copied =>
          simp only [State.emit, State.modPt, State.modMe,
            Function.update_apply] at member
          split at member
          · rename_i same
            subst same
            cases list <;> exact .inl member
          · exact .inl member
      | consumed => exact .inl member
  | start found nothing shrinks =>
      exact .inl ((shrinks.lists pt list).subset member)
  | call found owned pairs =>
      cases pairs with
      | shrink nothing shrinks =>
          exact .inl ((shrinks.lists pt list).subset member)
      | ptAlloc pts mes nextMe log reqs =>
          simp only [pts, Function.update_apply] at member
          split at member
          · cases list <;> cases member
          · exact .inl member
      | ptFree taken pts used nextMe log reqs =>
          simp only [pts, Function.update_apply] at member
          split at member
          · cases list <;> cases member
          · exact .inl member
      | appendPriority taken => exact .inl member
      | appendOverflow taken =>
          dsimp only at member
          rw [appendInsert_listOf] at member
          split at member
          · rcases List.mem_append.mp member with linked | last
            · exact .inl linked
            · cases List.mem_singleton.mp last
              exact absurd old (Nat.lt_irrefl _)
          · exact .inl member

theorem Unlisted.step {label : Label} {me : MeId} (unlisted : Unlisted s me)
    (old : me < s.nextMe) (pairing : Pairing sys s index label after) :
    Unlisted after me := by
  constructor
  · intro pt list member
    rcases pairing.listed old member with linked | ⟨position, pends⟩
    · exact unlisted.lists pt list linked
    · exact unlisted.scans index position pends
  · intro other position pends
    obtain ⟨earlier, before⟩ := pairing.scans old pends
    exact unlisted.scans other earlier before

/-- An append which reports a header to an entry to be used once drops it. -/
theorem Unlisted.overflow {label : Label} {me : MeId} {req : ReqId}
    {header : MsgId} {pt : PtId} (appending : Appending sys s)
    (wellScoped : WellScoped s) (pairing : Pairing sys s index label after)
    (grows : Extends s after)
    (once : (after.mes me).hasOption MeOption.useOnce = true)
    (fresh : .overflow req header pt me ∉ s.log)
    (logged : .overflow req header pt me ∈ after.log) : Unlisted after me := by
  have silent : ∀ {extra : List Obs}, after.log = s.log ++ extra →
      (∀ obs ∈ extra, obs.pairs = false) → Unlisted after me := by
    intro extra log silent
    rw [log] at logged
    rcases List.mem_append.mp logged with earlier | added
    · exact absurd earlier fresh
    · have none := silent _ added
      cases none
  cases pairing with
  | halt => exact absurd logged fresh
  | @run self op rest new after found pairs =>
      cases pairs with
      | shrink idle nothing shrinks =>
          obtain ⟨extra, log, quiet⟩ := shrinks.log
          exact silent log quiet
      | arrive nothing unprocessed matched arrives =>
          obtain ⟨extra, log, quiet⟩ := arrives.log
          dsimp only at logged
          rw [log] at logged
          rcases List.mem_append.mp logged with earlier | added
          · exact absurd earlier fresh
          · rcases List.mem_cons.mp added with same | later
            · cases same
            · have none := quiet _ later
              cases none
      | insert scanned => exact absurd logged fresh
      | stop => exact absurd logged fresh
      | @overflow entry start place other matched search copied =>
          rcases List.mem_append.mp logged with earlier | added
          · exact absurd earlier fresh
          · cases List.mem_singleton.mp added
            have pendsMe : s.Pends index (.walkThroughUHs me start) :=
              ⟨_, found, List.mem_cons_self⟩
            have old : me < s.nextMe := wellScoped.ops.pends pendsMe
            have useOnce : (s.mes me).hasOption MeOption.useOnce = true := by
              unfold BxiME.hasOption at once ⊢
              rw [← grows.meOptions old]
              exact once
            constructor
            · intro table list member
              simp only [State.emit, State.modPt, State.modMe,
                Function.update_apply] at member
              have absent := appending.unlinked pendsMe rfl table list
              split at member
              · rename_i same
                subst same
                cases list <;> exact absent member
              · exact absent member
            · intro other position pends
              rw [if_pos useOnce] at pends
              rcases pends_run found pends with
                ⟨differs, earlier⟩ | ⟨-, added | ⟨rests, earlier⟩⟩
              · exact differs
                  (appending.same_actor pendsMe rfl earlier rfl rfl)
              · rcases List.mem_append.mp added with first | last
                · rcases List.mem_cons.mp first with same | issued
                  · cases same
                  · have quiet := issueEvent_every (P := (·.appending = none))
                      (fun _ => rfl) _ issued
                    cases quiet
                · cases List.mem_singleton.mp last
              · have absent := appending.rest_silent found rfl _ rests
                cases absent
      | consumed => exact absurd logged fresh
  | start found nothing shrinks =>
      obtain ⟨extra, log, quiet⟩ := shrinks.log
      exact silent log quiet
  | call found owned pairs =>
      cases pairs with
      | shrink nothing shrinks =>
          obtain ⟨extra, log, quiet⟩ := shrinks.log
          exact silent log quiet
      | ptAlloc pts mes nextMe log reqs =>
          dsimp only at logged
          rw [log] at logged
          exact absurd logged fresh
      | ptFree taken pts used nextMe log reqs =>
          dsimp only at logged
          rw [log] at logged
          exact absurd logged fresh
      | appendPriority taken => exact absurd logged fresh
      | appendOverflow taken => exact absurd logged fresh

theorem ReachedBy.unlisted {allowed : State → Label → Prop}
    (reached : ReachedBy sys allowed s) {req : ReqId} {header : MsgId}
    {pt : PtId} {me : MeId} (once : (s.mes me).hasOption MeOption.useOnce = true)
    (logged : .overflow req header pt me ∈ s.log) : Unlisted s me := by
  let Along (s : State) : Prop :=
    (s.mes me).hasOption MeOption.useOnce = true →
      .overflow req header pt me ∈ s.log → Unlisted s me
  have along : Along s := by
    refine reached.invariant_of_reached ?_ ?_
    · intro _ logged
      cases logged
    · intro before after label earlier unlisted _ stepped once logged
      have advances := step_advances stepped
      have wellScoped := ReachedBy.wellScoped earlier
      have pairing := advances.pairing wellScoped.ops
      have grows := advances.extends
      by_cases known : .overflow req header pt me ∈ before.log
      · have old := (wellScoped.tables.log _ known).2.2.2
        refine (unlisted ?_ known).step old pairing
        unfold BxiME.hasOption at once ⊢
        rw [← grows.meOptions old]
        exact once
      · exact Unlisted.overflow (ReachedBy.appending earlier) wellScoped pairing
          grows once known logged
  exact along once logged

/-! ## Overflow events -/

/-- An operation reports a header to an entry only while it scans. -/
theorem Emits.reportsHeader {op : Op} {obs : Obs} {header : MsgId} {me : MeId}
    (emits : Emits sys self s op obs)
    (scans : ∀ me position, op ≠ .walkThroughUHs me position) :
    obs.reportsHeader header me = false := by
  cases emits with
  | overflow => exact absurd rfl (scans _ _)
  | _ => rfl

theorem Follows.declares {op added : Op} {header : MsgId} {me : MeId}
    (follows : Follows sys self s op added)
    (scans : ∀ me position, op ≠ .walkThroughUHs me position) :
    added.declares header me = 0 := by
  cases follows with
  | headerEvent => exact absurd rfl (scans _ _)
  | @matched msg pt list me fail kind type found => cases kind <;> rfl
  | _ => rfl

theorem declares_issueEvent (eq : Option EqId) (event : Event)
    (header other : MsgId) (me entry : MeId) :
    opsWeight (Op.declares header me)
        (issueEvent eq event (.header other entry)) =
      if eq.isSome ∧ other = header ∧ entry = me then 1 else 0 := by
  cases eq with
  | none => rfl
  | some queue => simp [issueEvent, Op.declares]

/-- A report and its event. -/
theorem Phase.declares {op : Op} {new : List Op}
    (phase : Phase sys self s op after new) (within : op.Within s.bounds)
    (header : MsgId) (me : MeId) :
    ∃ fresh, (s.nextMe ≤ me → fresh = 0) ∧
      after.log.countP (Obs.reportsHeader header me) =
        s.log.countP (Obs.reportsHeader header me) + fresh ∧
      after.log.countP (Obs.declares header me) +
          opsWeight (Op.declares header me) new =
        s.log.countP (Obs.declares header me) + op.declares header me +
          if (s.pts (s.mes me).pt).eq.isSome then fresh else 0 := by
  obtain ⟨extra, log, emitted⟩ := phase.emits within
  have plain : (∀ me position, op ≠ .walkThroughUHs me position) →
      opsWeight (Op.declares header me) new = 0 ∧
        extra.countP (Obs.reportsHeader header me) = 0 := by
    intro scans
    constructor
    · exact opsWeight_eq_zero fun added member =>
        (phase.follows added member).declares scans
    · rw [List.countP_eq_zero]
      intro obs member
      rw [(emitted obs member).reportsHeader scans]
      exact Bool.false_ne_true
  cases op with
  | walkThroughUHs entry position =>
      cases phase with
      | quiet quiet => cases quiet
      | appendInsert scanned =>
          have silent : opsWeight (Op.declares header me) (issueLink s entry) =
              0 := opsWeight_eq_zero
            (issueLink_every (P := fun op => op.declares header me = 0)
              fun _ _ _ => rfl)
          refine ⟨0, fun _ => rfl, rfl, ?_⟩
          rw [silent]
          simp [S4BXI.appendInsert, State.modPt, Op.declares]
      | noMatchedMe found missing =>
          refine ⟨0, fun _ => rfl, rfl, ?_⟩
          simp [State.halt, Op.declares]
      | @overflow _ _ position other matched found deposited =>
          have last : opsWeight (Op.declares header me)
              [if (s.mes entry).hasOption MeOption.useOnce then
                Op.appendConsumed entry
              else .walkThroughUHs entry position] = 0 := by
            split <;> rfl
          refine ⟨if other = header ∧ entry = me then 1 else 0, ?_, ?_, ?_⟩
          · intro fresh
            apply if_neg
            rintro ⟨-, rfl⟩
            exact absurd fresh (not_le.mpr within)
          · simp [State.emit, State.modPt, State.modMe, List.countP_append,
              List.countP_singleton, Obs.reportsHeader]
          · rw [opsWeight_append, opsWeight_cons, last, declares_issueEvent]
            simp only [State.emit, State.modPt, State.modMe, List.countP_append,
              List.countP_singleton, Obs.declares, Op.declares]
            by_cases here : other = header ∧ entry = me
            · obtain ⟨rfl, rfl⟩ := here
              simp
            · simp [here]
  | putEvent eq event origin =>
      obtain ⟨nothing, silent⟩ := plain (by simp)
      cases phase with
      | quiet quiet => cases quiet
      | putEvent =>
          refine ⟨0, fun _ => rfl, ?_, ?_⟩
          · rw [log, List.countP_append, silent]
          · rw [nothing]
            simp only [State.emit, List.countP_append, List.countP_singleton]
            cases origin with
            | header other entry =>
                simp [Obs.declares, Op.declares]
            | _ => simp [Obs.declares, Op.declares]
  | _ =>
      obtain ⟨nothing, silent⟩ := plain (by simp)
      have quiet : extra.countP (Obs.declares header me) = 0 := by
        rw [List.countP_eq_zero]
        intro obs member
        cases emitted obs member <;> exact Bool.false_ne_true
      refine ⟨0, fun _ => rfl, ?_, ?_⟩
      · rw [log, List.countP_append, silent]
      · rw [log, List.countP_append, quiet, nothing]
        simp [Op.declares]

theorem CallPhase.declares {call : Call} {new : List Op}
    (phase : CallPhase sys self s call after new) (header : MsgId)
    (me : MeId) : opsWeight (Op.declares header me) new = 0 := by
  cases phase with
  | appendOverflow taken =>
      exact opsWeight_eq_zero
        (issueLink_every (P := fun op => op.declares header me = 0)
          fun _ _ _ => rfl)
  | _ => rfl

/-- What is not allocated is not reported. -/
theorem WellScoped.unreported (wellScoped : WellScoped s) (header : MsgId)
    {me : MeId} (fresh : s.nextMe ≤ me) :
    s.log.countP (Obs.reportsHeader header me) = 0 := by
  rw [List.countP_eq_zero]
  intro obs logged reports
  have within := wellScoped.tables.log obs logged
  cases obs with
  | overflow req msg pt entry =>
      have same : msg = header ∧ entry = me := by
        simpa [Obs.reportsHeader] using reports
      exact absurd fresh (not_le.mpr (same.2 ▸ within.2.2.2))
  | _ => cases reports

namespace Announcing

theorem advances {label : Label} (announcing : Announcing s)
    (wellScoped : WellScoped s)
    (advances : Advances sys s index label after) : Announcing after := by
  have grows := advances.extends
  -- the event queue of an entry which is allocated stays
  have queue : ∀ (header : MsgId) (me : MeId) (reports : Nat),
      (s.nextMe ≤ me → reports = 0) →
      (if (after.pts (after.mes me).pt).eq.isSome then reports else 0) =
        if (s.pts (s.mes me).pt).eq.isSome then reports else 0 := by
    intro header me reports none
    by_cases old : me < s.nextMe
    · have same : (after.pts (after.mes me).pt).eq =
          (s.pts (s.mes me).pt).eq := by
        rw [grows.mePt old]
        exact (congrArg BxiPT.eq
          (grows.pts _ (wellScoped.tables.entries me old)) :)
      rw [same]
    · rw [none (not_lt.mp old)]
      simp
  have started : ∀ {self : Actor} {new : List Op},
      s.threads[index]? = some ⟨self, []⟩ → after.log = s.log →
      after.threads = s.threads.set index ⟨self, new⟩ →
      (∀ header me, opsWeight (Op.declares header me) new = 0) →
        Announcing after := by
    intro self new found log threads silent header me
    have weights := @pending_start _ _ (Op.declares header me)
      (Op.declares header me) _ _ _ found new fun _ _ _ _ => rfl
    have before := announcing header me
    rw [silent] at weights
    rw [queue header me _ fun fresh => log ▸ wellScoped.unreported header fresh,
      log, threads]
    omega
  cases advances with
  | dangling dead owner =>
      intro header me
      exact announcing header me
  | @run self op rest new next found alive phase =>
      intro header me
      have weights := @pending_run _ _ (Op.declares header me)
        (Op.declares header me) _ _ _ _ _ found new fun _ _ _ _ => rfl
      obtain ⟨fresh, none_new, reports, events⟩ := phase.declares
        (wellScoped.ops _ (List.mem_of_getElem? found) _ List.mem_cons_self)
        header me
      have before := announcing header me
      have unreported : s.nextMe ≤ me →
          next.log.countP (Obs.reportsHeader header me) = 0 := by
        intro outside
        rw [reports, wellScoped.unreported header outside, none_new outside]
      rw [queue header me _ unreported]
      dsimp only
      by_cases has : (s.pts (s.mes me).pt).eq.isSome = true
      · rw [if_pos has] at events before ⊢
        omega
      · rw [if_neg has] at events before ⊢
        omega
  | recv found target queued => exact started found rfl rfl fun _ _ => rfl
  | take found initiator queued => exact started found rfl rfl fun _ _ => rfl
  | wake found e2e alive queued => exact started found rfl rfl fun _ _ => rfl
  | call found user owned alive phase =>
      exact started found phase.log rfl phase.declares

end Announcing

theorem ReachedBy.announcing {allowed : State → Label → Prop}
    (reached : ReachedBy sys allowed s) : Announcing s := by
  have nothing : ∀ header me,
      pending (Op.declares header me) (initial sys).threads = 0 := by
    intro header me
    apply pending_eq_zero
    intro thread member op pends
    obtain ⟨actor, _, rfl⟩ := List.mem_map.mp member
    cases pends
  refine reached.invariant_of_reached ?_ ?_
  · intro header me
    rw [nothing]
    simp [initial]
  · intro before after label earlier announcing permitted stepped
    exact announcing.advances (ReachedBy.wellScoped earlier)
      (step_advances stepped)

/-! ## Results -/

/-- What was matched on a portal table entry: each request once, either with a
priority entry, or it waits in the unexpected headers with a copy of the
overflow entry in which it was deposited, or it was reported. -/
structure UnexpectedConserved (s : State) (pt : PtId) : Prop where
  once : (arrivals pt s.log).Nodup
  accounted : ∀ req, (delivered pt s.log).count req +
      (s.unexpected pt).count req + (reported pt s.log).count req =
    (arrivals pt s.log).count req
  copied : ∀ header ∈ (s.pts pt).unexpectedHeaders, s.Copied pt header

/-- No message is lost or duplicated between its arrival and its report, unless
a portal table entry is freed. -/
theorem unexpected_messages_conserved
    (reached : ReachedBy sys KeepsTables s) (pt : PtId) :
    UnexpectedConserved s pt := by
  constructor
  · exact arrivals_nodup ((ReachedBy.solvent reached).achieved_le_one
      (ReachedBy.wellScoped reached) .consumed) pt
  · intro req
    have conserving : Conserving s pt :=
      ReachedBy.conserving (fun _ _ => id) reached pt
    have counts := conserving.count_eq req
    rw [List.count_append] at counts
    rw [count_arrivals, counts, Nat.add_assoc]
  · exact fun header waits => ReachedBy.copied reached waits

/-- The reports of an append: each request once and in the order in which they
arrived, and an event for each of them. -/
structure OverflowReports (s : State) (me : MeId) : Prop where
  inOrder : (reportedTo me s.log).Sublist (arrivals (s.mes me).pt s.log)
  distinct : (reportedTo me s.log).Nodup
  events : ∀ header, s.log.countP (Obs.declares header me) +
      pending (Op.declares header me) s.threads =
    if (s.pts (s.mes me).pt).eq.isSome then
      s.log.countP (Obs.reportsHeader header me)
    else 0

theorem overflows_reported_in_order (reachable : Reachable sys s) {me : MeId}
    (old : me < s.nextMe) : OverflowReports s me := by
  have inOrder := (ReachedBy.reporting reachable).reported me old
  constructor
  · exact inOrder
  · apply inOrder.nodup
    exact arrivals_nodup ((ReachedBy.solvent reachable).achieved_le_one
      (ReachedBy.wellScoped reachable) .consumed) _
  · exact fun header => ReachedBy.announcing reachable header me

/-- An entry is paired with one request at most, and it is not linked if it was
paired with an unexpected one. -/
structure PairedOnce (s : State) (me : MeId) : Prop where
  once : s.log.countP (Obs.uses me) ≤ 1
  dropped : ∀ req header pt, .overflow req header pt me ∈ s.log →
    ∀ table list, me ∉ (s.pts table).listOf list

theorem single_use_entry_paired_once (reachable : Reachable sys s) {me : MeId}
    (old : me < s.nextMe)
    (useOnce : (s.mes me).hasOption MeOption.useOnce = true) :
    PairedOnce s me := by
  constructor
  · apply (ReachedBy.usedOnce reachable me old useOnce).trans
    split <;> simp
  · intro req header pt logged
    exact (ReachedBy.unlisted reachable useOnce logged).lists

end Steps

/-- Two Puts with the match bits 1 and 2 which are deposited in an overflow
entry. -/
def unexpectedPuts : List Label :=
  unexpectedPut ++ puts .noAckReq 2 :: runs 0 3 ++ .take 1 :: runs 1 10 ++
    .recv 9 0 :: runs 9 8

/-- An append which matches both of them, and one which matches the first one
only. -/
def reportsBoth : List Label :=
  unexpectedPuts ++
    appends { start := 1000, length := 100, ignoreBits := 255 } .priority ::
      runs 6 11

def reportsFirst : List Label :=
  unexpectedPuts ++
    appends { start := 1000, length := 100, matchBits := 1
              options := MeOption.useOnce } .priority :: runs 6 5

theorem unexpected_puts_conserved :
    ∃ s, ReachedBy (twoNodes {} { e2eOff := false }) KeepsTables s ∧
      s.unexpected 0 = [1] ∧ reported 0 s.log = [0] ∧
      UnexpectedConserved s 0 := by
  obtain ⟨s, reached, holds⟩ := reachedBy_of_executes
    (twoNodes {} { e2eOff := false }) KeepsTables reportsFirst
    (fun s => s.unexpected 0 == [1] && reported 0 s.log == [0])
    (by decide +kernel)
  simp only [Bool.and_eq_true, beq_iff_eq] at holds
  exact ⟨s, reached, holds.1, holds.2, unexpected_messages_conserved reached 0⟩

theorem unexpected_puts_copied :
    ∃ s, Reachable (twoNodes {} { e2eOff := false }) s ∧
      s.unexpected 0 = [0, 1] ∧ s.halted ≠ some (.noMatchedMe 0) := by
  obtain ⟨s, reachable, holds⟩ := reachable_of_executes
    (twoNodes {} { e2eOff := false }) unexpectedPuts
    (fun s => s.unexpected 0 == [0, 1]) (by decide +kernel)
  exact ⟨s, reachable, beq_iff_eq.mp holds, matched_entry_copied reachable 0⟩

theorem unexpected_puts_reported :
    ∃ s, Reachable (twoNodes {} { e2eOff := false }) s ∧
      reportedTo 1 s.log = [0, 1] ∧ OverflowReports s 1 := by
  obtain ⟨s, reachable, holds⟩ := reachable_of_executes
    (twoNodes {} { e2eOff := false }) reportsBoth
    (fun s => reportedTo 1 s.log == [0, 1] && decide (1 < s.nextMe))
    (by decide +kernel)
  simp only [Bool.and_eq_true, beq_iff_eq, decide_eq_true_eq] at holds
  exact ⟨s, reachable, holds.1, overflows_reported_in_order reachable holds.2⟩

theorem single_use_entry_reports_once :
    ∃ s, Reachable (twoNodes {} { e2eOff := false }) s ∧
      reportedTo 1 s.log = [0] ∧ PairedOnce s 1 := by
  obtain ⟨s, reachable, holds⟩ := reachable_of_executes
    (twoNodes {} { e2eOff := false }) reportsFirst
    (fun s => reportedTo 1 s.log == [0] && decide (1 < s.nextMe) &&
      (s.mes 1).hasOption MeOption.useOnce) (by decide +kernel)
  simp only [Bool.and_eq_true, beq_iff_eq, decide_eq_true_eq] at holds
  obtain ⟨⟨reports, old⟩, once⟩ := holds
  exact ⟨s, reachable, reports, single_use_entry_paired_once reachable old once⟩

end S4BXI
