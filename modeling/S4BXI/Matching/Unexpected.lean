import S4BXI.Matching.NonOvertaking
import S4BXI.Matching.Overflows
import S4BXI.Safety.Halts

/-!
# Unexpected messages are conserved

A request which is matched with an overflow entry waits in the unexpected
headers until an append reports it.  No request leaves the headers in another
way, unless its portal table entry is freed, and each append reports the
requests in the order in which they arrived.
-/

namespace S4BXI

open Lib

/-- The request which an effect delivers to a priority entry. -/
def Obs.delivery (pt : PtId) : Obs → Option ReqId
  | .consumed req _ table .priority _ => if table = pt then some req else none
  | _ => none

/-- The request which an effect deposits in an overflow entry. -/
def Obs.deposit (pt : PtId) : Obs → Option ReqId
  | .consumed req _ table .overflow _ => if table = pt then some req else none
  | _ => none

/-- The request which an effect removes from the unexpected headers. -/
def Obs.report (pt : PtId) : Obs → Option ReqId
  | .overflow req _ table _ => if table = pt then some req else none
  | _ => none

def delivered (pt : PtId) (log : List Obs) : List ReqId :=
  log.filterMap (Obs.delivery pt)

def deposited (pt : PtId) (log : List Obs) : List ReqId :=
  log.filterMap (Obs.deposit pt)

def reported (pt : PtId) (log : List Obs) : List ReqId :=
  log.filterMap (Obs.report pt)

/-- The requests which wait in the unexpected headers. -/
def State.unexpected (s : State) (pt : PtId) : List ReqId :=
  (s.pts pt).unexpectedHeaders.map s.reqOf

/-- Whether a step is a `PtlPTFree`. -/
def Label.frees : Label → Bool
  | .call _ (.ptFree _ _) => true
  | _ => false

/-- The steps which free no portal table entry. -/
def KeepsTables (_ : State) (label : Label) : Prop := label.frees = false

instance (s : State) (label : Label) : Decidable (KeepsTables s label) :=
  inferInstanceAs (Decidable (_ = false))

section Logs

variable {s : State} {pt : PtId}

theorem Obs.report_silent {obs : Obs} (silent : obs.pairs = false) (pt : PtId) :
    obs.delivery pt = none ∧ obs.deposit pt = none ∧ obs.report pt = none := by
  cases obs with
  | consumed req msg table list me => cases silent
  | overflow req msg table me => cases silent
  | _ => exact ⟨rfl, rfl, rfl⟩

theorem deposited_silent {extra : List Obs}
    (silent : ∀ obs ∈ extra, obs.pairs = false) (log : List Obs) :
    deposited pt (log ++ extra) = deposited pt log := by
  have none_new : extra.filterMap (Obs.deposit pt) = [] :=
    List.filterMap_eq_nil_iff.mpr fun obs member =>
      (Obs.report_silent (silent obs member) pt).2.1
  unfold deposited
  rw [List.filterMap_append, none_new, List.append_nil]

theorem reported_silent {extra : List Obs}
    (silent : ∀ obs ∈ extra, obs.pairs = false) (log : List Obs) :
    reported pt (log ++ extra) = reported pt log := by
  have none_new : extra.filterMap (Obs.report pt) = [] :=
    List.filterMap_eq_nil_iff.mpr fun obs member =>
      (Obs.report_silent (silent obs member) pt).2.2
  unfold reported
  rw [List.filterMap_append, none_new, List.append_nil]

/-- A request arrives on the one list or on the other. -/
theorem count_arrivals (pt : PtId) (log : List Obs) (req : ReqId) :
    (arrivals pt log).count req =
      (delivered pt log).count req + (deposited pt log).count req := by
  unfold arrivals delivered deposited
  induction log with
  | nil => rfl
  | cons obs log induction =>
      simp only [List.filterMap_cons]
      cases obs with
      | consumed other msg table list me =>
          cases list with
          | priority =>
              by_cases here : table = pt
              · simp only [Obs.arrival, Obs.delivery, Obs.deposit, here, if_true,
                  List.count_cons, induction]
                omega
              · simpa [Obs.arrival, Obs.delivery, Obs.deposit, here]
          | overflow =>
              by_cases here : table = pt
              · simp only [Obs.arrival, Obs.delivery, Obs.deposit, here, if_true,
                  List.count_cons, induction]
                omega
              · simpa [Obs.arrival, Obs.delivery, Obs.deposit, here]
      | _ => exact induction

theorem mem_arrivals_of_deposited {log : List Obs} {req : ReqId}
    (member : req ∈ deposited pt log) : req ∈ arrivals pt log := by
  have positive := List.count_pos_iff.mpr member
  rw [← List.count_pos_iff, count_arrivals]
  omega

end Logs

/-! ## Headers -/

/-- What was deposited waits or was reported. -/
def Conserving (s : State) (pt : PtId) : Prop :=
  (deposited pt s.log).Perm (s.unexpected pt ++ reported pt s.log)

section Steps

variable {sys : Sys} {s after : State} {index : ThreadId} {pt : PtId}

theorem Extends.unexpected (grows : Extends s after) (wellScoped : WellScoped s)
    (headers : (after.pts pt).unexpectedHeaders =
      (s.pts pt).unexpectedHeaders) :
    after.unexpected pt = s.unexpected pt := by
  unfold State.unexpected
  rw [headers]
  exact Ordered.map_reqOf grows (wellScoped.tables.pts pt).headers

namespace Conserving

theorem keep (conserving : Conserving s pt) (wellScoped : WellScoped s)
    (grows : Extends s after)
    (headers : (after.pts pt).unexpectedHeaders =
      (s.pts pt).unexpectedHeaders)
    (deposits : deposited pt after.log = deposited pt s.log)
    (reports : reported pt after.log = reported pt s.log) :
    Conserving after pt := by
  unfold Conserving
  rw [deposits, reports, grows.unexpected wellScoped headers]
  exact conserving

theorem shrinks (conserving : Conserving s pt) (wellScoped : WellScoped s)
    (grows : Extends s after) (shrinks : Shrinks s after) :
    Conserving after pt := by
  obtain ⟨extra, log, silent⟩ := shrinks.log
  apply conserving.keep wellScoped grows (shrinks.headers pt)
  · rw [log, deposited_silent silent]
  · rw [log, reported_silent silent]

/-- A request which matches an overflow entry is deposited and waits. -/
theorem arrive (conserving : Conserving s pt) (wellScoped : WellScoped s)
    (grows : Extends s after) {msg : MsgId} {table : PtId} {list : PtlList}
    {me : MeId} (old : msg < s.nextMsg)
    (arrives : Arrives s msg table list me after) : Conserving after pt := by
  obtain ⟨extra, log, silent⟩ := arrives.log
  have grown : after.log =
      s.log ++ [.consumed (s.reqOf msg) msg table list me] ++ extra := by
    rw [log, List.append_assoc]
    rfl
  have deposits : deposited pt after.log = deposited pt s.log ++
      (Obs.deposit pt (.consumed (s.reqOf msg) msg table list me)).toList := by
    rw [grown, deposited_silent silent]
    unfold deposited
    rw [List.filterMap_append]
    cases deposit : Obs.deposit pt (.consumed (s.reqOf msg) msg table list me)
      <;> simp [deposit]
  have reports : reported pt after.log = reported pt s.log := by
    rw [grown, reported_silent silent]
    unfold reported
    rw [List.filterMap_append]
    exact List.append_nil _
  have headers := arrives.headers pt
  by_cases waits : list = .overflow ∧ pt = table
  · obtain ⟨rfl, rfl⟩ := waits
    rw [if_pos ⟨rfl, rfl⟩] at headers
    have unexpected : after.unexpected pt = s.unexpected pt ++ [s.reqOf msg] := by
      unfold State.unexpected
      rw [headers, List.map_append,
        Ordered.map_reqOf grows (wellScoped.tables.pts pt).headers, List.map_singleton,
        grows.reqOf old]
    have arrived : Obs.deposit pt
        (.consumed (s.reqOf msg) msg pt .overflow me) = some (s.reqOf msg) :=
      if_pos rfl
    unfold Conserving
    rw [deposits, arrived, reports, unexpected, Option.toList_some]
    apply (conserving.append_right _).trans
    rw [List.append_assoc, List.append_assoc]
    exact List.perm_append_comm.append_left _
  · rw [if_neg waits] at headers
    have passes : Obs.deposit pt (.consumed (s.reqOf msg) msg table list me) =
        none := by
      cases list with
      | priority => rfl
      | overflow => exact if_neg fun same => waits ⟨rfl, same.symm⟩
    apply conserving.keep wellScoped grows headers
    · rw [deposits, passes, Option.toList_none, List.append_nil]
    · exact reports

/-- An append reports a request which waits. -/
theorem overflow (conserving : Conserving s pt) (wellScoped : WellScoped s)
    (grows : Extends s after) {me : MeId} {position : Nat} {header : MsgId}
    (present : (s.pts pt).unexpectedHeaders[position]? = some header)
    (headers : (after.pts pt).unexpectedHeaders =
      (s.pts pt).unexpectedHeaders.eraseIdx position)
    (log : after.log = s.log ++ [.overflow (s.reqOf header) header pt me]) :
    Conserving after pt := by
  have deposits : deposited pt after.log = deposited pt s.log := by
    rw [log]
    unfold deposited
    rw [List.filterMap_append]
    exact List.append_nil _
  have reports : reported pt after.log =
      reported pt s.log ++ [s.reqOf header] := by
    rw [log]
    unfold reported
    rw [List.filterMap_append]
    simp [Obs.report]
  obtain ⟨inside, here⟩ := List.getElem?_eq_some_iff.mp present
  have taken : (s.unexpected pt).Perm
      (s.reqOf header :: after.unexpected pt) := by
    unfold State.unexpected
    rw [headers, Ordered.map_reqOf grows fun msg member =>
      (wellScoped.tables.pts pt).headers msg (List.mem_of_mem_eraseIdx member),
      ← here]
    exact ((List.getElem_cons_eraseIdx_perm inside).map s.reqOf).symm
  unfold Conserving
  rw [deposits, reports]
  apply conserving.trans
  apply (taken.append_right _).trans
  rw [List.cons_append, ← List.append_assoc]
  exact (List.perm_append_singleton _ _).symm

theorem pairing {label : Label} (conserving : Conserving s pt)
    (wellScoped : WellScoped s) (grows : Extends s after)
    (keeps : label.frees = false)
    (pairing : Pairing sys s index label after) : Conserving after pt := by
  cases pairing with
  | halt => exact conserving
  | run found pairs =>
      cases pairs with
      | shrink idle nothing shrinks =>
          exact conserving.shrinks wellScoped grows { shrinks with }
      | arrive nothing fresh matched arrives =>
          have old := wellScoped.ops _ (List.mem_of_getElem? found) _
            List.mem_cons_self
          exact conserving.arrive wellScoped grows old { arrives with }
      | @insert me position scanned =>
          exact conserving.keep wellScoped grows (appendInsert_headers s me pt)
            rfl rfl
      | stop => exact conserving
      | @overflow me start position header matched search copied =>
          by_cases here : pt = (s.mes me).pt
          · subst here
            refine conserving.overflow wellScoped grows
              (BxiPT.findHeader_some search).2.1 ?_ rfl
            simp [State.emit, State.modPt, State.modMe]
          · have other : (s.mes me).pt ≠ pt := Ne.symm here
            apply conserving.keep wellScoped grows
            · simp [State.emit, State.modPt, State.modMe,
                Function.update_of_ne here]
            · simp [deposited, State.emit, State.modPt, State.modMe,
                Obs.deposit]
            · simp [reported, State.emit, State.modPt, State.modMe, Obs.report,
                other]
      | consumed => exact conserving.keep wellScoped grows rfl rfl rfl
  | start found nothing shrinks =>
      exact conserving.shrinks wellScoped grows { shrinks with }
  | call found owned pairs =>
      cases pairs with
      | shrink nothing shrinks =>
          exact conserving.shrinks wellScoped grows { shrinks with }
      | ptAlloc pts mes nextMe log reqs =>
          by_cases new : pt = s.nextPt
          · subst new
            have none_yet : deposited s.nextPt s.log = [] := by
              rw [List.eq_nil_iff_forall_not_mem]
              intro req member
              have within := (arrivals_within wellScoped.tables
                (mem_arrivals_of_deposited member)).2
              exact absurd within (Nat.lt_irrefl _)
            have before : Conserving s s.nextPt := conserving
            unfold Conserving at before ⊢
            rw [none_yet] at before
            have empty := List.append_eq_nil_iff.mp before.symm.eq_nil
            dsimp only
            rw [log, none_yet, empty.2]
            simp [State.unexpected, pts]
          · apply conserving.keep wellScoped grows
            · simp [pts, Function.update_of_ne new]
            · dsimp only
              rw [log]
            · dsimp only
              rw [log]
      | ptFree taken pts used nextMe log reqs => cases keeps
      | appendPriority taken => exact conserving.keep wellScoped grows rfl rfl rfl
      | appendOverflow taken =>
          exact conserving.keep wellScoped grows
            (appendInsert_headers _ _ _) rfl rfl

end Conserving

theorem ReachedBy.conserving {allowed : State → Label → Prop}
    (keeps : ∀ s label, allowed s label → label.frees = false)
    (reached : ReachedBy sys allowed s) (pt : PtId) : Conserving s pt := by
  let Along (s : State) : Prop := Conserving s pt
  have along : Along s := by
    have start : Along (initial sys) := List.Perm.refl _
    refine reached.invariant_of_reached start ?_
    intro before after label earlier conserving permitted stepped
    have advances := step_advances stepped
    have wellScoped := ReachedBy.wellScoped earlier
    exact Conserving.pairing conserving wellScoped advances.extends
      (keeps _ _ permitted) (advances.pairing wellScoped.ops)
  exact along

/-! ## Copies -/

/-- The request of a header keeps a copy of the overflow entry in which it was
deposited. -/
def State.Copied (s : State) (pt : PtId) (header : MsgId) : Prop :=
  ∃ me copied, Obs.consumed (s.reqOf header) header pt .overflow me ∈ s.log ∧
    (s.mes me).list = .overflow ∧
    (s.reqs (s.reqOf header)).matchedMe = some copied ∧
    copied.fixed = (s.mes me).fixed

/-- The copy of a request which was matched stays. -/
theorem Pairing.matchedMe {label : Label} {req : ReqId} {me : MeId}
    (pairing : Pairing sys s index label after) (wellScoped : WellScoped s)
    (solvent : Solvent sys s) (took : s.Took req me) :
    (after.reqs req).matchedMe = (s.reqs req).matchedMe := by
  have old := (took.within wellScoped.tables).1
  cases pairing with
  | halt => rfl
  | run found pairs =>
      cases pairs with
      | shrink idle nothing shrinks => exact shrinks.matchedMe req old
      | arrive nothing fresh matched arrives =>
          apply arrives.others
          rintro rfl
          obtain ⟨other, pt, list, logged⟩ := took
          apply solvent.not_matched old fresh me
          apply List.mem_filterMap.mpr
          exact ⟨_, logged, by simp [Obs.matchOf]⟩
      | _ => rfl
  | start found nothing shrinks => exact shrinks.matchedMe req old
  | call found owned pairs =>
      cases pairs with
      | shrink nothing shrinks => exact shrinks.matchedMe req old
      | ptAlloc pts mes nextMe log reqs =>
          dsimp only
          rw [reqs]
      | ptFree taken pts used nextMe log reqs => exact reqs req
      | _ => rfl

/-- A header is the one which has just been deposited, or an older one. -/
theorem Pairing.header {label : Label} {header : MsgId}
    (pairing : Pairing sys s index label after) (wellScoped : WellScoped s)
    (appending : Appending sys s)
    (member : header ∈ (after.pts pt).unexpectedHeaders) :
    header ∈ (s.pts pt).unexpectedHeaders ∨ header < s.nextMsg ∧
      ∃ me < s.nextMe,
        Obs.consumed (s.reqOf header) header pt .overflow me ∈ after.log ∧
        (s.mes me).list = .overflow ∧
        (after.reqs (s.reqOf header)).matchedMe = some (s.mes me).copy := by
  cases pairing with
  | halt => exact .inl member
  | run found pairs =>
      cases pairs with
      | shrink idle nothing shrinks => exact .inl (shrinks.headers pt ▸ member)
      | @arrive msg table list me after' new nothing fresh matched arrives =>
          dsimp only at member
          rw [arrives.headers] at member
          split at member
          · rename_i waits
            obtain ⟨rfl, rfl⟩ := waits
            rcases List.mem_append.mp member with earlier | added
            · exact .inl earlier
            · cases List.mem_singleton.mp added
              obtain ⟨extra, log, silent⟩ := arrives.log
              have linked := (appending.lists _ _ _
                (BxiPT.findEntry_mem matched.found).1).2
              refine .inr ⟨wellScoped.ops _ (List.mem_of_getElem? found) _
                List.mem_cons_self, me, (wellScoped.tables.matched matched).2,
                ?_, linked, arrives.deposited linked⟩
              dsimp only
              rw [log]
              simp
          · exact .inl member
      | @insert me position scanned =>
          dsimp only at member
          rw [appendInsert_headers] at member
          exact .inl member
      | stop => exact .inl member
      | @overflow me start position other matched search copied =>
          left
          simp only [State.emit, State.modPt, State.modMe,
            Function.update_apply] at member
          split at member
          · rename_i here
            subst here
            exact List.mem_of_mem_eraseIdx member
          · exact member
      | consumed => exact .inl member
  | start found nothing shrinks => exact .inl (shrinks.headers pt ▸ member)
  | call found owned pairs =>
      cases pairs with
      | shrink nothing shrinks => exact .inl (shrinks.headers pt ▸ member)
      | ptAlloc pts mes nextMe log reqs =>
          simp only [pts, Function.update_apply] at member
          split at member
          · cases member
          · exact .inl member
      | ptFree taken pts used nextMe log reqs =>
          simp only [pts, Function.update_apply] at member
          split at member
          · cases member
          · exact .inl member
      | appendPriority taken => exact .inl member
      | appendOverflow taken =>
          dsimp only at member
          rw [appendInsert_headers] at member
          exact .inl member

theorem ReachedBy.copied {allowed : State → Label → Prop}
    (reached : ReachedBy sys allowed s) {header : MsgId}
    (member : header ∈ (s.pts pt).unexpectedHeaders) : s.Copied pt header := by
  let Along (s : State) : Prop :=
    ∀ header ∈ (s.pts pt).unexpectedHeaders, s.Copied pt header
  have along : Along s := by
    refine reached.invariant_of_reached ?_ ?_
    · intro header waits
      cases waits
    · intro before after label earlier copied _ stepped header waits
      have advances := step_advances stepped
      have wellScoped := ReachedBy.wellScoped earlier
      have pairing := advances.pairing wellScoped.ops
      have grows := advances.extends
      rcases pairing.header wellScoped (ReachedBy.appending earlier) waits with
        older | ⟨old, me, oldMe, logged, list, matched⟩
      · have old := (wellScoped.tables.pts pt).headers header older
        obtain ⟨me, copy, logged, list, matched, same⟩ := copied header older
        have took : before.Took (before.reqOf header) me :=
          ⟨header, pt, .overflow, logged⟩
        have oldMe := (took.within wellScoped.tables).2
        refine ⟨me, copy, ?_, ?_, ?_, ?_⟩
        · rw [grows.reqOf old]
          exact grows.log.mem logged
        · rw [grows.meList oldMe]
          exact list
        · rw [grows.reqOf old,
            pairing.matchedMe wellScoped (ReachedBy.solvent earlier) took]
          exact matched
        · rw [grows.mes me oldMe]
          exact same
      · refine ⟨me, (before.mes me).copy, ?_, ?_, ?_, ?_⟩
        · rw [grows.reqOf old]
          exact logged
        · rw [grows.meList oldMe]
          exact list
        · rw [grows.reqOf old]
          exact matched
        · rw [grows.mes me oldMe]
          rfl
  exact along header member

/-- An append never finds a request without a copy of its entry. -/
theorem matched_entry_copied (reachable : Reachable sys s) (req : ReqId) :
    s.halted ≠ some (.noMatchedMe req) := by
  intro halted
  rcases ReachedBy.stopped reachable halted with ⟨ptr, same⟩ |
    ⟨call, stops⟩ | ⟨before, index, self, op, rest, earlier, running, found,
      stops⟩
  · cases same
  · cases stops
  · cases stops with
    | uncopied search missing =>
        have waits := List.mem_of_getElem? (BxiPT.findHeader_some search).2.1
        obtain ⟨me, copied, logged, list, matched, same⟩ :=
          ReachedBy.copied earlier waits
        rw [missing] at matched
        cases matched

end Steps

end S4BXI
