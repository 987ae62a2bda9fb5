import S4BXI.Matching.MissedMatch
import S4BXI.Matching.Overflows

/-!
# Unlinking an overflow entry

`PtlMEUnlink` refuses to unlink an overflow entry while it matches a request
in the unexpected headers.  An entry with `PTL_ME_USE_ONCE` matches nothing any
more once it has been used, so its own header does not keep it.
-/

namespace S4BXI

open Lib

/-- The return values of `PtlMEUnlink`. -/
inductive UnlinkReturn where
  | ok
  | inUse
deriving DecidableEq

/-- The value returned by `PtlMEUnlink`. -/
def ptlMEUnlinkReturn (s : State) (me : MeId) : UnlinkReturn :=
  let entry := s.mes me
  if entry.list = .overflow &&
      (s.pts entry.pt).unexpectedHeaders.any fun header =>
        entry.matchesRequest (s.reqs (s.reqOf header)) then
    .inUse
  else
    .ok

/-- The header was deposited in the overflow entry. -/
def State.Deposited (s : State) (header : MsgId) (me : MeId) : Prop :=
  ∃ pt, Obs.consumed (s.reqOf header) header pt .overflow me ∈ s.log

/-- `PtlMEUnlink` does not accept to unlink an overflow entry which holds a
header, and leaves everything as it is when it refuses. -/
structure UnlinkSound (s : State) (me : MeId) : Prop where
  accepts : ptlMEUnlinkReturn s me = .ok →
    ∀ header ∈ (s.pts (s.mes me).pt).unexpectedHeaders,
      ¬ s.Deposited header me
  refuses : ptlMEUnlinkReturn s me ≠ .ok →
    ptlMEUnlinkReturn s me = .inUse ∧ ptlMEUnlink s me = s

/-- An entry which was matched with a request is used, and matches the request
apart from that. -/
structure Retains (s : State) (req : ReqId) (me : MeId) : Prop where
  used : (s.mes me).used = true
  selects : { s.mes me with used := false }.matchesRequest (s.reqs req) = true

/-- All entries retain what they were matched with. -/
def Retaining (s : State) : Prop :=
  ∀ req me, s.Took req me → Retains s req me

section Steps

variable {sys : Sys} {s after : State} {req : ReqId} {me : MeId}

/-- An unused entry matches what the entry matches. -/
theorem BxiME.selects_of_matches {entry : BxiME} {request : BxiRequest}
    (found : entry.matchesRequest request = true) :
    { entry with used := false }.matchesRequest request = true := by
  unfold BxiME.matchesRequest at found ⊢
  rw [Bool.and_false]
  split at found
  · cases found
  · exact found

theorem BxiME.selects_congr {entry other : BxiME}
    {request later : BxiRequest} (sameMe : other.fixed = entry.fixed)
    (sameReq : later.fixed = request.fixed)
    (selects : { entry with used := false }.matchesRequest request = true) :
    { other with used := false }.matchesRequest later = true := by
  by_contra absent
  rw [Bool.not_eq_true] at absent
  have sameUnused : ({ entry with used := false } : BxiME).fixed =
      ({ other with used := false } : BxiME).fixed := sameMe.symm
  have missed := BxiME.matchesRequest_mono sameUnused sameReq.symm id absent
  rw [missed] at selects
  cases selects

/-- A request which has just been matched with an entry. -/
theorem State.Took.fresh {index : ThreadId} {label : Label}
    (took : after.Took req me) (wellScoped : WellScoped s)
    (advances : Advances sys s index label after) :
    s.Took req me ∨ ((after.mes me).used = true ∧ me < s.nextMe ∧
      req < s.nextReq ∧ (s.mes me).matchesRequest (s.reqs req) = true) := by
  obtain ⟨msg, pt, list, logged⟩ := took
  have earlier : ∀ {extra}, (∀ obs ∈ extra, obs.pairs = false) →
      after.log = s.log ++ extra → s.Took req me := by
    intro extra silent log
    rw [log] at logged
    rcases List.mem_append.mp logged with old | new
    · exact ⟨msg, pt, list, old⟩
    · have none := silent _ new
      cases none
  cases advances.pairing wellScoped.ops with
  | halt => exact .inl ⟨msg, pt, list, logged⟩
  | run found pairs =>
      cases pairs with
      | shrink idle nothing shrinks =>
          obtain ⟨extra, log, silent⟩ := shrinks.log
          exact .inl (earlier silent log)
      | @arrive other table kind entry _ _ nothing fresh matched arrives =>
          obtain ⟨extra, log, silent⟩ := arrives.log
          rw [show (_ : State).log = _ from log] at logged
          rcases List.mem_append.mp logged with old | new
          · exact .inl ⟨msg, pt, list, old⟩
          rcases List.mem_cons.mp new with here | later
          · cases here
            have small : msg < s.nextMsg := wellScoped.ops _
              (List.mem_of_getElem? found) (.handle msg) (by simp)
            refine .inr ⟨?_, (wellScoped.tables.matched matched).2,
              wellScoped.tables.parents msg small,
              (BxiPT.findEntry_mem matched.found).2⟩
            exact (arrives.used me).trans (if_pos rfl)
          · have none := silent _ later
            cases none
      | insert scanned => exact .inl ⟨msg, pt, list, logged⟩
      | stop => exact .inl ⟨msg, pt, list, logged⟩
      | overflow search deposited =>
          rcases List.mem_append.mp logged with old | new
          · exact .inl ⟨msg, pt, list, old⟩
          · cases List.mem_singleton.mp new
      | consumed => exact .inl ⟨msg, pt, list, logged⟩
  | start found nothing shrinks =>
      obtain ⟨extra, log, silent⟩ := shrinks.log
      exact .inl (earlier silent log)
  | call found owned pairs =>
      cases pairs with
      | shrink nothing shrinks =>
          obtain ⟨extra, log, silent⟩ := shrinks.log
          exact .inl (earlier silent log)
      | ptAlloc pts mes nextMe log reqs =>
          exact .inl (@earlier [] (by simp) (by simp [log]))
      | ptFree taken pts used nextMe log reqs =>
          exact .inl (@earlier [] (by simp) (by simp [log]))
      | appendPriority taken => exact .inl ⟨msg, pt, list, logged⟩
      | appendOverflow taken => exact .inl ⟨msg, pt, list, logged⟩

theorem Retaining.advances {index : ThreadId} {label : Label}
    (retaining : Retaining s) (wellScoped : WellScoped s)
    (advances : Advances sys s index label after) : Retaining after := by
  have grows := advances.extends
  intro req me took
  rcases took.fresh wellScoped advances with
    earlier | ⟨used, oldMe, oldReq, matched⟩
  · obtain ⟨oldReq, oldMe⟩ := earlier.within wellScoped.tables
    have retains := retaining req me earlier
    constructor
    · exact (advances.pairing wellScoped.ops).used oldMe retains.used
    · exact BxiME.selects_congr (grows.mes me oldMe) (grows.reqs req oldReq)
        retains.selects
  · constructor
    · exact used
    · exact BxiME.selects_congr (grows.mes me oldMe) (grows.reqs req oldReq)
        (BxiME.selects_of_matches matched)

theorem ReachedBy.retaining {allowed : State → Label → Prop}
    (reached : ReachedBy sys allowed s) : Retaining s := by
  apply reached.invariant_of_reached
  · rintro req me ⟨msg, pt, list, logged⟩
    cases logged
  · intro before after label earlier retaining _ stepped
    exact retaining.advances (ReachedBy.wellScoped earlier)
      (step_advances stepped)

/-- An entry which may be used again goes on matching its requests. -/
theorem Retains.matches (retains : Retains s req me)
    (again : (s.mes me).hasOption MeOption.useOnce = false) :
    (s.mes me).matchesRequest (s.reqs req) = true := by
  have selects := retains.selects
  unfold BxiME.matchesRequest at selects ⊢
  rw [Bool.and_false] at selects
  rw [again, Bool.false_and]
  exact selects

/-- An entry which was used once matches nothing. -/
theorem Retains.exhausted (retains : Retains s req me)
    (once : (s.mes me).hasOption MeOption.useOnce = true)
    (request : BxiRequest) : (s.mes me).matchesRequest request = false := by
  unfold BxiME.matchesRequest
  rw [once, retains.used]
  rfl

end Steps

/-- `PtlMEUnlink` of a linked overflow entry is sound unless the entry is to be
used once and still holds its header. -/
theorem overflow_unlink_sound_iff {sys : Sys} {s : State}
    (reachable : Reachable sys s) {pt : PtId} {me : MeId}
    (linked : me ∈ (s.pts pt).overflowList) :
    UnlinkSound s me ↔
      ¬((s.mes me).hasOption MeOption.useOnce = true ∧
        ∃ header ∈ (s.pts pt).unexpectedHeaders, s.Deposited header me) := by
  have retaining := ReachedBy.retaining reachable
  obtain ⟨table, list⟩ :=
    (ReachedBy.appending reachable).lists pt .overflow me linked
  constructor
  · rintro sound ⟨once, header, unexpected, pt', deposited⟩
    have retains := retaining _ me ⟨header, pt', .overflow, deposited⟩
    have accepted : ptlMEUnlinkReturn s me = .ok := by
      unfold ptlMEUnlinkReturn
      rw [if_neg]
      simp [retains.exhausted once]
    rw [← table] at unexpected
    exact sound.accepts accepted header unexpected ⟨pt', deposited⟩
  · intro kept
    constructor
    · rintro accepted header unexpected ⟨pt', deposited⟩
      rw [table] at unexpected
      have again : (s.mes me).hasOption MeOption.useOnce = false := by
        rw [← Bool.not_eq_true]
        intro once
        exact kept ⟨once, header, unexpected, pt', deposited⟩
      have retains := retaining _ me ⟨header, pt', .overflow, deposited⟩
      have refused : ptlMEUnlinkReturn s me = .inUse := by
        unfold ptlMEUnlinkReturn
        rw [if_pos]
        rw [Bool.and_eq_true]
        refine ⟨decide_eq_true list, List.any_eq_true.mpr ?_⟩
        exact ⟨header, table ▸ unexpected, retains.matches again⟩
      rw [refused] at accepted
      cases accepted
    · intro refused
      by_cases matching : ((s.mes me).list = .overflow &&
          (s.pts (s.mes me).pt).unexpectedHeaders.any fun header =>
            (s.mes me).matchesRequest (s.reqs (s.reqOf header))) = true
      · exact ⟨if_pos matching, if_pos matching⟩
      · exact absurd (if_neg matching) refused

/-- A Put with the match bits 1 which is deposited in an overflow entry with a
counter, up to the increment of the counter. -/
def countedDeposit (flags : Options) : List Label :=
  prologue ++ appends
      { start := 2000
        length := 100
        ignoreBits := 255
        ctHandle := some 4
        options := flags ||| MeOption.eventCtComm } .overflow :: runs 6 2 ++
    arrivingPut 1

theorem unlink_of_deposit_sound :
    ∃ s, Reachable (twoNodes {} {}) s ∧ 0 ∈ (s.pts 0).overflowList ∧
      0 ∈ (s.pts 0).unexpectedHeaders ∧ s.Deposited 0 0 ∧
      UnlinkSound s 0 := by
  obtain ⟨s, reachable, holds⟩ := reachable_of_executes (twoNodes {} {})
    (countedDeposit 0) (fun s => decide (0 ∈ (s.pts 0).overflowList ∧
      0 ∈ (s.pts 0).unexpectedHeaders ∧
      Obs.consumed (s.reqOf 0) 0 0 .overflow 0 ∈ s.log ∧
      (s.mes 0).hasOption MeOption.useOnce = false)) (by decide +kernel)
  obtain ⟨linked, unexpected, deposited, again⟩ := of_decide_eq_true holds
  refine ⟨s, reachable, linked, unexpected, ⟨0, deposited⟩, ?_⟩
  apply (overflow_unlink_sound_iff reachable linked).mpr
  rintro ⟨once, -⟩
  rw [again] at once
  cases once

/-- While the handler is suspended at the increment of the counter,
`PtlMEUnlink` accepts to unlink the entry of the header. -/
theorem used_entry_unlinks_under_header :
    ¬ ∀ (sys : Sys) (s : State) (pt : PtId) (me : MeId), Reachable sys s →
      me ∈ (s.pts pt).overflowList → UnlinkSound s me := by
  intro claimed
  obtain ⟨s, reachable, holds⟩ := reachable_of_executes (twoNodes {} {})
    (countedDeposit MeOption.useOnce)
    (fun s => decide (0 ∈ (s.pts 0).overflowList ∧ (s.mes 0).pt = 0 ∧
      0 ∈ (s.pts 0).unexpectedHeaders ∧
      Obs.consumed (s.reqOf 0) 0 0 .overflow 0 ∈ s.log ∧
      ptlMEUnlinkReturn s 0 = .ok)) (by decide +kernel)
  obtain ⟨linked, table, unexpected, deposited, accepted⟩ :=
    of_decide_eq_true holds
  apply (claimed _ s 0 0 reachable linked).accepts accepted 0
  · rw [table]
    exact unexpected
  · exact ⟨0, deposited⟩

end S4BXI
