import S4BXI.Matching.Appends

/-!
# No missed match

No unexpected header matches an entry of the priority list.  A header is only
added when no priority entry matches it; an entry is only linked after
`walk_through_UHs` has passed over all the headers, including those which
arrived while it was suspended.
-/

namespace S4BXI

open Lib

/-- `BxiME::matches_request` for the request of a message. -/
def State.matches (s : State) (me : MeId) (msg : MsgId) : Bool :=
  (s.mes me).matchesRequest (s.parent msg)

structure Scanned (s : State) : Prop where
  missed : ∀ pt, ∀ header ∈ (s.pts pt).unexpectedHeaders,
    ∀ me ∈ (s.pts pt).priorityList, s.matches me header = false
  bound : ∀ {index me position},
    s.Pends index (.walkThroughUHs me position) →
      position ≤ (s.pts (s.mes me).pt).unexpectedHeaders.length
  passed : ∀ {index me position},
    s.Pends index (.walkThroughUHs me position) →
      ∀ earlier header, earlier < position →
        (s.pts (s.mes me).pt).unexpectedHeaders[earlier]? = some header →
          s.matches me header = false

section Matches

variable {s after : State}

/-- An entry never starts to match. -/
theorem BxiME.matchesRequest_mono {me me' : BxiME} {req req' : BxiRequest}
    (sameMe : me'.fixed = me.fixed) (sameReq : req'.fixed = req.fixed)
    (used : me.used = true → me'.used = true)
    (absent : me.matchesRequest req = false) :
    me'.matchesRequest req' = false := by
  have options : me'.me = me.me := (congrArg BxiME.me sameMe :)
  have matching : req'.matching = req.matching :=
    (congrArg BxiRequest.matching sameReq :)
  have bits : req'.matchBits = req.matchBits :=
    (congrArg BxiRequest.matchBits sameReq :)
  unfold BxiME.matchesRequest BxiME.hasOption at absent ⊢
  rw [options, matching, bits]
  split
  · rfl
  · rename_i free
    have earlier : ¬(hasPtlOption me.me.options MeOption.useOnce &&
        me.used) = true := by
      intro both
      simp only [Bool.and_eq_true] at both free
      exact free ⟨both.1, used both.2⟩
    rw [if_neg earlier] at absent
    exact absent

theorem Extends.matches_mono (grows : Extends s after)
    (allocated : Allocated s) {me : MeId} {msg : MsgId}
    (oldMe : me < s.nextMe) (oldMsg : msg < s.nextMsg)
    (used : (s.mes me).used = true → (after.mes me).used = true)
    (absent : s.matches me msg = false) : after.matches me msg = false :=
  BxiME.matchesRequest_mono (grows.mes me oldMe)
    (grows.parent oldMsg allocated) used absent

end Matches

section Steps

variable {sys : Sys} {self : Actor} {s after : State} {index : ThreadId}

/-- An entry which was used stays so. -/
theorem Pairing.used {label : Label}
    (pairing : Pairing sys s index label after) {me : MeId}
    (old : me < s.nextMe) (used : (s.mes me).used = true) :
    (after.mes me).used = true := by
  cases pairing with
  | halt => exact used
  | run found pairs =>
      cases pairs with
      | shrink idle nothing shrinks => exact (shrinks.used me).trans used
      | arrive nothing fresh matched arrives =>
          refine (arrives.used me).trans ?_
          split
          · rfl
          · exact used
      | insert scanned => exact used
      | stop => exact used
      | @overflow entry start position header matched search deposited =>
          simp only [State.emit, State.modPt, State.modMe,
            Function.update_apply]
          split
          · rfl
          · exact used
      | @consumed entry =>
          simp only [destroyMe, State.modMe, Function.update_apply]
          split
          · rename_i same
            exact same ▸ used
          · exact used
  | start found nothing shrinks => exact (shrinks.used me).trans used
  | call found owned pairs =>
      cases pairs with
      | shrink nothing shrinks => exact (shrinks.used me).trans used
      | ptAlloc pts mes nextMe log reqs =>
          simp only [mes]
          exact used
      | ptFree taken pts same nextMe log reqs => exact (same me).trans used
      | appendPriority taken =>
          simp only [newMe]
          rw [Function.update_of_ne (Nat.ne_of_lt old)]
          exact used
      | appendOverflow taken =>
          simp only [appendInsert, State.modPt, newMe]
          rw [Function.update_of_ne (Nat.ne_of_lt old)]
          exact used

namespace Scanned

/-- What stays when no header and no priority entry is added.  The headers of a
portal table entry may go away when no append scans them. -/
theorem keep (scanned : Scanned s) (wellScoped : WellScoped s)
    (grows : Extends s after)
    (used : ∀ me < s.nextMe,
      (s.mes me).used = true → (after.mes me).used = true)
    (headers : ∀ pt, (after.pts pt).unexpectedHeaders =
        (s.pts pt).unexpectedHeaders ∨
      (after.pts pt).unexpectedHeaders = [] ∧
        ∀ {index me position}, s.Pends index (.walkThroughUHs me position) →
          (s.mes me).pt ≠ pt)
    (lists : ∀ pt, ∀ me ∈ (after.pts pt).priorityList,
      me ∈ (s.pts pt).priorityList)
    (pends : ∀ {index me position},
      after.Pends index (.walkThroughUHs me position) →
        position = 0 ∨ s.Pends index (.walkThroughUHs me position)) :
    Scanned after where
  missed pt header member me linked := by
    rcases headers pt with same | ⟨empty, quiet⟩
    · rw [same] at member
      have old := lists pt me linked
      have small := (wellScoped.tables.pts pt).entries .priority me old
      exact grows.matches_mono wellScoped.tables small
        ((wellScoped.tables.pts pt).headers header member) (used me small)
        (scanned.missed pt header member me old)
    · rw [empty] at member
      cases member
  bound pending := by
    rcases pends pending with rfl | earlier
    · exact Nat.zero_le _
    · rw [grows.mePt (wellScoped.ops.pends earlier)]
      rcases headers _ with same | ⟨empty, quiet⟩
      · rw [same]
        exact scanned.bound earlier
      · exact absurd rfl (quiet earlier)
  passed pending earlier header before present := by
    rcases pends pending with rfl | began
    · exact absurd before (Nat.not_lt_zero _)
    · have small := wellScoped.ops.pends began
      rw [grows.mePt small] at present
      rcases headers _ with same | ⟨empty, quiet⟩
      · rw [same] at present
        exact grows.matches_mono wellScoped.tables small
          ((wellScoped.tables.pts _).headers header
            (List.mem_of_getElem? present)) (used _ small)
          (scanned.passed began earlier header before present)
      · exact absurd rfl (quiet began)

/-- A request is matched: its header is added if no priority entry matches. -/
theorem arrive (scanned : Scanned s) (wellScoped : WellScoped s)
    (grows : Extends s after)
    (used : ∀ me < s.nextMe,
      (s.mes me).used = true → (after.mes me).used = true)
    {nid : Nid} {msg : MsgId} {pt : PtId} {list : PtlList} {me : MeId}
    (old : msg < s.nextMsg) (matched : Matched sys s nid msg pt list me)
    (arrives : Arrives s msg pt list me after)
    (pends : ∀ {index me position},
      after.Pends index (.walkThroughUHs me position) →
        s.Pends index (.walkThroughUHs me position)) : Scanned after where
  missed table header member entry linked := by
    have sameList : (after.pts table).priorityList =
        (s.pts table).priorityList := arrives.lists table .priority
    rw [sameList] at linked
    have small := (wellScoped.tables.pts table).entries .priority entry linked
    rw [arrives.headers] at member
    split at member
    · rename_i here
      obtain ⟨overflow, rfl⟩ := here
      subst overflow
      rcases List.mem_append.mp member with earlier | new
      · exact grows.matches_mono wellScoped.tables small
          ((wellScoped.tables.pts table).headers header earlier)
          (used entry small) (scanned.missed table header earlier entry linked)
      · rw [List.mem_singleton.mp new]
        refine grows.matches_mono wellScoped.tables small old
          (used entry small) ?_
        exact (BxiPT.findEntry_overflow matched.found).1 entry linked
    · exact grows.matches_mono wellScoped.tables small
        ((wellScoped.tables.pts table).headers header member)
        (used entry small) (scanned.missed table header member entry linked)
  bound pending := by
    have earlier := pends pending
    rw [grows.mePt (wellScoped.ops.pends earlier), arrives.headers]
    split
    · rw [List.length_append]
      exact (scanned.bound earlier).trans (Nat.le_add_right _ _)
    · exact scanned.bound earlier
  passed pending earlier header before present := by
    rename_i actor entry position
    have began := pends pending
    have small : entry < s.nextMe := wellScoped.ops.pends began
    have inside := scanned.bound began
    -- the new header is behind the position of the scan
    have same : (s.pts (s.mes entry).pt).unexpectedHeaders[earlier]? =
        some header := by
      rw [grows.mePt small, arrives.headers] at present
      split at present
      · rwa [List.getElem?_append_left (by omega)] at present
      · exact present
    exact grows.matches_mono wellScoped.tables small
      ((wellScoped.tables.pts _).headers header
        (List.mem_of_getElem? same)) (used _ small)
      (scanned.passed began earlier header before same)

/-- The entry is linked once all the headers have been passed. -/
theorem insert (scanned : Scanned s) {me : MeId} {position : Nat}
    {rest new : List Op}
    (found : s.threads[index]? =
      some ⟨self, .walkThroughUHs me position :: rest⟩)
    (complete : (s.pts (s.mes me).pt).findHeader
      (fun header => s.reqs (s.reqOf header)) (s.mes me) position = none)
    (nothing : ∀ added ∈ new, added.appending = none) :
    Scanned { appendInsert s me with
      threads := s.threads.set index ⟨self, new ++ rest⟩ } := by
  have pendsMe : s.Pends index (.walkThroughUHs me position) :=
    ⟨_, found, List.mem_cons_self⟩
  have headers := appendInsert_headers s me
  constructor
  · intro pt header member entry linked
    change header ∈ ((appendInsert s me).pts pt).unexpectedHeaders at member
    change entry ∈ ((appendInsert s me).pts pt).listOf .priority at linked
    rw [headers] at member
    rw [appendInsert_listOf] at linked
    split at linked
    · rename_i here
      obtain ⟨rfl, priority⟩ := here
      rcases List.mem_append.mp linked with old | new
      · exact scanned.missed _ header member entry old
      · rw [List.mem_singleton.mp new]
        obtain ⟨place, present⟩ := List.mem_iff_getElem?.mp member
        rcases Nat.lt_or_ge place position with passed | ahead
        · exact scanned.passed pendsMe place header passed present
        · exact BxiPT.findHeader_none complete ahead present
    · exact scanned.missed pt header member entry linked
  · intro other entry later pends
    have began := pends_silent found nothing pends rfl
    change later ≤ ((appendInsert s me).pts
      (s.mes entry).pt).unexpectedHeaders.length
    rw [headers]
    exact scanned.bound began
  · intro other entry later pends earlier header before present
    have began := pends_silent found nothing pends rfl
    change ((appendInsert s me).pts
      (s.mes entry).pt).unexpectedHeaders[earlier]? = some header at present
    rw [headers] at present
    exact scanned.passed began earlier header before present

/-- A header is consumed and the scan resumes at its position. -/
theorem overflow (scanned : Scanned s) (wellScoped : WellScoped s)
    (appending : Appending sys s) {me : MeId} {start position : Nat}
    {header : MsgId} {rest new : List Op} (grows : Extends s after)
    (used : ∀ me < s.nextMe,
      (s.mes me).used = true → (after.mes me).used = true)
    (threads : after.threads = s.threads.set index ⟨self, new ++ rest⟩)
    (headers : ∀ pt, (after.pts pt).unexpectedHeaders =
      if pt = (s.mes me).pt then
        (s.pts pt).unexpectedHeaders.eraseIdx position
      else (s.pts pt).unexpectedHeaders)
    (lists : ∀ pt, (after.pts pt).priorityList = (s.pts pt).priorityList)
    (found : s.threads[index]? =
      some ⟨self, .walkThroughUHs me start :: rest⟩)
    (search : (s.pts (s.mes me).pt).findHeader
      (fun header => s.reqs (s.reqOf header)) (s.mes me) start =
        some (position, header))
    (resumes : ∀ op ∈ new, op.appending.isSome →
      op = .walkThroughUHs me position ∨ op = .appendConsumed me) :
    Scanned after := by
  have pendsMe : s.Pends index (.walkThroughUHs me start) :=
    ⟨_, found, List.mem_cons_self⟩
  have smallMe : me < s.nextMe := wellScoped.ops.pends pendsMe
  have silent := appending.rest_silent found rfl
  obtain ⟨ahead, present, matching, missed⟩ := BxiPT.findHeader_some search
  have inside : position < (s.pts (s.mes me).pt).unexpectedHeaders.length :=
    (List.getElem?_eq_some_iff.mp present).1
  have cases : ∀ {other entry place},
      after.Pends other (.walkThroughUHs entry place) →
      s.Pends other (.walkThroughUHs entry place) ∧
          (s.mes entry).pt ≠ (s.mes me).pt ∨
        entry = me ∧ place = position := by
    intro other entry place pends
    unfold State.Pends at pends
    rw [threads] at pends
    rcases pends_run found pends with
      ⟨differs, earlier⟩ | ⟨same, added | ⟨kept, earlier⟩⟩
    · refine .inl ⟨earlier, fun equal => differs ?_⟩
      exact appending.same_actor pendsMe rfl earlier rfl equal
    · rcases resumes _ added rfl with resumed | consumed
      · cases resumed
        exact .inr ⟨rfl, rfl⟩
      · cases consumed
    · have absent := silent _ kept
      cases absent
  constructor
  · intro pt other member entry linked
    rw [lists] at linked
    have old : other ∈ (s.pts pt).unexpectedHeaders := by
      rw [headers] at member
      split at member
      · exact List.mem_of_mem_eraseIdx member
      · exact member
    have small := (wellScoped.tables.pts pt).entries .priority entry linked
    exact grows.matches_mono wellScoped.tables small
      ((wellScoped.tables.pts pt).headers other old) (used entry small)
      (scanned.missed pt other old entry linked)
  · intro other entry place pends
    rcases cases pends with ⟨earlier, differs⟩ | ⟨rfl, rfl⟩
    · rw [grows.mePt (wellScoped.ops.pends earlier), headers, if_neg differs]
      exact scanned.bound earlier
    · rw [grows.mePt smallMe, headers, if_pos rfl, List.length_eraseIdx,
        if_pos inside]
      omega
  · intro other entry place pends earlier msg before there
    rcases cases pends with ⟨began, differs⟩ | ⟨rfl, rfl⟩
    · have small : entry < s.nextMe := wellScoped.ops.pends began
      rw [grows.mePt small, headers, if_neg differs] at there
      exact grows.matches_mono wellScoped.tables small
        ((wellScoped.tables.pts _).headers msg (List.mem_of_getElem? there))
        (used entry small) (scanned.passed began earlier msg before there)
    · rw [grows.mePt smallMe, headers, if_pos rfl,
        List.getElem?_eraseIdx_of_lt before] at there
      have absent : s.matches entry msg = false := by
        rcases Nat.lt_or_ge earlier start with passed | later
        · exact scanned.passed pendsMe earlier msg passed there
        · exact missed earlier msg later before there
      exact grows.matches_mono wellScoped.tables smallMe
        ((wellScoped.tables.pts _).headers msg (List.mem_of_getElem? there))
        (used entry smallMe) absent

theorem pairing {label : Label} (scanned : Scanned s)
    (wellScoped : WellScoped s) (appending : Appending sys s)
    (grows : Extends s after)
    (pairing : Pairing sys s index label after) : Scanned after := by
  have used : ∀ me < s.nextMe,
      (s.mes me).used = true → (after.mes me).used = true :=
    fun me old => pairing.used old
  cases pairing with
  | halt =>
      exact scanned.keep wellScoped grows used (fun _ => .inl rfl)
        (fun _ _ linked => linked) .inr
  | @run self op rest new after found pairs =>
      cases pairs with
      | shrink idle nothing shrinks =>
          exact scanned.keep wellScoped grows used
            (fun pt => .inl (shrinks.headers pt))
            (fun pt _ linked => (shrinks.lists pt .priority).subset linked)
            fun pends => .inr (pends_silent found nothing pends rfl)
      | arrive nothing fresh matched arrives =>
          have old := wellScoped.ops _ (List.mem_of_getElem? found) _
            List.mem_cons_self
          exact scanned.arrive wellScoped grows used old matched
            { arrives with } fun pends => pends_silent found nothing pends rfl
      | insert complete =>
          exact scanned.insert found complete
            (issueLink_every fun _ _ _ => rfl)
      | stop =>
          exact scanned.keep wellScoped grows used (fun _ => .inl rfl)
            (fun _ _ linked => linked)
            fun pends => .inr (pends_silent found (by simp) pends rfl)
      | @overflow me start position header matched search deposited =>
          refine scanned.overflow wellScoped appending grows used rfl ?_ ?_
            found search ?_
          · intro pt
            simp only [State.emit, State.modPt, State.modMe,
              Function.update_apply]
            split
            · rename_i same
              rw [same]
            · rfl
          · intro pt
            simp only [State.emit, State.modPt, State.modMe,
              Function.update_apply]
            split
            · rename_i same
              rw [same]
            · rfl
          · intro op member appends
            simp only [List.mem_append, List.mem_cons,
              List.not_mem_nil, or_false] at member
            rcases member with (rfl | issued) | rfl
            · cases appends
            · have quiet := issueEvent_every (P := (·.appending = none))
                (fun _ => rfl) op issued
              simp [quiet] at appends
            · split
              · exact .inr rfl
              · exact .inl rfl
      | consumed =>
          exact scanned.keep wellScoped grows used (fun _ => .inl rfl)
            (fun _ _ linked => linked)
            fun pends => .inr (pends_silent found (by simp) pends rfl)
  | start found nothing shrinks =>
      exact scanned.keep wellScoped grows used
        (fun pt => .inl (shrinks.headers pt))
        (fun pt _ linked => (shrinks.lists pt .priority).subset linked)
        fun pends => .inr (pends_idle nothing pends rfl)
  | call found owned pairs =>
      have silent : ∀ op ∈ ([] : List Op), op.appending = none := by simp
      cases pairs with
      | shrink nothing shrinks =>
          exact scanned.keep wellScoped grows used
            (fun pt => .inl (shrinks.headers pt))
            (fun pt _ linked => (shrinks.lists pt .priority).subset linked)
            fun pends => .inr (pends_idle nothing pends rfl)
      | ptAlloc pts mes nextMe log reqs =>
          refine scanned.keep wellScoped grows used ?_ ?_
            fun pends => .inr (pends_idle silent pends rfl)
          · intro pt
            simp only [pts, Function.update_apply]
            split
            · rename_i new
              refine .inr ⟨rfl, fun pends same => ?_⟩
              have small := wellScoped.tables.entries _
                (wellScoped.ops.pends pends)
              exact absurd (same.trans new) (Nat.ne_of_lt small)
            · exact .inl rfl
          · intro pt me
            simp only [pts, Function.update_apply]
            split
            · exact fun linked => absurd linked List.not_mem_nil
            · exact id
      | @ptFree ni slot table after taken pts same nextMe log reqs =>
          refine scanned.keep wellScoped grows used ?_ ?_
            fun pends => .inr (pends_idle silent pends rfl)
          · intro pt
            simp only [pts, Function.update_apply]
            split
            · rename_i here
              refine .inr ⟨rfl, fun pends onTable => ?_⟩
              -- the process which frees the entry would be appending
              have owner := (Call.owned_interface owned
                List.mem_cons_self).1
              have walker := appending.owner pends rfl
              rw [onTable, here, Appending.owner_of_call wellScoped.tables
                taken owner] at walker
              obtain ⟨thread, present, member⟩ := pends
              rw [← walker, found] at present
              cases present
              cases member
            · exact .inl rfl
          · intro pt me
            simp only [pts, Function.update_apply]
            split
            · exact fun linked => absurd linked List.not_mem_nil
            · exact id
      | @appendPriority ni slot pt me userPtr taken =>
          refine scanned.keep wellScoped grows used (fun _ => .inl rfl)
            (fun _ _ linked => linked) fun pends => ?_
          rcases pends.of_set with ⟨differs, earlier⟩ | ⟨here, member⟩
          · exact .inr earlier
          · cases List.mem_singleton.mp member
            exact .inl rfl
      | @appendOverflow ni slot pt me userPtr taken =>
          refine scanned.keep wellScoped grows used
            (fun pt => .inl (appendInsert_headers _ _ pt)) ?_
            fun pends => .inr (pends_idle
              (issueLink_every fun _ _ _ => rfl) pends rfl)
          intro table entry linked
          change entry ∈ ((appendInsert (newMe s pt me .overflow userPtr)
            s.nextMe).pts table).listOf .priority at linked
          rw [appendInsert_listOf] at linked
          simpa [newMe, BxiPT.listOf] using linked

end Scanned

theorem scanned_initial (sys : Sys) : Scanned (initial sys) := by
  constructor
  · intro pt header member
    cases member
  · exact fun pends => absurd pends (not_pends_initial sys)
  · exact fun pends => absurd pends (not_pends_initial sys)

theorem ReachedBy.scanned {allowed : State → Label → Prop}
    (reached : ReachedBy sys allowed s) : Scanned s :=
  reached.invariant_of_reached (scanned_initial sys) fun earlier holds _
    stepped => holds.pairing (ReachedBy.wellScoped earlier)
      (ReachedBy.appending earlier) (step_advances stepped).extends
      ((step_advances stepped).pairing (ReachedBy.wellScoped earlier).ops)

end Steps

/-- No unexpected header matches an entry of the priority list, also while an
append is suspended in `walk_through_UHs`. -/
theorem no_missed_match {sys : Sys} {s : State} (reachable : Reachable sys s)
    (pt : PtId) (header : MsgId)
    (unexpected : header ∈ (s.pts pt).unexpectedHeaders) (me : MeId)
    (linked : me ∈ (s.pts pt).priorityList) :
    (s.mes me).matchesRequest (s.reqs (s.reqOf header)) = false :=
  (ReachedBy.scanned reachable).missed pt header unexpected me linked

/-- A header next to an entry with other match bits. -/
theorem unexpected_put_not_missed :
    ∃ s, Reachable (twoNodes {} { e2eOff := false }) s ∧
      0 ∈ (s.pts 0).unexpectedHeaders ∧ 1 ∈ (s.pts 0).priorityList ∧
      (s.mes 1).matchesRequest (s.reqs (s.reqOf 0)) = false := by
  obtain ⟨s, reachable, holds⟩ := reachable_of_executes
    (twoNodes {} { e2eOff := false })
    (unexpectedPut ++ appends
      { start := 1000, length := 100, matchBits := 2 } .priority :: runs 6 3)
    (fun s => decide (0 ∈ (s.pts 0).unexpectedHeaders) &&
      decide (1 ∈ (s.pts 0).priorityList))
    (by decide +kernel)
  simp only [Bool.and_eq_true, decide_eq_true_eq] at holds
  obtain ⟨unexpected, linked⟩ := holds
  exact ⟨s, reachable, unexpected, linked,
    no_missed_match reachable 0 0 unexpected 1 linked⟩

end S4BXI
