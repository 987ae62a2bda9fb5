import S4BXI.Lib.Order
import S4BXI.Matching.MissedMatch

/-!
# Matching does not overtake

Two requests with the same match bits are paired with priority entries in the
order in which they were handled.  A request which waits in the unexpected
headers is ahead of all later requests with its match bits, and the entries
linked before the one a request was paired with do not match it.
-/

namespace S4BXI

open Lib

/-- The request which an effect matches on a portal table entry. -/
def Obs.arrival (pt : PtId) : Obs → Option ReqId
  | .consumed req _ table _ _ => if table = pt then some req else none
  | _ => none

/-- The priority entry with which an effect pairs a request, when the request
is handled or when the entry is appended. -/
def Obs.pairing (pt : PtId) : Obs → Option (ReqId × MeId)
  | .consumed req _ table .priority me =>
      if table = pt then some (req, me) else none
  | .overflow req _ table me => if table = pt then some (req, me) else none
  | _ => none

/-- The requests matched on a portal table entry, in the order in which they
were handled. -/
def arrivals (pt : PtId) (log : List Obs) : List ReqId :=
  log.filterMap (Obs.arrival pt)

/-- The requests paired with a priority entry of a portal table entry. -/
def pairings (pt : PtId) (log : List Obs) : List (ReqId × MeId) :=
  log.filterMap (Obs.pairing pt)

/-- Two requests with the same match bits. -/
def State.sameBits (s : State) (first second : ReqId) : Prop :=
  (s.reqs first).matchBits = (s.reqs second).matchBits

structure Ordered (sys : Sys) (s : State) (pt : PtId) : Prop where
  matching : ∀ req ∈ arrivals pt s.log, (s.reqs req).matching =
    hasPtlOption (sys.ni (s.pts pt).ni).options NiOption.matching
  headers : ((s.pts pt).unexpectedHeaders.map s.reqOf).Sublist
    (arrivals pt s.log)
  arrived : ∀ req me, (req, me) ∈ pairings pt s.log →
    req ∈ arrivals pt s.log ∧ (s.mes me).pt = pt
  behind : ∀ header ∈ (s.pts pt).unexpectedHeaders, ∀ later,
    Precedes (arrivals pt s.log) (s.reqOf header) later →
      s.sameBits (s.reqOf header) later →
        ∀ me, (later, me) ∉ pairings pt s.log
  ahead : ∀ req me, (req, me) ∈ pairings pt s.log →
    ∀ linked ∈ (s.pts pt).priorityList, linked < me →
      (s.mes linked).matchesRequest (s.reqs req) = false
  ordered : ∀ first second me me',
    Precedes (arrivals pt s.log) first second → s.sameBits first second →
      (first, me) ∈ pairings pt s.log → (second, me') ∈ pairings pt s.log →
        me ≤ me'

section Logs

variable {s : State} {pt : PtId}

theorem arrivals_append (log extra : List Obs) :
    arrivals pt (log ++ extra) = arrivals pt log ++ arrivals pt extra :=
  List.filterMap_append

theorem pairings_append (log extra : List Obs) :
    pairings pt (log ++ extra) = pairings pt log ++ pairings pt extra :=
  List.filterMap_append

theorem arrivals_silent {extra : List Obs}
    (silent : ∀ obs ∈ extra, obs.pairs = false) : arrivals pt extra = [] := by
  refine List.filterMap_eq_nil_iff.mpr fun obs member => ?_
  have none := silent obs member
  cases obs <;> first | rfl | cases none

theorem pairings_silent {extra : List Obs}
    (silent : ∀ obs ∈ extra, obs.pairs = false) : pairings pt extra = [] := by
  refine List.filterMap_eq_nil_iff.mpr fun obs member => ?_
  have none := silent obs member
  cases obs <;> first | rfl | cases none

theorem arrivals_within (allocated : Allocated s) {req : ReqId}
    (member : req ∈ arrivals pt s.log) : req < s.nextReq ∧ pt < s.nextPt := by
  obtain ⟨obs, logged, arrives⟩ := List.mem_filterMap.mp member
  have within := allocated.log obs logged
  cases obs with
  | consumed other msg table list me =>
      simp only [Obs.arrival, Option.ite_none_right_eq_some,
        Option.some.injEq] at arrives
      obtain ⟨rfl, rfl⟩ := arrives
      exact ⟨within.1, within.2.2.1⟩
  | _ => cases arrives

theorem pairings_within (allocated : Allocated s) {req : ReqId} {me : MeId}
    (member : (req, me) ∈ pairings pt s.log) : me < s.nextMe := by
  obtain ⟨obs, logged, arrives⟩ := List.mem_filterMap.mp member
  have within := allocated.log obs logged
  cases obs with
  | consumed other msg table list entry =>
      cases list with
      | priority =>
          simp only [Obs.pairing, Option.ite_none_right_eq_some,
            Option.some.injEq, Prod.mk.injEq] at arrives
          obtain ⟨rfl, rfl, rfl⟩ := arrives
          exact within.2.2.2
      | overflow => cases arrives
  | overflow other msg table entry =>
      simp only [Obs.pairing, Option.ite_none_right_eq_some,
        Option.some.injEq, Prod.mk.injEq] at arrives
      obtain ⟨rfl, rfl, rfl⟩ := arrives
      exact within.2.2.2
  | _ => cases arrives

/-- A request is matched at most once. -/
theorem arrivals_nodup
    (once : ∀ req, s.achieved .consumed req ≤ 1) (pt : PtId) :
    (arrivals pt s.log).Nodup := by
  refine List.nodup_iff_count_le_one.mpr fun req => (once req).trans' ?_
  unfold State.achieved arrivals
  rw [List.count_filterMap]
  refine List.countP_mono_left fun obs member arrives => ?_
  cases obs with
  | consumed other msg table list me =>
      simp only [Obs.arrival, beq_iff_eq, Option.ite_none_right_eq_some,
        Option.some.injEq] at arrives
      simp [Obs.achieves, arrives.2]
  | _ => simp [Obs.arrival] at arrives

end Logs

/-- Whether an entry matches only depends on the match bits of the requests for
an interface. -/
theorem BxiME.matchesRequest_congr (me : BxiME) {req req' : BxiRequest}
    (matching : req'.matching = req.matching)
    (bits : req'.matchBits = req.matchBits) :
    me.matchesRequest req' = me.matchesRequest req := by
  unfold BxiME.matchesRequest
  rw [matching, bits]

/-- The priority entries before the one which is found do not match. -/
theorem BxiPT.findEntry_passed {pt : BxiPT} {mes : MeId → BxiME}
    {req : BxiRequest} {me other : MeId}
    (found : pt.findEntry mes req = some (.priority, me))
    (sorted : pt.priorityList.Pairwise (· < ·))
    (linked : other ∈ pt.priorityList) (before : other < me) :
    (mes other).matchesRequest req = false := by
  obtain ⟨matches', passed, rest, split, missed⟩ :=
    List.find?_eq_some_iff_append.mp (findEntry_priority found)
  rw [split] at linked sorted
  have later := (List.pairwise_append.mp sorted).2.1
  rcases List.mem_append.mp linked with early | late
  · simpa using missed other early
  · rcases List.mem_cons.mp late with rfl | behind
    · exact absurd before (Nat.lt_irrefl _)
    · exact absurd before (Nat.lt_asymm
        ((List.pairwise_cons.mp later).1 other behind))

section Steps

variable {sys : Sys} {self : Actor} {s after : State} {index : ThreadId}
  {pt : PtId}

namespace Ordered

/-- Entries match the same requests among those with the same match bits. -/
theorem matches_same (ordered : Ordered sys s pt) {first second : ReqId}
    (arrived : first ∈ arrivals pt s.log)
    (arrived' : second ∈ arrivals pt s.log) (bits : s.sameBits first second)
    (me : BxiME) :
    me.matchesRequest (s.reqs first) = me.matchesRequest (s.reqs second) :=
  me.matchesRequest_congr
    ((ordered.matching first arrived).trans
      (ordered.matching second arrived').symm) bits

theorem sameBits_of (grows : Extends s after) {first second : ReqId}
    (old : first < s.nextReq) (old' : second < s.nextReq)
    (bits : after.sameBits first second) : s.sameBits first second := by
  have left : (after.reqs first).matchBits = (s.reqs first).matchBits :=
    (congrArg BxiRequest.matchBits (grows.reqs first old) :)
  have right : (after.reqs second).matchBits = (s.reqs second).matchBits :=
    (congrArg BxiRequest.matchBits (grows.reqs second old') :)
  exact left.symm.trans (bits.trans right)

theorem matching_of (grows : Extends s after) {req : ReqId}
    (old : req < s.nextReq ∧ pt < s.nextPt)
    (same : (s.reqs req).matching =
      hasPtlOption (sys.ni (s.pts pt).ni).options NiOption.matching) :
    (after.reqs req).matching =
      hasPtlOption (sys.ni (after.pts pt).ni).options NiOption.matching := by
  have left : (after.reqs req).matching = (s.reqs req).matching :=
    (congrArg BxiRequest.matching (grows.reqs req old.1) :)
  have right : (after.pts pt).ni = (s.pts pt).ni :=
    (congrArg BxiPT.ni (grows.pts pt old.2) :)
  rw [left, right, same]

theorem map_reqOf (grows : Extends s after) {msgs : List MsgId}
    (old : ∀ msg ∈ msgs, msg < s.nextMsg) :
    msgs.map after.reqOf = msgs.map s.reqOf :=
  List.map_congr_left fun msg member => grows.reqOf (old msg member)

/-- What stays when no request is paired.  An entry may be linked which is the
newest one of its portal table entry. -/
theorem keep (ordered : Ordered sys s pt) (wellScoped : WellScoped s)
    (grows : Extends s after)
    (used : ∀ me < s.nextMe,
      (s.mes me).used = true → (after.mes me).used = true)
    (arrived : arrivals pt after.log = arrivals pt s.log)
    (paired : pairings pt after.log = pairings pt s.log)
    (headers : (after.pts pt).unexpectedHeaders.Sublist
      (s.pts pt).unexpectedHeaders)
    (lists : ∀ me ∈ (after.pts pt).priorityList,
      me ∈ (s.pts pt).priorityList ∨
        ∀ other < s.nextMe, (s.mes other).pt = pt → other ≤ me) :
    Ordered sys after pt where
  matching req member := by
    rw [arrived] at member
    exact matching_of grows (arrivals_within wellScoped.tables member)
      (ordered.matching req member)
  headers := by
    rw [arrived, map_reqOf grows fun msg member =>
      (wellScoped.tables.pts pt).headers msg (headers.subset member)]
    exact (headers.map _).trans ordered.headers
  arrived req me member := by
    rw [paired] at member
    rw [arrived, grows.mePt (pairings_within wellScoped.tables member)]
    exact ordered.arrived req me member
  behind header member later precedes bits me := by
    have old := headers.subset member
    rw [arrived, grows.reqOf ((wellScoped.tables.pts pt).headers header old)]
      at precedes
    rw [grows.reqOf ((wellScoped.tables.pts pt).headers header old)] at bits
    rw [paired]
    exact ordered.behind header old later precedes
      (sameBits_of grows (arrivals_within wellScoped.tables
        precedes.mem_left).1 (arrivals_within wellScoped.tables
        precedes.mem_right).1 bits) me
  ahead req me member linked inList before := by
    rw [paired] at member
    obtain ⟨arrival, table⟩ := ordered.arrived req me member
    have small := pairings_within wellScoped.tables member
    rcases lists linked inList with old | newest
    · have oldMe := (wellScoped.tables.pts pt).entries .priority linked old
      exact BxiME.matchesRequest_mono (grows.mes linked oldMe)
        (grows.reqs req (arrivals_within wellScoped.tables arrival).1)
        (used linked oldMe) (ordered.ahead req me member linked old before)
    · exact absurd (newest me small table) (Nat.not_le_of_lt before)
  ordered first second me me' precedes bits member member' := by
    rw [arrived] at precedes
    rw [paired] at member member'
    exact ordered.ordered first second me me' precedes
      (sameBits_of grows (arrivals_within wellScoped.tables
        precedes.mem_left).1 (arrivals_within wellScoped.tables
        precedes.mem_right).1 bits) member member'

/-- A request is handled which matches an entry of one of the lists. -/
theorem arrive (ordered : Ordered sys s pt) (wellScoped : WellScoped s)
    (scanned : Scanned s) (appending : Appending sys s)
    (grows : Extends s after)
    (used : ∀ me < s.nextMe,
      (s.mes me).used = true → (after.mes me).used = true)
    (nodup : (arrivals pt after.log).Nodup)
    {nid : Nid} {msg : MsgId} {list : PtlList} {me : MeId}
    (old : msg < s.nextMsg) (matched : Matched sys s nid msg pt list me)
    (arrives : Arrives s msg pt list me after) : Ordered sys after pt := by
  obtain ⟨⟨ni, active, able, taken⟩, enabled, found⟩ := matched
  obtain ⟨smallPt, sameNi, sameIndex⟩ :=
    wellScoped.tables.ptIndexes ni _ pt taken
  have smallReq := wellScoped.tables.parents msg old
  obtain ⟨linked, matching⟩ := BxiPT.findEntry_mem found
  obtain ⟨onTable, onList⟩ := appending.lists pt list me linked
  have smallMe := (wellScoped.tables.pts pt).entries list me linked
  have sameList : (after.pts pt).priorityList = (s.pts pt).priorityList :=
    arrives.lists pt .priority
  obtain ⟨extra, log, silent⟩ := arrives.log
  have arrived : arrivals pt after.log =
      arrivals pt s.log ++ [s.reqOf msg] := by
    rw [log, ← List.singleton_append, arrivals_append, arrivals_append,
      arrivals_silent silent]
    simp [arrivals, Obs.arrival]
  have paired : pairings pt after.log = pairings pt s.log ++
      if list = .priority then [(s.reqOf msg, me)] else [] := by
    rw [log, ← List.singleton_append, pairings_append, pairings_append,
      pairings_silent silent]
    cases list <;> simp [pairings, Obs.pairing]
  have unknown : s.reqOf msg ∉ arrivals pt s.log := by
    rw [arrived] at nodup
    exact fun member => (List.disjoint_of_nodup_append nodup) member
      List.mem_cons_self
  have unpaired : ∀ entry, (s.reqOf msg, entry) ∉ pairings pt s.log :=
    fun entry member => unknown (ordered.arrived _ entry member).1
  have pairCases : ∀ {pair}, pair ∈ pairings pt after.log →
      pair ∈ pairings pt s.log ∨
        list = .priority ∧ pair = (s.reqOf msg, me) := by
    intro pair member
    rw [paired] at member
    rcases List.mem_append.mp member with earlier | new
    · exact .inl earlier
    · split at new
      · exact .inr ⟨by assumption, List.mem_singleton.mp new⟩
      · cases new
  have oldPair : ∀ {req entry}, (req, entry) ∈ pairings pt after.log →
      req ≠ s.reqOf msg → (req, entry) ∈ pairings pt s.log := by
    intro req entry member other
    rcases pairCases member with earlier | ⟨priority, same⟩
    · exact earlier
    · exact absurd (congrArg Prod.fst same) other
  have own : (s.reqs (s.reqOf msg)).matching =
      hasPtlOption (sys.ni (s.pts pt).ni).options NiOption.matching := by
    unfold BxiNI.canMatchRequest at able
    simp only [Bool.and_eq_true, beq_iff_eq] at able
    rw [sameNi]
    exact able.2.symm
  have earlierMatches : ∀ {req}, req ∈ arrivals pt s.log →
      after.sameBits req (s.reqOf msg) → ∀ entry : BxiME,
        entry.matchesRequest (s.reqs req) =
          entry.matchesRequest (s.reqs (s.reqOf msg)) := by
    intro req member bits entry
    exact entry.matchesRequest_congr
      ((ordered.matching req member).trans own.symm)
      (sameBits_of grows (arrivals_within wellScoped.tables member).1
        smallReq bits)
  constructor
  · intro req member
    rw [arrived] at member
    rcases List.mem_append.mp member with earlier | new
    · exact matching_of grows (arrivals_within wellScoped.tables earlier)
        (ordered.matching req earlier)
    · rw [List.mem_singleton.mp new]
      exact matching_of grows ⟨smallReq, smallPt⟩ own
  · rw [arrived, arrives.headers]
    have kept := ordered.headers
    split
    · rw [List.map_append, map_reqOf grows
        (wellScoped.tables.pts pt).headers, List.map_singleton,
        grows.reqOf old]
      exact kept.append (.refl _)
    · rw [map_reqOf grows (wellScoped.tables.pts pt).headers]
      exact kept.trans (List.sublist_append_left _ _)
  · intro req entry inLog
    rw [arrived]
    rcases pairCases inLog with earlier | ⟨priority, same⟩
    · obtain ⟨arrival, table⟩ := ordered.arrived req entry earlier
      rw [grows.mePt (pairings_within wellScoped.tables earlier)]
      exact ⟨List.mem_append_left _ arrival, table⟩
    · cases same
      rw [grows.mePt smallMe]
      exact ⟨List.mem_append_right _ List.mem_cons_self, onTable⟩
  · intro header member later precedes bits entry inLog
    have oldHeader : header ∈ (s.pts pt).unexpectedHeaders := by
      rw [arrived] at precedes
      rw [arrives.headers] at member
      split at member
      · rcases List.mem_append.mp member with earlier | new
        · exact earlier
        · rw [List.mem_singleton.mp new, grows.reqOf old] at precedes
          rcases precedes_concat.mp precedes with earlier | ⟨again, last⟩
          · exact absurd earlier.mem_left unknown
          · exact absurd again unknown
      · exact member
    have sameReq := grows.reqOf
      ((wellScoped.tables.pts pt).headers header oldHeader)
    rw [sameReq] at precedes bits
    rw [arrived] at precedes
    rcases precedes_concat.mp precedes with earlier | ⟨arrival, rfl⟩
    · refine ordered.behind header oldHeader later earlier (sameBits_of grows
        (arrivals_within wellScoped.tables earlier.mem_left).1
        (arrivals_within wellScoped.tables earlier.mem_right).1 bits) entry ?_
      exact oldPair inLog fun same => unknown (same ▸ earlier.mem_right)
    · rcases pairCases inLog with before | ⟨priority, same⟩
      · exact unpaired entry before
      · subst priority
        have missed := scanned.missed pt header oldHeader me linked
        rw [State.matches, State.parent, earlierMatches arrival bits,
          matching] at missed
        cases missed
  · intro req entry inLog other inList before
    rw [sameList] at inList
    have smallOther := (wellScoped.tables.pts pt).entries .priority other inList
    rcases pairCases inLog with earlier | ⟨priority, same⟩
    · have arrival := (ordered.arrived req entry earlier).1
      exact BxiME.matchesRequest_mono (grows.mes other smallOther)
        (grows.reqs req (arrivals_within wellScoped.tables arrival).1)
        (used other smallOther) (ordered.ahead req entry earlier other inList
          before)
    · cases same
      subst priority
      refine BxiME.matchesRequest_mono (grows.mes other smallOther)
        (grows.reqs _ smallReq) (used other smallOther) ?_
      exact BxiPT.findEntry_passed found (appending.sorted pt) inList before
  · intro first second entry entry' precedes bits inLog inLog'
    rw [arrived] at precedes
    rcases precedes_concat.mp precedes with earlier | ⟨arrival, rfl⟩
    · exact ordered.ordered first second entry entry' earlier (sameBits_of
        grows (arrivals_within wellScoped.tables earlier.mem_left).1
        (arrivals_within wellScoped.tables earlier.mem_right).1 bits)
        (oldPair inLog fun same => unknown (same ▸ earlier.mem_left))
        (oldPair inLog' fun same => unknown (same ▸ earlier.mem_right))
    · have before := oldPair inLog fun same => unknown (same ▸ arrival)
      rcases pairCases inLog' with again | ⟨priority, same⟩
      · exact absurd again (unpaired entry')
      · cases same
        subst priority
        by_contra overtaken
        have missed := ordered.ahead first entry before me linked
          (Nat.lt_of_not_le overtaken)
        rw [earlierMatches arrival bits, matching] at missed
        cases missed

/-- An append consumes an unexpected header. -/
theorem overflow {me : MeId} {start position : Nat} {header : MsgId}
    (ordered : Ordered sys s (s.mes me).pt) (wellScoped : WellScoped s)
    (scanned : Scanned s) (appending : Appending sys s)
    (grows : Extends s after)
    (used : ∀ me < s.nextMe,
      (s.mes me).used = true → (after.mes me).used = true)
    (nodup : (arrivals (s.mes me).pt s.log).Nodup)
    (headers : (after.pts (s.mes me).pt).unexpectedHeaders =
      (s.pts (s.mes me).pt).unexpectedHeaders.eraseIdx position)
    (lists : (after.pts (s.mes me).pt).priorityList =
      (s.pts (s.mes me).pt).priorityList)
    (log : after.log = s.log ++
      [.overflow (s.reqOf header) header (s.mes me).pt me])
    (pends : s.Pends index (.walkThroughUHs me start))
    (search : (s.pts (s.mes me).pt).findHeader
      (fun header => s.reqs (s.reqOf header)) (s.mes me) start =
        some (position, header)) : Ordered sys after (s.mes me).pt := by
  generalize table : (s.mes me).pt = pt at *
  obtain ⟨ahead, present, matching, missed⟩ := BxiPT.findHeader_some search
  have unexpected := List.mem_of_getElem? present
  have smallHeader := (wellScoped.tables.pts pt).headers header unexpected
  have smallReq := wellScoped.tables.parents header smallHeader
  have smallMe : me < s.nextMe := wellScoped.ops.pends pends
  have arrival : s.reqOf header ∈ arrivals pt s.log :=
    ordered.headers.subset (List.mem_map_of_mem unexpected)
  have arrived : arrivals pt after.log = arrivals pt s.log := by
    rw [log, arrivals_append]
    simp [arrivals, Obs.arrival]
  have pairCases : ∀ {pair}, pair ∈ pairings pt after.log →
      pair ∈ pairings pt s.log ∨ pair = (s.reqOf header, me) := by
    intro pair member
    rw [log, pairings_append] at member
    simpa [pairings, Obs.pairing] using member
  have within := @arrivals_within s pt wellScoped.tables
  -- the headers in front of the one which is consumed do not match
  have front : ∀ other, Precedes (arrivals pt s.log) (s.reqOf other)
      (s.reqOf header) → other ∈ (s.pts pt).unexpectedHeaders →
        (s.mes me).matchesRequest (s.reqs (s.reqOf other)) = false := by
    intro other precedes member
    obtain ⟨place, there⟩ := List.mem_iff_getElem?.mp member
    have before : place < position := by
      refine precedes.lt_of_sublist nodup ordered.headers ?_ ?_
      · rw [List.getElem?_map, there, Option.map_some]
      · rw [List.getElem?_map, present, Option.map_some]
    rcases Nat.lt_or_ge place start with passed | later
    · refine scanned.passed pends place other passed ?_
      rw [table]
      exact there
    · exact missed place other later before there
  constructor
  · intro req member
    rw [arrived] at member
    exact matching_of grows (within member) (ordered.matching req member)
  · rw [arrived, headers, map_reqOf grows fun msg member =>
      (wellScoped.tables.pts pt).headers msg (List.mem_of_mem_eraseIdx member)]
    exact ((List.eraseIdx_sublist _ _).map _).trans ordered.headers
  · intro req entry inLog
    rw [arrived]
    rcases pairCases inLog with earlier | same
    · obtain ⟨arrival, onTable⟩ := ordered.arrived req entry earlier
      rw [grows.mePt (pairings_within wellScoped.tables earlier)]
      exact ⟨arrival, onTable⟩
    · cases same
      rw [grows.mePt smallMe]
      exact ⟨arrival, table⟩
  · intro other member later precedes bits entry inLog
    rw [headers] at member
    have oldOther := List.mem_of_mem_eraseIdx member
    rw [grows.reqOf ((wellScoped.tables.pts pt).headers other oldOther)]
      at precedes bits
    rw [arrived] at precedes
    have bits' := sameBits_of grows (within precedes.mem_left).1
      (within precedes.mem_right).1 bits
    rcases pairCases inLog with earlier | same
    · exact ordered.behind other oldOther later precedes bits' entry earlier
    · cases same
      have absent := front other precedes oldOther
      rw [ordered.matches_same precedes.mem_left arrival bits',
        matching] at absent
      cases absent
  · intro req entry inLog other inList before
    rw [lists] at inList
    have smallOther := (wellScoped.tables.pts pt).entries .priority other inList
    rcases pairCases inLog with earlier | same
    · have arrival := (ordered.arrived req entry earlier).1
      exact BxiME.matchesRequest_mono (grows.mes other smallOther)
        (grows.reqs req (within arrival).1) (used other smallOther)
        (ordered.ahead req entry earlier other inList before)
    · cases same
      exact BxiME.matchesRequest_mono (grows.mes other smallOther)
        (grows.reqs _ smallReq) (used other smallOther)
        (scanned.missed pt header unexpected other inList)
  · intro first second entry entry' precedes bits inLog inLog'
    rw [arrived] at precedes
    have bits' := sameBits_of grows (within precedes.mem_left).1
      (within precedes.mem_right).1 bits
    rcases pairCases inLog with earlier | same
    · rcases pairCases inLog' with earlier' | same'
      · exact ordered.ordered first second entry entry' precedes bits' earlier
          earlier'
      · cases same'
        refine appending.newest pends rfl entry
          (pairings_within wellScoped.tables earlier) ?_
        rw [(ordered.arrived first entry earlier).2, table]
    · cases same
      rcases pairCases inLog' with earlier' | same'
      · exact absurd earlier'
          (ordered.behind header unexpected second precedes bits' entry')
      · cases same'
        exact Nat.le_refl _

theorem pairing {label : Label} (ordered : Ordered sys s pt)
    (wellScoped : WellScoped s) (scanned : Scanned s)
    (appending : Appending sys s) (grows : Extends s after)
    (nodup : (arrivals pt after.log).Nodup)
    (pairing : Pairing sys s index label after) : Ordered sys after pt := by
  have used : ∀ me < s.nextMe,
      (s.mes me).used = true → (after.mes me).used = true :=
    fun me old => pairing.used old
  have keeps : ∀ {next : State}, Shrinks s next → next.log = after.log →
      next.pts = after.pts → Ordered sys after pt := by
    intro next shrinks sameLog samePts
    obtain ⟨extra, log, silent⟩ := shrinks.log
    refine ordered.keep wellScoped grows used ?_ ?_ ?_ ?_
    · rw [← sameLog, log, arrivals_append, arrivals_silent silent,
        List.append_nil]
    · rw [← sameLog, log, pairings_append, pairings_silent silent,
        List.append_nil]
    · rw [← samePts, shrinks.headers]
    · rw [← samePts]
      exact fun me linked => .inl ((shrinks.lists pt .priority).subset linked)
  cases pairing with
  | halt => exact keeps (.refl s) rfl rfl
  | @run self op rest new after found pairs =>
      cases pairs with
      | shrink idle nothing shrinks => exact keeps shrinks rfl rfl
      | @arrive msg table list me after new nothing fresh matched arrives =>
          by_cases here : pt = table
          · subst here
            have old := wellScoped.ops _ (List.mem_of_getElem? found) _
              List.mem_cons_self
            exact ordered.arrive wellScoped scanned appending grows used nodup
              old matched { arrives with }
          · obtain ⟨extra, log, silent⟩ := arrives.log
            have differs : table ≠ pt := Ne.symm here
            refine ordered.keep wellScoped grows used ?_ ?_ ?_ ?_
            · change arrivals pt after.log = _
              rw [log, ← List.singleton_append, arrivals_append,
                arrivals_append, arrivals_silent silent]
              simp [arrivals, Obs.arrival, differs]
            · change pairings pt after.log = _
              rw [log, ← List.singleton_append, pairings_append,
                pairings_append, pairings_silent silent]
              cases list <;> simp [pairings, Obs.pairing, differs]
            · change (after.pts pt).unexpectedHeaders.Sublist _
              rw [arrives.headers, if_neg fun both => here both.2]
            · intro me linked
              change me ∈ (after.pts pt).listOf .priority at linked
              rw [arrives.lists] at linked
              exact .inl linked
      | @insert me position complete =>
          refine ordered.keep wellScoped grows used rfl rfl
            (appendInsert_headers s me pt ▸ .refl _) ?_
          intro entry linked
          change entry ∈ ((appendInsert s me).pts pt).listOf .priority
            at linked
          rw [appendInsert_listOf] at linked
          split at linked
          · rename_i here
            rcases List.mem_append.mp linked with old | new
            · exact .inl old
            · rw [List.mem_singleton.mp new, here.1]
              exact .inr (appending.newest
                ⟨_, found, List.mem_cons_self⟩ rfl)
          · exact .inl linked
      | stop => exact keeps (.refl s) rfl rfl
      | @overflow me start position header matched search deposited =>
          by_cases here : pt = (s.mes me).pt
          · subst here
            refine ordered.overflow wellScoped scanned appending grows used ?_
              ?_ ?_ rfl ⟨_, found, List.mem_cons_self⟩ search
            · change (arrivals _ (s.log ++ _)).Nodup at nodup
              rw [arrivals_append] at nodup
              exact (List.nodup_append.mp nodup).1
            · simp [State.emit, State.modPt, State.modMe]
            · simp [State.emit, State.modPt, State.modMe]
          · have differs : (s.mes me).pt ≠ pt := Ne.symm here
            refine ordered.keep wellScoped grows used ?_ ?_ ?_ ?_
            · change arrivals pt (s.log ++ _) = _
              rw [arrivals_append]
              simp [arrivals, Obs.arrival]
            · change pairings pt (s.log ++ _) = _
              rw [pairings_append]
              simp [pairings, Obs.pairing, differs]
            · simp [State.emit, State.modPt, State.modMe,
                Function.update_of_ne here]
            · simp only [State.emit, State.modPt, State.modMe,
                Function.update_of_ne here]
              exact fun _ linked => .inl linked
      | consumed => exact keeps (.refl s) rfl rfl
  | start found nothing shrinks => exact keeps shrinks rfl rfl
  | call found owned pairs =>
      cases pairs with
      | shrink nothing shrinks => exact keeps shrinks rfl rfl
      | ptAlloc pts mes nextMe log reqs =>
          refine ordered.keep wellScoped grows used
            (congrArg (arrivals pt) log) (congrArg (pairings pt) log) ?_ ?_
          · simp only [pts, Function.update_apply]
            split
            · exact List.nil_sublist _
            · exact .refl _
          · simp only [pts, Function.update_apply]
            split
            · exact fun _ linked => absurd linked List.not_mem_nil
            · exact fun _ linked => .inl linked
      | ptFree taken pts same nextMe log reqs =>
          refine ordered.keep wellScoped grows used
            (congrArg (arrivals pt) log) (congrArg (pairings pt) log) ?_ ?_
          · simp only [pts, Function.update_apply]
            split
            · exact List.nil_sublist _
            · exact .refl _
          · simp only [pts, Function.update_apply]
            split
            · exact fun _ linked => absurd linked List.not_mem_nil
            · exact fun _ linked => .inl linked
      | appendPriority taken =>
          exact ordered.keep wellScoped grows used rfl rfl (.refl _)
            fun _ linked => .inl linked
      | @appendOverflow ni slot table me userPtr taken =>
          refine ordered.keep wellScoped grows used rfl rfl ?_ ?_
          · change ((appendInsert _ s.nextMe).pts pt).unexpectedHeaders.Sublist
              _
            rw [appendInsert_headers]
            exact .refl _
          intro entry linked
          change entry ∈ ((appendInsert (newMe s table me .overflow userPtr)
            s.nextMe).pts pt).listOf .priority at linked
          rw [appendInsert_listOf] at linked
          exact .inl (by simpa [newMe, BxiPT.listOf] using linked)

end Ordered

theorem ordered_initial (sys : Sys) (pt : PtId) :
    Ordered sys (initial sys) pt := by
  constructor <;> simp [initial, arrivals, pairings]

theorem ReachedBy.ordered {allowed : State → Label → Prop}
    (reached : ReachedBy sys allowed s) : ∀ pt, Ordered sys s pt := by
  let Along (state : State) : Prop := ∀ pt, Ordered sys state pt
  have along : Along s := by
    refine reached.invariant_of_reached (ordered_initial sys) ?_
    intro before after label earlier holds permitted stepped pt
    have later : ReachedBy sys allowed after := .tail earlier permitted stepped
    exact (holds pt).pairing (ReachedBy.wellScoped earlier)
      (ReachedBy.scanned earlier) (ReachedBy.appending earlier)
      (step_advances stepped).extends
      (arrivals_nodup ((ReachedBy.solvent later).achieved_le_one
        (ReachedBy.wellScoped later) .consumed) pt)
      ((step_advances stepped).pairing (ReachedBy.wellScoped earlier).ops)
  exact along

end Steps

/-- Requests with the same match bits are paired with priority entries in the
order in which they were handled: the first one with the entry appended first.
Entries are numbered in the order of the appends. -/
theorem matching_does_not_overtake {sys : Sys} {s : State}
    (reachable : Reachable sys s) (pt : PtId) {first second : ReqId}
    {me me' : MeId}
    (handled : Precedes (arrivals pt s.log) first second)
    (bits : (s.reqs first).matchBits = (s.reqs second).matchBits)
    (paired : (first, me) ∈ pairings pt s.log)
    (paired' : (second, me') ∈ pairings pt s.log) : me ≤ me' :=
  (ReachedBy.ordered reachable pt).ordered first second me me' handled bits
    paired paired'

/-- A request which waited in the unexpected headers, and a later one. -/
theorem unexpected_put_not_overtaken :
    ∃ s, Reachable (twoNodes {} { e2eOff := false }) s ∧
      arrivals 0 s.log = [0, 1] ∧ pairings 0 s.log = [(0, 1), (1, 2)] ∧
      (1 : MeId) ≤ 2 := by
  obtain ⟨s, reachable, holds⟩ := reachable_of_executes
    (twoNodes {} { e2eOff := false })
    (unexpectedPut ++
      appends { start := 1000, length := 100, matchBits := 1
                options := MeOption.useOnce } .priority :: runs 6 5 ++
      appends { start := 1000, length := 100, matchBits := 1 } .priority ::
        runs 6 3 ++
      puts .noAckReq 1 :: runs 0 3 ++ .take 1 :: runs 1 10 ++
      .recv 9 0 :: runs 9 10)
    (fun s => arrivals 0 s.log == [0, 1] &&
      pairings 0 s.log == [(0, 1), (1, 2)] &&
      (s.reqs 0).matchBits == (s.reqs 1).matchBits)
    (by decide +kernel)
  simp only [Bool.and_eq_true, beq_iff_eq] at holds
  obtain ⟨⟨arrived, paired⟩, bits⟩ := holds
  have handled : Precedes (arrivals 0 s.log) 0 1 := by
    rw [arrived]
    exact .refl _
  exact ⟨s, reachable, arrived, paired, matching_does_not_overtake reachable 0
    handled bits (by rw [paired]; simp) (by rw [paired]; simp)⟩

end S4BXI
