import S4BXI.Nic.Matching

/-!
# The searches of a portal table entry

`walk_through_lists` returns the first entry which matches, the priority list
coming first; `walk_through_UHs` finds the first header which matches from its
index on.
-/

namespace S4BXI

/-- What `match_entry` returns: the first matching entry of an enabled portal
table entry of the node. -/
structure Matched (sys : Sys) (s : State) (nid : Nid) (msg : MsgId)
    (pt : PtId) (list : PtlList) (me : MeId) : Prop where
  interface : ∃ ni ∈ (s.nodes nid).niHandles,
    (sys.ni ni).canMatchRequest (s.reqs (s.reqOf msg)) = true ∧
    s.ptIndexes ni (s.reqs (s.reqOf msg)).ptIndex = some pt
  enabled : (s.pts pt).enabled = true
  found : (s.pts pt).findEntry s.mes (s.reqs (s.reqOf msg)) = some (list, me)

theorem matchEntryIn_some {sys : Sys} {s : State} {req : BxiRequest}
    {interfaces : List NiId} {pt : PtId} {list : PtlList} {me : MeId}
    {fail : NiFailType}
    (found : matchEntryIn sys s req interfaces = (some (pt, list, me), fail)) :
    (∃ ni ∈ interfaces, (sys.ni ni).canMatchRequest req = true ∧
        s.ptIndexes ni req.ptIndex = some pt) ∧
      (s.pts pt).enabled = true ∧
      (s.pts pt).findEntry s.mes req = some (list, me) := by
  induction interfaces with
  | nil => cases found
  | cons ni interfaces induction =>
      unfold matchEntryIn at found
      split at found
      · obtain ⟨⟨other, member, facts⟩, rest⟩ := induction found
        exact ⟨⟨other, List.mem_cons_of_mem _ member, facts⟩, rest⟩
      · rename_i matching
        split at found
        · cases found
        · rename_i table allocated
          split at found
          · cases found
          · rename_i enabled
            split at found
            · rename_i list' me' entry
              cases found
              refine ⟨⟨ni, List.mem_cons_self, ?_, allocated⟩, ?_, entry⟩
              · simpa using matching
              · simpa using enabled
            · obtain ⟨⟨other, member, facts⟩, rest⟩ := induction found
              exact ⟨⟨other, List.mem_cons_of_mem _ member, facts⟩, rest⟩

theorem matched_of_matchEntry {sys : Sys} {s : State} {nid : Nid}
    {msg : MsgId} {pt : PtId} {list : PtlList} {me : MeId} {fail : NiFailType}
    (found : matchEntry sys s nid msg = (some (pt, list, me), fail)) :
    Matched sys s nid msg pt list me := by
  obtain ⟨interface, enabled, entry⟩ := matchEntryIn_some found
  exact ⟨interface, enabled, entry⟩

namespace BxiPT

variable {pt : BxiPT} {mes : MeId → BxiME} {req : BxiRequest} {me : MeId}

/-- A priority entry is returned when it is the first one which matches. -/
theorem findEntry_priority
    (found : pt.findEntry mes req = some (.priority, me)) :
    pt.priorityList.find? (fun me => (mes me).matchesRequest req) =
      some me := by
  unfold findEntry at found
  split at found
  · cases found
  · split at found
    · rename_i first entry
      cases found
      exact entry
    · simp at found

/-- An overflow entry is returned when no priority entry matches. -/
theorem findEntry_overflow
    (found : pt.findEntry mes req = some (.overflow, me)) :
    (∀ other ∈ pt.priorityList, (mes other).matchesRequest req = false) ∧
      pt.overflowList.find? (fun me => (mes me).matchesRequest req) =
        some me := by
  unfold findEntry at found
  split at found
  · cases found
  · split at found
    · cases found
    · rename_i absent
      refine ⟨by simpa using absent, ?_⟩
      obtain ⟨first, entry, equality⟩ := Option.map_eq_some_iff.mp found
      cases equality
      exact entry

theorem findEntry_mem {list : PtlList}
    (found : pt.findEntry mes req = some (list, me)) :
    me ∈ pt.listOf list ∧ (mes me).matchesRequest req = true := by
  cases list with
  | priority =>
      have first := findEntry_priority found
      exact ⟨List.mem_of_find?_eq_some first,
        by simpa using List.find?_some first⟩
  | overflow =>
      have first := (findEntry_overflow found).2
      exact ⟨List.mem_of_find?_eq_some first,
        by simpa using List.find?_some first⟩

variable {requestOf : MsgId → BxiRequest} {entry : BxiME}
  {index position : Nat} {header : MsgId}

/-- The elements of the list which `findHeader` searches. -/
theorem zipIdx_drop_getElem? (headers : List MsgId) (index offset : Nat) :
    (headers.zipIdx.drop index)[offset]? =
      headers[index + offset]?.map fun header => (header, index + offset) := by
  simp [List.getElem?_drop, List.getElem?_zipIdx]

/-- The header which is found, and those which were passed. -/
theorem findHeader_some
    (found : pt.findHeader requestOf entry index = some (position, header)) :
    index ≤ position ∧ pt.unexpectedHeaders[position]? = some header ∧
      entry.matchesRequest (requestOf header) = true ∧
      ∀ earlier other, index ≤ earlier → earlier < position →
        pt.unexpectedHeaders[earlier]? = some other →
        entry.matchesRequest (requestOf other) = false := by
  obtain ⟨passed, ⟨other, offset⟩, rest, split, matched, missed⟩ :=
    List.findSome?_eq_some_iff.mp found
  have here := zipIdx_drop_getElem? pt.unexpectedHeaders index passed.length
  rw [split] at here
  simp only [List.getElem?_append_right (le_refl _), Nat.sub_self,
    List.getElem?_cons_zero] at here
  obtain ⟨first, present, equality⟩ := Option.map_eq_some_iff.mp here.symm
  cases equality
  simp only [Option.ite_none_right_eq_some, Option.some.injEq,
    Prod.mk.injEq] at matched
  obtain ⟨matching, rfl, rfl⟩ := matched
  refine ⟨Nat.le_add_right _ _, present, matching, ?_⟩
  intro earlier other after before existing
  obtain ⟨gap, rfl⟩ := Nat.exists_eq_add_of_le after
  have member := zipIdx_drop_getElem? pt.unexpectedHeaders index gap
  rw [split, List.getElem?_append_left (by omega), existing] at member
  have none := missed _ (List.mem_of_getElem? member)
  simpa using none

theorem findHeader_none
    (absent : pt.findHeader requestOf entry index = none)
    {later : Nat} {other : MsgId} (after : index ≤ later)
    (present : pt.unexpectedHeaders[later]? = some other) :
    entry.matchesRequest (requestOf other) = false := by
  obtain ⟨gap, rfl⟩ := Nat.exists_eq_add_of_le after
  have member := zipIdx_drop_getElem? pt.unexpectedHeaders index gap
  rw [present] at member
  have none := List.findSome?_eq_none_iff.mp absent _
    (List.mem_of_getElem? member)
  simpa using none

end BxiPT

end S4BXI
