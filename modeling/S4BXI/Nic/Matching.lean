import S4BXI.Nic.Node

/-!
# Match lists, unexpected headers and entry lifetime

`BxiPT::walk_through_lists` and `walk_through_UHs`, `BxiME::append`, `unlink`
and `maybe_auto_unlink`, and `BxiNicTarget::match_entry`.
-/

namespace S4BXI

namespace BxiPT

/-- `BxiME::get_list`. -/
def listOf (pt : BxiPT) : PtlList → List MeId
  | .priority => pt.priorityList
  | .overflow => pt.overflowList

def setList (pt : BxiPT) (list : PtlList) (entries : List MeId) : BxiPT :=
  match list with
  | .priority => { pt with priorityList := entries }
  | .overflow => { pt with overflowList := entries }

/-- The search of `BxiPT::walk_through_lists`: the first matching entry of the
priority list, else of the overflow list. -/
def findEntry (pt : BxiPT) (mes : MeId → BxiME) (req : BxiRequest) :
    Option (PtlList × MeId) :=
  if !pt.enabled then
    none
  else
    match pt.priorityList.find? fun me => (mes me).matchesRequest req with
    | some me => some (.priority, me)
    | none =>
        (pt.overflowList.find? fun me => (mes me).matchesRequest req).map
          fun me => (.overflow, me)

/-- The search of `BxiPT::walk_through_UHs` from `index`: the first header
whose request matches. -/
def findHeader (pt : BxiPT) (requestOf : MsgId → BxiRequest) (me : BxiME)
    (index : Nat) : Option (Nat × MsgId) :=
  ((pt.unexpectedHeaders.zipIdx).drop index).findSome? fun (header, position) =>
    if me.matchesRequest (requestOf header) then
      some (position, header)
    else
      none

end BxiPT

/-- The effect of `BxiPT::walk_through_lists` once it has found an entry. -/
def takeEntry (s : State) (msg : MsgId) (pt : PtId) (list : PtlList)
    (me : MeId) : State :=
  let s := s.modMe me fun m => { m with used := true }
  let s := match list with
    | .priority => s
    | .overflow =>
        (s.ref msg).modPt pt fun p =>
          { p with unexpectedHeaders := p.unexpectedHeaders ++ [msg] }
  s.emit (.consumed (s.reqOf msg) msg pt list me)

/-- `BxiNicTarget::match_entry` over the remaining interfaces of the node. -/
def matchEntryIn (sys : Sys) (s : State) (req : BxiRequest) :
    List NiId → Option (PtId × PtlList × MeId) × NiFailType
  | [] => (none, .targetInvalid)
  | ni :: rest =>
      if !(sys.ni ni).canMatchRequest req then
        matchEntryIn sys s req rest
      else
        match s.ptIndexes ni req.ptIndex with
        | none => (none, .targetInvalid)
        | some pt =>
            if !(s.pts pt).enabled then
              (none, .ptDisabled)
            else
              match (s.pts pt).findEntry s.mes req with
              | some (list, me) => (some (pt, list, me), .ok)
              | none => matchEntryIn sys s req rest

/-- `BxiNicTarget::match_entry`. -/
def matchEntry (sys : Sys) (s : State) (nid : Nid) (msg : MsgId) :
    Option (PtId × PtlList × MeId) × NiFailType :=
  matchEntryIn sys s (s.reqs (s.reqOf msg)) (s.nodes nid).niHandles

/-- The destruction of an entry. -/
def destroyMe (s : State) (me : MeId) : State :=
  s.modMe me fun m => { m with live := false }

/-- `BxiME::unlink`. -/
def unlink (s : State) (me : MeId) : State :=
  let entry := s.mes me
  if entry.inUse then
    s.modMe me fun m => { m with needsUnlink := true }
  else
    let list := (s.pts entry.pt).listOf entry.list
    if me ∈ list then
      destroyMe
        (s.modPt entry.pt fun p => p.setList entry.list (list.erase me)) me
    else
      s.halt (.notLinked me)

/-- The `AUTO_UNLINK` event. -/
def autoUnlinkEvent (s : State) (me : BxiME) : Event :=
  { type := .autoUnlink
    niFailType := .ok
    ptIndex := some (s.pts me.pt).index
    userPtr := some me.userPtr }

/-- `BxiME::maybe_auto_unlink`, with the event it still has to issue. -/
def maybeAutoUnlink (s : State) (me : MeId) : Bool × Segment :=
  let entry := s.mes me
  if !entry.shouldAutoUnlink then
    (false, s, [])
  else
    (true, unlink s me,
      if !entry.hasOption MeOption.eventUnlinkDisable &&
          !entry.hasOption MeOption.eventSuccessDisable then
        issueEvent (s.pts entry.pt).eq (autoUnlinkEvent s entry) (.entry me)
      else
        [])

/-- The test of `needs_unlink` which ends the target handlers. -/
def deferredUnlink (s : State) (me : MeId) : State :=
  if (s.mes me).needsUnlink then unlink s me else s

/-- The event kind of an overflow event. -/
def ReqType.overflowKind : ReqType → EventKind
  | .fetchAtomic => .fetchAtomicOverflow
  | .atomic => .atomicOverflow
  | .put => .putOverflow
  | .get => .getOverflow

/-- The `*_OVERFLOW` event of a header, built from the copy of the entry in
which it was deposited. -/
def overflowEvent (sys : Sys) (s : State) (req : BxiRequest)
    (matched : BxiME) : Event :=
  { type := req.type.overflowKind
    initiator := some (sys.mdNid req.md, sys.mdPid req.md)
    niFailType := .ok
    ptIndex := some (s.pts matched.pt).index
    userPtr := some matched.userPtr
    rlength := some req.payloadSize
    mlength := some req.mlength
    matchBits := some req.matchBits
    start := some req.start
    hdrData := if req.type ≠ .get then some req.hdr else none }

/-- The `LINK` event. -/
def linkEvent (s : State) (me : BxiME) : Event :=
  { type := .link
    niFailType := .ok
    userPtr := some me.userPtr
    ptIndex := some (s.pts me.pt).index }

/-- The end of `BxiME::append`: the entry enters its list. -/
def appendInsert (s : State) (me : MeId) : State :=
  s.modPt (s.mes me).pt fun p =>
    p.setList (s.mes me).list (p.listOf (s.mes me).list ++ [me])

/-- The event which ends `BxiME::append`, unless disabled. -/
def issueLink (s : State) (me : MeId) : List Op :=
  let entry := s.mes me
  if !entry.hasOption MeOption.eventLinkDisable then
    issueEvent (s.pts entry.pt).eq (linkEvent s entry) (.entry me)
  else
    []

/-- `BxiPT::walk_through_UHs` from `index`, followed by the end of
`BxiME::append`.  The source resumes its scan at the index of the header it
erased. -/
def walkThroughUHs (sys : Sys) (s : State) (me : MeId) (index : Nat) :
    Segment :=
  let entry := s.mes me
  let pt := s.pts entry.pt
  match pt.findHeader (fun header => s.reqs (s.reqOf header)) entry index with
  | none => (appendInsert s me, issueLink s me)
  | some (position, header) =>
      let req := s.reqOf header
      match (s.reqs req).matchedMe with
      | none => (s.halt (.noMatchedMe req), [])
      | some matched =>
          let event := overflowEvent sys s (s.reqs req) matched
          let s := s.modMe me fun m => { m with used := true }
          let s := s.modPt entry.pt fun p =>
            { p with
              unexpectedHeaders := p.unexpectedHeaders.eraseIdx position }
          (s.emit (.overflow req header entry.pt me),
            .unref header :: issueEvent pt.eq event (.header header me) ++
              [if entry.hasOption MeOption.useOnce then .appendConsumed me
                else .walkThroughUHs me position])

/-- The constructor of `BxiME`. -/
def newMe (s : State) (pt : PtId) (me : PtlMe) (list : PtlList)
    (userPtr : Nat) : State :=
  { s with
    mes := Function.update s.mes s.nextMe
      { pt := pt, me := me, list := list, userPtr := userPtr }
    nextMe := s.nextMe + 1 }

/-- `BxiME::append`: only a priority entry looks at the unexpected headers. -/
def append (s : State) (pt : PtId) (me : PtlMe) (list : PtlList)
    (userPtr : Nat) : Segment :=
  let created := newMe s pt me list userPtr
  if list = .priority then
    (created, [.walkThroughUHs s.nextMe 0])
  else
    (appendInsert created s.nextMe, issueLink created s.nextMe)

/-- `PtlMEUnlink`: an overflow entry with a matching header stays in use. -/
def ptlMEUnlink (s : State) (me : MeId) : State :=
  let entry := s.mes me
  if entry.list = .overflow &&
      (s.pts entry.pt).unexpectedHeaders.any fun header =>
        entry.matchesRequest (s.reqs (s.reqOf header)) then
    s
  else
    unlink s me

/-- `BxiPT::free`: entries and headers are deleted whoever still uses them. -/
def ptFree (s : State) (ni : NiId) (index : Nat) (pt : PtId) : State :=
  let table := s.pts pt
  let s := table.priorityList.foldl destroyMe s
  let s := table.overflowList.foldl destroyMe s
  let s := table.unexpectedHeaders.foldl State.deleteMsg s
  let s := s.modPt pt fun p =>
    { p with priorityList := [], overflowList := [], unexpectedHeaders := [] }
  { s with
    ptIndexes := Function.update s.ptIndexes ni
      (Function.update (s.ptIndexes ni) index none) }

end S4BXI
