import Mathlib.Logic.Function.Basic
import S4BXI.Portals.Constants

/-!
# The objects behind the Portals handles

The records of `s4ptl.hpp`.  A pointer of the program is an identifier here:
`BxiRequest`, `BxiMsg`, `BxiME` and `BxiPT` values live in tables of the
simulation state, and their `live` field says that they have been allocated
and not destroyed yet.  The remaining records are values which the program
copies.
-/

namespace S4BXI

abbrev ReqId := Nat
abbrev MsgId := Nat
abbrev MeId := Nat
abbrev PtId := Nat
abbrev NiId := Nat
abbrev EqId := Nat
abbrev CtId := Nat
abbrev ThreadId := Nat

/-- The number in the name of a mailbox. -/
abbrev MailboxId := Nat

/-- `ptl_event_t`.  The program allocates events without initialising them, so
a field which it does not assign is `none`. -/
structure Event where
  type : EventKind
  niFailType : NiFailType
  initiator : Option (Nid × Pid) := none
  ptIndex : Option Nat := none
  userPtr : Option Nat := none
  hdrData : Option Nat := none
  rlength : Option Size := none
  mlength : Option Size := none
  remoteOffset : Option Size := none
  matchBits : Option MatchBits := none
  start : Option Addr := none
  deriving DecidableEq

/-- `ptl_me_t`, for both list and matching entries. -/
structure PtlMe where
  start : Addr := 0
  length : Size := 0
  ctHandle : Option CtId := none
  options : Options := 0
  matchBits : MatchBits := 0
  ignoreBits : MatchBits := 0
  minFree : Size := 0
  deriving DecidableEq

/-- `BxiME`. -/
structure BxiME where
  live : Bool := true
  used : Bool := false
  pt : PtId := 0
  me : PtlMe := {}
  userPtr : Nat := 0
  manageLocalOffset : Size := 0
  list : PtlList := .priority
  needsUnlink : Bool := false
  inUse : Bool := false
  deriving DecidableEq

/-- `BxiMD`: the interface it was bound on and its `ptl_md_t`. -/
structure BxiMD where
  ni : NiId := 0
  start : Addr := 0
  length : Size := 0
  options : Options := 0
  eqHandle : Option EqId := none
  ctHandle : Option CtId := none
  deriving DecidableEq

/-- `BxiRequest` with the fields of its subclasses.  `targetNid` is the node
given to the API call, which the program keeps in the messages only. -/
structure BxiRequest where
  live : Bool := true
  type : ReqType := .put
  payloadSize : Size := 0
  md : BxiMD := {}
  matching : Bool := true
  matchBits : MatchBits := 0
  targetNid : Nid := 0
  targetPid : Pid := 0
  ptIndex : Nat := 0
  userPtr : Nat := 0
  serviceVn : Bool := false
  localOffset : Size := 0
  remoteOffset : Size := 0
  ackReq : AckReq := .noAckReq
  hdr : Nat := 0
  op : PtlOp := .sum
  datatype : PtlDatatype := .int8
  getMd : BxiMD := {}
  getLocalOffset : Size := 0
  processState : ProcessState := .created
  msgRefCount : Nat := 0
  mlength : Size := 0
  targetRemoteOffset : Size := 0
  start : Addr := 0
  matchedMe : Option BxiME := none
  sendEventIssued : Bool := false
  getEventIssued : Bool := false
  fetchAtomicEventIssued : Bool := false
  deriving DecidableEq

/-- `BxiMsg`. -/
structure BxiMsg where
  live : Bool := true
  initiator : Nid := 0
  target : Nid := 0
  type : MsgType := .ptlPut
  simulatedSize : Size := 0
  retryCount : Int := 0
  parentRequest : ReqId := 0
  refCount : Nat := 0
  niFailType : NiFailType := .ok
  answersMsg : Option MsgId := none
  deriving DecidableEq

/-- `BxiPT`. -/
structure BxiPT where
  priorityList : List MeId := []
  overflowList : List MeId := []
  unexpectedHeaders : List MsgId := []
  eq : Option EqId := none
  ni : NiId := 0
  index : Nat := 0
  enabled : Bool := true
  deriving DecidableEq

/-- `BxiNI`: the part of an interface fixed by `PtlNIInit`.  `process` is the
simulated process which made that call and which alone holds the handle. -/
structure BxiNI where
  node : Nid := 0
  options : Options := 0
  pid : Pid := 0
  process : ThreadId := 0
  deriving DecidableEq

/-- `BxiNI::can_match_request`. -/
def BxiNI.canMatchRequest (ni : BxiNI) (req : BxiRequest) : Bool :=
  (ni.pid == req.targetPid || req.targetPid == pidAny) &&
    hasPtlOption ni.options NiOption.matching == req.matching

/-- `flowctrl_process_id`. -/
structure FlowctrlProcessId where
  srcPid : Pid
  dstPid : Pid
  dstNid : Nid
  deriving DecidableEq

/-- `BxiNode`: the state shared by the actors of one node.  `txQueues` holds
the contents of the `BxiQueue`s the NIC initiators read; `nicTxMailbox` is the
SimGrid mailbox of the same name when no queue is built on it. -/
structure BxiNode where
  niHandles : List NiId := []
  e2eEntries : Int := maxE2eEntries
  e2eQueue : List MsgId := []
  txQueues : Vn → List MsgId := fun _ => []
  nicTxMailbox : Vn → List MsgId := fun _ => []
  flowctrlNodeCounts : Vn → Nid → Option Int := fun _ _ => none
  flowctrlProcessCounts : Vn → FlowctrlProcessId → Option Int :=
    fun _ _ => none
  flowctrlWaitingMessages : Vn → List MsgId := fun _ => []
  e2eRetried : Nat := 0
  e2eGaveUp : Nat := 0

/-- The options of `s4bxi_config` which the modelled functions read. -/
structure Config where
  maxRetries : Int := 5
  useRealMemory : Bool := true
  modelPci : Bool := true
  modelPciCommands : Bool := true
  e2eOff : Bool := false
  maxMemcpy : Int := -1
  quickAcks : Bool := false
  maxInflightToTarget : Int := 0
  maxInflightToProcess : Int := 0

/-- The parameters of a `BxiNode`, set when its actors are created. -/
structure NodeParams where
  useRealMemory : Bool := true
  modelPci : Bool := true
  modelPciCommands : Bool := true
  e2eOff : Bool := true

end S4BXI
