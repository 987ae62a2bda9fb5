import Mathlib.Data.BitVec

/-!
# Portals constants

The flags and enumerations of `portals4.h` and the protocol enumerations of
`s4ptl.hpp` which the modelled functions read.  Flags keep the values of the
header, so that two flags collide in the model exactly when they collide in
the program.
-/

namespace S4BXI

abbrev Nid := Nat
abbrev Pid := Nat
abbrev Addr := Nat
abbrev Size := Nat
abbrev MatchBits := BitVec 64
abbrev Options := BitVec 32

/-- `PTL_PID_ANY`. -/
def pidAny : Pid := 0

/-- `HAS_PTL_OPTION`: at least one bit of `flag` is set. -/
def hasPtlOption (options flag : Options) : Bool :=
  options &&& flag != 0

/-- Addition of `ptl_size_t` values and of offsets to pointers. -/
def add64 (left right : Nat) : Nat :=
  (left + right) % 2 ^ 64

/-- Subtraction of `ptl_size_t` values. -/
def sub64 (left right : Nat) : Nat :=
  (left + 2 ^ 64 - right % 2 ^ 64) % 2 ^ 64

namespace NiOption

def matching : Options := 0x2

end NiOption

namespace MeOption

def eventCommDisable : Options := 0x1
def eventSuccessDisable : Options := 0x2
def eventLinkDisable : Options := 0x8
def eventCtBytes : Options := 0x10
def eventCtComm : Options := 0x40
def useOnce : Options := 0x400
def ackDisable : Options := 0x800
def eventUnlinkDisable : Options := 0x2000
def manageLocal : Options := 0x4000

end MeOption

namespace MdOption

def eventSuccessDisable : Options := 0x1
def eventCtSend : Options := 0x2
def eventCtReply : Options := 0x4
def eventCtAck : Options := 0x8
def eventCtBytes : Options := 0x10
def eventSendDisable : Options := 0x40

end MdOption

/-- `ptl_event_kind`. -/
inductive EventKind where
  | get | getOverflow | put | putOverflow | atomic | atomicOverflow
  | fetchAtomic | fetchAtomicOverflow | reply | send | ack | ptDisabled
  | autoUnlink | autoFree | search | link
  deriving DecidableEq, Repr

/-- The `PTL_*_ACK_REQ` modes. -/
inductive AckReq where
  | noAckReq | ctAckReq | ocAckReq | ackReq
  deriving DecidableEq, Repr

/-- The `ni_fail_type` values `match_entry` can return. -/
inductive NiFailType where
  | ok | ptDisabled | targetInvalid
  deriving DecidableEq, Repr

/-- `PTL_PRIORITY_LIST` and `PTL_OVERFLOW_LIST`. -/
inductive PtlList where
  | priority | overflow
  deriving DecidableEq, Repr

/-- `ptl_op`. -/
inductive PtlOp where
  | min | max | sum | prod | lor | land | lxor | bor | band | bxor | swap
  | cswapGt | cswapLt | cswapGe | cswapLe | cswap | cswapNe | mswap
  deriving DecidableEq, Repr

/-- `ptl_datatype`. -/
inductive PtlDatatype where
  | int8 | uint8 | int16 | uint16 | int32 | uint32 | int64 | uint64
  | float | floatComplex | double | doubleComplex | longDouble
  | longDoubleComplex
  deriving DecidableEq, Repr

/-- `bxi_msg_type`. -/
inductive MsgType where
  | e2eAck | ptlAck | ptlGetResponse | ptlPut | ptlGet | ptlAtomic
  | ptlFetchAtomic | ptlFetchAtomicResponse
  deriving DecidableEq, Repr

/-- The test shared by `BxiMsg::get_vn` and `send_ack`: the four message
types that open a request. -/
def MsgType.isRequest : MsgType → Bool
  | .ptlPut | .ptlGet | .ptlAtomic | .ptlFetchAtomic => true
  | .e2eAck | .ptlAck | .ptlGetResponse | .ptlFetchAtomicResponse => false

/-- `bxi_req_type`. -/
inductive ReqType where
  | fetchAtomic | atomic | put | get
  deriving DecidableEq, Repr

/-- The type of the message `PtlPut`, `PtlGet`, `PtlAtomic` and
`PtlFetchAtomic` build for their request. -/
def ReqType.msgType : ReqType → MsgType
  | .fetchAtomic => .ptlFetchAtomic
  | .atomic => .ptlAtomic
  | .put => .ptlPut
  | .get => .ptlGet

/-- `bxi_req_process_state`. -/
inductive ProcessState where
  | created | received | answered | finished
  deriving DecidableEq, Repr

/-- The enumerator values, which the handlers compare. -/
def ProcessState.rank : ProcessState → Nat
  | .created => 0
  | .received => 1
  | .answered => 2
  | .finished => 3

instance : LE ProcessState := ⟨fun left right => left.rank ≤ right.rank⟩
instance : LT ProcessState := ⟨fun left right => left.rank < right.rank⟩

instance (left right : ProcessState) : Decidable (left ≤ right) :=
  inferInstanceAs (Decidable (left.rank ≤ right.rank))

instance (left right : ProcessState) : Decidable (left < right) :=
  inferInstanceAs (Decidable (left.rank < right.rank))

theorem ProcessState.le_iff (left right : ProcessState) :
    left ≤ right ↔ left.rank ≤ right.rank := Iff.rfl

theorem ProcessState.lt_iff (left right : ProcessState) :
    left < right ↔ left.rank < right.rank := Iff.rfl

theorem ProcessState.rank_le_three (state : ProcessState) :
    state.rank ≤ 3 := by
  cases state <;> decide

/-- `bxi_vn`. -/
inductive Vn where
  | serviceRequest | computeRequest | serviceResponse | computeResponse
  deriving DecidableEq, Repr

/-- `S4BXI_VN_SERVICE_REQUEST` or its compute version. -/
def Vn.request (service : Bool) : Vn :=
  if service then .serviceRequest else .computeRequest

/-- `S4BXI_VN_SERVICE_RESPONSE` or its compute version. -/
def Vn.response (service : Bool) : Vn :=
  if service then .serviceResponse else .computeResponse

/-- The service networks, as tested by `BxiNicTarget::operator()`. -/
def Vn.isService : Vn → Bool
  | .serviceRequest | .serviceResponse => true
  | .computeRequest | .computeResponse => false

/-- The request networks, as tested by `check_flowctrl` and
`handle_bxi_ack`. -/
def Vn.isRequest : Vn → Bool
  | .serviceRequest | .computeRequest => true
  | .serviceResponse | .computeResponse => false

@[simp] theorem Vn.isService_request (service : Bool) :
    (Vn.request service).isService = service := by
  cases service <;> rfl

@[simp] theorem Vn.isService_response (service : Bool) :
    (Vn.response service).isService = service := by
  cases service <;> rfl

@[simp] theorem Vn.isRequest_request (service : Bool) :
    (Vn.request service).isRequest = true := by
  cases service <;> rfl

@[simp] theorem Vn.isRequest_response (service : Bool) :
    (Vn.response service).isRequest = false := by
  cases service <;> rfl

/-- `MAX_E2E_ENTRIES`. -/
def maxE2eEntries : Int := 8192

/-- `CQ_INITIAL_CAPACITY`. -/
def cqInitialCapacity : Int := 16

/-- `ACK_SIZE`. -/
def ackSize : Size := 32

end S4BXI
