import S4BXI.Portals.Objects

/-!
# Operations on a single entry, request or message

The member functions of `BxiME`, `BxiMsg` and `BxiMD` which read and write
one object only.
-/

namespace S4BXI

namespace BxiME

/-- `BxiME::BxiME(const BxiME&)`. -/
def copy (me : BxiME) : BxiME :=
  { me with used := false, inUse := false, needsUnlink := false }

def hasOption (me : BxiME) (flag : Options) : Bool :=
  hasPtlOption me.me.options flag

/-- `BxiME::matches_request`. -/
def matchesRequest (me : BxiME) (req : BxiRequest) : Bool :=
  if me.hasOption MeOption.useOnce && me.used then
    false
  else if !req.matching then
    true
  else
    (req.matchBits ^^^ me.me.matchBits) &&& ~~~me.me.ignoreBits == 0

/-- `BxiME::get_mlength`. -/
def getMlength (me : BxiME) (req : BxiRequest) : Size :=
  let remainingSize := sub64 me.me.length me.manageLocalOffset
  if remainingSize < req.payloadSize then remainingSize else req.payloadSize

/-- The address returned by `BxiME::get_offsetted_addr`. -/
def getOffsettedAddr (me : BxiME) (req : BxiRequest) : Addr :=
  if !me.hasOption MeOption.manageLocal then
    add64 me.me.start req.remoteOffset
  else
    add64 me.me.start me.manageLocalOffset

/-- The `target_remote_offset` assigned by `BxiME::get_offsetted_addr`. -/
def offsetInTarget (me : BxiME) (req : BxiRequest) : Size :=
  if !me.hasOption MeOption.manageLocal then
    req.remoteOffset
  else
    me.manageLocalOffset

/-- The update of `manage_local_offset` by `BxiME::get_offsetted_addr` when it
is asked for one. -/
def advanceOffset (me : BxiME) (req : BxiRequest) : BxiME :=
  if !me.hasOption MeOption.manageLocal then
    me
  else
    let offset := add64 me.manageLocalOffset req.payloadSize
    { me with
      manageLocalOffset :=
        if offset ≤ me.me.length then offset else me.me.length }

/-- The test of `BxiME::maybe_auto_unlink`. -/
def shouldAutoUnlink (me : BxiME) : Bool :=
  me.hasOption MeOption.useOnce ||
    (me.hasOption MeOption.manageLocal &&
      decide (me.me.length < add64 me.manageLocalOffset me.me.minFree))

/-- The amount `BxiME::increment_ct` adds to the counter. -/
def ctAmount (me : BxiME) (byteCount : Size) : Size :=
  if me.hasOption MeOption.eventCtBytes then byteCount else 1

/-- Whether the target handlers update a counter for this entry. -/
def countsComm (me : BxiME) : Option CtId :=
  if me.hasOption MeOption.eventCtComm then me.me.ctHandle else none

/-- The condition under which the target handlers report a communication:
events are enabled and the entry is on the priority list, an overflow entry
being reported later by `walk_through_UHs`. -/
def reportsComm (me : BxiME) : Bool :=
  !me.hasOption MeOption.eventCommDisable &&
    !me.hasOption MeOption.eventSuccessDisable &&
    me.list == .priority

@[simp] theorem copy_me (me : BxiME) : me.copy.me = me.me := rfl

@[simp] theorem copy_pt (me : BxiME) : me.copy.pt = me.pt := rfl

@[simp] theorem copy_list (me : BxiME) : me.copy.list = me.list := rfl

@[simp] theorem copy_userPtr (me : BxiME) :
    me.copy.userPtr = me.userPtr := rfl

@[simp] theorem advanceOffset_live (me : BxiME) (req : BxiRequest) :
    (me.advanceOffset req).live = me.live := by
  unfold advanceOffset
  split <;> rfl

@[simp] theorem advanceOffset_used (me : BxiME) (req : BxiRequest) :
    (me.advanceOffset req).used = me.used := by
  unfold advanceOffset
  split <;> rfl

@[simp] theorem advanceOffset_me (me : BxiME) (req : BxiRequest) :
    (me.advanceOffset req).me = me.me := by
  unfold advanceOffset
  split <;> rfl

@[simp] theorem advanceOffset_pt (me : BxiME) (req : BxiRequest) :
    (me.advanceOffset req).pt = me.pt := by
  unfold advanceOffset
  split <;> rfl

@[simp] theorem advanceOffset_list (me : BxiME) (req : BxiRequest) :
    (me.advanceOffset req).list = me.list := by
  unfold advanceOffset
  split <;> rfl

@[simp] theorem advanceOffset_inUse (me : BxiME) (req : BxiRequest) :
    (me.advanceOffset req).inUse = me.inUse := by
  unfold advanceOffset
  split <;> rfl

@[simp] theorem advanceOffset_needsUnlink (me : BxiME) (req : BxiRequest) :
    (me.advanceOffset req).needsUnlink = me.needsUnlink := by
  unfold advanceOffset
  split <;> rfl

end BxiME

namespace BxiMsg

/-- `BxiMsg::BxiMsg(const BxiMsg&)`: the fields which the copy constructor
does not list keep their default member initialisers. -/
def copy (msg : BxiMsg) : BxiMsg :=
  { initiator := msg.initiator
    target := msg.target
    type := msg.type
    simulatedSize := msg.simulatedSize
    retryCount := msg.retryCount
    parentRequest := msg.parentRequest
    refCount := 1 }

/-- `BxiMsg::get_vn`, given the `service_vn` of the parent request. -/
def getVn (msg : BxiMsg) (serviceVn : Bool) : Vn :=
  if msg.type.isRequest then .request serviceVn else .response serviceVn

end BxiMsg

namespace BxiMD

def hasOption (md : BxiMD) (flag : Options) : Bool :=
  hasPtlOption md.options flag

/-- The amount `BxiMD::increment_ct` adds to the counter. -/
def ctAmount (md : BxiMD) (byteCount : Size) : Size :=
  if md.hasOption MdOption.eventCtBytes then byteCount else 1

/-- The counter updated for one of the `PTL_MD_EVENT_CT_*` flags. -/
def counts (md : BxiMD) (flag : Options) : Option CtId :=
  if md.hasOption flag then md.ctHandle else none

end BxiMD

end S4BXI
