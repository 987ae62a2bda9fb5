import S4BXI.Memory.Managed
import S4BXI.Nic.Runs

/-!
# The bounds of the accesses to an entry

`get_mlength` truncates a payload to the part of the entry behind its managed
offset, which stays zero without `PTL_ME_MANAGE_LOCAL`, while
`get_offsetted_addr` then starts at the offset of the request.
-/

namespace S4BXI

open Lib

/-- The addresses and sizes of an entry are `ptl_size_t` values. -/
def PtlMe.Typed (me : PtlMe) : Prop :=
  me.start < 2 ^ 64 ∧ me.length < 2 ^ 64

/-- The size and the offset of a request are `ptl_size_t` values. -/
def BxiRequest.Typed (req : BxiRequest) : Prop :=
  req.payloadSize < 2 ^ 64 ∧ req.remoteOffset < 2 ^ 64

/-- The arguments of an API call are values of their types. -/
def Label.Typed : Label → Prop
  | .call _ (.meAppend _ _ me _ _) => me.Typed
  | .call _ (.request cmd) => cmd.length < 2 ^ 64 ∧ cmd.remoteOffset < 2 ^ 64
  | _ => True

instance : DecidablePred Label.Typed
  | .call _ (.meAppend _ _ me _ _) =>
      inferInstanceAs (Decidable (me.start < 2 ^ 64 ∧ me.length < 2 ^ 64))
  | .call _ (.request cmd) => inferInstanceAs
      (Decidable (cmd.length < 2 ^ 64 ∧ cmd.remoteOffset < 2 ^ 64))
  | .call _ (.niInit _) | .call _ (.ptAlloc _ _ _) | .call _ (.ptEnable _ _)
  | .call _ (.ptDisable _ _) | .call _ (.ptFree _ _) | .call _ (.meUnlink _)
  | .run _ | .recv _ _ | .take _ | .wake _ => inferInstanceAs (Decidable True)

/-- All bytes of a range are in the memory of an entry. -/
def PtlMe.Contains (me : PtlMe) (start : Addr) (count : Nat) : Prop :=
  ∀ k < count, sub64 (add64 start k) me.start < me.length

/-- What the handlers need for their access to stay inside the entry: a managed
offset, nothing to access, or a request which ends inside the entry after it
has been truncated to the length of the entry. -/
def PtlMe.Fits (me : PtlMe) (req : BxiRequest) : Prop :=
  me.managesLocal = true ∨ min me.length req.payloadSize = 0 ∨
    req.remoteOffset + min me.length req.payloadSize ≤ me.length

/-! ## Offsets -/

theorem nextOffset_le (me : PtlMe) {offset : Size} (size : Size)
    (within : offset ≤ me.length) : me.nextOffset offset size ≤ me.length := by
  unfold PtlMe.nextOffset
  split
  · exact within
  · split
    · assumption
    · exact Nat.le_refl _

theorem foldl_nextOffset_le (me : PtlMe) (sizes : List Size) {offset : Size}
    (within : offset ≤ me.length) :
    sizes.foldl me.nextOffset offset ≤ me.length := by
  induction sizes generalizing offset with
  | nil => exact within
  | cons size sizes induction =>
      exact induction (nextOffset_le me size within)

/-- The managed offset stays inside the entry. -/
theorem offsetAfter_le (me : PtlMe) (sizes : List Size) :
    me.offsetAfter sizes ≤ me.length :=
  foldl_nextOffset_le me sizes (Nat.zero_le _)

/-- Only an entry with `PTL_ME_MANAGE_LOCAL` has a managed offset. -/
theorem offsetAfter_unmanaged {me : PtlMe} (unmanaged : me.managesLocal = false)
    (sizes : List Size) : me.offsetAfter sizes = 0 := by
  unfold PtlMe.offsetAfter
  induction sizes with
  | nil => rfl
  | cons size sizes induction =>
      rw [List.foldl_cons, PtlMe.nextOffset, unmanaged]
      exact induction

/-! ## Ranges -/

theorem sub64_of_le {left right : Nat} (small : left < 2 ^ 64)
    (within : right ≤ left) : sub64 left right = left - right := by
  unfold sub64
  omega

theorem distance (start offset k : Nat) :
    sub64 (add64 (add64 start offset) k) start = (offset + k) % 2 ^ 64 := by
  unfold sub64 add64
  omega

/-- The truncated length of an access. -/
theorem getMlength_withOffset (me : BxiME) (req : BxiRequest) {offset : Size}
    (typed : me.me.Typed) (within : offset ≤ me.me.length) :
    (me.withOffset offset).getMlength req =
      min (me.me.length - offset) req.payloadSize := by
  have remaining : sub64 me.me.length offset = me.me.length - offset :=
    sub64_of_le typed.2 within
  unfold BxiME.getMlength
  simp only [BxiME.withOffset, remaining]
  split
  · rename_i small
    exact (Nat.min_eq_left (le_of_lt small)).symm
  · rename_i large
    exact (Nat.min_eq_right (Nat.not_lt.mp large)).symm

theorem wrapped_range_iff {length offset count : Nat} (long : length < 2 ^ 64)
    (small : offset < 2 ^ 64) :
    (∀ k < count, (offset + k) % 2 ^ 64 < length) ↔
      count = 0 ∨ offset + count ≤ length := by
  constructor
  · intro inside
    by_cases nothing : count = 0
    · exact .inl nothing
    · right
      have first := inside 0 (Nat.pos_of_ne_zero nothing)
      rw [Nat.add_zero, Nat.mod_eq_of_lt small] at first
      by_contra beyond
      -- The first byte behind the end of the entry.
      have last := inside (length - offset) (by omega)
      rw [Nat.add_sub_cancel' (Nat.le_of_lt first), Nat.mod_eq_of_lt long]
        at last
      exact Nat.lt_irrefl _ last
  · intro fits k early
    have place : offset + k < length := by omega
    rw [Nat.mod_eq_of_lt (Nat.lt_trans place long)]
    exact place

/-- A range which starts at an offset of the entry is inside it unless it
reaches beyond its end. -/
theorem contains_iff {me : PtlMe} {offset count : Nat} (typed : me.Typed)
    (small : offset < 2 ^ 64) :
    me.Contains (add64 me.start offset) count ↔
      count = 0 ∨ offset + count ≤ me.length := by
  unfold PtlMe.Contains
  simp only [distance]
  exact wrapped_range_iff typed.2 small

/-- The access of a request at a managed offset. -/
theorem access_contained_iff (me : BxiME) {req : BxiRequest} {offset : Size}
    (typed : me.me.Typed) (asked : req.Typed) (within : offset ≤ me.me.length)
    (unmanaged : me.me.managesLocal = false → offset = 0) :
    me.me.Contains ((me.withOffset offset).getOffsettedAddr req)
        ((me.withOffset offset).getMlength req) ↔ me.me.Fits req := by
  rw [getMlength_withOffset me req typed within]
  cases managed : me.me.managesLocal with
  | true =>
      have address : (me.withOffset offset).getOffsettedAddr req =
          add64 me.me.start offset := by
        unfold BxiME.getOffsettedAddr
        rw [if_neg]
        · rfl
        · change ¬(!me.me.managesLocal) = true
          simp [managed]
      rw [address, contains_iff typed (lt_of_le_of_lt within typed.2)]
      constructor
      · exact fun _ => .inl managed
      · intro _
        right
        calc offset + min (me.me.length - offset) req.payloadSize
            ≤ offset + (me.me.length - offset) :=
              Nat.add_le_add_left (Nat.min_le_left _ _) _
          _ = me.me.length := Nat.add_sub_cancel' within
  | false =>
      have address : (me.withOffset offset).getOffsettedAddr req =
          add64 me.me.start req.remoteOffset := by
        unfold BxiME.getOffsettedAddr
        rw [if_pos]
        · rfl
        · change (!me.me.managesLocal) = true
          simp [managed]
      rw [address, contains_iff typed asked.2, unmanaged managed,
        Nat.sub_zero]
      simp [PtlMe.Fits, managed]

/-! ## Runs -/

section Steps

variable {sys : Sys} {self : Actor} {s after : State}

theorem Phase.nextMe {op : Op} {new : List Op}
    (phase : Phase sys self s op after new) (within : op.Within s.bounds) :
    after.nextMe = s.nextMe := by
  cases phase.pairs within with
  | shrink idle nothing shrinks => exact shrinks.nextMe
  | arrive nothing fresh matched arrives => exact arrives.nextMe
  | insert scanned => rfl
  | stop => rfl
  | overflow found deposited => rfl
  | consumed => rfl

/-- The values of the entries and of the requests are those of the calls which
made them. -/
structure TypedState (s : State) : Prop where
  mes : ∀ me < s.nextMe, (s.mes me).me.Typed
  reqs : ∀ req < s.nextReq, (s.reqs req).Typed

theorem TypedState.extends (typed : TypedState s) (grows : Extends s after)
    (mes : ∀ me, s.nextMe ≤ me → me < after.nextMe → (after.mes me).me.Typed)
    (reqs : ∀ req, s.nextReq ≤ req → req < after.nextReq →
      (after.reqs req).Typed) : TypedState after := by
  constructor
  · intro me small
    rcases Nat.lt_or_ge me s.nextMe with old | created
    · rw [grows.meOptions old]
      exact typed.mes me old
    · exact mes me created small
  · intro req small
    rcases Nat.lt_or_ge req s.nextReq with old | created
    · have same := grows.reqs req old
      have remote : (after.reqs req).remoteOffset =
          (s.reqs req).remoteOffset :=
        (congrArg BxiRequest.remoteOffset same :)
      unfold BxiRequest.Typed
      rw [grows.payloadSize old, remote]
      exact typed.reqs req old
    · exact reqs req created small

theorem TypedState.advances {index : ThreadId} {label : Label}
    (typed : TypedState s) (wellScoped : WellScoped s)
    (advances : Advances sys s index label after) (values : label.Typed) :
    TypedState after := by
  have grows := advances.extends
  have same : after.nextMe = s.nextMe → after.nextReq = s.nextReq →
      TypedState after := by
    intro nextMe nextReq
    apply typed.extends grows
    · intro me created small
      rw [nextMe] at small
      exact absurd small (Nat.not_lt.mpr created)
    · intro req created small
      rw [nextReq] at small
      exact absurd small (Nat.not_lt.mpr created)
  cases advances with
  | @run self op rest new after found alive phase =>
      have within := wellScoped.ops _ (List.mem_of_getElem? found) op (by simp)
      exact same (phase.nextMe within) phase.nextReq
  | @call self call new after found user owned alive phase =>
      have created : ∀ {pt : PtId} {entry : PtlMe} {list : PtlList}
          {userPtr : Nat}, entry.Typed → ∀ me, s.nextMe ≤ me →
          me < s.nextMe + 1 →
          ((newMe s pt entry list userPtr).mes me).me.Typed := by
        intro pt entry list userPtr entryTyped me low high
        have equal : me = s.nextMe :=
          Nat.le_antisymm (Nat.le_of_lt_succ high) low
        simpa only [newMe, equal, Function.update_self] using entryTyped
      cases phase with
      | appendPriority taken =>
          apply typed.extends grows
          · exact created values
          · intro req low high
            exact absurd high (Nat.not_lt.mpr low)
      | appendOverflow taken =>
          apply typed.extends grows
          · exact created values
          · intro req low high
            exact absurd high (Nat.not_lt.mpr low)
      | @request cmd =>
          apply typed.extends grows
          · intro me low high
            exact absurd high (Nat.not_lt.mpr low)
          · intro req low high
            have equal : req = s.nextReq :=
              Nat.le_antisymm (Nat.le_of_lt_succ high) low
            have same' : ((ptlRequest sys self s cmd).reqs req).payloadSize =
                  cmd.length ∧
                ((ptlRequest sys self s cmd).reqs req).remoteOffset =
                  cmd.remoteOffset := by
              simp [ptlRequest, State.newMsg, newRequestMsg, newRequest, equal]
            change ((ptlRequest sys self s cmd).reqs req).Typed
            unfold BxiRequest.Typed
            rw [same'.1, same'.2]
            exact values
      | meUnlink free unlinks =>
          apply same
          · exact (Shrinks.unlinks unlinks).nextMe
          · exact unlinks.nextReq
      | ptFree taken equality frees =>
          obtain ⟨drops, sameMes⟩ := frees
          obtain ⟨sameReqs, sameMsgs, stops⟩ := drops
          exact same rfl rfl
      | _ => exact same rfl rfl
  | _ => exact same rfl rfl

theorem typedState_initial (sys : Sys) : TypedState (initial sys) :=
  { mes := fun me small => absurd small (Nat.not_lt_zero me)
    reqs := fun req small => absurd small (Nat.not_lt_zero req) }

theorem ReachedBy.typedState
    (reached : ReachedBy sys (fun _ label => label.Typed) s) :
    TypedState s := by
  apply reached.invariant_of_reached (typedState_initial sys)
  intro before after label earlier typed values stepped
  exact typed.advances (ReachedBy.wellScoped earlier)
    (step_advances stepped) values

/-- For every entry and every request which was matched with it, after any
history: the access is never longer than the payload, and it is inside the
entry exactly when the entry manages its offset or the request, truncated to
the length of the entry, ends inside it. -/
theorem target_access_contained_iff
    (reached : ReachedBy sys (fun _ label => label.Typed) s) (me : MeId)
    (req : ReqId) (matched : req ∈ s.matchedWith me) :
    (s.reqs req).mlength ≤ (s.reqs req).payloadSize ∧
      ((s.mes me).me.Contains (s.reqs req).start (s.reqs req).mlength ↔
        (s.mes me).me.Fits (s.reqs req)) := by
  obtain ⟨k, found⟩ := List.mem_iff_getElem?.mp matched
  obtain ⟨oldReq, oldMe⟩ := matchedWith_within
    (ReachedBy.wellScoped reached).tables matched
  have typed := ReachedBy.typedState reached
  have access := (ReachedBy.tracked reached).access me k req found
  have within := offsetAfter_le (s.mes me).me ((s.sizes me).take k)
  have length := (Prod.mk.inj access).1
  have start := (Prod.mk.inj (Prod.mk.inj access).2).1
  rw [length, start]
  constructor
  · rw [getMlength_withOffset _ _ (typed.mes me oldMe) within]
    exact Nat.min_le_right _ _
  · exact access_contained_iff (s.mes me) (typed.mes me oldMe)
      (typed.reqs req oldReq) within fun unmanaged =>
        offsetAfter_unmanaged unmanaged _

end Steps

/-- A Put of eight bytes at an offset of the entry which starts at the address
1000 and has 100 bytes, up to its match. -/
def putAt (offset : Size) : List Label :=
  prologue ++ appends { start := 1000, length := 100 } .priority :: runs 6 3 ++
    .call 0 (.request
      { md := { ni := 0, start := 500, length := 8 }, length := 8
        targetNid := 1, targetPid := 11, remoteOffset := offset }) ::
    runs 0 3 ++ .take 1 :: runs 1 6 ++ [.recv 9 0, .run 9]

/-- A Put at the offset 96 writes four bytes behind the end of the entry. -/
theorem put_writes_beyond_entry :
    ∃ s, ReachedBy (twoNodes {} {}) (fun _ label => label.Typed) s ∧
      0 ∈ s.matchedWith 0 ∧ Obs.memcpy 0 1096 500 8 ∈ s.log ∧
      ¬(s.mes 0).me.Contains (s.reqs 0).start (s.reqs 0).mlength := by
  obtain ⟨s, reached, holds⟩ := reachedBy_of_executes (twoNodes {} {})
    (fun _ label => label.Typed) (putAt 96)
    (fun s => decide (0 ∈ s.matchedWith 0) &&
      decide (Obs.memcpy 0 1096 500 8 ∈ s.log) &&
      decide ((s.mes 0).me = { start := 1000, length := 100 }) &&
      decide ((s.reqs 0).start = 1096 ∧ (s.reqs 0).mlength = 8))
    (by decide +kernel)
  simp only [Bool.and_eq_true, decide_eq_true_eq] at holds
  obtain ⟨⟨⟨matched, written⟩, entry⟩, start, length⟩ := holds
  refine ⟨s, reached, matched, written, ?_⟩
  rw [entry, start, length]
  intro inside
  exact absurd (inside 7 (by decide)) (by decide)

/-- A Put at the offset 92 ends at the end of the entry. -/
theorem put_stays_in_entry :
    ∃ s, ReachedBy (twoNodes {} {}) (fun _ label => label.Typed) s ∧
      0 ∈ s.matchedWith 0 ∧ (s.reqs 0).mlength = 8 ∧
      (s.mes 0).me.Contains (s.reqs 0).start (s.reqs 0).mlength := by
  obtain ⟨s, reached, holds⟩ := reachedBy_of_executes (twoNodes {} {})
    (fun _ label => label.Typed) (putAt 92)
    (fun s => decide (0 ∈ s.matchedWith 0) &&
      decide ((s.mes 0).me = { start := 1000, length := 100 }) &&
      decide ((s.reqs 0).remoteOffset = 92 ∧ (s.reqs 0).payloadSize = 8 ∧
        (s.reqs 0).mlength = 8))
    (by decide +kernel)
  simp only [Bool.and_eq_true, decide_eq_true_eq] at holds
  obtain ⟨⟨matched, entry⟩, offset, size, length⟩ := holds
  refine ⟨s, reached, matched, length,
    (target_access_contained_iff reached 0 0 matched).2.mpr ?_⟩
  unfold PtlMe.Fits
  rw [entry, offset, size]
  decide

end S4BXI
