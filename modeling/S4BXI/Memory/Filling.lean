import S4BXI.Matching.Linked
import S4BXI.Memory.Bounds

/-!
# Entries which manage their offset

The requests which are matched with an entry with `PTL_ME_MANAGE_LOCAL` fill it
from its start.  The request which leaves less than `min_free` unlinks it.
-/

namespace S4BXI

open Lib

/-- How much of an entry is filled by requests of the given sizes. -/
def PtlMe.filled (me : PtlMe) (sizes : List Size) : Size :=
  min me.length sizes.sum

/-- Less than `min_free` is left of an entry. -/
def PtlMe.Exhausted (me : PtlMe) (sizes : List Size) : Prop :=
  me.length - me.filled sizes < me.minFree

/-- The sums which are computed for an entry do not overflow. -/
structure State.Summable (s : State) (me : MeId) : Prop where
  sizes : (s.sizes me).sum < 2 ^ 64
  free : (s.mes me).me.filled (s.sizes me) + (s.mes me).me.minFree < 2 ^ 64

/-! ## Ranges -/

theorem filled_le (me : PtlMe) (sizes : List Size) :
    me.filled sizes ≤ me.length := Nat.min_le_left _ _

theorem truncated_end {length filled : Nat} (within : filled ≤ length)
    (size : Nat) :
    filled + min (length - filled) size = min length (filled + size) := by
  omega

theorem filled_append (me : PtlMe) (sizes more : List Size) :
    me.filled (sizes ++ more) =
      min me.length (me.filled sizes + more.sum) := by
  unfold PtlMe.filled
  rw [List.sum_append]
  generalize sizes.sum = before
  generalize more.sum = size
  generalize me.length = length
  change (min length (before + size) : Nat) =
    min length (min length before + size)
  omega

/-- Without an overflow, the managed offset is what has been filled. -/
theorem offsetAfter_filled {me : PtlMe} (managed : me.managesLocal = true)
    {sizes : List Size} (small : sizes.sum < 2 ^ 64) :
    me.offsetAfter sizes = me.filled sizes := by
  induction sizes using List.reverseRecOn with
  | nil => exact (Nat.min_eq_right (Nat.zero_le _)).symm
  | append_singleton sizes size induction =>
      have total : (sizes ++ [size]).sum = sizes.sum + size := by simp
      have before : sizes.sum < 2 ^ 64 :=
        lt_of_le_of_lt (Nat.le_add_right _ size) (total ▸ small)
      have bound : me.filled sizes + size < 2 ^ 64 :=
        lt_of_le_of_lt (Nat.add_le_add_right (Nat.min_le_right _ _) size)
          (total ▸ small)
      have exact' : add64 (me.filled sizes) size = me.filled sizes + size :=
        Nat.mod_eq_of_lt bound
      rw [offsetAfter_concat, induction before, PtlMe.nextOffset, managed,
        exact', filled_append, List.sum_singleton]
      simp only [Bool.not_true, Bool.false_eq_true, if_false]
      split
      · rename_i within
        exact (Nat.min_eq_right within).symm
      · rename_i beyond
        exact (Nat.min_eq_left (Nat.le_of_not_le beyond)).symm

theorem sum_take_le (sizes : List Nat) (k : Nat) :
    (sizes.take k).sum ≤ sizes.sum := by
  have split := congrArg List.sum (List.take_append_drop k sizes)
  rw [List.sum_append] at split
  exact split ▸ Nat.le_add_right _ _

theorem filled_take_mono (me : PtlMe) (sizes : List Size) {j k : Nat}
    (early : j ≤ k) : me.filled (sizes.take j) ≤ me.filled (sizes.take k) := by
  have part : sizes.take j = (sizes.take k).take j := by
    rw [List.take_take, Nat.min_eq_left early]
  rw [part]
  exact min_le_min_left me.length (sum_take_le (sizes.take k) j)

/-- The access of a request to an entry which manages its offset. -/
structure Fills (me : PtlMe) (sizes : List Size) (k : Nat) (req : BxiRequest) :
    Prop where
  offset : req.targetRemoteOffset = me.filled (sizes.take k)
  start : req.start = add64 me.start (me.filled (sizes.take k))
  mlength : me.filled (sizes.take k) + req.mlength =
    me.filled (sizes.take (k + 1))

section Ranges

variable {sys : Sys} {s : State} {me : MeId}

theorem sizes_getElem? {k : Nat} {req : ReqId}
    (found : (s.matchedWith me)[k]? = some req) :
    (s.sizes me)[k]? = some (s.reqs req).payloadSize := by
  unfold State.sizes
  rw [List.getElem?_map, found]
  rfl

/-- The `k`-th request fills the entry on from the end of the ones before. -/
theorem fills_of_tracked (tracked : Tracked s)
    (typed : (s.mes me).me.Typed)
    (managed : (s.mes me).me.managesLocal = true)
    (small : (s.sizes me).sum < 2 ^ 64) {k : Nat} {req : ReqId}
    (found : (s.matchedWith me)[k]? = some req) :
    Fills (s.mes me).me (s.sizes me) k (s.reqs req) := by
  have access := tracked.access me k req found
  have before : ((s.sizes me).take k).sum < 2 ^ 64 :=
    lt_of_le_of_lt (sum_take_le (s.sizes me) k) small
  rw [offsetAfter_filled managed before] at access
  have within := filled_le (s.mes me).me ((s.sizes me).take k)
  obtain ⟨length, start, offset⟩ :
      (s.reqs req).mlength = _ ∧ (s.reqs req).start = _ ∧
        (s.reqs req).targetRemoteOffset = _ :=
    ⟨(Prod.mk.inj access).1, (Prod.mk.inj (Prod.mk.inj access).2).1,
      (Prod.mk.inj (Prod.mk.inj access).2).2⟩
  have option : (!(s.mes me).me.managesLocal) = false := by rw [managed]; rfl
  have next : (s.sizes me).take (k + 1) =
      (s.sizes me).take k ++ [(s.reqs req).payloadSize] := by
    rw [List.take_add_one, sizes_getElem? found]
    rfl
  constructor
  · rw [offset]
    change (if (!(s.mes me).me.managesLocal) = true then _ else _) = _
    rw [option]
    rfl
  · rw [start]
    change (if (!(s.mes me).me.managesLocal) = true then _ else _) = _
    rw [option]
    rfl
  · rw [length, getMlength_withOffset _ _ typed within, next, filled_append,
      List.sum_singleton]
    exact truncated_end within _

/-- The range of an earlier request ends where the one of a later request starts
or before. -/
theorem Fills.apart {entry : PtlMe} {sizes : List Size} {j k : Nat}
    {earlier later : BxiRequest} (first : Fills entry sizes j earlier)
    (second : Fills entry sizes k later) (before : j < k) :
    earlier.targetRemoteOffset + earlier.mlength ≤
      later.targetRemoteOffset := by
  rw [first.offset, first.mlength, second.offset]
  exact filled_take_mono entry sizes before

end Ranges

end S4BXI
