import Mathlib

/-!
# Little-endian values in a byte memory

A memory gives the byte at every address.  `load` and `store` read and write
the value of `size` bytes from an address on; what is stored is loaded again,
and a store changes no byte outside its range.
-/

namespace S4BXI.Lib

/-- The byte at every address. -/
abbrev Bytes := Nat → BitVec 8

namespace Bytes

/-- The value of the `size` bytes from `addr` on. -/
def load (memory : Bytes) (addr size : Nat) : BitVec (8 * size) :=
  BitVec.ofFnLE fun bit => (memory (addr + bit / 8)).getLsbD (bit % 8)

/-- Writing a value to the `size` bytes from `addr` on. -/
def store {size : Nat} (memory : Bytes) (addr : Nat)
    (value : BitVec (8 * size)) : Bytes :=
  fun byte =>
    if addr ≤ byte ∧ byte < addr + size then
      value.extractLsb' (8 * (byte - addr)) 8
    else
      memory byte

/-- `memcpy`. -/
def copy (memory : Bytes) (dest src size : Nat) : Bytes :=
  memory.store dest (memory.load src size)

variable {memory other : Bytes} {addr size : Nat}

theorem getLsbD_load {bit : Nat} (inside : bit < 8 * size) :
    (memory.load addr size).getLsbD bit =
      (memory (addr + bit / 8)).getLsbD (bit % 8) := by
  rw [load, BitVec.getLsbD_ofFnLE, dif_pos inside]

theorem load_store (value : BitVec (8 * size)) :
    (memory.store addr value).load addr size = value := by
  apply BitVec.eq_of_getLsbD_eq
  intro bit inside
  rw [getLsbD_load inside, store, if_pos (by omega),
    BitVec.getLsbD_extractLsb']
  have whole : 8 * (addr + bit / 8 - addr) + bit % 8 = bit := by omega
  have small : bit % 8 < 8 := by omega
  rw [whole, decide_eq_true small, Bool.true_and]

/-- The bytes of a value. -/
theorem extract_load {byte : Nat} (inside : byte < size) :
    (memory.load addr size).extractLsb' (8 * byte) 8 = memory (addr + byte) := by
  apply BitVec.eq_of_getLsbD_eq
  intro bit small
  have place : (8 * byte + bit) / 8 = byte := by omega
  have rest : (8 * byte + bit) % 8 = bit := by omega
  rw [BitVec.getLsbD_extractLsb', getLsbD_load (by omega), place, rest]
  rw [decide_eq_true small, Bool.true_and]

/-- Two memories have the same value where they have the same bytes. -/
theorem load_eq_iff : memory.load addr size = other.load addr size ↔
    ∀ byte < size, memory (addr + byte) = other (addr + byte) := by
  constructor
  · intro equal byte inside
    have bytes := congrArg (BitVec.extractLsb' (8 * byte) 8) equal
    rwa [extract_load inside, extract_load inside] at bytes
  · intro equal
    apply BitVec.eq_of_getLsbD_eq
    intro bit inside
    rw [getLsbD_load inside, getLsbD_load inside, equal _ (by omega)]

theorem store_outside (value : BitVec (8 * size)) {byte : Nat}
    (outside : ¬(addr ≤ byte ∧ byte < addr + size)) :
    memory.store addr value byte = memory byte :=
  if_neg outside

/-- A store leaves the values of other ranges. -/
theorem load_store_apart (value : BitVec (8 * size)) {place width : Nat}
    (apart : place + width ≤ addr ∨ addr + size ≤ place) :
    (memory.store addr value).load place width = memory.load place width := by
  apply load_eq_iff.mpr
  intro byte inside
  apply store_outside
  omega

/-- The bytes of a range are those of its value. -/
theorem store_load_byte {byte : Nat} (start : addr ≤ byte)
    (inside : byte < addr + size) :
    other.store addr (memory.load addr size) byte = memory byte := by
  have place : addr + (byte - addr) = byte := by omega
  rw [store, if_pos ⟨start, inside⟩, extract_load (by omega), place]

end Bytes

end S4BXI.Lib
