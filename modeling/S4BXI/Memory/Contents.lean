import S4BXI.Memory.AtomicOp
import S4BXI.Nic.Runs

/-!
# Simulations with the contents of memory

A step records its accesses to user memory in the log.  Here they are performed
on the bytes, in their order.  An application may write anything to its memory
before a step, and `apply_atomic_op` may be any function where its type is not
an integer one.
-/

namespace S4BXI

open Lib

/-- What `apply_atomic_op` does for a request.  There is no result where it
panics. -/
abbrev Atomics := ReqId → AtomicCall → Bytes → Option Bytes

/-- `apply_atomic_op` on the integer types, given the address of the `cst`
field of each request. -/
def integerAtomics (cstField : ReqId → Addr) (others : Atomics) : Atomics :=
  fun req call memory =>
    if integer : call.datatype.isInteger = true then
      applyAtomicOp call.op ⟨call.datatype, integer⟩ call.me
        (call.cst.getD (cstField req)) call.rx call.tx call.len memory
    else
      others req call memory

/-- One access to memory. -/
def Obs.perform (atomics : Atomics) (memory : Bytes) : Obs → Option Bytes
  | .memcpy _ dest src count => some (memory.copy dest src count)
  | .atomicOp req call => atomics req call memory
  | _ => some memory

/-- The accesses of a log, in their order. -/
def performAll (atomics : Atomics) (log : List Obs) (memory : Bytes) :
    Option Bytes :=
  log.foldlM (Obs.perform atomics) memory

/-- A simulation and the memory of its processes. -/
structure Machine where
  state : State
  memory : Bytes

/-- A step and what the applications write to memory before it. -/
structure Move where
  label : Label
  write : Bytes → Bytes := id

namespace Machine

/-- The effects recorded since a state. -/
def effects (before after : State) : List Obs :=
  after.log.drop before.log.length

/-- A step which performs its accesses. -/
def step (sys : Sys) (atomics : Atomics) (machine : Machine) (move : Move) :
    Option Machine :=
  (S4BXI.step sys machine.state move.label).bind fun after =>
    (performAll atomics (effects machine.state after)
      (move.write machine.memory)).map fun memory => ⟨after, memory⟩

end Machine

theorem performAll_nil (atomics : Atomics) (memory : Bytes) :
    performAll atomics [] memory = some memory := rfl

theorem performAll_cons (atomics : Atomics) (obs : Obs) (log : List Obs)
    (memory : Bytes) :
    performAll atomics (obs :: log) memory =
      (obs.perform atomics memory).bind (performAll atomics log) := rfl

@[simp] theorem performAll_atomicOp (atomics : Atomics) (req : ReqId)
    (call : AtomicCall) (memory : Bytes) :
    performAll atomics [.atomicOp req call] memory =
      atomics req call memory := by
  rw [performAll_cons]
  exact Option.bind_fun_some _

end S4BXI
