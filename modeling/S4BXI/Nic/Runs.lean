import S4BXI.Nic.Machine

/-!
# Executing runs

The step function is computable, so a run given by its labels can be executed:
what is computed of the final state holds of a reachable state.  The
deployment below has the actors of two nodes, each with one application.
-/

namespace S4BXI

open Lib

/-- The final state of the run with the given labels, if all its steps are
possible and pass `check`. -/
def executes (sys : Sys) (check : State → Label → Bool)
    (labels : List Label) : Option State :=
  runLabels (step sys) check (initial sys) labels

/-- What a run computes holds in a state reached under its side condition. -/
theorem reachedBy_of_executes (sys : Sys) (allowed : State → Label → Prop)
    [∀ s label, Decidable (allowed s label)] (labels : List Label)
    (property : State → Bool)
    (executed : (executes sys (fun s label => decide (allowed s label))
      labels).any property = true) :
    ∃ s, ReachedBy sys allowed s ∧ property s = true := by
  obtain ⟨s, final, holds⟩ := (Option.any_eq_true _ _).mp executed
  exact ⟨s, reached_of_runLabels (fun _ _ => of_decide_eq_true) final, holds⟩

/-- What a run computes holds in a reachable state. -/
theorem reachable_of_executes (sys : Sys) (labels : List Label)
    (property : State → Bool)
    (executed : (executes sys (fun _ _ => true) labels).any property =
      true) : ∃ s, Reachable sys s ∧ property s = true := by
  obtain ⟨s, final, holds⟩ := (Option.any_eq_true _ _).mp executed
  exact ⟨s, reached_of_runLabels (fun _ _ _ => trivial) final, holds⟩

/-- What two runs compute holds of the states they reach. -/
theorem reachable_pair_of_executes (sys other : Sys) (first second : List Label)
    (property : State → State → Bool)
    (executed : (executes sys (fun _ _ => true) first).any (fun s =>
      (executes other (fun _ _ => true) second).any (property s)) = true) :
    ∃ s t, Reachable sys s ∧ Reachable other t ∧ property s t = true := by
  obtain ⟨s, final, rest⟩ := (Option.any_eq_true _ _).mp executed
  obtain ⟨t, final', holds⟩ := (Option.any_eq_true _ _).mp rest
  exact ⟨s, t, reached_of_runLabels (fun _ _ _ => trivial) final,
    reached_of_runLabels (fun _ _ _ => trivial) final', holds⟩

/-- An actor performs its next operations. -/
def runs (thread : ThreadId) (count : Nat) : List Label :=
  List.replicate count (.run thread)

/-- The actors of a node: an application, the NIC initiators and the NIC
targets of the compute networks and the E2E actor. -/
def nodeActors (nid : Nid) : List Actor :=
  [⟨.userApp, nid, .computeRequest⟩, ⟨.nicInitiator, nid, .computeRequest⟩,
    ⟨.nicInitiator, nid, .computeResponse⟩,
    ⟨.nicTarget, nid, .computeRequest⟩, ⟨.nicTarget, nid, .computeResponse⟩,
    ⟨.nicE2e, nid, .computeRequest⟩]

/-- Two nodes, whose applications have the interfaces 0 and 1. -/
def twoNodes (cfg : Config) (params : NodeParams) : Sys :=
  { cfg := cfg
    node := fun _ => params
    ni := fun ni =>
      { node := ni, options := NiOption.matching, pid := 10 + ni
        process := 6 * ni }
    actors := nodeActors 0 ++ nodeActors 1 }

/-- The initialisation of both applications, with a portal table entry at the
second one. -/
def prologue : List Label :=
  [.call 0 (.niInit 0), .call 6 (.niInit 1),
    .call 6 (.ptAlloc 1 0 (some 7))]

/-- `PtlMEAppend` at the second application. -/
def appends (me : PtlMe) (list : PtlList) : Label :=
  .call 6 (.meAppend 1 0 me list 5)

/-- `PtlPut` of eight bytes from the first application to the second one. -/
def puts (ack : AckReq) (matchBits : MatchBits) : Label :=
  .call 0 (.request
    { md := { ni := 0, start := 500, length := 8, eqHandle := some 3 }
      length := 8
      ackReq := ack
      targetNid := 1
      targetPid := 11
      matchBits := matchBits })

/-- A Put which is matched and acknowledged. -/
def acknowledgedPut : List Label :=
  prologue ++ appends { start := 1000, length := 100 } .priority :: runs 6 3 ++
    puts .ackReq 0 :: runs 0 3 ++ .take 1 :: runs 1 10 ++
    .recv 9 0 :: runs 9 10 ++ .take 8 :: runs 8 5 ++ .recv 4 0 :: runs 4 12

/-- A Put with the match bits 1 which is deposited in an overflow entry. -/
def unexpectedPut : List Label :=
  prologue ++ appends { start := 2000, length := 100, ignoreBits := 255 }
      .overflow :: runs 6 2 ++
    puts .noAckReq 1 :: runs 0 3 ++ .take 1 :: runs 1 10 ++
    .recv 9 0 :: runs 9 8

end S4BXI
