import S4BXI.Lifetime.Holders
import S4BXI.Nic.Runs

/-!
# The counts of messages over whole runs

In a run which keeps the parked messages in one place and frees no portal table
entry, a message is destroyed exactly when its last holder drops it.  Nothing
leaks: at rest, only those messages are alive which wait in the unexpected
headers or in a mailbox which no NIC initiator reads.
-/

namespace S4BXI

open Lib

/-- Flow control keeps the parked messages in one place, and no portal table
entry is freed. -/
structure Careful (sys : Sys) (s : State) (label : Label) : Prop where
  undisturbed : Undisturbed sys s label
  keeps : KeepsTables s label

instance (sys : Sys) (s : State) (label : Label) :
    Decidable (Careful sys s label) :=
  decidable_of_iff (Undisturbed sys s label ∧ KeepsTables s label)
    ⟨fun both => ⟨both.1, both.2⟩, fun careful =>
      ⟨careful.undisturbed, careful.keeps⟩⟩

/-- Whether a message is alive and answers another one. -/
def BxiMsg.answers (answered : MsgId) (msg : BxiMsg) : Nat :=
  if msg.live = true ∧ msg.answersMsg = some answered then 1 else 0

/-- The acknowledgements which are alive and answer a message. -/
def State.answering (s : State) (msg : MsgId) : Nat :=
  total s.nextMsg (BxiMsg.answers msg) s.msgs

section Runs

variable {sys : Sys} {s : State}

theorem State.owners_cells (s : State) (msg : MsgId) :
    owners s.nextMsg s.cells msg = s.answering msg := by
  apply total_congr
  intro other old
  rw [State.cells_old old]
  rfl

theorem WellCounted.initial (sys : Sys) : WellCounted (initial sys) := by
  constructor
  · intro msg live
    cases live
  · intro msg child refers
    cases refers
  · intro msg live
    cases live
  · intro msg live
    cases live
  · intro msg _
    have start : ReachedBy sys Anything (S4BXI.initial sys) := .refl
    have ledger := State.holders_ledger (Accounted.initial sys)
      (ReachedBy.home start) msg
    have idle : pending (Op.refs msg) (S4BXI.initial sys).threads = 0 := by
      apply pending_eq_zero
      intro thread member op pends
      obtain ⟨actor, _, rfl⟩ := List.mem_map.mp member
      cases pends
    have anchors : (S4BXI.initial sys).anchors msg =
        pending (Op.refs msg) (S4BXI.initial sys).threads :=
      Nat.zero_add _
    have mailbox : mailed (S4BXI.initial sys).rx
        ((S4BXI.initial sys).msgs msg).target msg = 0 := rfl
    constructor
    · omega
    · rfl

theorem ReachedBy.wellCounted (reached : ReachedBy sys (Careful sys) s)
    (running : s.halted = none) : WellCounted s := by
  let Along (state : State) : Prop := state.halted = none → WellCounted state
  have undisturbed : ∀ {state : State}, ReachedBy sys (Careful sys) state →
      ReachedBy sys (Undisturbed sys) state :=
    fun reached => reached.mono fun _ _ => Careful.undisturbed
  have along : Along s := by
    refine reached.invariant_of_reached (fun _ => .initial sys) ?_
    intro before after label earlier counted careful stepped running
    have later := earlier.tail careful stepped
    have running_before := (step_enabled stepped).1
    exact (counted running_before).advances (ReachedBy.wellScoped earlier)
      (ReachedBy.shaped earlier) (step_advances stepped) careful.keeps running
      (ReachedBy.accounted (undisturbed earlier) running_before)
      (ReachedBy.home earlier) (ReachedBy.accounted (undisturbed later) running)
      (ReachedBy.home later)
  exact along running

/-- A message is alive exactly as long as somebody holds it or an
acknowledgement which is alive answers it, and its count says how many they are.
-/
theorem message_counts_exact (reached : ReachedBy sys (Careful sys) s)
    (running : s.halted = none) {msg : MsgId} (old : msg < s.nextMsg) :
    ((s.msgs msg).live = true ↔ 0 < s.holders msg + s.answering msg) ∧
      ((s.msgs msg).live = true →
        (s.msgs msg).refCount = s.holders msg + s.answering msg) := by
  have counted := ReachedBy.wellCounted reached running
  have live : (s.cells msg).live = true ↔ _ := counted.live_iff
  have exact := counted.exact msg
  rw [State.owners_cells, State.cells_old old] at live exact
  exact ⟨live, exact⟩

end Runs

/-- A Put is held by the E2E actor and answered by its acknowledgement. -/
theorem acknowledged_put_is_counted :
    ∃ s, ReachedBy (twoNodes {} { e2eOff := false })
        (Careful (twoNodes {} { e2eOff := false })) s ∧
      s.holders 0 + s.answering 0 = 2 := by
  obtain ⟨s, reached, holds⟩ := reachedBy_of_executes
    (twoNodes {} { e2eOff := false })
    (Careful (twoNodes {} { e2eOff := false })) acknowledgedPut
    (fun s => s.halted.isNone && decide (0 < s.nextMsg) &&
      (s.msgs 0).live && (s.msgs 0).refCount == 2) (by decide +kernel)
  simp only [Bool.and_eq_true, Option.isNone_iff_eq_none, decide_eq_true_eq,
    beq_iff_eq] at holds
  obtain ⟨⟨⟨running, old⟩, live⟩, two⟩ := holds
  have counts := message_counts_exact reached running old
  exact ⟨s, reached, (counts.2 live).symm.trans two⟩

end S4BXI
