import S4BXI.Lifetime.Counts

/-!
# What is left when nothing happens any more

At rest only those messages are alive which wait in the unexpected headers, and
the copies which were put in a mailbox that no NIC initiator reads.  Neither
kind answers another message, so that nothing else is kept alive by them.
-/

namespace S4BXI

open Lib

/-- Only acknowledgements answer messages; the unexpected headers are requests,
and what lies in a mailbox of a node is a copy which the node wanted to send. -/
structure Rooted (s : State) : Prop where
  answers : ∀ msg < s.nextMsg, ∀ answered,
    (s.msgs msg).answersMsg = some answered →
      (s.msgs msg).type.isRequest = false
  headers : ∀ pt, ∀ msg ∈ (s.pts pt).unexpectedHeaders,
    (s.msgs msg).type.isRequest = true
  mailbox : ∀ nid vn, ∀ msg ∈ s.traffic.mailbox nid vn,
    (s.msgs msg).initiator = nid ∧ (s.msgs msg).answersMsg = none

namespace Rooted

section Steps

variable {sys : Sys} {self : Actor} {s after : State}

theorem grow (rooted : Rooted s) (wellScoped : WellScoped s)
    (grows : Extends s after)
    (created : ∀ msg < after.nextMsg, s.nextMsg ≤ msg → ∀ answered,
      (after.msgs msg).answersMsg = some answered →
        (after.msgs msg).type.isRequest = false)
    (headers : ∀ pt, ∀ msg ∈ (after.pts pt).unexpectedHeaders,
      msg ∈ (s.pts pt).unexpectedHeaders ∨
        msg < s.nextMsg ∧ (s.msgs msg).type.isRequest = true)
    (mailbox : ∀ nid vn, ∀ msg ∈ after.traffic.mailbox nid vn,
      msg ∈ s.traffic.mailbox nid vn ∨
        (after.msgs msg).initiator = nid ∧
          (after.msgs msg).answersMsg = none) : Rooted after := by
  constructor
  · intro msg small answered refers
    by_cases old : msg < s.nextMsg
    · rw [grows.answersMsg old] at refers
      rw [grows.type old]
      exact rooted.answers msg old answered refers
    · exact created msg small (Nat.le_of_not_lt old) answered refers
  · intro pt msg member
    rcases headers pt msg member with earlier | ⟨old, request⟩
    · have old := (wellScoped.tables.pts pt).headers msg earlier
      rw [grows.type old]
      exact rooted.headers pt msg earlier
    · rw [grows.type old]
      exact request
  · intro nid vn msg member
    rcases mailbox nid vn msg member with earlier | copy
    · have old := (wellScoped.tables.nodes nid).nicTxMailbox vn msg earlier
      rw [grows.initiator old, grows.answersMsg old]
      exact rooted.mailbox nid vn msg earlier
    · exact copy

/-- The messages which operations allocate. -/
theorem created {op : Op} {new : List Op} (within : op.Within s.bounds)
    (opShaped : op.Shaped s self) (phase : Phase sys self s op after new) :
    ∀ msg < after.nextMsg, s.nextMsg ≤ msg → ∀ answered,
      (after.msgs msg).answersMsg = some answered →
        (after.msgs msg).type.isRequest = false := by
  intro msg small large answered refers
  rcases phase.creates within with same | ⟨message, creates, next, fixed⟩
  · exact absurd (same ▸ small) (not_lt.mpr large)
  · have equal : msg = s.nextMsg :=
      Nat.le_antisymm (Nat.lt_succ_iff.mp (lt_of_lt_of_eq small next)) large
    subst equal
    have fresh := fresh_of_fixed fixed
    rw [fresh.answersMsg] at refers
    rw [fresh.type]
    cases creates with
    | ack slow =>
        obtain ⟨target, request, rfl | rfl⟩ := opShaped
        · rfl
        · rfl
    | bxiAck => rfl
    | response fail request responds => cases refers
    | copy => cases refers

/-- Only the handling of a request adds an unexpected header. -/
theorem arriving {op : Op} {new : List Op} (within : op.Within s.bounds)
    (phase : Phase sys self s op after new) :
    ∀ pt, ∀ msg ∈ (after.pts pt).unexpectedHeaders,
      msg ∈ (s.pts pt).unexpectedHeaders ∨
        msg < s.nextMsg ∧ (s.msgs msg).type.isRequest = true := by
  have pairs := phase.pairs within
  intro pt msg member
  by_cases handles : ∃ other, op = .handle other
  · obtain ⟨other, rfl⟩ := handles
    cases phase with
    | @matched _ table list me fail kind effects stop type fresh found memory
        later stops =>
        have arrives := arrives_deposit within table list me fail kind stop
          memory.pairs
        rw [arrives.headers] at member
        split at member
        · rcases List.mem_append.mp member with earlier | this
          · exact .inl earlier
          · rw [List.mem_singleton.mp this]
            refine .inr ⟨within, ?_⟩
            rw [type]
            exact ReqType.isRequest_msgType kind
        · exact .inl member
    | respondUnmatched type fetches fresh absent =>
        rcases fetches with rfl | rfl
        · exact .inl member
        · exact .inl member
    | _ => exact .inl member
  · cases pairs with
    | shrink idle nothing shrinks =>
        rw [shrinks.headers] at member
        exact .inl member
    | @arrive other _ _ _ _ _ => exact absurd ⟨other, rfl⟩ handles
    | insert scanned =>
        rw [appendInsert_headers] at member
        exact .inl member
    | stop => exact .inl member
    | @overflow me index position header matched found deposited =>
        by_cases here : pt = (s.mes me).pt
        · subst here
          simp only [State.emit, State.modPt, State.modMe,
            Function.update_self] at member
          exact .inl (List.mem_of_mem_eraseIdx member)
        · simp only [State.emit, State.modPt, State.modMe,
            Function.update_of_ne here] at member
          exact .inl member
    | consumed => exact .inl member

/-- What is put in a mailbox is a copy. -/
theorem unread (wellScoped : WellScoped s) {op : Op} {new : List Op}
    (within : op.Within s.bounds) (opShaped : op.Shaped s self)
    (phase : Phase sys self s op after new) (running : after.halted = none) :
    ∀ nid vn, ∀ msg ∈ after.traffic.mailbox nid vn,
      msg ∈ s.traffic.mailbox nid vn ∨
        (after.msgs msg).initiator = nid ∧
          (after.msgs msg).answersMsg = none := by
  intro nid vn msg member
  have carries := phase.carries within
  have small : msg < after.nextMsg :=
    ((phase.allocated wellScoped.tables within).nodes nid).nicTxMailbox vn msg
      member
  have kept : after.traffic.mailbox = s.traffic.mailbox →
      msg ∈ s.traffic.mailbox nid vn ∨
        (after.msgs msg).initiator = nid ∧
          (after.msgs msg).answersMsg = none := by
    intro same
    rw [same] at member
    exact .inl member
  cases carries with
  | @mailbox other _ off traffic log =>
      rw [traffic] at member
      simp only [setQueue_apply] at member
      split at member
      · rename_i here
        obtain ⟨rfl, rfl⟩ := here
        rcases List.mem_append.mp member with earlier | copy
        · exact .inl earlier
        · cases List.mem_singleton.mp copy
          rcases phase.creates within with same | ⟨copy, creates, next, fixed⟩
          · rw [same] at small
            exact absurd small (Nat.lt_irrefl _)
          · have fresh := fresh_of_fixed fixed
            have here := creates.initiator opShaped
            rw [fresh.initiator, fresh.answersMsg]
            cases creates
            exact .inr ⟨here, rfl⟩
      · exact .inl member
  | stop halted => exact absurd running halted
  | init before nothing => exact .inl member
  | still idle nothing traffic silent => exact kept (by rw [traffic])
  | submit traffic log => exact kept (by rw [traffic])
  | retry on traffic log => exact kept (by rw [traffic])
  | enqueue traffic log => exact kept (by rw [traffic])
  | pass passes nothing traffic silent => exact kept (by rw [traffic])
  | park subject refused traffic log => exact kept (by rw [traffic])
  | start traffic log => exact kept (by rw [traffic])
  | push waiting traffic log => exact kept (by rw [traffic])
  | pop waiting traffic log => exact kept (by rw [traffic])

theorem run (rooted : Rooted s) (wellScoped : WellScoped s) {op : Op}
    {new : List Op} (within : op.Within s.bounds)
    (opShaped : op.Shaped s self) (phase : Phase sys self s op after new)
    (running : after.halted = none) : Rooted after := by
  apply rooted.grow wellScoped phase.extends
  · exact created within opShaped phase
  · exact arriving within phase
  · exact unread wellScoped within opShaped phase running

theorem call (rooted : Rooted s) (wellScoped : WellScoped s) {call : Call}
    {new : List Op} (phase : CallPhase sys self s call after new) :
    Rooted after := by
  have traffic := phase.carries.1
  apply rooted.grow wellScoped phase.extends
  · intro msg small large answered refers
    cases phase with
    | @request cmd =>
        have equal : msg = s.nextMsg :=
          Nat.le_antisymm (Nat.lt_succ_iff.mp small) large
        subst equal
        simp [ptlRequest, State.newMsg, newRequestMsg] at refers
    | meUnlink free unlinks =>
        exact absurd (unlinks.nextMsg ▸ small) (not_lt.mpr large)
    | ptFree allocated equality frees =>
        obtain ⟨⟨sameReqs, sameMsgs, stops⟩, sameMes⟩ := frees
        exact absurd small (not_lt.mpr large)
    | _ => exact absurd small (not_lt.mpr large)
  · intro pt msg member
    cases phase.pairs with
    | shrink nothing shrinks =>
        rw [shrinks.headers] at member
        exact .inl member
    | ptAlloc pts mes nextMe log reqs =>
        rw [pts] at member
        by_cases new : pt = s.nextPt
        · simp [new] at member
        · rw [Function.update_of_ne new] at member
          exact .inl member
    | @ptFree ni index freed after allocated pts used nextMe log reqs =>
        rw [pts] at member
        by_cases here : pt = freed
        · simp [here] at member
        · rw [Function.update_of_ne here] at member
          exact .inl member
    | appendPriority allocated => exact .inl member
    | appendOverflow allocated =>
        rw [appendInsert_headers] at member
        exact .inl member
  · intro nid vn msg member
    rw [traffic] at member
    exact .inl member

theorem advances (rooted : Rooted s) (wellScoped : WellScoped s)
    (shaped : Shaped sys s) {index : ThreadId} {label : Label}
    (advances : Advances sys s index label after)
    (running : after.halted = none) : Rooted after := by
  cases advances with
  | dangling dead owner => cases running
  | @run self op rest new after found alive phase =>
      have member := List.mem_of_getElem? found
      have kept := rooted.run wellScoped
        (wellScoped.ops _ member _ List.mem_cons_self)
        (shaped.ops _ member _ List.mem_cons_self) phase running
      exact { kept with }
  | recv found target queued => exact { rooted with }
  | @take self msg rest found initiator queued =>
      have kept : Rooted (s.popTx self.nid self.vn) := by
        refine { rooted with mailbox := ?_ }
        intro nid vn other member
        rw [s.traffic_take queued] at member
        exact rooted.mailbox nid vn other member
      exact { kept with }
  | @wake self msg rest found e2e alive queued =>
      have traffic : (s.popE2e self.nid).traffic = _ :=
        s.traffic_e2e self.nid List.tail
      have kept : Rooted (s.popE2e self.nid) := by
        refine { rooted with mailbox := ?_ }
        intro nid vn other member
        rw [traffic] at member
        exact rooted.mailbox nid vn other member
      exact { kept with }
  | call found user owned alive phase =>
      exact { rooted.call wellScoped phase with }

end Steps

end Rooted

section Runs

variable {sys : Sys} {s : State}

theorem ReachedBy.rooted {allowed : State → Label → Prop}
    (reached : ReachedBy sys allowed s) (running : s.halted = none) :
    Rooted s := by
  let Along (state : State) : Prop := state.halted = none → Rooted state
  have along : Along s := by
    refine reached.invariant_of_reached ?_ ?_
    · intro _
      constructor
      · intro msg small
        exact absurd small (Nat.not_lt_zero msg)
      · intro pt msg member
        cases member
      · intro nid vn msg member
        cases member
    · intro before after label earlier rooted _ stepped running
      exact (rooted (step_enabled stepped).1).advances
        (ReachedBy.wellScoped earlier) (ReachedBy.shaped earlier)
        (step_advances stepped) running
  exact along running

/-- At rest a message is held where it will stay. -/
theorem State.Quiescent.holders (quiescent : s.Quiescent) (msg : MsgId) :
    s.holders msg =
      mailed s.traffic.mailbox (s.msgs msg).initiator msg + s.headed msg := by
  have hands : ∀ nid vn, s.hands nid vn = [] := by
    intro nid vn
    rw [List.eq_nil_iff_forall_not_mem]
    intro held member
    obtain ⟨thread, threadMember, op, pends, _⟩ := mem_gather.mp member
    rw [quiescent.idle thread threadMember] at pends
    cases pends
  have parked : ∀ nid vn, s.parked nid vn = [] := by
    intro nid vn
    unfold State.parked
    rw [quiescent.waiting, List.drop_nil]
  unfold State.holders
  rw [quiescent.pending_eq_zero]
  simp [mailed, quiescent.tx, hands, parked, quiescent.rx, quiescent.e2e]

theorem State.Quiescent.held (quiescent : s.Quiescent) {msg : MsgId}
    (holds : 0 < s.holders msg) :
    (∃ pt < s.nextPt, msg ∈ (s.pts pt).unexpectedHeaders) ∨
      ∃ vn, msg ∈ (s.nodes (s.msgs msg).initiator).nicTxMailbox vn := by
  rw [quiescent.holders] at holds
  by_cases headed : 0 < s.headed msg
  · exact .inl (State.headed_pos_iff.mp headed)
  · right
    by_contra nowhere
    have nothing : mailed s.traffic.mailbox (s.msgs msg).initiator msg = 0 :=
      mailed_eq_zero fun vn member => nowhere ⟨vn, member⟩
    omega

/-- Whether a message waits in the unexpected headers, or in a mailbox which no
NIC initiator reads. -/
def State.Kept (s : State) (msg : MsgId) : Prop :=
  (∃ pt < s.nextPt, msg ∈ (s.pts pt).unexpectedHeaders) ∨
    ∃ nid vn, msg ∈ (s.nodes nid).nicTxMailbox vn

theorem live_at_rest (reached : ReachedBy sys (Careful sys) s)
    (running : s.halted = none) (quiescent : s.Quiescent) {msg : MsgId}
    (old : msg < s.nextMsg) : (s.msgs msg).live = true ↔ s.Kept msg := by
  have counted := ReachedBy.wellCounted reached running
  have rooted := ReachedBy.rooted reached running
  have live : (s.cells msg).live = (s.msgs msg).live := by
    rw [State.cells_old old]
    rfl
  rw [← live]
  constructor
  · intro alive
    -- what is held answers nothing
    have leaves : ∀ root, 0 < s.holders root →
        (s.cells root).child = none := by
      intro root holds
      have small := counted.inside root (counted.live_of_held holds)
      rw [State.cells_old small]
      cases refers : (s.msgs root).answersMsg with
      | none => exact refers
      | some answered =>
          have other := rooted.answers root small answered refers
          rcases quiescent.held holds with ⟨pt, inside, member⟩ |
            ⟨vn, member⟩
          · rw [rooted.headers pt root member] at other
            cases other
          · rw [(rooted.mailbox _ vn root member).2] at refers
            cases refers
    rcases quiescent.held (counted.held_of_live leaves alive) with header |
      ⟨vn, member⟩
    · exact .inl header
    · exact .inr ⟨_, vn, member⟩
  · intro waits
    apply counted.live_of_held
    rw [quiescent.holders]
    rcases waits with ⟨pt, inside, member⟩ | ⟨nid, vn, member⟩
    · have header := State.headed_pos_iff.mpr ⟨pt, inside, member⟩
      omega
    · have waiting : msg ∈ s.traffic.mailbox nid vn := member
      have mailed := mailed_pos waiting
      rw [(rooted.mailbox nid vn msg member).1]
      omega

/-- Nothing leaks: at rest the messages which are alive are those which wait in
the unexpected headers or in an unread mailbox, and the requests which are alive
are theirs. -/
theorem nothing_leaks (reached : ReachedBy sys (Careful sys) s)
    (running : s.halted = none) (quiescent : s.Quiescent) :
    (∀ msg < s.nextMsg, (s.msgs msg).live = true ↔ s.Kept msg) ∧
      ∀ req < s.nextReq, (s.reqs req).live = true ↔
        ∃ msg < s.nextMsg, s.reqOf msg = req ∧ s.Kept msg := by
  have messages : ∀ msg < s.nextMsg,
      (s.msgs msg).live = true ↔ s.Kept msg :=
    fun msg old => live_at_rest reached running quiescent old
  refine ⟨messages, ?_⟩
  intro req old
  rw [(ReachedBy.tallied reached).live_iff old]
  constructor
  · intro alive
    obtain ⟨msg, small, live, parent⟩ := alive
    exact ⟨msg, small, parent, (messages msg small).mp live⟩
  · intro waits
    obtain ⟨msg, small, parent, kept⟩ := waits
    exact ⟨msg, small, (messages msg small).mpr kept, parent⟩

end Runs

/-- Two unexpected Puts, one of which is then taken by an append. -/
def takenPut : List Label :=
  prologue ++ appends { start := 2000, length := 100, ignoreBits := 255 }
      .overflow :: runs 6 2 ++
    puts .noAckReq 1 :: runs 0 3 ++ .take 1 :: runs 1 8 ++
    .recv 9 0 :: runs 9 5 ++
    puts .noAckReq 2 :: runs 0 3 ++ .take 1 :: runs 1 8 ++
    .recv 9 0 :: runs 9 5 ++
    appends { start := 3000, length := 100, matchBits := 1 } .priority ::
      runs 6 7

theorem taken_put_is_freed :
    ∃ s, ReachedBy (twoNodes {} {}) (Careful (twoNodes {} {})) s ∧
      (∃ msg < s.nextMsg, s.reqOf msg = 1 ∧ s.Kept msg) ∧
      ¬∃ msg < s.nextMsg, s.reqOf msg = 0 ∧ s.Kept msg := by
  obtain ⟨s, reached, holds⟩ := reachedBy_of_executes (twoNodes {} {})
    (Careful (twoNodes {} {})) takenPut
    (fun s => s.halted.isNone && s.rests && decide (s.nextReq = 2) &&
      (s.reqs 1).live && !(s.reqs 0).live) (by decide +kernel)
  simp only [Bool.and_eq_true, Option.isNone_iff_eq_none, decide_eq_true_eq,
    Bool.not_eq_true'] at holds
  obtain ⟨⟨⟨⟨running, rests⟩, two⟩, alive⟩, freed⟩ := holds
  have quiescent := State.Quiescent.of_rests reached.anything rests
  have leaks := nothing_leaks reached running quiescent
  have first := leaks.2 0 (two ▸ Nat.two_pos)
  have second := leaks.2 1 (two ▸ Nat.one_lt_two)
  refine ⟨s, reached, second.mp alive, ?_⟩
  intro kept
  rw [first.mpr kept] at freed
  cases freed

end S4BXI
