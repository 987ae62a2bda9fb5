import S4BXI.Nic.Inversion

/-!
# Where a run may stop

Each operation which stops the simulation, with what it found.
-/

namespace S4BXI

open Lib

/-- The stops of the operations. -/
inductive Stops (sys : Sys) (self : Actor) (s : State) : Op → Halt → Prop where
  | checked {msg reason}
      (checked : ((s.nodes self.nid).checkCredits sys.cfg (s.vnOf msg)
        (flowctrlKey sys s msg)).1 = .panicked reason) :
      Stops sys self s (.processTx msg) (.panic reason)
  | released {nid vn key req reason}
      (released : ((s.nodes nid).releaseCredits sys.cfg vn key).1 =
        some reason) :
      Stops sys self s (.releaseCounts nid vn key req) (.panic reason)
  | emptyDeque {nid vn}
      (waiting : (s.nodes nid).flowctrlWaitingMessages vn = []) :
      Stops sys self s (.resumePop nid vn) (.emptyDeque nid vn)
  | nullCopy {op} : Stops sys self s op (.panic .nullCopy)
  | unanswered {msg} (type : (s.msgs msg).type = .e2eAck)
      (missing : (s.msgs msg).answersMsg = none) :
      Stops sys self s (.handle msg) (.panic .ackWithoutAnswer)
  | unlinked {op me} : Stops sys self s op (.notLinked me)
  | dangling {msg ptr} : Stops sys self s (.unref msg) (.dangling ptr)
  | retries {msg} (beyond : sys.cfg.maxRetries < (s.msgs msg).retryCount) :
      Stops sys self s (.e2eWake msg) (.panic .retryCount)
  | uncopied {me index position header}
      (found : (s.pts (s.mes me).pt).findHeader
        (fun header => s.reqs (s.reqOf header)) (s.mes me) index =
          some (position, header))
      (missing : (s.reqs (s.reqOf header)).matchedMe = none) :
      Stops sys self s (.walkThroughUHs me index)
        (.noMatchedMe (s.reqOf header))

/-- The stops of the API calls. -/
inductive CallStops : Call → Halt → Prop where
  | pidInUse {ni} : CallStops (.niInit ni) (.panic .pidInUse)
  | freed {ni index ptr} : CallStops (.ptFree ni index) (.dangling ptr)
  | unlinked {me other} : CallStops (.meUnlink me) (.notLinked other)

section Steps

variable {sys : Sys} {self : Actor} {s after : State} {halt : Halt}

theorem Unlinks.stopped {me : MeId} (unlinks : Unlinks s me after)
    (halted : after.halted = some halt) :
    s.halted = some halt ∨ halt = .notLinked me := by
  cases unlinks with
  | deferred used => exact .inl halted
  | removed free linked => exact .inl halted
  | notLinked free absent => exact .inr (Option.some.inj halted).symm

theorem Leaves.stopped {me : MeId} {before following : List Op}
    (leaves : Leaves s me after before following)
    (halted : after.halted = some halt) :
    s.halted = some halt ∨ halt = .notLinked me := by
  cases leaves with
  | kept staying => exact .inl halted
  | unlinked eq event leaving unlinks kind => exact unlinks.stopped halted

theorem Drops.stopped (drops : Drops s after)
    (halted : after.halted = some halt) :
    s.halted = some halt ∨ ∃ ptr, halt = .dangling ptr := by
  obtain ⟨sameReqs, sameMsgs, stops⟩ := drops
  rcases stops with kept | ⟨ptr, dangling⟩
  · exact .inl (kept.symm.trans halted)
  · exact .inr ⟨ptr, Option.some.inj (halted.symm.trans dangling)⟩

/-- An operation which stops the simulation does so in one of these ways. -/
theorem Phase.stopped {op : Op} {new : List Op}
    (phase : Phase sys self s op after new)
    (halted : after.halted = some halt) :
    s.halted = some halt ∨ Stops sys self s op halt := by
  have copying : ∀ {stop : Option Halt},
      stop = s.halted ∨ stop = some (.panic .nullCopy) → stop = some halt →
        s.halted = some halt ∨ Stops sys self s op halt := by
    intro stop stops same
    rcases stops with kept | null
    · exact .inl (kept.symm.trans same)
    · cases null.symm.trans same
      exact .inr .nullCopy
  have unlinking : ∀ {me : MeId},
      s.halted = some halt ∨ halt = .notLinked me →
        s.halted = some halt ∨ Stops sys self s op halt := by
    rintro me (kept | rfl)
    · exact .inl kept
    · exact .inr .unlinked
  cases phase with
  | quiet quiet => exact .inl halted
  | creditPanic released =>
      cases halted
      exact .inr (.released (congrArg Prod.fst released))
  | creditsPanic subject checked =>
      cases halted
      exact .inr (.checked (congrArg Prod.fst checked))
  | emptyDeque waiting =>
      cases halted
      exact .inr (.emptyDeque waiting)
  | matched type fresh found memory later stops => exact copying stops halted
  | respondUnmatched type fetches fresh absent =>
      rcases fetches with rfl | rfl
      · exact .inl halted
      · exact .inl halted
  | ackWithoutAnswer type fresh missing =>
      cases halted
      exact .inr (.unanswered type missing)
  | handleBxiAck type fresh answers => exact .inl halted
  | putFinish leaves => exact unlinking (leaves.stopped halted)
  | getFinish memory stops leaves =>
      rcases leaves.stopped halted with kept | rfl
      · exact copying stops kept
      · exact .inr .unlinked
  | atomicEvents leaves => exact unlinking (leaves.stopped halted)
  | fetchAtomicFinish leaves => exact unlinking (leaves.stopped halted)
  | deferredUnlink flagged unlinks => exact unlinking (unlinks.stopped halted)
  | unref equality drops =>
      rcases drops.stopped halted with kept | ⟨ptr, rfl⟩
      · exact .inl kept
      · exact .inr .dangling
  | retransmit pending more =>
      unfold S4BXI.retransmit at halted
      dsimp only at halted
      split at halted
      · exact .inl halted
      · exact .inl halted
  | retryPanic pending beyond =>
      cases halted
      exact .inr (.retries beyond)
  | noMatchedMe found missing =>
      cases halted
      exact .inr (.uncopied found missing)
  | _ => exact .inl halted

theorem CallPhase.stopped {call : Call} {new : List Op}
    (phase : CallPhase sys self s call after new)
    (halted : after.halted = some halt) :
    s.halted = some halt ∨ CallStops call halt := by
  cases phase with
  | pidInUse =>
      cases halted
      exact .inr .pidInUse
  | ptFree taken equality frees =>
      obtain ⟨drops, sameMes⟩ := frees
      rcases drops.stopped halted with kept | ⟨ptr, rfl⟩
      · exact .inl kept
      · exact .inr .freed
  | meUnlink free unlinks =>
      rcases unlinks.stopped halted with kept | rfl
      · exact .inl kept
      · exact .inr .unlinked
  | _ => exact .inl halted

/-- A run which has stopped did so at a dead pointer, in an API call or in an
operation of a reached state. -/
theorem ReachedBy.stopped {allowed : State → Label → Prop}
    (reached : ReachedBy sys allowed s) (halted : s.halted = some halt) :
    (∃ ptr, halt = .dangling ptr) ∨ (∃ call, CallStops call halt) ∨
      ∃ (before : State) (index : ThreadId) (self : Actor) (op : Op)
        (rest : List Op), ReachedBy sys allowed before ∧
          before.halted = none ∧
          before.threads[index]? = some ⟨self, op :: rest⟩ ∧
          Stops sys self before op halt := by
  cases reached with
  | refl => cases halted
  | @tail before _ label earlier permitted stepped =>
      have running := (step_enabled stepped).1
      have fresh : before.halted ≠ some halt := by
        rw [running]
        exact Option.some_ne_none _ ∘ Eq.symm
      have advances := step_advances stepped
      generalize label.thread = index at advances
      cases advances with
      | dangling dead owner =>
          cases halted
          exact .inl ⟨_, rfl⟩
      | run found alive phase =>
          have stops := (phase.stopped halted).resolve_left fresh
          exact .inr (.inr ⟨before, index, _, _, _, earlier, running, found,
            stops⟩)
      | recv found target queued => exact absurd halted fresh
      | take found initiator queued => exact absurd halted fresh
      | wake found e2e alive queued => exact absurd halted fresh
      | call found user owned alive phase =>
          exact .inr (.inl ⟨_, (phase.stopped halted).resolve_left fresh⟩)

end Steps

end S4BXI
