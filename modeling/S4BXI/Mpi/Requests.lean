import Mathlib.Data.Finset.Basic
import S4BXI.Lib.Transition
import S4BXI.Portals.Objects

/-!
# Requests of two MPI implementations

The middleware forwards each MPI call to SMPI or to Bull's library, and keeps
the set `smpi_requests` of the requests of SMPI.  The entry points choose the
implementation and maintain the set in different ways.  Of the libraries the
model has which requests exist, and which ones a call completes.
-/

namespace S4BXI

open Lib

/-- `MPI_Request`.  `MPI_REQUEST_NULL` of SMPI is 0. -/
abbrev MpiHandle := Nat

/-- The main actors, each with its `MPI_REQUEST_NULL` of Bull's library. -/
structure MpiActors where
  actors : List ThreadId
  bullNull : ThreadId → MpiHandle
  bullNull_ne : ∀ actor, bullNull actor ≠ 0

/-- A request which has been created and not been freed by its library. -/
structure MpiRequest where
  smpi : Bool
  persistent : Bool
  deriving DecidableEq

/-- A call of the middleware by an application.  What the library answers is
part of it: the handle of a new request, and which requests were completed.
An `index` is `none` for `MPI_UNDEFINED`. -/
inductive MpiCall where
  /-- `s4bxi_use_smpi_implem`. -/
  | useSmpiImplem (value : Bool)
  /-- `Isend`, `Irecv`, the `_init` functions and the nonblocking
  collectives. -/
  | create (persistent : Bool) (request : MpiHandle)
  | test (request : MpiHandle) (flag : Bool)
  | testany (requests : List MpiHandle) (flag : Bool) (index : Option Nat)
  | testall (requests : List MpiHandle) (flag : Bool)
  | wait (request : MpiHandle)
  | waitany (requests : List MpiHandle) (index : Option Nat)
  | waitall (requests : List MpiHandle)
  | waitsome (requests : List MpiHandle) (indices : List Nat)
  | cancel (request : MpiHandle)
  | start (request : MpiHandle)
  | startall (requests : List MpiHandle)
  | requestFree (request : MpiHandle)

/-- What cannot be undone: a request handed to the other implementation, or a
read outside an array. -/
inductive Mishap where
  | misdirected | outOfBounds
  deriving DecidableEq

structure Middleware where
  useSmpiImplem : ThreadId → Bool := fun _ => false
  smpiRequests : Finset MpiHandle := ∅
  live : MpiHandle → Option MpiRequest := fun _ => none
  mishap : Option Mishap := none

/-- What an entry point does: the implementation it forwards the call to, the
handles it erases from `smpi_requests`, and whether it stays within its
arrays. -/
structure Forwarding where
  smpi : Bool
  erased : List MpiHandle := []
  inBounds : Bool := true

/-! ## The entry points -/

section

variable (d : MpiActors) (s : Middleware) (actor : ThreadId)

def isSmpiRequest (request : MpiHandle) : Bool :=
  if request = 0 then true
  else if request = d.bullNull actor then false
  else decide (request ∈ s.smpiRequests)

/-- `S4BXI_MPI_ONE_IMPLEM`, for `Waitsome`, `Start`, `Startall` and
`Request_free`. -/
def oneImplem : Forwarding := { smpi := s.useSmpiImplem actor }

def mpiTest (request : MpiHandle) (flag : Bool) : Forwarding :=
  let smpi := isSmpiRequest d s actor request
  { smpi := smpi, erased := if flag && smpi then [request] else [] }

/-- `req_backup` of a request. -/
def reqBackup (request : MpiHandle) : MpiHandle :=
  if isSmpiRequest d s actor request then request else 0

/-- The loop of `Testany` and `Testall` over `req_backup`. -/
def anySmpi (requests : List MpiHandle) : Bool :=
  requests.any fun request => reqBackup d s actor request ≠ 0

def mpiTestany (requests : List MpiHandle) (flag : Bool)
    (index : Option Nat) : Forwarding :=
  let smpi := anySmpi d s actor requests
  if flag then
    match index.bind (requests[·]?) with
    | none => { smpi := smpi, inBounds := false }
    | some request =>
        let backup := reqBackup d s actor request
        { smpi := smpi, erased := if backup ≠ 0 then [backup] else [] }
  else
    { smpi := smpi }

/-- An entry of the array after `Testall`: the null handle of the library in
place of a request which it freed. -/
def afterTestall (smpi flag : Bool) (request : MpiHandle) : MpiHandle :=
  match s.live request with
  | some ⟨_, false⟩ =>
      if flag then (if smpi then 0 else d.bullNull actor) else request
  | _ => request

def mpiTestall (requests : List MpiHandle) (flag : Bool) : Forwarding :=
  let smpi := anySmpi d s actor requests
  { smpi := smpi
    erased := (requests.filter fun request =>
      afterTestall d s actor smpi flag request = 0 &&
        reqBackup d s actor request ≠ 0).map (reqBackup d s actor) }

def mpiWait (request : MpiHandle) : Forwarding :=
  let smpi := isSmpiRequest d s actor request
  { smpi := smpi, erased := if smpi && request ≠ 0 then [request] else [] }

def mpiWaitany (requests : List MpiHandle) : Forwarding :=
  match requests with
  | [] => { smpi := false, inBounds := false }
  | first :: _ => { smpi := isSmpiRequest d s actor first }

/-- The implementation of the first request is computed and not used. -/
def mpiWaitall (requests : List MpiHandle) : Forwarding :=
  { smpi := s.useSmpiImplem actor
    erased := requests.filter fun request => request ≠ 0
    inBounds := !requests.isEmpty }

def mpiCancel (request : MpiHandle) : Forwarding :=
  { smpi := isSmpiRequest d s actor request }

/-- What the middleware does for a call. -/
def forwarding : MpiCall → Forwarding
  | .test request flag => mpiTest d s actor request flag
  | .testany requests flag index => mpiTestany d s actor requests flag index
  | .testall requests flag => mpiTestall d s actor requests flag
  | .wait request => mpiWait d s actor request
  | .waitany requests _ => mpiWaitany d s actor requests
  | .waitall requests => mpiWaitall s actor requests
  | .cancel request => mpiCancel d s actor request
  | .useSmpiImplem _ | .create _ _ | .waitsome _ _ | .start _ | .startall _
  | .requestFree _ => oneImplem s actor

end

/-! ## The libraries -/

namespace MpiCall

/-- The requests of a call. -/
def requests : MpiCall → List MpiHandle
  | .useSmpiImplem _ | .create _ _ => []
  | .test request _ | .wait request | .cancel request | .start request
  | .requestFree request => [request]
  | .testany requests _ _ | .testall requests _ | .waitany requests _
  | .waitall requests | .waitsome requests _ | .startall requests => requests

/-- The requests which a call completes. -/
def completed : MpiCall → List MpiHandle
  | .test request flag => if flag then [request] else []
  | .testany requests flag index =>
      if flag then (index.bind (requests[·]?)).toList else []
  | .testall requests flag => if flag then requests else []
  | .wait request => [request]
  | .waitany requests index => (index.bind (requests[·]?)).toList
  | .waitall requests => requests
  | .waitsome requests indices => indices.filterMap (requests[·]?)
  | .useSmpiImplem _ | .create _ _ | .cancel _ | .start _ | .startall _
  | .requestFree _ => []

end MpiCall

namespace Middleware

variable (d : MpiActors) (s : Middleware) (actor : ThreadId)

/-- The library frees a completed request which is not persistent, and what
`Request_free` names. -/
def frees (call : MpiCall) (request : MpiHandle) : Bool :=
  match call with
  | .requestFree freed => freed = request
  | call =>
      request ∈ call.completed &&
        (s.live request).any fun r => !r.persistent

/-- The requests of a call exist or are null, and one implementation created
them. -/
def Proper (call : MpiCall) : Prop :=
  (∀ request ∈ call.requests, request = 0 ∨ request = d.bullNull actor ∨
    (s.live request).isSome) ∧
  ∀ first ∈ call.requests, ∀ second ∈ call.requests,
    ∀ r ∈ s.live first, ∀ r' ∈ s.live second, r.smpi = r'.smpi

instance (call : MpiCall) : Decidable (s.Proper d actor call) :=
  inferInstanceAs (Decidable (_ ∧ _))

/-- All requests of a call belong to an implementation. -/
def Owned (call : MpiCall) (smpi : Bool) : Prop :=
  ∀ request ∈ call.requests, ∀ r ∈ s.live request, r.smpi = smpi

instance (call : MpiCall) (smpi : Bool) : Decidable (s.Owned call smpi) :=
  inferInstanceAs (Decidable (∀ request ∈ call.requests, _))

/-- A call which is neither a switch nor a creation. -/
def serve (call : MpiCall) : Middleware :=
  let served := forwarding d s actor call
  if ¬s.Owned call served.smpi then
    { s with mishap := some .misdirected }
  else if ¬served.inBounds then
    { s with mishap := some .outOfBounds }
  else
    { s with
      smpiRequests := s.smpiRequests.filter fun request =>
        request ∉ served.erased
      live := fun request =>
        if s.frees call request then none else s.live request }

/-- A new request, with a handle which no other request has. -/
def createRequest (persistent : Bool) (request : MpiHandle) : Middleware :=
  let smpi := (oneImplem s actor).smpi
  { s with
    smpiRequests :=
      if smpi then insert request s.smpiRequests else s.smpiRequests
    live := Function.update s.live request (some ⟨smpi, persistent⟩) }

end Middleware

/-- A call of an actor. -/
def mpiStep (d : MpiActors) (s : Middleware) (label : ThreadId × MpiCall) :
    Option Middleware :=
  let actor := label.1
  if s.mishap = none ∧ actor ∈ d.actors ∧ s.Proper d actor label.2 then
    match label.2 with
    | .useSmpiImplem value =>
        some
          { s with
            useSmpiImplem := Function.update s.useSmpiImplem actor value }
    | .create persistent request =>
        if request ≠ 0 ∧ (∀ other ∈ d.actors, request ≠ d.bullNull other) ∧
            s.live request = none then
          some (s.createRequest actor persistent request)
        else
          none
    | call => some (s.serve d actor call)
  else
    none

/-! ## The set of the requests of SMPI -/

namespace Middleware

/-- `smpi_requests` has exactly the requests of SMPI which exist. -/
def Exact (s : Middleware) : Prop :=
  ∀ request, request ∈ s.smpiRequests ↔
    ∃ r, s.live request = some r ∧ r.smpi = true

/-- Exact so far, with no request at a null handle. -/
structure Tracked (d : MpiActors) (s : Middleware) : Prop where
  exact : s.Exact
  nonnull : ∀ {request r}, s.live request = some r →
    request ≠ 0 ∧ ∀ actor ∈ d.actors, request ≠ d.bullNull actor

/-- What a call needs.  Switches, creations, `Cancel` and `Testall` need
nothing. -/
def Suits (d : MpiActors) (s : Middleware) (actor : ThreadId)
    (call : MpiCall) : Prop :=
  match call with
  | .useSmpiImplem _ | .create _ _ | .cancel _ | .testall _ _ => True
  | .test request flag => flag = true → s.live request ≠ some ⟨true, true⟩
  | .testany requests flag index => flag = true →
      ∃ request, index.bind (requests[·]?) = some request ∧
        s.live request ≠ some ⟨true, true⟩
  | .wait request => s.live request ≠ some ⟨true, true⟩
  | .waitany requests _ =>
      (∃ first rest, requests = first :: rest ∧
        s.Owned call (isSmpiRequest d s actor first)) ∧
      ∀ request ∈ call.completed, s.live request ≠ some ⟨true, false⟩
  | .waitall requests =>
      requests ≠ [] ∧ s.Owned call (s.useSmpiImplem actor) ∧
      ∀ request ∈ requests, s.live request ≠ some ⟨true, true⟩
  | .waitsome _ _ =>
      s.Owned call (s.useSmpiImplem actor) ∧
      ∀ request ∈ call.completed, s.live request ≠ some ⟨true, false⟩
  | .start _ | .startall _ => s.Owned call (s.useSmpiImplem actor)
  | .requestFree request =>
      s.Owned call (s.useSmpiImplem actor) ∧
      ∀ r, s.live request = some r → r.smpi = false

/-- A call goes to the owner of its requests, and the handles erased are those
of the SMPI requests which the library frees. -/
def Right (d : MpiActors) (s : Middleware) (actor : ThreadId)
    (call : MpiCall) : Prop :=
  s.Owned call (forwarding d s actor call).smpi ∧
  (forwarding d s actor call).inBounds = true ∧
  ∀ request r, s.live request = some r → r.smpi = true →
    (request ∈ (forwarding d s actor call).erased ↔
      s.frees call request = true)

variable {d : MpiActors} {s after : Middleware} {actor : ThreadId}
  {call : MpiCall}

theorem tracked_initial : Tracked d {} :=
  ⟨by simp [Exact], by simp⟩

/-- Serving a call keeps the set exact exactly when it is served right. -/
theorem serve_exact_iff (exact : s.Exact) (fine : s.mishap = none) :
    ((s.serve d actor call).mishap = none ∧ (s.serve d actor call).Exact) ↔
      s.Right d actor call := by
  unfold serve Right
  by_cases owned : s.Owned call (forwarding d s actor call).smpi
  swap
  · simp [owned]
  by_cases bounds : (forwarding d s actor call).inBounds = true
  swap
  · simp [owned, bounds]
  simp only [owned, bounds, not_true_eq_false, if_false, fine, true_and]
  constructor
  · intro next request r live smpi
    have known := (exact request).mpr ⟨r, live, smpi⟩
    have later := next request
    simp only [Finset.mem_filter, known, true_and, live] at later
    by_cases freed : s.frees call request = true
    · rw [if_pos freed] at later
      simpa [freed] using later
    · rw [if_neg freed] at later
      simpa [freed, smpi] using later
  · intro right request
    simp only [Finset.mem_filter, exact request]
    constructor
    · rintro ⟨⟨r, live, smpi⟩, stays⟩
      have kept := mt (right request r live smpi).mpr stays
      exact ⟨r, by rw [if_neg kept, live], smpi⟩
    · rintro ⟨r, live, smpi⟩
      split at live
      · cases live
      · rename_i kept
        exact ⟨⟨r, live, smpi⟩, mt (right request r live smpi).mp kept⟩

theorem Tracked.serve (tracked : s.Tracked d)
    (exact : (s.serve d actor call).Exact) :
    (s.serve d actor call).Tracked d := by
  refine ⟨exact, ?_⟩
  intro request r live
  unfold Middleware.serve at live
  dsimp only at live
  split at live
  · exact tracked.nonnull live
  · split at live
    · exact tracked.nonnull live
    · dsimp only at live
      split at live
      · cases live
      · exact tracked.nonnull live

/-- The set tells whose a request is. -/
theorem Tracked.isSmpiRequest_eq (tracked : s.Tracked d)
    (member : actor ∈ d.actors) {request : MpiHandle} {r : MpiRequest}
    (live : s.live request = some r) :
    isSmpiRequest d s actor request = r.smpi := by
  obtain ⟨nonzero, other⟩ := tracked.nonnull live
  rw [isSmpiRequest, if_neg nonzero, if_neg (other actor member)]
  cases smpi : r.smpi with
  | true => exact decide_eq_true ((tracked.exact request).mpr ⟨r, live, smpi⟩)
  | false =>
      apply decide_eq_false
      intro known
      obtain ⟨r', live', smpi'⟩ := (tracked.exact request).mp known
      rw [live] at live'
      cases live'
      rw [smpi] at smpi'
      cases smpi'

theorem Tracked.reqBackup_eq (tracked : s.Tracked d)
    (member : actor ∈ d.actors) {request : MpiHandle} {r : MpiRequest}
    (live : s.live request = some r) :
    reqBackup d s actor request = if r.smpi then request else 0 := by
  rw [reqBackup, tracked.isSmpiRequest_eq member live]

/-- A backup which is not null is a request of SMPI. -/
theorem Tracked.reqBackup_ne (tracked : s.Tracked d) {request : MpiHandle}
    (some' : reqBackup d s actor request ≠ 0) :
    ∃ r, s.live request = some r ∧ r.smpi = true := by
  unfold reqBackup at some'
  split at some'
  · rename_i smpi
    unfold isSmpiRequest at smpi
    rw [if_neg some'] at smpi
    split at smpi
    · cases smpi
    · exact (tracked.exact request).mp (of_decide_eq_true smpi)
  · exact absurd rfl some'

theorem reqBackup_self {request : MpiHandle}
    (some' : reqBackup d s actor request ≠ 0) :
    reqBackup d s actor request = request := by
  unfold reqBackup at some' ⊢
  split
  · rfl
  · rename_i foreign
    rw [if_neg foreign] at some'
    exact absurd rfl some'

/-- What the library frees for a call other than `Request_free`. -/
def FreesCompleted (s : Middleware) (call : MpiCall) : Prop :=
  ∀ request, s.frees call request = (decide (request ∈ call.completed) &&
    (s.live request).any fun r => !r.persistent)

/-- Erasing what is completed is right unless it is persistent. -/
theorem right_iff_transient
    (owned : s.Owned call (forwarding d s actor call).smpi)
    (bounds : (forwarding d s actor call).inBounds = true)
    (freed : s.FreesCompleted call)
    (same : ∀ request r, s.live request = some r → r.smpi = true →
      (request ∈ (forwarding d s actor call).erased ↔
        request ∈ call.completed)) :
    s.Right d actor call ↔
      ∀ request ∈ call.completed, s.live request ≠ some ⟨true, true⟩ := by
  constructor
  · rintro ⟨-, -, right⟩ request done live
    have listed := (same request _ live rfl).mpr done
    have free := (right request _ live rfl).mp listed
    rw [freed, live] at free
    simp at free
  · intro suits
    refine ⟨owned, bounds, ?_⟩
    rintro request ⟨smpi, persistent⟩ live rfl
    rw [freed, live, same request _ live rfl]
    cases persistent with
    | false => simp
    | true =>
        have absent : request ∉ call.completed := fun done =>
          suits request done live
        simp [absent]

/-- Erasing nothing is right unless a request which is not persistent is
completed. -/
theorem right_iff_persistent
    (owned : s.Owned call (forwarding d s actor call).smpi)
    (bounds : (forwarding d s actor call).inBounds = true)
    (freed : s.FreesCompleted call)
    (nothing : (forwarding d s actor call).erased = []) :
    s.Right d actor call ↔
      ∀ request ∈ call.completed, s.live request ≠ some ⟨true, false⟩ := by
  constructor
  · rintro ⟨-, -, right⟩ request done live
    have free := right request _ live rfl
    rw [freed, live, nothing] at free
    simp [done] at free
  · intro suits
    refine ⟨owned, bounds, ?_⟩
    rintro request ⟨smpi, persistent⟩ live rfl
    rw [freed, live, nothing]
    cases persistent with
    | true => simp
    | false =>
        have absent : request ∉ call.completed := fun done =>
          suits request done live
        simp [absent]

/-- `Testany` and `Testall` find the owner of their requests. -/
theorem Tracked.owned_anySmpi (tracked : s.Tracked d)
    (member : actor ∈ d.actors) (proper : s.Proper d actor call) :
    s.Owned call (anySmpi d s actor call.requests) := by
  intro request inside r live
  cases smpi : r.smpi with
  | true =>
      have backup := tracked.reqBackup_eq member live
      rw [smpi, if_pos rfl] at backup
      symm
      apply List.any_eq_true.mpr
      refine ⟨request, inside, decide_eq_true ?_⟩
      rw [backup]
      exact (tracked.nonnull live).1
  | false =>
      symm
      apply List.any_eq_false.mpr
      intro other inside' backup
      obtain ⟨r', live', smpi'⟩ :=
        tracked.reqBackup_ne (of_decide_eq_true backup)
      have equal := proper.2 request inside other inside' r live r' live'
      rw [smpi, smpi'] at equal
      cases equal

theorem Tracked.owned_single (tracked : s.Tracked d)
    (member : actor ∈ d.actors) {request : MpiHandle}
    (single : call.requests = [request]) :
    s.Owned call (isSmpiRequest d s actor request) := by
  intro other inside r live
  rw [single, List.mem_singleton] at inside
  subst inside
  exact (tracked.isSmpiRequest_eq member live).symm

theorem Tracked.test_right (tracked : s.Tracked d) (member : actor ∈ d.actors)
    (request : MpiHandle) (flag : Bool) :
    s.Right d actor (.test request flag) ↔
      s.Suits d actor (.test request flag) := by
  have owned : s.Owned (.test request flag)
      (isSmpiRequest d s actor request) := tracked.owned_single member rfl
  rw [right_iff_transient owned rfl (fun _ => rfl)]
  · cases flag with
    | false => simp [MpiCall.completed, Suits]
    | true => simp [MpiCall.completed, Suits]
  · intro other r live smpi
    cases flag with
    | false => simp [forwarding, mpiTest, MpiCall.completed]
    | true =>
        by_cases same : other = request
        · subst same
          have known := tracked.isSmpiRequest_eq member live
          simp [forwarding, mpiTest, MpiCall.completed, known, smpi]
        · simp only [forwarding, mpiTest, MpiCall.completed, Bool.true_and,
            if_true, List.mem_singleton, same, iff_false]
          split <;> simp [same]

theorem Tracked.wait_right (tracked : s.Tracked d) (member : actor ∈ d.actors)
    (request : MpiHandle) :
    s.Right d actor (.wait request) ↔ s.Suits d actor (.wait request) := by
  have owned : s.Owned (.wait request) (isSmpiRequest d s actor request) :=
    tracked.owned_single member rfl
  rw [right_iff_transient owned rfl (fun _ => rfl)]
  · simp [MpiCall.completed, Suits]
  · intro other r live smpi
    by_cases same : other = request
    · subst same
      have known := tracked.isSmpiRequest_eq member live
      have nonzero := (tracked.nonnull live).1
      simp [forwarding, mpiWait, MpiCall.completed, known, smpi, nonzero]
    · simp only [forwarding, mpiWait, MpiCall.completed, List.mem_singleton,
        same, iff_false]
      split <;> simp [same]

theorem Tracked.testany_right (tracked : s.Tracked d)
    (member : actor ∈ d.actors) {requests : List MpiHandle} {flag : Bool}
    {index : Option Nat}
    (proper : s.Proper d actor (.testany requests flag index)) :
    s.Right d actor (.testany requests flag index) ↔
      s.Suits d actor (.testany requests flag index) := by
  have owned := tracked.owned_anySmpi member proper
  change s.Owned (.testany requests flag index) (anySmpi d s actor requests)
    at owned
  cases flag with
  | false =>
      rw [right_iff_transient owned rfl (fun _ => rfl)]
      · simp [MpiCall.completed, Suits]
      · intro other r live smpi
        simp [forwarding, mpiTestany, MpiCall.completed]
  | true =>
      cases found : index.bind (requests[·]?) with
      | none =>
          have bounds : ¬(forwarding d s actor
              (.testany requests true index)).inBounds = true := by
            simp [forwarding, mpiTestany, found]
          simp [Right, bounds, Suits, found]
      | some request =>
          have shape : forwarding d s actor (.testany requests true index) =
              { smpi := anySmpi d s actor requests
                erased := if reqBackup d s actor request ≠ 0 then
                  [reqBackup d s actor request] else [] } := by
            simp [forwarding, mpiTestany, found]
          rw [right_iff_transient (by rw [shape]; exact owned)
            (by rw [shape]) (fun _ => rfl)]
          · simp [MpiCall.completed, Suits, found]
          · intro other r live smpi
            rw [shape]
            simp only [MpiCall.completed, found, if_true, Option.toList_some,
              List.mem_singleton]
            constructor
            · intro erased
              split at erased
              · rename_i nonzero
                rw [List.mem_singleton.mp erased]
                exact reqBackup_self nonzero
              · cases erased
            · rintro rfl
              have backup := tracked.reqBackup_eq member live
              rw [smpi, if_pos rfl] at backup
              rw [backup, if_pos (tracked.nonnull live).1]
              exact List.mem_singleton_self _

/-- `Testall` is always right. -/
theorem Tracked.testall_right (tracked : s.Tracked d)
    (member : actor ∈ d.actors) {requests : List MpiHandle} {flag : Bool}
    (proper : s.Proper d actor (.testall requests flag)) :
    s.Right d actor (.testall requests flag) := by
  have owned := tracked.owned_anySmpi member proper
  change s.Owned (.testall requests flag) (anySmpi d s actor requests) at owned
  refine ⟨owned, rfl, ?_⟩
  rintro request ⟨smpi, persistent⟩ live rfl
  have nonzero := (tracked.nonnull live).1
  simp only [forwarding, mpiTestall, frees, MpiCall.completed, live,
    Option.any_some, Bool.and_eq_true, Bool.not_eq_true']
  constructor
  · intro erased
    obtain ⟨other, inside, equal⟩ := List.mem_map.mp erased
    obtain ⟨listed, conditions⟩ := List.mem_filter.mp inside
    obtain ⟨zero, backup⟩ := (Bool.and_eq_true _ _).mp conditions
    have same := reqBackup_self (of_decide_eq_true backup)
    rw [equal] at same
    subst same
    have null := of_decide_eq_true zero
    unfold afterTestall at null
    rw [live] at null
    cases persistent with
    | true => exact absurd null nonzero
    | false =>
        cases flag with
        | false => exact absurd null nonzero
        | true => exact ⟨decide_eq_true listed, rfl⟩
  · rintro ⟨listed, rfl⟩
    cases flag with
    | false => cases of_decide_eq_true listed
    | true =>
        have inside : request ∈ requests := of_decide_eq_true listed
        have toSmpi : anySmpi d s actor requests = true :=
          (owned request inside _ live).symm
        have backup := tracked.reqBackup_eq member live
        rw [if_pos rfl] at backup
        refine List.mem_map.mpr ⟨request, List.mem_filter.mpr ⟨inside, ?_⟩,
          backup⟩
        simp [afterTestall, live, toSmpi, backup, nonzero]

theorem waitany_right {requests : List MpiHandle} {index : Option Nat} :
    s.Right d actor (.waitany requests index) ↔
      s.Suits d actor (.waitany requests index) := by
  cases requests with
  | nil =>
      have bounds : ¬(forwarding d s actor (.waitany [] index)).inBounds =
          true := by
        simp [forwarding, mpiWaitany]
      simp [Right, bounds, Suits]
  | cons first rest =>
      constructor
      · intro right
        refine ⟨⟨first, rest, rfl, right.1⟩, ?_⟩
        exact (right_iff_persistent right.1 rfl (fun _ => rfl) rfl).mp right
      · rintro ⟨⟨first', rest', equal, owned⟩, suits⟩
        cases equal
        exact (right_iff_persistent owned rfl (fun _ => rfl) rfl).mpr suits

theorem Tracked.waitall_right (tracked : s.Tracked d)
    {requests : List MpiHandle} :
    s.Right d actor (.waitall requests) ↔
      s.Suits d actor (.waitall requests) := by
  have same : ∀ request r, s.live request = some r → r.smpi = true →
      (request ∈ (forwarding d s actor (.waitall requests)).erased ↔
        request ∈ (MpiCall.waitall requests).completed) := by
    intro request r live _
    simp [forwarding, mpiWaitall, MpiCall.completed, (tracked.nonnull live).1]
  have bounds : (forwarding d s actor (.waitall requests)).inBounds = true ↔
      requests ≠ [] := by
    simp [forwarding, mpiWaitall]
  constructor
  · intro right
    refine ⟨bounds.mp right.2.1, right.1, ?_⟩
    exact (right_iff_transient right.1 right.2.1 (fun _ => rfl) same).mp right
  · rintro ⟨some', owned, suits⟩
    exact (right_iff_transient owned (bounds.mpr some') (fun _ => rfl)
      same).mpr suits

/-- The functions of `S4BXI_MPI_ONE_IMPLEM` erase nothing. -/
theorem oneImplem_right (plain : forwarding d s actor call = oneImplem s actor)
    (freed : s.FreesCompleted call) :
    s.Right d actor call ↔ s.Owned call (s.useSmpiImplem actor) ∧
      ∀ request ∈ call.completed, s.live request ≠ some ⟨true, false⟩ := by
  have nothing : (forwarding d s actor call).erased = [] := by
    rw [plain]
    rfl
  have bounds : (forwarding d s actor call).inBounds = true := by
    rw [plain]
    rfl
  have target : (forwarding d s actor call).smpi = s.useSmpiImplem actor := by
    rw [plain]
    rfl
  constructor
  · intro right
    refine ⟨target ▸ right.1, ?_⟩
    exact (right_iff_persistent right.1 bounds freed nothing).mp right
  · rintro ⟨owned, suits⟩
    exact (right_iff_persistent (target ▸ owned) bounds freed nothing).mpr
      suits

theorem requestFree_right {request : MpiHandle} :
    s.Right d actor (.requestFree request) ↔
      s.Suits d actor (.requestFree request) := by
  constructor
  · rintro ⟨owned, -, right⟩
    refine ⟨owned, ?_⟩
    intro r live
    cases smpi : r.smpi with
    | false => rfl
    | true =>
        have erased := (right request r live smpi).mpr (by simp [frees])
        cases erased
  · rintro ⟨owned, bull⟩
    refine ⟨owned, rfl, ?_⟩
    intro other r live smpi
    constructor
    · intro erased
      cases erased
    · intro freed
      have equal : request = other := by simpa [frees] using freed
      subst equal
      rw [bull r live] at smpi
      cases smpi

/-- The calls served right are those which meet their condition. -/
theorem Tracked.right_iff (tracked : s.Tracked d) (member : actor ∈ d.actors)
    (proper : s.Proper d actor call)
    (served : ∀ value, call ≠ .useSmpiImplem value)
    (served' : ∀ persistent request, call ≠ .create persistent request) :
    s.Right d actor call ↔ s.Suits d actor call := by
  cases call with
  | useSmpiImplem value => exact absurd rfl (served value)
  | create persistent request => exact absurd rfl (served' persistent request)
  | test request flag => exact tracked.test_right member request flag
  | testany requests flag index => exact tracked.testany_right member proper
  | testall requests flag =>
      exact iff_of_true (tracked.testall_right member proper) trivial
  | wait request => exact tracked.wait_right member request
  | waitany requests index => exact waitany_right
  | waitall requests => exact tracked.waitall_right
  | waitsome requests indices => exact oneImplem_right rfl fun _ => rfl
  | cancel request =>
      have owned : s.Owned (.cancel request)
          (isSmpiRequest d s actor request) := tracked.owned_single member rfl
      refine iff_of_true ?_ trivial
      apply (right_iff_persistent owned rfl (fun _ => rfl) rfl).mpr
      intro other done
      cases done
  | start request =>
      rw [oneImplem_right rfl fun _ => rfl]
      simp [MpiCall.completed, Suits]
  | startall requests =>
      rw [oneImplem_right rfl fun _ => rfl]
      simp [MpiCall.completed, Suits]
  | requestFree request => exact requestFree_right

/-- A new request goes to the implementation in use, which keeps it. -/
theorem Tracked.createRequest (tracked : s.Tracked d) (actor : ThreadId)
    (persistent : Bool) {request : MpiHandle} (nonzero : request ≠ 0)
    (other : ∀ actor ∈ d.actors, request ≠ d.bullNull actor)
    (fresh : s.live request = none) :
    (s.createRequest actor persistent request).Tracked d := by
  have absent : request ∉ s.smpiRequests := by
    intro known
    obtain ⟨r, live, -⟩ := (tracked.exact request).mp known
    rw [fresh] at live
    cases live
  constructor
  · intro place
    unfold Middleware.createRequest oneImplem
    dsimp only
    by_cases same : place = request
    · subst same
      rw [Function.update_self]
      cases mode : s.useSmpiImplem actor with
      | true => simp
      | false => simpa using absent
    · rw [Function.update_of_ne same, ← tracked.exact place]
      split
      · simp [same]
      · exact Iff.rfl
  · intro place r live
    unfold Middleware.createRequest at live
    dsimp only at live
    by_cases same : place = request
    · subst same
      exact ⟨nonzero, other⟩
    · rw [Function.update_of_ne same] at live
      exact tracked.nonnull live

/-- One call from a state with an exact set. -/
theorem Tracked.step (tracked : s.Tracked d)
    {label : ThreadId × MpiCall} (stepped : mpiStep d s label = some after) :
    ((after.mishap = none ∧ after.Exact) ↔ s.Suits d label.1 label.2) ∧
      (after.Exact → after.Tracked d) := by
  obtain ⟨actor, call⟩ := label
  obtain ⟨⟨fine, member, proper⟩, result⟩ :=
    Option.ite_none_right_eq_some.mp stepped
  have served : ∀ (_ : ∀ value, call ≠ .useSmpiImplem value)
      (_ : ∀ persistent request, call ≠ .create persistent request)
      (_ : s.serve d actor call = after),
      ((after.mishap = none ∧ after.Exact) ↔ s.Suits d actor call) ∧
        (after.Exact → after.Tracked d) := by
    intro ordinary ordinary' equal
    subst equal
    refine ⟨?_, tracked.serve⟩
    rw [serve_exact_iff tracked.exact fine]
    exact tracked.right_iff member proper ordinary ordinary'
  cases call with
  | useSmpiImplem value =>
      cases result
      exact ⟨iff_of_true ⟨fine, tracked.exact⟩ trivial,
        fun _ => ⟨tracked.exact, tracked.nonnull⟩⟩
  | create persistent request =>
      obtain ⟨⟨nonzero, other, fresh⟩, equal⟩ :=
        Option.ite_none_right_eq_some.mp result
      cases equal
      have next := tracked.createRequest actor persistent nonzero other fresh
      exact ⟨iff_of_true ⟨fine, next.exact⟩ trivial, fun _ => next⟩
  | _ =>
      apply served
      · simp
      · simp
      · exact Option.some.inj result

end Middleware

/-- A main actor. -/
def oneMpiActor : MpiActors :=
  { actors := [0], bullNull := fun _ => 1, bullNull_ne := fun _ => by decide }

end S4BXI
