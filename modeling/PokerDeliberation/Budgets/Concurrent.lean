import PokerDeliberation.Budgets.Calls

/-!
# Instances on one run

Any number of store instances work on one run at once. A call is cut at its
accesses to the revision store: the probe of the run's path (`create` only),
`load`, `read_current`, `revisions.publish`, and the second `load` of
`_publish`. Each access is one step on the committed revisions; between two of
them any other instance may take any number of steps. `publish` compares
revision, manifest and pointer, and answers a transaction it has committed
before. A commit carries the number of the call that made it, which no step
reads.
-/

namespace PokerDeliberation.Budgets

open Lib

/-! ## The revision store -/

/-- The fields of a publish request that the store compares or hashes. -/
structure RevisionPublishRequestV1 where
  transactionId : String
  proposedRevision : Nat
  expectedRevision : Option Nat
  expectedManifestSha256 : Option String
  expectedPointerSha256 : Option String
  createdAt : Nat
  state : DurableBudgetStateV1
  deriving DecidableEq, Repr

/-- One committed revision, and the call that committed it. -/
structure Commit where
  request : RevisionPublishRequestV1
  author : Nat
  deriving DecidableEq, Repr

def Commit.state (c : Commit) : DurableBudgetStateV1 := c.request.state

def Commit.revision (c : Commit) : Revision := ⟨c.request.proposedRevision, c.request.state⟩

/-- The digests of the revision store. -/
structure RevisionDigests where
  /-- `_transaction_id` -/
  transactionId : String → String
  transaction : RevisionPublishRequestV1 → String
  manifest : RevisionPublishRequestV1 → String
  pointer : RevisionPublishRequestV1 → String

/-- What `read_current` returns. -/
structure VerifiedStorageRevisionV1 where
  currentRevision : Nat
  manifestSha256 : String
  currentPointerSha256 : String
  deriving DecidableEq, Repr

/-- What one `revisions.publish` meets: the wall clock, a failure before anything
is written, what an interrupted attempt of the transaction left, and a failure
while the revision is written. -/
structure PublishConditions where
  createdAt : Nat
  refused : Option RunStorageFailureCode := none
  orphan : Bool := false
  torn : Option PublishFault := none
  deriving DecidableEq, Repr

/-- The failures that can follow the replacement of the current pointer. -/
def RunStorageFailureCode.mayLand (code : RunStorageFailureCode) : Bool :=
  code ∈ [.effectUnknown, .durabilityUnconfirmed, .runCorrupt, .rootInitializationIncomplete]

section RevisionStore

variable (digests : RevisionDigests) (chain : List Commit)

/-- `read_current`. -/
def readCurrent (fault : Option RunStorageFailureCode) :
    Except RunStorageFailureCode VerifiedStorageRevisionV1 :=
  match fault, chain with
  | some code, _ => .error code
  | none, [] => .error .runIncomplete
  | none, current :: _ =>
    .ok { currentRevision := current.request.proposedRevision
          manifestSha256 := digests.manifest current.request
          currentPointerSha256 := digests.pointer current.request }

/-- `_idempotency_outcome`. -/
def idempotencyOutcome (request : RevisionPublishRequestV1) :
    Except RunStorageFailureCode (Option String) :=
  match chain.find? (·.request.transactionId = request.transactionId) with
  | none => .ok none
  | some committed =>
    if digests.transaction committed.request ≠ digests.transaction request then
      .error .idempotencyConflict
    else if chain.head?.map (·.request.transactionId) = some request.transactionId then
      .ok (some "current_committed")
    else .ok (some "historical_committed")

/-- `_cas_matches`. -/
def casMatches (request : RevisionPublishRequestV1) : Prop :=
  match chain with
  | [] => request.expectedRevision = none ∧ request.expectedManifestSha256 = none ∧
      request.expectedPointerSha256 = none ∧ request.proposedRevision = 1
  | current :: _ => request.expectedRevision = some current.request.proposedRevision ∧
      request.expectedManifestSha256 = some (digests.manifest current.request) ∧
      request.expectedPointerSha256 = some (digests.pointer current.request) ∧
      request.proposedRevision = current.request.proposedRevision + 1

instance (request : RevisionPublishRequestV1) : Decidable (casMatches digests chain request) := by
  unfold casMatches
  split <;> infer_instance

/-- `revisions.publish`: the committed revisions after it, and its outcome kind. -/
def publishRequest (author : Nat) (request : RevisionPublishRequestV1)
    (conditions : PublishConditions) : List Commit × Except RunStorageFailureCode String :=
  match conditions.refused with
  | some code => (chain, .error code)
  | none =>
    match idempotencyOutcome digests chain request with
    | .error code => (chain, .error code)
    | .ok (some kind) => (chain, .ok kind)
    | .ok none =>
      if conditions.orphan then (chain, .ok "reconciliation_required")
      else if casMatches digests chain request then
        match conditions.torn with
        | some { code, landed } =>
          (if landed && code.mayLand then ⟨request, author⟩ :: chain else chain, .error code)
        | none => (⟨request, author⟩ :: chain, .ok "published")
      else (chain, .error .runConflict)

end RevisionStore

/-! ## One call -/

/-- A call under way: its number, what it is, and the clock it observed. -/
structure Flight where
  id : Nat
  call : Call
  observed : Nat

/-- The access to the revision store that is next. -/
inductive Phase where
  | idle
  | probing (f : Flight)
  | loading (f : Flight) (elapsed : Nat)
  | reading (f : Flight) (previous successor : DurableBudgetStateV1)
  | publishing (f : Flight) (expected : Option VerifiedStorageRevisionV1)
    (successor : DurableBudgetStateV1)
  /-- the revision has moved, or the transaction was answered with this outcome -/
  | reloading (f : Flight) (outcome : Option String)

structure Instance where
  clock : ClockTable := {}
  phase : Phase := .idle

/-- An access and what it meets. -/
inductive Access where
  | probe (found : Bool)
  | load (fault : Option RunStorageFailureCode)
  | readCurrent (fault : Option RunStorageFailureCode)
  | publish (conditions : PublishConditions)

abbrev Answer := Except StoreError DurableMutationResultV1

/-- What a step leaves: the instance, the committed revisions, and the call that
returned with its answer. -/
structure Stepped where
  instance_ : Instance
  chain : List Commit
  answer : Option (Flight × Answer) := none

section Calls

variable (sha256 : Payload → String) (digests : RevisionDigests) (runId : String)

def Flight.mutation (f : Flight) : Mutation := f.call.mutation sha256 runId

/-- `raise _map_storage_error(exc, operation_id, run_id)`. -/
def mappedFailure (code : RunStorageFailureCode) (operationId : String) : Answer :=
  raise (storageFailure code operationId)

/-- `_map_storage_error`, the side effect. -/
def ClockTable.afterStorageError (t : ClockTable) (code : RunStorageFailureCode) : ClockTable :=
  if code.uncertain then { t with reconciliationRequired := true } else t

/-- The request `_publish` builds. -/
def publishRequestOf (f : Flight) (expected : Option VerifiedStorageRevisionV1)
    (successor : DurableBudgetStateV1) (createdAt : Nat) : RevisionPublishRequestV1 where
  transactionId := digests.transactionId (f.mutation sha256 runId).operationId
  proposedRevision := successor.generation
  expectedRevision := expected.map (·.currentRevision)
  expectedManifestSha256 := expected.map (·.manifestSha256)
  expectedPointerSha256 := expected.map (·.currentPointerSha256)
  createdAt
  state := successor

namespace Instance

variable (inst : Instance) (chain : List Commit)

/-- The call returns. -/
def answered (clock : ClockTable) (f : Flight) (answer : Answer) : Stepped :=
  { instance_ := { clock, phase := .idle }, chain, answer := some (f, answer) }

def continued (clock : ClockTable) (phase : Phase) : Stepped :=
  { instance_ := { clock, phase }, chain }

/-- The existence of the run's path, which only `create` asks for. -/
def probe (f : Flight) (found : Bool) : Stepped :=
  if found then continued chain inst.clock (.loading f 0)
  else
    match f.call with
    | .create policy operationId =>
      match initialState sha256 runId policy operationId
          (f.mutation sha256 runId).requestSha256 with
      | .error e => answered chain inst.clock f (.error e)
      | .ok state => continued chain inst.clock (.publishing f none state)
    | _ => continued chain inst.clock .idle

/-- The first `load`, the lookup of a recorded operation and the successor. -/
def loadFirst (f : Flight) (elapsed : Nat) (fault : Option RunStorageFailureCode) : Stepped :=
  let m := f.mutation sha256 runId
  match load sha256 runId (chain.map Commit.revision) fault with
  | .error e => answered chain (fault.elim inst.clock inst.clock.afterStorageError) f (.error e)
  | .ok state =>
    match m.precheck >>= fun _ => existingOperation state m with
    | .error e => answered chain inst.clock f (.error e)
    | .ok (some replay) => answered chain inst.clock.replayed f (.ok replay)
    | .ok none =>
      if f.call.isCreate then
        answered chain inst.clock f
          (raise { code := .idempotencyConflict, operationId := m.operationId })
      else
        match m.successor state elapsed with
        | .error e => answered chain inst.clock f (.error e)
        | .ok successor => continued chain inst.clock (.reading f state successor)

/-- `read_current` inside `_publish`. -/
def readBack (f : Flight) (previous successor : DurableBudgetStateV1)
    (fault : Option RunStorageFailureCode) : Stepped :=
  match Budgets.readCurrent digests chain fault with
  | .error code => answered chain (inst.clock.afterStorageError code) f
      (mappedFailure code (f.mutation sha256 runId).operationId)
  | .ok current =>
    if current.currentRevision = previous.generation then
      continued chain inst.clock (.publishing f (some current) successor)
    else continued chain inst.clock (.reloading f none)

/-- `revisions.publish` and what `_publish` does with its outcome. -/
def publishNow (f : Flight) (expected : Option VerifiedStorageRevisionV1)
    (successor : DurableBudgetStateV1) (conditions : PublishConditions) : Stepped :=
  let m := f.mutation sha256 runId
  match publishRequest digests chain f.id
      (publishRequestOf sha256 digests runId f expected successor conditions.createdAt)
      conditions with
  | (chain, .error code) =>
    answered chain (inst.clock.afterStorageError code) f (mappedFailure code m.operationId)
  | (chain, .ok kind) =>
    if kind ≠ "published" then continued chain inst.clock (.reloading f (some kind))
    else
      answered chain (inst.clock.commit f.observed) f
        (.ok { status := .applied, operationId := m.operationId,
               operationRequestSha256 := m.requestSha256, subjectId := m.subjectId,
               storageOutcome := kind, state := successor })

/-- The second `load` of `_publish`. -/
def loadAgain (f : Flight) (outcome : Option String) (fault : Option RunStorageFailureCode) :
    Stepped :=
  let m := f.mutation sha256 runId
  match load sha256 runId (chain.map Commit.revision) fault with
  | .error e => answered chain (fault.elim inst.clock inst.clock.afterStorageError) f (.error e)
  | .ok state =>
    match existingOperation state m with
    | .error e => answered chain inst.clock f (.error e)
    | .ok (some replay) =>
      answered chain (inst.clock.commit f.observed) f
        (.ok { replay with storageOutcome := outcome.getD replay.storageOutcome })
    | .ok none =>
      answered chain inst.clock f (raise
        (if outcome = none then { code := .casConflict, operationId := m.operationId }
         else { code := .reconciliationRequired, operationId := m.operationId,
                reconciliationRequired := true }))

/-- One access; one that is not next changes nothing. -/
def step (a : Access) : Stepped :=
  match inst.phase, a with
  | .probing f, .probe found => probe sha256 runId inst chain f found
  | .loading f elapsed, .load fault => loadFirst sha256 runId inst chain f elapsed fault
  | .reading f previous successor, .readCurrent fault =>
    readBack sha256 digests runId inst chain f previous successor fault
  | .publishing f expected successor, .publish conditions =>
    publishNow sha256 digests runId inst chain f expected successor conditions
  | .reloading f outcome, .load fault => loadAgain sha256 runId inst chain f outcome fault
  | _, _ => { instance_ := inst, chain }

end Instance

/-! ## All instances -/

/-- A call that returned. -/
structure Returned where
  flight : Flight
  answer : Answer

/-- The instances and the committed revisions, newest first; `calls` numbers the
calls made so far and `returned` lists those that have returned. -/
structure System where
  instances : Nat → Instance := fun _ => {}
  chain : List Commit := []
  calls : Nat := 0
  returned : List Returned := []

/-- One step of some instance. -/
inductive Event where
  /-- an idle instance starts a call and observes its clock -/
  | enter (i : Nat) (c : Call) (reading : Option Int)
  | access (i : Nat) (a : Access)
  | rebase (i : Nat)

namespace System

variable (sys : System)

def setInstance (i : Nat) (inst : Instance) : System :=
  { sys with instances := Function.update sys.instances i inst }

/-- The call begins with `_observe_monotonic`. -/
def enter (i : Nat) (c : Call) (reading : Option Int) : System :=
  let inst := sys.instances i
  match inst.phase with
  | .idle =>
    match inst.clock.observeMonotonic reading (c.mutation sha256 runId).operationId with
    | .error e =>
      { sys with
        calls := sys.calls + 1
        returned := ⟨⟨sys.calls, c, 0⟩, .error e⟩ :: sys.returned }
    | .ok (observed, elapsed, clock) =>
      let f : Flight := ⟨sys.calls, c, observed⟩
      { sys.setInstance i
          { clock, phase := if c.isCreate then .probing f else .loading f elapsed } with
        calls := sys.calls + 1 }
  | _ => sys

def access (i : Nat) (a : Access) : System :=
  let out := (sys.instances i).step sha256 digests runId sys.chain a
  { sys.setInstance i out.instance_ with
    chain := out.chain
    returned := (out.answer.map fun (f, answer) => ⟨f, answer⟩).toList ++ sys.returned }

def step : Event → System
  | .enter i c reading => sys.enter sha256 runId i c reading
  | .access i a => sys.access sha256 digests runId i a
  | .rebase i =>
    let inst := sys.instances i
    match inst.phase with
    | .idle => sys.setInstance i { inst with clock := {} }
    | _ => sys

end System

/-- The instances after some schedule of their steps. -/
def schedule (events : List Event) : System :=
  events.foldl (System.step sha256 digests runId) {}

end Calls

end PokerDeliberation.Budgets
