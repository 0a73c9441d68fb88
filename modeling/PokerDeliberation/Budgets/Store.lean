import PokerDeliberation.Budgets.Successor

/-!
# The durable budget store

Every mutation runs the same protocol: observe the clock, load the history,
answer a recorded operation as a replay, compute the successor of the current
state, publish it. `Mutation` is what distinguishes one mutation from another
and `mutate` is the protocol; `reserve`, `start`, `settle`, `releaseNoEffect`,
`requestCancellation`, `recordCancellation` and `tightenPolicy` are the
mutations, `create` the first one. The revision store is the list of committed
revisions, newest first; an `Environment` supplies what is outside the program
(the clock reading and the storage faults of one call).
-/

namespace PokerDeliberation.Budgets

open Lib

inductive RunStorageFailureCode where
  | invalidStorageInput | unsupportedStorageVersion | legacyRunUnverified | runNamespaceConflict
  | rootInitializationIncomplete | pathConfinementFailed | linkOrReparseDetected
  | crossRunMismatch | hashAlgorithmMismatch | artifactBudgetExceeded | runBudgetExceeded
  | runLocked | lockUnavailable | runConflict | recoveryClaimConflict | recoveryClaimIncomplete
  | idempotencyConflict | persistenceForbidden | encryptionRequired | transactionWriteFailed
  | transactionVerificationFailed | transactionPublishFailed | durabilityUnconfirmed
  | effectUnknown | runIncomplete | runCorrupt | artifactMissing | artifactHashMismatch
  | artifactSchemaError | internalInvariantError
  deriving DecidableEq, Repr

/-- What a call raises: a typed refusal, or a validator's `ValueError`. -/
inductive StoreError where
  | budget (failure : DurableBudgetFailureV1)
  | invalid (message : String)
  deriving DecidableEq, Repr

/-! ## Raising -/

section Raising

variable {α : Type}

/-- `raise _failure(...)`; the failure is itself validated. -/
def raise (failure : DurableBudgetFailureV1) : Except StoreError α :=
  match failure.check with
  | .ok _ => .error (.budget failure)
  | .error message => .error (.invalid message)

/-- Raise the failure unless `p` holds. -/
def ensure (p : Prop) [Decidable p] (failure : DurableBudgetFailureV1) : Except StoreError Unit :=
  if p then .ok () else raise failure

/-- A validator inside a store method. -/
def valid (x : Except String α) : Except StoreError α := x.mapError .invalid

@[simp] theorem raise_ne_ok {failure : DurableBudgetFailureV1} {a : α} : raise failure ≠ .ok a := by
  unfold raise
  split <;> simp

@[simp] theorem ensure_eq_ok {p : Prop} [Decidable p] {failure : DurableBudgetFailureV1} {u : Unit} :
    ensure p failure = .ok u ↔ p := by
  unfold ensure
  split <;> simp_all

@[simp] theorem ensure_bind_eq_ok {p : Prop} [Decidable p] {failure : DurableBudgetFailureV1}
    {f : Unit → Except StoreError α} {b : α} :
    ensure p failure >>= f = .ok b ↔ p ∧ f () = .ok b := by
  by_cases h : p
  · simp [ensure, h, bind, Except.bind]
  · simp [bind_eq_ok, h]

@[simp] theorem valid_eq_ok {x : Except String α} {a : α} : valid x = .ok a ↔ x = .ok a := by
  cases x <;> simp [valid, Except.mapError]

end Raising

/-! ## The clock of one run -/

/-- The entries of the three side tables for one run. -/
structure ClockTable where
  last : Option Nat := none
  pending : Option Nat := none
  reconciliationRequired : Bool := false
  deriving DecidableEq, Repr

namespace ClockTable

/-- The latest observation a new one may not precede. -/
def rollbackReference (t : ClockTable) : Option Nat :=
  match t.last, t.pending with
  | some a, some b => some (max a b)
  | some a, none => some a
  | none, pending => pending

/-- `_observe_monotonic`: `none` is a clock that raises or returns no integer. -/
def observeMonotonic (t : ClockTable) (reading : Option Int) (operationId : String) :
    Except StoreError (Nat × Nat × ClockTable) :=
  match reading with
  | none => raise { code := .invalidInput, operationId }
  | some reading => do
    ensure (0 ≤ reading) { code := .invalidInput, operationId }
    let value := reading.toNat
    let reference := t.rollbackReference.getD 0
    ensure (reference ≤ value)
      { code := .clockRollback, operationId, resource := some .activeRuntimeNs,
        observed := some (reference - value) }
    return (value, value - t.last.getD value, { t with pending := some value })

/-- `_commit_monotonic_observation`. -/
def commit (_ : ClockTable) (value : Nat) : ClockTable := { last := some value }

/-- The side effect of answering a replay. -/
def replayed (t : ClockTable) : ClockTable :=
  if t.last = none ∨ t.reconciliationRequired then
    match t.pending with
    | some value => t.commit value
    | none => t
  else t

end ClockTable

/-! ## The revision store -/

structure Revision where
  revision : Nat
  state : DurableBudgetStateV1
  deriving DecidableEq, Repr

/-- One instance and the run's committed revisions, newest first. -/
structure DurableBudgetStore where
  clock : ClockTable := {}
  revisions : List Revision := []
  deriving DecidableEq, Repr

/-- A publish that raises; `landed` says whether the revision is nevertheless
committed, which only an uncertain failure leaves open. -/
structure PublishFault where
  code : RunStorageFailureCode
  landed : Bool := false
  deriving DecidableEq, Repr

structure Environment where
  clock : Option Int
  loadFault : Option RunStorageFailureCode := none
  publishFault : Option PublishFault := none
  deriving DecidableEq, Repr

def RunStorageFailureCode.uncertain (code : RunStorageFailureCode) : Bool :=
  code = .effectUnknown || code = .durabilityUnconfirmed

/-- `_map_storage_error`, the failure. -/
def storageFailure (code : RunStorageFailureCode) (operationId : String) : DurableBudgetFailureV1 :=
  if code = .runLocked then { code := .runLocked, operationId }
  else if code = .runConflict then { code := .casConflict, operationId }
  else if code = .idempotencyConflict then { code := .idempotencyConflict, operationId }
  else if code.uncertain then
    { code := .durabilityUncertain, operationId, reconciliationRequired := true,
      effectUnknown := true }
  else { code := .reconciliationRequired, operationId, reconciliationRequired := true }

/-- `_map_storage_error`, the side effect. -/
def DurableBudgetStore.afterStorageError (store : DurableBudgetStore) (code : RunStorageFailureCode) :
    DurableBudgetStore :=
  if code.uncertain then
    { store with clock := { store.clock with reconciliationRequired := true } }
  else store

structure DurableMutationResultV1 where
  status : MutationStatus
  operationId : String
  operationRequestSha256 : String
  subjectId : Option String
  storageOutcome : String
  state : DurableBudgetStateV1
  deriving DecidableEq, Repr

section Protocol

-- `canonical_durable_sha256` and the run the instance works on
variable (sha256 : Payload → String) (runId : String)

/-- The checks `_load_history` makes on what the revision store returned. -/
def checkHistory (revisions : List Revision) : Except String Unit := do
  forM revisions fun entry => entry.state.validateSnapshot sha256
  require (revisions.map (·.state.generation) = revisions.map (·.revision))
    "budget state generation does not match storage revision"
  require (∀ entry ∈ revisions, entry.state.runId = runId) "budget state cross-run replay"
  forM (revisions.zip revisions.tail) fun (newer, older) =>
    validateStateSuccessor sha256 older.state newer.state

/-- `_load_history`, newest state first. -/
def loadHistory (revisions : List Revision) (fault : Option RunStorageFailureCode) :
    Except StoreError (List DurableBudgetStateV1) :=
  match fault, revisions with
  | some code, _ => raise (storageFailure code "read-state")
  | none, [] => raise (storageFailure .runIncomplete "read-state")
  | none, revisions =>
    match checkHistory sha256 runId revisions with
    | .ok _ => .ok (revisions.map (·.state))
    | .error _ =>
      raise { code := .reconciliationRequired, operationId := "read-state",
              reconciliationRequired := true }

/-- `load`. -/
def load (revisions : List Revision) (fault : Option RunStorageFailureCode) :
    Except StoreError DurableBudgetStateV1 := do
  match ← loadHistory sha256 runId revisions fault with
  | state :: _ => return state
  | [] => raise (storageFailure .runIncomplete "read-state")

/-- What a mutation brings to the protocol. -/
structure Mutation where
  operationId : String
  kind : OperationKind
  requestSha256 : String
  subjectId : Option String
  /-- checks made before a recorded operation is looked up -/
  precheck : Except StoreError Unit := .ok ()
  /-- the successor of the current state, given the elapsed nanoseconds -/
  successor : DurableBudgetStateV1 → Nat → Except StoreError DurableBudgetStateV1

/-- `_existing_operation`, without its side effect on the clock. -/
def existingOperation (state : DurableBudgetStateV1) (m : Mutation) :
    Except StoreError (Option DurableMutationResultV1) :=
  match Keyed.find IdempotencyRecordV1.operationId m.operationId state.operations with
  | none => .ok none
  | some record => do
    ensure (record.kind = m.kind ∧ record.requestSha256 = m.requestSha256)
      { code := .idempotencyConflict, operationId := m.operationId }
    return some
      { status := .exactReplay, operationId := m.operationId,
        operationRequestSha256 := m.requestSha256, subjectId := record.subjectId,
        storageOutcome := "current_committed", state }

/-- `_append_operation`: `updated` is the state with the operation's updates. -/
def appendOperation (state updated : DurableBudgetStateV1) (operationId : String)
    (kind : OperationKind) (requestSha256 : String) (subjectId : Option String)
    (resultPayload : Payload) : Except String DurableBudgetStateV1 := do
  let resultSha256 := sha256 resultPayload
  let operation : IdempotencyRecordV1 :=
    { operationId, kind, requestSha256, outcome := .applied, resultSha256, subjectId }
  operation.check
  let ordinal := state.events.length
  let event : DurableEventV1 :=
    { ordinal, kind, operationId, subjectId,
      eventSha256 := sha256 (.event ordinal kind operationId subjectId resultSha256) }
  event.check
  let successor : DurableBudgetStateV1 :=
    { updated with
      generation := state.generation + 1
      previousStateSha256 := some (sha256 (.state state))
      operations := state.operations ++ [operation]
      events := state.events ++ [event] }
  successor.validated sha256

namespace DurableBudgetStore

variable (store : DurableBudgetStore)

/-- `revisions.publish` and what `_publish` does with its outcome. -/
def commitRevision (successor : DurableBudgetStateV1) (m : Mutation) (observed : Nat)
    (fault : Option PublishFault) :
    DurableBudgetStore × Except StoreError DurableMutationResultV1 :=
  let committed := ⟨successor.generation, successor⟩ :: store.revisions
  match fault with
  | some { code, landed } =>
    let revisions := if landed && code.uncertain then committed else store.revisions
    ({ store with revisions }.afterStorageError code, raise (storageFailure code m.operationId))
  | none =>
    ({ clock := store.clock.commit observed, revisions := committed },
      .ok { status := .applied, operationId := m.operationId,
            operationRequestSha256 := m.requestSha256, subjectId := m.subjectId,
            storageOutcome := "published", state := successor })

/-- `_publish`. The current revision is read again: when another writer has
moved it, the operation is either already recorded or in conflict. -/
def publish (previous : Option DurableBudgetStateV1) (successor : DurableBudgetStateV1)
    (m : Mutation) (observed : Nat) (fault : Option PublishFault) :
    DurableBudgetStore × Except StoreError DurableMutationResultV1 :=
  match previous with
  | none => store.commitRevision successor m observed fault
  | some previous =>
    match store.revisions.head? with
    | none => (store, raise (storageFailure .runIncomplete m.operationId))
    | some current =>
      if current.revision = previous.generation then
        store.commitRevision successor m observed fault
      else
        match load sha256 runId store.revisions none with
        | .error e => (store, .error e)
        | .ok currentState =>
          match existingOperation currentState m with
          | .error e => (store, .error e)
          | .ok (some replay) => ({ store with clock := store.clock.commit observed }, .ok replay)
          | .ok none => (store, raise { code := .casConflict, operationId := m.operationId })

/-- The protocol every mutation but `create` follows. -/
def mutate (m : Mutation) (env : Environment) :
    DurableBudgetStore × Except StoreError DurableMutationResultV1 :=
  match store.clock.observeMonotonic env.clock m.operationId with
  | .error e => (store, .error e)
  | .ok (observed, elapsed, clock) =>
    let store := { store with clock }
    match load sha256 runId store.revisions env.loadFault with
    | .error e => (env.loadFault.elim store store.afterStorageError, .error e)
    | .ok state =>
      match m.precheck >>= fun _ => existingOperation state m with
      | .error e => (store, .error e)
      | .ok (some replay) => ({ store with clock := store.clock.replayed }, .ok replay)
      | .ok none =>
        match m.successor state elapsed with
        | .error e => (store, .error e)
        | .ok successor =>
          store.publish sha256 runId (some state) successor m observed env.publishFault

end DurableBudgetStore

/-! ## Creation -/

/-- The first state of a run. -/
def initialState (policy : DurableBudgetPolicyV1) (operationId requestSha256 : String) :
    Except StoreError DurableBudgetStateV1 := do
  let resultSha256 :=
    sha256 (.initializeResult runId (sha256 (.basePolicy policy.basePolicy)))
  let operation : IdempotencyRecordV1 :=
    { operationId, kind := .initializeRun, requestSha256, outcome := .applied, resultSha256,
      subjectId := some runId }
  valid operation.check
  let event : DurableEventV1 :=
    { ordinal := 0, kind := .initializeRun, operationId, subjectId := some runId,
      eventSha256 := sha256 (.event 0 .initializeRun operationId (some runId) resultSha256) }
  valid event.check
  let state : DurableBudgetStateV1 :=
    { runId, generation := 1, policy
      policySha256 := sha256 (.basePolicy policy.basePolicy)
      activationSha256 := sha256 (.activation policy.activation)
      operations := [operation], events := [event]
      activeRuntimeRemainingNs := policy.basePolicy.runtimeLimitNs }
  valid (state.validated sha256)

/-- The creation as a mutation; its successor has no predecessor. -/
def initialization (policy : DurableBudgetPolicyV1) (operationId : String) : Mutation where
  operationId
  kind := .initializeRun
  requestSha256 := sha256 (.initializeRequest runId policy)
  subjectId := some runId
  successor _ _ := initialState sha256 runId policy operationId
    (sha256 (.initializeRequest runId policy))

def create (store : DurableBudgetStore) (policy : DurableBudgetPolicyV1) (operationId : String)
    (env : Environment) : DurableBudgetStore × Except StoreError DurableMutationResultV1 :=
  let m := initialization sha256 runId policy operationId
  match store.clock.observeMonotonic env.clock operationId with
  | .error e => (store, .error e)
  | .ok (observed, _, clock) =>
    let store := { store with clock }
    if store.revisions = [] then
      match initialState sha256 runId policy operationId m.requestSha256 with
      | .error e => (store, .error e)
      | .ok state => store.publish sha256 runId none state m observed env.publishFault
    else
      match load sha256 runId store.revisions env.loadFault with
      | .error e => (env.loadFault.elim store store.afterStorageError, .error e)
      | .ok current =>
        match existingOperation current m with
        | .error e => (store, .error e)
        | .ok (some replay) => ({ store with clock := store.clock.replayed }, .ok replay)
        | .ok none => (store, raise { code := .idempotencyConflict, operationId })

/-! ## Shared steps of the mutations -/

/-- `_charge_active_runtime`. -/
def chargeActiveRuntime (state : DurableBudgetStateV1) (elapsedNs : Nat) (operationId : String)
    (allowOverrun : Bool) : Except StoreError (DurableUsageV1 × Nat) := do
  let usage ← valid (state.usage.applyActual { activeRuntimeNs := elapsedNs })
  let limit := state.policy.basePolicy.runtimeLimitNs
  let remaining := limit - usage.activeRuntimeNs
  ensure (¬ (limit < usage.activeRuntimeNs ∧ allowOverrun = false))
    { code := .deadlineExceeded, operationId, resource := some .activeRuntimeNs,
      limit := some limit, observed := some usage.activeRuntimeNs }
  return (usage, remaining)

/-- `_resource_limits`. -/
def resourceLimits (policy : BudgetPolicyV2) : Resource → Nat
  | .activeRuntimeNs => policy.runtimeLimitNs
  | .providerAttempts => policy.maxDeliberationRounds
  | .toolAttempts => policy.maxDeliberationRounds + policy.maxToolRetries
  | .retryAttempts => policy.maxToolRetries
  | .externalCostMicroUsd => policy.maxExternalCostMicroUsd
  | .providerOutputBytes => policy.maxProviderOutputBytes
  | .toolInputBytes => policy.maxToolInputBytes
  | .toolOutputBytes => policy.maxToolOutputBytes
  | .artifactBytes => policy.maxArtifactBytes
  | .runBytes => policy.maxRunBytes
  | .concurrencySlots => 1

/-- The limit a reservation or a tightening is held against. -/
def policyLimit (policy : DurableBudgetPolicyV1) (r : Resource) : Nat :=
  if r = .concurrencySlots then policy.activation.maxConcurrentAgents
  else resourceLimits policy.basePolicy r

/-- The amount of `r` the active permits reserve together. -/
def reservedSum (permits : List DurablePermitV1) (r : Resource) : Nat :=
  (permits.map fun p => p.reservation.requested.get r).sum

/-- What `_admit_reservation` compares with the limit. -/
def admissionObserved (state : DurableBudgetStateV1) (requested : ResourceAmountsV1) (r : Resource) :
    Nat :=
  if r = .concurrencySlots then state.activePermits.length + requested.get r
  else if r.cumulative then
    state.usage.get r + reservedSum state.activePermits r + requested.get r
  else requested.get r

/-- `reservation_request_sha256`. -/
def reservationRequestSha256 (r : ResourceReservationV1) : String :=
  sha256 (.reservation r.reservationId r.requested r.executionClass
    r.externalCostEstimateAuthenticated)

/-- `_admit_reservation`. -/
def admitReservation (state : DurableBudgetStateV1) (reservation : ResourceReservationV1)
    (operationId : String) : Except StoreError Unit := do
  ensure (state.failureLatch = none) { code := .failureLatched, operationId }
  ensure (state.activeRuntimeRemainingNs ≠ 0)
    { code := .deadlineExceeded, operationId, resource := some .activeRuntimeNs }
  ensure (reservation.requestSha256 = reservationRequestSha256 sha256 reservation)
    { code := .invalidInput, operationId }
  forM resourceOrder fun r =>
    let observed := admissionObserved state reservation.requested r
    let limit := policyLimit state.policy r
    ensure (observed ≤ limit)
      { code := if r = .concurrencySlots then .concurrencyExceeded else .budgetExceeded
        operationId, resource := some r, limit := some limit, observed := some observed }

/-- `_admit_lineage`. -/
def admitLineage (state : DurableBudgetStateV1) (lineage : ExecutionLineageV1)
    (operationId : String) : Except StoreError Unit := do
  let prior := state.attempts.map (·.lineage)
  ensure (¬ ∃ item ∈ prior, item.attemptId = lineage.attemptId ∨
      item.contextId = lineage.contextId ∨ item.idempotencyKey = lineage.idempotencyKey)
    { code := .idempotencyConflict, operationId }
  let sameRoot := prior.filter fun item => item.rootAttemptId = lineage.rootAttemptId
  if sameRoot = [] then
    ensure (lineage.parentAttemptId = none ∧
        ¬ ∃ item ∈ prior, item.executionOrdinal = lineage.executionOrdinal)
      { code := .invalidInput, operationId }
  else
    ensure (lineage.parentAttemptId ≠ none) { code := .idempotencyConflict, operationId }
    let parent := sameRoot.find? fun item =>
      some item.attemptId = lineage.parentAttemptId ∧ some item.contextId = lineage.parentContextId
    ensure (∃ p ∈ parent, stableLineage lineage p) { code := .invalidInput, operationId }

/-- The state with its runtime charged, as every successor records it. -/
def DurableBudgetStateV1.charged (state : DurableBudgetStateV1) (usage : DurableUsageV1)
    (remaining : Nat) : DurableBudgetStateV1 :=
  { state with usage, activeRuntimeRemainingNs := remaining }

/-! ## The mutations -/

def reserve (operationId permitId : String) (reservation : ResourceReservationV1)
    (lineage : ExecutionLineageV1)
    (expectedPolicySha256 expectedActivationSha256 : Option String) : Mutation :=
  let binding :=
    if expectedPolicySha256 ≠ none ∨ expectedActivationSha256 ≠ none then
      some (expectedPolicySha256, expectedActivationSha256)
    else none
  let requestSha256 := sha256 (.reserveRequest permitId reservation lineage binding)
  { operationId, kind := .reserve, requestSha256, subjectId := some permitId
    successor := fun state elapsed => do
      ensure ((∀ h ∈ expectedPolicySha256, state.policySha256 = h) ∧
          ∀ h ∈ expectedActivationSha256, state.activationSha256 = h)
        { code := .invalidInput, operationId }
      let (usage, remaining) ← chargeActiveRuntime state elapsed operationId false
      let chargedState ← valid ((state.charged usage remaining).validated sha256)
      admitReservation sha256 chargedState reservation operationId
      admitLineage state lineage operationId
      ensure (permitId ∉ state.activePermits.map (·.permitId) ++ state.settlements.map (·.permitId))
        { code := .idempotencyConflict, operationId }
      let permit : DurablePermitV1 :=
        { permitId, reservation, lineage, reservedActiveRuntimeNs := usage.activeRuntimeNs }
      valid permit.check
      let attempt : AttemptRecordV1 := { permitId, lineage, status := .reserved }
      valid attempt.check
      valid (appendOperation sha256 state
        { state.charged usage remaining with
          activePermits := state.activePermits ++ [permit]
          attempts := state.attempts ++ [attempt] }
        operationId .reserve requestSha256 (some permitId) (.permit permit)) }

def start (operationId permitId : String) : Mutation :=
  let requestSha256 := sha256 (.startRequest permitId)
  { operationId, kind := .start, requestSha256, subjectId := some permitId
    successor := fun state elapsed => do
      let (usage, remaining) ← chargeActiveRuntime state elapsed operationId false
      match Keyed.find DurablePermitV1.permitId permitId state.activePermits with
      | none => raise { code := .invalidInput, operationId }
      | some permit =>
        ensure (permit.status = .reserved) { code := .invalidInput, operationId }
        ensure (∀ c ∈ Keyed.find DurableCancellationV1.permitId permitId state.cancellations,
            c.state = .notRequested)
          { code := .cancelUnconfirmed, operationId }
        let started : DurablePermitV1 :=
          { permit with status := .started, startedActiveRuntimeNs := some usage.activeRuntimeNs }
        valid started.check
        valid (appendOperation sha256 state
          { state.charged usage remaining with
            activePermits :=
              Keyed.update DurablePermitV1.permitId permitId (fun _ => started) state.activePermits
            attempts := Keyed.update AttemptRecordV1.permitId permitId
              (fun a => { a with status := .started }) state.attempts }
          operationId .start requestSha256 (some permitId) (.permit started)) }

/-- `_released`. -/
def released (reserved actual : ResourceAmountsV1) : ResourceAmountsV1 :=
  .ofValues fun r => if reserved.get r < actual.get r then 0 else reserved.get r - actual.get r

/-- The arguments of `settle`. -/
structure SettleArgs where
  operationId : String
  settlementId : String
  permitId : String
  actual : ResourceAmountsV1
  status : SettlementStatus
  resultSha256 : Option String := none
  effectEvidenceSha256 : Option String := none
  cancellationEvidenceSha256 : Option String := none
  failureCategory : Option FailureCategory := none
  deterministicToolEvidence : Option DeterministicToolEvidenceV1 := none
  externalCostActualAuthenticated : Bool := false
  observedPeakConcurrency : Option Int := none
  deriving DecidableEq, Repr

/-- The digest of a `settle` request. -/
def SettleArgs.requestSha256 (a : SettleArgs) : String :=
  sha256 (.settleRequest a.settlementId a.permitId a.actual a.status a.resultSha256
    a.effectEvidenceSha256 a.cancellationEvidenceSha256 a.failureCategory
    a.deterministicToolEvidence a.externalCostActualAuthenticated a.observedPeakConcurrency)

/-- What a recorded cancellation still allows a settlement to say. -/
def admitCancellation (a : SettleArgs) (cancellation : Option DurableCancellationV1) :
    Except StoreError Unit :=
  match cancellation with
  | none => .ok ()
  | some c => do
    ensure (¬ (c.workerLive ∨ c.state = .requested ∨ c.state = .unconfirmed))
      { code := .cancelUnconfirmed, operationId := a.operationId }
    ensure (¬ ((c.state = .acknowledged ∨ c.state = .cancelled) ∧
        (a.status ≠ .cancelled ∨ a.cancellationEvidenceSha256 = none ∨
          a.cancellationEvidenceSha256 ≠ c.evidenceSha256)))
      { code := .invalidInput, operationId := a.operationId }
    ensure (¬ (c.state = .effectUnknown ∧ a.status ≠ .effectUnknown))
      { code := .cancelUnconfirmed, operationId := a.operationId }

/-- The input checks of `settle`, up to the runtime charge. -/
def admitSettlement (a : SettleArgs) (state : DurableBudgetStateV1) (permit : DurablePermitV1) :
    Except StoreError Unit := do
  let invalid : DurableBudgetFailureV1 := { code := .invalidInput, operationId := a.operationId }
  ensure (permit.status = .started) invalid
  ensure (a.status ≠ .releasedNoEffect) invalid
  ensure (¬ (permit.reservation.executionClass = .external ∧
    a.externalCostActualAuthenticated = false)) invalid
  ensure (¬ (permit.reservation.executionClass = .localFree ∧
    (a.actual.externalCostMicroUsd ≠ 0 ∨ a.externalCostActualAuthenticated = true))) invalid
  ensure (¬ (a.status = .succeeded ∧
    (a.resultSha256 = none ∨ a.effectEvidenceSha256 = none))) invalid
  admitCancellation a (Keyed.find DurableCancellationV1.permitId a.permitId state.cancellations)
  ensure (∀ e ∈ a.deterministicToolEvidence,
    e.executionOrdinal = permit.lineage.executionOrdinal ∧
      e.toolRequestBytesSha256 = permit.lineage.idempotencyRequestSha256 ∧
      some e.toolResultBytesSha256 = a.resultSha256) invalid
  ensure (∀ n ∈ a.observedPeakConcurrency,
    1 ≤ n ∧ n ≤ (state.policy.activation.maxConcurrentAgents : Int)) invalid

/-- `settled_actual`: the reported usage with the measured runtime. -/
def settledActual (actual : ResourceAmountsV1) (runtime : Nat) : ResourceAmountsV1 :=
  { actual with activeRuntimeNs := runtime }

/-- `effective_status`. -/
def effectiveStatus (reserved actual : ResourceAmountsV1) (status : SettlementStatus) :
    SettlementStatus :=
  if (exceededResource reserved actual).isSome then .overrun else status

/-- What settling does to the attempt of the permit. -/
def SettleArgs.settleAttempt (a : SettleArgs) (effective : SettlementStatus) (item : AttemptRecordV1) :
    AttemptRecordV1 :=
  { item with
    status := settlementAttemptStatus effective
    failureCategory := a.failureCategory
    effectEvidenceSha256 := a.effectEvidenceSha256 }

/-- The failure latch after a settlement. -/
def settledLatch (a : SettleArgs) (latch : Option DurableBudgetFailureV1)
    (reserved actual : ResourceAmountsV1) (effective : SettlementStatus) :
    Option DurableBudgetFailureV1 :=
  match latch, effective, exceededResource reserved actual with
  | none, .overrun, some exceeded =>
    some { code := .settlementOverrun, operationId := a.operationId, resource := some exceeded,
           limit := some (reserved.get exceeded), observed := some (actual.get exceeded),
           reconciliationRequired := true, evidenceSha256 := a.effectEvidenceSha256 }
  | none, .effectUnknown, _ =>
    some { code := .effectUnknown, operationId := a.operationId, reconciliationRequired := true,
           effectUnknown := true, evidenceSha256 := a.effectEvidenceSha256 }
  | latch, _, _ => latch

/-- A failure latch that was set passes its validator. -/
def checkLatch (latch : Option DurableBudgetFailureV1) : Except String Unit :=
  match latch with
  | none => .ok ()
  | some failure => failure.check

def settle (a : SettleArgs) : Mutation :=
  { operationId := a.operationId, kind := .settle, requestSha256 := a.requestSha256 sha256
    subjectId := some a.settlementId
    successor := fun state elapsed => do
      match Keyed.find DurablePermitV1.permitId a.permitId state.activePermits with
      | none => raise { code := .invalidInput, operationId := a.operationId }
      | some permit =>
        admitSettlement a state permit
        let (chargedUsage, remaining) ← chargeActiveRuntime state elapsed a.operationId true
        valid (require (permit.reservedActiveRuntimeNs ≤ chargedUsage.activeRuntimeNs)
          "active_runtime_ns")
        let actual := settledActual a.actual
          (chargedUsage.activeRuntimeNs - permit.reservedActiveRuntimeNs)
        let reserved := permit.reservation.requested
        let effective := effectiveStatus reserved actual a.status
        let settlement : DurableSettlementV1 :=
          { settlementId := a.settlementId, permitId := a.permitId, operationId := a.operationId
            operationRequestSha256 := a.requestSha256 sha256
            reserved, actual, released := released reserved actual
            status := effective, resultSha256 := a.resultSha256
            effectEvidenceSha256 := a.effectEvidenceSha256
            cancellationEvidenceSha256 := a.cancellationEvidenceSha256
            deterministicToolEvidence := a.deterministicToolEvidence
            settledActiveRuntimeNs := chargedUsage.activeRuntimeNs }
        valid settlement.check
        let applied ← valid (chargedUsage.applyActual (settledActual actual 0))
        let usage : DurableUsageV1 :=
          { applied with
            peakConcurrency :=
              max applied.peakConcurrency (a.observedPeakConcurrency.getD 0).toNat }
        valid usage.check
        let failureLatch := settledLatch a state.failureLatch reserved actual effective
        valid (checkLatch failureLatch)
        let attempts := Keyed.update AttemptRecordV1.permitId a.permitId
          (a.settleAttempt effective) state.attempts
        valid (forM attempts AttemptRecordV1.check)
        valid (appendOperation sha256 state
          { state.charged usage remaining with
            activePermits := Keyed.remove DurablePermitV1.permitId a.permitId state.activePermits
            settlements := state.settlements ++ [settlement]
            attempts, failureLatch }
          a.operationId .settle (a.requestSha256 sha256) (some a.settlementId)
          (.settlement settlement)) }

def releaseNoEffect (operationId settlementId permitId evidenceSha256 : String) : Mutation :=
  let requestSha256 := sha256 (.releaseRequest settlementId permitId evidenceSha256)
  { operationId, kind := .releaseNoEffect, requestSha256, subjectId := some settlementId
    successor := fun state elapsed => do
      let (usage, remaining) ← chargeActiveRuntime state elapsed operationId true
      match Keyed.find DurablePermitV1.permitId permitId state.activePermits with
      | none => raise { code := .invalidInput, operationId }
      | some permit =>
        ensure (permit.status = .reserved) { code := .invalidInput, operationId }
        let settlement : DurableSettlementV1 :=
          { settlementId, permitId, operationId, operationRequestSha256 := requestSha256
            reserved := permit.reservation.requested, actual := {}
            released := permit.reservation.requested, status := .releasedNoEffect
            effectEvidenceSha256 := some evidenceSha256
            settledActiveRuntimeNs := usage.activeRuntimeNs }
        valid settlement.check
        let attempts := Keyed.update AttemptRecordV1.permitId permitId
          (fun item => { item with
            status := .cancelled, effectEvidenceSha256 := some evidenceSha256 }) state.attempts
        valid (forM attempts AttemptRecordV1.check)
        valid (appendOperation sha256 state
          { state.charged usage remaining with
            activePermits := Keyed.remove DurablePermitV1.permitId permitId state.activePermits
            settlements := state.settlements ++ [settlement]
            attempts }
          operationId .releaseNoEffect requestSha256 (some settlementId)
          (.settlement settlement)) }

def requestCancellation (operationId permitId : String) : Mutation :=
  let requestSha256 := sha256 (.cancelRequest permitId)
  { operationId, kind := .requestCancel, requestSha256, subjectId := some permitId
    successor := fun state elapsed => do
      let (usage, remaining) ← chargeActiveRuntime state elapsed operationId true
      ensure (∃ item ∈ state.activePermits, item.permitId = permitId)
        { code := .invalidInput, operationId }
      ensure (∀ c ∈ Keyed.find DurableCancellationV1.permitId permitId state.cancellations,
          c.state = .notRequested)
        { code := .idempotencyConflict, operationId }
      let cancellation : DurableCancellationV1 :=
        { permitId, state := .requested, requestedOperationId := some operationId
          workerLive := true, observedActiveRuntimeNs := usage.activeRuntimeNs }
      valid cancellation.check
      valid (appendOperation sha256 state
        { state.charged usage remaining with
          cancellations :=
            Keyed.remove DurableCancellationV1.permitId permitId state.cancellations ++
              [cancellation] }
        operationId .requestCancel requestSha256 (some permitId) (.cancellation cancellation)) }

/-- The arguments of `record_cancellation`. -/
structure CancellationArgs where
  operationId : String
  permitId : String
  stateValue : CancellationState
  evidenceSha256 : Option String
  workerLive : Bool
  deriving DecidableEq, Repr

/-- `transition_allowed`. -/
def transitionAllowed (a : CancellationArgs) (previous : DurableCancellationV1) : Prop :=
  (previous.state = .requested ∧
      (a.stateValue = .acknowledged ∨ a.stateValue = .unconfirmed ∨
        a.stateValue = .effectUnknown)) ∨
    (previous.state = .acknowledged ∧ a.stateValue = .cancelled) ∨
    (previous.state = .unconfirmed ∧ a.stateValue = .effectUnknown ∧ a.workerLive = false) ∨
    (previous.state = .effectUnknown ∧ previous.workerLive = true ∧
      a.stateValue = .effectUnknown ∧ a.workerLive = false ∧
      a.evidenceSha256 = previous.evidenceSha256)

instance (a : CancellationArgs) (previous : DurableCancellationV1) :
    Decidable (transitionAllowed a previous) := by
  unfold transitionAllowed
  infer_instance

/-- Whether the recorded state leaves the effect of the attempt unknown. -/
def CancellationArgs.unknownEffect (a : CancellationArgs) : Prop :=
  a.stateValue = .unconfirmed ∨ a.stateValue = .effectUnknown

instance (a : CancellationArgs) : Decidable a.unknownEffect := by
  unfold CancellationArgs.unknownEffect
  infer_instance

/-- The failure latch after a cancellation is recorded. -/
def cancellationLatch (a : CancellationArgs) (latch : Option DurableBudgetFailureV1) :
    Option DurableBudgetFailureV1 :=
  match latch with
  | some failure => some failure
  | none =>
    if a.unknownEffect then
      some { code := if a.stateValue = .unconfirmed then .cancelUnconfirmed else .effectUnknown
             operationId := a.operationId, reconciliationRequired := true, effectUnknown := true
             evidenceSha256 := a.evidenceSha256 }
    else none

/-- What recording a cancellation does to the attempts. -/
def CancellationArgs.attempts (a : CancellationArgs) (attempts : List AttemptRecordV1) :
    List AttemptRecordV1 :=
  if a.unknownEffect then
    Keyed.update AttemptRecordV1.permitId a.permitId
      (fun item => { item with
        status := .effectUnknown, effectEvidenceSha256 := a.evidenceSha256 }) attempts
  else attempts

def recordCancellation (a : CancellationArgs) : Mutation :=
  let requestSha256 :=
    sha256 (.acknowledgeRequest a.permitId a.stateValue a.evidenceSha256 a.workerLive)
  { operationId := a.operationId, kind := .acknowledgeCancel, requestSha256
    subjectId := some a.permitId
    successor := fun state elapsed => do
      let (usage, remaining) ← chargeActiveRuntime state elapsed a.operationId true
      match Keyed.find DurableCancellationV1.permitId a.permitId state.cancellations with
      | none => raise { code := .invalidInput, operationId := a.operationId }
      | some previous =>
        ensure (transitionAllowed a previous)
          { code := .invalidInput, operationId := a.operationId }
        ensure (¬ ((a.stateValue = .acknowledged ∨ a.stateValue = .cancelled) ∧
            a.evidenceSha256 = none))
          { code := .invalidInput, operationId := a.operationId }
        let cancellation : DurableCancellationV1 :=
          { permitId := a.permitId, state := a.stateValue
            requestedOperationId := previous.requestedOperationId
            evidenceSha256 := a.evidenceSha256, workerLive := a.workerLive
            observedActiveRuntimeNs := usage.activeRuntimeNs }
        valid cancellation.check
        let failureLatch := cancellationLatch a state.failureLatch
        valid (checkLatch failureLatch)
        let attempts := a.attempts state.attempts
        valid (forM attempts AttemptRecordV1.check)
        valid (appendOperation sha256 state
          { state.charged usage remaining with
            cancellations :=
              Keyed.remove DurableCancellationV1.permitId a.permitId state.cancellations ++
                [cancellation]
            failureLatch, attempts }
          a.operationId .acknowledgeCancel requestSha256 (some a.permitId)
          (.cancellation cancellation)) }

/-- What `tighten_policy` compares with the new limit. -/
def tighteningObserved (usage : DurableUsageV1) (permits : List DurablePermitV1) (r : Resource) :
    Nat :=
  if r = .concurrencySlots then permits.length
  else if r.cumulative then usage.get r + reservedSum permits r
  else (permits.map fun p => p.reservation.requested.get r).foldl max (usage.get r)

def tightenPolicy (operationId : String) (newPolicy : DurableBudgetPolicyV1)
    (reasonSha256 : String) : Mutation :=
  let requestSha256 := sha256 (.tightenRequest newPolicy reasonSha256)
  { operationId, kind := .tightenPolicy, requestSha256, subjectId := some runId
    precheck := ensure (isSha256 reasonSha256) { code := .invalidInput, operationId }
    successor := fun state elapsed => do
      let (usage, _) ← chargeActiveRuntime state elapsed operationId false
      ensure (state.failureLatch = none ∧ newPolicy ≠ state.policy ∧
          isPolicyTightening state.policy newPolicy)
        { code := .policyMismatch, operationId }
      forM resourceOrder fun r =>
        let observed := tighteningObserved usage state.activePermits r
        let limit := policyLimit newPolicy r
        ensure (observed ≤ limit)
          { code := .policyMismatch, operationId, resource := some r, limit := some limit
            observed := some observed }
      let remaining := newPolicy.basePolicy.runtimeLimitNs - usage.activeRuntimeNs
      valid (appendOperation sha256 state
        { state.charged usage remaining with
          policy := newPolicy
          policySha256 := sha256 (.basePolicy newPolicy.basePolicy)
          activationSha256 := sha256 (.activation newPolicy.activation) }
        operationId .tightenPolicy requestSha256 (some runId)
        (.tightenResult (sha256 (.policy state.policy)) (sha256 (.policy newPolicy))
          reasonSha256)) }

/-- The calls of one run. -/
inductive Call where
  | create (policy : DurableBudgetPolicyV1) (operationId : String)
  | reserve (operationId permitId : String) (reservation : ResourceReservationV1)
    (lineage : ExecutionLineageV1) (expectedPolicySha256 expectedActivationSha256 : Option String)
  | start (operationId permitId : String)
  | settle (args : SettleArgs)
  | releaseNoEffect (operationId settlementId permitId evidenceSha256 : String)
  | requestCancellation (operationId permitId : String)
  | recordCancellation (args : CancellationArgs)
  | tightenPolicy (operationId : String) (newPolicy : DurableBudgetPolicyV1)
    (reasonSha256 : String)

/-- The mutation a call makes. -/
def Call.mutation : Call → Mutation
  | .create policy operationId => initialization sha256 runId policy operationId
  | .reserve operationId permitId reservation lineage policySha activationSha =>
    Budgets.reserve sha256 operationId permitId reservation lineage policySha activationSha
  | .start operationId permitId => Budgets.start sha256 operationId permitId
  | .settle args => Budgets.settle sha256 args
  | .releaseNoEffect operationId settlementId permitId evidence =>
    Budgets.releaseNoEffect sha256 operationId settlementId permitId evidence
  | .requestCancellation operationId permitId =>
    Budgets.requestCancellation sha256 operationId permitId
  | .recordCancellation args => Budgets.recordCancellation sha256 args
  | .tightenPolicy operationId newPolicy reason =>
    Budgets.tightenPolicy sha256 runId operationId newPolicy reason

/-- One call on the instance. -/
def DurableBudgetStore.call (store : DurableBudgetStore) (c : Call) (env : Environment) :
    DurableBudgetStore × Except StoreError DurableMutationResultV1 :=
  match c with
  | .create policy operationId => create sha256 runId store policy operationId env
  | c => store.mutate sha256 runId (c.mutation sha256 runId) env

/-- `rebase_monotonic_clock`. -/
def DurableBudgetStore.rebaseMonotonicClock (store : DurableBudgetStore) : DurableBudgetStore :=
  { store with clock := {} }

def DurableBudgetStore.resume (store : DurableBudgetStore) (env : Environment) :
    DurableBudgetStore × Except StoreError DurableBudgetStateV1 :=
  let store := store.rebaseMonotonicClock
  match load sha256 runId store.revisions env.loadFault with
  | .error e => (env.loadFault.elim store store.afterStorageError, .error e)
  | .ok state =>
    match state.activePermits.find? fun permit => permit.status = .started with
    | some started =>
      (store, raise { code := .effectUnknown, operationId := started.lineage.idempotencyKey,
                      reconciliationRequired := true, effectUnknown := true })
    | none =>
      match store.clock.observeMonotonic env.clock "resume" with
      | .error e => (store, .error e)
      | .ok (observed, _, clock) => ({ store with clock := clock.commit observed }, .ok state)

end Protocol

end PokerDeliberation.Budgets
