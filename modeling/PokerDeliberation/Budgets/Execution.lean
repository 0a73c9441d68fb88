import PokerDeliberation.Budgets.Runtime
import PokerDeliberation.Lib.Decimal
import PokerDeliberation.Lib.Stateful
import Mathlib.Data.List.Sort

/-!
# Bounded execution

`execute` reserves a permit for every task, starts the ones no earlier call has
settled, runs their effects, settles them in order and retries the failed ones.
A task whose reservation is answered as a replay is not run again: its record
is read back from the attempts and settlements of the run. An `Outside` is
what one call meets and does not decide: the clock and the storage, what the
callables return, and how many of them overlapped. The branch taken when a
cancellation is signalled is left out.
-/

namespace PokerDeliberation.Budgets

open Lib

/-! ## Effects and their results -/

inductive EffectStatus where
  | succeeded | failed | cancelled | effectUnknown
  deriving DecidableEq, Repr

inductive IdempotencyStatus where
  | notApplicable | idempotent | reconcilable | unknown
  deriving DecidableEq, Repr

inductive RetryReason where
  | admitted | activationDisabled | attemptLimit | categoryForbidden | idempotencyUnconfirmed
  | reconciliationUnconfirmed | freshContextFactoryMissing
  deriving DecidableEq, Repr

structure EffectResultV1 where
  status : EffectStatus
  actual : ResourceAmountsV1
  resultSha256 : Option String := none
  effectEvidenceSha256 : Option String := none
  cancellationEvidenceSha256 : Option String := none
  failureCategory : Option FailureCategory := none
  idempotency : IdempotencyStatus := .unknown
  authoritativeReconciliationConfirmed : Bool := false
  externalCostActualAuthenticated : Bool := false
  deterministicToolEvidence : Option DeterministicToolEvidenceV1 := none
  deriving DecidableEq, Repr

def EffectResultV1.check (r : EffectResultV1) : Except String Unit := do
  require (optionalSha256 r.resultSha256 ∧ optionalSha256 r.effectEvidenceSha256 ∧
    optionalSha256 r.cancellationEvidenceSha256) "effect hashes must be lowercase SHA-256"
  require (r.actual.concurrencySlots = 1) "an executed effect must report exactly one used slot"
  require (¬ (r.status = .succeeded ∧ (r.resultSha256 = none ∨ r.effectEvidenceSha256 = none)))
    "successful effect requires result and effect evidence"
  require (¬ (r.status = .failed ∧ r.failureCategory = none))
    "failed effect requires a typed failure category"
  require (¬ (r.status = .cancelled ∧ r.cancellationEvidenceSha256 = none))
    "cancelled effect requires cooperative cancellation evidence"
  require (¬ (r.authoritativeReconciliationConfirmed = true ∧ r.idempotency ≠ .reconcilable))
    "authoritative reconciliation requires reconcilable idempotency"

/-- Whether `model_validate` takes what a callable returned. -/
def EffectResultV1.valid (r : EffectResultV1) : Bool := r.check.isOk

/-- `admit_automatic_retry`, its reason code. -/
def admitAutomaticRetry (category : FailureCategory) (idempotency : IdempotencyStatus)
    (completedRetries maxAutomaticRetries : Nat)
    (authoritativeReconciliationConfirmed freshContextFactoryAvailable : Bool) : RetryReason :=
  if maxAutomaticRetries = 0 then .activationDisabled
  else if maxAutomaticRetries ≤ completedRetries then .attemptLimit
  else if category ≠ .providerTransient ∧ category ≠ .toolTransient then .categoryForbidden
  else if idempotency ≠ .idempotent ∧ idempotency ≠ .reconcilable then .idempotencyUnconfirmed
  else if idempotency = .reconcilable ∧ authoritativeReconciliationConfirmed = false then
    .reconciliationUnconfirmed
  else if freshContextFactoryAvailable = false then .freshContextFactoryMissing
  else .admitted

/-! ## Isolation -/

structure IsolationRequirementV1 where
  processTreeTermination : Bool := false
  remoteCancellationGuarantee : Bool := false
  osResourceIsolation : Bool := false
  externalCodeIsolation : Bool := false
  deriving DecidableEq, Repr

def IsolationRequirementV1.required (r : IsolationRequirementV1) : Bool :=
  r.processTreeTermination || r.remoteCancellationGuarantee || r.osResourceIsolation ||
    r.externalCodeIsolation

structure RM028IsolationEvidenceV1 where
  requirementSha256 : String
  boundaryId : String
  isolationEvidenceSha256 : String
  processTreeTerminationConfirmed : Bool := false
  remoteCancellationConfirmed : Bool := false
  osResourceIsolationConfirmed : Bool := false
  externalCodeIsolationConfirmed : Bool := false
  deriving DecidableEq, Repr

/-- `satisfies`; `requestSha256` is the digest of the requirement. -/
def RM028IsolationEvidenceV1.satisfies (e : RM028IsolationEvidenceV1) (requestSha256 : String)
    (r : IsolationRequirementV1) : Bool :=
  e.requirementSha256 = requestSha256 &&
    (!r.processTreeTermination || e.processTreeTerminationConfirmed) &&
    (!r.remoteCancellationGuarantee || e.remoteCancellationConfirmed) &&
    (!r.osResourceIsolation || e.osResourceIsolationConfirmed) &&
    (!r.externalCodeIsolation || e.externalCodeIsolationConfirmed)

/-! ## Tasks and records -/

/-- A task without its callables, which an `Outside` supplies. The alphabet
`__post_init__` admits is every letter Python knows; that of an identifier,
which each permit of the task must be, is narrower. -/
structure DurableExecutionTask where
  taskId : String
  executionOrdinal : Nat
  reservation : ResourceReservationV1
  lineage : ExecutionLineageV1
  hasRetryLineageFactory : Bool := false
  isolationRequirement : IsolationRequirementV1 := {}
  id_length : 0 < taskId.length ∧ taskId.length ≤ 64
  ordinals : executionOrdinal = lineage.executionOrdinal
  deriving DecidableEq, Repr

structure ExecutionAttemptResultV1 where
  attemptIndex : Nat
  attemptId : String
  contextId : String
  permitId : String
  settlementId : Option String := none
  status : EffectStatus
  resultSha256 : Option String := none
  effectEvidenceSha256 : Option String := none
  failureCategory : Option FailureCategory := none
  deriving DecidableEq, Repr

def ExecutionAttemptResultV1.check (r : ExecutionAttemptResultV1) : Except String Unit := do
  require (r.attemptIndex ≤ 10) "attempt_index"
  require (([r.attemptId, r.contextId, r.permitId] ++ r.settlementId.toList).all portableId)
    "attempt identifiers"
  require (optionalSha256 r.resultSha256 ∧ optionalSha256 r.effectEvidenceSha256)
    "attempt hashes must be lowercase SHA-256"

structure DurableExecutionRecordV1 where
  taskId : String
  executionOrdinal : Nat
  attempts : List ExecutionAttemptResultV1
  finalStatus : EffectStatus
  finalResultSha256 : Option String := none
  deriving DecidableEq, Repr

def DurableExecutionRecordV1.check (r : DurableExecutionRecordV1) : Except String Unit := do
  require (portableId r.taskId) "task_id"
  require (optionalSha256 r.finalResultSha256) "final_result_sha256"
  require (r.attempts ≠ []) "execution record requires at least one attempt"
  require (r.attempts.map (·.attemptIndex) = List.range r.attempts.length)
    "execution attempts must use contiguous indices"
  require (r.attempts.getLast?.map (·.status) = some r.finalStatus)
    "final execution status differs from the last attempt"

/-- The record of a task from its attempts. -/
def executionRecord (task : DurableExecutionTask) (attempts : List ExecutionAttemptResultV1) :
    Except String DurableExecutionRecordV1 :=
  match attempts.getLast? with
  | none => .error "list index out of range"
  | some last => do
    let record : DurableExecutionRecordV1 :=
      { taskId := task.taskId, executionOrdinal := task.executionOrdinal, attempts
        finalStatus := last.status, finalResultSha256 := last.resultSha256 }
    record.check
    return record

structure DurableExecutionResultV1 where
  records : List DurableExecutionRecordV1
  peakConcurrency : Nat
  isolationEvidence : List RM028IsolationEvidenceV1 := []
  deriving DecidableEq, Repr

def DurableExecutionResultV1.check (r : DurableExecutionResultV1) : Except String Unit := do
  require (r.peakConcurrency ≤ 32) "peak_concurrency"
  require (r.records.Pairwise fun x y => x.executionOrdinal ≤ y.executionOrdinal)
    "execution records must use stable ordinal order"

/-! ## Retry contexts -/

/-- The fields of a context envelope a retry is held against. -/
structure ContextEnvelope where
  assignmentId : Option String
  attemptId : String
  contextId : String
  parentContextId : Option String
  sourceSha256 : String
  policySha256 : String
  integritySha256 : String
  deriving DecidableEq, Repr

/-- `DurableRetryContextV1` with the assignment's identity and role. -/
structure DurableRetryContextV1 where
  lineage : ExecutionLineageV1
  envelope : ContextEnvelope
  assignmentId : Option String
  agentRole : String
  deriving DecidableEq, Repr

/-- `envelope_matches_durable_lineage`. -/
def DurableRetryContextV1.matchesLineage (c : DurableRetryContextV1) : Prop :=
  c.lineage.assignmentId = c.assignmentId ∧ c.lineage.role = c.agentRole ∧
    c.lineage.assignmentId = c.envelope.assignmentId ∧
    c.lineage.attemptId = c.envelope.attemptId ∧ c.lineage.contextId = c.envelope.contextId ∧
    c.lineage.parentContextId = c.envelope.parentContextId ∧
    c.lineage.contextSourceSha256 = c.envelope.sourceSha256 ∧
    c.lineage.contextPolicySha256 = c.envelope.policySha256 ∧
    c.lineage.contextIntegritySha256 = c.envelope.integritySha256

instance (c : DurableRetryContextV1) : Decidable c.matchesLineage := by
  unfold DurableRetryContextV1.matchesLineage
  infer_instance

/-- What `validate_context_envelope` compares with the lineage it retries. -/
def ContextEnvelope.retries (e : ContextEnvelope) (current : ExecutionLineageV1) : Prop :=
  e.parentContextId = some current.contextId ∧ e.sourceSha256 = current.contextSourceSha256

instance (e : ContextEnvelope) (current : ExecutionLineageV1) : Decidable (e.retries current) := by
  unfold ContextEnvelope.retries
  infer_instance

/-- The comparisons `execute` makes itself. -/
def freshRetry (lineage current : ExecutionLineageV1) : Prop :=
  lineage.attemptId ≠ current.attemptId ∧ lineage.contextId ≠ current.contextId ∧
    lineage.rootAttemptId = current.rootAttemptId ∧ lineage.rootContextId = current.rootContextId ∧
    lineage.contextSourceSha256 = current.contextSourceSha256

instance (lineage current : ExecutionLineageV1) : Decidable (freshRetry lineage current) := by
  unfold freshRetry
  infer_instance

/-! ## Identities of an attempt -/

def permitPrefix (taskId : String) : String := "permit-" ++ taskId ++ ".attempt-"

def attemptStem (taskId : String) (attemptIndex : Nat) : String :=
  taskId ++ ".attempt-" ++ toString attemptIndex

def attemptPermit (taskId : String) (attemptIndex : Nat) : String :=
  permitPrefix taskId ++ toString attemptIndex

def attemptReserve (taskId : String) (attemptIndex : Nat) : String :=
  attemptStem taskId attemptIndex ++ ".reserve"

def attemptStart (taskId : String) (attemptIndex : Nat) : String :=
  attemptStem taskId attemptIndex ++ ".start"

def attemptSettle (taskId : String) (attemptIndex : Nat) : String :=
  attemptStem taskId attemptIndex ++ ".settle"

def attemptSettlement (taskId : String) (attemptIndex : Nat) : String :=
  taskId ++ ".settlement-" ++ toString attemptIndex

/-- `permit_id.startswith(prefix)`. -/
def inFamily (taskId permitId : String) : Prop := (permitPrefix taskId).toList <+: permitId.toList

instance (taskId permitId : String) : Decidable (inFamily taskId permitId) := by
  unfold inFamily
  infer_instance

/-- `permit_id.removeprefix(prefix)`. -/
def permitSuffix (taskId permitId : String) : List Char :=
  permitId.toList.drop (permitPrefix taskId).toList.length

/-- `suffix.isdigit()`, of the characters a permit id may have. -/
def isDigits (suffix : List Char) : Prop := suffix ≠ [] ∧ suffix.all Char.isDigit = true

instance (suffix : List Char) : Decidable (isDigits suffix) := by
  unfold isDigits
  infer_instance

/-! ## Reading a record back -/

def reconciliationFailure (operationId : String) : DurableBudgetFailureV1 :=
  { code := .reconciliationRequired, operationId, reconciliationRequired := true }

def retryFailure (operationId : String) : DurableBudgetFailureV1 :=
  { code := .retryForbidden, operationId }

/-- How a settled attempt is reported. -/
def replayedStatus : SettlementStatus → EffectStatus
  | .succeeded => .succeeded
  | .failed => .failed
  | .cancelled => .cancelled
  | .effectUnknown => .effectUnknown
  | .overrun => .failed
  | .releasedNoEffect => .cancelled

/-- How the result of an effect is settled. -/
def EffectStatus.settlement : EffectStatus → SettlementStatus
  | .succeeded => .succeeded
  | .failed => .failed
  | .cancelled => .cancelled
  | .effectUnknown => .effectUnknown

/-- The result of an attempt, once its fields are valid. -/
def attemptResult (r : ExecutionAttemptResultV1) : Except StoreError ExecutionAttemptResultV1 := do
  valid r.check
  return r

/-- The attempts of a task with their indices, as they stand in the state. -/
def indexedAttempts (taskId : String) (attempts : List AttemptRecordV1) :
    Except StoreError (List (Nat × AttemptRecordV1)) :=
  (attempts.filter fun attempt => inFamily taskId attempt.permitId).mapM fun attempt => do
    let suffix := permitSuffix taskId attempt.permitId
    ensure (isDigits suffix) (reconciliationFailure (taskId ++ ".replay"))
    return (decimalValue suffix, attempt)

/-- The result of a settled attempt. -/
def replayedAttempt (settlements : List DurableSettlementV1) (x : Nat × AttemptRecordV1) :
    Except StoreError ExecutionAttemptResultV1 :=
  match Keyed.dict DurableSettlementV1.permitId settlements x.2.permitId with
  | none => .error (.invalid "settlements")
  | some settlement =>
    attemptResult
      { attemptIndex := x.1, attemptId := x.2.lineage.attemptId, contextId := x.2.lineage.contextId
        permitId := x.2.permitId, settlementId := some settlement.settlementId
        status := replayedStatus settlement.status, resultSha256 := settlement.resultSha256
        effectEvidenceSha256 := settlement.effectEvidenceSha256
        failureCategory := x.2.failureCategory }

/-- `_replayed_attempts`, on the loaded state. -/
def replayedAttempts (taskId : String) (state : DurableBudgetStateV1) :
    Except StoreError (Option (List ExecutionAttemptResultV1)) := do
  let failure := reconciliationFailure (taskId ++ ".replay")
  let indexed ← indexedAttempts taskId state.attempts
  if indexed = [] then return none
  let sorted := indexed.insertionSort fun x y => x.1 ≤ y.1
  ensure (sorted.map (·.1) = List.range sorted.length) failure
  ensure (∀ x ∈ sorted, x.2.permitId ∈ state.settlements.map (·.permitId)) failure
  let results ← sorted.mapM (replayedAttempt state.settlements)
  return some results

/-! ## The executor -/

/-- What one call meets. `effect` is what the callable of a task returns for a
lineage, `none` when it raises; `retryContext` is the context its factory
builds, `none` when the factory, or the part of `validate_context_envelope`
that is about the envelope alone, raises. -/
structure Outside where
  environment : Nat → Environment
  effect : DurableExecutionTask → ExecutionLineageV1 → Option EffectResultV1
  retryContext : DurableExecutionTask → ExecutionLineageV1 → Nat → Option DurableRetryContextV1
  peak : Nat

/-- The store and what has been done to it: the store calls that returned, with
their clock readings, and the lineages whose effects have been run. -/
structure Progress where
  store : DurableBudgetStore
  turn : Nat := 0
  log : List TimedCall := []
  effects : List ExecutionLineageV1 := []

abbrev Execution := Stateful StoreError Progress

/-- The executor of one run; the first two fields are the digests it uses. -/
structure DurableBoundedExecutor where
  sha256 : Payload → String
  constantEvidence : String → String
  requirementSha256 : IsolationRequirementV1 → String
  runId : String
  isolationBoundary : Option (IsolationRequirementV1 → RM028IsolationEvidenceV1) := none

namespace DurableBoundedExecutor

variable (executor : DurableBoundedExecutor) (outside : Outside)

/-- A call on the store. -/
def storeCall (c : Call) : Execution DurableMutationResultV1 := fun p =>
  let env := outside.environment p.turn
  match p.store.call executor.sha256 executor.runId c env with
  | (store, .ok result) =>
    (.ok result, { p with store, turn := p.turn + 1, log := p.log ++ [(c, env.clock.getD 0)] })
  | (store, .error e) => (.error e, { p with store, turn := p.turn + 1 })

/-- `store.load`. -/
def storeLoad : Execution DurableBudgetStateV1 := fun p =>
  let env := outside.environment p.turn
  match load executor.sha256 executor.runId p.store.revisions env.loadFault with
  | .ok state => (.ok state, { p with turn := p.turn + 1 })
  | .error e =>
    (.error e, { p with
      turn := p.turn + 1, store := env.loadFault.elim p.store p.store.afterStorageError })

/-- `_isolation_evidence`. -/
def isolationEvidence (tasks : List DurableExecutionTask) :
    Except StoreError (List RM028IsolationEvidenceV1) :=
  (tasks.filter (·.isolationRequirement.required)).mapM fun task =>
    let failure : DurableBudgetFailureV1 := { code := .isolationRequired, operationId := task.taskId }
    match executor.isolationBoundary with
    | none => raise failure
    | some inspect => do
      let item := inspect task.isolationRequirement
      ensure (item.satisfies (executor.requirementSha256 task.isolationRequirement)
        task.isolationRequirement = true) failure
      return item

/-- `build_resource_reservation`. -/
def buildResourceReservation (reservationId : String) (requested : ResourceAmountsV1)
    (executionClass : ExecutionClass) (authenticated : Bool) :
    Except String ResourceReservationV1 :=
  let requestSha256 :=
    executor.sha256 (.reservation reservationId requested executionClass authenticated)
  if h : isIdentifier reservationId = true ∧ isSha256 requestSha256 = true ∧
      requested.concurrencySlots = 1 ∧ executionClass ≠ .unknown ∧
      (executionClass = .localFree → requested.externalCostMicroUsd = 0 ∧ authenticated = false) ∧
      (executionClass = .external → 0 < requested.externalCostMicroUsd ∧ authenticated = true) then
    .ok
      { reservationId, requested, executionClass
        externalCostEstimateAuthenticated := authenticated, requestSha256
        reservation_id_valid := h.1, request_hash_valid := h.2.1, one_slot := h.2.2.1
        known_class := h.2.2.2.1, local_free := h.2.2.2.2.1, external := h.2.2.2.2.2 }
  else .error "resource reservation"

/-- `_retry_reservation`. -/
def retryReservation (task : DurableExecutionTask) (attemptIndex : Nat) :
    Except String ResourceReservationV1 :=
  executor.buildResourceReservation (task.taskId ++ ".reservation-" ++ toString attemptIndex)
    { task.reservation.requested with retryAttempts := 1 } task.reservation.executionClass
    task.reservation.externalCostEstimateAuthenticated

/-- What `_run_effect` reports for a callable that raised. -/
def raisedResult (conservativeActual : ResourceAmountsV1) : EffectResultV1 :=
  { status := .effectUnknown, actual := conservativeActual
    effectEvidenceSha256 :=
      some (executor.constantEvidence "callable-raised-after-durable-start")
    failureCategory := some .externalEffectUnknown }

/-- `_run_effect`. -/
def runEffect (task : DurableExecutionTask) (lineage : ExecutionLineageV1)
    (conservativeActual : ResourceAmountsV1) : Execution EffectResultV1 := do
  Stateful.modify fun p => { p with effects := p.effects ++ [lineage] }
  match (outside.effect task lineage).filter (·.valid) with
  | some result => return result
  | none =>
    let result := executor.raisedResult conservativeActual
    Stateful.lift (valid result.check)
    return result

/-- The arguments `_settle_result` settles an attempt with. -/
def settleArgs (task : DurableExecutionTask) (attemptIndex : Nat) (result : EffectResultV1) :
    SettleArgs :=
  { operationId := attemptSettle task.taskId attemptIndex
    settlementId := attemptSettlement task.taskId attemptIndex
    permitId := attemptPermit task.taskId attemptIndex
    actual := result.actual, status := result.status.settlement
    resultSha256 := result.resultSha256, effectEvidenceSha256 := result.effectEvidenceSha256
    cancellationEvidenceSha256 := result.cancellationEvidenceSha256
    failureCategory := result.failureCategory
    deterministicToolEvidence := result.deterministicToolEvidence
    externalCostActualAuthenticated := result.externalCostActualAuthenticated
    observedPeakConcurrency := some (max 1 outside.peak) }

/-- `_settle_result`. -/
def settleResult (task : DurableExecutionTask) (attemptIndex : Nat) (lineage : ExecutionLineageV1)
    (result : EffectResultV1) : Execution ExecutionAttemptResultV1 := do
  let _ ← executor.storeCall outside (.settle (settleArgs outside task attemptIndex result))
  Stateful.lift (attemptResult
    { attemptIndex, attemptId := lineage.attemptId, contextId := lineage.contextId
      permitId := attemptPermit task.taskId attemptIndex
      settlementId := some (attemptSettlement task.taskId attemptIndex)
      status := result.status, resultSha256 := result.resultSha256
      effectEvidenceSha256 := result.effectEvidenceSha256
      failureCategory := result.failureCategory })

/-! ### The phases of a call -/

/-- The reservation of one task: whether its permit is active, and whether the
reservation was answered as a replay. -/
def reserveTask (task : DurableExecutionTask) : Execution (Bool × Bool) := do
  let result ← executor.storeCall outside (.reserve (attemptReserve task.taskId 0)
    (attemptPermit task.taskId 0) task.reservation task.lineage none none)
  let active := decide (attemptPermit task.taskId 0 ∈ result.state.activePermits.map (·.permitId))
  let replay := decide (result.status = .exactReplay)
  Stateful.lift (ensure (¬ (replay = true ∧ active = true))
    (reconciliationFailure (task.taskId ++ ".replay")))
  return (active, replay)

/-- Release what has been reserved, after an admission failed. -/
def releaseAll : List DurableExecutionTask → Execution Unit
  | [] => return ()
  | task :: rest => do
    let operationId := task.taskId ++ ".admission-release"
    let _ ← executor.storeCall outside (.releaseNoEffect operationId operationId
      (attemptPermit task.taskId 0)
      (executor.constantEvidence "bounded-admission-failed-before-effect-start"))
    releaseAll rest

/-- The reservations, in order; each task with whether it may be replayed. -/
def reserveAll : List DurableExecutionTask → List DurableExecutionTask →
    Execution (List (DurableExecutionTask × Bool))
  | _, [] => return []
  | reserved, task :: rest => do
    let (active, replay) ←
      (executor.reserveTask outside task).onRaise (executor.releaseAll outside reserved)
    let others ← reserveAll (if active then reserved ++ [task] else reserved) rest
    return (task, replay) :: others

/-- The recorded attempts of a task that may be replayed. -/
def replayTask (x : DurableExecutionTask × Bool) :
    Execution (Option (List ExecutionAttemptResultV1)) :=
  if x.2 = true then do
    let state ← executor.storeLoad outside
    Stateful.lift (replayedAttempts x.1.taskId state)
  else return none

/-- A task that is prepared: its recorded attempts, or none once it is started. -/
def startTask (x : DurableExecutionTask × Bool) :
    Execution (DurableExecutionTask × Option (List ExecutionAttemptResultV1)) := do
  match ← executor.replayTask outside x with
  | some attempts => return (x.1, some attempts)
  | none =>
    let _ ← executor.storeCall outside
      (.start (attemptStart x.1.taskId 0) (attemptPermit x.1.taskId 0))
    return (x.1, none)

/-- The first effect of a task that is not replayed. -/
def runTask (x : DurableExecutionTask × Option (List ExecutionAttemptResultV1)) :
    Execution (DurableExecutionTask × (List ExecutionAttemptResultV1 ⊕ EffectResultV1)) :=
  match x.2 with
  | some attempts => return (x.1, .inl attempts)
  | none => do
    let result ← executor.runEffect outside x.1 x.1.lineage x.1.reservation.requested
    return (x.1, .inr result)

/-- The context of retry number `attemptIndex`, as far as it is usable. -/
def retryLineage (task : DurableExecutionTask) (current : ExecutionLineageV1) (attemptIndex : Nat) :
    Except StoreError ExecutionLineageV1 :=
  let failure := retryFailure (task.taskId ++ ".retry-" ++ toString attemptIndex)
  match outside.retryContext task current attemptIndex with
  | none => raise failure
  | some context => do
    ensure (context.matchesLineage ∧ context.envelope.retries current) failure
    ensure (freshRetry context.lineage current) failure
    return context.lineage

/-- The retries of a task, with the indices the activation leaves for them; past
the last one none would be admitted (`admitAutomaticRetry_limit`). -/
def retryAll (task : DurableExecutionTask) (maxAutomaticRetries : Nat) :
    List Nat → ExecutionLineageV1 → EffectResultV1 → Execution (List ExecutionAttemptResultV1)
  | [], _, _ => return []
  | attemptIndex :: rest, current, result =>
    if result.status = .failed ∧ admitAutomaticRetry (result.failureCategory.getD .internal)
        result.idempotency (attemptIndex - 1) maxAutomaticRetries
        result.authoritativeReconciliationConfirmed task.hasRetryLineageFactory = .admitted then do
      let lineage ← Stateful.lift (retryLineage outside task current attemptIndex)
      let reservation ← Stateful.lift (valid (executor.retryReservation task attemptIndex))
      let _ ← executor.storeCall outside (.reserve (attemptReserve task.taskId attemptIndex)
        (attemptPermit task.taskId attemptIndex) reservation lineage none none)
      let _ ← executor.storeCall outside
        (.start (attemptStart task.taskId attemptIndex) (attemptPermit task.taskId attemptIndex))
      let retried ← executor.runEffect outside task lineage reservation.requested
      let attempt ← executor.settleResult outside task attemptIndex lineage retried
      let others ← retryAll task maxAutomaticRetries rest lineage retried
      return attempt :: others
    else return []

/-- The attempts of a task, settled and retried where they are not replayed. -/
def settleTask (maxAutomaticRetries : Nat)
    (x : DurableExecutionTask × (List ExecutionAttemptResultV1 ⊕ EffectResultV1)) :
    Execution (DurableExecutionTask × List ExecutionAttemptResultV1) :=
  match x.2 with
  | .inl attempts => return (x.1, attempts)
  | .inr result => do
    let attempt ← executor.settleResult outside x.1 0 x.1.lineage result
    let others ← executor.retryAll outside x.1 maxAutomaticRetries
      (List.range' 1 maxAutomaticRetries) x.1.lineage result
    return (x.1, attempt :: others)

/-- Whether the worker count given, if any, is within the activation. -/
def admitsWorkers (state : DurableBudgetStateV1) (maxWorkers : Option Int) : Prop :=
  ∀ n ∈ maxWorkers, 1 ≤ n ∧ n ≤ (state.policy.activation.maxConcurrentAgents : Int)

instance (state : DurableBudgetStateV1) (maxWorkers : Option Int) :
    Decidable (admitsWorkers state maxWorkers) := by
  unfold admitsWorkers
  infer_instance

/-- The tasks by ordinal. -/
def orderedTasks (tasks : List DurableExecutionTask) : List DurableExecutionTask :=
  tasks.insertionSort fun x y => x.executionOrdinal ≤ y.executionOrdinal

/-- `execute`, without its cancellation. -/
def execute (maxWorkers : Option Int) (tasks : List DurableExecutionTask) :
    Execution DurableExecutionResultV1 :=
  if tasks = [] then return { records := [], peakConcurrency := 0 }
  else do
    let ordered := orderedTasks tasks
    Stateful.lift (valid (require (ordered.map (·.taskId)).Nodup
      "bounded execution task IDs must be unique"))
    Stateful.lift (valid (require (ordered.map (·.executionOrdinal) = List.range ordered.length)
      "bounded execution ordinals must be contiguous"))
    let state ← executor.storeLoad outside
    Stateful.lift (valid (require (admitsWorkers state maxWorkers)
      "max_workers exceeds the durable execution activation"))
    let evidence ← Stateful.lift (executor.isolationEvidence ordered)
    let candidates ← executor.reserveAll outside [] ordered
    let prepared ← candidates.mapM (executor.startTask outside)
    let completed ← prepared.mapM (executor.runTask outside)
    let settled ← completed.mapM
      (executor.settleTask outside state.policy.activation.maxAutomaticRetries)
    let records ← Stateful.lift (valid (settled.mapM fun x => executionRecord x.1 x.2))
    let final ← executor.storeLoad outside
    let replayed := prepared.filter (·.2.isSome)
    let peak := if replayed.length = prepared.length then 0 else max 1 outside.peak
    let result : DurableExecutionResultV1 :=
      { records, peakConcurrency := max peak (min final.usage.peakConcurrency replayed.length)
        isolationEvidence := evidence }
    Stateful.lift (valid result.check)
    return result

end DurableBoundedExecutor

end PokerDeliberation.Budgets
