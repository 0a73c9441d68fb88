import PokerDeliberation.Budgets.Models

/-!
# The durable budget state

The records a store builds (permits, attempts, settlements, cancellations,
operation and event logs, the failure latch), the state that holds them, and
the validators that run whenever one is built. `validateSnapshot` is the
validator of the whole state.
-/

namespace PokerDeliberation.Budgets

open Lib

/-! ## Records -/

structure DurablePermitV1 where
  permitId : String
  reservation : ResourceReservationV1
  lineage : ExecutionLineageV1
  status : PermitStatus := .reserved
  reservedActiveRuntimeNs : Nat
  startedActiveRuntimeNs : Option Nat := none
  deriving DecidableEq, Repr

def DurablePermitV1.check (p : DurablePermitV1) : Except String Unit := do
  require (isIdentifier p.permitId) "permit_id"
  require ((p.status = .started) ↔ (p.startedActiveRuntimeNs ≠ none))
    "started permit must have exactly one start observation"
  require (∀ n ∈ p.startedActiveRuntimeNs, p.reservedActiveRuntimeNs ≤ n)
    "permit start observation precedes reservation"

structure AttemptRecordV1 where
  permitId : String
  lineage : ExecutionLineageV1
  status : AttemptStatus
  failureCategory : Option FailureCategory := none
  effectEvidenceSha256 : Option String := none
  deriving DecidableEq, Repr

/-- An optional hash field. -/
def optionalSha256 (value : Option String) : Prop := ∀ v ∈ value, isSha256 v = true

instance (value : Option String) : Decidable (optionalSha256 value) := by
  unfold optionalSha256
  infer_instance

/-- An optional identifier field. -/
def optionalIdentifier (value : Option String) : Prop := ∀ v ∈ value, isIdentifier v = true

instance (value : Option String) : Decidable (optionalIdentifier value) := by
  unfold optionalIdentifier
  infer_instance

def AttemptRecordV1.check (a : AttemptRecordV1) : Except String Unit := do
  require (isIdentifier a.permitId) "permit_id"
  require (optionalSha256 a.effectEvidenceSha256) "attempt evidence hash must be lowercase SHA-256"

structure DurableSettlementV1 where
  settlementId : String
  permitId : String
  operationId : String
  operationRequestSha256 : String
  reserved : ResourceAmountsV1
  actual : ResourceAmountsV1
  released : ResourceAmountsV1
  status : SettlementStatus
  resultSha256 : Option String := none
  effectEvidenceSha256 : Option String := none
  cancellationEvidenceSha256 : Option String := none
  deterministicToolEvidence : Option DeterministicToolEvidenceV1 := none
  settledActiveRuntimeNs : Nat
  deriving DecidableEq, Repr

/-- The first resource used beyond its reservation, in canonical order. -/
def exceededResource (reserved actual : ResourceAmountsV1) : Option Resource :=
  resourceOrder.find? fun r => reserved.get r < actual.get r

def DurableSettlementV1.check (s : DurableSettlementV1) : Except String Unit := do
  require ([s.settlementId, s.permitId, s.operationId].all isIdentifier) "settlement identifiers"
  require (isSha256 s.operationRequestSha256 ∧ optionalSha256 s.resultSha256 ∧
    optionalSha256 s.effectEvidenceSha256 ∧ optionalSha256 s.cancellationEvidenceSha256)
    "settlement hashes must be lowercase SHA-256"
  forM resourceOrder fun r =>
    if s.actual.get r ≤ s.reserved.get r then
      require (s.released.get r = s.reserved.get r - s.actual.get r)
        "settlement released resources are not exact"
    else
      require (s.released.get r = 0) "overrun cannot release the exceeded resource"
  require ((exceededResource s.reserved s.actual).isSome = true ↔ s.status = .overrun)
    "settlement overrun status does not match actual usage"
  require (¬ (s.status = .releasedNoEffect ∧ ∃ r ∈ resourceOrder, s.actual.get r ≠ 0))
    "no-effect release cannot settle actual usage"

structure DurableCancellationV1 where
  permitId : String
  state : CancellationState := .notRequested
  requestedOperationId : Option String := none
  evidenceSha256 : Option String := none
  workerLive : Bool := false
  observedActiveRuntimeNs : Nat
  deriving DecidableEq, Repr

def DurableCancellationV1.check (c : DurableCancellationV1) : Except String Unit := do
  require (isIdentifier c.permitId) "permit_id"
  require (optionalIdentifier c.requestedOperationId) "requested_operation_id"
  require (optionalSha256 c.evidenceSha256) "cancellation evidence must be lowercase SHA-256"
  if c.state = .notRequested then
    require (c.requestedOperationId = none ∧ c.evidenceSha256 = none)
      "not-requested cancellation cannot carry request evidence"
  else
    require (c.requestedOperationId ≠ none) "requested cancellation requires its operation ID"
  require (¬ (c.state = .cancelled ∧ (c.workerLive ∨ c.evidenceSha256 = none)))
    "cancelled requires acknowledged evidence and no live worker"
  require (c.workerLive → c.state ∈ [.requested, .unconfirmed, .effectUnknown])
    "a live worker cannot be interpreted as cancelled"

structure IdempotencyRecordV1 where
  operationId : String
  kind : OperationKind
  requestSha256 : String
  outcome : OperationOutcome
  resultSha256 : String
  subjectId : Option String := none
  deriving DecidableEq, Repr

def IdempotencyRecordV1.check (o : IdempotencyRecordV1) : Except String Unit := do
  require (isIdentifier o.operationId) "operation_id"
  require (optionalIdentifier o.subjectId) "subject_id"
  require (isSha256 o.requestSha256 ∧ isSha256 o.resultSha256)
    "operation hashes must be lowercase SHA-256"

structure DurableBudgetFailureV1 where
  code : DurableFailureCode
  operationId : Option String := none
  resource : Option Resource := none
  limit : Option Nat := none
  observed : Option Nat := none
  reconciliationRequired : Bool := false
  effectUnknown : Bool := false
  evidenceSha256 : Option String := none
  deriving DecidableEq, Repr

def DurableBudgetFailureV1.check (f : DurableBudgetFailureV1) : Except String Unit := do
  require (optionalIdentifier f.operationId) "operation_id"
  require (optionalSha256 f.evidenceSha256) "failure evidence must be lowercase SHA-256"
  require (f.code = .effectUnknown → f.effectUnknown)
    "effect_unknown failure must set its effect flag"
  require (f.effectUnknown → f.reconciliationRequired)
    "unknown effects always require reconciliation"

structure DurableEventV1 where
  ordinal : Nat
  kind : OperationKind
  operationId : String
  subjectId : Option String := none
  eventSha256 : String
  deriving DecidableEq, Repr

def DurableEventV1.check (e : DurableEventV1) : Except String Unit := do
  require (isIdentifier e.operationId) "operation_id"
  require (optionalIdentifier e.subjectId) "subject_id"
  require (isSha256 e.eventSha256) "event hash must be lowercase SHA-256"

/-! ## The state -/

structure DurableBudgetStateV1 where
  runId : String
  generation : Nat
  previousStateSha256 : Option String := none
  policy : DurableBudgetPolicyV1
  policySha256 : String
  activationSha256 : String
  usage : DurableUsageV1 := {}
  activePermits : List DurablePermitV1 := []
  settlements : List DurableSettlementV1 := []
  attempts : List AttemptRecordV1 := []
  cancellations : List DurableCancellationV1 := []
  operations : List IdempotencyRecordV1 := []
  events : List DurableEventV1 := []
  failureLatch : Option DurableBudgetFailureV1 := none
  activeRuntimeRemainingNs : Nat
  deriving DecidableEq, Repr

/-- The values whose canonical JSON is hashed. -/
inductive Payload where
  | basePolicy (policy : BudgetPolicyV2)
  | activation (activation : ExecutionActivationV1)
  | policy (policy : DurableBudgetPolicyV1)
  | state (state : DurableBudgetStateV1)
  | event (ordinal : Nat) (kind : OperationKind) (operationId : String)
    (subjectId : Option String) (resultSha256 : String)
  | permit (permit : DurablePermitV1)
  | settlement (settlement : DurableSettlementV1)
  | cancellation (cancellation : DurableCancellationV1)
  | reservation (reservationId : String) (requested : ResourceAmountsV1)
    (executionClass : ExecutionClass) (externalCostEstimateAuthenticated : Bool)
  | initializeRequest (runId : String) (policy : DurableBudgetPolicyV1)
  | initializeResult (runId : String) (policySha256 : String)
  | reserveRequest (permitId : String) (reservation : ResourceReservationV1)
    (lineage : ExecutionLineageV1) (expectedBudgetBinding : Option (Option String × Option String))
  | startRequest (permitId : String)
  | settleRequest (settlementId permitId : String) (actual : ResourceAmountsV1)
    (status : SettlementStatus)
    (resultSha256 effectEvidenceSha256 cancellationEvidenceSha256 : Option String)
    (failureCategory : Option FailureCategory)
    (deterministicToolEvidence : Option DeterministicToolEvidenceV1)
    (externalCostActualAuthenticated : Bool) (observedPeakConcurrency : Option Int)
  | releaseRequest (settlementId permitId evidenceSha256 : String)
  | cancelRequest (permitId : String)
  | acknowledgeRequest (permitId : String) (state : CancellationState)
    (evidenceSha256 : Option String) (workerLive : Bool)
  | tightenRequest (newPolicy : DurableBudgetPolicyV1) (reasonSha256 : String)
  | tightenResult (oldPolicySha256 newPolicySha256 reasonSha256 : String)

/-! ## Snapshot validation -/

section Snapshot

-- `canonical_durable_sha256`
variable (sha256 : Payload → String)

/-- The fields of a lineage a retry must keep. -/
def stableLineage (l p : ExecutionLineageV1) : Prop :=
  l.ownerKind = p.ownerKind ∧ l.ownerId = p.ownerId ∧ l.role = p.role ∧ l.phaseId = p.phaseId ∧
    l.assignmentId = p.assignmentId ∧ l.rootAttemptId = p.rootAttemptId ∧
    l.rootContextId = p.rootContextId ∧ l.contextSourceSha256 = p.contextSourceSha256 ∧
    l.executionOrdinal = p.executionOrdinal

instance (l p : ExecutionLineageV1) : Decidable (stableLineage l p) := by
  unfold stableLineage
  infer_instance

/-- The retry lineage loop; the two dictionaries are the ones it fills as it goes. -/
def checkLineages (attemptsById : String → Option ExecutionLineageV1) :
    List AttemptRecordV1 → (String → Option Nat) → (Nat → Option String) → Except String Unit
  | [], _, _ => .ok ()
  | attempt :: rest, rootOrdinals, ordinalRoots => do
    let lineage := attempt.lineage
    let priorOrdinal := (rootOrdinals lineage.rootAttemptId).getD lineage.executionOrdinal
    require (priorOrdinal = lineage.executionOrdinal) "one root attempt changed execution ordinal"
    let priorRoot := (ordinalRoots lineage.executionOrdinal).getD lineage.rootAttemptId
    require (priorRoot = lineage.rootAttemptId) "duplicate durable execution ordinal"
    match lineage.parentAttemptId with
    | none => pure ()
    | some parentId =>
      match attemptsById parentId with
      | none => throw "retry parent lineage is missing or mismatched"
      | some parent =>
        require (some parent.contextId = lineage.parentContextId)
          "retry parent lineage is missing or mismatched"
        require (stableLineage lineage parent) "retry ownership or root lineage was substituted"
    checkLineages attemptsById rest
      (Function.update rootOrdinals lineage.rootAttemptId (some priorOrdinal))
      (Function.update ordinalRoots lineage.executionOrdinal (some priorRoot))

/-- The attempt status an active permit must have. -/
def expectedStatus (cancellation : Option DurableCancellationV1) (permit : DurablePermitV1) :
    AttemptStatus :=
  if ∃ c ∈ cancellation, c.state = .unconfirmed ∨ c.state = .effectUnknown then .effectUnknown
  else if permit.status = .reserved then .reserved else .started

def settlementAttemptStatus : SettlementStatus → AttemptStatus
  | .succeeded => .succeeded
  | .failed => .failed
  | .cancelled => .cancelled
  | .releasedNoEffect => .cancelled
  | .effectUnknown => .effectUnknown
  | .overrun => .failed

namespace DurableBudgetStateV1

variable (s : DurableBudgetStateV1)

def attemptOf (permitId : String) : Option AttemptRecordV1 :=
  Keyed.dict AttemptRecordV1.permitId s.attempts permitId

def cancellationOf (permitId : String) : Option DurableCancellationV1 :=
  Keyed.dict DurableCancellationV1.permitId s.cancellations permitId

def activeSlots : Nat :=
  (s.activePermits.map fun p => p.reservation.requested.concurrencySlots).sum

/-- The identity lists of a state have no duplicates. -/
def checkIdentities : Except String Unit := do
  require (s.activePermits.map (·.permitId)).Nodup "duplicate durable permit identity"
  require (s.settlements.map (·.settlementId)).Nodup "duplicate durable settlement identity"
  require (s.settlements.map (·.permitId)).Nodup "duplicate durable settled permit identity"
  require (s.attempts.map (·.permitId)).Nodup "duplicate durable attempt permit identity"
  require (s.attempts.map (·.lineage.attemptId)).Nodup "duplicate durable attempt identity"
  require (s.attempts.map (·.lineage.contextId)).Nodup "duplicate durable context identity"
  require (s.operations.map (·.operationId)).Nodup "duplicate durable operation identity"
  require (s.cancellations.map (·.permitId)).Nodup "duplicate durable cancellation identity"

/-- Permits, settlements, attempts and cancellations agree with one another. -/
def checkStatuses : Except String Unit := do
  let permitIds := Keyed.keys DurablePermitV1.permitId s.activePermits
  let settledPermits := Keyed.keys DurableSettlementV1.permitId s.settlements
  require (permitIds ∩ settledPermits = ∅) "a permit cannot be both active and settled"
  require (Keyed.keys AttemptRecordV1.permitId s.attempts = permitIds ∪ settledPermits)
    "every durable permit requires exactly one attempt"
  forM s.activePermits fun permit =>
    require ((s.attemptOf permit.permitId).map (·.status) =
        some (expectedStatus (s.cancellationOf permit.permitId) permit))
      "active permit and attempt status mismatch"
  forM s.settlements fun settlement =>
    require ((s.attemptOf settlement.permitId).map (·.status) =
        some (settlementAttemptStatus settlement.status))
      "settlement and attempt status mismatch"
  require (Keyed.keys DurableCancellationV1.permitId s.cancellations ⊆ permitIds ∪ settledPermits)
    "cancellation references an unknown permit"

/-- Operations and events are one log. -/
def checkLog : Except String Unit := do
  require (s.events.map (·.ordinal) = List.range s.events.length)
    "durable event ordinals must be contiguous"
  require (s.operations.length = s.generation ∧ s.events.length = s.generation)
    "each durable generation requires exactly one operation and event"
  require ((s.operations.head?.map (·.kind) = some .initializeRun) ∧
      ∀ o ∈ s.operations.tail, o.kind ≠ .initializeRun)
    "durable initialization must occur exactly at generation one"
  forM (s.operations.zip s.events) fun (operation, event) =>
    require (operation.outcome = .applied ∧ event.kind = operation.kind ∧
        event.operationId = operation.operationId ∧ event.subjectId = operation.subjectId ∧
        event.eventSha256 = sha256 (.event event.ordinal event.kind event.operationId
          event.subjectId operation.resultSha256))
      "durable operation and event lineage mismatch"

/-- The validator of a whole state. -/
def validateSnapshot : Except String Unit := do
  require (isIdentifier s.runId) "run_id"
  require (1 ≤ s.generation) "generation"
  require (optionalSha256 s.previousStateSha256 ∧ isSha256 s.policySha256 ∧
    isSha256 s.activationSha256) "state hashes must be lowercase SHA-256"
  require ((s.generation = 1) ↔ (s.previousStateSha256 = none))
    "only generation one may omit the previous state hash"
  require (s.policySha256 = sha256 (.basePolicy s.policy.basePolicy))
    "durable state policy hash mismatch"
  require (s.activationSha256 = sha256 (.activation s.policy.activation))
    "durable state activation hash mismatch"
  require (s.activeRuntimeRemainingNs =
      s.policy.basePolicy.runtimeLimitNs - s.usage.activeRuntimeNs)
    "remaining runtime does not match settled active runtime"
  s.checkIdentities
  checkLineages (fun id => (Keyed.dict (·.lineage.attemptId) s.attempts id).map (·.lineage))
    s.attempts (fun _ => none) (fun _ => none)
  s.checkStatuses
  s.checkLog sha256
  require (s.activeSlots ≤ s.policy.activation.maxConcurrentAgents)
    "active permits exceed activation concurrency"
  require (s.usage.peakConcurrency ≤ s.policy.activation.maxConcurrentAgents)
    "recorded peak concurrency exceeds activation"

/-- `DurableBudgetStateV1.model_validate`: the value itself, once it is valid. -/
def validated : Except String DurableBudgetStateV1 := do
  s.validateSnapshot sha256
  return s

end DurableBudgetStateV1

end Snapshot

end PokerDeliberation.Budgets
