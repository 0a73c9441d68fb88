import PokerDeliberation.Budgets.State

/-!
# The transition relation of the history reader

`validateStateSuccessor older newer` is the relation `_load_history` applies
to each adjacent pair of stored states. It is written independently of the
mutations that build the states.
-/

namespace PokerDeliberation.Budgets

open Lib

/-- `_is_policy_tightening`. -/
def isPolicyTightening (old new : DurableBudgetPolicyV1) : Prop :=
  new.basePolicy.maxDeliberationRounds ≤ old.basePolicy.maxDeliberationRounds ∧
    new.basePolicy.maxToolRetries ≤ old.basePolicy.maxToolRetries ∧
    new.basePolicy.maxRuntimeNs ≤ old.basePolicy.maxRuntimeNs ∧
    new.basePolicy.maxExternalCostMicroUsd ≤ old.basePolicy.maxExternalCostMicroUsd ∧
    new.basePolicy.maxProviderOutputBytes ≤ old.basePolicy.maxProviderOutputBytes ∧
    new.basePolicy.maxToolInputBytes ≤ old.basePolicy.maxToolInputBytes ∧
    new.basePolicy.maxToolOutputBytes ≤ old.basePolicy.maxToolOutputBytes ∧
    new.basePolicy.maxArtifactBytes ≤ old.basePolicy.maxArtifactBytes ∧
    new.basePolicy.maxRunBytes ≤ old.basePolicy.maxRunBytes ∧
    new.activation.maxConcurrentAgents ≤ old.activation.maxConcurrentAgents ∧
    new.activation.maxAutomaticRetries ≤ old.activation.maxAutomaticRetries

instance (old new : DurableBudgetPolicyV1) : Decidable (isPolicyTightening old new) := by
  unfold isPolicyTightening
  infer_instance

def OperationKind.settles (kind : OperationKind) : Prop :=
  kind = .settle ∨ kind = .releaseNoEffect

instance (kind : OperationKind) : Decidable kind.settles := by
  unfold OperationKind.settles
  infer_instance

/-- The kinds under which the status of an attempt may change. -/
def OperationKind.mutatesAttempts (kind : OperationKind) : Prop :=
  kind = .start ∨ kind.settles ∨ kind = .acknowledgeCancel

instance (kind : OperationKind) : Decidable kind.mutatesAttempts := by
  unfold OperationKind.mutatesAttempts
  infer_instance

/-- `ids == {subject}`; no set of identities is `{None}`. -/
def isOnly (ids : Finset String) : Option String → Prop
  | some subject => ids = {subject}
  | none => False

instance (ids : Finset String) (subject : Option String) : Decidable (isOnly ids subject) := by
  unfold isOnly
  split <;> infer_instance

section

-- `canonical_durable_sha256`
variable (sha256 : Payload → String)

variable (older newer : DurableBudgetStateV1)

/-- The identities of the records that differ between two tuples of one length. -/
def changedIds {α : Type} [DecidableEq α] (id : α → String) (before after : List α) :
    Finset String :=
  (((before.zip after).filter fun p => p.1 ≠ p.2).map fun p => id p.1).toFinset

/-- Generation, operation log and event log grow by one. -/
def checkLogGrowth : Except String Unit := do
  require (newer.runId = older.runId ∧ newer.generation = older.generation + 1 ∧
      newer.previousStateSha256 = some (sha256 (.state older)))
    "durable state generation lineage mismatch"
  require (newer.operations.length = older.operations.length + 1 ∧
      newer.events.length = older.events.length + 1)
    "durable successor must append one operation and event"
  require (newer.operations.take older.operations.length = older.operations)
    "durable idempotency history was rewritten"
  require (newer.events.take older.events.length = older.events)
    "durable event history was rewritten"

/-- Settlements, failure latch and policy. -/
def checkTerms (operation : IdempotencyRecordV1) : Except String Unit := do
  let kind := operation.kind
  require (newer.settlements.take older.settlements.length = older.settlements)
    "durable settlement history was rewritten"
  if kind.settles then
    require (newer.settlements.length = older.settlements.length + 1 ∧
        newer.settlements.getLast?.map (·.operationId) = some operation.operationId ∧
        newer.settlements.getLast?.map (·.settlementId) = operation.subjectId)
      "durable settlement transition is inconsistent"
  else
    require (newer.settlements.length = older.settlements.length)
      "non-settlement operation appended a settlement"
  require (older.failureLatch = none ∨ newer.failureLatch = older.failureLatch)
    "durable failure latch was cleared or rewritten"
  require (¬ (older.failureLatch = none ∧ newer.failureLatch ≠ none ∧
      ¬ (kind = .settle ∨ kind = .acknowledgeCancel)))
    "durable failure latch changed outside a terminal observation"
  require (newer.policy = older.policy ∨ isPolicyTightening older.policy newer.policy)
    "durable policy was not monotonically tightened"
  require (newer.policy ≠ older.policy ↔ kind = .tightenPolicy)
    "durable policy changed outside its typed operation"

/-- The permit named by the last settlement. -/
def closedPermit : Option String := newer.settlements.getLast?.map (·.permitId)

/-- The active permits. -/
def checkPermits (operation : IdempotencyRecordV1) : Except String Unit := do
  let kind := operation.kind
  let before := Keyed.dict DurablePermitV1.permitId older.activePermits
  let after := Keyed.dict DurablePermitV1.permitId newer.activePermits
  let olderIds := Keyed.keys DurablePermitV1.permitId older.activePermits
  let newerIds := Keyed.keys DurablePermitV1.permitId newer.activePermits
  if kind = .reserve then
    require (isOnly (newerIds \ olderIds) operation.subjectId ∧ olderIds \ newerIds = ∅ ∧
        ∀ id ∈ olderIds, after id = before id)
      "durable reserve did not append exactly one permit"
  else if kind = .start then
    require (newerIds = olderIds) "durable start changed permit identities"
    require (isOnly (olderIds.filter fun id => after id ≠ before id) operation.subjectId)
      "durable start changed the wrong permit"
  else if kind.settles then
    require (isOnly (olderIds \ newerIds) (closedPermit newer) ∧ newerIds \ olderIds = ∅ ∧
        ∀ id ∈ newerIds, after id = before id)
      "durable settlement did not close exactly one permit"
  else
    require (newer.activePermits = older.activePermits)
      "operation unexpectedly changed active permits"

/-- The attempt records. -/
def checkAttempts (operation : IdempotencyRecordV1) : Except String Unit := do
  let kind := operation.kind
  if kind = .reserve then
    require (newer.attempts.length = older.attempts.length + 1 ∧
        newer.attempts.take older.attempts.length = older.attempts ∧
        newer.attempts.getLast?.map (·.permitId) = operation.subjectId)
      "durable reserve did not append one attempt"
  else
    require (newer.attempts.length = older.attempts.length)
      "non-reserve operation changed attempt count"
    forM (older.attempts.zip newer.attempts) fun (before, after) =>
      require (before.permitId = after.permitId ∧ before.lineage = after.lineage)
        "durable attempt identity or lineage was rewritten"
    let changed := changedIds AttemptRecordV1.permitId older.attempts newer.attempts
    require (kind.mutatesAttempts ∨ newer.attempts = older.attempts)
      "operation unexpectedly changed attempt status"
    let expected := if kind.settles then closedPermit newer else operation.subjectId
    require (kind = .start ∨ kind.settles → isOnly changed expected)
      "operation changed the wrong attempt status"
    require (kind = .acknowledgeCancel → changed = ∅ ∨ isOnly changed expected)
      "cancel acknowledgment changed unrelated attempts"

/-- The cancellations. -/
def checkCancellations (operation : IdempotencyRecordV1) : Except String Unit := do
  let kind := operation.kind
  let before := Keyed.dict DurableCancellationV1.permitId older.cancellations
  let after := Keyed.dict DurableCancellationV1.permitId newer.cancellations
  let olderIds := Keyed.keys DurableCancellationV1.permitId older.cancellations
  let newerIds := Keyed.keys DurableCancellationV1.permitId newer.cancellations
  if kind = .requestCancel then
    require (isOnly (newerIds \ olderIds) operation.subjectId)
      "cancel request did not append its target"
  else if kind = .acknowledgeCancel then
    require (newerIds = olderIds ∧
        isOnly (olderIds.filter fun id => after id ≠ before id) operation.subjectId)
      "cancel acknowledgment changed the wrong target"
  else
    require (newer.cancellations = older.cancellations)
      "operation unexpectedly changed cancellation state"

/-- Settled usage, resource by resource. -/
def checkUsage (operation : IdempotencyRecordV1) : Except String Unit :=
  forM resourceOrder fun r => do
    let previous := older.usage.get r
    let current := newer.usage.get r
    require (¬ (r.cumulative ∧ current < previous)) "durable cumulative usage decreased"
    require (¬ (r.cumulative = false ∧ r ≠ .concurrencySlots ∧ current < previous))
      "durable maximum usage decreased"
    require (¬ (r ≠ .activeRuntimeNs ∧ operation.kind ≠ .settle ∧ current ≠ previous))
      "non-settlement operation changed effect usage"

/-- `_validate_state_successor`. -/
def validateStateSuccessor : Except String Unit := do
  checkLogGrowth sha256 older newer
  match newer.operations.getLast? with
  | none => throw "durable successor must append one operation and event"
  | some operation =>
    require (operation.kind ≠ .initializeRun) "initialize cannot appear after durable generation one"
    require (newer.events.getLast?.map (·.operationId) = some operation.operationId)
      "durable successor operation/event mismatch"
    checkTerms older newer operation
    checkPermits older newer operation
    checkAttempts older newer operation
    checkCancellations older newer operation
    checkUsage older newer operation

end

end PokerDeliberation.Budgets
