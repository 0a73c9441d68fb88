import PokerDeliberation.Identifiers
import PokerDeliberation.Lib.Checked
import PokerDeliberation.Lib.Keyed

/-!
# Durable budget contracts

The records of a durable budget run. Values a caller hands over (policy,
amounts, lineage, reservation, tool evidence) carry their validators as
fields, so an invalid one cannot be built. Records the store itself builds
from raw arguments are plain, and `check` is the validator that runs when one
is built. Canonical SHA-256 is a function of a `Payload`, the value that is
dumped and hashed.
-/

namespace PokerDeliberation.Budgets

open Lib

/-! ## Enumerations -/

inductive OwnerKind where
  | orchestrator | agent | tool | provider | internal
  deriving DecidableEq, Repr

inductive PermitStatus where
  | reserved | started
  deriving DecidableEq, Repr

inductive AttemptStatus where
  | reserved | started | succeeded | failed | cancelled | effectUnknown
  deriving DecidableEq, Repr

inductive SettlementStatus where
  | succeeded | failed | cancelled | releasedNoEffect | effectUnknown | overrun
  deriving DecidableEq, Repr

inductive CancellationState where
  | notRequested | requested | acknowledged | cancelled | unconfirmed | effectUnknown
  deriving DecidableEq, Repr

inductive OperationKind where
  | initializeRun | reserve | start | settle | releaseNoEffect | requestCancel | acknowledgeCancel
  | reconcile | tightenPolicy
  deriving DecidableEq, Repr

inductive OperationOutcome where
  | applied | exactReplay | refused | reconciliationRequired
  deriving DecidableEq, Repr

inductive MutationStatus where
  | applied | exactReplay
  deriving DecidableEq, Repr

inductive DurableFailureCode where
  | invalidInput | policyMismatch | activationMismatch | budgetExceeded | deadlineExceeded
  | clockRollback | concurrencyExceeded | idempotencyConflict | casConflict | runLocked
  | durabilityUncertain | effectUnknown | reconciliationRequired | settlementOverrun
  | cancelUnconfirmed | isolationRequired | retryForbidden | failureLatched
  deriving DecidableEq, Repr

inductive ExecutionClass where
  | localFree | external | unknown
  deriving DecidableEq, Repr

inductive FailureCategory where
  | validation | unsupported | unavailable | budget | deadline | cancel | policy
  | providerTransient | providerPermanent | toolTransient | toolDeterministic | verification
  | externalEffectUnknown | internal
  deriving DecidableEq, Repr

/-! ## Resources -/

inductive Resource where
  | activeRuntimeNs | providerAttempts | toolAttempts | retryAttempts | externalCostMicroUsd
  | providerOutputBytes | toolInputBytes | toolOutputBytes | artifactBytes | runBytes
  | concurrencySlots
  deriving DecidableEq, Repr

def resourceOrder : List Resource :=
  [.activeRuntimeNs, .providerAttempts, .toolAttempts, .retryAttempts, .externalCostMicroUsd,
    .providerOutputBytes, .toolInputBytes, .toolOutputBytes, .artifactBytes, .runBytes,
    .concurrencySlots]

theorem mem_resourceOrder (r : Resource) : r ∈ resourceOrder := by
  cases r <;> decide

/-- The resources that add up over a run; the others keep their maximum. -/
def Resource.cumulative : Resource → Bool
  | .activeRuntimeNs | .providerAttempts | .toolAttempts | .retryAttempts
  | .externalCostMicroUsd | .runBytes => true
  | _ => false

structure ResourceAmountsV1 where
  activeRuntimeNs : Nat := 0
  providerAttempts : Nat := 0
  toolAttempts : Nat := 0
  retryAttempts : Nat := 0
  externalCostMicroUsd : Nat := 0
  providerOutputBytes : Nat := 0
  toolInputBytes : Nat := 0
  toolOutputBytes : Nat := 0
  artifactBytes : Nat := 0
  runBytes : Nat := 0
  concurrencySlots : Nat := 0
  deriving DecidableEq, Repr

namespace ResourceAmountsV1

/-- `getattr(self, name)`. -/
def get (a : ResourceAmountsV1) : Resource → Nat
  | .activeRuntimeNs => a.activeRuntimeNs
  | .providerAttempts => a.providerAttempts
  | .toolAttempts => a.toolAttempts
  | .retryAttempts => a.retryAttempts
  | .externalCostMicroUsd => a.externalCostMicroUsd
  | .providerOutputBytes => a.providerOutputBytes
  | .toolInputBytes => a.toolInputBytes
  | .toolOutputBytes => a.toolOutputBytes
  | .artifactBytes => a.artifactBytes
  | .runBytes => a.runBytes
  | .concurrencySlots => a.concurrencySlots

/-- The amounts with the given values. -/
def ofValues (values : Resource → Nat) : ResourceAmountsV1 where
  activeRuntimeNs := values .activeRuntimeNs
  providerAttempts := values .providerAttempts
  toolAttempts := values .toolAttempts
  retryAttempts := values .retryAttempts
  externalCostMicroUsd := values .externalCostMicroUsd
  providerOutputBytes := values .providerOutputBytes
  toolInputBytes := values .toolInputBytes
  toolOutputBytes := values .toolOutputBytes
  artifactBytes := values .artifactBytes
  runBytes := values .runBytes
  concurrencySlots := values .concurrencySlots

@[simp] theorem get_ofValues (values : Resource → Nat) (r : Resource) :
    (ofValues values).get r = values r := by
  cases r <;> rfl

@[simp] theorem get_default (r : Resource) : (({} : ResourceAmountsV1)).get r = 0 := by
  cases r <;> rfl

@[simp] theorem get_runtime (n : Nat) (r : Resource) :
    ({ activeRuntimeNs := n } : ResourceAmountsV1).get r = if r = .activeRuntimeNs then n else 0 := by
  cases r <;> rfl

theorem get_setRuntime (a : ResourceAmountsV1) (n : Nat) (r : Resource) :
    ({ a with activeRuntimeNs := n } : ResourceAmountsV1).get r =
      if r = .activeRuntimeNs then n else a.get r := by
  cases r <;> rfl

end ResourceAmountsV1

/-- Settled usage; per-value byte fields retain their observed maximum. -/
structure DurableUsageV1 extends ResourceAmountsV1 where
  peakConcurrency : Nat := 0
  deriving DecidableEq, Repr

def DurableUsageV1.check (u : DurableUsageV1) : Except String Unit :=
  require (u.peakConcurrency ≤ 32) "peak_concurrency"

/-- The value of each resource after `actual` is settled on top of `usage`. -/
def appliedValue (usage actual : ResourceAmountsV1) (r : Resource) : Nat :=
  if r = .concurrencySlots then 0
  else if r.cumulative then usage.get r + actual.get r
  else max (usage.get r) (actual.get r)

def DurableUsageV1.applyActual (u : DurableUsageV1) (actual : ResourceAmountsV1) :
    Except String DurableUsageV1 := do
  let values : DurableUsageV1 :=
    { ResourceAmountsV1.ofValues (appliedValue u.toResourceAmountsV1 actual) with
      peakConcurrency := max u.peakConcurrency actual.concurrencySlots }
  values.check
  return values

/-! ## Policies -/

/-- The base policy. `max_runtime_seconds` is a float whose validator requires a
whole number of nanoseconds; it is kept as that number. The fixed
`max_concurrent_agents = 1` is left out. -/
structure BudgetPolicyV2 where
  maxDeliberationRounds : Nat := 1
  maxToolRetries : Nat := 0
  maxRuntimeNs : Nat := 300000000000
  maxExternalCostMicroUsd : Nat := 0
  maxProviderOutputBytes : Nat := 1000000
  maxToolInputBytes : Nat := 1000000
  maxToolOutputBytes : Nat := 1000000
  maxArtifactBytes : Nat := 1000000
  maxRunBytes : Nat := 10000000
  rounds_le : maxDeliberationRounds ≤ 10 := by decide
  retries_le : maxToolRetries ≤ 10 := by decide
  runtime_pos : 0 < maxRuntimeNs := by decide
  provider_output_ge : 1024 ≤ maxProviderOutputBytes := by decide
  tool_input_ge : 1024 ≤ maxToolInputBytes := by decide
  tool_output_ge : 1024 ≤ maxToolOutputBytes := by decide
  artifact_ge : 1024 ≤ maxArtifactBytes := by decide
  run_ge : 10240 ≤ maxRunBytes := by decide
  run_holds_artifact : maxArtifactBytes ≤ maxRunBytes := by decide
  deriving DecidableEq, Repr

def BudgetPolicyV2.runtimeLimitNs (p : BudgetPolicyV2) : Nat := p.maxRuntimeNs

structure ExecutionActivationV1 where
  maxConcurrentAgents : Nat := 1
  maxAutomaticRetries : Nat := 0
  concurrent_ge : 1 ≤ maxConcurrentAgents := by decide
  concurrent_le : maxConcurrentAgents ≤ 32 := by decide
  retries_le : maxAutomaticRetries ≤ 10 := by decide
  deriving DecidableEq, Repr

structure DurableBudgetPolicyV1 where
  basePolicy : BudgetPolicyV2 := {}
  activation : ExecutionActivationV1 := {}
  bounded : activation.maxAutomaticRetries ≤ basePolicy.maxToolRetries := by decide
  deriving DecidableEq, Repr

/-! ## Values handed over by callers -/

structure ExecutionLineageV1 where
  ownerKind : OwnerKind
  ownerId : String
  role : String
  phaseId : String
  assignmentId : Option String := none
  rootAttemptId : String
  parentAttemptId : Option String := none
  attemptId : String
  rootContextId : String
  parentContextId : Option String := none
  contextId : String
  contextSourceSha256 : String
  contextPolicySha256 : String
  contextIntegritySha256 : String
  executionOrdinal : Nat
  idempotencyKey : String
  idempotencyRequestSha256 : String
  identifiers : ([ownerId, phaseId, rootAttemptId, attemptId, rootContextId, contextId,
    idempotencyKey] ++ assignmentId.toList ++ parentAttemptId.toList ++
    parentContextId.toList).all isIdentifier = true
  role_valid : isRole role = true
  hashes : [contextSourceSha256, contextPolicySha256, contextIntegritySha256,
    idempotencyRequestSha256].all isSha256 = true
  paired : parentAttemptId.isNone = parentContextId.isNone
  initial : parentAttemptId = none → attemptId = rootAttemptId ∧ contextId = rootContextId
  fresh : ∀ p ∈ parentAttemptId, attemptId ≠ rootAttemptId ∧ attemptId ≠ p
  fresh_context : ∀ p ∈ parentContextId, contextId ≠ rootContextId ∧ contextId ≠ p
  deriving DecidableEq, Repr

structure ResourceReservationV1 where
  reservationId : String
  requested : ResourceAmountsV1
  executionClass : ExecutionClass := .localFree
  externalCostEstimateAuthenticated : Bool := false
  requestSha256 : String
  reservation_id_valid : isIdentifier reservationId = true
  request_hash_valid : isSha256 requestSha256 = true
  one_slot : requested.concurrencySlots = 1
  known_class : executionClass ≠ .unknown
  local_free : executionClass = .localFree →
    requested.externalCostMicroUsd = 0 ∧ externalCostEstimateAuthenticated = false
  external : executionClass = .external →
    0 < requested.externalCostMicroUsd ∧ externalCostEstimateAuthenticated = true
  deriving DecidableEq, Repr

structure DeterministicToolEvidenceV1 where
  toolRequestBytesSha256 : String
  toolResultBytesSha256 : String
  contractVersion : String
  reproductionMetadataSha256 : String
  executionOrdinal : Nat
  hashes : [toolRequestBytesSha256, toolResultBytesSha256, reproductionMetadataSha256].all
    isSha256 = true
  version_length : 1 ≤ contractVersion.length ∧ contractVersion.length ≤ 64
  deriving DecidableEq, Repr

end PokerDeliberation.Budgets
