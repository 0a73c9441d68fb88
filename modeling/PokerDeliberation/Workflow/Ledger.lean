import PokerDeliberation.Budgets.Models
import PokerDeliberation.Lib.Stateful

/-!
# The serial usage ledger

`SerialUsageLedger` counts what one run uses. It settles the runtime between
two readings of the clock while it is active, adds usage within the policy's
limits, and keeps the first clock or limit failure it settles. What an
operation wrote before it raised stays written. Each operation is given the
clock reading it takes; the policy's hash is left out.
-/

namespace PokerDeliberation.Workflow

open Lib Lib.Stateful
open Budgets (BudgetPolicyV2 ExecutionClass)

inductive BudgetFailureCode where
  | invalidPolicy | unsupportedConcurrency | unsupportedLegacyField | clockRollback
  | runtimeExceeded | externalExecutionUnknown | externalCostUnknown | externalCostDisabled
  | externalCostExceeded | providerOutputExceeded | toolInputExceeded | toolOutputExceeded
  | artifactExceeded | runExceeded | usageMalformed
  deriving DecidableEq, Repr

structure BudgetFailure where
  code : BudgetFailureCode
  resource : String
  message : String
  limit : Option Nat := none
  observed : Option Nat := none
  deriving DecidableEq, Repr

/-! ## Usage -/

structure UsageDelta where
  providerAttempts : Nat := 0
  toolAttempts : Nat := 0
  retryAttempts : Nat := 0
  activeRuntimeNs : Nat := 0
  externalCostMicroUsd : Nat := 0
  providerOutputBytes : Nat := 0
  toolInputBytes : Nat := 0
  toolOutputBytes : Nat := 0
  artifactBytes : Nat := 0
  runBytes : Nat := 0
  peakConcurrency : Nat := 0
  deriving DecidableEq, Repr

abbrev BudgetSnapshot := UsageDelta

/-- `UsageDelta.combine`, and so `BudgetSnapshot.apply`. -/
def UsageDelta.combine (usage other : UsageDelta) : UsageDelta where
  providerAttempts := usage.providerAttempts + other.providerAttempts
  toolAttempts := usage.toolAttempts + other.toolAttempts
  retryAttempts := usage.retryAttempts + other.retryAttempts
  activeRuntimeNs := usage.activeRuntimeNs + other.activeRuntimeNs
  externalCostMicroUsd := usage.externalCostMicroUsd + other.externalCostMicroUsd
  providerOutputBytes := max usage.providerOutputBytes other.providerOutputBytes
  toolInputBytes := max usage.toolInputBytes other.toolInputBytes
  toolOutputBytes := max usage.toolOutputBytes other.toolOutputBytes
  artifactBytes := max usage.artifactBytes other.artifactBytes
  runBytes := usage.runBytes + other.runBytes
  peakConcurrency := max usage.peakConcurrency other.peakConcurrency

/-! ## Limits -/

structure LimitCheck where
  observed : Nat
  limit : Nat
  code : BudgetFailureCode
  resource : String

/-- The checks of `_validate_snapshot`, in their order. -/
def limitChecks (policy : BudgetPolicyV2) (s : BudgetSnapshot) : List LimitCheck :=
  [⟨s.activeRuntimeNs, policy.runtimeLimitNs, .runtimeExceeded, "active_runtime_ns"⟩,
    ⟨s.externalCostMicroUsd, policy.maxExternalCostMicroUsd, .externalCostExceeded,
      "external_cost_micro_usd"⟩,
    ⟨s.providerOutputBytes, policy.maxProviderOutputBytes, .providerOutputExceeded,
      "provider_output_bytes"⟩,
    ⟨s.toolInputBytes, policy.maxToolInputBytes, .toolInputExceeded, "tool_input_bytes"⟩,
    ⟨s.toolOutputBytes, policy.maxToolOutputBytes, .toolOutputExceeded, "tool_output_bytes"⟩,
    ⟨s.artifactBytes, policy.maxArtifactBytes, .artifactExceeded, "artifact_bytes"⟩,
    ⟨s.runBytes, policy.maxRunBytes, .runExceeded, "run_bytes"⟩,
    ⟨s.peakConcurrency, 1, .unsupportedConcurrency, "peak_concurrency"⟩]

/-- `_failure`. -/
def LimitCheck.failure (check : LimitCheck) : BudgetFailure where
  code := check.code
  resource := check.resource
  message := check.resource ++ " exceeded its strict budget"
  limit := some check.limit
  observed := some check.observed

/-- `_validate_snapshot`. -/
def validateSnapshot (policy : BudgetPolicyV2) (s : BudgetSnapshot) : Except BudgetFailure Unit :=
  match (limitChecks policy s).find? fun check => check.limit < check.observed with
  | some check => .error check.failure
  | none => .ok ()

/-- No counter is over its limit. -/
def WithinLimits (policy : BudgetPolicyV2) (s : BudgetSnapshot) : Prop :=
  ∀ check ∈ limitChecks policy s, check.observed ≤ check.limit

instance {policy : BudgetPolicyV2} {s : BudgetSnapshot} : Decidable (WithinLimits policy s) :=
  inferInstanceAs (Decidable (∀ check ∈ limitChecks policy s, check.observed ≤ check.limit))

theorem validateSnapshot_eq_ok {policy : BudgetPolicyV2} {s : BudgetSnapshot} {u : Unit} :
    validateSnapshot policy s = .ok u ↔ WithinLimits policy s := by
  unfold validateSnapshot WithinLimits
  cases hfind : (limitChecks policy s).find? fun check => check.limit < check.observed with
  | none => simpa using hfind
  | some check =>
    have hover := List.find?_some hfind
    simp only [reduceCtorEq, false_iff, not_forall]
    exact ⟨check, List.mem_of_find?_eq_some hfind, by simpa using hover⟩

/-! ## The clock -/

/-- What `clock.now_ns()` does. -/
inductive ClockReading where
  | raised (exception : String)
  | notInteger
  | value (n : Int)
  deriving DecidableEq, Repr

def clockMalformed (message : String) : BudgetFailure where
  code := .usageMalformed
  resource := "clock"
  message := message

/-- `_read_clock`. -/
def readClock : ClockReading → Except BudgetFailure Nat
  | .raised exception => .error (clockMalformed ("monotonic clock read failed: " ++ exception))
  | .notInteger => .error (clockMalformed "monotonic clock must return integer nanoseconds")
  | .value n =>
    if n < 0 then .error (clockMalformed "monotonic clock returned a negative value")
    else .ok n.toNat

def clockRollback (message : String) (last now : Nat) : BudgetFailure where
  code := .clockRollback
  resource := "active_runtime_ns"
  message := message
  observed := some (last - now)

/-! ## The ledger -/

structure SerialUsageLedger where
  policy : BudgetPolicyV2
  snapshot : BudgetSnapshot
  active : Bool
  lastNs : Nat
  clockFailure : Option BudgetFailure
  deriving DecidableEq

/-- `SerialUsageLedger(policy, clock=..., initial=..., active=...)`. -/
def SerialUsageLedger.create (policy : BudgetPolicyV2) (reading : ClockReading)
    (initial : BudgetSnapshot) (active : Bool) : Except BudgetFailure SerialUsageLedger := do
  let lastNs ← readClock reading
  validateSnapshot policy initial
  return { policy, snapshot := initial, active, lastNs, clockFailure := none }

abbrev Proc := Stateful BudgetFailure SerialUsageLedger

/-- `self._clock_failure = failure; raise BudgetLimitError(failure)`. -/
def latch {α : Type} (failure : BudgetFailure) : Proc α := do
  modify fun ledger => { ledger with clockFailure := some failure }
  raise failure

/-- `if self._clock_failure is not None: raise`. -/
def checkLatch : Proc Unit := do
  let ledger ← read
  match ledger.clockFailure with
  | some failure => raise failure
  | none => return ()

/-- The snapshot with the runtime since the last reading and the effect's usage. -/
def SerialUsageLedger.settled (ledger : SerialUsageLedger) (now : Nat)
    (effectDelta : Option UsageDelta) : BudgetSnapshot :=
  let elapsed := if ledger.active then now - ledger.lastNs else 0
  let candidate := if elapsed = 0 then ledger.snapshot
    else ledger.snapshot.combine { activeRuntimeNs := elapsed }
  match effectDelta with
  | some delta => candidate.combine delta
  | none => candidate

/-- `_settle_runtime_observation`. -/
def settleRuntimeObservation (now : Nat) (effectDelta : Option UsageDelta) : Proc Unit := do
  checkLatch
  let ledger ← read
  if now < ledger.lastNs then
    latch (clockRollback "monotonic clock moved backwards" ledger.lastNs now)
  modify fun ledger => { ledger with lastNs := now, snapshot := ledger.settled now effectDelta }
  let ledger ← read
  match validateSnapshot ledger.policy ledger.snapshot with
  | .ok _ => return ()
  | .error failure => latch failure

/-- `_observe_runtime`. -/
def observeRuntime (reading : ClockReading) : Proc Unit := do
  checkLatch
  match readClock reading with
  | .error failure => latch failure
  | .ok now => settleRuntimeObservation now none

/-! ## Operations -/

def currentSnapshot : Proc BudgetSnapshot := do
  let ledger ← read
  return ledger.snapshot

/-- `snapshot`. -/
def snapshot (reading : ClockReading) : Proc BudgetSnapshot := do
  observeRuntime reading
  currentSnapshot

/-- `runtime_window`: the snapshot, its clock observation and the deadline of the run. -/
def runtimeWindow (reading : ClockReading) : Proc (BudgetSnapshot × Nat × Nat) := do
  observeRuntime reading
  let ledger ← read
  return (ledger.snapshot, ledger.lastNs,
    ledger.lastNs + (ledger.policy.runtimeLimitNs - ledger.snapshot.activeRuntimeNs))

/-- The settled snapshot with the delta, if it is within the limits. -/
def candidate (delta : UsageDelta) (reading : ClockReading) : Proc BudgetSnapshot := do
  observeRuntime reading
  let ledger ← read
  lift (validateSnapshot ledger.policy (ledger.snapshot.combine delta))
  return ledger.snapshot.combine delta

/-- `apply`. -/
def apply (delta : UsageDelta) (reading : ClockReading) : Proc BudgetSnapshot := do
  let candidate ← candidate delta reading
  modify fun ledger => { ledger with snapshot := candidate }
  currentSnapshot

/-- `preflight`. -/
def preflight (delta : UsageDelta) (reading : ClockReading) : Proc BudgetSnapshot :=
  candidate delta reading

/-- `apply_at`; the observation is no integer, or any integer. -/
def applyAt (delta : UsageDelta) (observedAtNs : Option Int) : Proc BudgetSnapshot := do
  match observedAtNs with
  | some now =>
    if now < 0 then
      latch (clockMalformed
        "effect clock observation must be non-negative integer nanoseconds")
    settleRuntimeObservation now.toNat (some delta)
    currentSnapshot
  | none =>
    latch (clockMalformed "effect clock observation must be non-negative integer nanoseconds")

/-- The byte counts of a storage observation; a value that is no integer is none. -/
def storageBytes : Option Int → Option Int → Except BudgetFailure (Nat × Nat)
  | some artifactBytes, some runBytes =>
    if artifactBytes < 0 ∨ runBytes < 0 then .error malformed
    else .ok (artifactBytes.toNat, runBytes.toNat)
  | _, _ => .error malformed
where
  malformed : BudgetFailure :=
    { code := .usageMalformed
      resource := "storage_bytes"
      message := "storage byte observations must be non-negative integers" }

/-- The largest artifact seen, and the run as it is. -/
def SerialUsageLedger.stored (ledger : SerialUsageLedger) (bytes : Nat × Nat) : BudgetSnapshot :=
  { ledger.snapshot with
    artifactBytes := max ledger.snapshot.artifactBytes bytes.1
    runBytes := bytes.2 }

/-- `observe_storage`. -/
def observeStorage (artifactBytes runBytes : Option Int) : Proc BudgetSnapshot := do
  let bytes ← lift (storageBytes artifactBytes runBytes)
  let ledger ← read
  lift (validateSnapshot ledger.policy (ledger.stored bytes))
  modify fun ledger => { ledger with snapshot := ledger.stored bytes }
  currentSnapshot

/-- `pause`. -/
def pause (reading : ClockReading) : Proc BudgetSnapshot := do
  observeRuntime reading
  modify fun ledger => { ledger with active := false }
  currentSnapshot

/-- `resume`: it neither looks at the failure kept nor keeps its own. -/
def resume (reading : ClockReading) : Proc Unit := do
  let now ← lift (readClock reading)
  let ledger ← read
  if now < ledger.lastNs then
    raise (clockRollback "monotonic clock moved backwards while paused" ledger.lastNs now)
  modify fun ledger => { ledger with lastNs := now, active := true }

/-- The cost estimate of an external call: unknown, no integer, or any integer. -/
inductive CostEstimate where
  | unknown
  | notInteger
  | value (n : Int)
  deriving DecidableEq, Repr

def costFailure (policy : BudgetPolicyV2) : CostEstimate → Except BudgetFailure Nat
  | .unknown =>
    .error
      { code := .externalCostUnknown
        resource := "external_cost_micro_usd"
        message := "external call cost is unknown"
        limit := some policy.maxExternalCostMicroUsd }
  | .notInteger => .error malformed
  | .value n => if n < 0 then .error malformed else .ok n.toNat
where
  malformed : BudgetFailure :=
    { code := .usageMalformed
      resource := "external_cost_micro_usd"
      message := "external cost estimate must be a non-negative integer" }

/-- The checks of `begin_provider_attempt`, and the cost it charges. -/
def providerCost (policy : BudgetPolicyV2) (executionClass : ExecutionClass)
    (estimate : CostEstimate) : Except BudgetFailure Nat :=
  match executionClass with
  | .unknown =>
    .error
      { code := .externalExecutionUnknown
        resource := "provider_execution_class"
        message := "provider execution class is unknown" }
  | .localFree => .ok 0
  | .external =>
    if policy.maxExternalCostMicroUsd = 0 then
      .error
        { code := .externalCostDisabled
          resource := "external_cost_micro_usd"
          message := "external calls are disabled by a zero cost cap"
          limit := some 0 }
    else costFailure policy estimate

/-- `begin_provider_attempt`. -/
def beginProviderAttempt (executionClass : ExecutionClass) (estimate : CostEstimate)
    (reading : ClockReading) : Proc BudgetSnapshot := do
  let ledger ← read
  let cost ← lift (providerCost ledger.policy executionClass estimate)
  apply { providerAttempts := 1, externalCostMicroUsd := cost, peakConcurrency := 1 } reading

end PokerDeliberation.Workflow
