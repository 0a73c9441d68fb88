import PokerDeliberation.Lib.Text
import PokerDeliberation.Workflow.Ledger

/-!
# The workflow state machine

A run moves through twelve states and records each transition as an event. A
failure of the budget observation is projected into the state: from a state
that is not terminal as one more event, and from `COMPLETED` by replacing the
closing event. A snapshot is what the machine stores of its state and events.
-/

namespace PokerDeliberation.Workflow

open Lib Lib.Stateful
open Budgets (BudgetPolicyV2 ExecutionClass)

/-! ## States -/

inductive RunState where
  | intake | normalize | dataValidation | taskRouting | independentAnalysis | toolAndResearch
  | critique | adjudication | humanReviewRequired | finalSynthesis | completed
  | failedWithLimitations
  deriving DecidableEq, Repr

def RunState.value : RunState → String
  | .intake => "INTAKE"
  | .normalize => "NORMALIZE"
  | .dataValidation => "DATA_VALIDATION"
  | .taskRouting => "TASK_ROUTING"
  | .independentAnalysis => "INDEPENDENT_ANALYSIS"
  | .toolAndResearch => "TOOL_AND_RESEARCH"
  | .critique => "CRITIQUE"
  | .adjudication => "ADJUDICATION"
  | .humanReviewRequired => "HUMAN_REVIEW_REQUIRED"
  | .finalSynthesis => "FINAL_SYNTHESIS"
  | .completed => "COMPLETED"
  | .failedWithLimitations => "FAILED_WITH_LIMITATIONS"

def RunState.all : List RunState :=
  [.intake, .normalize, .dataValidation, .taskRouting, .independentAnalysis, .toolAndResearch,
    .critique, .adjudication, .humanReviewRequired, .finalSynthesis, .completed,
    .failedWithLimitations]

/-- `RunState(s)`. -/
def RunState.ofValue? (s : String) : Option RunState := RunState.all.find? (·.value = s)

/-- `TERMINAL_STATES`. -/
def RunState.terminal : RunState → Bool
  | .completed | .failedWithLimitations => true
  | _ => false

/-- `ALLOWED_TRANSITIONS`. -/
def allowedTransitions : RunState → List RunState
  | .intake => [.normalize, .failedWithLimitations]
  | .normalize => [.dataValidation, .failedWithLimitations]
  | .dataValidation => [.taskRouting, .humanReviewRequired, .failedWithLimitations]
  | .taskRouting => [.independentAnalysis, .toolAndResearch, .failedWithLimitations]
  | .independentAnalysis => [.toolAndResearch, .critique, .failedWithLimitations]
  | .toolAndResearch => [.critique, .humanReviewRequired, .failedWithLimitations]
  | .critique => [.toolAndResearch, .adjudication, .failedWithLimitations]
  | .adjudication => [.humanReviewRequired, .finalSynthesis, .failedWithLimitations]
  | .humanReviewRequired => [.toolAndResearch, .finalSynthesis, .failedWithLimitations]
  | .finalSynthesis => [.completed, .failedWithLimitations]
  | .completed => []
  | .failedWithLimitations => []

@[simp] theorem ofValue?_value (s : RunState) : RunState.ofValue? s.value = some s := by
  cases s <;> decide

theorem allowedTransitions_terminal {s : RunState} (h : s.terminal) : allowedTransitions s = [] := by
  cases s <;> simp_all [RunState.terminal, allowedTransitions]

theorem failed_allowed {s : RunState} (h : s.terminal = false) :
    .failedWithLimitations ∈ allowedTransitions s := by
  cases s <;> simp_all [RunState.terminal, allowedTransitions]

/-! ## The machine -/

structure StateEvent where
  source : RunState
  target : RunState
  reason : String
  deriving DecidableEq, Repr

structure WorkflowStateMachine where
  state : RunState := .intake
  events : List StateEvent := []
  deliberationRounds : Nat := 0
  toolRetries : List (String × Nat) := []
  ledger : SerialUsageLedger
  toolRetryLimit : Nat
  lastBudgetFailure : Option BudgetFailure := none

/-- A new machine; a budget of the older schema brings its own limit of tool retries. -/
def WorkflowStateMachine.create (policy : BudgetPolicyV2) (legacyRetryLimit : Option Nat)
    (reading : ClockReading) : Except BudgetFailure WorkflowStateMachine := do
  let ledger ← SerialUsageLedger.create policy reading {} true
  return { ledger, toolRetryLimit := legacyRetryLimit.getD policy.maxToolRetries }

inductive WorkflowError where
  | valueError (message : String)
  | budgetLimit (failure : BudgetFailure)
  deriving DecidableEq, Repr

abbrev MachineProc := Stateful WorkflowError WorkflowStateMachine

/-- `transition`. -/
def transition (target : RunState) (reason : String) : MachineProc Unit := do
  let machine ← read
  if target ∉ allowedTransitions machine.state then
    raise (.valueError
      ("illegal state transition: " ++ machine.state.value ++ " -> " ++ target.value))
  modify fun machine =>
    { machine with
      events := machine.events ++ [⟨machine.state, target, reason⟩]
      state := target }

def BudgetFailureCode.value : BudgetFailureCode → String
  | .invalidPolicy => "invalid_budget_policy"
  | .unsupportedConcurrency => "unsupported_concurrency"
  | .unsupportedLegacyField => "unsupported_legacy_field"
  | .clockRollback => "clock_rollback"
  | .runtimeExceeded => "runtime_exceeded"
  | .externalExecutionUnknown => "external_execution_unknown"
  | .externalCostUnknown => "external_cost_unknown"
  | .externalCostDisabled => "external_cost_disabled"
  | .externalCostExceeded => "external_cost_exceeded"
  | .providerOutputExceeded => "provider_output_exceeded"
  | .toolInputExceeded => "tool_input_exceeded"
  | .toolOutputExceeded => "tool_output_exceeded"
  | .artifactExceeded => "artifact_exceeded"
  | .runExceeded => "run_exceeded"
  | .usageMalformed => "usage_malformed"

def BudgetFailure.reason (failure : BudgetFailure) : String :=
  "strict budget observation failed: " ++ failure.code.value

/-- The closing event is replaced. -/
def replaceClosingEvent (failure : BudgetFailure) : MachineProc Unit := do
  let machine ← read
  match machine.events.getLast? with
  | some ⟨.finalSynthesis, .completed, _⟩ =>
    modify fun machine =>
      { machine with
        events := machine.events.dropLast ++
          [⟨.finalSynthesis, .failedWithLimitations, failure.reason⟩]
        state := .failedWithLimitations }
  | _ => raise (.valueError "completed state lacks its final synthesis transition")

/-- `_project_budget_failure`. -/
def projectBudgetFailure (failure : BudgetFailure) : MachineProc Unit := do
  modify fun machine => { machine with lastBudgetFailure := some failure }
  let machine ← read
  if machine.state = .completed then
    replaceClosingEvent failure
  else if machine.state ≠ .failedWithLimitations then
    modify fun machine =>
      { machine with
        events := machine.events ++ [⟨machine.state, .failedWithLimitations, failure.reason⟩]
        state := .failedWithLimitations }

/-- What an operation of the ledger returns or raises; the ledger is left as it leaves it. -/
def onLedger {α : Type} (x : Proc α) : MachineProc (Except BudgetFailure α) := fun machine =>
  (.ok (x machine.ledger).1, { machine with ledger := (x machine.ledger).2 })

/-- An observation of the ledger; the failure it raises is projected. -/
def projecting {α β : Type} (x : Proc α) (found : α → β) (lost : β) : MachineProc β := do
  match ← onLedger x with
  | .ok a =>
    modify fun machine => { machine with lastBudgetFailure := none }
    return found a
  | .error failure =>
    projectBudgetFailure failure
    return lost

/-- `enforce_runtime`. -/
def enforceRuntime (reading : ClockReading) : MachineProc Bool :=
  projecting (snapshot reading) (fun _ => true) false

/-- `checked_runtime_window`. -/
def checkedRuntimeWindow (reading : ClockReading) :
    MachineProc (Option (BudgetSnapshot × Nat × Nat)) :=
  projecting (runtimeWindow reading) some none

/-- `apply_usage`, `apply_usage_at`, `usage_snapshot`, `runtime_window` and
`pause_active_runtime`: the ledger raises through. -/
def throughLedger {α : Type} (x : Proc α) : MachineProc α := do
  match ← onLedger x with
  | .ok a => return a
  | .error failure => raise (.budgetLimit failure)

/-- `elapsed_seconds`, in nanoseconds. -/
def elapsedNs (reading : ClockReading) : MachineProc Nat := do
  match ← onLedger (snapshot reading) with
  | .ok snapshot => return snapshot.activeRuntimeNs
  | .error failure =>
    let machine ← read
    match failure.code, failure.observed with
    | .runtimeExceeded, some observed => return observed
    | _, _ => return machine.ledger.snapshot.activeRuntimeNs

/-- `start_deliberation_round`. -/
def startDeliberationRound : MachineProc Bool := do
  let machine ← read
  if machine.ledger.policy.maxDeliberationRounds ≤ machine.deliberationRounds then
    return false
  modify fun machine => { machine with deliberationRounds := machine.deliberationRounds + 1 }
  return true

/-- `allow_tool_retry`. -/
def allowToolRetry (toolName : String) : MachineProc Bool := do
  let machine ← read
  let retries := (machine.toolRetries.lookup toolName).getD 0
  if machine.toolRetryLimit ≤ retries then
    return false
  modify fun machine =>
    { machine with
      toolRetries := (toolName, retries + 1) :: machine.toolRetries.filter (·.1 ≠ toolName) }
  return true

/-! ## What is stored -/

/-- A value of a stored object, as far as the checks tell them apart. -/
inductive Field where
  | text (s : String)
  | other
  deriving DecidableEq, Repr

abbrev Fields := List (String × Field)

def StateEvent.fields (event : StateEvent) : Fields :=
  [("source", .text event.source.value), ("target", .text event.target.value),
    ("reason", .text event.reason)]

/-- `snapshot`: the state, the events and the counters. -/
def WorkflowStateMachine.stored (machine : WorkflowStateMachine) : Fields × List Fields :=
  ([("state", .text machine.state.value), ("events", .other), ("deliberation_rounds", .other),
    ("tool_retries", .other), ("elapsed_seconds", .other)], machine.events.map StateEvent.fields)

/-- `RunState(str(x))`; nothing but text reads as a state. -/
def readState : Option Field → Option RunState
  | some (.text s) => RunState.ofValue? s
  | _ => none

/-- `not reason.strip()`. -/
def isBlank (s : String) : Bool := (strip isUnicodeSpace s.toList).isEmpty

/-- `isinstance(reason, str) and reason.strip()`. -/
def hasReason : Option Field → Bool
  | some (.text s) => !isBlank s
  | _ => false

def eventKeys : List String := ["source", "target", "reason"]

/-- One event of `_validate_state_event_chain`: the state it leads to. -/
def validateEvent (current : RunState) (event : Fields) : Except String RunState := do
  require ((∀ field ∈ event, field.1 ∈ eventKeys) ∧ ∀ key ∈ eventKeys, key ∈ event.map Prod.fst)
    "state checkpoint event shape mismatch"
  match readState (event.lookup "source"), readState (event.lookup "target") with
  | some source, some target =>
    require (source = current ∧ target ∈ allowedTransitions source ∧
      hasReason (event.lookup "reason")) "state checkpoint event chain mismatch"
    return target
  | _, _ => throw "state checkpoint event state mismatch"

/-- `_validate_state_event_chain`. -/
def validateStateEventChain (state : Fields) (events : List Fields) : Except String Unit := do
  let current ← events.foldlM validateEvent .intake
  require (state.lookup "state" = some (.text current.value))
    "state checkpoint terminal event mismatch"

end PokerDeliberation.Workflow
