import PokerDeliberation.Lib.Checked
import PokerDeliberation.LocalData.Names

/-!
# Isolated job states

The durable state of an isolated job, with the matrix every state satisfies by
itself: its identities and hashes, its event list, and what each status needs
of the process, the evidence and the failure code. Instants are UTC
microseconds. The operation of a request and the policy are only hashed and
compared, so they stay a parameter.
-/

namespace PokerDeliberation.IsolatedJobs

open Lib LocalData

inductive IsolatedJobStatus where
  | prepared | launchCommitted | running | cancelRequested | cancelled | effectUnknown | reconciled
  | completed | failed
  deriving DecidableEq, Repr

/-- `TERMINAL_JOB_STATUSES`. -/
def terminalJobStatuses : List IsolatedJobStatus := [.cancelled, .reconciled, .completed, .failed]

def allowedTransitions : IsolatedJobStatus → List IsolatedJobStatus
  | .prepared => [.launchCommitted, .failed, .effectUnknown]
  | .launchCommitted => [.running, .cancelRequested, .failed, .effectUnknown]
  | .running => [.cancelRequested, .cancelled, .completed, .failed, .effectUnknown]
  | .cancelRequested => [.cancelled, .effectUnknown]
  | .effectUnknown => [.reconciled]
  | .cancelled | .reconciled | .completed | .failed => []

inductive JobFailureCode where
  | unsupportedPlatform | invalidRequest | identityMismatch | pathConfinementFailed
  | linkOrReparseDetected | hardlinkDetected | networkNotEnforceable | secretRejected
  | approvalMissing | approvalMismatch | contextMismatch | budgetMismatch | staleReplay
  | processLimit | memoryLimit | cpuLimit | wallClockLimit | stdoutLimit | stderrLimit
  | combinedOutputLimit | childExitNonzero | cancelled | effectUnknown | reconciliationRequired
  | storageFailure | runLocked | internalInvariantError
  deriving DecidableEq, Repr

def JobFailureCode.value : JobFailureCode → String
  | unsupportedPlatform => "unsupported_platform"
  | invalidRequest => "invalid_request"
  | identityMismatch => "identity_mismatch"
  | pathConfinementFailed => "path_confinement_failed"
  | linkOrReparseDetected => "link_or_reparse_detected"
  | hardlinkDetected => "hardlink_detected"
  | networkNotEnforceable => "network_not_enforceable"
  | secretRejected => "secret_rejected"
  | approvalMissing => "approval_missing"
  | approvalMismatch => "approval_mismatch"
  | contextMismatch => "context_mismatch"
  | budgetMismatch => "budget_mismatch"
  | staleReplay => "stale_replay"
  | processLimit => "process_limit"
  | memoryLimit => "memory_limit"
  | cpuLimit => "cpu_limit"
  | wallClockLimit => "wall_clock_limit"
  | stdoutLimit => "stdout_limit"
  | stderrLimit => "stderr_limit"
  | combinedOutputLimit => "combined_output_limit"
  | childExitNonzero => "child_exit_nonzero"
  | cancelled => "cancelled"
  | effectUnknown => "effect_unknown"
  | reconciliationRequired => "reconciliation_required"
  | storageFailure => "storage_failure"
  | runLocked => "run_locked"
  | internalInvariantError => "internal_invariant_error"

/-- `_portable_id`; the format is ASCII, so it is NFC and has no control characters. -/
def isPortableId (value : String) : Bool := portable value && !secretMetadata value

/-! ## Records -/

/-- A request; `content` is its operation, arguments and secret references. -/
structure IsolatedJobRequestV1 (Content : Type) where
  runId : String
  executionId : String
  attemptId : String
  contextId : String
  budgetRunId : String
  budgetPermitId : String
  content : Content
  deriving DecidableEq, Repr

structure ContextJobBindingV1 where
  contextId : String
  attemptId : String
  assignmentId : String
  role : String
  rootAttemptId : String
  parentAttemptId : Option String
  rootContextId : String
  parentContextId : Option String
  payloadSha256 : String
  sourceSha256 : String
  policySha256 : String
  integritySha256 : String
  expiresAt : Nat
  deriving DecidableEq, Repr

structure BudgetJobBindingV1 where
  budgetRunId : String
  permitId : String
  policySha256 : String
  activationSha256 : String
  reservationSha256 : String
  lineageSha256 : String
  isolationRequirementSha256 : String
  isolationEvidenceSha256 : String
  isolationBoundaryId : String
  deriving DecidableEq, Repr

structure ApprovalJobReferenceV1 where
  approvalRunId : String
  approvalRevision : Nat
  approvalPointerSha256 : String
  approvalManifestSha256 : String
  requestId : String
  deriving DecidableEq, Repr

/-- What a finished process left; `usage` are its time and memory counters. -/
structure JobEvidenceV1 where
  processId : Option Nat
  processCreationTime100ns : Option Nat
  exitCode : Option Nat
  terminationReason : Option String
  usage : List Nat
  totalProcesses : Nat
  activeProcesses : Nat
  stdoutBytes : Nat
  stderrBytes : Nat
  stdoutSha256 : String
  stderrSha256 : String
  commandLineSha256 : String
  inheritedHandleCount : Nat
  processTreeTerminationConfirmed : Bool
  jobLimitsRequeried : Bool
  executableIdentityRechecked : Bool
  outputComplete : Bool
  deriving DecidableEq, Repr

/-- The field formats and `exact_process_matrix`. -/
def JobEvidenceV1.check (e : JobEvidenceV1) : Except String Unit := do
  require ((∀ pid ∈ e.processId, 1 ≤ pid) ∧ (∀ code ∈ e.exitCode, code < 2 ^ 32) ∧
      3 ≤ e.inheritedHandleCount ∧ e.inheritedHandleCount ≤ 4) "input should be within its range"
  require (∀ reason ∈ e.terminationReason, isPortableId reason)
    "isolated-job identifier must use the portable format"
  require (isSha256 e.stdoutSha256 ∧ isSha256 e.stderrSha256 ∧ isSha256 e.commandLineSha256)
    "string should match pattern"
  require (e.processId.isNone = e.processCreationTime100ns.isNone)
    "job evidence process identity must be paired"
  require (e.processId.isSome → 1 ≤ e.totalProcesses) "job evidence process count is inconsistent"
  require (e.activeProcesses ≤ e.totalProcesses)
    "job evidence active process count exceeds total processes"
  require (e.processTreeTerminationConfirmed = decide (e.activeProcesses = 0))
    "job evidence tree-termination flag is inconsistent"
  require (e.outputComplete → e.processTreeTerminationConfirmed)
    "complete output requires a terminated process tree"

structure JobEventV1 where
  ordinal : Nat
  previousStatus : Option IsolatedJobStatus
  status : IsolatedJobStatus
  occurredAt : Nat
  reasonCode : String
  stateSha256 : String
  deriving DecidableEq, Repr

/-- The fields of `DurableIsolatedJobStateV1`. -/
structure JobState (Content : Type) where
  runId : String
  executionId : String
  generation : Nat
  previousStateSha256 : Option String := none
  request : IsolatedJobRequestV1 Content
  requestSha256 : String
  policy : Content
  policySha256 : String
  actionDigestSha256 : String
  contextBinding : ContextJobBindingV1
  budgetBinding : BudgetJobBindingV1
  approvalReference : ApprovalJobReferenceV1
  approvalRecheckBindingSha256 : String
  effectAdmissionRecheckBindingSha256 : Option String := none
  status : IsolatedJobStatus
  processId : Option Nat := none
  processCreationTime100ns : Option Nat := none
  evidence : Option JobEvidenceV1 := none
  failureCode : Option JobFailureCode := none
  reconciliationEvidenceSha256 : Option String := none
  events : List JobEventV1
  deriving DecidableEq, Repr

/-- The canonical bytes of a state, what strict JSON validation reads from bytes, and the
digests. Bytes that were written are read back as the same fields. -/
structure Codec (Content : Type) where
  encode : JobState Content → Option (List UInt8)
  decode : List UInt8 → Option (JobState Content)
  decode_encode : ∀ {s data}, encode s = some data → decode data = some s
  sha256 : List UInt8 → String
  requestSha256 : IsolatedJobRequestV1 Content → Option String
  policySha256 : Content → Option String
  eventSha256 : Nat → Option IsolatedJobStatus → IsolatedJobStatus → Nat → String → Option String

variable {Content : Type}

/-- `canonical_sha256`; `none` where the state has no canonical bytes. -/
def Codec.stateSha256 (codec : Codec Content) (s : JobState Content) : Option String :=
  (codec.encode s).map codec.sha256

/-! ## The state matrix -/

namespace JobState

def optionalSha256 (value : Option String) : Prop := ∀ v ∈ value, isSha256 v = true

instance (value : Option String) : Decidable (optionalSha256 value) :=
  inferInstanceAs (Decidable (∀ v ∈ value, _))

/-- The formats of the single fields. -/
def fieldCheck (s : JobState Content) : Except String Unit := do
  require (isPortableId s.runId ∧ isPortableId s.executionId)
    "isolated-job identifier must use the portable format"
  require (1 ≤ s.generation) "generation should be at least 1"
  require (optionalSha256 s.previousStateSha256 ∧ isSha256 s.requestSha256 ∧
      isSha256 s.policySha256 ∧ isSha256 s.actionDigestSha256 ∧
      isSha256 s.approvalRecheckBindingSha256 ∧
      optionalSha256 s.effectAdmissionRecheckBindingSha256 ∧
      optionalSha256 s.reconciliationEvidenceSha256) "string should match pattern"
  require (∀ pid ∈ s.processId, 1 ≤ pid) "process_id should be at least 1"
  forM s.evidence.toList JobEvidenceV1.check
  require (∀ event ∈ s.events, isPortableId event.reasonCode ∧ isSha256 event.stateSha256)
    "isolated-job identifier must use the portable format"
  require (1 ≤ s.events.length ∧ s.events.length ≤ 64) "events should have between 1 and 64 items"

/-- The identities and hashes of the state. -/
def identityCheck (codec : Codec Content) (s : JobState Content) : Except String Unit := do
  require ((s.generation = 1) ↔ s.previousStateSha256 = none)
    "only generation one may omit previous state identity"
  require (s.request.runId = s.runId ∧ s.request.executionId = s.executionId)
    "job state/request identity mismatch"
  require (some s.requestSha256 = codec.requestSha256 s.request) "job request hash mismatch"
  require (some s.policySha256 = codec.policySha256 s.policy) "job policy hash mismatch"
  require (s.budgetBinding.budgetRunId = s.request.budgetRunId) "job budget run mismatch"
  require (s.budgetBinding.permitId = s.request.budgetPermitId) "job budget permit mismatch"
  require (s.contextBinding.contextId = s.request.contextId) "job context ID mismatch"
  require (s.contextBinding.attemptId = s.request.attemptId) "job attempt ID mismatch"
  require (s.events.length = s.generation) "job event count must match state generation"

/-- The link of an event to the one before it. -/
def linkCheck (previous : Option JobEventV1) (event : JobEventV1) : Except String Unit :=
  match previous with
  | none =>
    require (event.previousStatus = none ∧ event.status = .prepared)
      "first job event must be prepared"
  | some previous =>
    require (event.previousStatus = some previous.status) "job event transition lineage mismatch"

/-- The events from the one at `index` on. -/
def eventsCheck (codec : Codec Content) : Nat → Option JobEventV1 → List JobEventV1 →
    Except String Unit
  | _, _, [] => .ok ()
  | index, previous, event :: events => do
    require (event.ordinal = index) "job events are not canonically ordered"
    require (some event.stateSha256 = codec.eventSha256 event.ordinal event.previousStatus
      event.status event.occurredAt event.reasonCode) "job event hash mismatch"
    linkCheck previous event
    eventsCheck codec (index + 1) (some event) events

/-- The effect-admission recheck by status. -/
def effectCheck (s : JobState Content) : Except String Unit :=
  if s.status ∈ [IsolatedJobStatus.prepared, .launchCommitted] then
    require (s.effectAdmissionRecheckBindingSha256 = none)
      "pre-effect job cannot claim effect-admission recheck"
  else
    require (s.status ∈ [IsolatedJobStatus.running, .cancelRequested, .cancelled, .completed] →
        s.effectAdmissionRecheckBindingSha256.isSome)
      "effectful job requires effect-admission recheck identity"

/-- The process identity by status. -/
def processCheck (s : JobState Content) : Except String Unit := do
  require (s.status ∈ [IsolatedJobStatus.launchCommitted, .running, .cancelRequested, .cancelled,
      .completed] → s.processId.isSome) "job process identity/status matrix mismatch"
  require (s.status = .prepared → s.processId = none) "prepared job cannot have a process identity"
  require (s.processId.isNone = s.processCreationTime100ns.isNone)
    "job process ID and creation time must be paired"
  require (∀ e ∈ s.evidence, s.processId.isSome ∧ e.processId = s.processId ∧
      e.processCreationTime100ns = s.processCreationTime100ns)
    "job evidence/process identity mismatch"

/-- The whole process tree is known to have ended. -/
def closedTree (e : JobEvidenceV1) : Bool :=
  e.activeProcesses = 0 && e.processTreeTerminationConfirmed && e.jobLimitsRequeried &&
    e.executableIdentityRechecked

/-- The evidence and the failure code by status. -/
def outcomeCheck (s : JobState Content) : Except String Unit := do
  require (s.status = .completed → s.evidence.any (fun e => e.exitCode = some 0 &&
      e.terminationReason = none && closedTree e && e.outputComplete) ∧ s.failureCode = none)
    "completed job lacks exact successful evidence"
  require (s.status = .cancelled → s.evidence.any (fun e => closedTree e &&
      e.terminationReason = some JobFailureCode.cancelled.value) ∧ s.failureCode = some .cancelled)
    "cancelled job lacks whole-tree termination evidence"
  require (s.status = .failed → s.processId.isSome → s.evidence.any closedTree)
    "failed job lacks closed-process evidence"
  require (s.status = .failed →
      s.events.getLast?.map (·.reasonCode) = some "effect_admission_refused_no_effect" →
      s.failureCode.isSome ∧ s.evidence.any (fun e => e.outputComplete &&
        e.terminationReason = s.failureCode.map (·.value)))
    "known-no-effect failure lacks complete termination evidence"
  require (s.status = .effectUnknown → s.failureCode = some .effectUnknown ∧
      s.reconciliationEvidenceSha256 = none) "effect-unknown state must remain unreconciled"
  require (s.status = .reconciled → s.failureCode = some .reconciliationRequired ∧
      s.reconciliationEvidenceSha256.isSome)
    "reconciled state requires explicit non-success evidence"
  require (s.status ∈ [IsolatedJobStatus.cancelled, .failed] → s.failureCode.isSome)
    "non-success terminal state requires a failure code"

/-- The validators of `DurableIsolatedJobStateV1`. -/
def check (codec : Codec Content) (s : JobState Content) : Except String Unit := do
  s.fieldCheck
  s.identityCheck codec
  eventsCheck codec 0 none s.events
  require (s.events.getLast?.map (·.status) = some s.status)
    "last job event must match current status"
  s.effectCheck
  s.processCheck
  s.outcomeCheck

end JobState

/-! ## Successors -/

section Successor

variable [DecidableEq Content]

/-- The bindings that never change. -/
def stableFields (older newer : JobState Content) : Prop :=
  newer.runId = older.runId ∧ newer.executionId = older.executionId ∧
    newer.request = older.request ∧ newer.requestSha256 = older.requestSha256 ∧
    newer.policy = older.policy ∧ newer.policySha256 = older.policySha256 ∧
    newer.actionDigestSha256 = older.actionDigestSha256 ∧
    newer.contextBinding = older.contextBinding ∧ newer.budgetBinding = older.budgetBinding ∧
    newer.approvalReference = older.approvalReference ∧
    newer.approvalRecheckBindingSha256 = older.approvalRecheckBindingSha256

instance (older newer : JobState Content) : Decidable (stableFields older newer) := by
  unfold stableFields
  infer_instance

/-- The process identity, both of its parts. -/
def JobState.process (s : JobState Content) : Option Nat × Option Nat :=
  (s.processId, s.processCreationTime100ns)

omit [DecidableEq Content] in
/-- The process identity is kept, or set at the launch. -/
def processSuccessor (older newer : JobState Content) : Except String Unit :=
  if older.process ≠ (none, none) then
    require (newer.process = older.process) "isolated-job process identity changed"
  else
    require (newer.process ≠ (none, none) → older.status = .prepared ∧
      newer.status = .launchCommitted) "isolated-job process identity was introduced out of order"

/-- `_validate_successor`. -/
def validateSuccessor (codec : Codec Content) (older newer : JobState Content) :
    Except String Unit := do
  require (newer.generation = older.generation + 1 ∧ codec.stateSha256 older ≠ none ∧
      newer.previousStateSha256 = codec.stateSha256 older ∧
      newer.status ∈ allowedTransitions older.status ∧ newer.events.dropLast = older.events ∧
      newer.events.getLast?.map (·.previousStatus) = some (some older.status))
    "isolated-job state transition lineage mismatch"
  require (stableFields older newer) "isolated-job immutable binding changed"
  processSuccessor older newer
  require (older.effectAdmissionRecheckBindingSha256.isSome →
      newer.effectAdmissionRecheckBindingSha256 = older.effectAdmissionRecheckBindingSha256)
    "isolated-job effect-admission identity changed"
  require (older.effectAdmissionRecheckBindingSha256 = none →
      newer.effectAdmissionRecheckBindingSha256.isSome →
      older.status = .launchCommitted ∧ older.processId.isSome ∧
        newer.status ∈ [IsolatedJobStatus.running, .effectUnknown])
    "isolated-job effect-admission identity was introduced out of order"
  require (older.evidence.isSome → newer.evidence = older.evidence)
    "isolated-job process evidence changed"
  require (older.evidence = none → newer.evidence.isSome →
      newer.status ∈ [IsolatedJobStatus.cancelled, .completed, .failed, .effectUnknown])
    "isolated-job process evidence was introduced before terminal state"

/-- `_validate_output_binding`. -/
def validateOutputBinding (codec : Codec Content) (s : JobState Content)
    (stdout stderr : List UInt8) : Except String Unit :=
  match s.evidence with
  | none =>
    require (stdout = [] ∧ stderr = []) "isolated-job output requires exact process evidence"
  | some e =>
    require (e.stdoutBytes = stdout.length ∧ e.stderrBytes = stderr.length ∧
        e.stdoutSha256 = codec.sha256 stdout ∧ e.stderrSha256 = codec.sha256 stderr)
      "isolated-job output/evidence binding mismatch"

end Successor

end PokerDeliberation.IsolatedJobs
