import PokerDeliberation.Bridge.Storage

/-!
# The contracts of a role

How the controller builds a policy, a plan, a request, a confirmation, an
admission and an audit, and what it checks of a transport's answer. The digests,
the text of a request and the parser of a response are `Contracts`. Instants
are counted in microseconds.
-/

namespace PokerDeliberation.Bridge

open Lib BridgeRole

/-- What a call of the controller may raise. -/
inductive ControllerError where
  /-- an exception of the store, or of a model's validation -/
  | store (e : Raised)
  | executionIdentityCollisionError
  | bridgeControllerError
  | bridgeContractError
  deriving DecidableEq, Repr

/-- `isinstance(exc, BridgeStorageError)`. -/
def ControllerError.isStorageError : ControllerError → Bool
  | store .bridgeStorageError | executionIdentityCollisionError => true
  | _ => false

abbrev validationError : ControllerError := .store .validationError

/-- What a role is asked about, without the hashes. -/
structure RequestContext where
  authMode : RuntimeAuthMode
  bridgeRunId : String
  role : BridgeRole
  assignmentId : String
  attemptId : String
  expiresAt : Int
  sourceContext : BridgeSourceContext
  runtimePolicy : BridgeRuntimePolicy
  conformance : BridgeRoleConformanceBinding
  parentResults : List BridgeRoleResult
  deriving DecidableEq, Repr

/-- The envelope and the bytes of a request. -/
structure RequestText where
  envelopeSha256 : Sha256
  requestBytesSha256 : Sha256
  requestSha256 : Sha256
  content : String
  deriving DecidableEq, Repr

/-- A response as it is parsed. -/
structure RoleOutput where
  authMode : RuntimeAuthMode
  bridgeRunId : String
  role : BridgeRole
  assignmentId : String
  attemptId : String
  identity : CoreIdentity
  evidenceReferences : String
  conclusions : String
  deriving DecidableEq, Repr

/-- The digests, which leave the field they are for blank, the identifiers, the
texts of requests and the parser of responses. -/
structure Contracts where
  assignmentId : String → RuntimeAuthMode → BridgeRole → String
  attemptId : String → RuntimeAuthMode → BridgeRole → String
  /-- `PortableId` -/
  portable : String → Bool
  policySha256 : BridgeRuntimePolicy → Sha256
  planSha256 : BridgeRunPlan → Sha256
  confirmationSha256 : BridgeRoleConfirmation → Sha256
  admissionSha256 : BridgePreExecutionAdmission → Sha256
  auditSha256 : BridgeExecutionAudit → Sha256
  observedIdentitySha256 : String → ObservedIdentity → Sha256
  /-- the envelope with its validation, the instructions, the output schema and
  the cap of its bytes -/
  requestText : RequestContext → Except ControllerError RequestText
  /-- `parse_canonical_model(response_bytes, BridgeRoleOutputV1)` -/
  parseOutput : String → Option RoleOutput
  expectedEvidenceReferences : BoundedCodexBridgeRequest → String
  /-- `_project_adjudication_for_report` of the first parent -/
  adjudicationForReport : BoundedCodexBridgeRequest → String
  responseSize : String → Nat
  resultSha256 : RoleOutput → String → Sha256

variable (contracts : Contracts)

/-! ## Policies and plans -/

/-- `_mode_core_identity`. -/
def modeCoreIdentity : RuntimeAuthMode → CoreIdentity
  | .localOnly => ⟨"poker-deliberation-local/0.1.0", none, "local_provider", "none"⟩
  | .codexSubscription =>
    ⟨"openai-codex-cli/0.144.4", some "gpt-5.6-terra", "openai", "codex_home:saved_chatgpt_login"⟩
  | .openaiApi =>
    ⟨"openai-codex-python-sdk/0.144.4+codex-cli/0.144.4", some "gpt-5.6-terra",
      "openai_responses_api_no_retry", "env:OPENAI_API_KEY"⟩

def MAX_RESERVED_COST_MICRO_USD : Int := 1020000

/-- `build_runtime_policy`. -/
def buildRuntimePolicy (authMode : RuntimeAuthMode) (apiMaxCostMicroUsd : Option Int) :
    Except ControllerError BridgeRuntimePolicy := do
  require (authMode = .openaiApi ∨ apiMaxCostMicroUsd = none) .bridgeContractError
  let policy : BridgeRuntimePolicy ← match authMode with
    | .localOnly => pure {
        policySha256 := ""
        interface := "local_provider"
        identity := modeCoreIdentity authMode
        remoteRetentionPolicy := "none_local_only"
        reasoningEffort := none
        serviceTier := none
        budget := ⟨32768, 262144, 0, 0, 0, none⟩ }
    | .codexSubscription => pure {
        policySha256 := ""
        interface := "codex_exec_json"
        identity := modeCoreIdentity authMode
        remoteRetentionPolicy := "chatgpt_workspace_policy_unknown"
        reasoningEffort := some "medium"
        serviceTier := some "default"
        budget := ⟨32768, 262144, 120000, 24000, 6000, none⟩ }
    | .openaiApi => do
      require (∀ cost ∈ apiMaxCostMicroUsd, 0 < cost ∧ cost * 5 ≤ MAX_RESERVED_COST_MICRO_USD)
        .bridgeContractError
      require apiMaxCostMicroUsd.isSome .bridgeContractError
      pure {
        policySha256 := ""
        interface := "codex_sdk_responses"
        identity := modeCoreIdentity authMode
        remoteRetentionPolicy := "openai_api_org_policy_no_zdr_claim"
        reasoningEffort := some "medium"
        serviceTier := some "default"
        budget := ⟨32768, 262144, 120000, 24000, 6000, apiMaxCostMicroUsd.map Int.toNat⟩ }
  pure { policy with policySha256 := contracts.policySha256 policy }

/-- The roles whose skills a subscription run must have bound. -/
def skillScope : List Bool := [true, true, true, false, false]

/-- `_require_runtime_skill_scope`. -/
def requireRuntimeSkillScope (authMode : RuntimeAuthMode)
    (conformance : List BridgeRoleConformanceBinding) : Except ControllerError Unit :=
  require (conformance.map (·.hasCompleteRepositorySkillBinding) =
    if authMode = .codexSubscription then skillScope else skillScope.map fun _ => false)
    .bridgeContractError

/-- `build_run_plan`; `content` are the fields that nothing here reads. -/
def buildRunPlan (bridgeRunId : String) (authMode : RuntimeAuthMode)
    (sourceContext : BridgeSourceContext) (policy : BridgeRuntimePolicy)
    (conformance : List BridgeRoleConformanceBinding) (createdAt : Int) (content : String) :
    Except ControllerError BridgeRunPlan := do
  require (conformance.map (·.role) = BRIDGE_ROLE_ORDER) .bridgeContractError
  requireRuntimeSkillScope authMode conformance
  require (contracts.portable bridgeRunId) validationError
  let plan : BridgeRunPlan := {
    bridgeRunId := bridgeRunId
    authMode := authMode
    source := sourceContext.source
    roleConformance := conformance
    runtimePolicySha256 := policy.policySha256
    createdAt := createdAt
    content := content
    planSha256 := "" }
  pure { plan with planSha256 := contracts.planSha256 plan }

/-! ## Requests -/

/-- `build_role_request`. -/
def buildRoleRequest (context : RequestContext) :
    Except ControllerError BoundedCodexBridgeRequest := do
  require (context.conformance.hasCompleteRepositorySkillBinding =
    decide (context.authMode = .codexSubscription ∧ context.role ∈ BRIDGE_ROLE_ORDER.take 3))
    .bridgeContractError
  let text ← contracts.requestText context
  pure {
    attempt := {
      authMode := context.authMode
      bridgeRunId := context.bridgeRunId
      role := context.role
      assignmentId := context.assignmentId
      attemptId := context.attemptId
      requestSha256 := text.requestSha256 }
    assignmentExpiresAt := context.expiresAt
    runtimePolicy := context.runtimePolicy
    sourceTerminalManifestSha256 := context.sourceContext.source.sourceTerminalManifestSha256
    envelopeSha256 := text.envelopeSha256
    requestBytesSha256 := text.requestBytesSha256
    content := text.content }

/-! ## Confirmations and admissions -/

/-- `timedelta(seconds=…)`. -/
def seconds (n : Int) : Int := n * 1000000

def MAX_ASSIGNMENT_LIFETIME_SECONDS : Int := 604800

def MAX_CONFIRMATION_LIFETIME_SECONDS : Int := 900

/-- `build_role_confirmation`. -/
def buildRoleConfirmation (request : BoundedCodexBridgeRequest)
    (confirmationId idempotencyKey authority : String) (confirmedAt expiresAt : Int) :
    Except ControllerError BridgeRoleConfirmation := do
  let confirmation : BridgeRoleConfirmation := {
    confirmationId := confirmationId
    idempotencyKey := idempotencyKey
    attempt := request.attempt
    requestBytesSha256 := request.requestBytesSha256
    envelopeSha256 := request.envelopeSha256
    runtimePolicySha256 := request.runtimePolicy.policySha256
    identity := request.runtimePolicy.identity
    authority := authority
    confirmedAt := confirmedAt
    expiresAt := expiresAt
    confirmationSha256 := "" }
  require (contracts.portable confirmationId ∧ contracts.portable idempotencyKey) validationError
  require (0 < expiresAt - confirmedAt ∧
    expiresAt - confirmedAt ≤ seconds MAX_CONFIRMATION_LIFETIME_SECONDS) validationError
  require (confirmation.identity = modeCoreIdentity confirmation.attempt.authMode) validationError
  pure { confirmation with confirmationSha256 := contracts.confirmationSha256 confirmation }

/-- What `admit_role_request` compares a confirmation with. -/
def BridgeRoleConfirmation.Confirms (confirmation : BridgeRoleConfirmation)
    (request : BoundedCodexBridgeRequest) : Prop :=
  confirmation.attempt = request.attempt ∧
    confirmation.requestBytesSha256 = request.requestBytesSha256 ∧
    confirmation.envelopeSha256 = request.envelopeSha256 ∧
    confirmation.runtimePolicySha256 = request.runtimePolicy.policySha256 ∧
    confirmation.identity = request.runtimePolicy.identity

instance {confirmation : BridgeRoleConfirmation} {request : BoundedCodexBridgeRequest} :
    Decidable (confirmation.Confirms request) := inferInstanceAs (Decidable (_ ∧ _))

/-- `admit_role_request`. -/
def admitRoleRequest (request : BoundedCodexBridgeRequest) (confirmation : BridgeRoleConfirmation)
    (admittedAt : Int) (currentSourceTerminalManifestSha256 : Sha256) :
    Except ControllerError BridgePreExecutionAdmission := do
  require (confirmation.Confirms request ∧ confirmation.confirmedAt ≤ admittedAt ∧
    admittedAt < confirmation.expiresAt ∧ admittedAt < request.assignmentExpiresAt ∧
    currentSourceTerminalManifestSha256 = request.sourceTerminalManifestSha256)
    .bridgeContractError
  let admission : BridgePreExecutionAdmission := {
    attempt := request.attempt
    confirmationSha256 := confirmation.confirmationSha256
    runtimePolicySha256 := request.runtimePolicy.policySha256
    identity := request.runtimePolicy.identity
    sourceTerminalManifestSha256 := currentSourceTerminalManifestSha256
    admittedAt := admittedAt
    expiresAt := confirmation.expiresAt
    admissionSha256 := "" }
  require (admission.admittedAt < admission.expiresAt ∧
    admission.identity = modeCoreIdentity admission.attempt.authMode) validationError
  pure { admission with admissionSha256 := contracts.admissionSha256 admission }

/-! ## Transports -/

structure BridgeTransportResult where
  authMode : RuntimeAuthMode
  responseBytes : String
  usage : BridgeTransportUsage
  modelIdentityEvidence : ModelIdentityEvidence
  observed : ObservedIdentity
  runtimeIdentity : String
  threadIdSha256 : Sha256
  turnIdSha256 : Sha256
  launchedAt : Int
  completedAt : Int
  durationMs : Int
  streamBytes : Int
  itemTypes : List String
  deriving DecidableEq, Repr

structure BridgeTransportFailureEvidence where
  usage : Option BridgeTransportUsage
  responseBytes : Option Int
  runtimeIdentity : Option String
  modelIdentityEvidence : ModelIdentityEvidence
  observed : ObservedIdentity
  deriving DecidableEq, Repr

structure BridgeTransportFailure where
  reasonCode : String
  effectState : BridgeEffectState
  launchedAt : Option Int
  completedAt : Option Int
  durationMs : Option Int
  streamBytes : Int
  itemTypes : List String
  threadIdSha256 : Option Sha256
  turnIdSha256 : Option Sha256
  transportResult : Option BridgeTransportResult
  evidence : Option BridgeTransportFailureEvidence
  deriving DecidableEq, Repr

/-- How `transport.execute` ends. -/
inductive TransportOutcome where
  | returned (result : BridgeTransportResult)
  | failed (failure : BridgeTransportFailure)
  /-- any other exception -/
  | raised
  deriving DecidableEq, Repr

structure BridgeTransport where
  authMode : RuntimeAuthMode
  execute : BoundedCodexBridgeRequest → TransportOutcome
  /-- `validated_sealed_live_execution` -/
  validatedSealedLiveExecution : BoundedCodexBridgeRequest → BridgeTransportResult →
    Except Unit (Option LiveExecutionEvidence)

/-- `_transport_identity_matches_policy`. -/
def transportIdentityMatchesPolicy (request : BoundedCodexBridgeRequest)
    (result : BridgeTransportResult) : Prop :=
  let policy := request.runtimePolicy
  if request.attempt.authMode = .codexSubscription then
    result.runtimeIdentity = policy.identity.runtimeIdentity ∧
      result.modelIdentityEvidence = .requestedPinnedNoFallbackNoReroute ∧
      result.observed = ⟨none, none, none, none⟩
  else
    result.runtimeIdentity = policy.identity.runtimeIdentity ∧
      result.modelIdentityEvidence = .directObservation ∧
      result.observed = ⟨policy.identity.model, some policy.identity.modelProvider,
        policy.reasoningEffort, policy.serviceTier⟩

instance {request : BoundedCodexBridgeRequest} {result : BridgeTransportResult} :
    Decidable (transportIdentityMatchesPolicy request result) := by
  unfold transportIdentityMatchesPolicy
  infer_instance

/-- `_observed_transport_identity_sha256`. -/
def observedTransportIdentitySha256 (result : BridgeTransportResult) : Option Sha256 :=
  if result.modelIdentityEvidence = .directObservation then
    some (contracts.observedIdentitySha256 result.runtimeIdentity result.observed)
  else none

/-- `_observed_failure_identity_sha256`. -/
def observedFailureIdentitySha256 (evidence : BridgeTransportFailureEvidence) : Option Sha256 :=
  match evidence.modelIdentityEvidence, evidence.runtimeIdentity, evidence.observed with
  | .directObservation, some runtimeIdentity, ⟨some model, some provider, some effort, some tier⟩ =>
    some (contracts.observedIdentitySha256 runtimeIdentity
      ⟨some model, some provider, some effort, some tier⟩)
  | _, _, _ => none

/-- `_cancellation_kind`. -/
def cancellationKindOf : BridgeEffectState → CancellationKind
  | .cancelled => .cooperative
  | .cancelUnconfirmed => .unconfirmed
  | _ => .notRequested

/-- The failure the controller raises about a result it does not accept. -/
def BridgeTransportResult.failure (result : BridgeTransportResult) (reasonCode : String)
    (itemTypes : List String) : BridgeTransportFailure where
  reasonCode := reasonCode
  effectState := .failed
  launchedAt := some result.launchedAt
  completedAt := some result.completedAt
  durationMs := some result.durationMs
  streamBytes := result.streamBytes
  itemTypes := itemTypes
  threadIdSha256 := some result.threadIdSha256
  turnIdSha256 := some result.turnIdSha256
  transportResult := some result
  evidence := none

/-- `_validated_live_execution_evidence`. -/
def validatedLiveExecutionEvidence (transport : BridgeTransport)
    (request : BoundedCodexBridgeRequest) (result : BridgeTransportResult) :
    Except BridgeTransportFailure (Option LiveExecutionEvidence) :=
  match transport.validatedSealedLiveExecution request result with
  | .ok evidence => .ok evidence
  | .error _ => .error (result.failure "transport_live_attestation_invalid" result.itemTypes)

/-- `validate_role_response`. -/
def validateRoleResponse (request : BoundedCodexBridgeRequest) (responseBytes : String) :
    Option BridgeRoleResult := do
  let output ← contracts.parseOutput responseBytes
  guard (output.authMode = request.attempt.authMode ∧
    output.bridgeRunId = request.attempt.bridgeRunId ∧ output.role = request.attempt.role ∧
    output.assignmentId = request.attempt.assignmentId ∧
    output.attemptId = request.attempt.attemptId ∧
    output.identity.runtimeIdentity = request.runtimePolicy.identity.runtimeIdentity ∧
    output.identity.modelProvider = request.runtimePolicy.identity.modelProvider ∧
    output.identity.model = request.runtimePolicy.identity.model ∧
    output.evidenceReferences = contracts.expectedEvidenceReferences request)
  guard (request.attempt.role = .reportWriter →
    output.conclusions = contracts.adjudicationForReport request)
  pure ⟨output.role, responseBytes, contracts.resultSha256 output responseBytes⟩

/-- The item types beside a message and the reasoning behind it. -/
def unexpectedItemTypes (itemTypes : List String) : List String :=
  (itemTypes.filter fun item => item ≠ "agent_message" ∧ item ≠ "reasoning").dedup.insertionSort
    (· ≤ ·)

/-- The conditions of `_validate_transport`. -/
def WithinPolicy (request : BoundedCodexBridgeRequest) (result : BridgeTransportResult) : Prop :=
  let budget := request.runtimePolicy.budget
  let paid := request.attempt.authMode = .openaiApi
  result.authMode = request.attempt.authMode ∧
    result.runtimeIdentity = request.runtimePolicy.identity.runtimeIdentity ∧
    transportIdentityMatchesPolicy request result ∧
    unexpectedItemTypes result.itemTypes = [] ∧ "agent_message" ∈ result.itemTypes ∧
    contracts.responseSize result.responseBytes ≤ budget.maxResponseBytes ∧
    result.streamBytes ≤ budget.maxStreamBytes ∧ result.durationMs ≤ budget.maxRuntimeMs ∧
    result.usage.inputTokens ≤ budget.maxInputTokens ∧
    result.usage.outputTokens ≤ budget.maxOutputTokens ∧
    (paid → ∃ cost ∈ result.usage.estimatedCostMicroUsd, ∃ cap ∈ budget.maxCostMicroUsd,
      cost ≤ cap) ∧
    (¬ paid → result.usage.estimatedCostMicroUsd = none) ∧
    result.usage.costAuthority = if paid then .estimate else .notApplicable

instance {request : BoundedCodexBridgeRequest} {result : BridgeTransportResult} :
    Decidable (WithinPolicy contracts request result) := by
  unfold WithinPolicy
  infer_instance

/-- `_validate_transport`. -/
def validateTransport (request : BoundedCodexBridgeRequest) (result : BridgeTransportResult) :
    Except BridgeTransportFailure BridgeRoleResult :=
  if WithinPolicy contracts request result then
    match validateRoleResponse contracts request result.responseBytes with
    | some roleResult => .ok roleResult
    | none => .error (result.failure "structured_result_invalid"
        (unexpectedItemTypes result.itemTypes))
  else .error (result.failure "transport_policy_mismatch" (unexpectedItemTypes result.itemTypes))

/-! ## Audits -/

/-- What is recorded of an execution beside what it was bound to. -/
structure Observation where
  effectState : BridgeEffectState
  threadIdSha256 : Option Sha256
  turnIdSha256 : Option Sha256
  launchedAt : Option Int
  completedAt : Option Int
  durationMs : Option Int
  usage : Option BridgeTransportUsage
  responseBytes : Option Int
  streamBytes : Option Int
  unexpectedItemTypes : List String
  cancellationKind : CancellationKind
  resultSha256 : Option Sha256
  failureReasonCode : Option String
  modelIdentityEvidence : ModelIdentityEvidence
  observed : ObservedIdentity
  observedIdentitySha256 : Option Sha256
  liveExecutionEvidence : Option LiveExecutionEvidence
  deriving DecidableEq, Repr

/-- `Sha256`. -/
def isSha256 (value : String) : Bool :=
  value.length = 64 && value.toList.all fun c => c.isDigit || c ∈ ['a', 'b', 'c', 'd', 'e', 'f']

/-- An effect that has certainly been launched. -/
def BridgeEffectState.launchedForSure : BridgeEffectState → Bool
  | notLaunched | effectUnknown => false
  | _ => true

/-- What the fields of an audit are validated for. -/
structure Observation.Valid (seen : Observation) : Prop where
  hashes : ∀ value ∈ seen.threadIdSha256.toList ++ seen.turnIdSha256.toList, isSha256 value
  counts : ∀ count ∈ seen.durationMs.toList ++ seen.responseBytes.toList ++ seen.streamBytes.toList,
    0 ≤ count
  items : SortedUnique seen.unexpectedItemTypes ∧
    ∀ item ∈ seen.unexpectedItemTypes, contracts.portable item
  reason : ∀ reason ∈ seen.failureReasonCode, contracts.portable reason

instance {seen : Observation} : Decidable (seen.Valid contracts) :=
  decidable_of_iff
    ((∀ value ∈ seen.threadIdSha256.toList ++ seen.turnIdSha256.toList, isSha256 value) ∧
      (∀ count ∈ seen.durationMs.toList ++ seen.responseBytes.toList ++ seen.streamBytes.toList,
        0 ≤ count) ∧
      (SortedUnique seen.unexpectedItemTypes ∧
        ∀ item ∈ seen.unexpectedItemTypes, contracts.portable item) ∧
      ∀ reason ∈ seen.failureReasonCode, contracts.portable reason)
    ⟨fun h => ⟨h.1, h.2.1, h.2.2.1, h.2.2.2⟩, fun h => ⟨h.1, h.2, h.3, h.4⟩⟩

/-- `audit_state_is_closed`. -/
def BridgeExecutionAudit.stateIsClosed (audit : BridgeExecutionAudit) : Bool :=
  let identity := modeCoreIdentity audit.attempt.authMode
  let succeeded : Bool := audit.effectState = .succeeded
  let thread := audit.threadIdSha256.isSome
  let turn := audit.turnIdSha256.isSome
  decide (audit.runtimePolicy.identity = identity) &&
  (audit.liveExecutionEvidence.all fun evidence =>
    audit.attempt.authMode = .codexSubscription ∧
      evidence.requestSha256 = audit.attempt.requestSha256 ∧
      evidence.runtimeIdentity = audit.runtimePolicy.identity.runtimeIdentity ∧
      evidence.interface = audit.runtimePolicy.interface ∧
      evidence.threadIdSha256 = audit.threadIdSha256 ∧
      evidence.turnIdSha256 = audit.turnIdSha256) &&
  (!succeeded ||
    if audit.attempt.authMode = .codexSubscription then
      decide (audit.modelIdentityEvidence = .requestedPinnedNoFallbackNoReroute ∧
        audit.observed = ⟨none, none, none, none⟩ ∧ audit.observedIdentitySha256 = none)
    else
      decide (audit.modelIdentityEvidence = .directObservation ∧
        audit.observed = ⟨identity.model, some identity.modelProvider,
          audit.runtimePolicy.reasoningEffort, audit.runtimePolicy.serviceTier⟩ ∧
        audit.observedIdentitySha256.isSome)) &&
  decide (audit.cancellationKind = cancellationKindOf audit.effectState) &&
  (!turn || thread) &&
  (!(thread && !turn) || decide (audit.effectState = .effectUnknown ∧ audit.launchedAt = none)) &&
  (!audit.effectState.launchedForSure || audit.launchedAt.isSome && thread && turn) &&
  (!decide (audit.effectState = .notLaunched) || !audit.launchedAt.isSome && !thread && !turn) &&
  (succeeded == audit.resultSha256.isSome) &&
  audit.completedAt.isSome &&
  (!succeeded || audit.usage.isSome) &&
  (succeeded != audit.failureReasonCode.isSome)

/-- `build_execution_audit`. -/
def buildExecutionAudit (request : BoundedCodexBridgeRequest) (confirmation : BridgeRoleConfirmation)
    (admission : BridgePreExecutionAdmission) (seen : Observation) :
    Except ControllerError BridgeExecutionAudit := do
  require (seen.Valid contracts) validationError
  let audit : BridgeExecutionAudit := {
    attempt := request.attempt
    confirmationSha256 := confirmation.confirmationSha256
    admissionSha256 := admission.admissionSha256
    runtimePolicy := request.runtimePolicy
    liveExecutionEvidence := seen.liveExecutionEvidence
    modelIdentityEvidence := seen.modelIdentityEvidence
    observed := seen.observed
    observedIdentitySha256 := seen.observedIdentitySha256
    effectState := seen.effectState
    threadIdSha256 := seen.threadIdSha256
    turnIdSha256 := seen.turnIdSha256
    launchedAt := seen.launchedAt
    completedAt := seen.completedAt
    durationMs := seen.durationMs.map Int.toNat
    usage := seen.usage
    responseBytes := seen.responseBytes.map Int.toNat
    streamBytes := seen.streamBytes.map Int.toNat
    unexpectedItemTypes := seen.unexpectedItemTypes
    cancellationKind := seen.cancellationKind
    resultSha256 := seen.resultSha256
    failureReasonCode := seen.failureReasonCode
    auditSha256 := "" }
  require audit.stateIsClosed validationError
  pure { audit with auditSha256 := contracts.auditSha256 audit }

/-- `assert_no_replay`. -/
def assertNoReplay (request : BoundedCodexBridgeRequest) (existing : List Attempt) :
    Except ControllerError Unit :=
  require (∀ attempt ∈ existing,
    (attempt.authMode, attempt.bridgeRunId, attempt.assignmentId, attempt.attemptId) ≠
      (request.attempt.authMode, request.attempt.bridgeRunId, request.attempt.assignmentId,
        request.attempt.attemptId)) .bridgeContractError

end PokerDeliberation.Bridge
