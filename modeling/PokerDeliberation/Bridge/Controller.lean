import PokerDeliberation.Bridge.Claims

/-!
# The bridge controller

`prepare_run`, `confirm_role` and `execute_confirmed_role` over the store. The
role is admitted and the admission published before the transport is reached,
its identities are claimed before its audit is published, and a failure of
either leaves the admission without an audit.
-/

namespace PokerDeliberation.Bridge

open Lib Lib.Interruptible BridgeRole

/-- What a call draws: readings of the clock and transaction identifiers,
numbered along its longest path. -/
structure CallContext where
  clock : Nat → Int
  transactionId : Nat → String

variable {Bytes : Type} [DecidableEq Bytes] (fmt : Format Bytes) (contracts : Contracts)

/-! ## The store, as the controller uses it -/

/-- `self.store.publish(request)`. -/
def publishRun (request : BridgePublishRequest) : ControllerProc Bytes BridgePublishOutcome := do
  let runId := request.runPlan.bridgeRunId
  let world ← read
  match ← attempt (within (ControllerStep.publishing runId) (World.run runId) (World.setRun runId)
      (publish fmt world.registry request)) with
  | .ok outcome => pure outcome
  | .error e => raise (.store e)

/-- `self.store.read_current(bridge_run_id)`. -/
def readCurrentRun (bridgeRunId : String) : ControllerProc Bytes (VerifiedBridgeRead Bytes) := do
  let world ← read
  lift ((readCurrent fmt world.registry bridgeRunId (world.run bridgeRunId)).mapError .store)

/-- `prepare_request`. -/
def prepareRequest (plan : BridgeRunPlan) (status : BridgeTerminalStatus)
    (expected : Option (VerifiedBridgeRead Bytes)) (transactionId : String) (publishedAt : Int)
    (artifacts : List BridgeStoredArtifact) : BridgePublishRequest where
  runPlan := plan
  status := status
  proposedRevision := match expected with
    | none => 1
    | some current => current.pointer.revision + 1
  transactionId := transactionId
  expectedRevision := expected.map (·.pointer.revision)
  expectedManifestSha256 := expected.map (·.manifest.manifestSha256)
  expectedPointerSha256 := expected.map (·.pointerSha256)
  publishedAt := publishedAt
  artifacts := artifacts

/-- `publish` and `read_current` of what was published. -/
def publishAndRead (request : BridgePublishRequest) :
    ControllerProc Bytes (VerifiedBridgeRead Bytes) := do
  let _ ← publishRun fmt request
  readCurrentRun fmt request.runPlan.bridgeRunId

/-! ## Artifacts -/

/-- One addition of `_append_artifacts`. -/
def appendArtifact (merged : List BridgeStoredArtifact) (item : BridgeStoredArtifact) :
    Except ControllerError (List BridgeStoredArtifact) := do
  require (item.logicalName ∉ merged.map (·.logicalName)) .bridgeControllerError
  pure (merged ++ [item])

/-- `_append_artifacts`. -/
def appendArtifacts (existing additions : List BridgeStoredArtifact) :
    Except ControllerError (List BridgeStoredArtifact) := do
  let merged ← additions.foldlM appendArtifact existing
  pure (merged.insertionSort fun x y => x.logicalName ≤ y.logicalName)

def roleArtifact (role : BridgeRole) (artifact : RoleArtifact) (model : BridgeArtifactModel) :
    BridgeStoredArtifact := ⟨roleArtifactName role artifact, artifact.kind, model⟩

/-- `read.decoded_artifacts()`. -/
def decodedOf (revision : Revision Bytes) : Except ControllerError (List BridgeStoredArtifact) :=
  (decodedArtifacts fmt revision).mapError .store

/-- `_model_at`; `select` is the type that is expected. -/
def modelAt {α : Type} (revision : Revision Bytes) (name : String)
    (select : BridgeArtifactModel → Option α) : Except ControllerError α := do
  let artifacts ← decodedOf fmt revision
  match artifacts.find? (·.logicalName = name) with
  | none => throw .bridgeControllerError
  | some artifact =>
    match select artifact.model with
    | some model => pure model
    | none => throw .bridgeControllerError

namespace BridgeArtifactModel

def plan? : BridgeArtifactModel → Option BridgeRunPlan
  | runPlan m => some m
  | _ => none

def source? : BridgeArtifactModel → Option BridgeSourceContext
  | sourceContext m => some m
  | _ => none

def request? : BridgeArtifactModel → Option BoundedCodexBridgeRequest
  | request m => some m
  | _ => none

def confirmation? : BridgeArtifactModel → Option BridgeRoleConfirmation
  | confirmation m => some m
  | _ => none

def admission? : BridgeArtifactModel → Option BridgePreExecutionAdmission
  | admission m => some m
  | _ => none

def result? : BridgeArtifactModel → Option BridgeRoleResult
  | roleResult m => some m
  | _ => none

/-- The attempt of an admission or an audit. -/
def attempt? : BridgeArtifactModel → Option Attempt
  | admission m => some m.attempt
  | executionAudit m => some m.attempt
  | _ => none

end BridgeArtifactModel

/-! ## Preparing a run -/

/-- The arguments of `prepare_run`, with what it finds in the repository. -/
structure PrepareRun where
  bridgeRunId : String
  sourceContext : BridgeSourceContext
  authMode : RuntimeAuthMode
  apiMaxCostMicroUsd : Option Int
  /-- `build_bridge_role_conformance` -/
  roleConformance : Except ControllerError (List BridgeRoleConformanceBinding)
  planContent : String

/-- The request of a role that has no parents. -/
def independentRequest (call : PrepareRun) (policy : BridgeRuntimePolicy)
    (conformance : List BridgeRoleConformanceBinding) (expiresAt : Int) (role : BridgeRole) :
    Except ControllerError BridgeStoredArtifact := do
  match conformance[role.index]? with
  | none => throw .bridgeContractError
  | some binding =>
    let request ← buildRoleRequest contracts {
      authMode := call.authMode
      bridgeRunId := call.bridgeRunId
      role := role
      assignmentId := contracts.assignmentId call.bridgeRunId call.authMode role
      attemptId := contracts.attemptId call.bridgeRunId call.authMode role
      expiresAt := expiresAt
      sourceContext := call.sourceContext
      runtimePolicy := policy
      conformance := binding
      parentResults := [] }
    pure (roleArtifact request.attempt.role .request (.request request))

/-- The first publication of a run. -/
def firstPublication (ctx : CallContext) (call : PrepareRun) :
    Except ControllerError BridgePublishRequest := do
  let createdAt := ctx.clock 0
  let policy ← buildRuntimePolicy contracts call.authMode call.apiMaxCostMicroUsd
  let conformance ← call.roleConformance
  let plan ← buildRunPlan contracts call.bridgeRunId call.authMode call.sourceContext policy
    conformance createdAt call.planContent
  let independent ← (BRIDGE_ROLE_ORDER.take 3).mapM
    (independentRequest contracts call policy conformance
      (createdAt + seconds MAX_ASSIGNMENT_LIFETIME_SECONDS))
  let expected : Option (VerifiedBridgeRead Unit) := none
  pure (prepareRequest plan .approvalRequired expected (ctx.transactionId 0) createdAt
    ([⟨"run_plan.json", .runPlan, .runPlan plan⟩,
      ⟨"source_context.json", .sourceContext, .sourceContext call.sourceContext⟩] ++ independent))

/-- `prepare_run`. -/
def prepareRun (ctx : CallContext) (call : PrepareRun) :
    ControllerProc Bytes (VerifiedBridgeRead Bytes) := do
  let publication ← lift (firstPublication contracts ctx call)
  publishAndRead fmt publication

/-! ## Confirming a role -/

/-- The current revision a confirmation may be bound to. -/
structure CurrentExpectations where
  revision : Option Nat
  manifestSha256 : Option Sha256
  inventorySha256 : Option Sha256
  pointerSha256 : Option Sha256
  deriving DecidableEq, Repr

/-- The arguments of `confirm_role`. -/
structure ConfirmRole where
  bridgeRunId : String
  role : BridgeRole
  authority : String
  confirmationId : String
  idempotencyKey : String
  expectedRequestSha256 : Sha256
  expectedRequestBytesSha256 : Sha256
  expectedEnvelopeSha256 : Sha256
  expectedRuntimePolicySha256 : Sha256
  expectedAuthMode : RuntimeAuthMode
  expectedIdentity : CoreIdentity
  expectedRemoteRetentionPolicy : String
  expectedCurrent : CurrentExpectations
  deriving DecidableEq, Repr

/-- What is confirmed is the request that was shown. -/
def ConfirmRole.Expects (call : ConfirmRole) (request : BoundedCodexBridgeRequest) : Prop :=
  call.expectedAuthMode = request.attempt.authMode ∧
    call.expectedRequestSha256 = request.attempt.requestSha256 ∧
    call.expectedRequestBytesSha256 = request.requestBytesSha256 ∧
    call.expectedEnvelopeSha256 = request.envelopeSha256 ∧
    call.expectedRuntimePolicySha256 = request.runtimePolicy.policySha256 ∧
    call.expectedIdentity = request.runtimePolicy.identity ∧
    call.expectedRemoteRetentionPolicy = request.runtimePolicy.remoteRetentionPolicy

instance {call : ConfirmRole} {request : BoundedCodexBridgeRequest} :
    Decidable (call.Expects request) := inferInstanceAs (Decidable (_ ∧ _))

/-- The identifiers of a confirmation that is there already. -/
def ConfirmRole.reuses (call : ConfirmRole) (artifact : BridgeStoredArtifact) : Bool :=
  artifact.model.confirmation?.any fun confirmation =>
    confirmation.confirmationId = call.confirmationId ∨
      confirmation.idempotencyKey = call.idempotencyKey

/-- `confirm_role` up to the claim of its identifiers. -/
def checkConfirmation (call : ConfirmRole) (now : Int) (current : VerifiedBridgeRead Bytes) :
    Except ControllerError (BoundedCodexBridgeRequest × BridgeRoleConfirmation) := do
  require (call.expectedCurrent = ⟨none, none, none, none⟩ ∨ call.expectedCurrent =
    ⟨some current.pointer.revision, some current.manifest.manifestSha256,
      some current.manifest.inventorySha256, some current.pointerSha256⟩) .bridgeControllerError
  require current.pointer.status.isOpen .bridgeControllerError
  let request ← modelAt fmt current.toRevision (roleArtifactName call.role .request) (·.request?)
  require (call.Expects request) .bridgeControllerError
  let artifacts ← decodedOf fmt current.toRevision
  require (∀ artifact ∈ artifacts, ¬ call.reuses artifact) .bridgeControllerError
  let confirmation ← buildRoleConfirmation contracts request call.confirmationId
    call.idempotencyKey call.authority now
    (min request.assignmentExpiresAt (now + seconds MAX_CONFIRMATION_LIFETIME_SECONDS))
  pure (request, confirmation)

/-- The publication of a confirmation. -/
def confirmationPublication (ctx : CallContext) (call : ConfirmRole)
    (current : VerifiedBridgeRead Bytes) (confirmation : BridgeRoleConfirmation) :
    Except ControllerError BridgePublishRequest := do
  let existing ← decodedOf fmt current.toRevision
  let artifacts ← appendArtifacts existing
    [roleArtifact call.role .confirmation (.confirmation confirmation)]
  let plan ← modelAt fmt current.toRevision "run_plan.json" (·.plan?)
  pure (prepareRequest plan .approvalRequired (some current) (ctx.transactionId 0) (ctx.clock 0)
    artifacts)

/-- `confirm_role`. -/
def confirmRole (ctx : CallContext) (call : ConfirmRole) :
    ControllerProc Bytes (VerifiedBridgeRead Bytes) := do
  let current ← readCurrentRun fmt call.bridgeRunId
  let (request, confirmation) ← lift (checkConfirmation fmt contracts call (ctx.clock 0) current)
  match ← attempt (claimConfirmationIdentifiers fmt
      { request.attempt with bridgeRunId := call.bridgeRunId, role := call.role }
      call.confirmationId call.idempotencyKey) with
  | .error e => raise (if ControllerError.isStorageError e then .bridgeControllerError else e)
  | .ok _ =>
    let publication ← lift (confirmationPublication fmt ctx call current confirmation)
    let _ ← publishRun fmt publication
    readCurrentRun fmt call.bridgeRunId

/-! ## Admitting a role -/

/-- The arguments of `execute_confirmed_role`. -/
structure ExecuteRole where
  bridgeRunId : String
  role : BridgeRole
  authMode : RuntimeAuthMode
  currentSourceTerminalManifestSha256 : Sha256
  transport : BridgeTransport

/-- `_existing_attempts`. -/
def existingAttempts (revision : Revision Bytes) : Except ControllerError (List Attempt) := do
  let artifacts ← decodedOf fmt revision
  pure (artifacts.filterMap fun artifact => artifact.model.attempt?)

/-- `_assert_turn_order`. -/
def assertTurnOrder (manifest : BridgeTerminalManifest) (role : BridgeRole) :
    Except ControllerError Unit := do
  let names := manifest.inventory.map (·.logicalName)
  forM role.earlier fun prior => require (roleArtifactName prior .result ∈ names)
    .bridgeControllerError
  require (roleArtifactName role .result ∉ names ∧ roleArtifactName role .audit ∉ names)
    .bridgeControllerError

/-- What an execution is bound to. -/
structure Binding where
  plan : BridgeRunPlan
  source : BridgeSourceContext
  request : BoundedCodexBridgeRequest
  confirmation : BridgeRoleConfirmation

/-- `execute_confirmed_role` up to the check of the registries. -/
def checkExecution (call : ExecuteRole) (current : VerifiedBridgeRead Bytes) :
    Except ControllerError Binding := do
  require current.pointer.status.isOpen .bridgeControllerError
  let plan ← modelAt fmt current.toRevision "run_plan.json" (·.plan?)
  let source ← modelAt fmt current.toRevision "source_context.json" (·.source?)
  let request ← modelAt fmt current.toRevision (roleArtifactName call.role .request) (·.request?)
  require (call.authMode = request.attempt.authMode ∧
    call.transport.authMode = request.attempt.authMode ∧ plan.authMode = request.attempt.authMode ∧
    current.pointer.authMode = request.attempt.authMode) .bridgeControllerError
  require (request.attempt.authMode = .codexSubscription →
    plan.roleConformance.map (·.hasCompleteRepositorySkillBinding) = skillScope)
    .bridgeControllerError
  assertTurnOrder current.manifest call.role
  let confirmation ← modelAt fmt current.toRevision (roleArtifactName call.role .confirmation)
    (·.confirmation?)
  let existing ← existingAttempts fmt current.toRevision
  assertNoReplay request existing
  pure ⟨plan, source, request, confirmation⟩

/-- The admission of a role and its publication. -/
def admissionPublication (ctx : CallContext) (call : ExecuteRole)
    (current : VerifiedBridgeRead Bytes) (binding : Binding) :
    Except ControllerError (BridgePreExecutionAdmission × BridgePublishRequest) := do
  let admission ← admitRoleRequest contracts binding.request binding.confirmation (ctx.clock 0)
    call.currentSourceTerminalManifestSha256
  let existing ← decodedOf fmt current.toRevision
  let artifacts ← appendArtifacts existing
    [roleArtifact call.role .admission (.admission admission)]
  pure (admission, prepareRequest binding.plan .inProgress (some current) (ctx.transactionId 0)
    (ctx.clock 0) artifacts)

/-- A role that may be handed to the transport. -/
structure Admitted (Bytes : Type) where
  binding : Binding
  admission : BridgePreExecutionAdmission
  current : VerifiedBridgeRead Bytes

/-- `execute_confirmed_role` up to the transport. -/
def admitRole (ctx : CallContext) (call : ExecuteRole) : ControllerProc Bytes (Admitted Bytes) := do
  let current ← readCurrentRun fmt call.bridgeRunId
  let binding ← lift (checkExecution fmt call current)
  let world ← read
  lift ((verifyExecutionIdentityHistory fmt world).mapError fun _ => .bridgeControllerError)
  let (admission, publication) ← lift (admissionPublication fmt contracts ctx call current binding)
  let _ ← publishRun fmt publication
  let admitted ← readCurrentRun fmt call.bridgeRunId
  let persisted ← lift (modelAt fmt admitted.toRevision (roleArtifactName call.role .admission)
    (·.admission?))
  lift (require (persisted = admission) (.store .bridgeStorageError))
  pure ⟨binding, admission, admitted⟩

/-! ## Executing a role -/

/-- What the controller makes of an execution. -/
inductive Answer where
  | accepted (result : BridgeTransportResult) (roleResult : BridgeRoleResult)
      (evidence : Option LiveExecutionEvidence)
  | failed (failure : BridgeTransportFailure) (evidence : Option LiveExecutionEvidence)
  | unclassified

/-- `transport.execute` and the validation of what it returns. -/
def answerOf (transport : BridgeTransport) (request : BoundedCodexBridgeRequest) : Answer :=
  match transport.execute request with
  | .raised => .unclassified
  | .failed failure => .failed failure none
  | .returned result =>
    match validatedLiveExecutionEvidence transport request result with
    | .error failure => .failed failure none
    | .ok evidence =>
      match validateTransport contracts request result with
      | .error failure => .failed failure evidence
      | .ok roleResult => .accepted result roleResult evidence

/-- What is recorded of an execution that succeeded. -/
def successObservation (result : BridgeTransportResult) (roleResult : BridgeRoleResult)
    (evidence : Option LiveExecutionEvidence) : Observation where
  effectState := .succeeded
  threadIdSha256 := some result.threadIdSha256
  turnIdSha256 := some result.turnIdSha256
  launchedAt := some result.launchedAt
  completedAt := some result.completedAt
  durationMs := some result.durationMs
  usage := some result.usage
  responseBytes := some (contracts.responseSize result.responseBytes)
  streamBytes := some result.streamBytes
  unexpectedItemTypes := []
  cancellationKind := .notRequested
  resultSha256 := some roleResult.resultSha256
  failureReasonCode := none
  modelIdentityEvidence := result.modelIdentityEvidence
  observed := result.observed
  observedIdentitySha256 := observedTransportIdentitySha256 contracts result
  liveExecutionEvidence := evidence

/-- What is kept of an observed name: the one that was asked for, if it is that. -/
def retained (expected observed : Option String) : Option String :=
  if observed = expected then expected else none

/-- What is recorded of a failure. -/
def failureObservation (request : BoundedCodexBridgeRequest) (failure : BridgeTransportFailure)
    (evidence : Option LiveExecutionEvidence) : Observation :=
  let policy := request.runtimePolicy
  let trusted := failure.transportResult
  let matching := trusted.filter fun result => transportIdentityMatchesPolicy request result
  let observed := match trusted with
    | some result => result.observed
    | none => (failure.evidence.map BridgeTransportFailureEvidence.observed).getD
        ⟨none, none, none, none⟩
  { effectState := failure.effectState
    threadIdSha256 := failure.threadIdSha256
    turnIdSha256 := failure.turnIdSha256
    launchedAt := failure.launchedAt
    completedAt := failure.completedAt
    durationMs := failure.durationMs
    usage := match trusted with
      | some result => some result.usage
      | none => failure.evidence.bind (·.usage)
    responseBytes := match trusted with
      | some result => some (contracts.responseSize result.responseBytes)
      | none => failure.evidence.bind (·.responseBytes)
    streamBytes := some failure.streamBytes
    unexpectedItemTypes := failure.itemTypes
    cancellationKind := cancellationKindOf failure.effectState
    resultSha256 := none
    failureReasonCode := some failure.reasonCode
    modelIdentityEvidence := match matching with
      | some result => result.modelIdentityEvidence
      | none => (failure.evidence.map BridgeTransportFailureEvidence.modelIdentityEvidence).getD
          .unavailable
    observed := {
      model := retained policy.identity.model observed.model
      modelProvider := retained (some policy.identity.modelProvider) observed.modelProvider
      reasoningEffort := retained policy.reasoningEffort observed.reasoningEffort
      serviceTier := retained policy.serviceTier observed.serviceTier }
    observedIdentitySha256 := match matching with
      | some result => observedTransportIdentitySha256 contracts result
      | none => failure.evidence.bind (observedFailureIdentitySha256 contracts)
    liveExecutionEvidence := evidence }

/-- What is recorded of any other exception. -/
def unclassifiedObservation (completedAt : Int) : Observation where
  effectState := .effectUnknown
  threadIdSha256 := none
  turnIdSha256 := none
  launchedAt := none
  completedAt := some completedAt
  durationMs := some 0
  usage := none
  responseBytes := none
  streamBytes := some 0
  unexpectedItemTypes := []
  cancellationKind := .notRequested
  resultSha256 := none
  failureReasonCode := some "transport_unclassified_exception"
  modelIdentityEvidence := .unavailable
  observed := ⟨none, none, none, none⟩
  observedIdentitySha256 := none
  liveExecutionEvidence := none

/-- The audit once more, with an effect that is unknown for this reason. -/
def BridgeExecutionAudit.unproven (audit : BridgeExecutionAudit) (reasonCode : String) :
    Observation where
  effectState := .effectUnknown
  threadIdSha256 := audit.threadIdSha256
  turnIdSha256 := audit.turnIdSha256
  launchedAt := audit.launchedAt
  completedAt := audit.completedAt
  durationMs := audit.durationMs.map Int.ofNat
  usage := audit.usage
  responseBytes := audit.responseBytes.map Int.ofNat
  streamBytes := audit.streamBytes.map Int.ofNat
  unexpectedItemTypes := audit.unexpectedItemTypes
  cancellationKind := .notRequested
  resultSha256 := none
  failureReasonCode := some reasonCode
  modelIdentityEvidence := audit.modelIdentityEvidence
  observed := audit.observed
  observedIdentitySha256 := audit.observedIdentitySha256
  liveExecutionEvidence := audit.liveExecutionEvidence

/-- What becomes of an audit whose claim ended so. -/
def auditAfterClaim (admitted : Admitted Bytes) (audit : BridgeExecutionAudit) :
    Except ControllerError Unit → Except ControllerError BridgeExecutionAudit
  | .ok _ => .ok audit
  | .error .executionIdentityCollisionError =>
    buildExecutionAudit contracts admitted.binding.request admitted.binding.confirmation
      admitted.admission (audit.unproven "execution_identity_registry_rejected")
  | .error e =>
    if e.isStorageError then
      buildExecutionAudit contracts admitted.binding.request admitted.binding.confirmation
        admitted.admission (audit.unproven "execution_identity_registry_corrupt")
    else .error e

/-- `_claim_execution_identity`. -/
def claimAudit (admitted : Admitted Bytes) (audit : BridgeExecutionAudit) :
    ControllerProc Bytes BridgeExecutionAudit := do
  let claimed ← attempt (claimExecutionIdentity fmt audit)
  lift (auditAfterClaim contracts admitted audit claimed)

/-- The status that goes with a failed effect. -/
def failureStatus : BridgeEffectState → BridgeTerminalStatus
  | .timedOut => .timedOut
  | .cancelled => .cancelled
  | .cancelUnconfirmed => .cancelUnconfirmed
  | .effectUnknown => .effectUnknown
  | _ => .failed

/-- The publication of a failure. -/
def failurePublication (admitted : Admitted Bytes) (role : BridgeRole) (transactionId : String)
    (publishedAt : Int) (audit : BridgeExecutionAudit) :
    Except ControllerError BridgePublishRequest := do
  let existing ← decodedOf fmt admitted.current.toRevision
  let artifacts ← appendArtifacts existing [roleArtifact role .audit (.executionAudit audit)]
  pure (prepareRequest admitted.binding.plan (failureStatus audit.effectState)
    (some admitted.current) transactionId publishedAt artifacts)

/-- `_publish_failure`. -/
def publishFailure (admitted : Admitted Bytes) (role : BridgeRole) (transactionId : String)
    (publishedAt : Int) (audit : BridgeExecutionAudit) :
    ControllerProc Bytes (VerifiedBridgeRead Bytes) := do
  let publication ← lift (failurePublication fmt admitted role transactionId publishedAt audit)
  publishAndRead fmt publication

/-- The role that is asked next, with the results it is shown. -/
def dependentParents (revision : Revision Bytes) (role : BridgeRole) (result : BridgeRoleResult) :
    Except ControllerError (Option (BridgeRole × List BridgeRoleResult)) :=
  match role with
  | .skepticFalsifier => do
    let parents ← (BRIDGE_ROLE_ORDER.take 3).mapM fun item =>
      if item = role then pure result
      else modelAt fmt revision (roleArtifactName item .result) (·.result?)
    pure (some (.adjudicator, parents))
  | .adjudicator => pure (some (.reportWriter, [result]))
  | _ => pure none

/-- `_dependent_request`. -/
def dependentRequest (admitted : Admitted Bytes) (role : BridgeRole) (result : BridgeRoleResult)
    (now : Int) : Except ControllerError (Option BoundedCodexBridgeRequest) := do
  match ← dependentParents fmt admitted.current.toRevision role result with
  | none => pure none
  | some (next, parents) =>
    let first ← modelAt fmt admitted.current.toRevision
      (roleArtifactName .strategyAnalyst .request) (·.request?)
    let plan := admitted.binding.plan
    match plan.roleConformance[next.index]? with
    | none => throw .bridgeContractError
    | some conformance =>
      let request ← buildRoleRequest contracts {
        authMode := first.attempt.authMode
        bridgeRunId := plan.bridgeRunId
        role := next
        assignmentId := contracts.assignmentId plan.bridgeRunId first.attempt.authMode next
        attemptId := contracts.attemptId plan.bridgeRunId first.attempt.authMode next
        expiresAt := now + seconds MAX_ASSIGNMENT_LIFETIME_SECONDS
        sourceContext := admitted.binding.source
        runtimePolicy := first.runtimePolicy
        conformance := conformance
        parentResults := parents }
      pure (some request)

/-- The publication of a result with its audit, and of the request that follows. -/
def successPublication (ctx : CallContext) (admitted : Admitted Bytes) (role : BridgeRole)
    (roleResult : BridgeRoleResult) (audit : BridgeExecutionAudit) :
    Except ControllerError BridgePublishRequest := do
  let dependent ← dependentRequest fmt contracts admitted role roleResult (ctx.clock 1)
  let existing ← decodedOf fmt admitted.current.toRevision
  let artifacts ← appendArtifacts existing
    ([roleArtifact role .result (.roleResult roleResult),
      roleArtifact role .audit (.executionAudit audit)] ++
      dependent.toList.map fun request => roleArtifact request.attempt.role .request (.request request))
  let status : BridgeTerminalStatus :=
    if dependent.isSome then .approvalRequired
    else if role = .reportWriter then .succeeded else .inProgress
  pure (prepareRequest admitted.binding.plan status (some admitted.current) (ctx.transactionId 1)
    (ctx.clock 2) artifacts)

/-- What follows an execution. -/
def settleRole (ctx : CallContext) (call : ExecuteRole) (admitted : Admitted Bytes)
    (answer : Answer) : ControllerProc Bytes (VerifiedBridgeRead Bytes) := do
  let build := buildExecutionAudit contracts admitted.binding.request admitted.binding.confirmation
    admitted.admission
  match answer with
  | .unclassified =>
    let audit ← lift (build (unclassifiedObservation (ctx.clock 1)))
    let audit ← claimAudit fmt contracts admitted audit
    match ← attempt (publishFailure fmt admitted call.role (ctx.transactionId 1) (ctx.clock 2) audit) with
    | .ok published => pure published
    | .error (_ : ControllerError) => raise .bridgeControllerError
  | .failed failure evidence =>
    let audit ← lift (build (failureObservation contracts admitted.binding.request failure evidence))
    let audit ← claimAudit fmt contracts admitted audit
    publishFailure fmt admitted call.role (ctx.transactionId 1) (ctx.clock 1) audit
  | .accepted result roleResult evidence =>
    let audit ← lift (build (successObservation contracts result roleResult evidence))
    let audit ← claimAudit fmt contracts admitted audit
    if audit.effectState ≠ .succeeded then
      publishFailure fmt admitted call.role (ctx.transactionId 1) (ctx.clock 1) audit
    else do
      let publication ← lift (successPublication fmt contracts ctx admitted call.role roleResult audit)
      let _ ← publishRun fmt publication
      readCurrentRun fmt call.bridgeRunId

/-- `transport.execute(request)`: the effect, whatever comes back. -/
def handOver (bridgeRunId : String) (role : BridgeRole) : ControllerProc Bytes Unit :=
  atomic (.execute bridgeRunId role) fun world =>
    { world with executed := world.executed ++ [(bridgeRunId, role)] }

/-- `execute_confirmed_role`. -/
def executeConfirmedRole (ctx : CallContext) (call : ExecuteRole) :
    ControllerProc Bytes (VerifiedBridgeRead Bytes) := do
  let admitted ← admitRole fmt contracts ctx call
  handOver call.bridgeRunId call.role
  settleRole fmt contracts ctx call admitted
    (answerOf contracts call.transport admitted.binding.request)

/-! ## Calls -/

inductive ControllerCall where
  | prepareRun (call : PrepareRun)
  | confirmRole (call : ConfirmRole)
  | executeConfirmedRole (call : ExecuteRole)

def ControllerCall.proc (ctx : CallContext) : ControllerCall →
    ControllerProc Bytes (VerifiedBridgeRead Bytes)
  | prepareRun call => Bridge.prepareRun fmt contracts ctx call
  | confirmRole call => Bridge.confirmRole fmt contracts ctx call
  | executeConfirmedRole call => Bridge.executeConfirmedRole fmt contracts ctx call

/-- The stores that calls of the controller lead to, each cut off anywhere. -/
inductive Leads (world : World Bytes) : World Bytes → Prop where
  | refl : Leads world world
  | call {between after : World Bytes} {ctx : CallContext} {call : ControllerCall}
      {cut : Option ControllerStep} :
      Leads world between → Leaves (call.proc fmt contracts ctx) between cut after →
      Leads world after

end PokerDeliberation.Bridge
