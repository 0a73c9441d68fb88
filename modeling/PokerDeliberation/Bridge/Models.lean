/-!
# The artifacts of a bridge run

The roles in their order, the seven kinds of artifacts a revision may hold with
the fields the store and the controller read, and the three records that
publish a revision. What no function here reads of an artifact is its
`content`.
-/

namespace PokerDeliberation.Bridge

abbrev Sha256 := String

inductive RuntimeAuthMode where
  | localOnly | codexSubscription | openaiApi
  deriving DecidableEq, Repr

/-! ## Roles -/

inductive BridgeRole where
  | strategyAnalyst | mathToolAuditor | skepticFalsifier | adjudicator | reportWriter
  deriving DecidableEq, Repr

namespace BridgeRole

def BRIDGE_ROLE_ORDER : List BridgeRole :=
  [strategyAnalyst, mathToolAuditor, skepticFalsifier, adjudicator, reportWriter]

/-- `BRIDGE_ROLE_ORDER.index`. -/
def index : BridgeRole → Nat
  | strategyAnalyst => 0
  | mathToolAuditor => 1
  | skepticFalsifier => 2
  | adjudicator => 3
  | reportWriter => 4

/-- `BRIDGE_ROLE_ORDER[:ordinal]`. -/
def earlier (role : BridgeRole) : List BridgeRole := BRIDGE_ROLE_ORDER.take role.index

theorem mem_order (role : BridgeRole) : role ∈ BRIDGE_ROLE_ORDER := by
  cases role <;> decide

theorem mem_earlier {role other : BridgeRole} : other ∈ role.earlier ↔ other.index < role.index := by
  cases role <;> cases other <;> decide

theorem index_inj {role other : BridgeRole} (h : role.index = other.index) : role = other := by
  cases role <;> cases other <;> first | rfl | exact absurd h (by decide)

end BridgeRole

/-- What the files of a role are called after. -/
inductive RoleArtifact where
  | request | confirmation | admission | result | audit
  deriving DecidableEq, Repr

def RoleArtifact.all : List RoleArtifact := [.request, .confirmation, .admission, .result, .audit]

def RoleArtifact.text : RoleArtifact → String
  | request => "request"
  | confirmation => "confirmation"
  | admission => "admission"
  | result => "result"
  | audit => "audit"

def BridgeRole.digit : BridgeRole → String
  | strategyAnalyst => "0"
  | mathToolAuditor => "1"
  | skepticFalsifier => "2"
  | adjudicator => "3"
  | reportWriter => "4"

/-- `_role_artifact_name`. -/
def roleArtifactName (role : BridgeRole) (artifact : RoleArtifact) : String :=
  "roles/" ++ role.digit ++ "/" ++ artifact.text ++ ".json"

theorem roleArtifactName_inj {role role' : BridgeRole} {artifact artifact' : RoleArtifact}
    (h : roleArtifactName role artifact = roleArtifactName role' artifact') :
    role = role' ∧ artifact = artifact' := by
  revert h
  cases role <;> cases role' <;> cases artifact <;> cases artifact' <;> decide

/-! ## Artifacts -/

inductive BridgeArtifactKind where
  | runPlan | sourceContext | request | confirmation | admission | roleResult | executionAudit
  deriving DecidableEq, Repr

/-- The kind a role's file is parsed as. -/
def RoleArtifact.kind : RoleArtifact → BridgeArtifactKind
  | request => .request
  | confirmation => .confirmation
  | admission => .admission
  | result => .roleResult
  | audit => .executionAudit

structure BridgeSourceBinding where
  sourceTerminalManifestSha256 : Sha256
  content : String
  deriving DecidableEq, Repr

/-- What `_mode_core_identity` fixes. -/
structure CoreIdentity where
  runtimeIdentity : String
  model : Option String
  modelProvider : String
  credentialReference : String
  deriving DecidableEq, Repr

structure BridgeRoleConformanceBinding where
  role : BridgeRole
  hasCompleteRepositorySkillBinding : Bool
  content : String
  deriving DecidableEq, Repr

structure BridgeRunPlan where
  bridgeRunId : String
  authMode : RuntimeAuthMode
  source : BridgeSourceBinding
  roleConformance : List BridgeRoleConformanceBinding
  runtimePolicySha256 : Sha256
  createdAt : Int
  content : String
  planSha256 : Sha256
  deriving DecidableEq, Repr

structure BridgeSourceContext where
  source : BridgeSourceBinding
  content : String
  deriving DecidableEq, Repr

/-- The attempt of a role that requests, confirmations, admissions, audits and
identity claims are all bound to. -/
structure Attempt where
  authMode : RuntimeAuthMode
  bridgeRunId : String
  role : BridgeRole
  assignmentId : String
  attemptId : String
  requestSha256 : Sha256
  deriving DecidableEq, Repr

structure BridgeBudget where
  maxResponseBytes : Nat
  maxStreamBytes : Nat
  maxRuntimeMs : Nat
  maxInputTokens : Nat
  maxOutputTokens : Nat
  maxCostMicroUsd : Option Nat
  deriving DecidableEq, Repr

structure BridgeRuntimePolicy where
  policySha256 : Sha256
  interface : String
  identity : CoreIdentity
  remoteRetentionPolicy : String
  reasoningEffort : Option String
  serviceTier : Option String
  budget : BridgeBudget
  deriving DecidableEq, Repr

structure BoundedCodexBridgeRequest where
  attempt : Attempt
  assignmentExpiresAt : Int
  runtimePolicy : BridgeRuntimePolicy
  sourceTerminalManifestSha256 : Sha256
  envelopeSha256 : Sha256
  requestBytesSha256 : Sha256
  content : String
  deriving DecidableEq, Repr

structure BridgeRoleConfirmation where
  confirmationId : String
  idempotencyKey : String
  attempt : Attempt
  requestBytesSha256 : Sha256
  envelopeSha256 : Sha256
  runtimePolicySha256 : Sha256
  identity : CoreIdentity
  authority : String
  confirmedAt : Int
  expiresAt : Int
  confirmationSha256 : Sha256
  deriving DecidableEq, Repr

structure BridgePreExecutionAdmission where
  attempt : Attempt
  confirmationSha256 : Sha256
  runtimePolicySha256 : Sha256
  identity : CoreIdentity
  sourceTerminalManifestSha256 : Sha256
  admittedAt : Int
  expiresAt : Int
  admissionSha256 : Sha256
  deriving DecidableEq, Repr

structure BridgeRoleResult where
  role : BridgeRole
  content : String
  resultSha256 : Sha256
  deriving DecidableEq, Repr

inductive BridgeEffectState where
  | notLaunched | launched | succeeded | failed | timedOut | cancelled | cancelUnconfirmed
  | effectUnknown
  deriving DecidableEq, Repr

inductive ModelIdentityEvidence where
  | directObservation | requestedPinnedNoFallbackNoReroute | unavailable
  deriving DecidableEq, Repr

/-- What a transport has observed of the model that answered. -/
structure ObservedIdentity where
  model : Option String
  modelProvider : Option String
  reasoningEffort : Option String
  serviceTier : Option String
  deriving DecidableEq, Repr

inductive CostAuthority where
  | notApplicable | estimate | unavailable
  deriving DecidableEq, Repr

structure BridgeTransportUsage where
  inputTokens : Nat
  cachedInputTokens : Nat
  outputTokens : Nat
  reasoningOutputTokens : Nat
  estimatedCostMicroUsd : Option Nat
  costAuthority : CostAuthority
  deriving DecidableEq, Repr

structure LiveExecutionEvidence where
  requestSha256 : Sha256
  runtimeIdentity : String
  interface : String
  threadIdSha256 : Option Sha256
  turnIdSha256 : Option Sha256
  content : String
  deriving DecidableEq, Repr

inductive CancellationKind where
  | notRequested | cooperative | unconfirmed
  deriving DecidableEq, Repr

structure BridgeExecutionAudit where
  attempt : Attempt
  confirmationSha256 : Sha256
  admissionSha256 : Sha256
  runtimePolicy : BridgeRuntimePolicy
  /-- there is evidence if and only if the transport qualified as live -/
  liveExecutionEvidence : Option LiveExecutionEvidence
  modelIdentityEvidence : ModelIdentityEvidence
  observed : ObservedIdentity
  observedIdentitySha256 : Option Sha256
  effectState : BridgeEffectState
  threadIdSha256 : Option Sha256
  turnIdSha256 : Option Sha256
  launchedAt : Option Int
  completedAt : Option Int
  durationMs : Option Nat
  usage : Option BridgeTransportUsage
  responseBytes : Option Nat
  streamBytes : Option Nat
  unexpectedItemTypes : List String
  cancellationKind : CancellationKind
  resultSha256 : Option Sha256
  failureReasonCode : Option String
  auditSha256 : Sha256
  deriving DecidableEq, Repr

inductive BridgeArtifactModel where
  | runPlan (plan : BridgeRunPlan)
  | sourceContext (context : BridgeSourceContext)
  | request (request : BoundedCodexBridgeRequest)
  | confirmation (confirmation : BridgeRoleConfirmation)
  | admission (admission : BridgePreExecutionAdmission)
  | roleResult (result : BridgeRoleResult)
  | executionAudit (audit : BridgeExecutionAudit)
  deriving DecidableEq, Repr

namespace BridgeArtifactModel

def kind : BridgeArtifactModel → BridgeArtifactKind
  | runPlan _ => .runPlan
  | sourceContext _ => .sourceContext
  | request _ => .request
  | confirmation _ => .confirmation
  | admission _ => .admission
  | roleResult _ => .roleResult
  | executionAudit _ => .executionAudit

/-- `getattr(model, "auth_mode", …)`: not every kind has one. -/
def authMode : BridgeArtifactModel → Option RuntimeAuthMode
  | runPlan m => some m.authMode
  | sourceContext _ | roleResult _ => none
  | request m => some m.attempt.authMode
  | confirmation m => some m.attempt.authMode
  | admission m => some m.attempt.authMode
  | executionAudit m => some m.attempt.authMode

/-- The role a role's file is bound to. -/
def role : BridgeArtifactModel → Option BridgeRole
  | runPlan _ | sourceContext _ => none
  | request m => some m.attempt.role
  | confirmation m => some m.attempt.role
  | admission m => some m.attempt.role
  | roleResult m => some m.role
  | executionAudit m => some m.attempt.role

end BridgeArtifactModel

structure BridgeStoredArtifact where
  logicalName : String
  artifactKind : BridgeArtifactKind
  model : BridgeArtifactModel
  deriving DecidableEq, Repr

/-! ## Revisions -/

inductive BridgeTerminalStatus where
  | approvalRequired | inProgress | succeeded | failed | timedOut | cancelled | cancelUnconfirmed
  | effectUnknown
  deriving DecidableEq, Repr

/-- `status in {"approval_required", "in_progress"}`. -/
def BridgeTerminalStatus.isOpen : BridgeTerminalStatus → Bool
  | approvalRequired | inProgress => true
  | _ => false

structure BridgeArtifactInventory where
  logicalName : String
  artifactKind : BridgeArtifactKind
  sha256 : Sha256
  sizeBytes : Nat
  deriving DecidableEq, Repr

/-- A terminal manifest without its own hash. -/
structure ManifestPayload where
  bridgeRunId : String
  authMode : RuntimeAuthMode
  runtimePolicySha256 : Sha256
  revision : Nat
  transactionId : String
  previousManifestSha256 : Option Sha256
  expectedPointerSha256 : Option Sha256
  status : BridgeTerminalStatus
  sourceTerminalManifestSha256 : Sha256
  runPlanSha256 : Sha256
  createdAt : Int
  publishedAt : Int
  inventory : List BridgeArtifactInventory
  inventorySha256 : Sha256
  deriving DecidableEq, Repr

structure BridgeTerminalManifest extends ManifestPayload where
  manifestSha256 : Sha256
  deriving DecidableEq, Repr

structure BridgeCompletionMarker where
  bridgeRunId : String
  authMode : RuntimeAuthMode
  terminalRevision : Nat
  terminalTransactionId : String
  terminalStatus : BridgeTerminalStatus
  terminalManifestSha256 : Sha256
  inventorySha256 : Sha256
  publishedAt : Int
  deriving DecidableEq, Repr

structure BridgeCurrentPointer where
  bridgeRunId : String
  authMode : RuntimeAuthMode
  revision : Nat
  transactionId : String
  status : BridgeTerminalStatus
  manifestSha256 : Sha256
  inventorySha256 : Sha256
  completionMarkerSha256 : Option Sha256
  publishedAt : Int
  deriving DecidableEq, Repr

end PokerDeliberation.Bridge
