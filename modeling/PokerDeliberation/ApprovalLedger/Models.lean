import PokerDeliberation.Approvals.Audit
import PokerDeliberation.Lib.Keyed
import Mathlib.Data.String.Basic

/-!
# Approval requests, the ledger and its logs

The models of the V2 approval authority with the checks of their validators,
and how requests are built and added. Canonical bytes and SHA-256 are `Digests`
of the models; a digest that is kept in its own model does not look at itself.
Texts that no function reads (a plan's terms, a display) are one text each.
-/

namespace PokerDeliberation.ApprovalLedger

open Lib Approvals

abbrev Sha256 := String

inductive ApprovalCategory where
  | externalCode | packageInstall | externalService | longRunningCompute | outsideWorkspaceWrite
  | destructiveChange | secretAccess | paidData | objectiveChange
  deriving DecidableEq, Repr

/-- `"reject:any"`, or `"approve:"` with a category. -/
inductive AuthorityScope where
  | rejectAny
  | approve (category : ApprovalCategory)
  deriving DecidableEq, Repr

inductive DecisionValue where
  | approved | rejected
  deriving DecidableEq, Repr

inductive RequestState where
  | pending | approved | rejected | superseded
  deriving DecidableEq, Repr

def DecisionValue.state : DecisionValue → RequestState
  | .approved => .approved
  | .rejected => .rejected

inductive ReportRunStatus where
  | approvalRequired | completed | failedWithLimitations
  deriving DecidableEq, Repr

inductive VerificationStatus where
  | unverified | verified
  deriving DecidableEq, Repr

inductive RevocationStatus where
  | unknown | notRevoked | revoked
  deriving DecidableEq, Repr

inductive ActorType where
  | human | service
  deriving DecidableEq, Repr

/-! ## Actors -/

structure ApprovalActor where
  actorId : String
  actorType : ActorType
  authoritySource : String
  authorityScopes : List AuthorityScope
  verificationStatus : VerificationStatus
  verificationReferenceSha256 : Option Sha256
  sessionReferenceSha256 : Option Sha256
  credentialReferenceSha256 : Option Sha256
  verifiedAt : Option Instant
  authorityExpiresAt : Option Instant
  revocationStatus : RevocationStatus
  deriving DecidableEq, Repr

structure ApprovalAuthoritySnapshotV2 where
  providerId : String
  providerVersion : String
  resolvedAt : Instant
  actor : ApprovalActor
  actorSha256 : Sha256
  deriving DecidableEq, Repr

/-! ## Requests -/

/-- `terms` stands for what else is agreed. -/
structure CanonicalActionPlanV2 where
  actionCategory : ApprovalCategory
  executionId : String
  expiresAt : Instant
  terms : String
  deriving DecidableEq, Repr

structure ApprovalRequestV2 where
  requestId : String
  requestRevision : Nat
  ledgerRevision : Nat
  createdRunRevision : Nat
  stableProposalId : String
  actionPlan : CanonicalActionPlanV2
  actionDigestSha256 : Sha256
  display : String
  requiredAuthorityScope : AuthorityScope
  createdAt : Instant
  expiresAt : Instant
  sourcePhaseId : String
  sourceAttemptId : String
  requestIdempotencyKey : Sha256
  state : RequestState
  supersessionReference : Option String
  deriving DecidableEq, Repr

structure ApprovalLedgerV2 where
  runId : String
  ledgerRevision : Nat
  requests : List ApprovalRequestV2
  decisionCount : Nat
  decisionLogHeadSha256 : Option Sha256
  domainAuditCount : Nat
  domainAuditLogHeadSha256 : Option Sha256

/-! ## Decisions -/

structure ApprovalDecisionItemV2 where
  requestId : String
  expectedRequestRevision : Nat
  actionDigestSha256 : Sha256
  decision : DecisionValue
  deriving DecidableEq, Repr

/-- The order of `(request_id, decision)`. -/
def ApprovalDecisionItemV2.le (item other : ApprovalDecisionItemV2) : Prop :=
  item.requestId < other.requestId ∨
    item.requestId = other.requestId ∧ (item.decision = .approved ∨ other.decision = .rejected)

structure ApprovalDecisionBatch where
  runId : String
  expectedRunRevision : Nat
  expectedLedgerRevision : Nat
  actor : ApprovalActor
  decisionId : String
  idempotencyKey : String
  items : List ApprovalDecisionItemV2
  reason : String
  decisionAt : Instant
  revision_pos : 1 ≤ expectedRunRevision
  min_length : items ≠ []
  max_length : items.length ≤ 128
  request_revision_pos : ∀ item ∈ items, 1 ≤ item.expectedRequestRevision
  canonical_item_order : items.Pairwise ApprovalDecisionItemV2.le

structure ApprovalDecisionResultV2 where
  requestId : String
  requestRevision : Nat
  actionDigestSha256 : Sha256
  decision : DecisionValue
  deriving DecidableEq, Repr

structure ApprovalDecisionFailureV2 where
  code : ApprovalFailureCode
  message : String
  retryable : Bool
  runId : Option String
  requestId : Option String
  decisionId : Option String
  idempotencyKeySha256 : Option Sha256
  observedRunRevision : Option Nat
  observedLedgerRevision : Option Nat
  auditConfirmed : Bool
  reconciliationRequired : Bool
  deriving DecidableEq, Repr

inductive OutcomeKind where
  | committed | failed
  deriving DecidableEq, Repr

structure ApprovalDecisionOutcome where
  outcomeKind : OutcomeKind
  runId : String
  decisionId : String
  idempotencyKey : String
  actorSha256 : Sha256
  authoritySnapshotSha256 : Sha256
  batchSha256 : Sha256
  previousRunRevision : Nat
  currentRunRevision : Nat
  previousLedgerRevision : Nat
  currentLedgerRevision : Nat
  requestResults : List ApprovalDecisionResultV2
  remainingPendingCount : Nat
  runStatus : Option ReportRunStatus
  limitation : Option ApprovalDecisionFailureV2
  committedAt : Option Instant

structure ApprovalDecisionRecordV2 where
  sequence : Nat
  previousRecordSha256 : Option Sha256
  runId : String
  decisionId : String
  idempotencyKey : String
  actorSha256 : Sha256
  authoritySnapshot : ApprovalAuthoritySnapshotV2
  authoritySnapshotSha256 : Sha256
  batch : ApprovalDecisionBatch
  batchSha256 : Sha256
  outcome : ApprovalDecisionOutcome
  outcomeSha256 : Sha256
  committedAt : Instant
  recordSha256 : Sha256

structure ApprovalDomainAuditEventV2 where
  sequence : Nat
  previousEventSha256 : Option Sha256
  runId : String
  runRevision : Nat
  ledgerRevision : Nat
  decisionId : String
  actorSha256 : Sha256
  authoritySnapshotSha256 : Sha256
  batchSha256 : Sha256
  decisionRecordSha256 : Sha256
  outcomeSha256 : Sha256
  occurredAt : Instant
  eventSha256 : Sha256

/-! ## Reissues -/

inductive V1Status where
  | pending | approved | rejected
  deriving DecidableEq, Repr

/-- The V1 request; `content` stands for its other fields. -/
structure ApprovalRequest where
  approvalId : String
  status : V1Status
  createdAt : Instant
  decidedAt : Option Instant
  content : String
  deriving DecidableEq, Repr

inductive SourceKind where
  | historicalV1 | approvalV2
  deriving DecidableEq, Repr

structure ApprovalReissueSuccessorV2 where
  stableProposalId : String
  actionPlan : CanonicalActionPlanV2
  display : String
  sourcePhaseId : String
  sourceAttemptId : String

structure ApprovalReissueItemV2 where
  sourceKind : SourceKind
  sourceRequestId : String
  expectedSourceRequestRevision : Option Nat
  sourceActionDigestSha256 : Option Sha256
  successor : ApprovalReissueSuccessorV2

/-- Nothing is claimed of a V1 source; a V2 source is claimed exactly. -/
def ApprovalReissueItemV2.ClosedSource (item : ApprovalReissueItemV2) : Prop :=
  if item.sourceKind = .historicalV1 then
    item.expectedSourceRequestRevision = none ∧ item.sourceActionDigestSha256 = none
  else item.expectedSourceRequestRevision ≠ none ∧ item.sourceActionDigestSha256 ≠ none

structure ApprovalReissueBatchV2 where
  runId : String
  expectedRunRevision : Nat
  expectedLedgerRevision : Nat
  reissueId : String
  idempotencyKey : String
  items : List ApprovalReissueItemV2
  reason : String
  reissuedAt : Instant
  revision_pos : 1 ≤ expectedRunRevision
  min_length : items ≠ []
  max_length : items.length ≤ 128
  source_revision_pos : ∀ item ∈ items, ∀ revision ∈ item.expectedSourceRequestRevision, 1 ≤ revision
  canonical_item_order : items.Pairwise fun item other => item.sourceRequestId < other.sourceRequestId
  closed_source_matrix : ∀ item ∈ items, item.ClosedSource

structure HistoricalApprovalV1Binding where
  runId : String
  approvalId : String
  v1RequestSha256 : Sha256
  v1Status : V1Status
  deriving DecidableEq, Repr

structure HistoricalApprovalV1SnapshotV2 where
  request : ApprovalRequest
  binding : HistoricalApprovalV1Binding
  deriving DecidableEq, Repr

structure ApprovalReissueSourceBindingV2 where
  sourceKind : SourceKind
  sourceRequestId : String
  sourceRequestRevision : Option Nat
  sourceLedgerRevision : Option Nat
  sourceActionDigestSha256 : Option Sha256
  sourceRequestSha256 : Sha256
  historicalSnapshot : Option HistoricalApprovalV1SnapshotV2

structure ApprovalReissueResultV2 where
  source : ApprovalReissueSourceBindingV2
  successorRequestId : String
  successorRequestRevision : Nat
  successorLedgerRevision : Nat
  successorCreatedRunRevision : Nat
  successorActionDigestSha256 : Sha256
  successorRequestSha256 : Sha256

structure ApprovalReissueOutcomeV2 where
  runId : String
  reissueId : String
  idempotencyKey : String
  batchSha256 : Sha256
  previousRunRevision : Nat
  currentRunRevision : Nat
  previousLedgerRevision : Nat
  currentLedgerRevision : Nat
  results : List ApprovalReissueResultV2
  remainingPendingCount : Nat
  committedAt : Instant

structure ApprovalReissueRecordV2 where
  sequence : Nat
  previousRecordSha256 : Option Sha256
  runId : String
  reissueId : String
  idempotencyKey : String
  batch : ApprovalReissueBatchV2
  batchSha256 : Sha256
  previousManifestSha256 : Sha256
  previousPointerSha256 : Sha256
  previousLedgerSha256 : Option Sha256
  legacyProjection : List HistoricalApprovalV1SnapshotV2
  outcome : ApprovalReissueOutcomeV2
  outcomeSha256 : Sha256
  currentLedgerSha256 : Sha256
  committedAt : Instant
  recordSha256 : Sha256

/-! ## Execution -/

structure ApprovalExecutionRecheckBindingV2 where
  approvalRunId : String
  approvalRunRevision : Nat
  approvalPointerSha256 : Sha256
  approvalManifestSha256 : Sha256
  approvalLedgerSha256 : Sha256
  requestId : String
  requestRevision : Nat
  actionDigestSha256 : Sha256
  executionId : String
  decisionId : String
  decisionRecordSha256 : Sha256
  decisionOutcomeSha256 : Sha256
  actorSha256 : Sha256
  authoritySnapshotSha256 : Sha256
  authorityProviderId : String
  authorityProviderVersion : String
  recheckedAt : Instant
  validUntil : Instant
  bindingSha256 : Sha256
  deriving DecidableEq, Repr

/-! ## Digests -/

/-- SHA-256 over the canonical bytes of each model, under its domain. -/
structure Digests where
  actionDigestSha256 : CanonicalActionPlanV2 → Sha256
  approvalRequestIdempotencyKey : (runId phaseId stableProposalId : String) → ApprovalCategory →
    Sha256 → Sha256
  approvalRequestSha256 : ApprovalRequestV2 → Sha256
  v1RequestSha256 : ApprovalRequest → Sha256
  approvalActorSha256 : ApprovalActor → Sha256
  approvalAuthoritySnapshotSha256 : ApprovalAuthoritySnapshotV2 → Sha256
  approvalDecisionBatchSha256 : ApprovalDecisionBatch → Sha256
  approvalDecisionOutcomeSha256 : ApprovalDecisionOutcome → Sha256
  decisionRecord : ApprovalDecisionRecordV2 → Sha256
  domainAuditEvent : ApprovalDomainAuditEventV2 → Sha256
  approvalLedgerSha256 : ApprovalLedgerV2 → Sha256
  approvalReissueBatchSha256 : ApprovalReissueBatchV2 → Sha256
  approvalReissueOutcomeSha256 : ApprovalReissueOutcomeV2 → Sha256
  reissueRecord : ApprovalReissueRecordV2 → Sha256
  executionRecheckBinding : ApprovalExecutionRecheckBindingV2 → Sha256
  idempotencyReferenceSha256 : String → Sha256

variable (d : Digests)

/-- The digest without the field it is kept in. -/
def approvalDecisionRecordSha256 (record : ApprovalDecisionRecordV2) : Sha256 :=
  d.decisionRecord { record with recordSha256 := "" }

def approvalDomainAuditEventSha256 (event : ApprovalDomainAuditEventV2) : Sha256 :=
  d.domainAuditEvent { event with eventSha256 := "" }

def approvalReissueRecordSha256 (record : ApprovalReissueRecordV2) : Sha256 :=
  d.reissueRecord { record with recordSha256 := "" }

def approvalExecutionRecheckBindingSha256 (binding : ApprovalExecutionRecheckBindingV2) : Sha256 :=
  d.executionRecheckBinding { binding with bindingSha256 := "" }

/-! ## Validators -/

def ApprovalAuthoritySnapshotV2.Closed (snapshot : ApprovalAuthoritySnapshotV2) : Prop :=
  snapshot.actorSha256 = d.approvalActorSha256 snapshot.actor

/-- `closed_request_matrix`, and the bounds of the revisions. -/
def ApprovalRequestV2.Closed (request : ApprovalRequestV2) : Prop :=
  (1 ≤ request.requestRevision ∧ 1 ≤ request.ledgerRevision ∧ 1 ≤ request.createdRunRevision) ∧
    request.actionDigestSha256 = d.actionDigestSha256 request.actionPlan ∧
    request.requiredAuthorityScope = .approve request.actionPlan.actionCategory ∧
    (request.expiresAt = request.actionPlan.expiresAt ∧ request.createdAt < request.expiresAt) ∧
    (request.state = .superseded ↔ request.supersessionReference ≠ none) ∧
    request.supersessionReference ≠ some request.requestId

/-- The order of `(ledger_revision, request_id)`. -/
def ApprovalRequestV2.le (request other : ApprovalRequestV2) : Prop :=
  request.ledgerRevision < other.ledgerRevision ∨
    request.ledgerRevision = other.ledgerRevision ∧ request.requestId ≤ other.requestId

instance requestLe_decidable : DecidableRel ApprovalRequestV2.le :=
  fun _ _ => inferInstanceAs (Decidable (_ ∨ _))

instance requestClosed_decidable (request : ApprovalRequestV2) : Decidable (request.Closed d) :=
  inferInstanceAs (Decidable (_ ∧ _))

/-- `closed_ledger_matrix`, with the bounds of the fields. -/
def ApprovalLedgerV2.Closed (ledger : ApprovalLedgerV2) : Prop :=
  (∀ request ∈ ledger.requests, request.Closed d) ∧
    (ledger.requests.length ≤ 1024 ∧ ledger.decisionCount ≤ 1000000 ∧
      ledger.domainAuditCount ≤ 1000000) ∧
    (ledger.requests.map (·.requestId)).Nodup ∧
    (ledger.requests.map (·.requestIdempotencyKey)).Nodup ∧
    ledger.requests.Pairwise ApprovalRequestV2.le ∧
    (∀ request ∈ ledger.requests, request.ledgerRevision ≤ ledger.ledgerRevision) ∧
    (ledger.ledgerRevision = 0 → ledger.requests = []) ∧
    (ledger.decisionCount = 0 ↔ ledger.decisionLogHeadSha256 = none) ∧
    (ledger.domainAuditCount = 0 ↔ ledger.domainAuditLogHeadSha256 = none)

instance ledgerClosed_decidable (ledger : ApprovalLedgerV2) : Decidable (ledger.Closed d) :=
  inferInstanceAs (Decidable (_ ∧ _))

/-- `retry_matrix`. -/
def ApprovalDecisionFailureV2.Closed (failure : ApprovalDecisionFailureV2) : Prop :=
  (∀ revision ∈ failure.observedRunRevision, 1 ≤ revision) ∧
    (failure.retryable = true ↔ failure.code = .runLocked) ∧
    ¬ (failure.code = .auditUnconfirmed ∧ failure.auditConfirmed = true)

instance failureClosed_decidable (failure : ApprovalDecisionFailureV2) : Decidable failure.Closed :=
  inferInstanceAs (Decidable (_ ∧ _))

/-- `closed_outcome_matrix` of a committed outcome. -/
def ApprovalDecisionOutcome.Committed (outcome : ApprovalDecisionOutcome) : Prop :=
  (outcome.requestResults ≠ [] ∧
      outcome.currentRunRevision = outcome.previousRunRevision + 1 ∧
      outcome.currentLedgerRevision = outcome.previousLedgerRevision + 1 ∧
      outcome.committedAt ≠ none) ∧
    if ∃ result ∈ outcome.requestResults, result.decision = .approved then
      outcome.runStatus = some .failedWithLimitations ∧
        outcome.limitation.map (·.code) = some .externalExecutorUnavailable
    else
      outcome.runStatus =
          some (if outcome.remainingPendingCount = 0 then .completed else .approvalRequired) ∧
        outcome.limitation = none

/-- `closed_outcome_matrix` of a failed outcome, which changes nothing. -/
def ApprovalDecisionOutcome.MutationZero (outcome : ApprovalDecisionOutcome) : Prop :=
  outcome.requestResults = [] ∧ outcome.remainingPendingCount = 0 ∧ outcome.runStatus = none ∧
    outcome.limitation = none ∧ outcome.currentRunRevision = outcome.previousRunRevision ∧
    outcome.currentLedgerRevision = outcome.previousLedgerRevision ∧ outcome.committedAt = none

instance committed_decidable (outcome : ApprovalDecisionOutcome) : Decidable outcome.Committed :=
  inferInstanceAs (Decidable (_ ∧ _))

instance mutationZero_decidable (outcome : ApprovalDecisionOutcome) :
    Decidable outcome.MutationZero :=
  inferInstanceAs (Decidable (_ ∧ _))

def ApprovalDecisionOutcome.Closed (outcome : ApprovalDecisionOutcome) : Prop :=
  (1 ≤ outcome.previousRunRevision ∧ outcome.requestResults.length ≤ 128 ∧
      outcome.remainingPendingCount ≤ 1024) ∧
    ((∀ result ∈ outcome.requestResults, 1 ≤ result.requestRevision) ∧
      ∀ failure ∈ outcome.limitation, failure.Closed) ∧
    outcome.requestResults.Pairwise (fun result other => result.requestId < other.requestId) ∧
    if outcome.outcomeKind = .committed then outcome.Committed else outcome.MutationZero

instance outcomeClosed_decidable (outcome : ApprovalDecisionOutcome) : Decidable outcome.Closed :=
  inferInstanceAs (Decidable (_ ∧ _))

/-- What a batch says of a request, as it stands in the outcome. -/
def ApprovalDecisionItemV2.result (item : ApprovalDecisionItemV2) : ApprovalDecisionResultV2 where
  requestId := item.requestId
  requestRevision := item.expectedRequestRevision + 1
  actionDigestSha256 := item.actionDigestSha256
  decision := item.decision

/-- `record_hash_matches`. -/
def ApprovalDecisionRecordV2.Closed (record : ApprovalDecisionRecordV2) : Prop :=
  (record.authoritySnapshot.Closed d ∧ record.outcome.Closed) ∧
    (record.batchSha256 = d.approvalDecisionBatchSha256 record.batch ∧
      record.outcomeSha256 = d.approvalDecisionOutcomeSha256 record.outcome) ∧
    (record.batch.runId = record.runId ∧ record.batch.decisionId = record.decisionId ∧
      record.batch.idempotencyKey = record.idempotencyKey ∧
      d.approvalActorSha256 record.batch.actor = record.actorSha256 ∧
      record.authoritySnapshot.actor = record.batch.actor ∧
      record.authoritySnapshot.actorSha256 = record.actorSha256 ∧
      d.approvalAuthoritySnapshotSha256 record.authoritySnapshot = record.authoritySnapshotSha256 ∧
      record.outcome.authoritySnapshotSha256 = record.authoritySnapshotSha256 ∧
      record.batch.expectedRunRevision = record.outcome.previousRunRevision ∧
      record.batch.expectedLedgerRevision = record.outcome.previousLedgerRevision ∧
      record.batch.decisionAt = record.committedAt ∧
      record.outcome.committedAt = some record.committedAt ∧
      record.outcome.requestResults = record.batch.items.map (·.result) ∧
      record.outcome.runId = record.runId ∧ record.outcome.decisionId = record.decisionId ∧
      record.outcome.idempotencyKey = record.idempotencyKey ∧
      record.outcome.actorSha256 = record.actorSha256 ∧
      record.outcome.batchSha256 = record.batchSha256) ∧
    record.recordSha256 = approvalDecisionRecordSha256 d record ∧
    1 ≤ record.sequence ∧ (record.sequence = 1 ↔ record.previousRecordSha256 = none)

instance snapshotClosed_decidable (snapshot : ApprovalAuthoritySnapshotV2) :
    Decidable (snapshot.Closed d) :=
  inferInstanceAs (Decidable (_ = _))

instance recordClosed_decidable (record : ApprovalDecisionRecordV2) : Decidable (record.Closed d) :=
  inferInstanceAs (Decidable (_ ∧ _))

/-- `event_hash_matches`. -/
def ApprovalDomainAuditEventV2.Closed (event : ApprovalDomainAuditEventV2) : Prop :=
  (1 ≤ event.runRevision ∧ 1 ≤ event.ledgerRevision) ∧
    event.eventSha256 = approvalDomainAuditEventSha256 d event ∧
    1 ≤ event.sequence ∧ (event.sequence = 1 ↔ event.previousEventSha256 = none)

instance eventClosed_decidable (event : ApprovalDomainAuditEventV2) : Decidable (event.Closed d) :=
  inferInstanceAs (Decidable (_ ∧ _))

/-- `exact_historical_binding`. -/
def HistoricalApprovalV1SnapshotV2.Closed (snapshot : HistoricalApprovalV1SnapshotV2) : Prop :=
  snapshot.binding.approvalId = snapshot.request.approvalId ∧
    snapshot.binding.v1Status = snapshot.request.status ∧
    snapshot.binding.v1RequestSha256 = d.v1RequestSha256 snapshot.request

instance historicalClosed_decidable (snapshot : HistoricalApprovalV1SnapshotV2) :
    Decidable (snapshot.Closed d) :=
  inferInstanceAs (Decidable (_ ∧ _))

/-- `closed_binding_matrix`. -/
def ApprovalReissueSourceBindingV2.Closed (source : ApprovalReissueSourceBindingV2) : Prop :=
  ((∀ snapshot ∈ source.historicalSnapshot, snapshot.Closed d) ∧
      (∀ revision ∈ source.sourceRequestRevision, 1 ≤ revision) ∧
      ∀ revision ∈ source.sourceLedgerRevision, 1 ≤ revision) ∧
    if source.sourceKind = .historicalV1 then
      source.sourceRequestRevision = none ∧ source.sourceLedgerRevision = none ∧
        source.sourceActionDigestSha256 = none ∧
        source.historicalSnapshot.map (·.request.approvalId) = some source.sourceRequestId ∧
        source.historicalSnapshot.map (·.binding.v1RequestSha256) = some source.sourceRequestSha256
    else
      source.sourceRequestRevision ≠ none ∧ source.sourceLedgerRevision ≠ none ∧
        source.sourceActionDigestSha256 ≠ none ∧ source.historicalSnapshot = none

instance sourceClosed_decidable (source : ApprovalReissueSourceBindingV2) :
    Decidable (source.Closed d) :=
  inferInstanceAs (Decidable (_ ∧ _))

def ApprovalReissueResultV2.Closed (result : ApprovalReissueResultV2) : Prop :=
  result.source.Closed d ∧ 1 ≤ result.successorRequestRevision ∧
    1 ≤ result.successorLedgerRevision ∧ 2 ≤ result.successorCreatedRunRevision

instance resultClosed_decidable (result : ApprovalReissueResultV2) : Decidable (result.Closed d) :=
  inferInstanceAs (Decidable (_ ∧ _))

/-- `canonical_results` and `exact_revision_step`. -/
def ApprovalReissueOutcomeV2.Closed (outcome : ApprovalReissueOutcomeV2) : Prop :=
  (∀ result ∈ outcome.results, result.Closed d) ∧
    (1 ≤ outcome.previousRunRevision ∧ outcome.results ≠ [] ∧ outcome.results.length ≤ 128 ∧
      1 ≤ outcome.remainingPendingCount ∧ outcome.remainingPendingCount ≤ 1024) ∧
    outcome.results.Pairwise
      (fun result other => result.source.sourceRequestId < other.source.sourceRequestId) ∧
    outcome.currentRunRevision = outcome.previousRunRevision + 1 ∧
    outcome.currentLedgerRevision = outcome.previousLedgerRevision + outcome.results.length

instance reissueOutcomeClosed_decidable (outcome : ApprovalReissueOutcomeV2) :
    Decidable (outcome.Closed d) :=
  inferInstanceAs (Decidable (_ ∧ _))

/-- `exact_record_identity`. -/
def ApprovalReissueRecordV2.Closed (record : ApprovalReissueRecordV2) : Prop :=
  (record.outcome.Closed d ∧ ∀ snapshot ∈ record.legacyProjection, snapshot.Closed d) ∧
    (record.legacyProjection.length ≤ 1024 ∧
      record.legacyProjection.Pairwise
        (fun snapshot other => snapshot.request.approvalId < other.request.approvalId)) ∧
    (record.batchSha256 = d.approvalReissueBatchSha256 record.batch ∧
      record.outcomeSha256 = d.approvalReissueOutcomeSha256 record.outcome ∧
      record.recordSha256 = approvalReissueRecordSha256 d record) ∧
    (record.batch.runId = record.runId ∧ record.batch.reissueId = record.reissueId ∧
      record.batch.idempotencyKey = record.idempotencyKey ∧
      record.outcome.runId = record.runId ∧ record.outcome.reissueId = record.reissueId ∧
      record.outcome.idempotencyKey = record.idempotencyKey ∧
      record.outcome.batchSha256 = record.batchSha256 ∧
      record.batch.expectedRunRevision = record.outcome.previousRunRevision ∧
      record.batch.expectedLedgerRevision = record.outcome.previousLedgerRevision ∧
      record.batch.reissuedAt = record.committedAt ∧
      record.outcome.committedAt = record.committedAt ∧
      (record.legacyProjection ≠ [] ↔ record.previousLedgerSha256 = none)) ∧
    1 ≤ record.sequence ∧ (record.sequence = 1 ↔ record.previousRecordSha256 = none)

instance reissueRecordClosed_decidable (record : ApprovalReissueRecordV2) :
    Decidable (record.Closed d) :=
  inferInstanceAs (Decidable (_ ∧ _))

/-- `exact_binding_hash`, with the bounds of the fields. -/
def ApprovalExecutionRecheckBindingV2.Closed (binding : ApprovalExecutionRecheckBindingV2) : Prop :=
  (1 ≤ binding.approvalRunRevision ∧ 2 ≤ binding.requestRevision) ∧
    binding.recheckedAt < binding.validUntil ∧
    binding.bindingSha256 = approvalExecutionRecheckBindingSha256 d binding

instance bindingClosed_decidable (binding : ApprovalExecutionRecheckBindingV2) :
    Decidable (binding.Closed d) :=
  inferInstanceAs (Decidable (_ ∧ _))

/-! ## Failures -/

inductive ApprovalExecutionFailureCode where
  | approvalMissing | approvalMismatch | approvalExpired | authorityUnavailable | actorSpoof
  | authorityRevoked | unauthorizedExecution
  deriving DecidableEq, Repr

structure ApprovalExecutionFailureV2 where
  code : ApprovalExecutionFailureCode
  message : String
  runId : String
  requestId : String
  evaluatedAt : Instant
  deriving DecidableEq, Repr

/-- What the approval functions raise; a model that is refused is a `ValueError` too. -/
inductive ApprovalError where
  | ledgerCorrupt (message : String)
  | decision (failure : ApprovalDecisionFailureV2)
  | execution (failure : ApprovalExecutionFailureV2)
  | value (message : String)
  | validation
  deriving DecidableEq, Repr

/-- `_failure`. -/
def failure (code : ApprovalFailureCode) (message : String) (runId requestId decisionId
    idempotencyKey : Option String) (observedRunRevision observedLedgerRevision : Option Nat) :
    ApprovalDecisionFailureV2 where
  code := code
  message := message
  retryable := code = .runLocked
  runId := runId
  requestId := requestId
  decisionId := decisionId
  idempotencyKeySha256 := idempotencyKey.map d.idempotencyReferenceSha256
  observedRunRevision := observedRunRevision
  observedLedgerRevision := observedLedgerRevision
  auditConfirmed := false
  reconciliationRequired := false

/-! ## Requests -/

def emptyApprovalLedgerV2 (runId : String) : ApprovalLedgerV2 where
  runId := runId
  ledgerRevision := 0
  requests := []
  decisionCount := 0
  decisionLogHeadSha256 := none
  domainAuditCount := 0
  domainAuditLogHeadSha256 := none

/-- `f"request-{idempotency_key[:32]}"` -/
def requestIdOf (idempotencyKey : Sha256) : String :=
  "request-" ++ String.ofList (idempotencyKey.toList.take 32)

/-- The request of a proposal, before its validator. -/
def requestOf (runId : String) (createdRunRevision ledgerRevision : Nat)
    (proposal : ApprovalReissueSuccessorV2) (createdAt : Instant) : ApprovalRequestV2 :=
  let actionSha256 := d.actionDigestSha256 proposal.actionPlan
  let idempotencyKey := d.approvalRequestIdempotencyKey runId proposal.sourcePhaseId
    proposal.stableProposalId proposal.actionPlan.actionCategory actionSha256
  { requestId := requestIdOf idempotencyKey
    requestRevision := 1
    ledgerRevision := ledgerRevision
    createdRunRevision := createdRunRevision
    stableProposalId := proposal.stableProposalId
    actionPlan := proposal.actionPlan
    actionDigestSha256 := actionSha256
    display := proposal.display
    requiredAuthorityScope := .approve proposal.actionPlan.actionCategory
    createdAt := createdAt
    expiresAt := proposal.actionPlan.expiresAt
    sourcePhaseId := proposal.sourcePhaseId
    sourceAttemptId := proposal.sourceAttemptId
    requestIdempotencyKey := idempotencyKey
    state := .pending
    supersessionReference := none }

/-- `build_approval_request_v2`; a proposal is given like the successor of a reissue. -/
def buildApprovalRequestV2 (runId : String) (createdRunRevision ledgerRevision : Nat)
    (proposal : ApprovalReissueSuccessorV2) (createdAt : Instant) :
    Except ApprovalError ApprovalRequestV2 := do
  let request := requestOf d runId createdRunRevision ledgerRevision proposal createdAt
  require (request.Closed d) .validation
  return request

/-- `add_approval_request_v2`; equal canonical bytes are those of equal requests. -/
def addApprovalRequestV2 (ledger : ApprovalLedgerV2) (request : ApprovalRequestV2) :
    Except ApprovalError (ApprovalLedgerV2 × ApprovalRequestV2 × Bool) :=
  let raised (code : ApprovalFailureCode) (message : String) (observed : Option Nat) :=
    ApprovalError.decision
      (failure d code message (some ledger.runId) (some request.requestId) none none none observed)
  match ledger.requests.find? fun existing =>
    existing.requestIdempotencyKey = request.requestIdempotencyKey ∨
      existing.requestId = request.requestId with
  | some existing =>
    if existing.requestIdempotencyKey = request.requestIdempotencyKey then
      if existing = request then .ok (ledger, existing, false)
      else .error (raised .idempotencyConflict
        "Request idempotency key is bound to different canonical data." none)
    else .error (raised .approvalDuplicate "Approval request ID is already present." none)
  | none => do
    require (request.ledgerRevision = ledger.ledgerRevision + 1)
      (raised .staleDecision "Approval request ledger revision is stale."
        (some ledger.ledgerRevision))
    let added := { ledger with
      ledgerRevision := request.ledgerRevision
      requests := ledger.requests ++ [request] }
    require (added.Closed d) .validation
    return (added, request, true)

end PokerDeliberation.ApprovalLedger
