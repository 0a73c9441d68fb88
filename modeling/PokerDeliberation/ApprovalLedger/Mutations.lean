import PokerDeliberation.ApprovalLedger.Reader
import Mathlib.Logic.Relation

/-!
# Decisions and reissues

`validate_approval_decision` and `validate_approval_reissue` against a verified
state, and the updates that are built from what they admit. A published
revision holds the approvals of its run: the projection of V1 requests in its
report, or the V2 state. `decide_approvals` and `reissue_approvals` prepare the
next revision from the one they have read; it is published in that one's place
while nothing else has been.
-/

namespace PokerDeliberation.ApprovalLedger

open Lib Approvals

variable (d : Digests)

/-- Who answers for an actor; there is no answer where the provider raises. -/
structure DecisionAuthorityProvider where
  resolveActor : String → Instant → Option ApprovalAuthoritySnapshotV2
  closed : ∀ {actorId decisionAt snapshot}, resolveActor actorId decisionAt = some snapshot →
    snapshot.Closed d

/-! ## Decisions -/

inductive ApprovalDecisionAdmissionV2 where
  | new (actorSnapshot : ApprovalAuthoritySnapshotV2) (actorSha256 batchSha256 : Sha256)
    (requests : List ApprovalRequestV2)
  | replay (actorSha256 batchSha256 : Sha256) (replayOutcome : ApprovalDecisionOutcome)

structure ApprovalDecisionUpdateV2 where
  ledger : ApprovalLedgerV2
  decisionRecords : List ApprovalDecisionRecordV2
  domainAuditEvents : List ApprovalDomainAuditEventV2
  outcome : ApprovalDecisionOutcome
  decisionRecord : ApprovalDecisionRecordV2
  domainAuditEvent : ApprovalDomainAuditEventV2

section

variable (state : VerifiedApprovalStateV2) (batch : ApprovalDecisionBatch)
variable (observedRunRevision : Nat)

/-- `_reject`. -/
def rejection (code : ApprovalFailureCode) (message : String) (requestId : Option String)
    (observedLedgerRevision : Nat) : ApprovalError :=
  .decision (failure d code message (some batch.runId) requestId (some batch.decisionId)
    (some batch.idempotencyKey) (some observedRunRevision) (some observedLedgerRevision))

/-- The request an item decides. -/
def selectRequest (evaluatedAt : Instant) (item : ApprovalDecisionItemV2) :
    Except ApprovalError ApprovalRequestV2 := do
  let reject (code : ApprovalFailureCode) (message : String) :=
    rejection d batch observedRunRevision code message (some item.requestId)
      state.ledger.ledgerRevision
  let request ← given (state.ledger.request item.requestId)
    (reject .approvalUnknown "Approval request is unknown.")
  require (request.state = .pending)
    (reject .approvalAlreadyDecided "Approval request has already been decided.")
  require (item.expectedRequestRevision = request.requestRevision)
    (reject .staleDecision "Expected approval request revision is stale.")
  require (item.actionDigestSha256 = request.actionDigestSha256)
    (reject .actionDigestMismatch "Approval action digest does not match.")
  require (request.createdAt ≤ evaluatedAt)
    (reject .resumeConflict "Decision time precedes the approval request.")
  require (evaluatedAt < request.expiresAt)
    (reject .approvalExpired "Approval request has expired.")
  return request

/-- Whether the actor may decide so, at this time. -/
def ApprovalActor.Authorized (actor : ApprovalActor) (decision : DecisionValue)
    (scope : AuthorityScope) (evaluatedAt : Instant) : Prop :=
  (decision = .rejected → .rejectAny ∈ actor.authorityScopes) ∧
    (decision ≠ .rejected → actor.verificationStatus = .verified ∧
      actor.revocationStatus = .notRevoked ∧
      (∃ expiry ∈ actor.authorityExpiresAt, evaluatedAt < expiry) ∧ scope ∈ actor.authorityScopes)

instance authorized_decidable (actor : ApprovalActor) (decision : DecisionValue)
    (scope : AuthorityScope) (evaluatedAt : Instant) :
    Decidable (actor.Authorized decision scope evaluatedAt) :=
  inferInstanceAs (Decidable (_ ∧ _))

def authorizeItem (actor : ApprovalActor) (evaluatedAt : Instant)
    (entry : ApprovalRequestV2 × ApprovalDecisionItemV2) : Except ApprovalError Unit := do
  let reject (code : ApprovalFailureCode) (message : String) :=
    rejection d batch observedRunRevision code message (some entry.1.requestId)
      state.ledger.ledgerRevision
  require (actor.revocationStatus ≠ .revoked)
    (reject .authorityRevoked "Approval authority is revoked.")
  require (actor.Authorized entry.2.decision entry.1.requiredAuthorityScope evaluatedAt)
    (reject .unauthorizedDecision "Actor lacks the exact required authority.")

def validateApprovalDecision (provider : DecisionAuthorityProvider d) (evaluatedAt : Instant) :
    Except ApprovalError ApprovalDecisionAdmissionV2 := do
  let ledger := state.ledger
  let actorSha256 := d.approvalActorSha256 batch.actor
  let batchSha256 := d.approvalDecisionBatchSha256 batch
  let reject (code : ApprovalFailureCode) (message : String) :=
    rejection d batch observedRunRevision code message none ledger.ledgerRevision
  match state.decisionRecords.find? fun record => record.idempotencyKey = batch.idempotencyKey with
  | some replay => do
    require (replay.actorSha256 = actorSha256 ∧ replay.batchSha256 = batchSha256)
      (reject .idempotencyConflict
        "Decision idempotency key is bound to different canonical data.")
    return .replay actorSha256 batchSha256 replay.outcome
  | none => do
    require (batch.runId = ledger.runId)
      (reject .resumeConflict "Decision run identity does not match the authoritative ledger.")
    require (batch.expectedRunRevision = observedRunRevision)
      (reject .staleDecision "Expected run revision is stale.")
    require (batch.expectedLedgerRevision = ledger.ledgerRevision)
      (reject .staleDecision "Expected approval ledger revision is stale.")
    require (batch.decisionId ∉ state.decisionRecords.map (·.decisionId))
      (reject .idempotencyConflict "Decision ID is already bound to another decision.")
    require (¬ ∃ item ∈ batch.items, ∃ other ∈ batch.items,
        item.requestId = other.requestId ∧ item.decision ≠ other.decision)
      (reject .approveRejectConflict "Batch contains both approve and reject for one request.")
    require (batch.items.map (·.requestId)).Nodup
      (reject .approvalDuplicate "Batch contains a duplicate approval request.")
    let selected ← batch.items.mapM (selectRequest d state batch observedRunRevision evaluatedAt)
    let snapshot ← given (provider.resolveActor batch.actor.actorId evaluatedAt)
      (reject .unauthorizedDecision "Authority provider could not verify the actor.")
    require (snapshot.actor = batch.actor)
      (reject .actorSpoof "Claimed actor does not match the authority provider.")
    (selected.zip batch.items).forM
      (authorizeItem d state batch observedRunRevision snapshot.actor evaluatedAt)
    return .new snapshot actorSha256 batchSha256 selected

/-- `{item.request_id: item.decision for item in batch.items}` -/
def ApprovalDecisionBatch.decision (requestId : String) : Option DecisionValue :=
  (Keyed.dict (·.requestId) batch.items requestId).map (·.decision)

/-- The request after the batch was applied to the ledger. -/
def decidedRequest (nextLedgerRevision : Nat) (request : ApprovalRequestV2) : ApprovalRequestV2 :=
  match batch.decision request.requestId with
  | none => request
  | some decision => { request with
      requestRevision := request.requestRevision + 1
      ledgerRevision := nextLedgerRevision
      state := decision.state }

/-- The result of a request that the batch decides. -/
def decisionResult? (request : ApprovalRequestV2) : Option ApprovalDecisionResultV2 :=
  (batch.decision request.requestId).map fun decision =>
    ⟨request.requestId, request.requestRevision + 1, request.actionDigestSha256, decision⟩

def sortRequests (requests : List ApprovalRequestV2) : List ApprovalRequestV2 :=
  requests.insertionSort ApprovalRequestV2.le

def sortResults (results : List ApprovalDecisionResultV2) : List ApprovalDecisionResultV2 :=
  results.insertionSort fun result other => result.requestId ≤ other.requestId

def pendingCount (requests : List ApprovalRequestV2) : Nat :=
  requests.countP fun request => request.state = .pending

/-- The failure that stands with an approved action. -/
def unavailableLimitation (observedLedgerRevision : Nat) : ApprovalDecisionFailureV2 :=
  { failure d .externalExecutorUnavailable
      "Approved action was not executed because no executor is available." (some batch.runId) none
      (some batch.decisionId) (some batch.idempotencyKey) (some batch.expectedRunRevision)
      (some observedLedgerRevision) with
    auditConfirmed := true }

/-- The outcome that is built for the requests of the ledger. -/
def decisionOutcome (ledger : ApprovalLedgerV2) (snapshot : ApprovalAuthoritySnapshotV2)
    (actorSha256 batchSha256 : Sha256) : ApprovalDecisionOutcome :=
  let updated := sortRequests
    (ledger.requests.map (decidedRequest batch (ledger.ledgerRevision + 1)))
  let results := sortResults (ledger.requests.filterMap (decisionResult? batch))
  let remaining := pendingCount updated
  let hasApproval := results.any fun result => result.decision = .approved
  { outcomeKind := .committed
    runId := batch.runId
    decisionId := batch.decisionId
    idempotencyKey := batch.idempotencyKey
    actorSha256 := actorSha256
    authoritySnapshotSha256 := d.approvalAuthoritySnapshotSha256 snapshot
    batchSha256 := batchSha256
    previousRunRevision := batch.expectedRunRevision
    currentRunRevision := batch.expectedRunRevision + 1
    previousLedgerRevision := ledger.ledgerRevision
    currentLedgerRevision := ledger.ledgerRevision + 1
    requestResults := results
    remainingPendingCount := remaining
    runStatus := some (if hasApproval then .failedWithLimitations
      else if remaining = 0 then .completed else .approvalRequired)
    limitation := if hasApproval then some (unavailableLimitation d batch ledger.ledgerRevision)
      else none
    committedAt := some batch.decisionAt }

/-- The record of an outcome, with its own digest. -/
def decisionRecord (snapshot : ApprovalAuthoritySnapshotV2) (actorSha256 batchSha256 : Sha256)
    (outcome : ApprovalDecisionOutcome) : ApprovalDecisionRecordV2 :=
  let draft : ApprovalDecisionRecordV2 :=
    { sequence := state.decisionRecords.length + 1
      previousRecordSha256 := state.ledger.decisionLogHeadSha256
      runId := batch.runId
      decisionId := batch.decisionId
      idempotencyKey := batch.idempotencyKey
      actorSha256 := actorSha256
      authoritySnapshot := snapshot
      authoritySnapshotSha256 := d.approvalAuthoritySnapshotSha256 snapshot
      batch := batch
      batchSha256 := batchSha256
      outcome := outcome
      outcomeSha256 := d.approvalDecisionOutcomeSha256 outcome
      committedAt := batch.decisionAt
      recordSha256 := "" }
  { draft with recordSha256 := approvalDecisionRecordSha256 d draft }

def decisionEvent (record : ApprovalDecisionRecordV2) : ApprovalDomainAuditEventV2 :=
  let draft : ApprovalDomainAuditEventV2 :=
    { sequence := state.domainAuditEvents.length + 1
      previousEventSha256 := state.ledger.domainAuditLogHeadSha256
      runId := batch.runId
      runRevision := record.outcome.currentRunRevision
      ledgerRevision := state.ledger.ledgerRevision + 1
      decisionId := batch.decisionId
      actorSha256 := record.actorSha256
      authoritySnapshotSha256 := record.authoritySnapshotSha256
      batchSha256 := record.batchSha256
      decisionRecordSha256 := record.recordSha256
      outcomeSha256 := record.outcomeSha256
      occurredAt := batch.decisionAt
      eventSha256 := "" }
  { draft with eventSha256 := approvalDomainAuditEventSha256 d draft }

/-- The ledger after the batch, with the heads of both logs. -/
def decidedLedger (record : ApprovalDecisionRecordV2) (event : ApprovalDomainAuditEventV2) :
    ApprovalLedgerV2 :=
  { state.ledger with
    ledgerRevision := state.ledger.ledgerRevision + 1
    requests := sortRequests
      (state.ledger.requests.map (decidedRequest batch (state.ledger.ledgerRevision + 1)))
    decisionCount := state.decisionRecords.length + 1
    decisionLogHeadSha256 := some record.recordSha256
    domainAuditCount := state.domainAuditEvents.length + 1
    domainAuditLogHeadSha256 := some event.eventSha256 }

/-- `build_approval_decision_update`, of a new admission; every model it builds is validated. -/
def buildApprovalDecisionUpdate (snapshot : ApprovalAuthoritySnapshotV2)
    (actorSha256 batchSha256 : Sha256) : Except ApprovalError ApprovalDecisionUpdateV2 := do
  let ledger := state.ledger
  let requests := ledger.requests.map (decidedRequest batch (ledger.ledgerRevision + 1))
  require (∀ request ∈ requests, request.Closed d) .validation
  let outcome := decisionOutcome d batch ledger snapshot actorSha256 batchSha256
  require outcome.Closed .validation
  let record := decisionRecord d state batch snapshot actorSha256 batchSha256 outcome
  require (record.Closed d) .validation
  let event := decisionEvent d state batch record
  require (event.Closed d) .validation
  let updated := decidedLedger state batch record event
  require (updated.Closed d) .validation
  return ⟨updated, state.decisionRecords ++ [record], state.domainAuditEvents ++ [event], outcome,
    record, event⟩

/-- `reverify_approval_authority`, of a new admission. -/
def reverifyApprovalAuthority (admitted : ApprovalAuthoritySnapshotV2)
    (requests : List ApprovalRequestV2) (provider : DecisionAuthorityProvider d)
    (evaluatedAt : Instant) : Except ApprovalError ApprovalAuthoritySnapshotV2 := do
  let reject (code : ApprovalFailureCode) (message : String) (requestId : Option String) :=
    rejection d batch batch.expectedRunRevision code message requestId batch.expectedLedgerRevision
  require (batch.decisionAt ≤ evaluatedAt)
    (reject .resumeConflict "Authority verification clock moved backwards." none)
  let snapshot ← given (provider.resolveActor batch.actor.actorId evaluatedAt)
    (reject .unauthorizedDecision "Authority provider could not reverify the actor." none)
  let actor := snapshot.actor
  require (actor = admitted.actor ∧ snapshot.providerId = admitted.providerId ∧
      snapshot.providerVersion = admitted.providerVersion)
    (reject (if actor.revocationStatus = .revoked then .authorityRevoked else .actorSpoof)
      "Authority changed before decision publication." none)
  (requests.zip batch.items).forM fun entry => do
    require (evaluatedAt < entry.1.expiresAt)
      (reject .approvalExpired "Approval request expired before publication."
        (some entry.1.requestId))
    require (actor.Authorized entry.2.decision entry.1.requiredAuthorityScope evaluatedAt)
      (reject (if actor.revocationStatus = .revoked then .authorityRevoked else .unauthorizedDecision)
        "Actor no longer has the exact required authority." (some entry.1.requestId))
  return snapshot

end

/-! ## Reissues -/

/-- A V2 request of the ledger, or one of a historical V1 projection. -/
inductive SourceRequest where
  | approvalV2 (request : ApprovalRequestV2)
  | historicalV1 (request : ApprovalRequest)

inductive ApprovalReissueAdmissionV2 where
  | new (sourceRequests : List SourceRequest)
  | replay (replayOutcome : ApprovalReissueOutcomeV2)

structure ApprovalReissueUpdateV2 where
  ledger : ApprovalLedgerV2
  decisionRecords : List ApprovalDecisionRecordV2
  domainAuditEvents : List ApprovalDomainAuditEventV2
  reissueRecords : List ApprovalReissueRecordV2
  outcome : ApprovalReissueOutcomeV2
  record : ApprovalReissueRecordV2

section

variable (state : Option VerifiedApprovalStateV2) (legacyRequests : List ApprovalRequest)
variable (batch : ApprovalReissueBatchV2) (observedRunRevision : Nat)

/-- `_reject_reissue`. -/
def reissueRejection (code : ApprovalFailureCode) (message : String) (requestId : Option String)
    (observedLedgerRevision : Nat) : ApprovalError :=
  .decision (failure d code message (some batch.runId) requestId (some batch.reissueId)
    (some batch.idempotencyKey) (some observedRunRevision) (some observedLedgerRevision))

/-- The sources of a reissue of a historical V1 projection: all that are pending, together. -/
def selectLegacySources : Except ApprovalError (List SourceRequest) := do
  let reject (code : ApprovalFailureCode) (message : String) :=
    reissueRejection d batch observedRunRevision code message none 0
  require (legacyRequests ≠ [])
    (reject .reissueConflict "Historical V1 reissue requires the exact prior projection.")
  require (legacyRequests.map (·.approvalId)).Nodup
    (reject .reissueConflict "Historical V1 projection contains duplicate request identities.")
  require (∀ request ∈ legacyRequests, request.createdAt ≤ batch.reissuedAt ∧
      ∀ decidedAt ∈ request.decidedAt, decidedAt ≤ batch.reissuedAt)
    (reject .resumeConflict "Reissue time precedes the historical V1 projection.")
  let pending := legacyRequests.filter fun request => request.status = .pending
  require (pending ≠ [] ∧
      (∀ item ∈ batch.items, item.sourceRequestId ∈ pending.map (·.approvalId)) ∧
      (∀ request ∈ pending, request.approvalId ∈ batch.items.map (·.sourceRequestId)) ∧
      ∀ item ∈ batch.items, item.sourceKind = .historicalV1)
    (reject .reissueNotEligible
      "Every pending historical V1 request must be explicitly reissued together.")
  batch.items.mapM fun item => do
    let request ← given (Keyed.dict (·.approvalId) pending item.sourceRequestId) (.value "KeyError")
    return .historicalV1 request

/-- The source of an item in the V2 ledger: an exact expired pending request. -/
def selectSource (verified : VerifiedApprovalStateV2) (item : ApprovalReissueItemV2) :
    Except ApprovalError SourceRequest := do
  let reject (code : ApprovalFailureCode) (message : String) :=
    reissueRejection d batch observedRunRevision code message (some item.sourceRequestId)
      verified.ledger.ledgerRevision
  let request ← given (verified.ledger.request item.sourceRequestId)
    (reject .approvalUnknown "Approval reissue source is unknown.")
  require (request.state = .pending ∧
      item.expectedSourceRequestRevision = some request.requestRevision ∧
      item.sourceActionDigestSha256 = some request.actionDigestSha256 ∧
      request.expiresAt ≤ batch.reissuedAt)
    (reject .reissueNotEligible "Only an exact expired pending V2 request may be reissued.")
  return .approvalV2 request

def selectSources (verified : VerifiedApprovalStateV2) :
    Except ApprovalError (List SourceRequest) := do
  let reject (code : ApprovalFailureCode) (message : String) :=
    reissueRejection d batch observedRunRevision code message none verified.ledger.ledgerRevision
  require (legacyRequests = [] ∧ ∀ item ∈ batch.items, item.sourceKind = .approvalV2)
    (reject .reissueConflict "A V2 ledger cannot be mixed with historical V1 reissue input.")
  require ((∀ record ∈ verified.decisionRecords, record.committedAt ≤ batch.reissuedAt) ∧
      ∀ record ∈ verified.reissueRecords, record.committedAt ≤ batch.reissuedAt)
    (reject .resumeConflict "Reissue clock moved behind the approval mutation timeline.")
  batch.items.mapM (selectSource d batch observedRunRevision verified)

def reissueSources : Except ApprovalError (List SourceRequest) :=
  match state with
  | none => selectLegacySources d legacyRequests batch observedRunRevision
  | some verified => selectSources d legacyRequests batch observedRunRevision verified

def priorReissues : List ApprovalReissueRecordV2 := (state.map (·.reissueRecords)).getD []

def validateApprovalReissue : Except ApprovalError ApprovalReissueAdmissionV2 := do
  let observedLedgerRevision := (state.map (·.ledger.ledgerRevision)).getD 0
  let reject (code : ApprovalFailureCode) (message : String) (requestId : Option String) :=
    reissueRejection d batch observedRunRevision code message requestId observedLedgerRevision
  match (priorReissues state).find? fun record => record.idempotencyKey = batch.idempotencyKey with
  | some replay => do
    require (replay.batchSha256 = d.approvalReissueBatchSha256 batch)
      (reject .idempotencyConflict
        "Reissue idempotency key is bound to different canonical data." none)
    return .replay replay.outcome
  | none => do
    require (∀ verified ∈ state, batch.runId = verified.ledger.runId)
      (reject .reissueConflict "Reissue run identity does not match the authoritative ledger." none)
    require (batch.expectedRunRevision = observedRunRevision ∧
        batch.expectedLedgerRevision = observedLedgerRevision)
      (reject .staleDecision "Expected reissue run or ledger revision is stale." none)
    require (batch.reissueId ∉ (priorReissues state).map (·.reissueId))
      (reject .idempotencyConflict "Reissue ID is already bound to another transaction." none)
    let sources ← reissueSources d state legacyRequests batch observedRunRevision
    batch.items.forM fun item =>
      require (batch.reissuedAt < item.successor.actionPlan.expiresAt)
        (reject .approvalExpired "Reissued successor action is not live."
          (some item.sourceRequestId))
    return .new sources

/-- The projection of the V1 requests that a record keeps, in the order of their identities. -/
def legacyProjectionOf (runId : String) : List HistoricalApprovalV1SnapshotV2 :=
  (legacyRequests.map fun request =>
    { request := request
      binding :=
        { runId := runId
          approvalId := request.approvalId
          v1RequestSha256 := d.v1RequestSha256 request
          v1Status := request.status } }).insertionSort
    fun snapshot other => snapshot.request.approvalId ≤ other.request.approvalId

/-- A request that was reissued as its successor. -/
def supersededRequest (ledgerRevision : Nat) (successorId : String) (request : ApprovalRequestV2) :
    ApprovalRequestV2 :=
  { request with
    requestRevision := request.requestRevision + 1
    ledgerRevision := ledgerRevision
    state := .superseded
    supersessionReference := some successorId }

def replaceRequest (updated : ApprovalRequestV2) (ledger : ApprovalLedgerV2) : ApprovalLedgerV2 :=
  { ledger with
    requests := sortRequests (ledger.requests.map fun request =>
      if request.requestId = updated.requestId then updated else request) }

def sourceBinding (projection : List HistoricalApprovalV1SnapshotV2) :
    SourceRequest → Except ApprovalError ApprovalReissueSourceBindingV2
  | .approvalV2 prior => .ok
      { sourceKind := .approvalV2
        sourceRequestId := prior.requestId
        sourceRequestRevision := some prior.requestRevision
        sourceLedgerRevision := some prior.ledgerRevision
        sourceActionDigestSha256 := some prior.actionDigestSha256
        sourceRequestSha256 := d.approvalRequestSha256 prior
        historicalSnapshot := none }
  | .historicalV1 request => do
    let snapshot ← given
      (projection.find? fun snapshot => snapshot.request.approvalId = request.approvalId)
      (.value "StopIteration")
    return { sourceKind := .historicalV1
             sourceRequestId := request.approvalId
             sourceRequestRevision := none
             sourceLedgerRevision := none
             sourceActionDigestSha256 := none
             sourceRequestSha256 := snapshot.binding.v1RequestSha256
             historicalSnapshot := some snapshot }

/-- The ledger with its source superseded, if it has one there. -/
def supersede (ledger : ApprovalLedgerV2) (ledgerRevision : Nat) (successorId : String) :
    SourceRequest → ApprovalLedgerV2
  | .approvalV2 prior => replaceRequest (supersededRequest ledgerRevision successorId prior) ledger
  | .historicalV1 _ => ledger

def reissueResult (source : ApprovalReissueSourceBindingV2) (successor : ApprovalRequestV2) :
    ApprovalReissueResultV2 where
  source := source
  successorRequestId := successor.requestId
  successorRequestRevision := successor.requestRevision
  successorLedgerRevision := successor.ledgerRevision
  successorCreatedRunRevision := successor.createdRunRevision
  successorActionDigestSha256 := successor.actionDigestSha256
  successorRequestSha256 := d.approvalRequestSha256 successor

/-- One round of the loop over the items, which adds the successor and supersedes the source. -/
def reissueItem (projection : List HistoricalApprovalV1SnapshotV2)
    (built : ApprovalLedgerV2 × List ApprovalReissueResultV2)
    (entry : ApprovalReissueItemV2 × SourceRequest) :
    Except ApprovalError (ApprovalLedgerV2 × List ApprovalReissueResultV2) := do
  let nextLedgerRevision := built.1.ledgerRevision + 1
  let drafted ← buildApprovalRequestV2 d batch.runId (observedRunRevision + 1) nextLedgerRevision
    entry.1.successor batch.reissuedAt
  let (added, successor, _) ← addApprovalRequestV2 d built.1 drafted
  let ledger := supersede added nextLedgerRevision successor.requestId entry.2
  let source ← sourceBinding d projection entry.2
  let result := reissueResult d source successor
  require (result.Closed d) .validation
  return (ledger, built.2 ++ [result])

def sortReissueResults (results : List ApprovalReissueResultV2) : List ApprovalReissueResultV2 :=
  results.insertionSort fun result other => result.source.sourceRequestId ≤ other.source.sourceRequestId

/-- The ledger that is reissued from: the empty one before the first V2 checkpoint. -/
def priorLedger : ApprovalLedgerV2 := (state.map (·.ledger)).getD (emptyApprovalLedgerV2 batch.runId)

def reissueOutcome (updated : ApprovalLedgerV2) (results : List ApprovalReissueResultV2) :
    ApprovalReissueOutcomeV2 where
  runId := batch.runId
  reissueId := batch.reissueId
  idempotencyKey := batch.idempotencyKey
  batchSha256 := d.approvalReissueBatchSha256 batch
  previousRunRevision := observedRunRevision
  currentRunRevision := observedRunRevision + 1
  previousLedgerRevision := (priorLedger state batch).ledgerRevision
  currentLedgerRevision := updated.ledgerRevision
  results := sortReissueResults results
  remainingPendingCount := pendingCount updated.requests
  committedAt := batch.reissuedAt

def reissueRecord (previousManifestSha256 previousPointerSha256 : Sha256)
    (projection : List HistoricalApprovalV1SnapshotV2) (updated : ApprovalLedgerV2)
    (outcome : ApprovalReissueOutcomeV2) : ApprovalReissueRecordV2 :=
  let draft : ApprovalReissueRecordV2 :=
    { sequence := (priorReissues state).length + 1
      previousRecordSha256 := (priorReissues state).getLast?.map (·.recordSha256)
      runId := batch.runId
      reissueId := batch.reissueId
      idempotencyKey := batch.idempotencyKey
      batch := batch
      batchSha256 := d.approvalReissueBatchSha256 batch
      previousManifestSha256 := previousManifestSha256
      previousPointerSha256 := previousPointerSha256
      previousLedgerSha256 := state.map (·.ledgerSha256)
      legacyProjection := projection
      outcome := outcome
      outcomeSha256 := d.approvalReissueOutcomeSha256 outcome
      currentLedgerSha256 := d.approvalLedgerSha256 updated
      committedAt := batch.reissuedAt
      recordSha256 := "" }
  { draft with recordSha256 := approvalReissueRecordSha256 d draft }

/-- `build_approval_reissue_update`, of a new admission; every model it builds is validated. -/
def buildApprovalReissueUpdate (previousManifestSha256 previousPointerSha256 : Sha256)
    (sources : List SourceRequest) : Except ApprovalError ApprovalReissueUpdateV2 := do
  let projection := legacyProjectionOf d legacyRequests batch.runId
  require (∀ snapshot ∈ projection, snapshot.Closed d) .validation
  let (updated, results) ← (batch.items.zip sources).foldlM
    (reissueItem d batch observedRunRevision projection) (priorLedger state batch, [])
  require (updated.Closed d) .validation
  let outcome := reissueOutcome d state batch observedRunRevision updated results
  require (outcome.Closed d) .validation
  let record := reissueRecord d state batch previousManifestSha256 previousPointerSha256 projection
    updated outcome
  require (record.Closed d) .validation
  return { ledger := updated
           decisionRecords := (state.map (·.decisionRecords)).getD []
           domainAuditEvents := (state.map (·.domainAuditEvents)).getD []
           reissueRecords := priorReissues state ++ [record]
           outcome := outcome
           record := record }

end

/-! ## Publication -/

inductive PublishedApprovals where
  | historicalV1 (requests : List ApprovalRequest)
  | authoritativeV2 (state : VerifiedApprovalStateV2)

/-- Its run waits at the approval checkpoint while approval is required. -/
structure Published where
  revision : Nat
  runStatus : ReportRunStatus
  approvals : PublishedApprovals

inductive Outcome where
  | decision (outcome : ApprovalDecisionOutcome)
  | reissue (outcome : ApprovalReissueOutcomeV2)

/-- The next revision, its outcome, and what verifies the authority when it is published. -/
structure Prepared (d : Digests) where
  published : Published
  outcome : Outcome
  authorityVerifier : DecisionAuthorityProvider d → Instant → Except ApprovalError Unit

/-- The outcome of an earlier mutation with the same key, or a new one. -/
inductive Preparation (d : Digests) where
  | replay (outcome : Outcome)
  | next (prepared : Prepared d)

/-- The requests of a new run, each at the time it was proposed. -/
def createApprovals (runId : String) (proposals : List (ApprovalReissueSuccessorV2 × Instant)) :
    Except ApprovalError Published := do
  let ledger ← proposals.foldlM (fun ledger proposal => do
      let request ← buildApprovalRequestV2 d runId 1 (ledger.ledgerRevision + 1) proposal.1 proposal.2
      let (added, _, _) ← addApprovalRequestV2 d ledger request
      return added)
    (emptyApprovalLedgerV2 runId)
  let state ← readApprovalStateV2 d ledger [] [] []
  return ⟨1, .approvalRequired, .authoritativeV2 state⟩

/-- The status of the report after a decision. -/
def decidedStatus (outcome : ApprovalDecisionOutcome) : ReportRunStatus :=
  match outcome.runStatus with
  | some .approvalRequired => .approvalRequired
  | some .completed => .completed
  | _ => .failedWithLimitations

/-- `decide_approvals` up to the publication. -/
def decideApprovals (read : Published) (batch : ApprovalDecisionBatch)
    (provider : DecisionAuthorityProvider d) : Except ApprovalError (Preparation d) :=
  match read.approvals with
  -- the payloads of a V1 run are looked up without a default
  | .historicalV1 _ => .error (.value "KeyError")
  | .authoritativeV2 state => do
    let admission ← validateApprovalDecision d state batch read.revision provider batch.decisionAt
    match admission with
    | .replay _ _ outcome => return .replay (.decision outcome)
    | .new snapshot actorSha256 batchSha256 requests => do
      let update ← buildApprovalDecisionUpdate d state batch snapshot actorSha256 batchSha256
      require (read.runStatus = .approvalRequired)
        (.decision (failure d .resumeConflict "Run is not at an approval checkpoint."
          (some batch.runId) none (some batch.decisionId) (some batch.idempotencyKey)
          (some read.revision) (some state.ledger.ledgerRevision)))
      let next ← readApprovalStateV2 d update.ledger update.decisionRecords
        update.domainAuditEvents state.reissueRecords
      return .next
        { published := ⟨read.revision + 1, decidedStatus update.outcome, .authoritativeV2 next⟩
          outcome := .decision update.outcome
          authorityVerifier := fun reverifier evaluatedAt => do
            let _ ← reverifyApprovalAuthority d batch snapshot requests reverifier evaluatedAt
            return () }

/-- The V2 state, or the V1 requests where there is none. -/
def Published.sources (read : Published) : Option VerifiedApprovalStateV2 × List ApprovalRequest :=
  match read.approvals with
  | .historicalV1 requests => (none, requests)
  | .authoritativeV2 state => (some state, [])

/-- `reissue_approvals` up to the publication. -/
def reissueApprovals (read : Published) (batch : ApprovalReissueBatchV2) (observedAt : Instant)
    (previousManifestSha256 previousPointerSha256 : Sha256) :
    Except ApprovalError (Preparation d) := do
  let state := read.sources.1
  let legacyRequests := read.sources.2
  let conflict (message : String) := ApprovalError.decision (failure d .resumeConflict message
    (some batch.runId) none (some batch.reissueId) (some batch.idempotencyKey) (some read.revision)
    (state.map (·.ledger.ledgerRevision)))
  let admission ← validateApprovalReissue d state legacyRequests batch read.revision
  match admission with
  | .replay outcome => return .replay (.reissue outcome)
  | .new sources => do
    require (batch.reissuedAt ≤ observedAt)
      (conflict "Reissue time is ahead of the trusted run clock.")
    require (read.runStatus = .approvalRequired)
      (conflict "Run is not at a resumable approval checkpoint.")
    let update ← buildApprovalReissueUpdate d state legacyRequests batch read.revision
      previousManifestSha256 previousPointerSha256 sources
    let next ← readApprovalStateV2 d update.ledger update.decisionRecords update.domainAuditEvents
      update.reissueRecords
    return .next
      { published := ⟨read.revision + 1, .approvalRequired, .authoritativeV2 next⟩
        outcome := .reissue update.outcome
        authorityVerifier := fun _ _ => .ok () }

/-- The next revision is published after the one it was prepared from. -/
inductive Step : Published → Published → Prop
  | decision {read : Published} {batch : ApprovalDecisionBatch}
      {provider reverifier : DecisionAuthorityProvider d} {prepared : Prepared d} {publishedAt : Instant}
      (prepare : decideApprovals d read batch provider = .ok (.next prepared))
      (verify : prepared.authorityVerifier reverifier publishedAt = .ok ()) :
      Step read prepared.published
  | reissue {read : Published} {batch : ApprovalReissueBatchV2} {observedAt : Instant}
      {previousManifestSha256 previousPointerSha256 : Sha256} {prepared : Prepared d}
      (prepare : reissueApprovals d read batch observedAt previousManifestSha256
        previousPointerSha256 = .ok (.next prepared)) : Step read prepared.published

/-- What a run is first published with: its proposals, or the V1 requests of an older report. -/
inductive First : Published → Prop
  | proposals {runId : String} {proposals : List (ApprovalReissueSuccessorV2 × Instant)}
      {published : Published} (proposed : proposals ≠ [])
      (created : createApprovals d runId proposals = .ok published) : First published
  | historical {revision : Nat} {runStatus : ReportRunStatus} {requests : List ApprovalRequest}
      (pos : 1 ≤ revision) : First ⟨revision, runStatus, .historicalV1 requests⟩

def Run : Published → Published → Prop := Relation.ReflTransGen (Step d)

/-- The revisions that any sequence of decisions and reissues publishes. -/
def Reachable (published : Published) : Prop := ∃ first, First d first ∧ Run d first published

/-! ## A run of two revisions -/

/-- Texts in the place of digests. -/
def sampleDigests : Digests where
  actionDigestSha256 plan := "action of " ++ plan.executionId
  approvalRequestIdempotencyKey runId phaseId proposalId _ action :=
    String.intercalate " " [runId, phaseId, proposalId, action]
  approvalRequestSha256 request := "request " ++ request.requestId
  v1RequestSha256 request := "request " ++ request.approvalId
  approvalActorSha256 actor := "actor " ++ actor.actorId
  approvalAuthoritySnapshotSha256 snapshot := "snapshot of " ++ snapshot.actorSha256
  approvalDecisionBatchSha256 batch := "batch " ++ batch.decisionId
  approvalDecisionOutcomeSha256 outcome := "outcome of " ++ outcome.decisionId
  decisionRecord record := "record of " ++ record.decisionId
  domainAuditEvent event := "event of " ++ event.decisionId
  approvalLedgerSha256 ledger := "ledger of " ++ ledger.runId
  approvalReissueBatchSha256 batch := "batch " ++ batch.reissueId
  approvalReissueOutcomeSha256 outcome := "outcome of " ++ outcome.reissueId
  reissueRecord record := "record of " ++ record.reissueId
  executionRecheckBinding binding := "binding of " ++ binding.requestId
  idempotencyReferenceSha256 key := "reference " ++ key

def samplePlan (expiresAt : Instant) : CanonicalActionPlanV2 :=
  ⟨.paidData, "execution-1", expiresAt, "one hand history"⟩

def sampleProposal (stableProposalId : String) (expiresAt : Instant) : ApprovalReissueSuccessorV2 :=
  ⟨stableProposalId, samplePlan expiresAt, "buy a hand history", "intake", "attempt-1"⟩

/-- A request of this run that expires at 100. -/
def sampleRequest : ApprovalRequestV2 :=
  requestOf sampleDigests "run-1" 1 1 (sampleProposal "proposal-1" 100) 10

def sampleState : VerifiedApprovalStateV2 where
  ledger := { emptyApprovalLedgerV2 "run-1" with ledgerRevision := 1, requests := [sampleRequest] }
  decisionRecords := []
  domainAuditEvents := []
  reissueRecords := []
  ledgerSha256 := "ledger of run-1"

def samplePublished : Published := ⟨1, .approvalRequired, .authoritativeV2 sampleState⟩

theorem sample_reachable : Reachable sampleDigests samplePublished :=
  ⟨_, @First.proposals sampleDigests "run-1" [(sampleProposal "proposal-1" 100, 10)] samplePublished
    (List.cons_ne_nil _ _) rfl, .refl⟩

def sampleActor : ApprovalActor where
  actorId := "reviewer-1"
  actorType := .human
  authoritySource := "directory"
  authorityScopes := [.rejectAny, .approve .paidData]
  verificationStatus := .verified
  verificationReferenceSha256 := some "verification"
  sessionReferenceSha256 := none
  credentialReferenceSha256 := none
  verifiedAt := some 5
  authorityExpiresAt := some 90
  revocationStatus := .notRevoked

def sampleSnapshot (resolvedAt : Instant) : ApprovalAuthoritySnapshotV2 :=
  ⟨"directory", "1.0.0", resolvedAt, sampleActor, "actor reviewer-1"⟩

/-- A provider that knows this actor alone. -/
def sampleProvider : DecisionAuthorityProvider sampleDigests where
  resolveActor actorId decisionAt :=
    if actorId = "reviewer-1" then some (sampleSnapshot decisionAt) else none
  closed h := by
    obtain ⟨-, h⟩ := Option.ite_none_right_eq_some.1 h
    obtain rfl := Option.some.inj h
    rfl

/-- The approval of the request at 20. -/
def sampleBatch : ApprovalDecisionBatch where
  runId := "run-1"
  expectedRunRevision := 1
  expectedLedgerRevision := 1
  actor := sampleActor
  decisionId := "decision-1"
  idempotencyKey := "decision-key-1"
  items := [⟨sampleRequest.requestId, 1, "action of execution-1", .approved⟩]
  reason := "needed"
  decisionAt := 20
  revision_pos := le_rfl
  min_length := List.cons_ne_nil _ _
  max_length := by decide
  request_revision_pos := by simp
  canonical_item_order := List.pairwise_singleton ..

/-- The reissue of the request at 120, when it has expired. -/
def sampleReissue : ApprovalReissueBatchV2 where
  runId := "run-1"
  expectedRunRevision := 1
  expectedLedgerRevision := 1
  reissueId := "reissue-1"
  idempotencyKey := "reissue-key-1"
  items := [⟨.approvalV2, sampleRequest.requestId, some 1, some "action of execution-1",
    sampleProposal "proposal-2" 300⟩]
  reason := "expired"
  reissuedAt := 120
  revision_pos := le_rfl
  min_length := List.cons_ne_nil _ _
  max_length := by decide
  source_revision_pos := by simp
  canonical_item_order := List.pairwise_singleton ..
  closed_source_matrix := by simp [ApprovalReissueItemV2.ClosedSource]

end PokerDeliberation.ApprovalLedger
