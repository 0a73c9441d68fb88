import PokerDeliberation.ApprovalLedger.Models
import PokerDeliberation.Lib.Logs
import Mathlib.Data.Prod.Lex

/-!
# The reader of the approval state

`read_approval_state_v2` on the values its four byte strings stand for: every
model is validated, then the decision chain, the audit chain, the reissue
chain, the timeline of all mutations, and what the requests of the ledger say
of the decisions and reissues.
-/

namespace PokerDeliberation.ApprovalLedger

open Lib Approvals

structure VerifiedApprovalStateV2 where
  ledger : ApprovalLedgerV2
  decisionRecords : List ApprovalDecisionRecordV2
  domainAuditEvents : List ApprovalDomainAuditEventV2
  reissueRecords : List ApprovalReissueRecordV2
  ledgerSha256 : Sha256

/-- `{request.request_id: request for request in ledger.requests}` -/
def ApprovalLedgerV2.request (ledger : ApprovalLedgerV2) (requestId : String) :
    Option ApprovalRequestV2 :=
  Keyed.dict (·.requestId) ledger.requests requestId

/-- The request as it was when it had these revisions and waited for a decision. -/
def ApprovalRequestV2.at (request : ApprovalRequestV2) (requestRevision ledgerRevision : Nat) :
    ApprovalRequestV2 :=
  { request with
    requestRevision := requestRevision
    ledgerRevision := ledgerRevision
    state := .pending
    supersessionReference := none }

section

variable (d : Digests) (ledger : ApprovalLedgerV2)

/-! ## Chains -/

def validateDecisionLink (before : List ApprovalDecisionRecordV2)
    (record : ApprovalDecisionRecordV2) : Except ApprovalError Unit := do
  require (record.sequence = before.length + 1 ∧
      record.previousRecordSha256 = before.getLast?.map (·.recordSha256) ∧
      record.runId = ledger.runId ∧ record.outcome.outcomeKind = .committed)
    (.ledgerCorrupt "approval decision chain mismatch")
  require (record.decisionId ∉ before.map (·.decisionId) ∧
      record.idempotencyKey ∉ before.map (·.idempotencyKey))
    (.ledgerCorrupt "duplicate approval decision identity")
  require (∀ prior ∈ before.getLast?, prior.committedAt ≤ record.committedAt)
    (.ledgerCorrupt "approval decision clock rollback")
  require (∀ prior ∈ before.getLast?,
      prior.outcome.currentLedgerRevision ≤ record.outcome.previousLedgerRevision)
    (.ledgerCorrupt "approval decision ledger rollback")
  require (∀ prior ∈ before.getLast?,
      prior.outcome.currentRunRevision ≤ record.outcome.previousRunRevision)
    (.ledgerCorrupt "approval decision run rollback")
  require (record.outcome.currentLedgerRevision ≤ ledger.ledgerRevision)
    (.ledgerCorrupt "approval decision exceeds ledger revision")

/-- `_validate_decision_chain`. -/
def validateDecisionChain (records : List ApprovalDecisionRecordV2) : Except ApprovalError Unit := do
  require (ledger.decisionCount = records.length)
    (.ledgerCorrupt "approval decision log is truncated")
  checkEach (validateDecisionLink ledger) [] records
  require (ledger.decisionLogHeadSha256 = records.getLast?.map (·.recordSha256))
    (.ledgerCorrupt "approval decision head mismatch")

def validateAuditLink (before : List (ApprovalDecisionRecordV2 × ApprovalDomainAuditEventV2))
    (entry : ApprovalDecisionRecordV2 × ApprovalDomainAuditEventV2) : Except ApprovalError Unit :=
  let (record, event) := entry
  require (event.sequence = before.length + 1 ∧
      event.previousEventSha256 = before.getLast?.map (·.2.eventSha256) ∧
      event.runId = ledger.runId ∧ event.decisionId = record.decisionId ∧
      event.actorSha256 = record.actorSha256 ∧
      event.authoritySnapshotSha256 = record.authoritySnapshotSha256 ∧
      event.batchSha256 = record.batchSha256 ∧
      event.decisionRecordSha256 = record.recordSha256 ∧
      event.outcomeSha256 = record.outcomeSha256 ∧
      event.runRevision = record.outcome.currentRunRevision ∧
      event.ledgerRevision = record.outcome.currentLedgerRevision ∧
      event.occurredAt = record.committedAt)
    (.ledgerCorrupt "approval domain audit chain mismatch")

/-- `_validate_domain_audit_chain`. -/
def validateDomainAuditChain (records : List ApprovalDecisionRecordV2)
    (events : List ApprovalDomainAuditEventV2) : Except ApprovalError Unit := do
  require (ledger.domainAuditCount = events.length ∧ records.length = events.length)
    (.ledgerCorrupt "approval domain audit log is truncated")
  checkEach (validateAuditLink ledger) [] (records.zip events)
  require (ledger.domainAuditLogHeadSha256 = events.getLast?.map (·.eventSha256))
    (.ledgerCorrupt "approval domain audit head mismatch")

def validateReissueLink (before : List ApprovalReissueRecordV2) (record : ApprovalReissueRecordV2) :
    Except ApprovalError Unit := do
  require (record.sequence = before.length + 1 ∧
      record.previousRecordSha256 = before.getLast?.map (·.recordSha256) ∧
      record.runId = ledger.runId ∧ record.outcome.currentLedgerRevision ≤ ledger.ledgerRevision)
    (.ledgerCorrupt "approval reissue chain mismatch")
  require (record.reissueId ∉ before.map (·.reissueId) ∧
      record.idempotencyKey ∉ before.map (·.idempotencyKey))
    (.ledgerCorrupt "duplicate approval reissue identity")
  require (∀ prior ∈ before.getLast?, prior.committedAt ≤ record.committedAt)
    (.ledgerCorrupt "approval reissue clock rollback")
  require (record.legacyProjection = [] ∨ before = [])
    (.ledgerCorrupt "legacy projection is not the first reissue")
  require (if record.legacyProjection = [] then
        ∀ item ∈ record.batch.items, item.sourceKind ≠ .historicalV1
      else ∀ item ∈ record.batch.items, item.sourceKind = .historicalV1)
    (.ledgerCorrupt "approval reissue source family mismatch")
  require (record.outcome.currentLedgerRevision = ledger.ledgerRevision →
      record.currentLedgerSha256 = d.approvalLedgerSha256 ledger)
    (.ledgerCorrupt "approval reissue terminal ledger mismatch")

/-- `_validate_reissue_chain`. -/
def validateReissueChain (records : List ApprovalReissueRecordV2) : Except ApprovalError Unit :=
  checkEach (validateReissueLink d ledger) [] records

/-! ## Timeline -/

structure Mutation where
  previousRunRevision : Nat
  currentRunRevision : Nat
  previousLedgerRevision : Nat
  currentLedgerRevision : Nat
  committedAt : Instant

/-- A mutation as the tuple it is sorted by. -/
def Mutation.key (m : Mutation) : Nat ×ₗ Nat ×ₗ Nat ×ₗ Nat ×ₗ Instant :=
  toLex (m.previousRunRevision, toLex (m.currentRunRevision, toLex (m.previousLedgerRevision,
    toLex (m.currentLedgerRevision, m.committedAt))))

def ApprovalDecisionRecordV2.mutation (record : ApprovalDecisionRecordV2) : Mutation :=
  ⟨record.outcome.previousRunRevision, record.outcome.currentRunRevision,
    record.outcome.previousLedgerRevision, record.outcome.currentLedgerRevision, record.committedAt⟩

def ApprovalReissueRecordV2.mutation (record : ApprovalReissueRecordV2) : Mutation :=
  ⟨record.outcome.previousRunRevision, record.outcome.currentRunRevision,
    record.outcome.previousLedgerRevision, record.outcome.currentLedgerRevision, record.committedAt⟩

def sortMutations (mutations : List Mutation) : List Mutation :=
  mutations.insertionSort fun m other => m.key ≤ other.key

def validateTimelineStep (before : List Mutation) (current : Mutation) : Except ApprovalError Unit := do
  require (∀ prior ∈ before.getLast?, current.previousRunRevision = prior.currentRunRevision ∧
      current.previousLedgerRevision = prior.currentLedgerRevision)
    (.ledgerCorrupt "approval mutation timeline gap")
  require (∀ prior ∈ before.getLast?, prior.committedAt ≤ current.committedAt)
    (.ledgerCorrupt "approval mutation timeline clock rollback")

/-- `_validate_mutation_timeline`. -/
def validateMutationTimeline (decisions : List ApprovalDecisionRecordV2)
    (reissues : List ApprovalReissueRecordV2) : Except ApprovalError Unit := do
  let mutations := sortMutations (decisions.map (·.mutation) ++ reissues.map (·.mutation))
  let successorCount := (reissues.map fun record => record.outcome.results.length).sum
  require (successorCount ≤ ledger.requests.length)
    (.ledgerCorrupt "approval reissue successor count exceeds requests")
  let rootRequestCount := ledger.requests.length - successorCount
  require (ledger.ledgerRevision = rootRequestCount + successorCount + decisions.length)
    (.ledgerCorrupt "approval ledger mutation count mismatch")
  if mutations = [] then
    require (ledger.ledgerRevision = ledger.requests.length)
      (.ledgerCorrupt "initial approval ledger revision mismatch")
  else do
    require (mutations.head?.map (·.previousLedgerRevision) = some rootRequestCount)
      (.ledgerCorrupt "approval mutation timeline root mismatch")
    checkEach validateTimelineStep [] mutations
    require (mutations.getLast?.map (·.currentLedgerRevision) = some ledger.ledgerRevision)
      (.ledgerCorrupt "approval mutation timeline head mismatch")

/-! ## Projection -/

def validateDecisionResult (before : List ApprovalDecisionResultV2)
    (result : ApprovalDecisionResultV2) : Except ApprovalError Unit := do
  let mismatch := ApprovalError.ledgerCorrupt "approval decision/request projection mismatch"
  let request ← given (ledger.request result.requestId) mismatch
  require (result.requestId ∉ before.map (·.requestId) ∧
      request.actionDigestSha256 = result.actionDigestSha256 ∧
      request.requestRevision = result.requestRevision ∧
      request.state = result.decision.state)
    mismatch

/-- The requests that V2 reissues have superseded. -/
def supersededIds (results : List ApprovalReissueResultV2) : List String :=
  (results.filter fun result => result.source.sourceKind = .approvalV2).map
    (·.source.sourceRequestId)

def validateSupersession (before : List ApprovalReissueResultV2) (result : ApprovalReissueResultV2) :
    Except ApprovalError Unit := do
  let mismatch := ApprovalError.ledgerCorrupt "approval supersession projection mismatch"
  let source ← given (ledger.request result.source.sourceRequestId) mismatch
  let revision ← given result.source.sourceRequestRevision mismatch
  let ledgerRevision ← given result.source.sourceLedgerRevision mismatch
  require (result.source.sourceRequestId ∉ supersededIds before ∧ source.state = .superseded ∧
      source.requestRevision = revision + 1 ∧
      some source.actionDigestSha256 = result.source.sourceActionDigestSha256 ∧
      source.supersessionReference = some result.successorRequestId)
    mismatch
  require (d.approvalRequestSha256 (source.at revision ledgerRevision) =
      result.source.sourceRequestSha256)
    (.ledgerCorrupt "approval supersession source hash mismatch")

def validateReissueResult (record : ApprovalReissueRecordV2) (before : List ApprovalReissueResultV2)
    (item : ApprovalReissueItemV2) (result : ApprovalReissueResultV2) : Except ApprovalError Unit := do
  require (item.sourceKind = result.source.sourceKind ∧
      item.sourceRequestId = result.source.sourceRequestId ∧
      result.successorRequestId ∉ before.map (·.successorRequestId))
    (.ledgerCorrupt "approval reissue result identity mismatch")
  let mismatch := ApprovalError.ledgerCorrupt "approval reissue successor projection mismatch"
  let successor ← given (ledger.request result.successorRequestId) mismatch
  require (result.successorRequestRevision ≤ successor.requestRevision ∧
      result.successorLedgerRevision ≤ successor.ledgerRevision ∧
      successor.createdRunRevision = result.successorCreatedRunRevision ∧
      successor.actionDigestSha256 = result.successorActionDigestSha256)
    mismatch
  require (d.approvalRequestSha256
      (successor.at result.successorRequestRevision result.successorLedgerRevision) =
        result.successorRequestSha256)
    (.ledgerCorrupt "approval reissue successor hash mismatch")
  match result.source.sourceKind with
  | .historicalV1 =>
    require (∃ snapshot ∈ record.legacyProjection,
        result.source.historicalSnapshot = some snapshot ∧ snapshot.binding.runId = ledger.runId)
      (.ledgerCorrupt "historical V1 reissue projection mismatch")
  | .approvalV2 => validateSupersession d ledger before result

def validateReissueProjection (before : List ApprovalReissueRecordV2)
    (record : ApprovalReissueRecordV2) : Except ApprovalError Unit := do
  require (record.batch.items.map (·.sourceRequestId) =
      record.outcome.results.map (·.source.sourceRequestId))
    (.ledgerCorrupt "approval reissue batch/result projection mismatch")
  checkEach (fun front entry => validateReissueResult d ledger record
      (before.flatMap (·.outcome.results) ++ front.map (·.2)) entry.1 entry.2)
    [] (record.batch.items.zip record.outcome.results)

/-- `_validate_request_projection`. -/
def validateRequestProjection (records : List ApprovalDecisionRecordV2)
    (reissues : List ApprovalReissueRecordV2) : Except ApprovalError Unit := do
  let results := records.flatMap (·.outcome.requestResults)
  checkEach (validateDecisionResult ledger) [] results
  checkEach (validateReissueProjection d ledger) [] reissues
  let decided := results.map (·.requestId)
  let superseded := supersededIds (reissues.flatMap (·.outcome.results))
  ledger.requests.forM fun request => do
    require (request.state ∈ [RequestState.approved, .rejected] → request.requestId ∈ decided)
      (.ledgerCorrupt "decided request lacks decision record")
    require (request.state = .pending → request.requestId ∉ decided)
      (.ledgerCorrupt "pending request has a decision record")
    require (request.state = .superseded → request.requestId ∈ superseded)
      (.ledgerCorrupt "superseded request lacks reissue record")
    require (¬ (request.requestId ∈ decided ∧ request.requestId ∈ superseded))
      (.ledgerCorrupt "request is both decided and superseded")

/-- The five validators, in their order. -/
def validateApprovalState (decisions : List ApprovalDecisionRecordV2)
    (events : List ApprovalDomainAuditEventV2) (reissues : List ApprovalReissueRecordV2) :
    Except ApprovalError Unit := do
  validateDecisionChain ledger decisions
  validateDomainAuditChain ledger decisions events
  validateReissueChain d ledger reissues
  validateMutationTimeline ledger decisions reissues
  validateRequestProjection d ledger decisions reissues

/-- `read_approval_state_v2`; a byte string is the values it is parsed as, which are validated. -/
def readApprovalStateV2 (decisions : List ApprovalDecisionRecordV2)
    (events : List ApprovalDomainAuditEventV2) (reissues : List ApprovalReissueRecordV2) :
    Except ApprovalError VerifiedApprovalStateV2 := do
  require (ledger.Closed d ∧ (∀ record ∈ decisions, record.Closed d) ∧
      (∀ event ∈ events, event.Closed d) ∧ ∀ record ∈ reissues, record.Closed d)
    (.ledgerCorrupt "authoritative approval ledger is corrupt")
  validateApprovalState d ledger decisions events reissues
  return ⟨ledger, decisions, events, reissues, d.approvalLedgerSha256 ledger⟩

end

end PokerDeliberation.ApprovalLedger
