import PokerDeliberation.ApprovalLedger.Mutations
import Mathlib.Algebra.Order.BigOperators.Group.List
import Mathlib.Data.List.Perm.Subperm
import Mathlib.Data.List.Sort

/-!
# What the reader has established

`Verified` reads an accepted approval state field by field. A request goes on
(`Continues`) by being left alone or, while it waits, by being decided or
superseded; whatever a chain or a projection says of a ledger it says of every
ledger whose requests have gone on (`Onward`).
-/

namespace PokerDeliberation.ApprovalLedger

open Lib Approvals

/-! ## Chains -/

section

variable (d : Digests) (ledger : ApprovalLedgerV2)

structure DecisionLink (before : List ApprovalDecisionRecordV2) (record : ApprovalDecisionRecordV2) :
    Prop where
  sequence : record.sequence = before.length + 1
  previous : record.previousRecordSha256 = before.getLast?.map (·.recordSha256)
  runId : record.runId = ledger.runId
  committed : record.outcome.outcomeKind = .committed
  decisionId_fresh : record.decisionId ∉ before.map (·.decisionId)
  key_fresh : record.idempotencyKey ∉ before.map (·.idempotencyKey)
  clock : ∀ prior ∈ before.getLast?, prior.committedAt ≤ record.committedAt
  ledger_onward : ∀ prior ∈ before.getLast?,
    prior.outcome.currentLedgerRevision ≤ record.outcome.previousLedgerRevision
  run_onward : ∀ prior ∈ before.getLast?,
    prior.outcome.currentRunRevision ≤ record.outcome.previousRunRevision
  bounded : record.outcome.currentLedgerRevision ≤ ledger.ledgerRevision

structure AuditLink (before : List (ApprovalDecisionRecordV2 × ApprovalDomainAuditEventV2))
    (entry : ApprovalDecisionRecordV2 × ApprovalDomainAuditEventV2) : Prop where
  sequence : entry.2.sequence = before.length + 1
  previous : entry.2.previousEventSha256 = before.getLast?.map (·.2.eventSha256)
  runId : entry.2.runId = ledger.runId
  identity : entry.2.decisionId = entry.1.decisionId ∧ entry.2.actorSha256 = entry.1.actorSha256 ∧
    entry.2.authoritySnapshotSha256 = entry.1.authoritySnapshotSha256 ∧
    entry.2.batchSha256 = entry.1.batchSha256 ∧
    entry.2.decisionRecordSha256 = entry.1.recordSha256 ∧
    entry.2.outcomeSha256 = entry.1.outcomeSha256 ∧
    entry.2.runRevision = entry.1.outcome.currentRunRevision ∧
    entry.2.ledgerRevision = entry.1.outcome.currentLedgerRevision ∧
    entry.2.occurredAt = entry.1.committedAt

structure ReissueLink (before : List ApprovalReissueRecordV2) (record : ApprovalReissueRecordV2) :
    Prop where
  sequence : record.sequence = before.length + 1
  previous : record.previousRecordSha256 = before.getLast?.map (·.recordSha256)
  runId : record.runId = ledger.runId
  bounded : record.outcome.currentLedgerRevision ≤ ledger.ledgerRevision
  reissueId_fresh : record.reissueId ∉ before.map (·.reissueId)
  key_fresh : record.idempotencyKey ∉ before.map (·.idempotencyKey)
  clock : ∀ prior ∈ before.getLast?, prior.committedAt ≤ record.committedAt
  projection_first : record.legacyProjection = [] ∨ before = []
  family : if record.legacyProjection = [] then
      ∀ item ∈ record.batch.items, item.sourceKind ≠ .historicalV1
    else ∀ item ∈ record.batch.items, item.sourceKind = .historicalV1
  terminal : record.outcome.currentLedgerRevision = ledger.ledgerRevision →
    record.currentLedgerSha256 = d.approvalLedgerSha256 ledger

/-- All mutations of a state, in the order of the timeline. -/
def timeline (decisions : List ApprovalDecisionRecordV2) (reissues : List ApprovalReissueRecordV2) :
    List Mutation :=
  sortMutations (decisions.map (·.mutation) ++ reissues.map (·.mutation))

def successorCount (reissues : List ApprovalReissueRecordV2) : Nat :=
  (reissues.map fun record => record.outcome.results.length).sum

/-- A mutation goes on where the one before it ended. -/
structure TimelineStep (before : List Mutation) (current : Mutation) : Prop where
  run : ∀ prior ∈ before.getLast?, current.previousRunRevision = prior.currentRunRevision
  ledger : ∀ prior ∈ before.getLast?, current.previousLedgerRevision = prior.currentLedgerRevision
  clock : ∀ prior ∈ before.getLast?, prior.committedAt ≤ current.committedAt

/-- The ledger counts its mutations, and the timeline leads from the first requests to it. -/
structure Timeline (decisions : List ApprovalDecisionRecordV2)
    (reissues : List ApprovalReissueRecordV2) : Prop where
  successors_le : successorCount reissues ≤ ledger.requests.length
  revision : ledger.ledgerRevision = ledger.requests.length + decisions.length
  root : ∀ first ∈ (timeline decisions reissues).head?,
    first.previousLedgerRevision + successorCount reissues = ledger.requests.length
  steps : Admitted TimelineStep (timeline decisions reissues)
  head : ∀ last ∈ (timeline decisions reissues).getLast?,
    last.currentLedgerRevision = ledger.ledgerRevision

/-! ## Projections -/

/-- The request of a result is as the result says. -/
structure DecidedBy (before : List ApprovalDecisionResultV2) (result : ApprovalDecisionResultV2) :
    Prop where
  fresh : result.requestId ∉ before.map (·.requestId)
  request : ∃ request ∈ ledger.requests, request.requestId = result.requestId ∧
    request.actionDigestSha256 = result.actionDigestSha256 ∧
    request.requestRevision = result.requestRevision ∧ request.state = result.decision.state

/-- The source of a V2 reissue is superseded by the successor, and was what it was bound to. -/
structure SupersededBy (before : List ApprovalReissueResultV2) (result : ApprovalReissueResultV2) :
    Prop where
  fresh : result.source.sourceRequestId ∉ supersededIds before
  source : ∃ source ∈ ledger.requests, source.requestId = result.source.sourceRequestId ∧
    source.state = .superseded ∧ source.supersessionReference = some result.successorRequestId ∧
    some source.actionDigestSha256 = result.source.sourceActionDigestSha256 ∧
    ∃ revision ledgerRevision, result.source.sourceRequestRevision = some revision ∧
      result.source.sourceLedgerRevision = some ledgerRevision ∧
      source.requestRevision = revision + 1 ∧
      d.approvalRequestSha256 (source.at revision ledgerRevision) = result.source.sourceRequestSha256

structure ReissuedBy (projection : List HistoricalApprovalV1SnapshotV2)
    (before : List ApprovalReissueResultV2) (item : ApprovalReissueItemV2)
    (result : ApprovalReissueResultV2) : Prop where
  kind : item.sourceKind = result.source.sourceKind
  sourceId : item.sourceRequestId = result.source.sourceRequestId
  successor_fresh : result.successorRequestId ∉ before.map (·.successorRequestId)
  successor : ∃ successor ∈ ledger.requests, successor.requestId = result.successorRequestId ∧
    result.successorRequestRevision ≤ successor.requestRevision ∧
    result.successorLedgerRevision ≤ successor.ledgerRevision ∧
    successor.createdRunRevision = result.successorCreatedRunRevision ∧
    successor.actionDigestSha256 = result.successorActionDigestSha256 ∧
    d.approvalRequestSha256
      (successor.at result.successorRequestRevision result.successorLedgerRevision) =
        result.successorRequestSha256
  historical : result.source.sourceKind = .historicalV1 → ∃ snapshot ∈ projection,
    result.source.historicalSnapshot = some snapshot ∧ snapshot.binding.runId = ledger.runId
  superseded : result.source.sourceKind = .approvalV2 → SupersededBy d ledger before result

/-- A record of the reissue log, with those before it. -/
structure ReissueProjection (before : List ApprovalReissueRecordV2)
    (record : ApprovalReissueRecordV2) : Prop where
  sources : record.batch.items.map (·.sourceRequestId) =
    record.outcome.results.map (·.source.sourceRequestId)
  results : Admitted (fun front entry => ReissuedBy d ledger record.legacyProjection
      (before.flatMap (·.outcome.results) ++ front.map (·.2)) entry.1 entry.2)
    (record.batch.items.zip record.outcome.results)

/-- What the logs say of a request agrees with its state. -/
structure Supported (results replaced : List String) (request : ApprovalRequestV2) : Prop where
  decided : request.state = .approved ∨ request.state = .rejected → request.requestId ∈ results
  pending : request.state = .pending → request.requestId ∉ results
  superseded : request.state = .superseded → request.requestId ∈ replaced
  not_both : ¬ (request.requestId ∈ results ∧ request.requestId ∈ replaced)

end

/-- The requests that were decided, and those that were superseded. -/
def VerifiedApprovalStateV2.decided (state : VerifiedApprovalStateV2) : List String :=
  (state.decisionRecords.flatMap (·.outcome.requestResults)).map (·.requestId)

/-- The results of all decisions, and of all reissues. -/
def VerifiedApprovalStateV2.decisionResults (state : VerifiedApprovalStateV2) :
    List ApprovalDecisionResultV2 :=
  state.decisionRecords.flatMap (·.outcome.requestResults)

def VerifiedApprovalStateV2.reissueResults (state : VerifiedApprovalStateV2) :
    List ApprovalReissueResultV2 :=
  state.reissueRecords.flatMap (·.outcome.results)

def VerifiedApprovalStateV2.superseded (state : VerifiedApprovalStateV2) : List String :=
  supersededIds state.reissueResults

/-- A state the reader accepts. -/
structure Verified (d : Digests) (state : VerifiedApprovalStateV2) : Prop where
  ledger_closed : state.ledger.Closed d
  decisions_closed : ∀ record ∈ state.decisionRecords, record.Closed d
  events_closed : ∀ event ∈ state.domainAuditEvents, event.Closed d
  reissues_closed : ∀ record ∈ state.reissueRecords, record.Closed d
  decision_count : state.ledger.decisionCount = state.decisionRecords.length
  decision_links : Admitted (DecisionLink state.ledger) state.decisionRecords
  decision_head : state.ledger.decisionLogHeadSha256 =
    state.decisionRecords.getLast?.map (·.recordSha256)
  audit_count : state.ledger.domainAuditCount = state.domainAuditEvents.length
  audit_length : state.decisionRecords.length = state.domainAuditEvents.length
  audit_links : Admitted (AuditLink state.ledger)
    (state.decisionRecords.zip state.domainAuditEvents)
  audit_head : state.ledger.domainAuditLogHeadSha256 =
    state.domainAuditEvents.getLast?.map (·.eventSha256)
  reissue_links : Admitted (ReissueLink d state.ledger) state.reissueRecords
  timeline : Timeline state.ledger state.decisionRecords state.reissueRecords
  decision_results : Admitted (DecidedBy state.ledger)
    (state.decisionRecords.flatMap (·.outcome.requestResults))
  reissue_results : Admitted (ReissueProjection d state.ledger) state.reissueRecords
  supported : ∀ request ∈ state.ledger.requests,
    Supported state.decided state.superseded request
  ledger_sha256 : state.ledgerSha256 = d.approvalLedgerSha256 state.ledger

/-! ## The reader -/

section

variable {d : Digests} {ledger : ApprovalLedgerV2} {state : VerifiedApprovalStateV2}
variable {decisions : List ApprovalDecisionRecordV2} {events : List ApprovalDomainAuditEventV2}
variable {reissues : List ApprovalReissueRecordV2}

theorem ApprovalLedgerV2.Closed.requests_le (h : ledger.Closed d) : ledger.requests.length ≤ 1024 :=
  h.2.1.1

theorem ApprovalLedgerV2.Closed.nodup (h : ledger.Closed d) :
    Keyed.Distinct (·.requestId) ledger.requests := h.2.2.1

theorem ApprovalLedgerV2.Closed.keys_nodup (h : ledger.Closed d) :
    (ledger.requests.map (·.requestIdempotencyKey)).Nodup := h.2.2.2.1

theorem ApprovalLedgerV2.Closed.revision_le (h : ledger.Closed d) {request : ApprovalRequestV2}
    (hr : request ∈ ledger.requests) : request.ledgerRevision ≤ ledger.ledgerRevision :=
  h.2.2.2.2.2.1 request hr

theorem request_eq_some (h : ledger.Closed d) {requestId : String} {request : ApprovalRequestV2} :
    ledger.request requestId = some request ↔
      request ∈ ledger.requests ∧ request.requestId = requestId :=
  Keyed.dict_eq_some_iff h.nodup

theorem validateDecisionLink_eq_ok {before : List ApprovalDecisionRecordV2}
    {record : ApprovalDecisionRecordV2} :
    validateDecisionLink ledger before record = .ok () ↔ DecisionLink ledger before record := by
  simp only [validateDecisionLink, check_bind_eq_ok, require_eq_ok]
  constructor
  · rintro ⟨⟨hsequence, hprevious, hrun, hkind⟩, ⟨hid, hkey⟩, hclock, hledger, hrevision, hbound⟩
    exact ⟨hsequence, hprevious, hrun, hkind, hid, hkey, hclock, hledger, hrevision, hbound⟩
  · exact fun h => ⟨⟨h.sequence, h.previous, h.runId, h.committed⟩, ⟨h.decisionId_fresh, h.key_fresh⟩,
      h.clock, h.ledger_onward, h.run_onward, h.bounded⟩

theorem validateDecisionChain_eq_ok : validateDecisionChain ledger decisions = .ok () ↔
    ledger.decisionCount = decisions.length ∧ Admitted (DecisionLink ledger) decisions ∧
      ledger.decisionLogHeadSha256 = decisions.getLast?.map (·.recordSha256) := by
  simp only [validateDecisionChain, check_bind_eq_ok, require_eq_ok, checkEach_eq_ok,
    List.nil_append, validateDecisionLink_eq_ok]

theorem validateAuditLink_eq_ok
    {before : List (ApprovalDecisionRecordV2 × ApprovalDomainAuditEventV2)}
    {entry : ApprovalDecisionRecordV2 × ApprovalDomainAuditEventV2} :
    validateAuditLink ledger before entry = .ok () ↔ AuditLink ledger before entry := by
  simp only [validateAuditLink, require_eq_ok]
  constructor
  · rintro ⟨hsequence, hprevious, hrun, hrest⟩
    exact ⟨hsequence, hprevious, hrun, hrest⟩
  · exact fun h => ⟨h.sequence, h.previous, h.runId, h.identity⟩

theorem validateDomainAuditChain_eq_ok :
    validateDomainAuditChain ledger decisions events = .ok () ↔
      (ledger.domainAuditCount = events.length ∧ decisions.length = events.length) ∧
        Admitted (AuditLink ledger) (decisions.zip events) ∧
          ledger.domainAuditLogHeadSha256 = events.getLast?.map (·.eventSha256) := by
  simp only [validateDomainAuditChain, check_bind_eq_ok, require_eq_ok, checkEach_eq_ok,
    List.nil_append, validateAuditLink_eq_ok]

variable {before : List ApprovalReissueRecordV2} {record : ApprovalReissueRecordV2}
variable {front : List ApprovalReissueResultV2} {result : ApprovalReissueResultV2}

theorem validateReissueLink_eq_ok :
    validateReissueLink d ledger before record = .ok () ↔ ReissueLink d ledger before record := by
  simp only [validateReissueLink, check_bind_eq_ok, require_eq_ok]
  constructor
  · rintro ⟨⟨hsequence, hprevious, hrun, hbound⟩, ⟨hid, hkey⟩, hclock, hfirst, hfamily, hterminal⟩
    exact ⟨hsequence, hprevious, hrun, hbound, hid, hkey, hclock, hfirst, hfamily, hterminal⟩
  · exact fun h => ⟨⟨h.sequence, h.previous, h.runId, h.bounded⟩, ⟨h.reissueId_fresh, h.key_fresh⟩,
      h.clock, h.projection_first, h.family, h.terminal⟩

theorem validateReissueChain_eq_ok : validateReissueChain d ledger reissues = .ok () ↔
    Admitted (ReissueLink d ledger) reissues := by
  simp only [validateReissueChain, checkEach_eq_ok, List.nil_append, validateReissueLink_eq_ok]

theorem validateTimelineStep_eq_ok {before : List Mutation} {current : Mutation} :
    validateTimelineStep before current = .ok () ↔ TimelineStep before current := by
  simp only [validateTimelineStep, check_bind_eq_ok, require_eq_ok]
  constructor
  · rintro ⟨hgap, hclock⟩
    exact ⟨fun prior hprior => (hgap prior hprior).1, fun prior hprior => (hgap prior hprior).2, hclock⟩
  · exact fun h => ⟨fun prior hprior => ⟨h.run prior hprior, h.ledger prior hprior⟩, h.clock⟩

theorem timeline_eq_nil : timeline decisions reissues = [] ↔ decisions = [] ∧ reissues = [] := by
  rw [timeline, sortMutations, ← List.length_eq_zero_iff, List.length_insertionSort]
  simp

theorem validateMutationTimeline_eq_ok : validateMutationTimeline ledger decisions reissues = .ok () ↔
    Timeline ledger decisions reissues := by
  simp only [validateMutationTimeline, require_bind_eq_ok]
  change _ ∧ _ ∧ (if timeline decisions reissues = [] then _ else _) = _ ↔ _
  split
  case isTrue hnil =>
    obtain ⟨rfl, rfl⟩ := timeline_eq_nil.1 hnil
    simp only [require_eq_ok]
    constructor
    · rintro ⟨hle, hrevision, -⟩
      exact ⟨hle, by simpa using hrevision, by simp [hnil], by simp [hnil, admitted_nil],
        by simp [hnil]⟩
    · exact fun h => ⟨h.successors_le, by simpa [successorCount] using h.revision,
        by simpa using h.revision⟩
  case isFalse hne =>
    obtain ⟨first, hfirst⟩ := Option.isSome_iff_exists.1 (List.isSome_head?.2 hne)
    obtain ⟨last, hlast⟩ := Option.isSome_iff_exists.1 (List.getLast?_isSome.2 hne)
    simp only [check_bind_eq_ok, checkEach_eq_ok, List.nil_append,
      validateTimelineStep_eq_ok, require_eq_ok]
    change _ ∧ _ ∧ (timeline decisions reissues).head?.map _ = _ ∧
      Admitted TimelineStep (timeline decisions reissues) ∧
        (timeline decisions reissues).getLast?.map _ = _ ↔ _
    rw [hfirst, hlast]
    simp only [Option.map_some, Option.some.injEq]
    change successorCount reissues ≤ _ ∧ _ = _ - successorCount reissues + successorCount reissues + _ ∧
      _ = _ - successorCount reissues ∧ _ ↔ _
    constructor
    · rintro ⟨hle, hrevision, hroot, hsteps, hhead⟩
      refine ⟨hle, by omega, ?_, hsteps, ?_⟩
      · rw [hfirst]
        rintro _ ⟨⟩
        omega
      · rw [hlast]
        rintro _ ⟨⟩
        exact hhead
    · intro h
      have hle := h.successors_le
      have hrevision := h.revision
      have hroot := h.root first hfirst
      exact ⟨hle, by omega, by omega, h.steps, h.head last hlast⟩

theorem validateDecisionResult_eq_ok (h : ledger.Closed d) {before : List ApprovalDecisionResultV2}
    {result : ApprovalDecisionResultV2} :
    validateDecisionResult ledger before result = .ok () ↔ DecidedBy ledger before result := by
  simp only [validateDecisionResult, given_bind_eq_ok, request_eq_some h, require_eq_ok]
  constructor
  · rintro ⟨request, ⟨hmem, hid⟩, hfresh, hdigest, hrevision, hstate⟩
    exact ⟨hfresh, request, hmem, hid, hdigest, hrevision, hstate⟩
  · rintro ⟨hfresh, request, hmem, hid, hdigest, hrevision, hstate⟩
    exact ⟨request, ⟨hmem, hid⟩, hfresh, hdigest, hrevision, hstate⟩

theorem validateSupersession_eq_ok (h : ledger.Closed d) :
    validateSupersession d ledger front result = .ok () ↔ SupersededBy d ledger front result := by
  simp only [validateSupersession, given_bind_eq_ok, request_eq_some h, require_bind_eq_ok,
    require_eq_ok]
  constructor
  · rintro ⟨source, ⟨hmem, hid⟩, revision, hrevision, ledgerRevision, hledger,
      ⟨hfresh, hstate, hnext, hdigest, hreference⟩, hhash⟩
    exact ⟨hfresh, source, hmem, hid, hstate, hreference, hdigest, revision, ledgerRevision, hrevision,
      hledger, hnext, hhash⟩
  · rintro ⟨hfresh, source, hmem, hid, hstate, hreference, hdigest, revision, ledgerRevision, hrevision,
      hledger, hnext, hhash⟩
    exact ⟨source, ⟨hmem, hid⟩, revision, hrevision, ledgerRevision, hledger,
      ⟨hfresh, hstate, hnext, hdigest, hreference⟩, hhash⟩

theorem validateReissueResult_eq_ok (h : ledger.Closed d) {item : ApprovalReissueItemV2} :
    validateReissueResult d ledger record front item result = .ok () ↔
      ReissuedBy d ledger record.legacyProjection front item result := by
  simp only [validateReissueResult, given_bind_eq_ok, request_eq_some h, require_bind_eq_ok]
  constructor
  · rintro ⟨⟨hsame, hid, hfresh⟩, successor, ⟨hmem, hsuccessor⟩,
      ⟨hrevision, hledger, hcreated, hdigest⟩, hhash, hsource⟩
    refine ⟨hsame, hid, hfresh, ⟨successor, hmem, hsuccessor, hrevision, hledger, hcreated, hdigest,
      hhash⟩, fun hkind => ?_, fun hkind => ?_⟩
    · rw [hkind] at hsource
      exact require_eq_ok.1 hsource
    · rw [hkind] at hsource
      exact (validateSupersession_eq_ok h).1 hsource
  · intro hby
    obtain ⟨successor, hmem, hsuccessor, hrevision, hledger, hcreated, hdigest, hhash⟩ := hby.successor
    refine ⟨⟨hby.kind, hby.sourceId, hby.successor_fresh⟩, successor, ⟨hmem, hsuccessor⟩,
      ⟨hrevision, hledger, hcreated, hdigest⟩, hhash, ?_⟩
    cases hkind : result.source.sourceKind with
    | historicalV1 => exact require_eq_ok.2 (hby.historical hkind)
    | approvalV2 => exact (validateSupersession_eq_ok h).2 (hby.superseded hkind)

theorem validateReissueProjection_eq_ok (h : ledger.Closed d) :
    validateReissueProjection d ledger before record = .ok () ↔
      ReissueProjection d ledger before record := by
  simp only [validateReissueProjection, require_bind_eq_ok, checkEach_eq_ok, List.nil_append,
    validateReissueResult_eq_ok h]
  constructor
  · rintro ⟨hsources, hresults⟩
    exact ⟨hsources, hresults⟩
  · exact fun h => ⟨h.sources, h.results⟩

theorem validateRequestProjection_eq_ok (h : ledger.Closed d) :
    validateRequestProjection d ledger decisions reissues = .ok () ↔
      Admitted (DecidedBy ledger) (decisions.flatMap (·.outcome.requestResults)) ∧
        Admitted (ReissueProjection d ledger) reissues ∧
          ∀ request ∈ ledger.requests,
            Supported ((decisions.flatMap (·.outcome.requestResults)).map (·.requestId))
              (supersededIds (reissues.flatMap (·.outcome.results))) request := by
  simp only [validateRequestProjection, check_bind_eq_ok, checkEach_eq_ok, List.nil_append,
    validateDecisionResult_eq_ok h, validateReissueProjection_eq_ok h, List.forM_eq_forM,
    forM_eq_ok, require_eq_ok]
  refine and_congr_right fun _ => and_congr_right fun _ => forall₂_congr fun request _ => ?_
  constructor
  · rintro ⟨hdecided, hpending, hsuperseded, hboth⟩
    exact ⟨fun hstate => hdecided (by simpa using hstate), hpending, hsuperseded, hboth⟩
  · exact fun h => ⟨fun hstate => h.decided (by simpa using hstate), h.pending, h.superseded,
      h.not_both⟩

/-- The reader accepts exactly the verified states, and returns them as they are. -/
theorem readApprovalStateV2_eq_ok :
    readApprovalStateV2 d ledger decisions events reissues = .ok state ↔
      state = ⟨ledger, decisions, events, reissues, d.approvalLedgerSha256 ledger⟩ ∧
        Verified d state := by
  simp only [readApprovalStateV2, validateApprovalState, check_bind_eq_ok, require_eq_ok, pure_eq_ok]
  constructor
  · rintro ⟨⟨hledger, hdecisions, hevents, hreissues⟩, ⟨hchain, haudit, hreissue, htimeline, hprojection⟩,
      rfl⟩
    refine ⟨rfl, ?_⟩
    obtain ⟨hcount, hlinks, hhead⟩ := validateDecisionChain_eq_ok.1 hchain
    obtain ⟨⟨hauditCount, hlength⟩, hauditLinks, hauditHead⟩ := validateDomainAuditChain_eq_ok.1 haudit
    obtain ⟨hresults, hreissueResults, hsupported⟩ := (validateRequestProjection_eq_ok hledger).1 hprojection
    exact
      { ledger_closed := hledger
        decisions_closed := hdecisions
        events_closed := hevents
        reissues_closed := hreissues
        decision_count := hcount
        decision_links := hlinks
        decision_head := hhead
        audit_count := hauditCount
        audit_length := hlength
        audit_links := hauditLinks
        audit_head := hauditHead
        reissue_links := validateReissueChain_eq_ok.1 hreissue
        timeline := validateMutationTimeline_eq_ok.1 htimeline
        decision_results := hresults
        reissue_results := hreissueResults
        supported := hsupported
        ledger_sha256 := rfl }
  · rintro ⟨rfl, h⟩
    exact ⟨⟨h.ledger_closed, h.decisions_closed, h.events_closed, h.reissues_closed⟩,
      ⟨validateDecisionChain_eq_ok.2 ⟨h.decision_count, h.decision_links, h.decision_head⟩,
        validateDomainAuditChain_eq_ok.2
          ⟨⟨h.audit_count, h.audit_length⟩, h.audit_links, h.audit_head⟩,
        validateReissueChain_eq_ok.2 h.reissue_links, validateMutationTimeline_eq_ok.2 h.timeline,
        (validateRequestProjection_eq_ok h.ledger_closed).2
          ⟨h.decision_results, h.reissue_results, h.supported⟩⟩, rfl⟩

end

/-! ## Sorted requests -/

/-- Only a superseded request refers to its successor. -/
theorem ApprovalRequestV2.Closed.no_reference {d : Digests} {request : ApprovalRequestV2}
    (hc : request.Closed d) (hpending : request.state = .pending) :
    request.supersessionReference = none := by
  by_contra hne
  have hsuperseded := hc.2.2.2.2.1.2 hne
  rw [hpending] at hsuperseded
  cases hsuperseded

instance requestLe_total : Std.Total ApprovalRequestV2.le := by
  refine ⟨fun request other => ?_⟩
  rcases lt_trichotomy request.ledgerRevision other.ledgerRevision with hlt | heq | hgt
  · exact .inl (.inl hlt)
  · exact (le_total request.requestId other.requestId).imp (fun h => .inr ⟨heq, h⟩)
      fun h => .inr ⟨heq.symm, h⟩
  · exact .inr (.inl hgt)

instance requestLe_trans : IsTrans ApprovalRequestV2 ApprovalRequestV2.le := by
  refine ⟨fun request other last h h' => ?_⟩
  rcases h with hlt | ⟨heq, hle⟩ <;> rcases h' with hlt' | ⟨heq', hle'⟩
  · exact .inl (hlt.trans hlt')
  · exact .inl (heq' ▸ hlt)
  · exact .inl (heq ▸ hlt')
  · exact .inr ⟨heq.trans heq', hle.trans hle'⟩

@[simp] theorem length_sortRequests (requests : List ApprovalRequestV2) :
    (sortRequests requests).length = requests.length :=
  List.length_insertionSort ..

@[simp] theorem mem_sortRequests {requests : List ApprovalRequestV2} {request : ApprovalRequestV2} :
    request ∈ sortRequests requests ↔ request ∈ requests :=
  List.mem_insertionSort _

theorem pendingCount_le (requests : List ApprovalRequestV2) : pendingCount requests ≤ requests.length :=
  List.countP_le_length

/-! ## What the logs say -/

section

variable {d : Digests} {state : VerifiedApprovalStateV2} {request : ApprovalRequestV2}

theorem Verified.request_unique (h : Verified d state) {other : ApprovalRequestV2}
    (hr : request ∈ state.ledger.requests) (ho : other ∈ state.ledger.requests)
    (hid : request.requestId = other.requestId) : request = other :=
  h.ledger_closed.nodup.eq hr ho hid

theorem DecisionValue.state_decided (decision : DecisionValue) :
    decision.state = .approved ∨ decision.state = .rejected := by
  cases decision
  · exact .inl rfl
  · exact .inr rfl

/-- Every result of a verified record was checked with some item of the batch. -/
theorem ReissueProjection.exists_item {ledger : ApprovalLedgerV2}
    {before : List ApprovalReissueRecordV2} {record : ApprovalReissueRecordV2}
    (h : ReissueProjection d ledger before record) {result : ApprovalReissueResultV2}
    (hresult : result ∈ record.outcome.results) : ∃ front, ∃ item ∈ record.batch.items,
      ReissuedBy d ledger record.legacyProjection front item result := by
  have hlength : record.batch.items.length = record.outcome.results.length := by
    simpa using congrArg List.length h.sources
  rw [← List.map_snd_zip hlength.ge] at hresult
  obtain ⟨entry, hentry, rfl⟩ := List.mem_map.1 hresult
  obtain ⟨front, back, heq⟩ := List.append_of_mem hentry
  exact ⟨_, entry.1, (List.of_mem_zip hentry).1, h.results front entry back heq⟩

theorem Verified.reissued (h : Verified d state) {result : ApprovalReissueResultV2}
    (hresult : result ∈ state.reissueRecords.flatMap (·.outcome.results)) :
    ∃ projection front item, ReissuedBy d state.ledger projection front item result := by
  obtain ⟨record, hrecord, hmem⟩ := List.mem_flatMap.1 hresult
  obtain ⟨before, back, heq⟩ := List.append_of_mem hrecord
  obtain ⟨front, item, -, hby⟩ := (h.reissue_results before record back heq).exists_item hmem
  exact ⟨_, front, item, hby⟩

theorem Verified.result_request (h : Verified d state) {result : ApprovalDecisionResultV2}
    (hresult : result ∈ state.decisionRecords.flatMap (·.outcome.requestResults)) :
    ∃ request ∈ state.ledger.requests, request.requestId = result.requestId ∧
      request.actionDigestSha256 = result.actionDigestSha256 ∧
      request.requestRevision = result.requestRevision ∧ request.state = result.decision.state := by
  obtain ⟨before, back, heq⟩ := List.append_of_mem hresult
  exact (h.decision_results before result back heq).request

/-- The requests with a result are those that were approved or rejected. -/
theorem Verified.mem_decided (h : Verified d state) (hr : request ∈ state.ledger.requests) :
    request.requestId ∈ state.decided ↔ request.state = .approved ∨ request.state = .rejected := by
  refine ⟨fun hmem => ?_, (h.supported request hr).decided⟩
  obtain ⟨result, hresult, hid⟩ := List.mem_map.1 hmem
  obtain ⟨other, hother, hotherId, -, -, hstate⟩ := h.result_request hresult
  rw [h.request_unique hr hother (hid.symm.trans hotherId.symm), hstate]
  exact result.decision.state_decided

theorem mem_supersededIds {results : List ApprovalReissueResultV2} {requestId : String} :
    requestId ∈ supersededIds results ↔ ∃ result ∈ results, result.source.sourceKind = .approvalV2 ∧
      result.source.sourceRequestId = requestId := by
  simp [supersededIds, and_assoc]

theorem supersededIds_append {results more : List ApprovalReissueResultV2} :
    supersededIds (results ++ more) = supersededIds results ++ supersededIds more := by
  simp [supersededIds]

/-- The requests that a V2 reissue names as its source are those that were superseded. -/
theorem Verified.mem_superseded (h : Verified d state) (hr : request ∈ state.ledger.requests) :
    request.requestId ∈ state.superseded ↔ request.state = .superseded := by
  refine ⟨fun hmem => ?_, (h.supported request hr).superseded⟩
  obtain ⟨result, hresult, hkind, hid⟩ := mem_supersededIds.1 hmem
  obtain ⟨_, _, _, hby⟩ := h.reissued hresult
  obtain ⟨source, hsource, hsourceId, hstate, -⟩ := (hby.superseded hkind).source
  rwa [h.request_unique hr hsource (hid.symm.trans hsourceId.symm)]

theorem Verified.not_mem_decided (h : Verified d state) (hr : request ∈ state.ledger.requests)
    (hpending : request.state = .pending) : request.requestId ∉ state.decided := by
  rw [h.mem_decided hr, hpending]
  simp

theorem Verified.not_mem_superseded (h : Verified d state) (hr : request ∈ state.ledger.requests)
    (hpending : request.state = .pending) : request.requestId ∉ state.superseded := by
  rw [h.mem_superseded hr, hpending]
  simp

/-- Each decision record decides a request that no other decides. -/
theorem Verified.decided_nodup (h : Verified d state) : state.decided.Nodup :=
  admitted_nodup.1 (h.decision_results.imp fun _ _ _ hby => hby.fresh)

/-- The record of a decision is the only one that decides its requests. -/
theorem Verified.record_filter (h : Verified d state) {record : ApprovalDecisionRecordV2}
    (hrecord : record ∈ state.decisionRecords) {requestId : String}
    (hdecides : requestId ∈ record.outcome.requestResults.map (·.requestId)) :
    state.decisionRecords.filter
      (fun record => requestId ∈ record.outcome.requestResults.map (·.requestId)) = [record] := by
  have hnodup := h.decided_nodup
  rw [VerifiedApprovalStateV2.decided, List.map_flatMap] at hnodup
  exact filter_mem_eq hnodup hrecord hdecides

end

section

variable {d : Digests} {state : VerifiedApprovalStateV2} {record : ApprovalDecisionRecordV2}

theorem Verified.link (h : Verified d state) (hrecord : record ∈ state.decisionRecords) : ∃ before, DecisionLink state.ledger before record := by
  obtain ⟨before, back, heq⟩ := List.append_of_mem hrecord
  exact ⟨before, h.decision_links before record back heq⟩

theorem Verified.results_eq (h : Verified d state) (hrecord : record ∈ state.decisionRecords) :
    record.outcome.requestResults = record.batch.items.map (·.result) := by
  have hclosed := (h.decisions_closed record hrecord).2.2.1
  exact hclosed.2.2.2.2.2.2.2.2.2.2.2.2.1

theorem Verified.committed (h : Verified d state) (hrecord : record ∈ state.decisionRecords) :
    record.outcome.Committed := by
  obtain ⟨_, hlink⟩ := h.link hrecord
  have hclosed := (h.decisions_closed record hrecord).1.2.2.2.2
  rwa [if_pos hlink.committed] at hclosed

/-- A decided request is one of the ledger. -/
theorem Verified.decided_mem (h : Verified d state) {requestId : String}
    (hmem : requestId ∈ state.decided) :
    ∃ request ∈ state.ledger.requests, request.requestId = requestId := by
  obtain ⟨result, hresult, rfl⟩ := List.mem_map.1 hmem
  obtain ⟨request, hr, hid, -⟩ := h.result_request hresult
  exact ⟨request, hr, hid⟩

/-- Every decision decides a request that no other decides, so there are at most as many. -/
theorem Verified.decisions_le (h : Verified d state) :
    state.decisionRecords.length ≤ state.ledger.requests.length := by
  have hsum : state.decisionRecords.length ≤ state.decided.length := by
    rw [VerifiedApprovalStateV2.decided, List.length_map, List.length_flatMap]
    refine le_trans (by simp) (List.length_le_sum_of_one_le _ fun n hn => ?_)
    obtain ⟨record, hrecord, rfl⟩ := List.mem_map.1 hn
    exact List.length_pos_iff.2 (h.committed hrecord).1.1
  have hsubset : state.decided ⊆ state.ledger.requests.map (·.requestId) :=
    fun _ hmem => List.mem_map.2 (h.decided_mem hmem)
  have hle := (h.decided_nodup.subperm hsubset).length_le
  rw [List.length_map] at hle
  exact hsum.trans hle

end

/-! ## The situation of each request -/

/-- The result of a V2 reissue of a request. -/
def ApprovalReissueResultV2.Supersedes (result : ApprovalReissueResultV2) (requestId : String) : Prop :=
  result.source.sourceKind = .approvalV2 ∧ result.source.sourceRequestId = requestId

instance supersedes_decidable (result : ApprovalReissueResultV2) (requestId : String) :
    Decidable (result.Supersedes requestId) :=
  inferInstanceAs (Decidable (_ ∧ _))

/-- No result decides the request, none supersedes it; or exactly one decides it as its state says,
and none supersedes it; or none decides it, and exactly one supersedes it, by another request. -/
def Situation (ledger : ApprovalLedgerV2) (results : List ApprovalDecisionResultV2)
    (reissued : List ApprovalReissueResultV2) (request : ApprovalRequestV2) : Prop :=
  match request.state with
  | .pending =>
    results.filter (fun result => result.requestId = request.requestId) = [] ∧
      reissued.filter (fun result => result.Supersedes request.requestId) = [] ∧
        request.supersessionReference = none
  | .approved | .rejected =>
    (∃ result, results.filter (fun result => result.requestId = request.requestId) = [result] ∧
        result.decision.state = request.state ∧
        result.actionDigestSha256 = request.actionDigestSha256 ∧
        result.requestRevision = request.requestRevision) ∧
      reissued.filter (fun result => result.Supersedes request.requestId) = [] ∧
        request.supersessionReference = none
  | .superseded =>
    results.filter (fun result => result.requestId = request.requestId) = [] ∧
      ∃ result, reissued.filter (fun result => result.Supersedes request.requestId) = [result] ∧
        request.supersessionReference = some result.successorRequestId ∧
        ∃ successor ∈ ledger.requests, successor.requestId = result.successorRequestId ∧
          successor ≠ request

section

variable {d : Digests} {state : VerifiedApprovalStateV2} {request : ApprovalRequestV2}

/-- Read as one log, the reissues supersede no request twice. -/
theorem Verified.superseded_nodup (h : Verified d state) : state.superseded.Nodup := by
  refine Admitted.nodup_filter
    (p := fun result : ApprovalReissueResultV2 => result.source.sourceKind = .approvalV2) ?_
  refine admitted_flatMap.2 (h.reissue_results.imp fun before record _ hp => ?_)
  have hlength : record.batch.items.length = record.outcome.results.length := by
    simpa using congrArg List.length hp.sources
  rw [← List.map_snd_zip hlength.ge]
  exact admitted_map.2 (hp.results.imp fun _ _ _ hby hkind => (hby.superseded hkind).fresh)

theorem Verified.not_decided_filter (h : Verified d state) (hr : request ∈ state.ledger.requests)
    (hstate : request.state = .pending ∨ request.state = .superseded) :
    state.decisionResults.filter (fun result => result.requestId = request.requestId) = [] := by
  refine List.filter_eq_nil_iff.2 fun result hresult heq => ?_
  have hmem : request.requestId ∈ state.decided := List.mem_map.2 ⟨result, hresult, by simpa using heq⟩
  rcases (h.mem_decided hr).1 hmem with hdecided | hdecided <;> rcases hstate with hs | hs <;>
    rw [hs] at hdecided <;> cases hdecided

theorem Verified.not_superseded_filter (h : Verified d state) (hr : request ∈ state.ledger.requests)
    (hstate : request.state ≠ .superseded) :
    state.reissueResults.filter (fun result => result.Supersedes request.requestId) = [] := by
  refine List.filter_eq_nil_iff.2 fun result hresult heq => hstate ?_
  have hby : result.Supersedes request.requestId := by simpa using heq
  exact (h.mem_superseded hr).1 (mem_supersededIds.2 ⟨result, hresult, hby⟩)

theorem Verified.decided_filter (h : Verified d state) (hr : request ∈ state.ledger.requests)
    (hstate : request.state = .approved ∨ request.state = .rejected) :
    ∃ result, state.decisionResults.filter (fun result => result.requestId = request.requestId) = [result] ∧
      result.decision.state = request.state ∧ result.actionDigestSha256 = request.actionDigestSha256 ∧
        result.requestRevision = request.requestRevision := by
  obtain ⟨result, hresult, hid⟩ := List.mem_map.1 ((h.mem_decided hr).2 hstate)
  obtain ⟨other, hother, hotherId, hdigest, hrevision, hdecision⟩ := h.result_request hresult
  obtain rfl := h.request_unique hother hr (hotherId.trans hid)
  exact ⟨result, hid ▸ filter_key_eq h.decided_nodup hresult, hdecision.symm, hdigest.symm,
    hrevision.symm⟩

theorem Verified.superseded_filter (h : Verified d state) (hr : request ∈ state.ledger.requests)
    (hstate : request.state = .superseded) :
    ∃ result, state.reissueResults.filter (fun result => result.Supersedes request.requestId) = [result] ∧
      request.supersessionReference = some result.successorRequestId ∧
        ∃ successor ∈ state.ledger.requests, successor.requestId = result.successorRequestId ∧
          successor ≠ request := by
  obtain ⟨result, hresult, hkind, hid⟩ := mem_supersededIds.1 ((h.mem_superseded hr).2 hstate)
  obtain ⟨_, _, _, hby⟩ := h.reissued hresult
  obtain ⟨source, hsource, hsourceId, -, hreference, -⟩ := (hby.superseded hkind).source
  obtain rfl := h.request_unique hsource hr (hsourceId.trans hid)
  obtain ⟨successor, hsuccessor, hsuccessorId, -⟩ := hby.successor
  refine ⟨result, ?_, hreference, successor, hsuccessor, hsuccessorId, ?_⟩
  · have hpicked := filter_key_eq h.superseded_nodup
      (List.mem_filter.2 ⟨hresult, by simpa using hkind⟩)
    rw [List.filter_filter] at hpicked
    rw [← hpicked]
    refine List.filter_congr fun other _ => ?_
    rw [Bool.eq_iff_iff]
    simp [ApprovalReissueResultV2.Supersedes, hid, and_comm]
  · rintro rfl
    exact (h.ledger_closed.1 successor hsource).2.2.2.2.2 (hreference.trans (congrArg some hsuccessorId.symm))

/-- Every request of an accepted state is in one situation; decisions and requests are counted. -/
theorem Verified.situation (h : Verified d state) (hr : request ∈ state.ledger.requests) :
    Situation state.ledger state.decisionResults state.reissueResults request := by
  have hreference : request.state ≠ .superseded → request.supersessionReference = none := by
    intro hne
    by_contra hsome
    exact hne ((h.ledger_closed.1 request hr).2.2.2.2.1.2 hsome)
  unfold Situation
  split
  next hstate =>
    exact ⟨h.not_decided_filter hr (.inl hstate), h.not_superseded_filter hr (by simp [hstate]),
      hreference (by simp [hstate])⟩
  next hstate =>
    exact ⟨h.decided_filter hr (.inl hstate), h.not_superseded_filter hr (by simp [hstate]),
      hreference (by simp [hstate])⟩
  next hstate =>
    exact ⟨h.decided_filter hr (.inr hstate), h.not_superseded_filter hr (by simp [hstate]),
      hreference (by simp [hstate])⟩
  next hstate =>
    exact ⟨h.not_decided_filter hr (.inr hstate), h.superseded_filter hr hstate⟩

/-- Whatever the reader accepts, each request is in one situation, there is no decision without a
request of its own, and the revision of the ledger counts both. -/
theorem accepted_situation {ledger : ApprovalLedgerV2} {decisions : List ApprovalDecisionRecordV2}
    {events : List ApprovalDomainAuditEventV2} {reissues : List ApprovalReissueRecordV2}
    (h : readApprovalStateV2 d ledger decisions events reissues = .ok state) :
    (∀ request ∈ ledger.requests,
      Situation ledger (decisions.flatMap (·.outcome.requestResults))
        (reissues.flatMap (·.outcome.results)) request) ∧
      decisions.length ≤ ledger.requests.length ∧
        ledger.ledgerRevision = ledger.requests.length + decisions.length := by
  obtain ⟨rfl, hverified⟩ := readApprovalStateV2_eq_ok.1 h
  exact ⟨fun request hr => hverified.situation hr, hverified.decisions_le, hverified.timeline.revision⟩

theorem sample_situation : (∀ request ∈ [sampleRequest], Situation sampleState.ledger [] [] request) ∧
    0 ≤ 1 ∧ sampleState.ledger.ledgerRevision = 1 + 0 :=
  accepted_situation
    (rfl : readApprovalStateV2 sampleDigests sampleState.ledger [] [] [] = .ok sampleState)

end

/-! ## Going on -/

/-- The same request later on: left alone, or settled while it was pending. -/
structure Continues (request later : ApprovalRequestV2) : Prop where
  same : later.at 0 0 = request.at 0 0
  requestRevision_le : request.requestRevision ≤ later.requestRevision
  ledgerRevision_le : request.ledgerRevision ≤ later.ledgerRevision
  settled : request.state ≠ .pending → later = request

structure Onward (ledger later : ApprovalLedgerV2) : Prop where
  runId : later.runId = ledger.runId
  revision_le : ledger.ledgerRevision ≤ later.ledgerRevision
  requests : ∀ request ∈ ledger.requests, ∃ r ∈ later.requests, Continues request r

section

variable {d : Digests} {request later last : ApprovalRequestV2}

theorem Continues.refl (request : ApprovalRequestV2) : Continues request request :=
  ⟨rfl, le_rfl, le_rfl, fun _ => rfl⟩

theorem Continues.trans (h : Continues request later) (h' : Continues later last) :
    Continues request last := by
  refine ⟨h'.same.trans h.same, h.requestRevision_le.trans h'.requestRevision_le,
    h.ledgerRevision_le.trans h'.ledgerRevision_le, fun hsettled => ?_⟩
  obtain rfl := h.settled hsettled
  exact h'.settled hsettled

theorem Continues.at (h : Continues request later) (requestRevision ledgerRevision : Nat) :
    later.at requestRevision ledgerRevision = request.at requestRevision ledgerRevision :=
  congrArg (fun r => r.at requestRevision ledgerRevision) h.same

theorem Continues.requestId (h : Continues request later) : later.requestId = request.requestId := by
  have hsame := congrArg ApprovalRequestV2.requestId h.same
  exact hsame

theorem Continues.actionDigest (h : Continues request later) :
    later.actionDigestSha256 = request.actionDigestSha256 := by
  have hsame := congrArg ApprovalRequestV2.actionDigestSha256 h.same
  exact hsame

theorem Continues.createdRunRevision (h : Continues request later) :
    later.createdRunRevision = request.createdRunRevision := by
  have hsame := congrArg ApprovalRequestV2.createdRunRevision h.same
  exact hsame

end

section

variable {d : Digests} {ledger later last : ApprovalLedgerV2}

theorem Onward.refl (ledger : ApprovalLedgerV2) : Onward ledger ledger :=
  ⟨rfl, le_rfl, fun request hr => ⟨request, hr, .refl request⟩⟩

theorem Onward.trans (h : Onward ledger later) (h' : Onward later last) : Onward ledger last := by
  refine ⟨h'.runId.trans h.runId, h.revision_le.trans h'.revision_le, fun request hr => ?_⟩
  obtain ⟨next, hnext, hc⟩ := h.requests request hr
  obtain ⟨final, hfinal, hc'⟩ := h'.requests next hnext
  exact ⟨final, hfinal, hc.trans hc'⟩

variable (h : Onward ledger later)
include h

theorem DecisionLink.onward {before : List ApprovalDecisionRecordV2} {record : ApprovalDecisionRecordV2}
    (hlink : DecisionLink ledger before record) : DecisionLink later before record :=
  { hlink with
    runId := hlink.runId.trans h.runId.symm
    bounded := hlink.bounded.trans h.revision_le }

theorem AuditLink.onward {before : List (ApprovalDecisionRecordV2 × ApprovalDomainAuditEventV2)}
    {entry : ApprovalDecisionRecordV2 × ApprovalDomainAuditEventV2}
    (hlink : AuditLink ledger before entry) : AuditLink later before entry :=
  { hlink with runId := hlink.runId.trans h.runId.symm }

/-- A record that ended below the later ledger has nothing to say of its digest. -/
theorem ReissueLink.onward (hlt : ledger.ledgerRevision < later.ledgerRevision)
    {before : List ApprovalReissueRecordV2} {record : ApprovalReissueRecordV2}
    (hlink : ReissueLink d ledger before record) : ReissueLink d later before record :=
  { hlink with
    runId := hlink.runId.trans h.runId.symm
    bounded := hlink.bounded.trans h.revision_le
    terminal := fun heq => absurd (heq ▸ hlink.bounded) (not_le.2 hlt) }

theorem DecidedBy.onward {before : List ApprovalDecisionResultV2} {result : ApprovalDecisionResultV2}
    (hby : DecidedBy ledger before result) : DecidedBy later before result := by
  obtain ⟨hfresh, request, hr, hid, hdigest, hrevision, hstate⟩ := hby
  obtain ⟨next, hnext, hc⟩ := h.requests request hr
  have hsettled : request.state ≠ .pending := by
    rcases result.decision.state_decided with hd | hd <;> rw [hstate, hd] <;> simp
  obtain rfl := hc.settled hsettled
  exact ⟨hfresh, next, hnext, hid, hdigest, hrevision, hstate⟩

variable {front : List ApprovalReissueResultV2} {result : ApprovalReissueResultV2}

theorem SupersededBy.onward (hby : SupersededBy d ledger front result) :
    SupersededBy d later front result := by
  obtain ⟨hfresh, source, hr, hid, hstate, hrest⟩ := hby
  obtain ⟨next, hnext, hc⟩ := h.requests source hr
  obtain rfl := hc.settled (by rw [hstate]; simp)
  exact ⟨hfresh, next, hnext, hid, hstate, hrest⟩

theorem ReissuedBy.onward {projection : List HistoricalApprovalV1SnapshotV2}
    {item : ApprovalReissueItemV2} (hby : ReissuedBy d ledger projection front item result) :
    ReissuedBy d later projection front item result := by
  refine { hby with
    successor := ?_
    historical := fun hkind => ?_
    superseded := fun hkind => (hby.superseded hkind).onward h }
  · obtain ⟨successor, hr, hid, hrevision, hledger, hcreated, hdigest, hhash⟩ := hby.successor
    obtain ⟨next, hnext, hc⟩ := h.requests successor hr
    exact ⟨next, hnext, hc.requestId.trans hid, hrevision.trans hc.requestRevision_le,
      hledger.trans hc.ledgerRevision_le, hc.createdRunRevision.trans hcreated,
      hc.actionDigest.trans hdigest, by rw [hc.at, hhash]⟩
  · obtain ⟨snapshot, hmem, hsnapshot, hrun⟩ := hby.historical hkind
    exact ⟨snapshot, hmem, hsnapshot, hrun.trans h.runId.symm⟩

theorem ReissueProjection.onward {before : List ApprovalReissueRecordV2}
    {record : ApprovalReissueRecordV2} (hp : ReissueProjection d ledger before record) :
    ReissueProjection d later before record :=
  ⟨hp.sources, hp.results.imp fun _ _ _ hby => hby.onward h⟩

end

/-! ## The timeline -/

section

variable {mutations rearranged : List Mutation} {m m' : Mutation}

instance mutationKey_total : Std.Total fun m other : Mutation => m.key ≤ other.key :=
  ⟨fun m other => le_total m.key other.key⟩

instance mutationKey_trans : IsTrans Mutation fun m other => m.key ≤ other.key :=
  ⟨fun _ _ _ => le_trans⟩

theorem mutation_key_injective : Function.Injective Mutation.key := by
  intro m other h
  cases m
  cases other
  simp only [Mutation.key, EmbeddingLike.apply_eq_iff_eq, Prod.mk.injEq] at h
  simp only [Mutation.mk.injEq]
  exact h

/-- A mutation that comes after all others is sorted behind them. -/
theorem sortMutations_concat (hperm : rearranged.Perm (mutations ++ [m]))
    (hle : ∀ other ∈ mutations, other.key ≤ m.key) :
    sortMutations rearranged = sortMutations mutations ++ [m] := by
  refine @List.Perm.eq_of_pairwise _ (fun m other => m.key ≤ other.key) _ _
    (fun x y _ _ hxy hyx => mutation_key_injective (le_antisymm hxy hyx))
    (List.pairwise_insertionSort ..) ?_ ?_
  · rw [List.pairwise_append]
    refine ⟨List.pairwise_insertionSort .., List.pairwise_singleton .., fun x hx y hy => ?_⟩
    rw [List.mem_singleton.1 hy]
    exact hle x ((List.mem_insertionSort _).1 hx)
  · exact ((List.perm_insertionSort ..).trans hperm).trans
      (((List.perm_insertionSort ..).symm).append_right _)

theorem key_le_of_before (h : m.previousRunRevision < m'.previousRunRevision) : m.key ≤ m'.key :=
  Prod.Lex.toLex_le_toLex.2 (.inl h)

end

def VerifiedApprovalStateV2.mutations (state : VerifiedApprovalStateV2) : List Mutation :=
  state.decisionRecords.map (·.mutation) ++ state.reissueRecords.map (·.mutation)

/-- A verified state as it is published with a revision of its run. -/
structure Current (d : Digests) (state : VerifiedApprovalStateV2) (revision : Nat) : Prop
    extends Verified d state where
  pos : 1 ≤ revision
  before : ∀ m ∈ state.mutations, m.previousRunRevision < revision
  last : ∀ m ∈ (ApprovalLedger.timeline state.decisionRecords state.reissueRecords).getLast?,
    m.currentRunRevision = revision

section

variable {d : Digests} {state : VerifiedApprovalStateV2} {revision : Nat} {m : Mutation}
variable {later : ApprovalLedgerV2} {decisions : List ApprovalDecisionRecordV2}
variable {reissues : List ApprovalReissueRecordV2}

theorem Current.timeline_concat (h : Current d state revision)
    (hperm : (decisions.map (·.mutation) ++ reissues.map (·.mutation)).Perm (state.mutations ++ [m]))
    (hm : m.previousRunRevision = revision) :
    timeline decisions reissues = timeline state.decisionRecords state.reissueRecords ++ [m] :=
  sortMutations_concat hperm fun other hother => key_le_of_before (hm ▸ h.before other hother)

theorem mem_timeline : m ∈ timeline decisions reissues ↔
    m ∈ decisions.map (·.mutation) ++ reissues.map (·.mutation) :=
  List.mem_insertionSort _

/-- Along the timeline the clock does not go back. -/
theorem Timeline.clock_pairwise {ledger : ApprovalLedgerV2} (h : Timeline ledger decisions reissues) :
    (timeline decisions reissues).Pairwise fun m other => m.committedAt ≤ other.committedAt :=
  have : IsTrans Mutation fun m other => m.committedAt ≤ other.committedAt := ⟨fun _ _ _ => le_trans⟩
  admitted_getLast.1 (h.steps.imp fun _ _ _ hstep => hstep.clock)

/-- A mutation that starts where the state is and comes after all others extends the timeline. -/
theorem Current.timeline_iff (h : Current d state revision)
    (hperm : (decisions.map (·.mutation) ++ reissues.map (·.mutation)).Perm (state.mutations ++ [m]))
    (hrun : m.previousRunRevision = revision)
    (hledger : m.previousLedgerRevision = state.ledger.ledgerRevision) {count : Nat}
    (hsuccessors : successorCount reissues = successorCount state.reissueRecords + count)
    (hrequests : later.requests.length = state.ledger.requests.length + count)
    (hrevision : later.ledgerRevision = later.requests.length + decisions.length)
    (hcurrent : m.currentLedgerRevision = later.ledgerRevision) :
    Timeline later decisions reissues ↔ ∀ other ∈ state.mutations, other.committedAt ≤ m.committedAt := by
  have hconcat := h.timeline_concat hperm hrun
  have htimeline := h.timeline
  constructor
  · intro hlater other hother
    have hpairs := hlater.clock_pairwise
    rw [hconcat, List.pairwise_append] at hpairs
    exact hpairs.2.2 other (mem_timeline.2 hother) m (List.mem_singleton_self m)
  · intro hclock
    refine ⟨?_, hrevision, ?_, ?_, ?_⟩
    · have hle := htimeline.successors_le
      omega
    · intro first hfirst
      rw [hconcat] at hfirst
      rcases hold : ApprovalLedger.timeline state.decisionRecords state.reissueRecords with _ | ⟨head, tail⟩
      · obtain ⟨hdecisions, hreissues⟩ := timeline_eq_nil.1 hold
        rw [hold] at hfirst
        obtain rfl : m = first := by simpa using hfirst
        have hroot := htimeline.revision
        rw [hdecisions] at hroot
        rw [hreissues] at hsuccessors
        simp only [successorCount, List.map_nil, List.sum_nil, List.length_nil] at hsuccessors hroot
        rw [successorCount]
        omega
      · have hroot := htimeline.root first (by rw [hold] at hfirst ⊢; exact hfirst)
        omega
    · rw [hconcat, admitted_concat]
      refine ⟨htimeline.steps, fun prior hprior => ?_, fun prior hprior => ?_, fun prior hprior => ?_⟩
      · rw [hrun, h.last prior hprior]
      · rw [hledger, htimeline.head prior hprior]
      · exact hclock prior (mem_timeline.1 (List.mem_of_getLast? hprior))
    · rw [hconcat]
      intro last hlast
      obtain rfl : m = last := by simpa using hlast
      exact hcurrent

theorem Current.concat (h : Current d state revision) {next : VerifiedApprovalStateV2}
    (hnext : Verified d next) (hperm : next.mutations.Perm (state.mutations ++ [m]))
    (hrun : m.previousRunRevision = revision) (hcurrent : m.currentRunRevision = revision + 1) :
    Current d next (revision + 1) := by
  refine { toVerified := hnext, pos := Nat.succ_pos _, before := fun other hother => ?_,
           last := fun other hother => ?_ }
  · rcases List.mem_append.1 (hperm.mem_iff.1 hother) with hold | hnew
    · exact (h.before other hold).trans (Nat.lt_succ_self _)
    · rw [List.mem_singleton.1 hnew, hrun]
      exact Nat.lt_succ_self _
  · rw [h.timeline_concat hperm hrun] at hother
    obtain rfl : m = other := by simpa using hother
    exact hcurrent

end

end PokerDeliberation.ApprovalLedger
