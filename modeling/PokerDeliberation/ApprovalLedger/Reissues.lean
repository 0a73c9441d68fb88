import PokerDeliberation.ApprovalLedger.Decisions

/-!
# A reissue goes on from a verified state

What a batch is reissued from, what each round of the loop over its items keeps,
and that the reader accepts what was built. The first reissue of a historical
run goes on from the empty state.
-/

namespace PokerDeliberation.ApprovalLedger

open Lib Approvals

/-- What an item is reissued from: an exact expired pending request, or a pending V1 request. -/
def ReissuedFrom (ledger : ApprovalLedgerV2) (legacyRequests : List ApprovalRequest)
    (reissuedAt : Instant) (item : ApprovalReissueItemV2) : SourceRequest → Prop
  | .approvalV2 request => item.sourceKind = .approvalV2 ∧ request ∈ ledger.requests ∧
      request.requestId = item.sourceRequestId ∧ request.state = .pending ∧
      request.expiresAt ≤ reissuedAt
  | .historicalV1 request => item.sourceKind = .historicalV1 ∧ request ∈ legacyRequests ∧
      request.approvalId = item.sourceRequestId ∧ request.status = .pending

/-- The sources are of one family, and a V1 projection comes before all else. -/
def OneFamily (state : VerifiedApprovalStateV2) (legacyRequests : List ApprovalRequest)
    (batch : ApprovalReissueBatchV2) : Prop :=
  if legacyRequests = [] then ∀ item ∈ batch.items, item.sourceKind = .approvalV2
  else state.reissueRecords = [] ∧ ∀ item ∈ batch.items, item.sourceKind = .historicalV1

/-- What `validate_approval_reissue` establishes of a new batch. -/
structure ReissueAdmitted (state : VerifiedApprovalStateV2) (legacyRequests : List ApprovalRequest)
    (batch : ApprovalReissueBatchV2) (observedRunRevision : Nat) (sources : List SourceRequest) :
    Prop where
  key_fresh : batch.idempotencyKey ∉ state.reissueRecords.map (·.idempotencyKey)
  runId : batch.runId = state.ledger.runId
  runRevision : batch.expectedRunRevision = observedRunRevision
  ledgerRevision : batch.expectedLedgerRevision = state.ledger.ledgerRevision
  id_fresh : batch.reissueId ∉ state.reissueRecords.map (·.reissueId)
  clock : ∀ m ∈ state.mutations, m.committedAt ≤ batch.reissuedAt
  family : OneFamily state legacyRequests batch
  selected : List.Forall₂ (ReissuedFrom state.ledger legacyRequests batch.reissuedAt) batch.items sources
  live : ∀ item ∈ batch.items, batch.reissuedAt < item.successor.actionPlan.expiresAt

/-- The state before the first V2 checkpoint. -/
def emptyState (d : Digests) (runId : String) : VerifiedApprovalStateV2 where
  ledger := emptyApprovalLedgerV2 runId
  decisionRecords := []
  domainAuditEvents := []
  reissueRecords := []
  ledgerSha256 := d.approvalLedgerSha256 (emptyApprovalLedgerV2 runId)

section

variable {d : Digests} {state : Option VerifiedApprovalStateV2} {verified : VerifiedApprovalStateV2}
variable {legacyRequests : List ApprovalRequest} {batch : ApprovalReissueBatchV2}
variable {observedRunRevision : Nat} {sources : List SourceRequest}

theorem emptyState_verified (d : Digests) (runId : String) : Verified d (emptyState d runId) := by
  have hledger : (emptyApprovalLedgerV2 runId).Closed d := by
    simp [ApprovalLedgerV2.Closed, emptyApprovalLedgerV2]
  refine ⟨hledger, ?_, ?_, ?_, rfl, admitted_nil, rfl, rfl, rfl, admitted_nil, rfl, admitted_nil, ?_,
    admitted_nil, admitted_nil, ?_, rfl⟩
  · simp [emptyState]
  · simp [emptyState]
  · simp [emptyState]
  · exact ⟨le_rfl, rfl, by simp [emptyState, timeline, sortMutations],
      by simpa [emptyState, timeline, sortMutations] using admitted_nil,
      by simp [emptyState, timeline, sortMutations]⟩
  · simp [emptyState, emptyApprovalLedgerV2]

theorem Verified.current_of_nil {state : VerifiedApprovalStateV2} (h : Verified d state)
    (hdecisions : state.decisionRecords = []) (hreissues : state.reissueRecords = []) {revision : Nat}
    (hpos : 1 ≤ revision) : Current d state revision :=
  { toVerified := h
    pos := hpos
    before := by simp [VerifiedApprovalStateV2.mutations, hdecisions, hreissues]
    last := by simp [hdecisions, hreissues, ApprovalLedger.timeline, sortMutations] }

/-- The state that is reissued from. -/
def reissuedState (d : Digests) (state : Option VerifiedApprovalStateV2)
    (batch : ApprovalReissueBatchV2) : VerifiedApprovalStateV2 :=
  state.getD (emptyState d batch.runId)

theorem selectSource_eq_ok (hc : verified.ledger.Closed d) {item : ApprovalReissueItemV2}
    {source : SourceRequest} (hkind : item.sourceKind = .approvalV2)
    (h : selectSource d batch observedRunRevision verified item = .ok source) :
    ReissuedFrom verified.ledger legacyRequests batch.reissuedAt item source := by
  simp only [selectSource, given_bind_eq_ok, request_eq_some hc, require_bind_eq_ok, pure_eq_ok] at h
  obtain ⟨request, ⟨hr, hid⟩, ⟨hpending, -, -, hexpired⟩, rfl⟩ := h
  exact ⟨hkind, hr, hid, hpending, hexpired⟩

theorem selectSources_eq_ok (hc : verified.ledger.Closed d)
    (h : selectSources d legacyRequests batch observedRunRevision verified = .ok sources) :
    (∀ m ∈ verified.mutations, m.committedAt ≤ batch.reissuedAt) ∧
      OneFamily verified legacyRequests batch ∧
        List.Forall₂ (ReissuedFrom verified.ledger legacyRequests batch.reissuedAt) batch.items sources := by
  simp only [selectSources, require_bind_eq_ok, mapM_eq_ok] at h
  obtain ⟨⟨hlegacy, hkinds⟩, ⟨hdecisions, hreissues⟩, hselected⟩ := h
  refine ⟨fun m hm => ?_, (if_pos hlegacy).mpr hkinds, ?_⟩
  · rcases List.mem_append.1 hm with hm | hm
    · obtain ⟨record, hrecord, rfl⟩ := List.mem_map.1 hm
      exact hdecisions record hrecord
    · obtain ⟨record, hrecord, rfl⟩ := List.mem_map.1 hm
      exact hreissues record hrecord
  · exact forall₂_of_mem hselected fun item hitem source hsource =>
      selectSource_eq_ok hc (hkinds item hitem) hsource

theorem selectLegacySources_eq_ok
    (h : selectLegacySources d legacyRequests batch observedRunRevision = .ok sources) :
    OneFamily (emptyState d batch.runId) legacyRequests batch ∧
      List.Forall₂ (ReissuedFrom (emptyApprovalLedgerV2 batch.runId) legacyRequests batch.reissuedAt)
        batch.items sources := by
  simp only [selectLegacySources, require_bind_eq_ok, mapM_eq_ok, given_bind_eq_ok, pure_eq_ok] at h
  obtain ⟨hlegacy, hnodup, -, ⟨-, -, -, hkinds⟩, hselected⟩ := h
  refine ⟨(if_neg hlegacy).mpr ⟨rfl, hkinds⟩, forall₂_of_mem hselected ?_⟩
  rintro item hitem source ⟨request, hrequest, rfl⟩
  have hpending : Keyed.Distinct (·.approvalId)
      (legacyRequests.filter fun request => request.status = .pending) :=
    hnodup.sublist (List.filter_sublist.map _)
  obtain ⟨hmem, hid⟩ := (Keyed.dict_eq_some_iff hpending).1 hrequest
  obtain ⟨hr, hstatus⟩ := List.mem_filter.1 hmem
  exact ⟨hkinds item hitem, hr, hid, by simpa using hstatus⟩

/-- A new batch is admitted for a reissue of the state, or of the empty one. -/
theorem validateApprovalReissue_eq_new (hc : ∀ verified ∈ state, verified.ledger.Closed d)
    (h : validateApprovalReissue d state legacyRequests batch observedRunRevision = .ok (.new sources)) :
    ReissueAdmitted (reissuedState d state batch) legacyRequests batch observedRunRevision sources := by
  unfold validateApprovalReissue at h
  split at h
  next replay hreplay =>
    simp only [require_bind_eq_ok, pure_eq_ok, reduceCtorEq, and_false] at h
  next hnone =>
    have hfresh : batch.idempotencyKey ∉ (priorReissues state).map (·.idempotencyKey) := by
      simpa using List.find?_eq_none.1 hnone
    simp only [require_bind_eq_ok, bind_eq_ok (x := reissueSources ..)] at h
    obtain ⟨hrun, ⟨hrevision, hledger⟩, hid, selected, hselected, h⟩ := h
    simp only [check_bind_eq_ok, List.forM_eq_forM, forM_eq_ok, require_eq_ok, pure_eq_ok,
      ApprovalReissueAdmissionV2.new.injEq] at h
    obtain ⟨hlive, rfl⟩ := h
    cases state with
    | none =>
      obtain ⟨hfamily, hsources⟩ := selectLegacySources_eq_ok hselected
      exact ⟨hfresh, rfl, hrevision, hledger, hid, by simp [reissuedState, emptyState,
        VerifiedApprovalStateV2.mutations], hfamily, hsources, hlive⟩
    | some verified =>
      obtain ⟨hclock, hfamily, hsources⟩ := selectSources_eq_ok (hc verified rfl) hselected
      exact ⟨hfresh, hrun verified rfl, hrevision, hledger, hid, hclock, hfamily, hsources, hlive⟩

/-! ## One round -/

/-- The ledger with a request of its next revision. -/
def ApprovalLedgerV2.withRequest (ledger : ApprovalLedgerV2) (request : ApprovalRequestV2) :
    ApprovalLedgerV2 :=
  { ledger with
    ledgerRevision := request.ledgerRevision
    requests := ledger.requests ++ [request] }

/-- A request of the next revision is new, for none in the ledger is of that revision. -/
theorem addApprovalRequestV2_eq_ok {ledger added : ApprovalLedgerV2} {request taken : ApprovalRequestV2}
    {isNew : Bool} (hc : ledger.Closed d) (hnext : ledger.ledgerRevision < request.ledgerRevision)
    (h : addApprovalRequestV2 d ledger request = .ok (added, taken, isNew)) :
    (taken = request ∧ added = ledger.withRequest request) ∧
      request.ledgerRevision = ledger.ledgerRevision + 1 ∧ (ledger.withRequest request).Closed d ∧
        ∀ r ∈ ledger.requests, r.requestId ≠ request.requestId := by
  unfold addApprovalRequestV2 at h
  split at h
  next existing hexisting =>
    have hmem := List.mem_of_find?_eq_some hexisting
    split at h
    · split at h
      next heq => exact absurd (hc.revision_le hmem) (not_le.2 (heq ▸ hnext))
      · cases h
    · cases h
  next hnone =>
    simp only [require_bind_eq_ok, pure_eq_ok, Prod.mk.injEq] at h
    obtain ⟨hrevision, hclosed, rfl, rfl, -⟩ := h
    refine ⟨⟨rfl, rfl⟩, hrevision, hclosed, fun r hr hid => ?_⟩
    have hnot := List.find?_eq_none.1 hnone r hr
    simp [hid] at hnot

variable {projection : List HistoricalApprovalV1SnapshotV2}

/-- A round adds a fresh successor and supersedes the source. -/
structure Round (d : Digests) (batch : ApprovalReissueBatchV2) (observedRunRevision : Nat)
    (projection : List HistoricalApprovalV1SnapshotV2) (ledger : ApprovalLedgerV2)
    (entry : ApprovalReissueItemV2 × SourceRequest) (successor : ApprovalRequestV2)
    (binding : ApprovalReissueSourceBindingV2) : Prop where
  successor_eq : successor = requestOf d batch.runId (observedRunRevision + 1)
    (ledger.ledgerRevision + 1) entry.1.successor batch.reissuedAt
  added_closed : (ledger.withRequest successor).Closed d
  fresh : ∀ r ∈ ledger.requests, r.requestId ≠ successor.requestId
  binding_eq : sourceBinding d projection entry.2 = .ok binding

theorem reissueItem_eq_ok {ledger later : ApprovalLedgerV2}
    {results more : List ApprovalReissueResultV2} {entry : ApprovalReissueItemV2 × SourceRequest}
    (hc : ledger.Closed d)
    (h : reissueItem d batch observedRunRevision projection (ledger, results) entry =
      .ok (later, more)) :
    ∃ successor binding,
      Round d batch observedRunRevision projection ledger entry successor binding ∧
        later = supersede (ledger.withRequest successor) (ledger.ledgerRevision + 1)
          successor.requestId entry.2 ∧
        more = results ++ [reissueResult d binding successor] := by
  simp only [reissueItem, buildApprovalRequestV2, bind_eq_ok, pure_eq_ok] at h
  obtain ⟨drafted, ⟨_, -, rfl⟩, ⟨added, successor, isNew⟩, hadd, binding, hbinding, _, -, heq⟩ := h
  obtain ⟨⟨rfl, rfl⟩, -, hclosed, hfresh⟩ := addApprovalRequestV2_eq_ok hc (Nat.lt_succ_self _) hadd
  obtain ⟨rfl, rfl⟩ := Prod.mk.inj heq
  exact ⟨_, binding, ⟨rfl, hclosed, hfresh, hbinding⟩, rfl, rfl⟩

section

variable {ledger : ApprovalLedgerV2} {updated request prior : ApprovalRequestV2}

theorem mem_replaceRequest : request ∈ (replaceRequest updated ledger).requests ↔
    request ∈ ledger.requests ∧ request.requestId ≠ updated.requestId ∨
      request = updated ∧ ∃ r ∈ ledger.requests, r.requestId = updated.requestId := by
  simp only [replaceRequest, mem_sortRequests, List.mem_map]
  constructor
  · rintro ⟨r, hr, rfl⟩
    by_cases hid : r.requestId = updated.requestId
    · rw [if_pos hid]
      exact .inr ⟨rfl, r, hr, hid⟩
    · rw [if_neg hid]
      exact .inl ⟨hr, hid⟩
  · rintro (⟨hr, hid⟩ | ⟨rfl, r, hr, hid⟩)
    · exact ⟨request, hr, if_neg hid⟩
    · exact ⟨r, hr, if_pos hid⟩

theorem replaceRequest_closed (hc : ledger.Closed d) (hu : updated.Closed d)
    (hle : updated.ledgerRevision ≤ ledger.ledgerRevision)
    (hkey : ∀ r ∈ ledger.requests, r.requestId = updated.requestId →
      r.requestIdempotencyKey = updated.requestIdempotencyKey) :
    (replaceRequest updated ledger).Closed d := by
  have hperm : (replaceRequest updated ledger).requests.Perm
      (ledger.requests.map fun r => if r.requestId = updated.requestId then updated else r) :=
    List.perm_insertionSort ..
  have hids : (replaceRequest updated ledger).requests.map (·.requestId) |>.Perm
      (ledger.requests.map (·.requestId)) := by
    refine (hperm.map _).trans (List.Perm.of_eq ?_)
    rw [List.map_map]
    refine List.map_congr_left fun r hr => ?_
    by_cases hid : r.requestId = updated.requestId <;> simp [hid]
  have hkeys : (replaceRequest updated ledger).requests.map (·.requestIdempotencyKey) |>.Perm
      (ledger.requests.map (·.requestIdempotencyKey)) := by
    refine (hperm.map _).trans (List.Perm.of_eq ?_)
    rw [List.map_map]
    refine List.map_congr_left fun r hr => ?_
    by_cases hid : r.requestId = updated.requestId
    · simp [hid, hkey r hr hid]
    · simp [hid]
  obtain ⟨hrequests, hbounds, hnodup, hnodupKeys, -, hrevision, hzero, hrest⟩ := hc
  have hlength : (replaceRequest updated ledger).requests.length = ledger.requests.length := by
    simpa using hids.length_eq
  refine ⟨fun r hr => ?_, by rw [hlength]; exact hbounds, hids.nodup_iff.2 hnodup,
    hkeys.nodup_iff.2 hnodupKeys, List.pairwise_insertionSort .., fun r hr => ?_, fun h => ?_, hrest⟩
  · rcases mem_replaceRequest.1 hr with ⟨hold, -⟩ | ⟨rfl, -⟩
    · exact hrequests r hold
    · exact hu
  · rcases mem_replaceRequest.1 hr with ⟨hold, -⟩ | ⟨rfl, -⟩
    · exact hrevision r hold
    · exact hle
  · rw [← List.length_eq_zero_iff, hlength, List.length_eq_zero_iff]
    exact hzero h

theorem supersededRequest_closed (hp : prior.Closed d) {ledgerRevision : Nat} {successorId : String}
    (hpos : 1 ≤ ledgerRevision) (hne : prior.requestId ≠ successorId) :
    (supersededRequest ledgerRevision successorId prior).Closed d := by
  obtain ⟨⟨-, -, hcreated⟩, hdigest, hscope, hexpires, -, -⟩ := hp
  exact ⟨⟨Nat.succ_pos _, hpos, hcreated⟩, hdigest, hscope, hexpires, by simp [supersededRequest],
    by simpa [supersededRequest] using hne.symm⟩

/-- A pending request is what it is at its own revisions. -/
theorem at_self (hp : prior.Closed d) (hpending : prior.state = .pending) :
    prior.at prior.requestRevision prior.ledgerRevision = prior := by
  have hnone := hp.no_reference hpending
  cases prior
  simp only at hpending hnone
  simp [ApprovalRequestV2.at, hpending, hnone]

end

/-! ## What a round leaves -/

section

variable {ledger : ApprovalLedgerV2} {entry : ApprovalReissueItemV2 × SourceRequest}
variable {successor request prior : ApprovalRequestV2} {binding : ApprovalReissueSourceBindingV2}

/-- The ledger after a round. -/
def ApprovalLedgerV2.afterRound (ledger : ApprovalLedgerV2) (successor : ApprovalRequestV2)
    (source : SourceRequest) : ApprovalLedgerV2 :=
  supersede (ledger.withRequest successor) (ledger.ledgerRevision + 1) successor.requestId source

/-- The source stands pending in the ledger, if it is a V2 request. -/
def SourceWaits (ledger : ApprovalLedgerV2) : SourceRequest → Prop
  | .approvalV2 prior => prior ∈ ledger.requests ∧ prior.state = .pending
  | .historicalV1 _ => True

@[simp] theorem afterRound_runId (ledger : ApprovalLedgerV2) (successor : ApprovalRequestV2)
    (source : SourceRequest) : (ledger.afterRound successor source).runId = ledger.runId := by
  cases source <;> rfl

theorem afterRound_logs (ledger : ApprovalLedgerV2) (successor : ApprovalRequestV2)
    (source : SourceRequest) :
    (ledger.afterRound successor source).decisionCount = ledger.decisionCount ∧
      (ledger.afterRound successor source).decisionLogHeadSha256 = ledger.decisionLogHeadSha256 ∧
      (ledger.afterRound successor source).domainAuditCount = ledger.domainAuditCount ∧
      (ledger.afterRound successor source).domainAuditLogHeadSha256 = ledger.domainAuditLogHeadSha256 := by
  cases source <;> exact ⟨rfl, rfl, rfl, rfl⟩

@[simp] theorem afterRound_revision (ledger : ApprovalLedgerV2) (successor : ApprovalRequestV2)
    (source : SourceRequest) :
    (ledger.afterRound successor source).ledgerRevision = successor.ledgerRevision := by
  cases source <;> rfl

@[simp] theorem afterRound_length (ledger : ApprovalLedgerV2) (successor : ApprovalRequestV2)
    (source : SourceRequest) :
    (ledger.afterRound successor source).requests.length = ledger.requests.length + 1 := by
  cases source <;>
    simp [ApprovalLedgerV2.afterRound, supersede, replaceRequest, ApprovalLedgerV2.withRequest]

theorem successor_mem_withRequest (ledger : ApprovalLedgerV2) (successor : ApprovalRequestV2) :
    successor ∈ (ledger.withRequest successor).requests :=
  List.mem_append_right _ (List.mem_singleton_self _)

theorem superseded_mem_afterRound {source : SourceRequest} (hsource : source = .approvalV2 prior)
    (hp : prior ∈ ledger.requests) :
    supersededRequest (ledger.ledgerRevision + 1) successor.requestId prior ∈
      (ledger.afterRound successor source).requests := by
  rw [hsource]
  exact mem_replaceRequest.2 (.inr ⟨rfl, prior, List.mem_append_left _ hp, rfl⟩)

variable (hr : Round d batch observedRunRevision projection ledger entry successor binding)
include hr

theorem Round.successor_revision : successor.ledgerRevision = ledger.ledgerRevision + 1 := by
  rw [hr.successor_eq]
  rfl

theorem Round.successor_pending : successor.state = .pending := by
  rw [hr.successor_eq]
  rfl

theorem Round.unique (hp : prior ∈ ledger.requests)
    (hrequest : request ∈ (ledger.withRequest successor).requests)
    (hid : request.requestId = prior.requestId) : request = prior :=
  hr.added_closed.nodup.eq hrequest (List.mem_append_left _ hp) hid

theorem Round.closed (hwaits : SourceWaits ledger entry.2) :
    (ledger.afterRound successor entry.2).Closed d := by
  rcases entry with ⟨item, prior | legacy⟩
  · obtain ⟨hp, -⟩ := hwaits
    refine replaceRequest_closed hr.added_closed
      (supersededRequest_closed (hr.added_closed.1 prior (List.mem_append_left _ hp)) (Nat.succ_pos _)
        (hr.fresh prior hp)) hr.successor_revision.ge fun r hmem hid => ?_
    rw [hr.unique hp hmem hid]
    rfl
  · exact hr.added_closed

theorem Round.successor_mem (hwaits : SourceWaits ledger entry.2) :
    successor ∈ (ledger.afterRound successor entry.2).requests := by
  rcases entry with ⟨item, prior | legacy⟩
  · exact mem_replaceRequest.2 (.inl ⟨successor_mem_withRequest ledger successor, (hr.fresh prior hwaits.1).symm⟩)
  · exact successor_mem_withRequest ledger successor

/-- A request of the ledger after a round is the successor, one that was there, or the source. -/
theorem Round.mem_cases (hmem : request ∈ (ledger.afterRound successor entry.2).requests) :
    request = successor ∨
      (request ∈ ledger.requests ∧ ∀ prior, entry.2 = .approvalV2 prior →
        request.requestId ≠ prior.requestId) ∨
      ∃ prior, entry.2 = .approvalV2 prior ∧
        request = supersededRequest (ledger.ledgerRevision + 1) successor.requestId prior := by
  rcases entry with ⟨item, prior | legacy⟩
  · rcases mem_replaceRequest.1 hmem with ⟨hold, hne⟩ | ⟨rfl, -⟩
    · rcases List.mem_append.1 hold with hold | hnew
      · refine .inr (.inl ⟨hold, fun p hp => ?_⟩)
        obtain rfl := SourceRequest.approvalV2.inj hp
        exact hne
      · exact .inl (List.mem_singleton.1 hnew)
    · exact .inr (.inr ⟨prior, rfl, rfl⟩)
  · rcases List.mem_append.1 hmem with hold | hnew
    · exact .inr (.inl ⟨hold, fun p hp => by cases hp⟩)
    · exact .inl (List.mem_singleton.1 hnew)

/-- All but the source stay as they are. -/
theorem Round.mem_of_ne (hmem : request ∈ ledger.requests)
    (hne : ∀ prior, entry.2 = .approvalV2 prior → request.requestId ≠ prior.requestId) :
    request ∈ (ledger.afterRound successor entry.2).requests := by
  have hadded : request ∈ (ledger.withRequest successor).requests := List.mem_append_left _ hmem
  rcases entry with ⟨item, prior | legacy⟩
  · exact mem_replaceRequest.2 (.inl ⟨hadded, hne prior rfl⟩)
  · exact hadded

theorem Round.onward (hc : ledger.Closed d) (hwaits : SourceWaits ledger entry.2) :
    Onward ledger (ledger.afterRound successor entry.2) := by
  refine ⟨afterRound_runId .., ?_, fun request hmem => ?_⟩
  · rw [afterRound_revision, hr.successor_revision]
    exact Nat.le_succ _
  · by_cases hsource : ∃ prior, entry.2 = .approvalV2 prior ∧ request.requestId = prior.requestId
    · obtain ⟨prior, hprior, hid⟩ := hsource
      rw [hprior] at hwaits
      obtain rfl := hc.nodup.eq hmem hwaits.1 hid
      exact ⟨_, superseded_mem_afterRound hprior hmem, rfl, Nat.le_succ _,
        (hc.revision_le hmem).trans (Nat.le_succ _), fun hne => absurd hwaits.2 hne⟩
    · simp only [not_exists, not_and] at hsource
      exact ⟨request, hr.mem_of_ne hmem hsource, .refl request⟩

/-- The result of a round is as the reader will find it. -/
theorem Round.reissuedBy (hc : ledger.Closed d) {state : VerifiedApprovalStateV2}
    (hfrom : ReissuedFrom state.ledger legacyRequests batch.reissuedAt entry.1 entry.2)
    (hwaits : SourceWaits ledger entry.2)
    (hprojection : ∀ snapshot ∈ projection, snapshot.binding.runId = ledger.runId)
    {before : List ApprovalReissueResultV2}
    (hsuccessors : ∀ result ∈ before, ∃ r ∈ ledger.requests, r.requestId = result.successorRequestId)
    (hfresh : entry.1.sourceKind = .approvalV2 → entry.1.sourceRequestId ∉ supersededIds before) :
    ReissuedBy d (ledger.afterRound successor entry.2) projection before entry.1
      (reissueResult d binding successor) := by
  have hsuccessor : (reissueResult d binding successor).successorRequestId ∉
      before.map (·.successorRequestId) := by
    intro hmem
    obtain ⟨result, hresult, hid⟩ := List.mem_map.1 hmem
    obtain ⟨r, hmem, hrid⟩ := hsuccessors result hresult
    exact hr.fresh r hmem (hrid.trans hid)
  have hself : successor.at successor.requestRevision successor.ledgerRevision = successor :=
    at_self (hr.added_closed.1 _ (successor_mem_withRequest ledger successor)) hr.successor_pending
  have hcreated : ∃ s ∈ (ledger.afterRound successor entry.2).requests,
      s.requestId = successor.requestId ∧ successor.requestRevision ≤ s.requestRevision ∧
        successor.ledgerRevision ≤ s.ledgerRevision ∧
        s.createdRunRevision = successor.createdRunRevision ∧
        s.actionDigestSha256 = successor.actionDigestSha256 ∧
        d.approvalRequestSha256 (s.at successor.requestRevision successor.ledgerRevision) =
          d.approvalRequestSha256 successor :=
    ⟨successor, hr.successor_mem hwaits, rfl, le_rfl, le_rfl, rfl, rfl, by rw [hself]⟩
  have hbinding := hr.binding_eq
  rcases hentry : entry.2 with prior | legacy
  · rw [hentry] at hfrom hwaits hbinding
    obtain ⟨hkind, -, hid, -, -⟩ := hfrom
    obtain rfl := Except.ok.inj hbinding
    refine ⟨hkind, hid.symm, hsuccessor, hentry ▸ hcreated, (fun h => by cases h), fun _ => ?_⟩
    refine ⟨hid ▸ hfresh hkind, _, superseded_mem_afterRound rfl hwaits.1, rfl, rfl, rfl, rfl, _, _, rfl,
      rfl, rfl, ?_⟩
    exact congrArg _ (at_self (hc.1 prior hwaits.1) hwaits.2)
  · rw [hentry] at hfrom hbinding
    obtain ⟨hkind, -, hid, -⟩ := hfrom
    simp only [sourceBinding, given_bind_eq_ok, pure_eq_ok] at hbinding
    obtain ⟨snapshot, hsnapshot, rfl⟩ := hbinding
    have hmem := List.mem_of_find?_eq_some hsnapshot
    refine ⟨hkind, hid.symm, hsuccessor, hentry ▸ hcreated, fun _ => ?_, fun h => by cases h⟩
    exact ⟨snapshot, hmem, rfl, (hprojection snapshot hmem).trans (afterRound_runId ..).symm⟩

end

/-! ## The loop -/

/-- The one ledger is the other after some round. -/
def RoundStep (d : Digests) (ledger later : ApprovalLedgerV2) : Prop :=
  ∃ batch observedRunRevision projection entry successor binding,
    ledger.Closed d ∧ SourceWaits ledger entry.2 ∧
      Round d batch observedRunRevision projection ledger entry successor binding ∧
        later = ledger.afterRound successor entry.2

/-- What has been built from a state for the first entries of a batch. -/
structure Reissuing (d : Digests) (state : VerifiedApprovalStateV2)
    (projection : List HistoricalApprovalV1SnapshotV2)
    (entries : List (ApprovalReissueItemV2 × SourceRequest)) (ledger : ApprovalLedgerV2)
    (results : List ApprovalReissueResultV2) : Prop where
  closed : ledger.Closed d
  logs : ledger.decisionCount = state.ledger.decisionCount ∧
    ledger.decisionLogHeadSha256 = state.ledger.decisionLogHeadSha256 ∧
    ledger.domainAuditCount = state.ledger.domainAuditCount ∧
    ledger.domainAuditLogHeadSha256 = state.ledger.domainAuditLogHeadSha256
  revision : ledger.ledgerRevision = state.ledger.ledgerRevision + entries.length
  length : ledger.requests.length = state.ledger.requests.length + entries.length
  onward : Onward state.ledger ledger
  rounds : Relation.ReflTransGen (RoundStep d) state.ledger ledger
  untouched : ∀ request ∈ state.ledger.requests,
    request.requestId ∉ entries.map (·.1.sourceRequestId) → request ∈ ledger.requests
  sources : results.map (·.source.sourceRequestId) = entries.map (·.1.sourceRequestId)
  reissued : Admitted (fun front entry => ReissuedBy d ledger projection
    (state.reissueResults ++ front.map (·.2)) entry.1 entry.2) ((entries.map (·.1)).zip results)
  successors : ∀ result ∈ state.reissueResults ++ results,
    ∃ request ∈ ledger.requests, request.requestId = result.successorRequestId
  supported : ∀ request ∈ ledger.requests,
    Supported state.decided (supersededIds (state.reissueResults ++ results)) request

section

variable {state : VerifiedApprovalStateV2} {entries : List (ApprovalReissueItemV2 × SourceRequest)}
variable {ledger : ApprovalLedgerV2} {results : List ApprovalReissueResultV2}

theorem Verified.reissuing (h : Verified d state) : Reissuing d state projection [] state.ledger [] where
  closed := h.ledger_closed
  logs := ⟨rfl, rfl, rfl, rfl⟩
  revision := rfl
  length := rfl
  onward := .refl _
  rounds := .refl
  untouched _ hr _ := hr
  sources := rfl
  reissued := admitted_nil
  successors result hresult := by
    rw [List.append_nil] at hresult
    obtain ⟨_, _, _, hby⟩ := h.reissued hresult
    obtain ⟨successor, hr, hid, -⟩ := hby.successor
    exact ⟨successor, hr, hid⟩
  supported request hr := by
    rw [List.append_nil]
    exact h.supported request hr

theorem Supported.congr {results replaced replaced' : List String} {request : ApprovalRequestV2}
    (h : Supported results replaced request)
    (hiff : request.requestId ∈ replaced' ↔ request.requestId ∈ replaced) :
    Supported results replaced' request :=
  ⟨h.decided, h.pending, fun hstate => hiff.2 (h.superseded hstate),
    fun hboth => h.not_both ⟨hboth.1, hiff.1 hboth.2⟩⟩

theorem Reissuing.waits (h : Reissuing d state projection entries ledger results)
    {entry : ApprovalReissueItemV2 × SourceRequest}
    (hfrom : ReissuedFrom state.ledger legacyRequests batch.reissuedAt entry.1 entry.2)
    (hnew : entry.1.sourceRequestId ∉ entries.map (·.1.sourceRequestId)) :
    SourceWaits ledger entry.2 := by
  rcases hentry : entry.2 with prior | legacy
  · rw [hentry] at hfrom
    obtain ⟨-, hp, hid, hpending, -⟩ := hfrom
    exact ⟨h.untouched prior hp (hid ▸ hnew), hpending⟩
  · trivial

/-- What the logs say after a round of each request it leaves. -/
theorem Reissuing.round_supported (h : Reissuing d state projection entries ledger results)
    (hv : Verified d state) {entry : ApprovalReissueItemV2 × SourceRequest}
    {successor : ApprovalRequestV2} {binding : ApprovalReissueSourceBindingV2}
    (hr : Round d batch observedRunRevision projection ledger entry successor binding)
    (hfrom : ReissuedFrom state.ledger legacyRequests batch.reissuedAt entry.1 entry.2)
    {request : ApprovalRequestV2}
    (hmem : request ∈ (ledger.afterRound successor entry.2).requests) :
    Supported state.decided (supersededIds (state.reissueResults ++
      (results ++ [reissueResult d binding successor]))) request := by
  rw [← List.append_assoc, supersededIds_append]
  have hdecided : successor.requestId ∉ state.decided := by
    intro hdecided
    obtain ⟨r, hmem, hid⟩ := hv.decided_mem hdecided
    obtain ⟨next, hnext, hc⟩ := h.onward.requests r hmem
    exact hr.fresh next hnext (hc.requestId.trans hid)
  have hbinding := hr.binding_eq
  rcases hr.mem_cases hmem with rfl | ⟨hold, hne⟩ | ⟨prior, hprior, rfl⟩
  · have hpending := hr.successor_pending
    exact ⟨fun hstate => by simp [hpending] at hstate, fun _ => hdecided,
      fun hstate => by simp [hpending] at hstate, fun hboth => hdecided hboth.1⟩
  · refine (h.supported request hold).congr ?_
    rw [List.mem_append, or_iff_left]
    intro hsuperseded
    obtain ⟨result, hresult, hkind, hid⟩ := mem_supersededIds.1 hsuperseded
    obtain rfl := List.mem_singleton.1 hresult
    rcases hentry : entry.2 with prior | legacy
    · rw [hentry] at hbinding
      obtain rfl := Except.ok.inj hbinding
      exact hne prior hentry hid.symm
    · rw [hentry] at hbinding
      simp only [sourceBinding, given_bind_eq_ok, pure_eq_ok] at hbinding
      obtain ⟨snapshot, -, rfl⟩ := hbinding
      cases hkind
  · rw [hprior] at hfrom hbinding
    obtain ⟨-, hp, -, hpending, -⟩ := hfrom
    obtain rfl := Except.ok.inj hbinding
    refine ⟨fun hstate => ?_, fun hstate => ?_, fun _ => ?_, fun hboth =>
      hv.not_mem_decided hp hpending hboth.1⟩
    · rcases hstate with hstate | hstate <;> cases hstate
    · cases hstate
    · exact List.mem_append_right _ (mem_supersededIds.2 ⟨_, List.mem_singleton_self _, rfl, rfl⟩)

theorem binding_sourceRequestId {binding : ApprovalReissueSourceBindingV2}
    {item : ApprovalReissueItemV2} {source : SourceRequest}
    (hbinding : sourceBinding d projection source = .ok binding)
    (hfrom : ReissuedFrom ledger legacyRequests batch.reissuedAt item source) :
    binding.sourceRequestId = item.sourceRequestId := by
  rcases source with prior | legacy
  · obtain rfl := Except.ok.inj hbinding
    exact hfrom.2.2.1
  · simp only [sourceBinding, given_bind_eq_ok, pure_eq_ok] at hbinding
    obtain ⟨snapshot, -, rfl⟩ := hbinding
    exact hfrom.2.2.1

/-- A round extends what has been built by its entry. -/
theorem Reissuing.round (h : Reissuing d state projection entries ledger results)
    (hv : Verified d state) {entry : ApprovalReissueItemV2 × SourceRequest}
    {successor : ApprovalRequestV2} {binding : ApprovalReissueSourceBindingV2}
    (hr : Round d batch observedRunRevision projection ledger entry successor binding)
    (hfrom : ReissuedFrom state.ledger legacyRequests batch.reissuedAt entry.1 entry.2)
    (hnew : entry.1.sourceRequestId ∉ entries.map (·.1.sourceRequestId))
    (hprojection : ∀ snapshot ∈ projection, snapshot.binding.runId = state.ledger.runId) :
    Reissuing d state projection (entries ++ [entry]) (ledger.afterRound successor entry.2)
      (results ++ [reissueResult d binding successor]) := by
  have hwaits := h.waits hfrom hnew
  have honward := hr.onward h.closed hwaits
  have hlengths : (entries.map (·.1)).length = results.length := by
    simpa using (congrArg List.length h.sources).symm
  have hid := binding_sourceRequestId hr.binding_eq hfrom
  have hold : ∀ result ∈ state.reissueResults ++ results,
      ∃ r ∈ (ledger.afterRound successor entry.2).requests,
        r.requestId = result.successorRequestId := by
    intro result hresult
    obtain ⟨r, hmem, hrid⟩ := h.successors result hresult
    obtain ⟨next, hnext, hc⟩ := honward.requests r hmem
    exact ⟨next, hnext, hc.requestId.trans hrid⟩
  refine ⟨hr.closed hwaits, ?_, ?_, ?_, h.onward.trans honward,
    h.rounds.tail ⟨_, _, _, _, _, _, h.closed, hwaits, hr, rfl⟩, ?_, ?_, ?_, ?_, fun request hmem =>
    h.round_supported hv hr hfrom hmem⟩
  · obtain ⟨hcount, hhead, haudit, hauditHead⟩ := afterRound_logs ledger successor entry.2
    rw [hcount, hhead, haudit, hauditHead]
    exact h.logs
  · rw [afterRound_revision, hr.successor_revision, h.revision, List.length_append,
      List.length_singleton, Nat.add_assoc]
  · rw [afterRound_length, h.length, List.length_append, List.length_singleton, Nat.add_assoc]
  · intro request hmem hnot
    rw [List.map_append, List.mem_append, not_or] at hnot
    refine hr.mem_of_ne (h.untouched request hmem hnot.1) fun prior hprior hsame => hnot.2 ?_
    rw [hprior] at hfrom
    exact List.mem_singleton.2 (hsame.trans hfrom.2.2.1)
  · rw [List.map_append, List.map_append, h.sources]
    exact congrArg _ (congrArg (fun i => [i]) hid)
  · rw [List.map_append, List.zip_append hlengths]
    refine admitted_concat.2 ⟨h.reissued.imp fun _ _ _ hby => hby.onward honward, ?_⟩
    rw [List.map_snd_zip hlengths.ge]
    refine hr.reissuedBy h.closed hfrom hwaits (fun snapshot hs => (hprojection snapshot hs).trans
      h.onward.runId.symm) h.successors fun hkind hsuperseded => ?_
    rw [supersededIds_append, List.mem_append] at hsuperseded
    rcases hsuperseded with hsuperseded | hsuperseded
    · rcases hentry : entry.2 with prior | legacy <;> rw [hentry] at hfrom
      · obtain ⟨-, hp, hpid, hpending, -⟩ := hfrom
        exact hv.not_mem_superseded hp hpending (hpid ▸ hsuperseded)
      · cases hkind.symm.trans hfrom.1
    · obtain ⟨result, hresult, -, hrid⟩ := mem_supersededIds.1 hsuperseded
      exact hnew (h.sources ▸ hrid ▸ List.mem_map_of_mem hresult)
  · intro result hresult
    rw [← List.append_assoc] at hresult
    rcases List.mem_append.1 hresult with hresult | hresult
    · exact hold result hresult
    · obtain rfl := List.mem_singleton.1 hresult
      exact ⟨successor, hr.successor_mem hwaits, rfl⟩

/-- The whole loop, over entries whose sources are those of the batch. -/
theorem Reissuing.run (h : Reissuing d state projection entries ledger results)
    (hv : Verified d state) (hprojection : ∀ snapshot ∈ projection, snapshot.binding.runId = state.ledger.runId)
    {more : List (ApprovalReissueItemV2 × SourceRequest)} {later : ApprovalLedgerV2}
    {built : List ApprovalReissueResultV2}
    (hfrom : ∀ entry ∈ more, ReissuedFrom state.ledger legacyRequests batch.reissuedAt entry.1 entry.2)
    (hdistinct : ((entries ++ more).map (·.1.sourceRequestId)).Nodup)
    (hrun : more.foldlM (reissueItem d batch observedRunRevision projection) (ledger, results) =
      .ok (later, built)) :
    Reissuing d state projection (entries ++ more) later built := by
  induction more generalizing entries ledger results with
  | nil =>
    obtain ⟨rfl, rfl⟩ : ledger = later ∧ results = built := by simpa using hrun
    rwa [List.append_nil]
  | cons entry more ih =>
    rw [List.foldlM_cons, bind_eq_ok] at hrun
    obtain ⟨⟨next, extended⟩, hround, hrun⟩ := hrun
    obtain ⟨hentry, hmore⟩ := List.forall_mem_cons.1 hfrom
    have hnew : entry.1.sourceRequestId ∉ entries.map (·.1.sourceRequestId) := by
      rw [List.map_append, List.map_cons] at hdistinct
      exact fun hmem => (List.disjoint_of_nodup_append hdistinct) hmem List.mem_cons_self
    obtain ⟨successor, binding, hr, rfl, rfl⟩ := reissueItem_eq_ok h.closed hround
    have hstep := h.round hv hr hentry hnew hprojection
    rw [List.append_cons]
    exact ih hstep hmore (by rwa [List.append_cons] at hdistinct) hrun

end

/-! ## The state that follows -/

theorem mem_legacyProjectionOf {runId : String} {snapshot : HistoricalApprovalV1SnapshotV2}
    (h : snapshot ∈ legacyProjectionOf d legacyRequests runId) : snapshot.binding.runId = runId := by
  obtain ⟨request, -, rfl⟩ := List.mem_map.1 ((List.mem_insertionSort _).1 h)
  rfl

theorem legacyProjectionOf_eq_nil {runId : String} :
    legacyProjectionOf d legacyRequests runId = [] ↔ legacyRequests = [] := by
  rw [legacyProjectionOf, ← List.length_eq_zero_iff, List.length_insertionSort, List.length_map,
    List.length_eq_zero_iff]

theorem sortReissueResults_eq {results : List ApprovalReissueResultV2}
    (h : results.map (·.source.sourceRequestId) = batch.items.map (·.sourceRequestId)) :
    sortReissueResults results = results := by
  refine List.Pairwise.insertionSort_eq (List.pairwise_map.1 ?_)
  rw [h]
  exact List.pairwise_map.2 (batch.canonical_item_order.imp le_of_lt)

theorem reissuedState_records :
    (reissuedState d state batch).reissueRecords = priorReissues state ∧
      (reissuedState d state batch).decisionRecords = (state.map (·.decisionRecords)).getD [] ∧
        (reissuedState d state batch).domainAuditEvents = (state.map (·.domainAuditEvents)).getD [] ∧
          (reissuedState d state batch).ledger = priorLedger state batch := by
  cases state <;> exact ⟨rfl, rfl, rfl, rfl⟩

theorem zip_sourceRequestIds {items : List ApprovalReissueItemV2} (h : items.length = sources.length) :
    (items.zip sources).map (·.1.sourceRequestId) = items.map (·.sourceRequestId) := by
  have hfst : (items.zip sources).map (·.1) = items := List.map_fst_zip h.le
  calc (items.zip sources).map (·.1.sourceRequestId)
      = ((items.zip sources).map (·.1)).map (·.sourceRequestId) := List.map_map.symm
    _ = items.map (·.sourceRequestId) := by rw [hfst]

/-- What the loop has built when it ends. -/
theorem ReissueAdmitted.built {revision : Nat} {ledger : ApprovalLedgerV2}
    {results : List ApprovalReissueResultV2} {prior : VerifiedApprovalStateV2} (hv : Verified d prior)
    (hadm : ReissueAdmitted prior legacyRequests batch revision sources)
    (hrun : (batch.items.zip sources).foldlM
      (reissueItem d batch revision (legacyProjectionOf d legacyRequests batch.runId)) (prior.ledger, []) =
        .ok (ledger, results)) :
    Reissuing d prior (legacyProjectionOf d legacyRequests batch.runId) (batch.items.zip sources) ledger
      results := by
  have hfrom : ∀ entry ∈ batch.items.zip sources,
      ReissuedFrom prior.ledger legacyRequests batch.reissuedAt entry.1 entry.2 :=
    fun entry hentry => List.forall₂_zip hadm.selected hentry
  have hdistinct : (([] ++ batch.items.zip sources).map
      fun entry : ApprovalReissueItemV2 × SourceRequest => entry.1.sourceRequestId).Nodup := by
    rw [List.nil_append, zip_sourceRequestIds hadm.selected.length_eq]
    exact List.pairwise_map.2 (batch.canonical_item_order.imp fun hlt => ne_of_lt hlt)
  exact hv.reissuing.run hv (fun snapshot hs => (mem_legacyProjectionOf hs).trans hadm.runId) hfrom
    hdistinct hrun

/-- The approval state of an update. -/
def ApprovalReissueUpdateV2.next (d : Digests) (update : ApprovalReissueUpdateV2) :
    VerifiedApprovalStateV2 where
  ledger := update.ledger
  decisionRecords := update.decisionRecords
  domainAuditEvents := update.domainAuditEvents
  reissueRecords := update.reissueRecords
  ledgerSha256 := d.approvalLedgerSha256 update.ledger

/-- An update that was built, with the requests it was built for. -/
structure ReissueBuilt (d : Digests) (prior : VerifiedApprovalStateV2)
    (legacyRequests : List ApprovalRequest) (batch : ApprovalReissueBatchV2) (revision : Nat)
    (sources : List SourceRequest) (update : ApprovalReissueUpdateV2) : Prop where
  loop : Reissuing d prior (legacyProjectionOf d legacyRequests batch.runId)
    (batch.items.zip sources) update.ledger update.outcome.results
  decisionRecords : update.decisionRecords = prior.decisionRecords
  domainAuditEvents : update.domainAuditEvents = prior.domainAuditEvents
  reissueRecords : update.reissueRecords = prior.reissueRecords ++ [update.record]
  record_closed : update.record.Closed d
  record_log : update.record.sequence = prior.reissueRecords.length + 1 ∧
    update.record.previousRecordSha256 = prior.reissueRecords.getLast?.map (·.recordSha256)
  record_batch : update.record.batch = batch ∧
    update.record.legacyProjection = legacyProjectionOf d legacyRequests batch.runId ∧
    update.record.currentLedgerSha256 = d.approvalLedgerSha256 update.ledger
  record_outcome : update.record.outcome = update.outcome
  remaining : update.outcome.remainingPendingCount = pendingCount update.ledger.requests
  record_mutation : update.record.mutation = ⟨revision, revision + 1, prior.ledger.ledgerRevision,
    update.ledger.ledgerRevision, batch.reissuedAt⟩

theorem buildApprovalReissueUpdate_eq_ok {revision : Nat} {update : ApprovalReissueUpdateV2}
    {previousManifestSha256 previousPointerSha256 : Sha256}
    (hv : Verified d (reissuedState d state batch))
    (hadm : ReissueAdmitted (reissuedState d state batch) legacyRequests batch revision sources)
    (h : buildApprovalReissueUpdate d state legacyRequests batch revision previousManifestSha256
      previousPointerSha256 sources = .ok update) :
    ReissueBuilt d (reissuedState d state batch) legacyRequests batch revision sources update := by
  obtain ⟨hreissues, hdecisions, hevents, hledger⟩ :=
    @reissuedState_records d state batch
  simp only [buildApprovalReissueUpdate, require_bind_eq_ok, bind_eq_ok (x := List.foldlM ..),
    pure_eq_ok] at h
  obtain ⟨-, ⟨ledger, results⟩, hrun, -, -, hclosed, rfl⟩ := h
  have hbuilt := hadm.built hv (hledger ▸ hrun)
  have hsources := hbuilt.sources
  rw [zip_sourceRequestIds hadm.selected.length_eq] at hsources
  have hsorted := sortReissueResults_eq hsources
  exact
    { loop := by
        change Reissuing d _ _ _ ledger (sortReissueResults results)
        rw [hsorted]
        exact hbuilt
      decisionRecords := hdecisions.symm
      domainAuditEvents := hevents.symm
      reissueRecords := by rw [hreissues]
      record_closed := hclosed
      record_log := by
        rw [hreissues]
        exact ⟨rfl, rfl⟩
      record_batch := ⟨rfl, rfl, rfl⟩
      record_outcome := rfl
      remaining := rfl
      record_mutation := by
        rw [hledger]
        rfl }

/-! ### The reader -/

section

variable {prior : VerifiedApprovalStateV2} {revision : Nat} {update : ApprovalReissueUpdateV2}
variable (hbuilt : ReissueBuilt d prior legacyRequests batch revision sources update)
include hbuilt

theorem ReissueBuilt.sources_eq (hadm : ReissueAdmitted prior legacyRequests batch revision sources) :
    update.outcome.results.map (·.source.sourceRequestId) = batch.items.map (·.sourceRequestId) :=
  hbuilt.loop.sources.trans (zip_sourceRequestIds hadm.selected.length_eq)

theorem ReissueBuilt.results_length (hadm : ReissueAdmitted prior legacyRequests batch revision sources) :
    update.outcome.results.length = (batch.items.zip sources).length := by
  have hlength := congrArg List.length (hbuilt.sources_eq hadm)
  simpa [hadm.selected.length_eq] using hlength

theorem ReissueBuilt.ledger_lt (hadm : ReissueAdmitted prior legacyRequests batch revision sources) :
    prior.ledger.ledgerRevision < update.ledger.ledgerRevision := by
  have hpos : 0 < batch.items.length := List.length_pos_iff.2 batch.min_length
  have hlength := hadm.selected.length_eq
  rw [hbuilt.loop.revision, List.length_zip]
  omega

/-- The next state is the prior one with another ledger and one more record. -/
theorem ReissueBuilt.next_eq : update.next d =
    { prior with
      ledger := update.ledger
      reissueRecords := prior.reissueRecords ++ [update.record]
      ledgerSha256 := d.approvalLedgerSha256 update.ledger } := by
  rw [ApprovalReissueUpdateV2.next, hbuilt.decisionRecords, hbuilt.domainAuditEvents,
    hbuilt.reissueRecords]

theorem ReissueBuilt.mutations_perm :
    (update.next d).mutations.Perm (prior.mutations ++ [update.record.mutation]) := by
  rw [hbuilt.next_eq, VerifiedApprovalStateV2.mutations, List.map_append, ← List.append_assoc]
  exact .refl _

theorem ReissueBuilt.timeline (h : Current d prior revision)
    (hadm : ReissueAdmitted prior legacyRequests batch revision sources) :
    Timeline update.ledger prior.decisionRecords (prior.reissueRecords ++ [update.record]) := by
  have hmutation := hbuilt.record_mutation
  have hperm := hbuilt.mutations_perm
  rw [hbuilt.next_eq] at hperm
  have hsuccessors : successorCount (prior.reissueRecords ++ [update.record]) =
      successorCount prior.reissueRecords + (batch.items.zip sources).length := by
    simp only [successorCount, List.map_append, List.sum_append, List.map_singleton, List.sum_singleton]
    rw [hbuilt.record_outcome, hbuilt.results_length hadm]
  have hrevision := h.timeline.revision
  have hnext := hbuilt.loop.revision
  have hlength := hbuilt.loop.length
  have hcount : update.ledger.ledgerRevision =
      update.ledger.requests.length + prior.decisionRecords.length := by omega
  refine (h.timeline_iff hperm (by rw [hmutation]) (by rw [hmutation]) hsuccessors hlength hcount
    (by rw [hmutation])).2 ?_
  rw [hmutation]
  exact hadm.clock

theorem ReissueBuilt.link (hadm : ReissueAdmitted prior legacyRequests batch revision sources) :
    ReissueLink d update.ledger prior.reissueRecords update.record := by
  obtain ⟨hbatch, hprojection, hsha256⟩ := hbuilt.record_batch
  obtain ⟨hrun, hid, hkey, -⟩ := hbuilt.record_closed.2.2.2.1
  have hcurrent := congrArg Mutation.currentLedgerRevision hbuilt.record_mutation
  have hcommitted := congrArg Mutation.committedAt hbuilt.record_mutation
  have hfamily := hadm.family
  rw [hbatch] at hrun hid hkey
  have hnil : update.record.legacyProjection = [] ↔ legacyRequests = [] := by
    rw [hprojection, legacyProjectionOf_eq_nil]
  exact
    { sequence := hbuilt.record_log.1
      previous := hbuilt.record_log.2
      runId := hrun.symm.trans (hadm.runId.trans hbuilt.loop.onward.runId.symm)
      bounded := hcurrent.le
      reissueId_fresh := hid ▸ hadm.id_fresh
      key_fresh := hkey ▸ hadm.key_fresh
      clock := fun other hother => by
        change _ ≤ update.record.mutation.committedAt
        rw [hcommitted]
        exact hadm.clock _ (mutation_mem_reissue (List.mem_of_getLast? hother))
      projection_first := by
        by_cases hlegacy : legacyRequests = []
        · exact .inl (hnil.2 hlegacy)
        · rw [OneFamily, if_neg hlegacy] at hfamily
          exact .inr hfamily.1
      family := by
        by_cases hlegacy : legacyRequests = []
        · rw [OneFamily, if_pos hlegacy] at hfamily
          rw [if_pos (hnil.2 hlegacy), hbatch]
          exact fun item hitem => by simp [hfamily item hitem]
        · rw [OneFamily, if_neg hlegacy] at hfamily
          rw [if_neg (mt hnil.1 hlegacy), hbatch]
          exact hfamily.2
      terminal := fun _ => hsha256 }

theorem ReissueBuilt.record_projection (hadm : ReissueAdmitted prior legacyRequests batch revision sources) :
    ReissueProjection d update.ledger prior.reissueRecords update.record := by
  obtain ⟨hbatch, hprojection, -⟩ := hbuilt.record_batch
  refine ⟨?_, ?_⟩
  · rw [hbatch, hbuilt.record_outcome, hbuilt.sources_eq hadm]
  · rw [hbatch, hbuilt.record_outcome, hprojection]
    have hreissued := hbuilt.loop.reissued
    rwa [List.map_fst_zip hadm.selected.length_eq.le] at hreissued

/-- What a reissue has built, the reader accepts. -/
theorem ReissueBuilt.next_verified (h : Current d prior revision)
    (hadm : ReissueAdmitted prior legacyRequests batch revision sources) :
    Verified d (update.next d) := by
  have hv := h.toVerified
  have honward := hbuilt.loop.onward
  have hlt := hbuilt.ledger_lt hadm
  obtain ⟨hcount, hhead, haudit, hauditHead⟩ := hbuilt.loop.logs
  have hresults : (prior.reissueRecords ++ [update.record]).flatMap (·.outcome.results) =
      prior.reissueResults ++ update.outcome.results := by
    rw [List.flatMap_append, List.flatMap_singleton, hbuilt.record_outcome]
    rfl
  have hsupported := hbuilt.loop.supported
  rw [← hresults] at hsupported
  rw [hbuilt.next_eq]
  exact
    { ledger_closed := hbuilt.loop.closed
      decisions_closed := hv.decisions_closed
      events_closed := hv.events_closed
      reissues_closed :=
        List.forall_mem_append.2 ⟨hv.reissues_closed, List.forall_mem_singleton.2 hbuilt.record_closed⟩
      decision_count := hcount.trans hv.decision_count
      decision_links := hv.decision_links.imp fun _ _ _ hlink => hlink.onward honward
      decision_head := hhead.trans hv.decision_head
      audit_count := haudit.trans hv.audit_count
      audit_length := hv.audit_length
      audit_links := hv.audit_links.imp fun _ _ _ hlink => hlink.onward honward
      audit_head := hauditHead.trans hv.audit_head
      reissue_links := admitted_concat.2
        ⟨hv.reissue_links.imp fun _ _ _ hlink => hlink.onward honward hlt, hbuilt.link hadm⟩
      timeline := hbuilt.timeline h hadm
      decision_results := hv.decision_results.imp fun _ _ _ hby => hby.onward honward
      reissue_results := admitted_concat.2
        ⟨hv.reissue_results.imp fun _ _ _ hp => hp.onward honward, hbuilt.record_projection hadm⟩
      supported := hsupported
      ledger_sha256 := rfl }

theorem ReissueBuilt.current (h : Current d prior revision)
    (hadm : ReissueAdmitted prior legacyRequests batch revision sources) :
    Current d (update.next d) (revision + 1) :=
  h.concat (hbuilt.next_verified h hadm) hbuilt.mutations_perm (by rw [hbuilt.record_mutation])
    (by rw [hbuilt.record_mutation])

end

end

end PokerDeliberation.ApprovalLedger
