import PokerDeliberation.ApprovalLedger.Lifecycle

/-!
# Authority over a run

In every revision a run can reach, its status says what its requests are, and
every decision was authorized by its actor when it was made and again when it
was published. Once approval is no longer required nothing follows.
-/

namespace PokerDeliberation.ApprovalLedger

open Lib Approvals

/-! ## The status of the run -/

/-- The last decision of the revision, which approved all that is approved. -/
structure Approving (state : VerifiedApprovalStateV2) (revision : Nat)
    (record : ApprovalDecisionRecordV2) : Prop where
  last : state.decisionRecords.getLast? = some record
  revision : record.outcome.currentRunRevision = revision
  approves : ∃ result ∈ record.outcome.requestResults, result.decision = .approved
  only : ∀ request ∈ state.ledger.requests, request.state = .approved →
    request.requestId ∈ record.outcome.requestResults.map (·.requestId)

/-- What the status of the run says of the requests of the ledger. -/
def StatusOf (state : VerifiedApprovalStateV2) (revision : Nat) : ReportRunStatus → Prop
  | .approvalRequired => (∃ request ∈ state.ledger.requests, request.state = .pending) ∧
      ∀ request ∈ state.ledger.requests, request.state ≠ .approved
  | .completed =>
    ∀ request ∈ state.ledger.requests, request.state = .rejected ∨ request.state = .superseded
  | .failedWithLimitations => ∃ record, Approving state revision record

def Published.Agrees (published : Published) : Prop :=
  ∀ state, published.approvals = .authoritativeV2 state →
    StatusOf state published.revision published.runStatus

section

variable {d : Digests} {read next : Published} {prepared : Prepared d}
variable {state : VerifiedApprovalStateV2} {request : ApprovalRequestV2}

/-- A ledger without logs has only pending requests. -/
theorem Verified.pending_of_nil (h : Verified d state) (hdecisions : state.decisionRecords = [])
    (hreissues : state.reissueRecords = []) (hr : request ∈ state.ledger.requests) :
    request.state = .pending := by
  have hdecided := h.mem_decided hr
  have hsuperseded := h.mem_superseded hr
  rw [VerifiedApprovalStateV2.decided, hdecisions] at hdecided
  rw [VerifiedApprovalStateV2.superseded, VerifiedApprovalStateV2.reissueResults, hreissues] at hsuperseded
  cases hstate : request.state with
  | pending => rfl
  | approved | rejected | superseded => simp [hstate, supersededIds] at hdecided hsuperseded

theorem DecisionValue.state_eq_approved {decision : DecisionValue} :
    decision.state = .approved ↔ decision = .approved := by
  cases decision <;> decide

/-- A request is approved if and only if some decision approved it. -/
theorem Verified.approved_iff (h : Verified d state) :
    (∃ request ∈ state.ledger.requests, request.state = .approved) ↔
      ∃ result ∈ state.decisionResults, result.decision = .approved := by
  constructor
  · rintro ⟨request, hr, hstate⟩
    obtain ⟨result, hfilter, hdecision, -⟩ := h.decided_filter hr (.inl hstate)
    have hmem : result ∈ state.decisionResults :=
      List.mem_of_mem_filter (hfilter ▸ List.mem_singleton_self result)
    exact ⟨result, hmem, DecisionValue.state_eq_approved.1 (hdecision.trans hstate)⟩
  · rintro ⟨result, hresult, hvalue⟩
    obtain ⟨request, hr, -, -, -, hstate⟩ := h.result_request hresult
    exact ⟨request, hr, hstate.trans (DecisionValue.state_eq_approved.2 hvalue)⟩

theorem First.agrees {published : Published} (h : First d published) : published.Agrees := by
  cases h with
  | proposals proposed created =>
    obtain ⟨state, hverified, rfl, ⟨hdecisions, hreissues⟩, -, hlength⟩ := createApprovals_eq_ok created
    intro after hafter
    obtain rfl := PublishedApprovals.authoritativeV2.inj hafter
    have hpos : 0 < state.ledger.requests.length := hlength ▸ List.length_pos_iff.2 proposed
    obtain ⟨request, hr⟩ := List.exists_mem_of_length_pos hpos
    refine ⟨⟨request, hr, hverified.pending_of_nil hdecisions hreissues hr⟩, fun other ho => ?_⟩
    rw [hverified.pending_of_nil hdecisions hreissues ho]
    simp
  | historical => intro state hstate; cases hstate

theorem exists_pending {requests : List ApprovalRequestV2} :
    pendingCount requests ≠ 0 ↔ ∃ request ∈ requests, request.state = .pending := by
  rw [pendingCount, ← Nat.pos_iff_ne_zero, List.countP_pos_iff]
  simp

theorem ApprovalDecisionOutcome.Committed.decidedStatus_eq {outcome : ApprovalDecisionOutcome}
    (h : outcome.Committed) : decidedStatus outcome =
      if ∃ result ∈ outcome.requestResults, result.decision = .approved then .failedWithLimitations
      else if outcome.remainingPendingCount = 0 then .completed else .approvalRequired := by
  obtain ⟨-, hstatus⟩ := h
  unfold decidedStatus
  split at hstatus
  next happroves => rw [if_pos happroves, hstatus.1]
  next happroves =>
    rw [if_neg happroves, hstatus.1]
    by_cases hzero : outcome.remainingPendingCount = 0
    · rw [if_pos hzero]
    · rw [if_neg hzero]

/-- After a decision the status says what the requests have become. -/
theorem PreparedDecision.agrees {batch : ApprovalDecisionBatch} {provider : DecisionAuthorityProvider d}
    {snapshot : ApprovalAuthoritySnapshotV2} {requests : List ApprovalRequestV2}
    (h : PreparedDecision d read batch provider prepared state snapshot requests) (hs : read.Sound d)
    (hagrees : read.Agrees) : prepared.published.Agrees := by
  have hv := (hs.2 state h.approvals).toVerified
  have hread := hagrees state h.approvals
  rw [h.runStatus] at hread
  have hold : ¬ ∃ result ∈ state.decisionResults, result.decision = .approved := by
    rw [← hv.approved_iff]
    rintro ⟨request, hr, hstate⟩
    exact hread.2 request hr hstate
  have hresults := decided_results hv h.admitted
  have hcommitted : (decisionUpdate d state batch snapshot).outcome.Committed :=
    h.admitted.outcome_committed hv
  have hitems : (decisionUpdate d state batch snapshot).outcome.requestResults =
      batch.items.map (·.result) := h.admitted.outcome_results hv
  -- what is approved after the decision, this batch has approved
  have happroved : ∀ request ∈ (decidedState d state batch snapshot).ledger.requests,
      request.state = .approved → ∃ result ∈ batch.items.map (·.result),
        result.requestId = request.requestId ∧ result.decision = .approved := by
    intro request hr hstate
    obtain ⟨result, hfilter, hdecision, -⟩ := h.verified.decided_filter hr (.inl hstate)
    have hmem := List.mem_filter.1 (hfilter ▸ List.mem_singleton_self result)
    have hvalue := DecisionValue.state_eq_approved.1 (hdecision.trans hstate)
    rw [VerifiedApprovalStateV2.decisionResults, hresults, List.mem_append] at hmem
    rcases hmem.1 with hprior | hnew
    · exact absurd ⟨result, hprior, hvalue⟩ hold
    · exact ⟨result, hnew, by simpa using hmem.2, hvalue⟩
  rw [h.published]
  intro after hafter
  obtain rfl := PublishedApprovals.authoritativeV2.inj hafter
  change StatusOf _ _ (decidedStatus (decisionUpdate d state batch snapshot).outcome)
  rw [hcommitted.decidedStatus_eq]
  by_cases happroves : ∃ result ∈ (decisionUpdate d state batch snapshot).outcome.requestResults,
      result.decision = .approved
  · rw [if_pos happroves]
    refine ⟨(decisionUpdate d state batch snapshot).decisionRecord, List.getLast?_concat ..,
      congrArg (· + 1) h.admitted.runRevision, happroves, fun request hr hstate => ?_⟩
    obtain ⟨result, hresult, hid, -⟩ := happroved request hr hstate
    exact List.mem_map.2 ⟨result, hitems.symm ▸ hresult, hid⟩
  · rw [if_neg happroves]
    rw [hitems] at happroves
    have hnone : ∀ request ∈ (decidedState d state batch snapshot).ledger.requests,
        request.state ≠ .approved := by
      intro request hr hstate
      obtain ⟨result, hresult, -, hvalue⟩ := happroved request hr hstate
      exact happroves ⟨result, hresult, hvalue⟩
    by_cases hzero : (decisionUpdate d state batch snapshot).outcome.remainingPendingCount = 0
    · rw [if_pos hzero]
      intro request hr
      have hpending : request.state ≠ .pending := fun hstate =>
        exists_pending.2 ⟨request, hr, hstate⟩ hzero
      cases hstate : request.state with
      | pending => exact absurd hstate hpending
      | approved => exact absurd hstate (hnone request hr)
      | rejected => exact .inl rfl
      | superseded => exact .inr rfl
    · rw [if_neg hzero]
      exact ⟨exists_pending.1 hzero, hnone⟩

/-- A reissue leaves something to decide, and approves nothing. -/
theorem PreparedReissue.agrees {batch : ApprovalReissueBatchV2} {sources : List SourceRequest}
    {update : ApprovalReissueUpdateV2}
    (h : PreparedReissue d read batch prepared sources update) (hs : read.Sound d)
    (hagrees : read.Agrees) : prepared.published.Agrees := by
  have hcurrent := hs.reissued batch
  have hnext := h.built.next_verified hcurrent h.admitted
  have hold : ¬ ∃ result ∈ (reissuedState d read.sources.1 batch).decisionResults,
      result.decision = .approved := by
    rcases read with ⟨revision, runStatus, legacy | state⟩
    · simp [Published.sources, reissuedState, emptyState, VerifiedApprovalStateV2.decisionResults]
    · have hread := hagrees state rfl
      obtain rfl : runStatus = .approvalRequired := h.runStatus
      change ¬ ∃ result ∈ state.decisionResults, _
      rw [← (hs.2 state rfl).approved_iff]
      rintro ⟨request, hr, hstate⟩
      exact hread.2 request hr hstate
  have hpositive : update.outcome.remainingPendingCount ≠ 0 := by
    have hclosed := h.built.record_closed.1.1.2.1.2.2.2.1
    rw [h.built.record_outcome] at hclosed
    exact Nat.pos_iff_ne_zero.1 hclosed
  rw [h.published]
  intro after hafter
  obtain rfl := PublishedApprovals.authoritativeV2.inj hafter
  refine ⟨exists_pending.1 (h.built.remaining ▸ hpositive), fun request hr hstate => ?_⟩
  have happroved := hnext.approved_iff.1 ⟨request, hr, hstate⟩
  rw [h.built.next_eq] at happroved
  exact hold happroved

theorem Step.agrees (hs : read.Sound d) (hagrees : read.Agrees) (h : Step d read next) :
    next.Agrees := by
  cases h with
  | decision prepare verify =>
    obtain ⟨state, snapshot, requests, h⟩ := (decideApprovals_eq_next hs).1 prepare
    exact h.agrees hs hagrees
  | reissue prepare =>
    obtain ⟨sources, update, h⟩ := reissueApprovals_eq_next hs prepare
    exact h.agrees hs hagrees

theorem Reachable.agrees (h : Reachable d read) : read.Agrees := by
  obtain ⟨first, hfirst, hrun⟩ := h
  induction hrun with
  | refl => exact hfirst.agrees
  | tail hrun hstep ih => exact hstep.agrees (Run.sound hfirst.sound hrun) ih

theorem Step.runStatus (hs : read.Sound d) (h : Step d read next) :
    read.runStatus = .approvalRequired := by
  cases h with
  | decision prepare verify =>
    obtain ⟨state, snapshot, requests, h⟩ := (decideApprovals_eq_next hs).1 prepare
    exact h.runStatus
  | reissue prepare =>
    obtain ⟨sources, update, h⟩ := reissueApprovals_eq_next hs prepare
    exact h.runStatus

end

/-! ## Who decided -/

/-- The actor might decide the request so at this time, while the request was alive. -/
structure AuthorizedAt (batch : ApprovalDecisionBatch) (item : ApprovalDecisionItemV2)
    (request : ApprovalRequestV2) (evaluatedAt : Instant) : Prop where
  alive : request.createdAt ≤ evaluatedAt ∧ evaluatedAt < request.expiresAt
  authorized : batch.actor.Authorized item.decision request.requiredAuthorityScope evaluatedAt

/-- The item decided the request with authority, when it was made and when it was published. -/
structure AuthorizedDecision (record : ApprovalDecisionRecordV2) (item : ApprovalDecisionItemV2)
    (request : ApprovalRequestV2) : Prop where
  requestId : item.requestId = request.requestId
  not_revoked : record.batch.actor.revocationStatus ≠ .revoked
  committed : AuthorizedAt record.batch item request record.committedAt
  published : ∃ publishedAt, record.committedAt ≤ publishedAt ∧
    AuthorizedAt record.batch item request publishedAt

def VerifiedApprovalStateV2.Authorized (state : VerifiedApprovalStateV2) : Prop :=
  ∀ record ∈ state.decisionRecords, ∀ item ∈ record.batch.items,
    ∃ request ∈ state.ledger.requests, AuthorizedDecision record item request

section

variable {d : Digests} {read next : Published} {prepared : Prepared d}
variable {state later : VerifiedApprovalStateV2} {request : ApprovalRequestV2}
variable {batch : ApprovalDecisionBatch} {item : ApprovalDecisionItemV2}
variable {snapshot : ApprovalAuthoritySnapshotV2} {requests : List ApprovalRequestV2}
variable {evaluatedAt : Instant}

theorem Continues.authorizedAt {after : ApprovalRequestV2} (hc : Continues request after)
    (h : AuthorizedAt batch item request evaluatedAt) : AuthorizedAt batch item after evaluatedAt := by
  have hcreated : after.createdAt = request.createdAt := congrArg (·.createdAt) hc.same
  have hexpires : after.expiresAt = request.expiresAt := congrArg (·.expiresAt) hc.same
  have hscope : after.requiredAuthorityScope = request.requiredAuthorityScope :=
    congrArg (·.requiredAuthorityScope) hc.same
  obtain ⟨halive, hauthorized⟩ := h
  rw [← hcreated, ← hexpires] at halive
  exact ⟨halive, hscope ▸ hauthorized⟩

/-- Decisions stay authorized while the requests go on. -/
theorem Onward.authorizedDecision {record : ApprovalDecisionRecordV2} (h : Onward state.ledger later.ledger)
    (hby : ∃ request ∈ state.ledger.requests, AuthorizedDecision record item request) :
    ∃ request ∈ later.ledger.requests, AuthorizedDecision record item request := by
  obtain ⟨request, hr, hid, hrevoked, hcommitted, publishedAt, hle, hpublished⟩ := hby
  obtain ⟨after, hafter, hc⟩ := h.requests request hr
  exact ⟨after, hafter, hid.trans hc.requestId.symm, hrevoked, hc.authorizedAt hcommitted,
    publishedAt, hle, hc.authorizedAt hpublished⟩

theorem reverifyApprovalAuthority_eq_ok {admitted : ApprovalAuthoritySnapshotV2}
    {reverifier : DecisionAuthorityProvider d} :
    reverifyApprovalAuthority d batch admitted requests reverifier evaluatedAt = .ok snapshot ↔
      batch.decisionAt ≤ evaluatedAt ∧
        reverifier.resolveActor batch.actor.actorId evaluatedAt = some snapshot ∧
        (snapshot.actor = admitted.actor ∧ snapshot.providerId = admitted.providerId ∧
          snapshot.providerVersion = admitted.providerVersion) ∧
        ∀ entry ∈ requests.zip batch.items, evaluatedAt < entry.1.expiresAt ∧
          admitted.actor.Authorized entry.2.decision entry.1.requiredAuthorityScope evaluatedAt := by
  simp only [reverifyApprovalAuthority, given_bind_eq_ok, check_bind_eq_ok,
    List.forM_eq_forM, forM_eq_ok, require_eq_ok, pure_eq_ok]
  constructor
  · rintro ⟨hclock, resolved, hresolved, hsame, hentries, rfl⟩
    rw [hsame.1] at hentries
    exact ⟨hclock, hresolved, hsame, hentries⟩
  · rintro ⟨hclock, hresolved, hsame, hentries⟩
    rw [← hsame.1] at hentries
    exact ⟨hclock, snapshot, hresolved, hsame, hentries, rfl⟩

/-- Each item of an admitted batch stands beside the request it selects. -/
theorem DecisionAdmitted.exists_entry {observedRunRevision : Nat} {provider : DecisionAuthorityProvider d}
    (hadm : DecisionAdmitted d state batch observedRunRevision provider evaluatedAt snapshot requests)
    (hitem : item ∈ batch.items) : ∃ request, (request, item) ∈ requests.zip batch.items ∧
      Selects state.ledger evaluatedAt item request := by
  have hsnd : (requests.zip batch.items).map (·.2) = batch.items :=
    List.map_snd_zip hadm.selected.length_eq.le
  rw [← hsnd] at hitem
  obtain ⟨entry, hentry, rfl⟩ := List.mem_map.1 hitem
  exact ⟨entry.1, hentry, List.forall₂_zip hadm.selected.flip hentry⟩

/-- What is decided was authorized when it was decided and when it is published. -/
theorem PreparedDecision.authorized {provider reverifier : DecisionAuthorityProvider d}
    {publishedAt : Instant}
    (h : PreparedDecision d read batch provider prepared state snapshot requests)
    (hs : read.Sound d) (hauthorized : state.Authorized)
    (hverify : prepared.authorityVerifier reverifier publishedAt = .ok ()) :
    (decidedState d state batch snapshot).Authorized := by
  have hadm := h.admitted
  have honward := hadm.onward (hs.2 state h.approvals).ledger_closed
    (decisionUpdate d state batch snapshot).decisionRecord
    (decisionUpdate d state batch snapshot).domainAuditEvent
  rw [h.verifier] at hverify
  simp only [bind_eq_ok, pure_eq_ok, reverifyApprovalAuthority_eq_ok, hadm.actor] at hverify
  obtain ⟨live, ⟨hclock, -, -, hlive⟩, -⟩ := hverify
  intro record hrecord
  rcases List.mem_append.1 hrecord with hprior | hnew
  · intro item hitem
    exact @Onward.authorizedDecision state (decidedState d state batch snapshot) item record honward
      (hauthorized record hprior item hitem)
  · obtain rfl := List.mem_singleton.1 hnew
    intro item hitem
    obtain ⟨request, hentry, hselects⟩ := hadm.exists_entry hitem
    obtain ⟨hrevoked, hscope⟩ := hadm.authorized _ hentry
    obtain ⟨hexpires, hagain⟩ := hlive _ hentry
    have hcreated : request.createdAt ≤ publishedAt := hselects.created.trans hclock
    refine @Onward.authorizedDecision state (decidedState d state batch snapshot) item _ honward
      ⟨request, hselects.mem, hselects.requestId.symm, hrevoked, ?_, publishedAt, hclock, ?_⟩
    · exact ⟨⟨hselects.created, hselects.live⟩, hscope⟩
    · exact ⟨⟨hcreated, hexpires⟩, hagain⟩

theorem PreparedReissue.authorized {reissue : ApprovalReissueBatchV2} {sources : List SourceRequest}
    {update : ApprovalReissueUpdateV2}
    (h : PreparedReissue d read reissue prepared sources update)
    (hauthorized : (reissuedState d read.sources.1 reissue).Authorized) :
    (update.next d).Authorized := by
  rw [h.built.next_eq]
  exact fun record hrecord item hitem => @Onward.authorizedDecision _ _ item record
    h.built.loop.onward (hauthorized record hrecord item hitem)

theorem Reachable.authorized (h : Reachable d read) :
    ∀ state, read.approvals = .authoritativeV2 state → state.Authorized := by
  obtain ⟨first, hfirst, hrun⟩ := h
  induction hrun with
  | refl =>
    intro state hstate
    cases hfirst with
    | proposals proposed created =>
      obtain ⟨after, -, rfl, ⟨hdecisions, -⟩, -, -⟩ := createApprovals_eq_ok created
      obtain rfl := PublishedApprovals.authoritativeV2.inj hstate
      intro record hrecord
      rw [hdecisions] at hrecord
      cases hrecord
    | historical => cases hstate
  | @tail prior next hrun hstep ih =>
    have hs := Run.sound hfirst.sound hrun
    intro after hafter
    cases hstep with
    | decision prepare verify =>
      obtain ⟨state, snapshot, requests, h⟩ := (decideApprovals_eq_next hs).1 prepare
      rw [h.published] at hafter
      obtain rfl := PublishedApprovals.authoritativeV2.inj hafter
      exact h.authorized hs (ih state h.approvals) verify
    | @reissue batch _ _ _ _ prepare =>
      obtain ⟨sources, update, h⟩ := reissueApprovals_eq_next hs prepare
      rw [h.published] at hafter
      obtain rfl := PublishedApprovals.authoritativeV2.inj hafter
      refine h.authorized ?_
      rcases prior with ⟨revision, runStatus, legacy | state⟩
      · intro record hrecord
        cases hrecord
      · exact ih state rfl

/-- Whatever is decided in a revision a run reaches was decided by exactly one record, whose actor
had authority over the request when the decision was made, and again when it was published. -/
theorem decided_by_authority (hread : Reachable d read) (hstate : read.approvals = .authoritativeV2 state)
    (hr : request ∈ state.ledger.requests)
    (hdecided : request.state = .approved ∨ request.state = .rejected) :
    ∃ record ∈ state.decisionRecords,
      (∃ item ∈ record.batch.items, item.decision.state = request.state ∧
        AuthorizedDecision record item request) ∧
      ∀ other ∈ state.decisionRecords, (∃ item ∈ other.batch.items, item.requestId = request.requestId) →
        other = record := by
  have hv := (hread.sound.2 state hstate).toVerified
  have hitemIds : ∀ record ∈ state.decisionRecords,
      record.outcome.requestResults.map (·.requestId) = record.batch.items.map (·.requestId) := by
    intro record hrecord
    rw [hv.results_eq hrecord, List.map_map]
    rfl
  obtain ⟨result, hresult, hid⟩ := List.mem_map.1 ((hv.mem_decided hr).2 hdecided)
  obtain ⟨record, hrecord, hmem⟩ := List.mem_flatMap.1 hresult
  obtain ⟨request', hr', hid', -, -, hvalue⟩ := hv.result_request hresult
  obtain rfl := hv.request_unique hr' hr (hid'.trans hid)
  have hfilter := hv.record_filter hrecord (List.mem_map.2 ⟨result, hmem, hid⟩)
  rw [hv.results_eq hrecord] at hmem
  obtain ⟨item, hitem, rfl⟩ := List.mem_map.1 hmem
  obtain ⟨other, ho, hby⟩ := hread.authorized state hstate record hrecord item hitem
  obtain rfl := hv.request_unique ho hr (hby.requestId.symm.trans hid)
  refine ⟨record, hrecord, ⟨item, hitem, hvalue.symm, hby⟩, fun record' hrecord' hdecides => ?_⟩
  obtain ⟨item', hitem', hid'⟩ := hdecides
  have hmem' : record' ∈ state.decisionRecords.filter
      fun record => other.requestId ∈ record.outcome.requestResults.map (·.requestId) := by
    refine List.mem_filter.2 ⟨hrecord', decide_eq_true ?_⟩
    rw [hitemIds record' hrecord']
    exact List.mem_map.2 ⟨item', hitem', hid'⟩
  rw [hfilter] at hmem'
  exact List.mem_singleton.1 hmem'

/-- The state after the sample decision, and its request. -/
def sampleDecided : VerifiedApprovalStateV2 :=
  decidedState sampleDigests sampleState sampleBatch (sampleSnapshot 20)

def sampleApproved : ApprovalRequestV2 := decidedRequest sampleBatch 2 sampleRequest

theorem sampleApproved_mem : sampleApproved ∈ sampleDecided.ledger.requests :=
  List.mem_of_mem_head? (rfl : sampleDecided.ledger.requests.head? = _)

theorem sample_decided_by_authority :
    ∃ record ∈ sampleDecided.decisionRecords,
      (∃ item ∈ record.batch.items, item.decision.state = sampleApproved.state ∧
        AuthorizedDecision record item sampleApproved) ∧
      ∀ other ∈ sampleDecided.decisionRecords,
        (∃ item ∈ other.batch.items, item.requestId = sampleApproved.requestId) → other = record :=
  decided_by_authority sample_decided_reachable rfl sampleApproved_mem (.inl rfl)

end

end PokerDeliberation.ApprovalLedger
