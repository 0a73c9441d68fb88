import PokerDeliberation.ApprovalLedger.Accepted

/-!
# A decision goes on from a verified state

What a batch is admitted for, what is built from it, and that the reader
accepts it exactly if no mutation was committed after the decision.
-/

namespace PokerDeliberation.ApprovalLedger

open Lib Approvals

/-- The request an item decides: pending, as it is expected, and alive. -/
structure Selects (ledger : ApprovalLedgerV2) (evaluatedAt : Instant) (item : ApprovalDecisionItemV2)
    (request : ApprovalRequestV2) : Prop where
  mem : request ∈ ledger.requests
  requestId : request.requestId = item.requestId
  pending : request.state = .pending
  revision : item.expectedRequestRevision = request.requestRevision
  digest : item.actionDigestSha256 = request.actionDigestSha256
  created : request.createdAt ≤ evaluatedAt
  live : evaluatedAt < request.expiresAt

/-- What `validate_approval_decision` establishes of a new batch. -/
structure DecisionAdmitted (d : Digests) (state : VerifiedApprovalStateV2)
    (batch : ApprovalDecisionBatch) (observedRunRevision : Nat) (provider : DecisionAuthorityProvider d)
    (evaluatedAt : Instant) (snapshot : ApprovalAuthoritySnapshotV2)
    (requests : List ApprovalRequestV2) : Prop where
  key_fresh : batch.idempotencyKey ∉ state.decisionRecords.map (·.idempotencyKey)
  runId : batch.runId = state.ledger.runId
  runRevision : batch.expectedRunRevision = observedRunRevision
  ledgerRevision : batch.expectedLedgerRevision = state.ledger.ledgerRevision
  id_fresh : batch.decisionId ∉ state.decisionRecords.map (·.decisionId)
  distinct : Keyed.Distinct (·.requestId) batch.items
  selected : List.Forall₂ (Selects state.ledger evaluatedAt) batch.items requests
  resolved : provider.resolveActor batch.actor.actorId evaluatedAt = some snapshot
  actor : snapshot.actor = batch.actor
  authorized : ∀ entry ∈ requests.zip batch.items, batch.actor.revocationStatus ≠ .revoked ∧
    batch.actor.Authorized entry.2.decision entry.1.requiredAuthorityScope evaluatedAt

section

variable {d : Digests} {state : VerifiedApprovalStateV2} {batch : ApprovalDecisionBatch}
variable {observedRunRevision : Nat} {provider : DecisionAuthorityProvider d} {evaluatedAt : Instant}
variable {snapshot : ApprovalAuthoritySnapshotV2} {requests : List ApprovalRequestV2}
variable {actorSha256 batchSha256 : Sha256} {outcome : ApprovalDecisionOutcome}

theorem selectRequest_eq_ok (hc : state.ledger.Closed d) {item : ApprovalDecisionItemV2}
    {request : ApprovalRequestV2} :
    selectRequest d state batch observedRunRevision evaluatedAt item = .ok request ↔
      Selects state.ledger evaluatedAt item request := by
  simp only [selectRequest, given_bind_eq_ok, request_eq_some hc, require_bind_eq_ok, pure_eq_ok]
  constructor
  · rintro ⟨r, ⟨hmem, hid⟩, hpending, hrevision, hdigest, hcreated, hlive, rfl⟩
    exact ⟨hmem, hid, hpending, hrevision, hdigest, hcreated, hlive⟩
  · exact fun h => ⟨request, ⟨h.mem, h.requestId⟩, h.pending, h.revision, h.digest, h.created, h.live, rfl⟩

theorem authorizeItem_eq_ok {actor : ApprovalActor} {entry : ApprovalRequestV2 × ApprovalDecisionItemV2} :
    authorizeItem d state batch observedRunRevision actor evaluatedAt entry = .ok () ↔
      actor.revocationStatus ≠ .revoked ∧
        actor.Authorized entry.2.decision entry.1.requiredAuthorityScope evaluatedAt := by
  simp only [authorizeItem, require_bind_eq_ok, require_eq_ok]

/-- A new batch is admitted, with its digests, exactly if all is established. -/
theorem validateApprovalDecision_eq_new (hc : state.ledger.Closed d) :
    validateApprovalDecision d state batch observedRunRevision provider evaluatedAt =
        .ok (.new snapshot actorSha256 batchSha256 requests) ↔
      (actorSha256 = d.approvalActorSha256 batch.actor ∧
          batchSha256 = d.approvalDecisionBatchSha256 batch) ∧
        DecisionAdmitted d state batch observedRunRevision provider evaluatedAt snapshot requests := by
  unfold validateApprovalDecision
  split
  next replay hreplay =>
    have hmem := List.mem_of_find?_eq_some hreplay
    have hkey := List.find?_some hreplay
    simp only [require_bind_eq_ok, pure_eq_ok, reduceCtorEq, and_false, false_iff, not_and]
    intro _ h
    exact h.key_fresh (List.mem_map.2 ⟨replay, hmem, by simpa using hkey⟩)
  next hnone =>
    have hfresh : batch.idempotencyKey ∉ state.decisionRecords.map (·.idempotencyKey) := by
      simpa using List.find?_eq_none.1 hnone
    simp only [require_bind_eq_ok, bind_eq_ok (x := List.mapM _ _), given_bind_eq_ok, mapM_eq_ok,
      selectRequest_eq_ok hc]
    simp only [check_bind_eq_ok, List.forM_eq_forM, forM_eq_ok, authorizeItem_eq_ok, pure_eq_ok,
      ApprovalDecisionAdmissionV2.new.injEq]
    constructor
    · rintro ⟨hrun, hrevision, hledger, hid, -, hdistinct, selected, hselected, resolved, hresolved,
        hactor, hauthorized, rfl, rfl, rfl, rfl⟩
      rw [hactor] at hauthorized
      exact ⟨⟨rfl, rfl⟩, hfresh, hrun, hrevision, hledger, hid, hdistinct, hselected, hresolved, hactor,
        hauthorized⟩
    · rintro ⟨⟨rfl, rfl⟩, h⟩
      refine ⟨h.runId, h.runRevision, h.ledgerRevision, h.id_fresh, ?_, h.distinct, requests, h.selected,
        snapshot, h.resolved, h.actor, by rw [h.actor]; exact h.authorized, rfl, rfl, rfl, rfl⟩
      rintro ⟨item, hitem, other, hother, hid, hne⟩
      exact hne (congrArg _ (h.distinct.eq hitem hother hid))

/-! ## The requests and results of a batch -/

theorem decision_eq_some (hd : Keyed.Distinct (·.requestId) batch.items) {requestId : String}
    {value : DecisionValue} : batch.decision requestId = some value ↔
      ∃ item ∈ batch.items, item.requestId = requestId ∧ item.decision = value := by
  simp [ApprovalDecisionBatch.decision, Keyed.dict_eq_some_iff hd, and_assoc]

theorem decision_of_mem (hd : Keyed.Distinct (·.requestId) batch.items) {item : ApprovalDecisionItemV2}
    (hitem : item ∈ batch.items) : batch.decision item.requestId = some item.decision :=
  (decision_eq_some hd).2 ⟨item, hitem, rfl, rfl⟩

theorem decidedRequest_of_none {ledgerRevision : Nat} {request : ApprovalRequestV2}
    (h : batch.decision request.requestId = none) :
    decidedRequest batch ledgerRevision request = request := by
  rw [decidedRequest, h]

theorem decidedRequest_of_some {ledgerRevision : Nat} {request : ApprovalRequestV2}
    {value : DecisionValue} (h : batch.decision request.requestId = some value) :
    decidedRequest batch ledgerRevision request = { request with
      requestRevision := request.requestRevision + 1
      ledgerRevision := ledgerRevision
      state := value.state } := by
  rw [decidedRequest, h]

@[simp] theorem decidedRequest_at (ledgerRevision : Nat) (request : ApprovalRequestV2) (n m : Nat) :
    (decidedRequest batch ledgerRevision request).at n m = request.at n m := by
  unfold decidedRequest
  split <;> rfl

@[simp] theorem decidedRequest_requestId (ledgerRevision : Nat) (request : ApprovalRequestV2) :
    (decidedRequest batch ledgerRevision request).requestId = request.requestId := by
  unfold decidedRequest
  split <;> rfl

@[simp] theorem decidedRequest_requestIdempotencyKey (ledgerRevision : Nat)
    (request : ApprovalRequestV2) :
    (decidedRequest batch ledgerRevision request).requestIdempotencyKey =
      request.requestIdempotencyKey := by
  unfold decidedRequest
  split <;> rfl

theorem decidedRequest_revision_le {ledgerRevision : Nat} {request : ApprovalRequestV2}
    (h : request.ledgerRevision ≤ ledgerRevision) :
    (decidedRequest batch (ledgerRevision + 1) request).ledgerRevision ≤ ledgerRevision + 1 := by
  unfold decidedRequest
  split
  · exact h.trans (Nat.le_succ _)
  · exact le_rfl

section

variable (hadm : DecisionAdmitted d state batch observedRunRevision provider evaluatedAt snapshot requests)
include hadm

theorem DecisionAdmitted.select {item : ApprovalDecisionItemV2} (hitem : item ∈ batch.items) :
    ∃ request, Selects state.ledger evaluatedAt item request := by
  obtain ⟨request, -, hselects⟩ := exists_of_forall₂ hadm.selected hitem
  exact ⟨request, hselects⟩

/-- A request of the ledger that has a decision is the one its item selects. -/
theorem DecisionAdmitted.selects (hc : state.ledger.Closed d) {request : ApprovalRequestV2}
    (hr : request ∈ state.ledger.requests) {value : DecisionValue}
    (hvalue : batch.decision request.requestId = some value) : ∃ item ∈ batch.items,
      item.decision = value ∧ Selects state.ledger evaluatedAt item request := by
  obtain ⟨item, hitem, hid, hdecision⟩ := (decision_eq_some hadm.distinct).1 hvalue
  obtain ⟨selected, hselects⟩ := hadm.select hitem
  obtain rfl := hc.nodup.eq hr hselects.mem (hid.symm.trans hselects.requestId.symm)
  exact ⟨item, hitem, hdecision, hselects⟩

/-- The items stand in the order of their requests. -/
theorem DecisionAdmitted.sorted :
    batch.items.Pairwise fun item other => item.requestId < other.requestId := by
  have hne : batch.items.Pairwise fun item other => item.requestId ≠ other.requestId :=
    List.pairwise_map.1 hadm.distinct
  refine (batch.canonical_item_order.and hne).imp fun hpair => ?_
  exact hpair.1.resolve_right fun hsame => hpair.2 hsame.1

theorem DecisionAdmitted.mem_results (hc : state.ledger.Closed d) {result : ApprovalDecisionResultV2} :
    result ∈ state.ledger.requests.filterMap (decisionResult? batch) ↔
      result ∈ batch.items.map (·.result) := by
  simp only [List.mem_filterMap, List.mem_map, decisionResult?, Option.map_eq_some_iff]
  constructor
  · rintro ⟨request, hr, value, hvalue, rfl⟩
    obtain ⟨item, hitem, rfl, hselects⟩ := hadm.selects hc hr hvalue
    refine ⟨item, hitem, ?_⟩
    rw [ApprovalDecisionItemV2.result, hselects.revision, hselects.digest, hselects.requestId]
  · rintro ⟨item, hitem, rfl⟩
    obtain ⟨request, hselects⟩ := hadm.select hitem
    refine ⟨request, hselects.mem, item.decision, ?_, ?_⟩
    · rw [hselects.requestId, decision_of_mem hadm.distinct hitem]
    · rw [ApprovalDecisionItemV2.result, hselects.revision, hselects.digest, hselects.requestId]

omit hadm in
theorem resultIds_sublist (requests : List ApprovalRequestV2) :
    ((requests.filterMap (decisionResult? batch)).map (·.requestId)).Sublist
      (requests.map (·.requestId)) := by
  induction requests with
  | nil => simp
  | cons request requests ih =>
    rw [List.map_cons, List.filterMap_cons]
    cases hvalue : batch.decision request.requestId with
    | none => simpa [decisionResult?, hvalue] using ih.cons _
    | some value => simpa [decisionResult?, hvalue] using ih

/-- The results in the order of the ledger, sorted, are those of the items in their order. -/
theorem DecisionAdmitted.results_eq (hc : state.ledger.Closed d) :
    sortResults (state.ledger.requests.filterMap (decisionResult? batch)) =
      batch.items.map (·.result) := by
  have hnodup : (batch.items.map (·.result)).Nodup := by
    refine List.Nodup.of_map (·.requestId) ?_
    rw [List.map_map]
    exact hadm.distinct
  have hfilter : (state.ledger.requests.filterMap (decisionResult? batch)).Nodup := by
    exact List.Nodup.of_map (·.requestId) (hc.nodup.sublist (resultIds_sublist _))
  refine @List.Perm.eq_of_pairwise _ (fun result other => result.requestId ≤ other.requestId) _ _
    ?_ (List.pairwise_insertionSort ..) ?_
    ((List.perm_insertionSort ..).trans ((List.perm_ext_iff_of_nodup hfilter hnodup).2 fun _ =>
      hadm.mem_results hc))
  · intro result other hresult hother hle hge
    have hmem := (hadm.mem_results hc).1 ((List.mem_insertionSort _).1 hresult)
    obtain ⟨item, hitem, rfl⟩ := List.mem_map.1 hmem
    obtain ⟨item', hitem', rfl⟩ := List.mem_map.1 hother
    rw [hadm.distinct.eq hitem hitem' (le_antisymm hle hge)]
  · exact List.pairwise_map.2 (hadm.sorted.imp le_of_lt)

/-- A decided request goes on from what it was. -/
theorem DecisionAdmitted.continues (hc : state.ledger.Closed d) {request : ApprovalRequestV2}
    (hr : request ∈ state.ledger.requests) :
    Continues request (decidedRequest batch (state.ledger.ledgerRevision + 1) request) := by
  cases hvalue : batch.decision request.requestId with
  | none => rw [decidedRequest_of_none hvalue]; exact .refl request
  | some value =>
    obtain ⟨item, -, -, hselects⟩ := hadm.selects hc hr hvalue
    refine ⟨decidedRequest_at .., ?_, ?_, fun hne => absurd hselects.pending hne⟩
    · rw [decidedRequest_of_some hvalue]
      exact Nat.le_succ _
    · rw [decidedRequest_of_some hvalue]
      exact (hc.revision_le hr).trans (Nat.le_succ _)

theorem DecisionAdmitted.request_closed (hc : state.ledger.Closed d) {request : ApprovalRequestV2}
    (hr : request ∈ state.ledger.requests) :
    (decidedRequest batch (state.ledger.ledgerRevision + 1) request).Closed d := by
  have hclosed := hc.1 request hr
  cases hvalue : batch.decision request.requestId with
  | none => rwa [decidedRequest_of_none hvalue]
  | some value =>
    obtain ⟨item, -, -, hselects⟩ := hadm.selects hc hr hvalue
    obtain ⟨⟨-, -, hcreated⟩, hdigest, hscope, hexpires, -, hreference⟩ := hclosed
    have hnone := (hc.1 request hr).no_reference hselects.pending
    rw [decidedRequest_of_some hvalue]
    refine ⟨⟨Nat.succ_pos _, Nat.succ_pos _, hcreated⟩, hdigest, hscope, hexpires, ?_, hreference⟩
    cases value <;> simp [DecisionValue.state, hnone]

end

/-! ## What is built -/

section

variable (hv : Verified d state)
variable (hadm : DecisionAdmitted d state batch observedRunRevision provider evaluatedAt snapshot requests)
include hv hadm

theorem DecisionAdmitted.outcome_results :
    (decisionOutcome d batch state.ledger snapshot actorSha256 batchSha256).requestResults =
      batch.items.map (·.result) :=
  hadm.results_eq hv.ledger_closed

omit hv hadm in
theorem unavailableLimitation_closed (observedLedgerRevision : Nat) :
    (unavailableLimitation d batch observedLedgerRevision).Closed := by
  simp [unavailableLimitation, failure, ApprovalDecisionFailureV2.Closed, batch.revision_pos]

theorem DecisionAdmitted.outcome_committed :
    (decisionOutcome d batch state.ledger snapshot actorSha256 batchSha256).Committed := by
  refine ⟨⟨?_, rfl, rfl, Option.some_ne_none _⟩, ?_⟩
  · rw [hadm.outcome_results hv]
    exact fun hnil => batch.min_length (List.map_eq_nil_iff.1 hnil)
  · by_cases happroval : ∃ result ∈
        (decisionOutcome d batch state.ledger snapshot actorSha256 batchSha256).requestResults,
        result.decision = .approved
    · have hany := List.any_eq_true.2 (happroval.imp fun _ h => ⟨h.1, decide_eq_true h.2⟩)
      rw [if_pos happroval]
      exact ⟨congrArg some (if_pos hany), congrArg (Option.map _) (if_pos hany)⟩
    · have hany : ¬ (decisionOutcome d batch state.ledger snapshot actorSha256
          batchSha256).requestResults.any (fun result => result.decision = .approved) = true := by
        simpa using happroval
      rw [if_neg happroval]
      exact ⟨congrArg some (if_neg hany), if_neg hany⟩

theorem DecisionAdmitted.outcome_closed :
    (decisionOutcome d batch state.ledger snapshot actorSha256 batchSha256).Closed := by
  have hresults := @DecisionAdmitted.outcome_results d state batch observedRunRevision provider
    evaluatedAt snapshot requests actorSha256 batchSha256 hv hadm
  refine ⟨⟨batch.revision_pos, ?_, ?_⟩, ⟨?_, ?_⟩, ?_, ?_⟩
  · rw [hresults, List.length_map]
    exact batch.max_length
  · exact (pendingCount_le _).trans (by simpa using hv.ledger_closed.requests_le)
  · rw [hresults, List.forall_mem_map]
    exact fun item _ => Nat.succ_pos _
  · intro limitation hlimitation
    simp only [decisionOutcome] at hlimitation
    split at hlimitation
    · obtain rfl := Option.some.inj hlimitation
      exact unavailableLimitation_closed _
    · cases hlimitation
  · rw [hresults, List.pairwise_map]
    exact hadm.sorted
  · exact hadm.outcome_committed hv

/-- The record that is built, with the digests of the admission. -/
theorem DecisionAdmitted.record_closed :
    (decisionRecord d state batch snapshot (d.approvalActorSha256 batch.actor)
      (d.approvalDecisionBatchSha256 batch)
      (decisionOutcome d batch state.ledger snapshot (d.approvalActorSha256 batch.actor)
        (d.approvalDecisionBatchSha256 batch))).Closed d := by
  have hsnapshot : snapshot.Closed d := provider.closed hadm.resolved
  refine ⟨⟨hsnapshot, hadm.outcome_closed hv⟩, ⟨rfl, rfl⟩, ?_, rfl, Nat.succ_pos _, ?_⟩
  · refine ⟨rfl, rfl, rfl, rfl, hadm.actor, ?_, rfl, rfl, rfl, hadm.ledgerRevision, rfl, rfl,
      hadm.outcome_results hv, rfl, rfl, rfl, rfl, rfl⟩
    exact hsnapshot.trans (by rw [hadm.actor]; rfl)
  · change state.decisionRecords.length + 1 = 1 ↔ state.ledger.decisionLogHeadSha256 = none
    rw [hv.decision_head]
    simp

omit hadm in
theorem Verified.event_closed {record : ApprovalDecisionRecordV2}
    (hrecord : 1 ≤ record.outcome.currentRunRevision) :
    (decisionEvent d state batch record).Closed d := by
  refine ⟨⟨hrecord, Nat.succ_pos _⟩, rfl, Nat.succ_pos _, ?_⟩
  change state.domainAuditEvents.length + 1 = 1 ↔ state.ledger.domainAuditLogHeadSha256 = none
  rw [hv.audit_head]
  simp

theorem DecisionAdmitted.ledger_closed (record : ApprovalDecisionRecordV2)
    (event : ApprovalDomainAuditEventV2) : (decidedLedger state batch record event).Closed d := by
  have hc := hv.ledger_closed
  have hperm : (decidedLedger state batch record event).requests.Perm
      (state.ledger.requests.map (decidedRequest batch (state.ledger.ledgerRevision + 1))) :=
    List.perm_insertionSort ..
  have hcount := hv.decisions_le.trans hc.requests_le
  refine ⟨?_, ⟨?_, ?_, ?_⟩, ?_, ?_, List.pairwise_insertionSort .., ?_, ?_, ?_, ?_⟩
  · intro request hr
    obtain ⟨prior, hprior, rfl⟩ := List.mem_map.1 (hperm.mem_iff.1 hr)
    exact hadm.request_closed hc hprior
  · rw [hperm.length_eq, List.length_map]
    exact hc.requests_le
  · exact Nat.succ_le_of_lt (hcount.trans_lt (by decide))
  · have hlength := hv.audit_length
    exact Nat.succ_le_of_lt ((hlength ▸ hcount).trans_lt (by decide))
  · rw [(hperm.map _).nodup_iff, List.map_map]
    exact (List.map_congr_left fun request _ => decidedRequest_requestId _ request) ▸ hc.nodup
  · rw [(hperm.map _).nodup_iff, List.map_map]
    simpa [Function.comp_def] using hc.keys_nodup
  · intro request hr
    obtain ⟨prior, hprior, rfl⟩ := List.mem_map.1 (hperm.mem_iff.1 hr)
    exact decidedRequest_revision_le (hc.revision_le hprior)
  · exact fun hzero => absurd hzero (Nat.succ_ne_zero _)
  · simp [decidedLedger]
  · simp [decidedLedger]

end

/-! ## The state that follows -/

/-- The update of an admitted batch. -/
def decisionUpdate (d : Digests) (state : VerifiedApprovalStateV2) (batch : ApprovalDecisionBatch)
    (snapshot : ApprovalAuthoritySnapshotV2) : ApprovalDecisionUpdateV2 :=
  let actorSha256 := d.approvalActorSha256 batch.actor
  let batchSha256 := d.approvalDecisionBatchSha256 batch
  let outcome := decisionOutcome d batch state.ledger snapshot actorSha256 batchSha256
  let record := decisionRecord d state batch snapshot actorSha256 batchSha256 outcome
  let event := decisionEvent d state batch record
  { ledger := decidedLedger state batch record event
    decisionRecords := state.decisionRecords ++ [record]
    domainAuditEvents := state.domainAuditEvents ++ [event]
    outcome := outcome
    decisionRecord := record
    domainAuditEvent := event }

def decidedState (d : Digests) (state : VerifiedApprovalStateV2) (batch : ApprovalDecisionBatch)
    (snapshot : ApprovalAuthoritySnapshotV2) : VerifiedApprovalStateV2 :=
  let update := decisionUpdate d state batch snapshot
  { ledger := update.ledger
    decisionRecords := update.decisionRecords
    domainAuditEvents := update.domainAuditEvents
    reissueRecords := state.reissueRecords
    ledgerSha256 := d.approvalLedgerSha256 update.ledger }

section

variable (hv : Verified d state)
variable (hadm : DecisionAdmitted d state batch observedRunRevision provider evaluatedAt snapshot requests)
include hadm

include hv in
/-- Nothing that is built from an admitted batch is refused. -/
theorem DecisionAdmitted.build_eq :
    buildApprovalDecisionUpdate d state batch snapshot (d.approvalActorSha256 batch.actor)
      (d.approvalDecisionBatchSha256 batch) = .ok (decisionUpdate d state batch snapshot) := by
  simp only [buildApprovalDecisionUpdate, require_bind_eq_ok, pure_eq_ok]
  refine ⟨?_, hadm.outcome_closed hv, hadm.record_closed hv, hv.event_closed (Nat.succ_pos _),
    hadm.ledger_closed hv _ _, rfl⟩
  intro request hr
  obtain ⟨prior, hprior, rfl⟩ := List.mem_map.1 hr
  exact hadm.request_closed hv.ledger_closed hprior

theorem DecisionAdmitted.onward (hc : state.ledger.Closed d) (record : ApprovalDecisionRecordV2)
    (event : ApprovalDomainAuditEventV2) :
    Onward state.ledger (decidedLedger state batch record event) := by
  refine ⟨rfl, Nat.le_succ _, fun request hr => ?_⟩
  exact ⟨_, mem_sortRequests.2 (List.mem_map_of_mem hr), hadm.continues hc hr⟩

include hv

/-- The requests after the decision are as the logs say. -/
theorem DecisionAdmitted.supported {request : ApprovalRequestV2}
    (hr : request ∈ state.ledger.requests) :
    Supported (state.decided ++ batch.items.map (·.requestId)) state.superseded
      (decidedRequest batch (state.ledger.ledgerRevision + 1) request) := by
  have hold := hv.supported request hr
  cases hvalue : batch.decision request.requestId with
  | none =>
    have hnot : request.requestId ∉ batch.items.map (·.requestId) := by
      intro hmem
      obtain ⟨item, hitem, hid⟩ := List.mem_map.1 hmem
      rw [← hid, decision_of_mem hadm.distinct hitem] at hvalue
      cases hvalue
    rw [decidedRequest_of_none hvalue]
    exact ⟨fun h => List.mem_append_left _ (hold.decided h), fun h hmem =>
      (List.mem_append.1 hmem).elim (hold.pending h) hnot, hold.superseded, fun h =>
        (List.mem_append.1 h.1).elim (fun hmem => hold.not_both ⟨hmem, h.2⟩) hnot⟩
  | some value =>
    obtain ⟨item, hitem, hdecision, hselects⟩ := hadm.selects hv.ledger_closed hr hvalue
    have hmem : request.requestId ∈ state.decided ++ batch.items.map (·.requestId) :=
      List.mem_append_right _ (List.mem_map.2 ⟨item, hitem, hselects.requestId.symm⟩)
    rw [decidedRequest_of_some hvalue]
    have hstate := value.state_decided
    refine ⟨fun _ => hmem, ?_, ?_, fun h => hv.not_mem_superseded hr hselects.pending h.2⟩
    · rcases hstate with h | h <;> simp [h]
    · rcases hstate with h | h <;> simp [h]

/-- Each result finds the request it decided, which no result had decided before. -/
theorem DecisionAdmitted.results_admitted (record : ApprovalDecisionRecordV2)
    (event : ApprovalDomainAuditEventV2) :
    Admitted (fun front => DecidedBy (decidedLedger state batch record event)
      (state.decisionRecords.flatMap (·.outcome.requestResults) ++ front))
      (batch.items.map (·.result)) := by
  have hfresh : Admitted (fun front (result : ApprovalDecisionResultV2) =>
      result.requestId ∉ state.decided ++ front.map (·.requestId)) (batch.items.map (·.result)) := by
    refine admitted_fresh.2 ⟨by rw [List.map_map]; exact hadm.distinct, fun result hresult => ?_⟩
    obtain ⟨item, hitem, rfl⟩ := List.mem_map.1 hresult
    obtain ⟨request, hselects⟩ := hadm.select hitem
    change item.requestId ∉ state.decided
    rw [← hselects.requestId]
    exact hv.not_mem_decided hselects.mem hselects.pending
  refine hfresh.imp fun front result hresult hnew => ⟨?_, ?_⟩
  · rw [List.map_append]
    exact hnew
  · obtain ⟨item, hitem, rfl⟩ := List.mem_map.1 hresult
    obtain ⟨request, hselects⟩ := hadm.select hitem
    have hvalue := hselects.requestId ▸ decision_of_mem hadm.distinct hitem
    refine ⟨_, mem_sortRequests.2 (List.mem_map_of_mem hselects.mem), ?_⟩
    rw [decidedRequest_of_some hvalue]
    exact ⟨hselects.requestId, hselects.digest.symm, by rw [ApprovalDecisionItemV2.result,
      hselects.revision], rfl⟩

end

theorem decided_mutations_perm (decisions : List ApprovalDecisionRecordV2)
    (reissues : List ApprovalReissueRecordV2) (record : ApprovalDecisionRecordV2) :
    ((decisions ++ [record]).map (·.mutation) ++ reissues.map (·.mutation)).Perm
      (decisions.map (·.mutation) ++ reissues.map (·.mutation) ++ [record.mutation]) := by
  rw [List.map_append, List.append_assoc, List.append_assoc]
  exact List.perm_append_comm.append_left _

theorem decided_revision (h : state.ledger.ledgerRevision =
    state.ledger.requests.length + state.decisionRecords.length) :
    (decisionUpdate d state batch snapshot).ledger.ledgerRevision =
      (decisionUpdate d state batch snapshot).ledger.requests.length +
        (decisionUpdate d state batch snapshot).decisionRecords.length := by
  simp [decisionUpdate, decidedLedger, h]
  omega

theorem decided_results (hv : Verified d state)
    (hadm : DecisionAdmitted d state batch observedRunRevision provider evaluatedAt snapshot requests) :
    (decidedState d state batch snapshot).decisionRecords.flatMap (·.outcome.requestResults) =
      state.decisionRecords.flatMap (·.outcome.requestResults) ++ batch.items.map (·.result) := by
  change (state.decisionRecords ++ [_]).flatMap _ = _
  rw [List.flatMap_append, List.flatMap_singleton]
  exact congrArg _ (hadm.outcome_results hv)

theorem mutation_mem_decision {record : ApprovalDecisionRecordV2}
    (h : record ∈ state.decisionRecords) : record.mutation ∈ state.mutations :=
  List.mem_append_left _ (List.mem_map_of_mem h)

theorem mutation_mem_reissue {record : ApprovalReissueRecordV2}
    (h : record ∈ state.reissueRecords) : record.mutation ∈ state.mutations :=
  List.mem_append_right _ (List.mem_map_of_mem h)

theorem Current.decided_link {revision : Nat} (h : Current d state revision)
    (hadm : DecisionAdmitted d state batch revision provider evaluatedAt snapshot requests)
    (hclock : ∀ m ∈ state.mutations, m.committedAt ≤ batch.decisionAt) :
    DecisionLink (decisionUpdate d state batch snapshot).ledger state.decisionRecords
      (decisionUpdate d state batch snapshot).decisionRecord where
  sequence := rfl
  previous := h.decision_head
  runId := hadm.runId
  committed := rfl
  decisionId_fresh := hadm.id_fresh
  key_fresh := hadm.key_fresh
  clock prior hprior := hclock _ (mutation_mem_decision (List.mem_of_getLast? hprior))
  ledger_onward prior hprior := by
    obtain ⟨_, hlink⟩ := h.toVerified.link (List.mem_of_getLast? hprior)
    exact hlink.bounded
  run_onward prior hprior := by
    have hmem := List.mem_of_getLast? hprior
    have hcurrent := (h.toVerified.committed hmem).1.2.1
    have hbefore := h.before _ (mutation_mem_decision hmem)
    change prior.outcome.currentRunRevision ≤ batch.expectedRunRevision
    rw [hadm.runRevision, hcurrent]
    exact hbefore
  bounded := le_rfl

theorem Verified.decided_audit_link (hv : Verified d state)
    (hadm : DecisionAdmitted d state batch observedRunRevision provider evaluatedAt snapshot requests) :
    AuditLink (decisionUpdate d state batch snapshot).ledger
      (state.decisionRecords.zip state.domainAuditEvents)
      ((decisionUpdate d state batch snapshot).decisionRecord,
        (decisionUpdate d state batch snapshot).domainAuditEvent) where
  sequence := by
    rw [List.length_zip, hv.audit_length, min_self]
    rfl
  previous := by
    have hsnd := List.map_snd_zip hv.audit_length.ge
    change state.ledger.domainAuditLogHeadSha256 = _
    rw [hv.audit_head]
    conv_lhs => rw [← hsnd, List.getLast?_map, Option.map_map]
    rfl
  runId := hadm.runId
  identity := ⟨rfl, rfl, rfl, rfl, rfl, rfl, rfl, rfl, rfl⟩

/-- The reader accepts what was built exactly if no mutation was committed after the decision. -/
theorem Current.decided_verified_iff {revision : Nat} (h : Current d state revision)
    (hadm : DecisionAdmitted d state batch revision provider evaluatedAt snapshot requests) :
    Verified d (decidedState d state batch snapshot) ↔
      ∀ m ∈ state.mutations, m.committedAt ≤ batch.decisionAt := by
  have hv := h.toVerified
  have honward := hadm.onward hv.ledger_closed
  have htimeline := @Current.timeline_iff d state revision
    (decisionUpdate d state batch snapshot).decisionRecord.mutation
    (decisionUpdate d state batch snapshot).ledger (decisionUpdate d state batch snapshot).decisionRecords
    state.reissueRecords h (decided_mutations_perm _ _ _) hadm.runRevision rfl 0 rfl
    (by simp [decisionUpdate, decidedLedger]) (decided_revision h.timeline.revision) rfl
  constructor
  · exact fun hnext => htimeline.1 hnext.timeline
  · intro hclock
    exact
      { ledger_closed := hadm.ledger_closed hv _ _
        decisions_closed := List.forall_mem_append.2
          ⟨hv.decisions_closed, List.forall_mem_singleton.2 (hadm.record_closed hv)⟩
        events_closed := List.forall_mem_append.2
          ⟨hv.events_closed, List.forall_mem_singleton.2 (hv.event_closed (Nat.succ_pos _))⟩
        reissues_closed := hv.reissues_closed
        decision_count := by simp [decidedState, decisionUpdate, decidedLedger]
        decision_links := admitted_concat.2
          ⟨hv.decision_links.imp fun _ _ _ hlink => hlink.onward (honward _ _), h.decided_link hadm hclock⟩
        decision_head := by simp [decidedState, decisionUpdate, decidedLedger]
        audit_count := by simp [decidedState, decisionUpdate, decidedLedger]
        audit_length := by simpa [decidedState, decisionUpdate] using hv.audit_length
        audit_links := by
          change Admitted _ ((state.decisionRecords ++ [_]).zip (state.domainAuditEvents ++ [_]))
          rw [List.zip_append hv.audit_length]
          exact admitted_concat.2 ⟨hv.audit_links.imp fun _ _ _ hlink => hlink.onward (honward _ _),
            hv.decided_audit_link hadm⟩
        audit_head := by simp [decidedState, decisionUpdate, decidedLedger]
        reissue_links := hv.reissue_links.imp fun _ _ _ hlink => hlink.onward (honward _ _) (Nat.lt_succ_self _)
        timeline := htimeline.2 hclock
        decision_results := by
          rw [decided_results hv hadm]
          exact admitted_append.2 ⟨hv.decision_results.imp fun _ _ _ hby => hby.onward (honward _ _),
            hadm.results_admitted hv _ _⟩
        reissue_results := hv.reissue_results.imp fun _ _ _ hp => hp.onward (honward _ _)
        supported := by
          intro request hr
          obtain ⟨prior, hprior, rfl⟩ := List.mem_map.1 (mem_sortRequests.1 hr)
          rw [VerifiedApprovalStateV2.decided, decided_results hv hadm, List.map_append, List.map_map]
          exact hadm.supported hv hprior
        ledger_sha256 := rfl }

theorem Current.decided {revision : Nat} (h : Current d state revision)
    (hadm : DecisionAdmitted d state batch revision provider evaluatedAt snapshot requests)
    (hnext : Verified d (decidedState d state batch snapshot)) :
    Current d (decidedState d state batch snapshot) (revision + 1) :=
  h.concat hnext (decided_mutations_perm ..) hadm.runRevision (congrArg (· + 1) hadm.runRevision)

end

end PokerDeliberation.ApprovalLedger
