import PokerDeliberation.ApprovalLedger.Authority

/-!
# The recheck before an execution

`recheck_approval_for_execution` goes through a state, its evidence and the live
authority again. In a revision a run can reach, only what has changed since can
make it refuse: the evidence itself is always exact.
-/

namespace PokerDeliberation.ApprovalLedger

open Lib Approvals

section

variable (d : Digests) (state : VerifiedApprovalStateV2) (approvalRunId : String)
variable (approvalRunRevision : Nat) (approvalPointerSha256 approvalManifestSha256 : Sha256)
variable (requestId : String) (expectedActionPlan : CanonicalActionPlanV2)
variable (authorityProvider : DecisionAuthorityProvider d) (evaluatedAt : Instant)

/-- `_reject_execution`. -/
def executionRejection (code : ApprovalExecutionFailureCode) (message : String) : ApprovalError :=
  .execution ⟨code, message, approvalRunId, requestId, evaluatedAt⟩

/-- The hash of the ledger and the five validators, as the reader had them. -/
def recheckState : Except ApprovalError Unit := do
  require (state.ledgerSha256 = d.approvalLedgerSha256 state.ledger)
    (.ledgerCorrupt "approval ledger hash mismatch")
  validateApprovalState d state.ledger state.decisionRecords state.domainAuditEvents
    state.reissueRecords

/-- The record of the decision, which must be evidence of exactly this approval. -/
def executionEvidence (request : ApprovalRequestV2) : Except ApprovalError ApprovalDecisionRecordV2 :=
  let reject := executionRejection approvalRunId requestId evaluatedAt
  match state.decisionRecords.filter fun record =>
      requestId ∈ record.outcome.requestResults.map (·.requestId) with
  | [record] => do
    let result ← given (record.outcome.requestResults.find? fun result => result.requestId = requestId)
      (.value "StopIteration")
    require (result.decision = .approved ∧ result.requestRevision = request.requestRevision ∧
        result.actionDigestSha256 = d.actionDigestSha256 expectedActionPlan ∧
        record.outcome.currentRunRevision = approvalRunRevision ∧
        record.outcome.runStatus = some .failedWithLimitations ∧
        record.outcome.limitation.map (·.code) = some .externalExecutorUnavailable ∧
        record.recordSha256 = approvalDecisionRecordSha256 d record ∧
        record.outcomeSha256 = d.approvalDecisionOutcomeSha256 record.outcome)
      (reject .approvalMismatch "Approved decision outcome is not exact execution evidence.")
    return record
  | _ => .error (reject .approvalMismatch
      "Approved request has no unique immutable decision outcome.")

/-- When the live authority expires, if it is the one that was saved. -/
def liveAuthority (request : ApprovalRequestV2) (saved : ApprovalAuthoritySnapshotV2) :
    Except ApprovalError Instant := do
  let reject := executionRejection approvalRunId requestId evaluatedAt
  let live ← given (authorityProvider.resolveActor saved.actor.actorId evaluatedAt)
    (reject .authorityUnavailable "Authority provider could not perform the execution recheck.")
  require (live.resolvedAt = evaluatedAt ∧ live.providerId = saved.providerId ∧
      live.providerVersion = saved.providerVersion ∧ live.actor = saved.actor)
    (reject (if live.actor.revocationStatus = .revoked then .authorityRevoked else .actorSpoof)
      "Live authority differs from the approved authority snapshot.")
  let actor := live.actor
  require (actor.revocationStatus ≠ .revoked)
    (reject .authorityRevoked "Approval authority was revoked before execution admission.")
  let unauthorized := reject .unauthorizedExecution "Actor lacks live exact authority for execution."
  let authorityExpiresAt ← given actor.authorityExpiresAt unauthorized
  require (actor.verificationStatus = .verified ∧ actor.revocationStatus = .notRevoked ∧
      evaluatedAt < authorityExpiresAt ∧ request.requiredAuthorityScope ∈ actor.authorityScopes)
    unauthorized
  return authorityExpiresAt

/-- What binds an execution to its approval, with its own digest. -/
def recheckBinding (request : ApprovalRequestV2) (record : ApprovalDecisionRecordV2)
    (authorityExpiresAt : Instant) : ApprovalExecutionRecheckBindingV2 :=
  let draft : ApprovalExecutionRecheckBindingV2 :=
    { approvalRunId := approvalRunId
      approvalRunRevision := approvalRunRevision
      approvalPointerSha256 := approvalPointerSha256
      approvalManifestSha256 := approvalManifestSha256
      approvalLedgerSha256 := state.ledgerSha256
      requestId := request.requestId
      requestRevision := request.requestRevision
      actionDigestSha256 := request.actionDigestSha256
      executionId := request.actionPlan.executionId
      decisionId := record.decisionId
      decisionRecordSha256 := record.recordSha256
      decisionOutcomeSha256 := record.outcomeSha256
      actorSha256 := record.actorSha256
      authoritySnapshotSha256 := record.authoritySnapshotSha256
      authorityProviderId := record.authoritySnapshot.providerId
      authorityProviderVersion := record.authoritySnapshot.providerVersion
      recheckedAt := evaluatedAt
      validUntil := min request.expiresAt authorityExpiresAt
      bindingSha256 := "" }
  { draft with bindingSha256 := approvalExecutionRecheckBindingSha256 d draft }

def recheckApprovalForExecution : Except ApprovalError ApprovalExecutionRecheckBindingV2 := do
  let reject := executionRejection approvalRunId requestId evaluatedAt
  (recheckState d state).mapError fun _ =>
    reject .approvalMismatch "Approval state failed the complete pre-execution recheck."
  let request ← given
    (if state.ledger.runId = approvalRunId then
      state.ledger.requests.find? fun request => request.requestId = requestId
    else none)
    (reject .approvalMissing "Approved request is absent from the exact approval run.")
  require (request.state = .approved ∧ request.actionPlan = expectedActionPlan ∧
      request.actionDigestSha256 = d.actionDigestSha256 expectedActionPlan)
    (reject .approvalMismatch "Approved request does not bind the expected action.")
  require (evaluatedAt < request.expiresAt)
    (reject .approvalExpired "Approved request expired before execution admission.")
  let record ← executionEvidence d state approvalRunId approvalRunRevision requestId
    expectedActionPlan evaluatedAt request
  let authorityExpiresAt ← liveAuthority d approvalRunId requestId authorityProvider evaluatedAt request
    record.authoritySnapshot
  let binding := recheckBinding d state approvalRunId approvalRunRevision approvalPointerSha256
    approvalManifestSha256 evaluatedAt request record authorityExpiresAt
  require (binding.Closed d) .validation
  return binding

end

/-! ## Evidence -/

section

variable {d : Digests} {state : VerifiedApprovalStateV2} {revision : Nat}
variable {record : ApprovalDecisionRecordV2} {request : ApprovalRequestV2}

theorem DecisionValue.eq_approved {decision : DecisionValue} (h : RequestState.approved = decision.state) :
    decision = .approved := by
  cases decision
  · rfl
  · cases h

theorem ApprovalRequestV2.Closed.digest (h : request.Closed d) :
    request.actionDigestSha256 = d.actionDigestSha256 request.actionPlan := h.2.1

/-- The result of an approved request in the last decision. -/
structure ExactResult (d : Digests) (request : ApprovalRequestV2) (record : ApprovalDecisionRecordV2)
    (result : ApprovalDecisionResultV2) : Prop where
  found : record.outcome.requestResults.find? (fun result => result.requestId = request.requestId) =
    some result
  decision : result.decision = .approved
  requestRevision : result.requestRevision = request.requestRevision
  actionDigest : result.actionDigestSha256 = d.actionDigestSha256 request.actionPlan
  revision_le : 2 ≤ request.requestRevision

theorem Approving.exact_result (h : Approving state revision record) (hv : Verified d state)
    (hr : request ∈ state.ledger.requests) (happroved : request.state = .approved) :
    ∃ result, ExactResult d request record result := by
  have hrecord := List.mem_of_getLast? h.last
  obtain ⟨result, hfound⟩ : ∃ result, record.outcome.requestResults.find?
      (fun result => result.requestId = request.requestId) = some result := by
    refine Option.isSome_iff_exists.1 (List.find?_isSome.2 ?_)
    obtain ⟨result, hresult, hid⟩ := List.mem_map.1 (h.only request hr happroved)
    exact ⟨result, hresult, decide_eq_true hid⟩
  have hmem := List.mem_of_find?_eq_some hfound
  have hid : result.requestId = request.requestId := by simpa using List.find?_some hfound
  obtain ⟨request', hr', hid', hdigest, hrevision, hvalue⟩ :=
    hv.result_request (List.mem_flatMap.2 ⟨record, hrecord, hmem⟩)
  obtain rfl := hv.request_unique hr' hr (hid'.trans hid)
  refine ⟨result, hfound, DecisionValue.eq_approved (happroved.symm.trans hvalue), hrevision.symm,
    hdigest.symm.trans (hv.ledger_closed.1 request' hr).digest, ?_⟩
  rw [hv.results_eq hrecord] at hmem
  obtain ⟨item, hitem, rfl⟩ := List.mem_map.1 hmem
  have hpos := record.batch.request_revision_pos item hitem
  rw [hrevision]
  exact Nat.succ_le_succ hpos

theorem Approving.outcome (h : Approving state revision record) (hv : Verified d state) :
    record.outcome.runStatus = some .failedWithLimitations ∧
      record.outcome.limitation.map (·.code) = some .externalExecutorUnavailable := by
  have hcommitted := (hv.committed (List.mem_of_getLast? h.last)).2
  rwa [if_pos h.approves] at hcommitted

/-- The evidence of an approved request is exact but for the revision of the run. -/
theorem executionEvidence_eq_ok {approvalRunId : String} {approvalRunRevision : Nat}
    {evaluatedAt : Instant} {found : ApprovalDecisionRecordV2} (h : Approving state revision record)
    (hv : Verified d state) (hr : request ∈ state.ledger.requests) (happroved : request.state = .approved) :
    executionEvidence d state approvalRunId approvalRunRevision request.requestId request.actionPlan
        evaluatedAt request = .ok found ↔ found = record ∧ approvalRunRevision = revision := by
  have hrecord := List.mem_of_getLast? h.last
  have hclosed := hv.decisions_closed record hrecord
  obtain ⟨result, hresult⟩ := h.exact_result hv hr happroved
  obtain ⟨hstatus, hlimitation⟩ := h.outcome hv
  simp only [executionEvidence, hv.record_filter hrecord (h.only request hr happroved),
    hresult.found, given_bind_eq_ok, Option.some.injEq, require_bind_eq_ok, pure_eq_ok]
  constructor
  · rintro ⟨_, rfl, ⟨-, -, -, hrevision, -⟩, rfl⟩
    exact ⟨rfl, hrevision.symm.trans h.revision⟩
  · rintro ⟨rfl, rfl⟩
    exact ⟨result, rfl, ⟨hresult.decision, hresult.requestRevision, hresult.actionDigest, h.revision,
      hstatus, hlimitation, hclosed.2.2.2.1, hclosed.2.1.2⟩, rfl⟩

theorem liveAuthority_eq_ok {approvalRunId requestId : String} {provider : DecisionAuthorityProvider d}
    {evaluatedAt authorityExpiresAt : Instant} {saved : ApprovalAuthoritySnapshotV2} :
    liveAuthority d approvalRunId requestId provider evaluatedAt request saved = .ok authorityExpiresAt ↔
      (∃ live, provider.resolveActor saved.actor.actorId evaluatedAt = some live ∧
        live.resolvedAt = evaluatedAt ∧ live.providerId = saved.providerId ∧
        live.providerVersion = saved.providerVersion ∧ live.actor = saved.actor) ∧
      saved.actor.authorityExpiresAt = some authorityExpiresAt ∧ evaluatedAt < authorityExpiresAt ∧
      saved.actor.verificationStatus = .verified ∧ saved.actor.revocationStatus = .notRevoked ∧
      request.requiredAuthorityScope ∈ saved.actor.authorityScopes := by
  simp only [liveAuthority, given_bind_eq_ok, require_bind_eq_ok, pure_eq_ok]
  constructor
  · rintro ⟨live, hlive, ⟨hresolved, hid, hversion, hactor⟩, -, expiry, hexpiry,
      ⟨hverified, hrevocation, hlt, hscope⟩, rfl⟩
    rw [hactor] at hexpiry hverified hrevocation hscope
    exact ⟨⟨live, hlive, hresolved, hid, hversion, hactor⟩, hexpiry, hlt, hverified, hrevocation, hscope⟩
  · rintro ⟨⟨live, hlive, hresolved, hid, hversion, hactor⟩, hexpiry, hlt, hverified, hrevocation, hscope⟩
    refine ⟨live, hlive, ⟨hresolved, hid, hversion, hactor⟩, ?_, authorityExpiresAt, ?_, ?_, rfl⟩
    · rw [hactor, hrevocation]
      simp
    · rw [hactor, hexpiry]
    · rw [hactor]
      exact ⟨hverified, hrevocation, hlt, hscope⟩

theorem recheckState_eq_ok (hv : Verified d state) : recheckState d state = .ok () := by
  have haccepted := (@readApprovalStateV2_eq_ok d state.ledger state state.decisionRecords
    state.domainAuditEvents state.reissueRecords).2 ⟨by rw [← hv.ledger_sha256], hv⟩
  simp only [readApprovalStateV2, check_bind_eq_ok] at haccepted
  simp only [recheckState, check_bind_eq_ok, require_eq_ok]
  exact ⟨hv.ledger_sha256, haccepted.2.1⟩

end

/-! ## What can have changed -/

/-- The request is approved in this very revision, and the actor of the decision answers as it was
saved, in time. -/
structure ExecutionAdmitted (d : Digests) (published : Published) (state : VerifiedApprovalStateV2)
    (approvalRunId : String) (approvalRunRevision : Nat) (requestId : String)
    (expectedActionPlan : CanonicalActionPlanV2) (provider : DecisionAuthorityProvider d)
    (evaluatedAt : Instant) (request : ApprovalRequestV2) (record : ApprovalDecisionRecordV2)
    (authorityExpiresAt : Instant) : Prop where
  runId : state.ledger.runId = approvalRunId
  request_mem : request ∈ state.ledger.requests
  request_id : request.requestId = requestId
  approved : request.state = .approved
  plan : request.actionPlan = expectedActionPlan
  revision : approvalRunRevision = published.revision
  last : state.decisionRecords.getLast? = some record
  live : ∃ live, provider.resolveActor record.authoritySnapshot.actor.actorId evaluatedAt = some live ∧
    live.resolvedAt = evaluatedAt ∧ live.providerId = record.authoritySnapshot.providerId ∧
    live.providerVersion = record.authoritySnapshot.providerVersion ∧
    live.actor = record.authoritySnapshot.actor
  expiry : record.authoritySnapshot.actor.authorityExpiresAt = some authorityExpiresAt
  in_time : evaluatedAt < min request.expiresAt authorityExpiresAt

section

variable {d : Digests} {published : Published} {state : VerifiedApprovalStateV2}
variable {record : ApprovalDecisionRecordV2} {request : ApprovalRequestV2}

theorem Reachable.approving (hread : Reachable d published)
    (hstate : published.approvals = .authoritativeV2 state) (hr : request ∈ state.ledger.requests)
    (happroved : request.state = .approved) : ∃ record, Approving state published.revision record := by
  have hagrees := hread.agrees state hstate
  cases hstatus : published.runStatus with
  | approvalRequired =>
    rw [hstatus] at hagrees
    exact absurd happroved (hagrees.2 request hr)
  | completed =>
    rw [hstatus] at hagrees
    rcases hagrees request hr with h | h <;> rw [happroved] at h <;> cases h
  | failedWithLimitations =>
    rw [hstatus] at hagrees
    exact hagrees

/-- The actor of the last decision had all that an execution needs, when it decided. -/
theorem Reachable.saved_authority (hread : Reachable d published)
    (hstate : published.approvals = .authoritativeV2 state) (hr : request ∈ state.ledger.requests)
    (happroved : request.state = .approved) (happroving : Approving state published.revision record) :
    record.authoritySnapshot.actor.verificationStatus = .verified ∧
      record.authoritySnapshot.actor.revocationStatus = .notRevoked ∧
      request.requiredAuthorityScope ∈ record.authoritySnapshot.actor.authorityScopes := by
  have hv := (hread.sound.2 state hstate).toVerified
  have hrecord := List.mem_of_getLast? happroving.last
  obtain ⟨result, hresult⟩ := happroving.exact_result hv hr happroved
  have hmem := List.mem_of_find?_eq_some hresult.found
  have hid : result.requestId = request.requestId := by simpa using List.find?_some hresult.found
  rw [hv.results_eq hrecord] at hmem
  obtain ⟨item, hitem, rfl⟩ := List.mem_map.1 hmem
  obtain ⟨other, ho, hby⟩ := hread.authorized state hstate record hrecord item hitem
  obtain rfl := hv.request_unique ho hr (hby.requestId.symm.trans hid)
  have hdecision : item.decision = .approved := hresult.decision
  obtain ⟨hverified, hrevocation, -, hscope⟩ := hby.committed.authorized.2 (by simp [hdecision])
  have hactor : record.authoritySnapshot.actor = record.batch.actor :=
    (hv.decisions_closed record hrecord).2.2.1.2.2.2.2.1
  rw [hactor]
  exact ⟨hverified, hrevocation, hscope⟩

def sampleBinding : ApprovalExecutionRecheckBindingV2 :=
  recheckBinding sampleDigests sampleDecided "run-1" 2 "pointer" "manifest" 40 sampleApproved
    (decisionUpdate sampleDigests sampleState sampleBatch (sampleSnapshot 20)).decisionRecord 90

end

end PokerDeliberation.ApprovalLedger
