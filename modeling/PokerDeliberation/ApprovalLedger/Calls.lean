import PokerDeliberation.ApprovalLedger.Lifecycle
import PokerDeliberation.Lib.Optimistic
import PokerDeliberation.Terminal.Publish

/-!
# Concurrent calls

A batch that is sent again is answered as it was the first time. With that,
calls of `decide_approvals` and `reissue_approvals` on one run may interleave in
any way, and their publications may fail before or after they took effect.
-/

namespace PokerDeliberation.ApprovalLedger

open Lib Approvals

inductive ApprovalCall where
  | decide (batch : ApprovalDecisionBatch)
  | reissue (batch : ApprovalReissueBatchV2)

/-- What a call meets: who answers for actors, the clock, and the digests of what it reads. -/
structure Conditions (d : Digests) where
  provider : DecisionAuthorityProvider d
  observedAt : Instant
  previousManifestSha256 : Sha256
  previousPointerSha256 : Sha256

namespace ApprovalCall

/-- The idempotency key, among those of decisions or of reissues. -/
def key : ApprovalCall → String ⊕ String
  | decide batch => .inl batch.idempotencyKey
  | reissue batch => .inr batch.idempotencyKey

/-- The outcome that is committed under the key of the call. -/
def lookup (call : ApprovalCall) (read : Published) : Option Outcome :=
  match read.approvals with
  | .historicalV1 _ => none
  | .authoritativeV2 state =>
    match call with
    | decide batch =>
      (state.decisionRecords.find? fun record => record.idempotencyKey = batch.idempotencyKey).map
        fun record => .decision record.outcome
    | reissue batch =>
      (state.reissueRecords.find? fun record => record.idempotencyKey = batch.idempotencyKey).map
        fun record => .reissue record.outcome

variable (d : Digests)

def prepare (call : ApprovalCall) (read : Published) (conditions : Conditions d) :
    Except ApprovalError (Preparation d) :=
  match call with
  | decide batch => decideApprovals d read batch conditions.provider
  | reissue batch => reissueApprovals d read batch conditions.observedAt
      conditions.previousManifestSha256 conditions.previousPointerSha256

/-- `_approval_failure_from_product_error`, and the same of a reissue. -/
def failureFromProductError (call : ApprovalCall) (error : Terminal.ProductRunFailureCode)
    (observedRevision : Option Nat) : ApprovalDecisionFailureV2 :=
  let raised (subject runId callId idempotencyKey : String) (ledgerRevision : Nat) :=
    let (code, message) :=
      if error = .runLocked then
        (ApprovalFailureCode.runLocked, s!"Approval {subject} authority is currently locked.")
      else if error = .runConflict ∨ error = .idempotencyConflict then
        (.staleDecision, s!"Approval {subject} lost the exact current-revision CAS.")
      else
        (.resumeTransactionFailed, s!"Approval {subject} transaction failed without an external effect.")
    failure d code message (some runId) none (some callId) (some idempotencyKey) observedRevision
      (some ledgerRevision)
  match call with
  | decide batch => raised "decision" batch.runId batch.decisionId batch.idempotencyKey
      batch.expectedLedgerRevision
  | reissue batch => raised "reissue" batch.runId batch.reissueId batch.idempotencyKey
      batch.expectedLedgerRevision

/-- What a call answers of the winner it reads after its publication has failed. -/
def settle (call : ApprovalCall) (winner : Published) (conditions : Conditions d)
    (error : Terminal.ProductRunFailureCode) (observedRevision : Option Nat) :
    Except ApprovalError Outcome :=
  let otherwise := ApprovalError.decision (call.failureFromProductError d error observedRevision)
  match call with
  | decide batch =>
    match winner.approvals with
    | .historicalV1 _ => .error (.value "KeyError")
    | .authoritativeV2 state =>
      match validateApprovalDecision d state batch winner.revision conditions.provider batch.decisionAt with
      | .ok (.replay _ _ outcome) => .ok (.decision outcome)
      | .error (.decision rejected) => .error (.decision rejected)
      | _ => .error otherwise
  | reissue batch =>
    match validateApprovalReissue d winner.sources.1 winner.sources.2 batch winner.revision with
    | .ok (.replay outcome) => .ok (.reissue outcome)
    | .error (.decision rejected) => .error (.decision rejected)
    | _ => .error otherwise

/-- The call is in the logs of the revision, with this outcome. -/
def Recorded (call : ApprovalCall) (read : Published) (outcome : Outcome) : Prop :=
  ∃ state, read.approvals = .authoritativeV2 state ∧
    match call with
    | decide batch => ∃ record ∈ state.decisionRecords, record.idempotencyKey = batch.idempotencyKey ∧
        (record.actorSha256 = d.approvalActorSha256 batch.actor ∧
          record.batchSha256 = d.approvalDecisionBatchSha256 batch) ∧ outcome = .decision record.outcome
    | reissue batch => ∃ record ∈ state.reissueRecords, record.idempotencyKey = batch.idempotencyKey ∧
        record.batchSha256 = d.approvalReissueBatchSha256 batch ∧ outcome = .reissue record.outcome

end ApprovalCall

/-- The calls on one run. -/
def approvalCalls (d : Digests) :
    Optimistic Published ApprovalCall (Prepared d) Outcome ApprovalError where
  version := (·.revision)
  next := (·.published)
  outcome := (·.outcome)
  lookup := ApprovalCall.lookup
  Replays call read outcome := ∃ conditions, call.prepare d read conditions = .ok (.replay outcome)
  Refuses call read e := ∃ conditions, call.prepare d read conditions = .error e
  Prepares call read prepared := ∃ conditions, call.prepare d read conditions = .ok (.next prepared)
  Confirmed prepared := ∃ reverifier publishedAt,
    prepared.authorityVerifier reverifier publishedAt = .ok ()
  Settles call winner answer := ∃ conditions error observedRevision,
    call.settle d winner conditions error observedRevision = answer

/-! ## Sending again -/

section

variable {d : Digests} {read next : Published} {state : VerifiedApprovalStateV2}
variable {prior : Option VerifiedApprovalStateV2} {batch : ApprovalDecisionBatch}
variable {reissue : ApprovalReissueBatchV2} {legacyRequests : List ApprovalRequest}
variable {observedRunRevision : Nat} {provider : DecisionAuthorityProvider d} {evaluatedAt : Instant}

theorem Verified.keys_nodup (h : Verified d state) :
    (state.decisionRecords.map (·.idempotencyKey)).Nodup :=
  admitted_nodup.1 (h.decision_links.imp fun _ _ _ hlink => hlink.key_fresh)

theorem Verified.reissue_keys_nodup (h : Verified d state) :
    (state.reissueRecords.map (·.idempotencyKey)).Nodup :=
  admitted_nodup.1 (h.reissue_links.imp fun _ _ _ hlink => hlink.key_fresh)

/-- A batch with the key of a record is answered with its outcome, if it is the batch of the record. -/
theorem validateApprovalDecision_of_key (hv : Verified d state) {record : ApprovalDecisionRecordV2}
    (hrecord : record ∈ state.decisionRecords) (hkey : record.idempotencyKey = batch.idempotencyKey) :
    validateApprovalDecision d state batch observedRunRevision provider evaluatedAt =
      if record.actorSha256 = d.approvalActorSha256 batch.actor ∧
          record.batchSha256 = d.approvalDecisionBatchSha256 batch then
        .ok (.replay (d.approvalActorSha256 batch.actor) (d.approvalDecisionBatchSha256 batch)
          record.outcome)
      else .error (rejection d batch observedRunRevision .idempotencyConflict
        "Decision idempotency key is bound to different canonical data." none
        state.ledger.ledgerRevision) := by
  have hfound : (state.decisionRecords.find? fun other =>
      other.idempotencyKey = batch.idempotencyKey) = some record := by
    rw [← hkey]
    exact find?_key_eq hv.keys_nodup hrecord
  simp only [validateApprovalDecision, hfound]
  exact require_bind_pure

theorem validateApprovalReissue_of_key {record : ApprovalReissueRecordV2}
    (hnodup : ((priorReissues prior).map (·.idempotencyKey)).Nodup)
    (hrecord : record ∈ priorReissues prior) (hkey : record.idempotencyKey = reissue.idempotencyKey) :
    validateApprovalReissue d prior legacyRequests reissue observedRunRevision =
      if record.batchSha256 = d.approvalReissueBatchSha256 reissue then .ok (.replay record.outcome)
      else .error (reissueRejection d reissue observedRunRevision .idempotencyConflict
        "Reissue idempotency key is bound to different canonical data." none
        ((prior.map (·.ledger.ledgerRevision)).getD 0)) := by
  have hfound : ((priorReissues prior).find? fun other =>
      other.idempotencyKey = reissue.idempotencyKey) = some record := by
    rw [← hkey]
    exact find?_key_eq hnodup hrecord
  simp only [validateApprovalReissue, hfound]
  exact require_bind_pure

/-- Only the record of its key answers a batch again. -/
theorem validateApprovalDecision_eq_replay {actorSha256 batchSha256 : Sha256}
    {outcome : ApprovalDecisionOutcome}
    (h : validateApprovalDecision d state batch observedRunRevision provider evaluatedAt =
      .ok (.replay actorSha256 batchSha256 outcome)) :
    ∃ record ∈ state.decisionRecords, record.idempotencyKey = batch.idempotencyKey ∧
      (record.actorSha256 = d.approvalActorSha256 batch.actor ∧
        record.batchSha256 = d.approvalDecisionBatchSha256 batch) ∧ outcome = record.outcome := by
  unfold validateApprovalDecision at h
  split at h
  next record hfound =>
    simp only [require_bind_eq_ok, pure_eq_ok, ApprovalDecisionAdmissionV2.replay.injEq] at h
    have hkey := List.find?_some hfound
    exact ⟨record, List.mem_of_find?_eq_some hfound, by simpa using hkey, h.1, h.2.2.2.symm⟩
  next => simp only [bind_eq_ok, pure_eq_ok, reduceCtorEq, and_false, exists_false] at h

theorem validateApprovalReissue_eq_replay {outcome : ApprovalReissueOutcomeV2}
    (h : validateApprovalReissue d prior legacyRequests reissue observedRunRevision =
      .ok (.replay outcome)) :
    ∃ record ∈ priorReissues prior, record.idempotencyKey = reissue.idempotencyKey ∧
      record.batchSha256 = d.approvalReissueBatchSha256 reissue ∧ outcome = record.outcome := by
  unfold validateApprovalReissue at h
  simp only at h
  split at h
  next record hfound =>
    simp only [require_bind_eq_ok, pure_eq_ok, ApprovalReissueAdmissionV2.replay.injEq] at h
    have hkey := List.find?_some hfound
    exact ⟨record, List.mem_of_find?_eq_some hfound, by simpa using hkey, h.1, h.2.symm⟩
  next => simp only [bind_eq_ok, pure_eq_ok, reduceCtorEq, and_false, exists_false] at h

/-! ## What is recorded -/

/-- What the validators answer again. -/
def ApprovalCall.Replayed (d : Digests) (call : ApprovalCall) (read : Published)
    (conditions : Conditions d) (outcome : Outcome) : Prop :=
  match call with
  | .decide batch => ∃ state actorSha256 batchSha256 answered, read.approvals = .authoritativeV2 state ∧
      validateApprovalDecision d state batch read.revision conditions.provider batch.decisionAt =
        .ok (.replay actorSha256 batchSha256 answered) ∧ outcome = .decision answered
  | .reissue batch => ∃ answered,
      validateApprovalReissue d read.sources.1 read.sources.2 batch read.revision =
        .ok (.replay answered) ∧ outcome = .reissue answered

variable {call : ApprovalCall} {outcome : Outcome} {conditions : Conditions d}

theorem prepare_eq_replayed : call.prepare d read conditions = .ok (.replay outcome) ↔
    call.Replayed d read conditions outcome := by
  rcases call with batch | batch
  · rcases read with ⟨revision, runStatus, legacy | state⟩
    · simp [ApprovalCall.prepare, ApprovalCall.Replayed, decideApprovals]
    · simp only [ApprovalCall.prepare, decideApprovals, bind_eq_ok (x := validateApprovalDecision ..)]
      constructor
      · rintro ⟨_ | ⟨actorSha256, batchSha256, answered⟩, hadmission, h⟩
        · simp only [bind_eq_ok, pure_eq_ok, reduceCtorEq, and_false, exists_false] at h
        · obtain rfl := Preparation.replay.inj (pure_eq_ok.1 h)
          exact ⟨state, actorSha256, batchSha256, answered, rfl, hadmission, rfl⟩
      · rintro ⟨_, actorSha256, batchSha256, answered, hstate, hadmission, rfl⟩
        obtain rfl := PublishedApprovals.authoritativeV2.inj hstate
        exact ⟨_, hadmission, rfl⟩
  · simp only [ApprovalCall.prepare, reissueApprovals, bind_eq_ok (x := validateApprovalReissue ..)]
    constructor
    · rintro ⟨_ | answered, hadmission, h⟩
      · simp only [bind_eq_ok, pure_eq_ok, reduceCtorEq, and_false, exists_false] at h
      · obtain rfl := Preparation.replay.inj (pure_eq_ok.1 h)
        exact ⟨answered, hadmission, rfl⟩
    · rintro ⟨answered, hadmission, rfl⟩
      exact ⟨_, hadmission, rfl⟩

theorem settle_eq_replayed {error : Terminal.ProductRunFailureCode} {observedRevision : Option Nat} :
    call.settle d read conditions error observedRevision = .ok outcome ↔
      call.Replayed d read conditions outcome := by
  rcases call with batch | batch
  · rcases read with ⟨revision, runStatus, legacy | state⟩
    · simp [ApprovalCall.settle, ApprovalCall.Replayed]
    · simp only [ApprovalCall.settle]
      constructor
      · intro h
        split at h
        next actorSha256 batchSha256 answered hadmission =>
          exact ⟨state, actorSha256, batchSha256, answered, rfl, hadmission, (Except.ok.inj h).symm⟩
        next => cases h
        next => cases h
      · rintro ⟨_, actorSha256, batchSha256, answered, hstate, hadmission, rfl⟩
        obtain rfl := PublishedApprovals.authoritativeV2.inj hstate
        rw [hadmission]
  · simp only [ApprovalCall.settle]
    constructor
    · intro h
      split at h
      next answered hadmission => exact ⟨answered, hadmission, (Except.ok.inj h).symm⟩
      next => cases h
      next => cases h
    · rintro ⟨answered, hadmission, rfl⟩
      rw [hadmission]

theorem mem_priorReissues {record : ApprovalReissueRecordV2} :
    record ∈ priorReissues read.sources.1 ↔
      ∃ state, read.approvals = .authoritativeV2 state ∧ record ∈ state.reissueRecords := by
  rcases read with ⟨revision, runStatus, legacy | state⟩
  · simp [Published.sources, priorReissues]
  · simp [Published.sources, priorReissues]

theorem Published.Sound.prior_nodup (hs : read.Sound d) :
    ((priorReissues read.sources.1).map (·.idempotencyKey)).Nodup := by
  rcases read with ⟨revision, runStatus, legacy | state⟩
  · exact List.nodup_nil
  · exact (hs.2 state rfl).reissue_keys_nodup

/-- A call is answered again exactly if it is recorded, with the outcome of its record. -/
theorem replayed_iff_recorded (hs : read.Sound d) :
    call.Replayed d read conditions outcome ↔ call.Recorded d read outcome := by
  rcases call with batch | batch
  · constructor
    · rintro ⟨state, _, _, answered, hstate, hadmission, rfl⟩
      obtain ⟨record, hrecord, hkey, hsame, rfl⟩ := validateApprovalDecision_eq_replay hadmission
      exact ⟨state, hstate, record, hrecord, hkey, hsame, rfl⟩
    · rintro ⟨state, hstate, record, hrecord, hkey, hsame, rfl⟩
      refine ⟨state, d.approvalActorSha256 batch.actor, d.approvalDecisionBatchSha256 batch,
        record.outcome, hstate, ?_, rfl⟩
      rw [validateApprovalDecision_of_key (hs.2 state hstate).toVerified hrecord hkey, if_pos hsame]
  · constructor
    · rintro ⟨answered, hadmission, rfl⟩
      obtain ⟨record, hrecord, hkey, hsame, rfl⟩ := validateApprovalReissue_eq_replay hadmission
      obtain ⟨state, hstate, hrecord⟩ := mem_priorReissues.1 hrecord
      exact ⟨state, hstate, record, hrecord, hkey, hsame, rfl⟩
    · rintro ⟨state, hstate, record, hrecord, hkey, hsame, rfl⟩
      refine ⟨record.outcome, ?_, rfl⟩
      rw [validateApprovalReissue_of_key hs.prior_nodup (mem_priorReissues.2 ⟨state, hstate, hrecord⟩) hkey,
        if_pos hsame]

theorem prepare_eq_replay (hs : read.Sound d) :
    call.prepare d read conditions = .ok (.replay outcome) ↔ call.Recorded d read outcome :=
  prepare_eq_replayed.trans (replayed_iff_recorded hs)

theorem settle_eq_ok (hs : read.Sound d) {error : Terminal.ProductRunFailureCode}
    {observedRevision : Option Nat} :
    call.settle d read conditions error observedRevision = .ok outcome ↔
      call.Recorded d read outcome :=
  settle_eq_replayed.trans (replayed_iff_recorded hs)

/-- The lookup after a publication finds what is recorded. -/
theorem lookup_of_recorded (hs : read.Sound d) (h : call.Recorded d read outcome) :
    call.lookup read = some outcome := by
  obtain ⟨state, hstate, h⟩ := h
  have hv := (hs.2 state hstate).toVerified
  simp only [ApprovalCall.lookup, hstate]
  rcases call with batch | batch
  · obtain ⟨record, hrecord, hkey, -, rfl⟩ := h
    simp only [← hkey, find?_key_eq hv.keys_nodup hrecord, Option.map_some]
  · obtain ⟨record, hrecord, hkey, -, rfl⟩ := h
    simp only [← hkey, find?_key_eq hv.reissue_keys_nodup hrecord, Option.map_some]

theorem lookup_congr {other : ApprovalCall} (hkey : call.key = other.key) :
    call.lookup read = other.lookup read := by
  rcases call with batch | batch <;> rcases other with batch' | batch'
  · simp only [ApprovalCall.lookup, Sum.inl.inj hkey]
  · cases hkey
  · cases hkey
  · simp only [ApprovalCall.lookup, Sum.inr.inj hkey]

theorem recorded_of_extends {later : VerifiedApprovalStateV2}
    (hstate : read.approvals = .authoritativeV2 state) (hlater : next.approvals = .authoritativeV2 later)
    (hext : Extends state later) (h : call.Recorded d read outcome) : call.Recorded d next outcome := by
  obtain ⟨state', hstate', h⟩ := h
  obtain rfl := PublishedApprovals.authoritativeV2.inj (hstate.symm.trans hstate')
  refine ⟨later, hlater, ?_⟩
  rcases call with batch | batch
  · obtain ⟨record, hrecord, h⟩ := h
    exact ⟨record, hext.decisions.subset hrecord, h⟩
  · obtain ⟨record, hrecord, h⟩ := h
    exact ⟨record, hext.reissues.subset hrecord, h⟩

theorem Step.recorded_stays (hs : read.Sound d) (hstep : Step d read next)
    (h : call.Recorded d read outcome) : call.Recorded d next outcome := by
  obtain ⟨state, hstate, -⟩ := id h
  obtain ⟨-, later, hlater, hext⟩ := hstep.extends hs
  exact recorded_of_extends hstate hlater (hext state hstate) h

/-- What a call prepares records it. -/
theorem prepared_recorded (hs : read.Sound d) {prepared : Prepared d}
    (h : call.prepare d read conditions = .ok (.next prepared)) :
    prepared.published.Sound d ∧ call.Recorded d prepared.published prepared.outcome := by
  rcases call with batch | batch
  · obtain ⟨state, snapshot, requests, h⟩ := (decideApprovals_eq_next hs).1 h
    refine ⟨h.sound hs, ?_⟩
    rw [h.published, h.outcome]
    exact ⟨_, rfl, (decisionUpdate d state batch snapshot).decisionRecord,
      List.mem_append_right _ (List.mem_singleton_self _), rfl, ⟨rfl, rfl⟩, rfl⟩
  · obtain ⟨sources, update, h⟩ := reissueApprovals_eq_next hs h
    have hb := h.built
    obtain ⟨hbatch, -, -⟩ := hb.record_batch
    obtain ⟨-, -, ⟨hdigest, -, -⟩, ⟨-, -, hkey, -⟩, -⟩ := hb.record_closed
    refine ⟨h.sound hs, ?_⟩
    rw [h.published, h.outcome, hb.next_eq]
    refine ⟨_, rfl, update.record, ?_, ?_, ?_, by rw [hb.record_outcome]⟩
    · exact List.mem_append_right _ (List.mem_singleton_self _)
    · rw [← hkey, hbatch]
    · rw [hdigest, hbatch]

theorem prepared_step {prepared : Prepared d}
    (h : call.prepare d read conditions = .ok (.next prepared)) {reverifier : DecisionAuthorityProvider d}
    {publishedAt : Instant} (hconfirmed : prepared.authorityVerifier reverifier publishedAt = .ok ()) :
    Step d read prepared.published := by
  rcases call with batch | batch
  · exact .decision h hconfirmed
  · exact .reissue h

theorem approvalCalls_step (h : (approvalCalls d).Next read next) : Step d read next := by
  obtain ⟨call, prepared, ⟨conditions, hprepare⟩, ⟨reverifier, publishedAt, hconfirmed⟩, rfl⟩ := h
  exact prepared_step hprepare hconfirmed

theorem approvalCalls_run (h : (approvalCalls d).Run read next) : Run d read next := by
  induction h with
  | refl => exact .refl
  | tail _ hnext ih => exact ih.tail (approvalCalls_step hnext)

theorem approvalCalls_lawful (d : Digests) : (approvalCalls d).Lawful (Published.Sound d) where
  sound hs hnext := (approvalCalls_step hnext).sound hs
  version hs hnext := ((approvalCalls_step hnext).extends hs).1
  recorded hs hprepares := by
    obtain ⟨conditions, hprepare⟩ := hprepares
    obtain ⟨hsound, hrecorded⟩ := prepared_recorded hs hprepare
    exact ⟨conditions, (prepare_eq_replay hsound).2 hrecorded⟩
  stays hs hnext hreplays := by
    obtain ⟨conditions, hreplay⟩ := hreplays
    have hstep := approvalCalls_step hnext
    exact ⟨conditions, (prepare_eq_replay (hstep.sound hs)).2
      (hstep.recorded_stays hs ((prepare_eq_replay hs).1 hreplay))⟩
  lookup hs hreplays := by
    obtain ⟨conditions, hreplay⟩ := hreplays
    exact lookup_of_recorded hs ((prepare_eq_replay hs).1 hreplay)
  settles hs hsettles := by
    obtain ⟨conditions, error, observedRevision, hsettle⟩ := hsettles
    exact ⟨conditions, (prepare_eq_replay hs).2 ((settle_eq_ok hs).1 hsettle)⟩

end

/-! ## Any interleaving -/

section

variable {d : Digests} {ι : Type} [DecidableEq ι] {call : ι → ApprovalCall} {read : Published}
variable {system later : Optimistic.System ι Published (Prepared d) Outcome ApprovalError}

/-- What the logs of a state make of batches that come again: the outcome their record had, and of a
different batch under its key a refusal, whoever answers for the actors then. -/
structure AnsweredAgain (d : Digests) (state : VerifiedApprovalStateV2) (read : Published)
    (ledgerRevision : Nat) : Prop where
  decide : ∀ record ∈ state.decisionRecords, ∀ batch : ApprovalDecisionBatch,
    batch.idempotencyKey = record.idempotencyKey → ∀ provider, decideApprovals d read batch provider =
      if record.actorSha256 = d.approvalActorSha256 batch.actor ∧
          record.batchSha256 = d.approvalDecisionBatchSha256 batch then
        .ok (.replay (.decision record.outcome))
      else .error (rejection d batch read.revision .idempotencyConflict
        "Decision idempotency key is bound to different canonical data." none ledgerRevision)
  reissue : ∀ record ∈ state.reissueRecords, ∀ batch : ApprovalReissueBatchV2,
    batch.idempotencyKey = record.idempotencyKey → ∀ observedAt manifestSha256 pointerSha256,
      reissueApprovals d read batch observedAt manifestSha256 pointerSha256 =
        if record.batchSha256 = d.approvalReissueBatchSha256 batch then
          .ok (.replay (.reissue record.outcome))
        else .error (reissueRejection d batch read.revision .idempotencyConflict
          "Reissue idempotency key is bound to different canonical data." none ledgerRevision)

/-- Later in the run, whatever was published is answered again as it was the first time. -/
theorem sent_again {next : Published} (hread : Reachable d read) (hrun : Run d read next)
    {state : VerifiedApprovalStateV2} (hstate : read.approvals = .authoritativeV2 state) :
    ∃ later, next.approvals = .authoritativeV2 later ∧
      AnsweredAgain d state next later.ledger.ledgerRevision := by
  have hs := hread.sound
  obtain ⟨later, hlater, hext⟩ := hrun.extends hs hstate
  have hv := ((Run.sound hs hrun).2 later hlater).toVerified
  refine ⟨later, hlater, fun record hrecord batch hkey provider => ?_,
    fun record hrecord batch hkey observedAt manifestSha256 pointerSha256 => ?_⟩
  · simp only [decideApprovals, hlater,
      validateApprovalDecision_of_key hv (hext.decisions.subset hrecord) hkey.symm]
    split <;> rfl
  · have hsources : next.sources = (some later, []) := by rw [Published.sources, hlater]
    have hnodup : ((priorReissues (some later)).map (·.idempotencyKey)).Nodup := hv.reissue_keys_nodup
    simp only [reissueApprovals, hsources,
      validateApprovalReissue_of_key hnodup (hext.reissues.subset hrecord) hkey.symm]
    split <;> rfl

theorem sample_sent_again :
    ∃ later, sampleDecision.published.approvals = .authoritativeV2 later ∧
      AnsweredAgain sampleDigests
        (decidedState sampleDigests sampleState sampleBatch (sampleSnapshot 20))
        sampleDecision.published later.ledger.ledgerRevision :=
  sent_again sample_decided_reachable .refl rfl

/-- However calls interleave, what they publish is a sequential run; what a call is answered is
recorded for it, calls with one key are answered alike, and a publication is always found again. -/
theorem concurrent_calls (hread : Reachable d read)
    (hreach : (approvalCalls d).Reaches call read system) :
    Run d read system.current ∧
      (∀ i outcome, system.phase i = .answered (.ok outcome) →
        (call i).Recorded d system.current outcome) ∧
      (∀ i j outcome outcome', (call i).key = (call j).key → system.phase i = .answered (.ok outcome) →
        system.phase j = .answered (.ok outcome') → outcome = outcome') ∧
      ∀ i, system.phase i ≠ .unverified := by
  have hs := hread.sound
  have hinv := (approvalCalls_lawful d).reaches hs hreach
  have hcurrent := (approvalCalls_lawful d).run_sound hs hinv.run
  have hrecorded : ∀ i outcome, system.phase i = .answered (.ok outcome) →
      (call i).Recorded d system.current outcome := by
    intro i outcome hphase
    have hholds := hinv.holds i
    rw [hphase] at hholds
    obtain ⟨conditions, hreplay⟩ := hholds
    exact (prepare_eq_replay hcurrent).1 hreplay
  refine ⟨approvalCalls_run hinv.run, hrecorded, fun i j outcome outcome' hkey hi hj => ?_,
    fun i hphase => ?_⟩
  · have hfound := lookup_of_recorded hcurrent (hrecorded i outcome hi)
    rw [lookup_congr hkey, lookup_of_recorded hcurrent (hrecorded j outcome' hj)] at hfound
    exact (Option.some.inj hfound).symm
  · have hholds := hinv.holds i
    rw [hphase] at hholds
    exact hholds

def sampleConditions : Conditions sampleDigests := ⟨sampleProvider, 125, "manifest", "pointer"⟩

/-- The approval and the reissue of the sample request at once. -/
def sampleCall (first : Bool) : ApprovalCall := if first then .decide sampleBatch else .reissue sampleReissue

/-- Both have read the first revision. -/
def sampleSystem : Optimistic.System Bool Published (Prepared sampleDigests) Outcome ApprovalError :=
  (Optimistic.System.turn ⟨samplePublished, fun _ => .waiting⟩ true
    (.prepared samplePublished sampleDecision)).turn false (.prepared samplePublished sampleReissued)

theorem sampleSystem_reached :
    (approvalCalls sampleDigests).Reaches sampleCall samplePublished sampleSystem := by
  have hfirst : (approvalCalls sampleDigests).Step sampleCall ⟨samplePublished, fun _ => .waiting⟩
      (Optimistic.System.turn ⟨samplePublished, fun _ => .waiting⟩ true
        (.prepared samplePublished sampleDecision)) :=
    .prepare rfl ⟨sampleConditions, sample_decided⟩
  exact (Relation.ReflTransGen.single hfirst).tail (.prepare rfl ⟨sampleConditions, rfl⟩)

theorem sample_concurrent :
    Run sampleDigests samplePublished sampleSystem.current ∧
      (∀ i outcome, sampleSystem.phase i = .answered (.ok outcome) →
        (sampleCall i).Recorded sampleDigests sampleSystem.current outcome) ∧
      (∀ i j outcome outcome', (sampleCall i).key = (sampleCall j).key →
        sampleSystem.phase i = .answered (.ok outcome) →
          sampleSystem.phase j = .answered (.ok outcome') → outcome = outcome') ∧
      ∀ i, sampleSystem.phase i ≠ .unverified :=
  concurrent_calls sample_reachable sampleSystem_reached

/-- A call whose publication took effect and was lost is answered with its outcome, whenever it reads
the revision that has won. -/
theorem lost_call_answered (hread : Reachable d read)
    (hreach : (approvalCalls d).Reaches call read system) {i : ι} {seen : Published}
    {prepared : Prepared d} (ready : system.phase i = .prepared seen prepared)
    (same : system.current.revision = seen.revision) (confirmed : (approvalCalls d).Confirmed prepared)
    (hsteps : Relation.ReflTransGen ((approvalCalls d).Step call)
      { system.turn i .lost with current := prepared.published } later)
    (conditions : Conditions d) (error : Terminal.ProductRunFailureCode) (observedRevision : Option Nat) :
    (call i).settle d later.current conditions error observedRevision = .ok prepared.outcome := by
  have hs := hread.sound
  have hlawful := approvalCalls_lawful d
  have hinv := hlawful.reaches hs hreach
  have hstep := @Optimistic.Step.publish _ _ _ _ _ _ _ (approvalCalls d) call system i seen prepared .lost
    ready same confirmed (.inr rfl)
  have hinv' := hlawful.step hs hinv hstep
  obtain ⟨hlater, hrun⟩ := hlawful.steps hs hinv' hsteps
  have hholds := hinv.holds i
  rw [ready] at hholds
  obtain ⟨hseen, -, hprepares⟩ := hholds
  have hreplays := hlawful.run_stays (hlawful.run_sound hs hinv'.run) hrun
    (hlawful.recorded (hlawful.run_sound hs hseen) hprepares)
  obtain ⟨conditions', hreplay⟩ := hreplays
  have hsound := hlawful.run_sound hs hlater.run
  exact (settle_eq_ok hsound).2 ((prepare_eq_replay hsound).1 hreplay)

theorem sample_lost :
    (sampleCall true).settle sampleDigests sampleDecision.published sampleConditions
      .budgetSettlementFailed (some 2) = .ok sampleDecision.outcome :=
  lost_call_answered sample_reachable sampleSystem_reached (rfl : sampleSystem.phase true = _) rfl
    ⟨sampleProvider, 30, rfl⟩ .refl sampleConditions .budgetSettlementFailed (some 2)

end

end PokerDeliberation.ApprovalLedger
