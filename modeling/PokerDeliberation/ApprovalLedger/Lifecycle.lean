import PokerDeliberation.ApprovalLedger.Reissues
import PokerDeliberation.Lib.Register

/-!
# The life of approvals

Whatever sequence of decisions and reissues is published, each step goes on from
a state the reader accepts, and moves the register of requests only as requests
may move: a pending one is approved, rejected, or superseded by a new one.
-/

namespace PokerDeliberation.ApprovalLedger

open Lib Approvals

/-! ## The register of requests -/

/-- What has become of a request. -/
def ApprovalRequestV2.status (request : ApprovalRequestV2) : Status String DecisionValue :=
  match request.state with
  | .pending => .waiting
  | .approved => .settled .approved
  | .rejected => .settled .rejected
  | .superseded => .replaced (request.supersessionReference.getD "")

def ApprovalLedgerV2.register (ledger : ApprovalLedgerV2) : Register String DecisionValue :=
  fun requestId => (ledger.request requestId).map (·.status)

def Published.register (published : Published) : Register String DecisionValue :=
  match published.approvals with
  | .historicalV1 _ => .empty
  | .authoritativeV2 state => state.ledger.register

section

variable {d : Digests} {ledger later : ApprovalLedgerV2} {request : ApprovalRequestV2}
variable {requestId : String}

theorem register_of_mem (hc : ledger.Closed d) (hr : request ∈ ledger.requests) :
    ledger.register request.requestId = some request.status := by
  rw [ApprovalLedgerV2.register, (request_eq_some hc).2 ⟨hr, rfl⟩, Option.map_some]

theorem register_eq_some (hc : ledger.Closed d) {status : Status String DecisionValue} :
    ledger.register requestId = some status ↔
      ∃ request ∈ ledger.requests, request.requestId = requestId ∧ request.status = status := by
  simp only [ApprovalLedgerV2.register, Option.map_eq_some_iff, request_eq_some hc, and_assoc]

theorem register_eq_none (hc : ledger.Closed d) :
    ledger.register requestId = none ↔ ∀ request ∈ ledger.requests, request.requestId ≠ requestId := by
  rw [Option.eq_none_iff_forall_ne_some]
  constructor
  · intro h request hr hid
    exact h _ (hid ▸ register_of_mem hc hr)
  · intro h status hstatus
    obtain ⟨request, hr, hid, -⟩ := (register_eq_some hc).1 hstatus
    exact h request hr hid

theorem status_of_pending (h : request.state = .pending) : request.status = .waiting := by
  rw [ApprovalRequestV2.status, h]

theorem register_congr (hc : ledger.Closed d) (hl : later.Closed d)
    (h : ∀ request, request.requestId = requestId →
      (request ∈ later.requests ↔ request ∈ ledger.requests)) :
    later.register requestId = ledger.register requestId := by
  refine Option.ext fun status => ?_
  rw [register_eq_some hl, register_eq_some hc]
  constructor
  · rintro ⟨request, hr, hid, hstatus⟩
    exact ⟨request, (h request hid).1 hr, hid, hstatus⟩
  · rintro ⟨request, hr, hid, hstatus⟩
    exact ⟨request, (h request hid).2 hr, hid, hstatus⟩

theorem withRequest_register (hc : ledger.Closed d) (hl : (ledger.withRequest request).Closed d) :
    (ledger.withRequest request).register =
      ledger.register.set request.requestId request.status := by
  funext requestId
  by_cases hid : requestId = request.requestId
  · rw [hid, register_of_mem hl (successor_mem_withRequest ..), Register.set_self]
  · rw [Register.set_of_ne hid]
    refine register_congr hc hl fun r hr => ?_
    rw [ApprovalLedgerV2.withRequest, List.mem_append, List.mem_singleton, or_iff_left]
    rintro rfl
    exact hid hr.symm

theorem replaceRequest_register (hc : ledger.Closed d) (hl : (replaceRequest request ledger).Closed d)
    {prior : ApprovalRequestV2} (hp : prior ∈ ledger.requests)
    (hsame : prior.requestId = request.requestId) :
    (replaceRequest request ledger).register =
      ledger.register.set request.requestId request.status := by
  funext requestId
  by_cases hid : requestId = request.requestId
  · rw [hid, register_of_mem hl (mem_replaceRequest.2 (.inr ⟨rfl, prior, hp, hsame⟩)), Register.set_self]
  · rw [Register.set_of_ne hid]
    refine register_congr hc hl fun r hr => ?_
    have hne : r.requestId ≠ request.requestId := fun heq => hid (hr.symm.trans heq)
    rw [mem_replaceRequest, and_iff_left hne, or_iff_left]
    exact fun h => hne (congrArg _ h.1)

theorem withRequest_move (hc : ledger.Closed d) (hl : (ledger.withRequest request).Closed d)
    (hpending : request.state = .pending)
    (hfresh : ∀ r ∈ ledger.requests, r.requestId ≠ request.requestId) :
    Register.Move ledger.register (ledger.withRequest request).register := by
  rw [withRequest_register hc hl, status_of_pending hpending]
  exact .add ((register_eq_none hc).2 hfresh)

/-- The register after a round: the successor waits, and replaces its source if that is a V2 request. -/
theorem RoundStep.move (h : RoundStep d ledger later) :
    Register.Move ledger.register later.register := by
  obtain ⟨batch, revision, projection, ⟨item, source⟩, successor, binding, hc, hwaits, hr, rfl⟩ := h
  rcases source with prior | legacy
  · have hadded : prior ∈ (ledger.withRequest successor).requests := List.mem_append_left _ hwaits.1
    have hwaiting : ledger.register prior.requestId = some .waiting := by
      rw [register_of_mem hc hwaits.1, status_of_pending hwaits.2]
    have hafter := @replaceRequest_register d _
      (supersededRequest (ledger.ledgerRevision + 1) successor.requestId prior) hr.added_closed
      (hr.closed hwaits) prior hadded rfl
    rw [withRequest_register hc hr.added_closed, status_of_pending hr.successor_pending] at hafter
    change Register.Move _ (replaceRequest _ _).register
    rw [hafter]
    exact .replace hwaiting ((register_eq_none hc).2 hr.fresh)
  · exact withRequest_move hc hr.added_closed hr.successor_pending hr.fresh

theorem rounds_moves (h : Relation.ReflTransGen (RoundStep d) ledger later) :
    Register.Moves ledger.register later.register := by
  induction h with
  | refl => exact .refl
  | tail _ hstep ih => exact ih.tail hstep.move

/-- An admitted decision settles its requests one after another. -/
theorem DecisionAdmitted.moves {state : VerifiedApprovalStateV2} {batch : ApprovalDecisionBatch}
    {revision : Nat} {provider : DecisionAuthorityProvider d} {evaluatedAt : Instant}
    {snapshot : ApprovalAuthoritySnapshotV2} {requests : List ApprovalRequestV2}
    (hadm : DecisionAdmitted d state batch revision provider evaluatedAt snapshot requests)
    (hc : state.ledger.Closed d) (hl : (decidedState d state batch snapshot).ledger.Closed d) :
    Register.Moves state.ledger.register (decidedState d state batch snapshot).ledger.register := by
  refine @Register.moves_settle _ _ _ _ _ _ (fun requestId => (batch.decision requestId).getD .rejected)
    hadm.distinct ?_ ?_ ?_
  · intro requestId hmem
    obtain ⟨item, hitem, rfl⟩ := List.mem_map.1 hmem
    obtain ⟨request, hselects⟩ := hadm.select hitem
    rw [← hselects.requestId, register_of_mem hc hselects.mem, status_of_pending hselects.pending]
  · intro requestId hmem
    obtain ⟨item, hitem, rfl⟩ := List.mem_map.1 hmem
    obtain ⟨request, hselects⟩ := hadm.select hitem
    have hvalue := decision_of_mem hadm.distinct hitem
    have hafter := register_of_mem hl (mem_sortRequests.2 (List.mem_map_of_mem hselects.mem))
    rw [decidedRequest_requestId, hselects.requestId] at hafter
    rw [hafter, hvalue, decidedRequest_of_some (hselects.requestId ▸ hvalue)]
    cases item.decision <;> rfl
  · intro requestId hnot
    have hnone : batch.decision requestId = none := by
      refine Option.eq_none_iff_forall_ne_some.2 fun value hvalue => hnot ?_
      obtain ⟨item, hitem, hid, -⟩ := (decision_eq_some hadm.distinct).1 hvalue
      exact List.mem_map.2 ⟨item, hitem, hid⟩
    refine register_congr hc hl fun request hid => ?_
    constructor
    · intro hmem
      obtain ⟨prior, hprior, rfl⟩ := List.mem_map.1 (mem_sortRequests.1 hmem)
      rw [decidedRequest_requestId] at hid
      rwa [decidedRequest_of_none (hid ▸ hnone)]
    · intro hmem
      have hafter := mem_sortRequests.2 (List.mem_map_of_mem
        (f := decidedRequest batch (state.ledger.ledgerRevision + 1)) hmem)
      rwa [decidedRequest_of_none (hid ▸ hnone)] at hafter

theorem Published.register_eq {read : Published} (batch : ApprovalReissueBatchV2) :
    read.register = (reissuedState d read.sources.1 batch).ledger.register := by
  rcases read with ⟨revision, runStatus, requests | state⟩ <;> rfl

/-- The proposals of a new run enter its ledger one after another. -/
theorem proposals_added {runId : String} {proposals : List (ApprovalReissueSuccessorV2 × Instant)}
    (hc : ledger.Closed d) (h : proposals.foldlM (fun ledger proposal => do
      let request ← buildApprovalRequestV2 d runId 1 (ledger.ledgerRevision + 1) proposal.1 proposal.2
      let (added, _, _) ← addApprovalRequestV2 d ledger request
      return added) ledger = .ok later) :
    Register.Moves ledger.register later.register ∧
      later.requests.length = ledger.requests.length + proposals.length := by
  induction proposals generalizing ledger with
  | nil =>
    obtain rfl : ledger = later := by simpa using h
    exact ⟨.refl, rfl⟩
  | cons proposal proposals ih =>
    simp only [List.foldlM_cons, bind_eq_ok, buildApprovalRequestV2, pure_eq_ok] at h
    obtain ⟨added, ⟨request, ⟨_, -, rfl⟩, ⟨added', taken, isNew⟩, hadd, rfl⟩, h⟩ := h
    obtain ⟨⟨rfl, rfl⟩, -, hclosed, hfresh⟩ := addApprovalRequestV2_eq_ok hc (Nat.lt_succ_self _) hadd
    obtain ⟨hmoves, hlength⟩ := ih hclosed h
    refine ⟨.head (withRequest_move hc hclosed rfl hfresh) hmoves, ?_⟩
    rw [hlength, ApprovalLedgerV2.withRequest, List.length_append, List.length_singleton,
      List.length_cons, Nat.add_assoc, Nat.add_comm 1]

/-- A new run is published without logs, and with a request for each proposal. -/
theorem createApprovals_eq_ok {runId : String} {proposals : List (ApprovalReissueSuccessorV2 × Instant)}
    {published : Published} (h : createApprovals d runId proposals = .ok published) :
    ∃ state, Verified d state ∧ published = ⟨1, .approvalRequired, .authoritativeV2 state⟩ ∧
      (state.decisionRecords = [] ∧ state.reissueRecords = []) ∧
        Register.Moves Register.empty state.ledger.register ∧
          state.ledger.requests.length = proposals.length := by
  simp only [createApprovals, bind_eq_ok (x := List.foldlM ..), bind_eq_ok (x := readApprovalStateV2 ..),
    readApprovalStateV2_eq_ok, pure_eq_ok] at h
  obtain ⟨ledger, hledger, state, ⟨rfl, hverified⟩, rfl⟩ := h
  obtain ⟨hmoves, hlength⟩ := proposals_added (emptyState_verified d runId).ledger_closed hledger
  exact ⟨_, hverified, rfl, ⟨rfl, rfl⟩, hmoves, hlength.trans (Nat.zero_add _)⟩

end

/-! ## Steps -/

/-- What a decision is prepared from, and what it publishes. -/
structure PreparedDecision (d : Digests) (read : Published) (batch : ApprovalDecisionBatch)
    (provider : DecisionAuthorityProvider d) (prepared : Prepared d) (state : VerifiedApprovalStateV2)
    (snapshot : ApprovalAuthoritySnapshotV2) (requests : List ApprovalRequestV2) : Prop where
  approvals : read.approvals = .authoritativeV2 state
  runStatus : read.runStatus = .approvalRequired
  admitted : DecisionAdmitted d state batch read.revision provider batch.decisionAt snapshot requests
  verified : Verified d (decidedState d state batch snapshot)
  published : prepared.published = ⟨read.revision + 1,
    decidedStatus (decisionUpdate d state batch snapshot).outcome,
    .authoritativeV2 (decidedState d state batch snapshot)⟩
  outcome : prepared.outcome = .decision (decisionUpdate d state batch snapshot).outcome
  verifier : prepared.authorityVerifier = fun reverifier evaluatedAt => do
    let _ ← reverifyApprovalAuthority d batch snapshot requests reverifier evaluatedAt
    return ()

/-- What a reissue is prepared from, and what it publishes. -/
structure PreparedReissue (d : Digests) (read : Published) (batch : ApprovalReissueBatchV2)
    (prepared : Prepared d) (sources : List SourceRequest) (update : ApprovalReissueUpdateV2) : Prop where
  runStatus : read.runStatus = .approvalRequired
  admitted : ReissueAdmitted (reissuedState d read.sources.1 batch) read.sources.2 batch read.revision
    sources
  built : ReissueBuilt d (reissuedState d read.sources.1 batch) read.sources.2 batch read.revision
    sources update
  published : prepared.published = ⟨read.revision + 1, .approvalRequired,
    .authoritativeV2 (update.next d)⟩
  outcome : prepared.outcome = .reissue update.outcome
  verifier : prepared.authorityVerifier = fun _ _ => .ok ()

/-- The approvals of a revision are as they were published with it. -/
def Published.Sound (d : Digests) (published : Published) : Prop :=
  1 ≤ published.revision ∧
    ∀ state, published.approvals = .authoritativeV2 state → Current d state published.revision

section

variable {d : Digests} {read next published : Published} {prepared : Prepared d}
variable {state : VerifiedApprovalStateV2} {batch : ApprovalDecisionBatch}
variable {provider : DecisionAuthorityProvider d} {snapshot : ApprovalAuthoritySnapshotV2}
variable {requests : List ApprovalRequestV2} {reissue : ApprovalReissueBatchV2}

theorem Published.Sound.sources (hs : read.Sound d) (h : state ∈ read.sources.1) : read.approvals = .authoritativeV2 state := by
  rcases read with ⟨revision, runStatus, requests | verified⟩
  · cases h
  · exact congrArg _ (Option.some.inj h)

theorem Published.Sound.reissued (hs : read.Sound d) (reissue : ApprovalReissueBatchV2) :
    Current d (reissuedState d read.sources.1 reissue) read.revision := by
  rcases read with ⟨revision, runStatus, requests | state⟩
  · exact (emptyState_verified d reissue.runId).current_of_nil rfl rfl hs.1
  · exact hs.2 state rfl

theorem decideApprovals_eq_next (hs : read.Sound d) :
    decideApprovals d read batch provider = .ok (.next prepared) ↔ ∃ state snapshot requests,
      PreparedDecision d read batch provider prepared state snapshot requests := by
  rcases read with ⟨revision, runStatus, legacy | state⟩
  · simp only [decideApprovals, reduceCtorEq, false_iff, not_exists]
    intro state snapshot requests h
    cases h.approvals
  · have hcurrent := hs.2 state rfl
    have hclosed := hcurrent.ledger_closed
    simp only [decideApprovals, bind_eq_ok (x := validateApprovalDecision ..)]
    constructor
    · rintro ⟨_ | _, hadmission, h⟩
      next snapshot actorSha256 batchSha256 requests =>
        obtain ⟨⟨rfl, rfl⟩, hadmitted⟩ := (validateApprovalDecision_eq_new hclosed).1 hadmission
        simp only [hadmitted.build_eq hcurrent.toVerified, bind_ok_left rfl, require_bind_eq_ok,
          bind_eq_ok (x := readApprovalStateV2 ..), readApprovalStateV2_eq_ok, pure_eq_ok] at h
        obtain ⟨hstatus, next, ⟨rfl, hverified⟩, heq⟩ := h
        obtain rfl := Preparation.next.inj heq
        exact ⟨state, snapshot, requests, rfl, hstatus, hadmitted, hverified, rfl, rfl, rfl⟩
      next => simp at h
    · rintro ⟨_, snapshot, requests, h⟩
      obtain rfl := PublishedApprovals.authoritativeV2.inj h.approvals
      refine ⟨_, (validateApprovalDecision_eq_new hclosed).2 ⟨⟨rfl, rfl⟩, h.admitted⟩, ?_⟩
      simp only [h.admitted.build_eq hcurrent.toVerified, bind_ok_left rfl, require_bind_eq_ok,
        bind_eq_ok (x := readApprovalStateV2 ..), readApprovalStateV2_eq_ok, pure_eq_ok]
      rcases prepared with ⟨published, outcome, verifier⟩
      obtain ⟨-, hstatus, -, hverified, rfl, rfl, rfl⟩ := h
      exact ⟨hstatus, decidedState d state batch snapshot, ⟨rfl, hverified⟩, rfl⟩

theorem reissueApprovals_eq_next (hs : read.Sound d) {observedAt : Instant}
    {previousManifestSha256 previousPointerSha256 : Sha256}
    (h : reissueApprovals d read reissue observedAt previousManifestSha256 previousPointerSha256 =
      .ok (.next prepared)) :
    ∃ sources update, PreparedReissue d read reissue prepared sources update := by
  have hcurrent := hs.reissued reissue
  simp only [reissueApprovals, bind_eq_ok (x := validateApprovalReissue ..)] at h
  obtain ⟨sources | _, hadmission, h⟩ := h
  · have hadmitted := validateApprovalReissue_eq_new
      (fun state hstate => (hs.2 state (hs.sources hstate)).ledger_closed) hadmission
    simp only [require_bind_eq_ok, bind_eq_ok (x := buildApprovalReissueUpdate ..),
      bind_eq_ok (x := readApprovalStateV2 ..), readApprovalStateV2_eq_ok, pure_eq_ok] at h
    obtain ⟨-, hstatus, update, hbuild, next, ⟨rfl, -⟩, heq⟩ := h
    obtain rfl := Preparation.next.inj heq
    have hbuilt := buildApprovalReissueUpdate_eq_ok hcurrent.toVerified hadmitted hbuild
    exact ⟨sources, update, hstatus, hadmitted, hbuilt, rfl, rfl, rfl⟩
  · simp at h

theorem PreparedDecision.sound
    (h : PreparedDecision d read batch provider prepared state snapshot requests) (hs : read.Sound d) :
    prepared.published.Sound d := by
  rw [h.published]
  refine ⟨Nat.succ_pos _, fun after hafter => ?_⟩
  obtain rfl := PublishedApprovals.authoritativeV2.inj hafter
  exact (hs.2 state h.approvals).decided h.admitted h.verified

theorem PreparedReissue.sound {sources : List SourceRequest} {update : ApprovalReissueUpdateV2}
    (h : PreparedReissue d read reissue prepared sources update)
    (hs : read.Sound d) : prepared.published.Sound d := by
  rw [h.published]
  refine ⟨Nat.succ_pos _, fun after hafter => ?_⟩
  obtain rfl := PublishedApprovals.authoritativeV2.inj hafter
  exact h.built.current (hs.reissued _) h.admitted

/-- The revision that a decision or a reissue publishes is sound again. -/
theorem Step.sound (hs : read.Sound d) (h : Step d read next) : next.Sound d := by
  cases h with
  | decision prepare verify =>
    obtain ⟨state, snapshot, requests, h⟩ := (decideApprovals_eq_next hs).1 prepare
    exact h.sound hs
  | reissue prepare =>
    obtain ⟨sources, update, h⟩ := reissueApprovals_eq_next hs prepare
    exact h.sound hs

theorem First.sound (h : First d published) : published.Sound d := by
  cases h with
  | proposals proposed created =>
    obtain ⟨state, hverified, rfl, ⟨hdecisions, hreissues⟩, -, -⟩ := createApprovals_eq_ok created
    refine ⟨le_rfl, fun after hafter => ?_⟩
    obtain rfl := PublishedApprovals.authoritativeV2.inj hafter
    exact hverified.current_of_nil hdecisions hreissues le_rfl
  | historical pos => exact ⟨pos, fun state hstate => by cases hstate⟩

theorem Run.sound (hs : read.Sound d) (h : Run d read next) : next.Sound d := by
  induction h with
  | refl => exact hs
  | tail _ hstep ih => exact hstep.sound ih

theorem Reachable.sound (h : Reachable d read) : read.Sound d := by
  obtain ⟨first, hfirst, hrun⟩ := h
  exact hrun.sound hfirst.sound

/-- A published step moves the register as requests may move. -/
theorem Step.moves (hs : read.Sound d) (h : Step d read next) :
    Register.Moves read.register next.register := by
  have hnext := h.sound hs
  cases h with
  | decision prepare verify =>
    obtain ⟨state, snapshot, requests, h⟩ := (decideApprovals_eq_next hs).1 prepare
    have hc := (hs.2 state h.approvals).ledger_closed
    rw [Published.register, h.approvals, h.published]
    exact h.admitted.moves hc h.verified.ledger_closed
  | @reissue batch _ _ _ _ prepare =>
    obtain ⟨sources, update, h⟩ := reissueApprovals_eq_next hs prepare
    have hmoves := rounds_moves h.built.loop.rounds
    rw [h.published, Published.register_eq batch]
    exact hmoves

theorem First.moves (h : First d published) :
    Register.Moves Register.empty published.register := by
  cases h with
  | proposals proposed created =>
    obtain ⟨state, -, rfl, -, hmoves, -⟩ := createApprovals_eq_ok created
    exact hmoves
  | historical => exact .refl

theorem Run.moves (hs : read.Sound d) (h : Run d read next) :
    Register.Moves read.register next.register := by
  induction h with
  | refl => exact .refl
  | tail hrun hstep ih => exact ih.trans (hstep.moves (Run.sound hs hrun))

theorem Reachable.moves (h : Reachable d published) :
    Register.Moves Register.empty published.register := by
  obtain ⟨first, hfirst, hrun⟩ := h
  exact hfirst.moves.trans (hrun.moves hfirst.sound)

/-- The approval of the sample request. -/
def sampleDecision : Prepared sampleDigests where
  published := ⟨2, .failedWithLimitations,
    .authoritativeV2 (decidedState sampleDigests sampleState sampleBatch (sampleSnapshot 20))⟩
  outcome := .decision (decisionUpdate sampleDigests sampleState sampleBatch (sampleSnapshot 20)).outcome
  authorityVerifier reverifier evaluatedAt := do
    let _ ← reverifyApprovalAuthority sampleDigests sampleBatch (sampleSnapshot 20) [sampleRequest]
      reverifier evaluatedAt
    return ()

theorem sample_decided : decideApprovals sampleDigests samplePublished sampleBatch sampleProvider =
    .ok (.next sampleDecision) := rfl

theorem sample_decision_step : Step sampleDigests samplePublished sampleDecision.published :=
  .decision sample_decided (rfl : sampleDecision.authorityVerifier sampleProvider 30 = .ok ())

/-- What the sample request is reissued as. -/
def sampleSuccessor : ApprovalRequestV2 :=
  requestOf sampleDigests "run-1" 2 2 (sampleProposal "proposal-2" 300) 120

def sampleUpdate : ApprovalReissueUpdateV2 :=
  (buildApprovalReissueUpdate sampleDigests (some sampleState) [] sampleReissue 1 "manifest" "pointer"
    [.approvalV2 sampleRequest]).toOption.get rfl

theorem sample_built : buildApprovalReissueUpdate sampleDigests (some sampleState) [] sampleReissue 1
    "manifest" "pointer" [.approvalV2 sampleRequest] = .ok sampleUpdate := rfl

def sampleReissued : Prepared sampleDigests where
  published := ⟨2, .approvalRequired, .authoritativeV2 (sampleUpdate.next sampleDigests)⟩
  outcome := .reissue sampleUpdate.outcome
  authorityVerifier _ _ := .ok ()

theorem sample_decided_reachable : Reachable sampleDigests sampleDecision.published := by
  obtain ⟨first, hfirst, hrun⟩ := sample_reachable
  exact ⟨first, hfirst, hrun.tail sample_decision_step⟩

theorem sample_reissue_step : Step sampleDigests samplePublished sampleReissued.published :=
  .reissue (rfl : reissueApprovals sampleDigests samplePublished sampleReissue 125 "manifest" "pointer" =
    .ok (.next sampleReissued))

theorem sample_reissued_reachable : Reachable sampleDigests sampleReissued.published := by
  obtain ⟨first, hfirst, hrun⟩ := sample_reachable
  exact ⟨first, hfirst, hrun.tail sample_reissue_step⟩

/-- From any request its supersessions lead to exactly one that is not superseded, and never back. -/
theorem supersessions_end (published : {p : Published // Reachable d p}) {state : VerifiedApprovalStateV2}
    (hstate : published.1.approvals = .authoritativeV2 state) {request : ApprovalRequestV2}
    (hr : request ∈ state.ledger.requests) :
    (∃! last, Relation.ReflTransGen published.1.register.Replaces request.requestId last ∧
        published.1.register.Live last) ∧
      ¬ Relation.TransGen published.1.register.Replaces request.requestId request.requestId := by
  have hc := (published.2.sound.2 state hstate).ledger_closed
  have hmem : published.1.register request.requestId ≠ none := by
    rw [Published.register, hstate]
    exact fun hnone => (register_eq_none hc).1 hnone request hr rfl
  exact ⟨published.2.moves.existsUnique_live hmem, published.2.moves.acyclic⟩

theorem sample_supersessions :
    (∃! last, Relation.ReflTransGen sampleReissued.published.register.Replaces
        sampleRequest.requestId last ∧ sampleReissued.published.register.Live last) ∧
      ¬ Relation.TransGen sampleReissued.published.register.Replaces
        sampleRequest.requestId sampleRequest.requestId :=
  @supersessions_end sampleDigests ⟨sampleReissued.published, sample_reissued_reachable⟩
    (sampleUpdate.next sampleDigests) rfl (supersededRequest 2 sampleSuccessor.requestId sampleRequest)
    (List.mem_of_mem_head? (rfl : sampleUpdate.ledger.requests.head? = _))

end

/-! ## What is published -/

section

variable {d : Digests}

/-- The reader takes whatever a reissue builds. -/
theorem reissue_accepted {read : Published} (hread : Reachable d read) {batch : ApprovalReissueBatchV2}
    {sources : List SourceRequest} {update : ApprovalReissueUpdateV2}
    {previousManifestSha256 previousPointerSha256 : Sha256}
    (hadmitted : validateApprovalReissue d read.sources.1 read.sources.2 batch read.revision =
      .ok (.new sources))
    (hbuilt : buildApprovalReissueUpdate d read.sources.1 read.sources.2 batch read.revision
      previousManifestSha256 previousPointerSha256 sources = .ok update) :
    readApprovalStateV2 d update.ledger update.decisionRecords update.domainAuditEvents
      update.reissueRecords = .ok (update.next d) := by
  have hs := hread.sound
  have hcurrent := hs.reissued batch
  have hadm := validateApprovalReissue_eq_new
    (fun state hstate => (hs.2 state (hs.sources hstate)).ledger_closed) hadmitted
  have hb := buildApprovalReissueUpdate_eq_ok hcurrent.toVerified hadm hbuilt
  exact readApprovalStateV2_eq_ok.2 ⟨rfl, hb.next_verified hcurrent hadm⟩

theorem sample_reissue_accepted :
    readApprovalStateV2 sampleDigests sampleUpdate.ledger sampleUpdate.decisionRecords
      sampleUpdate.domainAuditEvents sampleUpdate.reissueRecords = .ok (sampleUpdate.next sampleDigests) :=
  reissue_accepted sample_reachable
    (rfl : validateApprovalReissue sampleDigests (some sampleState) [] sampleReissue 1 =
      .ok (.new [.approvalV2 sampleRequest]))
    sample_built

end

/-! ## Logs that only grow -/

/-- The requests have gone on, and the logs of the one state begin those of the other. -/
structure Extends (state later : VerifiedApprovalStateV2) : Prop where
  onward : Onward state.ledger later.ledger
  decisions : state.decisionRecords <+: later.decisionRecords
  events : state.domainAuditEvents <+: later.domainAuditEvents
  reissues : state.reissueRecords <+: later.reissueRecords

section

variable {d : Digests} {read next : Published} {state later last : VerifiedApprovalStateV2}

theorem Extends.refl (state : VerifiedApprovalStateV2) : Extends state state :=
  ⟨.refl _, List.prefix_rfl, List.prefix_rfl, List.prefix_rfl⟩

theorem Extends.trans (h : Extends state later) (h' : Extends later last) : Extends state last :=
  ⟨h.onward.trans h'.onward, h.decisions.trans h'.decisions, h.events.trans h'.events,
    h.reissues.trans h'.reissues⟩

theorem Step.extends (hs : read.Sound d) (h : Step d read next) :
    next.revision = read.revision + 1 ∧ ∃ later, next.approvals = .authoritativeV2 later ∧
      ∀ state, read.approvals = .authoritativeV2 state → Extends state later := by
  cases h with
  | decision prepare verify =>
    obtain ⟨state, snapshot, requests, h⟩ := (decideApprovals_eq_next hs).1 prepare
    rw [h.published]
    refine ⟨rfl, _, rfl, fun prior hprior => ?_⟩
    obtain rfl := PublishedApprovals.authoritativeV2.inj (hprior.symm.trans h.approvals)
    have hc := (hs.2 prior hprior).ledger_closed
    exact ⟨h.admitted.onward hc _ _, List.prefix_append .., List.prefix_append .., List.prefix_rfl⟩
  | reissue prepare =>
    obtain ⟨sources, update, h⟩ := reissueApprovals_eq_next hs prepare
    rw [h.published]
    refine ⟨rfl, _, rfl, fun prior hprior => ?_⟩
    have hb := h.built
    rw [Published.sources, hprior] at hb
    rw [hb.next_eq]
    exact ⟨hb.loop.onward, List.prefix_rfl, List.prefix_rfl, List.prefix_append ..⟩

theorem Run.extends (hs : read.Sound d) (h : Run d read next)
    (hstate : read.approvals = .authoritativeV2 state) :
    ∃ later, next.approvals = .authoritativeV2 later ∧ Extends state later := by
  induction h with
  | refl => exact ⟨state, hstate, .refl state⟩
  | tail hrun hstep ih =>
    obtain ⟨middle, hmiddle, hext⟩ := ih
    obtain ⟨-, later, hlater, hnext⟩ := hstep.extends (Run.sound hs hrun)
    exact ⟨later, hlater, hext.trans (hnext middle hmiddle)⟩

/-- Along any run the logs only grow, no request is lost, and one that no longer waits stays as it is. -/
theorem run_append_only (hread : Reachable d read) (hrun : Run d read next)
    (hstate : read.approvals = .authoritativeV2 state) :
    ∃ later, next.approvals = .authoritativeV2 later ∧ Extends state later ∧
      Register.Moves read.register next.register := by
  obtain ⟨later, hlater, hext⟩ := hrun.extends hread.sound hstate
  exact ⟨later, hlater, hext, hrun.moves hread.sound⟩

theorem sample_append_only :
    ∃ later, sampleDecision.published.approvals = .authoritativeV2 later ∧ Extends sampleState later ∧
      Register.Moves samplePublished.register sampleDecision.published.register :=
  run_append_only sample_reachable (.single sample_decision_step) rfl

end

end PokerDeliberation.ApprovalLedger
