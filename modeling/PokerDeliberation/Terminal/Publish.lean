import PokerDeliberation.Budgets.Working

/-!
# Publishing a terminal revision

`publish` reserves and starts a permit of the run's durable budget, stages the
revision, moves the current pointer to it and settles the permit.
`DurableBudgetCoordinator` is the budget side. What the storage side does is
not decided here: an `Outside` says of every `Step` whether it raises, and
what. The durability evidence of a failure is left out.
-/

namespace PokerDeliberation.Terminal

open Lib Budgets

/-! ## Failures -/

inductive ProductRunFailureCode where
  | runNotFound | runLocked | lockUnavailable | runConflict | runIncomplete | runCorrupt
  | unsupportedRunVersion | legacyRunUnverified | artifactMissing | artifactHashMismatch
  | artifactSchemaError | pathConfinementFailed | linkOrReparseDetected | crossRunMismatch
  | hashAlgorithmMismatch | idempotencyConflict | migrationSourceChanged | migrationSourceBusy
  | migrationConflict | budgetReservationFailed | budgetSettlementFailed | durabilityUnconfirmed
  | effectUnknown | lifecyclePolicyFailed | internalInvariantError
  deriving DecidableEq, Repr

inductive RunReadStatus where
  | inProgress | approvalRequired | succeeded | failed | cancelled | cancelUnconfirmed | incomplete
  | corrupt | unsupportedVersion | legacyUnverified
  deriving DecidableEq, Repr

inductive FilesystemEffect where
  | none | controlOnly | stagingOrphan | unreferencedRevision | currentReplaceAttempted
  | currentAdvanced
  deriving DecidableEq, Repr

inductive DomainEffect where
  | notStarted | currentUnchanged | currentMayHaveAdvanced | currentAdvanced
  deriving DecidableEq, Repr

inductive PreviousRevisionEffect where
  | notApplicable | unchanged | unconfirmed
  deriving DecidableEq, Repr

/-- `_failure`, with its defaults. -/
structure ProductRunFailureV2 where
  runIdSha256 : String
  code : ProductRunFailureCode
  stage : String
  readStatus : Option RunReadStatus := none
  transactionId : Option String := none
  observedRevision : Option Nat := none
  observedPointerSha256 : Option String := none
  reconciliationRequired : Bool := false
  filesystemEffect : FilesystemEffect := .none
  domainEffect : DomainEffect := .currentUnchanged
  previousRevisionEffect : PreviousRevisionEffect := .notApplicable
  deriving DecidableEq, Repr

def ProductRunFailureV2.retryable (f : ProductRunFailureV2) : Bool := f.code = .runLocked

/-- What the publisher reads of a `RunStorageFailureV1`. -/
structure RunStorageFailureV1 where
  code : RunStorageFailureCode
  reconciliationRequired : Bool
  filesystemEffect : FilesystemEffect
  deriving DecidableEq, Repr

/-- What a step raises; `store` is what the budget store raises, `other` any other exception. -/
inductive Raised where
  | store (failure : StoreError)
  | approvalDecision
  | product (failure : ProductRunFailureV2)
  | storage (failure : RunStorageFailureV1)
  | other
  deriving DecidableEq, Repr

/-! ## Requests -/

inductive PublicationStatus where
  | inProgress | approvalRequired | succeeded | failed | cancelled | cancelUnconfirmed
  | legacyUnverified
  deriving DecidableEq, Repr

structure BudgetSettlementBindingV2 where
  budgetRunIdSha256 : String
  budgetPolicySha256 : String
  reservationOperationId : String
  reservationRequestSha256 : String
  permitId : String
  settlementOperationId : String
  settlementId : String
  deriving DecidableEq, Repr

/-- The fields `publish` and the coordinator read; `inventory` are the logical
names of the payloads. -/
structure TerminalPublishRequest where
  runId : String
  transactionId : String
  status : PublicationStatus
  proposedRevision : Nat
  expectedPointerSha256 : Option String
  canonicalInputSha256 : String
  redactionPolicySha256 : String
  stateCheckpointSha256 : String
  budgetBinding : BudgetSettlementBindingV2
  inventory : List String
  remainingActiveRuntimeNs : Option Int := none
  deriving DecidableEq, Repr

/-- What `_prepare` returns. -/
structure PreparedPublication where
  artifactBytes : Nat
  persistentDelta : Nat
  manifestSha256 : String
  pointerSha256 : String
  markerSha256 : Option String
  deriving DecidableEq, Repr

inductive OutcomeKind where
  | published | currentCommitted
  deriving DecidableEq, Repr

structure TerminalPublishOutcome where
  outcomeKind : OutcomeKind
  runIdSha256 : String
  transactionId : String
  revision : Nat
  manifestSha256 : String
  pointerSha256 : String
  completionMarkerSha256 : Option String
  deriving DecidableEq, Repr

/-- The values the product layer hashes under its own domains. -/
inductive ProductPayload where
  | runId (runId : String)
  | budgetId (text : String)
  | budgetSeed (runId transactionId : String) (revision : Nat)
  | transaction (runId transactionId : String) (inventory : List String)
  | effect (transactionId effect : String)
  deriving DecidableEq, Repr

/-! ## The steps of the storage side -/

inductive Step where
  | prepare | guardPrepared | ownership | scanAliases | authority | rescanAliases
  | verifyNamespace | admitCurrent | preManifestVerifier | guardStaging | bootstrapNamespace
  | namespaceCollision | stagingMkdir | transaction | payloadMkdir | payload (logicalName : String)
  | manifest | verifyPayloadInventory | completion | beforeRename | guardRevision | rename
  | afterRename | readRevision | finalCas | pointer | beforeReplace | guardCurrent | replace
  | afterReplace | currentPointer | directorySync | readCurrent | leaseRelease
  deriving DecidableEq, Repr

/-- What one call meets: the environment of each call on the budget store, the
exception each step raises, what `_prepare` returns, and whether the current
revision is the requested one already. -/
structure Outside where
  environment : Nat → Environment
  fault : Step → Option Raised
  prepared : PreparedPublication
  committed : Bool

/-- The budget store and the local variables the handlers read. -/
structure Publishing where
  store : DurableBudgetStore
  turn : Nat := 0
  leased : Bool := false
  revisionPublished : Bool := false
  pointerPublished : Bool := false

/-! ## The budget side -/

/-- `domain_sha256` and `canonical_domain_sha256` are `product`. -/
structure DurableBudgetCoordinator where
  sha256 : Payload → String
  product : ProductPayload → String
  basePolicy : BudgetPolicyV2

/-! One agent runs, and nothing is retried. -/

theorem one_agent_ge : 1 ≤ 1 := le_refl 1

theorem one_agent_le : 1 ≤ 32 := by decide

theorem no_retries_le : 0 ≤ 10 := by decide

theorem no_parents : (none : Option String).isNone = (none : Option String).isNone := rfl

theorem localFree_ne_unknown : ExecutionClass.localFree ≠ .unknown := by decide

namespace DurableBudgetCoordinator

/-- `text[first:last]`. -/
def slice (text : String) (first last : Nat) : String :=
  String.ofList ((text.toList.drop first).take (last - first))

variable (coordinator : DurableBudgetCoordinator) (outside : Outside)
variable (request : TerminalPublishRequest)

def policy : DurableBudgetPolicyV1 where
  basePolicy := coordinator.basePolicy
  activation :=
    { maxConcurrentAgents := 1, maxAutomaticRetries := 0
      concurrent_ge := one_agent_ge, concurrent_le := one_agent_le, retries_le := no_retries_le }
  bounded := Nat.zero_le _

/-- The digest `_ids` takes its identities from. -/
def idDigest : String :=
  coordinator.product (.budgetId
    (request.runId ++ "\x00" ++ request.transactionId ++ "\x00" ++
      toString request.proposedRevision))

def initializeId : String := "initialize-" ++ slice (coordinator.idDigest request) 0 24

def startId : String := "start-" ++ slice (coordinator.idDigest request) 0 24

/-- A call on the store. -/
def storeCall (c : Call) : Stateful StoreError Publishing DurableMutationResultV1 := fun p =>
  match p.store.call coordinator.sha256 request.runId c (outside.environment p.turn) with
  | (store, result) => (result, { p with store, turn := p.turn + 1 })

/-- `store.load`. -/
def storeLoad : Stateful StoreError Publishing DurableBudgetStateV1 := fun p =>
  let env := outside.environment p.turn
  match load coordinator.sha256 request.runId p.store.revisions env.loadFault with
  | .ok state => (.ok state, { p with turn := p.turn + 1 })
  | .error e =>
    (.error e, { p with
      turn := p.turn + 1, store := env.loadFault.elim p.store p.store.afterStorageError })

/-- `store.rebase_monotonic_clock`. -/
def rebase : Stateful StoreError Publishing Unit :=
  Stateful.modify fun p => { p with store := p.store.rebaseMonotonicClock }

/-- The creation of the run, when it is new. -/
def createRun : Stateful StoreError Publishing Unit :=
  Stateful.catching
    (coordinator.storeCall outside request
      (.create coordinator.policy (coordinator.initializeId request)) >>= fun _ => pure ())
    fun
    | .budget failure =>
      if failure.code = .idempotencyConflict then pure () else Stateful.raise (.budget failure)
    | .invalid message => Stateful.raise (.invalid message)

/-- `_state`. -/
def state : Stateful StoreError Publishing DurableBudgetStateV1 := do
  coordinator.createRun outside request
  let state ← coordinator.storeLoad outside request
  Stateful.lift (require (state.policySha256 = request.budgetBinding.budgetPolicySha256 ∧
      coordinator.product (.runId state.runId) = request.budgetBinding.budgetRunIdSha256)
    "durable budget binding identity mismatch" |>.mapError .invalid)
  return state

/-- `_requested_active_runtime`. -/
def requestedActiveRuntime (state : DurableBudgetStateV1) : Except StoreError Nat :=
  match request.remainingActiveRuntimeNs with
  | none => .ok state.activeRuntimeRemainingNs
  | some remaining =>
    if remaining < 0 then
      .error (.invalid "remaining active runtime must be a non-negative integer")
    else .ok (min remaining.toNat state.activeRuntimeRemainingNs)

/-- `build_resource_reservation`, and the comparison with the frozen binding. -/
def reservation (requested : ResourceAmountsV1) (hslots : requested.concurrencySlots = 1)
    (hcost : requested.externalCostMicroUsd = 0) : Except StoreError ResourceReservationV1 :=
  let reservationId := request.budgetBinding.reservationOperationId
  let requestSha256 := coordinator.sha256 (.reservation reservationId requested .localFree false)
  if h : isIdentifier reservationId = true ∧ isSha256 requestSha256 = true then
    if requestSha256 = request.budgetBinding.reservationRequestSha256 then
      .ok { reservationId, requested, requestSha256, reservation_id_valid := h.1,
            request_hash_valid := h.2, one_slot := hslots, known_class := localFree_ne_unknown,
            local_free := fun _ => ⟨hcost, rfl⟩, external := by simp }
    else .error (.invalid "durable reservation request hash mismatch")
  else .error (.invalid "durable reservation")

/-- The lineage of the publication; its validator is the structure's. -/
def lineage : Except StoreError ExecutionLineageV1 :=
  let seed := coordinator.product
    (.budgetSeed request.runId request.transactionId request.proposedRevision)
  let attemptId := "attempt-" ++ slice seed 0 24
  let contextId := "context-" ++ slice seed 24 48
  let idempotencyRequestSha256 := coordinator.product
    (.transaction request.runId request.transactionId request.inventory)
  if h : ["product-terminal-store", "terminal_publish", attemptId, attemptId, contextId, contextId,
        request.transactionId].all isIdentifier = true ∧
      [request.canonicalInputSha256, request.redactionPolicySha256, request.stateCheckpointSha256,
        idempotencyRequestSha256].all isSha256 = true ∧ 1 ≤ request.proposedRevision then
    .ok { ownerKind := .orchestrator, ownerId := "product-terminal-store", role := "orchestrator"
          phaseId := "terminal_publish", rootAttemptId := attemptId, attemptId
          rootContextId := contextId, contextId
          contextSourceSha256 := request.canonicalInputSha256
          contextPolicySha256 := request.redactionPolicySha256
          contextIntegritySha256 := request.stateCheckpointSha256
          executionOrdinal := request.proposedRevision - 1
          idempotencyKey := request.transactionId, idempotencyRequestSha256
          identifiers := by simpa using h.1, role_valid := by decide, hashes := h.2.1
          paired := no_parents, initial := fun _ => ⟨rfl, rfl⟩
          fresh := by simp, fresh_context := by simp }
  else .error (.invalid "execution lineage")

def startCall : Call := .start (coordinator.startId request) request.budgetBinding.permitId

/-- `reserve`: reserve the permit, then start it. -/
def reserve : Stateful StoreError Publishing Unit := do
  let state ← coordinator.state outside request
  rebase
  let activeRuntimeNs ← Stateful.lift (requestedActiveRuntime request state)
  let reservation ← Stateful.lift (coordinator.reservation request
    { activeRuntimeNs, artifactBytes := outside.prepared.artifactBytes
      runBytes := outside.prepared.persistentDelta, concurrencySlots := 1 } rfl rfl)
  let lineage ← Stateful.lift (coordinator.lineage request)
  let _ ← coordinator.storeCall outside request
    (.reserve request.budgetBinding.reservationOperationId request.budgetBinding.permitId
      reservation lineage none none)
  rebase
  let _ ← coordinator.storeCall outside request (coordinator.startCall request)
  return

def settlementStatus : PublicationStatus → SettlementStatus
  | .succeeded | .inProgress | .approvalRequired => .succeeded
  | .failed | .cancelUnconfirmed | .legacyUnverified => .failed
  | .cancelled => .cancelled

/-- `settle`. -/
def settle : Stateful StoreError Publishing Unit := do
  let prepared := outside.prepared
  let status := settlementStatus request.status
  let _ ← coordinator.storeCall outside request (.settle
    { operationId := request.budgetBinding.settlementOperationId
      settlementId := request.budgetBinding.settlementId
      permitId := request.budgetBinding.permitId
      actual := { artifactBytes := prepared.artifactBytes, runBytes := prepared.persistentDelta
                  concurrencySlots := 1 }
      status, resultSha256 := some prepared.pointerSha256
      effectEvidenceSha256 := some (prepared.markerSha256.getD prepared.manifestSha256)
      failureCategory := if status = .succeeded then none else some .internal
      observedPeakConcurrency := some 1 })
  return

/-- `release_no_effect`; `effect` is what the handler reports of the transaction. -/
def releaseNoEffect (effect : String) : Stateful StoreError Publishing Unit := do
  let _ ← coordinator.storeCall outside request
    (.releaseNoEffect request.budgetBinding.settlementOperationId
      request.budgetBinding.settlementId request.budgetBinding.permitId
      (coordinator.product (.effect request.transactionId effect)))
  return

end DurableBudgetCoordinator

/-! ## The publication -/

section Publish

variable (coordinator : DurableBudgetCoordinator) (outside : Outside)
variable (request : TerminalPublishRequest)

/-- A step of the storage side. -/
def Outside.step (s : Step) : Stateful Raised Publishing Unit :=
  match outside.fault s with
  | none => pure ()
  | some e => Stateful.raise e

def outcome (outcomeKind : OutcomeKind) : TerminalPublishOutcome where
  outcomeKind
  runIdSha256 := coordinator.product (.runId request.runId)
  transactionId := request.transactionId
  revision := request.proposedRevision
  manifestSha256 := outside.prepared.manifestSha256
  pointerSha256 := outside.prepared.pointerSha256
  completionMarkerSha256 := outside.prepared.markerSha256

/-- The exclusive lock and the admission of the current revision. -/
def acquire : Stateful Raised Publishing Unit := do
  outside.step .ownership
  outside.step .scanAliases
  outside.step .authority
  Stateful.modify fun p => { p with leased := true }
  outside.step .rescanAliases
  outside.step .verifyNamespace
  outside.step .admitCurrent

/-- The revision up to the replacement of the pointer. -/
def stage : Stateful Raised Publishing Unit := do
  outside.step .preManifestVerifier
  outside.step .guardStaging
  outside.step .bootstrapNamespace
  outside.step .namespaceCollision
  outside.step .stagingMkdir
  outside.step .transaction
  outside.step .payloadMkdir
  request.inventory.forM fun name => outside.step (.payload name)
  outside.step .manifest
  outside.step .verifyPayloadInventory
  outside.step .completion
  outside.step .beforeRename
  outside.step .guardRevision
  outside.step .rename
  Stateful.modify fun p => { p with revisionPublished := true }
  outside.step .afterRename
  outside.step .readRevision
  outside.step .finalCas
  outside.step .pointer
  outside.step .beforeReplace
  outside.step .guardCurrent
  outside.step .replace

/-- What follows the replacement of the pointer. -/
def commit : Stateful Raised Publishing TerminalPublishOutcome := do
  Stateful.modify fun p => { p with pointerPublished := true }
  outside.step .afterReplace
  outside.step .currentPointer
  outside.step .directorySync
  (coordinator.settle outside request).catching fun e => Stateful.raise (.store e)
  outside.step .readCurrent
  return outcome coordinator outside request .published

/-- The guarded block of `publish`. -/
def guarded : Stateful Raised Publishing TerminalPublishOutcome := do
  acquire outside
  if outside.committed then return outcome coordinator outside request .currentCommitted
  stage outside request
  commit coordinator outside request

/-- `with suppress(Exception): self.budget.release_no_effect(...)`, unless the pointer has moved. -/
def suppressedRelease : Stateful Raised Publishing Unit := do
  let p ← Stateful.read
  if p.pointerPublished = false then
    let _ ← (coordinator.releaseNoEffect outside request "none").attempt
    return

def failure (code : ProductRunFailureCode) (stage : String) : ProductRunFailureV2 where
  runIdSha256 := coordinator.product (.runId request.runId)
  code
  stage
  transactionId := some request.transactionId

def previousEffect : PreviousRevisionEffect :=
  if request.proposedRevision = 1 then .notApplicable else .unchanged

/-- `except Exception`: the effect is read off the local variables. -/
def handleOther : Stateful Raised Publishing TerminalPublishOutcome := do
  let p ← Stateful.read
  let base := { failure coordinator request .effectUnknown "publish" with
    reconciliationRequired := true, previousRevisionEffect := previousEffect request }
  if p.pointerPublished then
    Stateful.raise (.product { base with
      code := .budgetSettlementFailed, readStatus := some .incomplete
      observedRevision := some request.proposedRevision
      observedPointerSha256 := some outside.prepared.pointerSha256
      filesystemEffect := .currentAdvanced, domainEffect := .currentAdvanced })
  else if p.revisionPublished then
    let released ← (coordinator.releaseNoEffect outside request "unreferenced_revision").attempt
    Stateful.raise (.product { base with
      code := if released.isOk then .durabilityUnconfirmed else .effectUnknown
      filesystemEffect := .unreferencedRevision })
  else
    let _ ← (coordinator.releaseNoEffect outside request "staging_orphan").attempt
    Stateful.raise (.product { base with filesystemEffect := .stagingOrphan })

/-- The `except` clauses of the guarded block. -/
def handle (e : Raised) : Stateful Raised Publishing TerminalPublishOutcome :=
  match e with
  | .approvalDecision => do
    suppressedRelease coordinator outside request
    Stateful.raise .approvalDecision
  | .product failure => do
    suppressedRelease coordinator outside request
    Stateful.raise (.product failure)
  | .storage fault => do
    suppressedRelease coordinator outside request
    let code := if fault.code = .runLocked then .runLocked
      else if fault.code = .lockUnavailable then .lockUnavailable else .effectUnknown
    Stateful.raise (.product { failure coordinator request code "lock_acquire" with
      reconciliationRequired := fault.reconciliationRequired
      filesystemEffect := if fault.filesystemEffect = .controlOnly then .controlOnly else .none
      previousRevisionEffect := previousEffect request })
  | .store _ | .other => handleOther coordinator outside request

/-- The `finally` clause. -/
def releaseLease : Stateful Raised Publishing Unit := do
  let p ← Stateful.read
  if p.leased then
    if outside.fault .leaseRelease ≠ none ∧ p.pointerPublished = false then
      Stateful.raise (.product { failure coordinator request .effectUnknown "lock_release" with
        reconciliationRequired := true
        filesystemEffect := if p.revisionPublished then .unreferencedRevision else .controlOnly
        previousRevisionEffect := previousEffect request })

/-- The reservation, with the failure a refusal becomes. -/
def reserved : Stateful Raised Publishing Unit :=
  (coordinator.reserve outside request).catching fun e =>
    let code := match e with
      | .budget f =>
        if f.code = .runLocked ∨ f.code = .concurrencyExceeded ∨ f.code = .casConflict then
          .runLocked
        else .budgetReservationFailed
      | .invalid _ => .budgetReservationFailed
    Stateful.raise (.product { failure coordinator request code "budget_reservation" with
      previousRevisionEffect := previousEffect request })

/-- `TerminalRunStore.publish`. -/
def publish : Stateful Raised Publishing TerminalPublishOutcome := do
  outside.step .prepare
  outside.step .guardPrepared
  reserved coordinator outside request
  ((guarded coordinator outside request).catching (handle coordinator outside request)).ensuring
    (releaseLease coordinator outside request)

end Publish

end PokerDeliberation.Terminal
