import PokerDeliberation.Identifiers
import PokerDeliberation.Lib.Assoc
import PokerDeliberation.Lib.Checked
import Mathlib.Data.List.Sort

/-!
# The approval failure audit: events, pointer and reader

What `_read_approval_failure_audit` reads of a run's audit: the event files, in
the order of their names, and the pointer, whose rate states are replayed from
the events. Instants are microseconds. The bytes of events and pointers and the
digest of an event are an `AuditFormat`.
-/

namespace PokerDeliberation.Approvals

open Lib

abbrev Instant := Int

/-- `datetime.min` in UTC. -/
def MIN_INSTANT : Instant := -62135596800000000

def APPROVAL_AUDIT_MAX_EVENTS : Nat := 1024
def APPROVAL_AUDIT_MAX_EVENT_BYTES : Nat := 16384
def APPROVAL_AUDIT_MAX_TOTAL_BYTES : Nat := 1048576
def APPROVAL_AUDIT_MAX_FAILED_EVENTS : Nat := 32
def APPROVAL_AUDIT_WINDOW_SECONDS : Nat := 60

inductive ApprovalFailureCode where
  | approvalUnknown | approvalDuplicate | approvalAlreadyDecided | approvalExpired
  | approvalLedgerCorrupt | legacyApprovalHistoricalOnly | actorSpoof | unauthorizedDecision
  | authorityRevoked | staleDecision | approveRejectConflict | idempotencyConflict
  | actionDigestMismatch | resumeConflict | resumeTransactionFailed | externalExecutorUnavailable
  | auditRateLimited | auditCapacityExceeded | auditUnconfirmed | runLocked | reissueNotEligible
  | reissueConflict
  deriving DecidableEq, Repr

inductive EventKind where
  | failure | rateLimit
  deriving DecidableEq, Repr

/-- What is raised inside the store. -/
inductive AuditException where
  | canonicalStorage (text : String)
  | validation (text : String)
  | canonicalApproval
  | runStorage
  | os
  | other
  | failureAudit (code : ApprovalFailureCode) (message : String) (auditConfirmed : Bool)
  deriving DecidableEq, Repr

/-! ## Events -/

structure ApprovalSecurityAuditEventV2 where
  sequence : Nat
  previousEventSha256 : Option String
  eventKind : EventKind
  runIdSha256 : String
  actorSha256 : String
  decisionIdSha256 : String
  idempotencyKeySha256 : String
  batchSha256 : Option String
  failureCode : ApprovalFailureCode
  observedRunRevision : Option Int
  observedLedgerRevision : Option Int
  occurredAt : Instant
  rateWindowStartedAt : Instant
  eventSha256 : String
  deriving DecidableEq, Repr

structure ApprovalSecurityAuditRateStateV2 where
  actorSha256 : String
  windowStartedAt : Instant
  failedEventCount : Nat
  rateLimitMarkerRecorded : Bool
  deriving DecidableEq, Repr

structure ApprovalSecurityAuditPointerV2 where
  runIdSha256 : String
  auditSequence : Nat
  headEventSha256 : Option String
  totalEventBytes : Nat
  rateStates : List ApprovalSecurityAuditRateStateV2
  updatedAt : Option Instant
  deriving DecidableEq, Repr

/-- Bytes and digests of the models: canonical JSON, read back as it was written. The
digest of an event does not look at `event_sha256`. -/
structure AuditFormat (Bytes : Type) where
  size : Bytes → Nat
  encodeEvent : ApprovalSecurityAuditEventV2 → Bytes
  decodeEvent : Bytes → Option ApprovalSecurityAuditEventV2
  encodePointer : ApprovalSecurityAuditPointerV2 → Bytes
  decodePointer : Bytes → Option ApprovalSecurityAuditPointerV2
  approvalSecurityAuditEventSha256 : ApprovalSecurityAuditEventV2 → String
  approvalSecurityAuditPointerSha256 : ApprovalSecurityAuditPointerV2 → String
  decode_encodeEvent : ∀ event, decodeEvent (encodeEvent event) = some event
  decode_encodePointer : ∀ pointer, decodePointer (encodePointer pointer) = some pointer
  sha256_derived : ∀ event digest, approvalSecurityAuditEventSha256
    { event with eventSha256 := digest } = approvalSecurityAuditEventSha256 event

variable {Bytes : Type} (fmt : AuditFormat Bytes)

/-- The fields and the matrix of an event. -/
def ApprovalSecurityAuditEventV2.validate (event : ApprovalSecurityAuditEventV2) :
    Except AuditException Unit := do
  require (1 ≤ event.sequence ∧ event.sequence ≤ 1024) (.validation "sequence")
  require (∀ digest ∈ event.previousEventSha256, isSha256 digest)
    (.validation "previous_event_sha256")
  require (isSha256 event.runIdSha256) (.validation "run_id_sha256")
  require (isSha256 event.actorSha256) (.validation "actor_sha256")
  require (isSha256 event.decisionIdSha256) (.validation "decision_id_sha256")
  require (isSha256 event.idempotencyKeySha256) (.validation "idempotency_key_sha256")
  require (∀ digest ∈ event.batchSha256, isSha256 digest) (.validation "batch_sha256")
  require (∀ revision ∈ event.observedRunRevision, 1 ≤ revision)
    (.validation "observed_run_revision")
  require (∀ revision ∈ event.observedLedgerRevision, 0 ≤ revision)
    (.validation "observed_ledger_revision")
  require (isSha256 event.eventSha256) (.validation "event_sha256")
  require (event.rateWindowStartedAt ≤ event.occurredAt)
    (.validation "approval security audit window starts in the future")
  match event.eventKind with
  | .rateLimit =>
    require (event.failureCode = .auditRateLimited) (.validation "rate-limit marker code mismatch")
  | .failure =>
    require (event.failureCode ∉ [.auditRateLimited, .auditCapacityExceeded, .auditUnconfirmed])
      (.validation "audit control failures are not ordinary failure events")
  require (event.eventSha256 = fmt.approvalSecurityAuditEventSha256 event)
    (.validation "approval security audit event hash mismatch")
  require (event.sequence = 1 ↔ event.previousEventSha256 = none)
    (.validation "approval security audit lineage mismatch")

def ApprovalSecurityAuditRateStateV2.validate (state : ApprovalSecurityAuditRateStateV2) :
    Except AuditException Unit := do
  require (isSha256 state.actorSha256) (.validation "actor_sha256")
  require (state.failedEventCount ≤ 32) (.validation "failed_event_count")
  require (state.rateLimitMarkerRecorded → state.failedEventCount = 32)
    (.validation "rate-limit marker requires a full failure window")

/-- Nothing has been recorded. -/
def ApprovalSecurityAuditPointerV2.isBlank (pointer : ApprovalSecurityAuditPointerV2) : Prop :=
  pointer.headEventSha256 = none ∧ pointer.totalEventBytes = 0 ∧ pointer.rateStates = [] ∧
    pointer.updatedAt = none

instance (pointer : ApprovalSecurityAuditPointerV2) : Decidable pointer.isBlank :=
  inferInstanceAs (Decidable (_ ∧ _ ∧ _ ∧ _))

def ApprovalSecurityAuditPointerV2.validate (pointer : ApprovalSecurityAuditPointerV2) :
    Except AuditException Unit := do
  require (isSha256 pointer.runIdSha256) (.validation "run_id_sha256")
  require (pointer.auditSequence ≤ 1024) (.validation "audit_sequence")
  require (∀ digest ∈ pointer.headEventSha256, isSha256 digest) (.validation "head_event_sha256")
  require (pointer.totalEventBytes ≤ 1048576) (.validation "total_event_bytes")
  require (pointer.rateStates.length ≤ 1024) (.validation "rate_states")
  pointer.rateStates.forM ApprovalSecurityAuditRateStateV2.validate
  require (pointer.auditSequence = 0 ↔ pointer.isBlank)
    (.validation "approval security audit pointer empty matrix mismatch")
  require (pointer.auditSequence = 0 ∨ (pointer.headEventSha256 ≠ none ∧ pointer.updatedAt ≠ none))
    (.validation "approval security audit pointer active matrix mismatch")
  let actors := pointer.rateStates.map fun state => state.actorSha256
  require actors.Nodup (.validation "approval security audit rate actors must be unique")
  require (actors = actors.insertionSort (· ≤ ·))
    (.validation "approval security audit rate states must be ordered")

/-- `parse_approval_model`. -/
def parseEvent (data : Bytes) : Except AuditException ApprovalSecurityAuditEventV2 :=
  match fmt.decodeEvent data with
  | none => .error .canonicalApproval
  | some event => ((event.validate fmt).mapError fun _ => .canonicalApproval).map fun _ => event

def parsePointer (data : Bytes) : Except AuditException ApprovalSecurityAuditPointerV2 :=
  match fmt.decodePointer data with
  | none => .error .canonicalApproval
  | some pointer => (pointer.validate.mapError fun _ => .canonicalApproval).map fun _ => pointer

/-! ## Rate states -/

/-- `occurred_at - timedelta(seconds=window_seconds)`. -/
def floorOf (windowSeconds : Nat) (occurredAt : Instant) : Instant :=
  occurredAt - windowSeconds * 1000000

/-- The subtraction, which overflows before `datetime.min`. -/
def windowFloor (windowSeconds : Nat) (occurredAt : Instant) : Except AuditException Instant :=
  (require (MIN_INSTANT ≤ floorOf windowSeconds occurredAt) .other).map fun _ =>
    floorOf windowSeconds occurredAt

/-- The local variables of the replay. -/
structure RateReplay where
  states : List (String × ApprovalSecurityAuditRateStateV2) := []
  failures : List (String × List Instant) := []

/-- `mapping[key] = value`. -/
def assign {α : Type} (key : String) (value : α) (entries : List (String × α)) :
    List (String × α) :=
  (key, value) :: entries.filter fun entry => entry.1 ≠ key

/-- What the replay makes of the recent failures of the actor: with the event's own time if
it is a failure, and whether the marker is recorded after it. -/
def countEvent (kind : EventKind) (occurredAt : Instant) (recent : List Instant)
    (markerActive : Bool) : Except AuditException (List Instant × Bool) :=
  match kind with
  | .failure => do
    require (recent.length < APPROVAL_AUDIT_MAX_FAILED_EVENTS)
      (.canonicalStorage "approval audit failure count exceeds its window")
    pure (recent ++ [occurredAt], false)
  | .rateLimit => do
    require (recent.length = APPROVAL_AUDIT_MAX_FAILED_EVENTS ∧ markerActive = false)
      (.canonicalStorage "approval audit rate-limit marker mismatch")
    pure (recent, true)

/-- Whether the marker an actor has still covers a full window. -/
def isMarkerActive (maxFailedEvents : Nat) (prior : Option ApprovalSecurityAuditRateStateV2)
    (recent : List Instant) : Bool :=
  prior.any (·.rateLimitMarkerRecorded) && recent.length == maxFailedEvents

def replayEvent (replay : RateReplay) (event : ApprovalSecurityAuditEventV2) :
    Except AuditException RateReplay := do
  let floor ← windowFloor APPROVAL_AUDIT_WINDOW_SECONDS event.occurredAt
  let recent := ((replay.failures.lookup event.actorSha256).getD []).filter (floor < ·)
  let markerActive := isMarkerActive APPROVAL_AUDIT_MAX_FAILED_EVENTS
    (replay.states.lookup event.actorSha256) recent
  let (recent, markerActive) ← countEvent event.eventKind event.occurredAt recent markerActive
  let expectedWindowStart := recent.headD event.occurredAt
  require (event.rateWindowStartedAt = expectedWindowStart)
    (.canonicalStorage "approval audit rolling window mismatch")
  let state : ApprovalSecurityAuditRateStateV2 :=
    { actorSha256 := event.actorSha256, windowStartedAt := expectedWindowStart
      failedEventCount := recent.length, rateLimitMarkerRecorded := markerActive }
  state.validate
  pure { states := assign event.actorSha256 state replay.states
         failures := assign event.actorSha256 recent replay.failures }

/-- `_approval_audit_rate_states`. -/
def approvalAuditRateStates (events : List ApprovalSecurityAuditEventV2) :
    Except AuditException (List ApprovalSecurityAuditRateStateV2) :=
  (events.foldlM replayEvent {}).map fun replay =>
    (replay.states.insertionSort fun x y => x.1 ≤ y.1).map Prod.snd

/-! ## The reader -/

/-- `{sequence:04d}-{sha256}.json`; of such names the byte order is the order of the pairs. -/
structure EventName where
  sequence : Nat
  hash : String
  deriving DecidableEq, Repr

def EventName.le (x y : EventName) : Prop :=
  x.sequence < y.sequence ∨ (x.sequence = y.sequence ∧ x.hash ≤ y.hash)

instance (x y : EventName) : Decidable (x.le y) := inferInstanceAs (Decidable (_ ∨ _))

/-- `approval-failure-audit`: `events`, `current.json` and `current.tmp`. -/
structure AuditDirectory (Bytes : Type) where
  events : Option (List (EventName × Bytes)) := none
  current : Option Bytes := none
  temporary : Option Bytes := none

structure AuditStore (Bytes : Type) where
  format : AuditFormat Bytes
  maxArtifactBytes : Nat
  /-- `run_id_sha256(run_id)`. -/
  runIdSha256 : String

variable (store : AuditStore Bytes)

/-- `_read_bounded`. -/
def readBounded (maxBytes : Nat) (data : Bytes) : Except AuditException Bytes :=
  (require (store.format.size data ≤ maxBytes)
    (.canonicalStorage "terminal artifact exceeds configured byte limit")).map fun _ => data

/-- The local variables of the loop over the event files. -/
structure EventLoop where
  events : List ApprovalSecurityAuditEventV2 := []
  expectedPrevious : Option String := none
  totalBytes : Nat := 0
  priorTime : Option Instant := none

/-- One event file, the `sequence`-th counted from 0. -/
def readEvent (runIdSha256 : String) (s : EventLoop) (entry : (EventName × Bytes) × Nat) :
    Except AuditException EventLoop := do
  let ((name, content), sequence) := entry
  require (name.sequence = sequence + 1)
    (.canonicalStorage "approval failure audit event path mismatch")
  let data ← readBounded store APPROVAL_AUDIT_MAX_EVENT_BYTES content
  let event ← parseEvent store.format data
  require (event.sequence = sequence + 1 ∧ event.previousEventSha256 = s.expectedPrevious ∧
      event.runIdSha256 = runIdSha256 ∧ event.eventSha256 = name.hash)
    (.canonicalStorage "approval failure audit event lineage mismatch")
  require (∀ prior ∈ s.priorTime, prior ≤ event.occurredAt)
    (.canonicalStorage "approval failure audit clock rollback")
  pure { events := s.events ++ [event], expectedPrevious := some event.eventSha256
         totalBytes := s.totalBytes + store.format.size data, priorTime := some event.occurredAt }

/-- `_empty_approval_audit_pointer`. -/
def emptyApprovalAuditPointer : ApprovalSecurityAuditPointerV2 where
  runIdSha256 := store.runIdSha256
  auditSequence := 0
  headEventSha256 := none
  totalEventBytes := 0
  rateStates := []
  updatedAt := none

/-- The reader on the event files and the pointer that are there. -/
def readChain (files : List (EventName × Bytes)) (current : Bytes) : Except AuditException
    (ApprovalSecurityAuditPointerV2 × List ApprovalSecurityAuditEventV2) := do
  let pointerBytes ← readBounded store store.maxArtifactBytes current
  let pointer ← parsePointer store.format pointerBytes
  require (pointer.runIdSha256 = store.runIdSha256)
    (.canonicalStorage "approval failure audit run mismatch")
  let eventFiles := files.insertionSort fun x y => x.1.le y.1
  require (eventFiles.length = pointer.auditSequence)
    (.canonicalStorage "approval failure audit is truncated")
  let s ← eventFiles.zipIdx.foldlM (readEvent store pointer.runIdSha256) {}
  let expectedStates ← approvalAuditRateStates s.events
  require (pointer.headEventSha256 = s.expectedPrevious ∧ pointer.totalEventBytes = s.totalBytes ∧
      pointer.rateStates = expectedStates ∧ pointer.updatedAt = s.priorTime)
    (.canonicalStorage "approval failure audit pointer mismatch")
  pure (pointer, s.events)

/-- `_read_approval_failure_audit`. -/
def readApprovalFailureAudit (root : Option (AuditDirectory Bytes)) : Except AuditException
    (ApprovalSecurityAuditPointerV2 × List ApprovalSecurityAuditEventV2) :=
  match root with
  | none => pure (emptyApprovalAuditPointer store, [])
  | some directory => do
    require directory.temporary.isNone
      (.canonicalStorage "approval failure audit pointer is incomplete")
    match directory.events, directory.current with
    | none, none => pure (emptyApprovalAuditPointer store, [])
    | some files, some current => readChain store files current
    | _, _ => throw (.canonicalStorage "approval failure audit namespace is incomplete")

end PokerDeliberation.Approvals
