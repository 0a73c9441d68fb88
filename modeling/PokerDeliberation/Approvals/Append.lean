import PokerDeliberation.Approvals.Audit
import PokerDeliberation.Lib.Stateful

/-!
# Appending to the approval failure audit

`append_approval_failure_audit`, first what it prepares and then the files it
writes. What the call needs besides the audit itself, the authority over the
run and the run's product, is given with the call.
-/

namespace PokerDeliberation.Approvals

open Lib

/-- An aware or naive datetime: what its clock shows and its offset from UTC. -/
structure RequestTime where
  clock : Instant
  utcoffset : Option Int
  deriving DecidableEq, Repr

structure ApprovalFailureAuditRequest where
  actorSha256 : String
  decisionIdSha256 : String
  idempotencyKeySha256 : String
  batchSha256 : Option String
  failureCode : ApprovalFailureCode
  observedRunRevision : Option Int
  observedLedgerRevision : Option Int
  occurredAt : RequestTime
  deriving DecidableEq, Repr

inductive DirectorySync where
  | confirmed | unavailable
  deriving DecidableEq, Repr

structure ApprovalFailureAuditOutcome where
  event : ApprovalSecurityAuditEventV2
  pointer : ApprovalSecurityAuditPointerV2
  pointerSha256 : String
  directorySync : DirectorySync
  deriving DecidableEq, Repr

/-- What the call raises: `ApprovalFailureAuditError`, or `ValueError`. -/
inductive AuditError where
  | valueError (text : String)
  | failure (code : ApprovalFailureCode) (message : String) (auditConfirmed : Bool)
  deriving DecidableEq, Repr

structure AuditLimits where
  maxEvents : Nat := APPROVAL_AUDIT_MAX_EVENTS
  maxEventBytes : Nat := APPROVAL_AUDIT_MAX_EVENT_BYTES
  maxTotalBytes : Nat := APPROVAL_AUDIT_MAX_TOTAL_BYTES
  maxFailedEvents : Nat := APPROVAL_AUDIT_MAX_FAILED_EVENTS
  windowSeconds : Nat := APPROVAL_AUDIT_WINDOW_SECONDS
  deriving DecidableEq, Repr

/-- The limits a call may ask for. -/
structure AuditLimits.Admissible (limits : AuditLimits) : Prop where
  maxEvents : 1 ≤ limits.maxEvents ∧ limits.maxEvents ≤ APPROVAL_AUDIT_MAX_EVENTS
  maxEventBytes : 1 ≤ limits.maxEventBytes ∧ limits.maxEventBytes ≤ APPROVAL_AUDIT_MAX_EVENT_BYTES
  maxTotalBytes : 1 ≤ limits.maxTotalBytes ∧ limits.maxTotalBytes ≤ APPROVAL_AUDIT_MAX_TOTAL_BYTES
  maxFailedEvents : limits.maxFailedEvents = APPROVAL_AUDIT_MAX_FAILED_EVENTS
  windowSeconds : limits.windowSeconds = APPROVAL_AUDIT_WINDOW_SECONDS

theorem AuditLimits.admissible_iff (limits : AuditLimits) : limits.Admissible ↔
    (1 ≤ limits.maxEvents ∧ limits.maxEvents ≤ APPROVAL_AUDIT_MAX_EVENTS) ∧
    (1 ≤ limits.maxEventBytes ∧ limits.maxEventBytes ≤ APPROVAL_AUDIT_MAX_EVENT_BYTES) ∧
    (1 ≤ limits.maxTotalBytes ∧ limits.maxTotalBytes ≤ APPROVAL_AUDIT_MAX_TOTAL_BYTES) ∧
    limits.maxFailedEvents = APPROVAL_AUDIT_MAX_FAILED_EVENTS ∧
    limits.windowSeconds = APPROVAL_AUDIT_WINDOW_SECONDS :=
  ⟨fun ⟨a, b, c, d, e⟩ => ⟨a, b, c, d, e⟩, fun ⟨a, b, c, d, e⟩ => ⟨a, b, c, d, e⟩⟩

instance (limits : AuditLimits) : Decidable limits.Admissible :=
  decidable_of_iff _ limits.admissible_iff.symm

/-- One call: `authority` is what taking the run's authority and verifying its namespace
raises, if anything, and `productRun` whether the run has a pointer. -/
structure AuditCall where
  request : ApprovalFailureAuditRequest
  limits : AuditLimits := {}
  authority : Except AuditException Unit := .ok ()
  productRun : Bool := true
  directorySync : DirectorySync := .confirmed
  leaseReleased : Bool := true

abbrev AuditRoot (Bytes : Type) := Option (AuditDirectory Bytes)

variable {Bytes : Type} (store : AuditStore Bytes)

/-! ## What a call prepares -/

structure PreparedAudit (Bytes : Type) where
  event : ApprovalSecurityAuditEventV2
  eventBytes : Bytes
  pointer : ApprovalSecurityAuditPointerV2
  pointerBytes : Bytes

/-- `recent_failures`. -/
def recentFailures (floor : Instant) (actor : String)
    (events : List ApprovalSecurityAuditEventV2) : List Instant :=
  (events.filter fun event => event.actorSha256 = actor ∧ event.eventKind = .failure ∧
    floor < event.occurredAt).map (·.occurredAt)

/-- `event_kind` and `failure_code`. -/
def eventKindOf (limits : AuditLimits) (recent : List Instant) (markerActive : Bool)
    (failureCode : ApprovalFailureCode) : Except AuditException (EventKind × ApprovalFailureCode) :=
  if limits.maxFailedEvents ≤ recent.length then do
    require (markerActive = false)
      (.failureAudit .auditRateLimited "Approval failure audit rate limit is active." true)
    pure (.rateLimit, .auditRateLimited)
  else pure (.failure, failureCode)

/-- The event with its digest in place of zeros. -/
def sealEvent (draft : ApprovalSecurityAuditEventV2) : ApprovalSecurityAuditEventV2 :=
  { draft with eventSha256 := store.format.approvalSecurityAuditEventSha256 draft }

/-- The event that a request makes after those of the audit. -/
def nextEvent (limits : AuditLimits) (request : ApprovalFailureAuditRequest)
    (pointer : ApprovalSecurityAuditPointerV2) (events : List ApprovalSecurityAuditEventV2) :
    Except AuditException ApprovalSecurityAuditEventV2 := do
  let occurredAt := request.occurredAt.clock
  let priorRate := pointer.rateStates.find? fun state => state.actorSha256 = request.actorSha256
  let floor ← windowFloor limits.windowSeconds occurredAt
  let recent := recentFailures floor request.actorSha256 events
  let markerActive := isMarkerActive limits.maxFailedEvents priorRate recent
  let (eventKind, failureCode) ← eventKindOf limits recent markerActive request.failureCode
  let event := sealEvent store
    { sequence := pointer.auditSequence + 1
      previousEventSha256 := pointer.headEventSha256
      eventKind := eventKind
      runIdSha256 := store.runIdSha256
      actorSha256 := request.actorSha256
      decisionIdSha256 := request.decisionIdSha256
      idempotencyKeySha256 := request.idempotencyKeySha256
      batchSha256 := request.batchSha256
      failureCode := failureCode
      observedRunRevision := request.observedRunRevision
      observedLedgerRevision := request.observedLedgerRevision
      occurredAt := occurredAt
      rateWindowStartedAt := recent.headD occurredAt
      eventSha256 := String.ofList (List.replicate 64 '0') }
  event.validate store.format
  pure event

/-- The pointer after the event. -/
def nextPointer (pointer : ApprovalSecurityAuditPointerV2)
    (events : List ApprovalSecurityAuditEventV2) (event : ApprovalSecurityAuditEventV2)
    (eventBytes : Bytes) : Except AuditException ApprovalSecurityAuditPointerV2 := do
  let rateStates ← approvalAuditRateStates (events ++ [event])
  let next : ApprovalSecurityAuditPointerV2 :=
    { runIdSha256 := store.runIdSha256
      auditSequence := event.sequence
      headEventSha256 := some event.eventSha256
      totalEventBytes := pointer.totalEventBytes + store.format.size eventBytes
      rateStates := rateStates
      updatedAt := some event.occurredAt }
  next.validate
  pure next

def prepareAudit (call : AuditCall) (root : AuditRoot Bytes) :
    Except AuditException (PreparedAudit Bytes) := do
  require call.productRun
    (.canonicalStorage "approval failure audit requires an existing product run")
  let (pointer, events) ← readApprovalFailureAudit store root
  require (∀ updatedAt ∈ pointer.updatedAt, updatedAt ≤ call.request.occurredAt.clock)
    (.canonicalStorage "approval failure audit clock rollback")
  require (events.length < call.limits.maxEvents)
    (.failureAudit .auditCapacityExceeded "Approval failure audit event capacity is exhausted."
      false)
  let event ← nextEvent store call.limits call.request pointer events
  let eventBytes := store.format.encodeEvent event
  require (store.format.size eventBytes ≤ call.limits.maxEventBytes)
    (.failureAudit .auditCapacityExceeded "Approval failure audit event exceeds its byte limit."
      false)
  require (pointer.totalEventBytes + store.format.size eventBytes ≤ call.limits.maxTotalBytes)
    (.failureAudit .auditCapacityExceeded "Approval failure audit byte capacity is exhausted."
      false)
  let next ← nextPointer store pointer events event eventBytes
  let pointerBytes := store.format.encodePointer next
  require (store.format.size pointerBytes ≤ store.maxArtifactBytes)
    (.failureAudit .auditCapacityExceeded "Approval failure audit pointer exceeds its byte limit."
      false)
  pure ⟨event, eventBytes, next, pointerBytes⟩

/-! ## What it writes -/

abbrev AuditProc (Bytes : Type) := Stateful AuditException (AuditRoot Bytes)

/-- A change of the directory, which is there. -/
def update (change : AuditDirectory Bytes → AuditDirectory Bytes) : AuditProc Bytes Unit :=
  Stateful.modify fun root => some (change (root.getD {}))

/-- Both directories are there afterwards. -/
def recognizedDirectories : AuditProc Bytes Unit :=
  update fun directory => { directory with events := some (directory.events.getD []) }

/-- `_write_exclusive_verified` of the event file. -/
def writeEvent (name : EventName) (data : Bytes) : AuditProc Bytes Unit := do
  let root ← Stateful.read
  let files := ((root.getD {}).events).getD []
  Stateful.lift (require (name ∉ files.map Prod.fst) .os)
  update fun directory => { directory with events := some (files ++ [(name, data)]) }

/-- `_write_exclusive_verified` of `current.tmp`. -/
def writeTemporary (data : Bytes) : AuditProc Bytes Unit := do
  let root ← Stateful.read
  Stateful.lift (require (root.getD {}).temporary.isNone .os)
  update fun directory => { directory with temporary := some data }

/-- `os.replace(temporary, audit_root / "current.json")`. -/
def replaceCurrent : AuditProc Bytes Unit :=
  update fun directory => { directory with current := directory.temporary, temporary := none }

def EventName.of (event : ApprovalSecurityAuditEventV2) : EventName :=
  ⟨event.sequence, event.eventSha256⟩

/-- Up to the replacement of the pointer. -/
def publishAudit (call : AuditCall) : AuditProc Bytes (PreparedAudit Bytes) := do
  let root ← Stateful.read
  let prepared ← Stateful.lift (prepareAudit store call root)
  recognizedDirectories
  writeEvent (EventName.of prepared.event) prepared.eventBytes
  writeTemporary prepared.pointerBytes
  replaceCurrent
  pure prepared

/-- The pointer is read again and has the bytes that were written. -/
def rereadPointer [DecidableEq Bytes] (prepared : PreparedAudit Bytes) (root : AuditRoot Bytes) :
    Except AuditException Unit :=
  match root.bind AuditDirectory.current with
  | none => .error .os
  | some current => do
    let data ← readBounded store store.maxArtifactBytes current
    require (data = prepared.pointerBytes)
      (.canonicalStorage "approval failure audit pointer reread mismatch")

/-- After the replacement: the pointer and the audit are read again. -/
def confirmAudit [DecidableEq Bytes] (call : AuditCall) (prepared : PreparedAudit Bytes) :
    AuditProc Bytes ApprovalFailureAuditOutcome := do
  let root ← Stateful.read
  Stateful.lift (rereadPointer store prepared root)
  let (verifiedPointer, verifiedEvents) ← Stateful.lift (readApprovalFailureAudit store root)
  Stateful.lift (require (verifiedPointer = prepared.pointer ∧
      verifiedEvents.getLast? = some prepared.event)
    (.canonicalStorage "approval failure audit verification mismatch"))
  Stateful.lift (require (prepared.event.eventKind ≠ .rateLimit)
    (.failureAudit .auditRateLimited "Approval failure audit rate limit is active." true))
  pure ⟨prepared.event, prepared.pointer,
    store.format.approvalSecurityAuditPointerSha256 prepared.pointer, call.directorySync⟩

/-- The `except` clauses. -/
def failureOf (pointerPublished : Bool) : AuditException → AuditError
  | .failureAudit code message auditConfirmed => .failure code message auditConfirmed
  | .canonicalStorage _ | .validation _ =>
    .failure (if pointerPublished then .auditUnconfirmed else .approvalLedgerCorrupt)
      "Approval failure audit could not be verified." false
  | .runStorage | .os =>
    .failure .auditUnconfirmed "Approval failure audit could not be confirmed." false
  | .canonicalApproval | .other =>
    .failure .auditUnconfirmed "Approval failure audit failed closed." false

/-- The checks of the arguments, and the run's authority. -/
def AuditCall.admit (call : AuditCall) : Except AuditError Unit := do
  require call.limits.Admissible
    (.valueError "approval failure audit limits exceed the contract")
  require (call.request.occurredAt.utcoffset = some 0)
    (.valueError "approval failure audit time must be UTC")
  call.authority.mapError (failureOf false)

/-- The call under the run's authority, which it releases at the end. -/
def appendUnderAuthority [DecidableEq Bytes] (call : AuditCall) :
    Stateful AuditError (AuditRoot Bytes) ApprovalFailureAuditOutcome :=
  Stateful.ensuring
    (do
      let prepared ← (publishAudit store call).catching fun e => Stateful.raise (failureOf false e)
      (confirmAudit store call prepared).catching fun e => Stateful.raise (failureOf true e))
    (Stateful.lift (require call.leaseReleased (.failure .auditUnconfirmed
      "Approval failure audit authority release is unconfirmed." false)))

/-- `append_approval_failure_audit`. -/
def appendApprovalFailureAudit [DecidableEq Bytes] (call : AuditCall) :
    Stateful AuditError (AuditRoot Bytes) ApprovalFailureAuditOutcome := do
  Stateful.lift call.admit
  appendUnderAuthority store call

/-- The audit files after some calls. -/
def runCalls [DecidableEq Bytes] (calls : List AuditCall) (root : AuditRoot Bytes) :
    AuditRoot Bytes :=
  calls.foldl (fun root call => (appendApprovalFailureAudit store call root).2) root

end PokerDeliberation.Approvals
