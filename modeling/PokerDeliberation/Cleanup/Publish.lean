import PokerDeliberation.Lib.Stateful

/-!
# Publishing a cleanup action

`_publish_quarantine` moves the run of the product root to the quarantine of
the cleanup root; `_publish_delete` moves it on to the staging area and deletes
it there. Both write a journal first, publish what they did under the control
directory of the run, and report what is left when they fail. A run of checks
that only read is one `Step`. A step raises whatever it raises, and a step that
renames, replaces or makes a directory has then done nothing.
-/

namespace PokerDeliberation.Cleanup

open Lib

/-! ## Failures -/

inductive CleanupFailureCode where
  | unsupportedSchema | invalidPlan | planExpired | policyMismatch | candidateIneligible
  | ownershipUnverified | activeOrPending | legalHold | approvalMissing | approvalMismatch
  | actorSpoof | unauthorizedExecution | authorityRevoked | staleSource | staleCleanupRevision
  | runLocked | lockUnavailable | pathConfinementFailed | linkOrReparseDetected | hardlinkDetected
  | aliasConflict | crossVolume | capacityExceeded | auditCapacityExceeded | cancelled
  | durabilityUnconfirmed | effectUnknown | reconciliationRequired | idempotencyConflict
  | internalInvariantError
  deriving DecidableEq, Repr

/-- The codes that ask for reconciliation. -/
def CleanupFailureCode.uncertain : CleanupFailureCode → Bool
  | .durabilityUnconfirmed | .effectUnknown | .reconciliationRequired => true
  | _ => false

inductive FilesystemEffect where
  | none | journalOnly | sourceMoved | deleteStagingMoved | partialDelete | controlPublished
  deriving DecidableEq, Repr

inductive DomainEffect where
  | none | currentUnchanged | currentMayHaveAdvanced | currentAdvanced
  deriving DecidableEq, Repr

/-- `closed` is the part of the validator that ties the effect to the code. -/
structure CleanupFailureV1 where
  code : CleanupFailureCode
  runIdSha256 : Option String
  planSha256 : Option String
  transactionId : Option String
  filesystemEffect : FilesystemEffect := .none
  domainEffect : DomainEffect := .none
  closed : filesystemEffect ≠ .none → code.uncertain = true

def CleanupFailureV1.reconciliationRequired (f : CleanupFailureV1) : Bool := f.code.uncertain

def CleanupFailureV1.retryable (f : CleanupFailureV1) : Bool := f.code = .runLocked

/-- `product` is a `ProductRunError` or a `RunStorageError`, `lockRelease` a `LockReleaseError`. -/
inductive Raised where
  | product (runLocked : Bool)
  | cleanup (failure : CleanupFailureV1)
  | lockRelease
  | other

/-! ## The two roots -/

abbrev Path := List String

/-- The entries of a run, in the order in which they are deleted. -/
abbrev Tree := List String

inductive CleanupState where
  | quarantined | deletePrepared | deleted
  deriving DecidableEq, Repr

/-- What `current.json` names: its revision, with the plan of the manifest. -/
structure CleanupCurrent where
  revision : Nat
  transactionId : String
  state : CleanupState
  planSha256 : String
  executionId : String
  idempotencyKey : String
  deriving DecidableEq, Repr

/-- The run where it is, and its control directory in the cleanup root; `[]` is
the control directory itself, and `current` what its `current.json` holds. -/
structure Roots where
  product : Option Tree
  quarantine : Option Tree
  deleting : Option Tree
  control : List Path
  current : Option CleanupCurrent
  deriving DecidableEq, Repr

namespace Roots

variable (roots : Roots)

def create (path : Path) : Roots := { roots with control := roots.control ++ [path] }

/-- `unlink` or `rmdir`; a directory must be empty. -/
def remove (path : Path) : Option Roots :=
  if path ∈ roots.control ∧ (∀ other ∈ roots.control, path <+: other → other = path) ∧
      (path = [] → roots.current.isNone) then
    some { roots with control := roots.control.filter (· ≠ path) }
  else none

/-- The removals in order, up to the first that fails. -/
def removeAll : List Path → Roots → Roots × Bool
  | [], roots => (roots, true)
  | path :: paths, roots =>
    match roots.remove path with
    | some rest => removeAll paths rest
    | none => (roots, false)

/-- `os.replace(temporary, control / "current.json")`. -/
def publish (temporary : Path) (current : CleanupCurrent) : Roots :=
  { roots with control := roots.control.filter (· ≠ temporary), current := some current }

end Roots

/-! ## Plans and what a call meets -/

/-- `planSha256` is `cleanup_plan_sha256(plan)`. -/
structure CleanupPlanV1 where
  runIdSha256 : String
  planSha256 : String
  executionId : String
  idempotencyKey : String
  expectedCleanupPointerSha256 : Option String
  treeInventorySha256 : String
  deriving DecidableEq, Repr

inductive Step where
  | preamble | admission | acquire | lockedAdmission
  | controlMkdir | transactionsMkdir | revisionsMkdir | transactionRootMkdir
  | journalOpen | journalWrite | journalCapture | journalSync
  | beforeEffect | effectRename | afterEffect
  | revisionMkdir (revision : Nat) | artifact (revision : Nat) (name : String)
  | revisionSync (revision : Nat) | pointerTemporary (revision : Nat)
  | beforePointer (revision : Nat) | pointerReplace (revision : Nat) | afterPointer (revision : Nat)
  | beforeDelete | beforeUnlink (entry : String) | unlink (entry : String)
  | afterUnlink (entry : String) | beforeRmdir | rmdir | afterRmdir | afterDelete
  | release | released
  deriving DecidableEq, Repr

/-- How `inspect_reconciliation` ends: it raises, or can or cannot read the current state. -/
inductive Inspection where
  | raises | unreadable | readable
  deriving DecidableEq, Repr

/-- The `finally` clause: the lock is released and the state verified after it, or not. -/
inductive Release where
  | verified | lockFailed | unverified
  deriving DecidableEq, Repr

/-- What one call meets. `landed` says of a file whose writing raises whether it
is there, `rollbackStops` after how many removals a rollback fails, and the two
flags whether the staging area can be scanned by the handlers and by the
`finally` clause. -/
structure Surroundings where
  fault : Step → Option Raised
  landed : Step → Bool
  rollbackStops : Option Nat
  inspection : Inspection
  stagingReadable : Bool
  stagingReadableAtRelease : Bool
  release : Release
  pointerSha256 : CleanupCurrent → String
  treeSha256 : Tree → String

/-- The roots and the local variables the handlers read. In a delete
`controlCreated` is `transaction_root_created`, `moved` is `staging_moved` and
`pointerAttempted` is `prepare_pointer_attempted`. -/
structure Cleaning where
  roots : Roots
  authority : Bool := false
  journalPublished : Bool := false
  controlCreated : Bool := false
  moved : Bool := false
  pointerAttempted : Bool := false
  preparedPublished : Bool := false
  finalPointerAttempted : Bool := false
  rollbackJournal : Option (List Path) := none

section Actions

variable (surroundings : Surroundings) (plan : CleanupPlanV1) (transactionId : String)

/-! ## Steps -/

/-- Checks that only read. -/
def check (s : Step) : Stateful Raised Cleaning Unit :=
  match surroundings.fault s with
  | none => pure ()
  | some e => Stateful.raise e

/-- A change of the roots that happens or does not; `none` is what the system refuses. -/
def atomic (s : Step) (change : Roots → Option Roots) : Stateful Raised Cleaning Unit := do
  check surroundings s
  let w ← Stateful.read
  match change w.roots with
  | none => Stateful.raise .other
  | some roots => Stateful.modify fun w => { w with roots }

def mkdir (s : Step) (path : Path) : Stateful Raised Cleaning Unit :=
  atomic surroundings s fun roots => if path ∈ roots.control then none else some (roots.create path)

/-- `_write_exclusive`: a file may be there when its writing raises. -/
def writeExclusive (s : Step) (path : Path) : Stateful Raised Cleaning Unit := do
  let w ← Stateful.read
  if path ∈ w.roots.control then
    Stateful.raise .other
  else
    Stateful.modify fun w =>
      if (surroundings.fault s).isNone ∨ surroundings.landed s then
        { w with roots := w.roots.create path }
      else w
    check surroundings s

def transactionRoot : Path := ["transactions", transactionId]

def journal : Path := transactionRoot transactionId ++ ["transaction.json"]

def revisionRoot (revision : Nat) : Path :=
  ["revisions", "r" ++ toString revision ++ "-" ++ transactionId]

def temporary (revision : Nat) : Path :=
  ["current." ++ transactionId ++
    (if revision = 2 then ".prepare" else if revision = 3 then ".deleted" else "") ++ ".tmp"]

/-- The pointer of a revision of this plan. -/
def pointer (revision : Nat) (state : CleanupState) : CleanupCurrent where
  revision
  transactionId
  state
  planSha256 := plan.planSha256
  executionId := plan.executionId
  idempotencyKey := plan.idempotencyKey

/-- The journal, and what a rollback removes of it. -/
def writeJournal (emptyDirectories : List Path) : Stateful Raised Cleaning Unit := do
  mkdir surroundings .transactionRootMkdir (transactionRoot transactionId)
  Stateful.modify fun w => { w with controlCreated := true }
  writeExclusive surroundings .journalOpen (journal transactionId)
  check surroundings .journalWrite
  check surroundings .journalCapture
  Stateful.modify fun w => { w with
    rollbackJournal :=
      some ([journal transactionId, transactionRoot transactionId] ++ emptyDirectories) }
  check surroundings .journalSync
  Stateful.modify fun w => { w with journalPublished := true }
  check surroundings .beforeEffect

/-- The artifacts of a revision and the pointer to it, up to its replacement. -/
def writeRevision (revision : Nat) : Stateful Raised Cleaning Unit := do
  mkdir surroundings (.revisionMkdir revision) (revisionRoot transactionId revision)
  ["transaction.json", "manifest.json", "receipt.json", "tombstone.json"].forM fun name =>
    writeExclusive surroundings (.artifact revision name) (revisionRoot transactionId revision ++ [name])
  check surroundings (.revisionSync revision)
  writeExclusive surroundings (.pointerTemporary revision) (temporary transactionId revision)
  check surroundings (.beforePointer revision)

def replacePointer (revision : Nat) (state : CleanupState) : Stateful Raised Cleaning Unit :=
  atomic surroundings (.pointerReplace revision) fun roots =>
    some (roots.publish (temporary transactionId revision) (pointer plan transactionId revision state))

/-! ## Failures and what they observe -/

/-- `_fail`. -/
def fail (code : CleanupFailureCode) (filesystemEffect : FilesystemEffect)
    (domainEffect : DomainEffect) (closed : filesystemEffect ≠ .none → code.uncertain = true) :
    Raised :=
  .cleanup
    { code, runIdSha256 := some plan.runIdSha256, planSha256 := some plan.planSha256
      transactionId := some transactionId, filesystemEffect, domainEffect, closed }

/-- Whether the effect is known, and only its reconciliation is left. -/
def unsettled (uncertain : Bool) : CleanupFailureCode :=
  if uncertain then .effectUnknown else .reconciliationRequired

@[simp] theorem unsettled_uncertain (uncertain : Bool) : (unsettled uncertain).uncertain = true := by
  cases uncertain <;> rfl

inductive ObservedCurrent where
  | absent | prior | committed | mismatch | unreadable
  deriving DecidableEq, Repr

/-- The current state as `inspect_reconciliation` classifies it. -/
def observedCurrent (expectedState : CleanupState) (roots : Roots) : ObservedCurrent :=
  if [] ∉ roots.control then .absent
  else if surroundings.inspection = .unreadable then .unreadable
  else
    match roots.current with
    | none => .unreadable
    | some current =>
      let same := current.planSha256 = plan.planSha256 ∧ current.executionId = plan.executionId ∧
        current.idempotencyKey = plan.idempotencyKey
      if plan.expectedCleanupPointerSha256 = some (surroundings.pointerSha256 current) then .prior
      else if current.state = expectedState ∧ same then .committed
      else if current.state = .deletePrepared ∧ same then .prior
      else .mismatch

/-- `current_failure_uncertain`. -/
def currentFailureUncertain (expectedState : CleanupState) (settled : ObservedCurrent)
    (roots : Roots) : Bool :=
  surroundings.inspection = .raises ∨ observedCurrent surroundings plan expectedState roots ≠ settled

/-- `_observe_staging_failure`: the effect, and whether the staging area was unreadable. -/
def observedStagingFailure (readable : Bool) (roots : Roots) : FilesystemEffect × Bool :=
  if readable then
    match roots.deleting with
    | none => (.partialDelete, false)
    | some tree =>
      if surroundings.treeSha256 tree = plan.treeInventorySha256 then (.deleteStagingMoved, false)
      else (.partialDelete, false)
  else (.partialDelete, true)

/-- `_rollback_pre_effect_journal`: whether the journal and its directories are removed. -/
def rollback : Stateful Raised Cleaning Bool := fun w =>
  match w.rollbackJournal with
  | none => (.ok false, w)
  | some paths =>
    match surroundings.rollbackStops with
    | none => (.ok (Roots.removeAll paths w.roots).2,
        { w with roots := (Roots.removeAll paths w.roots).1 })
    | some count => (.ok false, { w with roots := (Roots.removeAll (paths.take count) w.roots).1 })

/-- The failure of a known cause that has left nothing. -/
def plainFailure (code : CleanupFailureCode) : Raised :=
  fail plan transactionId code .none .none fun h => absurd rfl h

/-- `_read_current`: nothing where there is no control directory. -/
def Roots.readCurrent (roots : Roots) : Option CleanupCurrent :=
  if [] ∈ roots.control then roots.current else none

/-- The run at hand has the planned inventory. -/
def admitTree (site : Roots → Option Tree) : Stateful Raised Cleaning Unit := do
  let w ← Stateful.read
  if (site w.roots).map surroundings.treeSha256 ≠ some plan.treeInventorySha256 then
    Stateful.raise (plainFailure plan transactionId .staleSource)

/-! ## The quarantine -/

/-- No cleanup of the run is published yet. -/
def admitUncleaned : Stateful Raised Cleaning Unit := do
  let w ← Stateful.read
  if w.roots.readCurrent.isSome then
    Stateful.raise (plainFailure plan transactionId .staleCleanupRevision)

/-- The run leaves the product root. -/
def quarantineRename : Stateful Raised Cleaning Unit := do
  atomic surroundings .effectRename fun roots =>
    match roots.product, roots.quarantine with
    | some tree, none => some { roots with product := none, quarantine := some tree }
    | _, _ => none
  Stateful.modify fun w => { w with moved := true }

/-- The guarded block of `_publish_quarantine`. -/
def quarantineGuarded : Stateful Raised Cleaning Unit := do
  check surroundings .acquire
  Stateful.modify fun w => { w with authority := true }
  admitUncleaned plan transactionId
  admitTree surroundings plan transactionId Roots.product
  check surroundings .lockedAdmission
  mkdir surroundings .controlMkdir []
  Stateful.modify fun w => { w with controlCreated := true }
  mkdir surroundings .transactionsMkdir ["transactions"]
  mkdir surroundings .revisionsMkdir ["revisions"]
  writeJournal surroundings transactionId [["revisions"], ["transactions"], []]
  quarantineRename surroundings
  check surroundings .afterEffect
  writeRevision surroundings transactionId 1
  Stateful.modify fun w => { w with pointerAttempted := true }
  replacePointer surroundings plan transactionId 1 .quarantined
  check surroundings (.afterPointer 1)
  Stateful.modify fun w => { w with authority := false }
  (check surroundings .release).catching fun e =>
    match e with
    | .lockRelease => Stateful.raise (fail plan transactionId .effectUnknown .sourceMoved
        .currentMayHaveAdvanced fun _ => rfl)
    | e => Stateful.raise e
  check surroundings .released

/-- What is reported once the run has left the product root. -/
def sourceMovedFailure (w : Cleaning) : Raised :=
  let uncertain := currentFailureUncertain surroundings plan .quarantined .absent w.roots
  fail plan transactionId (unsettled uncertain) .sourceMoved
    (if uncertain then .currentMayHaveAdvanced else .currentUnchanged) fun _ => unsettled_uncertain _

/-- A rollback of what was made before the effect; `rolledBack` is raised when it
succeeds, `left` is reported when it does not. -/
def rollbackOr (rolledBack : Raised) (left : FilesystemEffect) : Stateful Raised Cleaning Unit := do
  if ← rollback surroundings then
    Stateful.modify fun w => { w with journalPublished := false, controlCreated := false }
    Stateful.raise rolledBack
  else
    Stateful.raise (fail plan transactionId .reconciliationRequired left .currentUnchanged
      fun _ => rfl)

/-- The `except` clauses of `_publish_quarantine`. -/
def handleQuarantine (e : Raised) : Stateful Raised Cleaning Unit := do
  let w ← Stateful.read
  let advanced := fail plan transactionId .effectUnknown .sourceMoved .currentMayHaveAdvanced
    fun _ => rfl
  match e with
  | .product runLocked =>
    let plain := plainFailure plan transactionId (if runLocked then .runLocked else .staleSource)
    if w.moved then Stateful.raise (sourceMovedFailure surroundings plan transactionId w)
    else if w.controlCreated then
      rollbackOr surroundings plan transactionId plain
        (if w.journalPublished then .journalOnly else .controlPublished)
    else Stateful.raise plain
  | .cleanup failure =>
    if w.pointerAttempted then Stateful.raise advanced
    else if w.moved then Stateful.raise (sourceMovedFailure surroundings plan transactionId w)
    else if w.journalPublished then
      rollbackOr surroundings plan transactionId (.cleanup failure) .journalOnly
    else if w.controlCreated then
      rollbackOr surroundings plan transactionId (.cleanup failure) .controlPublished
    else Stateful.raise (.cleanup failure)
  | .lockRelease | .other =>
    let plain := plainFailure plan transactionId .internalInvariantError
    if w.pointerAttempted then Stateful.raise advanced
    else if w.moved then Stateful.raise (sourceMovedFailure surroundings plan transactionId w)
    else if w.journalPublished then
      rollbackOr surroundings plan transactionId plain .journalOnly
    else if w.controlCreated then
      rollbackOr surroundings plan transactionId plain .controlPublished
    else Stateful.raise plain

/-- The `finally` clause of `_publish_quarantine`. -/
def releaseQuarantine : Stateful Raised Cleaning Unit := do
  let w ← Stateful.read
  if w.authority then
    Stateful.modify fun w => { w with authority := false }
    if surroundings.release ≠ .verified then
      Stateful.raise (fail plan transactionId .effectUnknown
        (if w.moved then .sourceMoved else if w.journalPublished then .journalOnly
          else if w.controlCreated then .controlPublished else .none)
        .currentMayHaveAdvanced fun _ => rfl)

def publishQuarantine : Stateful Raised Cleaning Unit := do
  check surroundings .preamble
  ((quarantineGuarded surroundings plan transactionId).catching
      (handleQuarantine surroundings plan transactionId)).ensuring
    (releaseQuarantine surroundings plan transactionId)

/-! ## The delete -/

/-- The run is quarantined, as the plan expects. -/
def admitQuarantined : Stateful Raised Cleaning Unit := do
  let w ← Stateful.read
  match w.roots.readCurrent with
  | none => Stateful.raise (plainFailure plan transactionId .staleCleanupRevision)
  | some current =>
    if current.state ≠ .quarantined ∨
        plan.expectedCleanupPointerSha256 ≠ some (surroundings.pointerSha256 current) then
      Stateful.raise (plainFailure plan transactionId .staleCleanupRevision)

/-- The run leaves the quarantine for the staging area. -/
def stagingRename : Stateful Raised Cleaning Unit := do
  atomic surroundings .effectRename fun roots =>
    match roots.quarantine, roots.deleting with
    | some tree, none => some { roots with quarantine := none, deleting := some tree }
    | _, _ => none
  Stateful.modify fun w => { w with moved := true }

/-- `_unlink_inventory_tree`. -/
def unlinkInventoryTree (tree : Tree) : Stateful Raised Cleaning Unit := do
  tree.forM fun entry => do
    check surroundings (.beforeUnlink entry)
    atomic surroundings (.unlink entry) fun roots =>
      some { roots with deleting := roots.deleting.map (·.erase entry) }
    check surroundings (.afterUnlink entry)
  check surroundings .beforeRmdir
  atomic surroundings .rmdir fun roots => some { roots with deleting := none }
  check surroundings .afterRmdir

/-- The guarded block of `_publish_delete` up to the prepared state. -/
def deletePrepare : Stateful Raised Cleaning Unit := do
  admitQuarantined surroundings plan transactionId
  admitTree surroundings plan transactionId Roots.quarantine
  check surroundings .admission
  check surroundings .acquire
  Stateful.modify fun w => { w with authority := true }
  check surroundings .lockedAdmission
  writeJournal surroundings transactionId []
  stagingRename surroundings
  check surroundings .afterEffect
  writeRevision surroundings transactionId 2
  Stateful.modify fun w => { w with pointerAttempted := true }
  replacePointer surroundings plan transactionId 2 .deletePrepared

/-- From the replacement of the prepared pointer on. -/
def deletePrepared : Stateful Raised Cleaning Unit := do
  Stateful.modify fun w => { w with preparedPublished := true }
  check surroundings .beforeDelete
  let w ← Stateful.read
  unlinkInventoryTree surroundings (w.roots.deleting.getD [])
  check surroundings .afterDelete
  writeRevision surroundings transactionId 3
  Stateful.modify fun w => { w with finalPointerAttempted := true }
  replacePointer surroundings plan transactionId 3 .deleted
  check surroundings (.afterPointer 3)
  Stateful.modify fun w => { w with authority := false }
  (check surroundings .release).catching fun e =>
    match e with
    | .lockRelease => Stateful.raise (fail plan transactionId .effectUnknown .partialDelete
        .currentMayHaveAdvanced fun _ => rfl)
    | e => Stateful.raise e
  check surroundings .released

/-- The guarded block of `_publish_delete`. -/
def deleteGuarded : Stateful Raised Cleaning Unit := do
  deletePrepare surroundings plan transactionId
  check surroundings (.afterPointer 2)
  deletePrepared surroundings plan transactionId

/-- What is reported once the run is in the staging area. -/
def stagingMovedFailure (w : Cleaning) : Raised :=
  let (effect, unreadable) :=
    observedStagingFailure surroundings plan surroundings.stagingReadable w.roots
  let uncertain := unreadable ∨ currentFailureUncertain surroundings plan .deleted .prior w.roots
  fail plan transactionId (unsettled uncertain) effect
    (if uncertain then .currentMayHaveAdvanced
      else if w.preparedPublished then .currentAdvanced else .currentUnchanged)
    fun _ => unsettled_uncertain _

/-- What is reported while it is unknown whether the pointer was replaced. -/
def pointerUnknownFailure (w : Cleaning) (unmoved : FilesystemEffect) : Raised :=
  fail plan transactionId .effectUnknown
    (if w.moved then (observedStagingFailure surroundings plan surroundings.stagingReadable w.roots).1
      else unmoved)
    .currentMayHaveAdvanced fun _ => rfl

/-- The `except` clauses of `_publish_delete`. -/
def handleDelete (e : Raised) : Stateful Raised Cleaning Unit := do
  let w ← Stateful.read
  let unknown := w.finalPointerAttempted ∨ (w.pointerAttempted ∧ ¬ w.preparedPublished)
  let made := w.journalPublished ∨ w.controlCreated
  match e with
  | .product runLocked =>
    let plain := plainFailure plan transactionId (if runLocked then .runLocked else .staleSource)
    if w.moved then Stateful.raise (stagingMovedFailure surroundings plan transactionId w)
    else if made then rollbackOr surroundings plan transactionId plain .journalOnly
    else Stateful.raise plain
  | .cleanup failure =>
    if unknown then
      Stateful.raise (pointerUnknownFailure surroundings plan transactionId w .deleteStagingMoved)
    else if w.moved then Stateful.raise (stagingMovedFailure surroundings plan transactionId w)
    else if made then rollbackOr surroundings plan transactionId (.cleanup failure) .journalOnly
    else Stateful.raise (.cleanup failure)
  | .lockRelease | .other =>
    let plain := plainFailure plan transactionId .internalInvariantError
    if unknown then
      Stateful.raise (pointerUnknownFailure surroundings plan transactionId w
        (if made then .journalOnly else .none))
    else if w.moved then Stateful.raise (stagingMovedFailure surroundings plan transactionId w)
    else if made then rollbackOr surroundings plan transactionId plain .journalOnly
    else Stateful.raise plain

/-- The `finally` clause of `_publish_delete`. -/
def releaseDelete : Stateful Raised Cleaning Unit := do
  let w ← Stateful.read
  if w.authority then
    Stateful.modify fun w => { w with authority := false }
    if surroundings.release ≠ .verified then
      Stateful.raise (fail plan transactionId .effectUnknown
        (if w.moved then
          (observedStagingFailure surroundings plan surroundings.stagingReadableAtRelease w.roots).1
          else if w.journalPublished ∨ w.controlCreated then .journalOnly else .none)
        .currentMayHaveAdvanced fun _ => rfl)

def publishDelete : Stateful Raised Cleaning Unit := do
  check surroundings .preamble
  ((deleteGuarded surroundings plan transactionId).catching
      (handleDelete surroundings plan transactionId)).ensuring
    (releaseDelete surroundings plan transactionId)

end Actions

end PokerDeliberation.Cleanup
