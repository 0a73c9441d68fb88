import PokerDeliberation.Lib.Stateful
import PokerDeliberation.Terminal.Publish
import Mathlib.Data.List.Basic

/-!
# The directory of a run

What `publish` does to the files and directories of the run, and which failure
it reports of it. A step that raises may have made some of its entries; a
rename and the replacement of the current pointer happen or do not. A
`Surroundings` says what each step raises, within what the source raises
there, and what the two `read_current` of the call find.
-/

namespace PokerDeliberation.Terminal

open Lib Budgets

/-- A path under the directory of the run. -/
abbrev Path := List String

instance : LawfulBEq Path := inferInstance

/-- `current` is what `current.json` holds, `entries` the other files and directories. -/
structure RunDirectory where
  current : Option String
  entries : List Path
  deriving DecidableEq, Repr

namespace RunDirectory

def run : Path := []

def control : Path := [".terminal-store"]

def transactions : Path := control ++ ["transactions"]

def revisions : Path := control ++ ["revisions"]

variable (directory : RunDirectory)

/-- Every file and directory of the run. -/
def paths : List Path :=
  directory.entries ++ if directory.current.isSome then [control ++ ["current.json"]] else []

/-- `mkdir` where nothing is, or a new file. -/
def create (path : Path) : RunDirectory :=
  if path ∈ directory.entries then directory
  else { directory with entries := directory.entries ++ [path] }

def createAll (paths : List Path) : RunDirectory := paths.foldl create directory

/-- `source.replace(target)`. -/
def move (source target : Path) : RunDirectory :=
  { directory with
    entries := directory.entries.map fun path =>
      if source <+: path then target ++ path.drop source.length else path }

/-- `os.replace(temporary, current_path)`. -/
def replaceCurrent (temporary : Path) (data : String) : RunDirectory where
  current := some data
  entries := directory.entries.filter (· ≠ temporary)

/-- `any(directory.iterdir())`. -/
def occupied (parent : Path) : Bool :=
  directory.entries.any fun path => parent <+: path ∧ path ≠ parent

end RunDirectory

/-! ## Reading the current revision -/

/-- The request with what it expects of the current revision. -/
structure StagedRequest extends TerminalPublishRequest where
  expectedRevision : Option Nat
  expectedManifestSha256 : Option String
  deriving DecidableEq, Repr

structure VerifiedRunReadV2 where
  revision : Nat
  transactionId : String
  manifestSha256 : String
  currentPointerSha256 : String
  deriving DecidableEq, Repr

/-- How `read_current` fails; `other` is what it does not turn into a failure of its own. -/
inductive ReadFault where
  | crossRun | incomplete | notFound | unsupportedVersion | corrupt
  | rootIncomplete (reconciliationRequired : Bool)
  | budgetUnverified (revision : Nat) (pointerSha256 : String)
  | unstable (revision : Nat) (pointerSha256 : String)
  | other
  deriving DecidableEq, Repr

/-- The checks before the current pointer is looked for, and the reading of what it names. -/
structure Reading where
  opening : Option ReadFault
  verified : Except ReadFault VerifiedRunReadV2

/-- Where there is a current pointer. -/
def Reading.outcome (reading : Reading) : Except ReadFault VerifiedRunReadV2 :=
  match reading.opening with
  | some fault => .error fault
  | none => reading.verified

def RunDirectory.readCurrent (directory : RunDirectory) (reading : Reading) :
    Except ReadFault VerifiedRunReadV2 :=
  if directory.current.isSome then reading.outcome
  else
    match reading.opening with
    | some fault => .error fault
    | none =>
      if directory.occupied revisions ∨ directory.occupied transactions then .error .incomplete
      else .error .notFound

section Failures

variable (coordinator : DurableBudgetCoordinator) (request : TerminalPublishRequest)

/-- `_failure` of a read, which names no transaction. -/
def readFailure (code : ProductRunFailureCode) (stage : String) : ProductRunFailureV2 where
  runIdSha256 := coordinator.product (.runId request.runId)
  code
  stage

def ReadFault.raised : ReadFault → Raised
  | .crossRun => .product (readFailure coordinator request .crossRunMismatch "namespace")
  | .incomplete => .product { readFailure coordinator request .runIncomplete "read_pointer" with
      readStatus := some .incomplete, reconciliationRequired := true }
  | .notFound => .product (readFailure coordinator request .runNotFound "read_pointer")
  | .unsupportedVersion => .product
      { readFailure coordinator request .unsupportedRunVersion "read_version" with
        readStatus := some .unsupportedVersion }
  | .corrupt => .product { readFailure coordinator request .runCorrupt "read_verify" with
      readStatus := some .corrupt, reconciliationRequired := true }
  | .rootIncomplete reconciliationRequired => .product
      { readFailure coordinator request .runIncomplete "root_verify" with
        readStatus := some .incomplete, reconciliationRequired }
  | .budgetUnverified revision pointerSha256 => .product
      { readFailure coordinator request .budgetSettlementFailed "budget_verify" with
        readStatus := some .incomplete, observedRevision := some revision
        observedPointerSha256 := some pointerSha256, reconciliationRequired := true
        filesystemEffect := .currentAdvanced, domainEffect := .currentAdvanced
        previousRevisionEffect := if revision = 1 then .notApplicable else .unchanged }
  | .unstable revision pointerSha256 => .product
      { readFailure coordinator request .runConflict "read_stability" with
        observedRevision := some revision, observedPointerSha256 := some pointerSha256 }
  | .other => .other

/-- `_prepare` refuses the request. -/
def preflightFailure : ProductRunFailureV2 :=
  { failure coordinator request .artifactSchemaError "preflight" with
    previousRevisionEffect := previousEffect request }

/-- What a step raises in the source, apart from what the directory decides: a
failure of the product from `_prepare` and `_scan_aliases`, one that leaves the
current revision unchanged from the verifier of the caller, and a failure of
the lock from `_ownership` and `_authority`. -/
def Step.MayRaise : Step → Raised → Prop
  | .prepare, e => e = .product (preflightFailure coordinator request)
  | .scanAliases, .product f | .rescanAliases, .product f =>
    f = readFailure coordinator request .crossRunMismatch "namespace"
  | .preManifestVerifier, .product f => f.domainEffect = .currentUnchanged
  | _, .product _ => False
  | .ownership, .storage _ | .authority, .storage _ | .preManifestVerifier, .storage _ => True
  | _, .storage _ => False
  | _, _ => True

end Failures

/-! ## The steps on the directory -/

/-- What one call meets. Of the entries that a step makes, `made` are there when it raises. -/
structure Surroundings (coordinator : DurableBudgetCoordinator) (request : StagedRequest)
    extends Outside where
  made : Step → Nat
  pointerDigest : String → String
  pointerBytes : String
  admission : Reading
  closing : Reading
  raises : ∀ s e, fault s = some e → s.MayRaise coordinator request.toTerminalPublishRequest e

/-- The local variables, the directory, and whether the current pointer was replaced. -/
structure Stored where
  publishing : Publishing
  directory : RunDirectory
  replaced : Bool := false

/-- `read_current`. -/
def readCurrent (coordinator : DurableBudgetCoordinator) (request : TerminalPublishRequest)
    (reading : Reading) : Stateful Raised Stored VerifiedRunReadV2 := do
  let w ← Stateful.read
  Stateful.lift ((w.directory.readCurrent reading).mapError (ReadFault.raised coordinator request))

/-- A procedure on the local variables and the budget. -/
def onPublishing {ε α : Type} : Stateful ε Publishing α → Stateful ε Stored α :=
  Stateful.within Stored.publishing fun publishing stored => { stored with publishing }

section Publish

variable {coordinator : DurableBudgetCoordinator} {request : StagedRequest}
variable (surroundings : Surroundings coordinator request)

def StagedRequest.staging (request : StagedRequest) : Path :=
  RunDirectory.transactions ++ [request.transactionId]

def StagedRequest.revision (request : StagedRequest) : Path :=
  RunDirectory.revisions ++
    ["r" ++ toString request.proposedRevision ++ "-" ++ request.transactionId]

def StagedRequest.temporary (request : StagedRequest) : Path :=
  RunDirectory.control ++ ["current." ++ request.transactionId ++ ".tmp"]

/-- The parts of a logical name. -/
def nameParts (logicalName : String) : Path :=
  (logicalName.toList.splitOn '/').map String.ofList

namespace Surroundings

/-- The entries a step makes, in order; those that are there already stay. -/
def creates : Step → List Path
  | .bootstrapNamespace =>
    [RunDirectory.run, RunDirectory.control, RunDirectory.transactions, RunDirectory.revisions]
  | .stagingMkdir => [request.staging]
  | .transaction => [request.staging ++ ["transaction.json"]]
  | .payloadMkdir => [request.staging ++ ["payload"]]
  | .payload logicalName =>
    ((nameParts logicalName).inits.drop 1).map fun parts => request.staging ++ ["payload"] ++ parts
  | .manifest => [request.staging ++ ["manifest.json"]]
  | .completion =>
    if surroundings.prepared.markerSha256.isSome then [request.staging ++ ["completion.json"]] else []
  | .pointer => [request.temporary]
  | _ => []

/-- A step of the storage side. -/
def step (s : Step) : Stateful Raised Stored Unit := fun w =>
  match surroundings.fault s with
  | none => (.ok (), { w with directory := w.directory.createAll (surroundings.creates s) })
  | some e =>
    (.error e, { w with
      directory := w.directory.createAll ((surroundings.creates s).take (surroundings.made s)) })

/-- `staging.replace(revision)`. -/
def rename : Stateful Raised Stored Unit := do
  surroundings.step .rename
  Stateful.modify fun w =>
    { w with
      directory := w.directory.move request.staging request.revision
      publishing := { w.publishing with revisionPublished := true } }

/-- `os.replace(temporary, current_path)`. -/
def replace : Stateful Raised Stored Unit := do
  surroundings.step .replace
  Stateful.modify fun w =>
    { w with
      directory := w.directory.replaceCurrent request.temporary surroundings.pointerBytes
      publishing := { w.publishing with pointerPublished := true }
      replaced := true }

/-- `_admit_current`: whether the current revision is the requested one already. -/
def admitCurrent : Stateful Raised Stored Bool := do
  let w ← Stateful.read
  let refused := fun code => failure coordinator request.toTerminalPublishRequest code "locked_admission"
  if w.directory.current.isNone then
    if request.expectedRevision.isSome then Stateful.raise (.product (refused .runConflict))
    else return false
  else
    let current ← readCurrent coordinator request.toTerminalPublishRequest surroundings.admission
    let observed := fun code => { refused code with
      observedRevision := some current.revision
      observedPointerSha256 := some current.currentPointerSha256 }
    if current.transactionId = request.transactionId ∧
        current.revision = request.proposedRevision then
      if current.manifestSha256 = surroundings.prepared.manifestSha256 ∧
          current.currentPointerSha256 = surroundings.prepared.pointerSha256 then return true
      else Stateful.raise (.product (observed .idempotencyConflict))
    else if some current.revision ≠ request.expectedRevision ∨
        some current.manifestSha256 ≠ request.expectedManifestSha256 ∨
        some current.currentPointerSha256 ≠ request.expectedPointerSha256 then
      Stateful.raise (.product { observed .runConflict with
        previousRevisionEffect := previousEffect request.toTerminalPublishRequest })
    else return false

/-- The staging directory and the revision are new. -/
def namespaceCollision : Stateful Raised Stored Unit := do
  surroundings.step .namespaceCollision
  let w ← Stateful.read
  if request.staging ∈ w.directory.entries ∨ request.revision ∈ w.directory.entries then
    Stateful.raise .other

/-- The last comparison of the current pointer with the expected one. -/
def finalCas : Stateful Raised Stored Unit := do
  surroundings.step .finalCas
  let w ← Stateful.read
  let conflict := { failure coordinator request.toTerminalPublishRequest .runConflict "final_cas" with
    filesystemEffect := .unreferencedRevision, reconciliationRequired := true }
  match request.expectedPointerSha256, w.directory.current with
  | none, none => return
  | none, some _ => Stateful.raise (.product conflict)
  | some _, none => Stateful.raise .other
  | some expected, some data =>
    if surroundings.pointerDigest data ≠ expected then
      Stateful.raise (.product { conflict with
        previousRevisionEffect := previousEffect request.toTerminalPublishRequest })

/-- The exclusive lock, up to the admission. -/
def acquire : Stateful Raised Stored Unit := do
  surroundings.step .ownership
  surroundings.step .scanAliases
  surroundings.step .authority
  onPublishing (Stateful.modify fun p => { p with leased := true })
  surroundings.step .rescanAliases
  surroundings.step .verifyNamespace

/-- The revision and the pointer to it. -/
def stage : Stateful Raised Stored Unit := do
  surroundings.step .preManifestVerifier
  surroundings.step .guardStaging
  surroundings.step .bootstrapNamespace
  surroundings.namespaceCollision
  surroundings.step .stagingMkdir
  surroundings.step .transaction
  surroundings.step .payloadMkdir
  request.inventory.forM fun name => surroundings.step (.payload name)
  surroundings.step .manifest
  surroundings.step .verifyPayloadInventory
  surroundings.step .completion
  surroundings.step .beforeRename
  surroundings.step .guardRevision
  surroundings.rename
  surroundings.step .afterRename
  surroundings.step .readRevision
  surroundings.finalCas
  surroundings.step .pointer
  surroundings.step .beforeReplace
  surroundings.step .guardCurrent
  surroundings.replace

/-- What follows the replacement of the pointer, up to the closing read. -/
def settle : Stateful Raised Stored Unit := do
  surroundings.step .afterReplace
  surroundings.step .currentPointer
  surroundings.step .directorySync
  (onPublishing (coordinator.settle surroundings.toOutside request.toTerminalPublishRequest)).catching
    fun e => Stateful.raise (.store e)

/-- The guarded block up to the closing read: whether this call has moved the pointer. -/
def advance : Stateful Raised Stored Bool := do
  surroundings.acquire
  if ← surroundings.admitCurrent then return false
  surroundings.stage
  surroundings.settle
  return true

/-- The guarded block of `publish`. -/
def guarded : Stateful Raised Stored TerminalPublishOutcome := do
  let advanced ← surroundings.advance
  if advanced then
    let _ ← readCurrent coordinator request.toTerminalPublishRequest surroundings.closing
    return outcome coordinator surroundings.toOutside request.toTerminalPublishRequest .published
  else
    return outcome coordinator surroundings.toOutside request.toTerminalPublishRequest
      .currentCommitted

/-- Up to the guarded block: the request is prepared and its permit reserved. -/
def reserve : Stateful Raised Stored Unit := do
  surroundings.step .prepare
  surroundings.step .guardPrepared
  onPublishing (reserved coordinator surroundings.toOutside request.toTerminalPublishRequest)

/-- `TerminalRunStore.publish` on the directory of the run. -/
def publish : Stateful Raised Stored TerminalPublishOutcome := do
  surroundings.reserve
  (surroundings.guarded.catching fun e =>
      (onPublishing (handle coordinator surroundings.toOutside request.toTerminalPublishRequest e))).ensuring
    (onPublishing (releaseLease coordinator surroundings.toOutside request.toTerminalPublishRequest))

end Surroundings

end Publish

end PokerDeliberation.Terminal
