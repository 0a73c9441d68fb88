import PokerDeliberation.Bridge.Storage

/-!
# Publishing a revision

`publish` step by step: the request is prepared and compared with what is
current, an orphan at its ordinal is adopted, and otherwise the revision is
staged, renamed into place and pointed to. Each step may be the last of a call.
-/

namespace PokerDeliberation.Bridge

open Lib Lib.Interruptible

/-- The steps that change the directory of a run. -/
inductive PublishStep where
  | makeStaging | writePayload | writeManifest | writeCompletion | renameRevision | writeTemporary
  | replaceCurrent
  deriving DecidableEq, Repr

abbrev Proc (Bytes : Type) := Interruptible PublishStep Raised (RunDirectory Bytes)

variable {Bytes : Type} [DecidableEq Bytes] (fmt : Format Bytes) (registry : Registry)

/-- `if not condition: raise`. -/
def ensure (p : Prop) [Decidable p] (e : Raised) : Proc Bytes Unit := lift (require p e)

/-! ## Against what is current -/

/-- `if current.exists(): expected = self.read_current(run_id)`. -/
def readExpected (runId : String) (run : RunDirectory Bytes) :
    Except Raised (Option (VerifiedBridgeRead Bytes)) :=
  if run.current.isSome then some <$> readCurrent fmt registry runId run else pure none

/-- The compare-and-swap. -/
def checkCas (request : BridgePublishRequest) (expected : Option (VerifiedBridgeRead Bytes)) :
    Except Raised Unit :=
  match request.expectedPointerSha256, expected with
  | none, none => pure ()
  | some pointerSha256, some parent =>
    require (some parent.pointer.revision = request.expectedRevision ∧
      some parent.manifest.manifestSha256 = request.expectedManifestSha256 ∧
      parent.pointerSha256 = pointerSha256) .bridgeStorageError
  | _, _ => throw .bridgeStorageError

def checkSuccessor (expected : Option (VerifiedBridgeRead Bytes)) (child : Revision Bytes) :
    Except Raised Unit :=
  match expected with
  | none => pure ()
  | some parent => verifySuccessorSemantics fmt parent.toRevision child

/-- What `publish` checks of a prepared request before it touches the directory. -/
def checkPrepared (request : BridgePublishRequest) (expected : Option (VerifiedBridgeRead Bytes))
    (prepared : PreparedPublication Bytes) : Except Raised Unit := do
  checkCas request expected
  checkSuccessor fmt expected prepared.revision
  verifyExecutionProgression fmt prepared.revision.artifacts prepared.revision.pointer.status
    prepared.revision.completionMarker.isSome

/-- `_verify_direct_child`. -/
def verifyDirectChild (orphan : Revision Bytes) (expected : Option (VerifiedBridgeRead Bytes)) :
    Except Raised Unit :=
  match expected with
  | none => require (orphan.pointer.revision = 1 ∧ orphan.manifest.previousManifestSha256 = none ∧
      orphan.manifest.expectedPointerSha256 = none) .bridgeStorageError
  | some parent => require (orphan.pointer.authMode = parent.pointer.authMode ∧
      orphan.pointer.revision = parent.pointer.revision + 1 ∧
      orphan.manifest.previousManifestSha256 = some parent.manifest.manifestSha256 ∧
      orphan.manifest.expectedPointerSha256 = some parent.pointerSha256) .bridgeStorageError

/-- `_pointer_for_revision`. -/
def pointerForRevision (runId : String) (run : RunDirectory Bytes)
    (entry : RevisionName × RevisionDirectory Bytes) : Except Raised (Revision Bytes) := do
  let manifest ← readManifest fmt entry.2
  require (manifest.bridgeRunId = runId ∧ (manifest.revision, manifest.transactionId) = entry.1)
    .bridgeStorageError
  readRevision fmt runId (fmt.pointerOf manifest entry.2.completion) run

/-- `_outcome`. -/
def outcome (pointer : BridgeCurrentPointer) : BridgePublishOutcome where
  bridgeRunId := pointer.bridgeRunId
  revision := pointer.revision
  transactionId := pointer.transactionId
  manifestSha256 := pointer.manifestSha256
  pointerSha256 := fmt.pointerSha256 pointer
  completionMarkerSha256 := pointer.completionMarkerSha256

/-- `same_logical_update`. -/
def SameLogicalUpdate (orphan intended : Revision Bytes) : Prop :=
  { orphan.manifest.toManifestPayload with
    transactionId := "", publishedAt := 0 } =
  { intended.manifest.toManifestPayload with
    transactionId := "", publishedAt := 0 } ∧
  (orphan.pointer.completionMarkerSha256.isNone ↔ intended.pointer.completionMarkerSha256.isNone)

instance {orphan intended : Revision Bytes} : Decidable (SameLogicalUpdate orphan intended) :=
  inferInstanceAs (Decidable (_ ∧ _))

/-! ## Files -/

/-- `_write_exclusive`, of a file that `put` places. -/
def writeExclusive (step : PublishStep) (put : Bytes → RunDirectory Bytes → RunDirectory Bytes)
    (bytes : Bytes) : Proc Bytes Unit := do
  ensure (1 ≤ fmt.size bytes ∧ fmt.size bytes ≤ MAX_BRIDGE_ARTIFACT_BYTES) .bridgeStorageError
  gradual step (fun run => (fmt.prefixes bytes).map fun content => put content run) (put bytes)

def RunDirectory.stage (transactionId : String)
    (f : RevisionDirectory Bytes → RevisionDirectory Bytes) (run : RunDirectory Bytes) :
    RunDirectory Bytes :=
  { run with transactions := run.transactions.map fun entry =>
      if entry.1 = transactionId then (entry.1, f entry.2) else entry }

/-- `staging.replace(revision)`. -/
def RunDirectory.rename (revision : Nat) (transactionId : String) (run : RunDirectory Bytes) :
    RunDirectory Bytes :=
  match run.transactions.lookup transactionId with
  | none => run
  | some directory => { run with
      transactions := run.transactions.filter (·.1 ≠ transactionId)
      revisions := ((revision, transactionId), directory) :: run.revisions }

/-- The loop over the inventory that writes the payload. -/
def writePayload (transactionId : String) : Artifacts Bytes → Proc Bytes Unit
  | [] => pure ()
  | (name, bytes) :: rest => do
    let run ← read
    -- a part of the path is a file already, or the whole of it is there
    ensure (∀ directory ∈ run.transactions.lookup transactionId, ∀ file ∈ directory.payload,
      ¬ Overlap file.1 (parts name)) .osError
    writeExclusive fmt .writePayload (fun content => RunDirectory.stage transactionId fun directory =>
      { directory with payload := directory.payload ++ [(parts name, content)] }) bytes
    writePayload transactionId rest

/-- The payload in the order of the inventory. -/
def PreparedPublication.payload (prepared : PreparedPublication Bytes) : Artifacts Bytes :=
  prepared.revision.manifest.inventory.filterMap fun entry =>
    (prepared.revision.artifacts.lookup entry.logicalName).map fun bytes => (entry.logicalName, bytes)

/-- `_publish_pointer`. -/
def publishPointer (pointer : BridgeCurrentPointer) : Proc Bytes Unit := do
  let bytes := fmt.encodePointer pointer
  let run ← read
  match run.temporaries.lookup pointer.transactionId with
  | some content =>
    ensure (1 ≤ fmt.size content ∧ fmt.size content ≤ MAX_BRIDGE_ARTIFACT_BYTES) .bridgeStorageError
    ensure (content = bytes) .bridgeStorageError
  | none =>
    writeExclusive fmt .writeTemporary (fun content run =>
      { run with temporaries := (pointer.transactionId, content) :: run.temporaries }) bytes
  atomic .replaceCurrent fun run => { run with
    temporaries := run.temporaries.filter (·.1 ≠ pointer.transactionId)
    current := some bytes }

/-- `_publish_pointer`, and the check that what is current now replays. -/
def publishVerified (runId : String) (pointer : BridgeCurrentPointer) : Proc Bytes Unit := do
  publishPointer fmt pointer
  let run ← read
  let verified ← lift (readCurrent fmt registry runId run)
  ensure (verified.pointer = pointer) .bridgeStorageError

/-- `_adopt_orphan`. -/
def adoptOrphan (runId : String) (prepared : PreparedPublication Bytes)
    (expected : Option (VerifiedBridgeRead Bytes)) : Proc Bytes (Option BridgePublishOutcome) := do
  let run ← read
  match revisionCandidates run prepared.revision.pointer.revision with
  | [] => pure none
  | [entry] => do
    let orphan ← lift (pointerForRevision fmt runId run entry)
    lift (verifyDirectChild orphan expected)
    lift (checkSuccessor fmt expected orphan)
    publishVerified fmt registry runId orphan.pointer
    ensure (SameLogicalUpdate orphan prepared.revision) .bridgeStorageError
    pure (some (outcome fmt orphan.pointer))
  | _ => raise .bridgeStorageError

/-- The staging of a revision and its renaming into place. -/
def stageRevision (prepared : PreparedPublication Bytes) : Proc Bytes Unit := do
  let pointer := prepared.revision.pointer
  let run ← read
  ensure ((run.transactions.lookup pointer.transactionId).isNone ∧
    (run.revisions.lookup (pointer.revision, pointer.transactionId)).isNone) .bridgeStorageError
  atomic .makeStaging fun run => { run with
    transactions := (pointer.transactionId, ⟨none, [], none⟩) :: run.transactions }
  writePayload fmt pointer.transactionId prepared.payload
  writeExclusive fmt .writeManifest (fun content => RunDirectory.stage pointer.transactionId
    fun directory => { directory with manifest := some content }) prepared.manifestBytes
  match prepared.completionMarkerBytes with
  | none => pure ()
  | some bytes => writeExclusive fmt .writeCompletion (fun content =>
      RunDirectory.stage pointer.transactionId fun directory =>
        { directory with completion := some content }) bytes
  atomic .renameRevision (RunDirectory.rename pointer.revision pointer.transactionId)

/-- `publish`. -/
def publish (request : BridgePublishRequest) : Proc Bytes BridgePublishOutcome := do
  let runId := request.runPlan.bridgeRunId
  let prepared ← lift (prepare fmt request)
  let run ← read
  let expected ← lift (readExpected fmt registry runId run)
  lift (checkPrepared fmt request expected prepared)
  match ← adoptOrphan fmt registry runId prepared expected with
  | some adopted => pure adopted
  | none => do
    stageRevision fmt prepared
    let run ← read
    let _ ← lift (readRevision fmt runId prepared.revision.pointer run)
    publishVerified fmt registry runId prepared.revision.pointer
    pure (outcome fmt prepared.revision.pointer)

end PokerDeliberation.Bridge
