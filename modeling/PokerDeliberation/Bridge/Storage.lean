import PokerDeliberation.Bridge.Models
import PokerDeliberation.Lib.Interruptible
import PokerDeliberation.Lib.Lines
import PokerDeliberation.Lib.Text
import Mathlib.Data.List.Sort
import Mathlib.Data.String.Basic

/-!
# The bridge store

One run's directory and the functions of the store over it, as they check:
the preparation of a request, the progression of the roles, what a successor
keeps, the reader of a revision and the walk down the lineage, and `publish`
with the adoption of an orphan. The encodings, digests and third-party
validation are a `Format`. Path and link checks, the flushing of directories
and the lock itself are left out.
-/

namespace PokerDeliberation.Bridge

open Lib Lib.Interruptible

/-- The class of what a call raises. -/
inductive Raised where
  | bridgeStorageError | canonicalStorageError | bridgeCanonicalError | keyError | validationError
  | osError
  deriving DecidableEq, Repr

/-! ## Bytes -/

def MAX_BRIDGE_ARTIFACT_BYTES : Nat := 1000000

def MAX_BRIDGE_REVISION_BYTES : Nat := 8000000

def sortByName (inventory : List BridgeArtifactInventory) : List BridgeArtifactInventory :=
  inventory.insertionSort fun x y => x.logicalName ≤ y.logicalName

/-- `terminal inventory must be sorted and unique`. -/
def SortedUnique (names : List String) : Prop :=
  names = names.dedup.insertionSort (· ≤ ·)

instance {names : List String} : Decidable (SortedUnique names) := inferInstanceAs (Decidable (_ = _))

/-- The canonical encodings with their strict parsers, the sizes of files and
the digests. `prefixes` are the contents a write that is cut off leaves. -/
structure Format (Bytes : Type) where
  encode : BridgeArtifactModel → Bytes
  parse : BridgeArtifactKind → Bytes → Option BridgeArtifactModel
  encodeManifest : BridgeTerminalManifest → Bytes
  parseManifest : Bytes → Option BridgeTerminalManifest
  encodeMarker : BridgeCompletionMarker → Bytes
  parseMarker : Bytes → Option BridgeCompletionMarker
  encodePointer : BridgeCurrentPointer → Bytes
  parsePointer : Bytes → Option BridgeCurrentPointer
  size : Bytes → Nat
  prefixes : Bytes → List Bytes
  sha256 : Bytes → Sha256
  inventorySha256 : List BridgeArtifactInventory → Sha256
  manifestSha256 : ManifestPayload → Sha256
  identifierSha256 : String → Sha256
  parse_kind : ∀ {kind bytes model}, parse kind bytes = some model → model.kind = kind
  parse_encode : ∀ kind model, (parse kind (encode model)).isSome ↔ model.kind = kind
  parseMarker_encode : ∀ marker, parseMarker (encodeMarker marker) = some marker
  parsePointer_encode : ∀ pointer, parsePointer (encodePointer pointer) = some pointer
  parseManifest_encode : ∀ manifest : BridgeTerminalManifest,
    SortedUnique (manifest.inventory.map (·.logicalName)) →
    1 ≤ manifest.inventory.length → manifest.inventory.length ≤ 64 →
    manifest.inventorySha256 = inventorySha256 manifest.inventory →
    manifest.manifestSha256 = manifestSha256 manifest.toManifestPayload →
    parseManifest (encodeManifest manifest) = some manifest

/-! ## Directories -/

structure RevisionDirectory (Bytes : Type) where
  manifest : Option Bytes
  payload : List (List (List Char) × Bytes)
  completion : Option Bytes
  deriving DecidableEq

/-- `r{revision}-{transaction_id}`. -/
abbrev RevisionName := Nat × String

/-- The control directory of a run: `t`, `r`, `c.txn-….tmp` and `c.json`. -/
structure RunDirectory (Bytes : Type) where
  transactions : List (String × RevisionDirectory Bytes)
  revisions : List (RevisionName × RevisionDirectory Bytes)
  temporaries : List (String × Bytes)
  current : Option Bytes
  deriving DecidableEq

def RunDirectory.empty {Bytes : Type} : RunDirectory Bytes := ⟨[], [], [], none⟩

abbrev Artifacts (Bytes : Type) := List (String × Bytes)

/-! ## The registries -/

inductive IdentityKind where
  | thread | turn
  deriving DecidableEq, Repr

inductive IdentifierKind where
  | confirmation | idempotency
  deriving DecidableEq, Repr

structure BridgeExecutionIdentityClaim where
  identityKind : IdentityKind
  identitySha256 : Sha256
  attempt : Attempt
  executionAuditSha256 : Sha256
  deriving DecidableEq, Repr

structure BridgeConfirmationIdentifierClaim where
  identifierKind : IdentifierKind
  identifierSha256 : Sha256
  bridgeRunId : String
  authMode : RuntimeAuthMode
  role : BridgeRole
  requestSha256 : Sha256
  deriving DecidableEq, Repr

/-- `.i` and `.c`: the claims under their file names. -/
structure Registry where
  identities : List ((IdentityKind × Sha256) × BridgeExecutionIdentityClaim)
  confirmations : List ((IdentifierKind × Sha256) × BridgeConfirmationIdentifierClaim)
  deriving DecidableEq, Repr

/-! ## Publications -/

structure BridgePublishRequest where
  runPlan : BridgeRunPlan
  status : BridgeTerminalStatus
  proposedRevision : Nat
  transactionId : String
  expectedRevision : Option Nat
  expectedManifestSha256 : Option Sha256
  expectedPointerSha256 : Option Sha256
  publishedAt : Int
  artifacts : List BridgeStoredArtifact
  deriving DecidableEq, Repr

structure BridgePublishOutcome where
  bridgeRunId : String
  revision : Nat
  transactionId : String
  manifestSha256 : Sha256
  pointerSha256 : Sha256
  completionMarkerSha256 : Option Sha256
  deriving DecidableEq, Repr

/-- A revision as it is read: its pointer, its manifest, its marker if it has
one, and its artifacts by name. -/
structure Revision (Bytes : Type) where
  pointer : BridgeCurrentPointer
  manifest : BridgeTerminalManifest
  completionMarker : Option BridgeCompletionMarker
  artifacts : Artifacts Bytes
  deriving DecidableEq

structure PreparedPublication (Bytes : Type) where
  revision : Revision Bytes
  manifestBytes : Bytes
  completionMarkerBytes : Option Bytes

variable {Bytes : Type} [DecidableEq Bytes] (fmt : Format Bytes)

def Format.pointerSha256 (pointer : BridgeCurrentPointer) : Sha256 :=
  fmt.sha256 (fmt.encodePointer pointer)

/-- `parse_canonical_model`. -/
def Format.parseModel (kind : BridgeArtifactKind) (bytes : Bytes) :
    Except Raised BridgeArtifactModel :=
  match fmt.parse kind bytes with
  | some model => .ok model
  | none => .error .bridgeCanonicalError

/-- `artifacts[name]` of a dictionary. -/
def artifactAt (artifacts : Artifacts Bytes) (name : String) : Except Raised Bytes :=
  match artifacts.lookup name with
  | some bytes => .ok bytes
  | none => .error .keyError

def Format.planAt (artifacts : Artifacts Bytes) : Except Raised BridgeRunPlan := do
  let bytes ← artifactAt artifacts "run_plan.json"
  match ← fmt.parseModel .runPlan bytes with
  | .runPlan plan => pure plan
  | _ => throw .bridgeCanonicalError

def Format.sourceAt (artifacts : Artifacts Bytes) : Except Raised BridgeSourceContext := do
  let bytes ← artifactAt artifacts "source_context.json"
  match ← fmt.parseModel .sourceContext bytes with
  | .sourceContext source => pure source
  | _ => throw .bridgeCanonicalError

/-! ## Preparing a request -/

/-- `_LOGICAL_NAME`. -/
def matchesLogicalName : String → Bool :=
  fullClass (fun c => c.isLower || c.isDigit)
    (fun c => c.isLower || c.isDigit || c ∈ ['_', '.', '/', '-']) 191

/-- `txn-[0-9a-f]{32}`. -/
def isTransactionId (value : String) : Bool :=
  match value.toList with
  | 't' :: 'x' :: 'n' :: '-' :: rest =>
    rest.length = 32 && rest.all fun c => c.isDigit || c ∈ ['a', 'b', 'c', 'd', 'e', 'f']
  | _ => false

/-- `_validate_logical_name`. -/
def validateLogicalName (value : String) : Except Raised Unit := do
  require (matchesLogicalName value) .bridgeStorageError
  require (parts value ≠ [] ∧ ['.', '.'] ∉ parts value) .bridgeStorageError

/-- One round of the loop of `_artifact_inventory`. -/
def encodeArtifact (encoded : List (BridgeArtifactInventory × Bytes))
    (artifact : BridgeStoredArtifact) :
    Except Raised (List (BridgeArtifactInventory × Bytes)) := do
  validateLogicalName artifact.logicalName
  require (artifact.logicalName ∉ encoded.map (·.1.logicalName)) .bridgeStorageError
  require (artifact.model.kind = artifact.artifactKind) .bridgeStorageError
  let bytes := fmt.encode artifact.model
  require (fmt.size bytes ≤ MAX_BRIDGE_ARTIFACT_BYTES) .bridgeStorageError
  pure (encoded ++ [(⟨artifact.logicalName, artifact.artifactKind, fmt.sha256 bytes, fmt.size bytes⟩,
    bytes)])

def anchorNames : List String := ["run_plan.json", "source_context.json"]

/-- `set(encoded) < {"run_plan.json", "source_context.json"}`. -/
def ProperlyWithinAnchors (names : List String) : Prop :=
  (∀ name ∈ names, name ∈ anchorNames) ∧ ¬ ∀ name ∈ anchorNames, name ∈ names

instance {names : List String} : Decidable (ProperlyWithinAnchors names) :=
  inferInstanceAs (Decidable (_ ∧ _))

/-- `_artifact_inventory`. -/
def artifactInventory (artifacts : List BridgeStoredArtifact) :
    Except Raised (List BridgeArtifactInventory × Artifacts Bytes) := do
  let encoded ← artifacts.foldlM (encodeArtifact fmt) []
  require (¬ ProperlyWithinAnchors (encoded.map (·.1.logicalName))) .bridgeStorageError
  let inventory := sortByName (encoded.map (·.1))
  require ((inventory.map (·.sizeBytes)).sum ≤ MAX_BRIDGE_REVISION_BYTES) .bridgeStorageError
  pure (inventory, encoded.map fun entry => (entry.1.logicalName, entry.2))

/-- The revision, the transaction and the fields of the compare-and-swap. -/
def checkFields (request : BridgePublishRequest) : Except Raised Unit := do
  require (1 ≤ request.proposedRevision) .bridgeStorageError
  require (isTransactionId request.transactionId) .bridgeStorageError
  if request.proposedRevision = 1 then
    require (request.expectedRevision = none ∧ request.expectedManifestSha256 = none ∧
      request.expectedPointerSha256 = none) .bridgeStorageError
  else
    require (request.expectedRevision = some (request.proposedRevision - 1) ∧
      request.expectedManifestSha256.isSome ∧ request.expectedPointerSha256.isSome)
      .bridgeStorageError

/-- The anchors against the plan of the request. -/
def checkAnchors (plan : BridgeRunPlan) (artifacts : Artifacts Bytes) : Except Raised Unit := do
  let parsedPlan ← fmt.planAt artifacts
  let parsedSource ← fmt.sourceAt artifacts
  require (parsedPlan = plan ∧ parsedSource.source = plan.source) .bridgeStorageError

/-- The loop over the inventory that compares authentication modes. -/
def checkModes (plan : BridgeRunPlan) (inventory : List BridgeArtifactInventory)
    (artifacts : Artifacts Bytes) : Except Raised Unit :=
  forM inventory fun entry => do
    let bytes ← artifactAt artifacts entry.logicalName
    let model ← fmt.parseModel entry.artifactKind bytes
    require (model.authMode.getD plan.authMode = plan.authMode) .bridgeStorageError

/-- What `BridgeTerminalManifestV1` validates. -/
def Format.ValidManifest (manifest : BridgeTerminalManifest) : Prop :=
  SortedUnique (manifest.inventory.map (·.logicalName)) ∧
    1 ≤ manifest.inventory.length ∧ manifest.inventory.length ≤ 64 ∧
    manifest.inventorySha256 = fmt.inventorySha256 manifest.inventory ∧
    manifest.manifestSha256 = fmt.manifestSha256 manifest.toManifestPayload

instance {manifest : BridgeTerminalManifest} : Decidable (fmt.ValidManifest manifest) :=
  inferInstanceAs (Decidable (_ ∧ _))

def Format.manifestOf (request : BridgePublishRequest) (inventory : List BridgeArtifactInventory) :
    BridgeTerminalManifest :=
  let payload : ManifestPayload := {
    bridgeRunId := request.runPlan.bridgeRunId
    authMode := request.runPlan.authMode
    runtimePolicySha256 := request.runPlan.runtimePolicySha256
    revision := request.proposedRevision
    transactionId := request.transactionId
    previousManifestSha256 := request.expectedManifestSha256
    expectedPointerSha256 := request.expectedPointerSha256
    status := request.status
    sourceTerminalManifestSha256 := request.runPlan.source.sourceTerminalManifestSha256
    runPlanSha256 := request.runPlan.planSha256
    createdAt := request.runPlan.createdAt
    publishedAt := request.publishedAt
    inventory := inventory
    inventorySha256 := fmt.inventorySha256 inventory }
  { payload with manifestSha256 := fmt.manifestSha256 payload }

def BridgeTerminalManifest.marker (manifest : BridgeTerminalManifest) : BridgeCompletionMarker where
  bridgeRunId := manifest.bridgeRunId
  authMode := manifest.authMode
  terminalRevision := manifest.revision
  terminalTransactionId := manifest.transactionId
  terminalStatus := manifest.status
  terminalManifestSha256 := manifest.manifestSha256
  inventorySha256 := manifest.inventorySha256
  publishedAt := manifest.publishedAt

/-- The pointer to a revision with this manifest and these bytes of a marker. -/
def Format.pointerOf (manifest : BridgeTerminalManifest) (completion : Option Bytes) :
    BridgeCurrentPointer where
  bridgeRunId := manifest.bridgeRunId
  authMode := manifest.authMode
  revision := manifest.revision
  transactionId := manifest.transactionId
  status := manifest.status
  manifestSha256 := manifest.manifestSha256
  inventorySha256 := manifest.inventorySha256
  completionMarkerSha256 := completion.map fmt.sha256
  publishedAt := manifest.publishedAt

/-- `_prepare`. -/
def prepare (request : BridgePublishRequest) : Except Raised (PreparedPublication Bytes) := do
  checkFields request
  let (inventory, artifacts) ← artifactInventory fmt request.artifacts
  checkAnchors fmt request.runPlan artifacts
  checkModes fmt request.runPlan inventory artifacts
  let manifest := fmt.manifestOf request inventory
  require (fmt.ValidManifest manifest) .validationError
  let marker := if request.status.isOpen then none else some manifest.marker
  let completion := marker.map fmt.encodeMarker
  pure {
    revision := ⟨fmt.pointerOf manifest completion, manifest, marker, artifacts⟩
    manifestBytes := fmt.encodeManifest manifest
    completionMarkerBytes := completion }

/-! ## The progression of the roles -/

/-- `artifact in present`. -/
def isPresent (artifacts : Artifacts Bytes) (role : BridgeRole) (artifact : RoleArtifact) : Bool :=
  (artifacts.lookup (roleArtifactName role artifact)).isSome

structure Progress where
  completed : List BridgeRole
  openAdmissions : Nat
  admittedRoles : List BridgeRole
  deriving DecidableEq, Repr

/-- Which files of a role need which others. -/
def checkPresence (artifacts : Artifacts Bytes) (role : BridgeRole) : Except Raised Unit := do
  let present := isPresent artifacts role
  require (present .confirmation ∨ present .admission ∨ present .result ∨ present .audit →
    present .request) .bridgeStorageError
  require (present .admission → present .confirmation) .bridgeStorageError
  require (present .result → present .admission ∧ present .audit) .bridgeStorageError
  require (present .audit → present .admission) .bridgeStorageError

/-- The loop over the files of a role. -/
def checkRoleFiles (artifacts : Artifacts Bytes) (role : BridgeRole) : Except Raised Unit :=
  forM RoleArtifact.all fun artifact =>
    match artifacts.lookup (roleArtifactName role artifact) with
    | none => pure ()
    | some bytes => do
      let model ← fmt.parseModel artifact.kind bytes
      require (model.role = some role) .bridgeStorageError

/-- The audit of a role. -/
def auditOf (artifacts : Artifacts Bytes) (role : BridgeRole) : Option BridgeExecutionAudit :=
  (artifacts.lookup (roleArtifactName role .audit)).bind fun bytes =>
    match fmt.parse .executionAudit bytes with
    | some (.executionAudit audit) => some audit
    | _ => none

/-- One round of the loop over the roles. -/
def progressRole (artifacts : Artifacts Bytes) (progress : Progress) (role : BridgeRole) :
    Except Raised Progress := do
  checkPresence artifacts role
  checkRoleFiles fmt artifacts role
  let admission := isPresent artifacts role .admission
  let progress := { progress with
    openAdmissions := progress.openAdmissions +
      if admission ∧ ¬ isPresent artifacts role .audit then 1 else 0
    admittedRoles := if admission then progress.admittedRoles ++ [role] else progress.admittedRoles }
  match auditOf fmt artifacts role with
  | none => pure progress
  | some audit =>
    let succeeded : Bool := audit.effectState = .succeeded
    require (succeeded = isPresent artifacts role .result) .bridgeStorageError
    if succeeded then
      require (progress.completed = role.earlier) .bridgeStorageError
      pure { progress with completed := progress.completed ++ [role] }
    else pure progress

/-- `_verify_execution_progression`. -/
def verifyExecutionProgression (artifacts : Artifacts Bytes) (status : BridgeTerminalStatus)
    (completionMarkerPresent : Bool) : Except Raised Unit := do
  let progress ← BridgeRole.BRIDGE_ROLE_ORDER.foldlM (progressRole fmt artifacts) ⟨[], 0, []⟩
  require (progress.openAdmissions ≤ 1) .bridgeStorageError
  forM progress.admittedRoles fun role =>
    require (progress.completed.take role.index = role.earlier) .bridgeStorageError
  require (progress.openAdmissions = 0 ∨ status.isOpen) .bridgeStorageError
  require (isPresent artifacts .adjudicator .request =
    decide (progress.completed.take 3 = BridgeRole.BRIDGE_ROLE_ORDER.take 3)) .bridgeStorageError
  require (isPresent artifacts .reportWriter .request =
    decide (BridgeRole.adjudicator ∈ progress.completed)) .bridgeStorageError
  require (status = .succeeded ↔ progress.completed = BridgeRole.BRIDGE_ROLE_ORDER)
    .bridgeStorageError
  require (status = .succeeded → completionMarkerPresent) .bridgeStorageError

/-! ## Successors -/

def BridgeTerminalManifest.find (manifest : BridgeTerminalManifest) (name : String) :
    Option BridgeArtifactInventory :=
  manifest.inventory.find? (·.logicalName = name)

/-- `_verify_successor_semantics`. -/
def verifySuccessorSemantics (parent child : Revision Bytes) : Except Raised Unit := do
  require parent.pointer.status.isOpen .bridgeStorageError
  require (child.pointer.revision = parent.pointer.revision + 1 ∧
    child.manifest.previousManifestSha256 = some parent.manifest.manifestSha256 ∧
    child.manifest.expectedPointerSha256 = some (fmt.pointerSha256 parent.pointer))
    .bridgeStorageError
  require (∀ entry ∈ parent.manifest.inventory,
    (child.manifest.find entry.logicalName).isSome) .bridgeStorageError
  require (∀ entry ∈ parent.manifest.inventory,
    child.manifest.find entry.logicalName = some entry ∧
      child.artifacts.lookup entry.logicalName = parent.artifacts.lookup entry.logicalName)
    .bridgeStorageError

/-! ## Reading a revision -/

/-- `_read_bounded` of a file that may be missing. -/
def readBounded : Option Bytes → Except Raised Bytes
  | none => .error .canonicalStorageError
  | some bytes => do
    require (1 ≤ fmt.size bytes ∧ fmt.size bytes ≤ MAX_BRIDGE_ARTIFACT_BYTES) .bridgeStorageError
    pure bytes

def readManifest (directory : RevisionDirectory Bytes) : Except Raised BridgeTerminalManifest := do
  let bytes ← readBounded fmt directory.manifest
  match fmt.parseManifest bytes with
  | some manifest => pure manifest
  | none => throw .bridgeCanonicalError

/-- One file of the payload. -/
def readPayload (manifest : BridgeTerminalManifest) (file : List (List Char) × Bytes) :
    Except Raised (String × Bytes) := do
  let relative := posix file.1
  match manifest.find relative with
  | none => throw .bridgeStorageError
  | some entry =>
    let bytes ← readBounded fmt (some file.2)
    require (fmt.size bytes = entry.sizeBytes ∧ fmt.sha256 bytes = entry.sha256) .bridgeStorageError
    let _ ← fmt.parseModel entry.artifactKind bytes
    pure (relative, bytes)

/-- The completion marker against the pointer. -/
def readMarker (runId : String) (pointer : BridgeCurrentPointer)
    (directory : RevisionDirectory Bytes) : Except Raised (Option BridgeCompletionMarker) := do
  match pointer.completionMarkerSha256 with
  | none =>
    require pointer.status.isOpen .bridgeStorageError
    pure none
  | some sha256 =>
    let bytes ← readBounded fmt directory.completion
    require (fmt.sha256 bytes = sha256) .bridgeStorageError
    match fmt.parseMarker bytes with
    | none => throw .bridgeCanonicalError
    | some marker =>
      require (marker.bridgeRunId = runId ∧ marker.authMode = pointer.authMode ∧
        marker.terminalRevision = pointer.revision ∧
        marker.terminalTransactionId = pointer.transactionId ∧
        marker.terminalStatus = pointer.status ∧
        marker.terminalManifestSha256 = pointer.manifestSha256 ∧
        marker.inventorySha256 = pointer.inventorySha256) .bridgeStorageError
      pure (some marker)

/-- `_read_revision`, of the directory the pointer names. -/
def readDirectory (runId : String) (pointer : BridgeCurrentPointer)
    (directory : RevisionDirectory Bytes) : Except Raised (Revision Bytes) := do
  require (directory.manifest.isSome ∧
    (directory.completion.isSome ↔ pointer.completionMarkerSha256.isSome)) .bridgeStorageError
  let manifest ← readManifest fmt directory
  require (manifest.bridgeRunId = runId ∧ manifest.authMode = pointer.authMode ∧
    manifest.revision = pointer.revision ∧ manifest.transactionId = pointer.transactionId ∧
    manifest.status = pointer.status ∧ manifest.manifestSha256 = pointer.manifestSha256 ∧
    manifest.inventorySha256 = pointer.inventorySha256) .bridgeStorageError
  let artifacts ← directory.payload.mapM (readPayload fmt manifest)
  require (∀ entry ∈ manifest.inventory, entry.logicalName ∈ artifacts.map Prod.fst)
    .bridgeStorageError
  let plan ← fmt.planAt artifacts
  let source ← fmt.sourceAt artifacts
  require (plan.bridgeRunId = runId ∧ plan.authMode = manifest.authMode ∧
    plan.runtimePolicySha256 = manifest.runtimePolicySha256 ∧
    plan.planSha256 = manifest.runPlanSha256 ∧ plan.source = source.source ∧
    plan.source.sourceTerminalManifestSha256 = manifest.sourceTerminalManifestSha256 ∧
    plan.createdAt = manifest.createdAt) .bridgeStorageError
  let marker ← readMarker fmt runId pointer directory
  verifyExecutionProgression fmt artifacts pointer.status marker.isSome
  pure ⟨pointer, manifest, marker, artifacts⟩

/-- `_read_revision`. -/
def readRevision (runId : String) (pointer : BridgeCurrentPointer) (run : RunDirectory Bytes) :
    Except Raised (Revision Bytes) :=
  match run.revisions.lookup (pointer.revision, pointer.transactionId) with
  | none => .error .canonicalStorageError
  | some directory => readDirectory fmt runId pointer directory

/-! ## The claims of what is current -/

/-- The thread and the turn an audit has observed. -/
def BridgeExecutionAudit.identities (audit : BridgeExecutionAudit) : List (IdentityKind × Sha256) :=
  (audit.threadIdSha256.map (IdentityKind.thread, ·)).toList ++
    (audit.turnIdSha256.map (IdentityKind.turn, ·)).toList

def BridgeExecutionAudit.registryRejected (audit : BridgeExecutionAudit) : Bool :=
  audit.effectState = .effectUnknown ∧
    audit.failureReasonCode = some "execution_identity_registry_rejected"

def BridgeExecutionAudit.registryCorrupt (audit : BridgeExecutionAudit) : Bool :=
  audit.effectState = .effectUnknown ∧
    audit.failureReasonCode = some "execution_identity_registry_corrupt"

/-- `bound_to_audit`. -/
def BridgeExecutionIdentityClaim.boundTo (claim : BridgeExecutionIdentityClaim)
    (audit : BridgeExecutionAudit) : Bool :=
  claim.attempt = audit.attempt ∧ claim.executionAuditSha256 = audit.auditSha256

variable (registry : Registry)

/-- One round over an observed identity; the result says whether a collision is proved. -/
def verifyIdentity (audit : BridgeExecutionAudit) (collisionProved : Bool)
    (identity : IdentityKind × Sha256) : Except Raised Bool :=
  match registry.identities.lookup identity with
  | none =>
    if audit.registryRejected ∨ audit.registryCorrupt then pure collisionProved
    else throw .bridgeStorageError
  | some claim => do
    require ((claim.identityKind, claim.identitySha256) = identity) .bridgeStorageError
    if audit.registryCorrupt then pure collisionProved
    else if audit.registryRejected then pure (collisionProved || !claim.boundTo audit)
    else do
      require (claim.boundTo audit) .bridgeStorageError
      pure collisionProved

def verifyAuditIdentities (audit : BridgeExecutionAudit) : Except Raised Unit := do
  if audit.threadIdSha256 = none ∧ audit.turnIdSha256 = none then pure ()
  else do
    require audit.threadIdSha256.isSome .bridgeStorageError
    let collisionProved ← audit.identities.foldlM (verifyIdentity registry audit) false
    require (audit.registryRejected → collisionProved) .bridgeStorageError

/-- `_verify_current_identity_claims`. -/
def verifyCurrentIdentityClaims (revision : Revision Bytes) : Except Raised Unit :=
  forM revision.manifest.inventory fun entry =>
    if entry.artifactKind ≠ .executionAudit then pure ()
    else do
      let bytes ← artifactAt revision.artifacts entry.logicalName
      match ← fmt.parseModel .executionAudit bytes with
      | .executionAudit audit => verifyAuditIdentities registry audit
      | _ => throw .bridgeCanonicalError

/-- The files that claim the identifiers of a confirmation. -/
def Format.identifiers (confirmationId idempotencyKey : String) : List (IdentifierKind × Sha256) :=
  [(.confirmation, fmt.identifierSha256 confirmationId),
    (.idempotency, fmt.identifierSha256 idempotencyKey)]

/-- The claims of one confirmation. -/
def verifyConfirmation (manifest : BridgeTerminalManifest) (confirmation : BridgeRoleConfirmation) :
    Except Raised Unit :=
  forM (fmt.identifiers confirmation.confirmationId confirmation.idempotencyKey) fun identifier =>
    match registry.confirmations.lookup identifier with
    | none => throw .bridgeStorageError
    | some claim =>
      require ((claim.identifierKind, claim.identifierSha256) = identifier ∧
        claim.bridgeRunId = manifest.bridgeRunId ∧ claim.authMode = manifest.authMode ∧
        claim.role = confirmation.attempt.role ∧
        claim.requestSha256 = confirmation.attempt.requestSha256) .bridgeStorageError

/-- `_verify_current_confirmation_identifier_claims`. -/
def verifyCurrentConfirmationIdentifierClaims (revision : Revision Bytes) : Except Raised Unit :=
  forM revision.manifest.inventory fun entry =>
    if entry.artifactKind ≠ .confirmation then pure ()
    else do
      let bytes ← artifactAt revision.artifacts entry.logicalName
      match ← fmt.parseModel .confirmation bytes with
      | .confirmation confirmation => verifyConfirmation fmt registry revision.manifest confirmation
      | _ => throw .bridgeCanonicalError

def verifyCurrentClaims (revision : Revision Bytes) : Except Raised Unit := do
  verifyCurrentIdentityClaims fmt registry revision
  verifyCurrentConfirmationIdentifierClaims fmt registry revision

/-! ## Reading what is current -/

/-- `_revision_candidates`. -/
def revisionCandidates (run : RunDirectory Bytes) (ordinal : Nat) :
    List (RevisionName × RevisionDirectory Bytes) :=
  run.revisions.filter (·.1.1 = ordinal)

/-- The loop of `read_current` down to the first revision; `seen` are the
revisions behind it, the result those ahead of it. -/
def walk (runId : String) (authMode : RuntimeAuthMode) (run : RunDirectory Bytes) :
    Nat → Revision Bytes → List Nat → Except Raised (List (Revision Bytes))
  | 0, _, _ => pure []
  | ordinal + 1, child, seen => do
    match revisionCandidates run (ordinal + 1) with
    | [(_, directory)] => do
      let prior ← readManifest fmt directory
      let pointer := fmt.pointerOf prior directory.completion
      require (prior.bridgeRunId = runId ∧ prior.authMode = authMode ∧ prior.revision ∉ seen ∧
        child.manifest.previousManifestSha256 = some prior.manifestSha256 ∧
        child.manifest.expectedPointerSha256 = some (fmt.pointerSha256 pointer)) .bridgeStorageError
      let parent ← readRevision fmt runId pointer run
      verifySuccessorSemantics fmt parent child
      let rest ← walk runId authMode run ordinal parent (prior.revision :: seen)
      pure (parent :: rest)
    | _ => throw .bridgeStorageError

/-- The revisions `read_current` goes through, from the current one down. -/
def readLineage (runId : String) (run : RunDirectory Bytes) :
    Except Raised (List (Revision Bytes)) := do
  let bytes ← readBounded fmt run.current
  match fmt.parsePointer bytes with
  | none => throw .bridgeCanonicalError
  | some pointer =>
    require (pointer.bridgeRunId = runId) .bridgeStorageError
    let current ← readRevision fmt runId pointer run
    let rest ← walk fmt runId pointer.authMode run (pointer.revision - 1) current [pointer.revision]
    verifyCurrentClaims fmt registry current
    pure (current :: rest)

structure VerifiedBridgeRead (Bytes : Type) extends Revision Bytes where
  pointerSha256 : Sha256
  deriving DecidableEq

/-- `read_current`. -/
def readCurrent (runId : String) (run : RunDirectory Bytes) :
    Except Raised (VerifiedBridgeRead Bytes) := do
  let bytes ← readBounded fmt run.current
  match ← readLineage fmt registry runId run with
  | current :: _ => pure { current with pointerSha256 := fmt.sha256 bytes }
  | [] => throw .bridgeStorageError

end PokerDeliberation.Bridge
