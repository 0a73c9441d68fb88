import PokerDeliberation.Budgets.Store
import PokerDeliberation.Lib.Files
import PokerDeliberation.Lib.Interruptible
import Mathlib.Data.List.Sort

/-!
# The revision store of one run

The files of a run and what `publish` and `claim_orphan` do to them, step by
step, under the run's authority. What a call only reads, verifies or encodes is
given with the call, as a function of the files it finds. Directories hold no
bytes and are left out, and so are the path and link checks: a call that stops
at one of them is a call cut off there.
-/

namespace PokerDeliberation.Revisions

open Lib Lib.Interruptible
open Budgets (RunStorageFailureCode)

abbrev Bytes := List UInt8

/-! ## The files of a run -/

/-- The files of a revision directory. -/
inductive RevisionPath where
  | transaction | manifest
  | payload (logicalName : String)
  deriving DecidableEq, Repr

/-- The files under the run and those of its lock key. -/
inductive RunPath where
  | authority | metadata
  | metadataTemp (ownerToken : String)
  | current
  | currentTemp (transactionId : String)
  | staged (transactionId : String) (path : RevisionPath)
  | published (revision : Nat) (transactionId : String) (path : RevisionPath)
  | claim (transactionId : String)
  | claimTemp (transactionId claimId : String)
  | other (path : String)
  deriving DecidableEq, Repr

abbrev RunFiles := Files RunPath UInt8

def AUTHORITY_BYTE : Bytes := [0]

/-- `_run_physical_bytes`. -/
def runPhysicalBytes (files : RunFiles) : Nat := files.total

structure RunRevisionStore where
  maxArtifactBytes : Nat
  maxRunBytes : Nat

/-! ## Steps -/

inductive FsStep where
  | create (path : RunPath)
  | write (path : RunPath)
  | replace (source target : RunPath)
  | publishRevision
  deriving DecidableEq, Repr

abbrev Proc := Interruptible FsStep RunStorageFailureCode RunFiles

/-- `if not condition: raise`. -/
def ensure (p : Prop) [Decidable p] (code : RunStorageFailureCode) : Proc Unit :=
  lift (require p code)

/-- The bytes reach an open file one after another. -/
def writeBytes (path : RunPath) (data : Bytes) : Proc Unit :=
  gradual (.write path) (fun files => (List.range data.length).map fun n =>
    files.put path (data.take n)) (·.put path data)

/-- `path.open("xb")`. -/
def create (path : RunPath) : Proc Unit := atomic (.create path) (·.put path [])

/-- `os.replace`. -/
def replace (source target : RunPath) : Proc Unit :=
  atomic (.replace source target) (·.move source target)

/-- `_write_exclusive_verified`. -/
def writeExclusiveVerified (maxBytes : Nat) (path : RunPath) (data : Bytes) : Proc Unit := do
  ensure (data.length ≤ maxBytes) .transactionWriteFailed
  let files ← read
  ensure (files.find path).isNone .transactionWriteFailed
  create path
  writeBytes path data

/-- `_open_authority`: only a bootstrapping call creates the file or repairs it. -/
def openAuthority (bootstrap : Bool) : Proc Unit := do
  let files ← read
  match files.find .authority with
  | none =>
    ensure bootstrap .lockUnavailable
    create .authority
    writeBytes .authority AUTHORITY_BYTE
  | some content =>
    if content = [] then
      ensure bootstrap .lockUnavailable
      writeBytes .authority AUTHORITY_BYTE
    else ensure (content = AUTHORITY_BYTE) .lockUnavailable

/-! ## Revisions -/

structure RevisionArtifactV1 where
  logicalName : String
  exactBytes : Bytes
  deriving DecidableEq, Repr

structure RevisionPublishRequestV1 where
  transactionId : String
  proposedRevision : Nat
  expectedRevision : Option Nat
  expectedManifestSha256 : Option String
  expectedPointerSha256 : Option String
  artifacts : List RevisionArtifactV1
  deriving DecidableEq, Repr

/-- Its `revision_relative_path` is `payload/` and the logical name. -/
structure PayloadInventoryEntryV1 where
  logicalName : String
  sizeBytes : Nat
  deriving DecidableEq, Repr

structure PreparedRevision where
  request : RevisionPublishRequestV1
  inventories : List PayloadInventoryEntryV1
  transactionSha256 : String
  transactionBytes : Bytes
  manifestBytes : Bytes
  pointerBytes : Bytes

/-- `prepared.artifacts[logical_name]`, empty for a name the request has not. -/
def PreparedRevision.exactBytes (prepared : PreparedRevision) (logicalName : String) : Bytes :=
  ((prepared.request.artifacts.find? fun artifact => artifact.logicalName = logicalName).map
    RevisionArtifactV1.exactBytes).getD []

structure ChainEntry where
  revision : Nat
  manifestSha256 : String
  transactionId : String
  transactionSha256 : String

/-- The revisions the pointer reaches, the current one first. -/
structure VerifiedChain where
  pointerSha256 : String
  head : ChainEntry
  older : List ChainEntry

def VerifiedChain.entries (chain : VerifiedChain) : List ChainEntry := chain.head :: chain.older

inductive FilesystemEffect where
  | stagingOrphan | unreferencedRevision
  deriving DecidableEq, Repr

inductive PublishOutcome where
  | currentCommitted (revision : Nat)
  | historicalCommitted (revision : Nat)
  | reconciliationRequired (effect : FilesystemEffect)
  | published (revision : Nat)
  deriving DecidableEq, Repr

/-- What one `publish` reads, verifies and encodes. -/
structure PublishReads where
  /-- The run id, the producer and the path lengths. -/
  admissible : Except RunStorageFailureCode Unit
  validateArtifact : RevisionArtifactV1 → Except RunStorageFailureCode Unit
  /-- `_validate_source_graph` and the bindings of isolated jobs. -/
  validateInventory : List PayloadInventoryEntryV1 → Except RunStorageFailureCode Unit
  /-- `payload_order_key`, compared. -/
  payloadBefore : String → String → Bool
  transactionSha256 : List PayloadInventoryEntryV1 → String
  transactionBytes : List PayloadInventoryEntryV1 → Bytes
  manifestBytes : List PayloadInventoryEntryV1 → Bytes
  pointerBytes : List PayloadInventoryEntryV1 → Bytes
  verifyOwnership : Except RunStorageFailureCode Unit
  /-- The owner token and the paths it is part of. -/
  ownerAdmissible : Except RunStorageFailureCode Unit
  /-- The kernel's lock on the open authority. -/
  lock : Except RunStorageFailureCode Unit
  /-- `_scan_case_aliases` and `_validate_existing_namespace`. -/
  validateNamespace : RunFiles → Except RunStorageFailureCode Unit
  readChain : RunFiles → Except RunStorageFailureCode VerifiedChain
  replayOrphanEffect : RunFiles → Option VerifiedChain →
    Except RunStorageFailureCode (Option FilesystemEffect)
  ownerToken : String
  /-- `_metadata_value`. -/
  metadataBytes : Bytes
  verifyMetadata : RunFiles → Except RunStorageFailureCode Unit
  bootstrapNamespace : RunFiles → Except RunStorageFailureCode Unit
  verifyRevision : RunFiles → Except RunStorageFailureCode Unit
  reconcile : RunFiles → Except RunStorageFailureCode Unit

section Publish

variable (store : RunRevisionStore) (reads : PublishReads) (request : RevisionPublishRequestV1)

def inventoryEntry (artifact : RevisionArtifactV1) : PayloadInventoryEntryV1 where
  logicalName := artifact.logicalName
  sizeBytes := artifact.exactBytes.length

/-- The loop of `build_inventory`; two names that differ in case only are aliases. -/
def validateArtifacts (aliases : List String) :
    List RevisionArtifactV1 → Except RunStorageFailureCode (List PayloadInventoryEntryV1)
  | [] => return []
  | artifact :: artifacts => do
    require (artifact.logicalName.toLower ∉ aliases) .invalidStorageInput
    require (artifact.exactBytes.length ≤ store.maxArtifactBytes) .artifactBudgetExceeded
    reads.validateArtifact artifact
    let inventories ← validateArtifacts (artifact.logicalName.toLower :: aliases) artifacts
    return inventoryEntry artifact :: inventories

/-- `build_inventory`. -/
def buildInventory : Except RunStorageFailureCode (List PayloadInventoryEntryV1) := do
  require (request.artifacts ≠ []) .invalidStorageInput
  let inventories ← validateArtifacts store reads [] (request.artifacts.insertionSort fun a b =>
    reads.payloadBefore a.logicalName b.logicalName)
  reads.validateInventory inventories
  return inventories

/-- `_preflight`. -/
def preflight : Except RunStorageFailureCode PreparedRevision := do
  reads.admissible
  let inventories ← buildInventory store reads request
  let prepared : PreparedRevision :=
    { request, inventories
      transactionSha256 := reads.transactionSha256 inventories
      transactionBytes := reads.transactionBytes inventories
      manifestBytes := reads.manifestBytes inventories
      pointerBytes := reads.pointerBytes inventories }
  require (prepared.transactionBytes.length ≤ store.maxArtifactBytes ∧
    prepared.manifestBytes.length ≤ store.maxArtifactBytes ∧
    prepared.pointerBytes.length ≤ store.maxArtifactBytes) .artifactBudgetExceeded
  return prepared

/-- `_existing_chain_or_none`. -/
def existingChainOrNone (files : RunFiles) :
    Except RunStorageFailureCode (Option VerifiedChain) :=
  match files.find .current with
  | none => .ok none
  | some _ => (reads.readChain files).map some

/-- `_cas_matches`. -/
def casMatches : Option VerifiedChain → Bool
  | none => request.expectedRevision = none ∧ request.expectedManifestSha256 = none ∧
      request.expectedPointerSha256 = none ∧ request.proposedRevision = 1
  | some chain => request.expectedRevision = some chain.head.revision ∧
      request.expectedManifestSha256 = some chain.head.manifestSha256 ∧
      request.expectedPointerSha256 = some chain.pointerSha256 ∧
      request.proposedRevision = chain.head.revision + 1

variable (prepared : PreparedRevision)

/-- `_idempotency_outcome`. -/
def idempotencyOutcome :
    Option VerifiedChain → Except RunStorageFailureCode (Option PublishOutcome)
  | none => .ok none
  | some chain =>
    match chain.entries.find? fun entry => entry.transactionId = prepared.request.transactionId with
    | none => .ok none
    | some entry => do
      require (entry.transactionSha256 = prepared.transactionSha256) .idempotencyConflict
      return some (if chain.head.transactionId = prepared.request.transactionId then
        .currentCommitted entry.revision else .historicalCommitted entry.revision)

/-! ## Admission -/

/-- What `publish` has found out when it begins to write. -/
structure PublishPlan where
  prepared : PreparedRevision
  metadataBytes : Nat
  currentBytes : Nat
  previousMetadataBytes : Nat

def PreparedRevision.revisionBytes : Nat :=
  prepared.transactionBytes.length + prepared.manifestBytes.length +
    (prepared.inventories.map PayloadInventoryEntryV1.sizeBytes).sum

def PublishPlan.projectedAfterMetadata (plan : PublishPlan) : Nat :=
  plan.currentBytes - plan.previousMetadataBytes + plan.metadataBytes

def PublishPlan.peakBytes (plan : PublishPlan) : Nat :=
  max (plan.currentBytes + plan.metadataBytes)
    (max (plan.projectedAfterMetadata + plan.prepared.revisionBytes)
      (plan.projectedAfterMetadata + plan.prepared.revisionBytes +
        plan.prepared.pointerBytes.length))

/-- What `publish` decides before it writes: an outcome, or a plan within the budgets. -/
def admitPublish (files : RunFiles) :
    Except RunStorageFailureCode (PublishOutcome ⊕ PublishPlan) := do
  reads.validateNamespace files
  let chain ← existingChainOrNone reads files
  let currentBytes := runPhysicalBytes files
  require (currentBytes ≤ store.maxRunBytes) .runBudgetExceeded
  match ← idempotencyOutcome prepared chain with
  | some outcome => return .inl outcome
  | none =>
    match ← reads.replayOrphanEffect files chain with
    | some effect => return .inl (.reconciliationRequired effect)
    | none =>
      require (casMatches prepared.request chain) .runConflict
      require (reads.metadataBytes.length ≤ store.maxArtifactBytes) .artifactBudgetExceeded
      let plan : PublishPlan :=
        { prepared, currentBytes
          metadataBytes := reads.metadataBytes.length
          previousMetadataBytes := files.size .metadata }
      require (plan.peakBytes ≤ store.maxRunBytes) .runBudgetExceeded
      return .inr plan

/-! ## Publication -/

/-- `_metadata`. -/
def writeMetadata : Proc Unit := do
  writeExclusiveVerified store.maxArtifactBytes (.metadataTemp reads.ownerToken)
    reads.metadataBytes
  replace (.metadataTemp reads.ownerToken) .metadata
  let files ← read
  lift (reads.verifyMetadata files)

/-- The loop over the inventory. -/
def writePayloads : List PayloadInventoryEntryV1 → Proc Unit
  | [] => return ()
  | entry :: inventories => do
    writeExclusiveVerified store.maxArtifactBytes
      (.staged prepared.request.transactionId (.payload entry.logicalName))
      (prepared.exactBytes entry.logicalName)
    writePayloads inventories

/-- Where a file of a staged transaction is after `staging.rename(revision_dir)`. -/
def publishedPath (revision : Nat) (transactionId : String) : RunPath → RunPath
  | .staged stagedId path =>
    if stagedId = transactionId then .published revision transactionId path
    else .staged stagedId path
  | path => path

def RunPath.stagedIn (transactionId : String) : RunPath → Bool
  | .staged stagedId _ => stagedId = transactionId
  | _ => false

def RunPath.publishedIn (revision : Nat) (transactionId : String) : RunPath → Bool
  | .published publishedRevision publishedId _ =>
    publishedRevision = revision ∧ publishedId = transactionId
  | _ => false

/-- `staging.mkdir()`: no file of the transaction is there. -/
def makeStaging : Proc Unit := do
  let files ← read
  ensure (files.entries.all fun entry => ! entry.1.stagedIn prepared.request.transactionId)
    .transactionWriteFailed

/-- The files of the staging directory. -/
def stage : Proc Unit := do
  let transactionId := prepared.request.transactionId
  makeStaging prepared
  writeExclusiveVerified store.maxArtifactBytes (.staged transactionId .transaction)
    prepared.transactionBytes
  writePayloads store prepared prepared.inventories
  writeExclusiveVerified store.maxArtifactBytes (.staged transactionId .manifest)
    prepared.manifestBytes

/-- `staging.rename(revision_dir)`, which takes no directory's place. -/
def publishRevision : Proc Unit := do
  let revision := prepared.request.proposedRevision
  let transactionId := prepared.request.transactionId
  let staging ← read
  lift (reads.verifyRevision staging)
  ensure (staging.entries.all fun entry => ! entry.1.publishedIn revision transactionId)
    .effectUnknown
  atomic .publishRevision (·.rename (publishedPath revision transactionId))
  let files ← read
  lift (reads.verifyRevision files)

/-- The pointer's file, the last comparison with the current revision, the replacement. -/
def publishPointer : Proc Unit := do
  let pointerTemp := RunPath.currentTemp prepared.request.transactionId
  writeExclusiveVerified store.maxArtifactBytes pointerTemp prepared.pointerBytes
  let files ← read
  let chain ← lift (existingChainOrNone reads files)
  ensure (casMatches prepared.request chain) .runConflict
  lift reads.verifyOwnership
  replace pointerTemp .current
  let files ← read
  lift (reads.reconcile files)

/-- What `publish` does once it has admitted the request. -/
def commit : Proc Unit := do
  writeMetadata store reads
  let files ← read
  lift (reads.bootstrapNamespace files)
  stage store prepared
  publishRevision reads prepared
  publishPointer store reads prepared

/-- `publish` up to the end of the locked admission. -/
def openPublish : Proc (PreparedRevision × (PublishOutcome ⊕ PublishPlan)) := do
  let prepared ← lift (preflight store reads request)
  lift reads.verifyOwnership
  lift reads.ownerAdmissible
  openAuthority true
  lift reads.lock
  let files ← read
  let admission ← lift (admitPublish store reads prepared files)
  return (prepared, admission)

/-- `publish`. -/
def publish : Proc PublishOutcome := do
  let (prepared, admission) ← openPublish store reads request
  match admission with
  | .inl outcome => return outcome
  | .inr _ =>
    commit store reads prepared
    return .published request.proposedRevision

end Publish

/-! ## Recovery claims -/

inductive OrphanForm where
  | staging | unreferencedRevision
  deriving DecidableEq, Repr

structure RecoveryClaimRequestV1 where
  runIdSha256 : String
  transactionId : String
  transactionSha256 : String
  observedPointerSha256 : Option String
  orphanForm : OrphanForm
  claimId : String
  claimantToken : String
  claimedAt : Nat
  deriving DecidableEq, Repr

structure RecoveryClaimV1 where
  request : RecoveryClaimRequestV1
  claimSha256 : String
  deriving DecidableEq, Repr

structure OrphanEntryV1 where
  orphanForm : OrphanForm
  transactionId : String
  pathOnly : Bool
  transactionSha256 : Option String

structure OrphanInspectionV1 where
  currentPointerSha256 : Option String
  stagingOrphans : List OrphanEntryV1
  revisionOrphans : List OrphanEntryV1

/-- What one `claim_orphan` reads, verifies and encodes. -/
structure ClaimReads where
  /-- The run id and the path lengths. -/
  admissible : Except RunStorageFailureCode Unit
  runIdSha256 : String
  claimSha256 : RecoveryClaimRequestV1 → String
  encode : RecoveryClaimV1 → Bytes
  parse : Bytes → Option RecoveryClaimV1
  verifyOwnership : Except RunStorageFailureCode Unit
  lock : Except RunStorageFailureCode Unit
  validateNamespace : RunFiles → Except RunStorageFailureCode Unit
  inspectOrphans : RunFiles → Except RunStorageFailureCode OrphanInspectionV1
  readChain : RunFiles → Except RunStorageFailureCode (Option VerifiedChain)

section Claim

variable (store : RunRevisionStore) (reads : ClaimReads) (request : RecoveryClaimRequestV1)

def ClaimReads.claim : RecoveryClaimV1 where
  request := request
  claimSha256 := reads.claimSha256 request

def ClaimReads.data : Bytes := reads.encode (reads.claim request)

/-- A claim file that is there has to be this claim, byte for byte. -/
def matchClaim (bytes : Bytes) : Except RunStorageFailureCode Unit := do
  require (bytes.length ≤ store.maxArtifactBytes) .recoveryClaimIncomplete
  match reads.parse bytes with
  | none => .error .recoveryClaimIncomplete
  | some existing =>
    require (existing = reads.claim request ∧ bytes = reads.data request) .recoveryClaimConflict

/-- The orphan the request is about, as inspected. -/
def OrphanInspectionV1.target (inspection : OrphanInspectionV1) : Option OrphanEntryV1 :=
  (inspection.stagingOrphans ++ inspection.revisionOrphans).reverse.find? fun entry =>
    entry.orphanForm = request.orphanForm ∧ entry.transactionId = request.transactionId

/-- The orphan is there and verified. -/
def checkTarget (inspection : OrphanInspectionV1) : Except RunStorageFailureCode Unit := do
  require (inspection.currentPointerSha256 = request.observedPointerSha256) .recoveryClaimConflict
  match inspection.target request with
  | none => .error .recoveryClaimConflict
  | some target =>
    require (¬ target.pathOnly ∧ target.transactionSha256 = some request.transactionSha256)
      .runIncomplete

/-- What the claim adds while it is published: nothing if its file is there. -/
def peakAdditionalBytes (files : RunFiles) : Except RunStorageFailureCode Nat :=
  match files.find (.claimTemp request.transactionId request.claimId) with
  | some bytes => do
    matchClaim store reads request bytes
    return 0
  | none => return (reads.data request).length

/-- What `claim_orphan` decides before it writes: the claim is there, or it is
to be published, with how many bytes at most beside those counted. -/
def admitClaim (files : RunFiles) : Except RunStorageFailureCode (Unit ⊕ Nat) := do
  reads.validateNamespace files
  let physicalBytes := runPhysicalBytes files
  require (physicalBytes ≤ store.maxRunBytes) .runBudgetExceeded
  match files.find (.claim request.transactionId) with
  | some bytes =>
    matchClaim store reads request bytes
    return .inl ()
  | none =>
    let inspection ← reads.inspectOrphans files
    checkTarget request inspection
    let additional ← peakAdditionalBytes store reads request files
    require (physicalBytes + additional ≤ store.maxRunBytes) .runBudgetExceeded
    return .inr additional

/-- No revision the pointer reaches is the transaction's. -/
def unreachable (files : RunFiles) : Except RunStorageFailureCode Bool := do
  match ← reads.readChain files with
  | none => return true
  | some chain => return chain.entries.all fun entry => entry.transactionId ≠ request.transactionId

/-- The claim's file under its own name. -/
def finalizeClaim : Proc Unit := do
  let temp := RunPath.claimTemp request.transactionId request.claimId
  let files ← read
  let reachable ← lift (unreachable reads request files)
  ensure reachable .recoveryClaimConflict
  match files.find (.claim request.transactionId) with
  | some bytes => lift (matchClaim store reads request bytes)
  | none =>
    replace temp (.claim request.transactionId)
    let files ← read
    match files.find (.claim request.transactionId) with
    | some bytes => lift ((matchClaim store reads request bytes).mapError fun _ =>
        .recoveryClaimIncomplete)
    | none => raise .recoveryClaimIncomplete
    let unclaimed ← lift (unreachable reads request files)
    ensure unclaimed .recoveryClaimIncomplete

/-- What `claim_orphan` does once it has admitted the request. -/
def commitClaim : Proc Unit := do
  let temp := RunPath.claimTemp request.transactionId request.claimId
  let files ← read
  if (files.find temp).isNone then
    writeExclusiveVerified store.maxArtifactBytes temp (reads.data request)
  finalizeClaim store reads request

/-- `claim_orphan` up to the end of the admission. -/
def openClaim : Proc (Unit ⊕ Nat) := do
  lift reads.admissible
  ensure (request.runIdSha256 = reads.runIdSha256) .crossRunMismatch
  ensure ((reads.data request).length ≤ store.maxArtifactBytes) .artifactBudgetExceeded
  lift reads.verifyOwnership
  openAuthority false
  lift reads.lock
  let files ← read
  lift (admitClaim store reads request files)

/-- `claim_orphan`. -/
def claimOrphan : Proc RecoveryClaimV1 := do
  let admission ← openClaim store reads request
  match admission with
  | .inl () => return reads.claim request
  | .inr _ =>
    commitClaim store reads request
    return reads.claim request

end Claim

end PokerDeliberation.Revisions
