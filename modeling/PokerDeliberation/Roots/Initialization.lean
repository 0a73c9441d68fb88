import PokerDeliberation.Budgets.Store
import PokerDeliberation.Lib.Interruptible

/-!
# Initialising a revision root

The root directory, what `inspect_root_initialization` makes of it, and the two
operations that fill it: `initialize_revision_root` begins in an empty root,
`reconcile_revision_root` finishes what an interrupted initialisation left. Each
holds the root's authority, so calls come one after another. Path checks, the
evidence of durability and the list of recognised paths are left out.
-/

namespace PokerDeliberation.Roots

open Lib Lib.Interruptible
open Budgets (RunStorageFailureCode)

abbrev Bytes := List UInt8

/-! ## Directories -/

/-- What a name stands for; a directory has its entries by name. -/
inductive Node where
  | file (bytes : Bytes)
  | dir (entries : List (String × Node))

inductive TempKind where
  | ownership | control | runs
  deriving DecidableEq, Repr

/-- The names in a root: the fixed ones, those `_ROOT_TEMP` matches, and any other. -/
inductive Name where
  | authority | ownership | control | runs
  | temp (kind : TempKind) (rootId : String)
  | other (name : String)
  deriving DecidableEq, Repr

abbrev Entries := List (Name × Node)

/-- A root that may not exist. -/
abbrev Root := Option Entries

def Root.find (root : Root) (name : Name) : Option Node := root.bind (·.lookup name)

def Node.isDir : Node → Bool
  | .dir _ => true
  | .file _ => false

/-- A directory with a `locks` directory in it. -/
def Node.hasLocks : Node → Bool
  | .dir entries => (entries.lookup "locks").any Node.isDir
  | .file _ => false

def Name.rootId : Name → Option String
  | .temp _ rootId => some rootId
  | _ => none

def Name.isOther : Name → Bool
  | .other _ => true
  | _ => false

def put (name : Name) (node : Node) : Root → Root :=
  Option.map fun entries => entries ++ [(name, node)]

def set (name : Name) (node : Node) : Root → Root :=
  Option.map fun entries => entries.map fun entry => if entry.1 = name then (name, node) else entry

def rename (source target : Name) : Root → Root :=
  Option.map fun entries =>
    entries.map fun entry => if entry.1 = source then (target, entry.2) else entry

@[simp] theorem lookup_cons {name name' : Name} {node : Node} {entries : Entries} :
    List.lookup name ((name', node) :: entries) =
      if name = name' then some node else List.lookup name entries := by
  rw [List.lookup_cons]
  by_cases h : name = name'
  · simp [h]
  · simp [h, beq_eq_false_iff_ne.2 h]

/-! ## Markers and requests -/

structure OwnershipMarkerV1 where
  rootId : String
  legacyRunsRootIdentitySha256 : String
  initializedAt : Nat
  producerId : String
  producerVersion : String
  deriving DecidableEq, Repr

structure RootInitializationRequestV1 where
  rootId : String
  initializedAt : Nat
  producerId : String
  producerVersion : String

/-- The canonical encoding, the hash, the identity of the legacy root and the
limit of a control file. -/
structure Env where
  encode : OwnershipMarkerV1 → Bytes
  parse : Bytes → Option OwnershipMarkerV1
  sha256 : Bytes → String
  legacyIdentity : String
  maxArtifactBytes : Nat

variable (env : Env) (request : RootInitializationRequestV1)

/-- The marker a request plans. -/
def Env.marker : OwnershipMarkerV1 where
  rootId := request.rootId
  legacyRunsRootIdentitySha256 := env.legacyIdentity
  initializedAt := request.initializedAt
  producerId := request.producerId
  producerVersion := request.producerVersion

def Env.markerBytes : Bytes := env.encode (env.marker request)

def Env.markerSha256 : String := env.sha256 (env.markerBytes request)

/-- `_read_control`. -/
def Env.readControl : Option Node → Option (OwnershipMarkerV1 × Bytes)
  | some (.file bytes) => if bytes.length ≤ env.maxArtifactBytes then
      (env.parse bytes).map fun marker => (marker, bytes) else none
  | _ => none

/-! ## Inspection -/

inductive Inspection where
  | uninitialized
  | incomplete (rootId : String)
  | initialized (rootId : String) (ownershipMarkerSha256 : String)
  | corrupt
  deriving DecidableEq, Repr

def MAX_ROOT_NAMESPACE_ENTRIES : Nat := 16

/-- The authority file is empty or the one stable byte. -/
def authorityRepairable : Option Node → Bool
  | some (.file bytes) => bytes = [] ∨ bytes = [0]
  | _ => false

/-- The branch of a root with a marker. -/
def inspectOwned (entries : Entries) (rootIds : List String) (node : Node) : Inspection :=
  let root : Root := some entries
  match env.readControl (some node) with
  | none => .corrupt
  | some (marker, bytes) =>
    if marker.legacyRunsRootIdentitySha256 = env.legacyIdentity ∧ rootIds = [] ∧
        (∀ name ∈ [Name.authority, .ownership, .control, .runs], (root.find name).isSome) ∧
        authorityRepairable (root.find .authority) ∧ (root.find .control).any Node.hasLocks ∧
        (root.find .runs).any Node.isDir then
      .initialized marker.rootId (env.sha256 bytes)
    else .corrupt

/-- `inspect_root_initialization`. -/
def inspect : Root → Inspection
  | none => .uninitialized
  | some entries =>
    let names := entries.map Prod.fst
    if MAX_ROOT_NAMESPACE_ENTRIES < entries.length ∨ names.any Name.isOther then .corrupt
    else
      let rootIds := (names.filterMap Name.rootId).dedup
      match entries.lookup .ownership with
      | some node => inspectOwned env entries rootIds node
      | none =>
        if names = [] ∨ names = [.authority] then .uninitialized
        else
          match rootIds with
          | [rootId] => .incomplete rootId
          | _ => .corrupt

/-! ## Steps -/

/-- The steps that change the root. -/
inductive FsStep where
  | makeRoot | createAuthority | writeAuthority | createOwnership | writeOwnership
  | makeControl | makeLocks | makeRuns | renameControl | renameRuns | replaceMarker
  deriving DecidableEq, Repr

inductive OutcomeKind where
  | initialized | alreadyInitialized | reconciliationRequired
  deriving DecidableEq, Repr

abbrev Proc := Interruptible FsStep RunStorageFailureCode Root

/-- `if not condition: raise`. -/
def ensure (p : Prop) [Decidable p] (code : RunStorageFailureCode) : Proc Unit :=
  lift (require p code)

/-- `_open_authority`, with the empty file repaired. -/
def openAuthority : Proc Unit := do
  let root ← read
  ensure root.isSome .transactionWriteFailed
  match root.find .authority with
  | none =>
    atomic .createAuthority (put .authority (.file []))
    atomic .writeAuthority (set .authority (.file [0]))
  | some (.file bytes) =>
    if bytes = [] then atomic .writeAuthority (set .authority (.file [0]))
    else ensure (bytes = [0]) .lockUnavailable
  | some (.dir _) => raise .transactionWriteFailed

/-- `prepare_root`. -/
def prepareRoot : Proc Unit := do
  let root ← read
  if root.isNone then atomic .makeRoot fun _ => some []

/-- `_write_exclusive_verified` of the ownership marker. -/
def writeExclusive (name : Name) (bytes : Bytes) : Proc Unit := do
  let root ← read
  ensure (root.find name).isNone .transactionWriteFailed
  atomic .createOwnership (put name (.file []))
  gradual .writeOwnership
    (fun root => (List.range bytes.length).map fun n => set name (.file (bytes.take n)) root)
    (set name (.file bytes))

/-- `_mkdir_verified`. -/
def mkdir (step : FsStep) (name : Name) : Proc Unit := do
  let root ← read
  ensure (root.find name).isNone .transactionWriteFailed
  atomic step (put name (.dir []))

/-- `_mkdir_verified` of the `locks` directory. -/
def mkdirLocks (name : Name) : Proc Unit := do
  let root ← read
  match root.find name with
  | some (.dir []) => atomic .makeLocks (set name (.dir [("locks", .dir [])]))
  | _ => raise .transactionWriteFailed

def renameEntry (step : FsStep) (source target : Name) : Proc Unit := do
  let root ← read
  ensure ((root.find source).isSome ∧ (root.find target).isNone) .effectUnknown
  atomic step (rename source target)

/-- The replacement of the marker, and its check. -/
def publishMarker : Proc Unit := do
  renameEntry .replaceMarker (.temp .ownership request.rootId) .ownership
  let root ← read
  ensure (env.readControl (root.find .ownership) =
    some (env.marker request, env.markerBytes request)) .transactionWriteFailed

/-! ## The operations -/

/-- What `initialize_revision_root` does in an empty root. -/
def fill : Proc Unit := do
  writeExclusive (.temp .ownership request.rootId) (env.markerBytes request)
  mkdir .makeControl (.temp .control request.rootId)
  mkdirLocks (.temp .control request.rootId)
  mkdir .makeRuns (.temp .runs request.rootId)
  renameEntry .renameControl (.temp .control request.rootId) .control
  renameEntry .renameRuns (.temp .runs request.rootId) .runs
  publishMarker env request

/-- What `initialize_revision_root` does while it holds the authority. -/
def initializeHeld : Proc OutcomeKind := do
  let root ← read
  match inspect env root with
  | .initialized _ _ =>
    ensure ((env.readControl (root.find .ownership)).map Prod.fst = some (env.marker request))
      .runNamespaceConflict
    return .alreadyInitialized
  | .uninitialized =>
    fill env request
    return .initialized
  | _ => return .reconciliationRequired

/-- `initialize_revision_root`. -/
def initializeRevisionRoot : Proc OutcomeKind := do
  let root ← read
  ensure (root.isSome → inspect env root ≠ .corrupt) .runNamespaceConflict
  ensure ((env.markerBytes request).length ≤ env.maxArtifactBytes) .artifactBudgetExceeded
  prepareRoot
  openAuthority
  initializeHeld env request

/-- The branch of `reconcile_revision_root` for the control directory. -/
def reconcileControl : Proc Unit := do
  let root ← read
  match root.find .control with
  | some (.dir [("locks", .dir [])]) => return ()
  | some _ => raise .transactionPublishFailed
  | none =>
    match root.find (.temp .control request.rootId) with
    | some (.dir [("locks", .dir [])]) =>
      renameEntry .renameControl (.temp .control request.rootId) .control
    | _ => raise .transactionPublishFailed

/-- The branch for the runs directory. -/
def reconcileRuns : Proc Unit := do
  let root ← read
  match root.find .runs with
  | some (.dir []) => return ()
  | some _ => raise .transactionPublishFailed
  | none =>
    match root.find (.temp .runs request.rootId) with
    | some (.dir []) => renameEntry .renameRuns (.temp .runs request.rootId) .runs
    | _ => raise .transactionPublishFailed

/-- What `reconcile_revision_root` does in a root it recognises. -/
def finish (expectedSha256 : String) : Proc Unit := do
  let root ← read
  let some (marker, bytes) := env.readControl (root.find (.temp .ownership request.rootId)) |
    raise .transactionVerificationFailed
  ensure (marker = env.marker request ∧ env.sha256 bytes = expectedSha256 ∧
    bytes = env.markerBytes request) .runNamespaceConflict
  ensure ((root.find .control).isNone ∨ (root.find (.temp .control request.rootId)).isNone)
    .runNamespaceConflict
  ensure ((root.find .runs).isNone ∨ (root.find (.temp .runs request.rootId)).isNone)
    .runNamespaceConflict
  reconcileControl request
  reconcileRuns request
  publishMarker env request

/-- The inspections `reconcile_revision_root` goes on with. -/
def reconcilable (expectedSha256 : String) : Inspection → Except RunStorageFailureCode Unit
  | .initialized _ sha256 => require (sha256 = expectedSha256) .runNamespaceConflict
  | .incomplete rootId => require (rootId = request.rootId) .rootInitializationIncomplete
  | _ => .error .rootInitializationIncomplete

/-- What `reconcile_revision_root` does while it holds the authority. -/
def reconcileHeld (expectedSha256 : String) : Proc OutcomeKind := do
  let root ← read
  lift (reconcilable request expectedSha256 (inspect env root))
  match inspect env root with
  | .initialized _ _ => return .alreadyInitialized
  | _ =>
    finish env request expectedSha256
    return .initialized

/-- `reconcile_revision_root`. -/
def reconcileRevisionRoot (expectedSha256 : String) : Proc OutcomeKind := do
  let root ← read
  lift (reconcilable request expectedSha256 (inspect env root))
  openAuthority
  reconcileHeld env request expectedSha256

end PokerDeliberation.Roots
