import PokerDeliberation.Lib.Lines
import PokerDeliberation.Storage.Canonical
import PokerDeliberation.Terminal.Publish
import PokerDeliberation.Workflow.StateMachine

/-!
# Inspecting a legacy run

`LegacyRunAdapter.inspect` reads the tree of a flat run: every file has to be an
admitted artifact that is valid for its schema, within the limits. It lists the
files with their exact bytes. The entries of the tree come in the order the
directory is enumerated in. The schemas, the digest and the identity of the
root directory are parameters.
-/

namespace PokerDeliberation.Storage

open Lib Lib.Json Lib.Utf8

def LEGACY_SENTINEL : Text := text ".poker-deliberation-run"
def LEGACY_SENTINEL_BYTES : List UInt8 := [0x76, 0x31, 0x0a]
def LEGACY_MAX_FILES : Nat := 4096

inductive LegacyModel where
  | caseInput | normalizationResult | finalReport | assumption | approvalRequest | agentAssignment
  | agentExecutionRecord | securityEvent | dispute | evidenceRecord | agentReport | toolResult
  deriving DecidableEq, Repr

/-- `_LIST_MODELS`. -/
def LIST_MODELS : List (String × LegacyModel) :=
  [("assumptions.json", .assumption), ("approvals.json", .approvalRequest),
    ("assignments.json", .agentAssignment), ("agent_execution_records.json", .agentExecutionRecord),
    ("security_events.json", .securityEvent), ("disputes.json", .dispute)]

/-- `_SINGLE_MODELS`. -/
def SINGLE_MODELS : List (String × LegacyModel) :=
  [("input.json", .caseInput), ("normalization.json", .normalizationResult),
    ("normalized_case.json", .caseInput), ("final_report.json", .finalReport)]

/-- What `legacy_root_identity_sha256` hashes of the root. -/
structure RootIdentity where
  adapter : Text
  resolved : Text
  stDev : Nat
  stIno : Nat

/-- An adapter; `validate` is pydantic's validation of a model, and `identity` the run, report
or result identifier of one. -/
structure LegacyRunAdapter (F M : Type) where
  lib : Library F
  validate : LegacyModel → Value F → Option M
  identity : M → Text
  sha256 : List UInt8 → String
  root : RootIdentity
  maxArtifactBytes : Int := 1000000
  maxRunBytes : Int := 10000000

/-- An entry of the run's tree, with its path from the run. -/
inductive Entry where
  | directory (relative : Text)
  | file (relative : Text) (data : List UInt8)
  deriving DecidableEq, Repr

structure LegacySourceArtifact where
  relativePath : Text
  mediaType : String
  artifactSchemaVersion : String
  exactBytes : List UInt8
  deriving DecidableEq, Repr

structure LegacyRunSnapshot (M : Type) where
  runId : Text
  sourceRootIdentitySha256 : String
  sourceRunIdSha256 : String
  sourceInventorySha256 : String
  artifacts : List LegacySourceArtifact
  finalReport : Option M

def MediaType.value : MediaType → String
  | .json => "application/json"
  | .ndjson => "application/x-ndjson"
  | .markdown => "text/markdown"
  | .plain => "text/plain"

/-- What `inspect` raises. -/
inductive InspectError where
  | productRun (failure : Terminal.ProductRunFailureV2)
  | other (raised : Raised)
  deriving DecidableEq, Repr

/-! ## JSON -/

/-- What `_legacy_json` makes of an exception of `json.loads`. -/
def legacyTranslated : LoadsError → Raised
  | .syntaxError | .refused => .canonicalStorage
  | .tooManyDigits => .valueError
  | .recursionError => .recursionError

section

variable {F M : Type} (adapter : LegacyRunAdapter F M)

def legacyJson (data : List UInt8) : Except Raised (Value F) := do
  let lib := adapter.lib
  require (¬ BOM_BYTES <+: data) .canonicalStorage
  let t ← decodeNfc lib data
  (loads lib.numbers (fun _ => none) (pairsNoDuplicates lib) lib.scanDepth t).mapError
    legacyTranslated

/-- `_validate_models` of one model. -/
def validateModel (model : LegacyModel) (data : List UInt8) : Except Raised M := do
  let value ← legacyJson adapter data
  match adapter.validate model value with
  | some m => return m
  | none => .error .canonicalStorage

/-- `_validate_models` with `many`. -/
def validateModels (model : LegacyModel) (data : List UInt8) : Except Raised Unit := do
  let value ← legacyJson adapter data
  match value with
  | .arr xs => require (∀ x ∈ xs, (adapter.validate model x).isSome) .canonicalStorage
  | _ => .error .canonicalStorage

end

/-! ## States -/

section

variable {F : Type}

/-- `value in {item.value for item in RunState}`; a container is not hashable. -/
def isRunState : Value F → Except Raised Bool
  | .str s => .ok (s ∈ Workflow.RunState.all.map fun state => text state.value)
  | .arr _ | .obj _ => .error .typeError
  | .null | .bool _ | .int _ | .float _ => .ok false

/-- `set(value) == {…}` -/
def hasKeys (items : List (Text × Value F)) (names : List String) : Bool :=
  (∀ x ∈ items, x.1 ∈ names.map text) ∧ ∀ name ∈ names, text name ∈ items.map (·.1)

/-- `value[name]`, of a key that is there. -/
def item (items : List (Text × Value F)) (name : String) : Value F :=
  (items.lookup (text name)).getD .null

def isString : Value F → Bool
  | .str _ => true
  | _ => false

/-- `isinstance(value, int)`, and no `bool`. -/
def isInteger : Value F → Bool
  | .int _ => true
  | _ => false

/-- `isinstance(value, (int, float))`, and no `bool`. -/
def isNumber : Value F → Bool
  | .int _ | .float _ => true
  | _ => false

/-- An event of a legacy state. -/
def validateEvent : Value F → Except Raised Unit
  | .obj items => do
    require (hasKeys items ["source", "target", "reason"]) .canonicalStorage
    require (← isRunState (item items "source")) .canonicalStorage
    require (← isRunState (item items "target")) .canonicalStorage
    require (isString (item items "reason")) .canonicalStorage
  | _ => .error .canonicalStorage

def stateKeys : List String :=
  ["state", "events", "deliberation_rounds", "tool_retries", "elapsed_seconds"]

/-- The fields of a state after its name. -/
def validateStateFields (items : List (Text × Value F)) : Except Raised Unit :=
  match item items "events" with
  | .arr events => do
    require (isInteger (item items "deliberation_rounds") ∧ isObject (item items "tool_retries") ∧
      isNumber (item items "elapsed_seconds")) .canonicalStorage
    events.forM validateEvent
  | _ => .error .canonicalStorage

/-- `_validate_state`, of the parsed value. -/
def validateStateValue : Value F → Except Raised Unit
  | .obj items => do
    require (hasKeys items stateKeys) .canonicalStorage
    require (← isRunState (item items "state")) .canonicalStorage
    validateStateFields items
  | _ => .error .canonicalStorage

end

/-! ## Artifacts -/

/-- `text.removesuffix(suffix)` -/
def removeSuffix (t suffix : Text) : Text :=
  if suffix <:+ t then t.take (t.length - suffix.length) else t

/-- How `_validate_legacy_artifact` checks an artifact. -/
inductive LegacyKind where
  | single (model : LegacyModel)
  | report
  | list (model : LegacyModel)
  | state | evidence | markdown
  | agentReport (identifier : Text)
  | toolInput
  | toolResult (identifier : Text)
  deriving DecidableEq, Repr

/-- The order of the tests of `_validate_legacy_artifact` on the path. -/
def legacyKind (relative : Text) : Option LegacyKind :=
  match SINGLE_MODELS.find? fun x => text x.1 = relative with
  | some (name, model) => if name = "final_report.json" then some .report else some (.single model)
  | none =>
    match LIST_MODELS.find? fun x => text x.1 = relative with
    | some (_, model) => some (.list model)
    | none =>
      if relative = text "state.json" then some .state
      else if relative = text "evidence.jsonl" then some .evidence
      else if relative = text "final_report.md" then some .markdown
      else if text "agent_reports/" <+: relative then
        some (.agentReport (removeSuffix (relative.drop (text "agent_reports/").length) (text ".json")))
      else if text "tool_results/" <+: relative ∧ text ".input.json" <:+ relative then
        some .toolInput
      else if text "tool_results/" <+: relative then
        some (.toolResult (removeSuffix (relative.drop (text "tool_results/").length) (text ".json")))
      else none

/-- `data.splitlines()`, which breaks lines at ASCII line ends only. -/
def byteLines : List UInt8 → List (List UInt8) :=
  linesOf (fun b => b = LF_BYTE || b = CR_BYTE) CR_BYTE LF_BYTE

section

variable {F M : Type} (adapter : LegacyRunAdapter F M) (runId : Text)

def validateState (data : List UInt8) : Except Raised Unit := do
  let value ← legacyJson adapter data
  validateStateValue value

/-- A model whose identifier is given by its place. -/
def validateIdentified (model : LegacyModel) (identifier : Text) (data : List UInt8) :
    Except Raised M := do
  let m ← validateModel adapter model data
  require (adapter.identity m = identifier) .canonicalStorage
  return m

def validateEvidence (data : List UInt8) : Except Raised Unit := do
  require (data = [] ∨ CR_BYTE ∉ data ∧ data.getLast? = some LF_BYTE) .canonicalStorage
  (byteLines data).forM fun line => do
    let _ ← validateModel adapter .evidenceRecord line

def validateMarkdown (data : List UInt8) : Except Raised Unit := do
  let t ← decodeNfc adapter.lib data
  require (0x0d ∉ t) .canonicalStorage

/-- `_validate_legacy_artifact` of an artifact whose kind is known from its path. -/
def LegacyKind.check (data : List UInt8) : LegacyKind → Except Raised (Option M)
  | .single model => do
    let _ ← validateModel adapter model data
    return none
  | .report => do
    let report ← validateIdentified adapter .finalReport runId data
    return some report
  | .list model => do
    validateModels adapter model data
    return none
  | .state => do
    validateState adapter data
    return none
  | .evidence => do
    validateEvidence adapter data
    return none
  | .markdown => do
    validateMarkdown adapter data
    return none
  | .agentReport identifier => do
    let _ ← validateIdentified adapter .agentReport identifier data
    return none
  | .toolInput => do
    let value ← legacyJson adapter data
    require (isObject value) .canonicalStorage
    return none
  | .toolResult identifier => do
    let _ ← validateIdentified adapter .toolResult identifier data
    return none

def validateLegacyArtifact (relative : Text) (data : List UInt8) : Except Raised (Option M) :=
  match legacyKind relative with
  | some kind => kind.check adapter runId data
  | none => .error .canonicalStorage

/-! ## The tree -/

/-- What is known of the entries that were read. -/
structure Inspection (M : Type) where
  artifacts : List LegacySourceArtifact := []
  finalReport : Option M := none
  total : Nat := 0
  aliases : List Text := []

def allowedDirectories : List Text := [text "agent_reports", text "tool_results"]

/-- The media type and the schema version of an artifact that is no sentinel. -/
def legacyRow (relative : Text) : Except Raised (String × String) :=
  if relative = text "state.json" then
    .ok ("application/json", "poker-workflow-state-artifact-v1")
  else do
    let row ← (artifactTableEntry adapter.lib.unicode relative none).mapError
      fun _ => Raised.canonicalStorage
    return (row.mediaType.value, row.artifactSchemaVersion)

/-- The artifact of a file, and the final report it may hold. -/
def readArtifact (relative : Text) (data : List UInt8) :
    Except Raised (LegacySourceArtifact × Option M) := do
  if relative = LEGACY_SENTINEL then
    require (data = LEGACY_SENTINEL_BYTES) .canonicalStorage
    return (⟨relative, "application/octet-stream", "poker-flat-run-sentinel-v1", data⟩, none)
  else
    (validateLogicalName adapter.lib.unicode relative).mapError fun _ => Raised.canonicalStorage
    let (mediaType, schema) ← legacyRow adapter relative
    let report ← validateLegacyArtifact adapter runId relative data
    return (⟨relative, mediaType, schema, data⟩, report)

/-- The body of the loop. -/
def readEntry (seen : Inspection M) : Entry → Except Raised (Inspection M)
  | .directory relative => do
    require (relative ∈ allowedDirectories) .canonicalStorage
    return seen
  | .file relative data => do
    require ((data.length : Int) ≤ adapter.maxArtifactBytes) .canonicalStorage
    require (((seen.total + data.length : Nat) : Int) ≤ adapter.maxRunBytes) .canonicalStorage
    let name := adapter.lib.unicode.lower relative
    require (name ∉ seen.aliases) .canonicalStorage
    let (artifact, report) ← readArtifact adapter runId relative data
    return { artifacts := seen.artifacts ++ [artifact], finalReport := report <|> seen.finalReport
             total := seen.total + data.length, aliases := name :: seen.aliases }

/-! ## The snapshot -/

/-- The order of a text by the bytes of its encoding. -/
def pathKey (t : Text) : Except Raised Text :=
  match encode t with
  | some data => .ok (data.map UInt8.toNat)
  | none => .error .valueError

/-- `sorted(xs, key=lambda x: path(x).encode("utf-8"))` -/
def sortedByPath {α : Type} (path : α → Text) (xs : List α) : Except Raised (List α) := do
  let keyed ← xs.mapM fun x => do
    let key ← pathKey (path x)
    return (key, x)
  return (keyed.insertionSort fun x y => x.1 ≤ y.1).map (·.2)

def canonicalDomainSha256 (domain : String) (value : Value F) : Except Raised String := do
  let data ← canonicalJsonBytes adapter.lib value
  return adapter.sha256 ((text domain).map UInt8.ofNat ++ 0 :: data)

def LEGACY_ROOT_IDENTITY_HASH_DOMAIN : String := "poker-run-legacy-root-identity-v1"
def LEGACY_SOURCE_INVENTORY_DOMAIN : String := "poker-run-legacy-source-inventory-v2"
def INVALID_LEGACY_RUN_ID_DOMAIN : String := "poker-invalid-legacy-run-id-v2"

def legacyRootIdentitySha256 : Except Raised String :=
  canonicalDomainSha256 adapter LEGACY_ROOT_IDENTITY_HASH_DOMAIN (.obj
    [(text "adapter", .str adapter.root.adapter),
      (text "path", .str (adapter.lib.unicode.nfc adapter.root.resolved)),
      (text "st_dev", .int adapter.root.stDev), (text "st_ino", .int adapter.root.stIno)])

def LegacySourceArtifact.inventoryObservation (artifact : LegacySourceArtifact) : Value F := .obj
  [(text "relative_path", .str artifact.relativePath),
    (text "media_type", .str (text artifact.mediaType)),
    (text "artifact_schema_version", .str (text artifact.artifactSchemaVersion)),
    (text "size_bytes", .int artifact.exactBytes.length),
    (text "sha256", .str (text (adapter.sha256 artifact.exactBytes)))]

/-- `legacy_source_inventory_sha256`, of the observations of artifacts. -/
def legacySourceInventorySha256 (artifacts : List LegacySourceArtifact) : Except Raised String := do
  let ordered ← sortedByPath (·.relativePath) artifacts
  canonicalDomainSha256 adapter LEGACY_SOURCE_INVENTORY_DOMAIN
    (.arr (ordered.map (·.inventoryObservation adapter)))

def runIdSha256 : Except Raised String := do
  (validateRunId adapter.lib.unicode runId).mapError fun _ => Raised.canonicalStorage
  match encode runId with
  | some data => return adapter.sha256 data
  | none => .error .valueError

/-- The `try` of `inspect`. -/
def inspectTree (entries : List Entry) : Except Raised (LegacyRunSnapshot M) := do
  (validateRunId adapter.lib.unicode runId).mapError fun _ => Raised.canonicalStorage
  require (entries.length ≤ LEGACY_MAX_FILES + 2) .canonicalStorage
  let seen ← entries.foldlM (readEntry adapter runId) {}
  require (∃ first ∈ seen.artifacts.head?, first.relativePath ≠ []) .canonicalStorage
  require ((seen.artifacts.reverse.find? (·.relativePath = LEGACY_SENTINEL)).map (·.exactBytes) =
    some LEGACY_SENTINEL_BYTES) .canonicalStorage
  let ordered ← sortedByPath (·.relativePath) seen.artifacts
  return {
    runId
    sourceRootIdentitySha256 := ← legacyRootIdentitySha256 adapter
    sourceRunIdSha256 := ← runIdSha256 adapter runId
    sourceInventorySha256 := ← legacySourceInventorySha256 adapter ordered
    artifacts := ordered
    finalReport := seen.finalReport }

/-- `legacy_failure`; the run identifier need not be valid. -/
def legacyFailure (code : Terminal.ProductRunFailureCode) (stage : String)
    (filesystemEffect : Terminal.FilesystemEffect) (reconciliationRequired : Bool) :
    Except Raised Terminal.ProductRunFailureV2 := do
  let digest ← match runIdSha256 adapter runId with
    | .ok digest => .ok digest
    | .error _ =>
      canonicalDomainSha256 adapter INVALID_LEGACY_RUN_ID_DOMAIN (.obj [(text "run_id", .str runId)])
  return {
    runIdSha256 := digest
    code
    stage
    readStatus := if code = .legacyRunUnverified then some .legacyUnverified else none
    reconciliationRequired
    filesystemEffect
    domainEffect := .currentUnchanged
    previousRevisionEffect := .notApplicable }

/-- `LegacyRunAdapter.inspect`. -/
def inspect (entries : List Entry) : Except InspectError (LegacyRunSnapshot M) :=
  match inspectTree adapter runId entries with
  | .ok snapshot => .ok snapshot
  | .error .canonicalStorage =>
    match legacyFailure adapter runId .legacyRunUnverified "legacy_read" .none false with
    | .ok failure => .error (.productRun failure)
    | .error raised => .error (.other raised)
  | .error raised => .error (.other raised)

end

end PokerDeliberation.Storage
