import PokerDeliberation.Lib.Checked
import PokerDeliberation.Lib.Patterns
import Mathlib.Data.List.Infix

/-!
# Names in the run storage

Run identifiers, the logical names of artifacts, and the table of the artifacts
that are admitted with their media type, serialization and schema version. A
name may be any text, as a file name can; an error is the message of a
`CanonicalStorageError`.
-/

namespace PokerDeliberation.Storage

open Lib Lib.Patterns

/-- The parts of the language's Unicode tables that names and contents are checked with. -/
structure Unicode where
  /-- `unicodedata.normalize("NFC", t)` -/
  nfc : Text → Text
  /-- `str.upper` -/
  upper : Text → Text
  /-- `str.lower` -/
  lower : Text → Text
  /-- `\w` -/
  isWord : Nat → Bool
  nfc_ascii : ∀ t : Text, (∀ c ∈ t, c < 128) → nfc t = t
  lower_ascii : ∀ t : Text, (∀ c ∈ t, c < 128) →
    lower t = t.map fun c => if 0x41 ≤ c ∧ c ≤ 0x5a then c + 0x20 else c

/-! ## Secret shapes -/

/-- A literal without regard to case. -/
def word : String → Pattern := literal sameLetter

/-- `[A-Za-z0-9]` without regard to case. -/
def alphanumeric (c : Nat) : Bool := isLetter (lowered c) || isDecimal c

/-- `[A-Za-z0-9_-]` without regard to case. -/
def wordOrDash (c : Nat) : Bool := alphanumeric c || among "_-" c

/-- `[-_]?` -/
def maybeDash : Pattern := maybe (one (among "-_"))

/-- `first[-_]?second` -/
def joinedWords (first second : String) : Pattern := inTurn [word first, maybeDash, word second]

/-- `\s*[:=]` -/
def assigned : List Pattern := [many isSpaceCode 0, one (among ":=")]

/-- The alternatives that `_SECRET_METADATA` and `_SECRET_VALUE` begin with. -/
def secretFamilies (isWord : Nat → Bool) : List Pattern :=
  [inTurn [boundary isWord, word "sk-", many wordOrDash 8, boundary isWord],
    inTurn [boundary isWord, word "gh", one (fun c => among "pousr" (lowered c)), word "_",
      many alphanumeric 20, boundary isWord],
    inTurn [boundary isWord, word "github_pat_", many (fun c => alphanumeric c || among "_" c) 20,
      boundary isWord],
    inTurn ([boundary isWord, anyOf [word "akia", word "asia"]] ++
      List.replicate 16 (one alphanumeric) ++ [boundary isWord]),
    inTurn [boundary isWord, word "aiza", many wordOrDash 20, boundary isWord],
    inTurn [boundary isWord, word "eyj", many wordOrDash 5, word ".", many wordOrDash 5, word ".",
      many wordOrDash 5, boundary isWord],
    inTurn [boundary isWord, word "xox", one (fun c => among "baprs" (lowered c)), word "-",
      many (fun c => alphanumeric c || among "-" c) 10, boundary isWord],
    inTurn [boundary isWord, word "npm_", many alphanumeric 20, boundary isWord],
    inTurn [boundary isWord, anyOf [word "rk", word "sk"], word "_",
      anyOf [word "live", word "test"], word "_", many alphanumeric 10, boundary isWord],
    inTurn [boundary isWord, word "bearer", many isSpaceCode 1,
      many (fun c => alphanumeric c || among "._~+/=-" c) 8, boundary isWord]]

/-- `(?:api[_-]?key|password|passwd|secret|token)\s*[:=]` -/
def assignedLabel : Pattern :=
  inTurn (anyOf [joinedWords "api" "key", word "password", word "passwd", word "secret",
    word "token"] :: assigned)

/-- `_SECRET_METADATA`. -/
def SECRET_METADATA (isWord : Nat → Bool) : Pattern :=
  anyOf (secretFamilies isWord ++ [assignedLabel])

/-! ## Names -/

def SLASH : Nat := 0x2f
def DOT : Nat := 0x2e

/-- The category is `Cc`. -/
def isControl (c : Nat) : Bool := c < 0x20 || (0x7f ≤ c && c ≤ 0x9f)

/-- `[A-Za-z0-9][A-Za-z0-9._-]{0,127}` -/
def isPortable : Text → Bool
  | [] => false
  | c :: t => (isLetter c || isDecimal c) && t.length ≤ 127 &&
    t.all fun c => isLetter c || isDecimal c || among "._-" c

def WINDOWS_RESERVED : List String :=
  ["CON", "PRN", "AUX", "NUL",
    "COM1", "COM2", "COM3", "COM4", "COM5", "COM6", "COM7", "COM8", "COM9",
    "LPT1", "LPT2", "LPT3", "LPT4", "LPT5", "LPT6", "LPT7", "LPT8", "LPT9"]

section

variable (u : Unicode)

/-- `value.split(".", maxsplit=1)[0].upper() in _WINDOWS_RESERVED` -/
def isReserved (value : Text) : Bool :=
  WINDOWS_RESERVED.any fun stem => u.upper (value.takeWhile (· != DOT)) = text stem

/-- `value.endswith((".", " "))` -/
def endsBadly (value : Text) : Bool := value.getLast? = some DOT || value.getLast? = some 0x20

/-- `validate_control_string`, which raises a `ValueError`. -/
def validateControlString (value : Text) : Except String Unit := do
  require (u.nfc value = value) "control metadata must be NFC"
  require (value.all fun c => !isControl c) "control metadata cannot contain control characters"
  require (search (SECRET_METADATA u.isWord) none value = false)
    "control metadata must not contain a secret shape"

def validateRunId (runId : Text) : Except String Unit := do
  require (isPortable runId) "invalid portable run ID"
  require (u.nfc runId = runId) "storage strings and keys must already be NFC"
  (validateControlString u runId).mapError fun _ => "run ID contains unsafe control metadata"
  require (endsBadly runId = false) "run ID cannot end in dot or space"
  require (isReserved u runId = false) "run ID uses a reserved device alias"

/-- `_validate_segment`. -/
def validateSegment (segment : Text) : Except String Unit := do
  require (u.nfc segment = segment) "storage strings and keys must already be NFC"
  require (segment ∉ [[], text ".", text ".."] ∧ endsBadly segment = false)
    "unsafe portable path segment"
  require (0x3a ∉ segment ∧ 0x5c ∉ segment) "portable path cannot contain colon or backslash"
  require (isReserved u segment = false) "portable path uses a reserved device alias"

def validateLogicalName (logicalName : Text) : Except String Unit := do
  require (logicalName ≠ [] ∧ logicalName.head? ≠ some SLASH ∧ logicalName.head? ≠ some 0x5c ∧
    ¬ text "://" <:+: logicalName) "logical name is not a relative POSIX path"
  (validateControlString u logicalName).mapError fun _ =>
    "logical name contains unsafe control metadata"
  (logicalName.splitOn SLASH).forM (validateSegment u)

end

/-! ## The artifact table -/

inductive MediaType where
  | json | ndjson | markdown | plain
  deriving DecidableEq, Repr

inductive Serialization where
  | storageJson | storageJsonl | storageText | opaqueBytes
  deriving DecidableEq, Repr

structure ArtifactTableValue where
  mediaType : MediaType
  serialization : Serialization
  artifactSchemaVersion : String
  originKind : String
  deriving DecidableEq, Repr

/-- A row of a canonical JSON artifact. -/
def jsonRow (artifactSchemaVersion originKind : String) : ArtifactTableValue where
  mediaType := .json
  serialization := .storageJson
  artifactSchemaVersion
  originKind

/-- A row of a plain text. -/
def plainRow (artifactSchemaVersion originKind : String) : ArtifactTableValue where
  mediaType := .plain
  serialization := .storageText
  artifactSchemaVersion
  originKind

def FINAL_REPORT_ARTIFACT_V1 : String := "poker-final-report-artifact-v1"
def FINAL_REPORT_ARTIFACT_V2 : String := "poker-final-report-artifact-v2"

/-- `_FIXED_ARTIFACT_TABLE`. -/
def fixedArtifactTable : List (String × ArtifactTableValue) :=
  [("bounded_river_call_ev_source.txt",
      plainRow "poker-bounded-river-call-ev-source-artifact-v1" "bounded_river_call_ev_source"),
    ("bounded_river_call_ev_range.json",
      jsonRow "poker-bounded-river-call-ev-range-artifact-v1" "bounded_river_call_ev_range"),
    ("bounded_river_call_ev_candidate.json",
      jsonRow "poker-bounded-river-call-ev-candidate-artifact-v1" "bounded_river_call_ev_candidate"),
    ("bounded_river_call_ev_confirmation.json",
      jsonRow "poker-bounded-river-call-ev-confirmation-artifact-v1"
        "bounded_river_call_ev_confirmation"),
    ("bounded_river_call_ev_budget_failure.json",
      jsonRow "poker-bounded-river-call-ev-budget-failure-evidence-artifact-v1"
        "bounded_river_call_ev_budget_failure_evidence"),
    ("confirmed_review_source.txt",
      plainRow "poker-confirmed-review-source-artifact-v1" "confirmed_review_source"),
    ("confirmed_review_candidate.json",
      jsonRow "poker-confirmed-review-candidate-artifact-v1" "confirmed_review_candidate"),
    ("confirmed_review_confirmation.json",
      jsonRow "poker-confirmed-review-confirmation-artifact-v1" "confirmed_review_confirmation"),
    ("bounded_nl_source.txt", plainRow "poker-bounded-nl-source-artifact-v1" "bounded_nl_source"),
    ("bounded_nl_candidate.json",
      jsonRow "poker-bounded-nl-candidate-artifact-v1" "bounded_nl_candidate"),
    ("bounded_nl_confirmation.json",
      jsonRow "poker-bounded-nl-confirmation-artifact-v1" "bounded_nl_confirmation"),
    ("input.json", jsonRow "poker-case-input-artifact-v1" "case_input"),
    ("range_equity_binding.json",
      jsonRow "poker-versioned-range-river-equity-binding-artifact-v1" "range_equity_binding"),
    ("bounded_river_call_ev_binding.json",
      jsonRow "poker-bounded-river-call-ev-binding-artifact-v1" "bounded_river_call_ev_binding"),
    ("normalization.json", jsonRow "poker-normalization-result-artifact-v1" "normalization_record"),
    ("normalized_case.json", jsonRow "poker-normalized-case-artifact-v1" "normalization_output"),
    ("assumptions.json", jsonRow "poker-assumption-list-artifact-v1" "assumption_ledger"),
    ("evidence.jsonl",
      { mediaType := .ndjson, serialization := .storageJsonl
        artifactSchemaVersion := "poker-evidence-record-jsonl-artifact-v1"
        originKind := "evidence_ledger" }),
    ("approvals.json", jsonRow "poker-approval-request-list-artifact-v1" "approval_ledger"),
    ("assignments.json", jsonRow "poker-agent-assignment-list-artifact-v1" "assignment_ledger"),
    ("agent_execution_records.json",
      jsonRow "poker-agent-execution-record-list-artifact-v1" "agent_execution_ledger"),
    ("security_events.json",
      jsonRow "poker-security-event-list-artifact-v1" "security_event_ledger"),
    ("disputes.json", jsonRow "poker-dispute-list-artifact-v1" "dispute_ledger"),
    ("final_report.json", jsonRow FINAL_REPORT_ARTIFACT_V1 "final_report_json"),
    ("final_report.md",
      { mediaType := .markdown, serialization := .storageText
        artifactSchemaVersion := "poker-final-report-markdown-artifact-v1"
        originKind := "final_report_markdown" }),
    ("confirmed_review_provenance.json",
      jsonRow "poker-confirmed-review-provenance-artifact-v1" "confirmed_review_provenance"),
    ("bounded_nl_provenance.json",
      jsonRow "poker-bounded-nl-provenance-artifact-v1" "bounded_nl_provenance"),
    ("bounded_river_call_ev_result.json",
      jsonRow "poker-bounded-river-call-ev-result-artifact-v1" "bounded_river_call_ev_result"),
    ("bounded_river_call_ev_provenance.json",
      jsonRow "poker-bounded-river-call-ev-provenance-artifact-v1"
        "bounded_river_call_ev_provenance"),
    ("budget_state.json", jsonRow "poker-durable-budget-state-artifact-v1" "budget_state"),
    ("isolated_job_state.json", jsonRow "poker-isolated-job-state-artifact-v1" "isolated_job_state"),
    ("stdout.txt", plainRow "poker-isolated-job-stdout-artifact-v1" "isolated_job_stdout"),
    ("stderr.txt", plainRow "poker-isolated-job-stderr-artifact-v1" "isolated_job_stderr")]

/-- `^folder(?P<identifier>…)extension$`, with the row of its artifacts. -/
structure VariableArtifact where
  folder : String
  extension : String
  row : ArtifactTableValue

/-- `_VARIABLE_AGENT_REPORT`. -/
def agentReport : VariableArtifact where
  folder := "agent_reports/"
  extension := ".json"
  row := jsonRow "poker-agent-report-artifact-v1" "agent_report"

/-- `_VARIABLE_TOOL_INPUT`. -/
def toolInput : VariableArtifact where
  folder := "tool_results/"
  extension := ".input.json"
  row := jsonRow "poker-tool-input-artifact-v1" "tool_input"

/-- `_VARIABLE_TOOL_RESULT`. -/
def toolResult : VariableArtifact where
  folder := "tool_results/"
  extension := ".json"
  row := jsonRow "poker-tool-result-artifact-v1" "tool_result"

/-- The name of an artifact of this kind. -/
def VariableArtifact.name (kind : VariableArtifact) (identifier : Text) : Text :=
  text kind.folder ++ (identifier ++ text kind.extension)

/-- `pattern.fullmatch(logical_name)`, its identifier. -/
def VariableArtifact.fullmatch (kind : VariableArtifact) (logicalName : Text) : Option Text :=
  let rest := logicalName.drop kind.folder.length
  let identifier := rest.take (rest.length - kind.extension.length)
  if logicalName = kind.name identifier ∧ isPortable identifier then some identifier else none

/-- Another schema version than the one of the row is refused. -/
def ArtifactTableValue.versioned (row : ArtifactTableValue) (artifactSchemaVersion : Option String) :
    Except String ArtifactTableValue := do
  require (∀ version ∈ artifactSchemaVersion, version = row.artifactSchemaVersion)
    "logical artifact schema version mismatch"
  return row

def artifactTableEntry (u : Unicode) (logicalName : Text) (artifactSchemaVersion : Option String) :
    Except String ArtifactTableValue := do
  validateLogicalName u logicalName
  match fixedArtifactTable.find? fun row => text row.1 = logicalName with
  | some (name, fixed) =>
    if name = "final_report.json" then
      let version := artifactSchemaVersion.getD FINAL_REPORT_ARTIFACT_V1
      if version = FINAL_REPORT_ARTIFACT_V1 then return fixed
      else if version = FINAL_REPORT_ARTIFACT_V2 then
        return { fixed with artifactSchemaVersion := FINAL_REPORT_ARTIFACT_V2 }
      else .error "unknown final-report artifact schema version"
    else fixed.versioned artifactSchemaVersion
  | none =>
    match [agentReport, toolInput, toolResult].findSome? fun kind =>
        (kind.fullmatch logicalName).map fun identifier => (kind, identifier) with
    | some (kind, identifier) => do
      validateRunId u identifier
      kind.row.versioned artifactSchemaVersion
    | none => .error "logical artifact is not admitted by P2-012A"

/-! ## Admitted names -/

section

variable {u : Unicode} {logicalName identifier : Text} {version : Option String}
variable {row : ArtifactTableValue} {kind : VariableArtifact}

theorem fullmatch_eq_some (h : kind.fullmatch logicalName = some identifier) :
    logicalName = kind.name identifier ∧ isPortable identifier = true := by
  simp only [VariableArtifact.fullmatch] at h
  split at h
  · cases h
    assumption
  · cases h

/-- An admitted name is in the table, or made of an identifier. -/
theorem artifactTableEntry_name (h : artifactTableEntry u logicalName version = .ok row) :
    (∃ fixed ∈ fixedArtifactTable, text fixed.1 = logicalName) ∨
      ∃ kind ∈ [agentReport, toolInput, toolResult], ∃ identifier,
        isPortable identifier = true ∧ logicalName = kind.name identifier := by
  simp only [artifactTableEntry, check_bind_eq_ok] at h
  obtain ⟨-, h⟩ := h
  split at h
  · rename_i name fixed hfind
    exact .inl ⟨_, List.mem_of_find?_eq_some hfind, by simpa using List.find?_some hfind⟩
  · split at h
    · rename_i kind identifier hkind
      obtain ⟨found, hfound, hsome⟩ := List.exists_of_findSome?_eq_some hkind
      obtain ⟨own, hmatch, -⟩ := Option.map_eq_some_iff.1 hsome
      obtain ⟨hname, hportable⟩ := fullmatch_eq_some hmatch
      exact .inr ⟨found, hfound, own, hportable, hname⟩
    · cases h

/-- Every name of the table is ASCII and holds a dot. -/
theorem fixedArtifactTable_names : ∀ fixed ∈ fixedArtifactTable,
    (∀ c ∈ text fixed.1, c < 128) ∧ DOT ∈ text fixed.1 := by decide

theorem isPortable_ascii (h : isPortable identifier = true) : ∀ c ∈ identifier, c < 128 := by
  have hword : ∀ c, (isLetter c || isDecimal c || among "._-" c) = true → c < 128 := by
    intro c hc
    have hamong : among "._-" c = true → c = 0x2e ∨ c = 0x5f ∨ c = 0x2d := by
      simp [among, text]
    simp only [isLetter, isDecimal, Bool.or_eq_true, Bool.and_eq_true, decide_eq_true_eq] at hc
    rcases hc with (hc | hc) | hc
    · omega
    · omega
    · have := hamong hc
      omega
  cases identifier with
  | nil => exact fun c hc => absurd hc List.not_mem_nil
  | cons first rest =>
    simp only [isPortable, Bool.and_eq_true, List.all_eq_true] at h
    obtain ⟨⟨hfirst, -⟩, hrest⟩ := h
    intro c hc
    rcases List.mem_cons.1 hc with rfl | hc
    · exact hword c (by rw [hfirst]; rfl)
    · exact hword c (hrest c hc)

theorem artifactTableEntry_ascii (h : artifactTableEntry u logicalName version = .ok row) :
    (∀ c ∈ logicalName, c < 128) ∧ DOT ∈ logicalName := by
  rcases artifactTableEntry_name h with ⟨fixed, hfixed, rfl⟩ | ⟨kind, hkind, identifier, hid, rfl⟩
  · exact fixedArtifactTable_names fixed hfixed
  · have hends : ∀ kind ∈ [agentReport, toolInput, toolResult],
        (∀ c ∈ text kind.folder, c < 128) ∧ (∀ c ∈ text kind.extension, c < 128) ∧
          DOT ∈ text kind.extension := by
      decide
    obtain ⟨hfolder, hextension, hdot⟩ := hends kind hkind
    refine ⟨fun c hc => ?_, List.mem_append_right _ (List.mem_append_right _ hdot)⟩
    rcases List.mem_append.1 hc with hc | hc
    · exact hfolder c hc
    · rcases List.mem_append.1 hc with hc | hc
      · exact isPortable_ascii hid c hc
      · exact hextension c hc

end

end PokerDeliberation.Storage
