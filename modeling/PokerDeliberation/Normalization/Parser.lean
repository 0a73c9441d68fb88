import PokerDeliberation.Normalization.Lines
import PokerDeliberation.Security.Redaction

/-!
# Normalization of a hand

`normalize_hand_request`: the checks of the whole source, the loop over its
lines, and the validation of what the lines have put together. Every problem of
a line is a diagnostic, and the loop goes on after it.
-/

namespace PokerDeliberation.Normalization

open Lib Lib.Patterns

/-- The parts of the language's library that normalization rests on. -/
structure Library extends Serializer where
  unicode : Security.Unicode
  /-- `unicodedata.normalize("NFC", t)` -/
  nfc : Text → Text
  /-- `unicodedata.category(c) == "Cf"` -/
  isFormatCharacter : Nat → Bool

variable (lib : Library)

/-- `_contains_prohibited_control`. -/
def containsProhibitedControl (t : Text) : Bool :=
  t.any fun c => !(c == TAB || c == CR || c == LF) &&
    (decide (c < 0x20) || (decide (0x7f ≤ c) && decide (c ≤ 0x9f)) || lib.isFormatCharacter c)

/-- `redact_sensitive(text, enabled=True) != text`. -/
def hasSecretShape (t : Text) : Bool :=
  decide (Security.redactText (Security.sourceRedactor lib.unicode) t ≠ t)

def BOM : List UInt8 := [0xef, 0xbb, 0xbf]

/-- The checks before the loop: the lines of the source, or the one diagnostic. -/
def readSource (source : List UInt8) :
    Except (NormalizationDiagnosticCode × NormalizationField) (List Text) := do
  require (source.length ≤ MAX_SOURCE_BYTES) (.sourceTooLarge, .source)
  require (¬ BOM <+: source) (.bom, .source)
  match Utf8.decode source with
  | none => throw (.utf8, .source)
  | some t =>
    require (lib.nfc t = t) (.nonNfc, .document)
    require (containsProhibitedControl lib t = false) (.controlCharacter, .document)
    require (hasSecretShape lib t = false) (.secretShape, .document)
    match splitLines t with
    | none => throw (.newline, .document)
    | some lines =>
      require (lines.length ≤ MAX_LINES) (.tooManyLines, .document)
      pure lines

/-! ## The loop -/

/-- The local variables of the loop. -/
structure ParseState where
  data : HandData := {}
  seenScalars : List ScalarField := []
  fieldLines : List (ScalarField × Nat) := []
  diagnostics : List NormalizationDiagnosticV1 := []

/-- `diagnostics.append(_diagnostic(...))`. -/
def ParseState.report (s : ParseState) (code : NormalizationDiagnosticCode) (line : Nat)
    (field : NormalizationField) : Except Uncaught ParseState := do
  let d ← diagnostic code (some line) field
  pure { s with diagnostics := s.diagnostics ++ [d] }

/-- The `except` clauses, and the limits of records. -/
def codeOf (key : Key) : ValueError → NormalizationDiagnosticCode
  | .csv => .csv
  | .index => .fieldCount
  | .overflow => .valueTooLong
  | .value => .numericLexeme
  | .tooMany => if key = .player then .tooManyPlayers else .tooManyActions

/-- What the value of a record is read as, after the players and actions there are. -/
def parseValue (data : HandData) (key : Key) (value : Text) : Except ValueError Entry :=
  match key with
  | .scalar field => parseScalar field value
  | .player => parsePlayer data.players.length value
  | .action => parseAction data.actions.length value

/-- `seen_scalars.add(key)` and `field_lines[key] = line_number`. -/
def ParseState.mark (s : ParseState) (key : Key) (line : Nat) : ParseState :=
  match key with
  | .scalar field =>
    { s with seenScalars := s.seenScalars ++ [field], fieldLines := s.fieldLines ++ [(field, line)] }
  | _ => s

/-- A record. -/
def recordStep (s : ParseState) (line : Nat) (key : Key) (value : Text) :
    Except Uncaught ParseState :=
  if key ∈ s.seenScalars.map Key.scalar then s.report .duplicateKey line key.field
  else
    let s := s.mark key line
    match parseValue s.data key value with
    | .error e => s.report (codeOf key e) line key.field
    | .ok entry => pure { s with data := entry.insert s.data }

/-- One line. -/
def lineStep (s : ParseState) (entry : Text × Nat) : Except Uncaught ParseState :=
  let (raw, index) := entry
  let line := index + 1
  if MAX_LINE_BYTES < encodedLength raw then s.report .lineTooLong line .document
  else if isIgnored raw then pure s
  else
    match matchLine raw with
    | none => s.report .malformedLine line .document
    | some (keyText, value) =>
      match Key.ofName (keyText.map lowered) with
      | none => s.report .unknownKey line .document
      | some key => recordStep s line key value

/-! ## The hand -/

/-- `_canonical_field(raw_field)`: the names of the two lists are no keys. -/
def canonicalField : Option HandField → NormalizationField
  | some (.scalar field) => .scalar field
  | _ => .document

/-- `field_lines.get(str(raw_field))`. -/
def lineOf (fieldLines : List (ScalarField × Nat)) : Option HandField → Option Nat
  | some (.scalar field) => fieldLines.lookup field
  | _ => none

/-- The errors in the order of their locations. -/
def sortedErrors (errors : List (Option HandField)) : List (Option HandField) :=
  errors.insertionSort fun x y => (x.map HandField.name).getD [] ≤ (y.map HandField.name).getD []

/-- The values that have not been seen before, as `seen` keeps them. -/
def firstOccurrences {α : Type} [DecidableEq α] (xs : List α) : List α :=
  xs.foldl (fun seen x => if x ∈ seen then seen else seen ++ [x]) []

/-- One diagnostic for each line and field with a schema error. -/
def schemaDiagnostics (fieldLines : List (ScalarField × Nat)) (errors : List (Option HandField)) :
    Except Uncaught (List NormalizationDiagnosticV1) :=
  let identities := (sortedErrors errors).map fun raw => (lineOf fieldLines raw, canonicalField raw)
  (firstOccurrences identities).mapM fun identity =>
    diagnostic .canonicalField identity.1 identity.2

/-- After the loop: a tournament is not supported. -/
def checkFormat (s : ParseState) : Except Uncaught ParseState :=
  if s.data.strings .format = some (text "tournament") then do
    let d ← diagnostic .unsupportedFormat (s.fieldLines.lookup .format) (.scalar .format)
    pure { s with diagnostics := s.diagnostics ++ [d] }
  else pure s

/-- `normalize_hand_request`. -/
def normalizeHandRequest (source : List UInt8) : Except Uncaught NormalizationResultV1 :=
  match readSource lib source with
  | .error (code, field) => do
    let d ← diagnostic code none field
    failed lib.toSerializer source [d]
  | .ok lines => do
    let s ← lines.zipIdx.foldlM lineStep {}
    let s ← checkFormat s
    if s.diagnostics ≠ [] then failed lib.toSerializer source s.diagnostics
    else
      match modelValidate s.data with
      | .error errors => do
        let diagnostics ← schemaDiagnostics s.fieldLines errors
        failed lib.toSerializer source diagnostics
      | .ok hand => do
        let normalized ← canonicalNormalizedHandBytes lib.toSerializer hand
        closedResult lib.toSerializer
          ⟨.success, some hand, [], provenance lib.toSerializer source (some normalized)⟩

end PokerDeliberation.Normalization
