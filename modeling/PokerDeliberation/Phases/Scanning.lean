import PokerDeliberation.Lib.Json.Quoted
import PokerDeliberation.Lib.Lines
import PokerDeliberation.Storage.Canonical

/-!
# Scanning for secrets

Before a revision is published, `_scan_artifact` looks for secrets in its
artifacts: in the keys of a value for one pattern, in its other strings for
another. It parses a value with the canonical parser, and cuts the records of a
JSONL payload itself.
-/

namespace PokerDeliberation.Phases

open Lib Lib.Patterns Lib.Utf8 Storage

/-- `_SECRET_KEY`. -/
def SECRET_KEY : Pattern := anyOf
  [joinedWords "api" "key", word "authorization", word "bearer", word "cookie", word "password",
    word "passwd", word "secret", word "token", joinedWords "private" "key",
    inTurn [word "client", maybeDash, anyOf [word "secret", word "credential"]], word "credential"]

/-- `_SECRET_VALUE`. -/
def SECRET_VALUE (isWord : Nat → Bool) : Pattern := anyOf (secretFamilies isWord ++
  [assignedLabel,
    inTurn [word "-----begin ", maybe (anyOf [word "rsa ", word "ec ", word "openssh "]),
      word "private key-----"],
    inTurn ([boundary isWord,
        anyOf [joinedWords "api" "key", joinedWords "access" "token", word "password",
          joinedWords "client" "secret"], boundary isWord] ++ assigned ++
      [many isSpaceCode 0, maybe (one (among "'\"")),
        many (fun c => alphanumeric c || among "_./+=-" c) 12])])

inductive ScanFailure where
  | secretDetected | unsupportedPayload | persistenceDenied
  deriving DecidableEq, Repr

section

variable (u : Unicode) {F : Type}

def keyShape (key : Text) : Bool := search SECRET_KEY none key

def valueShape (s : Text) : Bool := search (SECRET_VALUE u.isWord) none s

mutual

/-- `_scan_value`. -/
def scanValue : Json.Value F → Except ScanFailure Unit
  | .obj items => scanItems items
  | .arr xs => scanAll xs
  | .str s => require (valueShape u s = false) .secretDetected
  | .null | .bool _ | .int _ | .float _ => .ok ()

def scanAll : List (Json.Value F) → Except ScanFailure Unit
  | [] => .ok ()
  | x :: xs => do
    scanValue x
    scanAll xs

def scanItems : List (Text × Json.Value F) → Except ScanFailure Unit
  | [] => .ok ()
  | (key, item) :: items => do
    require (keyShape key = false) .secretDetected
    scanValue item
    scanItems items

end

end

/-- Where `str.splitlines` ends a line. -/
def isLineBreak (c : Nat) : Bool :=
  c ∈ [0x0a, 0x0b, 0x0c, 0x0d, 0x1c, 0x1d, 0x1e, 0x85, 0x2028, 0x2029]

/-- `str.splitlines`. -/
def splitlines : Text → List Text := linesOf isLineBreak 0x0d 0x0a

section

variable {F : Type} (lib : Library F) (artifact : RevisionArtifactV1)

/-- `_scan_value(parse_canonical_json(data))`, whose other exceptions are translated. -/
def scanJson (data : List UInt8) : Except ScanFailure Unit := do
  let value ← (parseCanonicalJson lib data).mapError fun _ => ScanFailure.unsupportedPayload
  scanValue lib.unicode value

/-- A line of a JSONL payload. -/
def scanLine (line : Text) : Except ScanFailure Unit :=
  match encode line with
  | some data => scanJson lib data
  | none => .error .unsupportedPayload

/-- The payload, by its media type and serialization. -/
def scanPayload (t : Text) : Except ScanFailure Unit :=
  match artifact.mediaType, artifact.serialization with
  | .json, .storageJson => scanJson lib artifact.exactBytes
  | .ndjson, .storageJsonl => ((splitlines t).filter (· ≠ [])).forM (scanLine lib)
  | .markdown, .storageText => require (valueShape lib.unicode t = false) .secretDetected
  | _, _ => .error .unsupportedPayload

/-- `_scan_artifact`. -/
def scanArtifact (maxArtifactBytes : Nat) : Except ScanFailure Unit := do
  require (artifact.exactBytes.length ≤ maxArtifactBytes) .unsupportedPayload
  match decode artifact.exactBytes with
  | none => .error .unsupportedPayload
  | some t => do
    let evidence := artifact.classificationEvidence
    require (artifact.classification ∈ [LocalData.ContextClassification.pub, .internal] ∧
      evidence.restrictedSecretCheckCompleted ∧ ¬ evidence.containsRestrictedSecret ∧
      ∀ source ∈ evidence.sourceClassifications,
        source ∉ [LocalData.ContextClassification.sensitive, .restricted]) .persistenceDenied
    scanPayload lib artifact t

end

end PokerDeliberation.Phases
