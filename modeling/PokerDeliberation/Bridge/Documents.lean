import PokerDeliberation.Bridge.Storage

/-!
# Documents as files

A `Format` in which a file is the document it encodes, and the digest of a
document is what the document itself is named by.
-/

namespace PokerDeliberation.Bridge

inductive Document where
  | artifact (model : BridgeArtifactModel)
  | manifest (manifest : BridgeTerminalManifest)
  | marker (marker : BridgeCompletionMarker)
  | pointer (pointer : BridgeCurrentPointer)
  deriving DecidableEq, Repr

namespace Document

def digest : Document → Sha256
  | artifact (.runPlan m) => "plan " ++ m.planSha256
  | artifact (.sourceContext m) => "source " ++ m.content
  | artifact (.request m) => "request " ++ m.attempt.requestSha256
  | artifact (.confirmation m) => "confirmation " ++ m.confirmationSha256
  | artifact (.admission m) => "admission " ++ m.admissionSha256
  | artifact (.roleResult m) => "result " ++ m.resultSha256
  | artifact (.executionAudit m) => "audit " ++ m.auditSha256
  | manifest m => "manifest " ++ m.manifestSha256
  | marker m => "marker " ++ m.terminalManifestSha256
  | pointer p => "pointer " ++ p.manifestSha256

def parseArtifact (kind : BridgeArtifactKind) : Document → Option BridgeArtifactModel
  | artifact model => if model.kind = kind then some model else none
  | _ => none

def parseManifest : Document → Option BridgeTerminalManifest
  | manifest m => some m
  | _ => none

def parseMarker : Document → Option BridgeCompletionMarker
  | marker m => some m
  | _ => none

def parsePointer : Document → Option BridgeCurrentPointer
  | pointer p => some p
  | _ => none

def format : Format Document where
  encode := artifact
  parse := parseArtifact
  encodeManifest := manifest
  parseManifest := parseManifest
  encodeMarker := marker
  parseMarker := parseMarker
  encodePointer := pointer
  parsePointer := parsePointer
  size _ := 1
  prefixes _ := []
  sha256 := digest
  inventorySha256 lines := String.join (lines.map (·.sha256))
  manifestSha256 payload := payload.transactionId
  identifierSha256 identifier := identifier
  parse_kind := by
    intro kind document model h
    cases document with
    | artifact found =>
      simp only [parseArtifact, Option.ite_none_right_eq_some, Option.some.injEq] at h
      exact h.2 ▸ h.1
    | _ => simp [parseArtifact] at h
  parse_encode := by
    intro kind model
    simp [parseArtifact]
  parseMarker_encode _ := rfl
  parsePointer_encode _ := rfl
  parseManifest_encode _ _ _ _ _ _ := rfl

end Document

end PokerDeliberation.Bridge
