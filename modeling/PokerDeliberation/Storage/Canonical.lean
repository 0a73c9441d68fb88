import PokerDeliberation.Lib.Json.Quoted
import PokerDeliberation.LocalData.Names
import PokerDeliberation.Storage.Names

/-!
# Canonical bytes of the run storage

`canonical_json_bytes` and the parsers of canonical JSON, JSONL and text, and
what `validate_artifact` admits of an artifact. The schema of an artifact and
its bindings are checked by parameters; they only refuse more.
-/

namespace PokerDeliberation.Storage

open Lib Lib.Json Lib.Utf8

/-- What a parser raises: a `CanonicalStorageError`, or an exception of another class. -/
inductive Raised where
  | canonicalStorage | valueError | recursionError | typeError
  deriving DecidableEq, Repr

/-- The language's numbers and texts, and how deep containers may be nested where they are
scanned and where they are walked. -/
structure Library (F : Type) where
  numbers : Numbers F
  unicode : Unicode
  scanDepth : Nat
  walkDepth : Nat
  walkDepth_pos : 0 < walkDepth

section

variable {F : Type} (lib : Library F)

/-- `_require_nfc_string`. -/
def requireNfcString (value : Text) : Except Raised Unit :=
  require (lib.unicode.nfc value = value) .canonicalStorage

mutual

/-- `_jsonable`, of a parsed value, which it returns as it is. -/
def jsonable : Value F → Except Raised Unit
  | .obj items => jsonableItems [] items
  | .arr xs => jsonableAll xs
  | .str s => requireNfcString lib s
  | .null | .bool _ | .int _ | .float _ => .ok ()

def jsonableAll : List (Value F) → Except Raised Unit
  | [] => .ok ()
  | x :: xs => do
    jsonable x
    jsonableAll xs

def jsonableItems (aliases : List Text) : List (Text × Value F) → Except Raised Unit
  | [] => .ok ()
  | (key, item) :: items => do
    requireNfcString lib key
    require (lib.unicode.nfc key ∉ aliases) .canonicalStorage
    jsonable item
    jsonableItems (lib.unicode.nfc key :: aliases) items

end

def canonicalJsonBytes (value : Value F) : Except Raised (List UInt8) := do
  require (value.depth ≤ lib.walkDepth) .canonicalStorage
  jsonable lib value
  match (dumps lib.numbers value).bind encode with
  | some data => return data
  | none => .error .canonicalStorage

/-- `_pairs_no_duplicates`: whether it takes the items. -/
def pairsNoDuplicates (items : List (Text × Value F)) : Bool :=
  (∀ x ∈ items, lib.unicode.nfc x.1 = x.1) ∧ (items.map (·.1)).Nodup

def BOM_BYTES : List UInt8 := [0xef, 0xbb, 0xbf]
def LF_BYTE : UInt8 := 0x0a
def CR_BYTE : UInt8 := 0x0d

/-- `data.decode("utf-8", errors="strict")`, and the check for NFC. -/
def decodeNfc (data : List UInt8) : Except Raised Text :=
  match decode data with
  | none => .error .canonicalStorage
  | some t => do
    requireNfcString lib t
    return t

/-- What `json.loads` raises, as it is translated. -/
def translated : LoadsError → Raised
  | .tooManyDigits => .valueError
  | .syntaxError | .refused | .recursionError => .canonicalStorage

def parseCanonicalJson (data : List UInt8) : Except Raised (Value F) := do
  require (¬ BOM_BYTES <+: data) .canonicalStorage
  require (data.getLast? ≠ some LF_BYTE ∧ data.getLast? ≠ some CR_BYTE) .canonicalStorage
  let t ← decodeNfc lib data
  let value ← (loads lib.numbers (fun _ => none) (pairsNoDuplicates lib) lib.scanDepth t).mapError
    translated
  let again ← canonicalJsonBytes lib value
  require (again = data) .canonicalStorage
  return value

/-- `parse_canonical_model` and `parse_canonical_model_list`, as the value that is validated. -/
def parseCanonicalModel (schema : Value F → Bool) (data : List UInt8) : Except Raised (Value F) := do
  let value ← parseCanonicalJson lib data
  require (schema value) .canonicalStorage
  return value

/-- `data.split(b"\n")[:-1]` -/
def jsonlLines (data : List UInt8) : List (List UInt8) := (data.splitOn LF_BYTE).dropLast

def parseCanonicalJsonl (schema : Value F → Bool) (data : List UInt8) :
    Except Raised (List (Value F)) :=
  if data = [] then .ok []
  else do
    require (¬ BOM_BYTES <+: data ∧ CR_BYTE ∉ data ∧ data.getLast? = some LF_BYTE) .canonicalStorage
    require ([] ∉ jsonlLines data) .canonicalStorage
    (jsonlLines data).mapM (parseCanonicalModel lib schema)

def validateCanonicalText (data : List UInt8) : Except Raised Text := do
  require (¬ BOM_BYTES <+: data ∧ CR_BYTE ∉ data) .canonicalStorage
  decodeNfc lib data

end

/-! ## Round trip -/

section

variable {F : Type} {lib : Library F} {v : Value F} {data : List UInt8} {t : Text}

theorem decodeNfc_eq_ok : decodeNfc lib data = .ok t ↔ decode data = some t ∧ lib.unicode.nfc t = t := by
  unfold decodeNfc
  split
  · rename_i hnone
    simp [hnone]
  · rename_i u hu
    simp only [requireNfcString, require_bind_eq_ok, pure_eq_ok, hu, Option.some.injEq]
    constructor
    · rintro ⟨hnfc, rfl⟩
      exact ⟨rfl, hnfc⟩
    · rintro ⟨rfl, hnfc⟩
      exact ⟨hnfc, rfl⟩

/-- The text of canonical bytes. -/
theorem canonicalJsonBytes_eq_ok : canonicalJsonBytes lib v = .ok data ↔
    v.depth ≤ lib.walkDepth ∧ jsonable lib v = .ok () ∧
      ∃ t, dumps lib.numbers v = some t ∧ encode t = some data := by
  simp only [canonicalJsonBytes, check_bind_eq_ok, require_eq_ok]
  refine and_congr_right fun _ => and_congr_right fun _ => ?_
  rw [← Option.bind_eq_some_iff]
  split
  · rename_i bytes hbytes
    rw [hbytes, pure_eq_ok, Option.some.injEq]
  · rename_i hnone
    rw [hnone]
    constructor
    · intro h
      cases h
    · intro h
      cases h

theorem jsonableAll_eq_ok {xs : List (Value F)} (h : jsonableAll lib xs = .ok ()) :
    ∀ x ∈ xs, jsonable lib x = .ok () := by
  induction xs with
  | nil => exact fun x hx => nomatch hx
  | cons x xs ih =>
    simp only [jsonableAll, check_bind_eq_ok] at h
    exact List.forall_mem_cons.2 ⟨h.1, ih h.2⟩

/-- The keys are in NFC, distinct and new. -/
theorem jsonableItems_eq_ok {items : List (Text × Value F)} {aliases : List Text}
    (h : jsonableItems lib aliases items = .ok ()) :
    (∀ x ∈ items, lib.unicode.nfc x.1 = x.1 ∧ x.1 ∉ aliases ∧ jsonable lib x.2 = .ok ()) ∧
      (items.map (·.1)).Nodup := by
  induction items generalizing aliases with
  | nil => exact ⟨fun x hx => (List.not_mem_nil hx).elim, List.nodup_nil⟩
  | cons x items ih =>
    obtain ⟨key, x⟩ := x
    simp only [jsonableItems, requireNfcString, check_bind_eq_ok, require_eq_ok] at h
    obtain ⟨hnfc, hnew, hx, hitems⟩ := h
    rw [hnfc] at hnew hitems
    obtain ⟨hall, hnodup⟩ := ih hitems
    refine ⟨List.forall_mem_cons.2 ⟨⟨hnfc, hnew, hx⟩, fun y hy => ?_⟩, List.nodup_cons.2 ⟨?_, hnodup⟩⟩
    · obtain ⟨hown, hother, hvalue⟩ := hall y hy
      exact ⟨hown, fun hmem => hother (List.mem_cons_of_mem _ hmem), hvalue⟩
    · intro hmem
      obtain ⟨y, hy, heq⟩ := List.mem_map.1 hmem
      exact (hall y hy).2.1 (heq ▸ List.mem_cons_self)

/-- The dictionaries that are written are the ones that are taken. -/
theorem jsonable_objects (h : jsonable lib v = .ok ()) :
    ∀ items ∈ v.objects, pairsNoDuplicates lib items = true := by
  induction v using Value.induction_depth with
  | step v ih =>
    cases v with
    | null | bool | int | float | str => exact fun items hitems => nomatch hitems
    | arr xs =>
      intro items hitems
      obtain ⟨x, hx, hmem⟩ := Value.mem_objectsAll.1 hitems
      exact ih x (Value.depth_lt_arr hx) (jsonableAll_eq_ok h x hx) items hmem
    | obj own =>
      obtain ⟨hall, hnodup⟩ := jsonableItems_eq_ok (show jsonableItems lib [] own = .ok () from h)
      intro items hitems
      rcases List.mem_cons.1 hitems with rfl | hitems
      · exact decide_eq_true ⟨fun x hx => (hall x hx).1, hnodup⟩
      · obtain ⟨x, hx, hmem⟩ := Value.mem_objectsItems.1 hitems
        exact ih x.2 (Value.depth_lt_obj hx) (hall x hx).2.2 items hmem

theorem jsonable_raisesOnly (lib : Library F) (v : Value F) :
    RaisesOnly .canonicalStorage (jsonable lib v) := by
  induction v using Value.induction_depth with
  | step v ih =>
    have hitems : ∀ {items : List (Text × Value F)} {aliases : List Text},
        (∀ x ∈ items, x.2.depth < v.depth) →
          RaisesOnly .canonicalStorage (jsonableItems lib aliases items) := by
      intro items aliases hdepth
      induction items generalizing aliases with
      | nil => exact raisesOnly_ok
      | cons x items ihitems =>
        obtain ⟨hx, hrest⟩ := List.forall_mem_cons.1 hdepth
        simp only [jsonableItems, requireNfcString, raisesOnly_bind, raisesOnly_require]
        exact ⟨fun _ => trivial, fun _ _ => ⟨fun _ => trivial,
          fun _ _ => ⟨ih x.2 hx, fun _ _ => ihitems hrest⟩⟩⟩
    have hall : ∀ {xs : List (Value F)}, (∀ x ∈ xs, x.depth < v.depth) →
        RaisesOnly .canonicalStorage (jsonableAll lib xs) := by
      intro xs hdepth
      induction xs with
      | nil => exact raisesOnly_ok
      | cons x xs ihxs =>
        obtain ⟨hx, hrest⟩ := List.forall_mem_cons.1 hdepth
        simp only [jsonableAll, raisesOnly_bind]
        exact ⟨ih x hx, fun _ _ => ihxs hrest⟩
    cases v with
    | null | bool | int | float => exact raisesOnly_ok
    | str s => exact raisesOnly_require.2 fun _ => rfl
    | arr xs => exact hall fun x hx => Value.depth_lt_arr hx
    | obj items => exact hitems fun x hx => Value.depth_lt_obj hx

theorem canonicalJsonBytes_raisesOnly (lib : Library F) (v : Value F) :
    RaisesOnly .canonicalStorage (canonicalJsonBytes lib v) := by
  simp only [canonicalJsonBytes, raisesOnly_bind, raisesOnly_require]
  refine ⟨fun _ => trivial, fun _ _ => ⟨jsonable_raisesOnly _ _, fun _ _ => ?_⟩⟩
  split <;> simp

/-- A written value starts with an ASCII byte. -/
theorem not_opened_by_bom {w : Value F} (hrender : render lib.numbers w = some t)
    (hdata : encode t = some data) : ¬ BOM_BYTES <+: data := by
  obtain ⟨c, u, rfl, -⟩ := render_opens hrender
  have hwalk := walk_render hrender
  have hlow : c < 0x7f := by
    by_contra hhigh
    have hplain : isPlain c = false := by simp [isPlain, hhigh]
    have hquote : c ≠ QUOTE := by
      rintro rfl
      exact hhigh (by decide)
    simp [walk, Place.next, hquote, hplain] at hwalk
  obtain ⟨rest, rfl, -⟩ := encode_cons_ascii (by omega) hdata
  intro hprefix
  have hbyte : (0xef : UInt8) = UInt8.ofNat c := (List.cons_prefix_cons.1 hprefix).1
  have hnat := congrArg UInt8.toNat hbyte
  rw [UInt8.toNat_ofNat', Nat.mod_eq_of_lt (by omega)] at hnat
  simp at hnat
  omega

/-- No control character is written, so no byte of one. -/
theorem not_mem_control {w : Value F} (hrender : render lib.numbers w = some t)
    (hdata : encode t = some data) {b : UInt8} (hb : b.toNat < 0x20) : b ∉ data := by
  intro hmem
  have hplain : isPlain b.toNat = false := by simp [isPlain, hb]
  have hchar := mem_of_mem_encode hdata hmem (by omega)
  have hhigh := ((mem_render hrender hplain).1 hchar).1
  omega

/-- What is written for a value with sorted dictionaries is parsed as that value, if its text
is in NFC as a whole. -/
theorem parseCanonicalJson_canonicalJsonBytes (h : canonicalJsonBytes lib v = .ok data)
    (hsorted : v.sorted = v) (hdepth : v.depth ≤ lib.scanDepth)
    (hnfc : ∀ t, encode t = some data → lib.unicode.nfc t = t) :
    parseCanonicalJson lib data = .ok v := by
  obtain ⟨-, hjsonable, t, hdumps, hencode⟩ := canonicalJsonBytes_eq_ok.1 h
  have hrender : render lib.numbers v = some t := by rwa [dumps, hsorted] at hdumps
  have hloads : loads lib.numbers (fun _ => none) (pairsNoDuplicates lib) lib.scanDepth t = .ok v :=
    loads_render hrender hdepth (jsonable_objects hjsonable)
  have hlast : data.getLast? ≠ some LF_BYTE ∧ data.getLast? ≠ some CR_BYTE := by
    constructor
    · exact fun hend => not_mem_control hrender hencode (by decide) (List.mem_of_getLast? hend)
    · exact fun hend => not_mem_control hrender hencode (by decide) (List.mem_of_getLast? hend)
  have hdecode : decodeNfc lib data = .ok t :=
    decodeNfc_eq_ok.2 ⟨decode_eq_some_iff.2 hencode, hnfc t hencode⟩
  unfold parseCanonicalJson
  rw [require_of (not_opened_by_bom hrender hencode), bind_ok_left rfl, require_of hlast,
    bind_ok_left rfl, hdecode, bind_ok_left rfl, mapError_eq_ok.2 hloads, bind_ok_left rfl, h,
    bind_ok_left rfl, require_of rfl]
  rfl

end

theorem id_ascii (t : Text) (_ : ∀ c ∈ t, c < 128) : id t = t := rfl

/-- A library whose texts are all in NFC and whose letters are the ASCII ones. -/
def sampleLibrary : Library Unit where
  numbers := withoutFloats
  unicode :=
    { nfc := id
      upper := fun t => t.map fun c => if 0x61 ≤ c ∧ c ≤ 0x7a then c - 0x20 else c
      lower := fun t => t.map fun c => if 0x41 ≤ c ∧ c ≤ 0x5a then c + 0x20 else c
      isWord := fun c => Patterns.isLetter c || Patterns.isDecimal c || c == 0x5f
      nfc_ascii := id_ascii
      lower_ascii := fun _ _ => rfl }
  scanDepth := 900
  walkDepth := 900
  walkDepth_pos := by decide

/-! ## Artifacts -/

open LocalData (ContextClassification ClassificationSource ClassificationEvidence)

/-- `bindings` stands for the provenance bindings. -/
structure RevisionArtifactV1 where
  logicalName : String
  mediaType : MediaType
  artifactSchemaVersion : String
  serialization : Serialization
  exactBytes : List UInt8
  classification : ContextClassification
  classificationSource : ClassificationSource
  classificationEvidence : ClassificationEvidence
  originKind : String

/-- What a payload is parsed as. -/
inductive Payload (F : Type) where
  | json (value : Value F)
  | jsonl (records : List (Value F))
  | text (t : Text)

/-- What is checked of an artifact besides its bytes: the schema of its models with the
identifiers in it, and its provenance bindings. -/
structure Contracts (F : Type) where
  schema : String → Value F → Bool
  bound : RevisionArtifactV1 → Bool

section

variable {F : Type} (lib : Library F) (contracts : Contracts F) (artifact : RevisionArtifactV1)

/-- `_classify_and_verify`. -/
def classifyAndVerify : Except Raised Unit := do
  let evidence := artifact.classificationEvidence
  require (LocalData.artifactKind artifact.logicalName).isSome .canonicalStorage
  let outcome ← (LocalData.classificationOutcome evidence).mapError fun _ => Raised.canonicalStorage
  require (outcome = (artifact.classification, artifact.classificationSource)) .canonicalStorage
  require (artifact.classification ∈ [ContextClassification.pub, .internal]) .canonicalStorage
  require (artifact.classificationSource ∈
      ([.explicitTrusted, .sourceInheritance] : List ClassificationSource) ∨
    artifact.logicalName = "budget_state.json" ∧ artifact.classificationSource = .defaultInternal)
    .canonicalStorage
  require (evidence.restrictedSecretCheckCompleted ∧ ¬ evidence.containsRestrictedSecret)
    .canonicalStorage

/-- The names of the artifacts that hold one model or a list of models. -/
def modelArtifacts : List String :=
  ["bounded_river_call_ev_range.json", "bounded_river_call_ev_candidate.json",
    "bounded_river_call_ev_confirmation.json", "confirmed_review_candidate.json",
    "confirmed_review_confirmation.json", "bounded_nl_candidate.json",
    "bounded_nl_confirmation.json", "input.json", "normalized_case.json",
    "range_equity_binding.json", "bounded_river_call_ev_binding.json", "normalization.json",
    "assumptions.json", "approvals.json", "assignments.json", "agent_execution_records.json",
    "security_events.json", "disputes.json", "final_report.json",
    "confirmed_review_provenance.json", "bounded_nl_provenance.json",
    "bounded_river_call_ev_result.json", "bounded_river_call_ev_budget_failure.json",
    "bounded_river_call_ev_provenance.json", "budget_state.json", "isolated_job_state.json"]

def textArtifacts : List String :=
  ["bounded_river_call_ev_source.txt", "confirmed_review_source.txt", "bounded_nl_source.txt",
    "final_report.md", "stdout.txt", "stderr.txt"]

/-- `isinstance(value, dict)` -/
def isObject : Value F → Bool
  | .obj _ => true
  | _ => false

/-- `_validated_payload`. -/
def validatedPayload : Except Raised (Payload F) := do
  let name := artifact.logicalName
  let data := artifact.exactBytes
  let model := parseCanonicalModel lib (contracts.schema name) data
  if name ∈ textArtifacts then return .text (← validateCanonicalText lib data)
  else if name ∈ modelArtifacts then return .json (← model)
  else if name = "evidence.jsonl" then
    return .jsonl (← parseCanonicalJsonl lib (contracts.schema name) data)
  else if (agentReport.fullmatch (text name)).isSome then return .json (← model)
  else if (toolResult.fullmatch (text name)).isSome ∧ ¬ text ".input.json" <:+ text name then
    return .json (← model)
  else if (toolInput.fullmatch (text name)).isSome then
    let value ← parseCanonicalJson lib data
    require (isObject value) .canonicalStorage
    return .json value
  else .error .canonicalStorage

def validateArtifact (maxArtifactBytes : Nat) : Except Raised (Payload F) := do
  let name := text artifact.logicalName
  let expected ← (artifactTableEntry lib.unicode name (some artifact.artifactSchemaVersion)).mapError
    fun _ => Raised.canonicalStorage
  require (expected = ⟨artifact.mediaType, artifact.serialization, artifact.artifactSchemaVersion,
    artifact.originKind⟩) .canonicalStorage
  require (artifact.serialization ≠ .opaqueBytes) .canonicalStorage
  require (artifact.exactBytes.length ≤ maxArtifactBytes) .canonicalStorage
  classifyAndVerify artifact
  require (contracts.bound artifact) .canonicalStorage
  validatedPayload lib contracts artifact
/-- The checks of an admission, in their order. -/
theorem validateArtifact_eq_ok {maxArtifactBytes : Nat} {payload : Payload F} :
    validateArtifact lib contracts artifact maxArtifactBytes = .ok payload ↔
      artifactTableEntry lib.unicode (text artifact.logicalName)
          (some artifact.artifactSchemaVersion) = .ok ⟨artifact.mediaType, artifact.serialization,
            artifact.artifactSchemaVersion, artifact.originKind⟩ ∧
        artifact.serialization ≠ .opaqueBytes ∧ artifact.exactBytes.length ≤ maxArtifactBytes ∧
        classifyAndVerify artifact = .ok () ∧ contracts.bound artifact = true ∧
        validatedPayload lib contracts artifact = .ok payload := by
  simp only [validateArtifact, bind_eq_ok (x := Except.mapError _ _), mapError_eq_ok,
    check_bind_eq_ok, require_eq_ok]
  constructor
  · rintro ⟨row, hrow, rfl, hrest⟩
    exact ⟨hrow, hrest⟩
  · rintro ⟨hrow, hrest⟩
    exact ⟨_, hrow, rfl, hrest⟩

end

end PokerDeliberation.Storage
