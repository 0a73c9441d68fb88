import PokerDeliberation.Contexts.Schemas
import PokerDeliberation.Contexts.Secrets
import PokerDeliberation.Lib.Checked
import PokerDeliberation.Lib.Datetime
import PokerDeliberation.Lib.Json.Dicts
import PokerDeliberation.LocalData.Policy

/-!
# Context envelopes

`context_lifecycle.py`: the policy and the lineage of an attempt's context, the
envelope that binds both to the canonical payload by hashes, and the checks
that hand the context over. What lies outside the module is in `Outside`.
-/

namespace PokerDeliberation.Contexts

open Lib Lib.Json Lib.Records
open LocalData (ContextClassification)

/-- What a call may raise. A `ValidationError` is a `ValueError`, by the first check it names. -/
inductive Error where
  | lifecycle (message : String)
  | handoffRefused (message : String)
  | valueError (message : String)
  | unicodeEncodeError
  | recursionError
  deriving DecidableEq, Repr

/-- The libraries and the runtime. Of the serializer of datetimes the module expects that it agrees
with its own text for what is in UTC. -/
structure Outside (F : Type) where
  floats : Floats F
  lib : Library F
  isWord : Nat → Bool
  sha256 : List UInt8 → Text
  serializeDatetime : Moment → Text
  serializeDatetime_utc : ∀ {d : Moment}, d.IsUtc → serializeDatetime d = d.isoText
  recursionLimit : Nat

/-! ## Models -/

def CONTEXT_SCHEMA_VERSION : Text := text "1.0.0"

def CANONICALIZATION_VERSION : Text := text "poker-context-json-v1"

def HASH_ALGORITHM : Text := text "sha256"

def ATTEMPT_MEMORY_ONLY_RETENTION_POLICY : Text := text "attempt-memory-only-v1"

inductive RuntimeIdentity where
  | pythonLocal
  deriving DecidableEq, Repr

/-- `_IDENTIFIER`. -/
def isIdentifier : Text → Bool
  | [] => false
  | c :: t => (Patterns.isLetter c || c == 0x5f) && t.all fun c => isAlnumCode c || c == 0x5f

/-- `_CORRELATION_ID`. -/
def isCorrelationId : Text → Bool :=
  headed isAlnumCode (fun c => isAlnumCode c || c ∈ text "._:-") 127

structure ContextPolicy where
  schemaVersion : Text := CONTEXT_SCHEMA_VERSION
  classification : ContextClassification
  retentionPolicyId : Text := ATTEMPT_MEMORY_ONLY_RETENTION_POLICY
  expiresAt : Moment
  allowedFields : List Text
  deriving DecidableEq

structure ContextLineage where
  contextId : Text
  runId : Text
  assignmentId : Text
  assignmentSha256 : Text
  attemptId : Text
  parentContextId : Option Text
  sourceSha256 : Text
  producerRuntime : RuntimeIdentity := .pythonLocal
  consumerRuntime : RuntimeIdentity := .pythonLocal
  deriving DecidableEq

structure ContextEnvelope where
  schemaVersion : Text := CONTEXT_SCHEMA_VERSION
  canonicalizationVersion : Text := CANONICALIZATION_VERSION
  hashAlgorithm : Text := HASH_ALGORITHM
  createdAt : Moment
  policy : ContextPolicy
  lineage : ContextLineage
  canonicalPayload : Text
  payloadSha256 : Text
  policySha256 : Text
  integritySha256 : Text
  deriving DecidableEq

/-- The fields of an assignment that its hash covers, which are all of them. -/
structure AgentAssignment where
  assignmentId : Text
  agentRole : Text
  task : Text
  contextKeys : List Text
  readOnly : Bool
  deriving DecidableEq

/-- An instance of `AgentContext`. -/
structure AgentContext {F : Type} (out : Outside F) where
  value : Value F
  valid : (agentContext out.floats).HasType out.lib value

/-- `_require_utc`. -/
def requireUtc (value : Moment) (name : String) : Except Error Unit :=
  require value.IsUtc (.valueError (name ++ " must be timezone-aware UTC"))

def sortedTexts (names : List Text) : List Text := names.insertionSort (· ≤ ·)

/-- The validators of `ContextPolicy`. -/
def ContextPolicy.check (p : ContextPolicy) : Except Error Unit := do
  require (p.schemaVersion = CONTEXT_SCHEMA_VERSION) (.valueError "schema_version")
  require (p.retentionPolicyId = ATTEMPT_MEMORY_ONLY_RETENTION_POLICY)
    (.valueError "retention_policy_id")
  requireUtc p.expiresAt "expires_at"
  require (p.allowedFields ≠ []) (.valueError "allowed_fields must not be empty")
  require (∀ name ∈ p.allowedFields, isIdentifier name = true)
    (.valueError "allowed_fields must contain top-level identifiers only")
  require p.allowedFields.Nodup (.valueError "allowed_fields must be unique")
  require (p.allowedFields = sortedTexts p.allowedFields)
    (.valueError "allowed_fields must use canonical sorted order")

/-- The validators of `ContextLineage`. -/
def ContextLineage.check (l : ContextLineage) : Except Error Unit := do
  require (∀ value ∈ [l.contextId, l.runId, l.assignmentId, l.attemptId] ++ l.parentContextId.toList,
      isCorrelationId value = true)
    (.valueError "lineage correlation IDs must use the portable ID format")
  require (isSha256Text l.assignmentSha256 = true ∧ isSha256Text l.sourceSha256 = true)
    (.valueError "lineage hashes must be lowercase SHA-256")

/-- The validators of `ContextEnvelope`, those of its policy and lineage among them. -/
def ContextEnvelope.check (e : ContextEnvelope) : Except Error Unit := do
  require (e.schemaVersion = CONTEXT_SCHEMA_VERSION) (.valueError "schema_version")
  require (e.canonicalizationVersion = CANONICALIZATION_VERSION)
    (.valueError "canonicalization_version")
  require (e.hashAlgorithm = HASH_ALGORITHM) (.valueError "hash_algorithm")
  requireUtc e.createdAt "created_at"
  e.policy.check
  e.lineage.check
  require (isSha256Text e.payloadSha256 = true ∧ isSha256Text e.policySha256 = true ∧
      isSha256Text e.integritySha256 = true)
    (.valueError "envelope hashes must be lowercase SHA-256")
  require (e.createdAt.Before e.policy.expiresAt)
    (.valueError "expires_at must be later than created_at")

/-! ## Payloads -/

section

variable {F : Type} (out : Outside F)

def textList (names : List Text) : Value F := .arr (names.map .str)

def optionalStr : Option Text → Value F
  | some s => .str s
  | none => .null

/-- `model_dump` of a classification. -/
def classificationText : ContextClassification → Text
  | .pub => text "public"
  | .internal => text "internal"
  | .sensitive => text "sensitive"
  | .restricted => text "restricted"

def runtimeText : RuntimeIdentity → Text
  | .pythonLocal => text "python-local"

/-- `_model_payload` of a policy. -/
def ContextPolicy.payload (p : ContextPolicy) : Value F := .obj
  [(text "schema_version", .str p.schemaVersion),
    (text "classification", .str (classificationText p.classification)),
    (text "retention_policy_id", .str p.retentionPolicyId),
    (text "expires_at", .str (out.serializeDatetime p.expiresAt)),
    (text "allowed_fields", textList p.allowedFields)]

def ContextLineage.payload (l : ContextLineage) : Value F := .obj
  [(text "context_id", .str l.contextId),
    (text "run_id", .str l.runId),
    (text "assignment_id", .str l.assignmentId),
    (text "assignment_sha256", .str l.assignmentSha256),
    (text "attempt_id", .str l.attemptId),
    (text "parent_context_id", optionalStr l.parentContextId),
    (text "source_sha256", .str l.sourceSha256),
    (text "producer_runtime", .str (runtimeText l.producerRuntime)),
    (text "consumer_runtime", .str (runtimeText l.consumerRuntime))]

def ContextEnvelope.payload (e : ContextEnvelope) : List (Text × Value F) :=
  [(text "schema_version", .str e.schemaVersion),
    (text "canonicalization_version", .str e.canonicalizationVersion),
    (text "hash_algorithm", .str e.hashAlgorithm),
    (text "created_at", .str (out.serializeDatetime e.createdAt)),
    (text "policy", e.policy.payload out),
    (text "lineage", e.lineage.payload),
    (text "canonical_payload", .str e.canonicalPayload),
    (text "payload_sha256", .str e.payloadSha256),
    (text "policy_sha256", .str e.policySha256),
    (text "integrity_sha256", .str e.integritySha256)]

/-- `_canonical_json`. -/
def canonicalJson (v : Value F) : Except Error Text := do
  require (v.depth ≤ out.recursionLimit) .recursionError
  match dumps out.floats.toNumbers v with
  | some t => return t
  | none => throw (.lifecycle "context value is not canonical JSON")

/-- `_sha256_text`. -/
def sha256Text (t : Text) : Except Error Text :=
  match Utf8.encode t with
  | some data => .ok (out.sha256 data)
  | none => .error .unicodeEncodeError

def hashed (v : Value F) : Except Error Text := do
  let t ← canonicalJson out v
  sha256Text out t

/-- `context_payload`. -/
def contextPayload (context : AgentContext out) : Value F :=
  (agentContext out.floats).dump context.value

/-- `tuple(sorted(payload))`. -/
def fieldsOf : Value F → List Text
  | .obj items => sortedTexts (items.map (·.1))
  | _ => []

/-- `_assignment_payload`. -/
def assignmentPayload (a : AgentAssignment) : Value F := .obj
  [(text "assignment_id", .str a.assignmentId),
    (text "agent_role", .str a.agentRole),
    (text "task", .str a.task),
    (text "context_keys", textList a.contextKeys),
    (text "read_only", .bool a.readOnly)]

def assignmentSha256 (a : AgentAssignment) : Except Error Text := hashed out (assignmentPayload a)

def classifyContextPayload (payload : Value F) (requested : ContextClassification) :
    ContextClassification :=
  if containsRestrictedSecret out.isWord payload then .restricted else requested

/-- `_policy_sha256`. -/
def policySha256 (p : ContextPolicy) : Except Error Text := hashed out (p.payload out)

/-- `_integrity_payload`. -/
def integrityPayload (payload : List (Text × Value F)) : Value F :=
  .obj (payload.filter fun x => x.1 ≠ text "integrity_sha256")

/-- `_integrity_sha256`. -/
def integritySha256 (payload : List (Text × Value F)) : Except Error Text :=
  hashed out (integrityPayload payload)

/-! ## Building -/

/-- The keyword arguments of a build, with what its clock returns and the ids it draws. -/
structure BuildArguments where
  runId : Text
  expiresAt : Moment
  now : Moment
  contextId : Option Text
  attemptId : Option Text
  newContextId : Text
  newAttemptId : Text

/-- `value or fallback`. -/
def orElse (value : Option Text) (fallback : Text) : Text :=
  match value with
  | some (c :: t) => c :: t
  | _ => fallback

/-- `_build_context_envelope`. -/
def buildEnvelope (context : AgentContext out) (assignment : AgentAssignment) (a : BuildArguments)
    (classification : ContextClassification) (parentContextId sourceSha256 : Option Text) :
    Except Error ContextEnvelope := do
  requireUtc a.now "clock result"
  requireUtc a.expiresAt "expires_at"
  let payload := contextPayload out context
  let allowedFields := fieldsOf payload
  require (assignment.contextKeys = allowedFields)
    (.lifecycle "assignment context_keys do not match the payload allowlist")
  let canonicalPayload ← canonicalJson out payload
  let payloadSha256 ← sha256Text out canonicalPayload
  let policy : ContextPolicy :=
    { classification := classifyContextPayload out payload classification
      expiresAt := a.expiresAt
      allowedFields }
  policy.check
  let assignmentHash ← assignmentSha256 out assignment
  let lineage : ContextLineage :=
    { contextId := orElse a.contextId a.newContextId
      runId := a.runId
      assignmentId := assignment.assignmentId
      assignmentSha256 := assignmentHash
      attemptId := orElse a.attemptId a.newAttemptId
      parentContextId
      sourceSha256 := orElse sourceSha256 payloadSha256 }
  lineage.check
  let policyHash ← policySha256 out policy
  let unsignedJson : List (Text × Value F) :=
    [(text "schema_version", .str CONTEXT_SCHEMA_VERSION),
      (text "canonicalization_version", .str CANONICALIZATION_VERSION),
      (text "hash_algorithm", .str HASH_ALGORITHM),
      (text "created_at", .str a.now.isoText),
      (text "policy", policy.payload out),
      (text "lineage", lineage.payload),
      (text "canonical_payload", .str canonicalPayload),
      (text "payload_sha256", .str payloadSha256),
      (text "policy_sha256", .str policyHash)]
  let integrityHash ← integritySha256 out unsignedJson
  let envelope : ContextEnvelope :=
    { createdAt := a.now
      policy
      lineage
      canonicalPayload
      payloadSha256
      policySha256 := policyHash
      integritySha256 := integrityHash }
  envelope.check
  return envelope

/-- `build_context_envelope`. -/
def buildContextEnvelope (context : AgentContext out) (assignment : AgentAssignment)
    (a : BuildArguments) (classification : ContextClassification) : Except Error ContextEnvelope :=
  buildEnvelope out context assignment a classification none none

/-! ## Validating -/

/-- The keyword arguments of a validation. -/
structure Expected where
  runId : Text
  expectedContextId : Text
  attemptId : Text
  now : Moment
  expectedParentContextId : Option Text
  expectedSourceSha256 : Option Text

/-- `json.loads`, to a dictionary. -/
def loadPayload (t : Text) : Except Error (List (Text × Value F)) :=
  match loads out.floats.toNumbers (fun name => some (out.floats.constant name)) (fun _ => true)
      out.recursionLimit t with
  | .ok v =>
    match v.collapsed with
    | .obj items => .ok items
    | _ => .error (.lifecycle "context payload must be a JSON object")
  | .error .recursionError => .error .recursionError
  | .error .tooManyDigits => .error (.valueError "Exceeds the limit for integer string conversion")
  | .error _ => .error (.lifecycle "context payload is not valid JSON")

/-- The correlation of an envelope with what is expected of it. -/
def ContextEnvelope.correlate (e : ContextEnvelope) (assignment : AgentAssignment) (x : Expected) :
    Except Error Unit := do
  require (¬ x.now.Before e.createdAt) (.lifecycle "context envelope was created in the future")
  require (x.now.Before e.policy.expiresAt) (.lifecycle "context envelope has expired")
  require (e.lineage.runId = x.runId) (.lifecycle "context run correlation mismatch")
  require (e.lineage.contextId = x.expectedContextId)
    (.lifecycle "context ID correlation mismatch")
  require (e.lineage.assignmentId = assignment.assignmentId)
    (.lifecycle "context assignment correlation mismatch")
  let assignmentHash ← assignmentSha256 out assignment
  require (e.lineage.assignmentSha256 = assignmentHash)
    (.lifecycle "context assignment integrity mismatch")
  require (e.lineage.attemptId = x.attemptId) (.lifecycle "context attempt correlation mismatch")
  require (e.lineage.parentContextId = x.expectedParentContextId)
    (.lifecycle "context parent lineage mismatch")
  require (¬ (x.expectedParentContextId ≠ none ∧ x.expectedSourceSha256 = none))
    (.lifecycle "retry context requires expected source lineage")
  require (∀ source ∈ x.expectedSourceSha256, e.lineage.sourceSha256 = source)
    (.lifecycle "context source lineage mismatch")
  require (x.expectedParentContextId = none → e.lineage.sourceSha256 = e.payloadSha256)
    (.lifecycle "initial context source hash mismatch")
  require (e.lineage.producerRuntime = .pythonLocal)
    (.lifecycle "unsupported context producer runtime")
  require (e.lineage.consumerRuntime = .pythonLocal)
    (.lifecycle "unsupported context consumer runtime")

/-- The hashes of an envelope are those of its parts. -/
def ContextEnvelope.verify (e : ContextEnvelope) : Except Error Unit := do
  let policyHash ← Contexts.policySha256 out e.policy
  require (e.policySha256 = policyHash) (.lifecycle "context policy integrity mismatch")
  let payloadHash ← sha256Text out e.canonicalPayload
  require (e.payloadSha256 = payloadHash) (.lifecycle "context payload integrity mismatch")
  let integrityHash ← Contexts.integritySha256 out (e.payload out)
  require (e.integritySha256 = integrityHash) (.lifecycle "context envelope integrity mismatch")

/-- `validate_context_envelope`. -/
def validateContextEnvelope (e : ContextEnvelope) (assignment : AgentAssignment) (x : Expected) :
    Except Error (Value F) := do
  requireUtc x.now "now"
  e.check.mapError fun _ => .lifecycle "context envelope schema validation failed"
  e.correlate out assignment x
  e.verify out
  let rawPayload ← loadPayload out e.canonicalPayload
  let canonical ← canonicalJson out (.obj rawPayload)
  require (canonical = e.canonicalPayload) (.lifecycle "context payload is not in canonical form")
  require (fieldsOf (.obj rawPayload) = e.policy.allowedFields)
    (.lifecycle "context payload does not match the policy allowlist")
  require (assignment.contextKeys = e.policy.allowedFields)
    (.lifecycle "assignment context_keys do not match the policy allowlist")
  require (¬ (e.policy.classification = .restricted ∨
      containsRestrictedSecret out.isWord (.obj rawPayload) = true))
    (.handoffRefused "restricted context cannot cross the provider boundary")
  match (agentContext out.floats).validate out.lib (.obj rawPayload) with
  | some context => return context
  | none => throw (.lifecycle "context payload schema validation failed")

/-- The identifiers in the lineage of an envelope. -/
def ContextEnvelope.own (e : ContextEnvelope) (now : Moment) : Expected :=
  { runId := e.lineage.runId
    expectedContextId := e.lineage.contextId
    attemptId := e.lineage.attemptId
    now
    expectedParentContextId := e.lineage.parentContextId
    expectedSourceSha256 := some e.lineage.sourceSha256 }

/-! ## Retrying -/

/-- `build_retry_context_envelope`. -/
def buildRetryContextEnvelope (parent : ContextEnvelope) (context : AgentContext out)
    (assignment : AgentAssignment) (a : BuildArguments) : Except Error ContextEnvelope := do
  parent.check.mapError fun _ => .lifecycle "parent context envelope schema validation failed"
  require (parent.lineage.runId = a.runId) (.lifecycle "retry run must match parent lineage")
  require (parent.lineage.assignmentId = assignment.assignmentId)
    (.lifecycle "retry assignment must match parent lineage")
  let assignmentHash ← assignmentSha256 out assignment
  require (parent.lineage.assignmentSha256 = assignmentHash)
    (.lifecycle "retry assignment integrity must match parent lineage")
  requireUtc a.now "clock result"
  let _ ← validateContextEnvelope out parent assignment
    { parent.own a.now with runId := a.runId }
  let retry ← buildEnvelope out context assignment a parent.policy.classification
    (some parent.lineage.contextId) (some parent.lineage.sourceSha256)
  require (retry.lineage.contextId ≠ parent.lineage.contextId)
    (.lifecycle "retry context_id must be fresh")
  require (retry.lineage.attemptId ≠ parent.lineage.attemptId)
    (.lifecycle "retry attempt_id must be fresh")
  return retry

end

end PokerDeliberation.Contexts
