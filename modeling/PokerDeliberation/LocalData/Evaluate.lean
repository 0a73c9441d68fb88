import PokerDeliberation.Lib.Datetime
import PokerDeliberation.LocalData.Names

/-!
# Evaluating local data

A lifecycle subject with its validators, the disposition rules, the audit
record with its independent re-derivation, and `evaluate_local_data`, which
builds the record and returns it only if it passes.
-/

namespace PokerDeliberation.LocalData

open Lib

variable {Zone : Type}

/-! ## Subjects -/

structure SubjectFields (Zone : Type) where
  subjectKind : SubjectKind
  subjectId : String
  logicalName : String
  classification : ContextClassification := .internal
  classificationSource : ClassificationSource := .defaultInternal
  classificationEvidence : ClassificationEvidence := {}
  encryptionState : SubjectEncryptionState
  state : SubjectState
  retentionAnchorKind : RetentionAnchorKind := .notApplicable
  retentionStartedAt : Option (Datetime Zone) := none
  runId : Option String := none
  revision : Option Nat := none
  subjectSha256 : Option String := none
  sourceSha256 : Option String := none
  runVerificationBasis : RunVerificationBasis := .notApplicable
  ownershipProvenance : OwnershipProvenance
  integrityState : EvidenceVerificationState
  lineageState : EvidenceVerificationState
  legalHold : Bool

/-- The anchor a subject kind requires. -/
def requiredAnchor : SubjectKind → Option RetentionAnchorKind
  | .attemptContext => some .notApplicable
  | .applicationCache => some .applicationCreated
  | .applicationTemp => some .applicationCreated
  | .lifecycleAudit => some .decisionCommitted
  | .dispositionReceipt => some .decisionCommitted
  | .quarantinePayload => some .quarantineEntered
  | .runPayload | .runAudit | .runReport => none

namespace SubjectFields

/-- `reject_secret_metadata` and `validate_subject_opaque_identifiers`, of an identifier. -/
def identifierCheck (value : String) : Except String Unit := do
  require (portable value) "string should match pattern"
  require (¬ secretMetadata value) "subject metadata must not contain a secret shape"
  require (isOpaquePortableId value) "subject identifier must be an opaque portable identifier"

def optionalIdentifierCheck : Option String → Except String Unit
  | none => .ok ()
  | some value => identifierCheck value

def optionalSha256 (value : Option String) : Prop := ∀ v ∈ value, isSha256 v = true

instance (value : Option String) : Decidable (optionalSha256 value) :=
  inferInstanceAs (Decidable (∀ v ∈ value, _))

/-- The checks of a run artifact by its state. -/
def runStateCheck (s : SubjectFields Zone) : Except String Unit :=
  if s.state = .verifiedTerminal then do
    require (s.retentionAnchorKind = .verifiedTerminalPublished ∧ s.retentionStartedAt.isSome)
      "verified terminal run data requires its publish anchor"
    require (s.runVerificationBasis = .futureVerifiedRevisionV1 ∧ s.runId.isSome ∧
        s.revision.isSome ∧ s.subjectSha256.isSome ∧ s.sourceSha256.isSome)
      "verified terminal run data requires revision identity and hashes"
  else if s.state = .legacyUnverified then
    require (s.runVerificationBasis = .legacyV1Unverified ∧
        s.encryptionState = .unknownOrUnencrypted ∧ s.ownershipProvenance = .runContractV1)
      "legacy run data requires its unverified basis, ownership, and encryption label"
  else do
    require (s.runVerificationBasis = .notApplicable)
      "nonterminal run data cannot claim a verification basis"
    require (s.ownershipProvenance ≠ .futureVerifiedManifestV1)
      "nonterminal run data cannot claim verified manifest ownership"

def runCheck (s : SubjectFields Zone) : Except String Unit := do
  require (artifactKind s.logicalName = some s.subjectKind)
    "run subject logical name does not match its approved kind"
  s.runStateCheck
  require (s.state = .verifiedTerminal ∨
      s.retentionAnchorKind ∈
        [RetentionAnchorKind.notApplicable, RetentionAnchorKind.verifiedTerminalPublished])
    "run data uses an invalid retention anchor"

/-- The checks of the kinds by themselves. -/
def kindCheck (s : SubjectFields Zone) : Except String Unit :=
  if s.subjectKind.isRun then s.runCheck
  else
    require (s.runVerificationBasis = .notApplicable)
      "non-run subject cannot claim a run verification basis"

def startCheck (s : SubjectFields Zone) : Except String Unit :=
  if s.subjectKind = .attemptContext then
    require (s.retentionStartedAt.isNone) "attempt context has no durable retention start"
  else
    require ((requiredAnchor s.subjectKind).isSome → s.retentionStartedAt.isSome)
      "subject kind requires a retention start"

variable [Tzinfo Zone]

/-- The validators of the single fields. -/
def fieldCheck (s : SubjectFields Zone) : Except String Unit := do
  identifierCheck s.subjectId
  require (1 ≤ s.logicalName.toList.length ∧ s.logicalName.toList.length ≤ 256)
    "string should have between 1 and 256 characters"
  require (¬ secretMetadata s.logicalName) "subject metadata must not contain a secret shape"
  optionalIdentifierCheck s.runId
  require (optionalSha256 s.subjectSha256 ∧ optionalSha256 s.sourceSha256)
    "string should match pattern"
  require (∀ start ∈ s.retentionStartedAt, start.IsUtc)
    "retention_started_at must be timezone-aware UTC"

/-- `validate_anchor_contract`. -/
def anchorCheck (s : SubjectFields Zone) : Except String Unit := do
  let expected ← classificationOutcome s.classificationEvidence
  require (expected = (s.classification, s.classificationSource))
    "subject classification does not match its evidence"
  require (¬ (s.subjectKind ∈ [SubjectKind.lifecycleAudit, SubjectKind.dispositionReceipt] ∧
      s.classification ≠ .internal)) "lifecycle metadata subject kinds must be internal"
  require (s.subjectKind.isRun ∨ isOpaquePortableId s.logicalName)
    "non-run logical name must be an opaque portable identifier"
  require (s.state = .quarantined → s.subjectKind = .quarantinePayload)
    "quarantined state requires a quarantine payload"
  require (s.subjectKind = .quarantinePayload → s.state = .quarantined)
    "quarantine payload requires quarantined state"
  require (∀ required ∈ requiredAnchor s.subjectKind, s.retentionAnchorKind = required)
    "subject kind uses an invalid retention anchor"
  s.startCheck
  s.kindCheck
  require (s.subjectKind = .quarantinePayload → s.subjectSha256.isSome ∧ s.sourceSha256.isSome)
    "quarantine payload requires subject and source hashes"

def check (s : SubjectFields Zone) : Except String Unit := do
  s.fieldCheck
  s.anchorCheck

end SubjectFields

/-- A subject that passed its validators. -/
structure LifecycleSubject (Zone : Type) [Tzinfo Zone] extends SubjectFields Zone where
  valid : toSubjectFields.check = .ok ()

/-! ## Rules -/

/-- `_retention_days`. -/
def retentionDays (kind : SubjectKind) (profile : RetentionProfile) : Nat :=
  match kind with
  | .attemptContext => 0
  | .applicationCache => min profile.retentionDays LocalDataPolicy.cacheMaxDays
  | .applicationTemp => min profile.retentionDays LocalDataPolicy.tempMaxDays
  | .lifecycleAudit => LocalDataPolicy.lifecycleAuditDays
  | .dispositionReceipt => LocalDataPolicy.dispositionReceiptDays
  | .quarantinePayload => LocalDataPolicy.quarantineReviewDays
  | .runPayload | .runAudit | .runReport => profile.retentionDays

namespace SubjectFields

def verifiedOwnership (s : SubjectFields Zone) : Bool :=
  if s.subjectKind.isRun && s.state = .verifiedTerminal then
    s.ownershipProvenance = .futureVerifiedManifestV1
  else if s.subjectKind.isRun then
    s.ownershipProvenance ∈
      [OwnershipProvenance.runContractV1, OwnershipProvenance.futureVerifiedManifestV1]
  else s.ownershipProvenance = .typedApplicationMetadataV1

/-- `reasons.add(reason)`, if `p`. -/
def addIf {α : Type} (p : Prop) [Decidable p] (reason : α) : List α := if p then [reason] else []

/-- `_protection_reasons`, before they are sorted. -/
def protectionSet (s : SubjectFields Zone) : List ProtectionReason :=
  addIf (s.state = .active) ProtectionReason.activeRun ++
  addIf (s.state = .approvalPending) ProtectionReason.approvalPending ++
  addIf s.legalHold ProtectionReason.legalHold ++
  addIf (¬ s.verifiedOwnership) ProtectionReason.ownershipUnverified ++
  addIf (s.integrityState = .unverified) ProtectionReason.integrityUnverified ++
  addIf (s.lineageState = .unverified) ProtectionReason.lineageUnverified ++
  addIf (s.state = .unsupportedFutureVersion) ProtectionReason.unsupportedFutureVersion ++
  addIf (s.state = .legacyUnverified) ProtectionReason.legacyUnverified

def protectionReasons (s : SubjectFields Zone) : List ProtectionReason :=
  sortedProtection s.protectionSet

def stateQuarantineReasons (s : SubjectFields Zone) : List QuarantineReason :=
  addIf (s.state = .incomplete) QuarantineReason.incomplete ++
  addIf (s.state = .corrupt) QuarantineReason.corrupt ++
  addIf (s.state = .orphanTransaction) QuarantineReason.orphanTransaction ++
  addIf (s.integrityState = .mismatch) QuarantineReason.integrityMismatch ++
  addIf (s.lineageState = .mismatch) QuarantineReason.lineageMismatch ++
  addIf (s.encryptionState = .requirementMismatch) QuarantineReason.encryptionRequirementMismatch

def deleteEvidenceComplete (s : SubjectFields Zone) : Bool :=
  s.subjectSha256.isSome && s.sourceSha256.isSome && s.integrityState = .verified &&
    s.lineageState = .verified &&
    if s.subjectKind.isRun then
      s.state = .verifiedTerminal && s.ownershipProvenance = .futureVerifiedManifestV1 &&
        s.runVerificationBasis = .futureVerifiedRevisionV1 && s.runId.isSome && s.revision.isSome
    else
      s.ownershipProvenance = .typedApplicationMetadataV1 &&
        (s.state = .verifiedTerminal ||
          (s.subjectKind = .quarantinePayload && s.state = .quarantined))

def manualReview (s : SubjectFields Zone) (protection : List ProtectionReason) : Bool :=
  s.state ∈ [SubjectState.unsupportedFutureVersion, SubjectState.legacyUnverified] ||
    ProtectionReason.ownershipUnverified ∈ protection

/-- The failure code of a protected subject, by its first reason. -/
def protectionFailure (protection : List ProtectionReason) : LifecyclePolicyFailureCode :=
  if ProtectionReason.ownershipUnverified ∈ protection then .ownershipUnverified
  else if ProtectionReason.integrityUnverified ∈ protection then .integrityUnverified
  else if ProtectionReason.lineageUnverified ∈ protection then .lineageUnverified
  else .subjectProtected

variable [Tzinfo Zone] [DecidableEq Zone]

/-- The rule of the subjects that are neither denied, protected nor quarantined;
`none` where the two times cannot be compared. -/
def deriveExpired (s : SubjectFields Zone) (expires : Option (Datetime Zone)) (now : Datetime Zone) :
    Option LifecycleDisposition :=
  if s.state = .verifiedTerminal ∨
      (s.subjectKind = .quarantinePayload ∧ s.state = .quarantined) then
    match expires with
    | none => some .retain
    | some expires => (now.ge expires).map fun reached =>
      if reached && s.deleteEvidenceComplete then .deleteCandidate else .retain
  else some .retain

/-- `_derive_disposition`. -/
def deriveDisposition (s : SubjectFields Zone) (requirement : EncryptionRequirement)
    (capability : EncryptionCapabilityState) (protection : List ProtectionReason)
    (quarantine : List QuarantineReason) (expires : Option (Datetime Zone)) (now : Datetime Zone) :
    Option (LifecycleDisposition × Option LifecyclePolicyFailureCode × Bool) :=
  let manual := s.manualReview protection
  if s.subjectKind = .attemptContext then
    some (.denyPersistence, some .persistenceForbidden, manual)
  else if s.classification = .restricted then
    some (.denyPersistence, some .persistenceForbidden, manual)
  else if requirement = .requiredBeforePersistence ∧ s.encryptionState ≠ .requirementMismatch ∧
      (capability ≠ .available ∨ s.encryptionState ≠ .encryptedVerified) then
    some (.denyPersistence, some .encryptionRequired, manual)
  else if protection ≠ [] then some (.protect, some (protectionFailure protection), manual)
  else if s.encryptionState = .requirementMismatch then some (.quarantineCandidate, none, manual)
  else if quarantine ≠ [] then some (.quarantineCandidate, none, manual)
  else (s.deriveExpired expires now).map fun disposition => (disposition, none, manual)

end SubjectFields

/-! ## Audits -/

/-- The digests of the policy and of the identifiers, by domain and value. -/
structure Digests where
  policy : LocalDataPolicy → String
  identifier : String → String → String
  policy_valid : ∀ p, isSha256 (policy p) = true
  identifier_valid : ∀ domain value, isSha256 (identifier domain value) = true

structure AuditFields (Zone : Type) where
  policyId : String
  policyVersion : String
  policySha256 : String
  canonicalizationVersion : String
  hashAlgorithm : String
  subjectKind : SubjectKind
  subjectId : String
  logicalName : String
  runId : Option String
  revision : Option Nat
  subjectSha256 : Option String
  sourceSha256 : Option String
  classification : ContextClassification
  classificationSource : ClassificationSource
  classificationEvidence : ClassificationEvidence
  encryptionRequirement : EncryptionRequirement
  encryptionCapability : EncryptionCapabilityState
  subjectEncryptionState : SubjectEncryptionState
  runVerificationBasis : RunVerificationBasis
  ownershipProvenance : OwnershipProvenance
  integrityState : EvidenceVerificationState
  lineageState : EvidenceVerificationState
  retentionAnchorKind : RetentionAnchorKind
  retentionStartedAt : Option (Datetime Zone)
  retentionExpiresAt : Option (Datetime Zone)
  evaluatedAt : Datetime Zone
  subjectState : SubjectState
  proposedDisposition : LifecycleDisposition
  protectionReasons : List ProtectionReason
  quarantineReasons : List QuarantineReason
  manualReviewRequired : Bool
  failureCode : Option LifecyclePolicyFailureCode
  approvalReference : Option String
  actionDigest : Option String

namespace AuditFields

/-- The subject an audit describes: `_audit_subject`, and the one its validator rebuilds. -/
def subject (a : AuditFields Zone) : SubjectFields Zone where
  subjectKind := a.subjectKind
  subjectId := a.subjectId
  logicalName := a.logicalName
  classification := a.classification
  classificationSource := a.classificationSource
  classificationEvidence := a.classificationEvidence
  encryptionState := a.subjectEncryptionState
  state := a.subjectState
  retentionAnchorKind := a.retentionAnchorKind
  retentionStartedAt := a.retentionStartedAt
  runId := a.runId
  revision := a.revision
  subjectSha256 := a.subjectSha256
  sourceSha256 := a.sourceSha256
  runVerificationBasis := a.runVerificationBasis
  ownershipProvenance := a.ownershipProvenance
  integrityState := a.integrityState
  lineageState := a.lineageState
  legalHold := ProtectionReason.legalHold ∈ a.protectionReasons

variable [Tzinfo Zone]

/-- The validators of the single fields. -/
def fieldCheck (a : AuditFields Zone) : Except String Unit := do
  require (a.policyId = LocalDataPolicy.policyId ∧ a.policyVersion = LocalDataPolicy.policyVersion ∧
      a.canonicalizationVersion = LocalDataPolicy.canonicalizationVersion ∧
      a.hashAlgorithm = LocalDataPolicy.hashAlgorithm) "unexpected literal"
  require (isSha256 a.policySha256 ∧ isSha256 a.subjectId ∧ SubjectFields.optionalSha256 a.runId ∧
      SubjectFields.optionalSha256 a.subjectSha256 ∧ SubjectFields.optionalSha256 a.sourceSha256 ∧
      SubjectFields.optionalSha256 a.approvalReference ∧
      SubjectFields.optionalSha256 a.actionDigest) "string should match pattern"
  require (1 ≤ a.logicalName.toList.length ∧ a.logicalName.toList.length ≤ 256)
    "string should have between 1 and 256 characters"
  require ((∀ start ∈ a.retentionStartedAt, start.IsUtc) ∧
      (∀ expires ∈ a.retentionExpiresAt, expires.IsUtc) ∧ a.evaluatedAt.IsUtc)
    "audit timestamp must be timezone-aware UTC"
  require (¬ secretMetadata a.logicalName) "audit metadata must not contain a secret shape"
  require (a.protectionReasons = sortedProtection a.protectionReasons)
    "protection reasons must be sorted and unique"
  require (a.quarantineReasons = sortedQuarantine a.quarantineReasons)
    "quarantine reasons must be sorted and unique"

/-- An expiry is there and not after `now`. -/
def expired [DecidableEq Zone] (now : Datetime Zone) : Option (Datetime Zone) → Bool
  | none => false
  | some expires => now.lt expires = some false

/-- Equality of two times that may be absent. -/
def sameTime [DecidableEq Zone] : Option (Datetime Zone) → Option (Datetime Zone) → Bool
  | none, none => true
  | some a, some b => a.eq b
  | _, _ => false

/-- The states a delete candidate may have. -/
def deleteStateCheck (a : AuditFields Zone) : Except String Unit :=
  if a.subjectState = .verifiedTerminal then
    require (a.subjectKind.isRun → a.runVerificationBasis = .futureVerifiedRevisionV1 ∧
        a.runId.isSome ∧ a.revision.isSome) "verified run delete candidate lacks revision evidence"
  else
    require (a.subjectKind = .quarantinePayload ∧ a.subjectState = .quarantined)
      "delete candidate uses an ineligible subject state"

/-- The checks of a delete candidate. -/
def deleteCheck [DecidableEq Zone] (a : AuditFields Zone) : Except String Unit := do
  require (a.protectionReasons = [] ∧ a.quarantineReasons = [] ∧ a.failureCode = none ∧
      expired a.evaluatedAt a.retentionExpiresAt ∧ a.subjectSha256.isSome ∧ a.sourceSha256.isSome)
    "delete candidate lacks clean expiry and hash evidence"
  a.deleteStateCheck
  require (a.ownershipProvenance =
        (if a.subjectKind.isRun then .futureVerifiedManifestV1 else .typedApplicationMetadataV1) ∧
      a.integrityState = .verified ∧ a.lineageState = .verified)
    "delete candidate lacks verified provenance and evidence"

/-- The checks of a denied persistence. -/
def denyCheck (a : AuditFields Zone) : Except String Unit := do
  require (a.failureCode ∈ [some LifecyclePolicyFailureCode.encryptionRequired,
      some LifecyclePolicyFailureCode.persistenceForbidden])
    "persistence denial requires its typed failure code"
  require (¬ (a.failureCode = some .persistenceForbidden ∧ a.classification ≠ .restricted ∧
      a.subjectKind ≠ .attemptContext)) "persistence-forbidden audit lacks a forbidden subject"
  require (¬ (a.failureCode = some .encryptionRequired ∧ (a.classification ≠ .sensitive ∨
      a.encryptionRequirement ≠ .requiredBeforePersistence ∨
      (a.encryptionCapability = .available ∧ a.subjectEncryptionState = .encryptedVerified))))
    "encryption denial conflicts with encryption evidence"

/-- The checks of each disposition. -/
def dispositionCheck [DecidableEq Zone] (a : AuditFields Zone) : Except String Unit :=
  match a.proposedDisposition with
  | .deleteCandidate => a.deleteCheck
  | .protect => do
    require (a.protectionReasons ≠ [] ∧ a.failureCode.isSome)
      "protected audit requires protection reasons and a failure code"
    require (a.subjectState ∈ [SubjectState.legacyUnverified, SubjectState.unsupportedFutureVersion] ∨
        ProtectionReason.ownershipUnverified ∈ a.protectionReasons → a.manualReviewRequired)
      "protected audit omits required manual review"
  | .quarantineCandidate =>
    require (a.quarantineReasons ≠ [] ∧ a.protectionReasons = [] ∧ a.failureCode = none)
      "quarantine candidate requires only quarantine reasons"
  | .denyPersistence => a.denyCheck
  | .manualReview =>
    require (a.manualReviewRequired ∧ a.protectionReasons ≠ [] ∧ a.failureCode.isSome)
      "manual review requires protection evidence"
  | .retain =>
    require (a.protectionReasons = [] ∧ a.quarantineReasons = [] ∧ a.failureCode = none)
      "retain audit conflicts with lifecycle evidence"

/-- `start + timedelta(days=n)`; the outer `none` is an overflow. -/
def expiry (start : Option (Datetime Zone)) (days : Nat) : Option (Option (Datetime Zone)) :=
  match start with
  | none => some none
  | some start => (start.addDays days).map some

variable [DecidableEq Zone]

/-- The audit timestamps agree; field validation left only UTC times, which compare. -/
def timesCheck (a : AuditFields Zone) : Except String Unit := do
  require (a.retentionStartedAt.isSome = a.retentionExpiresAt.isSome)
    "retention timestamps must either both be present or both be absent"
  require (∀ start ∈ a.retentionStartedAt, ∀ expires ∈ a.retentionExpiresAt,
      expires.lt start = some false ∧ a.evaluatedAt.lt start = some false)
    "audit retention timestamps are inconsistent"

/-- The logical name is bounded and of the kind. -/
def nameCheck (a : AuditFields Zone) : Except String Unit := do
  require (a.subjectKind.isRun → artifactKind a.logicalName = some a.subjectKind ∧
      auditRunLogicalNameIsBounded a.logicalName)
    "audit run logical name is not a bounded approved artifact"
  require (¬ a.subjectKind.isRun → isSha256 a.logicalName)
    "audit non-run logical name must be a domain-separated digest"

/-- The expiry is the one of the policy. -/
def expiryCheck (a : AuditFields Zone) (profile : RetentionProfile) : Except String Unit :=
  match expiry a.retentionStartedAt (retentionDays a.subjectKind profile) with
  | none => .error "audit retention expiry cannot be represented"
  | some expected =>
    require (sameTime a.retentionExpiresAt expected)
      "audit retention expiry does not match the approved policy"

/-- The disposition is derived again from the audit subject. -/
def derivationCheck (a : AuditFields Zone) : Except String Unit := do
  require (a.protectionReasons = a.subject.protectionReasons)
    "audit protection reasons do not match subject evidence"
  require (∀ reason ∈ a.subject.stateQuarantineReasons, reason ∈ a.quarantineReasons)
    "audit quarantine reasons omit subject evidence"
  let profile ← defaultLocalDataPolicy.profileFor a.classification
  require (a.encryptionRequirement = profile.encryption)
    "audit encryption requirement does not match the policy"
  a.expiryCheck profile
  require (a.subject.deriveDisposition a.encryptionRequirement a.encryptionCapability
      a.protectionReasons a.quarantineReasons a.retentionExpiresAt a.evaluatedAt =
    some (a.proposedDisposition, a.failureCode, a.manualReviewRequired))
    "audit disposition does not match lifecycle evidence"

/-- The last two checks, of the review flag and of sensitive data. -/
def sensitiveCheck (a : AuditFields Zone) : Except String Unit := do
  require (a.manualReviewRequired → a.proposedDisposition ∈
      [LifecycleDisposition.denyPersistence, LifecycleDisposition.protect,
        LifecycleDisposition.manualReview])
    "manual review flag requires a protected disposition"
  require (¬ (a.classification = .sensitive ∧
      a.proposedDisposition ∉ [LifecycleDisposition.denyPersistence, LifecycleDisposition.protect,
        LifecycleDisposition.quarantineCandidate] ∧
      (a.encryptionCapability ≠ .available ∨ a.subjectEncryptionState ≠ .encryptedVerified)))
    "sensitive audit lacks verified encryption evidence"

/-- The validators of `LifecycleAuditMetadata`. -/
def check (digests : Digests) (a : AuditFields Zone) : Except String Unit := do
  a.fieldCheck
  require (a.policySha256 = digests.policy defaultLocalDataPolicy)
    "audit policy hash does not match the approved policy"
  a.timesCheck
  a.nameCheck
  let expected ← classificationOutcome a.classificationEvidence
  require (expected = (a.classification, a.classificationSource))
    "audit classification does not match its evidence"
  a.subject.check
  a.derivationCheck
  a.dispositionCheck
  a.sensitiveCheck

end AuditFields

structure LifecycleAuditMetadata (digests : Digests) (Zone : Type) [Tzinfo Zone] [DecidableEq Zone]
    extends AuditFields Zone where
  valid : toAuditFields.check digests = .ok ()

/-! ## Evaluation -/

structure LifecycleFailure where
  code : LifecyclePolicyFailureCode
  message : String := code.message
  manualReviewRequired : Bool := false
  policySha256 : Option String
  subjectId : Option String
  deriving DecidableEq, Repr

section

variable [Tzinfo Zone] [DecidableEq Zone] (digests : Digests)

inductive LifecycleEvaluationResult (Zone : Type) [Tzinfo Zone] [DecidableEq Zone] where
  | evaluated (audit : LifecycleAuditMetadata digests Zone)
  | failed (failure : LifecycleFailure)

/-- `_APPROVAL_REFERENCE`, which has the colon and the slash besides, and free of secrets. -/
def wellFormedApproval (reference : String) : Bool :=
  fullClass Char.isAlphanum (fun c => isPortableChar c || c == ':' || c == '/') 191 reference &&
    !secretMetadata reference

/-- `_failure`, for a known policy and subject. -/
def failedResult (policy : LocalDataPolicy) (subject : SubjectFields Zone)
    (code : LifecyclePolicyFailureCode) (manualReviewRequired : Bool := false) :
    LifecycleEvaluationResult digests Zone :=
  .failed
    { code, manualReviewRequired, policySha256 := some (digests.policy policy)
      subjectId := some (digests.identifier "subject-id" subject.subjectId) }

/-- The audit `evaluate_local_data` records. -/
def auditOf (policy : LocalDataPolicy) (subject : SubjectFields Zone) (profile : RetentionProfile)
    (capability : EncryptionCapabilityState) (quarantine : List QuarantineReason)
    (expires : Option (Datetime Zone)) (now : Datetime Zone)
    (approvalReference actionDigest : Option String)
    (derived : LifecycleDisposition × Option LifecyclePolicyFailureCode × Bool) :
    AuditFields Zone where
  policyId := LocalDataPolicy.policyId
  policyVersion := LocalDataPolicy.policyVersion
  policySha256 := digests.policy policy
  canonicalizationVersion := LocalDataPolicy.canonicalizationVersion
  hashAlgorithm := LocalDataPolicy.hashAlgorithm
  subjectKind := subject.subjectKind
  subjectId := digests.identifier "subject-id" subject.subjectId
  logicalName :=
    if subject.subjectKind.isRun then auditRunLogicalName digests.identifier subject.logicalName
    else digests.identifier "logical-name" subject.logicalName
  runId := subject.runId.map (digests.identifier "run-id")
  revision := subject.revision
  subjectSha256 := subject.subjectSha256
  sourceSha256 := subject.sourceSha256
  classification := subject.classification
  classificationSource := subject.classificationSource
  classificationEvidence := subject.classificationEvidence
  encryptionRequirement := profile.encryption
  encryptionCapability := capability
  subjectEncryptionState := subject.encryptionState
  runVerificationBasis := subject.runVerificationBasis
  ownershipProvenance := subject.ownershipProvenance
  integrityState := subject.integrityState
  lineageState := subject.lineageState
  retentionAnchorKind := subject.retentionAnchorKind
  retentionStartedAt := subject.retentionStartedAt
  retentionExpiresAt := expires
  evaluatedAt := now
  subjectState := subject.state
  proposedDisposition := derived.1
  protectionReasons := subject.protectionReasons
  quarantineReasons := quarantine
  manualReviewRequired := derived.2.2
  failureCode := derived.2.1
  approvalReference := approvalReference.map (digests.identifier "approval-reference")
  actionDigest

/-- What a comparison of a naive with an aware datetime raises. -/
def incomparable : String := "cannot compare offset-naive and offset-aware datetimes"

/-- Whether the clock reads before the retention start. -/
def rolledBack (subject : SubjectFields Zone) (now : Datetime Zone) : Option Bool :=
  match subject.retentionStartedAt with
  | none => some false
  | some start => now.lt start

/-- The quarantine reasons an audit records: those of the state and the given ones. -/
def canonicalQuarantine (subject : SubjectFields Zone) (quarantineReasons : List QuarantineReason) :
    List QuarantineReason :=
  sortedQuarantine (subject.stateQuarantineReasons ++ quarantineReasons)

/-- `evaluate_local_data` from its clock reading on. -/
def evaluateAt (subject : SubjectFields Zone) (now : Datetime Zone) (policy : LocalDataPolicy)
    (capability : EncryptionCapabilityState) (quarantineReasons : List QuarantineReason)
    (approvalReference actionDigest : Option String) :
    Except String (LifecycleEvaluationResult digests Zone) :=
  match rolledBack subject now with
  | none => .error incomparable
  | some true => .ok (failedResult digests policy subject .clockRollback true)
  | some false => do
    let profile ← policy.profileFor subject.classification
    match AuditFields.expiry subject.retentionStartedAt
        (retentionDays subject.subjectKind profile) with
    | none => .ok (failedResult digests policy subject .invalidRetentionTime)
    | some expires =>
      let quarantine := canonicalQuarantine subject quarantineReasons
      match subject.deriveDisposition profile.encryption capability subject.protectionReasons
          quarantine expires now with
      | none => .error incomparable
      | some derived =>
        let audit := auditOf digests policy subject profile capability quarantine expires now
          approvalReference actionDigest derived
        if h : audit.check digests = .ok () then .ok (.evaluated { audit with valid := h })
        else .ok (failedResult digests policy subject .invalidPolicy)

/-- `evaluate_local_data`, of a valid subject and policy; `clock` is `none` where it raises. -/
def evaluateLocalData (subject : LifecycleSubject Zone) (clock : Option (Datetime Zone))
    (policy : LocalDataPolicy) (expectedPolicySha256 : Option String)
    (capability : EncryptionCapabilityState) (quarantineReasons : List QuarantineReason)
    (approvalReference actionDigest : Option String) :
    Except String (LifecycleEvaluationResult digests Zone) :=
  if ∃ expected ∈ expectedPolicySha256, expected ≠ digests.policy policy then
    .ok (failedResult digests policy subject.toSubjectFields .policyHashMismatch)
  else if ∃ reference ∈ approvalReference, ¬ wellFormedApproval reference then
    .ok (failedResult digests policy subject.toSubjectFields .invalidPolicy)
  else match clock with
    | none => .ok (failedResult digests policy subject.toSubjectFields .invalidUtc)
    | some now =>
      if now.IsUtc then
        evaluateAt digests subject.toSubjectFields now policy capability quarantineReasons
          approvalReference actionDigest
      else .ok (failedResult digests policy subject.toSubjectFields .invalidUtc)

/-- `_audit_subject`. -/
def auditSubject {digests : Digests} (audit : LifecycleAuditMetadata digests Zone) :
    Except String (LifecycleSubject Zone) :=
  if h : audit.subject.check = .ok () then .ok { audit.subject with valid := h }
  else .error "audit subject metadata is inconsistent"

end

end PokerDeliberation.LocalData
