import Mathlib.Data.List.Sort
import PokerDeliberation.Lib.Checked

/-!
# The local-data policy

The closed vocabularies of `local_data_policy.py`, the retention matrix, and
the classification of a subject by its evidence.
-/

namespace PokerDeliberation.LocalData

open Lib

inductive ContextClassification where
  | pub | internal | sensitive | restricted
  deriving DecidableEq, Repr

inductive SubjectKind where
  | attemptContext | runPayload | runAudit | runReport | applicationCache | applicationTemp
  | lifecycleAudit | quarantinePayload | dispositionReceipt
  deriving DecidableEq, Repr

/-- The artifact subject kinds. -/
def SubjectKind.isRun (kind : SubjectKind) : Bool :=
  kind ∈ [SubjectKind.runPayload, SubjectKind.runAudit, SubjectKind.runReport]

inductive RetentionAnchorKind where
  | notApplicable | verifiedTerminalPublished | applicationCreated | decisionCommitted
  | quarantineEntered
  deriving DecidableEq, Repr

inductive SubjectState where
  | active | approvalPending | verifiedTerminal | incomplete | corrupt | orphanTransaction
  | quarantined | unsupportedFutureVersion | legacyUnverified
  deriving DecidableEq, Repr

inductive LifecycleDisposition where
  | denyPersistence | retain | protect | manualReview | quarantineCandidate | deleteCandidate
  deriving DecidableEq, Repr

inductive EncryptionRequirement where
  | deferredNoClaim | requiredBeforePersistence | persistenceForbidden
  deriving DecidableEq, Repr

inductive EncryptionCapabilityState where
  | unavailable | available
  deriving DecidableEq, Repr

inductive SubjectEncryptionState where
  | unknownOrUnencrypted | encryptedVerified | requirementMismatch
  deriving DecidableEq, Repr

inductive RunVerificationBasis where
  | notApplicable | futureVerifiedRevisionV1 | legacyV1Unverified
  deriving DecidableEq, Repr

inductive OwnershipProvenance where
  | runContractV1 | typedApplicationMetadataV1 | futureVerifiedManifestV1 | unverified
  | excludedUserMaterial | excludedGoalManagement | excludedReviewTestOutput
  | excludedPytestSession | excludedTrackedSource
  deriving DecidableEq, Repr

inductive EvidenceVerificationState where
  | verified | unverified | mismatch
  deriving DecidableEq, Repr

inductive ClassificationSource where
  | defaultInternal | explicitTrusted | sourceInheritance | credentialDetection
  deriving DecidableEq, Repr

inductive ProtectionReason where
  | activeRun | approvalPending | legalHold | ownershipUnverified | integrityUnverified
  | lineageUnverified | unsupportedFutureVersion | legacyUnverified
  deriving DecidableEq, Repr

inductive QuarantineReason where
  | incomplete | corrupt | orphanTransaction | integrityMismatch | lineageMismatch
  | pathConfinementFailure | encryptionRequirementMismatch
  deriving DecidableEq, Repr

def ProtectionReason.value : ProtectionReason → String
  | activeRun => "active_run"
  | approvalPending => "approval_pending"
  | legalHold => "legal_hold"
  | ownershipUnverified => "ownership_unverified"
  | integrityUnverified => "integrity_unverified"
  | lineageUnverified => "lineage_unverified"
  | unsupportedFutureVersion => "unsupported_future_version"
  | legacyUnverified => "legacy_unverified"

def QuarantineReason.value : QuarantineReason → String
  | incomplete => "incomplete"
  | corrupt => "corrupt"
  | orphanTransaction => "orphan_transaction"
  | integrityMismatch => "integrity_mismatch"
  | lineageMismatch => "lineage_mismatch"
  | pathConfinementFailure => "path_confinement_failure"
  | encryptionRequirementMismatch => "encryption_requirement_mismatch"

/-- The codes `evaluate_local_data` fails with on a valid policy and subject. -/
inductive LifecyclePolicyFailureCode where
  | invalidPolicy | invalidUtc | invalidRetentionTime | clockRollback | policyHashMismatch
  | ownershipUnverified | integrityUnverified | lineageUnverified | subjectProtected
  | encryptionRequired | persistenceForbidden
  deriving DecidableEq, Repr

def LifecyclePolicyFailureCode.message : LifecyclePolicyFailureCode → String
  | invalidPolicy => "invalid local-data policy input"
  | invalidUtc => "invalid lifecycle UTC timestamp"
  | invalidRetentionTime => "invalid lifecycle retention time"
  | clockRollback => "lifecycle clock rollback"
  | policyHashMismatch => "local-data policy hash mismatch"
  | ownershipUnverified => "local-data ownership unverified"
  | integrityUnverified => "local-data integrity unverified"
  | lineageUnverified => "local-data lineage unverified"
  | subjectProtected => "local-data subject protected"
  | encryptionRequired => "local-data encryption required"
  | persistenceForbidden => "local-data persistence forbidden"

/-! ## Reasons in order -/

section Ordered

variable {α : Type} [DecidableEq α] {value : α → String} {members xs ys : List α}

/-- `tuple(sorted(set(xs), key=value))`, of an enumeration with these members. -/
def sortedSet (value : α → String) (members xs : List α) : List α :=
  (members.filter (· ∈ xs)).insertionSort fun a b => value a ≤ value b

@[simp] theorem mem_sortedSet {x : α} (hx : x ∈ members) : x ∈ sortedSet value members xs ↔ x ∈ xs := by
  simp [sortedSet, hx]

/-- Only the set matters. -/
theorem sortedSet_congr (h : ∀ x ∈ members, x ∈ xs ↔ x ∈ ys) :
    sortedSet value members xs = sortedSet value members ys := by
  have hfilter : members.filter (· ∈ xs) = members.filter (· ∈ ys) :=
    List.filter_congr fun x hx => by simp [h x hx]
  rw [sortedSet, sortedSet, hfilter]

theorem sortedSet_sortedSet :
    sortedSet value members (sortedSet value members xs) = sortedSet value members xs :=
  sortedSet_congr fun _ hx => mem_sortedSet hx

end Ordered

def protectionMembers : List ProtectionReason :=
  [.activeRun, .approvalPending, .legalHold, .ownershipUnverified, .integrityUnverified,
    .lineageUnverified, .unsupportedFutureVersion, .legacyUnverified]

def quarantineMembers : List QuarantineReason :=
  [.incomplete, .corrupt, .orphanTransaction, .integrityMismatch, .lineageMismatch,
    .pathConfinementFailure, .encryptionRequirementMismatch]

@[simp] theorem mem_protectionMembers (r : ProtectionReason) : r ∈ protectionMembers := by
  cases r <;> decide

@[simp] theorem mem_quarantineMembers (r : QuarantineReason) : r ∈ quarantineMembers := by
  cases r <;> decide

def sortedProtection : List ProtectionReason → List ProtectionReason :=
  sortedSet ProtectionReason.value protectionMembers

def sortedQuarantine : List QuarantineReason → List QuarantineReason :=
  sortedSet QuarantineReason.value quarantineMembers

@[simp] theorem mem_sortedProtection {r : ProtectionReason} {xs : List ProtectionReason} :
    r ∈ sortedProtection xs ↔ r ∈ xs := mem_sortedSet (mem_protectionMembers r)

@[simp] theorem mem_sortedQuarantine {r : QuarantineReason} {xs : List QuarantineReason} :
    r ∈ sortedQuarantine xs ↔ r ∈ xs := mem_sortedSet (mem_quarantineMembers r)

theorem sortedQuarantine_eq_nil {xs : List QuarantineReason} : sortedQuarantine xs = [] ↔ xs = [] := by
  rw [List.eq_nil_iff_forall_not_mem, List.eq_nil_iff_forall_not_mem]
  simp

theorem sortedProtection_eq_nil {xs : List ProtectionReason} : sortedProtection xs = [] ↔ xs = [] := by
  rw [List.eq_nil_iff_forall_not_mem, List.eq_nil_iff_forall_not_mem]
  simp

/-! ## The retention matrix -/

structure RetentionProfile where
  policyId : String
  classification : ContextClassification
  retentionDays : Nat
  encryption : EncryptionRequirement
  deriving DecidableEq, Repr

/-- The approved canonical matrix. -/
def approvedProfiles : List RetentionProfile :=
  [⟨"public-run-365d-v1", .pub, 365, .deferredNoClaim⟩,
    ⟨"internal-run-90d-v1", .internal, 90, .deferredNoClaim⟩,
    ⟨"sensitive-run-30d-v1", .sensitive, 30, .requiredBeforePersistence⟩,
    ⟨"restricted-no-persist-v1", .restricted, 0, .persistenceForbidden⟩]

structure LocalDataPolicy where
  profiles : List RetentionProfile
  exact : profiles = approvedProfiles

namespace LocalDataPolicy

def policyId : String := "p2-027a-local-data-policy-v1"
def policyVersion : String := "1.0.0"
def canonicalizationVersion : String := "poker-local-data-policy-json-v1"
def hashAlgorithm : String := "sha256"
def cacheMaxDays : Nat := 7
def tempMaxDays : Nat := 1
def lifecycleAuditDays : Nat := 365
def dispositionReceiptDays : Nat := 365
def quarantineReviewDays : Nat := 30

def profileFor (policy : LocalDataPolicy) (classification : ContextClassification) :
    Except String RetentionProfile :=
  match policy.profiles.find? (·.classification = classification) with
  | some profile => .ok profile
  | none => .error "classification has no approved retention profile"

/-- The row of the matrix for a classification. -/
def profile : ContextClassification → RetentionProfile
  | .pub => ⟨"public-run-365d-v1", .pub, 365, .deferredNoClaim⟩
  | .internal => ⟨"internal-run-90d-v1", .internal, 90, .deferredNoClaim⟩
  | .sensitive => ⟨"sensitive-run-30d-v1", .sensitive, 30, .requiredBeforePersistence⟩
  | .restricted => ⟨"restricted-no-persist-v1", .restricted, 0, .persistenceForbidden⟩

theorem profileFor_eq (policy : LocalDataPolicy) (classification : ContextClassification) :
    policy.profileFor classification = .ok (profile classification) := by
  rw [profileFor, policy.exact]
  cases classification <;> rfl

end LocalDataPolicy

def defaultLocalDataPolicy : LocalDataPolicy := ⟨approvedProfiles, rfl⟩

theorem LocalDataPolicy.eq_default (policy : LocalDataPolicy) : policy = defaultLocalDataPolicy := by
  cases policy with
  | mk profiles exact =>
    subst exact
    rfl

/-! ## Classification -/

def ContextClassification.rank : ContextClassification → Nat
  | pub => 0
  | internal => 1
  | sensitive => 2
  | restricted => 3

structure ClassificationEvidence where
  sourceClassifications : List ContextClassification := []
  explicitClassification : Option ContextClassification := none
  explicitSourceTrusted : Bool := false
  restrictedSecretCheckCompleted : Bool := false
  containsRestrictedSecret : Bool := false
  sources_unique : sourceClassifications.Nodup := by decide
  sources_sorted : sourceClassifications =
    sourceClassifications.insertionSort (fun a b => a.rank ≤ b.rank) := by decide
  deriving DecidableEq

/-- `max((first, *rest), key=rank)`: the first of the highest rank. -/
def highest (first : ContextClassification) (rest : List ContextClassification) :
    ContextClassification :=
  rest.foldl (fun most item => if most.rank < item.rank then item else most) first

def classificationOutcome (evidence : ClassificationEvidence) :
    Except String (ContextClassification × ClassificationSource) :=
  let sources := evidence.sourceClassifications
  let inherited := highest .internal sources
  if evidence.containsRestrictedSecret then .ok (.restricted, .credentialDetection)
  else match evidence.explicitClassification with
    | none =>
      .ok (inherited, if sources = [] then .defaultInternal else .sourceInheritance)
    | some requested => do
      require (evidence.explicitSourceTrusted) "explicit classification requires a trusted source"
      require (requested = .pub → evidence.restrictedSecretCheckCompleted)
        "public classification requires a completed clean restricted-secret check"
      let sourceFloor := match sources with
        | [] => ContextClassification.pub
        | first :: rest => highest first rest
      require (¬ requested.rank < sourceFloor.rank) "classification downgrade is denied"
      .ok (requested, .explicitTrusted)

theorem rank_le_highest (first : ContextClassification) (rest : List ContextClassification) :
    ∀ item ∈ first :: rest, item.rank ≤ (highest first rest).rank := by
  induction rest generalizing first with
  | nil =>
    intro item h
    rw [List.mem_singleton.1 h]
    exact le_rfl
  | cons next rest ih =>
    have hmost := ih (if first.rank < next.rank then next else first)
    have hhead := hmost _ List.mem_cons_self
    show ∀ item ∈ first :: next :: rest,
      item.rank ≤ (highest (if first.rank < next.rank then next else first) rest).rank
    have hboth : first.rank ≤ (if first.rank < next.rank then next else first).rank ∧
        next.rank ≤ (if first.rank < next.rank then next else first).rank := by
      split
      · rename_i hlt
        exact ⟨Nat.le_of_lt hlt, le_rfl⟩
      · rename_i hle
        exact ⟨le_rfl, Nat.le_of_not_lt hle⟩
    intro item h
    rcases List.mem_cons.1 h with rfl | h
    · exact hboth.1.trans hhead
    · rcases List.mem_cons.1 h with rfl | h
      · exact hboth.2.trans hhead
      · exact hmost item (List.mem_cons_of_mem _ h)

/-- No source is ranked above the outcome. -/
theorem classificationOutcome_floor {evidence : ClassificationEvidence}
    {classification : ContextClassification} {source : ClassificationSource}
    (h : classificationOutcome evidence = .ok (classification, source)) :
    ∀ item ∈ evidence.sourceClassifications, item.rank ≤ classification.rank := by
  intro item hitem
  simp only [classificationOutcome] at h
  split at h
  · cases h
    cases item <;> decide
  · split at h
    · cases h
      exact rank_le_highest _ _ item (List.mem_cons_of_mem _ hitem)
    · simp only [bind_eq_ok, require_eq_ok] at h
      obtain ⟨-, -, -, -, -, hfloor, hok⟩ := h
      cases hok
      refine Nat.le_trans ?_ (Nat.le_of_not_lt hfloor)
      split
      · rename_i hnone
        rw [hnone] at hitem
        cases hitem
      · rename_i first rest hsources
        rw [hsources] at hitem
        exact rank_le_highest first rest item hitem

end PokerDeliberation.LocalData
