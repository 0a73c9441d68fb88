import PokerDeliberation.LocalData.Evaluate

/-!
# Audits agree with evaluations

The audit replaces the identifiers of a subject by digests and keeps the rest
(`relabel`), the rules read nothing of what it replaces, and each rule's result
passes the checks of its disposition. So an evaluation yields an audit exactly
when the expiry, reckoned in the zone of the retention start, still has offset
zero (`evaluates_faithfully_iff`).
-/

namespace PokerDeliberation.LocalData

open Lib

variable {Zone : Type} {digests : Digests} {s : SubjectFields Zone}

/-! ## Digests for identifiers -/

namespace SubjectFields

/-- The subject with the names its audit gives it. -/
def relabel (digests : Digests) (s : SubjectFields Zone) : SubjectFields Zone :=
  { s with
    subjectId := digests.identifier "subject-id" s.subjectId
    logicalName :=
      if s.subjectKind.isRun then auditRunLogicalName digests.identifier s.logicalName
      else digests.identifier "logical-name" s.logicalName
    runId := s.runId.map (digests.identifier "run-id") }

@[simp] theorem relabel_protectionReasons :
    (s.relabel digests).protectionReasons = s.protectionReasons := rfl

@[simp] theorem relabel_stateQuarantineReasons :
    (s.relabel digests).stateQuarantineReasons = s.stateQuarantineReasons := rfl

@[simp] theorem relabel_deleteEvidenceComplete :
    (s.relabel digests).deleteEvidenceComplete = s.deleteEvidenceComplete := by
  have hrun : (s.relabel digests).runId.isSome = s.runId.isSome := Option.isSome_map
  unfold deleteEvidenceComplete
  rw [hrun]
  rfl

theorem legalHold_mem : ProtectionReason.legalHold ∈ s.protectionReasons ↔ s.legalHold = true := by
  simp [protectionReasons, protectionSet, addIf]

theorem ownership_mem :
    ProtectionReason.ownershipUnverified ∈ s.protectionReasons ↔ s.verifiedOwnership = false := by
  simp [protectionReasons, protectionSet, addIf]

theorem identifierCheck_digest {digest : String} (h : isSha256 digest = true) :
    identifierCheck digest = .ok () := by
  simp [identifierCheck, portable_of_isSha256 h, isOpaquePortableId_of_isSha256 h,
    secretMetadata_of_bland (bland_of_isSha256 h)]

/-- A subject without protection reasons needs no review. -/
theorem manualReview_of_unprotected (h : s.protectionReasons = []) :
    s.manualReview s.protectionReasons = false := by
  have hset : s.protectionSet = [] := sortedProtection_eq_nil.1 h
  rw [h]
  simp only [protectionSet, addIf, List.append_eq_nil_iff, ite_eq_right_iff, reduceCtorEq, imp_false] at hset
  obtain ⟨⟨-, hunsupported⟩, hlegacy⟩ := hset
  simp [manualReview, hunsupported, hlegacy]

theorem verifiedOwnership_of_unprotected (h : s.protectionReasons = []) :
    s.verifiedOwnership = true := by
  cases hv : s.verifiedOwnership with
  | true => rfl
  | false =>
    have := ownership_mem.2 hv
    rw [h] at this
    cases this

/-- The pieces of complete delete evidence. -/
theorem deleteEvidence_parts (hevidence : s.deleteEvidenceComplete = true) :
    s.subjectSha256.isSome = true ∧ s.sourceSha256.isSome = true ∧ s.integrityState = .verified ∧
      s.lineageState = .verified ∧
      s.ownershipProvenance =
        (if s.subjectKind.isRun then .futureVerifiedManifestV1 else .typedApplicationMetadataV1) ∧
      (s.subjectKind.isRun = true → s.runVerificationBasis = .futureVerifiedRevisionV1 ∧
        s.runId.isSome = true ∧ s.revision.isSome = true) := by
  simp only [deleteEvidenceComplete, Bool.and_eq_true, decide_eq_true_eq] at hevidence
  obtain ⟨⟨⟨⟨hsubject, hsource⟩, hintegrity⟩, hlineage⟩, hkind⟩ := hevidence
  refine ⟨hsubject, hsource, hintegrity, hlineage, ?_⟩
  cases hrun : s.subjectKind.isRun with
  | true =>
    simp only [hrun, if_true, Bool.and_eq_true, decide_eq_true_eq] at hkind
    exact ⟨hkind.1.1.1.2, fun _ => ⟨hkind.1.1.2, hkind.1.2, hkind.2⟩⟩
  | false =>
    simp only [hrun, Bool.false_eq_true, if_false, Bool.and_eq_true, decide_eq_true_eq] at hkind
    exact ⟨hkind.1, by simp⟩

/-! ## Valid subjects -/

section Valid

variable [Tzinfo Zone]

/-- What the validators of the single fields check. -/
structure FieldsValid (s : SubjectFields Zone) : Prop where
  subjectId : identifierCheck s.subjectId = .ok ()
  nonempty : 1 ≤ s.logicalName.toList.length
  short : s.logicalName.toList.length ≤ 256
  clean : secretMetadata s.logicalName = false
  runId : optionalIdentifierCheck s.runId = .ok ()
  subjectSha256 : optionalSha256 s.subjectSha256
  sourceSha256 : optionalSha256 s.sourceSha256
  utc : ∀ start ∈ s.retentionStartedAt, start.IsUtc

theorem fieldCheck_eq_ok : s.fieldCheck = .ok () ↔ FieldsValid s := by
  simp only [fieldCheck, check_bind_eq_ok, require_eq_ok]
  constructor
  · rintro ⟨hid, ⟨hnonempty, hshort⟩, hclean, hrun, ⟨hsubject, hsource⟩, hutc⟩
    exact ⟨hid, hnonempty, hshort, by simpa using hclean, hrun, hsubject, hsource, hutc⟩
  · intro h
    exact ⟨h.subjectId, ⟨h.nonempty, h.short⟩, by simp [h.clean], h.runId,
      ⟨h.subjectSha256, h.sourceSha256⟩, h.utc⟩

omit [Tzinfo Zone] in
/-- What `validate_anchor_contract` checks. -/
structure Anchored (s : SubjectFields Zone) : Prop where
  outcome : classificationOutcome s.classificationEvidence =
    .ok (s.classification, s.classificationSource)
  metadata : ¬ (s.subjectKind ∈ [SubjectKind.lifecycleAudit, SubjectKind.dispositionReceipt] ∧
    s.classification ≠ .internal)
  name : s.subjectKind.isRun = true ∨ isOpaquePortableId s.logicalName = true
  quarantined : s.state = .quarantined → s.subjectKind = .quarantinePayload
  quarantine : s.subjectKind = .quarantinePayload → s.state = .quarantined
  anchor : ∀ required ∈ requiredAnchor s.subjectKind, s.retentionAnchorKind = required
  start : s.startCheck = .ok ()
  kind : s.kindCheck = .ok ()
  hashes : s.subjectKind = .quarantinePayload →
    s.subjectSha256.isSome = true ∧ s.sourceSha256.isSome = true

omit [Tzinfo Zone] in
theorem anchorCheck_eq_ok : s.anchorCheck = .ok () ↔ Anchored s := by
  unfold anchorCheck
  rw [bind_eq_ok]
  simp only [check_bind_eq_ok, require_eq_ok]
  constructor
  · rintro ⟨_, houtcome, rfl, hmetadata, hname, hquarantined, hquarantine, hanchor, hstart, hkind,
      hhashes⟩
    exact ⟨houtcome, hmetadata, hname, hquarantined, hquarantine, hanchor, hstart, hkind, hhashes⟩
  · intro h
    exact ⟨_, h.outcome, rfl, h.metadata, h.name, h.quarantined, h.quarantine, h.anchor, h.start,
      h.kind, h.hashes⟩

theorem check_eq_ok : s.check = .ok () ↔ FieldsValid s ∧ Anchored s := by
  rw [check, check_bind_eq_ok, fieldCheck_eq_ok, anchorCheck_eq_ok]

omit [Tzinfo Zone] in
theorem Anchored.artifactKind (h : Anchored s) (hrun : s.subjectKind.isRun = true) :
    artifactKind s.logicalName = some s.subjectKind := by
  have hkind := h.kind
  rw [kindCheck, if_pos hrun, runCheck, require_bind_eq_ok] at hkind
  exact hkind.1

/-- The name an audit writes for a run artifact: bounded, of the kind and free of secrets. -/
theorem relabel_runName (digests : Digests) (h : s.check = .ok ())
    (hrun : s.subjectKind.isRun = true) :
    DigestName s.subjectKind (s.relabel digests).logicalName := by
  obtain ⟨hfields, hanchored⟩ := check_eq_ok.1 h
  have hname : (s.relabel digests).logicalName =
      auditRunLogicalName digests.identifier s.logicalName := if_pos hrun
  rw [hname]
  exact auditRunLogicalName_digestName digests.identifier_valid (hanchored.artifactKind hrun)
    hfields.clean hfields.nonempty hfields.short

omit [Tzinfo Zone] in
/-- The name an audit writes for anything else is a digest. -/
theorem relabel_otherName (digests : Digests) (hrun : s.subjectKind.isRun = false) :
    isSha256 (s.relabel digests).logicalName = true := by
  have hname : (s.relabel digests).logicalName = digests.identifier "logical-name" s.logicalName :=
    if_neg (by simp [hrun])
  rw [hname]
  exact digests.identifier_valid _ _

/-- The name of an audit, of either sort. -/
theorem relabel_name (digests : Digests) (h : s.check = .ok ()) :
    1 ≤ (s.relabel digests).logicalName.toList.length ∧
      (s.relabel digests).logicalName.toList.length ≤ 256 ∧
      secretMetadata (s.relabel digests).logicalName = false := by
  cases hrun : s.subjectKind.isRun with
  | true =>
    have hname := relabel_runName digests h hrun
    exact ⟨hname.nonempty, hname.short, hname.clean⟩
  | false =>
    have hdigest := relabel_otherName digests hrun
    have hlength := (isSha256_chars hdigest).1
    exact ⟨by omega, by omega, secretMetadata_of_bland (bland_of_isSha256 hdigest)⟩

omit [Tzinfo Zone] in
theorem relabel_runStateCheck : (s.relabel digests).runStateCheck = s.runStateCheck := by
  have hrun : (s.relabel digests).runId.isSome = s.runId.isSome := Option.isSome_map
  unfold runStateCheck
  rw [hrun]
  rfl

/-- The subject an audit describes is valid. -/
theorem relabel_check (h : s.check = .ok ()) : (s.relabel digests).check = .ok () := by
  obtain ⟨hfields, hanchored⟩ := check_eq_ok.1 h
  obtain ⟨hnonempty, hshort, hclean⟩ := relabel_name digests h
  refine check_eq_ok.2 ⟨?_, ?_⟩
  · refine ⟨identifierCheck_digest (digests.identifier_valid _ _), hnonempty, hshort, hclean, ?_,
      hfields.subjectSha256, hfields.sourceSha256, hfields.utc⟩
    cases hrun : s.runId with
    | none => simp [relabel, hrun, optionalIdentifierCheck]
    | some runId =>
      simp [relabel, hrun, optionalIdentifierCheck,
        identifierCheck_digest (digests.identifier_valid _ _)]
  · refine ⟨hanchored.outcome, hanchored.metadata, ?_, hanchored.quarantined, hanchored.quarantine,
      hanchored.anchor, hanchored.start, ?_, hanchored.hashes⟩
    · cases hrun : s.subjectKind.isRun with
      | true => exact .inl hrun
      | false => exact .inr (isOpaquePortableId_of_isSha256 (relabel_otherName digests hrun))
    · have hkind := hanchored.kind
      cases hrun : s.subjectKind.isRun with
      | false =>
        rw [kindCheck, if_neg (by simp [hrun])] at hkind
        rw [kindCheck, if_neg (by simp [relabel, hrun])]
        exact hkind
      | true =>
        rw [kindCheck, if_pos hrun, runCheck, require_bind_eq_ok, check_bind_eq_ok] at hkind
        rw [kindCheck, if_pos (show (s.relabel digests).subjectKind.isRun = true from hrun), runCheck,
          require_bind_eq_ok, check_bind_eq_ok, relabel_runStateCheck]
        exact ⟨(relabel_runName digests h hrun).kind, hkind.2⟩

end Valid

section Rules

variable [Tzinfo Zone] [DecidableEq Zone] {requirement : EncryptionRequirement}
variable {capability : EncryptionCapabilityState} {protection : List ProtectionReason}
variable {quarantine : List QuarantineReason} {expires : Option (Datetime Zone)}
variable {now : Datetime Zone}
variable {derived : LifecycleDisposition × Option LifecyclePolicyFailureCode × Bool}

@[simp] theorem relabel_deriveDisposition :
    (s.relabel digests).deriveDisposition requirement capability protection quarantine expires now =
      s.deriveDisposition requirement capability protection quarantine expires now := by
  simp only [deriveDisposition, deriveExpired, relabel_deleteEvidenceComplete]
  rfl

/-- The subject is stored as the requirement asks, or its encryption is known not to match. -/
def Admitted (s : SubjectFields Zone) (requirement : EncryptionRequirement)
    (capability : EncryptionCapabilityState) : Prop :=
  ¬ (requirement = .requiredBeforePersistence ∧ s.encryptionState ≠ .requirementMismatch ∧
    (capability ≠ .available ∨ s.encryptionState ≠ .encryptedVerified))

/-- The rules of `_derive_disposition`, one constructor for each branch. -/
inductive Derived (s : SubjectFields Zone) (requirement : EncryptionRequirement)
    (capability : EncryptionCapabilityState) (protection : List ProtectionReason)
    (quarantine : List QuarantineReason) (expires : Option (Datetime Zone)) (now : Datetime Zone) :
    LifecycleDisposition × Option LifecyclePolicyFailureCode × Bool → Prop
  | forbidden (h : s.subjectKind = .attemptContext ∨ s.classification = .restricted) :
    Derived s requirement capability protection quarantine expires now
      (.denyPersistence, some .persistenceForbidden, s.manualReview protection)
  | unencrypted (hrequired : requirement = .requiredBeforePersistence)
      (h : capability ≠ .available ∨ s.encryptionState ≠ .encryptedVerified) :
    Derived s requirement capability protection quarantine expires now
      (.denyPersistence, some .encryptionRequired, s.manualReview protection)
  | protect (h : protection ≠ []) :
    Derived s requirement capability protection quarantine expires now
      (.protect, some (protectionFailure protection), s.manualReview protection)
  | quarantine (hprotection : protection = [])
      (h : s.encryptionState = .requirementMismatch ∨ quarantine ≠ []) :
    Derived s requirement capability protection quarantine expires now
      (.quarantineCandidate, none, s.manualReview protection)
  | expired (hadmitted : s.Admitted requirement capability)
      (hmatch : s.encryptionState ≠ .requirementMismatch) (hprotection : protection = [])
      (hquarantine : quarantine = [])
      (hstate : s.state = .verifiedTerminal ∨
        (s.subjectKind = .quarantinePayload ∧ s.state = .quarantined))
      (hreached : ∃ e, expires = some e ∧ now.ge e = some true)
      (hevidence : s.deleteEvidenceComplete = true) :
    Derived s requirement capability protection quarantine expires now
      (.deleteCandidate, none, s.manualReview protection)
  | retain (hadmitted : s.Admitted requirement capability)
      (hmatch : s.encryptionState ≠ .requirementMismatch) (hprotection : protection = [])
      (hquarantine : quarantine = []) :
    Derived s requirement capability protection quarantine expires now
      (.retain, none, s.manualReview protection)

theorem derived_of_deriveDisposition
    (h : s.deriveDisposition requirement capability protection quarantine expires now =
      some derived) :
    Derived s requirement capability protection quarantine expires now derived := by
  unfold deriveDisposition at h
  split at h
  · cases h
    exact .forbidden (.inl ‹_›)
  · split at h
    · cases h
      exact .forbidden (.inr ‹_›)
    · split at h
      · rename_i hrequired
        cases h
        exact .unencrypted hrequired.1 hrequired.2.2
      · rename_i hadmitted
        split at h
        · cases h
          exact .protect ‹_›
        · rename_i hprotection
          have hprotection := not_not.1 hprotection
          split at h
          · cases h
            exact .quarantine hprotection (.inl ‹_›)
          · rename_i hmatch
            split at h
            · cases h
              exact .quarantine hprotection (.inr ‹_›)
            · rename_i hquarantine
              have hquarantine := not_not.1 hquarantine
              obtain ⟨disposition, hexpired, rfl⟩ := Option.map_eq_some_iff.1 h
              unfold deriveExpired at hexpired
              split at hexpired
              · rename_i hstate
                cases expires with
                | none =>
                  cases hexpired
                  exact .retain hadmitted hmatch hprotection hquarantine
                | some e =>
                  obtain ⟨reached, hreached, hd⟩ := Option.map_eq_some_iff.1 hexpired
                  split at hd
                  · rename_i hboth
                    rw [Bool.and_eq_true] at hboth
                    obtain ⟨rfl, hevidence⟩ := hboth
                    subst hd
                    exact .expired hadmitted hmatch hprotection hquarantine hstate
                      ⟨e, rfl, hreached⟩ hevidence
                  · subst hd
                    exact .retain hadmitted hmatch hprotection hquarantine
              · cases hexpired
                exact .retain hadmitted hmatch hprotection hquarantine

/-- Between UTC times the rules always decide. -/
theorem deriveDisposition_decides (s : SubjectFields Zone) (requirement : EncryptionRequirement)
    (capability : EncryptionCapabilityState) (protection : List ProtectionReason)
    (quarantine : List QuarantineReason) (hnow : now.IsUtc) (hexpires : ∀ e ∈ expires, e.IsUtc) :
    ∃ derived, s.deriveDisposition requirement capability protection quarantine expires now =
      some derived := by
  have hexpired : ∃ disposition, s.deriveExpired expires now = some disposition := by
    unfold deriveExpired
    split
    · cases expires with
      | none => exact ⟨_, rfl⟩
      | some e =>
        simp only [Datetime.ge_of_isUtc hnow (hexpires e rfl)]
        exact ⟨_, rfl⟩
    · exact ⟨_, rfl⟩
  obtain ⟨disposition, hdisposition⟩ := hexpired
  unfold deriveDisposition
  rw [hdisposition]
  repeat' first | split | exact ⟨_, rfl⟩

end Rules

end SubjectFields

/-! ## The checks of a recorded audit -/

section Audit

variable [Tzinfo Zone] [DecidableEq Zone] {capability : EncryptionCapabilityState}
variable {reasons : List QuarantineReason} {expires : Option (Datetime Zone)} {now : Datetime Zone}
variable {reference action : Option String}
variable {derived : LifecycleDisposition × Option LifecyclePolicyFailureCode × Bool}

/-- The audit of a subject under the approved policy. -/
def recorded (digests : Digests) (s : SubjectFields Zone) (capability : EncryptionCapabilityState)
    (reasons : List QuarantineReason) (expires : Option (Datetime Zone)) (now : Datetime Zone)
    (reference action : Option String)
    (derived : LifecycleDisposition × Option LifecyclePolicyFailureCode × Bool) : AuditFields Zone :=
  auditOf digests defaultLocalDataPolicy s (LocalDataPolicy.profile s.classification) capability
    (canonicalQuarantine s reasons) expires now reference action derived

omit [Tzinfo Zone] [DecidableEq Zone] in
@[simp] theorem recorded_subject :
    (recorded digests s capability reasons expires now reference action derived).subject =
      s.relabel digests := by
  have hhold : decide (ProtectionReason.legalHold ∈ s.protectionReasons) = s.legalHold := by
    rw [Bool.eq_iff_iff, decide_eq_true_eq]
    exact SubjectFields.legalHold_mem
  exact congrArg (fun hold => { s.relabel digests with legalHold := hold }) hhold

/-- What `evaluate_local_data` has established when it records the audit. -/
structure Evaluating (s : SubjectFields Zone) (capability : EncryptionCapabilityState)
    (reasons : List QuarantineReason) (expires : Option (Datetime Zone)) (now : Datetime Zone)
    (derived : LifecycleDisposition × Option LifecyclePolicyFailureCode × Bool) : Prop where
  valid : s.check = .ok ()
  utc : now.IsUtc
  started : rolledBack s now = some false
  expiry : AuditFields.expiry s.retentionStartedAt
    (retentionDays s.subjectKind (LocalDataPolicy.profile s.classification)) = some expires
  derived : s.deriveDisposition (LocalDataPolicy.profile s.classification).encryption capability
    s.protectionReasons (canonicalQuarantine s reasons) expires now = some derived

namespace Evaluating

variable (h : Evaluating s capability reasons expires now derived)
include h

theorem fieldCheck_iff (haction : SubjectFields.optionalSha256 action) :
    (recorded digests s capability reasons expires now reference action derived).fieldCheck =
      .ok () ↔ ∀ e ∈ expires, e.IsUtc := by
  obtain ⟨hfields, hanchored⟩ := SubjectFields.check_eq_ok.1 h.valid
  obtain ⟨hnonempty, hshort, hclean⟩ := SubjectFields.relabel_name digests h.valid
  have hmap : ∀ (value : Option String) (domain : String),
      SubjectFields.optionalSha256 (value.map (digests.identifier domain)) := by
    intro value domain v hv
    obtain ⟨w, -, rfl⟩ := Option.mem_map.1 hv
    exact digests.identifier_valid _ _
  simp only [AuditFields.fieldCheck, require_bind_eq_ok, require_eq_ok]
  constructor
  · rintro ⟨-, -, -, ⟨-, hexpires, -⟩, -⟩
    exact hexpires
  · intro hexpires
    refine ⟨⟨rfl, rfl, rfl, rfl⟩, ⟨digests.policy_valid _, digests.identifier_valid _ _, hmap _ _,
      hfields.subjectSha256, hfields.sourceSha256, hmap _ _, haction⟩, ⟨hnonempty, hshort⟩,
      ⟨hfields.utc, hexpires, h.utc⟩, ?_, ?_, ?_⟩
    · exact fun hsecret => by
        have : secretMetadata (s.relabel digests).logicalName = true := hsecret
        rw [hclean] at this
        cases this
    · exact sortedSet_sortedSet.symm
    · exact sortedSet_sortedSet.symm

theorem timesCheck (hexpires : ∀ e ∈ expires, e.IsUtc) :
    (recorded digests s capability reasons expires now reference action derived).timesCheck =
      .ok () := by
  have hfields := (SubjectFields.check_eq_ok.1 h.valid).1
  simp only [AuditFields.timesCheck, require_bind_eq_ok, require_eq_ok]
  have hexpiry := h.expiry
  have hstarted := h.started
  show (s.retentionStartedAt.isSome = expires.isSome) ∧ ∀ start ∈ s.retentionStartedAt,
    ∀ e ∈ expires, e.lt start = some false ∧ now.lt start = some false
  unfold AuditFields.expiry at hexpiry
  unfold rolledBack at hstarted
  cases hstart : s.retentionStartedAt with
  | none =>
    rw [hstart] at hexpiry
    cases hexpiry
    simp
  | some start =>
    rw [hstart] at hexpiry hstarted
    obtain ⟨e, hadd, rfl⟩ := Option.map_eq_some_iff.1 hexpiry
    refine ⟨rfl, fun start' hs e' he => ?_⟩
    cases hs
    cases he
    refine ⟨?_, hstarted⟩
    rw [Datetime.lt_of_isUtc (hexpires e rfl) (hfields.utc _ hstart), Datetime.addDays_wall hadd]
    simp

theorem nameCheck :
    (recorded digests s capability reasons expires now reference action derived).nameCheck =
      .ok () := by
  simp only [AuditFields.nameCheck, require_bind_eq_ok, require_eq_ok]
  constructor
  · intro hrun
    have hname := SubjectFields.relabel_runName digests h.valid hrun
    exact ⟨hname.kind, hname.bounded⟩
  · intro hrun
    exact SubjectFields.relabel_otherName digests (Bool.eq_false_iff.2 hrun)

theorem expiryCheck :
    (recorded digests s capability reasons expires now reference action derived).expiryCheck
      (LocalDataPolicy.profile s.classification) = .ok () := by
  have hexpiry : AuditFields.expiry
      (recorded digests s capability reasons expires now reference action derived).retentionStartedAt
      (retentionDays
        (recorded digests s capability reasons expires now reference action derived).subjectKind
        (LocalDataPolicy.profile s.classification)) = some expires := h.expiry
  rw [AuditFields.expiryCheck, hexpiry]
  refine require_of ?_
  show AuditFields.sameTime expires expires = true
  cases expires with
  | none => rfl
  | some e => exact Datetime.eq_self e

theorem derivationCheck :
    (recorded digests s capability reasons expires now reference action derived).derivationCheck =
      .ok () := by
  have hprofile : defaultLocalDataPolicy.profileFor
      (recorded digests s capability reasons expires now reference action derived).classification =
      .ok (LocalDataPolicy.profile s.classification) := LocalDataPolicy.profileFor_eq _ _
  simp only [AuditFields.derivationCheck, require_eq_ok, hprofile, bind_ok_left rfl,
    check_bind_eq_ok, recorded_subject, SubjectFields.relabel_protectionReasons,
    SubjectFields.relabel_stateQuarantineReasons, SubjectFields.relabel_deriveDisposition,
    h.expiryCheck]
  refine ⟨rfl, fun reason hreason => ?_, rfl, h.derived⟩
  exact mem_sortedQuarantine.2 (List.mem_append_left _ hreason)

theorem deleteCheck (hexpires : ∀ e ∈ expires, e.IsUtc) {manual : Bool}
    (hprotection : s.protectionReasons = []) (hquarantine : canonicalQuarantine s reasons = [])
    (hstate : s.state = .verifiedTerminal ∨
      (s.subjectKind = .quarantinePayload ∧ s.state = .quarantined))
    (hreached : ∃ e, expires = some e ∧ now.ge e = some true)
    (hevidence : s.deleteEvidenceComplete = true) :
    (recorded digests s capability reasons expires now reference action
      (.deleteCandidate, none, manual)).deleteCheck = .ok () := by
  obtain ⟨hsubject, hsource, hintegrity, hlineage, howner, hrun⟩ := SubjectFields.deleteEvidence_parts hevidence
  obtain ⟨e, rfl, hge⟩ := hreached
  have hexpired : AuditFields.expired now (some e) = true := by
    rw [Datetime.ge_of_isUtc h.utc (hexpires e rfl)] at hge
    simp only [Option.some.injEq, decide_eq_true_eq] at hge
    simp [AuditFields.expired, Datetime.lt_of_isUtc h.utc (hexpires e rfl), hge]
  simp only [AuditFields.deleteCheck, check_bind_eq_ok, require_eq_ok]
  refine ⟨⟨hprotection, hquarantine, rfl, hexpired, hsubject, hsource⟩, ?_, howner, hintegrity,
    hlineage⟩
  show (if s.state = .verifiedTerminal then _ else _) = _
  split
  · refine require_of fun hk => ?_
    obtain ⟨hbasis, hid, hrevision⟩ := hrun hk
    exact ⟨hbasis, by simpa [recorded, auditOf] using hid, hrevision⟩
  · rename_i hterminal
    exact require_of (hstate.resolve_left hterminal)

theorem dispositionCheck (hexpires : ∀ e ∈ expires, e.IsUtc) :
    (recorded digests s capability reasons expires now reference action derived).dispositionCheck =
      .ok () := by
  have hquarantine : ∀ reason, reason ∈ s.stateQuarantineReasons →
      canonicalQuarantine s reasons ≠ [] := by
    intro reason hreason hnil
    have hmem : reason ∈ canonicalQuarantine s reasons :=
      mem_sortedQuarantine.2 (List.mem_append_left _ hreason)
    rw [hnil] at hmem
    cases hmem
  cases SubjectFields.derived_of_deriveDisposition h.derived with
  | forbidden hforbidden =>
    show AuditFields.denyCheck _ = _
    simp only [AuditFields.denyCheck, require_bind_eq_ok, require_eq_ok]
    refine ⟨by simp [recorded, auditOf], ?_, by simp [recorded, auditOf]⟩
    rintro ⟨-, hclass, hkind⟩
    exact hforbidden.elim hkind hclass
  | unencrypted hrequired hencryption =>
    show AuditFields.denyCheck _ = _
    simp only [AuditFields.denyCheck, require_bind_eq_ok, require_eq_ok]
    refine ⟨by simp [recorded, auditOf], by simp [recorded, auditOf], ?_⟩
    have hsensitive : s.classification = .sensitive := by
      cases hclass : s.classification <;> rw [hclass] at hrequired <;> first | rfl | cases hrequired
    rintro ⟨-, hclass | hrequirement | ⟨havailable, hverified⟩⟩
    · exact hclass hsensitive
    · exact hrequirement hrequired
    · exact hencryption.elim (fun hne => hne havailable) (fun hne => hne hverified)
  | protect hprotection =>
    show (do require _ _; require _ _ : Except String Unit) = _
    simp only [require_bind_eq_ok, require_eq_ok]
    refine ⟨⟨hprotection, rfl⟩, fun hreview => ?_⟩
    show s.manualReview s.protectionReasons = true
    simp only [recorded, auditOf, List.mem_cons, List.not_mem_nil, or_false] at hreview
    rcases hreview with (hstate | hstate) | howner
    · simp [SubjectFields.manualReview, hstate]
    · simp [SubjectFields.manualReview, hstate]
    · simp [SubjectFields.manualReview, howner]
  | quarantine hprotection hreason =>
    refine require_of ⟨?_, hprotection, rfl⟩
    rcases hreason with hmismatch | hne
    · refine hquarantine .encryptionRequirementMismatch ?_
      simp [SubjectFields.stateQuarantineReasons, SubjectFields.addIf, hmismatch]
    · exact hne
  | expired hadmitted hmatch hprotection hnil hstate hreached hevidence =>
    exact h.deleteCheck hexpires hprotection hnil hstate hreached hevidence
  | retain hadmitted hmatch hprotection hnil => exact require_of ⟨hprotection, hnil, rfl⟩

theorem sensitiveCheck :
    (recorded digests s capability reasons expires now reference action derived).sensitiveCheck =
      .ok () := by
  have hadmits : s.encryptionState ≠ .requirementMismatch →
      s.Admitted (LocalDataPolicy.profile s.classification).encryption capability →
      ¬ (s.classification = .sensitive ∧
        (capability ≠ .available ∨ s.encryptionState ≠ .encryptedVerified)) := by
    rintro hmatch hadmitted ⟨hsensitive, hencryption⟩
    refine hadmitted ⟨?_, hmatch, hencryption⟩
    rw [hsensitive]
    rfl
  have hunreviewed : s.protectionReasons = [] → ¬ s.manualReview s.protectionReasons = true := by
    intro hprotection
    rw [SubjectFields.manualReview_of_unprotected hprotection]
    simp
  simp only [AuditFields.sensitiveCheck, require_bind_eq_ok, require_eq_ok]
  cases SubjectFields.derived_of_deriveDisposition h.derived with
  | forbidden | unencrypted | protect => simp [recorded, auditOf]
  | quarantine hprotection hreason =>
    exact ⟨fun hmanual => absurd hmanual (hunreviewed hprotection), by simp [recorded, auditOf]⟩
  | expired hadmitted hmatch hprotection hnil hstate hreached hevidence =>
    exact ⟨fun hmanual => absurd hmanual (hunreviewed hprotection),
      fun hsensitive => hadmits hmatch hadmitted ⟨hsensitive.1, hsensitive.2.2⟩⟩
  | retain hadmitted hmatch hprotection hnil =>
    exact ⟨fun hmanual => absurd hmanual (hunreviewed hprotection),
      fun hsensitive => hadmits hmatch hadmitted ⟨hsensitive.1, hsensitive.2.2⟩⟩

/-- The audit passes exactly when its expiry has offset zero. -/
theorem check_iff (digests : Digests) (reference : Option String)
    (haction : SubjectFields.optionalSha256 action) :
    (recorded digests s capability reasons expires now reference action derived).check digests =
      .ok () ↔ ∀ e ∈ expires, e.IsUtc := by
  have hanchored := (SubjectFields.check_eq_ok.1 h.valid).2
  have houtcome : classificationOutcome
      (recorded digests s capability reasons expires now reference action
        derived).classificationEvidence = .ok (s.classification, s.classificationSource) :=
    hanchored.outcome
  simp only [AuditFields.check, check_bind_eq_ok, require_eq_ok, houtcome, bind_ok_left rfl,
    recorded_subject, h.fieldCheck_iff haction]
  constructor
  · exact fun hcheck => hcheck.1
  · intro hexpires
    exact ⟨hexpires, rfl, h.timesCheck hexpires, h.nameCheck, rfl, SubjectFields.relabel_check h.valid,
      h.derivationCheck, h.dispositionCheck hexpires, h.sensitiveCheck⟩

end Evaluating

end Audit

end PokerDeliberation.LocalData
