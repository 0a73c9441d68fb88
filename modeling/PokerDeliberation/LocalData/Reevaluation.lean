import PokerDeliberation.LocalData.Audits

/-!
# Evaluating again

An evaluation yields the recorded audit (`evaluateAt_evaluated`), the subject
rebuilt from that audit is the relabelled one, and evaluating it at a later
time derives the same disposition. The one exception is a retention start
whose zone leaves offset zero before the expiry.
-/

namespace PokerDeliberation.LocalData

open Lib

variable {Zone : Type} [Tzinfo Zone] [DecidableEq Zone] {digests : Digests}

/-- The disposition an audit records, with its failure code and review flag. -/
def AuditFields.outcome (a : AuditFields Zone) :
    LifecycleDisposition × Option LifecyclePolicyFailureCode × Bool :=
  (a.proposedDisposition, a.failureCode, a.manualReviewRequired)

namespace SubjectFields

/-- The retention days of the approved policy. -/
def days (s : SubjectFields Zone) : Nat :=
  retentionDays s.subjectKind (LocalDataPolicy.profile s.classification)

/-- The expiry does not pass `datetime.max`. -/
def Representable (s : SubjectFields Zone) : Prop :=
  ∀ start ∈ s.retentionStartedAt, start.wall + s.days * dayUs < wallEnd

/-- The zone of the retention start has offset zero at the expiry too. -/
def ExpiryUtc (s : SubjectFields Zone) : Prop :=
  ∀ start ∈ s.retentionStartedAt, ∀ expires ∈ start.addDays s.days, expires.IsUtc

end SubjectFields

variable {s : SubjectFields Zone} {capability : EncryptionCapabilityState}
variable {reasons : List QuarantineReason} {expires : Option (Datetime Zone)}
variable {now later : Datetime Zone} {reference action : Option String}
variable {derived : LifecycleDisposition × Option LifecyclePolicyFailureCode × Bool}
variable {audit : LifecycleAuditMetadata digests Zone}

omit [Tzinfo Zone] [DecidableEq Zone] in
theorem expiry_of_representable (h : s.Representable) :
    ∃ expires, AuditFields.expiry s.retentionStartedAt s.days = some expires := by
  unfold AuditFields.expiry
  cases hstart : s.retentionStartedAt with
  | none => exact ⟨none, rfl⟩
  | some start =>
    refine ⟨some ⟨start.wall + s.days * dayUs, false, start.zone, h start hstart⟩, ?_⟩
    simp only [Datetime.addDays, dif_pos (h start hstart), Option.map_some]

omit [DecidableEq Zone] in
theorem expiryUtc_iff (h : AuditFields.expiry s.retentionStartedAt s.days = some expires) :
    s.ExpiryUtc ↔ ∀ e ∈ expires, e.IsUtc := by
  unfold AuditFields.expiry at h
  unfold SubjectFields.ExpiryUtc
  cases hstart : s.retentionStartedAt with
  | none =>
    rw [hstart] at h
    cases h
    simp
  | some start =>
    rw [hstart] at h
    obtain ⟨e, hadd, rfl⟩ := Option.map_eq_some_iff.1 h
    simp [hadd]

/-! ## What an evaluation records -/

theorem evaluateAt_evaluated (hvalid : s.check = .ok ()) (hutc : now.IsUtc)
    (h : evaluateAt digests s now defaultLocalDataPolicy capability reasons reference action =
      .ok (.evaluated audit)) :
    ∃ expires derived, Evaluating s capability reasons expires now derived ∧
      audit.toAuditFields =
        recorded digests s capability reasons expires now reference action derived := by
  unfold evaluateAt at h
  rw [LocalDataPolicy.profileFor_eq] at h
  split at h
  · cases h
  · cases h
  · rename_i hstarted
    simp only [bind_ok_left rfl] at h
    split at h
    · cases h
    · rename_i expires hexpiry
      split at h
      · cases h
      · rename_i derived hderived
        split at h
        · cases h
          exact ⟨expires, derived, ⟨hvalid, hutc, hstarted, hexpiry, hderived⟩, rfl⟩
        · cases h

theorem evaluateAt_of_evaluating (h : Evaluating s capability reasons expires now derived)
    (hcheck : (recorded digests s capability reasons expires now reference action derived).check
      digests = .ok ()) :
    evaluateAt digests s now defaultLocalDataPolicy capability reasons reference action =
      .ok (.evaluated { recorded digests s capability reasons expires now reference action derived with
        valid := hcheck }) := by
  unfold evaluateAt
  rw [LocalDataPolicy.profileFor_eq, h.started]
  simp only [bind_ok_left rfl, h.expiry, h.derived]
  exact dif_pos hcheck

theorem evaluating_of_representable (capability : EncryptionCapabilityState)
    (reasons : List QuarantineReason) (hvalid : s.check = .ok ()) (hutc : now.IsUtc)
    (hstarted : rolledBack s now = some false) (hrepresentable : s.Representable)
    (hexpiry : s.ExpiryUtc) :
    ∃ expires derived, Evaluating s capability reasons expires now derived ∧
      ∀ e ∈ expires, e.IsUtc := by
  obtain ⟨expires, hexpires⟩ := expiry_of_representable hrepresentable
  have hall := (expiryUtc_iff hexpires).1 hexpiry
  obtain ⟨derived, hderived⟩ := SubjectFields.deriveDisposition_decides s
    (LocalDataPolicy.profile s.classification).encryption capability s.protectionReasons
    (canonicalQuarantine s reasons) hutc hall
  exact ⟨expires, derived, ⟨hvalid, hutc, hstarted, hexpires, hderived⟩, hall⟩

/-! ## Later evaluations -/

theorem rolledBack_later (hvalid : s.check = .ok ()) (hnow : now.IsUtc) (hlater : later.IsUtc)
    (horder : later.ge now = some true) (h : rolledBack s now = some false) :
    rolledBack s later = some false := by
  have hfields := (SubjectFields.check_eq_ok.1 hvalid).1
  unfold rolledBack at h ⊢
  cases hstart : s.retentionStartedAt with
  | none => rfl
  | some start =>
    rw [hstart] at h
    have hs := hfields.utc start hstart
    simp only [Datetime.lt_of_isUtc hnow hs, Datetime.lt_of_isUtc hlater hs,
      Datetime.ge_of_isUtc hlater hnow, Option.some.injEq, decide_eq_true_eq,
      decide_eq_false_iff_not] at h horder ⊢
    omega

omit [Tzinfo Zone] [DecidableEq Zone] in
/-- The reasons of the audit, read again, are the same. -/
theorem canonicalQuarantine_relabel :
    canonicalQuarantine (s.relabel digests) (canonicalQuarantine s reasons) =
      canonicalQuarantine s reasons := by
  refine sortedSet_congr fun reason _ => ?_
  simp only [canonicalQuarantine, SubjectFields.relabel_stateQuarantineReasons, List.mem_append,
    mem_sortedQuarantine]
  exact ⟨fun h => h.elim .inl id, .inr⟩

/-- The rebuilt subject evaluates as the original does. -/
theorem Evaluating.relabel (digests : Digests) (h : Evaluating s capability reasons expires now derived) :
    Evaluating (s.relabel digests) capability (canonicalQuarantine s reasons) expires now derived where
  valid := SubjectFields.relabel_check h.valid
  utc := h.utc
  started := h.started
  expiry := h.expiry
  derived := by
    rw [canonicalQuarantine_relabel, SubjectFields.relabel_deriveDisposition,
      SubjectFields.relabel_protectionReasons]
    exact h.derived

/-- A delete candidate stays one. -/
theorem Evaluating.still_deleted {failure : Option LifecyclePolicyFailureCode} {manual : Bool}
    (h : Evaluating s capability reasons expires now (.deleteCandidate, failure, manual))
    (hlater : later.IsUtc) (horder : later.ge now = some true) (hexpires : ∀ e ∈ expires, e.IsUtc) :
    Evaluating s capability reasons expires later (.deleteCandidate, failure, manual) := by
  refine ⟨h.valid, hlater, rolledBack_later h.valid h.utc hlater horder h.started, h.expiry, ?_⟩
  cases SubjectFields.derived_of_deriveDisposition h.derived with
  | expired _ _ _ _ hstate hreached hevidence =>
    obtain ⟨e, rfl, hge⟩ := hreached
    have he := hexpires e rfl
    have hgeLater : later.ge e = some true := by
      rw [Datetime.ge_of_isUtc h.utc he] at hge
      rw [Datetime.ge_of_isUtc hlater h.utc] at horder
      rw [Datetime.ge_of_isUtc hlater he]
      simp only [Option.some.injEq, decide_eq_true_eq] at hge horder ⊢
      omega
    have hsame : s.deriveExpired (some e) later = s.deriveExpired (some e) now := by
      simp only [SubjectFields.deriveExpired, hge, hgeLater]
    have hderived := h.derived
    simp only [SubjectFields.deriveDisposition] at hderived ⊢
    rw [hsame]
    exact hderived

/-! ## The evaluation of a valid subject -/

section Evaluation

variable {subject : LifecycleSubject Zone} {policy : LocalDataPolicy} {expected : Option String}

/-- The inputs an evaluation is asked with. -/
structure Asked (digests : Digests) (s : SubjectFields Zone) (now : Datetime Zone)
    (policy : LocalDataPolicy) (expected reference action : Option String) : Prop where
  utc : now.IsUtc
  started : ∀ start ∈ s.retentionStartedAt, now.ge start = some true
  representable : s.Representable
  expected : ∀ sha256 ∈ expected, sha256 = digests.policy policy
  reference : ∀ r ∈ reference, wellFormedApproval r = true
  action : SubjectFields.optionalSha256 action

theorem Asked.rolledBack (h : Asked digests s now policy expected reference action) :
    rolledBack s now = some false := by
  have hstarted := h.started
  unfold LocalData.rolledBack
  cases hstart : s.retentionStartedAt with
  | none => rfl
  | some start =>
    have hge := hstarted start hstart
    rw [Datetime.ge, Option.map_eq_some_iff] at hge
    obtain ⟨before, hlt, hnot⟩ := hge
    cases before with
    | false => exact hlt
    | true => cases hnot

theorem Asked.evaluateLocalData_eq
    (h : Asked digests subject.toSubjectFields now policy expected reference action) :
    evaluateLocalData digests subject (some now) policy expected capability reasons reference action =
      evaluateAt digests subject.toSubjectFields now defaultLocalDataPolicy capability reasons
        reference action := by
  have hexpected : ¬ ∃ sha256 ∈ expected, sha256 ≠ digests.policy policy := by
    rintro ⟨sha256, hmem, hne⟩
    exact hne (h.expected sha256 hmem)
  have hreference : ¬ ∃ r ∈ reference, ¬ wellFormedApproval r := by
    rintro ⟨r, hmem, hne⟩
    exact hne (h.reference r hmem)
  rw [evaluateLocalData, if_neg hexpected, if_neg hreference, policy.eq_default]
  exact if_pos h.utc

/-- The same inputs at a later time. -/
theorem Asked.of_later (h : Asked digests subject.toSubjectFields now policy expected reference action)
    (hlater : later.IsUtc) (horder : later.ge now = some true) :
    Asked digests subject.toSubjectFields later policy expected reference action := by
  refine { h with utc := hlater, started := fun start hstart => ?_ }
  have hs := (SubjectFields.check_eq_ok.1 subject.valid).1.utc start hstart
  have hge := h.started start hstart
  rw [Datetime.ge_of_isUtc h.utc hs] at hge
  rw [Datetime.ge_of_isUtc hlater h.utc] at horder
  rw [Datetime.ge_of_isUtc hlater hs]
  simp only [Option.some.injEq, decide_eq_true_eq] at hge horder ⊢
  omega

/-- Clean data whose expiry is reached, and a delete candidate at every later time. -/
structure DeletesCleanly (digests : Digests) (subject : LifecycleSubject Zone)
    (now : Datetime Zone) (policy : LocalDataPolicy) (expected : Option String)
    (capability : EncryptionCapabilityState) (reasons : List QuarantineReason)
    (reference action : Option String) : Prop where
  unprotected : subject.toSubjectFields.protectionReasons = []
  sound : subject.toSubjectFields.stateQuarantineReasons = []
  unquarantined : reasons = []
  ownership : subject.toSubjectFields.verifiedOwnership = true
  integrity : subject.integrityState = .verified
  lineage : subject.lineageState = .verified
  subjectSha256 : subject.subjectSha256.isSome = true
  sourceSha256 : subject.sourceSha256.isSome = true
  reached : ∃ start ∈ subject.retentionStartedAt,
    ∃ expires ∈ start.addDays subject.toSubjectFields.days, now.ge expires = some true
  lasting : ∀ later : Datetime Zone, later.IsUtc → later.ge now = some true →
    ∃ again, evaluateLocalData digests subject (some later) policy expected capability reasons
        reference action = .ok (.evaluated again) ∧
      again.proposedDisposition = .deleteCandidate

/-- The evaluation of a subject yields an audit; evaluated again from it, at any later time,
the outcome is that of the subject; and only clean expired data is a delete candidate, for good. -/
structure EvaluatesFaithfully (digests : Digests) (subject : LifecycleSubject Zone)
    (now : Datetime Zone) (policy : LocalDataPolicy) (expected : Option String)
    (capability : EncryptionCapabilityState) (reasons : List QuarantineReason)
    (reference action : Option String) : Prop where
  evaluated : ∃ audit, evaluateLocalData digests subject (some now) policy expected capability reasons
    reference action = .ok (.evaluated audit)
  reproduced : ∀ audit, evaluateLocalData digests subject (some now) policy expected capability
      reasons reference action = .ok (.evaluated audit) →
    ∀ later : Datetime Zone, later.IsUtc → later.ge now = some true →
      ∃ rebuilt first second, auditSubject audit = .ok rebuilt ∧
        evaluateLocalData digests rebuilt (some later) policy expected capability
          audit.quarantineReasons none none = .ok (.evaluated first) ∧
        evaluateLocalData digests subject (some later) policy expected capability reasons
          reference action = .ok (.evaluated second) ∧
        first.toAuditFields.outcome = second.toAuditFields.outcome
  deletes : ∀ audit, evaluateLocalData digests subject (some now) policy expected capability reasons
      reference action = .ok (.evaluated audit) →
    audit.proposedDisposition = .deleteCandidate →
    DeletesCleanly digests subject now policy expected capability reasons reference action

theorem Asked.evaluates (capability : EncryptionCapabilityState) (reasons : List QuarantineReason)
    (h : Asked digests subject.toSubjectFields now policy expected reference action)
    (hexpiry : subject.toSubjectFields.ExpiryUtc) :
    ∃ expires derived audit,
      Evaluating subject.toSubjectFields capability reasons expires now derived ∧
      evaluateLocalData digests subject (some now) policy expected capability reasons reference
        action = .ok (.evaluated audit) ∧
      audit.toAuditFields =
        recorded digests subject.toSubjectFields capability reasons expires now reference action
          derived := by
  obtain ⟨expires, derived, hevaluating, hall⟩ := evaluating_of_representable capability
    reasons subject.valid h.utc h.rolledBack h.representable hexpiry
  have hcheck := (hevaluating.check_iff digests reference h.action).2 hall
  refine ⟨expires, derived, { recorded digests subject.toSubjectFields capability reasons expires now
    reference action derived with valid := hcheck }, hevaluating, ?_, rfl⟩
  rw [h.evaluateLocalData_eq]
  exact evaluateAt_of_evaluating hevaluating hcheck

/-- What an evaluation recorded, once it has yielded an audit. -/
theorem Asked.recorded_of_evaluated
    (h : Asked digests subject.toSubjectFields now policy expected reference action)
    (haudit : evaluateLocalData digests subject (some now) policy expected capability reasons reference
      action = .ok (.evaluated audit)) :
    ∃ expires derived, Evaluating subject.toSubjectFields capability reasons expires now derived ∧
      audit.toAuditFields =
        recorded digests subject.toSubjectFields capability reasons expires now reference action
          derived := by
  rw [h.evaluateLocalData_eq] at haudit
  exact evaluateAt_evaluated subject.valid h.utc haudit

/-- The subject rebuilt from an audit, and what it may be asked. -/
theorem Asked.rebuilt (h : Asked digests subject.toSubjectFields now policy expected reference action)
    (hsubject : audit.toAuditFields.subject = subject.toSubjectFields.relabel digests) :
    ∃ rebuilt : LifecycleSubject Zone, auditSubject audit = .ok rebuilt ∧
      rebuilt.toSubjectFields = subject.toSubjectFields.relabel digests ∧
      Asked digests rebuilt.toSubjectFields now policy expected none none := by
  have hvalid : audit.toAuditFields.subject.check = .ok () := by
    rw [hsubject]
    exact SubjectFields.relabel_check subject.valid
  refine ⟨{ audit.toAuditFields.subject with valid := hvalid }, dif_pos hvalid, hsubject, ?_⟩
  show Asked digests audit.toAuditFields.subject now policy expected none none
  rw [hsubject]
  exact ⟨h.utc, h.started, h.representable, h.expected, by simp, by simp [SubjectFields.optionalSha256]⟩

theorem Asked.reproduced
    (h : Asked digests subject.toSubjectFields now policy expected reference action)
    (hexpiry : subject.toSubjectFields.ExpiryUtc)
    (haudit : evaluateLocalData digests subject (some now) policy expected capability reasons reference
      action = .ok (.evaluated audit))
    (hlater : later.IsUtc) (horder : later.ge now = some true) :
    ∃ rebuilt first second, auditSubject audit = .ok rebuilt ∧
      evaluateLocalData digests rebuilt (some later) policy expected capability
        audit.quarantineReasons none none = .ok (.evaluated first) ∧
      evaluateLocalData digests subject (some later) policy expected capability reasons
        reference action = .ok (.evaluated second) ∧
      first.toAuditFields.outcome = second.toAuditFields.outcome := by
  obtain ⟨_, _, _, hfields⟩ := h.recorded_of_evaluated haudit
  have hsubject : audit.toAuditFields.subject = subject.toSubjectFields.relabel digests := by
    rw [hfields, recorded_subject]
  have hreasons : audit.quarantineReasons = canonicalQuarantine subject.toSubjectFields reasons :=
    congrArg AuditFields.quarantineReasons hfields
  have hasked := h.of_later hlater horder
  obtain ⟨rebuilt, hrebuilt, hrelabel, haskedAgain⟩ := hasked.rebuilt hsubject
  obtain ⟨expires, derived, second, hevaluating, hsecond, hsecondFields⟩ :=
    hasked.evaluates capability reasons hexpiry
  have hexpiryAgain : rebuilt.toSubjectFields.ExpiryUtc := by
    rw [hrelabel]
    exact hexpiry
  obtain ⟨expires', derived', first, hevaluating', hfirst, hfirstFields⟩ :=
    haskedAgain.evaluates capability (canonicalQuarantine subject.toSubjectFields reasons)
      hexpiryAgain
  rw [← hreasons] at hfirst
  refine ⟨rebuilt, first, second, hrebuilt, hfirst, hsecond, ?_⟩
  -- both derivations are the one of the relabelled subject
  have hrelabelled := hevaluating.relabel digests
  rw [hrelabel] at hevaluating'
  have hexpires : expires' = expires :=
    Option.some.inj (hevaluating'.expiry.symm.trans hrelabelled.expiry)
  subst hexpires
  have hderived : derived' = derived :=
    Option.some.inj (hevaluating'.derived.symm.trans hrelabelled.derived)
  subst hderived
  rw [hfirstFields, hsecondFields]
  rfl

theorem Asked.deletes
    (h : Asked digests subject.toSubjectFields now policy expected reference action)
    (hexpiry : subject.toSubjectFields.ExpiryUtc)
    (haudit : evaluateLocalData digests subject (some now) policy expected capability reasons reference
      action = .ok (.evaluated audit))
    (hdelete : audit.proposedDisposition = .deleteCandidate) :
    DeletesCleanly digests subject now policy expected capability reasons reference action := by
  obtain ⟨expires, derived, hevaluating, hfields⟩ := h.recorded_of_evaluated haudit
  have hdisposition : derived.1 = .deleteCandidate := by
    rw [hfields] at hdelete
    exact hdelete
  obtain ⟨disposition, failure, manual⟩ := derived
  cases hdisposition
  cases SubjectFields.derived_of_deriveDisposition hevaluating.derived with
  | expired _ _ hprotection hquarantine _ hreached hevidence =>
    obtain ⟨hsubject, hsource, hintegrity, hlineage, -, -⟩ :=
      SubjectFields.deleteEvidence_parts hevidence
    have hnone := List.append_eq_nil_iff.1 (sortedQuarantine_eq_nil.1 hquarantine)
    have hall := (expiryUtc_iff hevaluating.expiry).1 hexpiry
    refine ⟨hprotection, hnone.1, hnone.2,
      SubjectFields.verifiedOwnership_of_unprotected hprotection, hintegrity, hlineage, hsubject,
      hsource, ?_, ?_⟩
    · obtain ⟨e, rfl, hge⟩ := hreached
      have hspec := hevaluating.expiry
      unfold AuditFields.expiry at hspec
      cases hstart : subject.retentionStartedAt with
      | none =>
        rw [hstart] at hspec
        cases hspec
      | some start =>
        rw [hstart] at hspec
        obtain ⟨e', hadd, heq⟩ := Option.map_eq_some_iff.1 hspec
        obtain rfl : e' = e := Option.some.inj heq
        exact ⟨start, rfl, e', hadd, hge⟩
    · intro later hlater horder
      have hstill := hevaluating.still_deleted hlater horder hall
      have hasked := h.of_later hlater horder
      have hcheck := (hstill.check_iff digests reference h.action).2 hall
      refine ⟨{ recorded digests subject.toSubjectFields capability reasons expires later
        reference action (.deleteCandidate, none, _) with valid := hcheck }, ?_, rfl⟩
      rw [hasked.evaluateLocalData_eq]
      exact evaluateAt_of_evaluating hstill hcheck

/-- An evaluation is faithful exactly when the expiry has offset zero in the zone of
the retention start. -/
theorem evaluates_faithfully_iff (subject : LifecycleSubject Zone)
    (capability : EncryptionCapabilityState) (reasons : List QuarantineReason)
    (h : Asked digests subject.toSubjectFields now policy expected reference action) :
    EvaluatesFaithfully digests subject now policy expected capability reasons reference action ↔
      subject.toSubjectFields.ExpiryUtc := by
  constructor
  · intro hfaithful
    obtain ⟨audit, haudit⟩ := hfaithful.evaluated
    obtain ⟨expires, derived, hevaluating, hfields⟩ := h.recorded_of_evaluated haudit
    have hcheck := audit.valid
    rw [hfields] at hcheck
    exact (expiryUtc_iff hevaluating.expiry).2
      ((hevaluating.check_iff digests reference h.action).1 hcheck)
  · intro hexpiry
    obtain ⟨_, _, audit, _, haudit, _⟩ :=
      h.evaluates capability reasons hexpiry
    exact ⟨⟨audit, haudit⟩, fun _ haudit _ hlater horder => h.reproduced hexpiry haudit hlater horder,
      fun _ haudit hdelete => h.deletes hexpiry haudit hdelete⟩

end Evaluation

/-! ## A start in London -/

inductive SampleZone where
  | utc | london
  deriving DecidableEq, Repr

/-- Midnight of a day, by its ordinal less one. -/
def midnight (day : Nat) : Nat := day * dayUs

def hourUs : Nat := 3600000000

/-- The offset of London in 2024: the clocks go forward on 31 March at 01:00 and back on
27 October at 02:00. -/
def londonOffset (wall : Nat) (fold : Bool) : Int :=
  let forward := midnight 738975 + hourUs
  let back := midnight 739185 + 2 * hourUs
  if wall < forward then 0
  else if wall < forward + hourUs then if fold then hourUs else 0
  else if wall < back - hourUs then hourUs
  else if wall < back then if fold then 0 else hourUs
  else 0

instance : Tzinfo SampleZone where
  utcoffset
    | .utc, _, _ => some 0
    | .london, wall, fold => some (londonOffset wall fold)

def sampleDigest : String := String.ofList (List.replicate 64 'a')

def sampleDigests : Digests where
  policy _ := sampleDigest
  identifier _ _ := sampleDigest
  policy_valid _ := by decide +kernel
  identifier_valid _ _ := by decide +kernel

/-- 28 March 2024, midnight. -/
def sampleStart (zone : SampleZone) : Datetime SampleZone where
  wall := midnight 738972
  zone := some zone
  inRange := by decide

def sampleFields (zone : SampleZone) : SubjectFields SampleZone where
  subjectKind := .applicationCache
  subjectId := "cache-1"
  logicalName := "equity-cache"
  encryptionState := .unknownOrUnencrypted
  state := .verifiedTerminal
  retentionAnchorKind := .applicationCreated
  retentionStartedAt := some (sampleStart zone)
  subjectSha256 := some sampleDigest
  sourceSha256 := some sampleDigest
  ownershipProvenance := .typedApplicationMetadataV1
  integrityState := .verified
  lineageState := .verified
  legalHold := false

/-- An application cache entry, kept for seven days. -/
def sampleSubject (zone : SampleZone) : LifecycleSubject SampleZone :=
  { sampleFields zone with valid := by cases zone <;> decide +kernel }

theorem sample_asked (zone : SampleZone) : Asked sampleDigests (sampleSubject zone).toSubjectFields
    (sampleStart .utc) defaultLocalDataPolicy none none none where
  utc := rfl
  started start hstart := by
    cases hstart
    cases zone <;> decide +kernel
  representable start hstart := by
    cases hstart
    cases zone <;> decide +kernel
  expected := by simp
  reference := by simp
  action := by simp [SubjectFields.optionalSha256]

/-- The code an evaluation failed with. -/
def failureCode {digests : Digests} :
    Except String (LifecycleEvaluationResult digests SampleZone) → Option LifecyclePolicyFailureCode
  | .ok (.failed failure) => some failure.code
  | _ => none

/-- The expiry in London is in summer time, and the evaluation fails as an invalid policy. -/
theorem sample_london_fails :
    failureCode (evaluateLocalData sampleDigests (sampleSubject .london) (some (sampleStart .utc))
      defaultLocalDataPolicy none .unavailable [] none none) = some .invalidPolicy ∧
    ¬ EvaluatesFaithfully sampleDigests (sampleSubject .london) (sampleStart .utc)
      defaultLocalDataPolicy none .unavailable [] none none := by
  have hfails : failureCode (evaluateLocalData sampleDigests (sampleSubject .london)
      (some (sampleStart .utc)) defaultLocalDataPolicy none .unavailable [] none none) =
        some .invalidPolicy := by
    decide +kernel
  refine ⟨hfails, fun hfaithful => ?_⟩
  obtain ⟨audit, haudit⟩ := hfaithful.evaluated
  rw [haudit] at hfails
  cases hfails

theorem evaluates_faithfully_sample :
    EvaluatesFaithfully sampleDigests (sampleSubject .utc) (sampleStart .utc) defaultLocalDataPolicy
      none .unavailable [] none none :=
  (evaluates_faithfully_iff (sampleSubject .utc) .unavailable [] (sample_asked .utc)).2 (by
    intro start hstart expires hexpires
    cases hstart
    have hzone : expires.zone = some .utc := Datetime.addDays_zone hexpires
    rw [Datetime.IsUtc, Datetime.utcoffset, hzone]
    rfl)

end PokerDeliberation.LocalData
