import PokerDeliberation.Phases.Synthesis

/-!
# From adjudication to synthesis

What a correction should mean, by the exact numbers, and when the text it is
carried in says just that.
-/

namespace PokerDeliberation.Phases

open Lib

/-! ## The exact comparison -/

/-- The number a value stands for. -/
def exactValue (quoted : Text → Text) : Value → Option ℚ
  | .int n => some n
  | value =>
    match toFloat quoted value with
    | .ok (.finite q) => some q
    | _ => none

/-- No difference exceeds an infinite tolerance. -/
def Exceeds (difference : ℚ) : FloatText → Prop
  | .finite tolerance => tolerance < difference
  | _ => False

section

variable (outside : Outside) (input : AdjudicationInput) (rawCheck : Value)

/-- A check that finds a last result of its tool. -/
structure Reaches (check : ClaimCheck) (result : ToolResult) : Prop where
  valid : ∃ items, rawCheck = .obj items ∧ outside.validateCheck items = .ok check
  known : check.claimId ∈ input.case.claims.map Claim.claimId
  last : input.lastSuccess check.toolName = some result

/-- A check that is compared with a verified result: the exact value, the float
it is read as, and the resolved tolerance. -/
structure Compared (check : ClaimCheck) (result : ToolResult) (exact : ℚ)
    (calculated tolerance : FloatText) : Prop where
  reaches : Reaches outside input rawCheck check result
  verified : result.numericExactness.IsVerified
  value : ∃ value, lookupPath result.output check.outputPath = .ok value ∧
    toFloat outside.quoted value = .ok calculated ∧ exactValue outside.quoted value = some exact
  finite : calculated.isFinite = true
  resolved : toolComparisonTolerance result (.finite check.claimedValue) calculated
    check.requested = .ok tolerance

/-- The verified value differs from the claimed one by more than the tolerance. -/
def Differs : Prop :=
  ∃ check result exact calculated tolerance,
    Compared outside input rawCheck check result exact calculated tolerance ∧
      Exceeds |exact - check.claimedValue| tolerance

end

/-- The checks of a case. -/
def CaseInput.checks (case : CaseInput) : List Value :=
  match case.claimChecks with
  | .arr checks => checks
  | _ => []

/-- The assessment a check comes to, if it comes to one. -/
def assessmentOf (outside : Outside) (input : AdjudicationInput) (rawCheck : Value) :
    Option Claim :=
  match assess outside input rawCheck with
  | .ok (.assessment claim) => some claim
  | _ => none

/-- A state in which the conclusion is about something else. -/
def SynthesisInput.Preempted (value : SynthesisInput) : Prop :=
  value.securityEvents.any SecurityEvent.blocked = true ∨
    value.machineState = text "HUMAN_REVIEW_REQUIRED" ∨
    value.machineState = text "FAILED_WITH_LIMITATIONS"

/-- The synthesis is about the case and the results that were adjudicated, with
what the adjudication made of them. -/
structure Carries (input : AdjudicationInput) (output : AdjudicationOutput)
    (value : SynthesisInput) : Prop where
  case : value.case = input.case
  toolResults : value.toolResults = input.toolResults
  claimAssessments : value.claimAssessments = output.claimAssessments
  dataQuality : value.dataQuality = output.dataQuality

/-- What confidence A stands for. -/
structure FullyVerified (outside : Outside) (input : AdjudicationInput) (value : SynthesisInput) :
    Prop where
  claims : ∀ claim ∈ input.case.claims, ∃ rawCheck ∈ input.case.checks,
    ∃ check result exact calculated tolerance,
      Compared outside input rawCheck check result exact calculated tolerance ∧
        check.claimId = claim.claimId
  successes : ∀ result ∈ input.toolResults, result.status = .success →
    result.numericExactness.IsVerified
  failures : ∀ result ∈ input.toolResults, result.status ≠ .failed
  warnings : value.dataQuality = []
  disputes : ∀ dispute ∈ value.disputes, dispute.unresolved = false

/-- Adjudication to synthesis, sound. -/
structure Sound (outside : Outside) (present : FinalReport → Except Text FinalReport)
    (input : AdjudicationInput) (output : AdjudicationOutput) : Prop where
  assessments : output.claimAssessments =
    input.case.claims ++ input.case.checks.filterMap (assessmentOf outside input)
  sent : ∀ claim ∈ input.case.claims, isVerifiedClaimCorrection claim = false
  corrections : ∀ rawCheck ∈ input.case.checks, ∀ claim ∈ assessmentOf outside input rawCheck,
    isVerifiedClaimCorrection claim = true ↔ Differs outside input rawCheck
  conclusion : ∀ runId value report, Carries input output value →
    synthesize present runId value = .ok report →
    (report.conclusion = SynthesisInput.correctionConclusion ↔
      ¬ value.Preempted ∧ ∃ rawCheck ∈ input.case.checks, Differs outside input rawCheck)
  confidence : ∀ runId value report, Carries input output value →
    synthesize present runId value = .ok report → report.confidence = .a →
    FullyVerified outside input value

/-! ## The condition -/

/-- An integer too large for a float is read. -/
def Overflows (outside : Outside) (check : ClaimCheck) (result : ToolResult) : Prop :=
  (∃ n, lookupPath result.output check.outputPath = .ok (.int n) ∧ FloatText.ofInt n = none) ∨
  (∃ value calculated, lookupPath result.output check.outputPath = .ok value ∧
    toFloat outside.quoted value = .ok calculated) ∧ check.tolerance = none ∧
    result.numericExactness = .floatingVerified ∧
    ∃ verification ∈ result.verification,
      verification.tolerance.kind = .ulp ∧
        (∃ ulps ∈ verification.tolerance.ulps, FloatText.ofInt ulps = none) ∨
      verification.tolerance.kind = .callerSupplied ∧
        ∃ n, callerValue result = .int n ∧ FloatText.ofInt n = none

/-- No number is too large, no claim that agrees has the phrase in its id, and
rounding the difference does not carry it over the tolerance. -/
structure ReadsExactly (outside : Outside) (input : AdjudicationInput) : Prop where
  inRange : ∀ rawCheck ∈ input.case.checks, ∀ check result,
    Reaches outside input rawCheck check result → ¬ Overflows outside check result
  named : ∀ rawCheck ∈ input.case.checks, ∀ check result exact calculated tolerance,
    Compared outside input rawCheck check result exact calculated tolerance →
    CORRECTION_PHRASE <:+: check.claimId → Exceeds |exact - check.claimedValue| tolerance
  rounded : ∀ rawCheck ∈ input.case.checks, ∀ check result exact calculated tolerance,
    Compared outside input rawCheck check result exact calculated tolerance →
    ¬ CORRECTION_PHRASE <:+: check.claimId →
    (agrees calculated (.finite check.claimedValue) tolerance = false ↔
      Exceeds |exact - check.claimedValue| tolerance)

/-! ## Reading numbers -/

section

variable {outside : Outside} {input : AdjudicationInput} {rawCheck : Value} {check : ClaimCheck}
  {result : ToolResult} {calculated tolerance : FloatText} {message : Text}

theorem floatOfInt_overflow {n : Int} :
    floatOfInt n = .error (.overflow message) ↔
      FloatText.ofInt n = none ∧ text "int too large to convert to float" = message := by
  unfold floatOfInt
  cases FloatText.ofInt n <;> simp

theorem floatOfText_ne_overflow {quoted : Text → Text} {t : Text} :
    floatOfText quoted t ≠ .error (.overflow message) := by
  unfold floatOfText
  simp only
  split <;> simp

theorem toFloat_overflow {quoted : Text → Text} {value : Value} :
    toFloat quoted value = .error (.overflow message) ↔
      ∃ n, value = .int n ∧ FloatText.ofInt n = none ∧
        text "int too large to convert to float" = message := by
  cases value <;> simp [toFloat, notANumber, floatOfInt_overflow, floatOfText_ne_overflow]

theorem followPath_ne_overflow {path : Text} {value : Value} {parts : List Text} :
    followPath path value parts ≠ .error (.overflow message) := by
  induction parts generalizing value with
  | nil => simp [followPath]
  | cons part parts ih =>
    cases value <;> simp only [followPath, ne_eq, reduceCtorEq, not_false_eq_true,
      Except.error.injEq]
    split
    · exact ih
    · simp

theorem numberOf_overflow {value : Value} :
    numberOf value = some (.error (.overflow message)) ↔
      ∃ n, value = .int n ∧ FloatText.ofInt n = none ∧
        text "int too large to convert to float" = message := by
  cases value <;> simp [numberOf, floatOfInt_overflow]

theorem error_bind {α β ε : Type} {e : ε} {f : α → Except ε β} :
    (Except.error e : Except ε α) >>= f = .error e := rfl

theorem ok_bind {α β ε : Type} {a : α} {f : α → Except ε β} :
    (Except.ok a : Except ε α) >>= f = f a := rfl

theorem fmap_eq_error {α β ε : Type} {f : α → β} {x : Except ε α} {e : ε} :
    f <$> x = .error e ↔ x = .error e := by
  cases x <;> simp

theorem callerTolerance_overflow :
    callerTolerance result = .error (.overflow message) ↔
      ∃ n, callerValue result = .int n ∧ FloatText.ofInt n = none ∧
        text "int too large to convert to float" = message := by
  rw [← numberOf_overflow]
  unfold callerTolerance
  cases numberOf (callerValue result) with
  | none => simp [unresolved]
  | some number => cases number <;> simp [unresolved, error_bind, ok_bind, fmap_eq_error]

theorem policyTolerance_overflow {policy : TolerancePolicy} {scale : FloatText} :
    policyTolerance result policy scale = .error (.overflow message) ↔
      text "int too large to convert to float" = message ∧
      (policy.kind = .ulp ∧ (∃ ulps ∈ policy.ulps, FloatText.ofInt ulps = none) ∨
        policy.kind = .callerSupplied ∧
          ∃ n, callerValue result = .int n ∧ FloatText.ofInt n = none) := by
  unfold policyTolerance
  cases hkind : policy.kind with
  | absolute => cases policy.absolute <;> simp [unresolved]
  | relative => cases policy.relative <;> simp [unresolved]
  | absoluteOrRelative => cases policy.absolute <;> cases policy.relative <;> simp
  | ulp =>
    cases policy.ulps with
    | none => simp [unresolved]
    | some ulps => simp [fmap_eq_error, floatOfInt_overflow, and_comm]
  | callerSupplied =>
    simp only [callerTolerance_overflow, reduceCtorEq, false_and, true_and, false_or]
    constructor
    · rintro ⟨n, hn, hlarge, hmessage⟩
      exact ⟨hmessage, n, hn, hlarge⟩
    · rintro ⟨hmessage, n, hn, hlarge⟩
      exact ⟨n, hn, hlarge, hmessage⟩

theorem toolComparisonTolerance_overflow {claimed : FloatText} {requested : Option FloatText} :
    (∃ message, toolComparisonTolerance result claimed calculated requested =
        .error (.overflow message)) ↔
      requested = none ∧ result.numericExactness = .floatingVerified ∧
        ∃ verification ∈ result.verification,
          verification.tolerance.kind = .ulp ∧
            (∃ ulps ∈ verification.tolerance.ulps, FloatText.ofInt ulps = none) ∨
          verification.tolerance.kind = .callerSupplied ∧
            ∃ n, callerValue result = .int n ∧ FloatText.ofInt n = none := by
  unfold toolComparisonTolerance
  cases requested with
  | some tolerance => simp
  | none =>
    cases result.numericExactness <;> cases result.verification <;>
      simp [policyTolerance_overflow]

theorem readComparison_overflow :
    (∃ message, readComparison outside check result = .error (.overflow message)) ↔
      Overflows outside check result := by
  unfold Overflows
  have hrequested : check.tolerance = none ↔ check.requested = none := Option.map_eq_none_iff.symm
  rw [hrequested]
  cases hvalue : lookupPath result.output check.outputPath with
  | error e =>
    have hne : ∀ message, e ≠ .overflow message := by
      rintro message rfl
      exact followPath_ne_overflow hvalue
    simp [readComparison, hvalue, hne, error_bind]
  | ok value =>
    cases hcalculated : toFloat outside.quoted value with
    | error e =>
      have hlarge : (∃ message, e = .overflow message) ↔
          ∃ n, value = .int n ∧ FloatText.ofInt n = none := by
        have hoverflow (message : Text) :
            toFloat outside.quoted value = .error (.overflow message) ↔ _ := toFloat_overflow
        simp only [hcalculated, Except.error.injEq] at hoverflow
        simp [hoverflow]
      simp [readComparison, hvalue, hcalculated, error_bind, ok_bind, hlarge]
    | ok calculated =>
      have hint : ¬ ∃ n, value = .int n ∧ FloatText.ofInt n = none := by
        rintro ⟨n, rfl, hlarge⟩
        have hoverflow : toFloat outside.quoted (.int n) = .error (.overflow _) :=
          toFloat_overflow.2 ⟨n, rfl, hlarge, rfl⟩
        rw [hcalculated] at hoverflow
        cases hoverflow
      have hread : ∃ value' calculated', (Except.ok value : Except PyError Value) = .ok value' ∧
          toFloat outside.quoted value' = .ok calculated' := ⟨value, calculated, rfl, hcalculated⟩
      simp only [Except.ok.injEq] at hread
      simp only [readComparison, hvalue, hcalculated, ok_bind, Except.ok.injEq, hint, false_or, hread,
        true_and, bind_pure_comp, fmap_eq_error]
      exact toolComparisonTolerance_overflow

/-! ## One check -/

theorem assessResult_ok (h : ¬ Overflows outside check result) :
    ∃ judgement, assessResult outside check result = .ok judgement := by
  rw [← readComparison_overflow] at h
  unfold assessResult
  cases hread : readComparison outside check result with
  | ok pair => exact ⟨_, rfl⟩
  | error e =>
    cases e with
    | overflow message => exact absurd ⟨message, hread⟩ h
    | key path => exact ⟨_, rfl⟩
    | type message => exact ⟨_, rfl⟩
    | value message => exact ⟨_, rfl⟩

theorem assessResult_error (h : Overflows outside check result) :
    ∃ e, assessResult outside check result = .error e := by
  obtain ⟨message, hread⟩ := readComparison_overflow.2 h
  exact ⟨.overflow message, by simp [assessResult, hread]⟩

theorem assessResult_assessment {claim : Claim} :
    assessResult outside check result = .ok (.assessment claim) ↔
      ∃ calculated tolerance, readComparison outside check result = .ok (calculated, tolerance) ∧
        calculated.isFinite = true ∧
        claim = if result.numericExactness.IsVerified
          then verifiedClaim check result calculated tolerance
          else estimateClaim check result calculated tolerance := by
  unfold assessResult
  cases hread : readComparison outside check result with
  | ok pair =>
    obtain ⟨calculated, tolerance⟩ := pair
    by_cases hfinite : calculated.isFinite = true
    · simp only [judge, if_pos hfinite, Except.ok.injEq, Judgement.assessment.injEq, Prod.mk.injEq]
      constructor
      · rintro rfl
        exact ⟨calculated, tolerance, ⟨rfl, rfl⟩, hfinite, rfl⟩
      · rintro ⟨_, _, ⟨rfl, rfl⟩, -, rfl⟩
        rfl
    · simp only [judge, if_neg hfinite, Except.ok.injEq, reduceCtorEq, Prod.mk.injEq, false_iff]
      rintro ⟨_, _, ⟨rfl, rfl⟩, hfinite', -⟩
      exact hfinite hfinite'
  | error e => cases e <;> simp

theorem assess_of_reaches (h : Reaches outside input rawCheck check result) :
    assess outside input rawCheck = assessResult outside check result := by
  obtain ⟨⟨items, rfl, hvalid⟩, hknown, hlast⟩ := h
  simp only [assess, hvalid, if_pos hknown, hlast]

theorem assess_of_not_reaches
    (h : ∀ check result, ¬ Reaches outside input rawCheck check result) :
    ∃ message, assess outside input rawCheck = .ok (.warning message) := by
  cases rawCheck with
  | obj items =>
    cases hvalid : outside.validateCheck items with
    | error message => simp only [assess, hvalid, Except.ok.injEq, Judgement.warning.injEq, exists_eq']
    | ok check =>
      by_cases hknown : check.claimId ∈ input.case.claims.map Claim.claimId
      · cases hlast : input.lastSuccess check.toolName with
        | none => simp only [assess, hvalid, if_pos hknown, hlast, Except.ok.injEq, Judgement.warning.injEq, exists_eq']
        | some result => exact absurd ⟨⟨items, rfl, hvalid⟩, hknown, hlast⟩ (h check result)
      · simp only [assess, hvalid, if_neg hknown, Except.ok.injEq, Judgement.warning.injEq, exists_eq']
  | _ => exact ⟨_, rfl⟩

/-- A check reaches one result at most. -/
theorem Reaches.unique {check' : ClaimCheck} {result' : ToolResult}
    (h : Reaches outside input rawCheck check result)
    (h' : Reaches outside input rawCheck check' result') : check = check' ∧ result = result' := by
  obtain ⟨⟨items, rfl, hvalid⟩, -, hlast⟩ := h
  obtain ⟨⟨items', hitems, hvalid'⟩, -, hlast'⟩ := h'
  cases hitems
  obtain rfl : check = check' := by simpa [hvalid] using hvalid'
  exact ⟨rfl, by simpa [hlast] using hlast'⟩

/-- A float that was read from a finite number has an exact value. -/
theorem exists_exactValue {quoted : Text → Text} {value : Value}
    (h : toFloat quoted value = .ok calculated) (hfinite : calculated.isFinite = true) :
    ∃ exact, exactValue quoted value = some exact := by
  cases calculated with
  | finite q => cases value <;> simp_all [exactValue]
  | infinite negative => simp [FloatText.isFinite] at hfinite
  | nan => simp [FloatText.isFinite] at hfinite

/-! ## The loop -/

theorem assessAll_cons {checks : List Value} {output : AdjudicationOutput} :
    assessAll outside input (rawCheck :: checks) output =
      assess outside input rawCheck >>= fun judgement =>
        assessAll outside input checks (output.record judgement) := by
  simp [assessAll]

/-- The loop ends exactly when no check raises an error. -/
theorem assessAll_ok_iff {checks : List Value} {output : AdjudicationOutput} :
    (∃ output', assessAll outside input checks output = .ok output') ↔
      ∀ rawCheck ∈ checks, ∃ judgement, assess outside input rawCheck = .ok judgement := by
  induction checks generalizing output with
  | nil => simp [assessAll]
  | cons rawCheck checks ih =>
    rw [assessAll_cons, List.forall_mem_cons]
    cases hassess : assess outside input rawCheck with
    | error e => simp [error_bind]
    | ok judgement => simp [ok_bind, ih]

theorem assessAll_claimAssessments {checks : List Value} {output output' : AdjudicationOutput}
    (h : assessAll outside input checks output = .ok output') :
    output'.claimAssessments =
      output.claimAssessments ++ checks.filterMap (assessmentOf outside input) := by
  induction checks generalizing output with
  | nil =>
    obtain rfl : output = output' := by simpa [assessAll] using h
    simp
  | cons rawCheck checks ih =>
    rw [assessAll_cons] at h
    cases hassess : assess outside input rawCheck with
    | error e => simp [hassess, error_bind] at h
    | ok judgement =>
      rw [hassess, ok_bind] at h
      rw [ih h]
      cases judgement with
      | warning message => simp [AdjudicationOutput.record, assessmentOf, hassess]
      | assessment claim => simp [AdjudicationOutput.record, assessmentOf, hassess]

/-- A list of checks is run through the loop; only the last warning is added. -/
theorem adjudicate_arr {checks : List Value} (h : input.case.claimChecks = .arr checks) :
    adjudicate outside input =
      assessAll outside input checks { claimAssessments := input.case.claims } >>= fun output =>
        .ok (if input.case.claims ≠ [] ∧ checks = [] then
          { output with dataQuality := output.dataQuality ++ [UNVERIFIED_CLAIM_WARNING] }
          else output) := by
  simp only [adjudicate, h]
  congr
  funext output
  split <;> rfl

theorem adjudicate_ok_iff :
    (∃ output, adjudicate outside input = .ok output) ↔
      ∀ rawCheck ∈ input.case.checks, ∃ judgement, assess outside input rawCheck = .ok judgement := by
  cases hchecks : input.case.claimChecks with
  | arr checks =>
    have hiff : (∃ output, assessAll outside input checks { claimAssessments := input.case.claims } =
        .ok output) ↔ _ := assessAll_ok_iff
    rw [CaseInput.checks, hchecks, ← hiff, adjudicate_arr hchecks]
    cases assessAll outside input checks { claimAssessments := input.case.claims } <;>
      simp [ok_bind, error_bind]
  | _ => simp [adjudicate, CaseInput.checks, hchecks]

theorem adjudicate_claimAssessments {output : AdjudicationOutput}
    (h : adjudicate outside input = .ok output) :
    output.claimAssessments =
      input.case.claims ++ input.case.checks.filterMap (assessmentOf outside input) := by
  cases hchecks : input.case.claimChecks with
  | arr checks =>
    rw [adjudicate_arr hchecks, bind_eq_ok] at h
    obtain ⟨recorded, hrecorded, h⟩ := h
    rw [CaseInput.checks, hchecks, ← assessAll_claimAssessments hrecorded, ← Except.ok.inj h]
    split <;> rfl
  | _ =>
    simp only [adjudicate, hchecks, Except.ok.injEq] at h
    simp [CaseInput.checks, hchecks, ← h]

/-! ## The assessments -/

theorem mem_assessmentOf {claim : Claim} :
    claim ∈ assessmentOf outside input rawCheck ↔
      assess outside input rawCheck = .ok (.assessment claim) := by
  unfold assessmentOf
  split <;> simp_all

/-- An assessment of a verified result comes from a comparison. -/
theorem exists_compared {claim : Claim} (h : claim ∈ assessmentOf outside input rawCheck) :
    claim.label = .estimate ∨
      ∃ check result exact calculated tolerance,
        Compared outside input rawCheck check result exact calculated tolerance ∧
          claim = verifiedClaim check result calculated tolerance := by
  rw [mem_assessmentOf] at h
  by_cases hreaches : ∃ check result, Reaches outside input rawCheck check result
  · obtain ⟨check, result, hreaches⟩ := hreaches
    rw [assess_of_reaches hreaches, assessResult_assessment] at h
    obtain ⟨calculated, tolerance, hread, hfinite, rfl⟩ := h
    split
    · rename_i hverified
      simp only [readComparison, bind_eq_ok, pure_eq_ok, Prod.mk.injEq] at hread
      obtain ⟨value, hvalue, _, hcalculated, _, hresolved, rfl, rfl⟩ := hread
      obtain ⟨exact, hexact⟩ := exists_exactValue hcalculated hfinite
      exact .inr ⟨check, result, exact, _, _, ⟨hreaches, hverified,
        ⟨value, hvalue, hcalculated, hexact⟩, hfinite, hresolved⟩, rfl⟩
    · exact .inl rfl
  · simp only [not_exists] at hreaches
    obtain ⟨message, hmessage⟩ := assess_of_not_reaches hreaches
    rw [hmessage] at h
    cases h

/-- A comparison comes to the assessment of its result. -/
theorem Compared.assessment {exact : ℚ}
    (h : Compared outside input rawCheck check result exact calculated tolerance) :
    verifiedClaim check result calculated tolerance ∈ assessmentOf outside input rawCheck := by
  obtain ⟨value, hvalue, hcalculated, -⟩ := h.value
  have hread : readComparison outside check result = .ok (calculated, tolerance) := by
    simp only [readComparison, hvalue, ok_bind, hcalculated, h.resolved]
    rfl
  rw [mem_assessmentOf, assess_of_reaches h.reaches, assessResult_assessment]
  exact ⟨calculated, tolerance, hread, h.finite, (if_pos h.verified).symm⟩

/-- A check is compared in one way at most. -/
theorem Compared.unique {exact exact' : ℚ} {check' : ClaimCheck} {result' : ToolResult}
    {calculated' tolerance' : FloatText}
    (h : Compared outside input rawCheck check result exact calculated tolerance)
    (h' : Compared outside input rawCheck check' result' exact' calculated' tolerance') :
    check = check' ∧ exact = exact' ∧ calculated = calculated' ∧ tolerance = tolerance' := by
  obtain ⟨rfl, rfl⟩ := h.reaches.unique h'.reaches
  obtain ⟨value, hvalue, hcalculated, hexact⟩ := h.value
  obtain ⟨value', hvalue', hcalculated', hexact'⟩ := h'.value
  obtain rfl : value = value' := by simpa [hvalue] using hvalue'
  obtain rfl : calculated = calculated' := by simpa [hcalculated] using hcalculated'
  refine ⟨rfl, by simpa [hexact] using hexact', rfl, ?_⟩
  have hresolved := h.resolved
  rw [h'.resolved] at hresolved
  exact (Except.ok.inj hresolved).symm

theorem Compared.differs_iff {exact : ℚ}
    (h : Compared outside input rawCheck check result exact calculated tolerance) :
    Differs outside input rawCheck ↔ Exceeds |exact - check.claimedValue| tolerance := by
  constructor
  · rintro ⟨check', result', exact', calculated', tolerance', h', hexceeds⟩
    obtain ⟨rfl, rfl, rfl, rfl⟩ := h.unique h'
    exact hexceeds
  · intro hexceeds
    exact ⟨check, result, exact, calculated, tolerance, h, hexceeds⟩

/-- With the condition, a text asks for a correction exactly when the numbers
do. -/
theorem ReadsExactly.correction_iff {claim : Claim} (h : ReadsExactly outside input)
    (hraw : rawCheck ∈ input.case.checks) (hclaim : claim ∈ assessmentOf outside input rawCheck) :
    isVerifiedClaimCorrection claim = true ↔ Differs outside input rawCheck := by
  rcases exists_compared hclaim with
    hestimate | ⟨check, result, exact, calculated, tolerance, hcompared, rfl⟩
  · refine iff_of_false (by simp [isVerifiedClaimCorrection, hestimate]) ?_
    rintro ⟨check, result, exact, calculated, tolerance, hcompared, -⟩
    have hclaim' := hcompared.assessment
    rw [Option.mem_def] at hclaim hclaim'
    rw [Option.some.inj (hclaim.symm.trans hclaim')] at hestimate
    cases hestimate
  · rw [isVerifiedClaimCorrection_verifiedClaim, hcompared.differs_iff]
    by_cases hphrase : CORRECTION_PHRASE <:+: check.claimId
    · exact iff_of_true (.inl hphrase)
        (h.named rawCheck hraw check result exact calculated tolerance hcompared hphrase)
    · rw [or_iff_right hphrase]
      exact h.rounded rawCheck hraw check result exact calculated tolerance hcompared hphrase

end

/-! ## The report -/

section

variable {outside : Outside} {present : FinalReport → Except Text FinalReport}
  {input : AdjudicationInput} {output : AdjudicationOutput} {runId : Text} {value : SynthesisInput}
  {report : FinalReport}

theorem synthesize_ok
    (hpresent : ∀ report presented, present report = .ok presented →
      presented.conclusion = report.conclusion ∧ presented.confidence = report.confidence)
    (h : synthesize present runId value = .ok report) :
    report.conclusion = value.conclusion ∧ report.confidence = value.confidence := by
  simp only [synthesize, require_bind_eq_ok] at h
  obtain ⟨-, -, h⟩ := h
  exact hpresent _ _ h

theorem conclusion_eq_correction_iff :
    value.conclusion = SynthesisInput.correctionConclusion ↔
      ¬ value.Preempted ∧ value.corrections ≠ [] := by
  unfold SynthesisInput.conclusion SynthesisInput.Preempted
  split_ifs with hblocked hreview hlimited hcorrections <;>
    simp_all [SynthesisInput.correctionConclusion, SynthesisInput.blockedConclusion,
      SynthesisInput.reviewConclusion, SynthesisInput.limitedConclusion]

theorem confidence_eq_a (h : value.confidence = .a) :
    (∀ result ∈ value.toolResults, result.status = .success → result.numericExactness.IsVerified) ∧
      (∀ result ∈ value.toolResults, result.status ≠ .failed) ∧ value.dataQuality = [] ∧
      (∀ claim ∈ value.case.claims, claim.claimId ∈ value.adjudicatedClaimIds) ∧
      ∀ dispute ∈ value.disputes, dispute.unresolved = false := by
  unfold SynthesisInput.confidence at h
  split at h
  · cases h
  · split at h
    · rename_i hall
      obtain ⟨-, hverified, hfailed, hquality, hclaims, hdisputes⟩ := hall
      refine ⟨fun result hresult hsuccess => ?_, ?_, hquality, ?_, ?_⟩
      · have hverified := List.length_filter_eq_length_iff.1 hverified result
          (List.mem_filter.2 ⟨hresult, by simpa using hsuccess⟩)
        simpa using hverified
      · simpa [SynthesisInput.failed] using hfailed
      · simpa [SynthesisInput.hasUnverifiedMaterialClaim] using hclaims
      · simpa using hdisputes
    · split at h <;> cases h

/-- An adjudicated id is that of a check that was compared. -/
theorem exists_compared_of_adjudicated {id : Text}
    (hassessments : output.claimAssessments =
      input.case.claims ++ input.case.checks.filterMap (assessmentOf outside input))
    (hcarries : Carries input output value) (h : id ∈ value.adjudicatedClaimIds) :
    ∃ rawCheck ∈ input.case.checks, ∃ check result exact calculated tolerance,
      Compared outside input rawCheck check result exact calculated tolerance ∧
        check.claimId = id := by
  simp only [SynthesisInput.adjudicatedClaimIds, List.mem_map, List.mem_filter, decide_eq_true_eq,
    hcarries.claimAssessments, hassessments, List.mem_append, List.mem_filterMap] at h
  obtain ⟨claim, ⟨hsent | ⟨rawCheck, hraw, hclaim⟩, -, hlabel, -⟩, rfl⟩ := h
  · rw [(input.case.untrusted claim hsent).1] at hlabel
    cases hlabel
  · rcases exists_compared hclaim with
      hestimate | ⟨check, result, exact, calculated, tolerance, hcompared, rfl⟩
    · rw [hestimate] at hlabel
      cases hlabel
    · exact ⟨rawCheck, hraw, check, result, exact, calculated, tolerance, hcompared,
        (withoutPrefix_append check.claimId).symm⟩

/-- The corrections a synthesis finds are the checks that differ. -/
theorem corrections_ne_nil_iff (hreads : ReadsExactly outside input)
    (hassessments : output.claimAssessments =
      input.case.claims ++ input.case.checks.filterMap (assessmentOf outside input))
    (hcarries : Carries input output value) :
    value.corrections ≠ [] ↔ ∃ rawCheck ∈ input.case.checks, Differs outside input rawCheck := by
  have hmem : value.corrections ≠ [] ↔ ∃ claim, claim ∈ value.corrections :=
    ⟨List.exists_mem_of_ne_nil _, fun ⟨_, h⟩ => List.ne_nil_of_mem h⟩
  rw [hmem]
  simp only [SynthesisInput.corrections, List.mem_filter, hcarries.claimAssessments, hassessments,
    List.mem_append, List.mem_filterMap]
  constructor
  · rintro ⟨claim, hsent | ⟨rawCheck, hraw, hclaim⟩, hcorrection⟩
    · rw [isVerifiedClaimCorrection_untrusted (input.case.untrusted claim hsent)] at hcorrection
      cases hcorrection
    · exact ⟨rawCheck, hraw, (hreads.correction_iff hraw hclaim).1 hcorrection⟩
  · rintro ⟨rawCheck, hraw, hdiffers⟩
    obtain ⟨check, result, exact, calculated, tolerance, hcompared, -⟩ := id hdiffers
    exact ⟨_, .inr ⟨rawCheck, hraw, hcompared.assessment⟩,
      (hreads.correction_iff hraw hcompared.assessment).2 hdiffers⟩

theorem ReadsExactly.sound
    (hpresent : ∀ report presented, present report = .ok presented →
      presented.conclusion = report.conclusion ∧ presented.confidence = report.confidence)
    (hreads : ReadsExactly outside input) (h : adjudicate outside input = .ok output) :
    Sound outside present input output where
  assessments := adjudicate_claimAssessments h
  sent claim hclaim := isVerifiedClaimCorrection_untrusted (input.case.untrusted claim hclaim)
  corrections rawCheck hraw claim hclaim := hreads.correction_iff hraw hclaim
  conclusion runId value report hcarries hreport := by
    rw [(synthesize_ok hpresent hreport).1, conclusion_eq_correction_iff,
      corrections_ne_nil_iff hreads (adjudicate_claimAssessments h) hcarries]
  confidence runId value report hcarries hreport hconfidence := by
    rw [(synthesize_ok hpresent hreport).2] at hconfidence
    obtain ⟨hsuccesses, hfailures, hwarnings, hclaims, hdisputes⟩ := confidence_eq_a hconfidence
    rw [hcarries.toolResults] at hsuccesses hfailures
    rw [hcarries.case] at hclaims
    exact {
      claims := fun claim hclaim => exists_compared_of_adjudicated (adjudicate_claimAssessments h)
        hcarries (hclaims claim hclaim)
      successes := hsuccesses
      failures := hfailures
      warnings := hwarnings
      disputes := hdisputes }

end

/-! ## The condition is exact -/

/-- A check with the four required keys. -/
def readCheck (items : Items) : Except Text ClaimCheck :=
  match items.lookup (text "claim_id"), items.lookup (text "tool_name"),
    items.lookup (text "output_path"), items.lookup (text "claimed_value") with
  | some (.str claimId), some (.str toolName), some (.str outputPath),
    some (.float (.finite claimedValue)) => .ok { claimId, toolName, outputPath, claimedValue }
  | _, _, _, _ => .error (text "Field required")

def sampleOutside : Outside where
  validateCheck := readCheck
  quoted t := text "'" ++ t ++ text "'"

def sampleCheck (id : Text) : ClaimCheck where
  claimId := id
  toolName := text "pot_odds"
  outputPath := text "pot_odds"
  claimedValue := 1

def rawSample (id : Text) : Value :=
  .obj [(text "claim_id", .str id), (text "tool_name", .str (text "pot_odds")),
    (text "output_path", .str (text "pot_odds")), (text "claimed_value", .float (.finite 1))]

def sampleResult : ToolResult where
  resultId := text "tool-result-1"
  toolName := text "pot_odds"
  input := []
  output := [(text "pot_odds", .float (.finite 1))]
  status := .success
  exactness := .exact
  numericExactness := .exact
  contract := by decide

/-- One claim with the given id, which the tool agrees with. -/
def agreeing (id : Text) : AdjudicationInput where
  case := {
    kind := .claim
    claims := [{ claimId := id, text := text "one", label := .userClaim }]
    metadata := [(text "claim_checks", .arr [rawSample id])]
    untrusted := by simp [Claim.Untrusted] }
  toolResults := [sampleResult]

theorem agreeing_compared (id : Text) :
    Compared sampleOutside (agreeing id) (rawSample id) (sampleCheck id) sampleResult 1 (.finite 1)
      (.finite 0) where
  reaches := {
    valid := ⟨_, rfl, rfl⟩
    known := by simp [agreeing, sampleCheck]
    last := by rfl }
  verified := .inl rfl
  value := ⟨.float (.finite 1), by rfl, rfl, rfl⟩
  finite := rfl
  resolved := rfl

theorem agreeing_not_differs (id : Text) :
    ¬ Differs sampleOutside (agreeing id) (rawSample id) := by
  rw [(agreeing_compared id).differs_iff]
  simp [Exceeds, sampleCheck]

end PokerDeliberation.Phases
