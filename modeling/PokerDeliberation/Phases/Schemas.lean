import PokerDeliberation.Hands.Schemas
import PokerDeliberation.Lib.Binary64
import PokerDeliberation.Lib.Checked
import PokerDeliberation.Lib.Json.Value

/-!
# Claims, cases and tool results

What the phases pass to each other. A case cannot hold a claim that its sender
has graded: `require_input` makes every claim a `USER_CLAIM` with confidence C
at most. A tool result agrees with its numeric contract.
-/

namespace PokerDeliberation.Phases

open Lib Hands

/-- A value of an input or an output: JSON with machine floats. -/
abbrev Value := Json.Value FloatText

/-- A dictionary: its items in order. -/
abbrev Items := List (Text × Value)

inductive EpistemicLabel where
  | fact | calculated | inference | estimate | assumption | userClaim | unknown
  deriving DecidableEq, Repr

inductive ConfidenceGrade where
  | a | b | c | d
  deriving DecidableEq, Repr

inductive Exactness where
  | exact | approximate | unavailable
  deriving DecidableEq, Repr

inductive NumericalExactness where
  | exact | exactUnderModel | floatingVerified | approximate | unavailable
  deriving DecidableEq, Repr

namespace NumericalExactness

def value : NumericalExactness → Text
  | exact => text "exact"
  | exactUnderModel => text "exact-under-model"
  | floatingVerified => text "floating-verified"
  | approximate => text "approximate"
  | unavailable => text "unavailable"

/-- The classes a result is compared exactly in. -/
def IsVerified (numeric : NumericalExactness) : Prop :=
  numeric = exact ∨ numeric = exactUnderModel ∨ numeric = floatingVerified

instance : DecidablePred IsVerified := fun numeric =>
  inferInstanceAs (Decidable (numeric = exact ∨ numeric = exactUnderModel ∨
    numeric = floatingVerified))

def projection : NumericalExactness → Exactness
  | exact | exactUnderModel | floatingVerified => .exact
  | approximate => .approximate
  | unavailable => .unavailable

end NumericalExactness

inductive ToolStatus where
  | success | failed | unavailable
  deriving DecidableEq, Repr

/-! ## Cases -/

structure Claim where
  claimId : Text
  text : Text
  label : EpistemicLabel
  confidence : ConfidenceGrade := .c
  evidenceIds : List Text := []
  limitations : List Text := []
  deriving DecidableEq

structure FocalDecision where
  street : Street
  actionIndex : Nat
  actor : String
  deriving DecidableEq

inductive CaseKind where
  | hand | strategy | claim | calculation
  deriving DecidableEq, Repr

/-- The fields of a case before `require_input`. -/
structure CaseFields where
  kind : CaseKind
  rawText : Option Text := none
  hand : Option CanonicalHand := none
  focalDecision : Option FocalDecision := none
  claims : List Claim := []
  requestedTools : List Text := []
  metadata : Items := []

/-- A claim as `require_input` leaves it. -/
def Claim.normalized (claim : Claim) : Claim :=
  let graded := claim.confidence = .a ∨ claim.confidence = .b
  { claim with
    label := .userClaim
    confidence := if graded then .c else claim.confidence
    limitations :=
      if claim.label ≠ .userClaim ∨ graded then
        claim.limitations ++
          [Lib.text "Input-supplied epistemic labels are untrusted; normalized to USER_CLAIM/C."]
      else claim.limitations }

/-- A claim whose labels are those of a sender. -/
def Claim.Untrusted (claim : Claim) : Prop :=
  claim.label = .userClaim ∧ claim.confidence ≠ .a ∧ claim.confidence ≠ .b

theorem Claim.normalized_untrusted (claim : Claim) : claim.normalized.Untrusted := by
  refine ⟨rfl, ?_, ?_⟩ <;> cases h : claim.confidence <;> simp [Claim.normalized, h]

structure CaseInput extends CaseFields where
  untrusted : ∀ claim ∈ claims, claim.Untrusted

def checkFocalDecision (fields : CaseFields) : Except Text Unit :=
  match fields.focalDecision with
  | none => .ok ()
  | some focal => do
    let some hand := fields.hand | throw (text "focal_decision requires a canonical hand")
    let some action := hand.actions[focal.actionIndex]? |
      throw (text "focal_decision.action_index is outside hand.actions")
    require (action.street = focal.street ∧ action.actor = focal.actor)
      (text "focal_decision must match the indexed hand action")

/-- `CaseInput.require_input`. -/
def requireInput (fields : CaseFields) : Except Text CaseInput := do
  require (fields.rawText.getD [] ≠ [] ∨ fields.hand.isSome ∨ fields.claims ≠ [] ∨
    fields.requestedTools ≠ []) (text "at least one analyzable input is required")
  checkFocalDecision fields
  return {
    fields with
    claims := fields.claims.map Claim.normalized
    untrusted := by
      intro claim hclaim
      obtain ⟨sent, -, rfl⟩ := List.mem_map.1 hclaim
      exact sent.normalized_untrusted }

/-! ## Claim checks -/

structure ClaimCheck where
  claimId : Text
  toolName : Text
  outputPath : Text
  claimedValue : ℚ
  tolerance : Option NNRat := none
  unit : Option Text := none

/-- The requested tolerance as a float. -/
def ClaimCheck.requested (check : ClaimCheck) : Option FloatText :=
  check.tolerance.map fun (t : NNRat) => FloatText.finite t

/-! ## Tool results -/

inductive ToleranceKind where
  | absolute | relative | absoluteOrRelative | ulp | callerSupplied
  deriving DecidableEq, Repr

structure TolerancePolicy where
  kind : ToleranceKind
  absolute : Option NNRat := none
  relative : Option NNRat := none
  ulps : Option Nat := none
  formula : Option Text := none

/-- `TolerancePolicy.require_bound`. -/
def TolerancePolicy.requireBound (policy : TolerancePolicy) : Except Text Unit := do
  require (policy.kind = .absolute → policy.absolute.isSome)
    (text "absolute tolerance requires an absolute bound")
  require (policy.kind = .relative → policy.relative.isSome)
    (text "relative tolerance requires a relative bound")
  require (policy.kind = .absoluteOrRelative → policy.absolute.isSome ∧ policy.relative.isSome)
    (text "absolute-or-relative tolerance requires both bounds")
  require (policy.kind = .ulp → policy.ulps.isSome) (text "ulp tolerance requires an ulps bound")
  require (policy.kind = .callerSupplied → policy.formula.getD [] ≠ [])
    (text "caller-supplied tolerance requires a formula")

structure VerificationMetadata where
  tolerance : TolerancePolicy
  bounded : tolerance.requireBound = .ok ()
  passed : Bool

structure ToolFields where
  resultId : Text
  toolName : Text
  input : Items
  output : Items := []
  status : ToolStatus
  exactness : Exactness
  numericExactness : NumericalExactness
  contractVersion : Text := text "1.0.0"
  modelQualifier : Option Text := none
  method : Option Text := none
  stochastic : Option Bool := none
  seed : Option Int := none
  samples : Option Nat := none
  iterations : Option Nat := none
  confidenceInterval : Option (FloatText × FloatText) := none
  /-- whether there is error metadata -/
  errorMetadata : Bool := false
  stoppingCondition : Option Text := none
  verification : Option VerificationMetadata := none
  warnings : List Text := []
  error : Option Text := none

namespace ToolFields

/-- What the second contract version adds for a successful result. -/
def validateV2 (fields : ToolFields) : Except Text Unit := do
  require (fields.numericExactness = .exactUnderModel → fields.modelQualifier.getD [] ≠ [])
    (text "exact-under-model results require model_qualifier")
  require (fields.numericExactness = .floatingVerified →
      fields.verification.any VerificationMetadata.passed)
    (text "floating-verified results require passed verification metadata")
  if fields.numericExactness = .approximate then
    require (fields.method.getD [] ≠ []) (text "approximate results require method")
    require fields.stochastic.isSome
      (text "approximate results require stochastic=true/false")
    require (fields.stochastic = some true → fields.seed.isSome)
      (text "stochastic approximate results require seed")
    require (0 < fields.samples.getD 0 ∨ 0 < fields.iterations.getD 0)
      (text "approximate results require positive samples or iterations")
    require (fields.confidenceInterval.isSome ∨ fields.errorMetadata)
      (text "approximate results require an interval or error metadata")
    require (fields.stoppingCondition.getD [] ≠ [])
      (text "approximate results require a stopping condition")

/-- `ToolResult.validate_numeric_contract`. -/
def validateNumericContract (fields : ToolFields) : Except Text Unit := do
  require (fields.numericExactness.projection = fields.exactness)
    (text "exactness must be the compatibility projection of numeric_exactness")
  require (∀ interval ∈ fields.confidenceInterval,
      interval.1.isFinite ∧ interval.2.isFinite ∧ ¬ interval.1.gt interval.2)
    (text "confidence_interval must contain ordered finite bounds")
  if fields.status = .success then
    require (fields.numericExactness ≠ .unavailable)
      (text "successful results cannot have unavailable numeric exactness")
    require (fields.error = none) (text "successful results cannot carry an error")
  else
    require (fields.numericExactness = .unavailable)
      (text "failed/unavailable results require unavailable numeric exactness")
    require (fields.exactness = .unavailable)
      (text "failed/unavailable results require unavailable legacy exactness")
    require (fields.status = .failed → fields.output = [])
      (text "failed results cannot carry output values")
  if text "2." <+: fields.contractVersion ∧ fields.status = .success then fields.validateV2

end ToolFields

structure ToolResult extends ToolFields where
  contract : toToolFields.validateNumericContract = .ok ()

end PokerDeliberation.Phases
