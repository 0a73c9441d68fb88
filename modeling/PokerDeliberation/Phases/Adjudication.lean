import PokerDeliberation.Phases.Schemas

/-!
# Adjudication

`AdjudicationService.run` holds each claim check of a case against the last
result of its tool. The verdict is one text: the claim's id, the two numbers as
they are written, and whether they agree. An integer too large for a float
raises an error that nothing catches.
-/

namespace PokerDeliberation.Phases

open Lib

/-- The errors reading a number may raise. -/
inductive PyError where
  | key (path : Text)
  | type (message : Text)
  | value (message : Text)
  | overflow (message : Text)
  deriving DecidableEq

/-- `str` of an error. -/
def PyError.message : PyError → Text
  | .key path => text "'" ++ path ++ text "'"
  | .type message | .value message | .overflow message => message

def UNVERIFIED_CLAIM_WARNING : Text :=
  text "ユーザー主張は入力として保存しましたが、検証条件がないため真偽未判定です。"

/-- What lies outside the services: reading a check from a dictionary, and how a
text is quoted. -/
structure Outside where
  validateCheck : Items → Except Text ClaimCheck
  quoted : Text → Text

/-! ## Reading a number -/

/-- The loop of `_lookup_path`. -/
def followPath (path : Text) : Value → List Text → Except PyError Value
  | current, [] => .ok current
  | .obj items, part :: parts =>
    match items.lookup part with
    | some current => followPath path current parts
    | none => .error (.key path)
  | _, _ :: _ => .error (.key path)

def lookupPath (value : Items) (path : Text) : Except PyError Value :=
  followPath path (.obj value) (path.splitOn 0x2e)

/-- `float` of a text. A surrogate is no part of a number. -/
def floatOfText (quoted : Text → Text) (t : Text) : Except PyError FloatText :=
  let number := if t.all fun c => c.isValidChar then float binary64 (t.map Char.ofNat) else none
  match number with
  | some x => .ok x
  | none => .error (.value (text "could not convert string to float: " ++ quoted t))

def floatOfInt (n : Int) : Except PyError FloatText :=
  match FloatText.ofInt n with
  | some x => .ok x
  | none => .error (.overflow (text "int too large to convert to float"))

def notANumber (type : Text) : PyError :=
  .type (text "float() argument must be a string or a real number, not '" ++ type ++ text "'")

/-- `float`. -/
def toFloat (quoted : Text → Text) : Value → Except PyError FloatText
  | .float x => .ok x
  | .int n => floatOfInt n
  | .bool b => .ok (.finite (if b then 1 else 0))
  | .str t => floatOfText quoted t
  | .null => .error (notANumber (text "NoneType"))
  | .arr _ => .error (notANumber (text "list"))
  | .obj _ => .error (notANumber (text "dict"))

/-! ## The tolerance -/

/-- `isinstance(value, (int, float))` with the float of the value. -/
def numberOf : Value → Option (Except PyError FloatText)
  | .float x => some (.ok x)
  | .int n => some (floatOfInt n)
  | .bool b => some (.ok (.finite (if b then 1 else 0)))
  | _ => none

/-- The bound of a caller: of the input, else of the output. -/
def callerValue (result : ToolResult) : Value :=
  (result.input.lookup (text "tolerance")).getD
    ((result.output.lookup (text "verification_tolerance")).getD .null)

def unresolved : PyError := .value (text "the tool-specific tolerance cannot be resolved")

/-- The branch of a caller-supplied tolerance. -/
def callerTolerance (result : ToolResult) : Except PyError FloatText := do
  let some number := numberOf (callerValue result) | throw unresolved
  let tolerance ← number
  require (tolerance.isFinite ∧ (FloatText.finite 0).le tolerance) unresolved
  return tolerance

/-- The branch of a floating-verified result. -/
def policyTolerance (result : ToolResult) (policy : TolerancePolicy) (scale : FloatText) :
    Except PyError FloatText :=
  match policy.kind with
  | .absolute =>
    match policy.absolute with
    | some absolute => .ok (.finite absolute)
    | none => .error unresolved
  | .relative =>
    match policy.relative with
    | some relative => .ok ((FloatText.finite relative).mul scale)
    | none => .error unresolved
  | .absoluteOrRelative =>
    match policy.absolute, policy.relative with
    | some absolute, some relative =>
      .ok ((FloatText.finite absolute).max ((FloatText.finite relative).mul scale))
    | _, _ => .error (.value (text "incomplete absolute-or-relative tolerance policy"))
  | .ulp =>
    match policy.ulps with
    | some ulps => do return scale.ulp.mul (← floatOfInt ulps)
    | none => .error unresolved
  | .callerSupplied => callerTolerance result

/-- `_tool_comparison_tolerance`. -/
def toolComparisonTolerance (result : ToolResult) (claimed calculated : FloatText)
    (requested : Option FloatText) : Except PyError FloatText :=
  match requested with
  | some tolerance => .ok tolerance
  | none =>
    match result.numericExactness, result.verification with
    | .exact, _ | .exactUnderModel, _ | .approximate, _ => .ok (.finite 0)
    | .floatingVerified, some verification =>
      policyTolerance result verification.tolerance
        ((claimed.abs.max calculated.abs).max (.finite 1))
    | .floatingVerified, none | .unavailable, _ =>
      .error (.value (text "no comparison tolerance is available for this result"))

/-! ## One check -/

/-- `abs(calculated - claimed) <= tolerance`. -/
def agrees (calculated claimed tolerance : FloatText) : Bool :=
  (calculated.sub claimed).abs.le tolerance

/-- The text about a verified result. -/
def verifiedText (check : ClaimCheck) (calculated tolerance : FloatText) : Text :=
  let claimed := FloatText.finite check.claimedValue
  let verdict :=
    if agrees calculated claimed tolerance then text "一致します"
    else text "一致せず、訂正が必要です"
  check.claimId ++ text ": USER_CLAIM=" ++ claimed.repr ++ text " は CALCULATED=" ++
    calculated.repr ++ text "と" ++ verdict ++ text "。"

/-- The verdict of an estimate against its interval, or against its point when
there is none, and the limit that goes with it. -/
def estimateVerdict (result : ToolResult) (claimed calculated tolerance : FloatText) :
    Text × Text :=
  let point :=
    (if agrees calculated claimed tolerance then text "点推定と一致します"
      else text "点推定と一致しません",
     text "この近似結果には利用可能な信頼区間がありません。")
  match result.confidenceInterval with
  | none => point
  | some (low, high) =>
    if low.isFinite && high.isFinite && low.le high then
      let inInterval := (low.sub tolerance).le claimed && claimed.le (high.add tolerance)
      (text "95%信頼区間[" ++ low.repr ++ text ", " ++ high.repr ++ text "]" ++
        (if inInterval then text "内です" else text "外です"),
       text "信頼区間はツールが報告した近似誤差範囲です。")
    else point

def estimateText (check : ClaimCheck) (calculated : FloatText) (verdict : Text) : Text :=
  check.claimId ++ text ": USER_CLAIM=" ++ (FloatText.finite check.claimedValue).repr ++
    text " は ESTIMATE(point)=" ++ calculated.repr ++ text "について" ++ verdict ++ text "。" ++
    text "近似値のためexactな訂正とは扱いません。"

/-- What every assessment says of its extent. -/
def extent (check : ClaimCheck) : List Text :=
  (text "検証範囲は " ++ check.toolName ++ text "." ++ check.outputPath ++
    text " の数値比較です。") ::
  match check.unit with
  | some (c :: unit) => [text "単位: " ++ c :: unit]
  | _ => []

/-- The id of an assessment. -/
def PREFIX : Text := text "adjudication-"

/-- The assessment of a verified result. -/
def verifiedClaim (check : ClaimCheck) (result : ToolResult) (calculated tolerance : FloatText) :
    Claim where
  claimId := PREFIX ++ check.claimId
  text := verifiedText check calculated tolerance
  label := .calculated
  confidence := .a
  limitations := extent check ++
    [Lib.text "numeric_exactness: " ++ result.numericExactness.value,
      Lib.text "comparison tolerance: " ++ tolerance.repr] ++
    match result.modelQualifier with
    | some (c :: qualifier) => [Lib.text "model qualifier: " ++ c :: qualifier]
    | _ => []

/-- The assessment of an estimate. -/
def estimateClaim (check : ClaimCheck) (result : ToolResult) (calculated tolerance : FloatText) :
    Claim :=
  let (verdict, intervalLimit) :=
    estimateVerdict result (.finite check.claimedValue) calculated tolerance
  { claimId := PREFIX ++ check.claimId
    text := estimateText check calculated verdict
    label := .estimate
    confidence := .c
    limitations := extent check ++
      [check.toolName ++ text " のnumeric_exactnessは " ++ result.numericExactness.value ++
        text " です。", intervalLimit] }

/-- What a check comes to: a warning or an assessment. -/
inductive Judgement where
  | warning (message : Text)
  | assessment (claim : Claim)

structure AdjudicationInput where
  case : CaseInput
  toolResults : List ToolResult

/-- `by_tool.get(tool_name, [])[-1]`, when it is there and succeeded. -/
def AdjudicationInput.lastSuccess (input : AdjudicationInput) (toolName : Text) :
    Option ToolResult :=
  (input.toolResults.filter (·.toolName = toolName)).getLast?.filter (·.status = .success)

/-- The calculated value of a check and its tolerance. -/
def readComparison (outside : Outside) (check : ClaimCheck) (result : ToolResult) :
    Except PyError (FloatText × FloatText) := do
  let calculated ← toFloat outside.quoted (← lookupPath result.output check.outputPath)
  let tolerance ← toolComparisonTolerance result (.finite check.claimedValue) calculated
    check.requested
  return (calculated, tolerance)

/-- What a check comes to once its numbers are read. -/
def judge (check : ClaimCheck) (result : ToolResult) (calculated tolerance : FloatText) :
    Judgement :=
  if calculated.isFinite then
    .assessment
      (if result.numericExactness.IsVerified then verifiedClaim check result calculated tolerance
        else estimateClaim check result calculated tolerance)
  else .warning (check.claimId ++ text ": calculated claim value is not finite")

/-- The errors the loop catches become warnings. -/
def assessResult (outside : Outside) (check : ClaimCheck) (result : ToolResult) :
    Except PyError Judgement :=
  match readComparison outside check result with
  | .ok (calculated, tolerance) => .ok (judge check result calculated tolerance)
  | .error (.overflow message) => .error (.overflow message)
  | .error error => .ok (.warning (check.claimId ++ text ": invalid claim check: " ++ error.message))

/-- The body of the loop over the checks. -/
def assess (outside : Outside) (input : AdjudicationInput) (rawCheck : Value) :
    Except PyError Judgement :=
  match rawCheck with
  | .obj items =>
    match outside.validateCheck items with
    | .error message => .ok (.warning (text "invalid claim check: " ++ message))
    | .ok check =>
      if check.claimId ∈ input.case.claims.map Claim.claimId then
        match input.lastSuccess check.toolName with
        | none => .ok (.warning (check.claimId ++ text ": verification tool " ++
            outside.quoted check.toolName ++ text " did not succeed"))
        | some result => assessResult outside check result
      else
        .ok (.warning (check.claimId ++ text ": claim check references an unknown claim"))
  | _ => .ok (.warning (text "a claim check was not an object"))

structure AdjudicationOutput where
  claimAssessments : List Claim
  dataQuality : List Text := []

/-- What one judgement adds. -/
def AdjudicationOutput.record (output : AdjudicationOutput) : Judgement → AdjudicationOutput
  | .warning message => { output with dataQuality := output.dataQuality ++ [message] }
  | .assessment claim => { output with claimAssessments := output.claimAssessments ++ [claim] }

/-- `metadata.claim_checks`. -/
def CaseInput.claimChecks (case : CaseInput) : Value :=
  (case.metadata.lookup (text "claim_checks")).getD (.arr [])

/-- The loop over the checks, from what is recorded already. -/
def assessAll (outside : Outside) (input : AdjudicationInput) (checks : List Value)
    (output : AdjudicationOutput) : Except PyError AdjudicationOutput :=
  checks.foldlM
    (fun (output : AdjudicationOutput) rawCheck => do
      return output.record (← assess outside input rawCheck)) output

/-- `AdjudicationService.run`. -/
def adjudicate (outside : Outside) (input : AdjudicationInput) :
    Except PyError AdjudicationOutput :=
  match input.case.claimChecks with
  | .arr checks => do
    let output ← assessAll outside input checks { claimAssessments := input.case.claims }
    if input.case.claims ≠ [] ∧ checks = [] then
      return { output with dataQuality := output.dataQuality ++ [UNVERIFIED_CLAIM_WARNING] }
    else return output
  | _ => .ok {
      claimAssessments := input.case.claims
      dataQuality := [text "metadata.claim_checks must be a list"] }

end PokerDeliberation.Phases
