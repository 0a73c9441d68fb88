import PokerDeliberation.Phases.Adjudication

/-!
# Synthesis

`SynthesisService.run` reads the verdicts back from the assessments: from the
prefix of their ids, their grades and a phrase in their text. The redaction and
the validation the report goes through at last are a parameter.
-/

namespace PokerDeliberation.Phases

open Lib

/-- The phrase a correction is known by. -/
def CORRECTION_PHRASE : Text := text "訂正が必要"

def isVerifiedClaimCorrection (claim : Claim) : Bool :=
  PREFIX <+: claim.claimId ∧ claim.label = .calculated ∧ claim.confidence = .a ∧
    CORRECTION_PHRASE <:+: claim.text

structure Dispute where
  claimIds : List Text
  unresolved : Bool := true

structure SecurityEvent where
  blocked : Bool

structure ProviderSnapshot where
  available : Bool
  reason : Text

structure SynthesisInput where
  runId : Text
  machineState : Text
  completed : Bool
  case : CaseInput
  dataQuality : List Text
  claimAssessments : List Claim
  toolResults : List ToolResult
  disputes : List Dispute
  securityEvents : List SecurityEvent
  providerSnapshot : ProviderSnapshot
  toolInputArtifactPaths : List Text

inductive RunStatus where
  | approvalRequired | failedWithLimitations | completed
  deriving DecidableEq, Repr

structure FinalReport where
  runId : Text
  runStatus : RunStatus
  conclusion : String
  dataQuality : List Text
  claimAssessments : List Claim
  toolResults : List ToolResult
  disputes : List Dispute
  confidence : ConfidenceGrade
  limitations : List Text

namespace SynthesisInput

variable (value : SynthesisInput)

def corrections : List Claim := value.claimAssessments.filter (isVerifiedClaimCorrection ·)

def failed : List ToolResult := value.toolResults.filter (·.status = .failed)

def successes : List ToolResult := value.toolResults.filter (·.status = .success)

def handInputQualityIssues : List Text := value.dataQuality.filter (· ≠ UNVERIFIED_CLAIM_WARNING)

def blockedConclusion : String :=
  "このフレームワークは事後検討専用です。禁止用途に該当するため分析を実行しませんでした。"

def reviewConclusion : String := "外部操作は未実行です。人間の承認または拒否を待っています。"

def limitedConclusion : String :=
  "実行予算または安全上の制限に達したため、制限付きで終了しました。"

def correctionConclusion : String :=
  "ユーザー主張に、再現可能なローカル計算に基づく訂正が必要です。"

def conclusion : String :=
  if value.securityEvents.any SecurityEvent.blocked then blockedConclusion
  else if value.machineState = text "HUMAN_REVIEW_REQUIRED" then reviewConclusion
  else if value.machineState = text "FAILED_WITH_LIMITATIONS" then limitedConclusion
  else if value.corrections ≠ [] then correctionConclusion
  else if value.case.kind = .hand ∧ value.handInputQualityIssues ≠ [] then
    "ハンド入力に矛盾または不足があるため、戦略結論を断定しません。"
  else if value.failed ≠ [] then
    "一部の計算が失敗したため、利用可能な結果と制限だけを返します。"
  else if value.successes ≠ [] then "指定されたローカル検証・計算を完了しました。"
  else "正確な結論に必要な検証入力が不足しているため、断定を保留します。"

def verifiedSuccesses : List ToolResult := value.successes.filter (·.numericExactness.IsVerified)

/-- `str.removeprefix` of the prefix of an assessment. -/
def withoutPrefix (id : Text) : Text := if PREFIX <+: id then id.drop PREFIX.length else id

def adjudicatedClaimIds : List Text :=
  (value.claimAssessments.filter fun claim =>
      PREFIX <+: claim.claimId ∧ claim.label = .calculated ∧ claim.confidence = .a).map fun claim =>
    withoutPrefix claim.claimId

def hasUnverifiedMaterialClaim : Bool :=
  value.case.claims.any fun claim => claim.claimId ∉ value.adjudicatedClaimIds

def confidence : ConfidenceGrade :=
  if value.machineState = text "HUMAN_REVIEW_REQUIRED" then .d
  else if value.successes ≠ [] ∧ value.verifiedSuccesses.length = value.successes.length ∧
      value.failed = [] ∧ value.dataQuality = [] ∧ value.hasUnverifiedMaterialClaim = false ∧
      value.disputes.any Dispute.unresolved = false then .a
  else if value.successes ≠ [] ∧ value.failed = [] ∧ value.dataQuality = [] ∧
      value.hasUnverifiedMaterialClaim = false ∧
      value.disputes.any Dispute.unresolved = false then .b
  else .c

/-- `list(dict.fromkeys(items))`: the first of each. -/
def deduplicated (items : List Text) : List Text :=
  items.foldl (fun kept item => if item ∈ kept then kept else kept ++ [item]) []

def limitations : List Text :=
  deduplicated <|
    deduplicated value.dataQuality ++
      (if value.providerSnapshot.available then [] else [value.providerSnapshot.reason]) ++
      if value.case.kind = .hand ∨ value.case.kind = .strategy then
        [text "外部ソルバーの実行・収束確認なしにGTOまたは均衡を主張していません。"]
      else []

def report : FinalReport where
  runId := value.runId
  runStatus :=
    if value.machineState = text "HUMAN_REVIEW_REQUIRED" then .approvalRequired
    else if value.machineState = text "FAILED_WITH_LIMITATIONS" then .failedWithLimitations
    else .completed
  conclusion := value.conclusion
  dataQuality := deduplicated value.dataQuality
  claimAssessments := value.claimAssessments
  toolResults := value.toolResults
  disputes := value.disputes
  confidence := value.confidence
  limitations := value.limitations

end SynthesisInput

/-- `SynthesisService.run`. -/
def synthesize (redactAndValidate : FinalReport → Except Text FinalReport) (runId : Text)
    (value : SynthesisInput) : Except Text FinalReport := do
  require (value.runId = runId) (text "synthesis input run ID does not match its request")
  require (value.toolResults.length = value.toolInputArtifactPaths.length)
    (text "zip() argument 2 has another length than argument 1")
  redactAndValidate value.report

/-! ## What the verdict is read from -/

section

variable {p s t : Text} {c : Nat}

/-- A text without the separator occurs before it or after it. -/
theorem infix_append_cons_iff (h : c ∉ p) : p <:+: s ++ c :: t ↔ p <:+: s ∨ p <:+: t := by
  constructor
  · rintro ⟨front, back, heq⟩
    rw [List.append_assoc, List.append_eq_append_iff] at heq
    rcases heq with ⟨rest, rfl, heq⟩ | ⟨rest, rfl, heq⟩
    · rw [List.append_eq_append_iff] at heq
      rcases heq with ⟨rest', rfl, -⟩ | ⟨rest', rfl, heq⟩
      · exact .inl ⟨front, rest', by simp⟩
      · cases rest' with
        | nil => exact .inl ⟨front, [], by simp⟩
        | cons d rest' =>
          obtain ⟨rfl, -⟩ := List.cons.inj heq
          exact absurd (by simp) h
    · cases rest with
      | nil =>
        cases p with
        | nil => exact .inl List.nil_infix
        | cons d p =>
          obtain ⟨rfl, -⟩ := List.cons.inj heq
          exact absurd (by simp) h
      | cons d rest =>
        obtain ⟨rfl, rfl⟩ := List.cons.inj heq
        exact .inr ⟨rest, back, by simp⟩
  · rintro (⟨front, back, rfl⟩ | ⟨front, back, rfl⟩)
    · exact ⟨front, back ++ c :: t, by simp⟩
    · exact ⟨s ++ c :: front, back, by simp⟩

end

/-- The first character of the phrase. -/
def PHRASE_HEAD : Nat := 0x8a02

theorem head_mem_of_correctionPhrase {t : Text} (h : CORRECTION_PHRASE <:+: t) : PHRASE_HEAD ∈ t :=
  h.subset (by simp [CORRECTION_PHRASE, text, PHRASE_HEAD])

/-- What follows the claim's id in a verdict. -/
def verdictTail (claimed calculated : Text) (agreed : Bool) : Text :=
  text " USER_CLAIM=" ++ claimed ++ text " は CALCULATED=" ++ calculated ++ text "と" ++
    (if agreed then text "一致します" else text "一致せず、訂正が必要です") ++ text "。"

theorem correctionPhrase_verdictTail {claimed calculated : Text}
    (hclaimed : FloatText.Ascii claimed) (hcalculated : FloatText.Ascii calculated)
    (agreed : Bool) :
    CORRECTION_PHRASE <:+: verdictTail claimed calculated agreed ↔ agreed = false := by
  cases agreed with
  | false =>
    refine iff_of_true ?_ rfl
    have hverdict : CORRECTION_PHRASE <:+: text "一致せず、訂正が必要です" :=
      ⟨text "一致せず、", text "です", by simp [CORRECTION_PHRASE, text]⟩
    exact hverdict.trans ⟨_, _, rfl⟩
  | true =>
    refine iff_of_false (fun hphrase => ?_) (by decide)
    -- no part of the text has the first character of the phrase
    have hhead := head_mem_of_correctionPhrase hphrase
    have hascii : ∀ {t : Text}, FloatText.Ascii t → PHRASE_HEAD ∉ t := fun ht hmem =>
      absurd (ht _ hmem) (by decide)
    simp [verdictTail, hascii hclaimed, hascii hcalculated] at hhead
    simp [text, PHRASE_HEAD] at hhead

theorem verifiedText_eq (check : ClaimCheck) (calculated tolerance : FloatText) :
    verifiedText check calculated tolerance = check.claimId ++ 0x3a ::
      verdictTail (FloatText.finite check.claimedValue).repr calculated.repr
        (agrees calculated (.finite check.claimedValue) tolerance) := by
  have hcolon : text ": USER_CLAIM=" = 0x3a :: text " USER_CLAIM=" := by simp [text]
  simp [verifiedText, verdictTail, hcolon]

/-- A verdict asks for a correction when its numbers differ, but also when the
claim's own id has the phrase. -/
theorem isVerifiedClaimCorrection_verifiedClaim (check : ClaimCheck) (result : ToolResult)
    (calculated tolerance : FloatText) :
    isVerifiedClaimCorrection (verifiedClaim check result calculated tolerance) = true ↔
      CORRECTION_PHRASE <:+: check.claimId ∨
        agrees calculated (.finite check.claimedValue) tolerance = false := by
  have hcolon : (0x3a : Nat) ∉ CORRECTION_PHRASE := by simp [CORRECTION_PHRASE, text]
  simp [isVerifiedClaimCorrection, verifiedClaim, verifiedText_eq, infix_append_cons_iff hcolon,
    correctionPhrase_verdictTail (FloatText.ascii_repr _) (FloatText.ascii_repr _)]

theorem isVerifiedClaimCorrection_untrusted {claim : Claim} (h : claim.Untrusted) :
    isVerifiedClaimCorrection claim = false := by
  simp [isVerifiedClaimCorrection, h.1]

theorem withoutPrefix_append (id : Text) : SynthesisInput.withoutPrefix (PREFIX ++ id) = id := by
  simp [SynthesisInput.withoutPrefix]

end PokerDeliberation.Phases
