import Mathlib.Data.List.Chain
import PokerDeliberation.Identifiers
import PokerDeliberation.LocalData.Policy

/-!
# Names of local data

Opaque identifiers, the secret shapes no metadata may contain, and the logical
names of run artifacts. An audit keeps a fixed name and replaces a variable one
by a digest; the new name is bounded, of the same kind and free of secrets.
-/

namespace PokerDeliberation.LocalData

open Lib

/-! ## Opaque identifiers -/

def isPortableChar (c : Char) : Bool := c.isAlphanum || c == '.' || c == '_' || c == '-'

/-- `^[A-Za-z0-9][A-Za-z0-9._-]{0,127}$`. -/
def portable : String → Bool := fullClass Char.isAlphanum isPortableChar 127

def windowsReservedStems : List String :=
  ["CON", "PRN", "AUX", "NUL",
    "COM1", "COM2", "COM3", "COM4", "COM5", "COM6", "COM7", "COM8", "COM9",
    "LPT1", "LPT2", "LPT3", "LPT4", "LPT5", "LPT6", "LPT7", "LPT8", "LPT9"]

/-- `value.split(".", maxsplit=1)[0].upper()`, of a portable text. -/
def windowsStem (value : String) : List Char := (partition '.' value.toList).1.map Char.toUpper

def isOpaquePortableId (value : String) : Bool :=
  portable value && value.toList.getLast? != some '.' &&
    windowsReservedStems.all fun stem => windowsStem value != stem.toList

/-! ## Secret shapes -/

/-- `\b(?:literals)cls{least,}\b`, in any case. -/
def tokenShape (literals : List String) (cls : Char → Bool) (least : Nat) (before : Option Char)
    (s : List Char) : Bool :=
  atBoundary before s.head? &&
    literals.any fun l => (dropLiteral l.toList s).any (runToBoundary cls least)

def isDashed (c : Char) : Bool := c.isAlphanum || c == '_' || c == '-'

/-- `\b(?:AKIA|ASIA)[A-Z0-9]{16}\b`. -/
def accessKeyShape (before : Option Char) (s : List Char) : Bool :=
  atBoundary before s.head? &&
    ["akia", "asia"].any fun l => (dropLiteral l.toList s).any fun rest =>
      (rest.take 16).length = 16 && (rest.take 16).all Char.isAlphanum &&
        atBoundary (rest.take 16).getLast? (rest.drop 16).head?

/-- `cls{5,}\.` at the head of the text; the class has no full stop. -/
def dottedRun (s : List Char) : Option (List Char) :=
  match s.dropWhile isDashed with
  | '.' :: rest => if 5 ≤ (s.takeWhile isDashed).length then some rest else none
  | _ => none

/-- `\beyJ[A-Za-z0-9_-]{5,}\.[A-Za-z0-9_-]{5,}\.[A-Za-z0-9_-]{5,}\b`. -/
def webTokenShape (before : Option Char) (s : List Char) : Bool :=
  atBoundary before s.head? &&
    (dropLiteral "eyj".toList s).any fun rest =>
      ((dottedRun rest).bind dottedRun).any (runToBoundary isDashed 5)

/-- `_SECRET_METADATA` at one position. -/
def secretMetadataAt (before : Option Char) (s : List Char) : Bool :=
  tokenShape ["sk-"] isDashed 8 before s ||
    tokenShape ["ghp_", "gho_", "ghu_", "ghs_", "ghr_"] Char.isAlphanum 20 before s ||
    tokenShape ["github_pat_"] isWord 20 before s ||
    accessKeyShape before s ||
    tokenShape ["aiza"] isDashed 20 before s ||
    webTokenShape before s ||
    tokenShape ["xoxb-", "xoxa-", "xoxp-", "xoxr-", "xoxs-"]
      (fun c => c.isAlphanum || c == '-') 10 before s ||
    tokenShape ["npm_"] Char.isAlphanum 20 before s ||
    tokenShape ["rk_live_", "rk_test_", "sk_live_", "sk_test_"] Char.isAlphanum 10 before s ||
    bearerShape before s || labelShape s

/-- `_SECRET_METADATA.search`, of an ASCII text. -/
def secretMetadata (value : String) : Bool := search secretMetadataAt none value.toList

/-! ## Artifact names -/

def fixedRunPayloadArtifacts : List String :=
  ["confirmed_review_source.txt", "confirmed_review_candidate.json",
    "confirmed_review_confirmation.json", "bounded_nl_source.txt", "bounded_nl_candidate.json",
    "bounded_nl_confirmation.json", "bounded_river_call_ev_source.txt",
    "bounded_river_call_ev_range.json", "bounded_river_call_ev_candidate.json",
    "bounded_river_call_ev_confirmation.json", "bounded_river_call_ev_binding.json", "input.json",
    "range_equity_binding.json", "normalization.json", "normalized_case.json", "assumptions.json",
    "evidence.jsonl", "approvals.json", "stdout.txt", "stderr.txt"]

def fixedRunAuditArtifacts : List String :=
  [".poker-deliberation-run", "state.json", "assignments.json", "agent_execution_records.json",
    "budget_state.json", "isolated_job_state.json", "security_events.json", "disputes.json"]

def fixedRunReportArtifacts : List String :=
  ["final_report.json", "final_report.md", "confirmed_review_provenance.json",
    "bounded_nl_provenance.json", "bounded_river_call_ev_result.json",
    "bounded_river_call_ev_provenance.json", "bounded_river_call_ev_budget_failure.json"]

/-- `^folder(?P<identifier>…)extension$`. -/
structure VariableArtifact where
  folder : String
  extension : String
  deriving DecidableEq

def reportArtifact : VariableArtifact := ⟨"agent_reports/", ".json"⟩
def toolInputArtifact : VariableArtifact := ⟨"tool_results/", ".input.json"⟩
def toolResultArtifact : VariableArtifact := ⟨"tool_results/", ".json"⟩

namespace VariableArtifact

/-- The name of an artifact of this pattern. -/
def name (pattern : VariableArtifact) (identifier : String) : String :=
  pattern.folder ++ (identifier ++ pattern.extension)

/-- `pattern.fullmatch(logical_name)`, its identifier. -/
def fullmatch (pattern : VariableArtifact) (logicalName : String) : Option String :=
  match between pattern.folder.toList pattern.extension.toList logicalName.toList with
  | some chars => if portable (String.ofList chars) then some (String.ofList chars) else none
  | none => none

/-- `_approved_variable_artifact`, its identifier. -/
def approved (pattern : VariableArtifact) (logicalName : String) : Option String :=
  match pattern.fullmatch logicalName with
  | some identifier => if isOpaquePortableId identifier then some identifier else none
  | none => none

end VariableArtifact

def artifactKind (logicalName : String) : Option SubjectKind :=
  if logicalName ∈ fixedRunPayloadArtifacts ∨ (reportArtifact.approved logicalName).isSome then
    some .runPayload
  else if (toolInputArtifact.approved logicalName).isSome then some .runPayload
  else if logicalName ∈ fixedRunAuditArtifacts ∨ (toolResultArtifact.approved logicalName).isSome then
    some .runAudit
  else if logicalName ∈ fixedRunReportArtifacts then some .runReport
  else none

/-- `_audit_run_logical_name`, with the digests of `_metadata_identifier_digest`. -/
def auditRunLogicalName (identifierDigest : String → String → String) (logicalName : String) :
    String :=
  match reportArtifact.approved logicalName with
  | some identifier => reportArtifact.name (identifierDigest "agent-report-id" identifier)
  | none => match toolInputArtifact.approved logicalName with
    | some identifier => toolInputArtifact.name (identifierDigest "tool-input-id" identifier)
    | none => match toolResultArtifact.approved logicalName with
      | some identifier => toolResultArtifact.name (identifierDigest "tool-result-id" identifier)
      | none => logicalName

def auditRunLogicalNameIsBounded (logicalName : String) : Bool :=
  if logicalName ∈ fixedRunPayloadArtifacts ++ fixedRunAuditArtifacts ++ fixedRunReportArtifacts then
    true
  else match [reportArtifact, toolInputArtifact, toolResultArtifact].findSome?
      (·.fullmatch logicalName) with
    | some identifier => isSha256 identifier
    | none => false

/-! ## Digests as identifiers -/

/-- A property of every member, from the run of its check. -/
theorem forall_mem_of_all {α : Type} {p : α → Prop} [DecidablePred p] {l : List α}
    (h : (l.all fun a => p a) = true) : ∀ a ∈ l, p a := fun a ha =>
  of_decide_eq_true (List.all_eq_true.1 h a ha)

section Digests

variable {digest value : String}

theorem hexDigit_portable : ∀ c ∈ hexDigits, c.isAlphanum = true ∧ isPortableChar c = true ∧ c ≠ '.' :=
  forall_mem_of_all (by decide)

theorem portable_of_isSha256 (h : isSha256 digest = true) : portable digest = true := by
  obtain ⟨hlength, hchars⟩ := isSha256_chars h
  unfold portable fullClass
  cases hlist : digest.toList with
  | nil => rw [hlist] at hlength; cases hlength
  | cons c cs =>
    rw [hlist] at hlength hchars
    rw [List.length_cons] at hlength
    simp only [Bool.and_eq_true, decide_eq_true_eq, List.all_eq_true]
    refine ⟨⟨(hexDigit_portable c (hchars c List.mem_cons_self)).1, by omega⟩, fun d hd => ?_⟩
    exact (hexDigit_portable d (hchars d (List.mem_cons_of_mem _ hd))).2.1

theorem reserved_short : ∀ stem ∈ windowsReservedStems, stem.toList.length ≤ 4 := by decide

theorem isOpaquePortableId_of_isSha256 (h : isSha256 digest = true) :
    isOpaquePortableId digest = true := by
  obtain ⟨hlength, hchars⟩ := isSha256_chars h
  have hdot : '.' ∉ digest.toList := fun hmem => (hexDigit_portable _ (hchars _ hmem)).2.2 rfl
  have hlast : digest.toList.getLast? ≠ some '.' := fun hlast =>
    hdot (List.mem_of_getLast? hlast)
  have hstem : (windowsStem digest).length = 64 := by
    rw [windowsStem, partition_of_not_mem hdot, List.length_map, hlength]
  simp only [isOpaquePortableId, portable_of_isSha256 h, Bool.and_eq_true, bne_iff_ne, ne_eq,
    hlast, not_false_eq_true, true_and, List.all_eq_true]
  intro stem hmem heq
  have := reserved_short stem hmem
  rw [← heq, hstem] at this
  omega

/-! ## Names free of secrets -/

/-- Characters no secret shape is made of alone: each shape needs another one,
except `ASIA`, which needs an `s` before an `i`. -/
def isBland (c : Char) : Bool :=
  !(c.toLower ∈ ['-', 'h', 'z', 'y', 'x', 'm', 'k', ':', '=']) && !isSpace c

/-- Not an `s` before an `i`. -/
def NotSi (c d : Char) : Prop := ¬ (c.toLower = 's' ∧ d.toLower = 'i')

instance (c d : Char) : Decidable (NotSi c d) := inferInstanceAs (Decidable (¬ _))

/-- A text of bland characters with no `s` before an `i`. -/
structure Bland (s : List Char) : Prop where
  bland : ∀ c ∈ s, isBland c = true
  chain : s.IsChain NotSi

variable {s done rest : List Char} {before : Option Char}

theorem Bland.suffix (h : Bland (done ++ rest)) : Bland rest where
  bland c hc := h.bland c (List.mem_append_right _ hc)
  chain := (List.isChain_append.1 h.chain).2.1

/-- A literal with a character that is not bland does not occur. -/
theorem Bland.dropLiteral_eq_none (h : Bland s) {p : List Char}
    (hp : (p.any fun c => c ∈ ['-', 'h', 'z', 'y', 'x', 'm', 'k', ':', '=']) = true) :
    dropLiteral p s = none := by
  cases hd : dropLiteral p s with
  | none => rfl
  | some rest =>
    obtain ⟨found, rfl, rfl⟩ := dropLiteral_eq_some hd
    obtain ⟨c, hc, hlist⟩ := List.any_eq_true.1 hp
    rw [decide_eq_true_eq] at hlist
    obtain ⟨d, hd, rfl⟩ := List.mem_map.1 hc
    have hbland := h.bland d (List.mem_append_left _ hd)
    simp [isBland, hlist] at hbland

theorem Bland.tokenShape_eq_false (h : Bland s) {literals : List String} {cls : Char → Bool}
    {least : Nat}
    (hl : (literals.all fun l =>
      l.toList.any fun c => c ∈ ['-', 'h', 'z', 'y', 'x', 'm', 'k', ':', '=']) = true) :
    tokenShape literals cls least before s = false := by
  have hany : (literals.any fun l => (dropLiteral l.toList s).any (runToBoundary cls least)) =
      false := by
    rw [List.any_eq_false]
    intro l hmem
    rw [h.dropLiteral_eq_none (List.all_eq_true.1 hl l hmem)]
    simp
  rw [tokenShape, hany, Bool.and_false]

theorem Bland.accessKeyShape_eq_false (h : Bland s) : accessKeyShape before s = false := by
  have hakia : dropLiteral "akia".toList s = none := h.dropLiteral_eq_none (by decide)
  have hasia : dropLiteral "asia".toList s = none := by
    cases hd : dropLiteral "asia".toList s with
    | none => rfl
    | some rest =>
      obtain ⟨found, rfl, hfound⟩ := dropLiteral_eq_some hd
      have hchain := (List.isChain_append.1 h.chain).1
      simp only [String.reduceToList] at hfound
      obtain ⟨a, _, rfl, -, hfound⟩ := List.map_eq_cons_iff.1 hfound
      obtain ⟨b, _, rfl, hb, hfound⟩ := List.map_eq_cons_iff.1 hfound
      obtain ⟨c, _, rfl, hc, -⟩ := List.map_eq_cons_iff.1 hfound
      rw [List.isChain_cons_cons, List.isChain_cons_cons] at hchain
      exact absurd ⟨hb, hc⟩ hchain.2.1
  unfold accessKeyShape
  simp only [List.any_cons, List.any_nil, hakia, hasia, Option.any_none, Bool.or_false, Bool.and_false]

theorem Bland.webTokenShape_eq_false (h : Bland s) : webTokenShape before s = false := by
  have heyj : dropLiteral "eyj".toList s = none := h.dropLiteral_eq_none (by decide)
  rw [webTokenShape, heyj, Option.any_none, Bool.and_false]

theorem Bland.bearerShape_eq_false (h : Bland s) : bearerShape before s = false := by
  unfold bearerShape
  cases hd : dropLiteral "bearer".toList s with
  | none => simp
  | some rest =>
    obtain ⟨found, rfl, -⟩ := dropLiteral_eq_some hd
    cases rest with
    | nil => simp
    | cons c rest =>
      have hc := h.bland c (by simp)
      simp only [isBland, Bool.and_eq_true, Bool.not_eq_true'] at hc
      simp [hc.2]

theorem Bland.assignsAfterSpace_eq_false (h : Bland s) : assignsAfterSpace s = false := by
  unfold assignsAfterSpace
  cases hd : s.dropWhile isSpace with
  | nil => rfl
  | cons c rest =>
    have hmem : c ∈ s := (List.dropWhile_suffix _).mem (hd ▸ List.mem_cons_self)
    have hc := h.bland c hmem
    have hcolon : c ≠ ':' := by rintro rfl; exact absurd hc (by decide)
    have hequal : c ≠ '=' := by rintro rfl; exact absurd hc (by decide)
    simp [hcolon, hequal]

theorem Bland.labelShape_eq_false (h : Bland s) : labelShape s = false := by
  have hassigns : ∀ p, (dropLiteral p s).any assignsAfterSpace = false := by
    intro p
    cases hd : dropLiteral p s with
    | none => rfl
    | some rest =>
      obtain ⟨found, rfl, -⟩ := dropLiteral_eq_some hd
      exact h.suffix.assignsAfterSpace_eq_false
  have hapi : ((dropLiteral "api".toList s).any fun rest =>
      (optionalSeparator rest).any fun rest => (dropLiteral "key".toList rest).any assignsAfterSpace) =
        false := by
    cases hd : dropLiteral "api".toList s with
    | none => rfl
    | some rest =>
      obtain ⟨found, rfl, -⟩ := dropLiteral_eq_some hd
      have hkey : ∀ t, Bland t → dropLiteral "key".toList t = none := fun t ht =>
        ht.dropLiteral_eq_none (by decide)
      rw [Option.any_some, List.any_eq_false]
      intro t ht
      have hbland : Bland t := by
        unfold optionalSeparator at ht
        split at ht
        · rename_i c cs
          split at ht
          · rcases List.mem_cons.1 ht with rfl | ht
            · have hsplit : found ++ c :: t = (found ++ [c]) ++ t := by simp
              exact (hsplit ▸ h).suffix
            · rw [List.mem_singleton.1 ht]
              exact h.suffix
          · rw [List.mem_singleton.1 ht]
            exact h.suffix
        · rw [List.mem_singleton.1 ht]
          exact h.suffix
      rw [hkey t hbland]
      simp
  rw [labelShape, hapi, Bool.false_or, List.any_eq_false]
  intro label _
  rw [hassigns]
  simp

theorem secretMetadata_of_bland (h : Bland value.toList) : secretMetadata value = false := by
  rw [secretMetadata, Bool.eq_false_iff]
  intro hsearch
  obtain ⟨done, rest, b, hsplit, hmatch⟩ := exists_of_search hsearch
  have hrest : Bland rest := (hsplit ▸ h : Bland (done ++ rest)).suffix
  have hno : secretMetadataAt b rest = false := by
    unfold secretMetadataAt
    rw [hrest.tokenShape_eq_false (by decide), hrest.tokenShape_eq_false (by decide),
      hrest.tokenShape_eq_false (by decide), hrest.accessKeyShape_eq_false,
      hrest.tokenShape_eq_false (by decide), hrest.webTokenShape_eq_false,
      hrest.tokenShape_eq_false (by decide), hrest.tokenShape_eq_false (by decide),
      hrest.tokenShape_eq_false (by decide), hrest.bearerShape_eq_false, hrest.labelShape_eq_false]
    rfl
  rw [hno] at hmatch
  cases hmatch

theorem isBland_hexDigit : ∀ c ∈ hexDigits, isBland c = true ∧ c.toLower ≠ 's' :=
  forall_mem_of_all (by decide)

/-- A digest between two texts of the artifact names is free of secrets. -/
theorem bland_name (h : isSha256 digest = true) {front back : List Char} (hfront : Bland front)
    (hback : Bland back) (hhead : ∀ c ∈ back.head?, c.toLower ≠ 'i') :
    Bland (front ++ (digest.toList ++ back)) := by
  obtain ⟨-, hchars⟩ := isSha256_chars h
  have hne : ∀ c ∈ digest.toList, c.toLower ≠ 's' ∧ c.toLower ≠ 'i' := by
    have hall : ∀ c ∈ hexDigits, c.toLower ≠ 's' ∧ c.toLower ≠ 'i' :=
      forall_mem_of_all (by decide)
    exact fun c hc => hall c (hchars c hc)
  constructor
  · intro c hc
    rcases List.mem_append.1 hc with hc | hc
    · exact hfront.bland c hc
    · rcases List.mem_append.1 hc with hc | hc
      · exact (isBland_hexDigit c (hchars c hc)).1
      · exact hback.bland c hc
  · have hdigest : digest.toList.IsChain NotSi := by
      refine List.Pairwise.isChain (List.pairwise_iff_forall_sublist.2 fun {a b} hsub hsi => ?_)
      exact (hne a (hsub.subset List.mem_cons_self)).1 hsi.1
    refine List.isChain_append.2 ⟨hfront.chain, List.isChain_append.2
      ⟨hdigest, hback.chain, fun a ha b _ hsi => (hne a (List.mem_of_getLast? ha)).1 hsi.1⟩, ?_⟩
    intro a _ b hb hsi
    rw [List.head?_append] at hb
    cases hd : digest.toList.head? with
    | none =>
      rw [hd] at hb
      exact hhead b hb hsi.2
    | some c =>
      rw [hd] at hb
      obtain rfl : c = b := Option.some.inj hb
      exact (hne c (List.mem_of_mem_head? hd)).2 hsi.2

theorem bland_of_isSha256 (h : isSha256 digest = true) : Bland digest.toList := by
  have hnil : Bland [] := ⟨by simp, .nil⟩
  simpa using bland_name h hnil hnil (by simp)

end Digests

/-! ## Audit names -/

namespace VariableArtifact

variable {pattern : VariableArtifact} {logicalName identifier : String}

theorem name_toList : (pattern.name identifier).toList =
    pattern.folder.toList ++ (identifier.toList ++ pattern.extension.toList) := by
  simp [name]

theorem fullmatch_eq_some : pattern.fullmatch logicalName = some identifier ↔
    logicalName = pattern.name identifier ∧ portable identifier = true := by
  have hname : logicalName = pattern.name identifier ↔
      between pattern.folder.toList pattern.extension.toList logicalName.toList =
        some identifier.toList := by
    rw [between_eq_some, ← name_toList, String.toList_inj]
  rw [hname, fullmatch]
  constructor
  · intro h
    split at h
    · rename_i chars hbetween
      split at h
      · rename_i hportable
        cases h
        exact ⟨by rw [hbetween, String.toList_ofList], hportable⟩
      · cases h
    · cases h
  · rintro ⟨hbetween, hportable⟩
    rw [hbetween]
    simp [hportable]

theorem approved_eq_some : pattern.approved logicalName = some identifier ↔
    logicalName = pattern.name identifier ∧ isOpaquePortableId identifier = true := by
  unfold approved
  constructor
  · intro h
    split at h
    · rename_i found hmatch
      split at h
      · rename_i hopaque
        cases h
        exact ⟨(fullmatch_eq_some.1 hmatch).1, hopaque⟩
      · cases h
    · cases h
  · rintro ⟨hname, hopaque⟩
    have hportable : portable identifier = true := by
      simp only [isOpaquePortableId, Bool.and_eq_true] at hopaque
      exact hopaque.1.1
    rw [fullmatch_eq_some.2 ⟨hname, hportable⟩]
    exact if_pos hopaque

theorem approved_eq_none (h : pattern.fullmatch logicalName = none) :
    pattern.approved logicalName = none := by
  rw [approved, h]

end VariableArtifact

section AuditNames

open VariableArtifact

variable {digest logicalName : String} {kind : SubjectKind} {D : String → String → String}

theorem fixed_no_slash : ∀ n ∈ fixedRunPayloadArtifacts ++ fixedRunAuditArtifacts ++
    fixedRunReportArtifacts, '/' ∉ n.toList := by decide

/-- The name of a variable artifact with a digest for its identifier. -/
structure DigestName (kind : SubjectKind) (logicalName : String) : Prop where
  kind : artifactKind logicalName = some kind
  bounded : auditRunLogicalNameIsBounded logicalName = true
  clean : secretMetadata logicalName = false
  nonempty : 1 ≤ logicalName.toList.length
  short : logicalName.toList.length ≤ 256

theorem report_digestName (h : isSha256 digest = true) :
    DigestName .runPayload (reportArtifact.name digest) := by
  have hlist : (reportArtifact.name digest).toList =
      "agent_reports/".toList ++ (digest.toList ++ ".json".toList) := name_toList
  have hmatch : reportArtifact.fullmatch (reportArtifact.name digest) = some digest :=
    fullmatch_eq_some.2 ⟨rfl, portable_of_isSha256 h⟩
  have happroved : reportArtifact.approved (reportArtifact.name digest) = some digest :=
    approved_eq_some.2 ⟨rfl, isOpaquePortableId_of_isSha256 h⟩
  have hlength : (reportArtifact.name digest).toList.length = 83 := by
    rw [hlist, List.length_append, List.length_append, (isSha256_chars h).1]
    rfl
  refine ⟨?_, ?_, secretMetadata_of_bland ?_, by omega, by omega⟩
  · rw [artifactKind, happroved, if_pos (.inr rfl)]
  · rw [auditRunLogicalNameIsBounded]
    split
    · rfl
    · rw [List.findSome?_cons, hmatch]
      exact h
  · rw [hlist]
    exact bland_name h ⟨forall_mem_of_all (by decide), by decide⟩
      ⟨forall_mem_of_all (by decide), by decide⟩ (by simp)

theorem report_fullmatch_tool (pattern : VariableArtifact) (hfolder : pattern.folder = "tool_results/")
    (identifier : String) : reportArtifact.fullmatch (pattern.name identifier) = none := by
  cases hm : reportArtifact.fullmatch (pattern.name identifier) with
  | none => rfl
  | some found =>
    have hnames := congrArg String.toList (fullmatch_eq_some.1 hm).1
    rw [name_toList, name_toList, hfolder] at hnames
    have hhead := congrArg List.head? hnames
    cases hhead

theorem not_fixed_tool (pattern : VariableArtifact) (hfolder : pattern.folder = "tool_results/")
    (identifier : String) : pattern.name identifier ∉ fixedRunPayloadArtifacts ++
      fixedRunAuditArtifacts ++ fixedRunReportArtifacts := by
  intro hmem
  refine fixed_no_slash _ hmem ?_
  rw [name_toList, hfolder]
  exact List.mem_append_left _ (by decide)

theorem toolInput_digestName (h : isSha256 digest = true) :
    DigestName .runPayload (toolInputArtifact.name digest) := by
  have hlist : (toolInputArtifact.name digest).toList =
      "tool_results/".toList ++ (digest.toList ++ ".input.json".toList) := name_toList
  have hmatch : toolInputArtifact.fullmatch (toolInputArtifact.name digest) = some digest :=
    fullmatch_eq_some.2 ⟨rfl, portable_of_isSha256 h⟩
  have happroved : toolInputArtifact.approved (toolInputArtifact.name digest) = some digest :=
    approved_eq_some.2 ⟨rfl, isOpaquePortableId_of_isSha256 h⟩
  have hreport := report_fullmatch_tool toolInputArtifact rfl digest
  have hlength : (toolInputArtifact.name digest).toList.length = 88 := by
    rw [hlist, List.length_append, List.length_append, (isSha256_chars h).1]
    rfl
  refine ⟨?_, ?_, secretMetadata_of_bland ?_, by omega, by omega⟩
  · rw [artifactKind, happroved]
    split
    · rfl
    · exact if_pos rfl
  · rw [auditRunLogicalNameIsBounded]
    split
    · rfl
    · rw [List.findSome?_cons, hreport, List.findSome?_cons, hmatch]
      exact h
  · rw [hlist]
    exact bland_name h ⟨forall_mem_of_all (by decide), by decide⟩
      ⟨forall_mem_of_all (by decide), by decide⟩ (by simp)

/-- A digest has no full stop, so its tool result is no tool input. -/
theorem toolInput_fullmatch_result (h : isSha256 digest = true) :
    toolInputArtifact.fullmatch (toolResultArtifact.name digest) = none := by
  cases hm : toolInputArtifact.fullmatch (toolResultArtifact.name digest) with
  | none => rfl
  | some found =>
    have hnames := congrArg String.toList (fullmatch_eq_some.1 hm).1
    rw [name_toList, name_toList] at hnames
    have hends : digest.toList ++ ".json".toList =
        (found.toList ++ ".input".toList) ++ ".json".toList := by
      rw [List.append_assoc]
      exact List.append_cancel_left hnames
    have hdigest := List.append_cancel_right hends
    have hdot : '.' ∈ digest.toList := by
      rw [hdigest]
      exact List.mem_append_right _ (by decide)
    exact absurd rfl (hexDigit_portable _ ((isSha256_chars h).2 _ hdot)).2.2

theorem toolResult_digestName (h : isSha256 digest = true) :
    DigestName .runAudit (toolResultArtifact.name digest) := by
  have hlist : (toolResultArtifact.name digest).toList =
      "tool_results/".toList ++ (digest.toList ++ ".json".toList) := name_toList
  have hmatch : toolResultArtifact.fullmatch (toolResultArtifact.name digest) = some digest :=
    fullmatch_eq_some.2 ⟨rfl, portable_of_isSha256 h⟩
  have happroved : toolResultArtifact.approved (toolResultArtifact.name digest) = some digest :=
    approved_eq_some.2 ⟨rfl, isOpaquePortableId_of_isSha256 h⟩
  have hreport := report_fullmatch_tool toolResultArtifact rfl digest
  have hinput := toolInput_fullmatch_result h
  have hfixed := not_fixed_tool toolResultArtifact rfl digest
  have hlength : (toolResultArtifact.name digest).toList.length = 82 := by
    rw [hlist, List.length_append, List.length_append, (isSha256_chars h).1]
    rfl
  refine ⟨?_, ?_, secretMetadata_of_bland ?_, by omega, by omega⟩
  · have hpayload : toolResultArtifact.name digest ∉ fixedRunPayloadArtifacts := fun hmem =>
      hfixed (List.mem_append_left _ (List.mem_append_left _ hmem))
    rw [artifactKind, approved_eq_none hreport, approved_eq_none hinput, happroved]
    simp [hpayload]
  · rw [auditRunLogicalNameIsBounded, if_neg hfixed, List.findSome?_cons, hreport,
      List.findSome?_cons, hinput, List.findSome?_cons, hmatch]
    exact h
  · rw [hlist]
    exact bland_name h ⟨forall_mem_of_all (by decide), by decide⟩
      ⟨forall_mem_of_all (by decide), by decide⟩ (by simp)

/-- What the audit of an artifact writes for its name. -/
theorem auditRunLogicalName_digestName (hD : ∀ domain value, isSha256 (D domain value) = true)
    (hkind : artifactKind logicalName = some kind) (hclean : secretMetadata logicalName = false)
    (hnonempty : 1 ≤ logicalName.toList.length) (hshort : logicalName.toList.length ≤ 256) :
    DigestName kind (auditRunLogicalName D logicalName) := by
  unfold auditRunLogicalName
  cases hreport : reportArtifact.approved logicalName with
  | some identifier =>
    rw [artifactKind, hreport, if_pos (.inr rfl)] at hkind
    cases hkind
    exact report_digestName (hD _ _)
  | none =>
    cases hinput : toolInputArtifact.approved logicalName with
    | some identifier =>
      have hpayload : kind = .runPayload := by
        rw [artifactKind, hinput] at hkind
        split at hkind
        · exact (Option.some.inj hkind).symm
        · exact (Option.some.inj hkind).symm
      rw [hpayload]
      exact toolInput_digestName (hD _ _)
    | none =>
      cases hresult : toolResultArtifact.approved logicalName with
      | some identifier =>
        have hname := (approved_eq_some.1 hresult).1
        have hfixed := not_fixed_tool toolResultArtifact rfl identifier
        rw [← hname] at hfixed
        have haudit : kind = .runAudit := by
          have hpayload : logicalName ∉ fixedRunPayloadArtifacts := fun hmem =>
            hfixed (List.mem_append_left _ (List.mem_append_left _ hmem))
          rw [artifactKind, hreport, hinput, hresult] at hkind
          simpa [hpayload, eq_comm] using hkind
        rw [haudit]
        exact toolResult_digestName (hD _ _)
      | none =>
        refine ⟨hkind, ?_, hclean, hnonempty, hshort⟩
        have hmem : logicalName ∈ fixedRunPayloadArtifacts ++ fixedRunAuditArtifacts ++
            fixedRunReportArtifacts := by
          rw [artifactKind, hreport, hinput, hresult] at hkind
          simp only [Option.isSome_none, Bool.false_eq_true, or_false, if_false] at hkind
          rw [List.mem_append, List.mem_append]
          split at hkind
          · rename_i h
            exact .inl (.inl h)
          · split at hkind
            · rename_i h
              exact .inl (.inr h)
            · split at hkind
              · rename_i h
                exact .inr h
              · cases hkind
        rw [auditRunLogicalNameIsBounded, if_pos hmem]

end AuditNames

end PokerDeliberation.LocalData
