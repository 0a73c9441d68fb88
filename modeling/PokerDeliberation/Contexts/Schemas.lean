import PokerDeliberation.Lib.Json.Numbers
import PokerDeliberation.Lib.Records

/-!
# The schema of an agent's context

`AgentContext` and the records in it, as the types of their fields. The
validators of a model read its payload, where a field that is left out has its
default. Values of `Any` stand for what their dump in JSON mode is.
-/

namespace PokerDeliberation.Contexts

open Lib Lib.Json Lib.Records

variable {F : Type}

/-- Floating-point numbers with what the schemas compare, and those that are not finite by name. -/
structure Floats (F : Type) extends Numbers F where
  constant : String → F
  zero : F
  isZero : F → Bool
  lt : F → F → Bool
  isZero_zero : isZero zero = true

/-! ## Types of fields -/

def plainStr : Ty F := .scalar .str fun _ => true

def nonEmptyStr : Ty F := .scalar .str fun
  | .str s => s ≠ []
  | _ => false

/-- A string that matches a pattern. -/
def matching (pattern : Text → Bool) : Ty F := .scalar .str fun
  | .str s => pattern s
  | _ => false

def plainBool : Ty F := .scalar .bool fun _ => true

def atLeast (lo : Int) : Ty F := .scalar .int fun
  | .int n => lo ≤ n
  | _ => false

def intBetween (lo hi : Int) : Ty F := .scalar .int fun
  | .int n => lo ≤ n && n ≤ hi
  | _ => false

def literals (names : List String) : Ty F := .literal (names.map text)

def listOf (type : Ty F) : Ty F := .list type fun _ => true

def strings : Ty F := listOf plainStr

def atMost (most : Nat) : Ty F := .list plainStr fun n => n ≤ most

def isObject : Value F → Bool
  | .obj _ => true
  | _ => false

/-- `dict[str, Any]`. -/
def dict : Ty F := .any isObject

def nullDefault : Default F := .value .null fun
  | .null => true
  | _ => false

def emptyList : Default F := .value (.arr []) fun
  | .arr [] => true
  | _ => false

def emptyDict : Default F := .value (.obj []) fun
  | .obj [] => true
  | _ => false

def strDefault (s : String) : Default F := .value (.str (text s)) fun
  | .str t => t = text s
  | _ => false

def boolDefault (b : Bool) : Default F := .value (.bool b) fun
  | .bool c => c == b
  | _ => false

section Floats

variable (floats : Floats F)

def nonNegativeFiniteFloat : Ty F := .scalar .float fun
  | .float x => floats.finite x && !floats.lt x floats.zero
  | _ => false

def positiveFiniteFloat : Ty F := .scalar .float fun
  | .float x => floats.finite x && floats.lt floats.zero x
  | _ => false

def zeroDefault : Default F := .value (.float floats.zero) fun
  | .float x => floats.isZero x
  | _ => false

end Floats

/-! ## Fields of a payload -/

def get (name : String) : Value F → Option (Value F)
  | .obj items => items.lookup (text name)
  | _ => none

def getStr (name : String) (p : Value F) : Option Text :=
  match get name p with
  | some (.str s) => some s
  | _ => none

def getInt (name : String) (p : Value F) : Option Int :=
  match get name p with
  | some (.int n) => some n
  | _ => none

def getList (name : String) (p : Value F) : List (Value F) :=
  match get name p with
  | some (.arr xs) => xs
  | _ => []

/-! ## Patterns -/

/-- `^first rest{0,most}$`. -/
def headed (first rest : Nat → Bool) (most : Nat) : Text → Bool
  | [] => false
  | c :: t => first c && t.length ≤ most && t.all rest

def isAlnumCode (c : Nat) : Bool :=
  (0x30 ≤ c && c ≤ 0x39) || (0x41 ≤ c && c ≤ 0x5a) || (0x61 ≤ c && c ≤ 0x7a)

/-- `_SHA256_PATTERN`. -/
def isSha256Text (s : Text) : Bool :=
  s.length = 64 && s.all fun c => (0x30 ≤ c && c ≤ 0x39) || (0x61 ≤ c && c ≤ 0x66)

/-- `_PORTABLE_ID_PATTERN`. -/
def portableIdPattern : Text → Bool :=
  headed isAlnumCode (fun c => isAlnumCode c || c ∈ text "._-") 127

/-- `_POSITION_PATTERN`. -/
def positionPattern : Text → Bool :=
  headed isAlnumCode (fun c => isAlnumCode c || c ∈ text "_+-") 31

/-! ## Records -/

section Records

variable (floats : Floats F)

def street : Ty F := literals ["preflop", "flop", "turn", "river", "showdown"]

def playerStack : Ty F := .model (record
  [("player_id", nonEmptyStr, .required),
    ("position", nonEmptyStr, .required),
    ("starting_stack", nonNegativeFiniteFloat floats, .required)]) fun _ => true

def handAction : Ty F := .model (record
  [("street", street, .required),
    ("actor", nonEmptyStr, .required),
    ("action", literals ["post_blind", "post_ante", "fold", "check", "call", "bet", "raise",
      "all_in"], .required),
    ("amount", nonNegativeFiniteFloat floats, zeroDefault floats),
    ("to_amount", .optional (nonNegativeFiniteFloat floats), nullDefault),
    ("pot_before", .optional (nonNegativeFiniteFloat floats), nullDefault),
    ("pot_after", .optional (nonNegativeFiniteFloat floats), nullDefault)]) fun _ => true

/-- No payout is above the one before it. -/
def payoutsNonIncreasing : List (Value F) → Bool
  | .float a :: .float b :: rest => !floats.lt a b && payoutsNonIncreasing (.float b :: rest)
  | _ => true

def tournamentContext : Ty F := .model (record
  [("payouts", listOf (nonNegativeFiniteFloat floats), emptyList),
    ("remaining_players", .optional (atLeast 2), nullDefault),
    ("hero_stack", .optional (nonNegativeFiniteFloat floats), nullDefault),
    ("bounty_type", literals ["none", "fixed", "progressive", "mystery"], strDefault "none"),
    ("hero_bounty", .optional (nonNegativeFiniteFloat floats), nullDefault),
    ("notes", strings, emptyList)]) fun p => payoutsNonIncreasing floats (getList "payouts" p)

def rangeDefinition : Ty F := .model (record
  [("player_id", plainStr, .required),
    ("notation", nonEmptyStr, .required),
    ("source", .optional plainStr, nullDefault),
    ("game_conditions", dict, emptyDict),
    ("assumed", plainBool, boolDefault false)]) fun _ => true

/-- `source_rights_match_kind`. -/
def sourceRightsMatchKind (p : Value F) : Bool :=
  if getStr "source_kind" p = some (text "user_supplied") then
    getStr "license_classification" p = some (text "user_supplied_private_analysis") &&
      getStr "usage_classification" p = some (text "local_analysis_only")
  else
    getStr "license_classification" p = some (text "repository_owned_mit") &&
      getStr "usage_classification" p = some (text "redistribution_allowed")

def rangeSourceProvenanceV1 : Ty F := .model (record
  [("source_id", matching portableIdPattern, .required),
    ("source_kind", literals ["user_supplied", "repository_fixture"], .required),
    ("license_classification",
      literals ["user_supplied_private_analysis", "repository_owned_mit"], .required),
    ("usage_classification", literals ["local_analysis_only", "redistribution_allowed"], .required),
    ("content_status", literals ["USER_CLAIM", "ASSUMPTION"], .required),
    ("content_sha256", matching isSha256Text, .required)]) sourceRightsMatchKind

/-- `stack_interval_is_ordered`. -/
def stackIntervalIsOrdered (p : Value F) : Bool :=
  match getInt "starting_stack_min_bb_milli" p, getInt "starting_stack_max_bb_milli" p with
  | some lo, some hi => lo ≤ hi
  | _, _ => false

def rangeGameConditionsV1 : Ty F := .model (record
  [("game_type", literals ["NLHE"], .required),
    ("format", literals ["cash", "tournament"], .required),
    ("table_size", intBetween 2 10, .required),
    ("target_position", matching positionPattern, .required),
    ("street", literals ["preflop", "flop", "turn", "river"], .required),
    ("starting_stack_min_bb_milli", intBetween 0 10000000, .required),
    ("starting_stack_max_bb_milli", intBetween 0 10000000, .required),
    ("as_of_action_index", intBetween 0 512, .required),
    ("action_prefix_sha256", matching isSha256Text, .required)]) stackIntervalIsOrdered

/-- `supported_identity`: the versions are the defaults, so the payload leaves them out. -/
def supportedIdentity (p : Value F) : Bool :=
  (get "schema_version" p).isNone && (get "grammar_id" p).isNone && (get "grammar_version" p).isNone

def versionedRangeDefinitionV1 : Ty F := .model (record
  [("schema_version", plainStr, strDefault "1.0.0"),
    ("grammar_id", plainStr, strDefault "poker-deliberation.nlhe-range"),
    ("grammar_version", plainStr, strDefault "1.0.0"),
    ("range_id", matching portableIdPattern, .required),
    ("target_player_id", matching portableIdPattern, .required),
    ("notation", nonEmptyStr, .required),
    ("source", rangeSourceProvenanceV1, .required),
    ("game_conditions", rangeGameConditionsV1, .required)]) supportedIdentity

/-- `validate_game_context`. -/
def validateGameContext (p : Value F) : Bool :=
  let ids := (getList "players" p).map (getStr "player_id")
  decide ids.Nodup &&
    (getStr "hero_player_id" p).all (fun hero => some hero ∈ ids) &&
    !(getStr "format" p = some (text "tournament") && (get "tournament" p).isNone) &&
    !((getStr "game_type" p).getD (text "NLHE") = text "NLHE" &&
      (getList "hero_cards" p).length ∉ [0, 2])

def canonicalHand : Ty F := .model (record
  [("game_type", literals ["NLHE", "PLO", "OTHER"], strDefault "NLHE"),
    ("format", literals ["cash", "tournament"], .required),
    ("table_size", intBetween 2 10, .required),
    ("small_blind", positiveFiniteFloat floats, .required),
    ("big_blind", positiveFiniteFloat floats, .required),
    ("ante", nonNegativeFiniteFloat floats, zeroDefault floats),
    ("rake", .optional (nonNegativeFiniteFloat floats), nullDefault),
    ("players", .list (playerStack floats) fun n => 2 ≤ n, .required),
    ("hero_player_id", .optional plainStr, nullDefault),
    ("hero_cards", atMost 4, emptyList),
    ("board", atMost 5, emptyList),
    ("actions", listOf (handAction floats), emptyList),
    ("tournament", .optional (tournamentContext floats), nullDefault),
    ("known_ranges", listOf (.union rangeDefinition versionedRangeDefinitionV1), emptyList),
    ("opponent_observations", strings, emptyList),
    ("analysis_objective", plainStr, strDefault "strategy_review")]) validateGameContext

def decisionSnapshot : Ty F := .model (record
  [("street", street, .required),
    ("action_index", atLeast 0, .required),
    ("actor", nonEmptyStr, .required),
    ("board", atMost 5, emptyList),
    ("pot_before", nonNegativeFiniteFloat floats, .required),
    ("to_call", nonNegativeFiniteFloat floats, .required),
    ("actual_call", .optional (nonNegativeFiniteFloat floats), nullDefault),
    ("contestable_pot", nonNegativeFiniteFloat floats, .required),
    ("current_bet", nonNegativeFiniteFloat floats, .required),
    ("actor_invested", nonNegativeFiniteFloat floats, .required),
    ("stack_behind", nonNegativeFiniteFloat floats, .required),
    ("history_before", strings, emptyList),
    ("facing_action", plainStr, .required),
    ("side_pot_risk", plainBool, boolDefault false)]) fun _ => true

def blindDecisionContext : Ty F := .model (record
  [("game", dict, .required),
    ("players", listOf (playerStack floats), .required),
    ("hero_player_id", .optional plainStr, nullDefault),
    ("hero_cards", atMost 4, emptyList),
    ("focal", decisionSnapshot floats, .required)]) fun _ => true

def claim : Ty F := .model (record
  [("claim_id", plainStr, .factory (text "claim")),
    ("text", nonEmptyStr, .required),
    ("label", literals ["FACT", "CALCULATED", "INFERENCE", "ESTIMATE", "ASSUMPTION", "USER_CLAIM",
      "UNKNOWN"], .required),
    ("confidence", literals ["A", "B", "C", "D"], strDefault "C"),
    ("evidence_ids", strings, emptyList),
    ("limitations", strings, emptyList)]) fun _ => true

def assumption : Ty F := .model (record
  [("assumption_id", plainStr, .factory (text "assumption")),
    ("text", nonEmptyStr, .required),
    ("reason", nonEmptyStr, .required),
    ("sensitivity", .optional plainStr, nullDefault)]) fun _ => true

/-- `requires_locator`. -/
def requiresLocator (p : Value F) : Bool :=
  (get "url" p).isSome || (getStr "identifier" p).any (· ≠ [])

def evidenceRecord : Ty F := .model (record
  [("evidence_id", plainStr, .factory (text "evidence")),
    ("source_title", plainStr, .required),
    ("organization_or_author", plainStr, .required),
    ("source_type", literals ["official", "paper", "repository", "technical", "community", "input"],
      .required),
    ("url", .optional .url, nullDefault),
    ("identifier", .optional plainStr, nullDefault),
    ("publication_date", .optional plainStr, nullDefault),
    ("accessed_date", plainStr, .required),
    ("supported_claim_ids", strings, emptyList),
    ("summary", plainStr, .required),
    ("source_tier", intBetween 1 6, .required),
    ("limitations", strings, emptyList)]) requiresLocator

/-- The fields of `AgentContext`. -/
def agentContextFields : List (String × Ty F × Default F) :=
  [("kind", literals ["hand", "strategy", "claim", "calculation"], .required),
    ("objective", plainStr, .required),
    ("raw_text", .optional plainStr, nullDefault),
    ("strategy_text", .optional plainStr, nullDefault),
    ("hand", .optional (canonicalHand floats), nullDefault),
    ("claims", listOf claim, emptyList),
    ("assumptions", listOf assumption, emptyList),
    ("evidence", listOf evidenceRecord, emptyList),
    ("requested_tools", strings, emptyList),
    ("tool_inputs", dict, emptyDict),
    ("blind_decision_context", .optional (blindDecisionContext floats), nullDefault)]

def agentContext : Ty F := .model (record (agentContextFields floats)) fun _ => true

/-! ## The types are well formed -/

theorem model_wellFormed {fields : List (String × Ty F × Default F)} {valid : Value F → Bool}
    (h : ∀ x ∈ fields, x.2.1.WellFormed ∧ x.2.2.Suits x.2.1) (hnames : (fields.map (·.1)).Nodup) :
    (Ty.model (record fields) valid).WellFormed := by
  refine ⟨wellFormed_record.2 h, ?_⟩
  rw [names_record]
  have hnodup := hnames.map text_injective
  rwa [List.map_map] at hnodup

section

variable {floats : Floats F} {type : Ty F} {kind : Kind} {ok : Value F → Bool} {count : Nat → Bool}
  {names : List Text} {fields : Fields F} {s : String} {b : Bool}

@[simp] theorem scalar_wellFormed : (Ty.scalar kind ok).WellFormed := trivial

@[simp] theorem literal_wellFormed : (Ty.literal names : Ty F).WellFormed := trivial

@[simp] theorem url_wellFormed : (Ty.url : Ty F).WellFormed := trivial

@[simp] theorem dict_wellFormed : (dict : Ty F).WellFormed := by
  intro v
  cases v <;> rfl

@[simp] theorem list_wellFormed : (Ty.list type count).WellFormed ↔ type.WellFormed := Iff.rfl

@[simp] theorem optional_wellFormed :
    (Ty.optional type).WellFormed ↔ type.WellFormed ∧ type.nullable = false := Iff.rfl

@[simp] theorem required_suits : (Default.required : Default F).Suits type ↔ type.nullable = false :=
  Iff.rfl

@[simp] theorem factory_suits {prefixed : Text} :
    (Default.factory prefixed : Default F).Suits type ↔ type.nullable = false := Iff.rfl

@[simp] theorem nullDefault_suits : nullDefault.Suits (.optional type) := by
  simp [Default.Suits, nullDefault, Ty.dump, Value.sorted]

@[simp] theorem emptyList_suits : emptyList.Suits (.list type count) := by
  simp [Default.Suits, emptyList, Ty.dump, Value.sorted, Value.sortedAll]

@[simp] theorem emptyDict_suits : emptyDict.Suits (dict : Ty F) := rfl

@[simp] theorem strDefault_scalar : (strDefault s).Suits (.scalar kind ok) := by
  simp [Default.Suits, strDefault, Ty.dump, Value.sorted]

@[simp] theorem strDefault_literal : (strDefault s : Default F).Suits (.literal names) := by
  simp [Default.Suits, strDefault, Ty.dump, Value.sorted]

@[simp] theorem boolDefault_suits : (boolDefault b).Suits (.scalar kind ok) := by
  simp [Default.Suits, boolDefault, Ty.dump, Value.sorted]

@[simp] theorem zeroDefault_suits : (zeroDefault floats).Suits (.scalar kind ok) := by
  simp [Default.Suits, zeroDefault, Ty.dump, Value.sorted, floats.isZero_zero]

@[simp] theorem nullable_scalar : (Ty.scalar kind ok).nullable = false := rfl

@[simp] theorem nullable_literal : (Ty.literal names : Ty F).nullable = false := rfl

@[simp] theorem nullable_dict : (dict : Ty F).nullable = false := rfl

@[simp] theorem nullable_list : (Ty.list type count).nullable = false := rfl

@[simp] theorem nullable_model : (Ty.model fields ok).nullable = false := rfl

end

theorem playerStack_wellFormed : (playerStack floats).WellFormed := by
  refine model_wellFormed ?_ (by simp only [List.map_cons, List.map_nil]; decide)
  simp [nonEmptyStr, nonNegativeFiniteFloat]

theorem handAction_wellFormed : (handAction floats).WellFormed := by
  refine model_wellFormed ?_ (by simp only [List.map_cons, List.map_nil]; decide)
  simp [street, literals, nonEmptyStr, nonNegativeFiniteFloat]

theorem tournamentContext_wellFormed : (tournamentContext floats).WellFormed := by
  refine model_wellFormed ?_ (by simp only [List.map_cons, List.map_nil]; decide)
  simp [literals, strings, listOf, plainStr, atLeast, nonNegativeFiniteFloat]

theorem rangeDefinition_wellFormed : (rangeDefinition : Ty F).WellFormed := by
  refine model_wellFormed ?_ (by simp only [List.map_cons, List.map_nil]; decide)
  simp [plainStr, nonEmptyStr, plainBool]

theorem rangeSourceProvenanceV1_wellFormed : (rangeSourceProvenanceV1 : Ty F).WellFormed := by
  refine model_wellFormed ?_ (by simp only [List.map_cons, List.map_nil]; decide)
  simp [literals, matching]

theorem rangeGameConditionsV1_wellFormed : (rangeGameConditionsV1 : Ty F).WellFormed := by
  refine model_wellFormed ?_ (by simp only [List.map_cons, List.map_nil]; decide)
  simp [literals, matching, intBetween]

theorem versionedRangeDefinitionV1_wellFormed : (versionedRangeDefinitionV1 : Ty F).WellFormed := by
  refine model_wellFormed ?_ (by simp only [List.map_cons, List.map_nil]; decide)
  have h0 : (rangeSourceProvenanceV1 : Ty F).nullable = false := rfl
  have h1 : (rangeGameConditionsV1 : Ty F).nullable = false := rfl
  simp [plainStr, nonEmptyStr, matching, rangeSourceProvenanceV1_wellFormed,
    rangeGameConditionsV1_wellFormed, h0, h1]

/-- The two kinds of ranges are told apart by their names. -/
theorem knownRange_wellFormed :
    (Ty.union rangeDefinition versionedRangeDefinitionV1 : Ty F).WellFormed := by
  refine ⟨rangeDefinition_wellFormed, versionedRangeDefinitionV1_wellFormed,
    ⟨text "player_id", ?_, ?_⟩, ⟨text "range_id", ?_, ?_⟩⟩
  · exact List.mem_cons_self
  · rw [names_record]
    simp only [List.map_cons, List.map_nil]
    decide
  · simp [record, Fields.required, strDefault, matching]
  · rw [names_record]
    simp only [List.map_cons, List.map_nil]
    decide

theorem canonicalHand_wellFormed : (canonicalHand floats).WellFormed := by
  refine model_wellFormed ?_ (by simp only [List.map_cons, List.map_nil]; decide)
  have h0 : (tournamentContext floats).nullable = false := rfl
  simp [plainStr, literals, intBetween, positiveFiniteFloat, nonNegativeFiniteFloat, listOf, strings,
    atMost, playerStack_wellFormed, handAction_wellFormed, tournamentContext_wellFormed,
    knownRange_wellFormed, h0]

theorem decisionSnapshot_wellFormed : (decisionSnapshot floats).WellFormed := by
  refine model_wellFormed ?_ (by simp only [List.map_cons, List.map_nil]; decide)
  simp [street, literals, atLeast, nonEmptyStr, plainStr, plainBool, atMost, strings, listOf,
    nonNegativeFiniteFloat]

theorem blindDecisionContext_wellFormed : (blindDecisionContext floats).WellFormed := by
  refine model_wellFormed ?_ (by simp only [List.map_cons, List.map_nil]; decide)
  have h0 : (decisionSnapshot floats).nullable = false := rfl
  simp [plainStr, atMost, listOf, playerStack_wellFormed, decisionSnapshot_wellFormed, h0]

theorem claim_wellFormed : (claim : Ty F).WellFormed := by
  refine model_wellFormed ?_ (by simp only [List.map_cons, List.map_nil]; decide)
  simp [plainStr, nonEmptyStr, literals, strings, listOf]

theorem assumption_wellFormed : (assumption : Ty F).WellFormed := by
  refine model_wellFormed ?_ (by simp only [List.map_cons, List.map_nil]; decide)
  simp [plainStr, nonEmptyStr]

theorem evidenceRecord_wellFormed : (evidenceRecord : Ty F).WellFormed := by
  refine model_wellFormed ?_ (by simp only [List.map_cons, List.map_nil]; decide)
  simp [plainStr, literals, intBetween, strings, listOf, Ty.nullable]

theorem agentContext_wellFormed : (agentContext floats).WellFormed := by
  refine model_wellFormed ?_ (by simp only [agentContextFields, List.map_cons, List.map_nil]; decide)
  have h0 : (canonicalHand floats).nullable = false := rfl
  have h1 : (blindDecisionContext floats).nullable = false := rfl
  simp [agentContextFields, plainStr, literals, strings, listOf, canonicalHand_wellFormed, claim_wellFormed,
    assumption_wellFormed, evidenceRecord_wellFormed, blindDecisionContext_wellFormed, h0, h1]

end Records

end PokerDeliberation.Contexts
