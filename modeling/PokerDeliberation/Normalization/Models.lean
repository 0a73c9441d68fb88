import PokerDeliberation.Lib.Binary64
import PokerDeliberation.Lib.Checked
import PokerDeliberation.Lib.Utf8
import Mathlib.Data.List.Sort

/-!
# Normalization: diagnostics, results and the hand's schema

The models that normalization builds, with what their validation raises, and
the hand schema as it validates the parser's data. Of a schema error only the
first component of its location is used, so that is what an error is here.
-/

namespace PokerDeliberation.Normalization

open Lib

def MAX_SOURCE_BYTES : Nat := 1048576
def MAX_LINES : Nat := 10000
def MAX_LINE_BYTES : Nat := 16384
def MAX_PLAYERS : Nat := 10
def MAX_ACTIONS : Nat := 2000
def MAX_DIAGNOSTICS : Nat := 256
def MAX_IDENTIFIER_CODEPOINTS : Nat := 256

inductive NormalizationDiagnosticCode where
  | sourceTooLarge | utf8 | bom | newline | nonNfc | controlCharacter | secretShape | tooManyLines
  | lineTooLong | malformedLine | unknownKey | duplicateKey | numericLexeme | csv | fieldCount
  | valueTooLong | tooManyPlayers | tooManyActions | unsupportedFormat | canonicalField
  | diagnosticLimit
  deriving DecidableEq, Repr

/-- `_KNOWN_FIELDS`. -/
inductive ScalarField where
  | gameType | format | tableSize | smallBlind | bigBlind | ante | rake | heroPlayerId | heroCards
  | board | analysisObjective
  deriving DecidableEq, Repr

def ScalarField.name : ScalarField → Text
  | gameType => text "game_type"
  | format => text "format"
  | tableSize => text "table_size"
  | smallBlind => text "small_blind"
  | bigBlind => text "big_blind"
  | ante => text "ante"
  | rake => text "rake"
  | heroPlayerId => text "hero_player_id"
  | heroCards => text "hero_cards"
  | board => text "board"
  | analysisObjective => text "analysis_objective"

def KNOWN_FIELDS : List ScalarField :=
  [.gameType, .format, .tableSize, .smallBlind, .bigBlind, .ante, .rake, .heroPlayerId, .heroCards,
    .board, .analysisObjective]

/-- `NormalizationField`. -/
inductive NormalizationField where
  | source | document | players | actions
  | scalar (field : ScalarField)
  deriving DecidableEq, Repr

/-- What normalization does not catch. -/
inductive Uncaught where
  | validationError | valueError
  deriving DecidableEq, Repr

/-- Every diagnostic is an error. -/
inductive Severity where
  | error | warning
  deriving DecidableEq, Repr

structure NormalizationDiagnosticV1 where
  severity : Severity
  code : NormalizationDiagnosticCode
  line : Option Nat
  field : Option NormalizationField
  deriving DecidableEq, Repr

/-- `_diagnostic`. -/
def diagnostic (code : NormalizationDiagnosticCode) (line : Option Nat)
    (field : NormalizationField) : Except Uncaught NormalizationDiagnosticV1 := do
  require (∀ n ∈ line, 1 ≤ n ∧ n ≤ MAX_LINES) .validationError
  pure ⟨.error, code, line, some field⟩

/-! ## The hand -/

structure PlayerStack where
  playerId : Text
  position : Text
  startingStack : FloatText
  deriving DecidableEq

/-- `street` and `action` are texts of the schema's enumerations. -/
structure HandAction where
  street : Text
  actor : Text
  action : Text
  amount : FloatText
  toAmount : Option FloatText
  deriving DecidableEq

/-- The fields that the parser can set; the others keep their defaults. -/
structure CanonicalHand where
  gameType : Text
  format : Text
  tableSize : Nat
  smallBlind : FloatText
  bigBlind : FloatText
  ante : FloatText
  rake : Option FloatText
  players : List PlayerStack
  heroPlayerId : Option Text
  heroCards : List Text
  board : List Text
  actions : List HandAction
  analysisObjective : Text
  deriving DecidableEq

/-- `data`: the values under the scalar keys that were set, by the type of the key. -/
structure HandData where
  strings : ScalarField → Option Text := fun _ => none
  tableSize : Option Nat := none
  numbers : ScalarField → Option FloatText := fun _ => none
  cards : ScalarField → Option (List Text) := fun _ => none
  players : List PlayerStack := []
  actions : List HandAction := []

def GAME_TYPES : List Text := [text "NLHE", text "PLO", text "OTHER"]
def FORMATS : List Text := [text "cash", text "tournament"]
def STREETS : List Text :=
  [text "preflop", text "flop", text "turn", text "river", text "showdown"]
def ACTIONS : List Text :=
  [text "post_blind", text "post_ante", text "fold", text "check", text "call", text "bet",
    text "raise", text "all_in"]

/-- `NonNegativeFiniteFloat`. -/
def nonNegativeFinite (x : FloatText) : Bool := x.isFinite && FloatText.le (.finite 0) x

/-- `PositiveFiniteFloat`. -/
def positiveFinite (x : FloatText) : Bool := x.isFinite && x.gt (.finite 0)

def PlayerStack.valid (player : PlayerStack) : Bool :=
  player.playerId ≠ [] && player.position ≠ [] && nonNegativeFinite player.startingStack

def HandAction.valid (action : HandAction) : Bool :=
  decide (action.street ∈ STREETS) && action.actor ≠ [] && decide (action.action ∈ ACTIONS) &&
    nonNegativeFinite action.amount && action.toAmount.all nonNegativeFinite

/-- The fields of the hand that a schema error can be at. -/
inductive HandField where
  | scalar (field : ScalarField)
  | players | actions
  deriving DecidableEq, Repr

def HandField.name : HandField → Text
  | scalar field => field.name
  | players => text "players"
  | actions => text "actions"

/-- Whether the field's own validation passes. -/
def fieldValid (data : HandData) : HandField → Bool
  | .scalar .gameType => (data.strings .gameType).all fun t => decide (t ∈ GAME_TYPES)
  | .scalar .format => (data.strings .format).any fun t => decide (t ∈ FORMATS)
  | .scalar .tableSize => data.tableSize.any fun n => decide (2 ≤ n ∧ n ≤ 10)
  | .scalar .smallBlind => (data.numbers .smallBlind).any positiveFinite
  | .scalar .bigBlind => (data.numbers .bigBlind).any positiveFinite
  | .scalar .ante => (data.numbers .ante).all nonNegativeFinite
  | .scalar .rake => (data.numbers .rake).all nonNegativeFinite
  | .scalar .heroPlayerId => true
  | .scalar .heroCards => (data.cards .heroCards).all fun cards => cards.length ≤ 4
  | .scalar .board => (data.cards .board).all fun cards => cards.length ≤ 5
  | .scalar .analysisObjective => true
  | .players => decide (2 ≤ data.players.length) && data.players.all PlayerStack.valid
  | .actions => data.actions.all HandAction.valid

def HAND_FIELDS : List HandField :=
  [.scalar .gameType, .scalar .format, .scalar .tableSize, .scalar .smallBlind, .scalar .bigBlind,
    .scalar .ante, .scalar .rake, .players, .scalar .heroPlayerId, .scalar .heroCards,
    .scalar .board, .actions, .scalar .analysisObjective]

/-- The hand with the values of the data and the defaults of the schema. -/
def handOf (data : HandData) : CanonicalHand where
  gameType := (data.strings .gameType).getD (text "NLHE")
  format := (data.strings .format).getD []
  tableSize := data.tableSize.getD 0
  smallBlind := (data.numbers .smallBlind).getD (.finite 0)
  bigBlind := (data.numbers .bigBlind).getD (.finite 0)
  ante := (data.numbers .ante).getD (.finite 0)
  rake := data.numbers .rake
  players := data.players
  heroPlayerId := data.strings .heroPlayerId
  heroCards := (data.cards .heroCards).getD []
  board := (data.cards .board).getD []
  actions := data.actions
  analysisObjective := (data.strings .analysisObjective).getD (text "strategy_review")

/-- `validate_game_context`; the hand has no tournament context. -/
def CanonicalHand.contextValid (hand : CanonicalHand) : Bool :=
  let ids := hand.players.map PlayerStack.playerId
  decide ids.Nodup && hand.heroPlayerId.all (fun hero => decide (hero ∈ ids)) &&
    decide (hand.format ≠ text "tournament") &&
    (decide (hand.gameType ≠ text "NLHE") || decide (hand.heroCards.length ∈ [0, 2]))

/-- `CanonicalHand.model_validate(data)`: the hand, or where the errors are; a location
without a field is the model's own validator, which runs when every field is valid. -/
def modelValidate (data : HandData) : Except (List (Option HandField)) CanonicalHand :=
  let errors := HAND_FIELDS.filter fun field => !fieldValid data field
  if errors ≠ [] then .error (errors.map some)
  else if (handOf data).contextValid then .ok (handOf data)
  else .error [none]

/-! ## Results -/

inductive Status where
  | success | failed
  deriving DecidableEq, Repr

structure NormalizationProvenanceV1 where
  sourceBytesLength : Nat
  sourceBytesSha256 : String
  normalizedHandBytesLength : Option Nat
  normalizedHandSha256 : Option String
  deriving DecidableEq, Repr

structure NormalizationResultV1 where
  status : Status
  hand : Option CanonicalHand
  diagnostics : List NormalizationDiagnosticV1
  provenance : NormalizationProvenanceV1
  deriving DecidableEq

/-- The serializations and digests of the library. -/
structure Serializer where
  sha256 : List UInt8 → String
  /-- The canonical JSON of a hand whose numbers are finite. -/
  json : CanonicalHand → List UInt8

variable (s : Serializer)

/-- Every number of the hand is finite. -/
def CanonicalHand.finite (hand : CanonicalHand) : Bool :=
  hand.smallBlind.isFinite && hand.bigBlind.isFinite && hand.ante.isFinite &&
    hand.rake.all FloatText.isFinite && hand.players.all (·.startingStack.isFinite) &&
    hand.actions.all fun action => action.amount.isFinite && action.toAmount.all FloatText.isFinite

/-- `canonical_normalized_hand_bytes`: `allow_nan=False` raises on what is not finite. -/
def canonicalNormalizedHandBytes (hand : CanonicalHand) : Except Uncaught (List UInt8) := do
  require hand.finite .valueError
  pure (s.json hand)

/-- `_provenance`. -/
def provenance (source : List UInt8) (normalized : Option (List UInt8)) :
    NormalizationProvenanceV1 where
  sourceBytesLength := source.length
  sourceBytesSha256 := s.sha256 source
  normalizedHandBytesLength := normalized.map List.length
  normalizedHandSha256 := normalized.map s.sha256

/-- `NormalizationResultV1(...)` with `closed_result`. -/
def closedResult (result : NormalizationResultV1) : Except Uncaught NormalizationResultV1 := do
  require (result.diagnostics.length ≤ MAX_DIAGNOSTICS) .validationError
  let errors := result.diagnostics.filter fun item => item.severity = .error
  match result.status, result.hand with
  | .success, some hand =>
    require (errors = []) .validationError
    let normalized ← (canonicalNormalizedHandBytes s hand).mapError fun _ => .validationError
    require (result.provenance.normalizedHandBytesLength = some normalized.length ∧
      result.provenance.normalizedHandSha256 = some (s.sha256 normalized)) .validationError
  | .success, none => throw .validationError
  | .failed, hand =>
    require (hand = none ∧ errors ≠ [] ∧ result.provenance.normalizedHandBytesLength = none ∧
      result.provenance.normalizedHandSha256 = none) .validationError
  pure result

/-- `_bounded`. -/
def bounded (diagnostics : List NormalizationDiagnosticV1) :
    Except Uncaught (List NormalizationDiagnosticV1) :=
  if diagnostics.length ≤ MAX_DIAGNOSTICS then pure diagnostics
  else do
    let last ← diagnostic .diagnosticLimit none .document
    pure (diagnostics.take (MAX_DIAGNOSTICS - 1) ++ [last])

/-- `_failed`. -/
def failed (source : List UInt8) (diagnostics : List NormalizationDiagnosticV1) :
    Except Uncaught NormalizationResultV1 := do
  let diagnostics ← bounded diagnostics
  closedResult s ⟨.failed, none, diagnostics, provenance s source none⟩

end PokerDeliberation.Normalization
