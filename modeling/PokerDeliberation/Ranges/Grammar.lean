import PokerDeliberation.Hands.Schemas
import PokerDeliberation.Lib.Decimal
import PokerDeliberation.Lib.Rounding
import Mathlib.Data.List.Sort

/-!
# The range grammar

`validateVersionedRange` binds a range definition to a hand, expands its
tokens, removes the blocked combos and prints what is left in canonical form.
The digests are parameters: each is the SHA-256 of the canonical JSON (or of
the bytes) of its argument.
-/

namespace PokerDeliberation.Ranges

open Lib Hands

inductive RangeDiagnosticCode where
  | unsupportedVersion | limit | nonAscii | grammar | card | classOrder | weightLexeme | weightRange
  | overlap | blocker | empty | provenance | license | target | gameCondition | diagnosticLimit
  deriving DecidableEq, Repr

def RangeDiagnosticCode.value : RangeDiagnosticCode → String
  | .unsupportedVersion => "RNG_E_UNSUPPORTED_VERSION"
  | .limit => "RNG_E_LIMIT"
  | .nonAscii => "RNG_E_NON_ASCII"
  | .grammar => "RNG_E_SYNTAX"
  | .card => "RNG_E_CARD"
  | .classOrder => "RNG_E_CLASS_ORDER"
  | .weightLexeme => "RNG_E_WEIGHT_LEXEME"
  | .weightRange => "RNG_E_WEIGHT_RANGE"
  | .overlap => "RNG_E_OVERLAP"
  | .blocker => "RNG_E_BLOCKER"
  | .empty => "RNG_E_EMPTY"
  | .provenance => "RNG_E_PROVENANCE"
  | .license => "RNG_E_LICENSE"
  | .target => "RNG_E_TARGET"
  | .gameCondition => "RNG_E_GAME_CONDITION"
  | .diagnosticLimit => "RNG_E_DIAGNOSTIC_LIMIT"

inductive RangeDiagnosticField where
  | envelope | rangeNotation | weight | card | blockers | provenance | license | targetPlayer
  | gameConditions
  deriving DecidableEq, Repr

structure RangeDiagnosticV1 where
  code : RangeDiagnosticCode
  field : RangeDiagnosticField
  tokenIndex : Option Nat := none
  deriving DecidableEq, Repr

/-! ## Combos and weights -/

/-- Two cards in canonical order. -/
structure Combo where
  first : Card
  second : Card
  ordered : first.key < second.key
  deriving DecidableEq, Repr

/-- `_combo_sort_key`. -/
def Combo.sortKey (combo : Combo) : Nat := 52 * combo.first.key + combo.second.key

theorem Combo.sortKey_injective : Function.Injective Combo.sortKey := by
  rintro ⟨a, b, hab⟩ ⟨c, d, hcd⟩ h
  simp only [sortKey] at h
  have ha := a.key_lt
  have hb := b.key_lt
  have hc := c.key_lt
  have hd := d.key_lt
  obtain rfl : a = c := Card.key_injective (by omega)
  obtain rfl : b = d := Card.key_injective (by omega)
  rfl

/-- `_canonical_combo`. -/
def canonicalCombo (first second : Card) : Except RangeDiagnosticCode Combo :=
  if h : first.key < second.key then .ok ⟨first, second, h⟩
  else if h : second.key < first.key then .ok ⟨second, first, h⟩
  else .error .card

theorem Combo.canonical (combo : Combo) : canonicalCombo combo.first combo.second = .ok combo :=
  dif_pos combo.ordered

/-- A weight in `(0, 1]`, in millionths. -/
@[ext]
structure Weight where
  millionths : Nat
  pos : 0 < millionths
  le_scale : millionths ≤ WEIGHT_SCALE
  deriving Repr

instance : DecidableEq Weight := fun _ _ => decidable_of_iff _ Weight.ext_iff.symm

def Weight.full : Weight := ⟨WEIGHT_SCALE, by decide, le_refl _⟩

def Weight.half : Weight := ⟨500000, by decide, by decide⟩

/-- The millionths that a weight lexeme writes. -/
def weightLexeme : List Char → Option Nat
  | ['0'] => some 0
  | ['1'] => some WEIGHT_SCALE
  | '0' :: '.' :: digits =>
    if digits ≠ [] ∧ digits.length ≤ 6 ∧ digits.all Char.isDigit then
      some (decimalValue digits * 10 ^ (6 - digits.length))
    else none
  | '1' :: '.' :: zeros =>
    if zeros ≠ [] ∧ zeros.length ≤ 6 ∧ zeros.all (· == '0') then some WEIGHT_SCALE else none
  | _ => none

/-- `_weight_millionths`. -/
def weightMillionths : Option (List Char) → Except RangeDiagnosticCode Weight
  | none => .ok .full
  | some text =>
    match weightLexeme text with
    | none => .error .weightLexeme
    | some value =>
      if h : 0 < value ∧ value ≤ WEIGHT_SCALE then .ok ⟨value, h.1, h.2⟩ else .error .weightRange

/-- `_weight_text`. -/
def weightText (weight : Weight) : List Char :=
  if weight.millionths = WEIGHT_SCALE then []
  else '@' :: '0' :: '.' :: trimZeros (padded 6 weight.millionths)

structure CanonicalWeightedComboV1 where
  cards : Combo
  weight : Weight
  deriving DecidableEq, Repr

def CanonicalWeightedComboV1.canonicalToken (combo : CanonicalWeightedComboV1) : List Char :=
  combo.cards.first.chars ++ combo.cards.second.chars ++ weightText combo.weight

/-! ## Tokens -/

/-- `_EXPLICIT_COMBO`. -/
def explicitCombo : List Char → Option (Card × Card)
  | [r1, s1, r2, s2] =>
    match Card.ofChars r1 s1, Card.ofChars r2 s2 with
    | some first, some second => some (first, second)
    | _, _ => none
  | _ => none

/-- The suffix of a hand class. -/
inductive Suitedness where
  | suited | offsuit
  deriving DecidableEq, Repr

def rankOf (c : Char) : Option (Fin 13) :=
  match RANKS.idxOf? c with
  | some r => if h : r < 13 then some ⟨r, h⟩ else none
  | none => none

/-- `_HAND_CLASS`. -/
def handClass : List Char → Option (Fin 13 × Fin 13 × Option Suitedness)
  | [a, b] =>
    match rankOf a, rankOf b with
    | some first, some second => some (first, second, none)
    | _, _ => none
  | [a, b, c] =>
    match rankOf a, rankOf b with
    | some first, some second =>
      if c = 's' then some (first, second, some .suited)
      else if c = 'o' then some (first, second, some .offsuit)
      else none
    | _, _ => none
  | _ => none

/-- The suits, in the order of `SUITS`. -/
def suits : List (Fin 4) := [0, 1, 2, 3]

/-- The cards of the combos of a class of pairs. -/
def pairCards (rank : Fin 13) : List (Card × Card) :=
  suits.flatMap fun s => (suits.filter (s < ·)).map fun s' => (⟨rank, s⟩, ⟨rank, s'⟩)

/-- The cards of the combos of a class of two ranks. -/
def classCards (first second : Fin 13) : Suitedness → List (Card × Card)
  | .suited => suits.map fun s => (⟨first, s⟩, ⟨second, s⟩)
  | .offsuit => suits.flatMap fun s => (suits.filter (s ≠ ·)).map fun s' =>
      (⟨first, s⟩, ⟨second, s'⟩)

/-- `_expanded_token`. -/
def expandedToken (token : List Char) : Except RangeDiagnosticCode (List Combo × Weight) := do
  require (token.count '@' ≤ 1) .grammar
  let weight ← weightMillionths (partition '@' token).2
  match explicitCombo (partition '@' token).1 with
  | some (first, second) => do
    let combo ← canonicalCombo first second
    return ([combo], weight)
  | none =>
    match handClass (partition '@' token).1 with
    | none => throw .grammar
    | some (first, second, suffix) =>
      if first = second then do
        require (suffix = none) .grammar
        let combos ← (pairCards first).mapM fun (a, b) => canonicalCombo a b
        return (combos, weight)
      else
        match suffix with
        | none => throw .grammar
        | some suitedness => do
          require (second ≤ first) .classOrder
          let combos ← (classCards first second suitedness).mapM fun (a, b) => canonicalCombo a b
          return (combos, weight)

/-- `_diagnostic_from_exception`. -/
def diagnosticFromException (code : RangeDiagnosticCode) (tokenIndex : Nat) : RangeDiagnosticV1 where
  code := code
  field :=
    match code with
    | .weightLexeme | .weightRange => .weight
    | .card => .card
    | _ => .rangeNotation
  tokenIndex := tokenIndex

/-- The variables of the loop over the tokens. -/
structure Expansion where
  expanded : List (Combo × Weight) := []
  diagnostics : List RangeDiagnosticV1 := []
  deriving DecidableEq

def Expansion.note (e : Expansion) (diagnostic : RangeDiagnosticV1) : Expansion :=
  { e with diagnostics := e.diagnostics ++ [diagnostic] }

def Expansion.addCombo (tokenIndex : Nat) (weight : Weight) (e : Expansion) (combo : Combo) :
    Expansion :=
  if combo ∈ e.expanded.map (·.1) then
    e.note { code := .overlap, field := .rangeNotation, tokenIndex := tokenIndex }
  else { e with expanded := e.expanded ++ [(combo, weight)] }

def isBlank (c : Char) : Bool := c == ' ' || c == '\t'

def isBlankOrNewline (c : Char) : Bool := isBlank c || c == '\r' || c == '\n'

def Expansion.step (e : Expansion) (tokenIndex : Nat) (rawToken : List Char) : Expansion :=
  let token := strip isBlank rawToken
  if token = [] ∨ token ≠ strip isBlankOrNewline rawToken then
    e.note { code := .grammar, field := .rangeNotation, tokenIndex := tokenIndex }
  else
    match expandedToken token with
    | .error code => e.note (diagnosticFromException code tokenIndex)
    | .ok (combos, weight) => combos.foldl (Expansion.addCombo tokenIndex weight) e

def expandTokens (rawTokens : List (List Char)) : Expansion :=
  rawTokens.zipIdx.foldl (fun e (rawToken, index) => e.step index rawToken) {}

/-- `_bounded_diagnostics`. -/
def boundedDiagnostics (values : List RangeDiagnosticV1) : List RangeDiagnosticV1 :=
  if values.length ≤ MAX_RANGE_DIAGNOSTICS then values
  else values.take (MAX_RANGE_DIAGNOSTICS - 1) ++
    [{ code := .diagnosticLimit, field := .rangeNotation }]

/-! ## The binding to the hand -/

def RangeStreet.street : RangeStreet → Street
  | .preflop => .preflop
  | .flop => .flop
  | .turn => .turn
  | .river => .river

/-- `_VISIBLE_BOARD_COUNT`. -/
def RangeStreet.visibleBoardCount : RangeStreet → Nat
  | .preflop => 0
  | .flop => 3
  | .turn => 4
  | .river => 5

structure ConditionBinding where
  rangeId : String
  targetPlayerId : String
  heroPlayerId : String
  gameConditions : RangeGameConditionsV1
  gameType : GameType
  format : HandFormat
  tableSize : Nat
  targetPosition : String
  startingStack : Chips
  bigBlind : Chips
  street : Street
  asOfActionIndex : Nat
  actionPrefixSha256 : String
  blockers : List Card

/-- The digests of what a validation hashes. -/
structure Digests where
  text : String → String
  actionPrefix : List HandAction → String
  binding : ConditionBinding → String
  combos : List CanonicalWeightedComboV1 → String
  text_valid : ∀ s, isSha256 (text s) = true
  action_prefix_valid : ∀ actions, isSha256 (actionPrefix actions) = true

section

variable (digests : Digests) (hand : CanonicalHand) (definition : VersionedRangeDefinitionV1)

def actionPrefixSha256 (asOfActionIndex : Nat) : Option String :=
  if asOfActionIndex ≤ min hand.actions.length MAX_RANGE_ACTION_PREFIX then
    some (digests.actionPrefix (hand.actions.take asOfActionIndex))
  else none

/-- The street of the decision that a range is bound to. -/
def observedStreet (actionIndex : Nat) : Street :=
  match hand.actions[actionIndex]? with
  | some action => action.street
  | none => (hand.actions.getLast?.map (·.street)).getD .preflop

/-- The stack in thousandths of a big blind, with the 28 digits of a decimal. -/
def stackBbMilli (player : PlayerStack) : ℚ :=
  roundSig 10 28 (roundSig 10 28 (player.startingStack * 1000) / hand.bigBlind)

/-- `_condition_binding`. -/
def conditionBinding : Except RangeDiagnosticV1 ConditionBinding := do
  let conditions := definition.gameConditions
  let gameCondition : RangeDiagnosticV1 := { code := .gameCondition, field := .gameConditions }
  match hand.heroPlayerId,
      hand.players.find? fun p => p.playerId = definition.targetPlayerId with
  | some hero, some player =>
    require (definition.targetPlayerId ≠ hero) { code := .target, field := .targetPlayer }
    require (hand.gameType = .nlhe ∧ hand.format = conditions.format ∧
      hand.tableSize = conditions.tableSize ∧ player.position = conditions.targetPosition ∧
      conditions.asOfActionIndex ≤ hand.actions.length) gameCondition
    let street := observedStreet hand conditions.asOfActionIndex
    require (street = conditions.street.street) gameCondition
    let prefixHash := (actionPrefixSha256 digests hand conditions.asOfActionIndex).getD ""
    require (prefixHash = conditions.actionPrefixSha256 ∧
      conditions.startingStackMinBbMilli ≤ stackBbMilli hand player ∧
      stackBbMilli hand player ≤ conditions.startingStackMaxBbMilli) gameCondition
    let boardCount := conditions.street.visibleBoardCount
    require (boardCount ≤ hand.board.length) gameCondition
    match normalizeCards (hand.heroCards ++ hand.board.take boardCount) with
    | .error _ => throw { code := .blocker, field := .blockers }
    | .ok blockers =>
      return {
        rangeId := definition.rangeId
        targetPlayerId := definition.targetPlayerId
        heroPlayerId := hero
        gameConditions := conditions
        gameType := hand.gameType
        format := hand.format
        tableSize := hand.tableSize
        targetPosition := player.position
        startingStack := player.startingStack
        bigBlind := hand.bigBlind
        street
        asOfActionIndex := conditions.asOfActionIndex
        actionPrefixSha256 := prefixHash
        blockers }
  | _, _ => throw { code := .target, field := .targetPlayer }

/-- What a hand must satisfy for a range to be bound to it. -/
structure BoundTo (hero : String) (player : PlayerStack) (blockers : List Card) : Prop where
  hero_eq : hand.heroPlayerId = some hero
  player_eq : hand.players.find? (fun p => p.playerId = definition.targetPlayerId) = some player
  not_hero : definition.targetPlayerId ≠ hero
  game : hand.gameType = .nlhe ∧ hand.format = definition.gameConditions.format ∧
    hand.tableSize = definition.gameConditions.tableSize ∧
    player.position = definition.gameConditions.targetPosition ∧
    definition.gameConditions.asOfActionIndex ≤ hand.actions.length
  street : observedStreet hand definition.gameConditions.asOfActionIndex =
    definition.gameConditions.street.street
  prefix_and_stack :
    (actionPrefixSha256 digests hand definition.gameConditions.asOfActionIndex).getD "" =
        definition.gameConditions.actionPrefixSha256 ∧
      definition.gameConditions.startingStackMinBbMilli ≤ stackBbMilli hand player ∧
      stackBbMilli hand player ≤ definition.gameConditions.startingStackMaxBbMilli
  board : definition.gameConditions.street.visibleBoardCount ≤ hand.board.length
  cards : normalizeCards (hand.heroCards ++
    hand.board.take definition.gameConditions.street.visibleBoardCount) = .ok blockers

theorem conditionBinding_ok {binding : ConditionBinding}
    (h : conditionBinding digests hand definition = .ok binding) :
    ∃ hero player, BoundTo digests hand definition hero player binding.blockers := by
  unfold conditionBinding at h
  dsimp only at h
  split at h
  · rename_i hero player hhero hplayer
    simp only [bind_eq_ok, require_eq_ok, exists_const] at h
    obtain ⟨hnot, hgame, hstreet, hprefix, hboard, h⟩ := h
    split at h
    · simp at h
    · rename_i blockers hcards
      obtain rfl := (pure_eq_ok).1 h
      exact ⟨hero, player, hhero, hplayer, hnot, hgame, hstreet, hprefix, hboard, hcards⟩
  · simp at h

theorem exists_conditionBinding {hero : String} {player : PlayerStack} {blockers : List Card}
    (h : BoundTo digests hand definition hero player blockers) :
    ∃ binding, conditionBinding digests hand definition = .ok binding ∧
      binding.blockers = blockers := by
  unfold conditionBinding
  dsimp only
  rw [h.hero_eq, h.player_eq]
  dsimp only
  rw [require_of h.not_hero, require_of h.game, require_of h.street, require_of h.prefix_and_stack,
    require_of h.board, h.cards]
  exact ⟨_, rfl, rfl⟩

/-! ## The validation -/

/-- The fields that a result copies from its definition. -/
structure RangeResultHeader where
  rangeId : String
  targetPlayerId : String
  source : RangeSourceProvenanceV1
  gameConditions : RangeGameConditionsV1
  sourceNotationSha256 : String
  deriving DecidableEq, Repr

/-- What a successful result carries besides. -/
structure ValidRange where
  conditionBindingSha256 : String
  blockers : List Card
  canonicalNotation : List Char
  canonicalComboSha256 : String
  combos : List CanonicalWeightedComboV1
  comboCount : Nat
  totalWeightMillionths : Nat
  deriving DecidableEq, Repr

/-- A failed result carries no partial artifact. -/
inductive RangeValidationResultV1 where
  | failed (header : RangeResultHeader) (diagnostics : List RangeDiagnosticV1)
  | success (header : RangeResultHeader) (range : ValidRange)
  deriving DecidableEq, Repr

def KnownRange.versioned? : KnownRange → Option VersionedRangeDefinitionV1
  | .versioned range => some range
  | .plain _ => none

/-- Whether a blocker is one of the cards. -/
def Combo.blocked (blockers : List Card) (combo : Combo) : Bool :=
  combo.first ∈ blockers || combo.second ∈ blockers

/-- `_ASCII`. -/
def isAsciiText (text : List Char) : Bool := text.all fun c => ' ' ≤ c && c ≤ '~'

/-- The combos that survive the blockers, in canonical order. -/
def canonicalCombos (blockers : List Card) (expanded : List (Combo × Weight)) :
    List CanonicalWeightedComboV1 :=
  let surviving := expanded.filter fun item => !item.1.blocked blockers
  (surviving.insertionSort fun a b => a.1.sortKey ≤ b.1.sortKey).map fun item =>
    { cards := item.1, weight := item.2 }

def canonicalNotation (combos : List CanonicalWeightedComboV1) : List Char :=
  [','].intercalate (combos.map (·.canonicalToken))

/-- The result for the surviving combos. -/
def validRange (binding : ConditionBinding) (combos : List CanonicalWeightedComboV1) :
    ValidRange where
  conditionBindingSha256 := digests.binding binding
  blockers := binding.blockers
  canonicalNotation := canonicalNotation combos
  canonicalComboSha256 := digests.combos combos
  combos := combos
  comboCount := combos.length
  totalWeightMillionths := (combos.map (·.weight.millionths)).sum

@[simp] theorem validRange_canonicalNotation (binding : ConditionBinding)
    (combos : List CanonicalWeightedComboV1) :
    (validRange digests binding combos).canonicalNotation = canonicalNotation combos := rfl

def checkedRange : Except (List RangeDiagnosticV1) ValidRange := do
  let limit : RangeDiagnosticV1 := { code := .limit, field := .rangeNotation }
  let text := definition.rangeNotation.toList
  require (definition.rangeNotation.utf8ByteSize ≤ MAX_RANGE_NOTATION_BYTES) [limit]
  require (isAsciiText text) [{ code := .nonAscii, field := .rangeNotation }]
  require (digests.text definition.rangeNotation = definition.source.contentSha256)
    [{ code := .provenance, field := .provenance }]
  require (hand.knownRanges.filterMap KnownRange.versioned? = [definition])
    [{ code := .target, field := .targetPlayer }]
  let binding ← (conditionBinding digests hand definition).mapError ([·])
  require ((text.splitOn ',').length ≤ MAX_RANGE_TOKENS) [limit]
  let expansion := expandTokens (text.splitOn ',')
  require (expansion.diagnostics = []) expansion.diagnostics
  require (expansion.expanded.length ≤ MAX_EXPANDED_COMBOS) [limit]
  let combos := canonicalCombos binding.blockers expansion.expanded
  require (combos ≠ []) [{ code := .empty, field := .blockers }]
  return validRange digests binding combos

def validateVersionedRange : RangeValidationResultV1 :=
  let header : RangeResultHeader :=
    { rangeId := definition.rangeId
      targetPlayerId := definition.targetPlayerId
      source := definition.source
      gameConditions := definition.gameConditions
      sourceNotationSha256 := digests.text definition.rangeNotation }
  match checkedRange digests hand definition with
  | .ok range => .success header range
  | .error diagnostics => .failed header (boundedDiagnostics diagnostics)

end

end PokerDeliberation.Ranges
