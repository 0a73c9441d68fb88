import PokerDeliberation.Equity.Holdem
import PokerDeliberation.Ranges.Projection
import Mathlib.Algebra.BigOperators.Ring.Finset
import Mathlib.Algebra.BigOperators.Ring.List

/-!
# The river equity bridge

The admission of a river decision against one versioned range, its exact
oracle, and the agreement of the oracle with the equity calculator.
-/

namespace PokerDeliberation.Equity

open Lib Ranges Hands

def RANGE_EQUITY_MAX_EVALUATIONS : Nat := 990

inductive RangeEquityDiagnosticCode where
  | hand | range | target | decision | card | limit
  deriving DecidableEq, Repr

inductive RiverError where
  | bridge (code : RangeEquityDiagnosticCode) (field detail : String)
  | evaluator (error : EvaluatorError)
  deriving DecidableEq, Repr

/-- `_one_definition`. -/
def oneDefinition (hand : CanonicalHand) : Except RiverError VersionedRangeDefinitionV1 := do
  require (hand.gameType = .nlhe ∧ hand.format = .cash)
    (.bridge .hand "hand.game_type" "only NLHE cash is admitted")
  require (hand.heroPlayerId ≠ none ∧ hand.heroCards.length = 2 ∧ hand.board.length = 5)
    (.bridge .hand "hand.hero_cards"
      "one identified Hero, two hole cards, and a five-card river board are required")
  match hand.knownRanges with
  | [.versioned definition] => return definition
  | _ => throw (.bridge .range "hand.known_ranges"
      "exactly one VersionedRangeDefinitionV1 is required")

/-- The three normalizations of the known cards. -/
def knownCards (hand : CanonicalHand) : Except CardError (List Card × List Card) := do
  let hero ← normalizeCards hand.heroCards
  let board ← normalizeCards hand.board
  let _ ← normalizeCards ((hero ++ board).map Card.text)
  return (hero, board)

/-- `_canonical_known_cards`. -/
def canonicalKnownCards (hand : CanonicalHand) : Except RiverError (List Card × List Card) := do
  let cards ← (knownCards hand).mapError fun _ =>
    .bridge .card "hand.cards" "cards must be canonical, unique, and non-overlapping"
  require (cards.1.map Card.text = hand.heroCards ∧ cards.2.map Card.text = hand.board)
    (.bridge .card "hand.cards" "cards must already use canonical two-character notation")
  return cards

/-- The players that did not fold in some actions. -/
def eligiblePlayers (hand : CanonicalHand) (actions : List HandAction) : Finset String :=
  actions.foldl (fun eligible action =>
    if action.action = .fold then eligible.erase action.actor else eligible)
    hand.playerIds.toFinset

/-- `_validate_decision_binding`. -/
def validateDecisionBinding (hand : CanonicalHand) (definition : VersionedRangeDefinitionV1) :
    Except RiverError Unit := do
  let conditions := definition.gameConditions
  require (conditions.street = .river ∧ conditions.format = .cash)
    (.bridge .decision "range.game_conditions.street" "the bridge accepts only a river cash decision")
  let actionIndex := conditions.asOfActionIndex
  require (1 ≤ actionIndex ∧ actionIndex ≤ hand.actions.length)
    (.bridge .decision "range.game_conditions.as_of_action_index"
      "the bound action prefix must include the facing river action")
  require ((hand.actions[actionIndex - 1]?).all fun facing => facing.street = .river ∧
      facing.actor = definition.targetPlayerId ∧
      (facing.action = .bet ∨ facing.action = .raise))
    (.bridge .decision "hand.actions"
      "the final bound prefix action must be a target river bet or raise")
  require (eligiblePlayers hand (hand.actions.take actionIndex) =
      {hand.heroPlayerId.getD "", definition.targetPlayerId})
    (.bridge .target "hand.actions"
      "only Hero and the range target may remain eligible at the decision point")

/-- `_OracleTotals`. -/
structure OracleTotals where
  winComboCount : Nat := 0
  tieComboCount : Nat := 0
  lossComboCount : Nat := 0
  winWeightMillionths : Nat := 0
  tieWeightMillionths : Nat := 0
  lossWeightMillionths : Nat := 0
  deriving DecidableEq, Repr

def OracleTotals.equity (totals : OracleTotals) (totalWeightMillionths : Nat) : ℚ :=
  (2 * totals.winWeightMillionths + totals.tieWeightMillionths : ℕ) /
    (2 * totalWeightMillionths : ℕ)

/-- The totals with one more combo, of the given strength. -/
def OracleTotals.count (heroRank villainRank : List Nat) (weight : Nat) (totals : OracleTotals) :
    OracleTotals :=
  if villainRank < heroRank then
    { totals with
      winComboCount := totals.winComboCount + 1
      winWeightMillionths := totals.winWeightMillionths + weight }
  else if heroRank = villainRank then
    { totals with
      tieComboCount := totals.tieComboCount + 1
      tieWeightMillionths := totals.tieWeightMillionths + weight }
  else
    { totals with
      lossComboCount := totals.lossComboCount + 1
      lossWeightMillionths := totals.lossWeightMillionths + weight }

/-- The loop of the oracle. -/
def OracleTotals.step (heroRank : List Nat) (board : List Card) (totals : OracleTotals)
    (combo : CanonicalWeightedComboV1) : Except RiverError OracleTotals := do
  let villainRank ← (evaluateHoldem [combo.cards.first.text, combo.cards.second.text]
    (board.map Card.text)).mapError .evaluator
  return totals.count heroRank villainRank combo.weight.millionths

/-- `_oracle_totals` of a successful validation. -/
def oracleTotals (hero board : List Card) (range : ValidRange) : Except RiverError OracleTotals := do
  require (range.combos ≠ []) (.bridge .range "range_validate" "range validation failed")
  require (range.comboCount ≤ RANGE_EQUITY_MAX_EVALUATIONS)
    (.bridge .limit "range_validate.combo_count"
      s!"river enumeration exceeds {RANGE_EQUITY_MAX_EVALUATIONS}")
  let heroRank ← (evaluateHoldem (hero.map Card.text) (board.map Card.text)).mapError .evaluator
  range.combos.foldlM (OracleTotals.step heroRank board) {}

/-- What an admission computes from the hand. -/
structure Admission where
  definition : VersionedRangeDefinitionV1
  hero : List Card
  board : List Card
  header : RangeResultHeader
  range : ValidRange
  oracle : OracleTotals

/-- The hand part of `admit_versioned_range_river_equity`. -/
def admitVersionedRangeRiverEquity (digests : Digests) (hand : CanonicalHand) :
    Except RiverError Admission := do
  let definition ← oneDefinition hand
  let (hero, board) ← canonicalKnownCards hand
  validateDecisionBinding hand definition
  match validateVersionedRange digests hand definition with
  | .failed _ diagnostics =>
    let codes := ",".intercalate (diagnostics.map (·.code.value))
    throw (.bridge .range "hand.known_ranges" ("versioned range failed validation: " ++ codes))
  | .success header range => do
    let oracle ← oracleTotals hero board range
    return { definition, hero, board, header, range, oracle }

/-- `expected_versioned_range_equity_input`. -/
def expectedEquityInput (admission : Admission) : EquityInput where
  heroRange := admission.hero.flatMap Card.chars
  villainRange := admission.range.canonicalNotation
  board := admission.board.map Card.text
  deadCards := []
  mode := .exact
  maxExactEvaluations := RANGE_EQUITY_MAX_EVALUATIONS

/-! ## What an admission checked -/

section

variable {digests : Digests} {hand : CanonicalHand} {admission : Admission}

theorem knownCards_ok {hero board : List Card} (h : canonicalKnownCards hand = .ok (hero, board)) :
    (hero ++ board).Nodup ∧ hero.map Card.text = hand.heroCards ∧
      board.map Card.text = hand.board := by
  simp only [canonicalKnownCards, bind_eq_ok, mapError_eq_ok, require_eq_ok, exists_const,
    pure_eq_ok] at h
  obtain ⟨cards, hcards, htexts, rfl⟩ := h
  simp only [knownCards, bind_eq_ok, pure_eq_ok, Prod.mk.injEq] at hcards
  obtain ⟨_, -, _, -, all, hall, rfl, rfl⟩ := hcards
  obtain ⟨rfl, hnodup⟩ := normalizeCards_text_ok hall
  exact ⟨hnodup, htexts⟩

/-- The facts of an admission that the equity of the river rests on. -/
structure Admitted (admission : Admission) : Prop where
  hero_two : admission.hero.length = 2
  board_five : admission.board.length = 5
  nodup : (admission.hero ++ admission.board).Nodup
  combos_ne_nil : admission.range.combos ≠ []
  combos_nodup : (admission.range.combos.map (·.cards)).Nodup
  unblocked : ∀ combo ∈ admission.range.combos,
    combo.cards.blocked (admission.hero ++ admission.board) = false
  text : admission.range.canonicalNotation = canonicalNotation admission.range.combos
  count : admission.range.comboCount = admission.range.combos.length
  total : admission.range.totalWeightMillionths =
    (admission.range.combos.map (·.weight.millionths)).sum
  oracle : oracleTotals admission.hero admission.board admission.range = .ok admission.oracle

theorem admitted_of_admit (h : admitVersionedRangeRiverEquity digests hand = .ok admission) :
    Admitted admission := by
  simp only [admitVersionedRangeRiverEquity, bind_eq_ok] at h
  obtain ⟨definition, hdefinition, ⟨hero, board⟩, hcards, _, hbinding, h⟩ := h
  obtain ⟨hnodup, hheroTexts, hboardTexts⟩ := knownCards_ok hcards
  simp only [oneDefinition, bind_eq_ok, require_eq_ok, exists_const] at hdefinition
  obtain ⟨-, ⟨-, hheroLength, hboardLength⟩, hdefinition⟩ := hdefinition
  simp only [validateDecisionBinding, bind_eq_ok, require_eq_ok, exists_const] at hbinding
  obtain ⟨⟨hriver, -⟩, -⟩ := hbinding
  split at h
  · simp at h
  · rename_i header range hvalid
    simp only [bind_eq_ok, pure_eq_ok] at h
    obtain ⟨oracle, horacle, rfl⟩ := h
    obtain ⟨hcheck, -⟩ := validateVersionedRange_eq_success.1 hvalid
    obtain ⟨hcanonical, hne, -, binding, hconditions, hrange⟩ := canonical_of_checkedRange hcheck
    obtain ⟨_, _, hbound⟩ := conditionBinding_ok _ _ _ hconditions
    have hblockers : range.blockers = hero ++ board := by
      have hknown := hbound.cards
      rw [hriver, ← hheroTexts, ← hboardTexts] at hknown
      have htake : (board.map Card.text).take RangeStreet.river.visibleBoardCount =
          board.map Card.text := by
        rw [List.take_of_length_le]
        rw [hboardTexts, hboardLength]
        exact le_refl _
      rw [htake, ← List.map_append] at hknown
      rw [(normalizeCards_text_ok hknown).1, ← hrange]
      rfl
    exact
      { hero_two := by rw [← hheroLength, ← hheroTexts, List.length_map]
        board_five := by rw [← hboardLength, ← hboardTexts, List.length_map]
        nodup := hnodup
        combos_ne_nil := hne
        combos_nodup := hcanonical.nodup
        unblocked := fun combo hcombo => hblockers ▸ hcanonical.unblocked combo hcombo
        text := by rw [← hrange]; rfl
        count := by rw [← hrange]; rfl
        total := by rw [← hrange]; rfl
        oracle := horacle }

end

/-! ## Scores -/

/-- The score of a strength against another. -/
def outcome (heroRank villainRank : List Nat) : ℚ :=
  if villainRank < heroRank then 1 else if heroRank = villainRank then 1 / 2 else 0

theorem evaluateHoldem_pair {a b : Card} {board : List Card} (h : ([a, b] ++ board).Nodup)
    (hboard : board.length = 5) :
    evaluateHoldem [a.text, b.text] (board.map Card.text) = .ok (bestOfSeven ([a, b] ++ board)) := by
  have hab := @evaluateHoldem_text [a, b] board h rfl hboard
  rwa [List.map_cons, List.map_singleton] at hab

theorem evaluateHoldem_sortedPair {a b : Card} {board : List Card} (h : ([a, b] ++ board).Nodup)
    (hboard : board.length = 5) :
    evaluateHoldem [(sortedPair a.text b.text).1, (sortedPair a.text b.text).2]
      (board.map Card.text) = .ok (bestOfSeven ([a, b] ++ board)) := by
  have hswap : ([b, a] ++ board).Perm ([a, b] ++ board) := List.Perm.swap a b board
  unfold sortedPair
  split
  · rw [← bestOfSeven_congr hswap]
    exact evaluateHoldem_pair (hswap.nodup_iff.2 h) hboard
  · exact evaluateHoldem_pair h hboard

section

variable {board : List Card} {heroRank : List Nat}

/-- The strength of a combo on a board. -/
def comboRank (board : List Card) (combo : CanonicalWeightedComboV1) : List Nat :=
  bestOfSeven ([combo.cards.first, combo.cards.second] ++ board)

theorem nodup_combo {combo : CanonicalWeightedComboV1} {dead : List Card} (hdead : dead.Nodup)
    (hfree : combo.cards.blocked dead = false) :
    ([combo.cards.first, combo.cards.second] ++ dead).Nodup := by
  have hne : combo.cards.first ≠ combo.cards.second := fun h => by
    have hordered := combo.cards.ordered
    rw [h] at hordered
    omega
  simp only [Combo.blocked, Bool.or_eq_false_iff, decide_eq_false_iff_not] at hfree
  simp [hne, hfree.1, hfree.2, hdead]

/-- What the oracle has counted after some combos. -/
structure Counted (heroRank : List Nat) (board : List Card)
    (combos : List CanonicalWeightedComboV1) (totals : OracleTotals) : Prop where
  wins : totals.winComboCount =
    (combos.map fun combo => outcome heroRank (comboRank board combo)).count 1
  ties : totals.tieComboCount =
    (combos.map fun combo => outcome heroRank (comboRank board combo)).count (1 / 2)
  losses : totals.lossComboCount =
    (combos.map fun combo => outcome heroRank (comboRank board combo)).count 0
  weights : ((2 * totals.winWeightMillionths + totals.tieWeightMillionths : ℕ) : ℚ) =
    2 * (combos.map fun combo =>
      outcome heroRank (comboRank board combo) * combo.weight.millionths).sum

theorem Counted.count {combos : List CanonicalWeightedComboV1} {totals : OracleTotals}
    (h : Counted heroRank board combos totals) (combo : CanonicalWeightedComboV1) :
    Counted heroRank board (combos ++ [combo])
      (totals.count heroRank (comboRank board combo) combo.weight.millionths) := by
  obtain ⟨hwins, hties, hlosses, hweights⟩ := h
  push_cast at hweights
  by_cases hwin : comboRank board combo < heroRank
  · have hone : outcome heroRank (comboRank board combo) = 1 := if_pos hwin
    rw [OracleTotals.count, if_pos hwin]
    refine ⟨?_, ?_, ?_, ?_⟩
    · simp [hwins, hone]
    · simp [hties, hone]
    · simp [hlosses, hone]
    · simp only [List.map_append, List.map_singleton, List.sum_append, List.sum_singleton, hone]
      push_cast
      linarith
  · by_cases htie : heroRank = comboRank board combo
    · have hhalf : outcome heroRank (comboRank board combo) = 1 / 2 := by
        rw [outcome, if_neg hwin, if_pos htie]
      rw [OracleTotals.count, if_neg hwin, if_pos htie]
      refine ⟨?_, ?_, ?_, ?_⟩
      · simp [hwins, hhalf]
      · simp [hties, hhalf]
      · simp [hlosses, hhalf]
      · simp only [List.map_append, List.map_singleton, List.sum_append, List.sum_singleton, hhalf]
        push_cast
        linarith
    · have hzero : outcome heroRank (comboRank board combo) = 0 := by
        rw [outcome, if_neg hwin, if_neg htie]
      rw [OracleTotals.count, if_neg hwin, if_neg htie]
      refine ⟨?_, ?_, ?_, ?_⟩
      · simp [hwins, hzero]
      · simp [hties, hzero]
      · simp [hlosses, hzero]
      · simp only [List.map_append, List.map_singleton, List.sum_append, List.sum_singleton, hzero]
        push_cast
        linarith

/-- The oracle counts every combo. -/
theorem foldlM_step {combos : List CanonicalWeightedComboV1} (hboard : board.length = 5)
    (hdead : board.Nodup) (hfree : ∀ combo ∈ combos, combo.cards.blocked board = false) :
    ∃ totals, combos.foldlM (OracleTotals.step heroRank board) {} = .ok totals ∧
      Counted heroRank board combos totals := by
  induction combos using List.reverseRecOn with
  | nil => exact ⟨{}, rfl, rfl, rfl, rfl, by simp⟩
  | append_singleton combos combo ih =>
    obtain ⟨totals, hfold, hcounted⟩ := ih fun other hother => hfree other (by simp [hother])
    refine ⟨_, ?_, hcounted.count combo⟩
    rw [List.foldlM_append, hfold]
    refine bind_eq_ok.2 ⟨totals, rfl, ?_⟩
    rw [List.foldlM_cons]
    refine bind_eq_ok.2 ⟨_, bind_eq_ok.2 ⟨comboRank board combo, ?_, rfl⟩, rfl⟩
    rw [evaluateHoldem_pair (nodup_combo hdead (hfree combo (by simp))) hboard]
    rfl

end

/-! ## The calculator on the river -/

section

variable {board : List Card} {a b : Card}

theorem parseWeightedRange_two {round : ℚ → FloatText} (hboard : board.Nodup) (hne : a ≠ b)
    (ha : a ∉ board) (hb : b ∉ board) :
    parseWeightedRange round (board.map Card.text) (a.chars ++ b.chars) =
      .ok [{ cards := sortedPair a.text b.text, weight := 1 }] := by
  have hchar : ∀ c ∈ a.chars ++ b.chars, isTokenChar c = true := by
    intro c hc
    obtain hc | hc := List.mem_append.1 hc
    · exact isTokenChar_card hc
    · exact isTokenChar_card hc
  have hnot : ∀ d, isTokenChar d = false → d ∉ a.chars ++ b.chars := fun d hd hmem =>
    isTokenChar_ne (hchar d hmem) hd rfl
  have hstrip : strip isUnicodeSpace (a.chars ++ b.chars) = a.chars ++ b.chars :=
    strip_of_all_not fun c hc => isTokenChar_isUnicodeSpace (hchar c hc)
  have hsplit : (a.chars ++ b.chars).splitOnP isSeparator = [a.chars ++ b.chars] := by
    refine List.splitOnP_eq_singleton fun c hc => ?_
    have hcomma : c ≠ ',' := isTokenChar_ne (hchar c hc) (by decide)
    rw [isSeparator, isTokenChar_isUnicodeSpace (hchar c hc), Bool.false_or, beq_eq_false_iff_ne]
    exact hcomma
  have htokens : [a.chars ++ b.chars].filter (· ≠ []) = [a.chars ++ b.chars] := by
    simp [Card.chars]
  have hweight : splitWeight (a.chars ++ b.chars) = (a.chars ++ b.chars, none) := by
    have hat : '@' ∉ a.chars ++ b.chars := by simp [at_not_mem_card]
    rw [splitWeight, partition_of_not_mem hat]
    exact partition_of_not_mem (hnot ':' (by decide))
  have htoken : addToken round (board.map Card.text) [] (a.chars ++ b.chars) =
      .ok [{ cards := sortedPair a.text b.text, weight := 1 }] := by
    rw [addToken, hweight]
    refine bind_eq_ok.2 ⟨1, rfl, bind_eq_ok.2 ⟨_, expandHandClass_chars hboard hne ha hb, ?_⟩⟩
    rfl
  rw [parseWeightedRange, hstrip, hsplit, htokens, require_of (by simp)]
  refine bind_eq_ok.2 ⟨(), rfl, bind_eq_ok.2 ⟨[{ cards := sortedPair a.text b.text, weight := 1 }],
    ?_, rfl⟩⟩
  rw [List.foldlM_cons, htoken]
  rfl

theorem overlaps_texts {combo : Combo} (hfirst : a ≠ combo.first ∧ a ≠ combo.second)
    (hsecond : b ≠ combo.first ∧ b ≠ combo.second) :
    overlaps (sortedPair a.text b.text) combo.texts = false := by
  have htext : ∀ {c d : Card}, c ≠ d → c.text ≠ d.text := fun h heq => h (Card.text_injective heq)
  unfold overlaps Combo.texts sortedPair
  split <;> split <;>
    simp [htext hfirst.1, htext hfirst.2, htext hsecond.1, htext hsecond.2]

/-- The pair of the Hero combo and a villain combo. -/
def heroPair (a b : Card) (villain : WeightedCombo) : ComboPair where
  hero := { cards := sortedPair a.text b.text, weight := 1 }
  villain := villain
  weight := 1 * villain.weight

variable {combos : List CanonicalWeightedComboV1} {villain : List WeightedCombo}

theorem validPairs_river (ha : a ∉ board) (hb : b ∉ board)
    (hfree : ∀ combo ∈ combos, combo.cards.blocked ([a, b] ++ board) = false)
    (hvillain : villain.Perm (combos.map (readCombo .finite))) :
    validPairs [{ cards := sortedPair a.text b.text, weight := 1 }] villain (board.map Card.text) =
      villain.map (heroPair a b) := by
  have hkept : villain.filter (fun combo =>
      !overlaps (sortedPair a.text b.text) combo.cards &&
        !touches (board.map Card.text) combo.cards) = villain := by
    rw [List.filter_eq_self]
    intro read hread
    obtain ⟨combo, hcombo, rfl⟩ := List.mem_map.1 (hvillain.mem_iff.1 hread)
    have hblocked := hfree combo hcombo
    simp only [Combo.blocked, Bool.or_eq_false_iff, decide_eq_false_iff_not, List.mem_append,
      List.mem_cons, List.not_mem_nil, or_false, not_or] at hblocked
    obtain ⟨⟨⟨hfa, hfb⟩, hfirst⟩, ⟨hsa, hsb⟩, hsecond⟩ := hblocked
    have hoverlap := @overlaps_texts a b combo.cards ⟨Ne.symm hfa, Ne.symm hsa⟩
      ⟨Ne.symm hfb, Ne.symm hsb⟩
    have htouch : touches (board.map Card.text) combo.cards.texts = false :=
      touches_sortedPair hfirst hsecond
    show (!overlaps (sortedPair a.text b.text) combo.cards.texts &&
      !touches (board.map Card.text) combo.cards.texts) = true
    rw [hoverlap, htouch]
    rfl
  have hhero : touches (board.map Card.text) (sortedPair a.text b.text) = false :=
    touches_sortedPair ha hb
  rw [validPairs, List.filter_cons_of_pos (by simp [hhero]), List.filter_nil]
  rw [List.flatMap_singleton, hkept]
  rfl

theorem pairScores_river {combo : CanonicalWeightedComboV1} (hboard : board.length = 5)
    (hhero : ([a, b] ++ board).Nodup) (hfree : combo.cards.blocked ([a, b] ++ board) = false) :
    pairScores board board 0 (heroPair a b (readCombo .finite combo)) =
      .ok [outcome (bestOfSeven ([a, b] ++ board)) (comboRank board combo)] := by
  have hsplit := List.nodup_append'.1 hhero
  have hblocked : combo.cards.blocked board = false := by
    simp only [Combo.blocked, Bool.or_eq_false_iff, decide_eq_false_iff_not, List.mem_append,
      not_or] at hfree ⊢
    exact ⟨hfree.1.2, hfree.2.2⟩
  have hvillain := evaluateHoldem_sortedPair (nodup_combo hsplit.2.1 hblocked) hboard
  have hscore : score (sortedPair a.text b.text) combo.cards.texts (board.map Card.text) =
      .ok (outcome (bestOfSeven ([a, b] ++ board)) (comboRank board combo)) := by
    refine bind_eq_ok.2 ⟨bestOfSeven ([a, b] ++ board), ?_, bind_eq_ok.2 ⟨comboRank board combo, ?_,
      rfl⟩⟩
    · rw [evaluateHoldem_sortedPair hhero hboard]
      rfl
    · show (evaluateHoldem [combo.cards.texts.1, combo.cards.texts.2] _).mapError _ = _
      rw [Combo.texts, hvillain]
      rfl
  rw [pairScores, List.sublistsLen_zero, List.mapM_cons, List.append_nil]
  refine bind_eq_ok.2 ⟨_, hscore, ?_⟩
  rfl

/-- The score of what a villain combo is read as. -/
def readScore (heroRank : List Nat) (board : List Card) (combos : List CanonicalWeightedComboV1)
    (read : WeightedCombo) : ℚ :=
  ((combos.find? fun combo => readCombo .finite combo = read).map fun combo =>
    outcome heroRank (comboRank board combo)).getD 0

theorem readScore_readCombo {heroRank : List Nat} (hnodup : (combos.map (·.cards)).Nodup)
    {combo : CanonicalWeightedComboV1} (hcombo : combo ∈ combos) :
    readScore heroRank board combos (readCombo .finite combo) =
      outcome heroRank (comboRank board combo) := by
  have hsome : (combos.find? fun other =>
      readCombo .finite other = readCombo .finite combo).isSome = true :=
    List.find?_isSome.2 ⟨combo, hcombo, by simp⟩
  obtain ⟨found, hfound⟩ := Option.isSome_iff_exists.1 hsome
  have hread : readCombo .finite found = readCombo .finite combo := by
    simpa using List.find?_some hfound
  have hcards : found.cards = combo.cards :=
    Combo.texts_injective (congrArg WeightedCombo.cards hread)
  have hsame : found = combo :=
    List.inj_on_of_nodup_map hnodup (List.mem_of_find?_eq_some hfound) hcombo hcards
  rw [readScore, hfound, hsame]
  rfl

/-- The enumeration of a river, as sums over the combos of the range. -/
theorem exactResult_river {heroRank : List Nat} (hnodup : (combos.map (·.cards)).Nodup)
    (hvillain : villain.Perm (combos.map (readCombo .finite))) :
    exactResult (villain.map (heroPair a b))
        (villain.map fun read => [readScore heroRank board combos read]) 1 0 =
      { heroEquity :=
          (combos.map fun combo => outcome heroRank (comboRank board combo) *
            (combo.weight.millionths / WEIGHT_SCALE)).sum /
            (combos.map fun combo => ((combo.weight.millionths : ℚ) / WEIGHT_SCALE)).sum
        evaluations := combos.length
        unweightedWins := (combos.map fun combo => outcome heroRank (comboRank board combo)).count 1
        unweightedTies :=
          (combos.map fun combo => outcome heroRank (comboRank board combo)).count (1 / 2)
        unweightedLosses :=
          (combos.map fun combo => outcome heroRank (comboRank board combo)).count 0
        rangePairCount := combos.length
        cardsToCome := 0 } := by
  have hlength : villain.length = combos.length := by
    rw [hvillain.length_eq, List.length_map]
  have hscores : (villain.map (readScore heroRank board combos)).Perm
      (combos.map fun combo => outcome heroRank (comboRank board combo)) := by
    refine (hvillain.map _).trans (List.Perm.of_eq ?_)
    rw [List.map_map]
    exact List.map_congr_left fun combo hcombo => readScore_readCombo hnodup hcombo
  have hflat : (villain.map fun read => [readScore heroRank board combos read]).flatten =
      villain.map (readScore heroRank board combos) := by
    rw [← List.flatMap_def, ← List.map_eq_flatMap]
  have hweighted : (List.zipWith (fun pair values => values.sum * pair.weight)
      (villain.map (heroPair a b))
      (villain.map fun read => [readScore heroRank board combos read])).sum =
        (combos.map fun combo => outcome heroRank (comboRank board combo) *
          (combo.weight.millionths / WEIGHT_SCALE)).sum := by
    rw [List.zipWith_map, List.zipWith_self]
    refine ((hvillain.map _).sum_eq).trans ?_
    rw [List.map_map]
    congr 1
    refine List.map_congr_left fun combo hcombo => ?_
    show [readScore heroRank board combos (readCombo .finite combo)].sum *
      (1 * (combo.weight.millionths / WEIGHT_SCALE)) = _
    rw [readScore_readCombo hnodup hcombo, List.sum_singleton, one_mul]
  have htotal : ((villain.map (heroPair a b)).map fun pair => pair.weight * ((1 : ℕ) : ℚ)).sum =
      (combos.map fun combo => ((combo.weight.millionths : ℚ) / WEIGHT_SCALE)).sum := by
    rw [List.map_map]
    refine ((hvillain.map _).sum_eq).trans ?_
    rw [List.map_map]
    congr 1
    refine List.map_congr_left fun combo _ => ?_
    show 1 * ((combo.weight.millionths : ℚ) / WEIGHT_SCALE) * ((1 : ℕ) : ℚ) = _
    rw [one_mul, Nat.cast_one, mul_one]
  simp only [exactResult, hweighted, htotal, hflat, hscores.count_eq, List.length_map, hlength]

end

/-- The sums of the enumeration are the fraction of the oracle. -/
theorem equity_eq {heroRank : List Nat} {board : List Card}
    {combos : List CanonicalWeightedComboV1} {totals : OracleTotals} (hne : combos ≠ [])
    (h : Counted heroRank board combos totals) :
    (combos.map fun combo => outcome heroRank (comboRank board combo) *
        (combo.weight.millionths / WEIGHT_SCALE)).sum /
      (combos.map fun combo => ((combo.weight.millionths : ℚ) / WEIGHT_SCALE)).sum =
        totals.equity (combos.map (·.weight.millionths)).sum := by
  have hscale : (WEIGHT_SCALE : ℚ) ≠ 0 := by decide
  have hscores : (combos.map fun combo => outcome heroRank (comboRank board combo) *
      ((combo.weight.millionths : ℚ) / WEIGHT_SCALE)).sum =
        (combos.map fun combo => outcome heroRank (comboRank board combo) *
          combo.weight.millionths).sum / WEIGHT_SCALE := by
    rw [div_eq_mul_inv, ← List.sum_map_mul_right]
    simp only [div_eq_mul_inv, mul_assoc]
  have hweights : (combos.map fun combo => ((combo.weight.millionths : ℚ) / WEIGHT_SCALE)).sum =
      ((combos.map (·.weight.millionths)).sum : ℕ) / WEIGHT_SCALE := by
    simp only [div_eq_mul_inv, List.sum_map_mul_right]
    rw [Nat.cast_list_sum, List.map_map]
    rfl
  have htotal : (((combos.map (·.weight.millionths)).sum : ℕ) : ℚ) ≠ 0 := by
    obtain ⟨combo, hcombo⟩ := List.exists_mem_of_ne_nil combos hne
    have hle := List.single_le_sum (fun _ _ => Nat.zero_le _) _
      (List.mem_map_of_mem (f := fun combo => combo.weight.millionths) hcombo)
    have hpos := combo.weight.pos
    exact_mod_cast (show (combos.map (·.weight.millionths)).sum ≠ 0 by omega)
  rw [hscores, hweights, OracleTotals.equity, h.weights]
  push_cast
  field_simp

/-- The exact branch of the calculator on the derived input of an admitted case
returns the fraction and the counts of the oracle. -/
theorem river_equity_agreement {digests : Digests} {hand : CanonicalHand} {admission : Admission}
    {α : Type} (monteCarlo : List ComboPair → Except EquityError α)
    (h : admitVersionedRangeRiverEquity digests hand = .ok admission) :
    ∃ result, holdemEquity .finite monteCarlo (expectedEquityInput admission) =
        .ok (.exactEnumeration result) ∧
      result.heroEquity =
        (2 * admission.oracle.winWeightMillionths + admission.oracle.tieWeightMillionths : ℕ) /
          (2 * admission.range.totalWeightMillionths : ℕ) ∧
      result.evaluations = admission.range.comboCount ∧
      result.rangePairCount = admission.range.comboCount ∧
      result.unweightedWins = admission.oracle.winComboCount ∧
      result.unweightedTies = admission.oracle.tieComboCount ∧
      result.unweightedLosses = admission.oracle.lossComboCount := by
  obtain ⟨hhero, hboard, hnodup, hne, hcombos, hfree, htext, hcount, htotal, horacle⟩ :=
    admitted_of_admit h
  obtain ⟨definition, hero, board, header, range, oracle⟩ := admission
  dsimp only at *
  obtain ⟨a, b, rfl⟩ := List.length_eq_two.1 hhero
  have hsplit := List.nodup_append'.1 hnodup
  have hne' : a ≠ b := by
    have := hsplit.1
    simpa using this
  have hdisjoint := hsplit.2.2
  have ha : a ∉ board := fun hmem => hdisjoint (by simp) hmem
  have hb : b ∉ board := fun hmem => hdisjoint (by simp) hmem
  have hfreeBoard : ∀ combo ∈ range.combos, combo.cards.blocked board = false := by
    intro combo hcombo
    have hblocked := hfree combo hcombo
    simp only [Combo.blocked, Bool.or_eq_false_iff, decide_eq_false_iff_not, List.mem_append,
      not_or] at hblocked ⊢
    exact ⟨hblocked.1.2, hblocked.2.2⟩
  -- the oracle
  rw [oracleTotals, require_bind_eq_ok, require_bind_eq_ok] at horacle
  obtain ⟨-, hlimit, horacle⟩ := horacle
  obtain ⟨heroRank, hrank, horacle⟩ := bind_eq_ok.1 horacle
  have hheroRank : heroRank = bestOfSeven ([a, b] ++ board) := by
    have hpair := @evaluateHoldem_text [a, b] board hnodup rfl hboard
    rw [mapError_eq_ok, hpair] at hrank
    exact (Except.ok.inj hrank).symm
  obtain ⟨totals, hfold, hcounted⟩ : ∃ totals,
      range.combos.foldlM (OracleTotals.step heroRank board) {} = .ok totals ∧
        Counted heroRank board range.combos totals := foldlM_step hboard hsplit.2.1 hfreeBoard
  rw [hfold] at horacle
  obtain rfl := Except.ok.inj horacle
  -- the calculator
  obtain ⟨villain, hvillain, hperm⟩ :=
    parseWeightedRange_canonicalNotation unitRounding_exact hsplit.2.1 hfreeBoard hcombos hne
  have hpairs := validPairs_river ha hb hfree hperm
  have hlength : villain.length = range.combos.length := by rw [hperm.length_eq, List.length_map]
  have hscores : (villain.map (heroPair a b)).mapM (pairScores board board 0) =
      .ok (villain.map fun read => [readScore heroRank board range.combos read]) := by
    rw [mapM_eq_ok, List.forall₂_map_left_iff, List.forall₂_map_right_iff, List.forall₂_same]
    intro read hread
    obtain ⟨combo, hcombo, rfl⟩ := List.mem_map.1 (hperm.mem_iff.1 hread)
    rw [readScore_readCombo hcombos hcombo, hheroRank]
    exact pairScores_river hboard hnodup (hfree combo hcombo)
  refine ⟨exactResult (villain.map (heroPair a b))
    (villain.map fun read => [readScore heroRank board range.combos read]) 1 0, ?_, ?_⟩
  · have hknown : normalizeCards ((board ++ []).map Card.text) = .ok board := by
      rw [List.append_nil, normalizeCards_text hsplit.2.1]
    have hheroText : parseWeightedRange .finite (board.map Card.text) ([a, b].flatMap Card.chars) =
        .ok [{ cards := sortedPair a.text b.text, weight := 1 }] := by
      rw [List.flatMap_cons, List.flatMap_singleton]
      exact parseWeightedRange_two hsplit.2.1 hne' ha hb
    have hpairsNe : villain.map (heroPair a b) ≠ [] := by
      rw [← List.length_pos_iff, List.length_map, hlength, List.length_pos_iff]
      exact hne
    rw [holdemEquity]
    refine bind_eq_ok.2 ⟨board, by rw [expectedEquityInput, normalizeCards_text hsplit.2.1]; rfl,
      bind_eq_ok.2 ⟨[], rfl, ?_⟩⟩
    rw [require_of (by simp [hboard])]
    refine bind_eq_ok.2 ⟨(), rfl, bind_eq_ok.2 ⟨board, by rw [hknown]; rfl,
      bind_eq_ok.2 ⟨_, by rw [expectedEquityInput, hheroText]; rfl,
      bind_eq_ok.2 ⟨villain, by rw [expectedEquityInput, htext, hvillain]; rfl, ?_⟩⟩⟩⟩
    have hone : ((52 - ((5 : ℕ) : ℤ) - 4).toNat).choose (5 - 5) = 1 := by decide
    have hestimated : (villain.map (heroPair a b)).length * 1 ≤ RANGE_EQUITY_MAX_EVALUATIONS := by
      rw [List.length_map, Nat.mul_one, hlength, ← hcount]
      exact hlimit
    rw [hpairs, hboard]
    refine bind_eq_ok.2 ⟨(), require_of hpairsNe, bind_eq_ok.2 ⟨(), require_of (by decide),
      bind_eq_ok.2 ⟨(), require_of (show 1 ≤ RANGE_EQUITY_MAX_EVALUATIONS ∧
        RANGE_EQUITY_MAX_EVALUATIONS ≤ HARD_MAX_EXACT_EVALUATIONS by decide), ?_⟩⟩⟩
    rw [hone, if_pos (.inl rfl)]
    exact bind_eq_ok.2 ⟨(), require_of hestimated, bind_eq_ok.2 ⟨_, hscores, rfl⟩⟩
  · rw [exactResult_river hcombos hperm, hcount]
    refine ⟨?_, rfl, rfl, hcounted.wins.symm, hcounted.ties.symm, hcounted.losses.symm⟩
    rw [htotal]
    exact equity_eq hne hcounted

section RiverHand

/-- The digests of the texts and values of one river decision. -/
def riverDigests : Digests where
  text _ := "fc003f9c2af319f65bde534818503b3b9bb3fe6c2c21feaa0e206b26e3ea2b0a"
  actionPrefix _ := "4455a004660c6d1db725b22a674532a71a838d6a68c7f5632f3116e3b09844cb"
  binding _ := "63e7254688ca0449d5542e015722ea0349195066287ff41ba939a32222dbddc7"
  combos _ := "c8b5fb38b3236cffbd5a18524777e9807ef4b8ebad47079c47d1a5abbab4b8e3"
  text_valid _ := by decide
  action_prefix_valid _ := by decide

def riverBoard : List Card := [⟨10, 1⟩, ⟨9, 0⟩, ⟨5, 3⟩, ⟨0, 0⟩, ⟨0, 1⟩]

def riverAdmission : Admission where
  definition := riverDefinition
  hero := [⟨12, 3⟩, ⟨11, 2⟩]
  board := riverBoard
  header :=
    { rangeId := "river"
      targetPlayerId := "v"
      source := riverDefinition.source
      gameConditions := riverDefinition.gameConditions
      sourceNotationSha256 := "fc003f9c2af319f65bde534818503b3b9bb3fe6c2c21feaa0e206b26e3ea2b0a" }
  range :=
    { conditionBindingSha256 := "63e7254688ca0449d5542e015722ea0349195066287ff41ba939a32222dbddc7"
      blockers := [⟨12, 3⟩, ⟨11, 2⟩] ++ riverBoard
      canonicalNotation := "AcKc@0.5,AdKd@0.5,QcQh,QcQs,QhQs".toList
      canonicalComboSha256 := "c8b5fb38b3236cffbd5a18524777e9807ef4b8ebad47079c47d1a5abbab4b8e3"
      combos :=
        [⟨⟨⟨12, 0⟩, ⟨11, 0⟩, by decide⟩, .half⟩,
          ⟨⟨⟨12, 1⟩, ⟨11, 1⟩, by decide⟩, .half⟩,
          ⟨⟨⟨10, 0⟩, ⟨10, 2⟩, by decide⟩, .full⟩, ⟨⟨⟨10, 0⟩, ⟨10, 3⟩, by decide⟩, .full⟩,
          ⟨⟨⟨10, 2⟩, ⟨10, 3⟩, by decide⟩, .full⟩]
      comboCount := 5
      totalWeightMillionths := 4000000 }
  oracle :=
    { tieComboCount := 2
      lossComboCount := 3
      tieWeightMillionths := 1000000
      lossWeightMillionths := 3000000 }

theorem boundTo_river :
    BoundTo riverDigests riverHand riverDefinition "h"
      { playerId := "v", position := "BB", startingStack := 100 }
      ([⟨12, 3⟩, ⟨11, 2⟩] ++ riverBoard) where
  hero_eq := rfl
  player_eq := rfl
  not_hero := by decide
  game := ⟨rfl, rfl, rfl, rfl, le_refl _⟩
  street := rfl
  prefix_and_stack := ⟨rfl, by decide +kernel, by decide +kernel⟩
  board := le_refl _
  cards := by decide +kernel

/-- What the river definition expands to. -/
def riverExpanded : List (Combo × Weight) :=
  (expandTokens ("QQ,AKs@0.5".toList.splitOn ',')).expanded

theorem validateVersionedRange_river :
    validateVersionedRange riverDigests riverHand riverDefinition =
      .success riverAdmission.header riverAdmission.range := by
  obtain ⟨binding, hbinding, hblockers⟩ := exists_conditionBinding _ _ _ boundTo_river
  have hcombos : canonicalCombos binding.blockers riverExpanded = riverAdmission.range.combos := by
    rw [hblockers]
    decide +kernel
  refine validateVersionedRange_eq_success.2 ⟨checkedRange_ok.2 ⟨by decide, by decide +kernel, rfl,
    rfl, binding, hbinding, by decide +kernel, riverExpanded, by decide +kernel, by decide +kernel,
    ?_, ?_⟩, rfl⟩
  · rw [hcombos]
    decide
  · rw [hcombos]
    have htext : canonicalNotation riverAdmission.range.combos =
        riverAdmission.range.canonicalNotation := by decide +kernel
    simp only [validRange, htext, hblockers]
    rfl

theorem admit_river :
    admitVersionedRangeRiverEquity riverDigests riverHand = .ok riverAdmission := by
  refine bind_eq_ok.2 ⟨riverDefinition, rfl, bind_eq_ok.2 ⟨([⟨12, 3⟩, ⟨11, 2⟩], riverBoard),
    by decide +kernel, bind_eq_ok.2 ⟨(), by decide +kernel, ?_⟩⟩⟩
  rw [validateVersionedRange_river]
  exact bind_eq_ok.2 ⟨riverAdmission.oracle, by decide +kernel, rfl⟩

theorem river_equity_agreement_hand :
    ∃ result : ExactEquity,
      holdemEquity .finite (fun _ => (.error .noPairs : Except EquityError Unit))
        (expectedEquityInput riverAdmission) = .ok (.exactEnumeration result) ∧
      result.heroEquity = 1 / 8 ∧ result.unweightedTies = 2 := by
  obtain ⟨result, hresult, hequity, -, -, -, hties, -⟩ :=
    river_equity_agreement (fun _ => (.error .noPairs : Except EquityError Unit)) admit_river
  refine ⟨result, hresult, ?_, hties⟩
  rw [hequity]
  decide +kernel

end RiverHand

end PokerDeliberation.Equity
