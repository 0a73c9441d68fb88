import PokerDeliberation.Equity.Evaluator
import PokerDeliberation.Ranges.Combinations

/-!
# Range equity

`holdemEquity` scores every pair of combos of two ranges over every completion
of the board. The rounding of the weights is a parameter, and so is what the
sampler returns when the enumeration is not used.
-/

namespace PokerDeliberation.Equity

open Lib Ranges

def HARD_MAX_EXACT_EVALUATIONS : Nat := 2000000

inductive EquityError where
  | cards (error : CardError)
  | range (error : RangeError)
  | evaluator (error : EvaluatorError)
  | boardLength
  | noPairs
  | undealtCards
  | maxExactEvaluations
  | tooManyEvaluations (required limit : Nat)
  deriving DecidableEq, Repr

inductive EquityMode where
  | auto | exact | monteCarlo
  deriving DecidableEq, Repr

structure EquityInput where
  heroRange : List Char
  villainRange : List Char
  board : List String
  deadCards : List String
  mode : EquityMode
  maxExactEvaluations : Nat

structure ExactEquity where
  heroEquity : ℚ
  evaluations : Nat
  unweightedWins : Nat
  unweightedTies : Nat
  unweightedLosses : Nat
  rangePairCount : Nat
  cardsToCome : Nat
  deriving DecidableEq

inductive EquityResult (α : Type) where
  | exactEnumeration (result : ExactEquity)
  | monteCarlo (result : α)

/-- `DECK`. -/
def DECK : List Card :=
  (List.finRange 13).flatMap fun rank => (List.finRange 4).map fun suit => ⟨rank, suit⟩

structure ComboPair where
  hero : WeightedCombo
  villain : WeightedCombo
  weight : ℚ

/-- Whether two combos share a card. -/
def overlaps (a b : String × String) : Bool :=
  a.1 = b.1 || a.1 = b.2 || a.2 = b.1 || a.2 = b.2

/-- `_valid_pairs`, before the check that there is one. -/
def validPairs (hero villain : List WeightedCombo) (dead : List String) : List ComboPair :=
  (hero.filter fun combo => !touches dead combo.cards).flatMap fun heroCombo =>
    (villain.filter fun combo =>
      !overlaps heroCombo.cards combo.cards && !touches dead combo.cards).map fun villainCombo =>
        { hero := heroCombo
          villain := villainCombo
          weight := heroCombo.weight * villainCombo.weight }

/-- `_score`. -/
def score (heroCards villainCards : String × String) (board : List String) :
    Except EquityError ℚ := do
  let heroRank ← (evaluateHoldem [heroCards.1, heroCards.2] board).mapError .evaluator
  let villainRank ← (evaluateHoldem [villainCards.1, villainCards.2] board).mapError .evaluator
  return if villainRank < heroRank then 1 else if heroRank = villainRank then 1 / 2 else 0

/-- The scores of a pair over the boards to come. -/
def pairScores (known board : List Card) (cardsToCome : Nat) (pair : ComboPair) :
    Except EquityError (List ℚ) :=
  let excluded := known.map Card.text ++
    [pair.hero.cards.1, pair.hero.cards.2, pair.villain.cards.1, pair.villain.cards.2]
  let remaining := DECK.filter fun card => card.text ∉ excluded
  (remaining.sublistsLen cardsToCome).mapM fun future =>
    score pair.hero.cards pair.villain.cards ((board ++ future).map Card.text)

/-- The result of the enumeration, from the scores of the pairs. -/
def exactResult (pairs : List ComboPair) (scores : List (List ℚ)) (boardsPerPair cardsToCome : Nat) :
    ExactEquity where
  heroEquity :=
    (List.zipWith (fun pair values => values.sum * pair.weight) pairs scores).sum /
      (pairs.map fun pair => pair.weight * (boardsPerPair : ℚ)).sum
  evaluations := scores.flatten.length
  unweightedWins := scores.flatten.count 1
  unweightedTies := scores.flatten.count (1 / 2)
  unweightedLosses := scores.flatten.count 0
  rangePairCount := pairs.length
  cardsToCome := cardsToCome

section

variable {α : Type} (round : ℚ → FloatText) (monteCarlo : List ComboPair → Except EquityError α)

def holdemEquity (input : EquityInput) : Except EquityError (EquityResult α) := do
  let board ← (normalizeCards input.board).mapError .cards
  let dead ← (normalizeCards input.deadCards).mapError .cards
  require (board.length ∈ [0, 3, 4, 5]) .boardLength
  let known ← (normalizeCards ((board ++ dead).map Card.text)).mapError .cards
  let hero ← (parseWeightedRange round (known.map Card.text) input.heroRange).mapError .range
  let villain ← (parseWeightedRange round (known.map Card.text) input.villainRange).mapError .range
  let pairs := validPairs hero villain (known.map Card.text)
  require (pairs ≠ []) .noPairs
  let cardsToCome := 5 - board.length
  let available : ℤ := 52 - known.length - 4
  require ((cardsToCome : ℤ) ≤ available) .undealtCards
  let boardsPerPair := available.toNat.choose cardsToCome
  let estimated := pairs.length * boardsPerPair
  require (1 ≤ input.maxExactEvaluations ∧
    input.maxExactEvaluations ≤ HARD_MAX_EXACT_EVALUATIONS) .maxExactEvaluations
  if input.mode = .exact ∨ (input.mode = .auto ∧ estimated ≤ input.maxExactEvaluations) then do
    require (estimated ≤ input.maxExactEvaluations)
      (.tooManyEvaluations estimated input.maxExactEvaluations)
    let scores ← pairs.mapM (pairScores known board cardsToCome)
    return .exactEnumeration (exactResult pairs scores boardsPerPair cardsToCome)
  else do
    let sampled ← monteCarlo pairs
    return .monteCarlo sampled

end

end PokerDeliberation.Equity
