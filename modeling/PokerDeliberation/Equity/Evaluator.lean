import PokerDeliberation.Cards
import Mathlib.Data.List.Lex
import Mathlib.Data.List.Sort
import Mathlib.Data.Multiset.Powerset
import Mathlib.Order.Lattice

/-!
# Hand strength

The five-card evaluator and the best of seven. A strength is a list of numbers
compared lexicographically: the category and then the ranks that break ties.
It depends on the set of cards alone, not on their order.
-/

namespace PokerDeliberation.Equity

open Lib

/-- `RANK_VALUE`. -/
def rankValue (card : Card) : Nat := card.rank + 2

/-- `sorted(values, reverse=True)`. -/
def sortedDown (values : List Nat) : List Nat := values.insertionSort (· ≥ ·)

/-- The largest value. -/
def largest (values : List Nat) : Nat := values.foldl max 0

/-- One comparison of the scan for a straight: the run so far and its best end. -/
def straightStep (run : Nat × Option Nat) (pair : Nat × Nat) : Nat × Option Nat :=
  if pair.2 = pair.1 + 1 then (run.1 + 1, if 5 ≤ run.1 + 1 then some pair.2 else run.2)
  else if pair.2 ≠ pair.1 then (1, run.2)
  else run

/-- `_straight_high` of a set of ranks. -/
def straightHigh (ranks : List Nat) : Option Nat :=
  let ranks := if 14 ∈ ranks then insert 1 ranks else ranks
  let ordered := ranks.insertionSort (· ≤ ·)
  ((ordered.zip ordered.tail).foldl straightStep (1, none)).2

/-- The counts of the ranks, the larger first. -/
def rankGroups (ranks : List Nat) : List (Nat × Nat) :=
  (ranks.dedup.map fun r => (ranks.count r, r)).insertionSort fun a b =>
    b.1 < a.1 ∨ a.1 = b.1 ∧ b.2 ≤ a.2

/-- The groups of a count, the larger rank first. -/
def pairRanks (groups : List (Nat × Nat)) : List Nat :=
  sortedDown ((groups.filter fun group => group.1 = 2).map (·.2))

/-- The ranks that are not of the given groups. -/
def otherRanks (ranks kept : List Nat) : List Nat := ranks.filter (· ∉ kept)

/-- The tuple of a hand, from its ranks and whether it is a flush. -/
def handTuple (isFlush : Bool) (ranks : List Nat) : List Nat :=
  let groups := rankGroups ranks
  let straight := straightHigh ranks.dedup
  let first := groups.getD 0 (0, 0)
  let next := groups.getD 1 (0, 0)
  if isFlush ∧ straight.isSome then [8, straight.getD 0]
  else if first.1 = 4 then [7, first.2, largest (otherRanks ranks [first.2])]
  else if first.1 = 3 ∧ next.1 = 2 then [6, first.2, next.2]
  else if isFlush then 5 :: sortedDown ranks
  else if straight.isSome then [4, straight.getD 0]
  else if first.1 = 3 then 3 :: first.2 :: sortedDown (otherRanks ranks [first.2])
  else
    match pairRanks groups with
    | [high, low] => [2, high, low, largest (otherRanks ranks [high, low])]
    | [pair] => 1 :: pair :: sortedDown (otherRanks ranks [pair])
    | _ => 0 :: sortedDown ranks

/-- `evaluate_five` of five different cards. -/
def fiveCardRank (cards : List Card) : List Nat :=
  handTuple ((cards.map (·.suit)).dedup.length = 1) (cards.map rankValue)

/-! ## The order of the cards -/

theorem sorted_congr {α : Type} {r : α → α → Prop} [DecidableRel r] [Std.Total r] [IsTrans α r]
    [Std.Antisymm r] {xs ys : List α} (h : xs.Perm ys) : xs.insertionSort r = ys.insertionSort r :=
  List.Perm.eq_of_pairwise (fun _ _ _ _ => Std.Antisymm.antisymm _ _)
    (List.pairwise_insertionSort r xs) (List.pairwise_insertionSort r ys)
    ((List.perm_insertionSort r xs).trans (h.trans (List.perm_insertionSort r ys).symm))

section

variable {xs ys : List Nat} (h : xs.Perm ys)
include h

theorem sortedDown_congr : sortedDown xs = sortedDown ys := sorted_congr h

theorem largest_congr : largest xs = largest ys := h.foldl_op_eq

theorem otherRanks_congr (kept : List Nat) : (otherRanks xs kept).Perm (otherRanks ys kept) :=
  h.filter _

theorem straightHigh_congr : straightHigh xs = straightHigh ys := by
  have hmem : 14 ∈ xs ↔ 14 ∈ ys := h.mem_iff
  have hordered : (if 14 ∈ xs then insert 1 xs else xs).insertionSort (· ≤ ·) =
      (if 14 ∈ ys then insert 1 ys else ys).insertionSort (· ≤ ·) := by
    by_cases hace : 14 ∈ xs
    · rw [if_pos hace, if_pos (hmem.1 hace)]
      exact sorted_congr (h.insert 1)
    · rw [if_neg hace, if_neg (fun hy => hace (hmem.2 hy))]
      exact sorted_congr h
  simp only [straightHigh, hordered]

theorem rankGroups_congr : rankGroups xs = rankGroups ys := by
  have : Std.Total fun a b : Nat × Nat => b.1 < a.1 ∨ a.1 = b.1 ∧ b.2 ≤ a.2 :=
    ⟨fun a b => by omega⟩
  have : IsTrans (Nat × Nat) fun a b => b.1 < a.1 ∨ a.1 = b.1 ∧ b.2 ≤ a.2 :=
    ⟨fun a b c => by omega⟩
  have : Std.Antisymm fun a b : Nat × Nat => b.1 < a.1 ∨ a.1 = b.1 ∧ b.2 ≤ a.2 :=
    ⟨fun a b hab hba => Prod.ext (by omega) (by omega)⟩
  have hcount : (fun r => (xs.count r, r)) = fun r => (ys.count r, r) := by
    funext r
    rw [h.count_eq]
  rw [rankGroups, rankGroups, hcount]
  exact sorted_congr (h.dedup.map _)

theorem handTuple_congr (isFlush : Bool) : handTuple isFlush xs = handTuple isFlush ys := by
  simp only [handTuple, rankGroups_congr h, straightHigh_congr h.dedup, sortedDown_congr h,
    largest_congr (otherRanks_congr h _), sortedDown_congr (otherRanks_congr h _)]

end

theorem fiveCardRank_congr {cards cards' : List Card} (h : cards.Perm cards') :
    fiveCardRank cards = fiveCardRank cards' := by
  rw [fiveCardRank, fiveCardRank, (h.map _).dedup.length_eq, handTuple_congr (h.map _)]

/-! ## The best of seven -/

inductive EvaluatorError where
  | cards (error : CardError)
  | fiveCards
  | holeAndBoard
  deriving DecidableEq, Repr

def evaluateFive (cards : List String) : Except EvaluatorError (List Nat) := do
  let normalized ← (normalizeCards cards).mapError .cards
  require (normalized.length = 5) .fiveCards
  return fiveCardRank normalized

/-- The largest of some tuples. -/
def bestTuple (tuples : List (List Nat)) : List Nat := tuples.foldl max []

def evaluateHoldem (holeCards board : List String) : Except EvaluatorError (List Nat) := do
  let hole ← (normalizeCards holeCards).mapError .cards
  let community ← (normalizeCards board).mapError .cards
  let allCards ← (normalizeCards ((hole ++ community).map Card.text)).mapError .cards
  require (hole.length = 2 ∧ community.length = 5) .holeAndBoard
  let tuples ← (allCards.sublistsLen 5).mapM fun five => evaluateFive (five.map Card.text)
  return bestTuple tuples

/-- The strength of seven cards. -/
def bestOfSeven (cards : List Card) : List Nat :=
  bestTuple ((cards.sublistsLen 5).map fiveCardRank)

theorem bestOfSeven_congr {cards cards' : List Card} (h : cards.Perm cards') :
    bestOfSeven cards = bestOfSeven cards' := by
  -- the evaluator on sets of cards, whose order no longer matters
  let strength : Multiset Card → List Nat := Quot.lift fiveCardRank fun _ _ => fiveCardRank_congr
  have hstrength : ∀ cards : List Card,
      Multiset.map strength (Multiset.powersetCard 5 (cards : Multiset Card)) =
        ((cards.sublistsLen 5).map fiveCardRank : List (List Nat)) := by
    intro cards
    rw [Multiset.powersetCard_coe, Multiset.map_coe, List.map_map]
    rfl
  have hperm : ((cards.sublistsLen 5).map fiveCardRank).Perm
      ((cards'.sublistsLen 5).map fiveCardRank) := by
    rw [← Multiset.coe_eq_coe, ← hstrength, ← hstrength, Multiset.coe_eq_coe.2 h]
  exact hperm.foldl_op_eq

section

variable {hole board : List Card} (h : (hole ++ board).Nodup) (hhole : hole.length = 2)
  (hboard : board.length = 5)
include h hhole hboard

/-- The evaluator on texts of seven different cards. -/
theorem evaluateHoldem_ok {holeCards boardCards : List String}
    (hholeCards : normalizeCards holeCards = .ok hole)
    (hboardCards : normalizeCards boardCards = .ok board) :
    evaluateHoldem holeCards boardCards = .ok (bestOfSeven (hole ++ board)) := by
  have hfive : ((hole ++ board).sublistsLen 5).mapM
      (fun five => evaluateFive (five.map Card.text)) =
        .ok (((hole ++ board).sublistsLen 5).map fiveCardRank) := by
    rw [mapM_eq_ok, List.forall₂_map_right_iff, List.forall₂_same]
    intro five hmem
    obtain ⟨hsub, hlength⟩ := List.mem_sublistsLen.1 hmem
    rw [evaluateFive, normalizeCards_text (hsub.nodup h)]
    refine bind_eq_ok.2 ⟨five, rfl, ?_⟩
    rw [require_of hlength]
    rfl
  rw [evaluateHoldem, hholeCards, hboardCards]
  refine bind_eq_ok.2 ⟨hole, rfl, bind_eq_ok.2 ⟨board, rfl, ?_⟩⟩
  rw [normalizeCards_text h]
  refine bind_eq_ok.2 ⟨hole ++ board, rfl, ?_⟩
  rw [require_of ⟨hhole, hboard⟩, hfive]
  rfl

theorem evaluateHoldem_text :
    evaluateHoldem (hole.map Card.text) (board.map Card.text) = .ok (bestOfSeven (hole ++ board)) :=
  have hsplit := List.nodup_append'.1 h
  evaluateHoldem_ok h hhole hboard (normalizeCards_text hsplit.1) (normalizeCards_text hsplit.2.1)

end

example : evaluateHoldem ["As", "Kh"] ["Qd", "Jc", "Ts", "2c", "2d"] = .ok [4, 14] := by
  decide +kernel

end PokerDeliberation.Equity
