import PokerDeliberation.Cards
import PokerDeliberation.Ranges.Models
import Mathlib.Algebra.Order.Field.Rat
import Mathlib.Data.NNRat.Defs

/-!
# Canonical hands

The public hand contract. A chip amount is a finite non-negative float; it is
kept as the rational that its shortest decimal writes.
-/

namespace PokerDeliberation.Hands

open Ranges (HandFormat VersionedRangeDefinitionV1)

inductive Street where
  | preflop | flop | turn | river | showdown
  deriving DecidableEq, Repr

inductive ActionKind where
  | postBlind | postAnte | fold | check | call | bet | raise | allIn
  deriving DecidableEq, Repr

/-- `NonNegativeFiniteFloat`, as an exact value. -/
abbrev Chips := ℚ≥0

structure PlayerStack where
  playerId : String
  position : String
  startingStack : Chips
  player_id_nonempty : playerId ≠ "" := by decide
  position_nonempty : position ≠ "" := by decide
  deriving DecidableEq

structure HandAction where
  street : Street
  actor : String
  action : ActionKind
  amount : Chips := 0
  toAmount : Option Chips := none
  potBefore : Option Chips := none
  potAfter : Option Chips := none
  actor_nonempty : actor ≠ "" := by decide
  deriving DecidableEq

inductive GameType where
  | nlhe | plo | other
  deriving DecidableEq, Repr

structure RangeDefinition where
  playerId : String
  rangeNotation : String
  notation_nonempty : rangeNotation ≠ ""
  deriving DecidableEq, Repr

/-- An element of `known_ranges`. -/
inductive KnownRange where
  | plain (range : RangeDefinition)
  | versioned (range : VersionedRangeDefinitionV1)
  deriving DecidableEq, Repr

structure CanonicalHand where
  gameType : GameType := .nlhe
  format : HandFormat
  tableSize : Nat
  smallBlind : Chips
  bigBlind : Chips
  ante : Chips := 0
  rake : Option Chips := none
  players : List PlayerStack
  heroPlayerId : Option String := none
  heroCards : List String := []
  board : List String := []
  actions : List HandAction := []
  /-- whether a tournament context is present -/
  tournament : Bool := false
  knownRanges : List KnownRange := []
  table_size_range : 2 ≤ tableSize ∧ tableSize ≤ 10
  small_blind_pos : 0 < smallBlind
  big_blind_pos : 0 < bigBlind
  two_players : 2 ≤ players.length
  hero_cards_le : heroCards.length ≤ 4
  board_le : board.length ≤ 5
  unique_ids : (players.map (·.playerId)).Nodup
  hero_listed : ∀ id ∈ heroPlayerId, id ∈ players.map (·.playerId)
  tournament_context : format = .tournament → tournament = true
  nlhe_cards : gameType = .nlhe → heroCards.length = 0 ∨ heroCards.length = 2
  deriving DecidableEq

namespace CanonicalHand

/-- The player ids, in the order of the hand. -/
def playerIds (hand : CanonicalHand) : List String := hand.players.map (·.playerId)

end CanonicalHand

section Examples

/-- A heads-up hand: the blinds, and then the given actions. -/
def headsUp (actions : List HandAction) : CanonicalHand where
  format := .cash
  tableSize := 2
  smallBlind := 1
  bigBlind := 2
  players := [{ playerId := "h", position := "SB", startingStack := 100 },
    { playerId := "v", position := "BB", startingStack := 100 }]
  heroPlayerId := some "h"
  heroCards := ["As", "Kh"]
  actions := [{ street := .preflop, actor := "h", action := .postBlind, amount := 1 },
    { street := .preflop, actor := "v", action := .postBlind, amount := 2 }] ++ actions
  table_size_range := by decide
  small_blind_pos := by decide
  big_blind_pos := by decide
  two_players := by decide
  hero_cards_le := by decide
  board_le := by decide
  unique_ids := by decide
  hero_listed := by decide
  tournament_context := by decide
  nlhe_cards := by decide

def heroCalls : HandAction := { street := .preflop, actor := "h", action := .call, amount := 1 }

def heroFolds : HandAction := { street := .preflop, actor := "h", action := .fold }

def heroRaises : HandAction :=
  { street := .preflop, actor := "h", action := .raise, amount := 5, toAmount := some 6 }

def villainFolds : HandAction := { street := .preflop, actor := "v", action := .fold }

end Examples

end PokerDeliberation.Hands

namespace PokerDeliberation.Ranges

open Hands

def openDefinition : VersionedRangeDefinitionV1 where
  rangeId := "open"
  targetPlayerId := "v"
  rangeNotation := "AA@0.50,KQs"
  source :=
    { sourceId := "fixture"
      sourceKind := .repositoryFixture
      licenseClassification := .repositoryOwnedMit
      usageClassification := .redistributionAllowed
      contentStatus := .assumption
      contentSha256 := "7dd1533cce7c6bd81e60c414021c9a772042f2a655494354b3854f5a6a85b991"
      source_id_valid := by decide
      content_hash_valid := by decide
      rights := rfl }
  gameConditions :=
    { format := .cash
      tableSize := 2
      targetPosition := "BB"
      street := .preflop
      startingStackMinBbMilli := 0
      startingStackMaxBbMilli := 10000000
      asOfActionIndex := 0
      actionPrefixSha256 := "4f53cda18c2baa0c0354bb5f9a3ecbe5ed12ab4d8e11ba873c2f11161202b945"
      table_size_range := by decide
      position_valid := by decide
      stack_le := by decide
      index_le := by decide
      action_hash_valid := by decide
      stack_ordered := by decide }
  range_id_valid := by decide
  target_valid := by decide
  notation_nonempty := by decide

def openHand : CanonicalHand where
  format := .cash
  tableSize := 2
  smallBlind := 1
  bigBlind := 2
  players := [{ playerId := "h", position := "SB", startingStack := 100 },
    { playerId := "v", position := "BB", startingStack := 100 }]
  heroPlayerId := some "h"
  heroCards := ["As", "Kh"]
  knownRanges := [.versioned openDefinition]
  table_size_range := by decide
  small_blind_pos := by decide
  big_blind_pos := by decide
  two_players := by decide
  hero_cards_le := by decide
  board_le := by decide
  unique_ids := by decide
  hero_listed := by decide
  tournament_context := by decide
  nlhe_cards := by decide

end PokerDeliberation.Ranges

namespace PokerDeliberation.Equity

open Hands Ranges

def riverDefinition : VersionedRangeDefinitionV1 where
  rangeId := "river"
  targetPlayerId := "v"
  rangeNotation := "QQ,AKs@0.5"
  source :=
    { sourceId := "fixture"
      sourceKind := .repositoryFixture
      licenseClassification := .repositoryOwnedMit
      usageClassification := .redistributionAllowed
      contentStatus := .assumption
      contentSha256 := "fc003f9c2af319f65bde534818503b3b9bb3fe6c2c21feaa0e206b26e3ea2b0a"
      source_id_valid := by decide
      content_hash_valid := by decide
      rights := rfl }
  gameConditions :=
    { format := .cash
      tableSize := 2
      targetPosition := "BB"
      street := .river
      startingStackMinBbMilli := 0
      startingStackMaxBbMilli := 10000000
      asOfActionIndex := 1
      actionPrefixSha256 := "4455a004660c6d1db725b22a674532a71a838d6a68c7f5632f3116e3b09844cb"
      table_size_range := by decide
      position_valid := by decide
      stack_le := by decide
      index_le := by decide
      action_hash_valid := by decide
      stack_ordered := by decide }
  range_id_valid := by decide
  target_valid := by decide
  notation_nonempty := by decide

def riverHand : CanonicalHand where
  format := .cash
  tableSize := 2
  smallBlind := 1
  bigBlind := 2
  players := [{ playerId := "h", position := "SB", startingStack := 100 },
    { playerId := "v", position := "BB", startingStack := 100 }]
  heroPlayerId := some "h"
  heroCards := ["As", "Kh"]
  board := ["Qd", "Jc", "7s", "2c", "2d"]
  actions :=
    [{ street := .river, actor := "v", action := .bet, amount := 2, toAmount := some 2 }]
  knownRanges := [.versioned riverDefinition]
  table_size_range := by decide
  small_blind_pos := by decide
  big_blind_pos := by decide
  two_players := by decide
  hero_cards_le := by decide
  board_le := by decide
  unique_ids := by decide
  hero_listed := by decide
  tournament_context := by decide
  nlhe_cards := by decide

end PokerDeliberation.Equity

namespace PokerDeliberation.Ledger

open Hands

/-- A player without chips folds to the blinds. -/
def emptyStackHand : CanonicalHand where
  format := .cash
  tableSize := 3
  smallBlind := 1
  bigBlind := 2
  rake := some 0
  players :=
    [{ playerId := "sb", position := "SB", startingStack := 100 },
     { playerId := "bb", position := "BB", startingStack := 100 },
     { playerId := "utg", position := "UTG", startingStack := 0 }]
  actions :=
    [{ street := .preflop, actor := "sb", action := .postBlind, amount := 1 },
     { street := .preflop, actor := "bb", action := .postBlind, amount := 2 },
     { street := .preflop, actor := "utg", action := .fold },
     { street := .preflop, actor := "sb", action := .call, amount := 1 },
     { street := .preflop, actor := "bb", action := .check }]
  table_size_range := by decide
  small_blind_pos := by decide
  big_blind_pos := by decide
  two_players := by decide
  hero_cards_le := by decide
  board_le := by decide
  unique_ids := by decide
  hero_listed := by decide
  tournament_context := by decide
  nlhe_cards := by decide

/-- The shortest stack is all in, and the others bet on into a side pot. -/
def sidePotHand : CanonicalHand where
  format := .cash
  tableSize := 3
  smallBlind := 1
  bigBlind := 2
  ante := 1
  rake := some 0
  players :=
    [{ playerId := "sb", position := "SB", startingStack := 100 },
     { playerId := "bb", position := "BB", startingStack := 50 },
     { playerId := "btn", position := "BTN", startingStack := 20 }]
  actions :=
    [{ street := .preflop, actor := "sb", action := .postAnte, amount := 1 },
     { street := .preflop, actor := "bb", action := .postAnte, amount := 1 },
     { street := .preflop, actor := "btn", action := .postAnte, amount := 1 },
     { street := .preflop, actor := "sb", action := .postBlind, amount := 1 },
     { street := .preflop, actor := "bb", action := .postBlind, amount := 2 },
     { street := .preflop, actor := "btn", action := .allIn, amount := 19, toAmount := some 19 },
     { street := .preflop, actor := "sb", action := .call, amount := 18 },
     { street := .preflop, actor := "bb", action := .raise, amount := 38, toAmount := some 40 },
     { street := .preflop, actor := "sb", action := .call, amount := 21, potAfter := some 102 }]
  table_size_range := by decide
  small_blind_pos := by decide
  big_blind_pos := by decide
  two_players := by decide
  hero_cards_le := by decide
  board_le := by decide
  unique_ids := by decide
  hero_listed := by decide
  tournament_context := by decide
  nlhe_cards := by decide

/-- Part of the bet is returned to the larger stack. -/
def unevenHand : CanonicalHand where
  format := .cash
  tableSize := 2
  smallBlind := 1 / 2
  bigBlind := 1
  rake := some 0
  players :=
    [{ playerId := "sb", position := "SB", startingStack := 10 },
     { playerId := "bb", position := "BB", startingStack := 4 }]
  actions :=
    [{ street := .preflop, actor := "sb", action := .postBlind, amount := 1 / 2 },
     { street := .preflop, actor := "bb", action := .postBlind, amount := 1 },
     { street := .preflop, actor := "sb", action := .allIn, amount := 19 / 2 },
     { street := .preflop, actor := "bb", action := .call, amount := 3 }]
  table_size_range := by decide
  small_blind_pos := by decide +kernel
  big_blind_pos := by decide
  two_players := by decide
  hero_cards_le := by decide
  board_le := by decide
  unique_ids := by decide
  hero_listed := by decide
  tournament_context := by decide
  nlhe_cards := by decide

/-- Two all-ins that are short by themselves are together as much as the raise to 4. -/
def shortAllInsHand : CanonicalHand where
  format := .cash
  tableSize := 5
  smallBlind := 1
  bigBlind := 2
  rake := some 0
  players :=
    [{ playerId := "sb", position := "SB", startingStack := 100 },
     { playerId := "bb", position := "BB", startingStack := 100 },
     { playerId := "utg", position := "UTG", startingStack := 100 },
     { playerId := "co", position := "CO", startingStack := 5 },
     { playerId := "btn", position := "BTN", startingStack := 6 }]
  actions :=
    [{ street := .preflop, actor := "sb", action := .postBlind, amount := 1 },
     { street := .preflop, actor := "bb", action := .postBlind, amount := 2 },
     { street := .preflop, actor := "utg", action := .raise, amount := 4, toAmount := some 4 },
     { street := .preflop, actor := "co", action := .allIn, amount := 5 },
     { street := .preflop, actor := "btn", action := .allIn, amount := 6 }]
  table_size_range := by decide
  small_blind_pos := by decide
  big_blind_pos := by decide
  two_players := by decide
  hero_cards_le := by decide
  board_le := by decide
  unique_ids := by decide
  hero_listed := by decide
  tournament_context := by decide
  nlhe_cards := by decide

end PokerDeliberation.Ledger
