import PokerDeliberation.Language.ActionOrder
import PokerDeliberation.Lib.Turns

/-!
# The reference game

What a betting sequence is, in terms of the actions taken so far alone: who is
still in the hand, who owes a decision since the last bet or raise, and who is
next around the table. A history lists the actions after the blinds, the latest
first.
-/

namespace PokerDeliberation.Language

open Lib
open Hands (Street ActionKind HandAction)

/-- The positions around the table, from the small blind on. -/
def CLOCKWISE : List String := ["SB", "BB", "UTG", "HJ", "CO", "BTN"]

/-- The next street of betting. -/
def nextStreet : Street → Option Street
  | .preflop => some .flop
  | .flop => some .turn
  | .turn => some .river
  | .river | .showdown => none

/-- A bet or a raise: everyone else owes a decision again. -/
def reopens (a : HandAction) : Bool := a.action = .bet || a.action = .raise

/-- The street of the latest action. -/
def streetOf : List HandAction → Street
  | [] => .preflop
  | a :: _ => a.street

/-- The player has acted on the street, and nobody has bet or raised there since. -/
def hasActed (street : Street) (player : String) : List HandAction → Bool
  | [] => false
  | a :: history =>
    a.street = street && (a.actor = player || (!reopens a && hasActed street player history))

section

variable (players : List SeatRow)

/-- Before the flop the seat behind the big blind is first; after it the seat behind the
button, which the small blind has when there are two players. -/
def behindFirst (street : Street) : String :=
  if street = .preflop then "BB"
  else if "BTN" ∈ players.map SeatRow.position then "BTN"
  else "SB"

/-- The players in seat order from the first seat of the street on. -/
def seatOrder (street : Street) : List String :=
  (afterTurn (CLOCKWISE.filter (· ∈ players.map SeatRow.position)) (behindFirst players street)).filterMap
    (positionToPlayer players)

/-- The players who have not folded. -/
def remaining (history : List HandAction) : List String :=
  (players.map SeatRow.player).filter fun player =>
    !history.any fun a => a.actor = player && a.action = .fold

/-- The player still owes a decision on the street. -/
def owes (history : List HandAction) (street : Street) (player : String) : Bool :=
  player ∈ remaining players history && !hasActed street player history

/-- The players in seat order from the one behind the latest actor of the street on. -/
def turns (history : List HandAction) (street : Street) : List String :=
  match history with
  | a :: _ =>
    if a.street = street then afterTurn (seatOrder players street) a.actor
    else seatOrder players street
  | [] => seatOrder players street

/-- The next player in seat order who owes a decision. -/
def nextToAct (history : List HandAction) (street : Street) : Option String :=
  (turns players history street).find? (owes players history street)

/-- The action may follow the history. -/
structure LegalAction (history : List HandAction) (a : HandAction) : Prop where
  contested : 2 ≤ (remaining players history).length
  noBlind : a.action ≠ .postBlind
  street : a.street = streetOf history ∨ nextStreet (streetOf history) = some a.street ∧
    ∀ player ∈ remaining players history, owes players history (streetOf history) player = false
  turn : nextToAct players history a.street = some a.actor

/-- Every action may follow the ones before it. -/
def Orderly : List HandAction → Prop
  | [] => True
  | a :: history => Orderly history ∧ LegalAction players history a

/-- A betting sequence of the reference game: the blinds, and orderly actions after them. -/
structure BettingSequence (actions : List HandAction) : Prop where
  positions : positionsMatch players
  blinds : blindsPosted players actions
  orderly : Orderly players (actions.drop 2).reverse

/-- All but one player have folded. -/
def EndedByFold (actions : List HandAction) : Prop :=
  (remaining players (actions.drop 2).reverse).length = 1

end

/-! ## Decisions -/

variable {players : List SeatRow} {history actions : List HandAction} {a : HandAction}

instance : Decidable (LegalAction players history a) :=
  decidable_of_iff (2 ≤ (remaining players history).length ∧ a.action ≠ .postBlind ∧
      (a.street = streetOf history ∨ nextStreet (streetOf history) = some a.street ∧
        ∀ player ∈ remaining players history,
          owes players history (streetOf history) player = false) ∧
      nextToAct players history a.street = some a.actor)
    ⟨fun ⟨contested, noBlind, street, turn⟩ => ⟨contested, noBlind, street, turn⟩,
      fun ⟨contested, noBlind, street, turn⟩ => ⟨contested, noBlind, street, turn⟩⟩

instance decidableOrderly : ∀ history : List HandAction, Decidable (Orderly players history)
  | [] => inferInstanceAs (Decidable True)
  | _ :: history =>
    have := decidableOrderly history
    inferInstanceAs (Decidable (_ ∧ _))

instance : Decidable (BettingSequence players actions) :=
  decidable_of_iff (positionsMatch players ∧ blindsPosted players actions ∧
      Orderly players (actions.drop 2).reverse)
    ⟨fun ⟨positions, blinds, orderly⟩ => ⟨positions, blinds, orderly⟩,
      fun ⟨positions, blinds, orderly⟩ => ⟨positions, blinds, orderly⟩⟩

end PokerDeliberation.Language
