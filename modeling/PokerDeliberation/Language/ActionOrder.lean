import PokerDeliberation.Hands.Schemas
import PokerDeliberation.Lib.Checked

/-!
# The action order of a narrated hand

`_validate_action_order` walks through the actions of a hand with the players
who have not folded and the queue of those whose decision is pending. It takes
only hands that a fold ends.
-/

namespace PokerDeliberation.Language

open Lib
open Hands (Street ActionKind HandAction Chips)

/-- A row of `players`: the player, the position and the stack. -/
structure SeatRow where
  player : String
  position : String
  stack : Chips

/-- The codes that a rejection of the action order has. -/
inductive DiagnosticCode where
  | unsupported | missing | player | street | action
  deriving DecidableEq, Repr

/-- `BoundedNaturalLanguageError`, or a `KeyError`. -/
inductive OrderError where
  | rejected (code : DiagnosticCode) (fieldPath : String)
  | keyError
  deriving DecidableEq, Repr

/-- `_POSITIONS_BY_TABLE_SIZE.get`. -/
def positionsByTableSize : Nat → Option (List String)
  | 2 => some ["SB", "BB"]
  | 3 => some ["BTN", "SB", "BB"]
  | 4 => some ["CO", "BTN", "SB", "BB"]
  | 5 => some ["HJ", "CO", "BTN", "SB", "BB"]
  | 6 => some ["UTG", "HJ", "CO", "BTN", "SB", "BB"]
  | _ => none

def PREFLOP_POSITION_ORDER : List String := ["UTG", "HJ", "CO", "BTN", "SB", "BB"]

def POSTFLOP_POSITION_ORDER : List String := ["SB", "BB", "UTG", "HJ", "CO", "BTN"]

def HEADS_UP_POSTFLOP_POSITION_ORDER : List String := ["BB", "SB"]

/-- `_STREET_ORDER`; the showdown is no key of it. -/
def streetOrder : Street → Option Nat
  | .preflop => some 0
  | .flop => some 1
  | .turn => some 2
  | .river => some 3
  | .showdown => none

section

variable (players : List SeatRow)

/-- `position_to_player.get`; of two rows with one position the last counts. -/
def positionToPlayer (position : String) : Option String :=
  (players.reverse.find? fun row => row.position = position).map SeatRow.player

/-- `frozenset(position_to_player) == _POSITIONS_BY_TABLE_SIZE.get(table_size)`. -/
def positionsMatch : Bool :=
  match positionsByTableSize players.length with
  | some table =>
    (players.all fun row => row.position ∈ table) &&
      table.all fun position => position ∈ players.map SeatRow.position
  | none => false

def positionOrder (street : Street) : List String :=
  if street = .preflop then PREFLOP_POSITION_ORDER
  else if players.length = 2 then HEADS_UP_POSTFLOP_POSITION_ORDER
  else POSTFLOP_POSITION_ORDER

/-- `ordered_active`. -/
def orderedActive (street : Street) : List String :=
  (positionOrder players street).filterMap (positionToPlayer players)

/-! ## One action -/

/-- The variables of the loop. -/
structure OrderState where
  active : List String
  currentStreet : Street := .preflop
  streetActionCount : Nat := 0
  terminal : Bool := false
  pending : List String

/-- The checks of a new street, and its queue. -/
def enterStreet (s : OrderState) (street : Street) : Except OrderError OrderState :=
  if street = s.currentStreet then .ok s
  else
    match streetOrder street, streetOrder s.currentStreet with
    | some next, some current =>
      if next ≠ current + 1 ∨ s.pending ≠ [] ∨ s.streetActionCount = 0 ∨ s.active.length < 2 then
        .error (.rejected .street "hand.actions.street")
      else
        .ok { s with
          currentStreet := street
          streetActionCount := 0
          pending := (orderedActive players street).filter (· ∈ s.active) }
    | _, _ => .error .keyError

/-- The queue after a player who was in turn has acted. -/
def recordAction (s : OrderState) (action : HandAction) : OrderState :=
  let pending := s.pending.tail
  let s := { s with streetActionCount := s.streetActionCount + 1, pending }
  match action.action with
  | .fold =>
    let active := s.active.filter (· ≠ action.actor)
    if active.length = 1 then { s with active, terminal := true, pending := [] }
    else { s with active, pending := pending.filter (· ∈ active) }
  | .bet | .raise =>
    let order := (orderedActive players s.currentStreet).filter (· ∈ s.active)
    let actorIndex := order.idxOf action.actor
    { s with pending := order.drop (actorIndex + 1) ++ order.take actorIndex }
  | _ => s

def stepAction (s : OrderState) (action : HandAction) : Except OrderError OrderState := do
  require (s.terminal = false ∧ action.action ≠ .postBlind)
    (.rejected .action "hand.actions.terminal")
  let s ← enterStreet players s action.street
  require (action.actor ∈ s.active ∧ s.pending.head? = some action.actor)
    (.rejected .action "hand.actions.actor_order")
  return recordAction players s action

/-! ## A hand -/

def initialOrder : OrderState :=
  let active := (players.map SeatRow.player).dedup
  { active, pending := (orderedActive players .preflop).filter (· ∈ active) }

/-- The two blinds: actor, action and street of the first two actions. -/
def blindsPosted (actions : List HandAction) : Bool :=
  (actions.take 2).map (fun a => (some a.actor, a.action, a.street)) =
    [(positionToPlayer players "SB", .postBlind, .preflop),
      (positionToPlayer players "BB", .postBlind, .preflop)]

/-- `_validate_action_order`. -/
def validateActionOrder (actions : List HandAction) : Except OrderError Unit := do
  require (positionsMatch players) (.rejected .player "hand.players.position")
  require (3 ≤ actions.length) (.rejected .missing "hand.actions")
  require (blindsPosted players actions) (.rejected .action "hand.actions.blind_order")
  let s ← (actions.drop 2).foldlM (stepAction players) (initialOrder players)
  require s.terminal (.rejected .unsupported "hand.completion")

end

end PokerDeliberation.Language
