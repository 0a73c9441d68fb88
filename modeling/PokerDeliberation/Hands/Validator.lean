import PokerDeliberation.Hands.Schemas
import PokerDeliberation.Lib.Rounding
import Mathlib.Data.Finset.Basic
import Mathlib.Data.Finset.Card
import Mathlib.Data.List.ReduceOption
import Mathlib.Data.List.Sort

/-!
# The hand validator

`validateHand` replays a hand and collects what is inconsistent; it never
stops at an error. `Table` is the running state, `Table.step` an action on it,
`problems` the errors of the action, and `snapshot` what the actor could see.
Chip values are exact, and are compared up to a tolerance.
-/

namespace PokerDeliberation.Hands

open Lib

/-- `close_absolute`. -/
def closeAbsolute (actual expected absolute : ℚ) : Prop := |actual - expected| ≤ absolute

instance (actual expected absolute : ℚ) : Decidable (closeAbsolute actual expected absolute) := by
  unfold closeAbsolute
  infer_instance

/-- `STREET_ORDER`. -/
def Street.index : Street → Nat
  | .preflop => 0
  | .flop => 1
  | .turn => 2
  | .river => 3
  | .showdown => 4

def Street.value : Street → String
  | .preflop => "preflop"
  | .flop => "flop"
  | .turn => "turn"
  | .river => "river"
  | .showdown => "showdown"

def ActionKind.value : ActionKind → String
  | .postBlind => "post_blind"
  | .postAnte => "post_ante"
  | .fold => "fold"
  | .check => "check"
  | .call => "call"
  | .bet => "bet"
  | .raise => "raise"
  | .allIn => "all_in"

/-- `_visible_board`. -/
def visibleBoard (board : List String) : Street → List String
  | .preflop => []
  | .flop => board.take 3
  | .turn => board.take 4
  | _ => board.take 5

/-- What is wrong with an action. -/
inductive Problem where
  | unknownActor (actor : String)
  | streetOrderBackwards
  | outstandingBet (street : Street) (unsettled : List String)
  | missingAction (street : Street) (players : List String)
  | streetAfterHandEnded
  | foldedPlayerActs
  | allInPlayerActs
  | potBefore (declared reconstructed : ℚ)
  | stackUnderflow
  | checkAmount
  | checkFacingBet
  | foldAmount
  | toAmountRequired
  | amountMismatch
  | useRaise
  | useBet
  | betNotIncreased
  | betBelowMinimum (bigBlind : ℚ)
  | raiseBelowMinimum
  | callAmount
  | allInAmount
  | allInToAmount
  | potAfter (declared reconstructed : ℚ)
  deriving DecidableEq, Repr

inductive HandError where
  | cards (error : CardError)
  | boardLength
  | action (index : Nat) (problem : Problem)
  deriving DecidableEq, Repr

def report (p : Prop) [Decidable p] (problem : Problem) : List Problem :=
  if p then [problem] else []

structure DecisionSnapshot where
  street : Street
  actionIndex : Nat
  actor : String
  board : List String
  potBefore : ℚ
  toCall : ℚ
  actualCall : Option ℚ
  contestablePot : ℚ
  currentBet : ℚ
  actorInvested : ℚ
  stackBehind : ℚ
  historyBefore : List String
  facingAction : String
  sidePotRisk : Bool
  deriving DecidableEq, Repr

structure ReconstructedAction where
  index : Nat
  potAfter : ℚ
  stacksAfter : String → ℚ
  activePlayers : List String
  allInPlayers : List String

/-! ## The table -/

structure Table where
  stackOf : String → ℚ
  active : Finset String
  allInPlayers : Finset String := ∅
  contributions : String → ℚ := fun _ => 0
  pot : ℚ := 0
  currentStreet : Option Street := none
  currentBet : ℚ := 0
  lastFullRaise : ℚ
  actedSinceFullRaise : Finset String := ∅
  history : List String := []

/-- The actions that commit chips. -/
def commitsChips : ActionKind → Bool
  | .postBlind | .postAnte | .call | .bet | .raise | .allIn => true
  | .fold | .check => false

/-- The line of an action in the history. -/
def historyLine (action : HandAction) : String :=
  let amount := if action.amount ≠ 0 then " amount=" ++ generalFormat action.amount else ""
  let toAmount := match action.toAmount with
    | some toAmount => " to=" ++ generalFormat toAmount
    | none => ""
  action.street.value ++ ": " ++ action.actor ++ " " ++ action.action.value ++ amount ++ toAmount

namespace Table

variable (tolerance bigBlind : ℚ) (t : Table)

/-- A new street starts. -/
def enter (street : Street) : Table :=
  if some street = t.currentStreet then t
  else
    { t with
      currentStreet := some street
      contributions := fun _ => 0
      currentBet := 0
      lastFullRaise := bigBlind
      actedSinceFullRaise := ∅ }

def outstanding (actor : String) : ℚ := max 0 (t.currentBet - t.contributions actor)

def stackBefore (actor : String) : ℚ := max 0 (t.stackOf actor)

def acted (actor : String) : Table :=
  { t with actedSinceFullRaise := insert actor t.actedSinceFullRaise }

/-- A full raise reopens the betting. -/
def reopened (actor : String) (raiseSize : ℚ) : Table :=
  { t with lastFullRaise := raiseSize, actedSinceFullRaise := {actor} }

/-- The bet goes up to `total`, by a full raise if it is at least `minimum`. -/
def raisedTo (minimum : ℚ) (actor : String) (total : ℚ) : Table :=
  let raiseSize := total - t.currentBet
  let noted := if minimum ≤ raiseSize + tolerance then t.reopened actor raiseSize else t.acted actor
  { noted with currentBet := total }

/-- The betting state after a bet or a raise. -/
def betOrRaise (minimum : ℚ) (action : HandAction) : Table :=
  match action.toAmount with
  | none => t
  | some toAmount =>
    if 0 < (toAmount : ℚ) - t.currentBet then t.raisedTo tolerance minimum action.actor toAmount
    else t

def actAllIn (action : HandAction) : Table :=
  let allInTotal := t.contributions action.actor + action.amount
  if t.currentBet + tolerance < allInTotal then
    t.raisedTo tolerance t.lastFullRaise action.actor allInTotal
  else t.acted action.actor

/-- The betting state after an action. -/
def act (action : HandAction) : Table :=
  match action.action with
  | .check | .call => t.acted action.actor
  | .fold => { t with active := t.active.erase action.actor }
  | .bet => t.betOrRaise tolerance bigBlind action
  | .raise => t.betOrRaise tolerance t.lastFullRaise action
  | .allIn => t.actAllIn tolerance action
  | .postBlind | .postAnte => t

/-- A stack that is used up is all in. -/
def settleStack (actor : String) : Table :=
  if t.stackOf actor ≤ tolerance then
    { t with
      stackOf := Function.update t.stackOf actor 0
      allInPlayers := insert actor t.allInPlayers }
  else t

/-- The chips of an action go to the pot. -/
def pay (action : HandAction) : Table :=
  let actor := action.actor
  if commitsChips action.action then
    let stackOf := Function.update t.stackOf actor (t.stackOf actor - action.amount)
    let contributions :=
      if action.action = .postAnte then t.contributions
      else Function.update t.contributions actor (t.contributions actor + action.amount)
    let currentBet :=
      if action.action = .postBlind then max t.currentBet (contributions actor) else t.currentBet
    settleStack tolerance
      { t with stackOf, contributions, pot := t.pot + action.amount, currentBet } actor
  else t

def note (action : HandAction) : Table := { t with history := t.history ++ [historyLine action] }

def step (action : HandAction) : Table :=
  let entered := t.enter bigBlind action.street
  let played := entered.act tolerance bigBlind action
  (played.pay tolerance action).note action

end Table

/-! ## Errors -/

section

variable (hand : CanonicalHand) (tolerance : ℚ)

/-- `sorted` of the players with the given property. -/
def sortedPlayers (p : String → Prop) [DecidablePred p] : List String :=
  (hand.playerIds.filter p).insertionSort (· ≤ ·)

namespace Table

variable (t : Table)

/-- The errors of leaving the current street for another. -/
def streetProblems (street : Street) : List Problem :=
  match t.currentStreet with
  | none => []
  | some current =>
    report (street.index < current.index) .streetOrderBackwards ++
      if street ≠ current then
        let unsettled := sortedPlayers hand fun id =>
          (id ∈ t.active ∧ id ∉ t.allInPlayers) ∧ tolerance < t.currentBet - t.contributions id
        let missing := sortedPlayers hand fun id =>
          (id ∈ t.active ∧ id ∉ t.allInPlayers) ∧ id ∉ t.actedSinceFullRaise
        report (unsettled ≠ []) (.outstandingBet current unsettled) ++
          report (1 < t.active.card ∧ missing ≠ []) (.missingAction current missing) ++
          report (t.active.card ≤ 1) .streetAfterHandEnded
      else []

/-- The errors that do not depend on the kind of the action. -/
def entryProblems (action : HandAction) : List Problem :=
  report (action.actor ∉ t.active) .foldedPlayerActs ++
    report (action.actor ∈ t.allInPlayers) .allInPlayerActs ++
    (match action.potBefore with
      | some declared =>
        report (¬ closeAbsolute declared t.pot tolerance) (.potBefore declared t.pot)
      | none => []) ++
    report (t.stackOf action.actor + tolerance < action.amount) .stackUnderflow

/-- The errors of a bet or a raise. -/
def betOrRaiseProblems (action : HandAction) : List Problem :=
  match action.toAmount with
  | none => [.toAmountRequired]
  | some toAmount =>
    let increment := (toAmount : ℚ) - t.contributions action.actor
    let raiseSize := (toAmount : ℚ) - t.currentBet
    report (¬ closeAbsolute increment action.amount tolerance) .amountMismatch ++
      report (action.action = .bet ∧ tolerance < t.currentBet) .useRaise ++
      report (action.action = .raise ∧ t.currentBet ≤ tolerance) .useBet ++
      report (raiseSize ≤ tolerance) .betNotIncreased ++
      report (action.action = .bet ∧ raiseSize + tolerance < hand.bigBlind)
        (.betBelowMinimum hand.bigBlind) ++
      report (action.action = .raise ∧ raiseSize + tolerance < t.lastFullRaise) .raiseBelowMinimum

/-- The errors of the kind of the action. -/
def kindProblems (action : HandAction) : List Problem :=
  match action.action with
  | .check =>
    report (action.amount ≠ 0) .checkAmount ++
      report (tolerance < t.outstanding action.actor) .checkFacingBet
  | .fold => report (action.amount ≠ 0) .foldAmount
  | .bet | .raise => t.betOrRaiseProblems hand tolerance action
  | .call =>
    let required := min (t.outstanding action.actor) (t.stackOf action.actor)
    report (¬ closeAbsolute action.amount required tolerance) .callAmount
  | .allIn =>
    report (¬ closeAbsolute action.amount (t.stackOf action.actor) tolerance) .allInAmount ++
      match action.toAmount with
      | some toAmount =>
        report (¬ closeAbsolute toAmount (t.contributions action.actor + action.amount) tolerance)
          .allInToAmount
      | none => []
  | .postBlind | .postAnte => []

def potAfterProblems (action : HandAction) : List Problem :=
  match action.potAfter with
  | some declared => report (¬ closeAbsolute declared t.pot tolerance) (.potAfter declared t.pot)
  | none => []

/-- All the errors of an action. -/
def problems (action : HandAction) : List Problem :=
  let entered := t.enter hand.bigBlind action.street
  t.streetProblems hand tolerance action.street ++ entered.entryProblems tolerance action ++
    entered.kindProblems hand tolerance action ++
    (t.step tolerance hand.bigBlind action).potAfterProblems tolerance action

def warnings (action : HandAction) : List String :=
  if action.action = .allIn then
    let entered := t.enter hand.bigBlind action.street
    let allInTotal := entered.contributions action.actor + action.amount
    (if entered.currentBet + tolerance < allInTotal ∧
        allInTotal - entered.currentBet + tolerance < entered.lastFullRaise then
      ["short all-in raise does not reopen betting"] else []) ++
      ["side-pot consistency requires explicit side-pot data and is not fully verified"]
  else []

/-! ## Snapshots -/

/-- `_contestable_pot_before_short_call`. -/
def contestablePotBeforeShortCall (actor : String) (actualCall : ℚ) : ℚ :=
  let callerCap := t.contributions actor + actualCall
  let total := (hand.playerIds.map t.contributions).sum
  max 0 (t.pot - total) + (hand.playerIds.map fun id => min (t.contributions id) callerCap).sum

/-- `actual_call`. -/
def actualCall (action : HandAction) : Option ℚ :=
  match action.action with
  | .call => some (min (t.outstanding action.actor) (t.stackBefore action.actor))
  | .allIn =>
    if tolerance < t.outstanding action.actor then
      some (min action.amount (t.outstanding action.actor))
    else none
  | _ => none

/-- Whether the call is for less than the bet. -/
def shortCall (actor : String) (actualCall : Option ℚ) : Bool :=
  match actualCall with
  | some actualCall => actualCall + tolerance < t.outstanding actor
  | none => false

/-- The snapshot before an action on the current street. -/
def snapshot (index : Nat) (action : HandAction) : DecisionSnapshot :=
  let actor := action.actor
  let actualCall := t.actualCall tolerance action
  let short := t.shortCall tolerance actor actualCall
  { street := action.street
    actionIndex := index
    actor
    board := visibleBoard hand.board action.street
    potBefore := t.pot
    toCall := t.outstanding actor
    actualCall
    contestablePot :=
      if short then t.contestablePotBeforeShortCall hand actor (actualCall.getD 0) else t.pot
    currentBet := t.currentBet
    actorInvested := t.contributions actor
    stackBehind := t.stackBefore actor
    historyBefore := t.history
    facingAction :=
      if tolerance < t.outstanding actor then
        "facing bet/raise, to_call=" ++ generalFormat (t.outstanding actor)
      else "unopened"
    sidePotRisk := short && 2 < t.active.card }

def reconstructed (index : Nat) : ReconstructedAction where
  index := index
  potAfter := t.pot
  stacksAfter := t.stackOf
  activePlayers := sortedPlayers hand (· ∈ t.active)
  allInPlayers := sortedPlayers hand (· ∈ t.allInPlayers)

end Table

/-! ## The replay -/

/-- The variables of the loop. -/
structure Replay where
  table : Table
  errors : List HandError := []
  warnings : List String := []
  reconstructed : List ReconstructedAction := []
  decisionSnapshots : List DecisionSnapshot := []

def Replay.step (r : Replay) (index : Nat) (action : HandAction) : Replay :=
  if action.actor ∈ hand.playerIds then
    let table := r.table.step tolerance hand.bigBlind action
    { table
      errors := r.errors ++ (r.table.problems hand tolerance action).map (.action index)
      warnings := r.warnings ++ r.table.warnings hand tolerance action
      reconstructed := r.reconstructed ++ [table.reconstructed hand index]
      decisionSnapshots := r.decisionSnapshots ++
        [(r.table.enter hand.bigBlind action.street).snapshot hand tolerance index action] }
  else { r with errors := r.errors ++ [.action index (.unknownActor action.actor)] }

/-- The errors of the cards. -/
def cardErrors : List HandError :=
  (match normalizeCards (hand.heroCards ++ hand.board) with
    | .ok _ => []
    | .error e => [.cards e]) ++
    if hand.board.length ∈ [0, 3, 4, 5] then [] else [.boardLength]

/-- The table before the first action. -/
def Table.start : Table where
  stackOf := fun id => ((hand.players.find? fun p => p.playerId = id).map fun p =>
    (p.startingStack : ℚ)).getD 0
  active := hand.playerIds.toFinset
  lastFullRaise := hand.bigBlind

/-- The replay of the first actions of a hand. -/
def replayHand (actions : List HandAction) : Replay :=
  actions.zipIdx.foldl (fun r (action, index) => r.step hand tolerance index action)
    { table := .start hand, errors := cardErrors hand }

theorem replayHand_concat (done : List HandAction) (action : HandAction) :
    replayHand hand tolerance (done ++ [action]) =
      (replayHand hand tolerance done).step hand tolerance done.length action := by
  simp [replayHand, List.zipIdx_append, List.foldl_append]

structure HandValidation where
  valid : Bool
  verificationTolerance : ℚ
  errors : List HandError
  warnings : List String
  finalPot : ℚ
  remainingStacks : String → ℚ
  reconstructedActions : List ReconstructedAction
  decisionSnapshots : List DecisionSnapshot

/-- `math.ulp` of a number from 1 on. -/
def ulp (scale : ℚ) : ℚ := (2 : ℚ) ^ (Int.log 2 scale - 52)

/-- `_derived_chip_tolerance`. -/
def derivedChipTolerance : ℚ :=
  let magnitudes : List Chips := [hand.smallBlind, hand.bigBlind, hand.ante] ++
    hand.players.map (·.startingStack) ++
    hand.actions.flatMap fun action =>
      [some action.amount, action.toAmount, action.potBefore, action.potAfter].reduceOption
  let scale := magnitudes.foldl max 1
  let operationBound := max 32 (4 * (hand.actions.length + hand.players.length))
  ulp scale * operationBound

/-- What is returned after the loop. -/
def Replay.result (tolerance : ℚ) (r : Replay) : HandValidation where
  valid := r.errors.isEmpty
  verificationTolerance := tolerance
  errors := r.errors
  warnings := r.warnings.dedup.insertionSort (· ≤ ·)
  finalPot := r.table.pot
  remainingStacks := r.table.stackOf
  reconstructedActions := r.reconstructed
  decisionSnapshots := r.decisionSnapshots

def validateHand (tolerance : Option ℚ) : Except String HandValidation := do
  require (∀ t ∈ tolerance, 0 ≤ t) "tolerance must be finite and non-negative"
  let tolerance := tolerance.getD (derivedChipTolerance hand)
  return (replayHand hand tolerance hand.actions).result tolerance

theorem validateHand_ok {tolerance : Option ℚ} {v : HandValidation} :
    validateHand hand tolerance = .ok v ↔ (∀ t ∈ tolerance, 0 ≤ t) ∧
      (replayHand hand (tolerance.getD (derivedChipTolerance hand)) hand.actions).result
        (tolerance.getD (derivedChipTolerance hand)) = v := by
  rw [validateHand, require_bind_eq_ok, pure_eq_ok]

end

end PokerDeliberation.Hands
