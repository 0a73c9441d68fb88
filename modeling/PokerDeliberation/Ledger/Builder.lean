import PokerDeliberation.Ledger.Profile
import Mathlib.Data.List.Sort

/-!
# The ledger builder

`LedgerBuilder` replays the actions of a hand on integer chip units. `apply`
is one action: it opens a new street when the action is on one (closing the
previous, which returns an uncalled bet), checks the action against the
betting state, and moves the chips. `finish` closes the last street and cuts
the pot into layers. A dictionary over the players is a function of the id.
-/

namespace PokerDeliberation.Ledger

open Lib Hands

/-! ## Output records -/

/-- `LedgerUnit`. -/
def ledgerUnit (n : Int) : Prop := 0 ≤ n ∧ n ≤ MAX_LEDGER_UNITS

/-- `PositiveLedgerUnit`. -/
def positiveLedgerUnit (n : Int) : Prop := 0 < n ∧ n ≤ MAX_LEDGER_UNITS

instance (n : Int) : Decidable (ledgerUnit n) := by unfold ledgerUnit; infer_instance

instance (n : Int) : Decidable (positiveLedgerUnit n) := by
  unfold positiveLedgerUnit
  infer_instance

structure LedgerActionV1 where
  actionIndex : Nat
  street : Street
  actor : String
  action : ActionKind
  committedUnits : Int
  streetContributionUnitsAfter : Int
  totalContributionUnitsAfter : Int
  remainingStackUnitsAfter : Int
  potUnitsAfter : Int
  currentBetUnitsAfter : Int
  raiseRightsBefore : Bool
  fullRaise : Bool
  minimumFullRaiseUnitsAfter : Int
  deriving DecidableEq, Repr

def LedgerActionV1.check (a : LedgerActionV1) : Except String Unit := do
  require (a.actionIndex ≤ MAX_ACTIONS - 1) "action_index"
  require (ledgerUnit a.committedUnits) "committed_units"
  require (ledgerUnit a.streetContributionUnitsAfter) "street_contribution_units_after"
  require (ledgerUnit a.totalContributionUnitsAfter) "total_contribution_units_after"
  require (ledgerUnit a.remainingStackUnitsAfter) "remaining_stack_units_after"
  require (ledgerUnit a.potUnitsAfter) "pot_units_after"
  require (ledgerUnit a.currentBetUnitsAfter) "current_bet_units_after"
  require (positiveLedgerUnit a.minimumFullRaiseUnitsAfter) "minimum_full_raise_units_after"

/-- The number in `return-0`, `return-1`, … is the position in the list. -/
structure UncalledReturnV1 where
  street : Street
  playerId : String
  amountUnits : Int
  sourceActionIndexes : List Nat
  deriving DecidableEq, Repr

def UncalledReturnV1.check (r : UncalledReturnV1) : Except String Unit := do
  require (positiveLedgerUnit r.amountUnits) "amount_units"
  require (r.sourceActionIndexes ≠ []) "source_action_indexes"

structure PotLayerV1 where
  layerIndex : Nat
  lowerBoundUnits : Int
  upperBoundUnits : Int
  amountUnits : Int
  contributors : List String
  eligiblePlayers : List String
  evidenceActionIndexes : List Nat
  deriving DecidableEq, Repr

def PotLayerV1.check (l : PotLayerV1) : Except String Unit := do
  require (l.layerIndex ≤ MAX_ACTIONS - 1) "layer_index"
  require (ledgerUnit l.lowerBoundUnits) "lower_bound_units"
  require (positiveLedgerUnit l.upperBoundUnits) "upper_bound_units"
  require (positiveLedgerUnit l.amountUnits) "amount_units"
  require (l.contributors ≠ []) "contributors"
  require (l.eligiblePlayers ≠ []) "eligible_players"
  require (l.evidenceActionIndexes ≠ []) "evidence_action_indexes"
  require (l.lowerBoundUnits < l.upperBoundUnits) "pot-layer-bounds-invalid"
  require (l.amountUnits = (l.upperBoundUnits - l.lowerBoundUnits) * l.contributors.length)
    "pot-layer-amount-invalid"
  require (∀ id ∈ l.eligiblePlayers, id ∈ l.contributors) "pot-layer-eligibility-invalid"

structure PlayerEligibilityV1 where
  playerId : String
  eligibleForContestedPots : Bool
  foldedAtActionIndex : Option Nat
  deriving DecidableEq, Repr

def PlayerEligibilityV1.check (e : PlayerEligibilityV1) : Except String Unit :=
  require (∀ n ∈ e.foldedAtActionIndex, n ≤ MAX_ACTIONS - 1) "folded_at_action_index"

/-- Chips of an action that lie in a range of a player's contribution. -/
structure Interval where
  index : Nat
  before : Int
  after : Int
  deriving DecidableEq, Repr

/-- The indexes of the intervals that meet `(lower, upper)`. -/
def meeting (lower upper : Int) (intervals : List Interval) : List Nat :=
  (intervals.filter fun i => i.before < upper ∧ lower < i.after).map (·.index)

/-- `_canonical_players`. -/
def canonicalPlayers (ids : List String) : List String := ids.insertionSort (· ≤ ·)

/-! ## The builder -/

structure LedgerBuilder where
  starting : String → Int
  startingTotal : Int
  remaining : String → Int
  gross : String → Int := fun _ => 0
  net : String → Int := fun _ => 0
  active : Finset String
  allIn : Finset String := ∅
  foldedAt : String → Option Nat := fun _ => none
  currentStreet : Option Street := none
  lastStreetOrder : Int := -1
  streetContribution : String → Int := fun _ => 0
  currentBet : Int := 0
  minimumFullRaise : Int
  actedLevel : String → Option Int := fun _ => none
  actedThisStreet : Finset String := ∅
  voluntaryActionSeen : Bool := false
  actionIntervals : String → List Interval := fun _ => []
  streetIntervals : String → List Interval := fun _ => []
  actions : List LedgerActionV1 := []
  returns : List UncalledReturnV1 := []
  grossTotal : Int := 0
  netTotal : Int := 0
  returnedTotal : Int := 0

def streetOrder : Street → Option Int
  | .preflop => some 0
  | .flop => some 1
  | .turn => some 2
  | .river => some 3
  | .showdown => none

def streetSupportedByBoard (street : Street) (boardSize : Nat) : Bool :=
  match street with
  | .preflop => true
  | .flop => 3 ≤ boardSize
  | .turn => 4 ≤ boardSize
  | .river => 5 ≤ boardSize
  | .showdown => false

section

-- what the builder is constructed with
variable (hand : CanonicalHand) (unit : ℚ) (bigBlind : Int)

/-- `__init__`. -/
def LedgerBuilder.init : Except String LedgerBuilder := do
  let stackUnits ← hand.players.mapM fun player => do
    let units ← decimalUnits player.startingStack unit
    return (player.playerId, units)
  let starting := fun id => ((stackUnits.find? fun s => s.1 = id).map (·.2)).getD 0
  let startingTotal ← stackUnits.foldlM (fun total s => checkedAdd total s.2) 0
  require (0 < startingTotal) "starting-chips-required"
  return { starting, startingTotal, remaining := starting, active := hand.playerIds.toFinset
           minimumFullRaise := bigBlind }

namespace LedgerBuilder

variable (b : LedgerBuilder)

/-! ### Closing and opening a street -/

/-- The highest contribution among the given players, 0 if there is none. -/
def highestOf (ids : List String) : Int := (ids.map b.streetContribution).foldl max 0

/-- The players with the highest contribution, when it is positive. -/
def highestPlayers : List String :=
  let highest := b.highestOf hand.playerIds
  hand.playerIds.filter fun id => b.streetContribution id = highest ∧ 0 < highest

/-- The second highest contribution, when `id` alone has the highest. -/
def second (id : String) : Int := b.highestOf (hand.playerIds.filter fun other => other ≠ id)

/-- The state after `amount` is returned to `id`. -/
def returned (id : String) (amount total : Int) (record : UncalledReturnV1) : LedgerBuilder :=
  { b with
    streetContribution := Function.update b.streetContribution id (b.streetContribution id - amount)
    net := Function.update b.net id (b.net id - amount)
    netTotal := b.netTotal - amount
    remaining := Function.update b.remaining id (b.remaining id + amount)
    returnedTotal := total
    allIn := if 0 < b.remaining id + amount then b.allIn.erase id else b.allIn
    returns := b.returns ++ [record] }

/-- The uncalled part of a bet goes back to the only player who made it. -/
def returnUncalled (street : Street) : Except String LedgerBuilder :=
  match b.highestPlayers hand with
  | [id] => do
    let highest := b.highestOf hand.playerIds
    let second := b.second hand id
    let amount := highest - second
    if 0 < amount then
      require (id ∈ b.active) "ambiguous-uncalled-return"
      let sources := meeting second highest (b.streetIntervals id)
      require (sources ≠ []) "ambiguous-uncalled-return"
      let _ ← checkedAdd (b.remaining id) amount
      let total ← checkedAdd b.returnedTotal amount
      let record : UncalledReturnV1 :=
        { street, playerId := id, amountUnits := amount, sourceActionIndexes := sources }
      record.check
      return b.returned id amount total record
    else return b
  | _ => .ok b

/-- `_close_street`. -/
def closeStreet : Except String LedgerBuilder :=
  match b.currentStreet with
  | none => .error "internal-street-state-invalid"
  | some street => do
    if 1 < b.active.card then
      forM (hand.playerIds.filter fun id => id ∈ b.active ∧ id ∉ b.allIn) fun id => do
        require (id ∈ b.actedThisStreet) "incomplete-betting-round-missing-action"
        require (b.streetContribution id = b.currentBet) "incomplete-betting-round-outstanding-call"
    b.returnUncalled hand street

/-- The state at the start of a street. -/
def opened (street : Street) (order : Int) : LedgerBuilder :=
  { b with
    currentStreet := some street
    lastStreetOrder := order
    streetContribution := fun _ => 0
    currentBet := 0
    minimumFullRaise := bigBlind
    actedLevel := fun _ => none
    actedThisStreet := ∅
    streetIntervals := fun _ => [] }

/-- `_start_street`. -/
def startStreet (street : Street) : Except String LedgerBuilder :=
  match streetOrder street with
  | none => .error "showdown-actions-unsupported"
  | some order => do
    require (b.lastStreetOrder < order) "street-order-invalid"
    require (streetSupportedByBoard street hand.board.length) "street-board-mismatch"
    if b.currentStreet = none then
      return b.opened bigBlind street order
    else
      let closed ← b.closeStreet hand
      require (1 < closed.active.card) "action-after-hand-ended"
      return closed.opened bigBlind street order

/-! ### Moving chips -/

def raiseRights (actor : String) : Bool :=
  match b.actedLevel actor with
  | none => true
  | some prior => b.minimumFullRaise ≤ b.currentBet - prior

/-- `intervals[actor].append(...)` for a positive amount. -/
def recordInterval (intervals : String → List Interval) (actor : String) (index : Nat)
    (before after : Int) : String → List Interval :=
  if before = after then intervals
  else Function.update intervals actor (intervals actor ++ [⟨index, before, after⟩])

/-- The state after `amount` is committed. -/
def committed (index : Nat) (actor : String) (amount : Int) (countsForBet : Bool) : LedgerBuilder :=
  let streetBefore := b.streetContribution actor
  let streetAfter := if countsForBet then streetBefore + amount else streetBefore
  { b with
    streetContribution := Function.update b.streetContribution actor streetAfter
    streetIntervals := recordInterval b.streetIntervals actor index streetBefore streetAfter
    gross := Function.update b.gross actor (b.gross actor + amount)
    net := Function.update b.net actor (b.net actor + amount)
    remaining := Function.update b.remaining actor (b.remaining actor - amount)
    grossTotal := b.grossTotal + amount
    netTotal := b.netTotal + amount
    actionIntervals := recordInterval b.actionIntervals actor index (b.gross actor)
      (b.gross actor + amount)
    allIn := if b.remaining actor - amount = 0 then insert actor b.allIn else b.allIn }

/-- `_commit`. -/
def commit (index : Nat) (actor : String) (amount : Int) (countsForBet : Bool) :
    Except String LedgerBuilder := do
  require (amount ≤ b.remaining actor) "stack-underflow"
  let _ ← checkedAdd (b.gross actor) amount
  if countsForBet then
    let _ ← checkedAdd (b.streetContribution actor) amount
  let _ ← checkedAdd (b.net actor) amount
  let _ ← checkedAdd b.grossTotal amount
  let _ ← checkedAdd b.netTotal amount
  return b.committed index actor amount countsForBet

def validateDeclaredPot (declared : Option Chips) (code : String) : Except String Unit :=
  match declared with
  | none => .ok ()
  | some declared => do
    let units ← decimalUnits declared unit
    require (units = b.netTotal) code

end LedgerBuilder

/-- `_validate_to_amount`. -/
def validateToAmount (action : HandAction) (expected : Int) (required : Bool) :
    Except String Unit := do
  require (required = true → action.toAmount ≠ none) "to-amount-required"
  match action.toAmount with
  | none => pure ()
  | some toAmount =>
    let units ← decimalUnits toAmount unit
    require (units = expected) "to-amount-mismatch"

namespace LedgerBuilder

variable (b : LedgerBuilder)

/-! ### The actions -/

/-- The actor has acted at the current bet. -/
def acted (actor : String) : LedgerBuilder :=
  { b with
    actedThisStreet := insert actor b.actedThisStreet
    actedLevel := Function.update b.actedLevel actor (some b.currentBet) }

/-- `post_ante` and `post_blind`. -/
def applyPost (index : Nat) (action : HandAction) (amount : Int) : Except String LedgerBuilder := do
  require (b.currentStreet = some .preflop ∧ b.voluntaryActionSeen = false)
    "forced-post-order-invalid"
  require (action.toAmount = none) "forced-post-to-amount-unsupported"
  require (0 < amount) "forced-post-must-be-positive"
  if action.action = .postAnte then
    b.commit index action.actor amount false
  else
    let posted ← b.commit index action.actor amount true
    return { posted with
      currentBet := max posted.currentBet (posted.streetContribution action.actor) }

def applyCheck (action : HandAction) (amount outstanding : Int) : Except String LedgerBuilder := do
  require (amount = 0 ∧ action.toAmount = none) "check-shape-invalid"
  require (outstanding = 0) "check-facing-bet"
  return b.acted action.actor

def applyFold (index : Nat) (action : HandAction) (amount outstanding : Int) :
    Except String LedgerBuilder := do
  require (amount = 0 ∧ action.toAmount = none) "fold-shape-invalid"
  require (0 < outstanding) "fold-without-outstanding-bet"
  return acted
    { b with
      active := b.active.erase action.actor
      foldedAt := Function.update b.foldedAt action.actor (some index) } action.actor

def applyCall (index : Nat) (action : HandAction) (amount outstanding : Int) :
    Except String LedgerBuilder := do
  let required := min outstanding (b.remaining action.actor)
  require (0 < outstanding ∧ amount = required) "call-amount-invalid"
  validateToAmount unit action (b.streetContribution action.actor + amount) false
  let paid ← b.commit index action.actor amount true
  return paid.acted action.actor

/-- The state with a new bet to call. -/
def withBet (currentBet minimumFullRaise : Int) : LedgerBuilder :=
  { b with currentBet, minimumFullRaise }

def applyBet (index : Nat) (action : HandAction) (amount : Int) : Except String LedgerBuilder := do
  require (b.currentBet = 0) "bet-when-bet-open"
  require (bigBlind ≤ amount) "opening-bet-below-minimum"
  require (amount < b.remaining action.actor) "bet-must-use-all-in-action"
  let expectedTo := b.streetContribution action.actor + amount
  validateToAmount unit action expectedTo true
  let paid ← b.commit index action.actor amount true
  return (paid.withBet expectedTo expectedTo).acted action.actor

def applyRaise (index : Nat) (action : HandAction) (amount : Int) :
    Except String LedgerBuilder := do
  require (0 < b.currentBet) "raise-without-open-bet"
  require (b.raiseRights action.actor) "betting-not-reopened"
  require (amount < b.remaining action.actor) "raise-must-use-all-in-action"
  let expectedTo := b.streetContribution action.actor + amount
  validateToAmount unit action expectedTo true
  let increment := expectedTo - b.currentBet
  require (b.minimumFullRaise ≤ increment) "raise-below-full-minimum"
  let paid ← b.commit index action.actor amount true
  return (paid.withBet expectedTo increment).acted action.actor

/-- The bet and the minimum raise after an all-in to `expectedTo`. -/
def allInBet (expectedTo : Int) : LedgerBuilder :=
  if b.currentBet < expectedTo then
    let increment := expectedTo - b.currentBet
    b.withBet expectedTo (if b.minimumFullRaise ≤ increment then increment else b.minimumFullRaise)
  else b

def applyAllIn (index : Nat) (action : HandAction) (amount : Int) :
    Except String LedgerBuilder := do
  require (0 < amount ∧ amount = b.remaining action.actor) "all-in-amount-invalid"
  let expectedTo := b.streetContribution action.actor + amount
  validateToAmount unit action expectedTo false
  require (b.currentBet < expectedTo → b.raiseRights action.actor = true) "betting-not-reopened"
  let paid ← (b.allInBet expectedTo).commit index action.actor amount true
  return paid.acted action.actor

/-- Whether an action is a full raise. -/
def isFullRaise (action : HandAction) (amount : Int) : Bool :=
  match action.action with
  | .bet | .raise => true
  | .allIn =>
    let expectedTo := b.streetContribution action.actor + amount
    b.currentBet < expectedTo && b.minimumFullRaise ≤ expectedTo - b.currentBet
  | _ => false

/-- The branch of an action's kind. -/
def applyKind (index : Nat) (action : HandAction) (amount outstanding : Int) :
    Except String LedgerBuilder :=
  let voluntary := { b with voluntaryActionSeen := true }
  match action.action with
  | .postBlind | .postAnte => b.applyPost index action amount
  | .check => voluntary.applyCheck action amount outstanding
  | .fold => voluntary.applyFold index action amount outstanding
  | .call => voluntary.applyCall unit index action amount outstanding
  | .bet => voluntary.applyBet unit bigBlind index action amount
  | .raise => voluntary.applyRaise unit index action amount
  | .allIn => voluntary.applyAllIn unit index action amount

/-- `_append_action`. -/
def appendAction (index : Nat) (action : HandAction) (amount : Int)
    (raiseRightsBefore fullRaise : Bool) : Except String LedgerBuilder := do
  let record : LedgerActionV1 :=
    { actionIndex := index, street := action.street, actor := action.actor
      action := action.action, committedUnits := amount
      streetContributionUnitsAfter := b.streetContribution action.actor
      totalContributionUnitsAfter := b.net action.actor
      remainingStackUnitsAfter := b.remaining action.actor
      potUnitsAfter := b.netTotal, currentBetUnitsAfter := b.currentBet
      raiseRightsBefore, fullRaise
      minimumFullRaiseUnitsAfter := b.minimumFullRaise }
  record.check
  return { b with actions := b.actions ++ [record] }

/-- The part of `apply` on the street of the action. -/
def applyOnStreet (index : Nat) (action : HandAction) : Except String LedgerBuilder := do
  require (action.actor ∈ b.active) "folded-player-acts"
  require (action.actor ∉ b.allIn) "all-in-player-acts"
  require (b.voluntaryActionSeen = true → 1 < b.active.card) "action-after-hand-ended"
  let amount ← decimalUnits action.amount unit
  b.validateDeclaredPot unit action.potBefore "pot-before-mismatch"
  let outstanding := b.currentBet - b.streetContribution action.actor
  require (0 ≤ outstanding) "negative-outstanding-bet"
  let after ← b.applyKind unit bigBlind index action amount outstanding
  after.validateDeclaredPot unit action.potAfter "pot-after-mismatch"
  after.appendAction index action amount (b.raiseRights action.actor) (b.isFullRaise action amount)

/-- The street of an action is the current one or a new one. -/
def enter (street : Street) : Except String LedgerBuilder :=
  if some street = b.currentStreet then .ok b else b.startStreet hand bigBlind street

def apply (index : Nat) (action : HandAction) : Except String LedgerBuilder := do
  require (action.actor ∈ hand.playerIds) "unknown-actor"
  let entered ← b.enter hand bigBlind action.street
  entered.applyOnStreet unit bigBlind index action

end LedgerBuilder

/-- The builder after the first actions of a hand. -/
def replay (actions : List HandAction) : Except String LedgerBuilder := do
  let b ← LedgerBuilder.init hand unit bigBlind
  actions.zipIdx.foldlM (fun b (action, index) => b.apply hand unit bigBlind index action) b

/-! ## The result -/

/-- The dictionaries have the players as their keys. -/
structure HandPotLedgerOutputV1 where
  chipUnit : ℚ
  ledgerActions : List LedgerActionV1
  uncalledReturns : List UncalledReturnV1
  potLayers : List PotLayerV1
  playerEligibility : List PlayerEligibilityV1
  grossContributionsUnits : String → Int
  netContributionsUnits : String → Int
  remainingStacksUnits : String → Int
  grossCommittedUnits : Int
  totalReturnedUnits : Int
  finalPotUnits : Int
  startingChipsUnits : Int

/-- `sum(values.values())` over the players. -/
def sumOver (ids : List String) (values : String → Int) : Int := (ids.map values).sum

/-- `accounting_identities_hold`. -/
def HandPotLedgerOutputV1.accountingIdentitiesHold (out : HandPotLedgerOutputV1) :
    Except String Unit := do
  require (sumOver hand.playerIds out.grossContributionsUnits = out.grossCommittedUnits)
    "gross-contribution-sum-invalid"
  require (sumOver hand.playerIds out.netContributionsUnits = out.finalPotUnits)
    "net-contribution-sum-invalid"
  require ((out.uncalledReturns.map (·.amountUnits)).sum = out.totalReturnedUnits)
    "return-sum-invalid"
  require (out.grossCommittedUnits = out.finalPotUnits + out.totalReturnedUnits)
    "gross-net-return-conservation-invalid"
  require ((out.potLayers.map (·.amountUnits)).sum = out.finalPotUnits) "pot-layer-sum-invalid"
  require (sumOver hand.playerIds out.remainingStacksUnits + out.finalPotUnits =
    out.startingChipsUnits) "stack-pot-conservation-invalid"

/-- The field constraints of the output. -/
def HandPotLedgerOutputV1.check (out : HandPotLedgerOutputV1) : Except String Unit := do
  require (1 ≤ out.ledgerActions.length ∧ out.ledgerActions.length ≤ MAX_ACTIONS) "ledger_actions"
  require (out.potLayers ≠ []) "pot_layers"
  require (2 ≤ out.playerEligibility.length ∧ out.playerEligibility.length ≤ 10)
    "player_eligibility"
  require (∀ id ∈ hand.playerIds, ledgerUnit (out.grossContributionsUnits id))
    "gross_contributions_units"
  require (∀ id ∈ hand.playerIds, ledgerUnit (out.netContributionsUnits id))
    "net_contributions_units"
  require (∀ id ∈ hand.playerIds, ledgerUnit (out.remainingStacksUnits id))
    "remaining_stacks_units"
  require (ledgerUnit out.grossCommittedUnits) "gross_committed_units"
  require (ledgerUnit out.totalReturnedUnits) "total_returned_units"
  require (positiveLedgerUnit out.finalPotUnits) "final_pot_units"
  require (positiveLedgerUnit out.startingChipsUnits) "starting_chips_units"
  out.accountingIdentitiesHold hand

/-- The positive values of the players, each once, in increasing order. -/
def positiveLevels (values : String → Int) : List Int :=
  ((hand.playerIds.map values).filter fun v => 0 < v).dedup.insertionSort (· ≤ ·)

/-- The players with at least `upper`. -/
def contributorsAt (values : String → Int) (upper : Int) : List String :=
  canonicalPlayers (hand.playerIds.filter fun id => upper ≤ values id)

/-- The players of a layer who have not folded. -/
def eligibleOf (foldedAt : String → Option Nat) (contributors : List String) : List String :=
  canonicalPlayers (contributors.filter fun id => foldedAt id = none)

/-- The actions whose chips lie in a layer, each once, in increasing order. -/
def evidenceOf (intervals : String → List Interval) (contributors : List String)
    (lower upper : Int) : List Nat :=
  (contributors.flatMap fun id => meeting lower upper (intervals id)).dedup.insertionSort (· ≤ ·)

namespace LedgerBuilder

variable (b : LedgerBuilder)

/-- The layer between two levels. -/
def layer (layerIndex : Nat) (lower upper : Int) : PotLayerV1 :=
  let contributors := contributorsAt hand b.net upper
  { layerIndex, lowerBoundUnits := lower, upperBoundUnits := upper
    amountUnits := (upper - lower) * contributors.length, contributors
    eligiblePlayers := eligibleOf b.foldedAt contributors
    evidenceActionIndexes := evidenceOf b.actionIntervals contributors lower upper }

/-- The checks on a layer before it is recorded, and its validator. -/
def checkLayer (l : PotLayerV1) : Except String Unit := do
  require (l.eligiblePlayers ≠ []) "pot-layer-has-no-eligible-player"
  require (0 < l.amountUnits ∧ l.amountUnits ≤ MAX_LEDGER_UNITS) "pot-layer-limit-exceeded"
  require (l.evidenceActionIndexes ≠ []) "pot-layer-evidence-missing"
  l.check

/-- The loop over the levels. -/
def layers : Nat → Int → List Int → Except String (List PotLayerV1)
  | _, _, [] => .ok []
  | layerIndex, lower, upper :: levels => do
    let l := b.layer hand layerIndex lower upper
    checkLayer l
    let rest ← layers (layerIndex + 1) upper levels
    return l :: rest

def eligibility : List PlayerEligibilityV1 :=
  (canonicalPlayers hand.playerIds).map fun id =>
    { playerId := id, eligibleForContestedPots := b.foldedAt id = none && 0 < b.net id
      foldedAtActionIndex := b.foldedAt id }

def output (potLayers : List PotLayerV1) : HandPotLedgerOutputV1 where
  chipUnit := unit
  ledgerActions := b.actions
  uncalledReturns := b.returns
  potLayers := potLayers
  playerEligibility := b.eligibility hand
  grossContributionsUnits := b.gross
  netContributionsUnits := b.net
  remainingStacksUnits := b.remaining
  grossCommittedUnits := b.grossTotal
  totalReturnedUnits := b.returnedTotal
  finalPotUnits := b.netTotal
  startingChipsUnits := b.startingTotal

/-- `finish`, on the closed last street. -/
def settle : Except String HandPotLedgerOutputV1 := do
  require (0 < b.netTotal) "positive-final-pot-required"
  require (b.grossTotal = b.netTotal + b.returnedTotal) "gross-net-return-conservation-failed"
  require (sumOver hand.playerIds b.remaining + b.netTotal = b.startingTotal)
    "stack-pot-conservation-failed"
  let potLayers ← b.layers hand 0 0 (positiveLevels hand b.net)
  forM (b.eligibility hand) PlayerEligibilityV1.check
  let out := b.output hand unit potLayers
  out.check hand
  return out

def finish : Except String HandPotLedgerOutputV1 := do
  require (b.currentStreet ≠ none ∧ b.actions ≠ []) "ledger-actions-required"
  let closed ← b.closeStreet hand
  closed.settle hand unit

end LedgerBuilder

end

end PokerDeliberation.Ledger
