import PokerDeliberation.Ledger.Builder

/-!
# The oracle

The oracle recomputes the accounting from the hand alone, in one pass that
does not check legality, with exact fractions. `verifyOracle` compares it with
the builder's result; `calculateHandPotLedger` is the whole tool.
-/

namespace PokerDeliberation.Ledger

open Lib Hands

/-- An entry of `returns`. -/
structure OracleReturn where
  street : Street
  playerId : String
  amount : Int
  source : List Nat
  deriving DecidableEq, Repr

/-- An entry of `layers`. -/
structure OracleLayer where
  lower : Int
  upper : Int
  amount : Int
  contributors : List String
  eligible : List String
  evidence : List Nat
  deriving DecidableEq, Repr

/-- The variables of the pass. -/
structure OracleState where
  gross : String → Int := fun _ => 0
  street : String → Int := fun _ => 0
  totalIntervals : String → List Interval := fun _ => []
  streetIntervals : String → List Interval := fun _ => []
  folded : String → Option Nat := fun _ => none
  currentStreet : Option Street := none
  returns : List OracleReturn := []

structure OracleExpected where
  starting : String → Int
  gross : String → Int
  net : String → Int
  remaining : String → Int
  returns : List OracleReturn
  layers : List OracleLayer
  finalPot : Int
  grossTotal : Int
  returnedTotal : Int

/-- `_street_value`. -/
def streetValue (street : Street) : Except String Street :=
  match street with
  | .showdown => .error "showdown-actions-unsupported"
  | _ => .ok street

/-- `_CONTRIBUTION_ACTIONS`. -/
def CONTRIBUTION_ACTIONS : List ActionKind := [.postBlind, .postAnte, .call, .bet, .raise, .allIn]

section

variable (hand : CanonicalHand) (unit : ℚ)

namespace OracleState

variable (s : OracleState)

def closeStreet : Except String OracleState :=
  match s.currentStreet with
  | none => .ok s
  | some current =>
    let highest := (hand.playerIds.map s.street).foldl max 0
    let leaders := hand.playerIds.filter fun id => s.street id = highest
    match leaders with
    | [id] =>
      let second := ((hand.playerIds.filter fun other => other ≠ id).map s.street).foldl max 0
      let amount := highest - second
      if highest ≤ 0 ∨ amount ≤ 0 then .ok s
      else do
        let value ← streetValue current
        let source := meeting second highest (s.streetIntervals id)
        return { s with
          returns := s.returns ++ [{ street := value, playerId := id, amount, source }]
          street := Function.update s.street id (s.street id - amount) }
    | _ => .ok s

/-- The street of the action: the previous one is closed. -/
def enter (street : Street) : Except String OracleState :=
  if some street = s.currentStreet then .ok s
  else do
    let closed ← s.closeStreet hand
    return { closed with
      currentStreet := some street
      street := fun _ => 0
      streetIntervals := fun _ => [] }

/-- The chips of the action. -/
def contribute (index : Nat) (action : HandAction) : Except String OracleState :=
  if action.action ∈ CONTRIBUTION_ACTIONS then do
    let amount ← fractionUnits action.amount unit
    let beforeTotal := s.gross action.actor
    let paid := { s with
      gross := Function.update s.gross action.actor (beforeTotal + amount)
      totalIntervals := LedgerBuilder.recordInterval s.totalIntervals action.actor index
        beforeTotal (beforeTotal + amount) }
    if action.action = .postAnte then return paid
    else
      let beforeStreet := s.street action.actor
      return { paid with
        street := Function.update s.street action.actor (beforeStreet + amount)
        streetIntervals := LedgerBuilder.recordInterval s.streetIntervals action.actor index
          beforeStreet (beforeStreet + amount) }
  else .ok s

/-- One round of the loop. -/
def step (index : Nat) (action : HandAction) : Except String OracleState := do
  let entered ← s.enter hand action.street
  let folded := if action.action = .fold then
      { entered with folded := Function.update entered.folded action.actor (some index) }
    else entered
  folded.contribute unit index action

/-- What has been returned to a player. -/
def returnedByPlayer (id : String) : Int :=
  ((s.returns.filter fun r => r.playerId = id).map (·.amount)).sum

end OracleState

/-- The loop over the actions. -/
def oracleRun (actions : List HandAction) : Except String OracleState :=
  actions.zipIdx.foldlM (fun s (action, index) => s.step hand unit index action) {}

/-- The loop over the levels. -/
def oracleLayers (net : String → Int) (folded : String → Option Nat)
    (intervals : String → List Interval) : Int → List Int → List OracleLayer
  | _, [] => []
  | lower, upper :: levels =>
    let contributors := contributorsAt hand net upper
    { lower, upper, amount := (upper - lower) * contributors.length, contributors
      eligible := eligibleOf folded contributors
      evidence := evidenceOf intervals contributors lower upper } ::
      oracleLayers net folded intervals upper levels

/-- `_oracle_expected`. -/
def oracleExpected (profile : HandRuleProfileV1) : Except String OracleExpected := do
  let unit := profile.unit
  let stackUnits ← hand.players.mapM fun player => do
    let units ← fractionUnits player.startingStack unit
    return (player.playerId, units)
  let starting := fun id => ((stackUnits.find? fun s => s.1 = id).map (·.2)).getD 0
  let run ← oracleRun hand unit hand.actions
  let s ← run.closeStreet hand
  let net := fun id => s.gross id - s.returnedByPlayer id
  return {
    starting
    gross := s.gross
    net
    remaining := fun id => starting id - s.gross id + s.returnedByPlayer id
    returns := s.returns
    layers := oracleLayers hand net s.folded s.totalIntervals 0 (positiveLevels hand net)
    finalPot := sumOver hand.playerIds net
    grossTotal := sumOver hand.playerIds s.gross
    returnedTotal := (s.returns.map (·.amount)).sum }

/-- The columns of a return that the oracle knows. -/
def UncalledReturnV1.columns (r : UncalledReturnV1) : OracleReturn :=
  ⟨r.street, r.playerId, r.amountUnits, r.sourceActionIndexes⟩

/-- The columns of a layer that the oracle knows. -/
def PotLayerV1.columns (l : PotLayerV1) : OracleLayer :=
  ⟨l.lowerBoundUnits, l.upperBoundUnits, l.amountUnits, l.contributors, l.eligiblePlayers,
    l.evidenceActionIndexes⟩

/-- `_verify_oracle`. -/
def verifyOracle (profile : HandRuleProfileV1) (result : HandPotLedgerOutputV1) :
    Except String Unit := do
  let expected ← oracleExpected hand profile
  require (∀ id ∈ hand.playerIds, result.grossContributionsUnits id = expected.gross id)
    "oracle-gross-mismatch"
  require (∀ id ∈ hand.playerIds, result.netContributionsUnits id = expected.net id)
    "oracle-net-mismatch"
  require (∀ id ∈ hand.playerIds, result.remainingStacksUnits id = expected.remaining id)
    "oracle-stack-mismatch"
  require (result.finalPotUnits = expected.finalPot) "oracle-pot-mismatch"
  require (result.grossCommittedUnits = expected.grossTotal) "oracle-gross-total-mismatch"
  require (result.totalReturnedUnits = expected.returnedTotal) "oracle-return-total-mismatch"
  require (result.uncalledReturns.map (·.columns) = expected.returns) "oracle-return-mismatch"
  require (result.potLayers.map (·.columns) = expected.layers) "oracle-layer-mismatch"
  require (sumOver hand.playerIds expected.starting =
    sumOver hand.playerIds expected.remaining + result.finalPotUnits) "oracle-conservation-failed"

/-- `calculate_hand_pot_ledger`. -/
def calculateHandPotLedger (profile : HandRuleProfileV1) :
    Except String HandPotLedgerOutputV1 := do
  let unit ← validateProfile profile
  let (_, bigBlind, _) ← validateProfileHand hand unit
  let builder ← replay hand unit bigBlind hand.actions
  let result ← builder.finish hand unit
  verifyOracle hand profile result
  return result

end

end PokerDeliberation.Ledger
