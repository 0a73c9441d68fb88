import PokerDeliberation.Games.Numeric
import PokerDeliberation.Lib.Checked
import Mathlib.Data.Finset.Card
import Mathlib.Data.List.Sort
import Mathlib.Data.String.Basic

/-!
# Best response to a fixed strategy

`best_response_to_fixed_strategy` and its verifier in exact rational
arithmetic. A dict is the list of its items, the newest first where the program
assigns to it. `levels` is how many nested calls of `evaluate` the interpreter
allows.
-/

namespace PokerDeliberation.Games

open Lib

namespace BestResponse

def HARD_MAX_PURE_POLICIES : Nat := 1000000

def HARD_MAX_NODES : Nat := 10000

def HARD_MAX_DEPTH : Nat := 256

def HARD_MAX_POLICY_NODE_EVALUATIONS : Nat := 5000000

structure ChanceAction where
  probability : ℚ
  child : String
  deriving DecidableEq

inductive GameNode where
  | terminal (payoff : ℚ)
  | chance (actions : List (String × ChanceAction))
  | player (player : Int) (informationSet : String) (actions : List (String × String))
  deriving DecidableEq

structure Game where
  root : String
  nodes : List (String × GameNode)
  deriving DecidableEq

abbrev FixedStrategy := List (String × List (String × ℚ))

/-- `tuple(sorted(map(str, actions)))`. -/
def actionNames (actions : List (String × String)) : List String :=
  (actions.map Prod.fst).insertionSort (· ≤ ·)

/-! ## Validation -/

/-- A player and the sorted names of the actions. -/
abbrev Definition := Int × List String

/-- `info_sets`, `visiting` and `visited`. -/
structure Validation where
  infoSets : List (String × Definition)
  visiting : Finset String
  visited : Finset String

def validateNode (nodes : List (String × GameNode)) : Nat → String → Validation →
    Except String Validation
  | 0, _, _ => .error "game depth exceeds hard limit 256"
  | levels + 1, nodeId, state => do
    require (nodeId ∉ state.visiting) "game graph contains a cycle"
    if nodeId ∈ state.visited then
      return state
    match nodes.lookup nodeId with
    | none => throw s!"unknown game node: {nodeId}"
    | some node => do
      let state := { state with visiting := insert nodeId state.visiting }
      let state ← match node with
        | .terminal _ => .ok state
        | .chance actions => do
          require (actions ≠ []) "chance node requires actions"
          require (normalizedProbabilitySum (actions.map fun item => item.2.probability)
            BEST_RESPONSE_VERIFICATION_ULPS) "chance probabilities must sum to 1"
          actions.foldlM
            (fun state item => do
              require (0 ≤ item.2.probability) "chance probabilities must be non-negative"
              validateNode nodes levels item.2.child state)
            state
        | .player player infoSet actions => do
          require (player = 0 ∨ player = 1) "player nodes must identify player 0 or 1"
          require (infoSet ≠ "" ∧ actions ≠ []) "player node requires information_set and actions"
          let definition := (player, actionNames actions)
          require (∀ existing ∈ state.infoSets.lookup infoSet, existing = definition)
            "all nodes in an information set must share player and actions"
          let state := { state with infoSets := (infoSet, definition) :: state.infoSets }
          actions.foldlM (fun state item => validateNode nodes levels item.2 state) state
      return {
        infoSets := state.infoSets
        visiting := state.visiting.erase nodeId
        visited := insert nodeId state.visited }

/-- `info_sets` as a dict: every name once, with its last definition. -/
def infoSetItems (infoSets : List (String × Definition)) : List (String × Definition) :=
  (infoSets.map Prod.fst).dedup.filterMap fun name =>
    (infoSets.lookup name).map fun definition => (name, definition)

/-- `responder_info_sets`. -/
def responderInfoSets (infoSets : List (String × Definition)) (bestResponder : Int) :
    List (String × List String) :=
  ((infoSetItems infoSets).filter fun item => item.2.1 = bestResponder).map
    (fun item => (item.1, item.2.2)) |>.insertionSort fun a b => a.1 ≤ b.1

/-- The fixed strategy at one information set of the opponent. -/
def checkFixed (fixedStrategy : FixedStrategy) (infoSet : String) (actions : List String) :
    Except String Unit :=
  match fixedStrategy.lookup infoSet with
  | none => throw s!"fixed strategy missing information set: {infoSet}"
  | some probabilities => do
    require ((probabilities.map Prod.fst).toFinset = actions.toFinset)
      s!"fixed strategy action mismatch at information set: {infoSet}"
    require (∀ item ∈ probabilities, 0 ≤ item.2)
      "fixed strategy probabilities must be finite and non-negative"
    require (normalizedProbabilitySum (probabilities.map Prod.snd) BEST_RESPONSE_VERIFICATION_ULPS)
      "fixed strategy probabilities must sum to 1"

/-! ## Evaluation -/

abbrev Memo := List (String × ℚ)

section

variable (nodes : List (String × GameNode)) (fixedStrategy : FixedStrategy) (bestResponder : Int)
  (policy : List (String × String))

/-- One term of the weighted sums of `evaluate`. -/
def addTerm (evaluate : String → Memo → Except String (ℚ × Memo)) (loop : ℚ × Memo)
    (probability : ℚ) (child : String) : Except String (ℚ × Memo) := do
  let (value, memo) ← evaluate child loop.2
  return (loop.1 + probability * value, memo)

/-- A look-up that raises a `KeyError`. -/
def item {α : Type} (entries : List (String × α)) (key : String) : Except String α :=
  match entries.lookup key with
  | some value => .ok value
  | none => throw key

def evaluate : Nat → String → Memo → Except String (ℚ × Memo)
  | 0, _, _ => throw "maximum recursion depth exceeded"
  | levels + 1, nodeId, memo =>
    match memo.lookup nodeId with
    | some value => return (value, memo)
    | none => do
      let node ← item nodes nodeId
      let (value, memo) ← match node with
        | .terminal payoff => .ok (payoff, memo)
        | .chance actions =>
          actions.foldlM
            (fun loop entry => addTerm (evaluate levels) loop entry.2.probability entry.2.child)
            (0, memo)
        | .player player infoSet actions =>
          if player = bestResponder then do
            let action ← item policy infoSet
            let child ← item actions action
            evaluate levels child memo
          else do
            let probabilities ← item fixedStrategy infoSet
            probabilities.foldlM
              (fun loop entry => do
                let child ← item actions entry.1
                addTerm (evaluate levels) loop entry.2 child)
              (0, memo)
      return (value, (nodeId, value) :: memo)

end

/-! ## The search -/

/-- `itertools.product`. -/
def product {α : Type} : List (List α) → List (List α)
  | [] => [[]]
  | xs :: rest => xs.flatMap fun x => (product rest).map (x :: ·)

structure Best where
  objectiveValue : ℚ
  player0Value : ℚ
  policy : List (String × String)
  deriving DecidableEq

structure Response where
  bestResponder : Int
  value : ℚ
  bestResponderValue : ℚ
  player0Value : ℚ
  purePolicy : List (String × String)
  evaluatedPolicies : Nat
  policyNodeWorkUpperBound : Nat
  equilibriumClaim : Bool
  deriving DecidableEq

/-- The responder's part of player 0's utility. -/
def objective (bestResponder : Int) (player0Value : ℚ) : ℚ :=
  if bestResponder = 0 then player0Value else -player0Value

/-- One round of the loop over the pure policies; `none` is `-math.inf`. -/
def tryPolicy (levels : Nat) (game : Game) (fixedStrategy : FixedStrategy) (bestResponder : Int)
    (names : List String) (best : Option Best) (selectedActions : List String) :
    Except String (Option Best) := do
  let policy := names.zip selectedActions
  let (player0Value, _) ←
    evaluate game.nodes fixedStrategy bestResponder policy levels game.root []
  let objectiveValue := objective bestResponder player0Value
  match best with
  | some b =>
    return if b.objectiveValue < objectiveValue then some ⟨objectiveValue, player0Value, policy⟩
      else best
  | none => return some ⟨objectiveValue, player0Value, policy⟩

def bestResponseToFixedStrategy (levels : Nat) (game : Game) (fixedStrategy : FixedStrategy)
    (bestResponder : Int) (maxPurePolicies : Nat) : Except String Response := do
  require (bestResponder = 0 ∨ bestResponder = 1) "best_responder must be player 0 or 1"
  require (1 ≤ maxPurePolicies ∧ maxPurePolicies ≤ HARD_MAX_PURE_POLICIES)
    "max_pure_policies must be between 1 and 1000000"
  require ((game.nodes.lookup game.root).isSome) "game requires a nodes mapping and valid root"
  require (game.nodes.length ≤ HARD_MAX_NODES) "game contains more than 10000 nodes"
  let state ← validateNode game.nodes (HARD_MAX_DEPTH + 1) game.root ⟨[], ∅, ∅⟩
  let responderSets := responderInfoSets state.infoSets bestResponder
  let policyCount := (responderSets.map fun s => s.2.length).prod
  require (policyCount ≤ maxPurePolicies)
    s!"best response requires {policyCount} pure policies, above limit {maxPurePolicies}"
  let workEstimate := max 1 policyCount * state.visited.card
  require (workEstimate ≤ HARD_MAX_POLICY_NODE_EVALUATIONS)
    s!"best-response work estimate exceeds hard limit: {workEstimate} > 5000000"
  let opponent := 1 - bestResponder
  forM (infoSetItems state.infoSets) fun s =>
    if s.2.1 = opponent then checkFixed fixedStrategy s.1 s.2.2 else .ok ()
  let best ← (product (responderSets.map Prod.snd)).foldlM
    (tryPolicy levels game fixedStrategy bestResponder (responderSets.map Prod.fst)) none
  let best ← match best with
    | some best => .ok best
    | none => throw "no pure policy"
  let best ←
    if responderSets.isEmpty then do
      let (player0Value, _) ← evaluate game.nodes fixedStrategy bestResponder [] levels game.root []
      .ok { best with
        player0Value := player0Value
        objectiveValue := objective bestResponder player0Value }
    else .ok best
  return {
    bestResponder := bestResponder
    value := best.objectiveValue
    bestResponderValue := best.objectiveValue
    player0Value := best.player0Value
    purePolicy := best.policy
    evaluatedPolicies := max 1 policyCount
    policyNodeWorkUpperBound := workEstimate
    equilibriumClaim := false }

/-! ## The verifier -/

/-- `_expect`. -/
def expect (condition : Prop) [Decidable condition] (message : String) : Except String Unit :=
  require condition s!"verification failed: {message}"

/-- `_expect_close` under the tool's policy of 64 units in the last place. -/
def expectClose (label : String) (actual expected : ℚ) : Except String Unit :=
  require (closeUlps actual expected BEST_RESPONSE_VERIFICATION_ULPS)
    s!"verification failed for {label}"

/-- One round of the loop over the table of nodes, collecting `responder_sets`. -/
def verifyNode (responder : Int) (fixed : FixedStrategy) (responderSets : List (String × List String))
    (node : GameNode) : Except String (List (String × List String)) :=
  match node with
  | .terminal _ => .ok responderSets
  | .chance actions => do
    expectClose "chance_probability_sum" (actions.map fun item => item.2.probability).sum 1
    return responderSets
  | .player player infoSet actions =>
    if player = responder then
      .ok ((infoSet, actionNames actions) :: responderSets)
    else do
      expect (∃ probabilities ∈ fixed.lookup infoSet,
        (probabilities.map Prod.fst).toFinset = (actionNames actions).toFinset)
        "fixed strategy action coverage"
      let probabilities ← item fixed infoSet
      expectClose s!"fixed_probability_sum[{infoSet}]" (probabilities.map Prod.snd).sum 1
      return responderSets

def verifyBestResponse (levels : Nat) (game : Game) (fixed : FixedStrategy) (responder : Int)
    (output : Response) : Except String Unit := do
  let purePolicy := output.purePolicy
  let responderSets ← (game.nodes.map Prod.snd).foldlM (verifyNode responder fixed) []
  expect ((purePolicy.map Prod.fst).toFinset = (responderSets.map Prod.fst).toFinset)
    "one action per responder information set"
  forM purePolicy fun entry => do
    let actions ← item responderSets entry.1
    expect (entry.2 ∈ actions) "reported pure-policy action"
  let (player0, _) ← evaluate game.nodes fixed responder purePolicy levels game.root []
  let responderValue := objective responder player0
  expectClose "player0_value" output.player0Value player0
  expectClose "best_responder_value" output.bestResponderValue responderValue
  expectClose "value" output.value responderValue
  expect (output.equilibriumClaim = false) "explicit non-equilibrium flag"

end BestResponse

end PokerDeliberation.Games
