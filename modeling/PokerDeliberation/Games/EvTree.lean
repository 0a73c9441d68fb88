import PokerDeliberation.Games.Numeric
import PokerDeliberation.Lib.Checked
import Mathlib.Data.Finset.Basic
import Mathlib.Data.String.Basic

/-!
# Expectation over an action tree

`evaluate_ev_tree` in exact rational arithmetic. A dict is a list of its items,
the newest first where the program assigns to it.
-/

namespace PokerDeliberation.Games

open Lib

namespace EvTree

def HARD_MAX_NODES : Nat := 10000

def HARD_MAX_DEPTH : Nat := 256

/-- A branch; what it does not name is `none`. -/
structure Branch where
  probability : Option ℚ
  child : Option String
  label : Option String
  deriving DecidableEq

/-- A node with a payoff, or with the list of its branches. A node without
either has no branches. -/
inductive Node where
  | payoff (payoff : ℚ)
  | branches (branches : List Branch)
  deriving DecidableEq

/-- The description; without a mapping of nodes it has none. -/
structure Tree where
  root : Option String
  nodes : List (String × Node)
  deriving DecidableEq

structure BranchDetail where
  label : String
  probability : ℚ
  childValue : ℚ
  contribution : ℚ
  deriving DecidableEq

/-- `visiting`, `memo` and `branch_values`. -/
structure Visit where
  visiting : Finset String
  memo : List (String × ℚ)
  branchValues : List (String × List BranchDetail)

def depthError : String := "EV tree depth exceeds hard limit 256"

/-- `branch.get("probability", -1)`. -/
def Branch.probabilityOr (branch : Branch) : ℚ := branch.probability.getD (-1)

/-- One round of the loop over the branches of a node. -/
def visitBranch (visit : String → Visit → Except String (ℚ × Visit))
    (loop : ℚ × List BranchDetail × Visit) (branch : Branch) :
    Except String (ℚ × List BranchDetail × Visit) := do
  let (value, details, state) := loop
  let some probability := branch.probability | throw "probability"
  require (0 ≤ probability) "branch probabilities must be finite and non-negative"
  let some child := branch.child | throw "child"
  let (childValue, state) ← visit child state
  let contribution := probability * childValue
  return (value + contribution,
    details ++ [⟨branch.label.getD child, probability, childValue, contribution⟩], state)

/-- `visit` with `257 - depth` levels left. -/
def visit (nodes : List (String × Node)) : Nat → String → Visit → Except String (ℚ × Visit)
  | 0, _, _ => .error depthError
  | levels + 1, nodeId, state =>
    match state.memo.lookup nodeId with
    | some value => .ok (value, state)
    | none => do
      require (nodeId ∉ state.visiting) "EV tree contains a cycle"
      match nodes.lookup nodeId with
      | none => throw s!"unknown EV tree node: {nodeId}"
      | some (.payoff payoff) =>
        return (payoff, { state with memo := (nodeId, payoff) :: state.memo })
      | some (.branches branches) =>
        require (branches ≠ []) s!"node {nodeId} requires payoff or non-empty branches"
        require (normalizedProbabilitySum (branches.map Branch.probabilityOr)
          EV_TREE_VERIFICATION_ULPS) s!"branch probabilities at {nodeId} must sum to 1"
        let entered := { state with visiting := insert nodeId state.visiting }
        let (value, details, state) ←
          branches.foldlM (visitBranch (visit nodes levels)) (0, [], entered)
        return (value, {
          visiting := state.visiting.erase nodeId
          memo := (nodeId, value) :: state.memo
          branchValues := (nodeId, details) :: state.branchValues })

structure Evaluation where
  root : String
  expectedValue : ℚ
  nodeValues : List (String × ℚ)
  branches : List (String × List BranchDetail)

def Tree.rootId (tree : Tree) : String := tree.root.getD "root"

def evaluateEvTree (tree : Tree) : Except String Evaluation := do
  let root := tree.rootId
  require ((tree.nodes.lookup root).isSome) "tree must contain a nodes mapping and a valid root"
  require (tree.nodes.length ≤ HARD_MAX_NODES) "EV tree contains more than 10000 nodes"
  let (rootValue, state) ← visit tree.nodes (HARD_MAX_DEPTH + 1) root ⟨∅, [], []⟩
  return ⟨root, rootValue, state.memo, state.branchValues⟩

end EvTree

end PokerDeliberation.Games
