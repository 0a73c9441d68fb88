import PokerDeliberation.Games.Numeric
import PokerDeliberation.Lib.Checked
import Mathlib.Algebra.BigOperators.Group.Finset.Basic
import Mathlib.Data.Fintype.Fin
import Mathlib.Data.Nat.Choose.Basic

/-!
# The Independent Chip Model

`calculate_icm` in exact rational arithmetic. A list of `n` stacks or equities
is a function on its positions.
-/

namespace PokerDeliberation.Games

open Lib

def BINARY64_UNIT_ROUNDOFF : ℚ := 2 ^ (-53 : ℤ)

def FORWARD_ERROR_SAFETY_FACTOR : ℚ := 4

structure ICMFloatingErrorBound where
  operationUpperBound : Nat
  ulps : Int
  absolute : ℚ
  deriving DecidableEq

def icmCachedSubsetOperationBound (activePlayerCount listedPlayerCount payoutCount : Nat) :
    Except String Nat := do
  require (1 ≤ activePlayerCount ∧ activePlayerCount ≤ listedPlayerCount ∧ 1 ≤ payoutCount ∧
    payoutCount ≤ activePlayerCount) "invalid ICM operation-bound dimensions"
  let stateOperations := (2 * listedPlayerCount + 4) * ((List.range payoutCount).map fun removed =>
    (activePlayerCount - removed) * activePlayerCount.choose removed).sum
  let finalOperations := listedPlayerCount + payoutCount + 1
  return stateOperations + finalOperations

def icmFloatingErrorBound (activePlayerCount listedPlayerCount payoutCount : Nat)
    (payablePrizeSum : ℚ) : Except String ICMFloatingErrorBound := do
  require (0 ≤ payablePrizeSum) "payable prize sum must be finite and non-negative"
  let operationUpperBound ←
    icmCachedSubsetOperationBound activePlayerCount listedPlayerCount payoutCount
  let accumulatedRoundoff := operationUpperBound * BINARY64_UNIT_ROUNDOFF
  require (accumulatedRoundoff < 1) "ICM floating-operation bound is outside the gamma model"
  let gamma := accumulatedRoundoff / (1 - accumulatedRoundoff)
  let scale := max 1 |payablePrizeSum|
  let scaleUlp := ulp scale
  let rawAbsolute := FORWARD_ERROR_SAFETY_FACTOR * gamma * scale
  let ulps := max 1 ⌈rawAbsolute / scaleUlp⌉
  return ⟨operationUpperBound, ulps, scaleUlp * ulps⟩

section

variable {n : Nat}

/-- `recurse(remaining, place)` with the payouts from `place` on. -/
def recurse (stack : Fin n → ℚ) : List ℚ → List (Fin n) → Fin n → ℚ
  | [], _ => 0
  | payout :: payouts, remaining =>
    let total := (remaining.map stack).sum
    if remaining = [] ∨ total ≤ 0 then 0
    else
      remaining.foldl
        (fun result winner =>
          let probability := stack winner / total
          let continuation := recurse stack payouts (remaining.filter (· ≠ winner))
          fun index =>
            (result index + if index = winner then probability * payout else 0) +
              probability * continuation index)
        0

structure ICMResult (n : Nat) where
  stack : Fin n → ℚ
  payouts : List ℚ
  equities : Fin n → ℚ
  equitySum : ℚ
  payablePrizeSum : ℚ
  sumError : ℚ
  verificationTolerance : ℚ
  conservationVerified : Bool
  zeroStackPlayers : List (Fin n)
  deriving DecidableEq

/-- The players with a stack. -/
def activePlayers (stack : Fin n → ℚ) : List (Fin n) :=
  (List.finRange n).filter fun index => 0 < stack index

def calculateIcm (stack : Fin n → ℚ) (payouts : List ℚ) : Except String (ICMResult n) := do
  require (2 ≤ n) "ICM requires at least two players"
  require (n ≤ 100) "ICM input is limited to 100 listed players"
  require (payouts ≠ [] ∧ payouts.length ≤ n) "payouts must contain between one and N entries"
  require (∀ index, 0 ≤ stack index) "stacks must be finite and non-negative"
  require (∀ payout ∈ payouts, 0 ≤ payout) "payouts must be finite and non-negative"
  require (∀ pair ∈ payouts.zip payouts.tail, pair.2 ≤ pair.1)
    "payouts must be ordered highest to lowest"
  let active := activePlayers stack
  require (active ≠ []) "at least one positive stack is required"
  require (active.length ≤ 12) "complete ICM enumeration is limited to 12 active players"
  require (∀ payout ∈ payouts.drop active.length, payout ≤ 0)
    "non-zero payouts cannot be assigned beyond the active player count"
  let effectivePayouts := payouts.take active.length
  let payableTotal := effectivePayouts.sum
  let equities := recurse stack effectivePayouts active
  let expectedTotal := ((List.finRange n).map equities).sum
  let errorBound ← icmFloatingErrorBound active.length n effectivePayouts.length payableTotal
  let sumError := expectedTotal - payableTotal
  return {
    stack := stack
    payouts := payouts
    equities := equities
    equitySum := expectedTotal
    payablePrizeSum := payableTotal
    sumError := sumError
    verificationTolerance := errorBound.absolute
    conservationVerified := |sumError| ≤ errorBound.absolute
    zeroStackPlayers := (List.finRange n).filter fun index => stack index = 0 }

end

end PokerDeliberation.Games
