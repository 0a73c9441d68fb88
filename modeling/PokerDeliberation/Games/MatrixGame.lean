import PokerDeliberation.Games.Numeric
import PokerDeliberation.Lib.Checked
import PokerDeliberation.Lib.Elimination
import Mathlib.Data.Fin.Tuple.Basic
import Mathlib.Data.Finset.Lattice.Fold
import Mathlib.Data.Nat.Choose.Basic

/-!
# Zero-sum matrix games

`solve_zero_sum_matrix` in exact rational arithmetic: the enumeration of
supports with the linear solver under it, and the approximate fallback. A
tuple of `k` indexes is a function on `Fin k`; an equation is its coefficients
and its value.
-/

namespace PokerDeliberation.Games

open Lib

namespace MatrixGame

def HARD_MAX_DIMENSION : Nat := 32

def HARD_MAX_SUPPORT_SIZE : Nat := 8

def HARD_MAX_FALLBACK_ITERATIONS : Nat := 1000000

def HARD_MAX_SUPPORT_CANDIDATES : Nat := 250000

def HARD_MAX_FICTITIOUS_WORK : Nat := 5000000

/-- A payoff matrix that is not empty. -/
structure PayoffMatrix where
  rows : Nat
  columns : Nat
  rows_pos : NeZero rows
  columns_pos : NeZero columns
  entry : Fin rows → Fin columns → ℚ

instance (matrix : PayoffMatrix) : NeZero matrix.rows := matrix.rows_pos

instance (matrix : PayoffMatrix) : NeZero matrix.columns := matrix.columns_pos

/-- `_validate_matrix`. -/
def validateMatrix : List (List ℚ) → Except String PayoffMatrix
  | [] | [] :: _ => .error "payoff matrix must be non-empty"
  | (value :: values) :: rest => do
    let columns := values.length + 1
    require (∀ row ∈ rest, row.length = columns) "payoff matrix must be rectangular"
    return {
      rows := rest.length + 1, columns, rows_pos := inferInstance, columns_pos := inferInstance
      entry := fun row column => (((value :: values) :: rest).getD row []).getD column 0 }

/-! ## The linear solver -/

section

variable {size : Nat}

/-- `max(range(column, size), key=lambda row: abs(augmented[row][column]))`, if it is large enough. -/
def choosePivot (tolerance : ℚ) (column : Fin size) (augmented : Fin size → (Fin size → ℚ) × ℚ) :
    Option (Fin size) :=
  let pivot := firstMax (fun row => |(augmented row).1 column|) column
    ((List.finRange size).filter fun row => column < row)
  if |(augmented pivot).1 column| ≤ tolerance then none else some pivot

/-- `_solve_linear`. -/
def solveLinear (equations : Fin size → (Fin size → ℚ) × ℚ) (tolerance : ℚ) : Option (Fin size → ℚ) := do
  let augmented ← eliminated (fun column row => row.1 column) (choosePivot tolerance)
    (List.finRange size) equations
  return fun index => (augmented index).2

end

/-! ## The candidate of two supports -/

section

variable {rows columns k : Nat} (matrix : Fin rows → Fin columns → ℚ)

/-- Against every column of the support the row support earns the same. -/
def rowEquations (rowSupport : Fin k → Fin rows) (columnSupport : Fin k → Fin columns) :
    Fin (k + 1) → (Fin (k + 1) → ℚ) × ℚ :=
  Fin.snoc (α := fun _ => (Fin (k + 1) → ℚ) × ℚ)
    (fun column => (Fin.snoc (α := fun _ => ℚ)
      (fun row => matrix (rowSupport row) (columnSupport column)) (-1), 0))
    (Fin.snoc (α := fun _ => ℚ) (fun _ => 1) 0, 1)

def columnEquations (rowSupport : Fin k → Fin rows) (columnSupport : Fin k → Fin columns) :
    Fin (k + 1) → (Fin (k + 1) → ℚ) × ℚ :=
  Fin.snoc (α := fun _ => (Fin (k + 1) → ℚ) × ℚ)
    (fun row => (Fin.snoc (α := fun _ => ℚ)
      (fun column => matrix (rowSupport row) (columnSupport column)) (-1), 0))
    (Fin.snoc (α := fun _ => ℚ) (fun _ => 1) 0, 1)

/-- Zeros, and then the probabilities at their indexes. -/
def strategyOf {n : Nat} (support : Fin k → Fin n) (probabilities : Fin k → ℚ) : Fin n → ℚ :=
  (List.finRange k).foldl (fun strategy i => Function.update strategy (support i) (probabilities i))
    fun _ => 0

def payoffAgainstColumns (rowStrategy : Fin rows → ℚ) (column : Fin columns) : ℚ :=
  ∑ row, rowStrategy row * matrix row column

def payoffForRows (columnStrategy : Fin columns → ℚ) (row : Fin rows) : ℚ :=
  ∑ column, matrix row column * columnStrategy column

structure Candidate (rows columns k : Nat) where
  rowStrategy : Fin rows → ℚ
  columnStrategy : Fin columns → ℚ
  value : ℚ
  rowSupport : Fin k → Fin rows
  columnSupport : Fin k → Fin columns
  dualityGap : ℚ
  rowBestResponse : Fin rows
  columnBestResponse : Fin columns

variable [NeZero rows] [NeZero columns]

/-- `min(values)`. -/
def minOf {n : Nat} [NeZero n] (values : Fin n → ℚ) : ℚ := Finset.univ.inf' ⟨0, Finset.mem_univ 0⟩ values

/-- `max(values)`. -/
def maxOf {n : Nat} [NeZero n] (values : Fin n → ℚ) : ℚ := Finset.univ.sup' ⟨0, Finset.mem_univ 0⟩ values

/-- `max(range(n), key=values.__getitem__)`. -/
def argmax {n : Nat} [NeZero n] (values : Fin n → ℚ) : Fin n := firstMax values 0 (List.finRange n)

/-- `min(range(n), key=values.__getitem__)`. -/
def argmin {n : Nat} [NeZero n] (values : Fin n → ℚ) : Fin n := argmax fun i => -values i

/-- `_support_candidate`. -/
def supportCandidate (rowSupport : Fin k → Fin rows) (columnSupport : Fin k → Fin columns)
    (tolerance : ℚ) : Option (Candidate rows columns k) := do
  let rowSolution ← solveLinear (rowEquations matrix rowSupport columnSupport) tolerance
  let columnSolution ← solveLinear (columnEquations matrix rowSupport columnSupport) tolerance
  let rowProbabilities := fun i : Fin k => rowSolution i.castSucc
  let columnProbabilities := fun i : Fin k => columnSolution i.castSucc
  let rowValue := rowSolution (Fin.last k)
  let columnValue := columnSolution (Fin.last k)
  if ∃ i, rowProbabilities i ≤ tolerance ∨ columnProbabilities i ≤ tolerance then none
  else if tolerance * 20 < |rowValue - columnValue| then none
  else
    let rowStrategy := strategyOf rowSupport rowProbabilities
    let columnStrategy := strategyOf columnSupport columnProbabilities
    let lower := minOf (payoffAgainstColumns matrix rowStrategy)
    let upper := maxOf (payoffForRows matrix columnStrategy)
    if lower < rowValue - tolerance * 20 ∨ rowValue + tolerance * 20 < upper then none
    else
      some {
        rowStrategy, columnStrategy, value := (rowValue + columnValue) / 2, rowSupport, columnSupport
        dualityGap := max 0 (upper - lower)
        rowBestResponse := argmax (payoffForRows matrix columnStrategy)
        columnBestResponse := argmin (payoffAgainstColumns matrix rowStrategy) }

/-! ## The approximate fallback -/

/-- The counts divided by their total. -/
def normalized {n : Nat} (counts : Fin n → ℚ) : Fin n → ℚ := fun i => counts i / ∑ j, counts j

/-- One round: each side counts its best response to the other's play so far. -/
def fictitiousRound (counts : (Fin rows → ℚ) × (Fin columns → ℚ)) :
    (Fin rows → ℚ) × (Fin columns → ℚ) :=
  let rowChoice := argmax (payoffForRows matrix (normalized counts.2))
  let rowCounts := Function.update counts.1 rowChoice (counts.1 rowChoice + 1)
  let columnChoice := argmin (payoffAgainstColumns matrix (normalized rowCounts))
  (rowCounts, Function.update counts.2 columnChoice (counts.2 columnChoice + 1))

structure Approximation (rows columns : Nat) where
  rowStrategy : Fin rows → ℚ
  columnStrategy : Fin columns → ℚ
  valueEstimate : ℚ
  dualityGap : ℚ
  iterations : Nat
  rowBestResponse : Fin rows
  columnBestResponse : Fin columns

/-- `_fictitious_play`. -/
def fictitiousPlay (iterations : Nat) : Approximation rows columns :=
  let counts := (fictitiousRound matrix)^[iterations] (fun _ => 1, fun _ => 1)
  let rowStrategy := normalized counts.1
  let columnStrategy := normalized counts.2
  let upper := maxOf (payoffForRows matrix columnStrategy)
  let lower := minOf (payoffAgainstColumns matrix rowStrategy)
  { rowStrategy, columnStrategy, valueEstimate := (upper + lower) / 2, dualityGap := upper - lower
    iterations, rowBestResponse := argmax (payoffForRows matrix columnStrategy)
    columnBestResponse := argmin (payoffAgainstColumns matrix rowStrategy) }

/-! ## The search -/

/-- `combinations(values, k)`. -/
def combinations {α : Type} : (k : Nat) → List α → List (Fin k → α)
  | 0, _ => [Fin.elim0]
  | _ + 1, [] => []
  | k + 1, value :: values =>
    (combinations k values).map (Fin.cons (α := fun _ => α) value) ++ combinations (k + 1) values

/-- The first candidate with supports of a size. -/
def candidateOfSize (tolerance : ℚ) (k : Nat) : Option (Candidate rows columns k) :=
  (combinations k (List.finRange rows)).findSome? fun rowSupport =>
    (combinations k (List.finRange columns)).findSome? fun columnSupport =>
      supportCandidate matrix rowSupport columnSupport tolerance

end

inductive Outcome (rows columns : Nat) where
  | verified (k : Nat) (candidate : Candidate rows columns k) (verificationTolerance : ℚ)
    (supportCandidatesUpperBound : Nat)
  | approximate (approximation : Approximation rows columns) (supportCandidatesUpperBound : Nat)
    (fallbackWorkEstimate : Nat)

namespace PayoffMatrix

variable (matrix : PayoffMatrix)

/-- `effective_matrix_tolerance`. -/
def effectiveTolerance (callerTolerance : ℚ) : ℚ :=
  let magnitude := max 1 (Finset.univ.sup' ⟨(0, 0), Finset.mem_univ _⟩
    fun cell : Fin matrix.rows × Fin matrix.columns => |matrix.entry cell.1 cell.2|)
  max callerTolerance (ulp magnitude * MATRIX_NORMALIZATION_ULPS)

def supportLimit (maxSupportSize : Int) : Nat := min (min matrix.rows matrix.columns) maxSupportSize.toNat

/-- The sizes of support that are tried, in order. -/
def supportSizes (maxSupportSize : Int) : List Nat :=
  (List.range (matrix.supportLimit maxSupportSize)).map (· + 1)

def supportCandidates (maxSupportSize : Int) : Nat :=
  ((matrix.supportSizes maxSupportSize).map fun size =>
    matrix.rows.choose size * matrix.columns.choose size).sum

/-- The first candidate, the smaller supports first. -/
def enumerateSupports (tolerance : ℚ) (maxSupportSize : Int) :
    Option (Outcome matrix.rows matrix.columns) :=
  (matrix.supportSizes maxSupportSize).findSome? fun size =>
    (candidateOfSize matrix.entry tolerance size).map fun candidate =>
      .verified size candidate tolerance (matrix.supportCandidates maxSupportSize)

/-- `solve_zero_sum_matrix` of a validated matrix. -/
def solve (callerTolerance : ℚ) (maxSupportSize fallbackIterations : Int) :
    Except String (Outcome matrix.rows matrix.columns) := do
  let tolerance := matrix.effectiveTolerance callerTolerance
  require (matrix.rows ≤ HARD_MAX_DIMENSION ∧ matrix.columns ≤ HARD_MAX_DIMENSION)
    s!"matrix dimensions are limited to {HARD_MAX_DIMENSION} x {HARD_MAX_DIMENSION}"
  require (1 ≤ maxSupportSize ∧ maxSupportSize ≤ HARD_MAX_SUPPORT_SIZE)
    s!"max_support_size must be between 1 and {HARD_MAX_SUPPORT_SIZE}"
  require (1 ≤ fallbackIterations ∧ fallbackIterations ≤ HARD_MAX_FALLBACK_ITERATIONS)
    s!"fallback_iterations must be between 1 and {HARD_MAX_FALLBACK_ITERATIONS}"
  let supportCandidates := matrix.supportCandidates maxSupportSize
  let fallbackWork := fallbackIterations.toNat * matrix.rows * matrix.columns
  let enumerated := if supportCandidates ≤ HARD_MAX_SUPPORT_CANDIDATES then
    matrix.enumerateSupports tolerance maxSupportSize else none
  match enumerated with
  | some outcome => return outcome
  | none => do
    require (fallbackWork ≤ HARD_MAX_FICTITIOUS_WORK)
      s!"matrix work estimate exceeds hard limits: support_candidates={supportCandidates}, fallback_work={fallbackWork}"
    return .approximate (fictitiousPlay matrix.entry fallbackIterations.toNat) supportCandidates
      fallbackWork

end PayoffMatrix

def solveZeroSumMatrix (matrix : List (List ℚ)) (tolerance : ℚ := 1 / 10 ^ 9)
    (maxSupportSize : Int := 8) (fallbackIterations : Int := 50000) :
    Except String (Σ A : PayoffMatrix, Outcome A.rows A.columns) := do
  require (0 ≤ tolerance) "tolerance must be finite and non-negative"
  let A ← validateMatrix matrix
  let outcome ← A.solve tolerance maxSupportSize fallbackIterations
  return ⟨A, outcome⟩

end MatrixGame

end PokerDeliberation.Games
