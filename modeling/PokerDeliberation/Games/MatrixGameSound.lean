import PokerDeliberation.Games.MatrixGame
import PokerDeliberation.Lib.ZeroSum
import Mathlib.Algebra.BigOperators.Fin

/-!
# Support enumeration

What the linear solver returns is the one solution of the equations, so the
candidate of two supports is made of the probabilities that leave the other
side indifferent. Its value is exact and its deviations are within the
tolerance; and the supports of an equilibrium, where the solver meets no small
pivot, have a candidate.
-/

namespace PokerDeliberation.Games

open Lib Lib.ZeroSum

namespace MatrixGame

/-! ## The solver -/

section

variable {size : Nat} {equations : Fin size → (Fin size → ℚ) × ℚ} {tolerance : ℚ} {x : Fin size → ℚ}

theorem choosePivot_some {column pivot : Fin size} (h : choosePivot tolerance column equations = some pivot) :
    column ≤ pivot ∧ tolerance < |(equations pivot).1 column| := by
  unfold choosePivot at h
  dsimp only at h
  split at h
  · cases h
  · next hlarge =>
    obtain rfl := Option.some.inj h
    refine ⟨?_, not_le.1 hlarge⟩
    have hmem := @firstMax_mem _ _ _ (fun row => |(equations row).1 column|) column
      ((List.finRange size).filter fun row => column < row)
    rcases List.mem_cons.1 hmem with heq | hmem
    · exact heq.ge
    · exact (of_decide_eq_true (List.mem_filter.1 hmem).2).le

theorem chooses_choosePivot (htolerance : 0 ≤ tolerance) :
    Chooses (fun column (row : (Fin size → ℚ) × ℚ) => row.1 column) (choosePivot tolerance)
      (List.finRange size) := by
  intro done column rest hsplit rows pivot hpivot
  obtain ⟨hle, hlarge⟩ := choosePivot_some hpivot
  refine ⟨fun hdone => ?_, abs_pos.1 (htolerance.trans_lt hlarge)⟩
  have hsorted := List.pairwise_lt_finRange size
  rw [hsplit, List.pairwise_append] at hsorted
  exact absurd (hsorted.2.2 pivot hdone column List.mem_cons_self) (not_lt.2 hle)

/-- What the solver returns is the one solution. -/
theorem solves_iff_of_solveLinear (htolerance : 0 ≤ tolerance)
    (h : solveLinear equations tolerance = some x) (y : Fin size → ℚ) :
    Solves equations y ↔ y = x := by
  simp only [solveLinear, Option.bind_eq_bind, Option.bind_eq_some_iff, Option.pure_def,
    Option.some.injEq] at h
  obtain ⟨augmented, heliminated, rfl⟩ := h
  exact eliminated_solves_iff (List.nodup_finRange size) List.mem_finRange
    (chooses_choosePivot htolerance) heliminated y

end

/-! ## The equations -/

section

variable {rows columns k : Nat} {matrix : Fin rows → Fin columns → ℚ}
variable {rowSupport : Fin k → Fin rows} {columnSupport : Fin k → Fin columns} {x : Fin (k + 1) → ℚ}

theorem solves_rowEquations : Solves (rowEquations matrix rowSupport columnSupport) x ↔
    (∀ column, ∑ row, matrix (rowSupport row) (columnSupport column) * x row.castSucc =
      x (Fin.last k)) ∧ ∑ row : Fin k, x row.castSucc = 1 := by
  unfold Solves rowEquations
  rw [Fin.forall_fin_succ']
  simp only [Fin.snoc_castSucc, Fin.snoc_last, Fin.sum_univ_castSucc, neg_one_mul, one_mul, zero_mul,
    add_zero, ← sub_eq_add_neg, sub_eq_zero]

theorem solves_columnEquations : Solves (columnEquations matrix rowSupport columnSupport) x ↔
    (∀ row, ∑ column, matrix (rowSupport row) (columnSupport column) * x column.castSucc =
      x (Fin.last k)) ∧ ∑ column : Fin k, x column.castSucc = 1 := by
  unfold Solves columnEquations
  rw [Fin.forall_fin_succ']
  simp only [Fin.snoc_castSucc, Fin.snoc_last, Fin.sum_univ_castSucc, neg_one_mul, one_mul, zero_mul,
    add_zero, ← sub_eq_add_neg, sub_eq_zero]

end

/-! ## Strategies on a support -/

section

variable {n k : Nat} {support : Fin k → Fin n} {p : Fin k → ℚ}

theorem strategyOf_support (hinj : Function.Injective support) (i : Fin k) :
    strategyOf support p (support i) = p i := by
  have hfold : ∀ (is : List (Fin k)) (start : Fin n → ℚ),
      is.foldl (fun strategy i => Function.update strategy (support i) (p i)) start (support i) =
        if i ∈ is then p i else start (support i) := by
    intro is
    induction is with
    | nil => simp
    | cons j is ih =>
      intro start
      rw [List.foldl_cons, ih, Function.update_apply]
      by_cases hij : i = j
      · simp [hij]
      · simp [hij, hinj.ne hij]
  rw [strategyOf, hfold, if_pos (List.mem_finRange i)]

theorem strategyOf_of_notMem {r : Fin n} (h : r ∉ Set.range support) : strategyOf support p r = 0 := by
  have hfold : ∀ (is : List (Fin k)) (start : Fin n → ℚ),
      is.foldl (fun strategy i => Function.update strategy (support i) (p i)) start r = start r := by
    intro is
    induction is with
    | nil => simp
    | cons j is ih =>
      intro start
      rw [List.foldl_cons, ih, Function.update_of_ne]
      exact fun heq => h ⟨j, heq.symm⟩
  rw [strategyOf, hfold]

/-- A sum weighted by the strategy is one over its support. -/
theorem sum_strategyOf (hinj : Function.Injective support) (g : Fin n → ℚ) :
    ∑ r, strategyOf support p r * g r = ∑ i, p i * g (support i) := by
  symm
  refine Fintype.sum_of_injective support hinj _ _ (fun r hr => ?_) fun i => ?_
  · rw [strategyOf_of_notMem hr, zero_mul]
  · rw [strategyOf_support hinj]

/-- Positive probabilities that add up to one are a strategy, positive on the support alone. -/
theorem isStrategy_strategyOf (hinj : Function.Injective support) (hpos : ∀ i, 0 < p i)
    (hsum : ∑ i, p i = 1) : IsStrategy (strategyOf support p) := by
  refine ⟨fun r => ?_, ?_⟩
  · by_cases hr : r ∈ Set.range support
    · obtain ⟨i, rfl⟩ := hr
      rw [strategyOf_support hinj]
      exact (hpos i).le
    · rw [strategyOf_of_notMem hr]
  · have hsum' := sum_strategyOf hinj (p := p) fun _ => 1
    simpa only [mul_one, hsum] using hsum'

theorem strategyOf_pos_iff (hinj : Function.Injective support) (hpos : ∀ i, 0 < p i) (r : Fin n) :
    0 < strategyOf support p r ↔ r ∈ Set.range support := by
  constructor
  · intro hr
    by_contra hnot
    rw [strategyOf_of_notMem hnot] at hr
    exact lt_irrefl 0 hr
  · rintro ⟨i, rfl⟩
    rw [strategyOf_support hinj]
    exact hpos i

/-- A strategy is what it is on its support. -/
theorem strategyOf_eq {x : Fin n → ℚ} (hinj : Function.Injective support) (hx : ∀ r, 0 ≤ x r)
    (hsupport : ∀ r, 0 < x r ↔ r ∈ Set.range support) :
    strategyOf support (fun i => x (support i)) = x := by
  funext r
  by_cases hr : r ∈ Set.range support
  · obtain ⟨i, rfl⟩ := hr
    exact strategyOf_support hinj i
  · rw [strategyOf_of_notMem hr]
    exact le_antisymm (hx r) (not_lt.1 fun hpos => hr ((hsupport r).1 hpos))

end

/-! ## Candidates are nearly equilibria -/

section

variable {rows columns k : Nat} [NeZero rows] [NeZero columns] {matrix : Fin rows → Fin columns → ℚ}
variable {rowSupport : Fin k → Fin rows} {columnSupport : Fin k → Fin columns} {tolerance : ℚ}
variable {candidate : Candidate rows columns k}

theorem minOf_le {n : Nat} [NeZero n] (values : Fin n → ℚ) (i : Fin n) : minOf values ≤ values i :=
  Finset.inf'_le _ (Finset.mem_univ i)

theorem le_maxOf {n : Nat} [NeZero n] (values : Fin n → ℚ) (i : Fin n) : values i ≤ maxOf values :=
  Finset.le_sup' _ (Finset.mem_univ i)

theorem le_minOf {n : Nat} [NeZero n] {values : Fin n → ℚ} {v : ℚ} (h : ∀ i, v ≤ values i) :
    v ≤ minOf values := Finset.le_inf' _ _ fun i _ => h i

theorem maxOf_le {n : Nat} [NeZero n] {values : Fin n → ℚ} {v : ℚ} (h : ∀ i, values i ≤ v) :
    maxOf values ≤ v := Finset.sup'_le _ _ fun i _ => h i

/-- What a candidate promises, with its deviations within `slack`. -/
structure Sound (matrix : Fin rows → Fin columns → ℚ) (rowSupport : Fin k → Fin rows)
    (columnSupport : Fin k → Fin columns) (slack : ℚ) (candidate : Candidate rows columns k) : Prop where
  row : IsStrategy candidate.rowStrategy
  column : IsStrategy candidate.columnStrategy
  row_support : ∀ r, 0 < candidate.rowStrategy r ↔ r ∈ Set.range rowSupport
  column_support : ∀ c, 0 < candidate.columnStrategy c ↔ c ∈ Set.range columnSupport
  value_eq : payoff matrix candidate.rowStrategy candidate.columnStrategy = candidate.value
  no_row : ∀ r, earned matrix candidate.columnStrategy r ≤ candidate.value + slack
  no_column : ∀ c, candidate.value - slack ≤ against matrix candidate.rowStrategy c
  gap_le : candidate.dualityGap ≤ 2 * slack

omit [NeZero rows] [NeZero columns] in
/-- The row side of two solved supports: what is earned against the column support, and the payoff. -/
theorem against_of_solves {x : Fin (k + 1) → ℚ} (hrow : Function.Injective rowSupport)
    (hx : Solves (rowEquations matrix rowSupport columnSupport) x) (i : Fin k) :
    against matrix (strategyOf rowSupport fun i => x i.castSucc) (columnSupport i) =
      x (Fin.last k) := by
  rw [against, sum_strategyOf hrow fun r => matrix r (columnSupport i),
    ← (solves_rowEquations.1 hx).1 i]
  exact Finset.sum_congr rfl fun row _ => mul_comm _ _

omit [NeZero rows] [NeZero columns] in
theorem earned_of_solves {y : Fin (k + 1) → ℚ} (hcolumn : Function.Injective columnSupport)
    (hy : Solves (columnEquations matrix rowSupport columnSupport) y) (i : Fin k) :
    earned matrix (strategyOf columnSupport fun i => y i.castSucc) (rowSupport i) =
      y (Fin.last k) := by
  simp only [earned, mul_comm (matrix _ _)]
  rw [sum_strategyOf hcolumn fun c => matrix (rowSupport i) c, ← (solves_columnEquations.1 hy).1 i]
  exact Finset.sum_congr rfl fun column _ => mul_comm _ _

omit [NeZero rows] [NeZero columns] in
/-- Both systems have the same value, the payoff of their strategies. -/
theorem payoff_of_solves {x y : Fin (k + 1) → ℚ} (hrow : Function.Injective rowSupport)
    (hcolumn : Function.Injective columnSupport)
    (hx : Solves (rowEquations matrix rowSupport columnSupport) x)
    (hy : Solves (columnEquations matrix rowSupport columnSupport) y) :
    payoff matrix (strategyOf rowSupport fun i => x i.castSucc)
        (strategyOf columnSupport fun i => y i.castSucc) = x (Fin.last k) ∧
      y (Fin.last k) = x (Fin.last k) := by
  have hcolumns : payoff matrix (strategyOf rowSupport fun i => x i.castSucc)
      (strategyOf columnSupport fun i => y i.castSucc) = x (Fin.last k) := by
    simp only [payoff_eq_columns, mul_comm (against _ _ _)]
    rw [sum_strategyOf hcolumn]
    simp only [against_of_solves hrow hx, ← Finset.sum_mul, (solves_columnEquations.1 hy).2, one_mul]
  have hrows : payoff matrix (strategyOf rowSupport fun i => x i.castSucc)
      (strategyOf columnSupport fun i => y i.castSucc) = y (Fin.last k) := by
    rw [payoff_eq_rows, sum_strategyOf hrow]
    simp only [earned_of_solves hcolumn hy, ← Finset.sum_mul, (solves_rowEquations.1 hx).2, one_mul]
  exact ⟨hcolumns, hrows.symm.trans hcolumns⟩

theorem sound_of_supportCandidate (hrow : Function.Injective rowSupport)
    (hcolumn : Function.Injective columnSupport) (htolerance : 0 ≤ tolerance)
    (h : supportCandidate matrix rowSupport columnSupport tolerance = some candidate) :
    Sound matrix rowSupport columnSupport (20 * tolerance) candidate := by
  simp only [supportCandidate, Option.bind_eq_bind, Option.bind_eq_some_iff] at h
  obtain ⟨x, hx, y, hy, h⟩ := h
  have hx := (solves_iff_of_solveLinear htolerance hx x).2 rfl
  have hy := (solves_iff_of_solveLinear htolerance hy y).2 rfl
  obtain ⟨hpayoff, hvalue⟩ := payoff_of_solves hrow hcolumn hx hy
  split at h
  · cases h
  · next hlarge =>
    have hpositive : ∀ i : Fin k, 0 < x i.castSucc ∧ 0 < y i.castSucc := fun i =>
      ⟨htolerance.trans_lt (not_le.1 fun hle => hlarge ⟨i, .inl hle⟩),
        htolerance.trans_lt (not_le.1 fun hle => hlarge ⟨i, .inr hle⟩)⟩
    split at h
    · cases h
    · split at h
      · cases h
      · next hdeviation =>
        obtain ⟨hlower, hupper⟩ := not_or.1 hdeviation
        cases h
        rw [not_lt] at hlower hupper
        have hmean : (x (Fin.last k) + y (Fin.last k)) / 2 = x (Fin.last k) := by
          rw [hvalue]
          ring
        refine ⟨isStrategy_strategyOf hrow (fun i => (hpositive i).1) (solves_rowEquations.1 hx).2,
          isStrategy_strategyOf hcolumn (fun i => (hpositive i).2) (solves_columnEquations.1 hy).2,
          strategyOf_pos_iff hrow fun i => (hpositive i).1,
          strategyOf_pos_iff hcolumn fun i => (hpositive i).2, hpayoff.trans hmean.symm,
          fun r => ?_, fun c => ?_, ?_⟩
        · have hle := le_maxOf (payoffForRows matrix (strategyOf columnSupport fun i => y i.castSucc)) r
          show payoffForRows matrix _ r ≤ _
          rw [hmean, mul_comm]
          exact hle.trans hupper
        · have hle := minOf_le (payoffAgainstColumns matrix (strategyOf rowSupport fun i => x i.castSucc)) c
          show _ ≤ payoffAgainstColumns matrix _ c
          rw [hmean, mul_comm]
          exact hlower.trans hle
        · refine max_le (by positivity) ?_
          linarith

end

/-! ## Supports of an equilibrium -/

section

variable {rows columns k : Nat} [NeZero rows] [NeZero columns] {matrix : Fin rows → Fin columns → ℚ}
variable {rowSupport : Fin k → Fin rows} {columnSupport : Fin k → Fin columns} {tolerance : ℚ}
variable {x : Fin rows → ℚ} {y : Fin columns → ℚ}

/-- The tuples play the strategies' supports. -/
structure Supports (x : Fin rows → ℚ) (y : Fin columns → ℚ) (rowSupport : Fin k → Fin rows)
    (columnSupport : Fin k → Fin columns) : Prop where
  row_mono : StrictMono rowSupport
  column_mono : StrictMono columnSupport
  row_iff : ∀ r, 0 < x r ↔ r ∈ Set.range rowSupport
  column_iff : ∀ c, 0 < y c ↔ c ∈ Set.range columnSupport

/-- A sum weighted by a strategy is one over its support. -/
theorem sum_of_supports {n : Nat} {x : Fin n → ℚ} {support : Fin k → Fin n} (hmono : StrictMono support)
    (hx : IsStrategy x) (hsupport : ∀ r, 0 < x r ↔ r ∈ Set.range support) (g : Fin n → ℚ) :
    ∑ r, x r * g r = ∑ i, x (support i) * g (support i) := by
  conv_lhs => rw [← strategyOf_eq hmono.injective hx.nonneg hsupport]
  exact sum_strategyOf hmono.injective g

omit [NeZero rows] [NeZero columns] in
/-- An equilibrium solves the equations of its supports. -/
theorem solves_rowEquations_of_equilibrium (h : Equilibrium matrix x y)
    (hsupports : Supports x y rowSupport columnSupport) :
    Solves (rowEquations matrix rowSupport columnSupport)
      (Fin.snoc (α := fun _ => ℚ) (fun i => x (rowSupport i)) (payoff matrix x y)) := by
  have hsum := sum_of_supports hsupports.row_mono h.row hsupports.row_iff
  refine solves_rowEquations.2 ⟨fun column => ?_, ?_⟩
  · have hagainst := h.against_eq ((hsupports.column_iff _).2 ⟨column, rfl⟩)
    rw [against, hsum] at hagainst
    simpa only [Fin.snoc_castSucc, Fin.snoc_last, mul_comm] using hagainst
  · have hone := hsum fun _ => 1
    simp only [mul_one, h.row.sum_eq] at hone
    simpa only [Fin.snoc_castSucc] using hone.symm

omit [NeZero rows] [NeZero columns] in
theorem solves_columnEquations_of_equilibrium (h : Equilibrium matrix x y)
    (hsupports : Supports x y rowSupport columnSupport) :
    Solves (columnEquations matrix rowSupport columnSupport)
      (Fin.snoc (α := fun _ => ℚ) (fun i => y (columnSupport i)) (payoff matrix x y)) := by
  have hsum := sum_of_supports hsupports.column_mono h.column hsupports.column_iff
  refine solves_columnEquations.2 ⟨fun row => ?_, ?_⟩
  · have hearned := h.earned_eq ((hsupports.row_iff _).2 ⟨row, rfl⟩)
    simp only [earned, mul_comm (matrix _ _)] at hearned
    rw [hsum] at hearned
    simpa only [Fin.snoc_castSucc, Fin.snoc_last, mul_comm] using hearned
  · have hone := hsum fun _ => 1
    simp only [mul_one, h.column.sum_eq] at hone
    simpa only [Fin.snoc_castSucc] using hone.symm

/-- The supports of an equilibrium have a candidate, where the solver gets through. -/
theorem exists_supportCandidate (h : Equilibrium matrix x y)
    (hsupports : Supports x y rowSupport columnSupport) (htolerance : 0 ≤ tolerance)
    (hrow : (solveLinear (rowEquations matrix rowSupport columnSupport) tolerance).isSome)
    (hcolumn : (solveLinear (columnEquations matrix rowSupport columnSupport) tolerance).isSome)
    (hx : ∀ i, tolerance < x (rowSupport i)) (hy : ∀ i, tolerance < y (columnSupport i)) :
    (supportCandidate matrix rowSupport columnSupport tolerance).isSome := by
  obtain ⟨rowSolution, hrow⟩ := Option.isSome_iff_exists.1 hrow
  obtain ⟨columnSolution, hcolumn⟩ := Option.isSome_iff_exists.1 hcolumn
  obtain rfl := (solves_iff_of_solveLinear htolerance hrow _).1
    (solves_rowEquations_of_equilibrium h hsupports)
  obtain rfl := (solves_iff_of_solveLinear htolerance hcolumn _).1
    (solves_columnEquations_of_equilibrium h hsupports)
  have hrowStrategy := strategyOf_eq hsupports.row_mono.injective h.row.nonneg hsupports.row_iff
  have hcolumnStrategy :=
    strategyOf_eq hsupports.column_mono.injective h.column.nonneg hsupports.column_iff
  have hlower : payoff matrix x y ≤ minOf (payoffAgainstColumns matrix x) := le_minOf h.no_column
  have hupper : maxOf (payoffForRows matrix y) ≤ payoff matrix x y := maxOf_le h.no_row
  have hsmall : ¬ ∃ i, x (rowSupport i) ≤ tolerance ∨ y (columnSupport i) ≤ tolerance := by
    rintro ⟨i, hle | hle⟩
    · exact absurd (hx i) (not_lt.2 hle)
    · exact absurd (hy i) (not_lt.2 hle)
  simp only [supportCandidate, hrow, hcolumn, Option.bind_eq_bind, Option.bind_some,
    Fin.snoc_castSucc, Fin.snoc_last, hrowStrategy, hcolumnStrategy, sub_self, abs_zero]
  rw [if_neg hsmall, if_neg (by linarith), if_neg (by rw [not_or]; constructor <;> linarith)]
  rfl

end

/-! ## The search -/

theorem mem_combinations {α : Type} {k : Nat} {values : List α} {f : Fin k → α}
    (h : (List.ofFn f).Sublist values) : f ∈ combinations k values := by
  induction values generalizing k with
  | nil =>
    cases k with
    | zero => simp [combinations, Subsingleton.elim f Fin.elim0]
    | succ k => simp at h
  | cons value values ih =>
    cases k with
    | zero => simp [combinations, Subsingleton.elim f Fin.elim0]
    | succ k =>
      rw [List.ofFn_succ] at h
      rw [combinations, List.mem_append]
      cases h with
      | cons _ h => exact .inr (ih (by rwa [List.ofFn_succ]))
      | cons_cons _ h =>
        exact .inl (List.mem_map.2 ⟨Fin.tail f, ih h, Fin.cons_self_tail f⟩)

theorem mem_combinations_finRange {n k : Nat} {f : Fin k → Fin n} (h : StrictMono f) :
    f ∈ combinations k (List.finRange n) := by
  refine mem_combinations (List.sublist_of_subperm_of_pairwise (r := (· < ·)) ?_ ?_
    (List.pairwise_lt_finRange n))
  · exact (List.nodup_ofFn.2 h.injective).subperm fun i _ => List.mem_finRange i
  · exact List.pairwise_ofFn.2 fun i j hij => h hij

theorem isSome_findSome {α β : Type} {f : α → Option β} {xs : List α} {x : α} (hx : x ∈ xs)
    (h : (f x).isSome) : (xs.findSome? f).isSome :=
  List.findSome?_isSome_iff.2 ⟨x, hx, h⟩

section

variable {matrix : PayoffMatrix} {callerTolerance tolerance : ℚ} {maxSupportSize fallbackIterations : Int}
variable {k : Nat} {rowSupport : Fin k → Fin matrix.rows} {columnSupport : Fin k → Fin matrix.columns}

/-- A support pair within the limit is tried unless a candidate was found before. -/
theorem exists_enumerated (hk : 1 ≤ k ∧ k ≤ matrix.supportLimit maxSupportSize)
    (hrow : StrictMono rowSupport) (hcolumn : StrictMono columnSupport)
    (h : (supportCandidate matrix.entry rowSupport columnSupport tolerance).isSome) :
    ∃ size candidate, matrix.enumerateSupports tolerance maxSupportSize =
      some (.verified size candidate tolerance (matrix.supportCandidates maxSupportSize)) := by
  have hsize : k ∈ matrix.supportSizes maxSupportSize :=
    List.mem_map.2 ⟨k - 1, List.mem_range.2 (by omega), by omega⟩
  have hfound : (candidateOfSize matrix.entry tolerance k).isSome :=
    isSome_findSome (mem_combinations_finRange hrow)
      (isSome_findSome (mem_combinations_finRange hcolumn) h)
  have henumerated : (matrix.enumerateSupports tolerance maxSupportSize).isSome :=
    isSome_findSome hsize (by rwa [Option.isSome_map])
  obtain ⟨outcome, houtcome⟩ := Option.isSome_iff_exists.1 henumerated
  obtain ⟨size, -, hmap⟩ := List.exists_of_findSome?_eq_some houtcome
  obtain ⟨candidate, -, rfl⟩ := Option.map_eq_some_iff.1 hmap
  exact ⟨size, candidate, houtcome⟩

end

theorem effectiveTolerance_pos (matrix : PayoffMatrix) (callerTolerance : ℚ) :
    0 < matrix.effectiveTolerance callerTolerance :=
  (mul_pos (ulp_pos _) (by norm_num [MATRIX_NORMALIZATION_ULPS])).trans_le (le_max_right _ _)

/-- A candidate of the support enumeration is an equilibrium up to its
tolerance, and the search of few enough supports finds one when the supports
of an equilibrium have one. -/
theorem support_enumeration :
    (∀ {rows columns k : Nat} [NeZero rows] [NeZero columns] (matrix : Fin rows → Fin columns → ℚ)
      (rowSupport : Fin k → Fin rows) (columnSupport : Fin k → Fin columns) (tolerance : ℚ)
      (candidate : Candidate rows columns k), StrictMono rowSupport → StrictMono columnSupport →
      0 < tolerance → supportCandidate matrix rowSupport columnSupport tolerance = some candidate →
        Sound matrix rowSupport columnSupport (20 * tolerance) candidate) ∧
    ∀ (payoffs : List (List ℚ)) (matrix : PayoffMatrix) (callerTolerance : ℚ)
      (maxSupportSize fallbackIterations : Int), validateMatrix payoffs = .ok matrix →
      0 ≤ callerTolerance → matrix.rows ≤ HARD_MAX_DIMENSION → matrix.columns ≤ HARD_MAX_DIMENSION →
      1 ≤ maxSupportSize → maxSupportSize ≤ HARD_MAX_SUPPORT_SIZE →
      1 ≤ fallbackIterations → fallbackIterations ≤ HARD_MAX_FALLBACK_ITERATIONS →
      matrix.supportCandidates maxSupportSize ≤ HARD_MAX_SUPPORT_CANDIDATES →
      ∀ x y, Equilibrium matrix.entry x y →
        ∀ {k : Nat} (rowSupport : Fin k → Fin matrix.rows) (columnSupport : Fin k → Fin matrix.columns),
          Supports x y rowSupport columnSupport → k ≤ matrix.supportLimit maxSupportSize →
          (solveLinear (rowEquations matrix.entry rowSupport columnSupport)
            (matrix.effectiveTolerance callerTolerance)).isSome →
          (solveLinear (columnEquations matrix.entry rowSupport columnSupport)
            (matrix.effectiveTolerance callerTolerance)).isSome →
          (∀ i, matrix.effectiveTolerance callerTolerance < x (rowSupport i)) →
          (∀ i, matrix.effectiveTolerance callerTolerance < y (columnSupport i)) →
            ∃ size candidate, solveZeroSumMatrix payoffs callerTolerance maxSupportSize
              fallbackIterations = .ok ⟨matrix, .verified size candidate
                (matrix.effectiveTolerance callerTolerance)
                (matrix.supportCandidates maxSupportSize)⟩ := by
  refine ⟨fun matrix rowSupport columnSupport tolerance candidate hrow hcolumn htolerance h =>
    sound_of_supportCandidate hrow.injective hcolumn.injective htolerance.le h, ?_⟩
  intro payoffs matrix callerTolerance maxSupportSize fallbackIterations hvalid htolerance hrows
    hcolumns hmin hmax hfirst hlast hfew x y hequilibrium k rowSupport columnSupport hsupports hk
    hrow hcolumn hx hy
  have hcandidate := exists_supportCandidate hequilibrium hsupports
    (effectiveTolerance_pos matrix callerTolerance).le hrow hcolumn hx hy
  have hpos : 1 ≤ k := by
    by_contra hzero
    obtain rfl : k = 0 := by omega
    have hsum := (solves_rowEquations.1
      (solves_rowEquations_of_equilibrium hequilibrium hsupports)).2
    simp at hsum
  obtain ⟨size, candidate, henumerated⟩ := exists_enumerated ⟨hpos, hk⟩ hsupports.row_mono
    hsupports.column_mono hcandidate
  refine ⟨size, candidate, ?_⟩
  have hsolve : matrix.solve callerTolerance maxSupportSize fallbackIterations =
      .ok (.verified size candidate (matrix.effectiveTolerance callerTolerance)
        (matrix.supportCandidates maxSupportSize)) := by
    refine require_bind_eq_ok.2 ⟨⟨hrows, hcolumns⟩, require_bind_eq_ok.2 ⟨⟨hmin, hmax⟩,
      require_bind_eq_ok.2 ⟨⟨hfirst, hlast⟩, ?_⟩⟩⟩
    dsimp only
    rw [if_pos hfew, henumerated]
    rfl
  refine require_bind_eq_ok.2 ⟨htolerance, ?_⟩
  rw [bind_ok_left hvalid, bind_ok_left hsolve]
  rfl

/-! ## Two games -/

def penniesPayoffs : List (List ℚ) := [[1, -1], [-1, 1]]

def pennies : PayoffMatrix :=
  ⟨2, 2, inferInstance, inferInstance, fun row column => (penniesPayoffs.getD row []).getD column 0⟩

theorem support_enumeration_pennies :
    (∃ candidate, supportCandidate pennies.entry id id (1 / 10 ^ 9) = some candidate ∧
      Sound pennies.entry id id (20 * (1 / 10 ^ 9)) candidate) ∧
    ∃ size candidate, solveZeroSumMatrix penniesPayoffs (1 / 10 ^ 9) 8 50000 =
      .ok ⟨pennies, .verified size candidate (pennies.effectiveTolerance (1 / 10 ^ 9))
        (pennies.supportCandidates 8)⟩ := by
  constructor
  · have hsome : (supportCandidate pennies.entry id id (1 / 10 ^ 9)).isSome := by decide +kernel
    obtain ⟨candidate, hcandidate⟩ := Option.isSome_iff_exists.1 hsome
    exact ⟨candidate, hcandidate, support_enumeration.1 pennies.entry id id (1 / 10 ^ 9) candidate
      strictMono_id strictMono_id (by norm_num) hcandidate⟩
  · have hstrategy : IsStrategy fun _ : Fin 2 => (1 / 2 : ℚ) := ⟨by decide +kernel, by decide +kernel⟩
    have hequilibrium : Equilibrium pennies.entry (fun _ => 1 / 2) (fun _ => 1 / 2) :=
      ⟨hstrategy, hstrategy, by decide +kernel, by decide +kernel⟩
    have hsupport : ∀ r : Fin 2, 0 < (1 / 2 : ℚ) ↔ r ∈ Set.range (id : Fin 2 → Fin 2) := by simp
    exact support_enumeration.2 penniesPayoffs pennies (1 / 10 ^ 9) 8 50000 rfl (by norm_num)
      (by decide) (by decide) (by decide) (by decide) (by decide) (by decide) (by decide) _ _
      hequilibrium id id ⟨strictMono_id, strictMono_id, hsupport, hsupport⟩ (by decide)
      (by decide +kernel) (by decide +kernel) (by decide +kernel) (by decide +kernel)

def zeroPayoffs : List (List ℚ) := List.replicate 11 (List.replicate 11 0)

def zeroMatrix : PayoffMatrix :=
  ⟨11, 11, inferInstance, inferInstance, fun row column => (zeroPayoffs.getD row []).getD column 0⟩

/-- Eleven rows and columns have too many supports, so the equilibrium in pure
strategies is not found. -/
theorem support_enumeration_too_many : ∃ (x : Fin 11 → ℚ) (y : Fin 11 → ℚ)
    (rowSupport columnSupport : Fin 1 → Fin 11), Equilibrium zeroMatrix.entry x y ∧
      Supports x y rowSupport columnSupport ∧ 1 ≤ zeroMatrix.supportLimit 8 ∧
      (solveLinear (rowEquations zeroMatrix.entry rowSupport columnSupport)
        (zeroMatrix.effectiveTolerance (1 / 10 ^ 9))).isSome ∧
      (solveLinear (columnEquations zeroMatrix.entry rowSupport columnSupport)
        (zeroMatrix.effectiveTolerance (1 / 10 ^ 9))).isSome ∧
      (∀ i, zeroMatrix.effectiveTolerance (1 / 10 ^ 9) < x (rowSupport i)) ∧
      (∀ i, zeroMatrix.effectiveTolerance (1 / 10 ^ 9) < y (columnSupport i)) ∧
      ∃ approximation candidates work, solveZeroSumMatrix zeroPayoffs (1 / 10 ^ 9) 8 1 =
        .ok ⟨zeroMatrix, .approximate approximation candidates work⟩ := by
  have hzero : ∀ r c, zeroMatrix.entry r c = 0 := by decide +kernel
  have hstrategy : IsStrategy fun r : Fin 11 => if r = 0 then (1 : ℚ) else 0 :=
    ⟨by decide +kernel, by decide +kernel⟩
  have hequilibrium : Equilibrium zeroMatrix.entry (fun r => if r = 0 then (1 : ℚ) else 0)
      (fun c => if c = 0 then (1 : ℚ) else 0) :=
    ⟨hstrategy, hstrategy, by simp [earned, payoff, hzero], by simp [against, payoff, hzero]⟩
  have hsupport : ∀ r : Fin 11, 0 < (if r = 0 then (1 : ℚ) else 0) ↔
      r ∈ Set.range fun _ : Fin 1 => (0 : Fin 11) := by
    intro r
    by_cases hr : r = 0
    · simp [hr]
    · simp [hr]
  have hmono : StrictMono fun _ : Fin 1 => (0 : Fin 11) := Subsingleton.strictMono _
  have hmany : ¬ zeroMatrix.supportCandidates 8 ≤ HARD_MAX_SUPPORT_CANDIDATES := by decide +kernel
  have hsolve : solveZeroSumMatrix zeroPayoffs (1 / 10 ^ 9) 8 1 =
      .ok ⟨zeroMatrix, .approximate (fictitiousPlay zeroMatrix.entry 1)
        (zeroMatrix.supportCandidates 8) (1 * 11 * 11)⟩ := by
    have hsolve : zeroMatrix.solve (1 / 10 ^ 9) 8 1 = .ok (.approximate
        (fictitiousPlay zeroMatrix.entry 1) (zeroMatrix.supportCandidates 8) (1 * 11 * 11)) := by
      refine require_bind_eq_ok.2 ⟨by decide, require_bind_eq_ok.2 ⟨by decide,
        require_bind_eq_ok.2 ⟨by decide, ?_⟩⟩⟩
      dsimp only
      rw [if_neg hmany]
      exact require_bind_eq_ok.2 ⟨by decide, rfl⟩
    refine require_bind_eq_ok.2 ⟨by norm_num, ?_⟩
    rw [bind_ok_left (show validateMatrix zeroPayoffs = .ok zeroMatrix from rfl), bind_ok_left hsolve]
    rfl
  exact ⟨_, _, fun _ => 0, fun _ => 0, hequilibrium, ⟨hmono, hmono, hsupport, hsupport⟩, by decide,
    by decide +kernel, by decide +kernel, by decide +kernel, by decide +kernel, _, _, _, hsolve⟩

end MatrixGame

end PokerDeliberation.Games
