import Mathlib.Algebra.BigOperators.Ring.Finset
import Mathlib.Algebra.Order.BigOperators.Group.Finset
import Mathlib.Algebra.Order.Ring.Defs
import Mathlib.Data.Fintype.BigOperators
import Mathlib.Tactic.Ring

/-!
# Zero-sum games

Mixed strategies of a matrix game, what they earn, and equilibria. At an
equilibrium what is played with positive probability earns the value.
-/

namespace PokerDeliberation.Lib.ZeroSum

section

variable {ι κ K : Type} [Fintype ι] [Fintype κ] [CommRing K] [LinearOrder K] [IsStrictOrderedRing K]

/-- Probabilities that add up to one. -/
structure IsStrategy (x : ι → K) : Prop where
  nonneg : ∀ i, 0 ≤ x i
  sum_eq : ∑ i, x i = 1

/-- What the row strategy earns against a column. -/
def against (A : ι → κ → K) (x : ι → K) (j : κ) : K := ∑ i, x i * A i j

/-- What a row earns against the column strategy. -/
def earned (A : ι → κ → K) (y : κ → K) (i : ι) : K := ∑ j, A i j * y j

def payoff (A : ι → κ → K) (x : ι → K) (y : κ → K) : K := ∑ i, ∑ j, x i * A i j * y j

/-- No row and no column does better alone. -/
structure Equilibrium (A : ι → κ → K) (x : ι → K) (y : κ → K) : Prop where
  row : IsStrategy x
  column : IsStrategy y
  no_row : ∀ i, earned A y i ≤ payoff A x y
  no_column : ∀ j, payoff A x y ≤ against A x j

variable {A : ι → κ → K} {x : ι → K} {y : κ → K}

omit [LinearOrder K] [IsStrictOrderedRing K] in
theorem payoff_eq_rows : payoff A x y = ∑ i, x i * earned A y i := by
  simp only [payoff, earned, Finset.mul_sum, mul_assoc]

omit [LinearOrder K] [IsStrictOrderedRing K] in
theorem payoff_eq_columns : payoff A x y = ∑ j, against A x j * y j := by
  simp only [payoff, against, Finset.sum_mul]
  exact Finset.sum_comm

/-- Weights on terms that are at most their mean are on terms equal to it. -/
theorem eq_mean_of_le {ι : Type} [Fintype ι] {p e : ι → K} {v : K} (hp : IsStrategy p)
    (hle : ∀ i, e i ≤ v) (hmean : ∑ i, p i * e i = v) {i : ι} (hi : 0 < p i) : e i = v := by
  have hzero : ∑ i, p i * (v - e i) = 0 := by
    simp only [mul_sub, Finset.sum_sub_distrib, ← Finset.sum_mul, hp.sum_eq, hmean, one_mul, sub_self]
  have hterm : ∀ j ∈ Finset.univ, 0 ≤ p j * (v - e j) := fun j _ =>
    mul_nonneg (hp.nonneg j) (sub_nonneg.2 (hle j))
  have heach := (Finset.sum_eq_zero_iff_of_nonneg hterm).1 hzero i (Finset.mem_univ i)
  exact (sub_eq_zero.1 ((mul_eq_zero.1 heach).resolve_left hi.ne')).symm

/-- A row that is played earns the value. -/
theorem Equilibrium.earned_eq (h : Equilibrium A x y) {i : ι} (hi : 0 < x i) :
    earned A y i = payoff A x y :=
  eq_mean_of_le h.row h.no_row payoff_eq_rows.symm hi

/-- Against a column that is played the value is earned. -/
theorem Equilibrium.against_eq (h : Equilibrium A x y) {j : κ} (hj : 0 < y j) :
    against A x j = payoff A x y := by
  have hneg := eq_mean_of_le (e := fun j => -against A x j) (v := -payoff A x y) h.column
    (fun j => neg_le_neg (h.no_column j)) ?_ hj
  · exact neg_inj.1 hneg
  · rw [payoff_eq_columns, ← Finset.sum_neg_distrib]
    exact Finset.sum_congr rfl fun j _ => by ring

end

end PokerDeliberation.Lib.ZeroSum
