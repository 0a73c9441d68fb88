import Mathlib.Algebra.Order.Floor.Ring
import Mathlib.Data.Int.Log
import Mathlib.Data.Rat.Floor

/-!
# Shared comparisons

The comparison primitives of the calculators, in exact rational arithmetic.
-/

namespace PokerDeliberation.Games

def EV_TREE_VERIFICATION_ULPS : ℚ := 64

def BEST_RESPONSE_VERIFICATION_ULPS : ℚ := 64

def MATRIX_NORMALIZATION_ULPS : ℚ := 64

/-- `math.ulp` of a normal number. -/
def ulp (scale : ℚ) : ℚ := 2 ^ (Int.log 2 |scale| - 52)

theorem ulp_pos (scale : ℚ) : 0 < ulp scale := zpow_pos (by norm_num) _

def ulpBound (actual expected ulps : ℚ) : ℚ := ulp (max (max |actual| |expected|) 1) * ulps

def closeUlps (actual expected ulps : ℚ) : Prop := |actual - expected| ≤ ulpBound actual expected ulps

instance (actual expected ulps : ℚ) : Decidable (closeUlps actual expected ulps) :=
  inferInstanceAs (Decidable (_ ≤ _))

def normalizedProbabilitySum (probabilities : List ℚ) (ulps : ℚ) : Prop :=
  probabilities ≠ [] ∧ (∀ value ∈ probabilities, 0 ≤ value) ∧ closeUlps probabilities.sum 1 ulps

instance (probabilities : List ℚ) (ulps : ℚ) :
    Decidable (normalizedProbabilitySum probabilities ulps) :=
  inferInstanceAs (Decidable (_ ∧ _ ∧ _))

theorem normalizedProbabilitySum_perm {probabilities probabilities' : List ℚ} {ulps : ℚ}
    (h : probabilities.Perm probabilities') : normalizedProbabilitySum probabilities ulps ↔
      normalizedProbabilitySum probabilities' ulps := by
  unfold normalizedProbabilitySum
  rw [h.sum_eq, ne_eq, ← List.length_eq_zero_iff, h.length_eq, List.length_eq_zero_iff]
  simp only [h.mem_iff]

end PokerDeliberation.Games
