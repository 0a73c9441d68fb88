import Mathlib.Algebra.BigOperators.Group.List.Basic
import Mathlib.Algebra.BigOperators.Group.Finset.Piecewise
import Mathlib.Tactic.Abel
import Mathlib.Algebra.Order.Ring.Defs
import Mathlib.Data.List.Dedup
import Mathlib.Data.List.Sort
import Mathlib.Tactic.Linarith
import Mathlib.Tactic.Ring

/-!
# Amounts of several parties

`highest` is the highest of some amounts. `layersTotal` cuts the amounts at
increasing levels and adds up the layers: the slice between two levels counts
once for every amount that reaches it. When the levels include every amount
above the first level, the layers add up to what lies above it.
-/

namespace PokerDeliberation.Lib

section Highest

variable {R : Type} [LinearOrder R] {a m : R} {values : List R}

theorem foldl_max_le_iff : values.foldl max a ≤ m ↔ a ≤ m ∧ ∀ v ∈ values, v ≤ m := by
  induction values generalizing a with
  | nil => simp
  | cons v values ih => simp [ih, and_assoc]

theorem foldl_max_mem : values.foldl max a = a ∨ values.foldl max a ∈ values := by
  induction values generalizing a with
  | nil => simp
  | cons v values ih =>
    rw [List.foldl_cons, List.mem_cons]
    obtain heq | hmem := ih (a := max a v)
    · rcases max_choice a v with hmax | hmax
      · exact .inl (heq.trans hmax)
      · exact .inr (.inl (heq.trans hmax))
    · exact .inr (.inr hmem)

theorem le_foldl_max {v : R} (hv : v ∈ values) : v ≤ values.foldl max a :=
  (foldl_max_le_iff.1 le_rfl).2 v hv

theorem init_le_foldl_max : a ≤ values.foldl max a :=
  (foldl_max_le_iff.1 le_rfl).1

/-- The maximum is what bounds the values and is reached. -/
theorem foldl_max_eq (ha : a ≤ m) (hle : ∀ v ∈ values, v ≤ m) (hreached : m = a ∨ m ∈ values) :
    values.foldl max a = m := by
  refine le_antisymm (foldl_max_le_iff.2 ⟨ha, hle⟩) ?_
  obtain rfl | hmem := hreached
  · exact init_le_foldl_max
  · exact le_foldl_max hmem

/-- The distinct values in order are strictly increasing. -/
theorem pairwise_sort_dedup (values : List R) :
    (values.dedup.insertionSort (· ≤ ·)).Pairwise (· < ·) := by
  have hnodup : (values.dedup.insertionSort (· ≤ ·)).Nodup :=
    (List.perm_insertionSort _ _).nodup_iff.2 (List.nodup_dedup values)
  exact ((List.pairwise_insertionSort (· ≤ ·) _).and hnodup).imp fun h => lt_of_le_of_ne h.1 h.2

end Highest

section Layers

variable {R : Type} [CommRing R] [LinearOrder R] [IsStrictOrderedRing R]
variable {values levels : List R} {lower upper : R}

def layersTotal (values : List R) : R → List R → R
  | _, [] => 0
  | lower, upper :: levels =>
    (upper - lower) * values.countP (upper ≤ ·) + layersTotal values upper levels

/-- Cutting off the slice between two levels that no amount lies strictly between. -/
theorem slice_add_above (hlt : lower ≤ upper) (hvalues : ∀ v ∈ values, v ≤ lower ∨ upper ≤ v) :
    (upper - lower) * values.countP (upper ≤ ·) + (values.map fun v => max (v - upper) 0).sum =
      (values.map fun v => max (v - lower) 0).sum := by
  induction values with
  | nil => simp
  | cons v values ih =>
    obtain ⟨hv, hvalues⟩ := List.forall_mem_cons.1 hvalues
    have ih := ih hvalues
    simp only [List.countP_cons, List.map_cons, List.sum_cons, decide_eq_true_eq]
    by_cases hreach : upper ≤ v
    · rw [if_pos hreach, max_eq_left (by linarith), max_eq_left (by linarith), ← ih]
      push_cast
      ring
    · have hbelow := hv.resolve_right hreach
      rw [if_neg hreach, max_eq_right (by linarith), max_eq_right (by linarith), ← ih]
      simp

theorem layersTotal_eq (hlevels : (lower :: levels).Pairwise (· < ·))
    (hvalues : ∀ v ∈ values, v ≤ lower ∨ v ∈ levels) :
    layersTotal values lower levels = (values.map fun v => max (v - lower) 0).sum := by
  induction levels generalizing lower with
  | nil =>
    have hzero : ∀ v ∈ values, max (v - lower) 0 = 0 := fun v hv =>
      max_eq_right (sub_nonpos.2 ((hvalues v hv).resolve_right (by simp)))
    rw [layersTotal, List.map_congr_left hzero]
    simp
  | cons upper levels ih =>
    obtain ⟨hlower, hrest⟩ := List.pairwise_cons.1 hlevels
    have hle : lower ≤ upper := (hlower upper (by simp)).le
    have hsplit : ∀ v ∈ values, v ≤ upper ∨ v ∈ levels := by
      intro v hv
      obtain hbelow | hmem := hvalues v hv
      · exact .inl (hbelow.trans hle)
      · exact (List.mem_cons.1 hmem).imp le_of_eq id
    have hgap : ∀ v ∈ values, v ≤ lower ∨ upper ≤ v := by
      intro v hv
      refine (hvalues v hv).imp_right fun hmem => ?_
      obtain rfl | hmem := List.mem_cons.1 hmem
      · exact le_rfl
      · exact ((List.pairwise_cons.1 hrest).1 v hmem).le
    rw [layersTotal, ih hrest hsplit, slice_add_above hle hgap]

/-- With every positive amount among the levels, the layers above 0 are everything. -/
theorem layersTotal_zero_eq_sum (hlevels : (0 :: levels).Pairwise (· < ·))
    (hvalues : ∀ v ∈ values, 0 < v → v ∈ levels) (hnonneg : ∀ v ∈ values, 0 ≤ v) :
    layersTotal values 0 levels = values.sum := by
  rw [layersTotal_eq hlevels fun v hv => (le_or_gt v 0).imp_right (hvalues v hv)]
  have hsame : ∀ v ∈ values, max (v - 0) 0 = v := fun v hv => by
    rw [sub_zero, max_eq_left (hnonneg v hv)]
  rw [List.map_congr_left hsame, List.map_id']

end Layers

/-! ## Sums over listed parties -/

section Sums

variable {ι M : Type} [DecidableEq ι] [AddCommGroup M] {ids : List ι} {f : ι → M} {i : ι} {v : M}

theorem sum_map_update (hnodup : ids.Nodup) (hmem : i ∈ ids) :
    (ids.map (Function.update f i v)).sum = (ids.map f).sum + (v - f i) := by
  have hin : i ∈ ids.toFinset := List.mem_toFinset.2 hmem
  rw [← List.sum_toFinset _ hnodup, ← List.sum_toFinset _ hnodup, Finset.sum_update_of_mem hin,
    Finset.sdiff_singleton_eq_erase, ← Finset.add_sum_erase _ f hin]
  abel

end Sums

end PokerDeliberation.Lib
