import Mathlib.Algebra.BigOperators.Pi
import Mathlib.Algebra.BigOperators.Ring.Finset
import Mathlib.Algebra.Module.LinearMap.Defs
import Mathlib.Algebra.Module.Pi
import Mathlib.Algebra.Module.Prod
import Mathlib.Data.Fintype.BigOperators
import Mathlib.Logic.Equiv.Basic
import Mathlib.Tactic.Ring

/-!
# Gauss–Jordan elimination

`pivoted` is one step: a row with a coordinate other than zero comes to its
place, scaled, and its multiples clear the coordinate in the other rows. The
step keeps what every linear map makes zero (`pivoted_zero_iff`), so a run that
clears every column leaves the one solution of the system on the right
(`eliminated_solves_iff`).
-/

namespace PokerDeliberation.Lib

/-! ## One step -/

section

variable {ι K V : Type} [DecidableEq ι] [Field K] [AddCommGroup V] [Module K V]

/-- The row at `pivot` is exchanged with the one at `column` and divided by its
coordinate; its multiples are taken from the other rows. -/
def pivoted (coord : V → K) (column pivot : ι) (rows : ι → V) : ι → V :=
  let swapped := fun row => rows (Equiv.swap column pivot row)
  let pivotRow := (coord (swapped column))⁻¹ • swapped column
  fun row => if row = column then pivotRow else swapped row - coord (swapped row) • pivotRow

variable {coord : V → K} {column pivot : ι} {rows : ι → V}

theorem pivoted_self :
    pivoted coord column pivot rows column = (coord (rows pivot))⁻¹ • rows pivot := by
  simp [pivoted]

theorem pivoted_of_ne {row : ι} (h : row ≠ column) : pivoted coord column pivot rows row =
    rows (Equiv.swap column pivot row) -
      coord (rows (Equiv.swap column pivot row)) • pivoted coord column pivot rows column := by
  simp [pivoted, h]

/-- The coordinate is left in its own row alone. -/
theorem coord_pivoted (hcoord : IsLinearMap K coord) (hpivot : coord (rows pivot) ≠ 0) (row : ι) :
    coord (pivoted coord column pivot rows row) = if row = column then 1 else 0 := by
  have hself : coord (pivoted coord column pivot rows column) = 1 := by
    rw [pivoted_self, hcoord.map_smul, smul_eq_mul, inv_mul_cancel₀ hpivot]
  split
  · next heq => rw [heq, hself]
  · next hne =>
    rw [pivoted_of_ne hne, hcoord.map_sub, hcoord.map_smul, hself, smul_eq_mul, mul_one, sub_self]

/-- A coordinate that both rows lack stays as it is. -/
theorem other_pivoted {other : V → K} (hother : IsLinearMap K other)
    (hcolumn : other (rows column) = 0) (hpivot : other (rows pivot) = 0) (row : ι) :
    other (pivoted coord column pivot rows row) = other (rows row) := by
  have hself : other (pivoted coord column pivot rows column) = 0 := by
    rw [pivoted_self, hother.map_smul, hpivot, smul_zero]
  by_cases hrow : row = column
  · rw [hrow, hself, hcolumn]
  · rw [pivoted_of_ne hrow, hother.map_sub, hother.map_smul, hself, smul_zero, sub_zero]
    by_cases hswap : row = pivot
    · rw [hswap, Equiv.swap_apply_right, hcolumn, hpivot]
    · rw [Equiv.swap_apply_of_ne_of_ne hrow hswap]

/-- What a linear map makes of all rows is zero before the step just when it is after. -/
theorem pivoted_zero_iff {f : V → K} (hf : IsLinearMap K f) (hpivot : coord (rows pivot) ≠ 0) :
    (∀ row, f (pivoted coord column pivot rows row) = 0) ↔ ∀ row, f (rows row) = 0 := by
  constructor
  · intro h
    have hpivotRow : f (rows pivot) = 0 := by
      have hself := h column
      rw [pivoted_self, hf.map_smul, smul_eq_mul] at hself
      exact (mul_eq_zero.1 hself).resolve_left (inv_ne_zero hpivot)
    have hswapped : ∀ row, f (rows (Equiv.swap column pivot row)) = 0 := by
      intro row
      by_cases hrow : row = column
      · rw [hrow, Equiv.swap_apply_left, hpivotRow]
      · have hclear := h row
        rwa [pivoted_of_ne hrow, hf.map_sub, hf.map_smul, h column, smul_zero, sub_zero] at hclear
    intro row
    have := hswapped (Equiv.swap column pivot row)
    rwa [Equiv.swap_apply_self] at this
  · intro h row
    have hself : f (pivoted coord column pivot rows column) = 0 := by
      rw [pivoted_self, hf.map_smul, h pivot, smul_zero]
    by_cases hrow : row = column
    · rw [hrow, hself]
    · rw [pivoted_of_ne hrow, hf.map_sub, hf.map_smul, hself, h, smul_zero, sub_zero]

/-! ## All columns -/

/-- Column after column, as long as a pivot is chosen. -/
def eliminated (coord : ι → V → K) (choose : ι → (ι → V) → Option ι) :
    List ι → (ι → V) → Option (ι → V)
  | [], rows => some rows
  | column :: columns, rows =>
    match choose column rows with
    | none => none
    | some pivot =>
      eliminated coord choose columns (pivoted (coord column) column pivot rows)

/-- The columns are cleared: each coordinate is left in its own row alone. -/
def Cleared (coord : ι → V → K) (done : List ι) (rows : ι → V) : Prop :=
  ∀ column ∈ done, ∀ row, coord column (rows row) = if row = column then 1 else 0

/-- What is chosen has the coordinate and does not belong to a cleared column. -/
def Chooses (coord : ι → V → K) (choose : ι → (ι → V) → Option ι) (columns : List ι) : Prop :=
  ∀ done column rest, columns = done ++ column :: rest → ∀ rows pivot,
    choose column rows = some pivot → pivot ∉ done ∧ coord column (rows pivot) ≠ 0

variable {coord : ι → V → K} {choose : ι → (ι → V) → Option ι}

theorem Cleared.step {done : List ι} (h : Cleared coord done rows)
    (hcoord : ∀ column, IsLinearMap K (coord column)) (hcolumn : column ∉ done)
    (hdone : pivot ∉ done) (hpivot : coord column (rows pivot) ≠ 0) :
    Cleared coord (done ++ [column]) (pivoted (coord column) column pivot rows) := by
  intro other hother row
  rcases List.mem_append.1 hother with hother | hother
  · have hcolumn' : other ≠ column := fun heq => hcolumn (heq ▸ hother)
    have hpivot' : other ≠ pivot := fun heq => hdone (heq ▸ hother)
    rw [other_pivoted (hcoord other), h other hother row]
    · rw [h other hother, if_neg hcolumn'.symm]
    · rw [h other hother, if_neg hpivot'.symm]
  · rw [List.mem_singleton.1 hother]
    exact coord_pivoted (hcoord column) hpivot row

theorem eliminated_spec (hcoord : ∀ column, IsLinearMap K (coord column)) :
    ∀ (columns done : List ι) {rows rows' : ι → V}, (done ++ columns).Nodup →
      Chooses coord choose (done ++ columns) → Cleared coord done rows →
      eliminated coord choose columns rows = some rows' →
        Cleared coord (done ++ columns) rows' ∧
          ∀ f : V → K, IsLinearMap K f → ((∀ row, f (rows' row) = 0) ↔ ∀ row, f (rows row) = 0)
  | [], done, rows, rows', _, _, hcleared, h => by
    obtain rfl := Option.some.inj h
    rw [List.append_nil]
    exact ⟨hcleared, fun f _ => Iff.rfl⟩
  | column :: columns, done, rows, rows', hnodup, hchooses, hcleared, h => by
    rw [eliminated] at h
    cases hpivot : choose column rows with
    | none =>
      rw [hpivot] at h
      cases h
    | some pivot =>
      rw [hpivot] at h
      obtain ⟨hdone, hne⟩ := hchooses done column columns rfl rows pivot hpivot
      have hcolumn : column ∉ done := fun hmem =>
        (List.nodup_append'.1 hnodup).2.2 hmem List.mem_cons_self
      have hstep := hcleared.step hcoord hcolumn hdone hne
      rw [List.append_cons] at hnodup hchooses ⊢
      obtain ⟨hcleared', hzero⟩ := eliminated_spec hcoord _ _ hnodup hchooses hstep h
      exact ⟨hcleared', fun f hf => (hzero f hf).trans (pivoted_zero_iff hf hne)⟩

end

/-! ## Systems of equations -/

section

variable {ι K : Type} [DecidableEq ι] [Fintype ι] [Field K]

/-- `x` solves the equations, each its coefficients and its value. -/
def Solves (rows : ι → (ι → K) × K) (x : ι → K) : Prop :=
  ∀ row, ∑ j, (rows row).1 j * x j = (rows row).2

omit [DecidableEq ι] [Fintype ι] in
theorem isLinearMap_coefficient (column : ι) :
    IsLinearMap K fun row : (ι → K) × K => row.1 column :=
  ⟨fun _ _ => rfl, fun _ _ => rfl⟩

omit [DecidableEq ι] in
theorem isLinearMap_residue (x : ι → K) :
    IsLinearMap K fun row : (ι → K) × K => (∑ j, row.1 j * x j) - row.2 where
  map_add row row' := by
    simp only [Prod.fst_add, Prod.snd_add, Pi.add_apply, add_mul, Finset.sum_add_distrib]
    ring
  map_smul c row := by
    simp only [Prod.smul_fst, Prod.smul_snd, Pi.smul_apply, smul_eq_mul, mul_assoc,
      ← Finset.mul_sum, mul_sub]

/-- Where every column is cleared, the values are the one solution. -/
theorem eliminated_solves_iff {choose : ι → (ι → (ι → K) × K) → Option ι} {columns : List ι}
    {rows rows' : ι → (ι → K) × K} (hnodup : columns.Nodup) (hall : ∀ column, column ∈ columns)
    (hchooses : Chooses (fun column row => row.1 column) choose columns)
    (h : eliminated (fun column row => row.1 column) choose columns rows = some rows')
    (x : ι → K) : Solves rows x ↔ x = fun i => (rows' i).2 := by
  obtain ⟨hcleared, hzero⟩ := eliminated_spec isLinearMap_coefficient columns [] hnodup hchooses
    (fun _ hmem => by cases hmem) h
  have hresidue := hzero _ (isLinearMap_residue x)
  have hentry : ∀ row j, (rows' row).1 j = if row = j then 1 else 0 := fun row j =>
    hcleared j (hall j) row
  have hunit : ∀ row, ∑ j, (rows' row).1 j * x j = x row := by
    intro row
    simp only [hentry, ite_mul, one_mul, zero_mul, Finset.sum_ite_eq, Finset.mem_univ, if_true]
  simp only [hunit, sub_eq_zero] at hresidue
  exact hresidue.symm.trans funext_iff.symm

end

/-! ## The largest pivot -/

section

variable {α K : Type} [LinearOrder K] {key : α → K}

/-- The first of the greatest. -/
def firstMax (key : α → K) (first : α) (rest : List α) : α :=
  rest.foldl (fun best x => if key best < key x then x else best) first

theorem firstMax_mem (first : α) (rest : List α) : firstMax key first rest ∈ first :: rest := by
  induction rest generalizing first with
  | nil => exact List.mem_singleton_self first
  | cons x rest ih =>
    have hmem := ih (if key first < key x then x else first)
    rcases List.mem_cons.1 hmem with heq | hrest
    · rw [firstMax, List.foldl_cons, ← firstMax, heq]
      split
      · exact List.mem_cons_of_mem _ List.mem_cons_self
      · exact List.mem_cons_self
    · exact List.mem_cons_of_mem _ (List.mem_cons_of_mem _ hrest)

end

end PokerDeliberation.Lib
