import Mathlib.Data.List.Lex
import Mathlib.Data.List.NodupEquivFin
import Mathlib.Order.WellFounded
import Mathlib.Data.List.Sort

/-!
# The head of a descending list

Among the parts of a list that have a given length, the first elements of the
list in descending order are the greatest lexicographically.
-/

namespace PokerDeliberation.Lib

section

variable {α : Type} [LinearOrder α] {xs ys : List α}

theorem cons_le_of_lt {a b : α} (h : a < b) : a :: xs ≤ b :: ys :=
  (show a :: xs < b :: ys from List.Lex.rel h).le

theorem le_of_forall₂ (h : List.Forall₂ (· ≤ ·) xs ys) : xs ≤ ys := by
  induction h with
  | nil => exact le_rfl
  | cons hle _ ih =>
    rcases hle.lt_or_eq with hlt | rfl
    · exact cons_le_of_lt hlt
    · exact List.cons_le_cons _ ih

/-- A part of a descending list is below its head, element by element. -/
theorem forall₂_take_of_sublist (hsorted : ys.Pairwise (· ≥ ·)) (h : xs.Sublist ys) :
    List.Forall₂ (· ≤ ·) xs (ys.take xs.length) := by
  rw [List.forall₂_iff_get]
  have hlength := h.length_le
  refine ⟨by simp [hlength], fun i hi _ => ?_⟩
  obtain ⟨f, hf⟩ := List.sublist_iff_exists_orderEmbedding_getElem?_eq.1 h
  have hget := hf i
  rw [List.getElem?_eq_getElem hi, eq_comm, List.getElem?_eq_some_iff] at hget
  obtain ⟨hlt, hget⟩ := hget
  simp only [List.get_eq_getElem, List.getElem_take]
  rw [← hget]
  rcases (StrictMono.le_apply f.strictMono : i ≤ f i).eq_or_lt with heq | hless
  · simp only [← heq, le_refl]
  · exact List.pairwise_iff_getElem.1 hsorted i (f i) (by omega) hlt hless

theorem le_take_of_sublist (hsorted : ys.Pairwise (· ≥ ·)) (h : xs.Sublist ys) :
    xs ≤ ys.take xs.length :=
  le_of_forall₂ (forall₂_take_of_sublist hsorted h)

/-- A part in descending order is below the head of the whole in descending order. -/
theorem insertionSort_le_take (h : xs.Subperm ys) : xs.insertionSort (· ≥ ·) ≤
    (ys.insertionSort (· ≥ ·)).take xs.length := by
  have hsub : (xs.insertionSort (· ≥ ·)).Sublist (ys.insertionSort (· ≥ ·)) :=
    List.sublist_of_subperm_of_pairwise
      ((List.perm_insertionSort _ xs).subperm.trans
        (h.trans (List.perm_insertionSort _ ys).symm.subperm))
      (List.pairwise_insertionSort _ xs) (List.pairwise_insertionSort _ ys)
  have hle := le_take_of_sublist (List.pairwise_insertionSort (· ≥ ·) ys) hsub
  rwa [List.length_insertionSort] at hle

end

end PokerDeliberation.Lib
