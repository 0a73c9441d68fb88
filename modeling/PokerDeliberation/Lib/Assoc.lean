import Mathlib.Data.List.Nodup

/-!
# Association lists

Lists of pairs read by `List.lookup`: what is found is there, and while no key
occurs twice what is there is found.
-/

namespace PokerDeliberation.Lib

variable {κ α : Type} [BEq κ] [LawfulBEq κ] {xs : List (κ × α)} {k k' : κ} {a : α}

theorem lookup_cons_self : ((k, a) :: xs).lookup k = some a := by
  rw [List.lookup_cons, beq_self_eq_true]

theorem lookup_cons_ne (h : k ≠ k') : ((k', a) :: xs).lookup k = xs.lookup k := by
  rw [List.lookup_cons, beq_eq_false_iff_ne.2 h]

theorem lookup_filter_ne [DecidableEq κ] (h : k ≠ k') :
    (xs.filter fun x => x.1 ≠ k').lookup k = xs.lookup k := by
  induction xs with
  | nil => rfl
  | cons x rest ih =>
    obtain ⟨k'', b⟩ := x
    by_cases hdrop : k'' = k'
    · subst hdrop
      rw [List.filter_cons_of_neg (by simp), lookup_cons_ne h, ih]
    · rw [List.filter_cons_of_pos (by simpa using hdrop), List.lookup_cons, List.lookup_cons, ih]

theorem mem_of_lookup (h : xs.lookup k = some a) : (k, a) ∈ xs := by
  induction xs with
  | nil => simp at h
  | cons x rest ih =>
    obtain ⟨k', b⟩ := x
    by_cases hk : k = k'
    · subst hk
      rw [lookup_cons_self, Option.some.injEq] at h
      exact h ▸ List.mem_cons_self
    · rw [lookup_cons_ne hk] at h
      exact List.mem_cons_of_mem _ (ih h)

theorem lookup_isSome : (xs.lookup k).isSome ↔ k ∈ xs.map Prod.fst := by
  induction xs with
  | nil => simp
  | cons x rest ih =>
    obtain ⟨k', b⟩ := x
    by_cases hk : k = k'
    · simp [hk]
    · rw [lookup_cons_ne hk]
      simp [hk, ih]

theorem lookup_of_mem (hnodup : (xs.map Prod.fst).Nodup) (h : (k, a) ∈ xs) :
    xs.lookup k = some a := by
  induction xs with
  | nil => simp at h
  | cons x rest ih =>
    obtain ⟨k', b⟩ := x
    rw [List.map_cons, List.nodup_cons] at hnodup
    rcases List.mem_cons.1 h with heq | hrest
    · cases heq
      exact lookup_cons_self
    · have hne : k ≠ k' := by
        rintro rfl
        exact hnodup.1 (List.mem_map.2 ⟨_, hrest, rfl⟩)
      rw [lookup_cons_ne hne]
      exact ih hnodup.2 hrest

end PokerDeliberation.Lib
