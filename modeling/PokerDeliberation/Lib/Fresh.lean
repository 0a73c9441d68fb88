import Mathlib.Data.List.Nodup
import Mathlib.Data.List.Perm.Subperm

/-!
# Fresh names

The first of a numbered family of names that is not occupied. When the family
repeats no name, one of the first `occupied.length + 1` is free, so a loop that
tries them in turn ends there.
-/

namespace PokerDeliberation.Lib

variable {ν : Type} [DecidableEq ν]

/-- The first free name from `n` on, among the next `fuel`. -/
def firstFree (label : Nat → ν) (occupied : List ν) : Nat → Nat → ν
  | 0, n => label n
  | fuel + 1, n => if label n ∈ occupied then firstFree label occupied fuel (n + 1) else label n

variable {label : Nat → ν} {occupied : List ν} {fuel n : Nat}

/-- The name is one of the family, and every name before it is occupied. -/
theorem firstFree_eq : ∃ m, n ≤ m ∧ m ≤ n + fuel ∧ firstFree label occupied fuel n = label m ∧
    (∀ k, n ≤ k → k < m → label k ∈ occupied) ∧ (m < n + fuel → label m ∉ occupied) := by
  induction fuel generalizing n with
  | zero => exact ⟨n, Nat.le_refl n, Nat.le_refl n, rfl, fun k hle hlt => by omega, fun hlt => by omega⟩
  | succ fuel ih =>
    unfold firstFree
    by_cases hmem : label n ∈ occupied
    · rw [if_pos hmem]
      obtain ⟨m, hle, hbound, heq, hbefore, hfree⟩ := @ih (n + 1)
      refine ⟨m, by omega, by omega, heq, fun k hk hlt => ?_, fun hlt => hfree (by omega)⟩
      rcases Nat.eq_or_lt_of_le hk with rfl | hk
      · exact hmem
      · exact hbefore k hk hlt
    · rw [if_neg hmem]
      exact ⟨n, Nat.le_refl n, by omega, rfl, fun k hk hlt => by omega, fun _ => hmem⟩

/-- With one more try than names are occupied the name is free. -/
theorem firstFree_not_mem (hlabel : Function.Injective label) (hfuel : occupied.length < fuel) :
    firstFree label occupied fuel n ∉ occupied := by
  obtain ⟨m, hle, hbound, heq, hbefore, hfree⟩ :=
    @firstFree_eq ν _ label occupied fuel n
  rw [heq]
  rcases Nat.lt_or_ge m (n + fuel) with hlt | hge
  · exact hfree hlt
  · -- otherwise more names than there are occupied ones are all occupied
    have hnodup : ((List.range fuel).map fun k => label (n + k)).Nodup :=
      List.nodup_range.map fun i j hij => by simpa using hlabel hij
    have hsubset : ((List.range fuel).map fun k => label (n + k)) ⊆ occupied := by
      intro name hname
      obtain ⟨k, hk, rfl⟩ := List.mem_map.1 hname
      exact hbefore (n + k) (by omega) (by have := List.mem_range.1 hk; omega)
    have hlength := (List.subperm_of_subset hnodup hsubset).length_le
    simp only [List.length_map, List.length_range] at hlength
    omega

end PokerDeliberation.Lib
