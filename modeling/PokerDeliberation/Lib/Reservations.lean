import Mathlib.Data.Finset.Basic
import Mathlib.Data.Finset.Lattice.Lemmas
import Mathlib.Data.List.Count

/-!
# Reservations in a shared set

Participants reserve keys in one shared set and give them back. `Exclusive`
says that a key stands in the set exactly while one participant has it
reserved, and never two. Reserving fresh keys and giving back one's own keep
it; taking keys out that one has given back before keeps it exactly when
nobody has reserved one of them since.
-/

namespace PokerDeliberation.Lib

variable {κ : Type} [DecidableEq κ]

/-- How many participants have `k` reserved. -/
def claimants (parts : List (Finset κ)) (k : κ) : Nat := parts.countP fun part => k ∈ part

/-- A key in the set has one claimant, a key outside it has none. -/
def Exclusive (held : Finset κ) (parts : List (Finset κ)) : Prop :=
  ∀ k, claimants parts k = if k ∈ held then 1 else 0

variable {held part keys : Finset κ} {parts : List (Finset κ)} {i j : Nat} {k : κ}

theorem claimants_set (keys : Finset κ) (k : κ) (hi : parts[i]? = some part) :
    claimants (parts.set i keys) k + (if k ∈ part then 1 else 0) =
      claimants parts k + if k ∈ keys then 1 else 0 := by
  obtain ⟨hlt, hpart⟩ := List.getElem?_eq_some_iff.1 hi
  have hle := List.boole_getElem_le_countP (p := fun part => decide (k ∈ part)) hlt
  rw [hpart] at hle
  unfold claimants
  rw [List.countP_set hlt, hpart]
  simp only [decide_eq_true_eq] at hle ⊢
  omega

theorem claimants_pos (hi : parts[i]? = some part) (hk : k ∈ part) : 0 < claimants parts k :=
  List.countP_pos_iff.2 ⟨part, List.mem_of_getElem? hi, by simpa using hk⟩

/-- Two different participants make two claimants. -/
theorem two_le_claimants {part' : Finset κ} (hi : parts[i]? = some part)
    (hj : parts[j]? = some part') (hne : i ≠ j) (hk : k ∈ part) (hk' : k ∈ part') :
    2 ≤ claimants parts k := by
  -- with `i` emptied, `j` still counts
  have hset := claimants_set ∅ k hi
  have hj' : (parts.set i ∅)[j]? = some part' := by rw [List.getElem?_set_ne hne, hj]
  have hpos := claimants_pos hj' hk'
  simp only [hk, if_true, Finset.notMem_empty, if_false] at hset
  omega

namespace Exclusive

variable (h : Exclusive held parts)

include h

theorem mem_held (hi : parts[i]? = some part) (hk : k ∈ part) : k ∈ held := by
  by_contra hnot
  have hpos := claimants_pos hi hk
  rw [h k, if_neg hnot] at hpos
  exact absurd hpos (lt_irrefl 0)

theorem eq_of_mem {part' : Finset κ} (hi : parts[i]? = some part) (hj : parts[j]? = some part')
    (hk : k ∈ part) (hk' : k ∈ part') : i = j := by
  by_contra hne
  have htwo := two_le_claimants hi hj hne hk hk'
  rw [h k] at htwo
  split at htwo <;> omega

theorem exists_claimant (hk : k ∈ held) :
    ∃ (i : Nat) (part : Finset κ), parts[i]? = some part ∧ k ∈ part := by
  have hone := h k
  rw [if_pos hk] at hone
  obtain ⟨part, hmem, hpart⟩ := List.countP_pos_iff.1 (show 0 < claimants parts k by omega)
  obtain ⟨i, hi⟩ := List.mem_iff_getElem?.1 hmem
  exact ⟨i, part, hi, by simpa using hpart⟩

theorem push_empty : Exclusive held (parts ++ [∅]) := fun k => by
  simpa [claimants] using h k

/-- A participant whose reservation stays as it was. -/
theorem set_same (hi : parts[i]? = some part) : Exclusive held (parts.set i part) := fun k => by
  have := claimants_set part k hi
  have := h k
  omega

/-- `i` reserves keys that nobody holds. -/
theorem take (hi : parts[i]? = some part) (hfree : ∀ k ∈ keys, k ∈ held → k ∈ part) :
    Exclusive (held ∪ keys) (parts.set i (part ∪ keys)) := fun k => by
  have hset := claimants_set (part ∪ keys) k hi
  have hmem : k ∈ part → k ∈ held := h.mem_held hi
  have hk := h k
  have hfree := hfree k
  simp only [Finset.mem_union] at hset ⊢
  split_ifs at hset hk ⊢ <;> grind

/-- `i` gives back what it has reserved. -/
theorem give (hi : parts[i]? = some part) : Exclusive (held \ part) (parts.set i ∅) := fun k => by
  have hset := claimants_set ∅ k hi
  have hmem : k ∈ part → k ∈ held := h.mem_held hi
  have hk := h k
  simp only [Finset.notMem_empty, if_false, Finset.mem_sdiff] at hset ⊢
  split_ifs at hset hk ⊢ <;> grind

/-- Keys taken out of the set by one who has none of them reserved. -/
theorem drop_iff :
    Exclusive (held \ keys) parts ↔ ∀ part ∈ parts, ∀ k ∈ part, k ∉ keys := by
  constructor
  · intro h' part hpart k hk hkeys
    obtain ⟨i, hi⟩ := List.mem_iff_getElem?.1 hpart
    have := h'.mem_held hi hk
    simp only [Finset.mem_sdiff] at this
    exact this.2 hkeys
  · intro hfree k
    rw [h k]
    simp only [Finset.mem_sdiff]
    by_cases hkeys : k ∈ keys
    · -- somebody would have `k` reserved if it stood in the set
      have hnot : k ∉ held := fun hk => by
        obtain ⟨i, part, hi, hmem⟩ := h.exists_claimant hk
        exact hfree part (List.mem_of_getElem? hi) k hmem hkeys
      simp [hnot]
    · simp [hkeys]

end Exclusive

/-- One participant's step: what it has reserved and the set, before and after,
and the keys it takes out of the set without having them reserved. -/
inductive Adjusts (held part : Finset κ) : Finset κ → Finset κ → Finset κ → Prop where
  | same : Adjusts held part ∅ held part
  | take (keys : Finset κ) (hfree : ∀ k ∈ keys, k ∈ held → k ∈ part) :
      Adjusts held part ∅ (held ∪ keys) (part ∪ keys)
  | give : Adjusts held part ∅ (held \ part) ∅
  | drop (keys : Finset κ) (hpart : part = ∅) : Adjusts held part keys (held \ keys) ∅

namespace Adjusts

variable {held' part' : Finset κ}

/-- A step keeps the set exclusive unless it takes out what somebody has reserved. -/
theorem exclusive_iff (hmoves : Adjusts held part keys held' part') (h : Exclusive held parts)
    (hi : parts[i]? = some part) :
    Exclusive held' (parts.set i part') ↔ ∀ part ∈ parts, ∀ k ∈ part, k ∉ keys := by
  cases hmoves with
  | same => simp [h.set_same hi]
  | take keys hfree => simp [h.take hi hfree]
  | give => simp [h.give hi]
  | drop _ hpart =>
    subst hpart
    obtain ⟨hlt, hpart⟩ := List.getElem?_eq_some_iff.1 hi
    rw [← hpart, List.set_getElem_self, h.drop_iff]

/-- What leaves the set was reserved by the one who took it out, or by nobody who still is there. -/
theorem removed (hmoves : Adjusts held part keys held' part') (hk : k ∈ held) (hk' : k ∉ held') :
    k ∈ part ∨ k ∈ keys := by
  cases hmoves <;> simp_all

end Adjusts

end PokerDeliberation.Lib
