import PokerDeliberation.Equity.Straights
import Mathlib.Data.List.Count

/-!
# The shapes of five cards

Five cards are one of six shapes by how often their ranks repeat. The groups
that the evaluator sorts tell the shape, and for each shape the tuple can be
read off.
-/

namespace PokerDeliberation.Equity

open Lib

/-- The order of the groups: the larger count first, then the larger rank. -/
abbrev GroupLE (a b : Nat × Nat) : Prop := b.1 < a.1 ∨ a.1 = b.1 ∧ b.2 ≤ a.2

/-- The ranks of some groups. -/
def spread (groups : List (Nat × Nat)) : List Nat := groups.flatMap fun g => List.replicate g.1 g.2

/-- Groups as the evaluator sorts them. -/
structure Grouped (groups : List (Nat × Nat)) : Prop where
  sorted : groups.Pairwise GroupLE
  nodup : (groups.map Prod.snd).Nodup
  pos : ∀ g ∈ groups, 0 < g.1

section

variable {m : List Nat} {groups : List (Nat × Nat)} {c r : Nat}

theorem mem_spread : r ∈ spread groups ↔ ∃ g ∈ groups, 0 < g.1 ∧ r = g.2 := by
  simp only [spread, List.mem_flatMap, List.mem_replicate, Nat.pos_iff_ne_zero]

theorem count_spread (hnodup : (groups.map Prod.snd).Nodup) (h : (c, r) ∈ groups) :
    (spread groups).count r = c := by
  induction groups with
  | nil => cases h
  | cons g groups ih =>
    rw [List.map_cons, List.nodup_cons] at hnodup
    rw [spread, List.flatMap_cons, List.count_append]
    rcases List.mem_cons.1 h with rfl | h
    · have hnone : r ∉ spread groups := fun hr => by
        obtain ⟨g, hg, -, rfl⟩ := mem_spread.1 hr
        exact hnodup.1 (List.mem_map.2 ⟨g, hg, rfl⟩)
      rw [List.count_replicate_self, ← spread, List.count_eq_zero.2 hnone, Nat.add_zero]
    · have hne : g.2 ≠ r := fun heq => hnodup.1 (heq ▸ List.mem_map_of_mem (f := Prod.snd) h)
      rw [List.count_replicate, if_neg (by simpa using hne), Nat.zero_add]
      exact ih hnodup.2 h

instance : Std.Total GroupLE := ⟨fun a b => by omega⟩

instance : IsTrans (Nat × Nat) GroupLE := ⟨fun a b c => by omega⟩

instance : Std.Antisymm GroupLE := ⟨fun a b hab hba => Prod.ext (by omega) (by omega)⟩

theorem rankGroups_def (m : List Nat) :
    rankGroups m = (m.dedup.map fun r => (m.count r, r)).insertionSort GroupLE := rfl

/-- The groups of the ranks of some groups. -/
theorem rankGroups_eq (h : Grouped groups) (hm : m.Perm (spread groups)) : rankGroups m = groups := by
  have hgroups : (m.dedup.map fun r => (m.count r, r)).Perm groups := by
    refine (List.perm_ext_iff_of_nodup ?_ h.nodup.of_map).2 ?_
    · exact (List.nodup_dedup m).map fun a b hab => (Prod.mk.inj hab).2
    · rintro ⟨c, r⟩
      simp only [List.mem_map, List.mem_dedup, Prod.mk.injEq, hm.mem_iff, hm.count_eq]
      constructor
      · rintro ⟨r, hr, rfl, rfl⟩
        obtain ⟨⟨c, r⟩, hg, -, rfl⟩ := mem_spread.1 hr
        rwa [count_spread h.nodup hg]
      · intro hg
        exact ⟨r, mem_spread.2 ⟨_, hg, h.pos _ hg, rfl⟩, count_spread h.nodup hg, rfl⟩
  rw [rankGroups_def, sorted_congr hgroups, h.sorted.insertionSort_eq]

/-- The groups of some ranks. -/
theorem grouped_rankGroups (m : List Nat) : Grouped (rankGroups m) := by
  have hperm := List.perm_insertionSort GroupLE (m.dedup.map fun r => (m.count r, r))
  refine ⟨List.pairwise_insertionSort GroupLE _, ?_, fun g hg => ?_⟩
  · refine (hperm.map Prod.snd).nodup_iff.2 ?_
    simpa [Function.comp_def] using List.nodup_dedup m
  · obtain ⟨r, hr, rfl⟩ := List.mem_map.1 (hperm.mem_iff.1 hg)
    exact List.count_pos_iff.2 (List.mem_dedup.1 hr)

theorem mem_rankGroups : (c, r) ∈ rankGroups m ↔ r ∈ m ∧ c = m.count r := by
  rw [rankGroups_def, (List.perm_insertionSort GroupLE _).mem_iff]
  simp only [List.mem_map, List.mem_dedup, Prod.mk.injEq]
  constructor
  · rintro ⟨r, hr, rfl, rfl⟩
    exact ⟨hr, rfl⟩
  · rintro ⟨hr, rfl⟩
    exact ⟨r, hr, rfl, rfl⟩

theorem perm_spread (m : List Nat) : m.Perm (spread (rankGroups m)) := by
  refine List.perm_iff_count.2 fun r => ?_
  by_cases hr : r ∈ m
  · exact (count_spread (grouped_rankGroups m).nodup (mem_rankGroups.2 ⟨hr, rfl⟩)).symm
  · rw [List.count_eq_zero.2 hr, eq_comm, List.count_eq_zero]
    intro hspread
    obtain ⟨⟨c, r⟩, hg, -, rfl⟩ := mem_spread.1 hspread
    exact hr (mem_rankGroups.1 hg).1

end

/-! ## The tuple of each shape -/

theorem nodup_straightRanks {high : Nat} (h : 5 ≤ high) : (straightRanks high).Nodup := by
  unfold straightRanks
  split
  · decide
  · simp only [List.nodup_cons, List.mem_cons, List.not_mem_nil, or_false, List.nodup_nil,
      not_false_eq_true, and_true]
    omega

theorem length_straightRanks (high : Nat) : (straightRanks high).length = 5 := by
  unfold straightRanks
  split <;> rfl

/-- A straight takes five ranks. -/
theorem highestStraight_none {m : List Nat} (h : m.dedup.length < 5) : highestStraight m = none := by
  rw [Option.eq_none_iff_forall_ne_some]
  intro high hhigh
  obtain ⟨hlow, -, hall⟩ := highestStraight_some hhigh
  have hsub : (straightRanks high).Subperm m.dedup :=
    (nodup_straightRanks hlow).subperm fun r hr => List.mem_dedup.2 (hall r hr)
  have := hsub.length_le
  rw [length_straightRanks] at this
  omega

section

variable {m : List Nat} {groups : List (Nat × Nat)} {p q k a b c d e : Nat}

theorem sortedDown_eq {xs ys : List Nat} (h : xs.Perm ys) (hsorted : ys.Pairwise (· ≥ ·)) :
    sortedDown xs = ys := by
  rw [sortedDown_congr h, sortedDown, hsorted.insertionSort_eq]

/-- Ranks of which some are equal are no straight. -/
theorem straightHigh_repeated (hranks : AreRanks m) (hgroups : Grouped groups)
    (hm : m.Perm (spread groups)) (hfew : groups.length < 5) :
    straightHigh (spread groups).dedup = none := by
  rw [← straightHigh_congr hm.dedup, straightHigh_eq hranks]
  refine highestStraight_none ?_
  have hlength := congrArg List.length (rankGroups_eq hgroups hm)
  rw [rankGroups_def, List.length_insertionSort, List.length_map] at hlength
  omega

theorem handTuple_quads (hranks : AreRanks m) (hk : k ≠ q) (hm : m.Perm [q, q, q, q, k]) :
    handTuple false m = [7, q, k] := by
  have hgroups : Grouped [(4, q), (1, k)] := ⟨by simp [GroupLE], by simp [hk.symm], by simp⟩
  replace hm : m.Perm (spread [(4, q), (1, k)]) := hm
  rw [handTuple_congr hm, handTuple, rankGroups_eq hgroups (List.Perm.refl _),
    straightHigh_repeated hranks hgroups hm (by simp)]
  simp [spread, otherRanks, largest, hk, List.replicate]

theorem handTuple_fullHouse (hranks : AreRanks m) (hp : p ≠ q) (hm : m.Perm [q, q, q, p, p]) :
    handTuple false m = [6, q, p] := by
  have hgroups : Grouped [(3, q), (2, p)] := ⟨by simp [GroupLE], by simp [hp.symm], by simp⟩
  replace hm : m.Perm (spread [(3, q), (2, p)]) := hm
  rw [handTuple_congr hm, handTuple, rankGroups_eq hgroups (List.Perm.refl _),
    straightHigh_repeated hranks hgroups hm (by simp)]
  simp

theorem handTuple_trips (hranks : AreRanks m) (hab : b < a) (ha : a ≠ q) (hb : b ≠ q)
    (hm : m.Perm [q, q, q, a, b]) : handTuple false m = [3, q, a, b] := by
  have hgroups : Grouped [(3, q), (1, a), (1, b)] :=
    ⟨by simp [GroupLE, hab.le], by simp [ha.symm, hb.symm, hab.ne'], by simp⟩
  replace hm : m.Perm (spread [(3, q), (1, a), (1, b)]) := hm
  have hothers : sortedDown (otherRanks (spread [(3, q), (1, a), (1, b)]) [q]) = [a, b] :=
    sortedDown_eq (by simp [spread, otherRanks, ha, hb, List.replicate]) (by simp [hab.le])
  rw [handTuple_congr hm, handTuple, rankGroups_eq hgroups (List.Perm.refl _),
    straightHigh_repeated hranks hgroups hm (by simp)]
  simp [hothers]

theorem handTuple_twoPair (hranks : AreRanks m) (hpq : q < p) (hp : k ≠ p) (hq : k ≠ q)
    (hm : m.Perm [p, p, q, q, k]) : handTuple false m = [2, p, q, k] := by
  have hgroups : Grouped [(2, p), (2, q), (1, k)] :=
    ⟨by simp [GroupLE, hpq.le], by simp [hp.symm, hq.symm, hpq.ne'], by simp⟩
  replace hm : m.Perm (spread [(2, p), (2, q), (1, k)]) := hm
  have hpairs : pairRanks [(2, p), (2, q), (1, k)] = [p, q] :=
    sortedDown_eq (by simp) (by simp [hpq.le])
  rw [handTuple_congr hm, handTuple, rankGroups_eq hgroups (List.Perm.refl _),
    straightHigh_repeated hranks hgroups hm (by simp)]
  simp [hpairs, spread, otherRanks, largest, hp, hq, List.replicate]

theorem handTuple_onePair (hranks : AreRanks m) (hab : b < a) (hbc : c < b) (ha : a ≠ p)
    (hb : b ≠ p) (hc : c ≠ p) (hm : m.Perm [p, p, a, b, c]) :
    handTuple false m = [1, p, a, b, c] := by
  have hac := hbc.trans hab
  have hgroups : Grouped [(2, p), (1, a), (1, b), (1, c)] :=
    ⟨by simp [GroupLE, hab.le, hbc.le, hac.le],
      by simp [ha.symm, hb.symm, hc.symm, hab.ne', hbc.ne', hac.ne'], by simp⟩
  replace hm : m.Perm (spread [(2, p), (1, a), (1, b), (1, c)]) := hm
  have hpairs : pairRanks [(2, p), (1, a), (1, b), (1, c)] = [p] := by simp [pairRanks, sortedDown]
  have hothers : sortedDown (otherRanks (spread [(2, p), (1, a), (1, b), (1, c)]) [p]) = [a, b, c] :=
    sortedDown_eq (by simp [spread, otherRanks, ha, hb, hc, List.replicate])
      (by simp [hab.le, hbc.le, hac.le])
  rw [handTuple_congr hm, handTuple, rankGroups_eq hgroups (List.Perm.refl _),
    straightHigh_repeated hranks hgroups hm (by simp)]
  simp [hpairs, hothers]

/-- Five different ranks. -/
theorem handTuple_distinct (hranks : AreRanks m) (isFlush : Bool) (hnodup : m.Nodup)
    (hlength : m.length = 5) : handTuple isFlush m =
      match isFlush, highestStraight m with
      | true, some high => [8, high]
      | true, none => 5 :: sortedDown m
      | false, some high => [4, high]
      | false, none => 0 :: sortedDown m := by
  have hone : ∀ g ∈ rankGroups m, g.1 = 1 := by
    rintro ⟨c, r⟩ hg
    obtain ⟨hr, rfl⟩ := mem_rankGroups.1 hg
    exact List.count_eq_one_of_mem hnodup hr
  have hcount : (rankGroups m).length = 5 := by
    rw [rankGroups_def, List.length_insertionSort, List.length_map, hnodup.dedup, hlength]
  have hget : ∀ i < 5, ((rankGroups m).getD i (0, 0)).1 = 1 := fun i hi => by
    rw [List.getD_eq_getElem?_getD, List.getElem?_eq_getElem (by omega)]
    exact hone _ (List.getElem_mem _)
  have hpairs : pairRanks (rankGroups m) = [] := by
    have hnone : (rankGroups m).filter (fun group => group.1 = 2) = [] :=
      List.filter_eq_nil_iff.2 fun g hg => by simp [hone g hg]
    rw [pairRanks, hnone]
    rfl
  rw [handTuple, straightHigh_eq hranks, hpairs]
  simp only [hget 0 (by omega), hget 1 (by omega)]
  cases isFlush <;> cases highestStraight m <;> simp

/-! ## Every five ranks have a shape -/

/-- Five ranks, none of them five times, by how often they repeat. -/
inductive Shape (m : List Nat) : Prop where
  | quads {q k : Nat} (hk : k ≠ q) (hm : m.Perm [q, q, q, q, k])
  | fullHouse {q p : Nat} (hp : p ≠ q) (hm : m.Perm [q, q, q, p, p])
  | trips {q a b : Nat} (hab : b < a) (ha : a ≠ q) (hb : b ≠ q) (hm : m.Perm [q, q, q, a, b])
  | twoPair {p q k : Nat} (hpq : q < p) (hp : k ≠ p) (hq : k ≠ q) (hm : m.Perm [p, p, q, q, k])
  | onePair {p a b c : Nat} (hab : b < a) (hbc : c < b) (ha : a ≠ p) (hb : b ≠ p) (hc : c ≠ p)
      (hm : m.Perm [p, p, a, b, c])
  | distinct (hnodup : m.Nodup)

theorem shape_of_length (hlength : m.length = 5) (hcount : ∀ r, m.count r ≤ 4) : Shape m := by
  have hgrouped := grouped_rankGroups m
  have hperm := perm_spread m
  have hfour : ∀ g ∈ rankGroups m, g.1 ≤ 4 := by
    rintro ⟨c, r⟩ hg
    obtain ⟨-, rfl⟩ := mem_rankGroups.1 hg
    exact hcount r
  generalize rankGroups m = groups at hgrouped hperm hfour
  obtain ⟨hsorted, hnodup, hpos⟩ := hgrouped
  have hsum := hperm.length_eq
  rw [hlength] at hsum
  rcases groups with _ | ⟨⟨c₁, r₁⟩, _ | ⟨⟨c₂, r₂⟩, _ | ⟨⟨c₃, r₃⟩, _ | ⟨⟨c₄, r₄⟩, _ | ⟨⟨c₅, r₅⟩,
    _ | ⟨⟨c₆, r₆⟩, rest⟩⟩⟩⟩⟩⟩
  · simp [spread] at hsum
  · have := hfour (c₁, r₁) (by simp)
    simp [spread] at hsum
    omega
  · simp only [spread, List.flatMap_cons, List.flatMap_nil, List.length_append, List.length_replicate,
      List.length_nil] at hsum
    simp [GroupLE] at hsorted hnodup hpos hfour
    rcases (show c₁ = 4 ∧ c₂ = 1 ∨ c₁ = 3 ∧ c₂ = 2 by omega) with ⟨rfl, rfl⟩ | ⟨rfl, rfl⟩
    · exact .quads (Ne.symm hnodup) hperm
    · exact .fullHouse (Ne.symm hnodup) hperm
  · simp only [spread, List.flatMap_cons, List.flatMap_nil, List.length_append, List.length_replicate,
      List.length_nil] at hsum
    simp [GroupLE] at hsorted hnodup hpos hfour
    rcases (show c₁ = 3 ∧ c₂ = 1 ∧ c₃ = 1 ∨ c₁ = 2 ∧ c₂ = 2 ∧ c₃ = 1 by omega) with
      ⟨rfl, rfl, rfl⟩ | ⟨rfl, rfl, rfl⟩
    · exact .trips (by omega) (by omega) (by omega) hperm
    · exact .twoPair (by omega) (by omega) (by omega) hperm
  · simp only [spread, List.flatMap_cons, List.flatMap_nil, List.length_append, List.length_replicate,
      List.length_nil] at hsum
    simp [GroupLE] at hsorted hnodup hpos hfour
    obtain ⟨rfl, rfl, rfl, rfl⟩ : c₁ = 2 ∧ c₂ = 1 ∧ c₃ = 1 ∧ c₄ = 1 := by omega
    exact .onePair (by omega) (by omega) (by omega) (by omega) (by omega) hperm
  · simp only [spread, List.flatMap_cons, List.flatMap_nil, List.length_append, List.length_replicate,
      List.length_nil] at hsum
    simp only [List.forall_mem_cons, List.not_mem_nil, false_implies, implies_true, and_true] at hpos
    obtain ⟨rfl, rfl, rfl, rfl, rfl⟩ : c₁ = 1 ∧ c₂ = 1 ∧ c₃ = 1 ∧ c₄ = 1 ∧ c₅ = 1 := by omega
    exact .distinct (hperm.nodup_iff.2 hnodup)
  · simp only [spread, List.flatMap_cons, List.length_append, List.length_replicate] at hsum
    simp only [List.forall_mem_cons] at hpos
    omega

end

end PokerDeliberation.Equity
