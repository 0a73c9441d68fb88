import PokerDeliberation.Equity.Evaluator
import Mathlib.Tactic.IntervalCases

/-!
# Straights

What the scan of `_straight_high` finds: the greatest rank at the end of five
consecutive ranks, the ace counting as one too. The scan runs once over the
sorted ranks; `Scanned` is what its two variables know of the ranks behind it.
-/

namespace PokerDeliberation.Equity

open Lib

/-- Five consecutive numbers of the list end at `high`. -/
def EndsRun (xs : List Nat) (high : Nat) : Prop := ∀ i < 5, i ≤ high ∧ high - i ∈ xs

/-- The scan is at `last`, the greatest of `xs`: the run that ends there is as
long as it can be, and `best` is the greatest end of five. -/
structure Scanned (xs : List Nat) (last : Nat) (state : Nat × Option Nat) : Prop where
  run_pos : 1 ≤ state.1
  run : ∀ i < state.1, i ≤ last ∧ last - i ∈ xs
  stop : state.1 ≤ last → last - state.1 ∉ xs
  bounded : ∀ x ∈ xs, x ≤ last
  best : ∀ high, state.2 = some high → EndsRun xs high
  greatest : ∀ high, EndsRun xs high → ∃ b, state.2 = some b ∧ high ≤ b

theorem scanned_singleton (x : Nat) : Scanned [x] x (1, none) where
  run_pos := le_rfl
  run i hi := by
    obtain rfl : i = 0 := by omega
    simp
  stop h := by
    simp only [List.mem_singleton]
    omega
  bounded y hy := (List.mem_singleton.1 hy).le
  best high h := by cases h
  greatest high h := by
    have hfirst := (h 0 (by omega)).2
    have hnext := h 1 (by omega)
    simp only [List.mem_singleton] at hfirst hnext
    omega

theorem EndsRun.append {xs ys : List Nat} {high : Nat} (h : EndsRun xs high) :
    EndsRun (xs ++ ys) high := fun i hi => ⟨(h i hi).1, List.mem_append_left _ (h i hi).2⟩

section

variable {xs : List Nat} {last x : Nat} {state : Nat × Option Nat}

/-- A run that ends before a new number does not use it. -/
theorem Scanned.endsRun_of_append (h : Scanned xs last state) (hx : last < x) {high : Nat}
    (hrun : EndsRun (xs ++ [x]) high) (hne : high ≠ x) : EndsRun xs high := by
  have hhigh : high ≤ last := by
    rcases List.mem_append.1 (hrun 0 (by omega)).2 with hmem | hmem
    · exact h.bounded _ hmem
    · exact absurd (List.mem_singleton.1 hmem) hne
  intro i hi
  obtain ⟨hle, hmem⟩ := hrun i hi
  refine ⟨hle, (List.mem_append.1 hmem).resolve_right fun hlast => ?_⟩
  have := List.mem_singleton.1 hlast
  omega

/-- The next number continues the run. -/
theorem Scanned.step_next (h : Scanned xs last state) :
    Scanned (xs ++ [last + 1]) (last + 1) (straightStep state (last, last + 1)) := by
  have hstep : straightStep state (last, last + 1) =
      (state.1 + 1, if 5 ≤ state.1 + 1 then some (last + 1) else state.2) := if_pos rfl
  have hrun : ∀ i < state.1 + 1, i ≤ last + 1 ∧ last + 1 - i ∈ xs ++ [last + 1] := by
    intro i hi
    cases i with
    | zero => simp
    | succ i =>
      obtain ⟨hle, hmem⟩ := h.run i (by omega)
      refine ⟨by omega, List.mem_append_left _ ?_⟩
      rwa [show last + 1 - (i + 1) = last - i by omega]
  have hstop : state.1 + 1 ≤ last + 1 → last + 1 - (state.1 + 1) ∉ xs ++ [last + 1] := by
    intro hle hmem
    rw [show last + 1 - (state.1 + 1) = last - state.1 by omega] at hmem
    rcases List.mem_append.1 hmem with hmem | hmem
    · exact h.stop (by omega) hmem
    · have := List.mem_singleton.1 hmem
      omega
  rw [hstep]
  refine ⟨Nat.succ_pos _, hrun, hstop, ?_, ?_, ?_⟩
  · intro y hy
    rcases List.mem_append.1 hy with hy | hy
    · exact (h.bounded y hy).trans (Nat.le_succ last)
    · exact (List.mem_singleton.1 hy).le
  · intro high hbest
    by_cases hfive : 5 ≤ state.1 + 1
    · rw [if_pos hfive, Option.some.injEq] at hbest
      subst hbest
      exact fun i hi => hrun i (by omega)
    · rw [if_neg hfive] at hbest
      exact (h.best high hbest).append
  · intro high hends
    by_cases hhigh : high = last + 1
    · -- five numbers end here only if the run has been that long
      subst hhigh
      have hfive : 5 ≤ state.1 + 1 := by
        by_contra hshort
        obtain ⟨hle, hmem⟩ := hends (state.1 + 1) (by omega)
        exact hstop hle hmem
      exact ⟨last + 1, if_pos hfive, le_rfl⟩
    · obtain ⟨b, hb, hle⟩ := h.greatest high (h.endsRun_of_append (Nat.lt_succ_self last) hends hhigh)
      by_cases hfive : 5 ≤ state.1 + 1
      · refine ⟨last + 1, if_pos hfive, ?_⟩
        have := h.bounded b (by simpa using (h.best b hb 0 (by omega)).2)
        omega
      · exact ⟨b, by rw [if_neg hfive, hb], hle⟩

/-- A number beyond the next one starts a run. -/
theorem Scanned.step_gap (h : Scanned xs last state) (hx : last + 1 < x) :
    Scanned (xs ++ [x]) x (straightStep state (last, x)) := by
  have hstep : straightStep state (last, x) = (1, state.2) := by
    simp only [straightStep, if_neg (show x ≠ last + 1 by omega), if_pos (show x ≠ last by omega)]
  have hstop : x - 1 ∉ xs ++ [x] := by
    intro hmem
    rcases List.mem_append.1 hmem with hmem | hmem
    · have := h.bounded _ hmem
      omega
    · have := List.mem_singleton.1 hmem
      omega
  rw [hstep]
  refine ⟨le_rfl, fun i hi => ?_, fun _ => hstop, ?_, fun high hbest => (h.best high hbest).append, ?_⟩
  · obtain rfl : i = 0 := by omega
    simp
  · intro y hy
    rcases List.mem_append.1 hy with hy | hy
    · have := h.bounded y hy
      omega
    · exact (List.mem_singleton.1 hy).le
  · intro high hends
    have hhigh : high ≠ x := by
      rintro rfl
      exact hstop (hends 1 (by omega)).2
    exact h.greatest high (h.endsRun_of_append (by omega) hends hhigh)

theorem Scanned.step (h : Scanned xs last state) (hx : last < x) :
    Scanned (xs ++ [x]) x (straightStep state (last, x)) := by
  rcases (show last + 1 ≤ x from hx).eq_or_lt with rfl | hgap
  · exact h.step_next
  · exact h.step_gap hgap

end

/-- The scan of a list that increases. -/
theorem scanned_foldl : ∀ {done rest : List Nat} {last : Nat} {state : Nat × Option Nat},
    Scanned done last state → (last :: rest).Pairwise (· < ·) →
      ∃ last', Scanned (done ++ rest) last' (((last :: rest).zip rest).foldl straightStep state)
  | done, [], last, state, h, _ => ⟨last, by simpa using h⟩
  | done, x :: rest, last, state, h, hsorted => by
    obtain ⟨hlast, hrest⟩ := List.pairwise_cons.1 hsorted
    have hstep := h.step (hlast x List.mem_cons_self)
    obtain ⟨last', hscanned⟩ := scanned_foldl hstep hrest
    refine ⟨last', ?_⟩
    simpa using hscanned

/-! ## The highest straight -/

/-- The ranks of the straight that ends at `high`; an ace counts as one below a two. -/
def straightRanks (high : Nat) : List Nat :=
  if high = 5 then [5, 4, 3, 2, 14] else [high, high - 1, high - 2, high - 3, high - 4]

/-- The greatest rank at which a straight of the ranks ends. -/
def highestStraight (ranks : List Nat) : Option Nat :=
  [14, 13, 12, 11, 10, 9, 8, 7, 6, 5].find? fun high => (straightRanks high).all (· ∈ ranks)

/-- Every number is the rank of a card. -/
def AreRanks (ranks : List Nat) : Prop := ∀ r ∈ ranks, 2 ≤ r ∧ r ≤ 14

section

variable {ranks : List Nat} {high : Nat}

theorem highestStraight_some (h : highestStraight ranks = some high) :
    5 ≤ high ∧ high ≤ 14 ∧ ∀ r ∈ straightRanks high, r ∈ ranks := by
  have hmem := List.mem_of_find?_eq_some h
  have hall := List.find?_some h
  have hbounds : ∀ n ∈ [14, 13, 12, 11, 10, 9, 8, 7, 6, 5], 5 ≤ n ∧ n ≤ 14 := by decide
  obtain ⟨hlow, hhigh⟩ := hbounds high hmem
  exact ⟨hlow, hhigh, by simpa using hall⟩

/-- A straight that is there is not higher than the highest. -/
theorem exists_highestStraight (hlow : 5 ≤ high) (hhigh : high ≤ 14)
    (h : ∀ r ∈ straightRanks high, r ∈ ranks) :
    ∃ highest, highestStraight ranks = some highest ∧ high ≤ highest := by
  have hmem : high ∈ [14, 13, 12, 11, 10, 9, 8, 7, 6, 5] := by
    simp only [List.mem_cons, List.not_mem_nil, or_false]
    omega
  have hsorted : [14, 13, 12, 11, 10, 9, 8, 7, 6, 5].Pairwise (· ≥ ·) := by decide
  have hall : (straightRanks high).all (· ∈ ranks) = true := by simpa using h
  have hisSome : (highestStraight ranks).isSome :=
    List.find?_isSome.2 ⟨high, hmem, hall⟩
  obtain ⟨highest, hhighest⟩ := Option.isSome_iff_exists.1 hisSome
  refine ⟨highest, hhighest, ?_⟩
  obtain ⟨-, before, after, hsplit, hnone⟩ := List.find?_eq_some_iff_append.1 hhighest
  rw [hsplit] at hmem hsorted
  rcases List.mem_append.1 hmem with hbefore | hafter
  · have := hnone high hbefore
    rw [hall] at this
    cases this
  · rcases List.mem_cons.1 hafter with rfl | hafter
    · exact le_rfl
    · exact (List.pairwise_cons.1 (List.pairwise_append.1 hsorted).2.1).1 high hafter

/-- The ranks with an ace counted as one too. -/
def withLowAce (ranks : List Nat) : List Nat := if 14 ∈ ranks then insert 1 ranks else ranks

theorem mem_withLowAce {r : Nat} : r ∈ withLowAce ranks ↔ r ∈ ranks ∨ r = 1 ∧ 14 ∈ ranks := by
  unfold withLowAce
  split
  · rename_i hace
    show r ∈ List.insert 1 ranks ↔ _
    rw [List.mem_insert_iff]
    tauto
  · rename_i hace
    simp [hace]

theorem mem_withLowAce_of_ne {r : Nat} (h : r ≠ 1) : r ∈ withLowAce ranks ↔ r ∈ ranks := by
  rw [mem_withLowAce]
  exact or_iff_left fun hone => h hone.1

/-- Five consecutive numbers are a straight. -/
theorem endsRun_withLowAce (hranks : AreRanks ranks) : EndsRun (withLowAce ranks) high ↔
    5 ≤ high ∧ high ≤ 14 ∧ ∀ r ∈ straightRanks high, r ∈ ranks := by
  constructor
  · intro hrun
    have hlow : 5 ≤ high := by
      obtain ⟨hle, hmem⟩ := hrun 4 (by omega)
      rcases mem_withLowAce.1 hmem with hmem | ⟨hone, -⟩
      · have := hranks _ hmem
        omega
      · omega
    have hmem : ∀ i < 5, high - i ≠ 1 → high - i ∈ ranks := fun i hi hne =>
      (mem_withLowAce_of_ne hne).1 (hrun i hi).2
    refine ⟨hlow, (hranks high (hmem 0 (by omega) (by omega))).2, ?_⟩
    by_cases hfive : high = 5
    · subst hfive
      have hace : 14 ∈ ranks := by
        rcases mem_withLowAce.1 (hrun 4 (by omega)).2 with hone | ⟨-, hace⟩
        · have := hranks _ hone
          omega
        · exact hace
      simpa [straightRanks] using ⟨hmem 0 (by omega) (by omega), hmem 1 (by omega) (by omega),
        hmem 2 (by omega) (by omega), hmem 3 (by omega) (by omega), hace⟩
    · simpa [straightRanks, hfive] using ⟨hmem 0 (by omega) (by omega),
        hmem 1 (by omega) (by omega), hmem 2 (by omega) (by omega), hmem 3 (by omega) (by omega),
        hmem 4 (by omega) (by omega)⟩
  · rintro ⟨hlow, -, hall⟩ i hi
    refine ⟨by omega, mem_withLowAce.2 ?_⟩
    by_cases hfive : high = 5
    · subst hfive
      simp only [straightRanks, if_true, List.forall_mem_cons, List.not_mem_nil, false_implies,
        implies_true, and_true] at hall
      obtain ⟨h5, h4, h3, h2, hace⟩ := hall
      interval_cases i
      · exact .inl h5
      · exact .inl h4
      · exact .inl h3
      · exact .inl h2
      · exact .inr ⟨rfl, hace⟩
    · simp only [straightRanks, if_neg hfive, List.forall_mem_cons, List.not_mem_nil, false_implies,
        implies_true, and_true] at hall
      obtain ⟨h0, h1, h2, h3, h4⟩ := hall
      interval_cases i
      · exact .inl h0
      · exact .inl h1
      · exact .inl h2
      · exact .inl h3
      · exact .inl h4

/-- The scan finds the greatest end of five numbers. -/
theorem straightHigh_greatest (hnodup : ranks.Nodup) :
    (∀ high, straightHigh ranks = some high → EndsRun (withLowAce ranks) high) ∧
      ∀ high, EndsRun (withLowAce ranks) high → ∃ b, straightHigh ranks = some b ∧ high ≤ b := by
  have hnodup' : (withLowAce ranks).Nodup := by
    unfold withLowAce
    split
    · exact hnodup.insert
    · exact hnodup
  have hperm := List.perm_insertionSort (· ≤ ·) (withLowAce ranks)
  have hsorted : ((withLowAce ranks).insertionSort (· ≤ ·)).Pairwise (· < ·) :=
    (List.pairwise_insertionSort (· ≤ ·) (withLowAce ranks)).imp₂
      (fun _ _ hle hne => lt_of_le_of_ne hle hne) (hperm.nodup_iff.2 hnodup')
  have hrun : ∀ high, EndsRun ((withLowAce ranks).insertionSort (· ≤ ·)) high ↔
      EndsRun (withLowAce ranks) high := fun high => by
    simp only [EndsRun, hperm.mem_iff]
  have hscan : straightHigh ranks = ((((withLowAce ranks).insertionSort (· ≤ ·)).zip
      ((withLowAce ranks).insertionSort (· ≤ ·)).tail).foldl straightStep (1, none)).2 := rfl
  simp only [← hrun, hscan]
  cases hordered : (withLowAce ranks).insertionSort (· ≤ ·) with
  | nil => exact ⟨by simp, fun high h => absurd (h 0 (by omega)).2 (by simp)⟩
  | cons x rest =>
    rw [hordered] at hsorted
    obtain ⟨last, hscanned⟩ := scanned_foldl (scanned_singleton x) hsorted
    exact ⟨hscanned.best, hscanned.greatest⟩

/-- The scan finds the highest straight. -/
theorem straightHigh_eq (hranks : AreRanks ranks) :
    straightHigh ranks.dedup = highestStraight ranks := by
  have hranks' : AreRanks ranks.dedup := fun r hr => hranks r (List.mem_dedup.1 hr)
  obtain ⟨hfound, hgreatest⟩ := straightHigh_greatest (List.nodup_dedup ranks)
  have hends : ∀ high, EndsRun (withLowAce ranks.dedup) high ↔
      5 ≤ high ∧ high ≤ 14 ∧ ∀ r ∈ straightRanks high, r ∈ ranks := fun high => by
    rw [endsRun_withLowAce hranks']
    simp only [List.mem_dedup]
  have hle : ∀ high, straightHigh ranks.dedup = some high →
      ∃ highest, highestStraight ranks = some highest ∧ high ≤ highest := fun high h => by
    obtain ⟨hlow, hhigh, hall⟩ := (hends high).1 (hfound high h)
    exact exists_highestStraight hlow hhigh hall
  have hge : ∀ high, highestStraight ranks = some high →
      ∃ b, straightHigh ranks.dedup = some b ∧ high ≤ b := fun high h =>
    hgreatest high ((hends high).2 (highestStraight_some h))
  cases hscan : straightHigh ranks.dedup with
  | none =>
    cases hhighest : highestStraight ranks with
    | none => rfl
    | some high =>
      obtain ⟨b, hb, -⟩ := hge high hhighest
      rw [hscan] at hb
      cases hb
  | some high =>
    obtain ⟨highest, hhighest, hup⟩ := hle high hscan
    obtain ⟨b, hb, hdown⟩ := hge highest hhighest
    rw [hscan, Option.some.injEq] at hb
    rw [hhighest, Option.some.injEq]
    omega

end

end PokerDeliberation.Equity
