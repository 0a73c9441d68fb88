import PokerDeliberation.Equity.SevenCards

/-!
# Five cards that make the value of seven

Each kind of hand that seven cards make is made by five of them, with the same
ranks. With the bound on every five cards this is the evaluator's maximum: the
value of seven cards (`bestOfSeven_eq`).
-/

namespace PokerDeliberation.Equity

open Lib

section

variable {cards five : List Card} {ranks m kept xs ys v : List Nat} {n q : Nat}

/-- Five of the cards have a value of `v` or more. -/
def Reached (cards : List Card) (v : List Nat) : Prop :=
  ∃ five : List Card, five.Sublist cards ∧ five.length = 5 ∧ v ≤ fiveCardRank five

/-- Ranks of some cards are the ranks of some of the cards. -/
theorem exists_cards (hm : m.Subperm (cards.map rankValue)) :
    ∃ five : List Card, five.Sublist cards ∧ (five.map rankValue).Perm m := by
  obtain ⟨l, hperm, hsub⟩ := hm
  obtain ⟨five, hfive, rfl⟩ := List.sublist_map_iff.1 hsub
  exact ⟨five, hfive, hperm⟩

theorem reached_of_ranks (hm : m.Subperm (cards.map rankValue)) (hlength : m.length = 5)
    (h : ∀ five : List Card, five.Sublist cards → (five.map rankValue).Perm m → v ≤ fiveCardRank five) :
    Reached cards v := by
  obtain ⟨five, hsub, hperm⟩ := exists_cards hm
  have hfive : five.length = 5 := by rw [← List.length_map rankValue, hperm.length_eq, hlength]
  exact ⟨five, hsub, hfive, h five hsub hperm⟩

theorem reached_of_suited {suit : Fin 4} (hm : m.Subperm (suited cards suit))
    (hlength : m.length = 5) (h : ∀ five : List Card, five ≠ [] → (∀ card ∈ five, card.suit = suit) →
      (five.map rankValue).Perm m → v ≤ fiveCardRank five) : Reached cards v := by
  obtain ⟨five, hsub, hperm⟩ := exists_cards hm
  have hsuit : ∀ card ∈ five, card.suit = suit := fun card hcard =>
    of_decide_eq_true (List.mem_filter.1 (hsub.subset hcard)).2
  have hfive : five.length = 5 := by rw [← List.length_map rankValue, hperm.length_eq, hlength]
  have hne : five ≠ [] := List.ne_nil_of_length_pos (by omega)
  exact ⟨five, hsub.trans List.filter_sublist, hfive, h five hne hsuit hperm⟩

/-- Some of the kept ranks with some of the others. -/
theorem subperm_kept (kept : List Nat) (hx : ∀ x ∈ xs, xs.count x ≤ ranks.count x ∧ x ∈ kept)
    (hy : ys.Subperm (otherRanks ranks kept)) : (xs ++ ys).Subperm ranks := by
  have hkept : xs.Subperm (ranks.filter fun r => decide (r ∈ kept)) := by
    refine List.subperm_ext_iff.2 fun x hmem => ?_
    rw [List.count_filter (p := fun r => decide (r ∈ kept)) (decide_eq_true (hx x hmem).2)]
    exact (hx x hmem).1
  have hperm := List.filter_append_perm (fun r => decide (r ∈ kept)) ranks
  refine ((List.Subperm.append hkept ?_)).trans hperm.subperm
  simpa only [otherRanks, decide_not] using hy

theorem nodup_otherRanks (h : ∀ r, r ∉ kept → ranks.count r ≤ 1) : (otherRanks ranks kept).Nodup := by
  refine List.nodup_iff_count_le_one.2 fun r => ?_
  by_cases hr : r ∈ kept
  · have hnot : r ∉ otherRanks ranks kept := fun hmem => (mem_otherRanks.1 hmem).2 hr
    rw [List.count_eq_zero.2 hnot]
    exact Nat.zero_le 1
  · exact (List.filter_sublist.count_le r).trans (h r hr)

/-- The best of the other ranks, all different. -/
structure BestOthers (ranks kept : List Nat) (n : Nat) (top : List Nat) : Prop where
  eq_take : (sortedDown (otherRanks ranks kept)).take n = top
  length : top.length = n
  sorted : top.Pairwise (· > ·)
  subperm : top.Subperm (otherRanks ranks kept)

theorem exists_bestOthers (n : Nat) (kept : List Nat) (h : ∀ r, r ∉ kept → ranks.count r ≤ 1)
    (hn : n ≤ (otherRanks ranks kept).length) : ∃ top, BestOthers ranks kept n top := by
  have hperm : (sortedDown (otherRanks ranks kept)).Perm (otherRanks ranks kept) :=
    List.perm_insertionSort _ _
  have hnodup := hperm.nodup_iff.2 (nodup_otherRanks h)
  have hstrict : (sortedDown (otherRanks ranks kept)).Pairwise (· > ·) :=
    ((pairwise_sortedDown _).and hnodup).imp fun hgt => lt_of_le_of_ne hgt.1 hgt.2.symm
  exact ⟨_, rfl, by rw [List.length_take, hperm.length_eq, min_eq_left hn],
    hstrict.sublist (List.take_sublist n _), (List.take_sublist n _).subperm.trans hperm.subperm⟩

theorem BestOthers.notMem {top : List Nat} (h : BestOthers ranks kept n top) {r : Nat} (hr : r ∈ top) :
    r ∉ kept := (mem_otherRanks.1 (h.subperm.subset hr)).2

theorem length_otherRanks_singleton (ranks : List Nat) (q : Nat) :
    (otherRanks ranks [q]).length + ranks.count q = ranks.length := by
  have hsum := List.length_eq_length_filter_add (l := ranks) fun r => decide (r ∈ [q])
  have hcount : (ranks.filter fun r => decide (r ∈ [q])).length = ranks.count q := by
    rw [List.count_eq_length_filter]
    congr 2
    funext r
    exact Bool.eq_iff_iff.2 (by simp)
  simp only [otherRanks, decide_not]
  omega

theorem largest_mem (h : xs ≠ []) : largest xs ∈ xs := by
  obtain ⟨x, hx⟩ := List.exists_mem_of_ne_nil _ h
  obtain hzero | hmem := @foldl_max_mem _ _ 0 xs
  · have hle : x ≤ largest xs := le_largest hx
    have heq : largest xs = 0 := hzero
    obtain rfl : x = 0 := by omega
    rwa [heq]
  · exact hmem

end

/-! ## Five different ranks -/

section

variable {five : List Card} {m : List Nat} {high : Nat} {suit : Fin 4}

theorem fiveCardRank_suited (hne : five ≠ []) (hsuit : ∀ card ∈ five, card.suit = suit) :
    fiveCardRank five = handTuple true (five.map rankValue) := by
  have hsuits : five.map (·.suit) = List.replicate five.length suit :=
    List.eq_replicate_iff.2 ⟨List.length_map _, fun s hs => by
      obtain ⟨card, hcard, rfl⟩ := List.mem_map.1 hs
      exact hsuit card hcard⟩
  have hflush : (five.map (·.suit)).dedup.length = 1 := by
    rw [hsuits, List.replicate_dedup (by simpa using hne), List.length_singleton]
  rw [fiveCardRank, decide_eq_true hflush]

variable (hranks : AreRanks m) (hnodup : m.Nodup) (hlength : m.length = 5)
include hranks hnodup hlength

theorem le_handTuple_highCard (isFlush : Bool) : 0 :: sortedDown m ≤ handTuple isFlush m := by
  rw [handTuple_distinct hranks isFlush hnodup hlength]
  cases isFlush <;> cases highestStraight m
  · exact le_rfl
  all_goals exact cons_le_of_lt (by omega)

theorem le_handTuple_flush : 5 :: sortedDown m ≤ handTuple true m := by
  rw [handTuple_distinct hranks true hnodup hlength]
  cases highestStraight m
  · exact le_rfl
  · exact cons_le_of_lt (by omega)

theorem le_handTuple_straightFlush (hlow : 5 ≤ high) (hhigh : high ≤ 14)
    (h : ∀ r ∈ straightRanks high, r ∈ m) : [8, high] ≤ handTuple true m := by
  obtain ⟨highest, hhighest, hle⟩ := exists_highestStraight hlow hhigh h
  rw [handTuple_distinct hranks true hnodup hlength, hhighest]
  exact List.cons_le_cons _ (le_of_forall₂ (.cons hle .nil))

theorem le_handTuple_straight (isFlush : Bool) (hlow : 5 ≤ high) (hhigh : high ≤ 14)
    (h : ∀ r ∈ straightRanks high, r ∈ m) : [4, high] ≤ handTuple isFlush m := by
  obtain ⟨highest, hhighest, hle⟩ := exists_highestStraight hlow hhigh h
  rw [handTuple_distinct hranks isFlush hnodup hlength, hhighest]
  cases isFlush
  · exact List.cons_le_cons _ (le_of_forall₂ (.cons hle .nil))
  · exact cons_le_of_lt (by omega)

end

/-! ## Each kind is made by five -/

section

variable {cards : List Card} {v : List Nat} (hcards : cards.Nodup) (hlength : cards.length = 7)

theorem reached_straightFlush (h : straightFlush? cards = some v) : Reached cards v := by
  obtain ⟨high, hhead, rfl⟩ := Option.map_eq_some_iff.1 h
  have hmem := mem_sortedDown.1 (List.mem_of_mem_head? hhead)
  obtain ⟨suit, -, hhigh⟩ := List.mem_filterMap.1 hmem
  obtain ⟨hlow, hhigh, hall⟩ := highestStraight_some hhigh
  have hnodup := nodup_straightRanks hlow
  refine reached_of_suited (hnodup.subperm hall) (length_straightRanks high) ?_
  intro five hne hsuit hperm
  rw [fiveCardRank_suited hne hsuit]
  exact le_handTuple_straightFlush (areRanks_map five) (hperm.nodup_iff.2 hnodup)
    (hperm.length_eq.trans (length_straightRanks high)) hlow hhigh fun r hr => hperm.mem_iff.2 hr

theorem reached_straight (h : straight? (cards.map rankValue) = some v) : Reached cards v := by
  obtain ⟨high, hhigh, rfl⟩ := Option.map_eq_some_iff.1 h
  obtain ⟨hlow, hhigh, hall⟩ := highestStraight_some hhigh
  have hnodup := nodup_straightRanks hlow
  refine reached_of_ranks (hnodup.subperm hall) (length_straightRanks high) fun five _ hperm => ?_
  exact le_handTuple_straight (areRanks_map five) (hperm.nodup_iff.2 hnodup)
    (hperm.length_eq.trans (length_straightRanks high)) _ hlow hhigh fun r hr => hperm.mem_iff.2 hr

include hcards hlength in
theorem reached_quads (h : quads? (cards.map rankValue) = some v) : Reached cards v := by
  obtain ⟨q, hhead, rfl⟩ := Option.map_eq_some_iff.1 h
  have hq := (mem_atLeast (by omega)).1 (List.mem_of_mem_head? hhead)
  have hothers : otherRanks (cards.map rankValue) [q] ≠ [] := by
    intro hnil
    have := length_otherRanks_singleton (cards.map rankValue) q
    have := count_rank_le hcards q
    rw [hnil, List.length_map, List.length_nil] at *
    omega
  have hk := largest_mem hothers
  generalize largest (otherRanks (cards.map rankValue) [q]) = k at hk ⊢
  have hne : k ≠ q := by simpa using (mem_otherRanks.1 hk).2
  have hm : ([q, q, q, q] ++ [k]).Subperm (cards.map rankValue) :=
    subperm_kept [q] (by simpa using hq) (List.singleton_subperm_iff.2 hk)
  refine reached_of_ranks hm rfl fun five hsub hperm => ?_
  rw [fiveCardRank_repeated (hsub.nodup hcards) (by simp [hperm.nodup_iff]),
    handTuple_quads (areRanks_map five) hne hperm]

include hcards in
theorem reached_fullHouse (h : fullHouse? (cards.map rankValue) = some v) : Reached cards v := by
  simp only [fullHouse?, Option.bind_eq_bind, Option.bind_eq_some_iff] at h
  obtain ⟨q, hq, p, hp, hv⟩ := h
  cases hv
  have hpair := List.mem_filter.1 (List.mem_of_mem_head? hp)
  have hne : p ≠ q := by simpa using hpair.2
  have hq := (mem_atLeast (by omega)).1 (List.mem_of_mem_head? hq)
  have hp := (mem_atLeast (by omega)).1 hpair.1
  have hm : [q, q, q, p, p].Subperm (cards.map rankValue) := by
    refine List.subperm_ext_iff.2 fun r hr => ?_
    have hr : r = q ∨ r = p := by
      simp only [List.mem_cons, List.not_mem_nil, or_false] at hr
      tauto
    rcases hr with rfl | rfl
    · simpa [hne] using hq
    · simpa [hne.symm] using hp
  refine reached_of_ranks hm rfl fun five hsub hperm => ?_
  rw [fiveCardRank_repeated (hsub.nodup hcards) (by simp [hperm.nodup_iff]),
    handTuple_fullHouse (areRanks_map five) hne hperm]

include hcards in
theorem reached_flush (h : flush? cards = some v) : Reached cards v := by
  obtain ⟨suit, hfind, rfl⟩ := Option.map_eq_some_iff.1 h
  have hfive := List.find?_some hfind
  replace hfive := of_decide_eq_true hfive
  have hsorted := (pairwise_sortedDown (suited cards suit)).sublist (List.take_sublist 5 _)
  have hm : ((sortedDown (suited cards suit)).take 5).Subperm (suited cards suit) :=
    (List.take_sublist 5 _).subperm.trans (List.perm_insertionSort _ _).subperm
  have hlength : ((sortedDown (suited cards suit)).take 5).length = 5 := by
    rw [List.length_take, sortedDown, List.length_insertionSort]
    omega
  have hsuit : ∀ card ∈ cards.filter (·.suit = suit), card.suit = suit :=
    fun card hcard => of_decide_eq_true (List.mem_filter.1 hcard).2
  have hnodup : (suited cards suit).Nodup := nodup_ranks (hcards.filter _) hsuit
  have hnodup : ((sortedDown (suited cards suit)).take 5).Nodup :=
    ((List.perm_insertionSort _ _).nodup_iff.2 hnodup).sublist (List.take_sublist 5 _)
  generalize (sortedDown (suited cards suit)).take 5 = m at hsorted hm hlength hnodup
  refine reached_of_suited hm hlength fun five hne hsuit hperm => ?_
  have hle := le_handTuple_flush (areRanks_map five)
    (hperm.nodup_iff.2 hnodup) (hperm.length_eq.trans hlength)
  rwa [sortedDown_eq hperm hsorted, ← fiveCardRank_suited hne hsuit] at hle

/-- With no full house there is no second rank of which there are two. -/
theorem count_le_one_of_trips {ranks : List Nat} {q r : Nat} (h : fullHouse? ranks = none)
    (hq : (atLeast 3 ranks).head? = some q) (hne : r ≠ q) : ranks.count r ≤ 1 := by
  by_contra hmany
  obtain ⟨v, hv, -⟩ := exists_fullHouse ((mem_atLeast (by omega)).1 (List.mem_of_mem_head? hq))
    (p := r) (by omega) hne
  rw [h] at hv
  cases hv

include hcards hlength in
theorem reached_trips (h : trips? (cards.map rankValue) = some v)
    (hnone : fullHouse? (cards.map rankValue) = none) : Reached cards v := by
  obtain ⟨q, hhead, rfl⟩ := Option.map_eq_some_iff.1 h
  have hq := (mem_atLeast (by omega)).1 (List.mem_of_mem_head? hhead)
  have hlen := length_otherRanks_singleton (cards.map rankValue) q
  have hcount := count_rank_le hcards q
  rw [List.length_map] at hlen
  obtain ⟨top, htop⟩ := exists_bestOthers 2 [q] (fun r hr =>
    count_le_one_of_trips hnone hhead (by simpa using hr)) (by omega)
  obtain ⟨a, b, rfl⟩ := List.length_eq_two.1 htop.length
  have hab : b < a := by simpa using htop.sorted
  have ha : a ≠ q := by simpa using htop.notMem (r := a) (by simp)
  have hb : b ≠ q := by simpa using htop.notMem (r := b) (by simp)
  have hm : ([q, q, q] ++ [a, b]).Subperm (cards.map rankValue) :=
    subperm_kept [q] (by simpa using hq) htop.subperm
  rw [htop.eq_take]
  refine reached_of_ranks hm rfl fun five hsub hperm => ?_
  rw [fiveCardRank_repeated (hsub.nodup hcards) (by simp [hperm.nodup_iff]),
    handTuple_trips (areRanks_map five) hab ha hb hperm]

/-- Ranks that are all one of two are so many. -/
theorem length_le_of_otherRanks_eq_nil {ranks : List Nat} {p q : Nat} (hne : p ≠ q)
    (h : otherRanks ranks [p, q] = []) : ranks.length ≤ ranks.count p + ranks.count q := by
  have hsub : ranks.Subperm (List.replicate (ranks.count p) p ++ List.replicate (ranks.count q) q) := by
    refine List.subperm_ext_iff.2 fun r hr => ?_
    have hr' : r = p ∨ r = q := by
      by_contra hother
      have hmem : r ∈ otherRanks ranks [p, q] := mem_otherRanks.2 ⟨hr, by simpa using hother⟩
      rw [h] at hmem
      cases hmem
    rcases hr' with rfl | rfl
    · simp
    · simp
  simpa using hsub.length_le

include hcards hlength in
theorem reached_twoPair (h : twoPair? (cards.map rankValue) = some v)
    (hnone : fullHouse? (cards.map rankValue) = none) : Reached cards v := by
  unfold twoPair? at h
  split at h
  · rename_i p q rest hpairs
    cases h
    have hnodup : (atLeast 2 (cards.map rankValue)).Nodup :=
      (List.perm_insertionSort _ _).nodup_iff.2 ((List.nodup_dedup _).filter _)
    have hsorted : (atLeast 2 (cards.map rankValue)).Pairwise (· ≥ ·) := pairwise_sortedDown _
    have hp := (mem_atLeast (by omega)).1 (hpairs ▸ List.mem_cons_self)
    have hq := (mem_atLeast (by omega)).1 (hpairs ▸ List.mem_cons_of_mem p List.mem_cons_self)
    rw [hpairs] at hnodup hsorted
    have hne : p ≠ q := fun heq => (List.nodup_cons.1 hnodup).1 (heq ▸ List.mem_cons_self)
    have hle : q ≤ p := (List.pairwise_cons.1 hsorted).1 q List.mem_cons_self
    -- with three of either there would be a full house
    have hfew : ∀ {r s}, 2 ≤ (cards.map rankValue).count s → s ≠ r →
        (cards.map rankValue).count r ≤ 2 := fun {r s} hs hne => by
      by_contra hmany
      obtain ⟨v, hv, -⟩ := exists_fullHouse (Nat.lt_of_not_le hmany) hs hne
      rw [hnone] at hv
      cases hv
    have hothers : otherRanks (cards.map rankValue) [p, q] ≠ [] := by
      intro hnil
      have := length_le_of_otherRanks_eq_nil hne hnil
      have := hfew hq hne.symm
      have := hfew hp hne
      rw [List.length_map] at *
      omega
    have hk := largest_mem hothers
    generalize largest (otherRanks (cards.map rankValue) [p, q]) = k at hk ⊢
    obtain ⟨hkp, hkq⟩ : k ≠ p ∧ k ≠ q := by simpa using (mem_otherRanks.1 hk).2
    have hm : ([p, p, q, q] ++ [k]).Subperm (cards.map rankValue) :=
      subperm_kept [p, q] (by simpa [hne, hne.symm] using ⟨hp, hq⟩)
        (List.singleton_subperm_iff.2 hk)
    refine reached_of_ranks hm rfl fun five hsub hperm => ?_
    rw [fiveCardRank_repeated (hsub.nodup hcards) (by simp [hperm.nodup_iff]),
      handTuple_twoPair (areRanks_map five) (lt_of_le_of_ne hle hne.symm) hkp hkq hperm]
  · cases h

/-- With no two pair there is no second rank of which there are two. -/
theorem count_le_one_of_onePair {ranks : List Nat} {p r : Nat} (h : twoPair? ranks = none)
    (hp : (atLeast 2 ranks).head? = some p) (hne : r ≠ p) : ranks.count r ≤ 1 := by
  by_contra hmany
  have hr : r ∈ atLeast 2 ranks := (mem_atLeast (by omega)).2 (by omega)
  unfold twoPair? at h
  split at h
  · cases h
  · rename_i hpairs
    obtain ⟨rest, hrest⟩ := List.head?_eq_some_iff.1 hp
    cases rest with
    | nil => exact hne (by simpa [hrest] using hr)
    | cons q rest => exact hpairs p q rest hrest

include hcards hlength in
theorem reached_onePair (h : onePair? (cards.map rankValue) = some v)
    (hnone : twoPair? (cards.map rankValue) = none) : Reached cards v := by
  obtain ⟨p, hhead, rfl⟩ := Option.map_eq_some_iff.1 h
  have hp := (mem_atLeast (by omega)).1 (List.mem_of_mem_head? hhead)
  have hlen := length_otherRanks_singleton (cards.map rankValue) p
  have hcount := count_rank_le hcards p
  rw [List.length_map] at hlen
  obtain ⟨top, htop⟩ := exists_bestOthers 3 [p] (fun r hr =>
    count_le_one_of_onePair hnone hhead (by simpa using hr)) (by omega)
  obtain ⟨a, b, c, rfl⟩ := List.length_eq_three.1 htop.length
  have hsorted := htop.sorted
  simp only [List.pairwise_cons, List.mem_cons, List.not_mem_nil, or_false, forall_eq_or_imp,
    forall_eq] at hsorted
  have ha : a ≠ p := by simpa using htop.notMem (r := a) (by simp)
  have hb : b ≠ p := by simpa using htop.notMem (r := b) (by simp)
  have hc : c ≠ p := by simpa using htop.notMem (r := c) (by simp)
  have hm : ([p, p] ++ [a, b, c]).Subperm (cards.map rankValue) :=
    subperm_kept [p] (by simpa using hp) htop.subperm
  rw [htop.eq_take]
  refine reached_of_ranks hm rfl fun five hsub hperm => ?_
  rw [fiveCardRank_repeated (hsub.nodup hcards) (by simp [hperm.nodup_iff]),
    handTuple_onePair (areRanks_map five) hsorted.1.1 hsorted.2.1 ha hb hc hperm]

include hlength in
theorem reached_highCard (hnone : onePair? (cards.map rankValue) = none) :
    Reached cards (highCard (cards.map rankValue)) := by
  have hnodup : (cards.map rankValue).Nodup := by
    refine List.nodup_iff_count_le_one.2 fun r => ?_
    by_contra hmany
    obtain ⟨p, hp, -⟩ := exists_head_atLeast (n := 2) (by omega) (Nat.lt_of_not_le hmany)
    rw [onePair?, hp] at hnone
    cases hnone
  have hperm : (sortedDown (cards.map rankValue)).Perm (cards.map rankValue) :=
    List.perm_insertionSort _ _
  have hsub := List.take_sublist 5 (sortedDown (cards.map rankValue))
  have hsorted := (pairwise_sortedDown (cards.map rankValue)).sublist hsub
  have hnodup := (hperm.nodup_iff.2 hnodup).sublist hsub
  have hfive : ((sortedDown (cards.map rankValue)).take 5).length = 5 := by
    rw [List.length_take, hperm.length_eq, List.length_map, hlength]
    rfl
  refine reached_of_ranks (hsub.subperm.trans hperm.subperm) hfive fun five _ hfive' => ?_
  have hle := le_handTuple_highCard (areRanks_map five) (hfive'.nodup_iff.2 hnodup)
    (hfive'.length_eq.trans hfive)
  rw [sortedDown_eq hfive' hsorted] at hle
  exact hle _

include hcards hlength in
/-- Five of the seven cards are worth as much as the seven. -/
theorem reached_sevenCardValue : Reached cards (sevenCardValue cards) := by
  unfold sevenCardValue kinds
  simp only [List.findSome?_cons, id_eq]
  rcases h8 : straightFlush? cards with _ | v
  case some => exact reached_straightFlush h8
  rcases h7 : quads? (cards.map rankValue) with _ | v
  case some => exact reached_quads hcards hlength h7
  rcases h6 : fullHouse? (cards.map rankValue) with _ | v
  case some => exact reached_fullHouse hcards h6
  rcases h5 : flush? cards with _ | v
  case some => exact reached_flush hcards h5
  rcases h4 : straight? (cards.map rankValue) with _ | v
  case some => exact reached_straight h4
  rcases h3 : trips? (cards.map rankValue) with _ | v
  case some => exact reached_trips hcards hlength h3 h6
  rcases h2 : twoPair? (cards.map rankValue) with _ | v
  case some => exact reached_twoPair hcards hlength h2 h6
  rcases h1 : onePair? (cards.map rankValue) with _ | v
  case some => exact reached_onePair hcards hlength h1 h2
  exact reached_highCard hlength h1

include hcards hlength in
/-- The best of the five-card subsets is the value of the seven cards. -/
theorem bestOfSeven_eq : bestOfSeven cards = sevenCardValue cards := by
  refine le_antisymm (foldl_max_le_iff.2 ⟨?_, ?_⟩) ?_
  · exact not_lt.1 (List.not_lt_nil _)
  · intro v hv
    obtain ⟨five, hfive, rfl⟩ := List.mem_map.1 hv
    obtain ⟨hsub, hfive⟩ := List.mem_sublistsLen.1 hfive
    exact fiveCardRank_le hcards hlength hsub hfive
  · obtain ⟨five, hsub, hfive, hle⟩ := reached_sevenCardValue hcards hlength
    refine hle.trans (le_foldl_max (List.mem_map.2 ⟨five, ?_, rfl⟩))
    exact List.mem_sublistsLen.2 ⟨hsub, hfive⟩

end

/-! ## The names of the suits -/

/-- The card with its suit renamed. -/
def permuteSuits (σ : Equiv.Perm (Fin 4)) (card : Card) : Card := { card with suit := σ card.suit }

theorem permuteSuits_injective (σ : Equiv.Perm (Fin 4)) : Function.Injective (permuteSuits σ) := by
  rintro ⟨rank, suit⟩ ⟨rank', suit'⟩ h
  simp only [permuteSuits, Card.mk.injEq] at h
  obtain ⟨rfl, hsuit⟩ := h
  rw [σ.injective hsuit]

theorem fiveCardRank_permuteSuits (σ : Equiv.Perm (Fin 4)) (five : List Card) :
    fiveCardRank (five.map (permuteSuits σ)) = fiveCardRank five := by
  have hsuits : (five.map (permuteSuits σ)).map (·.suit) = (five.map (·.suit)).map σ := by
    simp only [List.map_map, Function.comp_def, permuteSuits]
  have hranks : (five.map (permuteSuits σ)).map rankValue = five.map rankValue := by
    rw [List.map_map]
    rfl
  rw [fiveCardRank, hsuits, hranks, List.dedup_map_of_injective σ.injective, List.length_map,
    fiveCardRank]

theorem sublistsLen_map {α β : Type} (f : α → β) : ∀ (n : Nat) (xs : List α),
    (xs.map f).sublistsLen n = (xs.sublistsLen n).map (List.map f)
  | 0, xs => by simp
  | n + 1, [] => by simp
  | n + 1, x :: xs => by
    simp only [List.map_cons, List.sublistsLen_succ_cons, List.map_append, List.map_map,
      sublistsLen_map f, Function.comp_def]

theorem bestOfSeven_permuteSuits (σ : Equiv.Perm (Fin 4)) (cards : List Card) :
    bestOfSeven (cards.map (permuteSuits σ)) = bestOfSeven cards := by
  rw [bestOfSeven, sublistsLen_map, List.map_map, bestOfSeven]
  congr 2
  funext five
  exact fiveCardRank_permuteSuits σ five

/-- The evaluator gives the value of the seven cards, whatever the suits are called. -/
theorem evaluateHoldem_eq_sevenCardValue {holeCards boardCards : List String}
    {hole board : List Card} (hhole : normalizeCards holeCards = .ok hole)
    (hboard : normalizeCards boardCards = .ok board) (htwo : hole.length = 2)
    (hfive : board.length = 5) (hdistinct : (hole ++ board).Nodup) :
    evaluateHoldem holeCards boardCards = .ok (sevenCardValue (hole ++ board)) ∧
      ∀ σ : Equiv.Perm (Fin 4),
        evaluateHoldem ((hole.map (permuteSuits σ)).map Card.text)
          ((board.map (permuteSuits σ)).map Card.text) = evaluateHoldem holeCards boardCards := by
  have hvalue := evaluateHoldem_ok hdistinct htwo hfive hhole hboard
  constructor
  · rw [hvalue, bestOfSeven_eq hdistinct (by simp [htwo, hfive])]
  · intro σ
    have hpermuted : (hole.map (permuteSuits σ) ++ board.map (permuteSuits σ)).Nodup := by
      rw [← List.map_append]
      exact hdistinct.map (permuteSuits_injective σ)
    rw [evaluateHoldem_text hpermuted (by simp [htwo]) (by simp [hfive]), hvalue, ← List.map_append,
      bestOfSeven_permuteSuits]

/-- Two trips make a full house. -/
theorem evaluateHoldem_eq_sevenCardValue_twoTrips :
    evaluateHoldem ["As", "kd"] ["AH", "Kh", "2c", "Ad", "Ks"] = .ok [6, 14, 13] := by
  have hvalue := (@evaluateHoldem_eq_sevenCardValue ["As", "kd"] ["AH", "Kh", "2c", "Ad", "Ks"]
    [⟨12, 3⟩, ⟨11, 1⟩] [⟨12, 2⟩, ⟨11, 2⟩, ⟨0, 0⟩, ⟨12, 1⟩, ⟨11, 3⟩]
    (by decide +kernel) (by decide +kernel) rfl rfl (by decide)).1
  rw [hvalue]
  decide

end PokerDeliberation.Equity
