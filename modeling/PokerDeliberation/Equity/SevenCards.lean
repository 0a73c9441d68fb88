import PokerDeliberation.Equity.Shapes
import PokerDeliberation.Lib.Descending
import PokerDeliberation.Lib.Layers
import Mathlib.Data.Fintype.Card

/-!
# The value of seven cards

The value of a hand said directly of its seven cards (`sevenCardValue`): the
first of the nine kinds of hand that the cards make, with its best ranks. The
evaluator's maximum over the five-card subsets is that value. Every five cards
make a kind that the seven make at least as well, and each kind that the seven
make is made by five of them.
-/

namespace PokerDeliberation.Equity

open Lib

/-! ## The kinds of hand -/

/-- The ranks of the cards of a suit. -/
def suited (cards : List Card) (suit : Fin 4) : List Nat :=
  (cards.filter (·.suit = suit)).map rankValue

/-- The ranks of which there are `n` cards or more, the greatest first. -/
def atLeast (n : Nat) (ranks : List Nat) : List Nat :=
  sortedDown (ranks.dedup.filter fun r => n ≤ ranks.count r)

/-- The best straight in one suit. -/
def straightFlush? (cards : List Card) : Option (List Nat) :=
  (sortedDown ((List.finRange 4).filterMap fun suit => highestStraight (suited cards suit))).head?.map
    fun high => [8, high]

def quads? (ranks : List Nat) : Option (List Nat) :=
  (atLeast 4 ranks).head?.map fun quad => [7, quad, largest (otherRanks ranks [quad])]

def fullHouse? (ranks : List Nat) : Option (List Nat) := do
  let trip ← (atLeast 3 ranks).head?
  let pair ← ((atLeast 2 ranks).filter (· ≠ trip)).head?
  return [6, trip, pair]

/-- The five highest of a suit with five cards or more. -/
def flush? (cards : List Card) : Option (List Nat) :=
  ((List.finRange 4).find? fun suit => 5 ≤ (suited cards suit).length).map fun suit =>
    5 :: (sortedDown (suited cards suit)).take 5

def straight? (ranks : List Nat) : Option (List Nat) := (highestStraight ranks).map fun high => [4, high]

def trips? (ranks : List Nat) : Option (List Nat) :=
  (atLeast 3 ranks).head?.map fun trip =>
    3 :: trip :: (sortedDown (otherRanks ranks [trip])).take 2

def twoPair? (ranks : List Nat) : Option (List Nat) :=
  match atLeast 2 ranks with
  | high :: low :: _ => some [2, high, low, largest (otherRanks ranks [high, low])]
  | _ => none

def onePair? (ranks : List Nat) : Option (List Nat) :=
  (atLeast 2 ranks).head?.map fun pair =>
    1 :: pair :: (sortedDown (otherRanks ranks [pair])).take 3

def highCard (ranks : List Nat) : List Nat := 0 :: (sortedDown ranks).take 5

/-- What the cards make of each kind, the best kind first. -/
def kinds (cards : List Card) : List (Option (List Nat)) :=
  let ranks := cards.map rankValue
  [straightFlush? cards, quads? ranks, fullHouse? ranks, flush? cards, straight? ranks, trips? ranks,
    twoPair? ranks, onePair? ranks, some (highCard ranks)]

/-- The value of a hand of seven cards. -/
def sevenCardValue (cards : List Card) : List Nat := ((kinds cards).findSome? id).getD []

example : sevenCardValue [⟨12, 3⟩, ⟨11, 3⟩, ⟨12, 0⟩, ⟨11, 0⟩, ⟨0, 0⟩, ⟨12, 1⟩, ⟨11, 1⟩] = [6, 14, 13] := by
  decide

/-! ## The first kind is the best -/

/-- What is made of a kind begins with its number. -/
def IsKind (n : Nat) (kind : Option (List Nat)) : Prop := ∀ v, kind = some v → v.head? = some n

section

variable {ranks m : List Nat} {cards : List Card} {n q r : Nat} {v w : List Nat}

theorem le_of_head_lt {a b : Nat} (hv : v.head? = some a) (hw : w.head? = some b) (h : a < b) :
    v ≤ w := by
  obtain ⟨v', rfl⟩ := List.head?_eq_some_iff.1 hv
  obtain ⟨w', rfl⟩ := List.head?_eq_some_iff.1 hw
  exact cons_le_of_lt h

/-- The first of some kinds that is made is better than every other. -/
theorem le_findSome {ns : List Nat} {ks : List (Option (List Nat))}
    (hkinds : List.Forall₂ IsKind ns ks) (hsorted : ns.Pairwise (· > ·)) (hmem : some v ∈ ks) :
    v ≤ (ks.findSome? id).getD [] := by
  induction hkinds with
  | nil => cases hmem
  | @cons n kind ns ks hkind hkinds ih =>
    obtain ⟨hhead, hsorted⟩ := List.pairwise_cons.1 hsorted
    cases kind with
    | none => exact ih hsorted (by simpa using hmem)
    | some w =>
      rw [List.findSome?_cons]
      show v ≤ w
      rcases List.mem_cons.1 hmem with heq | hmem
      · exact (Option.some.inj heq).le
      · obtain ⟨i, hi, hget⟩ := List.mem_iff_getElem.1 hmem
        have hrank := List.forall₂_iff_get.1 hkinds
        have hn := hrank.2 i (by rw [hrank.1]; exact hi) hi v (by simpa using hget)
        exact le_of_head_lt hn (hkind w rfl) (hhead _ (List.get_mem ..))

theorem forall₂_kinds (cards : List Card) :
    List.Forall₂ IsKind [8, 7, 6, 5, 4, 3, 2, 1, 0] (kinds cards) := by
  refine .cons ?_ (.cons ?_ (.cons ?_ (.cons ?_ (.cons ?_ (.cons ?_ (.cons ?_ (.cons ?_ (.cons ?_
    .nil)))))))) <;> intro v hv
  · obtain ⟨high, -, rfl⟩ := Option.map_eq_some_iff.1 hv
    rfl
  · obtain ⟨quad, -, rfl⟩ := Option.map_eq_some_iff.1 hv
    rfl
  · simp only [fullHouse?, Option.bind_eq_bind, Option.bind_eq_some_iff] at hv
    obtain ⟨trip, -, pair, -, hv⟩ := hv
    cases hv
    rfl
  · obtain ⟨suit, -, rfl⟩ := Option.map_eq_some_iff.1 hv
    rfl
  · obtain ⟨high, -, rfl⟩ := Option.map_eq_some_iff.1 hv
    rfl
  · obtain ⟨trip, -, rfl⟩ := Option.map_eq_some_iff.1 hv
    rfl
  · unfold twoPair? at hv
    split at hv
    · cases hv
      rfl
    · cases hv
  · obtain ⟨pair, -, rfl⟩ := Option.map_eq_some_iff.1 hv
    rfl
  · cases hv
    rfl

theorem le_sevenCardValue (h : some v ∈ kinds cards) (hle : w ≤ v) : w ≤ sevenCardValue cards :=
  hle.trans (le_findSome (forall₂_kinds cards) (by decide) h)

/-! ## The seven make every kind that five of them make -/

theorem pairwise_sortedDown (xs : List Nat) : (sortedDown xs).Pairwise (· ≥ ·) :=
  List.pairwise_insertionSort _ xs

theorem mem_sortedDown {xs : List Nat} : r ∈ sortedDown xs ↔ r ∈ xs := List.mem_insertionSort _

theorem mem_atLeast (hn : 0 < n) : r ∈ atLeast n ranks ↔ n ≤ ranks.count r := by
  simp only [atLeast, mem_sortedDown, List.mem_filter, List.mem_dedup, decide_eq_true_eq,
    and_iff_right_iff_imp]
  exact fun h => List.count_pos_iff.1 (hn.trans_le h)

theorem mem_otherRanks {kept : List Nat} : r ∈ otherRanks ranks kept ↔ r ∈ ranks ∧ r ∉ kept := by
  simp [otherRanks]

theorem le_largest {xs : List Nat} (h : r ∈ xs) : r ≤ largest xs := le_foldl_max h

/-- The head of a descending list is the greatest. -/
theorem exists_head {xs : List Nat} (hsorted : xs.Pairwise (· ≥ ·)) (h : r ∈ xs) :
    ∃ b, xs.head? = some b ∧ r ≤ b := by
  cases xs with
  | nil => cases h
  | cons b xs =>
    refine ⟨b, rfl, ?_⟩
    rcases List.mem_cons.1 h with rfl | h
    · exact le_rfl
    · exact (List.pairwise_cons.1 hsorted).1 r h

theorem exists_head_atLeast (hn : 0 < n) (h : n ≤ ranks.count r) :
    ∃ b, (atLeast n ranks).head? = some b ∧ r ≤ b :=
  exists_head (pairwise_sortedDown _) ((mem_atLeast hn).2 h)

theorem exists_quads {k : Nat} (hq : 4 ≤ ranks.count q) (hk : k ∈ ranks) (hne : k ≠ q) :
    ∃ v, quads? ranks = some v ∧ [7, q, k] ≤ v := by
  obtain ⟨quad, hquad, hle⟩ := exists_head_atLeast (by omega) hq
  refine ⟨_, by rw [quads?, hquad]; rfl, ?_⟩
  refine List.cons_le_cons _ ?_
  rcases hle.lt_or_eq with hlt | rfl
  · exact cons_le_of_lt hlt
  · refine List.cons_le_cons _ (le_of_forall₂ (.cons ?_ .nil))
    exact le_largest (mem_otherRanks.2 ⟨hk, by simpa using hne⟩)

theorem exists_fullHouse {p : Nat} (hq : 3 ≤ ranks.count q) (hp : 2 ≤ ranks.count p) (hne : p ≠ q) :
    ∃ v, fullHouse? ranks = some v ∧ [6, q, p] ≤ v := by
  obtain ⟨trip, htrip, hle⟩ := exists_head_atLeast (by omega) hq
  have hsorted : ((atLeast 2 ranks).filter (· ≠ trip)).Pairwise (· ≥ ·) :=
    (pairwise_sortedDown _).filter _
  have hmem : ∀ r, 2 ≤ ranks.count r → r ≠ trip → r ∈ (atLeast 2 ranks).filter (· ≠ trip) :=
    fun r hr hne => List.mem_filter.2 ⟨(mem_atLeast (by omega)).2 hr, by simpa using hne⟩
  have hmade : ∀ pair, ((atLeast 2 ranks).filter (· ≠ trip)).head? = some pair →
      fullHouse? ranks = some [6, trip, pair] := fun pair hpair => by
    simp only [fullHouse?, htrip, hpair, Option.bind_eq_bind, Option.bind_some]
    rfl
  rcases hle.lt_or_eq with hlt | rfl
  · obtain ⟨pair, hpair, -⟩ := exists_head hsorted (hmem q (by omega) hlt.ne)
    exact ⟨_, hmade pair hpair, List.cons_le_cons _ (cons_le_of_lt hlt)⟩
  · obtain ⟨pair, hpair, hle⟩ := exists_head hsorted (hmem p hp hne)
    refine ⟨_, hmade pair hpair, ?_⟩
    exact List.cons_le_cons _ (List.cons_le_cons _ (le_of_forall₂ (.cons hle .nil)))

/-- The best of the other ranks are at least those of a part. -/
theorem others_le_take {kept : List Nat} (h : m.Subperm ranks) (hsorted : v.Pairwise (· ≥ ·))
    (hv : otherRanks m kept = v) : v ≤ (sortedDown (otherRanks ranks kept)).take v.length := by
  have hle := insertionSort_le_take (h.filter fun r => r ∉ kept)
  rw [← hv] at hsorted ⊢
  rwa [← otherRanks, hsorted.insertionSort_eq] at hle

theorem exists_trips {a b : Nat} (hm : [q, q, q, a, b].Subperm ranks) (hab : b ≤ a) (ha : a ≠ q)
    (hb : b ≠ q) : ∃ v, trips? ranks = some v ∧ [3, q, a, b] ≤ v := by
  have hq : 3 ≤ ranks.count q := by
    have := hm.count_le q
    simp at this
    omega
  obtain ⟨trip, htrip, hle⟩ := exists_head_atLeast (by omega) hq
  refine ⟨_, by rw [trips?, htrip]; rfl, List.cons_le_cons _ ?_⟩
  rcases hle.lt_or_eq with hlt | rfl
  · exact cons_le_of_lt hlt
  · refine List.cons_le_cons _ ?_
    exact others_le_take hm (v := [a, b]) (by simpa using hab) (by simp [otherRanks, ha, hb])

theorem exists_onePair {p a b c : Nat} (hm : [p, p, a, b, c].Subperm ranks) (hab : b ≤ a)
    (hbc : c ≤ b) (ha : a ≠ p) (hb : b ≠ p) (hc : c ≠ p) :
    ∃ v, onePair? ranks = some v ∧ [1, p, a, b, c] ≤ v := by
  have hp : 2 ≤ ranks.count p := by
    have := hm.count_le p
    simp at this
    omega
  obtain ⟨pair, hpair, hle⟩ := exists_head_atLeast (by omega) hp
  refine ⟨_, by rw [onePair?, hpair]; rfl, List.cons_le_cons _ ?_⟩
  rcases hle.lt_or_eq with hlt | rfl
  · exact cons_le_of_lt hlt
  · refine List.cons_le_cons _ ?_
    exact others_le_take hm (v := [a, b, c]) (by simp [hab, hbc, hbc.trans hab])
      (by simp [otherRanks, ha, hb, hc])

theorem exists_twoPair {p k : Nat} (hp : 2 ≤ ranks.count p) (hq : 2 ≤ ranks.count q) (hpq : q < p)
    (hk : k ∈ ranks) (hkp : k ≠ p) (hkq : k ≠ q) :
    ∃ v, twoPair? ranks = some v ∧ [2, p, q, k] ≤ v := by
  have hsub : [p, q].Sublist (atLeast 2 ranks) := by
    refine List.sublist_of_subperm_of_pairwise (r := (· ≥ ·)) ?_ (by simp [hpq.le])
      (pairwise_sortedDown _)
    refine List.Nodup.subperm (by simp [hpq.ne']) fun r hr => ?_
    rcases List.mem_cons.1 hr with rfl | hr
    · exact (mem_atLeast (by omega)).2 hp
    · rw [List.mem_singleton.1 hr]
      exact (mem_atLeast (by omega)).2 hq
  have hbest := forall₂_take_of_sublist (pairwise_sortedDown _) hsub
  have hlength := hsub.length_le
  unfold twoPair?
  change List.Forall₂ (· ≤ ·) [p, q] ((atLeast 2 ranks).take 2) at hbest
  rcases hpairs : atLeast 2 ranks with _ | ⟨high, _ | ⟨low, rest⟩⟩
  · simp [hpairs] at hlength
  · simp [hpairs] at hlength
  · rw [hpairs] at hbest
    obtain ⟨hhigh, hlow⟩ := List.forall₂_cons.1 hbest
    obtain ⟨hlow, -⟩ := List.forall₂_cons.1 hlow
    refine ⟨_, rfl, List.cons_le_cons _ ?_⟩
    rcases hhigh.lt_or_eq with hlt | rfl
    · exact cons_le_of_lt hlt
    · refine List.cons_le_cons _ ?_
      rcases hlow.lt_or_eq with hlt | rfl
      · exact cons_le_of_lt hlt
      · refine List.cons_le_cons _ (le_of_forall₂ (.cons ?_ .nil))
        exact le_largest (mem_otherRanks.2 ⟨hk, by simp [hkp, hkq]⟩)

theorem le_highCard (hm : m.Subperm ranks) (hlength : m.length = 5) :
    0 :: sortedDown m ≤ highCard ranks := by
  have hle := insertionSort_le_take hm
  rw [hlength] at hle
  exact List.cons_le_cons _ hle

/-- Two suits cannot both have five of seven cards. -/
theorem suit_unique (hcards : cards.length = 7) {suit suit' : Fin 4}
    (h : 5 ≤ (suited cards suit).length) (h' : 5 ≤ (suited cards suit').length) : suit = suit' := by
  by_contra hne
  simp only [suited, List.length_map] at h h'
  have hsum := List.length_eq_length_filter_add (l := cards) fun card => decide (card.suit = suit)
  have hother : (cards.filter fun card => decide (card.suit = suit')).length ≤
      (cards.filter fun card => !decide (card.suit = suit)).length := by
    refine (List.monotone_filter_right cards fun card hcard => ?_).length_le
    have heq : card.suit = suit' := of_decide_eq_true hcard
    simp [heq, Ne.symm hne]
  omega

theorem exists_flush (hcards : cards.length = 7) {suit : Fin 4} (hm : m.Subperm (suited cards suit))
    (hlength : m.length = 5) : ∃ v, flush? cards = some v ∧ 5 :: sortedDown m ≤ v := by
  have hfive : 5 ≤ (suited cards suit).length := hlength ▸ hm.length_le
  have hfind : (List.finRange 4).find? (fun suit => 5 ≤ (suited cards suit).length) = some suit := by
    cases hfound : (List.finRange 4).find? (fun suit => 5 ≤ (suited cards suit).length) with
    | none =>
      have := List.find?_eq_none.1 hfound suit (List.mem_finRange suit)
      exact absurd (decide_eq_true hfive) this
    | some suit' =>
      have hsuit' := List.find?_some hfound
      rw [suit_unique hcards (of_decide_eq_true hsuit') hfive]
  refine ⟨_, by rw [flush?, hfind]; rfl, List.cons_le_cons _ ?_⟩
  have hle := insertionSort_le_take hm
  rwa [hlength] at hle

/-- More ranks make a straight at least as high. -/
theorem highestStraight_mono {high : Nat} (h : highestStraight m = some high) (hsub : m ⊆ ranks) :
    ∃ high', highestStraight ranks = some high' ∧ high ≤ high' := by
  obtain ⟨hlow, hhigh, hall⟩ := highestStraight_some h
  exact exists_highestStraight hlow hhigh fun r hr => hsub (hall r hr)

theorem exists_straight {high : Nat} (h : highestStraight m = some high) (hsub : m ⊆ ranks) :
    ∃ v, straight? ranks = some v ∧ [4, high] ≤ v := by
  obtain ⟨high', hhigh, hle⟩ := highestStraight_mono h hsub
  exact ⟨_, by rw [straight?, hhigh]; rfl, List.cons_le_cons _ (le_of_forall₂ (.cons hle .nil))⟩

theorem exists_straightFlush {high : Nat} {suit : Fin 4} (h : highestStraight m = some high)
    (hsub : m ⊆ suited cards suit) : ∃ v, straightFlush? cards = some v ∧ [8, high] ≤ v := by
  obtain ⟨high', hhigh, hle⟩ := highestStraight_mono h hsub
  have hmem : high' ∈ (List.finRange 4).filterMap fun suit => highestStraight (suited cards suit) :=
    List.mem_filterMap.2 ⟨suit, List.mem_finRange suit, hhigh⟩
  obtain ⟨best, hbest, hle'⟩ := exists_head (pairwise_sortedDown _) (mem_sortedDown.2 hmem)
  exact ⟨_, by rw [straightFlush?, hbest]; rfl,
    List.cons_le_cons _ (le_of_forall₂ (.cons (hle.trans hle') .nil))⟩

end

/-! ## Five of the seven are worth no more -/

section

variable {cards five : List Card} {v : List Nat}

theorem areRanks_map (cards : List Card) : AreRanks (cards.map rankValue) := by
  intro r hr
  obtain ⟨card, -, rfl⟩ := List.mem_map.1 hr
  have := card.rank.isLt
  unfold rankValue
  omega

/-- A card is its rank and its suit. -/
theorem card_eq {card card' : Card} (hrank : rankValue card = rankValue card')
    (hsuit : card.suit = card'.suit) : card = card' := by
  obtain ⟨rank, suit⟩ := card
  obtain ⟨rank', suit'⟩ := card'
  obtain rfl : suit = suit' := hsuit
  simp only [rankValue, Nat.add_right_cancel_iff] at hrank
  rw [Fin.ext hrank]

/-- There are four cards of a rank. -/
theorem count_rank_le (hnodup : cards.Nodup) (r : Nat) : (cards.map rankValue).count r ≤ 4 := by
  rw [List.count_eq_length_filter, List.filter_map, List.length_map]
  have hsuits : ((cards.filter ((fun x => x == r) ∘ rankValue)).map (·.suit)).Nodup := by
    refine (hnodup.filter _).map_on fun card hcard card' hcard' hsuit => card_eq ?_ hsuit
    have hrank := (List.mem_filter.1 hcard).2
    have hrank' := (List.mem_filter.1 hcard').2
    simp only [Function.comp_apply, beq_iff_eq] at hrank hrank'
    rw [hrank, hrank']
  simpa using List.Nodup.length_le_card hsuits

/-- Different cards of one suit have different ranks. -/
theorem nodup_ranks (hnodup : cards.Nodup) {suit : Fin 4} (hsuit : ∀ card ∈ cards, card.suit = suit) :
    (cards.map rankValue).Nodup :=
  hnodup.map_on fun card hcard card' hcard' hrank =>
    card_eq hrank ((hsuit card hcard).trans (hsuit card' hcard').symm)

theorem suit_of_flush (h : (cards.map (·.suit)).dedup.length = 1) :
    ∃ suit, ∀ card ∈ cards, card.suit = suit := by
  obtain ⟨suit, hsuit⟩ := List.length_eq_one_iff.1 h
  refine ⟨suit, fun card hcard => ?_⟩
  have hmem : card.suit ∈ (cards.map (·.suit)).dedup :=
    List.mem_dedup.2 (List.mem_map_of_mem (f := fun card : Card => card.suit) hcard)
  rwa [hsuit, List.mem_singleton] at hmem

/-- Cards with a rank twice are no flush. -/
theorem fiveCardRank_repeated (hnodup : five.Nodup) (h : ¬ (five.map rankValue).Nodup) :
    fiveCardRank five = handTuple false (five.map rankValue) := by
  have hflush : ¬ (five.map (·.suit)).dedup.length = 1 := fun hone => by
    obtain ⟨suit, hsuit⟩ := suit_of_flush hone
    exact h (nodup_ranks hnodup hsuit)
  rw [fiveCardRank, decide_eq_false hflush]

/-- Five ranks of some cards are among all of them. -/
theorem subperm_ranks (hsub : five.Sublist cards) : (five.map rankValue).Subperm (cards.map rankValue) :=
  (hsub.map rankValue).subperm

theorem subperm_suited (hsub : five.Sublist cards) {suit : Fin 4}
    (hsuit : ∀ card ∈ five, card.suit = suit) : (five.map rankValue).Subperm (suited cards suit) := by
  have hfilter := (hsub.filter fun card => decide (card.suit = suit)).map rankValue
  rw [List.filter_eq_self.2 fun card hcard => decide_eq_true (hsuit card hcard)] at hfilter
  exact hfilter.subperm

section

variable (hcards : cards.Nodup) (hlength : cards.length = 7) (hsub : five.Sublist cards)
  (hfive : five.length = 5)
include hlength hsub hfive

/-- Five cards of different ranks make a straight flush, a flush, a straight or nothing. -/
theorem fiveCardRank_distinct_le (hnodup : (five.map rankValue).Nodup) :
    fiveCardRank five ≤ sevenCardValue cards := by
  have hranks := areRanks_map five
  have hm := subperm_ranks hsub
  have hcount : (five.map rankValue).length = 5 := by rw [List.length_map, hfive]
  rw [fiveCardRank, handTuple_distinct hranks _ hnodup hcount]
  by_cases hflush : (five.map (·.suit)).dedup.length = 1
  · obtain ⟨suit, hsuit⟩ := suit_of_flush hflush
    have hsuited := subperm_suited hsub hsuit
    rw [decide_eq_true hflush]
    cases hstraight : highestStraight (five.map rankValue) with
    | some high =>
      obtain ⟨v, hv, hle⟩ := exists_straightFlush hstraight hsuited.subset
      exact le_sevenCardValue (by simp [kinds, hv]) hle
    | none =>
      obtain ⟨v, hv, hle⟩ := exists_flush hlength hsuited hcount
      exact le_sevenCardValue (by simp [kinds, hv]) hle
  · rw [decide_eq_false hflush]
    cases hstraight : highestStraight (five.map rankValue) with
    | some high =>
      obtain ⟨v, hv, hle⟩ := exists_straight hstraight hm.subset
      exact le_sevenCardValue (by simp [kinds, hv]) hle
    | none => exact le_sevenCardValue (by simp [kinds]) (le_highCard hm hcount)

include hcards in
theorem fiveCardRank_le : fiveCardRank five ≤ sevenCardValue cards := by
  have hranks := areRanks_map five
  have hm := subperm_ranks hsub
  have hrepeated := fiveCardRank_repeated (hsub.nodup hcards)
  have hcount : (five.map rankValue).length = 5 := by rw [List.length_map, hfive]
  have hle : ∀ {n r : Nat} {shape : List Nat}, (five.map rankValue).Perm shape → n ≤ shape.count r →
      n ≤ (cards.map rankValue).count r := fun hperm hr =>
    hr.trans (hperm.count_eq _ ▸ hm.count_le _)
  cases shape_of_length hcount (count_rank_le (hsub.nodup hcards)) with
  | @quads q k hk hperm =>
    rw [hrepeated (by simp [hperm.nodup_iff]), handTuple_quads hranks hk hperm]
    obtain ⟨v, hv, hle⟩ := exists_quads (hle hperm (by simp))
      (hm.subset (hperm.mem_iff.2 (by simp : k ∈ _))) hk
    exact le_sevenCardValue (by simp [kinds, hv]) hle
  | @fullHouse q p hp hperm =>
    rw [hrepeated (by simp [hperm.nodup_iff]), handTuple_fullHouse hranks hp hperm]
    obtain ⟨v, hv, hle⟩ := exists_fullHouse (hle hperm (by simp)) (hle hperm (by simp [hp.symm])) hp
    exact le_sevenCardValue (by simp [kinds, hv]) hle
  | @trips q a b hab ha hb hperm =>
    rw [hrepeated (by simp [hperm.nodup_iff]), handTuple_trips hranks hab ha hb hperm]
    obtain ⟨v, hv, hle⟩ := exists_trips (hperm.symm.subperm.trans hm) hab.le ha hb
    exact le_sevenCardValue (by simp [kinds, hv]) hle
  | @twoPair p q k hpq hp hq hperm =>
    rw [hrepeated (by simp [hperm.nodup_iff]), handTuple_twoPair hranks hpq hp hq hperm]
    obtain ⟨v, hv, hle⟩ := exists_twoPair (hle hperm (by simp)) (hle hperm (by simp [hpq.ne'])) hpq
      (hm.subset (hperm.mem_iff.2 (by simp : k ∈ _))) hp hq
    exact le_sevenCardValue (by simp [kinds, hv]) hle
  | @onePair p a b c hab hbc ha hb hc hperm =>
    rw [hrepeated (by simp [hperm.nodup_iff]), handTuple_onePair hranks hab hbc ha hb hc hperm]
    obtain ⟨v, hv, hle⟩ := exists_onePair (hperm.symm.subperm.trans hm) hab.le hbc.le ha hb hc
    exact le_sevenCardValue (by simp [kinds, hv]) hle
  | distinct hnodup => exact fiveCardRank_distinct_le hlength hsub hfive hnodup

end

end

end PokerDeliberation.Equity
