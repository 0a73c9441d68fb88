import Mathlib.Algebra.BigOperators.Field
import Mathlib.Algebra.BigOperators.Group.Finset.Basic
import Mathlib.Algebra.Order.BigOperators.Ring.Finset
import Mathlib.Algebra.Order.Field.Basic
import Mathlib.Algebra.Order.Ring.Defs
import Mathlib.Tactic.FieldSimp
import Mathlib.Tactic.GCongr
import Mathlib.Tactic.Linarith
import Mathlib.Tactic.Positivity
import Mathlib.Tactic.Ring

/-!
# Prizes by weighted finishing orders

Players finish one after another; whoever is still in takes the next place with
probability proportional to his weight. `expected w prizes s i` is what player
`i` of `s` takes of `prizes` on average. The prizes are shared out in full,
renaming the players renames the shares, and with falling prizes a heavier
player takes at least as much as a lighter one. The last fact is an exchange
argument: `own` is the share of one player against a fixed field, as a function
of his weight, and it grows with the weight.
-/

namespace PokerDeliberation.Lib.Finishing

variable {ι ι' K : Type*} [DecidableEq ι] [DecidableEq ι'] [Field K]

def expected (w : ι → K) : List K → Finset ι → ι → K
  | [], _, _ => 0
  | prize :: prizes, s, i =>
    ∑ j ∈ s, w j / (∑ k ∈ s, w k) * ((if i = j then prize else 0) + expected w prizes (s.erase j) i)

/-- What a player of weight `x` takes against the field `t`. -/
def own (w : ι → K) : List K → Finset ι → K → K
  | [], _, _ => 0
  | prize :: prizes, t, x =>
    x / (x + ∑ k ∈ t, w k) * prize +
      ∑ j ∈ t, w j / (x + ∑ k ∈ t, w k) * own w prizes (t.erase j) x

variable {w : ι → K} {prizes : List K} {prize : K} {s t : Finset ι} {i j a b : ι}

theorem expected_of_notMem (hi : i ∉ s) : expected w prizes s i = 0 := by
  induction prizes generalizing s with
  | nil => rfl
  | cons prize prizes ih =>
    refine Finset.sum_eq_zero fun j hj => ?_
    have hne : i ≠ j := fun h => hi (h ▸ hj)
    rw [if_neg hne, ih fun h => hi (Finset.mem_of_mem_erase h), add_zero, mul_zero]

/-- Renaming the players renames the shares. -/
theorem expected_map (σ : ι ≃ ι') (w : ι' → K) (prizes : List K) (s : Finset ι) (i : ι) :
    expected w prizes (s.map σ.toEmbedding) (σ i) = expected (w ∘ σ) prizes s i := by
  induction prizes generalizing s with
  | nil => rfl
  | cons prize prizes ih =>
    simp only [expected, Finset.sum_map, Equiv.coe_toEmbedding, Function.comp_apply,
      EmbeddingLike.apply_eq_iff_eq]
    refine Finset.sum_congr rfl fun j _ => ?_
    have herase : (s.map σ.toEmbedding).erase (σ j) = (s.erase j).map σ.toEmbedding := by
      ext x
      simp only [Finset.mem_erase, Finset.mem_map_equiv, ne_eq, Equiv.symm_apply_eq]
    rw [herase, ih]

theorem expected_insert (hi : i ∉ t) : expected w prizes (insert i t) i = own w prizes t (w i) := by
  induction prizes generalizing t with
  | nil => rfl
  | cons prize prizes ih =>
    have hout : expected w prizes t i = 0 := expected_of_notMem hi
    simp only [expected, own, Finset.sum_insert hi, if_true, Finset.erase_insert hi, hout, add_zero]
    congr 1
    refine Finset.sum_congr rfl fun j hj => ?_
    have hne : i ≠ j := fun h => hi (h ▸ hj)
    rw [if_neg hne, zero_add, Finset.erase_insert_of_ne hne,
      ih fun h => hi (Finset.mem_of_mem_erase h)]

theorem own_cons (x : K) : own w (prize :: prizes) t x =
    (x * prize + ∑ j ∈ t, w j * own w prizes (t.erase j) x) / (x + ∑ k ∈ t, w k) := by
  simp only [own, add_div, Finset.sum_div]
  congr 1
  · ring
  · exact Finset.sum_congr rfl fun j _ => by ring

theorem expected_cons (hi : i ∈ s) : expected w (prize :: prizes) s i =
    (w i * prize + ∑ j ∈ s.erase i, w j * expected w prizes (s.erase j) i) / ∑ k ∈ s, w k := by
  have hown : expected w prizes (s.erase i) i = 0 := expected_of_notMem (Finset.notMem_erase i s)
  rw [expected, ← Finset.add_sum_erase s _ hi, if_pos rfl, hown, add_zero, add_div,
    Finset.sum_div]
  congr 1
  · ring
  · refine Finset.sum_congr rfl fun j hj => ?_
    rw [if_neg (Finset.ne_of_mem_erase hj).symm]
    ring

variable [LinearOrder K] [IsStrictOrderedRing K]

/-- The prizes for which there are players are shared out in full. -/
theorem sum_expected (hw : ∀ j ∈ s, 0 < w j) :
    ∑ i ∈ s, expected w prizes s i = (prizes.take s.card).sum := by
  induction prizes generalizing s with
  | nil => simp [expected]
  | cons prize prizes ih =>
    obtain rfl | hs := s.eq_empty_or_nonempty
    · simp
    have htotal : ∑ k ∈ s, w k ≠ 0 := (Finset.sum_pos hw hs).ne'
    have hround : ∀ j ∈ s, ∑ i ∈ s, ((if i = j then prize else 0) +
        expected w prizes (s.erase j) i) = prize + (prizes.take (s.card - 1)).sum := by
      intro j hj
      rw [Finset.sum_add_distrib, Finset.sum_ite_eq' s j, if_pos hj,
        ← Finset.add_sum_erase s _ hj, expected_of_notMem (Finset.notMem_erase j s), zero_add,
        ih fun k hk => hw k (Finset.mem_of_mem_erase hk), Finset.card_erase_of_mem hj]
    have hcard : s.card = s.card - 1 + 1 := (Nat.sub_add_cancel hs.card_pos).symm
    calc ∑ i ∈ s, expected w (prize :: prizes) s i
        = ∑ j ∈ s, ∑ i ∈ s, w j / (∑ k ∈ s, w k) *
            ((if i = j then prize else 0) + expected w prizes (s.erase j) i) := Finset.sum_comm
      _ = ∑ j ∈ s, w j / (∑ k ∈ s, w k) * (prize + (prizes.take (s.card - 1)).sum) :=
          Finset.sum_congr rfl fun j hj => by rw [← Finset.mul_sum, hround j hj]
      _ = prize + (prizes.take (s.card - 1)).sum := by
          rw [← Finset.sum_mul, ← Finset.sum_div, div_self htotal, one_mul]
      _ = ((prize :: prizes).take s.card).sum := by
          conv_rhs => rw [hcard, List.take_succ_cons, List.sum_cons]

theorem expected_nonneg (hw : ∀ j ∈ s, 0 ≤ w j) (hprizes : ∀ p ∈ prizes, 0 ≤ p) :
    0 ≤ expected w prizes s i := by
  induction prizes generalizing s with
  | nil => exact le_rfl
  | cons prize prizes ih =>
    refine Finset.sum_nonneg fun j hj => mul_nonneg ?_ (add_nonneg ?_ ?_)
    · exact div_nonneg (hw j hj) (Finset.sum_nonneg hw)
    · split
      · exact hprizes prize List.mem_cons_self
      · exact le_rfl
    · exact ih (fun k hk => hw k (Finset.mem_of_mem_erase hk))
        fun p hp => hprizes p (List.mem_cons_of_mem _ hp)

/-- The prizes fall and none is negative. -/
def Falling (prizes : List K) : Prop := prizes.Pairwise (· ≥ ·) ∧ ∀ p ∈ prizes, 0 ≤ p

omit [IsStrictOrderedRing K] in
theorem Falling.tail (h : Falling (prize :: prizes)) : Falling prizes :=
  ⟨(List.pairwise_cons.1 h.1).2, fun p hp => h.2 p (List.mem_cons_of_mem _ hp)⟩

/-- Nobody takes more than the largest prize. -/
theorem own_le {x : K} (hx : 0 < x) (hw : ∀ j ∈ t, 0 ≤ w j) {most : K} (hmost : 0 ≤ most)
    (hprizes : ∀ p ∈ prizes, p ≤ most) : own w prizes t x ≤ most := by
  induction prizes generalizing t with
  | nil => exact hmost
  | cons prize prizes ih =>
    have hfield : 0 ≤ ∑ k ∈ t, w k := Finset.sum_nonneg hw
    have hrest : ∑ j ∈ t, w j * own w prizes (t.erase j) x ≤ (∑ j ∈ t, w j) * most := by
      rw [Finset.sum_mul]
      refine Finset.sum_le_sum fun j hj => mul_le_mul_of_nonneg_left ?_ (hw j hj)
      exact ih (fun k hk => hw k (Finset.mem_of_mem_erase hk))
        fun p hp => hprizes p (List.mem_cons_of_mem _ hp)
    have hfirst : x * prize ≤ x * most :=
      mul_le_mul_of_nonneg_left (hprizes prize List.mem_cons_self) hx.le
    rw [own_cons, div_le_iff₀ (by linarith)]
    linarith

/-- A heavier player takes no less against the same field. -/
theorem own_mono {x y : K} (hx : 0 < x) (hxy : x ≤ y) (hw : ∀ j ∈ t, 0 ≤ w j)
    (hprizes : Falling prizes) : own w prizes t x ≤ own w prizes t y := by
  induction prizes generalizing t with
  | nil => exact le_rfl
  | cons prize prizes ih =>
    have hw' : ∀ j, ∀ k ∈ t.erase j, 0 ≤ w k := fun j k hk => hw k (Finset.mem_of_mem_erase hk)
    have hfield : 0 ≤ ∑ k ∈ t, w k := Finset.sum_nonneg hw
    -- what is left when somebody else comes first: more for `y`, and never more than the first prize
    have hrest : ∑ j ∈ t, w j * own w prizes (t.erase j) x ≤
        ∑ j ∈ t, w j * own w prizes (t.erase j) y :=
      Finset.sum_le_sum fun j hj => mul_le_mul_of_nonneg_left (ih (hw' j) hprizes.tail) (hw j hj)
    have hmost : ∑ j ∈ t, w j * own w prizes (t.erase j) y ≤ (∑ j ∈ t, w j) * prize := by
      rw [Finset.sum_mul]
      refine Finset.sum_le_sum fun j hj => mul_le_mul_of_nonneg_left ?_ (hw j hj)
      exact own_le (hx.trans_le hxy) (hw' j) (hprizes.2 prize List.mem_cons_self)
        (List.pairwise_cons.1 hprizes.1).1
    rw [own_cons, own_cons, div_le_div_iff₀ (by linarith) (by linarith)]
    generalize ∑ k ∈ t, w k = field at *
    generalize ∑ j ∈ t, w j * own w prizes (t.erase j) x = restx at *
    generalize ∑ j ∈ t, w j * own w prizes (t.erase j) y = resty at *
    have hgain : 0 ≤ (y - x) * (field * prize - resty) :=
      mul_nonneg (sub_nonneg.2 hxy) (sub_nonneg.2 hmost)
    have hscaled : restx * (y + field) ≤ resty * (y + field) :=
      mul_le_mul_of_nonneg_right hrest (by linarith)
    calc (x * prize + restx) * (y + field)
        ≤ x * prize * (y + field) + resty * (y + field) := by linarith
      _ ≤ (y * prize + resty) * (x + field) := by linarith

/-- With falling prizes a heavier player takes no less than a lighter one. -/
theorem expected_mono (hw : ∀ j ∈ s, 0 < w j) (hprizes : Falling prizes) (ha : a ∈ s) (hb : b ∈ s)
    (hab : w a ≤ w b) : expected w prizes s a ≤ expected w prizes s b := by
  induction prizes generalizing s with
  | nil => exact le_rfl
  | cons prize prizes ih =>
    by_cases hne : a = b
    · rw [hne]
    have hb' : b ∈ s.erase a := Finset.mem_erase.2 ⟨Ne.symm hne, hb⟩
    have ha' : a ∈ s.erase b := Finset.mem_erase.2 ⟨hne, ha⟩
    have hpos : 0 < ∑ k ∈ s, w k := Finset.sum_pos hw ⟨a, ha⟩
    -- somebody else comes first
    have hothers : ∑ j ∈ (s.erase a).erase b, w j * expected w prizes (s.erase j) a ≤
        ∑ j ∈ (s.erase a).erase b, w j * expected w prizes (s.erase j) b := by
      refine Finset.sum_le_sum fun j hj => ?_
      obtain ⟨hjb, hja, hjs⟩ : j ≠ b ∧ j ≠ a ∧ j ∈ s := by simpa using hj
      refine mul_le_mul_of_nonneg_left ?_ (hw j hjs).le
      exact ih (fun k hk => hw k (Finset.mem_of_mem_erase hk)) hprizes.tail
        (Finset.mem_erase.2 ⟨hja.symm, ha⟩) (Finset.mem_erase.2 ⟨hjb.symm, hb⟩)
    -- one of the two comes first, and the other stays against the same field
    have hfield : ∀ j ∈ (s.erase a).erase b, 0 ≤ w j := fun j hj =>
      (hw j (Finset.mem_of_mem_erase (Finset.mem_of_mem_erase hj))).le
    have hstaysa : expected w prizes (s.erase b) a = own w prizes ((s.erase a).erase b) (w a) := by
      rw [← Finset.insert_erase ha', Finset.erase_right_comm,
        expected_insert (by simp)]
    have hstaysb : expected w prizes (s.erase a) b = own w prizes ((s.erase a).erase b) (w b) := by
      rw [← Finset.insert_erase hb', expected_insert (by simp), Finset.insert_erase hb']
    have hmono : expected w prizes (s.erase b) a ≤ expected w prizes (s.erase a) b := by
      rw [hstaysa, hstaysb]
      exact own_mono (hw a ha) hab hfield hprizes.tail
    have hmost : expected w prizes (s.erase b) a ≤ prize := by
      rw [hstaysa]
      exact own_le (hw a ha) hfield (hprizes.2 prize List.mem_cons_self)
        (List.pairwise_cons.1 hprizes.1).1
    rw [expected_cons ha, expected_cons hb, ← Finset.add_sum_erase _ _ hb',
      ← Finset.add_sum_erase _ _ ha', Finset.erase_right_comm (a := b)]
    refine div_le_div_of_nonneg_right ?_ hpos.le
    have hexchange : 0 ≤ (w b - w a) * (prize - expected w prizes (s.erase b) a) :=
      mul_nonneg (sub_nonneg.2 hab) (sub_nonneg.2 hmost)
    have hscaled : w a * expected w prizes (s.erase b) a ≤ w a * expected w prizes (s.erase a) b :=
      mul_le_mul_of_nonneg_left hmono (hw a ha).le
    linarith

end PokerDeliberation.Lib.Finishing
