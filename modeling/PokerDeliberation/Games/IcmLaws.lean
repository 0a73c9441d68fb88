import PokerDeliberation.Games.Icm
import PokerDeliberation.Lib.Finishing
import Mathlib.Algebra.BigOperators.Fin
import Mathlib.Data.Fin.VecNotation

/-!
# Laws of the Independent Chip Model

The recursion over the players that remain computes the expected prizes of the
weighted finishing orders of the active players. What holds of those holds of
the equities.
-/

namespace PokerDeliberation.Games

open Lib Lib.Finishing

section

variable {n : Nat} {stack : Fin n → ℚ} {payouts : List ℚ} {remaining : List (Fin n)}
  {result : ICMResult n} {i j : Fin n}

theorem foldl_accumulate {α ι : Type} (f g : α → ι → ℚ) (xs : List α) (start : ι → ℚ) (i : ι) :
    (xs.foldl (fun result x index => (result index + f x index) + g x index) start) i =
      start i + (xs.map fun x => f x i + g x i).sum := by
  induction xs generalizing start with
  | nil => simp
  | cons x xs ih =>
    rw [List.foldl_cons, ih, List.map_cons, List.sum_cons]
    ring

theorem recurse_eq_expected (hnodup : remaining.Nodup) (hpos : ∀ i ∈ remaining, 0 < stack i) :
    recurse stack payouts remaining i = expected stack payouts remaining.toFinset i := by
  induction payouts generalizing remaining with
  | nil => rfl
  | cons payout payouts ih =>
    have htotal : (remaining.map stack).sum = ∑ k ∈ remaining.toFinset, stack k :=
      (List.sum_toFinset stack hnodup).symm
    rw [recurse]
    split
    · rename_i hstop
      have hempty : remaining = [] := by
        by_contra hne
        have hsum : 0 < (remaining.map stack).sum :=
          List.sum_pos _ (by simpa using hpos) (by simpa using hne)
        exact absurd (hstop.resolve_left hne) hsum.not_ge
      subst hempty
      rfl
    · rw [foldl_accumulate, Pi.zero_apply, zero_add, expected, htotal,
        ← List.sum_toFinset _ hnodup]
      refine Finset.sum_congr rfl fun winner hwinner => ?_
      have herase : (remaining.filter (· ≠ winner)).toFinset = remaining.toFinset.erase winner := by
        ext k
        simp [and_comm]
      rw [ih (hnodup.filter _) fun k hk => hpos k (List.mem_of_mem_filter hk), herase]
      split <;> ring

/-- What `calculate_icm` checks of its input. -/
structure Admitted (stack : Fin n → ℚ) (payouts : List ℚ) : Prop where
  listed : 2 ≤ n ∧ n ≤ 100
  listedPayouts : payouts ≠ [] ∧ payouts.length ≤ n
  nonneg : ∀ i, 0 ≤ stack i
  falling : Falling payouts
  active : activePlayers stack ≠ [] ∧ (activePlayers stack).length ≤ 12
  beyond : ∀ payout ∈ payouts.drop (activePlayers stack).length, payout = 0

/-- `effective_payouts`. -/
def effectivePayouts (stack : Fin n → ℚ) (payouts : List ℚ) : List ℚ :=
  payouts.take (activePlayers stack).length

theorem calculateIcm_ok_iff : (∃ result, calculateIcm stack payouts = .ok result) ↔
    Admitted stack payouts ∧ ∃ bound, icmFloatingErrorBound (activePlayers stack).length n
      (effectivePayouts stack payouts).length (effectivePayouts stack payouts).sum = .ok bound := by
  constructor
  · rintro ⟨result, h⟩
    simp only [calculateIcm, bind_eq_ok, require_eq_ok, exists_and_left, exists_const] at h
    obtain ⟨htwo, hmany, hlisted, hnonneg, hpayouts, hfalling, hactive, hfew, hbeyond, bound,
      hbound, -⟩ := h
    refine ⟨⟨⟨htwo, hmany⟩, hlisted, hnonneg, ⟨?_, hpayouts⟩, ⟨hactive, hfew⟩,
      fun payout hmem => ?_⟩, bound, hbound⟩
    · exact (forall_mem_zip_tail.1 hfalling).pairwise
    · exact le_antisymm (hbeyond payout hmem) (hpayouts payout (List.mem_of_mem_drop hmem))
  · rintro ⟨hadmitted, bound, hbound⟩
    simp only [calculateIcm, bind_eq_ok, require_eq_ok, exists_and_left, exists_const]
    refine ⟨hadmitted.listed.1, hadmitted.listed.2, hadmitted.listedPayouts, hadmitted.nonneg,
      hadmitted.falling.2, ?_, hadmitted.active.1, hadmitted.active.2,
      fun payout hmem => (hadmitted.beyond payout hmem).le, _, bound, hbound, rfl⟩
    exact forall_mem_zip_tail.2 (List.isChain_iff_pairwise.2 hadmitted.falling.1)

theorem calculateIcm_ok (h : calculateIcm stack payouts = .ok result) :
    result.equities = recurse stack (effectivePayouts stack payouts) (activePlayers stack) ∧
      result.payablePrizeSum = (effectivePayouts stack payouts).sum ∧
      ∃ bound, icmFloatingErrorBound (activePlayers stack).length n
        (effectivePayouts stack payouts).length (effectivePayouts stack payouts).sum = .ok bound ∧
        result.conservationVerified =
          decide (|((List.finRange n).map result.equities).sum - result.payablePrizeSum| ≤
            bound.absolute) := by
  simp only [calculateIcm, bind_eq_ok, require_eq_ok, exists_and_left, exists_const] at h
  obtain ⟨-, -, -, -, -, -, -, -, -, bound, hbound, h⟩ := h
  cases h
  exact ⟨rfl, rfl, bound, hbound, rfl⟩

theorem icmFloatingErrorBound_nonneg {a l p : Nat} {q : ℚ} {bound : ICMFloatingErrorBound}
    (h : icmFloatingErrorBound a l p q = .ok bound) : 0 ≤ bound.absolute := by
  simp only [icmFloatingErrorBound, bind_eq_ok, require_eq_ok, exists_and_left, exists_const] at h
  obtain ⟨-, operations, -, -, h⟩ := h
  cases h
  refine mul_nonneg (zpow_nonneg (by norm_num) _) ?_
  exact_mod_cast (zero_le_one.trans (le_max_left (1 : ℤ) _))

/-! ## The equities -/

theorem mem_activePlayers : i ∈ activePlayers stack ↔ 0 < stack i := by
  simp [activePlayers]

theorem nodup_activePlayers : (activePlayers stack).Nodup := (List.nodup_finRange n).filter _

theorem card_activePlayers : (activePlayers stack).toFinset.card = (activePlayers stack).length :=
  List.toFinset_card_of_nodup nodup_activePlayers

/-- The equities of the listed players. -/
def equity (stack : Fin n → ℚ) (payouts : List ℚ) : Fin n → ℚ :=
  expected stack (effectivePayouts stack payouts) (activePlayers stack).toFinset

theorem equities_eq (h : calculateIcm stack payouts = .ok result) :
    result.equities = equity stack payouts := by
  rw [(calculateIcm_ok h).1]
  funext i
  exact recurse_eq_expected nodup_activePlayers fun i hi => mem_activePlayers.1 hi

theorem equity_eq_zero (hi : stack i = 0) : equity stack payouts i = 0 :=
  expected_of_notMem fun hmem => by
    rw [List.mem_toFinset, mem_activePlayers, hi] at hmem
    exact absurd hmem (lt_irrefl 0)

/-- The equities share out the payable prizes. -/
theorem sum_equity : ∑ i, equity stack payouts i = (effectivePayouts stack payouts).sum := by
  have hpos : ∀ j ∈ (activePlayers stack).toFinset, 0 < stack j := fun j hj =>
    mem_activePlayers.1 (List.mem_toFinset.1 hj)
  have hactive : ∑ i ∈ (activePlayers stack).toFinset, equity stack payouts i = _ :=
    sum_expected hpos
  have houtside : ∀ i ∈ Finset.univ, i ∉ (activePlayers stack).toFinset →
      equity stack payouts i = 0 := fun i _ hi => expected_of_notMem hi
  rw [← Finset.sum_subset (Finset.subset_univ _) houtside, hactive, card_activePlayers,
    effectivePayouts, List.take_take, min_self]

theorem Admitted.sum_effectivePayouts (h : Admitted stack payouts) :
    (effectivePayouts stack payouts).sum = payouts.sum := by
  have hzero : (payouts.drop (activePlayers stack).length).sum = 0 := List.sum_eq_zero h.beyond
  conv_rhs => rw [← List.take_append_drop (activePlayers stack).length payouts, List.sum_append,
    hzero, add_zero]
  rfl

theorem Admitted.falling_effectivePayouts (h : Admitted stack payouts) :
    Falling (effectivePayouts stack payouts) :=
  ⟨h.falling.1.sublist (List.take_sublist _ _), fun p hp => h.falling.2 p (List.mem_of_mem_take hp)⟩

/-- A larger stack has no smaller equity. -/
theorem Admitted.equity_mono (h : Admitted stack payouts) (hij : stack i ≤ stack j) :
    equity stack payouts i ≤ equity stack payouts j := by
  have hpos : ∀ k ∈ (activePlayers stack).toFinset, 0 < stack k := fun k hk =>
    mem_activePlayers.1 (List.mem_toFinset.1 hk)
  obtain hi | hi := (h.nonneg i).eq_or_lt
  · rw [equity_eq_zero hi.symm]
    exact expected_nonneg (fun k hk => (hpos k hk).le) h.falling_effectivePayouts.2
  · have hmem : ∀ k, 0 < stack k → k ∈ (activePlayers stack).toFinset := fun k hk =>
      List.mem_toFinset.2 (mem_activePlayers.2 hk)
    exact expected_mono hpos h.falling_effectivePayouts (hmem i hi) (hmem j (hi.trans_le hij)) hij

/-! ## Permuted players -/

section

variable (σ : Equiv.Perm (Fin n))

variable (stack) in
theorem map_activePlayers :
    (activePlayers (stack ∘ σ)).toFinset.map σ.toEmbedding = (activePlayers stack).toFinset := by
  ext i
  simp [activePlayers, Finset.mem_map_equiv]

theorem length_activePlayers :
    (activePlayers (stack ∘ σ)).length = (activePlayers stack).length := by
  have hcard := congrArg Finset.card (map_activePlayers stack σ)
  rwa [Finset.card_map, card_activePlayers, card_activePlayers] at hcard

theorem effectivePayouts_comp :
    effectivePayouts (stack ∘ σ) payouts = effectivePayouts stack payouts := by
  rw [effectivePayouts, length_activePlayers, effectivePayouts]

theorem equity_comp : equity (stack ∘ σ) payouts = equity stack payouts ∘ σ := by
  funext i
  have hnamed := expected_map σ stack (effectivePayouts stack payouts)
    (activePlayers (stack ∘ σ)).toFinset i
  rw [map_activePlayers] at hnamed
  rw [equity, effectivePayouts_comp, Function.comp_apply, equity, hnamed]

theorem Admitted.comp (h : Admitted stack payouts) : Admitted (stack ∘ σ) payouts where
  listed := h.listed
  listedPayouts := h.listedPayouts
  nonneg i := h.nonneg (σ i)
  falling := h.falling
  active := by
    rw [← List.length_pos_iff, length_activePlayers, List.length_pos_iff]
    exact h.active
  beyond := by
    rw [length_activePlayers]
    exact h.beyond

end

/-- The equities are the payable prizes shared out, nothing to an empty stack,
permuted with the players, and no smaller for a larger stack. -/
theorem icm_laws (stack : Fin n → ℚ) (payouts : List ℚ) (result : ICMResult n)
    (h : calculateIcm stack payouts = .ok result) :
    (∑ i, result.equities i = payouts.sum ∧ result.payablePrizeSum = payouts.sum ∧
      result.conservationVerified = true) ∧
    (∀ i, stack i = 0 → result.equities i = 0) ∧
    (∀ σ : Equiv.Perm (Fin n), ∃ result', calculateIcm (stack ∘ σ) payouts = .ok result' ∧
      result'.equities = result.equities ∘ σ) ∧
    ∀ i j, stack i ≤ stack j → result.equities i ≤ result.equities j := by
  obtain ⟨hadmitted, bound, hbound⟩ := calculateIcm_ok_iff.1 ⟨result, h⟩
  obtain ⟨-, hpayable, _, hbound', hverified⟩ := calculateIcm_ok h
  have hequities := equities_eq h
  have hsum : ∑ i, result.equities i = (effectivePayouts stack payouts).sum := by
    rw [hequities, sum_equity]
  refine ⟨⟨?_, ?_, ?_⟩, fun i hi => ?_, fun σ => ?_, fun i j hij => ?_⟩
  · rw [hsum, hadmitted.sum_effectivePayouts]
  · rw [hpayable, hadmitted.sum_effectivePayouts]
  · have hlist : ((List.finRange n).map result.equities).sum = ∑ i, result.equities i := by
      exact (Fin.sum_univ_def _).symm
    rw [hverified, hlist, hsum, hpayable, sub_self, abs_zero]
    exact decide_eq_true (icmFloatingErrorBound_nonneg hbound')
  · rw [hequities, equity_eq_zero hi]
  · obtain ⟨result', h'⟩ : ∃ result', calculateIcm (stack ∘ σ) payouts = .ok result' := by
      refine calculateIcm_ok_iff.2 ⟨hadmitted.comp σ, bound, ?_⟩
      rw [length_activePlayers, effectivePayouts_comp]
      exact hbound
    exact ⟨result', h', by rw [equities_eq h', equity_comp, hequities]⟩
  · rw [hequities]
    exact hadmitted.equity_mono hij

/-- Three players, one without chips, and two prizes. -/
theorem icm_laws_three : ∃ result : ICMResult 3, calculateIcm ![3, 1, 0] [5, 2] = .ok result ∧
    ∑ i, result.equities i = 7 ∧ result.equities 2 = 0 ∧ result.equities 1 ≤ result.equities 0 := by
  have hok : (calculateIcm ![3, 1, 0] [5, 2]).isOk = true := by decide +kernel
  obtain ⟨result, h⟩ : ∃ result, calculateIcm ![3, 1, 0] [5, 2] = .ok result := by
    cases h : calculateIcm ![3, 1, 0] [5, 2] with
    | ok result => exact ⟨result, rfl⟩
    | error => simp [h, Except.isOk, Except.toBool] at hok
  obtain ⟨⟨hsum, -⟩, hzero, -, hmono⟩ := icm_laws _ _ result h
  exact ⟨result, h, hsum.trans (by norm_num), hzero 2 rfl, hmono 1 0 (by simp)⟩

end

end PokerDeliberation.Games
