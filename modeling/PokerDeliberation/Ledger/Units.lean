import PokerDeliberation.Ledger.Profile
import Mathlib.Tactic.NormNum.Basic

/-!
# When the decimal conversion is exact

`decimalUnits` tests the quotient for integrality after it has been rounded to
28 digits. An amount that is not a multiple of the chip unit passes exactly when
the quotient is within half a unit of its 28th digit of an integer. A unit has
up to 27 digits and a quotient up to 19, so there are such amounts.
-/

namespace PokerDeliberation.Ledger

open Lib Hands

/-- `y` is another number than `x`, but not in 28 digits of `x`. -/
def Blurred (x y : ℚ) : Prop := x ≠ y ∧ |x - y| ≤ 10 ^ (Int.log 10 x - 27) / 2

/-- The decimal of a shortest float representation. -/
def IsShortest (value : Chips) : Prop :=
  ∃ (c : ℕ) (e : ℤ), c < 10 ^ 17 ∧ (value : ℚ) = c * (10 : ℚ) ^ e

/-- The quotient by the chip unit is taken for an integer that it is not, and
the amount is within the ledger's limit or taken for the limit. -/
def Confused (value : Chips) (unit : ℚ) : Prop :=
  (∃ n : ℤ, Blurred (value / unit) n) ∧
    ((value : ℚ) ≤ unit * MAX_LEDGER_UNITS ∨ Blurred (unit * MAX_LEDGER_UNITS) value)

section

variable {value : Chips} {unit : ℚ} {n : ℤ}

theorem decimalUnits_ok : decimalUnits value unit = .ok n ↔
    (value : ℚ) ≤ decimalRound (unit * MAX_LEDGER_UNITS) ∧ decimalRound (value / unit) = n := by
  simp only [decimalUnits, require_bind_eq_ok, pure_eq_ok]
  constructor
  · rintro ⟨hlimit, hint, rfl⟩
    exact ⟨hlimit, hint⟩
  · rintro ⟨hlimit, hround⟩
    rw [hround]
    exact ⟨hlimit, by rw [Int.floor_intCast], Int.floor_intCast n⟩

theorem fractionUnits_ok (hunit : 0 < unit) : fractionUnits value unit = .ok n ↔
    (value : ℚ) = n * unit ∧ n ≤ MAX_LEDGER_UNITS := by
  simp only [fractionUnits, require_bind_eq_ok, pure_eq_ok]
  have hnonneg : (0 : ℚ) ≤ value / unit := div_nonneg (NNRat.coe_nonneg value) hunit.le
  constructor
  · rintro ⟨hden, ⟨_, hle⟩, rfl⟩
    refine ⟨?_, hle⟩
    rw [← div_eq_iff hunit.ne']
    exact (Rat.den_eq_one_iff _).1 hden |>.symm
  · rintro ⟨heq, hle⟩
    rw [← div_eq_iff hunit.ne'] at heq
    rw [heq] at hnonneg ⊢
    exact ⟨rfl, ⟨by exact_mod_cast hnonneg, hle⟩, rfl⟩

section

variable (hunit : 0 < unit)

include hunit

/-- The rounded limit is passed by an amount that is taken for the limit. -/
theorem le_limit_iff (hshort : IsShortest value) :
    (value : ℚ) ≤ decimalRound (unit * MAX_LEDGER_UNITS) ↔
      (value : ℚ) ≤ unit * MAX_LEDGER_UNITS ∨ Blurred (unit * MAX_LEDGER_UNITS) value := by
  obtain ⟨c, e, hc, hvalue⟩ := hshort
  have hlimit : 0 < unit * MAX_LEDGER_UNITS := mul_pos hunit (by norm_num [MAX_LEDGER_UNITS])
  have hround := le_roundSig_iff (b := 10) (p := 28) (e := e) (by norm_num) (by norm_num) hlimit hc
    (by norm_num)
  push_cast at hround
  rw [← hvalue, show Int.log 10 (unit * MAX_LEDGER_UNITS) + 1 - 28 =
    Int.log 10 (unit * MAX_LEDGER_UNITS) - 27 by ring] at hround
  rw [decimalRound, hround]
  by_cases hle : (value : ℚ) ≤ unit * MAX_LEDGER_UNITS
  · have hpos : (0 : ℚ) < 10 ^ (Int.log 10 (unit * MAX_LEDGER_UNITS) - 27) :=
      zpow_pos (by norm_num) _
    exact ⟨fun _ => .inl hle, fun _ => by linarith⟩
  · push Not at hle
    simp only [hle.not_ge, false_or, Blurred, hle.ne, ne_eq, not_false_eq_true, true_and]
    rw [abs_sub_comm, abs_of_pos (sub_pos.2 hle)]
    constructor <;> intro h <;> linarith

/-- Below the limit rounding gives the integers that are blurred with the quotient. -/
theorem quotient_iff (hlimit : (value : ℚ) ≤ decimalRound (unit * MAX_LEDGER_UNITS)) :
    decimalRound (value / unit) = n ↔ (value : ℚ) / unit = n ∨ Blurred (value / unit) n := by
  have hpos : (0 : ℚ) < 10 ^ (Int.log 10 ((value : ℚ) / unit) - 27) := zpow_pos (by norm_num) _
  have hround : decimalRound (value / unit) = n ↔
      |(value : ℚ) / unit - n| ≤ 10 ^ (Int.log 10 ((value : ℚ) / unit) - 27) / 2 := by
    rcases (NNRat.coe_nonneg value).eq_or_lt with hzero | hvalue
    · -- nothing but zero is that close to zero
      rw [← hzero, zero_div, decimalRound, roundSig_zero, zero_sub, abs_neg, Int.log_zero_right]
      constructor
      · intro h
        rw [← h]
        norm_num
      · intro h
        have hsmall : |(n : ℚ)| < 1 := h.trans_lt (by norm_num)
        have hn : |n| < 1 := by exact_mod_cast hsmall
        rw [Int.abs_lt_one_iff.1 hn, Int.cast_zero]
    · have hquotient : 0 < (value : ℚ) / unit := div_pos hvalue hunit
      have hsmall : (value : ℚ) / unit < (10 : ℕ) ^ (26 : ℤ) := by
        rw [div_lt_iff₀ hunit]
        have hle := hlimit.trans (roundSig_le (by norm_num)
          (mul_nonneg hunit.le (by norm_num [MAX_LEDGER_UNITS])))
        norm_num [MAX_LEDGER_UNITS] at hle ⊢
        linarith
      have hlog := (Int.lt_zpow_iff_log_lt (by norm_num) hquotient).1 hsmall
      have hint := roundSig_eq_intCast_iff (b := 10) (p := 28) (r := n) (by norm_num) (by norm_num)
        hquotient (by push_cast; linarith)
      push_cast at hint
      rw [decimalRound, hint,
        show Int.log 10 ((value : ℚ) / unit) + 1 - 28 = Int.log 10 ((value : ℚ) / unit) - 27 by ring]
  rw [hround]
  by_cases heq : (value : ℚ) / unit = n
  · simp only [heq, true_or, iff_true]
    rw [heq] at hpos
    rw [sub_self, abs_zero]
    positivity
  · simp only [heq, false_or, Blurred, ne_eq, not_false_eq_true, true_and]

/-- What the conversion accepts. -/
theorem decimalUnits_ok_iff (hshort : IsShortest value) : decimalUnits value unit = .ok n ↔
    ((value : ℚ) / unit = n ∨ Blurred (value / unit) n) ∧
      ((value : ℚ) ≤ unit * MAX_LEDGER_UNITS ∨ Blurred (unit * MAX_LEDGER_UNITS) value) := by
  rw [decimalUnits_ok, ← le_limit_iff hunit hshort, and_comm]
  exact and_congr_left fun hlimit => quotient_iff hunit hlimit

theorem decimalUnits_eq_fractionUnits_iff (hshort : IsShortest value) :
    (∀ n, decimalUnits value unit = .ok n ↔ fractionUnits value unit = .ok n) ↔
      ¬ Confused value unit := by
  constructor
  · rintro hsame ⟨⟨n, hblurred⟩, hlimit⟩
    have hok := (decimalUnits_ok_iff hunit hshort).2 ⟨.inr hblurred, hlimit⟩
    obtain ⟨heq, -⟩ := (fractionUnits_ok hunit).1 ((hsame n).1 hok)
    exact hblurred.1 ((div_eq_iff hunit.ne').2 heq)
  · intro hclear n
    rw [fractionUnits_ok hunit]
    constructor
    · intro h
      obtain ⟨heq | hblurred, hlimit⟩ := (decimalUnits_ok_iff hunit hshort).1 h
      · have hnonneg := decimalUnits_nonneg hunit h
        obtain ⟨k, rfl⟩ := Int.eq_ofNat_of_zero_le hnonneg
        have hmultiple : IsMultiple value unit k := by
          rw [IsMultiple, ← div_eq_iff hunit.ne', heq]
          rfl
        exact ⟨hmultiple, (decimalUnits_eq hunit hmultiple h).2⟩
      · exact absurd ⟨⟨n, hblurred⟩, hlimit⟩ hclear
    · rintro ⟨heq, hle⟩
      refine (decimalUnits_ok_iff hunit hshort).2
        ⟨.inl ((div_eq_iff hunit.ne').2 heq), .inl ?_⟩
      rw [heq, mul_comm unit]
      exact mul_le_mul_of_nonneg_right (by exact_mod_cast hle) hunit.le

end

/-- The decimal conversion is exact, and agrees with the conversion by
fractions, where no integer and no limit is confused with another number. -/
theorem decimalUnits_exact_iff {raw : String} (hraw : validateChipUnit raw = .ok unit)
    (hshort : IsShortest value) :
    ((∀ n : ℤ, decimalUnits value unit = .ok n ↔
      (value : ℚ) / unit = n ∧ n ≤ MAX_LEDGER_UNITS) ↔ ¬ Confused value unit) ∧
    ((∀ n : ℤ, decimalUnits value unit = .ok n ↔ fractionUnits value unit = .ok n) ↔
      ¬ Confused value unit) := by
  obtain ⟨hunit, -⟩ := validateChipUnit_ok hraw
  refine ⟨?_, decimalUnits_eq_fractionUnits_iff hunit hshort⟩
  simp only [← decimalUnits_eq_fractionUnits_iff hunit hshort, fractionUnits_ok hunit,
    div_eq_iff hunit.ne']

/-- `9e36` is accepted as a multiple of a unit of 27 digits that does not divide it. -/
theorem decimalUnits_inexact :
    validateChipUnit "995470423613522113.493348207" =
      .ok (995470423613522113493348207 / 10 ^ 9) ∧
    IsShortest (9 * 10 ^ 36) ∧
    decimalUnits (9 * 10 ^ 36) (995470423613522113493348207 / 10 ^ 9) = .ok 9040951681246662430 ∧
    ((9 * 10 ^ 36 : Chips) : ℚ) / (995470423613522113493348207 / 10 ^ 9) ≠ 9040951681246662430 ∧
    fractionUnits (9 * 10 ^ 36) (995470423613522113493348207 / 10 ^ 9) =
      .error "oracle-non-integral-chip-unit" :=
  ⟨by decide +kernel, ⟨9, 36, by norm_num, by norm_num⟩, by decide +kernel, by decide +kernel,
    by decide +kernel⟩

/-- Three tenths are three units of a tenth. -/
theorem decimalUnits_exact_iff_tenths : decimalUnits (3 / 10) (1 / 10) = .ok 3 := by
  have hraw : validateChipUnit "0.1" = .ok (1 / 10) := by decide +kernel
  have hshort : IsShortest (3 / 10) := ⟨3, -1, by norm_num, by norm_num⟩
  have hquotient : ((3 / 10 : Chips) : ℚ) / (1 / 10) = 3 := by norm_num
  refine ((decimalUnits_exact_iff hraw hshort).1.2 ?_ 3).2 ⟨hquotient, by decide⟩
  rintro ⟨⟨n, hne, hnear⟩, -⟩
  rw [hquotient] at hne hnear
  have hlog : Int.log 10 (3 : ℚ) = 0 := by decide +kernel
  have hlt : |(3 : ℚ) - n| < 1 := hnear.trans_lt (by rw [hlog]; norm_num)
  have hint : |(3 : ℤ) - n| < 1 := by exact_mod_cast hlt
  have heq : n = 3 := by
    have := Int.abs_lt_one_iff.1 hint
    omega
  exact hne (by rw [heq]; rfl)

end

end PokerDeliberation.Ledger
