import Mathlib.Data.Int.Log
import Mathlib.Data.List.DropRight
import Mathlib.Algebra.Order.Floor.Ring
import Mathlib.Data.Rat.Floor
import Mathlib.Tactic.Linarith
import Mathlib.Tactic.Positivity
import Mathlib.Tactic.Ring

/-!
# Rounding to significant digits

The arithmetic of a number format with `p` significant digits in base `b` and
round-half-even: an exact rational result is replaced by the nearest value of
the format (`roundSig`). A natural number of at most `p` digits is exact, and
the relative error is at most half a unit in the last place.
-/

namespace PokerDeliberation.Lib

/-- The nearest integer, the even one of two. -/
def roundHalfEven (q : ℚ) : ℤ :=
  if q - ⌊q⌋ < 1 / 2 then ⌊q⌋
  else if 1 / 2 < q - ⌊q⌋ then ⌊q⌋ + 1
  else if ⌊q⌋ % 2 = 0 then ⌊q⌋ else ⌊q⌋ + 1

@[simp] theorem roundHalfEven_intCast (n : ℤ) : roundHalfEven n = n := by
  simp [roundHalfEven]

theorem roundHalfEven_le (q : ℚ) : (roundHalfEven q : ℚ) ≤ q + 1 / 2 := by
  have hfloor := Int.floor_le q
  unfold roundHalfEven
  split
  · linarith
  · split
    · push_cast; linarith
    · split
      · linarith
      · push_cast; linarith

theorem le_roundHalfEven (q : ℚ) : q - 1 / 2 ≤ roundHalfEven q := by
  have hfloor := Int.lt_floor_add_one q
  unfold roundHalfEven
  split
  · linarith
  · split
    · push_cast; linarith
    · split
      · linarith
      · push_cast; linarith

/-- Rounding does not pass an integer. -/
theorem le_roundHalfEven_of_le {q : ℚ} {n : ℤ} (h : (n : ℚ) ≤ q) : n ≤ roundHalfEven q := by
  have hround := le_roundHalfEven q
  have hlt : (n : ℚ) < roundHalfEven q + 1 := by linarith
  exact Int.lt_add_one_iff.1 (by exact_mod_cast hlt)

theorem roundHalfEven_le_of_le {q : ℚ} {n : ℤ} (h : q ≤ n) : roundHalfEven q ≤ n := by
  have hround := roundHalfEven_le q
  have hlt : (roundHalfEven q : ℚ) < n + 1 := by linarith
  exact Int.lt_add_one_iff.1 (by exact_mod_cast hlt)

theorem roundHalfEven_nonneg {q : ℚ} (h : 0 ≤ q) : 0 ≤ roundHalfEven q := by
  have hfloor : 0 ≤ ⌊q⌋ := Int.floor_nonneg.2 h
  unfold roundHalfEven
  repeat' split
  all_goals omega

/-- Half a unit below an even integer is rounded up to it. -/
theorem le_roundHalfEven_iff {q : ℚ} {m : ℤ} (hm : m % 2 = 0) :
    m ≤ roundHalfEven q ↔ (m : ℚ) - 1 / 2 ≤ q := by
  refine ⟨fun h => ?_, fun h => ?_⟩
  · have hround := roundHalfEven_le q
    have hcast : (m : ℚ) ≤ roundHalfEven q := by exact_mod_cast h
    linarith
  · have hfloor := Int.lt_floor_add_one q
    have hlt : (m : ℚ) < ⌊q⌋ + 2 := by linarith
    have hle : m ≤ ⌊q⌋ + 1 := by
      have : m < ⌊q⌋ + 2 := by exact_mod_cast hlt
      omega
    unfold roundHalfEven
    split
    · rename_i hlow
      have hlt : (m : ℚ) < ⌊q⌋ + 1 := by linarith
      have : m < ⌊q⌋ + 1 := by exact_mod_cast hlt
      omega
    · split
      · exact hle
      · -- at a tie the odd one of the two is not chosen
        split <;> omega

/-- Half a unit above an even integer is rounded down to it. -/
theorem roundHalfEven_le_iff {q : ℚ} {m : ℤ} (hm : m % 2 = 0) :
    roundHalfEven q ≤ m ↔ q ≤ (m : ℚ) + 1 / 2 := by
  refine ⟨fun h => ?_, fun h => ?_⟩
  · have hround := le_roundHalfEven q
    have hcast : (roundHalfEven q : ℚ) ≤ m := by exact_mod_cast h
    linarith
  · have hfloor := Int.floor_le q
    have hle : ⌊q⌋ ≤ m := by
      have hlt : (⌊q⌋ : ℚ) < m + 1 := by linarith
      have : ⌊q⌋ < m + 1 := by exact_mod_cast hlt
      omega
    unfold roundHalfEven
    split
    · exact hle
    · split
      · rename_i hhigh
        have hlt : (⌊q⌋ : ℚ) < m := by linarith
        have : ⌊q⌋ < m := by exact_mod_cast hlt
        omega
      · split <;> omega

/-- An even integer is the rounding of what lies within half a unit. -/
theorem roundHalfEven_eq_iff {q : ℚ} {m : ℤ} (hm : m % 2 = 0) :
    roundHalfEven q = m ↔ |q - m| ≤ 1 / 2 := by
  rw [le_antisymm_iff, le_roundHalfEven_iff hm, roundHalfEven_le_iff hm, abs_le]
  constructor
  · rintro ⟨hle, hge⟩
    constructor <;> linarith
  · rintro ⟨hge, hle⟩
    constructor <;> linarith

/-- The value of `q` in a format of `p` significant base-`b` digits. -/
def roundSig (b p : ℕ) (q : ℚ) : ℚ :=
  if q = 0 then 0
  else roundHalfEven (q / (b : ℚ) ^ (Int.log b |q| + 1 - p)) * (b : ℚ) ^ (Int.log b |q| + 1 - p)

section

variable {b p : ℕ} {q : ℚ}

@[simp] theorem roundSig_zero : roundSig b p 0 = 0 := if_pos rfl

theorem roundSig_nonneg (h : 0 ≤ q) : 0 ≤ roundSig b p q := by
  unfold roundSig
  split
  · exact le_rfl
  · have hscale : (0 : ℚ) ≤ (b : ℚ) ^ (Int.log b |q| + 1 - p) := zpow_nonneg (Nat.cast_nonneg b) _
    have hquotient : 0 ≤ roundHalfEven (q / (b : ℚ) ^ (Int.log b |q| + 1 - p)) :=
      roundHalfEven_nonneg (div_nonneg h hscale)
    exact mul_nonneg (by exact_mod_cast hquotient) hscale

/-- Rounding stays in the binade: it does not pass the power of the base below. -/
theorem zpow_log_le_roundSig (hb : 1 < b) (hp : 0 < p) (h : 0 < q) :
    (b : ℚ) ^ Int.log b q ≤ roundSig b p q := by
  have hb0 : (0 : ℚ) < b := by exact_mod_cast (Nat.zero_lt_one.trans hb)
  unfold roundSig
  rw [if_neg h.ne', abs_of_pos h]
  have hscale : (0 : ℚ) < (b : ℚ) ^ (Int.log b q + 1 - p) := zpow_pos hb0 _
  have hsplit : (b : ℚ) ^ Int.log b q =
      ((b ^ (p - 1) : ℕ) : ℤ) * (b : ℚ) ^ (Int.log b q + 1 - p) := by
    push_cast
    rw [← zpow_natCast, ← zpow_add₀ hb0.ne', Nat.cast_sub hp]
    congr 1
    push_cast
    ring
  have hle : (((b ^ (p - 1) : ℕ) : ℤ) : ℚ) ≤ q / (b : ℚ) ^ (Int.log b q + 1 - p) := by
    rw [le_div_iff₀ hscale, ← hsplit]
    exact Int.zpow_log_le_self hb h
  rw [hsplit]
  exact mul_le_mul_of_nonneg_right (by exact_mod_cast le_roundHalfEven_of_le hle) hscale.le

theorem roundSig_le_zpow_log (hb : 1 < b) (h : 0 < q) :
    roundSig b p q ≤ (b : ℚ) ^ (Int.log b q + 1) := by
  have hb0 : (0 : ℚ) < b := by exact_mod_cast (Nat.zero_lt_one.trans hb)
  unfold roundSig
  rw [if_neg h.ne', abs_of_pos h]
  have hscale : (0 : ℚ) < (b : ℚ) ^ (Int.log b q + 1 - p) := zpow_pos hb0 _
  have hsplit : (b : ℚ) ^ (Int.log b q + 1) =
      ((b ^ p : ℕ) : ℤ) * (b : ℚ) ^ (Int.log b q + 1 - p) := by
    push_cast
    rw [← zpow_natCast, ← zpow_add₀ hb0.ne']
    congr 1
    ring
  have hle : q / (b : ℚ) ^ (Int.log b q + 1 - p) ≤ (((b ^ p : ℕ) : ℤ) : ℚ) := by
    rw [div_le_iff₀ hscale, ← hsplit]
    exact (Int.lt_zpow_succ_log_self hb q).le
  rw [hsplit]
  exact mul_le_mul_of_nonneg_right (by exact_mod_cast roundHalfEven_le_of_le hle) hscale.le

theorem roundSig_pos (hb : 1 < b) (hp : 0 < p) (h : 0 < q) : 0 < roundSig b p q := by
  have hb0 : (0 : ℚ) < b := by exact_mod_cast (Nat.zero_lt_one.trans hb)
  exact (zpow_pos hb0 _).trans_le (zpow_log_le_roundSig hb hp h)

/-- Rounding a number below one gives at most one. -/
theorem roundSig_le_one (hb : 1 < b) (h : 0 < q) (hlt : q < 1) : roundSig b p q ≤ 1 := by
  have hlog : Int.log b q < 0 := by
    rw [← Int.lt_zpow_iff_log_lt hb h]
    simpa using hlt
  refine (roundSig_le_zpow_log hb h).trans ?_
  have hb1 : (1 : ℚ) ≤ b := by exact_mod_cast hb.le
  calc (b : ℚ) ^ (Int.log b q + 1) ≤ (b : ℚ) ^ (0 : ℤ) := zpow_le_zpow_right₀ hb1 (by omega)
    _ = 1 := zpow_zero _

/-- A natural number of at most `p` digits is a value of the format. -/
theorem roundSig_natCast (hb : 1 < b) {n : ℕ} (hn : n < b ^ p) : roundSig b p (n : ℚ) = n := by
  rcases Nat.eq_zero_or_pos n with rfl | hpos
  · simp
  have hne : (n : ℚ) ≠ 0 := by exact_mod_cast hpos.ne'
  have hlog : Nat.log b n < p := Nat.log_lt_of_lt_pow hpos.ne' hn
  obtain ⟨k, hk⟩ : ∃ k : ℕ, Int.log b |(n : ℚ)| + 1 - p = -(k : ℤ) := by
    refine ⟨p - (Nat.log b n + 1), ?_⟩
    rw [Nat.abs_cast, Int.log_natCast]
    omega
  have hbk : ((b : ℚ) ^ k) ≠ 0 := by positivity
  unfold roundSig
  rw [if_neg hne, hk, zpow_neg, zpow_natCast, div_inv_eq_mul]
  have hint : (n : ℚ) * (b : ℚ) ^ k = ((n * b ^ k : ℕ) : ℤ) := by push_cast; ring
  rw [hint, roundHalfEven_intCast, ← hint, mul_assoc, mul_inv_cancel₀ hbk, mul_one]

/-- Rounding up adds at most half a unit in the last of the `p` digits. -/
theorem roundSig_le (hb : 1 < b) (h : 0 ≤ q) :
    roundSig b p q ≤ q + q * (b : ℚ) ^ (1 - p : ℤ) / 2 := by
  rcases h.eq_or_lt with rfl | hpos
  · simp
  have hb0 : (0 : ℚ) < b := by exact_mod_cast (Nat.zero_lt_one.trans hb)
  unfold roundSig
  rw [if_neg hpos.ne', abs_of_pos hpos]
  have hscale : (0 : ℚ) < (b : ℚ) ^ (Int.log b q + 1 - p) := zpow_pos hb0 _
  have hlast : (b : ℚ) ^ (Int.log b q + 1 - p) ≤ q * (b : ℚ) ^ (1 - p : ℤ) := by
    rw [show Int.log b q + 1 - (p : ℤ) = Int.log b q + (1 - p) by ring, zpow_add₀ hb0.ne']
    exact mul_le_mul_of_nonneg_right (Int.zpow_log_le_self hb hpos) (zpow_pos hb0 _).le
  have hround := roundHalfEven_le (q / (b : ℚ) ^ (Int.log b q + 1 - p))
  calc (roundHalfEven (q / (b : ℚ) ^ (Int.log b q + 1 - p)) : ℚ) * (b : ℚ) ^ (Int.log b q + 1 - p)
      ≤ (q / (b : ℚ) ^ (Int.log b q + 1 - p) + 1 / 2) * (b : ℚ) ^ (Int.log b q + 1 - p) :=
        mul_le_mul_of_nonneg_right hround hscale.le
    _ = q + (b : ℚ) ^ (Int.log b q + 1 - p) / 2 := by field_simp
    _ ≤ q + q * (b : ℚ) ^ (1 - p : ℤ) / 2 := by linarith

/-- Rounding gives the integers that lie within half a unit of the last digit,
where the last digit stands after the point. -/
theorem roundSig_eq_intCast_iff (hb : 1 < b) (heven : b % 2 = 0) (h : 0 < q)
    (hlog : Int.log b q + 1 < p) {r : ℤ} :
    roundSig b p q = r ↔ |q - r| ≤ (b : ℚ) ^ (Int.log b q + 1 - p) / 2 := by
  have hb0 : (0 : ℚ) < b := by exact_mod_cast (Nat.zero_lt_one.trans hb)
  obtain ⟨k, hk⟩ : ∃ k : ℕ, Int.log b q + 1 - p = -((k + 1 : ℕ) : ℤ) :=
    ⟨(p - (Int.log b q + 1) - 1).toNat, by omega⟩
  have hscale : (0 : ℚ) < (b : ℚ) ^ (k + 1) := by positivity
  have hmultiple : (r : ℚ) * (b : ℚ) ^ (k + 1) = ((r * (b : ℤ) ^ (k + 1) : ℤ) : ℚ) := by push_cast; ring
  have hparity : r * (b : ℤ) ^ (k + 1) % 2 = 0 := by
    have hdvd : (2 : ℤ) ∣ b := by omega
    exact Int.emod_eq_zero_of_dvd (dvd_mul_of_dvd_right (dvd_pow hdvd (Nat.succ_ne_zero k)) _)
  unfold roundSig
  rw [if_neg h.ne', abs_of_pos h, hk, zpow_neg, zpow_natCast, div_inv_eq_mul,
    mul_inv_eq_iff_eq_mul₀ hscale.ne', hmultiple, Int.cast_inj, roundHalfEven_eq_iff hparity,
    ← hmultiple, ← sub_mul, abs_mul, abs_of_pos hscale, ← le_div_iff₀ hscale]
  rw [show (1 : ℚ) / 2 / (b : ℚ) ^ (k + 1) = ((b : ℚ) ^ (k + 1))⁻¹ / 2 by field_simp]

/-- A number of fewer digits is passed by rounding exactly within half a unit of the last digit. -/
theorem le_roundSig_iff (hb : 1 < b) (heven : b % 2 = 0) (h : 0 < q) {c k : ℕ} {e : ℤ}
    (hc : c < b ^ k) (hk : k < p) :
    (c : ℚ) * (b : ℚ) ^ e ≤ roundSig b p q ↔
      (c : ℚ) * (b : ℚ) ^ e ≤ q + (b : ℚ) ^ (Int.log b q + 1 - p) / 2 := by
  have hb0 : (0 : ℚ) < b := by exact_mod_cast (Nat.zero_lt_one.trans hb)
  have hb1 : (1 : ℚ) < b := by exact_mod_cast hb
  have hscale : (0 : ℚ) < (b : ℚ) ^ (Int.log b q + 1 - p) := zpow_pos hb0 _
  by_cases hsmall : (c : ℚ) * (b : ℚ) ^ e ≤ (b : ℚ) ^ Int.log b q
  · have hlow := Int.zpow_log_le_self hb h
    refine ⟨fun _ => by linarith, fun _ => hsmall.trans ?_⟩
    exact zpow_log_le_roundSig hb (by omega) h
  · -- above the power of the base the number is a multiple of the last digit's unit
    push Not at hsmall
    have hexp : Int.log b q < k + e := by
      have hlt : (b : ℚ) ^ Int.log b q < (b : ℚ) ^ (k + e : ℤ) := by
        rw [zpow_add₀ hb0.ne', zpow_natCast]
        refine hsmall.trans_le (mul_le_mul_of_nonneg_right ?_ (zpow_pos hb0 _).le)
        exact_mod_cast hc.le
      exact (zpow_lt_zpow_iff_right₀ hb1).1 hlt
    obtain ⟨j, hj⟩ : ∃ j : ℕ, e = Int.log b q + 1 - p + ((j + 1 : ℕ) : ℤ) :=
      ⟨(e - (Int.log b q + 1 - p) - 1).toNat, by omega⟩
    have hmultiple : (c : ℚ) * (b : ℚ) ^ e =
        ((c * (b : ℤ) ^ (j + 1) : ℤ) : ℚ) * (b : ℚ) ^ (Int.log b q + 1 - p) := by
      rw [hj, zpow_add₀ hb0.ne', zpow_natCast]
      push_cast
      ring
    have hparity : (c : ℤ) * (b : ℤ) ^ (j + 1) % 2 = 0 := by
      have hdvd : (2 : ℤ) ∣ b := by omega
      exact Int.emod_eq_zero_of_dvd (dvd_mul_of_dvd_right (dvd_pow hdvd (Nat.succ_ne_zero j)) _)
    unfold roundSig
    rw [if_neg h.ne', abs_of_pos h, hmultiple, mul_le_mul_iff_left₀ hscale, Int.cast_le,
      le_roundHalfEven_iff hparity, le_div_iff₀ hscale, sub_mul]
    constructor <;> intro hle <;> linarith

end

/-! ## Text of a number -/

/-- The digits without trailing zeros, after a point if any is left. -/
def fractionText (digits : List Char) : List Char :=
  match digits.rdropWhile (· = '0') with
  | [] => []
  | kept => '.' :: kept

/-- `format(q, "g")` of a non-negative number: six significant digits, without
trailing zeros, in scientific notation when the exponent is extreme. -/
def generalFormat (q : ℚ) : String :=
  let rounded := roundSig 10 6 q
  if rounded = 0 then "0"
  else
    let exponent := Int.log 10 rounded
    let digits := (toString (rounded / (10 : ℚ) ^ (exponent - 5)).num.natAbs).toList
    if exponent < -4 ∨ 6 ≤ exponent then
      let sign := if exponent < 0 then '-' else '+'
      let power := (toString exponent.natAbs).toList
      String.ofList (digits.take 1 ++ fractionText (digits.drop 1) ++
        'e' :: sign :: (if power.length < 2 then '0' :: power else power))
    else if 0 ≤ exponent then
      let whole := exponent.toNat + 1
      String.ofList (digits.take whole ++ fractionText (digits.drop whole))
    else
      String.ofList ('0' :: fractionText (List.replicate (-exponent - 1).toNat '0' ++ digits))

example : generalFormat (25 / 2) = "12.5" := by decide +kernel
example : generalFormat 12345678 = "1.23457e+07" := by decide +kernel

end PokerDeliberation.Lib
