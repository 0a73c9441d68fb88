import PokerDeliberation.Lib.Decimal
import PokerDeliberation.Lib.Rounding
import PokerDeliberation.Lib.Text

/-!
# Floats from text

`float` reads a decimal text as the language does: blanks around it, a sign,
the infinities and NaN, digits of any script with underscores between them, a
fraction and an exponent. How the exact value is rounded is a parameter;
`binary64` is the rounding of the machine.
-/

namespace PokerDeliberation.Lib

/-- What a text can be read as. -/
inductive FloatText where
  | finite (value : ℚ)
  | infinite (negative : Bool)
  | nan
  deriving DecidableEq

/-- The zeros of the scripts that write decimal digits. -/
def DECIMAL_ZEROS : List Nat :=
  [0x30, 0x660, 0x6f0, 0x7c0, 0x966, 0x9e6, 0xa66, 0xae6, 0xb66, 0xbe6, 0xc66, 0xce6, 0xd66, 0xde6,
    0xe50, 0xed0, 0xf20, 0x1040, 0x1090, 0x17e0, 0x1810, 0x1946, 0x19d0, 0x1a80, 0x1a90, 0x1b50,
    0x1bb0, 0x1c40, 0x1c50, 0xa620, 0xa8d0, 0xa900, 0xa9d0, 0xa9f0, 0xaa50, 0xabf0, 0xff10, 0x104a0,
    0x10d30, 0x11066, 0x110f0, 0x11136, 0x111d0, 0x112f0, 0x11450, 0x114d0, 0x11650, 0x116c0,
    0x11730, 0x118e0, 0x11950, 0x11c50, 0x11d50, 0x11da0, 0x11f50, 0x16a60, 0x16ac0, 0x16b50,
    0x1d7ce, 0x1d7d8, 0x1d7e2, 0x1d7ec, 0x1d7f6, 0x1e140, 0x1e2f0, 0x1e4f0, 0x1e950, 0x1fbf0]

def decimalDigit (c : Char) : Option Nat :=
  DECIMAL_ZEROS.findSome? fun zero =>
    if zero ≤ c.toNat ∧ c.toNat < zero + 10 then some (c.toNat - zero) else none

/-- A run of digits with single underscores between them: its value and the
number of its digits. It starts in the middle of a run. -/
def digitRun (value count : Nat) : List Char → Option (Nat × Nat)
  | [] => some (value, count)
  | '_' :: c :: rest => do digitRun (10 * value + (← decimalDigit c)) (count + 1) rest
  | c :: rest => do digitRun (10 * value + (← decimalDigit c)) (count + 1) rest

/-- `digitpart`, or no digits at all. -/
def digitPart : List Char → Option (Nat × Nat)
  | [] => some (0, 0)
  | c :: rest => do digitRun (← decimalDigit c) 1 rest

def splitSign : List Char → Bool × List Char
  | '-' :: rest => (true, rest)
  | '+' :: rest => (false, rest)
  | s => (false, s)

/-- The exponent after `e`. -/
def exponentPart (s : List Char) : Option ℤ := do
  let (negative, digits) := splitSign s
  let (value, count) ← digitPart digits
  if count = 0 then none else some (if negative then -value else value)

/-- `floatnumber`: the exact value of a decimal text without a sign. -/
def decimalNumber (s : List Char) : Option ℚ := do
  let (mantissa, exponent) := partition 'e' (s.map fun c => if c = 'E' then 'e' else c)
  let (whole, fraction) := partition '.' mantissa
  let (wholeValue, wholeCount) ← digitPart whole
  let (fractionValue, fractionCount) ← digitPart (fraction.getD [])
  let power ← match exponent with
    | none => some 0
    | some text => exponentPart text
  if wholeCount + fractionCount = 0 then none
  else some ((wholeValue * 10 ^ fractionCount + fractionValue : ℕ) *
    (10 : ℚ) ^ (power - fractionCount))

/-- `float` of a text, with the given rounding. -/
def float (round : ℚ → FloatText) (s : List Char) : Option FloatText := do
  let (negative, body) := splitSign (strip isUnicodeSpace s)
  let word := body.map Char.toLower
  if word = "inf".toList ∨ word = "infinity".toList then some (.infinite negative)
  else if word = "nan".toList then some .nan
  else do
    let value ← decimalNumber body
    some (round (if negative then -value else value))

/-! ## Plain fractions -/

theorem decimalDigit_of_isDigit {c : Char} (h : c.isDigit = true) :
    decimalDigit c = some (c.toNat - 48) := by
  have hrange : 48 ≤ c.toNat ∧ c.toNat ≤ 57 := by
    simp only [Char.isDigit, Bool.and_eq_true, decide_eq_true_eq, UInt32.le_iff_toNat_le,
      ge_iff_le] at h
    exact h
  rw [decimalDigit, DECIMAL_ZEROS, List.findSome?_cons, if_pos (by omega)]

theorem digitRun_of_digits {s : List Char} (h : ∀ c ∈ s, c.isDigit = true) (value count : Nat) :
    digitRun value count s =
      some (s.foldl (fun n c => 10 * n + (c.toNat - 48)) value, count + s.length) := by
  induction s generalizing value count with
  | nil => rfl
  | cons c s ih =>
    have hc := h c (by simp)
    have hrun : digitRun value count (c :: s) =
        (decimalDigit c).bind fun d => digitRun (10 * value + d) (count + 1) s := by
      rw [digitRun.eq_3]
      · rfl
      · rintro d rest heq -
        rw [heq] at hc
        exact absurd hc (by decide)
    rw [hrun, decimalDigit_of_isDigit hc, Option.bind_some,
      ih fun d hd => h d (List.mem_cons_of_mem _ hd)]
    rw [List.foldl_cons, List.length_cons, Nat.add_assoc, Nat.add_comm 1]

theorem digitPart_of_digits {s : List Char} (h : ∀ c ∈ s, c.isDigit = true) :
    digitPart s = some (decimalValue s, s.length) := by
  cases s with
  | nil => rfl
  | cons c s =>
    have hpart : digitPart (c :: s) = (decimalDigit c).bind fun d => digitRun d 1 s := rfl
    rw [hpart, decimalDigit_of_isDigit (h c (by simp)), Option.bind_some,
      digitRun_of_digits fun d hd => h d (List.mem_cons_of_mem _ hd)]
    simp [decimalValue, Nat.add_comm]

theorem isUnicodeSpace_of_isDigit {c : Char} (h : c.isDigit = true) :
    isUnicodeSpace c = false := by
  have hrange : 48 ≤ c.toNat ∧ c.toNat ≤ 57 := by
    simp only [Char.isDigit, Bool.and_eq_true, decide_eq_true_eq, UInt32.le_iff_toNat_le,
      ge_iff_le] at h
    exact h
  simp only [isUnicodeSpace, Bool.or_eq_false_iff, Bool.and_eq_false_iff, beq_eq_false_iff_ne,
    decide_eq_false_iff_not]
  omega

/-- Reading a fraction below one. -/
theorem float_fraction (round : ℚ → FloatText) {digits : List Char}
    (h : ∀ c ∈ digits, c.isDigit = true) :
    float round ('0' :: '.' :: digits) =
      some (round ((decimalValue digits : ℚ) / 10 ^ digits.length)) := by
  have hmem : ∀ c ∈ '0' :: '.' :: digits, c.isDigit = true ∨ c = '.' := by
    intro c hc
    obtain rfl | hc := List.mem_cons.1 hc
    · exact .inl (by decide)
    · obtain rfl | hc := List.mem_cons.1 hc
      · exact .inr rfl
      · exact .inl (h c hc)
  have hblank : strip isUnicodeSpace ('0' :: '.' :: digits) = '0' :: '.' :: digits := by
    refine strip_of_all_not fun c hc => ?_
    obtain hdigit | rfl := hmem c hc
    · exact isUnicodeSpace_of_isDigit hdigit
    · decide
  have hexponent : partition 'e' (('0' :: '.' :: digits).map fun c => if c = 'E' then 'e' else c) =
      ('0' :: '.' :: digits, none) := by
    have hmap : (('0' :: '.' :: digits).map fun c => if c = 'E' then 'e' else c) =
        '0' :: '.' :: digits := by
      refine (List.map_congr_left fun c hc => if_neg ?_).trans (List.map_id _)
      rintro rfl
      exact absurd (hmem 'E' hc) (by decide)
    rw [hmap]
    exact partition_of_not_mem fun hc => absurd (hmem 'e' hc) (by decide)
  have hpoint : partition '.' ('0' :: '.' :: digits) = (['0'], some digits) :=
    partition_append (s := ['0']) (by decide) digits
  have hnumber : decimalNumber ('0' :: '.' :: digits) =
      some ((decimalValue digits : ℚ) / 10 ^ digits.length) := by
    have hzero : digitPart ['0'] = some (0, 1) := rfl
    simp only [decimalNumber, hexponent, hpoint, hzero]
    simp [digitPart_of_digits h, zpow_neg, div_eq_mul_inv]
  have hword : ('0' :: '.' :: digits).map Char.toLower ≠ "inf".toList ∧
      ('0' :: '.' :: digits).map Char.toLower ≠ "infinity".toList ∧
      ('0' :: '.' :: digits).map Char.toLower ≠ "nan".toList := by
    have hfirst : Char.toLower '0' = '0' := by decide
    simp [hfirst]
  obtain ⟨hinf, hinfinity, hnan⟩ := hword
  have hsign : splitSign ('0' :: '.' :: digits) = (false, '0' :: '.' :: digits) := rfl
  simp only [float, hblank, hsign]
  rw [if_neg (not_or.2 ⟨hinf, hinfinity⟩), if_neg hnan, hnumber]
  rfl

/-- Binary64: subnormal numbers are rounded to their fixed step, and numbers
too large are infinite. -/
def binary64 (q : ℚ) : FloatText :=
  let rounded := if |q| < (2 : ℚ) ^ (-1022 : ℤ) then (roundHalfEven (q * 2 ^ 1074) : ℚ) / 2 ^ 1074
    else roundSig 2 53 q
  if 2 ^ 1024 ≤ |rounded| then .infinite (rounded < 0) else .finite rounded

/-- A rounding that keeps one, and keeps the numbers of the unit interval that
are not tiny in it. -/
structure UnitRounding (round : ℚ → FloatText) : Prop where
  one : round 1 = .finite 1
  fraction : ∀ q, 1 / 1000000 ≤ q → q < 1 → ∃ value, round q = .finite value ∧ 0 < value ∧ value ≤ 1

theorem unitRounding_exact : UnitRounding .finite :=
  ⟨rfl, fun q hq hlt => ⟨q, rfl, by linarith, hlt.le⟩⟩

theorem unitRounding_binary64 : UnitRounding binary64 := by
  refine ⟨by decide +kernel, fun q hq hlt => ?_⟩
  have hpos : 0 < q := by linarith
  have hnormal : ¬ |q| < (2 : ℚ) ^ (-1022 : ℤ) := by
    rw [abs_of_pos hpos]
    have htiny : (2 : ℚ) ^ (-1022 : ℤ) ≤ 1 / 1000000 := by decide +kernel
    linarith
  have hround : 0 < roundSig 2 53 q := roundSig_pos (by decide) (by decide) hpos
  have hone : roundSig 2 53 q ≤ 1 := roundSig_le_one (by decide) hpos hlt
  have hfinite : ¬ (2 : ℚ) ^ 1024 ≤ |roundSig 2 53 q| := by
    rw [abs_of_pos hround]
    have hlarge : (1 : ℚ) < 2 ^ 1024 := by decide +kernel
    exact not_le.2 (hone.trans_lt hlarge)
  refine ⟨roundSig 2 53 q, ?_, hround, hone⟩
  simp only [binary64]
  rw [if_neg hnormal, if_neg hfinite]

end PokerDeliberation.Lib
