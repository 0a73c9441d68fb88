import PokerDeliberation.Lib.Float
import PokerDeliberation.Lib.Json.Numbers

/-!
# Floats

The arithmetic of machine floats on exact rationals: the result of an operation
is the rounding (`binary64`) of the exact one, infinities and NaN propagate, and
a comparison with NaN is false. `repr` writes a float with the fewest digits
that read back as it.
-/

namespace PokerDeliberation.Lib

namespace FloatText

/-- `math.isfinite`. -/
def isFinite : FloatText → Bool
  | .finite _ => true
  | _ => false

/-- `abs`. -/
def abs : FloatText → FloatText
  | .finite q => .finite |q|
  | .infinite _ => .infinite false
  | .nan => .nan

def neg : FloatText → FloatText
  | .finite q => .finite (-q)
  | .infinite negative => .infinite !negative
  | .nan => .nan

def add : FloatText → FloatText → FloatText
  | .finite p, .finite q => binary64 (p + q)
  | .nan, _ | _, .nan => .nan
  | .infinite m, .infinite n => if m = n then .infinite m else .nan
  | .infinite n, .finite _ | .finite _, .infinite n => .infinite n

def sub (x y : FloatText) : FloatText := x.add y.neg

def isNegative : FloatText → Bool
  | .finite q => q < 0
  | .infinite negative => negative
  | .nan => false

def isZero : FloatText → Bool
  | .finite q => q = 0
  | _ => false

def mul : FloatText → FloatText → FloatText
  | .finite p, .finite q => binary64 (p * q)
  | .nan, _ | _, .nan => .nan
  | x, y => if x.isZero || y.isZero then .nan else .infinite (x.isNegative != y.isNegative)

/-- `x <= y`. -/
def le : FloatText → FloatText → Bool
  | .finite p, .finite q => p ≤ q
  | .nan, _ | _, .nan => false
  | .infinite true, _ | _, .infinite false => true
  | .infinite false, _ | _, .infinite true => false

/-- `x > y`. -/
def gt (x y : FloatText) : Bool := y.le x && !x.le y

/-- `max(x, y)`: the first one unless the second is greater. -/
def max (x y : FloatText) : FloatText := if y.gt x then y else x

/-- `float` of an integer; `none` is the `OverflowError`. -/
def ofInt (n : Int) : Option FloatText :=
  match binary64 n with
  | .finite q => some (.finite q)
  | _ => none

/-- `math.ulp`. -/
def ulp : FloatText → FloatText
  | .finite q =>
    .finite ((2 : ℚ) ^ (if q = 0 then -1074 else Max.max (Int.log 2 |q| - 52) (-1074)))
  | .infinite _ => .infinite false
  | .nan => .nan

/-! ## Writing -/

/-- The `n` digits and the exponent of the decimal next to `q` that reads back
as it, if there is one. -/
def digitsOf (q : ℚ) (n : Nat) : Option (Nat × Int) :=
  let exponent := Int.log 10 q
  let scale := (10 : ℚ) ^ (exponent + 1 - n)
  let below := ⌊q / scale⌋.toNat
  let readsBack (m : Nat) : Bool := binary64 (m * scale) = .finite q
  -- ten to the `n` is a one at the next exponent
  let above := if below + 1 = 10 ^ n then (1, exponent + 1) else (below + 1, exponent)
  match readsBack below, readsBack (below + 1) with
  | false, false => none
  | true, false => some (below, exponent)
  | false, true => some above
  | true, true => some (if q / scale - below ≤ 1 / 2 then (below, exponent) else above)

/-- The fewest digits that read back; seventeen always do. -/
def shortestDigits (q : ℚ) : Nat × Int :=
  ((List.range 18).findSome? fun n => if n = 0 then none else digitsOf q n).getD
    (0, 0)

/-- An exponent has two digits at least. -/
def exponentDigits (n : Nat) : Text :=
  if (Json.digits n).length < 2 then 0x30 :: Json.digits n else Json.digits n

/-- What stands after the point. -/
def fractionDigits (ds : Text) (whole : Nat) : Text :=
  if ds.length ≤ whole then [0x30] else ds.drop whole

/-- The text of a positive number with the given digits, the first of them at
`10 ^ exponent`. -/
def decimalText (ds : Text) (exponent : Int) : Text :=
  if exponent < -4 ∨ 16 ≤ exponent then
    ds.take 1 ++ (if ds.length ≤ 1 then [] else 0x2e :: ds.drop 1) ++
      0x65 :: (if exponent < 0 then 0x2d else 0x2b) :: exponentDigits exponent.natAbs
  else if exponent < 0 then
    0x30 :: 0x2e :: List.replicate (-exponent - 1).toNat 0x30 ++ ds
  else
    let whole := exponent.toNat + 1
    ds.take whole ++ List.replicate (whole - ds.length) 0x30 ++
      0x2e :: fractionDigits ds whole

/-- `repr`, and `str` and formatting with it. -/
def repr : FloatText → Text
  | .nan => text "nan"
  | .infinite negative => (if negative then [0x2d] else []) ++ text "inf"
  | .finite q =>
    if q = 0 then text "0.0"
    else
      let (ds, exponent) := shortestDigits |q|
      let ds := (Json.digits ds).rdropWhile (· = 0x30)
      (if q < 0 then [0x2d] else []) ++ decimalText ds exponent

/-! ## The text is ASCII -/

/-- All characters are ASCII. -/
def Ascii (t : Text) : Prop := ∀ c ∈ t, c < 128

variable {s t : Text} {c : Nat}

theorem ascii_nil : Ascii [] := by simp [Ascii]

theorem ascii_cons : Ascii (c :: t) ↔ c < 128 ∧ Ascii t := List.forall_mem_cons

theorem ascii_append : Ascii (s ++ t) ↔ Ascii s ∧ Ascii t := List.forall_mem_append

theorem Ascii.mono (h : Ascii t) (hsub : ∀ c ∈ s, c ∈ t) : Ascii s := fun c hc => h c (hsub c hc)

theorem Ascii.take (h : Ascii t) (n : Nat) : Ascii (t.take n) := h.mono fun _ => List.mem_of_mem_take

theorem Ascii.drop (h : Ascii t) (n : Nat) : Ascii (t.drop n) := h.mono fun _ => List.mem_of_mem_drop

theorem ascii_replicate {n : Nat} (h : c < 128) : Ascii (List.replicate n c) := fun _ hd =>
  (List.eq_of_mem_replicate hd).symm ▸ h

theorem ascii_digits (n : Nat) : Ascii (Json.digits n) := by
  intro c hc
  have hdigit := Json.isDigit_of_mem_digits hc
  simp only [Json.isDigit, Bool.and_eq_true, decide_eq_true_eq] at hdigit
  omega

theorem ascii_exponentDigits (n : Nat) : Ascii (exponentDigits n) := by
  unfold exponentDigits
  split
  · exact ascii_cons.2 ⟨by decide, ascii_digits n⟩
  · exact ascii_digits n

theorem ascii_fractionDigits {ds : Text} (h : Ascii ds) (whole : Nat) :
    Ascii (fractionDigits ds whole) := by
  unfold fractionDigits
  split
  · simp [Ascii]
  · exact h.drop whole

theorem ascii_decimalText {ds : Text} (h : Ascii ds) (exponent : Int) :
    Ascii (decimalText ds exponent) := by
  unfold decimalText
  split_ifs <;>
    simp only [ascii_append, ascii_cons, ascii_nil, ascii_exponentDigits, ascii_fractionDigits, h,
      h.take, h.drop, ascii_replicate, Nat.reduceLT, and_self]

theorem ascii_repr (x : FloatText) : Ascii x.repr := by
  cases x with
  | nan => simp [repr, text, Ascii]
  | infinite negative => cases negative <;> simp [repr, text, Ascii]
  | finite q =>
    by_cases hzero : q = 0
    · simp [repr, hzero, text, Ascii]
    · simp only [repr, hzero, if_false]
      refine ascii_append.2 ⟨?_, ascii_decimalText ?_ _⟩
      · split
        · simp [Ascii]
        · exact ascii_nil
      · exact (ascii_digits _).mono fun _ => (List.rdropWhile_prefix _ _).mem

end FloatText

end PokerDeliberation.Lib
