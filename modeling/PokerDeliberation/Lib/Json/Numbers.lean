import PokerDeliberation.Lib.Utf8
import Mathlib.Data.List.TakeDrop
import Mathlib.Data.List.TakeWhile

/-!
# JSON numbers

The scanner of a number reads its integer part, fraction and exponent, and
stops at the first character that no number has. An integer is read back from
the digits written for it; how floats are written is left open in `Numbers`,
up to what the language says of it.
-/

namespace PokerDeliberation.Lib.Json

/-! ## Characters -/

@[match_pattern] abbrev QUOTE : Nat := 0x22
@[match_pattern] abbrev BACKSLASH : Nat := 0x5c
@[match_pattern] abbrev COMMA : Nat := 0x2c
@[match_pattern] abbrev COLON : Nat := 0x3a
@[match_pattern] abbrev OPEN_BRACKET : Nat := 0x5b
@[match_pattern] abbrev CLOSE_BRACKET : Nat := 0x5d
@[match_pattern] abbrev OPEN_BRACE : Nat := 0x7b
@[match_pattern] abbrev CLOSE_BRACE : Nat := 0x7d
@[match_pattern] abbrev MINUS : Nat := 0x2d
@[match_pattern] abbrev BOM : Nat := 0xfeff

/-! ## Scanning -/

def isDigit (c : Nat) : Bool := 0x30 ≤ c && c ≤ 0x39

/-- The digits in front. -/
def scanDigits (t : Text) : Text × Text := t.span isDigit

/-- The integer part: zero, or digits that start with none. -/
def scanInteger : Text → Option (Text × Text)
  | [] => none
  | c :: t =>
    if c = 0x30 then some ([c], t)
    else if isDigit c then some (scanDigits (c :: t))
    else none

/-- A point and digits, or nothing. -/
def scanFraction : Text → Text × Text
  | 0x2e :: t =>
    match scanDigits t with
    | ([], _) => ([], 0x2e :: t)
    | (ds, rest) => (0x2e :: ds, rest)
  | t => ([], t)

/-- The sign of an exponent, if there is one. -/
def scanSign : Text → Text × Text
  | 0x2b :: t => ([0x2b], t)
  | MINUS :: t => ([MINUS], t)
  | t => ([], t)

/-- The exponent with its letter, or nothing. -/
def scanExponent : Text → Text × Text
  | [] => ([], [])
  | c :: t =>
    if c = 0x65 ∨ c = 0x45 then
      match scanDigits (scanSign t).2 with
      | ([], _) => ([], c :: t)
      | (ds, rest) => (c :: ((scanSign t).1 ++ ds), rest)
    else ([], c :: t)

/-- The sign of a number, if there is one. -/
def scanMinus : Text → Text × Text
  | MINUS :: t => ([MINUS], t)
  | t => ([], t)

/-- A number: whether it is written as a float, its text and what follows. -/
def scanNumber (t : Text) : Option (Bool × Text × Text) := do
  let (int, rest) ← scanInteger (scanMinus t).2
  let (frac, rest') := scanFraction rest
  let (exp, rest'') := scanExponent rest'
  return (!(frac.isEmpty && exp.isEmpty), (scanMinus t).1 ++ int ++ frac ++ exp, rest'')

/-- `int` of the text of an integer without its sign. -/
def digitsValue (ds : Text) : Nat := ds.foldl (fun n c => 10 * n + (c - 0x30)) 0

def intValue (t : Text) : Int :=
  match t with
  | MINUS :: ds => -(digitsValue ds : Int)
  | ds => digitsValue ds

/-- The digits of an integer, without its sign. -/
def unsigned (t : Text) : Text := (scanMinus t).2

/-! ## Writing -/

def digits (n : Nat) : Text := (Nat.toDigits 10 n).map Char.toNat

def intText (n : Int) : Text := if n < 0 then MINUS :: digits n.natAbs else digits n.natAbs

/-- How the language reads and writes numbers: `ofText` is `float` of the text of a JSON
number, `repr` of a finite float is such a text and reads as the same float, and no integer
with more than `maxStrDigits` digits is converted. -/
structure Numbers (F : Type) where
  finite : F → Bool
  repr : F → Text
  ofText : Text → F
  maxStrDigits : Nat := 4300
  scan_repr : ∀ {x}, finite x = true → scanNumber (repr x) = some (true, repr x, [])
  ofText_repr : ∀ {x}, finite x = true → ofText (repr x) = x

/-- No float is finite. -/
def withoutFloats : Numbers Unit where
  finite _ := false
  repr _ := []
  ofText _ := ()
  scan_repr h := by cases h
  ofText_repr h := by cases h

variable {t rest : Text} {c n : Nat}

/-! ## What follows a number -/

/-- No number goes on with what follows. -/
def Stops (rest : Text) : Prop :=
  ∀ c ∈ rest.head?, c = COMMA ∨ c = CLOSE_BRACKET ∨ c = CLOSE_BRACE

theorem stops_nil : Stops [] := by simp [Stops]

theorem stops_cons (h : c = COMMA ∨ c = CLOSE_BRACKET ∨ c = CLOSE_BRACE) : Stops (c :: t) := by
  intro d hd
  rw [List.head?_cons, Option.mem_some_iff] at hd
  exact hd ▸ h

theorem scanDigits_eq (t : Text) : scanDigits t = (t.takeWhile isDigit, t.dropWhile isDigit) :=
  List.span_eq_takeWhile_dropWhile _ _

theorem Stops.not_isDigit (h : Stops rest) (hc : c ∈ rest.head?) : isDigit c = false := by
  rcases h c hc with rfl | rfl | rfl <;> rfl

theorem scanDigits_append (h : Stops rest) :
    scanDigits (t ++ rest) = ((scanDigits t).1, (scanDigits t).2 ++ rest) := by
  simp only [scanDigits_eq]
  induction t with
  | nil =>
    cases rest with
    | nil => rfl
    | cons c rest =>
      have hc := h.not_isDigit (show c ∈ (c :: rest).head? from rfl)
      simp [hc]
  | cons c t ih =>
    rw [Prod.mk.injEq] at ih
    by_cases hc : isDigit c = true
    · simp [hc, ih.1, ih.2]
    · simp [hc]

theorem scanMinus_append (h : Stops rest) :
    scanMinus (t ++ rest) = ((scanMinus t).1, (scanMinus t).2 ++ rest) := by
  cases t with
  | nil =>
    cases rest with
    | nil => rfl
    | cons c rest =>
      rcases h c rfl with rfl | rfl | rfl <;> rfl
  | cons c t =>
    by_cases hc : c = MINUS
    · subst hc; rfl
    · have hne : ∀ u : Text, scanMinus (c :: u) = ([], c :: u) := by
        intro u
        unfold scanMinus
        split
        · next heq => exact absurd (List.cons.inj heq).1 hc
        · rfl
      rw [List.cons_append, hne, hne, List.cons_append]

theorem scanSign_append (h : Stops rest) :
    scanSign (t ++ rest) = ((scanSign t).1, (scanSign t).2 ++ rest) := by
  cases t with
  | nil =>
    cases rest with
    | nil => rfl
    | cons c rest =>
      rcases h c rfl with rfl | rfl | rfl <;> rfl
  | cons c t =>
    by_cases hplus : c = 0x2b
    · subst hplus; rfl
    · by_cases hc : c = MINUS
      · subst hc; rfl
      · have hne : ∀ u : Text, scanSign (c :: u) = ([], c :: u) := by
          intro u
          unfold scanSign
          split
          · next heq => exact absurd (List.cons.inj heq).1 hplus
          · next heq => exact absurd (List.cons.inj heq).1 hc
          · rfl
        rw [List.cons_append, hne, hne, List.cons_append]

theorem scanInteger_append {int r : Text} (hstop : Stops rest) (h : scanInteger t = some (int, r)) :
    scanInteger (t ++ rest) = some (int, r ++ rest) := by
  cases t with
  | nil => cases h
  | cons c t =>
    rw [List.cons_append]
    simp only [scanInteger] at h ⊢
    by_cases hzero : c = 0x30
    · rw [if_pos hzero] at h ⊢
      simp only [Option.some.injEq, Prod.mk.injEq] at h
      rw [← h.1, ← h.2]
    · rw [if_neg hzero] at h ⊢
      by_cases hdigit : isDigit c = true
      · rw [if_pos hdigit, Option.some.injEq] at h
        rw [if_pos hdigit, ← List.cons_append, scanDigits_append hstop, h]
      · rw [if_neg hdigit] at h
        cases h

theorem scanFraction_append (h : Stops rest) :
    scanFraction (t ++ rest) = ((scanFraction t).1, (scanFraction t).2 ++ rest) := by
  cases t with
  | nil =>
    cases rest with
    | nil => rfl
    | cons c rest => rcases h c rfl with rfl | rfl | rfl <;> rfl
  | cons c t =>
    rw [List.cons_append]
    by_cases hc : c = 0x2e
    · subst hc
      have hdigits := @scanDigits_append t rest h
      simp only [scanFraction, hdigits]
      rcases scanDigits t with ⟨_ | ⟨d, ds⟩, r⟩ <;> rfl
    · have hne : ∀ u : Text, scanFraction (c :: u) = ([], c :: u) := by
        intro u
        unfold scanFraction
        split
        · next heq => exact absurd (List.cons.inj heq).1 hc
        · rfl
      rw [hne, hne, List.cons_append]

theorem scanExponent_append (h : Stops rest) :
    scanExponent (t ++ rest) = ((scanExponent t).1, (scanExponent t).2 ++ rest) := by
  cases t with
  | nil =>
    cases rest with
    | nil => rfl
    | cons c rest => rcases h c rfl with rfl | rfl | rfl <;> rfl
  | cons c t =>
    rw [List.cons_append]
    simp only [scanExponent]
    by_cases hc : c = 0x65 ∨ c = 0x45
    · simp only [if_pos hc, scanSign_append h, scanDigits_append h]
      rcases scanDigits (scanSign t).2 with ⟨_ | ⟨d, ds⟩, r⟩ <;> rfl
    · simp only [if_neg hc, List.cons_append]

/-- A number that ends a text is read the same where something else follows. -/
theorem scanNumber_append {float : Bool} {number r : Text} (hstop : Stops rest)
    (h : scanNumber t = some (float, number, r)) :
    scanNumber (t ++ rest) = some (float, number, r ++ rest) := by
  unfold scanNumber at h ⊢
  simp only [Option.bind_eq_bind, Option.bind_eq_some_iff, Option.pure_def, Option.some.injEq,
    Prod.mk.injEq, Prod.exists] at h ⊢
  obtain ⟨int, r₁, hint, hfloat, hnumber, hr⟩ := h
  refine ⟨int, r₁ ++ rest, ?_, ?_⟩
  · rw [scanMinus_append hstop]
    exact scanInteger_append hstop hint
  · rw [scanFraction_append hstop, scanExponent_append hstop, scanMinus_append hstop]
    exact ⟨hfloat, hnumber, by rw [← hr]⟩

/-! ## Integers -/

theorem digits_of_lt (h : n < 10) : digits n = [0x30 + n] := by
  have hchar : ∀ m < 10, (Nat.digitChar m).toNat = 0x30 + m := by decide
  rw [digits, Nat.toDigits_of_lt_base h, List.map_singleton, hchar n h]

theorem digits_of_ge (h : 10 ≤ n) : digits n = digits (n / 10) ++ [0x30 + n % 10] := by
  rw [← digits_of_lt (Nat.mod_lt n (by decide))]
  simp only [digits]
  rw [Nat.toDigits_of_base_le (by decide) h, Nat.toDigits_of_lt_base (Nat.mod_lt n (by decide)),
    List.map_append, List.map_singleton]

theorem isDigit_of_mem_digits (h : c ∈ digits n) : isDigit c = true := by
  induction n using Nat.strongRecOn with
  | ind n ih =>
    rcases Nat.lt_or_ge n 10 with hlt | hge
    · rw [digits_of_lt hlt, List.mem_singleton] at h
      subst h
      simp [isDigit]
      omega
    · rw [digits_of_ge hge, List.mem_append, List.mem_singleton] at h
      rcases h with h | rfl
      · exact ih (n / 10) (by omega) h
      · simp [isDigit]
        omega

/-- The digits of a number start with its leading digit, zero only for zero itself. -/
theorem digits_cons (n : Nat) : ∃ c t, digits n = c :: t ∧ (c = 0x30 → n = 0 ∧ t = []) := by
  induction n using Nat.strongRecOn with
  | ind n ih =>
    rcases Nat.lt_or_ge n 10 with hlt | hge
    · exact ⟨0x30 + n, [], digits_of_lt hlt, fun h => ⟨by omega, rfl⟩⟩
    · obtain ⟨c, t, hcons, hzero⟩ := ih (n / 10) (by omega)
      refine ⟨c, t ++ [0x30 + n % 10], by rw [digits_of_ge hge, hcons, List.cons_append], fun h => ?_⟩
      obtain ⟨hsmall, -⟩ := hzero h
      omega

theorem digitsValue_digits (n : Nat) : digitsValue (digits n) = n := by
  induction n using Nat.strongRecOn with
  | ind n ih =>
    rcases Nat.lt_or_ge n 10 with hlt | hge
    · rw [digits_of_lt hlt]
      simp [digitsValue]
    · rw [digits_of_ge hge, digitsValue, List.foldl_append]
      show 10 * digitsValue (digits (n / 10)) + (0x30 + n % 10 - 0x30) = n
      rw [ih (n / 10) (by omega)]
      omega

theorem scanDigits_of_all (h : ∀ c ∈ t, isDigit c = true) : scanDigits t = (t, []) := by
  rw [scanDigits_eq, List.takeWhile_eq_self_iff.2 h, List.dropWhile_eq_nil_iff.2 h]

theorem scanInteger_digits (n : Nat) : scanInteger (digits n) = some (digits n, []) := by
  obtain ⟨c, t, hcons, hzero⟩ := digits_cons n
  have hall : ∀ d ∈ c :: t, isDigit d = true := by
    rw [← hcons]
    exact fun d hd => isDigit_of_mem_digits hd
  rw [hcons]
  simp only [scanInteger]
  by_cases hc : c = 0x30
  · rw [if_pos hc, (hzero hc).2]
  · rw [if_neg hc, if_pos (hall c List.mem_cons_self), scanDigits_of_all hall]

theorem scanMinus_digits (n : Nat) : scanMinus (digits n) = ([], digits n) := by
  obtain ⟨c, t, hcons, -⟩ := digits_cons n
  have hc : isDigit c = true := isDigit_of_mem_digits (n := n) (by rw [hcons]; exact List.mem_cons_self)
  rw [hcons]
  unfold scanMinus
  split
  · next heq =>
    rw [(List.cons.inj heq).1] at hc
    cases hc
  · rfl

theorem scanMinus_intText (k : Int) :
    (scanMinus (intText k)).2 = digits k.natAbs ∧
      (scanMinus (intText k)).1 ++ digits k.natAbs = intText k := by
  unfold intText
  split
  · exact ⟨rfl, rfl⟩
  · rw [scanMinus_digits]
    exact ⟨rfl, rfl⟩

/-- What is written for an integer is scanned as one. -/
theorem scanNumber_intText (k : Int) : scanNumber (intText k) = some (false, intText k, []) := by
  obtain ⟨hunsigned, hsigned⟩ := scanMinus_intText k
  simp only [scanNumber, hunsigned, scanInteger_digits, Option.bind_eq_bind, Option.bind_some,
    scanFraction, scanExponent, Option.pure_def, List.append_nil, List.isEmpty_nil, Bool.and_self,
    Bool.not_true, hsigned]

theorem unsigned_intText (k : Int) : unsigned (intText k) = digits k.natAbs := (scanMinus_intText k).1

theorem intValue_intText (k : Int) : intValue (intText k) = k := by
  unfold intText
  split
  · simp only [intValue, digitsValue_digits]
    omega
  · have hcons := digits_cons k.natAbs
    obtain ⟨c, t, hcons, -⟩ := hcons
    have hc : isDigit c = true := isDigit_of_mem_digits (n := k.natAbs) (by rw [hcons]; exact List.mem_cons_self)
    unfold intValue
    split
    · next heq =>
      rw [hcons] at heq
      rw [(List.cons.inj heq).1] at hc
      cases hc
    · rw [digitsValue_digits]
      omega

end PokerDeliberation.Lib.Json
