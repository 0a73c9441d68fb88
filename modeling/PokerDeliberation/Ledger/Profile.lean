import PokerDeliberation.Hands.Schemas
import PokerDeliberation.Lib.Rounding
import Mathlib.Data.Finset.Dedup
import Mathlib.Data.List.Sort
import Mathlib.Data.String.Basic

/-!
# Chip units and the ledger profile

The ledger counts in integer multiples of a chip unit. The builder converts
with 28-digit decimal arithmetic (`decimalUnits`), the oracle with exact
fractions (`fractionUnits`). `validateProfileHand` is what a hand must satisfy
before any action is applied.
-/

namespace PokerDeliberation.Ledger

open Lib Hands

def PROFILE_ID : String := "generic_nlhe_cash_no_rake_v1"
def PROFILE_VERSION : String := "1.0.0"
def SUPPORTED_SITE : String := "none"
def MAX_LEDGER_UNITS : Int := 9223372036854775807
def MAX_ACTIONS : Nat := 512

structure HandRuleProfileV1 where
  profileId : String
  profileVersion : String
  supportedSite : String
  chipUnit : String
  chip_unit_length : 1 ≤ chipUnit.length ∧ chipUnit.length ≤ 28 := by decide
  deriving DecidableEq, Repr

/-! ## Chip units -/

/-- `[1-9][0-9]{0,17}`. -/
def wholeUnits : List Char → Bool
  | [] => false
  | c :: cs => '1' ≤ c && c ≤ '9' && cs.length ≤ 17 && cs.all Char.isDigit

/-- `[0-9]{0,8}[1-9]`. -/
def fractionDigits (s : List Char) : Bool :=
  match s.reverse with
  | [] => false
  | c :: cs => '1' ≤ c && c ≤ '9' && cs.length ≤ 8 && cs.all Char.isDigit

/-- The text before and after the first point. -/
def splitPoint (s : List Char) : List Char × Option (List Char) :=
  match s.span (· ≠ '.') with
  | (whole, []) => (whole, none)
  | (whole, _ :: fraction) => (whole, some fraction)

/-- `_CHIP_UNIT_PATTERN`. -/
def chipUnitPattern (raw : List Char) : Bool :=
  match splitPoint raw with
  | (whole, none) => wholeUnits whole
  | (whole, some fraction) => (whole == ['0'] || wholeUnits whole) && fractionDigits fraction

def digitsValue (s : List Char) : Nat := s.foldl (fun n c => 10 * n + (c.toNat - '0'.toNat)) 0

/-- The number a decimal text writes: `Decimal(raw)` and `Fraction(raw)`. -/
def decimalText (raw : List Char) : ℚ :=
  match splitPoint raw with
  | (whole, none) => digitsValue whole
  | (whole, some fraction) => digitsValue whole + digitsValue fraction / 10 ^ fraction.length

/-- The chip unit of a profile. -/
def HandRuleProfileV1.unit (profile : HandRuleProfileV1) : ℚ := decimalText profile.chipUnit.toList

def validateChipUnit (raw : String) : Except String ℚ := do
  require (chipUnitPattern raw.toList) "chip-unit-grammar-unsupported"
  let value := decimalText raw.toList
  require (0 < value) "chip-unit-grammar-unsupported"
  return value

example : validateChipUnit "0.05" = .ok (1 / 20) := by decide +kernel
example : validateChipUnit "0.50" = .error "chip-unit-grammar-unsupported" := by decide +kernel

/-- A result of decimal arithmetic with 28 digits. -/
def decimalRound (q : ℚ) : ℚ := roundSig 10 28 q

def decimalUnits (value : Chips) (unit : ℚ) : Except String Int := do
  require ((value : ℚ) ≤ decimalRound (unit * MAX_LEDGER_UNITS)) "ledger-unit-limit-exceeded"
  let quotient := decimalRound (value / unit)
  require (quotient = ⌊quotient⌋) "amount-not-integral-in-chip-unit"
  return ⌊quotient⌋

def fractionUnits (value : Chips) (unit : ℚ) : Except String Int := do
  let quotient := (value : ℚ) / unit
  require (quotient.den = 1) "oracle-non-integral-chip-unit"
  let units := quotient.num
  require (0 ≤ units ∧ units ≤ MAX_LEDGER_UNITS) "oracle-ledger-unit-limit-exceeded"
  return units

def checkedAdd (left right : Int) : Except String Int := do
  require (0 ≤ left ∧ 0 ≤ right ∧ left ≤ MAX_LEDGER_UNITS - right) "ledger-overflow"
  return left + right

/-- `value` is the given multiple of the chip unit. -/
def IsMultiple (value : Chips) (unit : ℚ) (n : ℕ) : Prop := (value : ℚ) = n * unit

section

variable {value : Chips} {unit : ℚ} {n : ℕ} {left right total : Int}

theorem decimalUnits_nonneg (hunit : 0 < unit) {m : Int} (h : decimalUnits value unit = .ok m) :
    0 ≤ m := by
  simp only [decimalUnits, require_bind_eq_ok, pure_eq_ok] at h
  obtain ⟨_, _, rfl⟩ := h
  exact Int.floor_nonneg.2 (roundSig_nonneg (div_nonneg (NNRat.coe_nonneg value) hunit.le))

/-- The rounded limit admits no multiple of the unit beyond the true one. -/
theorem le_of_le_limit (hunit : 0 < unit) (hn : IsMultiple value unit n)
    (h : (value : ℚ) ≤ decimalRound (unit * MAX_LEDGER_UNITS)) : (n : Int) ≤ MAX_LEDGER_UNITS := by
  have hlimit : (0 : ℚ) ≤ unit * MAX_LEDGER_UNITS := by
    rw [MAX_LEDGER_UNITS]; positivity
  have hround := h.trans (roundSig_le (by norm_num) hlimit)
  rw [hn] at hround
  have hbound : (n : ℚ) < (MAX_LEDGER_UNITS + 1 : Int) := by
    have hscaled : (n : ℚ) * unit < (MAX_LEDGER_UNITS + 1 : Int) * unit := by
      refine hround.trans_lt ?_
      norm_num [MAX_LEDGER_UNITS]
      nlinarith
    exact lt_of_mul_lt_mul_right hscaled hunit.le
  have hint : (n : Int) < MAX_LEDGER_UNITS + 1 := by exact_mod_cast hbound
  omega

/-- On an exact multiple the decimal conversion is exact. -/
theorem decimalUnits_eq (hunit : 0 < unit) (hn : IsMultiple value unit n) {m : Int}
    (h : decimalUnits value unit = .ok m) : m = n ∧ (n : Int) ≤ MAX_LEDGER_UNITS := by
  simp only [decimalUnits, require_bind_eq_ok, pure_eq_ok] at h
  obtain ⟨hlimit, _, rfl⟩ := h
  have hle := le_of_le_limit hunit hn hlimit
  have hquotient : (value : ℚ) / unit = n := by rw [hn, mul_div_cancel_right₀ _ hunit.ne']
  have hsmall : n < 10 ^ 28 := by rw [MAX_LEDGER_UNITS] at hle; omega
  refine ⟨?_, hle⟩
  rw [decimalRound, hquotient, roundSig_natCast (by norm_num) hsmall]
  exact Int.floor_natCast n

/-- On an exact multiple within the limit the exact conversion succeeds. -/
theorem fractionUnits_eq (hunit : 0 < unit) (hn : IsMultiple value unit n)
    (hle : (n : Int) ≤ MAX_LEDGER_UNITS) : fractionUnits value unit = .ok n := by
  have hquotient : (value : ℚ) / unit = n := by rw [hn, mul_div_cancel_right₀ _ hunit.ne']
  simp [fractionUnits, hquotient, require, hle, bind, Except.bind, pure, Except.pure]

theorem checkedAdd_ok (h : checkedAdd left right = .ok total) :
    0 ≤ left ∧ 0 ≤ right ∧ total = left + right ∧ total ≤ MAX_LEDGER_UNITS := by
  simp only [checkedAdd, require_bind_eq_ok, pure_eq_ok] at h
  obtain ⟨⟨hleft, hright, hle⟩, rfl⟩ := h
  exact ⟨hleft, hright, rfl, by omega⟩

theorem validateChipUnit_ok {raw : String} (h : validateChipUnit raw = .ok unit) :
    0 < unit ∧ unit = decimalText raw.toList := by
  simp only [validateChipUnit, require_bind_eq_ok, pure_eq_ok] at h
  obtain ⟨_, hpos, rfl⟩ := h
  exact ⟨hpos, rfl⟩

end

/-! ## The profile of a hand -/

def validateProfile (profile : HandRuleProfileV1) : Except String ℚ := do
  require (profile.profileId = PROFILE_ID) "unsupported-rule-profile"
  require (profile.profileVersion = PROFILE_VERSION) "unknown-rule-profile-version"
  require (profile.supportedSite = SUPPORTED_SITE) "unsupported-site-profile"
  validateChipUnit profile.chipUnit

def checkRake (hand : CanonicalHand) (unit : ℚ) : Except String Unit :=
  match hand.rake with
  | none => .error "explicit-zero-rake-required"
  | some rake => do
    let rakeUnits ← decimalUnits rake unit
    require (rakeUnits = 0) "unsupported-rake"

def checkCardSet (hand : CanonicalHand) : Except String Unit :=
  match normalizeCards (hand.heroCards ++ hand.board) with
  | .ok _ => .ok ()
  | .error _ => .error "card-set-invalid"

/-- One small and one big blind, of two players. -/
def checkBlinds (hand : CanonicalHand) (unit : ℚ) (smallBlind bigBlind : Int) :
    Except String Unit := do
  let blindActions := hand.actions.filter fun action => action.action = .postBlind
  require (blindActions.length = 2) "unsupported-blind-or-straddle-structure"
  let blindAmounts ← blindActions.mapM fun action => decimalUnits action.amount unit
  require (blindAmounts.insertionSort (· ≤ ·) = [smallBlind, bigBlind])
    "unsupported-blind-or-straddle-structure"
  require ((blindActions.map (·.actor)).toFinset.card = 2 ∧
      ∀ action ∈ blindActions, action.street = .preflop)
    "unsupported-blind-or-straddle-structure"

/-- No ante, or the same ante of every player. -/
def checkAntes (hand : CanonicalHand) (unit : ℚ) (ante : Int) : Except String Unit := do
  let anteActions := hand.actions.filter fun action => action.action = .postAnte
  if ante = 0 then
    require (anteActions = []) "unexpected-ante-post"
  else
    require (anteActions.length = hand.players.length ∧
        (anteActions.map (·.actor)).toFinset = hand.playerIds.toFinset)
      "unsupported-ante-structure"
    forM anteActions fun action => do
      require (action.street = .preflop) "unsupported-ante-structure"
      let amount ← decimalUnits action.amount unit
      require (amount = ante) "unsupported-ante-structure"

def validateProfileHand (hand : CanonicalHand) (unit : ℚ) : Except String (Int × Int × Int) := do
  require (hand.gameType = .nlhe) "unsupported-game-type"
  require (hand.format = .cash ∧ hand.tournament = false) "unsupported-non-cash-context"
  checkRake hand unit
  require (hand.tableSize = hand.players.length) "table-size-player-count-mismatch"
  require (hand.actions.length ≤ MAX_ACTIONS) "action-count-limit-exceeded"
  require (hand.smallBlind < hand.bigBlind) "blind-structure-invalid"
  require (hand.board.length ∈ [0, 3, 4, 5]) "board-card-count-invalid"
  checkCardSet hand
  let smallBlind ← decimalUnits hand.smallBlind unit
  let bigBlind ← decimalUnits hand.bigBlind unit
  let ante ← decimalUnits hand.ante unit
  require (0 < smallBlind ∧ smallBlind < bigBlind) "blind-structure-invalid"
  checkBlinds hand unit smallBlind bigBlind
  checkAntes hand unit ante
  return (smallBlind, bigBlind, ante)

section

variable {hand : CanonicalHand} {unit : ℚ} {smallBlind bigBlind ante : Int}

/-- What the profile asks of a hand. -/
structure Profiled (hand : CanonicalHand) (unit : ℚ) (smallBlind bigBlind ante : Int) : Prop where
  game_type : hand.gameType = .nlhe
  cash : hand.format = .cash ∧ hand.tournament = false
  rake : checkRake hand unit = .ok ()
  table_size : hand.tableSize = hand.players.length
  actions_le : hand.actions.length ≤ MAX_ACTIONS
  board_length : hand.board.length ∈ [0, 3, 4, 5]
  cards : checkCardSet hand = .ok ()
  small_blind_units : decimalUnits hand.smallBlind unit = .ok smallBlind
  big_blind_units : decimalUnits hand.bigBlind unit = .ok bigBlind
  ante_units : decimalUnits hand.ante unit = .ok ante
  blind_order : 0 < smallBlind ∧ smallBlind < bigBlind
  blinds : checkBlinds hand unit smallBlind bigBlind = .ok ()
  antes : checkAntes hand unit ante = .ok ()

theorem profiled_of_ok (h : validateProfileHand hand unit = .ok (smallBlind, bigBlind, ante)) :
    Profiled hand unit smallBlind bigBlind ante := by
  simp only [validateProfileHand, bind_eq_ok, require_eq_ok, exists_const, pure_eq_ok,
    Prod.mk.injEq] at h
  obtain ⟨hgame, hcash, _, hrake, htable, hactions, _, hboard, _, hcards, small, hsmall, big, hbig,
    ante', hante, horder, _, hblinds, _, hantes, rfl, rfl, rfl⟩ := h
  exact ⟨hgame, hcash, hrake, htable, hactions, hboard, hcards, hsmall, hbig, hante, horder,
    hblinds, hantes⟩

end

end PokerDeliberation.Ledger
