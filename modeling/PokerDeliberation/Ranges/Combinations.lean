import PokerDeliberation.Cards
import PokerDeliberation.Lib.Float
import Mathlib.Data.List.Sort
import Mathlib.Data.String.Basic

/-!
# Weighted ranges

The second reader of range notations, of the calculator tools: any case, any
blanks between the tokens, weights that are floats. A card is its text, and the
cards of a combo are in the order of their texts.
-/

namespace PokerDeliberation.Ranges

open Lib

inductive RangeError where
  | cards (error : CardError)
  | sameCard
  | unsupportedToken (token : List Char)
  | pairSuffix
  | missingSuffix
  | emptyNotation
  | notAFloat (text : List Char)
  | weightRange
  | overlapping (combo : String × String)
  | noCombos
  deriving DecidableEq, Repr

/-- The case folding of a pattern that ignores case: the Kelvin sign is a `k`
and the long `s` an `s`. -/
def foldCase (c : Char) : Char :=
  if c = '\u212a' then 'k' else if c = '\u017f' then 's' else c.toLower

def matchesIgnoringCase (cls : List Char) (c : Char) : Bool := foldCase c ∈ cls.map foldCase

/-- `tuple(sorted((first, second)))`. -/
def sortedPair (first second : String) : String × String :=
  if second < first then (second, first) else (first, second)

/-- `_canonical_combo`. -/
def canonicalTexts (first second : String) : Except RangeError (String × String) :=
  if first = second then .error .sameCard else .ok (sortedPair first second)

/-- The order of pairs of texts. -/
def pairLe (a b : String × String) : Prop := a.1 < b.1 ∨ a.1 = b.1 ∧ a.2 ≤ b.2

instance (a b : String × String) : Decidable (pairLe a b) := by
  unfold pairLe
  infer_instance

/-- The text of a rank and a suit. -/
def cardText (rank suit : Char) : String := String.ofList [rank, suit]

/-- The texts of the combos of a class of pairs. -/
def pairTexts (rank : Char) : List (String × String) :=
  SUITS.zipIdx.flatMap fun (s, index) =>
    (SUITS.drop (index + 1)).map fun s' => (cardText rank s, cardText rank s')

/-- The texts of the combos of a class of two ranks. -/
def classTexts (first second suffix : Char) : List (String × String) :=
  if suffix = 's' then SUITS.map fun s => (cardText first s, cardText second s)
  else SUITS.flatMap fun s => (SUITS.filter (s ≠ ·)).map fun s' =>
    (cardText first s, cardText second s')

def touches (dead : List String) (combo : String × String) : Bool :=
  combo.1 ∈ dead || combo.2 ∈ dead

/-- The combos of a class token of two ranks and perhaps a suffix. -/
def classCombos (first second : Char) (suffix : Option Char) :
    Except RangeError (List (String × String)) :=
  if first = second then do
    require (suffix = none) .pairSuffix
    (pairTexts first).mapM fun (a, b) => canonicalTexts a b
  else
    match suffix with
    | none => throw .missingSuffix
    | some suffix => (classTexts first second suffix).mapM fun (a, b) => canonicalTexts a b

/-- `HAND_CLASS_RE`. -/
def classMatch (token : List Char) : Option (Char × Char × Option Char) :=
  match token with
  | [a, b] =>
    if matchesIgnoringCase RANKS a ∧ matchesIgnoringCase RANKS b then
      some (a.toUpper, b.toUpper, none)
    else none
  | [a, b, c] =>
    if matchesIgnoringCase RANKS a ∧ matchesIgnoringCase RANKS b ∧
        matchesIgnoringCase ['s', 'o'] c then
      some (a.toUpper, b.toUpper, some c.toLower)
    else none
  | _ => none

/-- `SPECIFIC_COMBO_RE`. -/
def specificMatch (token : List Char) : Option (String × String) :=
  match token with
  | [r1, s1, r2, s2] =>
    if matchesIgnoringCase RANKS r1 ∧ matchesIgnoringCase SUITS s1 ∧
        matchesIgnoringCase RANKS r2 ∧ matchesIgnoringCase SUITS s2 then
      some (cardText r1 s1, cardText r2 s2)
    else none
  | _ => none

def expandHandClass (handClass : List Char) (deadCards : List String) :
    Except RangeError (List (String × String)) := do
  let token := strip isUnicodeSpace handClass
  let dead := (← (normalizeCards deadCards).mapError .cards).map Card.text
  match specificMatch token with
  | some (card1, card2) => do
    let first ← (normalizeCard card1).mapError .cards
    let second ← (normalizeCard card2).mapError .cards
    let combo ← canonicalTexts first.text second.text
    return if touches dead combo then [] else [combo]
  | none =>
    match classMatch token with
    | none => throw (.unsupportedToken handClass)
    | some (first, second, suffix) => do
      let combos ← classCombos first second suffix
      return (combos.filter fun combo => !touches dead combo).insertionSort pairLe

structure WeightedCombo where
  cards : String × String
  weight : ℚ
  deriving DecidableEq

section

variable (round : ℚ → FloatText) (deadCards : List String)

/-- The weight of a token: `0 < weight <= 1`. -/
def tokenWeight : Option (List Char) → Except RangeError ℚ
  | none => .ok 1
  | some text =>
    match float round text with
    | none => .error (.notAFloat text)
    | some (.finite weight) => if 0 < weight ∧ weight ≤ 1 then .ok weight else .error .weightRange
    | some _ => .error .weightRange

def addWeight (weight : ℚ) (weights : List WeightedCombo) (combo : String × String) :
    Except RangeError (List WeightedCombo) := do
  require (combo ∉ weights.map (·.cards)) (.overlapping combo)
  return weights ++ [{ cards := combo, weight }]

/-- The token and its weight, after `@` or else after `:`. -/
def splitWeight (raw : List Char) : List Char × Option (List Char) :=
  match partition '@' raw with
  | (token, some text) => (token, some text)
  | (_, none) => partition ':' raw

def addToken (weights : List WeightedCombo) (raw : List Char) :
    Except RangeError (List WeightedCombo) := do
  let weight ← tokenWeight round (splitWeight raw).2
  let combos ← expandHandClass (splitWeight raw).1 deadCards
  combos.foldlM (addWeight weight) weights

def isSeparator (c : Char) : Bool := isUnicodeSpace c || c == ','

def parseWeightedRange (text : List Char) : Except RangeError (List WeightedCombo) := do
  let rawTokens := ((strip isUnicodeSpace text).splitOnP isSeparator).filter (· ≠ [])
  require (rawTokens ≠ []) .emptyNotation
  let weights ← rawTokens.foldlM (addToken round deadCards) []
  require (weights ≠ []) .noCombos
  return weights.insertionSort fun a b => pairLe a.cards b.cards

end

example : parseWeightedRange binary64 [] "aks:0.5, QcQd".toList = .ok
    [⟨("Ac", "Kc"), 1 / 2⟩, ⟨("Ad", "Kd"), 1 / 2⟩, ⟨("Ah", "Kh"), 1 / 2⟩, ⟨("As", "Ks"), 1 / 2⟩,
      ⟨("Qc", "Qd"), 1⟩] := by decide +kernel

end PokerDeliberation.Ranges
