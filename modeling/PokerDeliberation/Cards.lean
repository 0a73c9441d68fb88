import PokerDeliberation.Lib.Checked
import PokerDeliberation.Lib.Text

/-!
# Cards

A normalized card is a rank and a suit, each its index in `RANKS` and `SUITS`.
-/

namespace PokerDeliberation

open Lib

def RANKS : List Char := "23456789TJQKA".toList

def SUITS : List Char := "cdhs".toList

theorem ranks_length : 13 = RANKS.length := rfl

theorem suits_length : 4 = SUITS.length := rfl

structure Card where
  rank : Fin 13
  suit : Fin 4
  deriving DecidableEq, Repr

instance neZero_ranks : NeZero 13 := inferInstance

instance neZero_suits : NeZero 4 := inferInstance

inductive CardError where
  | invalidCard (card : String)
  | duplicateCards
  deriving DecidableEq, Repr

/-- The rank and the suit with the given characters. -/
def Card.ofChars (rank suit : Char) : Option Card := do
  let r ← RANKS.idxOf? rank
  let s ← SUITS.idxOf? suit
  if h : r < 13 ∧ s < 4 then some ⟨⟨r, h.1⟩, ⟨s, h.2⟩⟩ else none

/-- The two characters of a card. -/
def Card.chars (card : Card) : List Char :=
  [RANKS.get (card.rank.cast ranks_length), SUITS.get (card.suit.cast suits_length)]

def Card.text (card : Card) : String := String.ofList card.chars

/-- `_card_key`: by rank downwards, then by suit. -/
def Card.key (card : Card) : Nat := (12 - card.rank) * 4 + card.suit

theorem Card.key_injective : Function.Injective Card.key := by
  rintro ⟨r, s⟩ ⟨r', s'⟩ h
  simp only [Card.key] at h
  congr 1 <;> ext <;> omega

theorem Card.key_lt (card : Card) : card.key < 52 := by
  have := card.suit.isLt
  simp only [Card.key]
  omega

theorem Card.ofChars_chars (card : Card) :
    ∃ rank suit, card.chars = [rank, suit] ∧ Card.ofChars rank suit = some card := by
  obtain ⟨r, s⟩ := card
  refine ⟨_, _, rfl, ?_⟩
  revert r s
  decide

def normalizeCard (card : String) : Except CardError Card :=
  match strip isUnicodeSpace card.toList with
  | [rank, suit] =>
    match Card.ofChars rank.toUpper suit.toLower with
    | some c => .ok c
    | none => .error (.invalidCard card)
  | _ => .error (.invalidCard card)

def normalizeCards (cards : List String) : Except CardError (List Card) := do
  let normalized ← cards.mapM normalizeCard
  require normalized.Nodup .duplicateCards
  return normalized

theorem normalizeCard_text (card : Card) : normalizeCard card.text = .ok card := by
  obtain ⟨r, s⟩ := card
  have h : ∀ r s, (match strip isUnicodeSpace (Card.chars ⟨r, s⟩) with
      | [rank, suit] => Card.ofChars rank.toUpper suit.toLower
      | _ => none) = some ⟨r, s⟩ := by decide
  have hcard := h r s
  rw [normalizeCard, Card.text, String.toList_ofList]
  split at hcard
  · simp only [hcard]
  · cases hcard

theorem Card.text_injective : Function.Injective Card.text := by
  intro a b h
  have hnormal := normalizeCard_text a
  rw [h, normalizeCard_text b] at hnormal
  exact (Except.ok.inj hnormal).symm

theorem normalizeCards_text {cards : List Card} (h : cards.Nodup) :
    normalizeCards (cards.map Card.text) = .ok cards := by
  refine bind_eq_ok.2 ⟨cards, ?_, ?_⟩
  · rw [mapM_eq_ok, List.forall₂_map_left_iff, List.forall₂_same]
    exact fun card _ => normalizeCard_text card
  · rw [require_of h]
    rfl

theorem normalizeCards_ok {cards : List String} {normalized : List Card}
    (h : normalizeCards cards = .ok normalized) :
    List.Forall₂ (fun card c => normalizeCard card = .ok c) cards normalized ∧
      normalized.Nodup := by
  simp only [normalizeCards, bind_eq_ok, require_eq_ok, exists_const, pure_eq_ok, mapM_eq_ok] at h
  obtain ⟨_, hcards, hnodup, rfl⟩ := h
  exact ⟨hcards, hnodup⟩

theorem normalizeCards_text_ok {cards normalized : List Card}
    (h : normalizeCards (cards.map Card.text) = .ok normalized) :
    cards = normalized ∧ normalized.Nodup := by
  obtain ⟨hcards, hnodup⟩ := normalizeCards_ok h
  refine ⟨?_, hnodup⟩
  rw [List.forall₂_map_left_iff] at hcards
  refine List.forall₂_eq_eq_eq ▸ hcards.imp fun card c hc => ?_
  rw [normalizeCard_text] at hc
  exact Except.ok.inj hc

example : normalizeCard " aS" = .ok ⟨12, 3⟩ := by decide

end PokerDeliberation
