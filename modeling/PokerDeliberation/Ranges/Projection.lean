import PokerDeliberation.Ranges.Canonical
import PokerDeliberation.Ranges.Combinations
import Mathlib.Data.Sym.Sym2

/-!
# The projection of a validated range

The canonical notation of a validated range, read by the second reader with no
dead cards, is the same set of weighted combos.
-/

namespace PokerDeliberation.Ranges

open Lib Hands

/-! ## Cards as texts -/

theorem cardText_chars (card : Card) :
    ∃ rank suit, card.chars = [rank, suit] ∧ card.text = cardText rank suit ∧
      matchesIgnoringCase RANKS rank = true ∧ matchesIgnoringCase SUITS suit = true := by
  obtain ⟨r, s⟩ := card
  refine ⟨_, _, rfl, rfl, ?_, ?_⟩
  · revert r s
    decide
  · revert r s
    decide

theorem mk_sortedPair (a b : String) : s((sortedPair a b).1, (sortedPair a b).2) = s(a, b) := by
  unfold sortedPair
  split
  · exact Sym2.eq_swap
  · rfl

/-- The cards of a combo, in no order. -/
def Combo.unordered (combo : Combo) : Sym2 String := s(combo.first.text, combo.second.text)

/-- The cards of a combo, in the order of their texts. -/
def Combo.texts (combo : Combo) : String × String := sortedPair combo.first.text combo.second.text

theorem Combo.mk_texts (combo : Combo) : s(combo.texts.1, combo.texts.2) = combo.unordered :=
  mk_sortedPair _ _

theorem Combo.unordered_injective : Function.Injective Combo.unordered := by
  rintro ⟨a, b, hab⟩ ⟨c, d, hcd⟩ h
  obtain ⟨hac, hbd⟩ | ⟨had, hbc⟩ := Sym2.eq_iff.1 h
  · obtain rfl := Card.text_injective hac
    obtain rfl := Card.text_injective hbd
    rfl
  · obtain rfl := Card.text_injective had
    obtain rfl := Card.text_injective hbc
    dsimp only at hab hcd
    omega

theorem Combo.texts_injective : Function.Injective Combo.texts := by
  intro a b h
  apply Combo.unordered_injective
  rw [← Combo.mk_texts, ← Combo.mk_texts, h]

/-! ## Reading a canonical token -/

theorem touches_sortedPair {dead : List Card} {a b : Card} (ha : a ∉ dead) (hb : b ∉ dead) :
    touches (dead.map Card.text) (sortedPair a.text b.text) = false := by
  have hfree : ∀ c ∉ dead, c.text ∉ dead.map Card.text := fun c hc hmem =>
    hc ((List.mem_map_of_injective Card.text_injective).1 hmem)
  unfold sortedPair touches
  split <;> simp only [hfree a ha, hfree b hb, decide_false, Bool.or_self]

/-- Reading the two cards of a combo, in any order. -/
theorem expandHandClass_chars {dead : List Card} (hdead : dead.Nodup) {a b : Card} (hne : a ≠ b)
    (ha : a ∉ dead) (hb : b ∉ dead) :
    expandHandClass (a.chars ++ b.chars) (dead.map Card.text) =
      .ok [sortedPair a.text b.text] := by
  obtain ⟨r1, s1, hchars1, htext1, hrank1, hsuit1⟩ := cardText_chars a
  obtain ⟨r2, s2, hchars2, htext2, hrank2, hsuit2⟩ := cardText_chars b
  have hstrip : strip isUnicodeSpace (a.chars ++ b.chars) = [r1, s1, r2, s2] := by
    rw [strip_of_all_not, hchars1, hchars2]
    · rfl
    · intro c hc
      obtain hc | hc := List.mem_append.1 hc
      · exact isTokenChar_isUnicodeSpace (isTokenChar_card hc)
      · exact isTokenChar_isUnicodeSpace (isTokenChar_card hc)
  have hspecific : specificMatch [r1, s1, r2, s2] = some (a.text, b.text) := by
    rw [htext1, htext2]
    exact if_pos ⟨hrank1, hsuit1, hrank2, hsuit2⟩
  have htexts : a.text ≠ b.text := fun h => hne (Card.text_injective h)
  refine bind_eq_ok.2 ⟨dead, by rw [normalizeCards_text hdead]; rfl, ?_⟩
  rw [hstrip]
  dsimp only
  rw [hspecific]
  dsimp only
  rw [normalizeCard_text, normalizeCard_text]
  refine bind_eq_ok.2 ⟨a, rfl, bind_eq_ok.2 ⟨b, rfl,
    bind_eq_ok.2 ⟨sortedPair a.text b.text, if_neg htexts, ?_⟩⟩⟩
  rw [touches_sortedPair ha hb]
  rfl

theorem expandHandClass_combo {dead : List Card} (hdead : dead.Nodup) {combo : Combo}
    (hfree : combo.blocked dead = false) :
    expandHandClass (combo.first.chars ++ combo.second.chars) (dead.map Card.text) =
      .ok [combo.texts] := by
  have hne : combo.first ≠ combo.second := fun h => by
    have hordered := combo.ordered
    rw [h] at hordered
    omega
  simp only [Combo.blocked, Bool.or_eq_false_iff, decide_eq_false_iff_not] at hfree
  exact expandHandClass_chars hdead hne hfree.1 hfree.2

/-- The trimmed digits of a weight, read as a fraction. -/
theorem trimmed_value {n : Nat} (h : n < WEIGHT_SCALE) :
    (decimalValue (trimZeros (padded 6 n)) : ℚ) / 10 ^ (trimZeros (padded 6 n)).length =
      n / WEIGHT_SCALE := by
  have htrim := decimalValue_trimZeros (padded 6 n)
  have hlength := length_trimZeros_le (padded 6 n)
  rw [length_padded] at htrim hlength
  rw [decimalValue_padded h] at htrim
  have hscale : (WEIGHT_SCALE : ℚ) = 10 ^ (trimZeros (padded 6 n)).length *
      10 ^ (6 - (trimZeros (padded 6 n)).length) := by
    rw [← pow_add, Nat.add_sub_cancel' hlength]
    decide +kernel
  rw [hscale, div_eq_div_iff (by positivity) (by positivity)]
  have hcast : (n : ℚ) = decimalValue (trimZeros (padded 6 n)) *
      10 ^ (6 - (trimZeros (padded 6 n)).length) := by exact_mod_cast htrim.symm
  rw [hcast]
  ring

section Reading

variable {dead : List Card} {round : ℚ → FloatText} (hround : UnitRounding round)
include hround

theorem exists_weight (weight : Weight) :
    ∃ value, round (weight.millionths / WEIGHT_SCALE) = .finite value ∧ 0 < value ∧ value ≤ 1 := by
  obtain ⟨n, hpos, hle⟩ := weight
  obtain rfl | hlt := Nat.eq_or_lt_of_le hle
  · have hscale : (WEIGHT_SCALE : ℚ) ≠ 0 := by decide
    exact ⟨1, by rw [div_self hscale, hround.one], zero_lt_one, le_rfl⟩
  · refine hround.fraction _ ?_ ?_
    · have hone : (1 : ℚ) ≤ n := by exact_mod_cast hpos
      show 1 / 1000000 ≤ (n : ℚ) / ((1000000 : ℕ) : ℚ)
      push_cast
      linarith
    · rw [div_lt_one (by decide)]
      exact_mod_cast hlt

omit hround in
theorem splitWeight_canonicalToken (combo : CanonicalWeightedComboV1) :
    splitWeight combo.canonicalToken =
      (combo.cards.first.chars ++ combo.cards.second.chars,
        if combo.weight.millionths = WEIGHT_SCALE then none
        else some ('0' :: '.' :: trimZeros (padded 6 combo.weight.millionths))) := by
  rw [splitWeight, partition_canonicalToken]
  split
  · rename_i token text heq
    exact heq.symm
  · rename_i token heq
    obtain ⟨hcards, hnone⟩ := Prod.mk.inj heq
    rw [hnone]
    have hfull : combo.weight.millionths = WEIGHT_SCALE := by
      by_contra hne
      rw [if_neg hne] at hnone
      cases hnone
    have htext : combo.canonicalToken =
        combo.cards.first.chars ++ combo.cards.second.chars := by
      rw [CanonicalWeightedComboV1.canonicalToken, weightText, if_pos hfull, List.append_nil]
    rw [← htext]
    exact partition_of_not_mem fun h => absurd (isTokenChar_canonicalToken h) (by decide)

theorem tokenWeight_text {weight : Weight} {value : ℚ}
    (h : round (weight.millionths / WEIGHT_SCALE) = .finite value) (hpos : 0 < value)
    (hle : value ≤ 1) :
    tokenWeight round (if weight.millionths = WEIGHT_SCALE then none
      else some ('0' :: '.' :: trimZeros (padded 6 weight.millionths))) = .ok value := by
  split
  · rename_i hfull
    rw [hfull, div_self (by decide), hround.one] at h
    rw [← FloatText.finite.inj h]
    rfl
  · rename_i hne
    have hlt : weight.millionths < WEIGHT_SCALE := lt_of_le_of_ne weight.le_scale hne
    have hdigits : ∀ c ∈ trimZeros (padded 6 weight.millionths), c.isDigit = true := fun c hc =>
      isDigit_of_mem_padded (mem_of_mem_trimZeros hc)
    have hvalue : (decimalValue (trimZeros (padded 6 weight.millionths)) : ℚ) /
        10 ^ (trimZeros (padded 6 weight.millionths)).length =
          weight.millionths / WEIGHT_SCALE := trimmed_value hlt
    rw [tokenWeight, float_fraction round hdigits, hvalue, h]
    exact if_pos ⟨hpos, hle⟩

/-- What a canonical combo is read as. -/
def readCombo (round : ℚ → FloatText) (combo : CanonicalWeightedComboV1) : WeightedCombo where
  cards := combo.cards.texts
  weight :=
    match round (combo.weight.millionths / WEIGHT_SCALE) with
    | .finite value => value
    | _ => 0

theorem addToken_canonicalToken {combo : CanonicalWeightedComboV1} {weights : List WeightedCombo}
    (hdead : dead.Nodup) (hfree : combo.cards.blocked dead = false)
    (hfresh : combo.cards.texts ∉ weights.map (·.cards)) :
    addToken round (dead.map Card.text) weights combo.canonicalToken =
      .ok (weights ++ [readCombo round combo]) := by
  obtain ⟨value, hvalue, hpos, hle⟩ := exists_weight hround combo.weight
  have hread : readCombo round combo = { cards := combo.cards.texts, weight := value } := by
    rw [readCombo, hvalue]
  rw [addToken, splitWeight_canonicalToken, tokenWeight_text hround hvalue hpos hle]
  refine bind_eq_ok.2 ⟨value, rfl, bind_eq_ok.2 ⟨_, expandHandClass_combo hdead hfree, ?_⟩⟩
  rw [List.foldlM_cons, addWeight, require_of hfresh, hread]
  rfl

/-- Reading canonical tokens of different combos one after the other. -/
theorem foldlM_addToken {combos : List CanonicalWeightedComboV1} (hdead : dead.Nodup)
    (hfree : ∀ combo ∈ combos, combo.cards.blocked dead = false)
    (h : (combos.map (·.cards)).Nodup) :
    (combos.map (·.canonicalToken)).foldlM (addToken round (dead.map Card.text)) [] =
      .ok (combos.map (readCombo round)) := by
  induction combos using List.reverseRecOn with
  | nil => rfl
  | append_singleton combos combo ih =>
    rw [List.map_append, List.nodup_append'] at h
    rw [List.map_append, List.foldlM_append,
      ih (fun other hother => hfree other (List.mem_append_left _ hother)) h.1]
    refine bind_eq_ok.2 ⟨_, rfl, ?_⟩
    rw [List.map_singleton, List.foldlM_cons,
      addToken_canonicalToken hround hdead (hfree combo (by simp)), List.map_append]
    · rfl
    · intro hmem
      rw [List.map_map] at hmem
      obtain ⟨other, hother, htexts⟩ := List.mem_map.1 hmem
      have heq : other.cards = combo.cards := Combo.texts_injective htexts
      exact h.2.2 (List.mem_map_of_mem hother) (by simp [heq])

omit hround in
theorem rawTokens_canonicalNotation {combos : List CanonicalWeightedComboV1} (h : combos ≠ []) :
    ((strip isUnicodeSpace (canonicalNotation combos)).splitOnP isSeparator).filter (· ≠ []) =
      combos.map (·.canonicalToken) := by
  have hspace : ∀ c ∈ canonicalNotation combos, isUnicodeSpace c = false := by
    intro c hc
    obtain rfl | ⟨token, htoken, hmem⟩ := mem_intercalate_singleton hc
    · decide
    · obtain ⟨combo, -, rfl⟩ := List.mem_map.1 htoken
      exact isTokenChar_isUnicodeSpace (isTokenChar_canonicalToken hmem)
  have hsplit : (canonicalNotation combos).splitOnP isSeparator =
      (canonicalNotation combos).splitOn ',' := by
    rw [List.splitOn_eq_splitOnP]
    refine splitOnP_congr fun c hc => ?_
    rw [isSeparator, hspace c hc, Bool.false_or]
  rw [strip_of_all_not hspace, hsplit, splitOn_canonicalNotation h, List.filter_eq_self]
  intro token htoken
  obtain ⟨combo, -, rfl⟩ := List.mem_map.1 htoken
  simpa using canonicalToken_ne_nil combo

/-- The second reader reads a canonical notation as its combos. -/
theorem parseWeightedRange_canonicalNotation {combos : List CanonicalWeightedComboV1}
    (hdead : dead.Nodup) (hfree : ∀ combo ∈ combos, combo.cards.blocked dead = false)
    (h : (combos.map (·.cards)).Nodup) (hne : combos ≠ []) :
    ∃ parsed, parseWeightedRange round (dead.map Card.text) (canonicalNotation combos) =
        .ok parsed ∧
      parsed.Perm (combos.map (readCombo round)) := by
  refine ⟨(combos.map (readCombo round)).insertionSort fun a b => pairLe a.cards b.cards, ?_,
    List.perm_insertionSort _ _⟩
  have htokens : combos.map (·.canonicalToken) ≠ [] := by simpa using hne
  have hread : combos.map (readCombo round) ≠ [] := by simpa using hne
  rw [parseWeightedRange, rawTokens_canonicalNotation hne, require_of htokens,
    foldlM_addToken hround hdead hfree h]
  refine bind_eq_ok.2 ⟨(), rfl, bind_eq_ok.2 ⟨_, rfl, ?_⟩⟩
  rw [require_of hread]
  rfl

end Reading

/-! ## The agreement of the two readers -/

/-- The second reader gives a validated range back: the same unordered combos,
each once, with the same weights and no blocker. -/
theorem range_projection_agreement {digests : Digests} {hand : CanonicalHand}
    {definition : VersionedRangeDefinitionV1} {header : RangeResultHeader} {range : ValidRange}
    (h : validateVersionedRange digests hand definition = .success header range) :
    ∃ parsed, parseWeightedRange binary64 [] range.canonicalNotation = .ok parsed ∧
      (parsed.map fun combo => (s(combo.cards.1, combo.cards.2), FloatText.finite combo.weight)).Perm
        (range.combos.map fun combo =>
          (s(combo.cards.first.text, combo.cards.second.text),
            binary64 (combo.weight.millionths / 1000000))) ∧
      (parsed.map fun combo => s(combo.cards.1, combo.cards.2)).Nodup ∧
      ∀ combo ∈ parsed, ∀ blocker ∈ range.blockers,
        blocker.text ∉ s(combo.cards.1, combo.cards.2) := by
  obtain ⟨hcheck, -⟩ := validateVersionedRange_eq_success.1 h
  obtain ⟨hcanonical, hne, -, binding, -, hrange⟩ := canonical_of_checkedRange hcheck
  have htext : range.canonicalNotation = canonicalNotation range.combos := by rw [← hrange]; rfl
  obtain ⟨parsed, hparsed, hperm⟩ :=
    parseWeightedRange_canonicalNotation unitRounding_binary64 List.nodup_nil
      (fun combo _ => rfl) hcanonical.nodup hne
  rw [List.map_nil] at hparsed
  refine ⟨parsed, by rw [htext, hparsed], ?_, ?_, ?_⟩
  · refine (hperm.map _).trans (List.Perm.of_eq ?_)
    rw [List.map_map]
    refine List.map_congr_left fun combo _ => ?_
    obtain ⟨value, hvalue, -⟩ := exists_weight unitRounding_binary64 combo.weight
    show (s(combo.cards.texts.1, combo.cards.texts.2), FloatText.finite _) = _
    have hweight : FloatText.finite (readCombo binary64 combo).weight =
        binary64 (combo.weight.millionths / 1000000) := by
      rw [readCombo, hvalue]
      exact hvalue.symm
    rw [Combo.mk_texts]
    exact Prod.ext rfl hweight
  · rw [(hperm.map _).nodup_iff, List.map_map]
    have hunordered : (range.combos.map ((fun combo : WeightedCombo =>
        s(combo.cards.1, combo.cards.2)) ∘ readCombo binary64)) =
          (range.combos.map (·.cards)).map Combo.unordered := by
      rw [List.map_map]
      exact List.map_congr_left fun combo _ => Combo.mk_texts combo.cards
    rw [hunordered]
    exact hcanonical.nodup.map Combo.unordered_injective
  · intro combo hcombo blocker hblocker hmem
    obtain ⟨source, hsource, rfl⟩ := List.mem_map.1 (hperm.mem_iff.1 hcombo)
    have hfree := hcanonical.unblocked source hsource
    rw [show s((readCombo binary64 source).cards.1, (readCombo binary64 source).cards.2) =
      source.cards.unordered from Combo.mk_texts source.cards] at hmem
    simp only [Combo.blocked, Bool.or_eq_false_iff, decide_eq_false_iff_not] at hfree
    obtain htext | htext := Sym2.mem_iff.1 hmem
    · exact hfree.1 (Card.text_injective htext ▸ hblocker)
    · exact hfree.2 (Card.text_injective htext ▸ hblocker)

theorem range_projection_agreement_open :
    ∃ parsed, parseWeightedRange binary64 [] openRange.canonicalNotation = .ok parsed ∧
      (parsed.map fun combo => (s(combo.cards.1, combo.cards.2), FloatText.finite combo.weight)).Perm
        (openRange.combos.map fun combo =>
          (s(combo.cards.first.text, combo.cards.second.text),
            binary64 (combo.weight.millionths / 1000000))) ∧
      (parsed.map fun combo => s(combo.cards.1, combo.cards.2)).Nodup ∧
      ∀ combo ∈ parsed, ∀ blocker ∈ openRange.blockers,
        blocker.text ∉ s(combo.cards.1, combo.cards.2) :=
  range_projection_agreement validateVersionedRange_open

end PokerDeliberation.Ranges
