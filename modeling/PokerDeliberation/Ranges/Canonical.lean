import PokerDeliberation.Ranges.Grammar

/-!
# Canonical ranges

The canonical notation of a validated range is a text of the grammar that
expands to the very combos it was printed from. Validating it again gives the
same range whenever it fits the byte limit of a notation, and hits the limit
otherwise.
-/

namespace PokerDeliberation.Ranges

open Lib Hands

/-! ## Expanding -/

/-- A raw token that expands without a diagnostic. -/
def TokenExpansion (rawToken : List Char) (x : List Combo × Weight) : Prop :=
  strip isBlank rawToken ≠ [] ∧ strip isBlank rawToken = strip isBlankOrNewline rawToken ∧
    expandedToken (strip isBlank rawToken) = .ok x

section Expanding

variable {e : Expansion} {tokenIndex : Nat} {weight : Weight} {combo : Combo}

theorem Expansion.addCombo_of_not_mem (h : combo ∉ e.expanded.map (·.1)) :
    e.addCombo tokenIndex weight combo = { e with expanded := e.expanded ++ [(combo, weight)] } :=
  if_neg h

theorem Expansion.nodup_addCombo (h : (e.expanded.map (·.1)).Nodup) :
    ((e.addCombo tokenIndex weight combo).expanded.map (·.1)).Nodup := by
  unfold addCombo
  split
  · exact h
  · rename_i hfresh
    rw [List.map_append, List.nodup_append']
    refine ⟨h, by simp, ?_⟩
    intro c hc hmem
    obtain rfl : c = combo := List.mem_singleton.1 hmem
    exact hfresh hc

theorem Expansion.nodup_step {rawToken : List Char} (h : (e.expanded.map (·.1)).Nodup) :
    ((e.step tokenIndex rawToken).expanded.map (·.1)).Nodup := by
  unfold step
  dsimp only
  split
  · exact h
  · split
    · exact h
    · rename_i combos weight hok
      clear hok
      induction combos using List.reverseRecOn with
      | nil => exact h
      | append_singleton combos combo ih =>
        rw [List.foldl_append]
        exact nodup_addCombo ih

theorem expandTokens_concat (rawTokens : List (List Char)) (rawToken : List Char) :
    expandTokens (rawTokens ++ [rawToken]) =
      (expandTokens rawTokens).step rawTokens.length rawToken := by
  simp [expandTokens, List.zipIdx_append, List.foldl_append]

/-- No combo is expanded twice. -/
theorem nodup_expandTokens (rawTokens : List (List Char)) :
    ((expandTokens rawTokens).expanded.map (·.1)).Nodup := by
  induction rawTokens using List.reverseRecOn with
  | nil => exact List.nodup_nil
  | append_singleton rawTokens rawToken ih =>
    rw [expandTokens_concat]
    exact Expansion.nodup_step ih

theorem Expansion.foldl_addCombo {combos : List Combo}
    (h : (e.expanded.map (·.1) ++ combos).Nodup) :
    combos.foldl (Expansion.addCombo tokenIndex weight) e =
      { e with expanded := e.expanded ++ combos.map (·, weight) } := by
  induction combos using List.reverseRecOn with
  | nil => simp
  | append_singleton combos combo ih =>
    rw [← List.append_assoc] at h
    rw [List.foldl_append, ih (List.nodup_append'.1 h).1]
    refine (addCombo_of_not_mem ?_).trans (by simp)
    have hlast := (List.nodup_append'.1 h).2.2
    intro hmem
    refine hlast ?_ (List.mem_singleton_self combo)
    simpa [Function.comp_def] using hmem

/-- Tokens that expand to different combos are all expanded. -/
theorem expandTokens_map {α : Type} {items : List α} {token : α → List Char}
    {x : α → List Combo × Weight} (h : ∀ i ∈ items, TokenExpansion (token i) (x i))
    (hnodup : (items.flatMap fun i => (x i).1).Nodup) :
    expandTokens (items.map token) =
      { expanded := items.flatMap fun i => (x i).1.map (·, (x i).2) } := by
  induction items using List.reverseRecOn with
  | nil => rfl
  | append_singleton items i ih =>
    rw [List.flatMap_append] at hnodup
    rw [List.map_append, List.map_singleton, expandTokens_concat,
      ih (fun j hj => h j (List.mem_append_left _ hj)) (List.nodup_append'.1 hnodup).1]
    obtain ⟨hne, hsame, hok⟩ := h i (by simp)
    unfold Expansion.step
    dsimp only
    rw [if_neg (by simpa [← hsame] using hne), hok]
    dsimp only
    rw [Expansion.foldl_addCombo (by
      simpa [List.map_flatMap, Function.comp_def] using hnodup)]
    simp

end Expanding

/-! ## Canonical tokens -/

/-- The characters of canonical tokens. -/
def isTokenChar (c : Char) : Bool := c.isAlphanum || c == '@' || c == '.'

theorem isTokenChar_ne {c d : Char} (h : isTokenChar c = true) (hd : isTokenChar d = false) :
    c ≠ d := by
  rintro rfl
  rw [h] at hd
  cases hd

theorem isTokenChar_isBlankOrNewline {c : Char} (h : isTokenChar c = true) :
    isBlankOrNewline c = false := by
  have hspace := isTokenChar_ne h (d := ' ') (by decide)
  have htab := isTokenChar_ne h (d := '\t') (by decide)
  have hreturn := isTokenChar_ne h (d := '\r') (by decide)
  have hnewline := isTokenChar_ne h (d := '\n') (by decide)
  simp [isBlankOrNewline, isBlank, hspace, htab, hreturn, hnewline]

theorem isTokenChar_isBlank {c : Char} (h : isTokenChar c = true) : isBlank c = false :=
  (Bool.or_eq_false_iff.1 (Bool.or_eq_false_iff.1 (isTokenChar_isBlankOrNewline h)).1).1

theorem isTokenChar_range {c : Char} (h : isTokenChar c = true) :
    46 ≤ c.toNat ∧ c.toNat ≤ 122 := by
  have hcodes : 'A'.val.toNat = 65 ∧ 'Z'.val.toNat = 90 ∧ 'a'.val.toNat = 97 ∧
      'z'.val.toNat = 122 ∧ '0'.val.toNat = 48 ∧ '9'.val.toNat = 57 := by decide
  have hshape : isTokenChar c = (decide (c.val ≥ 'A'.val ∧ c.val ≤ 'Z'.val) ||
      (c.val ≥ 'a'.val && c.val ≤ 'z'.val) || (c.val ≥ '0'.val && c.val ≤ '9'.val) ||
        c == '@' || c == '.') := rfl
  simp only [hshape, Bool.or_eq_true, Bool.and_eq_true, decide_eq_true_eq, beq_iff_eq,
    UInt32.le_iff_toNat_le, ge_iff_le] at h
  show 46 ≤ c.val.toNat ∧ c.val.toNat ≤ 122
  obtain (h | rfl) | rfl := h
  · omega
  · decide
  · decide

theorem isTokenChar_ascii {c : Char} (h : isTokenChar c = true) :
    (' ' ≤ c && c ≤ '~') = true := by
  obtain ⟨hge, hle⟩ := isTokenChar_range h
  rw [Bool.and_eq_true, decide_eq_true_eq, decide_eq_true_eq, Char.le_def, Char.le_def,
    UInt32.le_iff_toNat_le, UInt32.le_iff_toNat_le]
  show 32 ≤ c.toNat ∧ c.toNat ≤ 126
  omega

theorem isTokenChar_isUnicodeSpace {c : Char} (h : isTokenChar c = true) :
    isUnicodeSpace c = false := by
  obtain ⟨hge, hle⟩ := isTokenChar_range h
  rw [Bool.eq_false_iff]
  intro hspace
  simp only [isUnicodeSpace, Bool.or_eq_true, Bool.and_eq_true, beq_iff_eq,
    decide_eq_true_eq] at hspace
  omega

theorem isTokenChar_card {card : Card} {c : Char} (h : c ∈ card.chars) : isTokenChar c = true := by
  obtain ⟨r, s⟩ := card
  have hrank : ∀ r : Fin 13, isTokenChar (RANKS.get (r.cast rfl)) = true := by decide
  have hsuit : ∀ s : Fin 4, isTokenChar (SUITS.get (s.cast rfl)) = true := by decide
  simp only [Card.chars, List.mem_cons, List.not_mem_nil, or_false] at h
  rcases h with rfl | rfl
  · exact hrank r
  · exact hsuit s

theorem isTokenChar_weightText {weight : Weight} {c : Char} (h : c ∈ weightText weight) :
    isTokenChar c = true := by
  unfold weightText at h
  split at h
  · cases h
  · simp only [List.mem_cons] at h
    obtain rfl | rfl | rfl | h := h
    · rfl
    · rfl
    · rfl
    · have hdigit := isDigit_of_mem_padded (mem_of_mem_trimZeros h)
      simp [isTokenChar, Char.isAlphanum, hdigit]

theorem isTokenChar_canonicalToken {combo : CanonicalWeightedComboV1} {c : Char}
    (h : c ∈ combo.canonicalToken) : isTokenChar c = true := by
  obtain h | h := List.mem_append.1 h
  · obtain h | h := List.mem_append.1 h
    · exact isTokenChar_card h
    · exact isTokenChar_card h
  · exact isTokenChar_weightText h

theorem at_not_mem_card (card : Card) : '@' ∉ card.chars := by
  obtain ⟨r, s⟩ := card
  revert r s
  decide

/-- The lexeme of a weight below one. -/
theorem weightLexeme_padded {n : Nat} (hpos : 0 < n) (hlt : n < WEIGHT_SCALE) :
    weightLexeme ('0' :: '.' :: trimZeros (padded 6 n)) = some n := by
  have hvalue : decimalValue (padded 6 n) = n := decimalValue_padded hlt
  have hne : trimZeros (padded 6 n) ≠ [] := trimZeros_ne_nil (by omega)
  have hlength : (trimZeros (padded 6 n)).length ≤ 6 := by
    simpa using length_trimZeros_le (padded 6 n)
  have hdigits : (trimZeros (padded 6 n)).all Char.isDigit = true :=
    List.all_eq_true.2 fun c hc => isDigit_of_mem_padded (mem_of_mem_trimZeros hc)
  have htrim := decimalValue_trimZeros (padded 6 n)
  rw [length_padded, hvalue] at htrim
  show (if _ then _ else _) = _
  rw [if_pos ⟨hne, hlength, hdigits⟩, htrim]

theorem explicitCombo_chars (first second : Card) :
    explicitCombo (first.chars ++ second.chars) = some (first, second) := by
  obtain ⟨r1, s1, hchars1, hcard1⟩ := first.ofChars_chars
  obtain ⟨r2, s2, hchars2, hcard2⟩ := second.ofChars_chars
  rw [hchars1, hchars2]
  simp only [List.cons_append, List.nil_append, explicitCombo, hcard1, hcard2]

theorem count_at_weightText (weight : Weight) : (weightText weight).count '@' ≤ 1 := by
  unfold weightText
  split
  · simp
  · have hdigits : '@' ∉ trimZeros (padded 6 weight.millionths) := fun h => by
      have := isDigit_of_mem_padded (mem_of_mem_trimZeros h)
      exact absurd this (by decide)
    simp [List.count_eq_zero.2 hdigits]

/-- How a canonical token splits at its weight. -/
theorem partition_canonicalToken (combo : CanonicalWeightedComboV1) :
    partition '@' combo.canonicalToken =
      (combo.cards.first.chars ++ combo.cards.second.chars,
        if combo.weight.millionths = WEIGHT_SCALE then none
        else some ('0' :: '.' :: trimZeros (padded 6 combo.weight.millionths))) := by
  have hcards : '@' ∉ combo.cards.first.chars ++ combo.cards.second.chars := by
    simp [at_not_mem_card]
  rw [CanonicalWeightedComboV1.canonicalToken, weightText]
  by_cases hfull : combo.weight.millionths = WEIGHT_SCALE
  · rw [if_pos hfull, if_pos hfull, List.append_nil, partition_of_not_mem hcards]
  · rw [if_neg hfull, if_neg hfull, partition_append hcards]

theorem weightMillionths_text (weight : Weight) :
    weightMillionths (if weight.millionths = WEIGHT_SCALE then none
      else some ('0' :: '.' :: trimZeros (padded 6 weight.millionths))) = .ok weight := by
  obtain ⟨n, hpos, hle⟩ := weight
  dsimp only
  split
  · rename_i hfull
    subst hfull
    rfl
  · have hlt : n < WEIGHT_SCALE := by omega
    simp only [weightMillionths, weightLexeme_padded hpos hlt]
    exact dif_pos ⟨hpos, hle⟩

/-- A canonical token expands to the combo it was printed from. -/
theorem expandedToken_canonicalToken (combo : CanonicalWeightedComboV1) :
    expandedToken combo.canonicalToken = .ok ([combo.cards], combo.weight) := by
  have hcount : combo.canonicalToken.count '@' ≤ 1 := by
    have hfirst := List.count_eq_zero.2 (at_not_mem_card combo.cards.first)
    have hsecond := List.count_eq_zero.2 (at_not_mem_card combo.cards.second)
    have hrest := count_at_weightText combo.weight
    simp only [CanonicalWeightedComboV1.canonicalToken, List.count_append]
    omega
  rw [expandedToken, partition_canonicalToken, weightMillionths_text, require_of hcount]
  dsimp only
  rw [explicitCombo_chars]
  show (do let combo ← canonicalCombo _ _; pure ([combo], _)) = _
  rw [Combo.canonical]
  rfl

theorem canonicalToken_ne_nil (combo : CanonicalWeightedComboV1) : combo.canonicalToken ≠ [] := by
  simp [CanonicalWeightedComboV1.canonicalToken, Card.chars]

theorem tokenExpansion_canonicalToken (combo : CanonicalWeightedComboV1) :
    TokenExpansion combo.canonicalToken ([combo.cards], combo.weight) := by
  have hblank : strip isBlank combo.canonicalToken = combo.canonicalToken :=
    strip_of_all_not fun c hc => isTokenChar_isBlank (isTokenChar_canonicalToken hc)
  have hnewline : strip isBlankOrNewline combo.canonicalToken = combo.canonicalToken :=
    strip_of_all_not fun c hc => isTokenChar_isBlankOrNewline (isTokenChar_canonicalToken hc)
  rw [TokenExpansion, hblank, hnewline]
  exact ⟨canonicalToken_ne_nil combo, rfl, expandedToken_canonicalToken combo⟩

/-! ## Canonical lists of combos -/

/-- What the surviving combos of a validation satisfy. -/
structure Canonical (blockers : List Card) (combos : List CanonicalWeightedComboV1) : Prop where
  sorted : combos.Pairwise fun a b => a.cards.sortKey ≤ b.cards.sortKey
  nodup : (combos.map (·.cards)).Nodup
  unblocked : ∀ combo ∈ combos, combo.cards.blocked blockers = false

theorem canonical_canonicalCombos {blockers : List Card} {expanded : List (Combo × Weight)}
    (h : (expanded.map (·.1)).Nodup) : Canonical blockers (canonicalCombos blockers expanded) := by
  have hperm := List.perm_insertionSort (fun a b : Combo × Weight => a.1.sortKey ≤ b.1.sortKey)
    (expanded.filter fun item => !item.1.blocked blockers)
  refine ⟨?_, ?_, fun combo hcombo => ?_⟩
  · rw [canonicalCombos, List.pairwise_map]
    have : Std.Total fun a b : Combo × Weight => a.1.sortKey ≤ b.1.sortKey :=
      ⟨fun a b => le_total _ _⟩
    have : IsTrans (Combo × Weight) fun a b => a.1.sortKey ≤ b.1.sortKey :=
      ⟨fun a b c => le_trans⟩
    exact List.pairwise_insertionSort _ _
  · rw [canonicalCombos, List.map_map]
    refine ((hperm.map _).nodup_iff).2 ?_
    exact (List.filter_sublist.map _).nodup h
  · obtain ⟨item, hitem, rfl⟩ := List.mem_map.1 hcombo
    have hmem := (List.mem_filter.1 (hperm.mem_iff.1 hitem)).2
    simpa using hmem

/-- The combos of canonical tokens are canonical as they stand. -/
theorem Canonical.canonicalCombos_eq {blockers : List Card}
    {combos : List CanonicalWeightedComboV1} (h : Canonical blockers combos) :
    canonicalCombos blockers (combos.map fun combo => (combo.cards, combo.weight)) = combos := by
  have hfilter : (combos.map fun combo => (combo.cards, combo.weight)).filter
      (fun item => !item.1.blocked blockers) =
        combos.map fun combo => (combo.cards, combo.weight) := by
    rw [List.filter_eq_self]
    intro item hitem
    obtain ⟨combo, hcombo, rfl⟩ := List.mem_map.1 hitem
    simp [h.unblocked combo hcombo]
  have hsorted : (combos.map fun combo => (combo.cards, combo.weight)).Pairwise
      fun a b => a.1.sortKey ≤ b.1.sortKey := List.pairwise_map.2 h.sorted
  rw [canonicalCombos, hfilter, hsorted.insertionSort_eq, List.map_map]
  exact List.map_id _

theorem splitOn_canonicalNotation {combos : List CanonicalWeightedComboV1} (h : combos ≠ []) :
    (canonicalNotation combos).splitOn ',' = combos.map (·.canonicalToken) := by
  refine List.splitOn_intercalate ',' ?_ (by simpa using h)
  intro token htoken hcomma
  obtain ⟨combo, -, rfl⟩ := List.mem_map.1 htoken
  exact absurd (isTokenChar_canonicalToken hcomma) (by decide)

theorem expandTokens_canonicalToken {blockers : List Card}
    {combos : List CanonicalWeightedComboV1} (h : Canonical blockers combos) :
    expandTokens (combos.map (·.canonicalToken)) =
      { expanded := combos.map fun combo => (combo.cards, combo.weight) } := by
  rw [expandTokens_map (fun combo _ => tokenExpansion_canonicalToken combo)]
  · simp only [List.map_cons, List.map_nil]
    rw [List.map_eq_flatMap]
  · rw [← List.map_eq_flatMap]
    exact h.nodup

/-! ## Validating again -/

/-- The definition with another text, and the hash of that text. -/
def VersionedRangeDefinitionV1.withText (definition : VersionedRangeDefinitionV1)
    (digests : Digests) (text : String) (h : text ≠ "") : VersionedRangeDefinitionV1 :=
  { definition with
    rangeNotation := text
    notation_nonempty := h
    source :=
      { definition.source with
        contentSha256 := digests.text text
        content_hash_valid := digests.text_valid text } }

/-- The hand with its versioned ranges replaced. -/
def withRange (hand : CanonicalHand) (definition : VersionedRangeDefinitionV1) : CanonicalHand :=
  { hand with
    knownRanges := hand.knownRanges.map fun
      | .versioned _ => .versioned definition
      | .plain range => .plain range }

section Validating

variable {digests : Digests} {hand : CanonicalHand} {definition : VersionedRangeDefinitionV1}
variable {range : ValidRange} {header : RangeResultHeader}

theorem validateVersionedRange_eq_success :
    validateVersionedRange digests hand definition = .success header range ↔
      checkedRange digests hand definition = .ok range ∧
        header =
          { rangeId := definition.rangeId
            targetPlayerId := definition.targetPlayerId
            source := definition.source
            gameConditions := definition.gameConditions
            sourceNotationSha256 := digests.text definition.rangeNotation } := by
  unfold validateVersionedRange
  cases checkedRange digests hand definition <;> simp [eq_comm, and_comm]

/-- What a successful validation checked. -/
theorem checkedRange_ok :
    checkedRange digests hand definition = .ok range ↔
      definition.rangeNotation.utf8ByteSize ≤ MAX_RANGE_NOTATION_BYTES ∧
      isAsciiText definition.rangeNotation.toList ∧
      digests.text definition.rangeNotation = definition.source.contentSha256 ∧
      hand.knownRanges.filterMap KnownRange.versioned? = [definition] ∧
      ∃ binding, conditionBinding digests hand definition = .ok binding ∧
        (definition.rangeNotation.toList.splitOn ',').length ≤ MAX_RANGE_TOKENS ∧
        ∃ expanded, expandTokens (definition.rangeNotation.toList.splitOn ',') =
            { expanded := expanded } ∧
          expanded.length ≤ MAX_EXPANDED_COMBOS ∧
          canonicalCombos binding.blockers expanded ≠ [] ∧
          validRange digests binding (canonicalCombos binding.blockers expanded) = range := by
  simp only [checkedRange, bind_eq_ok, require_eq_ok, exists_const, mapError_eq_ok, pure_eq_ok]
  constructor
  · rintro ⟨hsize, hascii, hhash, hversioned, binding, hbinding, hcount, hclean, hlength, hne, h⟩
    refine ⟨hsize, hascii, hhash, hversioned, binding, hbinding, hcount, _, ?_, hlength, hne, h⟩
    rw [← hclean]
  · rintro ⟨hsize, hascii, hhash, hversioned, binding, hbinding, hcount, expanded, hexpand, hlength,
      hne, h⟩
    rw [hexpand]
    exact ⟨hsize, hascii, hhash, hversioned, binding, hbinding, hcount, rfl, hlength, hne, h⟩

/-- The combos of a validated range are canonical for its blockers. -/
theorem canonical_of_checkedRange (h : checkedRange digests hand definition = .ok range) :
    Canonical range.blockers range.combos ∧ range.combos ≠ [] ∧
      range.combos.length ≤ MAX_EXPANDED_COMBOS ∧
      ∃ binding, conditionBinding digests hand definition = .ok binding ∧
        validRange digests binding range.combos = range := by
  obtain ⟨-, -, -, -, binding, hbinding, -, expanded, hexpand, hlength, hne, rfl⟩ :=
    checkedRange_ok.1 h
  have hnodup := nodup_expandTokens (definition.rangeNotation.toList.splitOn ',')
  rw [hexpand] at hnodup
  refine ⟨canonical_canonicalCombos hnodup, hne, ?_, binding, hbinding, rfl⟩
  refine le_trans ?_ hlength
  show (canonicalCombos binding.blockers expanded).length ≤ _
  rw [canonicalCombos, List.length_map, List.length_insertionSort]
  exact List.length_filter_le _ _

theorem canonicalNotation_ne_nil {combos : List CanonicalWeightedComboV1} (h : combos ≠ []) :
    canonicalNotation combos ≠ [] := by
  intro hnil
  have hsplit := splitOn_canonicalNotation h
  rw [hnil, List.splitOn_nil] at hsplit
  obtain ⟨combo, -, hcombo⟩ := List.mem_map.1 (hsplit ▸ List.mem_singleton_self [])
  exact canonicalToken_ne_nil combo hcombo

theorem isAsciiText_canonicalNotation (combos : List CanonicalWeightedComboV1) :
    isAsciiText (canonicalNotation combos) = true := by
  refine List.all_eq_true.2 fun c hc => ?_
  obtain rfl | ⟨token, htoken, hmem⟩ := mem_intercalate_singleton hc
  · decide
  · obtain ⟨combo, -, rfl⟩ := List.mem_map.1 htoken
    exact isTokenChar_ascii (isTokenChar_canonicalToken hmem)

theorem conditionBinding_withText (text : String) (htext : text ≠ "") :
    let replaced := definition.withText digests text htext
    conditionBinding digests (withRange hand replaced) replaced =
      conditionBinding digests hand definition := rfl

theorem versioned_withRange {replacement : VersionedRangeDefinitionV1}
    (h : hand.knownRanges.filterMap KnownRange.versioned? = [definition]) :
    (withRange hand replacement).knownRanges.filterMap KnownRange.versioned? = [replacement] := by
  have hmap : (withRange hand replacement).knownRanges.filterMap KnownRange.versioned? =
      (hand.knownRanges.filterMap KnownRange.versioned?).map fun _ => replacement := by
    rw [withRange, List.filterMap_map, List.map_filterMap]
    refine List.filterMap_congr fun known _ => ?_
    cases known <;> rfl
  rw [hmap, h]
  rfl

theorem validateVersionedRange_of_long
    (h : MAX_RANGE_NOTATION_BYTES < definition.rangeNotation.utf8ByteSize) :
    validateVersionedRange digests hand definition =
      .failed
        { rangeId := definition.rangeId
          targetPlayerId := definition.targetPlayerId
          source := definition.source
          gameConditions := definition.gameConditions
          sourceNotationSha256 := digests.text definition.rangeNotation }
        [{ code := .limit, field := .rangeNotation }] := by
  have hcheck : checkedRange digests hand definition =
      .error [{ code := .limit, field := .rangeNotation }] := by
    rw [checkedRange, require_bind_eq_error]
    exact .inl ⟨not_le.2 h, rfl⟩
  rw [validateVersionedRange, hcheck]
  rfl

/-- A canonical notation validates again to the same range when it fits the
byte limit of a notation, and is refused otherwise. -/
theorem canonical_range_fixed_point
    (h : validateVersionedRange digests hand definition = .success header range) :
    ∃ hne : String.ofList range.canonicalNotation ≠ "",
      let text := String.ofList range.canonicalNotation
      let replaced := definition.withText digests text hne
      let header' : RangeResultHeader :=
        { header with source := replaced.source, sourceNotationSha256 := digests.text text }
      (text.utf8ByteSize ≤ MAX_RANGE_NOTATION_BYTES →
        validateVersionedRange digests (withRange hand replaced) replaced =
          .success header' range) ∧
      (MAX_RANGE_NOTATION_BYTES < text.utf8ByteSize →
        validateVersionedRange digests (withRange hand replaced) replaced =
          .failed header' [{ code := .limit, field := .rangeNotation }]) := by
  obtain ⟨hcheck, rfl⟩ := validateVersionedRange_eq_success.1 h
  obtain ⟨-, -, -, hversioned, -⟩ := checkedRange_ok.1 hcheck
  obtain ⟨hcanonical, hcombos, hlength, binding, hbinding, hrange⟩ :=
    canonical_of_checkedRange hcheck
  have htext : range.canonicalNotation = canonicalNotation range.combos := by rw [← hrange]; rfl
  have hblockers : range.blockers = binding.blockers := by rw [← hrange]; rfl
  have hne : String.ofList range.canonicalNotation ≠ "" := by
    rw [htext, ne_eq, String.ofList_eq_empty_iff]
    exact canonicalNotation_ne_nil hcombos
  refine ⟨hne, fun hsize => ?_, fun hsize => ?_⟩
  · have hsplit : (String.ofList range.canonicalNotation).toList.splitOn ',' =
        range.combos.map (·.canonicalToken) := by
      rw [String.toList_ofList, htext, splitOn_canonicalNotation hcombos]
    have hexpand := expandTokens_canonicalToken hcanonical
    have hkept := hcanonical.canonicalCombos_eq
    rw [hblockers] at hkept
    refine validateVersionedRange_eq_success.2 ⟨checkedRange_ok.2 ⟨hsize, ?_, rfl,
      versioned_withRange hversioned, binding, (conditionBinding_withText _ hne).trans hbinding, ?_,
      range.combos.map fun combo => (combo.cards, combo.weight), ?_, ?_, ?_, ?_⟩, rfl⟩
    · show isAsciiText (String.ofList range.canonicalNotation).toList = true
      rw [String.toList_ofList, htext]
      exact isAsciiText_canonicalNotation _
    · show ((String.ofList range.canonicalNotation).toList.splitOn ',').length ≤ _
      rw [hsplit, List.length_map]
      exact hlength
    · show expandTokens ((String.ofList range.canonicalNotation).toList.splitOn ',') = _
      rw [hsplit, hexpand]
    · rw [List.length_map]
      exact hlength
    · rw [hkept]
      exact hcombos
    · rw [hkept, hrange]
  · exact validateVersionedRange_of_long hsize

end Validating

section Open

/-- The digests of the texts and values of one small validation. -/
def openDigests : Digests where
  text s :=
    if s = "AA@0.50,KQs" then "7dd1533cce7c6bd81e60c414021c9a772042f2a655494354b3854f5a6a85b991"
    else "ac49b5488dc20704943d14315b587cb5612d81c536ed004fbd8c8b61a16dabea"
  actionPrefix _ := "4f53cda18c2baa0c0354bb5f9a3ecbe5ed12ab4d8e11ba873c2f11161202b945"
  binding _ := "b10a758d0a512d0ebdc116a54c7cd4921f1fe1e79234a1fa8d171fe67c820c22"
  combos _ := "31c617c81f917d9c209d1444808eaf304fafbbe9069ceeb25c36c0bf7656d9e1"
  text_valid s := by
    split
    · decide
    · decide
  action_prefix_valid _ := by decide

def openHeader : RangeResultHeader where
  rangeId := "open"
  targetPlayerId := "v"
  source := openDefinition.source
  gameConditions := openDefinition.gameConditions
  sourceNotationSha256 := "7dd1533cce7c6bd81e60c414021c9a772042f2a655494354b3854f5a6a85b991"

def openRange : ValidRange where
  conditionBindingSha256 := "b10a758d0a512d0ebdc116a54c7cd4921f1fe1e79234a1fa8d171fe67c820c22"
  blockers := [⟨12, 3⟩, ⟨11, 2⟩]
  canonicalNotation := "AcAd@0.5,AcAh@0.5,AdAh@0.5,KcQc,KdQd,KsQs".toList
  canonicalComboSha256 := "31c617c81f917d9c209d1444808eaf304fafbbe9069ceeb25c36c0bf7656d9e1"
  combos :=
    [⟨⟨⟨12, 0⟩, ⟨12, 1⟩, by decide⟩, .half⟩,
      ⟨⟨⟨12, 0⟩, ⟨12, 2⟩, by decide⟩, .half⟩,
      ⟨⟨⟨12, 1⟩, ⟨12, 2⟩, by decide⟩, .half⟩,
      ⟨⟨⟨11, 0⟩, ⟨10, 0⟩, by decide⟩, .full⟩, ⟨⟨⟨11, 1⟩, ⟨10, 1⟩, by decide⟩, .full⟩,
      ⟨⟨⟨11, 3⟩, ⟨10, 3⟩, by decide⟩, .full⟩]
  comboCount := 6
  totalWeightMillionths := 4500000

/-- What the open definition expands to. -/
def openExpanded : List (Combo × Weight) :=
  (expandTokens ("AA@0.50,KQs".toList.splitOn ',')).expanded

theorem boundTo_open :
    BoundTo openDigests openHand openDefinition "h"
      { playerId := "v", position := "BB", startingStack := 100 } [⟨12, 3⟩, ⟨11, 2⟩] where
  hero_eq := rfl
  player_eq := rfl
  not_hero := by decide
  game := ⟨rfl, rfl, rfl, rfl, le_refl _⟩
  street := rfl
  prefix_and_stack := ⟨rfl, by decide +kernel, by decide +kernel⟩
  board := le_refl _
  cards := by decide +kernel

theorem validateVersionedRange_open :
    validateVersionedRange openDigests openHand openDefinition = .success openHeader openRange := by
  obtain ⟨binding, hbinding, hblockers⟩ := exists_conditionBinding _ _ _ boundTo_open
  have hcombos : canonicalCombos binding.blockers openExpanded = openRange.combos := by
    rw [hblockers]
    decide +kernel
  refine validateVersionedRange_eq_success.2 ⟨checkedRange_ok.2 ⟨by decide, by decide +kernel, rfl,
    rfl, binding, hbinding, by decide +kernel, openExpanded, by decide +kernel, by decide +kernel,
    ?_, ?_⟩, rfl⟩
  · rw [hcombos]
    decide
  · rw [hcombos]
    have htext : canonicalNotation openRange.combos = openRange.canonicalNotation := by
      decide +kernel
    simp only [validRange, htext, hblockers]
    rfl

theorem canonical_range_fixed_point_open :
    ∃ hne : String.ofList openRange.canonicalNotation ≠ "",
      let text := String.ofList openRange.canonicalNotation
      let replaced := openDefinition.withText openDigests text hne
      validateVersionedRange openDigests (withRange openHand replaced) replaced =
        .success
          { openHeader with
            source := replaced.source
            sourceNotationSha256 := openDigests.text text } openRange := by
  obtain ⟨hne, hfits, -⟩ := canonical_range_fixed_point validateVersionedRange_open
  exact ⟨hne, hfits (by decide +kernel)⟩

end Open

/-! ## A range that does not fit -/

section Wide

/-- Every hand class. -/
def handClasses : List (Fin 13 × Fin 13 × Option Suitedness) :=
  (List.finRange 13).flatMap fun a => ((List.finRange 13).filter (· ≤ a)).flatMap fun b =>
    if a = b then [(a, b, none)] else [(a, b, some .suited), (a, b, some .offsuit)]

/-- The token of a hand class, with a weight of six digits. -/
def classToken : Fin 13 × Fin 13 × Option Suitedness → List Char
  | (a, b, suffix) =>
    [RANKS.get (a.cast rfl), RANKS.get (b.cast rfl)] ++
      (match suffix with
        | none => []
        | some .suited => ['s']
        | some .offsuit => ['o']) ++ "@0.123456".toList

def classExpansion (item : Fin 13 × Fin 13 × Option Suitedness) : List Combo × Weight :=
  match expandedToken (classToken item) with
  | .ok x => x
  | .error _ => ([], .full)

/-- A key that grows along the expansions of the classes. -/
def Combo.classKey (combo : Combo) : Nat :=
  ((combo.first.rank * 13 + combo.second.rank) * 2 +
    if combo.first.suit = combo.second.suit then 0 else 1) * 16 +
      combo.first.suit * 4 + combo.second.suit

theorem classToken_spec : ∀ item ∈ handClasses,
    TokenExpansion (classToken item) (classExpansion item) ∧ ',' ∉ classToken item ∧
      (classExpansion item).2.millionths = 123456 := by
  unfold TokenExpansion
  decide +kernel

theorem nodup_classExpansion : (handClasses.flatMap fun item => (classExpansion item).1).Nodup := by
  have hchain : ((handClasses.flatMap fun item => (classExpansion item).1).map
      Combo.classKey).IsChain (· < ·) := by decide +kernel
  exact (List.isChain_iff_pairwise.1 hchain).nodup.of_map

theorem length_classExpansion :
    (handClasses.flatMap fun item => (classExpansion item).1).length = 1326 := by
  decide +kernel

def wideNotation : List Char := [','].intercalate (handClasses.map classToken)

/-- Every combo, with a weight of six digits. -/
def wideDefinition (digests : Digests) : VersionedRangeDefinitionV1 where
  rangeId := "wide"
  targetPlayerId := "v"
  rangeNotation := String.ofList wideNotation
  source :=
    { sourceId := "fixture"
      sourceKind := .repositoryFixture
      licenseClassification := .repositoryOwnedMit
      usageClassification := .redistributionAllowed
      contentStatus := .assumption
      contentSha256 := digests.text (String.ofList wideNotation)
      source_id_valid := openDefinition.source.source_id_valid
      content_hash_valid := digests.text_valid _
      rights := openDefinition.source.rights }
  gameConditions :=
    { format := .cash
      tableSize := 2
      targetPosition := "BB"
      street := .preflop
      startingStackMinBbMilli := 0
      startingStackMaxBbMilli := 10000000
      asOfActionIndex := 0
      actionPrefixSha256 := digests.actionPrefix []
      table_size_range := openDefinition.gameConditions.table_size_range
      position_valid := openDefinition.gameConditions.position_valid
      stack_le := openDefinition.gameConditions.stack_le
      index_le := openDefinition.gameConditions.index_le
      action_hash_valid := digests.action_prefix_valid _
      stack_ordered := openDefinition.gameConditions.stack_ordered }
  range_id_valid := by decide
  target_valid := openDefinition.target_valid
  notation_nonempty := by
    rw [ne_eq, String.ofList_eq_empty_iff]
    decide

def wideHand (digests : Digests) : CanonicalHand :=
  { openHand with
    heroCards := []
    knownRanges := [.versioned (wideDefinition digests)]
    hero_cards_le := Nat.zero_le _
    nlhe_cards := by decide }

theorem boundTo_wide (digests : Digests) :
    BoundTo digests (wideHand digests) (wideDefinition digests) "h"
      { playerId := "v", position := "BB", startingStack := 100 } [] where
  hero_eq := rfl
  player_eq := rfl
  not_hero := by
    show "v" ≠ "h"
    decide
  game := ⟨rfl, rfl, rfl, rfl, le_refl _⟩
  street := rfl
  prefix_and_stack := by
    refine ⟨rfl, ?_, ?_⟩
    · show ((0 : Nat) : ℚ) ≤ roundSig 10 28 (roundSig 10 28 (((100 : Chips) : ℚ) * 1000) /
        ((2 : Chips) : ℚ))
      decide +kernel
    · show roundSig 10 28 (roundSig 10 28 (((100 : Chips) : ℚ) * 1000) / ((2 : Chips) : ℚ)) ≤
        ((10000000 : Nat) : ℚ)
      decide +kernel
  board := le_refl _
  cards := rfl

/-- What the wide definition expands to. -/
def wideExpanded : List (Combo × Weight) :=
  handClasses.flatMap fun item => (classExpansion item).1.map (·, (classExpansion item).2)

theorem expandTokens_wide : expandTokens (wideNotation.splitOn ',') = { expanded := wideExpanded } := by
  have hsplit : wideNotation.splitOn ',' = handClasses.map classToken := by
    refine List.splitOn_intercalate ',' ?_ (by decide)
    intro token htoken
    obtain ⟨item, hitem, rfl⟩ := List.mem_map.1 htoken
    exact (classToken_spec item hitem).2.1
  rw [hsplit]
  exact expandTokens_map (fun item hitem => (classToken_spec item hitem).1) nodup_classExpansion

theorem length_wideExpanded : wideExpanded.length = 1326 := by
  rw [← length_classExpansion, wideExpanded, List.length_flatMap, List.length_flatMap]
  simp

theorem length_canonicalToken_wide {combo : CanonicalWeightedComboV1}
    (h : combo ∈ canonicalCombos [] wideExpanded) : combo.canonicalToken.length = 13 := by
  have hperm := List.perm_insertionSort (fun a b : Combo × Weight => a.1.sortKey ≤ b.1.sortKey)
    (wideExpanded.filter fun item => !item.1.blocked [])
  obtain ⟨item, hitem, rfl⟩ := List.mem_map.1 h
  have hmem := (List.mem_filter.1 (hperm.mem_iff.1 hitem)).1
  obtain ⟨cls, hcls, hmem⟩ := List.mem_flatMap.1 hmem
  obtain ⟨combo, -, rfl⟩ := List.mem_map.1 hmem
  have htext : (weightText (classExpansion cls).2).length = 9 := by
    rw [weightText, (classToken_spec cls hcls).2.2]
    decide
  show (combo.first.chars ++ combo.second.chars ++ weightText (classExpansion cls).2).length = 13
  rw [List.length_append, htext]
  rfl

theorem length_canonicalCombos_wide : (canonicalCombos [] wideExpanded).length = 1326 := by
  have hfilter : wideExpanded.filter (fun item => !item.1.blocked []) = wideExpanded := by
    simp [Combo.blocked]
  rw [canonicalCombos, hfilter, List.length_map, List.length_insertionSort, length_wideExpanded]

theorem length_canonicalNotation {combos : List CanonicalWeightedComboV1} {k : Nat}
    (hne : combos ≠ []) (h : ∀ combo ∈ combos, combo.canonicalToken.length = k) :
    (canonicalNotation combos).length + 1 = combos.length * (k + 1) := by
  have hlengths : ∀ combo ∈ combos,
      ((fun token : List Char => token.length + 1) ∘ fun combo => combo.canonicalToken) combo =
        k + 1 := fun combo hcombo => by rw [Function.comp_apply, h combo hcombo]
  rw [canonicalNotation, length_intercalate_singleton (by simpa using hne), List.map_map,
    List.map_congr_left hlengths, List.map_const', List.sum_replicate_nat]

theorem length_canonicalNotation_wide :
    16384 < (canonicalNotation (canonicalCombos [] wideExpanded)).length := by
  have hne : canonicalCombos [] wideExpanded ≠ [] := by
    rw [← List.length_pos_iff, length_canonicalCombos_wide]
    decide
  have hjoin := length_canonicalNotation hne fun combo hcombo => length_canonicalToken_wide hcombo
  rw [length_canonicalCombos_wide] at hjoin
  generalize (canonicalNotation (canonicalCombos [] wideExpanded)).length = n at hjoin ⊢
  omega

theorem validateVersionedRange_wide (digests : Digests) :
    ∃ header range, validateVersionedRange digests (wideHand digests) (wideDefinition digests) =
        .success header range ∧
      range.canonicalNotation = canonicalNotation (canonicalCombos [] wideExpanded) := by
  obtain ⟨binding, hbinding, hblockers⟩ := exists_conditionBinding digests _ _ (boundTo_wide digests)
  have hlength : wideNotation.length ≤ 4096 := by decide +kernel
  have hsize := (length_le_utf8ByteSize wideNotation).2
  have hne : canonicalCombos [] wideExpanded ≠ [] := by
    rw [← List.length_pos_iff, length_canonicalCombos_wide]
    decide
  refine ⟨_, validRange digests binding (canonicalCombos [] wideExpanded),
    validateVersionedRange_eq_success.2 ⟨checkedRange_ok.2 ⟨?_, ?_, rfl, rfl, binding, hbinding, ?_,
      wideExpanded, ?_, ?_, ?_, ?_⟩, rfl⟩, ?_⟩
  · show (String.ofList wideNotation).utf8ByteSize ≤ 16384
    omega
  · show isAsciiText (String.ofList wideNotation).toList = true
    rw [String.toList_ofList]
    decide +kernel
  · show ((String.ofList wideNotation).toList.splitOn ',').length ≤ 1326
    rw [String.toList_ofList]
    decide +kernel
  · show expandTokens ((String.ofList wideNotation).toList.splitOn ',') = _
    rw [String.toList_ofList, expandTokens_wide]
  · exact length_wideExpanded.le
  · rwa [hblockers]
  · rw [hblockers]
  · exact validRange_canonicalNotation _ _ _

/-- The canonical notation of a validated range need not validate again. -/
theorem wide_range_not_revalidated :
    ∃ (hand : Digests → CanonicalHand) (definition : Digests → VersionedRangeDefinitionV1),
      ∀ digests, ∃ header range,
        validateVersionedRange digests (hand digests) (definition digests) = .success header range ∧
        ∃ hne, ∀ header' range',
          validateVersionedRange digests
            (withRange (hand digests) ((definition digests).withText digests
              (String.ofList range.canonicalNotation) hne))
            ((definition digests).withText digests (String.ofList range.canonicalNotation) hne) ≠
              .success header' range' := by
  refine ⟨wideHand, wideDefinition, fun digests => ?_⟩
  obtain ⟨header, range, h, htext⟩ := validateVersionedRange_wide digests
  have hlength := length_canonicalNotation_wide
  rw [← htext] at hlength
  have hsize := (length_le_utf8ByteSize range.canonicalNotation).1
  have hne : String.ofList range.canonicalNotation ≠ "" := by
    rw [ne_eq, String.ofList_eq_empty_iff]
    intro hnil
    simp [hnil] at hlength
  refine ⟨header, range, h, hne, fun header' range' => ?_⟩
  rw [validateVersionedRange_of_long]
  · exact fun h => RangeValidationResultV1.noConfusion h
  · show 16384 < (String.ofList range.canonicalNotation).utf8ByteSize
    omega

end Wide

end PokerDeliberation.Ranges
