import PokerDeliberation.Ranges.Canonical

/-!
# The order of the tokens

The tokens of a range may be written in any order. The tokens are expanded one
after another into a growing list of combos, and a combo that is there already
is a diagnostic. There are no diagnostics exactly when every token expands and
no combo is covered twice (`expandTokens_ok_iff`), which does not depend on the
order; the combos are then the same, and sorting them forgets their order.
-/

namespace PokerDeliberation.Ranges

open Lib Hands

/-- The combos of a raw token, with their weight. -/
def expansionOf (rawToken : List Char) : List (Combo × Weight) :=
  match expandedToken (strip isBlank rawToken) with
  | .ok (combos, weight) => combos.map (·, weight)
  | .error _ => []

/-- The token is accepted and the combo is one of those it stands for. -/
def Covers (rawToken : List Char) (combo : Combo) : Prop :=
  ∃ x, TokenExpansion rawToken x ∧ combo ∈ x.1

/-- The range of a successful result. -/
def RangeValidationResultV1.range? : RangeValidationResultV1 → Option ValidRange
  | .success _ range => some range
  | .failed _ _ => none

section Expanding

variable {e : Expansion} {tokenIndex : Nat} {weight : Weight} {rawToken : List Char}
  {x : List Combo × Weight}

theorem TokenExpansion.expansionOf (h : TokenExpansion rawToken x) :
    expansionOf rawToken = x.1.map (·, x.2) := by
  rw [Ranges.expansionOf, h.2.2]

theorem Covers.mem {combo : Combo} (h : Covers rawToken combo) :
    combo ∈ (expansionOf rawToken).map Prod.fst := by
  obtain ⟨x, hx, hcombo⟩ := h
  rw [hx.expansionOf, List.map_map]
  exact List.mem_map.2 ⟨combo, hcombo, rfl⟩

theorem Expansion.note_ne_nil {diagnostic : RangeDiagnosticV1} :
    (e.note diagnostic).diagnostics ≠ [] := by
  simp [note]

/-- A diagnostic stays. -/
theorem Expansion.addCombo_clean {combo : Combo}
    (h : (e.addCombo tokenIndex weight combo).diagnostics = []) :
    e.diagnostics = [] ∧ combo ∉ e.expanded.map (·.1) := by
  unfold addCombo at h
  split at h
  · exact absurd h note_ne_nil
  · exact ⟨h, ‹_›⟩

/-- The combos of a token are added without a diagnostic when all of them are new. -/
theorem Expansion.foldl_addCombo_clean {combos : List Combo} (hnodup : (e.expanded.map (·.1)).Nodup) :
    (combos.foldl (Expansion.addCombo tokenIndex weight) e).diagnostics = [] ↔
      e.diagnostics = [] ∧ (e.expanded.map (·.1) ++ combos).Nodup := by
  constructor
  · intro h
    induction combos using List.reverseRecOn with
    | nil => exact ⟨h, by simpa using hnodup⟩
    | append_singleton combos combo ih =>
      rw [List.foldl_append] at h
      obtain ⟨hclean, hfresh⟩ := addCombo_clean h
      obtain ⟨hstart, hcombos⟩ := ih hclean
      rw [foldl_addCombo hcombos] at hfresh
      refine ⟨hstart, ?_⟩
      rw [← List.append_assoc, List.nodup_append']
      refine ⟨hcombos, by simp, fun c hc hmem => hfresh ?_⟩
      obtain rfl := List.mem_singleton.1 hmem
      simpa [Function.comp_def] using hc
  · rintro ⟨hclean, hcombos⟩
    rw [foldl_addCombo hcombos]
    exact hclean

/-- A token adds its combos without a diagnostic when it expands and all of them are new. -/
theorem Expansion.step_ok_iff (hnodup : (e.expanded.map (·.1)).Nodup)
    {expanded : List (Combo × Weight)} :
    e.step tokenIndex rawToken = { expanded := expanded } ↔
      e.diagnostics = [] ∧ (∃ x, TokenExpansion rawToken x) ∧
        ((e.expanded ++ expansionOf rawToken).map (·.1)).Nodup ∧
        expanded = e.expanded ++ expansionOf rawToken := by
  by_cases hblank : strip isBlank rawToken = [] ∨
      strip isBlank rawToken ≠ strip isBlankOrNewline rawToken
  · have hnone : ¬ ∃ x, TokenExpansion rawToken x := fun ⟨x, hne, hsame, _⟩ =>
      hblank.elim hne fun h => h hsame
    simp only [step, if_pos hblank, hnone, false_and, and_false, iff_false]
    exact fun h => note_ne_nil (congrArg diagnostics h)
  · simp only [step, if_neg hblank]
    push Not at hblank
    cases hexpand : expandedToken (strip isBlank rawToken) with
    | error code =>
      have hnone : ¬ ∃ x, TokenExpansion rawToken x := fun ⟨x, _, _, hok⟩ => by
        rw [hexpand] at hok
        cases hok
      simp only [hnone, false_and, and_false, iff_false]
      exact fun h => note_ne_nil (congrArg diagnostics h)
    | ok x =>
      obtain ⟨combos, weight⟩ := x
      have hx : TokenExpansion rawToken (combos, weight) := ⟨hblank.1, hblank.2, hexpand⟩
      have hkeys : (e.expanded ++ combos.map (·, weight)).map (·.1) =
          e.expanded.map (·.1) ++ combos := by
        simp [Function.comp_def]
      simp only [hx.expansionOf, hkeys, show (∃ x, TokenExpansion rawToken x) from ⟨_, hx⟩,
        true_and]
      constructor
      · intro h
        obtain ⟨hclean, hcombos⟩ :=
          (foldl_addCombo_clean hnodup).1 (congrArg diagnostics h)
        rw [foldl_addCombo hcombos] at h
        exact ⟨hclean, hcombos, (congrArg Expansion.expanded h).symm⟩
      · rintro ⟨hclean, hcombos, rfl⟩
        rw [foldl_addCombo hcombos, hclean]

/-- The tokens expand without a diagnostic when each of them expands and no
combo is covered twice. -/
theorem expandTokens_ok_iff {rawTokens : List (List Char)} {expanded : List (Combo × Weight)} :
    expandTokens rawTokens = { expanded := expanded } ↔
      expanded = rawTokens.flatMap expansionOf ∧ (∀ t ∈ rawTokens, ∃ x, TokenExpansion t x) ∧
        ((rawTokens.flatMap expansionOf).map (·.1)).Nodup := by
  induction rawTokens using List.reverseRecOn generalizing expanded with
  | nil =>
    show ({} : Expansion) = { expanded := expanded } ↔ _
    simp [eq_comm]
  | append_singleton rawTokens rawToken ih =>
    rw [expandTokens_concat, Expansion.step_ok_iff (nodup_expandTokens rawTokens)]
    have hbefore : (expandTokens rawTokens).diagnostics = [] ↔
        (expandTokens rawTokens).expanded = rawTokens.flatMap expansionOf ∧
          (∀ t ∈ rawTokens, ∃ x, TokenExpansion t x) ∧
          ((rawTokens.flatMap expansionOf).map (·.1)).Nodup := by
      rw [← ih]
      constructor
      · intro h
        rw [← h]
      · intro h
        rw [h]
    rw [hbefore, List.flatMap_append, List.flatMap_singleton]
    constructor
    · rintro ⟨⟨hexpanded, hall, -⟩, hx, hnodup, rfl⟩
      rw [hexpanded] at hnodup ⊢
      refine ⟨rfl, fun t ht => ?_, hnodup⟩
      rcases List.mem_append.1 ht with ht | ht
      · exact hall t ht
      · rw [List.mem_singleton.1 ht]
        exact hx
    · rintro ⟨rfl, hall, hnodup⟩
      have hdone : ((rawTokens.flatMap expansionOf).map (·.1)).Nodup := by
        rw [List.map_append] at hnodup
        exact (List.nodup_append'.1 hnodup).1
      have hdoneAll : ∀ t ∈ rawTokens, ∃ x, TokenExpansion t x := fun t ht =>
        hall t (List.mem_append_left _ ht)
      have hexpanded : (expandTokens rawTokens).expanded = rawTokens.flatMap expansionOf := by
        rw [ih.2 ⟨rfl, hdoneAll, hdone⟩]
      exact ⟨⟨hexpanded, hdoneAll, hdone⟩, hall rawToken (by simp), by rwa [hexpanded],
        by rw [hexpanded]⟩

end Expanding

/-! ## Permuting the tokens -/

section Permuting

variable {tokens tokens' : List (List Char)}

theorem expandTokens_perm (h : tokens.Perm tokens') {expanded : List (Combo × Weight)}
    (hok : expandTokens tokens = { expanded := expanded }) :
    ∃ expanded', expandTokens tokens' = { expanded := expanded' } ∧ expanded.Perm expanded' := by
  obtain ⟨rfl, hall, hnodup⟩ := expandTokens_ok_iff.1 hok
  have hcombos := h.flatMap_right expansionOf
  refine ⟨_, expandTokens_ok_iff.2 ⟨rfl, fun t ht => hall t (h.mem_iff.2 ht), ?_⟩, hcombos⟩
  exact (hcombos.map _).nodup_iff.1 hnodup

/-- Sorting forgets the order of expansion. -/
theorem canonicalCombos_perm {blockers : List Card} {expanded expanded' : List (Combo × Weight)}
    (h : expanded.Perm expanded') (hnodup : (expanded.map (·.1)).Nodup) :
    canonicalCombos blockers expanded = canonicalCombos blockers expanded' := by
  have hcanonical : Canonical blockers (canonicalCombos blockers expanded) :=
    canonical_canonicalCombos hnodup
  have hcanonical' : Canonical blockers (canonicalCombos blockers expanded') :=
    canonical_canonicalCombos ((h.map (·.1)).nodup_iff.1 hnodup)
  have hperm : (canonicalCombos blockers expanded).Perm (canonicalCombos blockers expanded') := by
    refine List.Perm.map _ ?_
    exact (List.perm_insertionSort _ _).trans
      ((h.filter _).trans (List.perm_insertionSort _ _).symm)
  refine hperm.eq_of_pairwise (fun a b ha hb hle hge => ?_) hcanonical.sorted hcanonical'.sorted
  exact List.inj_on_of_nodup_map hcanonical.nodup ha (hperm.mem_iff.2 hb)
    (Combo.sortKey_injective (le_antisymm hle hge))

/-- A text of the same characters has as many bytes. -/
theorem utf8ByteSize_perm {s s' : List Char} (h : s.Perm s') :
    (String.ofList s).utf8ByteSize = (String.ofList s').utf8ByteSize := by
  induction h with
  | nil => rfl
  | cons c _ ih => rw [String.ofList_cons, String.ofList_cons, String.utf8ByteSize_append,
      String.utf8ByteSize_append, ih]
  | swap c d s =>
    simp only [String.ofList_cons, String.utf8ByteSize_append]
    omega
  | trans _ _ ih ih' => rw [ih, ih']

/-- The joined tokens are the tokens' characters and a separator between any two. -/
theorem intercalate_perm_flatten (c : Char) : ∀ pieces : List (List Char),
    ([c].intercalate pieces).Perm (pieces.flatten ++ List.replicate (pieces.length - 1) c)
  | [] => by simp
  | [piece] => by simp
  | piece :: next :: pieces => by
    have ih := intercalate_perm_flatten c (next :: pieces)
    simp only [List.length_cons, Nat.add_sub_cancel] at ih
    rw [List.intercalate_cons_cons, List.flatten_cons, List.append_assoc, List.append_assoc,
      show (piece :: next :: pieces).length - 1 = pieces.length + 1 by simp, List.replicate_succ]
    refine List.Perm.append_left piece ?_
    exact (ih.cons c).trans List.perm_middle.symm

theorem intercalate_perm (c : Char) (h : tokens.Perm tokens') :
    ([c].intercalate tokens).Perm ([c].intercalate tokens') := by
  refine (intercalate_perm_flatten c tokens).trans (.trans ?_ (intercalate_perm_flatten c tokens').symm)
  rw [h.length_eq]
  exact h.flatten.append_right _

end Permuting

/-! ## Validating -/

section Validating

variable {digests : Digests} {hand : CanonicalHand} {definition : VersionedRangeDefinitionV1}
  {tokens tokens' : List (List Char)} {range : ValidRange}

/-- The definition with the tokens for its notation, and the hash of that text. -/
def VersionedRangeDefinitionV1.withTokens (definition : VersionedRangeDefinitionV1)
    (digests : Digests) (tokens : List (List Char))
    (h : String.ofList ([','].intercalate tokens) ≠ "") : VersionedRangeDefinitionV1 :=
  definition.withText digests (String.ofList ([','].intercalate tokens)) h

theorem range?_eq_some :
    (validateVersionedRange digests hand definition).range? = some range ↔
      checkedRange digests hand definition = .ok range := by
  unfold validateVersionedRange
  cases checkedRange digests hand definition <;> simp [RangeValidationResultV1.range?]

/-- The tokens of the notation that the tokens were joined to. -/
theorem splitOn_withTokens (hplain : ∀ t ∈ tokens, ',' ∉ t)
    (hne : String.ofList ([','].intercalate tokens) ≠ "") :
    (definition.withTokens digests tokens hne).rangeNotation.toList.splitOn ',' = tokens := by
  show (String.ofList ([','].intercalate tokens)).toList.splitOn ',' = tokens
  rw [String.toList_ofList]
  refine List.splitOn_intercalate ',' hplain ?_
  rintro rfl
  exact hne rfl

theorem withRange_withRange (first second : VersionedRangeDefinitionV1) :
    withRange (withRange hand first) second = withRange hand second := by
  unfold withRange
  rw [List.map_map]
  congr 1
  refine List.map_congr_left fun known _ => ?_
  cases known <;> rfl

variable (hne : String.ofList ([','].intercalate tokens) ≠ "")
  (hne' : String.ofList ([','].intercalate tokens') ≠ "")

theorem checkedRange_perm (hperm : tokens.Perm tokens') (hplain : ∀ t ∈ tokens, ',' ∉ t)
    (h : checkedRange digests (withRange hand (definition.withTokens digests tokens hne))
      (definition.withTokens digests tokens hne) = .ok range) :
    checkedRange digests (withRange hand (definition.withTokens digests tokens' hne'))
      (definition.withTokens digests tokens' hne') = .ok range := by
  have hchars := intercalate_perm ',' hperm
  obtain ⟨hsize, hascii, -, hversioned, binding, hbinding, hcount, expanded, hexpand, hlength,
    hcombos, rfl⟩ := checkedRange_ok.1 h
  rw [splitOn_withTokens hplain] at hcount hexpand
  have hplain' : ∀ t ∈ tokens', ',' ∉ t := fun t ht => hplain t (hperm.mem_iff.2 ht)
  obtain ⟨expanded', hexpand', hexpanded⟩ := expandTokens_perm hperm hexpand
  have hnodup : (expanded.map (·.1)).Nodup := by
    have := nodup_expandTokens tokens
    rwa [hexpand] at this
  have hsame : canonicalCombos binding.blockers expanded = canonicalCombos binding.blockers expanded' :=
    canonicalCombos_perm hexpanded hnodup
  refine checkedRange_ok.2 ⟨?_, ?_, rfl, ?_, binding, hbinding, ?_, expanded', ?_, ?_, ?_, ?_⟩
  · show (String.ofList ([','].intercalate tokens')).utf8ByteSize ≤ _
    rw [← utf8ByteSize_perm hchars]
    exact hsize
  · show isAsciiText (String.ofList ([','].intercalate tokens')).toList = true
    replace hascii : isAsciiText (String.ofList ([','].intercalate tokens)).toList = true := hascii
    rw [String.toList_ofList] at hascii ⊢
    rw [isAsciiText, List.all_eq_true] at hascii ⊢
    exact fun c hc => hascii c (hchars.mem_iff.2 hc)
  · rw [← withRange_withRange]
    exact versioned_withRange hversioned
  · rw [splitOn_withTokens hplain', ← hperm.length_eq]
    exact hcount
  · rw [splitOn_withTokens hplain', hexpand']
  · rw [← hexpanded.length_eq]
    exact hlength
  · rwa [← hsame]
  · rw [← hsame]

/-- Two tokens that cover a combo make the validation fail. -/
theorem range?_eq_none_of_overlap (hplain : ∀ t ∈ tokens, ',' ∉ t) {i j : Nat} (hij : i ≠ j)
    {s t : List Char} (hs : tokens[i]? = some s) (ht : tokens[j]? = some t) {combo : Combo}
    (hcovers : Covers s combo) (hcovers' : Covers t combo) :
    (validateVersionedRange digests (withRange hand (definition.withTokens digests tokens hne))
      (definition.withTokens digests tokens hne)).range? = none := by
  rw [Option.eq_none_iff_forall_ne_some]
  intro range hrange
  rw [range?_eq_some] at hrange
  obtain ⟨-, -, -, -, _, -, -, expanded, hexpand, -⟩ := checkedRange_ok.1 hrange
  rw [splitOn_withTokens hplain] at hexpand
  obtain ⟨-, -, hnodup⟩ := expandTokens_ok_iff.1 hexpand
  rw [List.map_flatMap, List.nodup_flatMap] at hnodup
  have hdisjoint : ∀ (i j : Nat) (s t : List Char), i < j → tokens[i]? = some s → tokens[j]? = some t →
      Covers s combo → ¬ Covers t combo := by
    intro i j s t hlt hs ht hcovers hcovers'
    obtain ⟨hi, rfl⟩ := List.getElem?_eq_some_iff.1 hs
    obtain ⟨hj, rfl⟩ := List.getElem?_eq_some_iff.1 ht
    exact List.pairwise_iff_getElem.1 hnodup.2 i j hi hj hlt hcovers.mem hcovers'.mem
  rcases lt_or_gt_of_ne hij with hlt | hgt
  · exact hdisjoint i j s t hlt hs ht hcovers hcovers'
  · exact hdisjoint j i t s hgt ht hs hcovers' hcovers

/-- The order of the tokens decides neither whether a range is valid nor which
range it is; a combo covered twice makes every order fail. -/
theorem validateVersionedRange_perm (hperm : tokens.Perm tokens') (hplain : ∀ t ∈ tokens, ',' ∉ t) :
    let joined := definition.withTokens digests tokens hne
    let joined' := definition.withTokens digests tokens' hne'
    (validateVersionedRange digests (withRange hand joined) joined).range? =
      (validateVersionedRange digests (withRange hand joined') joined').range? ∧
    ∀ (i j : Nat) (s t : List Char) (combo : Combo), i ≠ j → tokens[i]? = some s → tokens[j]? = some t → Covers s combo →
      Covers t combo →
        (validateVersionedRange digests (withRange hand joined') joined').range? = none := by
  intro joined joined'
  have hsame : (validateVersionedRange digests (withRange hand joined) joined).range? =
      (validateVersionedRange digests (withRange hand joined') joined').range? := by
    refine Option.ext fun range => ?_
    rw [range?_eq_some, range?_eq_some]
    exact ⟨checkedRange_perm hne hne' hperm hplain,
      checkedRange_perm hne' hne hperm.symm fun t ht => hplain t (hperm.mem_iff.2 ht)⟩
  refine ⟨hsame, fun i j s t combo hij hs ht hcovers hcovers' => ?_⟩
  rw [← hsame]
  exact range?_eq_none_of_overlap hne hplain hij hs ht hcovers hcovers'

end Validating

/-- The open range with its tokens the other way round. -/
theorem validateVersionedRange_perm_open :
    let joined := openDefinition.withTokens openDigests ["KQs".toList, "AA@0.50".toList] (by decide)
    (validateVersionedRange openDigests (withRange openHand joined) joined).range? =
      some openRange := by
  intro joined
  have hne : String.ofList ([','].intercalate ["AA@0.50".toList, "KQs".toList]) ≠ "" := by decide
  have hswap := (@validateVersionedRange_perm openDigests openHand openDefinition _ _ hne (by decide)
    (List.Perm.swap "KQs".toList "AA@0.50".toList []) (by decide)).1
  have hopen : ∀ (text : String) (h : text ≠ ""), text = "AA@0.50,KQs" →
      openDefinition.withText openDigests text h = openDefinition := by
    rintro _ h rfl
    rfl
  have hdefinition : openDefinition.withTokens openDigests ["AA@0.50".toList, "KQs".toList] hne =
      openDefinition := hopen _ hne (by decide)
  have hhand : withRange openHand openDefinition = openHand := rfl
  rw [← hswap, hdefinition, hhand, validateVersionedRange_open]
  rfl

end PokerDeliberation.Ranges
