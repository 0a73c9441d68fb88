import PokerDeliberation.Lib.Rearranged
import PokerDeliberation.Normalization.Soundness
import PokerDeliberation.Security.Soundness
import Mathlib.Data.Set.List
import Mathlib.Logic.Relation

/-!
# The hand depends on the records alone

The lines of a document can be written with either line break, ignored lines
can be put in or left out, a record can be spelled in another way and a scalar
line can pass its neighbour. None of this changes the hand.
-/

namespace PokerDeliberation.Normalization

open Lib Lib.Utf8

/-! ## Line breaks -/

/-- How the lines of a document are told apart. -/
inductive Newline where
  | lf | crlf
  deriving DecidableEq, Repr

def Newline.text : Newline → Text
  | lf => [LF]
  | crlf => CRLF

/-- The text that has these lines. -/
def joinLines (newline : Newline) : List Text → Text
  | [] => []
  | [line] => line
  | line :: lines => line ++ (newline.text ++ joinLines newline lines)

/-- No character of a line breaks it. -/
def Unbroken (line : Text) : Prop := ∀ c ∈ line, c ≠ CR ∧ c ≠ LF

variable {line : Text} {lines : List Text} {t : Text} {c : Nat}

theorem withoutCrlf_cons (h : c ≠ CR) : withoutCrlf (c :: t) = c :: withoutCrlf t := by
  cases t with
  | nil => rfl
  | cons d t => rw [withoutCrlf, if_neg (fun hc => h hc.1)]

theorem crlfCount_cons (h : c ≠ CR) : crlfCount (c :: t) = crlfCount t := by
  cases t with
  | nil => rfl
  | cons d t => rw [crlfCount, if_neg (fun hc => h hc.1)]

theorem splitCrlf_cons (h : c ≠ CR) : splitCrlf (c :: t) = (splitCrlf t).modifyHead (c :: ·) := by
  cases t with
  | nil => rfl
  | cons d t => rw [splitCrlf, if_neg (fun hc => h hc.1)]

theorem withoutCrlf_append (h : Unbroken line) : withoutCrlf (line ++ t) = line ++ withoutCrlf t := by
  induction line with
  | nil => rfl
  | cons c line ih =>
    rw [List.cons_append, withoutCrlf_cons (h c List.mem_cons_self).1,
      ih fun d hd => h d (List.mem_cons_of_mem _ hd), List.cons_append]

theorem crlfCount_append (h : Unbroken line) : crlfCount (line ++ t) = crlfCount t := by
  induction line with
  | nil => rfl
  | cons c line ih =>
    rw [List.cons_append, crlfCount_cons (h c List.mem_cons_self).1,
      ih fun d hd => h d (List.mem_cons_of_mem _ hd)]

theorem splitCrlf_append (h : Unbroken line) :
    splitCrlf (line ++ t) = (splitCrlf t).modifyHead (line ++ ·) := by
  induction line with
  | nil =>
    rw [List.nil_append]
    cases splitCrlf t <;> rfl
  | cons c line ih =>
    rw [List.cons_append, splitCrlf_cons (h c List.mem_cons_self).1,
      ih fun d hd => h d (List.mem_cons_of_mem _ hd)]
    cases splitCrlf t <;> rfl

theorem count_unbroken (h : Unbroken line) : line.count LF = 0 :=
  List.count_eq_zero.2 fun hmem => (h LF hmem).2 rfl

theorem CR_notMem (h : Unbroken line) : CR ∉ line := fun hmem => (h CR hmem).1 rfl

/-- What the source counts in a document with two characters a break. -/
theorem joinLines_crlf (hall : ∀ line ∈ lines, Unbroken line) (hne : lines ≠ []) :
    CR ∉ withoutCrlf (joinLines .crlf lines) ∧
      (joinLines .crlf lines).count LF = crlfCount (joinLines .crlf lines) ∧
      crlfCount (joinLines .crlf lines) + 1 = lines.length ∧
      splitCrlf (joinLines .crlf lines) = lines := by
  induction lines with
  | nil => exact absurd rfl hne
  | cons line lines ih =>
    have hline := hall line List.mem_cons_self
    cases lines with
    | nil =>
      have hwithout := withoutCrlf_append (t := []) hline
      have hcount := crlfCount_append (t := []) hline
      have hsplit := splitCrlf_append (t := []) hline
      simp only [List.append_nil] at hwithout hcount hsplit
      simp only [joinLines, hwithout, hcount, hsplit, count_unbroken hline]
      exact ⟨by simpa [withoutCrlf] using CR_notMem hline, rfl, rfl, by simp [splitCrlf]⟩
    | cons next lines =>
      obtain ⟨hcr, hlf, hlength, hsplit⟩ :=
        ih (fun line h => hall line (List.mem_cons_of_mem _ h)) (by simp)
      have hbreak : joinLines .crlf (line :: next :: lines) =
          line ++ CR :: LF :: joinLines .crlf (next :: lines) := rfl
      refine ⟨?_, ?_, ?_, ?_⟩
      · rw [hbreak, withoutCrlf_append hline, withoutCrlf, if_pos ⟨rfl, rfl⟩]
        exact fun hmem => (List.mem_append.1 hmem).elim (CR_notMem hline) hcr
      · rw [hbreak, crlfCount_append hline, crlfCount, if_pos ⟨rfl, rfl⟩, List.count_append,
          count_unbroken hline, List.count_cons_of_ne (by decide), List.count_cons_self, hlf,
          Nat.zero_add]
      · rw [hbreak, crlfCount_append hline, crlfCount, if_pos ⟨rfl, rfl⟩, hlength]
        rfl
      · rw [hbreak, splitCrlf_append hline, splitCrlf, if_pos ⟨rfl, rfl⟩, hsplit,
          List.modifyHead_cons, List.append_nil]

theorem joinLines_lf (hall : ∀ line ∈ lines, Unbroken line) (hne : lines ≠ []) :
    CR ∉ joinLines .lf lines ∧ splitLf (joinLines .lf lines) = lines := by
  induction lines with
  | nil => exact absurd rfl hne
  | cons line lines ih =>
    have hline := hall line List.mem_cons_self
    have hclear : ∀ c ∈ line, (c == LF) = false := fun c hc => beq_false_of_ne (hline c hc).2
    cases lines with
    | nil => exact ⟨CR_notMem hline, List.splitOnP_eq_singleton hclear⟩
    | cons next lines =>
      obtain ⟨hcr, hsplit⟩ := ih (fun line h => hall line (List.mem_cons_of_mem _ h)) (by simp)
      have hbreak : joinLines .lf (line :: next :: lines) =
          line ++ LF :: joinLines .lf (next :: lines) := rfl
      rw [hbreak]
      constructor
      · simp only [List.mem_append, List.mem_cons, not_or]
        exact ⟨CR_notMem hline, by decide, hcr⟩
      · rw [splitLf, List.splitOn_eq_splitOnP,
          List.splitOnP_append_cons_of_forall_mem hclear LF (beq_self_eq_true LF)]
        exact congrArg _ hsplit

theorem no_crlf (h : CR ∉ t) : withoutCrlf t = t ∧ crlfCount t = 0 := by
  induction t with
  | nil => exact ⟨rfl, rfl⟩
  | cons c t ih =>
    obtain ⟨hc, ht⟩ := not_or.1 (mt List.mem_cons.2 h)
    obtain ⟨hwithout, hcount⟩ := ih ht
    rw [withoutCrlf_cons (Ne.symm hc), crlfCount_cons (Ne.symm hc), hwithout, hcount]
    exact ⟨rfl, rfl⟩

/-- Either line break gives the lines back. -/
theorem splitLines_joinLines (newline : Newline) (hall : ∀ line ∈ lines, Unbroken line)
    (hne : lines ≠ []) : splitLines (joinLines newline lines) = some lines := by
  cases newline with
  | lf =>
    obtain ⟨hcr, hsplit⟩ := joinLines_lf hall hne
    obtain ⟨hwithout, hcount⟩ := no_crlf hcr
    simp [splitLines, hwithout, hcount, hcr, hsplit]
  | crlf =>
    obtain ⟨hcr, hlf, hlength, hsplit⟩ := joinLines_crlf hall hne
    have hbare : (joinLines .crlf lines).count LF - crlfCount (joinLines .crlf lines) = 0 := by omega
    by_cases hcount : crlfCount (joinLines .crlf lines) = 0
    · -- a single line, without a break
      have hsingle : ∃ line, lines = [line] := List.length_eq_one_iff.1 (by omega)
      obtain ⟨line, rfl⟩ := hsingle
      have hline := hall line List.mem_cons_self
      have hclear : ∀ c ∈ line, (c == LF) = false := fun c hc => beq_false_of_ne (hline c hc).2
      simp only [joinLines] at hcr hcount
      simp [splitLines, joinLines, hcr, hcount, splitLf, List.splitOn_eq_splitOnP,
        List.splitOnP_eq_singleton hclear]
    · simp only [splitLines, hbare, hcr, if_false, ne_eq, not_true, and_false, hcount,
        not_false_eq_true, if_true, hsplit]

/-! ## Rewriting lines -/

variable {lines' : List Text} {records records' : List Record} {r r' : Record}

/-- A change of the lines that keeps what they record. -/
inductive Rewrites : List Text → List Text → Prop where
  | ignored {before after : List Text} {line : Text} :
    isIgnored line → Rewrites (before ++ after) (before ++ line :: after)
  | respelled {before after : List Text} {raw raw' : Text} {r : Record} :
    Spells raw r → Spells raw' r → Rewrites (before ++ raw :: after) (before ++ raw' :: after)
  | moved {before after : List Text} {raw other value : Text} {field : ScalarField} :
    Spells raw (.scalar field, value) →
    Rewrites (before ++ raw :: other :: after) (before ++ other :: raw :: after)

/-- What is read of a line that is not ignored. -/
def formOf (raw : Text) : Option (Option Record) :=
  if isIgnored raw then none else some (recordOf raw)

def isScalarRecord (r : Record) : Bool := (scalarOf r).isSome

def isScalarForm (form : Option Record) : Bool := form.any isScalarRecord

theorem formOf_spelled {raw : Text} (h : Spells raw r) : formOf raw = some (some r) := by
  rw [formOf, h.not_ignored, recordOf_eq_some.2 h]
  rfl

/-- A rewrite moves scalar records only. -/
theorem Rewrites.rearranged (h : Rewrites lines lines') :
    Rearranged isScalarForm (lines.filterMap formOf) (lines'.filterMap formOf) := by
  cases h with
  | ignored hignored =>
    have hform : formOf _ = none := if_pos hignored
    rw [List.filterMap_append, List.filterMap_append, List.filterMap_cons_none hform]
    exact .refl _
  | respelled hraw hraw' =>
    rw [List.filterMap_append, List.filterMap_append,
      List.filterMap_cons_some (formOf_spelled hraw),
      List.filterMap_cons_some (formOf_spelled hraw')]
    exact .refl _
  | moved hraw =>
    rename_i before after raw other value field
    rw [List.filterMap_append, List.filterMap_append,
      List.filterMap_cons_some (formOf_spelled hraw)]
    cases hother : formOf other with
    | none =>
      rw [List.filterMap_cons_none hother, List.filterMap_cons_none hother,
        List.filterMap_cons_some (formOf_spelled hraw)]
      exact .refl _
    | some form =>
      rw [List.filterMap_cons_some hother, List.filterMap_cons_some hother,
        List.filterMap_cons_some (formOf_spelled hraw)]
      exact rearranged_swap rfl

theorem rearranged_of_eqvGen (h : Relation.EqvGen Rewrites lines lines') :
    Rearranged isScalarForm (lines.filterMap formOf) (lines'.filterMap formOf) := by
  induction h with
  | rel _ _ h => exact h.rearranged
  | refl _ => exact .refl _
  | symm _ _ _ ih => exact ih.symm
  | trans _ _ _ _ _ ih ih' => exact ih.trans ih'

/-! ## Rearranged records -/

/-- Lines spell records when these are what is read of them. -/
theorem spelled_iff : List.Forall₂ Spells (lines.filter fun line => !isIgnored line) records ↔
    lines.filterMap formOf = records.map some := by
  have hforms : lines.filterMap formOf =
      (lines.filter fun line => !isIgnored line).map recordOf := by
    induction lines with
    | nil => rfl
    | cons line lines ih => by_cases h : isIgnored line = true <;> simp [formOf, h, ih]
  have hspells : Spells = fun raw r => recordOf raw = some r := by
    funext raw r
    exact propext recordOf_eq_some.symm
  rw [hforms, hspells, ← List.forall₂_eq_eq_eq, List.forall₂_map_left_iff,
    List.forall₂_map_right_iff]

/-- Records that are read in another order. -/
theorem exists_records (h : Rearranged isScalarForm (records.map some) (lines.filterMap formOf)) :
    ∃ records', lines.filterMap formOf = records'.map some ∧
      Rearranged isScalarRecord records records' := by
  have hsome : ∀ form ∈ lines.filterMap formOf, form ∈ Set.range (some : Record → Option Record) := by
    intro form hform
    obtain ⟨r, -, rfl⟩ := List.mem_map.1 (h.perm.mem_iff.2 hform)
    exact ⟨r, rfl⟩
  have hrange : lines.filterMap formOf ∈ Set.range (List.map (some : Record → Option Record)) := by
    rw [Set.range_list_map]
    exact hsome
  obtain ⟨records', hrecords'⟩ := hrange
  rw [← hrecords'] at h
  exact ⟨records', hrecords'.symm, h.map (Option.some_injective _) fun _ => rfl⟩

/-- Of records with distinct scalar keys, one has the key. -/
theorem eq_of_scalarOf {field : ScalarField} (h : (records.filterMap scalarOf).Nodup)
    (hr : r ∈ records) (hr' : r' ∈ records) (hfield : scalarOf r = some field)
    (hfield' : scalarOf r' = some field) : r = r' := by
  by_contra hne
  have hpairs := List.pairwise_filterMap.1 h
  have hsymm : Std.Symm fun r r' : Record =>
      ∀ f, scalarOf r = some f → ∀ f', scalarOf r' = some f' → f ≠ f' :=
    ⟨fun _ _ h f hf f' hf' => (h f' hf' f hf).symm⟩
  exact hpairs.forall hr hr' hne field hfield field hfield' rfl

/-- A scalar record passes any other. -/
theorem applyRecord_comm (hdistinct : (records.filterMap scalarOf).Nodup)
    (hreadable : ∀ r ∈ records, ∃ entry, entryOf r = .ok entry) (hr : r ∈ records)
    (hr' : r' ∈ records) (hscalar : isScalarRecord r) (data : HandData) :
    applyRecord (applyRecord data r) r' = applyRecord (applyRecord data r') r := by
  obtain ⟨field, hfield⟩ := Option.isSome_iff_exists.1 hscalar
  by_cases hkey : r.1 = r'.1
  · have hfield' : scalarOf r' = some field := by rw [← hfield, scalarOf, scalarOf, hkey]
    rw [eq_of_scalarOf hdistinct hr hr' hfield hfield']
  · obtain ⟨entry, hentry⟩ := hreadable r hr
    obtain ⟨entry', hentry'⟩ := hreadable r' hr'
    simp only [applyRecord, hentry, hentry']
    refine insert_comm ?_
    rwa [key_of_entryOf hentry, key_of_entryOf hentry']

theorem assemble_eq (hr : Rearranged isScalarRecord records records')
    (hdistinct : (records.filterMap scalarOf).Nodup)
    (hreadable : ∀ r ∈ records, ∃ entry, entryOf r = .ok entry) :
    assemble records = assemble records' :=
  hr.foldl_eq (fun _ hx _ hy hscalar data =>
    applyRecord_comm hdistinct hreadable hx hy hscalar data) {}

/-- Rewritten lines follow the grammar too, and put the same data together. -/
theorem Follows.rewritten (h : Follows lines records) (hlines : Relation.EqvGen Rewrites lines lines')
    (hshort : ∀ line ∈ lines', encodedLength line ≤ MAX_LINE_BYTES) :
    ∃ records', Follows lines' records' ∧ assemble records = assemble records' := by
  have hrearranged := rearranged_of_eqvGen hlines
  rw [spelled_iff.1 h.spelled] at hrearranged
  obtain ⟨records', hrecords', hr⟩ := exists_records hrearranged
  refine ⟨records', ⟨hshort, spelled_iff.2 hrecords', ?_, ?_, ?_, ?_⟩,
    assemble_eq hr h.distinct h.readable⟩
  · exact (hr.perm.filterMap scalarOf).nodup_iff.1 h.distinct
  · exact hr.perm.countP_eq _ ▸ h.players
  · exact hr.perm.countP_eq _ ▸ h.actions
  · exact fun r hmem => h.readable r (hr.perm.mem_iff.2 hmem)

/-! ## Documents -/

variable {lib : Library} {source source' : List UInt8} {newline newline' : Newline}

/-- The source has these lines, with this line break, and passes the checks of the whole text. -/
structure Written (lib : Library) (source : List UInt8) (newline : Newline) (lines : List Text) :
    Prop where
  decoded : decode source = some (joinLines newline lines)
  nonempty : lines ≠ []
  unbroken : ∀ line ∈ lines, Unbroken line
  checked : ∃ read, IsDocument lib source read

/-- The lines that the checks pass on are the ones of the decoded text. -/
theorem isDocument_split (h : IsDocument lib source lines) :
    ∃ t, decode source = some t ∧ splitLines t = some lines := by
  unfold IsDocument readSource at h
  simp only [bind_eq_ok, require_eq_ok, exists_const] at h
  obtain ⟨-, -, h⟩ := h
  split at h
  · exact absurd h throw_ne_ok
  · rename_i t hdecode
    simp only [bind_eq_ok, require_eq_ok, exists_const] at h
    obtain ⟨-, -, -, h⟩ := h
    split at h
    · exact absurd h throw_ne_ok
    · rename_i lines' hsplit
      simp only [bind_eq_ok, require_eq_ok, exists_const, pure_eq_ok] at h
      obtain ⟨-, rfl⟩ := h
      exact ⟨t, hdecode, hsplit⟩

theorem Written.isDocument (h : Written lib source newline lines) : IsDocument lib source lines := by
  obtain ⟨read, hread⟩ := h.checked
  obtain ⟨t, hdecode, hsplit⟩ := isDocument_split hread
  obtain rfl := Option.some.inj (h.decoded.symm.trans hdecode)
  rw [splitLines_joinLines newline h.unbroken h.nonempty, Option.some.injEq] at hsplit
  exact hsplit ▸ hread

theorem Follows.unique (h : Follows lines records) (h' : Follows lines records') :
    records = records' := by
  have hmap : records.map some = records'.map some :=
    (spelled_iff.1 h.spelled).symm.trans (spelled_iff.1 h'.spelled)
  exact List.map_injective_iff.2 (Option.some_injective _) hmap

/-- A hand of the first document is one of the second. -/
theorem hand_of_rewritten {result result' : NormalizationResultV1}
    (hlines : IsDocument lib source lines) (hlines' : IsDocument lib source' lines')
    (hshort : ∀ line ∈ lines', encodedLength line ≤ MAX_LINE_BYTES)
    (h : Relation.EqvGen Rewrites lines lines')
    (hresult : normalizeHandRequest lib source = .ok result)
    (hresult' : normalizeHandRequest lib source' = .ok result') (hand : CanonicalHand)
    (hhand : result.hand = some hand) : result'.hand = some hand := by
  obtain ⟨_, hrun, hcases⟩ := normalize_cases lib source
  obtain ⟨_, hrun', hcases'⟩ := normalize_cases lib source'
  obtain rfl := Except.ok.inj (hresult.symm.trans hrun)
  obtain rfl := Except.ok.inj (hresult'.symm.trans hrun')
  rcases hcases with ⟨read, records, hread, hfollows, hschema, hsucceeds⟩ | ⟨hfails, -⟩
  swap
  · rw [hfails.hand] at hhand
    cases hhand
  obtain rfl := Except.ok.inj (hlines.symm.trans hread)
  obtain ⟨records', hfollows', hassemble⟩ := hfollows.rewritten h hshort
  rcases hcases' with ⟨read', records'', hread', hfollows'', hschema', hsucceeds'⟩ | ⟨hfails', hnone⟩
  · obtain rfl := Except.ok.inj (hlines'.symm.trans hread')
    obtain rfl := hfollows'.unique hfollows''
    rw [hsucceeds'.hand, ← hassemble, ← hsucceeds.hand, hhand]
  · exact absurd (hassemble ▸ hschema) (hnone lines' records' hlines' hfollows')

/-- Normalization returns a result for every source. It is a success exactly when the lines
follow the grammar and what they put together satisfies the schema; a failure carries errors
and no hand; and documents whose lines are rewritten into each other have the same hand. -/
theorem normalizeHandRequest_total (lib : Library) (source : List UInt8) :
    ∃ result, normalizeHandRequest lib source = .ok result ∧
      (result.status = .success ↔ ∃ lines records, IsDocument lib source lines ∧
        Follows lines records ∧ SatisfiesSchema (assemble records)) ∧
      (result.status = .failed → result.hand = none ∧
        (∃ d ∈ result.diagnostics, d.severity = .error) ∧
        result.diagnostics.length ≤ MAX_DIAGNOSTICS) ∧
      ∀ newline lines source' newline' lines', Written lib source newline lines →
        Written lib source' newline' lines' → Relation.EqvGen Rewrites lines lines' →
        (∀ line ∈ lines, encodedLength line ≤ MAX_LINE_BYTES) →
        (∀ line ∈ lines', encodedLength line ≤ MAX_LINE_BYTES) →
        ∃ result', normalizeHandRequest lib source' = .ok result' ∧ result'.hand = result.hand := by
  obtain ⟨result, hresult, hcases⟩ := normalize_cases lib source
  refine ⟨result, hresult, ?_, ?_, ?_⟩
  · rcases hcases with ⟨lines, records, hlines, hfollows, hschema, hsucceeds⟩ | ⟨hfails, hnone⟩
    · exact ⟨fun _ => ⟨lines, records, hlines, hfollows, hschema⟩, fun _ => hsucceeds.status⟩
    · refine ⟨fun hstatus => ?_, fun ⟨lines, records, hlines, hfollows, hschema⟩ =>
        absurd hschema (hnone lines records hlines hfollows)⟩
      rw [hfails.status] at hstatus
      cases hstatus
  · intro hstatus
    rcases hcases with ⟨_, _, _, _, _, hsucceeds⟩ | ⟨hfails, -⟩
    · rw [hsucceeds.status] at hstatus
      cases hstatus
    · exact ⟨hfails.hand, hfails.errors, hfails.bounded⟩
  · intro newline lines source' newline' lines' hwritten hwritten' hrewrites hshort hshort'
    obtain ⟨result', hresult', -⟩ := normalize_cases lib source'
    have hforth := hand_of_rewritten hwritten.isDocument hwritten'.isDocument hshort' hrewrites
      hresult hresult'
    have hback := hand_of_rewritten hwritten'.isDocument hwritten.isDocument hshort hrewrites.symm
      hresult' hresult
    exact ⟨result', hresult', Option.ext fun hand => ⟨hback hand, hforth hand⟩⟩

/-! ## A comment with a control character -/

/-- The source has these lines, within the limits and without a secret shape. -/
structure WithinLimits (lib : Library) (source : List UInt8) (newline : Newline)
    (lines : List Text) : Prop where
  decoded : decode source = some (joinLines newline lines)
  nonempty : lines ≠ []
  unbroken : ∀ line ∈ lines, Unbroken line
  size : source.length ≤ MAX_SOURCE_BYTES
  count : lines.length ≤ MAX_LINES
  short : ∀ line ∈ lines, encodedLength line ≤ MAX_LINE_BYTES
  unshaped : hasSecretShape lib (joinLines newline lines) = false

/-- The library on ASCII texts. -/
def asciiLibrary : Library where
  sha256 _ := ""
  json _ := []
  unicode := Security.asciiUnicode
  nfc := id
  isFormatCharacter _ := false

def written (newline : Newline) (lines : List Text) : List UInt8 :=
  (encode (joinLines newline lines)).getD []

def sampleLines : List Text :=
  [text "format: cash", text "table_size: 2", text "small_blind: 1", text "big_blind: 2",
    text "player: a, b, 1", text "player: c, d, 1"]

def controlComment : Text := [0x23, 0x01]

theorem sampleLines_within :
    WithinLimits asciiLibrary (written .lf sampleLines) .lf sampleLines where
  decoded := by decide +kernel
  nonempty := by decide
  unbroken := by unfold Unbroken; decide +kernel
  size := by decide +kernel
  count := by decide
  short := by decide +kernel
  unshaped := by decide +kernel

theorem controlComment_within : WithinLimits asciiLibrary
    (written .lf (controlComment :: sampleLines)) .lf (controlComment :: sampleLines) where
  decoded := by decide +kernel
  nonempty := by decide
  unbroken := by unfold Unbroken; decide +kernel
  size := by decide +kernel
  count := by decide
  short := by decide +kernel
  unshaped := by decide +kernel

/-- The limits and the secret check are not all that a comment can fail: with a control
character in it the hand is lost. -/
theorem controlComment_loses_hand :
    ¬ ∀ (lib : Library) (source source' : List UInt8) (newline newline' : Newline)
        (lines lines' : List Text) (result result' : NormalizationResultV1),
      WithinLimits lib source newline lines → WithinLimits lib source' newline' lines' →
      Rewrites lines lines' → normalizeHandRequest lib source = .ok result →
      normalizeHandRequest lib source' = .ok result' → result'.hand = result.hand := by
  intro hall
  have hsuccess : ((normalizeHandRequest asciiLibrary (written .lf sampleLines)).toOption.any
      fun result => result.hand.isSome) = true := by decide +kernel
  have hfailure : ((normalizeHandRequest asciiLibrary
      (written .lf (controlComment :: sampleLines))).toOption.any
      fun result => result.hand.isNone) = true := by decide +kernel
  cases hrun : normalizeHandRequest asciiLibrary (written .lf sampleLines) with
  | error e =>
    rw [hrun] at hsuccess
    cases hsuccess
  | ok result =>
    cases hrun' : normalizeHandRequest asciiLibrary
        (written .lf (controlComment :: sampleLines)) with
    | error e =>
      rw [hrun'] at hfailure
      cases hfailure
    | ok result' =>
      have hrewrites : Rewrites ([] ++ sampleLines) ([] ++ controlComment :: sampleLines) :=
        .ignored (by decide)
      have hsame := hall asciiLibrary _ _ .lf .lf _ _ result result' sampleLines_within
        controlComment_within hrewrites hrun hrun'
      rw [hrun] at hsuccess
      rw [hrun'] at hfailure
      have hsome : result.hand.isSome = true := hsuccess
      have hnone : result'.hand.isNone = true := hfailure
      rw [hsame, Option.isNone_iff_eq_none] at hnone
      rw [hnone] at hsome
      cases hsome

end PokerDeliberation.Normalization
