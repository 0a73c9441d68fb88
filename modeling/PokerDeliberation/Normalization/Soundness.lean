import PokerDeliberation.Lib.Assoc
import PokerDeliberation.Normalization.Loop
import PokerDeliberation.Normalization.Schema

/-!
# Normalization is total, and succeeds on the grammar and the schema

`normalizeHandRequest` returns a result for every byte string. The result is a
success exactly when the source is a text within the limits whose lines follow
the grammar and whose records satisfy the schema; every other result carries
errors and no hand.
-/

namespace PokerDeliberation.Normalization

open Lib

variable {lib : Library} {source : List UInt8} {lines : List Text} {records : List Record}
  {result : NormalizationResultV1} {ds : List NormalizationDiagnosticV1}

/-- A failure that says what is wrong. -/
structure Fails (result : NormalizationResultV1) : Prop where
  status : result.status = .failed
  hand : result.hand = none
  errors : ∃ d ∈ result.diagnostics, d.severity = .error
  bounded : result.diagnostics.length ≤ MAX_DIAGNOSTICS

/-- Diagnostics that are errors, and not none, make a failure. -/
theorem failed_ok (hne : ds ≠ []) (herrors : ∀ d ∈ ds, d.severity = .error) :
    ∃ result, failed lib.toSerializer source ds = .ok result ∧ Fails result := by
  have hbounded : ∃ bs, bounded ds = .ok bs ∧ bs ≠ [] ∧ (∀ d ∈ bs, d.severity = .error) ∧
      bs.length ≤ MAX_DIAGNOSTICS := by
    unfold bounded
    split
    · rename_i hlength
      exact ⟨ds, rfl, hne, herrors, hlength⟩
    · have hlast : diagnostic .diagnosticLimit none .document =
          .ok ⟨.error, .diagnosticLimit, none, some .document⟩ := diagnostic_ok nofun
      rw [hlast]
      refine ⟨_, rfl, by simp, fun d hd => ?_, ?_⟩
      · rcases List.mem_append.1 hd with hold | hnew
        · exact herrors d (List.mem_of_mem_take hold)
        · obtain rfl := List.mem_singleton.1 hnew
          rfl
      · rw [List.length_append, List.length_take, List.length_singleton, MAX_DIAGNOSTICS]
        omega
  obtain ⟨bs, hbs, hbsne, hbserrors, hlength⟩ := hbounded
  obtain ⟨d, hd⟩ := List.exists_mem_of_ne_nil bs hbsne
  have hfilter : bs.filter (fun item => item.severity = .error) ≠ [] :=
    List.ne_nil_of_mem (List.mem_filter.2 ⟨hd, by simpa using hbserrors d hd⟩)
  refine ⟨⟨.failed, none, bs, provenance lib.toSerializer source none⟩, ?_,
    ⟨rfl, rfl, ⟨d, hd, hbserrors d hd⟩, hlength⟩⟩
  rw [failed, hbs, bind_ok_left rfl, closedResult, require_bind_eq_ok]
  refine ⟨hlength, ?_⟩
  simp only [require_bind_eq_ok, pure_eq_ok, and_true]
  exact ⟨trivial, hfilter, rfl, rfl⟩

theorem closedResult_success {hand : CanonicalHand} {normalized : List UInt8}
    (h : canonicalNormalizedHandBytes lib.toSerializer hand = .ok normalized) :
    closedResult lib.toSerializer ⟨.success, some hand, [],
      provenance lib.toSerializer source (some normalized)⟩ =
      .ok ⟨.success, some hand, [], provenance lib.toSerializer source (some normalized)⟩ := by
  rw [closedResult, require_bind_eq_ok]
  refine ⟨Nat.zero_le _, ?_⟩
  simp only [h, Except.mapError, bind_ok_left rfl, require_bind_eq_ok, pure_eq_ok, and_true]
  exact ⟨rfl, rfl, rfl⟩

/-! ## Schema diagnostics -/

variable {errors : List (Option HandField)} {fieldLines : List (ScalarField × Nat)}

theorem firsts_ne_nil {α : Type} [DecidableEq α] {xs seen : List α} (h : xs ≠ [] ∨ seen ≠ []) :
    xs.foldl (fun seen x => if x ∈ seen then seen else seen ++ [x]) seen ≠ [] := by
  induction xs generalizing seen with
  | nil => simpa using h
  | cons x xs ih =>
    rw [List.foldl_cons]
    refine ih (.inr ?_)
    split
    · rename_i hmem
      exact List.ne_nil_of_mem hmem
    · simp

theorem mem_of_mem_firsts {α : Type} [DecidableEq α] {xs seen : List α} {a : α}
    (h : a ∈ xs.foldl (fun seen x => if x ∈ seen then seen else seen ++ [x]) seen) :
    a ∈ seen ∨ a ∈ xs := by
  induction xs generalizing seen with
  | nil => exact .inl h
  | cons x xs ih =>
    rw [List.foldl_cons] at h
    rcases ih h with hseen | hrest
    · split at hseen
      · exact .inl hseen
      · rcases List.mem_append.1 hseen with hold | hnew
        · exact .inl hold
        · exact .inr (by simp [List.mem_singleton.1 hnew])
    · exact .inr (List.mem_cons_of_mem _ hrest)

theorem lineOf_bounded (hlines : ∀ noted ∈ fieldLines, 1 ≤ noted.2 ∧ noted.2 ≤ MAX_LINES)
    (raw : Option HandField) : ∀ n ∈ lineOf fieldLines raw, 1 ≤ n ∧ n ≤ MAX_LINES := by
  intro n hn
  unfold lineOf at hn
  split at hn
  · exact hlines _ (mem_of_lookup hn)
  · cases hn

theorem schemaDiagnostics_ok (hlines : ∀ noted ∈ fieldLines, 1 ≤ noted.2 ∧ noted.2 ≤ MAX_LINES)
    (hne : errors ≠ []) : ∃ ds, schemaDiagnostics fieldLines errors = .ok ds ∧ ds ≠ [] ∧
      ∀ d ∈ ds, d.severity = .error := by
  have hsorted : sortedErrors errors ≠ [] := by
    intro hnil
    have hlength := List.length_insertionSort
      (fun x y : Option HandField => (x.map HandField.name).getD [] ≤ (y.map HandField.name).getD [])
      errors
    rw [show errors.insertionSort _ = [] from hnil] at hlength
    exact hne (List.length_eq_zero_iff.1 hlength.symm)
  have hidentities : (sortedErrors errors).map
      (fun raw => (lineOf fieldLines raw, canonicalField raw)) ≠ [] := by simpa using hsorted
  have hfirsts : firstOccurrences ((sortedErrors errors).map
      fun raw => (lineOf fieldLines raw, canonicalField raw)) ≠ [] :=
    firsts_ne_nil (.inl hidentities)
  have hdiagnostics : List.Forall₂ (fun identity d =>
      diagnostic .canonicalField identity.1 identity.2 = .ok d)
      (firstOccurrences ((sortedErrors errors).map
        fun raw => (lineOf fieldLines raw, canonicalField raw)))
      ((firstOccurrences ((sortedErrors errors).map
        fun raw => (lineOf fieldLines raw, canonicalField raw))).map
        fun identity => ⟨.error, .canonicalField, identity.1, some identity.2⟩) := by
    rw [List.forall₂_map_right_iff, List.forall₂_same]
    intro identity hidentity
    refine diagnostic_ok ?_
    rcases mem_of_mem_firsts hidentity with hnil | hmem
    · cases hnil
    · obtain ⟨raw, -, rfl⟩ := List.mem_map.1 hmem
      exact lineOf_bounded hlines raw
  refine ⟨_, (mapM_eq_ok _).2 hdiagnostics, by simpa using hfirsts, fun d hd => ?_⟩
  obtain ⟨_, -, rfl⟩ := List.mem_map.1 hd
  rfl

/-! ## The request -/

/-- The source is a text within the limits, of these lines, without a secret shape. -/
def IsDocument (lib : Library) (source : List UInt8) (lines : List Text) : Prop :=
  readSource lib source = .ok lines

/-- The document's hand, and that it is the one of records that follow the grammar. -/
structure Succeeds (result : NormalizationResultV1) (data : HandData) : Prop where
  status : result.status = .success
  hand : result.hand = some (handOf data)

theorem isDocument_length (h : IsDocument lib source lines) : lines.length ≤ MAX_LINES := by
  unfold IsDocument readSource at h
  simp only [bind_eq_ok, require_eq_ok, exists_const] at h
  obtain ⟨-, -, h⟩ := h
  split at h
  · exact absurd h throw_ne_ok
  · simp only [bind_eq_ok, require_eq_ok, exists_const] at h
    obtain ⟨-, -, -, h⟩ := h
    split at h
    · exact absurd h throw_ne_ok
    · simp only [bind_eq_ok, require_eq_ok, exists_const, pure_eq_ok] at h
      obtain ⟨hlength, rfl⟩ := h
      exact hlength

/-- After the loop, a tournament adds an error. -/
theorem checkFormat_ok {s : ParseState} (h : Tidy s) : ∃ s', checkFormat s = .ok s' ∧ Tidy s' ∧
    s'.data = s.data ∧
    (s'.diagnostics = [] ↔ s.diagnostics = [] ∧ s.data.strings .format ≠ some (text "tournament")) := by
  unfold checkFormat
  split
  · rename_i hformat
    have hline : ∀ n ∈ s.fieldLines.lookup .format, 1 ≤ n ∧ n ≤ MAX_LINES :=
      fun n hn => h.lines _ (mem_of_lookup hn)
    rw [diagnostic_ok hline]
    refine ⟨_, rfl, ⟨h.lines, fun d hd => ?_⟩, rfl, by simp [hformat]⟩
    rcases List.mem_append.1 hd with hold | hnew
    · exact h.errors d hold
    · obtain rfl := List.mem_singleton.1 hnew
      rfl
  · rename_i hformat
    exact ⟨s, rfl, h, rfl, by simp [hformat]⟩

/-- A document whose lines follow the grammar and whose data satisfies the schema is
normalized; any other source fails. -/
theorem normalize_cases (lib : Library) (source : List UInt8) :
    ∃ result, normalizeHandRequest lib source = .ok result ∧
      ((∃ lines records, IsDocument lib source lines ∧ Follows lines records ∧
          SatisfiesSchema (assemble records) ∧ Succeeds result (assemble records)) ∨
        (Fails result ∧ ∀ lines records, IsDocument lib source lines → Follows lines records →
          ¬ SatisfiesSchema (assemble records))) := by
  unfold normalizeHandRequest
  cases hread : readSource lib source with
  | error e =>
    obtain ⟨code, field⟩ := e
    have hd : diagnostic code none field = .ok ⟨.error, code, none, some field⟩ := diagnostic_ok nofun
    have hfailed : ∃ result, failed lib.toSerializer source [⟨.error, code, none, some field⟩] =
        .ok result ∧ Fails result := failed_ok (by simp) (by simp)
    obtain ⟨result, hresult, hfails⟩ := hfailed
    simp only [hd, bind_ok_left rfl]
    refine ⟨result, hresult, .inr ⟨hfails, fun lines records hlines => ?_⟩⟩
    rw [IsDocument, hread] at hlines
    cases hlines
  | ok lines =>
    have honly : ∀ lines', IsDocument lib source lines' → lines' = lines := fun lines' h =>
      (Except.ok.inj (hread.symm.trans h)).symm
    obtain ⟨s, hs, hlooped⟩ := loop_runs (isDocument_length hread)
    obtain ⟨s', hs', htidy, hdata, hclean⟩ := checkFormat_ok hlooped.tidy
    simp only [hs, hs', bind_ok_left rfl]
    by_cases hdiagnostics : s'.diagnostics = []
    swap
    · obtain ⟨result, hresult, hfails⟩ := failed_ok hdiagnostics htidy.errors
      rw [if_pos hdiagnostics]
      refine ⟨result, hresult, .inr ⟨hfails, fun lines' records hlines' hfollows hschema => ?_⟩⟩
      obtain rfl := honly lines' hlines'
      refine hdiagnostics (hclean.2 ⟨hlooped.clean.2 ⟨records, hfollows⟩, ?_⟩)
      rw [(hlooped.reads records hfollows).data, hschema.format]
      decide
    rw [if_neg (not_not.2 hdiagnostics)]
    obtain ⟨records, hfollows⟩ := hlooped.clean.1 (hclean.1 hdiagnostics).1
    have hassembled : s'.data = assemble records := hdata.trans (hlooped.reads records hfollows).data
    have hsame : ∀ records', Follows lines records' → assemble records' = s'.data :=
      fun records' h => (hdata.trans (hlooped.reads records' h).data).symm
    cases hvalidate : modelValidate s'.data with
    | error errors =>
      obtain ⟨ds, hds, hne, herrors⟩ := schemaDiagnostics_ok htidy.lines
        (modelValidate_error hvalidate)
      obtain ⟨result, hresult, hfails⟩ := failed_ok hne herrors
      simp only [hds, bind_ok_left rfl]
      refine ⟨result, hresult, .inr ⟨hfails, fun lines' records' hlines' hfollows' hschema => ?_⟩⟩
      obtain rfl := honly lines' hlines'
      rw [hsame records' hfollows', ← modelValidate_iff, hvalidate] at hschema
      obtain ⟨hand, hhand⟩ := hschema
      cases hhand
    | ok hand =>
      have hschema : SatisfiesSchema (assemble records) :=
        hassembled ▸ modelValidate_iff.1 ⟨hand, hvalidate⟩
      obtain ⟨-, -, rfl⟩ := modelValidate_ok.1 hvalidate
      have hbytes : canonicalNormalizedHandBytes lib.toSerializer (handOf s'.data) =
          .ok (lib.json (handOf s'.data)) := by
        rw [canonicalNormalizedHandBytes, hassembled, require_of hschema.finite]
        rfl
      simp only [hbytes, bind_ok_left rfl, closedResult_success hbytes]
      exact ⟨_, rfl, .inl ⟨lines, records, hread, hfollows, hschema, rfl, by rw [hassembled]⟩⟩

end PokerDeliberation.Normalization
