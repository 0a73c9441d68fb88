import PokerDeliberation.Lib.Json.Canonical
import PokerDeliberation.Lib.Json.Dicts
import PokerDeliberation.Storage.Canonical

/-!
# What canonical readers read back

`canonical_json_bytes` with `parse_canonical_json`, and with the readers that
check a model or the models of JSONL. The writer wants every string in NFC, the
reader the text; they differ where a string starts with a combining mark that
composes with the last character of the escape before it.
-/

namespace PokerDeliberation.Storage

open Lib Lib.Json

/-- A library with NFC as it is defined: no quotation mark is composed. -/
structure CanonicalLibrary (F : Type) extends Library F where
  nfc_quote : ∀ x y, unicode.nfc (x ++ QUOTE :: y) = x ++ QUOTE :: y ↔
    unicode.nfc x = x ∧ unicode.nfc y = y

example : Nonempty (CanonicalLibrary Unit) :=
  ⟨{ sampleLibrary with nfc_quote := fun _ _ => iff_of_true rfl ⟨rfl, rfl⟩ }⟩

section

variable {F : Type} (lib : CanonicalLibrary F)

theorem normalForm : NormalForm lib.unicode.nfc := ⟨lib.unicode.nfc_ascii, lib.nfc_quote⟩

def canonicalJson : Canonical F Raised where
  numbers := lib.numbers
  nfc := lib.unicode.nfc
  scanDepth := lib.scanDepth
  refused := .canonicalStorage
  translated := translated
  encode := canonicalJsonBytes lib.toLibrary

/-- `canonical_json_bytes` and `parse_canonical_json`. -/
def jsonCodec : Codec Raised (Value F) :=
  ⟨canonicalJsonBytes lib.toLibrary, parseCanonicalJson lib.toLibrary⟩

/-- The records of a JSONL payload, and `parse_canonical_jsonl`. -/
def jsonlCodec (schema : Value F → Bool) : Codec Raised (List (Value F)) where
  encode values := do
    let records ← values.mapM (canonicalJsonBytes lib.toLibrary)
    return records.flatMap (· ++ [LF_BYTE])
  parse := parseCanonicalJsonl lib.toLibrary schema

/-- A value whose canonical bytes can be read: no deeper than the scanner goes, with strings whose
escaped forms are in NFC. -/
def ReadsBack (v : Value F) : Prop :=
  v.depth ≤ lib.scanDepth ∧ ∀ s ∈ v.strings, lib.unicode.nfc (escaped s) = escaped s

/-- Bytes on which an integer of too many digits is met before they are refused. -/
def Overlong (data : List UInt8) : Prop :=
  ¬ BOM_BYTES <+: data ∧ (data.getLast? ≠ some LF_BYTE ∧ data.getLast? ≠ some CR_BYTE) ∧
    ∃ t, Utf8.decode data = some t ∧ lib.unicode.nfc t = t ∧
      loads lib.numbers (fun _ => none) (pairsNoDuplicates lib.toLibrary) lib.scanDepth t =
        .error .tooManyDigits

variable {lib}

/-- Items are walked if their keys are in NFC, distinct and new, and their values are. -/
theorem jsonableItems_of {lib : Library F} {items : List (Text × Value F)} {aliases : List Text}
    (h : ∀ x ∈ items, lib.unicode.nfc x.1 = x.1 ∧ x.1 ∉ aliases ∧ jsonable lib x.2 = .ok ())
    (hnodup : (items.map (·.1)).Nodup) : jsonableItems lib aliases items = .ok () := by
  induction items generalizing aliases with
  | nil => rfl
  | cons x items ih =>
    obtain ⟨key, x⟩ := x
    obtain ⟨⟨hnfc, hnew, hx⟩, hitems⟩ := List.forall_mem_cons.1 h
    obtain ⟨hother, hrest⟩ := List.nodup_cons.1 hnodup
    dsimp only at hnfc hnew hx
    simp only [jsonableItems, requireNfcString, check_bind_eq_ok, require_eq_ok, hnfc]
    refine ⟨trivial, hnew, hx, ih (fun y hy => ?_) hrest⟩
    obtain ⟨hown, hfresh, hvalue⟩ := hitems y hy
    refine ⟨hown, fun hmem => ?_, hvalue⟩
    rcases List.mem_cons.1 hmem with heq | hmem
    · exact hother (List.mem_map.2 ⟨y, hy, heq⟩)
    · exact hfresh hmem

/-- What is walked: a value whose strings are in NFC and whose keys are distinct. -/
theorem jsonable_eq_ok {lib : Library F} {v : Value F} (hdistinct : v.Distinct) :
    jsonable lib v = .ok () ↔ ∀ s ∈ v.strings, lib.unicode.nfc s = s := by
  induction v using Value.induction_depth with
  | step v ih =>
    cases v with
    | null | bool | int | float => simp [jsonable, Value.strings]
    | str s => simp [jsonable, requireNfcString, Value.strings]
    | arr xs =>
      have hall : jsonableAll lib xs = .ok () ↔ ∀ x ∈ xs, jsonable lib x = .ok () := by
        clear ih hdistinct
        induction xs with
        | nil => simp [jsonableAll]
        | cons x xs ih => rw [jsonableAll, check_bind_eq_ok, ih, List.forall_mem_cons]
      show jsonableAll lib xs = .ok () ↔ _
      rw [hall]
      constructor
      · intro h s hs
        obtain ⟨x, hx, hmem⟩ := Value.mem_stringsAll.1 hs
        exact (ih x (Value.depth_lt_arr hx) (hdistinct.arr x hx)).1 (h x hx) s hmem
      · intro h x hx
        refine (ih x (Value.depth_lt_arr hx) (hdistinct.arr x hx)).2 fun s hs => ?_
        exact h s (Value.mem_stringsAll.2 ⟨x, hx, hs⟩)
    | obj items =>
      obtain ⟨hnodup, hvalues⟩ := hdistinct.obj
      constructor
      · intro h s hs
        obtain ⟨hitems, -⟩ := jsonableItems_eq_ok (show jsonableItems lib [] items = .ok () from h)
        obtain ⟨x, hx, rfl | hmem⟩ := Value.mem_stringsItems.1 hs
        · exact (hitems x hx).1
        · exact (ih x.2 (Value.depth_lt_obj hx) (hvalues x hx)).1 (hitems x hx).2.2 s hmem
      · intro h
        refine jsonableItems_of (fun x hx => ⟨?_, List.not_mem_nil, ?_⟩) hnodup
        · exact h x.1 (Value.mem_stringsItems.2 ⟨x, hx, .inl rfl⟩)
        · refine (ih x.2 (Value.depth_lt_obj hx) (hvalues x hx)).2 fun s hs => ?_
          exact h s (Value.mem_stringsItems.2 ⟨x, hx, .inr hs⟩)

theorem writes : (canonicalJson lib).Writes lib.walkDepth where
  encode_eq_ok hv := by
    show canonicalJsonBytes lib.toLibrary _ = _ ↔ _
    rw [canonicalJsonBytes_eq_ok, jsonable_eq_ok hv]
    rfl

theorem stray_canonicalJson {data : List UInt8} : (canonicalJson lib).Stray data ↔ Overlong lib data := by
  have hwritten : ∀ v : Value F, ¬ Escapes Raised.canonicalStorage (canonicalJsonBytes lib.toLibrary v) :=
    fun v => not_escapes.2 (canonicalJsonBytes_raisesOnly _ v)
  have hdigits : ∀ e : LoadsError, translated e ≠ .canonicalStorage ↔ e = .tooManyDigits := by
    intro e
    cases e <;> decide
  constructor
  · rintro ⟨hbom, hlast, t, hdecode, hnfc, ⟨e, hload, hescape⟩ | ⟨v, -, hescape⟩⟩
    · exact ⟨hbom, hlast, t, hdecode, hnfc, (hdigits e).1 hescape ▸ hload⟩
    · exact absurd hescape (hwritten v)
  · rintro ⟨hbom, hlast, t, hdecode, hnfc, hload⟩
    exact ⟨hbom, hlast, t, hdecode, hnfc, .inl ⟨_, hload, (hdigits _).2 rfl⟩⟩

theorem readable_canonicalJson {v : Value F} : (canonicalJson lib).Readable v ↔ ReadsBack lib v := by
  constructor
  · exact fun h => ⟨h.depth_le, h.normal⟩
  · exact fun h => ⟨h.1, h.2⟩

theorem jsonCodec_agrees : (jsonCodec lib).Agrees .canonicalStorage Value.sorted Value.Distinct
    (ReadsBack lib) (Overlong lib) :=
  (Canonical.agrees (normalForm lib) writes).congr (fun _ => readable_canonicalJson)
    fun _ => stray_canonicalJson

theorem jsonlCodec_eq (schema : Value F → Bool) : jsonlCodec lib schema =
    ((jsonCodec lib).checked .canonicalStorage schema).lines BOM_BYTES LF_BYTE CR_BYTE
      .canonicalStorage := rfl

end

/-! ## Main results -/

section

variable {F : Type} (lib : CanonicalLibrary F)

/-- A model read from JSON is the one that was written, with its dictionaries sorted. -/
theorem canonical_model_round_trip (schema : Value F → Bool) :
    (Codec.mk (canonicalJsonBytes lib.toLibrary) (parseCanonicalModel lib.toLibrary schema)).Agrees
      .canonicalStorage Value.sorted (fun v => v.Distinct ∧ schema v.sorted = true)
      (ReadsBack lib) (Overlong lib) :=
  jsonCodec_agrees.checked schema

theorem canonical_jsonl_round_trip (schema : Value F → Bool) :
    (jsonlCodec lib schema).Agrees .canonicalStorage (List.map Value.sorted)
      (fun values => ∀ v ∈ values, v.Distinct ∧ schema v.sorted = true)
      (fun values => ∀ v ∈ values, ReadsBack lib v)
      (Codec.StrayRecord BOM_BYTES LF_BYTE CR_BYTE
        (Codec.mk (canonicalJsonBytes lib.toLibrary) (parseCanonicalModel lib.toLibrary schema))
        (Overlong lib)) := by
  have hline : ((jsonCodec lib).checked .canonicalStorage schema).OneLine
      (fun v => v.Distinct ∧ schema v.sorted = true) BOM_BYTES LF_BYTE CR_BYTE :=
    fun v record hv hencode => (@writes F lib).oneLine v record hv.1 hencode
  rw [jsonlCodec_eq]
  exact (jsonCodec_agrees.checked schema).lines hline (by decide) (by decide)

end

end PokerDeliberation.Storage
