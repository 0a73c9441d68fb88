import PokerDeliberation.Lib.Json.Canonical
import PokerDeliberation.Lib.Json.Dicts

/-!
# Canonical bytes of approvals

`canonical_json_bytes`, `canonical_jsonl_bytes` and their parsers. A value that
is nested too deep for the walk raises in the place where it is met, and so
does a JSON text that is nested too deep for the scanner; neither is caught.
-/

namespace PokerDeliberation.Approvals

open Lib Lib.Json

/-- What is raised: a `CanonicalApprovalError`, or an exception of another class. -/
inductive CanonicalRaised where
  | canonicalApproval | valueError | recursionError
  deriving DecidableEq, Repr

/-- The language's numbers and NFC, and how deep containers may be nested where they are scanned
and where they are walked; what was walked is not too deep to be written. -/
structure CanonicalLibrary (F : Type) where
  numbers : Numbers F
  nfc : Text → Text
  scanDepth : Nat
  walkDepth : Nat
  normal : NormalForm nfc

example : Nonempty (CanonicalLibrary Unit) :=
  ⟨⟨withoutFloats, id, 900, 900, ⟨fun _ _ => rfl, fun _ _ => iff_of_true rfl ⟨rfl, rfl⟩⟩⟩⟩

section

variable {F : Type} (lib : CanonicalLibrary F)

/-- `_require_nfc`. -/
def requireNfc (value : Text) : Except CanonicalRaised Unit :=
  require (lib.nfc value = value) .canonicalApproval

mutual

/-- `_jsonable`, of a value that JSON has, which it returns as it is; `depth` levels of containers
are left. -/
def jsonable : Nat → Value F → Except CanonicalRaised Unit
  | depth, .obj items => do
    require (0 < depth) .recursionError
    jsonableItems (depth - 1) items
  | depth, .arr xs => do
    require (0 < depth) .recursionError
    jsonableAll (depth - 1) xs
  | _, .str s => requireNfc lib s
  | _, .float x => require (lib.numbers.finite x = true) .canonicalApproval
  | _, .null => .ok ()
  | _, .bool _ => .ok ()
  | _, .int _ => .ok ()

def jsonableAll : Nat → List (Value F) → Except CanonicalRaised Unit
  | _, [] => .ok ()
  | depth, x :: xs => do
    jsonable depth x
    jsonableAll depth xs

def jsonableItems : Nat → List (Text × Value F) → Except CanonicalRaised Unit
  | _, [] => .ok ()
  | depth, (key, item) :: items => do
    requireNfc lib key
    jsonable depth item
    jsonableItems depth items

end

def canonicalJsonBytes (value : Value F) : Except CanonicalRaised (List UInt8) := do
  jsonable lib lib.walkDepth value
  match (dumps lib.numbers value).bind Utf8.encode with
  | some data => return data
  | none => .error .canonicalApproval

/-- `_pairs_without_duplicates`: whether it takes the items. -/
def pairsWithoutDuplicates (items : List (Text × Value F)) : Bool :=
  (∀ x ∈ items, lib.nfc x.1 = x.1) ∧ (items.map (·.1)).Nodup

/-- What `json.loads` raises, as it is translated. -/
def canonicalTranslated : LoadsError → CanonicalRaised
  | .tooManyDigits => .valueError
  | .recursionError => .recursionError
  | .syntaxError | .refused => .canonicalApproval

/-- `data.decode("utf-8", errors="strict")`, and the check for NFC. -/
def decodeNfc (data : List UInt8) : Except CanonicalRaised Text :=
  match Utf8.decode data with
  | none => .error .canonicalApproval
  | some t => do
    requireNfc lib t
    return t

def parseCanonicalJson (data : List UInt8) : Except CanonicalRaised (Value F) := do
  require (¬ [0xef, 0xbb, 0xbf] <+: data) .canonicalApproval
  require (data.getLast? ≠ some 0x0a ∧ data.getLast? ≠ some 0x0d) .canonicalApproval
  let t ← decodeNfc lib data
  let value ← (loads lib.numbers (fun _ => none) (pairsWithoutDuplicates lib) lib.scanDepth
    t).mapError canonicalTranslated
  let again ← canonicalJsonBytes lib value
  require (again = data) .canonicalApproval
  return value

/-- `parse_canonical_model`, as the value that is validated. -/
def parseCanonicalModel (schema : Value F → Bool) (data : List UInt8) :
    Except CanonicalRaised (Value F) := do
  let value ← parseCanonicalJson lib data
  require (schema value) .canonicalApproval
  return value

def parseCanonicalJsonl (schema : Value F → Bool) (data : List UInt8) :
    Except CanonicalRaised (List (Value F)) :=
  if data = [] then .ok []
  else do
    require (¬ [0xef, 0xbb, 0xbf] <+: data ∧ 0x0d ∉ data ∧ data.getLast? = some 0x0a)
      .canonicalApproval
    require ([] ∉ (data.splitOn 0x0a).dropLast) .canonicalApproval
    ((data.splitOn 0x0a).dropLast).mapM (parseCanonicalModel lib schema)

def canonicalJsonlBytes (values : List (Value F)) : Except CanonicalRaised (List UInt8) :=
  if values = [] then .ok []
  else do
    let records ← values.mapM (canonicalJsonBytes lib)
    return records.flatMap (· ++ [0x0a])

end

/-! ## What is walked -/

section

variable {F : Type} {lib : CanonicalLibrary F} {depth : Nat} {v : Value F}

theorem jsonableAll_eq_ok {xs : List (Value F)} :
    jsonableAll lib depth xs = .ok () ↔ ∀ x ∈ xs, jsonable lib depth x = .ok () := by
  induction xs with
  | nil => simp [jsonableAll]
  | cons x xs ih => rw [jsonableAll, check_bind_eq_ok, ih, List.forall_mem_cons]

theorem jsonableItems_eq_ok {items : List (Text × Value F)} :
    jsonableItems lib depth items = .ok () ↔
      ∀ x ∈ items, lib.nfc x.1 = x.1 ∧ jsonable lib depth x.2 = .ok () := by
  induction items with
  | nil => simp [jsonableItems]
  | cons x items ih =>
    obtain ⟨key, x⟩ := x
    rw [jsonableItems, check_bind_eq_ok, check_bind_eq_ok, requireNfc, require_eq_ok, ih,
      List.forall_mem_cons, and_assoc]

/-- A value is walked if it is not too deep, its strings are in NFC and its floats finite. -/
theorem jsonable_eq_ok : jsonable lib depth v = .ok () ↔
    v.depth ≤ depth ∧ (∀ s ∈ v.strings, lib.nfc s = s) ∧
      ∀ x ∈ v.floats, lib.numbers.finite x = true := by
  induction v using Value.induction_depth generalizing depth with
  | step v ih =>
    cases v with
    | null | bool | int => simp [jsonable, Value.strings, Value.floats, Value.depth]
    | float x => simp [jsonable, Value.strings, Value.floats, Value.depth]
    | str s => simp [jsonable, requireNfc, Value.strings, Value.floats, Value.depth]
    | arr xs =>
      rw [jsonable, require_bind_eq_ok]
      cases depth with
      | zero => simp [Value.depth]
      | succ depth =>
        rw [and_iff_right (Nat.succ_pos depth), Nat.add_sub_cancel, jsonableAll_eq_ok, Value.depth,
          Nat.succ_le_succ_iff, Value.depthAll_le]
        simp only [Value.strings, Value.floats, Value.mem_stringsAll, Value.mem_floatsAll]
        constructor
        · intro h
          have hall := fun x hx => (ih x (Value.depth_lt_arr hx)).1 (h x hx)
          refine ⟨fun x hx => (hall x hx).1, ?_, ?_⟩
          · rintro s ⟨x, hx, hs⟩
            exact (hall x hx).2.1 s hs
          · rintro y ⟨x, hx, hy⟩
            exact (hall x hx).2.2 y hy
        · rintro ⟨hdepth, hstrings, hfloats⟩ x hx
          exact (ih x (Value.depth_lt_arr hx)).2
            ⟨hdepth x hx, fun s hs => hstrings s ⟨x, hx, hs⟩, fun y hy => hfloats y ⟨x, hx, hy⟩⟩
    | obj items =>
      rw [jsonable, require_bind_eq_ok]
      cases depth with
      | zero => simp [Value.depth]
      | succ depth =>
        rw [and_iff_right (Nat.succ_pos depth), Nat.add_sub_cancel, jsonableItems_eq_ok, Value.depth,
          Nat.succ_le_succ_iff, Value.depthItems_le]
        simp only [Value.strings, Value.floats, Value.mem_stringsItems, Value.mem_floatsItems]
        constructor
        · intro h
          have hall := fun x hx => (ih x.2 (Value.depth_lt_obj hx)).1 (h x hx).2
          refine ⟨fun x hx => (hall x hx).1, ?_, ?_⟩
          · rintro s ⟨x, hx, rfl | hs⟩
            · exact (h x hx).1
            · exact (hall x hx).2.1 s hs
          · rintro y ⟨x, hx, hy⟩
            exact (hall x hx).2.2 y hy
        · rintro ⟨hdepth, hstrings, hfloats⟩ x hx
          refine ⟨hstrings _ ⟨x, hx, .inl rfl⟩, (ih x.2 (Value.depth_lt_obj hx)).2 ?_⟩
          exact ⟨hdepth x hx, fun s hs => hstrings s ⟨x, hx, .inr hs⟩, fun y hy => hfloats y ⟨x, hx, hy⟩⟩

theorem canonicalJsonBytes_eq_ok {data : List UInt8} : canonicalJsonBytes lib v = .ok data ↔
    v.depth ≤ lib.walkDepth ∧ (∀ s ∈ v.strings, lib.nfc s = s) ∧
      ∃ t, dumps lib.numbers v = some t ∧ Utf8.encode t = some data := by
  have hwritten : (match (dumps lib.numbers v).bind Utf8.encode with
      | some data => pure data
      | none => .error .canonicalApproval) = Except.ok (ε := CanonicalRaised) data ↔
      ∃ t, dumps lib.numbers v = some t ∧ Utf8.encode t = some data := by
    rw [← Option.bind_eq_some_iff]
    cases (dumps lib.numbers v).bind Utf8.encode <;> simp [pure_eq_ok]
  rw [canonicalJsonBytes, check_bind_eq_ok, jsonable_eq_ok, and_assoc, and_assoc]
  refine and_congr_right fun _ => and_congr_right fun _ => ?_
  constructor
  · rintro ⟨-, h⟩
    exact hwritten.1 h
  · intro h
    obtain ⟨t, hdumps, -⟩ := id h
    exact ⟨finite_of_dumps hdumps, hwritten.2 h⟩

end

/-! ## Round trip -/

section

variable {F : Type} (lib : CanonicalLibrary F)

def canonicalJson : Canonical F CanonicalRaised where
  numbers := lib.numbers
  nfc := lib.nfc
  scanDepth := lib.scanDepth
  refused := .canonicalApproval
  translated := canonicalTranslated
  encode := canonicalJsonBytes lib

/-- `canonical_json_bytes` and `parse_canonical_json`. -/
def jsonCodec : Codec CanonicalRaised (Value F) := ⟨canonicalJsonBytes lib, parseCanonicalJson lib⟩

/-- `canonical_json_bytes` and `parse_canonical_model`. -/
def modelCodec (schema : Value F → Bool) : Codec CanonicalRaised (Value F) :=
  ⟨canonicalJsonBytes lib, parseCanonicalModel lib schema⟩

/-- `canonical_jsonl_bytes` and `parse_canonical_jsonl`. -/
def jsonlCodec (schema : Value F → Bool) : Codec CanonicalRaised (List (Value F)) :=
  ⟨canonicalJsonlBytes lib, parseCanonicalJsonl lib schema⟩

/-- A value whose canonical bytes can be read. -/
def ReadsBack (v : Value F) : Prop :=
  v.depth ≤ lib.scanDepth ∧ ∀ s ∈ v.strings, lib.nfc (escaped s) = escaped s

/-- Bytes that make the parser raise another error than its own: they have too many digits in an
integer, or are nested too deep for the scanner or for the walk over what was scanned. -/
def Uncaught (data : List UInt8) : Prop :=
  ¬ [0xef, 0xbb, 0xbf] <+: data ∧ (data.getLast? ≠ some 0x0a ∧ data.getLast? ≠ some 0x0d) ∧
    ∃ t, Utf8.decode data = some t ∧ lib.nfc t = t ∧
      let loaded := loads lib.numbers (fun _ => none) (pairsWithoutDuplicates lib) lib.scanDepth t
      (loaded = .error .tooManyDigits ∨ loaded = .error .recursionError ∨
        ∃ v, loaded = .ok v ∧ jsonable lib lib.walkDepth v = .error .recursionError)

variable {lib}

theorem writes : (canonicalJson lib).Writes lib.walkDepth where
  encode_eq_ok _ := canonicalJsonBytes_eq_ok

mutual

theorem jsonable_neverRaises : ∀ (depth : Nat) (v : Value F),
    NeverRaises [.valueError] (jsonable lib depth v)
  | _, .null | _, .bool _ | _, .int _ => neverRaises_ok
  | _, .float _ | _, .str _ => neverRaises_require.2 (by simp)
  | depth, .arr xs => by
    rw [jsonable, neverRaises_bind]
    exact ⟨neverRaises_require.2 (by simp), fun _ _ => jsonableAll_neverRaises (depth - 1) xs⟩
  | depth, .obj items => by
    rw [jsonable, neverRaises_bind]
    exact ⟨neverRaises_require.2 (by simp), fun _ _ => jsonableItems_neverRaises (depth - 1) items⟩

theorem jsonableAll_neverRaises : ∀ (depth : Nat) (xs : List (Value F)),
    NeverRaises [.valueError] (jsonableAll lib depth xs)
  | _, [] => neverRaises_ok
  | depth, x :: xs => by
    rw [jsonableAll, neverRaises_bind]
    exact ⟨jsonable_neverRaises depth x, fun _ _ => jsonableAll_neverRaises depth xs⟩

theorem jsonableItems_neverRaises : ∀ (depth : Nat) (items : List (Text × Value F)),
    NeverRaises [.valueError] (jsonableItems lib depth items)
  | _, [] => neverRaises_ok
  | depth, (_, item) :: items => by
    rw [jsonableItems, neverRaises_bind, neverRaises_bind]
    exact ⟨neverRaises_require.2 (by simp), fun _ _ =>
      ⟨jsonable_neverRaises depth item, fun _ _ => jsonableItems_neverRaises depth items⟩⟩

end

/-- Only the depth of the walk makes the writer raise another error than its own. -/
theorem escapes_canonicalJsonBytes {v : Value F} :
    Escapes .canonicalApproval (canonicalJsonBytes lib v) ↔
      jsonable lib lib.walkDepth v = .error .recursionError := by
  have hwritten : ¬ Escapes CanonicalRaised.canonicalApproval
      (match (dumps lib.numbers v).bind Utf8.encode with
        | some data => pure data
        | none => .error .canonicalApproval) := by
    cases (dumps lib.numbers v).bind Utf8.encode <;> simp
  have hclass : ∀ e : CanonicalRaised, e ≠ .valueError →
      (e ≠ .canonicalApproval ↔ e = .recursionError) := by
    intro e
    cases e <;> decide
  rw [canonicalJsonBytes, escapes_bind]
  constructor
  · rintro (⟨e, he, hraised⟩ | ⟨-, -, h⟩)
    · have hvalue : e ≠ .valueError := by
        rintro rfl
        exact jsonable_neverRaises _ _ _ List.mem_cons_self hraised
      rw [hraised, (hclass e hvalue).1 he]
    · exact absurd h hwritten
  · exact fun h => .inl ⟨_, (hclass _ (by decide)).2 rfl, h⟩

theorem stray_canonicalJson {data : List UInt8} : (canonicalJson lib).Stray data ↔ Uncaught lib data := by
  have hload : ∀ e : LoadsError, canonicalTranslated e ≠ .canonicalApproval ↔
      e = .tooManyDigits ∨ e = .recursionError := by
    intro e
    cases e <;> decide
  constructor
  · rintro ⟨hbom, hlast, t, hdecode, hnfc, ⟨e, he, hescape⟩ | ⟨v, hv, hescape⟩⟩
    · rcases (hload e).1 hescape with rfl | rfl
      · exact ⟨hbom, hlast, t, hdecode, hnfc, .inl he⟩
      · exact ⟨hbom, hlast, t, hdecode, hnfc, .inr (.inl he)⟩
    · exact ⟨hbom, hlast, t, hdecode, hnfc, .inr (.inr ⟨v, hv, escapes_canonicalJsonBytes.1 hescape⟩)⟩
  · rintro ⟨hbom, hlast, t, hdecode, hnfc, he | he | ⟨v, hv, hescape⟩⟩
    · exact ⟨hbom, hlast, t, hdecode, hnfc, .inl ⟨_, he, (hload _).2 (.inl rfl)⟩⟩
    · exact ⟨hbom, hlast, t, hdecode, hnfc, .inl ⟨_, he, (hload _).2 (.inr rfl)⟩⟩
    · exact ⟨hbom, hlast, t, hdecode, hnfc, .inr ⟨v, hv, escapes_canonicalJsonBytes.2 hescape⟩⟩

theorem readable_canonicalJson {v : Value F} : (canonicalJson lib).Readable v ↔ ReadsBack lib v := by
  constructor
  · exact fun h => ⟨h.depth_le, h.normal⟩
  · exact fun h => ⟨h.1, h.2⟩

theorem jsonCodec_agrees : (jsonCodec lib).Agrees .canonicalApproval Value.sorted Value.Distinct
    (ReadsBack lib) (Uncaught lib) :=
  (Canonical.agrees (c := canonicalJson lib) lib.normal writes).congr
    (fun _ => readable_canonicalJson) fun _ => stray_canonicalJson

theorem jsonlCodec_eq (schema : Value F → Bool) : jsonlCodec lib schema =
    ((jsonCodec lib).checked .canonicalApproval schema).lines [0xef, 0xbb, 0xbf] 0x0a 0x0d
      .canonicalApproval := by
  have hencode : canonicalJsonlBytes lib =
      (((jsonCodec lib).checked .canonicalApproval schema).lines [0xef, 0xbb, 0xbf] 0x0a 0x0d
        .canonicalApproval).encode := by
    funext values
    cases values with
    | nil => rfl
    | cons v values => rfl
  rw [jsonlCodec, hencode]
  rfl

end

/-! ## Main results -/

section

variable {F : Type} (lib : CanonicalLibrary F) (schema : Value F → Bool)

theorem approval_model_round_trip : (modelCodec lib schema).Agrees .canonicalApproval Value.sorted
    (fun v => v.Distinct ∧ schema v.sorted = true) (ReadsBack lib) (Uncaught lib) :=
  jsonCodec_agrees.checked schema

theorem approval_jsonl_round_trip : (jsonlCodec lib schema).Agrees .canonicalApproval
    (List.map Value.sorted) (fun values => ∀ v ∈ values, v.Distinct ∧ schema v.sorted = true)
    (fun values => ∀ v ∈ values, ReadsBack lib v)
    (Codec.StrayRecord [0xef, 0xbb, 0xbf] 0x0a 0x0d (modelCodec lib schema) (Uncaught lib)) := by
  have hline : ((jsonCodec lib).checked .canonicalApproval schema).OneLine
      (fun v => v.Distinct ∧ schema v.sorted = true) [0xef, 0xbb, 0xbf] 0x0a 0x0d :=
    fun v record hv hencode => writes.oneLine v record hv.1 hencode
  rw [jsonlCodec_eq]
  exact (jsonCodec_agrees.checked schema).lines hline (by decide) (by decide)

end

end PokerDeliberation.Approvals
