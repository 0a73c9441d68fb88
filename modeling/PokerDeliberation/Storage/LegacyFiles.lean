import PokerDeliberation.Lib.Escapes
import PokerDeliberation.Storage.Legacy

/-!
# Files of a legacy run

What a file has to be to pass (`LegacyFile`), and which files let an exception
escape (`FileEscapes`): JSON that is nested too deep or holds an integer of too
many digits, and a state that is a container where the name of one is expected.
-/

namespace PokerDeliberation.Storage

open Lib Lib.Json Lib.Utf8

/-! ## States -/

section

variable {F : Type} {v : Value F} {items : List (Text × Value F)}

/-- The name of a workflow state. -/
def IsState (v : Value F) : Prop := ∃ state : Workflow.RunState, v = .str (text state.value)

def IsContainer (v : Value F) : Prop := (∃ xs, v = .arr xs) ∨ ∃ items, v = .obj items

structure ValidEvent (items : List (Text × Value F)) : Prop where
  keys : hasKeys items ["source", "target", "reason"] = true
  source : IsState (item items "source")
  target : IsState (item items "target")
  reason : isString (item items "reason") = true

/-- An event with a container as its source, or as its target after a source that is a state. -/
structure EventEscapes (items : List (Text × Value F)) : Prop where
  keys : hasKeys items ["source", "target", "reason"] = true
  names : IsContainer (item items "source") ∨
    IsState (item items "source") ∧ IsContainer (item items "target")

/-- The fields of a state but its name, with its events. -/
structure StateFields (items : List (Text × Value F)) (events : List (Value F)) : Prop where
  events : item items "events" = .arr events
  deliberationRounds : isInteger (item items "deliberation_rounds") = true
  toolRetries : isObject (item items "tool_retries") = true
  elapsedSeconds : isNumber (item items "elapsed_seconds") = true

/-- What `_validate_state` takes. -/
def ValidState (v : Value F) : Prop := ∃ items events, v = .obj items ∧
  hasKeys items stateKeys = true ∧ IsState (item items "state") ∧ StateFields items events ∧
    ∀ event ∈ events, ∃ fields, event = .obj fields ∧ ValidEvent fields

/-- A container where the name of a state is read, in the state or in the first event that is
not valid. -/
def StateEscapes (v : Value F) : Prop := ∃ items, v = .obj items ∧
  hasKeys items stateKeys = true ∧ (IsContainer (item items "state") ∨
    IsState (item items "state") ∧ ∃ events, StateFields items events ∧
      ∃ front fields back, events = front ++ .obj fields :: back ∧
        (∀ event ∈ front, ∃ own, event = .obj own ∧ ValidEvent own) ∧ EventEscapes fields)

theorem isRunState_eq_true : isRunState v = .ok true ↔ IsState v := by
  have hall : ∀ state : Workflow.RunState, state ∈ Workflow.RunState.all := by
    intro state
    cases state <;> decide
  unfold IsState
  cases v with
  | str s =>
    simp only [isRunState, Except.ok.injEq, decide_eq_true_eq, List.mem_map, Value.str.injEq]
    exact ⟨fun ⟨state, _, h⟩ => ⟨state, h.symm⟩, fun ⟨state, h⟩ => ⟨state, hall state, h.symm⟩⟩
  | null | bool | int | float | arr | obj => simp [isRunState]

theorem isRunState_escapes : Escapes .canonicalStorage (isRunState v) ↔ IsContainer v := by
  unfold IsContainer
  cases v <;> simp [isRunState]

/-- A name is read as a state: it is one and the rest succeeds. -/
theorem isRunState_bind_eq_ok {α : Type} {f : Unit → Except Raised α} {a : α} :
    (isRunState v >>= fun known => require (known = true) .canonicalStorage >>= f) = .ok a ↔
      IsState v ∧ f () = .ok a := by
  rw [← isRunState_eq_true]
  simp only [bind_eq_ok, require_eq_ok]
  constructor
  · rintro ⟨known, hknown, _, rfl, h⟩
    exact ⟨hknown, h⟩
  · rintro ⟨hknown, h⟩
    exact ⟨true, hknown, (), rfl, h⟩

theorem isRunState_bind_escapes {α : Type} {f : Unit → Except Raised α} :
    Escapes .canonicalStorage (isRunState v >>= fun known => require (known = true) .canonicalStorage >>= f) ↔
      IsContainer v ∨ IsState v ∧ Escapes .canonicalStorage (f ()) := by
  rw [escapes_bind, isRunState_escapes, ← isRunState_eq_true]
  refine or_congr_right ⟨?_, ?_⟩
  · rintro ⟨known, hknown, h⟩
    obtain ⟨rfl, h⟩ := escapes_require_bind.1 h
    exact ⟨hknown, h⟩
  · rintro ⟨hknown, h⟩
    exact ⟨true, hknown, escapes_require_bind.2 ⟨rfl, h⟩⟩

theorem validateEvent_eq_ok : validateEvent v = .ok () ↔ ∃ items, v = .obj items ∧ ValidEvent items := by
  cases v with
  | obj items =>
    simp only [validateEvent, require_bind_eq_ok, isRunState_bind_eq_ok, require_eq_ok]
    constructor
    · rintro ⟨hkeys, hsource, htarget, hreason⟩
      exact ⟨items, rfl, hkeys, hsource, htarget, hreason⟩
    · rintro ⟨_, heq, hkeys, hsource, htarget, hreason⟩
      cases heq
      exact ⟨hkeys, hsource, htarget, hreason⟩
  | null | bool | int | float | str | arr => simp [validateEvent]

theorem validateEvent_escapes : Escapes .canonicalStorage (validateEvent v) ↔ ∃ items, v = .obj items ∧ EventEscapes items := by
  cases v with
  | obj items =>
    simp only [validateEvent, escapes_require_bind, isRunState_bind_escapes, escapes_require, and_false,
      or_false]
    constructor
    · rintro ⟨hkeys, hnames⟩
      exact ⟨items, rfl, hkeys, hnames⟩
    · rintro ⟨_, heq, hkeys, hnames⟩
      cases heq
      exact ⟨hkeys, hnames⟩
  | null | bool | int | float | str | arr => simp [validateEvent]

/-- A valid event, as a value. -/
theorem forM_validateEvent {events : List (Value F)} : events.forM validateEvent = .ok () ↔
    ∀ event ∈ events, ∃ fields, event = .obj fields ∧ ValidEvent fields :=
  (forM_eq_ok events).trans (forall₂_congr fun _ _ => validateEvent_eq_ok)

theorem validateStateFields_of {events : List (Value F)} (h : StateFields items events) :
    validateStateFields items = events.forM validateEvent := by
  rw [validateStateFields, h.events]
  exact bind_ok_left (require_of ⟨h.deliberationRounds, h.toolRetries, h.elapsedSeconds⟩)

/-- Without the fields the state is refused. -/
theorem validateStateFields_refused (h : ¬ ∃ events, StateFields items events) :
    validateStateFields items = .error .canonicalStorage := by
  unfold validateStateFields
  split
  · rename_i events hevents
    rw [require, if_neg fun hfields => h ⟨events, hevents, hfields.1, hfields.2.1, hfields.2.2⟩]
    rfl
  · rfl

theorem StateFields.unique {events events' : List (Value F)} (h : StateFields items events)
    (h' : StateFields items events') : events = events' := by
  have heq := h.events.symm.trans h'.events
  injection heq

theorem validateStateFields_eq_ok : validateStateFields items = .ok () ↔ ∃ events,
    StateFields items events ∧ ∀ event ∈ events, ∃ fields, event = .obj fields ∧ ValidEvent fields := by
  by_cases h : ∃ events, StateFields items events
  · obtain ⟨events, hfields⟩ := h
    rw [validateStateFields_of hfields, forM_validateEvent]
    constructor
    · exact fun hall => ⟨events, hfields, hall⟩
    · rintro ⟨events', hfields', hall⟩
      rwa [hfields.unique hfields']
  · rw [validateStateFields_refused h]
    constructor
    · exact (nomatch ·)
    · rintro ⟨events, hfields, -⟩
      exact absurd ⟨events, hfields⟩ h

theorem validateStateFields_escapes : Escapes .canonicalStorage (validateStateFields items) ↔
    ∃ events, StateFields items events ∧ ∃ front fields back, events = front ++ .obj fields :: back ∧
      (∀ event ∈ front, ∃ own, event = .obj own ∧ ValidEvent own) ∧ EventEscapes fields := by
  by_cases h : ∃ events, StateFields items events
  · obtain ⟨events, hfields⟩ := h
    rw [validateStateFields_of hfields, escapes_forM]
    simp only [validateEvent_eq_ok, validateEvent_escapes]
    constructor
    · rintro ⟨front, _, back, rfl, hfront, fields, rfl, hescapes⟩
      exact ⟨_, hfields, front, fields, back, rfl, hfront, hescapes⟩
    · rintro ⟨events', hfields', front, fields, back, heq, hfront, hescapes⟩
      exact ⟨front, _, back, (hfields.unique hfields').trans heq, hfront, fields, rfl, hescapes⟩
  · rw [validateStateFields_refused h]
    constructor
    · exact fun hescapes => absurd hescapes (by simp)
    · rintro ⟨events, hfields, -⟩
      exact absurd ⟨events, hfields⟩ h

theorem validateStateValue_eq_ok : validateStateValue v = .ok () ↔ ValidState v := by
  cases v with
  | obj items =>
    simp only [validateStateValue, require_bind_eq_ok, isRunState_bind_eq_ok,
      validateStateFields_eq_ok]
    constructor
    · rintro ⟨hkeys, hstate, events, hfields, hall⟩
      exact ⟨items, events, rfl, hkeys, hstate, hfields, hall⟩
    · rintro ⟨_, events, heq, hkeys, hstate, hfields, hall⟩
      cases heq
      exact ⟨hkeys, hstate, events, hfields, hall⟩
  | null | bool | int | float | str | arr => simp [validateStateValue, ValidState]

theorem validateStateValue_escapes :
    Escapes .canonicalStorage (validateStateValue v) ↔ StateEscapes v := by
  cases v with
  | obj items =>
    simp only [validateStateValue, escapes_require_bind, isRunState_bind_escapes,
      validateStateFields_escapes]
    constructor
    · rintro ⟨hkeys, h⟩
      exact ⟨items, rfl, hkeys, h⟩
    · rintro ⟨_, heq, hkeys, h⟩
      cases heq
      exact ⟨hkeys, h⟩
  | null | bool | int | float | str | arr => simp [validateStateValue, StateEscapes]

end

/-! ## Models -/

section

variable {F M : Type} (adapter : LegacyRunAdapter F M) {data : List UInt8} {v : Value F} {m : M}
variable {model : LegacyModel} {identifier : Text}

/-- JSON that the parser gives up on, for its depth or for the digits of an integer. -/
structure JsonEscapes (data : List UInt8) : Prop where
  bom : ¬ BOM_BYTES <+: data
  raises : ∃ t, decode data = some t ∧ adapter.lib.unicode.nfc t = t ∧
    ∃ e ∈ [LoadsError.tooManyDigits, .recursionError],
      loads adapter.lib.numbers (fun _ => none) (pairsNoDuplicates adapter.lib) adapter.lib.scanDepth
        t = .error e

/-- The bytes of a model. -/
def IsModel (model : LegacyModel) (data : List UInt8) (m : M) : Prop :=
  ∃ v, legacyJson adapter data = .ok v ∧ adapter.validate model v = some m

variable {adapter}

theorem decodeNfc_not_escapes : ¬ Escapes .canonicalStorage (decodeNfc adapter.lib data) := by
  unfold decodeNfc
  split
  · simp
  · rw [requireNfcString, escapes_require_bind]
    simp

theorem legacyJson_escapes :
    Escapes .canonicalStorage (legacyJson adapter data) ↔ JsonEscapes adapter data := by
  have htranslated : ∀ {x : Except LoadsError (Value F)},
      Escapes .canonicalStorage (x.mapError legacyTranslated) ↔
        ∃ e ∈ [LoadsError.tooManyDigits, .recursionError], x = .error e := by
    intro x
    rcases x with e | v
    · cases e <;> simp [Except.mapError, legacyTranslated]
    · simp [Except.mapError]
  rw [legacyJson, escapes_require_bind, escapes_bind_of_not decodeNfc_not_escapes]
  simp only [htranslated, decodeNfc_eq_ok, and_assoc]
  exact ⟨fun ⟨hbom, h⟩ => ⟨hbom, h⟩, fun ⟨hbom, h⟩ => ⟨hbom, h⟩⟩

/-- Canonical JSON is read as what it is. -/
theorem legacyJson_of_canonical (h : parseCanonicalJson adapter.lib data = .ok v) :
    legacyJson adapter data = .ok v := by
  simp only [parseCanonicalJson, bind_eq_ok, pure_eq_ok, require_eq_ok, mapError_eq_ok] at h
  obtain ⟨-, hbom, -, -, t, ht, value, hvalue, -, -, -, -, rfl⟩ := h
  simp only [legacyJson, bind_eq_ok, require_eq_ok, mapError_eq_ok]
  exact ⟨(), hbom, t, ht, hvalue⟩

theorem validateModel_eq_ok : validateModel adapter model data = .ok m ↔ IsModel adapter model data m := by
  unfold validateModel IsModel
  rw [bind_eq_ok]
  refine exists_congr fun v => and_congr_right fun _ => ?_
  split <;> simp_all

theorem validateModel_escapes :
    Escapes .canonicalStorage (validateModel adapter model data) ↔ JsonEscapes adapter data := by
  rw [validateModel, escapes_bind, legacyJson_escapes, or_iff_left]
  rintro ⟨v, -, h⟩
  split at h <;> simp at h

theorem validateModels_eq_ok {u : Unit} : validateModels adapter model data = .ok u ↔
    ∃ xs, legacyJson adapter data = .ok (.arr xs) ∧ ∀ x ∈ xs, (adapter.validate model x).isSome = true := by
  rw [validateModels, bind_eq_ok]
  constructor
  · rintro ⟨v, hv, h⟩
    split at h
    · exact ⟨_, hv, require_eq_ok.1 h⟩
    · cases h
  · rintro ⟨xs, hv, h⟩
    exact ⟨_, hv, require_eq_ok.2 h⟩

theorem validateModels_escapes :
    Escapes .canonicalStorage (validateModels adapter model data) ↔ JsonEscapes adapter data := by
  rw [validateModels, escapes_bind, legacyJson_escapes, or_iff_left]
  rintro ⟨v, -, h⟩
  split at h <;> simp at h

theorem validateIdentified_eq_ok : validateIdentified adapter model identifier data = .ok m ↔
    IsModel adapter model data m ∧ adapter.identity m = identifier := by
  rw [validateIdentified, bind_eq_ok]
  simp only [require_bind_eq_ok, pure_eq_ok, validateModel_eq_ok]
  constructor
  · rintro ⟨_, hm, hid, rfl⟩
    exact ⟨hm, hid⟩
  · rintro ⟨hm, hid⟩
    exact ⟨m, hm, hid, rfl⟩

theorem validateIdentified_escapes :
    Escapes .canonicalStorage (validateIdentified adapter model identifier data) ↔
      JsonEscapes adapter data := by
  rw [validateIdentified, escapes_bind, validateModel_escapes, or_iff_left]
  rintro ⟨m, -, h⟩
  exact escapes_pure (escapes_require_bind.1 h).2

theorem validateState_eq_ok {u : Unit} : validateState adapter data = .ok u ↔
    ∃ v, legacyJson adapter data = .ok v ∧ ValidState v := by
  rw [validateState, bind_eq_ok]
  exact exists_congr fun v => and_congr_right fun _ => validateStateValue_eq_ok

theorem validateState_escapes : Escapes .canonicalStorage (validateState adapter data) ↔
    JsonEscapes adapter data ∨ ∃ v, legacyJson adapter data = .ok v ∧ StateEscapes v := by
  rw [validateState, escapes_bind, legacyJson_escapes]
  simp only [validateStateValue_escapes]

/-- Nothing, or lines that all end in a line feed. -/
def Terminated (data : List UInt8) : Prop :=
  data = [] ∨ CR_BYTE ∉ data ∧ data.getLast? = some LF_BYTE

theorem record_eq_ok {line : List UInt8} :
    (do let _ ← validateModel adapter .evidenceRecord line : Except Raised Unit) = .ok () ↔
      ∃ m, IsModel adapter .evidenceRecord line m := by
  rw [bind_eq_ok]
  simp only [pure_eq_ok, and_true, validateModel_eq_ok]

theorem record_escapes {line : List UInt8} : Escapes .canonicalStorage
    (do let _ ← validateModel adapter .evidenceRecord line : Except Raised Unit) ↔
      JsonEscapes adapter line := by
  rw [escapes_bind, validateModel_escapes, or_iff_left]
  rintro ⟨m, -, h⟩
  exact escapes_pure h

theorem validateEvidence_eq_ok {u : Unit} : validateEvidence adapter data = .ok u ↔
    Terminated data ∧ ∀ line ∈ byteLines data, ∃ m, IsModel adapter .evidenceRecord line m := by
  rw [validateEvidence, require_bind_eq_ok]
  exact and_congr_right fun _ =>
    (forM_eq_ok (byteLines data)).trans (forall₂_congr fun _ _ => record_eq_ok)

theorem validateEvidence_escapes : Escapes .canonicalStorage (validateEvidence adapter data) ↔
    Terminated data ∧ ∃ front line back, byteLines data = front ++ line :: back ∧
      (∀ other ∈ front, ∃ m, IsModel adapter .evidenceRecord other m) ∧ JsonEscapes adapter line := by
  rw [validateEvidence, escapes_require_bind, escapes_forM]
  simp only [record_eq_ok, record_escapes]
  rfl

theorem validateMarkdown_eq_ok {u : Unit} : validateMarkdown adapter data = .ok u ↔
    ∃ t, decode data = some t ∧ adapter.lib.unicode.nfc t = t ∧ 0x0d ∉ t := by
  rw [validateMarkdown, bind_eq_ok]
  simp only [decodeNfc_eq_ok, require_eq_ok, and_assoc]

theorem validateMarkdown_not_escapes : ¬ Escapes .canonicalStorage (validateMarkdown adapter data) := by
  rw [validateMarkdown, escapes_bind_of_not decodeNfc_not_escapes]
  rintro ⟨t, -, h⟩
  exact escapes_require h

end

/-! ## Kinds of artifacts -/

section

variable {F M : Type} (adapter : LegacyRunAdapter F M) (runId : Text)

/-- What an artifact of a kind has to be. -/
def LegacyKind.Valid (data : List UInt8) : LegacyKind → Prop
  | .single model => ∃ m, IsModel adapter model data m
  | .report => ∃ m, IsModel adapter .finalReport data m ∧ adapter.identity m = runId
  | .list model => ∃ xs, legacyJson adapter data = .ok (.arr xs) ∧
      ∀ x ∈ xs, (adapter.validate model x).isSome = true
  | .state => ∃ v, legacyJson adapter data = .ok v ∧ ValidState v
  | .evidence => Terminated data ∧
      ∀ line ∈ byteLines data, ∃ m, IsModel adapter .evidenceRecord line m
  | .markdown => ∃ t, decode data = some t ∧ adapter.lib.unicode.nfc t = t ∧ 0x0d ∉ t
  | .agentReport identifier => ∃ m, IsModel adapter .agentReport data m ∧
      adapter.identity m = identifier
  | .toolInput => ∃ items, legacyJson adapter data = .ok (.obj items)
  | .toolResult identifier => ∃ m, IsModel adapter .toolResult data m ∧
      adapter.identity m = identifier

/-- When the check of an artifact lets an exception escape. -/
def LegacyKind.Escapes (data : List UInt8) : LegacyKind → Prop
  | .state => JsonEscapes adapter data ∨ ∃ v, legacyJson adapter data = .ok v ∧ StateEscapes v
  | .evidence => Terminated data ∧ ∃ front line back, byteLines data = front ++ line :: back ∧
      (∀ other ∈ front, ∃ m, IsModel adapter .evidenceRecord other m) ∧ JsonEscapes adapter line
  | .markdown => False
  | .single _ | .report | .list _ | .agentReport _ | .toolInput | .toolResult _ =>
    JsonEscapes adapter data

variable {adapter runId} {kind : LegacyKind} {data : List UInt8}

/-- Checks in sequence whose result is not used. -/
theorem exists_bind_none {α : Type} {x : Except Raised α} :
    (∃ report : Option M, (x >>= fun _ => pure none) = .ok report) ↔ ∃ a, x = .ok a := by
  simp only [bind_eq_ok, pure_eq_ok]
  constructor
  · rintro ⟨_, a, ha, -⟩
    exact ⟨a, ha⟩
  · rintro ⟨a, ha⟩
    exact ⟨none, a, ha, rfl⟩

theorem escapes_bind_pure {α β : Type} {x : Except Raised α} {f : α → β} :
    Escapes .canonicalStorage (x >>= fun a => pure (f a)) ↔ Escapes .canonicalStorage x := by
  rw [escapes_bind, or_iff_left]
  rintro ⟨a, -, h⟩
  exact escapes_pure h

theorem LegacyKind.check_eq_ok :
    (∃ report, kind.check adapter runId data = .ok report) ↔ kind.Valid adapter runId data := by
  cases kind with
  | single model => exact exists_bind_none.trans (exists_congr fun _ => validateModel_eq_ok)
  | report =>
    simp only [LegacyKind.check, LegacyKind.Valid, bind_eq_ok, pure_eq_ok, validateIdentified_eq_ok]
    constructor
    · rintro ⟨_, m, hm, -⟩
      exact ⟨m, hm⟩
    · rintro ⟨m, hm⟩
      exact ⟨_, m, hm, rfl⟩
  | list model =>
    exact exists_bind_none.trans ((exists_congr fun _ => validateModels_eq_ok).trans (exists_const Unit))
  | state =>
    exact exists_bind_none.trans ((exists_congr fun _ => validateState_eq_ok).trans (exists_const Unit))
  | evidence =>
    exact exists_bind_none.trans ((exists_congr fun _ => validateEvidence_eq_ok).trans (exists_const Unit))
  | markdown =>
    exact exists_bind_none.trans ((exists_congr fun _ => validateMarkdown_eq_ok).trans (exists_const Unit))
  | agentReport identifier =>
    exact exists_bind_none.trans (exists_congr fun _ => validateIdentified_eq_ok)
  | toolInput =>
    simp only [LegacyKind.check, LegacyKind.Valid, bind_eq_ok, require_eq_ok, pure_eq_ok]
    constructor
    · rintro ⟨_, v, hv, -, hobject, -⟩
      cases v with
      | obj items => exact ⟨items, hv⟩
      | null | bool | int | float | str | arr => cases hobject
    · rintro ⟨items, hv⟩
      exact ⟨none, .obj items, hv, (), rfl, rfl⟩
  | toolResult identifier =>
    exact exists_bind_none.trans (exists_congr fun _ => validateIdentified_eq_ok)

theorem LegacyKind.check_escapes :
    Lib.Escapes .canonicalStorage (kind.check adapter runId data) ↔ kind.Escapes adapter data := by
  cases kind with
  | single model => exact escapes_bind_pure.trans validateModel_escapes
  | report => exact escapes_bind_pure.trans validateIdentified_escapes
  | list model => exact escapes_bind_pure.trans validateModels_escapes
  | state => exact escapes_bind_pure.trans validateState_escapes
  | evidence => exact escapes_bind_pure.trans validateEvidence_escapes
  | markdown => exact escapes_bind_pure.trans (iff_of_false validateMarkdown_not_escapes id)
  | agentReport identifier => exact escapes_bind_pure.trans validateIdentified_escapes
  | toolInput =>
    rw [LegacyKind.check, escapes_bind, legacyJson_escapes, LegacyKind.Escapes, or_iff_left]
    rintro ⟨v, -, h⟩
    exact escapes_pure (escapes_require_bind.1 h).2
  | toolResult identifier => exact escapes_bind_pure.trans validateIdentified_escapes

/-- Only a report is kept. -/
theorem LegacyKind.check_report {report : Option M} (h : kind.check adapter runId data = .ok report)
    (hkind : kind ≠ .report) : report = none := by
  cases kind with
  | report => exact absurd rfl hkind
  | single | list | state | evidence | markdown | agentReport | toolInput | toolResult =>
    simp only [LegacyKind.check, bind_eq_ok, require_eq_ok, pure_eq_ok] at h
    grind

end

/-! ## Files -/

section

variable {F M : Type} (adapter : LegacyRunAdapter F M) (runId relative : Text) (data : List UInt8)

/-- A name that a legacy run admits, with the kind of its artifact. -/
structure AdmittedAs (kind : LegacyKind) : Prop where
  name : validateLogicalName adapter.lib.unicode relative = .ok ()
  row : ∃ row, legacyRow adapter relative = .ok row
  kind_eq : legacyKind relative = some kind

/-- What a file has to be: the sentinel with its exact bytes, or a valid admitted artifact. -/
def LegacyFile : Prop :=
  relative = LEGACY_SENTINEL ∧ data = LEGACY_SENTINEL_BYTES ∨
    relative ≠ LEGACY_SENTINEL ∧ ∃ kind, AdmittedAs adapter relative kind ∧
      kind.Valid adapter runId data

/-- An admitted artifact whose check lets an exception escape. -/
def FileEscapes : Prop :=
  relative ≠ LEGACY_SENTINEL ∧ ∃ kind, AdmittedAs adapter relative kind ∧ kind.Escapes adapter data

variable {adapter runId relative data} {artifact : LegacySourceArtifact} {report : Option M}

theorem validateLegacyArtifact_eq_ok :
    validateLegacyArtifact adapter runId relative data = .ok report ↔
      ∃ kind, legacyKind relative = some kind ∧ kind.check adapter runId data = .ok report := by
  unfold validateLegacyArtifact
  split
  · rename_i kind hkind
    simp [hkind]
  · rename_i hnone
    simp [hnone]

theorem validateLegacyArtifact_escapes :
    Escapes .canonicalStorage (validateLegacyArtifact adapter runId relative data) ↔
      ∃ kind, legacyKind relative = some kind ∧ kind.Escapes adapter data := by
  unfold validateLegacyArtifact
  split
  · rename_i kind hkind
    simp [hkind, LegacyKind.check_escapes]
  · rename_i hnone
    simp [hnone]

theorem legacyRow_not_escapes : ¬ Escapes .canonicalStorage (legacyRow adapter relative) := by
  unfold legacyRow
  split
  · exact escapes_ok
  · rw [escapes_bind_of_not escapes_mapError_const]
    rintro ⟨row, -, h⟩
    exact escapes_pure h

/-- A read artifact has the path and the bytes of its file. -/
theorem readArtifact_exact (h : readArtifact adapter runId relative data = .ok (artifact, report)) :
    artifact.relativePath = relative ∧ artifact.exactBytes = data := by
  unfold readArtifact at h
  split at h
  · obtain ⟨-, hok⟩ := require_bind_eq_ok.1 h
    cases hok
    exact ⟨rfl, rfl⟩
  · simp only [bind_eq_ok, pure_eq_ok] at h
    obtain ⟨-, -, row, -, own, -, heq⟩ := h
    cases heq
    exact ⟨rfl, rfl⟩

theorem readArtifact_eq_ok : (∃ read, readArtifact adapter runId relative data = .ok read) ↔
    LegacyFile adapter runId relative data := by
  unfold readArtifact LegacyFile
  split
  · rename_i hsentinel
    simp only [require_bind_eq_ok, pure_eq_ok, exists_and_left, exists_eq', and_true, hsentinel,
      ne_eq, not_true, false_and, or_false, true_and]
  · rename_i hsentinel
    simp only [hsentinel, false_and, false_or, ne_eq, not_false_iff, true_and, bind_eq_ok,
      mapError_eq_ok, pure_eq_ok, validateLegacyArtifact_eq_ok]
    constructor
    · rintro ⟨_, _, hname, row, hrow, report, ⟨kind, hkind, hcheck⟩, -⟩
      exact ⟨kind, ⟨hname, ⟨row, hrow⟩, hkind⟩, LegacyKind.check_eq_ok.1 ⟨report, hcheck⟩⟩
    · rintro ⟨kind, ⟨hname, ⟨row, hrow⟩, hkind⟩, hvalid⟩
      obtain ⟨report, hcheck⟩ := LegacyKind.check_eq_ok.2 hvalid
      exact ⟨_, (), hname, row, hrow, report, ⟨kind, hkind, hcheck⟩, rfl⟩

theorem readArtifact_escapes : Escapes .canonicalStorage (readArtifact adapter runId relative data) ↔
    FileEscapes adapter relative data := by
  unfold readArtifact FileEscapes
  split
  · rename_i hsentinel
    refine iff_of_false (fun h => ?_) fun h => h.1 hsentinel
    exact escapes_pure (escapes_require_bind.1 h).2
  · rename_i hsentinel
    simp only [hsentinel, ne_eq, not_false_iff, true_and]
    rw [escapes_bind_of_not escapes_mapError_const]
    simp only [escapes_bind_of_not legacyRow_not_escapes, escapes_bind_pure, mapError_eq_ok,
      validateLegacyArtifact_escapes]
    constructor
    · rintro ⟨_, hname, row, hrow, kind, hkind, hescapes⟩
      exact ⟨kind, ⟨hname, ⟨row, hrow⟩, hkind⟩, hescapes⟩
    · rintro ⟨kind, ⟨hname, ⟨row, hrow⟩, hkind⟩, hescapes⟩
      exact ⟨(), hname, row, hrow, kind, hkind, hescapes⟩

/-- The names of files are ASCII and hold a dot. -/
theorem LegacyFile.names (h : LegacyFile adapter runId relative data) :
    (∀ c ∈ relative, c < 128) ∧ DOT ∈ relative := by
  rcases h with ⟨rfl, -⟩ | ⟨-, kind, ⟨-, ⟨row, hrow⟩, -⟩, -⟩
  · decide
  · unfold legacyRow at hrow
    split at hrow
    · rename_i hstate
      rw [hstate]
      decide
    · obtain ⟨row, hentry, -⟩ := bind_eq_ok.1 hrow
      exact artifactTableEntry_ascii (mapError_eq_ok.1 hentry)

end

end PokerDeliberation.Storage
