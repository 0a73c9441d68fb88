import PokerDeliberation.Lib.Escapes
import PokerDeliberation.Lib.Lines
import PokerDeliberation.Lib.Utf8

/-!
# Codecs

A codec writes values as bytes and parses them. `Agrees` says where writer and
parser meet: a value reads back exactly if it is good, and another error than
the one the parser is known for escapes it exactly on stray bytes. Agreement
goes over to a parser that checks a schema too, and to terminated records.
-/

namespace PokerDeliberation.Lib

structure Codec (E α : Type) where
  encode : α → Except E (List UInt8)
  parse : List UInt8 → Except E α

namespace Codec

variable {E α : Type}

/-- `form v` is what the bytes of `v` are read as. -/
structure Agrees (codec : Codec E α) (refused : E) (form : α → α) (value good : α → Prop)
    (stray : List UInt8 → Prop) : Prop where
  reads_back : ∀ {v data}, value v → codec.encode v = .ok data →
    (codec.parse data = .ok (form v) ↔ good v)
  writes_back : ∀ {v data}, codec.parse data = .ok v → value v ∧ codec.encode v = .ok data
  accepts : ∀ {data}, (∃ v, codec.parse data = .ok v) ↔
    ∃ v, value v ∧ good v ∧ codec.encode v = .ok data
  escapes : ∀ {data}, Escapes refused (codec.parse data) ↔ stray data
  injective : ∀ {v w data}, value v → value w → codec.encode v = .ok data →
    codec.encode w = .ok data → form v = form w

variable {codec : Codec E α} {refused : E} {form : α → α} {value good : α → Prop}
variable {stray : List UInt8 → Prop} {v w : α} {data : List UInt8}

/-- What is parsed is good, and in its form. -/
theorem Agrees.parsed (h : codec.Agrees refused form value good stray)
    (hparse : codec.parse data = .ok v) : good v ∧ form v = v := by
  obtain ⟨hv, hencode⟩ := h.writes_back hparse
  obtain ⟨w, hw, hgood, hwrote⟩ := h.accepts.1 ⟨v, hparse⟩
  have hform : v = form w :=
    Except.ok.inj (hparse.symm.trans ((h.reads_back hw hwrote).2 hgood))
  have hsame : form v = v := (h.injective hv hw hencode hwrote).trans hform.symm
  exact ⟨(h.reads_back hv hencode).1 (hsame.symm ▸ hparse), hsame⟩

theorem Agrees.congr {good' : α → Prop} {stray' : List UInt8 → Prop}
    (h : codec.Agrees refused form value good stray) (hgood : ∀ v, good v ↔ good' v)
    (hstray : ∀ data, stray data ↔ stray' data) : codec.Agrees refused form value good' stray' := by
  obtain rfl : good = good' := funext fun v => propext (hgood v)
  obtain rfl : stray = stray' := funext fun data => propext (hstray data)
  exact h

/-! ## Schemas -/

/-- The parser also refuses what does not fit the schema. -/
def checked (codec : Codec E α) (refused : E) (schema : α → Bool) : Codec E α where
  encode := codec.encode
  parse data := do
    let v ← codec.parse data
    require (schema v) refused
    return v

variable {schema : α → Bool}

theorem parse_checked : (codec.checked refused schema).parse data = .ok v ↔
    codec.parse data = .ok v ∧ schema v = true := by
  rw [checked, bind_eq_ok]
  simp only [require_bind_eq_ok, pure_eq_ok]
  constructor
  · rintro ⟨w, hparse, hschema, rfl⟩
    exact ⟨hparse, hschema⟩
  · rintro ⟨hparse, hschema⟩
    exact ⟨v, hparse, hschema, rfl⟩

theorem Agrees.checked (h : codec.Agrees refused form value good stray) (schema : α → Bool) :
    (codec.checked refused schema).Agrees refused form (fun v => value v ∧ schema (form v) = true)
      good stray where
  reads_back := by
    rintro v data ⟨hv, hschema⟩ hencode
    rw [parse_checked, and_iff_left hschema]
    exact h.reads_back hv hencode
  writes_back := by
    intro v data hparse
    obtain ⟨hparse, hschema⟩ := parse_checked.1 hparse
    obtain ⟨hv, hencode⟩ := h.writes_back hparse
    exact ⟨⟨hv, (h.parsed hparse).2.symm ▸ hschema⟩, hencode⟩
  accepts := by
    intro data
    constructor
    · rintro ⟨v, hparse⟩
      obtain ⟨hparse, hschema⟩ := parse_checked.1 hparse
      obtain ⟨hv, hencode⟩ := h.writes_back hparse
      obtain ⟨hgood, hform⟩ := h.parsed hparse
      exact ⟨v, ⟨hv, hform.symm ▸ hschema⟩, hgood, hencode⟩
    · rintro ⟨v, ⟨hv, hschema⟩, hgood, hencode⟩
      exact ⟨form v, parse_checked.2 ⟨(h.reads_back hv hencode).2 hgood, hschema⟩⟩
  escapes := by
    intro data
    rw [← h.escapes]
    simp only [Codec.checked, escapes_bind, escapes_require, escapes_pure, and_false, exists_false,
      or_false]
  injective := fun hv hw => h.injective hv.1 hw.1

/-! ## Terminated records -/

section

variable (bom : List UInt8) (lf cr : UInt8)

/-- The records of bytes that end in a line feed. -/
def recordsOf (data : List UInt8) : List (List UInt8) := (data.splitOn lf).dropLast

/-- Records one after another, each with a line feed. -/
def lines (codec : Codec E α) (refused : E) : Codec E (List α) where
  encode vs := do
    let records ← vs.mapM codec.encode
    return records.flatMap (· ++ [lf])
  parse data :=
    if data = [] then .ok []
    else do
      require (¬ bom <+: data ∧ cr ∉ data ∧ data.getLast? = some lf) refused
      require ([] ∉ recordsOf lf data) refused
      (recordsOf lf data).mapM codec.parse

/-- Terminated records of which the first that is not parsed is stray. -/
def StrayRecord (codec : Codec E α) (stray : List UInt8 → Prop) (data : List UInt8) : Prop :=
  ¬ bom <+: data ∧ cr ∉ data ∧ data.getLast? = some lf ∧ [] ∉ recordsOf lf data ∧
    ∃ front record back, recordsOf lf data = front ++ record :: back ∧
      (∀ r ∈ front, ∃ v, codec.parse r = .ok v) ∧ stray record

end

section

variable {bom : List UInt8} {lf cr : UInt8} {rs : List (List UInt8)} {vs ws : List α}

theorem recordsOf_flatMap (h : ∀ r ∈ rs, lf ∉ r) : recordsOf lf (rs.flatMap (· ++ [lf])) = rs := by
  have hsplit : (rs.flatMap (· ++ [lf])).splitOn lf = rs ++ [[]] := by
    induction rs with
    | nil => rfl
    | cons r rs ih =>
      obtain ⟨hr, hrecords⟩ := List.forall_mem_cons.1 h
      rw [List.flatMap_cons, List.append_assoc, List.singleton_append,
        List.splitOn_append_cons_self_of_not_mem hr, ih hrecords]
      rfl
  rw [recordsOf, hsplit, List.dropLast_concat]

theorem encode_lines : (codec.lines bom lf cr refused).encode vs = .ok data ↔
    ∃ rs, List.Forall₂ (fun v r => codec.encode v = .ok r) vs rs ∧
      rs.flatMap (· ++ [lf]) = data := by
  rw [lines, bind_eq_ok]
  simp only [mapM_eq_ok, pure_eq_ok]

theorem parse_lines : (codec.lines bom lf cr refused).parse data = .ok vs ↔
    data = [] ∧ vs = [] ∨
      (¬ bom <+: data ∧ cr ∉ data ∧ data.getLast? = some lf) ∧ [] ∉ recordsOf lf data ∧
        List.Forall₂ (fun r v => codec.parse r = .ok v) (recordsOf lf data) vs := by
  simp only [lines]
  split
  · rename_i hnil
    simp [hnil, eq_comm]
  · rename_i hne
    simp only [require_bind_eq_ok, mapM_eq_ok, hne, false_and, false_or]

/-- Written records stand on one line each, without a byte order mark. -/
def OneLine (codec : Codec E α) (value : α → Prop) (bom : List UInt8) (lf cr : UInt8) : Prop :=
  ∀ v record, value v → codec.encode v = .ok record →
    record ≠ [] ∧ ¬ bom <+: record ∧ lf ∉ record ∧ cr ∉ record

theorem not_prefix_record {r rest : List UInt8} (hlf : lf ∉ bom) (h : ¬ bom <+: r) :
    ¬ bom <+: r ++ lf :: rest := by
  intro hprefix
  have hrecord : r ++ [lf] <+: r ++ lf :: rest := ⟨rest, by simp⟩
  rcases List.prefix_or_prefix_of_prefix hprefix hrecord with hbom | hbom
  · rcases List.prefix_concat_iff.1 hbom with rfl | hbom
    · simp at hlf
    · exact h hbom
  · exact hlf (hbom.subset (by simp))

/-- What is written passes the checks before the records are parsed. -/
theorem checks_of_records (hbom : lf ∉ bom) (hcr : cr ≠ lf) (hne : rs ≠ [])
    (h : ∀ r ∈ rs, r ≠ [] ∧ ¬ bom <+: r ∧ lf ∉ r ∧ cr ∉ r) :
    let data := rs.flatMap (· ++ [lf])
    (¬ bom <+: data ∧ cr ∉ data ∧ data.getLast? = some lf) ∧ [] ∉ recordsOf lf data := by
  dsimp only
  rw [recordsOf_flatMap fun r hr => (h r hr).2.2.1]
  refine ⟨⟨?_, ?_, ?_⟩, fun hnil => (h [] hnil).1 rfl⟩
  · cases rs with
    | nil => exact absurd rfl hne
    | cons r rs =>
      rw [List.flatMap_cons, List.append_assoc, List.singleton_append]
      exact not_prefix_record hbom (h r List.mem_cons_self).2.1
  · intro hmem
    obtain ⟨r, hr, hmem⟩ := List.mem_flatMap.1 hmem
    rcases List.mem_append.1 hmem with hmem | hmem
    · exact (h r hr).2.2.2 hmem
    · exact hcr (List.mem_singleton.1 hmem)
  · rw [flatMap_concat hne, List.getLast?_concat]

theorem OneLine.of_records (hline : codec.OneLine value bom lf cr) (hvs : ∀ v ∈ vs, value v)
    (h : List.Forall₂ (fun v r => codec.encode v = .ok r) vs rs) :
    ∀ r ∈ rs, r ≠ [] ∧ ¬ bom <+: r ∧ lf ∉ r ∧ cr ∉ r := by
  intro r hr
  obtain ⟨v, hv, hencode⟩ := exists_of_forall₂ h.flip hr
  exact hline v r (hvs v hv) hencode

variable (h : codec.Agrees refused form value good stray)
include h

/-- Every record reads back exactly if all of them are good. -/
theorem Agrees.parse_records (hvs : ∀ v ∈ vs, value v)
    (hrecords : List.Forall₂ (fun v r => codec.encode v = .ok r) vs rs) :
    List.Forall₂ (fun r v => codec.parse r = .ok v) rs (vs.map form) ↔ ∀ v ∈ vs, good v := by
  induction hrecords with
  | nil => simp
  | @cons v r vs rs hv _ ih =>
    obtain ⟨hvalue, hvalues⟩ := List.forall_mem_cons.1 hvs
    rw [List.map_cons, List.forall₂_cons, List.forall_mem_cons, h.reads_back hvalue hv, ih hvalues]

theorem Agrees.map_form_eq (hvs : ∀ v ∈ vs, value v) (hws : ∀ w ∈ ws, value w)
    (hv : List.Forall₂ (fun v r => codec.encode v = .ok r) vs rs)
    (hw : List.Forall₂ (fun v r => codec.encode v = .ok r) ws rs) : vs.map form = ws.map form := by
  induction hv generalizing ws with
  | nil =>
    cases hw
    rfl
  | @cons v r vs rs hv _ ih =>
    cases hw with
    | @cons w _ ws _ hw hwrest =>
      obtain ⟨hvalue, hvalues⟩ := List.forall_mem_cons.1 hvs
      obtain ⟨hvalue', hvalues'⟩ := List.forall_mem_cons.1 hws
      rw [List.map_cons, List.map_cons, h.injective hvalue hvalue' hv hw,
        ih hvalues hvalues' hwrest]

theorem Agrees.lines_reads_back (hline : codec.OneLine value bom lf cr) (hbom : lf ∉ bom)
    (hcr : cr ≠ lf) (hvs : ∀ v ∈ vs, value v)
    (hencode : (codec.lines bom lf cr refused).encode vs = .ok data) :
    (codec.lines bom lf cr refused).parse data = .ok (vs.map form) ↔ ∀ v ∈ vs, good v := by
  obtain ⟨rs, hrecords, rfl⟩ := encode_lines.1 hencode
  have hsafe := hline.of_records hvs hrecords
  rw [parse_lines, ← h.parse_records hvs hrecords]
  by_cases hne : rs = []
  · subst hne
    cases hrecords
    simp
  · obtain ⟨hchecks, hblank⟩ := checks_of_records hbom hcr hne hsafe
    have hdata : rs.flatMap (· ++ [lf]) ≠ [] := by
      intro hnil
      rw [hnil] at hchecks
      simp at hchecks
    rw [or_iff_right fun hempty => hdata hempty.1, and_iff_right hchecks, and_iff_right hblank,
      recordsOf_flatMap fun r hr => (hsafe r hr).2.2.1]

theorem Agrees.lines_writes_back (hparse : (codec.lines bom lf cr refused).parse data = .ok vs) :
    (∀ v ∈ vs, value v ∧ good v) ∧ (codec.lines bom lf cr refused).encode vs = .ok data := by
  rcases parse_lines.1 hparse with ⟨rfl, rfl⟩ | ⟨⟨-, -, hlast⟩, -, hrecords⟩
  · exact ⟨by simp, encode_lines.2 ⟨[], .nil, rfl⟩⟩
  · constructor
    · intro v hv
      obtain ⟨r, -, hr⟩ := exists_of_forall₂ hrecords.flip hv
      exact ⟨(h.writes_back hr).1, (h.parsed hr).1⟩
    · exact encode_lines.2 ⟨_, (hrecords.imp fun _ _ hr => (h.writes_back hr).2).flip,
        flatMap_splitOn hlast⟩

/-- An error escapes from the first record that is not parsed, if it is stray. -/
theorem Agrees.escapes_lines : Escapes refused ((codec.lines bom lf cr refused).parse data) ↔
    StrayRecord bom lf cr codec stray data := by
  simp only [Codec.lines, StrayRecord]
  split
  · rename_i hnil
    simp [hnil]
  · rw [escapes_require_bind, escapes_require_bind, escapes_mapM]
    simp only [h.escapes, and_assoc]

theorem Agrees.lines (hline : codec.OneLine value bom lf cr) (hbom : lf ∉ bom) (hcr : cr ≠ lf) :
    (codec.lines bom lf cr refused).Agrees refused (List.map form) (fun vs => ∀ v ∈ vs, value v)
      (fun vs => ∀ v ∈ vs, good v) (StrayRecord bom lf cr codec stray) where
  reads_back := h.lines_reads_back hline hbom hcr
  writes_back hparse := by
    obtain ⟨hall, hencode⟩ := h.lines_writes_back hparse
    exact ⟨fun v hv => (hall v hv).1, hencode⟩
  accepts := by
    intro data
    constructor
    · rintro ⟨vs, hparse⟩
      obtain ⟨hall, hencode⟩ := h.lines_writes_back hparse
      exact ⟨vs, fun v hv => (hall v hv).1, fun v hv => (hall v hv).2, hencode⟩
    · rintro ⟨vs, hvs, hgood, hencode⟩
      exact ⟨vs.map form, (h.lines_reads_back hline hbom hcr hvs hencode).2 hgood⟩
  escapes := h.escapes_lines
  injective := by
    intro vs ws data hvs hws hv hw
    obtain ⟨rs, hrecords, rfl⟩ := encode_lines.1 hv
    obtain ⟨rs', hrecords', heq⟩ := encode_lines.1 hw
    have hsame := congrArg (recordsOf lf) heq
    rw [recordsOf_flatMap fun r hr => (hline.of_records hws hrecords' r hr).2.2.1,
      recordsOf_flatMap fun r hr => (hline.of_records hvs hrecords r hr).2.2.1] at hsame
    exact h.map_form_eq hvs hws hrecords (hsame ▸ hrecords')

end

end Codec

end PokerDeliberation.Lib
