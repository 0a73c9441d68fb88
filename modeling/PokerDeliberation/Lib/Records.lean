import PokerDeliberation.Lib.Json.Value

/-!
# Typed records

The records of a validation library, by the types of their fields. An instance
is a value that has every field; its payload leaves out the fields that are
null or equal their default. Validating reads a value field by field, fills
defaults in and rejects unknown names; it converts scalars in ways that are left
open (`Library.lax`) and rewrites addresses in a normal form, whose length it
bounds before and not after. So a payload is read back exactly if no address in
it is too long (`validate_payload`).
-/

namespace PokerDeliberation.Lib.Records

open Json

inductive Kind where
  | str | int | float | bool
  deriving DecidableEq, Repr

variable {F : Type}

def Kind.holds : Kind → Value F → Bool
  | .str, .str _ | .int, .int _ | .float, .float _ | .bool, .bool _ => true
  | _, _ => false

/-- The conversions of the library: what it takes for a scalar, the normal form of an
address, and the strings its factories draw. -/
structure Library (F : Type) where
  lax : Kind → Value F → Option (Value F)
  lax_self : ∀ {kind v}, kind.holds v = true → lax kind v = some v
  normalizeUrl : Text → Option Text
  normalizeUrl_normal : ∀ {s u}, normalizeUrl s = some u → normalizeUrl u = some u
  draw : Text → Text

/-- The most bytes an address may have. -/
def MAX_URL_LENGTH : Nat := 2083

def urlFits (s : Text) : Bool := (Utf8.encode s).any fun data => data.length ≤ MAX_URL_LENGTH

/-- What a field has when it is not given; `same` says which payloads are those of the default. -/
inductive Default (F : Type) where
  | required
  | value (default : Value F) (same : Value F → Bool)
  | factory (kind : Text)

mutual

inductive Ty (F : Type) where
  | scalar (kind : Kind) (ok : Value F → Bool)
  | literal (names : List Text)
  | any (ok : Value F → Bool)
  | url
  | list (elem : Ty F) (ok : Nat → Bool)
  | optional (type : Ty F)
  | model (fields : Fields F) (valid : Value F → Bool)
  | union (first second : Ty F)

inductive Fields (F : Type) where
  | nil
  | cons (name : Text) (type : Ty F) (default : Default F) (rest : Fields F)

end

/-- The fields of a model, as they are declared. -/
def record : List (String × Ty F × Default F) → Fields F
  | [] => .nil
  | (name, type, d) :: rest => .cons (text name) type d (record rest)

def Fields.names : Fields F → List Text
  | .nil => []
  | .cons name _ _ rest => name :: rest.names

/-- The value has the field names of the model. -/
def Ty.named : Ty F → Value F → Bool
  | .model fields _, .obj items => items.map (·.1) = fields.names
  | _, _ => false

/-- A field with the payload `p` is left out. -/
def Default.excludes (d : Default F) (p : Value F) : Bool :=
  match p, d with
  | .null, _ => true
  | p, .value _ same => same p
  | _, _ => false

def Default.fill (lib : Library F) : Default F → Option (Value F)
  | .required => none
  | .value d _ => some d
  | .factory kind => some (.str (lib.draw kind))

/-! ## Payloads and validation -/

mutual

/-- `model_dump` in JSON mode, without nulls and defaults. -/
def Ty.dump : Ty F → Value F → Value F
  | .list elem _, .arr xs => .arr (xs.map elem.dump)
  | .optional type, v =>
    match v with
    | .null => .null
    | v => type.dump v
  | .model fields _, .obj items => .obj (fields.dump items)
  | .union first second, v => if first.named v then first.dump v else second.dump v
  | _, v => v

def Fields.dump : Fields F → List (Text × Value F) → List (Text × Value F)
  | .cons name type d rest, (_, v) :: items =>
    if d.excludes (type.dump v).sorted then rest.dump items
    else (name, type.dump v) :: rest.dump items
  | _, _ => []

end

section

variable (lib : Library F)

mutual

/-- `model_validate`; the validators of a model see its payload. -/
def Ty.validate : Ty F → Value F → Option (Value F)
  | .scalar kind ok, j => (lib.lax kind j).bind fun v => if ok v then some v else none
  | .literal names, .str s => if s ∈ names then some (.str s) else none
  | .any ok, j => if ok j then some j else none
  | .url, .str s => if urlFits s then (lib.normalizeUrl s).map .str else none
  | .list elem ok, .arr xs => if ok xs.length then (xs.mapM elem.validate).map .arr else none
  | .optional type, j =>
    match j with
    | .null => some .null
    | j => type.validate j
  | .model fields valid, .obj items =>
    if ∀ x ∈ items, x.1 ∈ fields.names then
      (fields.validate items).bind fun read =>
        if valid (.sorted (.obj (fields.dump read))) then some (.obj read) else none
    else none
  | .union first second, j =>
    match first.validate j with
    | some v => some v
    | none => second.validate j
  | _, _ => none

def Fields.validate : Fields F → List (Text × Value F) → Option (List (Text × Value F))
  | .nil, _ => some []
  | .cons name type d rest, items =>
    (match items.lookup name with
      | some j => type.validate j
      | none => d.fill lib).bind fun v => (rest.validate items).map fun read => (name, v) :: read

end

mutual

/-- `v` is an instance: what validation can return, before any payload is taken. -/
def Ty.HasType : Ty F → Value F → Prop
  | .scalar kind ok, v => kind.holds v = true ∧ ok v = true
  | .literal names, v => ∃ s ∈ names, v = .str s
  | .any ok, v => ok v = true ∧ v.Distinct
  | .url, v => ∃ s u, urlFits s = true ∧ lib.normalizeUrl s = some u ∧ v = .str u
  | .list elem ok, v => ∃ xs, v = .arr xs ∧ ok xs.length = true ∧ ∀ x ∈ xs, elem.HasType x
  | .optional type, v => v = .null ∨ type.HasType v
  | .model fields valid, v => ∃ items, v = .obj items ∧ fields.HasType items ∧
      valid (.sorted (.obj (fields.dump items))) = true
  | .union first second, v => first.HasType v ∨ second.HasType v

def Fields.HasType : Fields F → List (Text × Value F) → Prop
  | .nil, items => items = []
  | .cons name type _ rest, items =>
    ∃ v more, items = (name, v) :: more ∧ type.HasType v ∧ rest.HasType more

end

end

mutual

/-- The addresses in the payload. -/
def Ty.urls : Ty F → Value F → List Text
  | .url, .str u => [u]
  | .list elem _, .arr xs => xs.flatMap elem.urls
  | .optional type, v =>
    match v with
    | .null => []
    | v => type.urls v
  | .model fields _, .obj items => fields.urls items
  | .union first second, v => if first.named v then first.urls v else second.urls v
  | _, _ => []

def Fields.urls : Fields F → List (Text × Value F) → List Text
  | .cons _ type d rest, (_, v) :: items =>
    if d.excludes (type.dump v).sorted then rest.urls items else type.urls v ++ rest.urls items
  | _, _ => []

end

/-! ## Well-formed types -/

/-- Null may be the payload of an instance. -/
def Ty.nullable : Ty F → Bool
  | .optional _ => true
  | .any ok => ok .null
  | _ => false

/-- The names that every payload has. -/
def Fields.required : Fields F → List Text
  | .nil => []
  | .cons name type d rest =>
    match d with
    | .value _ _ => rest.required
    | _ => if type.nullable then rest.required else name :: rest.required

/-- No payload of the first model is one of the second. -/
def Ty.Apart : Ty F → Ty F → Prop
  | .model fields _, .model others _ => ∃ name ∈ fields.required, name ∉ others.names
  | _, _ => False

/-- The default is left out itself, and it is there if null may be left out. -/
def Default.Suits (d : Default F) (type : Ty F) : Prop :=
  match d with
  | .value v same => same (type.dump v).sorted = true
  | _ => type.nullable = false

mutual

def Ty.WellFormed : Ty F → Prop
  | .any ok => ∀ v, ok v.sorted = ok v
  | .list elem _ => elem.WellFormed
  | .optional type => type.WellFormed ∧ type.nullable = false
  | .model fields _ => fields.WellFormed ∧ fields.names.Nodup
  | .union first second =>
    first.WellFormed ∧ second.WellFormed ∧ first.Apart second ∧ second.Apart first
  | _ => True

def Fields.WellFormed : Fields F → Prop
  | .nil => True
  | .cons _ type d rest => type.WellFormed ∧ d.Suits type ∧ rest.WellFormed

end

theorem names_record (fields : List (String × Ty F × Default F)) :
    (record fields).names = fields.map fun x => text x.1 := by
  induction fields with
  | nil => rfl
  | cons x fields ih => rw [record, Fields.names, ih, List.map_cons]

theorem wellFormed_record {fields : List (String × Ty F × Default F)} :
    (record fields).WellFormed ↔ ∀ x ∈ fields, x.2.1.WellFormed ∧ x.2.2.Suits x.2.1 := by
  induction fields with
  | nil => simp [record, Fields.WellFormed]
  | cons x fields ih =>
    rw [record, Fields.WellFormed, ih, List.forall_mem_cons, and_assoc]

/-! ## Names of a payload -/

section

variable {lib : Library F} {fields others : Fields F} {items : List (Text × Value F)} {v w : Value F}
  {type second : Ty F} {valid : Value F → Bool} {name : Text} {d : Default F}

theorem names_of_hasType : ∀ {fields : Fields F} {items : List (Text × Value F)},
    fields.HasType lib items → items.map (·.1) = fields.names
  | .nil, _, h => by rw [show _ = [] from h]; rfl
  | .cons _ _ _ _, _, ⟨_, _, hitems, _, hrest⟩ => by
    rw [hitems, List.map_cons, names_of_hasType hrest, Fields.names]

theorem dump_names_sublist : ∀ (fields : Fields F) (items : List (Text × Value F)),
    ((fields.dump items).map (·.1)).Sublist fields.names
  | .nil, _ => by simp [Fields.dump]
  | .cons _ _ _ _, [] => by simp [Fields.dump]
  | .cons name type d rest, (_, v) :: items => by
    have ih := dump_names_sublist rest items
    simp only [Fields.dump, Fields.names]
    split
    · exact ih.cons name
    · exact ih.cons_cons name

theorem mem_dump_names (h : name ∈ (fields.dump items).map (·.1)) : name ∈ fields.names :=
  (dump_names_sublist fields items).mem h

theorem dump_nodup (h : fields.names.Nodup) : ((fields.dump items).map (·.1)).Nodup :=
  (dump_names_sublist fields items).nodup h

theorem sorted_eq_null : v.sorted = .null ↔ v = .null := by
  cases v <;> simp [Value.sorted]

theorem Kind.not_holds_null (kind : Kind) : kind.holds (F := F) .null = false := by
  cases kind <;> rfl

theorem required_subset : ∀ (fields : Fields F), ∀ name ∈ fields.required, name ∈ fields.names
  | .nil, _, h => by cases h
  | .cons _ type d rest, name, h => by
    have ih := required_subset rest name
    simp only [Fields.required] at h
    simp only [Fields.names, List.mem_cons]
    split at h
    · exact .inr (ih h)
    · split at h
      · exact .inr (ih h)
      · exact (List.mem_cons.1 h).imp_right ih

/-- Types that are apart are models, with other names each. -/
theorem Ty.Apart.models {first second : Ty F} (h : first.Apart second) :
    ∃ fields valid others valid', first = .model fields valid ∧ second = .model others valid' ∧
      fields.names ≠ others.names ∧ ∃ name ∈ fields.required, name ∉ others.names := by
  cases first <;> cases second <;> try exact h.elim
  obtain ⟨name, hname, hother⟩ := h
  refine ⟨_, _, _, _, rfl, rfl, fun heq => hother ?_, name, hname, hother⟩
  rw [← heq]
  exact required_subset _ name hname

theorem named_of_hasType (h : (Ty.model fields valid).HasType lib v) :
    (Ty.model fields valid).named v = true := by
  obtain ⟨items, rfl, hitems, -⟩ := h
  exact decide_eq_true (names_of_hasType hitems)

/-- The dump of a union is the one of the model the instance is of. -/
theorem dump_union {first second : Ty F} (hwell : (Ty.union first second).WellFormed)
    (h : (Ty.union first second).HasType lib v) :
    first.HasType lib v ∧ first.named v = true ∨ second.HasType lib v ∧ first.named v = false := by
  obtain ⟨-, -, hapart, -⟩ := hwell
  obtain ⟨fields, valid, others, valid', rfl, rfl, hnames, -⟩ := hapart.models
  refine h.imp (fun hv => ⟨hv, named_of_hasType hv⟩) fun hv => ⟨hv, ?_⟩
  obtain ⟨items, rfl, hitems, -⟩ := hv
  exact decide_eq_false fun heq => hnames (heq.symm.trans (names_of_hasType hitems))

/-- Only a nullable type has a null payload. -/
theorem nullable_of_dump (hwell : type.WellFormed) (h : type.HasType lib v)
    (hnull : type.dump v = .null) : type.nullable = true := by
  cases type with
  | scalar kind ok =>
    simp only [Ty.dump] at hnull
    rw [hnull] at h
    exact absurd h.1 (by rw [Kind.not_holds_null]; exact Bool.false_ne_true)
  | literal names =>
    obtain ⟨s, -, rfl⟩ := h
    simp [Ty.dump] at hnull
  | any ok =>
    simp only [Ty.dump] at hnull
    rw [hnull] at h
    exact h.1
  | url =>
    obtain ⟨s, u, -, -, rfl⟩ := h
    simp [Ty.dump] at hnull
  | list elem ok =>
    obtain ⟨xs, rfl, -⟩ := h
    simp [Ty.dump] at hnull
  | optional type => rfl
  | model fields valid =>
    obtain ⟨items, rfl, -⟩ := h
    simp [Ty.dump] at hnull
  | union first second =>
    obtain ⟨fields, valid, others, valid', rfl, rfl, -⟩ := hwell.2.2.1.models
    obtain ⟨items, rfl, -⟩ | ⟨items, rfl, -⟩ := h
    all_goals
      simp only [Ty.dump] at hnull
      split at hnull <;> cases hnull

theorem required_mem : ∀ {fields : Fields F} {items : List (Text × Value F)}, fields.WellFormed →
    fields.HasType lib items → ∀ name ∈ fields.required, name ∈ (fields.dump items).map (·.1)
  | .nil, _, _, _, _, h => by cases h
  | .cons own type d rest, _, ⟨htype, hsuits, hwell⟩, ⟨v, more, hitems, hv, hmore⟩, name, h => by
    subst hitems
    have ih := required_mem hwell hmore name
    simp only [Fields.required] at h
    simp only [Fields.dump]
    have hkept : name ∈ (rest.dump more).map (·.1) →
        name ∈ (if d.excludes (type.dump v).sorted then rest.dump more
          else (own, type.dump v) :: rest.dump more).map (·.1) := by
      intro hmem
      split
      · exact hmem
      · exact List.mem_cons_of_mem _ hmem
    split at h
    · exact hkept (ih h)
    · split at h
      · exact hkept (ih h)
      · rename_i hvalue hnullable
        obtain rfl | h := List.mem_cons.1 h
        · have hp : (type.dump v).sorted ≠ .null := fun hnull =>
            hnullable (nullable_of_dump htype hv (sorted_eq_null.1 hnull))
          have hexcludes : d.excludes (type.dump v).sorted = false := by
            unfold Default.excludes
            split
            · next heq => exact absurd heq hp
            · next heq => exact absurd rfl (hvalue _ _)
            · rfl
          rw [if_neg (by rw [hexcludes]; exact Bool.false_ne_true)]
          exact List.mem_cons_self
        · exact hkept (ih h)

/-! ## Reading a payload back -/

theorem dump_null : ∀ type : Ty F, type.dump .null = .null
  | .scalar _ _ | .literal _ | .any _ | .url | .list _ _ | .optional _ | .model _ _ => by
    simp [Ty.dump]
  | .union first second => by
    have hnamed : first.named .null = false := by cases first <;> rfl
    simp only [Ty.dump, hnamed, Bool.false_eq_true, if_false, dump_null second]

theorem Kind.sorted_of_holds {kind : Kind} (h : kind.holds v = true) : v.sorted = v := by
  cases kind <;> cases v <;> first | rfl | cases h

theorem validate_names : ∀ {fields : Fields F} {items read : List (Text × Value F)},
    fields.validate lib items = some read → read.map (·.1) = fields.names
  | .nil, _, _, h => by cases h; rfl
  | .cons name type d rest, items, _, h => by
    simp only [Fields.validate, Option.bind_eq_some_iff, Option.map_eq_some_iff] at h
    obtain ⟨v, -, read, hread, rfl⟩ := h
    rw [List.map_cons, validate_names hread, Fields.names]

/-- What a model returns has its field names. -/
theorem named_of_validate {j : Value F} (h : (Ty.model fields valid).validate lib j = some w) :
    ∃ read, w = .obj read ∧ read.map (·.1) = fields.names := by
  cases j with
  | obj items =>
    simp only [Ty.validate] at h
    split at h
    · obtain ⟨read, hread, h⟩ := Option.bind_eq_some_iff.1 h
      split at h <;> cases h
      exact ⟨read, rfl, validate_names hread⟩
    · cases h
  | _ => simp [Ty.validate] at h

/-- The second of two types that are apart reads no payload of the first. -/
theorem Ty.Apart.validate_eq_none {first second : Ty F} (h : first.Apart second)
    (hwell : first.WellFormed) (hv : first.HasType lib v) :
    second.validate lib (first.dump v).sorted = none := by
  obtain ⟨fields, valid, others, valid', rfl, rfl, -, name, hname, hother⟩ := h.models
  obtain ⟨items, rfl, hitems, -⟩ := hv
  obtain ⟨x, hx, rfl⟩ := List.mem_map.1 (required_mem hwell.1 hitems name hname)
  simp only [Ty.dump, Value.sorted, Ty.validate]
  refine if_neg fun hall => hother ?_
  exact hall (x.1, x.2.sorted) (Value.mem_sortedItems.2 ⟨x, hx, rfl⟩)

theorem mapM_map_some {α β γ : Type} {f : α → β} {g : β → Option γ} {P : α → γ → Prop}
    {xs : List α} (h : ∀ x ∈ xs, ∃ z, g (f x) = some z ∧ P x z) :
    ∃ zs, (xs.map f).mapM g = some zs ∧ List.Forall₂ P xs zs := by
  induction xs with
  | nil => exact ⟨[], rfl, .nil⟩
  | cons x xs ih =>
    obtain ⟨⟨z, hz, hP⟩, hxs⟩ := List.forall_mem_cons.1 h
    obtain ⟨zs, hzs, hall⟩ := ih hxs
    exact ⟨z :: zs, by simp [List.mapM_cons, hz, hzs], .cons hP hall⟩

/-- A field that is left out has a default, which is left out as well. -/
theorem fill_of_excludes (hwell : type.WellFormed) (hsuits : d.Suits type)
    (hv : type.HasType lib v) (h : d.excludes (type.dump v).sorted = true) :
    ∃ filled, d.fill lib = some filled ∧ d.excludes (type.dump filled).sorted = true := by
  have hnull : (∀ x same, d ≠ .value x same) → (type.dump v).sorted = .null := by
    intro hother
    unfold Default.excludes at h
    split at h
    · next heq => exact heq
    · exact absurd rfl (hother _ _)
    · cases h
  have hnullable : (∀ x same, d ≠ .value x same) → type.nullable = true := fun hother =>
    nullable_of_dump hwell hv (sorted_eq_null.1 (hnull hother))
  cases d with
  | required =>
    have hfalse : type.nullable = false := hsuits
    rw [hnullable (by simp)] at hfalse
    cases hfalse
  | factory kind =>
    have hfalse : type.nullable = false := hsuits
    rw [hnullable (by simp)] at hfalse
    cases hfalse
  | value default same =>
    refine ⟨default, rfl, ?_⟩
    have hsame : same (type.dump default).sorted = true := hsuits
    generalize (type.dump default).sorted = p at hsame ⊢
    cases p <;> first | rfl | exact hsame

theorem payload_ne_null (hwell : (Ty.optional type).WellFormed) (hv : type.HasType lib v) :
    (type.dump v).sorted ≠ .null := by
  intro hnull
  have hnullable := nullable_of_dump hwell.1 hv (sorted_eq_null.1 hnull)
  rw [hwell.2] at hnullable
  cases hnullable

mutual

/-- A payload without an address that is too long is read back, as an instance with the same
payload. -/
theorem validate_dump : ∀ (type : Ty F) {v : Value F}, type.WellFormed → type.HasType lib v →
    (∀ u ∈ type.urls v, urlFits u = true) →
      ∃ w, type.validate lib (type.dump v).sorted = some w ∧
        (type.dump w).sorted = (type.dump v).sorted
  | .scalar kind ok, v, _, ⟨hholds, hok⟩, _ => by
    refine ⟨v, ?_, rfl⟩
    simp only [Ty.dump, Kind.sorted_of_holds hholds, Ty.validate, lib.lax_self hholds,
      Option.bind_some, hok, if_true]
  | .literal names, _, _, ⟨s, hs, hv⟩, _ => by
    subst hv
    exact ⟨.str s, by simp [Ty.dump, Value.sorted, Ty.validate, hs], rfl⟩
  | .any ok, v, hwell, ⟨hok, _⟩, _ => by
    refine ⟨v.sorted, ?_, by simp [Ty.dump]⟩
    simp only [Ty.dump, Ty.validate, hwell v, hok, if_true]
  | .url, _, _, ⟨s, u, _, hnormal, hv⟩, hurls => by
    subst hv
    have hfits : urlFits u = true := hurls u (by simp [Ty.urls])
    refine ⟨.str u, ?_, rfl⟩
    simp only [Ty.dump, Value.sorted, Ty.validate, hfits, if_true,
      lib.normalizeUrl_normal hnormal, Option.map_some]
  | .list elem ok, _, hwell, ⟨xs, hv, hok, hxs⟩, hurls => by
    subst hv
    have hread : ∀ x ∈ xs, ∃ w, elem.validate lib ((fun x => (elem.dump x).sorted) x) = some w ∧
        (elem.dump w).sorted = (elem.dump x).sorted := by
      intro x hx
      refine validate_dump elem hwell (hxs x hx) fun u hu => hurls u ?_
      simp only [Ty.urls, List.mem_flatMap]
      exact ⟨x, hx, hu⟩
    obtain ⟨ws, hws, hall⟩ := mapM_map_some hread
    refine ⟨.arr ws, ?_, ?_⟩
    · simp only [Ty.dump, Value.sorted, Value.sortedAll_eq, List.map_map, Ty.validate,
        List.length_map, hok, if_true, Function.comp_def]
      rw [hws]
      rfl
    · simp only [Ty.dump, Value.sorted, Value.sortedAll_eq, List.map_map]
      refine congrArg _ ?_
      clear hws hread hurls hxs hok
      induction hall with
      | nil => rfl
      | cons hx _ ih =>
        rw [List.map_cons, List.map_cons, ih]
        exact congrArg (· :: _) hx
  | .optional type, v, hwell, hv, hurls => by
    by_cases hnull : v = .null
    · subst hnull
      exact ⟨.null, by simp [Ty.dump, Value.sorted, Ty.validate], rfl⟩
    have hdump : (Ty.optional type).dump v = type.dump v := by
      cases v <;> first | exact absurd rfl hnull | rfl
    have hinner : (Ty.optional type).urls v = type.urls v := by
      cases v <;> first | exact absurd rfl hnull | rfl
    rw [hinner] at hurls
    obtain ⟨w, hw, hsame⟩ := validate_dump type hwell.1 (hv.resolve_left hnull) hurls
    have hp := payload_ne_null hwell (hv.resolve_left hnull)
    rw [hdump]
    refine ⟨w, ?_, ?_⟩
    · rw [← hw]
      generalize (type.dump v).sorted = p at hp
      cases p <;> first | exact absurd rfl hp | rfl
    · rw [← hsame]
      have hw' : w ≠ .null := by
        rintro rfl
        rw [dump_null] at hsame
        exact hp hsame.symm
      cases w <;> first | exact absurd rfl hw' | rfl
  | .model fields valid, _, hwell, ⟨items, hv, hitems, hvalid⟩, hurls => by
    subst hv
    have hlookup : ∀ name ∈ fields.names,
        (Value.sortItems (Value.sortedItems (fields.dump items))).lookup name =
          ((fields.dump items).lookup name).map .sorted :=
      fun name _ => Value.lookup_sorted name (dump_nodup hwell.2)
    obtain ⟨read, hread, hsame⟩ := validate_fields fields hwell.1 hitems hwell.2 hlookup hurls
    have hpayload : Value.sorted (.obj (fields.dump read)) = .sorted (.obj (fields.dump items)) := by
      simp only [Value.sorted, hsame]
    refine ⟨.obj read, ?_, hpayload⟩
    have hkeys : ∀ x ∈ Value.sortItems (Value.sortedItems (fields.dump items)),
        x.1 ∈ fields.names := by
      intro x hx
      obtain ⟨y, hy, rfl⟩ := Value.mem_sortedItems.1 hx
      exact mem_dump_names (List.mem_map.2 ⟨y, hy, rfl⟩)
    rw [← hpayload] at hvalid
    simp only [Ty.dump, Value.sorted, Ty.validate]
    rw [if_pos hkeys, hread, Option.bind_some]
    exact if_pos hvalid
  | .union first second, v, hwell, hv, hurls => by
    obtain ⟨hfirst, hsecond, hapart, hapart'⟩ := id hwell
    obtain ⟨fields, valid, others, valid', hf, hs, hnames, -⟩ := hapart.models
    obtain ⟨hv, hnamed⟩ | ⟨hv, hnamed⟩ := dump_union hwell hv
    · have hdump : (Ty.union first second).dump v = first.dump v := by
        simp only [Ty.dump, hnamed, if_true]
      have hinner : (Ty.union first second).urls v = first.urls v := by
        simp only [Ty.urls, hnamed, if_true]
      rw [hinner] at hurls
      obtain ⟨w, hw, hsame⟩ := validate_dump first hfirst hv hurls
      refine ⟨w, by simp only [hdump, Ty.validate, hw], ?_⟩
      have hnamed' : first.named w = true := by
        rw [hf] at hw ⊢
        obtain ⟨read, rfl, hread⟩ := named_of_validate hw
        exact decide_eq_true hread
      rw [hdump, ← hsame]
      simp only [Ty.dump, hnamed', if_true]
    · have hdump : (Ty.union first second).dump v = second.dump v := by
        simp only [Ty.dump, hnamed, Bool.false_eq_true, if_false]
      have hinner : (Ty.union first second).urls v = second.urls v := by
        simp only [Ty.urls, hnamed, Bool.false_eq_true, if_false]
      rw [hinner] at hurls
      obtain ⟨w, hw, hsame⟩ := validate_dump second hsecond hv hurls
      have hnone := hapart'.validate_eq_none hsecond hv
      refine ⟨w, by simp only [hdump, Ty.validate, hnone, hw], ?_⟩
      have hnamed' : first.named w = false := by
        rw [hs] at hw
        rw [hf]
        obtain ⟨read, rfl, hread⟩ := named_of_validate hw
        exact decide_eq_false fun heq => hnames (heq.symm.trans hread)
      rw [hdump, ← hsame]
      simp only [Ty.dump, hnamed', Bool.false_eq_true, if_false]

theorem validate_fields : ∀ (fields : Fields F) {items whole : List (Text × Value F)},
    fields.WellFormed → fields.HasType lib items → fields.names.Nodup →
    (∀ name ∈ fields.names, whole.lookup name = ((fields.dump items).lookup name).map .sorted) →
    (∀ u ∈ fields.urls items, urlFits u = true) →
      ∃ read, fields.validate lib whole = some read ∧
        Value.sortedItems (fields.dump read) = Value.sortedItems (fields.dump items)
  | .nil, _, _, _, _, _, _, _ => ⟨[], rfl, by simp [Fields.dump]⟩
  | .cons name type d rest, _, whole, ⟨htype, hsuits, hwell⟩, ⟨v, more, hitems, hv, hmore⟩, hnodup,
      hlookup, hurls => by
    subst hitems
    rw [Fields.names, List.nodup_cons] at hnodup
    obtain ⟨hfresh, hnodup⟩ := hnodup
    have hown : name ∈ (Fields.cons name type d rest).names := List.mem_cons_self
    have hrest : ∀ other ∈ rest.names, other ∈ (Fields.cons name type d rest).names :=
      fun other => List.mem_cons_of_mem _
    by_cases hexcludes : d.excludes (type.dump v).sorted = true
    · -- the field is left out, and its default is left out in turn
      have hdump : (Fields.cons name type d rest).dump ((name, v) :: more) = rest.dump more := by
        rw [Fields.dump, if_pos hexcludes]
      have hinner : (Fields.cons name type d rest).urls ((name, v) :: more) = rest.urls more := by
        rw [Fields.urls, if_pos hexcludes]
      rw [hinner] at hurls
      rw [hdump] at hlookup ⊢
      obtain ⟨read, hread, hsame⟩ := validate_fields rest hwell hmore hnodup
        (fun other hother => hlookup other (hrest other hother)) hurls
      have hmissing : whole.lookup name = none := by
        rw [hlookup name hown, Option.map_eq_none_iff, List.lookup_eq_none_iff]
        intro x hx
        refine bne_iff_ne.2 fun heq => hfresh ?_
        rw [heq]
        exact mem_dump_names (List.mem_map.2 ⟨x, hx, rfl⟩)
      obtain ⟨filled, hfill, hfilled⟩ := fill_of_excludes htype hsuits hv hexcludes
      refine ⟨(name, filled) :: read, ?_, ?_⟩
      · simp only [Fields.validate, hmissing, hfill, hread, Option.bind_some, Option.map_some]
      · rw [Fields.dump, if_pos hfilled, hsame]
    · have hdump : (Fields.cons name type d rest).dump ((name, v) :: more) =
          (name, type.dump v) :: rest.dump more := by
        rw [Fields.dump, if_neg hexcludes]
      have hinner : (Fields.cons name type d rest).urls ((name, v) :: more) =
          type.urls v ++ rest.urls more := by
        rw [Fields.urls, if_neg hexcludes]
      rw [hinner] at hurls
      rw [hdump] at hlookup ⊢
      obtain ⟨w, hw, hpayload⟩ := validate_dump type htype hv fun u hu =>
        hurls u (List.mem_append_left _ hu)
      obtain ⟨read, hread, hsame⟩ := validate_fields rest hwell hmore hnodup
        (fun other hother => by
          have hne : (other == name) = false := beq_false_of_ne fun heq => hfresh (heq ▸ hother)
          rw [hlookup other (hrest other hother), List.lookup_cons, hne])
        fun u hu => hurls u (List.mem_append_right _ hu)
      have hfound : whole.lookup name = some (type.dump v).sorted := by
        rw [hlookup name hown, List.lookup_cons_self, Option.map_some]
      refine ⟨(name, w) :: read, ?_, ?_⟩
      · simp only [Fields.validate, hfound, hw, hread, Option.bind_some, Option.map_some]
      · have hkept : ¬ d.excludes (type.dump w).sorted = true := by rw [hpayload]; exact hexcludes
        rw [Fields.dump, if_neg hkept, Value.sortedItems, Value.sortedItems, hsame, hpayload]

end

mutual

/-- The dictionaries of a payload have distinct keys. -/
theorem dump_distinct : ∀ (type : Ty F) {v : Value F}, type.WellFormed → type.HasType lib v →
    (type.dump v).Distinct
  | .scalar kind ok, v, _, ⟨hholds, _⟩ => by
    refine Value.distinct_of_objects ?_
    cases kind <;> cases v <;> first | rfl | cases hholds
  | .literal _, _, _, ⟨_, _, hv⟩ => by
    subst hv
    exact Value.distinct_of_objects rfl
  | .any _, _, _, ⟨_, hv⟩ => by simpa only [Ty.dump] using hv
  | .url, _, _, ⟨_, _, _, _, hv⟩ => by
    subst hv
    exact Value.distinct_of_objects rfl
  | .list elem _, _, hwell, ⟨xs, hv, _, hxs⟩ => by
    subst hv
    simp only [Ty.dump]
    refine Value.distinct_arr fun y hy => ?_
    obtain ⟨x, hx, rfl⟩ := List.mem_map.1 hy
    exact dump_distinct elem hwell (hxs x hx)
  | .optional type, v, hwell, hv => by
    by_cases hnull : v = .null
    · subst hnull
      exact Value.distinct_of_objects rfl
    · have hdump : (Ty.optional type).dump v = type.dump v := by
        cases v <;> first | exact absurd rfl hnull | rfl
      rw [hdump]
      exact dump_distinct type hwell.1 (hv.resolve_left hnull)
  | .model fields _, _, hwell, ⟨items, hv, hitems, _⟩ => by
    subst hv
    exact Value.distinct_obj (dump_nodup hwell.2) (dump_fields_distinct fields hwell.1 hitems)
  | .union first second, v, hwell, hv => by
    obtain ⟨hfirst, hsecond, -⟩ := id hwell
    simp only [Ty.dump]
    rcases dump_union hwell hv with ⟨hv, hnamed⟩ | ⟨hv, hnamed⟩
    · rw [if_pos hnamed]
      exact dump_distinct first hfirst hv
    · rw [if_neg (by rw [hnamed]; exact Bool.false_ne_true)]
      exact dump_distinct second hsecond hv

theorem dump_fields_distinct : ∀ (fields : Fields F) {items : List (Text × Value F)},
    fields.WellFormed → fields.HasType lib items → ∀ x ∈ fields.dump items, x.2.Distinct
  | .nil, _, _, _, _, hx => by simp [Fields.dump] at hx
  | .cons name type d rest, _, ⟨htype, _, hwell⟩, ⟨v, more, hitems, hv, hmore⟩, x, hx => by
    subst hitems
    rw [Fields.dump] at hx
    split at hx
    · exact dump_fields_distinct rest hwell hmore x hx
    · rcases List.mem_cons.1 hx with rfl | hx
      · exact dump_distinct type htype hv
      · exact dump_fields_distinct rest hwell hmore x hx

end

theorem mapM_map_none {α β γ : Type} {f : α → β} {g : β → Option γ} {xs : List α} {x : α}
    (hx : x ∈ xs) (h : g (f x) = none) : (xs.map f).mapM g = none := by
  induction xs with
  | nil => cases hx
  | cons y ys ih =>
    obtain rfl | hx := List.mem_cons.1 hx
    · simp [List.mapM_cons, h]
    · rw [List.map_cons, List.mapM_cons, ih hx]
      cases g (f y) <;> rfl

mutual

/-- A payload with an address that is too long is refused. -/
theorem validate_eq_none : ∀ (type : Ty F) {v : Value F}, type.WellFormed → type.HasType lib v →
    (∃ u ∈ type.urls v, urlFits u = false) → type.validate lib (type.dump v).sorted = none
  | .scalar _ _, _, _, _, ⟨_, hu, _⟩ | .literal _, _, _, _, ⟨_, hu, _⟩ | .any _, _, _, _, ⟨_, hu, _⟩ => by
    simp [Ty.urls] at hu
  | .url, _, _, ⟨s, u, _, _, hv⟩, ⟨u', hu, hlong⟩ => by
    subst hv
    simp only [Ty.urls, List.mem_singleton] at hu
    subst hu
    simp [Ty.dump, Value.sorted, Ty.validate, hlong]
  | .list elem ok, _, hwell, ⟨xs, hv, hok, hxs⟩, ⟨u, hu, hlong⟩ => by
    subst hv
    simp only [Ty.urls, List.mem_flatMap] at hu
    obtain ⟨x, hx, hu⟩ := hu
    have hnone := validate_eq_none elem hwell (hxs x hx) ⟨u, hu, hlong⟩
    simp only [Ty.dump, Value.sorted, Value.sortedAll_eq, List.map_map, Ty.validate,
      List.length_map, hok, if_true, Function.comp_def]
    rw [mapM_map_none (f := fun x => (elem.dump x).sorted) hx hnone]
    rfl
  | .optional type, v, hwell, hv, ⟨u, hu, hlong⟩ => by
    have hnull : v ≠ .null := by
      rintro rfl
      simp [Ty.urls] at hu
    have hinner : (Ty.optional type).urls v = type.urls v := by
      cases v <;> first | exact absurd rfl hnull | rfl
    have hdump : (Ty.optional type).dump v = type.dump v := by
      cases v <;> first | exact absurd rfl hnull | rfl
    rw [hinner] at hu
    have hnone := validate_eq_none type hwell.1 (hv.resolve_left hnull) ⟨u, hu, hlong⟩
    have hp := payload_ne_null hwell (hv.resolve_left hnull)
    rw [hdump, ← hnone]
    generalize (type.dump v).sorted = p at hp
    cases p <;> first | exact absurd rfl hp | rfl
  | .model fields valid, _, hwell, ⟨items, hv, hitems, hvalid⟩, hurls => by
    subst hv
    have hlookup : ∀ name ∈ fields.names,
        (Value.sortItems (Value.sortedItems (fields.dump items))).lookup name =
          ((fields.dump items).lookup name).map .sorted :=
      fun name _ => Value.lookup_sorted name (dump_nodup hwell.2)
    have hnone := validate_fields_eq_none fields hwell.1 hitems hwell.2 hlookup hurls
    simp only [Ty.dump, Value.sorted, Ty.validate, hnone, Option.bind_none, ite_self]
  | .union first second, v, hwell, hv, ⟨u, hu, hlong⟩ => by
    obtain ⟨hfirst, hsecond, hapart, hapart'⟩ := id hwell
    obtain ⟨hv, hnamed⟩ | ⟨hv, hnamed⟩ := dump_union hwell hv
    · simp only [Ty.urls, hnamed, if_true] at hu
      have hnone := validate_eq_none first hfirst hv ⟨u, hu, hlong⟩
      simp only [Ty.dump, hnamed, if_true, Ty.validate, hnone, hapart.validate_eq_none hfirst hv]
    · simp only [Ty.urls, hnamed, Bool.false_eq_true, if_false] at hu
      have hnone := validate_eq_none second hsecond hv ⟨u, hu, hlong⟩
      simp only [Ty.dump, hnamed, Bool.false_eq_true, if_false, Ty.validate, hnone,
        hapart'.validate_eq_none hsecond hv]

theorem validate_fields_eq_none : ∀ (fields : Fields F) {items whole : List (Text × Value F)},
    fields.WellFormed → fields.HasType lib items → fields.names.Nodup →
    (∀ name ∈ fields.names, whole.lookup name = ((fields.dump items).lookup name).map .sorted) →
    (∃ u ∈ fields.urls items, urlFits u = false) → fields.validate lib whole = none
  | .nil, _, _, _, _, _, _, ⟨_, hu, _⟩ => by simp [Fields.urls] at hu
  | .cons name type d rest, _, whole, ⟨htype, hsuits, hwell⟩, ⟨v, more, hitems, hv, hmore⟩, hnodup,
      hlookup, ⟨u, hu, hlong⟩ => by
    subst hitems
    rw [Fields.names, List.nodup_cons] at hnodup
    obtain ⟨hfresh, hnodup⟩ := hnodup
    have hown : name ∈ (Fields.cons name type d rest).names := List.mem_cons_self
    have hother : ∀ other ∈ rest.names,
        whole.lookup other = ((rest.dump more).lookup other).map .sorted := by
      intro other hmem
      have hne : (other == name) = false := beq_false_of_ne fun heq => hfresh (heq ▸ hmem)
      rw [hlookup other (List.mem_cons_of_mem _ hmem), Fields.dump]
      split
      · rfl
      · rw [List.lookup_cons, hne]
    have hrest : (∃ u ∈ rest.urls more, urlFits u = false) →
        (Fields.cons name type d rest).validate lib whole = none := by
      intro hlater
      have hnone := validate_fields_eq_none rest hwell hmore hnodup hother hlater
      simp only [Fields.validate, hnone, Option.map_none]
      exact Option.bind_fun_none _
    rw [Fields.urls] at hu
    split at hu
    · exact hrest ⟨u, hu, hlong⟩
    · rename_i hexcludes
      obtain hu | hu := List.mem_append.1 hu
      · have hnone := validate_eq_none type htype hv ⟨u, hu, hlong⟩
        have hfound : whole.lookup name = some (type.dump v).sorted := by
          rw [hlookup name hown, Fields.dump, if_neg hexcludes, List.lookup_cons_self,
            Option.map_some]
        simp only [Fields.validate, hfound, hnone, Option.bind_none]
      · exact hrest ⟨u, hu, hlong⟩

end

/-- A payload is read back, as an instance with the same payload, exactly if every address in it
fits. -/
theorem validate_payload (hwell : type.WellFormed) (hv : type.HasType lib v) :
    (∃ w, type.validate lib (type.dump v).sorted = some w ∧
        (type.dump w).sorted = (type.dump v).sorted) ↔ ∀ u ∈ type.urls v, urlFits u = true := by
  constructor
  · rintro ⟨w, hw, -⟩ u hu
    by_contra hlong
    rw [validate_eq_none type hwell hv ⟨u, hu, by simpa using hlong⟩] at hw
    cases hw
  · exact validate_dump type hwell hv

end

end PokerDeliberation.Lib.Records
