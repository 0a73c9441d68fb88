import PokerDeliberation.Phases.Scanning

/-!
# What the scanner finds

The scanner finds a secret in a payload whose every record it reaches whole and
whose secrets it looks for. It does not reach a record behind one that holds a
line break of the language inside of a string (`Seen`), and in keys it does not
look for what it looks for in other strings.
-/

namespace PokerDeliberation.Phases

open Lib Lib.Utf8 Storage

section

variable {p q : Prop} {x y : Except ScanFailure Unit} {α : Type}

/-- A scan that detects a secret exactly where there is one. -/
def Detects (p : Prop) (x : Except ScanFailure Unit) : Prop :=
  p ∧ x = .error .secretDetected ∨ ¬ p ∧ x = .ok ()

theorem detects_ok (h : ¬ p) : Detects p (.ok ()) := .inr ⟨h, rfl⟩

theorem Detects.congr (h : Detects p x) (hiff : p ↔ q) : Detects q x := by
  unfold Detects at h ⊢
  rwa [← hiff]

theorem detects_require {b : Bool} : Detects (b = true) (require (b = false) .secretDetected) := by
  cases b
  · exact .inr ⟨by decide, rfl⟩
  · exact .inl ⟨rfl, rfl⟩

/-- Two scans in sequence. -/
theorem Detects.bind (hx : Detects p x) (hy : Detects q y) :
    Detects (p ∨ q) (x >>= fun _ => y) := by
  rcases hx with ⟨hp, rfl⟩ | ⟨hp, rfl⟩
  · exact .inl ⟨.inl hp, rfl⟩
  · exact hy.congr ⟨.inr, fun h => h.resolve_left hp⟩

/-- A scan for less detects what there is, if that is all of it. -/
theorem Detects.iff_of_imp (h : Detects p x) (hpq : p → q) : Detects q x ↔ (q → p) := by
  rcases h with ⟨hp, rfl⟩ | ⟨hp, rfl⟩
  · exact ⟨fun _ _ => hp, fun _ => .inl ⟨hpq hp, rfl⟩⟩
  · constructor
    · rintro (⟨-, hok⟩ | ⟨hq, -⟩) hq'
      · cases hok
      · exact absurd hq' hq
    · exact fun hqp => .inr ⟨fun hq => hp (hqp hq), rfl⟩

theorem not_detects_unsupported : ¬ Detects p (.error .unsupportedPayload) := by
  rintro (⟨-, h⟩ | ⟨-, h⟩) <;> cases h

end

/-! ## Values -/

section

variable (u : Unicode) {F : Type}

/-- What the scanner looks for in a value. -/
def Caught (v : Json.Value F) : Prop :=
  (∃ key ∈ v.keys, keyShape key = true) ∨ ∃ s ∈ v.texts, valueShape u s = true

/-- A key has the shape that is looked for in other strings. -/
def SecretKey (v : Json.Value F) : Prop := ∃ key ∈ v.keys, valueShape u key = true

/-- Some key or some other string has a secret shape. -/
def HasSecret (v : Json.Value F) : Prop :=
  (∃ key ∈ v.keys, keyShape key = true ∨ valueShape u key = true) ∨
    ∃ s ∈ v.texts, valueShape u s = true

variable {u} {v : Json.Value F} {xs : List (Json.Value F)} {items : List (Text × Json.Value F)}

theorem hasSecret_iff : HasSecret u v ↔ Caught u v ∨ SecretKey u v := by
  unfold HasSecret Caught SecretKey
  simp only [and_or_left, exists_or]
  exact or_right_comm

theorem caught_arr : Caught u (.arr xs) ↔ ∃ x ∈ xs, Caught u x := by
  unfold Caught
  simp only [Json.Value.mem_keys_arr, Json.Value.texts, Json.Value.mem_textsAll]
  constructor
  · rintro (⟨key, ⟨x, hx, hkey⟩, hshape⟩ | ⟨s, ⟨x, hx, hs⟩, hshape⟩)
    · exact ⟨x, hx, .inl ⟨key, hkey, hshape⟩⟩
    · exact ⟨x, hx, .inr ⟨s, hs, hshape⟩⟩
  · rintro ⟨x, hx, ⟨key, hkey, hshape⟩ | ⟨s, hs, hshape⟩⟩
    · exact .inl ⟨key, ⟨x, hx, hkey⟩, hshape⟩
    · exact .inr ⟨s, ⟨x, hx, hs⟩, hshape⟩

theorem caught_obj : Caught u (.obj items) ↔ ∃ x ∈ items, keyShape x.1 = true ∨ Caught u x.2 := by
  unfold Caught
  simp only [Json.Value.mem_keys_obj, Json.Value.texts, Json.Value.mem_textsItems]
  constructor
  · rintro (⟨key, ⟨x, hx, rfl | hkey⟩, hshape⟩ | ⟨s, ⟨x, hx, hs⟩, hshape⟩)
    · exact ⟨x, hx, .inl hshape⟩
    · exact ⟨x, hx, .inr (.inl ⟨key, hkey, hshape⟩)⟩
    · exact ⟨x, hx, .inr (.inr ⟨s, hs, hshape⟩)⟩
  · rintro ⟨x, hx, hshape | ⟨key, hkey, hshape⟩ | ⟨s, hs, hshape⟩⟩
    · exact .inl ⟨x.1, ⟨x, hx, .inl rfl⟩, hshape⟩
    · exact .inl ⟨key, ⟨x, hx, .inr hkey⟩, hshape⟩
    · exact .inr ⟨s, ⟨x, hx, hs⟩, hshape⟩

theorem scanAll_detects (h : ∀ x ∈ xs, Detects (Caught u x) (scanValue u x)) :
    Detects (∃ x ∈ xs, Caught u x) (scanAll u xs) := by
  induction xs with
  | nil => exact detects_ok (by simp)
  | cons x xs ih =>
    obtain ⟨hx, hxs⟩ := List.forall_mem_cons.1 h
    exact (hx.bind (ih hxs)).congr (by simp)

theorem scanItems_detects (h : ∀ x ∈ items, Detects (Caught u x.2) (scanValue u x.2)) :
    Detects (∃ x ∈ items, keyShape x.1 = true ∨ Caught u x.2) (scanItems u items) := by
  induction items with
  | nil => exact detects_ok (by simp)
  | cons x items ih =>
    obtain ⟨hx, hitems⟩ := List.forall_mem_cons.1 h
    exact (detects_require.bind (hx.bind (ih hitems))).congr (by simp [or_assoc])

theorem scanValue_detects (v : Json.Value F) : Detects (Caught u v) (scanValue u v) := by
  induction v using Json.Value.induction_depth with
  | step v ih =>
    cases v with
    | null | bool | int | float =>
      exact detects_ok (by simp [Caught, Json.Value.keys, Json.Value.objects, Json.Value.texts])
    | str s =>
      exact detects_require.congr
        (by simp [Caught, Json.Value.keys, Json.Value.objects, Json.Value.texts])
    | arr xs =>
      exact (scanAll_detects fun x hx => ih x (Json.Value.depth_lt_arr hx)).congr caught_arr.symm
    | obj items =>
      exact (scanItems_detects fun x hx => ih x.2 (Json.Value.depth_lt_obj hx)).congr
        caught_obj.symm

end

/-! ## Records -/

section

variable {F : Type} {lib : Library F} {v : Json.Value F} {vs : List (Json.Value F)}
variable {t p rest : Text} {ts : List Text} {c : Nat} {data : List UInt8}

/-- `t` is the text of a canonical record. -/
def Written (lib : Library F) (v : Json.Value F) (t : Text) : Prop :=
  ∃ data, encode t = some data ∧ parseCanonicalJson lib data = .ok v

/-- A string holds a character that ends a line and is not written as an escape. -/
def Broken (v : Json.Value F) : Prop := ∃ s ∈ v.strings, ∃ c ∈ s, c ∈ [0x85, 0x2028, 0x2029]

/-- The canonical bytes of a value are its text. -/
theorem parseCanonicalJson_written (h : parseCanonicalJson lib data = .ok v) :
    ∃ t, encode t = some data ∧ Json.dumps lib.numbers v = some t := by
  simp only [parseCanonicalJson, bind_eq_ok, pure_eq_ok, require_eq_ok] at h
  obtain ⟨-, -, -, -, -, -, value, -, again, hagain, -, rfl, rfl⟩ := h
  obtain ⟨-, -, t, hdumps, hencode⟩ := canonicalJsonBytes_eq_ok.1 hagain
  exact ⟨t, hencode, hdumps⟩

theorem Written.render (h : Written lib v t) : Json.render lib.numbers v.sorted = some t := by
  obtain ⟨data, hdata, hparse⟩ := h
  obtain ⟨u, hu, hdumps⟩ := parseCanonicalJson_written hparse
  have heq : t = u := Option.some.inj
    ((decode_eq_some_iff.2 hdata).symm.trans (decode_eq_some_iff.2 hu))
  rw [heq]
  exact hdumps

theorem not_isPlain_of_isLineBreak (h : isLineBreak c = true) : Json.isPlain c = false := by
  simp only [isLineBreak, List.mem_cons, List.not_mem_nil, or_false, decide_eq_true_eq] at h
  rcases h with rfl | rfl | rfl | rfl | rfl | rfl | rfl | rfl | rfl | rfl <;> rfl

/-- The text of a record holds a line break where one of its strings does. -/
theorem Written.broken_iff (h : Written lib v t) :
    Broken v ↔ ∃ c ∈ t, isLineBreak c = true := by
  have hmem := fun {c} (hc : isLineBreak c = true) =>
    Json.mem_render h.render (not_isPlain_of_isLineBreak hc)
  constructor
  · rintro ⟨s, hs, c, hcs, hc⟩
    have hbreak : isLineBreak c = true ∧ 0x7f ≤ c := by
      simp only [List.mem_cons, List.not_mem_nil, or_false] at hc
      rcases hc with rfl | rfl | rfl <;> decide
    exact ⟨c, (hmem hbreak.1).2 ⟨hbreak.2, s, Json.Value.mem_strings_sorted.2 hs, hcs⟩, hbreak.1⟩
  · rintro ⟨c, hct, hbreak⟩
    obtain ⟨hhigh, s, hs, hcs⟩ := (hmem hbreak).1 hct
    refine ⟨s, Json.Value.mem_strings_sorted.1 hs, c, hcs, ?_⟩
    simp only [isLineBreak, List.mem_cons, List.not_mem_nil, or_false, decide_eq_true_eq] at hbreak ⊢
    omega

theorem Written.ne_nil (h : Written lib v t) : t ≠ [] := by
  obtain ⟨c, u, rfl, -⟩ := Json.render_opens h.render
  exact List.cons_ne_nil _ _

theorem Written.scanLine_detects (h : Written lib v t) :
    Detects (Caught lib.unicode v) (scanLine lib t) := by
  obtain ⟨data, hdata, hparse⟩ := h
  have hscan : scanLine lib t = scanValue lib.unicode v := by
    simp only [scanLine, hdata, scanJson, hparse, Except.mapError, bind, Except.bind]
  rw [hscan]
  exact scanValue_detects v

/-- What stands before a line break in a record is not parsed. -/
theorem Written.scanLine_front (h : Written lib v (p ++ c :: rest)) (hc : isLineBreak c = true) :
    p ≠ [] ∧ scanLine lib p = .error .unsupportedPayload := by
  have hplain := not_isPlain_of_isLineBreak hc
  constructor
  · rintro rfl
    have hwalk := Json.walk_render h.render
    have hquote : c ≠ Json.QUOTE := by
      rintro rfl
      cases hplain
    simp [Json.walk, Json.Place.next, hquote, hplain] at hwalk
  · unfold scanLine
    cases hdata : encode p with
    | none => rfl
    | some data =>
      cases hparse : parseCanonicalJson lib data with
      | error e => simp only [scanJson, hparse, Except.mapError, bind, Except.bind]
      | ok w =>
        have hfront : Written lib w p := ⟨data, hdata, hparse⟩
        exact (Json.not_render_prefix h.render hfront.render hplain).elim

/-! ## Lines -/

/-- The records a line break of its own hides come after one with a secret. -/
def Seen (u : Unicode) (vs : List (Json.Value F)) : Prop :=
  ∀ front v back, vs = front ++ v :: back → Broken v → ∃ w ∈ front, Caught u w

theorem seen_nil {u : Unicode} : Seen u ([] : List (Json.Value F)) := by
  intro front v back h
  exact absurd h.symm (by simp)

theorem seen_cons {u : Unicode} : Seen u (v :: vs) ↔ ¬ Broken v ∧ (Caught u v ∨ Seen u vs) := by
  constructor
  · intro h
    refine ⟨fun hbroken => ?_, ?_⟩
    · obtain ⟨w, hw, -⟩ := h [] v vs rfl hbroken
      cases hw
    · by_cases hcaught : Caught u v
      · exact .inl hcaught
      · refine .inr fun front w back heq hbroken => ?_
        obtain ⟨x, hx, hsecret⟩ := h (v :: front) w back (by rw [heq]; rfl) hbroken
        rcases List.mem_cons.1 hx with rfl | hx
        · exact absurd hsecret hcaught
        · exact ⟨x, hx, hsecret⟩
  · rintro ⟨hwhole, h⟩ front w back heq hbroken
    cases front with
    | nil =>
      obtain ⟨rfl, -⟩ := List.cons.inj heq
      exact absurd hbroken hwhole
    | cons first front =>
      obtain ⟨rfl, rfl⟩ := List.cons.inj heq
      rcases h with hcaught | hseen
      · exact ⟨v, List.mem_cons_self, hcaught⟩
      · obtain ⟨x, hx, hsecret⟩ := hseen front w back rfl hbroken
        exact ⟨x, List.mem_cons_of_mem _ hx, hsecret⟩

/-- The lines of a JSONL payload. -/
def scanLines (lib : Library F) (t : Text) : Except ScanFailure Unit :=
  ((splitlines t).filter (· ≠ [])).forM (scanLine lib)

/-- A line that is not empty is scanned first. -/
theorem scanLines_cons {lines : List Text} (h : splitlines t = p :: lines) (hp : p ≠ []) :
    scanLines lib t = scanLine lib p >>= fun _ =>
      (lines.filter (· ≠ [])).forM (scanLine lib) := by
  rw [scanLines, h, List.filter_cons_of_pos (by simpa using hp)]
  rfl

theorem scanLines_record (h : Written lib v t) (hwhole : ¬ Broken v) :
    scanLines lib (t ++ 0x0a :: rest) = scanLine lib t >>= fun _ => scanLines lib rest := by
  have hclean : ∀ d ∈ t, isLineBreak d = false := fun d hd =>
    Bool.eq_false_iff.2 fun hbreak => hwhole (h.broken_iff.2 ⟨d, hd, hbreak⟩)
  exact scanLines_cons (linesFrom_break hclean rfl) h.ne_nil

theorem scanLines_broken (h : Written lib v t) (hbroken : Broken v) (rest : Text) :
    scanLines lib (t ++ rest) = .error .unsupportedPayload := by
  obtain ⟨c, hc, hbreak⟩ := h.broken_iff.1 hbroken
  obtain ⟨c, hfirst⟩ := Option.isSome_iff_exists.1 (List.find?_isSome.2 ⟨c, hc, hbreak⟩)
  obtain ⟨hbreak, p, back, rfl, hbefore⟩ := List.find?_eq_some_iff_append.1 hfirst
  have hclean : ∀ d ∈ p, isLineBreak d = false := fun d hd => by simpa using hbefore d hd
  obtain ⟨hne, herror⟩ := h.scanLine_front hbreak
  obtain ⟨lines, hlines⟩ := @linesOf_head _ _ isLineBreak 0x0d 0x0a p (back ++ rest) c hclean hbreak
  rw [List.append_assoc, List.cons_append, scanLines_cons hlines hne, herror]
  rfl

theorem scanLines_detects (h : List.Forall₂ (Written lib) vs ts) (hseen : Seen lib.unicode vs) :
    Detects (∃ v ∈ vs, Caught lib.unicode v) (scanLines lib (ts.flatMap (· ++ [0x0a]))) := by
  induction h with
  | nil => exact detects_ok (by simp)
  | cons hv _ ih =>
    obtain ⟨hwhole, hrest⟩ := seen_cons.1 hseen
    rw [List.flatMap_cons, List.append_assoc, List.singleton_append, scanLines_record hv hwhole]
    rcases hv.scanLine_detects with ⟨hcaught, herror⟩ | ⟨hclean, hok⟩
    · rw [herror]
      exact .inl ⟨⟨_, List.mem_cons_self, hcaught⟩, rfl⟩
    · rw [hok]
      exact (ih (hrest.resolve_left hclean)).congr (by simp [hclean])

theorem scanLines_unseen (h : List.Forall₂ (Written lib) vs ts) (hunseen : ¬ Seen lib.unicode vs) :
    scanLines lib (ts.flatMap (· ++ [0x0a])) = .error .unsupportedPayload := by
  induction h with
  | nil => exact absurd seen_nil hunseen
  | @cons v t vs ts hv _ ih =>
    rw [List.flatMap_cons, List.append_assoc]
    by_cases hbroken : Broken v
    · exact scanLines_broken hv hbroken _
    · obtain ⟨hclean, hrest⟩ : ¬ Caught lib.unicode v ∧ ¬ Seen lib.unicode vs := by
        rw [seen_cons] at hunseen
        exact not_or.1 fun h => hunseen ⟨hbroken, h⟩
      have hok : scanLine lib t = .ok () :=
        (hv.scanLine_detects.resolve_left fun h => hclean h.1).2
      rw [List.singleton_append, scanLines_record hv hbroken, hok]
      exact ih hrest

/-- The canonical parser cuts a JSONL payload into the texts of its records. -/
theorem parseCanonicalJsonl_written {schema : Json.Value F → Bool}
    (h : parseCanonicalJsonl lib schema data = .ok vs) :
    ∃ ts, List.Forall₂ (Written lib) vs ts ∧ encode (ts.flatMap (· ++ [0x0a])) = some data := by
  have hrecords : ∀ {lines : List (List UInt8)},
      List.Forall₂ (fun line v => parseCanonicalModel lib schema line = .ok v) lines vs →
      ∃ ts, List.Forall₂ (Written lib) vs ts ∧
        encode (ts.flatMap (· ++ [0x0a])) = some (lines.flatMap (· ++ [LF_BYTE])) := by
    intro lines hlines
    clear h
    induction hlines with
    | nil => exact ⟨[], .nil, rfl⟩
    | @cons line v lines vs hline _ ih =>
      simp only [parseCanonicalModel, bind_eq_ok, pure_eq_ok] at hline
      obtain ⟨w, hparse, -, -, rfl⟩ := hline
      obtain ⟨t, ht, -⟩ := parseCanonicalJson_written hparse
      obtain ⟨ts, hts, hencode⟩ := ih
      refine ⟨t :: ts, .cons ⟨line, ht, hparse⟩ hts, ?_⟩
      rw [List.flatMap_cons, List.flatMap_cons]
      exact encode_append (encode_append ht rfl) hencode
  unfold parseCanonicalJsonl at h
  split at h
  · rename_i hempty
    cases h
    exact ⟨[], .nil, by rw [hempty]; rfl⟩
  · simp only [bind_eq_ok, require_eq_ok, mapM_eq_ok] at h
    obtain ⟨-, ⟨-, -, hlast⟩, -, -, hlines⟩ := h
    obtain ⟨ts, hts, hencode⟩ := hrecords hlines
    refine ⟨ts, hts, hencode.trans ?_⟩
    rw [jsonlLines, flatMap_splitOn hlast]

end

/-! ## Artifacts -/

section

variable {F : Type} {lib : Library F} {contracts : Contracts F} {artifact : RevisionArtifactV1}
variable {payload : Payload F} {maxArtifactBytes : Nat} {name : Text}

/-- A row is of a fixed artifact with its version, or of a JSON artifact. -/
theorem artifactTableEntry_row {u : Unicode} {version : Option String} {row : ArtifactTableValue}
    (h : artifactTableEntry u name version = .ok row) :
    (∃ fixed ∈ fixedArtifactTable, text fixed.1 = name ∧
        row.mediaType = fixed.2.mediaType ∧ row.serialization = fixed.2.serialization) ∨
      (∀ fixed ∈ fixedArtifactTable, text fixed.1 ≠ name) ∧
        row.mediaType = .json ∧ row.serialization = .storageJson := by
  have hversioned : ∀ {fixed row : ArtifactTableValue}, fixed.versioned version = .ok row →
      row = fixed := by
    intro fixed row hrow
    simp only [ArtifactTableValue.versioned, require_bind_eq_ok, pure_eq_ok] at hrow
    exact hrow.2.symm
  simp only [artifactTableEntry, check_bind_eq_ok] at h
  obtain ⟨-, h⟩ := h
  split at h
  · rename_i fixedName fixed hfind
    have hmem := List.mem_of_find?_eq_some hfind
    have hname : text fixedName = name := by simpa using List.find?_some hfind
    refine .inl ⟨(fixedName, fixed), hmem, hname, ?_⟩
    split at h
    · split at h
      · cases h
        exact ⟨rfl, rfl⟩
      · split at h
        · cases h
          exact ⟨rfl, rfl⟩
        · cases h
    · rw [hversioned h]
      exact ⟨rfl, rfl⟩
  · rename_i hfind
    refine .inr ⟨fun fixed hfixed => by simpa using List.find?_eq_none.1 hfind fixed hfixed, ?_⟩
    split at h
    · rename_i kind identifier hkind
      obtain ⟨-, hrow⟩ := check_bind_eq_ok.1 h
      obtain ⟨found, hfound, hsome⟩ := List.exists_of_findSome?_eq_some hkind
      obtain ⟨own, -, heq⟩ := Option.map_eq_some_iff.1 hsome
      obtain ⟨rfl, rfl⟩ := Prod.mk.inj heq
      rw [hversioned hrow]
      simp only [List.mem_cons, List.not_mem_nil, or_false] at hfound
      rcases hfound with rfl | rfl | rfl <;> exact ⟨rfl, rfl⟩
    · cases h

/-- What a payload is parsed as fits its media type and serialization. -/
def StoredAs (lib : Library F) (artifact : RevisionArtifactV1) : Payload F → Prop
  | .json v => artifact.mediaType = .json ∧ artifact.serialization = .storageJson ∧
      parseCanonicalJson lib artifact.exactBytes = .ok v
  | .jsonl vs => artifact.mediaType = .ndjson ∧ artifact.serialization = .storageJsonl ∧
      ∃ schema, parseCanonicalJsonl lib schema artifact.exactBytes = .ok vs
  | .text t => (artifact.mediaType = .markdown ∨ artifact.mediaType = .plain) ∧
      artifact.serialization = .storageText ∧ decode artifact.exactBytes = some t

theorem text_rows : ∀ fixed ∈ fixedArtifactTable, fixed.1 ∈ textArtifacts →
    (fixed.2.mediaType = .markdown ∨ fixed.2.mediaType = .plain) ∧
      fixed.2.serialization = .storageText := by decide

theorem text_listed : ∀ name ∈ textArtifacts ++ ["evidence.jsonl"],
    ∃ fixed ∈ fixedArtifactTable, fixed.1 = name := by decide

theorem model_rows : ∀ fixed ∈ fixedArtifactTable, fixed.1 ∉ textArtifacts →
    fixed.1 ≠ "evidence.jsonl" →
    fixed.2.mediaType = .json ∧ fixed.2.serialization = .storageJson := by decide

theorem jsonl_rows : ∀ fixed ∈ fixedArtifactTable, fixed.1 = "evidence.jsonl" →
    fixed.2.mediaType = .ndjson ∧ fixed.2.serialization = .storageJsonl := by decide

theorem validatedPayload_stored {row : ArtifactTableValue} {version : Option String}
    (hrow : artifactTableEntry lib.unicode (text artifact.logicalName) version = .ok row)
    (hmedia : row.mediaType = artifact.mediaType)
    (hserialization : row.serialization = artifact.serialization)
    (h : validatedPayload lib contracts artifact = .ok payload) : StoredAs lib artifact payload := by
  have hlisted := artifactTableEntry_row hrow
  rw [hmedia, hserialization] at hlisted
  have hjson : artifact.logicalName ∉ textArtifacts → artifact.logicalName ≠ "evidence.jsonl" →
      artifact.mediaType = .json ∧ artifact.serialization = .storageJson := by
    intro htext hjsonl
    rcases hlisted with ⟨fixed, hfixed, hname, hm, hs⟩ | ⟨-, hrows⟩
    · have hown := text_injective hname
      rw [hm, hs]
      exact model_rows fixed hfixed (hown ▸ htext) (hown ▸ hjsonl)
    · exact hrows
  have hfixed : artifact.logicalName ∈ textArtifacts ++ ["evidence.jsonl"] →
      ∃ fixed ∈ fixedArtifactTable, fixed.1 = artifact.logicalName ∧
        artifact.mediaType = fixed.2.mediaType ∧ artifact.serialization = fixed.2.serialization := by
    intro hname
    rcases hlisted with ⟨fixed, hfixed, hown, hrows⟩ | ⟨hnone, -⟩
    · exact ⟨fixed, hfixed, text_injective hown, hrows⟩
    · obtain ⟨fixed, hfixed, hown⟩ := text_listed _ hname
      exact absurd (congrArg text hown) (hnone fixed hfixed)
  have hmodel : ∀ {v : Json.Value F},
      parseCanonicalModel lib (contracts.schema artifact.logicalName) artifact.exactBytes = .ok v →
      parseCanonicalJson lib artifact.exactBytes = .ok v := by
    intro v hv
    simp only [parseCanonicalModel, bind_eq_ok, pure_eq_ok] at hv
    obtain ⟨w, hparse, -, -, rfl⟩ := hv
    exact hparse
  simp only [validatedPayload] at h
  split at h
  · rename_i htext
    simp only [bind_eq_ok, pure_eq_ok, validateCanonicalText, require_eq_ok] at h
    obtain ⟨t, ⟨-, -, hdecode⟩, rfl⟩ := h
    obtain ⟨fixed, hmem, hown, hm, hs⟩ := hfixed (List.mem_append_left _ htext)
    have hrows := text_rows fixed hmem (hown ▸ htext)
    exact ⟨hm ▸ hrows.1, hs ▸ hrows.2, (decodeNfc_eq_ok.1 hdecode).1⟩
  · rename_i htext
    split at h
    · rename_i hname
      obtain ⟨v, hv, heq⟩ := bind_eq_ok.1 h
      cases heq
      have hne : artifact.logicalName ≠ "evidence.jsonl" := by
        intro heq
        rw [heq] at hname
        revert hname
        decide
      exact ⟨(hjson htext hne).1, (hjson htext hne).2, hmodel hv⟩
    · split at h
      · rename_i hname
        obtain ⟨vs, hvs, heq⟩ := bind_eq_ok.1 h
        cases heq
        obtain ⟨fixed, hmem, hown, hm, hs⟩ :=
          hfixed (List.mem_append_right _ (by rw [hname]; exact List.mem_singleton_self _))
        have hrows := jsonl_rows fixed hmem (hown.trans hname)
        exact ⟨hm.trans hrows.1, hs.trans hrows.2, _, hvs⟩
      · rename_i hne
        have hrows := hjson htext hne
        split at h
        · obtain ⟨v, hv, heq⟩ := bind_eq_ok.1 h
          cases heq
          exact ⟨hrows.1, hrows.2, hmodel hv⟩
        · split at h
          · obtain ⟨v, hv, heq⟩ := bind_eq_ok.1 h
            cases heq
            exact ⟨hrows.1, hrows.2, hmodel hv⟩
          · split at h
            · simp only [bind_eq_ok, pure_eq_ok] at h
              obtain ⟨v, hv, -, -, rfl⟩ := h
              exact ⟨hrows.1, hrows.2, hv⟩
            · cases h

theorem validateArtifact_stored
    (h : validateArtifact lib contracts artifact maxArtifactBytes = .ok payload) :
    StoredAs lib artifact payload := by
  obtain ⟨hrow, -, -, -, -, hpayload⟩ := (validateArtifact_eq_ok lib contracts artifact).1 h
  exact validatedPayload_stored hrow rfl rfl hpayload

/-- What is admitted is scanned as its media type says: its size and its classification pass. -/
theorem scanArtifact_admitted {t : Text}
    (h : validateArtifact lib contracts artifact maxArtifactBytes = .ok payload)
    (ht : decode artifact.exactBytes = some t) :
    scanArtifact lib artifact maxArtifactBytes = scanPayload lib artifact t := by
  obtain ⟨-, -, hsize, hclass, -, -⟩ := (validateArtifact_eq_ok lib contracts artifact).1 h
  simp only [classifyAndVerify, bind_eq_ok, require_eq_ok, mapError_eq_ok] at hclass
  obtain ⟨-, -, outcome, houtcome, -, rfl, -, hpublic, -, -, hcompleted, hclean⟩ := hclass
  have hsources : ∀ source ∈ artifact.classificationEvidence.sourceClassifications,
      source ∉ [LocalData.ContextClassification.sensitive, .restricted] := by
    intro source hsource hmem
    have hfloor := LocalData.classificationOutcome_floor houtcome source hsource
    revert hfloor hmem hpublic
    cases artifact.classification <;> cases source <;> decide
  rw [scanArtifact, require_of hsize, bind_ok_left rfl, ht]
  exact bind_ok_left (require_of ⟨hpublic, hcompleted, hclean, hsources⟩)

theorem scanArtifact_json {v : Json.Value F}
    (h : validateArtifact lib contracts artifact maxArtifactBytes = .ok (.json v)) :
    scanArtifact lib artifact maxArtifactBytes = scanValue lib.unicode v := by
  obtain ⟨hmedia, hserialization, hparse⟩ := validateArtifact_stored h
  obtain ⟨t, ht, -⟩ := parseCanonicalJson_written hparse
  rw [scanArtifact_admitted h (decode_eq_some_iff.2 ht)]
  simp only [scanPayload, hmedia, hserialization, scanJson, hparse, Except.mapError, bind,
    Except.bind]

theorem scanArtifact_jsonl {vs : List (Json.Value F)}
    (h : validateArtifact lib contracts artifact maxArtifactBytes = .ok (.jsonl vs)) :
    ∃ ts, List.Forall₂ (Written lib) vs ts ∧
      scanArtifact lib artifact maxArtifactBytes = scanLines lib (ts.flatMap (· ++ [0x0a])) := by
  obtain ⟨hmedia, hserialization, schema, hparse⟩ := validateArtifact_stored h
  obtain ⟨ts, hts, ht⟩ := parseCanonicalJsonl_written hparse
  refine ⟨ts, hts, ?_⟩
  rw [scanArtifact_admitted h (decode_eq_some_iff.2 ht)]
  simp only [scanPayload, hmedia, hserialization]
  rfl

/-- What a payload is parsed as has a secret shape somewhere. -/
def PayloadSecret (lib : Library F) : Payload F → Prop
  | .json v => HasSecret lib.unicode v
  | .jsonl vs => ∃ v ∈ vs, HasSecret lib.unicode v
  | .text t => valueShape lib.unicode t = true

/-- The scanner reaches the secrets of a payload: a key with the shape of a secret string does
not stand alone, no record is cut before a secret is found, and the text is no plain text. -/
def Reached (lib : Library F) (artifact : RevisionArtifactV1) : Payload F → Prop
  | .json v => SecretKey lib.unicode v → Caught lib.unicode v
  | .jsonl vs => Seen lib.unicode vs ∧
      ((∃ v ∈ vs, SecretKey lib.unicode v) → ∃ v ∈ vs, Caught lib.unicode v)
  | .text _ => artifact.mediaType = .markdown

/-- The scan of an admitted artifact is exact where it reaches the secrets of the payload. -/
theorem scanArtifact_detects_iff
    (h : validateArtifact lib contracts artifact maxArtifactBytes = .ok payload) :
    Detects (PayloadSecret lib payload) (scanArtifact lib artifact maxArtifactBytes) ↔
      Reached lib artifact payload := by
  cases payload with
  | json v =>
    rw [scanArtifact_json h]
    refine ((scanValue_detects v).iff_of_imp fun hcaught => hasSecret_iff.2 (.inl hcaught)).trans ?_
    constructor
    · exact fun himp hkey => himp (hasSecret_iff.2 (.inr hkey))
    · exact fun himp hsecret => (hasSecret_iff.1 hsecret).elim id himp
  | jsonl vs =>
    obtain ⟨ts, hts, hscan⟩ := scanArtifact_jsonl h
    rw [hscan]
    by_cases hseen : Seen lib.unicode vs
    · refine ((scanLines_detects hts hseen).iff_of_imp ?_).trans ?_
      · rintro ⟨v, hv, hcaught⟩
        exact ⟨v, hv, hasSecret_iff.2 (.inl hcaught)⟩
      · constructor
        · refine fun himp => ⟨hseen, ?_⟩
          rintro ⟨v, hv, hkey⟩
          exact himp ⟨v, hv, hasSecret_iff.2 (.inr hkey)⟩
        · rintro ⟨-, himp⟩ ⟨v, hv, hsecret⟩
          rcases hasSecret_iff.1 hsecret with hcaught | hkey
          · exact ⟨v, hv, hcaught⟩
          · exact himp ⟨v, hv, hkey⟩
    · rw [scanLines_unseen hts hseen]
      exact ⟨fun hdetects => (not_detects_unsupported hdetects).elim,
        fun hreached => absurd hreached.1 hseen⟩
  | text t =>
    obtain ⟨hmedia, hserialization, ht⟩ := validateArtifact_stored h
    rw [scanArtifact_admitted h ht]
    rcases hmedia with hmedia | hmedia
    · simp only [scanPayload, hmedia, hserialization, Reached, iff_true]
      exact detects_require
    · simp only [scanPayload, hmedia, Reached]
      exact ⟨fun hdetects => (not_detects_unsupported hdetects).elim,
        fun hmarkdown => absurd hmarkdown (by decide)⟩

end

/-! ## A cut record -/

def sampleContracts : Contracts Unit where
  schema := fun _ _ => true
  bound := fun _ => true

def sampleRecord (summary : Text) : Json.Value Unit := .obj
  [(text "accessed_date", .str (text "2026-07-01")), (text "evidence_id", .str (text "evidence-1")),
    (text "identifier", .str (text "input-1")), (text "limitations", .arr []),
    (text "organization_or_author", .str (text "player")), (text "publication_date", .null),
    (text "source_tier", .int 1), (text "source_title", .str (text "note")),
    (text "source_type", .str (text "input")), (text "summary", .str summary),
    (text "supported_claim_ids", .arr []), (text "url", .null)]

/-- The canonical bytes of a value. -/
def sampleBytes (v : Json.Value Unit) : List UInt8 :=
  ((Json.dumps sampleLibrary.numbers v).bind encode).getD []

theorem no_sources_sorted :
    ([] : List LocalData.ContextClassification) = [].insertionSort (fun a b => a.rank ≤ b.rank) := by
  simp

/-- A trusted internal artifact. -/
def sampleArtifact (logicalName artifactSchemaVersion originKind : String) (mediaType : MediaType)
    (serialization : Serialization) (exactBytes : List UInt8) : RevisionArtifactV1 where
  logicalName
  mediaType
  artifactSchemaVersion
  serialization
  exactBytes
  classification := .internal
  classificationSource := .explicitTrusted
  classificationEvidence :=
    { explicitClassification := some .internal
      explicitSourceTrusted := true
      restrictedSecretCheckCompleted := true
      sources_unique := List.nodup_nil
      sources_sorted := no_sources_sorted }
  originKind

/-- A record whose summary holds a line separator. -/
def separatedRecord : Json.Value Unit := sampleRecord (text "first" ++ 0x2028 :: text "second")

def separatedEvidence : RevisionArtifactV1 :=
  sampleArtifact "evidence.jsonl" "poker-evidence-record-jsonl-artifact-v1" "evidence_ledger" .ndjson
    .storageJsonl (sampleBytes separatedRecord ++ [LF_BYTE])

def sampleInput (v : Json.Value Unit) : RevisionArtifactV1 :=
  sampleArtifact "tool_results/result-1.input.json" "poker-tool-input-artifact-v1" "tool_input" .json
    .storageJson (sampleBytes v)

theorem separatedEvidence_admitted : validateArtifact sampleLibrary sampleContracts separatedEvidence
    4096 = .ok (.jsonl [separatedRecord]) := by
  have hbytes : canonicalJsonBytes sampleLibrary separatedRecord = .ok (sampleBytes separatedRecord) := by
    decide +kernel
  have hparse : parseCanonicalJson sampleLibrary (sampleBytes separatedRecord) = .ok separatedRecord :=
    parseCanonicalJson_canonicalJsonBytes hbytes rfl (by decide) fun _ _ => rfl
  have hlines : jsonlLines separatedEvidence.exactBytes = [sampleBytes separatedRecord] := by
    decide +kernel
  have hrecords : parseCanonicalJsonl sampleLibrary (fun _ => true) separatedEvidence.exactBytes =
      .ok [separatedRecord] := by
    unfold parseCanonicalJsonl
    rw [if_neg (by decide +kernel), require_of (by decide +kernel), bind_ok_left rfl, hlines,
      require_of (by decide +kernel), bind_ok_left rfl]
    simp only [List.mapM_cons, List.mapM_nil, parseCanonicalModel, hparse]
    rfl
  refine (validateArtifact_eq_ok _ _ _).2 ⟨by decide +kernel, by decide, by decide +kernel,
    by decide +kernel, rfl, ?_⟩
  unfold validatedPayload
  rw [if_neg (by decide), if_neg (by decide), if_pos (by decide)]
  exact bind_ok_left hrecords

/-- The input of a tool with one entry. -/
def secretKeyInput : RevisionArtifactV1 := sampleInput (.obj [(text "sk-abcdefgh12345678", .int 1)])

theorem secretKeyInput_admitted : validateArtifact sampleLibrary sampleContracts secretKeyInput 4096 =
    .ok (.json (.obj [(text "sk-abcdefgh12345678", .int 1)])) := by
  have hbytes : canonicalJsonBytes sampleLibrary (.obj [(text "sk-abcdefgh12345678", .int 1)]) =
      .ok secretKeyInput.exactBytes := by decide +kernel
  refine (validateArtifact_eq_ok _ _ _).2 ⟨by decide +kernel, by decide, by decide +kernel,
    by decide +kernel, rfl, ?_⟩
  unfold validatedPayload
  rw [if_neg (by decide), if_neg (by decide), if_neg (by decide), if_neg (by decide +kernel),
    if_neg (by decide +kernel), if_pos (by decide +kernel)]
  exact bind_ok_left (parseCanonicalJson_canonicalJsonBytes hbytes rfl (by decide) fun _ _ => rfl)

/-- The scan of a key with the shape of a secret is not exact. -/
theorem scanArtifact_detects_iff_secretKey :
    ¬ Detects (PayloadSecret sampleLibrary (.json (.obj [(text "sk-abcdefgh12345678", .int 1)])))
      (scanArtifact sampleLibrary secretKeyInput 4096) := by
  rw [scanArtifact_detects_iff secretKeyInput_admitted]
  intro hreached
  obtain ⟨key, hkey, hshape⟩ | ⟨s, hs, -⟩ :=
    hreached ⟨_, List.mem_singleton_self _, by decide +kernel⟩
  · rw [List.mem_singleton.1 hkey] at hshape
    revert hshape
    decide +kernel
  · cases hs

/-- A record that holds a line separator is admitted and then refused by the scan, and a key
with the shape of a secret is admitted and let through. -/
theorem scanArtifact_misreads :
    (∃ payload, validateArtifact sampleLibrary sampleContracts separatedEvidence 4096 = .ok payload ∧
        scanArtifact sampleLibrary separatedEvidence 4096 = .error .unsupportedPayload ∧
        ¬ Detects (PayloadSecret sampleLibrary payload)
          (scanArtifact sampleLibrary separatedEvidence 4096)) ∧
      ∃ payload, validateArtifact sampleLibrary sampleContracts secretKeyInput 4096 = .ok payload ∧
        scanArtifact sampleLibrary secretKeyInput 4096 = .ok () ∧
        ¬ Detects (PayloadSecret sampleLibrary payload)
          (scanArtifact sampleLibrary secretKeyInput 4096) := by
  constructor
  · have hscan : scanArtifact sampleLibrary separatedEvidence 4096 = .error .unsupportedPayload := by
      obtain ⟨ts, hts, hscan⟩ := scanArtifact_jsonl separatedEvidence_admitted
      have hbroken : Broken separatedRecord :=
        ⟨text "first" ++ 0x2028 :: text "second", by decide, 0x2028, by decide, by decide⟩
      rw [hscan]
      refine scanLines_unseen hts fun hseen => ?_
      obtain ⟨w, hw, -⟩ := hseen [] separatedRecord [] rfl hbroken
      cases hw
    refine ⟨_, separatedEvidence_admitted, hscan, ?_⟩
    rw [hscan]
    exact not_detects_unsupported
  · have hscan : scanArtifact sampleLibrary secretKeyInput 4096 = .ok () := by
      rw [scanArtifact_json secretKeyInput_admitted]
      decide +kernel
    refine ⟨_, secretKeyInput_admitted, hscan, ?_⟩
    rw [hscan]
    rintro (⟨-, h⟩ | ⟨h, -⟩)
    · cases h
    · exact h (.inl ⟨_, List.mem_singleton_self _, .inr (by decide +kernel)⟩)

end PokerDeliberation.Phases
