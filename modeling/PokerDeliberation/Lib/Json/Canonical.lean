import PokerDeliberation.Lib.Codecs
import PokerDeliberation.Lib.Json.Quoted

/-!
# Canonical JSON

Bytes are canonical if they are what the writer gives for the value they are
read as. The reader decodes them, wants their text in normal form, takes no
dictionary with a key twice, and writes the value again to compare. A writer
that wants every string in normal form agrees with this reader (`agrees`).

A written value is plain text around the escaped forms of its strings
(`Around`). What holds of plain text, and of a text exactly if it holds of its
parts around a quotation mark, holds of a written value exactly if it holds of
the escaped form of every string in it.
-/

namespace PokerDeliberation.Lib.Json

/-! ## Texts around strings -/

/-- Plain text around the escaped forms of strings, in their order. -/
inductive Around : Text → List Text → Prop
  | plain {p : Text} (h : ∀ c ∈ p, c < 128) : Around p []
  | string {p s t : Text} {ss : List Text} (h : ∀ c ∈ p, c < 128) (ht : Around t ss) :
    Around (p ++ QUOTE :: (escaped s ++ QUOTE :: t)) (s :: ss)

section

variable {p s t u : Text} {ss us : List Text}

theorem Around.after_plain (hp : ∀ c ∈ p, c < 128) (h : Around t ss) : Around (p ++ t) ss := by
  cases h with
  | plain ht => exact .plain fun c hc => (List.mem_append.1 hc).elim (hp c) (ht c)
  | string hq ht =>
    rw [← List.append_assoc]
    exact .string (fun c hc => (List.mem_append.1 hc).elim (hp c) (hq c)) ht

theorem Around.append (ht : Around t ss) (hu : Around u us) : Around (t ++ u) (ss ++ us) := by
  induction ht with
  | plain hp => exact hu.after_plain hp
  | string hp _ ih =>
    simp only [List.append_assoc, List.cons_append]
    exact .string hp ih

theorem Around.cons {c : Nat} (hc : c < 128) (h : Around t ss) : Around (c :: t) ss :=
  h.after_plain (p := [c]) fun _ hd => List.mem_singleton.1 hd ▸ hc

theorem around_quoted (s : Text) : Around (quoted s) [s] :=
  .string (p := []) (fun _ hc => (List.not_mem_nil hc).elim) (.plain fun _ hc => (List.not_mem_nil hc).elim)

/-- A text is around strings if its parts are. -/
theorem around_joined {α : Type} {R : α → Text → Prop} {strings : α → List Text} {xs : List α}
    {parts : List Text} (h : List.Forall₂ R xs parts)
    (hparts : ∀ x ∈ xs, ∀ part, R x part → Around part (strings x)) :
    Around (joined parts) (xs.flatMap strings) := by
  induction h with
  | nil => exact .plain fun _ hc => (List.not_mem_nil hc).elim
  | @cons x part xs parts hx hxs ih =>
    obtain ⟨hown, hrest⟩ := List.forall_mem_cons.1 hparts
    have hjoined := ih hrest
    cases hxs with
    | nil => exact (List.append_nil part) ▸ (hown part hx).append hjoined
    | cons hy hys => exact (hown part hx).append (hjoined.cons (by decide))

/-- A property of texts that looks at the parts around quotation marks. -/
theorem Around.forall_iff {N : Text → Prop} (hplain : ∀ p : Text, (∀ c ∈ p, c < 128) → N p)
    (hquote : ∀ p t : Text, N (p ++ QUOTE :: t) ↔ N p ∧ N t) (h : Around t ss) :
    N t ↔ ∀ s ∈ ss, N (escaped s) := by
  induction h with
  | plain hp => simpa using hplain _ hp
  | string hp _ ih =>
    rw [hquote, hquote, ih, List.forall_mem_cons, and_iff_right (hplain _ hp)]

end

/-! ## Written values -/

section

variable {F : Type} {numbers : Numbers F} {v : Value F} {t : Text}

theorem Value.stringsAll_eq (xs : List (Value F)) : Value.stringsAll xs = xs.flatMap Value.strings := by
  induction xs with
  | nil => rfl
  | cons x xs ih => rw [Value.stringsAll, ih, List.flatMap_cons]

theorem Value.stringsItems_eq (items : List (Text × Value F)) :
    Value.stringsItems items = items.flatMap fun x => x.1 :: x.2.strings := by
  induction items with
  | nil => rfl
  | cons x items ih => rw [Value.stringsItems, ih, List.flatMap_cons, List.cons_append]

theorem Value.key_mem_strings {items : List (Text × Value F)} {x : Text × Value F}
    (hitems : items ∈ v.objects) (hx : x ∈ items) : x.1 ∈ v.strings := by
  induction v using Value.induction_depth with
  | step v ih =>
    cases v with
    | null | bool | int | float | str => cases hitems
    | arr xs =>
      obtain ⟨y, hy, hmem⟩ := Value.mem_objectsAll.1 hitems
      exact Value.mem_stringsAll.2 ⟨y, hy, ih y (Value.depth_lt_arr hy) hmem⟩
    | obj own =>
      rcases List.mem_cons.1 hitems with rfl | hitems
      · exact Value.mem_stringsItems.2 ⟨x, hx, .inl rfl⟩
      · obtain ⟨y, hy, hmem⟩ := Value.mem_objectsItems.1 hitems
        exact Value.mem_stringsItems.2 ⟨y, hy, .inr (ih y.2 (Value.depth_lt_obj hy) hmem)⟩

theorem ascii_of_numeric (h : ∀ c ∈ t, isNumeric c = true) : Around t [] := by
  refine .plain fun c hc => ?_
  have hplain := (isPlain_of_isNumeric (h c hc)).1
  simp only [isPlain, Bool.and_eq_true, decide_eq_true_eq] at hplain
  omega

/-- What is written for a value is plain but for its strings. -/
theorem around_render (h : render numbers v = some t) : Around t v.strings := by
  induction v using Value.induction_depth generalizing t with
  | step v ih =>
    cases v with
    | null =>
      cases h
      exact .plain (by decide)
    | bool b =>
      cases b <;> cases h <;> exact .plain (by decide)
    | int n =>
      simp only [render] at h
      split at h <;> cases h
      exact ascii_of_numeric fun c hc => isNumeric_of_scanNumber (scanNumber_intText n) hc
    | float x =>
      simp only [render] at h
      split at h <;> cases h
      rename_i hfinite
      exact ascii_of_numeric fun c hc => isNumeric_of_scanNumber (numbers.scan_repr hfinite) hc
    | str s =>
      cases h
      exact around_quoted s
    | arr xs =>
      obtain ⟨parts, hparts, rfl⟩ := Option.map_eq_some_iff.1 h
      have hjoined := around_joined (renderAll_eq_some.1 hparts)
        fun x hx part hpart => ih x (Value.depth_lt_arr hx) hpart
      have hwhole := (hjoined.append (.plain (p := [CLOSE_BRACKET]) (by decide))).cons (c := OPEN_BRACKET)
        (by decide)
      rwa [List.append_nil, ← Value.stringsAll_eq] at hwhole
    | obj items =>
      obtain ⟨parts, hparts, rfl⟩ := Option.map_eq_some_iff.1 h
      have hjoined : Around (joined parts) (items.flatMap fun x => x.1 :: x.2.strings) := by
        refine around_joined (renderItems_eq_some.1 hparts) fun x hx part hpart => ?_
        obtain ⟨u, hu, rfl⟩ := hpart
        exact (around_quoted x.1).append ((ih x.2 (Value.depth_lt_obj hx) hu).cons (by decide))
      have hwhole := (hjoined.append (.plain (p := [CLOSE_BRACE]) (by decide))).cons (c := OPEN_BRACE)
        (by decide)
      rwa [List.append_nil, ← Value.stringsItems_eq] at hwhole

end

/-! ## Floats -/

namespace Value

section

variable {F : Type}

mutual

/-- All floats of a value. -/
def floats : Value F → List F
  | .float x => [x]
  | .arr xs => floatsAll xs
  | .obj items => floatsItems items
  | .null | .bool _ | .int _ | .str _ => []

def floatsAll : List (Value F) → List F
  | [] => []
  | x :: xs => x.floats ++ floatsAll xs

def floatsItems : List (Text × Value F) → List F
  | [] => []
  | (_, x) :: items => x.floats ++ floatsItems items

end

variable {xs : List (Value F)} {items : List (Text × Value F)} {y : F}

theorem mem_floatsAll : y ∈ floatsAll xs ↔ ∃ x ∈ xs, y ∈ x.floats := by
  induction xs with
  | nil => simp [floatsAll]
  | cons x xs ih => simp [floatsAll, ih]

theorem mem_floatsItems : y ∈ floatsItems items ↔ ∃ x ∈ items, y ∈ x.2.floats := by
  induction items with
  | nil => simp [floatsItems]
  | cons x items ih =>
    obtain ⟨key, x⟩ := x
    simp [floatsItems, ih]

theorem mem_floats_sorted {v : Value F} : y ∈ v.sorted.floats ↔ y ∈ v.floats := by
  induction v using induction_depth with
  | step v ih =>
    cases v with
    | null | bool | int | float | str => rfl
    | arr xs =>
      simp only [sorted, floats, sortedAll_eq, mem_floatsAll, List.mem_map, exists_exists_and_eq_and]
      exact exists_congr fun x => and_congr_right fun hx => ih x (depth_lt_arr hx)
    | obj items =>
      simp only [sorted, floats, mem_floatsItems, mem_sortedItems]
      constructor
      · rintro ⟨_, ⟨x, hx, rfl⟩, hy⟩
        exact ⟨x, hx, (ih x.2 (depth_lt_obj hx)).1 hy⟩
      · rintro ⟨x, hx, hy⟩
        exact ⟨_, ⟨x, hx, rfl⟩, (ih x.2 (depth_lt_obj hx)).2 hy⟩

end

end Value

section

variable {F : Type} {numbers : Numbers F} {v : Value F} {t : Text}

/-- Only finite floats are written. -/
theorem finite_of_render (h : render numbers v = some t) : ∀ x ∈ v.floats, numbers.finite x = true := by
  induction v using Value.induction_depth generalizing t with
  | step v ih =>
    cases v with
    | null | bool | int | str => exact fun x hx => (List.not_mem_nil hx).elim
    | float y =>
      intro x hx
      obtain rfl := List.mem_singleton.1 hx
      simp only [render] at h
      split at h
      · assumption
      · cases h
    | arr xs =>
      obtain ⟨parts, hparts, rfl⟩ := Option.map_eq_some_iff.1 h
      intro x hx
      obtain ⟨y, hy, hmem⟩ := Value.mem_floatsAll.1 hx
      obtain ⟨part, -, hpart⟩ := exists_of_forall₂ (renderAll_eq_some.1 hparts) hy
      exact ih y (Value.depth_lt_arr hy) hpart x hmem
    | obj items =>
      obtain ⟨parts, hparts, rfl⟩ := Option.map_eq_some_iff.1 h
      intro x hx
      obtain ⟨y, hy, hmem⟩ := Value.mem_floatsItems.1 hx
      obtain ⟨part, -, u, hu, -⟩ := exists_of_forall₂ (renderItems_eq_some.1 hparts) hy
      exact ih y.2 (Value.depth_lt_obj hy) hu x hmem

theorem finite_of_dumps (h : dumps numbers v = some t) : ∀ x ∈ v.floats, numbers.finite x = true :=
  fun x hx => finite_of_render h x (Value.mem_floats_sorted.2 hx)

end

/-! ## Values that were read -/

section

variable {F : Type} {numbers : Numbers F} {constant : String → Option F}
variable {hook : List (Text × Value F) → Bool} {scan : Scan (Value F)} {depth fuel : Nat}
variable {t rest : Text} {v : Value F}

/-- A value no deeper than allowed, whose dictionaries were all taken. -/
structure Taken (hook : List (Text × Value F) → Bool) (depth : Nat) (v : Value F) : Prop where
  depth_le : v.depth ≤ depth
  objects : ∀ items ∈ v.objects, hook items = true

theorem Taken.of_scalar (hdepth : v.depth = 0) (h : v.objects = []) : Taken hook depth v :=
  ⟨hdepth ▸ Nat.zero_le _, fun items hitems => by simp [h] at hitems⟩

theorem Taken.arr {xs : List (Value F)} (h : ∀ x ∈ xs, Taken hook depth x) :
    Taken hook (depth + 1) (.arr xs) where
  depth_le := Nat.succ_le_succ (Value.depthAll_le.2 fun x hx => (h x hx).depth_le)
  objects items hitems := by
    obtain ⟨x, hx, hmem⟩ := Value.mem_objectsAll.1 hitems
    exact (h x hx).objects items hmem

theorem Taken.obj {items : List (Text × Value F)} (hown : hook items = true)
    (h : ∀ x ∈ items, Taken hook depth x.2) : Taken hook (depth + 1) (.obj items) where
  depth_le := Nat.succ_le_succ (Value.depthItems_le.2 fun x hx => (h x hx).depth_le)
  objects other hother := by
    rcases List.mem_cons.1 hother with rfl | hother
    · exact hown
    · obtain ⟨x, hx, hmem⟩ := Value.mem_objectsItems.1 hother
      exact (h x hx).objects other hmem

theorem forall_scanElements {P : Value F → Prop} (hscan : ∀ {t x rest}, scan t = .ok (x, rest) → P x)
    {xs : List (Value F)} (h : scanElements scan fuel t = .ok (xs, rest)) : ∀ x ∈ xs, P x := by
  induction fuel generalizing t xs rest with
  | zero => cases h
  | succ fuel ih =>
    obtain ⟨⟨x, u⟩, hx, h⟩ := bind_eq_ok.1 h
    dsimp only at h
    split at h
    · cases h
      exact fun y hy => List.mem_singleton.1 hy ▸ hscan hx
    · obtain ⟨⟨ys, w⟩, hys, h⟩ := bind_eq_ok.1 h
      cases h
      exact List.forall_mem_cons.2 ⟨hscan hx, ih hys⟩
    · cases h

theorem forall_scanItems {P : Value F → Prop} (hscan : ∀ {t x rest}, scan t = .ok (x, rest) → P x)
    {items : List (Text × Value F)} (h : scanItems scan fuel t = .ok (items, rest)) :
    ∀ x ∈ items, P x.2 := by
  induction fuel generalizing t items rest with
  | zero => cases h
  | succ fuel ih =>
    unfold scanItems at h
    split at h
    · cases h
    · rename_i fuel' t' heq
      cases heq
      split at h
      · cases h
      · split at h
        · obtain ⟨⟨x, u⟩, hx, h⟩ := bind_eq_ok.1 h
          dsimp only at h
          split at h
          · cases h
            exact fun y hy => List.mem_singleton.1 hy ▸ hscan hx
          · obtain ⟨⟨ys, w⟩, hys, h⟩ := bind_eq_ok.1 h
            cases h
            exact List.forall_mem_cons.2 ⟨hscan hx, ih hys⟩
          · cases h
        · cases h
    · cases h

theorem taken_scanScalar (h : scanScalar numbers constant t = .ok (v, rest)) : Taken hook depth v := by
  unfold scanScalar at h
  repeat' split at h
  all_goals cases h
  all_goals exact .of_scalar rfl rfl

theorem taken_scanString (h : scanValue numbers constant hook depth (QUOTE :: t) = .ok (v, rest)) :
    Taken hook depth v := by
  cases depth with
  | zero | succ depth =>
    simp only [scanValue] at h
    split at h <;> cases h
    exact .of_scalar rfl rfl

theorem taken_scanValue (h : scanValue numbers constant hook depth t = .ok (v, rest)) :
    Taken hook depth v := by
  induction depth generalizing t v rest with
  | zero =>
    cases t with
    | nil => exact taken_scanScalar h
    | cons c t =>
      by_cases hquote : c = QUOTE
      · exact taken_scanString (hquote ▸ h)
      by_cases hbracket : c = OPEN_BRACKET
      · subst hbracket
        cases h
      by_cases hbrace : c = OPEN_BRACE
      · subst hbrace
        cases h
      rw [scanValue_cons hquote hbracket hbrace] at h
      exact taken_scanScalar h
  | succ depth ih =>
    cases t with
    | nil => exact taken_scanScalar h
    | cons c t =>
      by_cases hquote : c = QUOTE
      · exact taken_scanString (hquote ▸ h)
      by_cases hbracket : c = OPEN_BRACKET
      · subst hbracket
        simp only [scanValue] at h
        split at h
        · cases h
          exact .arr fun x hx => (List.not_mem_nil hx).elim
        · obtain ⟨⟨xs, u⟩, hxs, h⟩ := bind_eq_ok.1 h
          cases h
          exact .arr (forall_scanElements ih hxs)
      by_cases hbrace : c = OPEN_BRACE
      · subst hbrace
        simp only [scanValue] at h
        split at h
        · obtain ⟨⟨items, u⟩, hitems, h⟩ := bind_eq_ok.1 h
          cases hitems
          dsimp only at h
          split at h
          · rename_i hhook
            cases h
            exact .obj hhook fun x hx => (List.not_mem_nil hx).elim
          · cases h
        · obtain ⟨⟨items, u⟩, hitems, h⟩ := bind_eq_ok.1 h
          dsimp only at h
          split at h
          · rename_i hhook
            cases h
            exact .obj hhook (forall_scanItems ih hitems)
          · cases h
      rw [scanValue_cons hquote hbracket hbrace] at h
      exact taken_scanScalar h

/-- What is read is nested as deep as is allowed, and its dictionaries were taken. -/
theorem taken_loads (h : loads numbers constant hook depth t = .ok v) : Taken hook depth v := by
  unfold loads at h
  split at h
  · cases h
  · obtain ⟨⟨w, rest⟩, hw, h⟩ := bind_eq_ok.1 h
    dsimp only at h
    split at h
    · cases h
      exact taken_scanValue hw
    · cases h

end

/-! ## Reading back -/

/-- A normal form of texts that leaves ASCII alone, and in which a quotation mark takes part in
no composition. -/
structure NormalForm (nfc : Text → Text) : Prop where
  ascii : ∀ t, (∀ c ∈ t, c < 128) → nfc t = t
  quote : ∀ x y, nfc (x ++ QUOTE :: y) = x ++ QUOTE :: y ↔ nfc x = x ∧ nfc y = y

/-- A writer, and what its reader needs besides. -/
structure Canonical (F E : Type) where
  numbers : Numbers F
  nfc : Text → Text
  scanDepth : Nat
  refused : E
  translated : LoadsError → E
  encode : Value F → Except E (List UInt8)

namespace Canonical

def bom : List UInt8 := [0xef, 0xbb, 0xbf]
def lf : UInt8 := 0x0a
def cr : UInt8 := 0x0d

section

variable {F E : Type} (c : Canonical F E)

def takes (items : List (Text × Value F)) : Bool :=
  (∀ x ∈ items, c.nfc x.1 = x.1) ∧ (items.map (·.1)).Nodup

def decodeNormal (data : List UInt8) : Except E Text :=
  match Utf8.decode data with
  | none => .error c.refused
  | some t => do
    require (c.nfc t = t) c.refused
    return t

def load (t : Text) : Except LoadsError (Value F) :=
  loads c.numbers (fun _ => none) c.takes c.scanDepth t

def parse (data : List UInt8) : Except E (Value F) := do
  require (¬ bom <+: data) c.refused
  require (data.getLast? ≠ some lf ∧ data.getLast? ≠ some cr) c.refused
  let t ← c.decodeNormal data
  let value ← (c.load t).mapError c.translated
  let again ← c.encode value
  require (again = data) c.refused
  return value

def codec : Codec E (Value F) := ⟨c.encode, c.parse⟩

/-- The writer writes the values no deeper than `limit` whose strings are in normal form. -/
structure Writes (limit : Nat) : Prop where
  encode_eq_ok : ∀ {v data}, v.Distinct → (c.encode v = .ok data ↔
    v.depth ≤ limit ∧ (∀ s ∈ v.strings, c.nfc s = s) ∧
      ∃ t, dumps c.numbers v = some t ∧ Utf8.encode t = some data)

/-- A value whose bytes can be read. -/
structure Readable (v : Value F) : Prop where
  depth_le : v.depth ≤ c.scanDepth
  normal : ∀ s ∈ v.strings, c.nfc (escaped s) = escaped s

/-- Bytes on which loading or writing again fails in another way than by a refusal. -/
structure Stray (data : List UInt8) : Prop where
  no_bom : ¬ bom <+: data
  no_newline : data.getLast? ≠ some lf ∧ data.getLast? ≠ some cr
  fails : ∃ t, Utf8.decode data = some t ∧ c.nfc t = t ∧
    ((∃ e, c.load t = .error e ∧ c.translated e ≠ c.refused) ∨
      ∃ v, c.load t = .ok v ∧ Escapes c.refused (c.encode v))

end

/-! ## Written bytes -/

section

variable {F E : Type} {numbers : Numbers F} {v w : Value F} {t : Text} {data : List UInt8}

/-- Written bytes stand on one line, and start with an ASCII character. -/
theorem one_line (hrender : render numbers v = some t) (hdata : Utf8.encode t = some data) :
    data ≠ [] ∧ ¬ bom <+: data ∧ lf ∉ data ∧ cr ∉ data := by
  have hcontrol : ∀ b : UInt8, b.toNat < 0x20 → b ∉ data := by
    intro b hb hmem
    have hplain : isPlain b.toNat = false := by simp [isPlain, hb]
    have hhigh := ((mem_render hrender hplain).1 (Utf8.mem_of_mem_encode hdata hmem (by omega))).1
    omega
  obtain ⟨c, u, rfl, -⟩ := render_opens hrender
  have hlow : c < 0x7f := by
    by_contra hhigh
    have hplain : isPlain c = false := by simp [isPlain, hhigh]
    have hquote : c ≠ QUOTE := by
      rintro rfl
      exact hhigh (by decide)
    have hwalk := walk_render hrender
    simp [walk, Place.next, hquote, hplain] at hwalk
  obtain ⟨rest, rfl, -⟩ := Utf8.encode_cons_ascii (by omega) hdata
  refine ⟨List.cons_ne_nil _ _, ?_, hcontrol lf (by decide), hcontrol cr (by decide)⟩
  intro hprefix
  have hbyte : (0xef : UInt8) = UInt8.ofNat c := (List.cons_prefix_cons.1 hprefix).1
  have hnat := congrArg UInt8.toNat hbyte
  rw [UInt8.toNat_ofNat', Nat.mod_eq_of_lt (by omega)] at hnat
  simp at hnat
  omega

/-- A text determines the value it was written for, up to the order of dictionaries. -/
theorem sorted_eq_of_dumps (hv : dumps numbers v = some t) (hw : dumps numbers w = some t) :
    v.sorted = w.sorted := by
  let scan := loads numbers (fun _ => none) (fun _ => true) (max v.depth w.depth) t
  have hv' : scan = .ok v.sorted := loads_dumps hv (le_max_left ..) fun _ _ => rfl
  have hw' : scan = .ok w.sorted := loads_dumps hw (le_max_right ..) fun _ _ => rfl
  exact Except.ok.inj (hv'.symm.trans hw')

end

/-! ## Agreement -/

section

variable {F E : Type} {c : Canonical F E} {limit : Nat} {v : Value F} {t : Text} {data : List UInt8}

theorem takes_eq_true {items : List (Text × Value F)} : c.takes items = true ↔
    (∀ x ∈ items, c.nfc x.1 = x.1) ∧ (items.map (·.1)).Nodup := by
  simp only [takes, decide_eq_true_eq]

theorem decodeNormal_eq_ok :
    c.decodeNormal data = .ok t ↔ Utf8.decode data = some t ∧ c.nfc t = t := by
  unfold decodeNormal
  split
  · rename_i hnone
    simp [hnone]
  · rename_i u hu
    simp only [require_bind_eq_ok, pure_eq_ok, hu, Option.some.injEq]
    constructor
    · rintro ⟨hnormal, rfl⟩
      exact ⟨rfl, hnormal⟩
    · rintro ⟨rfl, hnormal⟩
      exact ⟨hnormal, rfl⟩

theorem not_escapes_decodeNormal : ¬ Escapes c.refused (c.decodeNormal data) := by
  unfold decodeNormal
  split
  · simp
  · rw [escapes_require_bind]
    simp

/-- What the reader accepts: the bytes the writer gives for the value that was loaded. -/
theorem parse_eq_ok : c.parse data = .ok v ↔
    ¬ bom <+: data ∧ (data.getLast? ≠ some lf ∧ data.getLast? ≠ some cr) ∧
      ∃ t, (Utf8.decode data = some t ∧ c.nfc t = t) ∧ c.load t = .ok v ∧ c.encode v = .ok data := by
  simp only [parse, require_bind_eq_ok]
  refine and_congr_right fun _ => and_congr_right fun _ => ?_
  rw [bind_eq_ok]
  refine exists_congr fun t => and_congr decodeNormal_eq_ok ?_
  rw [bind_eq_ok]
  simp only [mapError_eq_ok, bind_eq_ok (x := c.encode _), require_bind_eq_ok, pure_eq_ok]
  constructor
  · rintro ⟨w, hload, again, hencode, rfl, rfl⟩
    exact ⟨hload, hencode⟩
  · rintro ⟨hload, hencode⟩
    exact ⟨v, hload, data, hencode, rfl, rfl⟩

theorem escapes_parse : Escapes c.refused (c.parse data) ↔ c.Stray data := by
  have hmapped : ∀ {x : Except LoadsError (Value F)}, Escapes c.refused (x.mapError c.translated) ↔
      ∃ e, x = .error e ∧ c.translated e ≠ c.refused := by
    intro x
    cases x <;> simp [Except.mapError]
  rw [parse, escapes_require_bind, escapes_require_bind, escapes_bind_of_not not_escapes_decodeNormal]
  simp only [decodeNormal_eq_ok, escapes_bind, hmapped, mapError_eq_ok, escapes_require,
    escapes_pure, and_false, exists_false, or_false, and_assoc]
  constructor
  · rintro ⟨hbom, hlf, hcr, h⟩
    exact ⟨hbom, ⟨hlf, hcr⟩, h⟩
  · rintro ⟨hbom, ⟨hlf, hcr⟩, h⟩
    exact ⟨hbom, hlf, hcr, h⟩

/-- What was loaded is nested as deep as is allowed, and its dictionaries are. -/
theorem loaded (h : c.load t = .ok v) : v.depth ≤ c.scanDepth ∧ v.Distinct := by
  have htaken := taken_loads h
  exact ⟨htaken.depth_le, fun items hitems => (takes_eq_true.1 (htaken.objects items hitems)).2⟩

theorem readable_sorted (h : c.Readable v.sorted) : c.Readable v where
  depth_le := by
    rw [← Value.depth_sorted]
    exact h.depth_le
  normal s hs := h.normal s (Value.mem_strings_sorted.2 hs)

/-- A record stands on one line. -/
theorem Writes.oneLine (hwrites : c.Writes limit) :
    c.codec.OneLine Value.Distinct bom lf cr := by
  intro v record hv hencode
  obtain ⟨-, -, t, hdumps, hdata⟩ := (hwrites.encode_eq_ok hv).1 hencode
  exact one_line hdumps hdata

variable (hnormal : NormalForm c.nfc)
include hnormal

/-- A written text is in normal form exactly if the escaped forms of its strings are. -/
theorem normal_dumps (hdumps : dumps c.numbers v = some t) :
    c.nfc t = t ↔ ∀ s ∈ v.strings, c.nfc (escaped s) = escaped s := by
  rw [(around_render hdumps).forall_iff hnormal.ascii hnormal.quote]
  exact forall_congr' fun s => by rw [Value.mem_strings_sorted]

variable (hwrites : c.Writes limit)
include hwrites

/-- A readable value is loaded from its bytes in sorted form, and is written the same then. -/
theorem parse_of_readable (hv : v.Distinct) (hencode : c.encode v = .ok data) (h : c.Readable v) :
    c.parse data = .ok v.sorted := by
  obtain ⟨hdepth, hstrings, t, hdumps, hdata⟩ := (hwrites.encode_eq_ok hv).1 hencode
  have hdistinct : v.sorted.Distinct := Value.distinct_sorted.2 hv
  have hobjects : ∀ items ∈ v.sorted.objects, c.takes items = true := by
    intro items hitems
    refine takes_eq_true.2 ⟨fun x hx => hstrings _ ?_, hdistinct items hitems⟩
    exact Value.mem_strings_sorted.1 (Value.key_mem_strings hitems hx)
  have hagain : c.encode v.sorted = .ok data := by
    refine (hwrites.encode_eq_ok hdistinct).2 ⟨by rwa [Value.depth_sorted], fun s hs => ?_, t, ?_, hdata⟩
    · exact hstrings s (Value.mem_strings_sorted.1 hs)
    · rwa [dumps, Value.sorted_sorted]
  obtain ⟨-, hbom, hlf, hcr⟩ := one_line hdumps hdata
  refine parse_eq_ok.2 ⟨hbom, ⟨?_, ?_⟩, t, ⟨Utf8.decode_eq_some_iff.2 hdata, ?_⟩, ?_, hagain⟩
  · exact fun hlast => hlf (List.mem_of_getLast? hlast)
  · exact fun hlast => hcr (List.mem_of_getLast? hlast)
  · exact (normal_dumps hnormal hdumps).2 h.normal
  · exact loads_dumps hdumps h.depth_le hobjects

theorem readable_of_parse (hparse : c.parse data = .ok v) : c.Readable v := by
  obtain ⟨-, -, t, ⟨hdecode, hform⟩, hload, hencode⟩ := parse_eq_ok.1 hparse
  obtain ⟨hdepth, hdistinct⟩ := loaded hload
  obtain ⟨-, -, u, hdumps, hdata⟩ := (hwrites.encode_eq_ok hdistinct).1 hencode
  have htext : u = t := Option.some.inj ((Utf8.decode_eq_some_iff.2 hdata).symm.trans hdecode)
  exact ⟨hdepth, (normal_dumps hnormal hdumps).1 (htext.symm ▸ hform)⟩

theorem agrees : c.codec.Agrees c.refused Value.sorted Value.Distinct c.Readable c.Stray where
  reads_back hv hencode := by
    constructor
    · intro hparse
      exact readable_sorted (readable_of_parse hnormal hwrites hparse)
    · exact parse_of_readable hnormal hwrites hv hencode
  writes_back hparse := by
    obtain ⟨-, -, t, -, hload, hencode⟩ := parse_eq_ok.1 hparse
    exact ⟨(loaded hload).2, hencode⟩
  accepts := by
    intro data
    constructor
    · rintro ⟨v, hparse⟩
      obtain ⟨-, -, t, -, hload, hencode⟩ := parse_eq_ok.1 hparse
      exact ⟨v, (loaded hload).2, readable_of_parse hnormal hwrites hparse, hencode⟩
    · rintro ⟨v, hv, hgood, hencode⟩
      exact ⟨v.sorted, parse_of_readable hnormal hwrites hv hencode hgood⟩
  escapes := escapes_parse
  injective hv hw hencode hencode' := by
    obtain ⟨-, -, t, hdumps, hdata⟩ := (hwrites.encode_eq_ok hv).1 hencode
    obtain ⟨-, -, u, hdumps', hdata'⟩ := (hwrites.encode_eq_ok hw).1 hencode'
    have htext : t = u := Option.some.inj
      ((Utf8.decode_eq_some_iff.2 hdata).symm.trans (Utf8.decode_eq_some_iff.2 hdata'))
    exact sorted_eq_of_dumps hdumps (htext ▸ hdumps')

end

end Canonical

end PokerDeliberation.Lib.Json
