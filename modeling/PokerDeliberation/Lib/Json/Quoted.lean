import PokerDeliberation.Lib.Checked
import PokerDeliberation.Lib.Json.RoundTrip

/-!
# Inside and outside of strings

Reading a written value character by character one is outside or inside of a
string, or after a backslash. What is written for a value is balanced, and
outside of its strings it has plain characters only. So a text that is written
for a value is not cut at another character by one that is written itself.
-/

namespace PokerDeliberation.Lib.Json

variable {t u p : Text} {s : Text} {c d : Nat}

inductive Place where
  | outside | inside | escaped
  deriving DecidableEq, Repr

/-- The characters that may stand outside of strings. -/
def isPlain (c : Nat) : Bool := 0x20 ≤ c && c < 0x7f

def Place.next : Place → Nat → Option Place
  | .outside, c => if c = QUOTE then some .inside else if isPlain c then some .outside else none
  | .inside, c => if c = QUOTE then some .outside else if c = BACKSLASH then some .escaped
    else some .inside
  | .escaped, _ => some .inside

/-- Where a text leads from a place. -/
def walk : Place → Text → Option Place
  | place, [] => some place
  | place, c :: t => (place.next c).bind fun place => walk place t

theorem walk_append (place : Place) (t u : Text) :
    walk place (t ++ u) = (walk place t).bind fun place => walk place u := by
  induction t generalizing place with
  | nil => rfl
  | cons c t ih =>
    simp only [List.cons_append, walk, Option.bind_assoc]
    exact congrArg _ (funext fun place => ih place)

theorem walk_of_append {place place' : Place} (ht : walk place t = some place') :
    walk place (t ++ u) = walk place' u := by
  rw [walk_append, ht, Option.bind_some]

/-- Plain characters other than quotes lead outside. -/
theorem walk_plain (h : ∀ c ∈ t, isPlain c = true ∧ c ≠ QUOTE) : walk .outside t = some .outside := by
  induction t with
  | nil => rfl
  | cons c t ih =>
    obtain ⟨⟨hplain, hquote⟩, ht⟩ := List.forall_mem_cons.1 h
    have hnext : Place.next .outside c = some .outside := by
      simp only [Place.next, hquote, if_false, hplain, if_true]
    rw [walk, hnext, Option.bind_some, ih ht]

/-! ## Strings -/

/-- What is written for a character, by its kind. -/
theorem escape_cases (c : Nat) :
    (escape c = [c] ∧ c ≠ QUOTE ∧ c ≠ BACKSLASH ∧ 0x20 ≤ c) ∨
      c < 0x7f ∧ ∃ d u, escape c = BACKSLASH :: d :: u ∧ ∀ e ∈ d :: u, isPlain e = true ∧
        (e ∈ u → e ≠ QUOTE ∧ e ≠ BACKSLASH) := by
  by_cases hlow : c < 0x20
  · refine .inr ⟨by omega, ?_⟩
    interval_cases c <;> exact ⟨_, _, rfl, by decide⟩
  · by_cases hquote : c = QUOTE
    · subst hquote
      exact .inr ⟨by decide, _, _, rfl, by decide⟩
    · by_cases hback : c = BACKSLASH
      · subst hback
        exact .inr ⟨by decide, _, _, rfl, by decide⟩
      · refine .inl ⟨?_, hquote, hback, by omega⟩
        unfold escape
        have h1 : c ≠ 0x08 := by omega
        have h2 : c ≠ 0x09 := by omega
        have h3 : c ≠ 0x0a := by omega
        have h4 : c ≠ 0x0c := by omega
        have h5 : c ≠ 0x0d := by omega
        simp only [hquote, hback, h1, h2, h3, h4, h5, hlow, if_false]

theorem walk_inside (h : ∀ c ∈ t, c ≠ QUOTE ∧ c ≠ BACKSLASH) : walk .inside t = some .inside := by
  induction t with
  | nil => rfl
  | cons c t ih =>
    obtain ⟨⟨hquote, hback⟩, ht⟩ := List.forall_mem_cons.1 h
    rw [walk]
    simp only [Place.next, hquote, hback, if_false, Option.bind_some]
    exact ih ht

theorem walk_escape (c : Nat) : walk .inside (escape c) = some .inside := by
  rcases escape_cases c with ⟨hself, hquote, hback, -⟩ | ⟨-, d, u, hcons, hplain⟩
  · rw [hself]
    exact walk_inside fun d hd => by
      rw [List.mem_singleton.1 hd]
      exact ⟨hquote, hback⟩
  · rw [hcons]
    show walk .inside u = some .inside
    exact walk_inside fun e he => (hplain e (List.mem_cons_of_mem _ he)).2 he

theorem walk_escaped (s : Text) : walk .inside (Json.escaped s) = some .inside := by
  induction s with
  | nil => rfl
  | cons c s ih =>
    unfold Json.escaped at ih ⊢
    rw [List.flatMap_cons, walk_of_append (walk_escape c), ih]

theorem walk_quoted (s : Text) : walk .outside (quoted s) = some .outside := by
  show walk .inside (Json.escaped s ++ [QUOTE]) = some .outside
  rw [walk_of_append (walk_escaped s)]
  rfl

/-- A character that is not plain is written as it is, unless it is a control character. -/
theorem mem_escaped (hc : isPlain c = false) : c ∈ Json.escaped s ↔ 0x7f ≤ c ∧ c ∈ s := by
  have hone : ∀ d, c ∈ escape d ↔ 0x7f ≤ c ∧ c = d := by
    intro d
    rcases escape_cases d with ⟨hself, -, -, hlow⟩ | ⟨hhigh, e, u, hcons, hplain⟩
    · rw [hself, List.mem_singleton]
      refine ⟨?_, And.right⟩
      rintro rfl
      simp [isPlain, hlow] at hc
      exact ⟨hc, rfl⟩
    · rw [hcons]
      refine ⟨fun hmem => ?_, fun ⟨hge, heq⟩ => by omega⟩
      rcases List.mem_cons.1 hmem with rfl | hmem
      · cases hc
      · rw [(hplain c hmem).1] at hc
        cases hc
  unfold Json.escaped
  simp only [List.mem_flatMap, hone]
  constructor
  · rintro ⟨d, hd, hge, rfl⟩
    exact ⟨hge, hd⟩
  · rintro ⟨hge, hmem⟩
    exact ⟨c, hmem, hge, rfl⟩

theorem mem_quoted (hc : isPlain c = false) : c ∈ quoted s ↔ 0x7f ≤ c ∧ c ∈ s := by
  have hne : c ≠ QUOTE := by
    rintro rfl
    cases hc
  simp [quoted, hne, mem_escaped hc]

/-! ## Numbers -/

/-- A character of a number. -/
def isNumeric (c : Nat) : Bool := isDigit c || c = MINUS || c = 0x2b || c = 0x2e || c = 0x65 || c = 0x45

theorem isPlain_of_isNumeric (h : isNumeric c = true) : isPlain c = true ∧ c ≠ QUOTE := by
  simp only [isNumeric, isDigit, isPlain, Bool.or_eq_true, Bool.and_eq_true, decide_eq_true_eq] at h ⊢
  show (0x20 ≤ c ∧ c < 0x7f) ∧ c ≠ 0x22
  have hminus : MINUS = 0x2d := rfl
  omega

theorem isNumeric_of_digits (hd : d ∈ (scanDigits t).1) : isNumeric d = true := by
  rw [scanDigits_eq] at hd
  simp [isNumeric, List.mem_takeWhile_imp hd]

theorem isNumeric_minus (hd : d ∈ (scanMinus t).1) : isNumeric d = true := by
  unfold scanMinus at hd
  split at hd
  · rw [List.mem_singleton.1 hd]
    rfl
  · cases hd

theorem isNumeric_integer {r : Text} (h : scanInteger t = some (u, r)) (hd : d ∈ u) :
    isNumeric d = true := by
  cases t with
  | nil => cases h
  | cons c t =>
    simp only [scanInteger] at h
    split at h
    · rename_i hzero
      cases h
      rw [List.mem_singleton.1 hd, hzero]
      rfl
    · split at h
      · have hu : u = (scanDigits (c :: t)).1 := by rw [Option.some.inj h]
        rw [hu] at hd
        exact isNumeric_of_digits hd
      · cases h

theorem isNumeric_fraction (hd : d ∈ (scanFraction t).1) : isNumeric d = true := by
  unfold scanFraction at hd
  split at hd
  · rename_i t
    have hdigits := @isNumeric_of_digits t
    rcases hs : scanDigits t with ⟨ds, rest⟩
    rw [hs] at hd hdigits
    cases ds with
    | nil => cases hd
    | cons e ds =>
      rcases List.mem_cons.1 hd with rfl | hd
      · rfl
      · exact hdigits hd
  · cases hd

theorem isNumeric_sign (hd : d ∈ (scanSign t).1) : isNumeric d = true := by
  unfold scanSign at hd
  split at hd
  · rw [List.mem_singleton.1 hd]
    rfl
  · rw [List.mem_singleton.1 hd]
    rfl
  · cases hd

theorem isNumeric_exponent (hd : d ∈ (scanExponent t).1) : isNumeric d = true := by
  cases t with
  | nil => cases hd
  | cons c t =>
    simp only [scanExponent] at hd
    split at hd
    · rename_i hletter
      have hdigits := @isNumeric_of_digits (scanSign t).2
      rcases hs : scanDigits (scanSign t).2 with ⟨ds, rest⟩
      rw [hs] at hd hdigits
      cases ds with
      | nil => cases hd
      | cons e ds =>
        rcases List.mem_cons.1 hd with rfl | hd
        · rcases hletter with rfl | rfl <;> rfl
        · rcases List.mem_append.1 hd with hd | hd
          · exact isNumeric_sign hd
          · exact hdigits hd
    · cases hd

theorem isNumeric_of_scanNumber {float : Bool} {number r : Text}
    (h : scanNumber t = some (float, number, r)) (hd : d ∈ number) : isNumeric d = true := by
  simp only [scanNumber, Option.bind_eq_bind, Option.bind_eq_some_iff, Prod.exists,
    Option.pure_def, Option.some.injEq, Prod.mk.injEq] at h
  obtain ⟨int, rest, hint, -, rfl, -⟩ := h
  simp only [List.mem_append] at hd
  rcases hd with ((hd | hd) | hd) | hd
  · exact isNumeric_minus hd
  · exact isNumeric_integer hint hd
  · exact isNumeric_fraction hd
  · exact isNumeric_exponent hd

/-! ## Values -/

section

variable {F : Type} {numbers : Numbers F} {v w : Value F}

theorem mem_joined {parts : List Text} : c ∈ joined parts →
    c = COMMA ∨ ∃ part ∈ parts, c ∈ part := by
  induction parts with
  | nil => exact fun h => nomatch h
  | cons part parts ih =>
    cases parts with
    | nil => exact fun h => .inr ⟨part, List.mem_cons_self, h⟩
    | cons next parts =>
      intro h
      simp only [joined, List.mem_append, List.mem_cons] at h
      rcases h with h | rfl | h
      · exact .inr ⟨part, List.mem_cons_self, h⟩
      · exact .inl rfl
      · rcases ih h with h | ⟨other, hother, h⟩
        · exact .inl h
        · exact .inr ⟨other, List.mem_cons_of_mem _ hother, h⟩

theorem joined_of_mem {parts : List Text} {part : Text} (hpart : part ∈ parts) (hc : c ∈ part) :
    c ∈ joined parts := by
  induction parts with
  | nil => cases hpart
  | cons first parts ih =>
    cases parts with
    | nil =>
      rw [List.mem_singleton.1 hpart] at hc
      exact hc
    | cons next parts =>
      simp only [joined, List.mem_append, List.mem_cons]
      rcases List.mem_cons.1 hpart with rfl | hpart
      · exact .inl hc
      · exact .inr (.inr (ih hpart))

theorem walk_joined {parts : List Text} (h : ∀ part ∈ parts, walk .outside part = some .outside) :
    walk .outside (joined parts) = some .outside := by
  induction parts with
  | nil => rfl
  | cons part parts ih =>
    obtain ⟨hpart, hparts⟩ := List.forall_mem_cons.1 h
    cases parts with
    | nil => exact hpart
    | cons next parts =>
      show walk .outside (part ++ COMMA :: joined (next :: parts)) = some .outside
      rw [walk_of_append hpart]
      exact ih hparts

/-- Brackets around what leads outside. -/
theorem walk_bracketed {a b : Nat} (ha : isPlain a = true ∧ a ≠ QUOTE) (hb : isPlain b = true ∧ b ≠ QUOTE)
    (ht : walk .outside t = some .outside) : walk .outside (a :: (t ++ [b])) = some .outside := by
  have hone : ∀ e, isPlain e = true ∧ e ≠ QUOTE → walk .outside [e] = some .outside := fun e he =>
    walk_plain fun c hc => by rwa [List.mem_singleton.1 hc]
  rw [← List.singleton_append, walk_of_append (hone a ha), walk_of_append ht, hone b hb]

/-- What is written for a value is balanced. -/
theorem walk_render (h : render numbers v = some t) : walk .outside t = some .outside := by
  induction v using Value.induction_depth generalizing t with
  | step v ih =>
    cases v with
    | null => cases h; rfl
    | bool b => cases b <;> cases h <;> rfl
    | int n =>
      simp only [render] at h
      split at h <;> cases h
      exact walk_plain fun c hc =>
        isPlain_of_isNumeric (isNumeric_of_scanNumber (scanNumber_intText n) hc)
    | float x =>
      simp only [render] at h
      split at h <;> cases h
      rename_i hfinite
      exact walk_plain fun c hc =>
        isPlain_of_isNumeric (isNumeric_of_scanNumber (numbers.scan_repr hfinite) hc)
    | str s =>
      cases h
      exact walk_quoted s
    | arr xs =>
      obtain ⟨parts, hparts, rfl⟩ := Option.map_eq_some_iff.1 h
      rw [renderAll_eq_some] at hparts
      refine walk_bracketed (by decide) (by decide) (walk_joined fun part hpart => ?_)
      obtain ⟨x, hx, hrender⟩ := exists_of_forall₂ (List.Forall₂.flip (R := flip _) hparts) hpart
      exact ih x (Value.depth_lt_arr hx) hrender
    | obj items =>
      obtain ⟨parts, hparts, rfl⟩ := Option.map_eq_some_iff.1 h
      rw [renderItems_eq_some] at hparts
      refine walk_bracketed (by decide) (by decide) (walk_joined fun part hpart => ?_)
      obtain ⟨x, hx, u, hrender, rfl⟩ := exists_of_forall₂ (List.Forall₂.flip (R := flip _) hparts) hpart
      rw [walk_of_append (walk_quoted x.1)]
      show walk .outside u = some .outside
      exact ih x.2 (Value.depth_lt_obj hx) hrender

/-- A written text is not cut at another character than a plain one by a written text. -/
theorem not_render_prefix (hv : render numbers v = some (p ++ c :: u)) (hw : render numbers w = some p)
    (hc : isPlain c = false) : False := by
  have hwalk := walk_render hv
  rw [walk_of_append (walk_render hw), walk] at hwalk
  have hne : c ≠ QUOTE := by
    rintro rfl
    cases hc
  simp only [Place.next, hne, if_false, hc, Bool.false_eq_true, Option.bind_none] at hwalk
  cases hwalk

/-- A character that is not plain is written only for one in a string. -/
theorem mem_render (h : render numbers v = some t) (hc : isPlain c = false) :
      c ∈ t ↔ 0x7f ≤ c ∧ ∃ s ∈ v.strings, c ∈ s := by
  have hplain : ∀ {u : Text}, (∀ d ∈ u, isPlain d = true) → c ∉ u := by
    intro u hu hmem
    rw [hu c hmem] at hc
    cases hc
  have hdelimiter : ∀ d ∈ [COMMA, COLON, OPEN_BRACKET, CLOSE_BRACKET, OPEN_BRACE, CLOSE_BRACE],
      c ≠ d := by
    have hdelimiters : ∀ d ∈ [COMMA, COLON, OPEN_BRACKET, CLOSE_BRACKET, OPEN_BRACE, CLOSE_BRACE],
        isPlain d = true := by decide
    rintro d hd rfl
    rw [hdelimiters c hd] at hc
    cases hc
  induction v using Value.induction_depth generalizing t with
  | step v ih =>
    cases v with
    | null =>
      cases h
      simpa [Value.strings] using hplain (by decide)
    | bool b =>
      cases b <;> cases h <;> simpa [Value.strings] using hplain (by decide)
    | int n =>
      simp only [render] at h
      split at h <;> cases h
      simpa [Value.strings] using hplain fun d hd =>
        (isPlain_of_isNumeric (isNumeric_of_scanNumber (scanNumber_intText n) hd)).1
    | float x =>
      simp only [render] at h
      split at h <;> cases h
      rename_i hfinite
      simpa [Value.strings] using hplain fun d hd =>
        (isPlain_of_isNumeric (isNumeric_of_scanNumber (numbers.scan_repr hfinite) hd)).1
    | str s =>
      cases h
      simp [Value.strings, mem_quoted hc]
    | arr xs =>
      obtain ⟨parts, hparts, rfl⟩ := Option.map_eq_some_iff.1 h
      rw [renderAll_eq_some] at hparts
      have hparts' := List.Forall₂.flip (R := flip _) hparts
      simp only [List.mem_cons, List.mem_append, List.not_mem_nil, or_false,
        hdelimiter OPEN_BRACKET (by decide), hdelimiter CLOSE_BRACKET (by decide), false_or,
        Value.strings, Value.mem_stringsAll]
      constructor
      · intro hmem
        obtain ⟨part, hpart, hmem⟩ := (mem_joined hmem).resolve_left (hdelimiter COMMA (by decide))
        obtain ⟨x, hx, hrender⟩ := exists_of_forall₂ hparts' hpart
        obtain ⟨hge, s, hs, hcs⟩ := (ih x (Value.depth_lt_arr hx) hrender).1 hmem
        exact ⟨hge, s, ⟨x, hx, hs⟩, hcs⟩
      · rintro ⟨hge, s, ⟨x, hx, hs⟩, hcs⟩
        obtain ⟨part, hpart, hrender⟩ := exists_of_forall₂ hparts hx
        exact joined_of_mem hpart ((ih x (Value.depth_lt_arr hx) hrender).2 ⟨hge, s, hs, hcs⟩)
    | obj items =>
      obtain ⟨parts, hparts, rfl⟩ := Option.map_eq_some_iff.1 h
      rw [renderItems_eq_some] at hparts
      have hparts' := List.Forall₂.flip (R := flip _) hparts
      simp only [List.mem_cons, List.mem_append, List.not_mem_nil, or_false,
        hdelimiter OPEN_BRACE (by decide), hdelimiter CLOSE_BRACE (by decide), false_or,
        Value.strings, Value.mem_stringsItems]
      constructor
      · intro hmem
        obtain ⟨part, hpart, hmem⟩ := (mem_joined hmem).resolve_left (hdelimiter COMMA (by decide))
        obtain ⟨x, hx, u, hrender, rfl⟩ := exists_of_forall₂ hparts' hpart
        rcases List.mem_append.1 hmem with hmem | hmem
        · obtain ⟨hge, hkey⟩ := (mem_quoted hc).1 hmem
          exact ⟨hge, x.1, ⟨x, hx, .inl rfl⟩, hkey⟩
        · have hmem := (List.mem_cons.1 hmem).resolve_left (hdelimiter COLON (by decide))
          obtain ⟨hge, s, hs, hcs⟩ := (ih x.2 (Value.depth_lt_obj hx) hrender).1 hmem
          exact ⟨hge, s, ⟨x, hx, .inr hs⟩, hcs⟩
      · rintro ⟨hge, s, ⟨x, hx, hs⟩, hcs⟩
        obtain ⟨part, hpart, u, hrender, rfl⟩ := exists_of_forall₂ hparts hx
        refine joined_of_mem hpart (List.mem_append.2 ?_)
        rcases hs with rfl | hs
        · exact .inl ((mem_quoted hc).2 ⟨hge, hcs⟩)
        · exact .inr (List.mem_cons_of_mem _
            ((ih x.2 (Value.depth_lt_obj hx) hrender).2 ⟨hge, s, hs, hcs⟩))

/-- What is written can be encoded if the strings can. -/
theorem encode_render (h : render numbers v = some t) : (Utf8.encode t).isSome = true ↔
    ∀ s ∈ v.strings, (Utf8.encode s).isSome = true := by
  simp only [Utf8.encode_isSome]
  constructor
  · intro hall s hs c hc
    rcases Nat.lt_or_ge c 0x7f with hlow | hhigh
    · exact Utf8.scalar_ascii (by omega)
    · have hplain : isPlain c = false := by simp [isPlain, hhigh]
      exact hall c ((mem_render h hplain).2 ⟨hhigh, s, hs, hc⟩)
  · intro hall c hc
    rcases Nat.lt_or_ge c 128 with hlow | hhigh
    · exact Utf8.scalar_ascii hlow
    · have hplain : isPlain c = false := by simp [isPlain]; omega
      obtain ⟨-, s, hs, hcs⟩ := (mem_render h hplain).1 hc
      exact hall s hs c hcs

end

end PokerDeliberation.Lib.Json
