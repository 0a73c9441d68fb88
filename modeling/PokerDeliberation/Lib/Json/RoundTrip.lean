import PokerDeliberation.Lib.Json.Scanner
import Mathlib.Data.List.TakeDrop
import Mathlib.Tactic.IntervalCases

/-!
# Reading back what was written

The scanner reads back every value from the text the writer gives for it, with
whatever follows left over: first strings, then arrays and objects over the
values in them.
-/

namespace PokerDeliberation.Lib.Json

variable {t u rest : Text} {s : Text} {c n : Nat}

/-! ## Strings -/

/-- A character is read back from what is written for it. -/
theorem nextChar_escape (c : Nat) (t : Text) : nextChar (escape c ++ t) = some (c, t) := by
  by_cases hlow : c < 0x20
  · interval_cases c <;> rfl
  · by_cases hq : c = QUOTE
    · subst hq; rfl
    · by_cases hb : c = BACKSLASH
      · subst hb; rfl
      · have hescape : escape c = [c] := by
          unfold escape
          have h1 : c ≠ 0x08 := by omega
          have h2 : c ≠ 0x09 := by omega
          have h3 : c ≠ 0x0a := by omega
          have h4 : c ≠ 0x0c := by omega
          have h5 : c ≠ 0x0d := by omega
          simp [hq, hb, hlow, h1, h2, h3, h4, h5]
        rw [hescape]
        show nextChar (c :: t) = some (c, t)
        simp only [nextChar, hb, hlow, if_false]

theorem escape_cons (c : Nat) : ∃ a u, escape c = a :: u ∧ a ≠ QUOTE ∧ 0x20 ≤ a := by
  by_cases hlow : c < 0x20
  · interval_cases c <;> exact ⟨_, _, rfl, by decide, by decide⟩
  · unfold escape
    by_cases hq : c = QUOTE
    · rw [if_pos hq]
      exact ⟨_, _, rfl, by decide, by decide⟩
    · rw [if_neg hq]
      by_cases hb : c = BACKSLASH
      · rw [if_pos hb]
        exact ⟨_, _, rfl, by decide, by decide⟩
      · have h1 : c ≠ 0x08 := by omega
        have h2 : c ≠ 0x09 := by omega
        have h3 : c ≠ 0x0a := by omega
        have h4 : c ≠ 0x0c := by omega
        have h5 : c ≠ 0x0d := by omega
        simp only [hb, h1, h2, h3, h4, h5, hlow, if_false]
        exact ⟨c, [], rfl, hq, Nat.le_of_not_lt hlow⟩

theorem scanChars_escaped {fuel : Nat} (h : s.length < fuel) :
    scanChars fuel (escaped s ++ QUOTE :: t) = some (s, t) := by
  induction s generalizing fuel with
  | nil =>
    obtain ⟨fuel, rfl⟩ := Nat.exists_eq_add_of_lt h
    rw [List.length_nil, Nat.zero_add]
    rfl
  | cons c s ih =>
    obtain ⟨fuel, rfl⟩ : ∃ m, fuel = m + 1 := ⟨fuel - 1, by omega⟩
    obtain ⟨a, u, hcons, hquote, _⟩ := escape_cons c
    have hshape : escaped (c :: s) ++ QUOTE :: t = a :: (u ++ (escaped s ++ QUOTE :: t)) := by
      unfold escaped
      rw [List.flatMap_cons, hcons, List.append_assoc, List.cons_append]
    have hnext : nextChar (a :: (u ++ (escaped s ++ QUOTE :: t))) =
        some (c, escaped s ++ QUOTE :: t) := by
      rw [← List.cons_append, ← hcons]
      exact nextChar_escape c _
    rw [hshape]
    unfold scanChars
    split
    · next heq => cases heq
    · next heq =>
      rw [List.cons.injEq] at heq
      exact absurd heq.1 hquote
    · next heq _ =>
      obtain rfl := Nat.succ.inj heq
      simp only [hnext, ih (Nat.lt_of_succ_lt_succ h), Option.bind_eq_bind, Option.bind_some,
        Option.pure_def]

theorem length_escaped (s : Text) : s.length ≤ (escaped s).length := by
  induction s with
  | nil => exact Nat.le_refl _
  | cons c s ih =>
    obtain ⟨a, u, hcons, _⟩ := escape_cons c
    unfold escaped at ih ⊢
    rw [List.flatMap_cons, hcons, List.length_append, List.length_cons, List.length_cons]
    omega

/-- A string is read back from its quoted text. -/
theorem scanString_quoted (s t : Text) : scanString (escaped s ++ QUOTE :: t) = some (s, t) := by
  refine scanChars_escaped ?_
  have h := length_escaped s
  rw [List.length_append, List.length_cons]
  omega

/-! ## Scalars -/

section

variable {F : Type} {numbers : Numbers F} {constant : String → Option F}
  {hook : List (Text × Value F) → Bool} {depth : Nat} {v : Value F} {float : Bool} {number r : Text}

theorem skipBlanks_cons (h : isBlank c = false) : skipBlanks (c :: t) = c :: t := by
  simp [skipBlanks, h]

/-- A number starts with a digit, after its sign. -/
theorem scanNumber_cons (h : scanNumber t = some (float, number, r)) :
    ∃ d u, isDigit d = true ∧ (t = d :: u ∨ t = MINUS :: d :: u) := by
  simp only [scanNumber, Option.bind_eq_bind, Option.bind_eq_some_iff, Prod.exists] at h
  obtain ⟨int, rest, hint, -⟩ := h
  have hdigit : ∀ u, scanInteger u = some (int, rest) → ∃ d w, isDigit d = true ∧ u = d :: w := by
    intro u hu
    cases u with
    | nil => cases hu
    | cons d w =>
      refine ⟨d, w, ?_, rfl⟩
      simp only [scanInteger] at hu
      by_cases hzero : d = 0x30
      · rw [hzero]
        rfl
      · rw [if_neg hzero] at hu
        by_contra hd
        rw [if_neg hd] at hu
        cases hu
  unfold scanMinus at hint
  split at hint
  · obtain ⟨d, w, hd, rfl⟩ := hdigit _ hint
    exact ⟨d, w, hd, .inr rfl⟩
  · obtain ⟨d, w, hd, rfl⟩ := hdigit _ hint
    exact ⟨d, w, hd, .inl rfl⟩

/-- A number is none of the literals. -/
theorem literal_of_scanNumber (h : scanNumber t = some (float, number, r)) (name : String)
    (hname : name ∈ ["null", "true", "false", "NaN", "Infinity", "-Infinity"]) :
    literal name t = none := by
  obtain ⟨d, u, hd, hcons⟩ := scanNumber_cons h
  have hlow : d ≤ 0x39 := by
    simp only [isDigit, Bool.and_eq_true, decide_eq_true_eq] at hd
    exact hd.2
  refine if_neg fun hprefix => ?_
  simp only [List.mem_cons, List.not_mem_nil, or_false] at hname
  rcases hcons with rfl | rfl <;> rcases hname with rfl | rfl | rfl | rfl | rfl | rfl <;>
    obtain ⟨w, hw⟩ := hprefix <;> injection hw with hhead htail <;>
    first
      | (subst hhead; revert hd; decide)
      | (revert hhead; decide)
      | (injection htail with hhead; subst hhead; revert hd; decide)

theorem scanScalar_number (h : scanNumber t = some (float, number, r)) :
    scanScalar numbers constant t =
      if float = true then .ok (.float (numbers.ofText number), r)
      else if (unsigned number).length ≤ numbers.maxStrDigits then .ok (.int (intValue number), r)
      else .error .tooManyDigits := by
  have hnone := literal_of_scanNumber h
  have hconstant : constantName t = none := by
    simp only [constantName, List.findSome?_cons, List.findSome?_nil, hnone "NaN" (by simp),
      hnone "Infinity" (by simp), hnone "-Infinity" (by simp), Option.map_none]
  simp only [scanScalar, hnone "null" (by simp), hnone "true" (by simp), hnone "false" (by simp),
    hconstant, h]
  cases float <;> simp

/-! ## Values -/

/-- What is written for a value starts with a character that ends nothing. -/
def Opens (t : Text) : Prop :=
  ∃ c u, t = c :: u ∧ isBlank c = false ∧ c ≠ CLOSE_BRACKET ∧ c ≠ CLOSE_BRACE ∧ c ≠ BOM

theorem opens_of_scanNumber (h : scanNumber t = some (float, number, r)) : Opens t := by
  obtain ⟨d, u, hd, hcons⟩ := scanNumber_cons h
  rcases hcons with rfl | rfl
  · have hrange : 0x30 ≤ d ∧ d ≤ 0x39 := by simpa [isDigit] using hd
    refine ⟨d, u, rfl, ?_, by show d ≠ 0x5d; omega, by show d ≠ 0x7d; omega,
      by show d ≠ 0xfeff; omega⟩
    simp [isBlank]
    omega
  · exact ⟨MINUS, d :: u, rfl, by decide, by decide, by decide, by decide⟩

theorem render_opens (h : render numbers v = some t) : Opens t := by
  cases v with
  | null => cases h; exact ⟨_, _, rfl, by decide, by decide, by decide, by decide⟩
  | bool b => cases b <;> cases h <;> exact ⟨_, _, rfl, by decide, by decide, by decide, by decide⟩
  | int n =>
    simp only [render] at h
    split at h <;> cases h
    exact opens_of_scanNumber (scanNumber_intText n)
  | float x =>
    simp only [render] at h
    split at h <;> cases h
    exact opens_of_scanNumber (numbers.scan_repr ‹_›)
  | str s => cases h; exact ⟨_, _, rfl, by decide, by decide, by decide, by decide⟩
  | arr xs =>
    obtain ⟨parts, -, rfl⟩ := Option.map_eq_some_iff.1 h
    exact ⟨_, _, rfl, by decide, by decide, by decide, by decide⟩
  | obj items =>
    obtain ⟨parts, -, rfl⟩ := Option.map_eq_some_iff.1 h
    exact ⟨_, _, rfl, by decide, by decide, by decide, by decide⟩

theorem Opens.skipBlanks (h : Opens t) : skipBlanks (t ++ u) = t ++ u := by
  obtain ⟨c, w, rfl, hblank, -⟩ := h
  exact skipBlanks_cons hblank

theorem Opens.joined {parts : List Text} (h : Opens t) : Opens (joined (t :: parts)) := by
  cases parts with
  | nil => exact h
  | cons t' parts =>
    obtain ⟨c, u, rfl, hc⟩ := h
    exact ⟨c, _, rfl, hc⟩

theorem opens_joined {α : Type} {R : α → Text → Prop} {xs : List α} {parts : List Text}
    (h : List.Forall₂ R xs parts) (hne : xs ≠ []) (hopens : ∀ x t, R x t → Opens t) :
    Opens (joined parts ++ u) := by
  cases h with
  | nil => exact absurd rfl hne
  | cons hx hxs =>
    obtain ⟨c, w, hcons, hc⟩ := (hopens _ _ hx).joined
    exact ⟨c, w ++ u, by rw [hcons, List.cons_append], hc⟩

/-- There is a character for each of the parts. -/
theorem length_le_joined {α : Type} {R : α → Text → Prop} {xs : List α} {parts : List Text}
    (h : List.Forall₂ R xs parts) (hopens : ∀ x t, R x t → Opens t) :
    xs.length ≤ (joined parts).length := by
  induction h with
  | nil => exact Nat.le_refl _
  | cons hx hxs ih =>
    obtain ⟨c, u, rfl, -⟩ := hopens _ _ hx
    cases hxs with
    | nil => simp [Lib.Json.joined]
    | cons hy hys =>
      simp only [Lib.Json.joined, List.length_append, List.length_cons] at ih ⊢
      omega

/-- A scanner that reads back what is written for `x`. -/
def ReadsBack (numbers : Numbers F) (scan : Scan (Value F)) (x : Value F) : Prop :=
  ∀ t rest, render numbers x = some t → Stops rest → scan (t ++ rest) = .ok (x, rest)

theorem scanElements_joined {scan : Scan (Value F)} {xs : List (Value F)} {parts : List Text}
    {fuel : Nat} (hparts : List.Forall₂ (fun x t => render numbers x = some t) xs parts)
    (hscan : ∀ x ∈ xs, ReadsBack numbers scan x) (hne : xs ≠ []) (hfuel : xs.length ≤ fuel) :
    scanElements scan fuel (joined parts ++ CLOSE_BRACKET :: rest) = .ok (xs, rest) := by
  induction hparts generalizing fuel with
  | nil => exact absurd rfl hne
  | @cons x part xs parts hx hrest ih =>
    obtain ⟨fuel, rfl⟩ : ∃ m, fuel = m + 1 := ⟨fuel - 1, by simp at hfuel; omega⟩
    obtain ⟨hxscan, hxs⟩ := List.forall_mem_cons.1 hscan
    cases hrest with
    | nil =>
      have hread := hxscan part (CLOSE_BRACKET :: rest) hx (stops_cons (.inr (.inl rfl)))
      simp only [joined, scanElements, hread, bind, Except.bind, skipBlanks_cons (c := CLOSE_BRACKET) rfl]
      rfl
    | @cons y part' ys parts hy hys =>
      have hread := hxscan part (COMMA :: (joined (part' :: parts) ++ CLOSE_BRACKET :: rest)) hx
        (stops_cons (.inl rfl))
      have hmore := ih hxs (List.cons_ne_nil _ _) (by simpa using hfuel)
      have hopens : Opens (joined (part' :: parts)) := (render_opens hy).joined
      simp only [joined, List.append_assoc, List.cons_append, scanElements] at hread ⊢
      simp only [hread, bind, Except.bind, skipBlanks_cons (c := COMMA) rfl, hopens.skipBlanks, hmore]
      rfl

theorem scanItems_joined {scan : Scan (Value F)} {items : List (Text × Value F)}
    {parts : List Text} {fuel : Nat}
    (hparts : List.Forall₂ (fun x t => ∃ u, render numbers x.2 = some u ∧
      t = quoted x.1 ++ COLON :: u) items parts)
    (hscan : ∀ x ∈ items, ReadsBack numbers scan x.2) (hne : items ≠ [])
    (hfuel : items.length ≤ fuel) :
    scanItems scan fuel (joined parts ++ CLOSE_BRACE :: rest) = .ok (items, rest) := by
  induction hparts generalizing fuel with
  | nil => exact absurd rfl hne
  | @cons x part items parts hx hrest ih =>
    obtain ⟨fuel, rfl⟩ : ∃ m, fuel = m + 1 := ⟨fuel - 1, by simp at hfuel; omega⟩
    obtain ⟨hxscan, hitems⟩ := List.forall_mem_cons.1 hscan
    obtain ⟨key, x⟩ := x
    obtain ⟨u, hu, rfl⟩ := hx
    have hvalue : ∀ w : Text, Lib.Json.skipBlanks (u ++ w) = u ++ w := fun w =>
      (render_opens hu).skipBlanks
    cases hrest with
    | nil =>
      have hread := hxscan u (CLOSE_BRACE :: rest) hu (stops_cons (.inr (.inr rfl)))
      simp only [joined, quoted, List.cons_append, List.append_assoc, List.nil_append, scanItems,
        scanString_quoted, skipBlanks_cons (c := COLON) rfl, hvalue, hread, bind, Except.bind,
        skipBlanks_cons (c := CLOSE_BRACE) rfl]
      rfl
    | @cons y part' ys parts hy hys =>
      have hread := hxscan u (COMMA :: (joined (part' :: parts) ++ CLOSE_BRACE :: rest)) hu
        (stops_cons (.inl rfl))
      have hmore := ih hitems (List.cons_ne_nil _ _) (by simpa using hfuel)
      have hopens : Opens part' := by
        obtain ⟨u', -, rfl⟩ := hy
        exact ⟨QUOTE, _, rfl, by decide, by decide, by decide, by decide⟩
      simp only [joined, quoted, List.cons_append, List.append_assoc, List.nil_append, scanItems,
        scanString_quoted, skipBlanks_cons (c := COLON) rfl, hvalue] at hread ⊢
      simp only [hread, bind, Except.bind, skipBlanks_cons (c := COMMA) rfl,
        hopens.joined.skipBlanks, hmore]
      rfl

theorem scanValue_cons (hquote : c ≠ QUOTE) (hbracket : c ≠ OPEN_BRACKET) (hbrace : c ≠ OPEN_BRACE) :
    scanValue numbers constant hook depth (c :: t) = scanScalar numbers constant (c :: t) := by
  unfold scanValue
  split <;> simp_all

theorem scanValue_number (h : scanNumber t = some (float, number, r)) :
    scanValue numbers constant hook depth t = scanScalar numbers constant t := by
  obtain ⟨d, u, hd, hcons⟩ := scanNumber_cons h
  rcases hcons with rfl | rfl
  · have hrange : 0x30 ≤ d ∧ d ≤ 0x39 := by simpa [isDigit] using hd
    exact scanValue_cons (by show d ≠ 0x22; omega) (by show d ≠ 0x5b; omega)
      (by show d ≠ 0x7b; omega)
  · exact scanValue_cons (by decide) (by decide) (by decide)

theorem scanValue_elements {xs : List (Value F)} (h : Opens t)
    (helements : scanElements (scanValue numbers constant hook depth) t.length t = .ok (xs, rest)) :
    scanValue numbers constant hook (depth + 1) (OPEN_BRACKET :: t) = .ok (.arr xs, rest) := by
  obtain ⟨c, u, rfl, hblank, hclose, -⟩ := h
  unfold scanValue
  simp only [skipBlanks_cons hblank]
  split
  · next heq => exact absurd (List.cons.inj heq).1 hclose
  · rw [helements]
    rfl

theorem scanValue_items {items : List (Text × Value F)} (h : Opens t) (hhook : hook items = true)
    (hitems : scanItems (scanValue numbers constant hook depth) t.length t = .ok (items, rest)) :
    scanValue numbers constant hook (depth + 1) (OPEN_BRACE :: t) = .ok (.obj items, rest) := by
  obtain ⟨c, u, rfl, hblank, -, hclose, -⟩ := h
  unfold scanValue
  simp only [skipBlanks_cons hblank]
  split
  · next heq => exact absurd (List.cons.inj heq).1 hclose
  · simp only [hitems, bind, Except.bind, hhook, if_true]
    rfl

/-- Every value is read back from its text, whatever follows. -/
theorem scanValue_render (hdepth : v.depth ≤ depth) (hhook : ∀ items ∈ v.objects, hook items = true) :
    ReadsBack numbers (scanValue numbers constant hook depth) v := by
  induction v using Value.induction_depth generalizing depth with
  | step v ih =>
    intro t rest hrender hstop
    cases v with
    | null =>
      cases hrender
      exact scanValue_cons (by decide) (by decide) (by decide)
    | bool b =>
      cases b <;> cases hrender <;> exact scanValue_cons (by decide) (by decide) (by decide)
    | int n =>
      simp only [render] at hrender
      split at hrender <;> cases hrender
      have hscan := scanNumber_append hstop (scanNumber_intText n)
      rw [scanValue_number hscan, scanScalar_number hscan, unsigned_intText, intValue_intText]
      simp_all
    | float x =>
      simp only [render] at hrender
      split at hrender <;> cases hrender
      have hscan := scanNumber_append hstop (numbers.scan_repr ‹_›)
      rw [scanValue_number hscan, scanScalar_number hscan, numbers.ofText_repr ‹_›]
      rfl
    | str s =>
      cases hrender
      simp only [quoted, List.cons_append, List.append_assoc, List.nil_append]
      unfold scanValue
      simp only [scanString_quoted]
    | arr xs =>
      obtain ⟨parts, hparts, rfl⟩ := Option.map_eq_some_iff.1 hrender
      obtain ⟨depth, rfl⟩ : ∃ m, depth = m + 1 := ⟨depth - 1, by simp [Value.depth] at hdepth; omega⟩
      rw [renderAll_eq_some] at hparts
      have hread : ∀ x ∈ xs, ReadsBack numbers (scanValue numbers constant hook depth) x := by
        intro x hx
        refine ih x (Value.depth_lt_arr hx) ?_ fun items hitems => ?_
        · exact Value.depthAll_le.1 (Nat.le_of_succ_le_succ hdepth) x hx
        · exact hhook items (Value.mem_objectsAll.2 ⟨x, hx, hitems⟩)
      simp only [List.cons_append, List.append_assoc, List.nil_append]
      by_cases hne : xs = []
      · subst hne
        cases hparts
        unfold scanValue
        simp only [joined, List.nil_append, skipBlanks_cons (c := CLOSE_BRACKET) rfl]
      · refine scanValue_elements ?_ (scanElements_joined hparts hread hne ?_)
        · exact opens_joined hparts hne fun _ _ => render_opens
        · rw [List.length_append]
          exact Nat.le_add_right_of_le (length_le_joined hparts fun _ _ => render_opens)
    | obj items =>
      obtain ⟨parts, hparts, rfl⟩ := Option.map_eq_some_iff.1 hrender
      obtain ⟨depth, rfl⟩ : ∃ m, depth = m + 1 := ⟨depth - 1, by simp [Value.depth] at hdepth; omega⟩
      rw [renderItems_eq_some] at hparts
      have hread : ∀ x ∈ items, ReadsBack numbers (scanValue numbers constant hook depth) x.2 := by
        intro x hx
        refine ih x.2 (Value.depth_lt_obj hx) ?_ fun items' hitems => ?_
        · exact Value.depthItems_le.1 (Nat.le_of_succ_le_succ hdepth) x hx
        · exact hhook items' (List.mem_cons_of_mem _ (Value.mem_objectsItems.2 ⟨x, hx, hitems⟩))
      have hown : hook items = true := hhook items List.mem_cons_self
      have hquote : ∀ (x : Text × Value F) t,
          (∃ u, render numbers x.2 = some u ∧ t = quoted x.1 ++ COLON :: u) → Opens t := by
        rintro x _ ⟨u, -, rfl⟩
        exact ⟨QUOTE, _, rfl, by decide, by decide, by decide, by decide⟩
      simp only [List.cons_append, List.append_assoc, List.nil_append]
      by_cases hne : items = []
      · subst hne
        cases hparts
        unfold scanValue
        simp only [joined, List.nil_append, skipBlanks_cons (c := CLOSE_BRACE) rfl, bind,
          Except.bind, hown, if_true]
        rfl
      · refine scanValue_items ?_ hown (scanItems_joined hparts hread hne ?_)
        · exact opens_joined hparts hne hquote
        · rw [List.length_append]
          exact Nat.le_add_right_of_le (length_le_joined hparts hquote)

/-- A text that was written is read back. -/
theorem loads_render (hrender : render numbers v = some t) (hdepth : v.depth ≤ depth)
    (hhook : ∀ items ∈ v.objects, hook items = true) : loads numbers constant hook depth t = .ok v := by
  have hscan : scanValue numbers constant hook depth (t ++ []) = .ok (v, []) :=
    scanValue_render hdepth hhook t [] hrender stops_nil
  have hopens := render_opens hrender
  have hskip := hopens.skipBlanks (u := [])
  rw [List.append_nil] at hscan hskip
  obtain ⟨c, u, rfl, -, -, -, hbom⟩ := hopens
  have hhead : (c :: u).head? ≠ some BOM := fun h => hbom (Option.some.inj h)
  unfold loads
  simp only [hhead, if_false, hskip, hscan, bind, Except.bind, pure, Except.pure]
  rfl

/-- What is written for a value reads as the value with its dictionaries sorted. -/
theorem loads_dumps (hdumps : dumps numbers v = some t) (hdepth : v.depth ≤ depth)
    (hhook : ∀ items ∈ v.sorted.objects, hook items = true) :
    loads numbers constant hook depth t = .ok v.sorted :=
  loads_render hdumps (by rw [Value.depth_sorted]; exact hdepth) hhook

end

end PokerDeliberation.Lib.Json
