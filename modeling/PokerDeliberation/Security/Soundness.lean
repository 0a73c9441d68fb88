import PokerDeliberation.Security.Redaction

/-!
# When redaction reaches its purpose

Redaction keeps the structure and masks what stands under a sensitive name
always. That no secret shape is left and that redacting again changes nothing
holds exactly of the settled values: both fail through keys, whose redacted
text may collide, and whose collision suffix or redacted name may look secret.
-/

namespace PokerDeliberation.Security

open Lib Lib.Json

variable {F : Type} {r : Redactor} {s : Text} {v w : Value F} {occupied keys names : List Text}
  {xs : List (Value F)} {items : List (Text × Value F)}

/-! ## Texts and keys -/

theorem shape_redactText (s : Text) : r.shape (redactText r s) = false := by
  unfold redactText
  dsimp only
  by_cases h : r.shape (r.substitute s) = true
  · rw [if_pos h]
    exact r.shape_marker
  · rw [if_neg h]
    simpa using h

theorem redactText_marker : redactText r MARKER = MARKER := by
  unfold redactText
  rw [r.substitute_marker]
  exact if_neg (by simp [r.shape_marker])

theorem digits_injective : Function.Injective digits := by
  intro m n h
  rw [← digitsValue_digits m, ← digitsValue_digits n, h]

theorem collisionKey_injective (candidate : Text) : Function.Injective (collisionKey candidate) :=
  fun _ _ h => digits_injective
    (List.append_cancel_right (List.append_cancel_left (List.append_cancel_left h)))

/-- The key is free, so no entry is overwritten. -/
theorem collisionFreeKey_not_mem (candidate : Text) (occupied : List Text) :
    collisionFreeKey candidate occupied ∉ occupied := by
  unfold collisionFreeKey
  by_cases h : candidate ∈ occupied
  · rw [if_pos h]
    exact firstFree_not_mem (collisionKey_injective candidate) (Nat.lt_succ_self _)
  · rw [if_neg h]
    exact h

theorem safeKeys_nodup : (safeKeys r occupied keys).Nodup ∧
    ∀ key ∈ safeKeys r occupied keys, key ∉ occupied := by
  induction keys generalizing occupied with
  | nil => simp [safeKeys]
  | cons key keys ih =>
    obtain ⟨hnodup, hfree⟩ := @ih (occupied ++ [collisionFreeKey (redactText r key) occupied])
    simp only [safeKeys, List.nodup_cons, List.forall_mem_cons]
    refine ⟨⟨fun hmem => hfree _ hmem (by simp), hnodup⟩, collisionFreeKey_not_mem _ _,
      fun key hmem hoccupied => hfree key hmem (by simp [hoccupied])⟩

@[simp] theorem length_safeKeys : (safeKeys r occupied keys).length = keys.length := by
  induction keys generalizing occupied with
  | nil => rfl
  | cons key keys ih => simp [safeKeys, ih]

/-- A key without a suffix is a redacted text, so only one with a suffix can have a shape. -/
theorem unshaped_safeKeys : (∀ name ∈ safeKeys r [] keys, r.shape name = false) ↔
    ∀ x ∈ keys.zip (safeKeys r [] keys), x.2 ≠ redactText r x.1 → r.shape x.2 = false := by
  constructor
  · exact fun h x hx _ => h x.2 (List.of_mem_zip hx).2
  · intro h name hname
    obtain ⟨i, hi, rfl⟩ := List.getElem_of_mem hname
    have hkey : i < keys.length := by simpa using hi
    have hmem : (keys[i], (safeKeys r [] keys)[i]) ∈ keys.zip (safeKeys r [] keys) := by
      rw [List.mem_iff_getElem]
      exact ⟨i, by simp; omega, by simp⟩
    by_cases hsame : (safeKeys r [] keys)[i] = redactText r keys[i]
    · rw [hsame]
      exact shape_redactText _
    · exact h _ hmem hsame

/-! ## Members -/

/-- What stands for an item. -/
def redactedItem (r : Redactor) (x : Text × Value F) : Value F :=
  if r.sensitive x.1 then .str MARKER else redactSensitive r x.2

theorem redactAll_eq : redactAll r xs = xs.map (redactSensitive r) := by
  induction xs with
  | nil => rfl
  | cons x xs ih => rw [redactAll, ih, List.map_cons]

/-- The items of a mapping with the keys they get. -/
def placed (r : Redactor) (occupied : List Text) (items : List (Text × Value F)) :
    List (Text × Text × Value F) :=
  (safeKeys r occupied (items.map Prod.fst)).zip items

theorem redactItems_eq :
    redactItems r occupied items = (placed r occupied items).map fun x => (x.1, redactedItem r x.2) := by
  induction items generalizing occupied with
  | nil => rfl
  | cons x items ih =>
    obtain ⟨key, x⟩ := x
    simp only [redactItems, ih, placed, List.map_cons, safeKeys, List.zip_cons_cons]
    rfl

theorem keys_redactItems :
    (redactItems r occupied items).map Prod.fst = safeKeys r occupied (items.map Prod.fst) := by
  rw [redactItems_eq, List.map_map]
  exact List.map_fst_zip (by simp)

/-- Items are redacted to themselves when their keys and their values are. -/
theorem redactItems_self : redactItems r occupied items = items ↔
    safeKeys r occupied (items.map Prod.fst) = items.map Prod.fst ∧
      ∀ x ∈ items, redactedItem r x = x.2 := by
  induction items generalizing occupied with
  | nil => simp [redactItems, safeKeys]
  | cons x items ih =>
    obtain ⟨key, x⟩ := x
    have hvalue : (if r.sensitive key then .str MARKER else redactSensitive r x) =
        redactedItem r (key, x) := rfl
    simp only [redactItems, hvalue, List.cons.injEq, Prod.mk.injEq, List.map_cons, safeKeys,
      List.forall_mem_cons]
    constructor
    · rintro ⟨⟨hkey, hx⟩, hrest⟩
      rw [hkey] at hrest
      obtain ⟨hkeys, hvalues⟩ := ih.1 hrest
      rw [hkey]
      exact ⟨⟨rfl, hkeys⟩, hx, hvalues⟩
    · rintro ⟨⟨hkey, hkeys⟩, hx, hvalues⟩
      rw [hkey] at hkeys ⊢
      exact ⟨⟨rfl, hx⟩, ih.2 ⟨hkeys, hvalues⟩⟩

theorem settledAll_iff : SettledAll r xs ↔ ∀ x ∈ xs, Settled r x := by
  induction xs with
  | nil => simp [SettledAll]
  | cons x xs ih => simp [SettledAll, ih]

theorem settledItems_iff : SettledItems r names items ↔ ∀ x ∈ names.zip items,
    r.sensitive x.2.1 ∨ Settled r x.2.2 ∧ (r.sensitive x.1 → RedactedWhole r x.2.2) := by
  induction items generalizing names with
  | nil => cases names <;> simp [SettledItems]
  | cons x items ih =>
    obtain ⟨key, x⟩ := x
    cases names with
    | nil => simp [SettledItems]
    | cons name names => simp [SettledItems, ih]

/-! ## What always holds -/

mutual

theorem kept_redactSensitive : ∀ v : Value F, Kept r v (redactSensitive r v)
  | .obj items => ⟨_, rfl, kept_redactItems [] items⟩
  | .arr xs => ⟨_, rfl, kept_redactAll xs⟩
  | .str _ => ⟨_, rfl⟩
  | .null => rfl
  | .bool _ => rfl
  | .int _ => rfl
  | .float _ => rfl

theorem kept_redactAll : ∀ xs : List (Value F), KeptAll r xs (redactAll r xs)
  | [] => rfl
  | x :: xs => ⟨_, _, rfl, kept_redactSensitive x, kept_redactAll xs⟩

theorem kept_redactItems (occupied : List Text) :
    ∀ items : List (Text × Value F), KeptItems r items (redactItems r occupied items)
  | [] => rfl
  | (key, x) :: items => by
    refine ⟨_, _, _, rfl, ?_, kept_redactItems _ items⟩
    by_cases h : r.sensitive key = true
    · rw [if_pos h, if_pos h]
    · rw [if_neg h, if_neg h]
      exact kept_redactSensitive x

end

/-- The members of a redacted mapping are redacted members, or the marker. -/
theorem mem_redactItems {y : Text × Value F} (h : y ∈ redactItems r occupied items) :
    ∃ x ∈ items, y.2 = .str MARKER ∨ y.2 = redactSensitive r x.2 := by
  rw [redactItems_eq] at h
  obtain ⟨z, hz, rfl⟩ := List.mem_map.1 h
  refine ⟨z.2, (List.of_mem_zip hz).2, ?_⟩
  unfold redactedItem
  split
  · exact .inl rfl
  · exact .inr rfl

/-- No two entries of a mapping get the same key. -/
theorem distinct_redactSensitive (v : Value F) : (redactSensitive r v).Distinct := by
  induction v using Value.induction_depth with
  | step v ih =>
    cases v with
    | null | bool | int | float | str => exact Value.distinct_of_objects rfl
    | arr xs =>
      rw [redactSensitive, redactAll_eq]
      refine Value.distinct_arr fun y hy => ?_
      obtain ⟨x, hx, rfl⟩ := List.mem_map.1 hy
      exact ih x (Value.depth_lt_arr hx)
    | obj items =>
      rw [redactSensitive]
      refine Value.distinct_obj ?_ fun y hy => ?_
      · show ((redactItems r [] items).map Prod.fst).Nodup
        rw [keys_redactItems]
        exact safeKeys_nodup.1
      · obtain ⟨x, hx, hmarker | hredacted⟩ := mem_redactItems hy
        · rw [hmarker]
          exact Value.distinct_of_objects rfl
        · rw [hredacted]
          exact ih x.2 (Value.depth_lt_obj hx)

/-! ## What holds of settled values -/

/-- What is left to show of a redacted value. -/
structure Clean (r : Redactor) (w : Value F) : Prop where
  unshaped : ∀ s ∈ w.strings, r.shape s = false
  masked : ∀ items ∈ w.objects, ∀ x ∈ items, r.sensitive x.1 → x.2 = .str MARKER
  stable : redactSensitive r w = w

theorem clean_scalar (hstrings : w.strings = []) (hobjects : w.objects = [])
    (hstable : redactSensitive r w = w) : Clean r w :=
  ⟨by simp [hstrings], by simp [hobjects], hstable⟩

theorem clean_str : Clean r (.str s : Value F) ↔ r.shape s = false ∧ redactText r s = s := by
  constructor
  · rintro ⟨hunshaped, -, hstable⟩
    exact ⟨hunshaped s (by simp [Value.strings]), by simpa [redactSensitive] using hstable⟩
  · rintro ⟨hunshaped, hstable⟩
    exact ⟨by simpa [Value.strings] using hunshaped, by simp [Value.objects],
      by rw [redactSensitive, hstable]⟩

theorem clean_marker : Clean r (.str MARKER : Value F) :=
  clean_str.2 ⟨r.shape_marker, redactText_marker⟩

theorem clean_arr : Clean r (.arr xs) ↔ ∀ x ∈ xs, Clean r x := by
  have hstable : redactSensitive r (.arr xs) = .arr xs ↔ ∀ x ∈ xs, redactSensitive r x = x := by
    rw [redactSensitive, redactAll_eq, Value.arr.injEq]
    constructor
    · intro h x hx
      obtain ⟨i, hi, rfl⟩ := List.getElem_of_mem hx
      have hget := congrArg (·[i]?) h
      simpa [hi] using hget
    · intro h
      rw [List.map_congr_left h, List.map_id']
  constructor
  · rintro ⟨hunshaped, hmasked, hself⟩ x hx
    exact ⟨fun s hs => hunshaped s (Value.mem_stringsAll.2 ⟨x, hx, hs⟩),
      fun items hitems => hmasked items (Value.mem_objectsAll.2 ⟨x, hx, hitems⟩), hstable.1 hself x hx⟩
  · intro h
    refine ⟨fun s hs => ?_, fun items hitems => ?_, hstable.2 fun x hx => (h x hx).stable⟩
    · obtain ⟨x, hx, hs⟩ := Value.mem_stringsAll.1 hs
      exact (h x hx).unshaped s hs
    · obtain ⟨x, hx, hitems⟩ := Value.mem_objectsAll.1 hitems
      exact (h x hx).masked items hitems

/-- A mapping is clean when its keys have no shape and are redacted to themselves, and each
value is clean and is the marker if the name of its key is sensitive. -/
theorem clean_obj : Clean r (.obj items) ↔
    (∀ key ∈ items.map Prod.fst, r.shape key = false) ∧
    safeKeys r [] (items.map Prod.fst) = items.map Prod.fst ∧
    ∀ x ∈ items, Clean r x.2 ∧ (r.sensitive x.1 → x.2 = .str MARKER) := by
  have hself : redactSensitive r (.obj items) = .obj items ↔
      safeKeys r [] (items.map Prod.fst) = items.map Prod.fst ∧
        ∀ x ∈ items, redactedItem r x = x.2 := by
    rw [redactSensitive, Value.obj.injEq, redactItems_self]
  constructor
  · rintro ⟨hunshaped, hmasked, hstable⟩
    obtain ⟨hkeys, hvalues⟩ := hself.1 hstable
    have hmarked : ∀ x ∈ items, r.sensitive x.1 → x.2 = .str MARKER :=
      hmasked items (by simp [Value.objects])
    refine ⟨fun key hkey => ?_, hkeys, fun x hx => ⟨?_, hmarked x hx⟩⟩
    · obtain ⟨x, hx, rfl⟩ := List.mem_map.1 hkey
      exact hunshaped x.1 (Value.mem_stringsItems.2 ⟨x, hx, .inl rfl⟩)
    · by_cases hsensitive : r.sensitive x.1 = true
      · rw [hmarked x hx hsensitive]
        exact clean_marker
      · have hvalue := hvalues x hx
        rw [redactedItem, if_neg hsensitive] at hvalue
        exact ⟨fun s hs => hunshaped s (Value.mem_stringsItems.2 ⟨x, hx, .inr hs⟩),
          fun items' hitems => hmasked items'
            (List.mem_cons_of_mem _ (Value.mem_objectsItems.2 ⟨x, hx, hitems⟩)), hvalue⟩
  · rintro ⟨hshapes, hkeys, hclean⟩
    refine ⟨fun s hs => ?_, fun items' hitems => ?_, hself.2 ⟨hkeys, fun x hx => ?_⟩⟩
    · obtain ⟨x, hx, rfl | hs⟩ := Value.mem_stringsItems.1 hs
      · exact hshapes x.1 (List.mem_map_of_mem hx)
      · exact (hclean x hx).1.unshaped s hs
    · rcases List.mem_cons.1 hitems with rfl | hitems
      · exact fun x hx => (hclean x hx).2
      · obtain ⟨x, hx, hitems⟩ := Value.mem_objectsItems.1 hitems
        exact (hclean x hx).1.masked items' hitems
    · unfold redactedItem
      by_cases hsensitive : r.sensitive x.1 = true
      · rw [if_pos hsensitive, (hclean x hx).2 hsensitive]
      · rw [if_neg hsensitive]
        exact (hclean x hx).1.stable

theorem redactSensitive_eq_marker {x : Value F} :
    redactSensitive r x = .str MARKER ↔ RedactedWhole r x := by
  cases x <;> simp [redactSensitive, RedactedWhole]

/-- What is left to show of a redacted value holds exactly when the value is settled. -/
theorem clean_redactSensitive (v : Value F) : Clean r (redactSensitive r v) ↔ Settled r v := by
  induction v using Value.induction_depth with
  | step v ih =>
    cases v with
    | null | bool | int | float =>
      simp only [Settled, iff_true]
      exact clean_scalar rfl rfl rfl
    | str s =>
      rw [redactSensitive, clean_str, Settled]
      simp [shape_redactText]
    | arr xs =>
      rw [redactSensitive, redactAll_eq, clean_arr, Settled, settledAll_iff, List.forall_mem_map]
      exact forall₂_congr fun x hx => ih x (Value.depth_lt_arr hx)
    | obj items =>
      have hitem : ∀ x ∈ placed r [] items,
          (Clean r (redactedItem r x.2) ∧ (r.sensitive x.1 → redactedItem r x.2 = .str MARKER)) ↔
            r.sensitive x.2.1 ∨
              Settled r x.2.2 ∧ (r.sensitive x.1 → RedactedWhole r x.2.2) := by
        intro x hx
        have hmem : x.2 ∈ items := (List.of_mem_zip hx).2
        unfold redactedItem
        by_cases hsensitive : r.sensitive x.2.1 = true
        · simp [hsensitive, clean_marker]
        · rw [if_neg hsensitive, redactSensitive_eq_marker, ih x.2.2 (Value.depth_lt_obj hmem),
            or_iff_right hsensitive]
      rw [redactSensitive, clean_obj, keys_redactItems, Settled, KeysSettled, unshaped_safeKeys,
        settledItems_iff, redactItems_eq, List.forall_mem_map, and_assoc]
      exact and_congr_right fun _ => and_congr_right fun _ => forall₂_congr hitem

/-- The tables of a language whose texts are ASCII. -/
def asciiUnicode : Unicode where
  nfkc := id
  casefold t := t.map Patterns.lowered
  ignorableCategory _ := false
  isWord c := Patterns.isLetter c || Patterns.isDecimal c || c == 0x5f
  nfkc_ascii _ _ := rfl
  casefold_ascii _ _ := rfl
  ignorable_ascii _ _ := rfl
  isWord_ascii _ _ := rfl

def collidingKeys : Value Unit :=
  .obj [(text "sk-aaaaaaaa bearer", .int 1), (text "sk-bbbbbbbb bearer", .int 2)]

end PokerDeliberation.Security
