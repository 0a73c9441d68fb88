import PokerDeliberation.Lib.Utf8
import Mathlib.Data.List.Sort
import Mathlib.Data.List.Lex

/-!
# Values of JSON shape

The values a JSON text can stand for, over a type `F` of floating-point
numbers. A dictionary is the list of its items in insertion order; two values
are the same when they are equal with every dictionary sorted by key.
-/

namespace PokerDeliberation.Lib.Json

inductive Value (F : Type) where
  | null
  | bool (b : Bool)
  | int (n : Int)
  | float (x : F)
  | str (s : Text)
  | arr (xs : List (Value F))
  | obj (items : List (Text × Value F))

namespace Value

variable {F : Type}

/-- Items by key. -/
def sortItems (items : List (Text × Value F)) : List (Text × Value F) :=
  items.insertionSort fun x y => x.1 ≤ y.1

mutual

/-- The value with every dictionary sorted by key. -/
def sorted : Value F → Value F
  | .arr xs => .arr (sortedAll xs)
  | .obj items => .obj (sortItems (sortedItems items))
  | .null => .null
  | .bool b => .bool b
  | .int n => .int n
  | .float x => .float x
  | .str s => .str s

def sortedAll : List (Value F) → List (Value F)
  | [] => []
  | x :: xs => x.sorted :: sortedAll xs

def sortedItems : List (Text × Value F) → List (Text × Value F)
  | [] => []
  | (key, x) :: items => (key, x.sorted) :: sortedItems items

end

/-- `v == w`: dictionaries are compared without their order. -/
def Same (v w : Value F) : Prop := v.sorted = w.sorted

mutual

/-- How deep containers are nested. -/
def depth : Value F → Nat
  | .arr xs => depthAll xs + 1
  | .obj items => depthItems items + 1
  | .null | .bool _ | .int _ | .float _ | .str _ => 0

def depthAll : List (Value F) → Nat
  | [] => 0
  | x :: xs => max x.depth (depthAll xs)

def depthItems : List (Text × Value F) → Nat
  | [] => 0
  | (_, x) :: items => max x.depth (depthItems items)

end

mutual

/-- All strings of a value, those of its keys among them. -/
def strings : Value F → List Text
  | .str s => [s]
  | .arr xs => stringsAll xs
  | .obj items => stringsItems items
  | .null | .bool _ | .int _ | .float _ => []

def stringsAll : List (Value F) → List Text
  | [] => []
  | x :: xs => x.strings ++ stringsAll xs

def stringsItems : List (Text × Value F) → List Text
  | [] => []
  | (key, x) :: items => key :: (x.strings ++ stringsItems items)

end

mutual

/-- The strings of a value that are no keys. -/
def texts : Value F → List Text
  | .str s => [s]
  | .arr xs => textsAll xs
  | .obj items => textsItems items
  | .null | .bool _ | .int _ | .float _ => []

def textsAll : List (Value F) → List Text
  | [] => []
  | x :: xs => x.texts ++ textsAll xs

def textsItems : List (Text × Value F) → List Text
  | [] => []
  | (_, x) :: items => x.texts ++ textsItems items

end

mutual

/-- All dictionaries of a value, by their items. -/
def objects : Value F → List (List (Text × Value F))
  | .arr xs => objectsAll xs
  | .obj items => items :: objectsItems items
  | .null | .bool _ | .int _ | .float _ | .str _ => []

def objectsAll : List (Value F) → List (List (Text × Value F))
  | [] => []
  | x :: xs => x.objects ++ objectsAll xs

def objectsItems : List (Text × Value F) → List (List (Text × Value F))
  | [] => []
  | (_, x) :: items => x.objects ++ objectsItems items

end

/-- The keys of all dictionaries of a value. -/
def keys (v : Value F) : List Text := v.objects.flatMap fun items => items.map (·.1)

/-- The keys of every dictionary are distinct, as those of a dictionary are. -/
def Distinct (v : Value F) : Prop := ∀ items ∈ v.objects, (items.map (·.1)).Nodup

variable {v w : Value F} {xs : List (Value F)} {items items' : List (Text × Value F)} {n : Nat}

/-! ## Lists of values -/

theorem sortedAll_eq : sortedAll xs = xs.map sorted := by
  induction xs with
  | nil => rfl
  | cons x xs ih => rw [sortedAll, ih, List.map_cons]

theorem sortedItems_eq : sortedItems items = items.map fun x => (x.1, x.2.sorted) := by
  induction items with
  | nil => rfl
  | cons x items ih => rw [sortedItems, ih, List.map_cons]

theorem depthAll_le : depthAll xs ≤ n ↔ ∀ x ∈ xs, x.depth ≤ n := by
  induction xs with
  | nil => simp [depthAll]
  | cons x xs ih => simp [depthAll, ih]

theorem depthItems_le : depthItems items ≤ n ↔ ∀ x ∈ items, x.2.depth ≤ n := by
  induction items with
  | nil => simp [depthItems]
  | cons x items ih =>
    obtain ⟨key, x⟩ := x
    simp [depthItems, ih]

theorem mem_stringsAll {s : Text} : s ∈ stringsAll xs ↔ ∃ x ∈ xs, s ∈ x.strings := by
  induction xs with
  | nil => simp [stringsAll]
  | cons x xs ih => simp [stringsAll, ih]

theorem mem_stringsItems {s : Text} :
    s ∈ stringsItems items ↔ ∃ x ∈ items, s = x.1 ∨ s ∈ x.2.strings := by
  induction items with
  | nil => simp [stringsItems]
  | cons x items ih =>
    obtain ⟨key, x⟩ := x
    simp [stringsItems, ih, or_assoc]

theorem mem_textsAll {s : Text} : s ∈ textsAll xs ↔ ∃ x ∈ xs, s ∈ x.texts := by
  induction xs with
  | nil => simp [textsAll]
  | cons x xs ih => simp [textsAll, ih]

theorem mem_textsItems {s : Text} : s ∈ textsItems items ↔ ∃ x ∈ items, s ∈ x.2.texts := by
  induction items with
  | nil => simp [textsItems]
  | cons x items ih =>
    obtain ⟨key, x⟩ := x
    simp [textsItems, ih]

theorem mem_objectsAll : items ∈ objectsAll xs ↔ ∃ x ∈ xs, items ∈ x.objects := by
  induction xs with
  | nil => simp [objectsAll]
  | cons x xs ih => simp [objectsAll, ih]

theorem mem_objectsItems : items' ∈ objectsItems items ↔ ∃ x ∈ items, items' ∈ x.2.objects := by
  induction items with
  | nil => simp [objectsItems]
  | cons x items ih =>
    obtain ⟨key, x⟩ := x
    simp [objectsItems, ih]

theorem mem_keys_arr {key : Text} : key ∈ (arr xs).keys ↔ ∃ x ∈ xs, key ∈ x.keys := by
  simp only [keys, objects, List.mem_flatMap, mem_objectsAll]
  constructor
  · rintro ⟨items, ⟨x, hx, hitems⟩, hkey⟩
    exact ⟨x, hx, items, hitems, hkey⟩
  · rintro ⟨x, hx, items, hitems, hkey⟩
    exact ⟨items, ⟨x, hx, hitems⟩, hkey⟩

theorem mem_keys_obj {key : Text} :
    key ∈ (obj items).keys ↔ ∃ x ∈ items, key = x.1 ∨ key ∈ x.2.keys := by
  simp only [keys, objects, List.flatMap_cons, List.mem_append, List.mem_map, List.mem_flatMap,
    mem_objectsItems]
  constructor
  · rintro (⟨x, hx, rfl⟩ | ⟨items', ⟨x, hx, hitems⟩, hkey⟩)
    · exact ⟨x, hx, .inl rfl⟩
    · exact ⟨x, hx, .inr ⟨items', hitems, hkey⟩⟩
  · rintro ⟨x, hx, rfl | ⟨items', hitems, hkey⟩⟩
    · exact .inl ⟨x, hx, rfl⟩
    · exact .inr ⟨items', ⟨x, hx, hitems⟩, hkey⟩

/-- Induction over values: the members of a container are of smaller depth. -/
theorem induction_depth {motive : Value F → Prop}
    (step : ∀ v : Value F, (∀ w : Value F, w.depth < v.depth → motive w) → motive v) (v : Value F) :
    motive v := by
  have hall : ∀ n, ∀ v : Value F, v.depth < n → motive v := by
    intro n
    induction n with
    | zero => intro v hv; omega
    | succ n ih => exact fun v hv => step v fun w hw => ih w (by omega)
  exact hall (v.depth + 1) v (Nat.lt_succ_self _)

theorem depth_lt_arr {x : Value F} (hx : x ∈ xs) : x.depth < (arr xs).depth :=
  Nat.lt_succ_of_le (depthAll_le.1 le_rfl x hx)

theorem depth_lt_obj {x : Text × Value F} (hx : x ∈ items) : x.2.depth < (obj items).depth :=
  Nat.lt_succ_of_le (depthItems_le.1 le_rfl x hx)

/-! ## Sorting -/

theorem mem_sortItems {x : Text × Value F} : x ∈ sortItems items ↔ x ∈ items :=
  (List.perm_insertionSort _ items).mem_iff

theorem sortItems_perm : (sortItems items).Perm items := List.perm_insertionSort _ items

theorem sortItems_pairwise : (sortItems items).Pairwise fun x y => x.1 ≤ y.1 := by
  have : Std.Total (fun x y : Text × Value F => x.1 ≤ y.1) := ⟨fun _ _ => le_total _ _⟩
  have : IsTrans (Text × Value F) (fun x y => x.1 ≤ y.1) := ⟨fun _ _ _ => le_trans⟩
  exact List.pairwise_insertionSort _ _

theorem sortItems_of_pairwise (h : items.Pairwise fun x y => x.1 ≤ y.1) : sortItems items = items :=
  List.Pairwise.insertionSort_eq h

theorem mem_sortedItems {x : Text × Value F} :
    x ∈ sortItems (sortedItems items) ↔ ∃ y ∈ items, x = (y.1, y.2.sorted) := by
  rw [mem_sortItems, sortedItems_eq, List.mem_map]
  exact exists_congr fun y => and_congr_right fun _ => eq_comm

@[simp] theorem sorted_sorted (v : Value F) : v.sorted.sorted = v.sorted := by
  induction v using induction_depth with
  | step v ih =>
    cases v with
    | null | bool | int | float | str => rfl
    | arr xs =>
      simp only [sorted, sortedAll_eq, List.map_map]
      refine congrArg _ (List.map_congr_left fun x hx => ?_)
      exact ih x (depth_lt_arr hx)
    | obj items =>
      simp only [sorted]
      have hfixed : sortedItems (sortItems (sortedItems items)) = sortItems (sortedItems items) := by
        rw [sortedItems_eq]
        conv_rhs => rw [← List.map_id (sortItems (sortedItems items))]
        refine List.map_congr_left fun x hx => ?_
        obtain ⟨y, hy, rfl⟩ := mem_sortedItems.1 hx
        show (y.1, y.2.sorted.sorted) = (y.1, y.2.sorted)
        rw [ih y.2 (depth_lt_obj hy)]
      rw [hfixed, sortItems_of_pairwise sortItems_pairwise]

@[simp] theorem depth_sorted (v : Value F) : v.sorted.depth = v.depth := by
  induction v using induction_depth with
  | step v ih =>
    cases v with
    | null | bool | int | float | str => rfl
    | arr xs =>
      simp only [sorted, depth, sortedAll_eq]
      refine congrArg (· + 1) (Nat.le_antisymm (depthAll_le.2 fun x hx => ?_) (depthAll_le.2 fun x hx => ?_))
      · obtain ⟨y, hy, rfl⟩ := List.mem_map.1 hx
        rw [ih y (depth_lt_arr hy)]
        exact depthAll_le.1 le_rfl y hy
      · rw [← ih x (depth_lt_arr hx)]
        exact depthAll_le.1 le_rfl _ (List.mem_map_of_mem hx)
    | obj items =>
      simp only [sorted, depth]
      refine congrArg (· + 1) (Nat.le_antisymm (depthItems_le.2 fun x hx => ?_) (depthItems_le.2 fun x hx => ?_))
      · obtain ⟨y, hy, rfl⟩ := mem_sortedItems.1 hx
        rw [ih y.2 (depth_lt_obj hy)]
        exact depthItems_le.1 le_rfl y hy
      · rw [← ih x.2 (depth_lt_obj hx)]
        exact depthItems_le.1 le_rfl _ (mem_sortedItems.2 ⟨x, hx, rfl⟩)

theorem mem_strings_sorted {s : Text} {v : Value F} : s ∈ v.sorted.strings ↔ s ∈ v.strings := by
  induction v using induction_depth with
  | step v ih =>
    cases v with
    | null | bool | int | float | str => rfl
    | arr xs =>
      simp only [sorted, strings, sortedAll_eq, mem_stringsAll, List.mem_map, exists_exists_and_eq_and]
      exact exists_congr fun x => and_congr_right fun hx => ih x (depth_lt_arr hx)
    | obj items =>
      simp only [sorted, strings, mem_stringsItems, mem_sortedItems]
      constructor
      · rintro ⟨_, ⟨y, hy, rfl⟩, hs⟩
        exact ⟨y, hy, hs.imp_right (ih y.2 (depth_lt_obj hy)).1⟩
      · rintro ⟨y, hy, hs⟩
        exact ⟨_, ⟨y, hy, rfl⟩, hs.imp_right (ih y.2 (depth_lt_obj hy)).2⟩

theorem mem_objects_sorted {v : Value F} :
    items ∈ v.sorted.objects ↔ ∃ x ∈ v.objects, items = sortItems (sortedItems x) := by
  induction v using induction_depth with
  | step v ih =>
    cases v with
    | null | bool | int | float | str => simp [sorted, objects]
    | arr xs =>
      simp only [sorted, objects, sortedAll_eq, mem_objectsAll, List.mem_map,
        exists_exists_and_eq_and]
      constructor
      · rintro ⟨x, hx, hitems⟩
        obtain ⟨y, hy, rfl⟩ := (ih x (depth_lt_arr hx)).1 hitems
        exact ⟨y, ⟨x, hx, hy⟩, rfl⟩
      · rintro ⟨y, ⟨x, hx, hy⟩, rfl⟩
        exact ⟨x, hx, (ih x (depth_lt_arr hx)).2 ⟨y, hy, rfl⟩⟩
    | obj own =>
      simp only [sorted, objects, List.mem_cons, mem_objectsItems, mem_sortedItems]
      constructor
      · rintro (rfl | ⟨_, ⟨x, hx, rfl⟩, hitems⟩)
        · exact ⟨own, .inl rfl, rfl⟩
        · obtain ⟨y, hy, rfl⟩ := (ih x.2 (depth_lt_obj hx)).1 hitems
          exact ⟨y, .inr ⟨x, hx, hy⟩, rfl⟩
      · rintro ⟨y, rfl | ⟨x, hx, hy⟩, rfl⟩
        · exact .inl rfl
        · exact .inr ⟨_, ⟨x, hx, rfl⟩, (ih x.2 (depth_lt_obj hx)).2 ⟨y, hy, rfl⟩⟩

/-- Sorting permutes the keys of a dictionary. -/
theorem keys_sorted (items : List (Text × Value F)) :
    ((sortItems (sortedItems items)).map (·.1)).Perm (items.map (·.1)) := by
  have hmap : (sortedItems items).map (·.1) = items.map (·.1) := by
    rw [sortedItems_eq, List.map_map]
    rfl
  rw [← hmap]
  exact sortItems_perm.map _

theorem distinct_sorted {v : Value F} : v.sorted.Distinct ↔ v.Distinct := by
  unfold Distinct
  constructor
  · intro h items hitems
    exact (keys_sorted items).nodup_iff.1 (h _ (mem_objects_sorted.2 ⟨items, hitems, rfl⟩))
  · rintro h _ hitems
    obtain ⟨items, hmem, rfl⟩ := mem_objects_sorted.1 hitems
    exact (keys_sorted items).nodup_iff.2 (h items hmem)

/-! ## Lookup -/

theorem lookup_eq_some_iff {key : Text} {x : Value F} (h : (items.map (·.1)).Nodup) :
    items.lookup key = some x ↔ (key, x) ∈ items := by
  induction items with
  | nil => simp
  | cons item items ih =>
    obtain ⟨own, y⟩ := item
    rw [List.map_cons, List.nodup_cons] at h
    rw [List.lookup_cons]
    by_cases hkey : key = own
    · subst hkey
      have hother : (key, x) ∉ items := fun hmem =>
        h.1 (List.mem_map.2 ⟨_, hmem, rfl⟩)
      simp [hother, eq_comm]
    · have hbeq : (key == own) = false := beq_false_of_ne hkey
      simp only [hbeq, List.mem_cons, Prod.mk.injEq, hkey, false_and, false_or]
      exact ih h.2

/-- A sorted dictionary has the same items, with their values sorted. -/
theorem lookup_sorted (key : Text) (h : (items.map (·.1)).Nodup) :
    (sortItems (sortedItems items)).lookup key = (items.lookup key).map sorted := by
  have hsorted : ((sortItems (sortedItems items)).map (·.1)).Nodup :=
    (keys_sorted items).nodup_iff.2 h
  ext x
  rw [lookup_eq_some_iff hsorted, mem_sortedItems, Option.map_eq_some_iff]
  constructor
  · rintro ⟨⟨own, y⟩, hmem, heq⟩
    obtain ⟨rfl, rfl⟩ := Prod.mk.inj heq
    exact ⟨y, (lookup_eq_some_iff h).2 hmem, rfl⟩
  · rintro ⟨y, hlookup, rfl⟩
    exact ⟨(key, y), (lookup_eq_some_iff h).1 hlookup, rfl⟩

/-- Dictionaries that are the same have the same items. -/
theorem lookup_of_same (h : (items.map (·.1)).Nodup) (h' : (items'.map (·.1)).Nodup)
    (hsame : (obj items).sorted = (obj items').sorted) (key : Text) :
    (items.lookup key).map sorted = (items'.lookup key).map sorted := by
  rw [sorted, sorted, obj.injEq] at hsame
  rw [← lookup_sorted key h, ← lookup_sorted key h', hsame]

/-! ## Distinct keys -/

theorem distinct_of_objects (h : v.objects = []) : v.Distinct := by
  intro items hitems
  rw [h] at hitems
  cases hitems

theorem distinct_arr (h : ∀ x ∈ xs, x.Distinct) : (arr xs).Distinct := by
  intro items hitems
  obtain ⟨x, hx, hmem⟩ := mem_objectsAll.1 hitems
  exact h x hx items hmem

theorem distinct_obj (hkeys : (items.map (·.1)).Nodup) (h : ∀ x ∈ items, x.2.Distinct) :
    (obj items).Distinct := by
  intro items' hitems
  rcases List.mem_cons.1 hitems with rfl | hitems
  · exact hkeys
  · obtain ⟨x, hx, hmem⟩ := mem_objectsItems.1 hitems
    exact h x hx items' hmem

end Value

end PokerDeliberation.Lib.Json
