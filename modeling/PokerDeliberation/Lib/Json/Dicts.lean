import PokerDeliberation.Lib.Json.RoundTrip

/-!
# Dictionaries

Read without a hook, the items of an object become a dictionary, in which the
last value given for a key stands at the place of the first. A value whose
dictionaries have distinct keys is not changed by that.
-/

namespace PokerDeliberation.Lib.Json.Value

variable {F : Type}

/-- `d[key] = x`. -/
def insertItem (d : List (Text × Value F)) (item : Text × Value F) : List (Text × Value F) :=
  if item.1 ∈ d.map (·.1) then d.map fun x => if x.1 = item.1 then item else x else d ++ [item]

/-- `dict(items)`. -/
def lastWins (items : List (Text × Value F)) : List (Text × Value F) := items.foldl insertItem []

mutual

def collapsed : Value F → Value F
  | .arr xs => .arr (collapsedAll xs)
  | .obj items => .obj (lastWins (collapsedItems items))
  | .null => .null
  | .bool b => .bool b
  | .int n => .int n
  | .float x => .float x
  | .str s => .str s

def collapsedAll : List (Value F) → List (Value F)
  | [] => []
  | x :: xs => x.collapsed :: collapsedAll xs

def collapsedItems : List (Text × Value F) → List (Text × Value F)
  | [] => []
  | (key, x) :: items => (key, x.collapsed) :: collapsedItems items

end

variable {v : Value F} {xs : List (Value F)} {items : List (Text × Value F)}

theorem collapsedAll_eq : collapsedAll xs = xs.map collapsed := by
  induction xs with
  | nil => rfl
  | cons x xs ih => rw [collapsedAll, ih, List.map_cons]

theorem collapsedItems_eq : collapsedItems items = items.map fun x => (x.1, x.2.collapsed) := by
  induction items with
  | nil => rfl
  | cons x items ih => rw [collapsedItems, ih, List.map_cons]

theorem lastWins_of_nodup (h : (items.map (·.1)).Nodup) : lastWins items = items := by
  have hfold : ∀ (more done : List (Text × Value F)), ((done ++ more).map (·.1)).Nodup →
      more.foldl insertItem done = done ++ more := by
    intro more
    induction more with
    | nil => intro done _; simp
    | cons x more ih =>
      intro done hnodup
      have hfresh : x.1 ∉ done.map (·.1) := by
        rw [List.map_append, List.nodup_append] at hnodup
        intro hmem
        exact hnodup.2.2 _ hmem _ (List.mem_map_of_mem List.mem_cons_self) rfl
      rw [List.foldl_cons, insertItem, if_neg hfresh, ih _ (by simpa using hnodup)]
      simp
  exact hfold items [] h

theorem Distinct.arr (h : (Value.arr xs).Distinct) : ∀ x ∈ xs, x.Distinct :=
  fun x hx items hitems => h items (mem_objectsAll.2 ⟨x, hx, hitems⟩)

theorem Distinct.obj (h : (Value.obj items).Distinct) :
    (items.map (·.1)).Nodup ∧ ∀ x ∈ items, x.2.Distinct :=
  ⟨h items List.mem_cons_self, fun x hx items' hitems =>
    h items' (List.mem_cons_of_mem _ (mem_objectsItems.2 ⟨x, hx, hitems⟩))⟩

theorem collapsed_of_distinct (h : v.Distinct) : v.collapsed = v := by
  induction v using induction_depth with
  | step v ih =>
    cases v with
    | null | bool | int | float | str => rfl
    | arr xs =>
      have hxs : xs.map collapsed = xs := by
        conv_rhs => rw [← List.map_id xs]
        exact List.map_congr_left fun x hx => ih x (depth_lt_arr hx) (h.arr x hx)
      rw [collapsed, collapsedAll_eq, hxs]
    | obj items =>
      obtain ⟨hnodup, hall⟩ := h.obj
      have hitems : (items.map fun x => (x.1, x.2.collapsed)) = items := by
        conv_rhs => rw [← List.map_id items]
        refine List.map_congr_left fun x hx => ?_
        rw [ih x.2 (depth_lt_obj hx) (hall x hx)]
        rfl
      rw [collapsed, collapsedItems_eq, hitems, lastWins_of_nodup hnodup]

end PokerDeliberation.Lib.Json.Value
