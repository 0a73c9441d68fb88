import Mathlib.Data.List.Basic

/-!
# Lines and paths

`linesOf` cuts at every line break, a carriage return and a line feed in
sequence being one. What follows the last break is a line if there is anything.

A relative path by its parts: `parts` drops the empty and the `.` ones, `posix`
puts parts together again. Several texts are one path, and one text among them
is the path's own.
-/

namespace PokerDeliberation.Lib

section

variable {α : Type} [DecidableEq α] (isBreak : α → Bool) (cr lf : α)

/-- `splitlines` from inside a line on; `afterCr` is set right after a carriage return. -/
def linesFrom (afterCr : Bool) (line : List α) : List α → List (List α)
  | [] => if line = [] then [] else [line]
  | c :: t =>
    if afterCr ∧ c = lf then linesFrom false line t
    else if isBreak c then line :: linesFrom (decide (c = cr)) [] t
    else linesFrom false (line ++ [c]) t

def linesOf (t : List α) : List (List α) := linesFrom isBreak cr lf false [] t

variable {isBreak cr lf} {line t u : List α} {c : α}

/-- A line goes on up to the next break. -/
theorem linesFrom_break (ht : ∀ d ∈ t, isBreak d = false) (hc : isBreak c = true) :
    linesFrom isBreak cr lf false line (t ++ c :: u) =
      (line ++ t) :: linesFrom isBreak cr lf (decide (c = cr)) [] u := by
  induction t generalizing line with
  | nil => simp [linesFrom, hc]
  | cons d t ih =>
    have hd := ht d List.mem_cons_self
    have hrest := @ih (line ++ [d]) fun e he => ht e (List.mem_cons_of_mem _ he)
    simp only [List.cons_append, linesFrom, hd, Bool.false_eq_true, false_and, if_false, hrest,
      List.append_assoc, List.nil_append]

/-- The first line of what goes on with a break. -/
theorem linesOf_head (ht : ∀ d ∈ t, isBreak d = false) (hc : isBreak c = true) :
    ∃ rest, linesOf isBreak cr lf (t ++ c :: u) = t :: rest :=
  ⟨_, linesFrom_break ht hc⟩

end

/-! ## Pieces and records -/

section

variable {α : Type} [DecidableEq α] {sep : α} {data piece : List α}

theorem not_mem_of_mem_splitOn (h : piece ∈ data.splitOn sep) : sep ∉ piece := by
  induction data generalizing piece with
  | nil =>
    simp only [List.splitOn_nil, List.mem_singleton] at h
    simp [h]
  | cons c data ih =>
    rw [List.splitOn_cons_eq_if_modifyHead] at h
    split at h
    · rcases List.mem_cons.1 h with rfl | h
      · simp
      · exact ih h
    · rename_i hc
      cases hs : data.splitOn sep with
      | nil => exact absurd hs (List.splitOn_ne_nil _ _)
      | cons head tail =>
        rw [hs, List.modifyHead_cons] at h
        rw [hs] at ih
        rcases List.mem_cons.1 h with rfl | h
        · simp only [List.mem_cons, not_or]
          exact ⟨fun heq => hc (by simp [heq]), ih List.mem_cons_self⟩
        · exact ih (List.mem_cons_of_mem _ h)

omit [DecidableEq α] in
theorem flatMap_concat {pieces : List (List α)} (h : pieces ≠ []) :
    pieces.flatMap (· ++ [sep]) = [sep].intercalate pieces ++ [sep] := by
  induction pieces with
  | nil => exact absurd rfl h
  | cons piece pieces ih =>
    cases pieces with
    | nil => simp
    | cons next pieces =>
      rw [List.flatMap_cons, ih (by simp), List.intercalate_cons_cons]
      simp

/-- What ends in the separator is the pieces before it, each with one. -/
theorem flatMap_splitOn (h : data.getLast? = some sep) :
    (data.splitOn sep).dropLast.flatMap (· ++ [sep]) = data := by
  obtain ⟨front, rfl⟩ := List.getLast?_eq_some_iff.1 h
  have hsplit : (front ++ [sep]).splitOn sep = front.splitOn sep ++ [[]] := by
    rw [List.splitOn_append_cons_self, List.splitOn_nil]
  rw [hsplit, List.dropLast_concat, flatMap_concat (List.splitOn_ne_nil _ _),
    List.intercalate_splitOn]

end

end PokerDeliberation.Lib

namespace PokerDeliberation.Lib

/-! ## Relative paths -/

/-- `Path(value).parts`. -/
def parts (value : String) : List (List Char) :=
  (value.toList.splitOn '/').filter fun part => part ≠ [] ∧ part ≠ ['.']

/-- `Path.as_posix`. -/
def posix (path : List (List Char)) : String := String.ofList (['/'].intercalate path)

/-- The text a path has for itself. -/
def normal (value : String) : String := posix (parts value)

/-- One of the paths runs through the other. -/
def Overlap (path other : List (List Char)) : Prop := path <+: other ∨ other <+: path

instance {path other : List (List Char)} : Decidable (Overlap path other) :=
  inferInstanceAs (Decidable (_ ∨ _))

theorem Overlap.symm {path other : List (List Char)} (h : Overlap path other) :
    Overlap other path := Or.symm h

theorem Overlap.refl (path : List (List Char)) : Overlap path path := .inl List.prefix_rfl

/-- A path is read back from its own text. -/
theorem parts_normal (value : String) : parts (normal value) = parts value := by
  unfold normal posix
  by_cases hnil : parts value = []
  · rw [hnil]
    rfl
  · have hsep : ∀ part ∈ parts value, '/' ∉ part := fun part h =>
      not_mem_of_mem_splitOn (List.mem_filter.1 h).1
    unfold parts at hsep hnil ⊢
    rw [String.toList_ofList, List.splitOn_intercalate '/' hsep hnil, List.filter_filter]
    simp

@[simp] theorem normal_normal (value : String) : normal (normal value) = normal value := by
  rw [normal, parts_normal, normal]

end PokerDeliberation.Lib
