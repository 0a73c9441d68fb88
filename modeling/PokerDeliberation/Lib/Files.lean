import PokerDeliberation.Lib.Assoc
import Mathlib.Algebra.BigOperators.Group.List.Basic
import Mathlib.Algebra.GroupWithZero.Nat

/-!
# Files and their sizes

Named files with their contents, no name twice. `total` is what all of them
hold; each operation says what it adds to the total and takes from it.
-/

namespace PokerDeliberation.Lib

structure Files (κ β : Type) where
  entries : List (κ × List β)
  distinct : (entries.map Prod.fst).Nodup

namespace Files

variable {κ β : Type} [DecidableEq κ]

def empty : Files κ β := ⟨[], List.nodup_nil⟩

variable (files : Files κ β)

def find (name : κ) : Option (List β) := files.entries.lookup name

/-- What the file holds, 0 if there is none. -/
def size (name : κ) : Nat := ((files.find name).map List.length).getD 0

/-- What all files hold. -/
def total : Nat := (files.entries.map fun entry => entry.2.length).sum

def remove (name : κ) : Files κ β where
  entries := files.entries.filter fun entry => entry.1 ≠ name
  distinct := files.distinct.sublist (List.filter_sublist.map _)

/-- The file with these contents, whatever it held before. -/
def put (name : κ) (data : List β) : Files κ β where
  entries := (name, data) :: (files.remove name).entries
  distinct := by
    rw [List.map_cons, List.nodup_cons]
    refine ⟨fun hmem => ?_, (files.remove name).distinct⟩
    obtain ⟨entry, hentry, heq⟩ := List.mem_map.1 hmem
    simp only [remove, List.mem_filter, decide_eq_true_eq] at hentry
    exact hentry.2 heq

/-- The file takes the place of another. -/
def move (source target : κ) : Files κ β :=
  match files.find source with
  | some data => (files.remove source).put target data
  | none => files

/-- Every file under its new name. -/
def rename (f : κ → κ) : Files κ β :=
  files.entries.foldr (fun entry renamed => renamed.put (f entry.1) entry.2) empty

variable {files} {name other source target : κ} {data : List β}

theorem find_remove_of_ne (h : name ≠ other) : (files.remove other).find name = files.find name :=
  lookup_filter_ne h

@[simp] theorem find_put_self : (files.put name data).find name = some data := lookup_cons_self

theorem find_put_of_ne (h : name ≠ other) : (files.put other data).find name = files.find name := by
  rw [find, put, lookup_cons_ne h]
  exact find_remove_of_ne h

theorem find_move_of_ne (hsource : name ≠ source) (htarget : name ≠ target) :
    (files.move source target).find name = files.find name := by
  unfold move
  split
  · rw [find_put_of_ne htarget, find_remove_of_ne hsource]
  · rfl

/-- A file that keeps its name, which no other takes, stays. -/
theorem find_rename {f : κ → κ} (h : ∀ other, f other = name ↔ other = name) :
    (files.rename f).find name = files.find name := by
  unfold rename find
  induction files.entries with
  | nil => rfl
  | cons entry entries ih =>
    obtain ⟨other, data⟩ := entry
    rw [List.foldr_cons]
    by_cases heq : name = other
    · subst heq
      rw [(h name).2 rfl, lookup_cons_self]
      exact find_put_self
    · rw [lookup_cons_ne heq, ← ih]
      exact find_put_of_ne fun hf => heq ((h other).1 hf.symm).symm

/-! ## Totals -/

theorem total_remove (files : Files κ β) (name : κ) :
    (files.remove name).total + files.size name = files.total := by
  obtain ⟨entries, hdistinct⟩ := files
  simp only [total, remove, size, find]
  induction entries with
  | nil => rfl
  | cons entry entries ih =>
    obtain ⟨other, data⟩ := entry
    rw [List.map_cons, List.nodup_cons] at hdistinct
    have ih := ih hdistinct.2
    by_cases heq : other = name
    · subst heq
      have hnone : entries.lookup other = none := by
        rw [← Option.not_isSome_iff_eq_none, lookup_isSome]
        exact hdistinct.1
      rw [hnone] at ih
      rw [List.filter_cons_of_neg (by simp), lookup_cons_self, List.map_cons, List.sum_cons]
      simp only [Option.map_some, Option.getD_some, Option.map_none, Option.getD_none] at ih ⊢
      omega
    · rw [List.filter_cons_of_pos (by simpa using heq), lookup_cons_ne (Ne.symm heq)]
      simp only [List.map_cons, List.sum_cons] at ih ⊢
      omega

theorem total_put (files : Files κ β) (name : κ) (data : List β) :
    (files.put name data).total + files.size name = files.total + data.length := by
  have hremove := total_remove files name
  have hput : (files.put name data).total = data.length + (files.remove name).total := rfl
  omega

theorem total_put_le : (files.put name data).total ≤ files.total + data.length := by
  have := total_put files name data
  omega

/-- The replaced file is gone from the total. -/
theorem total_move (hne : source ≠ target) (h : files.find source = some data) :
    (files.move source target).total + files.size target = files.total := by
  have hmove : files.move source target = (files.remove source).put target data := by
    rw [move, h]
  have hput := total_put (files.remove source) target data
  have hremove := total_remove files source
  have htarget : (files.remove source).size target = files.size target := by
    rw [size, find_remove_of_ne hne.symm, size]
  have hsource : files.size source = data.length := by rw [size, h]; rfl
  rw [hmove]
  omega

theorem total_move_le (hne : source ≠ target) : (files.move source target).total ≤ files.total := by
  cases h : files.find source with
  | none =>
    have hmove : files.move source target = files := by rw [move, h]
    exact Nat.le_of_eq (congrArg total hmove)
  | some data =>
    have := total_move hne h
    omega

theorem total_rename_le {f : κ → κ} : (files.rename f).total ≤ files.total := by
  unfold rename total
  induction files.entries with
  | nil => exact Nat.le_refl 0
  | cons entry entries ih =>
    rw [List.foldr_cons, List.map_cons, List.sum_cons, Nat.add_comm]
    exact Nat.le_trans total_put_le (Nat.add_le_add_right ih _)

theorem size_le_total : files.size name ≤ files.total := by
  have := total_remove files name
  omega

end Files

end PokerDeliberation.Lib
