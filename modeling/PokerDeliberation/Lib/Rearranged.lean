import Mathlib.Data.List.Perm.Basic

/-!
# Lists rearranged around what keeps its order

Some elements of a list are free to move: two lists are rearrangements when the
free elements are the same up to order and the others are the same in their
order. A fold that lets a free element change places with any other ends in the
same state on both.
-/

namespace PokerDeliberation.Lib

variable {α β σ : Type} {p : α → Bool} {xs ys zs before after : List α} {x y : α}

/-- The same free elements, and the same others in the same order. -/
structure Rearranged (p : α → Bool) (xs ys : List α) : Prop where
  kept : xs.filter (fun x => !p x) = ys.filter fun x => !p x
  free : (xs.filter p).Perm (ys.filter p)

theorem Rearranged.refl (xs : List α) : Rearranged p xs xs := ⟨rfl, .refl _⟩

theorem Rearranged.symm (h : Rearranged p xs ys) : Rearranged p ys xs := ⟨h.kept.symm, h.free.symm⟩

theorem Rearranged.trans (h : Rearranged p xs ys) (h' : Rearranged p ys zs) : Rearranged p xs zs :=
  ⟨h.kept.trans h'.kept, h.free.trans h'.free⟩

theorem Rearranged.perm (h : Rearranged p xs ys) : xs.Perm ys := by
  have hsplit : ∀ zs : List α, (zs.filter p ++ zs.filter fun x => !p x).Perm zs := fun zs =>
    List.filter_append_perm p zs
  refine (hsplit xs).symm.trans (.trans ?_ (hsplit ys))
  rw [h.kept]
  exact h.free.append_right _

/-- A free element passes the one after it. -/
theorem rearranged_swap (hx : p x = true) :
    Rearranged p (before ++ x :: y :: after) (before ++ y :: x :: after) := by
  constructor
  · simp only [List.filter_append, List.filter_cons, hx, Bool.not_true, Bool.false_eq_true, if_false]
  · refine List.Perm.filter _ (List.Perm.append_left _ (.swap _ _ _))

theorem Rearranged.map {q : β → Bool} {f : β → α} {xs ys : List β}
    (h : Rearranged p (xs.map f) (ys.map f)) (hf : Function.Injective f) (hq : ∀ x, p (f x) = q x) :
    Rearranged q xs ys := by
  have hfilter : ∀ (r : α → Bool) (zs : List β),
      (zs.map f).filter r = (zs.filter fun x => r (f x)).map f := fun r zs => List.filter_map ..
  obtain ⟨hkept, hfree⟩ := h
  rw [hfilter, hfilter] at hkept hfree
  simp only [hq] at hkept hfree
  exact ⟨hf.list_map hkept, (List.map_perm_map_iff hf).1 hfree⟩

/-! ## Folds -/

variable {f : σ → α → σ} {s : σ}

/-- A step passes all of some steps that it can pass one by one. -/
theorem foldl_pass (h : ∀ z ∈ xs, ∀ s, f (f s x) z = f (f s z) x) (s : σ) :
    xs.foldl f (f s x) = f (xs.foldl f s) x := by
  induction xs generalizing s with
  | nil => rfl
  | cons z xs ih =>
    rw [List.foldl_cons, List.foldl_cons, h z List.mem_cons_self]
    exact ih (fun w hw => h w (List.mem_cons_of_mem _ hw)) (f s z)

/-- The free elements first, and then the others. -/
theorem foldl_free_first (h : ∀ x ∈ xs, ∀ y ∈ xs, p x = true → ∀ s, f (f s x) y = f (f s y) x)
    (s : σ) : xs.foldl f s = (xs.filter fun x => !p x).foldl f ((xs.filter p).foldl f s) := by
  induction xs generalizing s with
  | nil => rfl
  | cons x xs ih =>
    have ih := ih fun y hy z hz => h y (List.mem_cons_of_mem _ hy) z (List.mem_cons_of_mem _ hz)
    rw [List.foldl_cons, ih]
    by_cases hx : p x = true
    · rw [List.filter_cons_of_pos hx, List.filter_cons_of_neg (by simp [hx]), List.foldl_cons]
    · rw [List.filter_cons_of_neg hx, List.filter_cons_of_pos (by simp [hx]), List.foldl_cons]
      refine congrArg (fun t => (xs.filter fun x => !p x).foldl f t) (foldl_pass (fun z hz s => ?_) s)
      obtain ⟨hz, hfree⟩ := List.mem_filter.1 hz
      exact (h z (List.mem_cons_of_mem _ hz) x List.mem_cons_self hfree s).symm

/-- Rearranged lists fold to the same state. -/
theorem Rearranged.foldl_eq (hr : Rearranged p xs ys)
    (h : ∀ x ∈ xs, ∀ y ∈ xs, p x = true → ∀ s, f (f s x) y = f (f s y) x) (s : σ) :
    xs.foldl f s = ys.foldl f s := by
  have hys : ∀ x ∈ ys, ∀ y ∈ ys, p x = true → ∀ s, f (f s x) y = f (f s y) x := fun x hx y hy =>
    h x (hr.perm.mem_iff.2 hx) y (hr.perm.mem_iff.2 hy)
  rw [foldl_free_first h, foldl_free_first hys, hr.kept]
  refine congrArg (fun t => (ys.filter fun x => !p x).foldl f t)
    (hr.free.foldl_eq' (fun x hx y hy s => ?_) s)
  obtain ⟨hx, hfree⟩ := List.mem_filter.1 hx
  exact h x hx y (List.mem_filter.1 hy).1 hfree s

end PokerDeliberation.Lib
