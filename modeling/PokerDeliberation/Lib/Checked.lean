import Mathlib.Data.List.Basic
import Mathlib.Data.List.Forall2

/-!
# Checked computations

Code that raises on the first violated condition is `Except ε`. `require`
raises unless its condition holds. The inversion lemmas read a successful
computation as the conjunction of what it checked, and a failed one as the
first check that did not hold. `runs_induction` is the rule for a loop that
folds a raising step over its input.
-/

namespace PokerDeliberation.Lib

variable {ε α β σ : Type}

/-- Raise `e` unless `p` holds. -/
def require (p : Prop) [Decidable p] (e : ε) : Except ε Unit :=
  if p then .ok () else .error e

section Inversion

variable {p : Prop} [Decidable p] {e e' : ε} {x : Except ε α} {f : α → Except ε β} {b : β}

@[simp] theorem require_eq_ok {u : Unit} : require p e = .ok u ↔ p := by
  unfold require
  split <;> simp_all

@[simp] theorem require_eq_error : require p e = .error e' ↔ ¬ p ∧ e = e' := by
  unfold require
  split <;> simp_all

theorem require_of (h : p) : require p e = .ok () := if_pos h

@[simp] theorem pure_eq_ok {a b : α} : (pure a : Except ε α) = .ok b ↔ a = b := by
  simp [pure, Except.pure]

@[simp] theorem throw_ne_ok {a : α} : (throw e : Except ε α) ≠ .ok a := by
  simp [throw, throwThe, MonadExceptOf.throw]

@[simp] theorem throw_eq_error : (throw e : Except ε α) = .error e' ↔ e = e' := by
  simp [throw, throwThe, MonadExceptOf.throw]

theorem bind_eq_ok : x >>= f = .ok b ↔ ∃ a, x = .ok a ∧ f a = .ok b := by
  cases x <;> simp [bind, Except.bind]

theorem bind_eq_error :
    x >>= f = .error e ↔ x = .error e ∨ ∃ a, x = .ok a ∧ f a = .error e := by
  cases x <;> simp [bind, Except.bind]

theorem map_eq_ok {g : α → β} : x.map g = .ok b ↔ ∃ a, x = .ok a ∧ g a = b := by
  cases x <;> simp [Except.map]

theorem mapError_eq_ok {g : ε → ε'} : x.mapError g = .ok a ↔ x = .ok a := by
  cases x <;> simp [Except.mapError]

/-- A computation run for its checks alone, in sequence. -/
theorem check_bind_eq_ok {x : Except ε Unit} {f : Unit → Except ε β} :
    x >>= f = .ok b ↔ x = .ok () ∧ f () = .ok b := by
  rw [bind_eq_ok]
  exact ⟨fun ⟨(), h⟩ => h, fun h => ⟨(), h⟩⟩

/-- A check in sequence: it held and the rest succeeded. -/
@[simp] theorem require_bind_eq_ok {f : Unit → Except ε β} :
    require p e >>= f = .ok b ↔ p ∧ f () = .ok b := by
  by_cases h : p <;> simp [require, h, bind, Except.bind]

/-- A check in sequence: it was violated, or it held and the rest raised. -/
@[simp] theorem require_bind_eq_error {f : Unit → Except ε β} :
    require p e >>= f = .error e' ↔ (¬ p ∧ e = e') ∨ (p ∧ f () = .error e') := by
  by_cases h : p <;> simp [require, h, bind, Except.bind]

theorem bind_ok_left (h : x = .ok a) : x >>= f = f a := by
  rw [h]; rfl

/-- A loop of checks succeeds exactly when every check does. -/
theorem forM_eq_ok {check : α → Except ε Unit} (xs : List α) {u : Unit} :
    forM xs check = .ok u ↔ ∀ x ∈ xs, check x = .ok () := by
  induction xs with
  | nil => simp
  | cons y ys ih =>
    rw [List.forM_cons, List.forall_mem_cons, ← ih]
    cases check y <;> simp [bind, Except.bind]

/-- A loop that collects results succeeds exactly when every one does. -/
theorem mapM_eq_ok {f : α → Except ε β} (xs : List α) {ys : List β} :
    xs.mapM f = .ok ys ↔ List.Forall₂ (fun x y => f x = .ok y) xs ys := by
  induction xs generalizing ys with
  | nil => simp [pure, Except.pure, eq_comm]
  | cons x xs ih =>
    simp only [List.mapM_cons, bind_eq_ok, pure_eq_ok, ih, List.forall₂_cons_left_iff]
    constructor
    · rintro ⟨y, hy, ys, hys, rfl⟩
      exact ⟨y, ys, hy, hys, rfl⟩
    · rintro ⟨y, ys, hy, hys, rfl⟩
      exact ⟨y, hy, ys, hys, rfl⟩

/-- A loop whose every round succeeds collects their results. -/
theorem mapM_of_ok {f : α → Except ε β} {g : α → β} {xs : List α} (h : ∀ x ∈ xs, f x = .ok (g x)) :
    xs.mapM f = .ok (xs.map g) := by
  rw [mapM_eq_ok]
  induction xs with
  | nil => exact .nil
  | cons x xs ih =>
    obtain ⟨hx, hxs⟩ := List.forall_mem_cons.1 h
    exact .cons hx (ih hxs)

/-- Whether a computation succeeds is decided by running it. -/
instance decidableSucceeds {x : Except ε α} : Decidable (∃ a, x = .ok a) :=
  match x with
  | .ok a => .isTrue ⟨a, rfl⟩
  | .error _ => .isFalse (by simp)

theorem exists_of_forall₂ {R : α → β → Prop} {xs : List α} {ys : List β}
    (h : List.Forall₂ R xs ys) {x : α} (hx : x ∈ xs) : ∃ y ∈ ys, R x y := by
  induction h with
  | nil => cases hx
  | cons hab _ ih =>
    obtain rfl | hx := List.mem_cons.1 hx
    · exact ⟨_, List.mem_cons_self, hab⟩
    · obtain ⟨y, hy, hr⟩ := ih hx
      exact ⟨y, List.mem_cons_of_mem _ hy, hr⟩

end Inversion

/-! ## Errors that are never raised -/

/-- `x` does not fail with any of the given errors. -/
def NeverRaises (codes : List ε) (x : Except ε α) : Prop := ∀ e ∈ codes, x ≠ .error e

section NeverRaises

variable {codes : List ε} {p : Prop} [Decidable p] {e : ε} {x y : Except ε α} {f : α → Except ε β}

@[simp] theorem neverRaises_ok {a : α} : NeverRaises codes (.ok a : Except ε α) := by
  simp [NeverRaises]

@[simp] theorem neverRaises_pure {a : α} : NeverRaises codes (pure a : Except ε α) :=
  neverRaises_ok

@[simp] theorem neverRaises_error : NeverRaises codes (.error e : Except ε α) ↔ e ∉ codes := by
  simp [NeverRaises, List.forall_mem_ne]

@[simp] theorem neverRaises_require : NeverRaises codes (require p e) ↔ e ∈ codes → p := by
  by_cases h : p <;> simp [require, h]

@[simp] theorem neverRaises_bind : NeverRaises codes (x >>= f) ↔
    NeverRaises codes x ∧ ∀ a, x = .ok a → NeverRaises codes (f a) := by
  cases x <;> simp [bind, Except.bind]

@[simp] theorem neverRaises_map {g : α → β} :
    NeverRaises codes (g <$> x) ↔ NeverRaises codes x := by
  cases x <;> simp [Functor.map, Except.map]

@[simp] theorem neverRaises_ite :
    NeverRaises codes (if p then x else y) ↔
      (p → NeverRaises codes x) ∧ (¬ p → NeverRaises codes y) := by
  split <;> simp_all

theorem NeverRaises.mono {codes' : List ε} (h : NeverRaises codes x)
    (hsub : ∀ e ∈ codes', e ∈ codes) : NeverRaises codes' x :=
  fun e he => h e (hsub e he)

theorem neverRaises_forM {check : α → Except ε Unit} (xs : List α)
    (h : ∀ x ∈ xs, NeverRaises codes (check x)) : NeverRaises codes (forM xs check) := by
  induction xs with
  | nil => exact neverRaises_pure
  | cons x xs ih =>
    obtain ⟨hx, hxs⟩ := List.forall_mem_cons.1 h
    rw [List.forM_cons, neverRaises_bind]
    exact ⟨hx, fun _ _ => ih hxs⟩

end NeverRaises

/-! ## One error only -/

/-- If `x` fails, it fails with `e`. -/
def RaisesOnly (e : ε) (x : Except ε α) : Prop := ∀ e', x = .error e' → e' = e

section RaisesOnly

variable {p : Prop} [Decidable p] {e e' : ε} {x y : Except ε α} {f : α → Except ε β}

@[simp] theorem raisesOnly_ok {a : α} : RaisesOnly e (.ok a : Except ε α) := by
  simp [RaisesOnly]

@[simp] theorem raisesOnly_pure {a : α} : RaisesOnly e (pure a : Except ε α) := raisesOnly_ok

@[simp] theorem raisesOnly_error : RaisesOnly e (.error e' : Except ε α) ↔ e' = e := by
  simp [RaisesOnly]

@[simp] theorem raisesOnly_throw : RaisesOnly e (throw e' : Except ε α) ↔ e' = e :=
  raisesOnly_error

@[simp] theorem raisesOnly_require : RaisesOnly e (require p e') ↔ (¬ p → e' = e) := by
  by_cases h : p <;> simp [require, h]

theorem raisesOnly_bind : RaisesOnly e (x >>= f) ↔
    RaisesOnly e x ∧ ∀ a, x = .ok a → RaisesOnly e (f a) := by
  cases x <;> simp [bind, Except.bind]

theorem raisesOnly_forM {check : α → Except ε Unit} (xs : List α)
    (h : ∀ x ∈ xs, RaisesOnly e (check x)) : RaisesOnly e (forM xs check) := by
  induction xs with
  | nil => exact raisesOnly_pure
  | cons x xs ih =>
    obtain ⟨hx, hxs⟩ := List.forall_mem_cons.1 h
    rw [List.forM_cons, raisesOnly_bind]
    exact ⟨hx, fun _ _ => ih hxs⟩

theorem raisesOnly_mapM (xs : List α) (h : ∀ x ∈ xs, RaisesOnly e (f x)) :
    RaisesOnly e (xs.mapM f) := by
  induction xs with
  | nil => exact raisesOnly_pure
  | cons x xs ih =>
    obtain ⟨hx, hxs⟩ := List.forall_mem_cons.1 h
    rw [List.mapM_cons, raisesOnly_bind]
    refine ⟨hx, fun _ _ => ?_⟩
    rw [raisesOnly_bind]
    exact ⟨ih hxs, fun _ _ => raisesOnly_pure⟩

/-- A loop raises only what its rounds raise, each after those before it. -/
theorem raisesOnly_foldlM {step : σ → α → Except ε σ} (xs : List α) {s : σ}
    (h : ∀ done x rest t, xs = done ++ x :: rest → done.foldlM step s = .ok t →
      RaisesOnly e (step t x)) : RaisesOnly e (xs.foldlM step s) := by
  induction xs generalizing s with
  | nil => exact raisesOnly_pure
  | cons x xs ih =>
    rw [List.foldlM_cons, raisesOnly_bind]
    refine ⟨h [] x xs s rfl rfl, fun t ht => ih fun done y rest u hxs hdone => ?_⟩
    refine h (x :: done) y rest u (by rw [hxs]; rfl) ?_
    rw [List.foldlM_cons, ht]
    exact hdone

end RaisesOnly

/-- `pairwise(xs)`: every entry with the one after it. -/
theorem forall_mem_zip_tail {R : α → α → Prop} :
    ∀ {xs : List α}, (∀ p ∈ xs.zip xs.tail, R p.1 p.2) ↔ xs.IsChain R
  | [] => by simp
  | [x] => by simp
  | x :: y :: rest => by
    have ih : (∀ p ∈ (y :: rest).zip (y :: rest).tail, R p.1 p.2) ↔ (y :: rest).IsChain R :=
      forall_mem_zip_tail
    simp only [List.tail_cons] at ih
    simp only [List.tail_cons, List.zip_cons_cons, List.forall_mem_cons, List.isChain_cons_cons, ih]

/-! ## Runs of a raising step -/

section Runs

variable {step : σ → α → Except ε σ} {s s' : σ}

/-- What holds at the start and is kept by every step holds after the loop;
`I` may speak of the input consumed so far. -/
theorem runs_induction {I : List α → σ → Prop} (h0 : I [] s)
    (hstep : ∀ done s a s', I done s → step s a = .ok s' → I (done ++ [a]) s') :
    ∀ {as : List α}, as.foldlM step s = .ok s' → I as s' := by
  suffices h : ∀ (as done : List α) (s s' : σ), I done s → as.foldlM step s = .ok s' →
      I (done ++ as) s' by
    intro as hrun
    simpa using h as [] s s' h0 hrun
  intro as
  induction as with
  | nil =>
    intro done s s' hI hrun
    simp only [List.foldlM_nil, pure_eq_ok] at hrun
    subst hrun
    simpa using hI
  | cons a as ih =>
    intro done s s' hI hrun
    simp only [List.foldlM_cons, bind_eq_ok] at hrun
    obtain ⟨t, ht, hrun⟩ := hrun
    have := ih (done ++ [a]) t s' (hstep done s a t hI ht) hrun
    simpa using this

/-- A successful loop over a concatenation stops at the seam. -/
theorem foldlM_append_ok {as bs : List α} :
    (as ++ bs).foldlM step s = .ok s' ↔
      ∃ t, as.foldlM step s = .ok t ∧ bs.foldlM step t = .ok s' := by
  rw [List.foldlM_append, bind_eq_ok]

/-- The last round of an indexed loop. -/
theorem foldlM_zipIdx_concat_ok {step : σ → α × Nat → Except ε σ} {as : List α} {a : α} :
    (as ++ [a]).zipIdx.foldlM step s = .ok s' ↔
      ∃ t, as.zipIdx.foldlM step s = .ok t ∧ step t (a, as.length) = .ok s' := by
  rw [List.zipIdx_append, foldlM_append_ok]
  simp only [Nat.zero_add, List.zipIdx_cons, List.zipIdx_nil, List.foldlM_cons, List.foldlM_nil,
    bind_eq_ok, pure_eq_ok, exists_eq_right]

end Runs

end PokerDeliberation.Lib
