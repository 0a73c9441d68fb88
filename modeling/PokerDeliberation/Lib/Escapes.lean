import PokerDeliberation.Lib.Checked

/-!
# Errors that pass a handler

A handler catches one error of a raising computation; any other escapes it. The
rules say where in a computation an error escapes: in a sequence after a first
part that succeeded, in a loop in the first round that fails.
-/

namespace PokerDeliberation.Lib

variable {ε ε' α β σ : Type}

/-- `x` fails, and with another error than `e`. -/
def Escapes (e : ε) (x : Except ε α) : Prop := ∃ e', e' ≠ e ∧ x = .error e'

variable {e e' : ε} {x : Except ε α} {f : α → Except ε β} {p : Prop} [Decidable p]

theorem not_escapes : ¬ Escapes e x ↔ RaisesOnly e x := by
  unfold Escapes RaisesOnly
  simp only [not_exists, not_and]
  exact forall_congr' fun e' => ⟨fun h heq => by_contra fun hne => h hne heq, fun h hne heq => hne (h heq)⟩

@[simp] theorem escapes_ok {a : α} : ¬ Escapes e (.ok a : Except ε α) := by simp [Escapes]

@[simp] theorem escapes_pure {a : α} : ¬ Escapes e (pure a : Except ε α) := escapes_ok

@[simp] theorem escapes_error : Escapes e (.error e' : Except ε α) ↔ e' ≠ e := by simp [Escapes]

@[simp] theorem escapes_require : ¬ Escapes e (require p e) := by
  by_cases h : p <;> simp [require, h]

/-- All errors become the one that is caught. -/
@[simp] theorem escapes_mapError_const {y : Except ε' α} :
    ¬ Escapes e (y.mapError fun _ => e) := by
  cases y <;> simp [Except.mapError]

theorem escapes_bind : Escapes e (x >>= f) ↔ Escapes e x ∨ ∃ a, x = .ok a ∧ Escapes e (f a) := by
  cases x <;> simp [bind, Except.bind]

/-- A part that does not let an error escape leaves it to the rest. -/
theorem escapes_bind_of_not (h : ¬ Escapes e x) :
    Escapes e (x >>= f) ↔ ∃ a, x = .ok a ∧ Escapes e (f a) := by
  rw [escapes_bind, or_iff_right h]

theorem escapes_require_bind {f : Unit → Except ε β} :
    Escapes e (require p e >>= f) ↔ p ∧ Escapes e (f ()) := by
  by_cases h : p <;> simp [require, h, bind, Except.bind]

/-- What escapes a loop escapes one of its rounds, each before it having succeeded. -/
theorem escapes_foldlM {step : σ → α → Except ε σ} {xs : List α} {s : σ} :
    Escapes e (xs.foldlM step s) ↔ ∃ front x back t, xs = front ++ x :: back ∧
      front.foldlM step s = .ok t ∧ Escapes e (step t x) := by
  induction xs generalizing s with
  | nil =>
    constructor
    · exact fun h => absurd h escapes_pure
    · rintro ⟨front, x, back, t, h, -⟩
      exact absurd h.symm (by simp)
  | cons y xs ih =>
    rw [List.foldlM_cons, escapes_bind]
    constructor
    · rintro (h | ⟨t, ht, h⟩)
      · exact ⟨[], y, xs, s, rfl, rfl, h⟩
      · obtain ⟨front, x, back, u, rfl, hfront, hx⟩ := ih.1 h
        refine ⟨y :: front, x, back, u, rfl, ?_, hx⟩
        rw [List.foldlM_cons, ht]
        exact hfront
    · rintro ⟨front, x, back, u, hxs, hfront, hx⟩
      cases front with
      | nil =>
        obtain ⟨rfl, rfl⟩ := List.cons.inj hxs
        rw [List.foldlM_nil, pure_eq_ok] at hfront
        exact .inl (hfront ▸ hx)
      | cons z front =>
        obtain ⟨rfl, rfl⟩ := List.cons.inj hxs
        rw [List.foldlM_cons, bind_eq_ok] at hfront
        obtain ⟨t, ht, hfront⟩ := hfront
        exact .inr ⟨t, ht, ih.2 ⟨front, x, back, u, rfl, hfront, hx⟩⟩

/-- What escapes a loop of checks escapes one of them, each before it having passed. -/
theorem escapes_forM {check : α → Except ε Unit} {xs : List α} :
    Escapes e (xs.forM check) ↔ ∃ front x back, xs = front ++ x :: back ∧
      (∀ y ∈ front, check y = .ok ()) ∧ Escapes e (check x) := by
  have hfold : ∀ ys : List α, ys.foldlM (fun _ x => check x) () = ys.forM check := by
    intro ys
    induction ys with
    | nil => rfl
    | cons y ys ih =>
      show (check y >>= fun _ => ys.foldlM (fun _ x => check x) ()) = _
      rw [ih]
      rfl
  have hpass : ∀ {ys : List α} {u : Unit}, ys.forM check = .ok u ↔ ∀ y ∈ ys, check y = .ok () :=
    fun {ys u} => forM_eq_ok ys
  rw [← hfold, escapes_foldlM]
  simp only [hfold, hpass]
  constructor
  · rintro ⟨front, x, back, -, hxs, hfront, hx⟩
    exact ⟨front, x, back, hxs, hfront, hx⟩
  · rintro ⟨front, x, back, hxs, hfront, hx⟩
    exact ⟨front, x, back, (), hxs, hfront, hx⟩

/-- What escapes a loop that collects results escapes one of its rounds, each before it having
succeeded. -/
theorem escapes_mapM {xs : List α} :
    Escapes e (xs.mapM f) ↔ ∃ front x back, xs = front ++ x :: back ∧
      (∀ y ∈ front, ∃ b, f y = .ok b) ∧ Escapes e (f x) := by
  induction xs with
  | nil =>
    constructor
    · exact fun h => absurd h escapes_pure
    · rintro ⟨front, x, back, h, -⟩
      exact absurd h.symm (by simp)
  | cons y xs ih =>
    rw [List.mapM_cons, escapes_bind]
    simp only [escapes_bind, escapes_pure, and_false, exists_false, or_false, ih]
    constructor
    · rintro (h | ⟨b, hb, front, x, back, rfl, hfront, hx⟩)
      · exact ⟨[], y, xs, rfl, by simp, h⟩
      · exact ⟨y :: front, x, back, rfl, List.forall_mem_cons.2 ⟨⟨b, hb⟩, hfront⟩, hx⟩
    · rintro ⟨front, x, back, hxs, hfront, hx⟩
      cases front with
      | nil =>
        obtain ⟨rfl, rfl⟩ := List.cons.inj hxs
        exact .inl hx
      | cons z front =>
        obtain ⟨rfl, rfl⟩ := List.cons.inj hxs
        obtain ⟨⟨b, hb⟩, hfront⟩ := List.forall_mem_cons.1 hfront
        exact .inr ⟨b, hb, front, x, back, rfl, hfront, hx⟩

end PokerDeliberation.Lib
