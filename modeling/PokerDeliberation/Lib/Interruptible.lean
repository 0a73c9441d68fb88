import PokerDeliberation.Lib.Checked

/-!
# Procedures that may be cut off

A procedure on a state goes through labelled steps. `run` gives the states it
passes through, each with the step that is under way in it, and how it ends
when nothing cuts it off. `Leaves x s cut t`: cut off at `cut` (`none`: run to its
end) the procedure leaves `t`. A fault that raises and a crash are alike in
this: what was done stays done.

`Triple D P x Q`: from `P` the procedure keeps `D` wherever it is cut off or
raises, and leaves `Q` when it returns.
-/

namespace PokerDeliberation.Lib

/-- A procedure on `σ` with steps labelled by `ι` that raises `ε`. -/
def Interruptible (ι ε σ α : Type) := σ → List (ι × σ) × Except ε α × σ

namespace Interruptible

variable {ι ε σ α β : Type}

instance : Monad (Interruptible ι ε σ) where
  pure a s := ([], .ok a, s)
  bind x f s :=
    match x s with
    | (passed, .ok a, t) => (passed ++ (f a t).1, (f a t).2)
    | (passed, .error e, t) => (passed, .error e, t)

def read : Interruptible ι ε σ σ := fun s => ([], .ok s, s)

def raise (e : ε) : Interruptible ι ε σ α := fun s => ([], .error e, s)

def lift (x : Except ε α) : Interruptible ι ε σ α := fun s => ([], x, s)

/-- A step that happens at once or not at all. -/
def atomic (label : ι) (g : σ → σ) : Interruptible ι ε σ Unit := fun s => ([(label, s)], .ok (), g s)

/-- A step that may be left half done, in one of the states given. -/
def gradual (label : ι) (partials : σ → List σ) (g : σ → σ) : Interruptible ι ε σ Unit := fun s =>
  ((partials s).map (Prod.mk label), .ok (), g s)

/-- `try`: the procedure with its result as a value. -/
def attempt {ε' : Type} (x : Interruptible ι ε σ α) : Interruptible ι ε' σ (Except ε α) := fun s =>
  ((x s).1, .ok (x s).2.1, (x s).2.2)

/-- A procedure on a part of the state, with its steps as steps of the whole. -/
def within {κ τ : Type} (label : ι → κ) (get : τ → σ) (put : σ → τ → τ)
    (x : Interruptible ι ε σ α) : Interruptible κ ε τ α := fun t =>
  ((x (get t)).1.map fun passed => (label passed.1, put passed.2 t), (x (get t)).2.1,
    put (x (get t)).2.2 t)

end Interruptible

section

open Interruptible

variable {ι ε σ α β : Type} {x : Interruptible ι ε σ α} {f : α → Interruptible ι ε σ β} {s t : σ}
  {a : α} {e : ε} {label : ι}

/-- Where the procedure leaves its state. -/
inductive Leaves (x : Interruptible ι ε σ α) (s : σ) : Option ι → σ → Prop where
  | cut {label : ι} {t : σ} : (label, t) ∈ (x s).1 → Leaves x s (some label) t
  | done : Leaves x s none (x s).2.2

@[simp] theorem pure_run : (pure a : Interruptible ι ε σ α) s = ([], .ok a, s) := rfl

@[simp] theorem read_run : (read : Interruptible ι ε σ σ) s = ([], .ok s, s) := rfl

@[simp] theorem raise_run : (raise e : Interruptible ι ε σ α) s = ([], .error e, s) := rfl

@[simp] theorem lift_run {y : Except ε α} : (lift y : Interruptible ι ε σ α) s = ([], y, s) := rfl

@[simp] theorem atomic_run {g : σ → σ} :
    (atomic label g : Interruptible ι ε σ Unit) s = ([(label, s)], .ok (), g s) := rfl

@[simp] theorem gradual_run {partials : σ → List σ} {g : σ → σ} :
    (gradual label partials g : Interruptible ι ε σ Unit) s =
      ((partials s).map (Prod.mk label), .ok (), g s) := rfl

/-- What follows goes through its states after those of the first part. -/
theorem bind_run : (x >>= f) s =
    match x s with
    | (passed, .ok a, t) => (passed ++ (f a t).1, (f a t).2)
    | (passed, .error e, t) => (passed, .error e, t) := rfl

/-- What returns has returned from both its parts. -/
theorem bind_returns {b : β} (h : ((x >>= f) s).2.1 = .ok b) :
    ∃ a, (x s).2.1 = .ok a ∧ (f a (x s).2.2).2.1 = .ok b ∧
      ((x >>= f) s).2.2 = (f a (x s).2.2).2.2 := by
  rw [bind_run] at h ⊢
  rcases hx : x s with ⟨passed, result, t⟩
  rw [hx] at h
  cases result with
  | ok a => exact ⟨a, rfl, h, rfl⟩
  | error e => cases h

theorem lift_bind_returns {y : Except ε α} {b : β} (h : ((lift y >>= f) s).2.1 = .ok b) :
    ∃ a, y = .ok a ∧ (f a s).2.1 = .ok b ∧ ((lift y >>= f) s).2.2 = (f a s).2.2 :=
  bind_returns h

/-! ## What holds along a procedure -/

variable {D : ι → σ → Prop} {Q : Except ε α → σ → Prop}

/-- Every state the procedure passes satisfies `D`, with the step under way,
and how it ends satisfies `Q`. -/
structure Meets (x : Interruptible ι ε σ α) (s : σ) (D : ι → σ → Prop)
    (Q : Except ε α → σ → Prop) : Prop where
  during : ∀ label t, (label, t) ∈ (x s).1 → D label t
  final : Q (x s).2.1 (x s).2.2

@[simp] theorem meets_pure : Meets (pure a) s D Q ↔ Q (.ok a) s :=
  ⟨fun h => h.final, fun h => ⟨fun _ _ hmem => by simp at hmem, h⟩⟩

@[simp] theorem meets_raise : Meets (raise e) s D Q ↔ Q (.error e) s :=
  ⟨fun h => h.final, fun h => ⟨fun _ _ hmem => by simp at hmem, h⟩⟩

@[simp] theorem meets_lift {y : Except ε α} : Meets (lift y) s D Q ↔ Q y s :=
  ⟨fun h => h.final, fun h => ⟨fun _ _ hmem => by simp at hmem, h⟩⟩

@[simp] theorem meets_atomic {g : σ → σ} {Q : Except ε Unit → σ → Prop} :
    Meets (atomic label g) s D Q ↔ D label s ∧ Q (.ok ()) (g s) := by
  constructor
  · exact fun h => ⟨h.during _ _ (by simp), h.final⟩
  · rintro ⟨hD, hQ⟩
    refine ⟨fun l t hmem => ?_, hQ⟩
    simp only [atomic_run, List.mem_singleton, Prod.mk.injEq] at hmem
    exact hmem.1 ▸ hmem.2 ▸ hD

@[simp] theorem meets_gradual {partials : σ → List σ} {g : σ → σ} {Q : Except ε Unit → σ → Prop} :
    Meets (gradual label partials g) s D Q ↔ (∀ t ∈ partials s, D label t) ∧ Q (.ok ()) (g s) := by
  constructor
  · exact fun h => ⟨fun t ht => h.during _ _ (List.mem_map_of_mem ht), h.final⟩
  · rintro ⟨hD, hQ⟩
    refine ⟨fun l t hmem => ?_, hQ⟩
    obtain ⟨u, hu, heq⟩ := List.mem_map.1 hmem
    cases heq
    exact hD _ hu

theorem meets_bind {Q : Except ε β → σ → Prop} :
    Meets (x >>= f) s D Q ↔ Meets x s D fun result t =>
      match result with
      | .ok a => Meets (f a) t D Q
      | .error e => Q (.error e) t := by
  rcases hx : x s with ⟨passed, result, t⟩
  constructor
  · rintro ⟨hD, hQ⟩
    rw [bind_run, hx] at hD hQ
    cases result with
    | error e => exact ⟨by simpa [hx] using hD, by simpa [hx] using hQ⟩
    | ok a =>
      refine ⟨fun l u hu => hD l u (by simpa [hx] using .inl (by simpa [hx] using hu)), ?_⟩
      rw [hx]
      exact ⟨fun l u hu => hD l u (List.mem_append_right _ hu), hQ⟩
  · rintro ⟨hD, hQ⟩
    rw [hx] at hD hQ
    cases result with
    | error e => exact ⟨by simpa [bind_run, hx] using hD, by simpa [bind_run, hx] using hQ⟩
    | ok a =>
      refine ⟨fun l u hu => ?_, by simpa [bind_run, hx] using hQ.final⟩
      simp only [bind_run, hx, List.mem_append] at hu
      exact hu.elim (hD l u) (hQ.during l u)

@[simp] theorem meets_read_bind {f : σ → Interruptible ι ε σ β} {Q : Except ε β → σ → Prop} :
    Meets (read >>= f) s D Q ↔ Meets (f s) s D Q := by
  simpa [meets_bind] using ⟨fun h => h.final, fun h => ⟨by simp, h⟩⟩

@[simp] theorem meets_lift_bind {y : Except ε α} {Q : Except ε β → σ → Prop} :
    Meets (lift y >>= f) s D Q ↔
      (∀ e, y = .error e → Q (.error e) s) ∧ ∀ a, y = .ok a → Meets (f a) s D Q := by
  rw [meets_bind, meets_lift]
  cases y <;> simp

@[simp] theorem meets_attempt {ε' : Type} {Q : Except ε' (Except ε α) → σ → Prop} :
    Meets (attempt x) s D Q ↔ Meets x s D fun result t => Q (.ok result) t :=
  ⟨fun h => ⟨h.during, h.final⟩, fun h => ⟨h.during, h.final⟩⟩

theorem meets_within {κ τ : Type} {relabel : ι → κ} {get : τ → σ} {put : σ → τ → τ} {whole : τ}
    {D : κ → τ → Prop} {Q : Except ε α → τ → Prop} :
    Meets (within relabel get put x) whole D Q ↔
      Meets x (get whole) (fun label t => D (relabel label) (put t whole))
        fun result t => Q result (put t whole) := by
  constructor
  · rintro ⟨hD, hQ⟩
    exact ⟨fun label t hmem => hD _ _ (List.mem_map.2 ⟨(label, t), hmem, rfl⟩), hQ⟩
  · rintro ⟨hD, hQ⟩
    refine ⟨fun label t hmem => ?_, hQ⟩
    obtain ⟨passed, hpassed, heq⟩ := List.mem_map.1 hmem
    cases heq
    exact hD _ _ hpassed

theorem Meets.mono {D' : ι → σ → Prop} {Q' : Except ε α → σ → Prop} (h : Meets x s D Q)
    (hD : ∀ label t, D label t → D' label t) (hQ : ∀ r t, Q r t → Q' r t) : Meets x s D' Q' :=
  ⟨fun label t hmem => hD _ _ (h.during label t hmem), hQ _ _ h.final⟩

/-- Wherever the procedure is left, what holds along it holds there. -/
theorem Meets.leaves {P : σ → Prop} {cut : Option ι} (h : Meets x s (fun _ => P) fun _ => P)
    (hleaves : Leaves x s cut t) : P t := by
  cases hleaves with
  | cut hmem => exact h.during _ _ hmem
  | done => exact h.final

end

end PokerDeliberation.Lib

namespace PokerDeliberation.Lib

/-! ## Triples -/

open Interruptible

variable {ι ε σ α β : Type}

def Triple (D P : σ → Prop) (x : Interruptible ι ε σ α) (Q : α → σ → Prop) : Prop :=
  ∀ s, P s → Meets x s (fun _ => D) fun result t =>
    match result with
    | .ok a => Q a t
    | .error _ => D t

variable {D P P' : σ → Prop} {x : Interruptible ι ε σ α} {Q Q' R : α → σ → Prop}
  {f : α → Interruptible ι ε σ β} {s : σ} {label : ι}

theorem triple_pure {a : α} (h : ∀ s, P s → Q a s) :
    Triple D P (pure a : Interruptible ι ε σ α) Q := fun s hs => meets_pure.2 (h s hs)

theorem triple_raise {e : ε} (h : ∀ s, P s → D s) :
    Triple D P (raise e : Interruptible ι ε σ α) Q := fun s hs => meets_raise.2 (h s hs)

/-- What only computes a result leaves the state. -/
theorem triple_lift {y : Except ε α} (h : ∀ s, P s → D s) :
    Triple D P (lift y : Interruptible ι ε σ α) fun _ => P := by
  intro s hs
  rw [meets_lift]
  cases y with
  | ok a => exact hs
  | error e => exact h s hs

theorem triple_atomic {g : σ → σ} {Q : Unit → σ → Prop} (hD : ∀ s, P s → D s)
    (h : ∀ s, P s → Q () (g s)) :
    Triple D P (atomic label g : Interruptible ι ε σ Unit) Q :=
  fun s hs => meets_atomic.2 ⟨hD s hs, h s hs⟩

theorem Triple.bind {Q : β → σ → Prop} (hx : Triple D P x R)
    (hf : ∀ a, Triple D (R a) (f a) Q) : Triple D P (x >>= f) Q := by
  intro s hs
  rw [meets_bind]
  refine (hx s hs).mono (fun _ _ h => h) fun result t h => ?_
  cases result with
  | ok a => exact hf a t h
  | error e => exact h

/-- What is read is the state at hand. -/
theorem Triple.read_bind {f : σ → Interruptible ι ε σ β} {Q : β → σ → Prop}
    (h : ∀ a, Triple D (fun s => P s ∧ s = a) (f a) Q) : Triple D P (read >>= f) Q :=
  fun s hs => meets_read_bind.2 (h s s ⟨hs, rfl⟩)

theorem Triple.lift_bind {y : Except ε α} {Q : β → σ → Prop} (hD : ∀ s, P s → D s)
    (h : ∀ a, y = .ok a → Triple D P (f a) Q) : Triple D P (lift y >>= f) Q :=
  fun s hs => meets_lift_bind.2 ⟨fun _ _ => hD s hs, fun a hy => h a hy s hs⟩

theorem Triple.weaken (h : Triple D P x Q) (hP : ∀ s, P' s → P s)
    (hQ : ∀ a s, Q a s → Q' a s) : Triple D P' x Q' := by
  intro s hs
  refine (h s (hP s hs)).mono (fun _ _ ht => ht) fun result t ht => ?_
  cases result with
  | ok a => exact hQ a t ht
  | error e => exact ht

theorem Triple.mono_during {D' : σ → Prop} (h : Triple D P x Q) (hD : ∀ s, D s → D' s) :
    Triple D' P x Q := by
  intro s hs
  refine (h s hs).mono (fun _ t ht => hD t ht) fun result t ht => ?_
  cases result with
  | ok a => exact ht
  | error e => exact hD t ht

/-- A check of the state at hand. -/
theorem triple_check {check : σ → Except ε α} (hD : ∀ s, P s → D s) :
    Triple D P (read >>= fun s => lift (check s) : Interruptible ι ε σ α) fun _ => P :=
  .read_bind fun _ => (triple_lift fun s hs => hD s hs.1).weaken (fun _ hs => hs)
    fun _ _ hs => hs.1

/-- A check of the state at hand, in sequence. -/
theorem Triple.check_bind {check : σ → Except ε α} {Q : β → σ → Prop}
    (hD : ∀ s, P s → D s) (h : ∀ a, Triple D P (f a) Q) :
    Triple D P (read >>= fun s => lift (check s) >>= f) Q :=
  .read_bind fun _ => .lift_bind (fun s hs => hD s hs.1) fun b _ =>
    (h b).weaken (fun _ hs => hs.1) fun _ _ hs => hs

/-- What holds during a procedure and when it returns holds all along it. -/
theorem Triple.meets (h : Triple D P x fun _ => D) (hs : P s) :
    Meets x s (fun _ => D) fun _ => D := by
  refine (h s hs).mono (fun _ _ ht => ht) fun result t ht => ?_
  cases result with
  | ok a => exact ht
  | error e => exact ht

end PokerDeliberation.Lib
