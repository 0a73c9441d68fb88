import PokerDeliberation.Lib.Checked

/-!
# Stateful computations that raise

A procedure reads and writes a state and may raise; what it wrote before it
raised stays written. `Returns x s a s'` says that `x` started in `s` returns
`a` and leaves `s'`. Its rules take a successful run of a procedure apart into
the runs of its steps, and put it together again from them.

`Ends P x Q E`: started where `P` holds, the procedure leaves `Q` when it
returns and `E` when it raises. `within` runs a procedure on a part of the
state.
-/

namespace PokerDeliberation.Lib

/-- A procedure on a state of type `σ` that raises `ε`. -/
def Stateful (ε σ α : Type) := σ → Except ε α × σ

namespace Stateful

variable {ε σ α β : Type}

instance : Monad (Stateful ε σ) where
  pure a s := (.ok a, s)
  bind x f s :=
    match x s with
    | (.ok a, t) => f a t
    | (.error e, t) => (.error e, t)

/-- The state. -/
def read : Stateful ε σ σ := fun s => (.ok s, s)

def modify (g : σ → σ) : Stateful ε σ Unit := fun s => (.ok (), g s)

/-- What a checked computation raises or returns, as a step. -/
def lift (x : Except ε α) : Stateful ε σ α := fun s => (x, s)

/-- `try: x except Exception: handler; raise`. -/
def onRaise (x : Stateful ε σ α) (handler : Stateful ε σ Unit) : Stateful ε σ α := fun s =>
  match x s with
  | (.ok a, t) => (.ok a, t)
  | (.error e, t) =>
    match handler t with
    | (.ok _, u) => (.error e, u)
    | (.error e', u) => (.error e', u)

/-- `raise e`. -/
def raise (e : ε) : Stateful ε σ α := fun s => (.error e, s)

/-- `try: x except Exception as e: handler(e)`; the handler may raise of another type. -/
def catching {ε' : Type} (x : Stateful ε σ α) (handler : ε → Stateful ε' σ α) :
    Stateful ε' σ α := fun s =>
  match x s with
  | (.ok a, t) => (.ok a, t)
  | (.error e, t) => handler e t

/-- What `x` returns or raises, as a value. -/
def attempt {ε' : Type} (x : Stateful ε σ α) : Stateful ε' σ (Except ε α) := fun s =>
  match x s with
  | (r, t) => (.ok r, t)

/-- `try: x finally: cleanup`; what the cleanup raises takes the place of the rest. -/
def ensuring (x : Stateful ε σ α) (cleanup : Stateful ε σ Unit) : Stateful ε σ α := fun s =>
  match x s with
  | (r, t) =>
    match cleanup t with
    | (.ok _, u) => (r, u)
    | (.error e, u) => (.error e, u)

instance : LawfulMonad (Stateful ε σ) :=
  LawfulMonad.mk' _
    (fun x => by
      funext s
      show (match x s with | (.ok a, t) => (.ok a, t) | (.error e, t) => (.error e, t)) = x s
      rcases x s with ⟨_ | _, _⟩ <;> rfl)
    (fun _ _ => rfl)
    (fun x f g => by
      funext s
      show (match (match x s with | (.ok a, t) => f a t | (.error e, t) => (.error e, t)) with
          | (.ok b, t) => g b t
          | (.error e, t) => (.error e, t)) =
        match x s with
        | (.ok a, t) => (f a >>= g) t
        | (.error e, t) => (.error e, t)
      rcases x s with ⟨_ | _, _⟩ <;> rfl)

end Stateful

/-- Started in `s`, the procedure returns `a` and leaves `s'`. -/
def Returns {ε σ α : Type} (x : Stateful ε σ α) (s : σ) (a : α) (s' : σ) : Prop := x s = (.ok a, s')

section

variable {ε σ α β : Type} {s s' : σ} {x : Stateful ε σ α} {f : α → Stateful ε σ β} {a b : α} {c : β}

theorem returns_of_ok (h : (x s).1 = .ok a) : Returns x s a (x s).2 := Prod.ext h rfl

theorem Returns.unique {t : σ} (h : Returns x s a s') (h' : Returns x s b t) : a = b ∧ s' = t := by
  have heq : ((Except.ok a : Except ε α), s') = (.ok b, t) := h.symm.trans h'
  simpa using heq

@[simp] theorem returns_pure : Returns (pure a : Stateful ε σ α) s b s' ↔ a = b ∧ s = s' := by
  simp [Returns, pure]

@[simp] theorem returns_lift {y : Except ε α} :
    Returns (Stateful.lift y) s a s' ↔ y = .ok a ∧ s = s' := by
  simp [Returns, Stateful.lift]

@[simp] theorem returns_modify {g : σ → σ} {u : Unit} :
    Returns (Stateful.modify g : Stateful ε σ Unit) s u s' ↔ g s = s' := by
  simp [Returns, Stateful.modify]

/-- A sequence returns exactly when its first step does and the rest after it. -/
theorem returns_bind : Returns (x >>= f) s c s' ↔ ∃ a t, Returns x s a t ∧ Returns (f a) t c s' := by
  have hbind : (x >>= f) s =
      match x s with
      | (.ok a, t) => f a t
      | (.error e, t) => (.error e, t) := rfl
  unfold Returns
  rw [hbind]
  rcases x s with ⟨_ | a, t⟩ <;> simp

theorem bind_of_ok (h : x s = (.ok a, s')) : (x >>= f) s = f a s' := by
  show (match x s with
    | (.ok a, t) => f a t
    | (.error e, t) => (.error e, t)) = f a s'
  rw [h]

theorem bind_of_error {e : ε} (h : x s = (.error e, s')) : (x >>= f) s = (.error e, s') := by
  show (match x s with
    | (.ok a, t) => f a t
    | (.error e, t) => (.error e, t)) = (.error e, s')
  rw [h]

theorem returns_catching {ε' : Type} {handler : ε → Stateful ε' σ α}
    (hh : ∀ e t b u, handler e t ≠ (.ok b, u)) :
    Returns (x.catching handler) s a s' ↔ Returns x s a s' := by
  unfold Returns Stateful.catching
  rcases x s with ⟨e | b, t⟩
  · simp [hh]
  · simp

/-- An exception raised as another one: the state is the one it was raised in. -/
theorem catching_raise {ε' : Type} {g : ε → ε'} :
    (x.catching fun e => Stateful.raise (g e)) s = ((x s).1.mapError g, (x s).2) := by
  unfold Stateful.catching
  rcases x s with ⟨e | b, t⟩ <;> rfl

/-- A cleanup that leaves the state alone: what it raises takes the place of the rest. -/
theorem ensuring_lift {y : Except ε Unit} :
    (x.ensuring (Stateful.lift y)) s = (y >>= fun _ => (x s).1, (x s).2) := by
  unfold Stateful.ensuring
  rcases x s with ⟨e | b, t⟩ <;> cases y <;> rfl

/-- Cleaning up after an exception never turns it into a result. -/
@[simp] theorem returns_onRaise {handler : Stateful ε σ Unit} :
    Returns (x.onRaise handler) s a s' ↔ Returns x s a s' := by
  unfold Returns Stateful.onRaise
  rcases x s with ⟨e | b, t⟩
  · simp only
    rcases handler t with ⟨_ | _, _⟩ <;> simp
  · exact Iff.rfl

theorem returns_mapM_nil {g : α → Stateful ε σ β} {ys : List β} :
    Returns (([] : List α).mapM g) s ys s' ↔ ys = [] ∧ s = s' := by
  rw [List.mapM_nil, returns_pure]
  exact ⟨fun ⟨h, hs⟩ => ⟨h.symm, hs⟩, fun ⟨h, hs⟩ => ⟨h.symm, hs⟩⟩

/-- A loop that collects results, one step at a time. -/
theorem returns_mapM_cons {g : α → Stateful ε σ β} {y : α} {ys : List α} {zs : List β} :
    Returns ((y :: ys).mapM g) s zs s' ↔
      ∃ b bs t, zs = b :: bs ∧ Returns (g y) s b t ∧ Returns (ys.mapM g) t bs s' := by
  rw [List.mapM_cons]
  simp only [returns_bind, returns_pure]
  constructor
  · rintro ⟨b, t, hb, bs, _, hbs, rfl, rfl⟩
    exact ⟨b, bs, t, rfl, hb, hbs⟩
  · rintro ⟨b, bs, t, rfl, hb, hbs⟩
    exact ⟨b, t, hb, bs, s', hbs, rfl, rfl⟩

end

/-! ## What every run of a procedure does to the state -/

/-- However `x` is started, when it returns it has moved the state along `R`. -/
def Moves {ε σ α : Type} (R : σ → σ → Prop) (x : Stateful ε σ α) : Prop :=
  ∀ s a s', Returns x s a s' → R s s'

section

variable {ε σ α β : Type} {R : σ → σ → Prop} [Std.Refl R] [IsTrans σ R]

omit [IsTrans σ R] in
theorem Moves.pure (a : α) : Moves R (Pure.pure a : Stateful ε σ α) := by
  intro s b s' h
  obtain ⟨_, rfl⟩ := returns_pure.1 h
  exact refl_of R s

omit [IsTrans σ R] in
theorem Moves.lift (x : Except ε α) : Moves R (Stateful.lift x : Stateful ε σ α) := by
  intro s b s' h
  obtain ⟨_, rfl⟩ := returns_lift.1 h
  exact refl_of R s

omit [Std.Refl R] in
theorem Moves.bind {x : Stateful ε σ α} {f : α → Stateful ε σ β} (hx : Moves R x)
    (hf : ∀ a, Moves R (f a)) : Moves R (x >>= f) := by
  intro s b s' h
  obtain ⟨a, t, hxa, hfa⟩ := returns_bind.1 h
  exact trans_of R (hx s a t hxa) (hf a t b s' hfa)

omit [Std.Refl R] [IsTrans σ R] in
theorem Moves.onRaise {x : Stateful ε σ α} (hx : Moves R x) (handler : Stateful ε σ Unit) :
    Moves R (x.onRaise handler) :=
  fun s a s' h => hx s a s' (returns_onRaise.1 h)

theorem Moves.mapM {f : α → Stateful ε σ β} (hf : ∀ a, Moves R (f a)) (xs : List α) :
    Moves R (xs.mapM f) := by
  induction xs with
  | nil =>
    intro s b s' h
    obtain ⟨_, rfl⟩ := returns_mapM_nil.1 h
    exact refl_of R s
  | cons x xs ih =>
    intro s b s' h
    obtain ⟨_, _, t, _, hx, hxs⟩ := returns_mapM_cons.1 h
    exact trans_of R (hf x _ _ _ hx) (ih _ _ _ hxs)

end

/-! ## What a procedure does to the state whether it returns or raises -/

/-- However `x` is started and however it ends, it has moved the state along `R`. -/
def Always {ε σ α : Type} (R : σ → σ → Prop) (x : Stateful ε σ α) : Prop := ∀ s, R s (x s).2

section

variable {ε ε' σ α β : Type} {R : σ → σ → Prop}

theorem always_pure [Std.Refl R] (a : α) : Always R (Pure.pure a : Stateful ε σ α) :=
  fun s => refl_of R s

theorem always_lift [Std.Refl R] (x : Except ε α) : Always R (Stateful.lift x : Stateful ε σ α) :=
  fun s => refl_of R s

theorem always_raise [Std.Refl R] (e : ε) : Always R (Stateful.raise e : Stateful ε σ α) :=
  fun s => refl_of R s

theorem always_read [Std.Refl R] : Always R (Stateful.read : Stateful ε σ σ) :=
  fun s => refl_of R s

theorem always_modify {g : σ → σ} (h : ∀ s, R s (g s)) :
    Always R (Stateful.modify g : Stateful ε σ Unit) := h

theorem Always.bind [IsTrans σ R] {x : Stateful ε σ α} {f : α → Stateful ε σ β} (hx : Always R x)
    (hf : ∀ a, Always R (f a)) : Always R (x >>= f) := by
  intro s
  have hbind : (x >>= f) s =
      match x s with
      | (.ok a, t) => f a t
      | (.error e, t) => (.error e, t) := rfl
  have hs := hx s
  rw [hbind]
  rcases hxs : x s with ⟨_ | a, t⟩
  · rw [hxs] at hs
    exact hs
  · rw [hxs] at hs
    exact trans_of R hs (hf a t)

theorem Always.returns {x : Stateful ε σ α} {s s' : σ} {a : α} (hx : Always R x)
    (h : Returns x s a s') : R s s' := by
  have hs := hx s
  rw [show x s = _ from h] at hs
  exact hs

theorem Always.forM [Std.Refl R] [IsTrans σ R] {f : α → Stateful ε σ PUnit}
    (hf : ∀ a, Always R (f a)) (xs : List α) : Always R (xs.forM f) := by
  induction xs with
  | nil => exact fun s => refl_of R s
  | cons x xs ih =>
    show Always R (f x >>= fun _ => xs.forM f)
    exact (hf x).bind fun _ => ih

theorem Always.attempt {x : Stateful ε σ α} (hx : Always R x) :
    Always R (x.attempt : Stateful ε' σ (Except ε α)) := hx

theorem Always.catching [IsTrans σ R] {x : Stateful ε σ α} {handler : ε → Stateful ε' σ α}
    (hx : Always R x) (hh : ∀ e, Always R (handler e)) : Always R (x.catching handler) := by
  intro s
  have hs := hx s
  unfold Stateful.catching
  rcases hxs : x s with ⟨e | a, t⟩
  · rw [hxs] at hs
    exact trans_of R hs (hh e t)
  · rw [hxs] at hs
    exact hs

theorem Always.ensuring [IsTrans σ R] {x : Stateful ε σ α} {cleanup : Stateful ε σ Unit}
    (hx : Always R x) (hc : Always R cleanup) : Always R (x.ensuring cleanup) := by
  intro s
  have hs := hx s
  have ht := hc (x s).2
  unfold Stateful.ensuring
  rcases hxs : x s with ⟨r, t⟩
  rw [hxs] at hs ht
  simp only
  rcases hct : cleanup t with ⟨_ | _, u⟩ <;> rw [hct] at ht <;> exact trans_of R hs ht

end

end PokerDeliberation.Lib

namespace PokerDeliberation.Lib

/-! ## Both ends of a procedure -/

def Ends {ε σ α : Type} (P : σ → Prop) (x : Stateful ε σ α) (Q : α → σ → Prop)
    (E : ε → σ → Prop) : Prop :=
  ∀ s, P s →
    match x s with
    | (.ok a, t) => Q a t
    | (.error e, t) => E e t

section

variable {ε ε' σ α β : Type} {P P' : σ → Prop} {x : Stateful ε σ α} {f : α → Stateful ε σ β}
  {Q Q' : α → σ → Prop} {R : β → σ → Prop} {E E' : ε → σ → Prop} {s t : σ} {a : α} {e : ε}

theorem Ends.ok (h : Ends P x Q E) (hs : P s) (hx : x s = (.ok a, t)) : Q a t := by
  have hend := h s hs
  rwa [hx] at hend

theorem Ends.error (h : Ends P x Q E) (hs : P s) (hx : x s = (.error e, t)) : E e t := by
  have hend := h s hs
  rwa [hx] at hend

theorem Ends.mono (h : Ends P x Q E) (hP : ∀ s, P' s → P s) (hQ : ∀ a t, Q a t → Q' a t)
    (hE : ∀ e t, E e t → E' e t) : Ends P' x Q' E' := by
  intro s hs
  have hend := h s (hP s hs)
  rcases hxs : x s with ⟨e | a, t⟩
  · rw [hxs] at hend
    exact hE e t hend
  · rw [hxs] at hend
    exact hQ a t hend

theorem ends_pure (h : ∀ s, P s → Q a s) : Ends P (pure a : Stateful ε σ α) Q E := h

theorem ends_raise (h : ∀ s, P s → E e s) : Ends P (Stateful.raise e : Stateful ε σ α) Q E := h

theorem ends_modify {g : σ → σ} {Q : Unit → σ → Prop} (h : ∀ s, P s → Q () (g s)) :
    Ends P (Stateful.modify g : Stateful ε σ Unit) Q E := h

theorem ends_lift {y : Except ε α} (hok : ∀ a s, P s → y = .ok a → Q a s)
    (herror : ∀ e s, P s → y = .error e → E e s) :
    Ends P (Stateful.lift y : Stateful ε σ α) Q E := by
  intro s hs
  cases y with
  | ok a => exact hok a s hs rfl
  | error e => exact herror e s hs rfl

theorem Ends.bind {Q : α → σ → Prop} (hx : Ends P x Q E) (hf : ∀ a, Ends (Q a) (f a) R E) :
    Ends P (x >>= f) R E := by
  intro s hs
  have hend := hx s hs
  rcases hxs : x s with ⟨e | a, t⟩
  · rw [hxs] at hend
    rw [bind_of_error hxs]
    exact hend
  · rw [hxs] at hend
    rw [bind_of_ok hxs]
    exact hf a t hend

/-- What is read is the state at hand. -/
theorem Ends.read_bind {f : σ → Stateful ε σ β}
    (h : ∀ s, P s → Ends (fun t => t = s) (f s) R E) : Ends P (Stateful.read >>= f) R E :=
  fun s hs => h s hs s rfl

theorem Ends.forM {f : α → Stateful ε σ PUnit} (hf : ∀ a, Ends P (f a) (fun _ => P) E)
    (xs : List α) : Ends P (xs.forM f) (fun _ => P) E := by
  induction xs with
  | nil => exact fun _ hs => hs
  | cons x xs ih =>
    show Ends P (f x >>= fun _ => xs.forM f) (fun _ => P) E
    exact (hf x).bind fun _ => ih

theorem Ends.catching {handler : ε → Stateful ε' σ α} {E' : ε' → σ → Prop} (hx : Ends P x Q E)
    (hh : ∀ e, Ends (E e) (handler e) Q E') : Ends P (x.catching handler) Q E' := by
  intro s hs
  have hend := hx s hs
  unfold Stateful.catching
  rcases hxs : x s with ⟨e | a, t⟩
  · rw [hxs] at hend
    exact hh e t hend
  · rw [hxs] at hend
    exact hend

theorem Ends.attempt {R : Except ε α → σ → Prop} {E' : ε' → σ → Prop}
    (hx : Ends P x (fun a => R (.ok a)) fun e => R (.error e)) :
    Ends P (x.attempt : Stateful ε' σ (Except ε α)) R E' := by
  intro s hs
  have hend := hx s hs
  show R (x s).1 (x s).2
  rcases hxs : x s with ⟨e | a, t⟩
  · rw [hxs] at hend
    exact hend
  · rw [hxs] at hend
    exact hend

/-- The cleanup starts from either end; what it raises takes the place of the rest. -/
theorem Ends.ensuring {cleanup : Stateful ε σ Unit} (hx : Ends P x Q E)
    (hok : ∀ a, Ends (Q a) cleanup (fun _ => Q' a) E')
    (herror : ∀ e, Ends (E e) cleanup (fun _ => E' e) E') :
    Ends P (x.ensuring cleanup) Q' E' := by
  intro s hs
  have hend := hx s hs
  unfold Stateful.ensuring
  rcases hxs : x s with ⟨e | a, t⟩
  · rw [hxs] at hend
    have hclean := herror e t hend
    simp only
    rcases hct : cleanup t with ⟨e' | ⟨⟩, u⟩
    · rw [hct] at hclean
      exact hclean
    · rw [hct] at hclean
      exact hclean
  · rw [hxs] at hend
    have hclean := hok a t hend
    simp only
    rcases hct : cleanup t with ⟨e' | ⟨⟩, u⟩
    · rw [hct] at hclean
      exact hclean
    · rw [hct] at hclean
      exact hclean

/-- What is left when it returns, with the run that led there. -/
theorem Ends.returns (h : Ends P x Q E) (hs : P s) :
    Ends (fun t => t = s) x (fun a t => Q a t ∧ Returns x s a t) E := by
  intro u hu
  have hend := h s hs
  rw [hu]
  rcases hxs : x s with ⟨e | a, t⟩
  · rw [hxs] at hend
    exact hend
  · rw [hxs] at hend
    exact ⟨hend, hxs⟩

theorem Returns.ends {b : α} {u : σ} (h : Returns x s b u) :
    Ends (fun t => t = s) x (fun a t => a = b ∧ t = u) E := by
  rintro _ rfl
  rw [h]
  exact ⟨rfl, rfl⟩

theorem ends_of_always {S : σ → σ → Prop} (hx : Always S x)
    (hQ : ∀ s t a, P s → S s t → Q a t) (hE : ∀ s t e, P s → S s t → E e t) : Ends P x Q E := by
  intro s hs
  have hmoved := hx s
  rcases hxs : x s with ⟨e | a, t⟩
  · rw [hxs] at hmoved
    exact hE s t e hs hmoved
  · rw [hxs] at hmoved
    exact hQ s t a hs hmoved

/-- What every step of the procedure keeps is also left. -/
theorem Ends.keeping {S : σ → σ → Prop} {A : σ → Prop} (h : Ends P x Q E) (hx : Always S x)
    (hA : ∀ s t, S s t → A s → A t) :
    Ends (fun s => P s ∧ A s) x (fun a t => Q a t ∧ A t) fun e t => E e t ∧ A t := by
  intro s hs
  have hend := h s hs.1
  have hmoved := hA s (x s).2 (hx s) hs.2
  rcases hxs : x s with ⟨e | a, t⟩
  · rw [hxs] at hend hmoved
    exact ⟨hend, hmoved⟩
  · rw [hxs] at hend hmoved
    exact ⟨hend, hmoved⟩

end

/-! ## A part of a larger state -/

namespace Stateful

variable {ε σ τ α : Type}

/-- The procedure on the part of the state that `get` reads and `set` replaces. -/
def within (get : τ → σ) (set : σ → τ → τ) (x : Stateful ε σ α) : Stateful ε τ α := fun s =>
  match x (get s) with
  | (r, t) => (r, set t s)

end Stateful

section

variable {ε σ τ α : Type} {get : τ → σ} {set : σ → τ → τ} {x : Stateful ε σ α} {P : τ → Prop}
  {Q : α → τ → Prop} {E : ε → τ → Prop}

theorem ends_within (h : ∀ s, P s → Ends (fun t => t = get s) x (fun a t => Q a (set t s))
    fun e t => E e (set t s)) : Ends P (x.within get set) Q E := by
  intro s hs
  have hend := h s hs (get s) rfl
  unfold Stateful.within
  rcases hxs : x (get s) with ⟨e | a, t⟩
  · rw [hxs] at hend
    exact hend
  · rw [hxs] at hend
    exact hend

end

end PokerDeliberation.Lib
