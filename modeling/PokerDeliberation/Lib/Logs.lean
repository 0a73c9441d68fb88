import PokerDeliberation.Lib.Checked
import Mathlib.Data.List.Induction
import Mathlib.Data.List.Infix
import Mathlib.Data.List.Nodup
import Mathlib.Order.Lattice
import Mathlib.Order.Monotone.Defs

/-!
# Logs checked entry by entry

A loop over a log that checks each entry against what it has kept of the
entries before it. `checkEach` hands every check the entries themselves, so
what the loop establishes is that each entry was `Admitted` after those before
it, and the log can be extended entry by entry.

A limiter that admits an entry by the window that ends at it never lets a window
hold more than it may. A trail is a log of steps, each of which starts where the
one before it ended.
-/

namespace PokerDeliberation.Lib

section

variable {α : Type} {P : List α → α → Prop} {xs : List α} {x : α}

/-- Each entry was let in after those before it. -/
def Admitted (P : List α → α → Prop) (xs : List α) : Prop :=
  ∀ before x after, xs = before ++ x :: after → P before x

theorem admitted_nil : Admitted P [] := by
  intro before x after h
  simp at h

theorem admitted_concat : Admitted P (xs ++ [x]) ↔ Admitted P xs ∧ P xs x := by
  constructor
  · intro h
    refine ⟨fun before y after heq => ?_, h xs x [] rfl⟩
    exact h before y (after ++ [x]) (by rw [heq, List.append_assoc, List.cons_append])
  · rintro ⟨hbefore, hx⟩ before y after heq
    rcases List.eq_nil_or_concat after with rfl | ⟨init, last, rfl⟩
    · obtain ⟨rfl, hlast⟩ := List.append_inj' heq rfl
      obtain rfl := List.singleton_inj.1 hlast
      exact hx
    · rw [List.concat_eq_append, ← List.cons_append, ← List.append_assoc] at heq
      exact hbefore before y init (List.append_inj' heq rfl).1

end

section

variable {ε α β : Type}

/-- The value, or the error where there is none. -/
def given (x : Option α) (e : ε) : Except ε α :=
  match x with
  | some a => .ok a
  | none => .error e

@[simp] theorem given_bind_eq_ok {x : Option α} {e : ε} {f : α → Except ε β} {b : β} :
    given x e >>= f = .ok b ↔ ∃ a, x = some a ∧ f a = .ok b := by
  cases x <;> simp [given, bind, Except.bind]

/-- A check that is all there is to fail. -/
theorem require_bind_pure {p : Prop} [Decidable p] {e : ε} {b : β} :
    (require p e >>= fun _ => pure b) = if p then .ok b else .error e := by
  by_cases h : p <;> simp [require, h, bind, Except.bind, pure, Except.pure]

theorem forall₂_of_mem {R S : α → β → Prop} {xs : List α} {ys : List β} (h : List.Forall₂ R xs ys)
    (himp : ∀ x ∈ xs, ∀ y, R x y → S x y) : List.Forall₂ S xs ys := by
  induction h with
  | nil => exact .nil
  | cons hxy _ ih =>
    obtain ⟨hx, hxs⟩ := List.forall_mem_cons.1 himp
    exact .cons (hx _ hxy) (ih hxs)

/-- Each element is checked with those before it; `before` has been checked. -/
def checkEach (check : List α → α → Except ε Unit) (before : List α) : List α → Except ε Unit
  | [] => .ok ()
  | x :: xs => do
    check before x
    checkEach check (before ++ [x]) xs

variable {P Q : List α → α → Prop} {xs ys : List α} {x : α}

theorem admitted_cons : Admitted P (x :: xs) ↔ P [] x ∧ Admitted (fun front => P (x :: front)) xs := by
  constructor
  · intro h
    exact ⟨h [] x xs rfl, fun front y back heq => h (x :: front) y back (by rw [heq]; rfl)⟩
  · rintro ⟨hx, hxs⟩ front y back heq
    cases front with
    | nil =>
      obtain ⟨rfl, -⟩ := List.cons.inj heq
      exact hx
    | cons z front =>
      obtain ⟨rfl, htail⟩ := List.cons.inj heq
      exact hxs front y back htail

theorem admitted_append : Admitted P (xs ++ ys) ↔
    Admitted P xs ∧ Admitted (fun front => P (xs ++ front)) ys := by
  induction xs generalizing P with
  | nil => simp [admitted_nil]
  | cons x xs ih => rw [List.cons_append, admitted_cons, admitted_cons, ih, and_assoc]; rfl

theorem checkEach_eq_ok {check : List α → α → Except ε Unit} {before : List α} :
    checkEach check before xs = .ok () ↔
      Admitted (fun front x => check (before ++ front) x = .ok ()) xs := by
  induction xs generalizing before with
  | nil => simp [checkEach, admitted_nil]
  | cons x xs ih =>
    rw [checkEach, check_bind_eq_ok, ih, admitted_cons]
    simp

theorem Admitted.imp (h : Admitted P xs) (himp : ∀ front x, x ∈ xs → P front x → Q front x) :
    Admitted Q xs :=
  fun front x back heq => himp front x (by rw [heq]; simp) (h front x back heq)

/-- Keys that are new each time are keys that no two elements share, and none is among the old. -/
theorem admitted_fresh {key : α → β} {old : List β} :
    Admitted (fun front x => key x ∉ old ++ front.map key) xs ↔
      (xs.map key).Nodup ∧ ∀ x ∈ xs, key x ∉ old := by
  induction xs generalizing old with
  | nil => simp [admitted_nil]
  | cons x xs ih =>
    have hstep := @ih (old ++ [key x])
    simp only [List.append_assoc, List.singleton_append] at hstep
    rw [admitted_cons]
    simp only [List.map_cons, List.map_nil, List.append_nil, List.nodup_cons, List.mem_cons,
      forall_eq_or_imp, hstep]
    simp only [List.mem_append, List.mem_singleton, not_or, forall_and, List.mem_map, not_exists, not_and]
    constructor
    · rintro ⟨hx, hnodup, hold, hne⟩
      exact ⟨⟨fun y hy => hne y hy, hnodup⟩, hx, hold⟩
    · rintro ⟨⟨hne, hnodup⟩, hx, hold⟩
      exact ⟨hx, hnodup, hold, fun y hy => hne y hy⟩

theorem admitted_nodup {key : α → β} :
    Admitted (fun front x => key x ∉ front.map key) xs ↔ (xs.map key).Nodup := by
  have hfresh := @admitted_fresh _ _ xs key []
  simpa using hfresh

theorem admitted_map {g : β → α} {zs : List β} :
    Admitted P (zs.map g) ↔ Admitted (fun front z => P (front.map g) (g z)) zs := by
  induction zs generalizing P with
  | nil => simp [admitted_nil]
  | cons z zs ih => rw [List.map_cons, admitted_cons, admitted_cons, ih]; rfl

/-- A log of logs, read as one log. -/
theorem admitted_flatMap {f : β → List α} {zs : List β} :
    Admitted P (zs.flatMap f) ↔
      Admitted (fun before z => Admitted (fun front => P (before.flatMap f ++ front)) (f z)) zs := by
  induction zs generalizing P with
  | nil => simp [admitted_nil]
  | cons z zs ih =>
    rw [List.flatMap_cons, admitted_append, admitted_cons, ih]
    simp only [List.flatMap_nil, List.nil_append, List.flatMap_cons, List.append_assoc]

/-- The elements that are picked out have distinct keys if each picked one has a new key. -/
theorem Admitted.nodup_filter {key : α → β} {p : α → Prop} [DecidablePred p]
    (h : Admitted (fun front x => p x → key x ∉ (front.filter p).map key) xs) :
    ((xs.filter p).map key).Nodup := by
  induction xs using List.reverseRecOn with
  | nil => exact List.nodup_nil
  | append_singleton xs x ih =>
    obtain ⟨hxs, hx⟩ := admitted_concat.1 h
    rw [List.filter_append, List.map_append]
    by_cases hp : p x
    · rw [List.filter_cons_of_pos (by simpa using hp), List.filter_nil, List.map_singleton]
      refine List.nodup_append.2 ⟨ih hxs, List.nodup_singleton _, fun a ha b hb => ?_⟩
      rw [List.mem_singleton.1 hb]
      rintro rfl
      exact hx hp ha
    · rw [List.filter_cons_of_neg (by simpa using hp), List.filter_nil, List.map_nil, List.append_nil]
      exact ih hxs

/-- Where no key belongs to two elements, an element is the only one with any of its keys. -/
theorem filter_mem_eq [DecidableEq β] {keys : α → List β} (h : (xs.flatMap keys).Nodup) (hx : x ∈ xs)
    {k : β} (hk : k ∈ keys x) : xs.filter (fun y => k ∈ keys y) = [x] := by
  induction xs with
  | nil => cases hx
  | cons y ys ih =>
    rw [List.flatMap_cons, List.nodup_append] at h
    obtain ⟨-, hys, hdisjoint⟩ := h
    rcases List.mem_cons.1 hx with rfl | hx
    · rw [List.filter_cons_of_pos (by simpa using hk), List.filter_eq_nil_iff.2]
      intro z hz
      have hnot : k ∉ keys z := fun hmem => hdisjoint k hk k (List.mem_flatMap.2 ⟨z, hz, hmem⟩) rfl
      simpa using hnot
    · have hnot : k ∉ keys y := fun hmem => hdisjoint k hmem k (List.mem_flatMap.2 ⟨x, hx, hk⟩) rfl
      rw [List.filter_cons_of_neg (by simpa using hnot), ih hys hx]

/-- Where keys are distinct, an element is the only one with its key. -/
theorem filter_key_eq [DecidableEq β] {key : α → β} (h : (xs.map key).Nodup) (hx : x ∈ xs) :
    xs.filter (fun y => key y = key x) = [x] := by
  have hkeys : (xs.flatMap fun y => [key y]).Nodup := by
    rw [← List.map_eq_flatMap]
    exact h
  have hpicked := filter_mem_eq hkeys hx (List.mem_singleton_self (key x))
  simpa only [List.mem_singleton, eq_comm] using hpicked

theorem find?_key_eq [DecidableEq β] {key : α → β} (h : (xs.map key).Nodup) (hx : x ∈ xs) :
    xs.find? (fun y => key y = key x) = some x := by
  rw [← List.head?_filter, filter_key_eq h hx]
  rfl

/-- What relates each element to the one just before it relates all that come before it. -/
theorem admitted_getLast {R : α → α → Prop} [IsTrans α R] :
    Admitted (fun front x => ∀ prior ∈ front.getLast?, R prior x) xs ↔ xs.Pairwise R := by
  induction xs using List.reverseRecOn with
  | nil => simp [admitted_nil]
  | append_singleton xs x ih =>
    rw [admitted_concat, ih, List.pairwise_append]
    simp only [List.pairwise_singleton, List.mem_singleton, forall_eq, true_and]
    refine and_congr_right fun hpairs => ?_
    constructor
    · intro h y hy
      rcases List.eq_nil_or_concat' xs with rfl | ⟨ys, z, rfl⟩
      · cases hy
      · have hz := h z (by simp)
        rcases List.mem_append.1 hy with hy | hy
        · exact IsTrans.trans _ _ _ ((List.pairwise_append.1 hpairs).2.2 y hy z (by simp)) hz
        · rwa [List.mem_singleton.1 hy]
    · exact fun h prior hprior => h prior (List.mem_of_getLast? hprior)

end

/-! ## Rolling windows -/

section

variable {τ : Type} [LinearOrder τ] (floor : τ → τ)

/-- What is later than the floor of `t`. -/
def recent (t : τ) (times : List τ) : List τ := times.filter fun x => floor t < x

/-- The window that ends at `t`. -/
def window (t : τ) (times : List τ) : List τ := times.filter fun x => floor t < x ∧ x ≤ t

/-- Each entry found fewer than `cap` entries later than its floor. -/
def Limited (cap : Nat) : List τ → Prop :=
  Admitted fun before x => (recent floor x before).length < cap

variable {floor} {s t x : τ} {times : List τ} {cap : Nat}

theorem recent_append (times more : List τ) :
    recent floor t (times ++ more) = recent floor t times ++ recent floor t more :=
  List.filter_append ..

/-- Pruning at an earlier floor drops nothing that a later one keeps. -/
theorem recent_recent (hfloor : Monotone floor) (h : s ≤ t) :
    recent floor t (recent floor s times) = recent floor t times := by
  rw [recent, recent, recent, List.filter_filter]
  refine List.filter_congr fun x _ => ?_
  have himp : floor t < x → floor s < x := fun hx => lt_of_le_of_lt (hfloor h) hx
  simpa using himp

/-- No window holds more than `cap` entries. -/
theorem Limited.length_window_le (h : Limited floor cap times) (hfloor : Monotone floor) (t : τ) :
    (window floor t times).length ≤ cap := by
  induction times using List.reverseRecOn with
  | nil => exact Nat.zero_le cap
  | append_singleton times x ih =>
    obtain ⟨hbefore, hx⟩ := admitted_concat.1 h
    rw [window, List.filter_append, List.length_append]
    by_cases hin : floor t < x ∧ x ≤ t
    · -- what the window holds besides `x` was later than the floor of `x`
      have hsub : (window floor t times).length ≤ (recent floor x times).length := by
        refine (List.monotone_filter_right times fun y hy => ?_).length_le
        simp only [decide_eq_true_eq] at hy ⊢
        exact lt_of_le_of_lt (hfloor hin.2) hy.1
      have hone : ([x].filter fun y => floor t < y ∧ y ≤ t).length ≤ 1 := List.length_filter_le _ _
      rw [window] at hsub
      omega
    · have hout : [x].filter (fun y => floor t < y ∧ y ≤ t) = [] :=
        List.filter_cons_of_neg (by simpa using hin)
      rw [hout, List.length_nil, Nat.add_zero]
      exact ih hbefore

end

end PokerDeliberation.Lib

namespace PokerDeliberation.Lib

/-! ## Trails -/


variable {σ ε : Type} {source target : ε → σ} {allowed : σ → σ → Prop}

/-- The recorded steps lead from the first state to the last. -/
def Trail (source target : ε → σ) (allowed : σ → σ → Prop) : σ → List ε → σ → Prop
  | a, [], b => a = b
  | a, e :: es, b => source e = a ∧ allowed a (target e) ∧ Trail source target allowed (target e) es b

variable {a b c : σ} {e : ε} {es fs : List ε}

theorem trail_append : Trail source target allowed a (es ++ fs) c ↔
    ∃ b, Trail source target allowed a es b ∧ Trail source target allowed b fs c := by
  induction es generalizing a with
  | nil => simp [Trail]
  | cons e es ih =>
    simp only [List.cons_append, Trail, ih]
    constructor
    · rintro ⟨hsource, hallowed, b, hes, hfs⟩
      exact ⟨b, ⟨hsource, hallowed, hes⟩, hfs⟩
    · rintro ⟨b, ⟨hsource, hallowed, hes⟩, hfs⟩
      exact ⟨hsource, hallowed, b, hes, hfs⟩

theorem trail_concat : Trail source target allowed a (es ++ [e]) b ↔
    Trail source target allowed a es (source e) ∧ allowed (source e) (target e) ∧ target e = b := by
  rw [trail_append]
  simp only [Trail]
  constructor
  · rintro ⟨_, hes, rfl, hallowed, rfl⟩
    exact ⟨hes, hallowed, rfl⟩
  · rintro ⟨hes, hallowed, rfl⟩
    exact ⟨_, hes, rfl, hallowed, rfl⟩

/-- Only the last step of a trail can end in a state that nothing leaves. -/
theorem Trail.countP_final (final : σ → Bool) (hfinal : ∀ s, final s → ∀ t, ¬ allowed s t)
    (h : Trail source target allowed a es b) :
    (es.countP fun e => final (target e)) ≤ if final b then 1 else 0 := by
  induction es generalizing a with
  | nil => simp
  | cons e es ih =>
    obtain ⟨-, -, hrest⟩ := h
    by_cases hend : final (target e) = true
    · cases es with
      | nil =>
        have hb : target e = b := hrest
        simp [← hb, hend]
      | cons f es => exact absurd hrest.2.1 (hfinal _ hend _)
    · have hskip : (e :: es).countP (fun e => final (target e)) =
          es.countP fun e => final (target e) := List.countP_cons_of_neg hend
      rw [hskip]
      exact ih hrest

end PokerDeliberation.Lib
