import PokerDeliberation.Lib.Lotteries
import Mathlib.Algebra.Order.BigOperators.Group.List
import Mathlib.Algebra.Order.Field.Basic
import Mathlib.Tactic.Linarith
import Mathlib.Tactic.Ring

/-!
# Decisions in a graph of lotteries

Some nodes are decision points: a strategy chooses the branch, perhaps at
random, and chooses alike at all nodes of one point. `play` is the graph of
lotteries a strategy makes of the problem. As a function of what is chosen at
one point the worth of a node is affine where no path meets the point twice
(`worth_mix`), so some action chosen outright does no worse than the mixture.
Point after point this gives a pure policy (`exists_pure`).
-/

namespace PokerDeliberation.Lib.Decisions

open Lotteries

/-- A node of the problem. -/
inductive Turn (ι κ α K : Type) where
  | leaf (payoff : K)
  | lottery (branches : List (K × ι))
  | choice (point : κ) (child : α → ι)

/-- The nodes, and the actions a point allows. -/
structure Problem (ι κ α K : Type) where
  turn : ι → Option (Turn ι κ α K)
  allowed : κ → List α

/-- What is chosen at each point, with its weights. -/
abbrev Strategy (κ α K : Type) := κ → List (K × α)

variable {ι κ α K : Type}

/-- Every point chooses one action outright. -/
def pure [One K] (policy : κ → α) : Strategy κ α K := fun point => [(1, policy point)]

namespace Problem

/-- The lotteries that are left when the strategy chooses. -/
def play (problem : Problem ι κ α K) (strategy : Strategy κ α K) : Stages ι K := fun n =>
  match problem.turn n with
  | some (.leaf payoff) => some (.leaf payoff)
  | some (.lottery branches) => some (.lottery branches)
  | some (.choice point child) =>
    some (.lottery ((strategy point).map fun c => (c.1, child c.2)))
  | none => none

/-- All that may happen. -/
def moves [One K] (problem : Problem ι κ α K) : Stages ι K :=
  problem.play fun point => (problem.allowed point).map fun a => (1, a)

/-- A node of the point can be reached. -/
def Meets [One K] (problem : Problem ι κ α K) (n : ι) (point : κ) : Prop :=
  ∃ m child, Reaches problem.moves n m ∧ problem.turn m = some (.choice point child)

/-- The strategy chooses among what is allowed, with probability one. -/
def Valid [Semiring K] [LE K] (problem : Problem ι κ α K) (n : ι) (strategy : Strategy κ α K) :
    Prop :=
  ∀ point, problem.Meets n point → ((strategy point).map Prod.fst).sum = 1 ∧
    ∀ c ∈ strategy point, 0 ≤ c.1 ∧ c.2 ∈ problem.allowed point

/-- No path meets a point twice. -/
def NoRepeat [One K] (problem : Problem ι κ α K) (n : ι) : Prop :=
  ∀ m point child, Reaches problem.moves n m → problem.turn m = some (.choice point child) →
    ∀ a ∈ problem.allowed point, ¬ problem.Meets (child a) point

theorem isSome_play {problem : Problem ι κ α K} {strategy : Strategy κ α K} {n : ι} :
    (problem.play strategy n).isSome ↔ (problem.turn n).isSome := by
  unfold play
  split <;> simp [*]

section

variable [Field K] {problem : Problem ι κ α K} {strategy strategy' : Strategy κ α K} {n m c : ι}
  {point : κ}

/-- Two finite sums in either order. -/
theorem sum_map_sum_swap {β γ : Type} (xs : List β) (ys : List γ) (f : β → γ → K) :
    (xs.map fun x => (ys.map (f x)).sum).sum = (ys.map fun y => (xs.map fun x => f x y).sum).sum := by
  induction xs with
  | nil => simp
  | cons x xs ih => simp only [List.map_cons, List.sum_cons, ih, List.sum_map_add]


theorem Meets.of_reaches (h : problem.Meets m point) (hreaches : Reaches problem.moves n m) :
    problem.Meets n point := by
  obtain ⟨d, child, hd, hturn⟩ := h
  exact ⟨d, child, hreaches.trans hd, hturn⟩

theorem NoRepeat.reaches (h : problem.NoRepeat n) (hreaches : Reaches problem.moves n m) :
    problem.NoRepeat m := fun d point child hd hturn => h d point child (hreaches.trans hd) hturn

theorem worth_leaf {payoff : K} (hturn : problem.turn n = some (.leaf payoff)) :
    worth (problem.play strategy) n = payoff :=
  Lotteries.worth_leaf (by rw [play, hturn])

theorem child_of_lottery {branches : List (K × ι)} {b : K × ι}
    (hturn : problem.turn n = some (.lottery branches)) (hb : b ∈ branches) :
    Child problem.moves n b.2 :=
  ⟨.lottery branches, by simp [moves, play, hturn], List.mem_map_of_mem hb⟩

theorem child_of_choice {child : α → ι} {a : α}
    (hturn : problem.turn n = some (.choice point child)) (ha : a ∈ problem.allowed point) :
    Child problem.moves n (child a) := by
  refine ⟨.lottery ((problem.allowed point).map fun a => (1, child a)), ?_, ?_⟩
  · simp only [moves, play, hturn, List.map_map]
    rfl
  · simp only [Stage.children, List.map_map, List.mem_map]
    exact ⟨a, ha, rfl⟩

/-- Induction over the problem below a grounded node. -/
theorem induction_moves {P : ι → Prop} (h : Grounded problem.moves n)
    (hstep : ∀ m, Grounded problem.moves m → Reaches problem.moves n m →
      (∀ c, Child problem.moves m c → P c) → P m) : P n := by
  induction h with
  | @intro n stage hn hchildren ih =>
    refine hstep n (.intro hn hchildren) .refl ?_
    rintro c ⟨stage', hn', hc⟩
    have hreaches : Reaches problem.moves n c := .single ⟨stage', hn', hc⟩
    rw [hn] at hn'
    cases hn'
    exact ih c hc fun m hm hreaches' => hstep m hm (hreaches.trans hreaches')

variable [LinearOrder K]

theorem Valid.reaches (h : problem.Valid n strategy) (hreaches : Reaches problem.moves n m) :
    problem.Valid m strategy := fun point hmeets => h point (hmeets.of_reaches hreaches)

theorem child_play (hvalid : problem.Valid n strategy)
    (hchild : Child (problem.play strategy) n c) : Child problem.moves n c := by
  obtain ⟨stage, hn, hc⟩ := hchild
  unfold play at hn
  cases hturn : problem.turn n with
  | none => simp [hturn] at hn
  | some turn =>
    cases turn with
    | leaf payoff =>
      simp only [hturn, Option.some.injEq] at hn
      subst hn
      simp [Stage.children] at hc
    | lottery branches =>
      simp only [hturn, Option.some.injEq] at hn
      subst hn
      obtain ⟨b, hb, rfl⟩ := List.mem_map.1 hc
      exact child_of_lottery hturn hb
    | choice point child =>
      simp only [hturn, Option.some.injEq] at hn
      subst hn
      obtain ⟨a, ha, rfl⟩ : ∃ a ∈ strategy point, child a.2 = c := by
        simpa [Stage.children] using hc
      exact child_of_choice hturn ((hvalid point ⟨n, child, .refl, hturn⟩).2 a ha).2

theorem grounded_play (h : Grounded problem.moves n) (hvalid : problem.Valid n strategy) :
    Grounded (problem.play strategy) n := by
  refine h.mono (fun m hm => ?_) fun m c hm => child_play (hvalid.reaches hm)
  rw [isSome_play]
  cases h.reaches hm with
  | intro hn =>
    have hsome : (problem.moves m).isSome := Option.isSome_iff_exists.2 ⟨_, hn⟩
    rwa [moves, isSome_play] at hsome

/-! ## What a strategy is worth -/

section

variable (h : Grounded problem.moves n) (hvalid : problem.Valid n strategy)

include h hvalid

theorem worth_lottery {branches : List (K × ι)}
    (hturn : problem.turn n = some (.lottery branches)) :
    worth (problem.play strategy) n =
      (branches.map fun b => b.1 * worth (problem.play strategy) b.2).sum :=
  (grounded_play h hvalid).worth_lottery (by rw [play, hturn])

theorem worth_choice {child : α → ι} (hturn : problem.turn n = some (.choice point child)) :
    worth (problem.play strategy) n =
      ((strategy point).map fun c => c.1 * worth (problem.play strategy) (child c.2)).sum := by
  rw [(grounded_play h hvalid).worth_lottery (by rw [play, hturn]), List.map_map]
  rfl

end

/-- The same choices at the points that can be met. -/
theorem worth_congr (h : Grounded problem.moves n) (hvalid : problem.Valid n strategy)
    (hvalid' : problem.Valid n strategy')
    (hsame : ∀ point, problem.Meets n point → strategy point = strategy' point) :
    worth (problem.play strategy) n = worth (problem.play strategy') n := by
  refine induction_moves (P := fun m => worth (problem.play strategy) m =
    worth (problem.play strategy') m) h fun m hm hreaches ih => ?_
  have hv := hvalid.reaches hreaches
  have hv' := hvalid'.reaches hreaches
  cases hturn : problem.turn m with
  | none =>
    cases hm with
    | intro hn => simp [moves, play, hturn] at hn
  | some turn =>
    cases turn with
    | leaf payoff => rw [worth_leaf hturn, worth_leaf hturn]
    | lottery branches =>
      rw [worth_lottery hm hv hturn, worth_lottery hm hv' hturn]
      refine congrArg List.sum (List.map_congr_left fun b hb => ?_)
      rw [ih _ (child_of_lottery hturn hb)]
    | choice point child =>
      have hmeets : problem.Meets m point := ⟨m, child, .refl, hturn⟩
      rw [worth_choice hm hv hturn, worth_choice hm hv' hturn,
        ← hsame point (hmeets.of_reaches hreaches)]
      refine congrArg List.sum (List.map_congr_left fun c hc => ?_)
      rw [ih _ (child_of_choice hturn ((hv point hmeets).2 c hc).2)]

/-! ## One point -/

variable [DecidableEq κ]

/-- The strategy with one action chosen outright at a point. -/
def fix (strategy : Strategy κ α K) (point : κ) (a : α) : Strategy κ α K :=
  Function.update strategy point [(1, a)]

omit [LinearOrder K] in
@[simp] theorem fix_self {a : α} : fix strategy point a point = [(1, a)] :=
  Function.update_self ..

omit [LinearOrder K] in
@[simp] theorem fix_of_ne {other : κ} {a : α} (h : other ≠ point) :
    fix strategy point a other = strategy other := Function.update_of_ne h ..

variable [IsStrictOrderedRing K]

theorem Valid.fix {a : α} (h : problem.Valid n strategy) (ha : a ∈ problem.allowed point) :
    problem.Valid n (fix strategy point a) := by
  intro other hmeets
  by_cases hother : other = point
  · subst hother
    simpa using ha
  · rw [fix_of_ne hother]
    exact h other hmeets

/-- Where no path meets the point twice, a node is worth the mixture of what it
is worth with each of the point's actions chosen outright. -/
theorem worth_mix (h : Grounded problem.moves n) (hvalid : problem.Valid n strategy)
    (hrepeat : problem.NoRepeat n) (hsum : ((strategy point).map Prod.fst).sum = 1)
    (hallowed : ∀ c ∈ strategy point, c.2 ∈ problem.allowed point) :
    worth (problem.play strategy) n = ((strategy point).map fun c =>
      c.1 * worth (problem.play (fix strategy point c.2)) n).sum := by
  refine induction_moves (P := fun m => worth (problem.play strategy) m =
    ((strategy point).map fun c => c.1 * worth (problem.play (fix strategy point c.2)) m).sum) h
    fun m hm hreaches ih => ?_
  have hv := hvalid.reaches hreaches
  have hfix : ∀ c ∈ strategy point, problem.Valid m (fix strategy point c.2) := fun c hc =>
    hv.fix (hallowed c hc)
  cases hturn : problem.turn m with
  | none =>
    cases hm with
    | intro hn => simp [moves, play, hturn] at hn
  | some turn =>
    cases turn with
    | leaf payoff =>
      simp only [worth_leaf hturn]
      rw [List.sum_map_mul_right, hsum, one_mul]
    | lottery branches =>
      have hfixed : (strategy point).map (fun c =>
          c.1 * worth (problem.play (fix strategy point c.2)) m) =
          (strategy point).map fun c => (branches.map fun b =>
            b.1 * (c.1 * worth (problem.play (fix strategy point c.2)) b.2)).sum := by
        refine List.map_congr_left fun c hc => ?_
        rw [worth_lottery hm (hfix c hc) hturn, ← List.sum_map_mul_left]
        simp only [mul_left_comm]
      rw [worth_lottery hm hv hturn, hfixed, ← sum_map_sum_swap]
      refine congrArg List.sum (List.map_congr_left fun b hb => ?_)
      rw [ih _ (child_of_lottery hturn hb), List.sum_map_mul_left]
    | choice other child =>
      have hmeets : problem.Meets m other := ⟨m, child, .refl, hturn⟩
      by_cases hother : other = point
      · subst hother
        rw [worth_choice hm hv hturn]
        refine congrArg List.sum (List.map_congr_left fun c hc => ?_)
        rw [worth_choice hm (hfix c hc) hturn, fix_self]
        simp only [List.map_cons, List.map_nil, List.sum_cons, List.sum_nil, one_mul, add_zero]
        -- below the chosen branch the point is not met again
        have hedge : Reaches problem.moves m (child c.2) :=
          .single (child_of_choice hturn (hallowed c hc))
        rw [worth_congr (hm.reaches hedge) (hv.reaches hedge) ((hfix c hc).reaches hedge)]
        intro point hpoint
        refine (fix_of_ne fun heq => ?_).symm
        subst heq
        exact hrepeat.reaches hreaches m _ child .refl hturn c.2 (hallowed c hc) hpoint
      · have hfixed : (strategy point).map (fun c =>
            c.1 * worth (problem.play (fix strategy point c.2)) m) =
            (strategy point).map fun c => ((strategy other).map fun b =>
              b.1 * (c.1 * worth (problem.play (fix strategy point c.2)) (child b.2))).sum := by
          refine List.map_congr_left fun c hc => ?_
          rw [worth_choice hm (hfix c hc) hturn, fix_of_ne hother, ← List.sum_map_mul_left]
          simp only [mul_left_comm]
        rw [worth_choice hm hv hturn, hfixed, ← sum_map_sum_swap]
        refine congrArg List.sum (List.map_congr_left fun b hb => ?_)
        rw [ih _ (child_of_choice hturn ((hv other hmeets).2 b hb).2), List.sum_map_mul_left]

/-- Some action of the point does as well as the mixture, for the payoff or against it. -/
theorem exists_fix (h : Grounded problem.moves n) (hvalid : problem.Valid n strategy)
    (hrepeat : problem.NoRepeat n) (hmeets : problem.Meets n point) (sign : K) :
    ∃ a ∈ problem.allowed point, sign * worth (problem.play strategy) n ≤
      sign * worth (problem.play (fix strategy point a)) n := by
  obtain ⟨hsum, hchoices⟩ := hvalid point hmeets
  have hmix := worth_mix h hvalid hrepeat hsum fun c hc => (hchoices c hc).2
  by_contra hnone
  push Not at hnone
  have hle : ∀ c ∈ strategy point, c.1 * (sign * worth (problem.play (fix strategy point c.2)) n) ≤
      c.1 * (sign * worth (problem.play strategy) n) := fun c hc =>
    mul_le_mul_of_nonneg_left (hnone c.2 (hchoices c hc).2).le (hchoices c hc).1
  -- a weight is positive, and there the inequality is strict
  obtain ⟨c, hc, hpos⟩ : ∃ c ∈ strategy point, 0 < c.1 := by
    by_contra hzero
    push Not at hzero
    have hnone : ((strategy point).map Prod.fst).sum = 0 := List.sum_eq_zero fun p hp => by
      obtain ⟨c, hc, rfl⟩ := List.mem_map.1 hp
      exact le_antisymm (hzero c hc) (hchoices c hc).1
    rw [hsum] at hnone
    exact one_ne_zero hnone
  have hlt : ((strategy point).map fun c =>
      c.1 * (sign * worth (problem.play (fix strategy point c.2)) n)).sum <
      ((strategy point).map fun c => c.1 * (sign * worth (problem.play strategy) n)).sum :=
    List.sum_lt_sum _ _ hle ⟨c, hc, mul_lt_mul_of_pos_left (hnone c.2 (hchoices c hc).2) hpos⟩
  rw [List.sum_map_mul_right, hsum, one_mul] at hlt
  simp only [mul_left_comm _ sign, List.sum_map_mul_left] at hlt
  rw [← hmix] at hlt
  exact lt_irrefl _ hlt

/-- A pure policy that does as well, when it need only differ at the points listed. -/
theorem exists_fixed (h : Grounded problem.moves n) (hrepeat : problem.NoRepeat n) (sign : K)
    (points : List κ) (hpoints : ∀ point ∈ points, problem.Meets n point)
    (hvalid : problem.Valid n strategy) :
    ∃ strategy' : Strategy κ α K, problem.Valid n strategy' ∧
      (∀ point ∈ points, ∃ a ∈ problem.allowed point, strategy' point = [(1, a)]) ∧
      sign * worth (problem.play strategy) n ≤ sign * worth (problem.play strategy') n := by
  induction points with
  | nil => exact ⟨strategy, hvalid, by simp, le_rfl⟩
  | cons point points ih =>
    obtain ⟨strategy', hvalid', hpure, hle⟩ := ih fun p hp => hpoints p (List.mem_cons_of_mem _ hp)
    obtain ⟨a, ha, hfix⟩ := exists_fix h hvalid' hrepeat (hpoints point List.mem_cons_self) sign
    refine ⟨fix strategy' point a, hvalid'.fix ha, fun p hp => ?_, hle.trans hfix⟩
    by_cases hpoint : p = point
    · subst hpoint
      exact ⟨a, ha, fix_self⟩
    · rw [fix_of_ne hpoint]
      exact hpure p ((List.mem_cons.1 hp).resolve_left hpoint)

/-- Where no path meets a point twice, some pure policy does as well as a strategy;
what it chooses at points that are not met does not matter. -/
theorem exists_pure (h : Grounded problem.moves n) (hrepeat : problem.NoRepeat n) (sign : K)
    (points : List κ) (hpoints : ∀ point, point ∈ points ↔ problem.Meets n point)
    (hvalid : problem.Valid n strategy) (other : κ → α) :
    ∃ policy : κ → α, (∀ point, problem.Meets n point → policy point ∈ problem.allowed point) ∧
      (∀ point, ¬ problem.Meets n point → policy point = other point) ∧
      sign * worth (problem.play strategy) n ≤ sign * worth (problem.play (pure policy)) n := by
  classical
  obtain ⟨strategy', hvalid', hpure, hle⟩ :=
    exists_fixed h hrepeat sign points (fun p hp => (hpoints p).1 hp) hvalid
  have hpure' : ∀ point, ∃ a, (point ∈ points →
      a ∈ problem.allowed point ∧ strategy' point = [(1, a)]) ∧
      (point ∉ points → a = other point) := fun point => by
    by_cases hp : point ∈ points
    · obtain ⟨a, ha, heq⟩ := hpure point hp
      exact ⟨a, fun _ => ⟨ha, heq⟩, fun hnot => absurd hp hnot⟩
    · exact ⟨other point, fun hp' => absurd hp' hp, fun _ => rfl⟩
  choose policy hpolicy hother using hpure'
  have hallowed : ∀ point, problem.Meets n point → policy point ∈ problem.allowed point :=
    fun point hmeets => (hpolicy point ((hpoints point).2 hmeets)).1
  have hvalidPure : problem.Valid n (pure policy) := fun point hmeets => by
    simpa [pure] using hallowed point hmeets
  refine ⟨policy, hallowed, fun point hnot => hother point fun hp => hnot ((hpoints point).1 hp),
    hle.trans_eq ?_⟩
  rw [worth_congr h hvalid' hvalidPure fun point hmeets =>
    (hpolicy point ((hpoints point).2 hmeets)).2]

end

end Problem

end PokerDeliberation.Lib.Decisions
