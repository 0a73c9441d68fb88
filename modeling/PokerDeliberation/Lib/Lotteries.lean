import Mathlib.Algebra.BigOperators.Fin
import Mathlib.Algebra.BigOperators.Ring.Finset
import Mathlib.Algebra.BigOperators.Ring.List
import Mathlib.Data.Finset.Sigma
import Mathlib.Logic.Relation

/-!
# Graphs of lotteries

A node is a leaf with a payoff or a lottery over further nodes, and nodes may be
shared. `Value graph n v` says that `n` is worth `v`: a leaf its payoff, a
lottery the weighted sum of what its branches are worth. It is a function of
the node, does not see the order of the branches, and is the sum over the
leaves' paths of the product of the weights with the payoff.
-/

namespace PokerDeliberation.Lib.Lotteries

/-- A node of the graph. -/
inductive Stage (ι K : Type) where
  | leaf (payoff : K)
  | lottery (branches : List (K × ι))

variable {ι K : Type}

def Stage.children : Stage ι K → List ι
  | leaf _ => []
  | lottery branches => branches.map Prod.snd

abbrev Stages (ι K : Type) := ι → Option (Stage ι K)

def Child (graph : Stages ι K) (n c : ι) : Prop := ∃ stage, graph n = some stage ∧ c ∈ stage.children

def Reaches (graph : Stages ι K) : ι → ι → Prop := Relation.ReflTransGen (Child graph)

/-- Every walk from the node ends, and never at a node that is missing. -/
inductive Grounded (graph : Stages ι K) : ι → Prop where
  | intro {n : ι} {stage : Stage ι K} (hn : graph n = some stage)
      (hchildren : ∀ c ∈ stage.children, Grounded graph c) : Grounded graph n

/-- There is a walk of `k` edges from the node. -/
def HasWalk (graph : Stages ι K) (n : ι) (k : Nat) : Prop :=
  ∃ walk : List ι, walk.length = k ∧ (n :: walk).IsChain (Child graph)

variable {graph graph' : Stages ι K} {n m c : ι} {k : Nat}

theorem HasWalk.zero : HasWalk graph n 0 := ⟨[], rfl, by simp⟩

theorem HasWalk.cons (hchild : Child graph n c) : HasWalk graph c k → HasWalk graph n (k + 1)
  | ⟨walk, hlength, hwalk⟩ => ⟨c :: walk, by simp [hlength], List.IsChain.cons_cons hchild hwalk⟩

theorem Grounded.child (h : Grounded graph n) (hchild : Child graph n c) : Grounded graph c := by
  obtain ⟨stage, hn, hc⟩ := hchild
  cases h with
  | intro hn' hchildren =>
    rw [hn] at hn'
    cases hn'
    exact hchildren c hc

/-- A graph with no other children is grounded where its nodes are there. -/
theorem Grounded.mono (h : Grounded graph n)
    (hnodes : ∀ m, Reaches graph n m → (graph' m).isSome)
    (hchild : ∀ m c, Reaches graph n m → Child graph' m c → Child graph m c) :
    Grounded graph' n := by
  induction h with
  | @intro n stage hn _ ih =>
    obtain ⟨stage', hn'⟩ := Option.isSome_iff_exists.1 (hnodes n .refl)
    refine .intro hn' fun c hc => ?_
    have hedge : Child graph n c := hchild n c .refl ⟨stage', hn', hc⟩
    have hmem : c ∈ stage.children := by
      obtain ⟨stage₀, hn₀, hc₀⟩ := hedge
      rw [hn] at hn₀
      cases hn₀
      exact hc₀
    exact ih c hmem (fun m hm => hnodes m (.head hedge hm))
      fun m d hm => hchild m d (.head hedge hm)

theorem Grounded.reaches (h : Grounded graph n) (hreaches : Reaches graph n m) :
    Grounded graph m := by
  induction hreaches with
  | refl => exact h
  | tail _ hchild ih => exact ih.child hchild

/-- No walk comes back to a grounded node. -/
theorem Grounded.acyclic (h : Grounded graph n) (hchild : Child graph n c) : ¬ Reaches graph c n := by
  induction h generalizing c with
  | @intro n stage hn _ ih =>
    intro hreaches
    obtain ⟨stage', hn', hc⟩ := hchild
    rw [hn] at hn'
    cases hn'
    -- the cycle through `n` is a cycle through its child `c`
    rcases Relation.ReflTransGen.cases_head hreaches with rfl | ⟨d, hcd, hdn⟩
    · exact ih c hc ⟨stage, hn, hc⟩ .refl
    · exact ih c hc hcd (hdn.tail ⟨stage, hn, hc⟩)

/-! ## What a node is worth -/

section

variable [Semiring K] {v v' : K}

inductive Value (graph : Stages ι K) : ι → K → Prop where
  | leaf {n : ι} {payoff : K} (hn : graph n = some (.leaf payoff)) : Value graph n payoff
  | lottery {n : ι} {branches : List (K × ι)} (value : ι → K)
      (hn : graph n = some (.lottery branches))
      (hvalue : ∀ b ∈ branches, Value graph b.2 (value b.2)) :
      Value graph n (branches.map fun b => b.1 * value b.2).sum

theorem Value.unique (h : Value graph n v) (h' : Value graph n v') : v = v' := by
  induction h generalizing v' with
  | leaf hn =>
    cases h' with
    | leaf hn' => rw [hn] at hn'; cases hn'; rfl
    | lottery _ hn' => rw [hn] at hn'; cases hn'
  | lottery value hn _ ih =>
    cases h' with
    | leaf hn' => rw [hn] at hn'; cases hn'
    | lottery value' hn' hvalue' =>
      rw [hn] at hn'
      cases hn'
      congr 1
      exact List.map_congr_left fun b hb => by rw [ih b hb (hvalue' b hb)]

theorem Value.grounded (h : Value graph n v) : Grounded graph n := by
  induction h with
  | leaf hn => exact .intro hn (by simp [Stage.children])
  | lottery value hn _ ih =>
    refine .intro hn fun c hc => ?_
    obtain ⟨b, hb, rfl⟩ := List.mem_map.1 hc
    exact ih b hb

theorem Grounded.exists_value (h : Grounded graph n) : ∃ v, Value graph n v := by
  classical
  induction h with
  | @intro n stage hn _ ih =>
    cases stage with
    | leaf payoff => exact ⟨payoff, .leaf hn⟩
    | lottery branches =>
      choose! value hvalue using ih
      exact ⟨_, .lottery value hn fun b hb => hvalue b.2 (List.mem_map_of_mem hb)⟩

open Classical in
/-- What the node is worth; `0` where it is worth nothing in particular. -/
noncomputable def worth (graph : Stages ι K) (n : ι) : K :=
  if h : ∃ v, Value graph n v then h.choose else 0

theorem Value.worth_eq (h : Value graph n v) : worth graph n = v := by
  have hex : ∃ v, Value graph n v := ⟨v, h⟩
  rw [worth, dif_pos hex]
  exact hex.choose_spec.unique h

theorem Grounded.value (h : Grounded graph n) : Value graph n (worth graph n) := by
  obtain ⟨v, hv⟩ := h.exists_value
  rw [hv.worth_eq]
  exact hv

/-- A lottery whose branches are listed by `items`. -/
theorem value_lottery {β : Type} {items : List β} {weight : β → K} {child : β → ι}
    (hn : graph n = some (.lottery (items.map fun x => (weight x, child x))))
    (hitems : ∀ x ∈ items, Grounded graph (child x)) :
    Value graph n (items.map fun x => weight x * worth graph (child x)).sum := by
  have hvalue := Value.lottery (worth graph) hn fun b hb => by
    obtain ⟨x, hx, rfl⟩ := List.mem_map.1 hb
    exact (hitems x hx).value
  rw [List.map_map] at hvalue
  exact hvalue

theorem worth_leaf {payoff : K} (hn : graph n = some (.leaf payoff)) :
    worth graph n = payoff := (Value.leaf hn).worth_eq

theorem Grounded.worth_lottery {branches : List (K × ι)} (h : Grounded graph n)
    (hn : graph n = some (.lottery branches)) :
    worth graph n = (branches.map fun b => b.1 * worth graph b.2).sum := by
  refine (Value.lottery (worth graph) hn fun b hb => ?_).worth_eq
  exact (h.child ⟨_, hn, List.mem_map_of_mem hb⟩).value

/-! ## Paths -/

/-- The product of the weights along a path, given by the positions of its
branches, and the payoff of the leaf it ends at. -/
def follow (graph : Stages ι K) : ι → List Nat → Option (K × K)
  | n, [] =>
    match graph n with
    | some (.leaf payoff) => some (1, payoff)
    | _ => none
  | n, i :: path =>
    match graph n with
    | some (.lottery branches) =>
      branches[i]?.bind fun b => (follow graph b.2 path).map fun r => (b.1 * r.1, r.2)
    | _ => none

/-- What a path contributes. -/
def contribution (graph : Stages ι K) (n : ι) (path : List Nat) : K :=
  match follow graph n path with
  | some r => r.1 * r.2
  | none => 0

/-- `v` is the sum over the paths from `n` to a leaf. -/
def IsPathSum (graph : Stages ι K) (n : ι) (v : K) : Prop :=
  ∃ paths : Finset (List Nat), (∀ path, path ∈ paths ↔ (follow graph n path).isSome) ∧
    v = ∑ path ∈ paths, contribution graph n path

/-- The path that starts with a branch. -/
def consPath (k : Nat) : (_ : Fin k) × List Nat ↪ List Nat where
  toFun p := p.1.1 :: p.2
  inj' p q h := by
    obtain ⟨i, p⟩ := p
    obtain ⟨j, q⟩ := q
    simp only [List.cons.injEq, Fin.val_inj] at h
    obtain ⟨rfl, rfl⟩ := h
    rfl

theorem nil_notMem_map_consPath {paths : Fin k → Finset (List Nat)} :
    [] ∉ (Finset.univ.sigma paths).map (consPath k) := by
  simp [consPath]

theorem cons_mem_map_consPath {paths : Fin k → Finset (List Nat)} {i : Nat} {path : List Nat} :
    i :: path ∈ (Finset.univ.sigma paths).map (consPath k) ↔ ∃ h : i < k, path ∈ paths ⟨i, h⟩ := by
  simp only [Finset.mem_map, Finset.mem_sigma, Finset.mem_univ, true_and]
  constructor
  · rintro ⟨⟨j, path'⟩, hpath, h⟩
    obtain ⟨rfl, rfl⟩ := List.cons.inj h
    exact ⟨j.2, hpath⟩
  · rintro ⟨h, hpath⟩
    exact ⟨⟨⟨i, h⟩, path⟩, hpath, rfl⟩

theorem Value.isPathSum (h : Value graph n v) : IsPathSum graph n v := by
  classical
  induction h with
  | @leaf n payoff hn =>
    refine ⟨{[]}, fun path => ?_, by simp [contribution, follow, hn]⟩
    cases path <;> simp [follow, hn]
  | @lottery n branches value hn _ ih =>
    have ih' : ∀ i : Fin branches.length, IsPathSum graph branches[i].2 (value branches[i].2) :=
      fun i => ih _ (List.getElem_mem _)
    choose paths hmem hsum using ih'
    -- a path from `n` is a branch and a path from the branch's node
    have hfollow : ∀ (i : Fin branches.length) path, follow graph n (i.1 :: path) =
        (follow graph branches[i].2 path).map fun r => (branches[i].1 * r.1, r.2) := fun i path => by
      simp [follow, hn]
    refine ⟨(Finset.univ.sigma paths).map (consPath _), fun path => ?_, ?_⟩
    · cases path with
      | nil => exact iff_of_false nil_notMem_map_consPath (by simp [follow, hn])
      | cons i path =>
        rw [cons_mem_map_consPath]
        by_cases hi : i < branches.length
        · rw [hfollow ⟨i, hi⟩ path, Option.isSome_map, ← hmem ⟨i, hi⟩ path]
          exact ⟨fun ⟨_, h⟩ => h, fun h => ⟨hi, h⟩⟩
        · simp [follow, hn, hi]
    · rw [Finset.sum_map, Finset.sum_sigma, ← Fin.sum_univ_fun_getElem]
      refine Finset.sum_congr rfl fun i _ => ?_
      rw [show value branches[i.1].2 = _ from hsum i, Finset.mul_sum]
      refine Finset.sum_congr rfl fun path hpath => ?_
      obtain ⟨r, hr⟩ := Option.isSome_iff_exists.1 ((hmem i path).1 hpath)
      show _ = contribution graph n (i.1 :: path)
      simp only [contribution, hfollow, hr, Option.map_some, mul_assoc]
      rfl

/-! ## The order of the branches -/

/-- The same stage with its branches in another order. -/
inductive Stage.Permuted : Stage ι K → Stage ι K → Prop where
  | leaf (payoff : K) : Permuted (leaf payoff) (leaf payoff)
  | lottery {branches branches' : List (K × ι)} (h : branches.Perm branches') :
      Permuted (lottery branches) (lottery branches')

omit [Semiring K] in
theorem Stage.Permuted.children {stage stage' : Stage ι K} (h : stage.Permuted stage') :
    stage.children.Perm stage'.children := by
  cases h with
  | leaf => exact .refl _
  | lottery h => exact h.map _

/-- Every node of the one graph is in the other, with its branches in some order. -/
def Stages.Permuted (graph graph' : Stages ι K) : Prop :=
  ∀ n stage, graph n = some stage → ∃ stage', graph' n = some stage' ∧ stage.Permuted stage'

theorem Value.permuted (hperm : graph.Permuted graph') (h : Value graph n v) :
    Value graph' n v := by
  induction h with
  | leaf hn =>
    obtain ⟨_, hn', ⟨⟩⟩ := hperm _ _ hn
    exact .leaf hn'
  | lottery value hn _ ih =>
    obtain ⟨_, hn', hstage⟩ := hperm _ _ hn
    cases hstage with
    | lottery hbranches =>
      rw [(hbranches.map _).sum_eq]
      exact .lottery value hn' fun b hb => ih b (hbranches.mem_iff.2 hb)

omit [Semiring K] in
theorem Child.permuted (hperm : graph.Permuted graph') (h : Child graph n c) :
    Child graph' n c := by
  obtain ⟨stage, hn, hc⟩ := h
  obtain ⟨stage', hn', hstage⟩ := hperm _ _ hn
  exact ⟨stage', hn', hstage.children.mem_iff.1 hc⟩

omit [Semiring K] in
theorem Reaches.permuted (hperm : graph.Permuted graph') (h : Reaches graph n m) :
    Reaches graph' n m := by
  induction h with
  | refl => exact .refl
  | tail _ hchild ih => exact ih.tail (hchild.permuted hperm)

end

end PokerDeliberation.Lib.Lotteries
