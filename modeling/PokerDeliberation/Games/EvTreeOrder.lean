import PokerDeliberation.Games.EvTree
import PokerDeliberation.Lib.Assoc
import PokerDeliberation.Lib.Lotteries

/-!
# The order of the branches of an action tree

The description is a graph of lotteries. A visit that succeeds memoises what
every node it reaches is worth, whatever the order of the branches. A visit of a
grounded node fails in one way only: the depth is checked before the memo, so a
shared node met first at the end of a long walk exceeds the limit where the same
node met first on a short one is in the memo by then.
-/

namespace PokerDeliberation.Games.EvTree

open Lib Lib.Lotteries

section

variable {nodes : List (String × Node)} {levels : Nat} {n m c : String} {s s' : Visit} {v : ℚ}
  {branch : Branch} {branches : List Branch} {acc acc' : ℚ} {details details' : List BranchDetail}

/-- The branches of a node pass the checks made before any child is visited, and
each of them names its child. -/
def Acceptable (branches : List Branch) : Prop :=
  branches ≠ [] ∧
  normalizedProbabilitySum (branches.map Branch.probabilityOr) EV_TREE_VERIFICATION_ULPS ∧
  ∀ branch ∈ branches, branch.child.isSome

instance : Decidable (Acceptable branches) := inferInstanceAs (Decidable (_ ∧ _ ∧ _))

def Branch.childId (branch : Branch) : String := branch.child.getD ""

/-- The graph of the acceptable nodes. -/
def graphOf (nodes : List (String × Node)) : Stages String ℚ := fun n =>
  match nodes.lookup n with
  | some (.payoff payoff) => some (.leaf payoff)
  | some (.branches branches) =>
    if Acceptable branches then
      some (.lottery (branches.map fun branch => (branch.probabilityOr, branch.childId)))
    else none
  | none => none

/-- What is known of the state between two visits. -/
structure Intact (nodes : List (String × Node)) (s : Visit) : Prop where
  sound : ∀ m w, s.memo.lookup m = some w → Value (graphOf nodes) m w
  closed : ∀ m c, (s.memo.lookup m).isSome → Child (graphOf nodes) m c → (s.memo.lookup c).isSome

/-- What a visit of the nodes below `roots` leaves. -/
structure Explored (nodes : List (String × Node)) (roots : List String) (s s' : Visit) : Prop where
  intact : Intact nodes s'
  visiting : s'.visiting = s.visiting
  memo : ∀ m, (s'.memo.lookup m).isSome ↔
    (s.memo.lookup m).isSome ∨ ∃ n ∈ roots, Reaches (graphOf nodes) n m

theorem Intact.reaches (h : Intact nodes s) (hm : (s.memo.lookup n).isSome)
    (hreaches : Reaches (graphOf nodes) n m) : (s.memo.lookup m).isSome := by
  induction hreaches with
  | refl => exact hm
  | tail _ hchild ih => exact h.closed _ _ ih hchild

theorem visitBranch_ok {visit : String → Visit → Except String (ℚ × Visit)} :
    visitBranch visit (acc, details, s) branch = .ok (acc', details', s') ↔
      ∃ p c v, branch.probability = some p ∧ 0 ≤ p ∧ branch.child = some c ∧
        visit c s = .ok (v, s') ∧ acc + p * v = acc' ∧
        details ++ [⟨branch.label.getD c, p, v, p * v⟩] = details' := by
  unfold visitBranch
  cases hp : branch.probability with
  | none => simp
  | some p =>
    cases hc : branch.child with
    | none => simp
    | some c =>
      simp only [bind_eq_ok, require_eq_ok, pure_eq_ok, Prod.mk.injEq, Option.some.injEq]
      constructor
      · rintro ⟨_, hp, ⟨v, t⟩, hv, rfl, rfl, rfl⟩
        exact ⟨p, c, v, rfl, hp, rfl, hv, rfl, rfl⟩
      · rintro ⟨_, _, v, rfl, hp, rfl, hv, rfl, rfl⟩
        exact ⟨(), hp, (v, s'), hv, rfl, rfl, rfl⟩

/-! ## What a visit computes -/

/-- The loop over the branches, given what a visit one level down does. -/
theorem foldlM_visitBranch_ok {visit : String → Visit → Except String (ℚ × Visit)}
    (hvisit : ∀ c s v s', visit c s = .ok (v, s') → Intact nodes s →
      Value (graphOf nodes) c v ∧ Explored nodes [c] s s')
    (h : branches.foldlM (visitBranch visit) (acc, details, s) = .ok (acc', details', s'))
    (hs : Intact nodes s) :
    (∀ b ∈ branches, b.child.isSome ∧ Grounded (graphOf nodes) b.childId) ∧
      acc' = acc + (branches.map fun b => b.probabilityOr * worth (graphOf nodes) b.childId).sum ∧
      Explored nodes (branches.map Branch.childId) s s' := by
  induction branches generalizing acc details s with
  | nil =>
    cases h
    exact ⟨by simp, by simp, ⟨hs, rfl, by simp⟩⟩
  | cons branch branches ih =>
    rw [List.foldlM_cons, bind_eq_ok] at h
    obtain ⟨⟨acc₁, details₁, s₁⟩, hfirst, h⟩ := h
    obtain ⟨p, c, v, hp, -, hc, hv, rfl, -⟩ := visitBranch_ok.1 hfirst
    obtain ⟨hvalue, hexplored⟩ := hvisit c s v s₁ hv hs
    obtain ⟨hall, hacc, hrest⟩ := ih h hexplored.intact
    have hid : branch.childId = c := by simp [Branch.childId, hc]
    have hprob : branch.probabilityOr = p := by simp [Branch.probabilityOr, hp]
    refine ⟨?_, ?_, ⟨hrest.intact, hrest.visiting.trans hexplored.visiting, fun m => ?_⟩⟩
    · rintro b hb
      rcases List.mem_cons.1 hb with rfl | hb
      · exact ⟨by simp [hc], hid ▸ hvalue.grounded⟩
      · exact hall b hb
    · rw [List.map_cons, List.sum_cons, hid, hprob, hvalue.worth_eq, hacc]
      ring
    · rw [hrest.memo, hexplored.memo]
      simp [hid, or_assoc]

/-- `memo[node_id] = value` once the children are explored. -/
theorem Explored.remember (children : List String) {t : Visit} {visiting : Finset String}
    {branchValues : List (String × List BranchDetail)} (hintact : Intact nodes t)
    (hmemo : ∀ m, (t.memo.lookup m).isSome ↔
      (s.memo.lookup m).isSome ∨ ∃ c ∈ children, Reaches (graphOf nodes) c m)
    (hchildren : ∀ c, Child (graphOf nodes) n c ↔ c ∈ children) (hv : Value (graphOf nodes) n v)
    (hvisiting : visiting = s.visiting) :
    Explored nodes [n] s ⟨visiting, (n, v) :: t.memo, branchValues⟩ := by
  have hlookup : ∀ m, (((n, v) :: t.memo).lookup m).isSome ↔ m = n ∨ (t.memo.lookup m).isSome := by
    intro m
    by_cases hm : m = n
    · subst hm
      simp
    · simp [lookup_cons_ne hm, hm]
  refine ⟨⟨fun m w hw => ?_, fun m c hm hchild => ?_⟩, hvisiting, fun m => ?_⟩
  · by_cases hm : m = n
    · subst hm
      rw [lookup_cons_self, Option.some.injEq] at hw
      exact hw ▸ hv
    · exact hintact.sound m w (by rwa [lookup_cons_ne hm] at hw)
  · rw [hlookup] at hm ⊢
    refine .inr ?_
    rcases hm with rfl | hm
    · exact (hmemo c).2 (.inr ⟨c, (hchildren c).1 hchild, .refl⟩)
    · exact hintact.closed m c hm hchild
  · rw [hlookup, hmemo]
    simp only [List.mem_singleton, exists_eq_left]
    constructor
    · rintro (rfl | hm | ⟨c, hc, hreaches⟩)
      · exact .inr .refl
      · exact .inl hm
      · exact .inr (.head ((hchildren c).2 hc) hreaches)
    · rintro (hm | hreaches)
      · exact .inr (.inl hm)
      · rcases hreaches.cases_head with rfl | ⟨c, hchild, hreaches⟩
        · exact .inl rfl
        · exact .inr (.inr ⟨c, (hchildren c).1 hchild, hreaches⟩)

theorem child_iff {stage : Stage String ℚ} (hn : graphOf nodes n = some stage) :
    Child (graphOf nodes) n c ↔ c ∈ stage.children := by
  simp [Child, hn]

theorem visit_ok (h : visit nodes levels n s = .ok (v, s')) (hs : Intact nodes s) :
    Value (graphOf nodes) n v ∧ Explored nodes [n] s s' := by
  induction levels generalizing n s v s' with
  | zero => cases h
  | succ levels ih =>
    unfold visit at h
    cases hmemo : s.memo.lookup n with
    | some value =>
      simp only [hmemo, Except.ok.injEq, Prod.mk.injEq] at h
      obtain ⟨rfl, rfl⟩ := h
      refine ⟨hs.sound n value hmemo, hs, rfl, fun m => ?_⟩
      have : Reaches (graphOf nodes) n m → (s.memo.lookup m).isSome := hs.reaches (by simp [hmemo])
      simpa using this
    | none =>
      simp only [hmemo, require_bind_eq_ok] at h
      obtain ⟨hvisiting, h⟩ := h
      split at h
      · simp at h
      · rename_i payoff hn
        simp only [pure_eq_ok, Prod.mk.injEq] at h
        obtain ⟨rfl, rfl⟩ := h
        have hstage : graphOf nodes n = some (.leaf payoff) := by simp [graphOf, hn]
        refine ⟨.leaf hstage, Explored.remember [] hs (by simp) (fun c => ?_)
          (.leaf hstage) rfl⟩
        exact child_iff hstage
      · rename_i branches hn
        simp only [bind_eq_ok, require_eq_ok, exists_const, pure_eq_ok, Prod.mk.injEq]
          at h
        obtain ⟨hne, hsum, ⟨acc, details, t⟩, hloop, rfl, rfl⟩ := h
        have hentered : Intact nodes { s with visiting := insert n s.visiting } :=
          ⟨hs.sound, hs.closed⟩
        obtain ⟨hall, hacc, hexplored⟩ := foldlM_visitBranch_ok (fun c s v s' => ih) hloop hentered
        have hstage : graphOf nodes n =
            some (.lottery (branches.map fun b => (b.probabilityOr, b.childId))) := by
          simp only [graphOf, hn]
          exact if_pos ⟨hne, hsum, fun b hb => (hall b hb).1⟩
        have hvalue : Value (graphOf nodes) n acc := by
          rw [hacc, zero_add]
          exact value_lottery hstage fun b hb => (hall b hb).2
        refine ⟨hvalue, Explored.remember _ hexplored.intact hexplored.memo
          (fun c => ?_) hvalue ?_⟩
        · rw [child_iff hstage]
          simp [Stage.children]
        · rw [hexplored.visiting]
          exact Finset.erase_insert hvisiting

/-! ## When a visit succeeds -/

/-- What can come of a visit of grounded nodes with so many levels left. -/
def Completes {α : Type} (x : Except String α) (long : Prop) : Prop :=
  (∃ r, x = .ok r) ∨ x = .error depthError ∧ long

variable (levels acc details) in
theorem foldlM_visitBranch_completes {visit : String → Visit → Except String (ℚ × Visit)}
    (hvisit : ∀ c s v s', visit c s = .ok (v, s') → Intact nodes s →
      Value (graphOf nodes) c v ∧ Explored nodes [c] s s')
    (hcompletes : ∀ b ∈ branches, ∀ s, Intact nodes s →
      (∀ m ∈ s.visiting, Reaches (graphOf nodes) b.childId m → (s.memo.lookup m).isSome) →
      Completes (visit b.childId s) (HasWalk (graphOf nodes) b.childId levels))
    (hbranches : ∀ b ∈ branches, b.child.isSome ∧ 0 ≤ b.probabilityOr) (hs : Intact nodes s)
    (hfree : ∀ b ∈ branches, ∀ m ∈ s.visiting, Reaches (graphOf nodes) b.childId m →
      (s.memo.lookup m).isSome) :
    Completes (branches.foldlM (visitBranch visit) (acc, details, s))
      (∃ b ∈ branches, HasWalk (graphOf nodes) b.childId levels) := by
  induction branches generalizing acc details s with
  | nil => exact .inl ⟨_, rfl⟩
  | cons branch branches ih =>
    obtain ⟨hchild, hprob⟩ := hbranches branch List.mem_cons_self
    obtain ⟨c, hc⟩ := Option.isSome_iff_exists.1 hchild
    have hid : branch.childId = c := by simp [Branch.childId, hc]
    obtain ⟨p, hp⟩ : ∃ p, branch.probability = some p := by
      cases hp : branch.probability with
      | none => norm_num [Branch.probabilityOr, hp] at hprob
      | some p => exact ⟨p, rfl⟩
    have hnonneg : 0 ≤ p := by simpa [Branch.probabilityOr, hp] using hprob
    rw [List.foldlM_cons]
    rcases hcompletes branch List.mem_cons_self s hs (hfree branch List.mem_cons_self) with
      ⟨⟨v, s₁⟩, hv⟩ | ⟨herror, hwalk⟩
    · obtain ⟨-, hexplored⟩ := hvisit _ s v s₁ hv hs
      have hfirst : visitBranch visit (acc, details, s) branch = .ok (acc + p * v,
          details ++ [⟨branch.label.getD c, p, v, p * v⟩], s₁) :=
        visitBranch_ok.2 ⟨p, c, v, hp, hnonneg, hc, hid ▸ hv, rfl, rfl⟩
      rw [bind_ok_left hfirst]
      have hfree₁ : ∀ b ∈ branches, ∀ m ∈ s₁.visiting, Reaches (graphOf nodes) b.childId m →
          (s₁.memo.lookup m).isSome := fun b hb m hm hreaches => by
        rw [hexplored.visiting] at hm
        exact (hexplored.memo m).2 (.inl (hfree b (List.mem_cons_of_mem _ hb) m hm hreaches))
      rcases ih _ _ (fun b hb => hcompletes b (List.mem_cons_of_mem _ hb))
        (fun b hb => hbranches b (List.mem_cons_of_mem _ hb)) hexplored.intact hfree₁ with
        hok | ⟨herror, b, hb, hwalk⟩
      · exact .inl hok
      · exact .inr ⟨herror, b, List.mem_cons_of_mem _ hb, hwalk⟩
    · refine .inr ⟨?_, branch, List.mem_cons_self, hwalk⟩
      have hfirst : visitBranch visit (acc, details, s) branch = .error depthError := by
        unfold visitBranch
        simp only [hp, hc]
        rw [bind_ok_left (require_of hnonneg), ← hid, herror]
        rfl
      rw [hfirst]
      rfl

variable (levels) in
theorem visit_payoff {payoff : ℚ} (hmemo : s.memo.lookup n = none) (hvisiting : n ∉ s.visiting)
    (hnode : nodes.lookup n = some (.payoff payoff)) :
    visit nodes (levels + 1) n s = .ok (payoff, { s with memo := (n, payoff) :: s.memo }) := by
  rw [visit]
  simp only [hmemo, hnode]
  rw [bind_ok_left (require_of hvisiting)]
  rfl

variable (levels) in
theorem visit_branches (hmemo : s.memo.lookup n = none) (hvisiting : n ∉ s.visiting)
    (hnode : nodes.lookup n = some (.branches branches)) (hacceptable : Acceptable branches) :
    visit nodes (levels + 1) n s =
      (branches.foldlM (visitBranch (visit nodes levels))
        (0, [], { s with visiting := insert n s.visiting })).map fun r =>
        (r.1, ⟨r.2.2.visiting.erase n, (n, r.1) :: r.2.2.memo,
          (n, r.2.1) :: r.2.2.branchValues⟩) := by
  rw [visit]
  simp only [hmemo, hnode]
  rw [bind_ok_left (require_of hvisiting), bind_ok_left (require_of hacceptable.1),
    bind_ok_left (require_of hacceptable.2.1)]
  cases branches.foldlM (visitBranch (visit nodes levels))
    (0, [], { s with visiting := insert n s.visiting }) <;> rfl

variable (levels) in
/-- A grounded node none of whose descendants is being visited is visited to the
end, or there is a walk too long for the levels left. -/
theorem visit_completes (hn : Grounded (graphOf nodes) n) (hs : Intact nodes s)
    (hfree : ∀ m ∈ s.visiting, Reaches (graphOf nodes) n m → (s.memo.lookup m).isSome) :
    Completes (visit nodes levels n s) (HasWalk (graphOf nodes) n levels) := by
  induction levels generalizing n s with
  | zero => exact .inr ⟨rfl, .zero⟩
  | succ levels ih =>
    cases hmemo : s.memo.lookup n with
    | some value => exact .inl ⟨(value, s), by simp only [visit, hmemo]⟩
    | none =>
      have hvisiting : n ∉ s.visiting := fun hmem => by
        have := hfree n hmem .refl
        simp [hmemo] at this
      obtain ⟨stage, hstage⟩ : ∃ stage, graphOf nodes n = some stage := by
        cases hn with
        | intro hstage => exact ⟨_, hstage⟩
      cases hnode : nodes.lookup n with
      | none => simp [graphOf, hnode] at hstage
      | some node =>
        cases node with
        | payoff payoff =>
          exact .inl ⟨_, visit_payoff levels hmemo hvisiting hnode⟩
        | branches branches =>
          have hgraph := hstage
          simp only [graphOf, hnode] at hstage
          split at hstage
          · rename_i hacceptable
            cases hstage
            have hchild : ∀ b ∈ branches, Child (graphOf nodes) n b.childId := fun b hb => by
              rw [child_iff hgraph]
              simp only [Stage.children, List.map_map, List.mem_map]
              exact ⟨b, hb, rfl⟩
            have hnonneg : ∀ b ∈ branches, 0 ≤ b.probabilityOr := fun b hb =>
              hacceptable.2.1.2.1 _ (List.mem_map_of_mem hb)
            -- below `n` nothing is being visited: `n` itself is not below its children
            have hloop := foldlM_visitBranch_completes levels 0 []
              (s := { s with visiting := insert n s.visiting })
              (fun c s v s' => visit_ok) (fun b hb s hs hfree => ih (hn.child (hchild b hb)) hs hfree)
              (fun b hb => ⟨hacceptable.2.2 b hb, hnonneg b hb⟩) ⟨hs.sound, hs.closed⟩
              (fun b hb m hm hreaches => by
                rcases Finset.mem_insert.1 hm with rfl | hm
                · exact absurd hreaches (hn.acyclic (hchild b hb))
                · exact hfree m hm (.head (hchild b hb) hreaches))
            rw [visit_branches levels hmemo hvisiting hnode hacceptable]
            rcases hloop with ⟨r, hok⟩ | ⟨herror, b, hb, hwalk⟩
            · exact .inl ⟨_, by rw [hok]; rfl⟩
            · exact .inr ⟨by rw [herror]; rfl, hwalk.cons (hchild b hb)⟩
          · cases hstage

/-! ## Descriptions -/

/-- The same node with its branches in another order. -/
inductive Node.Permuted : Node → Node → Prop where
  | payoff (payoff : ℚ) : Permuted (.payoff payoff) (.payoff payoff)
  | branches {branches branches' : List Branch} (h : branches.Perm branches') :
      Permuted (.branches branches) (.branches branches')

/-- The same description with the branches of its nodes in other orders. -/
structure Tree.Permuted (tree tree' : Tree) : Prop where
  root : tree.root = tree'.root
  nodes : List.Forall₂ (fun item item' => item.1 = item'.1 ∧ item.2.Permuted item'.2) tree.nodes
    tree'.nodes

theorem Node.Permuted.symm {node node' : Node} (h : node.Permuted node') : node'.Permuted node := by
  cases h with
  | payoff => exact .payoff _
  | branches h => exact .branches h.symm

theorem Tree.Permuted.symm {tree tree' : Tree} (h : tree.Permuted tree') : tree'.Permuted tree where
  root := h.root.symm
  nodes := (h.nodes.imp fun _ _ h => ⟨h.1.symm, h.2.symm⟩).flip

theorem lookup_permuted {nodes' : List (String × Node)} {node : Node}
    (h : List.Forall₂ (fun item item' => item.1 = item'.1 ∧ item.2.Permuted item'.2) nodes nodes')
    (hn : nodes.lookup n = some node) : ∃ node', nodes'.lookup n = some node' ∧ node.Permuted node' := by
  induction h with
  | nil => cases hn
  | @cons item item' _ _ hitem _ ih =>
    obtain ⟨k, x⟩ := item
    obtain ⟨k', x'⟩ := item'
    obtain ⟨rfl, hx⟩ := hitem
    by_cases hk : n = k
    · subst hk
      rw [lookup_cons_self, Option.some.injEq] at hn
      exact ⟨x', lookup_cons_self, hn ▸ hx⟩
    · rw [lookup_cons_ne hk] at hn ⊢
      exact ih hn

theorem Acceptable.perm {branches' : List Branch} (hperm : branches.Perm branches')
    (h : Acceptable branches) : Acceptable branches' :=
  ⟨fun hnil => h.1 (List.Perm.eq_nil (hnil ▸ hperm)),
    (normalizedProbabilitySum_perm (hperm.map _)).1 h.2.1,
    fun b hb => h.2.2 b (hperm.mem_iff.2 hb)⟩

theorem Tree.Permuted.graphOf {tree tree' : Tree} (h : tree.Permuted tree') :
    Stages.Permuted (graphOf tree.nodes) (graphOf tree'.nodes) := by
  intro n stage hstage
  unfold EvTree.graphOf at hstage
  split at hstage
  · rename_i payoff hn
    obtain ⟨_, hn', ⟨⟩⟩ := lookup_permuted h.nodes hn
    cases hstage
    exact ⟨.leaf payoff, by simp [EvTree.graphOf, hn'], .leaf payoff⟩
  · rename_i branches hn
    obtain ⟨_, hn', hperm⟩ := lookup_permuted h.nodes hn
    cases hperm with
    | @branches _ branches' hperm =>
      split at hstage
      · rename_i hacceptable
        cases hstage
        refine ⟨_, ?_, .lottery (hperm.map _)⟩
        simp only [EvTree.graphOf, hn']
        exact if_pos (hacceptable.perm hperm)
      · cases hstage
  · cases hstage

theorem intact_empty : Intact nodes ⟨∅, [], []⟩ := ⟨by simp, by simp⟩

theorem evaluateEvTree_eq {tree : Tree} (hroot : (tree.nodes.lookup tree.rootId).isSome)
    (hnodes : tree.nodes.length ≤ HARD_MAX_NODES) :
    evaluateEvTree tree =
      (visit tree.nodes (HARD_MAX_DEPTH + 1) tree.rootId ⟨∅, [], []⟩).map fun r =>
        ⟨tree.rootId, r.1, r.2.memo, r.2.branchValues⟩ := by
  simp only [evaluateEvTree]
  rw [bind_ok_left (require_of hroot), bind_ok_left (require_of hnodes)]
  cases visit tree.nodes (HARD_MAX_DEPTH + 1) tree.rootId ⟨∅, [], []⟩ <;> rfl

/-- What a successful evaluation returns. -/
theorem evaluateEvTree_ok {tree : Tree} {result : Evaluation} (h : evaluateEvTree tree = .ok result) :
    (tree.nodes.lookup tree.rootId).isSome ∧ tree.nodes.length ≤ HARD_MAX_NODES ∧
      Value (graphOf tree.nodes) tree.rootId result.expectedValue ∧
      (∀ n v, result.nodeValues.lookup n = some v → Value (graphOf tree.nodes) n v) ∧
      ∀ n, (result.nodeValues.lookup n).isSome ↔ Reaches (graphOf tree.nodes) tree.rootId n := by
  simp only [evaluateEvTree, require_bind_eq_ok] at h
  obtain ⟨hroot, hnodes, h⟩ := h
  rw [bind_eq_ok] at h
  obtain ⟨⟨v, s⟩, hvisit, h⟩ := h
  cases h
  obtain ⟨hvalue, hexplored⟩ := visit_ok hvisit intact_empty
  exact ⟨hroot, hnodes, hvalue, hexplored.intact.sound, fun n => by simp [hexplored.memo]⟩

/-- Where a description is evaluated, its nodes are worth the sums over their
paths; and the same description with its branches in other orders is evaluated
with the same values, unless a walk from its root exceeds the depth limit. -/
theorem evaluateEvTree_permuted (tree tree' : Tree) (h : tree.Permuted tree') (result : Evaluation)
    (hok : evaluateEvTree tree = .ok result) :
    (result.nodeValues.lookup tree.rootId = some result.expectedValue ∧
      ∀ n v, result.nodeValues.lookup n = some v → IsPathSum (graphOf tree.nodes) n v) ∧
    ((∃ result', evaluateEvTree tree' = .ok result' ∧
        result'.expectedValue = result.expectedValue ∧
        ∀ n, result'.nodeValues.lookup n = result.nodeValues.lookup n) ∨
      evaluateEvTree tree' = .error depthError ∧
        HasWalk (graphOf tree'.nodes) tree'.rootId (HARD_MAX_DEPTH + 1)) := by
  obtain ⟨hroot, hnodes, hvalue, hsound, hreached⟩ := evaluateEvTree_ok hok
  have hid : tree'.rootId = tree.rootId := by rw [Tree.rootId, Tree.rootId, h.root]
  refine ⟨⟨?_, fun n v hv => (hsound n v hv).isPathSum⟩, ?_⟩
  · obtain ⟨v, hv⟩ := Option.isSome_iff_exists.1 ((hreached tree.rootId).2 .refl)
    rw [hv, (hsound _ v hv).unique hvalue]
  have hvalue' := hid ▸ hvalue.permuted h.graphOf
  have hroot' : (tree'.nodes.lookup tree'.rootId).isSome := by
    obtain ⟨node, hnode⟩ := Option.isSome_iff_exists.1 hroot
    obtain ⟨node', hnode', -⟩ := lookup_permuted h.nodes hnode
    simp [hid, hnode']
  have heq := evaluateEvTree_eq hroot' (h.nodes.length_eq ▸ hnodes)
  rcases visit_completes (HARD_MAX_DEPTH + 1) hvalue'.grounded intact_empty (by simp) with
    ⟨⟨v, s⟩, hvisit⟩ | ⟨herror, hwalk⟩
  · rw [hvisit] at heq
    obtain ⟨-, -, hv, hsound', hreached'⟩ := evaluateEvTree_ok heq
    refine .inl ⟨_, heq, hv.unique hvalue', fun n => Option.ext fun w => ?_⟩
    -- both memos know the nodes reached, and what each is worth
    have hsame : (s.memo.lookup n).isSome ↔ (result.nodeValues.lookup n).isSome := by
      rw [hreached, hreached', hid]
      exact ⟨Reaches.permuted h.symm.graphOf, Reaches.permuted h.graphOf⟩
    constructor
    · intro hw
      obtain ⟨w', hw'⟩ := Option.isSome_iff_exists.1 (hsame.1 (by simp [hw]))
      rw [hw', (hsound' n w hw).unique ((hsound n w' hw').permuted h.graphOf)]
    · intro hw
      obtain ⟨w', hw'⟩ := Option.isSome_iff_exists.1 (hsame.2 (by simp [hw]))
      rw [hw', (hsound' n w' hw').unique ((hsound n w hw).permuted h.graphOf)]
  · rw [herror] at heq
    exact .inr ⟨heq, hwalk⟩

end

/-! ## A shared node at the end of a long walk -/

namespace Detour

/-- The names of the nodes along the walk. -/
def name (i : Nat) : String := String.ofList (List.replicate i 'n')

/-- The root's branch to the node before the last. -/
def direct : Branch := ⟨some (1 / 2), some (name 256), none⟩

/-- The root's branch to the first node of the walk. -/
def around : Branch := ⟨some (1 / 2), some (name 1), none⟩

def next (i : Nat) : Branch := ⟨some 1, some (name (i + 1)), none⟩

def node (first : List Branch) (i : Nat) : Node :=
  if i = 0 then .branches first else if i = 257 then .payoff 7 else .branches [next i]

def tree (first : List Branch) : Tree :=
  ⟨some (name 0), (List.range 258).map fun i => (name i, node first i)⟩

variable {first : List Branch} {i j levels : Nat} {s : Visit}

theorem name_inj : name i = name j ↔ i = j := by
  constructor
  · intro h
    have := congrArg List.length (String.ofList_injective h)
    simpa using this
  · exact congrArg name

variable (first) in
theorem lookup_name (hi : i ≤ 257) : (tree first).nodes.lookup (name i) = some (node first i) := by
  refine lookup_of_mem ?_ (List.mem_map.2 ⟨i, by simp; omega, rfl⟩)
  simp only [tree, List.map_map]
  exact (List.nodup_range.map fun a b h => name_inj.1 h)

theorem acceptable_next : Acceptable [next i] := by
  refine ⟨by simp, ?_, by simp [next]⟩
  show normalizedProbabilitySum [1] _
  decide +kernel

theorem acceptable_root (h : first = [direct, around] ∨ first = [around, direct]) :
    Acceptable first := by
  rcases h with rfl | rfl <;>
  · refine ⟨by simp, ?_, by simp [direct, around]⟩
    show normalizedProbabilitySum [1 / 2, 1 / 2] _
    decide +kernel

/-- With the walk first, the node at its end is visited below the limit. -/
theorem visit_too_deep (hi : i + levels = 257)
    (hvisiting : ∀ j, i ≤ j → j ≤ 257 → name j ∉ s.visiting) (hmemo : s.memo = []) :
    visit (tree [around, direct]).nodes levels (name i) s = .error depthError := by
  induction levels generalizing i s with
  | zero => rfl
  | succ levels ih =>
    have hle : i ≤ 257 := by omega
    obtain ⟨p, hp, rest, hnode, hacceptable⟩ : ∃ p, (0 : ℚ) ≤ p ∧ ∃ rest,
        node [around, direct] i = .branches (⟨some p, some (name (i + 1)), none⟩ :: rest) ∧
        Acceptable (⟨some p, some (name (i + 1)), none⟩ :: rest) := by
      unfold node
      split
      · rename_i h0
        subst h0
        exact ⟨1 / 2, by norm_num, [direct], rfl, acceptable_root (.inr rfl)⟩
      · rw [if_neg (by omega)]
        exact ⟨1, zero_le_one, [], rfl, acceptable_next⟩
    have hdeeper := ih (i := i + 1) (s := { s with visiting := insert (name i) s.visiting })
      (by omega) (fun j hj hle => ?_) hmemo
    · rw [visit_branches levels (by simp [hmemo]) (hvisiting i le_rfl hle)
        ((lookup_name [around, direct] hle).trans (by rw [hnode])) hacceptable, List.foldlM_cons]
      have hfirst : ∀ acc details, visitBranch (visit (tree [around, direct]).nodes levels)
          (acc, details, { s with visiting := insert (name i) s.visiting })
          ⟨some p, some (name (i + 1)), none⟩ = .error depthError := fun acc details => by
        unfold visitBranch
        simp only
        rw [bind_ok_left (require_of hp), hdeeper]
        rfl
      rw [hfirst]
      rfl
    · rw [Finset.mem_insert, not_or]
      exact ⟨fun h => absurd (name_inj.1 h) (by omega), hvisiting j (by omega) hle⟩

variable (first) in
/-- A node with one branch is visited where the branch's node is. -/
theorem visit_next (hi : 1 ≤ i) (hle : i ≤ 256) (hmemo : s.memo.lookup (name i) = none)
    (hvisiting : name i ∉ s.visiting) {v : ℚ} {t : Visit}
    (hchild : visit (tree first).nodes levels (name (i + 1))
      { s with visiting := insert (name i) s.visiting } = .ok (v, t)) :
    ∃ w details, visit (tree first).nodes (levels + 1) (name i) s =
      .ok (w, ⟨t.visiting.erase (name i), (name i, w) :: t.memo, details⟩) := by
  have hnode : (tree first).nodes.lookup (name i) = some (.branches [next i]) := by
    rw [lookup_name first (by omega), node, if_neg (by omega), if_neg (by omega)]
  have hvisit := visit_branches levels hmemo hvisiting hnode acceptable_next
  rw [List.foldlM_cons, bind_ok_left
    (visitBranch_ok.2 ⟨1, name (i + 1), v, rfl, zero_le_one, rfl, hchild, rfl, rfl⟩)] at hvisit
  exact ⟨_, _, hvisit⟩

variable (first levels) in
/-- With the end of the walk in the memo, the walk is visited within the limit. -/
theorem visit_around (hi : 1 ≤ i) (hle : i ≤ 256) (hlevels : 256 < i + levels)
    (hend : (s.memo.lookup (name 256)).isSome)
    (hvisiting : ∀ j, i ≤ j → j < 256 → name j ∉ s.visiting) :
    ∃ r, visit (tree first).nodes levels (name i) s = .ok r := by
  induction levels generalizing i s with
  | zero => omega
  | succ levels ih =>
    cases hmemo : s.memo.lookup (name i) with
    | some value => exact ⟨(value, s), by simp only [visit, hmemo]⟩
    | none =>
      have hlt : i < 256 := by
        refine lt_of_le_of_ne hle fun h => ?_
        rw [← h, hmemo] at hend
        cases hend
      obtain ⟨⟨v, t⟩, hchild⟩ := ih (i := i + 1)
        (s := { s with visiting := insert (name i) s.visiting }) (by omega) hlt (by omega) hend
        fun j hj hlt' => by
          rw [Finset.mem_insert, not_or]
          exact ⟨fun h => absurd (name_inj.1 h) (by omega), hvisiting j (by omega) hlt'⟩
      obtain ⟨w, details, hvisit⟩ := visit_next first hi hle hmemo
        (hvisiting i le_rfl hlt) hchild
      exact ⟨_, hvisit⟩

theorem evaluate_around_first : evaluateEvTree (tree [around, direct]) = .error depthError := by
  have hroot : ((tree [around, direct]).nodes.lookup (tree [around, direct]).rootId).isSome := by
    rw [show (tree [around, direct]).rootId = name 0 from rfl, lookup_name [around, direct] (by omega)]
    rfl
  rw [evaluateEvTree_eq hroot (by simp [tree, HARD_MAX_NODES])]
  rw [show (tree [around, direct]).rootId = name 0 from rfl,
    visit_too_deep (by decide) (by simp) rfl]
  rfl

theorem evaluate_direct_first : ∃ result, evaluateEvTree (tree [direct, around]) = .ok result := by
  have hroot : ((tree [direct, around]).nodes.lookup (tree [direct, around]).rootId).isSome := by
    rw [show (tree [direct, around]).rootId = name 0 from rfl,
      lookup_name [direct, around] (by omega)]
    rfl
  have hne : ∀ {i j : Nat}, i ≠ j → name i ≠ name j := fun h heq => h (name_inj.1 heq)
  let entered : Visit := ⟨insert (name 0) ∅, [], []⟩
  -- the direct branch puts the end of the walk in the memo
  have hleaf := visit_payoff 254 (s := { entered with visiting := insert (name 256) entered.visiting })
    (n := name 257) rfl (by simp [entered, hne]) (lookup_name [direct, around] le_rfl)
  obtain ⟨w, details, hdirect⟩ := visit_next [direct, around] (s := entered) (i := 256) (by omega) le_rfl rfl
    (by simp [entered, hne]) hleaf
  obtain ⟨⟨v, t⟩, haround⟩ := visit_around [direct, around] 256 (i := 1)
    (s := ⟨(insert (name 256) entered.visiting).erase (name 256),
      (name 256, w) :: [(name 257, 7)], details⟩) le_rfl (by omega) (by omega)
    (by rw [lookup_cons_self]; rfl)
    (fun j hj hlt => by simp [entered, hne (show j ≠ 256 by omega), hne (show j ≠ 0 by omega)])
  have hfirst : visitBranch (visit (tree [direct, around]).nodes 256) (0, [], entered) direct = _ :=
    visitBranch_ok.2 ⟨1 / 2, name 256, w, rfl, by norm_num, rfl, hdirect, rfl, rfl⟩
  have hsecond : ∀ acc details, visitBranch (visit (tree [direct, around]).nodes 256)
      (acc, details, _) around = _ := fun acc details =>
    visitBranch_ok.2 ⟨1 / 2, name 1, v, rfl, by norm_num, rfl, haround, rfl, rfl⟩
  obtain ⟨r, hfold⟩ : ∃ r, [direct, around].foldlM
      (visitBranch (visit (tree [direct, around]).nodes 256)) (0, [], entered) = .ok r := by
    rw [List.foldlM_cons, bind_ok_left hfirst, List.foldlM_cons, bind_ok_left (hsecond _ _),
      List.foldlM_nil]
    exact ⟨_, rfl⟩
  have hvisit := visit_branches HARD_MAX_DEPTH (s := ⟨∅, [], []⟩) rfl (by simp)
    (lookup_name [direct, around] (i := 0) (by omega)) (acceptable_root (.inl rfl))
  rw [evaluateEvTree_eq hroot (by simp [tree, HARD_MAX_NODES])]
  rw [show (tree [direct, around]).rootId = name 0 from rfl, hvisit,
    show HARD_MAX_DEPTH = 256 from rfl, hfold]
  exact ⟨_, rfl⟩

theorem node_permuted (i : Nat) : (node [direct, around] i).Permuted (node [around, direct] i) := by
  unfold node
  split
  · exact .branches (.swap _ _ _)
  · split
    · exact .payoff 7
    · exact .branches (.refl _)

theorem map_permuted (positions : List Nat) : Tree.Permuted
    ⟨some (name 0), positions.map fun i => (name i, node [direct, around] i)⟩
    ⟨some (name 0), positions.map fun i => (name i, node [around, direct] i)⟩ where
  root := rfl
  nodes := by
    induction positions with
    | nil => exact .nil
    | cons i rest ih => exact .cons ⟨rfl, node_permuted i⟩ ih

theorem tree_permuted : (tree [direct, around]).Permuted (tree [around, direct]) :=
  map_permuted (List.range 258)

end Detour

/-- One order of the root's branches is evaluated and the other is not. -/
theorem order_decides_acceptance : ∃ tree tree' : Tree, tree.Permuted tree' ∧
    (∃ result, evaluateEvTree tree = .ok result) ∧ ¬ ∃ result, evaluateEvTree tree' = .ok result :=
  ⟨_, _, Detour.tree_permuted, Detour.evaluate_direct_first, fun ⟨_, h⟩ => by
    rw [Detour.evaluate_around_first] at h
    cases h⟩

/-- A node with two branches, in both orders. -/
theorem evaluateEvTree_permuted_two :
    let tree := fun branches : List Branch => (⟨none, [("root", .branches branches),
      ("a", .payoff 3), ("b", .payoff 1)]⟩ : Tree)
    let a : Branch := ⟨some (1 / 4), some "a", none⟩
    let b : Branch := ⟨some (3 / 4), some "b", none⟩
    ∃ result, evaluateEvTree (tree [a, b]) = .ok result ∧
      result.nodeValues.lookup "root" = some result.expectedValue := by
  intro tree a b
  have hok : (evaluateEvTree (tree [a, b])).isOk = true := by decide +kernel
  obtain ⟨result, h⟩ : ∃ result, evaluateEvTree (tree [a, b]) = .ok result := by
    cases h : evaluateEvTree (tree [a, b]) with
    | ok result => exact ⟨result, rfl⟩
    | error => simp [h, Except.isOk, Except.toBool] at hok
  have hperm : (tree [a, b]).Permuted (tree [b, a]) :=
    ⟨rfl, .cons ⟨rfl, .branches (.swap _ _ _)⟩ (.cons ⟨rfl, .payoff 3⟩ (.cons ⟨rfl, .payoff 1⟩ .nil))⟩
  exact ⟨result, h, (evaluateEvTree_permuted _ _ hperm result h).1.1⟩

end PokerDeliberation.Games.EvTree
