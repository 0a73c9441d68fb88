import PokerDeliberation.Games.BestResponse
import PokerDeliberation.Lib.Assoc
import PokerDeliberation.Lib.Lotteries

/-!
# What the validation of a game establishes

A validation that succeeds has visited every node that can be reached from the
root. Each of them is well formed and grounded, and its information set is
recorded with its player and its actions.
-/

namespace PokerDeliberation.Games.BestResponse

open Lib Lib.Lotteries

section

variable {nodes : List (String × GameNode)} {levels : Nat} {n m c : String} {s s' : Validation}

/-- The graph of all moves. -/
def moveGraph (nodes : List (String × GameNode)) : Stages String ℚ := fun n =>
  match nodes.lookup n with
  | some (.terminal payoff) => some (.leaf payoff)
  | some (.chance actions) =>
    some (.lottery (actions.map fun item => (item.2.probability, item.2.child)))
  | some (.player _ _ actions) => some (.lottery (actions.map fun item => (1, item.2)))
  | none => none

def GameNode.children : GameNode → List String
  | terminal _ => []
  | chance actions => actions.map fun item => item.2.child
  | player _ _ actions => actions.map Prod.snd

theorem child_moveGraph {node : GameNode} (hn : nodes.lookup n = some node) :
    Child (moveGraph nodes) n c ↔ c ∈ node.children := by
  cases node <;> simp [Child, moveGraph, hn, Stage.children, GameNode.children]

/-- The node passes the checks of its type and its information set is recorded. -/
def Admissible (infoSets : List (String × Definition)) : GameNode → Prop
  | .terminal _ => True
  | .chance actions => normalizedProbabilitySum (actions.map fun item => item.2.probability)
      BEST_RESPONSE_VERIFICATION_ULPS
  | .player player infoSet actions => (player = 0 ∨ player = 1) ∧ infoSet ≠ "" ∧ actions ≠ [] ∧
      infoSets.lookup infoSet = some (player, actionNames actions)

/-- What is known of the state between two visits. -/
structure Validated (nodes : List (String × GameNode)) (s : Validation) : Prop where
  node : ∀ n ∈ s.visited, ∃ node, nodes.lookup n = some node ∧ Admissible s.infoSets node
  closed : ∀ n ∈ s.visited, ∀ c, Child (moveGraph nodes) n c → c ∈ s.visited
  grounded : ∀ n ∈ s.visited, Grounded (moveGraph nodes) n
  source : ∀ infoSet player names, s.infoSets.lookup infoSet = some (player, names) →
    ∃ n actions, (n ∈ s.visited ∨ n ∈ s.visiting) ∧
      nodes.lookup n = some (.player player infoSet actions) ∧ names = actionNames actions

/-- What a visit of the nodes below `roots` leaves. -/
structure Validates (nodes : List (String × GameNode)) (roots : List String) (s s' : Validation) :
    Prop where
  validated : Validated nodes s'
  visiting : s'.visiting = s.visiting
  infoSets : ∀ infoSet d, s.infoSets.lookup infoSet = some d →
    s'.infoSets.lookup infoSet = some d
  visited : ∀ m, m ∈ s'.visited ↔ m ∈ s.visited ∨ ∃ r ∈ roots, Reaches (moveGraph nodes) r m

theorem Validated.reaches (h : Validated nodes s) (hn : n ∈ s.visited)
    (hreaches : Reaches (moveGraph nodes) n m) : m ∈ s.visited := by
  induction hreaches with
  | refl => exact hn
  | tail _ hchild ih => exact h.closed _ ih _ hchild

theorem Admissible.mono {infoSets infoSets' : List (String × Definition)} {node : GameNode}
    (h : Admissible infoSets node)
    (hgrows : ∀ infoSet d, infoSets.lookup infoSet = some d → infoSets'.lookup infoSet = some d) :
    Admissible infoSets' node := by
  cases node with
  | terminal => trivial
  | chance => exact h
  | player => exact ⟨h.1, h.2.1, h.2.2.1, hgrows _ _ h.2.2.2⟩

theorem Validates.refl (h : Validated nodes s) : Validates nodes [] s s :=
  ⟨h, rfl, fun _ _ h => h, by simp⟩

theorem Validates.trans {roots roots' : List String} {t : Validation}
    (h : Validates nodes roots s t) (h' : Validates nodes roots' t s') :
    Validates nodes (roots ++ roots') s s' where
  validated := h'.validated
  visiting := h'.visiting.trans h.visiting
  infoSets infoSet d hd := h'.infoSets infoSet d (h.infoSets infoSet d hd)
  visited m := by
    rw [h'.visited, h.visited]
    simp only [List.mem_append, or_and_right, exists_or, or_assoc]

/-- The loop over the children of a node. -/
theorem foldlM_validates {α : Type} {step : Validation → α → Except String Validation}
    (child : α → String) {items : List α}
    (hstep : ∀ x s s', step s x = .ok s' → Validated nodes s → Validates nodes [child x] s s')
    (h : items.foldlM step s = .ok s') (hs : Validated nodes s) :
    Validates nodes (items.map child) s s' := by
  induction items generalizing s with
  | nil =>
    cases h
    exact .refl hs
  | cons x items ih =>
    rw [List.foldlM_cons, bind_eq_ok] at h
    obtain ⟨t, hx, h⟩ := h
    have hfirst := hstep x s t hx hs
    exact hfirst.trans (ih h hfirst.validated)

/-- `visiting.remove(node_id)` and `visited.add(node_id)` once the children are visited. -/
theorem Validates.leave {node : GameNode} {t : Validation} (hn : nodes.lookup n = some node)
    (hvisiting : n ∉ s.visiting) (h : Validates nodes node.children s' t)
    (hentered : s'.visiting = insert n s.visiting) (hvisited : s'.visited = s.visited)
    (hgrows : ∀ infoSet d, s.infoSets.lookup infoSet = some d → s'.infoSets.lookup infoSet = some d)
    (hadmissible : Admissible t.infoSets node) :
    Validates nodes [n] s ⟨t.infoSets, t.visiting.erase n, insert n t.visited⟩ := by
  have hchildren : ∀ c, Child (moveGraph nodes) n c → c ∈ t.visited := fun c hc =>
    (h.visited c).2 (.inr ⟨c, (child_moveGraph hn).1 hc, .refl⟩)
  refine ⟨⟨fun m hm => ?_, fun m hm c hc => ?_, fun m hm => ?_, fun infoSet player names hd => ?_⟩,
    ?_, fun infoSet d hd => h.infoSets infoSet d (hgrows infoSet d hd), fun m => ?_⟩
  · rcases Finset.mem_insert.1 hm with rfl | hm
    · exact ⟨node, hn, hadmissible⟩
    · exact h.validated.node m hm
  · rcases Finset.mem_insert.1 hm with rfl | hm
    · exact Finset.mem_insert_of_mem (hchildren c hc)
    · exact Finset.mem_insert_of_mem (h.validated.closed m hm c hc)
  · rcases Finset.mem_insert.1 hm with rfl | hm
    · obtain ⟨stage, hstage⟩ : ∃ stage, moveGraph nodes m = some stage := by
        cases node <;> simp [moveGraph, hn]
      exact .intro hstage fun c hc => h.validated.grounded c (hchildren c ⟨stage, hstage, hc⟩)
    · exact h.validated.grounded m hm
  · obtain ⟨m, actions, hm, hnode, hnames⟩ := h.validated.source infoSet player names hd
    refine ⟨m, actions, ?_, hnode, hnames⟩
    rcases hm with hm | hm
    · exact .inl (Finset.mem_insert_of_mem hm)
    · by_cases hmn : m = n
      · exact .inl (hmn ▸ Finset.mem_insert_self ..)
      · exact .inr (Finset.mem_erase.2 ⟨hmn, hm⟩)
  · rw [h.visiting, hentered]
    exact Finset.erase_insert hvisiting
  · rw [Finset.mem_insert, h.visited, hvisited]
    simp only [List.mem_singleton, exists_eq_left]
    constructor
    · rintro (rfl | hm | ⟨c, hc, hreaches⟩)
      · exact .inr .refl
      · exact .inl hm
      · exact .inr (.head ((child_moveGraph hn).2 hc) hreaches)
    · rintro (hm | hreaches)
      · exact .inr (.inl hm)
      · rcases hreaches.cases_head with rfl | ⟨c, hchild, hreaches⟩
        · exact .inl rfl
        · exact .inr (.inr ⟨c, (child_moveGraph hn).1 hchild, hreaches⟩)

theorem validateNode_ok (h : validateNode nodes levels n s = .ok s') (hs : Validated nodes s) :
    Validates nodes [n] s s' := by
  induction levels generalizing n s s' with
  | zero => cases h
  | succ levels ih =>
    simp only [validateNode, require_bind_eq_ok] at h
    obtain ⟨hvisiting, h⟩ := h
    split at h
    · rename_i hvisited
      cases h
      refine ⟨hs, rfl, fun _ _ h => h, fun m => ?_⟩
      have : Reaches (moveGraph nodes) n m → m ∈ s.visited := hs.reaches hvisited
      simpa using this
    · cases hn : nodes.lookup n with
      | none => simp [hn] at h
      | some node =>
        simp only [hn] at h
        have hentered : Validated nodes { s with visiting := insert n s.visiting } :=
          ⟨hs.node, hs.closed, hs.grounded, fun infoSet player names hd => by
            obtain ⟨m, actions, hm, hnode⟩ := hs.source infoSet player names hd
            exact ⟨m, actions, hm.imp_right (Finset.mem_insert_of_mem ·), hnode⟩⟩
        cases node with
        | terminal payoff =>
          cases h
          exact Validates.leave hn hvisiting (.refl hentered) rfl rfl (fun _ _ h => h) trivial
        | chance actions =>
          rw [require_bind_eq_ok, require_bind_eq_ok, bind_eq_ok] at h
          obtain ⟨-, hsum, t, hloop, h⟩ := h
          cases h
          have hchildren := foldlM_validates (fun item => item.2.child)
            (fun item s s' h hs => ih (require_bind_eq_ok.1 h).2 hs) hloop hentered
          exact Validates.leave hn hvisiting hchildren rfl rfl (fun _ _ h => h) hsum
        | player player infoSet actions =>
          simp only [bind_eq_ok, require_eq_ok, exists_const, pure_eq_ok] at h
          obtain ⟨hplayer, ⟨hinfo, hne⟩, hexisting, t, hloop, rfl⟩ := h
          have hgrows : ∀ other d, s.infoSets.lookup other = some d →
              ((infoSet, (player, actionNames actions)) :: s.infoSets).lookup other = some d := by
            intro other d hd
            by_cases hother : other = infoSet
            · subst hother
              rw [lookup_cons_self, hexisting d hd]
            · rw [lookup_cons_ne hother, hd]
          have hrecorded : Validated nodes ⟨(infoSet, (player, actionNames actions)) :: s.infoSets,
              insert n s.visiting, s.visited⟩ := by
            refine ⟨fun m hm => ?_, hs.closed, hs.grounded, fun other p names hd => ?_⟩
            · obtain ⟨node, hnode, hadmissible⟩ := hs.node m hm
              exact ⟨node, hnode, hadmissible.mono hgrows⟩
            · by_cases hother : other = infoSet
              · subst hother
                rw [lookup_cons_self] at hd
                cases hd
                exact ⟨n, actions, .inr (Finset.mem_insert_self ..), hn, rfl⟩
              · rw [lookup_cons_ne hother] at hd
                exact hentered.source other p names hd
          have hchildren := foldlM_validates Prod.snd
            (fun item s s' h hs => ih h hs) hloop hrecorded
          exact Validates.leave hn hvisiting hchildren rfl rfl hgrows
            ⟨hplayer, hinfo, hne, hchildren.infoSets _ _ lookup_cons_self⟩

end

end PokerDeliberation.Games.BestResponse
