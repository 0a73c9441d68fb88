import PokerDeliberation.Games.BestResponseSearch
import Mathlib.Order.Bounds.Defs

/-!
# The best response is optimal

The value returned is the largest utility a pure policy gives the responder.
Where no path meets an information set of his twice, no randomised policy gives
more: the game is then a decision problem without repeated points. The verifier
collects the information sets from the whole table of nodes, the search from
the nodes it reaches, so the two agree where the table holds nothing else.
-/

namespace PokerDeliberation.Games.BestResponse

open Lib Lib.Lotteries Lib.Decisions

/-- One action at each information set of the responder that can be reached. -/
def IsPolicy (game : Game) (bestResponder : Int) (policy : String → String) : Prop :=
  ∀ n infoSet actions, Reachable game n →
    game.nodes.lookup n = some (.player bestResponder infoSet actions) →
    policy infoSet ∈ actions.map Prod.fst

/-- A lottery over the actions at each information set of the responder that can be reached. -/
def IsBehaviour (game : Game) (bestResponder : Int) (strategy : Strategy String String ℚ) : Prop :=
  ∀ n infoSet actions, Reachable game n →
    game.nodes.lookup n = some (.player bestResponder infoSet actions) →
    ((strategy infoSet).map Prod.fst).sum = 1 ∧
      ∀ c ∈ strategy infoSet, 0 ≤ c.1 ∧ c.2 ∈ actions.map Prod.fst

/-- No path meets an information set of the responder twice. -/
def NeverTwice (game : Game) (bestResponder : Int) : Prop :=
  ∀ n infoSet actions, Reachable game n →
    game.nodes.lookup n = some (.player bestResponder infoSet actions) →
    ∀ c ∈ actions.map Prod.snd, ∀ m actions', Reaches (moveGraph game.nodes) c m →
      game.nodes.lookup m ≠ some (.player bestResponder infoSet actions')

section

variable {levels : Nat} {game : Game} {fixed : FixedStrategy} {bestResponder : Int} {s : Validation}
  {result : Response} {n m c infoSet : String} {actions : List (String × String)}
  {names : List String} {strategy : Strategy String String ℚ}

theorem mem_actionNames {action : String} : action ∈ actionNames actions ↔ action ∈ actions.map Prod.fst := by
  simp [actionNames, List.mem_insertionSort]

theorem lookup_child {action : String} (h : action ∈ actions.map Prod.fst) :
    (actions.lookup action).getD "" ∈ actions.map Prod.snd := by
  obtain ⟨child, hchild⟩ := Option.isSome_iff_exists.1 (lookup_isSome.2 h)
  rw [hchild]
  exact List.mem_map.2 ⟨_, mem_of_lookup hchild, rfl⟩

/-- A decision is one of the responder's. -/
theorem turnOf_choice {child : String → String}
    (hturn : turnOf game.nodes fixed bestResponder n = some (.choice infoSet child)) :
    ∃ actions, game.nodes.lookup n = some (.player bestResponder infoSet actions) ∧
      child = fun action => (actions.lookup action).getD "" := by
  unfold turnOf at hturn
  split at hturn
  · cases hturn
  · cases hturn
  · rename_i player infoSet' actions hnode
    split at hturn
    · rename_i hplayer
      simp only [Option.some.injEq, Turn.choice.injEq] at hturn
      obtain ⟨rfl, rfl⟩ := hturn
      exact ⟨actions, hplayer ▸ hnode, rfl⟩
    · simp [Option.map_eq_some_iff] at hturn
  · cases hturn

namespace Accepted

variable (h : Accepted levels game fixed bestResponder s result)

include h

/-- A player node that can be reached. -/
theorem player {player : Int} (hn : Reachable game n)
    (hnode : game.nodes.lookup n = some (.player player infoSet actions)) :
    (player = 0 ∨ player = 1) ∧ s.infoSets.lookup infoSet = some (player, actionNames actions) := by
  obtain ⟨node, hnode', hadmissible⟩ := h.validated.node n ((h.visited n).2 hn)
  rw [hnode] at hnode'
  cases hnode'
  exact ⟨hadmissible.1, hadmissible.2.2.2⟩

/-- The fixed strategy at an opponent's node that can be reached. -/
theorem opponent {player : Int} (hn : Reachable game n)
    (hnode : game.nodes.lookup n = some (.player player infoSet actions))
    (hplayer : player ≠ bestResponder) :
    ∃ probabilities, fixed.lookup infoSet = some probabilities ∧
      (probabilities.map Prod.fst).toFinset = (actionNames actions).toFinset ∧
      normalizedProbabilitySum (probabilities.map Prod.snd) BEST_RESPONSE_VERIFICATION_ULPS := by
  obtain ⟨hzeroone, hrecorded⟩ := h.player hn hnode
  have hopponent : player = 1 - bestResponder := by
    have := h.responder
    omega
  have hcheck := h.fixed infoSet _ (hopponent ▸ hrecorded)
  unfold checkFixed at hcheck
  cases hfixed : fixed.lookup infoSet with
  | none => simp [hfixed] at hcheck
  | some probabilities =>
    simp only [hfixed, require_bind_eq_ok, require_eq_ok] at hcheck
    exact ⟨probabilities, rfl, hcheck.1, hcheck.2.2⟩

/-- The decision problem has no moves of its own. -/
theorem child_moves (hn : Reachable game n)
    (hchild : Child (decision game.nodes fixed bestResponder s.infoSets).moves n c) :
    Child (moveGraph game.nodes) n c := by
  obtain ⟨node, hnode, -⟩ := h.validated.node n ((h.visited n).2 hn)
  rw [child_moveGraph hnode]
  obtain ⟨stage, hstage, hc⟩ := hchild
  cases node with
  | terminal payoff =>
    simp only [Problem.moves, Problem.play, decision, turnOf, hnode, Option.some.injEq] at hstage
    subst hstage
    simp [Stage.children] at hc
  | chance actions =>
    simp only [Problem.moves, Problem.play, decision, turnOf, hnode, Option.some.injEq] at hstage
    subst hstage
    simpa [Stage.children, GameNode.children] using hc
  | player player infoSet actions =>
    by_cases hplayer : player = bestResponder
    · subst hplayer
      have hrecorded := (h.player hn hnode).2
      simp only [Problem.moves, Problem.play, decision, turnOf, hnode, if_true,
        Option.some.injEq] at hstage
      subst hstage
      obtain ⟨action, haction, rfl⟩ : ∃ action ∈ actionNames actions,
          (actions.lookup action).getD "" = c := by
        simpa [Stage.children, hrecorded] using hc
      exact lookup_child (mem_actionNames.1 haction)
    · obtain ⟨probabilities, hfixed, hkeys, -⟩ := h.opponent hn hnode hplayer
      simp only [Problem.moves, Problem.play, decision, turnOf, hnode, if_neg hplayer, hfixed,
        Option.map_some, Option.some.injEq] at hstage
      subst hstage
      obtain ⟨item, hitem, rfl⟩ : ∃ item ∈ probabilities,
          (actions.lookup item.1).getD "" = c := by
        simpa [Stage.children] using hc
      have hname : item.1 ∈ (actionNames actions).toFinset := by
        rw [← hkeys, List.mem_toFinset]
        exact List.mem_map_of_mem hitem
      exact lookup_child (mem_actionNames.1 (List.mem_toFinset.1 hname))

theorem isSome_moves (hn : Reachable game n) :
    ((decision game.nodes fixed bestResponder s.infoSets).moves n).isSome := by
  rw [Problem.moves, Problem.isSome_play]
  obtain ⟨node, hnode, -⟩ := h.validated.node n ((h.visited n).2 hn)
  cases node with
  | terminal => simp [decision, turnOf, hnode]
  | chance => simp [decision, turnOf, hnode]
  | player player infoSet actions =>
    by_cases hplayer : player = bestResponder
    · simp [decision, turnOf, hnode, hplayer]
    · obtain ⟨probabilities, hfixed, -⟩ := h.opponent hn hnode hplayer
      simp [decision, turnOf, hnode, hplayer, hfixed]

theorem grounded_moves :
    Grounded (decision game.nodes fixed bestResponder s.infoSets).moves game.root := by
  have hroot : Reachable game game.root := .refl
  refine (h.validated.grounded _ ((h.visited _).2 hroot)).mono (fun m hm => h.isSome_moves hm)
    fun m c hm => h.child_moves hm

theorem reachable (hn : Reachable game n)
    (hreaches : Reaches (decision game.nodes fixed bestResponder s.infoSets).moves n m) :
    Reaches (moveGraph game.nodes) n m := by
  induction hreaches with
  | refl => exact .refl
  | tail _ hchild ih => exact ih.tail (h.child_moves (hn.trans ih) hchild)

/-- An information set that is met is one of a node that can be reached. -/
theorem meets (hn : Reachable game n)
    (hmeets : (decision game.nodes fixed bestResponder s.infoSets).Meets n infoSet) :
    ∃ m actions, Reaches (moveGraph game.nodes) n m ∧
      game.nodes.lookup m = some (.player bestResponder infoSet actions) := by
  obtain ⟨m, child, hm, hturn⟩ := hmeets
  obtain ⟨actions, hnode, -⟩ := turnOf_choice hturn
  exact ⟨m, actions, h.reachable hn hm, hnode⟩

theorem mem_names (hmeets : (decision game.nodes fixed bestResponder s.infoSets).Meets game.root
    infoSet) : ∃ names, (infoSet, names) ∈ responderInfoSets s.infoSets bestResponder ∧
      (decision game.nodes fixed bestResponder s.infoSets).allowed infoSet = names := by
  obtain ⟨m, actions, hm, hnode⟩ := h.meets .refl hmeets
  have hrecorded := (h.player hm hnode).2
  exact ⟨_, mem_responderInfoSets.2 hrecorded, by simp [decision, hrecorded]⟩

/-- The actions of a recorded information set are those of a node that can be reached. -/
theorem source (hnames : (infoSet, names) ∈ responderInfoSets s.infoSets bestResponder) :
    ∃ n actions, Reachable game n ∧
      game.nodes.lookup n = some (.player bestResponder infoSet actions) ∧
      names = actionNames actions := by
  obtain ⟨n, actions, hn, hnode, hactions⟩ :=
    h.validated.source infoSet bestResponder names (mem_responderInfoSets.1 hnames)
  refine ⟨n, actions, (h.visited n).1 (hn.resolve_right fun hin => ?_), hnode, hactions⟩
  simp [h.visiting] at hin

/-! ## Pure policies -/

/-- The strategy chooses among the recorded actions wherever the responder decides. -/
theorem valid (hbehaviour : IsBehaviour game bestResponder strategy) :
    (decision game.nodes fixed bestResponder s.infoSets).Valid game.root strategy := by
  intro infoSet hmeets
  obtain ⟨m, actions, hm, hnode⟩ := h.meets .refl hmeets
  obtain ⟨hsum, hchoices⟩ := hbehaviour m infoSet actions hm hnode
  refine ⟨hsum, fun c hc => ⟨(hchoices c hc).1, ?_⟩⟩
  have hallowed : (decision game.nodes fixed bestResponder s.infoSets).allowed infoSet =
      actionNames actions := by
    simp [decision, (h.player hm hnode).2]
  rw [hallowed, mem_actionNames]
  exact (hchoices c hc).2

theorem valid_pure {policy : String → String} (hpolicy : IsPolicy game bestResponder policy) :
    (decision game.nodes fixed bestResponder s.infoSets).Valid game.root (Decisions.pure policy) :=
  h.valid fun n infoSet actions hn hnode => by
    simpa [Decisions.pure] using hpolicy n infoSet actions hn hnode

/-- Among the selections that are tried one plays the policy. -/
theorem exists_selected {policy : String → String}
    (hpolicy : IsPolicy game bestResponder policy) :
    ∃ selected ∈ product ((responderInfoSets s.infoSets bestResponder).map Prod.snd),
      worth (playGraph game.nodes fixed bestResponder
        (Decisions.pure (choose (((responderInfoSets s.infoSets bestResponder).map Prod.fst).zip selected))))
        game.root = worth (playGraph game.nodes fixed bestResponder (Decisions.pure policy)) game.root := by
  set sets := responderInfoSets s.infoSets bestResponder with hsets
  refine ⟨sets.map fun entry => policy entry.1, ?_, ?_⟩
  · rw [mem_product, List.forall₂_map_left_iff, List.forall₂_map_right_iff, List.forall₂_same]
    rintro ⟨infoSet, names⟩ hentry
    obtain ⟨n, actions, hn, hnode, rfl⟩ := h.source hentry
    exact mem_actionNames.2 (hpolicy n infoSet actions hn hnode)
  · have hchoose : ∀ infoSet names, (infoSet, names) ∈ sets →
        choose (sets.map fun entry => (entry.1, policy entry.1)) infoSet = policy infoSet := by
      intro infoSet names hentry
      have hnodup : ((sets.map fun entry => (entry.1, policy entry.1)).map Prod.fst).Nodup := by
        rw [List.map_map]
        exact nodup_responderInfoSets
      rw [choose, lookup_of_mem hnodup (List.mem_map.2 ⟨_, hentry, rfl⟩), Option.getD_some]
    have hlisted : IsPolicy game bestResponder
        (choose (sets.map fun entry => (entry.1, policy entry.1))) := by
      intro n infoSet actions hn hnode
      rw [hchoose _ _ (mem_responderInfoSets.2 (h.player hn hnode).2)]
      exact hpolicy n infoSet actions hn hnode
    rw [List.zip_map']
    show worth ((decision game.nodes fixed bestResponder s.infoSets).play _) _ =
      worth ((decision game.nodes fixed bestResponder s.infoSets).play _) _
    refine Problem.worth_congr h.grounded_moves (h.valid_pure hlisted) (h.valid_pure hpolicy)
      fun infoSet hmeets => ?_
    obtain ⟨names, hentry, -⟩ := h.mem_names hmeets
    rw [Decisions.pure, Decisions.pure, hchoose infoSet names hentry]

/-- The search does as well as every pure policy. -/
theorem le_value {policy : String → String} (hpolicy : IsPolicy game bestResponder policy) :
    utility game fixed bestResponder (Decisions.pure policy) ≤ result.value := by
  obtain ⟨selected, hselected, hworth⟩ := h.exists_selected hpolicy
  obtain ⟨v, hscores, hle⟩ := h.best.2.2 selected hselected
  have hv : worth (playGraph game.nodes fixed bestResponder (Decisions.pure policy)) game.root = v := by
    rw [← hworth]
    exact hscores.worth_eq
  rw [utility, hv]
  exact hle

/-- The policy that is returned is one of those the responder may play. -/
theorem isPolicy : IsPolicy game bestResponder (choose result.purePolicy) := by
  obtain ⟨-, ⟨selected, hselected, hpolicy, -⟩, -⟩ := h.best
  replace hpolicy : result.purePolicy = _ := hpolicy
  rw [mem_product, List.forall₂_map_right_iff] at hselected
  intro n infoSet actions hn hnode
  have hentry := mem_responderInfoSets.2 (h.player hn hnode).2
  have hnodup : ((responderInfoSets s.infoSets bestResponder).map Prod.fst).Nodup :=
    nodup_responderInfoSets
  generalize responderInfoSets s.infoSets bestResponder = sets at hselected hpolicy hentry hnodup
  obtain ⟨action, hmem, haction⟩ :
      ∃ action, (infoSet, action) ∈ (sets.map Prod.fst).zip selected ∧
        action ∈ actionNames actions := by
    clear hpolicy hnodup
    induction hselected with
    | nil => simp at hentry
    | @cons x entry selected sets hx _ ih =>
      rcases List.mem_cons.1 hentry with rfl | hentry
      · exact ⟨x, by simp, hx⟩
      · obtain ⟨action, hmem, haction⟩ := ih hentry
        exact ⟨action, List.mem_cons_of_mem _ hmem, haction⟩
  have hkeys : (((sets.map Prod.fst).zip selected).map Prod.fst).Nodup := by
    rw [List.map_fst_zip (by simp [hselected.length_eq])]
    exact hnodup
  rw [hpolicy, choose, lookup_of_mem hkeys hmem, Option.getD_some]
  exact mem_actionNames.1 haction

/-- The value is what the policy that is returned gives the responder. -/
theorem utility_purePolicy :
    utility game fixed bestResponder (Decisions.pure (choose result.purePolicy)) = result.value := by
  obtain ⟨hobjective, ⟨selected, -, -, memo, hrun⟩, -⟩ := h.best
  have hworth := (evaluate_ok hrun (by simp [Sound])).1.worth_eq
  rw [utility, hworth]
  exact hobjective.symm

theorem isGreatest : IsGreatest {u | ∃ policy, IsPolicy game bestResponder policy ∧
    u = utility game fixed bestResponder (Decisions.pure policy)} result.value := by
  refine ⟨⟨choose result.purePolicy, h.isPolicy, h.utility_purePolicy.symm⟩, ?_⟩
  rintro u ⟨policy, hpolicy, rfl⟩
  exact h.le_value hpolicy

/-! ## Randomised policies -/

theorem noRepeat (hnever : NeverTwice game bestResponder) :
    (decision game.nodes fixed bestResponder s.infoSets).NoRepeat game.root := by
  intro m infoSet child hm hturn action haction hmeets
  obtain ⟨actions, hnode, rfl⟩ := turnOf_choice hturn
  have hreachable : Reachable game m := h.reachable .refl hm
  have hallowed : action ∈ actions.map Prod.fst := by
    simpa [decision, (h.player hreachable hnode).2, mem_actionNames] using haction
  have hchild := lookup_child hallowed
  obtain ⟨d, actions', hd, hnode'⟩ :=
    h.meets (hreachable.tail ((child_moveGraph hnode).2 hchild)) hmeets
  exact hnever m infoSet actions hreachable hnode _ hchild d actions' hd hnode'

/-- A randomised policy does no better where no path meets an information set twice. -/
theorem utility_le (hnever : NeverTwice game bestResponder)
    (hbehaviour : IsBehaviour game bestResponder strategy) :
    utility game fixed bestResponder strategy ≤ result.value := by
  classical
  have hobjective : ∀ v, objective bestResponder v = (if bestResponder = 0 then 1 else -1) * v :=
    fun v => by
      unfold objective
      split <;> ring
  set problem := decision game.nodes fixed bestResponder s.infoSets with hproblem
  have hpoints : ∀ infoSet, infoSet ∈ ((responderInfoSets s.infoSets bestResponder).map
      Prod.fst).filter (fun infoSet => problem.Meets game.root infoSet) ↔
      problem.Meets game.root infoSet := by
    intro infoSet
    rw [List.mem_filter, decide_eq_true_eq]
    refine ⟨And.right, fun hmeets => ⟨?_, hmeets⟩⟩
    obtain ⟨names, hnames, -⟩ := h.mem_names hmeets
    exact List.mem_map.2 ⟨_, hnames, rfl⟩
  obtain ⟨policy, hmet, hunmet, hle⟩ := Problem.exists_pure h.grounded_moves (h.noRepeat hnever)
    (if bestResponder = 0 then 1 else -1) _ hpoints (h.valid hbehaviour) (choose result.purePolicy)
  have hpolicy : IsPolicy game bestResponder policy := by
    intro n infoSet actions hn hnode
    by_cases hmeets : problem.Meets game.root infoSet
    · simpa [hproblem, decision, (h.player hn hnode).2, mem_actionNames] using hmet infoSet hmeets
    · rw [hunmet infoSet hmeets]
      exact h.isPolicy n infoSet actions hn hnode
  calc utility game fixed bestResponder strategy
      ≤ utility game fixed bestResponder (Decisions.pure policy) := by
        rw [utility, utility, hobjective, hobjective]
        exact hle
    _ ≤ result.value := h.le_value hpolicy

end Accepted

end

end PokerDeliberation.Games.BestResponse
