import PokerDeliberation.Games.BestResponseOptimal

/-!
# The verifier accepts what the search returns

The verifier collects the information sets from the whole table of nodes, the
search from the nodes it reaches. The verifier accepts the output of the search
where the nodes out of reach are consistent with the others.
-/

namespace PokerDeliberation.Games.BestResponse

open Lib Lib.Lotteries Lib.Decisions

/-- The verifier finds nothing at the node that a node in reach would not show. -/
def Consistent (game : Game) (fixed : FixedStrategy) (responder : Int) : GameNode → Prop
  | .terminal _ => True
  | .chance actions =>
    closeUlps (actions.map fun item => item.2.probability).sum 1 BEST_RESPONSE_VERIFICATION_ULPS
  | .player player infoSet actions =>
    if player = responder then
      ∃ n actions', Reachable game n ∧
        game.nodes.lookup n = some (.player responder infoSet actions') ∧
        actionNames actions = actionNames actions'
    else
      ∃ probabilities, fixed.lookup infoSet = some probabilities ∧
        (probabilities.map Prod.fst).toFinset = (actionNames actions).toFinset ∧
        closeUlps (probabilities.map Prod.snd).sum 1 BEST_RESPONSE_VERIFICATION_ULPS

section

variable {levels : Nat} {game : Game} {fixed : FixedStrategy} {responder : Int} {s : Validation}
  {result : Response} {nodes : List GameNode}

theorem closeUlps_self (x : ℚ) : closeUlps x x BEST_RESPONSE_VERIFICATION_ULPS := by
  have hpos := ulp_pos (max (max |x| |x|) 1)
  simp only [closeUlps, ulpBound, sub_self, abs_zero, BEST_RESPONSE_VERIFICATION_ULPS]
  positivity

theorem expect_of {p : Prop} [Decidable p] (message : String) (h : p) :
    expect p message = .ok () := require_of h

theorem expectClose_of {x y : ℚ} (label : String)
    (h : closeUlps x y BEST_RESPONSE_VERIFICATION_ULPS) : expectClose label x y = .ok () :=
  require_of h

/-- A node in reach is consistent. -/
theorem Accepted.consistent (h : Accepted levels game fixed responder s result) {n : String}
    {node : GameNode} (hn : Reachable game n) (hnode : game.nodes.lookup n = some node) :
    Consistent game fixed responder node := by
  cases node with
  | terminal => trivial
  | chance actions =>
    obtain ⟨node, hnode', hadmissible⟩ := h.validated.node n ((h.visited n).2 hn)
    rw [hnode] at hnode'
    cases hnode'
    exact hadmissible.2.2
  | player player infoSet actions =>
    by_cases hplayer : player = responder
    · simp only [Consistent, if_pos hplayer]
      exact ⟨n, actions, hn, hplayer ▸ hnode, rfl⟩
    · simp only [Consistent, if_neg hplayer]
      obtain ⟨probabilities, hfixed, hkeys, hsum⟩ := h.opponent hn hnode hplayer
      exact ⟨probabilities, hfixed, hkeys, hsum.2.2⟩

/-- The loop over the table passes and collects the responder's information sets. -/
theorem foldlM_verifyNode (sets : List (String × List String))
    (hnodes : ∀ node ∈ nodes, Consistent game fixed responder node) :
    ∃ sets', nodes.foldlM (verifyNode responder fixed) sets = .ok sets' ∧
      ∀ entry, entry ∈ sets' ↔ entry ∈ sets ∨ ∃ actions,
        .player responder entry.1 actions ∈ nodes ∧ entry.2 = actionNames actions := by
  induction nodes generalizing sets with
  | nil => exact ⟨sets, rfl, by simp⟩
  | cons node nodes ih =>
    obtain ⟨hnode, hrest⟩ := List.forall_mem_cons.1 hnodes
    cases node with
    | terminal payoff =>
      obtain ⟨sets', hrun, hsets'⟩ := ih sets hrest
      refine ⟨sets', ?_, by simpa using hsets'⟩
      rw [List.foldlM_cons]
      exact hrun
    | chance actions =>
      obtain ⟨sets', hrun, hsets'⟩ := ih sets hrest
      refine ⟨sets', ?_, by simpa using hsets'⟩
      have hround : verifyNode responder fixed sets (.chance actions) = .ok sets := by
        simp only [verifyNode]
        rw [bind_ok_left (expectClose_of _ hnode)]
        rfl
      rw [List.foldlM_cons, bind_ok_left hround, hrun]
    | player player infoSet actions =>
      by_cases hplayer : player = responder
      · subst hplayer
        obtain ⟨sets', hrun, hsets'⟩ := ih ((infoSet, actionNames actions) :: sets) hrest
        refine ⟨sets', ?_, fun entry => ?_⟩
        · have hround : verifyNode player fixed sets (.player player infoSet actions) =
              .ok ((infoSet, actionNames actions) :: sets) := by
            simp [verifyNode]
          rw [List.foldlM_cons, bind_ok_left hround, hrun]
        · rw [hsets']
          obtain ⟨name, names⟩ := entry
          simp only [List.mem_cons, Prod.mk.injEq, GameNode.player.injEq, true_and]
          constructor
          · rintro ((⟨rfl, rfl⟩ | hmem) | ⟨actions', hmem, hnames⟩)
            · exact .inr ⟨actions, .inl ⟨rfl, rfl⟩, rfl⟩
            · exact .inl hmem
            · exact .inr ⟨actions', .inr hmem, hnames⟩
          · rintro (hmem | ⟨actions', ⟨rfl, rfl⟩ | hmem, hnames⟩)
            · exact .inl (.inr hmem)
            · exact .inl (.inl ⟨rfl, hnames⟩)
            · exact .inr ⟨actions', hmem, hnames⟩
      · simp only [Consistent, if_neg hplayer] at hnode
        obtain ⟨probabilities, hfixed, hkeys, hsum⟩ := hnode
        obtain ⟨sets', hrun, hsets'⟩ := ih sets hrest
        refine ⟨sets', ?_, fun entry => ?_⟩
        · have hround : verifyNode responder fixed sets (.player player infoSet actions) =
              .ok sets := by
            have hcoverage : ∃ probabilities ∈ fixed.lookup infoSet,
                (probabilities.map Prod.fst).toFinset = (actionNames actions).toFinset :=
              ⟨probabilities, hfixed, hkeys⟩
            simp only [verifyNode, if_neg hplayer]
            rw [bind_ok_left (expect_of _ hcoverage), bind_ok_left (item_ok.2 hfixed),
              bind_ok_left (expectClose_of _ hsum)]
            rfl
          rw [List.foldlM_cons, bind_ok_left hround, hrun]
        · have hother : ∀ actions', GameNode.player responder entry.1 actions' ≠
              .player player infoSet actions := fun _ heq =>
            hplayer (GameNode.player.inj heq).1.symm
          simp only [hsets', List.mem_cons, hother, false_or]

namespace Accepted

variable (h : Accepted levels game fixed responder s result)

include h

/-- The search has evaluated the policy it returns. -/
theorem evaluate_purePolicy : ∃ memo, evaluate game.nodes fixed responder result.purePolicy levels
    game.root [] = .ok (result.player0Value, memo) := by
  obtain ⟨-, ⟨-, -, -, hrun⟩, -⟩ := h.best
  exact hrun

theorem purePolicy_keys : result.purePolicy.map Prod.fst =
    (responderInfoSets s.infoSets responder).map Prod.fst := by
  obtain ⟨-, ⟨selected, hselected, hpolicy, -⟩, -⟩ := h.best
  replace hpolicy : result.purePolicy = _ := hpolicy
  rw [mem_product] at hselected
  rw [hpolicy, List.map_fst_zip (by simpa using hselected.length_eq.ge)]

theorem verified (hconsistent : ∀ node ∈ game.nodes.map Prod.snd,
    Consistent game fixed responder node) :
    verifyBestResponse levels game fixed responder result = .ok () := by
  obtain ⟨sets, hloop, hsets⟩ := foldlM_verifyNode [] hconsistent
  -- what the table records of the responder is what the search has recorded
  have hrecorded : ∀ infoSet names, (infoSet, names) ∈ sets ↔
      (infoSet, names) ∈ responderInfoSets s.infoSets responder := by
    intro infoSet names
    rw [hsets]
    constructor
    · rintro (hmem | ⟨actions, hmem, rfl⟩)
      · cases hmem
      · have hnode := hconsistent _ hmem
        simp only [Consistent, if_true] at hnode
        obtain ⟨n, actions', hn, hnode, hnames⟩ := hnode
        rw [mem_responderInfoSets, hnames]
        exact (h.player hn hnode).2
    · intro hmem
      obtain ⟨n, actions, -, hnode, rfl⟩ := h.source hmem
      exact .inr ⟨actions, List.mem_map.2 ⟨_, mem_of_lookup hnode, rfl⟩, rfl⟩
  have hkeys : (result.purePolicy.map Prod.fst).toFinset = (sets.map Prod.fst).toFinset := by
    ext infoSet
    rw [h.purePolicy_keys, List.mem_toFinset, List.mem_toFinset, List.mem_map, List.mem_map]
    constructor
    · rintro ⟨⟨infoSet, names⟩, hmem, rfl⟩
      exact ⟨_, (hrecorded infoSet names).2 hmem, rfl⟩
    · rintro ⟨⟨infoSet, names⟩, hmem, rfl⟩
      exact ⟨_, (hrecorded infoSet names).1 hmem, rfl⟩
  have hactions : forM result.purePolicy (fun entry : String × String => do
      let actions ← item sets entry.1
      expect (entry.2 ∈ actions) "reported pure-policy action") = .ok () := by
    rw [forM_eq_ok]
    rintro ⟨infoSet, action⟩ hmem
    have hname : infoSet ∈ sets.map Prod.fst := by
      rw [← List.mem_toFinset, ← hkeys, List.mem_toFinset]
      exact List.mem_map_of_mem hmem
    obtain ⟨names, hnames⟩ := Option.isSome_iff_exists.1 (lookup_isSome.2 hname)
    obtain ⟨n, actions, hn, hnode, rfl⟩ :=
      h.source ((hrecorded infoSet names).1 (mem_of_lookup hnames))
    have hchoose := h.isPolicy n infoSet actions hn hnode
    have hnodup : (result.purePolicy.map Prod.fst).Nodup := by
      rw [h.purePolicy_keys]
      exact nodup_responderInfoSets
    rw [choose, lookup_of_mem hnodup hmem, Option.getD_some] at hchoose
    show item sets infoSet >>= _ = _
    rw [bind_ok_left (item_ok.2 hnames)]
    exact require_of (mem_actionNames.2 hchoose)
  obtain ⟨memo, hrun⟩ := h.evaluate_purePolicy
  have hvalue : objective responder result.player0Value = result.value := h.best.1.symm
  unfold verifyBestResponse
  rw [bind_ok_left hloop, bind_ok_left (expect_of _ hkeys), bind_ok_left hactions,
    bind_ok_left hrun]
  simp only [hvalue, h.same, h.noClaim, expectClose_of _ (closeUlps_self _)]
  rfl

end Accepted

/-- The best response is the best pure policy, randomising gains nothing where
no information set is met twice, and the verifier accepts the output where the
nodes out of reach are consistent with the others. -/
theorem best_response_optimal {maxPurePolicies : Nat}
    (h : bestResponseToFixedStrategy levels game fixed responder maxPurePolicies = .ok result) :
    IsGreatest {u | ∃ policy, IsPolicy game responder policy ∧
      u = utility game fixed responder (Decisions.pure policy)} result.value ∧
    (NeverTwice game responder → ∀ strategy, IsBehaviour game responder strategy →
      utility game fixed responder strategy ≤ result.value) ∧
    ((game.nodes.map Prod.fst).Nodup →
      (∀ entry ∈ game.nodes, Reachable game entry.1 ∨ Consistent game fixed responder entry.2) →
      verifyBestResponse levels game fixed responder result = .ok ()) := by
  obtain ⟨s, haccepted⟩ := bestResponse_ok h
  refine ⟨haccepted.isGreatest, fun hnever strategy hbehaviour =>
    haccepted.utility_le hnever hbehaviour, fun hkeys hentries => ?_⟩
  refine haccepted.verified fun node hnode => ?_
  obtain ⟨⟨n, node⟩, hentry, rfl⟩ := List.mem_map.1 hnode
  rcases hentries _ hentry with hreachable | hconsistent
  · exact haccepted.consistent hreachable (lookup_of_mem hkeys hentry)
  · exact hconsistent

end

/-! ## Where the hypotheses fail -/

/-- Exiting at the second node is best, but no pure policy continues at the first and exits at the second. -/
def absentMinded : Game where
  root := "first"
  nodes := [
    ("first", .player 0 "X" [("continue", "second"), ("exit", "none")]),
    ("second", .player 0 "X" [("continue", "one"), ("exit", "four")]),
    ("none", .terminal 0),
    ("one", .terminal 1),
    ("four", .terminal 4)]

/-- Continue with probability 2/3. -/
def forgetful : Strategy String String ℚ := fun _ => [(2 / 3, "continue"), (1 / 3, "exit")]

/-- The responder's one node is out of reach. -/
def unused : Game where
  root := "root"
  nodes := [("root", .terminal 0), ("unused", .player 0 "X" [("stay", "root")])]

theorem isBehaviour_forgetful : IsBehaviour absentMinded 0 forgetful := by
  intro n infoSet actions _ hnode
  have hactions : actions.map Prod.fst = ["continue", "exit"] := by
    have hmem := mem_of_lookup hnode
    simp only [absentMinded, List.mem_cons, Prod.mk.injEq, GameNode.player.injEq, reduceCtorEq,
      and_false, List.not_mem_nil, or_false] at hmem
    rcases hmem with ⟨-, -, -, rfl⟩ | ⟨-, -, -, rfl⟩ <;> rfl
  rw [hactions]
  refine ⟨by norm_num [forgetful], ?_⟩
  simp [forgetful]
  norm_num

theorem utility_forgetful : utility absentMinded [] 0 forgetful = 4 / 3 := by
  have hnone : Value (playGraph absentMinded.nodes [] 0 forgetful) "none" 0 := .leaf rfl
  have hone : Value (playGraph absentMinded.nodes [] 0 forgetful) "one" 1 := .leaf rfl
  have hfour : Value (playGraph absentMinded.nodes [] 0 forgetful) "four" 4 := .leaf rfl
  have hsecond : Value (playGraph absentMinded.nodes [] 0 forgetful) "second" 2 := by
    have hlottery := Value.lottery (fun n => if n = "one" then 1 else 4)
      (show playGraph absentMinded.nodes [] 0 forgetful "second" =
        some (.lottery [(2 / 3, "one"), (1 / 3, "four")]) from rfl) (by simpa using ⟨hone, hfour⟩)
    convert hlottery using 1
    decide +kernel
  have hfirst : Value (playGraph absentMinded.nodes [] 0 forgetful) "first" (4 / 3) := by
    have hlottery := Value.lottery (fun n => if n = "second" then 2 else 0)
      (show playGraph absentMinded.nodes [] 0 forgetful "first" =
        some (.lottery [(2 / 3, "second"), (1 / 3, "none")]) from rfl)
      (by simpa using ⟨hsecond, hnone⟩)
    convert hlottery using 1
    decide +kernel
  have hworth := hfirst.worth_eq
  show objective 0 (worth (playGraph absentMinded.nodes [] 0 forgetful) "first") = 4 / 3
  rw [hworth]
  rfl

/-- Randomising beats every pure policy where a path meets an information set
twice, and a node that is never reached makes the verifier refuse. -/
theorem best_response_refuted :
    (∃ result strategy, bestResponseToFixedStrategy 300 absentMinded [] 0 10 = .ok result ∧
      IsBehaviour absentMinded 0 strategy ∧ result.value < utility absentMinded [] 0 strategy) ∧
    ∃ result, bestResponseToFixedStrategy 300 unused [] 0 10 = .ok result ∧
      verifyBestResponse 300 unused [] 0 result ≠ .ok () := by
  refine ⟨⟨⟨0, 1, 1, 1, [("X", "continue")], 2, 10, false⟩, forgetful, by decide +kernel,
    isBehaviour_forgetful, ?_⟩, ⟨0, 0, 0, 0, [], 1, 1, false⟩, by decide +kernel, by decide +kernel⟩
  rw [utility_forgetful]
  norm_num

/-- No move leads out of a set of nodes that is closed under moves. -/
theorem mem_of_reaches {game : Game} {nodes : List String} {n m : String}
    (hclosed : ∀ entry ∈ game.nodes, entry.1 ∈ nodes → ∀ c ∈ entry.2.children, c ∈ nodes)
    (hn : n ∈ nodes) (h : Reaches (moveGraph game.nodes) n m) : m ∈ nodes := by
  induction h with
  | refl => exact hn
  | @tail m c _ hchild ih =>
    cases hnode : game.nodes.lookup m with
    | none => simp [Child, moveGraph, hnode] at hchild
    | some node =>
      exact hclosed _ (mem_of_lookup hnode) ih c ((child_moveGraph hnode).1 hchild)

/-- The responder moves, then the opponent. -/
def inTurn : Game where
  root := "root"
  nodes := [
    ("root", .player 0 "X" [("call", "called"), ("fold", "low")]),
    ("called", .player 1 "Y" [("call", "high"), ("fold", "middle")]),
    ("low", .terminal (-1)),
    ("middle", .terminal 0),
    ("high", .terminal 2)]

/-- The opponent calls one time in four. -/
def oneInFour : FixedStrategy := [("Y", [("call", 1 / 4), ("fold", 3 / 4)])]

theorem best_response_optimal_in_turn :
    IsGreatest {u | ∃ policy, IsPolicy inTurn 0 policy ∧
      u = utility inTurn oneInFour 0 (Decisions.pure policy)} (1 / 2) ∧
    (∀ strategy, IsBehaviour inTurn 0 strategy → utility inTurn oneInFour 0 strategy ≤ 1 / 2) ∧
    verifyBestResponse 300 inTurn oneInFour 0 ⟨0, 1 / 2, 1 / 2, 1 / 2, [("X", "call")], 2, 10, false⟩ =
      .ok () := by
  have h : bestResponseToFixedStrategy 300 inTurn oneInFour 0 10 =
      .ok ⟨0, 1 / 2, 1 / 2, 1 / 2, [("X", "call")], 2, 10, false⟩ := by decide +kernel
  obtain ⟨hgreatest, hbehaviour, hverified⟩ := best_response_optimal h
  refine ⟨hgreatest, hbehaviour ?_, hverified (by decide +kernel) fun entry hentry => ?_⟩
  · intro n infoSet actions _ hnode c hc m actions' hm hnode'
    have hplayer : ∀ entry ∈ inTurn.nodes, ∀ infoSet actions,
        entry.2 = .player 0 infoSet actions → entry.1 = "root" ∧
          ∀ c ∈ actions.map Prod.snd, c ∈ ["called", "low", "middle", "high"] := by
      simp only [inTurn, List.forall_mem_cons, GameNode.player.injEq, reduceCtorEq,
        List.not_mem_nil]
      refine ⟨?_, by simp, by simp, by simp, by simp, by simp⟩
      rintro infoSet actions ⟨-, -, rfl⟩
      exact ⟨trivial, by decide⟩
    obtain ⟨-, hchildren⟩ := hplayer _ (mem_of_lookup hnode) _ _ rfl
    obtain ⟨rfl, -⟩ := hplayer _ (mem_of_lookup hnode') _ _ rfl
    have hbelow := mem_of_reaches (by decide +kernel) (hchildren c hc) hm
    simp at hbelow
  · simp only [inTurn, List.mem_cons, List.not_mem_nil, or_false] at hentry
    rcases hentry with rfl | rfl | rfl | rfl | rfl
    · exact .inl .refl
    · exact .inr ⟨_, rfl, by decide +kernel, by decide +kernel⟩
    all_goals exact .inr trivial

end PokerDeliberation.Games.BestResponse
