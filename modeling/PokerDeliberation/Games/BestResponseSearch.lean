import PokerDeliberation.Games.BestResponseValidation
import PokerDeliberation.Lib.Decisions

/-!
# What the search returns

With the opponent's strategy fixed the game is a decision problem of the
responder. `evaluate` computes what the root is worth under a pure policy, and
the search keeps the best of the policies it tries.
-/

namespace PokerDeliberation.Games.BestResponse

open Lib Lib.Lotteries Lib.Decisions

section

variable (nodes : List (String × GameNode)) (fixedStrategy : FixedStrategy) (bestResponder : Int)

/-- A node of the responder's decision problem. -/
def turnOf (n : String) : Option (Turn String String String ℚ) :=
  match nodes.lookup n with
  | some (.terminal payoff) => some (.leaf payoff)
  | some (.chance actions) =>
    some (.lottery (actions.map fun item => (item.2.probability, item.2.child)))
  | some (.player player infoSet actions) =>
    if player = bestResponder then
      some (.choice infoSet fun action => (actions.lookup action).getD "")
    else
      (fixedStrategy.lookup infoSet).map fun probabilities =>
        .lottery (probabilities.map fun item => (item.2, (actions.lookup item.1).getD ""))
  | none => none

/-- The decision problem, with the actions recorded for each information set. -/
def decision (infoSets : List (String × Definition)) : Problem String String String ℚ where
  turn := turnOf nodes fixedStrategy bestResponder
  allowed infoSet := ((infoSets.lookup infoSet).map Prod.snd).getD []

/-- The lotteries that are left when the responder plays the strategy. -/
def playGraph (strategy : Strategy String String ℚ) : Stages String ℚ :=
  (decision nodes fixedStrategy bestResponder []).play strategy

end

/-- The responder's expected utility. -/
noncomputable def utility (game : Game) (fixedStrategy : FixedStrategy) (bestResponder : Int)
    (strategy : Strategy String String ℚ) : ℚ :=
  objective bestResponder (worth (playGraph game.nodes fixedStrategy bestResponder strategy) game.root)

/-- The policy function of a policy dict. -/
def choose (policy : List (String × String)) (infoSet : String) : String :=
  (policy.lookup infoSet).getD ""

section

variable {nodes : List (String × GameNode)} {fixedStrategy : FixedStrategy} {bestResponder : Int}
  {policy : List (String × String)} {levels : Nat} {n m c : String} {v : ℚ} {memo memo' : Memo}

/-! ## One policy -/

theorem item_ok {α : Type} {entries : List (String × α)} {key : String} {a : α} :
    item entries key = .ok a ↔ entries.lookup key = some a := by
  unfold item
  cases entries.lookup key <;> simp

/-- What is memoised is what the nodes are worth. -/
def Sound (graph : Stages String ℚ) (memo : Memo) : Prop :=
  ∀ m w, memo.lookup m = some w → Value graph m w

theorem Sound.cons {graph : Stages String ℚ} (h : Sound graph memo) (hv : Value graph n v) :
    Sound graph ((n, v) :: memo) := fun m w hw => by
  by_cases hm : m = n
  · subst hm
    rw [lookup_cons_self, Option.some.injEq] at hw
    exact hw ▸ hv
  · rw [lookup_cons_ne hm] at hw
    exact h m w hw

theorem addTerm_ok {evaluate : String → Memo → Except String (ℚ × Memo)} {loop loop' : ℚ × Memo}
    {p : ℚ} : addTerm evaluate loop p c = .ok loop' ↔
      ∃ v, evaluate c loop.2 = .ok (v, loop'.2) ∧ loop'.1 = loop.1 + p * v := by
  unfold addTerm
  rw [bind_eq_ok]
  constructor
  · rintro ⟨⟨v, memo⟩, hv, h⟩
    cases h
    exact ⟨v, hv, rfl⟩
  · rintro ⟨v, hv, hacc⟩
    exact ⟨(v, loop'.2), hv, by rw [pure_eq_ok, ← hacc]⟩

/-- A weighted sum of `evaluate`. -/
theorem foldlM_addTerm_ok {α : Type} {graph : Stages String ℚ} {step : ℚ × Memo → α → Except String (ℚ × Memo)}
    (weight : α → ℚ) (child : α → String) {items : List α} {loop loop' : ℚ × Memo}
    (hstep : ∀ x loop loop', step loop x = .ok loop' → Sound graph loop.2 →
      Sound graph loop'.2 ∧ ∃ v, Value graph (child x) v ∧ loop'.1 = loop.1 + weight x * v)
    (h : items.foldlM step loop = .ok loop') (hmemo : Sound graph loop.2) :
    Sound graph loop'.2 ∧ (∀ x ∈ items, Grounded graph (child x)) ∧
      loop'.1 = loop.1 + (items.map fun x => weight x * worth graph (child x)).sum := by
  induction items generalizing loop with
  | nil =>
    cases h
    exact ⟨hmemo, by simp, by simp⟩
  | cons x items ih =>
    rw [List.foldlM_cons, bind_eq_ok] at h
    obtain ⟨loop₁, hx, h⟩ := h
    obtain ⟨hmemo₁, v, hv, hacc⟩ := hstep x loop loop₁ hx hmemo
    obtain ⟨hmemo', hgrounded, hacc'⟩ := ih h hmemo₁
    refine ⟨hmemo', fun y hy => ?_, ?_⟩
    · rcases List.mem_cons.1 hy with rfl | hy
      · exact hv.grounded
      · exact hgrounded y hy
    · rw [List.map_cons, List.sum_cons, hv.worth_eq, hacc', hacc]
      ring

theorem evaluate_ok (h : evaluate nodes fixedStrategy bestResponder policy levels n memo =
      .ok (v, memo'))
    (hmemo : Sound (playGraph nodes fixedStrategy bestResponder (pure (choose policy))) memo) :
    Value (playGraph nodes fixedStrategy bestResponder (pure (choose policy))) n v ∧
      Sound (playGraph nodes fixedStrategy bestResponder (pure (choose policy))) memo' := by
  induction levels generalizing n memo v memo' with
  | zero => simp [evaluate] at h
  | succ levels ih =>
    unfold evaluate at h
    cases hlookup : memo.lookup n with
    | some value =>
      simp only [hlookup, pure_eq_ok, Prod.mk.injEq] at h
      obtain ⟨rfl, rfl⟩ := h
      exact ⟨hmemo n value hlookup, hmemo⟩
    | none =>
      simp only [hlookup] at h
      rw [bind_eq_ok] at h
      obtain ⟨node, hnode, h⟩ := h
      rw [item_ok] at hnode
      suffices hvalue : ∃ t, Value (playGraph nodes fixedStrategy bestResponder
          (pure (choose policy))) n v ∧ Sound (playGraph nodes fixedStrategy bestResponder
          (pure (choose policy))) t ∧ memo' = (n, v) :: t by
        obtain ⟨t, hv, ht, rfl⟩ := hvalue
        exact ⟨hv, ht.cons hv⟩
      cases node with
      | terminal payoff =>
        cases h
        exact ⟨memo, .leaf (by simp [playGraph, Problem.play, decision, turnOf, hnode]), hmemo, rfl⟩
      | chance actions =>
        simp only [bind_eq_ok] at h
        obtain ⟨⟨value, t⟩, hloop, h⟩ := h
        cases h
        obtain ⟨ht, hgrounded, hvalue⟩ := foldlM_addTerm_ok
          (fun x => x.2.probability) (fun x => x.2.child)
          (fun x loop loop' hx hmemo => by
            obtain ⟨w, hw, hacc⟩ := addTerm_ok.1 hx
            exact ⟨(ih hw hmemo).2, w, (ih hw hmemo).1, hacc⟩) hloop hmemo
        have hstage : playGraph nodes fixedStrategy bestResponder (pure (choose policy)) n =
            some (.lottery (actions.map fun item => (item.2.probability, item.2.child))) := by
          simp [playGraph, Problem.play, decision, turnOf, hnode]
        rw [hvalue, zero_add]
        exact ⟨t, value_lottery hstage hgrounded, ht, rfl⟩
      | player player infoSet actions =>
        by_cases hplayer : player = bestResponder
        · simp only [if_pos hplayer, bind_eq_ok] at h
          obtain ⟨action, haction, child, hchild, ⟨value, t⟩, hrun, h⟩ := h
          cases h
          rw [item_ok] at haction hchild
          obtain ⟨hv, ht⟩ := ih hrun hmemo
          have hstage : playGraph nodes fixedStrategy bestResponder (pure (choose policy)) n =
              some (.lottery ([child].map fun c => (1, c))) := by
            simp [playGraph, Problem.play, decision, turnOf, hnode, hplayer, Decisions.pure, choose,
              haction, hchild]
          have hlottery := value_lottery hstage (by simpa using hv.grounded)
          simp only [List.map_cons, List.map_nil, List.sum_cons, List.sum_nil, one_mul, add_zero,
            hv.worth_eq] at hlottery
          exact ⟨t, hlottery, ht, rfl⟩
        · simp only [if_neg hplayer, bind_eq_ok] at h
          obtain ⟨probabilities, hfixed, ⟨value, t⟩, hloop, h⟩ := h
          cases h
          rw [item_ok] at hfixed
          obtain ⟨ht, hgrounded, hvalue⟩ := foldlM_addTerm_ok Prod.snd
            (fun entry => (actions.lookup entry.1).getD "")
            (fun x loop loop' hx hmemo => by
              obtain ⟨child, hchild, hterm⟩ := bind_eq_ok.1 hx
              rw [item_ok] at hchild
              obtain ⟨w, hw, hacc⟩ := addTerm_ok.1 hterm
              exact ⟨(ih hw hmemo).2, w, by simpa [hchild] using (ih hw hmemo).1, hacc⟩)
            hloop hmemo
          have hstage : playGraph nodes fixedStrategy bestResponder (pure (choose policy)) n =
              some (.lottery (probabilities.map fun item =>
                (item.2, (actions.lookup item.1).getD ""))) := by
            simp [playGraph, Problem.play, decision, turnOf, hnode, hplayer, hfixed]
          rw [hvalue, zero_add]
          exact ⟨t, value_lottery hstage hgrounded, ht, rfl⟩

/-! ## All policies -/

theorem mem_product {α : Type} {xss : List (List α)} {xs : List α} :
    xs ∈ product xss ↔ List.Forall₂ (fun x options => x ∈ options) xs xss := by
  induction xss generalizing xs with
  | nil => simp [product]
  | cons options xss ih =>
    simp only [product, List.mem_flatMap, List.mem_map, ih]
    constructor
    · rintro ⟨x, hx, rest, hrest, rfl⟩
      exact .cons hx hrest
    · rintro (_ | ⟨hx, hrest⟩)
      exact ⟨_, hx, _, hrest, rfl⟩

variable {game : Game} {names : List String}

/-- What the root is worth under a selection of actions. -/
def Scores (game : Game) (fixedStrategy : FixedStrategy) (bestResponder : Int) (names : List String)
    (selected : List String) (v : ℚ) : Prop :=
  Value (playGraph game.nodes fixedStrategy bestResponder (pure (choose (names.zip selected))))
    game.root v

/-- The best of the policies tried so far. -/
def IsBest (levels : Nat) (game : Game) (fixedStrategy : FixedStrategy) (bestResponder : Int)
    (names : List String) (tried : List (List String)) : Option Best → Prop
  | none => tried = []
  | some best => best.objectiveValue = objective bestResponder best.player0Value ∧
      (∃ selected ∈ tried, best.policy = names.zip selected ∧ ∃ memo,
        evaluate game.nodes fixedStrategy bestResponder best.policy levels game.root [] =
          .ok (best.player0Value, memo)) ∧
      ∀ selected ∈ tried, ∃ v, Scores game fixedStrategy bestResponder names selected v ∧
        objective bestResponder v ≤ best.objectiveValue

theorem tryPolicy_ok {best best' : Option Best} {selected : List String} {tried : List (List String)}
    (h : tryPolicy levels game fixedStrategy bestResponder names best selected = .ok best')
    (hbest : IsBest levels game fixedStrategy bestResponder names tried best) :
    IsBest levels game fixedStrategy bestResponder names (tried ++ [selected]) best' := by
  unfold tryPolicy at h
  rw [bind_eq_ok] at h
  obtain ⟨⟨v, memo⟩, hv, h⟩ := h
  have hscores : Scores game fixedStrategy bestResponder names selected v :=
    (evaluate_ok hv (by simp [Sound])).1
  cases best with
  | none =>
    cases h
    have htried : tried = [] := hbest
    subst htried
    exact ⟨rfl, ⟨selected, by simp, rfl, memo, hv⟩, by simpa using ⟨v, hscores, le_rfl⟩⟩
  | some b =>
    obtain ⟨hobjective, ⟨kept, hkept, hpolicy⟩, hall⟩ := hbest
    simp only [pure_eq_ok] at h
    split at h
    · rename_i hbetter
      subst h
      refine ⟨rfl, ⟨selected, by simp, rfl, memo, hv⟩, fun other hother => ?_⟩
      rcases List.mem_append.1 hother with hother | hother
      · obtain ⟨w, hw, hle⟩ := hall other hother
        exact ⟨w, hw, hle.trans hbetter.le⟩
      · obtain rfl := List.mem_singleton.1 hother
        exact ⟨v, hscores, le_rfl⟩
    · rename_i hworse
      subst h
      refine ⟨hobjective, ⟨kept, List.mem_append_left _ hkept, hpolicy⟩, fun other hother => ?_⟩
      rcases List.mem_append.1 hother with hother | hother
      · exact hall other hother
      · obtain rfl := List.mem_singleton.1 hother
        exact ⟨v, hscores, not_lt.1 hworse⟩

/-! ## The information sets -/

variable {infoSets : List (String × Definition)} {infoSet : String} {actions : List String}

theorem mem_infoSetItems {d : Definition} :
    (infoSet, d) ∈ infoSetItems infoSets ↔ infoSets.lookup infoSet = some d := by
  simp only [infoSetItems, List.mem_filterMap, List.mem_dedup, Option.map_eq_some_iff,
    Prod.mk.injEq]
  constructor
  · rintro ⟨name, -, d', hd, rfl, rfl⟩
    exact hd
  · intro hd
    exact ⟨infoSet, lookup_isSome.1 (by simp [hd]), d, hd, rfl, rfl⟩

theorem mem_responderInfoSets : (infoSet, actions) ∈ responderInfoSets infoSets bestResponder ↔
    infoSets.lookup infoSet = some (bestResponder, actions) := by
  simp only [responderInfoSets, List.mem_insertionSort, List.mem_map, List.mem_filter,
    decide_eq_true_eq, Prod.mk.injEq]
  constructor
  · rintro ⟨⟨name, player, names⟩, ⟨hmem, rfl⟩, rfl, rfl⟩
    exact mem_infoSetItems.1 hmem
  · intro h
    exact ⟨(infoSet, bestResponder, actions), ⟨mem_infoSetItems.2 h, rfl⟩, rfl, rfl⟩

theorem nodup_responderInfoSets :
    ((responderInfoSets infoSets bestResponder).map Prod.fst).Nodup := by
  have hitems : ((infoSetItems infoSets).map Prod.fst).Nodup := by
    refine List.Nodup.sublist ?_ (List.nodup_dedup (infoSets.map Prod.fst))
    unfold infoSetItems
    generalize (infoSets.map Prod.fst).dedup = keys
    induction keys with
    | nil => exact .slnil
    | cons key keys ih =>
      cases hkey : infoSets.lookup key with
      | none => simpa [List.filterMap_cons, hkey] using ih.cons key
      | some d => simpa [List.filterMap_cons, hkey] using ih.cons_cons key
  have hperm := (List.perm_insertionSort (fun a b => a.1 ≤ b.1) (((infoSetItems infoSets).filter
    fun item => item.2.1 = bestResponder).map fun item => (item.1, item.2.2))).map Prod.fst
  refine hperm.nodup_iff.2 ?_
  rw [List.map_map]
  exact hitems.sublist (List.filter_sublist.map _)

/-! ## What is accepted -/

def Reachable (game : Game) (n : String) : Prop := Reaches (moveGraph game.nodes) game.root n

/-- What is known of the input and of the output once the search returns. -/
structure Accepted (levels : Nat) (game : Game) (fixedStrategy : FixedStrategy)
    (bestResponder : Int) (s : Validation) (result : Response) : Prop where
  responder : bestResponder = 0 ∨ bestResponder = 1
  validated : Validated game.nodes s
  visiting : s.visiting = ∅
  visited : ∀ m, m ∈ s.visited ↔ Reachable game m
  fixed : ∀ infoSet names, s.infoSets.lookup infoSet = some (1 - bestResponder, names) →
    checkFixed fixedStrategy infoSet names = .ok ()
  best : IsBest levels game fixedStrategy bestResponder
    ((responderInfoSets s.infoSets bestResponder).map Prod.fst)
    (product ((responderInfoSets s.infoSets bestResponder).map Prod.snd))
    (some ⟨result.value, result.player0Value, result.purePolicy⟩)
  same : result.bestResponderValue = result.value
  noClaim : result.equilibriumClaim = false

theorem bestResponse_ok {fixed : FixedStrategy} {maxPurePolicies : Nat} {result : Response}
    (h : bestResponseToFixedStrategy levels game fixed bestResponder maxPurePolicies = .ok result) :
    ∃ s, Accepted levels game fixed bestResponder s result := by
  unfold bestResponseToFixedStrategy at h
  simp only [require_bind_eq_ok] at h
  obtain ⟨hresponder, -, -, -, h⟩ := h
  rw [bind_eq_ok] at h
  obtain ⟨s, hs, h⟩ := h
  simp only [require_bind_eq_ok] at h
  obtain ⟨-, -, h⟩ := h
  rw [check_bind_eq_ok, bind_eq_ok] at h
  obtain ⟨hfixed, best, hbest, h⟩ := h
  have hstart : Validated game.nodes ⟨[], ∅, ∅⟩ := ⟨by simp, by simp, by simp, by simp⟩
  have hvalidates := validateNode_ok hs hstart
  have hsearched := runs_induction (I := IsBest levels game fixed bestResponder
    ((responderInfoSets s.infoSets bestResponder).map Prod.fst)) (s := none) rfl
    (fun done selected b b' hb htry => tryPolicy_ok htry hb) hbest
  cases best with
  | none => simp [bind_eq_ok] at h
  | some best =>
    have haccepted : ∀ r : Response, r.value = best.objectiveValue →
        r.player0Value = best.player0Value → r.purePolicy = best.policy →
        r.bestResponderValue = r.value → r.equilibriumClaim = false →
        ∃ s, Accepted levels game fixed bestResponder s r := by
      intro r hvalue hplayer0 hpolicy hsame hclaim
      refine ⟨s, hresponder, hvalidates.validated, hvalidates.visiting, fun m => ?_,
        fun infoSet names hd => ?_, ?_, hsame, hclaim⟩
      · simp [hvalidates.visited, Reachable]
      · have hcheck := (forM_eq_ok _).1 hfixed _ (mem_infoSetItems.2 hd)
        rwa [if_pos rfl] at hcheck
      · rw [hvalue, hplayer0, hpolicy]
        exact hsearched
    simp only [bind_eq_ok] at h
    obtain ⟨_, ⟨⟩, h⟩ := h
    split at h
    · -- without an information set of the responder the one policy is evaluated again
      rename_i hempty
      obtain ⟨⟨v, memo⟩, hv, h⟩ := bind_eq_ok.1 h
      obtain ⟨_, ⟨⟩, h⟩ := bind_eq_ok.1 h
      cases h
      obtain ⟨hobjective, ⟨selected, -, hpolicy, _, hrun⟩, -⟩ := hsearched
      rw [List.isEmpty_iff] at hempty
      rw [hempty, List.map_nil, List.zip_nil_left] at hpolicy
      rw [hpolicy, hv] at hrun
      obtain ⟨rfl, -⟩ := Prod.mk.inj (Except.ok.inj hrun)
      exact haccepted _ hobjective.symm rfl rfl rfl rfl
    · obtain ⟨_, ⟨⟩, h⟩ := bind_eq_ok.1 h
      cases h
      exact haccepted _ rfl rfl rfl rfl rfl

end

end PokerDeliberation.Games.BestResponse
