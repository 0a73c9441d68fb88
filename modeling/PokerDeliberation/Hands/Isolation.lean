import PokerDeliberation.Hands.Validator

/-!
# Blind decision contexts

`buildBlindDecisionContext` is the payload that a baseline analyst sees of a
case: the facts of the hand before the focal action. Whether the registry
completes a call to the validator, and whether a serialized payload mentions a
card, are parameters.
-/

namespace PokerDeliberation.Hands

open Lib

def FORBIDDEN_KEYS : List String :=
  ["claim", "claims", "conclusion", "hypothesis", "preferred_action", "realized_result", "result",
    "showdown", "user_claim", "verdict", "winner", "winner_player_id"]

/-- `VOLUNTARY_ACTIONS`. -/
def ActionKind.voluntary : ActionKind → Bool
  | .postBlind | .postAnte => false
  | _ => true

structure FocalDecision where
  street : Street
  actionIndex : Nat
  actor : String
  deriving DecidableEq, Repr

structure RealizedResult where
  shownCards : List (String × List String)
  deriving DecidableEq, Repr

/-- The fields of a case that the payload is built from. -/
structure CaseInput where
  hand : Option CanonicalHand
  focalDecision : Option FocalDecision
  realizedResult : Option RealizedResult := none
  focal_in_hand : ∀ focal ∈ focalDecision, ∃ h ∈ hand, ∃ action ∈ h.actions[focal.actionIndex]?,
    action.street = focal.street ∧ action.actor = focal.actor

structure GameSettings where
  gameType : GameType
  format : Ranges.HandFormat
  tableSize : Nat
  smallBlind : Chips
  bigBlind : Chips
  ante : Chips
  rake : Option Chips
  deriving DecidableEq

structure BlindDecisionContext where
  game : GameSettings
  players : List PlayerStack
  heroPlayerId : Option String
  heroCards : List String
  focal : DecisionSnapshot
  deriving DecidableEq

/-- `_walk_keys` of a dumped payload. -/
def BlindDecisionContext.walkKeys (context : BlindDecisionContext) : List String :=
  ["game", "game_type", "format", "table_size", "small_blind", "big_blind", "ante", "rake",
    "players"] ++
    context.players.flatMap (fun _ => ["player_id", "position", "starting_stack"]) ++
    ["hero_player_id", "hero_cards", "focal", "street", "action_index", "actor", "board",
      "pot_before", "to_call", "actual_call", "contestable_pot", "current_bet", "actor_invested",
      "stack_behind", "history_before", "facing_action", "side_pot_risk"]

def CanonicalHand.settings (hand : CanonicalHand) : GameSettings where
  gameType := hand.gameType
  format := hand.format
  tableSize := hand.tableSize
  smallBlind := hand.smallBlind
  bigBlind := hand.bigBlind
  ante := hand.ante
  rake := hand.rake

/-- The explicit locator, or the last voluntary action of the hero. -/
def resolveFocalDecision (case : CaseInput) : Option FocalDecision :=
  match case.focalDecision, case.hand with
  | some focal, _ => some focal
  | none, none => none
  | none, some hand =>
    match hand.heroPlayerId with
    | none => none
    | some hero =>
      (hand.actions.zipIdx.reverse.find? fun (action, _) =>
        action.actor = hero && action.action.voluntary).map fun (action, index) =>
          { street := action.street, actionIndex := index, actor := action.actor }

section

variable (completes : CanonicalHand → Bool) (mentions : BlindDecisionContext → String → Bool)

def verifyBlindPayload (case : CaseInput) (payload : BlindDecisionContext) :
    Except String Unit := do
  require (∀ key ∈ payload.walkKeys, key ∉ FORBIDDEN_KEYS) "forbidden blind-context keys"
  match case.realizedResult with
  | none => pure ()
  | some result =>
    require (∀ shown ∈ result.shownCards, ∀ card ∈ shown.2,
        card ∉ payload.heroCards ∧ card ∉ payload.focal.board → mentions payload card = false)
      "a post-decision shown card leaked into blind context"

/-- The payload with a given snapshot. -/
def CanonicalHand.contextWith (hand : CanonicalHand) (snapshot : DecisionSnapshot) :
    BlindDecisionContext where
  game := hand.settings
  players := hand.players
  heroPlayerId := hand.heroPlayerId
  heroCards := hand.heroCards
  focal := snapshot

def buildBlindDecisionContext (case : CaseInput) :
    Except String (Option BlindDecisionContext) :=
  match case.hand, resolveFocalDecision case with
  | some hand, some focal => do
    require (completes hand) "hard-isolated hand validation did not complete"
    let replay ← validateHand hand none
    if replay.valid then
      match replay.decisionSnapshots[focal.actionIndex]? with
      | none => throw "focal decision snapshot is unavailable"
      | some snapshot =>
        require (snapshot.street = focal.street ∧ snapshot.actor = focal.actor)
          "focal decision does not match its reconstructed snapshot"
        let context := hand.contextWith snapshot
        verifyBlindPayload mentions case context
        return some context
    else return none
  | _, _ => .ok none

theorem buildBlindDecisionContext_ok {case : CaseInput} {hand : CanonicalHand}
    {focal : FocalDecision} {context : BlindDecisionContext} (hhand : case.hand = some hand)
    (hfocal : case.focalDecision = some focal)
    (h : buildBlindDecisionContext completes mentions case = .ok (some context)) :
    let replay := replayHand hand (derivedChipTolerance hand) hand.actions
    replay.errors = [] ∧ ∃ snapshot, replay.decisionSnapshots[focal.actionIndex]? = some snapshot ∧
      context = hand.contextWith snapshot := by
  have hresolve : resolveFocalDecision case = some focal := by simp [resolveFocalDecision, hfocal]
  simp only [buildBlindDecisionContext, hhand, hresolve, bind_eq_ok] at h
  obtain ⟨-, -, replay, hreplay, h⟩ := h
  obtain ⟨-, rfl⟩ := (validateHand_ok hand).1 hreplay
  split at h
  · rename_i hvalid
    refine ⟨List.isEmpty_iff.1 hvalid, ?_⟩
    split at h
    · simp at h
    · rename_i snapshot hsnapshot
      simp only [bind_eq_ok, pure_eq_ok, Option.some.injEq] at h
      obtain ⟨-, -, -, -, hcontext⟩ := h
      exact ⟨snapshot, hsnapshot, hcontext.symm⟩
  · simp at h

end

/-! ## The snapshot of the focal action -/

section

variable {hand hand' : CanonicalHand} {tolerance : ℚ}

/-- The table that the focal decision is made at. -/
def CanonicalHand.tableBefore (hand : CanonicalHand) (tolerance : ℚ) (focal : FocalDecision) :
    Table :=
  (replayHand hand tolerance (hand.actions.take focal.actionIndex)).table.enter hand.bigBlind
    focal.street

theorem Replay.step_errors {r : Replay} {index : Nat} {action : HandAction}
    (h : (r.step hand tolerance index action).errors = []) :
    r.errors = [] ∧ (r.step hand tolerance index action).decisionSnapshots =
      r.decisionSnapshots ++
        [(r.table.enter hand.bigBlind action.street).snapshot hand tolerance index action] := by
  unfold Replay.step at h ⊢
  split at h
  · rename_i hactor
    rw [if_pos hactor]
    exact ⟨(List.append_eq_nil_iff.1 h).1, rfl⟩
  · simp at h

/-- A replay without errors has a snapshot of every action, taken before it. -/
theorem snapshots_of_no_errors {done : List HandAction}
    (h : (replayHand hand tolerance done).errors = []) :
    (replayHand hand tolerance done).decisionSnapshots.length = done.length ∧
      ∀ i action, done[i]? = some action →
        (replayHand hand tolerance done).decisionSnapshots[i]? =
          some (((replayHand hand tolerance (done.take i)).table.enter hand.bigBlind
            action.street).snapshot hand tolerance i action) := by
  induction done using List.reverseRecOn with
  | nil => exact ⟨rfl, by simp⟩
  | append_singleton done last ih =>
    rw [replayHand_concat] at h ⊢
    obtain ⟨hdone, hstep⟩ := Replay.step_errors h
    obtain ⟨hlength, hsnapshot⟩ := ih hdone
    rw [hstep]
    refine ⟨by simp [hlength], fun i action hi => ?_⟩
    obtain hlt | hge := Nat.lt_or_ge i done.length
    · rw [List.getElem?_append_left hlt] at hi
      rw [List.getElem?_append_left (hlength ▸ hlt), hsnapshot i action hi,
        List.take_append_of_le_length hlt.le]
    · obtain ⟨hi', -⟩ := List.getElem?_eq_some_iff.1 hi
      obtain rfl : i = done.length := by simp at hi'; omega
      obtain rfl : last = action := by simpa using hi
      rw [← hlength, List.getElem?_concat_length, hlength, List.take_left]

/-- The tables of a replay see the players and the big blind of the hand. -/
theorem replay_table_congr (hplayers : hand.players = hand'.players)
    (hblind : hand.bigBlind = hand'.bigBlind) (done : List HandAction) :
    (replayHand hand tolerance done).table = (replayHand hand' tolerance done).table := by
  induction done using List.reverseRecOn with
  | nil =>
    show Table.start hand = Table.start hand'
    simp only [Table.start, CanonicalHand.playerIds, hplayers, hblind]
  | append_singleton done last ih =>
    rw [replayHand_concat, replayHand_concat]
    have hids : hand.playerIds = hand'.playerIds := by
      rw [CanonicalHand.playerIds, CanonicalHand.playerIds, hplayers]
    unfold Replay.step
    rw [hids]
    by_cases hactor : last.actor ∈ hand'.playerIds
    · rw [if_pos hactor, if_pos hactor]
      show (replayHand hand tolerance done).table.step tolerance hand.bigBlind last = _
      rw [ih, hblind]
    · rw [if_neg hactor, if_neg hactor]
      exact ih

namespace Table

variable (t : Table) (tolerance : ℚ) (action action' : HandAction)

/-- An action that answers the bet its actor faces: a call, or an all-in that
faces one. -/
def Answers : Prop :=
  action.action = .call ∨ action.action = .allIn ∧ tolerance < t.outstanding action.actor

/-- The chips that the actor has for the answer. -/
def answerChips : ℚ :=
  if action.action = .call then t.stackBefore action.actor else action.amount

/-- Two actions answer the bet alike: neither does, or both do with the same
chips or with enough. -/
def SameAnswer : Prop :=
  (t.Answers tolerance action ↔ t.Answers tolerance action') ∧
    (t.Answers tolerance action → t.answerChips action = t.answerChips action' ∨
      t.outstanding action.actor ≤ t.answerChips action ∧
        t.outstanding action'.actor ≤ t.answerChips action')

instance : Decidable (t.Answers tolerance action) := by
  unfold Answers
  infer_instance

theorem actualCall_eq : t.actualCall tolerance action =
    if t.Answers tolerance action then
      some (min (t.answerChips action) (t.outstanding action.actor))
    else none := by
  unfold actualCall Answers answerChips
  split <;> simp_all [min_comm]

end Table

theorem min_eq_min_iff {x y bound : ℚ} :
    min x bound = min y bound ↔ x = y ∨ bound ≤ x ∧ bound ≤ y := by
  constructor
  · intro h
    obtain hx | hx := le_total x bound <;> obtain hy | hy := le_total y bound
    · exact .inl (by rwa [min_eq_left hx, min_eq_left hy] at h)
    · rw [min_eq_left hx, min_eq_right hy] at h
      exact .inr ⟨h.ge, hy⟩
    · rw [min_eq_right hx, min_eq_left hy] at h
      exact .inr ⟨hx, h.le⟩
    · exact .inr ⟨hx, hy⟩
  · rintro (rfl | ⟨hx, hy⟩)
    · rfl
    · rw [min_eq_right hx, min_eq_right hy]

theorem Table.actualCall_eq_iff {t : Table} {action action' : HandAction}
    (hactor : action.actor = action'.actor) :
    t.actualCall tolerance action = t.actualCall tolerance action' ↔
      t.SameAnswer tolerance action action' := by
  rw [actualCall_eq, actualCall_eq, SameAnswer, hactor]
  by_cases h : t.Answers tolerance action <;> by_cases h' : t.Answers tolerance action' <;>
    simp [h, h', min_eq_min_iff]

/-- Snapshots of two actions at one table differ in what they say of the call. -/
theorem Table.snapshot_eq_iff {t : Table} {action action' : HandAction} (index : Nat)
    (hplayers : hand.players = hand'.players)
    (hboard : visibleBoard hand.board action.street = visibleBoard hand'.board action.street)
    (hstreet : action.street = action'.street) (hactor : action.actor = action'.actor) :
    t.snapshot hand tolerance index action = t.snapshot hand' tolerance index action' ↔
      t.actualCall tolerance action = t.actualCall tolerance action' := by
  constructor
  · exact fun h => congrArg DecisionSnapshot.actualCall h
  · intro h
    have hids : hand.playerIds = hand'.playerIds := by
      rw [CanonicalHand.playerIds, CanonicalHand.playerIds, hplayers]
    simp only [snapshot, contestablePotBeforeShortCall, h, hids, hboard, ← hstreet, ← hactor]

end

/-! ## Two cases with the same public facts -/

/-- Two cases with one focal decision, whose hands agree on what is public when
it is made. -/
structure SamePublicFacts (case case' : CaseInput) (hand hand' : CanonicalHand)
    (focal : FocalDecision) : Prop where
  hand_left : case.hand = some hand
  hand_right : case'.hand = some hand'
  focal_left : case.focalDecision = some focal
  focal_right : case'.focalDecision = some focal
  settings : hand.settings = hand'.settings
  players : hand.players = hand'.players
  heroPlayerId : hand.heroPlayerId = hand'.heroPlayerId
  heroCards : hand.heroCards = hand'.heroCards
  board : visibleBoard hand.board focal.street = visibleBoard hand'.board focal.street
  before : hand.actions.take focal.actionIndex = hand'.actions.take focal.actionIndex
  tolerance : derivedChipTolerance hand = derivedChipTolerance hand'

section

variable {case case' : CaseInput} {hand hand' : CanonicalHand} {focal : FocalDecision}
variable {action action' : HandAction} {tolerance : ℚ}

theorem focal_action {case : CaseInput} (hhand : case.hand = some hand)
    (hfocal : case.focalDecision = some focal)
    (haction : hand.actions[focal.actionIndex]? = some action) :
    action.street = focal.street ∧ action.actor = focal.actor := by
  obtain ⟨h, hh, a, ha, hmatch⟩ := case.focal_in_hand focal hfocal
  obtain rfl : hand = h := Option.some.inj (hhand.symm.trans hh)
  obtain rfl : action = a := Option.some.inj (haction.symm.trans ha)
  exact hmatch

theorem SamePublicFacts.tableBefore (h : SamePublicFacts case case' hand hand' focal) :
    hand.tableBefore tolerance focal = hand'.tableBefore tolerance focal := by
  have hblind : hand.bigBlind = hand'.bigBlind := congrArg GameSettings.bigBlind h.settings
  rw [CanonicalHand.tableBefore, CanonicalHand.tableBefore, h.before, hblind,
    replay_table_congr h.players hblind]

variable {completes : CanonicalHand → Bool} {mentions : BlindDecisionContext → String → Bool}
variable {context context' : BlindDecisionContext}

theorem context_eq (hhand : case.hand = some hand) (hfocal : case.focalDecision = some focal)
    (haction : hand.actions[focal.actionIndex]? = some action)
    (h : buildBlindDecisionContext completes mentions case = .ok (some context)) :
    context = hand.contextWith ((hand.tableBefore (derivedChipTolerance hand) focal).snapshot hand
      (derivedChipTolerance hand) focal.actionIndex action) := by
  obtain ⟨herrors, snapshot, hsnapshot, rfl⟩ :=
    buildBlindDecisionContext_ok completes mentions hhand hfocal h
  have hat := (snapshots_of_no_errors herrors).2 _ _ haction
  rw [hsnapshot, (focal_action hhand hfocal haction).1] at hat
  rw [Option.some.inj hat, CanonicalHand.tableBefore]

/-- The payloads of two cases with the same public facts are equal exactly when
the focal actions answer the bet alike. -/
theorem blind_context_eq_iff (same : SamePublicFacts case case' hand hand' focal)
    (haction : hand.actions[focal.actionIndex]? = some action)
    (haction' : hand'.actions[focal.actionIndex]? = some action')
    (h : buildBlindDecisionContext completes mentions case = .ok (some context))
    (h' : buildBlindDecisionContext completes mentions case' = .ok (some context')) :
    context = context' ↔
      (hand.tableBefore (derivedChipTolerance hand) focal).SameAnswer (derivedChipTolerance hand)
        action action' := by
  obtain ⟨hstreet, hactor⟩ := focal_action same.hand_left same.focal_left haction
  obtain ⟨hstreet', hactor'⟩ := focal_action same.hand_right same.focal_right haction'
  rw [context_eq same.hand_left same.focal_left haction h,
    context_eq same.hand_right same.focal_right haction' h', ← same.tolerance, ← same.tableBefore,
    ← Table.actualCall_eq_iff (hactor.trans hactor'.symm),
    ← Table.snapshot_eq_iff focal.actionIndex same.players (hstreet ▸ same.board)
      (hstreet.trans hstreet'.symm) (hactor.trans hactor'.symm)]
  simp only [CanonicalHand.contextWith, same.settings, same.players, same.heroPlayerId,
    same.heroCards, BlindDecisionContext.mk.injEq, true_and]

end

section Runs

/-- The case of the first action after the blinds. -/
def headsUpCase (action : HandAction) (rest : List HandAction)
    (haction : action.street = .preflop ∧ action.actor = "h") : CaseInput where
  hand := some (headsUp (action :: rest))
  focalDecision := some { street := .preflop, actionIndex := 2, actor := "h" }
  focal_in_hand := by
    rintro focal hfocal
    obtain rfl := Option.some.inj hfocal
    exact ⟨_, rfl, action, rfl, haction⟩

/-- The payload of the heads-up case. -/
def headsUpContext (action : HandAction) (rest : List HandAction) : BlindDecisionContext :=
  let hand := headsUp (action :: rest)
  hand.contextWith ((hand.tableBefore (derivedChipTolerance hand)
    { street := .preflop, actionIndex := 2, actor := "h" }).snapshot hand
      (derivedChipTolerance hand) 2 action)

/-- The payload tells a call from a fold. -/
theorem blind_context_tells_call :
    ∃ case case' hand hand' focal context context',
      SamePublicFacts case case' hand hand' focal ∧
      buildBlindDecisionContext (fun _ => true) (fun _ _ => false) case = .ok (some context) ∧
      buildBlindDecisionContext (fun _ => true) (fun _ _ => false) case' = .ok (some context') ∧
      context ≠ context' :=
  ⟨headsUpCase heroCalls [] ⟨rfl, rfl⟩, headsUpCase heroFolds [] ⟨rfl, rfl⟩,
    headsUp [heroCalls], headsUp [heroFolds],
    { street := .preflop, actionIndex := 2, actor := "h" },
    headsUpContext heroCalls [], headsUpContext heroFolds [],
    ⟨rfl, rfl, rfl, rfl, by decide +kernel, by decide +kernel, by decide +kernel, by decide +kernel,
      by decide +kernel, by decide +kernel, by decide +kernel⟩,
    by decide +kernel, by decide +kernel, by decide +kernel⟩

theorem blind_context_eq_iff_raise_fold :
    headsUpContext heroRaises [villainFolds] = headsUpContext heroFolds [] ↔
      ((headsUp [heroRaises, villainFolds]).tableBefore
        (derivedChipTolerance (headsUp [heroRaises, villainFolds]))
        { street := .preflop, actionIndex := 2, actor := "h" }).SameAnswer
          (derivedChipTolerance (headsUp [heroRaises, villainFolds])) heroRaises heroFolds :=
  have same : SamePublicFacts (headsUpCase heroRaises [villainFolds] ⟨rfl, rfl⟩)
      (headsUpCase heroFolds [] ⟨rfl, rfl⟩) (headsUp [heroRaises, villainFolds])
      (headsUp [heroFolds]) { street := .preflop, actionIndex := 2, actor := "h" } :=
    ⟨rfl, rfl, rfl, rfl, by decide +kernel, by decide +kernel, by decide +kernel,
      by decide +kernel, by decide +kernel, by decide +kernel, by decide +kernel⟩
  have hraises : buildBlindDecisionContext (fun _ => true) (fun _ _ => false)
      (headsUpCase heroRaises [villainFolds] ⟨rfl, rfl⟩) =
        .ok (some (headsUpContext heroRaises [villainFolds])) := by decide +kernel
  have hfolds : buildBlindDecisionContext (fun _ => true) (fun _ _ => false)
      (headsUpCase heroFolds [] ⟨rfl, rfl⟩) = .ok (some (headsUpContext heroFolds [])) := by
    decide +kernel
  blind_context_eq_iff same rfl rfl hraises hfolds

end Runs

end PokerDeliberation.Hands
