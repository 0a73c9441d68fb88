import PokerDeliberation.Ledger.Conservation
import PokerDeliberation.Ledger.Oracle

/-!
# The oracle agrees with the builder

`Agrees` relates the state of the builder to the variables of the oracle. An
accepted action whose amount is a multiple of the chip unit takes related
states to related states, so on such a hand the oracle recomputes the
builder's result.
-/

namespace PokerDeliberation.Ledger

open Lib Hands

section

variable {hand : CanonicalHand} {unit : ℚ} {bigBlind : Int}
variable {b b' s closed core : LedgerBuilder} {o : OracleState}
variable {index : Nat} {action : HandAction} {street : Street} {amount : Int}

structure Agrees (b : LedgerBuilder) (o : OracleState) : Prop where
  gross : o.gross = b.gross
  street : o.street = b.streetContribution
  totalIntervals : o.totalIntervals = b.actionIntervals
  streetIntervals : o.streetIntervals = b.streetIntervals
  folded : o.folded = b.foldedAt
  currentStreet : o.currentStreet = b.currentStreet
  returns : o.returns = b.returns.map (·.columns)
  net : ∀ id, b.net id = b.gross id - o.returnedByPlayer id
  known : b.currentStreet ≠ some .showdown

theorem streetValue_ok (h : street ≠ .showdown) : streetValue street = .ok street := by
  cases street <;> first | rfl | exact absurd rfl h

theorem returnedByPlayer_append {r : OracleReturn} (id : String) :
    ({ o with returns := o.returns ++ [r] } : OracleState).returnedByPlayer id =
      o.returnedByPlayer id + if r.playerId = id then r.amount else 0 := by
  simp only [OracleState.returnedByPlayer, List.filter_append, List.map_append, List.sum_append,
    List.filter_cons, List.filter_nil, decide_eq_true_eq]
  split <;> simp

/-- The leaders of the oracle are the highest players of the builder. -/
theorem highestPlayers_eq_leaders (hpos : 0 < b.highestOf hand.playerIds) :
    b.highestPlayers hand =
      hand.playerIds.filter fun id => b.streetContribution id = b.highestOf hand.playerIds := by
  simp [LedgerBuilder.highestPlayers, hpos]

theorem Agrees.closes (h : Agrees b o) (hcurrent : b.currentStreet ≠ none)
    (hcloses : Closes hand b closed) :
    ∃ o', o.closeStreet hand = .ok o' ∧ Agrees closed o' := by
  obtain ⟨current, hcurrent⟩ := Option.ne_none_iff_exists'.1 hcurrent
  -- The oracle looks for a player who leads alone, as the builder does.
  have hclose : ∀ id, (hand.playerIds.filter fun id => b.streetContribution id =
      (hand.playerIds.map b.streetContribution).foldl max 0) = [id] → o.closeStreet hand =
        if b.highestOf hand.playerIds ≤ 0 ∨ b.highestOf hand.playerIds - b.second hand id ≤ 0 then
          .ok o
        else do
          let value ← streetValue current
          return { o with
            returns := o.returns ++
              [{ street := value, playerId := id
                 amount := b.highestOf hand.playerIds - b.second hand id
                 source := meeting (b.second hand id) (b.highestOf hand.playerIds)
                   (o.streetIntervals id) }]
            street := Function.update o.street id
              (o.street id - (b.highestOf hand.playerIds - b.second hand id)) } := by
    intro id halone
    unfold OracleState.closeStreet
    rw [h.currentStreet, hcurrent, h.street]
    dsimp only
    rw [halone]
    rfl
  have hshared : (∀ id, (hand.playerIds.filter fun id => b.streetContribution id =
      (hand.playerIds.map b.streetContribution).foldl max 0) ≠ [id]) → o.closeStreet hand = .ok o := by
    intro hnone
    unfold OracleState.closeStreet
    rw [h.currentStreet, hcurrent, h.street]
    dsimp only
    split
    · next id halone => exact absurd halone (hnone id)
    · rfl
  cases hcloses with
  | called hsettled =>
    refine ⟨o, ?_, h⟩
    by_cases hleads : ∃ id, (hand.playerIds.filter fun id => b.streetContribution id =
        (hand.playerIds.map b.streetContribution).foldl max 0) = [id]
    · obtain ⟨id, halone⟩ := hleads
      rw [hclose id halone]
      by_cases hpos : 0 < b.highestOf hand.playerIds
      · have := hsettled id ((highestPlayers_eq_leaders hpos).trans halone)
        rw [if_pos (.inr (by omega))]
      · rw [if_pos (.inl (by omega))]
    · exact hshared fun id halone => hleads ⟨id, halone⟩
  | @uncalled id street amount total record halone hamount hpos _ hstreet _ _ _ hrecord =>
    obtain ⟨_, _, hhighest⟩ := highestPlayers_eq halone
    rw [highestPlayers_eq_leaders hhighest] at halone
    have hsame : current = street := Option.some.inj (hcurrent.symm.trans hstreet)
    subst hsame
    have hknown : streetValue current = .ok current :=
      streetValue_ok fun he => h.known (he ▸ hcurrent)
    have hown := hclose id halone
    rw [if_neg (by omega), hknown] at hown
    refine ⟨_, hown, ?_⟩
    have hcolumns : record.columns =
        { street := current, playerId := id, amount
          source := meeting (b.second hand id) (b.highestOf hand.playerIds)
            (b.streetIntervals id) } := by
      rw [hrecord]
      rfl
    refine ⟨h.gross, ?_, h.totalIntervals, h.streetIntervals, h.folded, h.currentStreet, ?_, ?_,
      h.known⟩
    · rw [h.street, hamount]
      rfl
    · rw [returned_returns, List.map_append, ← h.returns, List.map_singleton, hcolumns, hamount,
        h.streetIntervals]
    · intro other
      have hnet := h.net other
      have hreturned := returnedByPlayer_append (o := o) (r := record.columns) other
      rw [hcolumns, hamount, ← h.streetIntervals] at hreturned
      rw [returned_net]
      show _ = b.gross other - _
      refine Eq.trans ?_ (congrArg (b.gross other - ·) hreturned.symm)
      simp only [eq_comm (a := id)]
      split <;> omega

theorem Agrees.enters (h : Agrees b o) (henters : Enters hand bigBlind b street s) :
    ∃ o', o.enter hand street = .ok o' ∧ Agrees s o' := by
  unfold OracleState.enter
  rw [h.currentStreet]
  cases henters with
  | same hcurrent => exact ⟨o, if_pos hcurrent.symm, h⟩
  | @first order hnone hlater =>
    rw [if_neg (by simp [hnone])]
    have hclose : o.closeStreet hand = .ok o := by
      unfold OracleState.closeStreet
      rw [h.currentStreet, hnone]
    rw [hclose]
    refine ⟨_, rfl, h.gross, rfl, h.totalIntervals, rfl, h.folded, rfl, h.returns, h.net, ?_⟩
    rintro ⟨⟩
    cases hlater.1
  | @next order closed hsome hmoved hlater _ hcloses =>
    rw [if_neg fun he => hmoved he.symm]
    obtain ⟨o', hclose, hagrees⟩ := h.closes hsome hcloses
    rw [hclose]
    refine ⟨_, rfl, hagrees.gross, rfl, hagrees.totalIntervals, rfl, hagrees.folded, rfl,
      hagrees.returns, hagrees.net, ?_⟩
    rintro ⟨⟩
    cases hlater.1

/-- The oracle's part of a move. -/
theorem Agrees.moves (h : Agrees b o) (hmoves : Moves b index action amount core)
    (hunits : fractionUnits action.amount unit = .ok amount) :
    ∃ o', OracleState.contribute unit
        (if action.action = .fold then
          { o with folded := Function.update o.folded action.actor (some index) } else o)
        index action = .ok o' ∧ Agrees core o' := by
  unfold OracleState.contribute
  have hnet : ∀ countsForBet id,
      (b.committed index action.actor amount countsForBet).net id =
        (b.committed index action.actor amount countsForBet).gross id - o.returnedByPlayer id := by
    intro countsForBet id
    have := h.net id
    rw [committed_net, committed_gross]
    split <;> omega
  cases hmoves with
  | ante hkind =>
    have hcontributes : action.action ∈ CONTRIBUTION_ACTIONS ∧ action.action ≠ .fold := by
      simp [hkind, CONTRIBUTION_ACTIONS]
    rw [if_neg hcontributes.2, if_pos hcontributes.1, hunits]
    refine ⟨_, if_pos hkind, ?_, ?_, ?_, ?_, h.folded, h.currentStreet, h.returns, hnet false,
      h.known⟩
    · rw [h.gross]; rfl
    · refine h.street.trans (funext fun id => ?_)
      simp
    · rw [h.gross, h.totalIntervals]; rfl
    · simpa [LedgerBuilder.committed, LedgerBuilder.recordInterval] using h.streetIntervals
  | wager hkind =>
    have hcontributes : action.action ∈ CONTRIBUTION_ACTIONS ∧ action.action ≠ .fold ∧
        action.action ≠ .postAnte := by
      cases haction : action.action <;> simp_all [CONTRIBUTION_ACTIONS]
    rw [if_neg hcontributes.2.1, if_pos hcontributes.1, hunits]
    refine ⟨_, if_neg hcontributes.2.2, ?_, ?_, ?_, ?_, h.folded, h.currentStreet, h.returns,
      hnet true, h.known⟩
    · rw [h.gross]; rfl
    · rw [h.street]; rfl
    · rw [h.gross, h.totalIntervals]; rfl
    · rw [h.street, h.streetIntervals]; rfl
  | check hkind =>
    have hidle : action.action ∉ CONTRIBUTION_ACTIONS ∧ action.action ≠ .fold := by
      simp [hkind, CONTRIBUTION_ACTIONS]
    rw [if_neg hidle.2, if_neg hidle.1]
    exact ⟨o, rfl, h⟩
  | fold hkind =>
    rw [if_pos hkind, if_neg (by simp [hkind, CONTRIBUTION_ACTIONS])]
    refine ⟨_, rfl, h.gross, h.street, h.totalIntervals, h.streetIntervals, ?_, h.currentStreet,
      h.returns, h.net, h.known⟩
    rw [h.folded]

theorem Agrees.of_notes (h : Agrees b o) (hnotes : Notes b b') : Agrees b' o := by
  obtain ⟨_, _, _, _, _, rfl⟩ := hnotes
  exact ⟨h.gross, h.street, h.totalIntervals, h.streetIntervals, h.folded, h.currentStreet,
    h.returns, h.net, h.known⟩

/-- An exact multiple of the unit is the same number of units to both. -/
theorem fractionUnits_of_decimalUnits {value : Chips} {n : Int} (hunit : 0 < unit)
    (hmultiple : ∃ m, IsMultiple value unit m) (h : decimalUnits value unit = .ok n) :
    fractionUnits value unit = .ok n := by
  obtain ⟨m, hm⟩ := hmultiple
  obtain ⟨rfl, hle⟩ := decimalUnits_eq hunit hm h
  exact fractionUnits_eq hunit hm hle

theorem Agrees.accepts (h : Agrees b o) (hunit : 0 < unit)
    (hmultiple : ∃ m, IsMultiple action.amount unit m)
    (haccepts : Accepts hand unit bigBlind b index action b') :
    ∃ o', o.step hand unit index action = .ok o' ∧ Agrees b' o' := by
  obtain ⟨_, henters, _, _, hunits, hmoves, hnotes⟩ := haccepts
  obtain ⟨entered, henter, hentered⟩ := h.enters henters
  obtain ⟨o', hcontribute, hagrees⟩ := hentered.moves hmoves
    (fractionUnits_of_decimalUnits hunit hmultiple hunits)
  refine ⟨o', ?_, hagrees.of_notes hnotes⟩
  unfold OracleState.step
  rw [henter]
  exact hcontribute

/-- The pass over an accepted sequence of exact amounts. -/
theorem agrees_of_replay {actions : List HandAction} (hunit : 0 < unit)
    (hmultiple : ∀ action ∈ actions, ∃ m, IsMultiple action.amount unit m)
    (h : replay hand unit bigBlind actions = .ok b) :
    ∃ o, oracleRun hand unit actions = .ok o ∧ Agrees b o := by
  refine replay_induction (I := fun done b =>
    (∀ action ∈ done, ∃ m, IsMultiple action.amount unit m) →
      ∃ o, oracleRun hand unit done = .ok o ∧ Agrees b o) (fun b hb _ => ?_)
    (fun done b action b' hb haccepts hdone => ?_) h hmultiple
  · obtain ⟨_, _, rfl, _⟩ := init_ok hb
    exact ⟨{}, rfl, rfl, rfl, rfl, rfl, rfl, rfl, rfl, fun _ => rfl, by simp⟩
  · obtain ⟨o, hrun, hagrees⟩ := hb fun a ha => hdone a (List.mem_append_left _ ha)
    obtain ⟨o', hstep, hagrees⟩ := hagrees.accepts hunit (hdone action (by simp)) haccepts
    exact ⟨o', foldlM_zipIdx_concat_ok.2 ⟨o, hrun, hstep⟩, hagrees⟩

/-! ## The result -/

theorem oracleLayers_eq (layerIndex : Nat) (lower : Int) (levels : List Int) :
    oracleLayers hand b.net b.foldedAt b.actionIntervals lower levels =
      (cutLayers hand b layerIndex lower levels).map (·.columns) := by
  induction levels generalizing layerIndex lower with
  | nil => rfl
  | cons upper levels ih =>
    rw [oracleLayers, cutLayers, List.map_cons, ih (layerIndex + 1)]
    rfl

theorem starting_of_accepts (h : Accepts hand unit bigBlind b index action b') :
    b'.starting = b.starting := by
  obtain ⟨_, henters, _, _, _, hmoves, _, _, _, _, _, rfl⟩ := h
  have hentered : ∀ {s}, Enters hand bigBlind b action.street s → s.starting = b.starting := by
    intro s henters
    cases henters with
    | same => rfl
    | first => rfl
    | next _ _ _ _ hcloses => cases hcloses <;> rfl
  refine Eq.trans ?_ (hentered henters)
  cases hmoves <;> rfl

/-- The builder starts from the stacks of the hand. -/
theorem starting_of_replay {actions : List HandAction}
    (h : replay hand unit bigBlind actions = .ok b) :
    ∀ player ∈ hand.players,
      decimalUnits player.startingStack unit = .ok (b.starting player.playerId) := by
  refine replay_induction (I := fun _ b => ∀ player ∈ hand.players,
    decimalUnits player.startingStack unit = .ok (b.starting player.playerId))
    (fun b hb => ?_) (fun _ b action b' hb haccepts => ?_) h
  · obtain ⟨_, _, rfl, hstacks, _⟩ := init_ok hb
    exact hstacks
  · rw [starting_of_accepts haccepts]
    exact hb

theorem validateProfile_ok {profile : HandRuleProfileV1} (h : validateProfile profile = .ok unit) :
    0 < unit ∧ unit = profile.unit := by
  simp only [validateProfile, require_bind_eq_ok] at h
  exact validateChipUnit_ok h.2.2.2

/-- What the oracle expects of a closed hand, in terms of the builder. -/
theorem oracleExpected_ok {profile : HandRuleProfileV1} {starting : String → Int}
    {run o : OracleState}
    (hstacks : ∀ player ∈ hand.players,
      fractionUnits player.startingStack profile.unit = .ok (starting player.playerId))
    (hrun : oracleRun hand profile.unit hand.actions = .ok run)
    (hclose : run.closeStreet hand = .ok o) (hagrees : Agrees closed o) :
    ∃ expected, oracleExpected hand profile = .ok expected ∧
      (∀ id ∈ hand.playerIds, expected.starting id = starting id) ∧
      expected.gross = closed.gross ∧ expected.net = closed.net ∧
      (∀ id ∈ hand.playerIds, expected.remaining id = starting id - closed.net id) ∧
      expected.returns = closed.returns.map (·.columns) ∧
      expected.layers =
        (cutLayers hand closed 0 0 (positiveLevels hand closed.net)).map (·.columns) ∧
      expected.finalPot = sumOver hand.playerIds closed.net ∧
      expected.grossTotal = sumOver hand.playerIds closed.gross ∧
      expected.returnedTotal = (closed.returns.map (·.amountUnits)).sum := by
  have hnet : (fun id => o.gross id - o.returnedByPlayer id) = closed.net :=
    funext fun id => by rw [hagrees.net id, hagrees.gross]
  have hmap : (hand.players.mapM fun player => do
      let units ← fractionUnits player.startingStack profile.unit
      return (player.playerId, units)) =
        .ok (hand.players.map fun player => (player.playerId, starting player.playerId)) := by
    rw [mapM_eq_ok, List.forall₂_map_right_iff, List.forall₂_same]
    intro player hplayer
    rw [bind_ok_left (hstacks player hplayer)]
    rfl
  have hstarting : ∀ id ∈ hand.playerIds, lookupUnits
      (hand.players.map fun player => (player.playerId, starting player.playerId)) id =
        starting id := by
    intro id hid
    obtain ⟨player, hplayer, rfl⟩ := List.mem_map.1 hid
    refine lookupUnits_of_mem (s := (player.playerId, starting player.playerId)) ?_
      (List.mem_map_of_mem hplayer)
    simpa [List.map_map, Function.comp_def] using hand.unique_ids
  have hremaining : ∀ id ∈ hand.playerIds, lookupUnits
      (hand.players.map fun player => (player.playerId, starting player.playerId)) id - o.gross id +
        o.returnedByPlayer id = starting id - closed.net id := by
    intro id hid
    have := hagrees.net id
    have := congrFun hagrees.gross id
    rw [hstarting id hid]
    omega
  have hlayers : oracleLayers hand closed.net o.folded o.totalIntervals 0
      (positiveLevels hand closed.net) =
        (cutLayers hand closed 0 0 (positiveLevels hand closed.net)).map (·.columns) := by
    rw [hagrees.folded, hagrees.totalIntervals, oracleLayers_eq]
  have hreturned : (o.returns.map (·.amount)).sum = (closed.returns.map (·.amountUnits)).sum := by
    rw [hagrees.returns, List.map_map]
    rfl
  have hexpected : oracleExpected hand profile = .ok
      { starting := lookupUnits
          (hand.players.map fun player => (player.playerId, starting player.playerId))
        gross := o.gross
        net := closed.net
        remaining := fun id => lookupUnits
          (hand.players.map fun player => (player.playerId, starting player.playerId)) id -
            o.gross id + o.returnedByPlayer id
        returns := o.returns
        layers := oracleLayers hand closed.net o.folded o.totalIntervals 0
          (positiveLevels hand closed.net)
        finalPot := sumOver hand.playerIds closed.net
        grossTotal := sumOver hand.playerIds o.gross
        returnedTotal := (o.returns.map (·.amount)).sum } := by
    unfold oracleExpected
    rw [bind_ok_left hmap, bind_ok_left hrun, bind_ok_left hclose, ← hnet]
    rfl
  exact ⟨_, hexpected, hstarting, hagrees.gross, rfl, hremaining, hagrees.returns, hlayers, rfl,
    congrArg (sumOver hand.playerIds) hagrees.gross, hreturned⟩

/-- On a hand of exact amounts the oracle recomputes the builder's result. -/
theorem oracle_agreement {profile : HandRuleProfileV1} {smallBlind ante : Int}
    {out : HandPotLedgerOutputV1} (hprofile : validateProfile profile = .ok unit)
    (hhand : validateProfileHand hand unit = .ok (smallBlind, bigBlind, ante))
    (hreplay : replay hand unit bigBlind hand.actions = .ok b)
    (hfinish : b.finish hand unit = .ok out)
    (hamounts : ∀ action ∈ hand.actions, ∃ m, IsMultiple action.amount unit m)
    (hstacks : ∀ player ∈ hand.players, ∃ m, IsMultiple player.startingStack unit m) :
    verifyOracle hand profile out = .ok () ∧
      ∃ expected, oracleExpected hand profile = .ok expected ∧
        (∀ id ∈ hand.playerIds,
          out.grossContributionsUnits id = expected.gross id ∧
          out.netContributionsUnits id = expected.net id ∧
          out.remainingStacksUnits id = expected.remaining id) ∧
        out.finalPotUnits = expected.finalPot ∧
        out.grossCommittedUnits = expected.grossTotal ∧
        out.totalReturnedUnits = expected.returnedTotal ∧
        out.uncalledReturns.map (·.columns) = expected.returns ∧
        out.potLayers.map (·.columns) = expected.layers := by
  obtain ⟨hunit, rfl⟩ := validateProfile_ok hprofile
  obtain ⟨run, hrun, hagrees⟩ := agrees_of_replay hunit hamounts hreplay
  simp only [LedgerBuilder.finish, LedgerBuilder.settle, bind_eq_ok, pure_eq_ok] at hfinish
  obtain ⟨_, _, closed, hclosed, _, _, _, _, _, _, potLayers, hlayers, _, _, _, _, rfl⟩ := hfinish
  obtain ⟨hcurrent, _, hcloses⟩ := closeStreet_closes hclosed
  obtain ⟨o, hclose, hagrees⟩ := hagrees.closes hcurrent hcloses
  have hbooks := (accounts_of_replay hreplay).closes hcloses
  have hstarting : closed.starting = b.starting := by cases hcloses <;> rfl
  obtain ⟨rfl, _⟩ := layers_eq_ok.1 hlayers
  obtain ⟨expected, hexpected, hstart, hgross, hnet, hremaining, hreturns, hpots, hpot, hgrossTotal,
    hreturned⟩ := oracleExpected_ok (fun player hplayer => fractionUnits_of_decimalUnits hunit
      (hstacks player hplayer) (starting_of_replay hreplay player hplayer)) hrun hclose hagrees
  have hleft : ∀ id ∈ hand.playerIds, closed.remaining id = expected.remaining id := by
    intro id hid
    have := hbooks.balance id
    rw [hremaining id hid, ← hstarting]
    omega
  have hall : (∀ id ∈ hand.playerIds,
      closed.gross id = expected.gross id ∧ closed.net id = expected.net id ∧
        closed.remaining id = expected.remaining id) := fun id hid =>
    ⟨congrFun hgross.symm id, congrFun hnet.symm id, hleft id hid⟩
  have htotals : closed.netTotal = expected.finalPot ∧ closed.grossTotal = expected.grossTotal ∧
      closed.returnedTotal = expected.returnedTotal :=
    ⟨hbooks.net_sum.symm.trans hpot.symm, hbooks.gross_sum.symm.trans hgrossTotal.symm,
      hbooks.returned_sum.symm.trans hreturned.symm⟩
  have hconserved : sumOver hand.playerIds expected.starting =
      sumOver hand.playerIds expected.remaining + closed.netTotal := by
    have hsum := hbooks.remaining_sum
    rw [← hbooks.starting_sum, hstarting] at hsum
    rw [sumOver, List.map_congr_left hstart, sumOver, List.map_congr_left fun id hid =>
      (hleft id hid).symm]
    exact hsum.symm
  refine ⟨?_, expected, hexpected, hall, htotals.1, htotals.2.1, htotals.2.2, hreturns.symm,
    hpots.symm⟩
  unfold verifyOracle
  rw [bind_ok_left hexpected]
  simp only [bind_eq_ok, require_eq_ok, exists_const]
  exact ⟨fun id hid => (hall id hid).1, fun id hid => (hall id hid).2.1,
    fun id hid => (hall id hid).2.2, htotals.1, htotals.2.1, htotals.2.2, hreturns.symm,
    hpots.symm, hconserved⟩

def halfProfile : HandRuleProfileV1 where
  profileId := PROFILE_ID
  profileVersion := PROFILE_VERSION
  supportedSite := SUPPORTED_SITE
  chipUnit := "0.5"

theorem oracle_agreement_uneven : ∃ b out,
    replay unevenHand (1 / 2) 2 unevenHand.actions = .ok b ∧
      b.finish unevenHand (1 / 2) = .ok out ∧
      out.uncalledReturns.map (·.amountUnits) = [12] ∧
      verifyOracle unevenHand halfProfile out = .ok () := by
  obtain ⟨b, hb, hreturns⟩ : ∃ b, replay unevenHand (1 / 2) 2 unevenHand.actions = .ok b ∧
      (b.finish unevenHand (1 / 2)).map (fun out => out.uncalledReturns.map (·.amountUnits)) =
        .ok [12] := map_eq_ok.1 (by decide +kernel)
  obtain ⟨out, hout, hreturned⟩ := map_eq_ok.1 hreturns
  have hamounts : ∀ action ∈ unevenHand.actions,
      (action.amount : ℚ) = (((action.amount : ℚ) / (1 / 2)).num.toNat : ℚ) * (1 / 2) := by
    decide +kernel
  have hstacks : ∀ player ∈ unevenHand.players,
      (player.startingStack : ℚ) =
        (((player.startingStack : ℚ) / (1 / 2)).num.toNat : ℚ) * (1 / 2) := by
    decide +kernel
  refine ⟨b, out, hb, hout, hreturned, ?_⟩
  exact (oracle_agreement (show validateProfile halfProfile = .ok (1 / 2) by decide +kernel)
    (show validateProfileHand unevenHand (1 / 2) = .ok (1, 2, 0) by decide +kernel) hb hout
    (fun action h => ⟨_, hamounts action h⟩) fun player h => ⟨_, hstacks player h⟩).1

end

end PokerDeliberation.Ledger
