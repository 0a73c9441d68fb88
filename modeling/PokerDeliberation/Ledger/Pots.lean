import PokerDeliberation.Ledger.Conservation

/-!
# Side pots

A player who has not folded and can still act has paid as much on the earlier
streets, antes apart, as any other player (`Leading`); so some player who has
not folded has the highest net contribution, and belongs to every pot layer.
The chips of a player tile the player's contribution (`Tiled`), so every
slice of it has an action behind it.
-/

namespace PokerDeliberation.Ledger

open Lib Hands

section

variable {hand : CanonicalHand} {unit : ℚ} {bigBlind : Int}
variable {b b' s closed core : LedgerBuilder} {index : Nat} {action : HandAction} {street : Street}
variable {actor : String} {amount : Int}

/-! ## Evidence -/

/-- The intervals lead from `start` to `stop` without a gap. -/
def Tiles : Int → List Interval → Int → Prop
  | start, [], stop => start = stop
  | start, i :: rest, stop => i.before = start ∧ start < i.after ∧ Tiles i.after rest stop

theorem Tiles.append {start mid stop : Int} {l l' : List Interval} (h : Tiles start l mid)
    (h' : Tiles mid l' stop) : Tiles start (l ++ l') stop := by
  induction l generalizing start with
  | nil =>
    cases h
    exact h'
  | cons i rest ih => exact ⟨h.1, h.2.1, ih h.2.2⟩

/-- Every slice of what the intervals cover meets one of them. -/
theorem Tiles.meets {start stop lower upper : Int} {l : List Interval} (h : Tiles start l stop)
    (hstart : start < upper) (hstop : upper ≤ stop) (hlt : lower < upper) :
    meeting lower upper l ≠ [] := by
  induction l generalizing start with
  | nil =>
    have : start = stop := h
    omega
  | cons i rest ih =>
    obtain ⟨hbefore, hafter, hrest⟩ := h
    by_cases hmeet : lower < i.after
    · have hmem : i.index ∈ meeting lower upper (i :: rest) :=
        List.mem_map_of_mem (List.mem_filter.2 ⟨List.mem_cons_self, by simp; omega⟩)
      exact List.ne_nil_of_mem hmem
    · have hnot : meeting lower upper (i :: rest) = meeting lower upper rest := by
        simp [meeting, hmeet]
      rw [hnot]
      exact ih hrest (by omega)

theorem tiles_recordInterval {intervals : String → List Interval} {values : String → Int}
    {before after : Int} (h : ∀ id, Tiles 0 (intervals id) (values id))
    (hbefore : values actor = before) (hle : before ≤ after) (id : String) :
    Tiles 0 (LedgerBuilder.recordInterval intervals actor index before after id)
      (if id = actor then after else values id) := by
  have hid := h id
  unfold LedgerBuilder.recordInterval
  split
  · next heq =>
    split
    · next hactor => rwa [← heq, ← hbefore, ← hactor]
    · exact hid
  · next hne =>
    rw [Function.update_apply]
    split
    · next hactor =>
      subst hactor
      exact hid.append ⟨hbefore.symm, hbefore.trans_lt (lt_of_le_of_ne hle hne), rfl⟩
    · exact hid

/-- The recorded chips of a player tile the player's contribution. -/
structure Tiled (b : LedgerBuilder) : Prop where
  gross : ∀ id, Tiles 0 (b.actionIntervals id) (b.gross id)
  net_le : ∀ id, b.net id ≤ b.gross id
  limit : b.netTotal ≤ MAX_LEDGER_UNITS

/-- And those on the street tile the contribution to the street. -/
def StreetTiled (b : LedgerBuilder) : Prop :=
  ∀ id, Tiles 0 (b.streetIntervals id) (b.streetContribution id)

theorem Tiled.closes (h : Tiled b) (hcloses : Closes hand b closed) : Tiled closed := by
  cases hcloses with
  | called => exact h
  | uncalled _ _ hpos =>
    refine ⟨h.gross, fun other => ?_, ?_⟩
    · have := h.net_le other
      rw [returned_net]
      show _ ≤ b.gross other
      split <;> omega
    · have := h.limit
      rw [returned_netTotal]
      omega

theorem Tiled.enters (h : Tiled b) (henters : Enters hand bigBlind b street s) : Tiled s := by
  cases henters with
  | same => exact h
  | first => exact ⟨h.gross, h.net_le, h.limit⟩
  | next _ _ _ _ hcloses =>
    have := h.closes hcloses
    exact ⟨this.gross, this.net_le, this.limit⟩

theorem StreetTiled.enters (h : StreetTiled b) (henters : Enters hand bigBlind b street s) :
    StreetTiled s := by
  cases henters with
  | same => exact h
  | first => exact fun _ => rfl
  | next => exact fun _ => rfl

theorem Tiled.committed (h : Tiled b) (hnonneg : 0 ≤ amount)
    (hlimit : b.netTotal + amount ≤ MAX_LEDGER_UNITS) (countsForBet : Bool) :
    Tiled (b.committed index actor amount countsForBet) where
  gross id := by
    rw [committed_gross]
    have hle : b.gross actor ≤ b.gross actor + amount := by omega
    have htiles : Tiles 0 ((b.committed index actor amount countsForBet).actionIntervals id)
        (if id = actor then b.gross actor + amount else b.gross id) :=
      tiles_recordInterval h.gross rfl hle id
    split <;> simp_all
  net_le id := by
    have := h.net_le id
    rw [committed_net, committed_gross]
    split <;> omega
  limit := hlimit

theorem StreetTiled.committed (h : StreetTiled b) (hnonneg : 0 ≤ amount) (countsForBet : Bool) :
    StreetTiled (b.committed index actor amount countsForBet) := by
  intro id
  have hle : b.streetContribution actor ≤
      if countsForBet then b.streetContribution actor + amount else b.streetContribution actor := by
    split <;> omega
  have htiles : Tiles 0 ((b.committed index actor amount countsForBet).streetIntervals id)
      (if id = actor then if countsForBet then b.streetContribution actor + amount
        else b.streetContribution actor else b.streetContribution id) :=
    tiles_recordInterval h rfl hle id
  rw [committed_streetContribution]
  split_ifs at htiles ⊢ <;> simp_all

theorem Tiled.moves (h : Tiled b) (hmoves : Moves b index action amount core) : Tiled core := by
  cases hmoves with
  | ante _ hnonneg _ hlimit => exact h.committed hnonneg hlimit false
  | wager _ hnonneg _ hlimit =>
    have hcommitted : Tiled (b.committed index action.actor amount true) :=
      h.committed hnonneg hlimit true
    exact ⟨hcommitted.gross, hcommitted.net_le, hcommitted.limit⟩
  | check => exact h
  | fold => exact ⟨h.gross, h.net_le, h.limit⟩

theorem StreetTiled.moves (h : StreetTiled b) (hmoves : Moves b index action amount core) :
    StreetTiled core := by
  cases hmoves with
  | ante _ hnonneg => exact h.committed hnonneg false
  | wager _ hnonneg => exact h.committed hnonneg true
  | check => exact h
  | fold => exact h

theorem Tiled.of_notes (h : Tiled b) (hnotes : Notes b b') : Tiled b' := by
  obtain ⟨_, _, _, _, _, rfl⟩ := hnotes
  exact ⟨h.gross, h.net_le, h.limit⟩

theorem StreetTiled.of_notes (h : StreetTiled b) (hnotes : Notes b b') : StreetTiled b' := by
  obtain ⟨_, _, _, _, _, rfl⟩ := hnotes
  exact h

theorem tiled_of_replay {actions : List HandAction}
    (h : replay hand unit bigBlind actions = .ok b) : Tiled b ∧ StreetTiled b := by
  refine replay_induction (I := fun _ b => Tiled b ∧ StreetTiled b) (fun b hb => ?_)
    (fun _ b action b' hb haccepts => ?_) h
  · obtain ⟨_, _, rfl, _⟩ := init_ok hb
    exact ⟨⟨fun _ => rfl, fun _ => le_rfl, show (0 : Int) ≤ MAX_LEDGER_UNITS by decide⟩,
      fun _ => rfl⟩
  · obtain ⟨_, henters, _, _, _, hmoves, hnotes⟩ := haccepts
    exact ⟨((hb.1.enters henters).moves hmoves).of_notes hnotes,
      ((hb.2.enters henters).moves hmoves).of_notes hnotes⟩

/-! ## The leaders -/

/-- The units of the antes a player posts. -/
def antesOf (unit : ℚ) (actions : List HandAction) (id : String) : Int :=
  ((actions.filter fun action => action.action = .postAnte ∧ action.actor = id).map
    fun action => (decimalUnits action.amount unit).toOption.getD 0).sum

theorem antesOf_append {done : List HandAction} (id : String) :
    antesOf unit (done ++ [action]) id = antesOf unit done id +
      if action.action = .postAnte ∧ action.actor = id then
        (decimalUnits action.amount unit).toOption.getD 0 else 0 := by
  rw [antesOf, List.filter_append, List.map_append, List.sum_append, List.filter_cons]
  simp only [decide_eq_true_eq]
  split <;> simp [antesOf]

/-- What a player has paid on the earlier streets, antes apart. -/
def earlier (antes : String → Int) (b : LedgerBuilder) (id : String) : Int :=
  b.net id - b.streetContribution id - antes id

/-- No player has paid more than `top` on the earlier streets, every player who
can act has, and so has a player who made the current bet. -/
structure Leading (hand : CanonicalHand) (antes : String → Int) (top : Int)
    (b : LedgerBuilder) : Prop where
  listed : ∀ id ∈ b.active, id ∈ hand.playerIds
  unfolded : ∀ id ∈ b.active, b.foldedAt id = none
  idle : b.currentStreet = none → (∀ id, b.streetContribution id = 0) ∧ b.currentBet = 0
  below : ∀ id ∈ hand.playerIds, earlier antes b id ≤ top
  able : ∀ id ∈ b.active, id ∉ b.allIn → earlier antes b id = top
  leader : ∃ id ∈ b.active, earlier antes b id = top ∧ b.streetContribution id = b.currentBet

variable {antes antes' : String → Int} {top smallBlind ante : Int}

/-- The only highest player has made the bet and has not folded. -/
theorem Leading.alone {id : String} (h : Leading hand antes top b) (hbet : Betting hand b)
    (halone : b.highestPlayers hand = [id]) :
    id ∈ b.active ∧ earlier antes b id = top ∧ b.streetContribution id = b.currentBet := by
  obtain ⟨leader, hactive, htop, hleader⟩ := h.leader
  obtain ⟨_, _, hpos⟩ := highestPlayers_eq halone
  have hmem : leader ∈ b.highestPlayers hand := by
    simp only [LedgerBuilder.highestPlayers, List.mem_filter, decide_eq_true_eq]
    exact ⟨h.listed leader hactive, hleader.trans hbet.bet_eq, hpos⟩
  rw [halone, List.mem_singleton] at hmem
  exact hmem ▸ ⟨hactive, htop, hleader⟩

theorem le_second {id other : String} (hother : other ∈ hand.playerIds) (hne : other ≠ id) :
    b.streetContribution other ≤ b.second hand id :=
  le_foldl_max (List.mem_map_of_mem (List.mem_filter.2 ⟨hother, by simpa using hne⟩))

/-- After a street is closed, some player who has not folded has paid the most,
antes apart, and so has every player who can still act. -/
theorem Leading.closes (h : Leading hand antes top b) (hbet : Betting hand b)
    (hcloses : Closes hand b closed) :
    ∃ top', (∀ id ∈ hand.playerIds, closed.net id - antes id ≤ top') ∧
      (∃ id ∈ b.active, closed.net id - antes id = top') ∧
      (Matched hand b → 1 < b.active.card → ∀ id ∈ b.active, id ∉ closed.allIn →
        closed.net id - antes id = top') := by
  cases hcloses with
  | called =>
    refine ⟨top + b.currentBet, fun id hid => ?_, ?_, fun hmatched hmany id hactive hable => ?_⟩
    · have := h.below id hid
      have := hbet.le_bet id
      unfold earlier at *
      omega
    · obtain ⟨leader, hactive, htop, hleader⟩ := h.leader
      unfold earlier at htop
      exact ⟨leader, hactive, by omega⟩
    · have htop := h.able id hactive hable
      have hmet := (hmatched hmany id (h.listed id hactive) hactive hable).2
      unfold earlier at htop
      omega
  | @uncalled id street amount total record halone hamount hpos hactive _ _ hremaining =>
    obtain ⟨_, htop, hmade⟩ := h.alone hbet halone
    have hhighest := hbet.bet_eq
    have hid : (b.returned id amount total record).net id - antes id =
        top + b.second hand id := by
      rw [returned_net, if_pos rfl]
      unfold earlier at htop
      omega
    refine ⟨top + b.second hand id, fun other hother => ?_, ⟨id, hactive, hid⟩,
      fun hmatched hmany other hin hable => ?_⟩
    · obtain rfl | hne := eq_or_ne other id
      · exact hid.le
      · have := h.below other hother
        have := le_second hother hne (b := b)
        rw [returned_net, if_neg hne]
        unfold earlier at *
        omega
    · -- no other player who can act has met the bet
      obtain rfl | hne := eq_or_ne other id
      · exact hid
      · rw [returned_allIn, if_pos (by omega), Finset.mem_erase, not_and] at hable
        have hmet := (hmatched hmany other (h.listed other hin) hin (hable hne)).2
        have := le_second (b := b) (h.listed other hin) hne
        omega

theorem Leading.enters (h : Leading hand antes top b) (hbet : Betting hand b)
    (henters : Enters hand bigBlind b street s) : ∃ top', Leading hand antes top' s := by
  cases henters with
  | same => exact ⟨top, h⟩
  | first hnone =>
    obtain ⟨hzero, _⟩ := h.idle hnone
    have hearlier : ∀ {order} id, earlier antes (b.opened bigBlind street order) id =
        earlier antes b id := fun id => by
      simp [earlier, LedgerBuilder.opened, hzero]
    obtain ⟨leader, hactive, htop, _⟩ := h.leader
    refine ⟨top, h.listed, h.unfolded, fun _ => ⟨fun _ => rfl, rfl⟩, fun id hid => ?_,
      fun id hid hable => ?_, leader, hactive, ?_, rfl⟩
    · rw [hearlier]; exact h.below id hid
    · rw [hearlier]; exact h.able id hid hable
    · rw [hearlier]; exact htop
  | @next order closed _ _ _ hmatched hcloses hmany =>
    have hsame : closed.active = b.active ∧ closed.foldedAt = b.foldedAt := by
      cases hcloses <;> exact ⟨rfl, rfl⟩
    obtain ⟨top', hbelow, ⟨leader, hactive, htop⟩, hable⟩ := h.closes hbet hcloses
    have hearlier : ∀ id, earlier antes (closed.opened bigBlind street order) id =
        closed.net id - antes id := fun id => by
      simp [earlier, LedgerBuilder.opened]
    refine ⟨top', ?_, ?_, fun _ => ⟨fun _ => rfl, rfl⟩, fun id hid => ?_, fun id hid hin => ?_,
      leader, ?_, ?_, rfl⟩
    · exact fun id hid => h.listed id (hsame.1 ▸ hid)
    · intro id hid
      show closed.foldedAt id = none
      rw [hsame.2]
      exact h.unfolded id (hsame.1 ▸ hid)
    · rw [hearlier]; exact hbelow id hid
    · rw [hearlier]
      exact hable hmatched (hsame.1 ▸ hmany) id (hsame.1 ▸ hid) hin
    · exact hsame.1.symm ▸ hactive
    · rw [hearlier]; exact htop

theorem Leading.moves (h : Leading hand antes top b) (hactive : action.actor ∈ b.active)
    (hable : action.actor ∉ b.allIn) (hmoves : Moves b index action amount core)
    (hstarted : b.currentStreet ≠ none)
    (hantes : ∀ id, antes' id = antes id +
      if action.action = .postAnte ∧ action.actor = id then amount else 0) :
    Leading hand antes' top core := by
  obtain ⟨leader, hleading, htop, hmade⟩ := h.leader
  cases hmoves with
  | ante hkind =>
    have hearlier : ∀ id, earlier antes' (b.committed index action.actor amount false) id =
        earlier antes b id := fun id => by
      obtain rfl | hne := eq_or_ne id action.actor
      · simp [earlier, hantes, hkind]
        omega
      · simp [earlier, hantes, hne, hne.symm]
    refine ⟨h.listed, h.unfolded, fun hnone => absurd hnone hstarted, fun id hid => ?_,
      fun id hid hin => ?_, leader, hleading, ?_, by simpa using hmade⟩
    · rw [hearlier]; exact h.below id hid
    · rw [hearlier]
      refine h.able id hid fun hbefore => hin ?_
      rw [committed_allIn]
      split
      · exact Finset.mem_insert_of_mem hbefore
      · exact hbefore
    · rw [hearlier]; exact htop
  | @wager bet hkind hnonneg _ _ hbet =>
    have hearlier : ∀ id, earlier antes' (b.committed index action.actor amount true) id =
        earlier antes b id := fun id => by
      have hnot : action.action ≠ .postAnte := fun he => hkind (by simp [he])
      obtain rfl | hne := eq_or_ne id action.actor
      · simp [earlier, hantes, hnot]
      · simp [earlier, hantes, hnot, hne]
    refine ⟨h.listed, h.unfolded, fun hnone => absurd hnone hstarted, fun id hid => ?_,
      fun id hid hin => ?_, ?_⟩
    · exact (hearlier id).trans_le (h.below id hid)
    · refine (hearlier id).trans (h.able id hid fun hbefore => hin ?_)
      show id ∈ (b.committed index action.actor amount true).allIn
      rw [committed_allIn]
      split
      · exact Finset.mem_insert_of_mem hbefore
      · exact hbefore
    · -- the actor makes the bet, or the player who made it keeps it
      by_cases hover : b.currentBet ≤ b.streetContribution action.actor + amount
      · refine ⟨action.actor, hactive, (hearlier _).trans (h.able _ hactive hable), ?_⟩
        show (b.committed index action.actor amount true).streetContribution _ = bet
        rw [committed_streetContribution, if_pos ⟨rfl, rfl⟩]
        omega
      · have hne : leader ≠ action.actor := by rintro rfl; omega
        refine ⟨leader, hleading, (hearlier _).trans htop, ?_⟩
        show (b.committed index action.actor amount true).streetContribution _ = bet
        rw [committed_streetContribution, if_neg (by simp [hne])]
        omega
  | check hkind =>
    have hsame : antes' = antes := funext fun id => by simp [hantes, hkind]
    exact hsame ▸ h
  | fold hkind hfacing =>
    have hsame : antes' = antes := funext fun id => by simp [hantes, hkind]
    have hne : leader ≠ action.actor := by rintro rfl; omega
    subst hsame
    refine ⟨fun id hid => h.listed id (Finset.mem_of_mem_erase hid), fun id hid => ?_, h.idle,
      h.below, fun id hid => h.able id (Finset.mem_of_mem_erase hid), leader,
      Finset.mem_erase.2 ⟨hne, hleading⟩, htop, hmade⟩
    obtain ⟨hother, hin⟩ := Finset.mem_erase.1 hid
    exact (Function.update_of_ne hother _ _).trans (h.unfolded id hin)

theorem Leading.of_notes (h : Leading hand antes top b) (hnotes : Notes b b') :
    Leading hand antes top b' := by
  obtain ⟨_, _, _, _, _, rfl⟩ := hnotes
  exact ⟨h.listed, h.unfolded, h.idle, h.below, h.able, h.leader⟩

theorem leading_of_replay {actions : List HandAction}
    (h : replay hand unit bigBlind actions = .ok b) :
    ∃ top, Leading hand (antesOf unit actions) top b := by
  refine (replay_induction (I := fun done b => Betting hand b ∧
    ∃ top, Leading hand (antesOf unit done) top b) (fun b hb => ?_)
    (fun done b action b' hb haccepts => ?_) h).2
  · obtain ⟨_, _, rfl, _⟩ := init_ok hb
    obtain ⟨id, hid⟩ : ∃ id, id ∈ hand.playerIds :=
      List.exists_mem_of_ne_nil _ fun hnil => by
        have := hand.two_players
        simp [CanonicalHand.playerIds] at hnil
        simp [hnil] at this
    refine ⟨.start rfl rfl, 0, fun id hid => List.mem_toFinset.1 hid, fun _ _ => rfl,
      fun _ => ⟨fun _ => rfl, rfl⟩, fun _ _ => le_rfl, fun _ _ _ => rfl, id,
      List.mem_toFinset.2 hid, rfl, rfl⟩
  · obtain ⟨hbet, top, hleading⟩ := hb
    obtain ⟨hlisted, henters, hactive, hable, hunits, hmoves, hnotes⟩ := haccepts
    obtain ⟨top', hentered⟩ := hleading.enters hbet henters
    refine ⟨((hbet.enters henters).moves hlisted hactive hmoves).of_notes hnotes, top', ?_⟩
    refine (hentered.moves hactive hable hmoves (by simp [henters.current]) fun id => ?_).of_notes
      hnotes
    rw [antesOf_append, hunits]
    rfl

/-! ## The guards -/

/-- The codes of the internal guards. -/
def guardCodes : List String :=
  ["negative-outstanding-bet", "ambiguous-uncalled-return", "pot-layer-has-no-eligible-player",
    "pot-layer-evidence-missing", "pot-layer-limit-exceeded"]

theorem mem_guardCodes {code : String} : code ∈ guardCodes ↔
    code = "negative-outstanding-bet" ∨ code = "ambiguous-uncalled-return" ∨
      code = "pot-layer-has-no-eligible-player" ∨ code = "pot-layer-evidence-missing" ∨
      code = "pot-layer-limit-exceeded" := by
  simp [guardCodes]

/-- Closing a street finds the uncalled bet with a player who has not folded. -/
theorem Leading.closeStreet_guards (h : Leading hand antes top b) (hbet : Betting hand b)
    (htiled : StreetTiled b) : NeverRaises guardCodes (b.closeStreet hand) := by
  refine closeStreet_neverRaises (by simp [mem_guardCodes]) (by simp [mem_guardCodes])
    (by simp [mem_guardCodes]) (by simp [mem_guardCodes]) (by simp [mem_guardCodes]) (by simp [mem_guardCodes])
    fun _ id halone hlt => ⟨(h.alone hbet halone).1, ?_⟩
  obtain ⟨_, hhighest, hpos⟩ := highestPlayers_eq halone
  exact (htiled id).meets hpos hhighest.ge hlt

theorem decimalUnits_guards (value : Chips) : NeverRaises guardCodes (decimalUnits value unit) := by
  simp [decimalUnits, mem_guardCodes]

theorem validateDeclaredPot_guards (declared : Option Chips) {code : String}
    (hcode : code ∉ guardCodes) :
    NeverRaises guardCodes (b.validateDeclaredPot unit declared code) := by
  cases declared <;> simp [LedgerBuilder.validateDeclaredPot, decimalUnits_guards, hcode]

theorem validateToAmount_guards (expected : Int) (required : Bool) :
    NeverRaises guardCodes (validateToAmount unit action expected required) := by
  unfold validateToAmount
  simp only [neverRaises_bind, neverRaises_require]
  refine ⟨by simp [mem_guardCodes], fun _ _ => ?_⟩
  split
  · exact neverRaises_pure
  · simp [decimalUnits_guards, mem_guardCodes]

theorem commit_guards (countsForBet : Bool) :
    NeverRaises guardCodes (b.commit index actor amount countsForBet) := by
  cases countsForBet <;> simp [LedgerBuilder.commit, checkedAdd, mem_guardCodes]

theorem applyKind_guards (outstanding : Int) :
    NeverRaises guardCodes (b.applyKind unit bigBlind index action amount outstanding) := by
  unfold LedgerBuilder.applyKind
  dsimp only
  split
  case h_1 | h_2 => simp [LedgerBuilder.applyPost, commit_guards, mem_guardCodes]
  case h_3 => simp [LedgerBuilder.applyCheck, mem_guardCodes]
  case h_4 => simp [LedgerBuilder.applyFold, mem_guardCodes]
  case h_5 => simp [LedgerBuilder.applyCall, commit_guards, validateToAmount_guards, mem_guardCodes]
  case h_6 => simp [LedgerBuilder.applyBet, commit_guards, validateToAmount_guards, mem_guardCodes]
  case h_7 => simp [LedgerBuilder.applyRaise, commit_guards, validateToAmount_guards, mem_guardCodes]
  case h_8 => simp [LedgerBuilder.applyAllIn, commit_guards, validateToAmount_guards, mem_guardCodes]

theorem Betting.applyOnStreet_guards (h : Betting hand b) :
    NeverRaises guardCodes (b.applyOnStreet unit bigBlind index action) := by
  have houtstanding := h.le_bet action.actor
  simp only [LedgerBuilder.applyOnStreet, neverRaises_bind, neverRaises_require,
    decimalUnits_guards, applyKind_guards, true_and]
  refine ⟨by simp [mem_guardCodes], fun _ _ => ⟨by simp [mem_guardCodes], fun _ _ => ⟨by simp [mem_guardCodes],
    fun _ _ _ _ => ⟨validateDeclaredPot_guards _ (by simp [mem_guardCodes]), fun _ _ => ⟨fun _ => by omega,
      fun _ _ _ _ => ⟨validateDeclaredPot_guards _ (by simp [mem_guardCodes]), fun _ _ => ?_⟩⟩⟩⟩⟩⟩
  simp [LedgerBuilder.appendAction, LedgerActionV1.check, mem_guardCodes]

theorem Leading.enter_guards (h : Leading hand antes top b) (hbet : Betting hand b)
    (htiled : StreetTiled b) : NeverRaises guardCodes (b.enter hand bigBlind street) := by
  unfold LedgerBuilder.enter
  split
  · exact neverRaises_ok
  · unfold LedgerBuilder.startStreet
    split
    · simp [mem_guardCodes]
    · simp only [neverRaises_bind, neverRaises_require, neverRaises_ite, neverRaises_pure]
      refine ⟨by simp [mem_guardCodes], fun _ _ => ⟨by simp [mem_guardCodes], fun _ _ => ⟨by simp, fun _ =>
        ⟨h.closeStreet_guards hbet htiled, fun _ _ => ⟨by simp [mem_guardCodes], by simp⟩⟩⟩⟩⟩

theorem Leading.apply_guards (h : Leading hand antes top b) (hbet : Betting hand b)
    (htiled : StreetTiled b) : NeverRaises guardCodes (b.apply hand unit bigBlind index action) := by
  simp only [LedgerBuilder.apply, neverRaises_bind, neverRaises_require]
  refine ⟨by simp [mem_guardCodes], fun _ _ => ⟨h.enter_guards hbet htiled, fun s hs => ?_⟩⟩
  exact (hbet.enters (enter_enters hs)).applyOnStreet_guards

/-! ## The layers of a settled hand -/

theorem mem_cutLayers {layerIndex : Nat} {lower : Int} {levels : List Int} {l : PotLayerV1}
    (hlevels : (lower :: levels).Pairwise (· < ·))
    (h : l ∈ cutLayers hand b layerIndex lower levels) :
    ∃ n low high, l = b.layer hand n low high ∧ lower ≤ low ∧ low < high ∧ high ∈ levels := by
  induction levels generalizing layerIndex lower with
  | nil => cases h
  | cons upper levels ih =>
    obtain ⟨hlower, hrest⟩ := List.pairwise_cons.1 hlevels
    have hlt := hlower upper List.mem_cons_self
    obtain rfl | h := List.mem_cons.1 h
    · exact ⟨_, _, _, rfl, le_rfl, hlt, List.mem_cons_self⟩
    · obtain ⟨n, low, high, rfl, hle, hcut, hmem⟩ := ih hrest h
      exact ⟨n, low, high, rfl, hlt.le.trans hle, hcut, List.mem_cons_of_mem _ hmem⟩

theorem mem_contributorsAt {values : String → Int} {upper : Int} {id : String} :
    id ∈ contributorsAt hand values upper ↔ id ∈ hand.playerIds ∧ upper ≤ values id := by
  simp [contributorsAt, canonicalPlayers]

/-- Every layer has contributors, an action behind it, and no more chips than the pot. -/
theorem layer_sound (hbooks : Accounts hand b) (htiled : Tiled b) {l : PotLayerV1}
    (hl : l ∈ cutLayers hand b 0 0 (positiveLevels hand b.net)) :
    (0 < l.amountUnits ∧ l.amountUnits ≤ MAX_LEDGER_UNITS) ∧ l.evidenceActionIndexes ≠ [] := by
  have hpositive : ∀ l ∈ cutLayers hand b 0 0 (positiveLevels hand b.net), 0 < l.amountUnits := by
    intro l hl
    obtain ⟨n, low, high, rfl, _, hlt, hhigh⟩ := mem_cutLayers (pairwise_positiveLevels b.net) hl
    obtain ⟨_, id, hid, hnet⟩ := mem_positiveLevels.1 hhigh
    have hmem : id ∈ contributorsAt hand b.net high := mem_contributorsAt.2 ⟨hid, hnet.ge⟩
    have hlength := List.length_pos_of_mem hmem
    simp only [LedgerBuilder.layer]
    exact mul_pos (sub_pos.2 hlt) (by exact_mod_cast hlength)
  refine ⟨⟨hpositive l hl, ?_⟩, ?_⟩
  · have htotal : ((cutLayers hand b 0 0 (positiveLevels hand b.net)).map (·.amountUnits)).sum =
        b.netTotal := by
      rw [sum_cutLayers]
      exact hbooks.layersTotal_eq
    have hle := List.single_le_sum (List.forall_mem_map.2 fun l hl => (hpositive l hl).le) _
      (List.mem_map_of_mem hl)
    exact hle.trans (htotal.trans_le htiled.limit)
  · obtain ⟨n, low, high, rfl, hlow, hlt, hhigh⟩ := mem_cutLayers (pairwise_positiveLevels b.net) hl
    obtain ⟨hpos, id, hid, hnet⟩ := mem_positiveLevels.1 hhigh
    have hmeets : meeting low high (b.actionIntervals id) ≠ [] :=
      (htiled.gross id).meets hpos (hnet ▸ htiled.net_le id) hlt
    obtain ⟨source, hsource⟩ := List.exists_mem_of_ne_nil _ hmeets
    refine List.ne_nil_of_mem (a := source) ?_
    simp only [LedgerBuilder.layer, evidenceOf, List.mem_insertionSort, List.mem_dedup,
      List.mem_flatMap]
    exact ⟨id, mem_contributorsAt.2 ⟨hid, hnet.ge⟩, hsource⟩

/-- When the antes are equal, a player who has not folded is in every layer. -/
theorem layer_eligible {leader : String} (hid : leader ∈ hand.playerIds)
    (hunfolded : b.foldedAt leader = none) (hmost : ∀ id ∈ hand.playerIds, b.net id ≤ b.net leader)
    {l : PotLayerV1} (hl : l ∈ cutLayers hand b 0 0 (positiveLevels hand b.net)) :
    leader ∈ l.contributors ∧ leader ∈ l.eligiblePlayers := by
  obtain ⟨n, low, high, rfl, _, _, hhigh⟩ := mem_cutLayers (pairwise_positiveLevels b.net) hl
  obtain ⟨_, id, hother, hnet⟩ := mem_positiveLevels.1 hhigh
  have hmem : leader ∈ contributorsAt hand b.net high :=
    mem_contributorsAt.2 ⟨hid, hnet ▸ hmost id hother⟩
  refine ⟨hmem, ?_⟩
  simp [LedgerBuilder.layer, eligibleOf, canonicalPlayers, hmem, hunfolded]

theorem antesOf_eq_filter (actions : List HandAction) (id : String) :
    antesOf unit actions id =
      (((actions.filter fun action => action.action = .postAnte).filter fun action =>
        action.actor = id).map fun action => (decimalUnits action.amount unit).toOption.getD 0).sum := by
  rw [antesOf, List.filter_filter]
  simp [and_comm]

/-- The profile asks every player for the same ante. -/
theorem Profiled.antesOf_eq (h : Profiled hand unit smallBlind bigBlind ante) :
    ∀ id ∈ hand.playerIds, antesOf unit hand.actions id = ante := by
  intro id hid
  have hantes := h.antes
  unfold checkAntes at hantes
  rw [antesOf_eq_filter]
  generalize hand.actions.filter (fun action => action.action = .postAnte) = posted at hantes
  dsimp only at hantes
  split at hantes
  · next hzero =>
    rw [require_eq_ok] at hantes
    simp [hantes, hzero]
  · simp only [bind_eq_ok, require_eq_ok, exists_const, forM_eq_ok] at hantes
    obtain ⟨⟨hlength, hactors⟩, hall⟩ := hantes
    have hnodup : (posted.map (·.actor)).Nodup := by
      have hcard : (posted.map (·.actor)).toFinset.card = (posted.map (·.actor)).length := by
        rw [hactors, CanonicalHand.playerIds, List.toFinset_card_of_nodup hand.unique_ids,
          List.length_map, List.length_map, hlength]
      exact (Multiset.toFinset_card_eq_card_iff_nodup (m := Multiset.ofList (posted.map HandAction.actor))).1 hcard
    have hone : (posted.filter fun action => action.actor = id).length = 1 := by
      have hmem : id ∈ posted.map (·.actor) := by
        rw [← List.mem_toFinset, hactors, List.mem_toFinset]
        exact hid
      have := List.count_eq_one_of_mem hnodup hmem
      rw [List.count, List.countP_map, List.countP_eq_length_filter] at this
      simpa [Function.comp_def, beq_eq_decide] using this
    obtain ⟨action, haction⟩ := List.length_eq_one_iff.1 hone
    have hin : action ∈ posted := by
      have : action ∈ posted.filter fun action => action.actor = id := by simp [haction]
      exact (List.mem_filter.1 this).1
    obtain ⟨_, amount, hunits, hamount⟩ := hall action hin
    simp [haction, hunits, hamount, Except.toOption]

theorem checkLayer_guards {codes : List String} {l : PotLayerV1}
    (hcodes : ∀ code ∈ codes, code ∈ guardCodes)
    (heligible : "pot-layer-has-no-eligible-player" ∈ codes → l.eligiblePlayers ≠ [])
    (hamount : 0 < l.amountUnits ∧ l.amountUnits ≤ MAX_LEDGER_UNITS)
    (hevidence : l.evidenceActionIndexes ≠ []) :
    NeverRaises codes (LedgerBuilder.checkLayer l) := by
  have hcheck : NeverRaises guardCodes l.check := by simp [PotLayerV1.check, mem_guardCodes]
  simp only [LedgerBuilder.checkLayer, neverRaises_bind, neverRaises_require]
  exact ⟨heligible, fun _ _ => ⟨fun _ => hamount, fun _ _ => ⟨fun _ => hevidence, fun _ _ =>
    hcheck.mono hcodes⟩⟩⟩

/-- The result of a hand raises a guard only where a layer has no eligible player. -/
theorem settle_guards {codes : List String} (hbooks : Accounts hand b) (htiled : Tiled b)
    (hcodes : ∀ code ∈ codes, code ∈ guardCodes)
    (heligible : "pot-layer-has-no-eligible-player" ∈ codes →
      ∀ l ∈ cutLayers hand b 0 0 (positiveLevels hand b.net), l.eligiblePlayers ≠ []) :
    NeverRaises codes (b.settle hand unit) := by
  have hrest : ∀ potLayers : List PotLayerV1,
      NeverRaises codes (forM (b.eligibility hand) PlayerEligibilityV1.check) ∧
        NeverRaises codes ((b.output hand unit potLayers).check hand) := by
    refine fun potLayers => ⟨NeverRaises.mono (neverRaises_forM _ fun e _ => ?_) hcodes,
      NeverRaises.mono ?_ hcodes⟩
    · simp [PlayerEligibilityV1.check, mem_guardCodes]
    · simp [HandPotLedgerOutputV1.check, HandPotLedgerOutputV1.accountingIdentitiesHold,
        mem_guardCodes]
  have hother : ∀ code, code ∉ guardCodes → code ∉ codes := fun code hnot hin =>
    hnot (hcodes code hin)
  have hlayers : NeverRaises codes (b.layers hand 0 0 (positiveLevels hand b.net)) :=
    layers_neverRaises fun l hl =>
      have hsound := layer_sound hbooks htiled hl
      checkLayer_guards hcodes (fun hin => heligible hin l hl) hsound.1 hsound.2
  simp only [LedgerBuilder.settle, neverRaises_bind, neverRaises_require, neverRaises_pure,
    implies_true, and_true]
  exact ⟨fun hin => absurd hin (hother _ (by simp [mem_guardCodes])), fun _ _ =>
    ⟨fun hin => absurd hin (hother _ (by simp [mem_guardCodes])), fun _ _ =>
      ⟨fun hin => absurd hin (hother _ (by simp [mem_guardCodes])), fun _ _ =>
        ⟨hlayers, fun potLayers _ => ⟨(hrest potLayers).1, fun _ _ => (hrest potLayers).2⟩⟩⟩⟩⟩

theorem finish_guards {codes : List String} {actions : List HandAction}
    (h : replay hand unit bigBlind actions = .ok b) (hcodes : ∀ code ∈ codes, code ∈ guardCodes)
    (heligible : "pot-layer-has-no-eligible-player" ∈ codes → ∀ closed, Closes hand b closed →
      ∀ l ∈ cutLayers hand closed 0 0 (positiveLevels hand closed.net), l.eligiblePlayers ≠ []) :
    NeverRaises codes (b.finish hand unit) := by
  obtain ⟨top, hleading⟩ := leading_of_replay h
  obtain ⟨htiled, hstreet⟩ := tiled_of_replay h
  simp only [LedgerBuilder.finish, neverRaises_bind, neverRaises_require]
  refine ⟨fun hin => absurd (hcodes _ hin) (by simp [mem_guardCodes]), fun _ _ =>
    ⟨(hleading.closeStreet_guards (betting_of_replay h) hstreet).mono hcodes,
      fun closed hclosed => ?_⟩⟩
  obtain ⟨_, _, hcloses⟩ := closeStreet_closes hclosed
  exact settle_guards ((accounts_of_replay h).closes hcloses) (htiled.closes hcloses) hcodes
    fun hin => heligible hin closed hcloses

/-- At the end of a hand a player who has not folded is in every layer. -/
theorem closed_leader (hprofile : Profiled hand unit smallBlind bigBlind ante)
    (h : replay hand unit bigBlind hand.actions = .ok b) (hcloses : Closes hand b closed) :
    ∃ leader, b.foldedAt leader = none ∧
      ∀ l ∈ cutLayers hand closed 0 0 (positiveLevels hand closed.net),
        leader ∈ l.contributors ∧ leader ∈ l.eligiblePlayers := by
  obtain ⟨top, hleading⟩ := leading_of_replay h
  obtain ⟨top', hbelow, ⟨leader, hactive, htop⟩, _⟩ := hleading.closes (betting_of_replay h) hcloses
  have hlisted := hleading.listed leader hactive
  have hunfolded := hleading.unfolded leader hactive
  have hfolded : closed.foldedAt = b.foldedAt := by cases hcloses <;> rfl
  refine ⟨leader, hunfolded, fun l hl => ?_⟩
  refine layer_eligible hlisted (hfolded ▸ hunfolded) (fun id hid => ?_) hl
  have hantes := hprofile.antesOf_eq
  have := hbelow id hid
  rw [hantes id hid] at this
  rw [hantes leader hlisted] at htop
  omega

/-- The guards of a hand that the profile accepts never fire: none when an
action is applied to an accepted sequence of actions or such a sequence is
finished, but the one on eligible players, and that one not on the hand itself. -/
theorem side_pot_soundness
    (h : validateProfileHand hand unit = .ok (smallBlind, bigBlind, ante)) :
    (∀ actions b, replay hand unit bigBlind actions = .ok b →
      (∀ id, b.highestPlayers hand = [id] → b.foldedAt id = none) ∧
        (∀ index action, NeverRaises guardCodes (b.apply hand unit bigBlind index action)) ∧
        ∀ code ∈ guardCodes, code ≠ "pot-layer-has-no-eligible-player" →
          b.finish hand unit ≠ .error code) ∧
      ∀ b, replay hand unit bigBlind hand.actions = .ok b →
        NeverRaises guardCodes (b.finish hand unit) ∧
          ∀ out, b.finish hand unit = .ok out →
            ∀ l ∈ out.potLayers, ∃ id ∈ l.contributors, b.foldedAt id = none := by
  have hprofile := profiled_of_ok h
  refine ⟨fun actions b hb => ⟨fun id halone => ?_, fun index action => ?_,
    fun code hcode hne => ?_⟩, fun b hb => ⟨?_, fun out hout l hl => ?_⟩⟩
  · obtain ⟨top, hleading⟩ := leading_of_replay hb
    exact hleading.unfolded id (hleading.alone (betting_of_replay hb) halone).1
  · obtain ⟨top, hleading⟩ := leading_of_replay hb
    exact hleading.apply_guards (betting_of_replay hb) (tiled_of_replay hb).2
  · have hfinish : NeverRaises [code] (b.finish hand unit) :=
      finish_guards hb (by simpa using hcode) fun hin => absurd (List.mem_singleton.1 hin).symm hne
    exact hfinish code List.mem_cons_self
  · refine finish_guards hb (fun _ => id) fun _ closed hcloses l hl => ?_
    obtain ⟨leader, _, hin⟩ := closed_leader hprofile hb hcloses
    exact List.ne_nil_of_mem (hin l hl).2
  · simp only [LedgerBuilder.finish, LedgerBuilder.settle, bind_eq_ok, pure_eq_ok] at hout
    obtain ⟨_, _, closed, hclosed, _, _, _, _, _, _, potLayers, hlayers, _, _, _, _, rfl⟩ := hout
    obtain ⟨_, _, hcloses⟩ := closeStreet_closes hclosed
    obtain ⟨rfl, _⟩ := layers_eq_ok.1 hlayers
    obtain ⟨leader, hunfolded, hin⟩ := closed_leader hprofile hb hcloses
    exact ⟨leader, (hin l hl).1, hunfolded⟩

theorem side_pot_soundness_side_pot : ∃ b out,
    replay sidePotHand 1 2 sidePotHand.actions = .ok b ∧ b.finish sidePotHand 1 = .ok out ∧
      out.potLayers.map (·.amountUnits) = [60, 42] ∧
      NeverRaises guardCodes (b.finish sidePotHand 1) ∧
      ∀ l ∈ out.potLayers, ∃ id ∈ l.contributors, b.foldedAt id = none := by
  obtain ⟨b, hb, hlayers⟩ : ∃ b, replay sidePotHand 1 2 sidePotHand.actions = .ok b ∧
      (b.finish sidePotHand 1).map (fun out => out.potLayers.map (·.amountUnits)) = .ok [60, 42] :=
    map_eq_ok.1 (by decide +kernel)
  obtain ⟨out, hout, hamounts⟩ := map_eq_ok.1 hlayers
  obtain ⟨_, hfinish⟩ := side_pot_soundness
    (show validateProfileHand sidePotHand 1 = .ok (1, 2, 1) by decide +kernel)
  obtain ⟨hguards, hcontributors⟩ := hfinish b hb
  exact ⟨b, out, hb, hout, hamounts, hguards, hcontributors out hout⟩

end

end PokerDeliberation.Ledger
