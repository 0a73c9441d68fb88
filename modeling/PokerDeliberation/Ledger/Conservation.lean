import PokerDeliberation.Ledger.Moves
import PokerDeliberation.Lib.Keyed
import PokerDeliberation.Lib.Layers

/-!
# Chip conservation

`Accounts` says that the books balance: every player's stack is the starting
stack less the net contribution, and the totals are the sums over the players.
It holds after every accepted action and is kept when a street is closed, so
the guards of `finish` on the totals never reject.
-/

namespace PokerDeliberation.Ledger

open Lib Hands

section

variable {hand : CanonicalHand} {unit : ℚ} {bigBlind : Int}
variable {b b' s closed core : LedgerBuilder} {index : Nat} {action : HandAction} {street : Street}
variable {actor : String} {amount : Int}

/-! ## A new builder -/

theorem sum_checkedAdd {stackUnits : List (String × Int)} {start total : Int}
    (h : stackUnits.foldlM (fun total s => checkedAdd total s.2) start = .ok total) :
    (∀ s ∈ stackUnits, 0 ≤ s.2) ∧ total = start + (stackUnits.map (·.2)).sum := by
  induction stackUnits generalizing start with
  | nil =>
    simp only [List.foldlM_nil, pure_eq_ok] at h
    simp [h]
  | cons s rest ih =>
    simp only [List.foldlM_cons, bind_eq_ok] at h
    obtain ⟨next, hnext, hrest⟩ := h
    obtain ⟨_, hs, rfl, _⟩ := checkedAdd_ok hnext
    obtain ⟨hall, rfl⟩ := ih hrest
    refine ⟨List.forall_mem_cons.2 ⟨hs, hall⟩, ?_⟩
    rw [List.map_cons, List.sum_cons]
    omega

/-- The value recorded for an id. -/
def lookupUnits (stackUnits : List (String × Int)) (id : String) : Int :=
  ((stackUnits.find? fun s => s.1 = id).map (·.2)).getD 0

theorem lookupUnits_of_mem {stackUnits : List (String × Int)}
    (hnodup : (stackUnits.map (·.1)).Nodup) {s : String × Int} (hs : s ∈ stackUnits) :
    lookupUnits stackUnits s.1 = s.2 := by
  have hfind : (stackUnits.find? fun other => other.1 = s.1) = some s :=
    (Keyed.find_eq_some_iff hnodup).2 ⟨hs, rfl⟩
  simp only [lookupUnits, hfind, Option.map_some, Option.getD_some]

theorem lookupUnits_nonneg {stackUnits : List (String × Int)} (h : ∀ s ∈ stackUnits, 0 ≤ s.2)
    (id : String) : 0 ≤ lookupUnits stackUnits id := by
  unfold lookupUnits
  cases hfind : stackUnits.find? fun s => s.1 = id with
  | none => exact le_rfl
  | some s => exact h s (List.mem_of_find?_eq_some hfind)

theorem init_ok (h : LedgerBuilder.init hand unit bigBlind = .ok b) :
    ∃ starting startingTotal,
      b = { starting, startingTotal, remaining := starting, active := hand.playerIds.toFinset
            minimumFullRaise := bigBlind } ∧
      (∀ player ∈ hand.players,
        decimalUnits player.startingStack unit = .ok (starting player.playerId)) ∧
      (∀ id, 0 ≤ starting id) ∧ sumOver hand.playerIds starting = startingTotal := by
  simp only [LedgerBuilder.init, bind_eq_ok, mapM_eq_ok, require_eq_ok, exists_const,
    pure_eq_ok] at h
  obtain ⟨stackUnits, hstacks, total, htotal, _, rfl⟩ := h
  obtain ⟨hnonneg, htotal⟩ := sum_checkedAdd htotal
  have hkeys : stackUnits.map (·.1) = hand.playerIds := by
    symm
    refine List.forall₂_eq_eq_eq ▸ ?_
    rw [CanonicalHand.playerIds, List.forall₂_map_left_iff, List.forall₂_map_right_iff]
    refine hstacks.imp fun player s => ?_
    rintro ⟨units, _, rfl⟩
    rfl
  have hnodup : (stackUnits.map (·.1)).Nodup := hkeys ▸ hand.unique_ids
  refine ⟨lookupUnits stackUnits, total, rfl, fun player hplayer => ?_,
    lookupUnits_nonneg hnonneg, ?_⟩
  · obtain ⟨s, hs, units, hunits, rfl⟩ := exists_of_forall₂ hstacks hplayer
    rw [lookupUnits_of_mem hnodup hs]
    exact hunits
  · rw [sumOver, ← hkeys, List.map_map, htotal, zero_add]
    refine congrArg List.sum (List.map_congr_left fun s hs => ?_)
    exact lookupUnits_of_mem hnodup hs

/-! ## The books -/

structure Accounts (hand : CanonicalHand) (b : LedgerBuilder) : Prop where
  balance : ∀ id, b.starting id = b.remaining id + b.net id
  remaining_nonneg : ∀ id, 0 ≤ b.remaining id
  street_nonneg : ∀ id, 0 ≤ b.streetContribution id
  street_le_net : ∀ id, b.streetContribution id ≤ b.net id
  starting_sum : sumOver hand.playerIds b.starting = b.startingTotal
  gross_sum : sumOver hand.playerIds b.gross = b.grossTotal
  net_sum : sumOver hand.playerIds b.net = b.netTotal
  returned_sum : (b.returns.map (·.amountUnits)).sum = b.returnedTotal
  gross_total : b.grossTotal = b.netTotal + b.returnedTotal
  broke : ∀ id ∈ b.allIn, b.remaining id = 0
  all_in : ∀ id ∈ hand.playerIds, 0 < b.starting id → b.remaining id = 0 → id ∈ b.allIn

theorem sumOver_update {values : String → Int} (hactor : actor ∈ hand.playerIds) (v : Int) :
    sumOver hand.playerIds (Function.update values actor v) =
      sumOver hand.playerIds values + (v - values actor) :=
  sum_map_update hand.unique_ids hactor

theorem Accounts.net_nonneg (h : Accounts hand b) (id : String) : 0 ≤ b.net id :=
  (h.street_nonneg id).trans (h.street_le_net id)

theorem Accounts.of_init (h : LedgerBuilder.init hand unit bigBlind = .ok b) : Accounts hand b := by
  obtain ⟨starting, startingTotal, rfl, _, hnonneg, hsum⟩ := init_ok h
  constructor <;> simp_all [sumOver]
  intro id _ hpos hzero
  omega

theorem Accounts.of_notes (h : Accounts hand b) (hnotes : Notes b b') : Accounts hand b' := by
  obtain ⟨_, _, _, _, _, rfl⟩ := hnotes
  exact ⟨h.balance, h.remaining_nonneg, h.street_nonneg, h.street_le_net, h.starting_sum,
    h.gross_sum, h.net_sum, h.returned_sum, h.gross_total, h.broke, h.all_in⟩

theorem Accounts.opened (h : Accounts hand b) (order : Int) :
    Accounts hand (b.opened bigBlind street order) :=
  ⟨h.balance, h.remaining_nonneg, fun _ => le_rfl, h.net_nonneg, h.starting_sum,
    h.gross_sum, h.net_sum, h.returned_sum, h.gross_total, h.broke, h.all_in⟩

theorem Accounts.committed (h : Accounts hand b) (hactor : actor ∈ hand.playerIds)
    (hnonneg : 0 ≤ amount) (hle : amount ≤ b.remaining actor) (countsForBet : Bool) :
    Accounts hand (b.committed index actor amount countsForBet) where
  balance id := by
    have := h.balance id
    obtain rfl | hne := eq_or_ne id actor
    · simp only [committed_starting, committed_remaining, committed_net, if_pos]
      omega
    · simpa [hne] using this
  remaining_nonneg id := by
    have := h.remaining_nonneg id
    rw [committed_remaining]
    split
    · next heq => subst heq; omega
    · exact this
  street_nonneg id := by
    have := h.street_nonneg id
    rw [committed_streetContribution]
    split <;> omega
  street_le_net id := by
    have := h.street_le_net id
    obtain rfl | hne := eq_or_ne id actor
    · rw [committed_streetContribution, committed_net, if_pos rfl]
      split <;> omega
    · simpa [hne] using this
  starting_sum := h.starting_sum
  gross_sum := by
    rw [committed_grossTotal, ← h.gross_sum]
    refine (sumOver_update hactor _).trans ?_
    omega
  net_sum := by
    rw [committed_netTotal, ← h.net_sum]
    refine (sumOver_update hactor _).trans ?_
    omega
  returned_sum := h.returned_sum
  gross_total := by
    have := h.gross_total
    rw [committed_grossTotal, committed_netTotal, committed_returnedTotal]
    omega
  broke id hid := by
    rw [committed_remaining]
    obtain rfl | hne := eq_or_ne id actor
    · rw [if_pos rfl]
      by_cases hzero : b.remaining id - amount = 0
      · exact hzero
      · rw [committed_allIn, if_neg hzero] at hid
        have := h.broke id hid
        omega
    · rw [if_neg hne]
      exact h.broke id ((mem_committed_allIn_of_ne hne).1 hid)
  all_in id hid hpos hzero := by
    obtain rfl | hne := eq_or_ne id actor
    · rw [committed_remaining, if_pos rfl] at hzero
      rw [committed_allIn, if_pos hzero]
      exact Finset.mem_insert_self id _
    · rw [committed_remaining, if_neg hne] at hzero
      exact (mem_committed_allIn_of_ne hne).2 (h.all_in id hid hpos hzero)

theorem Accounts.returned {total : Int} {record : UncalledReturnV1} {id : String}
    (h : Accounts hand b) (hid : id ∈ hand.playerIds) (hpos : 0 < amount)
    (hle : amount ≤ b.streetContribution id) (htotal : total = b.returnedTotal + amount)
    (hrecord : record.amountUnits = amount) :
    Accounts hand (b.returned id amount total record) where
  balance other := by
    have := h.balance other
    obtain rfl | hne := eq_or_ne other id
    · simp only [returned_starting, returned_remaining, returned_net, if_pos]
      omega
    · simpa [hne] using this
  remaining_nonneg other := by
    have := h.remaining_nonneg other
    rw [returned_remaining]
    split <;> omega
  street_nonneg other := by
    have := h.street_nonneg other
    rw [returned_streetContribution]
    split
    · next heq => subst heq; omega
    · omega
  street_le_net other := by
    have := h.street_le_net other
    rw [returned_streetContribution, returned_net]
    split <;> omega
  starting_sum := h.starting_sum
  gross_sum := h.gross_sum
  net_sum := by
    rw [returned_netTotal, ← h.net_sum]
    refine (sumOver_update hid _).trans ?_
    omega
  returned_sum := by
    rw [returned_returns, returned_returnedTotal, List.map_append, List.sum_append,
      h.returned_sum, htotal]
    simp [hrecord]
  gross_total := by
    have := h.gross_total
    rw [returned_grossTotal, returned_netTotal, returned_returnedTotal]
    omega
  broke other hother := by
    have hstack := h.remaining_nonneg id
    rw [returned_allIn, if_pos (by omega), Finset.mem_erase] at hother
    rw [returned_remaining, if_neg hother.1]
    exact h.broke other hother.2
  all_in other hother hstarting hzero := by
    have hstack := h.remaining_nonneg id
    rw [returned_allIn, if_pos (by omega), Finset.mem_erase]
    obtain rfl | hne := eq_or_ne other id
    · rw [returned_remaining, if_pos rfl] at hzero
      omega
    · rw [returned_remaining, if_neg hne] at hzero
      exact ⟨hne, h.all_in other hother hstarting hzero⟩

/-- The only highest player of a street. -/
theorem highestPlayers_eq {id : String} (h : b.highestPlayers hand = [id]) :
    id ∈ hand.playerIds ∧ b.streetContribution id = b.highestOf hand.playerIds ∧
      0 < b.highestOf hand.playerIds := by
  have hid : id ∈ b.highestPlayers hand := by rw [h]; exact List.mem_singleton_self id
  simpa [LedgerBuilder.highestPlayers] using hid

theorem Accounts.closes (h : Accounts hand b) (hcloses : Closes hand b closed) :
    Accounts hand closed := by
  cases hcloses with
  | called => exact h
  | @uncalled id street amount total record halone hamount hpos _ _ _ _ htotal hrecord =>
    obtain ⟨hid, hhighest, _⟩ := highestPlayers_eq halone
    have hsecond : 0 ≤ b.second hand id := init_le_foldl_max
    exact h.returned hid hpos (by omega) htotal (by rw [hrecord])

theorem Accounts.enters (h : Accounts hand b) (henters : Enters hand bigBlind b street s) :
    Accounts hand s := by
  cases henters with
  | same => exact h
  | first => exact h.opened _
  | next _ _ _ _ hcloses => exact (h.closes hcloses).opened _

theorem Accounts.moves (h : Accounts hand b) (hactor : action.actor ∈ hand.playerIds)
    (hmoves : Moves b index action amount core) : Accounts hand core := by
  cases hmoves with
  | ante _ hnonneg hle => exact h.committed hactor hnonneg hle false
  | wager _ hnonneg hle =>
    have : Accounts hand (b.committed index action.actor amount true) :=
      h.committed hactor hnonneg hle true
    exact ⟨this.balance, this.remaining_nonneg, this.street_nonneg, this.street_le_net,
      this.starting_sum, this.gross_sum, this.net_sum, this.returned_sum, this.gross_total,
      this.broke, this.all_in⟩
  | check => exact h
  | fold =>
    exact ⟨h.balance, h.remaining_nonneg, h.street_nonneg, h.street_le_net, h.starting_sum,
      h.gross_sum, h.net_sum, h.returned_sum, h.gross_total, h.broke, h.all_in⟩

theorem Accounts.accepts (h : Accounts hand b)
    (haccepts : Accepts hand unit bigBlind b index action b') : Accounts hand b' := by
  obtain ⟨hlisted, henters, _, _, _, hmoves, hnotes⟩ := haccepts
  exact ((h.enters henters).moves hlisted hmoves).of_notes hnotes

/-- The books balance after every accepted sequence of actions. -/
theorem accounts_of_replay {actions : List HandAction}
    (h : replay hand unit bigBlind actions = .ok b) : Accounts hand b :=
  replay_induction (I := fun _ b => Accounts hand b) (fun _ => Accounts.of_init)
    (fun _ _ _ _ => Accounts.accepts) h

/-! ## The bet -/

/-- The bet is the highest contribution to the street, and a player who has not
folded has made it. -/
structure Betting (hand : CanonicalHand) (b : LedgerBuilder) : Prop where
  street_nonneg : ∀ id, 0 ≤ b.streetContribution id
  le_bet : ∀ id, b.streetContribution id ≤ b.currentBet
  reached : b.currentBet = 0 ∨
    ∃ id ∈ hand.playerIds, id ∈ b.active ∧ b.streetContribution id = b.currentBet

theorem Betting.bet_eq (h : Betting hand b) : b.currentBet = b.highestOf hand.playerIds := by
  refine (foldl_max_eq ?_ ?_ ?_).symm
  · obtain hzero | ⟨id, _, _, heq⟩ := h.reached
    · exact hzero.ge
    · exact heq ▸ h.street_nonneg id
  · rw [List.forall_mem_map]
    exact fun id _ => h.le_bet id
  · obtain hzero | ⟨id, hid, _, heq⟩ := h.reached
    · exact .inl hzero
    · exact .inr (List.mem_map.2 ⟨id, hid, heq⟩)

theorem Betting.start (hstreet : b.streetContribution = fun _ => 0) (hbet : b.currentBet = 0) :
    Betting hand b :=
  ⟨fun _ => by rw [hstreet], fun _ => by rw [hstreet, hbet], .inl hbet⟩

theorem Betting.enters (h : Betting hand b) (henters : Enters hand bigBlind b street s) :
    Betting hand s := by
  cases henters with
  | same => exact h
  | first => exact .start rfl rfl
  | next => exact .start rfl rfl

theorem Betting.moves (h : Betting hand b) (hactor : action.actor ∈ hand.playerIds)
    (hactive : action.actor ∈ b.active) (hmoves : Moves b index action amount core) :
    Betting hand core := by
  cases hmoves with
  | ante => exact ⟨by simpa using h.street_nonneg, by simpa using h.le_bet, by simpa using h.reached⟩
  | @wager bet _ hnonneg _ _ hbet =>
    have hpaid : ∀ id, id ≠ action.actor →
        (b.committed index action.actor amount true).streetContribution id =
          b.streetContribution id := fun id hne => by simp [hne]
    have hactorPaid : (b.committed index action.actor amount true).streetContribution action.actor =
        b.streetContribution action.actor + amount := by simp
    refine ⟨fun id => ?_, fun id => ?_, ?_⟩
    · have := h.street_nonneg id
      dsimp only
      rw [committed_streetContribution]
      split <;> omega
    · have := h.le_bet id
      dsimp only
      rw [committed_streetContribution]
      split
      · next heq => obtain ⟨rfl, _⟩ := heq; omega
      · omega
    · dsimp only
      by_cases hover : b.currentBet ≤ b.streetContribution action.actor + amount
      · exact .inr ⟨_, hactor, hactive, by omega⟩
      · refine h.reached.imp (fun hzero => ?_) fun ⟨id, hid, hin, heq⟩ => ?_
        · have := h.street_nonneg action.actor
          omega
        · have hne : id ≠ action.actor := by rintro rfl; omega
          exact ⟨id, hid, hin, by rw [hpaid id hne]; omega⟩
  | check => exact h
  | fold _ hfacing =>
    refine ⟨h.street_nonneg, h.le_bet, h.reached.imp id fun ⟨id, hid, hin, heq⟩ => ?_⟩
    have hne : id ≠ action.actor := by rintro rfl; omega
    exact ⟨id, hid, Finset.mem_erase.2 ⟨hne, hin⟩, heq⟩

theorem Betting.of_notes (h : Betting hand b) (hnotes : Notes b b') : Betting hand b' := by
  obtain ⟨_, _, _, _, _, rfl⟩ := hnotes
  exact ⟨h.street_nonneg, h.le_bet, h.reached⟩

theorem betting_of_replay {actions : List HandAction}
    (h : replay hand unit bigBlind actions = .ok b) : Betting hand b := by
  refine replay_induction (I := fun _ b => Betting hand b) (fun b hb => ?_)
    (fun _ b action b' hb haccepts => ?_) h
  · obtain ⟨_, _, rfl, _⟩ := init_ok hb
    exact .start rfl rfl
  · obtain ⟨hlisted, henters, hactive, _, _, hmoves, hnotes⟩ := haccepts
    exact ((hb.enters henters).moves hlisted hactive hmoves).of_notes hnotes

/-! ## The pot layers -/

/-- The layers between the levels, before any check on them. -/
def cutLayers (hand : CanonicalHand) (b : LedgerBuilder) :
    Nat → Int → List Int → List PotLayerV1
  | _, _, [] => []
  | layerIndex, lower, upper :: levels =>
    b.layer hand layerIndex lower upper :: cutLayers hand b (layerIndex + 1) upper levels

theorem layers_eq_ok {layerIndex : Nat} {lower : Int} {levels : List Int}
    {potLayers : List PotLayerV1} :
    b.layers hand layerIndex lower levels = .ok potLayers ↔
      potLayers = cutLayers hand b layerIndex lower levels ∧
        ∀ l ∈ potLayers, LedgerBuilder.checkLayer l = .ok () := by
  induction levels generalizing layerIndex lower potLayers with
  | nil => simp +contextual [LedgerBuilder.layers, cutLayers, eq_comm]
  | cons upper levels ih =>
    simp only [LedgerBuilder.layers, bind_eq_ok, pure_eq_ok, ih, cutLayers]
    constructor
    · rintro ⟨_, hcheck, rest, ⟨rfl, hall⟩, rfl⟩
      exact ⟨rfl, List.forall_mem_cons.2 ⟨hcheck, hall⟩⟩
    · rintro ⟨rfl, hall⟩
      obtain ⟨hcheck, hall⟩ := List.forall_mem_cons.1 hall
      exact ⟨_, hcheck, _, ⟨rfl, hall⟩, rfl⟩

theorem layers_neverRaises {codes : List String} {layerIndex : Nat} {lower : Int}
    {levels : List Int}
    (h : ∀ l ∈ cutLayers hand b layerIndex lower levels,
      NeverRaises codes (LedgerBuilder.checkLayer l)) :
    NeverRaises codes (b.layers hand layerIndex lower levels) := by
  induction levels generalizing layerIndex lower with
  | nil => exact neverRaises_ok
  | cons upper levels ih =>
    obtain ⟨hcheck, hall⟩ := List.forall_mem_cons.1 h
    simp only [LedgerBuilder.layers, neverRaises_bind]
    exact ⟨hcheck, fun _ _ => ⟨ih hall, fun _ _ => neverRaises_pure⟩⟩

theorem length_contributorsAt (values : String → Int) (upper : Int) :
    (contributorsAt hand values upper).length =
      (hand.playerIds.map values).countP (upper ≤ ·) := by
  rw [contributorsAt, canonicalPlayers, List.length_insertionSort, List.countP_map,
    List.countP_eq_length_filter]
  rfl

theorem sum_cutLayers (layerIndex : Nat) (lower : Int) (levels : List Int) :
    ((cutLayers hand b layerIndex lower levels).map (·.amountUnits)).sum =
      layersTotal (hand.playerIds.map b.net) lower levels := by
  induction levels generalizing layerIndex lower with
  | nil => rfl
  | cons upper levels ih =>
    rw [cutLayers, List.map_cons, List.sum_cons, ih, layersTotal, LedgerBuilder.layer,
      length_contributorsAt]

theorem mem_positiveLevels {values : String → Int} {level : Int} :
    level ∈ positiveLevels hand values ↔ 0 < level ∧ ∃ id ∈ hand.playerIds, values id = level := by
  simp only [positiveLevels, List.mem_insertionSort, List.mem_dedup, List.mem_filter, List.mem_map,
    decide_eq_true_eq]
  exact and_comm

theorem pairwise_positiveLevels (values : String → Int) :
    (0 :: positiveLevels hand values).Pairwise (· < ·) :=
  List.pairwise_cons.2 ⟨fun _ h => (mem_positiveLevels.1 h).1,
    pairwise_sort_dedup _⟩

/-- The layers of the players' net contributions add up to the pot. -/
theorem Accounts.layersTotal_eq (h : Accounts hand b) :
    layersTotal (hand.playerIds.map b.net) 0 (positiveLevels hand b.net) = b.netTotal := by
  rw [layersTotal_zero_eq_sum (pairwise_positiveLevels b.net)]
  · exact h.net_sum
  · rw [List.forall_mem_map]
    exact fun id hid hpos => mem_positiveLevels.2 ⟨hpos, id, hid, rfl⟩
  · rw [List.forall_mem_map]
    exact fun id _ => h.net_nonneg id

theorem Accounts.sum_layers (h : Accounts hand b) {potLayers : List PotLayerV1}
    (hlayers : b.layers hand 0 0 (positiveLevels hand b.net) = .ok potLayers) :
    (potLayers.map (·.amountUnits)).sum = b.netTotal := by
  obtain ⟨rfl, _⟩ := layers_eq_ok.1 hlayers
  rw [sum_cutLayers, h.layersTotal_eq]

/-! ## The guards of `finish` -/

/-- The codes of the conservation guards of `finish` and of its result. -/
def conservationCodes : List String :=
  ["gross-net-return-conservation-failed", "stack-pot-conservation-failed",
    "gross-contribution-sum-invalid", "net-contribution-sum-invalid", "return-sum-invalid",
    "gross-net-return-conservation-invalid", "pot-layer-sum-invalid",
    "stack-pot-conservation-invalid"]

theorem Accounts.remaining_sum (h : Accounts hand b) :
    sumOver hand.playerIds b.remaining + b.netTotal = b.startingTotal := by
  rw [← h.net_sum, ← h.starting_sum, sumOver, sumOver, sumOver, ← List.sum_map_add]
  refine congrArg List.sum (List.map_congr_left fun id _ => ?_)
  exact (h.balance id).symm

/-- Closing a street raises no other error than its own. -/
theorem closeStreet_neverRaises {codes : List String}
    (hinternal : "internal-street-state-invalid" ∉ codes)
    (hmissing : "incomplete-betting-round-missing-action" ∉ codes)
    (hcall : "incomplete-betting-round-outstanding-call" ∉ codes)
    (hoverflow : "ledger-overflow" ∉ codes) (hunits : "amount_units" ∉ codes)
    (hindexes : "source_action_indexes" ∉ codes)
    (hreturn : "ambiguous-uncalled-return" ∈ codes → ∀ id, b.highestPlayers hand = [id] →
      b.second hand id < b.highestOf hand.playerIds → id ∈ b.active ∧
        meeting (b.second hand id) (b.highestOf hand.playerIds) (b.streetIntervals id) ≠ []) :
    NeverRaises codes (b.closeStreet hand) := by
  have hclose : ∀ street, NeverRaises codes (b.returnUncalled hand street) := by
    intro street
    unfold LedgerBuilder.returnUncalled
    split
    · next id halone =>
      have hreturn := fun hin => hreturn hin id halone
      simp only [neverRaises_ite, neverRaises_bind, neverRaises_require, checkedAdd,
        UncalledReturnV1.check, neverRaises_pure, hoverflow, hunits, hindexes,
        sub_pos]
      grind
    · exact neverRaises_ok
  unfold LedgerBuilder.closeStreet
  split
  · simpa using hinternal
  · next street hstreet =>
    simp only [neverRaises_ite, neverRaises_bind]
    refine ⟨fun _ => ⟨neverRaises_forM _ fun id _ => ?_, fun _ _ => hclose street⟩,
      fun _ => hclose street⟩
    simp [hmissing, hcall]

/-- The identities of the output hold of balanced books. -/
theorem Accounts.identities (h : Accounts hand b) {potLayers : List PotLayerV1}
    (hlayers : b.layers hand 0 0 (positiveLevels hand b.net) = .ok potLayers) :
    (b.output hand unit potLayers).accountingIdentitiesHold hand = .ok () := by
  simp only [HandPotLedgerOutputV1.accountingIdentitiesHold, bind_eq_ok, require_eq_ok,
    exists_const]
  exact ⟨h.gross_sum, h.net_sum, h.returned_sum, h.gross_total, h.sum_layers hlayers,
    h.remaining_sum⟩

theorem checkLayer_conserves (l : PotLayerV1) :
    NeverRaises conservationCodes (LedgerBuilder.checkLayer l) := by
  simp [LedgerBuilder.checkLayer, PotLayerV1.check, conservationCodes]

theorem Accounts.settle_conserves (h : Accounts hand b) :
    NeverRaises conservationCodes (b.settle hand unit) := by
  simp only [LedgerBuilder.settle, neverRaises_bind, neverRaises_require, neverRaises_pure,
    implies_true, and_true]
  refine ⟨by simp [conservationCodes], fun _ _ => ⟨fun _ => h.gross_total, fun _ _ =>
    ⟨fun _ => h.remaining_sum, fun _ _ => ⟨layers_neverRaises fun l _ => checkLayer_conserves l,
      fun potLayers hlayers => ⟨neverRaises_forM _ fun e _ => ?_, fun _ _ => ?_⟩⟩⟩⟩⟩
  · simp [PlayerEligibilityV1.check, conservationCodes]
  · simp [HandPotLedgerOutputV1.check, h.identities hlayers, conservationCodes]

theorem Accounts.finish_conserves (h : Accounts hand b) :
    NeverRaises conservationCodes (b.finish hand unit) := by
  simp only [LedgerBuilder.finish, neverRaises_bind, neverRaises_require]
  refine ⟨by simp [conservationCodes], fun _ _ => ⟨?_, fun closed hclosed => ?_⟩⟩
  · apply closeStreet_neverRaises <;> simp [conservationCodes]
  · obtain ⟨_, _, hcloses⟩ := closeStreet_closes hclosed
    exact (h.closes hcloses).settle_conserves

theorem Accounts.finish_layers (h : Accounts hand b) {out : HandPotLedgerOutputV1}
    (hfinish : b.finish hand unit = .ok out) :
    (out.potLayers.map (·.amountUnits)).sum = out.finalPotUnits := by
  simp only [LedgerBuilder.finish, LedgerBuilder.settle, bind_eq_ok, pure_eq_ok] at hfinish
  obtain ⟨_, _, closed, hclosed, _, _, _, _, _, _, potLayers, hlayers, _, _, _, _, rfl⟩ := hfinish
  obtain ⟨_, _, hcloses⟩ := closeStreet_closes hclosed
  exact (h.closes hcloses).sum_layers hlayers

/-- Chips are conserved after every accepted sequence of actions, and a result
is never rejected for its totals. -/
theorem chip_conservation {actions : List HandAction}
    (h : replay hand unit bigBlind actions = .ok b) :
    (∀ id ∈ hand.playerIds, b.starting id = b.remaining id + b.net id ∧ 0 ≤ b.remaining id ∧
        0 ≤ b.net id ∧ (id ∈ b.allIn → b.remaining id = 0) ∧
        (0 < b.starting id → (id ∈ b.allIn ↔ b.remaining id = 0))) ∧
      b.grossTotal = b.netTotal + b.returnedTotal ∧
      b.netTotal = sumOver hand.playerIds b.net ∧
      b.currentBet = b.highestOf hand.playerIds ∧
      NeverRaises conservationCodes (b.finish hand unit) ∧
      ∀ out, b.finish hand unit = .ok out →
        (out.potLayers.map (·.amountUnits)).sum = out.finalPotUnits := by
  have hbooks := accounts_of_replay h
  refine ⟨fun id hid => ?_, hbooks.gross_total, hbooks.net_sum.symm,
    (betting_of_replay h).bet_eq, hbooks.finish_conserves, fun _ => hbooks.finish_layers⟩
  exact ⟨hbooks.balance id, hbooks.remaining_nonneg id, hbooks.net_nonneg id, hbooks.broke id,
    fun hpos => ⟨hbooks.broke id, hbooks.all_in id hid hpos⟩⟩

theorem chip_conservation_empty_stack : ∃ b,
    replay emptyStackHand 1 2 emptyStackHand.actions = .ok b ∧
      b.netTotal = sumOver emptyStackHand.playerIds b.net ∧
      NeverRaises conservationCodes (b.finish emptyStackHand 1) := by
  obtain ⟨b, hb, _⟩ : ∃ b, replay emptyStackHand 1 2 emptyStackHand.actions = .ok b ∧
      b.netTotal = 4 := map_eq_ok.1 (by decide +kernel)
  obtain ⟨_, _, hnet, _, hfinish, _⟩ := chip_conservation hb
  exact ⟨b, hb, hnet, hfinish⟩

/-- A player who started without chips has none, and is not all in. -/
theorem empty_stack_not_all_in : ∃ b out,
    validateProfileHand emptyStackHand 1 = .ok (1, 2, 0) ∧
      replay emptyStackHand 1 2 emptyStackHand.actions = .ok b ∧
      b.finish emptyStackHand 1 = .ok out ∧
      ¬ ("utg" ∈ b.allIn ↔ b.remaining "utg" = 0) := by
  obtain ⟨b, hb, hstate⟩ : ∃ b, replay emptyStackHand 1 2 emptyStackHand.actions = .ok b ∧
      ((b.finish emptyStackHand 1).isOk, decide ("utg" ∈ b.allIn), b.remaining "utg") =
        (true, false, 0) := map_eq_ok.1 (by decide +kernel)
  obtain ⟨hfinish, hallIn, hremaining⟩ := by simpa only [Prod.mk.injEq] using hstate
  cases hout : b.finish emptyStackHand 1 with
  | error e => rw [hout] at hfinish; cases hfinish
  | ok out =>
    refine ⟨b, out, by decide +kernel, hb, hout, fun hiff => ?_⟩
    exact absurd (hiff.2 hremaining) (of_decide_eq_false hallIn)

end

end PokerDeliberation.Ledger
