import PokerDeliberation.Normalization.Models

/-!
# The hand schema

What the schema asks of the data, field by field and of the hand as a whole,
and that its validation passes exactly then. Every number of a hand that passes
is finite, so the hand can be serialized.
-/

namespace PokerDeliberation.Normalization

open Lib

variable {data : HandData} {hand : CanonicalHand} {x : FloatText}

/-- A number of the schema: finite, and at least zero. -/
def IsAmount (x : FloatText) : Prop := ∃ q : ℚ, x = .finite q ∧ 0 ≤ q

/-- What the schema asks of a player. -/
structure PlayerFits (player : PlayerStack) : Prop where
  playerId : player.playerId ≠ []
  position : player.position ≠ []
  startingStack : IsAmount player.startingStack

/-- What the schema asks of an action. -/
structure ActionFits (a : HandAction) : Prop where
  street : a.street ∈ STREETS
  actor : a.actor ≠ []
  action : a.action ∈ ACTIONS
  amount : IsAmount a.amount
  toAmount : ∀ x ∈ a.toAmount, IsAmount x

/-- What the schema asks of the assembled data. -/
structure SatisfiesSchema (data : HandData) : Prop where
  gameType : ∀ t ∈ data.strings .gameType, t ∈ GAME_TYPES
  format : data.strings .format = some (text "cash")
  tableSize : ∃ n, data.tableSize = some n ∧ 2 ≤ n ∧ n ≤ 10
  smallBlind : ∃ q : ℚ, data.numbers .smallBlind = some (.finite q) ∧ 0 < q
  bigBlind : ∃ q : ℚ, data.numbers .bigBlind = some (.finite q) ∧ 0 < q
  ante : ∀ x ∈ data.numbers .ante, IsAmount x
  rake : ∀ x ∈ data.numbers .rake, IsAmount x
  heroCards : ∀ cards ∈ data.cards .heroCards, cards.length ≤ 4
  board : ∀ cards ∈ data.cards .board, cards.length ≤ 5
  seats : 2 ≤ data.players.length
  players : ∀ player ∈ data.players, PlayerFits player
  actions : ∀ action ∈ data.actions, ActionFits action
  distinct : (data.players.map PlayerStack.playerId).Nodup
  hero : ∀ hero ∈ data.strings .heroPlayerId, hero ∈ data.players.map PlayerStack.playerId
  holdem : (data.strings .gameType).getD (text "NLHE") = text "NLHE" →
    ((data.cards .heroCards).getD []).length ∈ [0, 2]

/-! ## Numbers -/

theorem nonNegativeFinite_iff : nonNegativeFinite x = true ↔ IsAmount x := by
  cases x <;> simp [nonNegativeFinite, FloatText.isFinite, FloatText.le, IsAmount]

theorem positiveFinite_iff : positiveFinite x = true ↔ ∃ q : ℚ, x = .finite q ∧ 0 < q := by
  cases x with
  | finite q =>
    simp only [positiveFinite, FloatText.isFinite, FloatText.gt, FloatText.le, Bool.true_and,
      Bool.and_eq_true, decide_eq_true_eq, Bool.not_eq_true', decide_eq_false_iff_not, not_le,
      FloatText.finite.injEq, exists_eq_left']
    exact ⟨fun h => h.2, fun h => ⟨h.le, h⟩⟩
  | infinite negative => simp [positiveFinite, FloatText.isFinite]
  | nan => simp [positiveFinite, FloatText.isFinite]

theorem IsAmount.isFinite (h : IsAmount x) : x.isFinite = true := by
  obtain ⟨q, rfl, -⟩ := h
  rfl

theorem player_valid_iff {player : PlayerStack} : player.valid = true ↔ PlayerFits player := by
  simp only [PlayerStack.valid, Bool.and_eq_true, decide_eq_true_eq, nonNegativeFinite_iff]
  exact ⟨fun ⟨⟨h, h'⟩, h''⟩ => ⟨h, h', h''⟩, fun ⟨h, h', h''⟩ => ⟨⟨h, h'⟩, h''⟩⟩

theorem action_valid_iff {action : HandAction} : action.valid = true ↔ ActionFits action := by
  simp only [HandAction.valid, Bool.and_eq_true, decide_eq_true_eq, nonNegativeFinite_iff,
    Option.all_eq_true]
  exact ⟨fun ⟨⟨⟨⟨a, b⟩, c⟩, d⟩, e⟩ => ⟨a, b, c, d, e⟩, fun ⟨a, b, c, d, e⟩ => ⟨⟨⟨⟨a, b⟩, c⟩, d⟩, e⟩⟩

/-! ## The validation -/

/-- Every field passes and the hand as a whole. -/
theorem modelValidate_ok : modelValidate data = .ok hand ↔
    (∀ field ∈ HAND_FIELDS, fieldValid data field = true) ∧ (handOf data).contextValid = true ∧
      hand = handOf data := by
  have herrors : HAND_FIELDS.filter (fun field => !fieldValid data field) = [] ↔
      ∀ field ∈ HAND_FIELDS, fieldValid data field = true := by
    simp [List.filter_eq_nil_iff]
  unfold modelValidate
  rw [← herrors]
  by_cases h : HAND_FIELDS.filter (fun field => !fieldValid data field) = []
  · simp only [h, ne_eq, not_true_eq_false, if_false, true_and]
    split
    · rename_i hcontext
      simp [hcontext, eq_comm]
    · rename_i hcontext
      simp [hcontext]
  · simp [h]

/-- Data that does not pass has an error somewhere. -/
theorem modelValidate_error {errors : List (Option HandField)}
    (h : modelValidate data = .error errors) : errors ≠ [] := by
  rw [modelValidate] at h
  by_cases hfields : HAND_FIELDS.filter (fun field => !fieldValid data field) = []
  · simp only [hfields, ne_eq, not_true_eq_false, if_false] at h
    split at h
    · cases h
    · cases h
      simp
  · simp only [ne_eq, hfields, not_false_eq_true, if_true, Except.error.injEq] at h
    rw [← h]
    simpa using hfields

theorem fieldsValid_iff : (∀ field ∈ HAND_FIELDS, fieldValid data field = true) ↔
    (∀ t ∈ data.strings .gameType, t ∈ GAME_TYPES) ∧ (∃ t ∈ data.strings .format, t ∈ FORMATS) ∧
    (∃ n, data.tableSize = some n ∧ 2 ≤ n ∧ n ≤ 10) ∧
    (∃ q : ℚ, data.numbers .smallBlind = some (.finite q) ∧ 0 < q) ∧
    (∃ q : ℚ, data.numbers .bigBlind = some (.finite q) ∧ 0 < q) ∧
    (∀ x ∈ data.numbers .ante, IsAmount x) ∧ (∀ x ∈ data.numbers .rake, IsAmount x) ∧
    (2 ≤ data.players.length ∧ ∀ player ∈ data.players, PlayerFits player) ∧
    (∀ cards ∈ data.cards .heroCards, cards.length ≤ 4) ∧
    (∀ cards ∈ data.cards .board, cards.length ≤ 5) ∧ ∀ a ∈ data.actions, ActionFits a := by
  have hblind : ∀ field, (data.numbers field).any positiveFinite = true ↔
      ∃ q : ℚ, data.numbers field = some (.finite q) ∧ 0 < q := by
    intro field
    rw [Option.any_eq_true]
    constructor
    · rintro ⟨x, hx, hpositive⟩
      obtain ⟨q, rfl, hq⟩ := positiveFinite_iff.1 hpositive
      exact ⟨q, hx, hq⟩
    · rintro ⟨q, hx, hq⟩
      exact ⟨_, hx, positiveFinite_iff.2 ⟨q, rfl, hq⟩⟩
  simp only [HAND_FIELDS, List.forall_mem_cons, List.not_mem_nil, false_imp_iff, implies_true,
    and_true, fieldValid, true_and, Bool.and_eq_true, decide_eq_true_eq, List.all_eq_true,
    Option.all_eq_true, hblind, player_valid_iff, action_valid_iff, nonNegativeFinite_iff,
    Option.any_eq_true, Option.mem_def]

theorem contextValid_iff : hand.contextValid = true ↔
    (hand.players.map PlayerStack.playerId).Nodup ∧
    (∀ hero ∈ hand.heroPlayerId, hero ∈ hand.players.map PlayerStack.playerId) ∧
    hand.format ≠ text "tournament" ∧
    (hand.gameType ≠ text "NLHE" ∨ hand.heroCards.length ∈ [0, 2]) := by
  simp only [CanonicalHand.contextValid, Bool.and_eq_true, decide_eq_true_eq, Bool.or_eq_true,
    Option.all_eq_true, Option.mem_def, and_assoc]

/-- The validation passes exactly when the schema is satisfied. -/
theorem modelValidate_iff : (∃ hand, modelValidate data = .ok hand) ↔ SatisfiesSchema data := by
  simp only [modelValidate_ok, exists_and_left, exists_eq, and_true, fieldsValid_iff,
    contextValid_iff]
  constructor
  · rintro ⟨⟨hgame, hformat, htable, hsmall, hbig, hante, hrake, ⟨hseats, hplayers⟩, hcards, hboard,
      hactions⟩, hcontext⟩
    obtain ⟨hdistinct, hhero, htournament, hholdem⟩ := hcontext
    obtain ⟨t, ht, hmem⟩ := hformat
    have hof : (handOf data).format = t := by
      rw [handOf, show data.strings .format = some t from ht, Option.getD_some]
    rw [hof] at htournament
    have hcash : t = text "cash" := by
      simp only [FORMATS, List.mem_cons, List.not_mem_nil, or_false] at hmem
      exact hmem.resolve_right htournament
    exact ⟨hgame, hcash ▸ ht, htable, hsmall, hbig, hante, hrake, hcards, hboard, hseats, hplayers,
      hactions, hdistinct, hhero, fun hnl => hholdem.resolve_left fun hne => hne hnl⟩
  · rintro ⟨hgame, hformat, htable, hsmall, hbig, hante, hrake, hcards, hboard, hseats, hplayers,
      hactions, hdistinct, hhero, hholdem⟩
    have hcash : text "cash" ∈ FORMATS := by decide
    refine ⟨⟨hgame, ⟨_, hformat, hcash⟩, htable, hsmall, hbig, hante, hrake, ⟨hseats, hplayers⟩,
      hcards, hboard, hactions⟩, hdistinct, hhero, ?_, ?_⟩
    · have hof : (handOf data).format = text "cash" := by rw [handOf, hformat, Option.getD_some]
      rw [hof]
      decide
    · by_cases hnl : (data.strings .gameType).getD (text "NLHE") = text "NLHE"
      · exact .inr (hholdem hnl)
      · exact .inl hnl

/-- Every number of a hand that passes is finite. -/
theorem SatisfiesSchema.finite (h : SatisfiesSchema data) : (handOf data).finite = true := by
  obtain ⟨small, hsmall, -⟩ := h.smallBlind
  obtain ⟨big, hbig, -⟩ := h.bigBlind
  have hante : ((data.numbers .ante).getD (.finite 0)).isFinite = true := by
    cases hx : data.numbers .ante with
    | none => rfl
    | some x => exact (h.ante x hx).isFinite
  simp only [CanonicalHand.finite, handOf, hsmall, hbig, hante, Option.getD_some, Bool.and_eq_true,
    List.all_eq_true, Option.all_eq_true]
  refine ⟨⟨⟨⟨⟨rfl, rfl⟩, trivial⟩, fun x hx => (h.rake x hx).isFinite⟩, fun player hplayer =>
    (h.players player hplayer).startingStack.isFinite⟩, fun a ha => ⟨(h.actions a ha).amount.isFinite,
    fun x hx => ((h.actions a ha).toAmount x hx).isFinite⟩⟩

end PokerDeliberation.Normalization
