import PokerDeliberation.Hands.Validator
import PokerDeliberation.Ledger.Pots

/-!
# The validator accepts what the ledger accepts

On whole chips and without a tolerance the validator's table mirrors the
builder (`Mirrors`), as long as no chips have been returned. The builder asks
who has acted on the street, the validator who has acted since the last full
raise; a player of the first kind who is not of the second faces a bet
(`ActedSince`), so a street that the builder closes is complete for both.
-/

namespace PokerDeliberation.Ledger

open Lib Hands

section

variable {hand : CanonicalHand} {smallBlind bigBlind ante : Int}
variable {b b' s after : LedgerBuilder} {t : Table} {index : Nat} {action : HandAction}
variable {street : Street} {amount : Int}

/-! ## Whole chips -/

/-- The chip values of an action are whole. -/
structure WholeAction (action : HandAction) : Prop where
  amount : ∃ n, IsMultiple action.amount 1 n
  to_amount : ∀ v ∈ action.toAmount, ∃ n, IsMultiple v 1 n
  pot_before : ∀ v ∈ action.potBefore, ∃ n, IsMultiple v 1 n
  pot_after : ∀ v ∈ action.potAfter, ∃ n, IsMultiple v 1 n

/-- The chip values that the validator reads are whole. -/
structure WholeChips (hand : CanonicalHand) : Prop where
  big_blind : ∃ n, IsMultiple hand.bigBlind 1 n
  stacks_whole : ∀ player ∈ hand.players, ∃ n, IsMultiple player.startingStack 1 n
  actions : ∀ action ∈ hand.actions, WholeAction action

theorem whole_eq {value : Chips} {n : Int} (hwhole : ∃ m, IsMultiple value 1 m)
    (h : decimalUnits value 1 = .ok n) : (value : ℚ) = n := by
  obtain ⟨m, hm⟩ := hwhole
  obtain ⟨rfl, _⟩ := decimalUnits_eq one_pos hm h
  rw [hm]
  simp

/-! ## The simulation relation -/

structure Mirrors (hand : CanonicalHand) (b : LedgerBuilder) (t : Table) : Prop where
  stackOf : ∀ id ∈ hand.playerIds, t.stackOf id = b.remaining id
  active : t.active = b.active
  allIn : t.allInPlayers = b.allIn
  contributions : ∀ id, t.contributions id = b.streetContribution id
  pot : t.pot = b.grossTotal
  currentStreet : t.currentStreet = b.currentStreet
  currentBet : t.currentBet = b.currentBet
  lastFullRaise : t.lastFullRaise = b.minimumFullRaise

/-- A player who has acted on the street has acted since the last full raise,
or faces a bet. -/
structure ActedSince (b : LedgerBuilder) (t : Table) : Prop where
  since : ∀ id ∈ b.active, id ∈ b.actedThisStreet →
    id ∈ t.actedSinceFullRaise ∨ b.streetContribution id < b.currentBet
  forced : b.voluntaryActionSeen = false → b.actedThisStreet = ∅

@[simp] theorem closeAbsolute_zero {x y : ℚ} : closeAbsolute x y 0 ↔ x = y := by
  rw [closeAbsolute, abs_nonpos_iff, sub_eq_zero]

@[simp] theorem report_eq_nil {p : Prop} [Decidable p] {problem : Problem} :
    report p problem = [] ↔ ¬ p := by
  unfold report
  split <;> simp_all

/-! ## Opening a street -/

theorem sortedPlayers_eq_nil {p : String → Prop} [DecidablePred p]
    (h : ∀ id ∈ hand.playerIds, ¬ p id) : sortedPlayers hand p = [] := by
  have hnone : hand.playerIds.filter p = [] := by
    rw [List.filter_eq_nil_iff]
    simpa using h
  rw [sortedPlayers, hnone]
  rfl

theorem returns_eq_nil_of_closes {closed : LedgerBuilder} (hcloses : Closes hand b closed)
    (h : closed.returns = []) : closed = b := by
  cases hcloses with
  | called => rfl
  | uncalled => simp [LedgerBuilder.returned] at h

/-- A street that the builder leaves is complete for the validator. -/
theorem streetProblems_of_matched (h : Mirrors hand b t) (hacted : ActedSince b t)
    (hmatched : Matched hand b) (hmany : 1 < b.active.card) {current : Street}
    (hcurrent : b.currentStreet = some current) (hnot : ¬ street.index < current.index) :
    t.streetProblems hand 0 street = [] := by
  have hunsettled : sortedPlayers hand (fun id =>
      (id ∈ t.active ∧ id ∉ t.allInPlayers) ∧ 0 < t.currentBet - t.contributions id) = [] := by
    refine sortedPlayers_eq_nil fun id hid ⟨⟨hin, hable⟩, hfacing⟩ => ?_
    rw [h.active] at hin
    rw [h.allIn] at hable
    rw [h.currentBet, h.contributions, (hmatched hmany id hid hin hable).2, sub_self] at hfacing
    exact lt_irrefl _ hfacing
  have hmissing : sortedPlayers hand (fun id =>
      (id ∈ t.active ∧ id ∉ t.allInPlayers) ∧ id ∉ t.actedSinceFullRaise) = [] := by
    refine sortedPlayers_eq_nil fun id hid ⟨⟨hin, hable⟩, hmissing⟩ => ?_
    rw [h.active] at hin
    rw [h.allIn] at hable
    obtain ⟨hacts, hmet⟩ := hmatched hmany id hid hin hable
    obtain hsince | hfacing := hacted.since id hin hacts
    · exact hmissing hsince
    · omega
  have hcard : ¬ t.active.card ≤ 1 := by rw [h.active]; omega
  simp only [Table.streetProblems, h.currentStreet, hcurrent, hunsettled, hmissing]
  simp [hnot, hcard, report]

theorem Mirrors.opened (h : Mirrors hand b t) (hmoved : b.currentStreet ≠ some street)
    (hblind : (hand.bigBlind : ℚ) = bigBlind) (order : Int) :
    Mirrors hand (b.opened bigBlind street order) (t.enter hand.bigBlind street) := by
  unfold Table.enter
  rw [if_neg (by rw [h.currentStreet]; exact fun he => hmoved he.symm)]
  exact ⟨h.stackOf, h.active, h.allIn, fun _ => by simp [LedgerBuilder.opened], h.pot, rfl,
    by simp [LedgerBuilder.opened], hblind⟩

theorem streetOrder_index {order : Int} (h : streetOrder street = some order) :
    order = street.index := by
  cases street <;> simp_all [streetOrder, Street.index]

theorem Mirrors.enters (h : Mirrors hand b t) (hacted : ActedSince b t)
    (hblind : (hand.bigBlind : ℚ) = bigBlind)
    (hcurrent : ∀ current, b.currentStreet = some current →
      streetOrder current = some b.lastStreetOrder)
    (henters : Enters hand bigBlind b street s) (hreturns : s.returns = []) :
    t.streetProblems hand 0 street = [] ∧ Mirrors hand s (t.enter hand.bigBlind street) ∧
      ActedSince s (t.enter hand.bigBlind street) := by
  cases henters with
  | same hsame =>
    have henter : t.enter hand.bigBlind street = t :=
      if_pos (by rw [h.currentStreet, hsame])
    rw [henter]
    exact ⟨by simp [Table.streetProblems, h.currentStreet, hsame], h, hacted⟩
  | first hnone =>
    exact ⟨by simp [Table.streetProblems, h.currentStreet, hnone],
      h.opened (by simp [hnone]) hblind _, by simp [LedgerBuilder.opened],
      fun _ => rfl⟩
  | @next order closed hsome hmoved hlater hmatched hcloses hmany =>
    obtain rfl := returns_eq_nil_of_closes hcloses hreturns
    obtain ⟨current, hcur⟩ := Option.ne_none_iff_exists'.1 hsome
    have hprevious := streetOrder_index (hcurrent current hcur)
    have hnew := streetOrder_index hlater.1
    refine ⟨streetProblems_of_matched h hacted hmatched hmany hcur (by omega),
      h.opened hmoved hblind _, by simp [LedgerBuilder.opened], fun _ => rfl⟩

/-! ## Paying -/

theorem Mirrors.pay {bet : Int} (h : Mirrors hand b t) (index : Nat)
    (hcommits : commitsChips action.action = true) (hactor : action.actor ∈ hand.playerIds)
    (hamount : (action.amount : ℚ) = amount) (hle : amount ≤ b.remaining action.actor)
    (hbet : bet = if action.action = .postBlind then
      max b.currentBet (b.streetContribution action.actor + amount) else b.currentBet) :
    Mirrors hand
      { b.committed index action.actor amount (action.action ≠ .postAnte) with currentBet := bet }
      (t.pay 0 action) := by
  have hstack : t.stackOf action.actor - action.amount = ((b.remaining action.actor - amount : Int)) := by
    rw [h.stackOf _ hactor, hamount]
    push_cast
    rfl
  have hempty : t.stackOf action.actor - action.amount ≤ 0 ↔ b.remaining action.actor - amount = 0 := by
    rw [hstack]
    norm_cast
    omega
  have hcontributions : ∀ id,
      (if action.action = .postAnte then t.contributions
        else Function.update t.contributions action.actor
          (t.contributions action.actor + action.amount)) id =
        (((b.committed index action.actor amount (action.action ≠ .postAnte)).streetContribution id
          : Int) : ℚ) := by
    intro id
    rw [committed_streetContribution]
    split
    · next hante => simp [hante, h.contributions]
    · next hante =>
      rw [Function.update_apply]
      split
      · next hid => simp [hid, hante, h.contributions, hamount]
      · next hid => simp [hid, h.contributions]
  unfold Table.pay
  simp only [hcommits, if_true, Table.settleStack, Function.update_self]
  have hcurrentBet : (if action.action = .postBlind then max t.currentBet
      ((if action.action = .postAnte then t.contributions
        else Function.update t.contributions action.actor
          (t.contributions action.actor + action.amount)) action.actor)
      else t.currentBet) = (bet : ℚ) := by
    rw [hbet, hcontributions, committed_streetContribution, h.currentBet]
    split
    · next hblind => simp [hblind]
    · rfl
  by_cases hzero : b.remaining action.actor - amount = 0
  · rw [if_pos (hempty.2 hzero)]
    refine ⟨fun id hid => ?_, h.active, ?_, hcontributions, ?_, h.currentStreet, hcurrentBet,
      h.lastFullRaise⟩
    · show Function.update (Function.update t.stackOf _ _) _ _ id =
        (((b.committed index action.actor amount (action.action ≠ .postAnte)).remaining id : Int) : ℚ)
      rw [Function.update_idem, committed_remaining, Function.update_apply]
      split
      · next heq => rw [heq, hzero]; rfl
      · exact h.stackOf id hid
    · show insert action.actor t.allInPlayers =
        (b.committed index action.actor amount (action.action ≠ .postAnte)).allIn
      rw [committed_allIn, if_pos hzero, h.allIn]
    · show t.pot + action.amount = ((b.grossTotal + amount : Int) : ℚ)
      rw [h.pot, hamount]
      push_cast
      rfl
  · rw [if_neg fun hle => hzero (hempty.1 hle)]
    refine ⟨fun id hid => ?_, h.active, ?_, hcontributions, ?_, h.currentStreet, hcurrentBet,
      h.lastFullRaise⟩
    · show Function.update t.stackOf _ _ id =
        (((b.committed index action.actor amount (action.action ≠ .postAnte)).remaining id : Int) : ℚ)
      rw [committed_remaining, Function.update_apply]
      split
      · next heq => rw [heq, hstack]
      · exact h.stackOf id hid
    · show t.allInPlayers =
        (b.committed index action.actor amount (action.action ≠ .postAnte)).allIn
      rw [committed_allIn, if_neg hzero, h.allIn]
    · show t.pot + action.amount = ((b.grossTotal + amount : Int) : ℚ)
      rw [h.pot, hamount]
      push_cast
      rfl

@[simp] theorem pay_actedSinceFullRaise (tolerance : ℚ) :
    (t.pay tolerance action).actedSinceFullRaise = t.actedSinceFullRaise := by
  unfold Table.pay Table.settleStack
  dsimp only
  split
  · split <;> rfl
  · rfl

theorem pay_of_not_commits (h : commitsChips action.action = false) : t.pay 0 action = t := by
  unfold Table.pay
  simp [h]

/-! ## The kinds of actions -/

/-- The builder and the table as an action finds them. -/
structure Facing (hand : CanonicalHand) (bigBlind : Int) (b : LedgerBuilder) (t : Table)
    (action : HandAction) (amount : Int) : Prop where
  mirrors : Mirrors hand b t
  since : ∀ id ∈ b.active, id ∈ b.actedThisStreet →
    id ∈ t.actedSinceFullRaise ∨ b.streetContribution id < b.currentBet
  betting : Betting hand b
  remaining_nonneg : ∀ id, 0 ≤ b.remaining id
  listed : action.actor ∈ hand.playerIds
  amount_eq : (action.amount : ℚ) = amount
  blind_eq : (hand.bigBlind : ℚ) = bigBlind
  whole : WholeAction action

/-- The validator finds nothing wrong, and its table mirrors the builder again. -/
structure Plays (hand : CanonicalHand) (b : LedgerBuilder) (t : Table) (action : HandAction)
    (after : LedgerBuilder) : Prop where
  recorded : after.actions = b.actions
  problems : t.kindProblems hand 0 action = []
  affordable : (action.amount : ℚ) ≤ t.stackOf action.actor
  mirrors : Mirrors hand after ((t.act 0 hand.bigBlind action).pay 0 action)
  acted : ActedSince after ((t.act 0 hand.bigBlind action).pay 0 action)

theorem Facing.affordable (h : Facing hand bigBlind b t action amount)
    (hle : amount ≤ b.remaining action.actor) :
    (action.amount : ℚ) ≤ t.stackOf action.actor := by
  rw [h.amount_eq, h.mirrors.stackOf _ h.listed]
  exact_mod_cast hle

theorem Facing.outstanding (h : Facing hand bigBlind b t action amount) :
    t.outstanding action.actor =
      ((b.currentBet - b.streetContribution action.actor : Int) : ℚ) := by
  have hle := h.betting.le_bet action.actor
  rw [Table.outstanding, h.mirrors.currentBet, h.mirrors.contributions]
  push_cast
  exact max_eq_right (by rw [sub_nonneg]; exact_mod_cast hle)

theorem Facing.voluntary (h : Facing hand bigBlind b t action amount) :
    Facing hand bigBlind { b with voluntaryActionSeen := true } t action amount where
  mirrors := ⟨h.mirrors.stackOf, h.mirrors.active, h.mirrors.allIn, h.mirrors.contributions,
    h.mirrors.pot, h.mirrors.currentStreet, h.mirrors.currentBet, h.mirrors.lastFullRaise⟩
  since := h.since
  betting := ⟨h.betting.street_nonneg, h.betting.le_bet, h.betting.reached⟩
  remaining_nonneg := h.remaining_nonneg
  listed := h.listed
  amount_eq := h.amount_eq
  blind_eq := h.blind_eq
  whole := h.whole

/-- A voluntary action keeps `ActedSince` when its actor has now acted, and
either the bet has gone up or nobody's action is forgotten. -/
theorem Facing.acted_of {t' : Table} (h : Facing hand bigBlind b t action amount)
    (hactive : ∀ id ∈ after.active, id ∈ b.active)
    (hacted : after.actedThisStreet = insert action.actor b.actedThisStreet)
    (hactor : action.actor ∈ after.active → action.actor ∈ t'.actedSinceFullRaise)
    (hothers : ∀ id, id ≠ action.actor → after.streetContribution id = b.streetContribution id)
    (hbet : b.currentBet < after.currentBet ∨ b.currentBet ≤ after.currentBet ∧
      ∀ id ∈ t.actedSinceFullRaise, id ∈ t'.actedSinceFullRaise)
    (hvoluntary : after.voluntaryActionSeen = true) : ActedSince after t' where
  since id hid hin := by
    obtain rfl | hne := eq_or_ne id action.actor
    · exact .inl (hactor hid)
    · rw [hacted, Finset.mem_insert] at hin
      have hbefore := hin.resolve_left hne
      have hle := h.betting.le_bet id
      rw [hothers id hne]
      obtain hup | ⟨hup, hkept⟩ := hbet
      · exact .inr (by omega)
      · exact (h.since id (hactive id hid) hbefore).imp (hkept id) fun hlt => by omega
  forced hforced := by simp [hvoluntary] at hforced

theorem validateToAmount_ok {expected : Int} {required : Bool}
    (hwhole : ∀ v ∈ action.toAmount, ∃ n, IsMultiple v 1 n)
    (h : validateToAmount 1 action expected required = .ok ()) :
    (required = true → action.toAmount ≠ none) ∧ ∀ v ∈ action.toAmount, (v : ℚ) = expected := by
  simp only [validateToAmount, require_bind_eq_ok] at h
  obtain ⟨hrequired, h⟩ := h
  refine ⟨hrequired, fun v hv => ?_⟩
  have hsome : action.toAmount = some v := hv
  rw [hsome] at h
  simp only [bind_eq_ok, require_eq_ok] at h
  obtain ⟨units, hunits, rfl⟩ := h
  exact whole_eq (hwhole v hv) hunits

theorem applyPost_plays (h : Facing hand bigBlind b t action amount)
    (hacted : ActedSince b t) (hkind : action.action = .postBlind ∨ action.action = .postAnte)
    (happly : b.applyPost index action amount = .ok after) : Plays hand b t action after := by
  have hcommits : commitsChips action.action = true := by
    rcases hkind with hkind | hkind <;> rw [hkind] <;> rfl
  have hact : t.act 0 hand.bigBlind action = t := by
    rcases hkind with hkind | hkind <;> simp [Table.act, hkind]
  have hproblems : t.kindProblems hand 0 action = [] := by
    rcases hkind with hkind | hkind <;> simp [Table.kindProblems, hkind]
  simp only [LedgerBuilder.applyPost, require_bind_eq_ok] at happly
  obtain ⟨⟨_, hforced⟩, _, _, happly⟩ := happly
  have hnobody : b.actedThisStreet = ∅ := hacted.forced hforced
  split at happly
  · next hante =>
    obtain ⟨_, hle, _, _, rfl⟩ := commit_ok happly
    have hpaid := h.mirrors.pay index hcommits h.listed h.amount_eq hle rfl
    simp only [hante, ne_eq, not_true_eq_false, decide_false, reduceCtorEq, if_false] at hpaid
    refine ⟨rfl, hproblems, h.affordable hle, by rw [hact]; exact hpaid,
      ⟨fun id _ hin => by simp [LedgerBuilder.committed, hnobody] at hin, fun _ => hnobody⟩⟩
  · next hante =>
    simp only [bind_eq_ok, pure_eq_ok] at happly
    obtain ⟨posted, hposted, rfl⟩ := happly
    obtain ⟨_, hle, _, _, rfl⟩ := commit_ok hposted
    have hblind := hkind.resolve_right hante
    have hpaid := h.mirrors.pay index hcommits h.listed h.amount_eq hle rfl
    simp only [hblind, ne_eq, reduceCtorEq, not_false_eq_true, decide_true, if_true] at hpaid
    refine ⟨rfl, hproblems, h.affordable hle, ?_,
      ⟨fun id _ hin => by simp [LedgerBuilder.committed, hnobody] at hin, fun _ => hnobody⟩⟩
    rw [hact]
    simpa using hpaid

theorem applyCheck_plays (h : Facing hand bigBlind b t action amount)
    (hvoluntary : b.voluntaryActionSeen = true) (hkind : action.action = .check)
    (happly : b.applyCheck action amount (b.currentBet - b.streetContribution action.actor) =
      .ok after) : Plays hand b t action after := by
  simp only [LedgerBuilder.applyCheck, require_bind_eq_ok, pure_eq_ok] at happly
  obtain ⟨⟨hamount, _⟩, houtstanding, rfl⟩ := happly
  have hpay : (t.act 0 hand.bigBlind action).pay 0 action = t.acted action.actor := by
    rw [pay_of_not_commits (by rw [hkind]; rfl)]
    simp [Table.act, hkind]
  have hzero : action.amount = 0 := by simpa [hamount] using h.amount_eq
  refine ⟨rfl, ?_, h.affordable (hamount ▸ h.remaining_nonneg _), ?_, ?_⟩
  · simp [Table.kindProblems, hkind, hzero, h.outstanding, houtstanding]
  · rw [hpay]
    exact ⟨h.mirrors.stackOf, h.mirrors.active, h.mirrors.allIn, h.mirrors.contributions,
      h.mirrors.pot, h.mirrors.currentStreet, h.mirrors.currentBet, h.mirrors.lastFullRaise⟩
  · rw [hpay]
    exact h.acted_of (fun _ hid => hid) rfl (fun _ => Finset.mem_insert_self _ _)
      (fun _ _ => rfl) (.inr ⟨le_rfl, fun id hid => Finset.mem_insert_of_mem hid⟩) hvoluntary

theorem applyFold_plays (h : Facing hand bigBlind b t action amount)
    (hvoluntary : b.voluntaryActionSeen = true) (hkind : action.action = .fold)
    (happly : b.applyFold index action amount (b.currentBet - b.streetContribution action.actor) =
      .ok after) : Plays hand b t action after := by
  simp only [LedgerBuilder.applyFold, require_bind_eq_ok, pure_eq_ok] at happly
  obtain ⟨⟨hamount, _⟩, _, rfl⟩ := happly
  have hpay : (t.act 0 hand.bigBlind action).pay 0 action =
      { t with active := t.active.erase action.actor } := by
    rw [pay_of_not_commits (by rw [hkind]; rfl)]
    simp [Table.act, hkind]
  have hzero : action.amount = 0 := by simpa [hamount] using h.amount_eq
  refine ⟨rfl, by simp [Table.kindProblems, hkind, hzero],
    h.affordable (hamount ▸ h.remaining_nonneg _), ?_, ?_⟩
  · rw [hpay]
    exact ⟨h.mirrors.stackOf, congrArg (Finset.erase · action.actor) h.mirrors.active,
      h.mirrors.allIn, h.mirrors.contributions, h.mirrors.pot, h.mirrors.currentStreet,
      h.mirrors.currentBet, h.mirrors.lastFullRaise⟩
  · rw [hpay]
    exact h.acted_of (fun id hid => Finset.mem_of_mem_erase hid) rfl
      (fun hid => absurd hid (Finset.notMem_erase _ _)) (fun _ _ => rfl)
      (.inr ⟨le_rfl, fun _ hid => hid⟩) hvoluntary

/-- Paying a voluntary contribution, after the bet is set. -/
theorem Mirrors.payVoluntary (h : Mirrors hand b t) (index : Nat)
    (hkind : action.action ∈ [.call, .bet, .raise, .allIn]) (hactor : action.actor ∈ hand.playerIds)
    (hamount : (action.amount : ℚ) = amount) (hle : amount ≤ b.remaining action.actor) :
    Mirrors hand (b.committed index action.actor amount true) (t.pay 0 action) := by
  have hcommits : commitsChips action.action = true := by
    cases haction : action.action <;> simp_all [commitsChips]
  have hnot : action.action ≠ .postBlind ∧ action.action ≠ .postAnte := by
    cases haction : action.action <;> simp_all
  have hpaid := h.pay index hcommits hactor hamount hle rfl
  simp only [hnot.1, hnot.2, ne_eq, not_false_eq_true, decide_true, if_false] at hpaid
  exact hpaid

theorem Mirrors.acted (h : Mirrors hand b t) (actor : String) :
    Mirrors hand (b.acted actor) t :=
  ⟨h.stackOf, h.active, h.allIn, h.contributions, h.pot, h.currentStreet, h.currentBet,
    h.lastFullRaise⟩

/-- A contribution that leaves the bet as it is. -/
theorem Facing.calls (h : Facing hand bigBlind b t action amount)
    (hvoluntary : b.voluntaryActionSeen = true)
    (hkind : action.action ∈ [.call, .bet, .raise, .allIn])
    (hact : t.act 0 hand.bigBlind action = t.acted action.actor)
    (hle : amount ≤ b.remaining action.actor) (hproblems : t.kindProblems hand 0 action = []) :
    Plays hand b t action ((b.committed index action.actor amount true).acted action.actor) := by
  have hmirrors : Mirrors hand b (t.acted action.actor) :=
    ⟨h.mirrors.stackOf, h.mirrors.active, h.mirrors.allIn, h.mirrors.contributions,
      h.mirrors.pot, h.mirrors.currentStreet, h.mirrors.currentBet, h.mirrors.lastFullRaise⟩
  refine ⟨rfl, hproblems, h.affordable hle, ?_, ?_⟩
  · rw [hact]
    exact (hmirrors.payVoluntary index hkind h.listed h.amount_eq hle).acted _
  · rw [hact]
    refine h.acted_of (fun _ hid => hid) rfl (fun _ => ?_) (fun id hne => ?_)
      (.inr ⟨le_rfl, fun id hid => ?_⟩) hvoluntary
    · rw [pay_actedSinceFullRaise]
      exact Finset.mem_insert_self _ _
    · show (b.committed index action.actor amount true).streetContribution id = _
      simp [hne]
    · rw [pay_actedSinceFullRaise]
      exact Finset.mem_insert_of_mem hid

theorem applyCall_plays (h : Facing hand bigBlind b t action amount)
    (hvoluntary : b.voluntaryActionSeen = true) (hkind : action.action = .call)
    (happly : b.applyCall 1 index action amount
      (b.currentBet - b.streetContribution action.actor) = .ok after) :
    Plays hand b t action after := by
  simp only [LedgerBuilder.applyCall, bind_eq_ok, require_eq_ok, exists_const,
    pure_eq_ok] at happly
  obtain ⟨⟨_, hrequired⟩, _, _, paid, hpaid, rfl⟩ := happly
  obtain ⟨_, hle, _, _, rfl⟩ := commit_ok hpaid
  refine h.calls hvoluntary (by simp [hkind]) (by simp [Table.act, hkind]) hle ?_
  have hrequired : (action.amount : ℚ) =
      min (t.outstanding action.actor) (t.stackOf action.actor) := by
    rw [h.amount_eq, h.outstanding, h.mirrors.stackOf _ h.listed, hrequired]
    push_cast
    rfl
  simp [Table.kindProblems, hkind, ← hrequired]

/-- The table after a bet goes up to `total`. -/
theorem Mirrors.raisedTo {minimum total minimumAfter : Int} (h : Mirrors hand b t)
    (hminimum : minimumAfter =
      if minimum ≤ total - b.currentBet then total - b.currentBet else b.minimumFullRaise)
    (actor : String) :
    Mirrors hand (b.withBet total minimumAfter) (t.raisedTo 0 minimum actor total) := by
  have hraise : ((minimum : ℚ) ≤ total - t.currentBet + 0) ↔ minimum ≤ total - b.currentBet := by
    rw [h.currentBet, add_zero]
    norm_cast
  unfold Table.raisedTo
  dsimp only
  by_cases hfull : minimum ≤ total - b.currentBet
  · rw [if_pos (hraise.2 hfull)]
    refine ⟨h.stackOf, h.active, h.allIn, h.contributions, h.pot, h.currentStreet, rfl, ?_⟩
    show (total : ℚ) - t.currentBet = (minimumAfter : ℚ)
    rw [hminimum, if_pos hfull, h.currentBet]
    push_cast
    rfl
  · rw [if_neg fun hle => hfull (hraise.1 hle)]
    refine ⟨h.stackOf, h.active, h.allIn, h.contributions, h.pot, h.currentStreet, rfl, ?_⟩
    show t.lastFullRaise = (minimumAfter : ℚ)
    rw [hminimum, if_neg hfull, h.lastFullRaise]

theorem mem_raisedTo_acted (minimum total : ℚ) (actor : String) :
    actor ∈ (t.raisedTo 0 minimum actor total).actedSinceFullRaise := by
  unfold Table.raisedTo
  dsimp only
  split
  · exact Finset.mem_singleton_self actor
  · exact Finset.mem_insert_self actor _

/-- A contribution that raises the bet to `total`. -/
theorem Facing.raises {total minimumAfter : Int}
    (h : Facing hand bigBlind b t action amount) (minimum : Int) (hvoluntary : b.voluntaryActionSeen = true)
    (hkind : action.action ∈ [.call, .bet, .raise, .allIn])
    (hact : t.act 0 hand.bigBlind action = t.raisedTo 0 minimum action.actor total)
    (hminimum : minimumAfter =
      if minimum ≤ total - b.currentBet then total - b.currentBet else b.minimumFullRaise)
    (hup : b.currentBet < total) (hle : amount ≤ b.remaining action.actor)
    (hproblems : t.kindProblems hand 0 action = []) :
    Plays hand b t action (((b.committed index action.actor amount true).withBet total
      minimumAfter).acted action.actor) := by
  refine ⟨rfl, hproblems, h.affordable hle, ?_, ?_⟩
  · rw [hact]
    exact ((h.mirrors.raisedTo hminimum action.actor).payVoluntary index hkind h.listed h.amount_eq
      hle).acted _
  · rw [hact]
    refine h.acted_of (fun _ hid => hid) rfl (fun _ => ?_) (fun id hne => ?_) (.inl hup) hvoluntary
    · rw [pay_actedSinceFullRaise]
      exact mem_raisedTo_acted _ _ _
    · show (b.committed index action.actor amount true).streetContribution id = _
      simp [hne]

theorem applyBet_plays (h : Facing hand bigBlind b t action amount)
    (hvoluntary : b.voluntaryActionSeen = true) (hkind : action.action = .bet)
    (happly : b.applyBet 1 bigBlind index action amount = .ok after)
    (hminimum : 0 < after.minimumFullRaise) : Plays hand b t action after := by
  simp only [LedgerBuilder.applyBet, bind_eq_ok, require_eq_ok, exists_const,
    pure_eq_ok] at happly
  obtain ⟨hopen, hblind, _, _, hto, paid, hpaid, rfl⟩ := happly
  obtain ⟨_, hle, _, _, rfl⟩ := commit_ok hpaid
  obtain ⟨hsome, hto⟩ := validateToAmount_ok h.whole.to_amount hto
  obtain ⟨toAmount, hsome⟩ := Option.ne_none_iff_exists'.1 (hsome rfl)
  have hto := hto toAmount hsome
  have hcontribution : b.streetContribution action.actor = 0 := by
    have := h.betting.le_bet action.actor
    have := h.betting.street_nonneg action.actor
    omega
  have hup : b.currentBet < b.streetContribution action.actor + amount := by
    simp only [LedgerBuilder.acted, LedgerBuilder.withBet] at hminimum
    omega
  have hraise : 0 < (toAmount : ℚ) - t.currentBet := by
    rw [hto, h.mirrors.currentBet, sub_pos]
    exact_mod_cast hup
  refine h.raises bigBlind hvoluntary (by simp [hkind]) ?_ (by simp [hopen]; omega) hup hle ?_
  · simp only [Table.act, hkind, Table.betOrRaise, hsome]
    rw [if_pos hraise, h.blind_eq, hto]
  · have hzero : t.currentBet = 0 := by rw [h.mirrors.currentBet, hopen]; rfl
    have hincrement : (toAmount : ℚ) - t.contributions action.actor = action.amount := by
      rw [hto, h.mirrors.contributions, h.amount_eq]
      push_cast
      ring
    have hbig : (hand.bigBlind : ℚ) ≤ toAmount := by
      rw [h.blind_eq, hto, hcontribution, zero_add]
      exact_mod_cast hblind
    simp only [Table.kindProblems, hkind, Table.betOrRaiseProblems, hsome, List.append_eq_nil_iff,
      report_eq_nil, closeAbsolute_zero, hincrement]
    exact ⟨⟨⟨⟨⟨by simp, by simp [hzero]⟩, by simp⟩, not_le.2 hraise⟩,
      fun hbelow => by linarith [hbelow.2]⟩, by simp⟩

theorem applyRaise_plays (h : Facing hand bigBlind b t action amount)
    (hvoluntary : b.voluntaryActionSeen = true) (hkind : action.action = .raise)
    (happly : b.applyRaise 1 index action amount = .ok after)
    (hminimum : 0 < after.minimumFullRaise) : Plays hand b t action after := by
  simp only [LedgerBuilder.applyRaise, bind_eq_ok, require_eq_ok, exists_const,
    pure_eq_ok] at happly
  obtain ⟨hopen, _, _, _, hto, hfull, paid, hpaid, rfl⟩ := happly
  obtain ⟨_, hle, _, _, rfl⟩ := commit_ok hpaid
  obtain ⟨hsome, hto⟩ := validateToAmount_ok h.whole.to_amount hto
  obtain ⟨toAmount, hsome⟩ := Option.ne_none_iff_exists'.1 (hsome rfl)
  have hto := hto toAmount hsome
  have hup : b.currentBet < b.streetContribution action.actor + amount := by
    simp only [LedgerBuilder.acted, LedgerBuilder.withBet] at hminimum
    omega
  have hsize : (toAmount : ℚ) - t.currentBet =
      ((b.streetContribution action.actor + amount - b.currentBet : Int) : ℚ) := by
    rw [hto, h.mirrors.currentBet]
    push_cast
    rfl
  have hraise : 0 < (toAmount : ℚ) - t.currentBet := by
    rw [hsize]
    exact_mod_cast sub_pos.2 hup
  refine h.raises b.minimumFullRaise hvoluntary (by simp [hkind]) ?_ (if_pos hfull).symm hup hle ?_
  · simp only [Table.act, hkind, Table.betOrRaise, hsome]
    rw [if_pos hraise, h.mirrors.lastFullRaise, hto]
  · have hbet : ¬ t.currentBet ≤ 0 := by
      rw [h.mirrors.currentBet, not_le]
      exact_mod_cast hopen
    have hincrement : (toAmount : ℚ) - t.contributions action.actor = action.amount := by
      rw [hto, h.mirrors.contributions, h.amount_eq]
      push_cast
      ring
    have hnotBelow : ¬ (toAmount : ℚ) - t.currentBet + 0 < t.lastFullRaise := by
      rw [hsize, h.mirrors.lastFullRaise, add_zero, not_lt]
      exact_mod_cast hfull
    simp only [Table.kindProblems, hkind, Table.betOrRaiseProblems, hsome, List.append_eq_nil_iff,
      report_eq_nil, closeAbsolute_zero, hincrement]
    exact ⟨⟨⟨⟨⟨by simp, by simp⟩, by simp [hbet]⟩, by simpa using hraise⟩, by simp⟩,
      fun hbelow => hnotBelow hbelow.2⟩

theorem applyAllIn_plays (h : Facing hand bigBlind b t action amount)
    (hvoluntary : b.voluntaryActionSeen = true) (hkind : action.action = .allIn)
    (happly : b.applyAllIn 1 index action amount = .ok after) : Plays hand b t action after := by
  simp only [LedgerBuilder.applyAllIn, bind_eq_ok, require_eq_ok, exists_const,
    pure_eq_ok] at happly
  obtain ⟨⟨_, hall⟩, _, hto, _, paid, hpaid, rfl⟩ := happly
  obtain ⟨_, hto⟩ := validateToAmount_ok h.whole.to_amount hto
  have htotal : t.contributions action.actor + action.amount =
      ((b.streetContribution action.actor + amount : Int) : ℚ) := by
    rw [h.mirrors.contributions, h.amount_eq]
    push_cast
    rfl
  have hproblems : t.kindProblems hand 0 action = [] := by
    have hstack : (action.amount : ℚ) = t.stackOf action.actor := by
      rw [h.amount_eq, hall, h.mirrors.stackOf _ h.listed]
    simp only [Table.kindProblems, hkind, List.append_eq_nil_iff, report_eq_nil,
      closeAbsolute_zero, htotal]
    refine ⟨not_not.2 hstack, ?_⟩
    split
    · next toAmount hsome => simpa using hto toAmount hsome
    · rfl
  have hover : t.currentBet + 0 < t.contributions action.actor + action.amount ↔
      b.currentBet < b.streetContribution action.actor + amount := by
    rw [htotal, h.mirrors.currentBet, add_zero]
    norm_cast
  by_cases hup : b.currentBet < b.streetContribution action.actor + amount
  · have hact : t.act 0 hand.bigBlind action =
        t.raisedTo 0 b.minimumFullRaise action.actor
          ((b.streetContribution action.actor + amount : Int) : ℚ) := by
      simp only [Table.act, hkind, Table.actAllIn]
      rw [if_pos (hover.2 hup), h.mirrors.lastFullRaise, htotal]
    unfold LedgerBuilder.allInBet at hpaid
    rw [if_pos hup] at hpaid
    obtain ⟨_, hle, _, _, rfl⟩ := commit_ok hpaid
    exact h.raises b.minimumFullRaise hvoluntary (by simp [hkind]) hact rfl hup hle hproblems
  · have hact : t.act 0 hand.bigBlind action = t.acted action.actor := by
      simp only [Table.act, hkind, Table.actAllIn]
      exact if_neg fun hlt => hup (hover.1 hlt)
    unfold LedgerBuilder.allInBet at hpaid
    rw [if_neg hup] at hpaid
    obtain ⟨_, hle, _, _, rfl⟩ := commit_ok hpaid
    exact h.calls hvoluntary (by simp [hkind]) hact hle hproblems

theorem applyKind_plays (h : Facing hand bigBlind b t action amount) (hacted : ActedSince b t)
    (happly : b.applyKind 1 bigBlind index action amount
      (b.currentBet - b.streetContribution action.actor) = .ok after)
    (hminimum : 0 < after.minimumFullRaise) : Plays hand b t action after := by
  have hplays : ∀ {after}, Plays hand { b with voluntaryActionSeen := true } t action after →
      Plays hand b t action after := fun h =>
    ⟨h.recorded, h.problems, h.affordable, h.mirrors, h.acted⟩
  unfold LedgerBuilder.applyKind at happly
  cases hkind : action.action <;> rw [hkind] at happly
  case postBlind => exact applyPost_plays h hacted (.inl hkind) happly
  case postAnte => exact applyPost_plays h hacted (.inr hkind) happly
  case check => exact hplays (applyCheck_plays h.voluntary rfl hkind happly)
  case fold => exact hplays (applyFold_plays h.voluntary rfl hkind happly)
  case call => exact hplays (applyCall_plays h.voluntary rfl hkind happly)
  case bet => exact hplays (applyBet_plays h.voluntary rfl hkind happly hminimum)
  case raise => exact hplays (applyRaise_plays h.voluntary rfl hkind happly hminimum)
  case allIn => exact hplays (applyAllIn_plays h.voluntary rfl hkind happly)

/-! ## The replay -/

theorem Accounts.gross_eq_net (h : Accounts hand b) (hreturns : b.returns = []) :
    b.grossTotal = b.netTotal := by
  have hreturned := h.returned_sum
  have htotal := h.gross_total
  rw [hreturns, List.map_nil, List.sum_nil] at hreturned
  omega

theorem validateDeclaredPot_ok {declared : Option Chips} {code : String}
    (hwhole : ∀ v ∈ declared, ∃ n, IsMultiple v 1 n)
    (h : b.validateDeclaredPot 1 declared code = .ok ()) :
    ∀ v ∈ declared, (v : ℚ) = b.netTotal := by
  intro v hv
  have hsome : declared = some v := hv
  rw [hsome] at h
  simp only [LedgerBuilder.validateDeclaredPot, bind_eq_ok, require_eq_ok] at h
  obtain ⟨units, hunits, rfl⟩ := h
  exact whole_eq (hwhole v hv) hunits

/-- The state that the replays of both sides share. -/
structure Shadows (hand : CanonicalHand) (b : LedgerBuilder) (t : Table) : Prop where
  mirrors : Mirrors hand b t
  acted : ActedSince b t

/-- The record of an action for the builder and for the validator. -/
def SameRecord (r : ReconstructedAction) (l : LedgerActionV1) : Prop :=
  r.index = l.actionIndex ∧ r.potAfter = l.potUnitsAfter ∧
    r.stacksAfter l.actor = l.remainingStackUnitsAfter

theorem moves_returns {core : LedgerBuilder} (h : Moves b index action amount core) :
    core.returns = b.returns := by
  cases h <;> rfl

theorem appendAction_record {raiseRights fullRaise : Bool}
    (h : b.appendAction index action amount raiseRights fullRaise = .ok b') :
    ∃ l, b' = { b with actions := b.actions ++ [l] } ∧ l.actionIndex = index ∧
      l.actor = action.actor ∧ l.potUnitsAfter = b.netTotal ∧
      l.remainingStackUnitsAfter = b.remaining action.actor := by
  simp only [LedgerBuilder.appendAction, bind_eq_ok, pure_eq_ok] at h
  obtain ⟨_, _, rfl⟩ := h
  exact ⟨_, rfl, rfl, rfl, rfl, rfl⟩

theorem Shadows.apply (h : Shadows hand b t) (hbooks : Accounts hand b) (hbetting : Betting hand b)
    (hblind : (hand.bigBlind : ℚ) = bigBlind)
    (hcurrent : ∀ current, b.currentStreet = some current →
      streetOrder current = some b.lastStreetOrder)
    (hwhole : WholeAction action) (happly : b.apply hand 1 bigBlind index action = .ok b')
    (hreturns : b'.returns = []) :
    t.problems hand 0 action = [] ∧ Shadows hand b' (t.step 0 hand.bigBlind action) ∧
      ∃ l, b'.actions = b.actions ++ [l] ∧
        SameRecord ((t.step 0 hand.bigBlind action).reconstructed hand index) l := by
  simp only [LedgerBuilder.apply, LedgerBuilder.applyOnStreet, bind_eq_ok, require_eq_ok,
    exists_const] at happly
  obtain ⟨hlisted, s, henter, hactive, hable, _, amount, hunits, _, hbefore, _, after, hkind, _,
    hafter, happend⟩ := happly
  obtain ⟨hminimum, _⟩ := appendAction_ok happend
  obtain ⟨l, rfl, hindex, hactor, hpot, hremaining⟩ := appendAction_record happend
  obtain ⟨core, hmoves, hnotes⟩ := applyKind_moves hkind hminimum
  have henters := enter_enters henter
  have hsbooks := hbooks.enters henters
  have hsbetting := hbetting.enters henters
  have hafterBooks := (hsbooks.moves hlisted hmoves).of_notes hnotes
  have hreturned : s.returns = [] := by
    obtain ⟨_, _, _, _, _, rfl⟩ := hnotes
    exact (moves_returns hmoves).symm.trans hreturns
  obtain ⟨hstreet, hentered, hacted⟩ := h.mirrors.enters h.acted hblind hcurrent henters hreturned
  have hplays := applyKind_plays ⟨hentered, hacted.since, hsbetting, hsbooks.remaining_nonneg,
    hlisted, whole_eq hwhole.amount hunits, hblind, hwhole⟩ hacted hkind hminimum
  have hrecorded : after.actions = b.actions := by
    rw [hplays.recorded]
    cases henters with
    | same => rfl
    | first => rfl
    | next _ _ _ _ hcloses => cases hcloses <;> rfl
  have hstep : t.step 0 hand.bigBlind action =
      (((t.enter hand.bigBlind action.street).act 0 hand.bigBlind action).pay 0 action).note action :=
    rfl
  have hafterPot : (t.step 0 hand.bigBlind action).pot = after.netTotal := by
    rw [hstep]
    refine hplays.mirrors.pot.trans ?_
    rw [hafterBooks.gross_eq_net hreturns]
  refine ⟨?_, ⟨⟨hplays.mirrors.stackOf, hplays.mirrors.active, hplays.mirrors.allIn,
    hplays.mirrors.contributions, hplays.mirrors.pot, hplays.mirrors.currentStreet,
    hplays.mirrors.currentBet, hplays.mirrors.lastFullRaise⟩, hplays.acted.since,
    hplays.acted.forced⟩, l, by rw [← hrecorded], ?_⟩
  · have hentry : (t.enter hand.bigBlind action.street).entryProblems 0 action = [] := by
      have hpots := validateDeclaredPot_ok hwhole.pot_before hbefore
      have hpot : (t.enter hand.bigBlind action.street).pot = s.netTotal := by
        rw [hentered.pot, hsbooks.gross_eq_net hreturned]
      simp only [Table.entryProblems, List.append_eq_nil_iff, report_eq_nil]
      refine ⟨⟨⟨not_not.2 (hentered.active ▸ hactive), hentered.allIn ▸ hable⟩, ?_⟩, ?_⟩
      · split
        · next declared hsome =>
          rw [report_eq_nil, not_not, closeAbsolute_zero, hpot]
          exact hpots declared hsome
        · rfl
      · rw [add_zero]
        exact not_lt.2 hplays.affordable
    have hdeclared : (t.step 0 hand.bigBlind action).potAfterProblems 0 action = [] := by
      have hpots := validateDeclaredPot_ok hwhole.pot_after hafter
      unfold Table.potAfterProblems
      split
      · next declared hsome =>
        rw [report_eq_nil, not_not, closeAbsolute_zero, hafterPot]
        exact hpots declared hsome
      · rfl
    simp only [Table.problems, hstreet, hentry, hplays.problems, hdeclared, List.append_nil]
  · refine ⟨hindex.symm, ?_, ?_⟩
    · rw [hpot]
      exact hafterPot
    · rw [hactor, hremaining]
      exact hplays.mirrors.stackOf _ hlisted

/-- What the replay of the validator has found, next to the builder. -/
structure Replays (hand : CanonicalHand) (done : List HandAction) (b : LedgerBuilder) : Prop where
  shadows : Shadows hand b (replayHand hand 0 done).table
  no_errors : (replayHand hand 0 done).errors = []
  records : List.Forall₂ SameRecord (replayHand hand 0 done).reconstructed b.actions

/-- Returns are of streets before the current one. -/
structure Early (done : List HandAction) (b : LedgerBuilder) : Prop where
  current : ∀ current, b.currentStreet = some current → streetOrder current = some b.lastStreetOrder
  earlier : ∀ r ∈ b.returns, ∀ order, streetOrder r.street = some order → order < b.lastStreetOrder
  last : b.currentStreet = done.getLast?.map (·.street)

theorem Early.enters {done : List HandAction} (h : Early done b)
    (henters : Enters hand bigBlind b action.street s) : Early (done ++ [action]) s := by
  have hlast : (done ++ [action]).getLast?.map (·.street) = some action.street := by simp
  cases henters with
  | same hsame => exact ⟨h.current, h.earlier, by rw [hlast, hsame]⟩
  | first hnone hlater =>
    refine ⟨fun current hcurrent => ?_, fun r hr order horder => ?_, by rw [hlast]; rfl⟩
    · obtain rfl := Option.some.inj hcurrent
      exact hlater.1
    · exact (h.earlier r hr order horder).trans hlater.2
  | @next order closed hsome hmoved hlater hmatched hcloses =>
    refine ⟨fun current hcurrent => ?_, fun r hr o ho => ?_, by rw [hlast]; rfl⟩
    · obtain rfl := Option.some.inj hcurrent
      exact hlater.1
    · refine lt_of_le_of_lt ?_ hlater.2
      cases hcloses with
      | called => exact (h.earlier r hr o ho).le
      | uncalled _ _ _ _ hcurrent _ _ _ hrecord =>
        obtain hr | hr := List.mem_append.1 hr
        · exact (h.earlier r hr o ho).le
        · rw [List.mem_singleton.1 hr, hrecord] at ho
          exact (Option.some.inj (ho.symm.trans (h.current _ hcurrent))).le

theorem Early.accepts {done : List HandAction} (h : Early done b)
    (haccepts : Accepts hand 1 bigBlind b index action b') : Early (done ++ [action]) b' := by
  obtain ⟨_, henters, _, _, _, hmoves, _, _, _, _, _, rfl⟩ := haccepts
  have hentered := h.enters henters
  cases hmoves <;> exact ⟨hentered.current, hentered.earlier, hentered.last⟩

theorem returns_of_accepts (h : Accepts hand 1 bigBlind b index action b')
    (hreturns : b'.returns = []) : b.returns = [] := by
  obtain ⟨_, henters, _, _, _, hmoves, _, _, _, _, _, rfl⟩ := h
  have hentered := (moves_returns hmoves).symm.trans hreturns
  cases henters with
  | same => exact hentered
  | first => exact hentered
  | next _ _ _ _ hcloses => rwa [← returns_eq_nil_of_closes hcloses hentered]

theorem early_of_replay {actions : List HandAction} (h : replay hand 1 bigBlind actions = .ok b) :
    Early actions b := by
  refine replay_induction (fun b hb => ?_) (fun _ _ _ _ => Early.accepts) h
  obtain ⟨_, _, rfl, _⟩ := init_ok hb
  exact ⟨nofun, nofun, rfl⟩

/-- The validator's start, on whole stacks. -/
theorem Mirrors.start (hblind : (hand.bigBlind : ℚ) = bigBlind) (hwhole : WholeChips hand)
    (h : LedgerBuilder.init hand 1 bigBlind = .ok b) : Mirrors hand b (Table.start hand) := by
  obtain ⟨starting, _, rfl, hstacks, _⟩ := init_ok h
  refine ⟨fun id hid => ?_, rfl, rfl, fun _ => by simp [Table.start], by simp [Table.start], rfl,
    by simp [Table.start], hblind⟩
  obtain ⟨player, hplayer, rfl⟩ := List.mem_map.1 hid
  have hfind : hand.players.find? (fun p => p.playerId = player.playerId) = some player :=
    (Keyed.find_eq_some_iff hand.unique_ids).2 ⟨hplayer, rfl⟩
  simp only [Table.start, hfind, Option.map_some, Option.getD_some]
  exact whole_eq (hwhole.stacks_whole player hplayer) (hstacks player hplayer)

/-- Both sides replay an accepted sequence alike, until chips are returned. -/
theorem replays_of_replay {actions : List HandAction} (hcards : cardErrors hand = [])
    (hblind : (hand.bigBlind : ℚ) = bigBlind) (hwhole : WholeChips hand)
    (hactions : ∀ action ∈ actions, WholeAction action)
    (h : replay hand 1 bigBlind actions = .ok b) (hreturns : b.returns = []) :
    Replays hand actions b := by
  induction actions using List.reverseRecOn generalizing b with
  | nil =>
    simp only [replay, List.zipIdx_nil, List.foldlM_nil, bind_eq_ok, pure_eq_ok,
      exists_eq_right] at h
    have hmirrors := Mirrors.start hblind hwhole h
    obtain ⟨_, _, rfl, _⟩ := init_ok h
    exact ⟨⟨hmirrors, fun id _ hin => by simp at hin, fun _ => rfl⟩, hcards, .nil⟩
  | append_singleton done action ih =>
    obtain ⟨before, hbefore, happly⟩ := replay_concat_ok.1 h
    have haccepts := apply_accepts happly
    have hdone := ih (fun a ha => hactions a (List.mem_append_left _ ha)) hbefore
      (returns_of_accepts haccepts hreturns)
    obtain ⟨hproblems, hshadows, l, hl, hrecord⟩ := hdone.shadows.apply (accounts_of_replay hbefore)
      (betting_of_replay hbefore) hblind (early_of_replay hbefore).current
      (hactions action (by simp)) happly hreturns
    have hlisted : action.actor ∈ hand.playerIds := by
      obtain ⟨hlisted, _⟩ := haccepts
      exact hlisted
    have hstep : replayHand hand 0 (done ++ [action]) =
        { table := (replayHand hand 0 done).table.step 0 hand.bigBlind action
          errors := (replayHand hand 0 done).errors ++
            ((replayHand hand 0 done).table.problems hand 0 action).map (.action done.length)
          warnings := (replayHand hand 0 done).warnings ++
            (replayHand hand 0 done).table.warnings hand 0 action
          reconstructed := (replayHand hand 0 done).reconstructed ++
            [((replayHand hand 0 done).table.step 0 hand.bigBlind action).reconstructed hand
              done.length]
          decisionSnapshots := (replayHand hand 0 done).decisionSnapshots ++
            [((replayHand hand 0 done).table.enter hand.bigBlind action.street).snapshot hand 0
              done.length action] } := by
      rw [replayHand_concat]
      exact if_pos hlisted
    refine ⟨?_, ?_, ?_⟩
    · rw [hstep]
      exact hshadows
    · rw [hstep, hdone.no_errors, hproblems]
      rfl
    · rw [hstep, hl]
      exact List.rel_append hdone.records (.cons hrecord .nil)

/-! ## Agreement -/

theorem cardErrors_eq_nil (h : Profiled hand 1 smallBlind bigBlind ante) : cardErrors hand = [] := by
  have hcards := h.cards
  unfold checkCardSet at hcards
  unfold cardErrors
  rw [if_pos h.board_length]
  cases hnormal : normalizeCards (hand.heroCards ++ hand.board) with
  | ok _ => rfl
  | error e =>
    rw [hnormal] at hcards
    cases hcards

/-- The validator accepts a hand of whole chips that the ledger accepts without
returning chips before the last street, and finds the same pots and stacks. -/
theorem validator_agreement {out : HandPotLedgerOutputV1}
    (hhand : validateProfileHand hand 1 = .ok (smallBlind, bigBlind, ante))
    (hreplay : replay hand 1 bigBlind hand.actions = .ok b)
    (hfinish : b.finish hand 1 = .ok out) (hwhole : WholeChips hand)
    (hreturns : ∀ r ∈ out.uncalledReturns, ∀ action ∈ hand.actions.getLast?,
      r.street = action.street) :
    ∃ v, validateHand hand (some 0) = .ok v ∧ v.valid = true ∧ v.errors = [] ∧
      v.finalPot = out.grossCommittedUnits ∧
      List.Forall₂ SameRecord v.reconstructedActions out.ledgerActions := by
  have hprofile := profiled_of_ok hhand
  have hblind : (hand.bigBlind : ℚ) = bigBlind := whole_eq hwhole.big_blind hprofile.big_blind_units
  simp only [LedgerBuilder.finish, LedgerBuilder.settle, bind_eq_ok, require_eq_ok, exists_const,
    pure_eq_ok] at hfinish
  obtain ⟨⟨hopened, _⟩, closed, hclosed, _, _, _, potLayers, _, _, _, _, _, rfl⟩ := hfinish
  obtain ⟨_, _, hcloses⟩ := closeStreet_closes hclosed
  have hkept : (∀ r ∈ b.returns, r ∈ closed.returns) ∧ closed.grossTotal = b.grossTotal ∧
      closed.actions = b.actions := by
    cases hcloses with
    | called => exact ⟨fun _ hr => hr, rfl, rfl⟩
    | uncalled => exact ⟨fun r hr => List.mem_append_left _ hr, rfl, rfl⟩
  have hearly := early_of_replay hreplay
  have hnone : b.returns = [] := by
    refine List.eq_nil_iff_forall_not_mem.2 fun r hr => ?_
    obtain ⟨current, hcurrent⟩ := Option.ne_none_iff_exists'.1 hopened
    have hlast := hearly.last
    rw [hcurrent] at hlast
    obtain ⟨action, haction, hstreet⟩ := Option.map_eq_some_iff.1 hlast.symm
    have hsame : r.street = current := (hreturns r (hkept.1 r hr) action haction).trans hstreet
    exact lt_irrefl _ (hearly.earlier r hr _ (hsame ▸ hearly.current current hcurrent))
  have hreplays := replays_of_replay (cardErrors_eq_nil hprofile) hblind hwhole hwhole.actions
    hreplay hnone
  refine ⟨(replayHand hand 0 hand.actions).result 0, (validateHand_ok hand).2 ⟨by simp, rfl⟩, ?_,
    hreplays.no_errors, ?_, ?_⟩
  · exact List.isEmpty_iff.2 hreplays.no_errors
  · refine hreplays.shadows.mirrors.pot.trans ?_
    exact congrArg Int.cast hkept.2.1.symm
  · show List.Forall₂ SameRecord _ closed.actions
    rw [hkept.2.2]
    exact hreplays.records

theorem validator_agreement_side_pot : ∃ v, ∃ out : HandPotLedgerOutputV1,
    validateHand sidePotHand (some 0) = .ok v ∧ v.valid = true ∧ v.finalPot = 102 ∧
      List.Forall₂ SameRecord v.reconstructedActions out.ledgerActions := by
  obtain ⟨b, hb, hresult⟩ : ∃ b, replay sidePotHand 1 2 sidePotHand.actions = .ok b ∧
      (b.finish sidePotHand 1).map (fun out => (out.grossCommittedUnits, out.uncalledReturns)) =
        .ok (102, []) := map_eq_ok.1 (by decide +kernel)
  obtain ⟨out, hout, hresult⟩ := map_eq_ok.1 hresult
  obtain ⟨hgross, hreturns⟩ := Prod.mk.inj hresult
  have hamount : ∀ action ∈ sidePotHand.actions,
      (action.amount : ℚ) = ((action.amount.num : ℕ) : ℚ) * 1 := by
    decide +kernel
  have hto : ∀ action ∈ sidePotHand.actions, ∀ v ∈ action.toAmount,
      (v : ℚ) = ((v.num : ℕ) : ℚ) * 1 := by
    decide +kernel
  have hbefore : ∀ action ∈ sidePotHand.actions, ∀ v ∈ action.potBefore,
      (v : ℚ) = ((v.num : ℕ) : ℚ) * 1 := by
    decide +kernel
  have hafter : ∀ action ∈ sidePotHand.actions, ∀ v ∈ action.potAfter,
      (v : ℚ) = ((v.num : ℕ) : ℚ) * 1 := by
    decide +kernel
  have hstacks : ∀ player ∈ sidePotHand.players,
      (player.startingStack : ℚ) = ((player.startingStack.num : ℕ) : ℚ) * 1 := by
    decide +kernel
  have hwhole : WholeChips sidePotHand :=
    ⟨⟨2, show ((2 : Chips) : ℚ) = _ by decide +kernel⟩, fun player h => ⟨_, hstacks player h⟩,
      fun action h => ⟨⟨_, hamount action h⟩, fun v hv => ⟨_, hto action h v hv⟩,
        fun v hv => ⟨_, hbefore action h v hv⟩, fun v hv => ⟨_, hafter action h v hv⟩⟩⟩
  obtain ⟨v, hv, hvalid, _, hpot, hrecords⟩ := validator_agreement
    (show validateProfileHand sidePotHand 1 = .ok (1, 2, 1) by decide +kernel) hb hout hwhole
    (by simp [hreturns])
  refine ⟨v, out, hv, hvalid, ?_, hrecords⟩
  rw [hpot, hgross]
  rfl

end

end PokerDeliberation.Ledger
