import PokerDeliberation.Ledger.Builder

/-!
# What an accepted action does

An accepted action enters its street (`Enters`) and then moves chips or folds
(`Moves`), apart from the bookkeeping of who has acted and what may be raised
(`Notes`). The invariants of the ledger are inductions over these.
-/

namespace PokerDeliberation.Ledger

open Lib Hands

section

variable {hand : CanonicalHand} {unit : ℚ} {bigBlind : Int}
variable {b b' s closed : LedgerBuilder} {index : Nat} {action : HandAction} {street : Street}
variable {actor : String} {amount : Int}

/-! ## Committed and returned chips -/

section Fields

variable {countsForBet : Bool} {id : String} {total : Int} {record : UncalledReturnV1}

@[simp] theorem committed_starting :
    (b.committed index actor amount countsForBet).starting = b.starting := rfl

@[simp] theorem committed_remaining : (b.committed index actor amount countsForBet).remaining id =
    if id = actor then b.remaining id - amount else b.remaining id := by
  simp only [LedgerBuilder.committed, Function.update_apply]
  split <;> simp_all

@[simp] theorem committed_gross : (b.committed index actor amount countsForBet).gross id =
    if id = actor then b.gross id + amount else b.gross id := by
  simp only [LedgerBuilder.committed, Function.update_apply]
  split <;> simp_all

@[simp] theorem committed_net : (b.committed index actor amount countsForBet).net id =
    if id = actor then b.net id + amount else b.net id := by
  simp only [LedgerBuilder.committed, Function.update_apply]
  split <;> simp_all

@[simp] theorem committed_streetContribution :
    (b.committed index actor amount countsForBet).streetContribution id =
      if id = actor ∧ countsForBet = true then b.streetContribution id + amount
      else b.streetContribution id := by
  simp only [LedgerBuilder.committed, Function.update_apply]
  split_ifs <;> simp_all

@[simp] theorem committed_currentBet :
    (b.committed index actor amount countsForBet).currentBet = b.currentBet := rfl

@[simp] theorem committed_active :
    (b.committed index actor amount countsForBet).active = b.active := rfl

@[simp] theorem committed_grossTotal :
    (b.committed index actor amount countsForBet).grossTotal = b.grossTotal + amount := rfl

@[simp] theorem committed_netTotal :
    (b.committed index actor amount countsForBet).netTotal = b.netTotal + amount := rfl

@[simp] theorem committed_returnedTotal :
    (b.committed index actor amount countsForBet).returnedTotal = b.returnedTotal := rfl

theorem committed_allIn : (b.committed index actor amount countsForBet).allIn =
    if b.remaining actor - amount = 0 then insert actor b.allIn else b.allIn := rfl

theorem mem_committed_allIn_of_ne (hne : id ≠ actor) :
    id ∈ (b.committed index actor amount countsForBet).allIn ↔ id ∈ b.allIn := by
  rw [committed_allIn]
  split
  · rw [Finset.mem_insert]
    exact or_iff_right hne
  · rfl

@[simp] theorem returned_starting : (b.returned actor amount total record).starting = b.starting :=
  rfl

@[simp] theorem returned_remaining : (b.returned actor amount total record).remaining id =
    if id = actor then b.remaining id + amount else b.remaining id := by
  simp only [LedgerBuilder.returned, Function.update_apply]
  split <;> simp_all

@[simp] theorem returned_net : (b.returned actor amount total record).net id =
    if id = actor then b.net id - amount else b.net id := by
  simp only [LedgerBuilder.returned, Function.update_apply]
  split <;> simp_all

@[simp] theorem returned_streetContribution :
    (b.returned actor amount total record).streetContribution id =
      if id = actor then b.streetContribution id - amount else b.streetContribution id := by
  simp only [LedgerBuilder.returned, Function.update_apply]
  split <;> simp_all

@[simp] theorem returned_grossTotal :
    (b.returned actor amount total record).grossTotal = b.grossTotal := rfl

@[simp] theorem returned_netTotal :
    (b.returned actor amount total record).netTotal = b.netTotal - amount := rfl

@[simp] theorem returned_returnedTotal :
    (b.returned actor amount total record).returnedTotal = total := rfl

@[simp] theorem returned_returns :
    (b.returned actor amount total record).returns = b.returns ++ [record] := rfl

theorem returned_allIn : (b.returned actor amount total record).allIn =
    if 0 < b.remaining actor + amount then b.allIn.erase actor else b.allIn := rfl

end Fields

/-! ## Bookkeeping -/

/-- `b'` is `b` up to the betting bookkeeping and the recorded actions. -/
def Notes (b b' : LedgerBuilder) : Prop :=
  ∃ minimumFullRaise actedLevel actedThisStreet voluntaryActionSeen actions,
    b' = { b with minimumFullRaise, actedLevel, actedThisStreet, voluntaryActionSeen, actions }

theorem Notes.refl (b : LedgerBuilder) : Notes b b := ⟨_, _, _, _, _, rfl⟩

theorem Notes.trans {c : LedgerBuilder} (h : Notes b b') (h' : Notes b' c) : Notes b c := by
  obtain ⟨_, _, _, _, _, rfl⟩ := h
  obtain ⟨m, l, a, v, as, rfl⟩ := h'
  exact ⟨m, l, a, v, as, rfl⟩

/-! ## Entering a street -/

/-- A street is closed: nothing is returned, or the uncalled part of the bet of
the one highest player. -/
inductive Closes (hand : CanonicalHand) (b : LedgerBuilder) : LedgerBuilder → Prop where
  | called (settled : ∀ id, b.highestPlayers hand = [id] →
      b.highestOf hand.playerIds ≤ b.second hand id) : Closes hand b b
  | uncalled {id street amount total record} (alone : b.highestPlayers hand = [id])
    (amount_eq : amount = b.highestOf hand.playerIds - b.second hand id) (positive : 0 < amount)
    (active : id ∈ b.active) (current : b.currentStreet = some street)
    (returned_nonneg : 0 ≤ b.returnedTotal) (remaining_nonneg : 0 ≤ b.remaining id)
    (total_eq : total = b.returnedTotal + amount)
    (record_eq : record =
      { street, playerId := id, amountUnits := amount,
        sourceActionIndexes := meeting (b.second hand id) (b.highestOf hand.playerIds)
          (b.streetIntervals id) }) :
    Closes hand b (b.returned id amount total record)

/-- The players who can still act have met the bet. -/
def Matched (hand : CanonicalHand) (b : LedgerBuilder) : Prop :=
  1 < b.active.card → ∀ id ∈ hand.playerIds, id ∈ b.active → id ∉ b.allIn →
    id ∈ b.actedThisStreet ∧ b.streetContribution id = b.currentBet

theorem returnUncalled_closes (hstreet : b.currentStreet = some street)
    (h : b.returnUncalled hand street = .ok closed) : Closes hand b closed := by
  unfold LedgerBuilder.returnUncalled at h
  split at h
  · next id halone =>
    dsimp only at h
    split at h
    · next hpos =>
      simp only [bind_eq_ok, require_eq_ok, exists_const, pure_eq_ok] at h
      obtain ⟨hactive, _, _, hremaining, _, htotal, _, _, rfl⟩ := h
      obtain ⟨hremaining, _, _⟩ := checkedAdd_ok hremaining
      obtain ⟨hreturned, _, rfl, _⟩ := checkedAdd_ok htotal
      exact .uncalled halone rfl hpos hactive hstreet hreturned hremaining rfl rfl
    · next hnot =>
      simp only [pure_eq_ok] at h
      subst h
      refine .called fun other hother => ?_
      rw [halone, List.cons.injEq] at hother
      obtain ⟨rfl, _⟩ := hother
      omega
  · next hmany =>
    cases h
    exact .called fun id halone => absurd halone (hmany id)

theorem closeStreet_closes (h : b.closeStreet hand = .ok closed) :
    b.currentStreet ≠ none ∧ Matched hand b ∧ Closes hand b closed := by
  unfold LedgerBuilder.closeStreet at h
  split at h
  · cases h
  · next street hstreet =>
    dsimp only at h
    refine ⟨by simp [hstreet], ?_⟩
    split at h
    · simp only [check_bind_eq_ok, forM_eq_ok] at h
      obtain ⟨hmatched, hreturn⟩ := h
      refine ⟨fun _ id hid hactive hin => ?_, returnUncalled_closes hstreet hreturn⟩
      have hchecks := hmatched id (by simp [hid, hactive, hin])
      simpa only [require_bind_eq_ok, require_eq_ok] using hchecks
    · next hone =>
      exact ⟨fun hmany => absurd hmany hone, returnUncalled_closes hstreet h⟩

/-- The action is on the current street, or a new one is opened. -/
inductive Enters (hand : CanonicalHand) (bigBlind : Int) (b : LedgerBuilder) (street : Street) :
    LedgerBuilder → Prop where
  | same (current : b.currentStreet = some street) : Enters hand bigBlind b street b
  | first {order} (current : b.currentStreet = none)
    (later : streetOrder street = some order ∧ b.lastStreetOrder < order) :
    Enters hand bigBlind b street (b.opened bigBlind street order)
  | next {order closed} (current : b.currentStreet ≠ none) (moved : b.currentStreet ≠ some street)
    (later : streetOrder street = some order ∧ b.lastStreetOrder < order)
    (matched : Matched hand b) (closes : Closes hand b closed) (many : 1 < closed.active.card) :
    Enters hand bigBlind b street (closed.opened bigBlind street order)

theorem Enters.current (h : Enters hand bigBlind b street s) : s.currentStreet = some street := by
  cases h with
  | same hcurrent => exact hcurrent
  | first => rfl
  | next => rfl

theorem enter_enters (h : b.enter hand bigBlind street = .ok s) :
    Enters hand bigBlind b street s := by
  unfold LedgerBuilder.enter at h
  split at h
  · next hcurrent =>
    cases h
    exact .same hcurrent.symm
  · next hmoved =>
    unfold LedgerBuilder.startStreet at h
    split at h
    · cases h
    · next order horder =>
      simp only [require_bind_eq_ok] at h
      obtain ⟨hlater, _, h⟩ := h
      split at h
      · next hnone =>
        simp only [pure_eq_ok] at h
        subst h
        exact .first hnone ⟨horder, hlater⟩
      · next hsome =>
        simp only [bind_eq_ok, require_eq_ok, pure_eq_ok] at h
        obtain ⟨closed, hclose, _, hmany, rfl⟩ := h
        obtain ⟨_, hmatched, hcloses⟩ := closeStreet_closes hclose
        exact .next hsome (fun he => hmoved he.symm) ⟨horder, hlater⟩ hmatched hcloses hmany

/-! ## Moving chips -/

theorem commit_ok {countsForBet : Bool}
    (h : b.commit index actor amount countsForBet = .ok b') :
    0 ≤ amount ∧ amount ≤ b.remaining actor ∧ b.netTotal + amount ≤ MAX_LEDGER_UNITS ∧
      (countsForBet = true → 0 ≤ b.streetContribution actor) ∧
      b' = b.committed index actor amount countsForBet := by
  unfold LedgerBuilder.commit at h
  cases countsForBet with
  | false =>
    simp only [Bool.false_eq_true, if_false, bind_eq_ok, require_eq_ok, exists_const,
      pure_eq_ok] at h
    obtain ⟨hle, _, hgross, _, _, _, _, total, htotal, rfl⟩ := h
    obtain ⟨_, hnonneg, _⟩ := checkedAdd_ok hgross
    obtain ⟨_, _, rfl, htotal⟩ := checkedAdd_ok htotal
    exact ⟨hnonneg, hle, htotal, by simp, rfl⟩
  | true =>
    simp only [if_true, bind_eq_ok, require_eq_ok, exists_const, pure_eq_ok] at h
    obtain ⟨hle, _, hgross, _, hstreet, _, _, _, _, total, htotal, rfl⟩ := h
    obtain ⟨_, hnonneg, _⟩ := checkedAdd_ok hgross
    obtain ⟨hstreet, _⟩ := checkedAdd_ok hstreet
    obtain ⟨_, _, rfl, htotal⟩ := checkedAdd_ok htotal
    exact ⟨hnonneg, hle, htotal, fun _ => hstreet, rfl⟩

/-- What an action on its street does, apart from the bookkeeping. -/
inductive Moves (b : LedgerBuilder) (index : Nat) (action : HandAction) (amount : Int) :
    LedgerBuilder → Prop where
  | ante (kind : action.action = .postAnte) (nonneg : 0 ≤ amount)
    (affordable : amount ≤ b.remaining action.actor)
    (limit : b.netTotal + amount ≤ MAX_LEDGER_UNITS) :
    Moves b index action amount (b.committed index action.actor amount false)
  | wager {currentBet : Int} (kind : action.action ∉ [.postAnte, .check, .fold])
    (nonneg : 0 ≤ amount) (affordable : amount ≤ b.remaining action.actor)
    (limit : b.netTotal + amount ≤ MAX_LEDGER_UNITS)
    (bet_eq : currentBet = max b.currentBet (b.streetContribution action.actor + amount)) :
    Moves b index action amount
      { b.committed index action.actor amount true with currentBet }
  | check (kind : action.action = .check) : Moves b index action amount b
  | fold (kind : action.action = .fold)
    (facing : b.streetContribution action.actor < b.currentBet) :
    Moves b index action amount
      { b with
        active := b.active.erase action.actor
        foldedAt := Function.update b.foldedAt action.actor (some index) }

/-- The record of an action passes its checks only with a positive minimum raise. -/
theorem appendAction_ok {raiseRights fullRaise : Bool}
    (h : b.appendAction index action amount raiseRights fullRaise = .ok b') :
    0 < b.minimumFullRaise ∧ Notes b b' := by
  simp only [LedgerBuilder.appendAction, LedgerActionV1.check, check_bind_eq_ok, require_eq_ok,
    pure_eq_ok] at h
  obtain ⟨⟨_, _, _, _, _, _, _, hpos, _⟩, rfl⟩ := h
  exact ⟨hpos, _, _, _, _, _, rfl⟩

theorem applyPost_moves (hkind : action.action = .postBlind ∨ action.action = .postAnte)
    (h : b.applyPost index action amount = .ok b') :
    ∃ core, Moves b index action amount core ∧ Notes core b' := by
  simp only [LedgerBuilder.applyPost, require_bind_eq_ok] at h
  obtain ⟨_, _, _, h⟩ := h
  split at h
  · next hante =>
    obtain ⟨hnonneg, hle, hlimit, _, rfl⟩ := commit_ok h
    exact ⟨_, .ante hante hnonneg hle hlimit, .refl _⟩
  · next hante =>
    simp only [bind_eq_ok, pure_eq_ok] at h
    obtain ⟨posted, hposted, rfl⟩ := h
    obtain ⟨hnonneg, hle, hlimit, _, rfl⟩ := commit_ok hposted
    have hblind := hkind.resolve_right hante
    refine ⟨_, .wager (by simp [hblind]) hnonneg hle hlimit ?_, .refl _⟩
    simp [LedgerBuilder.committed]

theorem applyCheck_moves {outstanding : Int} (hkind : action.action = .check)
    (h : b.applyCheck action amount outstanding = .ok b') :
    ∃ core, Moves b index action amount core ∧ Notes core b' := by
  simp only [LedgerBuilder.applyCheck, require_bind_eq_ok, pure_eq_ok] at h
  obtain ⟨_, _, rfl⟩ := h
  exact ⟨_, .check hkind, _, _, _, _, _, rfl⟩

theorem applyFold_moves (hkind : action.action = .fold)
    (h : b.applyFold index action amount (b.currentBet - b.streetContribution action.actor) =
      .ok b') : ∃ core, Moves b index action amount core ∧ Notes core b' := by
  simp only [LedgerBuilder.applyFold, require_bind_eq_ok, pure_eq_ok] at h
  obtain ⟨_, hfacing, rfl⟩ := h
  exact ⟨_, .fold hkind (by omega), _, _, _, _, _, rfl⟩

theorem applyCall_moves (hkind : action.action = .call)
    (h : b.applyCall unit index action amount
      (b.currentBet - b.streetContribution action.actor) = .ok b') :
    ∃ core, Moves b index action amount core ∧ Notes core b' := by
  simp only [LedgerBuilder.applyCall, bind_eq_ok, require_eq_ok, exists_const,
    pure_eq_ok] at h
  obtain ⟨⟨_, hrequired⟩, _, _, paid, hpaid, rfl⟩ := h
  obtain ⟨hnonneg, hle, hlimit, _, rfl⟩ := commit_ok hpaid
  have hbet : b.currentBet = max b.currentBet (b.streetContribution action.actor + amount) := by
    omega
  exact ⟨_, .wager (by simp [hkind]) hnonneg hle hlimit hbet, _, _, _, _, _, rfl⟩

theorem applyBet_moves (hkind : action.action = .bet)
    (h : b.applyBet unit bigBlind index action amount = .ok b') :
    ∃ core, Moves b index action amount core ∧ Notes core b' := by
  simp only [LedgerBuilder.applyBet, bind_eq_ok, require_eq_ok, exists_const,
    pure_eq_ok] at h
  obtain ⟨hopen, _, _, _, _, paid, hpaid, rfl⟩ := h
  obtain ⟨hnonneg, hle, hlimit, hstreet, rfl⟩ := commit_ok hpaid
  have hbet : b.streetContribution action.actor + amount =
      max b.currentBet (b.streetContribution action.actor + amount) := by
    have := hstreet rfl
    omega
  exact ⟨_, .wager (by simp [hkind]) hnonneg hle hlimit hbet, _, _, _, _, _, rfl⟩

theorem applyRaise_moves (hkind : action.action = .raise)
    (h : b.applyRaise unit index action amount = .ok b') (hminimum : 0 < b'.minimumFullRaise) :
    ∃ core, Moves b index action amount core ∧ Notes core b' := by
  simp only [LedgerBuilder.applyRaise, bind_eq_ok, require_eq_ok, exists_const,
    pure_eq_ok] at h
  obtain ⟨_, _, _, _, _, _, paid, hpaid, rfl⟩ := h
  obtain ⟨hnonneg, hle, hlimit, _, rfl⟩ := commit_ok hpaid
  have hbet : b.streetContribution action.actor + amount =
      max b.currentBet (b.streetContribution action.actor + amount) := by
    -- the increment is the new minimum raise
    simp only [LedgerBuilder.acted, LedgerBuilder.withBet] at hminimum
    omega
  exact ⟨_, .wager (by simp [hkind]) hnonneg hle hlimit hbet, _, _, _, _, _, rfl⟩

theorem applyAllIn_moves (hkind : action.action = .allIn)
    (h : b.applyAllIn unit index action amount = .ok b') :
    ∃ core, Moves b index action amount core ∧ Notes core b' := by
  simp only [LedgerBuilder.applyAllIn, bind_eq_ok, require_eq_ok, exists_const,
    pure_eq_ok] at h
  obtain ⟨_, _, _, _, paid, hpaid, rfl⟩ := h
  obtain ⟨hnonneg, hle, hlimit, _, rfl⟩ := commit_ok hpaid
  unfold LedgerBuilder.allInBet at hle hlimit ⊢
  dsimp only at hle hlimit ⊢
  split at hle
  · next hover =>
    rw [if_pos hover] at hlimit ⊢
    have hbet : b.streetContribution action.actor + amount =
        max b.currentBet (b.streetContribution action.actor + amount) := by omega
    exact ⟨_, .wager (by simp [hkind]) hnonneg hle hlimit hbet, _, _, _, _, _, rfl⟩
  · next hunder =>
    rw [if_neg hunder] at hlimit ⊢
    have hbet : b.currentBet =
        max b.currentBet (b.streetContribution action.actor + amount) := by omega
    exact ⟨_, .wager (by simp [hkind]) hnonneg hle hlimit hbet, _, _, _, _, _, rfl⟩

/-- The bookkeeping plays no part in a move. -/
theorem Moves.of_notes {noted core : LedgerBuilder} (hnotes : Notes b noted)
    (h : Moves noted index action amount core) :
    ∃ core', Moves b index action amount core' ∧ Notes core' core := by
  obtain ⟨_, _, _, _, _, rfl⟩ := hnotes
  cases h with
  | ante hkind hnonneg hle hlimit =>
    exact ⟨_, .ante hkind hnonneg hle hlimit, _, _, _, _, _, rfl⟩
  | wager hkind hnonneg hle hlimit hbet =>
    exact ⟨_, .wager hkind hnonneg hle hlimit hbet, _, _, _, _, _, rfl⟩
  | check hkind => exact ⟨_, .check hkind, _, _, _, _, _, rfl⟩
  | fold hkind hfacing => exact ⟨_, .fold hkind hfacing, _, _, _, _, _, rfl⟩

theorem applyKind_moves
    (h : b.applyKind unit bigBlind index action amount
      (b.currentBet - b.streetContribution action.actor) = .ok b')
    (hminimum : 0 < b'.minimumFullRaise) :
    ∃ core, Moves b index action amount core ∧ Notes core b' := by
  have hvoluntary : Notes b { b with voluntaryActionSeen := true } := ⟨_, _, _, _, _, rfl⟩
  suffices hmoves : ∃ noted core, Notes b noted ∧ Moves noted index action amount core ∧
      Notes core b' by
    obtain ⟨noted, core, hnotes, hmove, hrest⟩ := hmoves
    obtain ⟨core', hmove, hnotes⟩ := hmove.of_notes hnotes
    exact ⟨core', hmove, hnotes.trans hrest⟩
  unfold LedgerBuilder.applyKind at h
  cases hkind : action.action <;> rw [hkind] at h
  case postBlind =>
    obtain ⟨core, hmove, hrest⟩ := applyPost_moves (.inl hkind) h
    exact ⟨b, core, .refl b, hmove, hrest⟩
  case postAnte =>
    obtain ⟨core, hmove, hrest⟩ := applyPost_moves (.inr hkind) h
    exact ⟨b, core, .refl b, hmove, hrest⟩
  case check =>
    obtain ⟨core, hmove, hrest⟩ := applyCheck_moves hkind h
    exact ⟨_, core, hvoluntary, hmove, hrest⟩
  case fold =>
    obtain ⟨core, hmove, hrest⟩ := applyFold_moves hkind h
    exact ⟨_, core, hvoluntary, hmove, hrest⟩
  case call =>
    obtain ⟨core, hmove, hrest⟩ := applyCall_moves hkind h
    exact ⟨_, core, hvoluntary, hmove, hrest⟩
  case bet =>
    obtain ⟨core, hmove, hrest⟩ := applyBet_moves hkind h
    exact ⟨_, core, hvoluntary, hmove, hrest⟩
  case raise =>
    obtain ⟨core, hmove, hrest⟩ := applyRaise_moves hkind h hminimum
    exact ⟨_, core, hvoluntary, hmove, hrest⟩
  case allIn =>
    obtain ⟨core, hmove, hrest⟩ := applyAllIn_moves hkind h
    exact ⟨_, core, hvoluntary, hmove, hrest⟩

/-! ## Accepted actions -/

/-- What an accepted action does. -/
inductive Accepts (hand : CanonicalHand) (unit : ℚ) (bigBlind : Int) (b : LedgerBuilder)
    (index : Nat) (action : HandAction) : LedgerBuilder → Prop where
  | intro {s amount core after} (listed : action.actor ∈ hand.playerIds)
    (enters : Enters hand bigBlind b action.street s) (active : action.actor ∈ s.active)
    (able : action.actor ∉ s.allIn) (units : decimalUnits action.amount unit = .ok amount)
    (moves : Moves s index action amount core) (notes : Notes core after) :
    Accepts hand unit bigBlind b index action after

theorem apply_accepts (h : b.apply hand unit bigBlind index action = .ok b') :
    Accepts hand unit bigBlind b index action b' := by
  simp only [LedgerBuilder.apply, LedgerBuilder.applyOnStreet, bind_eq_ok, require_eq_ok,
    exists_const] at h
  obtain ⟨hlisted, s, henter, hactive, hable, _, amount, hunits, _, _, _, after, hkind, _, _,
    happend⟩ := h
  obtain ⟨hminimum, hrecorded⟩ := appendAction_ok happend
  obtain ⟨core, hmove, hnotes⟩ := applyKind_moves hkind hminimum
  exact .intro hlisted (enter_enters henter) hactive hable hunits hmove (hnotes.trans hrecorded)

/-- The last action of a replay is applied to the replay of the others. -/
theorem replay_concat_ok {done : List HandAction} :
    replay hand unit bigBlind (done ++ [action]) = .ok b' ↔
      ∃ b, replay hand unit bigBlind done = .ok b ∧
        b.apply hand unit bigBlind done.length action = .ok b' := by
  simp only [replay, bind_eq_ok, foldlM_zipIdx_concat_ok]
  exact ⟨fun ⟨start, hstart, b, hrun, happly⟩ => ⟨b, ⟨start, hstart, hrun⟩, happly⟩,
    fun ⟨b, ⟨start, hstart, hrun⟩, happly⟩ => ⟨start, hstart, b, hrun, happly⟩⟩

/-- What holds of a new builder and is kept by every applied action holds after
every replay; `I` may speak of the actions replayed. -/
theorem replay_run {I : List HandAction → LedgerBuilder → Prop}
    (hinit : ∀ b, LedgerBuilder.init hand unit bigBlind = .ok b → I [] b)
    (hstep : ∀ done b action b', I done b →
      b.apply hand unit bigBlind done.length action = .ok b' → I (done ++ [action]) b')
    {actions : List HandAction} (h : replay hand unit bigBlind actions = .ok b) : I actions b := by
  induction actions using List.reverseRecOn generalizing b with
  | nil =>
    simp only [replay, List.zipIdx_nil, List.foldlM_nil, bind_eq_ok, pure_eq_ok,
      exists_eq_right] at h
    exact hinit b h
  | append_singleton done action ih =>
    obtain ⟨before, hbefore, happly⟩ := replay_concat_ok.1 h
    exact hstep done before action b (ih hbefore) happly

theorem replay_induction {I : List HandAction → LedgerBuilder → Prop}
    (hinit : ∀ b, LedgerBuilder.init hand unit bigBlind = .ok b → I [] b)
    (hstep : ∀ done b action b', I done b →
      Accepts hand unit bigBlind b done.length action b' → I (done ++ [action]) b')
    {actions : List HandAction} (h : replay hand unit bigBlind actions = .ok b) : I actions b :=
  replay_run hinit (fun done b action b' hb happly => hstep done b action b' hb (apply_accepts happly))
    h

end

end PokerDeliberation.Ledger
