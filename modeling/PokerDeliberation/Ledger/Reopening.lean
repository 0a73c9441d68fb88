import PokerDeliberation.Ledger.Conservation
import Mathlib.Algebra.Order.BigOperators.Group.List
import Mathlib.Data.List.DropRight

/-!
# Reopened betting

The builder decides whether a player may raise again from the bet at which the
player last acted (`actedLevel`) and one minimum for the street. `Reopened` says
it of the turns of the street instead: since the player's last turn there was a
full bet or raise, or the short all-ins add up to the last full one. `Follows`
is what the two numbers know of the turns, and every accepted action keeps it.
-/

namespace PokerDeliberation.Ledger

open Lib Hands

/-! ## The turns of a street -/

/-- What the betting sees of an action. A forced turn is a blind or an ante. -/
structure Turn (P : Type) where
  player : P
  forced : Bool
  allIn : Bool
  full : Bool
  rise : Int
  deriving DecidableEq, Repr

section

variable {P : Type} [DecidableEq P]

/-- The player acts; a forced post is not an action of the player. -/
def Turn.actedBy (t : Turn P) (p : P) : Bool := t.player = p && !t.forced

/-- The turns since the player last acted. -/
def since (p : P) (turns : List (Turn P)) : List (Turn P) := turns.rtakeWhile fun t => !t.actedBy p

def totalRise (turns : List (Turn P)) : Int := (turns.map (·.rise)).sum

/-- The size of the last full bet or raise, the big blind if there is none. -/
def lastFullSize (bigBlind : Int) (turns : List (Turn P)) : Int :=
  ((turns.filter (·.full)).getLast?.map (·.rise)).getD bigBlind

/-- What the all-ins that are no full raises add to the bet. -/
def shortAllIns (turns : List (Turn P)) : Int :=
  totalRise (turns.filter fun t => t.allIn && !t.full)

/-- The betting is open again to a player who has acted. -/
def Reopened (bigBlind : Int) (p : P) (turns : List (Turn P)) : Prop :=
  (∃ t ∈ since p turns, t.full = true ∧ t.player ≠ p) ∨
    lastFullSize bigBlind turns ≤ shortAllIns (since p turns)

/-- No turn lowers the bet, no forced turn is full, and only a full bet or raise
and an all-in raise the bet after the forced turns. -/
structure Turn.Lawful (t : Turn P) : Prop where
  rise_nonneg : 0 ≤ t.rise
  full_voluntary : t.full = true → t.forced = false
  quiet : t.forced = false → t.full = false → t.allIn = false → t.rise = 0

/-- What the bet, the minimum raise and the levels at which the players last
acted know of the turns. -/
structure Follows (bigBlind bet minimum : Int) (level : P → Option Int) (seen : Bool)
    (turns : List (Turn P)) : Prop where
  lawful : ∀ t ∈ turns, t.Lawful
  minimum_eq : minimum = lastFullSize bigBlind turns
  silent : ∀ p, level p = none → ∀ t ∈ turns, t.actedBy p = false
  voluntary : ∀ p l, level p = some l → seen = true ∧ ∀ t ∈ since p turns, t.forced = false
  level_eq : ∀ p l, level p = some l → bet - l = totalRise (since p turns)

variable {bigBlind bet bet' minimum : Int} {level : P → Option Int} {seen : Bool}
variable {turns : List (Turn P)} {t : Turn P} {p : P}

theorem since_concat (p : P) (turns : List (Turn P)) (t : Turn P) :
    since p (turns ++ [t]) = if t.actedBy p then [] else since p turns ++ [t] := by
  rw [since, List.rtakeWhile_concat]
  cases t.actedBy p <;> rfl

omit [DecidableEq P] in
theorem totalRise_concat (turns : List (Turn P)) (t : Turn P) :
    totalRise (turns ++ [t]) = totalRise turns + t.rise := by
  simp [totalRise]

omit [DecidableEq P] in
theorem lastFullSize_concat (bigBlind : Int) (turns : List (Turn P)) (t : Turn P) :
    lastFullSize bigBlind (turns ++ [t]) =
      if t.full then t.rise else lastFullSize bigBlind turns := by
  unfold lastFullSize
  rw [List.filter_append]
  cases hfull : t.full
  · simp [hfull]
  · simp [hfull]

/-- The start of a street. -/
theorem Follows.start (bigBlind : Int) (seen : Bool) :
    Follows bigBlind 0 bigBlind (fun _ : P => none) seen [] where
  lawful := by simp
  minimum_eq := rfl
  silent := by simp
  voluntary := by simp
  level_eq := by simp

/-- A forced turn comes before every action. -/
theorem Follows.post (h : Follows bigBlind bet minimum level false turns) (hlawful : t.Lawful)
    (hforced : t.forced = true) : Follows bigBlind bet' minimum level false (turns ++ [t]) where
  lawful u hu := by
    rcases List.mem_append.1 hu with hu | hu
    · exact h.lawful u hu
    · exact List.mem_singleton.1 hu ▸ hlawful
  minimum_eq := by
    have hfull : ¬ t.full = true := fun hfull => by
      rw [hlawful.full_voluntary hfull] at hforced
      cases hforced
    rw [lastFullSize_concat, if_neg hfull]
    exact h.minimum_eq
  silent p hp u hu := by
    rcases List.mem_append.1 hu with hu | hu
    · exact h.silent p hp u hu
    · rw [List.mem_singleton.1 hu]
      simp [Turn.actedBy, hforced]
  voluntary p l hl := absurd (h.voluntary p l hl).1 Bool.false_ne_true
  level_eq p l hl := absurd (h.voluntary p l hl).1 Bool.false_ne_true

/-- An action of a player, who has then acted at the new bet. -/
theorem Follows.act (h : Follows bigBlind bet minimum level seen turns) (hlawful : t.Lawful)
    (hvoluntary : t.forced = false) (hrise : t.rise = bet' - bet) :
    Follows bigBlind bet' (if t.full then t.rise else minimum)
      (Function.update level t.player (some bet')) true (turns ++ [t]) where
  lawful u hu := by
    rcases List.mem_append.1 hu with hu | hu
    · exact h.lawful u hu
    · exact List.mem_singleton.1 hu ▸ hlawful
  minimum_eq := by rw [lastFullSize_concat, h.minimum_eq]
  silent p hp u hu := by
    have hne : p ≠ t.player := by
      rintro rfl
      rw [Function.update_self] at hp
      cases hp
    rw [Function.update_of_ne hne] at hp
    rcases List.mem_append.1 hu with hu | hu
    · exact h.silent p hp u hu
    · rw [List.mem_singleton.1 hu]
      simp [Turn.actedBy, hne.symm]
  voluntary p l hl := by
    refine ⟨rfl, fun u hu => ?_⟩
    rw [since_concat] at hu
    by_cases hp : p = t.player
    · subst hp
      simp [Turn.actedBy, hvoluntary] at hu
    · rw [Function.update_of_ne hp] at hl
      rw [if_neg (by simp [Turn.actedBy, Ne.symm hp])] at hu
      rcases List.mem_append.1 hu with hu | hu
      · exact (h.voluntary p l hl).2 u hu
      · exact List.mem_singleton.1 hu ▸ hvoluntary
  level_eq p l hl := by
    rw [since_concat]
    by_cases hp : p = t.player
    · subst hp
      rw [Function.update_self, Option.some.injEq] at hl
      rw [if_pos (by simp [Turn.actedBy, hvoluntary]), hl, sub_self]
      rfl
    · rw [Function.update_of_ne hp] at hl
      rw [if_neg (by simp [Turn.actedBy, Ne.symm hp]), totalRise_concat, ← h.level_eq p l hl, hrise]
      omega

/-! ## The difference test -/

omit [DecidableEq P] in
theorem rise_le_totalRise (hlawful : ∀ t ∈ turns, t.Lawful) (h : t ∈ turns) :
    t.rise ≤ totalRise turns :=
  List.single_le_sum (List.forall_mem_map.2 fun u hu => (hlawful u hu).rise_nonneg) _
    (List.mem_map_of_mem h)

omit [DecidableEq P] in
theorem shortAllIns_le_totalRise (hlawful : ∀ t ∈ turns, t.Lawful) :
    shortAllIns turns ≤ totalRise turns := by
  refine List.Sublist.sum_le_sum (List.filter_sublist.map _) fun r hr => ?_
  obtain ⟨t, ht, rfl⟩ := List.mem_map.1 hr
  exact (hlawful t ht).rise_nonneg

omit [DecidableEq P] in
/-- Without a full bet or raise only the short all-ins raise the bet. -/
theorem shortAllIns_eq_totalRise (hlawful : ∀ t ∈ turns, t.Lawful)
    (hforced : ∀ t ∈ turns, t.forced = false) (hfull : ∀ t ∈ turns, t.full = false) :
    shortAllIns turns = totalRise turns := by
  induction turns with
  | nil => rfl
  | cons t turns ih =>
    obtain ⟨hlawful, hrest⟩ := List.forall_mem_cons.1 hlawful
    obtain ⟨hforced, hforced'⟩ := List.forall_mem_cons.1 hforced
    obtain ⟨hfull, hfull'⟩ := List.forall_mem_cons.1 hfull
    have ih := ih hrest hforced' hfull'
    unfold shortAllIns totalRise at ih ⊢
    cases hallIn : t.allIn
    · have hquiet := hlawful.quiet hforced hfull hallIn
      simp [hallIn, hquiet, ih]
    · simp [hallIn, hfull, ih]

/-- The last full bet or raise of the street is one since the player acted, if there was any. -/
theorem exists_lastFullSize {u : Turn P} (hu : u ∈ since p turns) (hfull : u.full = true) :
    ∃ t ∈ since p turns, lastFullSize bigBlind turns = t.rise := by
  have hsplit : turns.rdropWhile (fun t => !t.actedBy p) ++ since p turns = turns :=
    List.rdropWhile_append_rtakeWhile
  have hne : (since p turns).filter (·.full) ≠ [] :=
    List.ne_nil_of_mem (List.mem_filter.2 ⟨hu, hfull⟩)
  have hlast : (turns.filter (·.full)).getLast? = ((since p turns).filter (·.full)).getLast? := by
    conv_lhs => rw [← hsplit]
    rw [List.filter_append, List.getLast?_append_of_ne_nil _ hne]
  refine ⟨_, (List.mem_filter.1 (List.getLast_mem hne)).1, ?_⟩
  rw [lastFullSize, hlast, List.getLast?_eq_some_getLast hne]
  rfl

/-- The difference of the bet and the player's level is the minimum raise or
more just when the betting is open again. -/
theorem Follows.reopened_iff (h : Follows bigBlind bet minimum level seen turns) {l : Int}
    (hl : level p = some l) : minimum ≤ bet - l ↔ Reopened bigBlind p turns := by
  have hsub : ∀ t ∈ since p turns, t ∈ turns := fun t ht =>
    (List.rtakeWhile_suffix _ _).subset ht
  have hlawful : ∀ t ∈ since p turns, t.Lawful := fun t ht => h.lawful t (hsub t ht)
  have hforced := (h.voluntary p l hl).2
  rw [h.level_eq p l hl, h.minimum_eq]
  constructor
  · intro hle
    by_cases hfull : ∃ t ∈ since p turns, t.full = true
    · obtain ⟨t, ht, hfull⟩ := hfull
      refine .inl ⟨t, ht, hfull, fun hplayer => ?_⟩
      have hacted := List.mem_rtakeWhile_imp (p := fun t : Turn P => !t.actedBy p) ht
      simp [Turn.actedBy, hplayer, hforced t ht] at hacted
    · have hnone : ∀ t ∈ since p turns, t.full = false := fun t ht =>
        Bool.eq_false_iff.2 fun hfull' => hfull ⟨t, ht, hfull'⟩
      exact .inr (by rwa [shortAllIns_eq_totalRise hlawful hforced hnone])
  · rintro (⟨t, ht, hfull, -⟩ | hshort)
    · obtain ⟨last, hlast, heq⟩ := @exists_lastFullSize _ _ bigBlind _ _ _ ht hfull
      rw [heq]
      exact rise_le_totalRise hlawful hlast
    · exact hshort.trans (shortAllIns_le_totalRise hlawful)

end

/-! ## The recorded turns -/

def LedgerActionV1.forced (r : LedgerActionV1) : Bool := r.action = .postBlind || r.action = .postAnte

/-- A recorded action as the betting sees it, on a bet that was `bet`. -/
def LedgerActionV1.turn (r : LedgerActionV1) (bet : Int) : Turn String where
  player := r.actor
  forced := r.forced
  allIn := r.action = .allIn
  full := r.fullRaise
  rise := r.currentBetUnitsAfter - bet

/-- The turns of the recorded actions of a street, the bet starting at `bet`. -/
def turnsFrom (bet : Int) : List LedgerActionV1 → List (Turn String)
  | [] => []
  | r :: records => r.turn bet :: turnsFrom r.currentBetUnitsAfter records

/-- The bet after the recorded actions. -/
def betAfter (bet : Int) (records : List LedgerActionV1) : Int :=
  (records.getLast?.map (·.currentBetUnitsAfter)).getD bet

/-- The recorded actions of the current street. -/
def LedgerBuilder.streetRecords (b : LedgerBuilder) : List LedgerActionV1 :=
  b.actions.filter fun r => some r.street = b.currentStreet

/-- The turns of the current street so far. -/
def LedgerBuilder.streetTurns (b : LedgerBuilder) : List (Turn String) := turnsFrom 0 b.streetRecords

theorem turnsFrom_concat (r : LedgerActionV1) : ∀ (bet : Int) (records : List LedgerActionV1),
    turnsFrom bet (records ++ [r]) = turnsFrom bet records ++ [r.turn (betAfter bet records)]
  | _, [] => rfl
  | bet, first :: records => by
    have hbet : betAfter bet (first :: records) = betAfter first.currentBetUnitsAfter records := by
      cases hlast : records.getLast? with
      | none => simp [betAfter, List.getLast?_eq_none_iff.1 hlast]
      | some last => simp [betAfter, List.getLast?_cons, hlast]
    rw [List.cons_append, turnsFrom, turnsFrom_concat r _ records, turnsFrom, hbet]
    rfl

/-! ## The betting of an accepted action -/

section

variable {hand : CanonicalHand} {unit : ℚ} {bigBlind : Int}
variable {b b' s after : LedgerBuilder} {index : Nat} {action : HandAction} {street : Street}
variable {amount outstanding : Int} {full : Bool}

/-- What an action does to the bet, the minimum raise and the levels. -/
inductive Bets (s : LedgerBuilder) (action : HandAction) (full : Bool) (after : LedgerBuilder) :
    Prop where
  | posts (kind : action.action = .postBlind ∨ action.action = .postAnte) (not_full : full = false)
    (first : s.voluntaryActionSeen = false ∧ after.voluntaryActionSeen = false)
    (rises : s.currentBet ≤ after.currentBet)
    (minimum : after.minimumFullRaise = s.minimumFullRaise) (level : after.actedLevel = s.actedLevel)
  | acts (kind : action.action ∉ [.postBlind, .postAnte])
    (seen : after.voluntaryActionSeen = true) (rises : s.currentBet ≤ after.currentBet)
    (minimum : after.minimumFullRaise =
      if full then after.currentBet - s.currentBet else s.minimumFullRaise)
    (quiet : full = false → action.action ≠ .allIn → after.currentBet = s.currentBet)
    (level : after.actedLevel =
      Function.update s.actedLevel action.actor (some after.currentBet))

/-- The street and the recorded actions stay. -/
def SameRecords (s after : LedgerBuilder) : Prop :=
  after.currentStreet = s.currentStreet ∧ after.lastStreetOrder = s.lastStreetOrder ∧
    after.actions = s.actions

theorem applyPost_bets (hkind : action.action = .postBlind ∨ action.action = .postAnte)
    (h : s.applyPost index action amount = .ok after) :
    Bets s action false after ∧ SameRecords s after := by
  simp only [LedgerBuilder.applyPost, require_bind_eq_ok] at h
  obtain ⟨⟨_, hseen⟩, _, _, h⟩ := h
  split at h
  · obtain ⟨_, _, _, _, rfl⟩ := commit_ok h
    exact ⟨.posts hkind rfl ⟨hseen, hseen⟩ le_rfl rfl rfl, rfl, rfl, rfl⟩
  · simp only [bind_eq_ok, pure_eq_ok] at h
    obtain ⟨posted, hposted, rfl⟩ := h
    obtain ⟨_, _, _, _, rfl⟩ := commit_ok hposted
    exact ⟨.posts hkind rfl ⟨hseen, hseen⟩ (le_max_left _ _) rfl rfl, rfl, rfl, rfl⟩

theorem applyKind_bets (h : s.applyKind unit bigBlind index action amount outstanding = .ok after)
    (hminimum : 0 < after.minimumFullRaise) :
    Bets s action (s.isFullRaise action amount) after ∧ SameRecords s after := by
  unfold LedgerBuilder.applyKind at h
  unfold LedgerBuilder.isFullRaise
  cases hkind : action.action <;> rw [hkind] at h
  case postBlind => exact applyPost_bets (.inl hkind) h
  case postAnte => exact applyPost_bets (.inr hkind) h
  case check =>
    simp only [LedgerBuilder.applyCheck, require_bind_eq_ok, pure_eq_ok] at h
    obtain ⟨_, _, rfl⟩ := h
    exact ⟨.acts (by simp [hkind]) rfl le_rfl rfl (fun _ _ => rfl) rfl, rfl, rfl, rfl⟩
  case fold =>
    simp only [LedgerBuilder.applyFold, require_bind_eq_ok, pure_eq_ok] at h
    obtain ⟨_, _, rfl⟩ := h
    exact ⟨.acts (by simp [hkind]) rfl le_rfl rfl (fun _ _ => rfl) rfl, rfl, rfl, rfl⟩
  case call =>
    simp only [LedgerBuilder.applyCall, bind_eq_ok, require_eq_ok, exists_const, pure_eq_ok] at h
    obtain ⟨_, _, _, paid, hpaid, rfl⟩ := h
    obtain ⟨_, _, _, _, rfl⟩ := commit_ok hpaid
    exact ⟨.acts (by simp [hkind]) rfl le_rfl rfl (fun _ _ => rfl) rfl, rfl, rfl, rfl⟩
  case bet =>
    simp only [LedgerBuilder.applyBet, bind_eq_ok, require_eq_ok, exists_const, pure_eq_ok] at h
    obtain ⟨hopen, _, _, _, _, paid, hpaid, rfl⟩ := h
    obtain ⟨_, _, _, _, rfl⟩ := commit_ok hpaid
    -- an opening bet is its own increment
    have hopen : s.currentBet = 0 := hopen
    have hpos : 0 < s.streetContribution action.actor + amount := hminimum
    refine ⟨.acts (by simp [hkind]) rfl ?_ ?_ (fun h => by cases h) rfl, rfl, rfl, rfl⟩
    · rw [hopen]
      exact hpos.le
    · rw [hopen, if_pos rfl, sub_zero]
      rfl
  case raise =>
    simp only [LedgerBuilder.applyRaise, bind_eq_ok, require_eq_ok, exists_const, pure_eq_ok] at h
    obtain ⟨_, _, _, _, _, _, paid, hpaid, rfl⟩ := h
    obtain ⟨_, _, _, _, rfl⟩ := commit_ok hpaid
    have hpos : 0 < s.streetContribution action.actor + amount - s.currentBet := hminimum
    refine ⟨.acts (by simp [hkind]) rfl ?_ rfl (fun h => by cases h) rfl, rfl, rfl, rfl⟩
    show s.currentBet ≤ s.streetContribution action.actor + amount
    omega
  case allIn =>
    simp only [LedgerBuilder.applyAllIn, bind_eq_ok, require_eq_ok, exists_const, pure_eq_ok] at h
    obtain ⟨_, _, _, _, paid, hpaid, rfl⟩ := h
    obtain ⟨_, _, _, _, rfl⟩ := commit_ok hpaid
    unfold LedgerBuilder.allInBet
    dsimp only
    by_cases hover : s.currentBet < s.streetContribution action.actor + amount
    · rw [if_pos hover]
      refine ⟨.acts (by simp [hkind]) rfl hover.le ?_ (fun _ h => absurd hkind h) rfl, rfl, rfl, rfl⟩
      simp only [hover, decide_true, Bool.true_and, decide_eq_true_eq]
      rfl
    · rw [if_neg hover]
      refine ⟨.acts (by simp [hkind]) rfl le_rfl ?_ (fun _ _ => rfl) rfl, rfl, rfl, rfl⟩
      simp only [hover, decide_false, Bool.false_and, Bool.false_eq_true, if_false]
      rfl

/-! ## Every run -/

/-- The street order grows with the recorded actions, and the betting state
follows the turns of the current street. -/
structure Told (bigBlind : Int) (b : LedgerBuilder) : Prop where
  current : ∀ street, b.currentStreet = some street → streetOrder street = some b.lastStreetOrder
  past : ∀ r ∈ b.actions, ∃ order, streetOrder r.street = some order ∧ order ≤ b.lastStreetOrder
  bet_eq : b.currentBet = betAfter 0 b.streetRecords
  follows : Follows bigBlind b.currentBet b.minimumFullRaise b.actedLevel b.voluntaryActionSeen
    b.streetTurns

theorem Closes.sameRecords {closed : LedgerBuilder} (h : Closes hand b closed) :
    SameRecords b closed := by
  cases h <;> exact ⟨rfl, rfl, rfl⟩

/-- A new street has no turns yet. -/
theorem Told.opened {order : Int} (hpast : ∀ r ∈ b.actions, ∃ order, streetOrder r.street = some order ∧
      order ≤ b.lastStreetOrder) (hlater : streetOrder street = some order ∧ b.lastStreetOrder < order) :
    Told bigBlind (b.opened bigBlind street order) := by
  have hrecords : (b.opened bigBlind street order).streetRecords = [] := by
    refine List.filter_eq_nil_iff.2 fun r hr hcurrent => ?_
    obtain ⟨earlier, horder, hle⟩ := hpast r hr
    have hstreet : r.street = street := Option.some.inj (of_decide_eq_true hcurrent)
    rw [hstreet, hlater.1, Option.some.injEq] at horder
    omega
  refine ⟨fun other hother => ?_, fun r hr => ?_, ?_, ?_⟩
  · rw [← Option.some.inj hother]
    exact hlater.1
  · obtain ⟨earlier, horder, hle⟩ := hpast r hr
    exact ⟨earlier, horder, hle.trans hlater.2.le⟩
  · rw [hrecords]
    rfl
  · rw [LedgerBuilder.streetTurns, hrecords]
    exact .start bigBlind b.voluntaryActionSeen

theorem Told.enters (h : Told bigBlind b) (henters : Enters hand bigBlind b street s) :
    Told bigBlind s := by
  cases henters with
  | same => exact h
  | first _ hlater => exact .opened h.past hlater
  | next _ _ hlater _ hcloses _ =>
    obtain ⟨-, horder, hactions⟩ := hcloses.sameRecords
    exact .opened (by rw [horder, hactions]; exact h.past) (by rw [horder]; exact hlater)

/-- The state with an action recorded. -/
def LedgerBuilder.recorded (b : LedgerBuilder) (r : LedgerActionV1) : LedgerBuilder :=
  { b with actions := b.actions ++ [r] }

/-- A recorded action is the next turn of the street. -/
theorem Told.bets (h : Told bigBlind s) {r : LedgerActionV1} (hbets : Bets s action full after)
    (hsame : SameRecords s after) (hstreet : s.currentStreet = some r.street)
    (hactor : r.actor = action.actor) (hkind : r.action = action.action) (hfull : r.fullRaise = full)
    (hbet : r.currentBetUnitsAfter = after.currentBet) : Told bigBlind (after.recorded r) := by
  obtain ⟨hcurrent, horder, hactions⟩ := hsame
  have hrecords : (after.recorded r).streetRecords = s.streetRecords ++ [r] := by
    simp [LedgerBuilder.streetRecords, LedgerBuilder.recorded, hactions, hcurrent, hstreet]
  have hturns : (after.recorded r).streetTurns = s.streetTurns ++ [r.turn s.currentBet] := by
    rw [LedgerBuilder.streetTurns, hrecords, turnsFrom_concat, ← h.bet_eq]
    rfl
  refine ⟨fun street hstreet' => ?_, fun record hrecord => ?_, ?_, ?_⟩
  · rw [show (after.recorded r).lastStreetOrder = s.lastStreetOrder from horder]
    exact h.current street (hcurrent ▸ hstreet')
  · rw [show (after.recorded r).lastStreetOrder = s.lastStreetOrder from horder]
    rw [show (after.recorded r).actions = after.actions ++ [r] from rfl, hactions] at hrecord
    rcases List.mem_append.1 hrecord with hrecord | hrecord
    · exact h.past record hrecord
    · exact ⟨_, List.mem_singleton.1 hrecord ▸ h.current r.street hstreet, le_rfl⟩
  · rw [hrecords]
    simp [betAfter, hbet, LedgerBuilder.recorded]
  · rw [hturns]
    have hrise : (r.turn s.currentBet).rise = after.currentBet - s.currentBet := by
      rw [← hbet]
      rfl
    have hfollows := h.follows
    cases hbets with
    | posts hkind' hnot hfirst hrises hminimum hlevel =>
      have hforced : (r.turn s.currentBet).forced = true := by
        rw [← hkind] at hkind'
        simpa [LedgerActionV1.turn, LedgerActionV1.forced] using hkind'
      have hnot : (r.turn s.currentBet).full = false := hfull.trans hnot
      have hlawful : (r.turn s.currentBet).Lawful :=
        ⟨by omega, by simp [hnot], by simp [hforced]⟩
      rw [hfirst.1] at hfollows
      have hpost := @Follows.post _ _ _ _ after.currentBet _ _ _ _ hfollows hlawful hforced
      rw [← hminimum, ← hlevel, ← hfirst.2] at hpost
      exact hpost
    | acts hkind' hseen hrises hminimum hquiet hlevel =>
      have hforced : (r.turn s.currentBet).forced = false := by
        rw [← hkind] at hkind'
        simpa [LedgerActionV1.turn, LedgerActionV1.forced] using hkind'
      have hlawful : (r.turn s.currentBet).Lawful := by
        refine ⟨by omega, fun _ => hforced, fun _ hnot hallIn => ?_⟩
        have hallIn : action.action ≠ .allIn := hkind ▸ of_decide_eq_false hallIn
        have := hquiet (hfull.symm.trans hnot) hallIn
        omega
      have hact := hfollows.act hlawful hforced hrise
      have hplayer : (r.turn s.currentBet).player = action.actor := hactor
      have hturnFull : (r.turn s.currentBet).full = full := hfull
      rw [hplayer, hturnFull, hrise, ← hminimum, ← hlevel, ← hseen] at hact
      exact hact

theorem Told.apply (h : Told bigBlind b) (happly : b.apply hand unit bigBlind index action = .ok b') :
    Told bigBlind b' := by
  simp only [LedgerBuilder.apply, LedgerBuilder.applyOnStreet, bind_eq_ok, require_eq_ok,
    exists_const] at happly
  obtain ⟨_, s, henter, _, _, _, amount, _, _, _, _, after, hkind, _, _, happend⟩ := happly
  have hminimum := (appendAction_ok happend).1
  simp only [LedgerBuilder.appendAction, check_bind_eq_ok, pure_eq_ok] at happend
  obtain ⟨-, rfl⟩ := happend
  have henters := enter_enters henter
  obtain ⟨hbets, hsame⟩ := applyKind_bets hkind hminimum
  exact (h.enters henters).bets hbets hsame henters.current rfl rfl rfl rfl

theorem told_of_replay {actions : List HandAction} (h : replay hand unit bigBlind actions = .ok b) :
    Told bigBlind b := by
  refine replay_run (I := fun _ b => Told bigBlind b) (fun b hb => ?_)
    (fun _ b action b' hb happly => hb.apply happly) h
  obtain ⟨_, _, rfl, _⟩ := init_ok hb
  exact ⟨by simp, by simp, rfl, .start bigBlind false⟩

/-- A player who has acted on the street may raise again just when a full bet or
raise of another player, or short all-ins of the size of the last full one,
came since. -/
theorem raiseRights_iff_reopened {actions : List HandAction}
    (h : replay hand unit bigBlind actions = .ok b) {p : String}
    (hacted : ∃ t ∈ b.streetTurns, t.actedBy p = true) :
    b.raiseRights p = true ↔ Reopened bigBlind p b.streetTurns := by
  have hfollows := (told_of_replay h).follows
  obtain ⟨t, ht, hacted⟩ := hacted
  cases hlevel : b.actedLevel p with
  | none =>
    rw [hfollows.silent p hlevel t ht] at hacted
    cases hacted
  | some l =>
    rw [← hfollows.reopened_iff hlevel]
    simp only [LedgerBuilder.raiseRights, hlevel, decide_eq_true_eq]

theorem raiseRights_iff_reopened_shortAllIns : ∃ b,
    replay shortAllInsHand 1 2 shortAllInsHand.actions = .ok b ∧ b.raiseRights "utg" = true ∧
      ∀ t ∈ since "utg" b.streetTurns, t.full = false := by
  obtain ⟨b, hb, hturns⟩ : ∃ b, replay shortAllInsHand 1 2 shortAllInsHand.actions = .ok b ∧
      b.streetTurns = [⟨"sb", true, false, false, 1⟩, ⟨"bb", true, false, false, 1⟩,
        ⟨"utg", false, false, true, 2⟩, ⟨"co", false, true, false, 1⟩,
        ⟨"btn", false, true, false, 1⟩] := map_eq_ok.1 (by decide +kernel)
  refine ⟨b, hb, (raiseRights_iff_reopened hb ?_).2 (.inr ?_), ?_⟩
  · rw [hturns]
    decide
  · rw [hturns]
    decide
  · rw [hturns]
    decide

end

end PokerDeliberation.Ledger
