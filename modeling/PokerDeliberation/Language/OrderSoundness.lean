import PokerDeliberation.Language.Seats
import Mathlib.Data.List.Dedup

/-!
# The action order is that of the reference game

The invariant of the loop: the active players are those who have not folded, and
the queue lists the players who owe a decision in seat order from the one behind
the latest actor on. An action passes the checks exactly when it is legal after
the history, and then the invariant holds of the longer history.
-/

namespace PokerDeliberation.Language

open Lib
open Hands (Street ActionKind HandAction)

variable {players : List SeatRow} {history : List HandAction} {a : HandAction} {s s' : OrderState}
  {street : Street} {player : String} {rest : List String}

/-! ## Histories -/

/-- The players who owe a decision, in the order of their turns. -/
def owing (players : List SeatRow) (history : List HandAction) (street : Street) : List String :=
  (turns players history street).filter (owes players history street)

theorem nextToAct_eq_head? : nextToAct players history street = (owing players history street).head? := by
  rw [nextToAct, owing, List.head?_filter]

/-- On a street on which nobody has acted, all who remain owe a decision. -/
theorem owing_new (h : streetOf history ≠ street ∨ history = []) :
    owing players history street =
      (seatOrder players street).filter (· ∈ remaining players history) := by
  cases history with
  | nil =>
    simp only [owing, turns]
    exact List.filter_congr fun player _ => by simp [owes, hasActed]
  | cons a history =>
    have hne : a.street ≠ street := by simpa [streetOf] using h
    simp only [owing, turns, if_neg hne]
    exact List.filter_congr fun player _ => by simp [owes, hasActed, hne]

theorem remaining_cons (a : HandAction) (history : List HandAction) :
    remaining players (a :: history) =
      if a.action = .fold then (remaining players history).filter (· ≠ a.actor)
      else remaining players history := by
  by_cases hfold : a.action = .fold
  · rw [if_pos hfold, remaining, remaining, List.filter_filter]
    refine List.filter_congr fun player _ => ?_
    by_cases hactor : a.actor = player <;> simp [hfold, hactor, eq_comm]
  · rw [if_neg hfold]
    exact List.filter_congr fun player _ => by simp [hfold]

theorem mem_remaining_cons : player ∈ remaining players (a :: history) ↔
    player ∈ remaining players history ∧ (a.action = .fold → player ≠ a.actor) := by
  rw [remaining_cons]
  by_cases hfold : a.action = .fold <;> simp [hfold]

/-- Who owes a decision after an action: who owed one before and did not act, or after a
bet or a raise everyone else who remains. -/
theorem owes_cons (hstreet : a.street = street) : owes players (a :: history) street player =
    if reopens a then decide (player ∈ remaining players history) && player ≠ a.actor
    else owes players history street player && player ≠ a.actor := by
  by_cases hactor : player = a.actor
  · have hacted : hasActed street player (a :: history) = true := by
      simp [hasActed, hstreet, hactor]
    have howes : owes players (a :: history) street player = false := by simp [owes, hacted]
    rw [howes]
    simp [hactor]
  · have hacted : hasActed street player (a :: history) =
        (!reopens a && hasActed street player history) := by
      simp [hasActed, hstreet, Ne.symm hactor]
    have hremaining : player ∈ remaining players (a :: history) ↔ player ∈ remaining players history := by
      rw [mem_remaining_cons]
      exact and_iff_left fun _ => hactor
    simp only [owes, hacted, hremaining]
    by_cases hreopens : reopens a = true <;> simp [hreopens, hactor]

/-- The turns after an action are those behind its actor. -/
theorem turns_cons (h : Seated players) (hseats : ∀ b ∈ history, b.actor ∈ players.map SeatRow.player)
    (hactor : a.actor ∈ players.map SeatRow.player) (hstreet : a.street = street) :
    turns players (a :: history) street = afterTurn (turns players history street) a.actor := by
  have hseat : ∀ player ∈ players.map SeatRow.player, player ∈ seatOrder players street :=
    fun player hplayer => (mem_seatOrder h.positions).2 hplayer
  simp only [turns, if_pos hstreet]
  cases history with
  | nil => rfl
  | cons b history =>
    simp only
    by_cases hb : b.street = street
    · rw [if_pos hb, afterTurn_afterTurn (seatOrder_nodup h street)
        (hseat _ (hseats b List.mem_cons_self)) (hseat _ hactor)]
    · rw [if_neg hb]

theorem turns_nodup (h : Seated players) (hseats : ∀ b ∈ history, b.actor ∈ players.map SeatRow.player)
    (street : Street) : (turns players history street).Nodup := by
  unfold turns
  cases history with
  | nil => exact seatOrder_nodup h street
  | cons b history =>
    simp only
    split
    · exact afterTurn_nodup (seatOrder_nodup h street)
        ((mem_seatOrder h.positions).2 (hseats b List.mem_cons_self))
    · exact seatOrder_nodup h street

/-- After an action that opens nothing the rest of the queue owes; after a bet or a raise
everyone behind the actor does. -/
theorem owing_cons (h : Seated players) (hseats : ∀ b ∈ history, b.actor ∈ players.map SeatRow.player)
    (hstreet : a.street = street) (howing : owing players history street = a.actor :: rest)
    (hactor : a.actor ∈ players.map SeatRow.player) :
    owing players (a :: history) street =
      if reopens a then (afterTurn (seatOrder players street) a.actor).filter
        (fun player => player ∈ remaining players history && player ≠ a.actor)
      else rest := by
  by_cases hreopens : reopens a = true
  · rw [if_pos hreopens, owing]
    simp only [turns, if_pos hstreet]
    exact List.filter_congr fun player _ => by rw [owes_cons hstreet, if_pos hreopens]
  · rw [if_neg hreopens, owing, turns_cons h hseats hactor hstreet,
      ← filter_afterTurn (turns_nodup h hseats street) howing]
    exact List.filter_congr fun player _ => by rw [owes_cons hstreet, if_neg hreopens]

theorem remaining_subset (h : player ∈ remaining players history) :
    player ∈ players.map SeatRow.player :=
  List.mem_of_mem_filter h

theorem mem_owing (h : Seated players) (hseats : ∀ b ∈ history, b.actor ∈ players.map SeatRow.player) :
    player ∈ owing players history street ↔ owes players history street player = true := by
  rw [owing, List.mem_filter, and_iff_right_iff_imp]
  intro howes
  have hplayer : player ∈ players.map SeatRow.player := by
    simp only [owes, Bool.and_eq_true, decide_eq_true_eq] at howes
    exact remaining_subset howes.1
  have hseat : player ∈ seatOrder players street := (mem_seatOrder h.positions).2 hplayer
  cases history with
  | nil => exact hseat
  | cons b history =>
    simp only [turns]
    split
    · exact (mem_afterTurn ((mem_seatOrder h.positions).2 (hseats b List.mem_cons_self))).2 hseat
    · exact hseat

/-! ## The loop -/

/-- The variables of the loop after a history. -/
structure Tracks (players : List SeatRow) (history : List HandAction) (s : OrderState) : Prop where
  active : s.active = remaining players history
  street : s.currentStreet = streetOf history
  count : s.streetActionCount = 0 → history = []
  terminal : s.terminal = true ↔ (remaining players history).length = 1
  pending : s.pending = if s.terminal then [] else owing players history (streetOf history)
  seats : ∀ b ∈ history, b.actor ∈ players.map SeatRow.player
  someone : 1 ≤ (remaining players history).length
  betting : streetOf history ≠ .showdown

theorem streetOrder_succ {old new : Street} {m n : Nat} (hold : streetOrder old = some m)
    (hnew : streetOrder new = some n) : n = m + 1 ↔ nextStreet old = some new := by
  cases old <;> cases hold <;> cases new <;> cases hnew <;> simp [nextStreet]

theorem exists_streetOrder (h : street ≠ .showdown) : ∃ n, streetOrder street = some n := by
  cases street <;> simp_all [streetOrder]

theorem initial_tracks (h : Seated players) : Tracks players [] (initialOrder players) := by
  have hremaining : remaining players [] = players.map SeatRow.player := by simp [remaining]
  have hlength := two_le_length h.positions
  have hactive : (initialOrder players).active = players.map SeatRow.player :=
    h.players_nodup.dedup
  have hpending : (initialOrder players).pending = owing players [] .preflop := by
    rw [owing_new (.inr rfl), hremaining, ← orderedActive_eq h.positions, ← hactive]
    rfl
  refine ⟨hactive.trans hremaining.symm, rfl, fun _ => rfl, ?_, hpending, by simp, ?_, by decide⟩
  · rw [hremaining, List.length_map]
    exact ⟨fun hterminal => absurd hterminal Bool.false_ne_true, fun hone => by omega⟩
  · rw [hremaining, List.length_map]
    omega

/-- The street on which the next action may be. -/
def MayPlay (players : List SeatRow) (history : List HandAction) (street : Street) : Prop :=
  street = streetOf history ∨ nextStreet (streetOf history) = some street ∧
    ∀ player ∈ remaining players history, owes players history (streetOf history) player = false

/-- In a hand that goes on, a street is entered when it may be played, with those who owe a
decision on it. -/
theorem enterStreet_cases (h : Seated players) (ht : Tracks players history s)
    (hopen : s.terminal = false) (hshow : street ≠ .showdown) :
    (MayPlay players history street ∧ ∃ n, enterStreet players s street =
      .ok { s with
        currentStreet := street
        streetActionCount := n
        pending := owing players history street }) ∨
    (¬ MayPlay players history street ∧
      enterStreet players s street = .error (.rejected .street "hand.actions.street")) := by
  have hpending : s.pending = owing players history (streetOf history) := by
    rw [ht.pending, hopen]
    rfl
  by_cases hsame : street = streetOf history
  · refine .inl ⟨.inl hsame, s.streetActionCount, ?_⟩
    rw [enterStreet, if_pos (hsame.trans ht.street.symm)]
    obtain ⟨active, currentStreet, count, terminal, pending⟩ := s
    obtain rfl : currentStreet = streetOf history := ht.street
    obtain rfl : pending = owing players history (streetOf history) := hpending
    rw [hsame]
  · obtain ⟨next, hnext⟩ := exists_streetOrder hshow
    obtain ⟨current, hcurrent⟩ := exists_streetOrder ht.betting
    have hlength : 2 ≤ s.active.length := by
      have hsomeone := ht.someone
      have hopen : (remaining players history).length ≠ 1 := fun hone => by
        rw [ht.terminal.2 hone] at hopen
        cases hopen
      rw [ht.active]
      omega
    have hempty : s.pending = [] ↔ ∀ player ∈ remaining players history,
        owes players history (streetOf history) player = false := by
      rw [hpending, List.eq_nil_iff_forall_not_mem]
      constructor
      · intro hnone player _
        by_contra howes
        exact hnone player ((mem_owing h ht.seats).2 (by simpa using howes))
      · intro hnone player hmem
        have howes := (mem_owing h ht.seats).1 hmem
        have hplayer : player ∈ remaining players history := by
          simp only [owes, Bool.and_eq_true, decide_eq_true_eq] at howes
          exact howes.1
        rw [hnone player hplayer] at howes
        cases howes
    have hcount : s.pending = [] → s.streetActionCount ≠ 0 := by
      -- before the first action everyone owes a decision
      intro hnone hzero
      obtain rfl := ht.count hzero
      obtain ⟨player, hplayer⟩ : ∃ player, player ∈ remaining players [] := by
        rw [← ht.active]
        exact List.exists_mem_of_length_pos (by omega)
      have howes : owes players [] (streetOf []) player = false := hempty.1 hnone player hplayer
      simp [owes, hasActed, hplayer] at howes
    have hmay : MayPlay players history street ↔
        ¬ (next ≠ current + 1 ∨ s.pending ≠ [] ∨ s.streetActionCount = 0 ∨ s.active.length < 2) := by
      rw [MayPlay, or_iff_right hsame, ← streetOrder_succ hcurrent hnext, ← hempty]
      constructor
      · rintro ⟨hsucc, hnone⟩ (hne | hne | hzero | hlt)
        · exact hne hsucc
        · exact hne hnone
        · exact hcount hnone hzero
        · omega
      · intro hnot
        simp only [not_or, ne_eq, not_not] at hnot
        exact ⟨hnot.1, hnot.2.1⟩
    have hnew : (orderedActive players street).filter (· ∈ s.active) = owing players history street := by
      rw [owing_new (.inl (Ne.symm hsame)), orderedActive_eq h.positions, ht.active]
    rw [enterStreet, if_neg (by rw [ht.street]; exact hsame), hnext, ht.street, hcurrent]
    simp only
    by_cases hcheck : next ≠ current + 1 ∨ s.pending ≠ [] ∨ s.streetActionCount = 0 ∨
        s.active.length < 2
    · rw [if_pos hcheck]
      exact .inr ⟨fun hplay => hmay.1 hplay hcheck, rfl⟩
    · rw [if_neg hcheck, hnew]
      exact .inl ⟨hmay.2 hcheck, 0, rfl⟩

/-- The queue that a bet or a raise makes: everyone behind the actor, around the table. -/
theorem reopened_queue (h : Seated players) (hactor : a.actor ∈ remaining players history)
    {order : List String}
    (horder : order = (orderedActive players street).filter (· ∈ remaining players history)) :
    order.drop (order.idxOf a.actor + 1) ++ order.take (order.idxOf a.actor) =
      (afterTurn (seatOrder players street) a.actor).filter
        (fun player => player ∈ remaining players history && player ≠ a.actor) := by
  have hseat : a.actor ∈ seatOrder players street :=
    (mem_seatOrder h.positions).2 (remaining_subset hactor)
  have hnodup := seatOrder_nodup h street
  obtain ⟨as, bs, hsplit, hnot⟩ := List.eq_append_cons_of_mem hseat
  rw [hsplit] at hnodup
  have hbs : a.actor ∉ bs := (List.nodup_cons.1 (List.nodup_append.1 hnodup).2.1).1
  have hothers : ∀ xs : List String, a.actor ∉ xs →
      xs.filter (fun player => player ∈ remaining players history && player ≠ a.actor) =
        xs.filter (· ∈ remaining players history) := by
    intro xs hxs
    refine List.filter_congr fun player hplayer => ?_
    have hne : player ≠ a.actor := by
      rintro rfl
      exact hxs hplayer
    simp [hne]
  have hfilter : (as ++ a.actor :: bs).filter (· ∈ remaining players history) =
      as.filter (· ∈ remaining players history) ++
        a.actor :: bs.filter (· ∈ remaining players history) := by
    rw [List.filter_append, List.filter_cons_of_pos (by simpa using hactor)]
  have hindex : (as.filter (· ∈ remaining players history) ++
      a.actor :: bs.filter (· ∈ remaining players history)).idxOf a.actor =
        (as.filter (· ∈ remaining players history)).length := by
    rw [List.idxOf_append_of_notMem fun hmem => hnot (List.mem_of_mem_filter hmem)]
    simp
  rw [orderedActive_eq h.positions, hsplit, hfilter] at horder
  rw [horder, hindex, hsplit, afterTurn_split hnot, List.filter_append, List.filter_append, hothers bs hbs, hothers as hnot]
  simp [List.drop_append]

/-- When the next player in turn has acted, the variables track the longer history. -/
theorem recordAction_tracks (h : Seated players) (ht : Tracks players history s)
    (hopen : s.terminal = false) (hshow : a.street ≠ .showdown) (n : Nat)
    (howing : owing players history a.street = a.actor :: rest) :
    Tracks players (a :: history) (recordAction players
      { s with
        currentStreet := a.street
        streetActionCount := n
        pending := owing players history a.street } a) := by
  have hactor : a.actor ∈ remaining players history := by
    have howes := (mem_owing h ht.seats).1 (howing ▸ List.mem_cons_self)
    simp only [owes, Bool.and_eq_true, decide_eq_true_eq] at howes
    exact howes.1
  have hplayer := remaining_subset hactor
  have hseats : ∀ b ∈ a :: history, b.actor ∈ players.map SeatRow.player :=
    List.forall_mem_cons.2 ⟨hplayer, ht.seats⟩
  have hcontested : 2 ≤ (remaining players history).length := by
    have hsomeone := ht.someone
    have hone : (remaining players history).length ≠ 1 := fun hone => by
      rw [ht.terminal.2 hone] at hopen
      cases hopen
    omega
  have hqueue := owing_cons h ht.seats rfl howing hplayer
  by_cases hfold : a.action = .fold
  · have hremaining : remaining players (a :: history) =
        (remaining players history).filter (· ≠ a.actor) := by
      rw [remaining_cons, if_pos hfold]
    have hsomeone : 1 ≤ ((remaining players history).filter (· ≠ a.actor)).length := by
      have hnodup : (remaining players history).Nodup := h.players_nodup.filter _
      have herase := List.length_erase_of_mem hactor
      rw [hnodup.erase_eq_filter] at herase
      have hsame : (remaining players history).filter (· ≠ a.actor) =
          (remaining players history).filter (· != a.actor) :=
        List.filter_congr fun player _ => by by_cases hsame : player = a.actor <;> simp [hsame]
      rw [hsame, herase]
      omega
    have hrest : rest.filter (· ∈ (remaining players history).filter (· ≠ a.actor)) = rest := by
      rw [List.filter_eq_self]
      intro player hmem
      rw [← filter_afterTurn (turns_nodup h ht.seats a.street) howing] at hmem
      have hboth := (List.mem_filter.1 hmem).2
      simp only [owes, Bool.and_eq_true, decide_eq_true_eq] at hboth
      simpa using ⟨hboth.1.1, hboth.2⟩
    have hnoreopen : reopens a = false := by simp [reopens, hfold]
    rw [hnoreopen] at hqueue
    have hqueue : owing players (a :: history) a.street = rest := hqueue
    simp only [recordAction, hfold, ht.active, howing, List.tail_cons, hrest]
    split
    · next hone =>
      exact ⟨hremaining.symm, rfl, fun hzero => by simp at hzero, by rw [hremaining]; simpa using hone,
        rfl, hseats, by rw [hremaining]; exact hsomeone, hshow⟩
    · next hmany =>
      exact ⟨hremaining.symm, rfl, fun hzero => by simp at hzero, by
          rw [hremaining, hopen]
          simpa using hmany,
        by rw [hopen]; exact hqueue.symm, hseats, by rw [hremaining]; exact hsomeone, hshow⟩
  · have hremaining : remaining players (a :: history) = remaining players history := by
      rw [remaining_cons, if_neg hfold]
    have hlength : ¬ (remaining players (a :: history)).length = 1 := by
      rw [hremaining]
      omega
    have hterminal : s.terminal = true ↔ (remaining players (a :: history)).length = 1 := by
      rw [hopen]
      exact ⟨fun h => absurd h Bool.false_ne_true, fun h => absurd h hlength⟩
    have hsomeone : 1 ≤ (remaining players (a :: history)).length := by
      rw [hremaining]
      omega
    by_cases hreopens : reopens a = true
    · rw [if_pos hreopens, ← reopened_queue h hactor rfl] at hqueue
      have hkind : a.action = .bet ∨ a.action = .raise := by simpa [reopens] using hreopens
      rcases hkind with hkind | hkind <;> simp only [recordAction, hkind] <;>
        exact ⟨ht.active.trans hremaining.symm, rfl, fun hzero => by simp at hzero, hterminal, by
          rw [hopen, ht.active]
          exact hqueue.symm, hseats, hsomeone, hshow⟩
    · rw [if_neg hreopens] at hqueue
      have hrecord : recordAction players
          { s with
            currentStreet := a.street
            streetActionCount := n
            pending := owing players history a.street } a =
          { s with currentStreet := a.street, streetActionCount := n + 1, pending := rest } := by
        rw [recordAction, howing]
        cases hkind : a.action with
        | fold => exact absurd hkind hfold
        | bet | raise => simp [reopens, hkind] at hreopens
        | postBlind | postAnte | check | call | allIn => rfl
      rw [hrecord]
      exact ⟨ht.active.trans hremaining.symm, rfl, fun hzero => by simp at hzero, hterminal, by
        rw [hopen]
        exact hqueue.symm, hseats, hsomeone, hshow⟩

/-- An action is taken exactly when it is legal after the history; otherwise it is rejected. -/
theorem stepAction_cases (h : Seated players) (ht : Tracks players history s)
    (hshow : a.street ≠ .showdown) :
    (LegalAction players history a ∧
      ∃ s', stepAction players s a = .ok s' ∧ Tracks players (a :: history) s') ∨
    (¬ LegalAction players history a ∧
      ∃ code path, stepAction players s a = .error (.rejected code path)) := by
  by_cases hguard : s.terminal = false ∧ a.action ≠ .postBlind
  · have hlength : 2 ≤ (remaining players history).length := by
      have hsomeone := ht.someone
      have hone : (remaining players history).length ≠ 1 := fun hone => by
        rw [ht.terminal.2 hone] at hguard
        simp at hguard
      omega
    rw [stepAction, require_of hguard]
    rcases enterStreet_cases h ht hguard.1 hshow with ⟨hplay, n, henter⟩ | ⟨hnot, henter⟩
    · have hentered : ((.ok () : Except OrderError Unit) >>= fun _ => do
          let s ← enterStreet players s a.street
          require (a.actor ∈ s.active ∧ s.pending.head? = some a.actor)
            (.rejected .action "hand.actions.actor_order")
          return recordAction players s a) =
          require (a.actor ∈ s.active ∧ (owing players history a.street).head? = some a.actor)
            (.rejected .action "hand.actions.actor_order") >>= fun _ =>
              pure (recordAction players
                { s with
                  currentStreet := a.street
                  streetActionCount := n
                  pending := owing players history a.street } a) := by
        rw [henter]
        rfl
      rw [hentered]
      by_cases hturn : (owing players history a.street).head? = some a.actor
      · obtain ⟨rest, howing⟩ := List.head?_eq_some_iff.1 hturn
        have hactor : a.actor ∈ s.active := by
          have howes := (mem_owing h ht.seats).1 (howing ▸ List.mem_cons_self)
          simp only [owes, Bool.and_eq_true, decide_eq_true_eq] at howes
          rw [ht.active]
          exact howes.1
        rw [require_of ⟨hactor, hturn⟩]
        exact .inl ⟨⟨hlength, hguard.2, hplay, nextToAct_eq_head?.trans hturn⟩, _, rfl,
          recordAction_tracks h ht hguard.1 hshow n howing⟩
      · refine .inr ⟨fun hlegal => hturn (nextToAct_eq_head?.symm.trans hlegal.turn), .action,
          "hand.actions.actor_order", bind_eq_error.2 (.inl (require_eq_error.2 ⟨fun hboth => hturn hboth.2, rfl⟩))⟩
    · refine .inr ⟨fun hlegal => hnot hlegal.street, .street, "hand.actions.street", ?_⟩
      rw [henter]
      rfl
  · refine .inr ⟨fun hlegal => hguard ⟨?_, hlegal.noBlind⟩, .action, "hand.actions.terminal",
      bind_eq_error.2 (.inl (require_eq_error.2 ⟨hguard, rfl⟩))⟩
    rw [← Bool.not_eq_true, ht.terminal]
    have hcontested := hlegal.contested
    omega

/-! ## Hands -/

theorem Orderly.of_append {later : List HandAction} (h : Orderly players (later ++ history)) :
    Orderly players history := by
  induction later with
  | nil => exact h
  | cons a later ih => exact ih h.1

/-- The actions after a history are taken exactly when they are orderly after it. -/
theorem foldlM_stepAction_cases {actions : List HandAction} (h : Seated players)
    (ht : Tracks players history s) (horderly : Orderly players history)
    (hshow : ∀ a ∈ actions, a.street ≠ .showdown) :
    (Orderly players (actions.reverse ++ history) ∧
      ∃ s', actions.foldlM (stepAction players) s = .ok s' ∧
        Tracks players (actions.reverse ++ history) s') ∨
    (¬ Orderly players (actions.reverse ++ history) ∧
      ∃ code path, actions.foldlM (stepAction players) s = .error (.rejected code path)) := by
  induction actions generalizing history s with
  | nil => exact .inl ⟨horderly, s, rfl, ht⟩
  | cons a actions ih =>
    obtain ⟨hfirst, hrest⟩ := List.forall_mem_cons.1 hshow
    rw [List.foldlM_cons, List.reverse_cons, List.append_assoc, List.singleton_append]
    rcases stepAction_cases h ht hfirst with ⟨hlegal, s', hstep, ht'⟩ | ⟨hillegal, code, path, hstep⟩
    · rw [hstep]
      exact ih ht' ⟨horderly, hlegal⟩ hrest
    · rw [hstep]
      exact .inr ⟨fun hall => hillegal hall.of_append.2, code, path, rfl⟩

/-- A hand of the betting streets at a table of distinct players is accepted exactly when it
is a betting sequence of the reference game that a fold ends, and is rejected otherwise. -/
theorem validateActionOrder_iff {actions : List HandAction}
    (hplayers : (players.map SeatRow.player).Nodup) (hshow : ∀ a ∈ actions, a.street ≠ .showdown) :
    (validateActionOrder players actions = .ok () ↔
      BettingSequence players actions ∧ EndedByFold players actions) ∧
    (validateActionOrder players actions ≠ .ok () →
      ∃ code path, validateActionOrder players actions = .error (.rejected code path)) := by
  have hboth : (BettingSequence players actions ∧ EndedByFold players actions ∧
        validateActionOrder players actions = .ok ()) ∨
      (¬ (BettingSequence players actions ∧ EndedByFold players actions) ∧
        ∃ code path, validateActionOrder players actions = .error (.rejected code path)) := by
    by_cases hpositions : positionsMatch players
    · have h : Seated players := ⟨hpositions, hplayers⟩
      by_cases hmany : 3 ≤ actions.length
      · by_cases hblinds : blindsPosted players actions
        · have hvalidate : validateActionOrder players actions =
              (actions.drop 2).foldlM (stepAction players) (initialOrder players) >>= fun s =>
                require s.terminal (.rejected .unsupported "hand.completion") := by
            rw [validateActionOrder, require_of hpositions, require_of hmany, require_of hblinds]
            rfl
          have hdrop : ∀ a ∈ actions.drop 2, a.street ≠ .showdown := fun a ha =>
            hshow a (List.mem_of_mem_drop ha)
          rw [hvalidate]
          rcases foldlM_stepAction_cases h (initial_tracks h) trivial hdrop with
            ⟨horderly, s', hrun, ht⟩ | ⟨hnot, code, path, hrun⟩
          · rw [List.append_nil] at horderly ht
            rw [hrun]
            by_cases hended : EndedByFold players actions
            · refine .inl ⟨⟨hpositions, hblinds, horderly⟩, hended, ?_⟩
              exact require_of (ht.terminal.2 hended)
            · refine .inr ⟨fun hboth => hended hboth.2, .unsupported, "hand.completion", ?_⟩
              exact require_eq_error.2 ⟨fun hterminal => hended (ht.terminal.1 hterminal), rfl⟩
          · rw [List.append_nil] at hnot
            rw [hrun]
            exact .inr ⟨fun hboth => hnot hboth.1.orderly, code, path, rfl⟩
        · refine .inr ⟨fun hboth => hblinds hboth.1.blinds, .action, "hand.actions.blind_order", ?_⟩
          rw [validateActionOrder, bind_ok_left (require_of hpositions),
            bind_ok_left (require_of hmany)]
          exact bind_eq_error.2 (.inl (require_eq_error.2 ⟨hblinds, rfl⟩))
      · -- without a third action nobody has folded
        have hunended : ¬ EndedByFold players actions := by
          have hdrop : actions.drop 2 = [] := List.drop_eq_nil_of_le (by omega)
          have hlength := two_le_length hpositions
          simp only [EndedByFold, hdrop, List.reverse_nil, remaining, List.any_nil, Bool.not_false,
            List.filter_true, List.length_map]
          omega
        refine .inr ⟨fun hboth => hunended hboth.2, .missing, "hand.actions", ?_⟩
        rw [validateActionOrder, bind_ok_left (require_of hpositions)]
        exact bind_eq_error.2 (.inl (require_eq_error.2 ⟨hmany, rfl⟩))
    · refine .inr ⟨fun hboth => hpositions hboth.1.positions, .player, "hand.players.position", ?_⟩
      exact bind_eq_error.2 (.inl (require_eq_error.2 ⟨hpositions, rfl⟩))
  rcases hboth with ⟨hsequence, hended, hok⟩ | ⟨hnot, code, path, herror⟩
  · exact ⟨⟨fun _ => ⟨hsequence, hended⟩, fun _ => hok⟩, fun hne => absurd hok hne⟩
  · rw [herror]
    exact ⟨⟨nofun, fun hboth => absurd hboth hnot⟩, fun _ => ⟨code, path, rfl⟩⟩

def headsUp : List SeatRow := [⟨"hero", "SB", (100 : ℕ)⟩, ⟨"villain", "BB", (100 : ℕ)⟩]

def blinds : List HandAction :=
  [{ street := .preflop, actor := "hero", action := .postBlind, amount := 1 },
    { street := .preflop, actor := "villain", action := .postBlind, amount := (2 : ℕ) }]

/-- The big blind takes the hand: the small blind raises, is raised again and folds. -/
theorem validateActionOrder_iff_folded :
    validateActionOrder headsUp (blinds ++
      [{ street := .preflop, actor := "hero", action := .raise },
        { street := .preflop, actor := "villain", action := .raise },
        { street := .preflop, actor := "hero", action := .fold }]) = .ok () :=
  (validateActionOrder_iff (by decide) (by decide)).1.2
    ⟨by decide +kernel, by unfold EndedByFold; decide +kernel⟩

/-- Check or call on every street, in turn. -/
def checkedDown : List HandAction :=
  blinds ++
    [{ street := .preflop, actor := "hero", action := .call },
      { street := .preflop, actor := "villain", action := .check }] ++
    ([Street.flop, .turn, .river].flatMap fun street =>
      [{ street, actor := "villain", action := .check },
        { street, actor := "hero", action := .check }])

/-- A hand that is checked down is a betting sequence and is rejected, and an action at
showdown raises a `KeyError`. -/
theorem checkedDown_rejected : BettingSequence headsUp checkedDown ∧
    validateActionOrder headsUp checkedDown = .error (.rejected .unsupported "hand.completion") ∧
    validateActionOrder headsUp
      (checkedDown ++ [{ street := .showdown, actor := "villain", action := .check }]) =
        .error .keyError := by
  refine ⟨by decide +kernel, ?_, ?_⟩ <;> decide +kernel

end PokerDeliberation.Language
