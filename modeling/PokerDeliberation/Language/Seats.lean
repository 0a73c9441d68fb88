import PokerDeliberation.Language.ReferenceGame
import Mathlib.Data.List.Perm.Subperm

/-!
# Seats

At a table of two to six players whose positions are the right ones, the order
in which the source lists the players of a street is the seat order of the
reference game, and it lists every player once.
-/

namespace PokerDeliberation.Language

open Lib
open Hands (Street ActionKind HandAction)

/-- The positions are those of a table of this size, and no player sits twice. -/
structure Seated (players : List SeatRow) : Prop where
  positions : positionsMatch players
  players_nodup : (players.map SeatRow.player).Nodup

variable {players : List SeatRow} {street : Street} {position player : String} {table : List String}

theorem table_of_match (h : positionsMatch players) : ∃ table,
    positionsByTableSize players.length = some table ∧
      ∀ position, position ∈ players.map SeatRow.position ↔ position ∈ table := by
  unfold positionsMatch at h
  cases htable : positionsByTableSize players.length with
  | none => simp [htable] at h
  | some table =>
    simp only [htable, Bool.and_eq_true, List.all_eq_true, decide_eq_true_eq] at h
    refine ⟨table, rfl, fun position => ⟨fun hmem => ?_, h.2 position⟩⟩
    obtain ⟨row, hrow, rfl⟩ := List.mem_map.1 hmem
    exact h.1 row hrow

/-- A table is for two to six players. -/
theorem size_of_table (h : positionsByTableSize players.length = some table) :
    table.Nodup ∧ table.length = players.length ∧ table ⊆ CLOCKWISE := by
  have hall : ∀ n table, positionsByTableSize n = some table →
      table.Nodup ∧ table.length = n ∧ table ⊆ CLOCKWISE := by
    intro n table hn
    unfold positionsByTableSize at hn
    split at hn
    all_goals cases hn
    all_goals exact ⟨by decide, rfl, by decide⟩
  exact hall _ table h

theorem positions_nodup (h : positionsMatch players) : (players.map SeatRow.position).Nodup := by
  obtain ⟨table, htable, hmem⟩ := table_of_match h
  obtain ⟨hnodup, hlength, -⟩ := size_of_table htable
  have hsubperm : table.Subperm (players.map SeatRow.position) :=
    List.subperm_of_subset hnodup fun position hposition => (hmem position).2 hposition
  exact (hsubperm.perm_of_length_le (by simp [hlength])).nodup_iff.1 hnodup

/-- A position leads to the player who sits there. -/
theorem positionToPlayer_eq_some (h : positionsMatch players) :
    positionToPlayer players position = some player ↔
      ∃ row ∈ players, row.position = position ∧ row.player = player := by
  have hunique : ∀ row ∈ players, ∀ other ∈ players, row.position = other.position → row = other :=
    fun row hrow other hother heq => List.inj_on_of_nodup_map (positions_nodup h) hrow hother heq
  rw [positionToPlayer, Option.map_eq_some_iff]
  constructor
  · rintro ⟨row, hfind, rfl⟩
    exact ⟨row, List.mem_reverse.1 (List.mem_of_find?_eq_some hfind),
      by simpa using List.find?_some hfind, rfl⟩
  · rintro ⟨row, hrow, rfl, rfl⟩
    cases hfind : players.reverse.find? fun other => other.position = row.position with
    | none =>
      rw [List.find?_eq_none] at hfind
      exact absurd (by simp) (hfind row (List.mem_reverse.2 hrow))
    | some other =>
      have hother : other ∈ players := List.mem_reverse.1 (List.mem_of_find?_eq_some hfind)
      have hposition : other.position = row.position := by simpa using List.find?_some hfind
      exact ⟨other, rfl, by rw [hunique other hother row hrow hposition]⟩

theorem positionToPlayer_eq_none (h : position ∉ players.map SeatRow.position) :
    positionToPlayer players position = none := by
  rw [positionToPlayer, Option.map_eq_none_iff, List.find?_eq_none]
  intro row hrow
  simp only [decide_eq_true_eq]
  rintro rfl
  exact h (List.mem_map_of_mem (List.mem_reverse.1 hrow))

/-- The positions of a table in the order of the source are its seats in the order of the
reference game. -/
theorem positionOrder_filter (n : Nat) (h : positionsByTableSize n = some table) (street : Street) :
    (if street = .preflop then PREFLOP_POSITION_ORDER
      else if n = 2 then HEADS_UP_POSTFLOP_POSITION_ORDER
      else POSTFLOP_POSITION_ORDER).filter (· ∈ table) =
    afterTurn (CLOCKWISE.filter (· ∈ table))
      (if street = .preflop then "BB" else if "BTN" ∈ table then "BTN" else "SB") := by
  unfold positionsByTableSize at h
  by_cases hstreet : street = .preflop
  · simp only [if_pos hstreet]
    split at h
    all_goals cases h
    all_goals decide
  · simp only [if_neg hstreet]
    split at h
    all_goals cases h
    all_goals decide

theorem orderedActive_eq (h : positionsMatch players) (street : Street) :
    orderedActive players street = seatOrder players street := by
  obtain ⟨table, htable, hmem⟩ := table_of_match h
  have hskip : ∀ order : List String, order.filterMap (positionToPlayer players) =
      (order.filter (· ∈ table)).filterMap (positionToPlayer players) := by
    intro order
    induction order with
    | nil => rfl
    | cons position order ih =>
      by_cases hposition : position ∈ table
      · rw [List.filter_cons_of_pos (by simpa using hposition)]
        simp only [List.filterMap_cons, ih]
      · have hnone : positionToPlayer players position = none :=
          positionToPlayer_eq_none fun hp => hposition ((hmem position).1 hp)
        rw [List.filter_cons_of_neg (by simpa using hposition), List.filterMap_cons_none hnone, ih]
  have hseats : CLOCKWISE.filter (· ∈ players.map SeatRow.position) = CLOCKWISE.filter (· ∈ table) :=
    List.filter_congr fun position _ => by simp only [hmem]
  have hbehind : behindFirst players street =
      if street = .preflop then "BB" else if "BTN" ∈ table then "BTN" else "SB" := by
    simp only [behindFirst, hmem]
  rw [orderedActive, hskip, seatOrder, hseats, hbehind,
    ← positionOrder_filter players.length htable street]
  rfl

/-! ## The seat order -/

/-- The positions in seat order are the positions of the table, once each. -/
theorem turnedPositions (h : positionsMatch players) (street : Street) :
    (afterTurn (CLOCKWISE.filter (· ∈ players.map SeatRow.position))
        (behindFirst players street)).Nodup ∧
      ∀ position, position ∈ afterTurn (CLOCKWISE.filter (· ∈ players.map SeatRow.position))
        (behindFirst players street) ↔ position ∈ players.map SeatRow.position := by
  obtain ⟨table, htable, hmem⟩ := table_of_match h
  obtain ⟨-, -, hclockwise⟩ := size_of_table htable
  have hblinds : "BB" ∈ table ∧ "SB" ∈ table := by
    have hall : ∀ n table, positionsByTableSize n = some table → "BB" ∈ table ∧ "SB" ∈ table := by
      intro n table hn
      unfold positionsByTableSize at hn
      split at hn
      all_goals cases hn
      all_goals decide
    exact hall _ table htable
  have hseated : ∀ position, position ∈ CLOCKWISE.filter (· ∈ players.map SeatRow.position) ↔
      position ∈ players.map SeatRow.position := by
    intro position
    rw [List.mem_filter, decide_eq_true_eq, and_iff_right_iff_imp, hmem]
    exact fun hposition => hclockwise hposition
  have hbehind : behindFirst players street ∈
      CLOCKWISE.filter (· ∈ players.map SeatRow.position) := by
    rw [hseated]
    unfold behindFirst
    split
    · exact (hmem _).2 hblinds.1
    · split
      · assumption
      · exact (hmem _).2 hblinds.2
  have hnodup : (CLOCKWISE.filter (· ∈ players.map SeatRow.position)).Nodup :=
    List.Nodup.filter _ (by decide)
  exact ⟨afterTurn_nodup hnodup hbehind, fun position => by rw [mem_afterTurn hbehind, hseated]⟩

/-- Every player has a seat. -/
theorem mem_seatOrder (h : positionsMatch players) :
    player ∈ seatOrder players street ↔ player ∈ players.map SeatRow.player := by
  rw [seatOrder, List.mem_filterMap]
  constructor
  · rintro ⟨position, -, hplayer⟩
    obtain ⟨row, hrow, -, rfl⟩ := (positionToPlayer_eq_some h).1 hplayer
    exact List.mem_map_of_mem hrow
  · intro hplayer
    obtain ⟨row, hrow, rfl⟩ := List.mem_map.1 hplayer
    exact ⟨row.position, ((turnedPositions h street).2 _).2 (List.mem_map_of_mem hrow),
      (positionToPlayer_eq_some h).2 ⟨row, hrow, rfl, rfl⟩⟩

/-- No player has two seats. -/
theorem seatOrder_nodup (h : Seated players) (street : Street) : (seatOrder players street).Nodup := by
  refine (turnedPositions h.positions street).1.filterMap fun a b player ha hb => ?_
  obtain ⟨row, hrow, rfl, hplayer⟩ := (positionToPlayer_eq_some h.positions).1 ha
  obtain ⟨other, hother, rfl, hsame⟩ := (positionToPlayer_eq_some h.positions).1 hb
  rw [List.inj_on_of_nodup_map h.players_nodup hrow hother (hplayer.trans hsame.symm)]

theorem two_le_length (h : positionsMatch players) : 2 ≤ players.length := by
  obtain ⟨table, htable, -⟩ := table_of_match h
  by_contra hlt
  have hsmall : positionsByTableSize players.length = none := by
    have hcases : players.length = 0 ∨ players.length = 1 := by omega
    rcases hcases with hzero | hone
    · rw [hzero]
      rfl
    · rw [hone]
      rfl
  rw [hsmall] at htable
  cases htable

end PokerDeliberation.Language
