import Mathlib.Data.List.Nodup

/-!
# Turns around a table

Players around a table take turns in a cyclic order. `afterTurn order p` is the
order that starts behind `p` and ends with `p`. Taking a turn in any such order
gives the order behind the player who took it, so the queue of those who still
owe something is kept by dropping its head.
-/

namespace PokerDeliberation.Lib

variable {α : Type} [DecidableEq α]

/-- The order that starts behind `p`. -/
def afterTurn (order : List α) (p : α) : List α :=
  (order.dropWhile (· ≠ p)).tail ++ (order.takeWhile (· ≠ p) ++ [p])

variable {order before rest as bs : List α} {p q : α}

theorem afterTurn_split (h : p ∉ as) : afterTurn (as ++ p :: bs) p = bs ++ (as ++ [p]) := by
  have hall : ∀ x ∈ as, decide (x ≠ p) = true := fun x hx => by
    simp only [decide_eq_true_eq]
    rintro rfl
    exact h hx
  have hdrop : (as ++ p :: bs).dropWhile (· ≠ p) = p :: bs := by
    rw [List.dropWhile_append_of_pos hall, List.dropWhile_cons_of_neg (by simp)]
  have htake : (as ++ p :: bs).takeWhile (· ≠ p) = as := by
    rw [List.takeWhile_append_of_pos hall, List.takeWhile_cons_of_neg (by simp), List.append_nil]
  rw [afterTurn, hdrop, htake, List.tail_cons]

/-- Around the table everyone stays seated. -/
theorem mem_afterTurn (h : p ∈ order) : q ∈ afterTurn order p ↔ q ∈ order := by
  obtain ⟨as, bs, rfl, hnot⟩ := List.eq_append_cons_of_mem h
  rw [afterTurn_split hnot]
  simp only [List.mem_append, List.mem_cons, List.not_mem_nil, or_false]
  tauto

theorem afterTurn_nodup (hnodup : order.Nodup) (h : p ∈ order) : (afterTurn order p).Nodup := by
  obtain ⟨as, bs, rfl, hnot⟩ := List.eq_append_cons_of_mem h
  rw [afterTurn_split hnot]
  have hperm : (bs ++ (as ++ [p])).Perm (as ++ p :: bs) := by
    rw [← List.append_assoc]
    exact (List.perm_append_singleton p (bs ++ as)).trans
      ((List.perm_append_comm.cons p).trans List.perm_middle.symm)
  exact hperm.nodup_iff.2 hnodup

/-- Where the order starts does not matter for the order behind a player. -/
theorem afterTurn_afterTurn (hnodup : order.Nodup) (hq : q ∈ order) (hp : p ∈ order) :
    afterTurn (afterTurn order q) p = afterTurn order p := by
  obtain ⟨as, bs, rfl, hnot⟩ := List.eq_append_cons_of_mem hq
  rw [afterTurn_split hnot]
  have hdisjoint := List.nodup_append.1 hnodup
  rcases List.mem_append.1 hp with hp | hp
  · -- the player sits before the start of the turned order
    obtain ⟨as₁, as₂, rfl, hnot₁⟩ := List.eq_append_cons_of_mem hp
    have hbs : p ∉ bs ++ as₁ := by
      rw [List.mem_append]
      rintro (hmem | hmem)
      · exact hdisjoint.2.2 p hp p (List.mem_cons_of_mem q hmem) rfl
      · exact hnot₁ hmem
    have hturned : bs ++ ((as₁ ++ p :: as₂) ++ [q]) = (bs ++ as₁) ++ p :: (as₂ ++ [q]) := by simp
    have hseated : (as₁ ++ p :: as₂) ++ q :: bs = as₁ ++ p :: (as₂ ++ q :: bs) := by simp
    rw [hturned, afterTurn_split hbs, hseated, afterTurn_split hnot₁]
    simp
  · rcases List.mem_cons.1 hp with rfl | hp
    · have hbs : p ∉ bs ++ as := by
        rw [List.mem_append]
        rintro (hmem | hmem)
        · exact (List.nodup_cons.1 hdisjoint.2.1).1 hmem
        · exact hnot hmem
      have hturned : bs ++ (as ++ [p]) = (bs ++ as) ++ p :: [] := by simp
      rw [hturned, afterTurn_split hbs, afterTurn_split hnot]
      simp
    · obtain ⟨bs₁, bs₂, rfl, hnot₁⟩ := List.eq_append_cons_of_mem hp
      have has : p ∉ as ++ q :: bs₁ := by
        simp only [List.mem_append, List.mem_cons]
        rintro (hmem | rfl | hmem)
        · exact hdisjoint.2.2 p hmem p (List.mem_cons_of_mem q hp) rfl
        · exact (List.nodup_cons.1 hdisjoint.2.1).1 (by simp)
        · exact hnot₁ hmem
      have hturned : (bs₁ ++ p :: bs₂) ++ (as ++ [q]) = bs₁ ++ p :: (bs₂ ++ (as ++ [q])) := by simp
      have hseated : as ++ q :: (bs₁ ++ p :: bs₂) = (as ++ q :: bs₁) ++ p :: bs₂ := by simp
      rw [hturned, afterTurn_split hnot₁, hseated, afterTurn_split has]
      simp

/-- The first who owes takes a turn and owes no more: the rest who owe are the same in the
order behind it. -/
theorem filter_afterTurn {owes : α → Bool} (hnodup : order.Nodup)
    (h : order.filter owes = p :: rest) :
    (afterTurn order p).filter (fun x => owes x && x ≠ p) = rest := by
  obtain ⟨as, bs, rfl, has, howes, hrest⟩ := List.filter_eq_cons_iff.1 h
  have hdisjoint := List.nodup_append.1 hnodup
  have hnot : p ∉ as := fun hmem => has p hmem howes
  have hbs : bs.filter (fun x => owes x && x ≠ p) = bs.filter owes := by
    refine List.filter_congr fun x hx => ?_
    have hne : x ≠ p := by
      rintro rfl
      exact (List.nodup_cons.1 hdisjoint.2.1).1 hx
    simp [hne]
  have has' : as.filter (fun x => owes x && x ≠ p) = [] := by
    rw [List.filter_eq_nil_iff]
    intro x hx
    simp [has x hx]
  rw [afterTurn_split hnot, List.filter_append, List.filter_append, hbs, has', hrest]
  simp

end PokerDeliberation.Lib
