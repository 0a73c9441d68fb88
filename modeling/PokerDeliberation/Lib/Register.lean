import Mathlib.Logic.ExistsUnique
import Mathlib.Logic.Relation
import Mathlib.Data.Nat.Notation

/-!
# Registers of entries that are settled or replaced

An entry of a register waits until it is settled with a verdict or replaced by
a new entry. What was settled or replaced stays so, and following replacements
from any entry ends at exactly one that was not replaced: a replacement is
always newer than what it replaces.
-/

namespace PokerDeliberation.Lib

inductive Status (κ ν : Type) where
  | waiting
  | settled (verdict : ν)
  | replaced (successor : κ)
  deriving DecidableEq, Repr

/-- What is known of each key. -/
def Register (κ ν : Type) := κ → Option (Status κ ν)

namespace Register

variable {κ ν : Type}

def empty : Register κ ν := fun _ => none

/-- `b` replaces `a`. -/
def Replaces (reg : Register κ ν) (a b : κ) : Prop := reg a = some (.replaced b)

/-- The entry is there, and nothing replaces it. -/
def Live (reg : Register κ ν) (k : κ) : Prop := reg k ≠ none ∧ ∀ b, ¬ reg.Replaces k b

variable [DecidableEq κ]

def set (reg : Register κ ν) (k : κ) (status : Status κ ν) : Register κ ν :=
  fun j => if j = k then some status else reg j

inductive Move : Register κ ν → Register κ ν → Prop
  | add {reg : Register κ ν} {k : κ} (fresh : reg k = none) : Move reg (reg.set k .waiting)
  | settle {reg : Register κ ν} {k : κ} {verdict : ν} (waits : reg k = some .waiting) :
      Move reg (reg.set k (.settled verdict))
  | replace {reg : Register κ ν} {a b : κ} (waits : reg a = some .waiting) (fresh : reg b = none) :
      Move reg ((reg.set b .waiting).set a (.replaced b))

def Moves : Register κ ν → Register κ ν → Prop := Relation.ReflTransGen Move

variable {reg reg' : Register κ ν} {a b k : κ} {verdict : ν} {status : Status κ ν}

@[simp] theorem set_self : reg.set k status k = some status := if_pos rfl

theorem set_of_ne (h : a ≠ k) : reg.set k status a = reg a := if_neg h

/-- A move changes only what is new or waits, and takes nothing away. -/
theorem Move.cases (h : Move reg reg') (k : κ) :
    reg' k = reg k ∨ (reg k = none ∨ reg k = some .waiting) ∧ reg' k ≠ none := by
  cases h with
  | @add j fresh =>
    by_cases hk : k = j
    · subst hk
      exact .inr ⟨.inl fresh, by simp⟩
    · exact .inl (set_of_ne hk)
  | @settle j _ waits =>
    by_cases hk : k = j
    · subst hk
      exact .inr ⟨.inr waits, by simp⟩
    · exact .inl (set_of_ne hk)
  | @replace a b waits fresh =>
    by_cases hk : k = a
    · subst hk
      exact .inr ⟨.inr waits, by simp⟩
    · by_cases hb : k = b
      · subst hb
        exact .inr ⟨.inl fresh, by simp [set_of_ne hk]⟩
      · exact .inl ((set_of_ne hk).trans (set_of_ne hb))

theorem Move.stays (h : Move reg reg') (hk : reg k ≠ none) : reg' k ≠ none := by
  rcases h.cases k with hsame | ⟨-, hnew⟩
  · rwa [hsame]
  · exact hnew

/-! ## Replacements -/

/-- Entries have numbers below `bound`, and each a lower one than its replacement. -/
structure Ranked (reg : Register κ ν) (rank : κ → ℕ) (bound : ℕ) : Prop where
  lt_bound : ∀ k, reg k ≠ none → rank k < bound
  lt : ∀ a b, reg.Replaces a b → reg b ≠ none ∧ rank a < rank b

omit [DecidableEq κ] in
theorem empty_ranked (rank : κ → ℕ) (bound : ℕ) : (empty : Register κ ν).Ranked rank bound :=
  ⟨fun _ h => absurd rfl h, fun _ _ h => by cases h⟩

/-- A new entry takes the next number. -/
theorem Ranked.move {rank : κ → ℕ} {bound : ℕ} (h : reg.Ranked rank bound) (hmove : Move reg reg') :
    ∃ rank' bound', reg'.Ranked rank' bound' := by
  cases hmove with
  | @add k fresh =>
    refine ⟨fun j => if j = k then bound else rank j, bound + 1, fun j hj => ?_, fun a b hab => ?_⟩
    · by_cases hk : j = k
      · simp [hk]
      · rw [set_of_ne hk] at hj
        rw [if_neg hk]
        exact Nat.lt_trans (h.lt_bound j hj) (Nat.lt_succ_self _)
    · have ha : a ≠ k := by
        rintro rfl
        rw [Replaces, set_self] at hab
        cases hab
      rw [Replaces, set_of_ne ha] at hab
      obtain ⟨hb, hlt⟩ := h.lt a b hab
      have hbk : b ≠ k := by
        rintro rfl
        exact hb fresh
      rw [set_of_ne hbk, if_neg ha, if_neg hbk]
      exact ⟨hb, hlt⟩
  | @settle k _ waits =>
    refine ⟨rank, bound, fun j hj => h.lt_bound j ?_, fun a b hab => ?_⟩
    · by_cases hk : j = k
      · rw [hk, waits]
        simp
      · rwa [set_of_ne hk] at hj
    · have ha : a ≠ k := by
        rintro rfl
        rw [Replaces, set_self] at hab
        cases hab
      rw [Replaces, set_of_ne ha] at hab
      obtain ⟨hb, hlt⟩ := h.lt a b hab
      exact ⟨(Move.settle waits).stays hb, hlt⟩
  | @replace x y waits fresh =>
    have hxy : x ≠ y := by
      rintro rfl
      rw [waits] at fresh
      cases fresh
    refine ⟨fun j => if j = y then bound else rank j, bound + 1, fun j hj => ?_, fun a b hab => ?_⟩
    · by_cases hy : j = y
      · simp [hy]
      · rw [if_neg hy]
        refine Nat.lt_trans (h.lt_bound j fun hnone => hj ?_) (Nat.lt_succ_self _)
        have hjx : j ≠ x := by
          rintro rfl
          rw [waits] at hnone
          cases hnone
        rw [set_of_ne hjx, set_of_ne hy, hnone]
    · by_cases ha : a = x
      · obtain rfl : y = b := by simpa [Replaces, ha] using hab
        rw [if_neg (ha ▸ hxy), if_pos rfl, set_of_ne hxy.symm, set_self, ha]
        exact ⟨by simp, h.lt_bound x (by simp [waits])⟩
      · have hay : a ≠ y := by
          rintro rfl
          rw [Replaces, set_of_ne ha, set_self] at hab
          cases hab
        rw [Replaces, set_of_ne ha, set_of_ne hay] at hab
        obtain ⟨hb, hlt⟩ := h.lt a b hab
        have hby : b ≠ y := by
          rintro rfl
          exact hb fresh
        rw [if_neg hay, if_neg hby]
        exact ⟨(Move.replace waits fresh).stays hb, hlt⟩

theorem Moves.ranked (h : Moves empty reg) : ∃ rank bound, reg.Ranked rank bound := by
  induction h with
  | refl => exact ⟨fun _ => 0, 0, empty_ranked _ _⟩
  | tail _ hstep ih =>
    obtain ⟨rank, bound, hranked⟩ := ih
    exact hranked.move hstep

omit [DecidableEq κ] in
theorem Ranked.exists_live {rank : κ → ℕ} {bound : ℕ} (h : reg.Ranked rank bound) (hk : reg k ≠ none) :
    ∃ last, Relation.ReflTransGen reg.Replaces k last ∧ reg.Live last := by
  induction hn : bound - rank k using Nat.strongRecOn generalizing k with
  | _ n ih =>
    by_cases hlive : ∃ b, reg.Replaces k b
    · obtain ⟨b, hkb⟩ := hlive
      obtain ⟨hb, hlt⟩ := h.lt k b hkb
      have hbound := h.lt_bound b hb
      obtain ⟨last, hlast, hend⟩ := ih (bound - rank b) (by omega) hb rfl
      exact ⟨last, .head hkb hlast, hend⟩
    · exact ⟨k, .refl, hk, fun b hkb => hlive ⟨b, hkb⟩⟩

omit [DecidableEq κ] in
theorem replaces_unique (hb : reg.Replaces k a) (hc : reg.Replaces k b) : a = b :=
  Status.replaced.inj (Option.some.inj (hb.symm.trans hc))

omit [DecidableEq κ] in
theorem Live.eq_of_replaces (ha : reg.Live a) (h : Relation.ReflTransGen reg.Replaces a b) : a = b := by
  rcases h.cases_head with heq | ⟨c, hac, -⟩
  · exact heq
  · exact absurd hac (ha.2 c)

/-- From any entry the replacements lead to exactly one that nothing replaces. -/
theorem Moves.existsUnique_live (h : Moves empty reg) (hk : reg k ≠ none) :
    ∃! last, Relation.ReflTransGen reg.Replaces k last ∧ reg.Live last := by
  obtain ⟨rank, bound, hranked⟩ := h.ranked
  obtain ⟨last, hlast, hlive⟩ := hranked.exists_live hk
  refine ⟨last, ⟨hlast, hlive⟩, fun other hother => ?_⟩
  have hunique : Relator.RightUnique reg.Replaces := fun _ _ _ => replaces_unique
  rcases Relation.ReflTransGen.total_of_right_unique hunique hlast hother.1 with hle | hle
  · exact (hlive.eq_of_replaces hle).symm
  · exact hother.2.eq_of_replaces hle

/-- No entry comes back to itself through its replacements. -/
theorem Moves.acyclic (h : Moves empty reg) : ¬ Relation.TransGen reg.Replaces k k := by
  obtain ⟨rank, bound, hranked⟩ := h.ranked
  have hlt : ∀ a b, Relation.TransGen reg.Replaces a b → rank a < rank b := by
    intro a b hab
    induction hab with
    | single hab => exact (hranked.lt _ _ hab).2
    | tail _ hbc ih => exact Nat.lt_trans ih (hranked.lt _ _ hbc).2
  exact fun hk => Nat.lt_irrefl _ (hlt k k hk)

/-! ## Moves of several entries -/

/-- Entries that wait can be settled one after another. -/
theorem moves_settle {keys : List κ} {verdict : κ → ν} (hnodup : keys.Nodup)
    (hwaits : ∀ k ∈ keys, reg k = some .waiting) (hsettled : ∀ k ∈ keys, reg' k = some (.settled (verdict k)))
    (hrest : ∀ k, k ∉ keys → reg' k = reg k) : Moves reg reg' := by
  induction keys generalizing reg with
  | nil =>
    obtain rfl : reg = reg' := funext fun k => (hrest k List.not_mem_nil).symm
    exact .refl
  | cons a keys ih =>
    obtain ⟨ha, hnodup⟩ := List.nodup_cons.1 hnodup
    have hstep : Move reg (reg.set a (.settled (verdict a))) := .settle (hwaits a List.mem_cons_self)
    refine .head hstep (ih hnodup (fun k hk => ?_) (fun k hk => hsettled k (List.mem_cons_of_mem _ hk))
      fun k hk => ?_)
    · have hne : k ≠ a := by
        rintro rfl
        exact ha hk
      rw [set_of_ne hne, hwaits k (List.mem_cons_of_mem _ hk)]
    · by_cases hka : k = a
      · rw [hka, set_self, hsettled a List.mem_cons_self]
      · rw [set_of_ne hka, hrest k (by simp [hka, hk])]

end Register

end PokerDeliberation.Lib
