import PokerDeliberation.Budgets.Execution

/-!
# Reading a record back

The permits of a task are told from those of another by a prefix of their
names alone. `overlap` says when the prefixes of two tasks get in each other's
way, and `replayedAttempts_iff` what the read-back returns: the family of the
task, arranged by its indices.
-/

namespace PokerDeliberation.Budgets

open Lib

/-! ## Names -/

section Names

variable {t u : String} {i j : Nat}

theorem attemptPermit_toList :
    (attemptPermit t i).toList = (permitPrefix t).toList ++ Nat.toDigits 10 i := by
  rw [attemptPermit, String.toList_append, Nat.toString_eq_ofList_toDigits, String.toList_ofList]

theorem inFamily_attemptPermit : inFamily t (attemptPermit t i) := by
  unfold inFamily
  rw [attemptPermit_toList]
  exact List.prefix_append _ _

theorem permitSuffix_attemptPermit : permitSuffix t (attemptPermit t i) = Nat.toDigits 10 i := by
  unfold permitSuffix
  rw [attemptPermit_toList, List.drop_left]

theorem isDigits_toDigits : isDigits (Nat.toDigits 10 i) :=
  ⟨Nat.toDigits_ne_nil, List.all_eq_true.2 fun _ hc =>
    Nat.isDigit_of_mem_toDigits (by decide) (by decide) hc⟩

theorem decimalValue_toDigits : decimalValue (Nat.toDigits 10 i) = i := by
  have h := Nat.ofDigitChars_ten_toDigits (n := i)
  rw [Nat.ofDigitChars_eq_foldl] at h
  exact h

theorem permitPrefix_toList : (permitPrefix t).toList = "permit-".toList ++ t.toList ++ ".attempt-".toList := by
  rw [permitPrefix, String.toList_append, String.toList_append]

theorem permitPrefix_getLast : (permitPrefix t).toList.getLast? = some '-' := by
  rw [permitPrefix_toList, List.getLast?_append]
  rfl

theorem permitPrefix_injective (h : (permitPrefix t).toList = (permitPrefix u).toList) : t = u := by
  rw [permitPrefix_toList, permitPrefix_toList] at h
  have hmid := List.append_cancel_right h
  exact String.toList_injective (List.append_cancel_left hmid)

/-- No digit is the last character of a prefix. -/
theorem not_digits_of_getLast {s : List Char} (h : s.getLast? = some '-') : ¬ isDigits s := by
  rintro ⟨_, hall⟩
  have hdigit := List.all_eq_true.1 hall _ (List.mem_of_getLast? h)
  exact absurd hdigit (by decide)

/-- A permit of one task that starts like those of another does so in the part
that is common to all its permits. -/
theorem overlap (h : inFamily t (attemptPermit u j)) :
    (permitPrefix t).toList <+: (permitPrefix u).toList := by
  unfold inFamily at h
  rw [attemptPermit_toList] at h
  have hu : (permitPrefix u).toList <+: (permitPrefix u).toList ++ Nat.toDigits 10 j :=
    List.prefix_append _ _
  rcases le_total (permitPrefix t).toList.length (permitPrefix u).toList.length with hle | hle
  · exact List.prefix_of_prefix_length_le h hu hle
  · -- otherwise the prefix of `t` ends inside the index, but its last character is no digit
    obtain ⟨d, hd⟩ := List.prefix_of_prefix_length_le hu h hle
    rw [← hd, List.prefix_append_right_inj] at h
    by_cases hnil : d = []
    · rw [← hd, hnil, List.append_nil]
    · have hlast := permitPrefix_getLast (t := t)
      rw [← hd, List.getLast?_append_of_ne_nil _ hnil] at hlast
      refine absurd ⟨hnil, List.all_eq_true.2 fun c hc => ?_⟩ (not_digits_of_getLast hlast)
      exact List.all_eq_true.1 isDigits_toDigits.2 c (h.subset hc)

/-- Where the prefix of `t` is part of that of another task, no permit of `t` is
in the other's family, and none of the other's has a digit suffix in that of `t`. -/
theorem overlap_strict (h : (permitPrefix t).toList <+: (permitPrefix u).toList) (hne : t ≠ u) :
    ∃ w, (permitPrefix u).toList = (permitPrefix t).toList ++ w ∧ w.getLast? = some '-' := by
  obtain ⟨w, hw⟩ := h
  have hnil : w ≠ [] := by
    rintro rfl
    rw [List.append_nil] at hw
    exact hne (permitPrefix_injective hw)
  refine ⟨w, hw.symm, ?_⟩
  have hlast := permitPrefix_getLast (t := u)
  rw [← hw, List.getLast?_append_of_ne_nil _ hnil] at hlast
  exact hlast

theorem attemptPermit_injective (h : attemptPermit t i = attemptPermit u j) : t = u ∧ i = j := by
  have htu : (permitPrefix t).toList <+: (permitPrefix u).toList :=
    overlap (h ▸ inFamily_attemptPermit)
  have hut : (permitPrefix u).toList <+: (permitPrefix t).toList :=
    overlap (h.symm ▸ inFamily_attemptPermit)
  obtain rfl := permitPrefix_injective (htu.eq_of_length_le hut.length_le)
  refine ⟨rfl, ?_⟩
  have hsuffix : permitSuffix t (attemptPermit t i) = permitSuffix t (attemptPermit t j) := by rw [h]
  rw [permitSuffix_attemptPermit, permitSuffix_attemptPermit] at hsuffix
  rw [← decimalValue_toDigits (i := i), hsuffix, decimalValue_toDigits]

/-- The suffix of a permit of `u` in the family of another task is no number. -/
theorem not_isDigits_of_overlap (h : inFamily t (attemptPermit u j)) (hne : t ≠ u) :
    ¬ isDigits (permitSuffix t (attemptPermit u j)) := by
  obtain ⟨w, hw, hlast⟩ := overlap_strict (overlap h) hne
  unfold permitSuffix
  rw [attemptPermit_toList, hw, List.append_assoc, List.drop_left]
  rintro ⟨_, hall⟩
  have hdash : '-' ∈ w ++ Nat.toDigits 10 j :=
    List.mem_append_left _ (List.mem_of_getLast? hlast)
  exact absurd (List.all_eq_true.1 hall _ hdash) (by decide)

end Names

/-! ## The read-back -/

section Readback

variable {t : String} {s : DurableBudgetStateV1} {rs : List ExecutionAttemptResultV1}

/-- The attempts of a task's family. -/
def family (t : String) (s : DurableBudgetStateV1) : List AttemptRecordV1 :=
  s.attempts.filter fun attempt => inFamily t attempt.permitId

theorem mem_family {a : AttemptRecordV1} :
    a ∈ family t s ↔ a ∈ s.attempts ∧ inFamily t a.permitId := by
  simp [family]

theorem attemptResult_ok {r r' : ExecutionAttemptResultV1} :
    attemptResult r = .ok r' ↔ r.check = .ok () ∧ r = r' := by
  unfold attemptResult
  simp only [bind_eq_ok, valid_eq_ok, pure_eq_ok]
  constructor
  · rintro ⟨_, h, he⟩
    exact ⟨h, he⟩
  · rintro ⟨h, he⟩
    exact ⟨(), h, he⟩

theorem indexedAttempts_ok {indexed : List (Nat × AttemptRecordV1)} :
    indexedAttempts t s.attempts = .ok indexed ↔
      indexed = (family t s).map (fun a => (decimalValue (permitSuffix t a.permitId), a)) ∧
        ∀ a ∈ family t s, isDigits (permitSuffix t a.permitId) := by
  unfold indexedAttempts
  rw [mapM_eq_ok]
  simp only [ensure_bind_eq_ok, pure_eq_ok]
  show List.Forall₂ _ (family t s) indexed ↔ _
  induction family t s generalizing indexed with
  | nil => simp
  | cons a as ih =>
    rw [List.forall₂_cons_left_iff]
    constructor
    · rintro ⟨_, _, ⟨hd, rfl⟩, hrest, rfl⟩
      obtain ⟨rfl, hall⟩ := ih.1 hrest
      exact ⟨rfl, List.forall_mem_cons.2 ⟨hd, hall⟩⟩
    · rintro ⟨rfl, hall⟩
      obtain ⟨hd, hall⟩ := List.forall_mem_cons.1 hall
      exact ⟨_, _, ⟨hd, rfl⟩, ih.2 ⟨rfl, hall⟩, rfl⟩

/-- `as` is the family of the task in the order of its indices, and `rs` what is
reported of each. -/
structure Arranged (t : String) (s : DurableBudgetStateV1) (as : List AttemptRecordV1)
    (rs : List ExecutionAttemptResultV1) : Prop where
  perm : as.Perm (family t s)
  length : as.length = rs.length
  index : ∀ i (h : i < as.length), isDigits (permitSuffix t as[i].permitId) ∧
    decimalValue (permitSuffix t as[i].permitId) = i
  report : ∀ i (h : i < as.length), ∃ h' : i < rs.length,
    replayedAttempt s.settlements (i, as[i]) = .ok rs[i]

/-- An attempt with its index, as the read-back pairs them. -/
def indexed (t : String) (a : AttemptRecordV1) : Nat × AttemptRecordV1 :=
  (decimalValue (permitSuffix t a.permitId), a)

theorem replayedAttempt_settled {x : Nat × AttemptRecordV1} {r : ExecutionAttemptResultV1}
    (h : replayedAttempt s.settlements x = .ok r) :
    x.2.permitId ∈ s.settlements.map (·.permitId) := by
  unfold replayedAttempt at h
  split at h
  · cases h
  · next settlement hfind =>
    obtain ⟨hmem, hid⟩ := Keyed.find_mem hfind
    exact List.mem_map.2 ⟨settlement, List.mem_reverse.1 hmem, hid⟩

theorem replayedAttempts_ok : replayedAttempts t s = .ok (some rs) ↔
    family t s ≠ [] ∧ (∀ a ∈ family t s, isDigits (permitSuffix t a.permitId)) ∧
      let sorted := ((family t s).map (indexed t)).insertionSort fun x y => x.1 ≤ y.1
      sorted.map (·.1) = List.range sorted.length ∧
        (∀ x ∈ sorted, x.2.permitId ∈ s.settlements.map (·.permitId)) ∧
        List.Forall₂ (fun x r => replayedAttempt s.settlements x = .ok r) sorted rs := by
  unfold replayedAttempts
  simp only [bind_eq_ok, indexedAttempts_ok]
  constructor
  · rintro ⟨_, ⟨rfl, hdigits⟩, h⟩
    split at h
    · simp at h
    · next hne =>
      simp only [bind_eq_ok, ensure_eq_ok, pure_eq_ok, mapM_eq_ok, exists_const,
        Option.some.injEq] at h
      obtain ⟨hrange, hsettled, _, hall, rfl⟩ := h
      exact ⟨fun he => hne (by rw [he]; rfl), hdigits, hrange, hsettled, hall⟩
  · rintro ⟨hne, hdigits, hrange, hsettled, hall⟩
    refine ⟨_, ⟨rfl, hdigits⟩, ?_⟩
    rw [if_neg fun he => hne (List.map_eq_nil_iff.1 he)]
    simp only [bind_eq_ok, ensure_eq_ok, pure_eq_ok, mapM_eq_ok, exists_const, Option.some.injEq]
    exact ⟨hrange, hsettled, rs, hall, rfl⟩

/-- The arrangement of a sorted family. -/
theorem Arranged.of_sorted {sorted : List (Nat × AttemptRecordV1)}
    (hperm : sorted.Perm ((family t s).map (indexed t)))
    (hdigits : ∀ a ∈ family t s, isDigits (permitSuffix t a.permitId))
    (hrange : sorted.map (·.1) = List.range sorted.length)
    (hall : List.Forall₂ (fun x r => replayedAttempt s.settlements x = .ok r) sorted rs) :
    Arranged t s (sorted.map (·.2)) rs := by
  have hlength := hall.length_eq
  have hindex : ∀ i (h : i < sorted.length), sorted[i] = (i, sorted[i].2) ∧
      isDigits (permitSuffix t sorted[i].2.permitId) ∧
      decimalValue (permitSuffix t sorted[i].2.permitId) = i := by
    intro i h
    have hmem : sorted[i] ∈ (family t s).map (indexed t) := hperm.subset (List.getElem_mem h)
    obtain ⟨a, ha, hai⟩ := List.mem_map.1 hmem
    have hi : sorted[i].1 = i := by
      have hget : (sorted.map (·.1))[i]? = some i := by
        rw [hrange, List.getElem?_range h]
      simpa [List.getElem?_map, List.getElem?_eq_getElem h] using hget
    have hsnd : sorted[i].2 = a := by rw [← hai]; rfl
    have hfst : decimalValue (permitSuffix t a.permitId) = i := by
      rw [← hi, ← hai]; rfl
    refine ⟨Prod.ext hi rfl, ?_, ?_⟩
    · rw [hsnd]; exact hdigits a ha
    · rw [hsnd]; exact hfst
  refine ⟨?_, by rw [List.length_map]; exact hlength, fun i h => ?_, fun i h => ?_⟩
  · have hmap := hperm.map (·.2)
    rw [List.map_map] at hmap
    simpa [indexed, Function.comp_def] using hmap
  · rw [List.getElem_map]
    exact (hindex i (by simpa using h)).2
  · have hi : i < sorted.length := by simpa using h
    refine ⟨hlength ▸ hi, ?_⟩
    have hget := List.Forall₂.get hall hi (hlength ▸ hi)
    simp only [List.get_eq_getElem] at hget
    rw [(hindex i hi).1] at hget
    rw [List.getElem_map]
    exact hget

/-- A family arranged by its indices is what sorting it gives. -/
theorem Arranged.sorted {as : List AttemptRecordV1} (h : Arranged t s as rs) :
    ((family t s).map (indexed t)).insertionSort (fun x y => x.1 ≤ y.1) = as.map (indexed t) := by
  have hindex : ∀ i (hi : i < as.length), indexed t as[i] = (i, as[i]) :=
    fun i hi => Prod.ext (h.index i hi).2 rfl
  have hmem : ∀ x ∈ as.map (indexed t), ∃ i, ∃ hi : i < as.length, x = (i, as[i]) := by
    intro x hx
    obtain ⟨a, ha, rfl⟩ := List.mem_map.1 hx
    obtain ⟨i, hi, rfl⟩ := List.mem_iff_getElem.1 ha
    exact ⟨i, hi, hindex i hi⟩
  have hperm : (((family t s).map (indexed t)).insertionSort fun x y => x.1 ≤ y.1).Perm
      (as.map (indexed t)) := (List.perm_insertionSort _ _).trans (h.perm.symm.map _)
  refine @List.Perm.eq_of_pairwise _ (fun x y : Nat × AttemptRecordV1 => x.1 ≤ y.1) _ _
    (fun x y hx hy hxy hyx => ?_) ?_ ?_ hperm
  · obtain ⟨i, hi, rfl⟩ := hmem x (hperm.subset hx)
    obtain ⟨j, hj, rfl⟩ := hmem y hy
    obtain rfl : i = j := le_antisymm hxy hyx
    rfl
  · have : Std.Total (fun x y : Nat × AttemptRecordV1 => x.1 ≤ y.1) :=
      ⟨fun x y => Nat.le_total _ _⟩
    have : IsTrans (Nat × AttemptRecordV1) (fun x y => x.1 ≤ y.1) :=
      ⟨fun _ _ _ => Nat.le_trans⟩
    exact List.pairwise_insertionSort _ _
  · refine List.pairwise_iff_getElem.2 fun i j hi hj hij => ?_
    rw [List.getElem_map, List.getElem_map, hindex, hindex]
    exact hij.le

/-- The read-back succeeds exactly when the family can be so arranged. -/
theorem replayedAttempts_iff : replayedAttempts t s = .ok (some rs) ↔
    family t s ≠ [] ∧ ∃ as, Arranged t s as rs := by
  rw [replayedAttempts_ok]
  constructor
  · rintro ⟨hne, hdigits, hrange, _, hall⟩
    exact ⟨hne, _, .of_sorted (List.perm_insertionSort _ _) hdigits hrange hall⟩
  · rintro ⟨hne, as, h⟩
    have hindex : ∀ i (hi : i < as.length), indexed t as[i] = (i, as[i]) :=
      fun i hi => Prod.ext (h.index i hi).2 rfl
    rw [h.sorted]
    refine ⟨hne, fun a ha => ?_, ?_, fun x hx => ?_, ?_⟩
    · obtain ⟨i, hi, rfl⟩ := List.mem_iff_getElem.1 (h.perm.symm.subset ha)
      exact (h.index i hi).1
    · refine List.ext_getElem (by simp) fun i h1 h2 => ?_
      rw [List.getElem_range, List.getElem_map, List.getElem_map, hindex]
    · obtain ⟨a, ha, rfl⟩ := List.mem_map.1 hx
      obtain ⟨i, hi, rfl⟩ := List.mem_iff_getElem.1 ha
      obtain ⟨_, hreport⟩ := h.report i hi
      rw [← hindex i hi] at hreport
      exact replayedAttempt_settled hreport
    · refine List.forall₂_iff_get.2 ⟨by rw [List.length_map]; exact h.length, fun i h1 h2 => ?_⟩
      have hi : i < as.length := by simpa using h1
      obtain ⟨_, hreport⟩ := h.report i hi
      simp only [List.get_eq_getElem, List.getElem_map, hindex i hi]
      exact hreport

end Readback

end PokerDeliberation.Budgets
