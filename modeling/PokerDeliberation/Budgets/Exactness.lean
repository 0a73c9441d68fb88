import PokerDeliberation.Budgets.Again

/-!
# When a replay is exact

The records of a completed execution are read back as they were returned
exactly when nothing overran and the permits of every fresh task are told
apart: no permit the run already holds is in its family, and its prefix is not
part of that of another task.
-/

namespace PokerDeliberation.Budgets

open Lib

section

variable {executor : DurableBoundedExecutor} {outside : Outside} {made : List Call}
variable {p p' : Progress} {s s' s₀ : DurableBudgetStateV1}
variable {tasks : List DurableExecutionTask} {task : DurableExecutionTask}
variable {out : List (DurableExecutionTask × List ExecutionAttemptResultV1)}
variable {log : List TimedCall} {t : String} {i : Nat} {rs : List ExecutionAttemptResultV1}
variable {cs : List (SettleArgs × Int)}

/-- The permits of a task are told from those in `ids` and of the other tasks. -/
structure Distinguished (ids : List String) (tasks : List DurableExecutionTask)
    (task : DurableExecutionTask) : Prop where
  ids : ∀ q ∈ ids, ¬ inFamily task.taskId q
  tasks : ∀ u ∈ tasks, u.taskId ≠ task.taskId →
    ¬ (permitPrefix task.taskId).toList <+: (permitPrefix u.taskId).toList

/-- Every task whose first permit is not yet among `ids` is distinguished, and no
settlement in the log overran. -/
structure ReplaysExactly (ids : List String) (tasks : List DurableExecutionTask)
    (log : List TimedCall) : Prop where
  distinguished : ∀ task ∈ tasks, attemptPermit task.taskId 0 ∉ ids → Distinguished ids tasks task
  within : ∀ c ∈ settles log, ¬ Overran log c.1 c.2

/-! ## Fresh attempts by index -/

theorem SettledFrom.get (h : SettledFrom log s₀ s t i rs cs) {j : Nat} (hj : j < rs.length) :
    attemptPermit t (i + j) ∉ permitIds s₀ ∧
      ∃ c ∈ cs, Settled log s t (i + j) rs[j] c.1 c.2 := by
  induction h generalizing j with
  | nil => simp at hj
  | @cons i r c rs cs fresh settled _ ih =>
    cases j with
    | zero => exact ⟨fresh, c, List.mem_cons_self, settled⟩
    | succ j =>
      obtain ⟨hfresh, c', hc', hs⟩ := ih (Nat.lt_of_succ_lt_succ hj)
      rw [Nat.add_right_comm] at hfresh hs
      exact ⟨hfresh, c', List.mem_cons_of_mem _ hc', hs⟩

theorem SettledFrom.mem (h : SettledFrom log s₀ s t i rs cs) {c : SettleArgs × Int} (hc : c ∈ cs) :
    ∃ j, ∃ hj : j < rs.length, Settled log s t (i + j) rs[j] c.1 c.2 := by
  induction h with
  | nil => cases hc
  | @cons i r c' rs cs fresh settled _ ih =>
    rcases List.mem_cons.1 hc with rfl | hc
    · exact ⟨0, by simp, settled⟩
    · obtain ⟨j, hj, hs⟩ := ih hc
      rw [Nat.add_right_comm] at hs
      exact ⟨j + 1, by simpa using hj, hs⟩

/-! ## Reading a record of before back -/

/-- What was read back while the tasks were prepared is read back afterwards. -/
theorem replayed_again (hc : Completed executor made p s₀ s tasks out)
    {attempts : List ExecutionAttemptResultV1} {mid : DurableBudgetStateV1}
    (hold : attemptPermit task.taskId 0 ∈ permitIds s₀) (hmid : Consistent mid)
    (hafter : Extends mid s) (hkeeps : permitIds s₀ ⊆ permitIds mid)
    (hfirsts : ∀ u ∈ tasks, attemptPermit u.taskId 0 ∈ permitIds mid)
    (hread : replayedAttempts task.taskId mid = .ok (some attempts)) :
    replayedAttempts task.taskId s = .ok (some attempts) := by
  have hs := hc.working.consistent
  obtain ⟨hne, as, harr⟩ := replayedAttempts_iff.1 hread
  have hdigits : ∀ a ∈ family task.taskId mid, isDigits (permitSuffix task.taskId a.permitId) ∧
      a.permitId ∈ settledIds mid := by
    intro a ha
    obtain ⟨j, hj, rfl⟩ := List.mem_iff_getElem.1 (harr.perm.symm.subset ha)
    obtain ⟨_, hreport⟩ := harr.report j hj
    exact ⟨(harr.index j hj).1, replayedAttempt_settled hreport⟩
  have hsub : ∀ a ∈ family task.taskId mid, a ∈ family task.taskId s := by
    intro a ha
    obtain ⟨hmem, hin⟩ := mem_family.1 ha
    exact mem_family.2 ⟨hafter.settled a hmem (hdigits a ha).2, hin⟩
  have hsup : ∀ a ∈ family task.taskId s, a ∈ family task.taskId mid := by
    intro a ha
    obtain ⟨hmem, hin⟩ := mem_family.1 ha
    have hknown : a.permitId ∈ permitIds mid := by
      rcases hc.ids _ (List.mem_map_of_mem hmem) with hq | ⟨y, hy, hfresh, j, _, hq⟩
      · exact hkeeps hq
      · -- the first permit of that task would have stopped the read-back
        exfalso
        rw [hq] at hin
        have hne : task.taskId ≠ y.1.taskId := fun he => hfresh (he ▸ hold)
        have hfirst : inFamily task.taskId (attemptPermit y.1.taskId 0) := by
          unfold inFamily
          rw [attemptPermit_toList]
          exact (overlap hin).trans (List.prefix_append _ _)
        have hytasks : y.1 ∈ tasks := by
          rw [← hc.tasks_eq]
          exact List.mem_map_of_mem hy
        obtain ⟨b, hb, hbid⟩ := List.mem_map.1 (hfirsts y.1 hytasks)
        have hbdigits := (hdigits b (mem_family.2 ⟨hb, hbid ▸ hfirst⟩)).1
        rw [hbid] at hbdigits
        exact not_isDigits_of_overlap hfirst hne hbdigits
    obtain ⟨b, hb, hbid⟩ := List.mem_map.1 hknown
    have hbmid : b ∈ family task.taskId mid := mem_family.2 ⟨hb, by rw [hbid]; exact hin⟩
    obtain rfl : b = a := hs.attempts.eq (mem_family.1 (hsub b hbmid)).1 hmem hbid
    exact hbmid
  have hnodup : ∀ {x : DurableBudgetStateV1}, Consistent x → (family task.taskId x).Nodup :=
    fun hx => (hx.attempts.of_map AttemptRecordV1.permitId).filter _
  have hperm : (family task.taskId mid).Perm (family task.taskId s) :=
    (List.perm_ext_iff_of_nodup (hnodup hmid) (hnodup hs)).2 fun a => ⟨hsub a, hsup a⟩
  refine replayedAttempts_iff.2 ⟨fun hnil => hne (by simpa [hnil] using hperm), as,
    harr.perm.trans hperm, harr.length, harr.index, fun j hj => ?_⟩
  obtain ⟨hj', hreport⟩ := harr.report j hj
  refine ⟨hj', ?_⟩
  rw [← hreport]
  -- the settlement of each attempt is the one found before
  have hset := replayedAttempt_settled hreport
  obtain ⟨y, hy, hyid⟩ := List.mem_map.1 hset
  have hfind : ∀ {x : DurableBudgetStateV1}, Consistent x → y ∈ x.settlements →
      Keyed.dict DurableSettlementV1.permitId x.settlements as[j].permitId = some y :=
    fun hx hmem => (Keyed.dict_eq_some_iff hx.settlements).2 ⟨hmem, hyid⟩
  unfold replayedAttempt
  rw [hfind hmid hy, hfind hs (hafter.keeps.settlements y hy)]

/-! ## Reading a fresh record back -/

/-- The attempts of a fresh task, in order. -/
theorem SettledFrom.attempts (h : SettledFrom log s₀ s t 0 rs cs) :
    ∃ as : List AttemptRecordV1, as.length = rs.length ∧ ∀ j (hj : j < as.length),
      as[j] ∈ s.attempts ∧ as[j].permitId = attemptPermit t j := by
  have hex : ∀ j : Fin rs.length, ∃ a ∈ s.attempts, a.permitId = attemptPermit t j := by
    intro j
    obtain ⟨_, c, _, hset⟩ := h.get j.isLt
    obtain ⟨x, hx, hid, _⟩ := hset.attempt
    rw [Nat.zero_add] at hid
    exact ⟨x, hx, hid⟩
  choose f hf hid using hex
  refine ⟨List.ofFn f, by simp, fun j hj => ?_⟩
  rw [List.getElem_ofFn]
  exact ⟨hf _, hid _⟩

/-- A fresh task is read back as it was returned exactly when its family is its
own attempts and none of them overran. -/
theorem fresh_replayed_iff (hs : Consistent s) (hne : rs ≠ [])
    (h : SettledFrom log s₀ s t 0 rs cs) :
    replayedAttempts t s = .ok (some rs) ↔
      (∀ q ∈ permitIds s, inFamily t q → ∃ j < rs.length, q = attemptPermit t j) ∧
        ∀ c ∈ cs, ¬ Overran log c.1 c.2 := by
  obtain ⟨as, hlength, has⟩ := h.attempts
  constructor
  · intro hread
    obtain ⟨_, bs, harr⟩ := replayedAttempts_iff.1 hread
    have hpermit : ∀ j (hj : j < bs.length), bs[j] ∈ s.attempts ∧
        bs[j].permitId = attemptPermit t j := by
      intro j hj
      obtain ⟨hj', hreport⟩ := harr.report j hj
      obtain ⟨_, _, _, hset⟩ := h.get hj'
      rw [Nat.zero_add] at hset
      refine ⟨(mem_family.1 (harr.perm.subset (List.getElem_mem hj))).1, ?_⟩
      have hreported : rs[j].permitId = bs[j].permitId := by
        unfold replayedAttempt at hreport
        split at hreport
        · cases hreport
        · rw [← (attemptResult_ok.1 hreport).2]
      rw [← hreported]
      exact hset.permit
    refine ⟨fun q hq hin => ?_, fun c hc => ?_⟩
    · obtain ⟨a, ha, rfl⟩ := List.mem_map.1 hq
      obtain ⟨j, hj, rfl⟩ := List.mem_iff_getElem.1 (harr.perm.symm.subset (mem_family.2 ⟨ha, hin⟩))
      exact ⟨j, harr.length ▸ hj, (hpermit j hj).2⟩
    · obtain ⟨j, hj, hset⟩ := h.mem hc
      rw [Nat.zero_add] at hset
      have hjb : j < bs.length := harr.length ▸ hj
      obtain ⟨hmem, hid⟩ := hpermit j hjb
      obtain ⟨_, hreport⟩ := harr.report j hjb
      exact (hset.replayed_iff hs hmem hid).1 hreport
  · rintro ⟨hown, hwithin⟩
    have hperm : as.Perm (family t s) := by
      refine (List.perm_ext_iff_of_nodup ?_ ((hs.attempts.of_map _).filter _)).2 fun a => ?_
      · refine List.nodup_iff_injective_getElem.2 fun j k hjk => Fin.ext ?_
        have hid : (as[j.1]).permitId = (as[k.1]).permitId := congrArg _ hjk
        rw [(has j j.isLt).2, (has k k.isLt).2] at hid
        exact (attemptPermit_injective hid).2
      · show a ∈ as ↔ a ∈ family t s
        rw [mem_family]
        constructor
        · intro ha
          obtain ⟨j, hj, rfl⟩ := List.mem_iff_getElem.1 ha
          refine ⟨(has j hj).1, ?_⟩
          rw [(has j hj).2]
          exact inFamily_attemptPermit
        · rintro ⟨ha, hin⟩
          obtain ⟨j, hj, hid⟩ := hown _ (List.mem_map_of_mem ha) hin
          have hja : j < as.length := hlength ▸ hj
          obtain rfl : as[j] = a := hs.attempts.eq (has j hja).1 ha ((has j hja).2.trans hid.symm)
          exact List.getElem_mem hja
    have hasne : as ≠ [] := by
      rintro rfl
      exact hne (List.length_eq_zero_iff.1 hlength.symm)
    refine replayedAttempts_iff.2 ⟨fun hnil => hasne (by simpa [hnil] using hperm), as, hperm, hlength,
      fun j hj => ?_, fun j hj => ⟨hlength ▸ hj, ?_⟩⟩
    · rw [(has j hj).2, permitSuffix_attemptPermit]
      exact ⟨isDigits_toDigits, decimalValue_toDigits⟩
    · have hj' : j < rs.length := hlength ▸ hj
      obtain ⟨_, c, hc, hset⟩ := h.get hj'
      rw [Nat.zero_add] at hset
      exact (hset.replayed_iff hs (has j hj).1 (has j hj).2).2 (hwithin c hc)

/-! ## All records -/

theorem Completed.mem_tasks (hc : Completed executor made p s₀ s tasks out)
    {y : DurableExecutionTask × List ExecutionAttemptResultV1} (hy : y ∈ out) : y.1 ∈ tasks := by
  rw [← hc.tasks_eq]
  exact List.mem_map_of_mem hy

theorem Completed.eq_of_taskId (hc : Completed executor made p s₀ s tasks out)
    {y z : DurableExecutionTask × List ExecutionAttemptResultV1} (hy : y ∈ out) (hz : z ∈ out)
    (h : y.1.taskId = z.1.taskId) : y = z := by
  have hnodup : (out.map (·.1.taskId)).Nodup := by
    have hmap : out.map (·.1.taskId) = (out.map (·.1)).map (·.taskId) := by
      rw [List.map_map]; rfl
    rw [hmap, hc.tasks_eq]
    exact hc.nodup
  exact List.inj_on_of_nodup_map hnodup hy hz h

/-- The family of a fresh task in the final state. -/
theorem own_family_iff (hc : Completed executor made p s₀ s tasks out)
    {y : DurableExecutionTask × List ExecutionAttemptResultV1} (hy : y ∈ out) (hne : y.2 ≠ [])
    (h : SettledFrom log s₀ s y.1.taskId 0 y.2 cs) :
    (∀ q ∈ permitIds s, inFamily y.1.taskId q → ∃ j < y.2.length, q = attemptPermit y.1.taskId j) ↔
      Distinguished (permitIds s₀) tasks y.1 := by
  constructor
  · intro hown
    refine ⟨fun q hq hin => ?_, fun u hu hne' hprefix => ?_⟩
    · obtain ⟨j, hj, rfl⟩ := hown q (hc.extends_state.keeps.permitIds hq) hin
      have hfresh := (h.get hj).1
      rw [Nat.zero_add] at hfresh
      exact hfresh hq
    · -- the first permit of `u` would be an attempt of the task
      have hin : inFamily y.1.taskId (attemptPermit u.taskId 0) := by
        unfold inFamily
        rw [attemptPermit_toList]
        exact hprefix.trans (List.prefix_append _ _)
      obtain ⟨j, _, hq⟩ := hown _ (hc.firsts u hu) hin
      exact hne' (attemptPermit_injective hq).1
  · intro hd q hq hin
    rcases hc.ids q hq with hq | ⟨z, hz, _, j, hj, rfl⟩
    · exact absurd hin (hd.ids q hq)
    · by_cases he : z.1.taskId = y.1.taskId
      · obtain rfl := hc.eq_of_taskId hz hy he
        exact ⟨j, hj, rfl⟩
      · exact absurd (overlap hin) (hd.tasks z.1 (hc.mem_tasks hz) he)

/-- All records are read back as they were returned exactly when the condition holds. -/
theorem readback_iff (hc : Completed executor made p s₀ s tasks out) :
    (∀ y ∈ out, replayedAttempts y.1.taskId s = .ok (some y.2)) ↔
      ReplaysExactly (permitIds s₀) tasks p.log := by
  have hs := hc.working.consistent
  constructor
  · intro hread
    refine ⟨fun task htask hfresh => ?_, fun c hcs => ?_⟩
    · rw [← hc.tasks_eq] at htask
      obtain ⟨y, hy, rfl⟩ := List.mem_map.1 htask
      have hcompleted := hc.completed y hy
      cases hcompleted with
      | replayed old => exact absurd old hfresh
      | fresh nonempty _ settled =>
        exact (own_family_iff hc hy nonempty settled).1
          ((fresh_replayed_iff hs nonempty settled).1 (hread y hy)).1
    · obtain ⟨y, hy, cs, hcmem, hfrom⟩ := hc.settlements c hcs
      have hne : y.2 ≠ [] := by
        obtain ⟨j, hj, _⟩ := hfrom.mem hcmem
        exact List.ne_nil_of_length_pos (Nat.lt_of_le_of_lt (Nat.zero_le j) hj)
      exact ((fresh_replayed_iff hs hne hfrom).1 (hread y hy)).2 c hcmem
  · intro hcond y hy
    have hcompleted := hc.completed y hy
    cases hcompleted with
    | replayed old consistent after keeps firsts readback =>
      exact replayed_again hc old consistent after keeps firsts readback
    | @fresh cs nonempty settlements settled =>
      have hfresh : attemptPermit y.1.taskId 0 ∉ permitIds s₀ := by
        have hget := settled.get (List.length_pos_of_ne_nil nonempty)
        exact hget.1
      refine (fresh_replayed_iff hs nonempty settled).2 ⟨?_, fun c hcmem => ?_⟩
      · exact (own_family_iff hc hy nonempty settled).2
          (hcond.distinguished y.1 (hc.mem_tasks hy) hfresh)
      · exact hcond.within c (settlements c hcmem)

end

end PokerDeliberation.Budgets
