import PokerDeliberation.Budgets.Settling

/-!
# Completed executions

The phases of `execute` over all its tasks: the reservations, the starts, the
effects and the settlements. A task is either fresh, its first permit reserved
in this execution, or read back from the state, and each phase has its lemma
about both.
-/

namespace PokerDeliberation.Budgets

open Lib

section

variable {executor : DurableBoundedExecutor} {outside : Outside} {made : List Call}
variable {p p' : Progress} {s s' s₀ : DurableBudgetStateV1}

/-- The reservation of the first attempt of a task. -/
def firstReservation (executor : DurableBoundedExecutor) (task : DurableExecutionTask) : Mutation :=
  reserve executor.sha256 (attemptReserve task.taskId 0) (attemptPermit task.taskId 0)
    task.reservation task.lineage none none

/-- Progress in which nothing is settled: what was open stays open. -/
structure Preparing (executor : DurableBoundedExecutor) (made : List Call) (p p' : Progress)
    (s s' : DurableBudgetStateV1) : Prop where
  working : Working executor made p' s'
  extends_state : Extends s s'
  settlements : settles p'.log = settles p.log
  effects : p'.effects = p.effects
  opens : ∀ q res l m, Open p s q res l m → Open p' s' q res l m

theorem Preparing.refl (hw : Working executor made p s) : Preparing executor made p p s s :=
  ⟨hw, .refl s, rfl, rfl, fun _ _ _ _ h => h⟩

theorem Preparing.trans {p'' : Progress} {s'' : DurableBudgetStateV1}
    (h : Preparing executor made p p' s s') (h' : Preparing executor made p' p'' s' s'') :
    Preparing executor made p p'' s s'' :=
  ⟨h'.working, h.extends_state.trans h'.extends_state, h'.settlements.trans h.settlements,
    h'.effects.trans h.effects, fun q res l m ho => h'.opens q res l m (h.opens q res l m ho)⟩

/-! ## The reservations -/

/-- A task after its reservation: fresh and open, or with a permit of before. -/
structure ReservedTask (executor : DurableBoundedExecutor) (s₀ : DurableBudgetStateV1) (p : Progress)
    (s : DurableBudgetStateV1) (x : DurableExecutionTask × Bool) : Prop where
  recorded : Recorded s (firstReservation executor x.1)
  replayed : x.2 = true → attemptPermit x.1.taskId 0 ∈ permitIds s₀
  fresh : x.2 = false → attemptPermit x.1.taskId 0 ∉ permitIds s₀ ∧
    ∃ m, Open p s (attemptPermit x.1.taskId 0) x.1.reservation x.1.lineage m

theorem ReservedTask.later {x : DurableExecutionTask × Bool}
    (h : ReservedTask executor s₀ p s x) (hp : Preparing executor made p p' s s') :
    ReservedTask executor s₀ p' s' x where
  recorded := hp.extends_state.recorded _ h.recorded
  replayed := h.replayed
  fresh hx := by
    obtain ⟨hfresh, m, ho⟩ := h.fresh hx
    exact ⟨hfresh, m, hp.opens _ _ _ _ ho⟩

/-- Every permit is one of before or the first of a task in `xs`. -/
def FirstPermits (s₀ s : DurableBudgetStateV1) (xs : List DurableExecutionTask) : Prop :=
  ∀ q ∈ permitIds s, q ∈ permitIds s₀ ∨ ∃ x ∈ xs, attemptPermit x.taskId 0 ∉ permitIds s₀ ∧
    q = attemptPermit x.taskId 0

theorem reserveTask_returns {task : DurableExecutionTask} {out : Bool × Bool}
    {done : List DurableExecutionTask} (hw : Working executor made p s) (he : Extends s₀ s)
    (hfirst : FirstPermits s₀ s done) (hnew : ∀ x ∈ done, x.taskId ≠ task.taskId)
    (h : Returns (executor.reserveTask outside task) p out p')
    (hfree : CollisionFree executor.sha256 executor.runId (made ++ p'.calls)) :
    ∃ s', Preparing executor made p p' s s' ∧ ReservedTask executor s₀ p' s' (task, out.2) ∧
      FirstPermits s₀ s' (done ++ [task]) := by
  unfold DurableBoundedExecutor.reserveTask at h
  simp only [returns_bind, returns_lift, returns_pure, ensure_eq_ok] at h
  obtain ⟨r, p₁, hcall, _, _, ⟨_, rfl⟩, rfl, rfl⟩ := h
  obtain ⟨s', m, hlog, heffects, hw', hcalled, hadv⟩ := attemptCall_returns hw rfl hcall hfree
  have hprep : Preparing executor made p p₁ s s' := by
    refine ⟨hw', hadv.extends_state, by simp [hlog, settles], heffects, fun q res l n ho => ?_⟩
    refine hadv.opens q res l n ?_ ho
    rintro ⟨_, hq, _⟩
    cases hq
  have hfirst' : FirstPermits s₀ s' (done ++ [task]) := by
    intro q hq
    rcases hadv.ids q hq with hq | ⟨_, _, _, _, _, hq⟩
    · rcases hfirst q hq with hq | ⟨x, hx, hrest⟩
      · exact .inl hq
      · exact .inr ⟨x, List.mem_append_left _ hx, hrest⟩
    · cases hq
      by_cases hold : attemptPermit task.taskId 0 ∈ permitIds s₀
      · exact .inl hold
      · exact .inr ⟨task, List.mem_append_right _ List.mem_cons_self, hold, rfl⟩
  refine ⟨s', hprep, ?_, hfirst'⟩
  cases hcalled with
  | replayed returned recorded =>
    refine ⟨recorded, fun _ => ?_, fun hx => ?_⟩
    · have hcalls : p₁.calls = p.calls ++ [.reserve (attemptReserve task.taskId 0)
          (attemptPermit task.taskId 0) task.reservation task.lineage none none] := by
        simp [Progress.calls, hlog]
      rw [hcalls, ← List.append_assoc] at hfree
      obtain ⟨x, hx, hid, _⟩ := recorded.reflected hw.logged hfree
      rcases hfirst _ (List.mem_map_of_mem hx) with hold | ⟨y, hy, _, heq⟩
      · rw [← hid]; exact hold
      · rw [hid] at heq
        exact absurd (attemptPermit_injective heq).1.symm (hnew y hy)
    · simp [returned.1] at hx
  | applied returned unrecorded reading_eq later successor clock =>
    have hlogs := (reserve_step successor).2.1
    refine ⟨hlogs.recorded unrecorded, fun hx => ?_, fun _ => ?_⟩
    · simp [returned.1] at hx
    · obtain ⟨hfresh, ho⟩ := reserve_opens hw hlog
        (.applied returned unrecorded reading_eq later successor clock) returned.1
      exact ⟨fun hq => hfresh (he.keeps.permitIds hq), m, ho⟩

/-- The loop: `done` are the tasks reserved so far. -/
theorem reserveAll_returns {reserved tasks done : List DurableExecutionTask}
    {out : List (DurableExecutionTask × Bool)} (hw : Working executor made p s)
    (he : Extends s₀ s) (hfirst : FirstPermits s₀ s done)
    (hnodup : ((done ++ tasks).map (·.taskId)).Nodup)
    (h : Returns (executor.reserveAll outside reserved tasks) p out p')
    (hfree : CollisionFree executor.sha256 executor.runId (made ++ p'.calls)) :
    ∃ s', Preparing executor made p p' s s' ∧ out.map (·.1) = tasks ∧
      (∀ x ∈ out, ReservedTask executor s₀ p' s' x) ∧ FirstPermits s₀ s' (done ++ tasks) := by
  induction tasks generalizing reserved done out p s with
  | nil =>
    obtain ⟨rfl, rfl⟩ := returns_pure.1 h
    exact ⟨s, .refl hw, rfl, by simp, by simpa using hfirst⟩
  | cons task rest ih =>
    unfold DurableBoundedExecutor.reserveAll at h
    simp only [returns_bind, returns_onRaise, returns_pure] at h
    obtain ⟨⟨active, replay⟩, p₁, htask, others, p₂, hothers, rfl, rfl⟩ := h
    have hl : Later p₁ p₂ := reserveAll_later executor outside _ _ _ _ _ hothers
    have hnew : ∀ x ∈ done, x.taskId ≠ task.taskId := by
      intro x hx heq
      rw [List.map_append, List.nodup_append] at hnodup
      exact hnodup.2.2 _ (List.mem_map_of_mem hx) _ (List.mem_map_of_mem List.mem_cons_self) heq
    obtain ⟨s₁, hprep₁, htask₁, hfirst₁⟩ :=
      reserveTask_returns hw he hfirst hnew htask (hfree.of_later hl)
    have hnodup₁ : ((done ++ [task] ++ rest).map (·.taskId)).Nodup := by simpa using hnodup
    obtain ⟨s₂, hprep₂, hout, hall, hfirst₂⟩ := ih hprep₁.working
      (he.trans hprep₁.extends_state) hfirst₁ hnodup₁ hothers
    refine ⟨s₂, hprep₁.trans hprep₂, by simp [hout], ?_, by simpa using hfirst₂⟩
    exact List.forall_mem_cons.2 ⟨htask₁.later hprep₂, hall⟩

/-! ## The starts -/

/-- A prepared task: one that is read back, or one that is open. -/
inductive PreparedTask (s₀ : DurableBudgetStateV1) (p : Progress) (s : DurableBudgetStateV1)
    (task : DurableExecutionTask) : Option (List ExecutionAttemptResultV1) → Prop where
  | replayed {attempts : List ExecutionAttemptResultV1} {mid : DurableBudgetStateV1}
    (old : attemptPermit task.taskId 0 ∈ permitIds s₀) (consistent : Consistent mid)
    (after : Extends mid s) (keeps : permitIds s₀ ⊆ permitIds mid)
    (ids : permitIds s ⊆ permitIds mid)
    (readback : replayedAttempts task.taskId mid = .ok (some attempts)) :
    PreparedTask s₀ p s task (some attempts)
  | started {m : Int} (fresh : attemptPermit task.taskId 0 ∉ permitIds s₀)
    (opened : Open p s (attemptPermit task.taskId 0) task.reservation task.lineage m) :
    PreparedTask s₀ p s task none

theorem storeLoad_current (hw : Working executor made p s) {state : DurableBudgetStateV1}
    (h : Returns (executor.storeLoad outside) p state p') :
    state = s ∧ p' = { p with turn := p.turn + 1 } := by
  obtain ⟨hload, _, hp⟩ := storeLoad_returns executor outside h
  obtain ⟨_, _, rest, hrevisions⟩ := load_ok hload
  obtain ⟨rest', hcurrent⟩ := hw.current
  rw [hcurrent, List.cons.injEq, Revision.mk.injEq] at hrevisions
  exact ⟨hrevisions.1.2.symm, hp⟩

theorem Working.turned (hw : Working executor made p s) :
    Preparing executor made p { p with turn := p.turn + 1 } s s :=
  ⟨⟨hw.current, hw.valid, hw.logged, hw.reflected⟩, .refl s, rfl, rfl,
    fun _ _ _ _ ho => ⟨ho.permit, ho.quiet, ho.attempt, ho.reserved⟩⟩

theorem mem_family_of_permitIds {t q : String} (hq : q ∈ permitIds s) (ht : inFamily t q) :
    family t s ≠ [] := by
  obtain ⟨a, ha, rfl⟩ := List.mem_map.1 hq
  exact List.ne_nil_of_mem (mem_family.2 ⟨ha, ht⟩)

/-- A read-back that finds nothing has looked at an empty family. -/
theorem family_of_replayedAttempts_none {t : String} (h : replayedAttempts t s = .ok none) :
    family t s = [] := by
  unfold replayedAttempts at h
  simp only [bind_eq_ok, indexedAttempts_ok] at h
  obtain ⟨_, ⟨rfl, _⟩, h⟩ := h
  split at h
  · next he => exact List.map_eq_nil_iff.1 he
  · simp only [bind_eq_ok, ensure_eq_ok, pure_eq_ok, reduceCtorEq, and_false, exists_false] at h

theorem startTask_returns {x : DurableExecutionTask × Bool}
    {out : DurableExecutionTask × Option (List ExecutionAttemptResultV1)}
    (hw : Working executor made p s) (he : Extends s₀ s) (hx : ReservedTask executor s₀ p s x)
    (h : Returns (executor.startTask outside x) p out p')
    (hfree : CollisionFree executor.sha256 executor.runId (made ++ p'.calls)) :
    ∃ s', Preparing executor made p p' s s' ∧ permitIds s' ⊆ permitIds s ∧ out.1 = x.1 ∧
      PreparedTask s₀ p' s' x.1 out.2 := by
  unfold DurableBoundedExecutor.startTask at h
  rw [returns_bind] at h
  obtain ⟨replay, p₁, hreplay, h⟩ := h
  unfold DurableBoundedExecutor.replayTask at hreplay
  cases hflag : x.2 with
  | true =>
    rw [if_pos hflag] at hreplay
    simp only [returns_bind, returns_lift] at hreplay
    obtain ⟨state, _, hload, hread, rfl⟩ := hreplay
    obtain ⟨rfl, rfl⟩ := storeLoad_current hw hload
    have hold := he.keeps.permitIds (hx.replayed hflag)
    cases replay with
    | none =>
      exact absurd (family_of_replayedAttempts_none hread)
        (mem_family_of_permitIds hold inFamily_attemptPermit)
    | some attempts =>
      obtain ⟨rfl, rfl⟩ := returns_pure.1 h
      exact ⟨state, hw.turned, fun _ hq => hq, rfl, .replayed (hx.replayed hflag) hw.consistent
        (.refl state) (fun _ hq => he.keeps.permitIds hq) (fun _ hq => hq) hread⟩
  | false =>
    rw [if_neg (by simp [hflag])] at hreplay
    obtain ⟨rfl, rfl⟩ := returns_pure.1 hreplay
    simp only [returns_bind, returns_pure] at h
    obtain ⟨r, p₂, hcall, rfl, rfl⟩ := h
    obtain ⟨s', m, hlog, heffects, hw', _, hadv⟩ := attemptCall_returns hw rfl hcall hfree
    have hprep : Preparing executor made p p₂ s s' := by
      refine ⟨hw', hadv.extends_state, by simp [hlog, settles], heffects, fun q res l n ho => ?_⟩
      refine hadv.opens q res l n ?_ ho
      rintro ⟨_, hq, _⟩
      cases hq
    obtain ⟨hfresh, n, ho⟩ := hx.fresh hflag
    refine ⟨s', hprep, fun q hq => ?_, rfl, .started hfresh (hprep.opens _ _ _ _ ho)⟩
    rcases hadv.ids q hq with hq | ⟨_, _, _, _, _, hq⟩
    · exact hq
    · cases hq

theorem PreparedTask.later {task : DurableExecutionTask}
    {out : Option (List ExecutionAttemptResultV1)} (h : PreparedTask s₀ p s task out)
    (hp : Preparing executor made p p' s s') (hids : permitIds s' ⊆ permitIds s) :
    PreparedTask s₀ p' s' task out := by
  cases h with
  | replayed old consistent after keeps ids readback =>
    exact .replayed old consistent (after.trans hp.extends_state) keeps (fun q hq => ids (hids hq)) readback
  | started fresh opened => exact .started fresh (hp.opens _ _ _ _ opened)

theorem startAll_returns {xs : List (DurableExecutionTask × Bool)}
    {out : List (DurableExecutionTask × Option (List ExecutionAttemptResultV1))}
    (hw : Working executor made p s) (he : Extends s₀ s)
    (hxs : ∀ x ∈ xs, ReservedTask executor s₀ p s x)
    (h : Returns (xs.mapM (executor.startTask outside)) p out p')
    (hfree : CollisionFree executor.sha256 executor.runId (made ++ p'.calls)) :
    ∃ s', Preparing executor made p p' s s' ∧ permitIds s' ⊆ permitIds s ∧
      out.map (·.1) = xs.map (·.1) ∧ ∀ y ∈ out, PreparedTask s₀ p' s' y.1 y.2 := by
  induction xs generalizing out p s with
  | nil =>
    obtain ⟨rfl, rfl⟩ := returns_mapM_nil.1 h
    exact ⟨s, .refl hw, fun _ hq => hq, rfl, by simp⟩
  | cons x rest ih =>
    obtain ⟨y, ys, p₁, rfl, hx, hys⟩ := returns_mapM_cons.1 h
    have hl : Later p₁ p' := Moves.mapM (startTask_later executor outside) rest _ _ _ hys
    obtain ⟨hx₀, hrest⟩ := List.forall_mem_cons.1 hxs
    obtain ⟨s₁, hprep₁, hids₁, hout₁, htask₁⟩ :=
      startTask_returns hw he hx₀ hx (hfree.of_later hl)
    obtain ⟨s₂, hprep₂, hids₂, hout₂, hall⟩ := ih hprep₁.working (he.trans hprep₁.extends_state)
      (fun z hz => (hrest z hz).later hprep₁) hys
    refine ⟨s₂, hprep₁.trans hprep₂, fun q hq => hids₁ (hids₂ hq), by simp [hout₁, hout₂], ?_⟩
    refine List.forall_mem_cons.2 ⟨?_, hall⟩
    rw [hout₁]
    exact htask₁.later hprep₂ hids₂

/-! ## The effects -/

/-- A task after the effects have run. -/
inductive RanTask : Option (List ExecutionAttemptResultV1) →
    List ExecutionAttemptResultV1 ⊕ EffectResultV1 → Prop where
  | replayed {attempts : List ExecutionAttemptResultV1} : RanTask (some attempts) (.inl attempts)
  | ran {result : EffectResultV1} : RanTask none (.inr result)

theorem runAll_returns {xs : List (DurableExecutionTask × Option (List ExecutionAttemptResultV1))}
    {out : List (DurableExecutionTask × (List ExecutionAttemptResultV1 ⊕ EffectResultV1))}
    (h : Returns (xs.mapM (executor.runTask outside)) p out p') :
    (∃ new, p' = { p with effects := p.effects ++ new } ∧
      (new = [] → ∀ x ∈ xs, x.2 ≠ none)) ∧
      List.Forall₂ (fun x y => y.1 = x.1 ∧ RanTask x.2 y.2) xs out := by
  induction xs generalizing out p with
  | nil =>
    obtain ⟨rfl, rfl⟩ := returns_mapM_nil.1 h
    exact ⟨⟨[], by simp, by simp⟩, .nil⟩
  | cons x rest ih =>
    obtain ⟨y, ys, p₁, rfl, hx, hys⟩ := returns_mapM_cons.1 h
    obtain ⟨⟨new, rfl, hnew⟩, hall⟩ := ih hys
    unfold DurableBoundedExecutor.runTask at hx
    split at hx
    · next attempts hsome =>
      obtain ⟨rfl, rfl⟩ := returns_pure.1 hx
      refine ⟨⟨new, rfl, fun he => ?_⟩, .cons ⟨rfl, by rw [hsome]; exact .replayed⟩ hall⟩
      exact List.forall_mem_cons.2 ⟨by simp [hsome], hnew he⟩
    · next hnone =>
      simp only [returns_bind, returns_pure] at hx
      obtain ⟨result, _, hrun, rfl, rfl⟩ := hx
      have hp := runEffect_returns executor outside hrun
      subst hp
      refine ⟨⟨x.1.lineage :: new, by simp, by simp⟩, .cons ⟨rfl, by rw [hnone]; exact .ran⟩ hall⟩

/-! ## The settlements -/

/-- A task that is ready to be settled. -/
def Ready (s₀ : DurableBudgetStateV1) (p : Progress) (s : DurableBudgetStateV1)
    (x : DurableExecutionTask × (List ExecutionAttemptResultV1 ⊕ EffectResultV1)) : Prop :=
  ∀ result, x.2 = .inr result → ReservedBelow s₀ s x.1.taskId 1 ∧
    attemptPermit x.1.taskId 0 ∉ permitIds s₀ ∧
    ∃ m, Open p s (attemptPermit x.1.taskId 0) x.1.reservation x.1.lineage m

/-- What settling one task leads to. -/
structure SettlingTask (executor : DurableBoundedExecutor) (made : List Call) (p p' : Progress)
    (s₀ s s' : DurableBudgetStateV1)
    (x : DurableExecutionTask × (List ExecutionAttemptResultV1 ⊕ EffectResultV1))
    (y : DurableExecutionTask × List ExecutionAttemptResultV1)
    (cs : List (SettleArgs × Int)) : Prop where
  working : Working executor made p' s'
  extends_state : Extends s s'
  settlements : settles p'.log = settles p.log ++ cs
  task : y.1 = x.1
  replayed : ∀ attempts, x.2 = .inl attempts → y.2 = attempts ∧ cs = []
  fresh : ∀ result, x.2 = .inr result → y.2 ≠ [] ∧ SettledFrom p'.log s₀ s' x.1.taskId 0 y.2 cs
  ids : ∀ q ∈ permitIds s', q ∈ permitIds s ∨
    ∃ result j, x.2 = .inr result ∧ j < y.2.length ∧ q = attemptPermit x.1.taskId j
  opens : ∀ u k res l m, u ≠ x.1.taskId → Open p s (attemptPermit u k) res l m →
    Open p' s' (attemptPermit u k) res l m

theorem settleTask_returns {most : Nat}
    {x : DurableExecutionTask × (List ExecutionAttemptResultV1 ⊕ EffectResultV1)}
    {y : DurableExecutionTask × List ExecutionAttemptResultV1} (hs₀ : Consistent s₀)
    (hw : Working executor made p s) (he : Extends s₀ s) (hready : Ready s₀ p s x)
    (h : Returns (executor.settleTask outside most x) p y p')
    (hfree : CollisionFree executor.sha256 executor.runId (made ++ p'.calls)) :
    ∃ s' cs, SettlingTask executor made p p' s₀ s s' x y cs := by
  unfold DurableBoundedExecutor.settleTask at h
  split at h
  · next attempts hleft =>
    obtain ⟨rfl, rfl⟩ := returns_pure.1 h
    refine ⟨s, [], hw, .refl s, by simp, rfl, fun a ha => ?_, fun r hr => ?_, fun q hq => .inl hq,
      fun _ _ _ _ _ _ ho => ho⟩
    · rw [hleft] at ha
      exact ⟨Sum.inl.inj ha, rfl⟩
    · rw [hleft] at hr
      cases hr
  · next result hright =>
    obtain ⟨hbelow, hfresh, m, ho⟩ := hready result hright
    simp only [returns_bind, returns_pure] at h
    obtain ⟨attempt, p₁, hsettle, others, p₂, hothers, rfl, rfl⟩ := h
    have hl : Later p₁ p₂ := retryAll_later executor outside _ _ _ _ _ _ _ _ hothers
    obtain ⟨s₁, a, n, hset⟩ := settleResult_returns hw ho hsettle (hfree.of_later hl)
    obtain ⟨z, hz, hzid, hzl⟩ := ho.attempt
    have hcur : Current s₀ s x.1.taskId 0 x.1.lineage := ⟨hfresh, z, hz, hzid, hzl⟩
    have hbelow₁ : ReservedBelow s₀ s₁ x.1.taskId (0 + 1) := fun q hq => hbelow q (hset.ids hq)
    obtain ⟨s₂, cs, hret⟩ := retryAll_returns hs₀ ⟨most, rfl⟩ hset.working
      (he.trans hset.extends_state) (hcur.mono hset.extends_state.keeps) hbelow₁ hothers hfree
    refine ⟨s₂, (a, n) :: cs, hret.working, hset.extends_state.trans hret.extends_state, ?_, rfl,
      fun a ha => ?_, fun r hr => ⟨List.cons_ne_nil _ _, ?_⟩, fun q hq => ?_,
      fun u k res l m' hu hopen => ?_⟩
    · rw [hret.settlements, hset.log]
      simp [settles]
    · rw [hright] at ha
      cases ha
    · exact .cons hfresh (hset.settled.mono hret.extends_state hl.1) hret.attempts
    · rcases hret.ids q hq with hq | ⟨j, _, hj, rfl⟩
      · exact .inl (hset.ids hq)
      · exact .inr ⟨result, j, hright, by simp only [List.length_cons]; omega, rfl⟩
    · exact hret.opens u k res l m' hu (hset.opens _ _ _ _
        (fun heq => hu (attemptPermit_injective heq).1) hopen)

/-- What settling all tasks leads to. -/
structure SettlingAll (executor : DurableBoundedExecutor) (made : List Call) (p p' : Progress)
    (s₀ s s' : DurableBudgetStateV1)
    (xs : List (DurableExecutionTask × (List ExecutionAttemptResultV1 ⊕ EffectResultV1)))
    (ys : List (DurableExecutionTask × List ExecutionAttemptResultV1)) : Prop where
  working : Working executor made p' s'
  extends_state : Extends s s'
  tasks : List.Forall₂ (fun x y => y.1 = x.1 ∧
    (∀ attempts, x.2 = .inl attempts → y.2 = attempts) ∧
    ∀ result, x.2 = .inr result → y.2 ≠ [] ∧ ∃ cs, (∀ c ∈ cs, c ∈ settles p'.log) ∧
      SettledFrom p'.log s₀ s' x.1.taskId 0 y.2 cs) xs ys
  settlements : ∀ c ∈ settles p'.log, c ∈ settles p.log ∨
    ∃ y ∈ ys, ∃ cs, c ∈ cs ∧ SettledFrom p'.log s₀ s' y.1.taskId 0 y.2 cs
  ids : ∀ q ∈ permitIds s', q ∈ permitIds s ∨
    ∃ y ∈ ys, attemptPermit y.1.taskId 0 ∉ permitIds s₀ ∧
      ∃ j < y.2.length, q = attemptPermit y.1.taskId j

theorem Ready.after {x z : DurableExecutionTask × (List ExecutionAttemptResultV1 ⊕ EffectResultV1)}
    {y : DurableExecutionTask × List ExecutionAttemptResultV1} {cs : List (SettleArgs × Int)}
    (h : Ready s₀ p s z) (hne : z.1.taskId ≠ x.1.taskId)
    (hx : SettlingTask executor made p p' s₀ s s' x y cs) : Ready s₀ p' s' z := by
  intro result hr
  obtain ⟨hbelow, hfresh, m, ho⟩ := h result hr
  refine ⟨fun q hq => ?_, hfresh, m, hx.opens _ _ _ _ _ hne ho⟩
  rcases hx.ids q hq with hq | ⟨_, j, _, _, rfl⟩
  · exact hbelow q hq
  · exact .inr ⟨_, j, rfl, fun he => absurd he.symm hne⟩

theorem settleAll_returns {most : Nat}
    {xs : List (DurableExecutionTask × (List ExecutionAttemptResultV1 ⊕ EffectResultV1))}
    {ys : List (DurableExecutionTask × List ExecutionAttemptResultV1)} (hs₀ : Consistent s₀)
    (hw : Working executor made p s) (he : Extends s₀ s) (hready : ∀ x ∈ xs, Ready s₀ p s x)
    (hnodup : (xs.map (·.1.taskId)).Nodup)
    (h : Returns (xs.mapM (executor.settleTask outside most)) p ys p')
    (hfree : CollisionFree executor.sha256 executor.runId (made ++ p'.calls)) :
    ∃ s', SettlingAll executor made p p' s₀ s s' xs ys := by
  induction xs generalizing ys p s with
  | nil =>
    obtain ⟨rfl, rfl⟩ := returns_mapM_nil.1 h
    exact ⟨s, hw, .refl s, .nil, fun c hc => .inl hc, fun q hq => .inl hq⟩
  | cons x rest ih =>
    obtain ⟨y, ys, p₁, rfl, hx, hys⟩ := returns_mapM_cons.1 h
    have hl : Later p₁ p' := Moves.mapM (settleTask_later executor outside most) rest _ _ _ hys
    obtain ⟨hready₀, hrest⟩ := List.forall_mem_cons.1 hready
    rw [List.map_cons, List.nodup_cons] at hnodup
    obtain ⟨s₁, cs, hset⟩ := settleTask_returns hs₀ hw he hready₀ hx (hfree.of_later hl)
    have hne : ∀ z ∈ rest, z.1.taskId ≠ x.1.taskId :=
      fun z hz heq => hnodup.1 (List.mem_map.2 ⟨z, hz, heq⟩)
    obtain ⟨s₂, hall⟩ := ih hset.working (he.trans hset.extends_state)
      (fun z hz => (hrest z hz).after (hne z hz) hset) hnodup.2 hys
    have hfrom : ∀ result, x.2 = .inr result → SettledFrom p'.log s₀ s₂ x.1.taskId 0 y.2 cs :=
      fun result hr => (hset.fresh result hr).2.mono hall.extends_state hl.1
    have hsettles : ∀ c ∈ settles p₁.log, c ∈ settles p'.log := by
      obtain ⟨new, hnew⟩ := hl.1
      intro c hc
      rw [← hnew, settles_append]
      exact List.mem_append_left _ hc
    refine ⟨s₂, hall.working, hset.extends_state.trans hall.extends_state,
      .cons ⟨hset.task, fun a ha => (hset.replayed a ha).1, fun result hr =>
        ⟨(hset.fresh result hr).1, cs, fun c hc => hsettles c ?_, hfrom result hr⟩⟩ hall.tasks,
      fun c hc => ?_, fun q hq => ?_⟩
    · rw [hset.settlements]
      exact List.mem_append_right _ hc
    · rcases hall.settlements c hc with hc | ⟨z, hz, hrest⟩
      · rw [hset.settlements] at hc
        rcases List.mem_append.1 hc with hc | hc
        · exact .inl hc
        · cases hx₂ : x.2 with
          | inl attempts =>
            rw [(hset.replayed attempts hx₂).2] at hc
            cases hc
          | inr result =>
            refine .inr ⟨y, List.mem_cons_self, cs, hc, ?_⟩
            rw [hset.task]
            exact hfrom result hx₂
      · exact .inr ⟨z, List.mem_cons_of_mem _ hz, hrest⟩
    · rcases hall.ids q hq with hq | ⟨z, hz, hrest⟩
      · rcases hset.ids q hq with hq | ⟨result, j, hr, hj, rfl⟩
        · exact .inl hq
        · refine .inr ⟨y, List.mem_cons_self, ?_, j, hj, ?_⟩
          · rw [hset.task]
            exact (hready₀ result hr).2.1
          · rw [hset.task]
      · exact .inr ⟨z, List.mem_cons_of_mem _ hz, hrest⟩

end

end PokerDeliberation.Budgets
