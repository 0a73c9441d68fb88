import PokerDeliberation.Budgets.Completed

/-!
# Executing again

A second call with the same tasks finds every reservation recorded and reads
every record back (`execute_returns`). Whether these are the records of the first call
is left to the next module.
-/

namespace PokerDeliberation.Budgets

open Lib

section

variable {executor : DurableBoundedExecutor} {outside : Outside} {made : List Call}
variable {p p' : Progress} {s s' s₀ : DurableBudgetStateV1}

/-! ## What the first call leaves -/

/-- A task of a completed execution: read back, or fresh and settled. -/
inductive CompletedTask (log : List TimedCall) (s₀ s : DurableBudgetStateV1)
    (tasks : List DurableExecutionTask) (task : DurableExecutionTask) :
    List ExecutionAttemptResultV1 → Prop where
  | replayed {attempts : List ExecutionAttemptResultV1} {mid : DurableBudgetStateV1}
    (old : attemptPermit task.taskId 0 ∈ permitIds s₀) (consistent : Consistent mid)
    (after : Extends mid s) (keeps : permitIds s₀ ⊆ permitIds mid)
    (firsts : ∀ u ∈ tasks, attemptPermit u.taskId 0 ∈ permitIds mid)
    (readback : replayedAttempts task.taskId mid = .ok (some attempts)) :
    CompletedTask log s₀ s tasks task attempts
  | fresh {attempts : List ExecutionAttemptResultV1} {cs : List (SettleArgs × Int)}
    (nonempty : attempts ≠ []) (settlements : ∀ c ∈ cs, c ∈ settles log)
    (settled : SettledFrom log s₀ s task.taskId 0 attempts cs) :
    CompletedTask log s₀ s tasks task attempts

/-- What a completed execution has done to the state `s₀` it found. -/
structure Completed (executor : DurableBoundedExecutor) (made : List Call) (p : Progress)
    (s₀ s : DurableBudgetStateV1) (tasks : List DurableExecutionTask)
    (out : List (DurableExecutionTask × List ExecutionAttemptResultV1)) : Prop where
  working : Working executor made p s
  extends_state : Extends s₀ s
  tasks_eq : out.map (·.1) = tasks
  nodup : (tasks.map (·.taskId)).Nodup
  recorded : ∀ task ∈ tasks, Recorded s (firstReservation executor task)
  firsts : ∀ task ∈ tasks, attemptPermit task.taskId 0 ∈ permitIds s
  completed : ∀ y ∈ out, CompletedTask p.log s₀ s tasks y.1 y.2
  ids : ∀ q ∈ permitIds s, q ∈ permitIds s₀ ∨
    ∃ y ∈ out, attemptPermit y.1.taskId 0 ∉ permitIds s₀ ∧
      ∃ j < y.2.length, q = attemptPermit y.1.taskId j
  settlements : ∀ c ∈ settles p.log,
    ∃ y ∈ out, ∃ cs, c ∈ cs ∧ SettledFrom p.log s₀ s y.1.taskId 0 y.2 cs

/-- The phases of one call, as they follow one another. -/
structure Phases (executor : DurableBoundedExecutor) (outside : Outside) (maxWorkers : Option Int)
    (tasks : List DurableExecutionTask) (p p' : Progress) (result : DurableExecutionResultV1)
    (state final : DurableBudgetStateV1) (candidates : List (DurableExecutionTask × Bool))
    (prepared : List (DurableExecutionTask × Option (List ExecutionAttemptResultV1)))
    (ran : List (DurableExecutionTask × (List ExecutionAttemptResultV1 ⊕ EffectResultV1)))
    (out : List (DurableExecutionTask × List ExecutionAttemptResultV1))
    (p₁ p₂ p₃ p₄ p₅ : Progress) : Prop where
  nodup : ((DurableBoundedExecutor.orderedTasks tasks).map (·.taskId)).Nodup
  ordinals : (DurableBoundedExecutor.orderedTasks tasks).map (·.executionOrdinal) =
    List.range (DurableBoundedExecutor.orderedTasks tasks).length
  loaded : Returns (executor.storeLoad outside) p state p₁
  workers : DurableBoundedExecutor.admitsWorkers state maxWorkers
  isolated : executor.isolationEvidence (DurableBoundedExecutor.orderedTasks tasks) =
    .ok result.isolationEvidence
  reserved : Returns (executor.reserveAll outside [] (DurableBoundedExecutor.orderedTasks tasks)) p₁
    candidates p₂
  started : Returns (candidates.mapM (executor.startTask outside)) p₂ prepared p₃
  effects : Returns (prepared.mapM (executor.runTask outside)) p₃ ran p₄
  settled : Returns (ran.mapM
    (executor.settleTask outside state.policy.activation.maxAutomaticRetries)) p₄ out p₅
  records : out.mapM (fun x => executionRecord x.1 x.2) = .ok result.records
  reloaded : Returns (executor.storeLoad outside) p₅ final p'
  peak : result.peakConcurrency =
    max (if (prepared.filter (·.2.isSome)).length = prepared.length then 0 else max 1 outside.peak)
      (min final.usage.peakConcurrency (prepared.filter (·.2.isSome)).length)
  check : result.check = .ok ()

theorem execute_returns {maxWorkers : Option Int} {tasks : List DurableExecutionTask}
    {result : DurableExecutionResultV1} (hne : tasks ≠ []) :
    Returns (executor.execute outside maxWorkers tasks) p result p' ↔
      ∃ state final candidates prepared ran out p₁ p₂ p₃ p₄ p₅,
        Phases executor outside maxWorkers tasks p p' result state final candidates prepared ran
          out p₁ p₂ p₃ p₄ p₅ := by
  unfold DurableBoundedExecutor.execute
  rw [if_neg hne]
  simp only [returns_bind, returns_lift, returns_pure, valid_eq_ok, require_eq_ok]
  constructor
  · rintro ⟨_, _, ⟨hnodup, rfl⟩, _, _, ⟨hordinals, rfl⟩, state, p₁, hload, _, _, ⟨hworkers, rfl⟩,
      evidence, _, ⟨hisolated, rfl⟩, candidates, p₂, hreserved, prepared, p₃, hstarted, ran, p₄,
      heffects, out, p₅, hsettled, records, _, ⟨hrecords, rfl⟩, final, p₆, hreloaded, _, _,
      ⟨hcheck, rfl⟩, rfl, rfl⟩
    exact ⟨state, final, candidates, prepared, ran, out, p₁, p₂, p₃, p₄, p₅, hnodup, hordinals, hload,
      hworkers, hisolated, hreserved, hstarted, heffects, hsettled, hrecords, hreloaded, rfl, hcheck⟩
  · rintro ⟨state, final, candidates, prepared, ran, out, p₁, p₂, p₃, p₄, p₅, h⟩
    have hresult : (⟨result.records, max
        (if (prepared.filter (·.2.isSome)).length = prepared.length then 0 else max 1 outside.peak)
        (min final.usage.peakConcurrency (prepared.filter (·.2.isSome)).length),
        result.isolationEvidence⟩ : DurableExecutionResultV1) = result := by
      rw [← h.peak]
    refine ⟨(), p, ⟨h.nodup, rfl⟩, (), p, ⟨h.ordinals, rfl⟩, state, p₁, h.loaded, (), p₁,
      ⟨h.workers, rfl⟩, _, p₁, ⟨h.isolated, rfl⟩, candidates, p₂, h.reserved, prepared, p₃,
      h.started, ran, p₄, h.effects, out, p₅, h.settled, _, p₅, ⟨h.records, rfl⟩, final, p',
      h.reloaded, (), p', ⟨?_, rfl⟩, hresult, rfl⟩
    rw [hresult]
    exact h.check

/-- Before the first call of an execution. -/
theorem working_run {actions : List Action}
    (h : load executor.sha256 executor.runId
      (run executor.sha256 executor.runId actions).revisions none = .ok s₀) (turn : Nat) :
    Working executor (actionCalls actions)
      { store := run executor.sha256 executor.runId actions, turn } s₀ := by
  obtain ⟨_, hcheck, rest, hrevisions⟩ := load_ok h
  have hmem : (⟨s₀.generation, s₀⟩ : Revision) ∈
      (run executor.sha256 executor.runId actions).revisions := by
    rw [hrevisions]
    exact List.mem_cons_self
  refine ⟨⟨rest, hrevisions⟩, (checkHistory_ok.1 hcheck).1 _ hmem, ?_, by simp [Progress.calls]⟩
  have hlogged := run_logged actions _ hmem
  simpa [Progress.calls] using hlogged

theorem forall₂_map_eq {α β γ : Type} {f : α → γ} {g : β → γ} {xs : List α} {ys : List β}
    (h : List.Forall₂ (fun x y => g y = f x) xs ys) : xs.map f = ys.map g := by
  induction h with
  | nil => rfl
  | cons hxy _ ih => rw [List.map_cons, List.map_cons, hxy, ih]

/-- A call that completes has completed every task. -/
theorem Phases.completed {maxWorkers : Option Int} {tasks : List DurableExecutionTask}
    {result : DurableExecutionResultV1} {state final : DurableBudgetStateV1}
    {candidates : List (DurableExecutionTask × Bool)}
    {prepared : List (DurableExecutionTask × Option (List ExecutionAttemptResultV1))}
    {ran : List (DurableExecutionTask × (List ExecutionAttemptResultV1 ⊕ EffectResultV1))}
    {out : List (DurableExecutionTask × List ExecutionAttemptResultV1)} {p₁ p₂ p₃ p₄ p₅ : Progress}
    (h : Phases executor outside maxWorkers tasks p p' result state final candidates prepared ran out
      p₁ p₂ p₃ p₄ p₅) (hw : Working executor made p₁ state) (hlog : p₁.log = [])
    (hfree : CollisionFree executor.sha256 executor.runId (made ++ p'.calls)) :
    Completed executor made p' state final (DurableBoundedExecutor.orderedTasks tasks) out := by
  have hl₅ : Later p₅ p' := storeLoad_later executor outside _ _ _ h.reloaded
  have hl₄ : Later p₄ p₅ := Moves.mapM (settleTask_later executor outside _) _ _ _ _ h.settled
  have hl₃ : Later p₃ p₄ := Moves.mapM (runTask_later executor outside) _ _ _ _ h.effects
  have hl₂ : Later p₂ p₃ := Moves.mapM (startTask_later executor outside) _ _ _ _ h.started
  have hf₅ := hfree.of_later hl₅
  have hf₃ := hf₅.of_later (trans_of Later hl₃ hl₄)
  have hfirst₀ : FirstPermits state state [] := fun q hq => .inl hq
  obtain ⟨s₂, hprep₂, htasks, hreserved, hfirst₂⟩ := reserveAll_returns hw (.refl state) hfirst₀
    (by simpa using h.nodup) h.reserved (hf₃.of_later hl₂)
  obtain ⟨s₃, hprep₃, hids₃, hprepared, hall₃⟩ := startAll_returns hprep₂.working
    hprep₂.extends_state hreserved h.started hf₃
  obtain ⟨⟨new, hp₄, _⟩, hran⟩ := runAll_returns h.effects
  subst hp₄
  have he₃ : Extends state s₃ := hprep₂.extends_state.trans hprep₃.extends_state
  have hfirsts₃ : ∀ task ∈ DurableBoundedExecutor.orderedTasks tasks,
      attemptPermit task.taskId 0 ∈ permitIds s₃ := by
    intro task htask
    rw [← htasks] at htask
    obtain ⟨x, hx, rfl⟩ := List.mem_map.1 htask
    refine hprep₃.extends_state.keeps.permitIds ?_
    cases hflag : x.2 with
    | true => exact hprep₂.extends_state.keeps.permitIds ((hreserved x hx).replayed hflag)
    | false =>
      obtain ⟨_, _, ho⟩ := (hreserved x hx).fresh hflag
      exact ho.mem_permitIds
  have hrantasks : ran.map (·.1) = DurableBoundedExecutor.orderedTasks tasks := by
    rw [← htasks, ← hprepared]
    exact (forall₂_map_eq (hran.imp fun _ _ hxy => hxy.1)).symm
  -- every task that ran is one that was prepared
  have hsource : ∀ x ∈ ran, ∃ w, RanTask w x.2 ∧ PreparedTask state p₃ s₃ x.1 w := by
    intro x hx
    obtain ⟨w, hw', hxw, hr⟩ := exists_of_forall₂ hran.flip hx
    exact ⟨w.2, hr, hxw ▸ hall₃ w hw'⟩
  have hready : ∀ x ∈ ran, Ready state { p₃ with effects := p₃.effects ++ new } s₃ x := by
    intro x hx result hright
    obtain ⟨w, hr, hprep⟩ := hsource x hx
    rw [hright] at hr
    cases hr with
    | ran =>
      cases hprep with
      | started fresh opened =>
        refine ⟨fun q hq => ?_, fresh, _, opened.ran⟩
        rcases hfirst₂ q (hids₃ hq) with hq | ⟨u, _, _, rfl⟩
        · exact .inl hq
        · exact .inr ⟨u.taskId, 0, rfl, fun _ => Nat.zero_lt_one⟩
  have hrannodup : (ran.map (·.1.taskId)).Nodup := by
    have hmap : ran.map (·.1.taskId) = (ran.map (·.1)).map (·.taskId) := by
      rw [List.map_map]; rfl
    rw [hmap, hrantasks]
    exact h.nodup
  obtain ⟨s₅, hset⟩ := settleAll_returns hw.consistent hprep₃.working.ran he₃ hready hrannodup
    h.settled hf₅
  obtain ⟨rfl, rfl⟩ := storeLoad_current hset.working h.reloaded
  have he₅ : Extends s₃ final := hset.extends_state
  have htasks₅ : out.map (·.1) = DurableBoundedExecutor.orderedTasks tasks := by
    rw [← hrantasks]
    exact (forall₂_map_eq (hset.tasks.imp fun _ _ hxy => hxy.1)).symm
  refine ⟨hset.working.turned.working, he₃.trans he₅, htasks₅, h.nodup, fun task htask => ?_,
    fun task htask => he₅.keeps.permitIds (hfirsts₃ task htask), fun y hy => ?_, fun q hq => ?_,
    fun c hc => ?_⟩
  · rw [← htasks] at htask
    obtain ⟨x, hx, rfl⟩ := List.mem_map.1 htask
    exact (hprep₃.extends_state.trans he₅).recorded _ (hreserved x hx).recorded
  · obtain ⟨x, hx, hyx, hinl, hinr⟩ := exists_of_forall₂ hset.tasks.flip hy
    obtain ⟨w, hr, hprep⟩ := hsource x hx
    rw [hyx]
    cases hright : x.2 with
    | inl attempts =>
      rw [hright] at hr
      cases hr with
      | replayed =>
        cases hprep with
        | replayed old consistent after keeps ids readback =>
          rw [hinl attempts hright]
          exact .replayed old consistent (after.trans he₅) keeps
            (fun u hu => ids (hfirsts₃ u hu)) readback
    | inr result =>
      obtain ⟨hne, cs, hcs, hfrom⟩ := hinr result hright
      exact .fresh hne hcs hfrom
  · rcases hset.ids q hq with hq | hq
    · rcases hfirst₂ q (hids₃ hq) with hq | ⟨u, hu, hfresh, rfl⟩
      · exact .inl hq
      · -- a fresh first permit is the first attempt of its task
        rw [List.nil_append, ← htasks₅] at hu
        obtain ⟨y, hy, rfl⟩ := List.mem_map.1 hu
        obtain ⟨x, hx, hyx, hinl, hinr⟩ := exists_of_forall₂ hset.tasks.flip hy
        obtain ⟨w, hr, hprep⟩ := hsource x hx
        refine .inr ⟨y, hy, hfresh, 0, ?_, rfl⟩
        cases hright : x.2 with
        | inl attempts =>
          rw [hright] at hr
          cases hr with
          | replayed =>
            cases hprep with
            | replayed old => exact absurd old (hyx ▸ hfresh)
        | inr result => exact List.length_pos_of_ne_nil (hinr result hright).1
    · exact .inr hq
  · rcases hset.settlements c hc with hc | hc
    · have hnone : settles p₃.log = [] := by
        rw [hprep₃.settlements, hprep₂.settlements, hlog]
        rfl
      rw [hnone] at hc
      cases hc
    · exact hc

end

end PokerDeliberation.Budgets
