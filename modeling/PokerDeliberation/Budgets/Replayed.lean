import PokerDeliberation.Budgets.Exactness

/-!
# The second call

A second call finds every reservation recorded, so none of its tasks is
started: the state stays as the first call left it, and each record is read
back. `replayed_execution_iff` says when the records are those of the first call.
-/

namespace PokerDeliberation.Budgets

open Lib

/-! ## The second call meets nothing unforeseen -/

/-- The storage answers, and the clock does not run back. -/
structure Undisturbed (outside : Outside) (clock : ClockTable) : Prop where
  loads : ∀ n, (outside.environment n).loadFault = none
  reads : ∃ reading : Nat → Nat, Monotone reading ∧
    (∀ n, (outside.environment n).clock = some (reading n : Int)) ∧
    clock.rollbackReference.getD 0 ≤ reading 0

section

variable {executor : DurableBoundedExecutor} {outside : Outside} {reading : Nat → Nat}
variable {p p' : Progress} {s : DurableBudgetStateV1}
variable {tasks : List DurableExecutionTask} {task : DurableExecutionTask}

/-! ## The clock -/

theorem observeMonotonic_later {t : ClockTable} {n : Nat} (h : t.rollbackReference.getD 0 ≤ n)
    (operationId : String) :
    ∃ elapsed, t.observeMonotonic (some (n : Int)) operationId =
      .ok (n, elapsed, { t with pending := some n }) := by
  refine ⟨n - t.last.getD n, bind_eq_ok.2 ⟨(), ensure_eq_ok.2 (Int.natCast_nonneg n), ?_⟩⟩
  exact bind_eq_ok.2 ⟨(), ensure_eq_ok.2 h, rfl⟩

/-- Once a replay has been answered, the clock stands at the reading. -/
theorem replayed_reference {t : ClockTable} {n : Nat} (h : t.rollbackReference.getD 0 ≤ n) :
    ({ t with pending := some n } : ClockTable).replayed.rollbackReference = some n := by
  unfold ClockTable.replayed
  by_cases hdue : t.last = none ∨ t.reconciliationRequired = true
  · rw [if_pos hdue]
    rfl
  · rw [if_neg hdue]
    cases hlast : t.last with
    | none => exact absurd (.inl hlast) hdue
    | some l =>
      have hl : l ≤ n := by
        refine le_trans ?_ h
        cases hp : t.pending <;> simp [ClockTable.rollbackReference, hlast, hp]
      simp [ClockTable.rollbackReference, max_eq_right hl]

/-! ## Waiting for the next call -/

/-- Between two calls of a replay: `s` is current and nothing has been run. -/
structure Waiting (executor : DurableBoundedExecutor) (reading : Nat → Nat)
    (s : DurableBudgetStateV1) (p : Progress) : Prop where
  loaded : load executor.sha256 executor.runId p.store.revisions none = .ok s
  effects : p.effects = []
  behind : p.store.clock.rollbackReference.getD 0 ≤ reading p.turn

theorem Waiting.turned (hw : Waiting executor reading s p) (hmono : Monotone reading) (n : Nat) :
    Waiting executor reading s { p with turn := p.turn + n } :=
  ⟨hw.loaded, hw.effects, hw.behind.trans (hmono (Nat.le_add_right _ _))⟩

theorem Waiting.storeLoad (hw : Waiting executor reading s p)
    (hloads : ∀ n, (outside.environment n).loadFault = none) :
    Returns (executor.storeLoad outside) p s { p with turn := p.turn + 1 } := by
  unfold Returns DurableBoundedExecutor.storeLoad
  simp only [hloads, hw.loaded]

/-- A recorded mutation is answered as a replay. -/
theorem mutate_recorded {store : DurableBudgetStore} {m : Mutation} {env : Environment} {n : Nat}
    (hload : load executor.sha256 executor.runId store.revisions none = .ok s)
    (hrecorded : Recorded s m) (hcheck : m.precheck = .ok ()) (hfault : env.loadFault = none)
    (hclock : env.clock = some (n : Int)) (hlater : store.clock.rollbackReference.getD 0 ≤ n) :
    ∃ r, r.status = .exactReplay ∧ r.state = s ∧
      store.mutate executor.sha256 executor.runId m env =
        ({ store with clock := ({ store.clock with pending := some n } : ClockTable).replayed },
          .ok r) := by
  obtain ⟨replay, hexisting, hstatus, hstate⟩ := hrecorded.existing
  obtain ⟨elapsed, hobserve⟩ := observeMonotonic_later hlater m.operationId
  refine ⟨replay, hstatus, hstate, ?_⟩
  have hfound : (m.precheck >>= fun _ => existingOperation s m) = .ok (some replay) :=
    bind_eq_ok.2 ⟨(), hcheck, hexisting⟩
  unfold DurableBudgetStore.mutate
  rw [hclock, hobserve]
  simp only [hfault, hload, hfound]

variable (hmono : Monotone reading) (hloads : ∀ n, (outside.environment n).loadFault = none)
variable (hreads : ∀ n, (outside.environment n).clock = some (reading n : Int))
include hmono hloads hreads

/-- A call that has been recorded changes nothing but the clock. -/
theorem Waiting.storeCall {c : Call} (hw : Waiting executor reading s p) (hc : c.isCreate = false)
    (hrecorded : Recorded s (c.mutation executor.sha256 executor.runId))
    (hcheck : (c.mutation executor.sha256 executor.runId).precheck = .ok ()) :
    ∃ r p', Returns (executor.storeCall outside c) p r p' ∧ Waiting executor reading s p' ∧
      r.status = .exactReplay ∧ r.state = s := by
  obtain ⟨r, hstatus, hstate, hmutate⟩ := mutate_recorded hw.loaded hrecorded hcheck
    (hloads p.turn) (hreads p.turn) hw.behind
  rw [← call_eq_mutate p.store _ hc] at hmutate
  let clock : ClockTable := { p.store.clock with pending := some (reading p.turn) }
  refine ⟨r, { p with
    store := { p.store with clock := clock.replayed }, turn := p.turn + 1
    log := p.log ++ [(c, (outside.environment p.turn).clock.getD 0)] }, ?_, ?_, hstatus, hstate⟩
  · unfold Returns DurableBoundedExecutor.storeCall
    simp only [hmutate, clock]
  · refine ⟨hw.loaded, hw.effects, ?_⟩
    show clock.replayed.rollbackReference.getD 0 ≤ reading (p.turn + 1)
    rw [replayed_reference hw.behind]
    exact hmono (Nat.le_succ _)

/-- The reservation of a task that has been reserved and settled before. -/
theorem Waiting.reserveTask (hw : Waiting executor reading s p)
    (hrecorded : Recorded s (firstReservation executor task))
    (hidle : attemptPermit task.taskId 0 ∉ s.activePermits.map (·.permitId)) :
    ∃ p', Returns (executor.reserveTask outside task) p (false, true) p' ∧
      Waiting executor reading s p' := by
  obtain ⟨r, p', hcall, hw', hstatus, rfl⟩ := hw.storeCall hmono hloads hreads
    (show (Call.reserve (attemptReserve task.taskId 0) (attemptPermit task.taskId 0)
      task.reservation task.lineage none none).isCreate = false from rfl) hrecorded rfl
  refine ⟨p', ?_, hw'⟩
  unfold DurableBoundedExecutor.reserveTask
  refine returns_bind.2 ⟨r, p', hcall, ?_⟩
  have hreplay : decide (r.status = .exactReplay) = true := decide_eq_true hstatus
  simp only [decide_eq_false hidle, hreplay]
  exact returns_bind.2 ⟨(), p', returns_lift.2 ⟨ensure_eq_ok.2 (by simp), rfl⟩, returns_pure.2 ⟨rfl, rfl⟩⟩

theorem Waiting.reserveAll (hw : Waiting executor reading s p) (reserved : List DurableExecutionTask)
    (hrecorded : ∀ task ∈ tasks, Recorded s (firstReservation executor task))
    (hidle : ∀ task ∈ tasks, attemptPermit task.taskId 0 ∉ s.activePermits.map (·.permitId)) :
    ∃ p', Returns (executor.reserveAll outside reserved tasks) p (tasks.map (·, true)) p' ∧
      Waiting executor reading s p' := by
  induction tasks generalizing p with
  | nil => exact ⟨p, returns_pure.2 ⟨rfl, rfl⟩, hw⟩
  | cons task rest ih =>
    obtain ⟨hr, hrs⟩ := List.forall_mem_cons.1 hrecorded
    obtain ⟨hi, his⟩ := List.forall_mem_cons.1 hidle
    obtain ⟨p₁, hfirst, hw₁⟩ := hw.reserveTask hmono hloads hreads hr hi
    obtain ⟨p₂, hothers, hw₂⟩ := ih hw₁ hrs his
    refine ⟨p₂, ?_, hw₂⟩
    unfold DurableBoundedExecutor.reserveAll
    refine returns_bind.2 ⟨_, p₁, returns_onRaise.2 hfirst, ?_⟩
    exact returns_bind.2 ⟨_, p₂, hothers, returns_pure.2 ⟨rfl, rfl⟩⟩

omit hmono hreads

/-- A task whose reservation is answered as a replay is read back, not started. -/
theorem Waiting.startTask (hw : Waiting executor reading s p)
    {x : DurableExecutionTask × Option (List ExecutionAttemptResultV1)}
    (hfirst : attemptPermit task.taskId 0 ∈ permitIds s) :
    Returns (executor.startTask outside (task, true)) p x p' ↔
      (∃ attempts, replayedAttempts task.taskId s = .ok (some attempts) ∧
        x = (task, some attempts)) ∧ p' = { p with turn := p.turn + 1 } := by
  have hload := hw.storeLoad hloads
  unfold DurableBoundedExecutor.startTask DurableBoundedExecutor.replayTask
  simp only [if_true, returns_bind, returns_lift]
  constructor
  · rintro ⟨found, p₁, ⟨state, p₂, hstate, hread, rfl⟩, h⟩
    obtain ⟨rfl, rfl⟩ := hload.unique hstate
    cases found with
    | none =>
      exact absurd (family_of_replayedAttempts_none hread)
        (mem_family_of_permitIds hfirst inFamily_attemptPermit)
    | some attempts =>
      obtain ⟨rfl, rfl⟩ := returns_pure.1 h
      exact ⟨⟨attempts, hread, rfl⟩, rfl⟩
  · rintro ⟨⟨attempts, hread, rfl⟩, rfl⟩
    exact ⟨some attempts, _, ⟨s, _, hload, hread, rfl⟩, returns_pure.2 ⟨rfl, rfl⟩⟩

include hmono

/-- All tasks are prepared exactly when all their records can be read back. -/
theorem Waiting.startAll (hw : Waiting executor reading s p)
    {prepared : List (DurableExecutionTask × Option (List ExecutionAttemptResultV1))}
    (hfirst : ∀ task ∈ tasks, attemptPermit task.taskId 0 ∈ permitIds s) :
    Returns ((tasks.map (·, true)).mapM (executor.startTask outside)) p prepared p' ↔
      (∃ out : List (DurableExecutionTask × List ExecutionAttemptResultV1), out.map (·.1) = tasks ∧
        (∀ y ∈ out, replayedAttempts y.1.taskId s = .ok (some y.2)) ∧
        prepared = out.map fun y => (y.1, some y.2)) ∧ p' = { p with turn := p.turn + tasks.length } := by
  induction tasks generalizing p prepared with
  | nil =>
    simp only [List.map_nil, returns_mapM_nil, List.map_eq_nil_iff]
    constructor
    · rintro ⟨rfl, rfl⟩
      exact ⟨⟨[], rfl, by simp, rfl⟩, rfl⟩
    · rintro ⟨⟨_, rfl, _, rfl⟩, rfl⟩
      exact ⟨rfl, rfl⟩
  | cons task rest ih =>
    obtain ⟨hf, hfs⟩ := List.forall_mem_cons.1 hfirst
    have hlength : p.turn + (task :: rest).length = p.turn + 1 + rest.length := by
      rw [List.length_cons]; omega
    simp only [List.map_cons, returns_mapM_cons, hlength]
    constructor
    · rintro ⟨x, xs, p₁, rfl, hx, hxs⟩
      obtain ⟨⟨attempts, hread, rfl⟩, rfl⟩ := (hw.startTask hloads hf).1 hx
      obtain ⟨⟨out, rfl, hreads, rfl⟩, rfl⟩ := (ih (hw.turned hmono 1) hfs).1 hxs
      exact ⟨⟨(task, attempts) :: out, rfl, List.forall_mem_cons.2 ⟨hread, hreads⟩, rfl⟩, rfl⟩
    · rintro ⟨⟨out, hout, hreads, rfl⟩, rfl⟩
      obtain ⟨y, ys, rfl⟩ : ∃ y ys, out = y :: ys := by
        cases out with
        | nil => cases hout
        | cons y ys => exact ⟨y, ys, rfl⟩
      rw [List.map_cons, List.cons.injEq] at hout
      obtain ⟨rfl, hout⟩ := hout
      obtain ⟨hread, hreads⟩ := List.forall_mem_cons.1 hreads
      exact ⟨(y.1, some y.2), _, _, rfl, (hw.startTask hloads hf).2 ⟨⟨y.2, hread, rfl⟩, rfl⟩,
        (ih (hw.turned hmono 1) hfs).2 ⟨⟨ys, hout, hreads, rfl⟩, rfl⟩⟩

end

/-! ## The whole second call -/

section

variable {executor : DurableBoundedExecutor} {outside : Outside} {maxWorkers : Option Int}
variable {tasks : List DurableExecutionTask} {result : DurableExecutionResultV1} {p p' : Progress}
variable {out : List (DurableExecutionTask × List ExecutionAttemptResultV1)}

/-- Read-back tasks run no effect. -/
theorem runAll_replayed
    {ran : List (DurableExecutionTask × (List ExecutionAttemptResultV1 ⊕ EffectResultV1))} :
    Returns ((out.map fun y => (y.1, some y.2)).mapM (executor.runTask outside)) p ran p' ↔
      ran = out.map (fun y => (y.1, .inl y.2)) ∧ p = p' := by
  have hpure : (out.map fun y => (y.1, some y.2)).mapM (executor.runTask outside) =
      pure (out.map fun y => (y.1, .inl y.2)) := by
    rw [List.mapM_map]
    exact List.mapM_pure
  rw [hpure, returns_pure]
  exact and_congr_left' eq_comm

/-- Read-back tasks have nothing to settle. -/
theorem settleAll_replayed {most : Nat}
    {settled : List (DurableExecutionTask × List ExecutionAttemptResultV1)} :
    Returns ((out.map fun y => (y.1, .inl y.2)).mapM (executor.settleTask outside most)) p settled
        p' ↔ settled = out ∧ p = p' := by
  have hpure : (out.map fun y => (y.1, .inl y.2)).mapM (executor.settleTask outside most) =
      pure out := by
    rw [List.mapM_map]
    have hid : out = out.map id := by simp
    conv_rhs => rw [hid]
    exact List.mapM_pure
  rw [hpure, returns_pure]
  exact and_congr_left' eq_comm

theorem executionRecord_ok {task : DurableExecutionTask} {attempts : List ExecutionAttemptResultV1}
    {record : DurableExecutionRecordV1} (h : executionRecord task attempts = .ok record) :
    record.attempts = attempts ∧ record.executionOrdinal = task.executionOrdinal := by
  unfold executionRecord at h
  split at h
  · cases h
  · simp only [bind_eq_ok, pure_eq_ok] at h
    obtain ⟨_, _, rfl⟩ := h
    exact ⟨rfl, rfl⟩

/-- Records tell the attempts they were made of. -/
theorem records_injective {out' : List (DurableExecutionTask × List ExecutionAttemptResultV1)}
    {records : List DurableExecutionRecordV1}
    (h : out.mapM (fun x => executionRecord x.1 x.2) = .ok records)
    (h' : out'.mapM (fun x => executionRecord x.1 x.2) = .ok records)
    (htasks : out.map (·.1) = out'.map (·.1)) : out = out' := by
  rw [mapM_eq_ok] at h h'
  induction h generalizing out' with
  | nil => exact (List.map_eq_nil_iff.1 htasks.symm).symm
  | @cons x record xs records hx _ ih =>
    obtain ⟨y, ys, rfl⟩ : ∃ y ys, out' = y :: ys := by
      cases out' with
      | nil => cases htasks
      | cons y ys => exact ⟨y, ys, rfl⟩
    rw [List.map_cons, List.map_cons, List.cons.injEq] at htasks
    obtain ⟨hy, hys⟩ := List.forall₂_cons.1 h'
    have hattempts : x.2 = y.2 := (executionRecord_ok hx).1.symm.trans (executionRecord_ok hy).1
    rw [Prod.ext htasks.1 hattempts, ih hys htasks.2]

/-- The first permit of a completed task is settled. -/
theorem Completed.settled_first {made : List Call} {s₀ s : DurableBudgetStateV1}
    (hc : Completed executor made p s₀ s tasks out) {task : DurableExecutionTask}
    (htask : task ∈ tasks) : attemptPermit task.taskId 0 ∈ settledIds s := by
  rw [← hc.tasks_eq] at htask
  obtain ⟨y, hy, rfl⟩ := List.mem_map.1 htask
  have hcompleted := hc.completed y hy
  cases hcompleted with
  | fresh nonempty _ settled =>
    obtain ⟨_, c, _, hset⟩ := settled.get (List.length_pos_of_ne_nil nonempty)
    exact hset.mem_settledIds
  | @replayed mid old _ after keeps _ readback =>
    obtain ⟨_, as, harr⟩ := replayedAttempts_iff.1 readback
    obtain ⟨a, ha, hid⟩ := List.mem_map.1 (keeps old)
    have hfamily : a ∈ family y.1.taskId mid :=
      mem_family.2 ⟨ha, by rw [hid]; exact inFamily_attemptPermit⟩
    obtain ⟨j, hj, hja⟩ := List.mem_iff_getElem.1 (harr.perm.symm.subset hfamily)
    obtain ⟨_, hreport⟩ := harr.report j hj
    have hset := replayedAttempt_settled hreport
    rw [hja, hid] at hset
    exact after.keeps.settledIds hset

theorem Completed.idle {made : List Call} {s₀ s : DurableBudgetStateV1}
    (hc : Completed executor made p s₀ s tasks out) {task : DurableExecutionTask}
    (htask : task ∈ tasks) : attemptPermit task.taskId 0 ∉ s.activePermits.map (·.permitId) := by
  intro hactive
  obtain ⟨permit, hpermit, hid⟩ := List.mem_map.1 hactive
  exact hc.working.consistent.apart permit hpermit (hid ▸ hc.settled_first htask)

/-- What the second call returns when every record is read back. -/
def replayedResult (records : List DurableExecutionRecordV1) (s : DurableBudgetStateV1)
    (evidence : List RM028IsolationEvidenceV1) (n : Nat) : DurableExecutionResultV1 :=
  { records, peakConcurrency := min s.usage.peakConcurrency n, isolationEvidence := evidence }

theorem replayedResult_check {s : DurableBudgetStateV1} (hs : Consistent s)
    (h : result.check = .ok ()) (n : Nat) :
    (replayedResult result.records s result.isolationEvidence n).check = .ok () := by
  unfold DurableExecutionResultV1.check at h ⊢
  simp only [bind_eq_ok, require_eq_ok, exists_const] at h ⊢
  exact ⟨(min_le_left _ _).trans hs.peak, h.2⟩

section Again

variable {made : List Call} {p₀ p₁ p₂ p₃ p₄ p₅ : Progress} {s₀ s : DurableBudgetStateV1}
variable {candidates : List (DurableExecutionTask × Bool)}
variable {prepared : List (DurableExecutionTask × Option (List ExecutionAttemptResultV1))}
variable {ran : List (DurableExecutionTask × (List ExecutionAttemptResultV1 ⊕ EffectResultV1))}
variable {outside' : Outside} {again : DurableBudgetStore} {reading : Nat → Nat}

/-- On what a call has left, a second one reads all records back or raises. -/
theorem Completed.again_iff (hne : tasks ≠ [])
    (hc : Completed executor made p s₀ s (DurableBoundedExecutor.orderedTasks tasks) out)
    (h : Phases executor outside maxWorkers tasks p₀ p result s₀ s candidates prepared ran out
      p₁ p₂ p₃ p₄ p₅)
    (hagain : again.revisions = p.store.revisions) (hquiet : Undisturbed outside' again.clock) :
    (∃ result' p', Returns (executor.execute outside' maxWorkers tasks) { store := again } result' p' ∧
        result'.records = result.records ∧ p'.effects = []) ↔
      ∀ y ∈ out, replayedAttempts y.1.taskId s = .ok (some y.2) := by
  obtain ⟨reading, hmono, hreads, hbehind⟩ := hquiet.reads
  obtain ⟨hload, _, rfl⟩ := storeLoad_returns executor outside h.reloaded
  have hw₀ : Waiting executor reading s { store := again } :=
    ⟨by rw [hagain]; exact hload, rfl, hbehind⟩
  have hfirst := hw₀.storeLoad hquiet.loads
  obtain ⟨q₂, hreserved, hw₂⟩ := (hw₀.turned hmono 1).reserveAll hmono hquiet.loads hreads []
    hc.recorded fun task htask => hc.idle htask
  have hstarted := fun xs q =>
    @Waiting.startAll _ _ _ _ q _ _ hmono hquiet.loads hw₂ xs hc.firsts
  constructor
  · rintro ⟨result', p', hsecond, hrecords, _⟩
    obtain ⟨_, _, _, _, _, out', q₁, _, q₃, q₄, q₅, h'⟩ := (execute_returns hne).1 hsecond
    obtain ⟨rfl, rfl⟩ := hfirst.unique h'.loaded
    obtain ⟨rfl, rfl⟩ := hreserved.unique h'.reserved
    obtain ⟨⟨back, hback, hall, rfl⟩, rfl⟩ := (hstarted _ _).1 h'.started
    obtain ⟨rfl, rfl⟩ := runAll_replayed.1 h'.effects
    obtain ⟨rfl, rfl⟩ := settleAll_replayed.1 h'.settled
    have heq : out = out' := records_injective h.records (hrecords ▸ h'.records)
      (hc.tasks_eq.trans hback.symm)
    rw [heq]
    exact hall
  · intro hall
    have hall' : (out.map fun y => (y.1, some y.2)).filter (·.2.isSome) =
        out.map fun y => (y.1, some y.2) := by
      refine List.filter_eq_self.2 fun x hx => ?_
      obtain ⟨y, _, rfl⟩ := List.mem_map.1 hx
      rfl
    have hw₃ := hw₂.turned hmono (DurableBoundedExecutor.orderedTasks tasks).length
    refine ⟨replayedResult result.records s result.isolationEvidence out.length, _,
      (execute_returns hne).2 ⟨s, s, _, _, _, out, _, _, _, _, _, h.nodup, h.ordinals, hfirst, ?_,
        h.isolated, hreserved, (hstarted _ _).2 ⟨⟨out, hc.tasks_eq, hall, rfl⟩, rfl⟩,
        runAll_replayed.2 ⟨rfl, rfl⟩, settleAll_replayed.2 ⟨rfl, rfl⟩, h.records,
        hw₃.storeLoad hquiet.loads, ?_, replayedResult_check hc.working.consistent h.check _⟩,
      rfl, hw₃.effects⟩
    · unfold DurableBoundedExecutor.admitsWorkers
      rw [hc.extends_state.policy]
      exact h.workers
    · rw [hall', if_pos rfl, List.length_map, Nat.zero_max]
      rfl

end Again

/-! ## Replayed execution -/

/-- The permits of the run as it stands. -/
def DurableBudgetStore.permitIds (store : DurableBudgetStore) : List String :=
  store.revisions.head?.elim [] fun current => Budgets.permitIds current.state

theorem replaysExactly_ordered {ids : List String} {log : List TimedCall} :
    ReplaysExactly ids (DurableBoundedExecutor.orderedTasks tasks) log ↔ ReplaysExactly ids tasks log := by
  have hmem : ∀ task, task ∈ DurableBoundedExecutor.orderedTasks tasks ↔ task ∈ tasks :=
    fun task => (List.perm_insertionSort _ tasks).mem_iff
  constructor
  · refine fun h => ⟨fun task htask hfresh => ?_, h.within⟩
    have hd := h.distinguished task ((hmem task).2 htask) hfresh
    exact ⟨hd.ids, fun u hu => hd.tasks u ((hmem u).2 hu)⟩
  · refine fun h => ⟨fun task htask hfresh => ?_, h.within⟩
    have hd := h.distinguished task ((hmem task).1 htask) hfresh
    exact ⟨hd.ids, fun u hu => hd.tasks u ((hmem u).1 hu)⟩

theorem execute_nil : executor.execute outside maxWorkers [] =
    pure { records := [], peakConcurrency := 0 } := rfl

end

/-- Executing the tasks of a completed execution again returns its records, and
runs no effect, exactly when nothing overran and their permits are told apart. -/
theorem replayed_execution_iff (executor : DurableBoundedExecutor) (actions : List Action)
    (outside outside' : Outside) (maxWorkers : Option Int) (tasks : List DurableExecutionTask)
    (result : DurableExecutionResultV1) (done : Progress) (again : DurableBudgetStore)
    (hcompletes : Returns (executor.execute outside maxWorkers tasks)
      { store := run executor.sha256 executor.runId actions } result done)
    (hfree : CollisionFree executor.sha256 executor.runId (actionCalls actions ++ done.calls))
    (hagain : again.revisions = done.store.revisions) (hquiet : Undisturbed outside' again.clock) :
    (∃ result' done', Returns (executor.execute outside' maxWorkers tasks) { store := again } result'
        done' ∧ result'.records = result.records ∧ done'.effects = []) ↔
      ReplaysExactly (run executor.sha256 executor.runId actions).permitIds tasks done.log := by
  by_cases hne : tasks = []
  · subst hne
    rw [execute_nil, returns_pure] at hcompletes
    obtain ⟨rfl, rfl⟩ := hcompletes
    constructor
    · intro _
      exact ⟨by simp, by simp [settles]⟩
    · intro _
      exact ⟨_, _, by rw [execute_nil]; exact returns_pure.2 ⟨rfl, rfl⟩, rfl, rfl⟩
  · obtain ⟨s₀, s, _, _, _, out, p₁, _, _, _, _, h⟩ := (execute_returns hne).1 hcompletes
    obtain ⟨hload, _, rfl⟩ := storeLoad_returns executor outside h.loaded
    obtain ⟨_, _, rest, hrevisions⟩ := load_ok hload
    have hids : (run executor.sha256 executor.runId actions).permitIds = permitIds s₀ := by
      unfold DurableBudgetStore.permitIds
      rw [hrevisions]
      rfl
    have hc := h.completed (working_run hload _) rfl hfree
    rw [hc.again_iff hne h hagain hquiet, readback_iff hc, replaysExactly_ordered, hids]

/-! ### A run of one task -/

instance (log : List TimedCall) (a : SettleArgs) (n : Int) : Decidable (Overran log a n) :=
  decidable_of_iff (a.status ≠ .failed ∧ ∃ x ∈ reservedAt log a.permitId,
      (exceededResource x.1.requested (settledActual a.actual (n - x.2).toNat)).isSome = true) <| by
    unfold Overran
    simp

def sampleTask : DurableExecutionTask where
  taskId := "task-1"
  executionOrdinal := 0
  reservation := sampleReservation
  lineage := sampleLineage
  id_length := by decide +kernel
  ordinals := rfl

def sampleExecutor : DurableBoundedExecutor where
  sha256 := taggedDigest
  constantEvidence _ := sampleEvidence
  requirementSha256 _ := sampleEvidence
  runId := "run-1"

/-- An effect that succeeds with `n` attempts of its tool. -/
def toolResult (n : Nat) : EffectResultV1 :=
  { status := .succeeded, actual := { toolAttempts := n, concurrencySlots := 1 }
    resultSha256 := some sampleEvidence, effectEvidenceSha256 := some sampleEvidence }

/-- The clock reads `start` at first, and every effect returns `result`. -/
def reporting (result : EffectResultV1) (start : Nat) : Outside where
  environment k := { clock := some ((start + k : Nat) : Int) }
  effect _ _ := some result
  retryContext _ _ _ := none
  peak := 1

/-- The first call, of an effect that used `n` attempts of its tool. -/
def sampleFirst (n : Nat) : Except StoreError DurableExecutionResultV1 × Progress :=
  sampleExecutor.execute (reporting (toolResult n) 11) none [sampleTask]
    { store := run taggedDigest "run-1" sampleCreation }

/-- The second call. -/
def sampleSecond (n : Nat) : Except StoreError DurableExecutionResultV1 × Progress :=
  sampleExecutor.execute (reporting (toolResult n) 30) none [sampleTask]
    { store := (sampleFirst n).2.store }

theorem reporting_undisturbed {result : EffectResultV1} {start : Nat} {clock : ClockTable}
    (h : clock.rollbackReference.getD 0 ≤ start) : Undisturbed (reporting result start) clock :=
  ⟨fun _ => rfl, fun k => start + k, fun _ _ hab => Nat.add_le_add_left hab start, fun _ => rfl, h⟩

theorem replayed_execution_iff_within : ∃ result, (sampleFirst 1).1 = .ok result ∧
    ∃ result' done', sampleSecond 1 = (.ok result', done') ∧ result'.records = result.records ∧
      done'.effects = [] := by
  obtain ⟨hok, hdistinct, hwithin, hclock⟩ : (sampleFirst 1).1.isOk = true ∧
      ((actionCalls sampleCreation ++ (sampleFirst 1).2.calls).map fun c =>
        taggedDigest (c.request "run-1")).Nodup ∧
      (∀ c ∈ settles (sampleFirst 1).2.log, ¬ Overran (sampleFirst 1).2.log c.1 c.2) ∧
      (sampleFirst 1).2.store.clock.rollbackReference.getD 0 ≤ 30 := by decide +kernel
  obtain ⟨result, hresult⟩ : ∃ result, (sampleFirst 1).1 = .ok result := by
    cases h : (sampleFirst 1).1 with
    | ok result => exact ⟨result, rfl⟩
    | error e => rw [h] at hok; cases hok
  have hfree : CollisionFree taggedDigest "run-1"
      (actionCalls sampleCreation ++ (sampleFirst 1).2.calls) :=
    fun c hc c' hc' heq => congrArg _ (List.inj_on_of_nodup_map hdistinct hc hc' heq)
  have hnew : (run taggedDigest "run-1" sampleCreation).permitIds = [] := by decide +kernel
  have hcompletes : Returns (sampleExecutor.execute (reporting (toolResult 1) 11) none [sampleTask])
      { store := run taggedDigest "run-1" sampleCreation } result (sampleFirst 1).2 :=
    returns_of_ok hresult
  have hexact : ReplaysExactly (run taggedDigest "run-1" sampleCreation).permitIds [sampleTask]
      (sampleFirst 1).2.log := by
    refine ⟨fun task htask _ => ⟨?_, fun u hu hne => ?_⟩, hwithin⟩
    · rw [hnew]
      simp
    · rw [List.mem_singleton.1 hu, List.mem_singleton.1 htask] at hne
      exact absurd rfl hne
  have hquiet := @reporting_undisturbed (toolResult 1) 30 (sampleFirst 1).2.store.clock hclock
  obtain ⟨result', done', hsecond, hrest⟩ := (replayed_execution_iff sampleExecutor sampleCreation
    (reporting (toolResult 1) 11) (reporting (toolResult 1) 30) none [sampleTask] result
    (sampleFirst 1).2 (sampleFirst 1).2.store hcompletes hfree rfl hquiet).2 hexact
  exact ⟨result, hresult, result', done', hsecond, hrest⟩

/-- An effect that succeeds with more than its reservation is read back as failed. -/
theorem overrun_replayed_as_failed :
    Undisturbed (reporting (toolResult 2) 30) (sampleFirst 2).2.store.clock ∧
    ∃ result result', (sampleFirst 2).1 = .ok result ∧ (sampleSecond 2).1 = .ok result' ∧
      result.records.map (·.finalStatus) = [.succeeded] ∧
      result'.records.map (·.finalStatus) = [.failed] := by
  obtain ⟨hclock, hfirst, hsecond⟩ : (sampleFirst 2).2.store.clock.rollbackReference.getD 0 ≤ 30 ∧
      ((sampleFirst 2).1.toOption.map fun r => r.records.map (·.finalStatus)) = some [.succeeded] ∧
      ((sampleSecond 2).1.toOption.map fun r => r.records.map (·.finalStatus)) = some [.failed] := by
    decide +kernel
  refine ⟨reporting_undisturbed hclock, ?_⟩
  cases h : (sampleFirst 2).1 with
  | error e => rw [h] at hfirst; cases hfirst
  | ok result =>
    cases h' : (sampleSecond 2).1 with
    | error e => rw [h'] at hsecond; cases hsecond
    | ok result' =>
      rw [h] at hfirst
      rw [h'] at hsecond
      exact ⟨result, result', rfl, rfl, Option.some.inj hfirst, Option.some.inj hsecond⟩

end PokerDeliberation.Budgets
