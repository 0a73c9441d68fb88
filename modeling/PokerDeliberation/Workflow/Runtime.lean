import PokerDeliberation.Workflow.Accounting

/-!
# The clock of the ledger

The ledger keeps the highest reading it has observed. An operation observes the
clock unless a failure is kept, it is refused before it reads, or it does not
read at all; `pause` and `resume` alone change whether the ledger is active. So
what `Op.counted` counts is the advance of the clock while the ledger is active.
-/

namespace PokerDeliberation.Workflow

open Lib Lib.Stateful
open Budgets (BudgetPolicyV2 ExecutionClass)

/-- The highest reading after one more: a reading that is lower, negative or none moves nothing. -/
def highWater (last : Nat) : ClockReading → Nat
  | .value now => max last now.toNat
  | _ => last

/-- The highest reading after an observation. -/
def SerialUsageLedger.observed (s : SerialUsageLedger) (reading : ClockReading) : Nat :=
  if s.clockFailure = none then highWater s.lastNs reading else s.lastNs

/-- The highest reading after an operation. -/
def Op.clock (s : SerialUsageLedger) : Op → Nat
  | .snapshot reading | .runtimeWindow reading | .apply _ reading | .preflight _ reading
  | .pause reading => s.observed reading
  | .applyAt _ observedAtNs => s.observed (observedAtNs.elim .notInteger .value)
  | .observeStorage .. => s.lastNs
  | .resume reading => highWater s.lastNs reading
  | .beginProviderAttempt executionClass estimate reading =>
    if (providerCost s.policy executionClass estimate).isOk then s.observed reading else s.lastNs

/-- Whether the ledger is active after an operation that ended so. -/
def Op.activity (s : SerialUsageLedger) (ok : Bool) : Op → Bool
  | .pause _ => if ok then false else s.active
  | .resume _ => if ok then true else s.active
  | _ => s.active

/-- Neither the highest reading nor the activity changes. -/
def SameClock (s t : SerialUsageLedger) : Prop := t.lastNs = s.lastNs ∧ t.active = s.active

instance : Std.Refl SameClock := ⟨fun _ => ⟨rfl, rfl⟩⟩

instance : IsTrans SerialUsageLedger SameClock :=
  ⟨fun _ _ _ h h' => ⟨h'.1.trans h.1, h'.2.trans h.2⟩⟩

variable {s t ledger : SerialUsageLedger} {now : Nat} {reading : ClockReading}
  {delta : UsageDelta} {effect : Option UsageDelta}

/-! ## Observations -/

/-- The state after `t` is reached from the observation of `reading` in `s`. -/
def ObservedAt (reading : ClockReading) (s t : SerialUsageLedger) : Prop :=
  t.lastNs = s.observed reading ∧ t.active = s.active

theorem observedAt_latched (h : s.clockFailure ≠ none) (hsame : SameClock s t) :
    ObservedAt reading s t :=
  ⟨hsame.1.trans (if_neg h).symm, hsame.2⟩

theorem observedAt_highWater (h : s.clockFailure = none) (hlast : t.lastNs = highWater s.lastNs reading)
    (hactive : t.active = s.active) : ObservedAt reading s t :=
  ⟨hlast.trans (if_pos h).symm, hactive⟩

theorem settle_observedAt (s : SerialUsageLedger) (now : Nat) (effect : Option UsageDelta) :
    ObservedAt (.value now) s (settleRuntimeObservation now effect s).2 := by
  rcases settle_cases s now effect with ⟨_, hlatched, hrun⟩ | ⟨_, hlatched, hlt, hrun⟩ |
    ⟨_, hlatched, hle, hrun⟩ | ⟨hlatched, hle, -, hrun⟩ <;> rw [hrun]
  · exact observedAt_latched (by simp [hlatched]) (refl_of SameClock s)
  · refine observedAt_highWater hlatched ?_ rfl
    simp only [highWater, Int.toNat_natCast]
    omega
  · refine observedAt_highWater hlatched ?_ rfl
    simp only [highWater, Int.toNat_natCast, SerialUsageLedger.settle]
    omega
  · refine observedAt_highWater hlatched ?_ rfl
    simp only [highWater, Int.toNat_natCast, SerialUsageLedger.settle]
    omega

/-- A reading that is refused moves the highest reading nowhere. -/
theorem highWater_of_error {failure : BudgetFailure} (h : readClock reading = .error failure)
    (last : Nat) : highWater last reading = last := by
  cases reading with
  | raised _ => rfl
  | notInteger => rfl
  | value n =>
    by_cases hnegative : n < 0
    · simp only [highWater]
      omega
    · simp [readClock, hnegative] at h

theorem eq_value_of_ok (h : readClock reading = .ok now) : reading = .value now := by
  cases reading with
  | raised _ => cases h
  | notInteger => cases h
  | value n =>
    by_cases hnegative : n < 0
    · simp [readClock, hnegative] at h
    · simp only [readClock, if_neg hnegative, Except.ok.injEq] at h
      rw [← h, Int.toNat_of_nonneg (by omega)]

theorem observeRuntime_observedAt (s : SerialUsageLedger) (reading : ClockReading) :
    ObservedAt reading s (observeRuntime reading s).2 := by
  cases hlatched : s.clockFailure with
  | some failure =>
    rw [observeRuntime, bind_of_error (checkLatch_latched hlatched)]
    exact observedAt_latched (by simp [hlatched]) (refl_of SameClock s)
  | none =>
    rw [observeRuntime, bind_of_ok (checkLatch_none hlatched)]
    cases hread : readClock reading with
    | error failure =>
      exact observedAt_highWater hlatched (highWater_of_error hread _).symm rfl
    | ok now =>
      rw [eq_value_of_ok hread]
      exact settle_observedAt s now none

/-- What follows an observation and leaves the clock. -/
theorem observedAt_bind {α : Type} {f : Unit → Proc α} (hf : ∀ u, Always SameClock (f u))
    (s : SerialUsageLedger) : ObservedAt reading s ((observeRuntime reading >>= f) s).2 := by
  have hobserved := observeRuntime_observedAt s reading
  rcases hrun : observeRuntime reading s with ⟨failure | u, t⟩ <;> rw [hrun] at hobserved
  · rw [bind_of_error hrun]
    exact hobserved
  · rw [bind_of_ok hrun]
    obtain ⟨hlast, hactive⟩ := hf u t
    exact ⟨hlast.trans hobserved.1, hactive.trans hobserved.2⟩

theorem candidate_observedAt (s : SerialUsageLedger) :
    ObservedAt reading s (candidate delta reading s).2 :=
  observedAt_bind (fun _ => always_read.bind fun _ => (always_lift _).bind fun _ => always_pure _) s

theorem apply_observedAt (s : SerialUsageLedger) :
    ObservedAt reading s (Workflow.apply delta reading s).2 := by
  have hobserved : ObservedAt reading s (candidate delta reading s).2 := candidate_observedAt s
  rcases hrun : candidate delta reading s with ⟨failure | u, t⟩ <;> rw [hrun] at hobserved
  · rw [Workflow.apply, bind_of_error hrun]
    exact hobserved
  · rw [Workflow.apply, bind_of_ok hrun]
    exact hobserved

/-! ## Operations -/

/-- What one operation does to the clock of the ledger. -/
structure Clocked (op : Op) (s : SerialUsageLedger)
    (result : Except BudgetFailure (Option BudgetSnapshot)) (t : SerialUsageLedger) : Prop where
  clock : t.lastNs = op.clock s
  active : t.active = op.activity s result.isOk

variable {op : Op} {ops more : List Op} {entry : Entry}

/-- An operation that observes the clock and leaves the activity. -/
theorem clocked_of_observedAt {α : Type} {x : Proc α} {f : α → Option BudgetSnapshot}
    (hrun : op.run = f <$> x) (hclock : op.clock s = s.observed reading)
    (hactivity : ∀ ok, op.activity s ok = s.active) (h : ObservedAt reading s (x s).2) :
    Clocked op s (op.run s).1 (op.run s).2 := by
  rw [hrun, map_run]
  exact ⟨h.1.trans hclock.symm, h.2.trans (hactivity _).symm⟩

theorem clocked_pause :
    Clocked (.pause reading) s ((Op.pause reading).run s).1 ((Op.pause reading).run s).2 := by
  have hmap : (Op.pause reading).run = some <$> Workflow.pause reading := rfl
  have hobserved := observeRuntime_observedAt s reading
  rw [hmap, map_run]
  rcases hrun : observeRuntime reading s with ⟨failure | u, t⟩ <;> rw [hrun] at hobserved
  · rw [Workflow.pause, bind_of_error hrun]
    exact ⟨hobserved.1, hobserved.2⟩
  · rw [Workflow.pause, bind_of_ok hrun]
    exact ⟨hobserved.1, rfl⟩

theorem clocked_resume :
    Clocked (.resume reading) s ((Op.resume reading).run s).1 ((Op.resume reading).run s).2 := by
  have hmap : (Op.resume reading).run = (fun _ => none) <$> Workflow.resume reading := rfl
  rw [hmap, map_run]
  cases hread : readClock reading with
  | error failure =>
    rw [Workflow.resume, bind_of_error (show lift (readClock reading) s = (.error failure, s) by
      rw [hread]; rfl)]
    exact ⟨(highWater_of_error hread s.lastNs).symm, rfl⟩
  | ok now =>
    rw [Workflow.resume, bind_of_ok (show lift (readClock reading) s = (.ok now, s) by
      rw [hread]; rfl), bind_of_ok (rfl : Stateful.read s = (.ok s, s))]
    have hclock : (Op.resume reading).clock s = max s.lastNs now := by
      rw [eq_value_of_ok hread]
      rfl
    by_cases hlt : now < s.lastNs
    · rw [if_pos hlt]
      exact ⟨by rw [hclock]; exact (Nat.max_eq_left hlt.le).symm, rfl⟩
    · rw [if_neg hlt]
      exact ⟨by rw [hclock]; exact (Nat.max_eq_right (Nat.not_lt.1 hlt)).symm, rfl⟩

theorem applyAt_observedAt (s : SerialUsageLedger) (delta : UsageDelta)
    (observedAtNs : Option Int) :
    ObservedAt (observedAtNs.elim .notInteger .value) s (Workflow.applyAt delta observedAtNs s).2 := by
  rcases applyAt_cases s delta observedAtNs with ⟨failure, hmalformed, hrun⟩ | ⟨now, rfl, hrun⟩
  · have hlast : highWater s.lastNs (observedAtNs.elim .notInteger .value) = s.lastNs := by
      cases observedAtNs with
      | none => rfl
      | some now =>
        have hnegative := hmalformed now rfl
        simp only [Option.elim, highWater]
        omega
    rw [hrun]
    by_cases hlatched : s.clockFailure = none
    · exact observedAt_highWater hlatched hlast.symm rfl
    · exact observedAt_latched hlatched ⟨rfl, rfl⟩
  · have hobserved := settle_observedAt s now (some delta)
    rw [hrun]
    rcases hsettle : settleRuntimeObservation now (some delta) s with ⟨failure | u, t⟩ <;>
      rw [hsettle] at hobserved
    · rw [bind_of_error hsettle]
      exact hobserved
    · rw [bind_of_ok hsettle]
      exact hobserved

theorem clocked_beginProviderAttempt {executionClass : ExecutionClass} {estimate : CostEstimate} :
    Clocked (.beginProviderAttempt executionClass estimate reading) s
      ((Op.beginProviderAttempt executionClass estimate reading).run s).1
      ((Op.beginProviderAttempt executionClass estimate reading).run s).2 := by
  have hmap : (Op.beginProviderAttempt executionClass estimate reading).run =
      some <$> Workflow.beginProviderAttempt executionClass estimate reading := rfl
  have hread : Workflow.beginProviderAttempt executionClass estimate reading s =
      (lift (providerCost s.policy executionClass estimate) >>= fun cost => Workflow.apply
        { providerAttempts := 1, externalCostMicroUsd := cost, peakConcurrency := 1 } reading) s :=
    rfl
  rw [hmap, map_run, hread]
  cases hcost : providerCost s.policy executionClass estimate with
  | error failure =>
    rw [bind_of_error (show lift _ s = (.error failure, s) from rfl)]
    have hclock : (Op.beginProviderAttempt executionClass estimate reading).clock s = s.lastNs := by
      simp [Op.clock, hcost, Except.isOk, Except.toBool]
    exact ⟨hclock.symm, rfl⟩
  | ok cost =>
    rw [bind_of_ok (show lift _ s = (.ok cost, s) from rfl)]
    have hclock : (Op.beginProviderAttempt executionClass estimate reading).clock s =
        s.observed reading := by
      simp [Op.clock, hcost, Except.isOk, Except.toBool]
    have hobserved : ObservedAt reading s (Workflow.apply
        { providerAttempts := 1, externalCostMicroUsd := cost, peakConcurrency := 1 } reading s).2 :=
      apply_observedAt s
    exact ⟨hobserved.1.trans hclock.symm, hobserved.2⟩

theorem clocked (op : Op) (s : SerialUsageLedger) : Clocked op s (op.run s).1 (op.run s).2 := by
  cases op with
  | snapshot reading =>
    exact clocked_of_observedAt rfl rfl (fun _ => rfl) (observedAt_bind (fun _ => fun _ => ⟨rfl, rfl⟩) s)
  | runtimeWindow reading =>
    exact clocked_of_observedAt rfl rfl (fun _ => rfl) (observedAt_bind (fun _ => fun _ => ⟨rfl, rfl⟩) s)
  | apply delta reading => exact clocked_of_observedAt rfl rfl (fun _ => rfl) (apply_observedAt s)
  | applyAt delta observedAtNs =>
    exact clocked_of_observedAt rfl rfl (fun _ => rfl) (applyAt_observedAt s delta observedAtNs)
  | preflight delta reading =>
    exact clocked_of_observedAt rfl rfl (fun _ => rfl) (candidate_observedAt s)
  | observeStorage artifactBytes runBytes =>
    have hmap : (Op.observeStorage artifactBytes runBytes).run =
        some <$> Workflow.observeStorage artifactBytes runBytes := rfl
    rw [hmap, map_run]
    rcases observeStorage_cases s artifactBytes runBytes with ⟨failure, hrun⟩ | ⟨u, -, -, hrun⟩ <;>
      rw [hrun] <;> exact ⟨rfl, rfl⟩
  | pause reading => exact clocked_pause
  | resume reading => exact clocked_resume
  | beginProviderAttempt executionClass estimate reading => exact clocked_beginProviderAttempt

theorem clocked_of_mem (h : entry ∈ trace ops s) :
    Clocked entry.op entry.before entry.result entry.after := by
  induction ops generalizing s with
  | nil => simp [trace] at h
  | cons op ops ih =>
    rcases List.mem_cons.1 h with rfl | h
    · exact clocked op s
    · exact ih h

/-! ## Runs of a new ledger -/

theorem create_eq_ok {policy : BudgetPolicyV2} {initial : BudgetSnapshot} {active : Bool}
    (h : SerialUsageLedger.create policy reading initial active = .ok ledger) :
    ledger.policy = policy ∧ ledger.snapshot = initial := by
  obtain ⟨lastNs, -, h⟩ := bind_eq_ok.1 h
  obtain ⟨_, -, h⟩ := bind_eq_ok.1 h
  cases h
  exact ⟨rfl, rfl⟩

/-- However the operations follow each other and whatever the clock returns: what they
return is within the limits; the runtime is the advance of the clock while the ledger was
active, up to what `resume` ended, and what recorded usage carried; usage refused before
its effect changes the runtime alone, and usage of an effect that is refused is recorded
as a whole or not at all; after a failure is kept, all that still changes is the storage
counters that `observe_storage` writes. -/
theorem ledger_accounts {policy : BudgetPolicyV2} {initial : BudgetSnapshot} {active : Bool}
    (h : SerialUsageLedger.create policy reading initial active = .ok ledger)
    (ops more : List Op) :
    (∀ entry ∈ trace ops ledger, ∀ u, entry.result = .ok (some u) → WithinLimits policy u) ∧
    (runAll ops ledger).snapshot.activeRuntimeNs = initial.activeRuntimeNs +
      ((trace ops ledger).map fun entry => entry.op.counted entry.before entry.after).sum +
      ((trace ops ledger).map fun entry => entry.op.carried entry.before).sum ∧
    (∀ entry ∈ trace ops ledger, entry.after.lastNs = entry.op.clock entry.before ∧
      entry.after.active = entry.op.activity entry.before entry.result.isOk) ∧
    (∀ entry ∈ trace ops ledger, (∃ failure, entry.result = .error failure) →
      (entry.op.proposes →
        entry.after.snapshot.withoutRuntime = entry.before.snapshot.withoutRuntime) ∧
      ∀ delta observed, entry.op = .applyAt delta observed →
        entry.after.snapshot = entry.before.snapshot ∨ ∃ now, observed = some now ∧
          entry.after.snapshot = entry.before.settled now.toNat (some delta) ∧
          entry.after.clockFailure ≠ none) ∧
    ((runAll ops ledger).clockFailure ≠ none → ∀ entry ∈ trace more (runAll ops ledger),
      entry.after.clockFailure ≠ none ∧
      entry.after.snapshot.withoutStorage = entry.before.snapshot.withoutStorage ∧
      (entry.op.looksAtLatch → entry.after.snapshot = entry.before.snapshot ∧
        ∃ failure, entry.result = .error failure)) := by
  obtain ⟨rfl, rfl⟩ := create_eq_ok h
  refine ⟨fun entry hmem u hu => ?_, runAll_runtime ops ledger, fun entry hmem => ?_,
    fun entry hmem herror => ?_, fun hlatched entry hmem => ?_⟩
  · obtain ⟨haccounted, hpolicy⟩ := accounted_of_mem hmem
    exact hpolicy ▸ haccounted.within u hu
  · have hclocked := clocked_of_mem hmem
    exact ⟨hclocked.clock, hclocked.active⟩
  · have haccounted := (accounted_of_mem hmem).1
    exact ⟨fun hproposes => haccounted.refused hproposes herror,
      fun delta observed hop => haccounted.effect delta observed hop herror⟩
  · exact (accounted_of_mem hmem).1.latched (latched_of_mem hlatched hmem)

/-- A provider attempt, a tool attempt over the runtime limit, and what follows. -/
theorem ledger_accounts_overrun :
    (∃ ledger, SerialUsageLedger.create {} (.value 5) {} true = .ok ledger ∧
      (runAll [.beginProviderAttempt .localFree .unknown (.value 7),
        .applyAt { toolAttempts := 1 } (some 400000000000)] ledger).clockFailure ≠ none ∧
      ∀ entry ∈ trace [.snapshot (.value 400000000001)] (runAll
        [.beginProviderAttempt .localFree .unknown (.value 7),
          .applyAt { toolAttempts := 1 } (some 400000000000)] ledger),
        ∃ failure, entry.result = .error failure) := by
  refine ⟨_, rfl, by decide, fun entry hmem => ?_⟩
  have hlatched := (ledger_accounts
    (show SerialUsageLedger.create {} (.value 5) {} true = .ok _ from rfl)
    [.beginProviderAttempt .localFree .unknown (.value 7),
      .applyAt { toolAttempts := 1 } (some 400000000000)]
    [.snapshot (.value 400000000001)]).2.2.2.2 (by decide) entry hmem
  have hop : entry.op = .snapshot (.value 400000000001) := by
    rcases List.mem_singleton.1 hmem with rfl
    rfl
  exact (hlatched.2.2 (by rw [hop]; rfl)).2

/-- The usage of an effect that runs over the runtime limit is refused and recorded; after
a clock failure is kept, a storage observation still succeeds and changes counters; and
`resume` on a ledger that is active drops the time that has passed. -/
theorem refused_effect_recorded :
    ∃ ledger, SerialUsageLedger.create {} (.value 1) {} true = .ok ledger ∧
      (let step := (Op.applyAt { toolAttempts := 1 } (some 400000000000)).run ledger
      (∃ failure, step.1 = .error failure) ∧
        step.2.snapshot.withoutRuntime ≠ ledger.snapshot.withoutRuntime) ∧
      (let latched := runAll [.snapshot (.value 0)] ledger
      latched.clockFailure ≠ none ∧
        ((Op.observeStorage (some 20) (some 30)).run latched).1.isOk ∧
        ((Op.observeStorage (some 20) (some 30)).run latched).2.snapshot ≠ latched.snapshot) ∧
      (runAll [.resume (.value 10), .snapshot (.value 15)] ledger).snapshot.activeRuntimeNs = 5 :=
  ⟨_, rfl, ⟨⟨_, rfl⟩, by decide⟩, ⟨by decide, by decide, by decide⟩, by decide⟩

end PokerDeliberation.Workflow
