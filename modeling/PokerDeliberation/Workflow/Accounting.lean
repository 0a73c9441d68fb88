import PokerDeliberation.Workflow.Ledger

/-!
# What the ledger accounts for

Every operation takes at most one observation of the clock, which changes the
runtime and nothing else, before it does anything else. The runtime is the
initial one, the advance of the clock in the intervals in which the ledger was
active, and the runtime that settled usage carries; an interval that `resume`
ends is not counted.
-/

namespace PokerDeliberation.Workflow

open Lib Lib.Stateful
open Budgets (BudgetPolicyV2 ExecutionClass)

/-! ## One observation -/

def UsageDelta.addRuntime (u : UsageDelta) (n : Nat) : UsageDelta :=
  { u with activeRuntimeNs := u.activeRuntimeNs + n }

/-- The counters other than the runtime. -/
def UsageDelta.withoutRuntime (u : UsageDelta) : UsageDelta := { u with activeRuntimeNs := 0 }

/-- The counters that no storage observation writes. -/
def UsageDelta.withoutStorage (u : UsageDelta) : UsageDelta :=
  { u with artifactBytes := 0, runBytes := 0 }

variable {u delta : UsageDelta} {s t ledger : SerialUsageLedger} {now n : Nat}
  {failure : BudgetFailure} {reading : ClockReading}

theorem combine_runtime : u.combine { activeRuntimeNs := n } = u.addRuntime n := by
  simp [UsageDelta.combine, UsageDelta.addRuntime]

@[simp] theorem addRuntime_zero : u.addRuntime 0 = u := rfl

@[simp] theorem addRuntime_withoutRuntime : (u.addRuntime n).withoutRuntime = u.withoutRuntime := rfl

@[simp] theorem addRuntime_activeRuntimeNs :
    (u.addRuntime n).activeRuntimeNs = u.activeRuntimeNs + n := rfl

/-- What an interval from one state to the next counts as runtime. -/
def advance (s t : SerialUsageLedger) : Nat := if s.active then t.lastNs - s.lastNs else 0

theorem settled_none :
    s.settled now none = s.snapshot.addRuntime (if s.active then now - s.lastNs else 0) := by
  simp only [SerialUsageLedger.settled, combine_runtime]
  by_cases h : (if s.active then now - s.lastNs else 0) = 0
  · rw [if_pos h, h, addRuntime_zero]
  · rw [if_neg h]

theorem settled_some : s.settled now (some delta) = (s.settled now none).combine delta := rfl

/-- An observation moves the clock reading and the runtime together. -/
structure Observed (s t : SerialUsageLedger) : Prop where
  policy : t.policy = s.policy
  snapshot : t.snapshot = s.snapshot.addRuntime (advance s t)
  latched : s.clockFailure ≠ none → t.snapshot = s.snapshot ∧ t.clockFailure ≠ none

/-- What moves neither the clock reading nor a counter. -/
theorem Observed.same (hpolicy : t.policy = s.policy) (hlast : t.lastNs = s.lastNs)
    (hsnapshot : t.snapshot = s.snapshot)
    (hlatched : s.clockFailure ≠ none → t.clockFailure ≠ none) : Observed s t :=
  ⟨hpolicy, by simp [hsnapshot, advance, hlast], fun h => ⟨hsnapshot, hlatched h⟩⟩

theorem Observed.refl : Observed s s := .same rfl rfl rfl fun h => h

theorem checkLatch_latched (h : s.clockFailure = some failure) :
    checkLatch s = (.error failure, s) := by
  rw [checkLatch, bind_of_ok (rfl : Stateful.read s = (.ok s, s)), h]
  rfl

theorem checkLatch_none (h : s.clockFailure = none) : checkLatch s = (.ok (), s) := by
  rw [checkLatch, bind_of_ok (rfl : Stateful.read s = (.ok s, s)), h]
  rfl

variable {effect : Option UsageDelta}

theorem settle_latched (h : s.clockFailure = some failure) :
    settleRuntimeObservation now effect s = (.error failure, s) :=
  bind_of_error (checkLatch_latched h)

theorem settle_rollback (h : s.clockFailure = none) (hlt : now < s.lastNs) :
    settleRuntimeObservation now effect s =
      let failure := clockRollback "monotonic clock moved backwards" s.lastNs now
      (.error failure, { s with clockFailure := some failure }) := by
  rw [settleRuntimeObservation, bind_of_ok (checkLatch_none h),
    bind_of_ok (rfl : Stateful.read s = (.ok s, s)), if_pos hlt]
  rfl

/-- The state after the settlement, before it is checked. -/
def SerialUsageLedger.settle (s : SerialUsageLedger) (now : Nat) (effect : Option UsageDelta) :
    SerialUsageLedger :=
  { s with lastNs := now, snapshot := s.settled now effect }

theorem settle_checked (h : s.clockFailure = none) (hle : s.lastNs ≤ now) :
    settleRuntimeObservation now effect s =
      match validateSnapshot s.policy (s.settled now effect) with
      | .ok _ => (.ok (), s.settle now effect)
      | .error failure =>
        (.error failure, { s.settle now effect with clockFailure := some failure }) := by
  rw [settleRuntimeObservation, bind_of_ok (checkLatch_none h),
    bind_of_ok (rfl : Stateful.read s = (.ok s, s)), if_neg (Nat.not_lt.2 hle)]
  show (match validateSnapshot s.policy (s.settled now effect) with
      | .ok _ => (pure () : Proc Unit)
      | .error failure => latch failure) (s.settle now effect) = _
  cases validateSnapshot s.policy (s.settled now effect) <;> rfl

/-- How a settlement ends: refused for the failure kept, for a rollback, over a
limit with the usage recorded all the same, or settled. -/
theorem settle_cases (s : SerialUsageLedger) (now : Nat) (effect : Option UsageDelta) :
    (∃ failure, s.clockFailure = some failure ∧
      settleRuntimeObservation now effect s = (.error failure, s)) ∨
    (∃ failure, s.clockFailure = none ∧ now < s.lastNs ∧
      settleRuntimeObservation now effect s =
        (.error failure, { s with clockFailure := some failure })) ∨
    (∃ failure, s.clockFailure = none ∧ s.lastNs ≤ now ∧
      settleRuntimeObservation now effect s =
        (.error failure, { s.settle now effect with clockFailure := some failure })) ∨
    (s.clockFailure = none ∧ s.lastNs ≤ now ∧
      WithinLimits s.policy (s.settled now effect) ∧
      settleRuntimeObservation now effect s = (.ok (), s.settle now effect)) := by
  cases h : s.clockFailure with
  | some failure => exact .inl ⟨failure, rfl, settle_latched h⟩
  | none =>
    rcases Nat.lt_or_ge now s.lastNs with hlt | hle
    · exact .inr (.inl ⟨_, rfl, hlt, settle_rollback h hlt⟩)
    · have hchecked : settleRuntimeObservation now effect s = _ := settle_checked h hle
      cases hvalid : validateSnapshot s.policy (s.settled now effect) with
      | error failure =>
        rw [hvalid] at hchecked
        exact .inr (.inr (.inl ⟨failure, rfl, hle, hchecked⟩))
      | ok _ =>
        rw [hvalid] at hchecked
        exact .inr (.inr (.inr ⟨rfl, hle, validateSnapshot_eq_ok.1 hvalid, hchecked⟩))

theorem Observed.settle (h : s.clockFailure = none)
    (ht : t = { s.settle now none with clockFailure := t.clockFailure }) : Observed s t := by
  rw [ht]
  exact ⟨rfl, settled_none, fun hlatched => absurd h hlatched⟩

/-- An observation of the clock, and what it has checked when it returns. -/
theorem observeRuntime_spec (s : SerialUsageLedger) (reading : ClockReading) :
    Observed s (observeRuntime reading s).2 ∧ (∀ u, (observeRuntime reading s).1 = .ok u →
      s.clockFailure = none ∧ (observeRuntime reading s).2.clockFailure = none ∧
        WithinLimits s.policy (observeRuntime reading s).2.snapshot) := by
  cases h : s.clockFailure with
  | some failure =>
    rw [observeRuntime, bind_of_error (checkLatch_latched h)]
    exact ⟨.refl, by simp⟩
  | none =>
    rw [observeRuntime, bind_of_ok (checkLatch_none h)]
    cases readClock reading with
    | error failure =>
      refine ⟨.same rfl rfl rfl fun hlatched => absurd h hlatched, fun u hu => ?_⟩
      cases hu
    | ok now =>
      simp only
      rcases settle_cases s now none with ⟨f, hf, -⟩ | ⟨f, -, -, hrun⟩ | ⟨f, -, hle, hrun⟩ |
        ⟨-, hle, hwithin, hrun⟩
      · rw [h] at hf
        cases hf
      · rw [hrun]
        exact ⟨.same rfl rfl rfl fun hlatched => absurd h hlatched, by simp⟩
      · rw [hrun]
        exact ⟨.settle h rfl, by simp⟩
      · rw [hrun]
        exact ⟨.settle h rfl, fun _ _ => ⟨trivial, h, hwithin⟩⟩

/-- `candidate` changes what an observation changes, and returns what is within the limits. -/
theorem candidate_spec (s : SerialUsageLedger) (delta : UsageDelta) (reading : ClockReading) :
    Observed s (candidate delta reading s).2 ∧ ∀ u, (candidate delta reading s).1 = .ok u →
      s.clockFailure = none ∧ u = (candidate delta reading s).2.snapshot.combine delta ∧
        WithinLimits s.policy u := by
  obtain ⟨hobserved, hok⟩ := observeRuntime_spec s reading
  rcases hrun : observeRuntime reading s with ⟨_ | _, t⟩
  · rw [candidate, bind_of_error hrun]
    rw [hrun] at hobserved
    exact ⟨hobserved, by simp⟩
  · rw [hrun] at hobserved hok
    rw [candidate, bind_of_ok hrun, bind_of_ok (rfl : Stateful.read t = (.ok t, t))]
    cases hvalid : validateSnapshot t.policy (t.snapshot.combine delta) with
    | error failure =>
      rw [bind_of_error (show lift _ t = (.error failure, t) from rfl)]
      exact ⟨hobserved, by simp⟩
    | ok u =>
      rw [bind_of_ok (show lift _ t = (.ok u, t) from rfl)]
      refine ⟨hobserved, fun v hv => ?_⟩
      cases hv
      exact ⟨(hok u rfl).1, rfl, hobserved.policy ▸ validateSnapshot_eq_ok.1 hvalid⟩

/-! ## Operations -/

inductive Op where
  | snapshot (reading : ClockReading)
  | runtimeWindow (reading : ClockReading)
  | apply (delta : UsageDelta) (reading : ClockReading)
  | applyAt (delta : UsageDelta) (observedAtNs : Option Int)
  | preflight (delta : UsageDelta) (reading : ClockReading)
  | observeStorage (artifactBytes runBytes : Option Int)
  | pause (reading : ClockReading)
  | resume (reading : ClockReading)
  | beginProviderAttempt (executionClass : ExecutionClass) (estimate : CostEstimate)
      (reading : ClockReading)

/-- The operation; the snapshot it returns, if it returns one. -/
def Op.run : Op → Proc (Option BudgetSnapshot)
  | .snapshot reading => some <$> Workflow.snapshot reading
  | .runtimeWindow reading => (fun window => some window.1) <$> Workflow.runtimeWindow reading
  | .apply delta reading => some <$> Workflow.apply delta reading
  | .applyAt delta observedAtNs => some <$> Workflow.applyAt delta observedAtNs
  | .preflight delta reading => some <$> Workflow.preflight delta reading
  | .observeStorage artifactBytes runBytes => some <$> Workflow.observeStorage artifactBytes runBytes
  | .pause reading => some <$> Workflow.pause reading
  | .resume reading => (fun _ => none) <$> Workflow.resume reading
  | .beginProviderAttempt executionClass estimate reading =>
    some <$> Workflow.beginProviderAttempt executionClass estimate reading

/-- The operations that look at the failure kept. -/
def Op.looksAtLatch : Op → Bool
  | .observeStorage .. | .resume .. => false
  | _ => true

/-- The runtime that the usage an operation records carries. -/
def Op.carried (s : SerialUsageLedger) : Op → Nat
  | .apply delta reading => if (Workflow.apply delta reading s).1.isOk then delta.activeRuntimeNs else 0
  | .applyAt delta (some now) =>
    if s.clockFailure = none ∧ (s.lastNs : Int) ≤ now then delta.activeRuntimeNs else 0
  | _ => 0

/-- What an operation counts of the clock's advance. -/
def Op.counted (s t : SerialUsageLedger) : Op → Nat
  | .resume _ => 0
  | _ => advance s t

/-- The operations that are handed a usage delta before the effect. -/
def Op.proposes : Op → Bool
  | .apply .. | .preflight .. | .beginProviderAttempt .. => true
  | _ => false

/-- What one operation does to the ledger. -/
structure Accounted (op : Op) (s : SerialUsageLedger)
    (result : Except BudgetFailure (Option BudgetSnapshot)) (t : SerialUsageLedger) : Prop where
  policy : t.policy = s.policy
  within : ∀ u, result = .ok (some u) → WithinLimits s.policy u
  runtime : t.snapshot.activeRuntimeNs =
    s.snapshot.activeRuntimeNs + op.counted s t + op.carried s
  refused : op.proposes → (∃ failure, result = .error failure) →
    t.snapshot.withoutRuntime = s.snapshot.withoutRuntime
  effect : ∀ delta observed, op = .applyAt delta observed → (∃ failure, result = .error failure) →
    t.snapshot = s.snapshot ∨ ∃ now, observed = some now ∧
      t.snapshot = s.settled now.toNat (some delta) ∧ t.clockFailure ≠ none
  latched : s.clockFailure ≠ none → t.clockFailure ≠ none ∧
    t.snapshot.withoutStorage = s.snapshot.withoutStorage ∧
      (op.looksAtLatch → t.snapshot = s.snapshot ∧ ∃ failure, result = .error failure)

variable {op : Op} {result : Except BudgetFailure (Option BudgetSnapshot)}

theorem map_run {α β : Type} {f : α → β} {x : Proc α} {s : SerialUsageLedger} :
    (f <$> x) s = ((x s).1.map f, (x s).2) := by
  have hmap : (f <$> x) s = (x >>= fun a => pure (f a)) s := rfl
  rw [hmap]
  rcases hx : x s with ⟨_ | _, _⟩
  · rw [bind_of_error hx]
    rfl
  · rw [bind_of_ok hx]
    rfl

/-- An operation that only observes. -/
theorem accounted_of_observed (h : Observed s t) (hcounted : op.counted s t = advance s t)
    (hcarried : op.carried s = 0) (heffect : ∀ delta observed, op ≠ .applyAt delta observed)
    (hwithin : ∀ u, result = .ok (some u) → WithinLimits s.policy u)
    (herror : s.clockFailure ≠ none → ∃ failure, result = .error failure) :
    Accounted op s result t where
  policy := h.policy
  within := hwithin
  runtime := by rw [h.snapshot, addRuntime_activeRuntimeNs, hcounted, hcarried, Nat.add_zero]
  refused _ _ := by rw [h.snapshot, addRuntime_withoutRuntime]
  effect delta observed hop := absurd hop (heffect delta observed)
  latched hlatched := by
    obtain ⟨hsnapshot, hkept⟩ := h.latched hlatched
    exact ⟨hkept, by rw [hsnapshot], fun _ => ⟨hsnapshot, herror hlatched⟩⟩

/-- A procedure that observes and returns only what is within the limits. -/
def Observing {α : Type} (x : Proc α) (value : α → BudgetSnapshot) : Prop :=
  ∀ s, Observed s (x s).2 ∧ ∀ a, (x s).1 = .ok a →
    s.clockFailure = none ∧ WithinLimits s.policy (value a)

theorem Observing.accounted {α : Type} {x : Proc α} {value : α → BudgetSnapshot}
    (h : Observing x value) (hrun : op.run = (fun a => some (value a)) <$> x)
    (hcounted : ∀ t, op.counted s t = advance s t) (hcarried : op.carried s = 0)
    (heffect : ∀ delta observed, op ≠ .applyAt delta observed) :
    Accounted op s (op.run s).1 (op.run s).2 := by
  obtain ⟨hobserved, hok⟩ := h s
  rw [hrun, map_run]
  refine accounted_of_observed hobserved (hcounted _) hcarried heffect (fun u hu => ?_)
    fun hlatched => ?_
  · cases hx : (x s).1 with
    | error failure => simp [hx, Except.map] at hu
    | ok a =>
      simp only [hx, Except.map, Except.ok.injEq, Option.some.injEq] at hu
      exact hu ▸ (hok a hx).2
  · cases hx : (x s).1 with
    | error failure => exact ⟨failure, rfl⟩
    | ok a => exact absurd (hok a hx).1 hlatched

/-- What an observation is followed by, if it changes no counter. -/
theorem observing_bind {α : Type} {value : α → BudgetSnapshot} {f : Unit → Proc α}
    (hf : ∀ t, Observed t (f () t).2 ∧ (f () t).2.lastNs = t.lastNs ∧
      ∀ a, (f () t).1 = .ok a → value a = t.snapshot) :
    Observing (observeRuntime reading >>= f) value := by
  intro s
  obtain ⟨hobserved, hok⟩ := observeRuntime_spec s reading
  rcases hrun : observeRuntime reading s with ⟨_ | _, t⟩
  · rw [hrun] at hobserved
    rw [bind_of_error hrun]
    exact ⟨hobserved, by simp⟩
  · rw [hrun] at hobserved hok
    rw [bind_of_ok hrun]
    obtain ⟨hafter, hlast, hvalue⟩ := hf t
    have hsame : (f () t).2.snapshot = t.snapshot := by
      rw [hafter.snapshot, advance, hlast, Nat.sub_self]
      split <;> rfl
    refine ⟨⟨hafter.policy.trans hobserved.policy, ?_, fun hlatched => ?_⟩, fun a ha => ?_⟩
    · rw [hsame, hobserved.snapshot, advance, advance, hlast]
    · obtain ⟨hsnapshot, hkept⟩ := hobserved.latched hlatched
      exact ⟨hsame.trans hsnapshot, (hafter.latched hkept).2⟩
    · rw [hvalue a ha]
      exact ⟨(hok _ rfl).1, (hok _ rfl).2.2⟩

theorem observing_snapshot : Observing (Workflow.snapshot reading) id :=
  observing_bind fun _ => ⟨.refl, rfl, fun _ ha => (Except.ok.inj ha).symm⟩

theorem observing_runtimeWindow : Observing (Workflow.runtimeWindow reading) Prod.fst :=
  observing_bind fun _ => ⟨.refl, rfl, fun _ ha => by cases ha; rfl⟩

theorem observing_pause : Observing (Workflow.pause reading) id :=
  observing_bind fun _ => ⟨.same rfl rfl rfl fun h => h, rfl, fun _ ha => (Except.ok.inj ha).symm⟩

theorem observing_candidate : Observing (candidate delta reading) id := fun s =>
  ⟨(candidate_spec s delta reading).1, fun a ha =>
    have hspec := (candidate_spec s delta reading).2 a ha
    ⟨hspec.1, hspec.2.2⟩⟩

/-- `apply` records the delta beside what it observes, or only observes. -/
theorem apply_cases (s : SerialUsageLedger) (delta : UsageDelta) (reading : ClockReading) :
    (∃ failure, (Workflow.apply delta reading s).1 = .error failure ∧
      Observed s (Workflow.apply delta reading s).2) ∨
    (∃ t, Observed s t ∧ s.clockFailure = none ∧
      WithinLimits s.policy (t.snapshot.combine delta) ∧
      Workflow.apply delta reading s =
        (.ok (t.snapshot.combine delta), { t with snapshot := t.snapshot.combine delta })) := by
  obtain ⟨hobserved, hok⟩ := candidate_spec s delta reading
  rcases hrun : candidate delta reading s with ⟨failure | u, t⟩
  · rw [hrun] at hobserved
    rw [Workflow.apply, bind_of_error hrun]
    exact .inl ⟨failure, rfl, hobserved⟩
  · rw [hrun] at hobserved hok
    rw [Workflow.apply, bind_of_ok hrun]
    obtain ⟨hlatched, hu, hwithin⟩ := hok u rfl
    have hu : u = t.snapshot.combine delta := hu
    subst hu
    exact .inr ⟨t, hobserved, hlatched, hwithin, rfl⟩

theorem accounted_apply :
    Accounted (.apply delta reading) s ((Op.apply delta reading).run s).1
      ((Op.apply delta reading).run s).2 := by
  have hmap : (Op.apply delta reading).run = some <$> Workflow.apply delta reading := rfl
  rw [hmap, map_run]
  rcases apply_cases s delta reading with ⟨failure, herror, hobserved⟩ |
    ⟨t, hobserved, hlatched, hwithin, hrun⟩
  · have hcarried : (Op.apply delta reading).carried s = 0 := by
      rw [Op.carried, herror]
      rfl
    exact accounted_of_observed hobserved rfl hcarried (by simp) (by simp [herror, Except.map])
      fun _ => ⟨failure, by rw [herror]; rfl⟩
  · have hcarried : (Op.apply delta reading).carried s = delta.activeRuntimeNs := by
      rw [Op.carried, hrun]
      rfl
    rw [hrun]
    refine ⟨hobserved.policy, fun u hu => ?_, ?_, by simp [Except.map], by simp, fun h => ?_⟩
    · cases hu
      exact hwithin
    · show t.snapshot.activeRuntimeNs + delta.activeRuntimeNs = _
      rw [hcarried, hobserved.snapshot]
      rfl
    · exact absurd hlatched h

theorem accounted_beginProviderAttempt {executionClass : ExecutionClass} {estimate : CostEstimate} :
    Accounted (.beginProviderAttempt executionClass estimate reading) s
      ((Op.beginProviderAttempt executionClass estimate reading).run s).1
      ((Op.beginProviderAttempt executionClass estimate reading).run s).2 := by
  have hmap : (Op.beginProviderAttempt executionClass estimate reading).run =
      some <$> Workflow.beginProviderAttempt executionClass estimate reading := rfl
  have hread : Workflow.beginProviderAttempt executionClass estimate reading s =
      (lift (providerCost s.policy executionClass estimate) >>= fun cost => Workflow.apply
        { providerAttempts := 1, externalCostMicroUsd := cost, peakConcurrency := 1 } reading) s :=
    rfl
  rw [hmap, map_run, hread]
  cases hcost : providerCost s.policy executionClass estimate with
  | error failure =>
    rw [bind_of_error (show lift _ s = (.error failure, s) from rfl)]
    exact accounted_of_observed .refl rfl rfl (by simp) (by simp [Except.map])
      fun _ => ⟨failure, rfl⟩
  | ok cost =>
    rw [bind_of_ok (show lift _ s = (.ok cost, s) from rfl)]
    rcases apply_cases s { providerAttempts := 1, externalCostMicroUsd := cost, peakConcurrency := 1 }
      reading with ⟨failure, herror, hobserved⟩ | ⟨t, hobserved, hlatched, hwithin, hrun⟩
    · exact accounted_of_observed hobserved rfl rfl (by simp) (by simp [herror, Except.map])
        fun _ => ⟨failure, by rw [herror]; rfl⟩
    · rw [hrun]
      refine ⟨hobserved.policy, fun u hu => ?_, ?_, by simp [Except.map], by simp, fun h => ?_⟩
      · cases hu
        exact hwithin
      · show t.snapshot.activeRuntimeNs + 0 = _
        rw [hobserved.snapshot]
        rfl
      · exact absurd hlatched h

theorem observeStorage_cases (s : SerialUsageLedger) (artifactBytes runBytes : Option Int) :
    (∃ failure, Workflow.observeStorage artifactBytes runBytes s = (.error failure, s)) ∨
    (∃ u : BudgetSnapshot, WithinLimits s.policy u ∧
      u.withoutStorage = s.snapshot.withoutStorage ∧
      Workflow.observeStorage artifactBytes runBytes s = (.ok u, { s with snapshot := u })) := by
  cases hbytes : storageBytes artifactBytes runBytes with
  | error failure =>
    rw [Workflow.observeStorage, hbytes]
    exact .inl ⟨failure, rfl⟩
  | ok bytes =>
    have hchecked : Workflow.observeStorage artifactBytes runBytes s =
        (lift (validateSnapshot s.policy (s.stored bytes)) >>= fun _ => do
          modify fun ledger => { ledger with snapshot := ledger.stored bytes }
          currentSnapshot) s := by
      rw [Workflow.observeStorage, hbytes]
      rfl
    rw [hchecked]
    cases hvalid : validateSnapshot s.policy (s.stored bytes) with
    | error failure => exact .inl ⟨failure, rfl⟩
    | ok _ => exact .inr ⟨s.stored bytes, validateSnapshot_eq_ok.1 hvalid, rfl, rfl⟩

/-- A storage observation touches the storage counters only. -/
theorem accounted_observeStorage {artifactBytes runBytes : Option Int} :
    Accounted (.observeStorage artifactBytes runBytes) s
      ((Op.observeStorage artifactBytes runBytes).run s).1
      ((Op.observeStorage artifactBytes runBytes).run s).2 := by
  have hmap : (Op.observeStorage artifactBytes runBytes).run =
      some <$> Workflow.observeStorage artifactBytes runBytes := rfl
  rw [hmap, map_run]
  rcases observeStorage_cases s artifactBytes runBytes with ⟨failure, hrun⟩ |
    ⟨u, hwithin, hstorage, hrun⟩
  · rw [hrun]
    exact accounted_of_observed .refl rfl rfl (by simp) (by simp [Except.map])
      fun _ => ⟨failure, rfl⟩
  · rw [hrun]
    refine ⟨rfl, fun v hv => ?_, ?_, by simp [Op.proposes], by simp, fun h => ⟨h, hstorage, ?_⟩⟩
    · cases hv
      exact hwithin
    · have hruntime : u.withoutStorage.activeRuntimeNs =
          s.snapshot.withoutStorage.activeRuntimeNs := by rw [hstorage]
      have hruntime : u.activeRuntimeNs = s.snapshot.activeRuntimeNs := hruntime
      simp [Op.counted, Op.carried, advance, hruntime]
    · simp [Op.looksAtLatch]

theorem resume_cases (s : SerialUsageLedger) (reading : ClockReading) :
    (∃ failure, Workflow.resume reading s = (.error failure, s)) ∨
    (∃ now, Workflow.resume reading s = (.ok (), { s with lastNs := now, active := true })) := by
  cases hread : readClock reading with
  | error failure =>
    rw [Workflow.resume, bind_of_error (show lift (readClock reading) s = (.error failure, s) by
      rw [hread]; rfl)]
    exact .inl ⟨failure, rfl⟩
  | ok now =>
    rw [Workflow.resume, bind_of_ok (show lift (readClock reading) s = (.ok now, s) by
      rw [hread]; rfl), bind_of_ok (rfl : Stateful.read s = (.ok s, s))]
    by_cases hlt : now < s.lastNs
    · rw [if_pos hlt]
      exact .inl ⟨_, rfl⟩
    · rw [if_neg hlt]
      exact .inr ⟨now, rfl⟩

theorem accounted_resume :
    Accounted (.resume reading) s ((Op.resume reading).run s).1 ((Op.resume reading).run s).2 := by
  have hmap : (Op.resume reading).run = (fun _ => none) <$> Workflow.resume reading := rfl
  rw [hmap, map_run]
  rcases resume_cases s reading with ⟨failure, hrun⟩ | ⟨now, hrun⟩ <;> rw [hrun]
  · exact ⟨rfl, by simp [Except.map], rfl, by simp [Op.proposes], by simp,
      fun h => ⟨h, rfl, by simp [Op.looksAtLatch]⟩⟩
  · exact ⟨rfl, by simp [Except.map], rfl, by simp [Op.proposes], by simp,
      fun h => ⟨h, rfl, by simp [Op.looksAtLatch]⟩⟩

/-- `apply_at` refuses a malformed observation and keeps that, or settles. -/
theorem applyAt_cases (s : SerialUsageLedger) (delta : UsageDelta) (observedAtNs : Option Int) :
    (∃ failure, (∀ now, observedAtNs = some now → now < 0) ∧
      Workflow.applyAt delta observedAtNs s =
        (.error failure, { s with clockFailure := some failure })) ∨
    (∃ now : Nat, observedAtNs = some (now : Int) ∧ Workflow.applyAt delta observedAtNs s =
      (settleRuntimeObservation now (some delta) >>= fun _ => currentSnapshot) s) := by
  cases observedAtNs with
  | none => exact .inl ⟨_, by simp, rfl⟩
  | some now =>
    rw [Workflow.applyAt]
    by_cases hnegative : now < 0
    · simp only [if_pos hnegative]
      exact .inl ⟨_, fun _ h => Option.some.inj h ▸ hnegative, rfl⟩
    · simp only [if_neg hnegative]
      refine .inr ⟨now.toNat, ?_, rfl⟩
      rw [Int.toNat_of_nonneg (by omega)]

theorem accounted_applyAt {observedAtNs : Option Int} :
    Accounted (.applyAt delta observedAtNs) s ((Op.applyAt delta observedAtNs).run s).1
      ((Op.applyAt delta observedAtNs).run s).2 := by
  have hmap : (Op.applyAt delta observedAtNs).run = some <$> Workflow.applyAt delta observedAtNs :=
    rfl
  rw [hmap, map_run]
  rcases applyAt_cases s delta observedAtNs with ⟨failure, hmalformed, hrun⟩ | ⟨now, rfl, hrun⟩
  · have hcarried : (Op.applyAt delta observedAtNs).carried s = 0 := by
      cases observedAtNs with
      | none => rfl
      | some now =>
        have hnegative := hmalformed now rfl
        exact if_neg fun h => absurd h.2 (by omega)
    rw [hrun]
    exact ⟨rfl, by simp [Except.map], by simp [Op.counted, advance, hcarried],
      by simp [Op.proposes], fun _ _ _ _ => .inl rfl,
      fun _ => ⟨by simp, rfl, fun _ => ⟨rfl, failure, rfl⟩⟩⟩
  · rw [hrun]
    have hcarried : s.clockFailure = none → s.lastNs ≤ now →
        (Op.applyAt delta (some (now : Int))).carried s = delta.activeRuntimeNs :=
      fun hlatched hle => if_pos ⟨hlatched, by omega⟩
    have hruntime : (s.settled now (some delta)).activeRuntimeNs =
        s.snapshot.activeRuntimeNs + (if s.active then now - s.lastNs else 0) +
          delta.activeRuntimeNs := by
      rw [settled_some, settled_none]
      rfl
    rcases settle_cases s now (some delta) with ⟨failure, hlatched, hsettle⟩ |
      ⟨failure, hlatched, hlt, hsettle⟩ | ⟨failure, hlatched, hle, hsettle⟩ |
      ⟨hlatched, hle, hwithin, hsettle⟩
    · rw [bind_of_error hsettle]
      have hnothing : (Op.applyAt delta (some (now : Int))).carried s = 0 :=
        if_neg fun h => by simp [hlatched] at h
      exact ⟨rfl, by simp [Except.map], by simp [Op.counted, advance, hnothing],
        by simp [Op.proposes], fun _ _ _ _ => .inl rfl,
        fun h => ⟨h, rfl, fun _ => ⟨rfl, failure, rfl⟩⟩⟩
    · rw [bind_of_error hsettle]
      have hnothing : (Op.applyAt delta (some (now : Int))).carried s = 0 :=
        if_neg fun h => absurd h.2 (by omega)
      exact ⟨rfl, by simp [Except.map], by simp [Op.counted, advance, hnothing],
        by simp [Op.proposes], fun _ _ _ _ => .inl rfl, fun h => absurd hlatched h⟩
    · rw [bind_of_error hsettle]
      refine ⟨rfl, by simp [Except.map], ?_, by simp [Op.proposes], ?_, fun h => absurd hlatched h⟩
      · rw [hcarried hlatched hle]
        exact hruntime
      · rintro _ _ ⟨⟩ -
        exact .inr ⟨now, rfl, rfl, by simp⟩
    · rw [bind_of_ok hsettle]
      refine ⟨rfl, fun u hu => ?_, ?_, by simp [Op.proposes], ?_, fun h => absurd hlatched h⟩
      · cases hu
        exact hwithin
      · rw [hcarried hlatched hle]
        exact hruntime
      · rintro _ _ - ⟨_, herror⟩
        cases herror

theorem accounted (op : Op) (s : SerialUsageLedger) :
    Accounted op s (op.run s).1 (op.run s).2 := by
  cases op with
  | snapshot reading =>
    exact observing_snapshot.accounted rfl (fun _ => rfl) rfl (by simp)
  | runtimeWindow reading =>
    exact observing_runtimeWindow.accounted rfl (fun _ => rfl) rfl (by simp)
  | apply delta reading => exact accounted_apply
  | applyAt delta observedAtNs => exact accounted_applyAt
  | preflight delta reading =>
    exact observing_candidate.accounted rfl (fun _ => rfl) rfl (by simp)
  | observeStorage artifactBytes runBytes => exact accounted_observeStorage
  | pause reading => exact observing_pause.accounted rfl (fun _ => rfl) rfl (by simp)
  | resume reading => exact accounted_resume
  | beginProviderAttempt executionClass estimate reading => exact accounted_beginProviderAttempt

/-! ## Runs -/

structure Entry where
  before : SerialUsageLedger
  op : Op
  result : Except BudgetFailure (Option BudgetSnapshot)
  after : SerialUsageLedger

/-- The operations one after another, each with its result. -/
def trace : List Op → SerialUsageLedger → List Entry
  | [], _ => []
  | op :: ops, s => ⟨s, op, (op.run s).1, (op.run s).2⟩ :: trace ops (op.run s).2

def runAll (ops : List Op) (s : SerialUsageLedger) : SerialUsageLedger :=
  ops.foldl (fun s op => (op.run s).2) s

variable {ops more : List Op} {entry : Entry}

theorem accounted_of_mem (h : entry ∈ trace ops s) :
    Accounted entry.op entry.before entry.result entry.after ∧ entry.before.policy = s.policy := by
  induction ops generalizing s with
  | nil => simp [trace] at h
  | cons op ops ih =>
    rcases List.mem_cons.1 h with rfl | h
    · exact ⟨accounted op s, rfl⟩
    · obtain ⟨haccounted, hpolicy⟩ := ih h
      exact ⟨haccounted, hpolicy.trans (accounted op s).policy⟩

/-- The runtime is the initial one, what the clock advanced while the ledger was
active, and what the recorded usage carried. -/
theorem runAll_runtime (ops : List Op) (s : SerialUsageLedger) :
    (runAll ops s).snapshot.activeRuntimeNs = s.snapshot.activeRuntimeNs +
      ((trace ops s).map fun entry => entry.op.counted entry.before entry.after).sum +
      ((trace ops s).map fun entry => entry.op.carried entry.before).sum := by
  induction ops generalizing s with
  | nil => rfl
  | cons op ops ih =>
    have hstep := (accounted op s).runtime
    have hrest := ih (op.run s).2
    simp only [trace, List.map_cons, List.sum_cons]
    show (runAll ops (op.run s).2).snapshot.activeRuntimeNs = _
    omega

/-- After a failure is kept it stays kept. -/
theorem latched_of_mem (hlatched : s.clockFailure ≠ none) (h : entry ∈ trace ops s) :
    entry.before.clockFailure ≠ none := by
  induction ops generalizing s with
  | nil => simp [trace] at h
  | cons op ops ih =>
    rcases List.mem_cons.1 h with rfl | h
    · exact hlatched
    · exact ih ((accounted op s).latched hlatched).1 h

end PokerDeliberation.Workflow
