import PokerDeliberation.Budgets.Store

/-!
# What a mutation does

`Effect` says, once for each mutation, how the successor differs from the
state it is built from. Every successor a mutation computes is an effect
(`mutation_effect`), so an invariant of a run is a case analysis on `Effect`
and never looks into the mutations again.
-/

namespace PokerDeliberation.Budgets

open Lib

section

variable {sha256 : Payload → String} {runId : String}
variable {state updated s' : DurableBudgetStateV1} {elapsed : Nat}

/-! ## Charging runtime -/

/-- `usage` is the usage of `state` with `elapsed` more nanoseconds of runtime. -/
structure Charge (state : DurableBudgetStateV1) (elapsed : Nat) (usage : DurableUsageV1) : Prop where
  runtime : usage.activeRuntimeNs = state.usage.activeRuntimeNs + elapsed
  slots : usage.concurrencySlots = 0
  effects : ∀ r, r ≠ .activeRuntimeNs → r ≠ .concurrencySlots → usage.get r = state.usage.get r

theorem applyActual_get {u v : DurableUsageV1} {actual : ResourceAmountsV1}
    (h : u.applyActual actual = .ok v) (r : Resource) :
    v.get r = appliedValue u.toResourceAmountsV1 actual r := by
  unfold DurableUsageV1.applyActual at h
  simp only [bind_eq_ok, pure_eq_ok] at h
  obtain ⟨_, _, rfl⟩ := h
  exact ResourceAmountsV1.get_ofValues _ r

theorem applyActual_runtime {u v : DurableUsageV1} {actual : ResourceAmountsV1}
    (h : u.applyActual actual = .ok v) :
    v.activeRuntimeNs = u.activeRuntimeNs + actual.activeRuntimeNs :=
  applyActual_get h .activeRuntimeNs

theorem applyActual_slots {u v : DurableUsageV1} {actual : ResourceAmountsV1}
    (h : u.applyActual actual = .ok v) : v.concurrencySlots = 0 :=
  applyActual_get h .concurrencySlots

theorem appliedValue_runtime_only (usage : ResourceAmountsV1) (n : Nat) {r : Resource}
    (hr : r ≠ .activeRuntimeNs) (hs : r ≠ .concurrencySlots) :
    appliedValue usage { activeRuntimeNs := n } r = usage.get r := by
  simp [appliedValue, hr, hs]

theorem chargeActiveRuntime_ok {operationId : String} {allowOverrun : Bool} {usage : DurableUsageV1}
    {remaining : Nat}
    (h : chargeActiveRuntime state elapsed operationId allowOverrun = .ok (usage, remaining)) :
    Charge state elapsed usage := by
  unfold chargeActiveRuntime at h
  simp only [bind_eq_ok, valid_eq_ok, ensure_eq_ok, pure_eq_ok, Prod.mk.injEq] at h
  obtain ⟨u, hu, _, _, rfl, _⟩ := h
  refine ⟨applyActual_runtime hu, applyActual_slots hu, fun r hr hs => ?_⟩
  rw [applyActual_get hu r, appliedValue_runtime_only _ _ hr hs]

/-! ## Appending one operation -/

/-- `updated` with one operation and one event more than `state`. -/
def grown (sha256 : Payload → String) (state updated : DurableBudgetStateV1)
    (operation : IdempotencyRecordV1) (event : DurableEventV1) : DurableBudgetStateV1 :=
  { updated with
    generation := state.generation + 1
    previousStateSha256 := some (sha256 (.state state))
    operations := state.operations ++ [operation]
    events := state.events ++ [event] }

/-- `s'` is a valid state that extends the log of `state` by an operation of the
given identity and is `updated` otherwise. -/
def Appended (sha256 : Payload → String) (state updated s' : DurableBudgetStateV1)
    (operationId : String) (kind : OperationKind) (subjectId : Option String) : Prop :=
  s'.validateSnapshot sha256 = .ok () ∧ ∃ operation event,
    operation.operationId = operationId ∧ operation.kind = kind ∧
      operation.subjectId = subjectId ∧ event.operationId = operationId ∧
      s' = grown sha256 state updated operation event

theorem validated_eq_ok {s : DurableBudgetStateV1} :
    s.validated sha256 = .ok s' ↔ s.validateSnapshot sha256 = .ok () ∧ s = s' := by
  unfold DurableBudgetStateV1.validated
  simp only [bind_eq_ok, pure_eq_ok]
  constructor
  · rintro ⟨_, h, he⟩
    exact ⟨h, he⟩
  · rintro ⟨h, he⟩
    exact ⟨(), h, he⟩

theorem appendOperation_ok {operationId requestSha256 : String} {kind : OperationKind}
    {subjectId : Option String} {payload : Payload}
    (h : appendOperation sha256 state updated operationId kind requestSha256 subjectId payload =
      .ok s') : Appended sha256 state updated s' operationId kind subjectId := by
  unfold appendOperation at h
  simp only [bind_eq_ok, validated_eq_ok] at h
  obtain ⟨_, _, _, _, hv, rfl⟩ := h
  exact ⟨hv, _, _, rfl, rfl, rfl, rfl, rfl⟩

/-! ## The effect of each mutation -/

/-- The runtime a settlement measures. -/
def measuredRuntime (state : DurableBudgetStateV1) (elapsed : Nat) (permit : DurablePermitV1) : Nat :=
  state.usage.activeRuntimeNs + elapsed - permit.reservedActiveRuntimeNs

/-- The successor `s'` that a call builds from `state`. -/
inductive Effect (sha256 : Payload → String) (runId : String) (state : DurableBudgetStateV1)
    (elapsed : Nat) : Call → DurableBudgetStateV1 → Prop where
  | reserve {operationId permitId reservation lineage policySha activationSha usage remaining
      permit attempt s'}
    (charge : Charge state elapsed usage)
    (latch : state.failureLatch = none)
    (admitted : ∀ r, admissionObserved (state.charged usage remaining) reservation.requested r ≤
      policyLimit state.policy r)
    (fresh : permitId ∉
      state.activePermits.map (·.permitId) ++ state.settlements.map (·.permitId))
    (permit_eq : permit.permitId = permitId ∧ permit.reservation = reservation)
    (attempt_eq : attempt.permitId = permitId ∧ attempt.failureCategory = none)
    (appended : Appended sha256 state
      { state.charged usage remaining with
        activePermits := state.activePermits ++ [permit]
        attempts := state.attempts ++ [attempt] } s' operationId .reserve (some permitId)) :
    Effect sha256 runId state elapsed
      (.reserve operationId permitId reservation lineage policySha activationSha) s'
  | start {operationId permitId usage remaining permit started s'}
    (charge : Charge state elapsed usage)
    (found : Keyed.find DurablePermitV1.permitId permitId state.activePermits = some permit)
    (reserved : permit.status = .reserved)
    (uncancelled : ∀ c ∈ Keyed.find DurableCancellationV1.permitId permitId state.cancellations,
      c.state = .notRequested)
    (started_eq : started.permitId = permitId ∧ started.reservation = permit.reservation ∧
      started.status = .started)
    (appended : Appended sha256 state
      { state.charged usage remaining with
        activePermits :=
          Keyed.update DurablePermitV1.permitId permitId (fun _ => started) state.activePermits
        attempts := Keyed.update AttemptRecordV1.permitId permitId
          (fun a => { a with status := .started }) state.attempts }
      s' operationId .start (some permitId)) :
    Effect sha256 runId state elapsed (.start operationId permitId) s'
  | settle {a permit chargedUsage remaining applied usage settlement effective s'}
    (charge : Charge state elapsed chargedUsage)
    (found : Keyed.find DurablePermitV1.permitId a.permitId state.activePermits = some permit)
    (started : permit.status = .started)
    (unreleased : a.status ≠ .releasedNoEffect)
    (cancellation : admitCancellation a
      (Keyed.find DurableCancellationV1.permitId a.permitId state.cancellations) = .ok ())
    (effective_eq : effective = effectiveStatus permit.reservation.requested
      (settledActual a.actual (measuredRuntime state elapsed permit)) a.status)
    (settlement_eq : settlement.settlementId = a.settlementId ∧ settlement.permitId = a.permitId ∧
      settlement.operationId = a.operationId)
    (applied_eq : chargedUsage.applyActual
      (settledActual (settledActual a.actual (measuredRuntime state elapsed permit)) 0) =
        .ok applied)
    (usage_eq : usage.toResourceAmountsV1 = applied.toResourceAmountsV1)
    (appended : Appended sha256 state
      { state.charged usage remaining with
        activePermits := Keyed.remove DurablePermitV1.permitId a.permitId state.activePermits
        settlements := state.settlements ++ [settlement]
        attempts := Keyed.update AttemptRecordV1.permitId a.permitId (a.settleAttempt effective)
          state.attempts
        failureLatch := settledLatch a state.failureLatch permit.reservation.requested
          (settledActual a.actual (measuredRuntime state elapsed permit)) effective }
      s' a.operationId .settle (some a.settlementId)) :
    Effect sha256 runId state elapsed (.settle a) s'
  | releaseNoEffect {operationId settlementId permitId evidenceSha256 usage remaining permit
      settlement s'}
    (charge : Charge state elapsed usage)
    (found : Keyed.find DurablePermitV1.permitId permitId state.activePermits = some permit)
    (reserved : permit.status = .reserved)
    (settlement_eq : settlement.settlementId = settlementId ∧ settlement.permitId = permitId ∧
      settlement.operationId = operationId)
    (appended : Appended sha256 state
      { state.charged usage remaining with
        activePermits := Keyed.remove DurablePermitV1.permitId permitId state.activePermits
        settlements := state.settlements ++ [settlement]
        attempts := Keyed.update AttemptRecordV1.permitId permitId
          (fun item => { item with
            status := .cancelled, effectEvidenceSha256 := some evidenceSha256 }) state.attempts }
      s' operationId .releaseNoEffect (some settlementId)) :
    Effect sha256 runId state elapsed
      (.releaseNoEffect operationId settlementId permitId evidenceSha256) s'
  | requestCancellation {operationId permitId usage remaining cancellation s'}
    (charge : Charge state elapsed usage)
    (unrequested : ∀ c ∈ Keyed.find DurableCancellationV1.permitId permitId state.cancellations,
      c.state = .notRequested)
    (cancellation_eq : cancellation.permitId = permitId ∧ cancellation.state = .requested)
    (appended : Appended sha256 state
      { state.charged usage remaining with
        cancellations := Keyed.remove DurableCancellationV1.permitId permitId
          state.cancellations ++ [cancellation] }
      s' operationId .requestCancel (some permitId)) :
    Effect sha256 runId state elapsed (.requestCancellation operationId permitId) s'
  | recordCancellation {a usage remaining previous cancellation s'}
    (charge : Charge state elapsed usage)
    (found : Keyed.find DurableCancellationV1.permitId a.permitId state.cancellations =
      some previous)
    (allowed : transitionAllowed a previous)
    (cancellation_eq : cancellation.permitId = a.permitId ∧ cancellation.state = a.stateValue ∧
      cancellation.workerLive = a.workerLive)
    (appended : Appended sha256 state
      { state.charged usage remaining with
        cancellations := Keyed.remove DurableCancellationV1.permitId a.permitId
          state.cancellations ++ [cancellation]
        failureLatch := cancellationLatch a state.failureLatch
        attempts := a.attempts state.attempts }
      s' a.operationId .acknowledgeCancel (some a.permitId)) :
    Effect sha256 runId state elapsed (.recordCancellation a) s'
  | tightenPolicy {operationId newPolicy reasonSha256 usage remaining policySha activationSha s'}
    (charge : Charge state elapsed usage)
    (latch : state.failureLatch = none)
    (changed : newPolicy ≠ state.policy)
    (tightening : isPolicyTightening state.policy newPolicy)
    (within : ∀ r, tighteningObserved usage state.activePermits r ≤ policyLimit newPolicy r)
    (appended : Appended sha256 state
      { state.charged usage remaining with
        policy := newPolicy, policySha256 := policySha, activationSha256 := activationSha }
      s' operationId .tightenPolicy (some runId)) :
    Effect sha256 runId state elapsed (.tightenPolicy operationId newPolicy reasonSha256) s'

/-! ## Every successor is an effect -/

variable {operationId permitId : String}

theorem admitReservation_ok {reservation : ResourceReservationV1}
    (h : admitReservation sha256 state reservation operationId = .ok ()) :
    state.failureLatch = none ∧
      ∀ r, admissionObserved state reservation.requested r ≤ policyLimit state.policy r := by
  unfold admitReservation at h
  simp only [ensure_bind_eq_ok, forM_eq_ok, ensure_eq_ok] at h
  exact ⟨h.1, fun r => h.2.2.2 r (mem_resourceOrder r)⟩

theorem reserve_effect {reservation : ResourceReservationV1} {lineage : ExecutionLineageV1}
    {policySha activationSha : Option String}
    (h : (reserve sha256 operationId permitId reservation lineage policySha activationSha).successor
      state elapsed = .ok s') :
    Effect sha256 runId state elapsed
      (.reserve operationId permitId reservation lineage policySha activationSha) s' := by
  simp only [reserve, ensure_bind_eq_ok] at h
  obtain ⟨_, h⟩ := h
  rw [bind_eq_ok] at h
  obtain ⟨⟨usage, remaining⟩, hcharge, h⟩ := h
  simp only [bind_eq_ok, valid_eq_ok, validated_eq_ok, ensure_eq_ok] at h
  obtain ⟨_, ⟨_, rfl⟩, _, hadmit, _, _, _, hfresh, _, _, _, _, happend⟩ := h
  obtain ⟨hlatch, hlimits⟩ := admitReservation_ok hadmit
  exact .reserve (chargeActiveRuntime_ok hcharge) hlatch hlimits hfresh ⟨rfl, rfl⟩ ⟨rfl, rfl⟩
    (appendOperation_ok happend)

theorem start_effect (h : (start sha256 operationId permitId).successor state elapsed = .ok s') :
    Effect sha256 runId state elapsed (.start operationId permitId) s' := by
  simp only [start, bind_eq_ok] at h
  obtain ⟨⟨usage, remaining⟩, hcharge, h⟩ := h
  simp only at h
  split at h
  · exact absurd h raise_ne_ok
  · next permit hfind =>
    simp only [bind_eq_ok, ensure_eq_ok, valid_eq_ok, exists_const] at h
    obtain ⟨hreserved, hcancel, _, _, happend⟩ := h
    refine .start (chargeActiveRuntime_ok hcharge) hfind hreserved hcancel ?_
      (appendOperation_ok happend)
    exact ⟨(Keyed.find_mem hfind).2, rfl, rfl⟩

theorem admitSettlement_ok {a : SettleArgs} {permit : DurablePermitV1}
    (h : admitSettlement a state permit = .ok ()) :
    permit.status = .started ∧ a.status ≠ .releasedNoEffect ∧ admitCancellation a
      (Keyed.find DurableCancellationV1.permitId a.permitId state.cancellations) = .ok () := by
  unfold admitSettlement at h
  simp only [bind_eq_ok, ensure_eq_ok, exists_const] at h
  obtain ⟨hstarted, hstatus, _, _, _, _, hcancel, _⟩ := h
  exact ⟨hstarted, hstatus, hcancel⟩

theorem settle_effect {a : SettleArgs} (h : (settle sha256 a).successor state elapsed = .ok s') :
    Effect sha256 runId state elapsed (.settle a) s' := by
  simp only [settle] at h
  split at h
  · exact absurd h raise_ne_ok
  · next permit hfind =>
    simp only [bind_eq_ok, valid_eq_ok] at h
    obtain ⟨_, hadmit, ⟨charged, remaining⟩, hcharge, _, _, _, _, applied, happlied, _, _, _, _, _,
      _, happend⟩ := h
    obtain ⟨hstarted, hstatus, hcancel⟩ := admitSettlement_ok hadmit
    have hc := chargeActiveRuntime_ok hcharge
    have hruntime : charged.activeRuntimeNs - permit.reservedActiveRuntimeNs =
        measuredRuntime state elapsed permit := by
      rw [hc.runtime, measuredRuntime]
    simp only [hruntime] at happlied happend
    refine .settle hc hfind hstarted hstatus hcancel rfl ?_ happlied ?_
      (appendOperation_ok happend)
    · exact ⟨rfl, rfl, rfl⟩
    · rfl

theorem releaseNoEffect_effect {settlementId evidence : String}
    (h : (releaseNoEffect sha256 operationId settlementId permitId evidence).successor
      state elapsed = .ok s') :
    Effect sha256 runId state elapsed
      (.releaseNoEffect operationId settlementId permitId evidence) s' := by
  simp only [releaseNoEffect, bind_eq_ok] at h
  obtain ⟨⟨usage, remaining⟩, hcharge, h⟩ := h
  simp only at h
  split at h
  · exact absurd h raise_ne_ok
  · next permit hfind =>
    simp only [bind_eq_ok, ensure_eq_ok, valid_eq_ok, exists_const] at h
    obtain ⟨hreserved, _, _, _, _, happend⟩ := h
    exact .releaseNoEffect (chargeActiveRuntime_ok hcharge) hfind hreserved ⟨rfl, rfl, rfl⟩
      (appendOperation_ok happend)

theorem requestCancellation_effect
    (h : (requestCancellation sha256 operationId permitId).successor state elapsed = .ok s') :
    Effect sha256 runId state elapsed (.requestCancellation operationId permitId) s' := by
  simp only [requestCancellation, bind_eq_ok] at h
  obtain ⟨⟨usage, remaining⟩, hcharge, h⟩ := h
  simp only [ensure_eq_ok, valid_eq_ok, exists_const] at h
  obtain ⟨_, hprevious, _, _, happend⟩ := h
  exact .requestCancellation (chargeActiveRuntime_ok hcharge) hprevious ⟨rfl, rfl⟩
    (appendOperation_ok happend)

theorem recordCancellation_effect {a : CancellationArgs}
    (h : (recordCancellation sha256 a).successor state elapsed = .ok s') :
    Effect sha256 runId state elapsed (.recordCancellation a) s' := by
  simp only [recordCancellation, bind_eq_ok] at h
  obtain ⟨⟨usage, remaining⟩, hcharge, h⟩ := h
  simp only at h
  split at h
  · exact absurd h raise_ne_ok
  · next previous hfind =>
    simp only [bind_eq_ok, ensure_eq_ok, valid_eq_ok, exists_const] at h
    obtain ⟨hallowed, _, _, _, _, _, _, _, happend⟩ := h
    exact .recordCancellation (chargeActiveRuntime_ok hcharge) hfind hallowed ⟨rfl, rfl, rfl⟩
      (appendOperation_ok happend)

theorem tightenPolicy_effect {newPolicy : DurableBudgetPolicyV1} {reason : String}
    (h : (tightenPolicy sha256 runId operationId newPolicy reason).successor state elapsed =
      .ok s') :
    Effect sha256 runId state elapsed (.tightenPolicy operationId newPolicy reason) s' := by
  simp only [tightenPolicy, bind_eq_ok] at h
  obtain ⟨⟨usage, _⟩, hcharge, h⟩ := h
  simp only [ensure_eq_ok, forM_eq_ok, valid_eq_ok, exists_const] at h
  obtain ⟨⟨hlatch, hchanged, htight⟩, hlimits, happend⟩ := h
  exact .tightenPolicy (chargeActiveRuntime_ok hcharge) hlatch hchanged htight
    (fun r => hlimits r (mem_resourceOrder r)) (appendOperation_ok happend)

def Call.isCreate : Call → Bool
  | .create .. => true
  | _ => false

/-- The mutations compute nothing but effects. -/
theorem mutation_effect {c : Call} (hc : c.isCreate = false)
    (h : (c.mutation sha256 runId).successor state elapsed = .ok s') :
    Effect sha256 runId state elapsed c s' := by
  cases c with
  | create => cases hc
  | reserve => exact reserve_effect h
  | start => exact start_effect h
  | settle => exact settle_effect h
  | releaseNoEffect => exact releaseNoEffect_effect h
  | requestCancellation => exact requestCancellation_effect h
  | recordCancellation => exact recordCancellation_effect h
  | tightenPolicy => exact tightenPolicy_effect h

/-! ## What every effect does -/

section Every

variable {c : Call}

theorem settled_get {a : SettleArgs} {runtime : Nat} {charged applied : DurableUsageV1}
    (happlied : charged.applyActual (settledActual (settledActual a.actual runtime) 0) =
      .ok applied) {r : Resource} (hr : r ≠ .activeRuntimeNs) :
    applied.get r = appliedValue charged.toResourceAmountsV1 a.actual r := by
  have hget : (settledActual (settledActual a.actual runtime) 0).get r = a.actual.get r := by
    unfold settledActual
    rw [ResourceAmountsV1.get_setRuntime, ResourceAmountsV1.get_setRuntime, if_neg hr, if_neg hr]
  rw [applyActual_get happlied r, appliedValue, appliedValue, hget]

/-- An effect is a valid state of the same run, its runtime is charged and no
slot is ever accounted as used. -/
theorem Effect.common (h : Effect sha256 runId state elapsed c s') :
    s'.validateSnapshot sha256 = .ok () ∧ s'.runId = state.runId ∧
      s'.usage.activeRuntimeNs = state.usage.activeRuntimeNs + elapsed ∧
      s'.usage.concurrencySlots = 0 := by
  cases h with
  | settle charge _ _ _ _ _ _ applied_eq usage_eq appended =>
    obtain ⟨hv, _, _, _, _, _, _, rfl⟩ := appended
    refine ⟨hv, rfl, ?_, ?_⟩
    · have hruntime := applyActual_runtime applied_eq
      rw [← usage_eq, charge.runtime] at hruntime
      exact hruntime
    · have hslots := applyActual_slots applied_eq
      rw [← usage_eq] at hslots
      exact hslots
  | reserve charge _ _ _ _ _ appended | start charge _ _ _ _ appended
  | releaseNoEffect charge _ _ _ appended | requestCancellation charge _ _ appended
  | recordCancellation charge _ _ _ appended | tightenPolicy charge _ _ _ _ appended =>
    obtain ⟨hv, _, _, _, _, _, _, rfl⟩ := appended
    exact ⟨hv, rfl, charge.runtime, charge.slots⟩

theorem Effect.valid (h : Effect sha256 runId state elapsed c s') :
    s'.validateSnapshot sha256 = .ok () := h.common.1

theorem Effect.runId_eq (h : Effect sha256 runId state elapsed c s') : s'.runId = state.runId :=
  h.common.2.1

theorem Effect.runtime (h : Effect sha256 runId state elapsed c s') :
    s'.usage.activeRuntimeNs = state.usage.activeRuntimeNs + elapsed := h.common.2.2.1

theorem Effect.slots (h : Effect sha256 runId state elapsed c s') :
    s'.usage.concurrencySlots = 0 := h.common.2.2.2

/-- The effect usage never decreases, and only a settlement changes it. -/
theorem Effect.usage (h : Effect sha256 runId state elapsed c s') {r : Resource}
    (hr : r ≠ .activeRuntimeNs) (hs : r ≠ .concurrencySlots) :
    state.usage.get r ≤ s'.usage.get r ∧
      ((∀ a, c ≠ .settle a) → s'.usage.get r = state.usage.get r) := by
  cases h with
  | @settle a _ charged _ applied usage _ _ _ charge _ _ _ _ _ _ applied_eq usage_eq appended =>
    obtain ⟨_, _, _, _, _, _, _, rfl⟩ := appended
    refine ⟨?_, fun hno => absurd rfl (hno a)⟩
    show state.usage.get r ≤ usage.get r
    rw [usage_eq, settled_get applied_eq hr, ← charge.effects r hr hs]
    unfold appliedValue
    rw [if_neg hs]
    split
    · exact Nat.le_add_right _ _
    · exact Nat.le_max_left _ _
  | reserve charge _ _ _ _ _ appended | start charge _ _ _ _ appended
  | releaseNoEffect charge _ _ _ appended | requestCancellation charge _ _ appended
  | recordCancellation charge _ _ _ appended | tightenPolicy charge _ _ _ _ appended =>
    obtain ⟨_, _, _, _, _, _, _, rfl⟩ := appended
    exact ⟨(charge.effects r hr hs).ge, fun _ => charge.effects r hr hs⟩

end Every

end

end PokerDeliberation.Budgets
