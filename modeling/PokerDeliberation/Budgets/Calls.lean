import PokerDeliberation.Budgets.History

/-!
# What a call leaves in the state

`MutationOutcome` says what a mutation does with the successor it computes, and
the lemmas after it what that successor is for a reservation, a start and a
settlement, down to the records. `Logged` reads the operation log of a state
back: every operation recorded is that of a call made on the run, and what a
reservation or a settlement wrote is still there.
-/

namespace PokerDeliberation.Budgets

open Lib

section

variable {sha256 : Payload → String} {runId : String} {store : DurableBudgetStore}
variable {state updated s' : DurableBudgetStateV1} {elapsed : Nat} {m : Mutation} {env : Environment}

/-! ## Replays and successors -/

/-- The operation of `m` is in the log of the state. -/
def Recorded (state : DurableBudgetStateV1) (m : Mutation) : Prop :=
  ∃ record, Keyed.find IdempotencyRecordV1.operationId m.operationId state.operations = some record ∧
    record.kind = m.kind ∧ record.requestSha256 = m.requestSha256

theorem existingOperation_recorded {replay : DurableMutationResultV1}
    (h : existingOperation state m = .ok (some replay)) :
    Recorded state m ∧ replay.status = .exactReplay ∧ replay.state = state := by
  unfold existingOperation at h
  split at h
  · cases h
  · next record hfind =>
    simp only [bind_eq_ok, ensure_eq_ok, pure_eq_ok, Option.some.injEq, exists_const] at h
    obtain ⟨⟨hkind, hrequest⟩, rfl⟩ := h
    exact ⟨⟨record, hfind, hkind, hrequest⟩, rfl, rfl⟩

/-- No operation has the identity of `m`. -/
def Unrecorded (state : DurableBudgetStateV1) (m : Mutation) : Prop :=
  Keyed.find IdempotencyRecordV1.operationId m.operationId state.operations = none

theorem existingOperation_none (h : existingOperation state m = .ok none) :
    Unrecorded state m := by
  unfold existingOperation at h
  split at h
  · assumption
  · simp only [bind_eq_ok, pure_eq_ok, reduceCtorEq, and_false, exists_false] at h

theorem Recorded.existing (h : Recorded state m) :
    ∃ replay, existingOperation state m = .ok (some replay) ∧ replay.status = .exactReplay ∧
      replay.state = state := by
  obtain ⟨record, hfind, hkind, hrequest⟩ := h
  unfold existingOperation
  rw [hfind]
  exact ⟨_, bind_eq_ok.2 ⟨(), ensure_eq_ok.2 ⟨hkind, hrequest⟩, rfl⟩, rfl, rfl⟩

/-- What a mutation does with the state it loads. -/
inductive MutationOutcome (sha256 : Payload → String) (runId : String) (store : DurableBudgetStore)
    (m : Mutation) (env : Environment) (after : DurableBudgetStore) :
    Except StoreError DurableMutationResultV1 → Prop where
  | refused {e} (same : after.revisions = store.revisions) :
    MutationOutcome sha256 runId store m env after (.error e)
  | replayed {state rest r} (current : store.revisions = ⟨state.generation, state⟩ :: rest)
    (recorded : Recorded state m) (returned : r.status = .exactReplay ∧ r.state = state)
    (same : after.revisions = store.revisions)
    (settled : ∀ l, store.clock.last = some l → store.clock.reconciliationRequired = false →
      after.clock.last = some l ∧ after.clock.reconciliationRequired = false) :
    MutationOutcome sha256 runId store m env after (.ok r)
  | applied {state rest r s'} {observed : Nat}
    (current : store.revisions = ⟨state.generation, state⟩ :: rest)
    (unrecorded : Unrecorded state m)
    (reading : env.clock = some (observed : Int)) (later : ∀ l ∈ store.clock.last, l ≤ observed)
    (successor : m.successor state (observed - store.clock.last.getD observed) = .ok s')
    (returned : r.status = .applied ∧ r.state = s')
    (committed : after = ⟨{ last := some observed }, ⟨s'.generation, s'⟩ :: store.revisions⟩) :
    MutationOutcome sha256 runId store m env after (.ok r)
  | uncertain {state rest e s'} {n : Nat}
    (current : store.revisions = ⟨state.generation, state⟩ :: rest)
    (successor : m.successor state n = .ok s')
    (grown : after.revisions = ⟨s'.generation, s'⟩ :: store.revisions) :
    MutationOutcome sha256 runId store m env after (.error e)

theorem commitRevision_cases {rest : List Revision} {observed : Nat} {t : ClockTable}
    (hcurrent : store.revisions = ⟨state.generation, state⟩ :: rest)
    (hnew : Unrecorded state m) (hreading : env.clock = some (observed : Int))
    (hlater : ∀ l ∈ store.clock.last, l ≤ observed)
    (hsuccessor : m.successor state (observed - store.clock.last.getD observed) = .ok s') :
    let out := ({ store with clock := t } : DurableBudgetStore).commitRevision s' m observed
      env.publishFault
    MutationOutcome sha256 runId store m env out.1 out.2 := by
  unfold DurableBudgetStore.commitRevision
  split
  · next code landed _ =>
    obtain ⟨e, he⟩ : ∃ e, (raise (storageFailure code m.operationId) :
        Except StoreError DurableMutationResultV1) = .error e := by
      cases h : (raise (storageFailure code m.operationId) :
          Except StoreError DurableMutationResultV1) with
      | ok a => exact absurd h raise_ne_ok
      | error e => exact ⟨e, rfl⟩
    simp only [he]
    by_cases hlanded : (landed && code.uncertain) = true
    · exact .uncertain hcurrent hsuccessor (by simp [hlanded])
    · exact .refused (by simp [hlanded])
  · exact .applied hcurrent hnew hreading hlater hsuccessor ⟨rfl, rfl⟩ rfl

theorem replayed_settled {t : ClockTable} (ht : t.last = store.clock.last)
    (hr : t.reconciliationRequired = store.clock.reconciliationRequired) (l : Nat)
    (hl : store.clock.last = some l) (hq : store.clock.reconciliationRequired = false) :
    t.replayed.last = some l ∧ t.replayed.reconciliationRequired = false := by
  have hquiet : ¬ (t.last = none ∨ t.reconciliationRequired = true) := by
    simp [ht, hr, hl, hq]
  rw [ClockTable.replayed, if_neg hquiet]
  exact ⟨ht.trans hl, hr.trans hq⟩

/-- Every mutation has one of these outcomes. -/
theorem mutate_cases (store : DurableBudgetStore) (m : Mutation) (env : Environment) :
    let out := store.mutate sha256 runId m env
    MutationOutcome sha256 runId store m env out.1 out.2 := by
  unfold DurableBudgetStore.mutate
  split
  · exact .refused rfl
  · next observed elapsed t hobserve =>
    obtain ⟨hreading, rfl, hlater, ht⟩ := observeMonotonic_ok hobserve
    have hlast : t.last = store.clock.last := by rw [ht]
    have hrec : t.reconciliationRequired = store.clock.reconciliationRequired := by rw [ht]
    simp only
    split
    · refine .refused ?_
      cases env.loadFault with
      | none => rfl
      | some code => exact afterStorageError_revisions
    · next state hload =>
      obtain ⟨_, _, rest, hcurrent⟩ := load_ok hload
      split
      · exact .refused rfl
      · next replay hexisting =>
        obtain ⟨_, _, hreplay⟩ := bind_eq_ok.1 hexisting
        obtain ⟨hrecorded, hreturned⟩ := existingOperation_recorded hreplay
        exact .replayed hcurrent hrecorded hreturned rfl (replayed_settled hlast hrec)
      · next hexisting =>
        obtain ⟨_, _, hnone⟩ := bind_eq_ok.1 hexisting
        split
        · exact .refused rfl
        · next s' hsuccessor =>
          have hpublish : (⟨t, store.revisions⟩ : DurableBudgetStore).revisions =
              ⟨state.generation, state⟩ :: rest := hcurrent
          rw [publish_current hpublish]
          exact commitRevision_cases hcurrent (existingOperation_none hnone) hreading hlater
            hsuccessor

/-! ## The successor of a mutation -/

/-- The operation a mutation appends. -/
def Logs (state s' : DurableBudgetStateV1) (m : Mutation) : Prop :=
  ∃ record : IdempotencyRecordV1, s'.operations = state.operations ++ [record] ∧
    record.operationId = m.operationId ∧ record.kind = m.kind ∧
    record.requestSha256 = m.requestSha256

/-- `s'` is `updated` with one more operation, that of the given identity. -/
structure Extended (sha256 : Payload → String) (state updated s' : DurableBudgetStateV1)
    (operationId : String) (kind : OperationKind) (requestSha256 : String) : Prop where
  valid : s'.validateSnapshot sha256 = .ok ()
  log : ∃ record : IdempotencyRecordV1, s'.operations = state.operations ++ [record] ∧
    record.operationId = operationId ∧ record.kind = kind ∧ record.requestSha256 = requestSha256
  policy : s'.policy = updated.policy
  usage : s'.usage = updated.usage
  permits : s'.activePermits = updated.activePermits
  settlements : s'.settlements = updated.settlements
  attempts : s'.attempts = updated.attempts

theorem appendOperation_extended {operationId requestSha256 : String} {kind : OperationKind}
    {subjectId : Option String} {payload : Payload}
    (h : appendOperation sha256 state updated operationId kind requestSha256 subjectId payload =
      .ok s') : Extended sha256 state updated s' operationId kind requestSha256 := by
  unfold appendOperation at h
  simp only [bind_eq_ok, validated_eq_ok] at h
  obtain ⟨_, _, _, _, hv, rfl⟩ := h
  exact ⟨hv, ⟨_, rfl, rfl, rfl, rfl⟩, rfl, rfl, rfl, rfl, rfl⟩

variable {operationId permitId : String}

/-- What a reservation adds. -/
structure ReserveStep (state s' : DurableBudgetStateV1) (elapsed : Nat) (permitId : String)
    (reservation : ResourceReservationV1) (lineage : ExecutionLineageV1) : Prop where
  fresh : permitId ∉
    state.activePermits.map (·.permitId) ++ state.settlements.map (·.permitId)
  policy : s'.policy = state.policy
  runtime : s'.usage.activeRuntimeNs = state.usage.activeRuntimeNs + elapsed
  permits : s'.activePermits = state.activePermits ++
    [{ permitId, reservation, lineage, reservedActiveRuntimeNs := s'.usage.activeRuntimeNs }]
  settlements : s'.settlements = state.settlements
  attempts : s'.attempts = state.attempts ++ [{ permitId, lineage, status := .reserved }]

theorem reserve_step {reservation : ResourceReservationV1} {lineage : ExecutionLineageV1}
    {policySha activationSha : Option String}
    (h : (reserve sha256 operationId permitId reservation lineage policySha activationSha).successor
      state elapsed = .ok s') :
    s'.validateSnapshot sha256 = .ok () ∧
      Logs state s' (reserve sha256 operationId permitId reservation lineage policySha
        activationSha) ∧
      ReserveStep state s' elapsed permitId reservation lineage := by
  simp only [reserve, ensure_bind_eq_ok] at h
  obtain ⟨_, h⟩ := h
  rw [bind_eq_ok] at h
  obtain ⟨⟨usage, remaining⟩, hcharge, h⟩ := h
  simp only [bind_eq_ok, valid_eq_ok, validated_eq_ok, ensure_eq_ok] at h
  obtain ⟨_, ⟨_, rfl⟩, _, _, _, _, _, hfresh, _, _, _, _, happend⟩ := h
  have he := appendOperation_extended happend
  have hruntime := (chargeActiveRuntime_ok hcharge).runtime
  have husage : s'.usage = usage := he.usage
  refine ⟨he.valid, he.log, hfresh, he.policy, ?_, ?_, he.settlements, he.attempts⟩
  · rw [husage, hruntime]
  · rw [he.permits, husage]

/-- What a start changes. -/
structure StartStep (state s' : DurableBudgetStateV1) (elapsed : Nat) (permitId : String) : Prop where
  found : ∃ permit ∈ state.activePermits, permit.permitId = permitId
  policy : s'.policy = state.policy
  runtime : s'.usage.activeRuntimeNs = state.usage.activeRuntimeNs + elapsed
  permits : ∀ p ∈ state.activePermits, ∃ q ∈ s'.activePermits, q.permitId = p.permitId ∧
    q.reservation = p.reservation ∧ q.reservedActiveRuntimeNs = p.reservedActiveRuntimeNs
  permitIds : s'.activePermits.map (·.permitId) = state.activePermits.map (·.permitId)
  settlements : s'.settlements = state.settlements
  attempts : s'.attempts = Keyed.update AttemptRecordV1.permitId permitId
    (fun a => { a with status := .started }) state.attempts

theorem start_step (hd : Keyed.Distinct DurablePermitV1.permitId state.activePermits)
    (h : (start sha256 operationId permitId).successor state elapsed = .ok s') :
    s'.validateSnapshot sha256 = .ok () ∧ Logs state s' (start sha256 operationId permitId) ∧
      StartStep state s' elapsed permitId := by
  simp only [start, bind_eq_ok] at h
  obtain ⟨⟨usage, remaining⟩, hcharge, h⟩ := h
  simp only at h
  split at h
  · exact absurd h raise_ne_ok
  · next permit hfind =>
    simp only [bind_eq_ok, ensure_eq_ok, valid_eq_ok, exists_const] at h
    obtain ⟨_, _, _, _, happend⟩ := h
    have he := appendOperation_extended happend
    obtain ⟨hmem, rfl⟩ := Keyed.find_mem hfind
    refine ⟨he.valid, he.log, ⟨permit, hmem, rfl⟩, he.policy, ?_, ?_, ?_, he.settlements,
      he.attempts⟩
    · rw [he.usage]
      exact (chargeActiveRuntime_ok hcharge).runtime
    · intro p hp
      rw [he.permits]
      by_cases hk : p.permitId = permit.permitId
      · obtain rfl := hd.eq hp hmem hk
        exact ⟨_, Keyed.update_self hp rfl, rfl, rfl, rfl⟩
      · exact ⟨p, Keyed.update_of_ne hp hk, rfl, rfl, rfl⟩
    · rw [he.permits]
      exact Keyed.map_update fun x _ hx => hx.symm

/-- What a settlement adds and changes; `measured` is the runtime it measures. -/
structure SettleStep (state s' : DurableBudgetStateV1) (elapsed : Nat) (a : SettleArgs)
    (permit : DurablePermitV1) : Prop where
  found : permit ∈ state.activePermits ∧ permit.permitId = a.permitId
  policy : s'.policy = state.policy
  runtime : s'.usage.activeRuntimeNs = state.usage.activeRuntimeNs + elapsed
  permits : s'.activePermits =
    Keyed.remove DurablePermitV1.permitId a.permitId state.activePermits
  settlements : ∃ settlement : DurableSettlementV1,
    s'.settlements = state.settlements ++ [settlement] ∧
      settlement.settlementId = a.settlementId ∧ settlement.permitId = a.permitId ∧
      settlement.resultSha256 = a.resultSha256 ∧
      settlement.effectEvidenceSha256 = a.effectEvidenceSha256 ∧
      settlement.status = effectiveStatus permit.reservation.requested
        (settledActual a.actual (measuredRuntime state elapsed permit)) a.status
  attempts : ∃ effective, s'.attempts = Keyed.update AttemptRecordV1.permitId a.permitId
    (a.settleAttempt effective) state.attempts

theorem settle_step {a : SettleArgs} (h : (settle sha256 a).successor state elapsed = .ok s') :
    s'.validateSnapshot sha256 = .ok () ∧ Logs state s' (settle sha256 a) ∧
      ∃ permit, SettleStep state s' elapsed a permit := by
  simp only [settle] at h
  split at h
  · exact absurd h raise_ne_ok
  · next permit hfind =>
    simp only [bind_eq_ok, valid_eq_ok] at h
    obtain ⟨_, _, ⟨charged, remaining⟩, hcharge, _, _, _, _, applied, happlied, _, _, _, _, _,
      _, happend⟩ := h
    have hc := chargeActiveRuntime_ok hcharge
    have hruntime : charged.activeRuntimeNs - permit.reservedActiveRuntimeNs =
        measuredRuntime state elapsed permit := by
      rw [hc.runtime, measuredRuntime]
    simp only [hruntime] at happlied happend
    have he := appendOperation_extended happend
    refine ⟨he.valid, he.log, permit, Keyed.find_mem hfind, he.policy, ?_, he.permits, ?_,
      ⟨_, he.attempts⟩⟩
    · rw [he.usage]
      show applied.activeRuntimeNs = _
      rw [applyActual_runtime happlied, hc.runtime]
      rfl
    · exact ⟨_, he.settlements, rfl, rfl, rfl, rfl, rfl⟩

/-! ## Reading the operation log back -/

/-- The value whose digest identifies the request of a call. -/
def Call.request (runId : String) : Call → Payload
  | .create policy _ => .initializeRequest runId policy
  | .reserve _ permitId reservation lineage policySha activationSha =>
    .reserveRequest permitId reservation lineage
      (if policySha ≠ none ∨ activationSha ≠ none then some (policySha, activationSha) else none)
  | .start _ permitId => .startRequest permitId
  | .settle a => .settleRequest a.settlementId a.permitId a.actual a.status a.resultSha256
    a.effectEvidenceSha256 a.cancellationEvidenceSha256 a.failureCategory
    a.deterministicToolEvidence a.externalCostActualAuthenticated a.observedPeakConcurrency
  | .releaseNoEffect _ settlementId permitId evidence =>
    .releaseRequest settlementId permitId evidence
  | .requestCancellation _ permitId => .cancelRequest permitId
  | .recordCancellation a =>
    .acknowledgeRequest a.permitId a.stateValue a.evidenceSha256 a.workerLive
  | .tightenPolicy _ newPolicy reason => .tightenRequest newPolicy reason

theorem mutation_request (c : Call) :
    (c.mutation sha256 runId).requestSha256 = sha256 (c.request runId) := by
  cases c <;> rfl

/-- SHA-256 tells the requests of these calls apart. -/
def CollisionFree (sha256 : Payload → String) (runId : String) (calls : List Call) : Prop :=
  ∀ c ∈ calls, ∀ c' ∈ calls,
    sha256 (c.request runId) = sha256 (c'.request runId) → c.request runId = c'.request runId

/-- What a reservation or a settlement that returned has left in the state. -/
def Reflected (s : DurableBudgetStateV1) : Call → Prop
  | .reserve _ permitId _ lineage _ _ => ∃ t ∈ s.attempts, t.permitId = permitId ∧ t.lineage = lineage
  | .settle a => a.permitId ∈ s.settlements.map (·.permitId)
  | _ => True

/-- Every reservation and settlement in the operation log is that of a call. -/
def Logged (sha256 : Payload → String) (runId : String) (calls : List Call)
    (s : DurableBudgetStateV1) : Prop :=
  ∀ record ∈ s.operations, record.kind = .reserve ∨ record.kind = .settle →
    ∃ c ∈ calls, (c.mutation sha256 runId).kind = record.kind ∧
      sha256 (c.request runId) = record.requestSha256 ∧ Reflected s c

/-- What no effect takes away. -/
structure Keeps (s s' : DurableBudgetStateV1) : Prop where
  attempts : ∀ t ∈ s.attempts, ∃ t' ∈ s'.attempts, t'.permitId = t.permitId ∧ t'.lineage = t.lineage
  settlements : ∀ x ∈ s.settlements, x ∈ s'.settlements

theorem keeps_update {f : AttemptRecordV1 → AttemptRecordV1} {attempts : List AttemptRecordV1}
    (hf : ∀ t, (f t).permitId = t.permitId ∧ (f t).lineage = t.lineage) :
    ∀ t ∈ attempts, ∃ t' ∈ Keyed.update AttemptRecordV1.permitId permitId f attempts,
      t'.permitId = t.permitId ∧ t'.lineage = t.lineage := by
  intro t ht
  by_cases hk : t.permitId = permitId
  · exact ⟨f t, Keyed.update_self ht hk, hf t⟩
  · exact ⟨t, Keyed.update_of_ne ht hk, rfl, rfl⟩

theorem Effect.keeps {c : Call} (h : Effect sha256 runId state elapsed c s') : Keeps state s' := by
  have hself : ∀ t ∈ state.attempts, ∃ t' ∈ state.attempts,
      t'.permitId = t.permitId ∧ t'.lineage = t.lineage := fun t ht => ⟨t, ht, rfl, rfl⟩
  cases h with
  | reserve _ _ _ _ _ _ appended =>
    obtain ⟨_, _, _, _, _, _, _, rfl⟩ := appended
    exact ⟨fun t ht => ⟨t, List.mem_append_left _ ht, rfl, rfl⟩, fun _ hx => hx⟩
  | start _ _ _ _ _ appended =>
    obtain ⟨_, _, _, _, _, _, _, rfl⟩ := appended
    exact ⟨keeps_update fun _ => ⟨rfl, rfl⟩, fun _ hx => hx⟩
  | settle _ _ _ _ _ _ _ _ _ appended =>
    obtain ⟨_, _, _, _, _, _, _, rfl⟩ := appended
    exact ⟨keeps_update fun _ => ⟨rfl, rfl⟩, fun _ hx => List.mem_append_left _ hx⟩
  | releaseNoEffect _ _ _ _ appended =>
    obtain ⟨_, _, _, _, _, _, _, rfl⟩ := appended
    exact ⟨keeps_update fun _ => ⟨rfl, rfl⟩, fun _ hx => List.mem_append_left _ hx⟩
  | @recordCancellation a _ _ _ _ _ _ _ _ _ appended =>
    obtain ⟨_, _, _, _, _, _, _, rfl⟩ := appended
    refine ⟨?_, fun _ hx => hx⟩
    show ∀ t ∈ state.attempts, ∃ t' ∈ a.attempts state.attempts, _
    unfold CancellationArgs.attempts
    split
    · exact keeps_update fun _ => ⟨rfl, rfl⟩
    · exact hself
  | requestCancellation _ _ _ appended | tightenPolicy _ _ _ _ _ appended =>
    obtain ⟨_, _, _, _, _, _, _, rfl⟩ := appended
    exact ⟨hself, fun _ hx => hx⟩

theorem Reflected.mono {c : Call} (hk : Keeps state s') (h : Reflected state c) :
    Reflected s' c := by
  cases c with
  | reserve =>
    obtain ⟨t, ht, rfl, rfl⟩ := h
    exact hk.attempts t ht
  | settle a =>
    obtain ⟨x, hx, hid⟩ := List.mem_map.1 h
    exact List.mem_map.2 ⟨x, hk.settlements x hx, hid⟩
  | create | start | releaseNoEffect | requestCancellation | recordCancellation | tightenPolicy =>
    trivial

/-- What a call writes is reflected, and only a reservation or a settlement logs one. -/
theorem successor_logs {c : Call} (hc : c.isCreate = false)
    (h : (c.mutation sha256 runId).successor state elapsed = .ok s') :
    Reflected s' c ∧ ∃ record : IdempotencyRecordV1, s'.operations = state.operations ++ [record] ∧
      record.kind = (c.mutation sha256 runId).kind ∧
      (record.kind = .reserve ∨ record.kind = .settle →
        record.requestSha256 = sha256 (c.request runId)) := by
  cases c with
  | create => cases hc
  | reserve =>
    obtain ⟨_, ⟨record, hops, _, hkind, hrequest⟩, hstep⟩ := reserve_step h
    refine ⟨?_, record, hops, hkind, fun _ => hrequest⟩
    show ∃ t ∈ s'.attempts, _
    rw [hstep.attempts]
    exact ⟨_, List.mem_append_right _ List.mem_cons_self, rfl, rfl⟩
  | settle a =>
    obtain ⟨_, ⟨record, hops, _, hkind, hrequest⟩, permit, hstep⟩ := settle_step h
    obtain ⟨settlement, hsettlements, _, hid, _⟩ := hstep.settlements
    refine ⟨?_, record, hops, hkind, fun _ => hrequest⟩
    show a.permitId ∈ s'.settlements.map _
    rw [hsettlements]
    exact List.mem_map.2 ⟨settlement, List.mem_append_right _ List.mem_cons_self, hid⟩
  | start =>
    have he : Effect sha256 runId state elapsed (.start _ _) s' := start_effect h
    cases he with
    | start _ _ _ _ _ appended =>
      obtain ⟨_, record, _, _, hkind, _, _, rfl⟩ := appended
      exact ⟨trivial, record, rfl, hkind, by simp [hkind]⟩
  | releaseNoEffect =>
    have he : Effect sha256 runId state elapsed (.releaseNoEffect _ _ _ _) s' := releaseNoEffect_effect h
    cases he with
    | releaseNoEffect _ _ _ _ appended =>
      obtain ⟨_, record, _, _, hkind, _, _, rfl⟩ := appended
      exact ⟨trivial, record, rfl, hkind, by simp [hkind]⟩
  | requestCancellation =>
    have he : Effect sha256 runId state elapsed (.requestCancellation _ _) s' := requestCancellation_effect h
    cases he with
    | requestCancellation _ _ _ appended =>
      obtain ⟨_, record, _, _, hkind, _, _, rfl⟩ := appended
      exact ⟨trivial, record, rfl, hkind, by simp [hkind]⟩
  | recordCancellation =>
    have he : Effect sha256 runId state elapsed (.recordCancellation _) s' := recordCancellation_effect h
    cases he with
    | recordCancellation _ _ _ _ appended =>
      obtain ⟨_, record, _, _, hkind, _, _, rfl⟩ := appended
      exact ⟨trivial, record, rfl, hkind, by simp [hkind]⟩
  | tightenPolicy =>
    have he := tightenPolicy_effect h
    cases he with
    | tightenPolicy _ _ _ _ _ appended =>
      obtain ⟨_, record, _, _, hkind, _, _, rfl⟩ := appended
      exact ⟨trivial, record, rfl, hkind, by simp [hkind]⟩

/-- The step: the log after a call is that of one call more. -/
theorem Logged.next {calls : List Call} {c : Call} (hl : Logged sha256 runId calls state)
    (hc : c.isCreate = false) (h : (c.mutation sha256 runId).successor state elapsed = .ok s') :
    Logged sha256 runId (calls ++ [c]) s' := by
  obtain ⟨hreflected, record, hops, hkind, hrequest⟩ := successor_logs hc h
  have hkeeps := (mutation_effect hc h).keeps
  intro x hx hxk
  rw [hops] at hx
  rcases List.mem_append.1 hx with hx | hx
  · obtain ⟨d, hd, hdk, hdr, hdref⟩ := hl x hx hxk
    exact ⟨d, List.mem_append_left _ hd, hdk, hdr, hdref.mono hkeeps⟩
  · obtain rfl := List.mem_singleton.1 hx
    exact ⟨c, List.mem_append_right _ List.mem_cons_self, hkind.symm, (hrequest hxk).symm,
      hreflected⟩

theorem Logged.mono {calls calls' : List Call} (hl : Logged sha256 runId calls state)
    (h : ∀ c ∈ calls, c ∈ calls') : Logged sha256 runId calls' state := by
  intro x hx hxk
  obtain ⟨c, hc, hrest⟩ := hl x hx hxk
  exact ⟨c, h c hc, hrest⟩

/-- A revision a mutation commits is its successor of the current state. -/
theorem mutate_grown (h : (store.mutate sha256 runId m env).1.revisions =
    ⟨s'.generation, s'⟩ :: store.revisions) :
    ∃ entry : Revision, store.revisions.head? = some entry ∧
      ∃ n, m.successor entry.state n = .ok s' := by
  have hout : MutationOutcome sha256 runId store m env _ _ := mutate_cases store m env
  generalize (store.mutate sha256 runId m env).1 = after at h hout
  generalize (store.mutate sha256 runId m env).2 = result at hout
  cases hout with
  | refused same => exact absurd (h.symm.trans same) (List.cons_ne_self _ _)
  | replayed _ _ _ same => exact absurd (h.symm.trans same) (List.cons_ne_self _ _)
  | applied current _ _ _ successor _ committed =>
    subst committed
    simp only [List.cons.injEq, Revision.mk.injEq, and_true] at h
    rw [h.2] at successor
    exact ⟨_, by rw [current]; rfl, _, successor⟩
  | uncertain current successor grown =>
    rw [h] at grown
    simp only [List.cons.injEq, Revision.mk.injEq, and_true] at grown
    rw [← grown.2] at successor
    exact ⟨_, by rw [current]; rfl, _, successor⟩

/-- The calls of a run. -/
def actionCalls : List Action → List Call :=
  List.filterMap fun
    | .call c _ => some c
    | _ => none

theorem initialState_logged {calls : List Call} {policy : DurableBudgetPolicyV1}
    {requestSha256 : String}
    (h : initialState sha256 runId policy operationId requestSha256 = .ok s') :
    Logged sha256 runId calls s' := by
  unfold initialState at h
  simp only [bind_eq_ok, valid_eq_ok, validated_eq_ok] at h
  obtain ⟨_, _, _, _, _, rfl⟩ := h
  intro record hrecord hkind
  obtain rfl := List.mem_singleton.1 hrecord
  simp at hkind

/-- Every state a run commits has the log of the calls made. -/
theorem run_logged (actions : List Action) :
    ∀ entry ∈ (run sha256 runId actions).revisions,
      Logged sha256 runId (actionCalls actions) entry.state := by
  induction actions using List.reverseRecOn with
  | nil => simp
  | append_singleton done a ih =>
    have hmono : ∀ c ∈ actionCalls done, c ∈ actionCalls (done ++ [a]) := by
      intro c hc
      unfold actionCalls
      rw [List.filterMap_append]
      exact List.mem_append_left _ hc
    have hold : ∀ entry ∈ (run sha256 runId done).revisions,
        Logged sha256 runId (actionCalls (done ++ [a])) entry.state :=
      fun entry hentry => (ih entry hentry).mono hmono
    rw [run_append]
    rcases act_revisions (run sha256 runId done) a with hsame | ⟨s', ⟨c, env, rfl, hs⟩, hgrown⟩
    · rw [hsame]; exact hold
    · have hcalls : actionCalls (done ++ [.call c env]) = actionCalls done ++ [c] := by
        simp [actionCalls]
      rw [hgrown]
      refine List.forall_mem_cons.2 ⟨?_, hold⟩
      cases hs with
      | first _ hinitial => exact initialState_logged hinitial
      | @next _ state rest _ hcurrent _ heffect =>
        have hc : c.isCreate = false := by cases heffect <;> rfl
        have hprior := ih _ (by rw [hcurrent]; exact List.mem_cons_self)
        have hact : (run sha256 runId done).act sha256 runId (.call c env) =
            ((run sha256 runId done).mutate sha256 runId (c.mutation sha256 runId) env).1 := by
          cases c with
          | create => cases hc
          | reserve | start | settle | releaseNoEffect | requestCancellation
          | recordCancellation | tightenPolicy => rfl
        have hout := @mutate_cases sha256 runId (run sha256 runId done)
          (c.mutation sha256 runId) env
        rw [hact] at hgrown
        obtain ⟨prior, hhead, n, hsuccessor⟩ := mutate_grown hgrown
        rw [hcurrent, List.head?_cons, Option.some.injEq] at hhead
        subst hhead
        rw [hcalls]
        exact hprior.next hc hsuccessor

end

end PokerDeliberation.Budgets
