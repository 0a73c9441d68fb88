import PokerDeliberation.Budgets.Runs

/-!
# The history a run leaves

The mutations build a successor through the snapshot validator alone; the
reader also holds each adjacent pair to `validateStateSuccessor`. The two
agree on every effect but one: a settlement that records an unknown effect a
cancellation has recorded before changes nothing in the attempt, and the
reader requires a settlement to change it.
-/

namespace PokerDeliberation.Budgets

open Lib

section

variable {sha256 : Payload → String} {runId : String}
variable {state updated s' older newer : DurableBudgetStateV1} {elapsed : Nat}

/-! ## Valid snapshots -/

/-- The parts of a valid snapshot that transitions rely on. -/
structure ValidSnapshot (s : DurableBudgetStateV1) : Prop where
  permits : Keyed.Distinct DurablePermitV1.permitId s.activePermits
  attempts : Keyed.Distinct AttemptRecordV1.permitId s.attempts
  cancellations : Keyed.Distinct DurableCancellationV1.permitId s.cancellations
  status : ∀ p ∈ s.activePermits, (s.attemptOf p.permitId).map (·.status) =
    some (expectedStatus (s.cancellationOf p.permitId) p)
  cancelled : ∀ c ∈ s.cancellations, ∃ t ∈ s.attempts, t.permitId = c.permitId
  slots : s.activeSlots ≤ s.policy.activation.maxConcurrentAgents

theorem validSnapshot_of {s : DurableBudgetStateV1} (h : s.validateSnapshot sha256 = .ok ()) :
    ValidSnapshot s := by
  unfold DurableBudgetStateV1.validateSnapshot at h
  simp only [bind_eq_ok, require_eq_ok, exists_const] at h
  obtain ⟨_, _, _, _, _, _, _, _, hids, _, _, _, hstatus, _, _, hslots, _⟩ := h
  unfold DurableBudgetStateV1.checkIdentities at hids
  unfold DurableBudgetStateV1.checkStatuses at hstatus
  simp only [bind_eq_ok, require_eq_ok, forM_eq_ok, exists_const] at hids hstatus
  obtain ⟨_, hkeys, hactive, _, hcancelled⟩ := hstatus
  refine ⟨hids.1, hids.2.2.2.1, hids.2.2.2.2.2.2.2, hactive, fun c hc => ?_, hslots⟩
  rw [← hkeys] at hcancelled
  exact Keyed.mem_keys.1 (hcancelled (Keyed.mem_keys.2 ⟨c, hc, rfl⟩))

/-- The attempt of an active permit. -/
theorem ValidSnapshot.attempt {s : DurableBudgetStateV1} (h : ValidSnapshot s) {p : DurablePermitV1}
    (hp : p ∈ s.activePermits) : ∃ t ∈ s.attempts, t.permitId = p.permitId ∧
      t.status = expectedStatus (s.cancellationOf p.permitId) p := by
  have hstatus := h.status p hp
  cases ht : s.attemptOf p.permitId with
  | none => simp [ht] at hstatus
  | some t =>
    obtain ⟨hmem, hid⟩ := (Keyed.dict_eq_some_iff h.attempts).1 ht
    refine ⟨t, hmem, hid, ?_⟩
    simpa [ht] using hstatus

/-! ## What every state of a run keeps -/

/-- The invariant of the states a run commits. -/
structure Sound (sha256 : Payload → String) (runId : String) (s : DurableBudgetStateV1) : Prop where
  valid : s.validateSnapshot sha256 = .ok ()
  run : s.runId = runId
  slots : s.usage.concurrencySlots = 0
  requested : ∀ c ∈ s.cancellations, c.state ≠ .notRequested

theorem initialState_ok {policy : DurableBudgetPolicyV1} {operationId requestSha256 : String}
    (h : initialState sha256 runId policy operationId requestSha256 = .ok s') :
    s'.validateSnapshot sha256 = .ok () ∧ s'.runId = runId ∧ s'.policy = policy ∧ s'.usage = {} ∧
      s'.activePermits = [] ∧ s'.cancellations = [] ∧ s'.failureLatch = none := by
  unfold initialState at h
  simp only [bind_eq_ok, valid_eq_ok, validated_eq_ok] at h
  obtain ⟨_, _, _, _, hv, rfl⟩ := h
  exact ⟨hv, rfl, rfl, rfl, rfl, rfl, rfl⟩

theorem transitionAllowed_requested {a : CancellationArgs} {previous : DurableCancellationV1}
    (h : transitionAllowed a previous) : a.stateValue ≠ .notRequested := by
  rcases h with ⟨_, h | h | h⟩ | ⟨_, h⟩ | ⟨_, h, _⟩ | ⟨_, _, h, _⟩ <;> simp [h]

theorem requested_remove_append {permitId : String} {c : DurableCancellationV1}
    {cs : List DurableCancellationV1} (h : ∀ x ∈ cs, x.state ≠ .notRequested)
    (hc : c.state ≠ .notRequested) :
    ∀ x ∈ Keyed.remove DurableCancellationV1.permitId permitId cs ++ [c],
      x.state ≠ .notRequested := by
  intro x hx
  rcases List.mem_append.1 hx with hx | hx
  · exact h x (Keyed.mem_remove.1 hx).1
  · rw [List.mem_singleton.1 hx]; exact hc

theorem Effect.requested (h : ∀ x ∈ state.cancellations, x.state ≠ .notRequested) {c : Call}
    (heffect : Effect sha256 runId state elapsed c s') :
    ∀ x ∈ s'.cancellations, x.state ≠ .notRequested := by
  cases heffect with
  | requestCancellation _ _ cancellation_eq appended =>
    obtain ⟨_, _, _, _, _, _, _, rfl⟩ := appended
    exact requested_remove_append h (by simp [cancellation_eq.2])
  | recordCancellation _ _ allowed cancellation_eq appended =>
    obtain ⟨_, _, _, _, _, _, _, rfl⟩ := appended
    refine requested_remove_append h ?_
    rw [cancellation_eq.2.1]
    exact transitionAllowed_requested allowed
  | reserve _ _ _ _ _ _ appended | start _ _ _ _ _ appended
  | settle _ _ _ _ _ _ _ _ _ appended | releaseNoEffect _ _ _ _ appended
  | tightenPolicy _ _ _ _ _ appended =>
    obtain ⟨_, _, _, _, _, _, _, rfl⟩ := appended
    exact h

theorem Effect.sound (hs : Sound sha256 runId state) {c : Call}
    (h : Effect sha256 runId state elapsed c s') : Sound sha256 runId s' where
  valid := h.valid
  run := h.runId_eq.trans hs.run
  slots := h.slots
  requested := h.requested hs.requested

/-! ## The reader's checks -/

variable {operation : IdempotencyRecordV1} {event : DurableEventV1}

/-- The log part of the relation holds of every appended operation; the rest
compares `state` and `updated`. -/
theorem successor_grown (hid : event.operationId = operation.operationId)
    (hrun : updated.runId = state.runId) (hkind : operation.kind ≠ .initializeRun) :
    validateStateSuccessor sha256 state (grown sha256 state updated operation event) = .ok () ↔
      checkTerms state updated operation = .ok () ∧ checkPermits state updated operation = .ok () ∧
        checkAttempts state updated operation = .ok () ∧
        checkCancellations state updated operation = .ok () ∧
        checkUsage state updated operation = .ok () := by
  have hlog : checkLogGrowth sha256 state (grown sha256 state updated operation event) = .ok () := by
    simp [checkLogGrowth, grown, hrun]
  have hlast : (grown sha256 state updated operation event).operations.getLast? =
      some operation := by simp [grown]
  have hevent : (grown sha256 state updated operation event).events.getLast?.map (·.operationId) =
      some operation.operationId := by simp [grown, hid]
  unfold validateStateSuccessor
  rw [bind_ok_left hlog, hlast]
  simp only [check_bind_eq_ok, require_eq_ok, hkind, hevent, ne_eq, not_false_eq_true, true_and]
  rfl

/-- The failure latch is kept, or set by an operation that may set it. -/
def LatchStep (older newer : DurableBudgetStateV1) (kind : OperationKind) : Prop :=
  newer.failureLatch = older.failureLatch ∨
    older.failureLatch = none ∧ (kind = .settle ∨ kind = .acknowledgeCancel)

theorem LatchStep.accepted {kind : OperationKind} (h : LatchStep older newer kind) :
    (older.failureLatch = none ∨ newer.failureLatch = older.failureLatch) ∧
      ¬ (older.failureLatch = none ∧ newer.failureLatch ≠ none ∧
        ¬ (kind = .settle ∨ kind = .acknowledgeCancel)) := by
  rcases h with h | ⟨h, hkind⟩
  · exact ⟨.inr h, fun ⟨hnone, hsome, _⟩ => hsome (h.trans hnone)⟩
  · exact ⟨.inl h, fun ⟨_, _, hno⟩ => hno hkind⟩

theorem checkTerms_same (hkind : ¬ operation.kind.settles) (hpolicy : operation.kind ≠ .tightenPolicy)
    (hs : updated.settlements = state.settlements) (hp : updated.policy = state.policy)
    (hl : LatchStep state updated operation.kind) : checkTerms state updated operation = .ok () := by
  unfold checkTerms
  simp only [hkind, if_false, check_bind_eq_ok, require_eq_ok]
  refine ⟨by simp [hs], by rw [hs], hl.accepted.1, hl.accepted.2, .inl hp, ?_⟩
  exact ⟨fun h => absurd hp h, fun h => absurd h hpolicy⟩

theorem checkTerms_settled {settlement : DurableSettlementV1} (hkind : operation.kind.settles)
    (hs : updated.settlements = state.settlements ++ [settlement])
    (hid : settlement.operationId = operation.operationId)
    (hsubject : some settlement.settlementId = operation.subjectId)
    (hp : updated.policy = state.policy) (hl : LatchStep state updated operation.kind) :
    checkTerms state updated operation = .ok () := by
  have hpolicy : operation.kind ≠ .tightenPolicy := by
    rcases hkind with hk | hk <;> simp [hk]
  unfold checkTerms
  simp only [hkind, if_true, check_bind_eq_ok, require_eq_ok]
  refine ⟨by simp [hs], by simp [hs, hid, hsubject], hl.accepted.1, hl.accepted.2, .inl hp, ?_⟩
  exact ⟨fun h => absurd hp h, fun h => absurd h hpolicy⟩

theorem checkTerms_tightened (hkind : operation.kind = .tightenPolicy)
    (hs : updated.settlements = state.settlements) (hl : updated.failureLatch = state.failureLatch)
    (hne : updated.policy ≠ state.policy) (ht : isPolicyTightening state.policy updated.policy) :
    checkTerms state updated operation = .ok () := by
  have hsettles : ¬ operation.kind.settles := by simp [hkind, OperationKind.settles]
  have hlatch : LatchStep state updated operation.kind := .inl hl
  unfold checkTerms
  simp only [hsettles, if_false, check_bind_eq_ok, require_eq_ok]
  exact ⟨by simp [hs], by rw [hs], hlatch.accepted.1, hlatch.accepted.2, .inr ht,
    fun _ => hkind, fun _ => hne⟩

theorem checkPermits_reserve {permit : DurablePermitV1} (hkind : operation.kind = .reserve)
    (hd : Keyed.Distinct DurablePermitV1.permitId state.activePermits)
    (hd' : Keyed.Distinct DurablePermitV1.permitId updated.activePermits)
    (hp : updated.activePermits = state.activePermits ++ [permit])
    (hsubject : operation.subjectId = some permit.permitId)
    (hfresh : permit.permitId ∉ Keyed.keys DurablePermitV1.permitId state.activePermits) :
    checkPermits state updated operation = .ok () := by
  unfold checkPermits
  simp only [hkind, if_true, require_eq_ok]
  refine ⟨?_, ?_, fun id hid => Keyed.dict_congr hd hd' fun x hx => ?_⟩
  · rw [hp, hsubject]
    exact Keyed.keys_append_sdiff hfresh
  · rw [hp]
    exact Keyed.keys_sdiff_append
  · have hne : x ≠ permit := fun he => hfresh (by rw [← he, hx]; exact hid)
    simp [hp, hne]

theorem checkPermits_start {permit started : DurablePermitV1} (hkind : operation.kind = .start)
    (hd : Keyed.Distinct DurablePermitV1.permitId state.activePermits)
    (hd' : Keyed.Distinct DurablePermitV1.permitId updated.activePermits)
    (hpermit : permit ∈ state.activePermits) (hid : started.permitId = permit.permitId)
    (hne : started ≠ permit)
    (hp : updated.activePermits = Keyed.update DurablePermitV1.permitId permit.permitId
      (fun _ => started) state.activePermits)
    (hsubject : operation.subjectId = some permit.permitId) :
    checkPermits state updated operation = .ok () := by
  have hmem : ∀ z : DurablePermitV1, z.permitId ≠ permit.permitId →
      (z ∈ updated.activePermits ↔ z ∈ state.activePermits) := by
    intro z hz
    rw [hp, Keyed.mem_update]
    constructor
    · rintro ⟨x, hx, ⟨_, rfl⟩ | ⟨_, rfl⟩⟩
      · exact absurd hid hz
      · exact hx
    · exact fun hx => ⟨z, hx, .inr ⟨hz, rfl⟩⟩
  have hkeys : Keyed.keys DurablePermitV1.permitId updated.activePermits =
      Keyed.keys DurablePermitV1.permitId state.activePermits := by
    unfold Keyed.keys
    rw [hp, Keyed.map_update fun x _ hx => hid.trans hx.symm]
  have hstarted : started ∈ updated.activePermits := by
    rw [hp]
    exact Keyed.update_self hpermit rfl
  unfold checkPermits
  simp only [hkind, reduceCtorEq, if_false, if_true, bind_eq_ok, require_eq_ok, exists_const]
  refine ⟨hkeys, ?_⟩
  rw [hsubject]
  exact Keyed.changed_eq_singleton hd hd' hpermit hstarted hid hne hmem

theorem checkPermits_settled {permit : DurablePermitV1} (hkind : operation.kind.settles)
    (hd : Keyed.Distinct DurablePermitV1.permitId state.activePermits)
    (hpermit : permit ∈ state.activePermits)
    (hp : updated.activePermits =
      Keyed.remove DurablePermitV1.permitId permit.permitId state.activePermits)
    (hclosed : closedPermit updated = some permit.permitId) :
    checkPermits state updated operation = .ok () := by
  have hr : operation.kind ≠ .reserve := by rcases hkind with hk | hk <;> simp [hk]
  have hs : operation.kind ≠ .start := by rcases hkind with hk | hk <;> simp [hk]
  unfold checkPermits
  simp only [hr, hs, hkind, if_false, if_true, require_eq_ok, hclosed, hp]
  refine ⟨Keyed.keys_sdiff_remove hpermit, ?_, fun id hid => ?_⟩
  · exact Finset.sdiff_eq_empty_iff_subset.2 Keyed.remove_keys_subset
  · obtain ⟨x, hx, rfl⟩ := Keyed.mem_keys.1 hid
    refine Keyed.dict_congr hd hd.remove fun y hy => ?_
    rw [Keyed.mem_remove, hy]
    exact and_iff_left (Keyed.mem_remove.1 hx).2

theorem checkPermits_same (hr : operation.kind ≠ .reserve) (hs : operation.kind ≠ .start)
    (hkind : ¬ operation.kind.settles) (hp : updated.activePermits = state.activePermits) :
    checkPermits state updated operation = .ok () := by
  simp [checkPermits, hr, hs, hkind, hp]

theorem checkAttempts_reserve {attempt : AttemptRecordV1} (hkind : operation.kind = .reserve)
    (ha : updated.attempts = state.attempts ++ [attempt])
    (hsubject : operation.subjectId = some attempt.permitId) :
    checkAttempts state updated operation = .ok () := by
  simp [checkAttempts, hkind, ha, hsubject]

theorem checkAttempts_same (hr : operation.kind ≠ .reserve) (hs : operation.kind ≠ .start)
    (hkind : ¬ operation.kind.settles) (ha : updated.attempts = state.attempts) :
    checkAttempts state updated operation = .ok () := by
  have hpair : ∀ p ∈ state.attempts.zip state.attempts, p.1 = p.2 := by
    have hzip : state.attempts.zip state.attempts = state.attempts.map fun x => (x, x) := by
      simpa using List.zip_map' (f := id) (g := id) (l := state.attempts)
    intro p hp
    rw [hzip] at hp
    obtain ⟨x, _, rfl⟩ := List.mem_map.1 hp
    rfl
  have hchanged : changedIds AttemptRecordV1.permitId state.attempts state.attempts = ∅ := by
    rw [changedIds, List.filter_eq_nil_iff.2 fun p hp => by simp [hpair p hp]]
    rfl
  unfold checkAttempts
  simp only [hr, if_false, ha, check_bind_eq_ok, require_eq_ok, forM_eq_ok, hs, hkind, or_self,
    false_imp_iff, hchanged, true_or, implies_true, and_true, or_true, true_and]
  intro p hp
  rw [hpair p hp]
  exact ⟨rfl, rfl⟩

/-- The reader accepts an updated attempt exactly when the update changes it,
unless a cancellation is being acknowledged. -/
theorem checkAttempts_update_iff {t : AttemptRecordV1} {f : AttemptRecordV1 → AttemptRecordV1}
    (hkind : operation.kind.mutatesAttempts)
    (hd : Keyed.Distinct AttemptRecordV1.permitId state.attempts) (ht : t ∈ state.attempts)
    (hf : ∀ x, (f x).permitId = x.permitId ∧ (f x).lineage = x.lineage)
    (ha : updated.attempts =
      Keyed.update AttemptRecordV1.permitId t.permitId f state.attempts)
    (hexpected : (if operation.kind.settles then closedPermit updated else operation.subjectId) =
      some t.permitId) :
    checkAttempts state updated operation = .ok () ↔
      (operation.kind = .acknowledgeCancel ∨ f t ≠ t) := by
  have hr : operation.kind ≠ .reserve := by
    rcases hkind with hk | (hk | hk) | hk <;> simp [hk]
  have hpair : ∀ p ∈ state.attempts.zip updated.attempts,
      p.1.permitId = p.2.permitId ∧ p.1.lineage = p.2.lineage := by
    rw [ha, Keyed.zip_update]
    intro p hp
    obtain ⟨x, _, rfl⟩ := List.mem_map.1 hp
    simp only
    split
    · exact ⟨(hf x).1.symm, (hf x).2.symm⟩
    · exact ⟨rfl, rfl⟩
  have hchanged : changedIds AttemptRecordV1.permitId state.attempts updated.attempts =
      if f t = t then ∅ else {t.permitId} := by
    rw [changedIds, ha]
    exact Keyed.changed_update ht hd
  have hlength : updated.attempts.length = state.attempts.length := by rw [ha, Keyed.length_update]
  unfold checkAttempts
  simp only [hr, if_false, check_bind_eq_ok, require_eq_ok, forM_eq_ok, hexpected, hchanged,
    hlength, hkind, true_or, true_and, isOnly]
  constructor
  · rintro ⟨_, honly, _⟩
    rcases hkind with hk | hk | hk
    · exact .inr fun he => by simpa [he] using honly (.inl hk)
    · exact .inr fun he => by simpa [he] using honly (.inr hk)
    · exact .inl hk
  · rintro (hk | hne)
    · refine ⟨hpair, fun hno => ?_, fun _ => ?_⟩
      · simp [hk, OperationKind.settles] at hno
      · split
        · exact .inl rfl
        · exact .inr rfl
    · exact ⟨hpair, fun _ => if_neg hne, fun _ => .inr (if_neg hne)⟩

theorem checkCancellations_request {c : DurableCancellationV1}
    (hkind : operation.kind = .requestCancel)
    (hc : updated.cancellations =
      Keyed.remove DurableCancellationV1.permitId c.permitId state.cancellations ++ [c])
    (hfresh : ∀ x ∈ state.cancellations, x.permitId ≠ c.permitId)
    (hsubject : operation.subjectId = some c.permitId) :
    checkCancellations state updated operation = .ok () := by
  have hnotin : c.permitId ∉ Keyed.keys DurableCancellationV1.permitId state.cancellations :=
    fun hin => by
      obtain ⟨x, hx, hxc⟩ := Keyed.mem_keys.1 hin
      exact hfresh x hx hxc
  unfold checkCancellations
  simp only [hkind, if_true, require_eq_ok]
  rw [hc, Keyed.remove_eq_self hfresh, hsubject]
  exact Keyed.keys_append_sdiff hnotin

theorem checkCancellations_acknowledge {previous c : DurableCancellationV1}
    (hkind : operation.kind = .acknowledgeCancel)
    (hd : Keyed.Distinct DurableCancellationV1.permitId state.cancellations)
    (hd' : Keyed.Distinct DurableCancellationV1.permitId updated.cancellations)
    (hprevious : previous ∈ state.cancellations) (hid : c.permitId = previous.permitId)
    (hne : c ≠ previous)
    (hc : updated.cancellations =
      Keyed.remove DurableCancellationV1.permitId previous.permitId state.cancellations ++ [c])
    (hsubject : operation.subjectId = some previous.permitId) :
    checkCancellations state updated operation = .ok () := by
  have hmem : ∀ z : DurableCancellationV1, z.permitId ≠ previous.permitId →
      (z ∈ updated.cancellations ↔ z ∈ state.cancellations) := by
    intro z hz
    have hzc : z ≠ c := fun he => hz (by rw [he, hid])
    rw [hc, List.mem_append, List.mem_singleton, Keyed.mem_remove]
    exact ⟨fun h => h.elim And.left fun he => absurd he hzc, fun h => .inl ⟨h, hz⟩⟩
  have hcmem : c ∈ updated.cancellations := by rw [hc]; simp
  unfold checkCancellations
  simp only [hkind, reduceCtorEq, if_false, if_true, require_eq_ok]
  refine ⟨by rw [hc]; exact Keyed.keys_remove_append hprevious hid, ?_⟩
  rw [hsubject]
  exact Keyed.changed_eq_singleton hd hd' hprevious hcmem hid hne hmem

theorem checkCancellations_same (hr : operation.kind ≠ .requestCancel)
    (ha : operation.kind ≠ .acknowledgeCancel) (hc : updated.cancellations = state.cancellations) :
    checkCancellations state updated operation = .ok () := by
  simp [checkCancellations, hr, ha, hc]

theorem checkUsage_of (hruntime : state.usage.activeRuntimeNs ≤ updated.usage.activeRuntimeNs)
    (hslots : updated.usage.concurrencySlots = state.usage.concurrencySlots)
    (heffect : ∀ r, r ≠ .activeRuntimeNs → r ≠ .concurrencySlots →
      state.usage.get r ≤ updated.usage.get r ∧
        (operation.kind ≠ .settle → updated.usage.get r = state.usage.get r)) :
    checkUsage state updated operation = .ok () := by
  have hslots' : updated.usage.get .concurrencySlots = state.usage.get .concurrencySlots := hslots
  have hle : ∀ r, state.usage.get r ≤ updated.usage.get r := by
    intro r
    by_cases hr : r = .activeRuntimeNs
    · subst hr; exact hruntime
    · by_cases hs : r = .concurrencySlots
      · subst hs; exact hslots'.ge
      · exact (heffect r hr hs).1
  unfold checkUsage
  rw [forM_eq_ok]
  intro r _
  simp only [check_bind_eq_ok, require_eq_ok]
  have hr := hle r
  refine ⟨by omega, by omega, ?_⟩
  rintro ⟨hr, hkind, hne⟩
  by_cases hs : r = .concurrencySlots
  · subst hs; exact hne hslots'
  · exact hne ((heffect r hr hs).2 hkind)

/-! ## Which effects the reader accepts -/

/-- A settlement that records, without an overrun, the unknown effect with the
evidence and the failure category the attempt already has. -/
def RepeatsUnknownEffect (state : DurableBudgetStateV1) (elapsed : Nat) : Call → Prop
  | .settle a =>
    a.status = .effectUnknown ∧
      (∃ permit, Keyed.find DurablePermitV1.permitId a.permitId state.activePermits = some permit ∧
        exceededResource permit.reservation.requested
          (settledActual a.actual (measuredRuntime state elapsed permit)) = none) ∧
      ∃ t, state.attemptOf a.permitId = some t ∧ t.status = .effectUnknown ∧
        t.failureCategory = a.failureCategory ∧ t.effectEvidenceSha256 = a.effectEvidenceSha256
  | _ => False

theorem expectedStatus_started {c : Option DurableCancellationV1} {p : DurablePermitV1}
    (h : p.status = .started) :
    expectedStatus c p = .started ∨ expectedStatus c p = .effectUnknown := by
  unfold expectedStatus
  split
  · exact .inr rfl
  · exact .inl (if_neg (by simp [h]))

theorem expectedStatus_ne_started {c : Option DurableCancellationV1} {p : DurablePermitV1}
    (h : p.status = .reserved) : expectedStatus c p ≠ .started := by
  unfold expectedStatus
  rw [if_pos h]
  split <;> simp

theorem expectedStatus_ne_cancelled {c : Option DurableCancellationV1} {p : DurablePermitV1} :
    expectedStatus c p ≠ .cancelled := by
  unfold expectedStatus
  repeat' split
  all_goals simp

theorem settlementAttemptStatus_ne_started (status : SettlementStatus) :
    settlementAttemptStatus status ≠ .started := by
  cases status <;> simp [settlementAttemptStatus]

theorem settlementAttemptStatus_eq_effectUnknown {status : SettlementStatus} :
    settlementAttemptStatus status = .effectUnknown ↔ status = .effectUnknown := by
  cases status <;> simp [settlementAttemptStatus]

theorem effectiveStatus_eq_effectUnknown {reserved actual : ResourceAmountsV1}
    {status : SettlementStatus} : effectiveStatus reserved actual status = .effectUnknown ↔
      exceededResource reserved actual = none ∧ status = .effectUnknown := by
  unfold effectiveStatus
  cases exceededResource reserved actual <;> simp

theorem settleAttempt_eq_self {a : SettleArgs} {effective : SettlementStatus} {t : AttemptRecordV1} :
    a.settleAttempt effective t = t ↔ settlementAttemptStatus effective = t.status ∧
      a.failureCategory = t.failureCategory ∧
        a.effectEvidenceSha256 = t.effectEvidenceSha256 := by
  cases t
  simp [SettleArgs.settleAttempt]

theorem settledLatch_step {a : SettleArgs} {latch : Option DurableBudgetFailureV1}
    {reserved actual : ResourceAmountsV1} {effective : SettlementStatus} :
    settledLatch a latch reserved actual effective = latch ∨ latch = none := by
  cases latch with
  | none => exact .inr rfl
  | some failure => exact .inl rfl

theorem cancellationLatch_step {a : CancellationArgs} {latch : Option DurableBudgetFailureV1} :
    cancellationLatch a latch = latch ∨ latch = none := by
  cases latch with
  | none => exact .inr rfl
  | some failure => exact .inl rfl

/-- Recording an allowed cancellation changes the recorded one. -/
theorem transitionAllowed_ne {a : CancellationArgs} {previous c : DurableCancellationV1}
    (h : transitionAllowed a previous) (hstate : c.state = a.stateValue)
    (hlive : c.workerLive = a.workerLive) : c ≠ previous := by
  rintro rfl
  rcases h with ⟨h, h' | h' | h'⟩ | ⟨h, h'⟩ | ⟨h, h', _⟩ | ⟨_, h, _, h', _⟩
  all_goals simp_all

/-- A settlement repeats an unknown effect when it leaves the attempt as it is. -/
theorem repeatsUnknownEffect_settle {a : SettleArgs} {permit : DurablePermitV1} {t : AttemptRecordV1}
    (hv : ValidSnapshot state)
    (hfind : Keyed.find DurablePermitV1.permitId a.permitId state.activePermits = some permit)
    (ht : t ∈ state.attempts) (hid : t.permitId = a.permitId)
    (hstatus : t.status = .started ∨ t.status = .effectUnknown) :
    RepeatsUnknownEffect state elapsed (.settle a) ↔
      a.settleAttempt (effectiveStatus permit.reservation.requested
        (settledActual a.actual (measuredRuntime state elapsed permit)) a.status) t = t := by
  have hattempt : state.attemptOf a.permitId = some t :=
    (Keyed.dict_eq_some_iff hv.attempts).2 ⟨ht, hid⟩
  rw [settleAttempt_eq_self]
  constructor
  · rintro ⟨hunknown, ⟨p, hp, hexceeded⟩, u, hu, hstatus, hcategory, hevidence⟩
    obtain rfl : permit = p := Option.some.inj (hfind.symm.trans hp)
    obtain rfl : t = u := Option.some.inj (hattempt.symm.trans hu)
    rw [effectiveStatus_eq_effectUnknown.2 ⟨hexceeded, hunknown⟩]
    exact ⟨hstatus.symm, hcategory.symm, hevidence.symm⟩
  · rintro ⟨heffective, hcategory, hevidence⟩
    rcases hstatus with hstatus | hstatus
    · exact absurd (heffective.trans hstatus) (settlementAttemptStatus_ne_started _)
    · rw [hstatus, settlementAttemptStatus_eq_effectUnknown,
        effectiveStatus_eq_effectUnknown] at heffective
      exact ⟨heffective.2, ⟨permit, hfind, heffective.1⟩, t, hattempt, hstatus, hcategory.symm,
        hevidence.symm⟩

/-- What the reader requires of an appended operation besides the log. -/
def Accepts (older updated : DurableBudgetStateV1) (operation : IdempotencyRecordV1) : Prop :=
  checkTerms older updated operation = .ok () ∧ checkPermits older updated operation = .ok () ∧
    checkAttempts older updated operation = .ok () ∧
    checkCancellations older updated operation = .ok () ∧
    checkUsage older updated operation = .ok ()

theorem Appended.accepted_iff {operationId : String} {kind : OperationKind}
    {subjectId : Option String} {Q : Prop}
    (h : Appended sha256 state updated s' operationId kind subjectId)
    (hrun : updated.runId = state.runId) (hkind : kind ≠ .initializeRun)
    (hQ : ∀ operation : IdempotencyRecordV1, operation.operationId = operationId →
      operation.kind = kind → operation.subjectId = subjectId →
        (Accepts state updated operation ↔ Q)) :
    validateStateSuccessor sha256 state s' = .ok () ↔ Q := by
  obtain ⟨_, operation, event, hid, rfl, hsubject, hevent, rfl⟩ := h
  rw [successor_grown (hevent.trans hid.symm) hrun hkind]
  exact hQ operation hid rfl hsubject

theorem Effect.checkUsage (hs : Sound sha256 runId state) {c : Call}
    (h : Effect sha256 runId state elapsed c s') (operation : IdempotencyRecordV1)
    (hkind : operation.kind ≠ .settle → ∀ a, c ≠ .settle a) :
    checkUsage state s' operation = .ok () := by
  refine checkUsage_of ?_ ?_ fun r hr hslots => ?_
  · rw [h.runtime]; exact Nat.le_add_right _ _
  · rw [h.slots, hs.slots]
  · exact ⟨(h.usage hr hslots).1, fun hk => (h.usage hr hslots).2 (hkind hk)⟩

/-- The permit's attempt, as the snapshot validator has it. -/
theorem Sound.attempt (hs : Sound sha256 runId state) {permitId : String} {permit : DurablePermitV1}
    (hfind : Keyed.find DurablePermitV1.permitId permitId state.activePermits = some permit) :
    permit ∈ state.activePermits ∧ permit.permitId = permitId ∧
      ∃ t ∈ state.attempts, t.permitId = permitId ∧
        t.status = expectedStatus (state.cancellationOf permitId) permit := by
  obtain ⟨hmem, rfl⟩ := Keyed.find_mem hfind
  exact ⟨hmem, rfl, (validSnapshot_of hs.valid).attempt hmem⟩

/-- An appended operation the reader has no objection to. -/
theorem Appended.accepted {operationId : String} {kind : OperationKind} {subjectId : Option String}
    (h : Appended sha256 state updated s' operationId kind subjectId)
    (hrun : updated.runId = state.runId) (hkind : kind ≠ .initializeRun)
    (hall : ∀ operation : IdempotencyRecordV1, operation.operationId = operationId →
      operation.kind = kind → operation.subjectId = subjectId → Accepts state updated operation) :
    validateStateSuccessor sha256 state s' = .ok () :=
  (h.accepted_iff (Q := True) hrun hkind fun operation hid hk hsubject =>
    iff_true_intro (hall operation hid hk hsubject)).2 trivial

section Accepted

variable {operationId permitId : String}

theorem reserve_accepted (hs : Sound sha256 runId state) {reservation : ResourceReservationV1}
    {lineage : ExecutionLineageV1} {policySha activationSha : Option String}
    (h : Effect sha256 runId state elapsed
      (.reserve operationId permitId reservation lineage policySha activationSha) s') :
    validateStateSuccessor sha256 state s' = .ok () := by
  have husage := h.checkUsage hs
  have hv := validSnapshot_of hs.valid
  have hv' := validSnapshot_of h.valid
  cases h with
  | @reserve _ _ _ _ _ _ usage remaining permit attempt _ charge _ _ fresh permit_eq attempt_eq
      appended =>
    refine appended.accepted rfl (by simp) fun operation _ hkind hsubject => ?_
    obtain ⟨_, _, _, _, _, _, _, rfl⟩ := appended
    have hfresh : permit.permitId ∉ Keyed.keys DurablePermitV1.permitId state.activePermits := by
      intro hin
      obtain ⟨x, hx, hid⟩ := Keyed.mem_keys.1 hin
      refine fresh (List.mem_append_left _ (List.mem_map.2 ⟨x, hx, ?_⟩))
      rw [hid, permit_eq.1]
    refine ⟨?_, ?_, ?_, ?_, husage operation (by simp)⟩
    · exact checkTerms_same (by simp [hkind, OperationKind.settles]) (by simp [hkind]) rfl rfl
        (.inl rfl)
    · exact checkPermits_reserve hkind hv.permits hv'.permits rfl
        (by rw [hsubject, permit_eq.1]) hfresh
    · exact checkAttempts_reserve hkind rfl (by rw [hsubject, attempt_eq.1])
    · exact checkCancellations_same (by simp [hkind]) (by simp [hkind]) rfl

theorem start_accepted (hs : Sound sha256 runId state)
    (h : Effect sha256 runId state elapsed (.start operationId permitId) s') :
    validateStateSuccessor sha256 state s' = .ok () := by
  have husage := h.checkUsage hs
  have hv := validSnapshot_of hs.valid
  have hv' := validSnapshot_of h.valid
  cases h with
  | @start _ _ usage remaining permit started _ charge found reserved uncancelled started_eq
      appended =>
    refine appended.accepted rfl (by simp) fun operation _ hkind hsubject => ?_
    obtain ⟨_, _, _, _, _, _, _, rfl⟩ := appended
    obtain ⟨hpermit, rfl, t, ht, htid, hstatus⟩ := hs.attempt found
    have hne : started ≠ permit := fun he => by simp [← he, started_eq.2.2] at reserved
    refine ⟨?_, ?_, ?_, ?_, husage operation (by simp)⟩
    · exact checkTerms_same (by simp [hkind, OperationKind.settles]) (by simp [hkind]) rfl rfl
        (.inl rfl)
    · exact checkPermits_start hkind hv.permits hv'.permits hpermit started_eq.1 hne rfl hsubject
    · refine (checkAttempts_update_iff (t := t) (.inl hkind) hv.attempts ht
        (f := fun a => { a with status := .started }) (fun _ => ⟨rfl, rfl⟩) (by rw [htid]) ?_).2
        (.inr fun he => ?_)
      · simp [hkind, OperationKind.settles, hsubject, htid]
      · have hstarted : t.status = .started := by rw [← he]
        exact expectedStatus_ne_started reserved (hstatus.symm.trans hstarted)
    · exact checkCancellations_same (by simp [hkind]) (by simp [hkind]) rfl

theorem releaseNoEffect_accepted (hs : Sound sha256 runId state) {settlementId evidence : String}
    (h : Effect sha256 runId state elapsed
      (.releaseNoEffect operationId settlementId permitId evidence) s') :
    validateStateSuccessor sha256 state s' = .ok () := by
  have husage := h.checkUsage hs
  have hv := validSnapshot_of hs.valid
  cases h with
  | @releaseNoEffect _ _ _ _ usage remaining permit settlement _ charge found reserved
      settlement_eq appended =>
    refine appended.accepted rfl (by simp) fun operation hid hkind hsubject => ?_
    obtain ⟨_, _, _, _, _, _, _, rfl⟩ := appended
    obtain ⟨hpermit, rfl, t, ht, htid, hstatus⟩ := hs.attempt found
    have hsettles : operation.kind.settles := .inr hkind
    have hclosed : (state.settlements ++ [settlement]).getLast?.map (·.permitId) =
        some permit.permitId := by simp [settlement_eq.2.1]
    refine ⟨?_, ?_, ?_, ?_, husage operation (by simp)⟩
    · exact checkTerms_settled hsettles rfl (settlement_eq.2.2.trans hid.symm)
        (by rw [hsubject, settlement_eq.1]) rfl (.inl rfl)
    · exact checkPermits_settled hsettles hv.permits hpermit rfl hclosed
    · refine (checkAttempts_update_iff (t := t) (.inr (.inl hsettles)) hv.attempts ht
        (f := fun a => { a with status := .cancelled, effectEvidenceSha256 := some evidence })
        (fun _ => ⟨rfl, rfl⟩) (by rw [htid]) ?_).2 (.inr fun he => ?_)
      · rw [if_pos hsettles, htid]
        exact hclosed
      · have hcancelled : t.status = .cancelled := by rw [← he]
        exact expectedStatus_ne_cancelled (hstatus.symm.trans hcancelled)
    · exact checkCancellations_same (by simp [hkind]) (by simp [hkind]) rfl

theorem requestCancellation_accepted (hs : Sound sha256 runId state)
    (h : Effect sha256 runId state elapsed (.requestCancellation operationId permitId) s') :
    validateStateSuccessor sha256 state s' = .ok () := by
  have husage := h.checkUsage hs
  cases h with
  | @requestCancellation _ _ usage remaining cancellation _ charge unrequested cancellation_eq
      appended =>
    refine appended.accepted rfl (by simp) fun operation _ hkind hsubject => ?_
    obtain ⟨_, _, _, _, _, _, _, rfl⟩ := appended
    have hfresh : ∀ x ∈ state.cancellations, x.permitId ≠ cancellation.permitId := by
      rw [cancellation_eq.1]
      refine Keyed.find_eq_none.1 ?_
      cases hfind : Keyed.find DurableCancellationV1.permitId permitId state.cancellations with
      | none => rfl
      | some c =>
        exact absurd (unrequested c hfind) (hs.requested c (Keyed.find_mem hfind).1)
    have hsettles : ¬ operation.kind.settles := by simp [hkind, OperationKind.settles]
    refine ⟨?_, ?_, ?_, ?_, husage operation (by simp)⟩
    · exact checkTerms_same hsettles (by simp [hkind]) rfl rfl (.inl rfl)
    · exact checkPermits_same (by simp [hkind]) (by simp [hkind]) hsettles rfl
    · exact checkAttempts_same (by simp [hkind]) (by simp [hkind]) hsettles rfl
    · refine checkCancellations_request hkind ?_ hfresh (by rw [hsubject, cancellation_eq.1])
      rw [cancellation_eq.1]

theorem recordCancellation_accepted (hs : Sound sha256 runId state) {a : CancellationArgs}
    (h : Effect sha256 runId state elapsed (.recordCancellation a) s') :
    validateStateSuccessor sha256 state s' = .ok () := by
  have husage := h.checkUsage hs
  have hv := validSnapshot_of hs.valid
  have hv' := validSnapshot_of h.valid
  cases h with
  | @recordCancellation _ usage remaining previous cancellation _ charge found allowed
      cancellation_eq appended =>
    refine appended.accepted rfl (by simp) fun operation _ hkind hsubject => ?_
    obtain ⟨_, _, _, _, _, _, _, rfl⟩ := appended
    obtain ⟨hprevious, hpid⟩ := Keyed.find_mem found
    obtain ⟨hcid, hstate, hlive⟩ := cancellation_eq
    have hsettles : ¬ operation.kind.settles := by simp [hkind, OperationKind.settles]
    refine ⟨?_, ?_, ?_, ?_, husage operation (by simp)⟩
    · exact checkTerms_same hsettles (by simp [hkind]) rfl rfl
        (cancellationLatch_step.imp_right fun h => ⟨h, .inr hkind⟩)
    · exact checkPermits_same (by simp [hkind]) (by simp [hkind]) hsettles rfl
    · unfold CancellationArgs.attempts
      split
      · obtain ⟨t, ht, htid⟩ := hv.cancelled previous hprevious
        refine (checkAttempts_update_iff (t := t) (.inr (.inr hkind)) hv.attempts ht
          (f := fun item => { item with
            status := .effectUnknown, effectEvidenceSha256 := a.evidenceSha256 })
          (fun _ => ⟨rfl, rfl⟩) (by rw [htid, hpid]) ?_).2 (.inl hkind)
        rw [if_neg hsettles, hsubject, htid, hpid]
      · exact checkAttempts_same (by simp [hkind]) (by simp [hkind]) hsettles rfl
    · exact checkCancellations_acknowledge hkind hv.cancellations hv'.cancellations hprevious
        (hcid.trans hpid.symm) (transitionAllowed_ne allowed hstate hlive)
        (by rw [hpid]) (by rw [hsubject, hpid])

theorem tightenPolicy_accepted (hs : Sound sha256 runId state) {newPolicy : DurableBudgetPolicyV1}
    {reason : String}
    (h : Effect sha256 runId state elapsed (.tightenPolicy operationId newPolicy reason) s') :
    validateStateSuccessor sha256 state s' = .ok () := by
  have husage := h.checkUsage hs
  cases h with
  | tightenPolicy charge latch changed tightening within appended =>
    refine appended.accepted rfl (by simp) fun operation _ hkind hsubject => ?_
    obtain ⟨_, _, _, _, _, _, _, rfl⟩ := appended
    have hsettles : ¬ operation.kind.settles := by simp [hkind, OperationKind.settles]
    refine ⟨?_, ?_, ?_, ?_, husage operation (by simp)⟩
    · exact checkTerms_tightened hkind rfl rfl changed tightening
    · exact checkPermits_same (by simp [hkind]) (by simp [hkind]) hsettles rfl
    · exact checkAttempts_same (by simp [hkind]) (by simp [hkind]) hsettles rfl
    · exact checkCancellations_same (by simp [hkind]) (by simp [hkind]) rfl

/-- The one settlement the reader refuses leaves the attempt as it was. -/
theorem settle_accepted_iff (hs : Sound sha256 runId state) {a : SettleArgs}
    (h : Effect sha256 runId state elapsed (.settle a) s') :
    validateStateSuccessor sha256 state s' = .ok () ↔
      ¬ RepeatsUnknownEffect state elapsed (.settle a) := by
  have husage := h.checkUsage hs
  have hv := validSnapshot_of hs.valid
  cases h with
  | @settle _ permit charged remaining applied usage settlement effective _ charge found started
      unreleased cancellation effective_eq settlement_eq applied_eq usage_eq appended =>
    refine appended.accepted_iff rfl (by simp) fun operation hid hkind hsubject => ?_
    obtain ⟨_, _, _, _, _, _, _, rfl⟩ := appended
    obtain ⟨hpermit, hpid, t, ht, htid, hstatus⟩ := hs.attempt found
    have hsettles : operation.kind.settles := .inl hkind
    have hclosed : (state.settlements ++ [settlement]).getLast?.map (·.permitId) =
        some a.permitId := by simp [settlement_eq.2.1]
    have hexpected : (if operation.kind.settles then
        (state.settlements ++ [settlement]).getLast?.map (·.permitId) else operation.subjectId) =
          some t.permitId := by rw [if_pos hsettles, hclosed, htid]
    have hopen : t.status = .started ∨ t.status = .effectUnknown := by
      rw [hstatus]
      exact expectedStatus_started started
    rw [repeatsUnknownEffect_settle hv found ht htid hopen, ← effective_eq]
    constructor
    · intro haccepts hself
      have hchanged := (checkAttempts_update_iff (.inr (.inl hsettles)) hv.attempts ht
        (f := a.settleAttempt effective) (fun _ => ⟨rfl, rfl⟩) (by rw [htid])
          (by exact hexpected)).1
        haccepts.2.2.1
      rcases hchanged with hk | hne
      · simp [hk] at hkind
      · exact hne hself
    · intro hne
      refine ⟨?_, ?_, ?_, ?_, husage operation fun hno => absurd hkind hno⟩
      · exact checkTerms_settled hsettles rfl (settlement_eq.2.2.trans hid.symm)
          (by rw [hsubject, settlement_eq.1]) rfl
          (settledLatch_step.imp_right fun h => ⟨h, .inl hkind⟩)
      · exact checkPermits_settled hsettles hv.permits hpermit (by rw [hpid])
          (by rw [hpid]; exact hclosed)
      · exact (checkAttempts_update_iff (.inr (.inl hsettles)) hv.attempts ht
          (f := a.settleAttempt effective) (fun _ => ⟨rfl, rfl⟩) (by rw [htid])
          (by exact hexpected)).2
          (.inr hne)
      · exact checkCancellations_same (by simp [hkind]) (by simp [hkind]) rfl

/-- The reader accepts every effect but a repeated unknown one. -/
theorem Effect.accepted_iff (hs : Sound sha256 runId state) {c : Call}
    (h : Effect sha256 runId state elapsed c s') :
    validateStateSuccessor sha256 state s' = .ok () ↔ ¬ RepeatsUnknownEffect state elapsed c := by
  cases c with
  | create => cases h
  | settle => exact settle_accepted_iff hs h
  | reserve => exact iff_of_true (reserve_accepted hs h) id
  | start => exact iff_of_true (start_accepted hs h) id
  | releaseNoEffect => exact iff_of_true (releaseNoEffect_accepted hs h) id
  | requestCancellation => exact iff_of_true (requestCancellation_accepted hs h) id
  | recordCancellation => exact iff_of_true (recordCancellation_accepted hs h) id
  | tightenPolicy => exact iff_of_true (tightenPolicy_accepted hs h) id

end Accepted

/-! ## Readable runs -/

theorem initialState_sound {policy : DurableBudgetPolicyV1} {operationId requestSha256 : String}
    (h : initialState sha256 runId policy operationId requestSha256 = .ok s') :
    Sound sha256 runId s' := by
  obtain ⟨hv, hrun, _, husage, _, hcancel, _⟩ := initialState_ok h
  exact ⟨hv, hrun, by rw [husage], by simp [hcancel]⟩

/-- Every state a run commits is sound. -/
theorem run_sound (actions : List Action) :
    ∀ entry ∈ (run sha256 runId actions).revisions, Sound sha256 runId entry.state :=
  run_induction (fun _ _ _ _ h => initialState_sound h) (fun _ _ _ _ hs h => h.sound hs) actions

theorem run_revision_eq (actions : List Action) :
    ∀ entry ∈ (run sha256 runId actions).revisions, entry.state.generation = entry.revision := by
  induction actions using List.reverseRecOn with
  | nil => simp
  | append_singleton done a ih =>
    rw [run_append]
    rcases act_revisions (run sha256 runId done) a with hsame | ⟨s', _, hgrown⟩
    · rw [hsame]; exact ih
    · rw [hgrown]; exact List.forall_mem_cons.2 ⟨rfl, ih⟩

/-- Nothing is committed yet, or the committed history loads. -/
def Readable (sha256 : Payload → String) (runId : String) (store : DurableBudgetStore) : Prop :=
  store.revisions = [] ∨ ∃ states, loadHistory sha256 runId store.revisions none = .ok states

/-- Whenever the action publishes a successor, the reader accepts it. -/
def AcceptsPublished (sha256 : Payload → String) (runId : String) (store : DurableBudgetStore)
    (a : Action) : Prop :=
  ∀ current rest published, store.revisions = current :: rest →
    (store.act sha256 runId a).revisions = published :: store.revisions →
      validateStateSuccessor sha256 current.state published.state = .ok ()

/-- The action publishes a settlement that repeats an unknown effect. -/
def PublishesRepeat (sha256 : Payload → String) (runId : String) (store : DurableBudgetStore)
    (a : Action) : Prop :=
  (store.act sha256 runId a).revisions ≠ store.revisions ∧
    ∃ current rest c env, store.revisions = current :: rest ∧ a = .call c env ∧
      RepeatsUnknownEffect current.state (store.elapsed env) c

theorem checkHistory_run (actions : List Action) :
    checkHistory sha256 runId (run sha256 runId actions).revisions = .ok () ↔
      ∀ pair ∈ (run sha256 runId actions).revisions.zip (run sha256 runId actions).revisions.tail,
        validateStateSuccessor sha256 pair.2.state pair.1.state = .ok () := by
  rw [checkHistory_ok]
  refine ⟨fun h => h.2.2.2, fun h => ⟨?_, ?_, ?_, h⟩⟩
  · exact fun entry hentry => (run_sound actions entry hentry).valid
  · exact List.map_congr_left (run_revision_eq actions)
  · exact fun entry hentry => (run_sound actions entry hentry).run

/-- One step of a run: the published successor is accepted exactly when it does
not repeat an unknown effect. -/
theorem acceptsPublished_iff (done : List Action) (a : Action) :
    AcceptsPublished sha256 runId (run sha256 runId done) a ↔
      ¬ PublishesRepeat sha256 runId (run sha256 runId done) a := by
  have hsound : ∀ entry ∈ (run sha256 runId done).revisions, Sound sha256 runId entry.state :=
    run_sound done
  constructor
  · rintro haccepts ⟨hne, current, rest, c, env, hcurrent, rfl, hrepeats⟩
    rcases act_revisions (run sha256 runId done) (.call c env) with hsame | ⟨s', hpub, hgrown⟩
    · exact hne hsame
    · obtain ⟨c', env', heq, hsucceeds⟩ := hpub
      cases heq
      have haccepted := haccepts current rest _ hcurrent hgrown
      cases hsucceeds with
      | first hempty => simp [hempty] at hcurrent
      | next hcurrent' _ heffect =>
        rw [hcurrent'] at hcurrent
        cases hcurrent
        have hs := hsound _ (by rw [hcurrent']; exact List.mem_cons_self)
        exact (heffect.accepted_iff hs).1 haccepted hrepeats
  · intro hno current rest published hcurrent hpublished
    rcases act_revisions (run sha256 runId done) a with hsame | ⟨s', hpub, hgrown⟩
    · rw [hsame] at hpublished
      simp at hpublished
    · rw [hgrown] at hpublished
      cases hpublished
      obtain ⟨c, env, rfl, hsucceeds⟩ := hpub
      cases hsucceeds with
      | first hempty => simp [hempty] at hcurrent
      | next hcurrent' _ heffect =>
        have hs := hsound _ (by rw [hcurrent']; exact List.mem_cons_self)
        rw [hcurrent'] at hcurrent
        cases hcurrent
        refine (heffect.accepted_iff hs).2 fun hrepeats => ?_
        refine hno ⟨?_, _, _, c, env, hcurrent', rfl, hrepeats⟩
        rw [hgrown]
        simp

/-- While no action has published a repeated unknown effect, the history reads. -/
theorem run_readable (actions : List Action)
    (h : ∀ done a, done ++ [a] <+: actions → AcceptsPublished sha256 runId (run sha256 runId done) a) :
    Readable sha256 runId (run sha256 runId actions) := by
  have hpairs : ∀ pair ∈ (run sha256 runId actions).revisions.zip
      (run sha256 runId actions).revisions.tail,
        validateStateSuccessor sha256 pair.2.state pair.1.state = .ok () := by
    induction actions using List.reverseRecOn with
    | nil => simp
    | append_singleton done a ih =>
      have ih := ih fun done' a' hinit => h done' a' (hinit.trans (List.prefix_append done [a]))
      have haccepts := h done a (List.prefix_refl _)
      rw [run_append]
      rcases act_revisions (run sha256 runId done) a with hsame | ⟨s', _, hgrown⟩
      · rw [hsame]; exact ih
      · cases hcurrent : (run sha256 runId done).revisions with
        | nil => simp [hgrown, hcurrent]
        | cons current rest =>
          have haccepted := haccepts current rest _ hcurrent hgrown
          rw [hcurrent] at ih
          rw [hgrown, hcurrent]
          exact List.forall_mem_cons.2 ⟨haccepted, ih⟩
  by_cases hempty : (run sha256 runId actions).revisions = []
  · exact .inl hempty
  · exact .inr (loadHistory_readable.2 ⟨hempty, (checkHistory_run actions).2 hpairs⟩)

/-- A run whose every published successor the reader accepts, and whose history
loads after every action, is a run that never settles a permit with the unknown
effect, the evidence and the failure category its attempt already records. -/
theorem history_readable_iff (sha256 : Payload → String) (runId : String) (actions : List Action) :
    (∀ done a, done ++ [a] <+: actions →
      AcceptsPublished sha256 runId (run sha256 runId done) a ∧
        Readable sha256 runId (run sha256 runId (done ++ [a]))) ↔
      ∀ done a, done ++ [a] <+: actions →
        ¬ PublishesRepeat sha256 runId (run sha256 runId done) a := by
  constructor
  · intro h done a hinit
    exact (acceptsPublished_iff done a).1 (h done a hinit).1
  · intro h done a hinit
    have haccepts : ∀ done' a', done' ++ [a'] <+: actions →
        AcceptsPublished sha256 runId (run sha256 runId done') a' :=
      fun done' a' hinit' => (acceptsPublished_iff done' a').2 (h done' a' hinit')
    refine ⟨haccepts done a hinit, run_readable _ fun done' a' hinit' => ?_⟩
    exact haccepts done' a' (hinit'.trans hinit)

/-! ## An unreadable run -/

/-- A number for each payload of the run below. -/
def Payload.tag : Payload → Nat
  | .basePolicy _ => 1
  | .activation _ => 2
  | .policy _ => 3
  | .reservation .. => 4
  | .initializeRequest .. => 5
  | .initializeResult .. => 6
  | .reserveRequest .. => 7
  | .startRequest .. => 8
  | .settleRequest .. => 9
  | .releaseRequest .. => 10
  | .cancelRequest .. => 11
  | .acknowledgeRequest .. => 12
  | .tightenRequest .. => 13
  | .tightenResult .. => 14
  | .state s => 16 + s.generation
  | .event ordinal .. => 32 + ordinal
  | .permit p => 48 + p.startedActiveRuntimeNs.getD 0
  | .settlement _ => 64
  | .cancellation c => 80 + c.observedActiveRuntimeNs

/-- The tag as a digest. -/
def taggedDigest (p : Payload) : String := String.ofList ((Nat.toDigits 16 p.tag).leftpad 64 '0')

def sampleEvidence : String := String.ofList (List.replicate 64 'e')

def sampleAmounts : ResourceAmountsV1 :=
  { activeRuntimeNs := 100, toolAttempts := 1, concurrencySlots := 1 }

def sampleReservation : ResourceReservationV1 where
  reservationId := "reservation-1"
  requested := sampleAmounts
  requestSha256 := taggedDigest (.reservation "reservation-1" sampleAmounts .localFree false)
  reservation_id_valid := by decide +kernel
  request_hash_valid := by decide +kernel
  one_slot := rfl
  known_class := by decide
  local_free := by decide
  external := by decide

def sampleLineage : ExecutionLineageV1 where
  ownerKind := .tool
  ownerId := "tool-1"
  role := "tool"
  phaseId := "phase-1"
  rootAttemptId := "attempt-1"
  attemptId := "attempt-1"
  rootContextId := "context-1"
  contextId := "context-1"
  contextSourceSha256 := sampleEvidence
  contextPolicySha256 := sampleEvidence
  contextIntegritySha256 := sampleEvidence
  executionOrdinal := 0
  idempotencyKey := "key-1"
  idempotencyRequestSha256 := sampleEvidence
  identifiers := by decide +kernel
  role_valid := by decide +kernel
  hashes := by decide +kernel
  paired := rfl
  initial := by decide
  fresh := by decide
  fresh_context := by decide

def samplePolicy : BudgetPolicyV2 := {}

/-- A call made when the clock reads `n`, without storage faults. -/
def Call.at (n : Nat) (c : Call) : Action := .call c { clock := some n }

def sampleCreation : List Action :=
  [Call.at 10 (.create { basePolicy := { maxDeliberationRounds := 3, maxToolRetries := 2 } }
    "operation-1")]

/-- Two agents ran at once; nothing is active any more. -/
def pairedRun : List Action :=
  [Call.at 10 (.create { activation := { maxConcurrentAgents := 2 } } "operation-1"),
    Call.at 11 (.reserve "operation-2" "permit-1" sampleReservation sampleLineage none none),
    Call.at 12 (.start "operation-3" "permit-1"),
    Call.at 13 (.settle
      { operationId := "operation-4", settlementId := "settlement-1", permitId := "permit-1"
        actual := { toolAttempts := 1 }, status := .succeeded, resultSha256 := some sampleEvidence
        effectEvidenceSha256 := some sampleEvidence, observedPeakConcurrency := some 2 })]

/-- A started permit is cancelled with an unknown effect. -/
def unknownEffectRun : List Action :=
  [Call.at 10 (.create {} "operation-1"),
    Call.at 11 (.reserve "operation-2" "permit-1" sampleReservation sampleLineage none none),
    Call.at 12 (.start "operation-3" "permit-1"),
    Call.at 13 (.requestCancellation "operation-4" "permit-1"),
    Call.at 14 (.recordCancellation
      { operationId := "operation-5", permitId := "permit-1", stateValue := .effectUnknown
        evidenceSha256 := some sampleEvidence, workerLive := false })]

/-- Its settlement with the evidence recorded before. -/
def repeatedSettlement : Action :=
  Call.at 15 (.settle
    { operationId := "operation-6", settlementId := "settlement-1", permitId := "permit-1"
      actual := {}, status := .effectUnknown, effectEvidenceSha256 := some sampleEvidence })

/-- The settlement is published, and the history it leaves does not load. -/
theorem repeated_unknown_effect_unreadable :
    checkHistory taggedDigest "run-1"
        (run taggedDigest "run-1" (unknownEffectRun ++ [repeatedSettlement])).revisions =
      .error "operation changed the wrong attempt status" ∧
    ¬ ∀ done a, done ++ [a] <+: unknownEffectRun ++ [repeatedSettlement] →
      AcceptsPublished taggedDigest "run-1" (run taggedDigest "run-1" done) a ∧
        Readable taggedDigest "run-1" (run taggedDigest "run-1" (done ++ [a])) := by
  have hrun : checkHistory taggedDigest "run-1"
      (run taggedDigest "run-1" (unknownEffectRun ++ [repeatedSettlement])).revisions =
        .error "operation changed the wrong attempt status" := by decide +kernel
  refine ⟨hrun, fun h => ?_⟩
  rcases (h unknownEffectRun repeatedSettlement (List.prefix_refl _)).2 with hempty | hreads
  · rw [hempty] at hrun
    exact absurd hrun (by decide)
  · rw [(loadHistory_readable.1 hreads).2] at hrun
    exact absurd hrun (by decide)

end

end PokerDeliberation.Budgets
