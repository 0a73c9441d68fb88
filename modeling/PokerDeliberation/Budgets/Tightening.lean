import PokerDeliberation.Budgets.Safety

/-!
# Tightening the policy

`tighten_policy` holds the new limits against what the run has used and
reserved. The snapshot validator that then runs on the successor asks for one
thing more, the recorded peak concurrency. On every other point the two agree,
so a tightening that was admitted fails in the validator exactly when the new
policy allows fewer agents than have run at once, or the operation has no
well-formed identity.
-/

namespace PokerDeliberation.Budgets

open Lib

section

variable {sha256 : Payload → String} {runId operationId reasonSha256 : String}
variable {state updated : DurableBudgetStateV1} {elapsed : Nat} {newPolicy : DurableBudgetPolicyV1}

/-! ## Appending to the log -/

/-- One operation more with its event is still a log. -/
theorem checkLog_grown {operation : IdempotencyRecordV1} {event : DurableEventV1}
    (hlog : state.checkLog sha256 = .ok ()) (hpositive : 1 ≤ state.generation)
    (hordinal : event.ordinal = state.events.length) (happlied : operation.outcome = .applied)
    (hkind : operation.kind ≠ .initializeRun) (hkinds : event.kind = operation.kind)
    (hids : event.operationId = operation.operationId)
    (hsubjects : event.subjectId = operation.subjectId)
    (hdigest : event.eventSha256 = sha256 (.event event.ordinal event.kind event.operationId
      event.subjectId operation.resultSha256)) :
    (grown sha256 state updated operation event).checkLog sha256 = .ok () := by
  unfold DurableBudgetStateV1.checkLog at hlog ⊢
  simp only [bind_eq_ok, require_eq_ok, forM_eq_ok, exists_const] at hlog ⊢
  obtain ⟨hordinals, ⟨hops, hevents⟩, ⟨hhead, htail⟩, hpairs⟩ := hlog
  have hne : state.operations ≠ [] := by
    rw [← List.length_pos_iff, hops]
    omega
  refine ⟨?_, ⟨?_, ?_⟩, ⟨?_, ?_⟩, ?_⟩
  · simp only [grown, List.map_append, List.map_cons, List.map_nil, List.length_append,
      List.length_singleton, List.range_succ, hordinals, hordinal]
  · simp [grown, hops]
  · simp [grown, hevents]
  · rw [grown, List.head?_append_of_ne_nil _ hne]
    exact hhead
  · intro o ho
    rw [grown, List.tail_append_of_ne_nil hne] at ho
    rcases List.mem_append.1 ho with ho | ho
    · exact htail o ho
    · rw [List.mem_singleton.1 ho]
      exact hkind
  · intro pair hpair
    rw [grown, List.zip_append (by rw [hops, hevents])] at hpair
    rcases List.mem_append.1 hpair with hpair | hpair
    · exact hpairs pair hpair
    · obtain rfl : pair = (operation, event) := by simpa using hpair
      exact ⟨happlied, hkinds, hids, hsubjects, hdigest⟩

/-! ## The successor and its validator -/

/-- The state `tighten_policy` extends by its operation. -/
def tightened (sha256 : Payload → String) (state : DurableBudgetStateV1) (usage : DurableUsageV1)
    (newPolicy : DurableBudgetPolicyV1) : DurableBudgetStateV1 :=
  { state.charged usage (newPolicy.basePolicy.runtimeLimitNs - usage.activeRuntimeNs) with
    policy := newPolicy
    policySha256 := sha256 (.basePolicy newPolicy.basePolicy)
    activationSha256 := sha256 (.activation newPolicy.activation) }

/-- What the validator asks of a tightened state that its predecessor does not
already answer. -/
theorem validateSnapshot_tightened_iff {usage : DurableUsageV1} {operation : IdempotencyRecordV1}
    {event : DurableEventV1} (hsha : ∀ p, isSha256 (sha256 p) = true)
    (hv : state.validateSnapshot sha256 = .ok ())
    (hlog : (grown sha256 state (tightened sha256 state usage newPolicy) operation event).checkLog
      sha256 = .ok ())
    (hnew : operation.operationId ∉ state.operations.map (·.operationId)) :
    (grown sha256 state (tightened sha256 state usage newPolicy) operation event).validateSnapshot
        sha256 = .ok () ↔
      state.activeSlots ≤ newPolicy.activation.maxConcurrentAgents ∧
        usage.peakConcurrency ≤ newPolicy.activation.maxConcurrentAgents := by
  unfold DurableBudgetStateV1.validateSnapshot at hv ⊢
  simp only [check_bind_eq_ok, require_eq_ok] at hv ⊢
  obtain ⟨hrun, hpositive, ⟨hprevious, -, -⟩, -, -, -, -, hids, hlineages, hstatuses, -, -, -⟩ := hv
  have hoperations : (grown sha256 state (tightened sha256 state usage newPolicy) operation
      event).checkIdentities = .ok () := by
    unfold DurableBudgetStateV1.checkIdentities at hids ⊢
    simp only [check_bind_eq_ok, require_eq_ok] at hids ⊢
    obtain ⟨h1, h2, h3, h4, h5, h6, h7, h8⟩ := hids
    refine ⟨h1, h2, h3, h4, h5, h6, ?_, h8⟩
    rw [grown, List.map_append, List.map_singleton, List.nodup_append]
    refine ⟨h7, List.nodup_singleton _, fun a ha b hb => ?_⟩
    rw [List.mem_singleton.1 hb]
    rintro rfl
    exact hnew ha
  constructor
  · rintro ⟨-, -, -, -, -, -, -, -, -, -, -, hslots, hpeak⟩
    exact ⟨hslots, hpeak⟩
  · rintro ⟨hslots, hpeak⟩
    refine ⟨hrun, by simp [grown], ⟨?_, hsha _, hsha _⟩, ?_, rfl, rfl, rfl, hoperations, hlineages,
      hstatuses, hlog, hslots, hpeak⟩
    · rintro v hv
      obtain rfl : sha256 (.state state) = v := Option.some.inj hv
      exact hsha _
    · simp only [grown, reduceCtorEq, iff_false]
      omega

/-! ## Admission -/

/-- The checks `tighten_policy` makes before it builds the successor, with the
usage it charges. -/
def admitTightening (operationId : String) (newPolicy : DurableBudgetPolicyV1)
    (state : DurableBudgetStateV1) (elapsed : Nat) : Except StoreError DurableUsageV1 := do
  let (usage, _) ← chargeActiveRuntime state elapsed operationId false
  ensure (state.failureLatch = none ∧ newPolicy ≠ state.policy ∧
      isPolicyTightening state.policy newPolicy)
    { code := .policyMismatch, operationId }
  forM resourceOrder fun r =>
    let observed := tighteningObserved usage state.activePermits r
    let limit := policyLimit newPolicy r
    ensure (observed ≤ limit)
      { code := .policyMismatch, operationId, resource := some r, limit := some limit
        observed := some observed }
  return usage

theorem applyActual_peak {u v : DurableUsageV1} {actual : ResourceAmountsV1}
    (h : u.applyActual actual = .ok v) :
    v.peakConcurrency = max u.peakConcurrency actual.concurrencySlots := by
  unfold DurableUsageV1.applyActual at h
  simp only [bind_eq_ok, pure_eq_ok] at h
  obtain ⟨_, _, rfl⟩ := h
  rfl

/-- Each active permit holds one slot. -/
theorem activeSlots_eq_length : state.activeSlots = state.activePermits.length := by
  have hone : ∀ p ∈ state.activePermits, p.reservation.requested.concurrencySlots = 1 :=
    fun p _ => p.reservation.one_slot
  rw [DurableBudgetStateV1.activeSlots, List.map_congr_left hone]
  simp

theorem admitTightening_ok {usage : DurableUsageV1}
    (h : admitTightening operationId newPolicy state elapsed = .ok usage) :
    usage.peakConcurrency = state.usage.peakConcurrency ∧
      state.activeSlots ≤ newPolicy.activation.maxConcurrentAgents := by
  simp only [admitTightening, bind_eq_ok] at h
  obtain ⟨⟨charged, remaining⟩, hcharge, h⟩ := h
  simp only [ensure_eq_ok, forM_eq_ok, pure_eq_ok, exists_const] at h
  obtain ⟨-, hlimits, rfl⟩ := h
  refine ⟨?_, ?_⟩
  · unfold chargeActiveRuntime at hcharge
    simp only [bind_eq_ok, valid_eq_ok, ensure_eq_ok, pure_eq_ok, Prod.mk.injEq] at hcharge
    obtain ⟨u, hu, _, _, rfl, _⟩ := hcharge
    rw [applyActual_peak hu]
    exact Nat.max_zero _
  · rw [activeSlots_eq_length]
    exact hlimits .concurrencySlots (mem_resourceOrder _)

theorem tightenPolicy_successor :
    (tightenPolicy sha256 runId operationId newPolicy reasonSha256).successor state elapsed =
      admitTightening operationId newPolicy state elapsed >>= fun usage =>
        valid (appendOperation sha256 state (tightened sha256 state usage newPolicy) operationId
          .tightenPolicy (sha256 (.tightenRequest newPolicy reasonSha256)) (some runId)
          (.tightenResult (sha256 (.policy state.policy)) (sha256 (.policy newPolicy))
            reasonSha256)) := by
  simp only [tightenPolicy, admitTightening, tightened, bind_assoc, pure_bind]

/-- Appending the admitted tightening succeeds exactly when the operation has an
identity and as many agents as ever ran at once may still run. -/
theorem appendOperation_tightened_iff {usage : DurableUsageV1} {requestSha256 : String}
    {payload : Payload} (hsha : ∀ p, isSha256 (sha256 p) = true)
    (hrequest : isSha256 requestSha256 = true) (hs : Sound sha256 runId state)
    (hnew : operationId ∉ state.operations.map (·.operationId))
    (hadmission : admitTightening operationId newPolicy state elapsed = .ok usage) :
    (∃ s', appendOperation sha256 state (tightened sha256 state usage newPolicy) operationId
      .tightenPolicy requestSha256 (some runId) payload = .ok s') ↔
      isIdentifier operationId = true ∧
        state.usage.peakConcurrency ≤ newPolicy.activation.maxConcurrentAgents := by
  obtain ⟨hpeak, hslots⟩ := admitTightening_ok hadmission
  have hv := hs.valid
  unfold DurableBudgetStateV1.validateSnapshot at hv
  simp only [check_bind_eq_ok, require_eq_ok] at hv
  obtain ⟨hrun, hpositive, -, -, -, -, -, -, -, -, hlog, -, -⟩ := hv
  rw [hs.run] at hrun
  unfold appendOperation
  simp only [check_bind_eq_ok, IdempotencyRecordV1.check, DurableEventV1.check, require_eq_ok,
    validated_eq_ok, hsha, hrequest, and_true]
  have hsubject : optionalIdentifier (some runId) := fun v hv => Option.some.inj hv ▸ hrun
  constructor
  · rintro ⟨s', ⟨hid, -⟩, -, hvalid, rfl⟩
    have hiff := (validateSnapshot_tightened_iff hsha hs.valid (checkLog_grown hlog hpositive rfl rfl
      (by simp) rfl rfl rfl rfl) hnew).1 hvalid
    exact ⟨hid, hpeak ▸ hiff.2⟩
  · rintro ⟨hid, hle⟩
    refine ⟨_, ⟨hid, hsubject⟩, ⟨hid, hsubject⟩, ?_, rfl⟩
    exact (validateSnapshot_tightened_iff hsha hs.valid (checkLog_grown hlog hpositive rfl rfl
      (by simp) rfl rfl rfl rfl) hnew).2 ⟨hslots, hpeak ▸ hle⟩

/-! ## Whole calls -/

/-- `tighten_policy` has loaded `state`, the operation is not recorded there and
the admission checks hold. -/
@[mk_iff]
structure TighteningAdmitted (sha256 : Payload → String) (runId : String)
    (store : DurableBudgetStore) (env : Environment) (operationId : String)
    (newPolicy : DurableBudgetPolicyV1) (reasonSha256 : String) (state : DurableBudgetStateV1) :
    Prop where
  observed : ∃ out, store.clock.observeMonotonic env.clock operationId = .ok out
  loaded : load sha256 runId store.revisions env.loadFault = .ok state
  reason : isSha256 reasonSha256 = true
  unrecorded : existingOperation state
    (tightenPolicy sha256 runId operationId newPolicy reasonSha256) = .ok none
  admitted : ∃ usage,
    admitTightening operationId newPolicy state (store.elapsed env) = .ok usage

instance {store : DurableBudgetStore} {env : Environment} : Decidable (TighteningAdmitted sha256 runId
    store env operationId newPolicy reasonSha256 state) :=
  decidable_of_iff _ (tighteningAdmitted_iff ..).symm

theorem storageFailure_check {code : RunStorageFailureCode} (h : isIdentifier operationId = true) :
    (storageFailure code operationId).check = .ok () := by
  have hid : optionalIdentifier (some operationId) := fun v hv => Option.some.inj hv ▸ h
  have hnone : optionalSha256 none := fun v hv => by cases hv
  unfold storageFailure
  split_ifs <;> simp only [DurableBudgetFailureV1.check, check_bind_eq_ok, require_eq_ok] <;>
    exact ⟨hid, hnone, by simp, by simp⟩

/-- Publishing the successor of a well-named operation applies or refuses. -/
theorem commitRevision_typed {store : DurableBudgetStore} {s' : DurableBudgetStateV1} {m : Mutation}
    {observed : Nat} {fault : Option PublishFault} (h : isIdentifier m.operationId = true)
    (message : String) : (store.commitRevision s' m observed fault).2 ≠ .error (.invalid message) := by
  unfold DurableBudgetStore.commitRevision
  split
  · simp [raise, storageFailure_check h]
  · simp

theorem existingOperation_none_mem {m : Mutation} (h : existingOperation state m = .ok none) :
    m.operationId ∉ state.operations.map (·.operationId) := by
  unfold existingOperation at h
  split at h
  · next hfind =>
    intro hmem
    obtain ⟨o, ho, hid⟩ := List.mem_map.1 hmem
    exact Keyed.find_eq_none.1 hfind o ho hid
  · simp only [bind_eq_ok, pure_eq_ok, reduceCtorEq, and_false, exists_false] at h

/-- With the admission checks passed, the successor exists under the same
condition. -/
theorem tightening_successor_iff {usage : DurableUsageV1} (hsha : ∀ p, isSha256 (sha256 p) = true)
    (hs : Sound sha256 runId state)
    (hnew : existingOperation state
      (tightenPolicy sha256 runId operationId newPolicy reasonSha256) = .ok none)
    (hadmission : admitTightening operationId newPolicy state elapsed = .ok usage) :
    (∃ s', (tightenPolicy sha256 runId operationId newPolicy reasonSha256).successor state elapsed =
      .ok s') ↔ isIdentifier operationId = true ∧
        state.usage.peakConcurrency ≤ newPolicy.activation.maxConcurrentAgents := by
  rw [tightenPolicy_successor, bind_ok_left hadmission]
  simp only [valid_eq_ok]
  exact appendOperation_tightened_iff hsha (hsha _) hs (existingOperation_none_mem hnew) hadmission

/-- Past the admission checks only a model validator is left to fail. -/
theorem tightening_successor_error {usage : DurableUsageV1} {e : StoreError}
    (hadmission : admitTightening operationId newPolicy state elapsed = .ok usage)
    (h : (tightenPolicy sha256 runId operationId newPolicy reasonSha256).successor state elapsed =
      .error e) : ∃ message, e = .invalid message := by
  rw [tightenPolicy_successor, bind_ok_left hadmission] at h
  generalize appendOperation sha256 state _ _ _ _ _ _ = built at h
  cases built with
  | ok s' => cases h
  | error message => exact ⟨message, (Except.error.inj h).symm⟩

/-- A mutation that is not recorded publishes what it builds from the loaded state. -/
theorem mutate_loaded {store : DurableBudgetStore} {env : Environment} {m : Mutation}
    {observed : Nat} {t : ClockTable}
    (hobserve : store.clock.observeMonotonic env.clock m.operationId = .ok (observed, elapsed, t))
    (hload : load sha256 runId store.revisions env.loadFault = .ok state)
    (hnew : (m.precheck >>= fun _ => existingOperation state m) = .ok none) :
    (store.mutate sha256 runId m env).2 =
      match m.successor state elapsed with
      | .error e => .error e
      | .ok s' => (({ store with clock := t } : DurableBudgetStore).commitRevision s' m observed
          env.publishFault).2 := by
  obtain ⟨-, -, rest, hcurrent⟩ := load_ok hload
  have hpublish : (⟨t, store.revisions⟩ : DurableBudgetStore).revisions =
      ⟨state.generation, state⟩ :: rest := hcurrent
  unfold DurableBudgetStore.mutate
  simp only [hobserve, hload, hnew]
  cases m.successor state elapsed with
  | error e => rfl
  | ok s' =>
    simp only
    rw [publish_current hpublish]

/-- In every run, a tightening whose admission checks have passed builds a
successor the snapshot validator accepts, and its call applies or refuses with a
typed failure, exactly when its operation has a well-formed identity and the new
policy allows as many agents as the run has recorded at once. -/
theorem tightening_typed_iff (sha256 : Payload → String) (hsha : ∀ p, isSha256 (sha256 p) = true)
    (runId : String) (actions : List Action) (env : Environment) (operationId : String)
    (newPolicy : DurableBudgetPolicyV1) (reasonSha256 : String) (state : DurableBudgetStateV1)
    (h : TighteningAdmitted sha256 runId (run sha256 runId actions) env operationId newPolicy
      reasonSha256 state) :
    ((∃ s', (tightenPolicy sha256 runId operationId newPolicy reasonSha256).successor state
        ((run sha256 runId actions).elapsed env) = .ok s' ∧ s'.validateSnapshot sha256 = .ok ()) ↔
      isIdentifier operationId = true ∧
        state.usage.peakConcurrency ≤ newPolicy.activation.maxConcurrentAgents) ∧
    ((∀ message, ((run sha256 runId actions).call sha256 runId
        (.tightenPolicy operationId newPolicy reasonSha256) env).2 ≠ .error (.invalid message)) ↔
      isIdentifier operationId = true ∧
        state.usage.peakConcurrency ≤ newPolicy.activation.maxConcurrentAgents) := by
  obtain ⟨⟨⟨observed, elapsed, t⟩, hobserve⟩, hload, hreason, hnew, usage, hadmission⟩ := h
  obtain ⟨-, -, rest, hcurrent⟩ := load_ok hload
  obtain ⟨hreading, helapsed, -, -⟩ := observeMonotonic_ok hobserve
  rw [elapsed_eq env hreading] at helapsed
  have hsound : Sound sha256 runId state := by
    refine run_sound actions ⟨state.generation, state⟩ ?_
    rw [hcurrent]
    exact List.mem_cons_self
  have hiff := tightening_successor_iff hsha hsound hnew hadmission
  refine ⟨?_, ?_⟩
  · rw [← hiff]
    constructor
    · rintro ⟨s', hs', -⟩
      exact ⟨s', hs'⟩
    · rintro ⟨s', hs'⟩
      exact ⟨s', hs', (tightenPolicy_effect hs').valid⟩
  · rw [← hiff]
    have hcall := mutate_loaded hobserve hload (m := tightenPolicy sha256 runId operationId newPolicy
      reasonSha256) (bind_eq_ok.2 ⟨(), ensure_eq_ok.2 hreason, hnew⟩)
    rw [helapsed] at hcall
    have hcall' : ((run sha256 runId actions).call sha256 runId
        (.tightenPolicy operationId newPolicy reasonSha256) env).2 = _ := hcall
    rw [hcall']
    cases hsuccessor : (tightenPolicy sha256 runId operationId newPolicy reasonSha256).successor state
        ((run sha256 runId actions).elapsed env) with
    | error e =>
      obtain ⟨message, rfl⟩ := tightening_successor_error hadmission hsuccessor
      simp
    | ok s' =>
      have hid := (hiff.1 ⟨s', hsuccessor⟩).1
      refine iff_of_true (fun message => ?_) ⟨s', rfl⟩
      exact commitRevision_typed hid message

/-! ## A run that cannot be tightened -/

/-- The tightening to one agent is admitted and fails in the model validator. -/
theorem paired_tightening_untyped :
    ¬ ∀ actions env operationId newPolicy reasonSha256 state,
      TighteningAdmitted taggedDigest "run-1" (run taggedDigest "run-1" actions) env operationId
        newPolicy reasonSha256 state →
      ∀ message, ((run taggedDigest "run-1" actions).call taggedDigest "run-1"
        (.tightenPolicy operationId newPolicy reasonSha256) env).2 ≠ .error (.invalid message) := by
  intro h
  obtain ⟨entry, -, hadmitted⟩ : ∃ entry ∈ (run taggedDigest "run-1" pairedRun).revisions,
      TighteningAdmitted taggedDigest "run-1" (run taggedDigest "run-1" pairedRun) { clock := some 14 }
        "operation-5" {} sampleEvidence entry.state := by
    decide +kernel
  have hresult : ((run taggedDigest "run-1" pairedRun).call taggedDigest "run-1"
      (.tightenPolicy "operation-5" {} sampleEvidence) { clock := some 14 }).2 =
        .error (.invalid "recorded peak concurrency exceeds activation") := by
    decide +kernel
  exact h _ _ _ _ _ _ hadmitted _ hresult

/-- A run that has used nothing tightens to one agent. -/
theorem tightening_typed_unused :
    ¬ ∃ message, ((run (fun _ => sampleEvidence) "run-1" (pairedRun.take 1)).call
      (fun _ => sampleEvidence) "run-1" (.tightenPolicy "operation-2" {} sampleEvidence)
        { clock := some 11 }).2 = .error (.invalid message) := by
  obtain ⟨entry, -, hadmitted, hpeak⟩ :
      ∃ entry ∈ (run (fun _ => sampleEvidence) "run-1" (pairedRun.take 1)).revisions,
        TighteningAdmitted (fun _ => sampleEvidence) "run-1"
          (run (fun _ => sampleEvidence) "run-1" (pairedRun.take 1)) { clock := some 11 }
          "operation-2" {} sampleEvidence entry.state ∧ entry.state.usage.peakConcurrency ≤ 1 := by
    decide +kernel
  have hid : isIdentifier "operation-2" = true := by decide +kernel
  have hiff := tightening_typed_iff (fun _ => sampleEvidence) (fun _ => by decide +kernel) "run-1"
    (pairedRun.take 1) { clock := some 11 } "operation-2" {} sampleEvidence entry.state hadmitted
  exact fun ⟨message, h⟩ => hiff.2.2 ⟨hid, hpeak⟩ message h

end

end PokerDeliberation.Budgets
