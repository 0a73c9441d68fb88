import PokerDeliberation.Budgets.History

/-!
# Budget safety

While no failure is latched, what a run has used and what its active permits
still reserve stay within the current policy. Reserving and tightening check
it; a settlement moves an amount from the reservation to the usage, and one
that reports more than it reserved latches a failure.
-/

namespace PokerDeliberation.Budgets

open Lib

section

variable {sha256 : Payload → String} {runId : String}
variable {state s' : DurableBudgetStateV1} {elapsed : Nat} {r : Resource}

/-- The cumulative resources besides the runtime. -/
def effectResources : List Resource :=
  [.providerAttempts, .toolAttempts, .retryAttempts, .externalCostMicroUsd, .runBytes]

/-- The resources that bound a single value. -/
def byteResources : List Resource :=
  [.providerOutputBytes, .toolInputBytes, .toolOutputBytes, .artifactBytes]

theorem effectResources_spec (h : r ∈ effectResources) :
    r ≠ .activeRuntimeNs ∧ r ≠ .concurrencySlots ∧ r.cumulative = true := by
  revert h
  cases r <;> decide

theorem byteResources_spec (h : r ∈ byteResources) :
    r ≠ .activeRuntimeNs ∧ r ≠ .concurrencySlots ∧ r.cumulative = false := by
  revert h
  cases r <;> decide

/-- Usage and reservations are within the policy. -/
structure WithinBudget (s : DurableBudgetStateV1) : Prop where
  effects : ∀ r ∈ effectResources,
    s.usage.get r + reservedSum s.activePermits r ≤ resourceLimits s.policy.basePolicy r
  bytes : ∀ r ∈ byteResources, s.usage.get r ≤ resourceLimits s.policy.basePolicy r ∧
    ∀ p ∈ s.activePermits, p.reservation.requested.get r ≤ resourceLimits s.policy.basePolicy r
  permits : s.activePermits.length ≤ s.policy.activation.maxConcurrentAgents

theorem policyLimit_of_ne (policy : DurableBudgetPolicyV1) (h : r ≠ .concurrencySlots) :
    policyLimit policy r = resourceLimits policy.basePolicy r := if_neg h

/-! ## What the active permits reserve -/

theorem reservedSum_append (permits : List DurablePermitV1) (permit : DurablePermitV1) :
    reservedSum (permits ++ [permit]) r =
      reservedSum permits r + permit.reservation.requested.get r := by
  simp [reservedSum]

theorem reservedSum_remove {permits : List DurablePermitV1} {permit : DurablePermitV1}
    (hd : Keyed.Distinct DurablePermitV1.permitId permits) (hp : permit ∈ permits) :
    reservedSum permits r = permit.reservation.requested.get r +
      reservedSum (Keyed.remove DurablePermitV1.permitId permit.permitId permits) r :=
  Keyed.sum_remove (fun p : DurablePermitV1 => p.reservation.requested.get r) hd hp

theorem reservations_update {permits : List DurablePermitV1} {permit started : DurablePermitV1}
    (hd : Keyed.Distinct DurablePermitV1.permitId permits) (hp : permit ∈ permits)
    (hr : started.reservation = permit.reservation) :
    (Keyed.update DurablePermitV1.permitId permit.permitId (fun _ => started) permits).map
      (·.reservation) = permits.map (·.reservation) := by
  refine Keyed.map_update fun x hx hid => ?_
  rw [hd.eq hx hp hid, hr]

theorem exceededResource_none {reserved actual : ResourceAmountsV1}
    (h : exceededResource reserved actual = none) (r : Resource) :
    actual.get r ≤ reserved.get r := by
  have hno := List.find?_eq_none.1 h r (mem_resourceOrder r)
  simpa using hno

/-! ## The step lemma, by mutation -/

/-- A state that keeps usage, reservations and policy keeps the budget. -/
theorem WithinBudget.congr (h : WithinBudget state)
    (husage : ∀ r, r ≠ .activeRuntimeNs → r ≠ .concurrencySlots →
      s'.usage.get r = state.usage.get r)
    (hpermits : s'.activePermits.map (·.reservation) = state.activePermits.map (·.reservation))
    (hpolicy : s'.policy = state.policy) : WithinBudget s' := by
  have hsum : ∀ r, reservedSum s'.activePermits r = reservedSum state.activePermits r := by
    intro r
    have hmap := congrArg (fun rs => (rs.map fun x => x.requested.get r).sum) hpermits
    simpa [reservedSum, Function.comp_def] using hmap
  refine ⟨fun r hr => ?_, fun r hr => ?_, ?_⟩
  · obtain ⟨hne, hns, _⟩ := effectResources_spec hr
    rw [husage r hne hns, hsum, hpolicy]
    exact h.effects r hr
  · obtain ⟨hne, hns, _⟩ := byteResources_spec hr
    rw [husage r hne hns, hpolicy]
    refine ⟨(h.bytes r hr).1, fun p hp => ?_⟩
    have hmem : p.reservation ∈ state.activePermits.map (·.reservation) := by
      rw [← hpermits]
      exact List.mem_map_of_mem hp
    obtain ⟨q, hq, hqp⟩ := List.mem_map.1 hmem
    rw [← hqp]
    exact (h.bytes r hr).2 q hq
  · have hlength : s'.activePermits.length = state.activePermits.length := by
      simpa using congrArg List.length hpermits
    rw [hlength, hpolicy]
    exact h.permits

theorem WithinBudget.reserve {usage : DurableUsageV1} {remaining : Nat}
    {reservation : ResourceReservationV1} {permit : DurablePermitV1}
    (h : WithinBudget state) (charge : Charge state elapsed usage)
    (admitted : ∀ r, admissionObserved (state.charged usage remaining) reservation.requested r ≤
      policyLimit state.policy r)
    (hpermit : permit.reservation = reservation) (husage : s'.usage = usage)
    (hpermits : s'.activePermits = state.activePermits ++ [permit])
    (hpolicy : s'.policy = state.policy) : WithinBudget s' := by
  refine ⟨fun r hr => ?_, fun r hr => ?_, ?_⟩
  · obtain ⟨_, hns, hcumulative⟩ := effectResources_spec hr
    have hadmit := admitted r
    rw [policyLimit_of_ne _ hns] at hadmit
    simp only [admissionObserved, hns, hcumulative, if_false, if_true] at hadmit
    rw [husage, hpermits, hpolicy, reservedSum_append, hpermit, ← Nat.add_assoc]
    exact hadmit
  · obtain ⟨hne, hns, hcumulative⟩ := byteResources_spec hr
    have hadmit := admitted r
    rw [policyLimit_of_ne _ hns] at hadmit
    simp only [admissionObserved, hns, hcumulative, if_false, Bool.false_eq_true] at hadmit
    rw [husage, hpermits, hpolicy, charge.effects r hne hns]
    refine ⟨(h.bytes r hr).1, fun p hp => ?_⟩
    rcases List.mem_append.1 hp with hp | hp
    · exact (h.bytes r hr).2 p hp
    · rw [List.mem_singleton.1 hp, hpermit]
      exact hadmit
  · have hadmit : state.activePermits.length + reservation.requested.concurrencySlots ≤
        state.policy.activation.maxConcurrentAgents := admitted .concurrencySlots
    rw [reservation.one_slot] at hadmit
    rw [hpermits, hpolicy, List.length_append, List.length_singleton]
    exact hadmit

/-- Closing a permit with at most what it reserved. -/
theorem WithinBudget.close {permit : DurablePermitV1} (actual : ResourceAmountsV1)
    (h : WithinBudget state) (hd : Keyed.Distinct DurablePermitV1.permitId state.activePermits)
    (hp : permit ∈ state.activePermits)
    (hactual : ∀ r, r ≠ .activeRuntimeNs → actual.get r ≤ permit.reservation.requested.get r)
    (husage : ∀ r, r ≠ .activeRuntimeNs → r ≠ .concurrencySlots →
      s'.usage.get r = if r.cumulative then state.usage.get r + actual.get r
        else max (state.usage.get r) (actual.get r))
    (hpermits : s'.activePermits =
      Keyed.remove DurablePermitV1.permitId permit.permitId state.activePermits)
    (hpolicy : s'.policy = state.policy) : WithinBudget s' := by
  refine ⟨fun r hr => ?_, fun r hr => ?_, ?_⟩
  · obtain ⟨hne, hns, hcumulative⟩ := effectResources_spec hr
    have hbudget := h.effects r hr
    have hle := hactual r hne
    rw [reservedSum_remove hd hp] at hbudget
    rw [husage r hne hns, if_pos hcumulative, hpermits, hpolicy]
    omega
  · obtain ⟨hne, hns, hcumulative⟩ := byteResources_spec hr
    obtain ⟨hused, hreserved⟩ := h.bytes r hr
    rw [husage r hne hns, hpermits, hpolicy]
    refine ⟨?_, fun p hp => hreserved p (Keyed.mem_remove.1 hp).1⟩
    rw [if_neg (by simp [hcumulative])]
    exact Nat.max_le.2 ⟨hused, (hactual r hne).trans (hreserved permit hp)⟩
  · rw [hpermits, hpolicy]
    exact (List.length_filter_le _ _).trans h.permits

theorem le_foldl_max (xs : List Nat) (n : Nat) :
    n ≤ xs.foldl max n ∧ ∀ x ∈ xs, x ≤ xs.foldl max n := by
  induction xs generalizing n with
  | nil => simp
  | cons x xs ih =>
    obtain ⟨hn, hxs⟩ := ih (max n x)
    simp only [List.foldl_cons, List.mem_cons, forall_eq_or_imp]
    exact ⟨le_trans (Nat.le_max_left n x) hn, le_trans (Nat.le_max_right n x) hn, hxs⟩

theorem withinBudget_tightened {usage : DurableUsageV1} {newPolicy : DurableBudgetPolicyV1}
    (within : ∀ r, tighteningObserved usage state.activePermits r ≤ policyLimit newPolicy r)
    (husage : s'.usage = usage) (hpermits : s'.activePermits = state.activePermits)
    (hpolicy : s'.policy = newPolicy) : WithinBudget s' := by
  refine ⟨fun r hr => ?_, fun r hr => ?_, ?_⟩
  · obtain ⟨_, hns, hcumulative⟩ := effectResources_spec hr
    have hwithin := within r
    rw [policyLimit_of_ne _ hns] at hwithin
    simp only [tighteningObserved, hns, hcumulative, if_false, if_true] at hwithin
    rw [husage, hpermits, hpolicy]
    exact hwithin
  · obtain ⟨_, hns, hcumulative⟩ := byteResources_spec hr
    have hwithin := within r
    rw [policyLimit_of_ne _ hns] at hwithin
    simp only [tighteningObserved, hns, hcumulative, if_false, Bool.false_eq_true] at hwithin
    obtain ⟨hused, hreserved⟩ := le_foldl_max
      (state.activePermits.map fun p => p.reservation.requested.get r) (usage.get r)
    rw [husage, hpermits, hpolicy]
    exact ⟨hused.trans hwithin, fun p hp =>
      (hreserved _ (List.mem_map_of_mem hp)).trans hwithin⟩
  · rw [hpermits, hpolicy]
    exact within .concurrencySlots

/-! ## The latch -/

/-- A settlement that leaves the latch clear stayed within its reservation. -/
theorem settledLatch_none {a : SettleArgs} {latch : Option DurableBudgetFailureV1}
    {reserved actual : ResourceAmountsV1} {status : SettlementStatus}
    (h : settledLatch a latch reserved actual (effectiveStatus reserved actual status) = none) :
    latch = none ∧ exceededResource reserved actual = none := by
  cases latch with
  | some failure => simp [settledLatch] at h
  | none =>
    refine ⟨rfl, ?_⟩
    cases hexceeded : exceededResource reserved actual with
    | none => rfl
    | some resource => simp [settledLatch, effectiveStatus, hexceeded] at h

theorem cancellationLatch_none {a : CancellationArgs} {latch : Option DurableBudgetFailureV1}
    (h : cancellationLatch a latch = none) : latch = none := by
  cases latch with
  | some failure => simp [cancellationLatch] at h
  | none => rfl

/-! ## Runs -/

/-- The invariant of a run: the budget is kept or a failure is latched. -/
def BudgetKept (sha256 : Payload → String) (s : DurableBudgetStateV1) : Prop :=
  s.validateSnapshot sha256 = .ok () ∧ (s.failureLatch = none → WithinBudget s)

theorem Effect.budgetKept (hk : BudgetKept sha256 state) {c : Call}
    (h : Effect sha256 runId state elapsed c s') : BudgetKept sha256 s' := by
  refine ⟨h.valid, fun hlatch => ?_⟩
  have hd := (validSnapshot_of hk.1).permits
  cases h with
  | reserve charge latch admitted _ permit_eq _ appended =>
    obtain ⟨_, _, _, _, _, _, _, rfl⟩ := appended
    exact (hk.2 latch).reserve charge admitted permit_eq.2 rfl rfl rfl
  | start charge found _ _ started_eq appended =>
    obtain ⟨_, _, _, _, _, _, _, rfl⟩ := appended
    obtain ⟨hp, rfl⟩ := Keyed.find_mem found
    exact (hk.2 hlatch).congr charge.effects (reservations_update hd hp started_eq.2.1) rfl
  | @settle a permit charged _ applied usage _ _ _ charge found _ _ _ effective_eq _ applied_eq
      usage_eq appended =>
    obtain ⟨_, _, _, _, _, _, _, rfl⟩ := appended
    obtain ⟨hp, hid⟩ := Keyed.find_mem found
    rw [effective_eq] at hlatch
    obtain ⟨hnone, hexceeded⟩ := settledLatch_none hlatch
    refine (hk.2 hnone).close a.actual hd hp (fun r hr => ?_) (fun r hr hs => ?_)
      (by rw [hid]; rfl) rfl
    · have hle := exceededResource_none hexceeded r
      rwa [settledActual, ResourceAmountsV1.get_setRuntime, if_neg hr] at hle
    · show usage.get r = _
      rw [usage_eq, settled_get applied_eq hr, appliedValue, if_neg hs, charge.effects r hr hs]
  | releaseNoEffect charge found _ _ appended =>
    obtain ⟨_, _, _, _, _, _, _, rfl⟩ := appended
    obtain ⟨hp, rfl⟩ := Keyed.find_mem found
    refine (hk.2 hlatch).close {} hd hp (fun r _ => by simp) (fun r hr hs => ?_) rfl rfl
    rw [ResourceAmountsV1.get_default, Nat.add_zero, Nat.max_zero, ite_self]
    exact charge.effects r hr hs
  | requestCancellation charge _ _ appended =>
    obtain ⟨_, _, _, _, _, _, _, rfl⟩ := appended
    exact (hk.2 hlatch).congr charge.effects rfl rfl
  | recordCancellation charge _ _ _ appended =>
    obtain ⟨_, _, _, _, _, _, _, rfl⟩ := appended
    exact (hk.2 (cancellationLatch_none hlatch)).congr charge.effects rfl rfl
  | tightenPolicy _ _ _ _ within appended =>
    obtain ⟨_, _, _, _, _, _, _, rfl⟩ := appended
    exact withinBudget_tightened within rfl rfl rfl

theorem initialState_budgetKept {policy : DurableBudgetPolicyV1}
    {operationId requestSha256 : String}
    (h : initialState sha256 runId policy operationId requestSha256 = .ok s') :
    BudgetKept sha256 s' := by
  obtain ⟨hv, _, _, husage, hpermits, _, _⟩ := initialState_ok h
  refine ⟨hv, fun _ => ⟨fun r _ => ?_, fun r _ => ?_, ?_⟩⟩
  · simp [husage, hpermits, reservedSum]
  · simp [husage, hpermits]
  · simp [hpermits]

/-- In every state a run commits with no failure latched, what is used and
reserved is within the current policy. -/
theorem budget_safety (sha256 : Payload → String) (runId : String) (actions : List Action) :
    ∀ entry ∈ (run sha256 runId actions).revisions, entry.state.failureLatch = none →
      WithinBudget entry.state := by
  intro entry hentry
  exact (run_induction (fun _ _ _ _ h => initialState_budgetKept h)
    (fun _ _ _ _ hk h => h.budgetKept hk) actions entry hentry).2

/-- After a reservation and a start nothing is latched and the budget is kept. -/
theorem budget_safety_started :
    ∃ entry ∈ (run taggedDigest "run-1" (unknownEffectRun.take 3)).revisions,
      entry.state.activePermits.length = 1 ∧ WithinBudget entry.state := by
  obtain ⟨entry, hentry, hlatch, hpermits⟩ :
      ∃ entry ∈ (run taggedDigest "run-1" (unknownEffectRun.take 3)).revisions,
        entry.state.failureLatch = none ∧ entry.state.activePermits.length = 1 := by
    decide +kernel
  exact ⟨entry, hentry, hpermits, budget_safety _ _ _ entry hentry hlatch⟩

end

end PokerDeliberation.Budgets
