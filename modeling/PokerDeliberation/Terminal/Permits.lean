import PokerDeliberation.Budgets.Replayed
import PokerDeliberation.Terminal.Publish

/-!
# The permit of a publication that raises

A permit that a start of the log names is active only as a started one
(`run_startsKept`), and `release_no_effect` refuses a started permit. So what
`publish` does after its reservation, short of moving the pointer, leaves the
permits of the run as they were (`Guarded`), and the permit of the transaction
stays active unless it was settled before the call (`publish_clears_iff`).
-/

namespace PokerDeliberation.Terminal

open Lib Budgets

/-! ## Started permits -/

section Started

variable {sha256 : Payload → String} {runId : String} {state s' : DurableBudgetStateV1}
variable {elapsed : Nat} {actions : List Action}

/-- What holds of the first state of a run and is kept by every successor holds
of every committed state. -/
theorem run_successor_induction {I : DurableBudgetStateV1 → Prop}
    (initial : ∀ policy operationId requestSha256 s',
      initialState sha256 runId policy operationId requestSha256 = .ok s' → I s')
    (step : ∀ state elapsed c s', Call.isCreate c = false → I state →
      (c.mutation sha256 runId).successor state elapsed = .ok s' → I s')
    (actions : List Action) : ∀ entry ∈ (run sha256 runId actions).revisions, I entry.state := by
  induction actions using List.reverseRecOn with
  | nil => simp
  | append_singleton done a ih =>
    rw [run_append]
    rcases act_revisions (run sha256 runId done) a with hsame | ⟨s', ⟨c, env, rfl, hs⟩, hgrown⟩
    · rw [hsame]; exact ih
    · cases hs with
      | first _ hinitial =>
        rw [hgrown]
        exact List.forall_mem_cons.2 ⟨initial _ _ _ _ hinitial, ih⟩
      | @next _ state rest _ hcurrent _ heffect =>
        have hc : c.isCreate = false := by cases heffect <;> rfl
        have hact : (run sha256 runId done).act sha256 runId (.call c env) =
            ((run sha256 runId done).mutate sha256 runId (c.mutation sha256 runId) env).1 := by
          cases c with
          | create => cases hc
          | reserve | start | settle | releaseNoEffect | requestCancellation
          | recordCancellation | tightenPolicy => rfl
        rw [hact] at hgrown ⊢
        obtain ⟨prior, hhead, n, hsuccessor⟩ := mutate_grown hgrown
        rw [hgrown]
        exact List.forall_mem_cons.2
          ⟨step _ _ _ _ hc (ih _ (List.mem_of_mem_head? hhead)) hsuccessor, ih⟩

/-- Every start of the log names a known permit, active only as a started one. -/
def StartsKept (sha256 : Payload → String) (s : DurableBudgetStateV1) : Prop :=
  ∀ record ∈ s.operations, record.kind = .start → ∃ q ∈ permitIds s,
    record.requestSha256 = sha256 (.startRequest q) ∧
      ∀ p ∈ s.activePermits, p.permitId = q → p.status = .started

/-- An active permit was active, has just been started, or is new. -/
theorem permits_of_effect (hs : Consistent state) {c : Call}
    (h : Effect sha256 runId state elapsed c s') {p : DurablePermitV1} (hp : p ∈ s'.activePermits) :
    p ∈ state.activePermits ∨ p.status = .started ∨ p.permitId ∉ permitIds state := by
  cases h with
  | reserve _ _ _ fresh permit_eq _ appended =>
    obtain ⟨_, _, _, _, _, _, _, rfl⟩ := appended
    rcases List.mem_append.1 hp with hp | hp
    · exact .inl hp
    · obtain rfl := List.mem_singleton.1 hp
      refine .inr (.inr fun hknown => fresh ?_)
      rw [← permit_eq.1]
      exact List.mem_append.2 ((hs.known _).1 hknown)
  | start _ _ _ _ started_eq appended =>
    obtain ⟨_, _, _, _, _, _, _, rfl⟩ := appended
    obtain ⟨x, hx, ⟨_, rfl⟩ | ⟨_, rfl⟩⟩ := Keyed.mem_update.1 hp
    · exact .inr (.inl started_eq.2.2)
    · exact .inl hx
  | settle _ _ _ _ _ _ _ _ _ appended =>
    obtain ⟨_, _, _, _, _, _, _, rfl⟩ := appended
    exact .inl (Keyed.mem_remove.1 hp).1
  | releaseNoEffect _ _ _ _ appended =>
    obtain ⟨_, _, _, _, _, _, _, rfl⟩ := appended
    exact .inl (Keyed.mem_remove.1 hp).1
  | requestCancellation _ _ _ appended | recordCancellation _ _ _ _ appended
  | tightenPolicy _ _ _ _ _ appended =>
    obtain ⟨_, _, _, _, _, _, _, rfl⟩ := appended
    exact .inl hp

/-- The step: only a start logs a start, and it starts its permit. -/
theorem startsKept_step {c : Call} (hc : c.isCreate = false)
    (hs : state.validateSnapshot sha256 = .ok ()) (hk : StartsKept sha256 state)
    (h : (c.mutation sha256 runId).successor state elapsed = .ok s') : StartsKept sha256 s' := by
  have heffect := mutation_effect hc h
  have hconsistent := consistent_of hs
  obtain ⟨_, record, hops, hkind, _⟩ := successor_logs hc h
  intro x hx hstart
  rw [hops] at hx
  rcases List.mem_append.1 hx with hx | hx
  · obtain ⟨q, hq, hrequest, hstarted⟩ := hk x hx hstart
    refine ⟨q, heffect.keeps.permitIds hq, hrequest, fun p hp hpq => ?_⟩
    rcases permits_of_effect hconsistent heffect hp with hp | hp | hp
    · exact hstarted p hp hpq
    · exact hp
    · exact absurd (hpq ▸ hq) hp
  · obtain rfl := List.mem_singleton.1 hx
    cases c with
    | start operationId permitId =>
      obtain ⟨_, ⟨record', hops', _, _, hrequest⟩, hstep⟩ := start_step hconsistent.permits h
      have hrecord : x = record' := by
        rw [hops] at hops'
        simpa using hops'
      obtain ⟨permit, hpermit, hid⟩ := hstep.found
      refine ⟨permitId, heffect.keeps.permitIds ?_, hrecord ▸ hrequest, fun p hp hpq => ?_⟩
      · exact (hconsistent.known _).2 (.inl (List.mem_map.2 ⟨permit, hpermit, hid⟩))
      · cases heffect with
        | start _ _ _ _ started_eq appended =>
          obtain ⟨_, _, _, _, _, _, _, rfl⟩ := appended
          obtain ⟨y, _, ⟨_, rfl⟩ | ⟨hne, rfl⟩⟩ := Keyed.mem_update.1 hp
          · exact started_eq.2.2
          · exact absurd hpq hne
    | create => cases hc
    | reserve | settle | releaseNoEffect | requestCancellation | recordCancellation
    | tightenPolicy =>
      rw [hkind] at hstart
      cases hstart

/-- In every state of a run. -/
theorem run_startsKept (actions : List Action) :
    ∀ entry ∈ (run sha256 runId actions).revisions, StartsKept sha256 entry.state := by
  intro entry hentry
  refine (run_successor_induction (I := fun s => s.validateSnapshot sha256 = .ok () ∧
    StartsKept sha256 s) ?_ ?_ actions entry hentry).2
  · intro policy operationId requestSha256 s' h
    refine ⟨(initialState_ok h).1, ?_⟩
    unfold initialState at h
    simp only [bind_eq_ok, valid_eq_ok, validated_eq_ok] at h
    obtain ⟨_, _, _, _, _, rfl⟩ := h
    intro record hrecord hkind
    obtain rfl := List.mem_singleton.1 hrecord
    cases hkind
  · rintro state elapsed c s' hc ⟨hv, hk⟩ h
    exact ⟨(mutation_effect hc h).valid, startsKept_step hc hv hk h⟩

end Started

/-! ## The current state of the store -/

section Kept

variable {sha256 : Payload → String} {runId : String} {store : DurableBudgetStore}

/-- The current state of the run. -/
def current (store : DurableBudgetStore) : Option DurableBudgetStateV1 :=
  store.revisions.head?.map (·.state)

/-- The permits of the run that are settled. -/
def settledPermits (store : DurableBudgetStore) : List String := (current store).elim [] settledIds

def activePermits (store : DurableBudgetStore) : List DurablePermitV1 :=
  (current store).elim [] (·.activePermits)

def failureLatch (store : DurableBudgetStore) : Option DurableBudgetFailureV1 :=
  (current store).bind (·.failureLatch)

theorem permitIds_eq : store.permitIds = (current store).elim [] permitIds := by
  unfold DurableBudgetStore.permitIds current
  cases store.revisions.head? <;> rfl

/-- The store after some run on an empty one. -/
def Reachable (sha256 : Payload → String) (runId : String) (store : DurableBudgetStore) : Prop :=
  ∃ actions, run sha256 runId actions = store

theorem Reachable.act (h : Reachable sha256 runId store) (a : Action) :
    Reachable sha256 runId (store.act sha256 runId a) := by
  obtain ⟨actions, rfl⟩ := h
  exact ⟨actions ++ [a], run_append⟩

/-- Another clock is another instance. -/
theorem Reachable.clock {after : DurableBudgetStore} (h : Reachable sha256 runId store)
    (hsame : after.revisions = store.revisions) : Reachable sha256 runId after := by
  have hact : store.act sha256 runId (.takeOver after.clock) = after := by
    obtain ⟨clock, revisions⟩ := after
    obtain rfl := hsame
    rfl
  rw [← hact]
  exact h.act _

theorem current_mem {s : DurableBudgetStateV1} (h : current store = some s) :
    ∃ entry ∈ store.revisions, entry.state = s := by
  obtain ⟨entry, hentry, rfl⟩ := Option.map_eq_some_iff.1 h
  exact ⟨entry, List.mem_of_mem_head? hentry, rfl⟩

theorem Reachable.consistent (h : Reachable sha256 runId store) {s : DurableBudgetStateV1}
    (hs : current store = some s) : Consistent s := by
  obtain ⟨actions, rfl⟩ := h
  obtain ⟨entry, hentry, rfl⟩ := current_mem hs
  exact consistent_of (run_sound actions entry hentry).valid

/-- No permit was lost, nothing settled and no latch set on the way from `store` to `after`. -/
structure Kept (sha256 : Payload → String) (runId : String) (store after : DurableBudgetStore) :
    Prop where
  reachable : Reachable sha256 runId store → Reachable sha256 runId after
  permits : ∀ q ∈ store.permitIds, q ∈ after.permitIds
  settled : settledPermits after = settledPermits store
  latch : failureLatch after = failureLatch store

theorem Kept.refl (store : DurableBudgetStore) : Kept sha256 runId store store :=
  ⟨id, fun _ => id, rfl, rfl⟩

theorem Kept.trans {store₁ store₂ store₃ : DurableBudgetStore}
    (h : Kept sha256 runId store₁ store₂) (h' : Kept sha256 runId store₂ store₃) :
    Kept sha256 runId store₁ store₃ :=
  ⟨h'.reachable ∘ h.reachable, fun q => h'.permits q ∘ h.permits q, h'.settled.trans h.settled,
    h'.latch.trans h.latch⟩

/-- The same revisions under another clock. -/
theorem Kept.clock {after : DurableBudgetStore} (h : after.revisions = store.revisions) :
    Kept sha256 runId store after := by
  have hcurrent : current after = current store := by
    unfold current
    rw [h]
  refine ⟨fun hr => hr.clock h, fun q hq => ?_, ?_, ?_⟩
  · rwa [permitIds_eq, hcurrent, ← permitIds_eq]
  · unfold settledPermits
    rw [hcurrent]
  · unfold failureLatch
    rw [hcurrent]

/-- No call loses a permit. -/
theorem permits_of_call (store : DurableBudgetStore) (c : Call) (env : Environment) :
    ∀ q ∈ store.permitIds, q ∈ (store.call sha256 runId c env).1.permitIds := by
  intro q hq
  rcases act_revisions store (.call c env) with hsame | ⟨s', ⟨c', env', heq, hs⟩, hgrown⟩
  · exact (@Kept.clock sha256 runId _ _ hsame).permits q hq
  · cases heq
    have hafter : current (store.call sha256 runId c env).1 = some s' := by
      unfold current
      rw [show (store.call sha256 runId c env).1.revisions = _ from hgrown]
      rfl
    rw [permitIds_eq, hafter]
    rw [permitIds_eq] at hq
    cases hs with
    | first empty _ =>
      unfold current at hq
      rw [empty] at hq
      cases hq
    | next hcurrent _ effect =>
      unfold current at hq
      rw [hcurrent] at hq
      exact effect.keeps.permitIds hq

/-- The calls a reservation makes. -/
def Call.prepares : Call → Prop
  | .create .. | .reserve .. | .start .. => True
  | _ => False

/-- Creating the run, reserving and starting settle nothing. -/
theorem settlements_of_prepares {c : Call} (hc : Call.prepares c) {env : Environment}
    {s' : DurableBudgetStateV1} (h : Succeeds sha256 runId store (store.elapsed env) c s') :
    settledIds s' = settledPermits store ∧ s'.failureLatch = failureLatch store := by
  cases h with
  | first empty initial =>
    have hnone : current store = none := by
      unfold current
      rw [empty]
      rfl
    unfold initialState at initial
    simp only [bind_eq_ok, valid_eq_ok, validated_eq_ok] at initial
    obtain ⟨_, _, _, _, _, rfl⟩ := initial
    simp [settledPermits, failureLatch, hnone, settledIds]
  | @next _ state rest _ hcurrent _ effect =>
    have hsome : current store = some state := by
      unfold current
      rw [hcurrent]
      rfl
    simp only [settledPermits, failureLatch, hsome]
    cases effect with
    | reserve _ _ _ _ _ _ appended | start _ _ _ _ _ appended =>
      obtain ⟨_, _, _, _, _, _, _, rfl⟩ := appended
      exact ⟨rfl, rfl⟩
    | settle | releaseNoEffect | requestCancellation | recordCancellation | tightenPolicy =>
      exact hc.elim

theorem Kept.call {c : Call} (hc : Call.prepares c) (store : DurableBudgetStore)
    (env : Environment) : Kept sha256 runId store (store.call sha256 runId c env).1 := by
  rcases act_revisions store (.call c env) with hsame | ⟨s', ⟨c', env', heq, hs⟩, hgrown⟩
  · exact .clock hsame
  · cases heq
    have hafter : current (store.call sha256 runId c env).1 = some s' := by
      unfold current
      rw [show (store.call sha256 runId c env).1.revisions = _ from hgrown]
      rfl
    obtain ⟨hsettled, hlatch⟩ := settlements_of_prepares hc hs
    refine ⟨fun h => h.act (.call c env), permits_of_call store c env, ?_, ?_⟩
    · rw [settledPermits, hafter]
      exact hsettled
    · rw [failureLatch, hafter]
      exact hlatch

/-- The permit is active, if at all, as a started one. -/
def StartedPermit (store : DurableBudgetStore) (permitId : String) : Prop :=
  ∀ p ∈ activePermits store, p.permitId = permitId → p.status = .started

/-- A started permit is not released. -/
theorem release_refused {permitId : String} (hstarted : StartedPermit store permitId)
    (operationId settlementId evidence : String) (env : Environment) :
    (store.call sha256 runId (.releaseNoEffect operationId settlementId permitId evidence)
      env).1.revisions = store.revisions := by
  rcases act_revisions store (.call (.releaseNoEffect operationId settlementId permitId evidence)
    env) with hsame | ⟨s', ⟨c, env', heq, hs⟩, _⟩
  · exact hsame
  · cases heq
    cases hs with
    | @next _ state rest _ hcurrent _ effect =>
      cases effect with
      | releaseNoEffect _ found reserved _ _ =>
        obtain ⟨hmem, hid⟩ := Keyed.find_mem found
        have hactive : activePermits store = state.activePermits := by
          unfold activePermits current
          rw [hcurrent]
          rfl
        have := hstarted _ (hactive ▸ hmem) hid
        rw [reserved] at this
        cases this

/-- A start that returned has left its permit started, or found it closed. -/
theorem startedPermit_of_start (hr : Reachable sha256 runId store) {operationId permitId : String}
    {env : Environment} {after : DurableBudgetStore} {result : DurableMutationResultV1}
    (h : store.call sha256 runId (.start operationId permitId) env = (after, .ok result))
    (hfree : ∀ q ∈ after.permitIds,
      sha256 (.startRequest q) = sha256 (.startRequest permitId) → q = permitId) :
    StartedPermit after permitId := by
  have hout : MutationOutcome sha256 runId store (start sha256 operationId permitId) env _ _ :=
    mutate_cases store (start sha256 operationId permitId) env
  have hcall : store.mutate sha256 runId (start sha256 operationId permitId) env =
      (after, .ok result) := h
  rw [hcall] at hout
  have hreach : Reachable sha256 runId after := by
    have := hr.act (.call (.start operationId permitId) env)
    rwa [show store.act sha256 runId (.call (.start operationId permitId) env) = after from
      congrArg Prod.fst h] at this
  obtain ⟨s, hs, hrecorded⟩ : ∃ s, current after = some s ∧
      Recorded s (start sha256 operationId permitId) := by
    cases hout with
    | @replayed state rest _ hcurrent recorded _ same =>
      refine ⟨state, ?_, recorded⟩
      unfold current
      rw [same, hcurrent]
      rfl
    | @applied state rest _ s' n hcurrent unrecorded _ _ successor _ committed =>
      subst committed
      have hconsistent : Consistent state := by
        refine hr.consistent ?_
        unfold current
        rw [hcurrent]
        rfl
      exact ⟨s', rfl, (start_step hconsistent.permits successor).2.1.recorded unrecorded⟩
  obtain ⟨record, hfind, hkind, hrequest⟩ := hrecorded
  obtain ⟨actions, rfl⟩ := hreach
  obtain ⟨entry, hentry, rfl⟩ := current_mem hs
  obtain ⟨q, hq, hqr, hstarted⟩ :=
    run_startsKept actions entry hentry record (Keyed.find_mem hfind).1 hkind
  intro p hp hpid
  rw [activePermits, hs] at hp
  refine hstarted p hp (hpid.trans (hfree q ?_ (hqr.symm.trans hrequest)).symm)
  rw [permitIds_eq, hs]
  exact hq

theorem StartedPermit.clock {permitId : String} {after : DurableBudgetStore}
    (h : StartedPermit store permitId) (hsame : after.revisions = store.revisions) :
    StartedPermit after permitId := by
  have hcurrent : current after = current store := by
    unfold current
    rw [hsame]
  unfold StartedPermit activePermits at h ⊢
  rw [hcurrent]
  exact h

end Kept

/-! ## The reservation -/

section Reservation

variable {coordinator : DurableBudgetCoordinator} {outside : Outside}
variable {request : TerminalPublishRequest}

/-- What every step of the reservation does, however it ends. -/
def Reserving (coordinator : DurableBudgetCoordinator) (request : TerminalPublishRequest)
    (p p' : Publishing) : Prop :=
  Kept coordinator.sha256 request.runId p.store p'.store ∧
    p'.pointerPublished = p.pointerPublished

instance : Std.Refl (Reserving coordinator request) := ⟨fun p => ⟨.refl p.store, rfl⟩⟩

instance : IsTrans Publishing (Reserving coordinator request) :=
  ⟨fun _ _ _ h h' => ⟨h.1.trans h'.1, h'.2.trans h.2⟩⟩

theorem reserving_storeCall {c : Call} (hc : Call.prepares c) :
    Always (Reserving coordinator request) (coordinator.storeCall outside request c) :=
  fun p => ⟨.call hc p.store (outside.environment p.turn), rfl⟩

theorem call_of_returns {c : Call} {p p' : Publishing} {result : DurableMutationResultV1}
    (h : Returns (coordinator.storeCall outside request c) p result p') :
    p.store.call coordinator.sha256 request.runId c (outside.environment p.turn) =
      (p'.store, .ok result) := by
  unfold Returns DurableBudgetCoordinator.storeCall at h
  simp only [Prod.mk.injEq] at h
  obtain ⟨hresult, rfl⟩ := h
  exact Prod.ext rfl hresult

theorem reserving_storeLoad :
    Always (Reserving coordinator request) (coordinator.storeLoad outside request) := by
  intro p
  unfold DurableBudgetCoordinator.storeLoad
  simp only
  split
  · exact ⟨.refl p.store, rfl⟩
  · refine ⟨.clock ?_, rfl⟩
    cases (outside.environment p.turn).loadFault with
    | none => rfl
    | some code => exact afterStorageError_revisions

theorem reserving_rebase :
    Always (Reserving coordinator request) DurableBudgetCoordinator.rebase :=
  fun _ => ⟨.clock rfl, rfl⟩

theorem reserving_createRun :
    Always (Reserving coordinator request) (coordinator.createRun outside request) := by
  unfold DurableBudgetCoordinator.createRun
  refine ((reserving_storeCall (by exact True.intro)).bind fun _ => always_pure ()).catching fun e => ?_
  cases e with
  | budget failure =>
    simp only
    split
    · exact always_pure ()
    · exact always_raise _
  | invalid message => exact always_raise _

theorem reserving_state :
    Always (Reserving coordinator request) (coordinator.state outside request) := by
  unfold DurableBudgetCoordinator.state
  refine reserving_createRun.bind fun _ => reserving_storeLoad.bind fun state => ?_
  exact (always_lift _).bind fun _ => always_pure state

theorem reserving_reserve :
    Always (Reserving coordinator request) (coordinator.reserve outside request) := by
  unfold DurableBudgetCoordinator.reserve
  refine reserving_state.bind fun _ => reserving_rebase.bind fun _ => ?_
  refine (always_lift _).bind fun _ => (always_lift _).bind fun _ => (always_lift _).bind fun _ => ?_
  refine (reserving_storeCall (by exact True.intro)).bind fun _ => reserving_rebase.bind fun _ => ?_
  exact (reserving_storeCall (by exact True.intro)).bind fun _ => always_pure ()

/-- A reservation that returns leaves its permit started, or found it closed. -/
theorem started_of_reserve {p p' : Publishing}
    (hr : Reachable coordinator.sha256 request.runId p.store)
    (h : Returns (coordinator.reserve outside request) p () p')
    (hfree : ∀ q ∈ p'.store.permitIds,
      coordinator.sha256 (.startRequest q) =
        coordinator.sha256 (.startRequest request.budgetBinding.permitId) →
      q = request.budgetBinding.permitId) :
    StartedPermit p'.store request.budgetBinding.permitId := by
  unfold DurableBudgetCoordinator.reserve at h
  simp only [returns_bind, returns_lift, returns_pure] at h
  obtain ⟨state, p₁, h₁, _, p₂, h₂, _, _, ⟨_, rfl⟩, reservation, _, ⟨_, rfl⟩, lineage, _, ⟨_, rfl⟩,
    _, p₃, h₃, _, p₄, h₄, result, p₅, h₅, _, rfl⟩ := h
  have k₁ := (reserving_state.returns h₁).1.reachable hr
  have k₂ := (reserving_rebase.returns h₂).1.reachable k₁
  have k₃ := ((reserving_storeCall (by exact True.intro)).returns h₃).1.reachable k₂
  have k₄ := (reserving_rebase.returns h₄).1.reachable k₃
  exact startedPermit_of_start k₄ (call_of_returns h₅) hfree

end Reservation

/-! ## The guarded block and its handlers -/

section Guard

variable {coordinator : DurableBudgetCoordinator} {outside : Outside}
variable {request : TerminalPublishRequest}

/-- A moved pointer stays moved, and no permit is lost. -/
structure Onward (p p' : Publishing) : Prop where
  published : p.pointerPublished = true → p'.pointerPublished = true
  permits : ∀ q ∈ p.store.permitIds, q ∈ p'.store.permitIds

instance : Std.Refl Onward := ⟨fun _ => ⟨id, fun _ => id⟩⟩

instance : IsTrans Publishing Onward :=
  ⟨fun _ _ _ h h' => ⟨h'.published ∘ h.published, fun q => h'.permits q ∘ h.permits q⟩⟩

theorem onward_step (s : Step) : Always Onward (outside.step s) := by
  unfold Outside.step
  split
  · exact always_pure ()
  · exact always_raise _

theorem onward_storeCall (c : Call) :
    Always Onward (coordinator.storeCall outside request c) :=
  fun p => ⟨id, permits_of_call p.store c (outside.environment p.turn)⟩

theorem onward_settle : Always Onward (coordinator.settle outside request) := by
  unfold DurableBudgetCoordinator.settle
  exact (onward_storeCall _).bind fun _ => always_pure ()

/-- What every step after the reservation does, however it ends: unless the
pointer is moved, a started permit stays one. -/
structure Guarded (coordinator : DurableBudgetCoordinator) (request : TerminalPublishRequest)
    (p p' : Publishing) : Prop extends Onward p p' where
  kept : p'.pointerPublished = false → StartedPermit p.store request.budgetBinding.permitId →
    Kept coordinator.sha256 request.runId p.store p'.store ∧
      StartedPermit p'.store request.budgetBinding.permitId

instance : Std.Refl (Guarded coordinator request) :=
  ⟨fun p => ⟨⟨id, fun _ => id⟩, fun _ h => ⟨.refl p.store, h⟩⟩⟩

instance : IsTrans Publishing (Guarded coordinator request) where
  trans p q r h h' := by
    refine ⟨trans_of Onward h.toOnward h'.toOnward, fun hr hstarted => ?_⟩
    have hq : q.pointerPublished = false := by
      cases hq : q.pointerPublished with
      | false => rfl
      | true => rw [h'.published hq] at hr; cases hr
    obtain ⟨hkept, hstarted⟩ := h.kept hq hstarted
    obtain ⟨hkept', hstarted'⟩ := h'.kept hr hstarted
    exact ⟨hkept.trans hkept', hstarted'⟩

/-- A change of the local variables that leaves the pointer alone. -/
theorem guarded_local {p p' : Publishing} (hstore : p'.store = p.store)
    (hpointer : p'.pointerPublished = p.pointerPublished) : Guarded coordinator request p p' := by
  refine ⟨⟨fun h => hpointer.trans h, fun q hq => hstore ▸ hq⟩, fun _ h => ?_⟩
  rw [hstore]
  exact ⟨.refl p.store, h⟩

theorem guarded_step (s : Step) : Always (Guarded coordinator request) (outside.step s) := by
  unfold Outside.step
  split
  · exact always_pure ()
  · exact always_raise _

theorem guarded_acquire : Always (Guarded coordinator request) (acquire outside) := by
  unfold acquire
  refine (guarded_step _).bind fun _ => (guarded_step _).bind fun _ => (guarded_step _).bind fun _ => ?_
  refine Always.bind (R := Guarded coordinator request)
    (always_modify fun p => guarded_local rfl rfl) fun _ => ?_
  exact (guarded_step _).bind fun _ => (guarded_step _).bind fun _ => guarded_step _

theorem guarded_stage : Always (Guarded coordinator request) (stage outside request) := by
  unfold stage
  refine (guarded_step _).bind fun _ => (guarded_step _).bind fun _ => (guarded_step _).bind fun _ => ?_
  refine (guarded_step _).bind fun _ => (guarded_step _).bind fun _ => (guarded_step _).bind fun _ => ?_
  refine (guarded_step _).bind fun _ => ?_
  refine (Always.forM (fun name => guarded_step (.payload name)) request.inventory).bind fun _ => ?_
  refine (guarded_step _).bind fun _ => (guarded_step _).bind fun _ => (guarded_step _).bind fun _ => ?_
  refine (guarded_step _).bind fun _ => (guarded_step _).bind fun _ => (guarded_step _).bind fun _ => ?_
  refine Always.bind (R := Guarded coordinator request)
    (always_modify fun p => guarded_local rfl rfl) fun _ => ?_
  refine (guarded_step _).bind fun _ => (guarded_step _).bind fun _ => (guarded_step _).bind fun _ => ?_
  refine (guarded_step _).bind fun _ => (guarded_step _).bind fun _ => (guarded_step _).bind fun _ => ?_
  exact guarded_step _

/-- What follows the replacement of the pointer starts by noting it. -/
theorem commit_published (p : Publishing) :
    (commit coordinator outside request p).2.pointerPublished = true ∧
      Onward p (commit coordinator outside request p).2 := by
  have hrest : Always Onward (do
      outside.step .afterReplace
      outside.step .currentPointer
      outside.step .directorySync
      (coordinator.settle outside request).catching fun e => Stateful.raise (.store e)
      outside.step .readCurrent
      return outcome coordinator outside request .published) := by
    refine (onward_step _).bind fun _ => (onward_step _).bind fun _ => (onward_step _).bind fun _ => ?_
    refine (onward_settle.catching fun e => always_raise _).bind fun _ => ?_
    exact (onward_step _).bind fun _ => always_pure _
  have h := hrest { p with pointerPublished := true }
  exact ⟨h.published rfl, fun _ => h.published rfl, h.permits⟩

theorem guarded_guarded : Always (Guarded coordinator request)
    (guarded coordinator outside request) := by
  unfold guarded
  refine guarded_acquire.bind fun _ => ?_
  split
  · exact always_pure _
  · refine guarded_stage.bind fun _ p => ⟨(commit_published p).2, fun h => ?_⟩
    rw [(commit_published p).1] at h
    cases h

/-- The release of the handlers finds the permit started, and is refused. -/
theorem guarded_releaseNoEffect (effect : String) :
    Always (Guarded coordinator request)
      (coordinator.releaseNoEffect outside request effect) := by
  unfold DurableBudgetCoordinator.releaseNoEffect
  refine Always.bind (fun p => ⟨onward_storeCall _ p, fun _ h => ?_⟩) fun _ => always_pure ()
  have hsame := @release_refused coordinator.sha256 request.runId _ _ h
    request.budgetBinding.settlementOperationId request.budgetBinding.settlementId
    (coordinator.product (.effect request.transactionId effect)) (outside.environment p.turn)
  exact ⟨.clock hsame, h.clock hsame⟩

theorem guarded_suppressedRelease : Always (Guarded coordinator request)
    (suppressedRelease coordinator outside request) := by
  unfold suppressedRelease
  refine always_read.bind fun p => ?_
  split
  · exact (guarded_releaseNoEffect _).attempt.bind fun _ => always_pure ()
  · exact always_pure ()

theorem guarded_handle (e : Raised) : Always (Guarded coordinator request)
    (handle coordinator outside request e) := by
  have hother : Always (Guarded coordinator request) (handleOther coordinator outside request) := by
    unfold handleOther
    refine always_read.bind fun p => ?_
    split
    · exact always_raise _
    · split
      · exact (guarded_releaseNoEffect _).attempt.bind fun _ => always_raise _
      · exact (guarded_releaseNoEffect _).attempt.bind fun _ => always_raise _
  cases e with
  | store | other => exact hother
  | approvalDecision | product | storage =>
    exact guarded_suppressedRelease.bind fun _ => always_raise _

theorem guarded_releaseLease : Always (Guarded coordinator request)
    (releaseLease coordinator outside request) := by
  unfold releaseLease
  refine always_read.bind fun p => ?_
  split
  · split
    · exact always_raise _
    · exact always_pure ()
  · exact always_pure ()

theorem reserving_reserved :
    Always (Reserving coordinator request) (reserved coordinator outside request) := by
  unfold reserved
  exact reserving_reserve.catching fun e => always_raise _

/-- SHA-256 tells the start of the permit from the starts of the other permits of the store. -/
def StartsApart (sha256 : Payload → String) (store : DurableBudgetStore) (permitId : String) : Prop :=
  ∀ q ∈ store.permitIds,
    sha256 (.startRequest q) = sha256 (.startRequest permitId) → q = permitId

/-- Short of moving the pointer, the block after the reservation keeps what was settled before. -/
theorem kept_of_reserved {p : Publishing} (hr : Reachable coordinator.sha256 request.runId p.store)
    {after : Publishing}
    (hafter : after = ((reserved coordinator outside request >>= fun _ =>
      ((guarded coordinator outside request).catching (handle coordinator outside request)).ensuring
        (releaseLease coordinator outside request)) p).2)
    (hpointer : after.pointerPublished = false)
    (hfree : StartsApart coordinator.sha256 after.store request.budgetBinding.permitId) :
    Kept coordinator.sha256 request.runId p.store after.store := by
  have hreserved := @reserving_reserved coordinator outside request p
  have hblock : Always (Guarded coordinator request)
      (((guarded coordinator outside request).catching
        (handle coordinator outside request)).ensuring (releaseLease coordinator outside request)) :=
    (guarded_guarded.catching guarded_handle).ensuring guarded_releaseLease
  rcases hrun : reserved coordinator outside request p with ⟨e | ⟨⟩, t⟩
  · rw [bind_of_error hrun] at hafter
    rw [hrun] at hreserved
    exact hafter ▸ hreserved.1
  · rw [bind_of_ok hrun] at hafter
    rw [hrun] at hreserved
    have hguard := hblock t
    rw [← hafter] at hguard
    have hreturned : Returns (coordinator.reserve outside request) p () t :=
      (returns_catching fun _ _ _ _ => by simp [Stateful.raise]).1 hrun
    have htstarted : StartedPermit t.store request.budgetBinding.permitId :=
      started_of_reserve hr hreturned fun q hq => hfree q (hguard.permits q hq)
    exact hreserved.1.trans (hguard.kept hpointer htstarted).1

theorem step_cases (s : Step) (p : Publishing) :
    outside.step s p = (.ok (), p) ∨ ∃ e, outside.step s p = (.error e, p) := by
  unfold Outside.step
  cases outside.fault s with
  | none => exact .inl rfl
  | some e => exact .inr ⟨e, rfl⟩

/-- Short of moving the pointer, a publication keeps what was settled before. -/
theorem kept_of_publish {p after : Publishing}
    (hr : Reachable coordinator.sha256 request.runId p.store)
    (hafter : after = (publish coordinator outside request p).2)
    (hpointer : after.pointerPublished = false)
    (hfree : StartsApart coordinator.sha256 after.store request.budgetBinding.permitId) :
    Kept coordinator.sha256 request.runId p.store after.store := by
  unfold publish at hafter
  rcases @step_cases outside .prepare p with hok | ⟨e, he⟩
  · rw [bind_of_ok hok] at hafter
    rcases @step_cases outside .guardPrepared p with hok | ⟨e, he⟩
    · rw [bind_of_ok hok] at hafter
      exact kept_of_reserved hr hafter hpointer hfree
    · rw [bind_of_error he] at hafter
      exact hafter ▸ .refl p.store
  · rw [bind_of_error he] at hafter
    exact hafter ▸ .refl p.store

end Guard

/-! ## When the permit is given back -/

/-- No permit of the transaction is active, and no latch has been set. -/
structure Cleared (before after : DurableBudgetStore) (permitId : String) : Prop where
  inactive : ∀ p ∈ activePermits after, p.permitId ≠ permitId
  latch : failureLatch after = failureLatch before

/-- One digest for the run and its inputs, and one for each transaction's seed. -/
def sampleProduct : ProductPayload → String
  | .budgetSeed _ transactionId _ =>
    if transactionId = "txn-1" then sampleEvidence else String.ofList (List.replicate 64 'd')
  | _ => sampleEvidence

def sampleCoordinator : DurableBudgetCoordinator where
  sha256 := taggedDigest
  product := sampleProduct
  basePolicy := samplePolicy

def sampleRequested : ResourceAmountsV1 :=
  { activeRuntimeNs := 100, artifactBytes := 1, runBytes := 1, concurrencySlots := 1 }

/-- The publication of the transaction `txn-n`. -/
def sampleRequest (n : String) : TerminalPublishRequest where
  runId := "run-1"
  transactionId := "txn-" ++ n
  status := .succeeded
  proposedRevision := 1
  expectedPointerSha256 := none
  canonicalInputSha256 := sampleEvidence
  redactionPolicySha256 := sampleEvidence
  stateCheckpointSha256 := sampleEvidence
  budgetBinding :=
    { budgetRunIdSha256 := sampleEvidence
      budgetPolicySha256 := taggedDigest (.basePolicy samplePolicy)
      reservationOperationId := "reserve-" ++ n
      reservationRequestSha256 :=
        taggedDigest (.reservation ("reserve-" ++ n) sampleRequested .localFree false)
      permitId := "permit-" ++ n
      settlementOperationId := "settle-" ++ n
      settlementId := "settlement-" ++ n }
  inventory := ["input.json"]
  remainingActiveRuntimeNs := some 100

/-- No storage step fails. -/
def sampleQuiet : Outside where
  environment n := { clock := some (n : Int) }
  fault _ := none
  prepared :=
    { artifactBytes := 1, persistentDelta := 1, manifestSha256 := sampleEvidence
      pointerSha256 := sampleEvidence, markerSha256 := none }
  committed := false

/-- The run lock is held elsewhere. -/
def sampleContended : Outside :=
  { sampleQuiet with
    fault := fun
      | .authority => some (.storage
          { code := .runLocked, reconciliationRequired := false, filesystemEffect := .none })
      | _ => none }

/-- The first publication of the run, stopped at the lock. -/
def sampleStopped : Except Raised TerminalPublishOutcome × Publishing :=
  publish sampleCoordinator sampleContended (sampleRequest "1")
    { store := run sampleCoordinator.sha256 "run-1" [] }

/-- How a publication ended: nothing raised, or the failure of the product. -/
def raisedFailure : Except Raised TerminalPublishOutcome → Option ProductRunFailureV2
  | .error (.product failure) => some failure
  | _ => none

end PokerDeliberation.Terminal
