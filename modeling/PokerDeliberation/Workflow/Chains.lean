import PokerDeliberation.Lib.Logs
import PokerDeliberation.Workflow.StateMachine
import PokerDeliberation.Workflow.Accounting

/-!
# The event chain of a run

Whatever operations follow each other, the events of a machine are a trail of
allowed transitions from `INTAKE` to its state. The validation of a stored
snapshot accepts exactly such trails, so it accepts every snapshot of a run.
-/

namespace PokerDeliberation.Workflow

open Lib Lib.Stateful
open Budgets (BudgetPolicyV2 ExecutionClass)

/-- The events lead from one state to another by allowed transitions. -/
abbrev Chain : RunState → List StateEvent → RunState → Prop :=
  Trail StateEvent.source StateEvent.target fun s t => t ∈ allowedTransitions s

/-! ## Validation -/

variable {a b : RunState} {event : StateEvent} {events : List StateEvent}

theorem validateEvent_fields : validateEvent a event.fields = .ok b ↔
    event.source = a ∧ event.target ∈ allowedTransitions a ∧ isBlank event.reason = false ∧
      event.target = b := by
  have hshape : (∀ field ∈ event.fields, field.1 ∈ eventKeys) ∧
      ∀ key ∈ eventKeys, key ∈ event.fields.map Prod.fst := by
    simp [StateEvent.fields, eventKeys]
  have hsource : readState (event.fields.lookup "source") = some event.source :=
    ofValue?_value event.source
  have htarget : readState (event.fields.lookup "target") = some event.target :=
    ofValue?_value event.target
  have hreason : hasReason (event.fields.lookup "reason") = !isBlank event.reason := rfl
  rw [validateEvent, require_bind_eq_ok, hsource, htarget]
  simp only [require_bind_eq_ok, pure_eq_ok, hreason, Bool.not_eq_true']
  constructor
  · rintro ⟨-, ⟨rfl, hallowed, hblank⟩, rfl⟩
    exact ⟨rfl, hallowed, hblank, rfl⟩
  · rintro ⟨rfl, hallowed, hblank, rfl⟩
    exact ⟨hshape, ⟨rfl, hallowed, hblank⟩, rfl⟩

theorem foldlM_validateEvent : (events.map StateEvent.fields).foldlM validateEvent a = .ok b ↔
    Chain a events b ∧ ∀ event ∈ events, isBlank event.reason = false := by
  induction events generalizing a with
  | nil => simp [Trail]
  | cons event events ih =>
    rw [List.map_cons, List.foldlM_cons, bind_eq_ok]
    simp only [validateEvent_fields, ih, Trail, List.forall_mem_cons]
    constructor
    · rintro ⟨_, ⟨rfl, hallowed, hblank, rfl⟩, hchain, hreasons⟩
      exact ⟨⟨rfl, hallowed, hchain⟩, hblank, hreasons⟩
    · rintro ⟨⟨rfl, hallowed, hchain⟩, hblank, hreasons⟩
      exact ⟨_, ⟨rfl, hallowed, hblank, rfl⟩, hchain, hreasons⟩

theorem RunState.value_injective : Function.Injective RunState.value := by
  intro s t h
  have hread : RunState.ofValue? s.value = RunState.ofValue? t.value := by rw [h]
  simpa using hread

/-- The validation accepts a stored machine exactly when its events are a chain from
`INTAKE` to its state and every event has a reason. -/
theorem validate_stored {machine : WorkflowStateMachine} {u : Unit} :
    validateStateEventChain machine.stored.1 machine.stored.2 = .ok u ↔
      Chain .intake machine.events machine.state ∧
        ∀ event ∈ machine.events, isBlank event.reason = false := by
  have hstate : ∀ current : RunState, machine.stored.1.lookup "state" = some (.text current.value) ↔
      machine.state = current := fun current => by
    have hlookup : machine.stored.1.lookup "state" = some (.text machine.state.value) := rfl
    simp [hlookup, RunState.value_injective.eq_iff]
  have hevents : machine.stored.2 = machine.events.map StateEvent.fields := rfl
  rw [validateStateEventChain, bind_eq_ok, hevents]
  simp only [require_eq_ok, hstate, foldlM_validateEvent]
  constructor
  · rintro ⟨_, hchain, rfl⟩
    exact hchain
  · exact fun hchain => ⟨_, hchain, rfl⟩

/-! ## Operations -/

inductive MachineOp where
  | transition (target : RunState) (reason : String)
  | enforceRuntime (reading : ClockReading)
  | checkedRuntimeWindow (reading : ClockReading)
  | projectBudgetFailure (failure : BudgetFailure)
  | ledger (op : Op)
  | elapsed (reading : ClockReading)
  | startDeliberationRound
  | allowToolRetry (toolName : String)

def MachineOp.run : MachineOp → MachineProc Unit
  | .transition target reason => Workflow.transition target reason
  | .enforceRuntime reading => discard (Workflow.enforceRuntime reading)
  | .checkedRuntimeWindow reading => discard (Workflow.checkedRuntimeWindow reading)
  | .projectBudgetFailure failure => Workflow.projectBudgetFailure failure
  | .ledger op => discard (throughLedger op.run)
  | .elapsed reading => discard (elapsedNs reading)
  | .startDeliberationRound => discard Workflow.startDeliberationRound
  | .allowToolRetry toolName => discard (Workflow.allowToolRetry toolName)

/-- The operations that project a failure of the budget observation. -/
def MachineOp.projects : MachineOp → Bool
  | .enforceRuntime _ | .checkedRuntimeWindow _ | .projectBudgetFailure _ => true
  | _ => false

/-- Neither the state nor the events change. -/
def SameState (m m' : WorkflowStateMachine) : Prop := m'.state = m.state ∧ m'.events = m.events

instance : Std.Refl SameState := ⟨fun _ => ⟨rfl, rfl⟩⟩

instance : IsTrans WorkflowStateMachine SameState :=
  ⟨fun _ _ _ h h' => ⟨h'.1.trans h.1, h'.2.trans h.2⟩⟩

/-- What an operation does to the state and the events. -/
inductive Progress (op : MachineOp) (m m' : WorkflowStateMachine) : Prop where
  | kept (h : SameState m m')
  | moved {target : RunState} {reason : String} (hop : op = .transition target reason)
      (hallowed : target ∈ allowedTransitions m.state) (hstate : m'.state = target)
      (hevents : m'.events = m.events ++ [⟨m.state, target, reason⟩])
  | failed {failure : BudgetFailure} (hop : op.projects) (hopen : m.state.terminal = false)
      (hstate : m'.state = .failedWithLimitations)
      (hevents : m'.events = m.events ++ [⟨m.state, .failedWithLimitations, failure.reason⟩])
  | replaced {failure : BudgetFailure} {before : List StateEvent} {reason : String}
      (hop : op.projects) (hcompleted : m.state = .completed)
      (hclosing : m.events = before ++ [⟨.finalSynthesis, .completed, reason⟩])
      (hstate : m'.state = .failedWithLimitations)
      (hevents : m'.events =
        before ++ [⟨.finalSynthesis, .failedWithLimitations, failure.reason⟩])

variable {op : MachineOp} {m m' : WorkflowStateMachine} {failure : BudgetFailure}
  {reading : ClockReading}

/-- The machine after a failure is noted and before it is projected. -/
def WorkflowStateMachine.noted (m : WorkflowStateMachine) (failure : BudgetFailure) :
    WorkflowStateMachine :=
  { m with lastBudgetFailure := some failure }

theorem project_eq : Workflow.projectBudgetFailure failure m =
    (if m.state = .completed then replaceClosingEvent failure
      else if m.state ≠ .failedWithLimitations then
        modify fun machine =>
          { machine with
            events := machine.events ++ [⟨machine.state, .failedWithLimitations, failure.reason⟩]
            state := .failedWithLimitations }
      else pure () : MachineProc Unit) (m.noted failure) := rfl

/-- From `COMPLETED` the projection replaces the closing event. -/
theorem replace_closing {before : List StateEvent} {reason : String}
    (hclosing : m.events = before ++ [⟨.finalSynthesis, .completed, reason⟩]) :
    replaceClosingEvent failure m =
      (.ok (), { m with
        events := before ++ [⟨.finalSynthesis, .failedWithLimitations, failure.reason⟩]
        state := .failedWithLimitations }) := by
  rw [replaceClosingEvent, bind_of_ok (rfl : Stateful.read m = (.ok m, m)), hclosing,
    List.getLast?_concat]
  simp only [Stateful.modify, hclosing, List.dropLast_concat]

/-- Only the last event of a chain can be the one that completes the run, and it comes
from the final synthesis. -/
theorem closing_of_chain (h : Chain .intake m.events .completed) : ∃ before reason,
    m.events = before ++ [⟨.finalSynthesis, .completed, reason⟩] ∧
      Chain .intake before .finalSynthesis := by
  rcases List.eq_nil_or_concat' m.events with hnil | ⟨before, event, hevents⟩
  · rw [hnil] at h
    cases h
  · rw [hevents] at h ⊢
    obtain ⟨hbefore, hallowed, htarget⟩ := trail_concat.1 h
    obtain ⟨source, target, reason⟩ := event
    obtain rfl : target = .completed := htarget
    have hsource : source = .finalSynthesis := by
      cases source <;> simp_all [allowedTransitions]
    subst hsource
    exact ⟨before, reason, rfl, hbefore⟩

/-- What a projection does to a machine whose events are a chain. -/
theorem progress_project (hop : op.projects) (hchain : Chain .intake m.events m.state)
    (failure : BudgetFailure) :
    (Workflow.projectBudgetFailure failure m).1 = .ok () ∧
      Progress op m (Workflow.projectBudgetFailure failure m).2 := by
  rw [project_eq]
  by_cases hcompleted : m.state = .completed
  · rw [if_pos hcompleted]
    rw [hcompleted] at hchain
    obtain ⟨before, reason, hclosing, -⟩ := closing_of_chain hchain
    have hnoted : (m.noted failure).events = _ := hclosing
    rw [replace_closing hnoted]
    exact ⟨rfl, .replaced hop hcompleted hclosing rfl rfl⟩
  · rw [if_neg hcompleted]
    by_cases hfailed : m.state = .failedWithLimitations
    · rw [if_neg (not_not.2 hfailed)]
      exact ⟨rfl, .kept ⟨rfl, rfl⟩⟩
    · rw [if_pos hfailed]
      have hopen : m.state.terminal = false := by
        cases hstate : m.state <;> simp_all [RunState.terminal]
      exact ⟨rfl, .failed hop hopen rfl rfl⟩

/-! ## One step -/

theorem always_onLedger {α : Type} (x : Proc α) : Always SameState (onLedger x) :=
  fun _ => ⟨rfl, rfl⟩

theorem always_throughLedger {α : Type} (x : Proc α) : Always SameState (throughLedger x) :=
  (always_onLedger x).bind fun r => by
    cases r with
    | ok a => exact always_pure a
    | error failure => exact always_raise _

theorem always_elapsedNs (reading : ClockReading) : Always SameState (elapsedNs reading) :=
  (always_onLedger _).bind fun r => by
    cases r with
    | ok u => exact always_pure _
    | error failure =>
      refine always_read.bind fun machine => ?_
      split <;> exact always_pure _

theorem always_startDeliberationRound : Always SameState Workflow.startDeliberationRound :=
  always_read.bind fun machine => by
    split
    · exact always_pure _
    · exact (always_modify fun _ => ⟨rfl, rfl⟩).bind fun _ => always_pure _

theorem always_allowToolRetry (toolName : String) :
    Always SameState (Workflow.allowToolRetry toolName) :=
  always_read.bind fun machine => by
    dsimp only
    split
    · exact always_pure _
    · exact (always_modify fun _ => ⟨rfl, rfl⟩).bind fun _ => always_pure _

theorem always_discard {α : Type} {x : MachineProc α} (h : Always SameState x) :
    Always SameState (discard x) :=
  h.bind fun _ => always_pure _

/-- A transition is refused and changes nothing, or it is recorded. -/
theorem transition_cases (m : WorkflowStateMachine) (target : RunState) (reason : String) :
    (target ∉ allowedTransitions m.state ∧
      ∃ error, Workflow.transition target reason m = (.error error, m)) ∨
    (target ∈ allowedTransitions m.state ∧ Workflow.transition target reason m =
      (.ok (), { m with events := m.events ++ [⟨m.state, target, reason⟩], state := target })) := by
  rw [Workflow.transition, bind_of_ok (rfl : Stateful.read m = (.ok m, m))]
  by_cases hallowed : target ∈ allowedTransitions m.state
  · rw [if_neg (not_not.2 hallowed)]
    exact .inr ⟨hallowed, rfl⟩
  · rw [if_pos hallowed]
    exact .inl ⟨hallowed, _, rfl⟩

/-- An operation that observes the ledger and projects the failure it finds. -/
theorem progress_projecting {α β : Type} (x : Proc α) (found : α → β) (lost : β)
    (hop : op.projects) (hchain : Chain .intake m.events m.state) :
    (∃ b, (projecting x found lost m).1 = .ok b) ∧ Progress op m (projecting x found lost m).2 := by
  have hobserve : onLedger x m = (.ok (x m.ledger).1, { m with ledger := (x m.ledger).2 }) := rfl
  rw [projecting, bind_of_ok hobserve]
  cases hx : (x m.ledger).1 with
  | ok a => exact ⟨⟨_, rfl⟩, .kept ⟨rfl, rfl⟩⟩
  | error failure =>
    have hobserved : Chain .intake { m with ledger := (x m.ledger).2 }.events
        { m with ledger := (x m.ledger).2 }.state := hchain
    obtain ⟨hok, hprogress⟩ := progress_project hop hobserved failure
    rcases hproject : Workflow.projectBudgetFailure failure { m with ledger := (x m.ledger).2 } with
      ⟨r, t⟩
    rw [hproject] at hok hprogress
    obtain rfl : r = .ok () := hok
    simp only [bind_of_ok hproject]
    refine ⟨⟨_, rfl⟩, ?_⟩
    -- the projection sees the state and the events before the observation
    cases hprogress with
    | kept h => exact .kept h
    | moved hop hallowed hstate hevents => exact .moved hop hallowed hstate hevents
    | failed hop hopen hstate hevents => exact .failed hop hopen hstate hevents
    | replaced hop hcompleted hclosing hstate hevents =>
      exact .replaced hop hcompleted hclosing hstate hevents

theorem discard_run {α : Type} {x : MachineProc α} :
    discard x m = ((x m).1.map fun _ => (), (x m).2) := by
  have hdiscard : discard x m = (x >>= fun _ => pure ()) m := rfl
  rw [hdiscard]
  rcases hx : x m with ⟨_ | _, _⟩
  · rw [bind_of_error hx]
    rfl
  · rw [bind_of_ok hx]
    rfl

/-- What one operation does to a machine whose events are a chain; a projection never raises. -/
theorem progress (op : MachineOp) (hchain : Chain .intake m.events m.state) :
    Progress op m (op.run m).2 ∧ (op.projects → (op.run m).1 = .ok ()) := by
  have hprojecting : ∀ {α β : Type} (x : Proc α) (found : α → β) (lost : β),
      op.projects → op.run = discard (projecting x found lost) →
        Progress op m (op.run m).2 ∧ (op.projects → (op.run m).1 = .ok ()) := by
    intro α β x found lost hop hrun
    obtain ⟨⟨b, hok⟩, hprogress⟩ := progress_projecting x found lost hop hchain
    rw [hrun, discard_run, hok]
    exact ⟨hprogress, fun _ => rfl⟩
  cases op with
  | transition target reason =>
    refine ⟨?_, nofun⟩
    rcases transition_cases m target reason with ⟨-, _, hrun⟩ | ⟨hallowed, hrun⟩ <;>
      rw [MachineOp.run, hrun]
    · exact .kept ⟨rfl, rfl⟩
    · exact .moved rfl hallowed rfl rfl
  | enforceRuntime reading =>
    exact hprojecting (Workflow.snapshot reading) (fun _ => true) false rfl rfl
  | checkedRuntimeWindow reading =>
    exact hprojecting (Workflow.runtimeWindow reading) some none rfl rfl
  | projectBudgetFailure failure =>
    have hprojects : (MachineOp.projectBudgetFailure failure).projects := rfl
    obtain ⟨hok, hprogress⟩ := progress_project hprojects hchain failure
    exact ⟨hprogress, fun _ => hok⟩
  | ledger op => exact ⟨.kept (always_discard (always_throughLedger op.run) m), nofun⟩
  | elapsed reading => exact ⟨.kept (always_discard (always_elapsedNs reading) m), nofun⟩
  | startDeliberationRound => exact ⟨.kept (always_discard always_startDeliberationRound m), nofun⟩
  | allowToolRetry toolName =>
    exact ⟨.kept (always_discard (always_allowToolRetry toolName) m), nofun⟩

/-! ## Runs -/

/-- What every machine of a run has: its events are a chain, and each has a reason. -/
structure WellRecorded (m : WorkflowStateMachine) : Prop where
  chain : Chain .intake m.events m.state
  reasons : ∀ event ∈ m.events, isBlank event.reason = false

/-- The reason of a transition that an operation asks for is not blank. -/
def MachineOp.HasReason (op : MachineOp) : Prop :=
  ∀ target reason, op = .transition target reason → isBlank reason = false

theorem reason_not_blank (failure : BudgetFailure) : isBlank failure.reason = false := by
  have hcode : ∀ code : BudgetFailureCode,
      isBlank ("strict budget observation failed: " ++ code.value) = false := by
    intro code
    cases code <;> decide +kernel
  exact hcode failure.code

theorem WellRecorded.step (h : WellRecorded m) (hreason : op.HasReason) :
    WellRecorded (op.run m).2 := by
  cases (progress op h.chain).1 with
  | kept hsame =>
    obtain ⟨hstate, hevents⟩ := hsame
    exact ⟨by rw [hstate, hevents]; exact h.chain, by rw [hevents]; exact h.reasons⟩
  | moved hop hallowed hstate hevents =>
    refine ⟨?_, ?_⟩
    · rw [hstate, hevents]
      exact trail_concat.2 ⟨h.chain, hallowed, rfl⟩
    · rw [hevents]
      exact List.forall_mem_append.2 ⟨h.reasons, by simpa using hreason _ _ hop⟩
  | failed hop hopen hstate hevents =>
    refine ⟨?_, ?_⟩
    · rw [hstate, hevents]
      exact trail_concat.2 ⟨h.chain, failed_allowed hopen, rfl⟩
    · rw [hevents]
      exact List.forall_mem_append.2 ⟨h.reasons, by simpa using reason_not_blank _⟩
  | replaced hop hcompleted hclosing hstate hevents =>
    have hchain := h.chain
    have hreasons := h.reasons
    rw [hclosing] at hchain hreasons
    refine ⟨?_, ?_⟩
    · rw [hstate, hevents]
      exact trail_concat.2 ⟨(trail_concat.1 hchain).1, by simp [allowedTransitions], rfl⟩
    · rw [hevents]
      exact List.forall_mem_append.2
        ⟨(List.forall_mem_append.1 hreasons).1, by simpa using reason_not_blank _⟩

structure MachineEntry where
  before : WorkflowStateMachine
  op : MachineOp
  result : Except WorkflowError Unit
  after : WorkflowStateMachine

/-- The operations one after another, each with its result. -/
def machineTrace : List MachineOp → WorkflowStateMachine → List MachineEntry
  | [], _ => []
  | op :: ops, m => ⟨m, op, (op.run m).1, (op.run m).2⟩ :: machineTrace ops (op.run m).2

def runMachine (ops : List MachineOp) (m : WorkflowStateMachine) : WorkflowStateMachine :=
  ops.foldl (fun m op => (op.run m).2) m

variable {ops : List MachineOp} {entry : MachineEntry}

theorem WellRecorded.run (h : WellRecorded m) (hreasons : ∀ op ∈ ops, op.HasReason) :
    WellRecorded (runMachine ops m) := by
  induction ops generalizing m with
  | nil => exact h
  | cons op ops ih =>
    obtain ⟨hreason, hrest⟩ := List.forall_mem_cons.1 hreasons
    exact ih (h.step hreason) hrest

theorem WellRecorded.of_mem (h : WellRecorded m) (hreasons : ∀ op ∈ ops, op.HasReason)
    (hmem : entry ∈ machineTrace ops m) : WellRecorded entry.before ∧
      entry.result = (entry.op.run entry.before).1 ∧
      entry.after = (entry.op.run entry.before).2 := by
  induction ops generalizing m with
  | nil => simp [machineTrace] at hmem
  | cons op ops ih =>
    obtain ⟨hreason, hrest⟩ := List.forall_mem_cons.1 hreasons
    rcases List.mem_cons.1 hmem with rfl | hmem
    · exact ⟨h, rfl, rfl⟩
    · exact ih (h.step hreason) hrest hmem

/-- However its operations follow each other, the events of a new machine are a chain from
`INTAKE` to its state, its snapshot is validated, and at most one event ends the run. A
failed run stays as it is; a completed one is left only by a failure of the budget
observation, in place of its closing event; a refused transition changes nothing. -/
theorem run_is_chain {policy : BudgetPolicyV2} {legacyRetryLimit : Option Nat}
    {machine : WorkflowStateMachine}
    (h : WorkflowStateMachine.create policy legacyRetryLimit reading = .ok machine)
    (hreasons : ∀ op ∈ ops, op.HasReason) :
    Chain .intake (runMachine ops machine).events (runMachine ops machine).state ∧
    validateStateEventChain (runMachine ops machine).stored.1 (runMachine ops machine).stored.2 =
      .ok () ∧
    ((runMachine ops machine).events.countP fun event => event.target.terminal) ≤ 1 ∧
    ∀ entry ∈ machineTrace ops machine,
      (entry.before.state = .failedWithLimitations → SameState entry.before entry.after) ∧
      (entry.before.state = .completed → SameState entry.before entry.after ∨
        entry.op.projects ∧ entry.after.state = .failedWithLimitations ∧
          ∃ before reason, ∃ failure : BudgetFailure,
            entry.before.events = before ++ [⟨.finalSynthesis, .completed, reason⟩] ∧
            entry.after.events =
              before ++ [⟨.finalSynthesis, .failedWithLimitations, failure.reason⟩]) ∧
      (∀ target reason, entry.op = .transition target reason →
        (∃ error, entry.result = .error error) → entry.after = entry.before) ∧
      (entry.op.projects → entry.result = .ok ()) := by
  have hnew : WellRecorded machine := by
    obtain ⟨ledger, -, h⟩ := bind_eq_ok.1 h
    cases h
    exact ⟨rfl, by simp⟩
  obtain ⟨hchain, hblank⟩ := hnew.run hreasons
  refine ⟨hchain, validate_stored.2 ⟨hchain, hblank⟩, ?_, fun entry hmem => ?_⟩
  · have hcount := hchain.countP_final RunState.terminal fun s hs t ht => by
      rw [allowedTransitions_terminal hs] at ht
      cases ht
    split at hcount <;> omega
  · obtain ⟨hbefore, hresult, hafter⟩ := hnew.of_mem hreasons hmem
    obtain ⟨hprogress, hprojects⟩ := progress entry.op hbefore.chain
    rw [← hafter] at hprogress
    refine ⟨fun hfailed => ?_, fun hcompleted => ?_, fun target reason hop herror => ?_,
      fun hop => hresult.trans (hprojects hop)⟩
    · cases hprogress with
      | kept hsame => exact hsame
      | moved _ hallowed => simp [hfailed, allowedTransitions] at hallowed
      | failed _ hopen => simp [hfailed, RunState.terminal] at hopen
      | replaced _ hcompleted => simp [hfailed] at hcompleted
    · cases hprogress with
      | kept hsame => exact .inl hsame
      | moved _ hallowed => simp [hcompleted, allowedTransitions] at hallowed
      | failed _ hopen => simp [hcompleted, RunState.terminal] at hopen
      | replaced hop _ hclosing hstate hevents =>
        exact .inr ⟨hop, hstate, _, _, _, hclosing, hevents⟩
    · obtain ⟨error, herror⟩ := herror
      rw [hop] at hresult hafter
      rcases transition_cases entry.before target reason with ⟨-, _, hrun⟩ | ⟨-, hrun⟩
      · rw [hafter, MachineOp.run, hrun]
      · rw [hresult, MachineOp.run, hrun] at herror
        cases herror

/-- A run that fails at once, and one more transition. -/
theorem run_is_chain_failing : ∃ machine,
    WorkflowStateMachine.create {} none (.value 3) = .ok machine ∧
    Chain .intake (runMachine [.transition .normalize "case read", .enforceRuntime (.value 1),
      .transition .dataValidation "normalized"] machine).events
      (runMachine [.transition .normalize "case read", .enforceRuntime (.value 1),
        .transition .dataValidation "normalized"] machine).state := by
  have hcreate : ∃ machine, WorkflowStateMachine.create {} none (.value 3) = .ok machine := ⟨_, rfl⟩
  obtain ⟨machine, hmachine⟩ := hcreate
  refine ⟨machine, hmachine, (run_is_chain hmachine fun op hop => ?_).1⟩
  have hblank : isBlank "case read" = false ∧ isBlank "normalized" = false := by decide +kernel
  simp only [List.mem_cons, List.not_mem_nil, or_false] at hop
  rcases hop with rfl | rfl | rfl <;> intro target reason heq <;> cases heq
  · exact hblank.1
  · exact hblank.2

end PokerDeliberation.Workflow
