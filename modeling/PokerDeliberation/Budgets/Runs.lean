import PokerDeliberation.Budgets.Effects

/-!
# Runs of the store

A call refuses, replays or publishes (`call_outcome`): the revisions stay as
they are or grow by one successor, which is the first state of the run or the
effect of the call on the current state. A run is any sequence of calls, clock
rebases, resumes and changes of instance; `run_induction` is the rule for what
holds of every state it commits.
-/

namespace PokerDeliberation.Budgets

open Lib

section

variable {sha256 : Payload → String} {runId : String} {store : DurableBudgetStore}
variable {revisions : List Revision} {state s' : DurableBudgetStateV1}

/-! ## Loading -/

theorem loadHistory_ok {fault : Option RunStorageFailureCode} {states : List DurableBudgetStateV1}
    (h : loadHistory sha256 runId revisions fault = .ok states) :
    fault = none ∧ revisions ≠ [] ∧ checkHistory sha256 runId revisions = .ok () ∧
      states = revisions.map (·.state) := by
  unfold loadHistory at h
  split at h
  · exact absurd h raise_ne_ok
  · exact absurd h raise_ne_ok
  · next hne =>
    split at h
    · next hcheck =>
      cases h
      exact ⟨rfl, fun he => hne he, hcheck, rfl⟩
    · exact absurd h raise_ne_ok

/-- A history is readable exactly when it is nonempty and passes the checks. -/
theorem loadHistory_readable :
    (∃ states, loadHistory sha256 runId revisions none = .ok states) ↔
      revisions ≠ [] ∧ checkHistory sha256 runId revisions = .ok () := by
  constructor
  · rintro ⟨states, h⟩
    obtain ⟨_, hne, hcheck, _⟩ := loadHistory_ok h
    exact ⟨hne, hcheck⟩
  · rintro ⟨hne, hcheck⟩
    cases revisions with
    | nil => exact absurd rfl hne
    | cons current rest =>
      refine ⟨(current :: rest).map (·.state), ?_⟩
      simp only [loadHistory, hcheck]

theorem checkHistory_ok : checkHistory sha256 runId revisions = .ok () ↔
    (∀ entry ∈ revisions, entry.state.validateSnapshot sha256 = .ok ()) ∧
      revisions.map (·.state.generation) = revisions.map (·.revision) ∧
      (∀ entry ∈ revisions, entry.state.runId = runId) ∧
      ∀ pair ∈ revisions.zip revisions.tail,
        validateStateSuccessor sha256 pair.2.state pair.1.state = .ok () := by
  unfold checkHistory
  simp only [bind_eq_ok, forM_eq_ok, require_eq_ok, exists_const]

theorem load_ok {fault : Option RunStorageFailureCode}
    (h : load sha256 runId revisions fault = .ok state) :
    fault = none ∧ checkHistory sha256 runId revisions = .ok () ∧
      ∃ rest, revisions = ⟨state.generation, state⟩ :: rest := by
  unfold load at h
  rw [bind_eq_ok] at h
  obtain ⟨states, hload, h⟩ := h
  obtain ⟨hfault, hne, hcheck, rfl⟩ := loadHistory_ok hload
  cases revisions with
  | nil => exact absurd rfl hne
  | cons current rest =>
    simp only [List.map_cons, pure_eq_ok] at h
    subst h
    have hgen := (checkHistory_ok.1 hcheck).2.1
    rw [List.map_cons, List.map_cons, List.cons.injEq] at hgen
    exact ⟨hfault, hcheck, rest, by rw [hgen.1]⟩

theorem existingOperation_ok {m : Mutation} {replay : DurableMutationResultV1}
    (h : existingOperation state m = .ok (some replay)) : replay.status = .exactReplay := by
  unfold existingOperation at h
  split at h
  · cases h
  · simp only [bind_eq_ok, pure_eq_ok, Option.some.injEq] at h
    obtain ⟨_, _, rfl⟩ := h
    rfl

/-! ## The clock -/

theorem observeMonotonic_ok {t t' : ClockTable} {reading : Option Int} {operationId : String}
    {observed elapsed : Nat}
    (h : t.observeMonotonic reading operationId = .ok (observed, elapsed, t')) :
    reading = some (observed : Int) ∧ elapsed = observed - t.last.getD observed ∧
      (∀ l ∈ t.last, l ≤ observed) ∧ t' = { t with pending := some observed } := by
  unfold ClockTable.observeMonotonic at h
  split at h
  · exact absurd h raise_ne_ok
  · next reading =>
    simp only [bind_eq_ok, ensure_eq_ok, pure_eq_ok, Prod.mk.injEq, exists_const] at h
    obtain ⟨hpos, href, rfl, rfl, rfl⟩ := h
    refine ⟨by rw [Int.toNat_of_nonneg hpos], rfl, fun l hl => ?_, rfl⟩
    refine le_trans ?_ href
    simp only [Option.mem_def] at hl
    cases hp : t.pending <;> simp [ClockTable.rollbackReference, hl, hp]

/-! ## What a call does -/

/-- The nanoseconds between the last committed observation and this reading. -/
def DurableBudgetStore.elapsed (store : DurableBudgetStore) (env : Environment) : Nat :=
  let observed := (env.clock.getD 0).toNat
  observed - store.clock.last.getD observed

theorem elapsed_eq {observed : Nat} (env : Environment) (h : env.clock = some (observed : Int)) :
    observed - store.clock.last.getD observed = store.elapsed env := by
  simp [DurableBudgetStore.elapsed, h]

/-- The successor a call publishes over the committed revisions. -/
inductive Succeeds (sha256 : Payload → String) (runId : String) (store : DurableBudgetStore)
    (elapsed : Nat) : Call → DurableBudgetStateV1 → Prop where
  | first {policy operationId requestSha256 s'} (empty : store.revisions = [])
    (initial : initialState sha256 runId policy operationId requestSha256 = .ok s') :
    Succeeds sha256 runId store elapsed (.create policy operationId) s'
  | next {c state rest s'} (current : store.revisions = ⟨state.generation, state⟩ :: rest)
    (readable : checkHistory sha256 runId store.revisions = .ok ())
    (effect : Effect sha256 runId state elapsed c s') :
    Succeeds sha256 runId store elapsed c s'

/-- What a call leaves behind and returns. -/
inductive Outcome (sha256 : Payload → String) (runId : String) (store : DurableBudgetStore) (c : Call)
    (env : Environment) (after : DurableBudgetStore) :
    Except StoreError DurableMutationResultV1 → Prop where
  /-- nothing committed, an error returned -/
  | refused {result} (failed : ∀ r, result ≠ .ok r) (same : after.revisions = store.revisions)
    (last : after.clock.last = store.clock.last)
    (quiet : env.loadFault = none → env.publishFault = none →
      after.clock.reconciliationRequired = store.clock.reconciliationRequired) :
    Outcome sha256 runId store c env after result
  /-- nothing committed, the recorded operation returned -/
  | replayed {r} (replay : r.status = .exactReplay) (same : after.revisions = store.revisions)
    (committed : store.revisions ≠ [])
    (settled : ∀ l, store.clock.last = some l → store.clock.reconciliationRequired = false →
      after.clock.last = some l ∧ after.clock.reconciliationRequired = false) :
    Outcome sha256 runId store c env after (.ok r)
  /-- the successor committed and returned -/
  | applied {observed : Nat} {s' r} (reading : env.clock = some (observed : Int))
    (later : ∀ l ∈ store.clock.last, l ≤ observed)
    (succeeds : Succeeds sha256 runId store (store.elapsed env) c s')
    (clock : after.clock = { last := some observed })
    (grown : after.revisions = ⟨s'.generation, s'⟩ :: store.revisions)
    (returned : r.status = .applied ∧ r.state = s') :
    Outcome sha256 runId store c env after (.ok r)
  /-- the successor committed, an uncertain failure returned -/
  | uncertain {s' result} (fault : env.publishFault ≠ none) (failed : ∀ r, result ≠ .ok r)
    (succeeds : Succeeds sha256 runId store (store.elapsed env) c s')
    (grown : after.revisions = ⟨s'.generation, s'⟩ :: store.revisions) :
    Outcome sha256 runId store c env after result

/-! ## Every call has an outcome -/

@[simp] theorem afterStorageError_revisions {code : RunStorageFailureCode} :
    (store.afterStorageError code).revisions = store.revisions := by
  unfold DurableBudgetStore.afterStorageError
  split <;> rfl

@[simp] theorem afterStorageError_last {code : RunStorageFailureCode} :
    (store.afterStorageError code).clock.last = store.clock.last := by
  unfold DurableBudgetStore.afterStorageError
  split <;> rfl

variable {c : Call} {env : Environment} {m : Mutation} {observed : Nat} {t : ClockTable}

theorem commitRevision_outcome (ht : t.last = store.clock.last)
    (hreading : env.clock = some (observed : Int)) (hlater : ∀ l ∈ store.clock.last, l ≤ observed)
    (hs : Succeeds sha256 runId store (store.elapsed env) c s') :
    let out := ({ store with clock := t } : DurableBudgetStore).commitRevision s' m observed
      env.publishFault
    Outcome sha256 runId store c env out.1 out.2 := by
  unfold DurableBudgetStore.commitRevision
  split
  · next code landed hfault =>
    have hne : env.publishFault ≠ none := by simp [hfault]
    by_cases hlanded : (landed && code.uncertain) = true
    · exact .uncertain hne (fun _ => raise_ne_ok) hs (by simp [hlanded])
    · exact .refused (fun _ => raise_ne_ok) (by simp [hlanded]) (by simp [ht])
        fun _ h => absurd h hne
  · exact .applied hreading hlater hs rfl rfl ⟨rfl, rfl⟩

/-- The current revision is the one just loaded, so publishing goes ahead. -/
theorem publish_current {current : DurableBudgetStateV1} {rest : List Revision}
    (h : store.revisions = ⟨current.generation, current⟩ :: rest) :
    store.publish sha256 runId (some current) s' m observed env.publishFault =
      store.commitRevision s' m observed env.publishFault := by
  unfold DurableBudgetStore.publish
  simp [h]

theorem loadError_outcome {e : StoreError} {after : DurableBudgetStore}
    (ht : t.last = store.clock.last)
    (hr : t.reconciliationRequired = store.clock.reconciliationRequired)
    (hafter : after = env.loadFault.elim { store with clock := t }
      ({ store with clock := t } : DurableBudgetStore).afterStorageError) :
    Outcome sha256 runId store c env after (.error e) := by
  subst hafter
  cases hf : env.loadFault with
  | none => exact .refused (by simp) rfl ht fun _ _ => hr
  | some code =>
    refine .refused (by simp) ?_ ?_ fun h => ?_
    · exact afterStorageError_revisions
    · exact afterStorageError_last.trans ht
    · simp [hf] at h

theorem replayed_outcome {replay : DurableMutationResultV1} (ht : t.last = store.clock.last)
    (hr : t.reconciliationRequired = store.clock.reconciliationRequired)
    (hreplay : replay.status = .exactReplay) (hne : store.revisions ≠ []) :
    Outcome sha256 runId store c env { store with clock := t.replayed } (.ok replay) := by
  refine .replayed hreplay rfl hne fun l hl hq => ?_
  have hquiet : ¬ (t.last = none ∨ t.reconciliationRequired = true) := by
    simp [ht, hr, hl, hq]
  simp only [ClockTable.replayed, if_neg hquiet]
  exact ⟨ht.trans hl, hr.trans hq⟩

theorem mutate_outcome (hc : c.isCreate = false) :
    let out := store.mutate sha256 runId (c.mutation sha256 runId) env
    Outcome sha256 runId store c env out.1 out.2 := by
  unfold DurableBudgetStore.mutate
  split
  · exact .refused (by simp) rfl rfl fun _ _ => rfl
  · next observed elapsed t hobserve =>
    obtain ⟨hreading, helapsed, hlater, ht⟩ := observeMonotonic_ok hobserve
    have hlast : t.last = store.clock.last := by rw [ht]
    have hrec : t.reconciliationRequired = store.clock.reconciliationRequired := by rw [ht]
    simp only
    split
    · exact loadError_outcome hlast hrec rfl
    · next state hload =>
      obtain ⟨_, hcheck, rest, hcurrent⟩ := load_ok hload
      split
      · exact .refused (by simp) rfl hlast fun _ _ => hrec
      · next replay hexisting =>
        obtain ⟨_, _, hreplay⟩ := bind_eq_ok.1 hexisting
        exact replayed_outcome hlast hrec (existingOperation_ok hreplay) (by rw [hcurrent]; simp)
      · split
        · exact .refused (by simp) rfl hlast fun _ _ => hrec
        · next s' hsuccessor =>
          have hpublish : (⟨t, store.revisions⟩ : DurableBudgetStore).revisions =
              ⟨state.generation, state⟩ :: rest := hcurrent
          rw [publish_current hpublish]
          refine commitRevision_outcome hlast hreading hlater (.next hcurrent hcheck ?_)
          rw [helapsed, elapsed_eq env hreading] at hsuccessor
          exact mutation_effect hc hsuccessor

theorem create_outcome {policy : DurableBudgetPolicyV1} {operationId : String} :
    let out := create sha256 runId store policy operationId env
    Outcome sha256 runId store (.create policy operationId) env out.1 out.2 := by
  unfold create
  simp only
  split
  · exact .refused (by simp) rfl rfl fun _ _ => rfl
  · next observed elapsed t hobserve =>
    obtain ⟨hreading, helapsed, hlater, ht⟩ := observeMonotonic_ok hobserve
    have hlast : t.last = store.clock.last := by rw [ht]
    have hrec : t.reconciliationRequired = store.clock.reconciliationRequired := by rw [ht]
    split
    · next hempty =>
      split
      · exact .refused (by simp) rfl hlast fun _ _ => hrec
      · next s' hinitial =>
        exact commitRevision_outcome hlast hreading hlater (.first hempty hinitial)
    · next hne =>
      split
      · exact loadError_outcome hlast hrec rfl
      · split
        · exact .refused (by simp) rfl hlast fun _ _ => hrec
        · next hexisting =>
          exact replayed_outcome hlast hrec (existingOperation_ok hexisting) hne
        · exact .refused (fun _ => raise_ne_ok) rfl hlast fun _ _ => hrec

/-- What any call does to the store. -/
theorem call_outcome (store : DurableBudgetStore) (c : Call) (env : Environment) :
    let out := store.call sha256 runId c env
    Outcome sha256 runId store c env out.1 out.2 := by
  cases c with
  | create policy operationId => exact create_outcome
  | reserve | start | settle | releaseNoEffect | requestCancellation | recordCancellation
  | tightenPolicy => exact mutate_outcome rfl

/-! ## Runs -/

/-- One action on a run: a call on the instance at hand, a rebase or a resume of
its clock, or taking the run up with another instance, whose clock is its own. -/
inductive Action where
  | call (c : Call) (env : Environment)
  | rebase
  | resume (env : Environment)
  | takeOver (clock : ClockTable)

/-- The store after an action. -/
def DurableBudgetStore.act (sha256 : Payload → String) (runId : String) (store : DurableBudgetStore) :
    Action → DurableBudgetStore
  | .call c env => (store.call sha256 runId c env).1
  | .rebase => store.rebaseMonotonicClock
  | .resume env => (store.resume sha256 runId env).1
  | .takeOver clock => { store with clock }

/-- The store after a run on an empty one. -/
def run (sha256 : Payload → String) (runId : String) (actions : List Action) : DurableBudgetStore :=
  actions.foldl (DurableBudgetStore.act sha256 runId) {}

@[simp] theorem run_nil : run sha256 runId [] = {} := rfl

theorem run_append {done : List Action} {a : Action} :
    run sha256 runId (done ++ [a]) = (run sha256 runId done).act sha256 runId a := by
  simp [run]

theorem resume_revisions : (store.resume sha256 runId env).1.revisions = store.revisions := by
  unfold DurableBudgetStore.resume
  simp only
  split
  · cases env.loadFault with
    | none => rfl
    | some code => exact afterStorageError_revisions
  · split
    · rfl
    · split <;> rfl

/-- The call of an action publishes `s'`. -/
def Publishes (sha256 : Payload → String) (runId : String) (store : DurableBudgetStore)
    (a : Action) (s' : DurableBudgetStateV1) : Prop :=
  ∃ c env, a = .call c env ∧ Succeeds sha256 runId store (store.elapsed env) c s'

/-- An action keeps the revisions, or its call publishes one successor. -/
theorem act_revisions (store : DurableBudgetStore) (a : Action) :
    (store.act sha256 runId a).revisions = store.revisions ∨
      ∃ s', Publishes sha256 runId store a s' ∧
        (store.act sha256 runId a).revisions = ⟨s'.generation, s'⟩ :: store.revisions := by
  cases a with
  | rebase => exact .inl rfl
  | takeOver clock => exact .inl rfl
  | resume env => exact .inl resume_revisions
  | call c env =>
    show (store.call sha256 runId c env).1.revisions = store.revisions ∨ _
    have hout : Outcome sha256 runId store c env (store.call sha256 runId c env).1
      (store.call sha256 runId c env).2 := call_outcome store c env
    rw [show store.act sha256 runId (.call c env) = (store.call sha256 runId c env).1 from rfl]
    generalize (store.call sha256 runId c env).1 = after at hout ⊢
    generalize (store.call sha256 runId c env).2 = result at hout
    cases hout with
    | refused _ same => exact .inl same
    | replayed _ same => exact .inl same
    | applied _ _ succeeds _ grown => exact .inr ⟨_, ⟨c, env, rfl, succeeds⟩, grown⟩
    | uncertain _ _ succeeds grown => exact .inr ⟨_, ⟨c, env, rfl, succeeds⟩, grown⟩

/-- What holds of the first state of a run and is kept by every effect holds of
every committed state. -/
theorem run_induction {I : DurableBudgetStateV1 → Prop}
    (initial : ∀ policy operationId requestSha256 s',
      initialState sha256 runId policy operationId requestSha256 = .ok s' → I s')
    (step : ∀ state elapsed c s', I state → Effect sha256 runId state elapsed c s' → I s')
    (actions : List Action) : ∀ entry ∈ (run sha256 runId actions).revisions, I entry.state := by
  induction actions using List.reverseRecOn with
  | nil => simp
  | append_singleton done a ih =>
    rw [run_append]
    rcases act_revisions (run sha256 runId done) a with hsame | ⟨s', hpub, hgrown⟩
    · rw [hsame]; exact ih
    · rw [hgrown]
      refine List.forall_mem_cons.2 ⟨?_, ih⟩
      obtain ⟨c, env, _, hs⟩ := hpub
      cases hs with
      | first _ hinitial => exact initial _ _ _ _ hinitial
      | next hcurrent _ heffect =>
        exact step _ _ _ _ (ih _ (by rw [hcurrent]; exact List.mem_cons_self)) heffect

end

end PokerDeliberation.Budgets
