import PokerDeliberation.Budgets.Safety

/-!
# Runtime accounting

One instance works on a run with a clock and without storage faults. The clock
table and the durable usage move together: while something is committed, the
used runtime is the last committed observation less the first, whatever was
refused or replayed in between. A clock that goes back is refused, so nothing
is assumed of the readings.
-/

namespace PokerDeliberation.Budgets

open Lib

section

variable (sha256 : Payload → String) (runId : String)

/-- A call and the clock reading it is made at. -/
abbrev TimedCall := Call × Int

/-- One call of the instance. -/
def DurableBudgetStore.timed (store : DurableBudgetStore) (x : TimedCall) :
    DurableBudgetStore × Except StoreError DurableMutationResultV1 :=
  store.call sha256 runId x.1 { clock := some x.2 }

/-- The instance after a sequence of calls. -/
def session (calls : List TimedCall) : DurableBudgetStore :=
  calls.foldl (fun store x => (store.timed sha256 runId x).1) {}

def isApplied : Except StoreError DurableMutationResultV1 → Bool
  | .ok r => r.status = .applied
  | .error _ => false

/-- The reading of the first call that is applied. -/
def firstCommitted (store : DurableBudgetStore) : List TimedCall → Option Int
  | [] => none
  | x :: rest =>
    if isApplied (store.timed sha256 runId x).2 then some x.2
    else firstCommitted (store.timed sha256 runId x).1 rest

variable {sha256 runId} {store : DurableBudgetStore}

theorem session_append {done : List TimedCall} {x : TimedCall} :
    session sha256 runId (done ++ [x]) = ((session sha256 runId done).timed sha256 runId x).1 := by
  simp [session]

theorem firstCommitted_append {done : List TimedCall} {x : TimedCall} :
    firstCommitted sha256 runId store (done ++ [x]) =
      (firstCommitted sha256 runId store done).or
        (if isApplied ((done.foldl (fun store x => (store.timed sha256 runId x).1) store).timed
          sha256 runId x).2 then some x.2 else none) := by
  induction done generalizing store with
  | nil => rfl
  | cons y done ih =>
    simp only [List.cons_append, firstCommitted, List.foldl_cons]
    split
    · rfl
    · exact ih

/-- The clock table and the durable usage after a sequence of calls. -/
structure Accounted (store : DurableBudgetStore) (first : Option Int) : Prop where
  quiet : store.clock.reconciliationRequired = false
  empty : store.revisions = [] → store.clock.last = none ∧ first = none
  charged : ∀ current rest, store.revisions = current :: rest → ∃ last f : Nat,
    store.clock.last = some last ∧ first = some (f : Int) ∧
      current.state.usage.activeRuntimeNs + f = last

theorem timed_outcome (store : DurableBudgetStore) (x : TimedCall) :
    Outcome sha256 runId store x.1 { clock := some x.2 } (store.timed sha256 runId x).1
      (store.timed sha256 runId x).2 := call_outcome store x.1 { clock := some x.2 }

/-- A call that is not applied commits nothing and keeps the last observation. -/
theorem timed_unapplied {first : Option Int} (h : Accounted store first) (x : TimedCall)
    (hno : isApplied (store.timed sha256 runId x).2 = false) :
    (store.timed sha256 runId x).1.revisions = store.revisions ∧
      (store.timed sha256 runId x).1.clock.last = store.clock.last ∧
      (store.timed sha256 runId x).1.clock.reconciliationRequired = false := by
  have hout : Outcome sha256 runId store x.1 { clock := some x.2 } (store.timed sha256 runId x).1
    (store.timed sha256 runId x).2 := timed_outcome store x
  generalize (store.timed sha256 runId x).1 = after at hout ⊢
  generalize (store.timed sha256 runId x).2 = result at hout hno
  cases hout with
  | refused _ same last quiet => exact ⟨same, last, (quiet rfl rfl).trans h.quiet⟩
  | replayed _ same committed settled =>
    obtain ⟨current, rest, hcurrent⟩ := List.exists_cons_of_ne_nil committed
    obtain ⟨last, _, hlast, _⟩ := h.charged current rest hcurrent
    obtain ⟨hlast', hquiet⟩ := settled last hlast h.quiet
    exact ⟨same, hlast'.trans hlast.symm, hquiet⟩
  | applied _ _ _ _ _ returned => simp [isApplied, returned.1] at hno
  | uncertain fault => exact absurd rfl fault

/-- A call that is applied charges what passed since the last observation. -/
theorem timed_applied (x : TimedCall) {r : DurableMutationResultV1}
    (hr : (store.timed sha256 runId x).2 = .ok r) (happlied : r.status = .applied) :
    ∃ observed : Nat, x.2 = observed ∧ (∀ l ∈ store.clock.last, l ≤ observed) ∧
      Succeeds sha256 runId store (observed - store.clock.last.getD observed) x.1 r.state ∧
      (store.timed sha256 runId x).1 =
        ⟨{ last := some observed }, ⟨r.state.generation, r.state⟩ :: store.revisions⟩ := by
  have hout : Outcome sha256 runId store x.1 { clock := some x.2 } (store.timed sha256 runId x).1
    (store.timed sha256 runId x).2 := timed_outcome store x
  generalize (store.timed sha256 runId x).1 = after at hout ⊢
  generalize (store.timed sha256 runId x).2 = result at hout hr
  cases hout with
  | refused failed => exact absurd hr (failed r)
  | replayed replay =>
    cases hr
    rw [replay] at happlied
    cases happlied
  | @applied observed s' _ reading later succeeds clock grown returned =>
    cases hr
    obtain ⟨_, rfl⟩ := returned
    rw [← elapsed_eq _ reading] at succeeds
    refine ⟨observed, Option.some.inj reading, later, succeeds, ?_⟩
    cases after
    simp only at clock grown
    rw [clock, grown]
  | uncertain fault => exact absurd rfl fault

theorem initialState_runtime {policy : DurableBudgetPolicyV1} {operationId requestSha256 : String}
    {s' : DurableBudgetStateV1}
    (h : initialState sha256 runId policy operationId requestSha256 = .ok s') :
    s'.usage.activeRuntimeNs = 0 := by
  obtain ⟨_, _, _, husage, _⟩ := initialState_ok h
  rw [husage]

/-- The step lemma: any call of the instance keeps the accounts. -/
theorem Accounted.timed {first : Option Int} (h : Accounted store first) (x : TimedCall) :
    Accounted (store.timed sha256 runId x).1
      (first.or (if isApplied (store.timed sha256 runId x).2 then some x.2 else none)) := by
  cases happlied : isApplied (store.timed sha256 runId x).2 with
  | false =>
    obtain ⟨hsame, hlast, hquiet⟩ := timed_unapplied h x happlied
    rw [if_neg Bool.false_ne_true, Option.or_none]
    exact ⟨hquiet, by rw [hsame, hlast]; exact h.empty, by rw [hsame, hlast]; exact h.charged⟩
  | true =>
    obtain ⟨r, hr, hstatus⟩ : ∃ r, (store.timed sha256 runId x).2 = .ok r ∧ r.status = .applied := by
      cases hresult : (store.timed sha256 runId x).2 with
      | ok r => exact ⟨r, rfl, by simpa [hresult, isApplied] using happlied⟩
      | error e => simp [hresult, isApplied] at happlied
    obtain ⟨observed, hreading, hlater, hsucceeds, hafter⟩ := timed_applied x hr hstatus
    generalize x.1 = c at hsucceeds
    rw [hafter, if_pos rfl, hreading]
    refine ⟨rfl, by simp, fun current rest hcurrent => ?_⟩
    obtain ⟨rfl, rfl⟩ := List.cons.inj hcurrent
    cases hsucceeds with
    | first hempty hinitial =>
      obtain ⟨_, hfirst⟩ := h.empty hempty
      refine ⟨observed, observed, rfl, by simp [hfirst], ?_⟩
      show r.state.usage.activeRuntimeNs + observed = observed
      rw [initialState_runtime hinitial, Nat.zero_add]
    | next hprevious _ heffect =>
      obtain ⟨last, f, hlast, hfirst, hused⟩ := h.charged _ _ hprevious
      have hle := hlater last hlast
      have hruntime := heffect.runtime
      rw [hlast, Option.getD_some] at hruntime
      refine ⟨observed, f, rfl, by simp [hfirst], ?_⟩
      show r.state.usage.activeRuntimeNs + f = observed
      simp only at hused
      omega

/-- The accounts hold after every sequence of calls. -/
theorem session_accounted (calls : List TimedCall) :
    Accounted (session sha256 runId calls) (firstCommitted sha256 runId {} calls) := by
  induction calls using List.reverseRecOn with
  | nil => exact ⟨rfl, fun _ => ⟨rfl, rfl⟩, by simp [session]⟩
  | append_singleton done x ih =>
    rw [session_append, firstCommitted_append]
    exact ih.timed x

/-- Over one instance, an applied call leaves as used runtime its own observation
less that of the first committed call, and a refused or replayed one leaves the
durable states as they are. -/
theorem runtime_accounting (sha256 : Payload → String) (runId : String) (done : List TimedCall)
    (c : Call) (observed : Int) :
    let before := session sha256 runId done
    let after := session sha256 runId (done ++ [(c, observed)])
    let result := (before.timed sha256 runId (c, observed)).2
    (∀ r, result = .ok r → r.status = .applied →
      ∃ first, firstCommitted sha256 runId {} (done ++ [(c, observed)]) = some first ∧
        (r.state.usage.activeRuntimeNs : Int) = observed - first ∧
        after.revisions = ⟨r.state.generation, r.state⟩ :: before.revisions) ∧
      (isApplied result = false → after.revisions = before.revisions) := by
  intro before after result
  have hbefore : Accounted before (firstCommitted sha256 runId {} done) := session_accounted done
  have hafter : Accounted after (firstCommitted sha256 runId {} (done ++ [(c, observed)])) :=
    session_accounted _
  have hstep : after = (before.timed sha256 runId (c, observed)).1 := session_append
  constructor
  · intro r hr hstatus
    obtain ⟨n, hreading, _, _, hcommitted⟩ := timed_applied (c, observed) hr hstatus
    rw [← hstep] at hcommitted
    obtain ⟨last, f, hlast, hfirst, hused⟩ := hafter.charged _ _ (by rw [hcommitted])
    have hn : n = last := by simpa [hcommitted] using hlast
    refine ⟨f, hfirst, ?_, by rw [hcommitted]⟩
    simp only at hused hreading
    omega
  · intro hno
    rw [hstep]
    exact (timed_unapplied hbefore (c, observed) hno).1

end

end PokerDeliberation.Budgets
