import PokerDeliberation.Budgets.Calls
import PokerDeliberation.Budgets.Replay

/-!
# The store under an execution

An execution calls the store one mutation at a time. `Working` is what holds of
the current state between two calls, `Extends` what a later state keeps of an
earlier one, and `storeCall_returns` the step: a call that returns has replayed
and left the state as it was, or has committed its successor.
-/

namespace PokerDeliberation.Budgets

open Lib

/-! ## Consistent states -/

section Consistent

variable {sha256 : Payload → String} {s s' s'' : DurableBudgetStateV1}

def permitIds (s : DurableBudgetStateV1) : List String := s.attempts.map (·.permitId)

def settledIds (s : DurableBudgetStateV1) : List String := s.settlements.map (·.permitId)

/-- What the snapshot validator says of identities. -/
structure Consistent (s : DurableBudgetStateV1) : Prop where
  permits : Keyed.Distinct DurablePermitV1.permitId s.activePermits
  attempts : Keyed.Distinct AttemptRecordV1.permitId s.attempts
  contexts : Keyed.Distinct (fun a : AttemptRecordV1 => a.lineage.contextId) s.attempts
  settlements : Keyed.Distinct DurableSettlementV1.permitId s.settlements
  apart : ∀ p ∈ s.activePermits, p.permitId ∉ settledIds s
  known : ∀ q, q ∈ permitIds s ↔ q ∈ s.activePermits.map (·.permitId) ∨ q ∈ settledIds s
  parents : ∀ a ∈ s.attempts, ∀ c, a.lineage.parentContextId = some c →
    ∃ b ∈ s.attempts, b.lineage.contextId = c
  peak : s.usage.peakConcurrency ≤ 32

theorem checkLineages_parents {attemptsById : String → Option ExecutionLineageV1}
    {attempts : List AttemptRecordV1} {rootOrdinals : String → Option Nat}
    {ordinalRoots : Nat → Option String}
    (h : checkLineages attemptsById attempts rootOrdinals ordinalRoots = .ok ()) :
    ∀ a ∈ attempts, ∀ id, a.lineage.parentAttemptId = some id → ∃ parent,
      attemptsById id = some parent ∧ some parent.contextId = a.lineage.parentContextId := by
  induction attempts generalizing rootOrdinals ordinalRoots with
  | nil => simp
  | cons b rest ih =>
    simp only [checkLineages, require_bind_eq_ok] at h
    obtain ⟨_, _, h⟩ := h
    split at h
    · next hnone =>
      refine List.forall_mem_cons.2 ⟨fun id hid => ?_, ih h⟩
      rw [hnone] at hid
      cases hid
    · next parentId hsome =>
      split at h
      · simp only [bind_eq_ok, throw_ne_ok, false_and, exists_false] at h
      · next parent hparent =>
        simp only [require_bind_eq_ok] at h
        refine List.forall_mem_cons.2 ⟨fun id hid => ?_, ih h.2.2⟩
        rw [hsome, Option.some.injEq] at hid
        exact ⟨parent, hid ▸ hparent, h.1⟩

theorem consistent_of (h : s.validateSnapshot sha256 = .ok ()) : Consistent s := by
  unfold DurableBudgetStateV1.validateSnapshot at h
  simp only [bind_eq_ok, require_eq_ok, exists_const] at h
  obtain ⟨_, _, _, _, _, _, _, _, hids, _, hlineages, _, hstatus, _, _, _, hpeak⟩ := h
  unfold DurableBudgetStateV1.checkIdentities at hids
  unfold DurableBudgetStateV1.checkStatuses at hstatus
  simp only [bind_eq_ok, require_eq_ok, forM_eq_ok, exists_const] at hids hstatus
  obtain ⟨hpermits, _, hsettled, hattempts, hattemptIds, hcontexts, _⟩ := hids
  obtain ⟨hapart, hkeys, _⟩ := hstatus
  refine ⟨hpermits, hattempts, hcontexts, hsettled, fun p hp hset => ?_, fun q => ?_,
    fun a ha c hc => ?_, le_trans hpeak s.policy.activation.concurrent_le⟩
  · have hmem : p.permitId ∈ Keyed.keys DurablePermitV1.permitId s.activePermits ∩
        Keyed.keys DurableSettlementV1.permitId s.settlements := by
      refine Finset.mem_inter.2 ⟨Keyed.mem_keys.2 ⟨p, hp, rfl⟩, ?_⟩
      exact List.mem_toFinset.2 hset
    rw [hapart] at hmem
    simp at hmem
  · have hq := congrArg (q ∈ ·) hkeys
    simp only [Keyed.keys, Finset.mem_union, List.mem_toFinset, eq_iff_iff] at hq
    exact hq
  · obtain ⟨id, hid⟩ : ∃ id, a.lineage.parentAttemptId = some id := by
      have hpaired := a.lineage.paired
      rw [hc] at hpaired
      cases hp : a.lineage.parentAttemptId with
      | none => simp [hp] at hpaired
      | some id => exact ⟨id, rfl⟩
    obtain ⟨parent, hparent, hpc⟩ := checkLineages_parents hlineages a ha id hid
    rw [Option.map_eq_some_iff] at hparent
    obtain ⟨b, hb, rfl⟩ := hparent
    refine ⟨b, (Keyed.dict_eq_some_iff hattemptIds).1 hb |>.1, ?_⟩
    rw [hc, Option.some.injEq] at hpc
    exact hpc

/-! ## What later states keep -/

/-- `s'` comes after `s` in a run of reservations, starts and settlements. -/
structure Extends (s s' : DurableBudgetStateV1) : Prop where
  keeps : Keeps s s'
  policy : s'.policy = s.policy
  settled : ∀ a ∈ s.attempts, a.permitId ∈ settledIds s → a ∈ s'.attempts
  recorded : ∀ m, Recorded s m → Recorded s' m

theorem Keeps.settledIds (h : Keeps s s') {q : String} (hq : q ∈ settledIds s) :
    q ∈ Budgets.settledIds s' := by
  obtain ⟨x, hx, hid⟩ := List.mem_map.1 hq
  exact List.mem_map.2 ⟨x, h.settlements x hx, hid⟩

theorem Keeps.permitIds (h : Keeps s s') {q : String} (hq : q ∈ permitIds s) :
    q ∈ Budgets.permitIds s' := by
  obtain ⟨a, ha, hid⟩ := List.mem_map.1 hq
  obtain ⟨b, hb, hbid, _⟩ := h.attempts a ha
  exact List.mem_map.2 ⟨b, hb, hbid.trans hid⟩

theorem Extends.refl (s : DurableBudgetStateV1) : Extends s s :=
  ⟨⟨fun a ha => ⟨a, ha, rfl, rfl⟩, fun _ hx => hx⟩, rfl, fun _ ha _ => ha, fun _ h => h⟩

theorem Extends.trans (h : Extends s s') (h' : Extends s' s'') : Extends s s'' where
  keeps :=
    { attempts := fun a ha => by
        obtain ⟨b, hb, hid, hl⟩ := h.keeps.attempts a ha
        obtain ⟨c, hc, hid', hl'⟩ := h'.keeps.attempts b hb
        exact ⟨c, hc, hid'.trans hid, hl'.trans hl⟩
      settlements := fun x hx => h'.keeps.settlements x (h.keeps.settlements x hx) }
  policy := h'.policy.trans h.policy
  settled := fun a ha hs => h'.settled a (h.settled a ha hs) (h.keeps.settledIds hs)
  recorded := fun m hm => h'.recorded m (h.recorded m hm)

theorem Recorded.append {m : Mutation} {record : IdempotencyRecordV1} (h : Recorded s m)
    (hops : s'.operations = s.operations ++ [record]) : Recorded s' m := by
  obtain ⟨r, hfind, hrest⟩ := h
  refine ⟨r, ?_, hrest⟩
  unfold Keyed.find at hfind ⊢
  rw [hops, List.find?_append, hfind]
  rfl

/-- A mutation that is logged under a fresh identity is recorded. -/
theorem Logs.recorded {m : Mutation} (h : Logs s s' m) (hfresh : Unrecorded s m) :
    Recorded s' m := by
  obtain ⟨record, hops, hid, hkind, hrequest⟩ := h
  refine ⟨record, ?_, hkind, hrequest⟩
  unfold Unrecorded Keyed.find at hfresh
  unfold Keyed.find
  rw [hops, List.find?_append, hfresh]
  simp [hid]

end Consistent

/-! ## Calls -/

section Calls

variable {executor : DurableBoundedExecutor} {outside : Outside} {made : List Call}
variable {p p' : Progress} {s s' : DurableBudgetStateV1} {c : Call} {reading : Int}
variable {r : DurableMutationResultV1}

def Progress.calls (p : Progress) : List Call := p.log.map (·.1)

/-- Between two calls of an execution on a run with the earlier calls `made`. -/
structure Working (executor : DurableBoundedExecutor) (made : List Call) (p : Progress)
    (s : DurableBudgetStateV1) : Prop where
  current : ∃ rest, p.store.revisions = ⟨s.generation, s⟩ :: rest
  valid : s.validateSnapshot executor.sha256 = .ok ()
  logged : Logged executor.sha256 executor.runId (made ++ p.calls) s
  reflected : ∀ c ∈ p.calls, Reflected s c

theorem Working.consistent (hw : Working executor made p s) : Consistent s := consistent_of hw.valid

/-- What a call that returned did to the current state. -/
inductive Called (executor : DurableBoundedExecutor) (c : Call) (reading : Int) (p p' : Progress)
    (s : DurableBudgetStateV1) (r : DurableMutationResultV1) : DurableBudgetStateV1 → Prop where
  | replayed (returned : r.status = .exactReplay ∧ r.state = s)
    (recorded : Recorded s (c.mutation executor.sha256 executor.runId))
    (clock : ∀ l, p.store.clock.last = some l → p.store.clock.reconciliationRequired = false →
      p'.store.clock.last = some l ∧ p'.store.clock.reconciliationRequired = false) :
    Called executor c reading p p' s r s
  | applied {s' : DurableBudgetStateV1} {observed : Nat}
    (returned : r.status = .applied ∧ r.state = s')
    (unrecorded : Unrecorded s (c.mutation executor.sha256 executor.runId))
    (reading_eq : reading = observed) (later : ∀ l ∈ p.store.clock.last, l ≤ observed)
    (successor : (c.mutation executor.sha256 executor.runId).successor s
      (observed - p.store.clock.last.getD observed) = .ok s')
    (clock : p'.store.clock = { last := some observed }) :
    Called executor c reading p p' s r s'

theorem CollisionFree.mono {sha256 : Payload → String} {runId : String} {calls calls' : List Call}
    (h : CollisionFree sha256 runId calls') (hsub : ∀ c ∈ calls, c ∈ calls') :
    CollisionFree sha256 runId calls :=
  fun c hc c' hc' => h c (hsub c hc) c' (hsub c' hc')

/-- A call that is answered as a replay has been reflected before. -/
theorem Recorded.reflected {sha256 : Payload → String} {runId : String} {calls : List Call}
    (h : Recorded s (c.mutation sha256 runId)) (hl : Logged sha256 runId calls s)
    (hfree : CollisionFree sha256 runId (calls ++ [c])) : Reflected s c := by
  obtain ⟨record, hfind, hkind, hrequest⟩ := h
  rw [mutation_request] at hrequest
  have hmem := (Keyed.find_mem hfind).1
  cases c with
  | create | start | releaseNoEffect | requestCancellation | recordCancellation | tightenPolicy =>
    trivial
  | reserve =>
    obtain ⟨d, hd, hdk, hdr, href⟩ := hl record hmem (.inl hkind)
    have hpayload := hfree _ (List.mem_append_left _ hd) _ (List.mem_append_right _ List.mem_cons_self)
      (hdr.trans hrequest)
    cases d <;> simp only [Call.request, reduceCtorEq, Payload.reserveRequest.injEq] at hpayload
    obtain ⟨rfl, _, rfl, _⟩ := hpayload
    exact href
  | settle a =>
    obtain ⟨d, hd, hdk, hdr, href⟩ := hl record hmem (.inr hkind)
    have hpayload := hfree _ (List.mem_append_left _ hd) _ (List.mem_append_right _ List.mem_cons_self)
      (hdr.trans hrequest)
    cases d <;> simp only [Call.request, reduceCtorEq, Payload.settleRequest.injEq] at hpayload
    show a.permitId ∈ _
    rw [← hpayload.2.1]
    exact href

theorem call_eq_mutate (store : DurableBudgetStore) (env : Environment) (hc : c.isCreate = false) :
    store.call executor.sha256 executor.runId c env =
      store.mutate executor.sha256 executor.runId (c.mutation executor.sha256 executor.runId)
        env := by
  cases c with
  | create => cases hc
  | reserve | start | settle | releaseNoEffect | requestCancellation | recordCancellation
  | tightenPolicy => rfl

/-- The step: a call that returns, in a working state. -/
theorem storeCall_returns (hw : Working executor made p s) (hc : c.isCreate = false)
    (h : Returns (executor.storeCall outside c) p r p')
    (hfree : CollisionFree executor.sha256 executor.runId (made ++ p'.calls)) :
    ∃ s' reading, p'.log = p.log ++ [(c, reading)] ∧ p'.effects = p.effects ∧
      Working executor made p' s' ∧ Called executor c reading p p' s r s' := by
  obtain ⟨rest, hcurrent⟩ := hw.current
  unfold Returns DurableBoundedExecutor.storeCall at h
  simp only [call_eq_mutate _ _ hc] at h
  have hout : MutationOutcome executor.sha256 executor.runId p.store
    (c.mutation executor.sha256 executor.runId) (outside.environment p.turn) _ _ :=
    mutate_cases p.store _ _
  rcases hmut : p.store.mutate executor.sha256 executor.runId
    (c.mutation executor.sha256 executor.runId) (outside.environment p.turn) with ⟨after, result⟩
  rw [hmut] at h hout
  cases hout with
  | refused | uncertain => simp at h
  | @replayed state rest' r' hstate recorded returned same settled =>
    simp only [Prod.mk.injEq, Except.ok.injEq] at h
    obtain ⟨rfl, rfl⟩ := h
    rw [hcurrent, List.cons.injEq, Revision.mk.injEq] at hstate
    obtain ⟨⟨_, rfl⟩, rfl⟩ := hstate
    have hlog : ∀ d ∈ made ++ p.calls, d ∈ made ++ (p.calls ++ [c]) := fun d hd => by
      rw [← List.append_assoc]
      exact List.mem_append_left _ hd
    refine ⟨s, _, rfl, rfl, ⟨⟨rest, same.trans hcurrent⟩, hw.valid, ?_, ?_⟩,
      .replayed returned recorded settled⟩
    · simp only [Progress.calls, List.map_append, List.map_cons, List.map_nil]
      exact hw.logged.mono hlog
    · simp only [Progress.calls, List.map_append, List.map_cons, List.map_nil]
      intro d hd
      rcases List.mem_append.1 hd with hd | hd
      · exact hw.reflected d hd
      · obtain rfl := List.mem_singleton.1 hd
        refine recorded.reflected hw.logged (hfree.mono fun d hd => ?_)
        simpa [Progress.calls, or_assoc] using hd
  | @applied state rest' r' s' observed hstate unrecorded hreading later successor returned committed =>
    simp only [Prod.mk.injEq, Except.ok.injEq] at h
    obtain ⟨rfl, rfl⟩ := h
    rw [hcurrent, List.cons.injEq, Revision.mk.injEq] at hstate
    obtain ⟨⟨_, rfl⟩, rfl⟩ := hstate
    subst committed
    have heffect := mutation_effect hc successor
    have hlogged := hw.logged.next hc successor
    rw [List.append_assoc] at hlogged
    refine ⟨s', _, rfl, rfl, ⟨⟨_, rfl⟩, heffect.valid, ?_, ?_⟩,
      .applied returned unrecorded ?_ later successor rfl⟩
    · simp only [Progress.calls, List.map_append, List.map_cons, List.map_nil]
      exact hlogged
    · simp only [Progress.calls, List.map_append, List.map_cons, List.map_nil]
      intro d hd
      rcases List.mem_append.1 hd with hd | hd
      · exact (hw.reflected d hd).mono heffect.keeps
      · obtain rfl := List.mem_singleton.1 hd
        exact (successor_logs hc successor).1
    · rw [hreading]; rfl

end Calls

end PokerDeliberation.Budgets
