import PokerDeliberation.Budgets.Working

/-!
# The phases of an execution

What the reservations, the starts and the settlements of a completed execution
leave in the state. A permit the execution reserves is `Open` from its
reservation to its settlement, in which time the clock and the charged runtime
move together, and its attempt is `Settled` afterwards. Each phase is an
induction over the tasks, a retry loop one over its indices.
-/

namespace PokerDeliberation.Budgets

open Lib

/-! ## The log -/

/-- The reservation of a permit and the reading it was made at. -/
def reservedAt (log : List TimedCall) (permitId : String) : Option (ResourceReservationV1 × Int) :=
  log.findSome? fun x =>
    match x.1 with
    | .reserve _ q reservation _ _ _ => if q = permitId then some (reservation, x.2) else none
    | _ => none

/-- The settlements and the readings they were made at. -/
def settles (log : List TimedCall) : List (SettleArgs × Int) :=
  log.filterMap fun x =>
    match x.1 with
    | .settle a => some (a, x.2)
    | _ => none

/-- An attempt that is not settled as failed used more than its reservation, the
runtime being the nanoseconds from its reservation to its settlement. -/
def Overran (log : List TimedCall) (a : SettleArgs) (n : Int) : Prop :=
  a.status ≠ .failed ∧ ∃ reservation m, reservedAt log a.permitId = some (reservation, m) ∧
    (exceededResource reservation.requested (settledActual a.actual (n - m).toNat)).isSome = true

section Log

variable {log log' : List TimedCall} {q : String} {c : Call} {n : Int}

@[simp] theorem settles_append : settles (log ++ log') = settles log ++ settles log' :=
  List.filterMap_append

theorem reservedAt_append {x : ResourceReservationV1 × Int} (h : reservedAt log q = some x)
    (log' : List TimedCall) : reservedAt (log ++ log') q = some x := by
  unfold reservedAt at h ⊢
  rw [List.findSome?_append, h]
  rfl

theorem reservedAt_eq_none (h : ∀ x ∈ log, ∀ o r l a b, x.1 ≠ .reserve o q r l a b) :
    reservedAt log q = none := by
  refine List.findSome?_eq_none_iff.2 fun x hx => ?_
  split
  · next o q' r l a b heq =>
    by_cases hq : q' = q
    · exact absurd (hq ▸ heq) (h x hx o r l a b)
    · exact if_neg hq
  · rfl

theorem reservedAt_concat {o : String} {r : ResourceReservationV1} {l : ExecutionLineageV1}
    {a b : Option String} (h : reservedAt log q = none) :
    reservedAt (log ++ [(.reserve o q r l a b, n)]) q = some (r, n) := by
  unfold reservedAt at h ⊢
  rw [List.findSome?_append, h]
  simp

theorem overran_append {a : SettleArgs} {x : ResourceReservationV1 × Int}
    (h : reservedAt log a.permitId = some x) :
    Overran (log ++ log') a n ↔ Overran log a n := by
  unfold Overran
  rw [h, reservedAt_append h]

end Log

/-! ## Later progress -/

/-- The log and the effects only grow. -/
def Later (p p' : Progress) : Prop := p.log <+: p'.log ∧ p.effects <+: p'.effects

instance : Std.Refl Later := ⟨fun _ => ⟨List.prefix_refl _, List.prefix_refl _⟩⟩

instance : IsTrans Progress Later := ⟨fun _ _ _ h h' => ⟨h.1.trans h'.1, h.2.trans h'.2⟩⟩

section Moves

variable (executor : DurableBoundedExecutor) (outside : Outside)

theorem storeCall_later (c : Call) : Moves Later (executor.storeCall outside c) := by
  intro p r p' h
  unfold Returns DurableBoundedExecutor.storeCall at h
  simp only at h
  split at h
  · simp only [Prod.mk.injEq] at h
    obtain ⟨_, rfl⟩ := h
    exact ⟨List.prefix_append _ _, List.prefix_refl _⟩
  · simp at h

theorem storeLoad_returns {p p' : Progress} {s : DurableBudgetStateV1}
    (h : Returns (executor.storeLoad outside) p s p') :
    load executor.sha256 executor.runId p.store.revisions none = .ok s ∧
      (outside.environment p.turn).loadFault = none ∧ p' = { p with turn := p.turn + 1 } := by
  unfold Returns DurableBoundedExecutor.storeLoad at h
  simp only at h
  split at h
  · next state hload =>
    simp only [Prod.mk.injEq, Except.ok.injEq] at h
    obtain ⟨rfl, rfl⟩ := h
    have hfault := (load_ok hload).1
    rw [hfault] at hload
    exact ⟨hload, hfault, rfl⟩
  · simp at h

theorem storeLoad_later : Moves Later (executor.storeLoad outside) := by
  intro p s p' h
  obtain ⟨_, _, rfl⟩ := storeLoad_returns executor outside h
  exact ⟨List.prefix_refl _, List.prefix_refl _⟩

theorem runEffect_returns {task : DurableExecutionTask} {lineage : ExecutionLineageV1}
    {actual : ResourceAmountsV1} {p p' : Progress} {result : EffectResultV1}
    (h : Returns (executor.runEffect outside task lineage actual) p result p') :
    p' = { p with effects := p.effects ++ [lineage] } := by
  unfold DurableBoundedExecutor.runEffect at h
  rw [returns_bind] at h
  obtain ⟨_, t, ht, h⟩ := h
  rw [returns_modify] at ht
  subst ht
  split at h
  · exact (returns_pure.1 h).2.symm
  · simp only [returns_bind, returns_lift, returns_pure] at h
    obtain ⟨_, _, ⟨_, rfl⟩, _, rfl⟩ := h
    rfl

theorem runEffect_later (task : DurableExecutionTask) (lineage : ExecutionLineageV1)
    (actual : ResourceAmountsV1) :
    Moves Later (executor.runEffect outside task lineage actual) := by
  intro p result p' h
  rw [runEffect_returns executor outside h]
  exact ⟨List.prefix_refl _, List.prefix_append _ _⟩

theorem settleResult_later (task : DurableExecutionTask) (i : Nat) (lineage : ExecutionLineageV1)
    (result : EffectResultV1) :
    Moves Later (executor.settleResult outside task i lineage result) :=
  (storeCall_later executor outside _).bind fun _ => .lift _

theorem reserveTask_later (task : DurableExecutionTask) :
    Moves Later (executor.reserveTask outside task) :=
  (storeCall_later executor outside _).bind fun _ => (Moves.lift _).bind fun _ => .pure _

theorem reserveAll_later (reserved tasks : List DurableExecutionTask) :
    Moves Later (executor.reserveAll outside reserved tasks) := by
  induction tasks generalizing reserved with
  | nil => exact .pure _
  | cons task rest ih =>
    unfold DurableBoundedExecutor.reserveAll
    refine ((reserveTask_later executor outside task).onRaise _).bind ?_
    rintro ⟨active, replay⟩
    exact (ih _).bind fun _ => .pure _

theorem replayTask_later (x : DurableExecutionTask × Bool) :
    Moves Later (executor.replayTask outside x) := by
  unfold DurableBoundedExecutor.replayTask
  split
  · exact (storeLoad_later executor outside).bind fun _ => .lift _
  · exact .pure _

theorem startTask_later (x : DurableExecutionTask × Bool) :
    Moves Later (executor.startTask outside x) := by
  refine (replayTask_later executor outside x).bind fun replay => ?_
  cases replay with
  | some attempts => exact .pure _
  | none => exact (storeCall_later executor outside _).bind fun _ => .pure _

theorem runTask_later (x : DurableExecutionTask × Option (List ExecutionAttemptResultV1)) :
    Moves Later (executor.runTask outside x) := by
  unfold DurableBoundedExecutor.runTask
  split
  · exact .pure _
  · exact (runEffect_later executor outside _ _ _).bind fun _ => .pure _

theorem retryAll_later (task : DurableExecutionTask) (most : Nat) (indices : List Nat)
    (current : ExecutionLineageV1) (result : EffectResultV1) :
    Moves Later (executor.retryAll outside task most indices current result) := by
  induction indices generalizing current result with
  | nil => exact .pure _
  | cons i rest ih =>
    unfold DurableBoundedExecutor.retryAll
    split
    · refine (Moves.lift _).bind fun lineage => (Moves.lift _).bind fun reservation =>
        (storeCall_later executor outside _).bind fun _ =>
        (storeCall_later executor outside _).bind fun _ =>
        (runEffect_later executor outside _ _ _).bind fun retried =>
        (settleResult_later executor outside _ _ _ _).bind fun _ =>
        (ih lineage retried).bind fun _ => .pure _
    · exact .pure _

theorem settleTask_later (most : Nat)
    (x : DurableExecutionTask × (List ExecutionAttemptResultV1 ⊕ EffectResultV1)) :
    Moves Later (executor.settleTask outside most x) := by
  unfold DurableBoundedExecutor.settleTask
  split
  · exact .pure _
  · exact (settleResult_later executor outside _ _ _ _).bind fun _ =>
      (retryAll_later executor outside _ _ _ _ _).bind fun _ => .pure _

end Moves

/-! ## One call of an attempt -/

section Attempts

variable {executor : DurableBoundedExecutor} {outside : Outside} {made : List Call}
variable {p p' : Progress} {s s' : DurableBudgetStateV1} {c : Call} {reading : Int}
variable {r : DurableMutationResultV1} {elapsed : Nat}

/-- The calls an execution makes while nothing fails. -/
def Call.isAttempt : Call → Bool
  | .reserve .. | .start .. | .settle .. => true
  | _ => false

theorem Call.isAttempt_isCreate (h : c.isAttempt = true) : c.isCreate = false := by
  cases c <;> first | rfl | cases h

/-- The call settles the permit. -/
def Call.settlesPermit (c : Call) (q : String) : Prop := ∃ a, c = .settle a ∧ a.permitId = q

/-- The call reserves the permit. -/
def Call.reservesPermit (c : Call) (q : String) : Prop := ∃ o r l a b, c = .reserve o q r l a b

/-- What the successor of a reservation, a start or a settlement has of the state. -/
structure AttemptStep (executor : DurableBoundedExecutor) (s s' : DurableBudgetStateV1)
    (elapsed : Nat) (c : Call) : Prop where
  logs : Logs s s' (c.mutation executor.sha256 executor.runId)
  policy : s'.policy = s.policy
  runtime : s'.usage.activeRuntimeNs = s.usage.activeRuntimeNs + elapsed
  settled : ∀ a ∈ s.attempts, a.permitId ∈ settledIds s → a ∈ s'.attempts
  permits : ∀ x ∈ s.activePermits, ¬ c.settlesPermit x.permitId → ∃ y ∈ s'.activePermits,
    y.permitId = x.permitId ∧ y.reservation = x.reservation ∧
      y.reservedActiveRuntimeNs = x.reservedActiveRuntimeNs
  ids : ∀ q ∈ permitIds s', q ∈ permitIds s ∨ c.reservesPermit q

/-- An update of the attempt of an active permit leaves the settled attempts alone. -/
theorem settled_update {f : AttemptRecordV1 → AttemptRecordV1} {q : String}
    (hq : q ∉ settledIds s) : ∀ a ∈ s.attempts, a.permitId ∈ settledIds s →
      a ∈ Keyed.update AttemptRecordV1.permitId q f s.attempts :=
  fun _ ha hs => Keyed.update_of_ne ha fun he => hq (he ▸ hs)

theorem permitIds_update {f : AttemptRecordV1 → AttemptRecordV1} {q : String}
    (h : s'.attempts = Keyed.update AttemptRecordV1.permitId q f s.attempts)
    (hf : ∀ t, (f t).permitId = t.permitId) : permitIds s' = permitIds s := by
  unfold permitIds
  rw [h, Keyed.map_update fun x _ _ => hf x]

theorem attempt_step (hs : Consistent s) (hc : c.isAttempt = true)
    (h : (c.mutation executor.sha256 executor.runId).successor s elapsed = .ok s') :
    AttemptStep executor s s' elapsed c := by
  cases c with
  | create | releaseNoEffect | requestCancellation | recordCancellation | tightenPolicy => cases hc
  | reserve o q res l a b =>
    obtain ⟨_, hlogs, hstep⟩ := reserve_step h
    refine ⟨hlogs, hstep.policy, hstep.runtime, fun x hx _ => ?_, fun x hx _ => ?_, fun q' hq' => ?_⟩
    · rw [hstep.attempts]; exact List.mem_append_left _ hx
    · rw [hstep.permits]; exact ⟨x, List.mem_append_left _ hx, rfl, rfl, rfl⟩
    · unfold permitIds at hq'
      rw [hstep.attempts, List.map_append] at hq'
      rcases List.mem_append.1 hq' with hq' | hq'
      · exact .inl hq'
      · obtain rfl : q' = q := by simpa using hq'
        exact .inr ⟨o, res, l, a, b, rfl⟩
  | start o q =>
    obtain ⟨_, hlogs, hstep⟩ := start_step hs.permits h
    obtain ⟨permit, hmem, rfl⟩ := hstep.found
    refine ⟨hlogs, hstep.policy, hstep.runtime, ?_, fun x hx _ => hstep.permits x hx, fun q' hq' => ?_⟩
    · rw [hstep.attempts]
      exact settled_update (hs.apart permit hmem)
    · rw [permitIds_update hstep.attempts fun _ => rfl] at hq'
      exact .inl hq'
  | settle a =>
    obtain ⟨_, hlogs, permit, hstep⟩ := settle_step h
    obtain ⟨hmem, hid⟩ := hstep.found
    obtain ⟨effective, hattempts⟩ := hstep.attempts
    refine ⟨hlogs, hstep.policy, hstep.runtime, ?_, fun x hx hno => ?_, fun q' hq' => ?_⟩
    · rw [hattempts, ← hid]
      exact settled_update (hs.apart permit hmem)
    · rw [hstep.permits]
      exact ⟨x, Keyed.mem_remove.2 ⟨hx, fun he => hno ⟨a, rfl, he.symm⟩⟩, rfl, rfl, rfl⟩
    · rw [permitIds_update hattempts fun _ => rfl] at hq'
      exact .inl hq'

/-- A permit the execution has reserved and not settled yet: while it is open the
last observation and the charged runtime are at a fixed distance. -/
structure Open (p : Progress) (s : DurableBudgetStateV1) (q : String)
    (reservation : ResourceReservationV1) (lineage : ExecutionLineageV1) (n : Int) : Prop where
  permit : ∃ permit ∈ s.activePermits, permit.permitId = q ∧ permit.reservation = reservation ∧
    ∃ last, p.store.clock.last = some last ∧
      (permit.reservedActiveRuntimeNs : Int) + last = s.usage.activeRuntimeNs + n
  quiet : p.store.clock.reconciliationRequired = false
  attempt : ∃ a ∈ s.attempts, a.permitId = q ∧ a.lineage = lineage
  reserved : reservedAt p.log q = some (reservation, n)

theorem Open.mem_permitIds {q : String} {res : ResourceReservationV1} {l : ExecutionLineageV1}
    {n : Int} (h : Open p s q res l n) : q ∈ permitIds s := by
  obtain ⟨a, ha, hid, _⟩ := h.attempt
  exact List.mem_map.2 ⟨a, ha, hid⟩

/-- A call that returned, seen from the permits that stay open. -/
structure Advances (p p' : Progress) (s s' : DurableBudgetStateV1) (c : Call) : Prop where
  extends_state : Extends s s'
  ids : ∀ q ∈ permitIds s', q ∈ permitIds s ∨ c.reservesPermit q
  opens : ∀ q res l n, ¬ c.settlesPermit q → Open p s q res l n → Open p' s' q res l n

theorem Called.advances (hw : Working executor made p s) (hc : c.isAttempt = true)
    (hlog : p'.log = p.log ++ [(c, reading)]) (h : Called executor c reading p p' s r s') :
    Advances p p' s s' c := by
  cases h with
  | replayed returned recorded clock =>
    refine ⟨.refl s, fun q hq => .inl hq, fun q res l n _ ho => ?_⟩
    obtain ⟨permit, hmem, hid, hres, last, hlast, hdist⟩ := ho.permit
    obtain ⟨hlast', hquiet'⟩ := clock last hlast ho.quiet
    refine ⟨⟨permit, hmem, hid, hres, last, hlast', hdist⟩, hquiet', ho.attempt, ?_⟩
    rw [hlog]
    exact reservedAt_append ho.reserved _
  | @applied _ observed returned unrecorded reading_eq later successor clock =>
    have hstep := attempt_step hw.consistent hc successor
    have hkeeps := (mutation_effect (Call.isAttempt_isCreate hc) successor).keeps
    obtain ⟨record, hops, _⟩ := hstep.logs
    refine ⟨⟨hkeeps, hstep.policy, hstep.settled, fun m hm => hm.append hops⟩, hstep.ids,
      fun q res l n hno ho => ?_⟩
    obtain ⟨permit, hmem, rfl, hres, last, hlast, hdist⟩ := ho.permit
    obtain ⟨permit', hmem', hid', hres', hreserved'⟩ := hstep.permits permit hmem hno
    obtain ⟨a, ha, haid, hal⟩ := ho.attempt
    obtain ⟨b, hb, hbid, hbl⟩ := hkeeps.attempts a ha
    refine ⟨⟨permit', hmem', hid', hres'.trans hres, observed, by rw [clock], ?_⟩, by rw [clock],
      ⟨b, hb, hbid.trans haid, hbl.trans hal⟩, ?_⟩
    · have hruntime := hstep.runtime
      have hle := later last (by rw [hlast]; rfl)
      rw [hlast, Option.getD_some] at hruntime
      rw [hreserved', hruntime]
      omega
    · rw [hlog]
      exact reservedAt_append ho.reserved _

/-- The step for the calls of an attempt. -/
theorem attemptCall_returns (hw : Working executor made p s) (hc : c.isAttempt = true)
    (h : Returns (executor.storeCall outside c) p r p')
    (hfree : CollisionFree executor.sha256 executor.runId (made ++ p'.calls)) :
    ∃ s' reading, p'.log = p.log ++ [(c, reading)] ∧ p'.effects = p.effects ∧
      Working executor made p' s' ∧ Called executor c reading p p' s r s' ∧
      Advances p p' s s' c := by
  obtain ⟨s', reading, hlog, heffects, hw', hcall⟩ :=
    storeCall_returns hw (Call.isAttempt_isCreate hc) h hfree
  exact ⟨s', reading, hlog, heffects, hw', hcall, hcall.advances hw hc hlog⟩

/-- A reservation that is not a replay opens its permit. -/
theorem reserve_opens {o q : String} {res : ResourceReservationV1} {l : ExecutionLineageV1}
    (hw : Working executor made p s)
    (hlog : p'.log = p.log ++ [(.reserve o q res l none none, reading)])
    (h : Called executor (.reserve o q res l none none) reading p p' s r s')
    (happlied : r.status = .applied) : q ∉ permitIds s ∧ Open p' s' q res l reading := by
  cases h with
  | replayed returned => rw [returned.1] at happlied; cases happlied
  | @applied _ observed returned unrecorded reading_eq later successor clock =>
    obtain ⟨_, _, hstep⟩ := reserve_step successor
    have hfresh : q ∉ permitIds s := by
      intro hq
      refine hstep.fresh (List.mem_append.2 ?_)
      exact (hw.consistent.known q).1 hq
    refine ⟨hfresh, ⟨?_, by rw [clock], ?_, ?_⟩⟩
    · rw [hstep.permits]
      refine ⟨_, List.mem_append_right _ List.mem_cons_self, rfl, rfl, observed, by rw [clock], ?_⟩
      rw [reading_eq]
    · rw [hstep.attempts]
      exact ⟨_, List.mem_append_right _ List.mem_cons_self, rfl, rfl⟩
    · rw [hlog]
      refine reservedAt_concat (reservedAt_eq_none fun x hx o' r' l' a' b' hx' => hfresh ?_)
      have href := hw.reflected x.1 (List.mem_map_of_mem hx)
      rw [hx'] at href
      obtain ⟨t, ht, hid, _⟩ := href
      exact List.mem_map.2 ⟨t, ht, hid⟩

end Attempts

end PokerDeliberation.Budgets
