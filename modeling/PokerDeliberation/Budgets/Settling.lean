import PokerDeliberation.Budgets.Phases

/-!
# Settled attempts

What `_settle_result` and the retry loop leave. A `Settled` attempt is reported
as the effect returned it, and read back from its settlement: the two agree
unless the settlement overran. A retry never meets a permit of an earlier run,
because its context descends from the attempt before it.
-/

namespace PokerDeliberation.Budgets

open Lib

section

variable {executor : DurableBoundedExecutor} {outside : Outside} {made : List Call}
variable {p p' : Progress} {s s' s₀ : DurableBudgetStateV1} {t : String} {i : Nat}
variable {r : ExecutionAttemptResultV1} {a : SettleArgs} {n : Int}

/-- Attempt `i` of a task is settled by `a` at the reading `n` and reported as `r`. -/
structure Settled (log : List TimedCall) (s : DurableBudgetStateV1) (t : String) (i : Nat)
    (r : ExecutionAttemptResultV1) (a : SettleArgs) (n : Int) : Prop where
  index : r.attemptIndex = i
  permit : r.permitId = attemptPermit t i
  check : r.check = .ok ()
  reserved : ∃ x, reservedAt log a.permitId = some x
  attempt : ∃ x ∈ s.attempts, x.permitId = attemptPermit t i ∧ r.attemptId = x.lineage.attemptId ∧
    r.contextId = x.lineage.contextId ∧ r.failureCategory = x.failureCategory
  settlement : ∃ y ∈ s.settlements, y.permitId = attemptPermit t i ∧
    r.settlementId = some y.settlementId ∧ r.resultSha256 = y.resultSha256 ∧
    r.effectEvidenceSha256 = y.effectEvidenceSha256 ∧
    (replayedStatus y.status = r.status ↔ ¬ Overran log a n)

theorem Settled.mem_settledIds {log : List TimedCall} (h : Settled log s t i r a n) :
    attemptPermit t i ∈ settledIds s := by
  obtain ⟨y, hy, hid, _⟩ := h.settlement
  exact List.mem_map.2 ⟨y, hy, hid⟩

/-- A settled attempt stays as it is. -/
theorem Settled.mono {log log' : List TimedCall} (h : Settled log s t i r a n) (he : Extends s s')
    (hlog : log <+: log') : Settled log' s' t i r a n := by
  obtain ⟨new, rfl⟩ := hlog
  obtain ⟨y, hy, hid, hset, hresult, hevidence, hstatus⟩ := h.settlement
  obtain ⟨x, hx, hxid, hrest⟩ := h.attempt
  obtain ⟨res, hres⟩ := h.reserved
  refine ⟨h.index, h.permit, h.check, ⟨res, reservedAt_append hres _⟩,
    ⟨x, he.settled x hx ?_, hxid, hrest⟩,
    ⟨y, he.keeps.settlements y hy, hid, hset, hresult, hevidence, ?_⟩⟩
  · rw [hxid]; exact h.mem_settledIds
  · rw [overran_append hres]; exact hstatus

/-- The read-back of a settled attempt is its report, unless it overran. -/
theorem Settled.replayed_iff {log : List TimedCall} (hs : Consistent s)
    (h : Settled log s t i r a n) {x : AttemptRecordV1} (hx : x ∈ s.attempts)
    (hid : x.permitId = attemptPermit t i) :
    replayedAttempt s.settlements (i, x) = .ok r ↔ ¬ Overran log a n := by
  obtain ⟨x', hx', hid', hattempt, hcontext, hcategory⟩ := h.attempt
  obtain rfl : x = x' := hs.attempts.eq hx hx' (hid.trans hid'.symm)
  obtain ⟨y, hy, hyid, hset, hresult, hevidence, hstatus⟩ := h.settlement
  have hfind : Keyed.dict DurableSettlementV1.permitId s.settlements x.permitId = some y :=
    (Keyed.dict_eq_some_iff hs.settlements).2 ⟨hy, hyid.trans hid.symm⟩
  unfold replayedAttempt
  simp only [hfind, attemptResult_ok]
  rw [← hstatus]
  constructor
  · rintro ⟨_, rfl⟩
    rfl
  · intro hstat
    have heq : r = { attemptIndex := i, attemptId := x.lineage.attemptId
                     contextId := x.lineage.contextId, permitId := x.permitId
                     settlementId := some y.settlementId, status := replayedStatus y.status
                     resultSha256 := y.resultSha256
                     effectEvidenceSha256 := y.effectEvidenceSha256
                     failureCategory := x.failureCategory } := by
      rw [hid, hstat, ← h.permit, ← h.index, ← hattempt, ← hcontext, ← hset, ← hresult,
        ← hevidence, ← hcategory]
    rw [← heq]
    exact ⟨h.check, rfl⟩

/-! ## Settling one attempt -/

theorem replayedStatus_effective {reserved actual : ResourceAmountsV1} {status : EffectStatus} :
    replayedStatus (effectiveStatus reserved actual status.settlement) = status ↔
      ¬ (status.settlement ≠ .failed ∧ (exceededResource reserved actual).isSome = true) := by
  unfold effectiveStatus
  by_cases h : (exceededResource reserved actual).isSome = true
  · rw [if_pos h]
    cases status <;> simp [replayedStatus, EffectStatus.settlement, h]
  · rw [if_neg h]
    cases status <;> simp [replayedStatus, EffectStatus.settlement, h]

/-- What settling one open attempt leads to. -/
structure Settling (executor : DurableBoundedExecutor) (made : List Call) (p p' : Progress)
    (s s' : DurableBudgetStateV1) (t : String) (i : Nat) (r : ExecutionAttemptResultV1)
    (a : SettleArgs) (n : Int) : Prop where
  working : Working executor made p' s'
  extends_state : Extends s s'
  log : p'.log = p.log ++ [(.settle a, n)]
  ids : permitIds s' ⊆ permitIds s
  settled : Settled p'.log s' t i r a n
  opens : ∀ q res l m, q ≠ attemptPermit t i → Open p s q res l m → Open p' s' q res l m

theorem settleResult_returns {task : DurableExecutionTask} {lineage : ExecutionLineageV1}
    {reservation : ResourceReservationV1} {m : Int} {result : EffectResultV1}
    (hw : Working executor made p s)
    (ho : Open p s (attemptPermit task.taskId i) reservation lineage m)
    (h : Returns (executor.settleResult outside task i lineage result) p r p')
    (hfree : CollisionFree executor.sha256 executor.runId (made ++ p'.calls)) :
    ∃ s' a n, Settling executor made p p' s s' task.taskId i r a n := by
  unfold DurableBoundedExecutor.settleResult at h
  simp only [returns_bind, returns_lift, attemptResult_ok] at h
  obtain ⟨_, p₁, hcall, ⟨hcheck, rfl⟩, rfl⟩ := h
  obtain ⟨s', n, hlog, heffects, hw', hcalled, hadv⟩ := attemptCall_returns hw rfl hcall hfree
  refine ⟨s', _, n, hw', hadv.extends_state, hlog, fun q hq => ?_, ?_, fun q res l m' hq hopen =>
    hadv.opens q res l m' ?_ hopen⟩
  · rcases hadv.ids q hq with hq | ⟨_, _, _, _, _, hq⟩
    · exact hq
    · cases hq
  · obtain ⟨permit, hmem, hid, hres, last, hlast, hdist⟩ := ho.permit
    cases hcalled with
    | replayed returned recorded =>
      -- the permit is active, so no settlement of it has been recorded
      have hcalls : p₁.calls = p.calls ++ [.settle (DurableBoundedExecutor.settleArgs outside task i result)] := by
        simp [Progress.calls, hlog]
      rw [hcalls, ← List.append_assoc] at hfree
      have href := recorded.reflected hw.logged hfree
      exact absurd (hid ▸ href) (hw.consistent.apart permit hmem)
    | @applied _ observed returned unrecorded reading_eq later successor clock =>
      obtain ⟨_, _, permit', hstep⟩ := settle_step successor
      obtain ⟨hmem', hid'⟩ := hstep.found
      obtain rfl : permit' = permit := hw.consistent.permits.eq hmem' hmem (hid'.trans hid.symm)
      obtain ⟨y, hys, hsid, hyid, hresult, hevidence, hstatus⟩ := hstep.settlements
      obtain ⟨effective, hattempts⟩ := hstep.attempts
      obtain ⟨x, hx, hxid, rfl⟩ := ho.attempt
      have hreserved : reservedAt p₁.log (attemptPermit task.taskId i) = some (reservation, m) := by
        rw [hlog]
        exact reservedAt_append ho.reserved _
      have hle := later last (by rw [hlast]; rfl)
      have hmeasured : measuredRuntime s (observed - p.store.clock.last.getD observed) permit' =
          (n - m).toNat := by
        rw [hlast, Option.getD_some, measuredRuntime, reading_eq]
        omega
      refine ⟨rfl, rfl, hcheck, ⟨_, hreserved⟩, ?_, ⟨y, ?_, hyid, ?_, hresult.symm,
        hevidence.symm, ?_⟩⟩
      · rw [hattempts]
        exact ⟨_, Keyed.update_self hx hxid, hxid, rfl, rfl, rfl⟩
      · rw [hys]
        exact List.mem_append_right _ List.mem_cons_self
      · rw [hsid]; rfl
      · rw [hstatus, hmeasured, hres]
        show replayedStatus (effectiveStatus _ _ result.status.settlement) = result.status ↔ _
        rw [replayedStatus_effective]
        unfold Overran
        refine not_congr (and_congr_right fun _ => ?_)
        show _ ↔ ∃ reservation' m', reservedAt p₁.log (attemptPermit task.taskId i) = _ ∧ _
        constructor
        · intro hover
          exact ⟨reservation, m, hreserved, hover⟩
        · rintro ⟨reservation', m', hreserved', hover⟩
          rw [hreserved] at hreserved'
          cases hreserved'
          exact hover
  · rintro ⟨a, ha, rfl⟩
    cases ha
    exact hq rfl

/-! ## The retry loop -/

/-- The attempts of a task from index `i` on, each reserved in this execution and
settled by the entry of `cs` beside it. -/
inductive SettledFrom (log : List TimedCall) (s₀ s : DurableBudgetStateV1) (t : String) :
    Nat → List ExecutionAttemptResultV1 → List (SettleArgs × Int) → Prop where
  | nil {i : Nat} : SettledFrom log s₀ s t i [] []
  | cons {i : Nat} {r : ExecutionAttemptResultV1} {c : SettleArgs × Int}
    {rs : List ExecutionAttemptResultV1} {cs : List (SettleArgs × Int)}
    (fresh : attemptPermit t i ∉ permitIds s₀)
    (settled : Settled log s t i r c.1 c.2) (rest : SettledFrom log s₀ s t (i + 1) rs cs) :
    SettledFrom log s₀ s t i (r :: rs) (c :: cs)

theorem SettledFrom.mono {log log' : List TimedCall} {rs : List ExecutionAttemptResultV1}
    {cs : List (SettleArgs × Int)} (h : SettledFrom log s₀ s t i rs cs) (he : Extends s s')
    (hlog : log <+: log') : SettledFrom log' s₀ s' t i rs cs := by
  induction h with
  | nil => exact .nil
  | cons fresh settled _ ih => exact .cons fresh (settled.mono he hlog) ih

/-- No permit of `t` from index `i` on has been reserved in this execution. -/
def ReservedBelow (s₀ s : DurableBudgetStateV1) (t : String) (i : Nat) : Prop :=
  ∀ q ∈ permitIds s, q ∈ permitIds s₀ ∨ ∃ u j, q = attemptPermit u j ∧ (u = t → j < i)

/-- The attempt a retry starts from. -/
structure Current (s₀ s : DurableBudgetStateV1) (t : String) (i : Nat)
    (lineage : ExecutionLineageV1) : Prop where
  fresh : attemptPermit t i ∉ permitIds s₀
  attempt : ∃ x ∈ s.attempts, x.permitId = attemptPermit t i ∧ x.lineage = lineage

theorem Current.mono {lineage : ExecutionLineageV1} (h : Current s₀ s t i lineage)
    (hk : Keeps s s') : Current s₀ s' t i lineage := by
  obtain ⟨x, hx, hid, hl⟩ := h.attempt
  obtain ⟨y, hy, hyid, hyl⟩ := hk.attempts x hx
  exact ⟨h.fresh, y, hy, hyid.trans hid, hyl.trans hl⟩

/-- The permit of a retry has not been reserved before: its attempt would have
been in the earlier run, and with it the attempt it descends from. -/
theorem not_reflected_retry {lineage current : ExecutionLineageV1} (hs₀ : Consistent s₀)
    (hs : Consistent s) (he : Extends s₀ s) (hcur : Current s₀ s t i current)
    (hbelow : ReservedBelow s₀ s t (i + 1))
    (hparent : lineage.parentContextId = some current.contextId) :
    ¬ ∃ x ∈ s.attempts, x.permitId = attemptPermit t (i + 1) ∧ x.lineage = lineage := by
  rintro ⟨x, hx, hid, rfl⟩
  have hold : attemptPermit t (i + 1) ∈ permitIds s₀ := by
    rcases hbelow x.permitId (List.mem_map_of_mem hx) with h | ⟨u, j, hq, hlt⟩
    · rw [← hid]; exact h
    · obtain ⟨rfl, rfl⟩ := attemptPermit_injective (hid.symm.trans hq)
      exact absurd (hlt rfl) (lt_irrefl _)
  obtain ⟨x₀, hx₀, hid₀⟩ := List.mem_map.1 hold
  obtain ⟨y, hy, hyid, hyl⟩ := he.keeps.attempts x₀ hx₀
  obtain rfl : y = x := hs.attempts.eq hy hx (hyid.trans (hid₀.trans hid.symm))
  obtain ⟨b, hb, hbc⟩ := hs₀.parents x₀ hx₀ _ (hyl ▸ hparent)
  obtain ⟨b', hb', hb'id, hb'l⟩ := he.keeps.attempts b hb
  obtain ⟨z, hz, hzid, rfl⟩ := hcur.attempt
  have hbz : b' = z := hs.contexts.eq hb' hz (by rw [hb'l]; exact hbc)
  refine hcur.fresh (List.mem_map.2 ⟨b, hb, ?_⟩)
  rw [← hzid, ← hbz]
  exact hb'id.symm

/-- What retrying a task leads to. -/
structure Retrying (executor : DurableBoundedExecutor) (made : List Call) (p p' : Progress)
    (s₀ s s' : DurableBudgetStateV1) (t : String) (i : Nat) (rs : List ExecutionAttemptResultV1)
    (cs : List (SettleArgs × Int)) : Prop where
  working : Working executor made p' s'
  extends_state : Extends s s'
  settlements : settles p'.log = settles p.log ++ cs
  attempts : SettledFrom p'.log s₀ s' t i rs cs
  ids : ∀ q ∈ permitIds s', q ∈ permitIds s ∨ ∃ j, i ≤ j ∧ j < i + rs.length ∧ q = attemptPermit t j
  opens : ∀ u k res l m, u ≠ t → Open p s (attemptPermit u k) res l m →
    Open p' s' (attemptPermit u k) res l m

/-- Running effects does not touch the store. -/
theorem Working.ran {new : List ExecutionLineageV1} (hw : Working executor made p s) :
    Working executor made { p with effects := p.effects ++ new } s :=
  ⟨hw.current, hw.valid, hw.logged, hw.reflected⟩

theorem Open.ran {q : String} {res : ResourceReservationV1} {l : ExecutionLineageV1} {m : Int}
    {new : List ExecutionLineageV1} (h : Open p s q res l m) :
    Open { p with effects := p.effects ++ new } s q res l m :=
  ⟨h.permit, h.quiet, h.attempt, h.reserved⟩

theorem retryLineage_ok {task : DurableExecutionTask} {current lineage : ExecutionLineageV1}
    (h : DurableBoundedExecutor.retryLineage outside task current i = .ok lineage) :
    lineage.parentContextId = some current.contextId := by
  unfold DurableBoundedExecutor.retryLineage at h
  simp only at h
  split at h
  · exact absurd h raise_ne_ok
  · next context _ =>
    simp only [ensure_bind_eq_ok, pure_eq_ok] at h
    obtain ⟨⟨hmatch, hretries⟩, _, rfl⟩ := h
    rw [hmatch.2.2.2.2.2.1]
    exact hretries.1

theorem CollisionFree.of_later {calls : List Call}
    (h : CollisionFree executor.sha256 executor.runId (calls ++ p'.calls)) (hl : Later p p') :
    CollisionFree executor.sha256 executor.runId (calls ++ p.calls) := by
  refine h.mono fun c hc => ?_
  rcases List.mem_append.1 hc with hc | hc
  · exact List.mem_append_left _ hc
  · exact List.mem_append_right _ ((hl.1.map (·.1)).subset hc)

/-- The induction is on the indices left; each round settles one attempt, which
is the one the next round descends from. -/
theorem retryAll_returns {task : DurableExecutionTask} {most : Nat} {indices : List Nat}
    {current : ExecutionLineageV1} {result : EffectResultV1} {rs : List ExecutionAttemptResultV1}
    (hs₀ : Consistent s₀) (hindices : ∃ k, indices = List.range' (i + 1) k)
    (hw : Working executor made p s) (he : Extends s₀ s)
    (hcur : Current s₀ s task.taskId i current) (hbelow : ReservedBelow s₀ s task.taskId (i + 1))
    (h : Returns (executor.retryAll outside task most indices current result) p rs p')
    (hfree : CollisionFree executor.sha256 executor.runId (made ++ p'.calls)) :
    ∃ s' cs, Retrying executor made p p' s₀ s s' task.taskId (i + 1) rs cs := by
  induction indices generalizing p s i current result rs with
  | nil =>
    obtain ⟨rfl, rfl⟩ := returns_pure.1 h
    exact ⟨s, [], hw, .refl s, by simp, .nil, fun q hq => .inl hq, fun _ _ _ _ _ _ ho => ho⟩
  | cons j rest ih =>
    obtain ⟨k, hk⟩ := hindices
    obtain ⟨k, rfl⟩ : ∃ k', k = k' + 1 := by
      cases k with
      | zero => simp at hk
      | succ k => exact ⟨k, rfl⟩
    rw [List.range'_succ, List.cons.injEq] at hk
    obtain ⟨rfl, hrest⟩ := hk
    unfold DurableBoundedExecutor.retryAll at h
    split at h
    · simp only [returns_bind, returns_lift, valid_eq_ok, returns_pure] at h
      obtain ⟨lineage, _, ⟨hlineage, rfl⟩, reservation, _, ⟨_, rfl⟩, reserved, p₁, hreserve, _, p₂,
        hstart, retried, p₃, hrun, attempt, p₄, hsettle, others, p₅, hothers, rfl, rfl⟩ := h
      have hl₄ : Later p₄ p₅ := retryAll_later executor outside _ _ _ _ _ _ _ _ hothers
      have hl₃ : Later p₃ p₄ := settleResult_later executor outside _ _ _ _ _ _ _ hsettle
      have hl₂ : Later p₂ p₃ := runEffect_later executor outside _ _ _ _ _ _ hrun
      have hl₁ : Later p₁ p₂ := storeCall_later executor outside _ _ _ _ hstart
      have hf₄ := hfree.of_later hl₄
      have hf₂ := hf₄.of_later (trans_of Later hl₂ hl₃)
      obtain ⟨s₁, m, hlog₁, _, hw₁, hcalled, hadv₁⟩ :=
        attemptCall_returns hw rfl hreserve (hf₂.of_later hl₁)
      -- the reservation is a new one
      have happlied : reserved.status = .applied := by
        cases hcalled with
        | applied returned => exact returned.1
        | replayed _ recorded =>
          have hcalls : p₁.calls = p.calls ++ [.reserve (attemptReserve task.taskId (i + 1))
              (attemptPermit task.taskId (i + 1)) reservation lineage none none] := by
            simp [Progress.calls, hlog₁]
          have hf₁ := hf₂.of_later hl₁
          rw [hcalls, ← List.append_assoc] at hf₁
          exact absurd (recorded.reflected hw.logged hf₁)
            (not_reflected_retry hs₀ hw.consistent he hcur hbelow (retryLineage_ok hlineage))
      obtain ⟨hfresh, hopen₁⟩ := reserve_opens hw hlog₁ hcalled happlied
      obtain ⟨s₂, m₂, hlog₂, _, hw₂, _, hadv₂⟩ := attemptCall_returns hw₁ rfl hstart hf₂
      have hnosettle : ∀ q, ¬ (Call.start (attemptStart task.taskId (i + 1))
          (attemptPermit task.taskId (i + 1))).settlesPermit q := by
        rintro q ⟨_, hq, _⟩
        cases hq
      have hnosettle' : ∀ q, ¬ (Call.reserve (attemptReserve task.taskId (i + 1))
          (attemptPermit task.taskId (i + 1)) reservation lineage none none).settlesPermit q := by
        rintro q ⟨_, hq, _⟩
        cases hq
      have hopen₂ := hadv₂.opens _ _ _ _ (hnosettle _) hopen₁
      have hp₃ := runEffect_returns executor outside hrun
      subst hp₃
      obtain ⟨s₄, a, n, hset⟩ := settleResult_returns hw₂.ran hopen₂.ran hsettle hf₄
      have hs₄ : Extends s s₄ :=
        (hadv₁.extends_state.trans hadv₂.extends_state).trans hset.extends_state
      have hids₄ : ∀ q ∈ permitIds s₄, q ∈ permitIds s ∨ q = attemptPermit task.taskId (i + 1) := by
        intro q hq
        rcases hadv₂.ids q (hset.ids hq) with hq | ⟨_, _, _, _, _, hq⟩
        · rcases hadv₁.ids q hq with hq | ⟨_, _, _, _, _, hq⟩
          · exact .inl hq
          · cases hq
            exact .inr rfl
        · cases hq
      have hfresh₀ : attemptPermit task.taskId (i + 1) ∉ permitIds s₀ :=
        fun hq => hfresh (he.keeps.permitIds hq)
      obtain ⟨x, hx, hxid, hxl⟩ := hopen₂.attempt
      obtain ⟨y, hy, hyid, hyl⟩ := hset.extends_state.keeps.attempts x hx
      obtain ⟨s', cs, hret⟩ := ih (i := i + 1) ⟨k, hrest⟩ hset.working
        (he.trans hs₄) ⟨hfresh₀, y, hy, hyid.trans hxid, hyl.trans hxl⟩ (fun q hq => by
          rcases hids₄ q hq with hq | rfl
          · rcases hbelow q hq with hq | ⟨u, j, hq, hlt⟩
            · exact .inl hq
            · exact .inr ⟨u, j, hq, fun hu => (hlt hu).trans (Nat.lt_succ_self _)⟩
          · exact .inr ⟨_, _, rfl, fun _ => Nat.lt_succ_self _⟩) hothers
      refine ⟨s', (a, n) :: cs, hret.working, hs₄.trans hret.extends_state, ?_, ?_, ?_, ?_⟩
      · rw [hret.settlements, hset.log]
        simp only [settles_append, hlog₂, hlog₁]
        simp [settles]
      · refine .cons hfresh₀ ?_ hret.attempts
        exact hset.settled.mono hret.extends_state hl₄.1
      · intro q hq
        rcases hret.ids q hq with hq | ⟨j, hij, hj, rfl⟩
        · rcases hids₄ q hq with hq | rfl
          · exact .inl hq
          · exact .inr ⟨i + 1, le_rfl, by simp, rfl⟩
        · exact .inr ⟨j, by omega, by simp only [List.length_cons]; omega, rfl⟩
      · intro u l res lin m' hu ho
        have hne : attemptPermit u l ≠ attemptPermit task.taskId (i + 1) :=
          fun heq => hu (attemptPermit_injective heq).1
        have ho₂ := hadv₂.opens _ _ _ _ (hnosettle _) (hadv₁.opens _ _ _ _ (hnosettle' _) ho)
        exact hret.opens u l res lin m' hu (hset.opens _ _ _ _ hne ho₂.ran)
    · obtain ⟨rfl, rfl⟩ := returns_pure.1 h
      exact ⟨s, [], hw, .refl s, by simp, .nil, fun q hq => .inl hq, fun _ _ _ _ _ _ ho => ho⟩

end

end PokerDeliberation.Budgets
