import PokerDeliberation.Bridge.Storage

/-!
# Serial roles

What the check of the progression stands for: a role has a result exactly when
its audit succeeded, roles succeed in their order, none is admitted before all
earlier ones have, and at most one admission is open.
-/

namespace PokerDeliberation.Bridge

open Lib BridgeRole

variable {Bytes : Type} {fmt : Format Bytes} {artifacts : Artifacts Bytes}

def succeeded (fmt : Format Bytes) (artifacts : Artifacts Bytes) (role : BridgeRole) : Bool :=
  (auditOf fmt artifacts role).any fun audit => audit.effectState = .succeeded

/-- An admission without an audit. -/
def openAdmission (artifacts : Artifacts Bytes) (role : BridgeRole) : Bool :=
  isPresent artifacts role .admission && !isPresent artifacts role .audit

structure Serial (fmt : Format Bytes) (artifacts : Artifacts Bytes) (status : BridgeTerminalStatus) :
    Prop where
  request : ∀ role artifact, isPresent artifacts role artifact → isPresent artifacts role .request
  confirmation : ∀ role, isPresent artifacts role .admission → isPresent artifacts role .confirmation
  admission : ∀ role, isPresent artifacts role .audit → isPresent artifacts role .admission
  bound : ∀ role artifact bytes, artifacts.lookup (roleArtifactName role artifact) = some bytes →
    ∃ model, fmt.parse artifact.kind bytes = some model ∧ model.role = some role
  result : ∀ role, isPresent artifacts role .result = succeeded fmt artifacts role
  inOrder : ∀ role, succeeded fmt artifacts role → ∀ other ∈ role.earlier,
    succeeded fmt artifacts other
  admitted : ∀ role, isPresent artifacts role .admission → ∀ other ∈ role.earlier,
    succeeded fmt artifacts other
  oneOpen : (BRIDGE_ROLE_ORDER.filter (openAdmission artifacts)).length ≤ 1
  open_status : ∀ role, openAdmission artifacts role → status.isOpen
  succeeded_status : status = .succeeded ↔ ∀ role, succeeded fmt artifacts role

theorem checkPresence_ok {role : BridgeRole} (h : checkPresence artifacts role = .ok ()) :
    (∀ artifact, isPresent artifacts role artifact → isPresent artifacts role .request) ∧
      (isPresent artifacts role .admission → isPresent artifacts role .confirmation) ∧
      (isPresent artifacts role .result → isPresent artifacts role .audit) ∧
      (isPresent artifacts role .audit → isPresent artifacts role .admission) := by
  unfold checkPresence at h
  simp only [require_bind_eq_ok, require_eq_ok] at h
  obtain ⟨hrequest, hconfirmation, hresult, haudit⟩ := h
  refine ⟨fun artifact hpresent => ?_, hconfirmation, fun h => (hresult h).2, haudit⟩
  cases artifact with
  | request => exact hpresent
  | confirmation => exact hrequest (.inl hpresent)
  | admission => exact hrequest (.inr (.inl hpresent))
  | result => exact hrequest (.inr (.inr (.inl hpresent)))
  | audit => exact hrequest (.inr (.inr (.inr hpresent)))

theorem parseModel_ok {kind : BridgeArtifactKind} {bytes : Bytes} {model : BridgeArtifactModel} :
    fmt.parseModel kind bytes = .ok model ↔ fmt.parse kind bytes = some model := by
  unfold Format.parseModel
  split <;> simp_all

theorem checkRoleFiles_ok {role : BridgeRole} (h : checkRoleFiles fmt artifacts role = .ok ()) :
    ∀ artifact bytes, artifacts.lookup (roleArtifactName role artifact) = some bytes →
      ∃ model, fmt.parse artifact.kind bytes = some model ∧ model.role = some role := by
  intro artifact bytes hlookup
  have := (forM_eq_ok _).1 h artifact (by cases artifact <;> decide)
  rw [hlookup] at this
  simp only [bind_eq_ok, require_eq_ok, parseModel_ok] at this
  exact this

/-- The audit of a role, where there is one. -/
theorem auditOf_isSome {role : BridgeRole} (h : checkRoleFiles fmt artifacts role = .ok ()) :
    (auditOf fmt artifacts role).isSome = isPresent artifacts role .audit := by
  unfold auditOf isPresent
  cases hlookup : artifacts.lookup (roleArtifactName role .audit) with
  | none => rfl
  | some bytes =>
    obtain ⟨model, hmodel, -⟩ := checkRoleFiles_ok h .audit bytes hlookup
    have hkind := fmt.parse_kind hmodel
    cases model <;> simp [BridgeArtifactModel.kind, RoleArtifact.kind] at hkind
    change fmt.parse .executionAudit bytes = _ at hmodel
    simp [hmodel]

/-- What the loop has found once it has been through some of the roles. -/
structure Passed (fmt : Format Bytes) (artifacts : Artifacts Bytes) (done : List BridgeRole)
    (progress : Progress) : Prop where
  completed : progress.completed = done.filter (succeeded fmt artifacts)
  openAdmissions : progress.openAdmissions = (done.filter (openAdmission artifacts)).length
  admittedRoles : progress.admittedRoles = done.filter fun role => isPresent artifacts role .admission
  presence : ∀ role ∈ done, checkPresence artifacts role = .ok ()
  files : ∀ role ∈ done, checkRoleFiles fmt artifacts role = .ok ()
  result : ∀ role ∈ done, isPresent artifacts role .result = succeeded fmt artifacts role
  inOrder : ∀ role ∈ done, succeeded fmt artifacts role → ∀ other ∈ role.earlier,
    succeeded fmt artifacts other

theorem progressRole_ok {progress progress' : Progress} {role : BridgeRole}
    (h : progressRole fmt artifacts progress role = .ok progress') :
    checkPresence artifacts role = .ok () ∧ checkRoleFiles fmt artifacts role = .ok () ∧
      isPresent artifacts role .result = succeeded fmt artifacts role ∧
      (succeeded fmt artifacts role → progress.completed = role.earlier) ∧
      progress' = {
        completed := progress.completed ++ [role].filter (succeeded fmt artifacts)
        openAdmissions := progress.openAdmissions + ([role].filter (openAdmission artifacts)).length
        admittedRoles := progress.admittedRoles ++
          [role].filter fun role => isPresent artifacts role .admission } := by
  unfold progressRole at h
  simp only [bind_eq_ok] at h
  obtain ⟨⟨⟩, hpresence, ⟨⟩, hfiles, h⟩ := h
  refine ⟨hpresence, hfiles, ?_⟩
  have hsome := auditOf_isSome hfiles
  have hopen : (if isPresent artifacts role .admission = true ∧
      ¬ isPresent artifacts role .audit = true then 1 else 0) =
      ([role].filter (openAdmission artifacts)).length := by
    cases ha : isPresent artifacts role .admission <;>
      cases hb : isPresent artifacts role .audit <;> simp [openAdmission, ha, hb]
  have hadmitted : (if isPresent artifacts role .admission = true then
      progress.admittedRoles ++ [role] else progress.admittedRoles) = progress.admittedRoles ++
        [role].filter fun role => isPresent artifacts role .admission := by
    by_cases hadm : isPresent artifacts role .admission = true <;> simp [hadm]
  rw [hopen, hadmitted] at h
  cases haudit : auditOf fmt artifacts role with
  | none =>
    rw [haudit] at h hsome
    have hnot : succeeded fmt artifacts role = false := by simp [succeeded, haudit]
    have hresult : isPresent artifacts role .result = false := by
      cases hr : isPresent artifacts role .result with
      | false => rfl
      | true =>
        have := (checkPresence_ok hpresence).2.2.1 hr
        rw [← hsome] at this
        exact absurd this (by decide)
    refine ⟨by rw [hresult, hnot], by simp [hnot], ?_⟩
    rw [← pure_eq_ok.1 h]
    simp [hnot]
  | some audit =>
    rw [haudit] at h
    have hsucceeded : succeeded fmt artifacts role = decide (audit.effectState = .succeeded) := by
      simp [succeeded, haudit]
    simp only [bind_eq_ok, require_eq_ok, exists_const, ← hsucceeded] at h
    obtain ⟨hresult, h⟩ := h
    refine ⟨hresult.symm, ?_⟩
    cases hs : succeeded fmt artifacts role with
    | true =>
      rw [hs] at h
      simp only [if_true, bind_eq_ok, require_eq_ok, exists_const, pure_eq_ok] at h
      obtain ⟨hearlier, rfl⟩ := h
      exact ⟨fun _ => hearlier, by simp [hs]⟩
    | false =>
      rw [hs] at h
      refine ⟨by simp, ?_⟩
      rw [← pure_eq_ok.1 h]
      simp [hs]

theorem passed {progress : Progress} {roles : List BridgeRole}
    (h : roles.foldlM (progressRole fmt artifacts) ⟨[], 0, []⟩ = .ok progress) :
    Passed fmt artifacts roles progress := by
  refine runs_induction (I := Passed fmt artifacts) ⟨rfl, rfl, rfl, by simp, by simp, by simp, by simp⟩
    ?_ h
  intro done progress role progress' hI hstep
  obtain ⟨hpresence, hfiles, hresult, hearlier, rfl⟩ := progressRole_ok hstep
  have hall : ∀ {p : BridgeRole → Prop}, (∀ other ∈ done, p other) → p role →
      ∀ other ∈ done ++ [role], p other := by
    intro p hdone hrole other hother
    rcases List.mem_append.1 hother with hother | hother
    · exact hdone other hother
    · rw [List.mem_singleton.1 hother]
      exact hrole
  exact {
    completed := by rw [List.filter_append, hI.completed]
    openAdmissions := by rw [List.filter_append, List.length_append, hI.openAdmissions]
    admittedRoles := by rw [List.filter_append, hI.admittedRoles]
    presence := hall hI.presence hpresence
    files := hall hI.files hfiles
    result := hall hI.result hresult
    inOrder := hall hI.inOrder fun hs other hother => by
      rw [← hearlier hs, hI.completed] at hother
      exact (List.mem_filter.1 hother).2 }

theorem verifyExecutionProgression_ok {status : BridgeTerminalStatus} {completionMarkerPresent : Bool}
    (h : verifyExecutionProgression fmt artifacts status completionMarkerPresent = .ok ()) :
    Serial fmt artifacts status := by
  unfold verifyExecutionProgression at h
  simp only [bind_eq_ok, require_eq_ok, exists_const] at h
  obtain ⟨progress, hprogress, hone, ⟨⟩, hadmitted, hopen, -, -, hstatus, -⟩ := h
  have hI := passed hprogress
  have hcompleted : ∀ role, role ∈ progress.completed ↔ succeeded fmt artifacts role := fun role => by
    rw [hI.completed, List.mem_filter]
    exact and_iff_right (mem_order role)
  exact {
    request := fun role => (checkPresence_ok (hI.presence role (mem_order role))).1
    confirmation := fun role => (checkPresence_ok (hI.presence role (mem_order role))).2.1
    admission := fun role => (checkPresence_ok (hI.presence role (mem_order role))).2.2.2
    bound := fun role => checkRoleFiles_ok (hI.files role (mem_order role))
    result := fun role => hI.result role (mem_order role)
    inOrder := fun role => hI.inOrder role (mem_order role)
    admitted := by
      intro role hadm other hother
      have hmem : role ∈ progress.admittedRoles := by
        rw [hI.admittedRoles]
        exact List.mem_filter.2 ⟨mem_order role, hadm⟩
      have := require_eq_ok.1 ((forM_eq_ok _).1 hadmitted role hmem)
      rw [← hcompleted]
      exact List.mem_of_mem_take (this ▸ hother)
    oneOpen := by rwa [hI.openAdmissions] at hone
    open_status := by
      intro role hrole
      rcases hopen with hzero | hopen
      · rw [hI.openAdmissions, List.length_eq_zero_iff, List.filter_eq_nil_iff] at hzero
        exact absurd hrole (hzero role (mem_order role))
      · exact hopen
    succeeded_status := by
      rw [hstatus]
      constructor
      · intro heq role
        rw [← hcompleted, heq]
        exact mem_order role
      · intro hall
        rw [hI.completed]
        exact List.filter_eq_self.2 fun role _ => hall role }

end PokerDeliberation.Bridge
