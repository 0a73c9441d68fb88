import PokerDeliberation.Bridge.Decoded

/-!
# What the controller publishes

The plan and the artifacts of each publication: what was read, and what the
call adds. A first publication has no audits, a confirmation and an admission
add none, and what follows an execution adds that of its role.
-/

namespace PokerDeliberation.Bridge

open Lib BridgeRole

variable {Bytes : Type} {fmt : Format Bytes} {contracts : Contracts} {request : BridgePublishRequest}
  {role : BridgeRole} {ctx : CallContext} {current : VerifiedBridgeRead Bytes}

/-! ## Preparing and confirming -/

theorem independentRequest_name {call : PrepareRun} {policy : BridgeRuntimePolicy}
    {conformance : List BridgeRoleConformanceBinding} {expiresAt : Int}
    {artifact : BridgeStoredArtifact}
    (h : independentRequest contracts call policy conformance expiresAt role = .ok artifact) :
    ∃ other, artifact.logicalName = roleArtifactName other .request := by
  unfold independentRequest at h
  split at h
  · cases h
  · simp only [bind_eq_ok, pure_eq_ok] at h
    obtain ⟨request, -, rfl⟩ := h
    exact ⟨request.attempt.role, rfl⟩

theorem audit_ne_request {other : BridgeRole} :
    roleArtifactName role .audit ≠ roleArtifactName other .request := fun h =>
  absurd (roleArtifactName_inj h).2 (by decide)

theorem anchor_ne_role {name : String} {artifact : RoleArtifact} (h : name ∈ anchorNames) :
    name ≠ roleArtifactName role artifact := by
  rcases List.mem_pair.1 h with rfl | rfl <;> cases role <;> cases artifact <;> decide

theorem firstPublication_audits {call : PrepareRun}
    (h : firstPublication contracts ctx call = .ok request) :
    roleArtifactName role .audit ∉ request.names := by
  unfold firstPublication at h
  simp only [bind_eq_ok, pure_eq_ok] at h
  obtain ⟨policy, -, conformance, -, plan, -, independent, hindependent, rfl⟩ := h
  intro hname
  obtain ⟨artifact, hartifact, heq⟩ := List.mem_map.1 hname
  rcases List.mem_append.1 hartifact with hanchor | hrequest
  · have hmem : artifact.logicalName ∈ anchorNames := by
      rcases List.mem_pair.1 hanchor with rfl | rfl <;> simp [anchorNames]
    exact anchor_ne_role hmem heq
  · obtain ⟨other, -, hother⟩ :=
      exists_of_forall₂ ((mapM_eq_ok _).1 hindependent).flip hrequest
    obtain ⟨named, hnamed⟩ := independentRequest_name hother
    exact audit_ne_request (heq.symm.trans hnamed)

theorem confirmationPublication_ok {call : ConfirmRole} {confirmation : BridgeRoleConfirmation}
    {publication : BridgePublishRequest}
    (h : confirmationPublication fmt ctx call current confirmation = .ok publication) :
    ∃ existing artifacts plan, decodedOf fmt current.toRevision = .ok existing ∧
      appendArtifacts existing [roleArtifact call.role .confirmation (.confirmation confirmation)] =
        .ok artifacts ∧
      modelAt fmt current.toRevision "run_plan.json" (·.plan?) = .ok plan ∧
      publication.runPlan = plan ∧ publication.artifacts = artifacts := by
  unfold confirmationPublication at h
  simp only [bind_eq_ok, pure_eq_ok] at h
  obtain ⟨existing, hexisting, artifacts, hartifacts, plan, hplan, rfl⟩ := h
  exact ⟨existing, artifacts, plan, hexisting, hartifacts, hplan, rfl, rfl⟩

/-! ## Admitting -/

/-- What `checkExecution` has found. -/
structure Checked (fmt : Format Bytes) (call : ExecuteRole) (current : VerifiedBridgeRead Bytes)
    (binding : Binding) : Prop where
  plan : modelAt fmt current.toRevision "run_plan.json" (·.plan?) = .ok binding.plan
  request : modelAt fmt current.toRevision (roleArtifactName call.role .request) (·.request?) =
    .ok binding.request
  confirmation : modelAt fmt current.toRevision (roleArtifactName call.role .confirmation)
    (·.confirmation?) = .ok binding.confirmation

theorem checkExecution_ok {call : ExecuteRole} {binding : Binding}
    (h : checkExecution fmt call current = .ok binding) : Checked fmt call current binding := by
  unfold checkExecution at h
  simp only [bind_eq_ok, require_eq_ok, exists_const, pure_eq_ok] at h
  obtain ⟨-, plan, hplan, source, -, request, hrequest, -, -, -, -, confirmation, hconfirmation,
    -, -, -, -, rfl⟩ := h
  exact ⟨hplan, hrequest, hconfirmation⟩

/-- An admission that is made, and what is published of it. -/
structure Admitting (fmt : Format Bytes) (call : ExecuteRole) (current : VerifiedBridgeRead Bytes)
    (binding : Binding) (admission : BridgePreExecutionAdmission)
    (publication : BridgePublishRequest) : Prop where
  confirms : binding.confirmation.Confirms binding.request
  timely : binding.confirmation.confirmedAt ≤ admission.admittedAt ∧
    admission.admittedAt < binding.confirmation.expiresAt
  bound : admission.attempt = binding.request.attempt ∧
    admission.confirmationSha256 = binding.confirmation.confirmationSha256
  plan : publication.runPlan = binding.plan
  artifacts : ∃ existing, decodedOf fmt current.toRevision = .ok existing ∧
    appendArtifacts existing [roleArtifact call.role .admission (.admission admission)] =
      .ok publication.artifacts

theorem admissionPublication_ok {call : ExecuteRole} {binding : Binding}
    {admission : BridgePreExecutionAdmission} {publication : BridgePublishRequest}
    (h : admissionPublication fmt contracts ctx call current binding = .ok (admission, publication)) :
    Admitting fmt call current binding admission publication := by
  unfold admissionPublication at h
  simp only [bind_eq_ok, pure_eq_ok, Prod.mk.injEq] at h
  obtain ⟨made, hmade, existing, hexisting, artifacts, hartifacts, rfl, rfl⟩ := h
  unfold admitRoleRequest at hmade
  simp only [require_bind_eq_ok, pure_eq_ok] at hmade
  obtain ⟨⟨hconfirms, hafter, hbefore, -, -⟩, -, rfl⟩ := hmade
  exact ⟨hconfirms, ⟨hafter, hbefore⟩, ⟨rfl, rfl⟩, rfl, existing, hexisting, hartifacts⟩

/-- What is found before a publication is found after it. -/
theorem modelAt_grown {α : Type} {name : String} {select : BridgeArtifactModel → Option α} {m : α}
    {parent child : Revision Bytes} {artifacts : List BridgeStoredArtifact}
    (hgrows : child = parent ∨ Extends parent child)
    (h : modelAt fmt parent name select = .ok m) (hdecoded : decodedOf fmt child = .ok artifacts) :
    modelAt fmt child name select = .ok m := by
  rcases hgrows with rfl | hext
  · exact h
  · exact hext.modelAt h hdecoded

/-- The request in a role's file is for the role. -/
theorem Serial.request_role {status : BridgeTerminalStatus} {revision : Revision Bytes}
    {request : BoundedCodexBridgeRequest}
    (h : Serial fmt revision.artifacts status)
    (hmodel : modelAt fmt revision (roleArtifactName role .request) (·.request?) = .ok request) :
    request.attempt.role = role := by
  obtain ⟨entry, bytes, model, hfound⟩ := modelAt_ok hmodel
  obtain ⟨bound, hbound, hrole⟩ := h.bound role .request bytes hfound.stored
  have hselected := hfound.selected
  cases model <;>
    simp only [BridgeArtifactModel.request?, Option.some.injEq, reduceCtorEq] at hselected
  subst hselected
  have hkind := fmt.parse_kind hfound.parsed
  have hparsed := hfound.parsed
  rw [← hkind] at hparsed
  change fmt.parse .request bytes = _ at hbound hparsed
  rw [hparsed] at hbound
  cases hbound
  simpa [BridgeArtifactModel.role] using hrole

/-! ## Settling -/

theorem failurePublication_ok {admitted : Admitted Bytes} {transactionId : String} {publishedAt : Int}
    {audit : BridgeExecutionAudit} {publication : BridgePublishRequest}
    (h : failurePublication fmt admitted role transactionId publishedAt audit = .ok publication) :
    publication.runPlan = admitted.binding.plan ∧
      ∃ existing, decodedOf fmt admitted.current.toRevision = .ok existing ∧
        appendArtifacts existing [roleArtifact role .audit (.executionAudit audit)] =
          .ok publication.artifacts := by
  unfold failurePublication at h
  simp only [bind_eq_ok, pure_eq_ok] at h
  obtain ⟨existing, hexisting, artifacts, hartifacts, rfl⟩ := h
  exact ⟨rfl, existing, hexisting, hartifacts⟩

/-- A success adds the result and the audit of its role, and at most a request. -/
theorem successPublication_ok {admitted : Admitted Bytes} {roleResult : BridgeRoleResult}
    {audit : BridgeExecutionAudit} {publication : BridgePublishRequest}
    (h : successPublication fmt contracts ctx admitted role roleResult audit = .ok publication) :
    publication.runPlan = admitted.binding.plan ∧
      ∃ existing additions, decodedOf fmt admitted.current.toRevision = .ok existing ∧
        appendArtifacts existing additions = .ok publication.artifacts ∧
        ∀ other, roleArtifactName other .audit ∈ additions.map (·.logicalName) → other = role := by
  unfold successPublication at h
  simp only [bind_eq_ok, pure_eq_ok] at h
  obtain ⟨dependent, -, existing, hexisting, artifacts, hartifacts, rfl⟩ := h
  refine ⟨rfl, existing, _, hexisting, hartifacts, fun other hname => ?_⟩
  obtain ⟨item, hitem, hname⟩ := List.mem_map.1 hname
  rcases List.mem_append.1 hitem with hitem | hitem
  · rcases List.mem_pair.1 hitem with rfl | rfl
    · exact absurd (roleArtifactName_inj hname).2 (by decide)
    · exact (roleArtifactName_inj hname).1.symm
  · obtain ⟨request, -, rfl⟩ := List.mem_map.1 hitem
    exact absurd (roleArtifactName_inj hname).2 (by decide)

theorem succeeded_isPresent {artifacts : Artifacts Bytes} (h : succeeded fmt artifacts role = true) :
    isPresent artifacts role .audit = true := by
  unfold succeeded auditOf at h
  unfold isPresent
  cases hlookup : artifacts.lookup (roleArtifactName role .audit) with
  | none => simp [hlookup] at h
  | some bytes => rfl

end PokerDeliberation.Bridge
