import PokerDeliberation.Contexts.Integrity

/-!
# What is built is handed over

An envelope that was built satisfies every check of the validation, but for the
schema of its payload: its context is not validated when the envelope is built.
-/

namespace PokerDeliberation.Contexts

open Lib Lib.Json Lib.Records
open LocalData (ContextClassification)

variable {F : Type} {out : Outside F} {v w : Value F} {t h : Text} {e e' : ContextEnvelope}
  {context : AgentContext out} {assignment : AgentAssignment} {a : BuildArguments} {x : Expected}
  {classification : ContextClassification} {parentContextId source : Option Text}

/-! ## Payloads of contexts -/

theorem contextPayload_distinct (context : AgentContext out) :
    (contextPayload out context).Distinct :=
  dump_distinct _ (agentContext_wellFormed out.floats) context.valid

theorem contextPayload_obj (context : AgentContext out) :
    ∃ items, contextPayload out context = .obj items := by
  obtain ⟨items, hvalue, -⟩ := context.valid
  exact ⟨_, by rw [contextPayload, hvalue, agentContext, Ty.dump]⟩

theorem sortedTexts_of_perm {names names' : List Text} (h : names.Perm names') :
    sortedTexts names = sortedTexts names' := by
  have hpairwise : ∀ l : List Text, (sortedTexts l).Pairwise (· ≤ ·) := fun l =>
    List.pairwise_insertionSort _ l
  refine List.Perm.eq_of_pairwise (fun _ _ _ _ => le_antisymm) (hpairwise _) (hpairwise _) ?_
  exact ((List.perm_insertionSort _ _).trans h).trans (List.perm_insertionSort _ _).symm

@[simp] theorem fieldsOf_sorted (v : Value F) : fieldsOf v.sorted = fieldsOf v := by
  cases v with
  | obj items => exact sortedTexts_of_perm (Value.keys_sorted items)
  | _ => rfl

theorem canonicalJson_sorted (v : Value F) : canonicalJson out v.sorted = canonicalJson out v := by
  unfold canonicalJson dumps
  rw [Value.depth_sorted, Value.sorted_sorted]

/-- The payload of a context is read back from its canonical text. -/
theorem loadPayload_canonical (h : canonicalJson out (contextPayload out context) = .ok t) :
    ∃ items, loadPayload out t = .ok items ∧
      .obj items = (contextPayload out context).sorted := by
  obtain ⟨hdepth, hdumps⟩ := canonicalJson_eq_ok.1 h
  obtain ⟨items, hobj⟩ := contextPayload_obj context
  have hdistinct := Value.distinct_sorted.2 (contextPayload_distinct context)
  have hread : loads out.floats.toNumbers (fun name => some (out.floats.constant name))
      (fun _ => true) out.recursionLimit t = .ok (contextPayload out context).sorted :=
    loads_dumps hdumps hdepth fun _ _ => rfl
  refine ⟨Value.sortItems (Value.sortedItems items), ?_, by rw [hobj, Value.sorted]⟩
  simp only [loadPayload, hread, Value.collapsed_of_distinct hdistinct]
  rw [hobj, Value.sorted]

/-! ## Checks of an envelope -/

theorem ContextPolicy.check_utc {p : ContextPolicy} (h : p.check = .ok ()) : p.expiresAt.IsUtc := by
  simp only [ContextPolicy.check, requireUtc, check_bind_eq_ok, require_eq_ok] at h
  exact h.2.2.1

/-- What the validators of an envelope promise. -/
theorem ContextEnvelope.check_eq_ok (h : e.check = .ok ()) :
    e.createdAt.IsUtc ∧ e.policy.expiresAt.IsUtc ∧ e.createdAt.Before e.policy.expiresAt ∧
      isSha256Text e.lineage.sourceSha256 = true := by
  simp only [ContextEnvelope.check, ContextLineage.check, requireUtc, check_bind_eq_ok,
    require_eq_ok] at h
  obtain ⟨-, -, -, hcreated, hpolicy, ⟨-, -, hsource⟩, -, hbefore⟩ := h
  exact ⟨hcreated, ContextPolicy.check_utc hpolicy, hbefore, hsource⟩

/-! ## What is built -/

/-- `e` was built for the context and the assignment. -/
structure Built (out : Outside F) (context : AgentContext out) (assignment : AgentAssignment)
    (a : BuildArguments) (classification : ContextClassification)
    (parentContextId source : Option Text) (e : ContextEnvelope) : Prop where
  check : e.check = .ok ()
  runId : e.lineage.runId = a.runId
  assignmentId : e.lineage.assignmentId = assignment.assignmentId
  assignmentHash : assignmentSha256 out assignment = .ok e.lineage.assignmentSha256
  parent : e.lineage.parentContextId = parentContextId
  source : e.lineage.sourceSha256 = orElse source e.payloadSha256
  keys : assignment.contextKeys = e.policy.allowedFields
  allowed : e.policy.allowedFields = fieldsOf (contextPayload out context)
  classification : e.policy.classification =
    classifyContextPayload out (contextPayload out context) classification
  canonical : canonicalJson out (contextPayload out context) = .ok e.canonicalPayload
  payloadHash : sha256Text out e.canonicalPayload = .ok e.payloadSha256
  policyHash : policySha256 out e.policy = .ok e.policySha256
  integrity : integritySha256 out (e.payload out) = .ok e.integritySha256

/-- The two ways of writing the integrity payload agree on what is built. -/
theorem buildEnvelope_built
    (h : buildEnvelope out context assignment a classification parentContextId source = .ok e) :
    Built out context assignment a classification parentContextId source e := by
  simp only [buildEnvelope, bind_eq_ok, require_eq_ok, pure_eq_ok] at h
  obtain ⟨⟨⟩, hnow, ⟨⟩, -, ⟨⟩, hkeys, canonical, hcanonical, payloadHash, hpayload, ⟨⟩, -,
    assignmentHash, hassignment, ⟨⟩, -, policyHash, hpolicy, integrity, hintegrity, ⟨⟩, hcheck,
    rfl⟩ := h
  have hutc : a.now.IsUtc := by simpa [requireUtc] using hnow
  exact
    { check := hcheck
      runId := rfl
      assignmentId := rfl
      assignmentHash := hassignment
      parent := rfl
      source := rfl
      keys := hkeys
      allowed := rfl
      classification := rfl
      canonical := hcanonical
      payloadHash := hpayload
      policyHash := hpolicy
      integrity := by
        rw [integritySha256, integrityPayload_eq, out.serializeDatetime_utc hutc]
        exact hintegrity }

/-- A built payload below the highest classification holds no secret. -/
theorem Built.no_secret (hb : Built out context assignment a classification parentContextId source e)
    (hclass : e.policy.classification ≠ .restricted) :
    containsRestrictedSecret out.isWord (contextPayload out context) = false := by
  by_contra hsecret
  rw [Bool.not_eq_false] at hsecret
  rw [hb.classification, classifyContextPayload, if_pos hsecret] at hclass
  exact hclass rfl

/-! ## Validating what is built -/

/-- Everything the validation checks. -/
theorem validate_eq_ok : validateContextEnvelope out e assignment x = .ok w ↔
    x.now.IsUtc ∧ e.check = .ok () ∧ e.correlate out assignment x = .ok () ∧ e.verify out = .ok () ∧
      ∃ items, loadPayload out e.canonicalPayload = .ok items ∧
        canonicalJson out (.obj items) = .ok e.canonicalPayload ∧
        fieldsOf (.obj items) = e.policy.allowedFields ∧
        assignment.contextKeys = e.policy.allowedFields ∧
        (e.policy.classification ≠ .restricted ∧
          containsRestrictedSecret out.isWord (.obj items) = false) ∧
        (agentContext out.floats).validate out.lib (.obj items) = some w := by
  simp only [validateContextEnvelope, requireUtc, bind_eq_ok, require_eq_ok, mapError_eq_ok, not_or,
    Bool.not_eq_true]
  constructor
  · rintro ⟨⟨⟩, hnow, ⟨⟩, hcheck, ⟨⟩, hcorrelate, ⟨⟩, hverify, items, hload, _, hcanonical, ⟨⟩, rfl,
      ⟨⟩, hfields, ⟨⟩, hkeys, ⟨⟩, hrefused, hvalid⟩
    refine ⟨hnow, hcheck, hcorrelate, hverify, items, hload, hcanonical, hfields, hkeys, hrefused, ?_⟩
    split at hvalid
    · rename_i context hcontext
      rw [hcontext, ← Except.ok.inj hvalid]
    · cases hvalid
  · rintro ⟨hnow, hcheck, hcorrelate, hverify, items, hload, hcanonical, hfields, hkeys, hrefused,
      hvalid⟩
    refine ⟨⟨⟩, hnow, ⟨⟩, hcheck, ⟨⟩, hcorrelate, ⟨⟩, hverify, items, hload, _, hcanonical, ⟨⟩, rfl,
      ⟨⟩, hfields, ⟨⟩, hkeys, ⟨⟩, hrefused, ?_⟩
    rw [hvalid]
    rfl

theorem Built.correlate_own
    (hb : Built out context assignment a classification parentContextId source e)
    (hsource : parentContextId = none → source = none) {now : Moment}
    (hfrom : ¬ now.Before e.createdAt) (huntil : now.Before e.policy.expiresAt) :
    e.correlate out assignment (e.own now) = .ok () := by
  have hinitial : e.lineage.parentContextId = none → e.lineage.sourceSha256 = e.payloadSha256 := by
    intro hnone
    rw [hb.source, hsource (hb.parent.symm.trans hnone)]
    rfl
  unfold ContextEnvelope.own
  simp only [ContextEnvelope.correlate, bind_eq_ok, require_eq_ok]
  exact ⟨⟨⟩, hfrom, ⟨⟩, huntil, ⟨⟩, trivial, ⟨⟩, trivial, ⟨⟩, hb.assignmentId, _, hb.assignmentHash,
    ⟨⟩, rfl, ⟨⟩, trivial, ⟨⟩, trivial, ⟨⟩, by simp, ⟨⟩, by simp, ⟨⟩, hinitial, ⟨⟩, trivial, trivial⟩

theorem Built.verify (hb : Built out context assignment a classification parentContextId source e) :
    e.verify out = .ok () := by
  simp only [ContextEnvelope.verify, bind_eq_ok, require_eq_ok]
  exact ⟨_, hb.policyHash, ⟨⟩, rfl, _, hb.payloadHash, ⟨⟩, rfl, _, hb.integrity, rfl⟩

/-- With its own identifiers and in time, a built envelope fails at the schema of its payload or
not at all. -/
theorem Built.validate_own
    (hb : Built out context assignment a classification parentContextId source e)
    (hsource : parentContextId = none → source = none)
    (hclass : e.policy.classification ≠ .restricted) {now : Moment} (hnow : now.IsUtc)
    (hfrom : ¬ now.Before e.createdAt) (huntil : now.Before e.policy.expiresAt)
    (hvalid : (agentContext out.floats).validate out.lib (contextPayload out context).sorted = some w) :
    validateContextEnvelope out e assignment (e.own now) = .ok w := by
  obtain ⟨items, hload, hitems⟩ := loadPayload_canonical hb.canonical
  refine validate_eq_ok.2 ⟨hnow, hb.check, hb.correlate_own hsource hfrom huntil, hb.verify, items,
    hload, ?_, ?_, hb.keys, ⟨hclass, ?_⟩, ?_⟩
  · rw [hitems, canonicalJson_sorted, hb.canonical]
  · rw [hitems, fieldsOf_sorted, hb.allowed]
  · rw [hitems, containsRestrictedSecret_sorted, hb.no_secret hclass]
  · rw [hitems, hvalid]

/-- Whatever is expected of a built envelope, what is returned was read from its payload. -/
theorem Built.of_validate
    (hb : Built out context assignment a classification parentContextId source e)
    {other : AgentAssignment} (h : validateContextEnvelope out e other x = .ok w) :
    (agentContext out.floats).validate out.lib (contextPayload out context).sorted = some w ∧
      containsRestrictedSecret out.isWord (contextPayload out context) = false := by
  obtain ⟨own, hload, hitems⟩ := loadPayload_canonical hb.canonical
  obtain ⟨-, -, -, -, items, hload', -, -, -, ⟨-, hsecret⟩, hvalid⟩ := validate_eq_ok.1 h
  rw [hload] at hload'
  cases hload'
  rw [hitems] at hsecret hvalid
  rw [containsRestrictedSecret_sorted] at hsecret
  exact ⟨hvalid, hsecret⟩

/-- A context that is returned has the payload that was built, without a secret in it. -/
theorem Built.payload_of_validate
    (hb : Built out context assignment a classification parentContextId source e)
    {other : AgentAssignment} (h : validateContextEnvelope out e other x = .ok w) :
    ((agentContext out.floats).dump w).sorted = (contextPayload out context).sorted ∧
      containsRestrictedSecret out.isWord ((agentContext out.floats).dump w) = false := by
  obtain ⟨hvalid, hsecret⟩ := hb.of_validate h
  have hwell := agentContext_wellFormed out.floats
  have hfits : ∀ u ∈ (agentContext out.floats).urls context.value, urlFits u = true := by
    intro u hu
    by_contra hlong
    rw [contextPayload, validate_eq_none _ hwell context.valid ⟨u, hu, by simpa using hlong⟩] at hvalid
    cases hvalid
  obtain ⟨w', hw', hsame⟩ := validate_dump _ hwell context.valid hfits
  rw [contextPayload, hw'] at hvalid
  cases hvalid
  refine ⟨hsame, ?_⟩
  rw [← containsRestrictedSecret_sorted, hsame, containsRestrictedSecret_sorted]
  exact hsecret

end PokerDeliberation.Contexts
