import PokerDeliberation.Bridge.Executions
import PokerDeliberation.Bridge.Publications
import PokerDeliberation.Bridge.Documents

/-!
# Roles are executed at most once

Over any calls of the controller, cut off anywhere: each call keeps the
invariant of the runs, and reaches the transport only with a role that was
never executed and whose predecessors have all succeeded. A role whose
admission is published and whose audit is nowhere blocks its run for good.
-/

namespace PokerDeliberation.Bridge

open Lib Lib.Interruptible BridgeRole

variable {Bytes : Type} [DecidableEq Bytes] {fmt : Format Bytes} {contracts : Contracts}
  {request : BridgePublishRequest} {world : World Bytes} {runId : String} {role : BridgeRole}
  {S : String → BridgeRole → Prop} {ctx : CallContext} {current : VerifiedBridgeRead Bytes}

/-! ## What a call reads -/

section Read

variable (hinv : WorldInv fmt S world)
  (hread : readCurrent fmt world.registry runId (world.run runId) = .ok current)

include hinv hread

theorem WorldInv.read_loads : ∃ entry, Loads fmt runId entry current.toRevision := by
  obtain ⟨orphan, chain, hshape, -⟩ := hinv.runs runId
  obtain ⟨entry, rest, rfl⟩ := hshape.read_head hread
  exact ⟨entry, hshape.lineage.1⟩

theorem WorldInv.read_serial : Serial fmt current.artifacts current.pointer.status := by
  obtain ⟨entry, hloads⟩ := hinv.read_loads hread
  exact verifyExecutionProgression_ok hloads.accepted.progression

/-- The audits that are read are of roles that were executed. -/
theorem WorldInv.read_audits (haudit : isPresent current.artifacts role .audit = true) :
    role ∈ world.executedIn runId ∧ ¬ S runId role := by
  obtain ⟨orphan, chain, hshape, hrun⟩ := hinv.runs runId
  obtain ⟨entry, rest, rfl⟩ := hshape.read_head hread
  exact hrun.audits.chain _ List.mem_cons_self role haudit

/-- A role that was executed, or is stranded, is read with its admission. -/
theorem WorldInv.read_admitted (hrole : role ∈ world.executedIn runId ∨ S runId role) :
    isPresent current.artifacts role .admission = true := by
  obtain ⟨orphan, chain, hshape, hrun⟩ := hinv.runs runId
  obtain ⟨entry, rest, rfl⟩ := hshape.read_head hread
  obtain ⟨_, ⟨⟩, hpresent⟩ := hrun.admitted role hrole
  exact hpresent

/-- What is appended to an artifact set that was read has no audits beside
those of the additions. -/
theorem WorldInv.append_audits {existing additions artifacts : List BridgeStoredArtifact}
    (hexisting : decodedOf fmt current.toRevision = .ok existing)
    (happend : appendArtifacts existing additions = .ok artifacts)
    (hadditions : ∀ role, roleArtifactName role .audit ∈ additions.map (·.logicalName) →
      role ∈ world.executedIn runId ∧ ¬ S runId role) :
    ∀ role, roleArtifactName role .audit ∈ artifacts.map (·.logicalName) →
      role ∈ world.executedIn runId ∧ ¬ S runId role := by
  intro role hname
  rcases ((appendArtifacts_ok happend).1 _).1 hname with hname | hname
  · obtain ⟨entry, hloads⟩ := hinv.read_loads hread
    rw [decoded_names (mapError_eq_ok.1 hexisting)] at hname
    exact hinv.read_audits hread (hloads.accepted.isPresent_iff.2 hname)
  · exact hadditions role hname

end Read

/-- Reading what is current is all that a call does first. -/
theorem meets_readCurrentRun_bind {α : Type} {f : VerifiedBridgeRead Bytes → ControllerProc Bytes α}
    {D : ControllerStep → World Bytes → Prop} {Q : Except ControllerError α → World Bytes → Prop} :
    Meets (readCurrentRun fmt runId >>= f) world D Q ↔
      (∀ e, readCurrent fmt world.registry runId (world.run runId) = .error e →
        Q (.error (.store e)) world) ∧
      ∀ current, readCurrent fmt world.registry runId (world.run runId) = .ok current →
        Meets (f current) world D Q := by
  rw [meets_bind, readCurrentRun_meets]
  cases readCurrent fmt world.registry runId (world.run runId) <;> simp [Except.mapError]

theorem publishAndRead_meets (hinv : WorldInv fmt S world)
    (hrequest : ∀ role, roleArtifactName role .audit ∈ request.names →
      role ∈ world.executedIn request.runPlan.bridgeRunId ∧
        ¬ S request.runPlan.bridgeRunId role) :
    Meets (publishRun fmt request >>= fun _ => readCurrentRun fmt runId) world (Safely fmt S)
      fun _ after => WorldInv fmt S after := by
  rw [meets_bind]
  refine (publishRun_meets hinv hrequest).mono (fun _ _ h => h) fun result after h => ?_
  cases result with
  | error e => exact h.1
  | ok outcome => exact readCurrentRun_meets.2 h.1

/-! ## Preparing and confirming -/

theorem prepareRun_meets (hinv : WorldInv fmt S world) (call : PrepareRun) :
    Meets (prepareRun fmt contracts ctx call) world (Safely fmt S)
      fun _ after => WorldInv fmt S after := by
  unfold prepareRun
  rw [meets_lift_bind]
  refine ⟨fun e _ => hinv, fun publication hpublication => ?_⟩
  exact publishAndRead_meets hinv fun role hname =>
    absurd hname (firstPublication_audits hpublication)

theorem confirmRole_meets (hinv : WorldInv fmt S world) (call : ConfirmRole) :
    Meets (confirmRole fmt contracts ctx call) world (Safely fmt S)
      fun _ after => WorldInv fmt S after := by
  unfold confirmRole
  rw [meets_readCurrentRun_bind]
  refine ⟨fun e _ => hinv, fun current hread => ?_⟩
  rw [meets_lift_bind]
  refine ⟨fun e _ => hinv, fun checked _ => ?_⟩
  obtain ⟨request, confirmation⟩ := checked
  dsimp only
  rw [meets_bind, meets_attempt]
  refine claimConfirmationIdentifiers_meets
    (fun after honly => (hinv.of_registryOnly honly).safely (by simp)) fun result after honly => ?_
  cases result with
  | error e => exact meets_raise.2 (hinv.of_registryOnly honly)
  | ok _ =>
    dsimp only
    rw [meets_lift_bind]
    refine ⟨fun e _ => hinv.of_registryOnly honly, fun publication hpublication => ?_⟩
    obtain ⟨existing, artifacts, plan, hexisting, happend, hplan, hrun, hartifacts⟩ :=
      confirmationPublication_ok hpublication
    obtain ⟨entry, hloads⟩ := hinv.read_loads hread
    have hid : publication.runPlan.bridgeRunId = call.bridgeRunId := by
      rw [hrun]
      exact readDirectory_plan hloads.reads hplan
    have haudits := hinv.append_audits hread hexisting happend fun role hname =>
      absurd (roleArtifactName_inj (List.mem_singleton.1 hname)).2 (by decide)
    refine publishAndRead_meets (hinv.of_registryOnly honly) fun role hname => ?_
    obtain ⟨registry, rfl⟩ := honly
    rw [hid]
    rw [BridgePublishRequest.names, hartifacts] at hname
    exact haudits role hname

/-! ## Admitting -/

/-- A role that is about to be handed over. -/
structure Handed (fmt : Format Bytes) (S : String → BridgeRole → Prop) (call : ExecuteRole)
    (admitted : Admitted Bytes) (world : World Bytes) : Prop where
  read : readCurrent fmt world.registry call.bridgeRunId (world.run call.bridgeRunId) =
    .ok admitted.current
  plan : admitted.binding.plan.bridgeRunId = call.bridgeRunId
  launchable : Launchable fmt call.bridgeRunId call.role world
  fresh : call.role ∉ world.executedIn call.bridgeRunId
  unblocked : ∀ other, ¬ S call.bridgeRunId other

section Admit

variable {call : ExecuteRole} {binding : Binding} {admission : BridgePreExecutionAdmission}
  {publication : BridgePublishRequest} {after : World Bytes} {published : VerifiedBridgeRead Bytes}

/-- A role whose admission can be appended has none yet. -/
theorem Admitting.unadmitted (hinv : WorldInv fmt S world)
    (hread : readCurrent fmt world.registry runId (world.run runId) = .ok current)
    (h : Admitting fmt call current binding admission publication) :
    ¬ isPresent current.artifacts call.role .admission = true := by
  intro hpresent
  obtain ⟨existing, hexisting, happend⟩ := h.artifacts
  obtain ⟨entry, hloads⟩ := hinv.read_loads hread
  refine (appendArtifacts_ok happend).2 _ List.mem_cons_self ?_
  rw [decoded_names (mapError_eq_ok.1 hexisting)]
  exact hloads.accepted.isPresent_iff.1 hpresent

/-- No stranded role is in the run of a role that is admitted. -/
theorem Admitting.unblocked (hinv : WorldInv fmt S world) (hafter : WorldInv fmt S after)
    (hread : readCurrent fmt world.registry runId (world.run runId) = .ok current)
    (hpublished : readCurrent fmt after.registry runId (after.run runId) = .ok published)
    (h : Admitting fmt call current binding admission publication)
    (hadmitted : isPresent published.artifacts call.role .admission = true) (other : BridgeRole) :
    ¬ S runId other := by
  intro hother
  have hnew := h.unadmitted hinv hread
  have hwaiting := hinv.read_admitted hread (.inr hother)
  have hunaudited : ∀ {w : World Bytes} {read : VerifiedBridgeRead Bytes}, WorldInv fmt S w →
      readCurrent fmt w.registry runId (w.run runId) = .ok read →
      ¬ isPresent read.artifacts other .audit = true := fun hw hr haudit =>
    (hw.read_audits hr haudit).2 hother
  rcases Nat.lt_trichotomy other.index call.role.index with hlt | heq | hgt
  · -- the role was admitted after its predecessor had succeeded
    have hserial := hafter.read_serial hpublished
    have hsucceeded := hserial.admitted call.role hadmitted other (mem_earlier.2 hlt)
    exact hunaudited hafter hpublished (succeeded_isPresent hsucceeded)
  · rw [index_inj heq] at hwaiting
    exact hnew hwaiting
  · -- the stranded role was admitted after this one had succeeded
    have hserial := hinv.read_serial hread
    have hsucceeded := hserial.admitted other hwaiting call.role (mem_earlier.2 hgt)
    exact hnew (hserial.admission _ (succeeded_isPresent hsucceeded))

theorem Admitting.handed (hinv : WorldInv fmt S world) (hafter : WorldInv fmt S after)
    (hread : readCurrent fmt world.registry call.bridgeRunId (world.run call.bridgeRunId) = .ok current)
    (hchecked : Checked fmt call current binding)
    (h : Admitting fmt call current binding admission publication)
    (hrepublished : Republished fmt call.bridgeRunId world after)
    (hpublished : readCurrent fmt after.registry call.bridgeRunId (after.run call.bridgeRunId) =
      .ok published)
    (hpersisted : modelAt fmt published.toRevision (roleArtifactName call.role .admission)
      (·.admission?) = .ok admission) :
    Handed fmt S call ⟨binding, admission, published⟩ after := by
  obtain ⟨artifacts, hdecoded⟩ := modelAt_decoded hpersisted
  obtain ⟨entry, hloads⟩ := hinv.read_loads hread
  obtain ⟨line, bytes, model, hfound⟩ := modelAt_ok hpersisted
  have hgrows := hrepublished.grows current published hread (hrepublished.registry ▸ hpublished)
  have hserial := hafter.read_serial hpublished
  have hrequest := modelAt_grown hgrows hchecked.request hdecoded
  exact {
    read := hpublished
    plan := readDirectory_plan hloads.reads hchecked.plan
    launchable := ⟨published, binding.request, binding.confirmation, admission, {
      read := hpublished
      requested := hrequest
      confirmed := modelAt_grown hgrows hchecked.confirmation hdecoded
      admitted := hpersisted
      ofRole := hserial.request_role hrequest
      confirms := h.confirms
      bound := h.bound
      timely := h.timely
      earlier := by
        intro other hother
        have hsucceeded := hserial.admitted call.role hfound.isPresent other hother
        exact ⟨hsucceeded, by rw [hserial.result, hsucceeded]⟩ }⟩
    fresh := by
      intro hexecuted
      have hexecuted' : call.role ∈ world.executedIn call.bridgeRunId := by
        rwa [World.executedIn, ← hrepublished.executed]
      exact h.unadmitted hinv hread (hinv.read_admitted hread (.inl hexecuted'))
    unblocked := h.unblocked hinv hafter hread hpublished hfound.isPresent }

end Admit

theorem admitRole_meets (hinv : WorldInv fmt S world) (call : ExecuteRole) :
    Meets (admitRole fmt contracts ctx call) world (Safely fmt S) fun result after =>
      WorldInv fmt S after ∧ ∀ admitted, result = .ok admitted → Handed fmt S call admitted after := by
  unfold admitRole
  rw [meets_readCurrentRun_bind]
  refine ⟨fun e _ => ⟨hinv, by simp⟩, fun current hread => ?_⟩
  rw [meets_lift_bind]
  refine ⟨fun e _ => ⟨hinv, by simp⟩, fun binding hbinding => ?_⟩
  rw [meets_read_bind, meets_lift_bind]
  refine ⟨fun e _ => ⟨hinv, by simp⟩, fun _ _ => ?_⟩
  rw [meets_lift_bind]
  refine ⟨fun e _ => ⟨hinv, by simp⟩, fun made hmade => ?_⟩
  obtain ⟨admission, publication⟩ := made
  have hchecked := checkExecution_ok hbinding
  have hadmits := admissionPublication_ok hmade
  obtain ⟨existing, hexisting, happend⟩ := hadmits.artifacts
  obtain ⟨entry, hloads⟩ := hinv.read_loads hread
  have hid : publication.runPlan.bridgeRunId = call.bridgeRunId := by
    rw [hadmits.plan]
    exact readDirectory_plan hloads.reads hchecked.plan
  have haudits := hinv.append_audits hread hexisting happend fun role hname =>
    absurd (roleArtifactName_inj (List.mem_singleton.1 hname)).2 (by decide)
  dsimp only
  rw [meets_bind]
  refine (publishRun_meets hinv fun role hname => by rw [hid]; exact haudits role hname).mono
    (fun _ _ h => h) fun result after h => ?_
  obtain ⟨hafter, hrepublished⟩ := h
  rw [hid] at hrepublished
  cases result with
  | error e => exact ⟨hafter, by simp⟩
  | ok outcome =>
    dsimp only
    rw [meets_readCurrentRun_bind]
    refine ⟨fun e _ => ⟨hafter, by simp⟩, fun published hpublished => ?_⟩
    rw [meets_lift_bind]
    refine ⟨fun e _ => ⟨hafter, by simp⟩, fun persisted hpersisted => ?_⟩
    rw [meets_lift_bind]
    refine ⟨fun e _ => ⟨hafter, by simp⟩, fun _ hsame => ?_⟩
    rw [require_eq_ok] at hsame
    rw [meets_pure]
    refine ⟨hafter, ?_⟩
    rintro _ ⟨⟩
    exact hadmits.handed hinv hafter hread hchecked hrepublished hpublished (hsame ▸ hpersisted)

/-! ## Handing over -/

/-- The store once the transport was reached. -/
def World.handedOver (runId : String) (role : BridgeRole) (world : World Bytes) : World Bytes :=
  { world with executed := world.executed ++ [(runId, role)] }

omit [DecidableEq Bytes] in
theorem executedIn_handedOver_self :
    (world.handedOver runId role).executedIn runId = world.executedIn runId ++ [role] := by
  simp [World.executedIn, World.handedOver]

omit [DecidableEq Bytes] in
theorem executedIn_handedOver_ne {other : String} (h : other ≠ runId) :
    (world.handedOver runId role).executedIn other = world.executedIn other := by
  simp [World.executedIn, World.handedOver, Ne.symm h]

/-- After its predecessors comes the role itself. -/
theorem take_next {n : Nat} (hn : n ≤ 5)
    (hearlier : ∀ other ∈ role.earlier, other ∈ BRIDGE_ROLE_ORDER.take n)
    (hfresh : role ∉ BRIDGE_ROLE_ORDER.take n) :
    BRIDGE_ROLE_ORDER.take n ++ [role] = BRIDGE_ROLE_ORDER.take (n + 1) := by
  revert hearlier hfresh
  rcases (by omega : n = 0 ∨ n = 1 ∨ n = 2 ∨ n = 3 ∨ n = 4 ∨ n = 5) with
    rfl | rfl | rfl | rfl | rfl | rfl <;> cases role <;> decide

theorem Handed.inv {call : ExecuteRole} {admitted : Admitted Bytes} (hinv : WorldInv fmt S world)
    (h : Handed fmt S call admitted world) :
    WorldInv fmt S (world.handedOver call.bridgeRunId call.role) := by
  obtain ⟨current, request, confirmation, admission, hadmits⟩ := h.launchable
  obtain ⟨line, bytes, model, hfound⟩ := modelAt_ok hadmits.admitted
  constructor
  · intro other
    obtain ⟨orphan, chain, hshape, hrun⟩ := hinv.runs other
    refine ⟨orphan, chain, hshape, ?_⟩
    by_cases hother : other = call.bridgeRunId
    · subst hother
      rw [executedIn_handedOver_self]
      refine ⟨fun role hrole => ?_, hrun.audits.mono fun role hrole =>
        ⟨List.mem_append_left _ hrole.1, hrole.2⟩⟩
      rcases hrole with hrole | hrole
      · rcases List.mem_append.1 hrole with hrole | hrole
        · exact hrun.admitted role (.inl hrole)
        · obtain ⟨entry, rest, rfl⟩ := hshape.read_head hadmits.read
          rw [List.mem_singleton.1 hrole]
          exact ⟨_, rfl, hfound.isPresent⟩
      · exact hrun.admitted role (.inr hrole)
    · rw [executedIn_handedOver_ne hother]
      exact hrun
  · intro other
    by_cases hother : other = call.bridgeRunId
    · subst hother
      have horder := hinv.inOrder call.bridgeRunId
      have hlength : (world.executedIn call.bridgeRunId).length ≤ 5 := by
        rw [horder, List.length_take]
        exact Nat.min_le_right _ _
      have hearlier : ∀ other ∈ call.role.earlier, other ∈ world.executedIn call.bridgeRunId :=
        fun other hother => (hinv.read_audits hadmits.read
          (succeeded_isPresent (hadmits.earlier other hother).1)).1
      have hfresh := h.fresh
      rw [horder] at hearlier hfresh
      rw [executedIn_handedOver_self, List.length_append, List.length_singleton,
        ← take_next hlength hearlier hfresh, ← horder]
    · rw [executedIn_handedOver_ne hother]
      exact hinv.inOrder other

/-! ## Settling -/

section Settle

variable {call : ExecuteRole} {admitted : Admitted Bytes} {after : World Bytes}

theorem claimAudit_bind_meets {α : Type} {audit : BridgeExecutionAudit}
    {f : BridgeExecutionAudit → ControllerProc Bytes α}
    {Q : Except ControllerError α → World Bytes → Prop} (hinv : WorldInv fmt S world)
    (hQ : ∀ e after, RegistryOnly world after → Q (.error e) after)
    (hf : ∀ audit after, RegistryOnly world after → Meets (f audit) after (Safely fmt S) Q) :
    Meets (claimAudit fmt contracts admitted audit >>= f) world (Safely fmt S) Q := by
  unfold claimAudit
  rw [meets_bind, meets_bind, meets_attempt]
  refine claimExecutionIdentity_meets
    (fun after honly => (hinv.of_registryOnly honly).safely (by simp)) fun result after honly => ?_
  dsimp only
  rw [meets_lift]
  cases auditAfterClaim contracts admitted audit result with
  | error e => exact hQ e after honly
  | ok audit => exact hf audit after honly

variable (hinv : WorldInv fmt S world)
  (hread : readCurrent fmt world.registry call.bridgeRunId (world.run call.bridgeRunId) =
    .ok admitted.current)
  (hplan : admitted.binding.plan.bridgeRunId = call.bridgeRunId)
  (hrole : call.role ∈ world.executedIn call.bridgeRunId ∧ ¬ S call.bridgeRunId call.role)

include hinv hread hplan hrole

theorem publishFailure_meets {transactionId : String} {publishedAt : Int}
    {audit : BridgeExecutionAudit} (honly : RegistryOnly world after) :
    Meets (publishFailure fmt admitted call.role transactionId publishedAt audit) after
      (Safely fmt S) fun _ after => WorldInv fmt S after := by
  unfold publishFailure
  rw [meets_lift_bind]
  refine ⟨fun e _ => hinv.of_registryOnly honly, fun publication hpublication => ?_⟩
  obtain ⟨hrun, existing, hexisting, happend⟩ := failurePublication_ok hpublication
  have haudits := hinv.append_audits hread hexisting happend fun other hname => by
    rw [(roleArtifactName_inj (List.mem_singleton.1 hname)).1]
    exact hrole
  refine publishAndRead_meets (hinv.of_registryOnly honly) fun other hname => ?_
  obtain ⟨registry, rfl⟩ := honly
  rw [hrun, hplan]
  exact haudits other hname

/-- Whatever the transport did, what follows keeps the invariant. -/
theorem settleRole_meets (answer : Answer) :
    Meets (settleRole fmt contracts ctx call admitted answer) world (Safely fmt S)
      fun _ after => WorldInv fmt S after := by
  unfold settleRole
  cases answer with
  | unclassified =>
    dsimp only
    rw [meets_lift_bind]
    refine ⟨fun e _ => hinv, fun audit _ => ?_⟩
    refine claimAudit_bind_meets hinv (fun e after honly => hinv.of_registryOnly honly)
      fun audit after honly => ?_
    rw [meets_bind, meets_attempt]
    refine (publishFailure_meets hinv hread hplan hrole honly).mono (fun _ _ h => h)
      fun result after h => ?_
    cases result with
    | ok published => exact meets_pure.2 h
    | error e => exact meets_raise.2 h
  | failed failure evidence =>
    dsimp only
    rw [meets_lift_bind]
    refine ⟨fun e _ => hinv, fun audit _ => ?_⟩
    exact claimAudit_bind_meets hinv (fun e after honly => hinv.of_registryOnly honly)
      fun audit after honly => publishFailure_meets hinv hread hplan hrole honly
  | accepted result roleResult evidence =>
    dsimp only
    rw [meets_lift_bind]
    refine ⟨fun e _ => hinv, fun audit _ => ?_⟩
    refine claimAudit_bind_meets hinv (fun e after honly => hinv.of_registryOnly honly)
      fun audit after honly => ?_
    by_cases hsucceeded : audit.effectState ≠ .succeeded
    · rw [if_pos hsucceeded]
      exact publishFailure_meets hinv hread hplan hrole honly
    · rw [if_neg hsucceeded, meets_lift_bind]
      refine ⟨fun e _ => hinv.of_registryOnly honly, fun publication hpublication => ?_⟩
      obtain ⟨hrun, existing, additions, hexisting, happend, honlyRole⟩ :=
        successPublication_ok hpublication
      have haudits := hinv.append_audits hread hexisting happend fun other hname => by
        rw [honlyRole other hname]
        exact hrole
      refine publishAndRead_meets (hinv.of_registryOnly honly) fun other hname => ?_
      obtain ⟨registry, rfl⟩ := honly
      rw [hrun, hplan]
      exact haudits other hname

end Settle

theorem executeConfirmedRole_meets (hinv : WorldInv fmt S world) (call : ExecuteRole) :
    Meets (executeConfirmedRole fmt contracts ctx call) world (Safely fmt S)
      fun _ after => WorldInv fmt S after := by
  unfold executeConfirmedRole handOver
  rw [meets_bind]
  refine (admitRole_meets hinv call).mono (fun _ _ h => h) fun result after h => ?_
  obtain ⟨hafter, hhanded⟩ := h
  cases result with
  | error e => exact hafter
  | ok admitted =>
    have hready := hhanded admitted rfl
    have hsafe : Safely fmt S (.execute call.bridgeRunId call.role) after := by
      refine ⟨hafter, ?_⟩
      rintro _ _ ⟨⟩
      exact ⟨hready.launchable, hready.fresh, hready.unblocked⟩
    have hexecuted : call.role ∈ (after.handedOver call.bridgeRunId call.role).executedIn
        call.bridgeRunId := by
      rw [executedIn_handedOver_self]
      exact List.mem_append_right _ List.mem_cons_self
    dsimp only
    rw [meets_bind, meets_atomic]
    exact ⟨hsafe, settleRole_meets (hready.inv hafter) hready.read hready.plan
      ⟨hexecuted, hready.unblocked _⟩ _⟩

/-! ## Calls -/

/-- The step lemma: every call keeps the invariant wherever it is cut off. -/
theorem call_meets (hinv : WorldInv fmt S world) (call : ControllerCall) :
    Meets (call.proc fmt contracts ctx) world (Safely fmt S) fun _ after => WorldInv fmt S after := by
  cases call with
  | prepareRun call => exact prepareRun_meets hinv call
  | confirmRole call => exact confirmRole_meets hinv call
  | executeConfirmedRole call => exact executeConfirmedRole_meets hinv call

theorem Leads.inv {after : World Bytes} (h : Leads fmt contracts world after)
    (hinv : WorldInv fmt S world) : WorldInv fmt S after := by
  induction h with
  | refl => exact hinv
  | call _ hleaves ih =>
    exact ((call_meets ih _).mono (fun _ _ h => h.1) fun _ _ h => h).leaves hleaves

theorem Executes.of_inv (hinv : WorldInv fmt S world) : Executes fmt world where
  once := by
    refine nodup_of_executedIn fun runId => ?_
    rw [hinv.inOrder runId]
    exact List.Nodup.sublist (List.take_sublist _ _) (by decide)
  inOrder := hinv.inOrder
  results := by
    intro runId
    obtain ⟨orphan, chain, hshape, -⟩ := hinv.runs runId
    cases chain with
    | nil => exact .inl hshape.current
    | cons x rest =>
      have hserial := verifyExecutionProgression_ok hshape.lineage.1.accepted.progression
      exact .inr ⟨x.2, ⟨hshape.current, hshape.readRevision⟩, hserial.result⟩

/-! ## Stranded roles -/

/-- The invariant holds with a stranded role in it. -/
theorem Stranded.inv {stranded : BridgeRole} (hinv : WorldInv fmt (fun _ _ => False) world)
    (h : Stranded fmt runId stranded world) :
    WorldInv fmt (fun run role => run = runId ∧ role = stranded) world where
  runs := by
    intro other
    obtain ⟨orphan, chain, hshape, hrun⟩ := hinv.runs other
    refine ⟨orphan, chain, hshape, ?_⟩
    obtain ⟨⟨revision, ⟨hcurrent, hrevision⟩, hadmitted⟩, hunaudited⟩ := h
    constructor
    · rintro role (hrole | ⟨rfl, rfl⟩)
      · exact hrun.admitted role (.inl hrole)
      · cases chain with
        | nil =>
          rw [hshape.current] at hcurrent
          cases hcurrent
        | cons x rest =>
          have hpointer : x.2.pointer = revision.pointer := by
            rw [hshape.current, List.head?_cons, Option.map_some, Option.some.injEq] at hcurrent
            have := congrArg fmt.parsePointer hcurrent
            rwa [fmt.parsePointer_encode, fmt.parsePointer_encode, Option.some.injEq] at this
          have hsame : x.2 = revision := by
            have := hshape.readRevision
            rw [hpointer, hrevision] at this
            exact (Except.ok.inj this).symm
          exact ⟨x, rfl, hsame ▸ hadmitted⟩
    · have hnever : ∀ {entry : Entry Bytes} {revision : Revision Bytes},
          entry ∈ (world.run other).revisions → Loads fmt other entry revision →
          ∀ role, isPresent revision.artifacts role .audit = true →
            role ∈ world.executedIn other → role ∈ world.executedIn other ∧
              ¬ (other = runId ∧ role = stranded) := by
        rintro entry revision hentry hloads role hpresent hexecuted
        refine ⟨hexecuted, ?_⟩
        rintro ⟨rfl, rfl⟩
        exact hunaudited entry hentry (hloads.holds hpresent)
      refine ⟨fun x hx role hpresent => ?_, fun entry hentry revision hloads role hpresent => ?_⟩
      · have hmem : x.1 ∈ (world.run other).revisions := by
          rw [hshape.revisions]
          exact List.mem_append_right _ (List.mem_map_of_mem hx)
        exact hnever hmem (hshape.lineage.loads x hx) role hpresent
          (hrun.audits.chain x hx role hpresent).1
      · have hmem : entry ∈ (world.run other).revisions := by
          rw [hshape.revisions]
          exact List.mem_append_left _ (by simpa using hentry)
        exact hnever hmem hloads role hpresent
          (hrun.audits.orphan entry hentry revision hloads role hpresent).1
  inOrder := hinv.inOrder

/-- Over any calls of the controller on one store, each cut off anywhere, a
role is executed at most once and in its order, only on a published admission
that was confirmed in time, and not any more once one is stranded in its run. -/
theorem controller_executes_at_most_once (h : Leads fmt contracts World.empty world) :
    Executes fmt world ∧
      (∀ ctx (call : ControllerCall) runId role during,
        (ControllerStep.execute runId role, during) ∈ (call.proc fmt contracts ctx world).1 →
          Launchable fmt runId role during ∧ (runId, role) ∉ during.executed) ∧
      ∀ runId stranded, Stranded fmt runId stranded world →
        ∀ after, Leads fmt contracts world after →
          ∀ ctx (call : ControllerCall) role during,
            (ControllerStep.execute runId role, during) ∉ (call.proc fmt contracts ctx after).1 := by
  have hinv := h.inv WorldInv.empty
  refine ⟨Executes.of_inv hinv, fun ctx call runId role during hstep => ?_,
    fun runId stranded hstranded after hafter ctx call role during hstep => ?_⟩
  · obtain ⟨-, hsafe⟩ := (call_meets hinv call).during _ _ hstep
    obtain ⟨hlaunchable, hfresh, -⟩ := hsafe runId role rfl
    refine ⟨hlaunchable, fun hmem => hfresh ?_⟩
    exact List.mem_filterMap.2 ⟨_, hmem, by simp⟩
  · obtain ⟨-, hsafe⟩ := (call_meets (hafter.inv (hstranded.inv hinv)) call).during _ _ hstep
    exact (hsafe runId role rfl).2.2 stranded ⟨rfl, rfl⟩

/-! ## A run whose first role is executed -/

namespace FirstRole

def fixtures : Contracts where
  assignmentId _ _ role := "assignment-" ++ role.digit
  attemptId _ _ role := "attempt-" ++ role.digit
  portable _ := true
  policySha256 _ := "policy"
  planSha256 _ := "plan"
  confirmationSha256 confirmation := confirmation.confirmationId
  admissionSha256 admission := admission.attempt.assignmentId
  auditSha256 audit := audit.attempt.assignmentId
  observedIdentitySha256 _ _ := "identity"
  requestText context := .ok ⟨"envelope", "bytes", "request-" ++ context.role.digit, "content"⟩
  parseOutput response :=
    if response = "answer" then some ⟨.localOnly, "bridge-run", .strategyAnalyst, "assignment-0",
      "attempt-0", modeCoreIdentity .localOnly, "evidence", "conclusions"⟩
    else none
  expectedEvidenceReferences _ := "evidence"
  adjudicationForReport _ := "conclusions"
  responseSize _ := 1
  resultSha256 _ response := response

/-- A call at this instant, with transactions that end in these digits. -/
def callAt (now : Int) (first second : String) : CallContext where
  clock _ := now
  transactionId n := "txn-0000000000000000000000000000000" ++ if n = 0 then first else second

def preparation : PrepareRun where
  bridgeRunId := "bridge-run"
  sourceContext := ⟨⟨"terminal manifest", "terminal run"⟩, "source"⟩
  authMode := .localOnly
  apiMaxCostMicroUsd := none
  roleConformance := .ok (BRIDGE_ROLE_ORDER.map fun role => ⟨role, false, "binding"⟩)
  planContent := "plan"

def confirmation : ConfirmRole where
  bridgeRunId := "bridge-run"
  role := .strategyAnalyst
  authority := "local user"
  confirmationId := "confirmation"
  idempotencyKey := "key"
  expectedRequestSha256 := "request-0"
  expectedRequestBytesSha256 := "bytes"
  expectedEnvelopeSha256 := "envelope"
  expectedRuntimePolicySha256 := "policy"
  expectedAuthMode := .localOnly
  expectedIdentity := modeCoreIdentity .localOnly
  expectedRemoteRetentionPolicy := "none_local_only"
  expectedCurrent := ⟨none, none, none, none⟩

def identifier : Sha256 := "0000000000000000000000000000000000000000000000000000000000000000"

def result : BridgeTransportResult where
  authMode := .localOnly
  responseBytes := "answer"
  usage := ⟨0, 0, 0, 0, none, .notApplicable⟩
  modelIdentityEvidence := .directObservation
  observed := ⟨none, some "local_provider", none, none⟩
  runtimeIdentity := "poker-deliberation-local/0.1.0"
  threadIdSha256 := identifier
  turnIdSha256 := identifier
  launchedAt := 2
  completedAt := 2
  durationMs := 0
  streamBytes := 1
  itemTypes := ["agent_message"]

def execution (outcome : TransportOutcome) : ExecuteRole where
  bridgeRunId := "bridge-run"
  role := .strategyAnalyst
  authMode := .localOnly
  currentSourceTerminalManifestSha256 := "terminal manifest"
  transport := ⟨.localOnly, fun _ => outcome, fun _ _ => .ok none⟩

/-- The store after these calls, none of them cut off. -/
def after (calls : List (CallContext × ControllerCall)) : World Document :=
  calls.foldl (fun world call => (call.2.proc Document.format fixtures call.1 world).2.2) World.empty

theorem leads_after (calls : List (CallContext × ControllerCall)) :
    Leads Document.format fixtures World.empty (after calls) := by
  unfold after
  induction calls using List.reverseRecOn with
  | nil => exact .refl
  | append_singleton calls call ih =>
    rw [List.foldl_concat]
    exact .call ih .done

def calls (outcome : TransportOutcome) : List (CallContext × ControllerCall) :=
  [(callAt 0 "1" "a", .prepareRun preparation), (callAt 1 "2" "b", .confirmRole confirmation),
    (callAt 2 "3" "c", .executeConfirmedRole (execution outcome))]

end FirstRole

open FirstRole in
/-- The first role of a run is executed once, and what holds of every store
holds of the one it leaves. -/
theorem first_role_executed_once :
    (after (calls (.returned result))).executed = [("bridge-run", .strategyAnalyst)] ∧
      Executes Document.format (after (calls (.returned result))) :=
  ⟨by decide +kernel, (controller_executes_at_most_once (leads_after _)).1⟩

end PokerDeliberation.Bridge
