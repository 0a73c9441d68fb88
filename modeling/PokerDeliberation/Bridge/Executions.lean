import PokerDeliberation.Bridge.Decoded

/-!
# Executions and what is published of them

What is said of the roles that a store's controller has executed, and the
invariant of every run that carries it: a role that was executed has its
admission in what is current, and only roles that were executed have audits, in
the lineage and in an orphan alike. Claims and publications keep it.
-/

namespace PokerDeliberation.Bridge

open Lib Lib.Interruptible BridgeRole

/-- The roles of a run that were executed, in order. -/
def World.executedIn {Bytes : Type} (bridgeRunId : String) (world : World Bytes) : List BridgeRole :=
  world.executed.filterMap fun entry => if entry.1 = bridgeRunId then some entry.2 else none

/-! ## What is said of a store -/

section Statements

variable {Bytes : Type} [DecidableEq Bytes] (fmt : Format Bytes)

/-- What is current when a role is handed to the transport. -/
structure Admits (bridgeRunId : String) (role : BridgeRole) (world : World Bytes)
    (current : VerifiedBridgeRead Bytes) (request : BoundedCodexBridgeRequest)
    (confirmation : BridgeRoleConfirmation) (admission : BridgePreExecutionAdmission) : Prop where
  read : readCurrent fmt world.registry bridgeRunId (world.run bridgeRunId) = .ok current
  requested : modelAt fmt current.toRevision (roleArtifactName role .request) (·.request?) =
    .ok request
  confirmed : modelAt fmt current.toRevision (roleArtifactName role .confirmation)
    (·.confirmation?) = .ok confirmation
  admitted : modelAt fmt current.toRevision (roleArtifactName role .admission) (·.admission?) =
    .ok admission
  ofRole : request.attempt.role = role
  confirms : confirmation.Confirms request
  bound : admission.attempt = request.attempt ∧
    admission.confirmationSha256 = confirmation.confirmationSha256
  timely : confirmation.confirmedAt ≤ admission.admittedAt ∧
    admission.admittedAt < confirmation.expiresAt
  earlier : ∀ other ∈ role.earlier, succeeded fmt current.artifacts other = true ∧
    isPresent current.artifacts other .result = true

/-- A role may be handed to the transport. -/
def Launchable (bridgeRunId : String) (role : BridgeRole) (world : World Bytes) : Prop :=
  ∃ current request confirmation admission,
    Admits fmt bridgeRunId role world current request confirmation admission

/-- The revision that a run's pointer names, whether its claims are there or not. -/
def PublishedIn (bridgeRunId : String) (world : World Bytes) (revision : Revision Bytes) : Prop :=
  (world.run bridgeRunId).current = some (fmt.encodePointer revision.pointer) ∧
    readRevision fmt bridgeRunId revision.pointer (world.run bridgeRunId) = .ok revision

/-- A revision's directory has a file of this name. -/
def RevisionDirectory.Holds (name : String) (directory : RevisionDirectory Bytes) : Prop :=
  name ∈ directory.payload.map fun file => posix file.1

/-- The admission of a role is published, and no revision in place has its audit. -/
def Stranded (bridgeRunId : String) (role : BridgeRole) (world : World Bytes) : Prop :=
  (∃ revision, PublishedIn fmt bridgeRunId world revision ∧
    isPresent revision.artifacts role .admission = true) ∧
  ∀ entry ∈ (world.run bridgeRunId).revisions, ¬ entry.2.Holds (roleArtifactName role .audit)

/-- What holds of a store that the controller alone has written. -/
structure Executes (world : World Bytes) : Prop where
  once : world.executed.Nodup
  inOrder : ∀ bridgeRunId, world.executedIn bridgeRunId =
    BRIDGE_ROLE_ORDER.take (world.executedIn bridgeRunId).length
  results : ∀ bridgeRunId, (world.run bridgeRunId).current = none ∨
    ∃ revision, PublishedIn fmt bridgeRunId world revision ∧
      ∀ role, isPresent revision.artifacts role .result = succeeded fmt revision.artifacts role

end Statements

variable {Bytes : Type} {fmt : Format Bytes} {contracts : Contracts}
  {registry : Registry} {request : BridgePublishRequest} {run : RunDirectory Bytes}
  {orphan orphan' : Option (Entry Bytes)} {chain chain' : List (Entry Bytes × Revision Bytes)}
  {runId : String} {world : World Bytes} {role : BridgeRole} {artifact : RoleArtifact} {P : BridgeRole → Prop}

/-! ## The invariant of a run -/

/-- Audits are of such roles only, in the lineage and in the orphan. -/
structure AuditsWithin (fmt : Format Bytes) (runId : String) (P : BridgeRole → Prop)
    (orphan : Option (Entry Bytes)) (chain : List (Entry Bytes × Revision Bytes)) : Prop where
  chain : ∀ x ∈ chain, ∀ role, isPresent x.2.artifacts role .audit = true → P role
  orphan : ∀ entry ∈ orphan, ∀ revision, Loads fmt runId entry revision →
    ∀ role, isPresent revision.artifacts role .audit = true → P role

/-- The current revision has such a file. -/
def HeadHas (chain : List (Entry Bytes × Revision Bytes)) (role : BridgeRole)
    (artifact : RoleArtifact) : Prop :=
  ∃ x ∈ chain.head?, isPresent x.2.artifacts role artifact = true

theorem Prepared.isPresent_requested {prepared : PreparedPublication Bytes}
    {revision : Revision Bytes} (h : Prepared fmt request prepared)
    (hloads : Loads fmt runId prepared.entry revision)
    (hpresent : isPresent revision.artifacts role artifact = true) :
    roleArtifactName role artifact ∈ request.names := by
  obtain ⟨-, -, hartifacts⟩ := h.reads hloads.reads
  rw [isPresent, hartifacts, h.payload_lookup] at hpresent
  exact h.inventoried.lookup_isSome_iff.1 hpresent

theorem AuditsWithin.mono {P' : BridgeRole → Prop} (h : AuditsWithin fmt runId P orphan chain)
    (himp : ∀ role, P role → P' role) : AuditsWithin fmt runId P' orphan chain :=
  ⟨fun x hx role hpresent => himp role (h.chain x hx role hpresent),
    fun entry hentry revision hloads role hpresent =>
      himp role (h.orphan entry hentry revision hloads role hpresent)⟩

theorem World.run_setRun_self {runId : String} : (world.setRun runId run).run runId = run := by
  simp [World.run, World.setRun]

theorem World.run_setRun_ne {runId other : String} (h : other ≠ runId) :
    (world.setRun runId run).run other = world.run other := by
  unfold World.run World.setRun
  rw [lookup_cons_ne h, lookup_filter_ne h]

/-- A file that is read is in the directory. -/
theorem Loads.holds {entry : Entry Bytes} {revision : Revision Bytes} {artifact : RoleArtifact}
    (h : Loads fmt runId entry revision) (hpresent : isPresent revision.artifacts role artifact = true) :
    entry.2.Holds (roleArtifactName role artifact) := by
  obtain ⟨x, hx, hname⟩ := List.mem_map.1 (lookup_isSome.1 hpresent)
  obtain ⟨file, hfile, hread⟩ := exists_of_forall₂ ((mapM_eq_ok _).1 h.accepted.payload).flip hx
  refine List.mem_map.2 ⟨file, hfile, ?_⟩
  rw [← hname, (readPayload_ok hread).1]

theorem nodup_of_executedIn (h : ∀ runId, (world.executedIn runId).Nodup) : world.executed.Nodup := by
  unfold World.executedIn at h
  generalize world.executed = executed at h
  induction executed with
  | nil => exact List.nodup_nil
  | cons entry rest ih =>
    rw [List.nodup_cons]
    constructor
    · intro hmem
      have hnodup := h entry.1
      simp only [List.filterMap_cons, if_true, List.nodup_cons] at hnodup
      exact hnodup.1 (List.mem_filterMap.2 ⟨entry, hmem, by simp⟩)
    · refine ih fun runId => (h runId).sublist ?_
      exact (List.sublist_cons_self entry rest).filterMap _

/-! ## Claims -/

/-- Only claims have been added. -/
def RegistryOnly (world after : World Bytes) : Prop :=
  ∃ registry, after = { world with registry := registry }

variable {D : ControllerStep → World Bytes → Prop} {Q : Except ControllerError Unit → World Bytes → Prop}

theorem writeConfirmationClaims_meets {base : World Bytes} (claims : List ConfirmationClaim)
    (hD : ∀ after, RegistryOnly base after → D .claimConfirmation after)
    (hQ : ∀ after, RegistryOnly base after → Q (.ok ()) after) (h : RegistryOnly base world) :
    Meets (writeConfirmationClaims claims) world D Q := by
  induction claims generalizing world with
  | nil => exact meets_pure.2 (hQ world h)
  | cons claim rest ih =>
    unfold writeConfirmationClaims
    rw [meets_read_bind]
    by_cases hthere : (world.registry.confirmations.lookup claim.1).isSome = true
    · rw [if_pos hthere]
      exact ih h
    · rw [if_neg hthere, meets_bind, meets_atomic]
      refine ⟨hD world h, ih ?_⟩
      obtain ⟨registry, rfl⟩ := h
      exact ⟨_, rfl⟩

theorem writeIdentityClaims_meets {base : World Bytes} (claims : List IdentityClaim)
    (hD : ∀ after, RegistryOnly base after → D .claimIdentity after)
    (hQ : ∀ result after, RegistryOnly base after → Q result after) (h : RegistryOnly base world) :
    Meets (writeIdentityClaims claims) world D Q := by
  induction claims generalizing world with
  | nil => exact meets_pure.2 (hQ _ world h)
  | cons claim rest ih =>
    unfold writeIdentityClaims
    rw [meets_read_bind, meets_lift_bind]
    refine ⟨fun e _ => hQ _ world h, fun _ _ => ?_⟩
    rw [meets_bind, meets_atomic]
    refine ⟨hD world h, ih ?_⟩
    obtain ⟨registry, rfl⟩ := h
    exact ⟨_, rfl⟩

variable [DecidableEq Bytes]

theorem AuditsWithin.advances (h : AuditsWithin fmt request.runPlan.bridgeRunId P orphan chain)
    (hrequest : ∀ role, roleArtifactName role .audit ∈ request.names → P role)
    (hadvances : Advances fmt registry request run orphan chain orphan' chain') :
    AuditsWithin fmt request.runPlan.bridgeRunId P orphan' chain' := by
  cases hadvances with
  | still => exact h
  | stranded hready =>
    refine ⟨h.chain, ?_⟩
    rintro _ ⟨⟩ revision hloads role hpresent
    exact hrequest role ((prepare_ok hready.prepare).isPresent_requested hloads hpresent)
  | adopted hloads =>
    refine ⟨fun x hx role hpresent => ?_, by simp⟩
    rcases List.mem_cons.1 hx with rfl | hx
    · exact h.orphan _ rfl _ hloads role hpresent
    · exact h.chain x hx role hpresent
  | published hready hloads =>
    refine ⟨fun x hx role hpresent => ?_, by simp⟩
    rcases List.mem_cons.1 hx with rfl | hx
    · exact hrequest role ((prepare_ok hready.prepare).isPresent_requested hloads hpresent)
    · exact h.chain x hx role hpresent

theorem Advances.chain_eq (h : Advances fmt registry request run orphan chain orphan' chain') :
    chain' = chain ∨ ∃ x, chain' = x :: chain := by
  cases h with
  | still | stranded _ => exact .inl rfl
  | adopted _ | published _ _ => exact .inr ⟨_, rfl⟩

/-- A revision extends the head of the lineage it is put in front of. -/
theorem Lineage.extends_head {x y : Entry Bytes × Revision Bytes}
    {rest : List (Entry Bytes × Revision Bytes)} (h : Lineage fmt runId (x :: y :: rest)) :
    Extends y.2 x.2 := (verifySuccessorSemantics_eq_ok.1 h.2.1).1

theorem HeadHas.advances (h : HeadHas chain role artifact) (hlineage : Lineage fmt runId chain')
    (hadvances : Advances fmt registry request run orphan chain orphan' chain') :
    HeadHas chain' role artifact := by
  rcases hadvances.chain_eq with rfl | ⟨x, rfl⟩
  · exact h
  · cases chain with
    | nil => exact absurd h (by simp [HeadHas])
    | cons y rest =>
      obtain ⟨_, ⟨⟩, hpresent⟩ := h
      have hparent := hlineage.2.2.1
      exact ⟨x, rfl, hlineage.extends_head.isPresent hparent.accepted hpresent⟩

/-- What a run has of the roles that were executed and of those that are stranded. -/
structure RunInv (fmt : Format Bytes) (executed : List BridgeRole) (stranded : BridgeRole → Prop)
    (runId : String) (orphan : Option (Entry Bytes)) (chain : List (Entry Bytes × Revision Bytes)) :
    Prop where
  admitted : ∀ role, role ∈ executed ∨ stranded role → HeadHas chain role .admission
  audits : AuditsWithin fmt runId (fun role => role ∈ executed ∧ ¬ stranded role) orphan chain

variable {executed : List BridgeRole} {stranded : BridgeRole → Prop}

theorem RunInv.advances (h : RunInv fmt executed stranded request.runPlan.bridgeRunId orphan chain)
    (hlineage : Lineage fmt request.runPlan.bridgeRunId chain')
    (hrequest : ∀ role, roleArtifactName role .audit ∈ request.names →
      role ∈ executed ∧ ¬ stranded role)
    (hadvances : Advances fmt registry request run orphan chain orphan' chain') :
    RunInv fmt executed stranded request.runPlan.bridgeRunId orphan' chain' :=
  ⟨fun role hrole => (h.admitted role hrole).advances hlineage hadvances,
    h.audits.advances hrequest hadvances⟩

/-- What is read is the head of the lineage. -/
theorem Shape.read_head (h : Shape fmt runId run orphan chain) {current : VerifiedBridgeRead Bytes}
    (hread : Bridge.readCurrent fmt registry runId run = .ok current) :
    ∃ entry rest, chain = (entry, current.toRevision) :: rest := by
  cases chain with
  | nil =>
    have hcurrent : run.current = none := h.current
    unfold Bridge.readCurrent readBounded at hread
    rw [hcurrent] at hread
    cases hread
  | cons x rest =>
    rw [h.readCurrent, map_eq_ok] at hread
    obtain ⟨-, -, rfl⟩ := hread
    exact ⟨x.1, rest, rfl⟩

/-! ## The invariant of a store -/

variable {S : String → BridgeRole → Prop}

structure WorldInv (fmt : Format Bytes) (S : String → BridgeRole → Prop) (world : World Bytes) :
    Prop where
  runs : ∀ runId, ∃ orphan chain, Shape fmt runId (world.run runId) orphan chain ∧
    RunInv fmt (world.executedIn runId) (S runId) runId orphan chain
  inOrder : ∀ runId, world.executedIn runId =
    BRIDGE_ROLE_ORDER.take (world.executedIn runId).length

/-- A run is put in place of the one that was there. -/
theorem WorldInv.setRun (h : WorldInv fmt S world) (hshape : Shape fmt runId run orphan chain)
    (hrun : RunInv fmt (world.executedIn runId) (S runId) runId orphan chain) :
    WorldInv fmt S (world.setRun runId run) where
  runs := by
    intro other
    by_cases hother : other = runId
    · subst hother
      exact ⟨orphan, chain, by rw [World.run_setRun_self]; exact hshape, hrun⟩
    · obtain ⟨orphan', chain', hshape', hrun'⟩ := h.runs other
      exact ⟨orphan', chain', by rw [World.run_setRun_ne hother]; exact hshape', hrun'⟩
  inOrder := h.inOrder

theorem WorldInv.setRegistry (h : WorldInv fmt S world) (registry : Registry) :
    WorldInv fmt S { world with registry := registry } := ⟨h.runs, h.inOrder⟩

theorem WorldInv.empty : WorldInv fmt (fun _ _ => False) World.empty where
  runs := fun _ => ⟨none, [], Shape.empty, by simp [World.executedIn, World.empty], ⟨by simp, by simp⟩⟩
  inOrder := by simp [World.executedIn, World.empty]

/-! ## What a step of a call may do -/

/-- The store a call passes: its invariant holds, and the transport is reached
only with a role that may be executed. -/
def Safely (fmt : Format Bytes) (S : String → BridgeRole → Prop) (step : ControllerStep)
    (world : World Bytes) : Prop :=
  WorldInv fmt S world ∧ ∀ runId role, step = .execute runId role →
    Launchable fmt runId role world ∧ role ∉ world.executedIn runId ∧ ∀ other, ¬ S runId other

theorem WorldInv.safely (h : WorldInv fmt S world) {step : ControllerStep}
    (hstep : ∀ runId role, step ≠ .execute runId role) : Safely fmt S step world :=
  ⟨h, fun runId role heq => absurd heq (hstep runId role)⟩

/-- A publication to one run. -/
structure Republished (fmt : Format Bytes) (runId : String) (world after : World Bytes) : Prop where
  registry : after.registry = world.registry
  executed : after.executed = world.executed
  grows : ∀ current published,
    readCurrent fmt world.registry runId (world.run runId) = .ok current →
    readCurrent fmt world.registry runId (after.run runId) = .ok published →
      published.toRevision = current.toRevision ∨ Extends current.toRevision published.toRevision

theorem Advances.republished {t : RunDirectory Bytes}
    (hshape : Shape fmt runId (world.run runId) orphan chain)
    (hshape' : Shape fmt runId t orphan' chain')
    (h : Advances fmt registry request run orphan chain orphan' chain') :
    Republished fmt runId world (world.setRun runId t) where
  registry := rfl
  executed := rfl
  grows := by
    intro current published hcurrent hpublished
    rw [World.run_setRun_self] at hpublished
    obtain ⟨entry, rest, hhead⟩ := hshape.read_head hcurrent
    obtain ⟨entry', rest', hhead'⟩ := hshape'.read_head hpublished
    rcases h.chain_eq with heq | ⟨x, heq⟩
    · rw [hhead, hhead'] at heq
      exact .inl (Prod.mk.inj (List.cons.inj heq).1).2
    · rw [hhead, hhead'] at heq
      cases heq
      have hlineage := hshape'.lineage
      rw [hhead'] at hlineage
      exact .inr hlineage.extends_head

section Publish

variable (hinv : WorldInv fmt S world)
  (hrequest : ∀ role, roleArtifactName role .audit ∈ request.names →
    role ∈ world.executedIn request.runPlan.bridgeRunId ∧ ¬ S request.runPlan.bridgeRunId role)

include hinv hrequest

/-- A publication keeps the invariant, wherever it is cut off. -/
theorem publishRun_meets : Meets (publishRun fmt request) world (Safely fmt S)
    fun _ after => WorldInv fmt S after ∧
      Republished fmt request.runPlan.bridgeRunId world after := by
  obtain ⟨orphan, chain, hshape, hrun⟩ := hinv.runs request.runPlan.bridgeRunId
  have hends : Meets (publish fmt world.registry request) _ _ _ :=
    publish_meets request (world.run request.runPlan.bridgeRunId)
  have hpublish := hends.mono (fun _ _ h => h.shape hshape) (fun _ _ h => h.shape hshape)
  have hafter : ∀ t, (∃ orphan' chain', Shape fmt request.runPlan.bridgeRunId t orphan' chain' ∧
      Advances fmt world.registry request (world.run request.runPlan.bridgeRunId) orphan chain
        orphan' chain') →
      WorldInv fmt S (world.setRun request.runPlan.bridgeRunId t) ∧ Republished fmt
        request.runPlan.bridgeRunId world (world.setRun request.runPlan.bridgeRunId t) := by
    rintro t ⟨orphan', chain', hshape', hadvances⟩
    exact ⟨hinv.setRun hshape' (hrun.advances hshape'.lineage hrequest hadvances),
      hadvances.republished hshape hshape'⟩
  unfold publishRun
  rw [meets_read_bind, meets_bind, meets_attempt, meets_within]
  refine hpublish.mono (fun label t ht => ?_) fun result t ht => ?_
  · exact (hafter t ht).1.safely (by simp)
  · cases result with
    | ok outcome => exact meets_pure.2 (hafter t ht)
    | error e => exact meets_raise.2 (hafter t ht)

end Publish

theorem readCurrentRun_meets {D : ControllerStep → World Bytes → Prop}
    {Q : Except ControllerError (VerifiedBridgeRead Bytes) → World Bytes → Prop} :
    Meets (readCurrentRun fmt runId) world D Q ↔
      Q ((readCurrent fmt world.registry runId (world.run runId)).mapError .store) world := by
  unfold readCurrentRun
  rw [meets_read_bind, meets_lift]

theorem claimConfirmationIdentifiers_meets {attempt : Attempt} {confirmationId key : String}
    (hD : ∀ after, RegistryOnly world after → D .claimConfirmation after)
    (hQ : ∀ result after, RegistryOnly world after → Q result after) :
    Meets (claimConfirmationIdentifiers fmt attempt confirmationId key) world D Q := by
  have hsame : RegistryOnly world world := ⟨world.registry, rfl⟩
  unfold claimConfirmationIdentifiers
  rw [meets_read_bind, meets_lift_bind]
  refine ⟨fun e _ => hQ _ _ hsame, fun _ _ => ?_⟩
  rw [meets_bind]
  refine writeConfirmationClaims_meets _ hD (fun after h => ?_) hsame
  rw [meets_read_bind, meets_lift]
  exact hQ _ _ h

theorem claimExecutionIdentity_meets {audit : BridgeExecutionAudit}
    (hD : ∀ after, RegistryOnly world after → D .claimIdentity after)
    (hQ : ∀ result after, RegistryOnly world after → Q result after) :
    Meets (claimExecutionIdentity fmt audit) world D Q := by
  have hsame : RegistryOnly world world := ⟨world.registry, rfl⟩
  unfold claimExecutionIdentity
  split
  · exact meets_pure.2 (hQ _ _ hsame)
  · rw [meets_lift_bind]
    refine ⟨fun e _ => hQ _ _ hsame, fun _ _ => ?_⟩
    rw [meets_read_bind, meets_lift_bind]
    refine ⟨fun e _ => hQ _ _ hsame, fun _ _ => ?_⟩
    rw [meets_bind]
    refine writeIdentityClaims_meets _ hD (fun result after h => ?_) hsame
    cases result with
    | error e => exact hQ _ _ h
    | ok _ =>
      dsimp only
      rw [meets_read_bind, meets_lift]
      exact hQ _ _ h

theorem WorldInv.of_registryOnly {after : World Bytes} (h : WorldInv fmt S world)
    (honly : RegistryOnly world after) : WorldInv fmt S after := by
  obtain ⟨registry, rfl⟩ := honly
  exact h.setRegistry registry

end PokerDeliberation.Bridge
