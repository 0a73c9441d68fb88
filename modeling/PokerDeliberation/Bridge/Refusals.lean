import PokerDeliberation.Bridge.Runs
import Mathlib.Data.List.Dedup
import Mathlib.Data.List.Pairwise

/-!
# Acceptable artifact sets

What makes the artifact set of a request acceptable, and what is needed for a
set that is not to be refused with `BridgeStorageError`.
-/

namespace PokerDeliberation.Bridge

open Lib Lib.Interruptible

variable {Bytes : Type} {fmt : Format Bytes} {registry : Registry}
  {request : BridgePublishRequest} {run t : RunDirectory Bytes} {orphan : Option (Entry Bytes)}
  {chain : List (Entry Bytes × Revision Bytes)} {prepared : PreparedPublication Bytes}
  {expected : Option (VerifiedBridgeRead Bytes)}

/-! ## The sets -/

def BridgePublishRequest.files (fmt : Format Bytes) (request : BridgePublishRequest) :
    Artifacts Bytes :=
  request.artifacts.map fun artifact => (artifact.logicalName, fmt.encode artifact.model)

/-- An artifact of that name has that kind. -/
def Holds (request : BridgePublishRequest) (name : String) (kind : BridgeArtifactKind) : Prop :=
  ∃ artifact ∈ request.artifacts, artifact.logicalName = name ∧ artifact.artifactKind = kind

/-- The artifact set of a request may follow that of its parent. -/
structure Acceptable (fmt : Format Bytes) (parent : Option (Revision Bytes))
    (request : BridgePublishRequest) : Prop where
  distinct : request.names.Nodup
  storable : ∀ artifact ∈ request.artifacts, fmt.Storable artifact
  total : (request.artifacts.map fun artifact => fmt.size (fmt.encode artifact.model)).sum ≤
    MAX_BRIDGE_REVISION_BYTES
  count : request.artifacts.length ≤ 64
  plan : fmt.planAt (request.files fmt) = .ok request.runPlan
  source : ∃ context, fmt.sourceAt (request.files fmt) = .ok context ∧
    context.source = request.runPlan.source
  modes : ∀ artifact ∈ request.artifacts, ∀ model,
    fmt.parse artifact.artifactKind (fmt.encode artifact.model) = some model →
      model.authMode.getD request.runPlan.authMode = request.runPlan.authMode
  keeps : ∀ revision ∈ parent, ∀ line ∈ revision.manifest.inventory,
    (∃ artifact ∈ request.artifacts, fmt.lineOf artifact = line) ∧
      (request.files fmt).lookup line.logicalName = revision.artifacts.lookup line.logicalName
  serial : Serial fmt (request.files fmt) request.status
  separate : Separate request.names
  ownPaths : ∀ name ∈ request.names, normal name = name

theorem Inventoried.files_eq {inventory : List BridgeArtifactInventory} {encoded : Artifacts Bytes}
    (h : Inventoried fmt request.artifacts inventory encoded) : encoded = request.files fmt := h.files

/-! ## Errors of a preparation -/

theorem raisesOnly_checkFields : RaisesOnly .bridgeStorageError (checkFields request) := by
  unfold checkFields
  simp only [raisesOnly_bind, raisesOnly_require]
  refine ⟨by simp, fun _ _ => ⟨by simp, fun _ _ => ?_⟩⟩
  split <;> simp

theorem raisesOnly_artifactInventory (artifacts : List BridgeStoredArtifact) :
    RaisesOnly .bridgeStorageError (artifactInventory fmt artifacts) := by
  unfold artifactInventory
  rw [raisesOnly_bind]
  refine ⟨raisesOnly_foldlM _ fun _ artifact _ encoded _ _ => ?_, fun _ _ => ?_⟩
  · simp only [encodeArtifact, validateLogicalName, raisesOnly_bind, raisesOnly_require]
    simp
  · simp only [raisesOnly_bind, raisesOnly_require]
    simp

theorem fullName_mem {name : String} {kind : BridgeArtifactKind} (h : Holds request name kind)
    {inventory : List BridgeArtifactInventory} {encoded : Artifacts Bytes}
    (hinventoried : Inventoried fmt request.artifacts inventory encoded) :
    ∃ bytes model, encoded.lookup name = some bytes ∧ fmt.parse kind bytes = some model := by
  obtain ⟨artifact, hartifact, rfl, rfl⟩ := h
  have hkind := (hinventoried.storable artifact hartifact).kind
  obtain ⟨model, hmodel⟩ := Option.isSome_iff_exists.1 ((fmt.parse_encode _ artifact.model).2 hkind)
  exact ⟨_, model, hinventoried.lookup hartifact, hmodel⟩

theorem raisesOnly_checkAnchors {inventory : List BridgeArtifactInventory}
    {encoded : Artifacts Bytes} (hinventoried : Inventoried fmt request.artifacts inventory encoded)
    (hplan : Holds request "run_plan.json" .runPlan)
    (hsource : Holds request "source_context.json" .sourceContext) :
    RaisesOnly .bridgeStorageError (checkAnchors fmt request.runPlan encoded) := by
  obtain ⟨bytes, model, hlookup, hmodel⟩ := fullName_mem hplan hinventoried
  obtain ⟨bytes', model', hlookup', hmodel'⟩ := fullName_mem hsource hinventoried
  have hkind := fmt.parse_kind hmodel
  have hkind' := fmt.parse_kind hmodel'
  cases model <;> simp [BridgeArtifactModel.kind] at hkind
  cases model' <;> simp [BridgeArtifactModel.kind] at hkind'
  unfold checkAnchors
  simp [raisesOnly_bind, Format.planAt, Format.sourceAt, artifactAt, hlookup, hlookup',
    Format.parseModel, hmodel, hmodel']

theorem raisesOnly_checkModes {inventory : List BridgeArtifactInventory}
    {encoded : Artifacts Bytes} (hinventoried : Inventoried fmt request.artifacts inventory encoded) :
    RaisesOnly .bridgeStorageError (checkModes fmt request.runPlan inventory encoded) := by
  refine raisesOnly_forM _ fun line hline => ?_
  obtain ⟨artifact, hartifact, rfl⟩ := hinventoried.mem.1 hline
  have hkind := (hinventoried.storable artifact hartifact).kind
  obtain ⟨model, hmodel⟩ := Option.isSome_iff_exists.1 ((fmt.parse_encode _ artifact.model).2 hkind)
  simp [raisesOnly_bind, artifactAt, Format.lineOf, hinventoried.lookup hartifact, Format.parseModel,
    hmodel]

theorem sortedUnique_of_sort {artifacts : List BridgeStoredArtifact}
    (hnodup : (artifacts.map (·.logicalName)).Nodup) :
    SortedUnique ((sortByName (artifacts.map fmt.lineOf)).map (·.logicalName)) := by
  unfold SortedUnique sortByName
  have hperm := List.perm_insertionSort
    (fun x y : BridgeArtifactInventory => x.logicalName ≤ y.logicalName) (artifacts.map fmt.lineOf)
  have hsorted := List.pairwise_insertionSort
    (fun x y : BridgeArtifactInventory => x.logicalName ≤ y.logicalName) (artifacts.map fmt.lineOf)
  have hnodup' := hnodup
  rw [show artifacts.map (·.logicalName) = (artifacts.map fmt.lineOf).map (·.logicalName) by
    rw [List.map_map]; rfl, ← (hperm.map _).nodup_iff] at hnodup'
  rw [hnodup'.dedup]
  exact (List.Pairwise.insertionSort_eq (List.pairwise_map.2 hsorted)).symm

/-! ## Errors of a progression -/

open BridgeRole in
/-- What comes before a role in the loop are the earlier roles. -/
theorem earlier_of_split {done rest : List BridgeRole} {role : BridgeRole}
    (h : BRIDGE_ROLE_ORDER = done ++ role :: rest) : done = role.earlier := by
  have hlength := congrArg List.length h
  have htake : BRIDGE_ROLE_ORDER.take done.length = done := by rw [h, List.take_left]
  have hget : BRIDGE_ROLE_ORDER[done.length]? = some role := by
    rw [h, List.getElem?_append_right (Nat.le_refl _)]
    simp
  have hindex : role.index = done.length := by
    rw [List.length_append, List.length_cons] at hlength
    change 5 = _ at hlength
    rcases hd : done.length with _ | _ | _ | _ | _ | n <;> rw [hd] at hget
    case succ.succ.succ.succ.succ => omega
    all_goals
      cases hget
      rfl
  rw [← htake, BridgeRole.earlier, hindex]

theorem raisesOnly_progression (hprepared : Prepared fmt request prepared)
    (hkinds : ∀ role progress, role.earlier.foldlM (progressRole fmt prepared.revision.artifacts)
      ⟨[], 0, []⟩ = .ok progress → checkPresence prepared.revision.artifacts role = .ok () →
      ∀ artifact ∈ request.artifacts, ∀ file, artifact.logicalName = roleArtifactName role file →
        artifact.artifactKind = file.kind)
    {status : BridgeTerminalStatus} {completionMarkerPresent : Bool} :
    RaisesOnly .bridgeStorageError (verifyExecutionProgression fmt prepared.revision.artifacts status
      completionMarkerPresent) := by
  have hinventoried := hprepared.inventoried
  unfold verifyExecutionProgression
  rw [raisesOnly_bind]
  refine ⟨raisesOnly_foldlM _ fun done role rest progress hsplit hdone => ?_, fun progress _ => ?_⟩
  · rw [earlier_of_split hsplit] at hdone
    unfold progressRole
    rw [raisesOnly_bind]
    refine ⟨by simp only [checkPresence, raisesOnly_bind, raisesOnly_require]; simp,
      fun _ hpresence => ?_⟩
    rw [raisesOnly_bind]
    refine ⟨raisesOnly_forM _ fun file _ => ?_, fun _ _ => ?_⟩
    · cases hlookup : prepared.revision.artifacts.lookup (roleArtifactName role file) with
      | none => exact raisesOnly_pure
      | some bytes =>
        have hmem := mem_of_lookup hlookup
        rw [hinventoried.files] at hmem
        obtain ⟨artifact, hartifact, heq⟩ := List.mem_map.1 hmem
        obtain ⟨hname, rfl⟩ := Prod.mk.inj heq
        have hkind := hkinds role progress hdone hpresence artifact hartifact file hname
        obtain ⟨model, hmodel⟩ := Option.isSome_iff_exists.1
          ((fmt.parse_encode file.kind artifact.model).2
            ((hinventoried.storable artifact hartifact).kind.trans hkind))
        simp only [raisesOnly_bind, Format.parseModel, hmodel]
        simp
    · simp only
      cases auditOf fmt prepared.revision.artifacts role with
      | none => exact raisesOnly_pure
      | some audit =>
        simp only [raisesOnly_bind, raisesOnly_require]
        refine ⟨by simp, fun _ _ => ?_⟩
        split
        · rw [raisesOnly_bind]
          exact ⟨by simp, fun _ _ => raisesOnly_pure⟩
        · exact raisesOnly_pure
  · simp only [raisesOnly_bind, raisesOnly_require]
    refine ⟨by simp, fun _ _ => ⟨raisesOnly_forM _ fun _ _ => by simp, ?_⟩⟩
    simp

/-! ## Names that are not their own paths -/

theorem Separate.inj {names : List String} (h : Separate names) {name other : String}
    (hname : name ∈ names) (hother : other ∈ names) (heq : parts name = parts other) :
    name = other := by
  by_contra hne
  have hsymm : Std.Symm fun x y => ¬ Overlap (parts x) (parts y) := ⟨fun _ _ hxy hyx => hxy hyx.symm⟩
  refine (List.pairwise_map.1 h).forall hname hother hne ?_
  rw [heq]
  exact Overlap.refl _

/-- A file that is found under the path of another one's name is that one's own. -/
theorem Prepared.find_payload (h : Prepared fmt request prepared) (hseparate : Separate request.names)
    {name : String} (hname : name ∈ request.names) {line : BridgeArtifactInventory}
    (hfind : prepared.revision.manifest.find (normal name) = some line) : normal name = name := by
  obtain ⟨hline, heq⟩ := mem_of_find hfind
  refine hseparate.inj ?_ hname (parts_normal name)
  rw [BridgePublishRequest.names, ← h.inventoried.names.mem_iff, ← heq]
  exact List.mem_map_of_mem hline

theorem Prepared.payload_mem (h : Prepared fmt request prepared) {file : String × Bytes}
    (hfile : file ∈ prepared.payload) : ∃ artifact ∈ request.artifacts,
      artifact.logicalName = file.1 ∧ fmt.encode artifact.model = file.2 := by
  have hlookup := lookup_of_mem h.payload_nodup (k := file.1) (a := file.2) hfile
  rw [h.payload_lookup] at hlookup
  have hmem := mem_of_lookup hlookup
  rw [h.inventoried.files] at hmem
  obtain ⟨artifact, hartifact, heq⟩ := List.mem_map.1 hmem
  exact ⟨artifact, hartifact, Prod.mk.inj heq⟩

/-- Where a name is not its own path the reader refuses the directory as it should. -/
theorem raisesOnly_staged {runId : String} (h : Prepared fmt request prepared)
    (hseparate : Separate request.names) (hforeign : ¬ ∀ name ∈ request.names, normal name = name) :
    RaisesOnly .bridgeStorageError
      (readDirectory fmt runId prepared.revision.pointer prepared.directory) := by
  obtain ⟨hsorted, hpos, hcount, hinventory, hsha⟩ := h.valid
  have hmanifest : RaisesOnly .bridgeStorageError (readManifest fmt prepared.directory) := by
    simp only [readManifest, PreparedPublication.directory, readBounded, raisesOnly_bind,
      raisesOnly_require, raisesOnly_pure, bind_eq_ok, pure_eq_ok]
    refine ⟨by simp, ?_⟩
    rintro bytes ⟨_, -, rfl⟩
    rw [h.bytes, fmt.parseManifest_encode _ hsorted hpos hcount hinventory hsha]
    exact raisesOnly_pure
  unfold readDirectory
  rw [raisesOnly_bind]
  refine ⟨by simp, fun _ _ => ?_⟩
  rw [raisesOnly_bind]
  refine ⟨hmanifest, fun manifest hread => ?_⟩
  obtain rfl := h.readManifest hread
  rw [raisesOnly_bind]
  refine ⟨by simp, fun _ _ => ?_⟩
  rw [raisesOnly_bind]
  constructor
  · refine raisesOnly_mapM _ fun file hfile => ?_
    obtain ⟨source, hsource, rfl⟩ := List.mem_map.1 hfile
    obtain ⟨artifact, hartifact, hname, hbytes⟩ := h.payload_mem hsource
    unfold readPayload
    simp only
    cases hfind : prepared.revision.manifest.find (posix (parts source.1)) with
    | none => simp
    | some line =>
      have hmem : source.1 ∈ request.names := hname ▸ List.mem_map_of_mem hartifact
      have hown := h.find_payload hseparate hmem hfind
      have hline : line = fmt.lineOf artifact := by
        obtain ⟨hmem, heq⟩ := mem_of_find hfind
        obtain ⟨other, hother, rfl⟩ := h.inventoried.mem.1 hmem
        have hsame : other.logicalName = artifact.logicalName := heq.trans (hown.trans hname.symm)
        rw [List.inj_on_of_nodup_map h.inventoried.distinct hother hartifact hsame]
      have hkind := (h.inventoried.storable artifact hartifact).kind
      obtain ⟨model, hmodel⟩ := Option.isSome_iff_exists.1
        ((fmt.parse_encode _ artifact.model).2 hkind)
      simp only [readBounded, raisesOnly_bind, raisesOnly_require, raisesOnly_pure, bind_eq_ok,
        pure_eq_ok, hline, Format.lineOf, Format.parseModel]
      refine ⟨by simp, ?_⟩
      rintro bytes ⟨_, -, rfl⟩
      rw [← hbytes, hmodel]
      simp
  · intro artifacts hartifacts
    refine absurd (fun name hname => ?_) hforeign
    rw [BridgePublishRequest.names, ← h.inventoried.names.mem_iff, ← h.payload] at hname
    obtain ⟨file, hfile, rfl⟩ := List.mem_map.1 hname
    obtain ⟨read, -, hread⟩ := exists_of_forall₂ ((mapM_eq_ok _).1 hartifacts)
      (List.mem_map_of_mem (f := fun file : String × Bytes => (parts file.1, file.2)) hfile)
    obtain ⟨-, line, hfind⟩ := readPayload_ok hread
    refine h.find_payload hseparate ?_ hfind
    rwa [h.payload, h.inventoried.names.mem_iff] at hname

/-! ## Sound requests -/

variable [DecidableEq Bytes]

/-- What no check of the source asks of a request before it relies on it. Each
part is asked only of a request that passes the checks made earlier. -/
structure Sound (fmt : Format Bytes) (registry : Registry) (run : RunDirectory Bytes)
    (request : BridgePublishRequest) : Prop where
  /-- a set that passes as anchored has both anchors, and they are of their kinds -/
  anchors : checkFields request = .ok () → ∀ inventory encoded,
    artifactInventory fmt request.artifacts = .ok (inventory, encoded) →
      Holds request "run_plan.json" .runPlan ∧ Holds request "source_context.json" .sourceContext
  /-- it fits a manifest -/
  count : checkFields request = .ok () → ∀ inventory encoded,
    artifactInventory fmt request.artifacts = .ok (inventory, encoded) →
      checkAnchors fmt request.runPlan encoded = .ok () →
      checkModes fmt request.runPlan inventory encoded = .ok () → request.artifacts.length ≤ 64
  /-- the files of a role that is reached are of their kinds -/
  roleKinds : ∀ prepared expected, prepare fmt request = .ok prepared →
    readExpected fmt registry request.runPlan.bridgeRunId run = .ok expected →
      checkCas request expected = .ok () → checkSuccessor fmt expected prepared.revision = .ok () →
      ∀ role progress, role.earlier.foldlM (progressRole fmt prepared.revision.artifacts) ⟨[], 0, []⟩ =
        .ok progress → checkPresence prepared.revision.artifacts role = .ok () →
      ∀ artifact ∈ request.artifacts, ∀ file, artifact.logicalName = roleArtifactName role file →
        artifact.artifactKind = file.kind
  /-- its files can stand side by side, under their own paths if an orphan waits -/
  layout : ∀ prepared expected, Ready fmt registry request run prepared expected →
    Separate request.names ∧
      (revisionCandidates run prepared.revision.pointer.revision ≠ [] →
        ∀ name ∈ request.names, normal name = name)
  /-- what is about to be current has its claims -/
  claimed : ∀ prepared expected, Ready fmt registry request run prepared expected →
    revisionCandidates run prepared.revision.pointer.revision = [] →
      (∀ name ∈ request.names, normal name = name) →
      verifyCurrentClaims fmt registry prepared.revision = .ok ()

/-- What passes every check before the staging, and is laid out as it should
be, is acceptable. -/
theorem Ready.acceptable (hready : Ready fmt registry request run prepared expected)
    (hseparate : Separate request.names) (hown : ∀ name ∈ request.names, normal name = name) :
    Acceptable fmt (expected.map VerifiedBridgeRead.toRevision) request := by
  have hprepared := prepare_ok hready.prepare
  have hinventoried := hprepared.inventoried
  have hfiles := hinventoried.files_eq
  have hcheck := hready.check
  unfold checkPrepared at hcheck
  simp only [check_bind_eq_ok] at hcheck
  obtain ⟨-, hsuccessor, hprogression⟩ := hcheck
  have hanchors := hprepared.anchors
  unfold checkAnchors at hanchors
  simp only [bind_eq_ok, require_eq_ok] at hanchors
  obtain ⟨plan, hplan, source, hsource, rfl, hbound⟩ := hanchors
  rw [hfiles] at hplan hsource hprogression
  exact {
    distinct := hinventoried.distinct
    storable := hinventoried.storable
    total := by
      have htotal := hinventoried.total
      rwa [(hinventoried.perm.map (·.sizeBytes)).sum_nat, List.map_map] at htotal
    count := by
      have hcount := hprepared.valid.2.2.1
      rwa [hinventoried.perm.length_eq, List.length_map] at hcount
    plan := hplan
    source := ⟨source, hsource, hbound⟩
    modes := by
      intro artifact hartifact model hmodel
      have hround := (forM_eq_ok _).1 hprepared.modes (fmt.lineOf artifact)
        (hinventoried.mem.2 ⟨artifact, hartifact, rfl⟩)
      simp only [artifactAt, Format.lineOf, hinventoried.lookup hartifact, bind_eq_ok,
        require_eq_ok, parseModel_ok] at hround
      obtain ⟨bytes, ⟨⟩, found, hfound, hmode⟩ := hround
      rw [hmodel] at hfound
      cases hfound
      exact hmode
    keeps := by
      cases expected with
      | none => simp
      | some parent =>
        rintro _ ⟨⟩ line hline
        obtain ⟨hext, -⟩ := verifySuccessorSemantics_eq_ok.1 hsuccessor
        refine ⟨hinventoried.mem.1 (mem_of_find (hext.inventory line hline)).1, ?_⟩
        rw [← hfiles]
        exact hext.artifacts line hline
    serial := by
      have := verifyExecutionProgression_ok hprogression
      rwa [hprepared.status_eq] at this
    separate := hseparate
    ownPaths := hown }

theorem raisesOnly_prepare (h : Sound fmt registry run request) :
    RaisesOnly .bridgeStorageError (prepare fmt request) := by
  unfold prepare
  rw [raisesOnly_bind]
  refine ⟨raisesOnly_checkFields, fun _ hfields => ?_⟩
  rw [raisesOnly_bind]
  refine ⟨raisesOnly_artifactInventory _, fun found hfound => ?_⟩
  obtain ⟨inventory, encoded⟩ := found
  have hinventoried := artifactInventory_ok hfound
  obtain ⟨hplan, hsource⟩ := h.anchors hfields inventory encoded hfound
  simp only
  rw [raisesOnly_bind]
  refine ⟨raisesOnly_checkAnchors hinventoried hplan hsource, fun _ hanchors => ?_⟩
  rw [raisesOnly_bind]
  refine ⟨raisesOnly_checkModes hinventoried, fun _ hmodes => ?_⟩
  have hcount := h.count hfields inventory encoded hfound hanchors hmodes
  have hvalid : fmt.ValidManifest (fmt.manifestOf request inventory) := by
    obtain ⟨artifact, hartifact, -⟩ := hplan
    have hlength : inventory.length = request.artifacts.length := by
      rw [hinventoried.perm.length_eq, List.length_map]
    refine ⟨?_, ?_, ?_, rfl, rfl⟩
    · change SortedUnique (inventory.map (·.logicalName))
      rw [hinventoried.lines]
      exact sortedUnique_of_sort hinventoried.distinct
    · change 1 ≤ inventory.length
      rw [hlength]
      exact List.length_pos_of_mem hartifact
    · change inventory.length ≤ 64
      rwa [hlength]
  rw [raisesOnly_bind, raisesOnly_require]
  exact ⟨fun hnot => absurd hvalid hnot, fun _ _ => raisesOnly_pure⟩

omit [DecidableEq Bytes] in
theorem raisesOnly_checkCas : RaisesOnly .bridgeStorageError (checkCas request expected) := by
  unfold checkCas
  split <;> simp

theorem raisesOnly_checkSuccessor {child : Revision Bytes} :
    RaisesOnly .bridgeStorageError (checkSuccessor fmt expected child) := by
  unfold checkSuccessor
  cases expected with
  | none => exact raisesOnly_pure
  | some parent =>
    simp only [verifySuccessorSemantics, raisesOnly_bind, raisesOnly_require]
    simp

theorem raisesOnly_checkPrepared (h : Sound fmt registry run request)
    (hprepare : prepare fmt request = .ok prepared)
    (hread : readExpected fmt registry request.runPlan.bridgeRunId run = .ok expected) :
    RaisesOnly .bridgeStorageError (checkPrepared fmt request expected prepared) := by
  unfold checkPrepared
  rw [raisesOnly_bind]
  refine ⟨raisesOnly_checkCas, fun _ hcas => ?_⟩
  rw [raisesOnly_bind]
  refine ⟨raisesOnly_checkSuccessor, fun _ hsuccessor => ?_⟩
  exact raisesOnly_progression (prepare_ok hprepare)
    (h.roleKinds prepared expected hprepare hread hcas hsuccessor)

end PokerDeliberation.Bridge
