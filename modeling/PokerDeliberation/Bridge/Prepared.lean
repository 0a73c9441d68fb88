import PokerDeliberation.Bridge.Steps

/-!
# Prepared publications

What `prepare` has checked of a request, and what the reader finds in the
directory that is staged from it: if it accepts the directory at all, every
name is its own path, and the artifacts are those of the request.
-/

namespace PokerDeliberation.Bridge

open Lib Lib.Interruptible

variable {Bytes : Type} {fmt : Format Bytes} {runId : String}

/-! ## Inventories -/

def BridgePublishRequest.names (request : BridgePublishRequest) : List String :=
  request.artifacts.map (·.logicalName)

/-- The line of an artifact in the inventory. -/
def Format.lineOf (fmt : Format Bytes) (artifact : BridgeStoredArtifact) :
    BridgeArtifactInventory where
  logicalName := artifact.logicalName
  artifactKind := artifact.artifactKind
  sha256 := fmt.sha256 (fmt.encode artifact.model)
  sizeBytes := fmt.size (fmt.encode artifact.model)

/-- What each artifact of an inventory has been checked for. -/
structure Format.Storable (fmt : Format Bytes) (artifact : BridgeStoredArtifact) : Prop where
  name : validateLogicalName artifact.logicalName = .ok ()
  kind : artifact.model.kind = artifact.artifactKind
  size : fmt.size (fmt.encode artifact.model) ≤ MAX_BRIDGE_ARTIFACT_BYTES

theorem encodeArtifact_ok {encoded encoded' : List (BridgeArtifactInventory × Bytes)}
    {artifact : BridgeStoredArtifact} (h : encodeArtifact fmt encoded artifact = .ok encoded') :
    fmt.Storable artifact ∧ artifact.logicalName ∉ encoded.map (·.1.logicalName) ∧
      encoded' = encoded ++ [(fmt.lineOf artifact, fmt.encode artifact.model)] := by
  unfold encodeArtifact at h
  simp only [bind_eq_ok, require_eq_ok, exists_const, pure_eq_ok] at h
  obtain ⟨⟨⟩, hname, hfresh, hkind, hsize, rfl⟩ := h
  exact ⟨⟨hname, hkind, hsize⟩, hfresh, rfl⟩

/-- The loop over the artifacts, when it ends. -/
theorem encodeArtifacts_ok {artifacts : List BridgeStoredArtifact}
    {encoded : List (BridgeArtifactInventory × Bytes)}
    (h : artifacts.foldlM (encodeArtifact fmt) [] = .ok encoded) :
    encoded = artifacts.map (fun artifact => (fmt.lineOf artifact, fmt.encode artifact.model)) ∧
      (artifacts.map (·.logicalName)).Nodup ∧ ∀ artifact ∈ artifacts, fmt.Storable artifact := by
  refine runs_induction (I := fun done encoded =>
    encoded = done.map (fun artifact => (fmt.lineOf artifact, fmt.encode artifact.model)) ∧
      (done.map (·.logicalName)).Nodup ∧ ∀ artifact ∈ done, fmt.Storable artifact)
    ⟨rfl, List.nodup_nil, by simp⟩ ?_ h
  rintro done encoded artifact encoded' ⟨rfl, hnodup, hall⟩ hstep
  obtain ⟨hstorable, hfresh, rfl⟩ := encodeArtifact_ok hstep
  refine ⟨by simp, ?_, ?_⟩
  · rw [List.map_map] at hfresh
    rw [List.map_append, List.nodup_append]
    refine ⟨hnodup, by simp, ?_⟩
    intro name hname other hother heq
    rw [List.map_singleton, List.mem_singleton] at hother
    exact hfresh (by rw [← hother, ← heq]; exact hname)
  · intro other hother
    rcases List.mem_append.1 hother with hother | hother
    · exact hall other hother
    · rw [List.mem_singleton.1 hother]
      exact hstorable

/-- An artifact set that passed `_artifact_inventory`. -/
structure Inventoried (fmt : Format Bytes) (artifacts : List BridgeStoredArtifact)
    (inventory : List BridgeArtifactInventory) (encoded : Artifacts Bytes) : Prop where
  distinct : (artifacts.map (·.logicalName)).Nodup
  storable : ∀ artifact ∈ artifacts, fmt.Storable artifact
  anchored : ¬ ProperlyWithinAnchors (artifacts.map (·.logicalName))
  lines : inventory = sortByName (artifacts.map fmt.lineOf)
  files : encoded = artifacts.map fun artifact => (artifact.logicalName, fmt.encode artifact.model)
  total : (inventory.map (·.sizeBytes)).sum ≤ MAX_BRIDGE_REVISION_BYTES

theorem artifactInventory_ok {artifacts : List BridgeStoredArtifact}
    {inventory : List BridgeArtifactInventory} {encoded : Artifacts Bytes}
    (h : artifactInventory fmt artifacts = .ok (inventory, encoded)) :
    Inventoried fmt artifacts inventory encoded := by
  unfold artifactInventory at h
  simp only [bind_eq_ok, require_eq_ok, exists_const, pure_eq_ok, Prod.mk.injEq] at h
  obtain ⟨found, hfound, hanchored, htotal, hinventory, hencoded⟩ := h
  obtain ⟨rfl, hnodup, hall⟩ := encodeArtifacts_ok hfound
  simp only [List.map_map] at hanchored hinventory hencoded htotal
  exact {
    distinct := hnodup
    storable := hall
    anchored := hanchored
    lines := hinventory.symm
    files := hencoded.symm
    total := by
      rw [← hinventory]
      simpa using htotal }

namespace Inventoried

variable {artifacts : List BridgeStoredArtifact} {inventory : List BridgeArtifactInventory}
  {encoded : Artifacts Bytes}

theorem perm (h : Inventoried fmt artifacts inventory encoded) :
    inventory.Perm (artifacts.map fmt.lineOf) := by
  rw [h.lines]
  exact List.perm_insertionSort _ _

theorem mem (h : Inventoried fmt artifacts inventory encoded) {line : BridgeArtifactInventory} :
    line ∈ inventory ↔ ∃ artifact ∈ artifacts, fmt.lineOf artifact = line := by
  rw [h.perm.mem_iff, List.mem_map]

theorem names (h : Inventoried fmt artifacts inventory encoded) :
    (inventory.map (·.logicalName)).Perm (artifacts.map (·.logicalName)) := by
  have := h.perm.map (·.logicalName)
  rwa [List.map_map] at this

theorem lookup (h : Inventoried fmt artifacts inventory encoded) {artifact : BridgeStoredArtifact}
    (hmem : artifact ∈ artifacts) :
    encoded.lookup artifact.logicalName = some (fmt.encode artifact.model) := by
  have hnodup : (encoded.map Prod.fst).Nodup := by
    rw [h.files, List.map_map]
    exact h.distinct
  refine lookup_of_mem hnodup ?_
  rw [h.files]
  exact List.mem_map_of_mem (f := fun artifact : BridgeStoredArtifact =>
    (artifact.logicalName, fmt.encode artifact.model)) hmem

theorem lookup_isSome_iff (h : Inventoried fmt artifacts inventory encoded) {name : String} :
    (encoded.lookup name).isSome ↔ name ∈ artifacts.map (·.logicalName) := by
  rw [lookup_isSome, h.files, List.map_map]
  rfl

end Inventoried

/-! ## Preparations -/

/-- What `prepare` has checked and built. -/
structure Prepared (fmt : Format Bytes) (request : BridgePublishRequest)
    (prepared : PreparedPublication Bytes) : Prop where
  fields : checkFields request = .ok ()
  inventoried : Inventoried fmt request.artifacts prepared.revision.manifest.inventory
    prepared.revision.artifacts
  anchors : checkAnchors fmt request.runPlan prepared.revision.artifacts = .ok ()
  modes : checkModes fmt request.runPlan prepared.revision.manifest.inventory
    prepared.revision.artifacts = .ok ()
  manifest : prepared.revision.manifest =
    fmt.manifestOf request prepared.revision.manifest.inventory
  valid : fmt.ValidManifest prepared.revision.manifest
  pointer : prepared.revision.pointer =
    fmt.pointerOf prepared.revision.manifest prepared.completionMarkerBytes
  bytes : prepared.manifestBytes = fmt.encodeManifest prepared.revision.manifest

theorem prepare_ok {request : BridgePublishRequest} {prepared : PreparedPublication Bytes}
    (h : prepare fmt request = .ok prepared) : Prepared fmt request prepared := by
  unfold prepare at h
  simp only [bind_eq_ok, require_eq_ok, exists_const, pure_eq_ok, Prod.exists] at h
  obtain ⟨⟨⟩, hfields, inventory, encoded, hinventory, ⟨⟩, hanchors, ⟨⟩, hmodes, hvalid, rfl⟩ := h
  exact {
    fields := hfields
    inventoried := artifactInventory_ok hinventory
    anchors := hanchors
    modes := hmodes
    manifest := rfl
    valid := hvalid
    pointer := rfl
    bytes := rfl }

namespace Prepared

variable {request : BridgePublishRequest} {prepared : PreparedPublication Bytes}

theorem revision_eq (h : Prepared fmt request prepared) :
    prepared.revision.pointer.revision = request.proposedRevision := by
  rw [h.pointer]
  change prepared.revision.manifest.revision = _
  rw [h.manifest]
  rfl

theorem status_eq (h : Prepared fmt request prepared) :
    prepared.revision.pointer.status = request.status := by
  rw [h.pointer]
  change prepared.revision.manifest.status = _
  rw [h.manifest]
  rfl

/-- The payload has every line of the inventory, in its order. -/
theorem payload (h : Prepared fmt request prepared) :
    prepared.payload.map Prod.fst =
      prepared.revision.manifest.inventory.map (·.logicalName) := by
  unfold PreparedPublication.payload
  have hall : ∀ line ∈ prepared.revision.manifest.inventory,
      (prepared.revision.artifacts.lookup line.logicalName).isSome := by
    intro line hline
    rw [h.inventoried.lookup_isSome_iff, ← h.inventoried.names.mem_iff]
    exact List.mem_map_of_mem hline
  generalize prepared.revision.manifest.inventory = inventory at hall
  induction inventory with
  | nil => rfl
  | cons line rest ih =>
    obtain ⟨bytes, hbytes⟩ := Option.isSome_iff_exists.1 (hall line List.mem_cons_self)
    rw [List.filterMap_cons, hbytes]
    simpa using ih fun other hother => hall other (List.mem_cons_of_mem _ hother)

theorem payload_nodup (h : Prepared fmt request prepared) :
    (prepared.payload.map Prod.fst).Nodup := by
  rw [h.payload, h.inventoried.names.nodup_iff]
  exact h.inventoried.distinct

theorem separate_iff (h : Prepared fmt request prepared) :
    Separate (prepared.payload.map Prod.fst) ↔ Separate request.names := by
  rw [h.payload]
  unfold Separate BridgePublishRequest.names
  exact (h.inventoried.names.map parts).pairwise_iff fun hxy hyx => hxy hyx.symm

/-- The payload holds what the artifacts hold. -/
theorem payload_lookup (h : Prepared fmt request prepared) (name : String) :
    prepared.payload.lookup name = prepared.revision.artifacts.lookup name := by
  cases hname : prepared.revision.artifacts.lookup name with
  | none =>
    cases hpayload : prepared.payload.lookup name with
    | none => rfl
    | some bytes =>
      have hmem : name ∈ prepared.payload.map Prod.fst := lookup_isSome.1 (by simp [hpayload])
      rw [h.payload, h.inventoried.names.mem_iff, ← h.inventoried.lookup_isSome_iff, hname] at hmem
      simp at hmem
  | some bytes =>
    refine lookup_of_mem h.payload_nodup ?_
    have hmem : name ∈ prepared.revision.manifest.inventory.map (·.logicalName) := by
      rw [h.inventoried.names.mem_iff, ← h.inventoried.lookup_isSome_iff, hname]
      rfl
    obtain ⟨line, hline, rfl⟩ := List.mem_map.1 hmem
    exact List.mem_filterMap.2 ⟨line, hline, by rw [hname]; rfl⟩

/-! ## Reading what was staged -/

theorem readManifest (h : Prepared fmt request prepared) {manifest : BridgeTerminalManifest}
    (hread : readManifest fmt prepared.directory = .ok manifest) :
    manifest = prepared.revision.manifest := by
  obtain ⟨hsorted, hpos, hcount, hinventory, hsha⟩ := h.valid
  simp only [Bridge.readManifest, PreparedPublication.directory, readBounded, bind_eq_ok,
    require_eq_ok, exists_const, pure_eq_ok] at hread
  obtain ⟨bytes, ⟨-, rfl⟩, hparse⟩ := hread
  rw [h.bytes, fmt.parseManifest_encode _ hsorted hpos hcount hinventory hsha] at hparse
  exact (pure_eq_ok.1 hparse).symm

/-- If the reader accepts the staged directory, every name is its own path and
the artifacts are those that were staged. -/
theorem reads (h : Prepared fmt request prepared) {pointer : BridgeCurrentPointer}
    {revision : Revision Bytes}
    (hread : readDirectory fmt runId pointer prepared.directory = .ok revision) :
    revision.manifest = prepared.revision.manifest ∧
      (∀ name ∈ request.names, normal name = name) ∧ revision.artifacts = prepared.payload := by
  have haccepted := readDirectory_ok hread
  have hmanifest := h.readManifest haccepted.manifest
  have hartifacts : revision.artifacts =
      prepared.payload.map fun file => (normal file.1, file.2) := by
    have hall := (mapM_eq_ok _).1 haccepted.payload
    rw [PreparedPublication.directory, List.forall₂_map_left_iff] at hall
    generalize prepared.payload = payload at hall
    generalize revision.artifacts = artifacts at hall
    induction hall with
    | nil => rfl
    | cons hhead _ ih =>
      rw [(readPayload_ok hhead).1, ih, List.map_cons]
      rfl
  have hnormal : ∀ name ∈ request.names, normal name = name := by
    intro name hname
    rw [BridgePublishRequest.names, ← h.inventoried.names.mem_iff] at hname
    obtain ⟨line, hline, rfl⟩ := List.mem_map.1 hname
    have hcomplete := haccepted.complete line (hmanifest ▸ hline)
    rw [hartifacts, List.map_map] at hcomplete
    obtain ⟨file, -, heq⟩ := List.mem_map.1 hcomplete
    rw [← heq, Function.comp_apply, normal_normal]
  refine ⟨hmanifest, hnormal, ?_⟩
  rw [hartifacts]
  refine (List.map_congr_left fun file hfile => ?_).trans (List.map_id _)
  rw [hnormal file.1 ?_, id]
  rw [BridgePublishRequest.names, ← h.inventoried.names.mem_iff, ← h.payload]
  exact List.mem_map_of_mem hfile

end Prepared

end PokerDeliberation.Bridge
