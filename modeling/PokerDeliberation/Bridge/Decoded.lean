import PokerDeliberation.Bridge.Controller
import PokerDeliberation.Bridge.Progression
import PokerDeliberation.Bridge.Runs

/-!
# Artifacts of a revision, decoded

What the controller finds in a revision it has read, what it adds to it, and
what a successor keeps of it.
-/

namespace PokerDeliberation.Bridge

open Lib

variable {Bytes : Type} {fmt : Format Bytes} {revision parent child : Revision Bytes}
  {artifacts existing additions : List BridgeStoredArtifact} {name : String}

/-! ## Decoding -/

/-- An artifact that a line of the inventory decodes to. -/
structure Decodes (fmt : Format Bytes) (revision : Revision Bytes) (entry : BridgeArtifactInventory)
    (artifact : BridgeStoredArtifact) : Prop where
  name : artifact.logicalName = entry.logicalName
  kind : artifact.artifactKind = entry.artifactKind
  model : ∃ bytes, revision.artifacts.lookup entry.logicalName = some bytes ∧
    fmt.parse entry.artifactKind bytes = some artifact.model

theorem decodedArtifacts_ok (h : decodedArtifacts fmt revision = .ok artifacts) :
    List.Forall₂ (Decodes fmt revision) revision.manifest.inventory artifacts := by
  refine ((mapM_eq_ok _).1 h).imp fun entry artifact hstep => ?_
  cases hlookup : revision.artifacts.lookup entry.logicalName with
  | none => simp [hlookup] at hstep
  | some bytes =>
    simp only [hlookup, bind_eq_ok, parseModel_ok, pure_eq_ok] at hstep
    obtain ⟨model, hmodel, rfl⟩ := hstep
    exact ⟨rfl, rfl, bytes, hlookup, hmodel⟩

theorem decoded_names (h : decodedArtifacts fmt revision = .ok artifacts) :
    artifacts.map (·.logicalName) = revision.manifest.inventory.map (·.logicalName) := by
  have hall := decodedArtifacts_ok h
  clear h
  generalize revision.manifest.inventory = inventory at hall
  induction hall with
  | nil => rfl
  | cons hhead _ ih => rw [List.map_cons, List.map_cons, hhead.name, ih]

/-- The first artifact of a name is that of the first line of the name. -/
theorem find_decoded (h : decodedArtifacts fmt revision = .ok artifacts)
    {artifact : BridgeStoredArtifact} (hfind : artifacts.find? (·.logicalName = name) = some artifact) :
    ∃ entry, revision.manifest.find name = some entry ∧ Decodes fmt revision entry artifact := by
  have hall := decodedArtifacts_ok h
  clear h
  unfold BridgeTerminalManifest.find
  generalize revision.manifest.inventory = inventory at hall
  induction hall with
  | nil => simp at hfind
  | @cons entry head inventory artifacts hhead _ ih =>
    by_cases hname : entry.logicalName = name
    · have hhead' : head.logicalName = name := by rw [hhead.name, hname]
      rw [List.find?_cons_of_pos (by simpa using hhead')] at hfind
      cases hfind
      exact ⟨entry, List.find?_cons_of_pos (by simpa using hname), hhead⟩
    · have hhead' : head.logicalName ≠ name := by rwa [hhead.name]
      rw [List.find?_cons_of_neg (by simpa using hhead')] at hfind
      rw [List.find?_cons_of_neg (by simpa using hname)]
      exact ih hfind

theorem decoded_find (h : decodedArtifacts fmt revision = .ok artifacts)
    {entry : BridgeArtifactInventory} (hfind : revision.manifest.find name = some entry) :
    ∃ artifact, artifacts.find? (·.logicalName = name) = some artifact ∧
      Decodes fmt revision entry artifact := by
  have hall := decodedArtifacts_ok h
  clear h
  unfold BridgeTerminalManifest.find at hfind
  generalize revision.manifest.inventory = inventory at hall hfind
  induction hall with
  | nil => simp at hfind
  | @cons line head inventory artifacts hhead _ ih =>
    by_cases hname : line.logicalName = name
    · have hhead' : head.logicalName = name := by rw [hhead.name, hname]
      rw [List.find?_cons_of_pos (by simpa using hname)] at hfind
      cases hfind
      exact ⟨head, List.find?_cons_of_pos (by simpa using hhead'), hhead⟩
    · have hhead' : head.logicalName ≠ name := by rwa [hhead.name]
      rw [List.find?_cons_of_neg (by simpa using hname)] at hfind
      rw [List.find?_cons_of_neg (by simpa using hhead')]
      exact ih hfind

variable {α : Type} {select : BridgeArtifactModel → Option α} {m : α}

/-- What `modelAt` has found. -/
structure Found (fmt : Format Bytes) (revision : Revision Bytes) (name : String)
    (select : BridgeArtifactModel → Option α) (m : α) (entry : BridgeArtifactInventory)
    (bytes : Bytes) (model : BridgeArtifactModel) : Prop where
  listed : revision.manifest.find name = some entry
  stored : revision.artifacts.lookup name = some bytes
  parsed : fmt.parse entry.artifactKind bytes = some model
  selected : select model = some m

theorem modelAt_ok (h : modelAt fmt revision name select = .ok m) :
    ∃ entry bytes model, Found fmt revision name select m entry bytes model := by
  unfold modelAt decodedOf at h
  simp only [bind_eq_ok, mapError_eq_ok] at h
  obtain ⟨artifacts, hdecoded, h⟩ := h
  cases hfind : artifacts.find? (·.logicalName = name) with
  | none => simp [hfind] at h
  | some artifact =>
    rw [hfind] at h
    obtain ⟨entry, hentry, hdecodes⟩ := find_decoded hdecoded hfind
    obtain ⟨bytes, hbytes, hmodel⟩ := hdecodes.model
    cases hselect : select artifact.model with
    | none => simp [hselect] at h
    | some selected =>
      simp only [hselect, pure_eq_ok] at h
      exact ⟨entry, bytes, artifact.model, hentry, (mem_of_find hentry).2 ▸ hbytes, hmodel,
        h ▸ hselect⟩

/-- Where everything decodes, what is there is found. -/
theorem Found.modelAt {entry : BridgeArtifactInventory} {bytes : Bytes}
    {model : BridgeArtifactModel} (h : Found fmt revision name select m entry bytes model)
    (hdecoded : decodedOf fmt revision = .ok artifacts) :
    modelAt fmt revision name select = .ok m := by
  obtain ⟨artifact, hfind, hdecodes⟩ := decoded_find (mapError_eq_ok.1 hdecoded) h.listed
  obtain ⟨found, hfound, hmodel⟩ := hdecodes.model
  rw [(mem_of_find h.listed).2, h.stored] at hfound
  cases hfound
  rw [h.parsed] at hmodel
  cases hmodel
  unfold Bridge.modelAt
  rw [bind_ok_left hdecoded, hfind]
  simp only [h.selected]
  rfl

theorem modelAt_decoded (h : modelAt fmt revision name select = .ok m) :
    ∃ artifacts, decodedOf fmt revision = .ok artifacts := by
  unfold modelAt at h
  rw [bind_eq_ok] at h
  exact h.imp fun _ h => h.1

/-- What a parent holds is found in its successor too. -/
theorem Extends.modelAt (hext : Extends parent child) (h : Bridge.modelAt fmt parent name select = .ok m)
    (hdecoded : decodedOf fmt child = .ok artifacts) : Bridge.modelAt fmt child name select = .ok m := by
  obtain ⟨entry, bytes, model, hfound⟩ := modelAt_ok h
  obtain ⟨hmem, rfl⟩ := mem_of_find hfound.listed
  have hkept : Found fmt child entry.logicalName select m entry bytes model := {
    listed := hext.inventory entry hmem
    stored := (hext.artifacts entry hmem).trans hfound.stored
    parsed := hfound.parsed
    selected := hfound.selected }
  exact hkept.modelAt hdecoded

/-! ## Appending -/

theorem appended_names {merged : List BridgeStoredArtifact}
    (h : additions.foldlM appendArtifact existing = .ok merged) :
    merged = existing ++ additions ∧
      ∀ item ∈ additions, item.logicalName ∉ existing.map (·.logicalName) := by
  refine runs_induction (I := fun done merged => merged = existing ++ done ∧
    ∀ item ∈ done, item.logicalName ∉ existing.map (·.logicalName)) ⟨by simp, by simp⟩ ?_ h
  rintro done merged item merged' ⟨rfl, hfresh⟩ hstep
  unfold appendArtifact at hstep
  simp only [require_bind_eq_ok, pure_eq_ok] at hstep
  obtain ⟨hnew, rfl⟩ := hstep
  refine ⟨by simp, fun other hother => ?_⟩
  rcases List.mem_append.1 hother with hother | hother
  · exact hfresh other hother
  · rw [List.mem_singleton.1 hother]
    exact fun hmem => hnew (by rw [List.map_append]; exact List.mem_append_left _ hmem)

/-- What is appended is new, and nothing else is. -/
theorem appendArtifacts_ok (h : appendArtifacts existing additions = .ok artifacts) :
    (∀ name, name ∈ artifacts.map (·.logicalName) ↔
      name ∈ existing.map (·.logicalName) ∨ name ∈ additions.map (·.logicalName)) ∧
    ∀ item ∈ additions, item.logicalName ∉ existing.map (·.logicalName) := by
  unfold appendArtifacts at h
  simp only [bind_eq_ok, pure_eq_ok] at h
  obtain ⟨merged, hmerged, rfl⟩ := h
  obtain ⟨rfl, hfresh⟩ := appended_names hmerged
  refine ⟨fun name => ?_, hfresh⟩
  rw [((List.perm_insertionSort _ _).map _).mem_iff, List.map_append, List.mem_append]

/-! ## What an accepted revision holds -/

section Accepted

variable {runId : String} {pointer : BridgeCurrentPointer} {directory : RevisionDirectory Bytes}

theorem Accepted.lookup_isSome (h : Accepted fmt runId pointer directory revision) :
    (revision.artifacts.lookup name).isSome ↔
      name ∈ revision.manifest.inventory.map (·.logicalName) := by
  rw [Lib.lookup_isSome]
  constructor
  · intro hmem
    obtain ⟨entry, hentry, rfl⟩ := payload_names h.payload name hmem
    exact List.mem_map_of_mem hentry
  · intro hmem
    obtain ⟨entry, hentry, rfl⟩ := List.mem_map.1 hmem
    exact h.complete entry hentry

theorem Accepted.isPresent_iff (h : Accepted fmt runId pointer directory revision)
    {role : BridgeRole} {artifact : RoleArtifact} :
    isPresent revision.artifacts role artifact = true ↔
      roleArtifactName role artifact ∈ revision.manifest.inventory.map (·.logicalName) :=
  h.lookup_isSome

theorem Found.isPresent {role : BridgeRole} {artifact : RoleArtifact} {entry : BridgeArtifactInventory}
    {bytes : Bytes} {model : BridgeArtifactModel}
    (h : Found fmt revision (roleArtifactName role artifact) select m entry bytes model) :
    Bridge.isPresent revision.artifacts role artifact = true := by
  rw [Bridge.isPresent, h.stored]
  rfl

/-- A successor has every file of its parent. -/
theorem Extends.isPresent (hext : Extends parent child)
    (h : Accepted fmt runId pointer directory parent) {role : BridgeRole} {artifact : RoleArtifact}
    (hpresent : Bridge.isPresent parent.artifacts role artifact = true) :
    Bridge.isPresent child.artifacts role artifact = true := by
  obtain ⟨entry, hentry, hname⟩ := List.mem_map.1 (h.isPresent_iff.1 hpresent)
  unfold Bridge.isPresent at hpresent ⊢
  rw [← hname, hext.artifacts entry hentry, hname]
  exact hpresent

/-- The plan of a run names the run. -/
theorem readDirectory_plan (h : readDirectory fmt runId pointer directory = .ok revision)
    {plan : BridgeRunPlan} (hplan : modelAt fmt revision "run_plan.json" (·.plan?) = .ok plan) :
    plan.bridgeRunId = runId := by
  obtain ⟨entry, bytes, model, hfound⟩ := modelAt_ok hplan
  have hread := h
  unfold readDirectory at hread
  simp only [bind_eq_ok, require_eq_ok, exists_const, pure_eq_ok] at hread
  obtain ⟨-, manifest, -, -, artifacts, -, -, anchor, hanchor, source, -, hbound, marker, -, ⟨⟨⟩, -, rfl⟩⟩ :=
    hread
  have hselected := hfound.selected
  cases model <;> simp only [BridgeArtifactModel.plan?, Option.some.injEq, reduceCtorEq] at hselected
  subst hselected
  have hkind := fmt.parse_kind hfound.parsed
  have hparsed := hfound.parsed
  rw [← hkind] at hparsed
  change fmt.parse .runPlan bytes = _ at hparsed
  have hstored : artifacts.lookup "run_plan.json" = some bytes := hfound.stored
  unfold Format.planAt artifactAt Format.parseModel at hanchor
  simp only [hstored, hparsed, bind, Except.bind, pure, Except.pure, Except.ok.injEq] at hanchor
  rw [hanchor]
  exact hbound.1

end Accepted

end PokerDeliberation.Bridge
