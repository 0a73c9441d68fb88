import PokerDeliberation.Bridge.Publish
import PokerDeliberation.Lib.Assoc

/-!
# Lineages

The directory of a run as a list of revisions: the current one first, each the
successor of the next, and at most one more directory that no pointer names.
Over such a directory the reader goes through the whole list.
-/

namespace PokerDeliberation.Bridge

open Lib Lib.Interruptible

variable {Bytes : Type} {fmt : Format Bytes} {registry : Registry} {runId : String}

/-! ## What a reader has seen -/

/-- What `readDirectory` has found of a directory it accepts. -/
structure Accepted (fmt : Format Bytes) (runId : String) (pointer : BridgeCurrentPointer)
    (directory : RevisionDirectory Bytes) (revision : Revision Bytes) : Prop where
  named : revision.pointer = pointer
  manifest : readManifest fmt directory = .ok revision.manifest
  run : revision.manifest.bridgeRunId = runId
  authMode : revision.manifest.authMode = pointer.authMode
  ordinal : revision.manifest.revision = pointer.revision
  transactionId : revision.manifest.transactionId = pointer.transactionId
  sha256 : revision.manifest.manifestSha256 = pointer.manifestSha256
  payload : directory.payload.mapM (readPayload fmt revision.manifest) = .ok revision.artifacts
  complete : ∀ entry ∈ revision.manifest.inventory,
    entry.logicalName ∈ revision.artifacts.map Prod.fst
  plan : ∃ plan, fmt.planAt revision.artifacts = .ok plan ∧
    plan.authMode = revision.manifest.authMode
  progression : verifyExecutionProgression fmt revision.artifacts pointer.status
    revision.completionMarker.isSome = .ok ()

theorem readDirectory_ok {pointer : BridgeCurrentPointer} {directory : RevisionDirectory Bytes}
    {revision : Revision Bytes} (h : readDirectory fmt runId pointer directory = .ok revision) :
    Accepted fmt runId pointer directory revision := by
  unfold readDirectory at h
  simp only [bind_eq_ok, require_eq_ok, exists_const, pure_eq_ok] at h
  obtain ⟨-, manifest, hmanifest, hbound, artifacts, hartifacts, hcomplete, plan, hplan, source, -,
    hanchors, marker, -, ⟨⟨⟩, hprogression, rfl⟩⟩ := h
  exact {
    named := rfl
    manifest := hmanifest
    run := hbound.1
    authMode := hbound.2.1
    ordinal := hbound.2.2.1
    transactionId := hbound.2.2.2.1
    sha256 := hbound.2.2.2.2.2.1
    payload := hartifacts
    complete := hcomplete
    plan := ⟨plan, hplan, hanchors.2.1⟩
    progression := hprogression }

/-- An entry of the revisions' directory, and the revision it reads as. -/
abbrev Entry (Bytes : Type) := RevisionName × RevisionDirectory Bytes

/-- The entry is named after the pointer that its own manifest gives, and reads
as the revision under it. -/
structure Loads (fmt : Format Bytes) (runId : String) (entry : Entry Bytes)
    (revision : Revision Bytes) : Prop where
  name : entry.1 = (revision.pointer.revision, revision.pointer.transactionId)
  pointer : revision.pointer = fmt.pointerOf revision.manifest entry.2.completion
  reads : readDirectory fmt runId revision.pointer entry.2 = .ok revision

theorem Loads.accepted {entry : Entry Bytes} {revision : Revision Bytes}
    (h : Loads fmt runId entry revision) :
    Accepted fmt runId revision.pointer entry.2 revision := readDirectory_ok h.reads

theorem Loads.ordinal {entry : Entry Bytes} {revision : Revision Bytes}
    (h : Loads fmt runId entry revision) : entry.1.1 = revision.pointer.revision := by
  rw [h.name]

theorem mem_of_find {manifest : BridgeTerminalManifest} {name : String}
    {entry : BridgeArtifactInventory} (h : manifest.find name = some entry) :
    entry ∈ manifest.inventory ∧ entry.logicalName = name := by
  unfold BridgeTerminalManifest.find at h
  exact ⟨List.mem_of_find?_eq_some h, by simpa using List.find?_some h⟩

theorem planAt_ok {artifacts : Artifacts Bytes} {plan : BridgeRunPlan}
    (h : fmt.planAt artifacts = .ok plan) : ∃ bytes, artifacts.lookup "run_plan.json" = some bytes := by
  unfold Format.planAt artifactAt at h
  cases hl : artifacts.lookup "run_plan.json" with
  | none => simp [hl, bind, Except.bind] at h
  | some bytes => exact ⟨bytes, rfl⟩

theorem readPayload_ok {manifest : BridgeTerminalManifest} {file : List (List Char) × Bytes}
    {result : String × Bytes} (h : readPayload fmt manifest file = .ok result) :
    result = (posix file.1, file.2) ∧ ∃ entry, manifest.find (posix file.1) = some entry := by
  unfold readPayload at h
  cases hfind : manifest.find (posix file.1) with
  | none => simp [hfind] at h
  | some entry =>
    simp only [hfind, readBounded, bind_eq_ok, require_eq_ok, exists_const, pure_eq_ok] at h
    obtain ⟨bytes, ⟨-, rfl⟩, -, -, -, rfl⟩ := h
    exact ⟨rfl, entry, rfl⟩

/-- Every file that is read is in the inventory. -/
theorem payload_names {manifest : BridgeTerminalManifest}
    {payload : List (List (List Char) × Bytes)} {artifacts : Artifacts Bytes}
    (h : payload.mapM (readPayload fmt manifest) = .ok artifacts) :
    ∀ name ∈ artifacts.map Prod.fst, ∃ entry ∈ manifest.inventory, entry.logicalName = name := by
  intro name hname
  obtain ⟨file, hfile, rfl⟩ := List.mem_map.1 hname
  obtain ⟨source, -, hread⟩ := exists_of_forall₂ ((mapM_eq_ok payload).1 h).flip hfile
  obtain ⟨rfl, entry, hentry⟩ := readPayload_ok hread
  exact ⟨entry, mem_of_find hentry⟩

theorem readRevision_of_lookup {run : RunDirectory Bytes} {pointer : BridgeCurrentPointer} {directory : RevisionDirectory Bytes}
    (h : run.revisions.lookup (pointer.revision, pointer.transactionId) = some directory) :
    readRevision fmt runId pointer run = readDirectory fmt runId pointer directory := by
  rw [readRevision, h]

/-! ## Successors -/

/-- What a successor keeps of its parent. -/
structure Extends (parent child : Revision Bytes) : Prop where
  isOpen : parent.pointer.status.isOpen = true
  ordinal : child.pointer.revision = parent.pointer.revision + 1
  manifest : child.manifest.previousManifestSha256 = some parent.manifest.manifestSha256
  inventory : ∀ entry ∈ parent.manifest.inventory, child.manifest.find entry.logicalName = some entry
  artifacts : ∀ entry ∈ parent.manifest.inventory,
    child.artifacts.lookup entry.logicalName = parent.artifacts.lookup entry.logicalName

/-- The plan of a run, and its authentication mode with it, never changes. -/
theorem Extends.authMode {parent child : Revision Bytes} {entry entry' : Entry Bytes}
    (h : Extends parent child) (hparent : Loads fmt runId entry parent)
    (hchild : Loads fmt runId entry' child) : child.pointer.authMode = parent.pointer.authMode := by
  obtain ⟨plan, hplan, hmode⟩ := hparent.accepted.plan
  obtain ⟨plan', hplan', hmode'⟩ := hchild.accepted.plan
  obtain ⟨bytes, hbytes⟩ := planAt_ok hplan
  obtain ⟨item, hitem, hname⟩ := payload_names hparent.accepted.payload "run_plan.json"
    (lookup_isSome.1 (by simp [hbytes]))
  have hsame : fmt.planAt child.artifacts = fmt.planAt parent.artifacts := by
    unfold Format.planAt artifactAt
    rw [← hname, h.artifacts item hitem]
  rw [hsame, hplan] at hplan'
  cases hplan'
  rw [← hparent.accepted.authMode, ← hchild.accepted.authMode, ← hmode, ← hmode']

variable [DecidableEq Bytes]

theorem verifySuccessorSemantics_eq_ok {parent child : Revision Bytes} :
    verifySuccessorSemantics fmt parent child = .ok () ↔
      Extends parent child ∧
        child.manifest.expectedPointerSha256 = some (fmt.pointerSha256 parent.pointer) := by
  unfold verifySuccessorSemantics
  simp only [require_bind_eq_ok, require_eq_ok]
  constructor
  · rintro ⟨hopen, ⟨hordinal, hmanifest, hpointer⟩, -, hentries⟩
    exact ⟨⟨hopen, hordinal, hmanifest, fun e he => (hentries e he).1, fun e he => (hentries e he).2⟩,
      hpointer⟩
  · rintro ⟨h, hpointer⟩
    refine ⟨h.isOpen, ⟨h.ordinal, h.manifest, hpointer⟩, fun e he => ?_, fun e he => ?_⟩
    · simp [h.inventory e he]
    · exact ⟨h.inventory e he, h.artifacts e he⟩

/-! ## Lineages -/

/-- The revision may stand ahead of these. -/
def Follows (fmt : Format Bytes) (revision : Revision Bytes) :
    List (Entry Bytes × Revision Bytes) → Prop
  | [] => revision.pointer.revision = 1
  | (_, parent) :: _ => verifySuccessorSemantics fmt parent revision = .ok ()

/-- Revisions from the current one down to the first. -/
def Lineage (fmt : Format Bytes) (runId : String) : List (Entry Bytes × Revision Bytes) → Prop
  | [] => True
  | (entry, revision) :: rest =>
    Loads fmt runId entry revision ∧ Follows fmt revision rest ∧ Lineage fmt runId rest

theorem Lineage.ordinal {entry : Entry Bytes} {revision : Revision Bytes}
    {rest : List (Entry Bytes × Revision Bytes)}
    (h : Lineage fmt runId ((entry, revision) :: rest)) :
    revision.pointer.revision = rest.length + 1 := by
  induction rest generalizing entry revision with
  | nil => exact h.2.1
  | cons x rest ih =>
    obtain ⟨parentEntry, parent⟩ := x
    have := (verifySuccessorSemantics_eq_ok.1 h.2.1).1.ordinal
    rw [this, ih h.2.2, List.length_cons]

theorem Lineage.loads {chain : List (Entry Bytes × Revision Bytes)}
    (h : Lineage fmt runId chain) : ∀ x ∈ chain, Loads fmt runId x.1 x.2 := by
  induction chain with
  | nil => simp
  | cons x rest ih =>
    intro y hy
    rcases List.mem_cons.1 hy with rfl | hy
    · exact h.1
    · exact ih h.2.2 y hy

/-- Ordinals in a lineage are at most its length. -/
theorem Lineage.ordinal_le {chain : List (Entry Bytes × Revision Bytes)}
    (h : Lineage fmt runId chain) : ∀ x ∈ chain, x.1.1.1 ≤ chain.length := by
  induction chain with
  | nil => simp
  | cons x rest ih =>
    intro y hy
    rcases List.mem_cons.1 hy with rfl | hy
    · rw [h.1.ordinal, h.ordinal, List.length_cons]
    · exact (ih h.2.2 y hy).trans (Nat.le_succ _)

/-- Only its own entry has the ordinal of the head. -/
theorem Lineage.candidates {entry : Entry Bytes} {revision : Revision Bytes}
    {rest : List (Entry Bytes × Revision Bytes)}
    (h : Lineage fmt runId ((entry, revision) :: rest)) {front : List (Entry Bytes)}
    (hfront : ∀ other ∈ front, rest.length + 1 < other.1.1) :
    (front ++ entry :: rest.map Prod.fst).filter (·.1.1 = rest.length + 1) = [entry] := by
  rw [List.filter_append, List.filter_cons_of_pos (by simp [h.1.ordinal, h.ordinal]),
    List.filter_eq_nil_iff.2 fun other hother => by have := hfront other hother; simp; omega,
    List.filter_eq_nil_iff.2 fun other hother => ?_, List.nil_append]
  obtain ⟨x, hx, rfl⟩ := List.mem_map.1 hother
  have := Lineage.ordinal_le h.2.2 x hx
  simp
  omega

/-- Its own entry is what the name of the head stands for. -/
theorem Lineage.lookup {entry : Entry Bytes} {revision : Revision Bytes}
    {rest : List (Entry Bytes × Revision Bytes)}
    (h : Lineage fmt runId ((entry, revision) :: rest)) {front : List (Entry Bytes)}
    (hfront : ∀ other ∈ front, rest.length + 1 < other.1.1) :
    (front ++ entry :: rest.map Prod.fst).lookup
      (revision.pointer.revision, revision.pointer.transactionId) = some entry.2 := by
  rw [← h.1.name]
  induction front with
  | nil =>
    exact lookup_cons_self
  | cons other front ih =>
    have hother := hfront other List.mem_cons_self
    have hne : entry.1 ≠ other.1 := fun heq => by
      have := h.1.ordinal
      rw [h.ordinal, heq] at this
      omega
    exact (lookup_cons_ne hne).trans (ih fun o ho => hfront o (List.mem_cons_of_mem _ ho))

/-! ## The walk -/

section Walk

variable {run : RunDirectory Bytes}

/-- Down a lineage the walk goes through all that is ahead. -/
theorem walk_eq {authMode : RuntimeAuthMode} {entry : Entry Bytes} {child : Revision Bytes}
    {rest : List (Entry Bytes × Revision Bytes)} (front : List (Entry Bytes)) (seen : List Nat)
    (h : Lineage fmt runId ((entry, child) :: rest))
    (hrun : run.revisions = front ++ entry :: rest.map Prod.fst)
    (hfront : ∀ other ∈ front, rest.length + 1 < other.1.1)
    (hseen : ∀ ordinal ∈ seen, rest.length < ordinal) (hmode : child.pointer.authMode = authMode) :
    walk fmt runId authMode run rest.length child seen = .ok (rest.map Prod.snd) := by
  induction rest generalizing entry child front seen with
  | nil => rfl
  | cons x rest ih =>
    obtain ⟨parentEntry, parent⟩ := x
    obtain ⟨hchild, hlink, hrest⟩ := h
    obtain ⟨hext, hpointer⟩ := verifySuccessorSemantics_eq_ok.1 hlink
    have hloads := hrest.1
    have hfront' : ∀ other ∈ front ++ [entry], rest.length + 1 < other.1.1 := by
      intro other hother
      rcases List.mem_append.1 hother with hother | hother
      · have := hfront other hother
        rw [List.length_cons] at this
        omega
      · rw [List.mem_singleton.1 hother, hchild.ordinal, hext.ordinal, Lineage.ordinal hrest]
        omega
    have hrun' : run.revisions = (front ++ [entry]) ++ parentEntry :: rest.map Prod.fst := by
      rw [hrun]
      simp
    have hcandidates : revisionCandidates run (rest.length + 1) = [parentEntry] := by
      rw [revisionCandidates, hrun']
      exact Lineage.candidates hrest hfront'
    have hlookup : run.revisions.lookup (parent.pointer.revision, parent.pointer.transactionId) =
        some parentEntry.2 := by
      rw [hrun']
      exact Lineage.lookup hrest hfront'
    have hmode' : parent.pointer.authMode = authMode := by
      rw [← hmode, hext.authMode hloads hchild]
    have hordinal : parent.manifest.revision = rest.length + 1 := by
      rw [hloads.accepted.ordinal, Lineage.ordinal hrest]
    have hnext := ih (front ++ [entry]) (parent.manifest.revision :: seen) hrest hrun' hfront'
      (fun ordinal hmem => by
        rcases List.mem_cons.1 hmem with rfl | hmem
        · omega
        · have := hseen ordinal hmem
          rw [List.length_cons] at this
          omega) hmode'
    have hunseen : parent.manifest.revision ∉ seen := fun hmem => by
      have := hseen _ hmem
      rw [List.length_cons, hordinal] at this
      omega
    rw [List.length_cons, walk, hcandidates]
    simp only
    rw [bind_ok_left hloads.accepted.manifest, ← hloads.pointer, bind_ok_left (require_of ?_),
      bind_ok_left ((readRevision_of_lookup hlookup).trans hloads.reads), bind_ok_left hlink,
      bind_ok_left hnext]
    · rfl
    · exact ⟨hloads.accepted.run, by rw [hloads.accepted.authMode, hmode'], hunseen,
        by rw [hext.manifest], hpointer⟩

end Walk

/-! ## The directory of a run -/

/-- The directory of a run: a lineage the pointer names the head of, and
perhaps one orphan at the next ordinal. -/
structure Shape (fmt : Format Bytes) (runId : String) (run : RunDirectory Bytes)
    (orphan : Option (Entry Bytes)) (chain : List (Entry Bytes × Revision Bytes)) : Prop where
  revisions : run.revisions = orphan.toList ++ chain.map Prod.fst
  lineage : Lineage fmt runId chain
  orphanOrdinal : ∀ entry ∈ orphan, entry.1.1 = chain.length + 1
  current : run.current = chain.head?.map fun x => fmt.encodePointer x.2.pointer
  sized : ∀ bytes ∈ run.current,
    1 ≤ fmt.size bytes ∧ fmt.size bytes ≤ MAX_BRIDGE_ARTIFACT_BYTES

variable {run : RunDirectory Bytes} {orphan : Option (Entry Bytes)}
  {chain : List (Entry Bytes × Revision Bytes)}

theorem Shape.empty : Shape fmt runId RunDirectory.empty none [] :=
  ⟨rfl, trivial, by simp, rfl, by simp [RunDirectory.empty]⟩

theorem Shape.front (h : Shape fmt runId run orphan chain) {n : Nat} (hn : n ≤ chain.length) :
    ∀ other ∈ orphan.toList, n < other.1.1 := by
  intro other hother
  rw [h.orphanOrdinal other (by simpa using hother)]
  omega

/-- The revision that the pointer names is read. -/
theorem Shape.readRevision {entry : Entry Bytes} {revision : Revision Bytes}
    {rest : List (Entry Bytes × Revision Bytes)}
    (h : Shape fmt runId run orphan ((entry, revision) :: rest)) :
    readRevision fmt runId revision.pointer run = .ok revision := by
  have hlookup : run.revisions.lookup (revision.pointer.revision, revision.pointer.transactionId) =
      some entry.2 := by
    rw [h.revisions]
    exact Lineage.lookup h.lineage (h.front (n := rest.length + 1) (by simp))
  exact (readRevision_of_lookup hlookup).trans h.lineage.1.reads

/-- A lineage is read whole, if the claims of its head are there. -/
theorem Shape.readLineage {entry : Entry Bytes} {revision : Revision Bytes}
    {rest : List (Entry Bytes × Revision Bytes)}
    (h : Shape fmt runId run orphan ((entry, revision) :: rest)) :
    readLineage fmt registry runId run =
      (verifyCurrentClaims fmt registry revision).map fun _ => revision :: rest.map Prod.snd := by
  have hcurrent : run.current = some (fmt.encodePointer revision.pointer) := h.current
  have hfront := h.front (n := rest.length + 1) (by simp)
  have hrun : run.revisions = orphan.toList ++ entry :: rest.map Prod.fst := h.revisions
  have hloads := h.lineage.1
  have hordinal := Lineage.ordinal h.lineage
  have hwalk : walk fmt runId revision.pointer.authMode run rest.length revision
      [revision.pointer.revision] = .ok (rest.map Prod.snd) :=
    walk_eq orphan.toList _ h.lineage hrun hfront (by simp [hordinal]) rfl
  have hrunId : revision.pointer.bridgeRunId = runId := by
    rw [hloads.pointer]
    exact hloads.accepted.run
  unfold Bridge.readLineage
  rw [hcurrent, bind_ok_left (a := fmt.encodePointer revision.pointer)]
  · rw [fmt.parsePointer_encode]
    simp only
    rw [bind_ok_left (require_of hrunId), bind_ok_left h.readRevision,
      show revision.pointer.revision - 1 = rest.length by omega, bind_ok_left hwalk]
    cases verifyCurrentClaims fmt registry revision <;> rfl
  · rw [readBounded, bind_ok_left (require_of (h.sized _ (by rw [hcurrent]; rfl)))]
    rfl

theorem Shape.readCurrent {entry : Entry Bytes} {revision : Revision Bytes}
    {rest : List (Entry Bytes × Revision Bytes)}
    (h : Shape fmt runId run orphan ((entry, revision) :: rest)) :
    readCurrent fmt registry runId run =
      (verifyCurrentClaims fmt registry revision).map fun _ =>
        ⟨revision, fmt.pointerSha256 revision.pointer⟩ := by
  have hcurrent : run.current = some (fmt.encodePointer revision.pointer) := h.current
  have hsized := h.sized _ (by rw [hcurrent]; rfl)
  unfold Bridge.readCurrent
  rw [h.readLineage, hcurrent, readBounded, require_of hsized]
  cases verifyCurrentClaims fmt registry revision <;> rfl

end PokerDeliberation.Bridge
