import PokerDeliberation.Bridge.Prepared
import PokerDeliberation.Bridge.Progression

/-!
# Runs of publications

Calls of `publish` on one run, each cut off anywhere. Whatever is asked for,
the directory keeps its shape: a lineage and at most one orphan. That the
lineage can be read, and that what is refused is refused as it should be, holds
of calls whose request meets `Sound`.
-/

namespace PokerDeliberation.Bridge

open Lib Lib.Interruptible

variable {Bytes : Type} [DecidableEq Bytes] {fmt : Format Bytes} {registry : Registry}
  {request : BridgePublishRequest} {run t : RunDirectory Bytes} {orphan : Option (Entry Bytes)}
  {chain : List (Entry Bytes × Revision Bytes)} {prepared : PreparedPublication Bytes}
  {expected : Option (VerifiedBridgeRead Bytes)}

/-! ## The run a call finds -/

/-- The orphan is all there is at the next ordinal. -/
theorem Shape.candidates {runId : String} (h : Shape fmt runId run orphan chain) :
    revisionCandidates run (chain.length + 1) = orphan.toList := by
  rw [revisionCandidates, h.revisions, List.filter_append, List.filter_eq_self.2 ?_,
    List.filter_eq_nil_iff.2 ?_, List.append_nil]
  · intro entry hentry
    obtain ⟨x, hx, rfl⟩ := List.mem_map.1 hentry
    have := h.lineage.ordinal_le x hx
    simp
    omega
  · intro entry hentry
    simpa using h.orphanOrdinal entry (by simpa using hentry)

/-- What is read of a run is the head of its lineage. -/
theorem Shape.readExpected {runId : String} (h : Shape fmt runId run orphan chain)
    (hread : readExpected fmt registry runId run = .ok expected) :
    expected = chain.head?.map fun x => ⟨x.2, fmt.pointerSha256 x.2.pointer⟩ := by
  unfold Bridge.readExpected at hread
  cases chain with
  | nil =>
    rw [h.current] at hread
    exact (pure_eq_ok.1 hread).symm
  | cons x rest =>
    rw [h.current, h.readCurrent] at hread
    cases hclaims : verifyCurrentClaims fmt registry x.2 with
    | error e => simp [hclaims, Except.map, Functor.map] at hread
    | ok _ =>
      simp only [hclaims, Except.map, Functor.map, List.head?_cons, Option.map_some, Option.isSome_some,
        if_true, Except.ok.injEq] at hread
      exact hread.symm

section

variable (hshape : Shape fmt request.runPlan.bridgeRunId run orphan chain)
  (hready : Ready fmt registry request run prepared expected)

include hshape hready

theorem Ready.expected_eq :
    expected = chain.head?.map fun x => ⟨x.2, fmt.pointerSha256 x.2.pointer⟩ :=
  hshape.readExpected hready.read

/-- A request that passes the checks asks for the next ordinal. -/
theorem Ready.ordinal : prepared.revision.pointer.revision = chain.length + 1 := by
  have hcheck := hready.check
  unfold checkPrepared at hcheck
  simp only [check_bind_eq_ok] at hcheck
  obtain ⟨hcas, hsuccessor, -⟩ := hcheck
  rw [hready.expected_eq hshape] at hcas hsuccessor
  cases chain with
  | nil =>
    rw [(prepare_ok hready.prepare).revision_eq]
    have hfields := (prepare_ok hready.prepare).fields
    unfold checkFields at hfields
    simp only [require_bind_eq_ok] at hfields
    obtain ⟨-, -, hfields⟩ := hfields
    by_cases hone : request.proposedRevision = 1
    · rw [hone, List.length_nil]
    · rw [if_neg hone, require_eq_ok] at hfields
      obtain ⟨sha256, hsha⟩ := Option.isSome_iff_exists.1 hfields.2.2
      simp [checkCas, hsha] at hcas
  | cons x rest =>
    have hext := (verifySuccessorSemantics_eq_ok.1 hsuccessor).1
    rw [hext.ordinal, hshape.lineage.ordinal, List.length_cons]

theorem Ready.candidates :
    revisionCandidates run prepared.revision.pointer.revision = orphan.toList := by
  rw [hready.ordinal hshape, hshape.candidates]

end

/-- The head of a lineage and its next revision. -/
theorem checkSuccessor_follows {child : Revision Bytes}
    (h : checkSuccessor fmt (chain.head?.map fun x : Entry Bytes × Revision Bytes =>
      (⟨x.2, fmt.pointerSha256 x.2.pointer⟩ : VerifiedBridgeRead Bytes)) child = .ok ())
    (hordinal : child.pointer.revision = chain.length + 1) : Follows fmt child chain := by
  cases chain with
  | nil => exact hordinal
  | cons x rest => exact h

/-! ## What a call leaves -/

/-- The shapes a call may leave a run in. -/
inductive Advances (fmt : Format Bytes) (registry : Registry) (request : BridgePublishRequest)
    (run : RunDirectory Bytes) : Option (Entry Bytes) → List (Entry Bytes × Revision Bytes) →
    Option (Entry Bytes) → List (Entry Bytes × Revision Bytes) → Prop where
  | still {orphan : Option (Entry Bytes)} {chain : List (Entry Bytes × Revision Bytes)} :
      Advances fmt registry request run orphan chain orphan chain
  | stranded {chain : List (Entry Bytes × Revision Bytes)} {prepared : PreparedPublication Bytes}
      {expected : Option (VerifiedBridgeRead Bytes)} :
      Ready fmt registry request run prepared expected →
      Advances fmt registry request run none chain (some prepared.entry) chain
  | adopted {entry : Entry Bytes} {revision : Revision Bytes}
      {chain : List (Entry Bytes × Revision Bytes)} :
      Loads fmt request.runPlan.bridgeRunId entry revision →
      Advances fmt registry request run (some entry) chain none ((entry, revision) :: chain)
  | published {chain : List (Entry Bytes × Revision Bytes)} {prepared : PreparedPublication Bytes}
      {expected : Option (VerifiedBridgeRead Bytes)} {revision : Revision Bytes} :
      Ready fmt registry request run prepared expected →
      Loads fmt request.runPlan.bridgeRunId prepared.entry revision →
      Advances fmt registry request run none chain none ((prepared.entry, revision) :: chain)

theorem Shape.of_core {runId : String} (h : Shape fmt runId run orphan chain)
    (hcore : t.core = run.core) : Shape fmt runId t orphan chain where
  revisions := (Prod.mk.inj hcore).1.trans h.revisions
  lineage := h.lineage
  orphanOrdinal := h.orphanOrdinal
  current := (Prod.mk.inj hcore).2.trans h.current
  sized := fun bytes hbytes => h.sized bytes ((Prod.mk.inj hcore).2 ▸ hbytes)

theorem Shape.stranded {runId : String} (h : Shape fmt runId run none chain)
    (hordinal : prepared.revision.pointer.revision = chain.length + 1)
    (hcore : t.core = (prepared.entry :: run.revisions, run.current)) :
    Shape fmt runId t (some prepared.entry) chain where
  revisions := by rw [(Prod.mk.inj hcore).1, h.revisions]; rfl
  lineage := h.lineage
  orphanOrdinal := by
    rintro _ ⟨⟩
    exact hordinal
  current := (Prod.mk.inj hcore).2.trans h.current
  sized := fun bytes hbytes => h.sized bytes ((Prod.mk.inj hcore).2 ▸ hbytes)

/-- The directory with one more revision in its lineage. -/
theorem Shape.grown {runId : String} (h : Shape fmt runId run orphan chain) {entry : Entry Bytes}
    {revision : Revision Bytes} (hrevisions : t.revisions = entry :: chain.map Prod.fst)
    (hcurrent : t.current = some (fmt.encodePointer revision.pointer))
    (hsized : fmt.Sized (fmt.encodePointer revision.pointer))
    (hloads : Loads fmt runId entry revision)
    (hlink : Follows fmt revision chain) :
    Shape fmt runId t none ((entry, revision) :: chain) where
  revisions := hrevisions
  lineage := ⟨hloads, hlink, h.lineage⟩
  orphanOrdinal := by simp
  current := hcurrent
  sized := by
    intro bytes hbytes
    rw [hcurrent] at hbytes
    cases hbytes
    exact hsized

/-- What was staged and accepted follows what it was prepared to follow. -/
theorem Prepared.successor {runId : String} {parent revision : Revision Bytes}
    (h : Prepared fmt request prepared)
    (hread : readDirectory fmt runId prepared.revision.pointer prepared.directory = .ok revision)
    (hlink : verifySuccessorSemantics fmt parent prepared.revision = .ok ()) :
    verifySuccessorSemantics fmt parent revision = .ok () := by
  obtain ⟨hmanifest, -, hartifacts⟩ := h.reads hread
  obtain ⟨hext, hpointer⟩ := verifySuccessorSemantics_eq_ok.1 hlink
  refine verifySuccessorSemantics_eq_ok.2 ⟨⟨hext.isOpen, ?_, ?_, ?_, ?_⟩, by rw [hmanifest, hpointer]⟩
  · rw [(readDirectory_ok hread).named, hext.ordinal]
  · rw [hmanifest, hext.manifest]
  · rw [hmanifest]
    exact hext.inventory
  · intro entry hentry
    rw [hartifacts, h.payload_lookup]
    exact hext.artifacts entry hentry

omit [DecidableEq Bytes] in
theorem Prepared.loads {runId : String} {revision : Revision Bytes}
    (h : Prepared fmt request prepared)
    (hread : readDirectory fmt runId prepared.revision.pointer prepared.directory = .ok revision) :
    Loads fmt runId prepared.entry revision := by
  have hnamed := (readDirectory_ok hread).named
  obtain ⟨hmanifest, -, -⟩ := h.reads hread
  exact {
    name := by rw [hnamed]; rfl
    pointer := by rw [hnamed, hmanifest]; exact h.pointer
    reads := by rw [hnamed]; exact hread }

/-- An entry that can be adopted reads as the orphan. -/
theorem Adoptable.loads {runId : String} {entry : Entry Bytes} {revision : Revision Bytes}
    (h : Adoptable fmt runId run expected entry revision)
    (hlookup : run.revisions.lookup entry.1 = some entry.2) : Loads fmt runId entry revision := by
  have hreads := h.reads
  unfold pointerForRevision at hreads
  simp only [bind_eq_ok, require_eq_ok, exists_const] at hreads
  obtain ⟨manifest, hmanifest, ⟨hrun, hname⟩, hread⟩ := hreads
  have hentry : run.revisions.lookup (manifest.revision, manifest.transactionId) = some entry.2 := by
    rw [← hlookup, ← hname]
  rw [readRevision_of_lookup hentry] at hread
  have haccepted := readDirectory_ok hread
  have hsame : manifest = revision.manifest := by
    have := haccepted.manifest
    rw [hmanifest] at this
    exact Except.ok.inj this
  exact {
    name := by rw [haccepted.named, ← hname]; rfl
    pointer := by rw [haccepted.named, hsame]
    reads := by rw [haccepted.named]; exact hread }

theorem Adoptable.ordinal {runId : String} {entry : Entry Bytes} {revision : Revision Bytes}
    (h : Adoptable fmt runId run (chain.head?.map fun x : Entry Bytes × Revision Bytes =>
      (⟨x.2, fmt.pointerSha256 x.2.pointer⟩ : VerifiedBridgeRead Bytes)) entry revision)
    (hlineage : Lineage fmt runId chain) : revision.pointer.revision = chain.length + 1 := by
  have hchild := h.child
  unfold verifyDirectChild at hchild
  cases chain with
  | nil =>
    simp only [List.head?_nil, Option.map_none, require_eq_ok] at hchild
    exact hchild.1
  | cons x rest =>
    simp only [List.head?_cons, Option.map_some, require_eq_ok] at hchild
    rw [hchild.2.1, hlineage.ordinal, List.length_cons]

/-! ## The step lemma -/

section Step

variable (hshape : Shape fmt request.runPlan.bridgeRunId run orphan chain)

include hshape

theorem orphan_none (hready : Ready fmt registry request run prepared expected)
    (h : revisionCandidates run prepared.revision.pointer.revision = []) : orphan = none := by
  rw [hready.candidates hshape] at h
  cases orphan with
  | none => rfl
  | some entry => simp at h

theorem orphan_some {entry : Entry Bytes} (hready : Ready fmt registry request run prepared expected)
    (h : revisionCandidates run prepared.revision.pointer.revision = [entry]) : orphan = some entry := by
  rw [hready.candidates hshape] at h
  cases orphan with
  | none => simp at h
  | some other => simpa using h

theorem Along.shape (h : Along fmt registry request run t) :
    ∃ orphan' chain', Shape fmt request.runPlan.bridgeRunId t orphan' chain' ∧
      Advances fmt registry request run orphan chain orphan' chain' := by
  cases h with
  | still hcore => exact ⟨orphan, chain, hshape.of_core hcore, .still⟩
  | stranded hready hcandidates hcore =>
    obtain rfl := orphan_none hshape hready hcandidates
    exact ⟨_, chain, hshape.stranded (hready.ordinal hshape) hcore, .stranded hready⟩

theorem Ends.shape {r : Except Raised BridgePublishOutcome} (h : Ends fmt registry request run r t) :
    ∃ orphan' chain', Shape fmt request.runPlan.bridgeRunId t orphan' chain' ∧
      Advances fmt registry request run orphan chain orphan' chain' := by
  cases h with
  | unprepared _ | unread _ _ | unfit _ _ _ => exact ⟨orphan, chain, hshape, .still⟩
  | unadopted _ _ hcore | unstaged _ _ _ hcore =>
    exact ⟨orphan, chain, hshape.of_core hcore, .still⟩
  | stranded hready hcandidates _ hcore =>
    obtain rfl := orphan_none hshape hready hcandidates
    exact ⟨_, chain, hshape.stranded (hready.ordinal hshape) hcore, .stranded hready⟩
  | @adopted prepared expected entry revision r t hready hcandidates hadoptable hcore hsized =>
    obtain rfl := orphan_some hshape hready hcandidates
    have hlookup : run.revisions.lookup entry.1 = some entry.2 := by
      rw [hshape.revisions]
      exact lookup_cons_self
    have hloads := hadoptable.loads hlookup
    obtain rfl := hready.expected_eq hshape
    have hrevisions : t.revisions = entry :: chain.map Prod.fst := by
      rw [(Prod.mk.inj hcore).1, hshape.revisions]
      rfl
    exact ⟨none, _, hshape.grown hrevisions (Prod.mk.inj hcore).2 hsized hloads
      (checkSuccessor_follows hadoptable.successor (hadoptable.ordinal hshape.lineage)), .adopted hloads⟩
  | @published prepared expected revision r t hready hcandidates hread hcore hsized =>
    obtain rfl := orphan_none hshape hready hcandidates
    have hprepared := prepare_ok hready.prepare
    have hloads := hprepared.loads hread
    have hnamed := (readDirectory_ok hread).named
    have hordinal : revision.pointer.revision = chain.length + 1 := by
      rw [hnamed, hready.ordinal hshape]
    have hcheck := hready.check
    unfold checkPrepared at hcheck
    simp only [check_bind_eq_ok] at hcheck
    obtain rfl := hready.expected_eq hshape
    have hrevisions : t.revisions = prepared.entry :: chain.map Prod.fst := by
      rw [(Prod.mk.inj hcore).1, hshape.revisions]
      rfl
    refine ⟨none, _, hshape.grown hrevisions (by rw [(Prod.mk.inj hcore).2, hnamed])
      (by rw [hnamed]; exact hsized) hloads ?_, .published hready hloads⟩
    have hlink := checkSuccessor_follows hcheck.2.1 (hready.ordinal hshape)
    cases chain with
    | nil => exact hordinal
    | cons x rest => exact hprepared.successor hread hlink

/-- Whatever a call leaves is a lineage with at most one orphan again. -/
theorem leaves_shape {cut : Option PublishStep}
    (h : Leaves (publish fmt registry request) run cut t) :
    ∃ orphan' chain', Shape fmt request.runPlan.bridgeRunId t orphan' chain' ∧
      Advances fmt registry request run orphan chain orphan' chain' :=
  ((publish_meets request run).mono (fun _ _ h => h.shape hshape)
    (fun _ _ h => h.shape hshape)).leaves h

end Step

end PokerDeliberation.Bridge
