import PokerDeliberation.Bridge.Refusals
import PokerDeliberation.Bridge.Documents

/-!
# The bridge store over a run

What holds of a run after any sequence of calls, cut off or not: what is
current reads back with its whole lineage, an orphan is adopted or refused, and
an artifact set that is not acceptable changes nothing. The calls are those
whose requests are `Sound`.
-/

namespace PokerDeliberation.Bridge

open Lib Lib.Interruptible

section

variable {Bytes : Type} [DecidableEq Bytes] (fmt : Format Bytes) (registry : Registry)
  (runId : String) (run : RunDirectory Bytes) (request : BridgePublishRequest)

/-- The revisions `read_current` goes through, none if it fails. -/
def lineageOf : List (Revision Bytes) := (readLineage fmt registry runId run).toOption.getD []

/-- A whole lineage: it goes down to the first revision, every revision keeps
the artifacts of the one before it, and its roles are serial. -/
structure Intact (lineage : List (Revision Bytes)) : Prop where
  ordinals : lineage.map (·.pointer.revision) = (List.range' 1 lineage.length).reverse
  kept : lineage.IsChain fun child parent => Extends parent child
  serial : ∀ revision ∈ lineage, Serial fmt revision.artifacts revision.pointer.status

/-- What is current, if anything is, reads back with its lineage. -/
def Kept : Prop :=
  run.current = none ∨ ∃ current, readCurrent fmt registry runId run = .ok current ∧
    (lineageOf fmt registry runId run).head? = some current.toRevision ∧
    Intact fmt (lineageOf fmt registry runId run)

/-- A directory that is not in the lineage is adopted by a call, or the call
changes nothing that is read and raises. -/
def Settles : Prop :=
  ∀ entry ∈ run.revisions,
    (∀ revision ∈ lineageOf fmt registry runId run,
      entry.1 ≠ (revision.pointer.revision, revision.pointer.transactionId)) →
    ∀ cut t, Leaves (publish fmt registry request) run cut t →
      (t.core = run.core ∧ (cut = none → ∃ e, (publish fmt registry request run).2.1 = .error e)) ∨
        t.revisions = run.revisions ∧ ∃ revision, Loads fmt request.runPlan.bridgeRunId entry revision ∧
          t.current = some (fmt.encodePointer revision.pointer)

/-- A set that is not acceptable is refused with `BridgeStorageError`; the
pointer and the revisions stay. -/
def Refuses : Prop :=
  ¬ Acceptable fmt (lineageOf fmt registry request.runPlan.bridgeRunId run).head? request →
    ∀ cut t, Leaves (publish fmt registry request) run cut t →
      t.current = run.current ∧ run.revisions <:+ t.revisions ∧
        (cut = none → (publish fmt registry request run).2.1 = .error .bridgeStorageError)

/-- The runs that calls with sound requests lead to. -/
inductive Reached : RunDirectory Bytes → Prop where
  | empty : Reached RunDirectory.empty
  | call {run t : RunDirectory Bytes} {request : BridgePublishRequest} {cut : Option PublishStep} :
      Reached run → request.runPlan.bridgeRunId = runId → Sound fmt registry run request →
      Leaves (publish fmt registry request) run cut t → Reached t

end

variable {Bytes : Type} [DecidableEq Bytes] {fmt : Format Bytes} {registry : Registry}
  {runId : String} {run t : RunDirectory Bytes} {request : BridgePublishRequest}
  {orphan : Option (Entry Bytes)} {chain : List (Entry Bytes × Revision Bytes)}
  {prepared : PreparedPublication Bytes} {expected : Option (VerifiedBridgeRead Bytes)}

/-! ## Claims -/

omit [DecidableEq Bytes] in
/-- The claims of a revision depend on its manifest and its files only. -/
theorem verifyCurrentClaims_congr {revision other : Revision Bytes}
    (hmanifest : revision.manifest = other.manifest)
    (hfiles : ∀ name, revision.artifacts.lookup name = other.artifacts.lookup name) :
    verifyCurrentClaims fmt registry revision = verifyCurrentClaims fmt registry other := by
  unfold verifyCurrentClaims verifyCurrentIdentityClaims verifyCurrentConfirmationIdentifierClaims
    artifactAt
  simp only [hmanifest, hfiles]

/-- The claims of what is current, and of the orphan should it become so. -/
structure Claimed (fmt : Format Bytes) (registry : Registry) (runId : String)
    (orphan : Option (Entry Bytes)) (chain : List (Entry Bytes × Revision Bytes)) : Prop where
  head : ∀ x ∈ chain.head?, verifyCurrentClaims fmt registry x.2 = .ok ()
  orphan : ∀ entry ∈ orphan, ∀ revision, Loads fmt runId entry revision →
    verifyCurrentClaims fmt registry revision = .ok ()

theorem Sound.claims {revision : Revision Bytes} (h : Sound fmt registry run request)
    (hready : Ready fmt registry request run prepared expected)
    (hcandidates : revisionCandidates run prepared.revision.pointer.revision = [])
    (hloads : Loads fmt request.runPlan.bridgeRunId prepared.entry revision) :
    verifyCurrentClaims fmt registry revision = .ok () := by
  have hprepared := prepare_ok hready.prepare
  obtain ⟨hmanifest, hown, hartifacts⟩ := hprepared.reads hloads.reads
  have hfiles : ∀ name, revision.artifacts.lookup name = prepared.revision.artifacts.lookup name :=
    fun name => by rw [hartifacts, hprepared.payload_lookup]
  rw [verifyCurrentClaims_congr hmanifest hfiles]
  exact h.claimed prepared expected hready hcandidates hown

theorem Claimed.advances {orphan' : Option (Entry Bytes)}
    {chain' : List (Entry Bytes × Revision Bytes)}
    (h : Claimed fmt registry request.runPlan.bridgeRunId orphan chain)
    (hshape : Shape fmt request.runPlan.bridgeRunId run orphan chain)
    (hsound : Sound fmt registry run request)
    (hadvances : Advances fmt registry request run orphan chain orphan' chain') :
    Claimed fmt registry request.runPlan.bridgeRunId orphan' chain' := by
  cases hadvances with
  | still => exact h
  | stranded hready =>
    refine ⟨h.head, ?_⟩
    rintro _ ⟨⟩ revision hloads
    exact hsound.claims hready (hready.candidates hshape) hloads
  | adopted hloads =>
    refine ⟨?_, by simp⟩
    rintro _ ⟨⟩
    exact h.orphan _ rfl _ hloads
  | published hready hloads =>
    refine ⟨?_, by simp⟩
    rintro _ ⟨⟩
    exact hsound.claims hready (hready.candidates hshape) hloads

/-! ## What is read -/

theorem Lineage.intact (h : Lineage fmt runId chain) : Intact fmt (chain.map Prod.snd) := by
  refine ⟨?_, ?_, ?_⟩
  · induction chain with
    | nil => rfl
    | cons x rest ih =>
      rw [List.map_cons, List.map_cons, ih h.2.2, h.ordinal, List.length_cons,
        List.range'_concat]
      simp [Nat.add_comm]
  · induction chain with
    | nil => exact .nil
    | cons x rest ih =>
      cases rest with
      | nil => exact .singleton _
      | cons y rest =>
        exact List.isChain_cons_cons.2 ⟨(verifySuccessorSemantics_eq_ok.1 h.2.1).1, ih h.2.2⟩
  · intro revision hrevision
    obtain ⟨x, hx, rfl⟩ := List.mem_map.1 hrevision
    exact verifyExecutionProgression_ok (h.loads x hx).accepted.progression

theorem Shape.lineageOf (h : Shape fmt runId run orphan chain)
    (hclaimed : Claimed fmt registry runId orphan chain) :
    lineageOf fmt registry runId run = chain.map Prod.snd := by
  unfold Bridge.lineageOf
  cases chain with
  | nil =>
    have : run.current = none := h.current
    simp [Bridge.readLineage, this, readBounded, bind, Except.bind, Except.toOption]
  | cons x rest =>
    rw [h.readLineage, hclaimed.head x rfl]
    rfl

theorem Shape.kept (h : Shape fmt runId run orphan chain)
    (hclaimed : Claimed fmt registry runId orphan chain) : Kept fmt registry runId run := by
  unfold Kept
  rw [h.lineageOf hclaimed]
  cases chain with
  | nil => exact .inl h.current
  | cons x rest =>
    refine .inr ⟨⟨x.2, fmt.pointerSha256 x.2.pointer⟩, ?_, rfl, h.lineage.intact⟩
    rw [h.readCurrent, hclaimed.head x rfl]
    rfl

/-! ## Orphans -/

theorem Ends.of_core {r : Except Raised BridgePublishOutcome}
    (hshape : Shape fmt request.runPlan.bridgeRunId run orphan chain)
    {entry : Entry Bytes} (horphan : orphan = some entry)
    (h : Ends fmt registry request run r t) :
    (t.core = run.core ∧ ∃ e, r = .error e) ∨ t.revisions = run.revisions ∧ ∃ revision,
      Loads fmt request.runPlan.bridgeRunId entry revision ∧
        t.current = some (fmt.encodePointer revision.pointer) := by
  cases h with
  | unprepared _ | unread _ _ | unfit _ _ _ => exact .inl ⟨rfl, _, rfl⟩
  | unadopted _ _ hcore | unstaged _ _ _ hcore => exact .inl ⟨hcore, _, rfl⟩
  | stranded hready hcandidates _ _ =>
    exact absurd (orphan_none hshape hready hcandidates) (by simp [horphan])
  | published hready hcandidates _ _ _ =>
    exact absurd (orphan_none hshape hready hcandidates) (by simp [horphan])
  | adopted hready hcandidates hadoptable hcore _ =>
    have hsame := orphan_some hshape hready hcandidates
    rw [horphan, Option.some.injEq] at hsame
    subst hsame
    refine .inr ⟨(Prod.mk.inj hcore).1, _, hadoptable.loads ?_, (Prod.mk.inj hcore).2⟩
    rw [hshape.revisions, horphan]
    exact lookup_cons_self

theorem Shape.settles (h : Shape fmt request.runPlan.bridgeRunId run orphan chain)
    (hclaimed : Claimed fmt registry request.runPlan.bridgeRunId orphan chain) :
    Settles fmt registry request.runPlan.bridgeRunId run request := by
  intro entry hentry hoff cut t hleaves
  rw [h.lineageOf hclaimed] at hoff
  have horphan : orphan = some entry := by
    rw [h.revisions] at hentry
    rcases List.mem_append.1 hentry with hentry | hentry
    · simpa using hentry
    · obtain ⟨x, hx, rfl⟩ := List.mem_map.1 hentry
      exact absurd (h.lineage.loads x hx).name (hoff x.2 (List.mem_map_of_mem hx))
  have hmeets : Meets (publish fmt registry request) run _ _ := publish_meets request run
  cases hleaves with
  | cut hmem =>
    refine .inl ⟨?_, by simp⟩
    cases hmeets.during _ _ hmem with
    | still hcore => exact hcore
    | stranded hready hcandidates _ =>
      exact absurd (orphan_none h hready hcandidates) (by simp [horphan])
  | done =>
    rcases hmeets.final.of_core h horphan with ⟨hcore, e, he⟩ | hadopted
    · exact .inl ⟨hcore, fun _ => ⟨e, he⟩⟩
    · exact .inr hadopted

/-! ## Refusals -/

theorem Shape.readExpected_ok (h : Shape fmt runId run orphan chain)
    (hclaimed : Claimed fmt registry runId orphan chain) :
    ∃ expected, Bridge.readExpected fmt registry runId run = .ok expected := by
  unfold Bridge.readExpected
  cases chain with
  | nil =>
    rw [h.current]
    exact ⟨none, rfl⟩
  | cons x rest =>
    rw [h.current, h.readCurrent, hclaimed.head x rfl]
    exact ⟨_, rfl⟩

section Refusals

variable (hshape : Shape fmt request.runPlan.bridgeRunId run orphan chain)
  (hclaimed : Claimed fmt registry request.runPlan.bridgeRunId orphan chain)
  (hsound : Sound fmt registry run request)
  (hnot : ¬ Acceptable fmt (lineageOf fmt registry request.runPlan.bridgeRunId run).head? request)

include hshape hclaimed hsound hnot

/-- What is not acceptable gets no further than to be staged under foreign paths. -/
theorem Ready.foreign (hready : Ready fmt registry request run prepared expected) :
    ¬ ∀ name ∈ request.names, normal name = name := by
  intro hown
  have hacceptable := hready.acceptable (hsound.layout prepared expected hready).1 hown
  rw [hready.expected_eq hshape] at hacceptable
  rw [hshape.lineageOf hclaimed] at hnot
  refine hnot ?_
  cases chain with
  | nil => exact hacceptable
  | cons x rest => exact hacceptable

theorem Ends.refused {r : Except Raised BridgePublishOutcome} (h : Ends fmt registry request run r t) :
    t.current = run.current ∧ run.revisions <:+ t.revisions ∧ r = .error .bridgeStorageError := by
  have hstill : ∀ {t : RunDirectory Bytes}, t.core = run.core →
      t.current = run.current ∧ run.revisions <:+ t.revisions := fun hcore =>
    ⟨(Prod.mk.inj hcore).2, by simp only [(Prod.mk.inj hcore).1, List.suffix_rfl]⟩
  have hwaiting : ∀ {prepared : PreparedPublication Bytes}
      {expected : Option (VerifiedBridgeRead Bytes)},
      Ready fmt registry request run prepared expected →
      revisionCandidates run prepared.revision.pointer.revision ≠ [] → False :=
    fun hready hcandidates => hready.foreign hshape hclaimed hsound hnot
      ((hsound.layout _ _ hready).2 hcandidates)
  cases h with
  | unprepared he =>
    exact ⟨rfl, List.suffix_rfl, congrArg _ (raisesOnly_prepare hsound _ he)⟩
  | unread _ he =>
    obtain ⟨expected, hok⟩ := hshape.readExpected_ok hclaimed
    rw [hok] at he
    cases he
  | unfit hprepare hread he =>
    exact ⟨rfl, List.suffix_rfl, congrArg _ (raisesOnly_checkPrepared hsound hprepare hread _ he)⟩
  | unadopted hready hcandidates _ => exact (hwaiting hready hcandidates).elim
  | adopted hready hcandidates _ _ _ => exact (hwaiting hready (by simp [hcandidates])).elim
  | unstaged hready _ he hcore =>
    obtain ⟨hcurrent, hrevisions⟩ := hstill hcore
    refine ⟨hcurrent, hrevisions, ?_⟩
    rcases he with rfl | ⟨-, hclash⟩
    · rfl
    · rw [(prepare_ok hready.prepare).separate_iff] at hclash
      exact absurd (hsound.layout _ _ hready).1 hclash
  | stranded hready hcandidates he hcore =>
    refine ⟨(Prod.mk.inj hcore).2, by rw [(Prod.mk.inj hcore).1]; exact List.suffix_cons _ _, ?_⟩
    rcases he with rfl | he
    · rfl
    · exact congrArg _ (raisesOnly_staged (prepare_ok hready.prepare)
        (hsound.layout _ _ hready).1 (hready.foreign hshape hclaimed hsound hnot) _ he)
  | published hready _ hread _ _ =>
    exact absurd ((prepare_ok hready.prepare).reads hread).2.1
      (hready.foreign hshape hclaimed hsound hnot)

end Refusals

theorem Shape.refuses (h : Shape fmt request.runPlan.bridgeRunId run orphan chain)
    (hclaimed : Claimed fmt registry request.runPlan.bridgeRunId orphan chain)
    (hsound : Sound fmt registry run request) : Refuses fmt registry run request := by
  intro hnot cut t hleaves
  have hmeets : Meets (publish fmt registry request) run _ _ := publish_meets request run
  cases hleaves with
  | cut hmem =>
    cases hmeets.during _ _ hmem with
    | still hcore =>
      exact ⟨(Prod.mk.inj hcore).2, by simp only [(Prod.mk.inj hcore).1, List.suffix_rfl], by simp⟩
    | stranded _ _ hcore =>
      exact ⟨(Prod.mk.inj hcore).2, by rw [(Prod.mk.inj hcore).1]; exact List.suffix_cons _ _, by simp⟩
  | done =>
    obtain ⟨hcurrent, hrevisions, hr⟩ := hmeets.final.refused h hclaimed hsound hnot
    exact ⟨hcurrent, hrevisions, fun _ => hr⟩

/-! ## Runs -/

/-- Calls with sound requests leave a lineage whose head has its claims. -/
theorem Reached.shape (h : Reached fmt registry runId run) :
    ∃ orphan chain, Shape fmt runId run orphan chain ∧ Claimed fmt registry runId orphan chain := by
  induction h with
  | empty => exact ⟨none, [], Shape.empty, by simp, by simp⟩
  | call _ hrunId hsound hleaves ih =>
    subst hrunId
    obtain ⟨orphan, chain, hshape, hclaimed⟩ := ih
    obtain ⟨orphan', chain', hshape', hadvances⟩ := leaves_shape hshape hleaves
    exact ⟨orphan', chain', hshape', hclaimed.advances hshape hsound hadvances⟩

omit [DecidableEq Bytes] in
/-- Without confirmations and audits there is nothing to claim. -/
theorem Prepared.claims (h : Prepared fmt request prepared)
    (hkinds : ∀ artifact ∈ request.artifacts,
      artifact.artifactKind ≠ .executionAudit ∧ artifact.artifactKind ≠ .confirmation) :
    verifyCurrentClaims fmt registry prepared.revision = .ok () := by
  have hlines : ∀ line ∈ prepared.revision.manifest.inventory,
      line.artifactKind ≠ .executionAudit ∧ line.artifactKind ≠ .confirmation := by
    intro line hline
    obtain ⟨artifact, hartifact, rfl⟩ := h.inventoried.mem.1 hline
    exact hkinds artifact hartifact
  unfold verifyCurrentClaims
  rw [check_bind_eq_ok]
  constructor
  · exact (forM_eq_ok _).2 fun line hline => if_pos (hlines line hline).1
  · exact (forM_eq_ok _).2 fun line hline => if_pos (hlines line hline).2

namespace FirstRevision

def source : BridgeSourceBinding := ⟨"terminal manifest", "terminal run"⟩

def plan : BridgeRunPlan where
  bridgeRunId := "bridge-run"
  authMode := .localOnly
  source := source
  roleConformance := []
  runtimePolicySha256 := "policy"
  createdAt := 0
  content := "plan"
  planSha256 := "plan"

def anchors : List BridgeStoredArtifact :=
  [⟨"run_plan.json", .runPlan, .runPlan plan⟩,
    ⟨"source_context.json", .sourceContext, .sourceContext ⟨source, "source"⟩⟩]

def publication (artifacts : List BridgeStoredArtifact) : BridgePublishRequest where
  runPlan := plan
  status := .approvalRequired
  proposedRevision := 1
  transactionId := "txn-00000000000000000000000000000000"
  expectedRevision := none
  expectedManifestSha256 := none
  expectedPointerSha256 := none
  publishedAt := 0
  artifacts := artifacts

theorem anchors_sound : Sound Document.format ⟨[], []⟩ RunDirectory.empty (publication anchors) where
  anchors := fun _ _ _ _ => by
    constructor
    · exact ⟨⟨"run_plan.json", .runPlan, .runPlan plan⟩, by decide, rfl, rfl⟩
    · exact ⟨⟨"source_context.json", .sourceContext, .sourceContext ⟨source, "source"⟩⟩, by decide,
        rfl, rfl⟩
  count := fun _ _ _ _ _ _ => by decide
  roleKinds := by
    intro _ _ _ _ _ _ role _ _ _ artifact hartifact file hname
    revert hname
    rcases List.mem_cons.1 hartifact with rfl | hartifact
    · cases role <;> cases file <;> decide
    · rw [List.mem_singleton.1 hartifact]
      cases role <;> cases file <;> decide
  layout := fun _ _ _ => ⟨by unfold Separate; decide, fun _ => by decide⟩
  claimed := fun _ _ hready _ _ => (prepare_ok hready.prepare).claims (by decide)

end FirstRevision

end PokerDeliberation.Bridge
