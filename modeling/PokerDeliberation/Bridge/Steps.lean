import PokerDeliberation.Bridge.Lineage

/-!
# What a call of `publish` does

All that a call can leave: the run as it was, a revision renamed into place
that nothing points to yet, or a new current revision, adopted or published.
`publish_meets` says so of every step of a call and of its end.
-/

namespace PokerDeliberation.Bridge

open Lib Lib.Interruptible

variable {Bytes : Type} {fmt : Format Bytes} {registry : Registry}

/-- What readers see of a run. -/
def RunDirectory.core (run : RunDirectory Bytes) :
    List (RevisionName × RevisionDirectory Bytes) × Option Bytes := (run.revisions, run.current)

/-- A file the store may write and read. -/
def Format.Sized (fmt : Format Bytes) (bytes : Bytes) : Prop :=
  1 ≤ fmt.size bytes ∧ fmt.size bytes ≤ MAX_BRIDGE_ARTIFACT_BYTES

/-- The names are those of distinct files, none of them in another. -/
def Separate (names : List String) : Prop :=
  (names.map parts).Pairwise fun path other => ¬ Overlap path other

/-- What staging fills its directory with. -/
def PreparedPublication.directory (prepared : PreparedPublication Bytes) :
    RevisionDirectory Bytes where
  manifest := some prepared.manifestBytes
  payload := prepared.payload.map fun file => (parts file.1, file.2)
  completion := prepared.completionMarkerBytes

def PreparedPublication.entry (prepared : PreparedPublication Bytes) : Entry Bytes :=
  ((prepared.revision.pointer.revision, prepared.revision.pointer.transactionId),
    prepared.directory)

/-! ## Files -/

section Files

variable {run : RunDirectory Bytes} {D : PublishStep → RunDirectory Bytes → Prop}
  {Q : Except Raised Unit → RunDirectory Bytes → Prop} {step : PublishStep}
  {put : Bytes → RunDirectory Bytes → RunDirectory Bytes} {bytes : Bytes}

theorem writeExclusive_meets (hfail : Q (.error .bridgeStorageError) run)
    (hpart : ∀ content, D step (put content run)) (hdone : fmt.Sized bytes → Q (.ok ()) (put bytes run)) :
    Meets (writeExclusive fmt step put bytes) run D Q := by
  unfold writeExclusive ensure
  rw [meets_lift_bind]
  refine ⟨fun e he => ?_, fun u hu => ?_⟩
  · rw [← (require_eq_error.1 he).2]
    exact hfail
  · have hsized : 1 ≤ fmt.size bytes ∧ fmt.size bytes ≤ MAX_BRIDGE_ARTIFACT_BYTES :=
      require_eq_ok.1 hu
    rw [meets_gradual]
    refine ⟨fun t ht => ?_, hdone hsized⟩
    obtain ⟨content, -, rfl⟩ := List.mem_map.1 ht
    exact hpart content

theorem stage_core {transactionId : String} {f : RevisionDirectory Bytes → RevisionDirectory Bytes} :
    (run.stage transactionId f).core = run.core := rfl

theorem stage_lookup {transactionId : String} {f : RevisionDirectory Bytes → RevisionDirectory Bytes}
    {directory : RevisionDirectory Bytes} (h : run.transactions.lookup transactionId = some directory) :
    (run.stage transactionId f).transactions.lookup transactionId = some (f directory) := by
  unfold RunDirectory.stage
  simp only
  generalize run.transactions = transactions at h
  induction transactions with
  | nil => simp at h
  | cons entry rest ih =>
    obtain ⟨name, found⟩ := entry
    by_cases hname : transactionId = name
    · subst hname
      rw [lookup_cons_self, Option.some.injEq] at h
      rw [List.map_cons, if_pos rfl, lookup_cons_self, h]
    · rw [lookup_cons_ne hname] at h
      rw [List.map_cons, if_neg (Ne.symm hname), lookup_cons_ne hname]
      exact ih h

/-- The loop fills the payload, unless a file stands in the way of another. -/
theorem writePayload_meets {transactionId : String} (files : Artifacts Bytes)
    {directory : RevisionDirectory Bytes}
    (hlookup : run.transactions.lookup transactionId = some directory)
    (hD : ∀ step t, t.core = run.core → D step t)
    (hfail : ∀ t, t.core = run.core → Q (.error .bridgeStorageError) t)
    (hclash : ∀ t, t.core = run.core →
      ¬ (directory.payload.map Prod.fst ++ files.map (parts ·.1)).Pairwise
        (fun path other => ¬ Overlap path other) → Q (.error .osError) t)
    (hdone : ∀ t, t.core = run.core → t.transactions.lookup transactionId = some { directory with
      payload := directory.payload ++ files.map fun file => (parts file.1, file.2) } → Q (.ok ()) t) :
    Meets (writePayload fmt transactionId files) run D Q := by
  induction files generalizing run directory with
  | nil =>
    rw [writePayload, meets_pure]
    exact hdone run rfl (by simpa using hlookup)
  | cons file rest ih =>
    obtain ⟨name, bytes⟩ := file
    rw [writePayload, meets_read_bind, ensure, meets_lift_bind]
    refine ⟨fun e he => ?_, fun _ _ => ?_⟩
    · obtain ⟨hoverlap, rfl⟩ := require_eq_error.1 he
      refine hclash run rfl fun hpairwise => hoverlap ?_
      rw [hlookup]
      rintro _ ⟨⟩ other hother
      exact (List.pairwise_append.1 hpairwise).2.2 _ (List.mem_map_of_mem hother) _ (by simp)
    · rw [meets_bind]
      refine writeExclusive_meets (hfail run rfl) (fun content => hD _ _ stage_core) fun _ => ?_
      refine ih (stage_lookup hlookup) (fun step t ht => hD step t ht) (fun t ht => hfail t ht)
        (fun t ht hpairwise => hclash t ht ?_) fun t ht htxn => hdone t ht ?_
      · simpa using hpairwise
      · simpa using htxn

end Files

/-! ## The pointer -/

variable [DecidableEq Bytes]

section Pointer

variable {run : RunDirectory Bytes} {D : PublishStep → RunDirectory Bytes → Prop}
  {Q : Except Raised Unit → RunDirectory Bytes → Prop} {runId : String}
  {pointer : BridgeCurrentPointer}

theorem publishPointer_meets (hD : ∀ step t, t.core = run.core → D step t)
    (hfail : ∀ t, t.core = run.core → Q (.error .bridgeStorageError) t)
    (hdone : ∀ t, t.core = (run.revisions, some (fmt.encodePointer pointer)) →
      fmt.Sized (fmt.encodePointer pointer) → Q (.ok ()) t) :
    Meets (publishPointer fmt pointer) run D Q := by
  unfold publishPointer
  rw [meets_read_bind]
  cases run.temporaries.lookup pointer.transactionId with
  | none =>
    rw [meets_bind]
    refine writeExclusive_meets (hfail run rfl) (fun content => hD _ _ rfl) fun hsized => ?_
    dsimp only
    rw [meets_atomic]
    exact ⟨hD _ _ rfl, hdone _ rfl hsized⟩
  | some content =>
    simp only [ensure]
    rw [meets_lift_bind]
    refine ⟨fun e he => ?_, fun _ hchecked => ?_⟩
    · rw [← (require_eq_error.1 he).2]
      exact hfail run rfl
    · rw [meets_lift_bind]
      refine ⟨fun e he => ?_, fun _ heq => ?_⟩
      · rw [← (require_eq_error.1 he).2]
        exact hfail run rfl
      · rw [meets_atomic]
        have hsized : 1 ≤ fmt.size content ∧ fmt.size content ≤ MAX_BRIDGE_ARTIFACT_BYTES :=
          require_eq_ok.1 hchecked
        rw [require_eq_ok.1 heq] at hsized
        exact ⟨hD _ _ rfl, hdone _ rfl hsized⟩

/-- Once the pointer is replaced it stays so, however the reading of it ends. -/
theorem publishVerified_meets (hD : ∀ step t, t.core = run.core → D step t)
    (hfail : ∀ t, t.core = run.core → Q (.error .bridgeStorageError) t)
    (hdone : ∀ r t, t.core = (run.revisions, some (fmt.encodePointer pointer)) →
      fmt.Sized (fmt.encodePointer pointer) → Q r t) :
    Meets (publishVerified fmt registry runId pointer) run D Q := by
  unfold publishVerified
  rw [meets_bind]
  refine publishPointer_meets hD hfail fun t ht hsized => ?_
  dsimp only
  rw [meets_read_bind, meets_lift_bind]
  refine ⟨fun e _ => hdone _ t ht hsized, fun verified _ => ?_⟩
  rw [ensure, meets_lift]
  exact hdone _ t ht hsized

end Pointer

/-! ## The cases of a call -/

/-- The request has passed every check made before the directory is touched. -/
structure Ready (fmt : Format Bytes) (registry : Registry) (request : BridgePublishRequest)
    (run : RunDirectory Bytes) (prepared : PreparedPublication Bytes)
    (expected : Option (VerifiedBridgeRead Bytes)) : Prop where
  prepare : prepare fmt request = .ok prepared
  read : readExpected fmt registry request.runPlan.bridgeRunId run = .ok expected
  check : checkPrepared fmt request expected prepared = .ok ()

/-- An orphan that is there to be adopted. -/
structure Adoptable (fmt : Format Bytes) (runId : String) (run : RunDirectory Bytes)
    (expected : Option (VerifiedBridgeRead Bytes)) (entry : Entry Bytes) (orphan : Revision Bytes) :
    Prop where
  reads : pointerForRevision fmt runId run entry = .ok orphan
  child : verifyDirectChild orphan expected = .ok ()
  successor : checkSuccessor fmt expected orphan = .ok ()

/-- The runs a call goes through before it has replaced the pointer. -/
inductive Along (fmt : Format Bytes) (registry : Registry) (request : BridgePublishRequest)
    (run : RunDirectory Bytes) : RunDirectory Bytes → Prop where
  | still {t : RunDirectory Bytes} : t.core = run.core → Along fmt registry request run t
  | stranded {t : RunDirectory Bytes} {prepared : PreparedPublication Bytes}
      {expected : Option (VerifiedBridgeRead Bytes)} :
      Ready fmt registry request run prepared expected →
      revisionCandidates run prepared.revision.pointer.revision = [] →
      t.core = (prepared.entry :: run.revisions, run.current) → Along fmt registry request run t

/-- How a call ends, and the run it leaves. -/
inductive Ends (fmt : Format Bytes) (registry : Registry) (request : BridgePublishRequest)
    (run : RunDirectory Bytes) :
    Except Raised BridgePublishOutcome → RunDirectory Bytes → Prop where
  | unprepared {e : Raised} :
      prepare fmt request = .error e → Ends fmt registry request run (.error e) run
  | unread {prepared : PreparedPublication Bytes} {e : Raised} :
      prepare fmt request = .ok prepared →
      readExpected fmt registry request.runPlan.bridgeRunId run = .error e →
      Ends fmt registry request run (.error e) run
  | unfit {prepared : PreparedPublication Bytes} {expected : Option (VerifiedBridgeRead Bytes)}
      {e : Raised} :
      prepare fmt request = .ok prepared →
      readExpected fmt registry request.runPlan.bridgeRunId run = .ok expected →
      checkPrepared fmt request expected prepared = .error e →
      Ends fmt registry request run (.error e) run
  | unadopted {prepared : PreparedPublication Bytes} {expected : Option (VerifiedBridgeRead Bytes)}
      {e : Raised} {t : RunDirectory Bytes} :
      Ready fmt registry request run prepared expected →
      revisionCandidates run prepared.revision.pointer.revision ≠ [] →
      t.core = run.core → Ends fmt registry request run (.error e) t
  | unstaged {prepared : PreparedPublication Bytes} {expected : Option (VerifiedBridgeRead Bytes)}
      {e : Raised} {t : RunDirectory Bytes} :
      Ready fmt registry request run prepared expected →
      revisionCandidates run prepared.revision.pointer.revision = [] →
      e = .bridgeStorageError ∨
        e = .osError ∧ ¬ Separate (prepared.payload.map Prod.fst) →
      t.core = run.core → Ends fmt registry request run (.error e) t
  | adopted {prepared : PreparedPublication Bytes} {expected : Option (VerifiedBridgeRead Bytes)}
      {entry : Entry Bytes} {orphan : Revision Bytes} {r : Except Raised BridgePublishOutcome}
      {t : RunDirectory Bytes} :
      Ready fmt registry request run prepared expected →
      revisionCandidates run prepared.revision.pointer.revision = [entry] →
      Adoptable fmt request.runPlan.bridgeRunId run expected entry orphan →
      t.core = (run.revisions, some (fmt.encodePointer orphan.pointer)) →
      fmt.Sized (fmt.encodePointer orphan.pointer) → Ends fmt registry request run r t
  | stranded {prepared : PreparedPublication Bytes} {expected : Option (VerifiedBridgeRead Bytes)}
      {e : Raised} {t : RunDirectory Bytes} :
      Ready fmt registry request run prepared expected →
      revisionCandidates run prepared.revision.pointer.revision = [] →
      e = .bridgeStorageError ∨ readDirectory fmt request.runPlan.bridgeRunId
        prepared.revision.pointer prepared.directory = .error e →
      t.core = (prepared.entry :: run.revisions, run.current) →
      Ends fmt registry request run (.error e) t
  | published {prepared : PreparedPublication Bytes} {expected : Option (VerifiedBridgeRead Bytes)}
      {revision : Revision Bytes} {r : Except Raised BridgePublishOutcome} {t : RunDirectory Bytes} :
      Ready fmt registry request run prepared expected →
      revisionCandidates run prepared.revision.pointer.revision = [] →
      readDirectory fmt request.runPlan.bridgeRunId prepared.revision.pointer prepared.directory =
        .ok revision →
      t.core = (prepared.entry :: run.revisions,
        some (fmt.encodePointer prepared.revision.pointer)) →
      fmt.Sized (fmt.encodePointer prepared.revision.pointer) → Ends fmt registry request run r t

section Stage

variable {run : RunDirectory Bytes} {D : PublishStep → RunDirectory Bytes → Prop}
  {Q : Except Raised Unit → RunDirectory Bytes → Prop} {prepared : PreparedPublication Bytes}

omit [DecidableEq Bytes] in
theorem stageRevision_meets (hD : ∀ step t, t.core = run.core → D step t)
    (hfail : ∀ t, t.core = run.core → Q (.error .bridgeStorageError) t)
    (hclash : ∀ t, t.core = run.core → ¬ Separate (prepared.payload.map Prod.fst) →
      Q (.error .osError) t)
    (hdone : ∀ t, t.core = (prepared.entry :: run.revisions, run.current) → Q (.ok ()) t) :
    Meets (stageRevision fmt prepared) run D Q := by
  unfold stageRevision
  rw [meets_read_bind, ensure, meets_lift_bind]
  refine ⟨fun e he => ?_, fun _ _ => ?_⟩
  · rw [← (require_eq_error.1 he).2]
    exact hfail run rfl
  rw [meets_bind, meets_atomic]
  refine ⟨hD _ _ rfl, ?_⟩
  rw [meets_bind]
  have hfresh : ∀ (name : String) (rest : List (String × RevisionDirectory Bytes)),
      ((name, ⟨none, [], none⟩) :: rest).lookup name = some ⟨none, [], none⟩ := by simp
  refine writePayload_meets prepared.payload (hfresh _ _) hD hfail ?_ ?_
  · intro t ht hpairwise
    refine hclash t ht fun hseparate => hpairwise ?_
    rw [Separate, List.map_map] at hseparate
    exact hseparate
  intro t ht hlookup
  rw [meets_bind]
  refine writeExclusive_meets (hfail t ht) (fun content => hD _ _ ht) fun _ => ?_
  have hlookup' := stage_lookup (f := fun directory => { directory with
    manifest := some prepared.manifestBytes }) hlookup
  have hrename : ∀ u : RunDirectory Bytes, u.core = run.core →
      u.transactions.lookup prepared.revision.pointer.transactionId = some prepared.directory →
      Meets (atomic .renameRevision (RunDirectory.rename prepared.revision.pointer.revision
        prepared.revision.pointer.transactionId)) u D Q := by
    intro u hu hstaged
    rw [meets_atomic]
    refine ⟨hD _ _ hu, hdone _ ?_⟩
    rw [RunDirectory.rename, hstaged]
    simp only [RunDirectory.core, Prod.mk.injEq] at hu ⊢
    rw [hu.1, hu.2]
    exact ⟨rfl, rfl⟩
  cases hcompletion : prepared.completionMarkerBytes with
  | none =>
    refine hrename _ ht ?_
    rw [hlookup', PreparedPublication.directory, hcompletion]
    simp
  | some bytes =>
    simp only
    rw [meets_bind]
    refine writeExclusive_meets (hfail _ ht) (fun content => hD _ _ ht) fun _ => ?_
    refine hrename _ ht ?_
    rw [stage_lookup hlookup', PreparedPublication.directory, hcompletion]
    simp

end Stage

/-- A call leaves nothing but these runs, cut off or at its end. -/
theorem publish_meets (request : BridgePublishRequest) (run : RunDirectory Bytes) :
    Meets (publish fmt registry request) run (fun _ => Along fmt registry request run)
      (Ends fmt registry request run) := by
  unfold publish
  simp only
  rw [meets_lift_bind]
  refine ⟨fun e he => .unprepared he, fun prepared hprepared => ?_⟩
  rw [meets_read_bind, meets_lift_bind]
  refine ⟨fun e he => .unread hprepared he, fun expected hexpected => ?_⟩
  rw [meets_lift_bind]
  refine ⟨fun e he => .unfit hprepared hexpected he, fun u hcheck => ?_⟩
  have hready : Ready fmt registry request run prepared expected := ⟨hprepared, hexpected, hcheck⟩
  rw [meets_bind]
  unfold adoptOrphan
  rw [meets_read_bind]
  cases hcandidates : revisionCandidates run prepared.revision.pointer.revision with
  | nil =>
    simp only
    rw [meets_pure]
    simp only
    rw [meets_bind]
    refine stageRevision_meets (fun _ t ht => .still ht)
      (fun t ht => .unstaged hready hcandidates (.inl rfl) ht)
      (fun t ht hclash => .unstaged hready hcandidates (.inr ⟨rfl, hclash⟩) ht) fun t ht => ?_
    have hlookup : t.revisions.lookup (prepared.revision.pointer.revision,
        prepared.revision.pointer.transactionId) = some prepared.directory := by
      rw [(Prod.mk.inj ht).1, PreparedPublication.entry]
      simp
    rw [meets_read_bind, meets_lift_bind]
    simp only [readRevision_of_lookup hlookup]
    refine ⟨fun e he => .stranded hready hcandidates (.inr he) ht, fun revision hread => ?_⟩
    rw [meets_bind]
    refine publishVerified_meets (fun _ u hu => .stranded hready hcandidates (hu.trans ht))
      (fun u hu => .stranded hready hcandidates (.inl rfl) (hu.trans ht)) fun r u hu hsized => ?_
    have hcore : u.core = (prepared.entry :: run.revisions,
        some (fmt.encodePointer prepared.revision.pointer)) := by
      rw [hu, (Prod.mk.inj ht).1]
    cases r with
    | error e => exact .published hready hcandidates hread hcore hsized
    | ok _ =>
      rw [meets_pure]
      exact .published hready hcandidates hread hcore hsized
  | cons entry others =>
    cases others with
    | cons other others =>
      simp only
      rw [meets_raise]
      exact .unadopted hready (by simp [hcandidates]) rfl
    | nil =>
      simp only
      rw [meets_lift_bind]
      refine ⟨fun e _ => .unadopted hready (by simp [hcandidates]) rfl, fun orphan horphan => ?_⟩
      rw [meets_lift_bind]
      refine ⟨fun e _ => .unadopted hready (by simp [hcandidates]) rfl, fun _ hchild => ?_⟩
      rw [meets_lift_bind]
      refine ⟨fun e _ => .unadopted hready (by simp [hcandidates]) rfl, fun _ hsuccessor => ?_⟩
      rw [meets_bind]
      refine publishVerified_meets (fun _ t ht => .still ht)
        (fun t ht => .unadopted hready (by simp [hcandidates]) ht) fun r t ht hsized => ?_
      have hends : ∀ r, Ends fmt registry request run r t := fun r =>
        .adopted hready hcandidates ⟨horphan, hchild, hsuccessor⟩ ht hsized
      cases r with
      | error e => exact hends _
      | ok _ =>
        simp only [ensure]
        rw [meets_lift_bind]
        refine ⟨fun e _ => hends _, fun _ _ => ?_⟩
        rw [meets_pure]
        dsimp only
        rw [meets_pure]
        exact hends _

end PokerDeliberation.Bridge
