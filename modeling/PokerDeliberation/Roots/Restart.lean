import PokerDeliberation.Roots.Phases

/-!
# Restarting an initialisation

Calls of the two operations, each cut off anywhere. Once the marker's temporary
file is begun, nothing can finish the root until the three directories stand
beside a complete marker: `initialize_revision_root` asks for a reconciliation,
and `reconcile_revision_root` asks for what is missing.
-/

namespace PokerDeliberation.Roots

open Lib Lib.Interruptible

inductive Operation where
  | initializing | reconciling
  deriving DecidableEq, Repr

/-- A call and the step it is cut off at, if it is. -/
structure Call where
  operation : Operation
  cut : Option FsStep
  deriving DecidableEq, Repr

/-- The steps between the first byte of the marker and the last directory. -/
def FsStep.isStaging : FsStep → Bool
  | writeOwnership | makeControl | makeLocks | makeRuns => true
  | _ => false

section

variable (env : Env) (request : RootInitializationRequestV1)

def Operation.proc : Operation → Proc OutcomeKind
  | initializing => initializeRevisionRoot env request
  | reconciling => reconcileRevisionRoot env request (env.markerSha256 request)

/-- Calls one after another, with the roots they leave. -/
inductive Run : Root → List Call → List Root → Prop where
  | nil (root : Root) : Run root [] []
  | cons {root root' : Root} {call : Call} {calls : List Call} {roots : List Root} :
      Leaves (call.operation.proc env request) root call.cut root' → Run root' calls roots →
      Run root (call :: calls) (root' :: roots)

/-- The root after a call that nothing cuts off. -/
def Operation.after (operation : Operation) (root : Root) : Root :=
  (operation.proc env request root).2.2

/-- What holds of a root that calls with this request have left. -/
structure Restartable (root : Root) : Prop where
  notCorrupt : inspect env root ≠ .corrupt
  marker : ∀ node ∈ root.find .ownership, node = .file (env.markerBytes request)
  inPlace : ∀ rootId sha256, inspect env root = .initialized rootId sha256 →
    (root.find .ownership).isSome ∧ (root.find .control).any Node.hasLocks ∧
      (root.find .runs).any Node.isDir ∧ ∀ kind id, root.find (.temp kind id) = none
  finishes : ∃ operation n,
    inspect env ((Operation.after env request operation)^[n] root) =
      .initialized request.rootId (env.markerSha256 request)

end

/-- A marker that is there stays as it is. -/
def MarkerKept (earlier later : Root) : Prop :=
  ∀ node ∈ earlier.find .ownership, later.find .ownership = some node

variable {env : Env} {request : RootInitializationRequestV1}

/-! ## Phases -/

namespace Phase

/-- An operation on a phase. -/
def passage (length : Nat) : Operation → Phase → Passage
  | .initializing => Phase.initializing length
  | .reconciling => Phase.reconciling

/-- The phases an operation can still finish from. -/
def isOpen : Phase → Bool
  | ownership _ | control | locks | stranded => false
  | _ => true

/-- Where an operation leaves a phase. -/
def Left (length : Nat) (operation : Operation) (phase : Phase) : Option FsStep → Phase → Prop
  | some step, phase' => (step, phase') ∈ (passage length operation phase).passed
  | none, phase' => phase' = (passage length operation phase).final

variable {length : Nat} {operation : Operation} {phase phase' : Phase} {cut : Option FsStep}

theorem mem_fillPasses {step : FsStep} (h : (step, phase) ∈ fillPasses length) :
    phase.isOpen = !step.isStaging := by
  simp only [fillPasses, List.cons_append, List.mem_cons, List.mem_append, List.mem_map,
    Prod.mk.injEq, List.not_mem_nil, or_false] at h
  rcases h with ⟨rfl, rfl⟩ | ⟨n, -, rfl, rfl⟩ | ⟨rfl, rfl⟩ | ⟨rfl, rfl⟩ | ⟨rfl, rfl⟩ | ⟨rfl, rfl⟩ |
    ⟨rfl, rfl⟩ | ⟨rfl, rfl⟩ <;> simp [FsStep.isStaging, isOpen]

theorem mem_openingPasses {step : FsStep} (h : (step, phase') ∈ phase.openingPasses) :
    phase'.isOpen = !step.isStaging := by
  cases phase with
  | authority written => cases written <;> simp_all [openingPasses, FsStep.isStaging, isOpen]
  | empty =>
    simp only [openingPasses, List.mem_cons, Prod.mk.injEq, List.not_mem_nil, or_false] at h
    rcases h with ⟨rfl, rfl⟩ | ⟨rfl, rfl⟩ <;> simp [FsStep.isStaging, isOpen]
  | _ => simp [openingPasses] at h

/-- The phases an operation passes through from an open one are closed while it
is staging, and only then. -/
theorem mem_passed {step : FsStep} (hopen : phase.isOpen = true)
    (h : (step, phase') ∈ (passage length operation phase).passed) :
    phase'.isOpen = !step.isStaging := by
  cases operation with
  | initializing =>
    cases phase with
    | absent =>
      rcases List.mem_cons.1 h with heq | h
      · cases heq
        rfl
      · exact (List.mem_append.1 h).elim mem_openingPasses mem_fillPasses
    | empty | authority _ => exact (List.mem_append.1 h).elim mem_openingPasses mem_fillPasses
    | ownership _ | control | locks | stranded => simp [isOpen] at hopen
    | staged | controlRenamed | runsRenamed | initialized => simp [passage, initializing] at h
  | reconciling =>
    cases phase with
    | absent | empty | authority _ | initialized => simp [passage, reconciling] at h
    | ownership _ | control | locks | stranded => simp [isOpen] at hopen
    | staged =>
      simp only [passage, reconciling, List.mem_cons, Prod.mk.injEq, List.not_mem_nil, or_false] at h
      rcases h with ⟨rfl, rfl⟩ | ⟨rfl, rfl⟩ | ⟨rfl, rfl⟩ <;> rfl
    | controlRenamed =>
      simp only [passage, reconciling, List.mem_cons, Prod.mk.injEq, List.not_mem_nil, or_false] at h
      rcases h with ⟨rfl, rfl⟩ | ⟨rfl, rfl⟩ <;> rfl
    | runsRenamed =>
      simp only [passage, reconciling, List.mem_cons, Prod.mk.injEq, List.not_mem_nil, or_false] at h
      obtain ⟨rfl, rfl⟩ := h
      rfl

/-- From an open phase a call leaves an open one, unless it is cut off while it
is staging. -/
theorem Left.isOpen_iff (h : Left length operation phase cut phase') (hopen : phase.isOpen = true) :
    phase'.isOpen = true ↔ ∀ step ∈ cut, step.isStaging = false := by
  cases cut with
  | some step => simp [mem_passed hopen h]
  | none =>
    obtain rfl : phase' = (passage length operation phase).final := h
    cases operation <;> cases phase <;> simp_all [passage, initializing, reconciling, isOpen]

/-- There is no way out of a phase that is not open. -/
theorem Left.closed (h : Left length operation phase cut phase') (hclosed : phase.isOpen = false) :
    phase'.isOpen = false := by
  cases operation <;> cases cut <;> cases phase <;>
    simp_all [Left, passage, initializing, reconciling, isOpen]

theorem Left.initialized (h : Left length operation .initialized cut phase') :
    phase' = .initialized := by
  cases operation <;> cases cut <;> simp_all [Left, passage, initializing, reconciling]

end Phase

/-! ## Calls on a phase -/

theorem Operation.follows (h : Admissible env request) (operation : Operation) (phase : Phase) :
    Follows env request (operation.proc env request) phase
      (phase.passage (env.markerBytes request).length operation) := by
  cases operation with
  | initializing => exact initializing_follows h phase
  | reconciling => exact reconciling_follows h phase

/-- A call on a phase leaves a phase. -/
theorem exists_left (h : Admissible env request) {operation : Operation} {phase : Phase}
    {cut : Option FsStep} {root' : Root}
    (hleaves : Leaves (operation.proc env request) (phase.root env request) cut root') :
    ∃ phase', root' = phase'.root env request ∧
      Phase.Left (env.markerBytes request).length operation phase cut phase' := by
  have hfollows := operation.follows h phase
  cases hleaves with
  | cut hmem =>
    rw [hfollows.passed, roots, List.mem_map] at hmem
    obtain ⟨⟨step, phase'⟩, hpassed, heq⟩ := hmem
    obtain ⟨rfl, rfl⟩ := Prod.mk.inj heq
    exact ⟨phase', rfl, hpassed⟩
  | done => exact ⟨_, hfollows.final, rfl⟩

theorem after_root (h : Admissible env request) (operation : Operation) (phase : Phase) :
    operation.after env request (phase.root env request) =
      (phase.passage (env.markerBytes request).length operation).final.root env request :=
  (operation.follows h phase).final

theorem iterate_closed (h : Admissible env request) {operation : Operation} {phase : Phase} {n : Nat}
    (hclosed : phase.isOpen = false) :
    ∃ phase' : Phase, (operation.after env request)^[n] (phase.root env request) =
      phase'.root env request ∧ phase'.isOpen = false := by
  induction n generalizing phase with
  | zero => exact ⟨phase, rfl, hclosed⟩
  | succ n ih =>
    rw [Function.iterate_succ_apply, after_root h]
    have hleft : Phase.Left (env.markerBytes request).length operation phase none _ := rfl
    exact ih (hleft.closed hclosed)

/-- One call finishes an open phase. -/
theorem exists_finishing {phase : Phase} (hopen : phase.isOpen = true) :
    ∃ operation, (phase.passage (env.markerBytes request).length operation).final = .initialized := by
  cases phase with
  | absent | empty | authority _ => exact ⟨.initializing, rfl⟩
  | staged | controlRenamed | runsRenamed | initialized => exact ⟨.reconciling, rfl⟩
  | ownership _ | control | locks | stranded => simp [Phase.isOpen] at hopen

theorem find_ownership {phase : Phase} {node : Node}
    (h : node ∈ (phase.root env request).find .ownership) :
    phase = .initialized ∧ node = .file (env.markerBytes request) := by
  cases phase with
  | authority written => cases written <;> simp [Phase.root, Root.find] at h
  | initialized => simpa [Phase.root, Root.find, eq_comm] using h
  | _ => simp [Phase.root, Root.find, marked] at h

/-- A phase is restartable exactly when it is open. -/
theorem restartable_iff (h : Admissible env request) (phase : Phase) :
    Restartable env request (phase.root env request) ↔ phase.isOpen = true := by
  constructor
  · intro hrestart
    by_contra hclosed
    obtain ⟨operation, n, hfinishes⟩ := hrestart.finishes
    have hiterate : ∃ phase' : Phase, (operation.after env request)^[n] (phase.root env request) =
        phase'.root env request ∧ phase'.isOpen = false := iterate_closed h (by simpa using hclosed)
    obtain ⟨phase', hphase', hclosed'⟩ := hiterate
    rw [hphase', inspect_root h] at hfinishes
    cases phase' <;> simp_all [Phase.inspection, Phase.isOpen]
  · intro hopen
    refine ⟨?_, ?_, ?_, ?_⟩
    · rw [inspect_root h]
      cases phase <;> simp [Phase.inspection]
    · intro node hnode
      exact (find_ownership hnode).2
    · intro rootId sha256 hinspect
      rw [inspect_root h] at hinspect
      obtain rfl : phase = .initialized := by cases phase <;> simp_all [Phase.inspection]
      simp [Phase.root, Root.find, locksDir, emptyDir, Node.hasLocks, Node.isDir]
    · obtain ⟨operation, hfinal⟩ := exists_finishing hopen
      refine ⟨operation, 1, ?_⟩
      rw [Function.iterate_one, after_root h, hfinal, inspect_root h]
      rfl

/-! ## Runs -/

/-- A finished root stays as it is. -/
theorem Run.of_initialized (h : Admissible env request) {calls : List Call} {roots : List Root}
    {start : Root} (hrun : Run env request start calls roots)
    (hstart : start = Phase.initialized.root env request) :
    ∀ root ∈ roots, root = Phase.initialized.root env request := by
  induction hrun with
  | nil => simp
  | cons hleaves _ ih =>
    rw [hstart] at hleaves
    obtain ⟨phase', rfl, hleft⟩ := exists_left h hleaves
    rw [hleft.initialized] at ih ⊢
    exact List.forall_mem_cons.2 ⟨rfl, ih rfl⟩

/-- From an open phase a run stays restartable exactly as long as no call is cut
off while it is staging. -/
theorem Run.restartable_iff (h : Admissible env request) {calls : List Call} {roots : List Root}
    {start : Root} (hrun : Run env request start calls roots) {phase : Phase}
    (hstart : start = phase.root env request) (hopen : phase.isOpen = true) :
    (∀ root ∈ roots, Restartable env request root) ↔
      ∀ call ∈ calls, ∀ step ∈ call.cut, step.isStaging = false := by
  induction hrun generalizing phase with
  | nil => simp
  | cons hleaves _ ih =>
    rw [hstart] at hleaves
    obtain ⟨phase', rfl, hleft⟩ := exists_left h hleaves
    rw [List.forall_mem_cons, List.forall_mem_cons, PokerDeliberation.Roots.restartable_iff h,
      hleft.isOpen_iff hopen]
    refine and_congr_right fun hcut => ?_
    exact ih rfl ((hleft.isOpen_iff hopen).2 hcut)

theorem Run.markerKept (h : Admissible env request) {calls : List Call} {roots : List Root}
    {start : Root} (hrun : Run env request start calls roots) {phase : Phase}
    (hstart : start = phase.root env request) : roots.Pairwise MarkerKept := by
  induction hrun generalizing phase with
  | nil => exact .nil
  | cons hleaves hrest ih =>
    rw [hstart] at hleaves
    obtain ⟨phase', rfl, hleft⟩ := exists_left h hleaves
    refine List.pairwise_cons.2 ⟨fun root hroot node hnode => ?_, ih rfl⟩
    -- only a finished root has a marker
    obtain ⟨rfl, -⟩ := find_ownership hnode
    rw [hrest.of_initialized h rfl root hroot]
    exact hnode

theorem root_restartable_iff (h : Admissible env request) {start : Root}
    (hstart : start = none ∨ start = some []) {calls : List Call} {roots : List Root}
    (hrun : Run env request start calls roots) :
    ((∀ root ∈ roots, Restartable env request root) ∧ roots.Pairwise MarkerKept) ↔
      ∀ call ∈ calls, ∀ step ∈ call.cut, step.isStaging = false := by
  have hphase : ∃ phase : Phase, start = phase.root env request ∧ phase.isOpen = true := by
    rcases hstart with rfl | rfl
    · exact ⟨.absent, rfl, rfl⟩
    · exact ⟨.empty, rfl, rfl⟩
  obtain ⟨phase, hroot, hopen⟩ := hphase
  rw [hrun.restartable_iff h hroot hopen, and_iff_left (hrun.markerKept h hroot)]

/-! ## A root that is never finished -/

def sampleRequest : RootInitializationRequestV1 where
  rootId := "root-dddddddddddddddddddddddddddddddd"
  initializedAt := 0
  producerId := "poker-deliberation"
  producerVersion := "0.1.0"

def sampleMarker : OwnershipMarkerV1 where
  rootId := "root-dddddddddddddddddddddddddddddddd"
  legacyRunsRootIdentitySha256 := "legacy"
  initializedAt := 0
  producerId := "poker-deliberation"
  producerVersion := "0.1.0"

def sampleEnv : Env where
  encode _ := [0x7b, 0x7d]
  parse bytes := if bytes = [0x7b, 0x7d] then some sampleMarker else none
  sha256 _ := "sha256"
  legacyIdentity := "legacy"
  maxArtifactBytes := 1024

theorem sample_admissible : Admissible sampleEnv sampleRequest := ⟨rfl, by decide⟩

/-- Calls from an absent root, by the phases they leave. -/
theorem run_of_left {operation : Operation} {cut : Option FsStep} {phase : Phase} (phase' : Phase)
    {calls : List Call} {roots : List Root}
    (hleft : Phase.Left (sampleEnv.markerBytes sampleRequest).length operation phase cut phase')
    (hrun : Run sampleEnv sampleRequest (phase'.root sampleEnv sampleRequest) calls roots) :
    Run sampleEnv sampleRequest (phase.root sampleEnv sampleRequest) (⟨operation, cut⟩ :: calls)
      (phase'.root sampleEnv sampleRequest :: roots) := by
  refine .cons ?_ hrun
  have hfollows := operation.follows sample_admissible phase
  cases cut with
  | some step =>
    refine .cut ?_
    rw [hfollows.passed]
    exact List.mem_map.2 ⟨(step, phase'), hleft, rfl⟩
  | none =>
    have hfinal : phase'.root sampleEnv sampleRequest =
        (operation.proc sampleEnv sampleRequest (phase.root sampleEnv sampleRequest)).2.2 := by
      rw [hfollows.final, show phase' = _ from hleft]
    rw [hfinal]
    exact .done

/-- An initialisation cut off when the marker's temporary file was written and
no directory made. -/
theorem interrupted_staging_not_restartable :
    ∃ roots, Run sampleEnv sampleRequest none [⟨.initializing, some .makeControl⟩] roots ∧
      ¬ ∀ root ∈ roots, Restartable sampleEnv sampleRequest root := by
  have hrun : Run sampleEnv sampleRequest (Phase.absent.root sampleEnv sampleRequest)
      [⟨.initializing, some .makeControl⟩] _ :=
    run_of_left (.ownership 2) (by unfold Phase.Left; decide) (.nil _)
  refine ⟨_, hrun, fun hall => ?_⟩
  have hcuts := (hrun.restartable_iff sample_admissible rfl rfl).1 hall
  exact absurd hcuts (by decide)

theorem interrupted_rename_restartable :
    ∃ roots, Run sampleEnv sampleRequest none
        [⟨.initializing, some .renameControl⟩, ⟨.reconciling, none⟩] roots ∧
      (∀ root ∈ roots, Restartable sampleEnv sampleRequest root) ∧ roots.Pairwise MarkerKept := by
  have hrun : Run sampleEnv sampleRequest (Phase.absent.root sampleEnv sampleRequest)
      [⟨.initializing, some .renameControl⟩, ⟨.reconciling, none⟩] _ :=
    run_of_left .staged (by unfold Phase.Left; decide)
      (run_of_left .initialized rfl (.nil _))
  exact ⟨_, hrun, (root_restartable_iff sample_admissible (.inl rfl) hrun).2 (by decide)⟩

end PokerDeliberation.Roots
