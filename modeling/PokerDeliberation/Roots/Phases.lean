import PokerDeliberation.Roots.Initialization

/-!
# The phases of an initialisation

Every root that calls with one request leave is one of a few. `Phase` lists
them; the two operations go from phase to phase as `Phase.initializing` and
`Phase.reconciling` say.
-/

namespace PokerDeliberation.Roots

open Lib Lib.Interruptible
open Budgets (RunStorageFailureCode)

/-- How far an initialisation has come. -/
inductive Phase where
  | absent
  | empty
  /-- the authority file, and whether its byte is written -/
  | authority (written : Bool)
  /-- the marker's temporary file, and how many of its bytes are written -/
  | ownership (written : Nat)
  | control
  | locks
  /-- the control directory in place while there is no runs directory -/
  | stranded
  | staged
  | controlRenamed
  | runsRenamed
  | initialized
  deriving DecidableEq, Repr

variable (env : Env) (request : RootInitializationRequestV1)

def emptyDir : Node := .dir []

def locksDir : Node := .dir [("locks", .dir [])]

/-- The authority and the marker's temporary file. -/
def marked (bytes : Bytes) : Entries :=
  [(.authority, .file [0]), (.temp .ownership request.rootId, .file bytes)]

namespace Phase

def root : Phase → Root
  | absent => none
  | empty => some []
  | authority false => some [(.authority, .file [])]
  | authority true => some [(.authority, .file [0])]
  | ownership n => some (marked request ((env.markerBytes request).take n))
  | control => some (marked request (env.markerBytes request) ++
      [(.temp .control request.rootId, emptyDir)])
  | locks => some (marked request (env.markerBytes request) ++
      [(.temp .control request.rootId, locksDir)])
  | stranded => some (marked request (env.markerBytes request) ++ [(.control, locksDir)])
  | staged => some (marked request (env.markerBytes request) ++
      [(.temp .control request.rootId, locksDir), (.temp .runs request.rootId, emptyDir)])
  | controlRenamed => some (marked request (env.markerBytes request) ++
      [(.control, locksDir), (.temp .runs request.rootId, emptyDir)])
  | runsRenamed => some (marked request (env.markerBytes request) ++
      [(.control, locksDir), (.runs, emptyDir)])
  | initialized => some [(.authority, .file [0]), (.ownership, .file (env.markerBytes request)),
      (.control, locksDir), (.runs, emptyDir)]

/-- What a phase is taken for. -/
def inspection : Phase → Inspection
  | absent | empty | authority _ => .uninitialized
  | initialized => .initialized request.rootId (env.markerSha256 request)
  | _ => .incomplete request.rootId

/-- The phases an operation passes through, what it returns and where it ends. -/
structure Passage where
  passed : List (FsStep × Phase)
  outcome : Option OutcomeKind
  final : Phase

/-- Opening the authority of a root that exists. -/
def openingPasses : Phase → List (FsStep × Phase)
  | empty => [(.createAuthority, empty), (.writeAuthority, authority false)]
  | authority false => [(.writeAuthority, authority false)]
  | _ => []

def fillPasses (length : Nat) : List (FsStep × Phase) :=
  (.createOwnership, authority true) ::
    (List.range length).map (fun n => (.writeOwnership, ownership n)) ++
    [(.makeControl, ownership length), (.makeLocks, control), (.makeRuns, locks),
      (.renameControl, staged), (.renameRuns, controlRenamed), (.replaceMarker, runsRenamed)]

/-- `initialize_revision_root` on a phase. -/
def initializing (length : Nat) : Phase → Passage
  | absent => ⟨(.makeRoot, absent) :: openingPasses empty ++ fillPasses length, some .initialized,
      initialized⟩
  | empty => ⟨openingPasses empty ++ fillPasses length, some .initialized, initialized⟩
  | authority written => ⟨openingPasses (authority written) ++ fillPasses length,
      some .initialized, initialized⟩
  | initialized => ⟨[], some .alreadyInitialized, initialized⟩
  | phase => ⟨[], some .reconciliationRequired, phase⟩

/-- `reconcile_revision_root` on a phase. -/
def reconciling : Phase → Passage
  | locks => ⟨[(.renameControl, locks)], none, stranded⟩
  | staged => ⟨[(.renameControl, staged), (.renameRuns, controlRenamed),
      (.replaceMarker, runsRenamed)], some .initialized, initialized⟩
  | controlRenamed => ⟨[(.renameRuns, controlRenamed), (.replaceMarker, runsRenamed)],
      some .initialized, initialized⟩
  | runsRenamed => ⟨[(.replaceMarker, runsRenamed)], some .initialized, initialized⟩
  | initialized => ⟨[], some .alreadyInitialized, initialized⟩
  | phase => ⟨[], none, phase⟩

end Phase

/-- The codec reads the marker back, and the marker fits. -/
structure Admissible : Prop where
  parse_encode : env.parse (env.markerBytes request) = some (env.marker request)
  fits : (env.markerBytes request).length ≤ env.maxArtifactBytes

variable {env request}

theorem inspect_root (h : Admissible env request) (phase : Phase) :
    inspect env (phase.root env request) = phase.inspection env request := by
  have hread : env.readControl (some (.file (env.markerBytes request))) =
      some (env.marker request, env.markerBytes request) := by
    simp [Env.readControl, h.fits, h.parse_encode]
  cases phase with
  | authority written => cases written <;> simp [Phase.root, inspect, Phase.inspection,
      MAX_ROOT_NAMESPACE_ENTRIES, Name.isOther]
  | initialized =>
    simp [Phase.root, inspect, Phase.inspection, MAX_ROOT_NAMESPACE_ENTRIES, Name.isOther,
      Name.rootId, inspectOwned, hread, Root.find, authorityRepairable, locksDir,
      emptyDir, Node.hasLocks, Node.isDir, Env.marker, Env.markerSha256]
  | _ =>
    simp [Phase.root, inspect, Phase.inspection, MAX_ROOT_NAMESPACE_ENTRIES, Name.isOther,
      Name.rootId, marked, List.filterMap_cons, List.dedup_cons_of_mem, List.dedup_cons_of_notMem]

/-! ## Steps -/

/-- The phases passed through, as roots. -/
def roots (env : Env) (request : RootInitializationRequestV1) (passed : List (FsStep × Phase)) :
    List (FsStep × Root) :=
  passed.map fun x => (x.1, x.2.root env request)

/-- The phase once its authority is open. -/
def Phase.opened : Phase → Phase
  | empty => authority true
  | authority _ => authority true
  | phase => phase

theorem ensure_bind_run {p : Prop} [Decidable p] {code : RunStorageFailureCode} {α : Type}
    {f : Unit → Proc α} {root : Root} (h : p) : (ensure p code >>= f) root = f () root := by
  simp [ensure, bind_run, require, h]

theorem ensure_bind_refused {p : Prop} [Decidable p] {code : RunStorageFailureCode} {α : Type}
    {f : Unit → Proc α} {root : Root} (h : ¬ p) :
    (ensure p code >>= f) root = ([], .error code, root) := by
  simp [ensure, bind_run, require, h]

theorem read_bind_run {α : Type} {f : Root → Proc α} {root : Root} :
    ((read : Proc Root) >>= f) root = f root root := by
  simp [bind_run]

/-- A step of an operation goes from a phase to a phase. -/
def Goes (env : Env) (request : RootInitializationRequestV1) (x : Proc Unit) (phase : Phase)
    (passed : List (FsStep × Phase)) (final : Phase) : Prop :=
  x (phase.root env request) = (roots env request passed, .ok (), final.root env request)

theorem Goes.bind {x : Proc Unit} {phase final : Phase} {passed : List (FsStep × Phase)} {α : Type}
    {f : Unit → Proc α} (h : Goes env request x phase passed final) :
    (x >>= f) (phase.root env request) =
      (roots env request passed ++ (f () (final.root env request)).1,
        (f () (final.root env request)).2) := by
  rw [bind_run, show x _ = _ from h]

/-- One part after the other. -/
theorem Goes.andThen {x y : Proc Unit} {phase middle final : Phase}
    {passed passed' : List (FsStep × Phase)} (h : Goes env request x phase passed middle)
    (h' : Goes env request y middle passed' final) :
    Goes env request (x >>= fun _ => y) phase (passed ++ passed') final := by
  unfold Goes
  rw [h.bind, show y _ = _ from h']
  simp [roots]

theorem openAuthority_goes {phase : Phase} (h : phase ≠ .absent) :
    Goes env request openAuthority phase phase.openingPasses phase.opened := by
  cases phase with
  | absent => exact absurd rfl h
  | authority written =>
    cases written <;>
      simp [Goes, openAuthority, bind_run, ensure, require, Phase.root, Root.find, roots,
        Phase.openingPasses, Phase.opened, put, set]
  | _ =>
    simp [Goes, openAuthority, bind_run, ensure, require, Phase.root, Root.find, roots,
      Phase.openingPasses, Phase.opened, put, set, marked]

theorem prepareRoot_goes (phase : Phase) :
    Goes env request prepareRoot phase (if phase = .absent then [(.makeRoot, .absent)] else [])
      (if phase = .absent then .empty else phase) := by
  cases phase with
  | authority written => cases written <;> simp [Goes, prepareRoot, bind_run, Phase.root, roots]
  | _ => simp [Goes, prepareRoot, bind_run, Phase.root, roots]

theorem writeExclusive_goes :
    Goes env request (writeExclusive (.temp .ownership request.rootId) (env.markerBytes request))
      (.authority true)
      ((.createOwnership, .authority true) ::
        (List.range (env.markerBytes request).length).map fun n => (.writeOwnership, .ownership n))
      (.ownership (env.markerBytes request).length) := by
  simp [Goes, writeExclusive, bind_run, ensure, require, Phase.root, Root.find, roots, put, set,
    marked, Function.comp_def]

theorem makeControl_goes :
    Goes env request (mkdir .makeControl (.temp .control request.rootId))
      (.ownership (env.markerBytes request).length)
      [(.makeControl, .ownership (env.markerBytes request).length)] .control := by
  simp [Goes, mkdir, bind_run, ensure, require, Phase.root, Root.find, roots, put, marked, emptyDir]

theorem makeLocks_goes :
    Goes env request (mkdirLocks (.temp .control request.rootId)) .control
      [(.makeLocks, .control)] .locks := by
  simp [Goes, mkdirLocks, bind_run, Phase.root, Root.find, roots, set, marked, emptyDir, locksDir]

theorem makeRuns_goes :
    Goes env request (mkdir .makeRuns (.temp .runs request.rootId)) .locks
      [(.makeRuns, .locks)] .staged := by
  simp [Goes, mkdir, bind_run, ensure, require, Phase.root, Root.find, roots, put, marked, emptyDir]

theorem renameControl_goes :
    Goes env request (renameEntry .renameControl (.temp .control request.rootId) .control) .staged
      [(.renameControl, .staged)] .controlRenamed := by
  simp [Goes, renameEntry, bind_run, ensure, require, Phase.root, Root.find, roots, rename, marked]

theorem renameRuns_goes :
    Goes env request (renameEntry .renameRuns (.temp .runs request.rootId) .runs) .controlRenamed
      [(.renameRuns, .controlRenamed)] .runsRenamed := by
  simp [Goes, renameEntry, bind_run, ensure, require, Phase.root, Root.find, roots, rename, marked]

theorem Admissible.readControl (h : Admissible env request) :
    env.readControl (some (.file (env.markerBytes request))) =
      some (env.marker request, env.markerBytes request) := by
  simp [Env.readControl, h.fits, h.parse_encode]

theorem publishMarker_goes (h : Admissible env request) :
    Goes env request (publishMarker env request) .runsRenamed [(.replaceMarker, .runsRenamed)]
      .initialized := by
  simp [Goes, publishMarker, renameEntry, bind_run, ensure, require, Phase.root, Root.find, marked,
    rename, roots, h.readControl]

theorem fill_goes (h : Admissible env request) :
    Goes env request (fill env request) (.authority true)
      (Phase.fillPasses (env.markerBytes request).length) .initialized := by
  have hgoes := writeExclusive_goes.andThen (makeControl_goes.andThen (makeLocks_goes.andThen
    (makeRuns_goes.andThen (renameControl_goes.andThen (renameRuns_goes.andThen
      (publishMarker_goes h))))))
  exact hgoes

/-! ## Operations -/

/-- An operation goes through the phases of a passage. -/
structure Follows (env : Env) (request : RootInitializationRequestV1) (x : Proc OutcomeKind)
    (phase : Phase) (passage : Phase.Passage) : Prop where
  passed : (x (phase.root env request)).1 = roots env request passage.passed
  outcome : (x (phase.root env request)).2.1.toOption = passage.outcome
  final : (x (phase.root env request)).2.2 = passage.final.root env request

/-- An operation that begins with a step. -/
theorem Goes.follows {x : Proc Unit} {y : Proc OutcomeKind} {phase middle : Phase}
    {passed : List (FsStep × Phase)} {passage : Phase.Passage}
    (h : Goes env request x phase passed middle) (h' : Follows env request y middle passage) :
    Follows env request (x >>= fun _ => y) phase
      ⟨passed ++ passage.passed, passage.outcome, passage.final⟩ := by
  refine ⟨?_, ?_, ?_⟩
  · rw [h.bind, h'.passed]
    simp [roots]
  · rw [h.bind]
    exact h'.outcome
  · rw [h.bind]
    exact h'.final

/-- What `initialize_revision_root` does with the authority held. -/
def Phase.initializingHeld (length : Nat) : Phase → Phase.Passage
  | authority true => ⟨fillPasses length, some .initialized, initialized⟩
  | initialized => ⟨[], some .alreadyInitialized, initialized⟩
  | phase => ⟨[], some .reconciliationRequired, phase⟩

theorem initializeHeld_follows (h : Admissible env request) {phase : Phase}
    (hopened : phase ≠ .absent ∧ phase ≠ .empty ∧ phase ≠ .authority false) :
    Follows env request (initializeHeld env request) phase
      (phase.initializingHeld (env.markerBytes request).length) := by
  have hinspect := inspect_root h phase
  cases phase with
  | absent => exact absurd rfl hopened.1
  | empty => exact absurd rfl hopened.2.1
  | authority written =>
    cases written with
    | false => exact absurd rfl hopened.2.2
    | true =>
      have hheld : initializeHeld env request ((Phase.authority true).root env request) =
          (fill env request >>= fun _ => pure .initialized)
            ((Phase.authority true).root env request) := by
        simp only [initializeHeld, bind_run, read_run, hinspect, Phase.inspection]
        rfl
      refine ⟨?_, ?_, ?_⟩ <;> rw [hheld, (fill_goes h).bind] <;>
        simp [Phase.initializingHeld, roots, Except.toOption]
  | initialized =>
    have hfind : (Phase.initialized.root env request).find .ownership =
        some (.file (env.markerBytes request)) := by
      simp [Phase.root, Root.find]
    refine ⟨?_, ?_, ?_⟩ <;>
      simp [initializeHeld, bind_run, hinspect, Phase.inspection, ensure, require, hfind,
        h.readControl, Phase.initializingHeld, roots, Except.toOption]
  | _ =>
    refine ⟨?_, ?_, ?_⟩ <;>
      simp [initializeHeld, bind_run, hinspect, Phase.inspection, Phase.initializingHeld, roots,
        Except.toOption]

theorem initializing_follows (h : Admissible env request) (phase : Phase) :
    Follows env request (initializeRevisionRoot env request) phase
      (phase.initializing (env.markerBytes request).length) := by
  have hinspect : inspect env (phase.root env request) ≠ .corrupt := by
    rw [inspect_root h]
    cases phase <;> simp [Phase.inspection]
  have hpreflight : initializeRevisionRoot env request (phase.root env request) =
      (prepareRoot >>= fun _ => openAuthority >>= fun _ => initializeHeld env request)
        (phase.root env request) := by
    simp [initializeRevisionRoot, bind_run, ensure, require, h.fits, hinspect]
  have hbody : Follows env request
      (prepareRoot >>= fun _ => openAuthority >>= fun _ => initializeHeld env request) phase
      (phase.initializing (env.markerBytes request).length) := by
    have hopen : (if phase = .absent then Phase.empty else phase) ≠ .absent := by
      split <;> simp_all
    have hopened : (if phase = .absent then Phase.empty else phase).opened ≠ .absent ∧
        (if phase = .absent then Phase.empty else phase).opened ≠ .empty ∧
        (if phase = .absent then Phase.empty else phase).opened ≠ .authority false := by
      cases phase <;> simp [Phase.opened]
    have hfollows := (prepareRoot_goes phase).follows
      ((openAuthority_goes hopen).follows (initializeHeld_follows h hopened))
    convert hfollows using 1
    cases phase with
    | authority written => cases written <;> rfl
    | _ => rfl
  exact ⟨hpreflight ▸ hbody.passed, hpreflight ▸ hbody.outcome, hpreflight ▸ hbody.final⟩

/-! ## Reconciling -/

theorem reconcilable_inspection {phase : Phase} :
    reconcilable request (env.markerSha256 request) (phase.inspection env request) =
      match phase with
      | .absent | .empty | .authority _ => .error .rootInitializationIncomplete
      | _ => .ok () := by
  cases phase <;> simp [Phase.inspection, reconcilable, require]

/-- Where the marker is complete, reconciliation goes on to the directories. -/
theorem finish_run (h : Admissible env request) {phase : Phase}
    (hmarker : (phase.root env request).find (.temp .ownership request.rootId) =
      some (.file (env.markerBytes request)))
    (hcontrol : ((phase.root env request).find .control).isNone ∨
      ((phase.root env request).find (.temp .control request.rootId)).isNone)
    (hruns : ((phase.root env request).find .runs).isNone ∨
      ((phase.root env request).find (.temp .runs request.rootId)).isNone) :
    finish env request (env.markerSha256 request) (phase.root env request) =
      (reconcileControl request >>= fun _ => reconcileRuns request >>= fun _ =>
        publishMarker env request) (phase.root env request) := by
  rw [finish, read_bind_run]
  simp only [hmarker, h.readControl]
  rw [ensure_bind_run ⟨rfl, rfl, rfl⟩, ensure_bind_run hcontrol, ensure_bind_run hruns]

theorem reconcileControl_staged :
    Goes env request (reconcileControl request) .staged [(.renameControl, .staged)]
      .controlRenamed := by
  have hrename : Goes env request _ _ _ _ := renameControl_goes
  unfold Goes at hrename ⊢
  rw [← hrename, reconcileControl, read_bind_run]
  simp [Phase.root, Root.find, marked, locksDir]

theorem reconcileControl_locks :
    Goes env request (reconcileControl request) .locks [(.renameControl, .locks)] .stranded := by
  have hrename : Goes env request (renameEntry .renameControl (.temp .control request.rootId) .control)
      .locks [(.renameControl, .locks)] .stranded := by
    simp [Goes, renameEntry, bind_run, ensure, require, Phase.root, Root.find, roots, rename, marked]
  unfold Goes at hrename ⊢
  rw [← hrename, reconcileControl, read_bind_run]
  simp [Phase.root, Root.find, marked, locksDir]

/-- A control directory that is in place is kept. -/
theorem reconcileControl_kept {phase : Phase}
    (h : (phase.root env request).find .control = some locksDir) :
    Goes env request (reconcileControl request) phase [] phase := by
  rw [Goes, reconcileControl, read_bind_run, h]
  rfl

theorem reconcileRuns_controlRenamed :
    Goes env request (reconcileRuns request) .controlRenamed [(.renameRuns, .controlRenamed)]
      .runsRenamed := by
  have hrename : Goes env request _ _ _ _ := renameRuns_goes
  unfold Goes at hrename ⊢
  rw [← hrename, reconcileRuns, read_bind_run]
  simp [Phase.root, Root.find, marked, emptyDir]

theorem reconcileRuns_kept :
    Goes env request (reconcileRuns request) .runsRenamed [] .runsRenamed := by
  rw [Goes, reconcileRuns, read_bind_run]
  simp [Phase.root, Root.find, marked, emptyDir, roots]

/-- `reconcile_revision_root` of a root without a complete marker or without
its directories raises and leaves it. -/
theorem finish_refused (h : Admissible env request) {phase : Phase}
    (hphase : phase = .control ∨ phase = .stranded ∨ ∃ n, phase = .ownership n) :
    ∃ e, finish env request (env.markerSha256 request) (phase.root env request) =
      (roots env request [], .error e, phase.root env request) := by
  rcases hphase with rfl | rfl | ⟨n, rfl⟩
  · have hcontrol : reconcileControl request (Phase.control.root env request) =
        ([], .error .transactionPublishFailed, Phase.control.root env request) := by
      rw [reconcileControl, read_bind_run]
      simp [Phase.root, Root.find, marked, emptyDir]
    rw [finish_run h (by simp [Phase.root, Root.find, marked]) (by simp [Phase.root, Root.find, marked])
      (by simp [Phase.root, Root.find, marked]), bind_run, hcontrol]
    exact ⟨_, rfl⟩
  · have hcontrol : Goes env request (reconcileControl request) .stranded [] .stranded :=
      reconcileControl_kept (by simp [Phase.root, Root.find, marked])
    have hruns : reconcileRuns request (Phase.stranded.root env request) =
        ([], .error .transactionPublishFailed, Phase.stranded.root env request) := by
      rw [reconcileRuns, read_bind_run]
      simp [Phase.root, Root.find, marked]
    rw [finish_run h (by simp [Phase.root, Root.find, marked]) (by simp [Phase.root, Root.find, marked])
      (by simp [Phase.root, Root.find, marked]), hcontrol.bind, bind_run, hruns]
    exact ⟨_, rfl⟩
  · have hfind : ((Phase.ownership n).root env request).find (.temp .ownership request.rootId) =
        some (.file ((env.markerBytes request).take n)) := by
      simp [Phase.root, Root.find, marked]
    have hcontrol : reconcileControl request ((Phase.ownership n).root env request) =
        ([], .error .transactionPublishFailed, (Phase.ownership n).root env request) := by
      rw [reconcileControl, read_bind_run]
      simp [Phase.root, Root.find, marked]
    by_cases hcomplete : (env.markerBytes request).take n = env.markerBytes request
    · rw [hcomplete] at hfind
      rw [finish_run h hfind (by simp [Phase.root, Root.find, marked])
        (by simp [Phase.root, Root.find, marked]), bind_run, hcontrol]
      exact ⟨_, rfl⟩
    · rw [finish, read_bind_run, hfind]
      cases hread : env.readControl (some (.file ((env.markerBytes request).take n))) with
      | none => exact ⟨_, rfl⟩
      | some control =>
        obtain ⟨marker, bytes⟩ := control
        have hbytes : bytes ≠ env.markerBytes request := by
          rintro rfl
          simp only [Env.readControl] at hread
          split at hread
          · obtain ⟨_, -, hpair⟩ := Option.map_eq_some_iff.1 hread
            exact hcomplete (Prod.mk.inj hpair).2
          · cases hread
        simp only
        rw [ensure_bind_refused fun hall => hbytes hall.2.2]
        exact ⟨_, rfl⟩

theorem finish_staged (h : Admissible env request) :
    Goes env request (finish env request (env.markerSha256 request)) .staged
      [(.renameControl, .staged), (.renameRuns, .controlRenamed), (.replaceMarker, .runsRenamed)]
      .initialized := by
  have hgoes := reconcileControl_staged.andThen (reconcileRuns_controlRenamed.andThen
    (publishMarker_goes h))
  rw [Goes, finish_run h (by simp [Phase.root, Root.find, marked])
    (by simp [Phase.root, Root.find, marked]) (by simp [Phase.root, Root.find, marked])]
  exact hgoes

theorem finish_controlRenamed (h : Admissible env request) :
    Goes env request (finish env request (env.markerSha256 request)) .controlRenamed
      [(.renameRuns, .controlRenamed), (.replaceMarker, .runsRenamed)] .initialized := by
  have hcontrol : Goes env request (reconcileControl request) .controlRenamed [] .controlRenamed :=
    reconcileControl_kept (by simp [Phase.root, Root.find, marked])
  have hgoes := hcontrol.andThen (reconcileRuns_controlRenamed.andThen (publishMarker_goes h))
  rw [Goes, finish_run h (by simp [Phase.root, Root.find, marked])
    (by simp [Phase.root, Root.find, marked]) (by simp [Phase.root, Root.find, marked])]
  exact hgoes

theorem finish_runsRenamed (h : Admissible env request) :
    Goes env request (finish env request (env.markerSha256 request)) .runsRenamed
      [(.replaceMarker, .runsRenamed)] .initialized := by
  have hcontrol : Goes env request (reconcileControl request) .runsRenamed [] .runsRenamed :=
    reconcileControl_kept (by simp [Phase.root, Root.find, marked])
  have hgoes := hcontrol.andThen (reconcileRuns_kept.andThen (publishMarker_goes h))
  rw [Goes, finish_run h (by simp [Phase.root, Root.find, marked])
    (by simp [Phase.root, Root.find, marked]) (by simp [Phase.root, Root.find, marked])]
  exact hgoes

/-- Control directories are in place but the runs directory cannot follow. -/
theorem finish_locks (h : Admissible env request) :
    ∃ e, finish env request (env.markerSha256 request) (Phase.locks.root env request) =
      (roots env request [(.renameControl, .locks)], .error e, Phase.stranded.root env request) := by
  have hruns : reconcileRuns request (Phase.stranded.root env request) =
      ([], .error .transactionPublishFailed, Phase.stranded.root env request) := by
    rw [reconcileRuns, read_bind_run]
    simp [Phase.root, Root.find, marked]
  rw [finish_run h (by simp [Phase.root, Root.find, marked])
    (by simp [Phase.root, Root.find, marked]) (by simp [Phase.root, Root.find, marked]),
    reconcileControl_locks.bind, bind_run, hruns]
  exact ⟨.transactionPublishFailed, by simp⟩

theorem Follows.of_goes {x : Proc Unit} {phase final : Phase} {passed : List (FsStep × Phase)}
    (h : Goes env request x phase passed final) :
    Follows env request (x >>= fun _ => pure .initialized) phase
      ⟨passed, some .initialized, final⟩ := by
  refine ⟨?_, ?_, ?_⟩
  · rw [h.bind]
    simp
  · rw [h.bind]
    simp [Except.toOption]
  · rw [h.bind]
    simp

theorem Follows.of_error {x : Proc Unit} {phase final : Phase} {passed : List (FsStep × Phase)}
    (h : ∃ e, x (phase.root env request) =
      (roots env request passed, .error e, final.root env request)) :
    Follows env request (x >>= fun _ => pure .initialized) phase ⟨passed, none, final⟩ := by
  obtain ⟨e, h⟩ := h
  have hrun : (x >>= fun _ => (pure .initialized : Proc OutcomeKind)) (phase.root env request) =
      (roots env request passed, .error e, final.root env request) := by
    rw [bind_run, h]
  refine ⟨?_, ?_, ?_⟩ <;> rw [hrun]
  rfl

/-- The phases reconciliation has something to do in. -/
def Phase.Incomplete : Phase → Prop
  | absent | empty | authority _ | initialized => False
  | _ => True

theorem finish_follows (h : Admissible env request) {phase : Phase} (hphase : phase.Incomplete) :
    Follows env request
      (finish env request (env.markerSha256 request) >>= fun _ => pure .initialized) phase
      phase.reconciling := by
  cases phase with
  | absent | empty | authority _ | initialized => exact absurd hphase id
  | ownership n => exact .of_error (finish_refused h (.inr (.inr ⟨n, rfl⟩)))
  | control => exact .of_error (finish_refused h (.inl rfl))
  | stranded => exact .of_error (finish_refused h (.inr (.inl rfl)))
  | locks => exact .of_error (finish_locks h)
  | staged => exact .of_goes (finish_staged h)
  | controlRenamed => exact .of_goes (finish_controlRenamed h)
  | runsRenamed => exact .of_goes (finish_runsRenamed h)

/-- The two inspections let a phase through that is not before the marker. -/
theorem reconcilable_run {phase : Phase} {α : Type} {f : Unit → Proc α} {root : Root}
    (h : phase = .initialized ∨ phase.Incomplete) :
    ((lift (reconcilable request (env.markerSha256 request) (phase.inspection env request)) :
      Proc Unit) >>= f) root = f () root := by
  rw [reconcilable_inspection]
  cases phase <;> simp_all [bind_run, Phase.Incomplete]

theorem reconcileHeld_follows (h : Admissible env request) {phase : Phase}
    (hphase : phase = .initialized ∨ phase.Incomplete) :
    Follows env request (reconcileHeld env request (env.markerSha256 request)) phase
      phase.reconciling := by
  rcases id hphase with rfl | hincomplete
  · have hheld : reconcileHeld env request (env.markerSha256 request)
        (Phase.initialized.root env request) =
          ([], .ok .alreadyInitialized, Phase.initialized.root env request) := by
      rw [reconcileHeld, read_bind_run, inspect_root h, reconcilable_run hphase]
      rfl
    refine ⟨?_, ?_, ?_⟩ <;> rw [hheld] <;> rfl
  · have hheld : reconcileHeld env request (env.markerSha256 request) (phase.root env request) =
        (finish env request (env.markerSha256 request) >>= fun _ => pure .initialized)
          (phase.root env request) := by
      rw [reconcileHeld, read_bind_run, inspect_root h, reconcilable_run hphase]
      cases phase <;> first | exact absurd hincomplete id | rfl
    have hfinish := finish_follows h hincomplete
    exact ⟨hheld ▸ hfinish.passed, hheld ▸ hfinish.outcome, hheld ▸ hfinish.final⟩

theorem reconciling_follows (h : Admissible env request) (phase : Phase) :
    Follows env request (reconcileRevisionRoot env request (env.markerSha256 request)) phase
      phase.reconciling := by
  by_cases hphase : phase = .initialized ∨ phase.Incomplete
  · have hopen : Goes env request openAuthority phase phase.openingPasses phase.opened :=
      openAuthority_goes (by rintro rfl; simp [Phase.Incomplete] at hphase)
    have hsame : phase.openingPasses = [] ∧ phase.opened = phase := by
      cases phase <;> simp_all [Phase.openingPasses, Phase.opened, Phase.Incomplete]
    rw [hsame.1, hsame.2] at hopen
    have hfollows := hopen.follows (reconcileHeld_follows h hphase)
    have hrun : reconcileRevisionRoot env request (env.markerSha256 request)
        (phase.root env request) = (openAuthority >>= fun _ =>
          reconcileHeld env request (env.markerSha256 request)) (phase.root env request) := by
      rw [reconcileRevisionRoot, read_bind_run, inspect_root h, reconcilable_run hphase]
    exact ⟨hrun ▸ hfollows.passed, hrun ▸ hfollows.outcome, hrun ▸ hfollows.final⟩
  · have hrefused : ∃ e, reconcileRevisionRoot env request (env.markerSha256 request)
        (phase.root env request) = ([], .error e, phase.root env request) := by
      rw [reconcileRevisionRoot, read_bind_run, inspect_root h, reconcilable_inspection]
      cases phase <;> first | exact ⟨_, rfl⟩ | simp [Phase.Incomplete] at hphase
    obtain ⟨e, hrefused⟩ := hrefused
    refine ⟨?_, ?_, ?_⟩ <;> rw [hrefused] <;>
      cases phase <;> first | rfl | simp [Phase.Incomplete] at hphase

end PokerDeliberation.Roots
