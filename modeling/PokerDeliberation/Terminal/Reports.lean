import PokerDeliberation.Terminal.Directory
import PokerDeliberation.Terminal.Permits

/-!
# What a failed publication reports

A failure of `publish` reports an effect on the current pointer and on the
files of the run. The handlers report what the local variables say, which is so
(`Sound`), but re-raise a failure of the product as it is: a closing read that
fails after the pointer was replaced reports the current revision unchanged,
and an admission that finds the current revision unsettled reports it advanced.
`publish_truthful_iff` says that nothing else is misreported.
-/

namespace PokerDeliberation.Terminal

open Lib Budgets

/-- What the failure reports of the run is so. -/
structure Truthful (before after : RunDirectory) (pointerBytes : String) (replaced : Bool)
    (f : ProductRunFailureV2) : Prop where
  unchanged : f.domainEffect = .currentUnchanged → after.current = before.current
  advanced : f.domainEffect = .currentAdvanced → after.current = some pointerBytes
  nothing : f.filesystemEffect = .none → ∀ path ∈ after.paths, path ∈ before.paths
  reconciliation : replaced = true → f.reconciliationRequired = true

/-! ## Where the run stands -/

section Standing

variable (before : RunDirectory) (pointerBytes : String) (w : Stored)

/-- Nothing was done to the directory. -/
structure Idle : Prop where
  directory : w.directory = before
  kept : w.replaced = false
  unpublished : w.publishing.pointerPublished = false

/-- The current pointer was not replaced. -/
structure Unmoved : Prop where
  current : w.directory.current = before.current
  kept : w.replaced = false
  unpublished : w.publishing.pointerPublished = false

/-- The current pointer was replaced. -/
structure Moved : Prop where
  current : w.directory.current = some pointerBytes
  replaced : w.replaced = true
  published : w.publishing.pointerPublished = true

/-- The exception leads to a truthful report. -/
def Sound : Raised → Prop
  | .product f => Truthful before w.directory pointerBytes w.replaced f
  | .storage _ => Idle before w
  | _ => Unmoved before w ∨ Moved pointerBytes w

end Standing

variable {before : RunDirectory} {pointerBytes : String} {w w' : Stored} {f : ProductRunFailureV2}
  {coordinator : DurableBudgetCoordinator} {request : StagedRequest} {e : Raised}

theorem Idle.unmoved (h : Idle before w) : Unmoved before w :=
  ⟨congrArg RunDirectory.current h.directory, h.kept, h.unpublished⟩

/-- A failure that claims nothing beyond an unchanged current revision, before
anything was done. -/
theorem Idle.truthful (h : Idle before w) (hdomain : f.domainEffect = .currentUnchanged) :
    Truthful before w.directory pointerBytes w.replaced f := by
  refine ⟨fun _ => h.unmoved.current, fun hadvanced => ?_, fun _ path hpath => ?_, fun hr => ?_⟩
  · rw [hdomain] at hadvanced
    cases hadvanced
  · rwa [h.directory] at hpath
  · rw [h.kept] at hr
    cases hr

/-- One that names what may be left in the directory. -/
theorem Unmoved.truthful (h : Unmoved before w) (hdomain : f.domainEffect = .currentUnchanged)
    (hfiles : f.filesystemEffect ≠ .none) :
    Truthful before w.directory pointerBytes w.replaced f := by
  refine ⟨fun _ => h.current, fun hadvanced => ?_, fun hnone => absurd hnone hfiles, fun hr => ?_⟩
  · rw [hdomain] at hadvanced
    cases hadvanced
  · rw [h.kept] at hr
    cases hr

theorem Moved.truthful (h : Moved pointerBytes w) (hdomain : f.domainEffect = .currentAdvanced)
    (hfiles : f.filesystemEffect ≠ .none) (hreconcile : f.reconciliationRequired = true) :
    Truthful before w.directory pointerBytes w.replaced f := by
  refine ⟨fun hunchanged => ?_, fun _ => h.current, fun hnone => absurd hnone hfiles, fun _ => hreconcile⟩
  rw [hdomain] at hunchanged
  cases hunchanged

/-! ## What the budget and the handlers leave alone -/

/-- The same local variables. -/
structure SameFlags (p p' : Publishing) : Prop where
  leased : p'.leased = p.leased
  revisionPublished : p'.revisionPublished = p.revisionPublished
  pointerPublished : p'.pointerPublished = p.pointerPublished

instance : Std.Refl SameFlags := ⟨fun _ => ⟨rfl, rfl, rfl⟩⟩

instance : IsTrans Publishing SameFlags :=
  ⟨fun _ _ _ h h' => ⟨h'.leased.trans h.leased, h'.revisionPublished.trans h.revisionPublished,
    h'.pointerPublished.trans h.pointerPublished⟩⟩

section Flags

variable {outside : Outside} {r : TerminalPublishRequest}

theorem sameFlags_storeCall (c : Call) : Always SameFlags (coordinator.storeCall outside r c) :=
  fun _ => ⟨rfl, rfl, rfl⟩

theorem sameFlags_storeLoad : Always SameFlags (coordinator.storeLoad outside r) := by
  intro p
  unfold DurableBudgetCoordinator.storeLoad
  simp only
  split <;> exact ⟨rfl, rfl, rfl⟩

theorem sameFlags_rebase : Always SameFlags DurableBudgetCoordinator.rebase :=
  fun _ => ⟨rfl, rfl, rfl⟩

theorem sameFlags_createRun : Always SameFlags (coordinator.createRun outside r) := by
  unfold DurableBudgetCoordinator.createRun
  refine ((sameFlags_storeCall _).bind fun _ => always_pure ()).catching fun e => ?_
  cases e with
  | budget failure =>
    simp only
    split
    · exact always_pure ()
    · exact always_raise _
  | invalid message => exact always_raise _

theorem sameFlags_reserve : Always SameFlags (coordinator.reserve outside r) := by
  have hstate : Always SameFlags (coordinator.state outside r) := by
    unfold DurableBudgetCoordinator.state
    refine sameFlags_createRun.bind fun _ => sameFlags_storeLoad.bind fun state => ?_
    exact (always_lift _).bind fun _ => always_pure state
  unfold DurableBudgetCoordinator.reserve
  refine hstate.bind fun _ => sameFlags_rebase.bind fun _ => ?_
  refine (always_lift _).bind fun _ => (always_lift _).bind fun _ => (always_lift _).bind fun _ => ?_
  refine (sameFlags_storeCall _).bind fun _ => sameFlags_rebase.bind fun _ => ?_
  exact (sameFlags_storeCall _).bind fun _ => always_pure ()

theorem sameFlags_settle : Always SameFlags (coordinator.settle outside r) := by
  unfold DurableBudgetCoordinator.settle
  exact (sameFlags_storeCall _).bind fun _ => always_pure ()

theorem sameFlags_releaseNoEffect (effect : String) :
    Always SameFlags (coordinator.releaseNoEffect outside r effect) := by
  unfold DurableBudgetCoordinator.releaseNoEffect
  exact (sameFlags_storeCall _).bind fun _ => always_pure ()

end Flags

/-- The directory and the local variables are left alone. -/
structure Aside (w w' : Stored) : Prop extends SameFlags w.publishing w'.publishing where
  directory : w'.directory = w.directory
  replaced : w'.replaced = w.replaced

theorem aside_onPublishing {ε α : Type} {x : Stateful ε Publishing α} (hx : Always SameFlags x) :
    Always Aside (onPublishing x) := fun w => ⟨hx w.publishing, rfl, rfl⟩

theorem Idle.aside (h : Idle before w) (ha : Aside w w') : Idle before w' :=
  ⟨ha.directory.trans h.directory, ha.replaced.trans h.kept,
    ha.pointerPublished.trans h.unpublished⟩

theorem Unmoved.aside (h : Unmoved before w) (ha : Aside w w') : Unmoved before w' :=
  ⟨(congrArg _ ha.directory).trans h.current, ha.replaced.trans h.kept,
    ha.pointerPublished.trans h.unpublished⟩

theorem Moved.aside (h : Moved pointerBytes w) (ha : Aside w w') : Moved pointerBytes w' :=
  ⟨(congrArg _ ha.directory).trans h.current, ha.replaced.trans h.replaced,
    ha.pointerPublished.trans h.published⟩

/-! ## The handlers -/

/-- What a handler raises for an exception. -/
def Mapped (p : Publishing) (e' : Raised) : Raised → Prop
  | .approvalDecision => e' = .approvalDecision
  | .product f => e' = .product f
  | .storage _ => ∃ f, e' = .product f ∧ f.domainEffect = .currentUnchanged
  | .store _ | .other => ∃ f, e' = .product f ∧ f.filesystemEffect ≠ .none ∧
      f.reconciliationRequired = true ∧
      f.domainEffect = if p.pointerPublished then .currentAdvanced else .currentUnchanged

section Handlers

variable {outside : Outside} {r : TerminalPublishRequest} {p : Publishing}

theorem ends_suppressedRelease : Ends (fun q => q = p) (suppressedRelease coordinator outside r)
    (fun _ q => SameFlags p q) fun _ _ => False := by
  unfold suppressedRelease
  refine Ends.read_bind fun q hq => ?_
  subst hq
  split
  · refine Ends.bind (Q := fun _ => SameFlags q) ?_ fun _ => ends_pure fun _ h => h
    refine Ends.attempt (R := fun _ => SameFlags q) ?_
    refine ends_of_always (sameFlags_releaseNoEffect "none") ?_ ?_
    · rintro _ t _ rfl h
      exact h
    · rintro _ t _ rfl h
      exact h
  · refine ends_pure ?_
    rintro _ rfl
    exact refl_of SameFlags _

/-- A released permit, and then a failure. -/
theorem ends_release_raise {effect : String} {e' : Except StoreError Unit → Raised} :
    Ends (fun q => q = p) ((coordinator.releaseNoEffect outside r effect).attempt >>= fun released =>
      (Stateful.raise (e' released) : Stateful Raised Publishing TerminalPublishOutcome))
      (fun _ _ => False) fun e q => SameFlags p q ∧ ∃ released, e = e' released := by
  refine Ends.bind (Q := fun _ => SameFlags p) ?_ fun released =>
    ends_raise fun q h => ⟨h, released, rfl⟩
  refine Ends.attempt (R := fun _ => SameFlags p) ?_
  refine ends_of_always (sameFlags_releaseNoEffect effect) ?_ ?_
  · rintro _ t _ rfl h
    exact h
  · rintro _ t _ rfl h
    exact h

theorem ends_handleOther : Ends (fun q => q = p) (handleOther coordinator outside r)
    (fun _ _ => False) fun e' q => SameFlags p q ∧ Mapped p e' .other := by
  unfold handleOther
  refine Ends.read_bind fun q hq => ?_
  subst hq
  simp only
  split
  · rename_i hpublished
    refine ends_raise ?_
    rintro _ rfl
    exact ⟨refl_of SameFlags _, _, rfl, by simp, rfl, by simp [hpublished]⟩
  · rename_i hpublished
    split
    · refine ends_release_raise.mono (fun _ h => h) (fun _ _ h => h) ?_
      rintro e' t ⟨h, released, rfl⟩
      exact ⟨h, _, rfl, by simp, rfl, by simp [hpublished, failure]⟩
    · refine ends_release_raise.mono (fun _ h => h) (fun _ _ h => h) ?_
      rintro e' t ⟨h, released, rfl⟩
      exact ⟨h, _, rfl, by simp, rfl, by simp [hpublished, failure]⟩

theorem ends_handle (e : Raised) : Ends (fun q => q = p) (handle coordinator outside r e)
    (fun _ _ => False) fun e' q => SameFlags p q ∧ Mapped p e' e := by
  have hreleased : ∀ e' : Raised, Mapped p e' e → Ends (fun q => q = p)
      (suppressedRelease coordinator outside r >>= fun _ =>
        (Stateful.raise e' : Stateful Raised Publishing TerminalPublishOutcome))
      (fun _ _ => False) fun e' q => SameFlags p q ∧ Mapped p e' e := fun e' he' =>
    (ends_suppressedRelease.mono (fun _ h => h) (fun _ _ h => h) fun _ _ h => h.elim).bind fun _ =>
      ends_raise fun q h => ⟨h, he'⟩
  cases e with
  | store fault => exact ends_handleOther
  | other => exact ends_handleOther
  | approvalDecision => exact hreleased _ rfl
  | product f => exact hreleased _ rfl
  | storage fault => exact hreleased _ ⟨_, rfl, rfl⟩

end Handlers

/-! ## What the guarded block leaves -/

section Guarded

variable (surroundings : Surroundings coordinator request)

/-- The pointer was replaced, or not. -/
def Placed (before : RunDirectory) (pointerBytes : String) (w : Stored) : Prop :=
  Unmoved before w ∨ Moved pointerBytes w

/-- A failure of the lock takes the place of whatever is raised. -/
def Superseded (before : RunDirectory) (w : Stored) : Prop :=
  w.publishing.leased = true ∧ surroundings.fault .leaseRelease ≠ none ∧ Unmoved before w

/-- What the guarded block leaves when it raises. -/
def Leaves (before : RunDirectory) (e : Raised) (w : Stored) : Prop :=
  Placed before surroundings.pointerBytes w ∧
    (Sound before surroundings.pointerBytes w e ∨ Superseded surroundings before w)

/-- Every failure of the product is truthful. -/
def Told (before : RunDirectory) (e : Raised) (w : Stored) : Prop :=
  ∀ f, e = .product f → Truthful before w.directory surroundings.pointerBytes w.replaced f

/-- What the handlers leave: what they raise is told, or will be replaced. -/
def Handled (before : RunDirectory) (e : Raised) (w : Stored) : Prop :=
  Placed before surroundings.pointerBytes w ∧
    (Told surroundings before e w ∨ Superseded surroundings before w)

variable {surroundings}

theorem Placed.aside (h : Placed before pointerBytes w) (ha : Aside w w') :
    Placed before pointerBytes w' :=
  h.imp (·.aside ha) (·.aside ha)

theorem Superseded.aside (h : Superseded surroundings before w) (ha : Aside w w') :
    Superseded surroundings before w' :=
  ⟨ha.leased.trans h.1, h.2.1, h.2.2.aside ha⟩

theorem Sound.aside (h : Sound before pointerBytes w e) (ha : Aside w w') :
    Sound before pointerBytes w' e := by
  cases e with
  | product f =>
    unfold Sound at h ⊢
    rwa [ha.directory, ha.replaced]
  | storage fault => exact Idle.aside h ha
  | store | approvalDecision | other => exact Placed.aside h ha

/-- What the handlers raise is told, or will be replaced. -/
theorem ends_handled (e : Raised) : Ends (Leaves surroundings before e)
    (onPublishing (handle coordinator surroundings.toOutside request.toTerminalPublishRequest e))
    (fun _ _ => False) (Handled surroundings before) := by
  refine ends_within fun w ⟨hplaced, hleft⟩ => ?_
  refine (ends_handle e).mono (fun _ h => h) (fun _ _ h => h) fun e' p ⟨hflags, hmapped⟩ => ?_
  have haside : Aside w { w with publishing := p } := ⟨hflags, rfl, rfl⟩
  refine ⟨hplaced.aside haside, hleft.imp (fun hsound => ?_) (·.aside haside)⟩
  rintro f rfl
  cases e with
  | approvalDecision => cases hmapped
  | product f' =>
    cases hmapped
    exact hsound.aside haside
  | storage fault =>
    obtain ⟨_, hf, hdomain⟩ := hmapped
    cases hf
    exact (Idle.aside hsound haside).truthful hdomain
  | store fault | other =>
    obtain ⟨_, hf, hfiles, hreconcile, hdomain⟩ := hmapped
    cases hf
    rcases hplaced with hunmoved | hmoved
    · rw [hunmoved.unpublished] at hdomain
      exact (hunmoved.aside haside).truthful hdomain hfiles
    · rw [hmoved.published] at hdomain
      exact (hmoved.aside haside).truthful hdomain hfiles hreconcile

/-- The release of the lock: it raises only what is told. -/
theorem ends_releaseLease {P : Stored → Prop} (hplaced : ∀ w, P w →
      Placed before surroundings.pointerBytes w) {Q : Unit → Stored → Prop}
    (hQ : ∀ w, P w → ¬ Superseded surroundings before w → Q () w) :
    Ends P (onPublishing (releaseLease coordinator surroundings.toOutside
      request.toTerminalPublishRequest)) Q (Told surroundings before) := by
  refine ends_within fun w hw => ?_
  unfold releaseLease
  refine Ends.read_bind fun p hp => ?_
  subst hp
  split
  · split
    · rename_i hfails
      refine ends_raise ?_
      rintro _ rfl f ⟨⟩
      have hunmoved : Unmoved before w := by
        rcases hplaced w hw with h | h
        · exact h
        · rw [h.published] at hfails
          exact absurd hfails.2 (by simp)
      refine Unmoved.truthful hunmoved rfl ?_
      simp only
      split <;> simp
    · rename_i hleased hfails
      refine ends_pure ?_
      rintro _ rfl
      exact hQ w hw fun hs => hfails ⟨hs.2.1, hs.2.2.unpublished⟩
  · rename_i hleased
    refine ends_pure ?_
    rintro _ rfl
    exact hQ w hw fun hs => hleased hs.1

/-- The guarded block with its handlers and the release of the lock. -/
theorem ends_of_guarded {P : Stored → Prop}
    (h : Ends P surroundings.guarded (fun _ => Placed before surroundings.pointerBytes)
      (Leaves surroundings before)) :
    Ends P ((surroundings.guarded.catching fun e => onPublishing (handle coordinator
        surroundings.toOutside request.toTerminalPublishRequest e)).ensuring
      (onPublishing (releaseLease coordinator surroundings.toOutside
        request.toTerminalPublishRequest))) (fun _ _ => True) (Told surroundings before) := by
  have hcaught : Ends P (surroundings.guarded.catching fun e => onPublishing (handle coordinator
      surroundings.toOutside request.toTerminalPublishRequest e))
      (fun _ => Placed before surroundings.pointerBytes) (Handled surroundings before) :=
    h.catching fun e => (ends_handled e).mono (fun _ h => h) (fun _ _ h => h.elim) fun _ _ h => h
  refine hcaught.ensuring (fun _ => ?_) fun e => ?_
  · exact ends_releaseLease (fun _ h => h) fun _ _ _ => trivial
  · exact ends_releaseLease (fun _ h => h.1) fun w h hs => h.2.resolve_right hs

/-! ## The steps -/

/-- The steps that raise neither a failure of the product nor one of the lock. -/
def Step.plain : Step → Bool
  | .prepare | .ownership | .scanAliases | .authority | .rescanAliases | .preManifestVerifier => false
  | _ => true

theorem Step.plain_raises {s : Step} (hs : s.plain = true)
    (h : s.MayRaise coordinator request.toTerminalPublishRequest e) (hp : Placed before pointerBytes w) :
    Sound before pointerBytes w e := by
  cases e with
  | store fault => exact hp
  | approvalDecision => exact hp
  | other => exact hp
  | product f => cases s <;> first | exact absurd hs (by decide) | exact False.elim h
  | storage fault => cases s <;> first | exact absurd hs (by decide) | exact False.elim h

/-- What any step raises before anything was done. -/
theorem Step.idle_raises {s : Step}
    (h : s.MayRaise coordinator request.toTerminalPublishRequest e) (hi : Idle before w) :
    Sound before pointerBytes w e := by
  cases e with
  | store fault => exact .inl hi.unmoved
  | approvalDecision => exact .inl hi.unmoved
  | other => exact .inl hi.unmoved
  | storage fault => exact hi
  | product f =>
    refine hi.truthful ?_
    cases s with
    | prepare => cases h; rfl
    | scanAliases => cases h; rfl
    | rescanAliases => cases h; rfl
    | preManifestVerifier => exact h
    | _ => cases h

/-- A step keeps what the new entries of the directory keep. -/
theorem ends_step {P : Stored → Prop}
    (hP : ∀ w paths, P w → P { w with directory := w.directory.createAll paths }) (s : Step) :
    Ends P (surroundings.step s) (fun _ => P)
      fun e w => P w ∧ s.MayRaise coordinator request.toTerminalPublishRequest e := by
  intro w hw
  unfold Surroundings.step
  cases hfault : surroundings.fault s with
  | none => exact hP w _ hw
  | some e => exact ⟨hP w _ hw, surroundings.raises s e hfault⟩

theorem ends_plain {P : Stored → Prop}
    (hP : ∀ w paths, P w → P { w with directory := w.directory.createAll paths })
    (hplaced : ∀ w, P w → Placed before surroundings.pointerBytes w) {s : Step}
    (hs : s.plain = true) :
    Ends P (surroundings.step s) (fun _ => P) (Leaves surroundings before) :=
  (ends_step hP s).mono (fun _ h => h) (fun _ _ h => h) fun _ w h =>
    ⟨hplaced w h.1, .inl (Step.plain_raises hs h.2 (hplaced w h.1))⟩

/-- A step that makes no entries. -/
theorem ends_idle {P : Stored → Prop} (hP : ∀ w, P w → Idle before w) {s : Step}
    (hs : surroundings.creates s = []) :
    Ends P (surroundings.step s) (fun _ => P) (Leaves surroundings before) := by
  intro w hw
  unfold Surroundings.step
  rw [hs, List.take_nil]
  cases hfault : surroundings.fault s with
  | none => exact hw
  | some e =>
    exact ⟨.inl (hP w hw).unmoved, .inl (Step.idle_raises (surroundings.raises s e hfault) (hP w hw))⟩

/-! ## The directory while the revision is staged -/

theorem create_current (directory : RunDirectory) (path : Path) :
    (directory.create path).current = directory.current := by
  unfold RunDirectory.create
  split <;> rfl

theorem mem_create {directory : RunDirectory} {path other : Path} :
    other ∈ (directory.create path).entries ↔ other ∈ directory.entries ∨ other = path := by
  unfold RunDirectory.create
  split
  · rename_i hmem
    refine ⟨.inl, ?_⟩
    rintro (h | rfl)
    · exact h
    · exact hmem
  · simp

@[simp] theorem createAll_current (directory : RunDirectory) (paths : List Path) :
    (directory.createAll paths).current = directory.current := by
  unfold RunDirectory.createAll
  induction paths generalizing directory with
  | nil => rfl
  | cons path paths ih =>
    rw [List.foldl_cons, ih, create_current]

@[simp] theorem mem_createAll {directory : RunDirectory} {paths : List Path} {other : Path} :
    other ∈ (directory.createAll paths).entries ↔ other ∈ directory.entries ∨ other ∈ paths := by
  unfold RunDirectory.createAll
  induction paths generalizing directory with
  | nil => simp
  | cons path paths ih =>
    rw [List.foldl_cons, ih, mem_create, List.mem_cons]
    tauto

/-- Up to the check of the namespace: nothing has left the directory. -/
structure Fresh (before : RunDirectory) (w : Stored) : Prop extends Unmoved before w where
  entries : ∀ path ∈ before.entries, path ∈ w.directory.entries

/-- The revision is new, and the entry `path` is there. -/
structure Holds (before : RunDirectory) (request : StagedRequest) (path : Path) (w : Stored) :
    Prop extends Unmoved before w where
  new : request.revision ∉ before.entries
  here : path ∈ w.directory.entries

theorem Unmoved.createAll (h : Unmoved before w) (paths : List Path) :
    Unmoved before { w with directory := w.directory.createAll paths } :=
  ⟨(createAll_current _ _).trans h.current, h.kept, h.unpublished⟩

theorem Fresh.createAll (w : Stored) (paths : List Path) (h : Fresh before w) :
    Fresh before { w with directory := w.directory.createAll paths } :=
  ⟨h.toUnmoved.createAll paths, fun path hpath => mem_createAll.2 (.inl (h.entries path hpath))⟩

theorem Holds.createAll {path : Path} (w : Stored) (paths : List Path)
    (h : Holds before request path w) :
    Holds before request path { w with directory := w.directory.createAll paths } :=
  ⟨h.toUnmoved.createAll paths, h.new, mem_createAll.2 (.inl h.here)⟩

theorem Holds.placed {path : Path} (w : Stored) (h : Holds before request path w) :
    Placed before pointerBytes w := .inl h.toUnmoved

theorem Fresh.placed (w : Stored) (h : Fresh before w) : Placed before pointerBytes w :=
  .inl h.toUnmoved

theorem Idle.fresh (h : Idle before w) : Fresh before w :=
  ⟨h.unmoved, fun _ hpath => h.directory ▸ hpath⟩

/-- The namespace is checked before the staging directory is made. -/
theorem ends_namespaceCollision : Ends (Fresh before) surroundings.namespaceCollision
    (fun _ w => Fresh before w ∧ request.revision ∉ before.entries) (Leaves surroundings before) := by
  unfold Surroundings.namespaceCollision
  refine (ends_plain Fresh.createAll Fresh.placed rfl).bind fun _ => ?_
  refine Ends.read_bind fun w hw => ?_
  split
  · refine ends_raise ?_
    rintro _ rfl
    exact ⟨hw.placed, .inl hw.placed⟩
  · rename_i hfree
    refine ends_pure ?_
    rintro _ rfl
    exact ⟨hw, fun hmem => hfree (.inr (hw.entries _ hmem))⟩

theorem ends_stagingMkdir : Ends (fun w => Fresh before w ∧ request.revision ∉ before.entries)
    (surroundings.step .stagingMkdir) (fun _ => Holds before request request.staging)
    (Leaves surroundings before) := by
  rintro w ⟨hw, hnew⟩
  unfold Surroundings.step
  cases hfault : surroundings.fault .stagingMkdir with
  | none => exact ⟨hw.toUnmoved.createAll _, hnew, mem_createAll.2 (.inr (List.mem_singleton.2 rfl))⟩
  | some e =>
    have hmade := hw.toUnmoved.createAll
      ((surroundings.creates .stagingMkdir).take (surroundings.made .stagingMkdir))
    exact ⟨.inl hmade, .inl (Step.plain_raises rfl (surroundings.raises _ e hfault) (.inl hmade))⟩

/-- A step while the entry is there. -/
theorem ends_holding {path : Path} {s : Step} (hs : s.plain = true) :
    Ends (Holds before request path) (surroundings.step s) (fun _ => Holds before request path)
      (Leaves surroundings before) :=
  ends_plain Holds.createAll Holds.placed hs

theorem ends_rename : Ends (Holds before request request.staging) surroundings.rename
    (fun _ => Holds before request request.revision) (Leaves surroundings before) := by
  unfold Surroundings.rename
  refine (ends_holding rfl).bind fun _ => ends_modify fun w hw => ?_
  refine ⟨⟨hw.current, hw.kept, hw.unpublished⟩, hw.new, ?_⟩
  refine List.mem_map.2 ⟨request.staging, hw.here, ?_⟩
  rw [if_pos (List.prefix_refl _), List.drop_length, List.append_nil]

theorem ends_finalCas : Ends (Holds before request request.revision) surroundings.finalCas
    (fun _ => Holds before request request.revision) (Leaves surroundings before) := by
  unfold Surroundings.finalCas
  refine (ends_holding rfl).bind fun _ => Ends.read_bind fun w hw => ?_
  have hconflict : ∀ f : ProductRunFailureV2, f.domainEffect = .currentUnchanged →
      f.filesystemEffect ≠ .none → Leaves surroundings before (.product f) w :=
    fun f hdomain hfiles => ⟨.inl hw.toUnmoved, .inl (hw.toUnmoved.truthful hdomain hfiles)⟩
  split
  · refine ends_pure ?_
    rintro _ rfl
    exact hw
  · refine ends_raise ?_
    rintro _ rfl
    exact hconflict _ rfl (by simp)
  · refine ends_raise ?_
    rintro _ rfl
    exact ⟨hw.placed, .inl hw.placed⟩
  · split
    · refine ends_raise ?_
      rintro _ rfl
      exact hconflict _ rfl (by simp)
    · refine ends_pure ?_
      rintro _ rfl
      exact hw

/-- The pointer is replaced, and a revision is there that was not before the call. -/
structure Published (before : RunDirectory) (pointerBytes : String) (request : StagedRequest)
    (w : Stored) : Prop extends Moved pointerBytes w where
  new : request.revision ∉ before.entries
  here : request.revision ∈ w.directory.entries

theorem revision_ne_temporary : request.revision ≠ request.temporary := by
  intro h
  have hlength := congrArg List.length h
  simp [StagedRequest.revision, StagedRequest.temporary, RunDirectory.revisions,
    RunDirectory.control] at hlength

theorem ends_replace : Ends (Holds before request request.revision) surroundings.replace
    (fun _ => Published before surroundings.pointerBytes request) (Leaves surroundings before) := by
  unfold Surroundings.replace
  refine (ends_holding rfl).bind fun _ => ends_modify fun w hw => ?_
  refine ⟨⟨rfl, rfl, rfl⟩, hw.new, ?_⟩
  exact List.mem_filter.2 ⟨hw.here, by simpa using revision_ne_temporary⟩

theorem ends_stage : Ends (Idle before) surroundings.stage
    (fun _ => Published before surroundings.pointerBytes request) (Leaves surroundings before) := by
  unfold Surroundings.stage
  refine (ends_idle (fun _ h => h) rfl).bind fun _ => (ends_idle (fun _ h => h) rfl).bind fun _ => ?_
  refine Ends.bind (Q := fun _ => Fresh before)
    ((ends_plain Fresh.createAll Fresh.placed rfl).mono (fun _ h => h.fresh) (fun _ _ h => h)
      fun _ _ h => h) fun _ => ?_
  refine ends_namespaceCollision.bind fun _ => ends_stagingMkdir.bind fun _ => ?_
  refine (ends_holding rfl).bind fun _ => (ends_holding rfl).bind fun _ => ?_
  refine (Ends.forM (fun name => ends_holding rfl) _).bind fun _ => ?_
  refine (ends_holding rfl).bind fun _ => (ends_holding rfl).bind fun _ => ?_
  refine (ends_holding rfl).bind fun _ => (ends_holding rfl).bind fun _ => ?_
  refine (ends_holding rfl).bind fun _ => ends_rename.bind fun _ => ?_
  refine (ends_holding rfl).bind fun _ => (ends_holding rfl).bind fun _ => ?_
  refine ends_finalCas.bind fun _ => (ends_holding rfl).bind fun _ => ?_
  refine (ends_holding rfl).bind fun _ => (ends_holding rfl).bind fun _ => ends_replace

/-! ## The two reads -/

/-- The failures of a read that report the current revision unchanged. -/
def ReadFault.mistaken : ReadFault → Bool
  | .budgetUnverified .. | .other => false
  | _ => true

theorem ReadFault.raised_mistaken {fault : ReadFault} (h : fault.mistaken = true)
    (r : TerminalPublishRequest) :
    ∃ f, fault.raised coordinator r = .product f ∧ f.domainEffect = .currentUnchanged ∧
      f.filesystemEffect = .none := by
  cases fault with
  | budgetUnverified | other => cases h
  | _ => exact ⟨_, rfl, rfl, rfl⟩

theorem ends_readCurrent {reading : Reading} {r : TerminalPublishRequest} :
    Ends (fun t => t = w) (readCurrent coordinator r reading) (fun _ t => t = w)
      fun e t => t = w ∧ ∃ fault, w.directory.readCurrent reading = .error fault ∧
        e = fault.raised coordinator r := by
  unfold readCurrent
  refine Ends.read_bind fun u hu => ?_
  subst hu
  refine ends_lift (fun _ _ ht _ => ht) fun e t ht he => ⟨ht, ?_⟩
  cases hread : u.directory.readCurrent reading with
  | ok current =>
    rw [hread] at he
    cases he
  | error fault =>
    rw [hread] at he
    cases he
    exact ⟨fault, rfl, rfl⟩

theorem readCurrent_of_current {directory : RunDirectory} {data : String}
    (h : directory.current = some data) (reading : Reading) :
    directory.readCurrent reading = reading.outcome := by
  unfold RunDirectory.readCurrent
  rw [h]
  rfl

theorem readCurrent_error {r : TerminalPublishRequest} {data : String}
    (hdata : w.directory.current = some data) {reading : Reading} {fault : ReadFault}
    (hfault : reading.outcome = .error fault) :
    readCurrent coordinator r reading w = (.error (fault.raised coordinator r), w) := by
  show Stateful.lift ((w.directory.readCurrent reading).mapError _) w = _
  rw [readCurrent_of_current hdata, hfault]
  rfl

/-- The admission finds the settlement of another current revision unverified,
and the lock is given back. -/
def AdmissionMisreports (surroundings : Surroundings coordinator request) (before : RunDirectory) :
    Prop :=
  (∃ revision pointerSha256,
    surroundings.admission.outcome = .error (.budgetUnverified revision pointerSha256)) ∧
  (∃ data, before.current = some data ∧ data ≠ surroundings.pointerBytes) ∧
  surroundings.fault .leaseRelease = none

/-- The closing read fails, and not because of the settlement. -/
def ClosingMisreports (surroundings : Surroundings coordinator request) : Prop :=
  ∃ fault, surroundings.closing.outcome = .error fault ∧ fault.mistaken = true

theorem ends_acquire : Ends (Idle before) surroundings.acquire
    (fun _ w => Idle before w ∧ w.publishing.leased = true) (Leaves surroundings before) := by
  unfold Surroundings.acquire
  refine (ends_idle (fun _ h => h) rfl).bind fun _ => (ends_idle (fun _ h => h) rfl).bind fun _ => ?_
  refine (ends_idle (fun _ h => h) rfl).bind fun _ => ?_
  refine Ends.bind (Q := fun _ w => Idle before w ∧ w.publishing.leased = true) ?_ fun _ => ?_
  · refine ends_within fun w hw => ends_modify ?_
    rintro _ rfl
    exact ⟨⟨hw.directory, hw.kept, hw.unpublished⟩, rfl⟩
  · refine (ends_idle (fun _ h => h.1) rfl).bind fun _ => ?_
    exact ends_idle (fun _ h => h.1) rfl

/-- What the read of the admission raises, when the admission does not misreport. -/
theorem leaves_of_admission (h : ¬ AdmissionMisreports surroundings before) (hw : Idle before w)
    (hleased : w.publishing.leased = true) {data : String} (hdata : w.directory.current = some data)
    {fault : ReadFault} (hfault : surroundings.admission.outcome = .error fault) :
    Leaves surroundings before (fault.raised coordinator request.toTerminalPublishRequest) w := by
  refine ⟨.inl hw.unmoved, ?_⟩
  cases hmistaken : fault.mistaken with
  | true =>
    obtain ⟨f, hf, hdomain, _⟩ :=
      @ReadFault.raised_mistaken coordinator fault hmistaken request.toTerminalPublishRequest
    rw [hf]
    exact .inl (hw.truthful hdomain)
  | false =>
    cases fault with
    | other => exact .inl (.inl hw.unmoved)
    | budgetUnverified revision pointerSha256 =>
      by_cases hsame : data = surroundings.pointerBytes
      · refine .inl ⟨fun hunchanged => ?_, fun _ => hdata.trans (congrArg some hsame),
          fun hnone => ?_, fun _ => rfl⟩
        · cases hunchanged
        · cases hnone
      · refine .inr ⟨hleased, fun hreleased => h ⟨⟨_, _, hfault⟩, ⟨data, ?_, hsame⟩, hreleased⟩,
          hw.unmoved⟩
        exact hw.unmoved.current.symm.trans hdata
    | _ => cases hmistaken

theorem ends_admitCurrent (h : ¬ AdmissionMisreports surroundings before) :
    Ends (fun w => Idle before w ∧ w.publishing.leased = true) surroundings.admitCurrent
      (fun _ => Idle before) (Leaves surroundings before) := by
  unfold Surroundings.admitCurrent
  refine Ends.read_bind fun w ⟨hw, hleased⟩ => ?_
  have htold : ∀ f : ProductRunFailureV2, f.domainEffect = .currentUnchanged →
      Leaves surroundings before (.product f) w :=
    fun f hdomain => ⟨.inl hw.unmoved, .inl (hw.truthful hdomain)⟩
  have hrefused : ∀ f : ProductRunFailureV2, f.domainEffect = .currentUnchanged →
      Ends (fun t => t = w) (Stateful.raise (.product f) : Stateful Raised Stored Bool)
        (fun _ => Idle before) (Leaves surroundings before) := by
    intro f hdomain
    refine ends_raise ?_
    rintro _ rfl
    exact htold f hdomain
  have hadmitted : ∀ b : Bool, Ends (fun t => t = w) (pure b : Stateful Raised Stored Bool)
      (fun _ => Idle before) (Leaves surroundings before) := by
    intro b
    refine ends_pure ?_
    rintro _ rfl
    exact hw
  split
  · split
    · exact hrefused _ rfl
    · exact hadmitted false
  · rename_i hcurrent
    obtain ⟨data, hdata⟩ := Option.ne_none_iff_exists'.1 (by simpa using hcurrent)
    refine Ends.bind (Q := fun _ t => t = w) (ends_readCurrent.mono (fun _ ht => ht)
      (fun _ _ ht => ht) ?_) fun current => ?_
    · rintro e t ⟨rfl, fault, hread, rfl⟩
      rw [readCurrent_of_current hdata] at hread
      exact leaves_of_admission h hw hleased hdata hread
    · split
      · split
        · exact hadmitted true
        · exact hrefused _ rfl
      · split
        · exact hrefused _ rfl
        · exact hadmitted false

theorem ends_settle : Ends (Published before surroundings.pointerBytes request) surroundings.settle
    (fun _ => Published before surroundings.pointerBytes request) (Leaves surroundings before) := by
  have hcreate : ∀ w paths, Published before surroundings.pointerBytes request w →
      Published before surroundings.pointerBytes request
        { w with directory := w.directory.createAll paths } := fun w paths hw =>
    ⟨⟨(createAll_current _ _).trans hw.current, hw.replaced, hw.published⟩, hw.new,
      mem_createAll.2 (.inl hw.here)⟩
  have hplaced : ∀ w, Published before surroundings.pointerBytes request w →
      Placed before surroundings.pointerBytes w := fun w hw => .inr hw.toMoved
  unfold Surroundings.settle
  refine (ends_plain hcreate hplaced rfl).bind fun _ => (ends_plain hcreate hplaced rfl).bind fun _ => ?_
  refine (ends_plain hcreate hplaced rfl).bind fun _ => ?_
  have haside : ∀ w w', Published before surroundings.pointerBytes request w → Aside w w' →
      Published before surroundings.pointerBytes request w' := fun w w' hw ha =>
    ⟨hw.toMoved.aside ha, hw.new, ha.directory ▸ hw.here⟩
  refine Ends.catching (E := fun _ => Published before surroundings.pointerBytes request)
    (ends_of_always (aside_onPublishing sameFlags_settle) (fun w w' _ hw ha => haside w w' hw ha)
      fun w w' _ hw ha => haside w w' hw ha) fun e => ends_raise fun w hw => ?_
  exact ⟨hplaced w hw, .inl (hplaced w hw)⟩

/-! ## The publication -/

/-- The misreports of a call: the admission or the closing read is reached, and misreports. -/
def Misreports (surroundings : Surroundings coordinator request) (start : Stored) : Prop :=
  ((∃ w, Returns (do surroundings.reserve; surroundings.acquire) start () w) ∧
    AdmissionMisreports surroundings start.directory) ∨
  ((∃ w, Returns (do surroundings.reserve; surroundings.advance) start true w) ∧
    ClosingMisreports surroundings)

/-- Nothing is done to the directory before the guarded block, and every failure is told. -/
theorem ends_reserve : Ends (Idle before) surroundings.reserve (fun _ => Idle before)
    (Told surroundings before) := by
  have htold : ∀ {s : Step}, surroundings.creates s = [] → Ends (Idle before) (surroundings.step s)
      (fun _ => Idle before) (Told surroundings before) := by
    intro s hs w hw
    unfold Surroundings.step
    rw [hs, List.take_nil]
    cases hfault : surroundings.fault s with
    | none => exact hw
    | some e =>
      rintro f rfl
      exact Step.idle_raises (surroundings.raises s _ hfault) hw
  unfold Surroundings.reserve
  refine (htold rfl).bind fun _ => (htold rfl).bind fun _ => ?_
  refine ends_within fun w hw => ?_
  unfold reserved
  refine Ends.catching (E := fun _ p => Idle before { w with publishing := p })
    (ends_of_always sameFlags_reserve ?_ ?_) fun e => ends_raise fun p hp => ?_
  · rintro _ p _ rfl hflags
    exact hw.aside ⟨hflags, rfl, rfl⟩
  · rintro _ p _ rfl hflags
    exact hw.aside ⟨hflags, rfl, rfl⟩
  · rintro f ⟨⟩
    exact hp.truthful rfl

/-- The guarded block up to the closing read, when the admission does not misreport. -/
theorem ends_advance (hw : Idle before w)
    (h : (∃ u, Returns surroundings.acquire w () u) → ¬ AdmissionMisreports surroundings before) :
    Ends (fun t => t = w) surroundings.advance
      (fun advanced u => (if advanced then Published before surroundings.pointerBytes request u
        else Idle before u) ∧ Returns surroundings.advance w advanced u)
      (Leaves surroundings before) := by
  refine Ends.returns (P := fun t => t = w) ?_ rfl
  unfold Surroundings.advance
  refine (ends_acquire.returns hw).bind fun _ t ht => ?_
  refine (ends_admitCurrent (h ⟨t, ht.2⟩)).bind (R := fun advanced u => if advanced = true then
    Published before surroundings.pointerBytes request u else Idle before u) (fun replay => ?_) t ht.1
  cases replay with
  | true => exact ends_pure fun _ hu => hu
  | false => exact ends_stage.bind fun _ => ends_settle.bind fun _ => ends_pure fun _ hu => hu

/-- The whole publication, when it does not misreport. -/
theorem ends_publish {start : Stored} (hstart : Idle before start)
    (h : ¬ Misreports surroundings start) :
    Ends (fun t => t = start) surroundings.publish (fun _ _ => True) (Told surroundings before) := by
  unfold Surroundings.publish
  refine (ends_reserve.returns hstart).bind fun _ w ⟨hw, hreserved⟩ => ?_
  refine ends_of_guarded (P := fun t => t = w) ?_ w rfl
  unfold Surroundings.guarded
  refine (ends_advance hw ?_).bind fun advanced u ⟨hu, hreturns⟩ => ?_
  · rintro ⟨u, hu⟩ hmisreports
    refine h (.inl ⟨⟨u, returns_bind.2 ⟨(), w, hreserved, hu⟩⟩, ?_⟩)
    rwa [hstart.directory]
  · cases advanced with
    | false => exact .inl hu.unmoved
    | true =>
      have hsound : Ends (fun t => t = u)
          (readCurrent coordinator request.toTerminalPublishRequest surroundings.closing)
          (fun _ t => t = u) (Leaves surroundings before) := by
        refine ends_readCurrent.mono (fun _ ht => ht) (fun _ _ ht => ht) ?_
        rintro e _ ⟨rfl, fault, hread, rfl⟩
        rw [readCurrent_of_current hu.current] at hread
        refine ⟨.inr hu.toMoved, .inl ?_⟩
        cases fault with
        | other => exact .inr hu.toMoved
        | budgetUnverified revision pointerSha256 => exact hu.toMoved.truthful rfl (by simp) rfl
        | _ =>
          exact absurd (.inr ⟨⟨_, returns_bind.2 ⟨(), w, hreserved, hreturns⟩⟩, _, hread, rfl⟩) h
      exact (hsound.bind fun _ => ends_pure fun t ht => ht ▸ .inr hu.toMoved) u rfl

/-! ## What is misreported -/

/-- A failure of the product goes through the handlers, and through the release
of the lock unless that raises. -/
theorem guarded_product {u after : Stored} {e' : Raised}
    (hguarded : surroundings.guarded w = (.error (.product f), u))
    (hrelease : u.publishing.pointerPublished = true ∨ surroundings.fault .leaseRelease = none)
    (hrun : ((surroundings.guarded.catching fun e => onPublishing (handle coordinator
        surroundings.toOutside request.toTerminalPublishRequest e)).ensuring
      (onPublishing (releaseLease coordinator surroundings.toOutside
        request.toTerminalPublishRequest))) w = (.error e', after)) :
    e' = .product f ∧ Aside u after := by
  have hhandled : Ends (fun t => t = u) (onPublishing (handle coordinator surroundings.toOutside
      request.toTerminalPublishRequest (.product f))) (fun _ _ => False)
      fun e t => e = .product f ∧ Aside u t := by
    refine ends_within ?_
    rintro _ rfl
    refine (ends_handle _).mono (fun _ h => h) (fun _ _ h => h) fun e p ⟨hflags, hmapped⟩ => ?_
    exact ⟨hmapped, hflags, rfl, rfl⟩
  have hreleased : ∀ t, Aside u t → Ends (fun x => x = t) (onPublishing (releaseLease coordinator
      surroundings.toOutside request.toTerminalPublishRequest)) (fun _ x => Aside u x)
      fun _ _ => False := by
    intro t ht
    refine ends_within ?_
    rintro x rfl
    unfold releaseLease
    refine Ends.read_bind fun p hp => ?_
    subst hp
    have hkeep : Ends (fun p => p = x.publishing) (pure () : Stateful Raised Publishing Unit)
        (fun _ p => Aside u { x with publishing := p }) fun _ _ => False := by
      refine ends_pure ?_
      rintro _ rfl
      exact ht
    split
    · split
      · rename_i hfails
        rcases hrelease with hpublished | hnone
        · rw [ht.pointerPublished, hpublished] at hfails
          exact absurd hfails.2 (by simp)
        · exact absurd hnone hfails.1
      · exact hkeep
    · exact hkeep
  have hends : Ends (fun t => t = w) ((surroundings.guarded.catching fun e => onPublishing
      (handle coordinator surroundings.toOutside request.toTerminalPublishRequest e)).ensuring
      (onPublishing (releaseLease coordinator surroundings.toOutside
        request.toTerminalPublishRequest))) (fun _ _ => False)
      fun e t => e = .product f ∧ Aside u t := by
    refine Ends.ensuring (Q := fun _ _ => False) (E := fun e t => e = .product f ∧ Aside u t) ?_
      (fun _ => fun _ h => h.elim) fun e t ⟨he, ht⟩ => ?_
    · refine Ends.catching (E := fun e t => e = .product f ∧ t = u) ?_ fun e => ?_
      · rintro _ rfl
        rw [hguarded]
        exact ⟨rfl, rfl⟩
      · rintro t ⟨rfl, ht⟩
        exact hhandled t ht
    · exact ((hreleased t ht).mono (fun _ h => h) (fun _ x hx => ⟨he, hx⟩) fun _ _ h => h.elim) t rfl
  exact hends.error rfl hrun

/-- An admission that misreports: the failure claims the requested pointer. -/
theorem admission_not_truthful {start after u : Stored} (hstart : Idle before start)
    (hreach : Returns (do surroundings.reserve; surroundings.acquire) start () u)
    (hmis : AdmissionMisreports surroundings before)
    (hraised : surroundings.publish start = (.error (.product f), after)) :
    ¬ Truthful before after.directory surroundings.pointerBytes after.replaced f := by
  obtain ⟨⟨revision, pointerSha256, hfault⟩, ⟨data, hdata, hother⟩, hnone⟩ := hmis
  obtain ⟨⟨⟩, w, hreserved, hacquired⟩ := returns_bind.1 hreach
  have hu : Idle before u := (ends_acquire.ok (ends_reserve.ok hstart hreserved) hacquired).1
  have hcurrent : u.directory.current = some data := hu.unmoved.current.trans hdata
  have hadmit : surroundings.admitCurrent u = (.error ((ReadFault.budgetUnverified revision
      pointerSha256).raised coordinator request.toTerminalPublishRequest), u) := by
    unfold Surroundings.admitCurrent
    rw [bind_of_ok (show (Stateful.read : Stateful Raised Stored Stored) u = (.ok u, u) from rfl)]
    simp only [hcurrent, Option.isNone_some, Bool.false_eq_true, if_false]
    exact bind_of_error (readCurrent_error hcurrent hfault)
  have hguarded : surroundings.guarded w = (.error ((ReadFault.budgetUnverified revision
      pointerSha256).raised coordinator request.toTerminalPublishRequest), u) := by
    unfold Surroundings.guarded
    refine bind_of_error ?_
    unfold Surroundings.advance
    rw [bind_of_ok hacquired, bind_of_error hadmit]
  unfold Surroundings.publish at hraised
  rw [bind_of_ok hreserved] at hraised
  obtain ⟨hf, haside⟩ := guarded_product hguarded (.inr hnone) hraised
  cases hf
  intro h
  have hadvanced := h.advanced rfl
  rw [haside.directory, hcurrent] at hadvanced
  exact hother (Option.some_inj.1 hadvanced)

/-- A closing read that misreports: the failure claims that nothing was left. -/
theorem closing_not_truthful {start after w u : Stored} (hu : Published before
      surroundings.pointerBytes request u)
    (hreserved : Returns surroundings.reserve start () w)
    (hadvanced : Returns surroundings.advance w true u) (hmis : ClosingMisreports surroundings)
    (hraised : surroundings.publish start = (.error (.product f), after)) :
    ¬ Truthful before after.directory surroundings.pointerBytes after.replaced f := by
  obtain ⟨fault, hfault, hmistaken⟩ := hmis
  obtain ⟨f', hf', -, hfiles⟩ :=
    @ReadFault.raised_mistaken coordinator fault hmistaken request.toTerminalPublishRequest
  have hguarded : surroundings.guarded w = (.error (.product f'), u) := by
    unfold Surroundings.guarded
    rw [bind_of_ok hadvanced, ← hf']
    exact bind_of_error (readCurrent_error hu.current hfault)
  unfold Surroundings.publish at hraised
  rw [bind_of_ok hreserved] at hraised
  obtain ⟨hf, haside⟩ := guarded_product hguarded (.inl hu.published) hraised
  cases hf
  intro h
  have hnew := h.nothing hfiles request.revision
    (List.mem_append_left _ (haside.directory ▸ hu.here))
  rcases List.mem_append.1 hnew with hmem | hmem
  · exact hu.new hmem
  · split at hmem
    · have hlength := congrArg List.length (List.mem_singleton.1 hmem)
      simp [StagedRequest.revision, RunDirectory.revisions, RunDirectory.control] at hlength
    · cases hmem

end Guarded

/-! ## When the report is so -/

/-- A publication that fails reports what is so, except when the admission finds
another current revision unsettled and when the closing read fails for another
reason than the settlement. -/
theorem publish_truthful_iff (coordinator : DurableBudgetCoordinator) (request : StagedRequest)
    (surroundings : Surroundings coordinator request) (store : DurableBudgetStore)
    (directory : RunDirectory) (f : ProductRunFailureV2) (after : Stored)
    (hraised : surroundings.publish { publishing := { store }, directory } =
      (.error (.product f), after)) :
    Truthful directory after.directory surroundings.pointerBytes after.replaced f ↔
      ¬ Misreports surroundings { publishing := { store }, directory } := by
  have hstart : Idle directory { publishing := { store }, directory } := ⟨rfl, rfl, rfl⟩
  constructor
  · rintro htruthful (⟨⟨u, hreach⟩, hmis⟩ | ⟨⟨u, hreach⟩, hmis⟩)
    · exact admission_not_truthful hstart hreach hmis hraised htruthful
    · obtain ⟨⟨⟩, w, hreserved, hadvanced⟩ := returns_bind.1 hreach
      by_cases hadmission : (∃ u, Returns surroundings.acquire w () u) ∧
          AdmissionMisreports surroundings directory
      · obtain ⟨⟨u, hu⟩, hmis⟩ := hadmission
        exact admission_not_truthful hstart (returns_bind.2 ⟨(), w, hreserved, hu⟩) hmis hraised
          htruthful
      · have hw := ends_reserve.ok hstart hreserved
        have hu := (ends_advance hw fun hreach hmis => hadmission ⟨hreach, hmis⟩).ok rfl hadvanced
        exact closing_not_truthful hu.1 hreserved hadvanced hmis hraised htruthful
  · intro h
    exact (ends_publish hstart h).error rfl hraised f rfl

/-! ## A closing read that fails, and a lock held elsewhere -/

def sampleStaged : StagedRequest :=
  { sampleRequest "1" with expectedRevision := none, expectedManifestSha256 := none }

/-- The first publication of an empty run. -/
def sampleStart : Stored where
  publishing := { store := run sampleCoordinator.sha256 "run-1" [] }
  directory := { current := none, entries := [] }

def sampleRead : VerifiedRunReadV2 where
  revision := 1
  transactionId := "txn-1"
  manifestSha256 := sampleEvidence
  currentPointerSha256 := sampleEvidence

/-- Nothing fails until the published revision is read back. -/
def sampleUnread : Surroundings sampleCoordinator sampleStaged :=
  { sampleQuiet with
    made := fun _ => 0
    pointerDigest := id
    pointerBytes := "pointer-1"
    admission := { opening := none, verified := .ok sampleRead }
    closing := { opening := none, verified := .error .corrupt }
    raises := by simp [sampleQuiet] }

theorem raisedFailure_eq_some {r : Except Raised TerminalPublishOutcome}
    (h : raisedFailure r = some f) : r = .error (.product f) := by
  unfold raisedFailure at h
  split at h
  · cases h
    rfl
  · cases h

/-- The published revision is reported as no effect at all. -/
theorem closing_read_misreports : ∃ f after,
    sampleUnread.publish sampleStart = (.error (.product f), after) ∧
    f.domainEffect = .currentUnchanged ∧ f.filesystemEffect = .none ∧
    after.directory.current = some "pointer-1" ∧
    ¬ Truthful sampleStart.directory after.directory sampleUnread.pointerBytes after.replaced f := by
  have hends : ((raisedFailure (sampleUnread.publish sampleStart).1).map fun f =>
      (f.domainEffect, f.filesystemEffect)) = some (.currentUnchanged, .none) ∧
      (sampleUnread.publish sampleStart).2.directory.current = some "pointer-1" := by decide +kernel
  obtain ⟨hraised, hcurrent⟩ := hends
  rcases hrun : sampleUnread.publish sampleStart with ⟨r, after⟩
  rw [hrun] at hraised hcurrent
  obtain ⟨f, hf, heffects⟩ := Option.map_eq_some_iff.1 hraised
  obtain rfl := raisedFailure_eq_some hf
  obtain ⟨hdomain, hfiles⟩ := Prod.mk.inj heffects
  refine ⟨f, after, rfl, hdomain, hfiles, hcurrent, fun h => ?_⟩
  have hunchanged := h.unchanged hdomain
  rw [hcurrent] at hunchanged
  cases hunchanged

/-- The run lock is held elsewhere. -/
def sampleLocked : Surroundings sampleCoordinator sampleStaged :=
  { sampleUnread with
    toOutside := sampleContended
    closing := { opening := none, verified := .ok sampleRead }
    raises := by
      intro s e h
      cases s with
      | authority => cases h; trivial
      | _ => cases h }

theorem publish_truthful_iff_locked : ∃ f after,
    sampleLocked.publish sampleStart = (.error (.product f), after) ∧ f.code = .runLocked ∧
    Truthful sampleStart.directory after.directory sampleLocked.pointerBytes after.replaced f := by
  have hends : ((raisedFailure (sampleLocked.publish sampleStart).1).map (·.code)) =
      some .runLocked := by decide +kernel
  rcases hrun : sampleLocked.publish sampleStart with ⟨r, after⟩
  rw [hrun] at hends
  obtain ⟨f, hf, hcode⟩ := Option.map_eq_some_iff.1 hends
  obtain rfl := raisedFailure_eq_some hf
  refine ⟨f, after, rfl, hcode, (publish_truthful_iff _ _ sampleLocked _ _ f after hrun).2 ?_⟩
  rintro (⟨-, ⟨_, _, hfault⟩, -⟩ | ⟨-, _, hfault, -⟩)
  · cases hfault
  · cases hfault

end PokerDeliberation.Terminal
