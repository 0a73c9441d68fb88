import PokerDeliberation.Cleanup.Publish

/-!
# What a failed cleanup reports

`Tracked` is what the local variables say of the roots wherever an exception is
raised: what was made before the effect can be undone, and what was renamed is
noted. The handlers report it truthfully, with one exception: a delete whose
product root fails right after the prepared pointer was replaced reports the
current pointer unchanged (`cleanup_truthful_iff`).
-/

namespace PokerDeliberation.Cleanup

open Lib

/-- What a failure reports of the roots is so. -/
structure Truthful (before after : Roots) (f : CleanupFailureV1) : Prop where
  nothing : f.filesystemEffect = .none → after = before
  unchanged : f.domainEffect = .none ∨ f.domainEffect = .currentUnchanged →
    after.current = before.current
  reconciled : after ≠ before → f.reconciliationRequired = true

/-- A run that has left the product root is reported as moved. -/
def QuarantineTold (before after : Roots) (f : CleanupFailureV1) : Prop :=
  after.product ≠ before.product → f.filesystemEffect = .sourceMoved

/-- A run that has left the quarantine is reported as staged only while its
inventory is the planned one, and as partly deleted otherwise. -/
def DeleteTold (surroundings : Surroundings) (plan : CleanupPlanV1) (before after : Roots)
    (f : CleanupFailureV1) : Prop :=
  after.quarantine ≠ before.quarantine →
    f.filesystemEffect = .partialDelete ∨
      f.filesystemEffect = .deleteStagingMoved ∧
        after.deleting.map surroundings.treeSha256 = some plan.treeInventorySha256

/-- Any other exception leaves the roots as they were. -/
def Reported (told : CleanupFailureV1 → Prop) (before after : Roots) : Raised → Prop
  | .cleanup f => Truthful before after f ∧ told f
  | _ => after = before

/-! ## Undoing what was made -/

section Roots

variable {before roots : Roots} {paths made : List Path} {path : Path}

theorem Roots.remove_eq_some {rest : Roots} (h : roots.remove path = some rest) :
    rest = { roots with control := roots.control.filter (· ≠ path) } := by
  unfold Roots.remove at h
  split at h
  · exact (Option.some_inj.1 h).symm
  · cases h

/-- Only the control directory loses entries. -/
theorem removeAll_keeps (paths : List Path) (roots : Roots) :
    ∃ control, (Roots.removeAll paths roots).1 = { roots with control } := by
  induction paths generalizing roots with
  | nil => exact ⟨roots.control, rfl⟩
  | cons path paths ih =>
    unfold Roots.removeAll
    split
    · rename_i rest hrest
      obtain ⟨control, hcontrol⟩ := ih rest
      rw [Roots.remove_eq_some hrest] at hcontrol ⊢
      exact ⟨control, hcontrol⟩
    · exact ⟨roots.control, rfl⟩

theorem removeAll_true (h : (Roots.removeAll paths roots).2 = true) :
    (Roots.removeAll paths roots).1 =
      { roots with control := roots.control.filter fun path => path ∉ paths } := by
  induction paths generalizing roots with
  | nil => simp [Roots.removeAll]
  | cons path paths ih =>
    unfold Roots.removeAll at h ⊢
    split at h
    · rename_i rest hrest
      rw [ih h, Roots.remove_eq_some hrest, List.filter_filter]
      congr 1
      refine List.filter_congr fun other _ => ?_
      simp [Bool.and_comm]
    · cases h

/-- Entries made by the call itself, and all removed again. -/
theorem undone (hroots : roots = { before with control := before.control ++ made })
    (hfresh : ∀ path ∈ made, path ∉ before.control) (hpaths : ∀ path, path ∈ made ↔ path ∈ paths)
    (h : (Roots.removeAll paths roots).2 = true) : (Roots.removeAll paths roots).1 = before := by
  rw [removeAll_true h, hroots]
  have hkeep : before.control.filter (fun path => path ∉ paths) = before.control := by
    rw [List.filter_eq_self]
    intro path hpath
    simpa using fun hmem => hfresh path ((hpaths path).2 hmem) hpath
  have hdrop : made.filter (fun path => path ∉ paths) = [] := by
    rw [List.filter_eq_nil_iff]
    intro path hpath
    simpa using (hpaths path).1 hpath
  simp only [List.filter_append, hkeep, hdrop, List.append_nil]

end Roots

/-! ## What the local variables say -/

section Tracking

variable (site : Roots → Option Tree) (before : Roots) (w : Cleaning)

/-- The rollback at hand restores the roots. -/
def Undoable : Prop :=
  ∀ paths, w.rollbackJournal = some paths → (Roots.removeAll paths w.roots).2 = true →
    (Roots.removeAll paths w.roots).1 = before

/-- Wherever an exception is raised; `site` is where the run is taken from. -/
structure Tracked : Prop where
  idle : w.controlCreated = false → w.roots = before
  unmoved : w.moved = false → site w.roots = site before
  undoable : w.moved = false → Undoable before w
  attempted : w.pointerAttempted = true ∨ w.finalPointerAttempted = true → w.moved = true
  staged : w.moved = true → [] ∈ w.roots.control
  current : w.pointerAttempted = false → w.roots.current = before.current

/-- The entries `made` were made, and nothing else was done. -/
structure Making (made : List Path) : Prop where
  roots : w.roots = { before with control := before.control ++ made }
  fresh : ∀ path ∈ made, path ∉ before.control
  created : w.controlCreated = true ∨ made = []
  unmoved : w.moved = false
  unattempted : w.pointerAttempted = false
  unfinished : w.finalPointerAttempted = false
  journal : w.rollbackJournal = none

/-- The journal is written, and a rollback would remove what was made. -/
structure Journaled (made : List Path) : Prop where
  roots : w.roots = { before with control := before.control ++ made }
  fresh : ∀ path ∈ made, path ∉ before.control
  created : w.controlCreated = true
  unmoved : w.moved = false
  unattempted : w.pointerAttempted = false
  unfinished : w.finalPointerAttempted = false
  journal : ∃ paths, w.rollbackJournal = some paths ∧ ∀ path, path ∈ made ↔ path ∈ paths

/-- The run has left its site. -/
structure Gone : Prop where
  created : w.controlCreated = true
  moved : w.moved = true
  here : [] ∈ w.roots.control
  current : w.pointerAttempted = false → w.roots.current = before.current

end Tracking

variable {site : Roots → Option Tree} {before : Roots} {w : Cleaning} {made : List Path}
  {surroundings : Surroundings} {plan : CleanupPlanV1} {transactionId : String}

theorem Making.tracked (hsite : ∀ control, site { before with control } = site before)
    (h : Making before w made) : Tracked site before w where
  idle hcreated := by
    rcases h.created with hc | rfl
    · rw [hc] at hcreated
      cases hcreated
    · rw [h.roots, List.append_nil]
  unmoved _ := by rw [h.roots, hsite]
  undoable _ paths hpaths := by
    rw [h.journal] at hpaths
    cases hpaths
  attempted ha := by
    rw [h.unattempted, h.unfinished] at ha
    rcases ha with ha | ha <;> cases ha
  staged hm := by
    rw [h.unmoved] at hm
    cases hm
  current _ := by rw [h.roots]

theorem Journaled.tracked (hsite : ∀ control, site { before with control } = site before)
    (h : Journaled before w made) : Tracked site before w where
  idle hcreated := by
    rw [h.created] at hcreated
    cases hcreated
  unmoved _ := by rw [h.roots, hsite]
  undoable _ paths hpaths hremoved := by
    obtain ⟨paths', hpaths', hiff⟩ := h.journal
    rw [hpaths'] at hpaths
    cases hpaths
    exact undone h.roots h.fresh hiff hremoved
  attempted ha := by
    rw [h.unattempted, h.unfinished] at ha
    rcases ha with ha | ha <;> cases ha
  staged hm := by
    rw [h.unmoved] at hm
    cases hm
  current _ := by rw [h.roots]

theorem Gone.tracked (h : Gone before w) : Tracked site before w where
  idle hcreated := by
    rw [h.created] at hcreated
    cases hcreated
  unmoved hm := by
    rw [h.moved] at hm
    cases hm
  undoable hm := by
    rw [h.moved] at hm
    cases hm
  attempted _ := h.moved
  staged _ := h.here
  current := h.current

/-! ## Steps -/

section Steps

variable {P : Cleaning → Prop} {s : Step}

theorem ends_check : Ends P (check surroundings s) (fun _ => P) fun _ => P := by
  unfold check
  split
  · exact ends_pure fun _ h => h
  · exact ends_raise fun _ h => h

theorem ends_atomic {Q : Cleaning → Prop} {change : Roots → Option Roots}
    (h : ∀ w roots, P w → change w.roots = some roots → Q { w with roots }) :
    Ends P (atomic surroundings s change) (fun _ => Q) fun _ => P := by
  unfold atomic
  refine ends_check.bind fun _ => Ends.read_bind fun w hw => ?_
  split
  · refine ends_raise ?_
    rintro _ rfl
    exact hw
  · rename_i roots hroots
    refine ends_modify ?_
    rintro _ rfl
    exact h _ roots hw hroots

theorem ends_mkdir {Q : Cleaning → Prop} {path : Path}
    (h : ∀ w, P w → path ∉ w.roots.control → Q { w with roots := w.roots.create path }) :
    Ends P (mkdir surroundings s path) (fun _ => Q) fun _ => P := by
  refine ends_atomic fun w roots hw hroots => ?_
  split at hroots
  · cases hroots
  · rename_i hfree
    cases hroots
    exact h w hw hfree

/-- A file: written, or there or not when its writing raises. -/
theorem ends_writeExclusive {Q : Cleaning → Prop} {path : Path}
    (h : ∀ w, P w → path ∉ w.roots.control → Q { w with roots := w.roots.create path }) :
    Ends P (writeExclusive surroundings s path) (fun _ => Q) fun _ w => P w ∨ Q w := by
  unfold writeExclusive
  refine Ends.read_bind fun w hw => ?_
  split
  · refine ends_raise ?_
    rintro _ rfl
    exact .inl hw
  · rename_i hfree
    refine Ends.bind (Q := fun _ t => P t ∧ surroundings.fault s ≠ none ∨ Q t)
      (ends_modify ?_) fun _ => ?_
    · rintro _ rfl
      split
      · exact .inr (h _ hw hfree)
      · rename_i hlost
        exact .inl ⟨hw, fun hnone => hlost (.inl (by rw [hnone]; rfl))⟩
    · unfold check
      cases hfault : surroundings.fault s with
      | none => exact ends_pure fun t ht => ht.resolve_left fun hp => hp.2 rfl
      | some e => exact ends_raise fun t ht => ht.imp_left And.left

end Steps

/-! ## Writing the journal -/

theorem Making.create {path : Path} (h : Making before w made) (hfree : path ∉ w.roots.control) :
    (∀ other ∈ made ++ [path], other ∉ before.control) ∧
      w.roots.create path = { before with control := before.control ++ (made ++ [path]) } := by
  rw [h.roots] at hfree
  refine ⟨fun other hother => ?_, ?_⟩
  · rcases List.mem_append.1 hother with hmem | hmem
    · exact h.fresh other hmem
    · rw [List.mem_singleton.1 hmem]
      exact fun hbefore => hfree (List.mem_append_left _ hbefore)
  · rw [Roots.create, h.roots, List.append_assoc]

/-- A directory, once it is noted that the control directory is made. -/
theorem ends_makeDirectory {path : Path} {s : Step} :
    Ends (fun w => Making before w made ∧ w.controlCreated = true) (mkdir surroundings s path)
      (fun _ w => Making before w (made ++ [path]) ∧ w.controlCreated = true)
      fun _ w => Making before w made := by
  refine (ends_mkdir fun w hw hfree => ?_).mono (fun _ h => h) (fun _ _ h => h) fun _ _ h => h.1
  obtain ⟨hfresh, hroots⟩ := hw.1.create hfree
  exact ⟨⟨hroots, hfresh, .inl hw.2, hw.1.unmoved, hw.1.unattempted, hw.1.unfinished, hw.1.journal⟩,
    hw.2⟩

/-- The first directory, and the note that it is made. -/
theorem ends_makeFirst {path : Path} {s : Step} {f : Unit → Stateful Raised Cleaning Unit}
    {Q : Unit → Cleaning → Prop} {E : Raised → Cleaning → Prop}
    (hE : ∀ e w, Making before w made → E e w)
    (hf : Ends (fun w => Making before w (made ++ [path]) ∧ w.controlCreated = true) (f ()) Q E) :
    Ends (fun w => Making before w made) (do
      mkdir surroundings s path
      Stateful.modify fun w => { w with controlCreated := true }
      f ()) Q E := by
  refine Ends.bind (Q := fun _ w => Making before { w with controlCreated := true } (made ++ [path]))
    ((ends_mkdir fun w hw hfree => ?_).mono (fun _ h => h) (fun _ _ h => h) hE) fun _ => ?_
  · obtain ⟨hfresh, hroots⟩ := hw.create hfree
    exact ⟨hroots, hfresh, .inl rfl, hw.unmoved, hw.unattempted, hw.unfinished, hw.journal⟩
  · exact Ends.bind (ends_modify fun w hw => ⟨hw, rfl⟩) fun _ => hf

theorem ends_writeJournal (hsite : ∀ control, site { before with control } = site before)
    {emptyDirectories : List Path} (hempty : ∀ path, path ∈ made ↔ path ∈ emptyDirectories) :
    Ends (fun w => Making before w made) (writeJournal surroundings transactionId emptyDirectories)
      (fun _ w => Journaled before w (made ++ [transactionRoot transactionId] ++
        [journal transactionId]))
      fun _ => Tracked site before := by
  unfold writeJournal
  refine ends_makeFirst (f := fun _ => _) (fun _ w hw => hw.tracked hsite) ?_
  refine Ends.bind (Q := fun _ w => Making before w (made ++ [transactionRoot transactionId] ++
    [journal transactionId]) ∧ w.controlCreated = true) ?_ fun _ => ?_
  · refine (ends_writeExclusive fun w hw hfree => ?_).mono (fun _ h => h) (fun _ _ h => h) ?_
    · obtain ⟨hfresh, hroots⟩ := hw.1.create hfree
      exact ⟨⟨hroots, hfresh, .inl hw.2, hw.1.unmoved, hw.1.unattempted, hw.1.unfinished,
        hw.1.journal⟩, hw.2⟩
    · rintro _ w (h | h)
      · exact h.1.tracked hsite
      · exact h.1.tracked hsite
  · have hcheck : ∀ {s : Step}, Ends (fun w => Making before w (made ++
        [transactionRoot transactionId] ++ [journal transactionId]) ∧ w.controlCreated = true)
        (check surroundings s) (fun _ w => Making before w (made ++
        [transactionRoot transactionId] ++ [journal transactionId]) ∧ w.controlCreated = true)
        fun _ => Tracked site before :=
      ends_check.mono (fun _ h => h) (fun _ _ h => h) fun _ _ h => h.1.tracked hsite
    have hjournaled : ∀ {s : Step}, Ends (fun w => Journaled before w (made ++
        [transactionRoot transactionId] ++ [journal transactionId]))
        (check surroundings s) (fun _ w => Journaled before w (made ++
        [transactionRoot transactionId] ++ [journal transactionId]))
        fun _ => Tracked site before :=
      ends_check.mono (fun _ h => h) (fun _ _ h => h) fun _ _ h => h.tracked hsite
    refine hcheck.bind fun _ => hcheck.bind fun _ => ?_
    refine Ends.bind (Q := fun _ w => Journaled before w _) (ends_modify fun w ⟨hw, hcreated⟩ => ?_)
      fun _ => hjournaled.bind fun _ => ?_
    · refine ⟨hw.roots, hw.fresh, hcreated, hw.unmoved, hw.unattempted, hw.unfinished, _, rfl,
        fun path => ?_⟩
      simp only [List.mem_append, List.mem_cons, List.not_mem_nil, or_false, hempty]
      tauto
    · refine Ends.bind (Q := fun _ w => Journaled before w _) (ends_modify fun w hw => ?_)
        fun _ => hjournaled
      exact ⟨hw.roots, hw.fresh, hw.created, hw.unmoved, hw.unattempted, hw.unfinished, hw.journal⟩

/-! ## After the effect -/

theorem Gone.create (w : Cleaning) (path : Path) (h : Gone before w) :
    Gone before { w with roots := w.roots.create path } :=
  ⟨h.created, h.moved, List.mem_append_left _ h.here, h.current⟩

theorem ends_writeRevision {P : Cleaning → Prop}
    (hP : ∀ w path, P w → P { w with roots := w.roots.create path }) {revision : Nat} :
    Ends P (writeRevision surroundings transactionId revision) (fun _ => P) fun _ => P := by
  have hwrite : ∀ {s : Step} {path : Path},
      Ends P (writeExclusive surroundings s path) (fun _ => P) fun _ => P :=
    (ends_writeExclusive fun w hw _ => hP w _ hw).mono (fun _ h => h) (fun _ _ h => h)
      fun _ _ h => h.elim id id
  unfold writeRevision
  refine (ends_mkdir fun w hw _ => hP w _ hw).bind fun _ => ?_
  refine (Ends.forM (fun name => hwrite) _).bind fun _ => ends_check.bind fun _ => ?_
  exact hwrite.bind fun _ => ends_check

theorem nil_ne_temporary (transactionId : String) (revision : Nat) :
    [] ≠ temporary transactionId revision := by
  simp [temporary]

/-- The replacement of a pointer, once it is noted as attempted. -/
theorem ends_replacePointer {P Q : Cleaning → Prop} {revision : Nat} {state : CleanupState}
    (h : ∀ w, P w → Q { w with
      roots := w.roots.publish (temporary transactionId revision)
        (pointer plan transactionId revision state) }) :
    Ends P (replacePointer surroundings plan transactionId revision state) (fun _ => Q)
      fun _ => P := by
  refine ends_atomic fun w roots hw hroots => ?_
  cases hroots
  exact h w hw

/-! ## Rollbacks -/

section Handlers

variable {told : Roots → CleanupFailureV1 → Prop}

/-- What the `finally` clause may rely on. -/
structure Left (site : Roots → Option Tree) (before : Roots) (w : Cleaning) : Prop where
  idle : w.moved = false → w.journalPublished = false → w.controlCreated = false → w.roots = before
  unmoved : w.moved = false → site w.roots = site before

theorem Tracked.left (h : Tracked site before w) : Left site before w :=
  ⟨fun _ _ => h.idle, h.unmoved⟩

/-- Nothing was changed, whatever is said. -/
theorem reported_before (htold : ∀ after f, site after = site before → told after f)
    (f : CleanupFailureV1) : Reported (told before) before before (.cleanup f) :=
  ⟨⟨fun _ => rfl, fun _ => rfl, fun h => absurd rfl h⟩, htold before f rfl⟩

/-- What a handler leaves when it raises. -/
def Handled (site : Roots → Option Tree) (told : Roots → CleanupFailureV1 → Prop) (before : Roots)
    (e : Raised) (w : Cleaning) : Prop :=
  Reported (told w.roots) before w.roots e ∧ Left site before w

/-- Before the effect: something was made. -/
structure Made (site : Roots → Option Tree) (before : Roots) (w : Cleaning) : Prop extends
    Tracked site before w where
  still : w.moved = false
  made : w.journalPublished = true ∨ w.controlCreated = true

theorem Made.pointer_kept (h : Made site before w) : w.roots.current = before.current := by
  refine h.current ?_
  cases hattempted : w.pointerAttempted with
  | false => rfl
  | true =>
    have hmoved := h.attempted (.inl hattempted)
    rw [h.still] at hmoved
    cases hmoved

/-- A rollback restores the roots, or takes some entries of the control directory. -/
theorem ends_rollback : Ends (Made site before) (rollback surroundings)
    (fun done w => (done = true ∧ w.moved = false ∧ w.roots = before) ∨
      (done = false ∧ ∃ u control, Made site before u ∧ w = { u with
        roots := { u.roots with control } }))
    fun _ _ => False := by
  intro w hw
  unfold rollback
  split
  · rename_i heq
    split at heq
    · cases heq
      exact .inr ⟨rfl, w, w.roots.control, hw, rfl⟩
    · rename_i paths hjournal
      split at heq
      · cases heq
        cases hdone : (Roots.removeAll paths w.roots).2 with
        | true => exact .inl ⟨rfl, hw.still, hw.undoable hw.still paths hjournal hdone⟩
        | false =>
          obtain ⟨control, hcontrol⟩ := removeAll_keeps paths w.roots
          exact .inr ⟨rfl, w, control, hw, by rw [hcontrol]⟩
      · rename_i count hstops
        cases heq
        obtain ⟨control, hcontrol⟩ := removeAll_keeps (paths.take count) w.roots
        exact .inr ⟨rfl, w, control, hw, by rw [hcontrol]⟩
  · rename_i heq
    split at heq
    · cases heq
    · split at heq <;> cases heq

theorem ends_rollbackOr (hsite : ∀ roots control, site { roots with control } = site roots)
    (htold : ∀ after f, site after = site before → told after f) {f : CleanupFailureV1}
    {left : FilesystemEffect} (hleft : left ≠ .none) :
    Ends (Made site before) (rollbackOr surroundings plan transactionId (.cleanup f) left)
      (fun _ _ => False) (Handled site told before) := by
  unfold rollbackOr
  refine (ends_rollback.mono (fun _ h => h) (fun _ _ h => h) fun _ _ h => h.elim).bind fun done => ?_
  cases done with
  | true =>
    refine Ends.bind (Q := fun _ w => w.roots = before ∧ w.moved = false) (ends_modify ?_) fun _ => ?_
    · rintro w (⟨-, hmoved, hroots⟩ | ⟨hdone, -⟩)
      · exact ⟨hroots, hmoved⟩
      · cases hdone
    · refine ends_raise fun w ⟨hroots, hmoved⟩ => ⟨?_, fun _ _ _ => hroots, fun _ => by rw [hroots]⟩
      rw [hroots]
      exact reported_before htold f
  | false =>
    refine ends_raise ?_
    rintro _ (⟨hdone, -⟩ | ⟨-, w, control, hw, rfl⟩)
    · cases hdone
    have hunmoved : site { w.roots with control } = site before :=
      (hsite _ _).trans (hw.unmoved hw.still)
    refine ⟨⟨⟨fun hnone => absurd hnone hleft, fun _ => hw.pointer_kept, fun _ => rfl⟩,
      htold _ _ hunmoved⟩, fun _ hjournal hcreated => ?_, fun _ => hunmoved⟩
    have hmade := hw.made
    rcases hmade with hmade | hmade
    · rw [hjournal] at hmade
      cases hmade
    · rw [hcreated] at hmade
      cases hmade

/-- A failure that says an effect is left. -/
theorem handled_left (h : Tracked site before w) {f : CleanupFailureV1}
    (heffect : f.filesystemEffect ≠ .none) (hcode : f.code.uncertain = true)
    (hunchanged : f.domainEffect = .none ∨ f.domainEffect = .currentUnchanged →
      w.roots.current = before.current) (htold : told w.roots f) :
    Handled site told before (.cleanup f) w :=
  ⟨⟨⟨fun hnone => absurd hnone heffect, hunchanged, fun _ => hcode⟩, htold⟩, h.left⟩

/-- Nothing is made yet, whatever is said. -/
theorem Tracked.handled_idle (h : Tracked site before w)
    (htold : ∀ after f, site after = site before → told after f)
    (hidle : w.controlCreated = false) (f : CleanupFailureV1) :
    Handled site told before (.cleanup f) w := by
  refine ⟨?_, h.left⟩
  rw [h.idle hidle]
  exact reported_before htold f

/-- The handlers, once it is settled that the run is still where it was. -/
theorem ends_unmoved (hsite : ∀ roots control, site { roots with control } = site roots)
    (htold : ∀ after f, site after = site before → told after f) (h : Tracked site before w)
    (hmoved : w.moved = false) (hmade : w.journalPublished = true ∨ w.controlCreated = true)
    {f : CleanupFailureV1} {left : FilesystemEffect} (hleft : left ≠ .none) :
    Ends (fun t => t = w) (rollbackOr surroundings plan transactionId (.cleanup f) left)
      (fun _ _ => False) (Handled site told before) := by
  refine (ends_rollbackOr hsite htold hleft).mono ?_ (fun _ _ h => h) fun _ _ h => h
  rintro _ rfl
  exact ⟨h, hmoved, hmade⟩

theorem making_start (h : w = { roots := before }) : Making before w [] := by
  subst h
  exact ⟨by rw [List.append_nil], by simp, .inr rfl, rfl, rfl, rfl, rfl⟩

theorem reported_start (htold : ∀ f, told before f) (h : w = { roots := before }) (e : Raised) :
    Reported (told w.roots) before w.roots e := by
  subst h
  cases e with
  | cleanup f => exact ⟨⟨fun _ => rfl, fun _ => rfl, fun hne => absurd rfl hne⟩, htold f⟩
  | product | lockRelease | other => rfl

/-- What is raised at once. -/
theorem ends_handled {e : Raised} (h : Handled site told before e w) :
    Ends (fun t => t = w) (Stateful.raise e : Stateful Raised Cleaning Unit) (fun _ _ => False)
      (Handled site told before) := by
  refine ends_raise ?_
  rintro _ rfl
  exact h

end Handlers

/-! ## The quarantine -/

section Quarantine

theorem ends_quarantineRename (hjournaled : [] ∈ made) :
    Ends (fun w => Journaled before w made) (quarantineRename surroundings) (fun _ => Gone before)
      fun _ => Tracked Roots.product before := by
  unfold quarantineRename
  refine Ends.bind (Q := fun _ w => Gone before { w with moved := true })
    ((ends_atomic fun w roots hw hroots => ?_).mono (fun _ h => h) (fun _ _ h => h)
      fun _ _ h => h.tracked fun _ => rfl) fun _ => ends_modify fun w hw => hw
  split at hroots
  · cases hroots
    refine ⟨hw.created, rfl, ?_, fun _ => ?_⟩
    · show [] ∈ w.roots.control
      rw [hw.roots]
      exact List.mem_append_right _ hjournaled
    · show w.roots.current = before.current
      rw [hw.roots]
  · cases hroots

theorem ends_quarantineGuarded :
    Ends (fun w => Making before w []) (quarantineGuarded surroundings plan transactionId)
      (fun _ w => w.authority = false) fun _ => Tracked Roots.product before := by
  have htracked : ∀ {made : List Path} {w : Cleaning}, Making before w made →
      Tracked Roots.product before w := fun h => h.tracked fun _ => rfl
  have hidle : ∀ {s : Step}, Ends (fun w => Making before w []) (check surroundings s)
      (fun _ w => Making before w []) fun _ => Tracked Roots.product before :=
    ends_check.mono (fun _ h => h) (fun _ _ h => h) fun _ _ h => htracked h
  have hgone : ∀ {s : Step}, Ends (Gone before) (check surroundings s) (fun _ => Gone before)
      fun _ => Tracked Roots.product before :=
    ends_check.mono (fun _ h => h) (fun _ _ h => h) fun _ _ h => h.tracked
  have hrefused : ∀ {w : Cleaning} {e : Raised}, Making before w [] →
      Ends (fun t => t = w) (Stateful.raise e : Stateful Raised Cleaning Unit)
        (fun _ w => Making before w []) fun _ => Tracked Roots.product before := by
    intro w e hw
    refine ends_raise ?_
    rintro _ rfl
    exact htracked hw
  have hadmitted : ∀ {w : Cleaning}, Making before w [] →
      Ends (fun t => t = w) (pure () : Stateful Raised Cleaning Unit)
        (fun _ w => Making before w []) fun _ => Tracked Roots.product before := by
    intro w hw
    refine ends_pure ?_
    rintro _ rfl
    exact hw
  unfold quarantineGuarded
  refine hidle.bind fun _ => ?_
  refine Ends.bind (Q := fun _ w => Making before w []) (ends_modify fun w hw =>
    ⟨hw.roots, hw.fresh, hw.created, hw.unmoved, hw.unattempted, hw.unfinished, hw.journal⟩) fun _ => ?_
  refine Ends.bind (Q := fun _ w => Making before w []) ?_ fun _ => ?_
  · unfold admitUncleaned
    refine Ends.read_bind fun w hw => ?_
    split
    · exact hrefused hw
    · exact hadmitted hw
  refine Ends.bind (Q := fun _ w => Making before w []) ?_ fun _ => ?_
  · unfold admitTree
    refine Ends.read_bind fun w hw => ?_
    split
    · exact hrefused hw
    · exact hadmitted hw
  refine hidle.bind fun _ => ends_makeFirst (f := fun _ => _) (fun _ w hw => htracked hw) ?_
  refine (ends_makeDirectory.mono (fun _ h => h) (fun _ _ h => h)
    fun _ _ h => htracked h).bind fun _ => ?_
  refine (ends_makeDirectory.mono (fun _ h => h) (fun _ _ h => h)
    fun _ _ h => htracked h).bind fun _ => ?_
  refine Ends.bind ((ends_writeJournal (fun _ => rfl) ?_).mono (fun _ h => h.1) (fun _ _ h => h)
    fun _ _ h => h) fun _ => ?_
  · intro path
    simp only [List.nil_append, List.cons_append, List.mem_cons, List.not_mem_nil, or_false]
    tauto
  refine (ends_quarantineRename (by simp)).bind fun _ => hgone.bind fun _ => ?_
  refine ((ends_writeRevision Gone.create).mono (fun _ h => h) (fun _ _ h => h)
    fun _ _ h => h.tracked).bind fun _ => ?_
  refine Ends.bind (Q := fun _ w => Gone before w ∧ w.pointerAttempted = true)
    (ends_modify fun w hw => ⟨⟨hw.created, hw.moved, hw.here, fun h => nomatch h⟩, rfl⟩) fun _ => ?_
  refine Ends.bind (Q := fun _ => Gone before) ((ends_replacePointer fun w hw => ?_).mono
    (fun _ h => h) (fun _ _ h => h) fun _ _ h => h.1.tracked) fun _ => hgone.bind fun _ => ?_
  · refine ⟨hw.1.created, hw.1.moved, ?_, fun h => ?_⟩
    · exact List.mem_filter.2 ⟨hw.1.here, by simpa using nil_ne_temporary transactionId 1⟩
    · have h : w.pointerAttempted = false := h
      rw [hw.2] at h
      cases h
  refine Ends.bind (Q := fun _ w => Gone before w ∧ w.authority = false) (ends_modify fun w hw =>
    ⟨⟨hw.created, hw.moved, hw.here, hw.current⟩, rfl⟩) fun _ => ?_
  refine Ends.bind (Q := fun _ w => Gone before w ∧ w.authority = false)
    (ends_check.catching fun e => ?_) fun _ =>
    ends_check.mono (fun _ h => h) (fun _ _ h => h.2) fun _ _ h => h.1.tracked
  cases e with
  | lockRelease => exact ends_raise fun w hw => hw.1.tracked
  | product | cleanup | other => exact ends_raise fun w hw => hw.1.tracked

theorem quarantineTold_of_kept (after : Roots) (f : CleanupFailureV1)
    (h : after.product = before.product) : QuarantineTold before after f :=
  fun hne => absurd h hne

/-- The control directory is there, so the current pointer is not settled as absent. -/
theorem currentFailureUncertain_of_control {roots : Roots} (h : [] ∈ roots.control) :
    currentFailureUncertain surroundings plan .quarantined .absent roots = true := by
  have hobserved : observedCurrent surroundings plan .quarantined roots ≠ .absent := by
    unfold observedCurrent
    rw [if_neg (not_not_intro h)]
    split
    · simp
    · split
      · simp
      · dsimp only
        split_ifs <;> simp
  simp [currentFailureUncertain, hobserved]

theorem handled_sourceMoved (h : Tracked Roots.product before w) (hmoved : w.moved = true) :
    Handled Roots.product (QuarantineTold before) before
      (sourceMovedFailure surroundings plan transactionId w) w := by
  unfold sourceMovedFailure
  rw [currentFailureUncertain_of_control (h.staged hmoved)]
  refine handled_left h (by simp) rfl ?_ fun _ => rfl
  rintro (h | h) <;> cases h

theorem ends_handleQuarantine (e : Raised) :
    Ends (Tracked Roots.product before) (handleQuarantine surroundings plan transactionId e)
      (fun _ _ => False) (Handled Roots.product (QuarantineTold before) before) := by
  unfold handleQuarantine
  refine Ends.read_bind fun w hw => ?_
  have hkept := @quarantineTold_of_kept before
  have hadvanced : Handled Roots.product (QuarantineTold before) before
      (fail plan transactionId .effectUnknown .sourceMoved .currentMayHaveAdvanced fun _ => rfl)
      w := by
    refine handled_left hw (by simp) rfl ?_ fun _ => rfl
    rintro (h | h) <;> cases h
  cases e with
  | product runLocked =>
    dsimp only
    split
    · rename_i hmoved
      exact ends_handled (handled_sourceMoved hw hmoved)
    rename_i hstill
    rw [Bool.not_eq_true] at hstill
    split
    · rename_i hcreated
      exact ends_unmoved (fun _ _ => rfl) hkept hw hstill (.inr hcreated) (by split <;> simp)
    · rename_i hcreated
      exact ends_handled (hw.handled_idle hkept (by simpa using hcreated) _)
  | cleanup | lockRelease | other =>
    dsimp only
    split
    · exact ends_handled hadvanced
    split
    · rename_i hmoved
      exact ends_handled (handled_sourceMoved hw hmoved)
    rename_i hstill
    rw [Bool.not_eq_true] at hstill
    split
    · rename_i hjournal
      exact ends_unmoved (fun _ _ => rfl) hkept hw hstill (.inl hjournal) (by simp)
    split
    · rename_i hcreated
      exact ends_unmoved (fun _ _ => rfl) hkept hw hstill (.inr hcreated) (by simp)
    · rename_i hcreated
      exact ends_handled (hw.handled_idle hkept (by simpa using hcreated) _)

/-- What the `finally` clause raises takes the place of the failure. -/
theorem ends_releaseQuarantine (e : Raised) :
    Ends (Handled Roots.product (QuarantineTold before) before e)
      (releaseQuarantine surroundings plan transactionId)
      (fun _ w => Reported (QuarantineTold before w.roots) before w.roots e)
      fun e w => Reported (QuarantineTold before w.roots) before w.roots e := by
  unfold releaseQuarantine
  refine Ends.read_bind fun w hw => ?_
  split
  · refine Ends.bind (Q := fun _ t => t.roots = w.roots) (ends_modify ?_) fun _ => ?_
    · rintro _ rfl
      rfl
    split
    · refine ends_raise fun t ht => ?_
      rw [ht]
      refine ⟨⟨fun hnone => ?_, ?_, fun _ => rfl⟩, fun hne => ?_⟩
      · dsimp only at hnone
        split_ifs at hnone with hmoved hjournal hcreated
        exact hw.2.idle (by simpa using hmoved) (by simpa using hjournal) (by simpa using hcreated)
      · rintro (h | h) <;> cases h
      · have hmoved : w.moved = true := by
          by_contra hstill
          exact hne (hw.2.unmoved (by simpa using hstill))
        exact if_pos hmoved
    · refine ends_pure fun t ht => ?_
      rw [ht]
      exact hw.1
  · refine ends_pure ?_
    rintro _ rfl
    exact hw.1

/-- A quarantine reports truthfully whatever fails. -/
theorem ends_publishQuarantine :
    Ends (fun w => w = { roots := before }) (publishQuarantine surroundings plan transactionId)
      (fun _ _ => True) fun e w => Reported (QuarantineTold before w.roots) before w.roots e := by
  unfold publishQuarantine
  refine Ends.bind (Q := fun _ w => Making before w []) ?_ fun _ => ?_
  · unfold check
    split
    · exact ends_pure fun w hw => making_start hw
    · exact ends_raise fun w hw => reported_start (fun f => quarantineTold_of_kept before f rfl) hw _
  refine Ends.ensuring (E := Handled Roots.product (QuarantineTold before) before)
    (ends_quarantineGuarded.catching fun e => (ends_handleQuarantine e).mono (fun _ h => h)
      (fun _ _ h => h.elim) fun _ _ h => h) (fun _ => ?_) fun e => ends_releaseQuarantine e
  refine Ends.read_bind fun w hw => ?_
  rw [if_neg (by simp [hw])]
  exact ends_pure fun _ _ => trivial

end Quarantine

/-! ## The delete -/

/-- The lock is held as before, and nothing new is noted of the prepared pointer. -/
structure Holding (w w' : Cleaning) : Prop where
  authority : w'.authority = w.authority
  attempted : w'.pointerAttempted = w.pointerAttempted
  published : w'.preparedPublished = w.preparedPublished

instance : Std.Refl Holding := ⟨fun _ => ⟨rfl, rfl, rfl⟩⟩

instance : IsTrans Cleaning Holding :=
  ⟨fun _ _ _ h h' => ⟨h'.authority.trans h.authority, h'.attempted.trans h.attempted,
    h'.published.trans h.published⟩⟩

theorem holding_check (s : Step) : Always Holding (check surroundings s) := by
  unfold check
  split
  · exact always_pure ()
  · exact always_raise _

theorem holding_atomic (s : Step) (change : Roots → Option Roots) :
    Always Holding (atomic surroundings s change) := by
  unfold atomic
  refine (holding_check s).bind fun _ => always_read.bind fun w => ?_
  split
  · exact always_raise _
  · exact always_modify fun _ => ⟨rfl, rfl, rfl⟩

theorem holding_writeExclusive (s : Step) (path : Path) :
    Always Holding (writeExclusive surroundings s path) := by
  unfold writeExclusive
  refine always_read.bind fun w => ?_
  split
  · exact always_raise _
  · refine Always.bind (always_modify fun t => ?_) fun _ => holding_check s
    split <;> exact ⟨rfl, rfl, rfl⟩

theorem holding_writeJournal (emptyDirectories : List Path) :
    Always Holding (writeJournal surroundings transactionId emptyDirectories) := by
  unfold writeJournal
  refine (holding_atomic _ _).bind fun _ => Always.bind (always_modify fun _ => ⟨rfl, rfl, rfl⟩) fun _ => ?_
  refine (holding_writeExclusive _ _).bind fun _ => (holding_check _).bind fun _ => ?_
  refine (holding_check _).bind fun _ => Always.bind (always_modify fun _ => ⟨rfl, rfl, rfl⟩) fun _ => ?_
  refine (holding_check _).bind fun _ => Always.bind (always_modify fun _ => ⟨rfl, rfl, rfl⟩) fun _ => ?_
  exact holding_check _

section Delete

/-- The pointer at hand names a quarantined run. -/
def Quarantined (roots : Roots) : Prop :=
  [] ∈ roots.control ∧ ∃ current, roots.current = some current ∧ current.state = .quarantined

/-- The current pointer was not replaced by a call that does not know of it. -/
def Settled (before : Roots) (w : Cleaning) : Prop :=
  w.pointerAttempted = true → w.preparedPublished = false → w.roots.current = before.current

/-- The prepared pointer is there, and that is not noted yet. -/
structure Prepared (plan : CleanupPlanV1) (transactionId : String) (before : Roots) (w : Cleaning) :
    Prop extends Gone before w where
  attempted : w.pointerAttempted = true
  unpublished : w.preparedPublished = false
  unfinished : w.finalPointerAttempted = false
  held : w.authority = true
  pointed : w.roots.current = some (pointer plan transactionId 2 .deletePrepared)
  advanced : w.roots.current ≠ before.current

theorem settled_of_unattempted (h : w.pointerAttempted = false) : Settled before w := by
  intro hattempted
  rw [h] at hattempted
  cases hattempted

/-- The lock is held, and nothing is noted of the prepared pointer. -/
def Locked (w : Cleaning) : Prop :=
  w.authority = true ∧ w.pointerAttempted = false ∧ w.preparedPublished = false

theorem Locked.of_holding {w' : Cleaning} (h : Holding w w') (hw : Locked w) : Locked w' :=
  ⟨h.authority.trans hw.1, h.attempted.trans hw.2.1, h.published.trans hw.2.2⟩

/-- The run is staged, and no pointer is written yet. -/
structure Staged (before : Roots) (w : Cleaning) : Prop extends Gone before w where
  unattempted : w.pointerAttempted = false
  unpublished : w.preparedPublished = false
  unfinished : w.finalPointerAttempted = false
  held : w.authority = true

/-- What the handlers find, unless the prepared pointer was just replaced. -/
def Sound (before : Roots) (w : Cleaning) : Prop :=
  Tracked Roots.quarantine before w ∧ Settled before w

theorem Making.sound (h : Making before w made) : Sound before w :=
  ⟨h.tracked fun _ => rfl, settled_of_unattempted h.unattempted⟩

theorem Journaled.sound (h : Journaled before w made) : Sound before w :=
  ⟨h.tracked fun _ => rfl, settled_of_unattempted h.unattempted⟩

theorem Staged.sound (h : Staged before w) : Sound before w :=
  ⟨h.toGone.tracked, settled_of_unattempted h.unattempted⟩

theorem Staged.create (w : Cleaning) (path : Path) (h : Staged before w) :
    Staged before { w with roots := w.roots.create path } :=
  ⟨h.toGone.create w path, h.unattempted, h.unpublished, h.unfinished, h.held⟩

theorem ends_stagingRename (hjournaled : [] ∈ before.control) :
    Ends (fun w => Journaled before w made ∧ Locked w)
      (stagingRename surroundings) (fun _ => Staged before) fun _ => Sound before := by
  unfold stagingRename
  refine Ends.bind (Q := fun _ w => Staged before { w with moved := true })
    ((ends_atomic fun w roots hw hroots => ?_).mono (fun _ h => h) (fun _ _ h => h)
      fun _ _ h => h.1.sound) fun _ => ends_modify fun w hw => hw
  split at hroots
  · cases hroots
    have hhere : [] ∈ w.roots.control := by
      rw [hw.1.roots]
      exact List.mem_append_left _ hjournaled
    have hcurrent : w.roots.current = before.current := by rw [hw.1.roots]
    exact ⟨⟨hw.1.created, rfl, hhere, fun _ => hcurrent⟩, hw.1.unattempted, hw.2.2.2,
      hw.1.unfinished, hw.2.1⟩
  · cases hroots

/-- A quarantined run is not at a prepared pointer. -/
theorem Quarantined.pointer_ne (h : Quarantined before) :
    some (pointer plan transactionId 2 .deletePrepared) ≠ before.current := by
  obtain ⟨current, hcurrent, hstate⟩ := h.2
  rw [hcurrent]
  intro heq
  rw [← Option.some.inj heq] at hstate
  cases hstate

/-- Nothing is made, and nothing noted. -/
def Unstarted (before : Roots) (w : Cleaning) : Prop :=
  Making before w [] ∧ w.preparedPublished = false

theorem ends_unstarted {s : Step} : Ends (Unstarted before) (check surroundings s)
    (fun _ => Unstarted before) fun _ => Sound before :=
  ends_check.mono (fun _ h => h) (fun _ _ h => h) fun _ _ h => h.1.sound

theorem ends_refused {Q : Unit → Cleaning → Prop} {e : Raised} (h : Unstarted before w) :
    Ends (fun t => t = w) (Stateful.raise e : Stateful Raised Cleaning Unit) Q
      fun _ => Sound before := by
  refine ends_raise ?_
  rintro _ rfl
  exact h.1.sound

theorem ends_admitQuarantined :
    Ends (Unstarted before) (admitQuarantined surroundings plan transactionId)
      (fun _ w => Unstarted before w ∧ Quarantined before) fun _ => Sound before := by
  unfold admitQuarantined
  refine Ends.read_bind fun w hw => ?_
  split
  · exact ends_refused hw
  · rename_i current hcurrent
    split
    · exact ends_refused hw
    · rename_i hadmitted
      rw [not_or, not_not] at hadmitted
      refine ends_pure ?_
      rintro _ rfl
      unfold Roots.readCurrent at hcurrent
      rw [hw.1.roots, List.append_nil] at hcurrent
      split at hcurrent
      · rename_i hhere
        exact ⟨hw, hhere, current, hcurrent, hadmitted.1⟩
      · cases hcurrent

theorem ends_admitQuarantineTree :
    Ends (Unstarted before) (admitTree surroundings plan transactionId Roots.quarantine)
      (fun _ => Unstarted before) fun _ => Sound before := by
  unfold admitTree
  refine Ends.read_bind fun w hw => ?_
  split
  · exact ends_refused hw
  · refine ends_pure ?_
    rintro _ rfl
    exact hw

/-- Up to the prepared pointer nothing goes unnoted. -/
theorem ends_deletePrepare :
    Ends (Unstarted before) (deletePrepare surroundings plan transactionId)
      (fun _ => Prepared plan transactionId before) fun _ => Sound before := by
  unfold deletePrepare
  refine Ends.bind ends_admitQuarantined fun _ w ⟨hw, hquarantined⟩ => ?_
  refine (?_ : Ends (Unstarted before) _ _ _) w hw
  have hstaged : ∀ {s : Step}, Ends (Staged before) (check surroundings s)
      (fun _ => Staged before) fun _ => Sound before :=
    ends_check.mono (fun _ h => h) (fun _ _ h => h) fun _ _ h => h.sound
  refine ends_admitQuarantineTree.bind fun _ => ends_unstarted.bind fun _ => ?_
  refine ends_unstarted.bind fun _ => ?_
  refine Ends.bind (Q := fun _ w => Unstarted before w ∧ w.authority = true)
    (ends_modify fun w ⟨hw, hunpublished⟩ => ?_) fun _ => ?_
  · exact ⟨⟨⟨hw.roots, hw.fresh, hw.created, hw.unmoved, hw.unattempted, hw.unfinished,
      hw.journal⟩, hunpublished⟩, rfl⟩
  refine Ends.bind (ends_check.mono (fun _ h => h) (fun _ _ h => h) fun _ _ h => h.1.1.sound)
    fun _ => ?_
  have hjournal : Ends (fun w => Making before w [] ∧ Locked w)
      (writeJournal surroundings transactionId [])
      (fun _ w => Journaled before w ([] ++ [transactionRoot transactionId] ++
        [journal transactionId]) ∧ Locked w)
      fun _ w => Tracked Roots.quarantine before w ∧ Locked w :=
    (ends_writeJournal (fun _ => rfl) fun _ => Iff.rfl).keeping (holding_writeJournal [])
      fun _ _ => Locked.of_holding
  refine Ends.bind (hjournal.mono (fun w hw => ?_) (fun _ _ h => h) fun _ w hw =>
    ⟨hw.1, settled_of_unattempted hw.2.2.1⟩) fun _ => ?_
  · exact ⟨hw.1.1, hw.2, hw.1.1.unattempted, hw.1.2⟩
  refine (ends_stagingRename hquarantined.1).bind fun _ => hstaged.bind fun _ => ?_
  refine Ends.bind ((ends_writeRevision Staged.create).mono (fun _ h => h) (fun _ _ h => h)
    fun _ _ h => h.sound) fun _ => ?_
  refine Ends.bind (Q := fun _ w => (Gone before w ∧ w.pointerAttempted = true ∧
      w.preparedPublished = false ∧ w.finalPointerAttempted = false ∧ w.authority = true) ∧
      w.roots.current = before.current) (ends_modify fun w hw => ?_) fun _ => ?_
  · exact ⟨⟨⟨hw.created, hw.moved, hw.here, fun h => nomatch h⟩, rfl, hw.unpublished, hw.unfinished,
      hw.held⟩, hw.current hw.unattempted⟩
  · refine (ends_replacePointer fun w hw => ?_).mono (fun _ h => h) (fun _ _ h => h)
      fun _ w hw => ⟨hw.1.1.tracked, fun _ _ => hw.2⟩
    obtain ⟨⟨hgone, hattempted, hunpublished, hunfinished, hheld⟩, -⟩ := hw
    have hhere : [] ∈ w.roots.control.filter (· ≠ temporary transactionId 2) :=
      List.mem_filter.2 ⟨hgone.here, by simpa using nil_ne_temporary transactionId 2⟩
    refine ⟨⟨hgone.created, hgone.moved, hhere, fun h => ?_⟩, hattempted, hunpublished, hunfinished,
      hheld, rfl, hquarantined.pointer_ne⟩
    have h : w.pointerAttempted = false := h
    rw [hattempted] at h
    cases h

/-- The prepared pointer is noted. -/
structure Deleting (w : Cleaning) : Prop where
  created : w.controlCreated = true
  moved : w.moved = true
  here : [] ∈ w.roots.control
  attempted : w.pointerAttempted = true
  published : w.preparedPublished = true

theorem Deleting.sound (h : Deleting w) : Sound before w := by
  refine ⟨Gone.tracked ⟨h.created, h.moved, h.here, fun hnone => ?_⟩, fun _ hunpublished => ?_⟩
  · rw [h.attempted] at hnone
    cases hnone
  · rw [h.published] at hunpublished
    cases hunpublished

theorem Deleting.create (w : Cleaning) (path : Path) (h : Deleting w) :
    Deleting { w with roots := w.roots.create path } :=
  ⟨h.created, h.moved, List.mem_append_left _ h.here, h.attempted, h.published⟩

theorem ends_deleting {s : Step} :
    Ends Deleting (check surroundings s) (fun _ => Deleting) fun _ => Deleting :=
  ends_check

theorem ends_unlinkInventoryTree (tree : Tree) :
    Ends Deleting (unlinkInventoryTree surroundings tree) (fun _ => Deleting) fun _ => Deleting := by
  unfold unlinkInventoryTree
  refine Ends.bind (Ends.forM (fun entry => ?_) tree) fun _ => ends_deleting.bind fun _ => ?_
  · refine ends_deleting.bind fun _ => Ends.bind (ends_atomic fun w roots hw hroots => ?_)
      fun _ => ends_deleting
    cases hroots
    exact ⟨hw.created, hw.moved, hw.here, hw.attempted, hw.published⟩
  · refine Ends.bind (ends_atomic fun w roots hw hroots => ?_) fun _ => ends_deleting
    cases hroots
    exact ⟨hw.created, hw.moved, hw.here, hw.attempted, hw.published⟩

theorem ends_deletePrepared :
    Ends (Prepared plan transactionId before) (deletePrepared surroundings plan transactionId)
      (fun _ w => w.authority = false) fun _ => Deleting := by
  unfold deletePrepared
  refine Ends.bind (Q := fun _ => Deleting) (ends_modify fun w hw =>
    ⟨hw.created, hw.moved, hw.here, hw.attempted, rfl⟩) fun _ => ends_deleting.bind fun _ => ?_
  refine Ends.read_bind fun w hw => ?_
  refine Ends.bind ((ends_unlinkInventoryTree _).mono (fun t ht => ht ▸ hw) (fun _ _ h => h)
    fun _ _ h => h) fun _ => ends_deleting.bind fun _ => ?_
  refine (ends_writeRevision Deleting.create).bind fun _ => ?_
  refine Ends.bind (Q := fun _ => Deleting) (ends_modify fun w hw =>
    ⟨hw.created, hw.moved, hw.here, hw.attempted, hw.published⟩) fun _ => ?_
  refine Ends.bind (ends_replacePointer (Q := Deleting) fun w hw => ?_) fun _ =>
    ends_deleting.bind fun _ => ?_
  · exact ⟨hw.created, hw.moved, List.mem_filter.2 ⟨hw.here, by
      simpa using nil_ne_temporary transactionId 3⟩, hw.attempted, hw.published⟩
  refine Ends.bind (Q := fun _ w => Deleting w ∧ w.authority = false) (ends_modify fun w hw =>
    ⟨⟨hw.created, hw.moved, hw.here, hw.attempted, hw.published⟩, rfl⟩) fun _ => ?_
  refine Ends.bind (Q := fun _ w => Deleting w ∧ w.authority = false)
    (ends_check.catching fun e => ?_) fun _ =>
    ends_check.mono (fun _ h => h) (fun _ _ h => h.2) fun _ _ h => h.1
  cases e with
  | lockRelease => exact ends_raise fun w hw => hw.1
  | product | cleanup | other => exact ends_raise fun w hw => hw.1

/-! ## What a failed delete reports -/

theorem deleteTold_of_kept (after : Roots) (f : CleanupFailureV1)
    (h : after.quarantine = before.quarantine) : DeleteTold surroundings plan before after f :=
  fun hne => absurd h hne

/-- The staging area is told as it is. -/
theorem observedStagingFailure_told (readable : Bool) (roots : Roots) :
    (observedStagingFailure surroundings plan readable roots).1 = .partialDelete ∨
      (observedStagingFailure surroundings plan readable roots).1 = .deleteStagingMoved ∧
        roots.deleting.map surroundings.treeSha256 = some plan.treeInventorySha256 := by
  unfold observedStagingFailure
  split
  · split
    · exact .inl rfl
    · rename_i tree hdeleting
      split
      · rename_i hinventory
        exact .inr ⟨rfl, by rw [hdeleting, Option.map_some, hinventory]⟩
      · exact .inl rfl
  · exact .inl rfl

theorem observedStagingFailure_ne_none (readable : Bool) (roots : Roots) :
    (observedStagingFailure surroundings plan readable roots).1 ≠ .none := by
  rcases @observedStagingFailure_told surroundings plan readable roots
    with h | ⟨h, -⟩ <;> rw [h] <;> simp

theorem observedStagingFailure_unreadable (readable : Bool) (roots : Roots) :
    (observedStagingFailure surroundings plan readable roots).2 = !readable := by
  unfold observedStagingFailure
  cases readable with
  | false => rfl
  | true =>
    simp only [if_true]
    split
    · rfl
    · split <;> rfl

/-- A staged run is reported, and the current pointer as uncertain or as it is. -/
theorem handled_stagingMoved (h : Tracked Roots.quarantine before w)
    (hcurrent : w.preparedPublished = false → w.roots.current = before.current ∨
      surroundings.stagingReadable = false ∨
        currentFailureUncertain surroundings plan .deleted .prior w.roots = true) :
    Handled Roots.quarantine (DeleteTold surroundings plan before) before
      (stagingMovedFailure surroundings plan transactionId w) w := by
  have hne := @observedStagingFailure_ne_none surroundings plan surroundings.stagingReadable w.roots
  have htold := @observedStagingFailure_told surroundings plan surroundings.stagingReadable w.roots
  have hunreadable := @observedStagingFailure_unreadable surroundings plan surroundings.stagingReadable w.roots
  unfold stagingMovedFailure
  generalize observedStagingFailure surroundings plan surroundings.stagingReadable w.roots =
    observed at hne htold hunreadable ⊢
  obtain ⟨effect, unreadable⟩ := observed
  subst hunreadable
  refine handled_left h hne (unsettled_uncertain _) ?_ fun _ => htold
  dsimp only
  split
  · rintro (h | h) <;> cases h
  rename_i hcertain
  split
  · rintro (h | h) <;> cases h
  rename_i hunpublished
  rw [not_or] at hcertain
  intro _
  rcases hcurrent (by simpa using hunpublished) with h | h | h
  · exact h
  · rw [h] at hcertain
    exact absurd rfl hcertain.1
  · exact absurd h hcertain.2

theorem handled_pointerUnknown (h : Tracked Roots.quarantine before w) (hmoved : w.moved = true)
    (unmoved : FilesystemEffect) :
    Handled Roots.quarantine (DeleteTold surroundings plan before) before
      (pointerUnknownFailure surroundings plan transactionId w unmoved) w := by
  unfold pointerUnknownFailure
  refine handled_left h ?_ rfl ?_ fun _ => ?_
  · dsimp only
    rw [if_pos hmoved]
    exact observedStagingFailure_ne_none _ _
  · rintro (h | h) <;> cases h
  · dsimp only [DeleteTold]
    rw [if_pos hmoved]
    exact observedStagingFailure_told _ _

/-- A failure is reported truthfully unless the prepared pointer was just replaced. -/
theorem ends_handleDelete (e : Raised) :
    Ends (Sound before) (handleDelete surroundings plan transactionId e) (fun _ _ => False)
      (Handled Roots.quarantine (DeleteTold surroundings plan before) before) := by
  unfold handleDelete
  refine Ends.read_bind fun w ⟨hw, hsettled⟩ => ?_
  have hkept := @deleteTold_of_kept before surroundings plan
  have hstaged (hmoved : w.moved = true) : Ends (fun t => t = w) (Stateful.raise
      (stagingMovedFailure surroundings plan transactionId w) : Stateful Raised Cleaning Unit)
      (fun _ _ => False) (Handled Roots.quarantine (DeleteTold surroundings plan before) before) := by
    refine ends_handled (handled_stagingMoved hw fun hunpublished => .inl ?_)
    cases hattempted : w.pointerAttempted with
    | false => exact hw.current hattempted
    | true => exact hsettled hattempted hunpublished
  have hidle (hmade : ¬ (w.journalPublished = true ∨ w.controlCreated = true)) (f : CleanupFailureV1) :
      Ends (fun t => t = w) (Stateful.raise (.cleanup f) : Stateful Raised Cleaning Unit)
      (fun _ _ => False) (Handled Roots.quarantine (DeleteTold surroundings plan before) before) :=
    ends_handled (hw.handled_idle hkept (by simpa using fun h => hmade (.inr h)) f)
  have hundo (hmoved : ¬ w.moved = true) (hmade : w.journalPublished = true ∨ w.controlCreated = true)
      (f : CleanupFailureV1) :
      Ends (fun t => t = w) (rollbackOr surroundings plan transactionId (.cleanup f) .journalOnly)
      (fun _ _ => False) (Handled Roots.quarantine (DeleteTold surroundings plan before) before) :=
    ends_unmoved (fun _ _ => rfl) hkept hw (by simpa using hmoved) hmade (by simp)
  have hmoved (hunknown : w.finalPointerAttempted = true ∨
      w.pointerAttempted = true ∧ ¬ w.preparedPublished = true) : w.moved = true :=
    hw.attempted (hunknown.symm.imp_left And.left)
  cases e with
  | product runLocked =>
    dsimp only
    split
    · exact hstaged ‹_›
    split
    · exact hundo ‹_› ‹_› _
    · exact hidle ‹_› _
  | cleanup | lockRelease | other =>
    dsimp only
    split
    · exact ends_handled (handled_pointerUnknown hw (hmoved ‹_›) _)
    split
    · exact hstaged ‹_›
    split
    · exact hundo ‹_› ‹_› _
    · exact hidle ‹_› _

/-- A product failure right after the prepared pointer was replaced is taken for one
before it: nothing the handler looks at is uncertain. -/
def Masked (surroundings : Surroundings) (plan : CleanupPlanV1) (transactionId : String)
    (before : Roots) : Prop :=
  (∃ w, Returns (do
    check surroundings .preamble
    deletePrepare surroundings plan transactionId) { roots := before } () w) ∧
  (∃ runLocked, surroundings.fault (.afterPointer 2) = some (.product runLocked)) ∧
  surroundings.stagingReadable = true ∧ surroundings.inspection = .readable

/-- The misreport of a delete: the closing checks succeed. -/
def Misreports (surroundings : Surroundings) (plan : CleanupPlanV1) (transactionId : String)
    (before : Roots) : Prop :=
  Masked surroundings plan transactionId before ∧ surroundings.release = .verified

/-- What the `finally` clause of a delete finds. -/
def Handed (surroundings : Surroundings) (plan : CleanupPlanV1) (transactionId : String)
    (before : Roots) (e : Raised) (w : Cleaning) : Prop :=
  Handled Roots.quarantine (DeleteTold surroundings plan before) before e w ∨
    Masked surroundings plan transactionId before ∧ Left Roots.quarantine before w ∧
      w.authority = true

theorem ends_deleteGuarded (hpreamble : surroundings.fault .preamble = none) :
    Ends (fun w => w = { roots := before }) (deleteGuarded surroundings plan transactionId)
      (fun _ w => w.authority = false) fun e w => Sound before w ∨
        Prepared plan transactionId before w ∧
        (∃ w, Returns (do
          check surroundings .preamble
          deletePrepare surroundings plan transactionId) { roots := before } () w) ∧
        surroundings.fault (.afterPointer 2) = some e := by
  unfold deleteGuarded
  have hstart : Unstarted before { roots := before } := ⟨making_start rfl, rfl⟩
  refine Ends.bind ((ends_deletePrepare.returns hstart).mono (fun _ h => h) (fun _ _ h => h)
    fun _ _ h => .inl h) fun _ => ?_
  have hprepared : ∀ w, Returns (deletePrepare surroundings plan transactionId)
      { roots := before } () w → ∃ w, Returns (do
        check surroundings .preamble
        deletePrepare surroundings plan transactionId) { roots := before } () w := by
    intro w hw
    refine ⟨w, returns_bind.2 ⟨(), { roots := before }, ?_, hw⟩⟩
    unfold check
    rw [hpreamble]
    rfl
  refine Ends.bind (Q := fun _ => Prepared plan transactionId before) ?_ fun _ =>
    ends_deletePrepared.mono (fun _ h => h) (fun _ _ h => h) fun _ _ h => .inl h.sound
  unfold check
  cases hfault : surroundings.fault (.afterPointer 2) with
  | none => exact ends_pure fun w hw => hw.1
  | some e => exact ends_raise fun w hw => .inr ⟨hw.1, hprepared w hw.2, rfl⟩

/-- A current state that cannot be read is not settled. -/
theorem currentFailureUncertain_of_unreadable {roots : Roots} (hhere : [] ∈ roots.control)
    (h : surroundings.inspection ≠ .readable) :
    currentFailureUncertain surroundings plan .deleted .prior roots = true := by
  unfold currentFailureUncertain
  rw [decide_eq_true_eq]
  cases hinspection : surroundings.inspection with
  | raises => exact .inl rfl
  | readable => exact absurd hinspection h
  | unreadable =>
    refine .inr ?_
    unfold observedCurrent
    rw [if_neg (not_not_intro hhere), if_pos hinspection]
    simp

theorem Prepared.tracked (h : Prepared plan transactionId before w) :
    Tracked Roots.quarantine before w :=
  h.toGone.tracked

/-- Right after the prepared pointer was replaced. -/
theorem ends_handlePrepared {e : Raised} (hreached : ∃ w, Returns (do
      check surroundings .preamble
      deletePrepare surroundings plan transactionId) { roots := before } () w)
    (hfault : surroundings.fault (.afterPointer 2) = some e) :
    Ends (Prepared plan transactionId before) (handleDelete surroundings plan transactionId e)
      (fun _ _ => False) (Handed surroundings plan transactionId before) := by
  unfold handleDelete
  refine Ends.read_bind fun w hw => ?_
  have hunknown : w.finalPointerAttempted = true ∨
      w.pointerAttempted = true ∧ ¬ w.preparedPublished = true :=
    .inr ⟨hw.attempted, by rw [hw.unpublished]; exact Bool.false_ne_true⟩
  cases e with
  | product runLocked =>
    dsimp only
    rw [if_pos hw.moved]
    refine ends_raise ?_
    rintro _ rfl
    by_cases hreadable : surroundings.stagingReadable = true ∧ surroundings.inspection = .readable
    · exact .inr ⟨⟨hreached, ⟨runLocked, hfault⟩, hreadable⟩, hw.tracked.left, hw.held⟩
    · refine .inl (handled_stagingMoved hw.tracked fun _ => .inr ?_)
      cases hstaging : surroundings.stagingReadable with
      | false => exact .inl rfl
      | true =>
        exact .inr (currentFailureUncertain_of_unreadable hw.here fun h => hreadable ⟨hstaging, h⟩)
  | cleanup | lockRelease | other =>
    dsimp only
    rw [if_pos hunknown]
    refine ends_raise ?_
    rintro _ rfl
    exact .inl (handled_pointerUnknown hw.tracked hw.moved _)

/-- What is reported when the state cannot be verified after the release. -/
theorem reported_unverified {told : Roots → CleanupFailureV1 → Prop} {effect : FilesystemEffect}
    (hnone : effect = .none → w.roots = before)
    (htold : told w.roots ⟨.effectUnknown, some plan.runIdSha256, some plan.planSha256,
      some transactionId, effect, .currentMayHaveAdvanced, fun _ => rfl⟩) :
    Reported (told w.roots) before w.roots
      (fail plan transactionId .effectUnknown effect .currentMayHaveAdvanced fun _ => rfl) := by
  refine ⟨⟨hnone, ?_, fun _ => rfl⟩, htold⟩
  rintro (h | h) <;> cases h

/-- What the `finally` clause raises takes the place of the failure. -/
theorem ends_releaseDelete (e : Raised) :
    Ends (Handed surroundings plan transactionId before e)
      (releaseDelete surroundings plan transactionId)
      (fun _ w => Misreports surroundings plan transactionId before ∨
        Reported (DeleteTold surroundings plan before w.roots) before w.roots e)
      fun e w => Reported (DeleteTold surroundings plan before w.roots) before w.roots e := by
  unfold releaseDelete
  refine Ends.read_bind fun w hw => ?_
  have hleft : Left Roots.quarantine before w := hw.elim And.right fun h => h.2.1
  split
  · refine Ends.bind (Q := fun _ t => t.roots = w.roots) (ends_modify ?_) fun _ => ?_
    · rintro _ rfl
      rfl
    split
    · refine ends_raise fun t ht => ?_
      rw [ht]
      refine reported_unverified (fun hnone => ?_) fun hne => ?_
      · split_ifs at hnone with hmoved hmade
        · exact absurd hnone (observedStagingFailure_ne_none _ _)
        · rw [not_or] at hmade
          exact hleft.idle (by simpa using hmoved) (by simpa using hmade.1) (by simpa using hmade.2)
      · have hmoved : w.moved = true := by
          by_contra hstill
          exact hne (hleft.unmoved (by simpa using hstill))
        dsimp only
        rw [if_pos hmoved]
        exact observedStagingFailure_told _ _
    · rename_i hverified
      refine ends_pure fun t ht => ?_
      rw [ht]
      exact hw.elim (fun h => .inr h.1) fun h => .inl ⟨h.1, not_not.1 hverified⟩
  · rename_i hheld
    refine ends_pure ?_
    rintro _ rfl
    exact hw.elim (fun h => .inr h.1) fun h => absurd h.2.2 hheld

theorem ends_publishDelete :
    Ends (fun w => w = { roots := before }) (publishDelete surroundings plan transactionId)
      (fun _ _ => True) fun e w => Misreports surroundings plan transactionId before ∨
        Reported (DeleteTold surroundings plan before w.roots) before w.roots e := by
  unfold publishDelete
  cases hpreamble : surroundings.fault .preamble with
  | some e =>
    refine Ends.bind (Q := fun _ _ => False) ?_ fun _ w hw => hw.elim
    unfold check
    rw [hpreamble]
    exact ends_raise fun w hw =>
      .inr (reported_start (fun f => deleteTold_of_kept before f rfl) hw e)
  | none =>
    refine Ends.bind (Q := fun _ w => w = { roots := before }) ?_ fun _ => ?_
    · unfold check
      rw [hpreamble]
      exact ends_pure fun _ hw => hw
    refine Ends.ensuring (E := Handed surroundings plan transactionId before)
      ((ends_deleteGuarded hpreamble).catching fun e => ?_) (fun _ => ?_) fun e =>
        (ends_releaseDelete e).mono (fun _ h => h) (fun _ _ h => h) fun _ _ h => .inr h
    · rintro w (hw | ⟨hw, hreached, hfault⟩)
      · exact ((ends_handleDelete e).mono (fun _ h => h) (fun _ _ h => h.elim)
          fun _ _ h => .inl h) w hw
      · exact ((ends_handlePrepared hreached hfault).mono (fun _ h => h) (fun _ _ h => h.elim)
          fun _ _ h => h) w hw
    · refine Ends.read_bind fun w hw => ?_
      rw [if_neg (by simp [hw])]
      exact ends_pure fun _ _ => trivial

/-- Its own prepared pointer is taken for the pointer before the delete. -/
theorem Prepared.currentFailureUncertain (h : Prepared plan transactionId before w)
    (hinspection : surroundings.inspection = .readable) :
    currentFailureUncertain surroundings plan .deleted .prior w.roots = false := by
  have hprior : observedCurrent surroundings plan .deleted w.roots = .prior := by
    unfold observedCurrent
    rw [if_neg (not_not_intro h.here), if_neg (by rw [hinspection]; simp), h.pointed]
    simp only [pointer, and_self, and_true]
    split_ifs <;> first | rfl | contradiction
  simp [Cleanup.currentFailureUncertain, hprior, hinspection]

theorem Prepared.not_reported (h : Prepared plan transactionId before w)
    (hreadable : surroundings.stagingReadable = true)
    (hinspection : surroundings.inspection = .readable) {told : CleanupFailureV1 → Prop} :
    ¬ Reported told before w.roots (stagingMovedFailure surroundings plan transactionId w) := by
  intro hreported
  have hunreadable := @observedStagingFailure_unreadable surroundings plan
    surroundings.stagingReadable w.roots
  unfold stagingMovedFailure at hreported
  generalize observedStagingFailure surroundings plan surroundings.stagingReadable w.roots =
    observed at hunreadable hreported
  obtain ⟨effect, unreadable⟩ := observed
  subst hunreadable
  obtain ⟨htruthful, -⟩ := hreported
  refine h.advanced (htruthful.unchanged (.inr ?_))
  dsimp only
  rw [hreadable, h.currentFailureUncertain hinspection, h.unpublished]
  rfl

/-- The run in which it goes wrong. -/
theorem ends_misreported (h : Misreports surroundings plan transactionId before) :
    Ends (fun w => w = { roots := before }) (publishDelete surroundings plan transactionId)
      (fun _ _ => False)
      fun e w => ¬ Reported (DeleteTold surroundings plan before w.roots) before w.roots e := by
  obtain ⟨⟨⟨w, hreached⟩, ⟨runLocked, hfault⟩, hreadable, hinspection⟩, hverified⟩ := h
  obtain ⟨⟨⟩, t, hpreamble, hprepare⟩ := returns_bind.1 hreached
  have hstart : Unstarted before { roots := before } := ⟨making_start rfl, rfl⟩
  have ht : t = { roots := before } := by
    unfold check at hpreamble
    split at hpreamble
    · exact (returns_pure.1 hpreamble).2.symm
    · cases hpreamble
  subst ht
  have hw := ends_deletePrepare.ok hstart hprepare
  unfold publishDelete
  refine hpreamble.ends.bind fun _ => ?_
  refine Ends.ensuring (Q := fun _ _ => False)
    (E := fun e t => e = stagingMovedFailure surroundings plan transactionId w ∧ t = w)
    (Ends.catching (E := fun e t => e = .product runLocked ∧ t = w) ?_ fun e => ?_)
    (fun _ _ h => h.elim) fun e => ?_
  · unfold deleteGuarded
    refine (hprepare.ends.mono (fun _ h => h.2) (fun _ _ h => h) fun _ _ h => h).bind fun _ => ?_
    refine Ends.bind (Q := fun _ _ => False) ?_ fun _ _ h => h.elim
    unfold check
    rw [hfault]
    exact ends_raise fun t ht => ⟨rfl, ht.2⟩
  · unfold handleDelete
    refine Ends.read_bind fun t ⟨he, ht⟩ => ?_
    subst he ht
    dsimp only
    rw [if_pos hw.moved]
    exact ends_raise fun t ht => ⟨rfl, ht⟩
  · unfold releaseDelete
    refine Ends.read_bind fun t ⟨he, ht⟩ => ?_
    subst he ht
    rw [if_pos hw.held]
    refine Ends.bind (Q := fun _ u => u.roots = t.roots) (ends_modify ?_) fun _ => ?_
    · rintro _ rfl
      rfl
    rw [if_neg (not_not_intro hverified)]
    refine ends_pure fun u hu => ?_
    rw [hu]
    exact hw.not_reported hreadable hinspection

end Delete

/-! ## Both actions -/

/-- A quarantine that fails reports truthfully, and so does a delete unless its product
root fails right after the prepared pointer was replaced and nothing is uncertain then. -/
theorem cleanup_truthful_iff (surroundings : Surroundings) (plan : CleanupPlanV1)
    (transactionId : String) (before : Roots) :
    (∀ e after, publishQuarantine surroundings plan transactionId { roots := before } =
        (.error e, after) →
      Reported (QuarantineTold before after.roots) before after.roots e) ∧
    (∀ e after, publishDelete surroundings plan transactionId { roots := before } =
        (.error e, after) →
      (Reported (DeleteTold surroundings plan before after.roots) before after.roots e ↔
        ¬ Misreports surroundings plan transactionId before)) := by
  refine ⟨fun e after h => ends_publishQuarantine.error rfl h, fun e after h => ⟨?_, ?_⟩⟩
  · exact fun hreported hmisreports => (ends_misreported hmisreports).error rfl h hreported
  · exact (ends_publishDelete.error rfl h).resolve_left

/-- The failure a call reports. -/
def reportedFailure : Except Raised Unit → Option CleanupFailureV1
  | .error (.cleanup failure) => some failure
  | _ => none

theorem reportedFailure_eq_some {r : Except Raised Unit} {f : CleanupFailureV1}
    (h : reportedFailure r = some f) : r = .error (.cleanup f) := by
  unfold reportedFailure at h
  split at h
  · cases h
    rfl
  · cases h

/-- A quarantined run, with the plan of its delete. -/
def sampleQuarantined : Roots where
  product := none
  quarantine := some ["input.json"]
  deleting := none
  control := [[], ["transactions"], ["revisions"]]
  current := some
    { revision := 1, transactionId := "moved", state := .quarantined, planSha256 := "quarantine"
      executionId := "first", idempotencyKey := "one" }

def samplePlan : CleanupPlanV1 where
  runIdSha256 := "run"
  planSha256 := "delete"
  executionId := "second"
  idempotencyKey := "two"
  expectedCleanupPointerSha256 := some "moved"
  treeInventorySha256 := "input.json"

/-- One step fails; the rest is as it should be. -/
def failingAt (step : Step) (e : Raised) : Surroundings where
  fault s := if s = step then some e else none
  landed _ := true
  rollbackStops := none
  inspection := .readable
  stagingReadable := true
  stagingReadableAtRelease := true
  release := .verified
  pointerSha256 := CleanupCurrent.transactionId
  treeSha256 := String.join

/-- The prepared pointer is there, and the failure says that the pointer is unchanged. -/
theorem prepared_pointer_misreports : ∃ f after,
    publishDelete (failingAt (.afterPointer 2) (.product false)) samplePlan "removed"
      { roots := sampleQuarantined } = (.error (.cleanup f), after) ∧
    f.domainEffect = .currentUnchanged ∧ after.roots.current ≠ sampleQuarantined.current := by
  have hends : (reportedFailure (publishDelete (failingAt (.afterPointer 2) (.product false))
        samplePlan "removed" { roots := sampleQuarantined }).1).map (·.domainEffect) =
      some .currentUnchanged ∧
      (publishDelete (failingAt (.afterPointer 2) (.product false)) samplePlan "removed"
        { roots := sampleQuarantined }).2.roots.current ≠ sampleQuarantined.current := by
    decide +kernel
  obtain ⟨hraised, hadvanced⟩ := hends
  rcases hrun : publishDelete (failingAt (.afterPointer 2) (.product false)) samplePlan "removed"
    { roots := sampleQuarantined } with ⟨r, after⟩
  rw [hrun] at hraised hadvanced
  obtain ⟨f, hf, hdomain⟩ := Option.map_eq_some_iff.1 hraised
  obtain rfl := reportedFailure_eq_some hf
  exact ⟨f, after, rfl, hdomain, hadvanced⟩

theorem cleanup_truthful_iff_refused : ∃ f after,
    publishDelete (failingAt .lockedAdmission (.product true)) samplePlan "removed"
      { roots := sampleQuarantined } = (.error (.cleanup f), after) ∧ f.retryable = true ∧
    Truthful sampleQuarantined after.roots f := by
  have hends : (reportedFailure (publishDelete (failingAt .lockedAdmission (.product true))
      samplePlan "removed" { roots := sampleQuarantined }).1).map (·.retryable) = some true := by
    decide +kernel
  rcases hrun : publishDelete (failingAt .lockedAdmission (.product true)) samplePlan "removed"
    { roots := sampleQuarantined } with ⟨r, after⟩
  rw [hrun] at hends
  obtain ⟨f, hf, hretryable⟩ := Option.map_eq_some_iff.1 hends
  obtain rfl := reportedFailure_eq_some hf
  refine ⟨f, after, rfl, hretryable, (((cleanup_truthful_iff _ _ _ _).2 _ _ hrun).2 ?_).1⟩
  rintro ⟨⟨-, ⟨runLocked, hfault⟩, -⟩, -⟩
  cases hfault

end PokerDeliberation.Cleanup
