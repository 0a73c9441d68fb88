import PokerDeliberation.IsolatedJobs.Store

/-!
# Job histories

A store is intact when every run is empty or read back. One call either leaves
a run as it was or puts one revision on top that is read back with it, so every
reachable store is intact. What is read back has the shape of `JobHistory`.
-/

namespace PokerDeliberation.IsolatedJobs

open Lib

section

variable {Content : Type} [DecidableEq Content] (storage : Storage Content)

/-! ## What a reader accepts -/

/-- `newer` may follow `older`. -/
def Follows (newer older : JobState Content) : Prop :=
  validateSuccessor storage.toCodec older newer = .ok ()

/-- The outputs of a revision are the ones its state is bound to. -/
def Bound (s : JobState Content) (r : StructuralRevision) : Prop :=
  validateOutputBinding storage.toCodec s r.stdout r.stderr = .ok ()

variable {storage} {executionId : String} {r : StructuralRevision}
  {revisions : List StructuralRevision} {s : JobState Content} {states : List (JobState Content)}

omit [DecidableEq Content] in
theorem readChain_cons_ok :
    readChain storage executionId (r :: revisions) = .ok states ↔
      ∃ s older, states = s :: older ∧ verifyRevision storage executionId r = .ok s ∧
        lineageCheck storage r revisions.head? = .ok () ∧
        readChain storage executionId revisions = .ok older := by
  simp only [readChain, bind_eq_ok]
  constructor
  · rintro ⟨s, hs, ⟨⟩, hl, older, ho, h⟩
    cases h
    exact ⟨s, older, rfl, hs, hl, ho⟩
  · rintro ⟨s, older, rfl, hs, hl, ho⟩
    exact ⟨s, hs, (), hl, older, ho, rfl⟩

omit [DecidableEq Content] in
theorem verifyRevision_ok (h : verifyRevision storage executionId r = .ok s) :
    storage.decode r.state = some s ∧ s.check storage.toCodec = .ok () ∧
      s.executionId = executionId ∧ Bound storage s r := by
  simp only [verifyRevision, check_bind_eq_ok] at h
  obtain ⟨-, h⟩ := h
  split at h
  · cases h
  · rename_i t ht
    simp only [check_bind_eq_ok, require_eq_ok] at h
    obtain ⟨hcheck, hid, -, hbound, -, hs⟩ := h
    cases hs
    exact ⟨ht, hcheck, hid, hbound⟩

theorem historyCheck_eq_ok :
    historyCheck storage executionId revisions states = .ok () ↔
      states.map (·.generation) = revisions.map (·.revision) ∧
        (∀ p ∈ states.zip revisions, Bound storage p.1 p.2) ∧
        (∀ s ∈ states, s.executionId = executionId) ∧ states.IsChain (Follows storage) := by
  simp only [historyCheck, check_bind_eq_ok, require_eq_ok, forM_eq_ok]
  rw [← forall_mem_zip_tail]
  rfl

theorem acceptHistory_eq_ok :
    acceptHistory storage executionId revisions = .ok states ↔
      revisions ≠ [] ∧ readChain storage executionId revisions = .ok states ∧
        historyCheck storage executionId revisions states = .ok () := by
  rw [acceptHistory, require_bind_eq_ok, bind_eq_ok]
  simp only [check_bind_eq_ok]
  constructor
  · rintro ⟨hne, states', hread, hcheck, h⟩
    cases h
    exact ⟨hne, hread, hcheck⟩
  · rintro ⟨hne, hread, hcheck⟩
    exact ⟨hne, states, hread, hcheck, rfl⟩

/-- The run is empty or read back; `states` is what is read. -/
def Stands (storage : Storage Content) (executionId : String) (revisions : List StructuralRevision)
    (states : List (JobState Content)) : Prop :=
  readChain storage executionId revisions = .ok states ∧
    historyCheck storage executionId revisions states = .ok ()

theorem Stands.accepted (h : Stands storage executionId revisions states) (hne : revisions ≠ []) :
    acceptHistory storage executionId revisions = .ok states :=
  acceptHistory_eq_ok.2 ⟨hne, h⟩

theorem stands_nil : Stands storage executionId [] [] := by
  refine ⟨rfl, historyCheck_eq_ok.2 ?_⟩
  simp

theorem Stands.length_eq (h : Stands storage executionId revisions states) :
    states.length = revisions.length := by
  have hgen := (historyCheck_eq_ok.1 h.2).1
  simpa using congrArg List.length hgen

/-- A verified revision of the next state stands on a history that stands. -/
theorem Stands.cons (h : Stands storage executionId revisions states)
    (hverify : verifyRevision storage executionId r = .ok s)
    (hlineage : lineageCheck storage r revisions.head? = .ok ())
    (hgeneration : s.generation = r.revision)
    (hfollows : ∀ older ∈ states.head?, Follows storage s older) :
    Stands storage executionId (r :: revisions) (s :: states) := by
  obtain ⟨hread, hcheck⟩ := h
  obtain ⟨hgen, hbound, hid, hchain⟩ := historyCheck_eq_ok.1 hcheck
  obtain ⟨-, -, hself, hselfBound⟩ := verifyRevision_ok hverify
  refine ⟨readChain_cons_ok.2 ⟨s, states, rfl, hverify, hlineage, hread⟩,
    historyCheck_eq_ok.2 ⟨?_, ?_, ?_, List.isChain_cons.2 ⟨hfollows, hchain⟩⟩⟩
  · rw [List.map_cons, List.map_cons, hgen, hgeneration]
  · rw [List.zip_cons_cons, List.forall_mem_cons]
    exact ⟨hselfBound, hbound⟩
  · rw [List.forall_mem_cons]
    exact ⟨hself, hid⟩

/-! ## Publishing -/

omit [DecidableEq Content] in
/-- A revision under compare-and-swap is linked to the current one. -/
theorem lineageCheck_of_casMatches (h : casMatches storage r revisions) :
    lineageCheck storage r revisions.head? = .ok () := by
  cases revisions with
  | nil =>
    simp only [casMatches, Bool.and_eq_true, decide_eq_true_eq] at h
    exact require_of h.2
  | cons current rest =>
    simp only [casMatches, Bool.and_eq_true, decide_eq_true_eq] at h
    exact require_of ⟨h.2, h.1.1.1, h.1.1.2⟩

variable {store : RevisionStore} {env : Environment}

omit [DecidableEq Content] in
/-- A publication leaves every run, or puts the revision it verified on top of its own. -/
theorem publishRevision_runs {fault : Option PublishFault} :
    (publishRevision storage store executionId r fault).2.runs = store.runs ∨
      (publishRevision storage store executionId r fault).2.runs =
          Function.update store.runs executionId (r :: store.runs executionId) ∧
        (∃ s, verifyRevision storage executionId r = .ok s) ∧
        casMatches storage r (store.runs executionId) := by
  unfold publishRevision
  split
  · exact .inl rfl
  rename_i s hverify
  split
  · exact .inl rfl
  split
  · exact .inl rfl
  split
  · exact .inl rfl
  split
  · exact .inl rfl
  split
  · exact .inl rfl
  rename_i hcas
  rw [not_not] at hcas
  split
  · exact .inl (by split <;> rfl)
  · exact .inr ⟨rfl, ⟨s, hverify⟩, hcas⟩
  · exact .inr ⟨rfl, ⟨s, hverify⟩, hcas⟩

variable {previous : Option (JobState Content)} {stdout stderr : List UInt8}

omit [DecidableEq Content] in
/-- What `_publish` asks for is a revision of the state. -/
theorem preparePublish_ok (h : preparePublish storage store env previous s stdout stderr = .ok r) :
    storage.encode s = some r.state ∧ r.revision = s.generation ∧
      (previous = none → r.expectedRevision = none) := by
  simp only [preparePublish, check_bind_eq_ok] at h
  obtain ⟨-, -, h⟩ := h
  obtain ⟨expected, hexpected, h⟩ := bind_eq_ok.1 h
  have hnone : previous = none → expected = none := by
    rintro rfl
    exact (Except.ok.inj hexpected).symm
  simp only [revisionRequest] at h
  split at h
  · cases h
  · cases h
  · rename_i data createdAt hdata hclock
    cases h
    exact ⟨hdata, rfl, fun hp => by rw [hnone hp]; rfl⟩

/-- A publication of a state leaves every run, or puts one revision of that state on top. -/
theorem publishState_runs (storage : Storage Content) (store : RevisionStore) (env : Environment)
    (previous : Option (JobState Content)) (s : JobState Content) (stdout stderr : List UInt8) :
    (publishState storage store env previous s stdout stderr).2.runs = store.runs ∨
      ∃ r, (publishState storage store env previous s stdout stderr).2.runs =
          Function.update store.runs s.executionId (r :: store.runs s.executionId) ∧
        verifyRevision storage s.executionId r = .ok s ∧
        casMatches storage r (store.runs s.executionId) ∧ r.revision = s.generation ∧
        (previous = none → r.expectedRevision = none) := by
  unfold publishState
  split
  · exact .inl rfl
  rename_i r hprepare
  obtain ⟨hencode, hrevision, hexpected⟩ := preparePublish_ok hprepare
  have hafter : ∀ after, (publishRevision storage store s.executionId r env.publishFault).2 = after →
      after.runs = store.runs ∨ ∃ r, after.runs =
          Function.update store.runs s.executionId (r :: store.runs s.executionId) ∧
        verifyRevision storage s.executionId r = .ok s ∧
        casMatches storage r (store.runs s.executionId) ∧ r.revision = s.generation ∧
        (previous = none → r.expectedRevision = none) := by
    rintro after rfl
    refine publishRevision_runs.imp_right ?_
    rintro ⟨hruns, ⟨t, hverify⟩, hcas⟩
    have ht : t = s := by
      have hdecode := (verifyRevision_ok hverify).1
      rw [storage.decode_encode hencode] at hdecode
      exact (Option.some.inj hdecode).symm
    exact ⟨r, hruns, ht ▸ hverify, hcas, hrevision, hexpected⟩
  split
  · rename_i failure after hpublish
    exact hafter after (by rw [hpublish])
  · rename_i kind after hpublish
    split <;> exact hafter after (by rw [hpublish])

/-! ## Calls -/

/-- What one call does to the run of a job. -/
inductive RunStep (storage : Storage Content) (executionId : String)
    (revisions : List StructuralRevision) (states : List (JobState Content)) :
    List StructuralRevision → Prop where
  | unchanged : RunStep storage executionId revisions states revisions
  | appended (r : StructuralRevision) (s : JobState Content)
      (stands : Stands storage executionId (r :: revisions) (s :: states)) :
      RunStep storage executionId revisions states (r :: revisions)

/-- A published state steps its own run, if it follows the newest one read back. -/
theorem publishState_step (hstands : Stands storage s.executionId (store.runs s.executionId) states)
    (hfollows : ∀ older ∈ states.head?, previous ≠ none → Follows storage s older)
    (id : String) {others : List (JobState Content)}
    (hothers : Stands storage id (store.runs id) others) :
    RunStep storage id (store.runs id) others
      ((publishState storage store env previous s stdout stderr).2.runs id) := by
  obtain hruns | ⟨r, hruns, hverify, hcas, hrevision, hexpected⟩ :=
    publishState_runs storage store env previous s stdout stderr
  · rw [hruns]
    exact .unchanged
  rw [hruns]
  by_cases hid : id = s.executionId
  swap
  · rw [Function.update_of_ne hid]
    exact .unchanged
  subst hid
  rw [Function.update_self]
  have hothers' : others = states := by
    have := hothers.1.symm.trans hstands.1
    exact Except.ok.inj this
  subst hothers'
  refine .appended r s (hstands.cons hverify (lineageCheck_of_casMatches hcas) hrevision.symm ?_)
  intro older hmem
  -- without a predecessor the run has no current revision, hence nothing to follow
  refine hfollows older hmem fun hnone => ?_
  have hlength := hstands.length_eq
  cases hrun : store.runs s.executionId with
  | nil =>
    rw [hrun] at hlength
    rw [List.length_eq_zero_iff.1 hlength] at hmem
    cases hmem
  | cons current rest =>
    rw [hrun] at hcas
    simp only [casMatches, hexpected hnone, Bool.and_eq_true, decide_eq_true_eq] at hcas
    exact absurd hcas.1.1.1 (by simp)

/-- What is loaded is the newest state of a run that stands. -/
theorem load_ok {turn : Nat} (h : load storage store env turn executionId = .ok s) :
    ∃ older, Stands storage executionId (store.runs executionId) (s :: older) := by
  obtain ⟨loaded, hload, h⟩ := bind_eq_ok.1 h
  simp only [loadHistory, check_bind_eq_ok, mapError_eq_ok] at hload
  obtain ⟨-, hread⟩ := hload
  obtain ⟨-, hstands⟩ := acceptHistory_eq_ok.1 hread
  cases loaded with
  | nil => cases h
  | cons t older =>
    cases h
    exact ⟨older, hstands⟩

theorem successor_ok {current : JobState Content} {a : TransitionArguments}
    (h : successor storage env current a = .ok s) :
    s.executionId = current.executionId ∧ Follows storage s current := by
  obtain ⟨event, -, h⟩ := bind_eq_ok.1 h
  split at h
  · cases h
  · simp only [check_bind_eq_ok, mapError_eq_ok] at h
    obtain ⟨-, hfollows, hs⟩ := h
    cases hs
    exact ⟨rfl, hfollows⟩

/-- What a transition publishes follows the newest state of its run. -/
theorem prepareTransition_ok {a : TransitionArguments} {current : JobState Content}
    (h : prepareTransition storage store env a = .ok (current, s, stdout, stderr)) :
    ∃ older, Stands storage s.executionId (store.runs s.executionId) (current :: older) ∧
      Follows storage s current := by
  obtain ⟨current', hload, h⟩ := bind_eq_ok.1 h
  obtain ⟨older, hstands⟩ := load_ok hload
  simp only [check_bind_eq_ok] at h
  obtain ⟨-, -, h⟩ := h
  obtain ⟨outputs, -, h⟩ := bind_eq_ok.1 h
  obtain ⟨s', hsuccessor, h⟩ := bind_eq_ok.1 h
  cases h
  obtain ⟨hid, hfollows⟩ := successor_ok hsuccessor
  have hcurrent : current.executionId = a.executionId :=
    (historyCheck_eq_ok.1 hstands.2).2.2.1 current List.mem_cons_self
  rw [hid, hcurrent]
  exact ⟨older, hstands, hfollows⟩

/-- Every run is empty or read back. -/
def Intact (storage : Storage Content) (store : RevisionStore) : Prop :=
  ∀ id, ∃ states, Stands storage id (store.runs id) states

/-- One call, on any run. -/
theorem act_step (hintact : Intact storage store) (call : Call Content × Environment) (id : String)
    {others : List (JobState Content)} (hothers : Stands storage id (store.runs id) others) :
    RunStep storage id (store.runs id) others ((Call.act storage store call).2.runs id) := by
  obtain ⟨call, env⟩ := call
  cases call with
  | create a =>
    simp only [Call.act, create]
    split
    · exact .unchanged
    · rename_i state _
      obtain ⟨states, hstands⟩ := hintact state.executionId
      exact publishState_step hstands (fun _ _ hne => absurd rfl hne) id hothers
  | transition a =>
    simp only [Call.act, transition]
    split
    · exact .unchanged
    · rename_i current state stdout stderr hprepare
      obtain ⟨older, hstands, hfollows⟩ := prepareTransition_ok hprepare
      refine publishState_step hstands ?_ id hothers
      intro previous hprevious _
      cases hprevious
      exact hfollows

theorem act_intact (hintact : Intact storage store) (call : Call Content × Environment) :
    Intact storage (Call.act storage store call).2 := by
  intro id
  obtain ⟨states, hstands⟩ := hintact id
  have hstep := act_step hintact call id hstands
  generalize (Call.act storage store call).2.runs id = after at hstep
  cases hstep with
  | unchanged => exact ⟨states, hstands⟩
  | appended r s stands => exact ⟨s :: states, stands⟩

theorem run_intact (calls : List (Call Content × Environment)) : Intact storage (run storage calls) := by
  have hfold : ∀ (calls : List (Call Content × Environment)) (store : RevisionStore),
      Intact storage store →
        Intact storage (calls.foldl (fun store call => (Call.act storage store call).2) store) := by
    intro calls
    induction calls with
    | nil => exact fun store hintact => hintact
    | cons call calls ih => exact fun store hintact => ih _ (act_intact hintact call)
  exact hfold calls _ fun _ => ⟨[], stands_nil⟩

/-! ## The shape of a history -/

/-- Once `f` is set, it is kept. -/
def KeptOnceSet {α : Type} (f : JobState Content → α) (unset : α) (newer older : JobState Content) :
    Prop :=
  f older ≠ unset → f newer = f older

omit [DecidableEq Content] in
theorem KeptOnceSet.trans {α : Type} {f : JobState Content → α} {unset : α}
    {newer middle older : JobState Content} (h : KeptOnceSet f unset newer middle)
    (h' : KeptOnceSet f unset middle older) : KeptOnceSet f unset newer older := by
  intro hset
  have hmiddle := h' hset
  rw [← hmiddle] at hset
  exact (h hset).trans hmiddle

/-- The states of a job, newest first, over the revisions that hold them. -/
structure JobHistory (storage : Storage Content) (executionId : String)
    (revisions : List StructuralRevision) (states : List (JobState Content)) : Prop where
  stored : List.Forall₂ (fun s r => storage.decode r.state = some s) states revisions
  checked : ∀ s ∈ states, s.check storage.toCodec = .ok () ∧ s.executionId = executionId
  starts : ∀ s ∈ states.getLast?, s.status = .prepared
  statuses : states.IsChain fun newer older => newer.status ∈ allowedTransitions older.status
  generations : states.map (·.generation) = (List.range' 1 states.length).reverse
  hashes : states.IsChain fun newer older =>
    storage.stateSha256 older ≠ none ∧ newer.previousStateSha256 = storage.stateSha256 older
  bindings : states.Pairwise fun newer older => stableFields older newer
  process : states.Pairwise (KeptOnceSet JobState.process (none, none))
  effectRecheck : states.Pairwise
    (KeptOnceSet JobState.effectAdmissionRecheckBindingSha256 none)
  evidence : states.Pairwise (KeptOnceSet JobState.evidence none)
  terminal : ∀ s ∈ states.tail, s.status ∉ terminalJobStatuses
  outputs : ∀ p ∈ states.zip revisions, match p.1.evidence with
    | none => p.2.stdout = [] ∧ p.2.stderr = []
    | some e => e.stdoutBytes = p.2.stdout.length ∧ e.stderrBytes = p.2.stderr.length ∧
        e.stdoutSha256 = storage.sha256 p.2.stdout ∧ e.stderrSha256 = storage.sha256 p.2.stderr

/-- What one state says of the next. -/
structure Successor (storage : Storage Content) (newer older : JobState Content) : Prop where
  status : newer.status ∈ allowedTransitions older.status
  hash : storage.stateSha256 older ≠ none ∧ newer.previousStateSha256 = storage.stateSha256 older
  stable : stableFields older newer
  process : KeptOnceSet JobState.process (none, none) newer older
  effectRecheck : KeptOnceSet JobState.effectAdmissionRecheckBindingSha256 none newer older
  evidence : KeptOnceSet JobState.evidence none newer older

theorem Follows.successor {newer older : JobState Content} (h : Follows storage newer older) :
    Successor storage newer older := by
  simp only [Follows, validateSuccessor, check_bind_eq_ok, require_eq_ok] at h
  obtain ⟨⟨-, hhash, hprevious, hstatus, -⟩, hstable, hprocess, heffect, -, hevidence, -⟩ := h
  refine ⟨hstatus, ⟨hhash, hprevious⟩, hstable, fun hset => ?_, fun hset => ?_, fun hset => ?_⟩
  · simpa [processSuccessor, hset] using hprocess
  · exact heffect (Option.isSome_iff_ne_none.2 hset)
  · exact hevidence (Option.isSome_iff_ne_none.2 hset)

omit [DecidableEq Content] in
theorem stableFields_trans {newer middle older : JobState Content}
    (h : stableFields middle newer) (h' : stableFields older middle) : stableFields older newer := by
  unfold stableFields at *
  simp only [h, h', and_self]

/-- A relation that composes and that every successor keeps holds across a history. -/
theorem pairwise_of_successor {R : JobState Content → JobState Content → Prop}
    (hchain : states.IsChain (Follows storage))
    (hstep : ∀ {newer older}, Successor storage newer older → R newer older)
    (htrans : ∀ {newer middle older}, R newer middle → R middle older → R newer older) :
    states.Pairwise R := by
  have : IsTrans (JobState Content) R := ⟨fun _ _ _ => htrans⟩
  exact (hchain.imp fun _ _ h => hstep h.successor).pairwise

theorem terminal_of_chain (hchain : states.IsChain (Follows storage)) :
    ∀ s ∈ states.tail, s.status ∉ terminalJobStatuses := by
  induction states with
  | nil => simp
  | cons newer rest ih =>
    cases rest with
    | nil => simp
    | cons older rest =>
      obtain ⟨hfollows, hrest⟩ := List.isChain_cons_cons.1 hchain
      have hstatus := hfollows.successor.status
      rw [List.tail_cons, List.forall_mem_cons]
      refine ⟨fun hterminal => ?_, ih hrest⟩
      simp only [terminalJobStatuses, List.mem_cons, List.not_mem_nil, or_false] at hterminal
      obtain h | h | h | h := hterminal <;> rw [h] at hstatus <;> cases hstatus

omit [DecidableEq Content] in
/-- The numbers of a chain count down to one. -/
theorem revisions_of_chain (h : readChain storage executionId revisions = .ok states) :
    revisions.map (·.revision) = (List.range' 1 revisions.length).reverse := by
  induction revisions generalizing states with
  | nil => rfl
  | cons r rest ih =>
    obtain ⟨s, older, -, -, hlineage, hrest⟩ := readChain_cons_ok.1 h
    have hmap := ih hrest
    have hr : r.revision = 1 + rest.length := by
      cases rest with
      | nil => simpa [lineageCheck] using hlineage
      | cons previous rest =>
        have hprevious : previous.revision = 1 + rest.length := by
          simp only [List.map_cons, List.length_cons, List.range'_concat, List.reverse_append,
            List.reverse_cons, List.reverse_nil, List.nil_append, List.singleton_append,
            List.cons.injEq, Nat.one_mul] at hmap
          exact hmap.1
        simp only [List.head?_cons, lineageCheck, require_eq_ok] at hlineage
        rw [hlineage.1, hprevious, List.length_cons]
        omega
    rw [List.map_cons, hmap, hr, List.length_cons, List.range'_concat, Nat.one_mul,
      List.reverse_append]
    rfl

omit [DecidableEq Content] in
theorem prepared_of_first {codec : Codec Content} (hcheck : s.check codec = .ok ())
    (hfirst : s.generation = 1) : s.status = .prepared := by
  simp only [JobState.check, JobState.identityCheck, check_bind_eq_ok, require_eq_ok] at hcheck
  obtain ⟨-, ⟨-, -, -, -, -, -, -, -, hlength⟩, hevents, hlast, -⟩ := hcheck
  rw [hfirst] at hlength
  obtain ⟨event, hevent⟩ := List.length_eq_one_iff.1 hlength
  rw [hevent] at hevents hlast
  simp only [JobState.eventsCheck, JobState.linkCheck, check_bind_eq_ok, require_eq_ok] at hevents
  have hstatus : event.status = s.status := by simpa using hlast
  rw [← hstatus]
  exact hevents.2.2.1.2

omit [DecidableEq Content] in
theorem readChain_states (h : readChain storage executionId revisions = .ok states) :
    List.Forall₂ (fun s r => storage.decode r.state = some s) states revisions ∧
      ∀ s ∈ states, s.check storage.toCodec = .ok () ∧ s.executionId = executionId := by
  induction revisions generalizing states with
  | nil =>
    cases h
    exact ⟨.nil, by simp⟩
  | cons r rest ih =>
    obtain ⟨s, older, rfl, hverify, -, hrest⟩ := readChain_cons_ok.1 h
    obtain ⟨hdecode, hcheck, hid, -⟩ := verifyRevision_ok hverify
    obtain ⟨hstored, hchecked⟩ := ih hrest
    exact ⟨.cons hdecode hstored, List.forall_mem_cons.2 ⟨⟨hcheck, hid⟩, hchecked⟩⟩

/-- What stands has the shape of a job's history. -/
theorem Stands.jobHistory (h : Stands storage executionId revisions states) :
    JobHistory storage executionId revisions states := by
  obtain ⟨hgeneration, hbound, -, hchain⟩ := historyCheck_eq_ok.1 h.2
  obtain ⟨hstored, hchecked⟩ := readChain_states h.1
  have hcount : states.map (·.generation) = (List.range' 1 states.length).reverse := by
    rw [hgeneration, revisions_of_chain h.1, h.length_eq]
  refine ⟨hstored, hchecked, ?_, hchain.imp fun _ _ h => h.successor.status, hcount,
    hchain.imp fun _ _ h => h.successor.hash, ?_, ?_, ?_, ?_, terminal_of_chain hchain, ?_⟩
  · intro s hs
    have hgen : (states.map (·.generation)).getLast? = some s.generation := by
      rw [List.getLast?_map, hs]
      rfl
    rw [hcount, List.getLast?_reverse, List.head?_range'] at hgen
    split at hgen
    · cases hgen
    · exact prepared_of_first (hchecked s (List.mem_of_getLast? hs)).1 (Option.some.inj hgen).symm
  · exact pairwise_of_successor hchain (fun h => h.stable) stableFields_trans
  · exact pairwise_of_successor hchain (fun h => h.process) KeptOnceSet.trans
  · exact pairwise_of_successor hchain (fun h => h.effectRecheck) KeptOnceSet.trans
  · exact pairwise_of_successor hchain (fun h => h.evidence) KeptOnceSet.trans
  · intro p hp
    have houtput := hbound p hp
    unfold Bound validateOutputBinding at houtput
    split <;> simp_all

/-- Every read of the job's history that no storage fault stops returns these states. -/
def ReadsBack (storage : Storage Content) (store : RevisionStore) (executionId : String)
    (states : List (JobState Content)) : Prop :=
  ∀ env turn, env.readFault turn = none →
    loadHistory storage store env turn executionId = .ok states

theorem Stands.readsBack (h : Stands storage executionId (store.runs executionId) states)
    (hne : store.runs executionId ≠ []) : ReadsBack storage store executionId states := by
  intro env turn hquiet
  simp only [loadHistory, readable, hquiet, h.accepted hne]
  rfl

end

end PokerDeliberation.IsolatedJobs
