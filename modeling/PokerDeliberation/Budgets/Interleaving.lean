import PokerDeliberation.Budgets.Concurrent

/-!
# No lost or doubled operation

Whatever the schedule, the committed states form one chain to which each call
appends its own operation at most once, and the answer of a call says whether
it did. A successor is built on a state that was current when it was loaded;
its revision is then the number of a commit, numbers only grow, so a publish
whose comparison succeeds still extends that very state.
-/

namespace PokerDeliberation.Budgets

open Lib

section

variable {sha256 : Payload → String} {digests : RevisionDigests} {runId : String}
variable {state s' : DurableBudgetStateV1} {elapsed : Nat} {m : Mutation} {chain : List Commit}

/-! ## What a mutation appends -/

/-- `s'` is built from `state` by `_append_operation`, with the operation of `m`. -/
def Appends (sha256 : Payload → String) (state s' : DurableBudgetStateV1) (m : Mutation) : Prop :=
  ∃ updated payload, appendOperation sha256 state updated m.operationId m.kind m.requestSha256
    m.subjectId payload = .ok s'

/-- Whatever a mutation computes ends in `_append_operation`. -/
theorem successor_appends {c : Call} (hc : c.isCreate = false)
    (h : (c.mutation sha256 runId).successor state elapsed = .ok s') :
    Appends sha256 state s' (c.mutation sha256 runId) := by
  cases c with
  | create => cases hc
  | reserve =>
    simp only [Call.mutation, reserve, bind_eq_ok, valid_eq_ok] at h
    obtain ⟨_, _, _, _, _, _, _, _, _, _, _, _, _, _, _, _, happend⟩ := h
    exact ⟨_, _, happend⟩
  | start =>
    simp only [Call.mutation, start, bind_eq_ok] at h
    obtain ⟨_, _, h⟩ := h
    split at h
    · exact absurd h raise_ne_ok
    · simp only [bind_eq_ok, valid_eq_ok] at h
      obtain ⟨_, _, _, _, _, _, happend⟩ := h
      exact ⟨_, _, happend⟩
  | settle a =>
    simp only [Call.mutation, settle] at h
    split at h
    · exact absurd h raise_ne_ok
    · simp only [bind_eq_ok, valid_eq_ok] at h
      obtain ⟨_, _, _, _, _, _, _, _, _, _, _, _, _, _, _, _, happend⟩ := h
      exact ⟨_, _, happend⟩
  | releaseNoEffect =>
    simp only [Call.mutation, releaseNoEffect, bind_eq_ok] at h
    obtain ⟨_, _, h⟩ := h
    split at h
    · exact absurd h raise_ne_ok
    · simp only [bind_eq_ok, valid_eq_ok] at h
      obtain ⟨_, _, _, _, _, _, happend⟩ := h
      exact ⟨_, _, happend⟩
  | requestCancellation =>
    simp only [Call.mutation, requestCancellation, bind_eq_ok, valid_eq_ok] at h
    obtain ⟨_, _, _, _, _, _, _, _, happend⟩ := h
    exact ⟨_, _, happend⟩
  | recordCancellation =>
    simp only [Call.mutation, recordCancellation, bind_eq_ok] at h
    obtain ⟨_, _, h⟩ := h
    split at h
    · exact absurd h raise_ne_ok
    · simp only [bind_eq_ok, valid_eq_ok] at h
      obtain ⟨_, _, _, _, _, _, _, _, _, _, happend⟩ := h
      exact ⟨_, _, happend⟩
  | tightenPolicy =>
    simp only [Call.mutation, tightenPolicy, bind_eq_ok, valid_eq_ok] at h
    obtain ⟨_, _, _, _, _, _, happend⟩ := h
    exact ⟨_, _, happend⟩

/-- What the last operation of a state says about the call that appended it. -/
structure Grown (sha256 : Payload → String) (state s' : DurableBudgetStateV1) (m : Mutation) :
    Prop where
  valid : s'.validateSnapshot sha256 = .ok ()
  generation : s'.generation = state.generation + 1
  previous : s'.previousStateSha256 = some (sha256 (.state state))
  logs : Logs state s' m
  identifier : isIdentifier m.operationId = true

theorem Appends.grown (h : Appends sha256 state s' m) : Grown sha256 state s' m := by
  obtain ⟨updated, payload, h⟩ := h
  unfold appendOperation at h
  simp only [bind_eq_ok, validated_eq_ok] at h
  obtain ⟨_, hoperation, _, _, hv, rfl⟩ := h
  simp only [IdempotencyRecordV1.check, check_bind_eq_ok, require_eq_ok] at hoperation
  exact ⟨hv, rfl, rfl, ⟨_, rfl, rfl, rfl, rfl⟩, hoperation.1⟩

theorem successor_grown_of {c : Call} (hc : c.isCreate = false)
    (h : (c.mutation sha256 runId).successor state elapsed = .ok s') :
    Grown sha256 state s' (c.mutation sha256 runId) :=
  (successor_appends hc h).grown

/-- The first state holds the operation of the creation alone. -/
theorem initialState_logs {policy : DurableBudgetPolicyV1} {operationId requestSha256 : String}
    (h : initialState sha256 runId policy operationId requestSha256 = .ok s') :
    s'.validateSnapshot sha256 = .ok () ∧ s'.generation = 1 ∧ isIdentifier operationId = true ∧
      ∃ record : IdempotencyRecordV1, s'.operations = [record] ∧ record.operationId = operationId ∧
        record.kind = .initializeRun ∧ record.requestSha256 = requestSha256 := by
  unfold initialState at h
  simp only [bind_eq_ok, valid_eq_ok, validated_eq_ok] at h
  obtain ⟨_, hoperation, _, _, hv, rfl⟩ := h
  simp only [IdempotencyRecordV1.check, check_bind_eq_ok, require_eq_ok] at hoperation
  exact ⟨hv, rfl, hoperation.1, _, rfl, rfl, rfl, rfl⟩

/-! ## The committed revisions -/

/-- Each commit is the first state of the run or a successor of the one before,
and carries its generation as revision. -/
inductive Linear (sha256 : Payload → String) (runId : String) : List Commit → Prop where
  | nil : Linear sha256 runId []
  | first {c policy operationId requestSha256}
    (initial : initialState sha256 runId policy operationId requestSha256 = .ok c.state)
    (revision : c.request.proposedRevision = c.state.generation) : Linear sha256 runId [c]
  | next {c older rest m} (linear : Linear sha256 runId (older :: rest))
    (grown : Grown sha256 older.state c.state m)
    (revision : c.request.proposedRevision = c.state.generation) :
    Linear sha256 runId (c :: older :: rest)

theorem Linear.revision (h : Linear sha256 runId chain) :
    ∀ c ∈ chain, c.request.proposedRevision = c.state.generation := by
  induction h with
  | nil => simp
  | first _ revision => simpa using revision
  | next _ _ revision ih => exact List.forall_mem_cons.2 ⟨revision, ih⟩

/-- Generations strictly decrease from the current revision down. -/
theorem Linear.decreasing (h : Linear sha256 runId chain) :
    chain.Pairwise fun newer older => older.state.generation < newer.state.generation := by
  induction h with
  | nil => exact .nil
  | first => exact List.pairwise_singleton _ _
  | @next c older rest m linear grown _ ih =>
    refine List.pairwise_cons.2 ⟨fun d hd => ?_, ih⟩
    rw [grown.generation]
    rcases List.mem_cons.1 hd with rfl | hd
    · exact Nat.lt_succ_self _
    · exact Nat.lt_succ_of_lt ((List.pairwise_cons.1 ih).1 d hd)

/-- A commit with the current generation is the current one. -/
theorem Linear.eq_head {current c : Commit} {rest : List Commit}
    (h : Linear sha256 runId (current :: rest)) (hc : c ∈ current :: rest)
    (hgen : c.state.generation = current.state.generation) : c = current := by
  rcases List.mem_cons.1 hc with rfl | hc
  · rfl
  · have hlt := (List.pairwise_cons.1 h.decreasing).1 c hc
    omega

/-- The states of a run, newest first: each appends one operation to the one
before and names it, and no operation occurs twice. -/
inductive OneChain (sha256 : Payload → String) : List DurableBudgetStateV1 → Prop where
  | nil : OneChain sha256 []
  | first {s record} (generation : s.generation = 1) (operations : s.operations = [record]) :
    OneChain sha256 [s]
  | next {older newer rest record} (chain : OneChain sha256 (older :: rest))
    (generation : newer.generation = older.generation + 1)
    (previous : newer.previousStateSha256 = some (sha256 (.state older)))
    (operations : newer.operations = older.operations ++ [record])
    (once : (newer.operations.map (·.operationId)).Nodup) :
    OneChain sha256 (newer :: older :: rest)

theorem nodup_operations {s : DurableBudgetStateV1} (h : s.validateSnapshot sha256 = .ok ()) :
    (s.operations.map (·.operationId)).Nodup := by
  unfold DurableBudgetStateV1.validateSnapshot DurableBudgetStateV1.checkIdentities at h
  simp only [check_bind_eq_ok, require_eq_ok] at h
  tauto

theorem Linear.oneChain (h : Linear sha256 runId chain) :
    OneChain sha256 (chain.map Commit.state) := by
  induction h with
  | nil => exact .nil
  | first initial =>
    obtain ⟨-, hgen, -, record, hops, -⟩ := initialState_logs initial
    exact .first hgen hops
  | next _ grown _ ih =>
    obtain ⟨record, hops, -⟩ := grown.logs
    exact .next ih grown.generation grown.previous hops (nodup_operations grown.valid)

/-- Loading answers the current state. -/
theorem load_chain {fault : Option RunStorageFailureCode}
    (h : load sha256 runId (chain.map Commit.revision) fault = .ok state) :
    ∃ current rest, chain = current :: rest ∧ current.state = state := by
  obtain ⟨-, -, rest, hcurrent⟩ := load_ok h
  obtain ⟨current, tail, rfl, hrevision, -⟩ := List.map_eq_cons_iff.1 hcurrent
  exact ⟨current, tail, rfl, congrArg Revision.state hrevision⟩

/-! ## A call between its steps -/

/-- The call an instance is making. -/
def Phase.flight : Phase → Option Flight
  | .idle => none
  | .probing f | .loading f _ | .reading f .. | .publishing f .. | .reloading f _ => some f

/-- What a call has computed is right about the committed revisions: a successor
is that of a committed state, and what `read_current` answered has its
generation. -/
inductive Underway (sha256 : Payload → String) (runId : String) (chain : List Commit) :
    Phase → Prop where
  | idle : Underway sha256 runId chain .idle
  | probing {f} (create : f.call.isCreate = true) : Underway sha256 runId chain (.probing f)
  | loading {f elapsed} : Underway sha256 runId chain (.loading f elapsed)
  | reading {f successor c} (loaded : c ∈ chain)
    (grown : Grown sha256 c.state successor (f.mutation sha256 runId)) :
    Underway sha256 runId chain (.reading f c.state successor)
  | creating {f policy operationId s} (call : f.call = .create policy operationId)
    (initial : initialState sha256 runId policy operationId (f.mutation sha256 runId).requestSha256 =
      .ok s) : Underway sha256 runId chain (.publishing f none s)
  | publishing {f successor c current} (loaded : c ∈ chain)
    (grown : Grown sha256 c.state successor (f.mutation sha256 runId))
    (revision : current.currentRevision = c.state.generation) :
    Underway sha256 runId chain (.publishing f (some current) successor)
  | reloading {f outcome} : Underway sha256 runId chain (.reloading f outcome)

theorem Underway.mono {phase : Phase} {chain' : List Commit} (h : Underway sha256 runId chain phase)
    (hsub : ∀ c ∈ chain, c ∈ chain') : Underway sha256 runId chain' phase := by
  cases h with
  | idle => exact .idle
  | probing create => exact .probing create
  | loading => exact .loading
  | reading loaded grown => exact .reading (hsub _ loaded) grown
  | creating call initial => exact .creating call initial
  | publishing loaded grown revision => exact .publishing (hsub _ loaded) grown revision
  | reloading => exact .reloading

/-- An answer given without a commit. -/
inductive Uncommitted (sha256 : Payload → String) (runId : String) (chain : List Commit)
    (f : Flight) : Answer → Prop where
  | replayed {r} (status : r.status = .exactReplay) (held : r.state ∈ chain.map Commit.state)
    (recorded : Recorded r.state (f.mutation sha256 runId)) : Uncommitted sha256 runId chain f (.ok r)
  | refused {e} : Uncommitted sha256 runId chain f (.error e)

/-- The failures after which the operation may have been appended. -/
def DurableBudgetFailureV1.uncertain (failure : DurableBudgetFailureV1) : Prop :=
  failure.code = .durabilityUncertain ∨ failure.code = .reconciliationRequired

/-- The publish fails after it has replaced the current pointer. -/
def PublishConditions.lands (conditions : PublishConditions) : Prop :=
  ∃ fault ∈ conditions.torn, fault.landed = true ∧ fault.code.mayLand = true

/-- An answer given after a commit, by the access `a`. -/
inductive CommittedAnswer (a : Access) (c : Commit) : Answer → Prop where
  | applied {r} (status : r.status = .applied) (state : r.state = c.state) :
    CommittedAnswer a c (.ok r)
  | uncertain {failure conditions} (code : failure.uncertain) (access : a = .publish conditions)
    (lands : conditions.lands) : CommittedAnswer a c (.error (.budget failure))

/-- The commit appends the operation of `m` to the commits before it. -/
def AppendsOwn (older : List Commit) (c : Commit) (m : Mutation) : Prop :=
  ∃ record : IdempotencyRecordV1,
    c.state.operations = (older.head?.map (·.state.operations)).getD [] ++ [record] ∧
      record.operationId = m.operationId ∧ record.kind = m.kind ∧
      record.requestSha256 = m.requestSha256

/-- What one access does. -/
inductive Moved (sha256 : Payload → String) (runId : String) (inst : Instance)
    (chain : List Commit) (a : Access) : Stepped → Prop where
  /-- the call goes on -/
  | goesOn {after} (same : after.phase.flight = inst.phase.flight)
    (underway : Underway sha256 runId chain after.phase) :
    Moved sha256 runId inst chain a { instance_ := after, chain }
  /-- the call returns and has committed nothing -/
  | returns {clock f answer} (own : inst.phase.flight = some f)
    (answered : Uncommitted sha256 runId chain f answer) :
    Moved sha256 runId inst chain a (Instance.answered chain clock f answer)
  /-- the call commits and returns -/
  | commits {clock f request answer} (own : inst.phase.flight = some f)
    (linear : Linear sha256 runId (⟨request, f.id⟩ :: chain))
    (appends : AppendsOwn chain ⟨request, f.id⟩ (f.mutation sha256 runId))
    (answered : CommittedAnswer a ⟨request, f.id⟩ answer) :
    Moved sha256 runId inst chain a
      (Instance.answered (⟨request, f.id⟩ :: chain) clock f answer)

/-! ## What each access does -/

variable {inst : Instance} {f : Flight} {a : Access}

theorem existing_uncommitted {current : Commit} (hc : current ∈ chain)
    {replay : DurableMutationResultV1}
    (h : existingOperation current.state (f.mutation sha256 runId) = .ok (some replay)) :
    replay.status = .exactReplay ∧ replay.state ∈ chain.map Commit.state ∧
      Recorded replay.state (f.mutation sha256 runId) := by
  obtain ⟨hrecorded, hstatus, hstate⟩ := existingOperation_recorded h
  rw [hstate]
  exact ⟨hstatus, List.mem_map_of_mem hc, hrecorded⟩

theorem raise_eq_error (failure : DurableBudgetFailureV1) :
    ∃ e, (raise failure : Answer) = .error e := by
  unfold raise
  split
  · exact ⟨_, rfl⟩
  · exact ⟨_, rfl⟩

theorem raise_uncommitted (failure : DurableBudgetFailureV1) :
    Uncommitted sha256 runId chain f (raise failure) := by
  obtain ⟨e, he⟩ := raise_eq_error failure
  rw [he]
  exact .refused

theorem probe_moved {found : Bool} (hphase : inst.phase = .probing f)
    (hcreate : f.call.isCreate = true) :
    Moved sha256 runId inst chain a (Instance.probe sha256 runId inst chain f found) := by
  have hown : inst.phase.flight = some f := by rw [hphase]; rfl
  unfold Instance.probe
  split
  · exact .goesOn hown.symm .loading
  · split
    · next policy operationId hcall =>
      split
      · exact .returns hown .refused
      · next state hinitial => exact .goesOn hown.symm (.creating hcall hinitial)
    · next hno =>
      cases hcall : f.call with
      | create policy operationId => exact absurd hcall (hno policy operationId)
      | _ => simp [hcall, Call.isCreate] at hcreate

theorem loadFirst_moved {fault : Option RunStorageFailureCode}
    (hphase : inst.phase = .loading f elapsed) :
    Moved sha256 runId inst chain a (Instance.loadFirst sha256 runId inst chain f elapsed fault) := by
  have hown : inst.phase.flight = some f := by rw [hphase]; rfl
  unfold Instance.loadFirst
  simp only
  split
  · exact .returns hown .refused
  · next state hload =>
    obtain ⟨current, rest, rfl, rfl⟩ := load_chain hload
    split
    · exact .returns hown .refused
    · next replay hexisting =>
      obtain ⟨_, _, hreplay⟩ := bind_eq_ok.1 hexisting
      obtain ⟨hstatus, hheld, hrecorded⟩ :=
        existing_uncommitted (List.mem_cons_self (l := rest)) hreplay
      exact .returns hown (.replayed hstatus hheld hrecorded)
    · split
      · exact .returns hown (raise_uncommitted _)
      · next hmutation =>
        split
        · exact .returns hown .refused
        · next successor hsuccessor =>
          refine .goesOn hown.symm (.reading List.mem_cons_self ?_)
          exact successor_grown_of (by simpa using hmutation) hsuccessor

theorem readBack_moved {previous : Commit} {successor : DurableBudgetStateV1}
    {fault : Option RunStorageFailureCode} (hphase : inst.phase = .reading f previous.state successor)
    (hloaded : previous ∈ chain)
    (hgrown : Grown sha256 previous.state successor (f.mutation sha256 runId)) :
    Moved sha256 runId inst chain a
      (Instance.readBack sha256 digests runId inst chain f previous.state successor fault) := by
  have hown : inst.phase.flight = some f := by rw [hphase]; rfl
  unfold Instance.readBack mappedFailure
  split
  · exact .returns hown (raise_uncommitted _)
  · split
    · next hrevision => exact .goesOn hown.symm (.publishing hloaded hgrown hrevision)
    · exact .goesOn hown.symm .reloading

theorem loadAgain_moved {outcome : Option String} {fault : Option RunStorageFailureCode}
    (hphase : inst.phase = .reloading f outcome) :
    Moved sha256 runId inst chain a (Instance.loadAgain sha256 runId inst chain f outcome fault) := by
  have hown : inst.phase.flight = some f := by rw [hphase]; rfl
  unfold Instance.loadAgain
  simp only
  split
  · exact .returns hown .refused
  · next state hload =>
    obtain ⟨current, rest, rfl, rfl⟩ := load_chain hload
    split
    · exact .returns hown .refused
    · next replay hexisting =>
      obtain ⟨hstatus, hheld, hrecorded⟩ :=
        existing_uncommitted (List.mem_cons_self (l := rest)) hexisting
      exact .returns hown (.replayed hstatus hheld hrecorded)
    · exact .returns hown (raise_uncommitted _)

/-- The outcomes of `revisions.publish`: nothing committed, or the request
committed after a successful comparison. -/
theorem publishRequest_cases (digests : RevisionDigests) (chain : List Commit) (author : Nat)
    (request : RevisionPublishRequestV1) (conditions : PublishConditions) :
    (∃ code, publishRequest digests chain author request conditions = (chain, .error code)) ∨
    (∃ kind, kind ≠ "published" ∧
      publishRequest digests chain author request conditions = (chain, .ok kind)) ∨
    casMatches digests chain request ∧
      (publishRequest digests chain author request conditions =
          (⟨request, author⟩ :: chain, .ok "published") ∨
        ∃ code : RunStorageFailureCode, conditions.lands ∧ code.mayLand = true ∧
          publishRequest digests chain author request conditions =
            (⟨request, author⟩ :: chain, .error code)) := by
  unfold publishRequest
  split
  · exact .inl ⟨_, rfl⟩
  · split
    · exact .inl ⟨_, rfl⟩
    · next kind hkind =>
      refine .inr (.inl ⟨kind, ?_, rfl⟩)
      unfold idempotencyOutcome at hkind
      split at hkind
      · cases hkind
      · split at hkind
        · cases hkind
        · split at hkind
          · cases hkind
            decide
          · cases hkind
            decide
    · split
      · exact .inr (.inl ⟨_, by decide, rfl⟩)
      · split
        · next hcas =>
          split
          · next code landed htorn =>
            by_cases hlanded : (landed && code.mayLand) = true
            · have hlands : landed = true ∧ code.mayLand = true := Bool.and_eq_true_iff.1 hlanded
              refine .inr (.inr ⟨hcas, .inr ⟨code, ⟨_, htorn, hlands⟩, hlands.2, ?_⟩⟩)
              rw [if_pos hlanded]
            · refine .inl ⟨code, ?_⟩
              rw [if_neg hlanded]
          · exact .inr (.inr ⟨hcas, .inl rfl⟩)
        · exact .inl ⟨_, rfl⟩

/-- A failure that can follow a commit is reported as one. -/
theorem mappedFailure_uncertain {code : RunStorageFailureCode} {operationId : String}
    (hcode : code.mayLand = true) (hid : isIdentifier operationId = true) :
    ∃ failure : DurableBudgetFailureV1, failure.uncertain ∧
      mappedFailure code operationId = .error (.budget failure) := by
  have hoptional : optionalIdentifier (some operationId) := fun v hv => Option.some.inj hv ▸ hid
  have hnone : optionalSha256 none := fun v hv => by cases hv
  have hcheck : (storageFailure code operationId).check = .ok () := by
    unfold storageFailure
    split_ifs <;> simp only [DurableBudgetFailureV1.check, check_bind_eq_ok, require_eq_ok] <;>
      exact ⟨hoptional, hnone, by simp, by simp⟩
  refine ⟨storageFailure code operationId, ?_, by simp [mappedFailure, raise, hcheck]⟩
  revert hcode
  cases code <;> simp [RunStorageFailureCode.mayLand, storageFailure,
    RunStorageFailureCode.uncertain, DurableBudgetFailureV1.uncertain]

/-- The comparison succeeds only on the revision the successor was built on. -/
theorem publishing_extends {expected : Option VerifiedStorageRevisionV1}
    {successor : DurableBudgetStateV1} {createdAt : Nat} (hlinear : Linear sha256 runId chain)
    (hunderway : Underway sha256 runId chain (.publishing f expected successor))
    (hcas : casMatches digests chain
      (publishRequestOf sha256 digests runId f expected successor createdAt)) :
    let c : Commit := ⟨publishRequestOf sha256 digests runId f expected successor createdAt, f.id⟩
    Linear sha256 runId (c :: chain) ∧ AppendsOwn chain c (f.mutation sha256 runId) ∧
      isIdentifier (f.mutation sha256 runId).operationId = true := by
  unfold casMatches at hcas
  cases hunderway with
  | creating hcall hinitial =>
    cases chain with
    | cons current rest => cases hcas.1
    | nil =>
      obtain ⟨-, -, hid, record, hops, hopid, hkind, hrequest⟩ := initialState_logs hinitial
      refine ⟨.first hinitial rfl, ⟨record, hops, ?_, ?_, hrequest⟩, ?_⟩
      all_goals simp only [Flight.mutation, hcall, Call.mutation, initialization]
      · exact hopid
      · exact hkind
      · exact hid
  | @publishing _ _ c current hloaded hgrown hrevision =>
    cases chain with
    | nil => cases hcas.1
    | cons head rest =>
      have hexpected : current.currentRevision = head.request.proposedRevision :=
        Option.some.inj hcas.1
      have hhead := hlinear.revision head List.mem_cons_self
      obtain rfl : c = head :=
        hlinear.eq_head hloaded (by rw [← hrevision, hexpected, hhead])
      obtain ⟨record, hops, hown⟩ := hgrown.logs
      exact ⟨.next hlinear hgrown rfl, ⟨record, hops, hown⟩, hgrown.identifier⟩

theorem publishNow_moved {expected : Option VerifiedStorageRevisionV1}
    {successor : DurableBudgetStateV1} {conditions : PublishConditions}
    (hlinear : Linear sha256 runId chain)
    (hphase : inst.phase = .publishing f expected successor)
    (hunderway : Underway sha256 runId chain (.publishing f expected successor)) :
    Moved sha256 runId inst chain (.publish conditions)
      (Instance.publishNow sha256 digests runId inst chain f expected successor conditions) := by
  have hown : inst.phase.flight = some f := by rw [hphase]; rfl
  unfold Instance.publishNow
  simp only
  rcases publishRequest_cases digests chain f.id
      (publishRequestOf sha256 digests runId f expected successor conditions.createdAt) conditions with
    ⟨code, hout⟩ | ⟨kind, hkind, hout⟩ | ⟨hcas, hout | ⟨code, hlands, hmay, hout⟩⟩
  · rw [hout]
    exact .returns hown (raise_uncommitted _)
  · rw [hout]
    simp only [hkind, ne_eq, not_false_eq_true, if_true]
    exact .goesOn hown.symm .reloading
  · obtain ⟨hnext, happends, -⟩ := publishing_extends hlinear hunderway hcas
    rw [hout]
    exact .commits hown hnext happends (.applied rfl rfl)
  · obtain ⟨hnext, happends, hid⟩ := publishing_extends hlinear hunderway hcas
    obtain ⟨failure, huncertain, hfailure⟩ := mappedFailure_uncertain hmay hid
    rw [hout]
    simp only [hfailure]
    exact .commits hown hnext happends (.uncertain huncertain rfl hlands)

/-- What any access of an instance does. -/
theorem step_moved (digests : RevisionDigests) (hlinear : Linear sha256 runId chain)
    (hunderway : Underway sha256 runId chain inst.phase) (a : Access) :
    Moved sha256 runId inst chain a (inst.step sha256 digests runId chain a) := by
  unfold Instance.step
  split
  · next f found hphase =>
    rw [hphase] at hunderway
    cases hunderway with
    | probing hcreate => exact probe_moved hphase hcreate
  · next hphase => exact loadFirst_moved hphase
  · next hphase =>
    rw [hphase] at hunderway
    cases hunderway with
    | reading hloaded hgrown => exact readBack_moved hphase hloaded hgrown
  · next hphase =>
    rw [hphase] at hunderway
    exact publishNow_moved hlinear hphase hunderway
  · next hphase => exact loadAgain_moved hphase
  · exact .goesOn rfl hunderway

/-! ## Answers -/

/-- The call `f` has made the commit `c` and no other, and it appends its own
operation. -/
structure Authored (sha256 : Payload → String) (runId : String) (chain : List Commit) (f : Flight)
    (c : Commit) : Prop where
  author : c.author = f.id
  once : ∃ newer older, chain = newer ++ c :: older ∧ (∀ d ∈ newer ++ older, d.author ≠ f.id) ∧
    AppendsOwn older c (f.mutation sha256 runId)

/-- What the answer of a call says about the committed revisions. -/
inductive Answered (sha256 : Payload → String) (runId : String) (events : List Event)
    (chain : List Commit) (f : Flight) : Answer → Prop where
  /-- the call has committed the state it returns, and nothing else -/
  | applied {c r} (authored : Authored sha256 runId chain f c) (status : r.status = .applied)
    (state : r.state = c.state) : Answered sha256 runId events chain f (.ok r)
  /-- the call has committed nothing; a committed state holds its operation -/
  | replayed {r} (nothing : ∀ c ∈ chain, c.author ≠ f.id) (status : r.status = .exactReplay)
    (held : r.state ∈ chain.map Commit.state)
    (recorded : Recorded r.state (f.mutation sha256 runId)) :
    Answered sha256 runId events chain f (.ok r)
  /-- the call has committed nothing -/
  | refused {e} (nothing : ∀ c ∈ chain, c.author ≠ f.id) :
    Answered sha256 runId events chain f (.error e)
  /-- a publish failed after it had replaced the pointer, and the failure says that
  the effect is not known -/
  | uncertain {c i conditions} {failure : DurableBudgetFailureV1}
    (authored : Authored sha256 runId chain f c) (code : failure.uncertain)
    (event : .access i (.publish conditions) ∈ events) (lands : conditions.lands) :
    Answered sha256 runId events chain f (.error (.budget failure))

variable {events : List Event}

theorem Uncommitted.answered {answer : Answer} (h : Uncommitted sha256 runId chain f answer)
    (hnothing : ∀ c ∈ chain, c.author ≠ f.id) : Answered sha256 runId events chain f answer := by
  cases h with
  | replayed status held recorded => exact .replayed hnothing status held recorded
  | refused => exact .refused hnothing

theorem Authored.cons {c d : Commit} (h : Authored sha256 runId chain f c) (hauthor : d.author ≠ f.id) :
    Authored sha256 runId (d :: chain) f c := by
  obtain ⟨author, newer, older, rfl, alone, appends⟩ := h
  exact ⟨author, d :: newer, older, rfl, List.forall_mem_cons.2 ⟨hauthor, alone⟩, appends⟩

/-- An answer stays right when another call commits. -/
theorem Answered.cons {answer : Answer} (h : Answered sha256 runId events chain f answer) {c : Commit}
    (hauthor : c.author ≠ f.id) : Answered sha256 runId events (c :: chain) f answer := by
  cases h with
  | applied authored status state => exact .applied (authored.cons hauthor) status state
  | replayed nothing status held recorded =>
    exact .replayed (List.forall_mem_cons.2 ⟨hauthor, nothing⟩) status
      (List.mem_cons_of_mem _ held) recorded
  | refused nothing => exact .refused (List.forall_mem_cons.2 ⟨hauthor, nothing⟩)
  | uncertain authored code event lands => exact .uncertain (authored.cons hauthor) code event lands

theorem Answered.later {answer : Answer} (h : Answered sha256 runId events chain f answer) (e : Event) :
    Answered sha256 runId (events ++ [e]) chain f answer := by
  cases h with
  | applied authored status state => exact .applied authored status state
  | replayed nothing status held recorded => exact .replayed nothing status held recorded
  | refused nothing => exact .refused nothing
  | uncertain authored code event lands =>
    exact .uncertain authored code (List.mem_append_left _ event) lands

/-! ## Schedules -/

/-- The invariant of a schedule: every call is right about the committed
revisions, and calls have numbers of their own. -/
structure Orderly (sha256 : Payload → String) (runId : String) (events : List Event) (sys : System) :
    Prop where
  linear : Linear sha256 runId sys.chain
  underway : ∀ i, Underway sha256 runId sys.chain (sys.instances i).phase
  numbered : ∀ i f, (sys.instances i).phase.flight = some f → f.id < sys.calls
  pending : ∀ i f, (sys.instances i).phase.flight = some f → ∀ c ∈ sys.chain, c.author ≠ f.id
  apart : ∀ i j f g, (sys.instances i).phase.flight = some f →
    (sys.instances j).phase.flight = some g → f.id = g.id → i = j
  authors : ∀ c ∈ sys.chain, c.author < sys.calls
  answered : ∀ r ∈ sys.returned, Answered sha256 runId events sys.chain r.flight r.answer
  returned : ∀ r ∈ sys.returned, r.flight.id < sys.calls
  finished : ∀ r ∈ sys.returned, ∀ i f, (sys.instances i).phase.flight = some f → f.id ≠ r.flight.id

theorem orderly_empty : Orderly sha256 runId [] {} where
  linear := .nil
  underway _ := .idle
  numbered _ _ h := by cases h
  pending _ _ h := by cases h
  apart _ _ _ _ h := by cases h
  authors := by simp
  answered := by simp
  returned := by simp
  finished := by simp

variable {sys : System}

/-- A step of instance `i` starts no call. -/
theorem flight_of_update {i j : Nat} {after : Instance}
    (hkept : ∀ f, after.phase.flight = some f → (sys.instances i).phase.flight = some f)
    (h : (Function.update sys.instances i after j).phase.flight = some f) :
    (sys.instances j).phase.flight = some f := by
  by_cases hij : j = i
  · subst hij
    rw [Function.update_self] at h
    exact hkept f h
  · rwa [Function.update_of_ne hij] at h

theorem underway_update {i : Nat} {after : Instance} {chain' : List Commit}
    (h : Orderly sha256 runId events sys) (hsub : ∀ c ∈ sys.chain, c ∈ chain')
    (hafter : Underway sha256 runId chain' after.phase) (j : Nat) :
    Underway sha256 runId chain' (Function.update sys.instances i after j).phase := by
  by_cases hij : j = i
  · subst hij
    rwa [Function.update_self]
  · rw [Function.update_of_ne hij]
    exact (h.underway j).mono hsub

/-- Once its call has returned, an instance has none under way. -/
theorem Orderly.finished_of_idle (h : Orderly sha256 runId events sys) {i j : Nat} {g : Flight}
    {clock : ClockTable} (hown : (sys.instances i).phase.flight = some f)
    (hg : (Function.update sys.instances i { clock, phase := .idle } j).phase.flight = some g) :
    g.id ≠ f.id := by
  intro hid
  by_cases hij : j = i
  · subst hij
    rw [Function.update_self] at hg
    cases hg
  · rw [Function.update_of_ne hij] at hg
    exact hij (h.apart j i g f hg hown hid)

theorem Orderly.later (h : Orderly sha256 runId events sys) (e : Event) :
    Orderly sha256 runId (events ++ [e]) sys :=
  { h with answered := fun r hr => (h.answered r hr).later e }

theorem Orderly.access (h : Orderly sha256 runId events sys) (i : Nat) (a : Access) :
    Orderly sha256 runId (events ++ [.access i a]) (sys.access sha256 digests runId i a) := by
  have hevent : Event.access i a ∈ events ++ [.access i a] := by simp
  replace h := h.later (.access i a)
  generalize events ++ [.access i a] = events at h hevent ⊢
  have hmoved := step_moved digests h.linear (h.underway i) a
  unfold System.access
  simp only
  generalize (sys.instances i).step sha256 digests runId sys.chain a = out at hmoved
  cases hmoved with
  | @goesOn after same underway =>
    have hkept : ∀ {j f}, (Function.update sys.instances i after j).phase.flight = some f →
        (sys.instances j).phase.flight = some f :=
      flight_of_update fun f hf => same ▸ hf
    exact
      { h with
        underway := underway_update h (fun c hc => hc) underway
        numbered := fun j f hf => h.numbered j f (hkept hf)
        pending := fun j f hf => h.pending j f (hkept hf)
        apart := fun j k f g hf hg => h.apart j k f g (hkept hf) (hkept hg)
        finished := fun r hr j f hf => h.finished r hr j f (hkept hf) }
  | @returns clock f answer own answered =>
    have hkept : ∀ {j f}, (Function.update sys.instances i { clock, phase := .idle } j).phase.flight =
        some f → (sys.instances j).phase.flight = some f :=
      flight_of_update fun f hf => by cases hf
    exact
      { linear := h.linear
        underway := underway_update h (fun c hc => hc) .idle
        numbered := fun j f hf => h.numbered j f (hkept hf)
        pending := fun j f hf => h.pending j f (hkept hf)
        apart := fun j k f g hf hg => h.apart j k f g (hkept hf) (hkept hg)
        authors := h.authors
        answered := List.forall_mem_cons.2 ⟨answered.answered (h.pending i f own), h.answered⟩
        returned := List.forall_mem_cons.2 ⟨h.numbered i f own, h.returned⟩
        finished := List.forall_mem_cons.2
          ⟨fun j g hg => h.finished_of_idle own hg, fun r hr j f hf => h.finished r hr j f (hkept hf)⟩ }
  | @commits clock f request answer own linear appends answered =>
    have hkept : ∀ {j f}, (Function.update sys.instances i { clock, phase := .idle } j).phase.flight =
        some f → (sys.instances j).phase.flight = some f :=
      flight_of_update fun f hf => by cases hf
    have hauthored : Authored sha256 runId (⟨request, f.id⟩ :: sys.chain) f ⟨request, f.id⟩ :=
      ⟨rfl, [], sys.chain, rfl, h.pending i f own, appends⟩
    have hown : Answered sha256 runId events (⟨request, f.id⟩ :: sys.chain) f answer := by
      cases answered with
      | applied status state => exact .applied hauthored status state
      | uncertain code access lands => exact .uncertain hauthored code (access ▸ hevent) lands
    exact
      { linear
        underway := underway_update h (fun c hc => List.mem_cons_of_mem _ hc) .idle
        numbered := fun j f hf => h.numbered j f (hkept hf)
        pending := fun j g hg => List.forall_mem_cons.2
          ⟨(h.finished_of_idle own hg).symm, h.pending j g (hkept hg)⟩
        apart := fun j k f g hf hg => h.apart j k f g (hkept hf) (hkept hg)
        authors := List.forall_mem_cons.2 ⟨h.numbered i f own, h.authors⟩
        answered := List.forall_mem_cons.2
          ⟨hown, fun r hr => (h.answered r hr).cons (h.finished r hr i f own)⟩
        returned := List.forall_mem_cons.2 ⟨h.numbered i f own, h.returned⟩
        finished := List.forall_mem_cons.2
          ⟨fun j g hg => h.finished_of_idle own hg, fun r hr j f hf => h.finished r hr j f (hkept hf)⟩ }

/-- A call that starts under the next number. -/
theorem Orderly.started (h : Orderly sha256 runId events sys) {i : Nat} {after : Instance}
    (hnumber : f.id = sys.calls) (hflight : after.phase.flight = some f)
    (hunderway : Underway sha256 runId sys.chain after.phase) :
    Orderly sha256 runId events { sys.setInstance i after with calls := sys.calls + 1 } := by
  have hcases : ∀ {j g}, (Function.update sys.instances i after j).phase.flight = some g →
      (j = i ∧ g = f) ∨ (sys.instances j).phase.flight = some g := by
    intro j g hg
    by_cases hij : j = i
    · subst hij
      rw [Function.update_self, hflight] at hg
      exact .inl ⟨rfl, (Option.some.inj hg).symm⟩
    · rw [Function.update_of_ne hij] at hg
      exact .inr hg
  refine
    { linear := h.linear
      underway := underway_update h (fun c hc => hc) hunderway
      numbered := fun j g hg => ?_
      pending := fun j g hg c hc => ?_
      apart := fun j k g g' hg hg' hid => ?_
      authors := fun c hc => Nat.lt_succ_of_lt (h.authors c hc)
      answered := h.answered
      returned := fun r hr => Nat.lt_succ_of_lt (h.returned r hr)
      finished := fun r hr j g hg => ?_ }
  · rcases hcases hg with ⟨-, rfl⟩ | hg
    · exact hnumber ▸ Nat.lt_succ_self _
    · exact Nat.lt_succ_of_lt (h.numbered j g hg)
  · rcases hcases hg with ⟨-, rfl⟩ | hg
    · exact hnumber ▸ (h.authors c hc).ne
    · exact h.pending j g hg c hc
  · rcases hcases hg with ⟨hj, rfl⟩ | hold <;> rcases hcases hg' with ⟨hk, rfl⟩ | hold'
    · rw [hj, hk]
    · have := h.numbered k g' hold'
      omega
    · have := h.numbered j g hold
      omega
    · exact h.apart j k g g' hold hold' hid
  · rcases hcases hg with ⟨-, rfl⟩ | hg
    · exact hnumber ▸ (h.returned r hr).ne'
    · exact h.finished r hr j g hg

theorem Orderly.enter (h : Orderly sha256 runId events sys) (i : Nat) (c : Call) (reading : Option Int) :
    Orderly sha256 runId events (sys.enter sha256 runId i c reading) := by
  unfold System.enter
  simp only
  split
  · next hidle =>
    split
    · -- the clock refused: the call returns at once, under a number of its own
      exact
        { h with
          numbered := fun j f hf => Nat.lt_succ_of_lt (h.numbered j f hf)
          authors := fun d hd => Nat.lt_succ_of_lt (h.authors d hd)
          answered := List.forall_mem_cons.2
            ⟨.refused fun d hd => (h.authors d hd).ne, h.answered⟩
          returned := List.forall_mem_cons.2
            ⟨Nat.lt_succ_self _, fun r hr => Nat.lt_succ_of_lt (h.returned r hr)⟩
          finished := List.forall_mem_cons.2
            ⟨fun j f hf => (h.numbered j f hf).ne, h.finished⟩ }
    · next observed elapsed clock _ =>
      have hnumber : (⟨sys.calls, c, observed⟩ : Flight).id = sys.calls := rfl
      refine h.started hnumber ?_ ?_
      · split <;> rfl
      · split
        · next hcreate => exact .probing hcreate
        · exact .loading
  · exact h

theorem Orderly.rebase (h : Orderly sha256 runId events sys) (i : Nat) :
    Orderly sha256 runId events (sys.step sha256 digests runId (.rebase i)) := by
  unfold System.step
  simp only
  split
  · next hidle =>
    have hkept : ∀ {j f}, (Function.update sys.instances i
        { sys.instances i with clock := {} } j).phase.flight = some f →
          (sys.instances j).phase.flight = some f :=
      flight_of_update fun f hf => hf
    exact
      { h with
        underway := underway_update h (fun c hc => hc) (h.underway i)
        numbered := fun j f hf => h.numbered j f (hkept hf)
        pending := fun j f hf => h.pending j f (hkept hf)
        apart := fun j k f g hf hg => h.apart j k f g (hkept hf) (hkept hg)
        finished := fun r hr j f hf => h.finished r hr j f (hkept hf) }
  · exact h

/-- Every schedule is orderly. -/
theorem orderly_schedule (events : List Event) :
    Orderly sha256 runId events (schedule sha256 digests runId events) := by
  induction events using List.reverseRecOn with
  | nil => exact orderly_empty
  | append_singleton done e ih =>
    unfold schedule at ih ⊢
    rw [List.foldl_concat]
    cases e with
    | enter i c reading => exact (ih.enter i c reading).later _
    | access i a => exact ih.access i a
    | rebase i => exact (ih.rebase i).later _

/-- Whatever the schedule of the instances' steps: the committed states are one
chain in which no operation occurs twice, and each answer is right about it. A
call that returns `applied` has appended its own operation, once, to the state it
returns; one that returns an exact replay or raises has appended nothing, except
where a publish failed after it had replaced the current pointer. -/
theorem no_lost_or_doubled_operation (sha256 : Payload → String) (digests : RevisionDigests)
    (runId : String) (events : List Event) :
    let sys := schedule sha256 digests runId events
    OneChain sha256 (sys.chain.map Commit.state) ∧
      ∀ r ∈ sys.returned, Answered sha256 runId events sys.chain r.flight r.answer := by
  have h : Orderly sha256 runId events (schedule sha256 digests runId events) :=
    orderly_schedule events
  exact ⟨h.linear.oneChain, h.answered⟩

-- two instances start one operation at once: one appends it, the other replays it
example :
    let reserved : Call :=
      .reserve "operation-2" "permit-1" sampleReservation sampleLineage none none
    let digests : RevisionDigests :=
      { transactionId := id, transaction := fun r => r.state.runId, manifest := fun r => r.transactionId
        pointer := fun r => r.transactionId }
    (schedule taggedDigest digests "run-1"
      [.enter 0 (.create {} "operation-1") (some 10), .access 0 (.probe false),
        .access 0 (.publish { createdAt := 1 }),
        .enter 0 reserved (some 11), .enter 1 reserved (some 12),
        .access 0 (.load none), .access 1 (.load none),
        .access 1 (.readCurrent none), .access 1 (.publish { createdAt := 2 }),
        .access 0 (.readCurrent none), .access 0 (.load none)]).returned.map
      (fun r => (r.flight.id, r.answer.map (·.status))) =
      [(1, .ok .exactReplay), (2, .ok .applied), (0, .ok .applied)] := by
  decide +kernel

end

end PokerDeliberation.Budgets
