import PokerDeliberation.Approvals.Append
import PokerDeliberation.Approvals.Replay

/-!
# The reader accepts what the writer appends

A call that has prepared its event writes files that the reader accepts with
the pointer it wrote, and every other call leaves the files as they are. What
the reader accepts is governed, so every audit that calls can reach is.
-/

namespace PokerDeliberation.Approvals

open Lib

variable {Bytes : Type} {store : AuditStore Bytes} {root : AuditRoot Bytes} {call : AuditCall}
  {events : List ApprovalSecurityAuditEventV2} {pointer : ApprovalSecurityAuditPointerV2}
  {prepared : PreparedAudit Bytes}

/-- The event files that are there. -/
def filesOf (root : AuditRoot Bytes) : List (EventName × Bytes) := ((root.getD {}).events).getD []

/-- The event files are listed in the order of their names. -/
def Listed (root : AuditRoot Bytes) : Prop := (filesOf root).Pairwise fun x y => x.1.le y.1

/-! ## What the reader accepts -/

/-- The loop over the event files after some of them. -/
structure Looped (done : List ((EventName × Bytes) × Nat)) (s : EventLoop) : Prop where
  names : ∀ entry ∈ done, entry.1.1.sequence = entry.2 + 1
  length : s.events.length = done.length
  ordered : Ordered s.events
  prior : ∀ e ∈ s.events, ∃ prior ∈ s.priorTime, e.occurredAt ≤ prior

theorem looped_nil : Looped ([] : List ((EventName × Bytes) × Nat)) {} :=
  ⟨by simp, rfl, List.Pairwise.nil, by simp⟩

theorem readEvent_looped {done : List ((EventName × Bytes) × Nat)} {s s' : EventLoop}
    {entry : (EventName × Bytes) × Nat} (h : Looped done s)
    (hok : readEvent store store.runIdSha256 s entry = .ok s') : Looped (done ++ [entry]) s' := by
  obtain ⟨⟨name, content⟩, sequence⟩ := entry
  simp only [readEvent, bind_eq_ok, require_eq_ok, exists_const, pure_eq_ok] at hok
  obtain ⟨hname, data, -, event, -, -, hclock, rfl⟩ := hok
  refine ⟨?_, ?_, ?_, ?_⟩
  · intro entry hentry
    rcases List.mem_append.1 hentry with hdone | hnew
    · exact h.names entry hdone
    · obtain rfl := List.mem_singleton.1 hnew
      exact hname
  · simp [h.length]
  · refine ordered_concat.2 ⟨h.ordered, fun e he => ?_⟩
    obtain ⟨prior, hprior, hle⟩ := h.prior e he
    exact hle.trans (hclock prior hprior)
  · intro e he
    refine ⟨event.occurredAt, rfl, ?_⟩
    rcases List.mem_append.1 he with hold | hnew
    · obtain ⟨prior, hprior, hle⟩ := h.prior e hold
      exact hle.trans (hclock prior hprior)
    · obtain rfl := List.mem_singleton.1 hnew
      exact le_rfl

/-- What an accepted audit is: the loop over its files, and a pointer that agrees with it. -/
structure Accepted (store : AuditStore Bytes) (root : AuditRoot Bytes)
    (pointer : ApprovalSecurityAuditPointerV2) (events : List ApprovalSecurityAuditEventV2)
    (s : EventLoop) : Prop where
  temporary : (root.getD {}).temporary = none
  loop : (filesOf root).zipIdx.foldlM (readEvent store store.runIdSha256) {} = .ok s
  replayed : s.events = events
  head : pointer.headEventSha256 = s.expectedPrevious
  total : pointer.totalEventBytes = s.totalBytes
  updated : pointer.updatedAt = s.priorTime
  sequence : pointer.auditSequence = (filesOf root).length
  states : approvalAuditRateStates events = .ok pointer.rateStates

theorem accepted_of_read (hlisted : Listed root)
    (h : readApprovalFailureAudit store root = .ok (pointer, events)) :
    ∃ s, Accepted store root pointer events s := by
  unfold readApprovalFailureAudit at h
  have hempty : (root.getD {}).temporary = none → filesOf root = [] →
      pure (emptyApprovalAuditPointer store, []) =
        (Except.ok (pointer, events) : Except AuditException _) →
      ∃ s, Accepted store root pointer events s := by
    intro htemporary hfiles heq
    rw [pure_eq_ok, Prod.mk.injEq] at heq
    obtain ⟨rfl, rfl⟩ := heq
    exact ⟨{}, htemporary, by rw [hfiles]; rfl, rfl, rfl, rfl, rfl, by rw [hfiles]; rfl, rfl⟩
  cases root with
  | none => exact hempty rfl rfl h
  | some directory =>
    rw [require_bind_eq_ok] at h
    obtain ⟨htemporary, h⟩ := h
    replace htemporary := Option.isNone_iff_eq_none.1 htemporary
    obtain ⟨files, current, temporary⟩ := directory
    cases files with
    | none =>
      cases current with
      | none => exact hempty htemporary rfl h
      | some _ => exact absurd h throw_ne_ok
    | some files =>
      cases current with
      | none => exact absurd h throw_ne_ok
      | some current =>
        have hsorted : files.insertionSort (fun x y => x.1.le y.1) = files :=
          List.Pairwise.insertionSort_eq hlisted
        simp only [readChain, hsorted, bind_eq_ok, require_eq_ok, exists_const, pure_eq_ok,
          Prod.mk.injEq] at h
        obtain ⟨_, -, pointer', -, hrun, hlength, s, hloop, states, hstates, hagree, rfl, rfl⟩ := h
        obtain ⟨hhead, htotal, hrates, hupdated⟩ := hagree
        rw [hrun] at hloop
        exact ⟨s, htemporary, hloop, rfl, hhead, htotal, hupdated, hlength.symm, hrates ▸ hstates⟩

namespace Accepted

variable {s : EventLoop} (h : Accepted store root pointer events s)

include h

theorem looped : Looped (filesOf root).zipIdx s :=
  runs_induction (I := Looped) looped_nil (fun _ _ _ _ hI hok => readEvent_looped hI hok) h.loop

theorem ordered : Ordered events := h.replayed ▸ h.looped.ordered

/-- The audit is governed. -/
theorem governed : Governed events := by
  have hstates := h.states
  rw [approvalAuditRateStates, map_eq_ok] at hstates
  obtain ⟨replay, hreplay, -⟩ := hstates
  exact (replay_governed h.ordered hreplay).1

/-- The names of the event files are numbered from 1. -/
theorem sequence_le {name : EventName} {data : Bytes} (hmem : (name, data) ∈ filesOf root) :
    name.sequence ≤ (filesOf root).length := by
  obtain ⟨n, hn, hget⟩ := List.getElem_of_mem hmem
  have hentry : ((name, data), n) ∈ (filesOf root).zipIdx := by
    rw [← hget]
    exact List.mk_mem_zipIdx_iff_getElem?.2 (List.getElem?_eq_getElem hn)
  have hname := h.looped.names _ hentry
  simp only at hname
  omega

end Accepted

/-! ## What the writer has prepared -/

/-- The event that a request has made. -/
structure Drafted (store : AuditStore Bytes) (request : ApprovalFailureAuditRequest)
    (pointer : ApprovalSecurityAuditPointerV2) (event : ApprovalSecurityAuditEventV2) : Prop where
  sequence : event.sequence = pointer.auditSequence + 1
  previous : event.previousEventSha256 = pointer.headEventSha256
  run : event.runIdSha256 = store.runIdSha256
  occurredAt : event.occurredAt = request.occurredAt.clock
  valid : event.validate store.format = .ok ()

theorem nextEvent_ok {limits : AuditLimits} {request : ApprovalFailureAuditRequest}
    {event : ApprovalSecurityAuditEventV2}
    (h : nextEvent store limits request pointer events = .ok event) :
    Drafted store request pointer event := by
  simp only [nextEvent, bind_eq_ok, pure_eq_ok] at h
  obtain ⟨_, -, ⟨kind, code⟩, -, _, hvalid, rfl⟩ := h
  exact ⟨rfl, rfl, rfl, rfl, hvalid⟩

/-- What a call has prepared on an accepted audit. -/
structure Prepared (store : AuditStore Bytes) (call : AuditCall)
    (pointer : ApprovalSecurityAuditPointerV2) (events : List ApprovalSecurityAuditEventV2)
    (prepared : PreparedAudit Bytes) : Prop where
  clock : ∀ updatedAt ∈ pointer.updatedAt, updatedAt ≤ prepared.event.occurredAt
  drafted : Drafted store call.request pointer prepared.event
  eventBytes : prepared.eventBytes = store.format.encodeEvent prepared.event
  eventSize : store.format.size prepared.eventBytes ≤ call.limits.maxEventBytes
  states : approvalAuditRateStates (events ++ [prepared.event]) = .ok prepared.pointer.rateStates
  pointer : prepared.pointer =
    { runIdSha256 := store.runIdSha256
      auditSequence := prepared.event.sequence
      headEventSha256 := some prepared.event.eventSha256
      totalEventBytes := pointer.totalEventBytes + store.format.size prepared.eventBytes
      rateStates := prepared.pointer.rateStates
      updatedAt := some prepared.event.occurredAt }
  valid : prepared.pointer.validate = .ok ()
  pointerBytes : prepared.pointerBytes = store.format.encodePointer prepared.pointer
  pointerSize : store.format.size prepared.pointerBytes ≤ store.maxArtifactBytes

theorem prepareAudit_ok (h : prepareAudit store call root = .ok prepared) :
    ∃ pointer events, readApprovalFailureAudit store root = .ok (pointer, events) ∧
      Prepared store call pointer events prepared := by
  simp only [prepareAudit, nextPointer, bind_eq_ok, require_eq_ok, exists_const, pure_eq_ok] at h
  obtain ⟨-, ⟨pointer, events⟩, hread, hclock, -, event, hevent, hsize, -, next, hnext, hpointer,
    rfl⟩ := h
  obtain ⟨states, hstates, _, hvalid, rfl⟩ := hnext
  have hdrafted := nextEvent_ok hevent
  refine ⟨pointer, events, hread, ?_, hdrafted, rfl, hsize, hstates, rfl, hvalid, rfl, hpointer⟩
  intro updatedAt hupdated
  rw [hdrafted.occurredAt]
  exact hclock updatedAt hupdated

/-- The audit with the event and the pointer that a call has prepared. -/
def appended (root : AuditRoot Bytes) (prepared : PreparedAudit Bytes) : AuditDirectory Bytes where
  events := some (filesOf root ++ [(EventName.of prepared.event, prepared.eventBytes)])
  current := some prepared.pointerBytes

namespace Accepted

variable {s : EventLoop} (h : Accepted store root pointer events s)
  (hprepared : Prepared store call pointer events prepared)

include h hprepared

/-- The new file comes after those that are there. -/
theorem listed_appended (hlisted : Listed root) : Listed (some (appended root prepared)) := by
  refine List.pairwise_append.2 ⟨hlisted, List.pairwise_singleton _ _, ?_⟩
  rintro ⟨name, data⟩ hmem _ hnew
  obtain rfl := List.mem_singleton.1 hnew
  have hle := h.sequence_le hmem
  have hsequence := hprepared.drafted.sequence
  rw [h.sequence] at hsequence
  left
  simp only [EventName.of]
  omega

theorem fresh : EventName.of prepared.event ∉ (filesOf root).map Prod.fst := by
  intro hmem
  obtain ⟨⟨name, data⟩, hfile, rfl⟩ := List.mem_map.1 hmem
  have hle := h.sequence_le hfile
  have hsequence := hprepared.drafted.sequence
  rw [h.sequence] at hsequence
  simp only [EventName.of] at hle
  omega

/-- The reader takes in the new event file. -/
theorem readEvent_appended (hlimits : call.limits.Admissible) :
    ∃ s', readEvent store store.runIdSha256 s
      ((EventName.of prepared.event, prepared.eventBytes), (filesOf root).length) = .ok s' ∧
      s'.events = events ++ [prepared.event] ∧
      s'.expectedPrevious = some prepared.event.eventSha256 ∧
      s'.totalBytes = pointer.totalEventBytes + store.format.size prepared.eventBytes ∧
      s'.priorTime = some prepared.event.occurredAt := by
  have hdrafted := hprepared.drafted
  have hsequence := hdrafted.sequence
  rw [h.sequence] at hsequence
  have hsize : store.format.size prepared.eventBytes ≤ APPROVAL_AUDIT_MAX_EVENT_BYTES :=
    hprepared.eventSize.trans hlimits.maxEventBytes.2
  have hread : readBounded store APPROVAL_AUDIT_MAX_EVENT_BYTES prepared.eventBytes =
      .ok prepared.eventBytes := by
    rw [readBounded, require_of hsize]
    rfl
  have hparse : parseEvent store.format prepared.eventBytes = .ok prepared.event := by
    rw [parseEvent, hprepared.eventBytes, store.format.decode_encodeEvent]
    simp only [hdrafted.valid]
    rfl
  have hclock : ∀ prior ∈ s.priorTime, prior ≤ prepared.event.occurredAt := by
    rw [← h.updated]
    exact hprepared.clock
  refine ⟨{ events := s.events ++ [prepared.event]
            expectedPrevious := some prepared.event.eventSha256
            totalBytes := s.totalBytes + store.format.size prepared.eventBytes
            priorTime := some prepared.event.occurredAt }, ?_, ?_, rfl, ?_, rfl⟩
  · simp only [readEvent, bind_eq_ok, require_eq_ok, exists_const, pure_eq_ok]
    refine ⟨hsequence, _, hread, _, hparse, ⟨hsequence, ?_, hdrafted.run, rfl⟩, hclock, rfl⟩
    rw [hdrafted.previous, h.head]
  · rw [h.replayed]
  · rw [h.total]

/-- The reader accepts the audit with the event and the pointer. -/
theorem read_appended (hlisted : Listed root) (hlimits : call.limits.Admissible) :
    readApprovalFailureAudit store (some (appended root prepared)) =
      .ok (prepared.pointer, events ++ [prepared.event]) := by
  have hsorted : (filesOf root ++ [(EventName.of prepared.event, prepared.eventBytes)]).insertionSort
      (fun x y => x.1.le y.1) = filesOf root ++ [(EventName.of prepared.event, prepared.eventBytes)] :=
    List.Pairwise.insertionSort_eq (h.listed_appended hprepared hlisted)
  obtain ⟨s', hstep, hevents, hprevious, htotal, hprior⟩ := h.readEvent_appended hprepared hlimits
  have hloop : (filesOf root ++ [(EventName.of prepared.event, prepared.eventBytes)]).zipIdx.foldlM
      (readEvent store store.runIdSha256) {} = .ok s' :=
    foldlM_zipIdx_concat_ok.2 ⟨s, h.loop, hstep⟩
  have hread : readBounded store store.maxArtifactBytes prepared.pointerBytes =
      .ok prepared.pointerBytes := by
    rw [readBounded, require_of hprepared.pointerSize]
    rfl
  have hparse : parsePointer store.format prepared.pointerBytes = .ok prepared.pointer := by
    rw [parsePointer, hprepared.pointerBytes, store.format.decode_encodePointer]
    simp only [hprepared.valid]
    rfl
  have hsequence := hprepared.drafted.sequence
  rw [h.sequence] at hsequence
  have hpointer := hprepared.pointer
  have hchain : readApprovalFailureAudit store (some (appended root prepared)) = readChain store
      (filesOf root ++ [(EventName.of prepared.event, prepared.eventBytes)])
      prepared.pointerBytes := rfl
  rw [hchain]
  simp only [readChain, hsorted, bind_eq_ok, require_eq_ok, exists_const, pure_eq_ok,
    Prod.mk.injEq]
  refine ⟨_, hread, _, hparse, ?_, ?_, s', ?_, _, ?_, ⟨?_, ?_, rfl, ?_⟩, rfl, hevents⟩
  · rw [hpointer]
  · rw [hpointer, List.length_append, List.length_singleton]
    exact hsequence.symm
  · rw [hpointer]
    exact hloop
  · rw [hevents]
    exact hprepared.states
  · rw [hpointer, hprevious]
  · rw [hpointer, htotal]
  · rw [hpointer, hprior]

end Accepted

/-! ## Calls -/

/-- The directory after both directories have been made. -/
def opened (root : AuditRoot Bytes) : AuditDirectory Bytes :=
  { root.getD {} with events := some (filesOf root) }

theorem writeEvent_run {directory : AuditDirectory Bytes} {files : List (EventName × Bytes)}
    {name : EventName} (data : Bytes) (hfiles : directory.events = some files)
    (hfresh : name ∉ files.map Prod.fst) : writeEvent name data (some directory) =
      (.ok (), some { directory with events := some (files ++ [(name, data)]) }) := by
  have hbind : writeEvent name data (some directory) =
      (Stateful.lift (require (name ∉ (directory.events.getD []).map Prod.fst) .os) >>= fun _ =>
        (update fun d => { d with events := some (directory.events.getD [] ++ [(name, data)]) } :
          AuditProc Bytes Unit)) (some directory) := rfl
  rw [hbind, hfiles, Option.getD_some, require_of hfresh]
  rfl

theorem writeTemporary_run {directory : AuditDirectory Bytes} (data : Bytes)
    (h : directory.temporary = none) : writeTemporary data (some directory) =
      (.ok (), some { directory with temporary := some data }) := by
  have hbind : writeTemporary data (some directory) =
      (Stateful.lift (require directory.temporary.isNone .os) >>= fun _ =>
        (update fun d => { d with temporary := some data } : AuditProc Bytes Unit))
        (some directory) := rfl
  have hnone : directory.temporary.isNone := by rw [h]; rfl
  rw [hbind, require_of hnone]
  rfl

/-- Up to the replacement of the pointer, a call raises with the files as they are, or has
appended what it prepared. -/
theorem publishAudit_cases (hlisted : Listed root) :
    (∃ e, publishAudit store call root = (.error e, root)) ∨
    ∃ pointer events s prepared,
      readApprovalFailureAudit store root = .ok (pointer, events) ∧
      Accepted store root pointer events s ∧ Prepared store call pointer events prepared ∧
      publishAudit store call root = (.ok prepared, some (appended root prepared)) := by
  have hbind : publishAudit store call root = (Stateful.lift (prepareAudit store call root) >>=
      fun prepared => recognizedDirectories >>= fun _ =>
        writeEvent (EventName.of prepared.event) prepared.eventBytes >>= fun _ =>
        writeTemporary prepared.pointerBytes >>= fun _ => replaceCurrent >>= fun _ =>
        (pure prepared : AuditProc Bytes (PreparedAudit Bytes))) root := rfl
  rw [hbind]
  cases hprepare : prepareAudit store call root with
  | error e => exact .inl ⟨e, rfl⟩
  | ok prepared =>
    obtain ⟨pointer, events, hread, hprepared⟩ := prepareAudit_ok hprepare
    obtain ⟨s, haccepted⟩ := accepted_of_read hlisted hread
    refine .inr ⟨pointer, events, s, prepared, hread, haccepted, hprepared, ?_⟩
    have hlift : (Stateful.lift (.ok prepared) : AuditProc Bytes _) root = (.ok prepared, root) := rfl
    have hopened : recognizedDirectories root = (.ok (), some (opened root)) := rfl
    have hfiles : (opened root).events = some (filesOf root) := rfl
    have hevent := writeEvent_run prepared.eventBytes hfiles (haccepted.fresh hprepared)
    rw [bind_of_ok hlift, bind_of_ok hopened, bind_of_ok hevent]
    refine (bind_of_ok (writeTemporary_run _ ?_)).trans rfl
    exact haccepted.temporary

variable [DecidableEq Bytes]

/-- What is read again is left as it is. -/
theorem always_confirmAudit : Always Eq (confirmAudit store call prepared) :=
  always_read.bind fun _ => (always_lift _).bind fun _ => (always_lift _).bind fun _ =>
    (always_lift _).bind fun _ => (always_lift _).bind fun _ => always_pure _

theorem confirmAudit_ok {outcome : ApprovalFailureAuditOutcome} {root' : AuditRoot Bytes}
    (h : Returns (confirmAudit store call prepared) root outcome root') :
    outcome.event = prepared.event ∧ outcome.pointer = prepared.pointer := by
  simp only [confirmAudit, returns_bind, returns_pure] at h
  obtain ⟨_, _, -, _, _, -, _, _, -, _, _, -, _, _, -, rfl, -⟩ := h
  exact ⟨rfl, rfl⟩

/-- What a call has appended. -/
structure Appends (store : AuditStore Bytes) (call : AuditCall) (root : AuditRoot Bytes)
    (pointer : ApprovalSecurityAuditPointerV2) (events : List ApprovalSecurityAuditEventV2)
    (audit : PreparedAudit Bytes) : Prop where
  limits : call.limits.Admissible
  read : readApprovalFailureAudit store root = .ok (pointer, events)
  prepared : Prepared store call pointer events audit
  files : (appendApprovalFailureAudit store call root).2 = some (appended root audit)
  outcome : ∀ outcome, (appendApprovalFailureAudit store call root).1 = .ok outcome →
    outcome.event = audit.event ∧ outcome.pointer = audit.pointer

/-- A call raises with the files as they are, or has appended what it prepared. -/
theorem append_cases (hlisted : Listed root) :
    (∃ e, appendApprovalFailureAudit store call root = (.error e, root)) ∨
    ∃ pointer events s prepared, Accepted store root pointer events s ∧
      Appends store call root pointer events prepared := by
  cases hadmit : call.admit with
  | error e =>
    have hraise : appendApprovalFailureAudit store call root = (.error e, root) := by
      rw [appendApprovalFailureAudit, hadmit]
      rfl
    exact .inl ⟨e, hraise⟩
  | ok =>
    have henter : appendApprovalFailureAudit store call root = appendUnderAuthority store call root := by
      rw [appendApprovalFailureAudit, hadmit]
      rfl
    simp only [ AuditCall.admit, bind_eq_ok, require_eq_ok, exists_const] at hadmit
    obtain ⟨hlimits, -, -⟩ := hadmit
    have hcatch := catching_raise (x := publishAudit store call) (g := failureOf false) (s := root)
    rw [appendUnderAuthority, ensuring_lift] at henter
    rcases @publishAudit_cases Bytes store root call hlisted with
      ⟨e, hpublish⟩ | ⟨pointer, events, s, audit, hread, haccepted, hprepared, hpublish⟩
    · rw [hpublish] at hcatch
      rw [henter, bind_of_error hcatch]
      cases require call.leaseReleased (AuditError.failure .auditUnconfirmed
          "Approval failure audit authority release is unconfirmed." false) with
      | error e' => exact .inl ⟨e', rfl⟩
      | ok => exact .inl ⟨failureOf false e, rfl⟩
    · rw [hpublish] at hcatch
      have hkept : some (appended root audit) =
          (confirmAudit store call audit (some (appended root audit))).2 := always_confirmAudit _
      rw [bind_of_ok hcatch, catching_raise] at henter
      refine .inr ⟨pointer, events, s, audit, haccepted, hlimits, hread, hprepared, ?_, ?_⟩
      · rw [henter]
        exact hkept.symm
      · intro outcome hok
        rw [henter, check_bind_eq_ok, mapError_eq_ok] at hok
        exact confirmAudit_ok (returns_of_ok hok.2)

/-- What is kept between calls: the reader accepts the files. -/
structure Kept (store : AuditStore Bytes) (root : AuditRoot Bytes) : Prop where
  listed : Listed root
  read : ∃ audit, readApprovalFailureAudit store root = .ok audit

omit [DecidableEq Bytes] in
theorem kept_none : Kept store none := ⟨List.Pairwise.nil, _, rfl⟩

theorem kept_append (h : Kept store root) :
    Kept store (appendApprovalFailureAudit store call root).2 := by
  rcases @append_cases _ store root call _ h.listed with
    ⟨e, hraise⟩ | ⟨pointer, events, s, audit, haccepted, happends⟩
  · rw [hraise]
    exact h
  · rw [happends.files]
    exact ⟨haccepted.listed_appended happends.prepared h.listed, _,
      haccepted.read_appended happends.prepared h.listed happends.limits⟩

theorem kept_runCalls (calls : List AuditCall) (h : Kept store root) :
    Kept store (runCalls store calls root) := by
  induction calls generalizing root with
  | nil => exact h
  | cons call calls ih => exact ih (kept_append h)

/-- What holds of every audit that calls can reach. -/
structure AuditSound (events : List ApprovalSecurityAuditEventV2) : Prop where
  ordered : Ordered events
  windows : ∀ actor t, (window auditFloor t (failureTimes actor events)).length ≤
    APPROVAL_AUDIT_MAX_FAILED_EVENTS
  markers : ∀ before event after, events = before ++ event :: after →
    event.eventKind = .rateLimit →
    (window auditFloor event.occurredAt (failureTimes event.actorSha256 before)).length =
      APPROVAL_AUDIT_MAX_FAILED_EVENTS
  between : ∀ before first between second after,
    events = before ++ first :: between ++ second :: after →
    first.eventKind = .rateLimit → second.eventKind = .rateLimit →
    first.actorSha256 = second.actorSha256 →
    ∃ event ∈ between, event.actorSha256 = first.actorSha256 ∧ event.eventKind = .failure

omit [DecidableEq Bytes] in
theorem Accepted.auditSound {s : EventLoop} (h : Accepted store root pointer events s) :
    AuditSound events := by
  refine ⟨h.ordered, h.governed.window_le, ?_, ?_⟩
  · rintro before event after rfl hkind
    rw [window_eq_recentBefore h.ordered]
    have hfollows := h.governed before event after rfl
    rw [Follows, hkind] at hfollows
    exact hfollows.1
  · rintro before first between second after rfl hfirst hsecond hactor
    exact h.governed.failure_between hfirst hsecond hactor

end PokerDeliberation.Approvals
