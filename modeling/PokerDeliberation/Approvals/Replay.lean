import PokerDeliberation.Approvals.Audit
import PokerDeliberation.Lib.Logs

/-!
# What the replay of the rate states admits

An audit is governed when each failure found fewer than 32 failures of its
actor in the window before it, and each marker exactly 32, with a failure as the
actor's last event. The events whose rate states can be replayed are governed,
as long as their times do not decrease: what the replay has pruned no later
window needs.
-/

namespace PokerDeliberation.Approvals

open Lib

variable {actor : String} {t : Instant} {events before between after : List ApprovalSecurityAuditEventV2}
  {event first second : ApprovalSecurityAuditEventV2} {replay replay' : RateReplay}

/-- The floor of the window of 60 seconds. -/
abbrev auditFloor : Instant → Instant := floorOf APPROVAL_AUDIT_WINDOW_SECONDS

theorem auditFloor_mono {s t : Instant} (h : s ≤ t) : auditFloor s ≤ auditFloor t :=
  Int.sub_le_sub_right h _

def actorEvents (actor : String) (events : List ApprovalSecurityAuditEventV2) :
    List ApprovalSecurityAuditEventV2 :=
  events.filter fun event => event.actorSha256 = actor

/-- When the failures of the actor were. -/
def failureTimes (actor : String) (events : List ApprovalSecurityAuditEventV2) : List Instant :=
  ((actorEvents actor events).filter fun event => event.eventKind = .failure).map (·.occurredAt)

/-- The failures of the event's actor in the window before the event. -/
def recentBefore (before : List ApprovalSecurityAuditEventV2) (event : ApprovalSecurityAuditEventV2) :
    List Instant :=
  recent auditFloor event.occurredAt (failureTimes event.actorSha256 before)

/-- What an event may follow. -/
def Follows (before : List ApprovalSecurityAuditEventV2) (event : ApprovalSecurityAuditEventV2) :
    Prop :=
  match event.eventKind with
  | .failure => (recentBefore before event).length < APPROVAL_AUDIT_MAX_FAILED_EVENTS
  | .rateLimit => (recentBefore before event).length = APPROVAL_AUDIT_MAX_FAILED_EVENTS ∧
    ∀ last ∈ (actorEvents event.actorSha256 before).getLast?, last.eventKind = .failure

def Governed : List ApprovalSecurityAuditEventV2 → Prop := Admitted Follows

/-- The times of the audit never decrease. -/
def Ordered (events : List ApprovalSecurityAuditEventV2) : Prop :=
  events.Pairwise fun x y => x.occurredAt ≤ y.occurredAt

theorem ordered_concat : Ordered (events ++ [event]) ↔
    Ordered events ∧ ∀ e ∈ events, e.occurredAt ≤ event.occurredAt := by
  rw [Ordered, List.pairwise_append]
  simp [Ordered]

theorem actorEvents_concat : actorEvents actor (events ++ [event]) =
    actorEvents actor events ++ if event.actorSha256 = actor then [event] else [] := by
  rw [actorEvents, List.filter_append, List.filter_cons]
  simp [actorEvents]

theorem failureTimes_concat : failureTimes actor (events ++ [event]) = failureTimes actor events ++
    if event.actorSha256 = actor ∧ event.eventKind = .failure then [event.occurredAt] else [] := by
  rw [failureTimes, actorEvents_concat, List.filter_append, List.map_append]
  by_cases hactor : event.actorSha256 = actor <;> by_cases hkind : event.eventKind = .failure <;>
    simp [hactor, hkind, failureTimes]

theorem mem_failureTimes (h : t ∈ failureTimes actor events) :
    ∃ event ∈ events, event.occurredAt = t := by
  obtain ⟨event, hevent, rfl⟩ := List.mem_map.1 h
  exact ⟨event, (List.mem_filter.1 (List.mem_filter.1 hevent).1).1, rfl⟩

/-! ## What a governed audit holds -/

theorem Governed.limited (h : Governed events) (actor : String) :
    Limited auditFloor APPROVAL_AUDIT_MAX_FAILED_EVENTS (failureTimes actor events) := by
  induction events using List.reverseRecOn with
  | nil => exact admitted_nil
  | append_singleton events event ih =>
    obtain ⟨hevents, hevent⟩ := admitted_concat.1 h
    rw [failureTimes_concat]
    split
    · rename_i hfailure
      obtain ⟨rfl, hkind⟩ := hfailure
      rw [Follows, hkind] at hevent
      exact admitted_concat.2 ⟨ih hevents, hevent⟩
    · rw [List.append_nil]
      exact ih hevents

/-- No window of an actor holds more than 32 failures. -/
theorem Governed.window_le (h : Governed events) (actor : String) (t : Instant) :
    (window auditFloor t (failureTimes actor events)).length ≤ APPROVAL_AUDIT_MAX_FAILED_EVENTS :=
  (h.limited actor).length_window_le (fun _ _ => auditFloor_mono) t

/-- The window of an event holds what the writer looked at. -/
theorem window_eq_recentBefore (h : Ordered (before ++ event :: after)) :
    window auditFloor event.occurredAt (failureTimes event.actorSha256 before) =
      recentBefore before event := by
  refine List.filter_congr fun t ht => ?_
  obtain ⟨e, he, rfl⟩ := mem_failureTimes ht
  have hle : e.occurredAt ≤ event.occurredAt :=
    (List.pairwise_append.1 h).2.2 e he event List.mem_cons_self
  simp [hle]

/-- Between two markers of an actor there is a failure of that actor. -/
theorem Governed.failure_between (h : Governed (before ++ first :: between ++ second :: after))
    (hfirst : first.eventKind = .rateLimit) (hsecond : second.eventKind = .rateLimit)
    (hactor : first.actorSha256 = second.actorSha256) :
    ∃ event ∈ between, event.actorSha256 = first.actorSha256 ∧ event.eventKind = .failure := by
  have hfollows := h (before ++ first :: between) second after rfl
  rw [Follows, hsecond] at hfollows
  have hlast := hfollows.2
  rw [← hactor, actorEvents, List.filter_append, List.filter_cons_of_pos (by simp),
    List.getLast?_append_of_ne_nil _ (List.cons_ne_nil _ _)] at hlast
  rcases List.eq_nil_or_concat (between.filter fun event => event.actorSha256 = first.actorSha256)
    with hnil | ⟨init, last, hconcat⟩
  · rw [hnil] at hlast
    have hkind := hlast first rfl
    rw [hfirst] at hkind
    cases hkind
  · have hmem : last ∈ between.filter fun event => event.actorSha256 = first.actorSha256 := by
      rw [hconcat]
      simp
    obtain ⟨hbetween, hof⟩ := List.mem_filter.1 hmem
    rw [hconcat, List.concat_eq_append, ← List.cons_append, List.getLast?_concat] at hlast
    exact ⟨last, hbetween, by simpa using hof, hlast last rfl⟩

/-! ## The replay -/

/-- What the replay knows of each actor after the events. -/
structure Tracks (events : List ApprovalSecurityAuditEventV2) (replay : RateReplay) : Prop where
  failures : ∀ actor, replay.failures.lookup actor = (actorEvents actor events).getLast?.map
    fun last => recent auditFloor last.occurredAt (failureTimes actor events)
  marker : ∀ actor, (replay.states.lookup actor).map (·.rateLimitMarkerRecorded) =
    (actorEvents actor events).getLast?.map fun last => decide (last.eventKind = .rateLimit)

theorem tracks_nil : Tracks [] {} := ⟨fun _ => rfl, fun _ => rfl⟩

/-- The recent failures of the actor, as the replay finds them. -/
theorem Tracks.recent (h : Tracks events replay)
    (hordered : ∀ e ∈ events, e.occurredAt ≤ event.occurredAt) :
    ((replay.failures.lookup event.actorSha256).getD []).filter
      (auditFloor event.occurredAt < ·) = recentBefore events event := by
  rw [h.failures]
  cases hlast : (actorEvents event.actorSha256 events).getLast? with
  | none =>
    have hnil : actorEvents event.actorSha256 events = [] := List.getLast?_eq_none_iff.1 hlast
    simp [recentBefore, failureTimes, hnil, Lib.recent]
  | some last =>
    have hmem : last ∈ events := (List.mem_filter.1 (List.mem_of_getLast? hlast)).1
    exact recent_recent (fun _ _ => auditFloor_mono) (hordered last hmem)

theorem Tracks.isMarkerActive_eq_false (h : Tracks events replay) (recent : List Instant) :
    isMarkerActive APPROVAL_AUDIT_MAX_FAILED_EVENTS (replay.states.lookup actor) recent = false ↔
      (recent.length = APPROVAL_AUDIT_MAX_FAILED_EVENTS →
        ∀ last ∈ (actorEvents actor events).getLast?, last.eventKind = .failure) := by
  have hmarker := h.marker actor
  have hkind : ∀ kind : EventKind, kind ≠ .rateLimit ↔ kind = .failure := by
    rintro ⟨⟩ <;> decide
  cases hlast : (actorEvents actor events).getLast? with
  | none =>
    rw [hlast, Option.map_none, Option.map_eq_none_iff] at hmarker
    simp [isMarkerActive, hmarker]
  | some last =>
    rw [hlast, Option.map_some, Option.map_eq_some_iff] at hmarker
    obtain ⟨state, hstate, hmarked⟩ := hmarker
    simp only [isMarkerActive, hstate, Option.any_some, hmarked, Bool.and_eq_false_iff,
      decide_eq_false_iff_not, beq_eq_false_iff_ne, hkind, Option.mem_some_iff, forall_eq']
    tauto

theorem lookup_assign {α : Type} {key : String} {value : α} {entries : List (String × α)} :
    (assign key value entries).lookup actor =
      if actor = key then some value else entries.lookup actor := by
  unfold assign
  split
  · rename_i heq
    subst heq
    exact lookup_cons_self
  · rename_i hne
    rw [lookup_cons_ne hne, lookup_filter_ne hne]

/-- What a replayed event has met. -/
theorem countEvent_ok {kind : EventKind} {recent recent' : List Instant}
    {markerActive marked : Bool} (h : countEvent kind t recent markerActive = .ok (recent', marked)) :
    (kind = .failure ∧ recent.length < APPROVAL_AUDIT_MAX_FAILED_EVENTS ∧
      recent' = recent ++ [t] ∧ marked = false) ∨
    (kind = .rateLimit ∧ recent.length = APPROVAL_AUDIT_MAX_FAILED_EVENTS ∧
      markerActive = false ∧ recent' = recent ∧ marked = true) := by
  cases kind with
  | failure =>
    simp only [countEvent, require_bind_eq_ok, pure_eq_ok, Prod.mk.injEq] at h
    obtain ⟨hlength, rfl, rfl⟩ := h
    exact .inl ⟨rfl, hlength, rfl, rfl⟩
  | rateLimit =>
    simp only [countEvent, require_bind_eq_ok, pure_eq_ok, Prod.mk.injEq] at h
    obtain ⟨⟨hlength, hmarker⟩, rfl, rfl⟩ := h
    exact .inr ⟨rfl, hlength, hmarker, rfl, rfl⟩

/-- One event that the replay takes in follows those before it. -/
theorem replayEvent_ok (h : Tracks events replay)
    (hordered : ∀ e ∈ events, e.occurredAt ≤ event.occurredAt)
    (hok : replayEvent replay event = .ok replay') :
    Follows events event ∧ Tracks (events ++ [event]) replay' := by
  unfold replayEvent at hok
  simp only [windowFloor, bind_eq_ok, map_eq_ok, require_eq_ok, pure_eq_ok] at hok
  obtain ⟨_, ⟨-, -, rfl⟩, ⟨recent, marked⟩, hcount, -, -, -, -, rfl⟩ := hok
  rw [h.recent hordered] at hcount
  have hkept : Follows events event ∧ recent = Lib.recent auditFloor event.occurredAt
      (failureTimes event.actorSha256 (events ++ [event])) ∧
      marked = decide (event.eventKind = .rateLimit) := by
    rw [failureTimes_concat]
    rcases countEvent_ok hcount with ⟨hkind, hlength, rfl, rfl⟩ | ⟨hkind, hlength, hmarker, rfl, rfl⟩
    · have hself : Lib.recent auditFloor event.occurredAt [event.occurredAt] = [event.occurredAt] :=
        List.filter_cons_of_pos (decide_eq_true (Int.sub_lt_self _ (by decide)))
      rw [Follows, hkind, if_pos ⟨rfl, rfl⟩, recent_append, hself]
      exact ⟨hlength, rfl, rfl⟩
    · rw [h.isMarkerActive_eq_false] at hmarker
      rw [Follows, hkind, if_neg (by simp), List.append_nil]
      exact ⟨⟨hlength, hmarker hlength⟩, rfl, rfl⟩
  obtain ⟨hfollows, rfl, rfl⟩ := hkept
  refine ⟨hfollows, fun actor => ?_, fun actor => ?_⟩
  · rw [lookup_assign, actorEvents_concat]
    by_cases hactor : actor = event.actorSha256
    · subst hactor
      simp
    · rw [if_neg hactor, if_neg (Ne.symm hactor), List.append_nil, failureTimes_concat,
        if_neg (fun hand => hactor hand.1.symm), List.append_nil]
      exact h.failures actor
  · rw [lookup_assign, actorEvents_concat]
    by_cases hactor : actor = event.actorSha256
    · subst hactor
      simp
    · rw [if_neg hactor, if_neg (Ne.symm hactor), List.append_nil]
      exact h.marker actor

/-- Events whose rate states can be replayed, in the order of their times, are governed. -/
theorem replay_governed (hordered : Ordered events)
    (hok : events.foldlM replayEvent {} = .ok replay) : Governed events ∧ Tracks events replay := by
  induction events using List.reverseRecOn generalizing replay with
  | nil =>
    rw [List.foldlM_nil, pure_eq_ok] at hok
    subst hok
    exact ⟨admitted_nil, tracks_nil⟩
  | append_singleton events event ih =>
    obtain ⟨hevents, hevent⟩ := ordered_concat.1 hordered
    obtain ⟨replay', hbefore, hstep⟩ := foldlM_append_ok.1 hok
    obtain ⟨hgoverned, htracks⟩ := ih hevents hbefore
    rw [List.foldlM_cons, bind_eq_ok] at hstep
    obtain ⟨_, hstep, heq⟩ := hstep
    rw [List.foldlM_nil, pure_eq_ok] at heq
    subst heq
    obtain ⟨hfollows, htracks⟩ := replayEvent_ok htracks hevent hstep
    exact ⟨admitted_concat.2 ⟨hgoverned, hfollows⟩, htracks⟩

end PokerDeliberation.Approvals
