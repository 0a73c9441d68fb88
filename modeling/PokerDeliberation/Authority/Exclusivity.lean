import PokerDeliberation.Authority.Registry

/-!
# Exclusivity of the lock registry

Every step of a call moves its own reservation and the held set together
(`Acquiring.Adjusts`), with one exception. When the kernel attempt raises an
`OSError`, the inner handler releases the keys and the outer one, for which
`registry_reserved` is still true, releases them once more; two calls of
`release` on one lease that have both unlocked the kernel do the same. The held
set is exact along a run as long as no such second release finds one of its
keys reserved by somebody else.
-/

namespace PokerDeliberation.Authority

open Lib

section

variable {κ : Type} [DecidableEq κ]

/-- The keys a call has reserved and not given back. -/
def Acquiring.reservation : Acquiring κ → Finset κ
  | entered _ _ | raised _ => ∅
  | reserved keys _ | extended keys | opened keys _ | refused keys _ _ | locked keys _ =>
    keys.toFinset
  | handling keys registryReserved givenBack _ _ =>
    if registryReserved && !givenBack then keys.toFinset else ∅
  | leased lease => if lease.givenBack then ∅ else lease.registryKeys.toFinset

def Registry.reservations (registry : Registry κ) : List (Finset κ) :=
  registry.calls.map Acquiring.reservation

/-- The keys a step takes out of the set although its call has given them back before. -/
def Acquiring.givesBackAgain : Acquiring κ → Outcome κ → Finset κ
  | handling keys true true _ _, .returns => keys.toFinset
  | _, _ => ∅

def AuthorityLease.givesBackAgain (lease : AuthorityLease κ) (j : Nat) : Finset κ :=
  if lease.givenBack && lease.releasing[j]? = some .closed then lease.registryKeys.toFinset else ∅

def Registry.givesBackAgain (registry : Registry κ) : Event κ → Finset κ
  | .proceed i outcome =>
    match registry.calls[i]? with
    | some call => call.givesBackAgain outcome
    | none => ∅
  | .releasing i j _ =>
    match registry.calls[i]? with
    | some (.leased lease) => lease.givesBackAgain j
    | _ => ∅
  | .acquire _ _ | .release _ => ∅

/-- The step is a second release of keys of which another call has reserved one. -/
def Registry.Steals (registry : Registry κ) (event : Event κ) : Prop :=
  ∃ part ∈ registry.reservations, ∃ k ∈ part, k ∈ registry.givesBackAgain event

instance (registry : Registry κ) (event : Event κ) : Decidable (registry.Steals event) :=
  inferInstanceAs (Decidable (∃ part ∈ registry.reservations, ∃ k ∈ part, _))

/-! ## What one step does -/

section

variable {held held' : Finset κ} {keys keys' additions : List κ}

theorem reserve_some (h : reserve held keys = some held') :
    held' = held ∪ keys.toFinset ∧ ∀ k ∈ keys, k ∉ held := by
  unfold reserve at h
  split at h
  · cases h
  · rename_i hfree
    simp only [Option.some.injEq] at h
    exact ⟨h.symm, by simpa using hfree⟩

theorem extendReservation_some (h : extendReservation held keys additions = some (keys', held')) :
    ∃ new : Finset κ, held' = held ∪ new ∧ keys'.toFinset = keys.toFinset ∪ new ∧
      ∀ k ∈ new, k ∉ held := by
  simp only [extendReservation] at h
  split at h
  · cases h
  · rename_i hfree
    simp only [Option.some.injEq, Prod.mk.injEq] at h
    obtain ⟨rfl, rfl⟩ := h
    refine ⟨_, rfl, ?_, by simpa using hfree⟩
    ext k
    simp only [List.mem_toFinset, List.mem_eraseDups, List.mem_append, Finset.mem_union,
      List.mem_filter, decide_eq_true_eq]
    tauto

theorem Acquiring.moves {call call' : Acquiring κ} {outcome : Outcome κ}
    (h : call.advance held outcome = some (held', call')) :
    Adjusts held call.reservation (call.givesBackAgain outcome) held' call'.reservation := by
  unfold Acquiring.advance at h
  split at h
  case h_1 keys _ =>
    split at h
    · rename_i hreserve
      obtain ⟨rfl, hfree⟩ := reserve_some hreserve
      cases h
      rw [show (reserved keys _).reservation = ∅ ∪ keys.toFinset from (Finset.empty_union _).symm]
      exact .take _ fun k hk hheld => absurd hheld (hfree k (List.mem_toFinset.1 hk))
    · cases h
      exact .same
  case h_4 =>
    split at h
    · rename_i hextend
      cases h
      obtain ⟨new, rfl, hkeys, hfree⟩ := extendReservation_some hextend
      simp only [reservation, givesBackAgain, hkeys]
      exact .take new fun k hk hheld => absurd hheld (hfree k hk)
    · cases h
      exact .same
  case h_12 =>
    -- the inner handler's release, the first
    cases h
    exact .give
  case h_15 registryReserved givenBack _ _ =>
    cases h
    cases registryReserved
    · exact .same
    · cases givenBack
      · exact .give
      · exact .drop _ rfl
  case h_16 => cases h
  all_goals cases h; exact .same

theorem AuthorityLease.moves {lease lease' : AuthorityLease κ} {j : Nat} {ok : Bool}
    (h : lease.advance held j ok = some (held', lease')) :
    Adjusts held (Acquiring.leased lease).reservation (lease.givesBackAgain j) held'
      (Acquiring.leased lease').reservation := by
  unfold AuthorityLease.advance at h
  split at h
  case h_4 hstands =>
    -- the one step that runs `_release_registry`
    cases h
    cases hback : lease.givenBack
    · have hagain : lease.givesBackAgain j = ∅ := by simp [givesBackAgain, hback]
      have hkeys : (Acquiring.leased lease).reservation = lease.registryKeys.toFinset := by
        simp [Acquiring.reservation, hback]
      rw [hagain, releaseRegistry, ← hkeys]
      exact .give
    · have hagain : lease.givesBackAgain j = lease.registryKeys.toFinset := by
        simp [givesBackAgain, hback, hstands]
      rw [hagain]
      exact .drop _ (by simp [Acquiring.reservation, hback])
  case h_1 => cases h
  all_goals
    have hagain : lease.givesBackAgain j = ∅ := by simp_all [givesBackAgain]
    rw [hagain]
  case h_5 =>
    cases h
    exact .same
  all_goals
    split at h
    all_goals
      cases h
      exact .same

end

/-! ## What one step of the registry does -/

variable {registry registry' : Registry κ} {event : Event κ} {events : List (Event κ)}

/-- The acquisition that a step belongs to. -/
def Event.call : Event κ → Option Nat
  | acquire _ _ => none
  | proceed i _ | release i | releasing i _ _ => some i

/-- A call is begun, or one call moves. -/
theorem Registry.step_cases (h : registry.step event = some registry') :
    (registry'.held = registry.held ∧ registry'.reservations = registry.reservations ++ [∅] ∧
      registry.givesBackAgain event = ∅) ∨
    ∃ i part part', event.call = some i ∧ registry.reservations[i]? = some part ∧
      Adjusts registry.held part (registry.givesBackAgain event) registry'.held part' ∧
      registry'.reservations = registry.reservations.set i part' := by
  cases event with
  | acquire registryKeys additional =>
    cases h
    refine .inl ⟨rfl, ?_, rfl⟩
    simp only [reservations, List.map_append, List.map_cons, List.map_nil]
    split <;> rfl
  | proceed i outcome =>
    simp only [step, Option.bind_eq_bind, Option.bind_eq_some_iff] at h
    obtain ⟨call, hi, ⟨held, call'⟩, hadvance, h⟩ := h
    cases h
    refine .inr ⟨i, call.reservation, call'.reservation, rfl, ?_, ?_, ?_⟩
    · simp [reservations, hi]
    · simpa only [givesBackAgain, hi] using Acquiring.moves hadvance
    · simp [reservations, List.map_set]
  | release i =>
    simp only [step] at h
    split at h
    · rename_i lease hi
      refine .inr ⟨i, (Acquiring.leased lease).reservation, (Acquiring.leased lease).reservation,
        rfl, by simp [reservations, hi], ?_⟩
      split at h
      · cases h
        refine ⟨.same, ?_⟩
        obtain ⟨hlt, hget⟩ := List.getElem?_eq_some_iff.1 hi
        simp [reservations, ← hget, ← List.map_set]
      · cases h
        exact ⟨.same, by simp [reservations, List.map_set, Acquiring.reservation]⟩
    · cases h
  | releasing i j ok =>
    simp only [step] at h
    split at h
    · rename_i lease hi
      simp only [Option.bind_eq_bind, Option.bind_eq_some_iff] at h
      obtain ⟨⟨held, lease'⟩, hadvance, h⟩ := h
      cases h
      refine .inr ⟨i, (Acquiring.leased lease).reservation, (Acquiring.leased lease').reservation,
        rfl, ?_, ?_, ?_⟩
      · simp [reservations, hi]
      · simpa only [givesBackAgain, hi] using AuthorityLease.moves hadvance
      · simp [reservations, List.map_set]
    · cases h

/-- A second release is a step of the registry. -/
theorem Registry.Steals.step (h : registry.Steals event) : ∃ registry', registry.step event = some registry' := by
  obtain ⟨_, _, k, _, hk⟩ := h
  cases event with
  | acquire => exact ⟨_, rfl⟩
  | release => simp [givesBackAgain] at hk
  | proceed i outcome =>
    simp only [givesBackAgain] at hk
    split at hk
    · rename_i call hi
      unfold Acquiring.givesBackAgain at hk
      split at hk
      · simp [Registry.step, hi, Acquiring.advance]
      · simp at hk
    · simp at hk
  | releasing i j ok =>
    simp only [givesBackAgain] at hk
    split at hk
    · rename_i lease hi
      unfold AuthorityLease.givesBackAgain at hk
      split at hk
      · rename_i hagain
        simp only [Bool.and_eq_true, decide_eq_true_eq] at hagain
        simp [Registry.step, hi, AuthorityLease.advance, hagain.2]
      · simp at hk
    · simp at hk

/-! ## Runs -/

/-- A registered key is reserved by exactly one call, no other key by any; and
a lease that has not given its keys back still has them. -/
structure Registry.Exact (registry : Registry κ) : Prop where
  exclusive : Exclusive registry.held registry.reservations
  disjoint : ∀ (i j : Nat) (lease lease' : AuthorityLease κ),
    registry.calls[i]? = some (.leased lease) → registry.calls[j]? = some (.leased lease') →
    lease.givenBack = false → lease'.givenBack = false →
    ∀ k ∈ lease.registryKeys, k ∈ lease'.registryKeys → i = j
  kept : ∀ lease : AuthorityLease κ, .leased lease ∈ registry.calls → lease.givenBack = false →
    ∀ k ∈ lease.registryKeys, k ∈ registry.held

theorem Registry.exact_iff : registry.Exact ↔ Exclusive registry.held registry.reservations := by
  refine ⟨Exact.exclusive, fun h => ⟨h, ?_, ?_⟩⟩
  · intro i j lease lease' hi hj hlease hlease' k hk hk'
    have hreserved : k ∈ (Acquiring.leased lease).reservation := by
      simpa [Acquiring.reservation, hlease] using hk
    have hreserved' : k ∈ (Acquiring.leased lease').reservation := by
      simpa [Acquiring.reservation, hlease'] using hk'
    exact h.eq_of_mem (by simp [reservations, hi]) (by simp [reservations, hj]) hreserved hreserved'
  · intro lease hlease hback k hk
    obtain ⟨i, hi⟩ := List.mem_iff_getElem?.1 hlease
    have hreserved : k ∈ (Acquiring.leased lease).reservation := by
      simpa [Acquiring.reservation, hback] using hk
    exact h.mem_held (i := i) (by simp [reservations, hi]) hreserved

/-- A step leaves the set exact unless it is a second release of what another has reserved. -/
theorem Registry.step_exact_iff (h : registry.step event = some registry')
    (hexact : Exclusive registry.held registry.reservations) :
    Exclusive registry'.held registry'.reservations ↔ ¬ registry.Steals event := by
  obtain ⟨hheld, hparts, hagain⟩ | ⟨i, part, part', _, hi, hmoves, hparts⟩ := step_cases h
  · rw [hheld, hparts]
    simp [Steals, hagain, hexact.push_empty]
  · rw [hparts, hmoves.exclusive_iff hexact hi]
    simp only [Steals, not_exists, not_and]

/-- What a step does to the keys of others, and what a `release` that raises does. -/
structure Registry.OwnOnly (registry : Registry κ) (event : Event κ) (registry' : Registry κ) :
    Prop where
  removed : ∀ k ∈ registry.held, k ∉ registry'.held → ∀ i part,
    registry.reservations[i]? = some part → (k ∈ part ↔ event.call = some i)
  unconfirmed : ∀ i j ok lease, event = .releasing i j ok →
    registry.calls[i]? = some (.leased lease) →
    (lease.releasing[j]? = some .entered ∧ ¬ (ok ∧ lease.streamOpen) ∨
      lease.releasing[j]? = some .unlocked ∧ ok = false) →
    registry'.held = registry.held ∧ registry'.reservations = registry.reservations

theorem Registry.step_ownOnly (h : registry.step event = some registry')
    (hexact : Exclusive registry.held registry.reservations) (hsteals : ¬ registry.Steals event) :
    registry.OwnOnly event registry' where
  removed := by
    intro k hk hk' i part hi
    obtain ⟨hheld, _⟩ | ⟨actor, mine, part', hactor, hmine, hmoves, _⟩ := step_cases h
    · exact absurd (hheld ▸ hk) hk'
    · have hown : k ∈ mine := by
        refine (hmoves.removed hk hk').resolve_right fun hagain => hsteals ?_
        obtain ⟨j, other, hj, hmem⟩ := hexact.exists_claimant hk
        exact ⟨other, List.mem_of_getElem? hj, k, hmem, hagain⟩
      rw [hactor, Option.some.injEq]
      constructor
      · exact fun hmem => hexact.eq_of_mem hmine hi hown hmem
      · rintro rfl
        rw [hmine, Option.some.injEq] at hi
        exact hi ▸ hown
  unconfirmed := by
    rintro i j ok lease rfl hi hraises
    have hback : ∀ lease' : AuthorityLease κ, lease'.givenBack = lease.givenBack →
        lease'.registryKeys = lease.registryKeys →
        (Registry.reservations ⟨registry.held, registry.calls.set i (.leased lease')⟩) =
          registry.reservations := by
      intro lease' hgiven hkeys
      obtain ⟨hlt, hget⟩ := List.getElem?_eq_some_iff.1 hi
      have hsame : (Acquiring.leased lease').reservation = (Acquiring.leased lease).reservation := by
        simp only [Acquiring.reservation, hgiven, hkeys]
      simp only [reservations, List.map_set, hsame]
      simp [← hget, ← List.map_set]
    simp only [step, hi, Option.bind_eq_bind, Option.bind_eq_some_iff] at h
    obtain ⟨⟨held, lease'⟩, hadvance, h⟩ := h
    cases h
    rcases hraises with ⟨hstands, hnot⟩ | ⟨hstands, rfl⟩
    · have hok : (ok && lease.streamOpen) = false := by simpa using hnot
      simp only [AuthorityLease.advance, hstands, hok, Bool.false_eq_true, if_false,
        Option.some.injEq, Prod.mk.injEq] at hadvance
      obtain ⟨rfl, rfl⟩ := hadvance
      exact ⟨rfl, hback _ rfl rfl⟩
    · simp only [AuthorityLease.advance, hstands, Bool.false_eq_true, if_false,
        Option.some.injEq, Prod.mk.injEq] at hadvance
      obtain ⟨rfl, rfl⟩ := hadvance
      exact ⟨rfl, hback _ rfl rfl⟩

/-- Every state of the run is exact, and every step keeps to its own keys. -/
structure Upholds (events : List (Event κ)) : Prop where
  exact : ∀ done rest registry, events = done ++ rest → Registry.after done = some registry →
    registry.Exact
  ownOnly : ∀ done event rest registry registry', events = done ++ event :: rest →
    Registry.after done = some registry → registry.step event = some registry' →
    registry.OwnOnly event registry'

theorem Registry.after_append (done : List (Event κ)) :
    after (done ++ [event]) = (after done).bind (·.step event) := by
  simp only [after, List.foldlM_append, List.foldlM_cons, List.foldlM_nil]
  cases List.foldlM step empty done with
  | none => rfl
  | some registry => simp

/-- Along a run without such a second release the registry stays exact. -/
theorem Registry.after_exclusive {done : List (Event κ)}
    (hfree : ∀ before event rest registry, done = before ++ event :: rest →
      after before = some registry → ¬ registry.Steals event)
    (h : after done = some registry) : Exclusive registry.held registry.reservations := by
  induction done using List.reverseRecOn generalizing registry with
  | nil =>
    cases h
    intro k
    simp [claimants, reservations, empty]
  | append_singleton before event ih =>
    rw [after_append, Option.bind_eq_some_iff] at h
    obtain ⟨previous, hbefore, hstep⟩ := h
    refine (step_exact_iff hstep (ih (fun b e rest r heq => ?_) hbefore)).2
      (hfree before event [] previous rfl hbefore)
    exact hfree b e (rest ++ [event]) r (by rw [heq]; simp)

/-- The held set is exact along a run, and nobody takes out another's keys, if
and only if no second release finds one of its keys reserved by somebody else. -/
theorem registry_exclusive_iff (events : List (Event κ)) :
    Upholds events ↔ ∀ done event rest registry, events = done ++ event :: rest →
      Registry.after done = some registry → ¬ registry.Steals event := by
  constructor
  · intro h done event rest registry heq hdone hsteals
    obtain ⟨registry', hstep⟩ := hsteals.step
    have hbefore := (h.exact done (event :: rest) registry heq hdone).exclusive
    have hafter : Registry.after (done ++ [event]) = some registry' := by
      rw [Registry.after_append, hdone]
      exact hstep
    have hexact := h.exact (done ++ [event]) rest registry' (by simpa using heq) hafter
    exact (Registry.step_exact_iff hstep hbefore).1 hexact.exclusive hsteals
  · intro hfree
    have hexact : ∀ done rest registry, events = done ++ rest →
        Registry.after done = some registry → Exclusive registry.held registry.reservations := by
      intro done rest registry heq
      refine Registry.after_exclusive fun before event more r hbefore => ?_
      exact hfree before event (more ++ rest) r (by rw [heq, hbefore]; simp)
    refine ⟨fun done rest registry heq hdone =>
      Registry.exact_iff.2 (hexact done rest registry heq hdone), ?_⟩
    intro done event rest registry registry' heq hdone hstep
    exact Registry.step_ownOnly hstep (hexact done (event :: rest) registry heq hdone)
      (hfree done event rest registry heq hdone)

end

/-- The second acquisition reserves the key between the two releases of the
first, and the third one takes it from the live lease. -/
def stolen : List (Event String) :=
  [.acquire ["run"] false, .acquire ["run"] false, .acquire ["run"] false] ++
  [.proceed 0 .returns, .proceed 0 .returns, .proceed 0 (.opens false),
    .proceed 0 (.kernel .contended), .proceed 0 .returns] ++
  [.proceed 1 .returns, .proceed 1 .returns, .proceed 1 (.opens false),
    .proceed 1 (.kernel .succeeds), .proceed 1 .returns] ++
  [.proceed 0 .returns] ++
  [.proceed 2 .returns, .proceed 2 .returns, .proceed 2 (.opens false),
    .proceed 2 (.kernel .succeeds), .proceed 2 .returns]

/-- After the second release the live lease has lost its key; at the end two
live leases share it. -/
theorem second_release_steals :
    (∃ registry, Registry.after (stolen.take 14) = some registry ∧ "run" ∉ registry.held ∧
      claimants registry.reservations "run" = 1) ∧
    ∃ registry lease, Registry.after stolen = some registry ∧ lease.released = false ∧
      registry.calls[1]? = some (.leased lease) ∧ registry.calls[2]? = some (.leased lease) ∧
      "run" ∈ lease.registryKeys :=
  ⟨⟨_, rfl, by decide +kernel, by decide +kernel⟩,
    ⟨_, ⟨["run"], false, true, false, false, []⟩, rfl, rfl, rfl, rfl, by decide⟩⟩

end PokerDeliberation.Authority
