import PokerDeliberation.Lib.Reservations

/-!
# The lock registry

`acquire_authority` reserves its keys in the process-wide set `_HELD_KEYS`,
opens the authority file, tries the kernel lock and returns a lease;
`AuthorityLease.release` undoes the kernel lock and gives the keys back. A
`Registry` is the set with every call made so far, each standing at one of the
points between two atomic steps. `Registry.step` moves one call on.
-/

namespace PokerDeliberation.Authority

open Lib

/-- Where the boundary of an unavailable lock lies. -/
inductive BoundaryKind where
  | unavailable | write | durability | verification
  deriving DecidableEq, Repr

/-- What a call raises. -/
inductive Raised where
  | lockBusyError (controlChanged : Bool)
  | lockUnavailableError (controlChanged : Bool) (boundaryKind : BoundaryKind)
  | lockReleaseError
  | valueError
  | other
  deriving DecidableEq, Repr

/-- How a kernel lock attempt ends: `OSError`s are told apart by
`_is_lock_contention`. -/
inductive KernelAttempt where
  | succeeds | contended | fails
  deriving DecidableEq, Repr

section

variable {κ : Type} [DecidableEq κ]

/-! ## The guarded sections -/

/-- `_reserve`; `none` is a `LockBusyError`. -/
def reserve (held : Finset κ) (keys : List κ) : Option (Finset κ) :=
  if keys.any (· ∈ held) then none else some (held ∪ keys.toFinset)

/-- `_release_registry`. -/
def releaseRegistry (held : Finset κ) (keys : List κ) : Finset κ := held \ keys.toFinset

/-- `_extend_reservation`. -/
def extendReservation (held : Finset κ) (keys additions : List κ) : Option (List κ × Finset κ) :=
  let combined := (keys ++ additions).eraseDups
  let newKeys := combined.filter (· ∉ keys)
  if newKeys.any (· ∈ held) then none else some (combined, held ∪ newKeys.toFinset)

/-! ## Calls -/

/-- Where a call of `AuthorityLease.release` stands. -/
inductive Releasing where
  /-- Before `_kernel_release`. -/
  | entered
  /-- Before `self.stream.close()`. -/
  | unlocked
  /-- Before `_release_registry(self.registry_keys)`. -/
  | closed
  /-- Before `self.released = True`. -/
  | givenBack
  deriving DecidableEq, Repr

/-- A lease, with the calls of its `release` in progress. `givenBack` says that
one of them has run `_release_registry`. -/
structure AuthorityLease (κ : Type) where
  registryKeys : List κ
  controlChanged : Bool
  streamOpen : Bool
  released : Bool
  givenBack : Bool
  releasing : List Releasing
  deriving DecidableEq, Repr

/-- Where a call of `acquire_authority` stands. -/
inductive Acquiring (κ : Type) where
  /-- Before `_reserve(keys)`. -/
  | entered (keys : List κ) (additional : Bool)
  /-- Reserved; before `prepare()` and the additional keys. -/
  | reserved (keys : List κ) (additional : Bool)
  /-- Before `_open_authority`. -/
  | extended (keys : List κ)
  /-- Before `_kernel_acquire`. -/
  | opened (keys : List κ) (controlChanged : Bool)
  /-- In `except OSError`, before its `_release_registry(keys)`. -/
  | refused (keys : List κ) (controlChanged contended : Bool)
  /-- Before the authority is looked at again and the lease returned. -/
  | locked (keys : List κ) (controlChanged : Bool)
  /-- In an outer handler. `givenBack` says that the inner one has already
  released the keys. -/
  | handling (keys : List κ) (registryReserved givenBack : Bool) (raised : Raised)
      (controlChanged : Bool)
  | raised (raised : Raised)
  | leased (lease : AuthorityLease κ)
  deriving DecidableEq, Repr

/-- What the calling thread finds at the next step of an acquisition. -/
inductive Outcome (κ : Type) where
  | returns
  /-- `additional_registry_keys()` returned. -/
  | adds (additions : List κ)
  /-- `_open_authority` returned. -/
  | opens (controlChanged : Bool)
  | kernel (attempt : KernelAttempt)
  /-- A fault, a callable or `_open_authority` raised. -/
  | raises (raised : Raised)
  deriving DecidableEq, Repr

/-- `raise`, or `raise LockUnavailableError(..) from exc` for what is not a lock error. -/
def Raised.outer (controlChanged : Bool) : Raised → Raised
  | lockBusyError changed => lockBusyError changed
  | lockUnavailableError changed kind => lockUnavailableError changed kind
  | lockReleaseError | valueError | other => lockUnavailableError controlChanged .unavailable

/-- One step of `acquire_authority`. -/
def Acquiring.advance (held : Finset κ) : Acquiring κ → Outcome κ →
    Option (Finset κ × Acquiring κ)
  | entered keys additional, .returns =>
    match reserve held keys with
    | some held' => some (held', reserved keys additional)
    | none => some (held, handling keys false false (.lockBusyError false) false)
  | entered keys _, .raises e => some (held, handling keys false false e false)
  | reserved keys false, .returns => some (held, extended keys)
  | reserved keys true, .adds additions =>
    match extendReservation held keys additions with
    | some (combined, held') => some (held', extended combined)
    | none => some (held, handling keys true false (.lockBusyError false) false)
  | reserved keys _, .raises e => some (held, handling keys true false e false)
  | extended keys, .opens changed => some (held, opened keys changed)
  | extended keys, .raises e => some (held, handling keys true false e false)
  | opened keys changed, .kernel .succeeds => some (held, locked keys changed)
  | opened keys changed, .kernel .contended => some (held, refused keys changed true)
  | opened keys changed, .kernel .fails => some (held, refused keys changed false)
  | opened keys changed, .raises e => some (held, handling keys true false e changed)
  | refused keys changed contended, .returns =>
    let e := if contended then .lockBusyError changed else .lockUnavailableError changed .unavailable
    some (releaseRegistry held keys, handling keys true true e changed)
  | locked keys changed, .returns => some (held, leased ⟨keys, changed, true, false, false, []⟩)
  | locked keys changed, .raises e => some (held, handling keys true false e changed)
  | handling keys registryReserved _ e changed, .returns =>
    some (if registryReserved then releaseRegistry held keys else held, raised (e.outer changed))
  | _, _ => none

/-- One step of the `j`-th call of `release` in progress; `ok` says that it does not raise. -/
def AuthorityLease.advance (held : Finset κ) (lease : AuthorityLease κ) (j : Nat) (ok : Bool) :
    Option (Finset κ × AuthorityLease κ) :=
  -- `with suppress(OSError): self.stream.close()`, then `LockReleaseError`
  let unconfirmed := { lease with streamOpen := false, releasing := lease.releasing.eraseIdx j }
  match lease.releasing[j]? with
  | none => none
  | some .entered =>
    -- a closed stream cannot be unlocked
    if ok && lease.streamOpen then
      some (held, { lease with releasing := lease.releasing.set j .unlocked })
    else
      some (held, unconfirmed)
  | some .unlocked =>
    if ok then
      some (held, { lease with streamOpen := false, releasing := lease.releasing.set j .closed })
    else
      some (held, unconfirmed)
  | some .closed =>
    some (releaseRegistry held lease.registryKeys,
      { lease with givenBack := true, releasing := lease.releasing.set j .givenBack })
  | some .givenBack =>
    some (held, { lease with released := true, releasing := lease.releasing.eraseIdx j })

/-! ## The registry -/

/-- `_HELD_KEYS`, with the calls made so far. -/
structure Registry (κ : Type) where
  held : Finset κ
  calls : List (Acquiring κ)
  deriving DecidableEq

inductive Event (κ : Type) where
  /-- `acquire_authority` is called; `additional` says whether it is given additional keys. -/
  | acquire (registryKeys : List κ) (additional : Bool)
  /-- The `i`-th acquisition goes on. -/
  | proceed (i : Nat) (outcome : Outcome κ)
  /-- `release` is called on the lease of the `i`-th acquisition. -/
  | release (i : Nat)
  /-- The `j`-th call of that lease's `release` goes on. -/
  | releasing (i j : Nat) (ok : Bool)
  deriving DecidableEq, Repr

def Registry.empty : Registry κ := ⟨∅, []⟩

def Registry.step (registry : Registry κ) : Event κ → Option (Registry κ)
  | .acquire registryKeys additional =>
    let keys := registryKeys.eraseDups
    let call := if keys.isEmpty then .raised .valueError else .entered keys additional
    some { registry with calls := registry.calls ++ [call] }
  | .proceed i outcome => do
    let call ← registry.calls[i]?
    let (held, call) ← call.advance registry.held outcome
    return ⟨held, registry.calls.set i call⟩
  | .release i =>
    match registry.calls[i]? with
    | some (.leased lease) =>
      if lease.released then
        some registry
      else
        let lease := { lease with releasing := lease.releasing ++ [.entered] }
        some { registry with calls := registry.calls.set i (.leased lease) }
    | _ => none
  | .releasing i j ok =>
    match registry.calls[i]? with
    | some (.leased lease) => do
      let (held, lease) ← lease.advance registry.held j ok
      return ⟨held, registry.calls.set i (.leased lease)⟩
    | _ => none

/-- The registry after these steps of any threads, in this order. -/
def Registry.after (events : List (Event κ)) : Option (Registry κ) :=
  events.foldlM Registry.step Registry.empty

end

end PokerDeliberation.Authority
