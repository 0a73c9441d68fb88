import Mathlib.Logic.Function.Basic
import Mathlib.Logic.Relation
import Mathlib.Data.Nat.Notation

/-!
# Calls that publish against a version

Any number of calls share one versioned value. A call that reads it is answered
from it, or prepares its successor, which is published while the version is
still the one that was read; after a publication that failed, whether it took
effect or not, the value is read again. However the calls interleave, what is
published is a sequential run, and what is answered is recorded in it.
-/

namespace PokerDeliberation.Lib

/-- What calls `κ` do with values `σ`; a call prepares `π`, and has an outcome `ο` or an error `ε`. -/
structure Optimistic (σ κ π ο ε : Type) where
  version : σ → Nat
  next : π → σ
  outcome : π → ο
  /-- the outcome that is kept for the key of the call -/
  lookup : κ → σ → Option ο
  /-- this very call has this outcome already -/
  Replays : κ → σ → ο → Prop
  Refuses : κ → σ → ε → Prop
  Prepares : κ → σ → π → Prop
  Confirmed : π → Prop
  /-- the answer after a publication that failed -/
  Settles : κ → σ → Except ε ο → Prop

namespace Optimistic

inductive Phase (σ π ο ε : Type) where
  | waiting
  | prepared (read : σ) (successor : π)
  | published (successor : π)
  | lost
  | answered (answer : Except ε ο)
  /-- what was published is not found -/
  | unverified

structure System (ι σ π ο ε : Type) where
  current : σ
  phase : ι → Phase σ π ο ε

section

variable {ι σ κ π ο ε : Type} [DecidableEq ι]

def System.turn (s : System ι σ π ο ε) (i : ι) (phase : Phase σ π ο ε) : System ι σ π ο ε :=
  { s with phase := Function.update s.phase i phase }

variable (protocol : Optimistic σ κ π ο ε) (call : ι → κ)

/-- One call takes a turn. -/
inductive Step : System ι σ π ο ε → System ι σ π ο ε → Prop
  | replay {s : System ι σ π ο ε} {i : ι} {o : ο} (waits : s.phase i = .waiting)
      (replays : protocol.Replays (call i) s.current o) : Step s (s.turn i (.answered (.ok o)))
  | refuse {s : System ι σ π ο ε} {i : ι} {e : ε} (waits : s.phase i = .waiting)
      (refuses : protocol.Refuses (call i) s.current e) : Step s (s.turn i (.answered (.error e)))
  | prepare {s : System ι σ π ο ε} {i : ι} {p : π} (waits : s.phase i = .waiting)
      (prepares : protocol.Prepares (call i) s.current p) : Step s (s.turn i (.prepared s.current p))
  /-- the publication takes effect; it may be lost all the same -/
  | publish {s : System ι σ π ο ε} {i : ι} {read : σ} {p : π} (after : Phase σ π ο ε)
      (ready : s.phase i = .prepared read p)
      (same : protocol.version s.current = protocol.version read) (confirmed : protocol.Confirmed p)
      (answers : after = .published p ∨ after = .lost) :
      Step s { s.turn i after with current := protocol.next p }
  /-- the very same value has been published already -/
  | committed {s : System ι σ π ο ε} {i : ι} {read : σ} {p : π} (ready : s.phase i = .prepared read p)
      (same : s.current = protocol.next p) : Step s (s.turn i (.published p))
  | deny {s : System ι σ π ο ε} {i : ι} {read : σ} {p : π} {e : ε}
      (ready : s.phase i = .prepared read p) : Step s (s.turn i (.answered (.error e)))
  | lose {s : System ι σ π ο ε} {i : ι} {read : σ} {p : π}
      (ready : s.phase i = .prepared read p ∨ s.phase i = .published p) : Step s (s.turn i .lost)
  | verify {s : System ι σ π ο ε} {i : ι} {p : π} (published : s.phase i = .published p)
      (found : protocol.lookup (call i) s.current = some (protocol.outcome p)) :
      Step s (s.turn i (.answered (.ok (protocol.outcome p))))
  | miss {s : System ι σ π ο ε} {i : ι} {p : π} (published : s.phase i = .published p)
      (missed : protocol.lookup (call i) s.current ≠ some (protocol.outcome p)) :
      Step s (s.turn i .unverified)
  | settle {s : System ι σ π ο ε} {i : ι} {answer : Except ε ο} (lost : s.phase i = .lost)
      (settles : protocol.Settles (call i) s.current answer) : Step s (s.turn i (.answered answer))
  | abandon {s : System ι σ π ο ε} {i : ι} {e : ε} (lost : s.phase i = .lost) :
      Step s (s.turn i (.answered (.error e)))

/-- What happens to the value: a call after another publishes a confirmed successor. -/
def Next (s t : σ) : Prop :=
  ∃ k p, protocol.Prepares k s p ∧ protocol.Confirmed p ∧ protocol.next p = t

def Run : σ → σ → Prop := Relation.ReflTransGen protocol.Next

/-- All calls wait at first. -/
def Reaches (start : σ) : System ι σ π ο ε → Prop :=
  Relation.ReflTransGen (protocol.Step call) ⟨start, fun _ => .waiting⟩

end

section

variable {ι σ κ π ο ε : Type}

/-- What the calls keep of sound values. -/
structure Lawful (protocol : Optimistic σ κ π ο ε) (Sound : σ → Prop) : Prop where
  sound : ∀ {s t}, Sound s → protocol.Next s t → Sound t
  version : ∀ {s t}, Sound s → protocol.Next s t → protocol.version t = protocol.version s + 1
  recorded : ∀ {k s p}, Sound s → protocol.Prepares k s p →
    protocol.Replays k (protocol.next p) (protocol.outcome p)
  stays : ∀ {k s t o}, Sound s → protocol.Next s t → protocol.Replays k s o → protocol.Replays k t o
  lookup : ∀ {k s o}, Sound s → protocol.Replays k s o → protocol.lookup k s = some o
  settles : ∀ {k s o}, Sound s → protocol.Settles k s (.ok o) → protocol.Replays k s o

variable {protocol : Optimistic σ κ π ο ε} {Sound : σ → Prop} {s t : σ} {k : κ} {o : ο}

theorem Lawful.run_sound (h : protocol.Lawful Sound) (hs : Sound s) (hrun : protocol.Run s t) : Sound t := by
  induction hrun with
  | refl => exact hs
  | tail _ hnext ih => exact h.sound ih hnext

theorem Lawful.version_le (h : protocol.Lawful Sound) (hs : Sound s) (hrun : protocol.Run s t) :
    protocol.version s ≤ protocol.version t := by
  induction hrun with
  | refl => exact Nat.le_refl _
  | tail hrun hnext ih =>
    rw [h.version (h.run_sound hs hrun) hnext]
    exact Nat.le_trans ih (Nat.le_succ _)

/-- A version is published once. -/
theorem Lawful.eq_of_version (h : protocol.Lawful Sound) (hs : Sound s) (hrun : protocol.Run s t)
    (hversion : protocol.version t = protocol.version s) : t = s := by
  rcases Relation.ReflTransGen.cases_head hrun with heq | ⟨u, hnext, hrun⟩
  · exact heq.symm
  · have hle := h.version_le (h.sound hs hnext) hrun
    rw [h.version hs hnext] at hle
    omega

/-- What holds of a call in each phase. -/
def Holds (protocol : Optimistic σ κ π ο ε) (k : κ) (start current : σ) : Phase σ π ο ε → Prop
  | .prepared read p =>
    protocol.Run start read ∧ protocol.Run read current ∧ protocol.Prepares k read p
  | .published p => protocol.Replays k current (protocol.outcome p)
  | .answered (.ok o) => protocol.Replays k current o
  | .waiting | .lost | .answered (.error _) => True
  | .unverified => False

theorem Lawful.holds_next (h : protocol.Lawful Sound) (hs : Sound s) (hnext : protocol.Next s t)
    {start : σ} {phase : Phase σ π ο ε} (hholds : protocol.Holds k start s phase) :
    protocol.Holds k start t phase := by
  rcases phase with _ | ⟨read, p⟩ | p | _ | (_ | o) | _
  · exact trivial
  · exact ⟨hholds.1, hholds.2.1.tail hnext, hholds.2.2⟩
  · exact h.stays hs hnext hholds
  · exact trivial
  · exact trivial
  · exact h.stays hs hnext hholds
  · exact hholds

variable [DecidableEq ι] {call : ι → κ} {start : σ} {system later : System ι σ π ο ε}

/-- The published values are a run, and each call is where its phase says. -/
structure Invariant (protocol : Optimistic σ κ π ο ε) (call : ι → κ) (start : σ)
    (system : System ι σ π ο ε) : Prop where
  run : protocol.Run start system.current
  holds : ∀ i, protocol.Holds (call i) start system.current (system.phase i)

theorem Invariant.turn (hinv : Invariant protocol call start system) {i : ι} {phase : Phase σ π ο ε}
    (hphase : protocol.Holds (call i) start system.current phase) :
    Invariant protocol call start (system.turn i phase) := by
  refine ⟨hinv.run, fun j => ?_⟩
  change protocol.Holds (call j) start system.current (Function.update system.phase i phase j)
  rw [Function.update_apply]
  split
  next heq => exact heq ▸ hphase
  next => exact hinv.holds j

/-- No turn of a call breaks the invariant. -/
theorem Lawful.step (h : protocol.Lawful Sound) (hstart : Sound start)
    (hinv : Invariant protocol call start system) (hstep : protocol.Step call system later) :
    Invariant protocol call start later := by
  have hcurrent := h.run_sound hstart hinv.run
  cases hstep with
  | replay waits replays => exact hinv.turn replays
  | refuse waits refuses => exact hinv.turn trivial
  | prepare waits prepares => exact hinv.turn ⟨hinv.run, .refl, prepares⟩
  | @publish i read p after ready same confirmed answers =>
    have hholds := hinv.holds i
    rw [ready] at hholds
    obtain ⟨hread, hrun, hprepares⟩ := hholds
    have heq := h.eq_of_version (h.run_sound hstart hread) hrun same
    rw [← heq] at hprepares
    have hnext : protocol.Next system.current (protocol.next p) := ⟨_, p, hprepares, confirmed, rfl⟩
    refine ⟨hinv.run.tail hnext, fun j => ?_⟩
    change protocol.Holds (call j) start (protocol.next p) (Function.update system.phase i after j)
    rw [Function.update_apply]
    split
    next hj =>
      rcases answers with rfl | rfl
      · exact hj ▸ h.recorded hcurrent hprepares
      · exact trivial
    next => exact h.holds_next hcurrent hnext (hinv.holds j)
  | @committed i read p ready same =>
    have hholds := hinv.holds i
    rw [ready] at hholds
    refine hinv.turn ?_
    change protocol.Replays _ system.current _
    rw [same]
    exact h.recorded (h.run_sound hstart hholds.1) hholds.2.2
  | deny ready => exact hinv.turn trivial
  | lose ready => exact hinv.turn trivial
  | @verify i p published found =>
    have hholds := hinv.holds i
    rw [published] at hholds
    exact hinv.turn hholds
  | @miss i p published missed =>
    have hholds := hinv.holds i
    rw [published] at hholds
    exact absurd (h.lookup hcurrent hholds) missed
  | @settle i answer lost settles =>
    refine hinv.turn ?_
    cases answer with
    | error e => exact trivial
    | ok o => exact h.settles hcurrent settles
  | abandon lost => exact hinv.turn trivial

/-- Whatever turns are taken, the value goes on along a run. -/
theorem Lawful.steps (h : protocol.Lawful Sound) (hstart : Sound start)
    (hinv : Invariant protocol call start system)
    (hsteps : Relation.ReflTransGen (protocol.Step call) system later) :
    Invariant protocol call start later ∧ protocol.Run system.current later.current := by
  induction hsteps with
  | refl => exact ⟨hinv, .refl⟩
  | @tail middle later _ hstep ih =>
    obtain ⟨hinv, hrun⟩ := ih
    refine ⟨h.step hstart hinv hstep, hrun.trans ?_⟩
    cases hstep with
    | @publish i read p after ready same confirmed =>
      have hholds := hinv.holds i
      rw [ready] at hholds
      obtain ⟨hread, hbetween, hprepares⟩ := hholds
      have heq := h.eq_of_version (h.run_sound hstart hread) hbetween same
      exact .single ⟨_, p, heq ▸ hprepares, confirmed, rfl⟩
    | _ => exact .refl

theorem Lawful.run_stays (h : protocol.Lawful Sound) (hs : Sound s) (hrun : protocol.Run s t)
    (hreplays : protocol.Replays k s o) : protocol.Replays k t o := by
  induction hrun with
  | refl => exact hreplays
  | tail hrun hnext ih => exact h.stays (h.run_sound hs hrun) hnext ih

theorem Lawful.reaches (h : protocol.Lawful Sound) (hstart : Sound start)
    (hreach : protocol.Reaches call start system) : Invariant protocol call start system := by
  induction hreach with
  | refl => exact ⟨.refl, fun _ => trivial⟩
  | tail _ hstep ih => exact h.step hstart ih hstep

end

end Optimistic

end PokerDeliberation.Lib
