import Mathlib.Logic.Function.Basic
import PokerDeliberation.IsolatedJobs.Models

/-!
# Captured output

`_OutputBudget` keeps what a process writes to its two streams, each up to its
own limit and both together up to a third. The readers hold its lock, so the
chunks of both streams come one after another; a chunk may be cut where a limit
is reached, and what comes after the cut is dropped.
-/

namespace PokerDeliberation.IsolatedJobs

inductive OutputStream where
  | stdout | stderr
  deriving DecidableEq, Repr

structure OutputLimits where
  stdoutLimit : Nat
  stderrLimit : Nat
  combinedLimit : Nat

def OutputLimits.streamLimit (limits : OutputLimits) : OutputStream → Nat
  | .stdout => limits.stdoutLimit
  | .stderr => limits.stderrLimit

structure OutputBudget where
  buffers : OutputStream → List UInt8
  overflow : Option JobFailureCode

def OutputBudget.empty : OutputBudget := ⟨fun _ => [], none⟩

def OutputBudget.combined (budget : OutputBudget) : Nat :=
  (budget.buffers .stdout).length + (budget.buffers .stderr).length

variable (limits : OutputLimits)

def streamCode : OutputStream → JobFailureCode
  | .stdout => .stdoutLimit
  | .stderr => .stderrLimit

def streamRemaining (budget : OutputBudget) (stream : OutputStream) : Nat :=
  limits.streamLimit stream - (budget.buffers stream).length

def combinedRemaining (budget : OutputBudget) : Nat := limits.combinedLimit - budget.combined

/-- How much of a chunk is kept. -/
def keep (budget : OutputBudget) (stream : OutputStream) (chunk : List UInt8) : Nat :=
  min chunk.length (min (streamRemaining limits budget stream) (combinedRemaining limits budget))

/-- The cause a chunk that is cut is recorded with, if no other is. -/
def overflowOf (budget : OutputBudget) (stream : OutputStream) (chunk : List UInt8) :
    Option JobFailureCode :=
  let streamLeft := streamRemaining limits budget stream
  let combinedLeft := combinedRemaining limits budget
  if streamLeft < chunk.length ∨ combinedLeft < chunk.length then
    if combinedLeft < chunk.length ∧ (¬ streamLeft < chunk.length ∨ combinedLeft ≤ streamLeft) then
      some .combinedOutputLimit
    else some (streamCode stream)
  else none

/-- `_OutputBudget.consume`. -/
def consume (budget : OutputBudget) (stream : OutputStream) (chunk : List UInt8) : OutputBudget where
  buffers := Function.update budget.buffers stream
    (budget.buffers stream ++ chunk.take (keep limits budget stream chunk))
  overflow :=
    match budget.overflow with
    | some code => some code
    | none => overflowOf limits budget stream chunk

abbrev Chunk := OutputStream × List UInt8

def capture (chunks : List Chunk) : OutputBudget :=
  chunks.foldl (fun budget chunk => consume limits budget chunk.1 chunk.2) .empty

/-! ## What is kept of what is seen -/

/-- The bytes of a stream, whether kept or not. -/
def bytesSeen (chunks : List Chunk) (stream : OutputStream) : List UInt8 :=
  (chunks.filter fun chunk => chunk.1 = stream).flatMap Prod.snd

def combinedSeen (chunks : List Chunk) : Nat :=
  (bytesSeen chunks .stdout).length + (bytesSeen chunks .stderr).length

/-- More bytes were seen than the limit the cause names. -/
def Exceeded (chunks : List Chunk) : JobFailureCode → Prop
  | .stdoutLimit => limits.stdoutLimit < (bytesSeen chunks .stdout).length
  | .stderrLimit => limits.stderrLimit < (bytesSeen chunks .stderr).length
  | .combinedOutputLimit => limits.combinedLimit < combinedSeen chunks
  | _ => False

structure Captured (chunks : List Chunk) (budget : OutputBudget) : Prop where
  kept : ∀ stream, budget.buffers stream <+: bytesSeen chunks stream
  streamLimit : ∀ stream, (budget.buffers stream).length ≤ limits.streamLimit stream
  combinedLimit : budget.combined ≤ limits.combinedLimit
  /-- A stream that lost bytes has no room left, so it takes no later ones. -/
  full : ∀ stream, budget.buffers stream = bytesSeen chunks stream ∨
    streamRemaining limits budget stream = 0 ∨ combinedRemaining limits budget = 0
  overflow : budget.overflow = none ↔ ∀ stream, budget.buffers stream = bytesSeen chunks stream
  cause : ∀ code, budget.overflow = some code → Exceeded limits chunks code

variable {limits} {budget : OutputBudget} {chunks more : List Chunk} {stream other : OutputStream}
  {chunk : List UInt8} {code : JobFailureCode}

theorem bytesSeen_concat_self :
    bytesSeen (chunks ++ [(stream, chunk)]) stream = bytesSeen chunks stream ++ chunk := by
  simp [bytesSeen, List.filter_append]

theorem bytesSeen_concat_of_ne (h : other ≠ stream) :
    bytesSeen (chunks ++ [(stream, chunk)]) other = bytesSeen chunks other := by
  simp [bytesSeen, List.filter_append, h.symm]

theorem keep_le : keep limits budget stream chunk ≤ chunk.length := Nat.min_le_left ..

theorem consume_self :
    (consume limits budget stream chunk).buffers stream =
      budget.buffers stream ++ chunk.take (keep limits budget stream chunk) :=
  Function.update_self ..

theorem consume_of_ne (h : other ≠ stream) :
    (consume limits budget stream chunk).buffers other = budget.buffers other :=
  Function.update_of_ne h ..

theorem length_consume (limits : OutputLimits) (budget : OutputBudget) (stream : OutputStream)
    (chunk : List UInt8) :
    ((consume limits budget stream chunk).buffers stream).length =
      (budget.buffers stream).length + keep limits budget stream chunk := by
  rw [consume_self, List.length_append, List.length_take, Nat.min_eq_left keep_le]

theorem combined_consume (limits : OutputLimits) (budget : OutputBudget) (stream : OutputStream)
    (chunk : List UInt8) :
    (consume limits budget stream chunk).combined =
      budget.combined + keep limits budget stream chunk := by
  have hself := length_consume limits budget stream chunk
  unfold OutputBudget.combined
  cases stream with
  | stdout =>
    have hother : (consume limits budget .stdout chunk).buffers .stderr = budget.buffers .stderr :=
      consume_of_ne (by simp)
    rw [hother]
    omega
  | stderr =>
    have hother : (consume limits budget .stderr chunk).buffers .stdout = budget.buffers .stdout :=
      consume_of_ne (by simp)
    rw [hother]
    omega

/-- A chunk is kept whole exactly if no cause is recorded for it. -/
theorem overflowOf_eq_none :
    overflowOf limits budget stream chunk = none ↔
      keep limits budget stream chunk = chunk.length := by
  simp only [overflowOf, keep]
  split
  · split <;> simp only [reduceCtorEq, false_iff] <;> omega
  · simp only [true_iff]
    omega

/-- The cause recorded is one of the limits the chunk goes over. -/
theorem overflowOf_eq_some (h : overflowOf limits budget stream chunk = some code) :
    (code = .combinedOutputLimit ∧ combinedRemaining limits budget < chunk.length) ∨
      (code = streamCode stream ∧ streamRemaining limits budget stream < chunk.length) := by
  revert h
  simp only [overflowOf]
  split
  · split
    next hcombined => exact fun h => .inl ⟨(Option.some.inj h).symm, hcombined.1⟩
    next hcombined =>
      refine fun h => .inr ⟨(Option.some.inj h).symm, ?_⟩
      omega
  · simp

/-- After a cut one of the limits is reached. -/
theorem full_of_cut (h : keep limits budget stream chunk ≠ chunk.length) :
    streamRemaining limits (consume limits budget stream chunk) stream = 0 ∨
      combinedRemaining limits (consume limits budget stream chunk) = 0 := by
  have hself := length_consume limits budget stream chunk
  have hcombined := combined_consume limits budget stream chunk
  unfold streamRemaining combinedRemaining
  simp only [keep, streamRemaining, combinedRemaining] at h hself hcombined
  omega

/-- A limit that is reached stays reached, and nothing more is kept. -/
theorem keep_of_full
    (h : streamRemaining limits budget stream = 0 ∨ combinedRemaining limits budget = 0) :
    keep limits budget stream chunk = 0 := by
  unfold keep
  omega

theorem combinedRemaining_consume (limits : OutputLimits) (budget : OutputBudget)
    (stream : OutputStream) (chunk : List UInt8) :
    combinedRemaining limits (consume limits budget stream chunk) ≤
      combinedRemaining limits budget := by
  have := combined_consume limits budget stream chunk
  unfold combinedRemaining
  omega

/-! ## The step -/

theorem Captured.eq_of_length (h : Captured limits chunks budget)
    (hlength : (bytesSeen chunks stream).length ≤ (budget.buffers stream).length) :
    budget.buffers stream = bytesSeen chunks stream :=
  (h.kept stream).eq_of_length_le hlength

theorem Captured.consume_kept (h : Captured limits chunks budget) (other : OutputStream) :
    (consume limits budget stream chunk).buffers other <+:
      bytesSeen (chunks ++ [(stream, chunk)]) other := by
  by_cases hother : other = stream
  · subst hother
    rw [consume_self, bytesSeen_concat_self]
    rcases h.full other with heq | hfull
    · rw [heq]
      exact (List.prefix_append_right_inj _).2 (List.take_prefix ..)
    · rw [keep_of_full hfull, List.take_zero, List.append_nil]
      exact (h.kept other).trans (List.prefix_append ..)
  · rw [consume_of_ne hother, bytesSeen_concat_of_ne hother]
    exact h.kept other

theorem Captured.consume_full (h : Captured limits chunks budget) (other : OutputStream) :
    (consume limits budget stream chunk).buffers other =
        bytesSeen (chunks ++ [(stream, chunk)]) other ∨
      streamRemaining limits (consume limits budget stream chunk) other = 0 ∨
      combinedRemaining limits (consume limits budget stream chunk) = 0 := by
  by_cases hother : other = stream
  · subst hother
    by_cases hcut : keep limits budget other chunk = chunk.length
    · rcases h.full other with heq | hfull
      · left
        rw [consume_self, bytesSeen_concat_self, heq, hcut, List.take_length]
      · have hlength := length_consume limits budget other chunk
        have hcombined := combinedRemaining_consume limits budget other chunk
        unfold streamRemaining at hfull ⊢
        omega
    · exact .inr (full_of_cut hcut)
  · have hcombined := combinedRemaining_consume limits budget stream chunk
    rw [consume_of_ne hother, bytesSeen_concat_of_ne hother, streamRemaining,
      consume_of_ne hother, ← streamRemaining]
    rcases h.full other with heq | hstream | hcombined'
    · exact .inl heq
    · exact .inr (.inl hstream)
    · exact .inr (.inr (by omega))

/-- No cause is recorded for the next chunk either: it is kept whole, and so was all before. -/
theorem Captured.consume_overflow (h : Captured limits chunks budget) :
    (consume limits budget stream chunk).overflow = none ↔
      ∀ other, (consume limits budget stream chunk).buffers other =
        bytesSeen (chunks ++ [(stream, chunk)]) other := by
  have hsplit : (consume limits budget stream chunk).overflow = none ↔
      budget.overflow = none ∧ keep limits budget stream chunk = chunk.length := by
    rw [← overflowOf_eq_none, consume]
    cases budget.overflow <;> simp
  rw [hsplit, h.overflow]
  constructor
  · rintro ⟨hkept, hwhole⟩ other
    by_cases hother : other = stream
    · subst hother
      rw [consume_self, bytesSeen_concat_self, hkept, hwhole, List.take_length]
    · rw [consume_of_ne hother, bytesSeen_concat_of_ne hother, hkept]
  · intro hkept
    have hlength := length_consume limits budget stream chunk
    rw [hkept, bytesSeen_concat_self, List.length_append] at hlength
    have hle := (h.kept stream).length_le
    have hkeep : keep limits budget stream chunk ≤ chunk.length := keep_le
    refine ⟨fun other => ?_, by omega⟩
    by_cases hother : other = stream
    · subst hother
      exact h.eq_of_length (by omega)
    · rw [← consume_of_ne hother, hkept, bytesSeen_concat_of_ne hother]

theorem Exceeded.concat (h : Exceeded limits chunks code) :
    Exceeded limits (chunks ++ [(stream, chunk)]) code := by
  have hle : ∀ other, (bytesSeen chunks other).length ≤
      (bytesSeen (chunks ++ [(stream, chunk)]) other).length := by
    intro other
    by_cases hother : other = stream
    · subst hother
      rw [bytesSeen_concat_self, List.length_append]
      exact Nat.le_add_right ..
    · rw [bytesSeen_concat_of_ne hother]
  have hstdout := hle .stdout
  have hstderr := hle .stderr
  cases code <;> simp only [Exceeded, combinedSeen] at h ⊢ <;> omega

/-- The first chunk that is cut goes over the limit its cause names. -/
theorem Captured.exceeded (h : Captured limits chunks budget)
    (hkept : ∀ other, budget.buffers other = bytesSeen chunks other)
    (hcode : overflowOf limits budget stream chunk = some code) :
    Exceeded limits (chunks ++ [(stream, chunk)]) code := by
  have hcombined : combinedSeen (chunks ++ [(stream, chunk)]) =
      budget.combined + chunk.length := by
    unfold combinedSeen OutputBudget.combined
    rw [hkept, hkept]
    cases stream with
    | stdout =>
      rw [bytesSeen_concat_self, bytesSeen_concat_of_ne (by simp), List.length_append]
      omega
    | stderr =>
      rw [bytesSeen_concat_self, bytesSeen_concat_of_ne (by simp), List.length_append]
      omega
  have hstream : (bytesSeen (chunks ++ [(stream, chunk)]) stream).length =
      (budget.buffers stream).length + chunk.length := by
    rw [bytesSeen_concat_self, hkept, List.length_append]
  have hstreamLimit := h.streamLimit stream
  have hcombinedLimit := h.combinedLimit
  rcases overflowOf_eq_some hcode with ⟨rfl, hover⟩ | ⟨rfl, hover⟩
  · rw [combinedRemaining] at hover
    show limits.combinedLimit < combinedSeen _
    omega
  · rw [streamRemaining] at hover
    have hover : limits.streamLimit stream <
        (bytesSeen (chunks ++ [(stream, chunk)]) stream).length := by omega
    cases stream with
    | stdout => exact hover
    | stderr => exact hover

theorem Captured.consume (h : Captured limits chunks budget) :
    Captured limits (chunks ++ [(stream, chunk)]) (consume limits budget stream chunk) where
  kept := h.consume_kept
  streamLimit other := by
    by_cases hother : other = stream
    · subst hother
      have hlimit := h.streamLimit other
      rw [length_consume, keep, streamRemaining]
      omega
    · rw [consume_of_ne hother]
      exact h.streamLimit other
  combinedLimit := by
    have hlimit := h.combinedLimit
    rw [combined_consume, keep, combinedRemaining]
    omega
  full := h.consume_full
  overflow := h.consume_overflow
  cause code hcode := by
    rw [IsolatedJobs.consume] at hcode
    cases hoverflow : budget.overflow with
    | some first =>
      rw [hoverflow, Option.some.injEq] at hcode
      exact (h.cause code (hcode ▸ hoverflow)).concat
    | none =>
      rw [hoverflow] at hcode
      exact h.exceeded (h.overflow.1 hoverflow) hcode

/-! ## Every interleaving -/

theorem captured_empty : Captured limits [] .empty where
  kept _ := List.nil_prefix
  streamLimit _ := Nat.zero_le _
  combinedLimit := Nat.zero_le _
  full _ := .inl rfl
  overflow := by simp [OutputBudget.empty, bytesSeen]
  cause _ hcode := by simp [OutputBudget.empty] at hcode

theorem captured_capture (chunks : List Chunk) : Captured limits chunks (capture limits chunks) := by
  induction chunks using List.reverseRecOn with
  | nil => exact captured_empty
  | append_singleton chunks last ih =>
    rw [capture, List.foldl_concat]
    exact ih.consume

/-- A recorded cause stays. -/
theorem capture_overflow (h : (capture limits chunks).overflow = some code) :
    (capture limits (chunks ++ more)).overflow = some code := by
  induction more using List.reverseRecOn with
  | nil => rwa [List.append_nil]
  | append_singleton more last ih =>
    have hstep : ∀ budget : OutputBudget, budget.overflow = some code →
        (consume limits budget last.1 last.2).overflow = some code := by
      intro budget hbudget
      simp only [IsolatedJobs.consume, hbudget]
    rw [← List.append_assoc, capture, List.foldl_concat]
    exact hstep _ ih

/-- Whatever chunks come on the two streams in whatever order, each buffer is the
first part of its stream within the stream's limit, both together are within the
combined limit, a cause is recorded exactly if something was lost, and the first
one recorded stays and names a limit that what was seen is more than. -/
theorem capture_sound (limits : OutputLimits) (chunks : List Chunk) :
    (∀ stream, (capture limits chunks).buffers stream <+: bytesSeen chunks stream ∧
      ((capture limits chunks).buffers stream).length ≤ limits.streamLimit stream) ∧
    (capture limits chunks).combined ≤ limits.combinedLimit ∧
    ((capture limits chunks).overflow = none ↔
      ∀ stream, (capture limits chunks).buffers stream = bytesSeen chunks stream) ∧
    ∀ code, (capture limits chunks).overflow = some code → Exceeded limits chunks code ∧
      ∀ more, (capture limits (chunks ++ more)).overflow = some code := by
  have h : Captured limits chunks _ := captured_capture chunks
  exact ⟨fun stream => ⟨h.kept stream, h.streamLimit stream⟩, h.combinedLimit, h.overflow,
    fun code hcode => ⟨h.cause code hcode, fun _ => capture_overflow hcode⟩⟩

end PokerDeliberation.IsolatedJobs
