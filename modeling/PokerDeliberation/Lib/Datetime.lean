import PokerDeliberation.Lib.Utf8
import Mathlib.Algebra.GroupWithZero.Nat
import Mathlib.Data.Int.Basic
import Mathlib.Data.List.Lex
import Mathlib.Tactic.Common

/-!
# Datetimes

A `datetime` of the standard library: a wall-clock reading, the fold of a
repeated hour, and a zone whose offset depends on both. Two datetimes of one
zone compare by the wall; of different zones by the instant. Adding days moves
the wall and keeps the zone, whatever its offset is there.

A moment is a datetime by its calendar fields and the offset of its zone, if it
has one. Of one offset, moments are ordered as their fields are, and told apart
by their `isoformat`.
-/

namespace PokerDeliberation.Lib

/-! ## Wall clocks and zones -/

/-- Microseconds of a day. -/
def dayUs : Nat := 86400000000

/-- The first wall reading past `datetime.max`, from the start of year 1. -/
def wallEnd : Nat := 3652059 * dayUs

/-- `tzinfo.utcoffset`, at a wall reading and its fold. -/
class Tzinfo (Zone : Type) where
  utcoffset : Zone → Nat → Bool → Option Int

structure Datetime (Zone : Type) where
  wall : Nat
  fold : Bool := false
  zone : Option Zone
  inRange : wall < wallEnd
  deriving DecidableEq, Repr

namespace Datetime

variable {Zone : Type} [Tzinfo Zone]

def utcoffset (d : Datetime Zone) : Option Int :=
  d.zone.bind fun z => Tzinfo.utcoffset z d.wall d.fold

/-- Aware, and with offset zero at this reading. -/
def IsUtc (d : Datetime Zone) : Prop := d.utcoffset = some 0

instance (d : Datetime Zone) : Decidable d.IsUtc := inferInstanceAs (Decidable (_ = _))

/-- The offset does not depend on the fold (the exception of equality between zones). -/
def foldFree (d : Datetime Zone) : Bool :=
  { d with fold := !d.fold }.utcoffset = d.utcoffset

variable [DecidableEq Zone]

/-- `self < other`; `none` where a naive and an aware datetime cannot be compared. -/
def lt (a b : Datetime Zone) : Option Bool :=
  if a.zone = b.zone then some (a.wall < b.wall)
  else match a.utcoffset, b.utcoffset with
    | none, none => some (a.wall < b.wall)
    | some p, some q => some ((a.wall : Int) - p < b.wall - q)
    | _, _ => none

/-- `self >= other`. -/
def ge (a b : Datetime Zone) : Option Bool := (a.lt b).map not

/-- `self == other`. -/
def eq (a b : Datetime Zone) : Bool :=
  if a.zone = b.zone then a.wall = b.wall
  else match a.utcoffset, b.utcoffset with
    | none, none => a.wall = b.wall
    | some p, some q => (a.wall : Int) - p = b.wall - q && a.foldFree && b.foldFree
    | _, _ => false

omit [Tzinfo Zone] [DecidableEq Zone] in
/-- `self + timedelta(days=n)`; `none` on overflow. -/
def addDays (d : Datetime Zone) (n : Nat) : Option (Datetime Zone) :=
  if h : d.wall + n * dayUs < wallEnd then
    some { wall := d.wall + n * dayUs, zone := d.zone, inRange := h }
  else none

/-! ## Comparing in UTC -/

variable {a b c : Datetime Zone} {n : Nat}

/-- Datetimes of offset zero compare by the wall. -/
theorem lt_of_isUtc (ha : a.IsUtc) (hb : b.IsUtc) : a.lt b = some (a.wall < b.wall : Bool) := by
  unfold lt
  split
  · rfl
  · rw [IsUtc] at ha hb
    rw [ha, hb]
    simp

theorem ge_of_isUtc (ha : a.IsUtc) (hb : b.IsUtc) : a.ge b = some (b.wall ≤ a.wall : Bool) := by
  rw [ge, lt_of_isUtc ha hb]
  by_cases h : a.wall < b.wall
  · simp [h, Nat.not_le.2 h]
  · simp [h, Nat.not_lt.1 h]

@[simp] theorem eq_self (a : Datetime Zone) : a.eq a = true := by
  simp [eq]

omit [Tzinfo Zone] [DecidableEq Zone] in
theorem addDays_wall (h : a.addDays n = some b) : b.wall = a.wall + n * dayUs := by
  unfold addDays at h
  split at h
  · cases h
    rfl
  · cases h

omit [Tzinfo Zone] [DecidableEq Zone] in
theorem addDays_zone (h : a.addDays n = some b) : b.zone = a.zone := by
  unfold addDays at h
  split at h
  · cases h
    rfl
  · cases h

end Datetime

end PokerDeliberation.Lib

namespace PokerDeliberation.Lib

/-! ## ISO texts -/

/-- `n` in `width` digits. -/
def zeroPadded : Nat → Nat → Text
  | 0, _ => []
  | width + 1, n => zeroPadded width (n / 10) ++ [0x30 + n % 10]

@[simp] theorem length_zeroPadded (width n : Nat) : (zeroPadded width n).length = width := by
  induction width generalizing n with
  | zero => rfl
  | succ width ih => rw [zeroPadded, List.length_append, ih, List.length_singleton]

theorem zeroPadded_range (width n : Nat) : ∀ c ∈ zeroPadded width n, 0x30 ≤ c ∧ c < 0x3a := by
  induction width generalizing n with
  | zero => simp [zeroPadded]
  | succ width ih =>
    intro c hc
    rw [zeroPadded, List.mem_append, List.mem_singleton] at hc
    rcases hc with hc | rfl
    · exact ih _ c hc
    · omega

theorem zeroPadded_injective {width m n : Nat} (hm : m < 10 ^ width) (hn : n < 10 ^ width)
    (h : zeroPadded width m = zeroPadded width n) : m = n := by
  induction width generalizing m n with
  | zero => omega
  | succ width ih =>
    obtain ⟨hinit, hlast⟩ := List.append_inj' h rfl
    have hdigit : 0x30 + m % 10 = 0x30 + n % 10 := List.singleton_injective hlast
    have hrest : m / 10 = n / 10 := by
      refine ih ?_ ?_ hinit <;> rw [Nat.div_lt_iff_lt_mul (by decide)] <;> rwa [← Nat.pow_succ]
    omega

/-- Texts that start with numbers of one width. -/
theorem zeroPadded_append {width m n : Nat} {s t : Text} (hm : m < 10 ^ width) (hn : n < 10 ^ width)
    (h : zeroPadded width m ++ s = zeroPadded width n ++ t) : m = n ∧ s = t := by
  obtain ⟨hnumber, hrest⟩ := List.append_inj h (by simp)
  exact ⟨zeroPadded_injective hm hn hnumber, hrest⟩

/-! ## Datetimes -/

def DASH : Nat := 0x2d

def COLON_SIGN : Nat := 0x3a

def DOT_SIGN : Nat := 0x2e

def PLUS : Nat := 0x2b

/-- `datetime`: the calendar fields, and the offset in microseconds if the datetime is aware. -/
structure Moment where
  year : Nat
  month : Nat
  day : Nat
  hour : Nat
  minute : Nat
  second : Nat
  microsecond : Nat
  offset : Option Int
  inRange : year < 10000 ∧ month < 13 ∧ day < 32 ∧ hour < 24 ∧ minute < 60 ∧ second < 60 ∧
    microsecond < 1000000
  deriving DecidableEq

namespace Moment

/-- Aware, and with offset zero. -/
def IsUtc (d : Moment) : Prop := d.offset = some 0

instance (d : Moment) : Decidable d.IsUtc := inferInstanceAs (Decidable (_ = _))

def fields (d : Moment) : List Nat :=
  [d.year, d.month, d.day, d.hour, d.minute, d.second, d.microsecond]

/-- `a < b`, of one offset. -/
def Before (a b : Moment) : Prop := a.fields < b.fields

instance (a b : Moment) : Decidable (a.Before b) := inferInstanceAs (Decidable (_ < _))

/-- A fraction of a second, in microseconds. -/
def fractionText (n : Nat) : Text := if n = 0 then [] else DOT_SIGN :: zeroPadded 6 n

def wallText (d : Moment) : Text :=
  zeroPadded 4 d.year ++ DASH :: (zeroPadded 2 d.month ++ DASH :: (zeroPadded 2 d.day ++ 0x54 ::
    (zeroPadded 2 d.hour ++ COLON_SIGN :: (zeroPadded 2 d.minute ++ COLON_SIGN ::
      (zeroPadded 2 d.second ++ fractionText d.microsecond)))))

/-- An offset of `n` microseconds, seconds and their fraction only if they are not zero. -/
def offsetText (offset : Int) : Text :=
  let n := offset.natAbs
  (if offset < 0 then DASH else PLUS) :: (zeroPadded 2 (n / 3600000000) ++ COLON_SIGN ::
    (zeroPadded 2 (n / 60000000 % 60) ++
      if n % 60000000 = 0 then []
      else COLON_SIGN :: (zeroPadded 2 (n / 1000000 % 60) ++ fractionText (n % 1000000))))

def isoformat (d : Moment) : Text :=
  d.wallText ++ match d.offset with
    | some offset => offsetText offset
    | none => []

variable {a b c : Moment}

theorem ext_of_fields (hfields : a.fields = b.fields) (hoffset : a.offset = b.offset) : a = b := by
  obtain ⟨y, mo, d, h, mi, s, us, offset, _⟩ := a
  obtain ⟨y', mo', d', h', mi', s', us', offset', _⟩ := b
  simp only [fields, List.cons.injEq, and_true] at hfields
  obtain ⟨rfl, rfl, rfl, rfl, rfl, rfl, rfl⟩ := hfields
  cases hoffset
  rfl

theorem fractionText_injective {m n : Nat} (hm : m < 1000000) (hn : n < 1000000)
    (h : fractionText m = fractionText n) : m = n := by
  unfold fractionText at h
  split at h <;> split at h
  · omega
  · cases h
  · cases h
  · have hdigits : zeroPadded 6 m = zeroPadded 6 n := (List.cons.inj h).2
    exact zeroPadded_injective hm hn hdigits

theorem wallText_injective (h : a.wallText = b.wallText) : a.fields = b.fields := by
  obtain ⟨hy, hmo, hd, hh, hmi, hs, hus⟩ := a.inRange
  obtain ⟨hy', hmo', hd', hh', hmi', hs', hus'⟩ := b.inRange
  obtain ⟨year, h⟩ := zeroPadded_append (by omega) (by omega) h
  obtain ⟨month, h⟩ := zeroPadded_append (by omega) (by omega) (List.cons.inj h).2
  obtain ⟨day, h⟩ := zeroPadded_append (by omega) (by omega) (List.cons.inj h).2
  obtain ⟨hour, h⟩ := zeroPadded_append (by omega) (by omega) (List.cons.inj h).2
  obtain ⟨minute, h⟩ := zeroPadded_append (by omega) (by omega) (List.cons.inj h).2
  obtain ⟨second, h⟩ := zeroPadded_append (by omega) (by omega) (List.cons.inj h).2
  simp only [fields, year, month, day, hour, minute, second, fractionText_injective hus hus' h]

end Moment

/-! ## Replacing -/

/-- `t.replace(old, new)`, of which the first `skip` characters are already replaced. -/
def replaceFrom (old new : Text) : Nat → Text → Text
  | _, [] => []
  | skip + 1, _ :: t => replaceFrom old new skip t
  | 0, c :: t =>
    if old <+: c :: t then new ++ replaceFrom old new (old.length - 1) t
    else c :: replaceFrom old new 0 t

/-- `t.replace(old, new)`. -/
def replace (old new t : Text) : Text := replaceFrom old new 0 t

/-- Nothing is replaced where the first character of `old` does not occur. -/
theorem replace_append {first : Nat} {old new s t : Text} (h : first ∉ s) :
    replace (first :: old) new (s ++ t) = s ++ replace (first :: old) new t := by
  induction s with
  | nil => rfl
  | cons c s ih =>
    rw [List.mem_cons, not_or] at h
    have hnot : ¬ first :: old <+: c :: (s ++ t) := by
      rintro ⟨u, hu⟩
      exact h.1 (List.cons.inj hu).1
    have hstep : replace (first :: old) new (c :: (s ++ t)) =
        c :: replace (first :: old) new (s ++ t) := if_neg hnot
    rw [List.cons_append, hstep, ih h.2, List.cons_append]

namespace Moment

variable {a b : Moment}

/-- `self.isoformat().replace("+00:00", "Z")`. -/
def isoText (d : Moment) : Text := replace (text "+00:00") (text "Z") d.isoformat

theorem wallText_no_plus (a : Moment) : PLUS ∉ a.wallText := by
  have hpad : ∀ width n, PLUS ∉ zeroPadded width n := fun width n h => by
    have hrange := zeroPadded_range width n _ h
    simp only [PLUS] at hrange
    omega
  have hfraction : ∀ n, PLUS ∉ fractionText n := by
    intro n h
    unfold fractionText at h
    split at h
    · cases h
    · rcases List.mem_cons.1 h with h | h
      · cases h
      · exact hpad 6 n h
  simp only [wallText, List.mem_append, List.mem_cons, not_or]
  exact ⟨hpad _ _, by decide, hpad _ _, by decide, hpad _ _, by decide, hpad _ _, by decide,
    hpad _ _, by decide, hpad _ _, hfraction _⟩

/-- In UTC, the offset is written as a letter. -/
theorem isoText_utc (h : a.IsUtc) : a.isoText = a.wallText ++ text "Z" := by
  have hplus : text "+00:00" = PLUS :: text "00:00" := rfl
  rw [IsUtc] at h
  simp only [isoText, isoformat, h, hplus]
  rw [replace_append a.wallText_no_plus]
  rfl

theorem isoText_injective (ha : a.IsUtc) (hb : b.IsUtc) (h : a.isoText = b.isoText) : a = b := by
  rw [isoText_utc ha, isoText_utc hb] at h
  exact ext_of_fields (wallText_injective (List.append_cancel_right h)) (ha.trans hb.symm)

end Moment

end PokerDeliberation.Lib
