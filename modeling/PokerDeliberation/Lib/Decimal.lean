import Mathlib.Algebra.Group.Nat.Even
import Mathlib.Data.List.DropRight
import Mathlib.Tactic.Ring

/-!
# Decimal digits

The number that a text of decimal digits writes (`decimalValue`), the text of a
number with a fixed count of digits (`padded`), and what dropping the trailing
zeros of a text does to its value.
-/

namespace PokerDeliberation.Lib

/-- The number a text of decimal digits writes. -/
def decimalValue (s : List Char) : Nat := s.foldl (fun n c => 10 * n + (c.toNat - 48)) 0

/-- The last `k` decimal digits of `n`, with leading zeros. -/
def padded : Nat → Nat → List Char
  | 0, _ => []
  | k + 1, n => padded k (n / 10) ++ [Nat.digitChar (n % 10)]

/-- The text without its trailing zeros. -/
def trimZeros (s : List Char) : List Char := s.rdropWhile (· == '0')

@[simp] theorem decimalValue_nil : decimalValue [] = 0 := rfl

@[simp] theorem decimalValue_concat (s : List Char) (c : Char) :
    decimalValue (s ++ [c]) = 10 * decimalValue s + (c.toNat - 48) := by
  simp [decimalValue, List.foldl_append]

theorem decimalValue_zeros (s : List Char) (m : Nat) :
    decimalValue (s ++ List.replicate m '0') = decimalValue s * 10 ^ m := by
  induction m with
  | zero => simp
  | succ m ih =>
    rw [List.replicate_succ', ← List.append_assoc, decimalValue_concat, ih]
    show 10 * (decimalValue s * 10 ^ m) + 0 = _
    ring

theorem digitChar_toNat {d : Nat} (h : d < 10) : (Nat.digitChar d).toNat - 48 = d := by
  revert d
  decide

theorem isDigit_digitChar {d : Nat} (h : d < 10) : (Nat.digitChar d).isDigit = true := by
  revert d
  decide

@[simp] theorem length_padded (k n : Nat) : (padded k n).length = k := by
  induction k generalizing n with
  | zero => rfl
  | succ k ih => simp [padded, ih]

theorem isDigit_of_mem_padded {k n : Nat} {c : Char} (h : c ∈ padded k n) : c.isDigit = true := by
  induction k generalizing n with
  | zero => cases h
  | succ k ih =>
    obtain h | h := List.mem_append.1 h
    · exact ih h
    · rw [List.mem_singleton.1 h]
      exact isDigit_digitChar (Nat.mod_lt _ (by omega))

theorem decimalValue_padded {k n : Nat} (h : n < 10 ^ k) : decimalValue (padded k n) = n := by
  induction k generalizing n with
  | zero =>
    have : n = 0 := by simpa using h
    simp [padded, this]
  | succ k ih =>
    have hdiv : n / 10 < 10 ^ k := by
      rw [Nat.pow_succ] at h
      omega
    rw [padded, decimalValue_concat, ih hdiv, digitChar_toNat (Nat.mod_lt _ (by omega))]
    omega

/-- What a text loses with its trailing zeros. -/
theorem trimZeros_append (s : List Char) :
    ∃ m, s = trimZeros s ++ List.replicate m '0' := by
  induction s using List.reverseRecOn with
  | nil => exact ⟨0, rfl⟩
  | append_singleton s c ih =>
    by_cases h : (c == '0') = true
    · obtain ⟨m, hm⟩ := ih
      refine ⟨m + 1, ?_⟩
      rw [trimZeros, List.rdropWhile_concat_pos (· == '0') s c h, List.replicate_succ',
        ← List.append_assoc, ← trimZeros, ← hm, beq_iff_eq.1 h]
    · exact ⟨0, by rw [trimZeros, List.rdropWhile_concat_neg (· == '0') s c h]; simp⟩

/-- Padding the trimmed text again gives the value of the whole. -/
theorem decimalValue_trimZeros (s : List Char) :
    decimalValue (trimZeros s) * 10 ^ (s.length - (trimZeros s).length) = decimalValue s := by
  obtain ⟨m, hm⟩ := trimZeros_append s
  have hlength : s.length - (trimZeros s).length = m := by
    have := congrArg List.length hm
    simp at this
    omega
  rw [hlength, ← decimalValue_zeros, ← hm]

theorem length_trimZeros_le (s : List Char) : (trimZeros s).length ≤ s.length := by
  obtain ⟨m, hm⟩ := trimZeros_append s
  have := congrArg List.length hm
  simp at this
  omega

theorem mem_of_mem_trimZeros {s : List Char} {c : Char} (h : c ∈ trimZeros s) : c ∈ s := by
  obtain ⟨m, hm⟩ := trimZeros_append s
  rw [hm]
  exact List.mem_append_left _ h

theorem trimZeros_ne_nil {s : List Char} (h : decimalValue s ≠ 0) : trimZeros s ≠ [] := by
  intro hnil
  apply h
  rw [← decimalValue_trimZeros, hnil, decimalValue_nil, Nat.zero_mul]

end PokerDeliberation.Lib
