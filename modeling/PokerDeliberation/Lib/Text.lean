import Mathlib.Algebra.GroupWithZero.Nat
import Mathlib.Data.List.DropRight

/-!
# Text patterns

The bounded character patterns a validator matches with regular expressions:
a class with a length range (`fullClass`), a search at every position
(`search`), a word boundary (`atBoundary`), and a run of a class that ends at
one (`runToBoundary`). Everything is decided by structural recursion on the
characters.
-/

namespace PokerDeliberation.Lib

/-- `[a-f0-9]`, as the one byte such a character is in UTF-8. -/
def isHexLower (b : UInt8) : Bool := (48 ≤ b && b ≤ 57) || (97 ≤ b && b ≤ 102)

/-- `\w` on ASCII text. -/
def isWord (c : Char) : Bool := c.isAlphanum || c == '_'

/-- `\s` on ASCII text. -/
def isSpace (c : Char) : Bool :=
  c == ' ' || c == '\t' || c == '\n' || c == '\r' || c == '\x0b' || c == '\x0c'

/-- `str.isspace`, the class `\s` of a pattern on any text. -/
def isUnicodeSpace (c : Char) : Bool :=
  let n := c.toNat
  (9 ≤ n && n ≤ 13) || (28 ≤ n && n ≤ 32) || n == 0x85 || n == 0xa0 || n == 0x1680 ||
    (0x2000 ≤ n && n ≤ 0x200a) || n == 0x2028 || n == 0x2029 || n == 0x202f || n == 0x205f ||
    n == 0x3000

/-- `str.strip`, of the characters in `cls`. -/
def strip (cls : Char → Bool) (s : List Char) : List Char := (s.dropWhile cls).rdropWhile cls

/-- `^first rest{0,most}$`. -/
def fullClass (first rest : Char → Bool) (most : Nat) (s : String) : Bool :=
  match s.toList with
  | [] => false
  | c :: cs => first c && cs.length ≤ most && cs.all rest

/-- `\b` between the two neighbouring characters. -/
def atBoundary (before after : Option Char) : Bool :=
  before.any isWord != after.any isWord

/-- What follows the literal `p` (given in lower case), case-insensitively. -/
def dropLiteral : List Char → List Char → Option (List Char)
  | [], s => some s
  | _ :: _, [] => none
  | p :: ps, c :: cs => if c.toLower = p then dropLiteral ps cs else none

/-- `cls{least,}\b` at the head of the text. -/
def runToBoundary (cls : Char → Bool) (least : Nat) (s : List Char) : Bool :=
  (List.range (s.length + 1)).any fun n =>
    least ≤ n && (s.take n).all cls && atBoundary (s.take n).getLast? (s.drop n).head?

/-- Whether the pattern matches at some position; it sees the character before. -/
def search (pattern : Option Char → List Char → Bool) : Option Char → List Char → Bool
  | before, [] => pattern before []
  | before, c :: cs => pattern before (c :: cs) || search pattern (some c) cs

/-- `str.partition`: the text before the first `sep`, and after it if there is one. -/
def partition (sep : Char) (s : List Char) : List Char × Option (List Char) :=
  match s.dropWhile (· != sep) with
  | [] => (s, none)
  | _ :: after => (s.takeWhile (· != sep), some after)

/-- What `^head(.*)tail$` matches, between a fixed head and a fixed tail. -/
def between (front back s : List Char) : Option (List Char) :=
  if front <+: s ∧ back <:+ s.drop front.length then
    some ((s.drop front.length).take (s.length - front.length - back.length))
  else none

theorem between_eq_some {front back s middle : List Char} :
    between front back s = some middle ↔ s = front ++ (middle ++ back) := by
  unfold between
  constructor
  · intro h
    split at h
    · rename_i hends
      obtain ⟨⟨rest, rfl⟩, htail⟩ := hends
      rw [List.drop_left] at htail h
      obtain ⟨inner, rfl⟩ := htail
      have hlength : (front ++ (inner ++ back)).length - front.length - back.length =
          inner.length := by
        simp
      rw [hlength, List.take_left] at h
      rw [Option.some.inj h]
    · cases h
  · rintro rfl
    rw [List.drop_left, if_pos ⟨List.prefix_append _ _, List.suffix_append _ _⟩]
    have hlength : (front ++ (middle ++ back)).length - front.length - back.length =
        middle.length := by
      simp
    rw [hlength, List.take_left]

/-- A search that succeeds does so at some position. -/
theorem exists_of_search {pattern : Option Char → List Char → Bool} {before : Option Char}
    {s : List Char} (h : search pattern before s = true) :
    ∃ done rest b, s = done ++ rest ∧ pattern b rest = true := by
  induction s generalizing before with
  | nil => exact ⟨[], [], before, rfl, h⟩
  | cons c s ih =>
    rw [search, Bool.or_eq_true] at h
    rcases h with h | h
    · exact ⟨[], c :: s, before, rfl, h⟩
    · obtain ⟨done, rest, b, rfl, hmatch⟩ := ih h
      exact ⟨c :: done, rest, b, rfl, hmatch⟩

/-- A literal found is there, up to case. -/
theorem dropLiteral_eq_some {p s rest : List Char} (h : dropLiteral p s = some rest) :
    ∃ found, s = found ++ rest ∧ found.map Char.toLower = p := by
  induction p generalizing s with
  | nil => exact ⟨[], by rw [dropLiteral] at h; simpa using h, rfl⟩
  | cons p ps ih =>
    cases s with
    | nil => cases h
    | cons c cs =>
      rw [dropLiteral] at h
      split at h
      · rename_i hc
        obtain ⟨found, rfl, hfound⟩ := ih h
        exact ⟨c :: found, rfl, by rw [List.map_cons, hc, hfound]⟩
      · cases h

theorem partition_of_not_mem {sep : Char} {s : List Char} (h : sep ∉ s) :
    partition sep s = (s, none) := by
  have hdrop : s.dropWhile (· != sep) = [] := by
    rw [List.dropWhile_eq_nil_iff]
    intro c hc
    exact bne_iff_ne.2 (ne_of_mem_of_not_mem hc h)
  rw [partition, hdrop]

theorem partition_append {sep : Char} {s : List Char} (h : sep ∉ s) (after : List Char) :
    partition sep (s ++ sep :: after) = (s, some after) := by
  have hall : ∀ c ∈ s, (c != sep) = true := fun c hc =>
    bne_iff_ne.2 (ne_of_mem_of_not_mem hc h)
  have hdrop : (s ++ sep :: after).dropWhile (· != sep) = sep :: after := by
    rw [List.dropWhile_append_of_pos hall, List.dropWhile_cons_of_neg (by simp)]
  have htake : (s ++ sep :: after).takeWhile (· != sep) = s := by
    rw [List.takeWhile_append_of_pos hall, List.takeWhile_cons_of_neg (by simp), List.append_nil]
  rw [partition, hdrop, htake]

/-- Text that neither starts nor ends in the class is not stripped. -/
theorem strip_of_all_not {cls : Char → Bool} {s : List Char} (h : ∀ c ∈ s, cls c = false) :
    strip cls s = s := by
  have hdrop : s.dropWhile cls = s := by
    cases s with
    | nil => rfl
    | cons c s => exact List.dropWhile_cons_of_neg (by simp [h c])
  rw [strip, hdrop, List.rdropWhile_eq_self_iff]
  intro hne
  simp [h _ (List.getLast_mem hne)]

/-! ## Joined texts -/

theorem splitOnP_congr {p q : Char → Bool} {s : List Char} (h : ∀ c ∈ s, p c = q c) :
    s.splitOnP p = s.splitOnP q := by
  induction s with
  | nil => rfl
  | cons c s ih =>
    rw [List.splitOnP_cons_eq_if_modifyHead, List.splitOnP_cons_eq_if_modifyHead,
      h c List.mem_cons_self, ih fun d hd => h d (List.mem_cons_of_mem _ hd)]

theorem mem_intercalate_singleton {sep c : Char} {pieces : List (List Char)}
    (h : c ∈ [sep].intercalate pieces) : c = sep ∨ ∃ piece ∈ pieces, c ∈ piece := by
  induction pieces with
  | nil => simp at h
  | cons piece pieces ih =>
    cases pieces with
    | nil =>
      rw [List.intercalate_singleton] at h
      exact .inr ⟨piece, by simp, h⟩
    | cons next pieces =>
      rw [List.intercalate_cons_cons] at h
      obtain h | h := List.mem_append.1 h
      · obtain h | h := List.mem_append.1 h
        · exact .inr ⟨piece, by simp, h⟩
        · exact .inl (List.mem_singleton.1 h)
      · obtain h | ⟨other, hother, hmem⟩ := ih h
        · exact .inl h
        · exact .inr ⟨other, List.mem_cons_of_mem _ hother, hmem⟩

theorem length_intercalate_singleton {sep : Char} {pieces : List (List Char)} (h : pieces ≠ []) :
    ([sep].intercalate pieces).length + 1 = (pieces.map (·.length + 1)).sum := by
  induction pieces with
  | nil => exact absurd rfl h
  | cons piece pieces ih =>
    cases pieces with
    | nil => simp
    | cons next pieces =>
      have := ih (by simp)
      rw [List.intercalate_cons_cons, List.length_append, List.length_append, List.map_cons,
        List.sum_cons, List.length_singleton]
      omega

/-- A character takes between one and four bytes. -/
theorem length_le_utf8ByteSize (s : List Char) :
    s.length ≤ (String.ofList s).utf8ByteSize ∧ (String.ofList s).utf8ByteSize ≤ 4 * s.length := by
  induction s with
  | nil => decide
  | cons c s ih =>
    have hpos := c.utf8Size_pos
    have hle := c.utf8Size_le_four
    rw [String.ofList_cons, String.utf8ByteSize_append, String.utf8ByteSize_singleton,
      List.length_cons]
    omega

end PokerDeliberation.Lib
