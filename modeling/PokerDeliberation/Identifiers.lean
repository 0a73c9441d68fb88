import PokerDeliberation.Lib.Text
import PokerDeliberation.Lib.Utf8

/-!
# Portable identifiers and digests

The string formats every durable record checks: the portable correlation
format, the secret shapes it must not contain, the lower-case role format and
a lower-case SHA-256.
-/

namespace PokerDeliberation

open Lib

/-- `^[A-Za-z0-9][A-Za-z0-9._:-]{0,127}$`. -/
def portableId : String → Bool :=
  fullClass Char.isAlphanum
    (fun c => c.isAlphanum || c == '.' || c == '_' || c == ':' || c == '-') 127

/-- `[_-]?` before the rest of the text. -/
def optionalSeparator : List Char → List (List Char)
  | c :: cs => if c == '_' || c == '-' then [cs, c :: cs] else [c :: cs]
  | [] => [[]]

/-- `\s*[:=]` at the head of the text. -/
def assignsAfterSpace (s : List Char) : Bool :=
  match s.dropWhile isSpace with
  | c :: _ => c == ':' || c == '='
  | [] => false

/-- `\bsk-[A-Za-z0-9_-]{8,}\b`. -/
def skShape (before : Option Char) (s : List Char) : Bool :=
  atBoundary before s.head? &&
    (dropLiteral ['s', 'k', '-'] s).any
      (runToBoundary (fun c => c.isAlphanum || c == '_' || c == '-') 8)

/-- `\bgh[pousr]_[A-Za-z0-9]{20,}\b`. -/
def ghShape (before : Option Char) (s : List Char) : Bool :=
  atBoundary before s.head? &&
    match dropLiteral ['g', 'h'] s with
    | some (c :: '_' :: rest) =>
      (c.toLower ∈ ['p', 'o', 'u', 's', 'r']) && runToBoundary Char.isAlphanum 20 rest
    | _ => false

/-- `\bBearer\s+[A-Za-z0-9._~+/=-]{8,}\b`. -/
def bearerShape (before : Option Char) (s : List Char) : Bool :=
  atBoundary before s.head? &&
    match dropLiteral "bearer".toList s with
    | some (c :: rest) =>
      isSpace c && runToBoundary
        (fun c => c.isAlphanum || c ∈ ['.', '_', '~', '+', '/', '=', '-']) 8
        (rest.dropWhile isSpace)
    | _ => false

/-- `(?:api[_-]?key|password|passwd|secret|token)\s*[:=]`. -/
def labelShape (s : List Char) : Bool :=
  ((dropLiteral "api".toList s).any fun rest =>
      (optionalSeparator rest).any fun rest => (dropLiteral "key".toList rest).any assignsAfterSpace) ||
    ["password", "passwd", "secret", "token"].any fun label =>
      (dropLiteral label.toList s).any assignsAfterSpace

def secretShape (value : String) : Bool :=
  search (fun before s => skShape before s || ghShape before s || bearerShape before s ||
    labelShape s) none value.toList

/-- `_validate_identifier`: portable and free of secret shapes. -/
def isIdentifier (value : String) : Bool := portableId value && !secretShape value

/-- `^[a-z][a-z0-9_-]{0,63}$`. -/
def isRole : String → Bool :=
  fullClass Char.isLower (fun c => c.isLower || c.isDigit || c == '_' || c == '-') 63

/-- `^[0-9a-f]{64}$`. -/
def isSha256 (value : String) : Bool :=
  value.utf8ByteSize = 64 && value.toByteArray.data.toList.all isHexLower

/-- The digits of a lower-case digest. -/
def hexDigits : List Char := "0123456789abcdef".toList

theorem mem_hexDigits {c : Char} (hc : c.toNat < 128)
    (h : isHexLower (UInt8.ofNat c.toNat) = true) : c ∈ hexDigits := by
  have hall : ∀ n < 128, isHexLower (UInt8.ofNat n) = true → Char.ofNat n ∈ hexDigits := by
    decide
  have := hall c.toNat hc h
  rwa [Char.ofNat_toNat] at this

/-- A digest is 64 characters, all of them hex digits. -/
theorem isSha256_chars {value : String} (h : isSha256 value = true) :
    value.toList.length = 64 ∧ ∀ c ∈ value.toList, c ∈ hexDigits := by
  simp only [isSha256, Bool.and_eq_true, decide_eq_true_eq, List.all_eq_true] at h
  obtain ⟨hsize, hall⟩ := h
  have hascii : ∀ b ∈ value.toByteArray.data.toList, b.toNat < 128 := by
    intro b hb
    have hhex := hall b hb
    simp only [isHexLower, Bool.or_eq_true, Bool.and_eq_true, decide_eq_true_eq,
      UInt8.le_iff_toNat_le] at hhex
    rcases hhex with ⟨_, hb⟩ | ⟨_, hb⟩
    · exact Nat.lt_of_le_of_lt hb (by decide)
    · exact Nat.lt_of_le_of_lt hb (by decide)
  refine ⟨(Utf8.length_of_bytes_ascii hascii).trans hsize, fun c hc => ?_⟩
  obtain ⟨hlow, hbyte⟩ := Utf8.toNat_mem_of_bytes_ascii hascii hc
  exact mem_hexDigits hlow (hall _ hbyte)

example : isIdentifier "settle-1" = true := by decide
example : isIdentifier "token:x" = false := by decide

end PokerDeliberation
