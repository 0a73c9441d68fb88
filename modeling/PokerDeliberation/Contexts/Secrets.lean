import PokerDeliberation.Lib.Json.Value
import PokerDeliberation.Lib.Patterns

/-!
# The secret scan

Which payloads hold a credential: a key that names one, or a string in which one
of three patterns is found. The scan does not depend on the order of the items.
-/

namespace PokerDeliberation.Contexts

open Lib Lib.Json Lib.Patterns

/-! ## Patterns -/

/-- A literal without regard to case. -/
def word : String → Pattern := literal sameLetter

/-- `[_-]?` -/
def maybeDash : Pattern := maybe (one (among "_-"))

/-- `_SENSITIVE_KEY`. -/
def SENSITIVE_KEY : Pattern := anyOf
  [inTurn [word "api", maybeDash, word "key"],
    word "authorization", word "bearer", word "cookie", word "password", word "passwd",
    word "secret", word "token",
    inTurn [word "private", maybeDash, word "key"],
    inTurn [word "client", maybeDash, anyOf [word "secret", word "credential"]],
    word "credential"]

/-- `_SECRET_PATTERNS`; `isWord` is the class `\w`. -/
def SECRET_PATTERNS (isWord : Nat → Bool) : List Pattern :=
  [inTurn [boundary isWord, literal (· == ·) "sk-",
      many (fun c => isLetter c || isDecimal c || among "_-" c) 8, boundary isWord],
    inTurn [boundary isWord, word "bearer", many isSpaceCode 1,
      many (fun c => isLetter (lowered c) || isDecimal c || among "._~+/=-" c) 8, boundary isWord],
    inTurn [boundary isWord,
      anyOf [inTurn [word "api", maybeDash, word "key"], word "password", word "secret",
        word "token"],
      many isSpaceCode 0, one (among ":="), many isSpaceCode 0,
      many (fun c => !isSpaceCode c && !among ",;" c) 1]]

def sensitiveKey (key : Text) : Bool := search SENSITIVE_KEY none key

def secretText (isWord : Nat → Bool) (s : Text) : Bool :=
  (SECRET_PATTERNS isWord).any fun p => search p none s

/-! ## The scan -/

section

variable {F : Type} (isWord : Nat → Bool)

mutual

/-- `_contains_restricted_secret`. -/
def containsRestrictedSecret : Value F → Bool
  | .obj items => anyItemSecret items
  | .arr xs => anySecret xs
  | .str s => secretText isWord s
  | .null | .bool _ | .int _ | .float _ => false

def anySecret : List (Value F) → Bool
  | [] => false
  | x :: xs => containsRestrictedSecret x || anySecret xs

def anyItemSecret : List (Text × Value F) → Bool
  | [] => false
  | (key, x) :: items => sensitiveKey key || containsRestrictedSecret x || anyItemSecret items

end

variable {isWord} {xs : List (Value F)} {items : List (Text × Value F)}

theorem anySecret_iff :
    anySecret isWord xs = true ↔ ∃ x ∈ xs, containsRestrictedSecret isWord x = true := by
  induction xs with
  | nil => simp [anySecret]
  | cons x xs ih => simp [anySecret, ih]

theorem anyItemSecret_iff : anyItemSecret isWord items = true ↔
    ∃ x ∈ items, sensitiveKey x.1 = true ∨ containsRestrictedSecret isWord x.2 = true := by
  induction items with
  | nil => simp [anyItemSecret]
  | cons x items ih =>
    obtain ⟨key, x⟩ := x
    simp [anyItemSecret, ih]

/-- A payload is scanned alike with its dictionaries sorted. -/
theorem containsRestrictedSecret_sorted (v : Value F) :
    containsRestrictedSecret isWord v.sorted = containsRestrictedSecret isWord v := by
  induction v using Value.induction_depth with
  | step v ih =>
    cases v with
    | null | bool | int | float | str => rfl
    | arr xs =>
      rw [Bool.eq_iff_iff]
      simp only [Value.sorted, containsRestrictedSecret, Value.sortedAll_eq, anySecret_iff,
        List.mem_map, exists_exists_and_eq_and]
      exact exists_congr fun x => and_congr_right fun hx => by rw [ih x (Value.depth_lt_arr hx)]
    | obj items =>
      rw [Bool.eq_iff_iff]
      simp only [Value.sorted, containsRestrictedSecret, anyItemSecret_iff, Value.mem_sortedItems]
      constructor
      · rintro ⟨_, ⟨x, hx, rfl⟩, hsecret⟩
        rw [ih x.2 (Value.depth_lt_obj hx)] at hsecret
        exact ⟨x, hx, hsecret⟩
      · rintro ⟨x, hx, hsecret⟩
        refine ⟨_, ⟨x, hx, rfl⟩, ?_⟩
        rwa [ih x.2 (Value.depth_lt_obj hx)]

end

end PokerDeliberation.Contexts
