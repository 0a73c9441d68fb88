import PokerDeliberation.Lib.Patterns
import Mathlib.Data.List.DropRight

/-!
# Secret shapes

What looks like a credential: one of five patterns in a folded form of the text,
or a sensitive name with something assigned to it on one line. The text is
folded in two ways, one that drops the characters no reader sees and one that
keeps an ASCII skeleton. How the language normalizes and folds text, and which
characters it counts as words, is a parameter.
-/

namespace PokerDeliberation.Security

open Lib Lib.Patterns

/-- The parts of the language's Unicode tables that the probes use. -/
structure Unicode where
  /-- `unicodedata.normalize("NFKC", t)` -/
  nfkc : Text → Text
  /-- `str.casefold` -/
  casefold : Text → Text
  /-- The category is one of `Cf`, `Mn`, `Me`. -/
  ignorableCategory : Nat → Bool
  /-- `\w` -/
  isWord : Nat → Bool
  nfkc_ascii : ∀ t : Text, (∀ c ∈ t, c < 128) → nfkc t = t
  casefold_ascii : ∀ t : Text, (∀ c ∈ t, c < 128) → casefold t = t.map lowered
  ignorable_ascii : ∀ c < 128, ignorableCategory c = false
  isWord_ascii : ∀ c < 128, isWord c = (isLetter c || isDecimal c || c == 0x5f)

/-! ## Patterns -/

/-- A literal without regard to case. -/
def word : String → Pattern := literal sameLetter

/-- `[A-Za-z]` without regard to case. -/
def anyLetter (c : Nat) : Bool := isLetter (lowered c)

/-- `[A-Za-z0-9]` without regard to case. -/
def alphanumeric (c : Nat) : Bool := anyLetter c || isDecimal c

/-- `[.\s_-]*` -/
def separators : Pattern := many (fun c => isSpaceCode c || among "._-" c) 0

/-- `first[.\s_-]*second` -/
def joinedWords (first second : String) : Pattern := inTurn [word first, separators, word second]

/-- `\s*[:=]\s*` -/
def assigned : List Pattern := [many isSpaceCode 0, one (among ":="), many isSpaceCode 0]

/-- `[^\s,;]+` -/
def assignedValue : Pattern := many (fun c => !isSpaceCode c && !among ",;" c) 1

/-- `_SENSITIVE_KEY`. -/
def SENSITIVE_KEY : Pattern := anyOf
  [joinedWords "api" "key", word "authorization", word "bearer", word "cookie", word "password",
    word "passwd", word "secret", joinedWords "session" "token", joinedWords "access" "token",
    joinedWords "client" "secret"]

/-- `_SECRET_PATTERNS`. -/
def SECRET_PATTERNS (isWord : Nat → Bool) : List Pattern :=
  [inTurn [boundary isWord, literal (· == ·) "sk-",
      many (fun c => isLetter c || isDecimal c || among "_-" c) 8, boundary isWord],
    inTurn [boundary isWord, word "bearer", many isSpaceCode 1,
      many (fun c => alphanumeric c || among "._~+/=-" c) 8, boundary isWord],
    inTurn ([boundary isWord, anyOf [word "authorization", word "cookie"]] ++ assigned ++
      [many (fun c => !among "\r\n" c) 1]),
    inTurn ([notAfter alphanumeric,
        star (inTurn [one anyLetter, many alphanumeric 0, one (among "_")]),
        anyOf [word "api_key", inTurn [word "secret", maybe (word "_access_key")],
          word "access_token", word "token", word "password"]] ++ assigned ++ [assignedValue]),
    inTurn ([boundary isWord,
        anyOf [joinedWords "api" "key", word "password", word "secret", word "token",
          joinedWords "access" "token", joinedWords "client" "secret"]] ++ assigned ++
      [assignedValue])]

/-! ## Probes -/

/-- `_SECURITY_IGNORABLES`. -/
def SECURITY_IGNORABLES : List (Nat × Nat) :=
  [(0xad, 0xad), (0x300, 0x36f), (0x34f, 0x34f), (0x61c, 0x61c), (0x115f, 0x1160), (0x17b4, 0x17b5),
    (0x180b, 0x180f), (0x1ab0, 0x1aff), (0x1dc0, 0x1dff), (0x200b, 0x200f), (0x202a, 0x202e),
    (0x2060, 0x206f), (0x20d0, 0x20ff), (0x3164, 0x3164), (0xfe00, 0xfe0f), (0xfe20, 0xfe2f),
    (0xfeff, 0xfeff), (0xffa0, 0xffa0), (0xfff0, 0xfff8), (0x1bca0, 0x1bca3), (0x1d173, 0x1d17a),
    (0xe0000, 0xe0fff)]

def isIgnorable (c : Nat) : Bool :=
  SECURITY_IGNORABLES.any fun range => range.1 ≤ c && c ≤ range.2

/-- `_SECURITY_DASH_TRANSLATION`. -/
def dashed (c : Nat) : Nat := if (0x2010 ≤ c ∧ c ≤ 0x2015) ∨ c = 0x2212 then 0x2d else c

/-- `_SECRET_CONFUSABLE_TRANSLATION`. -/
def SECRET_CONFUSABLES : List (Nat × Nat) :=
  [(0x430, 0x61), (0x435, 0x65), (0x456, 0x69), (0x43a, 0x6b), (0x43e, 0x6f), (0x440, 0x70),
    (0x433, 0x72), (0x441, 0x63), (0x442, 0x74), (0x445, 0x78), (0x443, 0x79), (0x455, 0x73),
    (0x4bb, 0x68), (0x43f, 0x6e), (0x501, 0x64), (0x51d, 0x77), (0x3b1, 0x61), (0x3b5, 0x65),
    (0x3b9, 0x69), (0x3ba, 0x6b), (0x3bf, 0x6f), (0x3c1, 0x70), (0x3c4, 0x74), (0x3c7, 0x78),
    (0x3c5, 0x79)]

def confused (c : Nat) : Nat := (SECRET_CONFUSABLES.lookup c).getD c

/-- One character of the skeleton. -/
def skeleton (c : Nat) : Option Nat :=
  if among "\r\n" c then some c
  else if isSpaceCode c then some 0x20
  else if isDecimal c || isLetter c || among "_-=:" c then some c
  else none

section

variable (u : Unicode)

/-- `_security_probe`. -/
def securityProbe (value : Text) : Text :=
  u.casefold ((((u.nfkc value).filter fun c => !u.ignorableCategory c).filter
    fun c => !isIgnorable c).map dashed)

/-- `_secret_probe`. -/
def secretProbe (value : Text) : Text :=
  ((u.casefold ((u.nfkc value).map dashed)).map confused).filterMap skeleton

/-! ## Assignments -/

def sensitiveAssignmentSuffixes : List String :=
  ["apikey", "authorization", "bearer", "cookie", "password", "passwd", "secret",
    "secretaccesskey", "sessiontoken", "accesstoken", "clientsecret", "token"]

/-- `[A-Za-z0-9_=:\-]` -/
def isAssignmentPart (c : Nat) : Bool := isLetter c || isDecimal c || among "_=:-" c

def isNewline (c : Nat) : Bool := among "\r\n" c

/-- `re.sub(r"(?<=[A-Za-z0-9_=:\-])[\r\n]+(?=[A-Za-z0-9_=:\-])", "", t)`: the newlines
before the text are held back until it is known what follows them. -/
def joinBrokenLines (after : Bool) (held : Text) : Text → Text
  | [] => held
  | c :: t =>
    if isNewline c then joinBrokenLines after (held ++ [c]) t
    else (if after && isAssignmentPart c then [] else held) ++
      c :: joinBrokenLines (isAssignmentPart c) [] t

/-- The lines; where two newline characters meet there is one more line, without a character. -/
def lines : Text → List Text := List.splitOnP isNewline

/-- Whether a sensitive identifier is followed by an assignment with something after it; `tail`
is what the identifier ends in, `last` the index of the last character that is no space. -/
def assignsSensitive (last : Int) : Nat → Text → Bool → Text → Bool
  | _, _, _, [] => false
  | index, tail, sensitive, c :: line =>
    let alnum := isLetter c || isDecimal c
    let tail := if alnum then (tail ++ [c]).rtake 15 else tail
    let sensitive := if alnum then
        sensitiveAssignmentSuffixes.any fun suffix => (text suffix).isSuffixOf tail
      else sensitive
    (among ":=" c && index < last && sensitive) ||
      assignsSensitive last (index + 1) tail sensitive line

/-- `_contains_secret_shape`. -/
def containsSecretShape (value : Text) : Bool :=
  (([securityProbe u value, secretProbe u value].any fun probe =>
      (SECRET_PATTERNS u.isWord).any fun pattern => search pattern none probe) ||
    (lines (joinBrokenLines false [] (secretProbe u value))).any fun line =>
      assignsSensitive ((line.rdropWhile isSpaceCode).length - 1) 0 [] false line)

/-! ## Redaction of a text -/

/-- `"[REDACTED]"` -/
def MARKER : Text := text "[REDACTED]"

/-- `pattern.sub("[REDACTED]", ...)` for each pattern in turn. -/
def substituteAll (value : Text) : Text :=
  (SECRET_PATTERNS u.isWord).foldl (fun t pattern => substitute pattern MARKER none 0 t) value

/-- Whether the name of a key is sensitive. -/
def sensitiveName (key : Text) : Bool :=
  search SENSITIVE_KEY none (securityProbe u key) || search SENSITIVE_KEY none (secretProbe u key)

/-! ## The marker -/

/-- None of the patterns is found in the text, whatever counts as a word. -/
theorem search_patterns {t : Text}
    (hkey : search (literal (· == ·) "sk-") none t = false)
    (hbearer : search (word "bearer") none t = false)
    (hheader : search (anyOf [word "authorization", word "cookie"]) none t = false)
    (hnames : search (anyOf [joinedWords "api" "key", word "password", word "secret", word "token",
      joinedWords "access" "token", joinedWords "client" "secret"]) none t = false)
    (hsuffixed : search (inTurn ([notAfter alphanumeric,
        star (inTurn [one anyLetter, many alphanumeric 0, one (among "_")]),
        anyOf [word "api_key", inTurn [word "secret", maybe (word "_access_key")],
          word "access_token", word "token", word "password"]] ++ assigned ++ [assignedValue]))
      none t = false) :
    ∀ pattern ∈ SECRET_PATTERNS u.isWord, search pattern none t = false := by
  simp only [SECRET_PATTERNS, List.forall_mem_cons]
  exact ⟨search_inTurn_boundary (search_inTurn hkey), search_inTurn_boundary (search_inTurn hbearer),
    search_inTurn_boundary (search_inTurn hheader), hsuffixed,
    search_inTurn_boundary (search_inTurn hnames), by simp⟩

theorem substituteAll_of_not_search {t : Text}
    (h : ∀ pattern ∈ SECRET_PATTERNS u.isWord, search pattern none t = false) :
    substituteAll u t = t := by
  have hfold : ∀ patterns : List Pattern, (∀ pattern ∈ patterns, search pattern none t = false) →
      patterns.foldl (fun t pattern => substitute pattern MARKER none 0 t) t = t := by
    intro patterns
    induction patterns with
    | nil => intro _; rfl
    | cons pattern patterns ih =>
      intro hall
      obtain ⟨hpattern, hrest⟩ := List.forall_mem_cons.1 hall
      rw [List.foldl_cons, substitute_of_not_search hpattern]
      exact ih hrest
  exact hfold _ h

theorem ascii_marker : ∀ c ∈ MARKER, c < 128 := by decide +kernel

theorem securityProbe_marker : securityProbe u MARKER = text "[redacted]" := by
  have hcategory : (MARKER.filter fun c => !u.ignorableCategory c) = MARKER :=
    List.filter_eq_self.2 fun c hc => by rw [u.ignorable_ascii c (ascii_marker c hc)]; rfl
  have hshown : ((MARKER.filter fun c => !isIgnorable c).map dashed) = MARKER := by decide +kernel
  rw [securityProbe, u.nfkc_ascii _ ascii_marker, hcategory, hshown,
    u.casefold_ascii _ ascii_marker]
  decide +kernel

theorem secretProbe_marker : secretProbe u MARKER = text "redacted" := by
  have hdashed : MARKER.map dashed = MARKER := by decide +kernel
  rw [secretProbe, u.nfkc_ascii _ ascii_marker, hdashed, u.casefold_ascii _ ascii_marker]
  decide +kernel

/-- The marker has no secret shape. -/
theorem containsSecretShape_marker : containsSecretShape u MARKER = false := by
  have hsecurity := search_patterns u (t := text "[redacted]") (by decide +kernel) (by decide +kernel) (by decide +kernel)
    (by decide +kernel) (by decide +kernel)
  have hsecret := search_patterns u (t := text "redacted") (by decide +kernel) (by decide +kernel) (by decide +kernel)
    (by decide +kernel) (by decide +kernel)
  have hlines : ((lines (joinBrokenLines false [] (text "redacted"))).any fun line =>
      assignsSensitive ((line.rdropWhile isSpaceCode).length - 1) 0 [] false line) = false := by
    decide +kernel
  rw [containsSecretShape, securityProbe_marker, secretProbe_marker, hlines, Bool.or_false,
    List.any_eq_false]
  intro probe hprobe
  simp only [Bool.not_eq_true, List.any_eq_false]
  rcases List.mem_cons.1 hprobe with rfl | hprobe
  · exact fun pattern hp => by simp [hsecurity pattern hp]
  · rcases List.mem_singleton.1 hprobe with rfl
    exact fun pattern hp => by simp [hsecret pattern hp]

/-- No pattern is found in the marker. -/
theorem substituteAll_marker : substituteAll u MARKER = MARKER :=
  substituteAll_of_not_search u (search_patterns u (by decide +kernel) (by decide +kernel) (by decide +kernel) (by decide +kernel)
    (by decide +kernel))

end

end PokerDeliberation.Security
