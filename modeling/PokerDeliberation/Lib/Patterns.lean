import PokerDeliberation.Lib.Utf8

/-!
# Regular expressions

A pattern at a position, which is the character before and the text after, gives
every position it may end at, so alternatives and repetitions need no order.
`Patterns.search` looks for a first position at which it may end at all.
-/

namespace PokerDeliberation.Lib.Patterns

/-- The character before, and what follows. -/
abbrev Position := Option Nat × Text

abbrev Pattern := Option Nat → Text → List Position

/-- One character of a class. -/
def one (cls : Nat → Bool) : Pattern
  | _, c :: t => if cls c then [(some c, t)] else []
  | _, [] => []

def andThen (p q : Pattern) : Pattern := fun b t => (p b t).flatMap fun x => q x.1 x.2

/-- The patterns in sequence. -/
def inTurn : List Pattern → Pattern
  | [] => fun b t => [(b, t)]
  | p :: ps => andThen p (inTurn ps)

/-- One of the patterns. -/
def anyOf (ps : List Pattern) : Pattern := fun b t => ps.flatMap fun p => p b t

/-- `p?`. -/
def maybe (p : Pattern) : Pattern := fun b t => p b t ++ [(b, t)]

/-- `cls{least,}`. -/
def many (cls : Nat → Bool) : Nat → Option Nat → Text → List Position
  | least, b, [] => if least = 0 then [(b, [])] else []
  | least, b, c :: t =>
    (if cls c then many cls (least - 1) (some c) t else []) ++
      if least = 0 then [(b, c :: t)] else []

/-- `\b`, of the class `\w`. -/
def boundary (isWord : Nat → Bool) : Pattern := fun b t =>
  if b.any isWord != t.head?.any isWord then [(b, t)] else []

/-- The characters of a literal, each as `same` compares it. -/
def literal (same : Nat → Nat → Bool) (s : String) : Pattern :=
  inTurn ((text s).map fun p => one (same p))

/-- `p*`, at most as often as given. -/
def repeated (p : Pattern) : Nat → Pattern
  | 0 => fun b t => [(b, t)]
  | n + 1 => fun b t => (p b t).flatMap (fun x => repeated p n x.1 x.2) ++ [(b, t)]

/-- `p*`, of a pattern that matches no empty text. -/
def star (p : Pattern) : Pattern := fun b t => repeated p t.length b t

/-- `(?<!cls)`. -/
def notAfter (cls : Nat → Bool) : Pattern := fun b t => if b.any cls then [] else [(b, t)]

def search (p : Pattern) : Option Nat → Text → Bool
  | b, [] => !(p b []).isEmpty
  | b, c :: t => !(p b (c :: t)).isEmpty || search p (some c) t

/-- `p.sub` from a position on, of a pattern that matches no empty text; the positions a match
took up are skipped. The first of the ends is the one the pattern prefers. -/
def substitute (p : Pattern) (replacement : Text) : Option Nat → Nat → Text → Text
  | _, _, [] => []
  | _, skip + 1, c :: t => substitute p replacement (some c) skip t
  | b, 0, c :: t =>
    match p b (c :: t) with
    | x :: _ => replacement ++ substitute p replacement (some c) (t.length - x.2.length) t
    | [] => c :: substitute p replacement (some c) 0 t

/-! ## Classes -/

def isLetter (c : Nat) : Bool := (0x41 ≤ c && c ≤ 0x5a) || (0x61 ≤ c && c ≤ 0x7a)

def isDecimal (c : Nat) : Bool := 0x30 ≤ c && c ≤ 0x39

/-- One of the characters of a literal. -/
def among (s : String) (c : Nat) : Bool := c ∈ text s

/-- `str.isspace`. -/
def isSpaceCode (c : Nat) : Bool :=
  (9 ≤ c && c ≤ 13) || (28 ≤ c && c ≤ 32) || c == 0x85 || c == 0xa0 || c == 0x1680 ||
    (0x2000 ≤ c && c ≤ 0x200a) || c == 0x2028 || c == 0x2029 || c == 0x202f || c == 0x205f ||
    c == 0x3000

/-- The lower case of a character, as far as it is an ASCII letter. -/
def lowered (c : Nat) : Nat :=
  if 0x41 ≤ c ∧ c ≤ 0x5a then c + 0x20
  else if c = 0x130 ∨ c = 0x131 then 0x69
  else if c = 0x17f then 0x73
  else if c = 0x212a then 0x6b
  else c

/-- `p` in lower case matches `c` without regard to case. -/
def sameLetter (p c : Nat) : Bool := lowered c = p

/-! ## Texts in which nothing is found -/

variable {p : Pattern} {ps : List Pattern} {b : Option Nat} {t replacement : Text}

theorem substitute_of_not_search (h : search p b t = false) : substitute p replacement b 0 t = t := by
  induction t generalizing b with
  | nil => rfl
  | cons c t ih =>
    simp only [search, Bool.or_eq_false_iff, Bool.not_eq_false', List.isEmpty_iff] at h
    simp only [substitute, h.1, ih h.2]

theorem search_mono {q : Pattern} (h : ∀ b t, p b t = [] → q b t = [])
    (hp : search p b t = false) : search q b t = false := by
  induction t generalizing b with
  | nil =>
    simp only [search, Bool.not_eq_false', List.isEmpty_iff] at hp ⊢
    exact h b [] hp
  | cons c t ih =>
    simp only [search, Bool.or_eq_false_iff, Bool.not_eq_false', List.isEmpty_iff] at hp ⊢
    exact ⟨h b (c :: t) hp.1, ih hp.2⟩

/-- Nothing is found of a sequence whose first pattern is not found. -/
theorem search_inTurn (h : search p b t = false) : search (inTurn (p :: ps)) b t = false :=
  search_mono (fun b t hp => by simp only [inTurn, andThen, hp, List.flatMap_nil]) h

/-- Nothing is found of a sequence after a condition on the position either. -/
theorem search_inTurn_boundary {isWord : Nat → Bool} (h : search (inTurn ps) b t = false) :
    search (inTurn (boundary isWord :: ps)) b t = false :=
  search_mono (fun b t hps => by
    simp only [inTurn, andThen, boundary]
    split
    · simpa using hps
    · rfl) h

end PokerDeliberation.Lib.Patterns
