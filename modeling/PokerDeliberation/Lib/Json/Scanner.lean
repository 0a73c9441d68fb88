import PokerDeliberation.Lib.Json.Numbers
import PokerDeliberation.Lib.Json.Value

/-!
# Writing and reading JSON

`dumps` writes a value as the compact text with sorted keys and with nothing
escaped but quotes, backslashes and control characters. It fails where an
integer has too many digits to be written, or a number is not finite.

`loads` reads a text the way the language's scanner does: blanks between the
tokens, escapes with surrogate pairs, numbers of both kinds, a hook that is
given the items of every object, and a bound on how deep containers may nest.
-/

namespace PokerDeliberation.Lib.Json

/-! ## Strings -/

def hexDigit (n : Nat) : Nat := if n < 10 then 0x30 + n else 0x57 + n

/-- What is written for a character. -/
def escape (c : Nat) : Text :=
  if c = QUOTE then text "\\\""
  else if c = BACKSLASH then text "\\\\"
  else if c = 0x08 then text "\\b"
  else if c = 0x09 then text "\\t"
  else if c = 0x0a then text "\\n"
  else if c = 0x0c then text "\\f"
  else if c = 0x0d then text "\\r"
  else if c < 0x20 then text "\\u00" ++ [hexDigit (c / 16), hexDigit (c % 16)]
  else [c]

def escaped (s : Text) : Text := s.flatMap escape

def quoted (s : Text) : Text := QUOTE :: (escaped s ++ [QUOTE])

/-! ## Values -/

/-- The parts with commas between them. -/
def joined : List Text → Text
  | [] => []
  | [t] => t
  | t :: ts => t ++ COMMA :: joined ts

section

variable {F : Type} (numbers : Numbers F)

mutual

/-- The text of a value, its items in the order they have. -/
def render : Value F → Option Text
  | .null => some (text "null")
  | .bool true => some (text "true")
  | .bool false => some (text "false")
  | .int n => if (digits n.natAbs).length ≤ numbers.maxStrDigits then some (intText n) else none
  | .float x => if numbers.finite x = true then some (numbers.repr x) else none
  | .str s => some (quoted s)
  | .arr xs => (renderAll xs).map fun parts => OPEN_BRACKET :: (joined parts ++ [CLOSE_BRACKET])
  | .obj items => (renderItems items).map fun parts => OPEN_BRACE :: (joined parts ++ [CLOSE_BRACE])

def renderAll : List (Value F) → Option (List Text)
  | [] => some []
  | x :: xs => do
    let t ← render x
    let ts ← renderAll xs
    return t :: ts

def renderItems : List (Text × Value F) → Option (List Text)
  | [] => some []
  | (key, x) :: items => do
    let t ← render x
    let ts ← renderItems items
    return (quoted key ++ COLON :: t) :: ts

end

/-- `json.dumps` with `ensure_ascii=False`, `sort_keys=True`, compact separators
and `allow_nan=False`; `none` is the `ValueError`. -/
def dumps (v : Value F) : Option Text := render numbers v.sorted

end

variable {F : Type} {numbers : Numbers F} {xs : List (Value F)} {items : List (Text × Value F)}
variable {t : Text} {ts : List Text}

theorem renderAll_eq_some : renderAll numbers xs = some ts ↔
    List.Forall₂ (fun x t => render numbers x = some t) xs ts := by
  induction xs generalizing ts with
  | nil => simp [renderAll, eq_comm]
  | cons x xs ih =>
    simp only [renderAll, Option.bind_eq_bind, Option.bind_eq_some_iff, Option.pure_def,
      Option.some.injEq]
    constructor
    · rintro ⟨t, ht, ts, hts, rfl⟩
      exact .cons ht (ih.1 hts)
    · rintro (_ | ⟨ht, hts⟩)
      exact ⟨_, ht, _, ih.2 hts, rfl⟩

theorem renderItems_eq_some : renderItems numbers items = some ts ↔
    List.Forall₂ (fun x t => ∃ u, render numbers x.2 = some u ∧ t = quoted x.1 ++ COLON :: u)
      items ts := by
  induction items generalizing ts with
  | nil => simp [renderItems, eq_comm]
  | cons x items ih =>
    obtain ⟨key, x⟩ := x
    simp only [renderItems, Option.bind_eq_bind, Option.bind_eq_some_iff, Option.pure_def,
      Option.some.injEq]
    constructor
    · rintro ⟨u, hu, ts, hts, rfl⟩
      exact .cons ⟨u, hu, rfl⟩ (ih.1 hts)
    · rintro (_ | ⟨⟨u, hu, rfl⟩, hts⟩)
      exact ⟨u, hu, _, ih.2 hts, rfl⟩

end PokerDeliberation.Lib.Json

namespace PokerDeliberation.Lib.Json

/-! ## Reading -/

/-- Why a text is not read: it is no JSON, the hook or the constant handler has
raised, an integer has too many digits, or the nesting is too deep. -/
inductive LoadsError where
  | syntaxError | refused | tooManyDigits | recursionError
  deriving DecidableEq, Repr

/-! ## Blanks -/

def isBlank (c : Nat) : Bool := c = 0x20 || c = 0x09 || c = 0x0a || c = 0x0d

def skipBlanks (t : Text) : Text := t.dropWhile isBlank

/-! ## Strings -/

/-- The value of a hexadecimal digit. -/
def hexValue (c : Nat) : Option Nat :=
  if 0x30 ≤ c ∧ c ≤ 0x39 then some (c - 0x30)
  else if 0x61 ≤ c ∧ c ≤ 0x66 then some (c - 0x57)
  else if 0x41 ≤ c ∧ c ≤ 0x46 then some (c - 0x37)
  else none

/-- Four hexadecimal digits and what follows them. -/
def hexQuad : Text → Option (Nat × Text)
  | a :: b :: c :: d :: t => do
    let a ← hexValue a
    let b ← hexValue b
    let c ← hexValue c
    let d ← hexValue d
    return (((a * 16 + b) * 16 + c) * 16 + d, t)
  | _ => none

def isHighSurrogate (n : Nat) : Bool := 0xd800 ≤ n && n ≤ 0xdbff

def isLowSurrogate (n : Nat) : Bool := 0xdc00 ≤ n && n ≤ 0xdfff

/-- The character after `\u`: a high surrogate is joined with an escaped low one. -/
def unicodeEscape (t : Text) : Option (Nat × Text) := do
  let (high, t) ← hexQuad t
  if isHighSurrogate high then
    match t with
    | BACKSLASH :: 0x75 :: u => do
      let (low, u) ← hexQuad u
      if isLowSurrogate low then
        return (0x10000 + (high - 0xd800) * 0x400 + (low - 0xdc00), u)
      else return (high, t)
    | _ => return (high, t)
  else return (high, t)

/-- The character after a backslash. -/
def simpleEscape (c : Nat) : Option Nat :=
  if c = QUOTE ∨ c = BACKSLASH ∨ c = 0x2f then some c
  else if c = 0x62 then some 0x08
  else if c = 0x66 then some 0x0c
  else if c = 0x6e then some 0x0a
  else if c = 0x72 then some 0x0d
  else if c = 0x74 then some 0x09
  else none

/-- The next character of a string, before its closing quote. -/
def nextChar : Text → Option (Nat × Text)
  | [] => none
  | c :: t =>
    if c = BACKSLASH then
      match t with
      | 0x75 :: u => unicodeEscape u
      | e :: u => (simpleEscape e).map fun c => (c, u)
      | [] => none
    else if c < 0x20 then none
    else some (c, t)

/-- The string up to its closing quote, of at most `fuel` characters. -/
def scanChars : Nat → Text → Option (Text × Text)
  | 0, _ => none
  | _ + 1, QUOTE :: t => some ([], t)
  | fuel + 1, t => do
    let (c, t) ← nextChar t
    let (s, t) ← scanChars fuel t
    return (c :: s, t)

/-- The string after its opening quote. Every character takes one of the text. -/
def scanString (t : Text) : Option (Text × Text) := scanChars (t.length + 1) t

/-! ## Values -/

section

variable {F : Type}

/-- A scanner: what stands at the front of a text, and what follows it. -/
abbrev Scan (α : Type) := Text → Except LoadsError (α × Text)

/-- The elements of an array, of which there is at least one, up to the bracket. -/
def scanElements (scan : Scan (Value F)) : Nat → Scan (List (Value F))
  | 0, _ => .error .syntaxError
  | fuel + 1, t => do
    let (x, t) ← scan t
    match skipBlanks t with
    | CLOSE_BRACKET :: t => return ([x], t)
    | COMMA :: t => do
      let (xs, t) ← scanElements scan fuel (skipBlanks t)
      return (x :: xs, t)
    | _ => .error .syntaxError

/-- The items of an object, of which there is at least one, up to the brace. -/
def scanItems (scan : Scan (Value F)) : Nat → Scan (List (Text × Value F))
  | 0, _ => .error .syntaxError
  | fuel + 1, QUOTE :: t =>
    match scanString t with
    | none => .error .syntaxError
    | some (key, t) =>
      match skipBlanks t with
      | COLON :: t => do
        let (x, t) ← scan (skipBlanks t)
        match skipBlanks t with
        | CLOSE_BRACE :: t => return ([(key, x)], t)
        | COMMA :: t => do
          let (items, t) ← scanItems scan fuel (skipBlanks t)
          return ((key, x) :: items, t)
        | _ => .error .syntaxError
      | _ => .error .syntaxError
  | _ + 1, _ => .error .syntaxError

/-- What stands at `t` if it begins with `s`. -/
def literal (s : String) (t : Text) : Option Text :=
  if text s <+: t then some (t.drop s.length) else none

/-- A number that is not finite, by the name it stands under. -/
def constantName (t : Text) : Option (String × Text) :=
  ["NaN", "Infinity", "-Infinity"].findSome? fun s => (literal s t).map fun rest => (s, rest)

/-- A value that is no container and no string; `constant` reads the numbers that are not finite. -/
def scanScalar (numbers : Numbers F) (constant : String → Option F) : Scan (Value F) := fun t =>
  match literal "null" t, literal "true" t, literal "false" t with
  | some t, _, _ => .ok (.null, t)
  | none, some t, _ => .ok (.bool true, t)
  | none, none, some t => .ok (.bool false, t)
  | none, none, none =>
    match constantName t with
    | some (name, rest) =>
      match constant name with
      | some x => .ok (.float x, rest)
      | none => .error .refused
    | none =>
      match scanNumber t with
      | none => .error .syntaxError
      | some (true, number, rest) => .ok (.float (numbers.ofText number), rest)
      | some (false, number, rest) =>
        if (unsigned number).length ≤ numbers.maxStrDigits then .ok (.int (intValue number), rest)
        else .error .tooManyDigits

/-- `scan_once`: `depth` is how deep containers may still be nested, and `hook`
says whether the items of an object are taken. -/
def scanValue (numbers : Numbers F) (constant : String → Option F)
    (hook : List (Text × Value F) → Bool) : Nat → Scan (Value F)
  | _, QUOTE :: t =>
    match scanString t with
    | some (s, t) => .ok (.str s, t)
    | none => .error .syntaxError
  | 0, OPEN_BRACKET :: _ => .error .recursionError
  | 0, OPEN_BRACE :: _ => .error .recursionError
  | depth + 1, OPEN_BRACKET :: t =>
    match skipBlanks t with
    | CLOSE_BRACKET :: t => .ok (.arr [], t)
    | t => do
      let (xs, rest) ← scanElements (scanValue numbers constant hook depth) t.length t
      return (.arr xs, rest)
  | depth + 1, OPEN_BRACE :: t => do
    let (items, rest) ←
      match skipBlanks t with
      | CLOSE_BRACE :: t => .ok ([], t)
      | t => scanItems (scanValue numbers constant hook depth) t.length t
    if hook items then return (.obj items, rest) else .error .refused
  | _, t => scanScalar numbers constant t

/-- `json.loads` of a string. -/
def loads (numbers : Numbers F) (constant : String → Option F) (hook : List (Text × Value F) → Bool)
    (depth : Nat) (t : Text) : Except LoadsError (Value F) := do
  if t.head? = some BOM then .error .syntaxError
  let (v, rest) ← scanValue numbers constant hook depth (skipBlanks t)
  if skipBlanks rest = [] then return v else .error .syntaxError

end

end PokerDeliberation.Lib.Json
