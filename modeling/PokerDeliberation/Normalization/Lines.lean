import PokerDeliberation.Lib.Csv
import PokerDeliberation.Lib.Patterns
import PokerDeliberation.Normalization.Models

/-!
# Normalization: lines, keys and values

How a text is split into lines, a line into its key and its value, and what the
values are read as. Line breaks are line feeds or carriage returns followed by
one, all of one kind.
-/

namespace PokerDeliberation.Normalization

open Lib Lib.Patterns Lib.Utf8

def TAB : Nat := 0x09
def LF : Nat := 0x0a
def CR : Nat := 0x0d

def CRLF : Text := [CR, LF]

/-- `[ \t]`. -/
def isBlank (c : Nat) : Bool := c == 0x20 || c == TAB

/-! ## Lines -/

/-- `text.count("\r\n")`. -/
def crlfCount : Text → Nat
  | [] => 0
  | [_] => 0
  | c :: d :: rest =>
    if c = CR ∧ d = LF then crlfCount rest + 1 else crlfCount (d :: rest)

/-- `text.replace("\r\n", "")`. -/
def withoutCrlf : Text → Text
  | [] => []
  | [c] => [c]
  | c :: d :: rest =>
    if c = CR ∧ d = LF then withoutCrlf rest else c :: withoutCrlf (d :: rest)

/-- `text.split("\r\n")`. -/
def splitCrlf : Text → List Text
  | [] => [[]]
  | [c] => [[c]]
  | c :: d :: rest =>
    if c = CR ∧ d = LF then [] :: splitCrlf rest
    else (splitCrlf (d :: rest)).modifyHead (c :: ·)

/-- `text.split("\n")`. -/
def splitLf (t : Text) : List Text := t.splitOn LF

/-- `_split_lines`; `none` is the newline diagnostic. -/
def splitLines (t : Text) : Option (List Text) :=
  let bareLfCount := t.count LF - crlfCount t
  if CR ∈ withoutCrlf t then none
  else if crlfCount t ≠ 0 ∧ bareLfCount ≠ 0 then none
  else some (if crlfCount t ≠ 0 then splitCrlf t else splitLf t)

/-- `len(raw_line.encode("utf-8"))`. -/
def encodedLength (t : Text) : Nat := ((encode t).getD []).length

/-- A blank line or a comment. -/
def isIgnored (raw : Text) : Bool :=
  match raw.dropWhile isBlank with
  | [] => true
  | c :: _ => c == 0x23

/-- `[A-Za-z_]`. -/
def isKeyChar (c : Nat) : Bool := isLetter c || c == 0x5f

/-- `value.strip(" \t")`. -/
def stripBlanks (t : Text) : Text := (t.dropWhile isBlank).rdropWhile isBlank

/-- `_LINE`: the key and the value. -/
def matchLine (raw : Text) : Option (Text × Text) :=
  let rest := raw.dropWhile isBlank
  let key := rest.takeWhile isKeyChar
  match (rest.dropWhile isKeyChar).dropWhile isBlank with
  | [] => none
  | c :: value => if c = 0x3a ∧ key ≠ [] then some (key, stripBlanks value) else none

/-! ## Keys -/

/-- `_ALL_KEYS`. -/
inductive Key where
  | scalar (field : ScalarField)
  | player | action
  deriving DecidableEq, Repr

def Key.name : Key → Text
  | scalar field => field.name
  | player => text "player"
  | action => text "action"

def ALL_KEYS : List Key := KNOWN_FIELDS.map .scalar ++ [.player, .action]

/-- The key with this name, if it is one. -/
def Key.ofName (name : Text) : Option Key := ALL_KEYS.find? fun key => key.name = name

/-- `_canonical_field(key)`. -/
def Key.field : Key → NormalizationField
  | scalar field => .scalar field
  | player => .players
  | action => .actions

/-! ## Values -/

/-- What reading a value raises, by its handler. -/
inductive ValueError where
  | csv | index | overflow | value | tooMany
  deriving DecidableEq, Repr

/-- `int` refuses a text with more digits than this. -/
def MAX_INT_DIGITS : Nat := 4300

/-- `_parse_number(value, integer=True)`. -/
def parseInteger (value : Text) : Except ValueError Nat := do
  require (value ≠ [] ∧ value.all isDecimal) .value
  require (value.length ≤ MAX_INT_DIGITS) .value
  pure (value.foldl (fun n c => 10 * n + (c - 0x30)) 0)

/-- `^[0-9]+(?:\.[0-9]+)?$`. -/
def isDecimalText (value : Text) : Bool :=
  value.takeWhile isDecimal ≠ [] &&
    match value.dropWhile isDecimal with
    | [] => true
    | c :: fraction => c == 0x2e && fraction ≠ [] && fraction.all isDecimal

/-- `_parse_number(value, integer=False)`. -/
def parseNumber (value : Text) : Except ValueError FloatText := do
  require (isDecimalText value) .value
  match float binary64 (value.map Char.ofNat) with
  | some x => pure x
  | none => throw .value

/-- `_csv_fields`. -/
def csvFields (value : Text) : Except ValueError (List Text) :=
  match Csv.readRow value with
  | none => .error .csv
  | some fields => .ok (fields.map stripBlanks)

/-- `_identifier_too_long`. -/
def identifierTooLong (value : Text) : Bool := MAX_IDENTIFIER_CODEPOINTS < value.length

/-- `[item for item in _CARD_SEPARATOR.split(value) if item]`. -/
def splitCards (value : Text) : List Text :=
  (value.splitOnP fun c => isBlank c || c == 0x2c).filter (· ≠ [])

/-- What a value is read as: what it puts into the data. -/
inductive Entry where
  | string (field : ScalarField) (value : Text)
  | tableSize (value : Nat)
  | number (field : ScalarField) (value : FloatText)
  | cards (field : ScalarField) (value : List Text)
  | player (player : PlayerStack)
  | action (action : HandAction)

/-- The key that an entry is of. -/
def Entry.key : Entry → Key
  | string field _ => .scalar field
  | tableSize _ => .scalar .tableSize
  | number field _ => .scalar field
  | cards field _ => .scalar field
  | player _ => .player
  | action _ => .action

def Entry.insert (data : HandData) : Entry → HandData
  | string field value => { data with strings := Function.update data.strings field (some value) }
  | tableSize value => { data with tableSize := some value }
  | number field value => { data with numbers := Function.update data.numbers field (some value) }
  | cards field value => { data with cards := Function.update data.cards field (some value) }
  | player p => { data with players := data.players ++ [p] }
  | action a => { data with actions := data.actions ++ [a] }

/-- A scalar value, by the type of its key. -/
def parseScalar (field : ScalarField) (value : Text) : Except ValueError Entry :=
  match field with
  | .tableSize => do
    let n ← parseInteger value
    pure (.tableSize n)
  | .smallBlind | .bigBlind | .ante | .rake => do
    let x ← parseNumber value
    pure (.number field x)
  | .heroCards | .board => pure (.cards field (splitCards value))
  | .analysisObjective => pure (.string field value)
  | .gameType | .format | .heroPlayerId => do
    require (identifierTooLong value = false) .overflow
    pure (.string field value)

/-- A `player` record after `count` others. -/
def parsePlayer (count : Nat) (value : Text) : Except ValueError Entry := do
  let items ← csvFields value
  match items with
  | [playerId, position, stack] =>
    require ([playerId, position].all fun item => !identifierTooLong item) .overflow
    require (count < MAX_PLAYERS) .tooMany
    let startingStack ← parseNumber stack
    pure (.player ⟨playerId, position, startingStack⟩)
  | _ => throw .index

/-- `to_amount`, which an empty field is not. -/
def readToAmount (item : Text) : Except ValueError (Option FloatText) :=
  if item = [] then pure none else (parseNumber item).map some

/-- The fields of an `action` record. -/
def readAction (count : Nat) (street actor action amount toAmount : Text) :
    Except ValueError Entry := do
  require ([street, actor, action].all fun item => !identifierTooLong item) .overflow
  require (count < MAX_ACTIONS) .tooMany
  let amount ← parseNumber amount
  let toAmount ← readToAmount toAmount
  pure (.action ⟨street, actor, action, amount, toAmount⟩)

/-- An `action` record after `count` others. -/
def parseAction (count : Nat) (value : Text) : Except ValueError Entry := do
  let items ← csvFields value
  match items with
  | [street, actor, action, amount] => readAction count street actor action amount []
  | [street, actor, action, amount, toAmount] => readAction count street actor action amount toAmount
  | _ => throw .index

end PokerDeliberation.Normalization
