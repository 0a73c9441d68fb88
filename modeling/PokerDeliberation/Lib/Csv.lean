import PokerDeliberation.Lib.Utf8

/-!
# CSV records

`csv.reader` on one line without line breaks, for the default dialect with
`skipinitialspace` and `strict`: a machine that reads a character at a time. A
quote that is not closed is an error, and so is what follows a closing quote
unless it is a comma.
-/

namespace PokerDeliberation.Lib.Csv

inductive State where
  | startRecord | startField | inField | inQuotedField | quoteInQuotedField
  deriving DecidableEq, Repr

/-- The reader: the field it is in, and the fields before it. -/
structure Reader where
  state : State := .startRecord
  field : Text := []
  fields : List Text := []

/-- `parse_save_field`. -/
def Reader.save (r : Reader) (state : State) : Reader :=
  { state := state, field := [], fields := r.fields ++ [r.field] }

/-- `parse_add_char`. -/
def Reader.add (r : Reader) (c : Nat) (state : State) : Reader :=
  { r with state := state, field := r.field ++ [c] }

def quote : Nat := 0x22
def comma : Nat := 0x2c
def space : Nat := 0x20

/-- `parse_process_char`; `none` is `csv.Error`. -/
def Reader.step (r : Reader) (c : Nat) : Option Reader :=
  match r.state with
  | .startRecord | .startField =>
    if c = quote then some { r with state := .inQuotedField }
    else if c = space then some { r with state := .startField }
    else if c = comma then some (r.save .startField)
    else some (r.add c .inField)
  | .inField => if c = comma then some (r.save .startField) else some (r.add c .inField)
  | .inQuotedField =>
    if c = quote then some { r with state := .quoteInQuotedField }
    else some (r.add c .inQuotedField)
  | .quoteInQuotedField =>
    if c = quote then some (r.add c .inQuotedField)
    else if c = comma then some (r.save .startField)
    else none

/-- The end of the line, which is the end of the input. -/
def Reader.finish (r : Reader) : Option (List Text) :=
  match r.state with
  | .startRecord => some []
  | .inQuotedField => none
  | _ => some (r.save .startRecord).fields

/-- `next(csv.reader([line], skipinitialspace=True, strict=True))`. -/
def readRow (line : Text) : Option (List Text) := do
  let r ← line.foldlM Reader.step {}
  r.finish

example : readRow (text "a, \"b,\"\"c\" ,d") = none := by decide
example : readRow (text "a, \"b,\"\"c\",,d ") =
    some [text "a", text "b,\"c", text "", text "d "] := by decide

end PokerDeliberation.Lib.Csv
