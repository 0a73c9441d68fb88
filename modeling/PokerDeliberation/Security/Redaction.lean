import PokerDeliberation.Lib.Fresh
import PokerDeliberation.Lib.Json.Numbers
import PokerDeliberation.Lib.Json.Value
import PokerDeliberation.Security.Shapes

/-!
# Redaction

A redacted value has its strings and its keys redacted, and the marker under
every key with a sensitive name. Keys that redact to the same text are told
apart by a suffix, which is put on after the text was checked for a secret
shape. What the patterns, the shape and the sensitive names are is a parameter.
-/

namespace PokerDeliberation.Security

open Lib Lib.Json

/-- What redaction rests on: the marker has no secret shape, and no pattern is found in it. -/
structure Redactor where
  substitute : Text → Text
  shape : Text → Bool
  sensitive : Text → Bool
  shape_marker : shape MARKER = false
  substitute_marker : substitute MARKER = MARKER

/-- The patterns of the source. -/
def sourceRedactor (u : Unicode) : Redactor where
  substitute := substituteAll u
  shape := containsSecretShape u
  sensitive := sensitiveName u
  shape_marker := containsSecretShape_marker u
  substitute_marker := substituteAll_marker u

variable {F : Type} (r : Redactor)

/-- `_redact_text`. -/
def redactText (value : Text) : Text :=
  let redacted := r.substitute value
  if r.shape redacted then MARKER else redacted

/-- `f"{candidate} [collision {ordinal}]"` -/
def collisionKey (candidate : Text) (ordinal : Nat) : Text :=
  candidate ++ (text " [collision " ++ (digits ordinal ++ text "]"))

/-- `_collision_free_key`; the ordinals run out of occupied keys. -/
def collisionFreeKey (candidate : Text) (occupied : List Text) : Text :=
  if candidate ∈ occupied then
    firstFree (collisionKey candidate) occupied (occupied.length + 1) 2
  else candidate

mutual

/-- `redact_sensitive`. -/
def redactSensitive : Value F → Value F
  | .obj items => .obj (redactItems [] items)
  | .arr xs => .arr (redactAll xs)
  | .str s => .str (redactText r s)
  | .null => .null
  | .bool b => .bool b
  | .int n => .int n
  | .float x => .float x

def redactAll : List (Value F) → List (Value F)
  | [] => []
  | x :: xs => redactSensitive x :: redactAll xs

/-- The items of a mapping one after another, with the keys that are occupied. -/
def redactItems (occupied : List Text) : List (Text × Value F) → List (Text × Value F)
  | [] => []
  | (key, item) :: items =>
    let safeKey := collisionFreeKey (redactText r key) occupied
    (safeKey, if r.sensitive key then .str MARKER else redactSensitive item) ::
      redactItems (occupied ++ [safeKey]) items

end

/-! ## What redaction is for -/

mutual

/-- The same structure and the same leaves, strings apart, outside sensitive keys. -/
def Kept : Value F → Value F → Prop
  | .obj items, w => ∃ items', w = .obj items' ∧ KeptItems items items'
  | .arr xs, w => ∃ ys, w = .arr ys ∧ KeptAll xs ys
  | .str _, w => ∃ t, w = .str t
  | .null, w => w = .null
  | .bool b, w => w = .bool b
  | .int n, w => w = .int n
  | .float x, w => w = .float x

def KeptAll : List (Value F) → List (Value F) → Prop
  | [], ys => ys = []
  | x :: xs, ys => ∃ y ys', ys = y :: ys' ∧ Kept x y ∧ KeptAll xs ys'

/-- Item by item; the value under a sensitive name is the marker. -/
def KeptItems : List (Text × Value F) → List (Text × Value F) → Prop
  | [], ys => ys = []
  | (key, x) :: items, ys => ∃ key' y ys', ys = (key', y) :: ys' ∧
      (if r.sensitive key then y = .str MARKER else Kept x y) ∧ KeptItems items ys'

end

/-- `w` is a redaction of `v` in which nothing secret is left and nothing is lost. -/
structure Redacts (v w : Value F) : Prop where
  unshaped : ∀ s ∈ w.strings, r.shape s = false
  masked : ∀ items ∈ w.objects, ∀ x ∈ items, r.sensitive x.1 → x.2 = .str MARKER
  kept : Kept r v w
  distinct : w.Distinct
  stable : redactSensitive r w = w

/-! ## When it is reached -/

/-- The keys a mapping with these keys is redacted to. -/
def safeKeys (occupied : List Text) : List Text → List Text
  | [] => []
  | key :: keys =>
    collisionFreeKey (redactText r key) occupied ::
      safeKeys (occupied ++ [collisionFreeKey (redactText r key) occupied]) keys

/-- No key gets a secret shape with its suffix, and the keys are redacted to themselves. -/
def KeysSettled (keys : List Text) : Prop :=
  (∀ x ∈ keys.zip (safeKeys r [] keys), x.2 ≠ redactText r x.1 → r.shape x.2 = false) ∧
    safeKeys r [] (safeKeys r [] keys) = safeKeys r [] keys

/-- A string that is redacted as a whole. -/
def RedactedWhole : Value F → Prop
  | .str s => redactText r s = MARKER
  | _ => False

mutual

/-- At every string and every mapping that redaction reaches: the redacted string is redacted
to itself, the keys are settled, and a key that gets a sensitive name by being redacted
holds a string that is redacted as a whole. -/
def Settled : Value F → Prop
  | .obj items => KeysSettled r (items.map Prod.fst) ∧
      SettledItems (safeKeys r [] (items.map Prod.fst)) items
  | .arr xs => SettledAll xs
  | .str s => redactText r (redactText r s) = redactText r s
  | .null | .bool _ | .int _ | .float _ => True

def SettledAll : List (Value F) → Prop
  | [] => True
  | x :: xs => Settled x ∧ SettledAll xs

def SettledItems : List Text → List (Text × Value F) → Prop
  | name :: names, (key, x) :: items =>
    (r.sensitive key ∨ Settled x ∧ (r.sensitive name → RedactedWhole r x)) ∧
      SettledItems names items
  | _, _ => True

end

end PokerDeliberation.Security
