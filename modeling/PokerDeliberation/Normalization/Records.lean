import PokerDeliberation.Normalization.Parser

/-!
# The record grammar

What a document of records is, without the loop that reads it: lines that are
blank, comments or spell a record, every scalar key at most once, and values
that can be read. The records put the hand's data together.
-/

namespace PokerDeliberation.Normalization

open Lib Lib.Patterns

abbrev Record := Key × Text

/-- Neither end is blank. -/
structure Trimmed (value : Text) : Prop where
  head : ∀ c ∈ value.head?, isBlank c = false
  last : ∀ c ∈ value.getLast?, isBlank c = false

/-- A line spells a record: its key in any case, a colon and the value, with blanks around
both. -/
inductive Spells : Text → Record → Prop where
  | intro {indent keyText gap lead value trail : Text} {key : Key} :
    (∀ c ∈ indent, isBlank c) → (∀ c ∈ keyText, isKeyChar c) →
    keyText.map lowered = key.name → (∀ c ∈ gap, isBlank c) → (∀ c ∈ lead, isBlank c) →
    Trimmed value → (∀ c ∈ trail, isBlank c) →
    Spells (indent ++ (keyText ++ (gap ++ 0x3a :: (lead ++ (value ++ trail))))) (key, value)

/-- The scalar key of a record, if it has one. -/
def scalarOf (r : Record) : Option ScalarField :=
  match r.1 with
  | .scalar field => some field
  | _ => none

/-- What the value of a record is read as. -/
def entryOf (r : Record) : Except ValueError Entry := parseValue {} r.1 r.2

/-- What a record puts into the data. -/
def applyRecord (data : HandData) (r : Record) : HandData :=
  match entryOf r with
  | .ok entry => entry.insert data
  | .error _ => data

/-- The data that the records put together. -/
def assemble (records : List Record) : HandData := records.foldl applyRecord {}

/-- The lines follow the grammar and spell these records. -/
structure Follows (lines : List Text) (records : List Record) : Prop where
  short : ∀ line ∈ lines, encodedLength line ≤ MAX_LINE_BYTES
  spelled : List.Forall₂ Spells (lines.filter fun line => !isIgnored line) records
  distinct : (records.filterMap scalarOf).Nodup
  players : (records.countP fun r => r.1 = .player) ≤ MAX_PLAYERS
  actions : (records.countP fun r => r.1 = .action) ≤ MAX_ACTIONS
  readable : ∀ r ∈ records, ∃ entry, entryOf r = .ok entry

/-! ## Spelling -/

variable {raw raw' t value : Text} {key : Key} {r : Record} {lines : List Text}
  {records : List Record} {data : HandData}

/-- The record that a line spells, by the source's own pattern. -/
def recordOf (raw : Text) : Option Record :=
  match matchLine raw with
  | none => none
  | some (keyText, value) => (Key.ofName (keyText.map lowered)).map fun key => (key, value)

theorem ofName_name (key : Key) : Key.ofName key.name = some key := by
  cases key with
  | scalar field => cases field <;> decide
  | player => decide
  | action => decide

theorem name_of_ofName {name : Text} (h : Key.ofName name = some key) : key.name = name := by
  simpa using List.find?_some h

theorem isBlank_of_isKeyChar {c : Nat} (h : isKeyChar c = true) : isBlank c = false := by
  simp only [isKeyChar, isLetter, Bool.or_eq_true, Bool.and_eq_true, decide_eq_true_eq,
    beq_iff_eq] at h
  simp only [isBlank, TAB, Bool.or_eq_false_iff, beq_eq_false_iff_ne]
  omega

/-- A run of a class up to where something else begins. -/
theorem takeWhile_append_stop {p : Nat → Bool} {xs : Text} (hall : ∀ c ∈ xs, p c)
    (hstop : ∀ c ∈ t.head?, p c = false) :
    (xs ++ t).takeWhile p = xs ∧ (xs ++ t).dropWhile p = t := by
  rw [List.takeWhile_append_of_pos hall, List.dropWhile_append_of_pos hall]
  cases t with
  | nil => simp
  | cons c t => simp [hstop c rfl]

theorem dropWhile_of_head (h : ∀ c ∈ t.head?, isBlank c = false) : t.dropWhile isBlank = t := by
  cases t with
  | nil => rfl
  | cons c t => exact List.dropWhile_cons_of_neg (by simp [h c rfl])

/-- Blanks around a trimmed text are stripped. -/
theorem stripBlanks_around {lead trail : Text} (hlead : ∀ c ∈ lead, isBlank c)
    (hvalue : Trimmed value) (htrail : ∀ c ∈ trail, isBlank c) :
    stripBlanks (lead ++ (value ++ trail)) = value := by
  rw [stripBlanks, List.dropWhile_append_of_pos hlead]
  cases value with
  | nil =>
    have hnil : trail.dropWhile isBlank = [] := List.dropWhile_eq_nil_iff.2 htrail
    rw [List.nil_append, hnil]
    rfl
  | cons c value =>
    have hhead : (c :: value ++ trail).dropWhile isBlank = c :: value ++ trail :=
      dropWhile_of_head hvalue.head
    rw [hhead, List.rdropWhile, List.reverse_append,
      List.dropWhile_append_of_pos (by simpa using htrail)]
    have hlast : (c :: value).reverse.dropWhile isBlank = (c :: value).reverse :=
      dropWhile_of_head (by rw [List.head?_reverse]; exact hvalue.last)
    rw [hlast, List.reverse_reverse]

theorem trimmed_stripBlanks (t : Text) : Trimmed (stripBlanks t) := by
  have hpre : stripBlanks t <+: t.dropWhile isBlank := List.rdropWhile_prefix ..
  constructor
  · intro c hc
    obtain ⟨rest, heq⟩ := hpre
    have hhead : (t.dropWhile isBlank).head? = some c := by
      rw [← heq, List.head?_append, hc]
      rfl
    have hne : t.dropWhile isBlank ≠ [] := by
      intro hnil
      rw [hnil] at hhead
      cases hhead
    have hnot := List.head_dropWhile_not isBlank hne
    rw [List.head?_eq_some_head hne, Option.some.injEq] at hhead
    rwa [hhead] at hnot
  · intro c hc
    have hne : stripBlanks t ≠ [] := by
      intro hnil
      rw [hnil] at hc
      cases hc
    have hnot := List.rdropWhile_last_not _ _ hne
    rw [List.getLast?_eq_some_getLast hne, Option.mem_some_iff] at hc
    subst hc
    exact Bool.eq_false_of_not_eq_true hnot

/-- A text is what is left of it after stripping, between blanks. -/
theorem exists_stripBlanks (t : Text) : ∃ lead trail, (∀ c ∈ lead, isBlank c) ∧
    (∀ c ∈ trail, isBlank c) ∧ t = lead ++ (stripBlanks t ++ trail) := by
  refine ⟨t.takeWhile isBlank, (t.dropWhile isBlank).rtakeWhile isBlank,
    fun c hc => List.mem_takeWhile_imp hc, fun c hc => List.mem_rtakeWhile_imp hc, ?_⟩
  rw [stripBlanks, List.rdropWhile_append_rtakeWhile, List.takeWhile_append_dropWhile]

theorem name_ne_nil (key : Key) : key.name ≠ [] := by
  cases key with
  | scalar field => cases field <;> decide
  | player => decide
  | action => decide

/-- The pattern splits a line at its first colon. -/
theorem matchLine_eq_some {keyText : Text} (h : matchLine raw = some (keyText, value)) :
    keyText ≠ [] ∧ ∃ indent gap after, (∀ c ∈ indent, isBlank c) ∧ (∀ c ∈ keyText, isKeyChar c) ∧
      (∀ c ∈ gap, isBlank c) ∧ raw = indent ++ (keyText ++ (gap ++ 0x3a :: after)) ∧
      value = stripBlanks after := by
  have hraw := List.takeWhile_append_dropWhile (p := isBlank) (l := raw)
  have hrest := List.takeWhile_append_dropWhile (p := isKeyChar) (l := raw.dropWhile isBlank)
  have hmore := List.takeWhile_append_dropWhile (p := isBlank)
    (l := (raw.dropWhile isBlank).dropWhile isKeyChar)
  cases htail : ((raw.dropWhile isBlank).dropWhile isKeyChar).dropWhile isBlank with
  | nil => simp [matchLine, htail] at h
  | cons c after =>
    rw [htail] at hmore
    simp only [matchLine, htail, Option.ite_none_right_eq_some, Option.some.injEq,
      Prod.mk.injEq] at h
    obtain ⟨⟨rfl, hne⟩, rfl, rfl⟩ := h
    refine ⟨hne, raw.takeWhile isBlank,
      ((raw.dropWhile isBlank).dropWhile isKeyChar).takeWhile isBlank, after, fun c hc => List.mem_takeWhile_imp hc,
      fun c hc => List.mem_takeWhile_imp hc, fun c hc => List.mem_takeWhile_imp hc, ?_, rfl⟩
    rw [hmore, hrest, hraw]

theorem matchLine_of_parts {indent keyText gap after : Text} (hindent : ∀ c ∈ indent, isBlank c)
    (hne : keyText ≠ []) (hkey : ∀ c ∈ keyText, isKeyChar c) (hgap : ∀ c ∈ gap, isBlank c) :
    matchLine (indent ++ (keyText ++ (gap ++ 0x3a :: after))) = some (keyText, stripBlanks after) := by
  have hcolon : ∀ d ∈ (0x3a :: after : Text).head?, isBlank d = false := by
    rintro d hd
    obtain rfl : 0x3a = d := by simpa using hd
    decide
  -- the key ends where a blank or the colon begins, and begins with what is no blank
  have hend : ∀ d ∈ (gap ++ 0x3a :: after).head?, isKeyChar d = false := by
    intro d hd
    cases gap with
    | nil =>
      obtain rfl : 0x3a = d := by simpa using hd
      decide
    | cons b gap =>
      obtain rfl : b = d := by simpa using hd
      have hblank := hgap b List.mem_cons_self
      refine Bool.eq_false_of_not_eq_true fun hchar => ?_
      rw [isBlank_of_isKeyChar hchar] at hblank
      cases hblank
  have hstart : ∀ d ∈ (keyText ++ (gap ++ 0x3a :: after)).head?, isBlank d = false := by
    intro d hd
    obtain ⟨c, rest, rfl⟩ := List.exists_cons_of_ne_nil hne
    obtain rfl : c = d := by simpa using hd
    exact isBlank_of_isKeyChar (hkey c List.mem_cons_self)
  simp only [matchLine, (takeWhile_append_stop hindent hstart).2,
    (takeWhile_append_stop hkey hend).1, (takeWhile_append_stop hkey hend).2,
    (takeWhile_append_stop hgap hcolon).2]
  exact if_pos ⟨trivial, hne⟩

/-- What the pattern finds is what the line spells. -/
theorem recordOf_eq_some : recordOf raw = some r ↔ Spells raw r := by
  constructor
  · intro h
    unfold recordOf at h
    split at h
    · cases h
    · rename_i keyText value hmatch
      obtain ⟨key, hname, rfl⟩ := Option.map_eq_some_iff.1 h
      obtain ⟨-, indent, gap, after, hindent, hkey, hgap, rfl, rfl⟩ := matchLine_eq_some hmatch
      obtain ⟨lead, trail, hlead, htrail, hafter⟩ := exists_stripBlanks after
      rw [hafter]
      have hspells := Spells.intro hindent hkey (name_of_ofName hname).symm hgap hlead
        (trimmed_stripBlanks after) htrail
      rwa [← hafter] at hspells ⊢
  · rintro ⟨hindent, hkey, hname, hgap, hlead, hvalue, htrail⟩
    rename_i indent keyText gap lead value trail key
    have hne : keyText ≠ [] := by
      rintro rfl
      exact name_ne_nil key hname.symm
    rw [recordOf, matchLine_of_parts hindent hne hkey hgap, stripBlanks_around hlead hvalue htrail]
    simp only [hname, ofName_name, Option.map_some]

/-- A line that spells a record is neither blank nor a comment. -/
theorem Spells.not_ignored (h : Spells raw r) : isIgnored raw = false := by
  obtain ⟨hindent, hkey, hname, hgap, hlead, hvalue, htrail⟩ := h
  rename_i indent keyText gap lead value trail key
  have hne : keyText ≠ [] := by
    rintro rfl
    exact name_ne_nil key hname.symm
  obtain ⟨c, rest, rfl⟩ := List.exists_cons_of_ne_nil hne
  have hchar := hkey c List.mem_cons_self
  have hstart : ∀ d ∈ (c :: rest ++ (gap ++ 0x3a :: (lead ++ (value ++ trail)))).head?,
      isBlank d = false := by
    intro d hd
    obtain rfl : c = d := by simpa using hd
    exact isBlank_of_isKeyChar hchar
  rw [isIgnored, (takeWhile_append_stop hindent hstart).2]
  simp only [isKeyChar, isLetter, Bool.or_eq_true, Bool.and_eq_true, decide_eq_true_eq,
    beq_iff_eq] at hchar
  simp only [List.cons_append, beq_eq_false_iff_ne]
  omega

/-- A line spells one record at most. -/
theorem Spells.unique {r' : Record} (h : Spells raw r) (h' : Spells raw r') : r = r' := by
  rw [← recordOf_eq_some] at h h'
  exact Option.some.inj (h.symm.trans h')

/-! ## Entries -/

variable {entry : Entry} {count : Nat}

/-- The limit of the players is the only use of their number. -/
theorem parsePlayer_ok : parsePlayer count value = .ok entry ↔
    parsePlayer 0 value = .ok entry ∧ count < MAX_PLAYERS := by
  have hzero : (0 < MAX_PLAYERS) = True := by decide
  cases hitems : csvFields value with
  | error e => simp [parsePlayer, hitems, bind, Except.bind]
  | ok items =>
    rcases items with _ | ⟨a, _ | ⟨b, _ | ⟨c, _ | _⟩⟩⟩
    case cons.cons.cons.nil =>
      simp only [parsePlayer, hitems, bind_ok_left rfl, require_bind_eq_ok, hzero, true_and]
      tauto
    all_goals
      simp [parsePlayer, hitems, bind, Except.bind, throw, throwThe, MonadExceptOf.throw]

theorem readAction_ok {a b c d e : Text} : readAction count a b c d e = .ok entry ↔
    readAction 0 a b c d e = .ok entry ∧ count < MAX_ACTIONS := by
  have hzero : (0 < MAX_ACTIONS) = True := by decide
  simp only [readAction, require_bind_eq_ok, hzero, true_and]
  tauto

theorem parseAction_ok : parseAction count value = .ok entry ↔
    parseAction 0 value = .ok entry ∧ count < MAX_ACTIONS := by
  cases hitems : csvFields value with
  | error e => simp [parseAction, hitems, bind, Except.bind]
  | ok items =>
    rcases items with _ | ⟨a, _ | ⟨b, _ | ⟨c, _ | ⟨d, _ | ⟨e, _ | _⟩⟩⟩⟩⟩
    case cons.cons.cons.cons.nil =>
      simp only [parseAction, hitems, bind_ok_left rfl]
      exact readAction_ok
    case cons.cons.cons.cons.cons.nil =>
      simp only [parseAction, hitems, bind_ok_left rfl]
      exact readAction_ok
    all_goals
      simp [parseAction, hitems, bind, Except.bind, throw, throwThe, MonadExceptOf.throw]

/-- Reading a record after others: its own value, and the limits. -/
theorem parseValue_ok : parseValue data r.1 r.2 = .ok entry ↔ entryOf r = .ok entry ∧
    (r.1 = .player → data.players.length < MAX_PLAYERS) ∧
    (r.1 = .action → data.actions.length < MAX_ACTIONS) := by
  obtain ⟨key, value⟩ := r
  cases key with
  | scalar field => simp [entryOf, parseValue]
  | player => simpa [entryOf, parseValue] using parsePlayer_ok
  | action => simpa [entryOf, parseValue] using parseAction_ok

theorem key_of_parseScalar {field : ScalarField} (h : parseScalar field value = .ok entry) :
    entry.key = .scalar field := by
  cases field <;>
    simp only [parseScalar, bind_eq_ok, require_eq_ok, exists_const, pure_eq_ok] at h
  case tableSize =>
    obtain ⟨_, -, rfl⟩ := h
    rfl
  case smallBlind | bigBlind | ante | rake =>
    obtain ⟨_, -, rfl⟩ := h
    rfl
  case heroCards | board | analysisObjective =>
    subst h
    rfl
  all_goals
    obtain ⟨-, rfl⟩ := h
    rfl

theorem key_of_parsePlayer (h : parsePlayer count value = .ok entry) : entry.key = .player := by
  simp only [parsePlayer, bind_eq_ok] at h
  obtain ⟨items, -, h⟩ := h
  split at h
  · simp only [bind_eq_ok, pure_eq_ok] at h
    obtain ⟨_, -, _, -, _, -, rfl⟩ := h
    rfl
  · exact absurd h throw_ne_ok

theorem key_of_readAction {a b c d e : Text} (h : readAction count a b c d e = .ok entry) :
    entry.key = .action := by
  simp only [readAction, bind_eq_ok, pure_eq_ok] at h
  obtain ⟨_, -, _, -, _, -, _, -, rfl⟩ := h
  rfl

theorem key_of_parseAction (h : parseAction count value = .ok entry) : entry.key = .action := by
  simp only [parseAction, bind_eq_ok] at h
  obtain ⟨items, -, h⟩ := h
  split at h
  · exact key_of_readAction h
  · exact key_of_readAction h
  · exact absurd h throw_ne_ok

/-- A record's entry is of its key. -/
theorem key_of_entryOf (h : entryOf r = .ok entry) : entry.key = r.1 := by
  obtain ⟨key, value⟩ := r
  cases key with
  | scalar field => exact key_of_parseScalar h
  | player => exact key_of_parsePlayer h
  | action => exact key_of_parseAction h

/-- Entries of different keys can change places. -/
theorem insert_comm {entry' : Entry} (h : entry.key ≠ entry'.key) :
    entry'.insert (entry.insert data) = entry.insert (entry'.insert data) := by
  cases entry <;> cases entry' <;> simp only [Entry.key, ne_eq, Key.scalar.injEq, not_true] at h <;>
    simp only [Entry.insert] <;> rw [Function.update_comm h]

end PokerDeliberation.Normalization
