import PokerDeliberation.Normalization.Records

/-!
# The loop over the lines

The loop never raises, and a diagnostic once appended stays. It ends without
diagnostics exactly when the lines follow the grammar, and then its data is what
the records put together.
-/

namespace PokerDeliberation.Normalization

open Lib Lib.Patterns

variable {s s' : ParseState} {raw value : Text} {key : Key} {r : Record} {lines : List Text}
  {records : List Record} {line : Nat}

/-! ## The loop does not raise -/

/-- What holds of the variables of the loop: the lines it has noted are lines of a document,
and the diagnostics are errors. -/
structure Tidy (s : ParseState) : Prop where
  lines : ∀ noted ∈ s.fieldLines, 1 ≤ noted.2 ∧ noted.2 ≤ MAX_LINES
  errors : ∀ d ∈ s.diagnostics, d.severity = .error

theorem diagnostic_ok {code : NormalizationDiagnosticCode} {at_ : Option Nat}
    {field : NormalizationField} (h : ∀ n ∈ at_, 1 ≤ n ∧ n ≤ MAX_LINES) :
    diagnostic code at_ field = .ok ⟨.error, code, at_, some field⟩ := by
  rw [diagnostic, require_of h]
  rfl

theorem report_tidy {code : NormalizationDiagnosticCode} {field : NormalizationField}
    (h : Tidy s) (hline : 1 ≤ line ∧ line ≤ MAX_LINES) :
    ∃ s', s.report code line field = .ok s' ∧ Tidy s' ∧ s'.diagnostics ≠ [] := by
  have hok : diagnostic code (some line) field = .ok ⟨.error, code, some line, some field⟩ :=
    diagnostic_ok fun n hn => by
      obtain rfl := Option.some.inj hn
      exact hline
  refine ⟨{ s with diagnostics := s.diagnostics ++ [⟨.error, code, some line, some field⟩] },
    by rw [ParseState.report, hok]; rfl, ⟨h.lines, ?_⟩, by simp⟩
  intro d hd
  rcases List.mem_append.1 hd with hold | hnew
  · exact h.errors d hold
  · obtain rfl := List.mem_singleton.1 hnew
    rfl

theorem mark_tidy (h : Tidy s) (key : Key) (hline : 1 ≤ line ∧ line ≤ MAX_LINES) :
    Tidy (s.mark key line) := by
  cases key with
  | scalar field =>
    refine ⟨fun noted hnoted => ?_, h.errors⟩
    rcases List.mem_append.1 hnoted with hold | hnew
    · exact h.lines noted hold
    · obtain rfl := List.mem_singleton.1 hnew
      exact hline
  | player => exact h
  | action => exact h

theorem mark_data (s : ParseState) (key : Key) (line : Nat) : (s.mark key line).data = s.data := by
  cases key <;> rfl

theorem mark_diagnostics (s : ParseState) (key : Key) (line : Nat) :
    (s.mark key line).diagnostics = s.diagnostics := by
  cases key <;> rfl

theorem mark_seen (s : ParseState) (r : Record) (line : Nat) :
    (s.mark r.1 line).seenScalars = s.seenScalars ++ (scalarOf r).toList := by
  obtain ⟨key, value⟩ := r
  cases key <;> simp [ParseState.mark, scalarOf]

/-! ## What a step does -/

/-- A record that is taken in: its key is new, and its value can be read after those before
it. -/
structure Takes (s : ParseState) (r : Record) (entry : Entry) : Prop where
  fresh : r.1 ∉ s.seenScalars.map Key.scalar
  read : parseValue s.data r.1 r.2 = .ok entry

/-- The variables after a record was taken in. -/
structure Taken (s : ParseState) (r : Record) (entry : Entry) (s' : ParseState) : Prop where
  data : s'.data = entry.insert s.data
  seen : s'.seenScalars = s.seenScalars ++ (scalarOf r).toList
  diagnostics : s'.diagnostics = s.diagnostics

theorem recordStep_cases (h : Tidy s) (r : Record) (hline : 1 ≤ line ∧ line ≤ MAX_LINES) :
    ∃ s', recordStep s line r.1 r.2 = .ok s' ∧ Tidy s' ∧
      ((∃ entry, Takes s r entry ∧ Taken s r entry s') ∨
        (s'.diagnostics ≠ [] ∧ ∀ entry, ¬ Takes s r entry)) := by
  unfold recordStep
  split
  · rename_i hseen
    obtain ⟨s', hs', htidy, hne⟩ := report_tidy h hline
    exact ⟨s', hs', htidy, .inr ⟨hne, fun entry htakes => htakes.fresh hseen⟩⟩
  · rename_i hfresh
    simp only [mark_data]
    cases hread : parseValue s.data r.1 r.2 with
    | error e =>
      obtain ⟨s', hs', htidy, hne⟩ := report_tidy (mark_tidy h r.1 hline) hline
      refine ⟨s', hs', htidy, .inr ⟨hne, fun entry htakes => ?_⟩⟩
      have hok := htakes.read
      rw [hread] at hok
      cases hok
    | ok entry =>
      have htidy := mark_tidy h r.1 hline
      exact ⟨_, rfl, ⟨htidy.lines, htidy.errors⟩,
        .inl ⟨entry, ⟨hfresh, hread⟩, ⟨rfl, mark_seen s r line, mark_diagnostics s r.1 line⟩⟩⟩

/-- A line that the loop takes in without a diagnostic. -/
def Acceptable (s : ParseState) (raw : Text) : Prop :=
  encodedLength raw ≤ MAX_LINE_BYTES ∧
    (isIgnored raw ∨ ∃ r entry, Spells raw r ∧ Takes s r entry)

/-- What becomes of a line. -/
inductive LineOutcome (s : ParseState) (raw : Text) (s' : ParseState) : Prop where
  | ignored : encodedLength raw ≤ MAX_LINE_BYTES → isIgnored raw = true → s' = s →
      LineOutcome s raw s'
  | taken {r : Record} {entry : Entry} : encodedLength raw ≤ MAX_LINE_BYTES → Spells raw r →
      Takes s r entry → Taken s r entry s' → LineOutcome s raw s'
  | reported : s'.diagnostics ≠ [] → ¬ Acceptable s raw → LineOutcome s raw s'

theorem lineStep_cases {index : Nat} (h : Tidy s) (hindex : index < MAX_LINES) :
    ∃ s', lineStep s (raw, index) = .ok s' ∧ Tidy s' ∧ LineOutcome s raw s' := by
  have hline : 1 ≤ index + 1 ∧ index + 1 ≤ MAX_LINES := ⟨Nat.le_add_left .., hindex⟩
  have hreported : ∀ {code field}, ¬ Acceptable s raw →
      ∃ s', s.report code (index + 1) field = .ok s' ∧ Tidy s' ∧ LineOutcome s raw s' := by
    intro code field hnot
    obtain ⟨s', hs', htidy, hne⟩ := report_tidy h hline
    exact ⟨s', hs', htidy, .reported hne hnot⟩
  simp only [lineStep]
  split
  · rename_i hlong
    exact hreported fun hacceptable => absurd hacceptable.1 (by omega)
  rename_i hshort
  replace hshort : encodedLength raw ≤ MAX_LINE_BYTES := by omega
  by_cases hignored : isIgnored raw = true
  · rw [if_pos hignored]
    exact ⟨s, rfl, h, .ignored hshort hignored rfl⟩
  rw [if_neg hignored]
  have hnone : recordOf raw = none → ¬ Acceptable s raw := by
    rintro hnone ⟨-, hign | ⟨r, entry, hspells, -⟩⟩
    · exact hignored hign
    · rw [recordOf_eq_some.2 hspells] at hnone
      cases hnone
  cases hmatch : matchLine raw with
  | none => exact hreported (hnone (by rw [recordOf, hmatch]))
  | some found =>
    obtain ⟨keyText, value⟩ := found
    cases hname : Key.ofName (keyText.map lowered) with
    | none =>
      simp only [hname]
      exact hreported (hnone (by simp [recordOf, hmatch, hname]))
    | some key =>
      simp only [hname]
      have hspells : Spells raw (key, value) :=
        recordOf_eq_some.1 (by simp [recordOf, hmatch, hname])
      obtain ⟨s', hs', htidy, ⟨entry, htakes, htaken⟩ | ⟨hne, hnot⟩⟩ :=
        recordStep_cases h (key, value) hline
      · exact ⟨s', hs', htidy, .taken hshort hspells htakes htaken⟩
      · refine ⟨s', hs', htidy, .reported hne ?_⟩
        rintro ⟨-, hign | ⟨r, entry, hspells', htakes⟩⟩
        · exact hignored hign
        · obtain rfl := hspells.unique hspells'
          exact hnot entry htakes

/-! ## Grammar, one line at a time -/

theorem follows_concat_ignored (hignored : isIgnored raw = true) :
    Follows (lines ++ [raw]) records ↔ encodedLength raw ≤ MAX_LINE_BYTES ∧ Follows lines records := by
  have hfilter : (lines ++ [raw]).filter (fun line => !isIgnored line) =
      lines.filter fun line => !isIgnored line := by
    rw [List.filter_append, List.filter_cons_of_neg (by simp [hignored]), List.filter_nil,
      List.append_nil]
  constructor
  · rintro ⟨hshort, hspelled, hdistinct, hplayers, hactions, hreadable⟩
    rw [hfilter] at hspelled
    exact ⟨hshort raw (by simp), fun line hmem => hshort line (List.mem_append_left _ hmem),
      hspelled, hdistinct, hplayers, hactions, hreadable⟩
  · rintro ⟨hraw, hshort, hspelled, hdistinct, hplayers, hactions, hreadable⟩
    refine ⟨fun line hmem => ?_, hfilter ▸ hspelled, hdistinct, hplayers, hactions, hreadable⟩
    rcases List.mem_append.1 hmem with hold | hnew
    · exact hshort line hold
    · obtain rfl := List.mem_singleton.1 hnew
      exact hraw

/-- The last record adds a key that is new, and is within the limits. -/
structure Extends (records : List Record) (r : Record) : Prop where
  fresh : ∀ field ∈ scalarOf r, field ∉ records.filterMap scalarOf
  player : r.1 = .player → (records.countP fun r => r.1 = .player) < MAX_PLAYERS
  action : r.1 = .action → (records.countP fun r => r.1 = .action) < MAX_ACTIONS
  readable : ∃ entry, entryOf r = .ok entry

theorem forall₂_concat {α β : Type} {R : α → β → Prop} {xs : List α} {x : α} {ys : List β} :
    List.Forall₂ R (xs ++ [x]) ys ↔
      ∃ init y, ys = init ++ [y] ∧ List.Forall₂ R xs init ∧ R x y := by
  induction xs generalizing ys with
  | nil =>
    rw [List.nil_append]
    constructor
    · intro h
      cases h with
      | cons hxy hnil =>
        cases hnil
        exact ⟨[], _, rfl, .nil, hxy⟩
    · rintro ⟨init, y, rfl, hnil, hxy⟩
      cases hnil
      exact .cons hxy .nil
  | cons a xs ih =>
    rw [List.cons_append]
    constructor
    · intro h
      cases h with
      | cons hab hrest =>
        obtain ⟨init, y, rfl, hinit, hxy⟩ := ih.1 hrest
        exact ⟨_ :: init, y, rfl, .cons hab hinit, hxy⟩
    · rintro ⟨init, y, rfl, hcons, hxy⟩
      cases hcons with
      | cons hab hinit => exact .cons hab (ih.2 ⟨_, y, rfl, hinit, hxy⟩)

theorem countP_concat_le {p : Record → Bool} {most : Nat} {init : List Record} :
    (init ++ [r]).countP p ≤ most ↔ init.countP p ≤ most ∧ (p r = true → init.countP p < most) := by
  rw [List.countP_append, List.countP_singleton]
  split
  · rename_i hp
    simp only [hp, forall_const]
    omega
  · rename_i hp
    simp [hp]

theorem follows_concat_record (hspells : Spells raw r) :
    Follows (lines ++ [raw]) records ↔ ∃ init, records = init ++ [r] ∧
      encodedLength raw ≤ MAX_LINE_BYTES ∧ Follows lines init ∧ Extends init r := by
  have hfilter : (lines ++ [raw]).filter (fun line => !isIgnored line) =
      (lines.filter fun line => !isIgnored line) ++ [raw] := by
    rw [List.filter_append, List.filter_cons_of_pos (by simp [hspells.not_ignored]), List.filter_nil]
  have hnodup : ∀ init : List Record, ((init ++ [r]).filterMap scalarOf).Nodup ↔
      (init.filterMap scalarOf).Nodup ∧ ∀ field ∈ scalarOf r, field ∉ init.filterMap scalarOf := by
    intro init
    rw [List.filterMap_append]
    cases hscalar : scalarOf r with
    | none => simp [hscalar]
    | some field =>
      rw [List.filterMap_cons_some hscalar, List.filterMap_nil, ← List.concat_eq_append,
        List.nodup_concat, and_comm]
      simp
  constructor
  · rintro ⟨hshort, hspelled, hdistinct, hplayers, hactions, hreadable⟩
    rw [hfilter, forall₂_concat] at hspelled
    obtain ⟨init, r', rfl, hinit, hspells'⟩ := hspelled
    obtain rfl := hspells.unique hspells'
    obtain ⟨hdistinct, hfresh⟩ := (hnodup init).1 hdistinct
    obtain ⟨hplayers, hplayer⟩ := countP_concat_le.1 hplayers
    obtain ⟨hactions, haction⟩ := countP_concat_le.1 hactions
    refine ⟨init, rfl, hshort raw (by simp), ⟨fun line hmem => hshort line (by simp [hmem]), hinit,
      hdistinct, hplayers, hactions, fun r hr => hreadable r (by simp [hr])⟩, hfresh, ?_, ?_,
      hreadable r (by simp)⟩
    · exact fun hkey => hplayer (by simpa using hkey)
    · exact fun hkey => haction (by simpa using hkey)
  · rintro ⟨init, rfl, hraw, ⟨hshort, hspelled, hdistinct, hplayers, hactions, hreadable⟩, hfresh,
      hplayer, haction, hentry⟩
    refine ⟨fun line hmem => ?_, ?_, (hnodup init).2 ⟨hdistinct, hfresh⟩,
      countP_concat_le.2 ⟨hplayers, fun hkey => hplayer (by simpa using hkey)⟩,
      countP_concat_le.2 ⟨hactions, fun hkey => haction (by simpa using hkey)⟩, fun r' hr' => ?_⟩
    · rcases List.mem_append.1 hmem with hold | hnew
      · exact hshort line hold
      · obtain rfl := List.mem_singleton.1 hnew
        exact hraw
    · rw [hfilter]
      exact forall₂_concat.2 ⟨init, r, rfl, hspelled, hspells⟩
    · rcases List.mem_append.1 hr' with hold | hnew
      · exact hreadable r' hold
      · obtain rfl := List.mem_singleton.1 hnew
        exact hentry

/-! ## The data of the records -/

theorem assemble_concat : assemble (records ++ [r]) = applyRecord (assemble records) r := by
  rw [assemble, List.foldl_append]
  rfl

/-- Each player record adds a player, and each action record an action. -/
theorem length_insert (entry : Entry) (data : HandData) :
    (entry.insert data).players.length = data.players.length +
      (if entry.key = .player then 1 else 0) ∧
    (entry.insert data).actions.length = data.actions.length +
      if entry.key = .action then 1 else 0 := by
  cases entry <;> simp [Entry.insert, Entry.key]

theorem length_assemble (h : ∀ r ∈ records, ∃ entry, entryOf r = .ok entry) :
    (assemble records).players.length = (records.countP fun r => r.1 = .player) ∧
    (assemble records).actions.length = records.countP fun r => r.1 = .action := by
  induction records using List.reverseRecOn with
  | nil => exact ⟨rfl, rfl⟩
  | append_singleton records r ih =>
    obtain ⟨entry, hentry⟩ := h r (by simp)
    obtain ⟨hplayers, hactions⟩ := ih fun r hr => h r (by simp [hr])
    have hkey := key_of_entryOf hentry
    have hinsert := length_insert entry (assemble records)
    rw [hkey] at hinsert
    rw [assemble_concat, applyRecord, hentry, List.countP_append, List.countP_append,
      List.countP_singleton, List.countP_singleton]
    simpa [hplayers, hactions] using hinsert

/-! ## The whole loop -/

/-- The variables of the loop after lines that follow the grammar. -/
structure Reads (records : List Record) (s : ParseState) : Prop where
  data : s.data = assemble records
  seen : s.seenScalars = records.filterMap scalarOf

theorem key_mem_seen (r : Record) (fields : List ScalarField) :
    r.1 ∉ fields.map Key.scalar ↔ ∀ field ∈ scalarOf r, field ∉ fields := by
  obtain ⟨key, value⟩ := r
  cases key <;> simp [scalarOf]

/-- The loop takes in just the records that the grammar lets follow. -/
theorem Reads.takes_iff (h : Reads records s) (hfollows : Follows lines records) {entry : Entry} :
    Takes s r entry ↔ Extends records r ∧ entryOf r = .ok entry := by
  obtain ⟨hplayers, hactions⟩ := length_assemble hfollows.readable
  constructor
  · rintro ⟨hfresh, hread⟩
    rw [h.data, parseValue_ok, hplayers, hactions] at hread
    rw [h.seen, key_mem_seen] at hfresh
    exact ⟨⟨hfresh, hread.2.1, hread.2.2, entry, hread.1⟩, hread.1⟩
  · rintro ⟨⟨hfresh, hplayer, haction, -⟩, hentry⟩
    refine ⟨?_, ?_⟩
    · rw [h.seen, key_mem_seen]
      exact hfresh
    · rw [h.data, parseValue_ok, hplayers, hactions]
      exact ⟨hentry, hplayer, haction⟩

/-- What the loop has done after some lines. -/
structure Looped (lines : List Text) (s : ParseState) : Prop where
  tidy : Tidy s
  clean : s.diagnostics = [] ↔ ∃ records, Follows lines records
  reads : ∀ records, Follows lines records → Reads records s

theorem looped_nil : Looped [] {} := by
  refine ⟨⟨by simp, by simp⟩, iff_of_true rfl ⟨[], ?_⟩, fun records h => ?_⟩
  · exact ⟨by simp, .nil, List.nodup_nil, Nat.zero_le _, Nat.zero_le _, by simp⟩
  · cases h.spelled
    exact ⟨rfl, rfl⟩

/-- One more line. -/
theorem Looped.concat (h : Looped lines s) (htidy : Tidy s')
    (houtcome : LineOutcome s raw s') : Looped (lines ++ [raw]) s' := by
  cases houtcome with
  | ignored hshort hignored heq =>
    subst heq
    refine ⟨h.tidy, ?_, fun records hfollows => ?_⟩
    · rw [h.clean]
      exact exists_congr fun records => by simp [follows_concat_ignored hignored, hshort]
    · exact h.reads records ((follows_concat_ignored hignored).1 hfollows).2
  | taken hshort hspells htakes htaken =>
    rename_i r entry
    refine ⟨htidy, ?_, fun records hfollows => ?_⟩
    · rw [htaken.diagnostics, h.clean]
      constructor
      · rintro ⟨records, hfollows⟩
        have hextends := (((h.reads records hfollows).takes_iff hfollows).1 htakes).1
        exact ⟨_, (follows_concat_record hspells).2 ⟨records, rfl, hshort, hfollows, hextends⟩⟩
      · rintro ⟨records, hfollows⟩
        obtain ⟨init, -, -, hinit, -⟩ := (follows_concat_record hspells).1 hfollows
        exact ⟨init, hinit⟩
    · obtain ⟨init, rfl, -, hinit, -⟩ := (follows_concat_record hspells).1 hfollows
      have hreads := h.reads init hinit
      have hentry := ((hreads.takes_iff hinit).1 htakes).2
      refine ⟨?_, ?_⟩
      · rw [htaken.data, assemble_concat, applyRecord, hentry, hreads.data]
      · rw [htaken.seen, hreads.seen, List.filterMap_append]
        cases hscalar : scalarOf r <;> simp [hscalar]
  | reported hne hnot =>
    have hnone : ∀ records, ¬ Follows (lines ++ [raw]) records := by
      intro records hfollows
      refine hnot ⟨hfollows.short raw (by simp), ?_⟩
      by_cases hignored : isIgnored raw = true
      · exact .inl hignored
      · have hmem : raw ∈ (lines ++ [raw]).filter fun line => !isIgnored line := by simp [hignored]
        obtain ⟨r, -, hspells⟩ := exists_of_forall₂ hfollows.spelled hmem
        obtain ⟨init, -, -, hinit, hextends⟩ := (follows_concat_record hspells).1 hfollows
        obtain ⟨entry, hentry⟩ := hextends.readable
        exact .inr ⟨r, entry, hspells,
          ((h.reads init hinit).takes_iff hinit).2 ⟨hextends, hentry⟩⟩
    exact ⟨htidy, iff_of_false hne fun ⟨records, hfollows⟩ => hnone records hfollows,
      fun records hfollows => absurd hfollows (hnone records)⟩

/-- The loop ends, and knows whether the lines follow the grammar. -/
theorem loop_runs (hlines : lines.length ≤ MAX_LINES) :
    ∃ s, lines.zipIdx.foldlM lineStep {} = .ok s ∧ Looped lines s := by
  induction lines using List.reverseRecOn with
  | nil => exact ⟨{}, rfl, looped_nil⟩
  | append_singleton lines raw ih =>
    rw [List.length_append, List.length_singleton] at hlines
    obtain ⟨s, hs, hlooped⟩ := ih (by omega)
    have hstep : ∃ s', lineStep s (raw, lines.length) = .ok s' ∧ Tidy s' ∧ LineOutcome s raw s' :=
      lineStep_cases hlooped.tidy (by omega)
    obtain ⟨s', hs', htidy, houtcome⟩ := hstep
    exact ⟨s', foldlM_zipIdx_concat_ok.2 ⟨s, hs, hs'⟩, hlooped.concat htidy houtcome⟩

end PokerDeliberation.Normalization
