import PokerDeliberation.Storage.LegacyFiles

/-!
# Entries of a legacy run

The loop of the inspection passes where every entry does and they are within
the limits together (`Readable`), and an exception escapes it where the first
file that does not pass lets one escape. What is listed is sorted by path and
hashed; neither raises anything that is not caught.
-/

namespace PokerDeliberation.Storage

open Lib Lib.Json Lib.Utf8

def Entry.relative : Entry → Text
  | .directory relative | .file relative _ => relative

/-- The files of a tree, in the order of its enumeration. -/
def files (entries : List Entry) : List (Text × List UInt8) :=
  entries.filterMap fun
    | .file relative data => some (relative, data)
    | .directory _ => none

theorem mem_files {entries : List Entry} {f : Text × List UInt8} :
    f ∈ files entries ↔ Entry.file f.1 f.2 ∈ entries := by
  simp only [files, List.mem_filterMap]
  constructor
  · rintro ⟨entry, hentry, h⟩
    cases entry with
    | directory relative => cases h
    | file relative data =>
      cases h
      exact hentry
  · exact fun h => ⟨_, h, rfl⟩

theorem files_perm {entries entries' : List Entry} (h : entries.Perm entries') :
    (files entries).Perm (files entries') := h.filterMap _

@[simp] theorem files_concat_directory {entries : List Entry} {relative : Text} :
    files (entries ++ [.directory relative]) = files entries := by
  simp [files, List.filterMap_append]

@[simp] theorem files_concat_file {entries : List Entry} {relative : Text} {data : List UInt8} :
    files (entries ++ [.file relative data]) = files entries ++ [(relative, data)] := by
  simp [files, List.filterMap_append]

section

variable {F M : Type} (adapter : LegacyRunAdapter F M) (runId : Text)

/-- Every entry passes, and so do their sizes and names together. -/
structure Readable (entries : List Entry) : Prop where
  directories : ∀ relative, Entry.directory relative ∈ entries → relative ∈ allowedDirectories
  artifacts : ∀ f ∈ files entries, LegacyFile adapter runId f.1 f.2
  sizes : ∀ f ∈ files entries, (f.2.length : Int) ≤ adapter.maxArtifactBytes
  total : files entries ≠ [] →
    ((((files entries).map fun f => f.2.length).sum : Nat) : Int) ≤ adapter.maxRunBytes
  aliases : ((files entries).map fun f => adapter.lib.unicode.lower f.1).Nodup

/-- A file is within the limits after the entries before it, and has a name of its own. -/
structure Fits (front : List Entry) (relative : Text) (data : List UInt8) : Prop where
  size : (data.length : Int) ≤ adapter.maxArtifactBytes
  total : ((((files front).map fun f => f.2.length).sum + data.length : Nat) : Int) ≤
    adapter.maxRunBytes
  name : adapter.lib.unicode.lower relative ∉ (files front).map fun f => adapter.lib.unicode.lower f.1

/-- The artifact that is listed for a file. -/
def listedArtifact (f : Text × List UInt8) : LegacySourceArtifact :=
  match readArtifact adapter runId f.1 f.2 with
  | .ok (artifact, _) => artifact
  | .error _ => ⟨f.1, "", "", f.2⟩

/-- The final report that a file holds. -/
def heldReport (f : Text × List UInt8) : Option M :=
  match readArtifact adapter runId f.1 f.2 with
  | .ok (_, report) => report
  | .error _ => none

/-- What is known after entries that all pass. -/
def inspectionOf (entries : List Entry) : Inspection M where
  artifacts := (files entries).map (listedArtifact adapter runId)
  finalReport := (files entries).foldl (fun report f => heldReport adapter runId f <|> report) none
  total := ((files entries).map fun f => f.2.length).sum
  aliases := ((files entries).map fun f => adapter.lib.unicode.lower f.1).reverse

variable {adapter runId} {entries front : List Entry} {relative : Text} {data : List UInt8}
variable {seen : Inspection M}

theorem readable_nil : Readable adapter runId [] where
  directories _ h := (List.not_mem_nil h).elim
  artifacts _ h := (List.not_mem_nil h).elim
  sizes _ h := (List.not_mem_nil h).elim
  total h := absurd rfl h
  aliases := List.nodup_nil

theorem readable_concat_directory : Readable adapter runId (front ++ [.directory relative]) ↔
    Readable adapter runId front ∧ relative ∈ allowedDirectories := by
  constructor
  · rintro ⟨hdirectories, hartifacts, hsizes, htotal, haliases⟩
    rw [files_concat_directory] at hartifacts hsizes htotal haliases
    exact ⟨⟨fun r hr => hdirectories r (List.mem_append_left _ hr), hartifacts, hsizes, htotal,
      haliases⟩, hdirectories relative (by simp)⟩
  · rintro ⟨⟨hdirectories, hartifacts, hsizes, htotal, haliases⟩, hallowed⟩
    refine ⟨fun r hr => ?_, ?_, ?_, ?_, ?_⟩
    · rcases List.mem_append.1 hr with hr | hr
      · exact hdirectories r hr
      · cases List.mem_singleton.1 hr
        exact hallowed
    all_goals rwa [files_concat_directory]

theorem readable_concat_file : Readable adapter runId (front ++ [.file relative data]) ↔
    Readable adapter runId front ∧ Fits adapter front relative data ∧
      LegacyFile adapter runId relative data := by
  constructor
  · rintro ⟨hdirectories, hartifacts, hsizes, htotal, haliases⟩
    rw [files_concat_file] at hartifacts hsizes htotal haliases
    have htotal := htotal (by simp)
    rw [List.map_append, List.sum_append] at htotal
    rw [List.map_append, List.nodup_append] at haliases
    refine ⟨⟨fun r hr => hdirectories r (List.mem_append_left _ hr),
      fun f hf => hartifacts f (List.mem_append_left _ hf),
      fun f hf => hsizes f (List.mem_append_left _ hf), fun _ => ?_, haliases.1⟩,
      ⟨hsizes (relative, data) (by simp), by simpa using htotal, fun hmem => ?_⟩,
      hartifacts (relative, data) (by simp)⟩
    · omega
    · exact haliases.2.2 _ hmem _ (by simp) rfl
  · rintro ⟨⟨hdirectories, hartifacts, hsizes, htotal, haliases⟩, ⟨hsize, hall, hname⟩, hfile⟩
    have hconcat : ∀ {P : Text × List UInt8 → Prop}, (∀ f ∈ files front, P f) → P (relative, data) →
        ∀ f ∈ files front ++ [(relative, data)], P f := by
      intro P hfront hlast f hf
      rcases List.mem_append.1 hf with hf | hf
      · exact hfront f hf
      · rw [List.mem_singleton.1 hf]
        exact hlast
    refine ⟨fun r hr => ?_, ?_, ?_, fun _ => ?_, ?_⟩
    · exact hdirectories r ((List.mem_append.1 hr).resolve_right fun h => by simp at h)
    · rw [files_concat_file]
      exact hconcat hartifacts hfile
    · rw [files_concat_file]
      exact hconcat hsizes hsize
    · rw [files_concat_file, List.map_append, List.sum_append]
      simpa using hall
    · rw [files_concat_file, List.map_append, List.nodup_append]
      refine ⟨haliases, by simp, fun name hmem other hother heq => hname ?_⟩
      rw [List.map_singleton, List.mem_singleton] at hother
      rwa [← hother, ← heq]

/-! ## Reading the entries -/

theorem readArtifact_of_file (h : LegacyFile adapter runId relative data) :
    readArtifact adapter runId relative data =
      .ok (listedArtifact adapter runId (relative, data), heldReport adapter runId (relative, data)) := by
  obtain ⟨read, hread⟩ := readArtifact_eq_ok.2 h
  simp only [listedArtifact, heldReport, hread]

/-- A file is read after entries that pass if it fits and passes itself. -/
theorem readEntry_file_eq_ok :
    readEntry adapter runId (inspectionOf adapter runId front) (.file relative data) = .ok seen ↔
      Fits adapter front relative data ∧ LegacyFile adapter runId relative data ∧
        seen = inspectionOf adapter runId (front ++ [.file relative data]) := by
  have hnext : inspectionOf adapter runId (front ++ [.file relative data]) =
      { artifacts := (inspectionOf adapter runId front).artifacts ++
          [listedArtifact adapter runId (relative, data)]
        finalReport := heldReport adapter runId (relative, data) <|>
          (inspectionOf adapter runId front).finalReport
        total := (inspectionOf adapter runId front).total + data.length
        aliases := adapter.lib.unicode.lower relative :: (inspectionOf adapter runId front).aliases } := by
    simp [inspectionOf]
  have hfresh : adapter.lib.unicode.lower relative ∉ (inspectionOf adapter runId front).aliases ↔
      adapter.lib.unicode.lower relative ∉
        (files front).map fun f => adapter.lib.unicode.lower f.1 := by
    simp only [inspectionOf, List.mem_reverse]
  simp only [readEntry, require_bind_eq_ok, hfresh]
  constructor
  · rintro ⟨hsize, htotal, hname, h⟩
    obtain ⟨read, hread, hseen⟩ := bind_eq_ok.1 h
    have hfile := readArtifact_eq_ok.1 ⟨read, hread⟩
    rw [readArtifact_of_file hfile, Except.ok.injEq] at hread
    subst hread
    refine ⟨⟨hsize, htotal, hname⟩, hfile, ?_⟩
    rw [hnext]
    exact (pure_eq_ok.1 hseen).symm
  · rintro ⟨⟨hsize, htotal, hname⟩, hfile, rfl⟩
    refine ⟨hsize, htotal, hname, ?_⟩
    rw [readArtifact_of_file hfile, bind_ok_left rfl, hnext]
    rfl

theorem readEntry_directory_eq_ok :
    readEntry adapter runId (inspectionOf adapter runId front) (.directory relative) = .ok seen ↔
      relative ∈ allowedDirectories ∧
        seen = inspectionOf adapter runId (front ++ [.directory relative]) := by
  have hsame : inspectionOf adapter runId (front ++ [.directory relative]) =
      inspectionOf adapter runId front := by
    simp [inspectionOf]
  simp only [readEntry, require_bind_eq_ok, pure_eq_ok, hsame]
  exact and_congr_right fun _ => eq_comm

/-- The loop succeeds where every entry passes. -/
theorem readEntries_eq_ok : entries.foldlM (readEntry adapter runId) {} = .ok seen ↔
    Readable adapter runId entries ∧ seen = inspectionOf adapter runId entries := by
  induction entries using List.reverseRecOn generalizing seen with
  | nil =>
    rw [List.foldlM_nil, pure_eq_ok]
    exact ⟨fun h => ⟨readable_nil, h.symm⟩, fun h => h.2.symm⟩
  | append_singleton front entry ih =>
    rw [foldlM_append_ok]
    simp only [ih, List.foldlM_cons, List.foldlM_nil, bind_pure]
    cases entry with
    | directory relative =>
      rw [readable_concat_directory]
      constructor
      · rintro ⟨t, ⟨hfront, rfl⟩, h⟩
        obtain ⟨hallowed, rfl⟩ := readEntry_directory_eq_ok.1 h
        exact ⟨⟨hfront, hallowed⟩, rfl⟩
      · rintro ⟨⟨hfront, hallowed⟩, rfl⟩
        exact ⟨_, ⟨hfront, rfl⟩, readEntry_directory_eq_ok.2 ⟨hallowed, rfl⟩⟩
    | file relative data =>
      rw [readable_concat_file]
      constructor
      · rintro ⟨t, ⟨hfront, rfl⟩, h⟩
        obtain ⟨hfits, hfile, rfl⟩ := readEntry_file_eq_ok.1 h
        exact ⟨⟨hfront, hfits, hfile⟩, rfl⟩
      · rintro ⟨⟨hfront, hfits, hfile⟩, rfl⟩
        exact ⟨_, ⟨hfront, rfl⟩, readEntry_file_eq_ok.2 ⟨hfits, hfile, rfl⟩⟩

theorem readEntry_escapes {entry : Entry} :
    Escapes .canonicalStorage (readEntry adapter runId (inspectionOf adapter runId front) entry) ↔
      ∃ relative data, entry = .file relative data ∧ Fits adapter front relative data ∧
        FileEscapes adapter relative data := by
  cases entry with
  | directory relative =>
    refine iff_of_false (fun h => ?_) (by simp)
    exact escapes_pure (escapes_require_bind.1 h).2
  | file relative data =>
    have hfresh : adapter.lib.unicode.lower relative ∉ (inspectionOf adapter runId front).aliases ↔
        adapter.lib.unicode.lower relative ∉
          (files front).map fun f => adapter.lib.unicode.lower f.1 := by
      simp only [inspectionOf, List.mem_reverse]
    simp only [readEntry, escapes_require_bind, hfresh]
    constructor
    · rintro ⟨hsize, htotal, hname, h⟩
      exact ⟨relative, data, rfl, ⟨hsize, htotal, hname⟩,
        readArtifact_escapes.1 (escapes_bind_pure.1 h)⟩
    · rintro ⟨_, _, heq, ⟨hsize, htotal, hname⟩, hescapes⟩
      cases heq
      exact ⟨hsize, htotal, hname, escapes_bind_pure.2 (readArtifact_escapes.2 hescapes)⟩

/-- What escapes the loop escapes the first file that does not pass. -/
theorem readEntries_escapes :
    Escapes .canonicalStorage (entries.foldlM (readEntry adapter runId) {}) ↔
      ∃ front relative data back, entries = front ++ .file relative data :: back ∧
        Readable adapter runId front ∧ Fits adapter front relative data ∧
          FileEscapes adapter relative data := by
  rw [escapes_foldlM]
  constructor
  · rintro ⟨front, entry, back, seen, rfl, hfront, h⟩
    obtain ⟨hreadable, rfl⟩ := readEntries_eq_ok.1 hfront
    obtain ⟨relative, data, rfl, hfits, hescapes⟩ := readEntry_escapes.1 h
    exact ⟨front, relative, data, back, rfl, hreadable, hfits, hescapes⟩
  · rintro ⟨front, relative, data, back, rfl, hreadable, hfits, hescapes⟩
    exact ⟨front, _, back, _, rfl, readEntries_eq_ok.2 ⟨hreadable, rfl⟩,
      readEntry_escapes.2 ⟨relative, data, rfl, hfits, hescapes⟩⟩

end

/-! ## Sorting -/

section

variable {α : Type} {path : α → Text} {xs ys : List α}

theorem pathKey_ascii {t : Text} (h : ∀ c ∈ t, c < 128) : pathKey t = .ok t := by
  have hbytes : ∀ n ∈ t, (UInt8.ofNat n).toNat = n := fun n hn => by
    rw [UInt8.toNat_ofNat', Nat.mod_eq_of_lt (by have := h n hn; omega)]
  have hmap : (t.map UInt8.ofNat).map UInt8.toNat = t := by
    rw [List.map_map]
    exact (List.map_congr_left hbytes).trans (List.map_id t)
  simp only [pathKey, encode_ascii h, hmap]

/-- ASCII paths are sorted as they are. -/
theorem sortedByPath_ascii (h : ∀ x ∈ xs, ∀ c ∈ path x, c < 128) :
    sortedByPath path xs = .ok (xs.insertionSort fun x y => path x ≤ path y) := by
  have hkeyed : (xs.mapM fun x => do
      let key ← pathKey (path x)
      return (key, x)) = .ok (xs.map fun x => (path x, x)) :=
    mapM_of_ok fun x hx => by rw [pathKey_ascii (h x hx)]; rfl
  have hsort : (((xs.map fun x => (path x, x)).insertionSort fun x y => x.1 ≤ y.1).map (·.2)) =
      xs.insertionSort fun x y => path x ≤ path y := by
    have hmap : (xs.map fun x => (path x, x)).map (·.2) = xs := by
      rw [List.map_map]
      exact List.map_id xs
    rw [List.map_insertionSort (r := fun x y : Text × α => x.1 ≤ y.1)
      (s := fun x y => path x ≤ path y), hmap]
    intro a ha b hb
    obtain ⟨x, -, rfl⟩ := List.mem_map.1 ha
    obtain ⟨y, -, rfl⟩ := List.mem_map.1 hb
    rfl
  rw [sortedByPath, hkeyed, bind_ok_left rfl, hsort]
  rfl

theorem sorted_pairwise (xs : List α) :
    (xs.insertionSort fun x y => path x ≤ path y).Pairwise fun x y => path x ≤ path y := by
  have : Std.Total (fun x y : α => path x ≤ path y) := ⟨fun _ _ => le_total _ _⟩
  have : IsTrans α (fun x y => path x ≤ path y) := ⟨fun _ _ _ => le_trans⟩
  exact List.pairwise_insertionSort _ _

/-- Sorting by paths that are distinct forgets the order. -/
theorem sorted_eq_of_perm (h : xs.Perm ys) (hpath : (xs.map path).Nodup) :
    xs.insertionSort (fun x y => path x ≤ path y) = ys.insertionSort fun x y => path x ≤ path y := by
  have hperm := (List.perm_insertionSort (fun x y => path x ≤ path y) xs).trans
    (h.trans (List.perm_insertionSort (fun x y => path x ≤ path y) ys).symm)
  refine List.Perm.eq_of_pairwise ?_ (sorted_pairwise xs) (sorted_pairwise ys) hperm
  intro a b ha hb hab hba
  have ha := (List.perm_insertionSort _ xs).mem_iff.1 ha
  have hb := h.mem_iff.2 ((List.perm_insertionSort _ ys).mem_iff.1 hb)
  exact List.inj_on_of_nodup_map hpath ha hb (le_antisymm hab hba)

/-- Sorted by distinct paths is strictly ascending. -/
theorem sorted_ascending (hpath : (xs.map path).Nodup) :
    (xs.insertionSort fun x y => path x ≤ path y).Pairwise fun x y => path x < path y := by
  have hnodup : ((xs.insertionSort fun x y => path x ≤ path y).map path).Nodup :=
    ((List.perm_insertionSort _ xs).map path).nodup_iff.2 hpath
  exact (sorted_pairwise xs).imp₂ (fun _ _ hle hne => lt_of_le_of_ne hle hne)
    (List.pairwise_map.1 hnodup)

end

/-! ## Digests -/

section

variable {F M : Type} {adapter : LegacyRunAdapter F M} {runId : Text}

theorem canonicalDomainSha256_raisesOnly {domain : String} {value : Value F} :
    RaisesOnly .canonicalStorage (canonicalDomainSha256 adapter domain value) := by
  simp only [canonicalDomainSha256, raisesOnly_bind]
  exact ⟨canonicalJsonBytes_raisesOnly _ _, fun _ _ => raisesOnly_pure⟩

theorem validateRunId_ascii (h : validateRunId adapter.lib.unicode runId = .ok ()) :
    ∀ c ∈ runId, c < 128 := by
  simp only [validateRunId, require_bind_eq_ok] at h
  exact isPortable_ascii h.1

/-- A valid run identifier is hashed. -/
theorem runIdSha256_valid (h : validateRunId adapter.lib.unicode runId = .ok ()) :
    runIdSha256 adapter runId = .ok (adapter.sha256 (runId.map UInt8.ofNat)) := by
  rw [runIdSha256, h, encode_ascii (validateRunId_ascii h)]
  rfl

theorem runIdSha256_invalid (h : validateRunId adapter.lib.unicode runId ≠ .ok ()) :
    ∃ e, runIdSha256 adapter runId = .error e := by
  cases hrun : validateRunId adapter.lib.unicode runId with
  | ok u => exact absurd hrun h
  | error e => exact ⟨.canonicalStorage, by rw [runIdSha256, hrun]; rfl⟩

/-- An invalid run identifier is hashed if its text can be written. -/
theorem invalidRunId_hashed :
    (∃ digest, canonicalDomainSha256 adapter INVALID_LEGACY_RUN_ID_DOMAIN
        (.obj [(text "run_id", .str runId)]) = .ok digest) ↔
      adapter.lib.unicode.nfc runId = runId ∧ (encode runId).isSome = true := by
  have hkey : adapter.lib.unicode.nfc (text "run_id") = text "run_id" :=
    adapter.lib.unicode.nfc_ascii _ (by decide)
  have hdepth : (Value.obj [(text "run_id", Value.str (F := F) runId)]).depth ≤ adapter.lib.walkDepth :=
    adapter.lib.walkDepth_pos
  have hjsonable : jsonable adapter.lib (.obj [(text "run_id", .str runId)]) = .ok () ↔
      adapter.lib.unicode.nfc runId = runId := by
    simp [jsonable, jsonableItems, requireNfcString, hkey, check_bind_eq_ok]
  obtain ⟨t, hdumps⟩ : ∃ t, dumps adapter.lib.numbers
      (Value.obj [(text "run_id", Value.str (F := F) runId)]) = some t := ⟨_, rfl⟩
  have hstrings : (encode t).isSome = true ↔ (encode runId).isSome = true := by
    have hnamed : (encode (text "run_id")).isSome = true :=
      encode_isSome.2 fun n hn => scalar_ascii ((by decide : ∀ c ∈ text "run_id", c < 128) n hn)
    rw [encode_render hdumps]
    show (∀ s ∈ [text "run_id", runId], _) ↔ _
    simp [hnamed]
  simp only [canonicalDomainSha256, bind_eq_ok, canonicalJsonBytes_eq_ok, pure_eq_ok, hdepth,
    hjsonable, hdumps, true_and, Option.some.injEq, exists_eq_left', ← hstrings]
  constructor
  · rintro ⟨-, data, ⟨hnfc, hdata⟩, -⟩
    exact ⟨hnfc, by rw [hdata]; rfl⟩
  · rintro ⟨hnfc, hsome⟩
    obtain ⟨data, hdata⟩ := Option.isSome_iff_exists.1 hsome
    exact ⟨_, data, ⟨hnfc, hdata⟩, rfl⟩

end

end PokerDeliberation.Storage
