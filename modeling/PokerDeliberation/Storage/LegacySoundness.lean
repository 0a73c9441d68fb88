import PokerDeliberation.Storage.LegacyEntries

/-!
# What the inspection of a legacy run says

A snapshot is exact (`ExactSnapshot`), and the same for every order the tree is
enumerated in. A run that is refused is refused as unverified, unless the first
file that does not pass lets an exception escape, or the run identifier is no
text that can be hashed (`Handled`).
-/

namespace PokerDeliberation.Storage

open Lib Lib.Json Lib.Utf8

section

variable {F M : Type} (adapter : LegacyRunAdapter F M) (runId : Text)

/-- The artifacts of a tree by path. -/
def orderedArtifacts (entries : List Entry) : List LegacySourceArtifact :=
  ((files entries).map (listedArtifact adapter runId)).insertionSort
    fun a b => a.relativePath ≤ b.relativePath

/-- The tree of a legacy run that is taken. -/
structure Verified (entries : List Entry) : Prop where
  identifier : validateRunId adapter.lib.unicode runId = .ok ()
  count : entries.length ≤ LEGACY_MAX_FILES + 2
  readable : Readable adapter runId entries
  sentinel : Entry.file LEGACY_SENTINEL LEGACY_SENTINEL_BYTES ∈ entries

variable {adapter runId} {entries entries' : List Entry} {f g : Text × List UInt8}

@[simp] theorem listedArtifact_path : (listedArtifact adapter runId f).relativePath = f.1 := by
  unfold listedArtifact
  split
  · rename_i artifact report hread
    exact (readArtifact_exact hread).1
  · rfl

@[simp] theorem listedArtifact_bytes : (listedArtifact adapter runId f).exactBytes = f.2 := by
  unfold listedArtifact
  split
  · rename_i artifact report hread
    exact (readArtifact_exact hread).2
  · rfl

/-- No two files have one name. -/
theorem Readable.eq_of_path (h : Readable adapter runId entries) (hf : f ∈ files entries)
    (hg : g ∈ files entries) (hpath : f.1 = g.1) : f = g :=
  List.inj_on_of_nodup_map h.aliases hf hg (congrArg adapter.lib.unicode.lower hpath)

theorem Readable.paths (h : Readable adapter runId entries) :
    ((files entries).map Prod.fst).Nodup := by
  have hlower : ((files entries).map fun f => adapter.lib.unicode.lower f.1) =
      ((files entries).map Prod.fst).map adapter.lib.unicode.lower := by
    rw [List.map_map]
    rfl
  have haliases := h.aliases
  rw [hlower] at haliases
  exact List.Nodup.of_map _ haliases

theorem Readable.listed_paths (h : Readable adapter runId entries) :
    (((files entries).map (listedArtifact adapter runId)).map (·.relativePath)).Nodup := by
  rw [List.map_map]
  have hpaths : ((files entries).map ((·.relativePath) ∘ listedArtifact adapter runId)) =
      (files entries).map Prod.fst := List.map_congr_left fun f _ => listedArtifact_path
  rw [hpaths]
  exact h.paths

theorem Readable.perm (h : Readable adapter runId entries) (hperm : entries.Perm entries') :
    Readable adapter runId entries' := by
  have hfiles := files_perm hperm
  refine ⟨fun r hr => h.directories r (hperm.mem_iff.2 hr),
    fun f hf => h.artifacts f (hfiles.mem_iff.2 hf), fun f hf => h.sizes f (hfiles.mem_iff.2 hf),
    fun hne => ?_, (hfiles.map _).nodup_iff.1 h.aliases⟩
  have hne' : files entries ≠ [] := fun hnil => hne (by
    rw [hnil] at hfiles
    exact hfiles.nil_eq.symm)
  have hsum := (hfiles.map fun f => f.2.length).sum_eq
  rw [← hsum]
  exact h.total hne'

theorem Verified.perm (h : Verified adapter runId entries) (hperm : entries.Perm entries') :
    Verified adapter runId entries' :=
  ⟨h.identifier, hperm.length_eq ▸ h.count, h.readable.perm hperm, hperm.mem_iff.1 h.sentinel⟩

/-! ## Reports -/

theorem legacyKind_report {relative : Text} (h : legacyKind relative = some .report) :
    relative = text "final_report.json" := by
  unfold legacyKind at h
  split at h
  · rename_i name model hfind
    have hname : text name = relative := by simpa using List.find?_some hfind
    split at h
    · rename_i hreport
      rw [← hname, hreport]
    · cases h
  · grind

theorem check_some {kind : LegacyKind} {m : M} {data : List UInt8}
    (h : kind.check adapter runId data = .ok (some m)) :
    kind = .report ∧ IsModel adapter .finalReport data m ∧ adapter.identity m = runId := by
  have hkind : kind = .report := by
    by_contra hne
    cases LegacyKind.check_report h hne
  subst hkind
  simp only [LegacyKind.check, bind_eq_ok, pure_eq_ok, Option.some.injEq,
    validateIdentified_eq_ok] at h
  obtain ⟨_, hm, rfl⟩ := h
  exact ⟨rfl, hm⟩

/-- A held report is the one of `final_report.json`, with the identifier of the run. -/
theorem heldReport_eq_some {m : M} (h : heldReport adapter runId f = some m) :
    f.1 = text "final_report.json" ∧ IsModel adapter .finalReport f.2 m ∧
      adapter.identity m = runId := by
  unfold heldReport at h
  split at h
  · rename_i artifact report hread
    subst h
    unfold readArtifact at hread
    split at hread
    · obtain ⟨-, hok⟩ := require_bind_eq_ok.1 hread
      cases hok
    · simp only [bind_eq_ok, pure_eq_ok, validateLegacyArtifact_eq_ok] at hread
      obtain ⟨-, -, row, -, report, ⟨kind, hkind, hcheck⟩, heq⟩ := hread
      cases heq
      obtain ⟨rfl, hm⟩ := check_some hcheck
      exact ⟨legacyKind_report hkind, hm⟩
  · cases h

/-- The report that is kept is the one of a file. -/
theorem keptReport_eq_some {fs : List (Text × List UInt8)} {m : M}
    (hunique : ∀ f ∈ fs, ∀ g ∈ fs, f.1 = g.1 → f = g) :
    fs.foldl (fun report f => heldReport adapter runId f <|> report) none = some m ↔
      ∃ f ∈ fs, heldReport adapter runId f = some m := by
  induction fs using List.reverseRecOn with
  | nil => simp
  | append_singleton fs f ih =>
    have hbefore := ih fun g hg k hk => hunique g (List.mem_append_left _ hg) k (List.mem_append_left _ hk)
    rw [List.foldl_append, List.foldl_cons, List.foldl_nil]
    cases hf : heldReport adapter runId f with
    | none =>
      show fs.foldl (fun report f => heldReport adapter runId f <|> report) none = some m ↔ _
      rw [hbefore]
      constructor
      · rintro ⟨g, hg, hm⟩
        exact ⟨g, List.mem_append_left _ hg, hm⟩
      · rintro ⟨g, hg, hm⟩
        rcases List.mem_append.1 hg with hg | hg
        · exact ⟨g, hg, hm⟩
        · rw [List.mem_singleton.1 hg, hf] at hm
          cases hm
    | some own =>
      constructor
      · intro h
        cases h
        exact ⟨f, by simp, hf⟩
      · rintro ⟨g, hg, hm⟩
        have hpath := (heldReport_eq_some hm).1.trans (heldReport_eq_some hf).1.symm
        rw [hunique g hg f (by simp) hpath, hf] at hm
        exact hm

/-! ## The tree -/

/-- The report of a tree is the one of a file. -/
theorem inspectionOf_report (h : Readable adapter runId entries) {m : M} :
    (inspectionOf adapter runId entries).finalReport = some m ↔
      ∃ f ∈ files entries, heldReport adapter runId f = some m :=
  keptReport_eq_some fun _ hf _ hg => h.eq_of_path hf hg

/-- The report that is kept does not depend on the order. -/
theorem inspectionOf_report_perm (h : Readable adapter runId entries)
    (hperm : entries.Perm entries') :
    (inspectionOf adapter runId entries).finalReport = (inspectionOf adapter runId entries').finalReport := by
  have h' := h.perm hperm
  ext m
  rw [inspectionOf_report h, inspectionOf_report h']
  simp only [(files_perm hperm).mem_iff]

theorem orderedArtifacts_perm (h : Readable adapter runId entries)
    (hperm : entries.Perm entries') :
    orderedArtifacts adapter runId entries = orderedArtifacts adapter runId entries' :=
  sorted_eq_of_perm ((files_perm hperm).map _) h.listed_paths

/-- What is checked after the loop holds where the sentinel is in the tree. -/
theorem sentinel_listed (h : Readable adapter runId entries) :
    ((∃ first ∈ (inspectionOf adapter runId entries).artifacts.head?, first.relativePath ≠ []) ∧
      ((inspectionOf adapter runId entries).artifacts.reverse.find?
        (·.relativePath = LEGACY_SENTINEL)).map (·.exactBytes) = some LEGACY_SENTINEL_BYTES) ↔
      Entry.file LEGACY_SENTINEL LEGACY_SENTINEL_BYTES ∈ entries := by
  have hlisted : ∀ artifact ∈ (inspectionOf adapter runId entries).artifacts,
      ∃ f ∈ files entries, listedArtifact adapter runId f = artifact := fun _ => List.mem_map.1
  constructor
  · rintro ⟨-, hfind⟩
    obtain ⟨artifact, hfind, hbytes⟩ := Option.map_eq_some_iff.1 hfind
    have hpath := List.find?_some hfind
    obtain ⟨f, hf, rfl⟩ := hlisted artifact (List.mem_reverse.1 (List.mem_of_find?_eq_some hfind))
    rw [listedArtifact_path, decide_eq_true_eq] at hpath
    rw [listedArtifact_bytes] at hbytes
    rw [← hpath, ← hbytes]
    exact mem_files.1 hf
  · intro hsentinel
    have hmem : (LEGACY_SENTINEL, LEGACY_SENTINEL_BYTES) ∈ files entries := mem_files.2 hsentinel
    constructor
    · obtain ⟨first, hfirst⟩ : ∃ first, (inspectionOf adapter runId entries).artifacts.head? =
          some first := by
        refine Option.isSome_iff_exists.1 (List.isSome_head?.2 fun hnil => ?_)
        rw [List.map_eq_nil_iff.1 hnil] at hmem
        cases hmem
      obtain ⟨f, hf, rfl⟩ := hlisted first (List.mem_of_head? hfirst)
      refine ⟨_, hfirst, fun hempty => ?_⟩
      have hdot := (h.artifacts f hf).names.2
      have hpath : f.1 = [] := listedArtifact_path.symm.trans hempty
      rw [hpath] at hdot
      cases hdot
    · obtain ⟨artifact, hfind⟩ : ∃ artifact, (inspectionOf adapter runId entries).artifacts.reverse.find?
          (·.relativePath = LEGACY_SENTINEL) = some artifact :=
        Option.isSome_iff_exists.1 (List.find?_isSome.2
          ⟨_, List.mem_reverse.2 (List.mem_map_of_mem hmem), by simp⟩)
      have hpath := List.find?_some hfind
      obtain ⟨f, hf, rfl⟩ := hlisted artifact (List.mem_reverse.1 (List.mem_of_find?_eq_some hfind))
      rw [listedArtifact_path, decide_eq_true_eq] at hpath
      rw [hfind, Option.map_some, listedArtifact_bytes, h.eq_of_path hf hmem hpath]

theorem sortedByPath_listed (h : Readable adapter runId entries) :
    sortedByPath (·.relativePath) (inspectionOf adapter runId entries).artifacts =
      .ok (orderedArtifacts adapter runId entries) := by
  refine sortedByPath_ascii fun artifact hartifact => ?_
  obtain ⟨f, hf, rfl⟩ := List.mem_map.1 hartifact
  rw [listedArtifact_path]
  exact (h.artifacts f hf).names.1

theorem mem_orderedArtifacts {artifact : LegacySourceArtifact} :
    artifact ∈ orderedArtifacts adapter runId entries ↔
      ∃ f ∈ files entries, artifact = listedArtifact adapter runId f := by
  rw [orderedArtifacts, (List.perm_insertionSort _ _).mem_iff, List.mem_map]
  exact exists_congr fun f => and_congr_right fun _ => eq_comm

/-- The artifacts are hashed in their order. -/
theorem legacySourceInventorySha256_ordered (h : Readable adapter runId entries) :
    legacySourceInventorySha256 adapter (orderedArtifacts adapter runId entries) =
      canonicalDomainSha256 adapter LEGACY_SOURCE_INVENTORY_DOMAIN
        (.arr ((orderedArtifacts adapter runId entries).map (·.inventoryObservation adapter))) := by
  have hascii : ∀ artifact ∈ orderedArtifacts adapter runId entries,
      ∀ c ∈ artifact.relativePath, c < 128 := by
    intro artifact hartifact
    obtain ⟨f, hf, rfl⟩ := mem_orderedArtifacts.1 hartifact
    rw [listedArtifact_path]
    exact (h.artifacts f hf).names.1
  have hsorted : (orderedArtifacts adapter runId entries).insertionSort
      (fun a b => a.relativePath ≤ b.relativePath) = orderedArtifacts adapter runId entries :=
    List.Pairwise.insertionSort_eq (sorted_pairwise _)
  rw [legacySourceInventorySha256, sortedByPath_ascii hascii, bind_ok_left rfl, hsorted]

/-- The snapshot of a tree, of its digests. -/
def snapshotOf (adapter : LegacyRunAdapter F M) (runId : Text) (entries : List Entry)
    (rootDigest inventoryDigest : String) : LegacyRunSnapshot M where
  runId
  sourceRootIdentitySha256 := rootDigest
  sourceRunIdSha256 := adapter.sha256 (runId.map UInt8.ofNat)
  sourceInventorySha256 := inventoryDigest
  artifacts := orderedArtifacts adapter runId entries
  finalReport := (inspectionOf adapter runId entries).finalReport

theorem inspectTree_eq_ok {snapshot : LegacyRunSnapshot M} :
    inspectTree adapter runId entries = .ok snapshot ↔ Verified adapter runId entries ∧
      ∃ rootDigest inventoryDigest, legacyRootIdentitySha256 adapter = .ok rootDigest ∧
        legacySourceInventorySha256 adapter (orderedArtifacts adapter runId entries) =
          .ok inventoryDigest ∧ snapshot = snapshotOf adapter runId entries rootDigest inventoryDigest := by
  simp only [inspectTree, check_bind_eq_ok, mapError_eq_ok, require_eq_ok,
    bind_eq_ok (x := List.foldlM _ _ _), readEntries_eq_ok]
  constructor
  · rintro ⟨hrun, hcount, _, ⟨hreadable, rfl⟩, hfirst, hsentinel, h⟩
    rw [sortedByPath_listed hreadable, bind_ok_left rfl, runIdSha256_valid hrun] at h
    simp only [bind_eq_ok, pure_eq_ok] at h
    obtain ⟨rootDigest, hroot, _, hok, inventoryDigest, hinventory, rfl⟩ := h
    cases hok
    exact ⟨⟨hrun, hcount, hreadable, (sentinel_listed hreadable).1 ⟨hfirst, hsentinel⟩⟩, rootDigest,
      inventoryDigest, hroot, hinventory, rfl⟩
  · rintro ⟨⟨hrun, hcount, hreadable, hmem⟩, rootDigest, inventoryDigest, hroot, hinventory, rfl⟩
    obtain ⟨hfirst, hsentinel⟩ := (sentinel_listed hreadable).2 hmem
    refine ⟨hrun, hcount, _, ⟨hreadable, rfl⟩, hfirst, hsentinel, ?_⟩
    rw [sortedByPath_listed hreadable, bind_ok_left rfl, runIdSha256_valid hrun, hroot,
      bind_ok_left rfl, bind_ok_left rfl, hinventory]
    rfl

/-- An exception escapes the inspection where it escapes the loop. -/
theorem inspectTree_escapes : Escapes .canonicalStorage (inspectTree adapter runId entries) ↔
    validateRunId adapter.lib.unicode runId = .ok () ∧ entries.length ≤ LEGACY_MAX_FILES + 2 ∧
      ∃ front relative data back, entries = front ++ .file relative data :: back ∧
        Readable adapter runId front ∧ Fits adapter front relative data ∧
          FileEscapes adapter relative data := by
  rw [inspectTree, escapes_bind_of_not escapes_mapError_const]
  simp only [mapError_eq_ok, escapes_require_bind]
  constructor
  · rintro ⟨_, hrun, hcount, h⟩
    rcases escapes_bind.1 h with h | ⟨seen, hseen, h⟩
    · exact ⟨hrun, hcount, readEntries_escapes.1 h⟩
    · obtain ⟨hreadable, rfl⟩ := readEntries_eq_ok.1 hseen
      obtain ⟨-, -, h⟩ : _ ∧ _ ∧ _ := by simpa only [escapes_require_bind] using h
      rw [sortedByPath_listed hreadable, bind_ok_left rfl, runIdSha256_valid hrun,
        legacySourceInventorySha256_ordered hreadable] at h
      refine absurd h (not_escapes.2 ?_)
      simp only [raisesOnly_bind]
      exact ⟨canonicalDomainSha256_raisesOnly, fun _ _ => ⟨raisesOnly_ok, fun _ _ =>
        ⟨canonicalDomainSha256_raisesOnly, fun _ _ => raisesOnly_pure⟩⟩⟩
  · rintro ⟨hrun, hcount, h⟩
    exact ⟨(), hrun, hcount, escapes_bind.2 (.inl (readEntries_escapes.2 h))⟩

end

/-! ## The inspection -/

section

variable {F M : Type} (adapter : LegacyRunAdapter F M) (runId : Text)

/-- A text with its ASCII letters in lower case. -/
def asciiLower (t : Text) : Text := t.map fun c => if 0x41 ≤ c ∧ c ≤ 0x5a then c + 0x20 else c

/-- A snapshot that says what is in the tree, and a tree that holds nothing else. -/
structure ExactSnapshot (entries : List Entry) (snapshot : LegacyRunSnapshot M) : Prop where
  runId_eq : snapshot.runId = runId
  artifacts : (snapshot.artifacts.map fun a => (a.relativePath, a.exactBytes)).Perm (files entries)
  ordered : snapshot.artifacts.Pairwise fun a b => a.relativePath < b.relativePath
  rows : ∀ a ∈ snapshot.artifacts, a.relativePath ≠ LEGACY_SENTINEL →
    legacyRow adapter a.relativePath = .ok (a.mediaType, a.artifactSchemaVersion)
  valid : ∀ f ∈ files entries, LegacyFile adapter runId f.1 f.2
  sentinel : Entry.file LEGACY_SENTINEL LEGACY_SENTINEL_BYTES ∈ entries
  sizes : ∀ f ∈ files entries, (f.2.length : Int) ≤ adapter.maxArtifactBytes
  total : ((((files entries).map fun f => f.2.length).sum : Nat) : Int) ≤ adapter.maxRunBytes
  names : ∀ e ∈ entries, ∀ e' ∈ entries, asciiLower e.relative = asciiLower e'.relative →
    e.relative = e'.relative
  report : ∀ m, snapshot.finalReport = some m ↔ ∃ data, Entry.file (text "final_report.json") data ∈
    entries ∧ IsModel adapter .finalReport data m ∧ adapter.identity m = runId

/-- An inspection either succeeds or says that the run is unverified. -/
def Answers (entries : List Entry) : Prop :=
  (∃ snapshot, inspect adapter runId entries = .ok snapshot) ∨
    ∃ failure, inspect adapter runId entries = .error (.productRun failure) ∧
      failure.code = .legacyRunUnverified

/-- The inspection is total, exact, and the same for every order of the entries. -/
structure InspectsExactly (entries : List Entry) : Prop where
  answers : Answers adapter runId entries
  exact : ∀ snapshot, inspect adapter runId entries = .ok snapshot →
    ExactSnapshot adapter runId entries snapshot
  order : ∀ snapshot entries', inspect adapter runId entries = .ok snapshot →
    entries.Perm entries' → inspect adapter runId entries' = .ok snapshot

/-- The run identifier is valid, or a text that can be hashed; and the first file that does not
pass lets no exception escape. -/
structure Handled (entries : List Entry) : Prop where
  identifier : validateRunId adapter.lib.unicode runId = .ok () ∨
    adapter.lib.unicode.nfc runId = runId ∧ (encode runId).isSome = true
  reached : validateRunId adapter.lib.unicode runId = .ok () →
    entries.length ≤ LEGACY_MAX_FILES + 2 → ∀ front relative data back,
      entries = front ++ .file relative data :: back → Readable adapter runId front →
        Fits adapter front relative data → ¬ FileEscapes adapter relative data

variable {adapter runId} {entries : List Entry}

theorem inspect_eq_ok {snapshot : LegacyRunSnapshot M} :
    inspect adapter runId entries = .ok snapshot ↔ inspectTree adapter runId entries = .ok snapshot := by
  unfold inspect
  split
  · rename_i own hown
    simp [hown]
  · rename_i hraised
    rw [hraised]
    split <;> simp
  · rename_i hraised
    simp [hraised]

/-- The failure names the run if its identifier can be hashed. -/
theorem legacyFailure_eq_ok {code : Terminal.ProductRunFailureCode} {stage : String}
    {filesystemEffect : Terminal.FilesystemEffect} {reconciliationRequired : Bool} :
    (∃ failure, legacyFailure adapter runId code stage filesystemEffect reconciliationRequired =
      .ok failure ∧ failure.code = code) ↔ validateRunId adapter.lib.unicode runId = .ok () ∨
        adapter.lib.unicode.nfc runId = runId ∧ (encode runId).isSome = true := by
  by_cases hrun : validateRunId adapter.lib.unicode runId = .ok ()
  · refine iff_of_true ?_ (.inl hrun)
    rw [legacyFailure, runIdSha256_valid hrun]
    exact ⟨_, rfl, rfl⟩
  · obtain ⟨e, he⟩ := runIdSha256_invalid hrun
    rw [or_iff_right hrun, ← invalidRunId_hashed, legacyFailure, he]
    constructor
    · rintro ⟨_, h, -⟩
      obtain ⟨digest, hdigest, -⟩ := bind_eq_ok.1 h
      exact ⟨digest, hdigest⟩
    · rintro ⟨digest, hdigest⟩
      exact ⟨_, bind_ok_left hdigest, rfl⟩

/-- An inspection that does not succeed answers with the failure of the run. -/
theorem answers_of_error {e : Raised} (h : inspectTree adapter runId entries = .error e) :
    Answers adapter runId entries ↔ e = .canonicalStorage ∧
      (validateRunId adapter.lib.unicode runId = .ok () ∨
        adapter.lib.unicode.nfc runId = runId ∧ (encode runId).isSome = true) := by
  rw [← @legacyFailure_eq_ok F M adapter runId .legacyRunUnverified "legacy_read" .none false]
  unfold Answers inspect
  rw [h]
  cases e with
  | canonicalStorage =>
    rcases legacyFailure adapter runId .legacyRunUnverified "legacy_read" .none false with raised | failure
    · simp
    · simp
  | valueError | recursionError | typeError => simp

/-- An inspection answers unless an exception escapes it, or its own failure. -/
theorem answers_iff : Answers adapter runId entries ↔ Handled adapter runId entries := by
  cases hinspect : inspectTree adapter runId entries with
  | ok snapshot =>
    have hverified := (inspectTree_eq_ok.1 hinspect).1
    have hnone : ¬ Escapes .canonicalStorage (inspectTree adapter runId entries) := by
      rw [hinspect]
      exact escapes_ok
    refine iff_of_true (.inl ⟨snapshot, inspect_eq_ok.2 hinspect⟩) ⟨.inl hverified.identifier, ?_⟩
    intro hrun hcount front relative data back heq hreadable hfits hescapes
    exact hnone (inspectTree_escapes.2
      ⟨hrun, hcount, front, relative, data, back, heq, hreadable, hfits, hescapes⟩)
  | error e =>
    rw [answers_of_error hinspect]
    have hescapes : Escapes .canonicalStorage (inspectTree adapter runId entries) ↔
        e ≠ .canonicalStorage := by
      rw [hinspect]
      exact escapes_error
    constructor
    · rintro ⟨rfl, hidentifier⟩
      refine ⟨hidentifier, ?_⟩
      intro hrun hcount front relative data back heq hreadable hfits hfile
      exact hescapes.1 (inspectTree_escapes.2
        ⟨hrun, hcount, front, relative, data, back, heq, hreadable, hfits, hfile⟩) rfl
    · rintro ⟨hidentifier, hreached⟩
      refine ⟨by_contra fun hne => ?_, hidentifier⟩
      obtain ⟨hrun, hcount, front, relative, data, back, heq, hreadable, hfits, hfile⟩ :=
        inspectTree_escapes.1 (hescapes.2 hne)
      exact hreached hrun hcount front relative data back heq hreadable hfits hfile

/-! ## Snapshots -/

theorem legacyRow_listed {f : Text × List UInt8} (h : LegacyFile adapter runId f.1 f.2)
    (hsentinel : f.1 ≠ LEGACY_SENTINEL) : legacyRow adapter f.1 =
      .ok ((listedArtifact adapter runId f).mediaType,
        (listedArtifact adapter runId f).artifactSchemaVersion) := by
  have hread := readArtifact_of_file h
  rw [readArtifact, if_neg hsentinel] at hread
  simp only [bind_eq_ok, pure_eq_ok] at hread
  obtain ⟨-, -, row, hrow, report, -, heq⟩ := hread
  rw [hrow, ← (Prod.mk.inj heq).1]

/-- The report of `final_report.json` is held. -/
theorem heldReport_of_model {data : List UInt8} {m : M}
    (h : LegacyFile adapter runId (text "final_report.json") data)
    (hm : IsModel adapter .finalReport data m) (hid : adapter.identity m = runId) :
    heldReport adapter runId (text "final_report.json", data) = some m := by
  have hread := readArtifact_of_file h
  rw [readArtifact, if_neg (by decide)] at hread
  simp only [bind_eq_ok, pure_eq_ok, validateLegacyArtifact_eq_ok] at hread
  obtain ⟨-, -, row, -, report, ⟨kind, hkind, hcheck⟩, heq⟩ := hread
  have hreport : kind = .report := by
    have hown : legacyKind (text "final_report.json") = some .report := by decide
    rw [hown] at hkind
    exact (Option.some.inj hkind).symm
  subst hreport
  rw [← (Prod.mk.inj heq).2]
  have hown : validateIdentified adapter .finalReport runId data = .ok m :=
    validateIdentified_eq_ok.2 ⟨hm, hid⟩
  simp only [LegacyKind.check, hown] at hcheck
  exact (Except.ok.inj hcheck).symm

theorem asciiLower_dot {t : Text} : DOT ∈ asciiLower t ↔ DOT ∈ t := by
  unfold asciiLower DOT
  simp only [List.mem_map]
  constructor
  · rintro ⟨c, hc, heq⟩
    split at heq
    · omega
    · rwa [← heq]
  · intro hdot
    exact ⟨_, hdot, by decide⟩

/-- The names of a tree that passes differ in more than the case of ASCII letters. -/
theorem Readable.names (h : Readable adapter runId entries) {e e' : Entry} (he : e ∈ entries)
    (he' : e' ∈ entries) (hlower : asciiLower e.relative = asciiLower e'.relative) :
    e.relative = e'.relative := by
  have hallowed : ∀ r ∈ allowedDirectories, ∀ r' ∈ allowedDirectories,
      asciiLower r = asciiLower r' → r = r' := by decide
  have hdotless : ∀ r ∈ allowedDirectories, DOT ∉ r := by decide
  have hmixed : ∀ {r r' : Text} {data : List UInt8}, Entry.directory r ∈ entries →
      Entry.file r' data ∈ entries → asciiLower r ≠ asciiLower r' := by
    intro r r' data hr hr' heq
    have hdot := (h.artifacts (r', data) (mem_files.2 hr')).names.2
    rw [← asciiLower_dot, ← heq, asciiLower_dot] at hdot
    exact hdotless r (h.directories r hr) hdot
  cases e with
  | directory r =>
    cases e' with
    | directory r' => exact hallowed r (h.directories r he) r' (h.directories r' he') hlower
    | file r' data' => exact absurd hlower (hmixed he he')
  | file r data =>
    cases e' with
    | directory r' => exact absurd hlower.symm (hmixed he' he)
    | file r' data' =>
      have hf : (r, data) ∈ files entries := mem_files.2 he
      have hf' : (r', data') ∈ files entries := mem_files.2 he'
      have halias : adapter.lib.unicode.lower r = adapter.lib.unicode.lower r' := by
        rw [adapter.lib.unicode.lower_ascii r (h.artifacts _ hf).names.1,
          adapter.lib.unicode.lower_ascii r' (h.artifacts _ hf').names.1]
        exact hlower
      exact congrArg Prod.fst (List.inj_on_of_nodup_map h.aliases hf hf' halias)

/-- What is said of a verified tree is exact. -/
theorem exactSnapshot_of_verified (h : Verified adapter runId entries) {rootDigest inventoryDigest : String} :
    ExactSnapshot adapter runId entries
      (snapshotOf adapter runId entries rootDigest inventoryDigest) where
  runId_eq := rfl
  artifacts := by
    have hpairs : ((files entries).map (listedArtifact adapter runId)).map
        (fun a => (a.relativePath, a.exactBytes)) = files entries := by
      rw [List.map_map]
      refine (List.map_congr_left fun f _ => ?_).trans (List.map_id _)
      show ((listedArtifact adapter runId f).relativePath, _) = f
      rw [listedArtifact_path, listedArtifact_bytes]
    exact ((List.perm_insertionSort _ _).map _).trans (.of_eq hpairs)
  ordered := sorted_ascending h.readable.listed_paths
  rows a ha hpath := by
    obtain ⟨f, hf, rfl⟩ := mem_orderedArtifacts.1 ha
    rw [listedArtifact_path] at hpath ⊢
    exact legacyRow_listed (h.readable.artifacts f hf) hpath
  valid := h.readable.artifacts
  sentinel := h.sentinel
  sizes := h.readable.sizes
  total := h.readable.total (List.ne_nil_of_mem
    (mem_files (f := (LEGACY_SENTINEL, LEGACY_SENTINEL_BYTES)).2 h.sentinel))
  names _ he _ he' := h.readable.names he he'
  report m := by
    show (inspectionOf adapter runId entries).finalReport = some m ↔ _
    rw [inspectionOf_report h.readable]
    constructor
    · rintro ⟨f, hf, hheld⟩
      obtain ⟨hpath, hm, hid⟩ := heldReport_eq_some hheld
      exact ⟨f.2, hpath ▸ mem_files.1 hf, hm, hid⟩
    · rintro ⟨data, hmem, hm, hid⟩
      have hf : (text "final_report.json", data) ∈ files entries := mem_files.2 hmem
      exact ⟨_, hf, heldReport_of_model (h.readable.artifacts _ hf) hm hid⟩

end

/-! ## A state that is no text -/

def sampleAdapter : LegacyRunAdapter Unit Unit where
  lib := sampleLibrary
  validate := fun _ _ => none
  identity := fun _ => []
  sha256 := fun _ => ""
  root := { adapter := text "posix", resolved := text "/runs", stDev := 1, stIno := 2 }

/-- A state whose name is a list. -/
def listedState : Value Unit := .obj
  [(text "deliberation_rounds", .int 0), (text "elapsed_seconds", .int 0), (text "events", .arr []),
    (text "state", .arr []), (text "tool_retries", .obj [])]

def listedStateBytes : List UInt8 :=
  ((dumps sampleLibrary.numbers listedState).bind encode).getD []

end PokerDeliberation.Storage
