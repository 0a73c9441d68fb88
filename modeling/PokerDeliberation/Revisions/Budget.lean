import PokerDeliberation.Lib.Interruptible
import PokerDeliberation.Revisions.Store

/-!
# The byte budget of a run

While a call goes on, `Within limit headroom` says that the run's files, with
the authority's byte whether it is written yet or not, and `headroom` more
bytes stay within the limit. Each step spends the bytes it writes; a
replacement gives back what it replaces. Once a call is admitted this holds
for the store's limit, and no later step of any call ends it.
-/

namespace PokerDeliberation.Revisions

open Lib Lib.Interruptible

/-- What the authority's file is short of. -/
def authorityMissing (files : RunFiles) : Nat := AUTHORITY_BYTE.length - files.size .authority

structure Within (limit headroom : Nat) (files : RunFiles) : Prop where
  /-- The authority's file is not written, half written or written. -/
  authority : ∀ content, files.find .authority = some content → content <+: AUTHORITY_BYTE
  bytes : runPhysicalBytes files + authorityMissing files + headroom ≤ limit

variable {limit limit' n m maxBytes : Nat} {files before : RunFiles}
  {path source target : RunPath} {data : Bytes}

theorem Within.mono (h : Within limit n files) (hle : m ≤ n) : Within limit m files :=
  ⟨h.authority, Nat.le_trans (Nat.add_le_add_left hle _) h.bytes⟩

theorem Within.zero (h : Within limit n files) : Within limit 0 files := h.mono (Nat.zero_le n)

theorem Within.raise (h : Within limit n files) (hle : limit ≤ limit') : Within limit' n files :=
  ⟨h.authority, Nat.le_trans h.bytes hle⟩

theorem Within.le (h : Within limit n files) : runPhysicalBytes files ≤ limit := by
  have := h.bytes
  omega

theorem authorityMissing_written (h : files.find .authority = some AUTHORITY_BYTE) :
    authorityMissing files = 0 := by
  rw [authorityMissing, Files.size, h]
  rfl

theorem within_written (h : files.find .authority = some AUTHORITY_BYTE)
    (hbytes : runPhysicalBytes files + n ≤ limit) : Within limit n files := by
  refine ⟨fun content hcontent => ?_, by rwa [authorityMissing_written h]⟩
  rw [h, Option.some.injEq] at hcontent
  exact hcontent ▸ List.prefix_refl _

/-- What leaves the authority alone and adds at most `m` bytes spends at most `m`. -/
theorem Within.spend {files' : RunFiles} (h : Within limit (m + n) files)
    (hauthority : files'.find .authority = files.find .authority)
    (htotal : files'.total ≤ files.total + m) : Within limit n files' := by
  refine ⟨fun content hcontent => h.authority content (hauthority ▸ hcontent), ?_⟩
  have hmissing : authorityMissing files' = authorityMissing files := by
    rw [authorityMissing, Files.size, hauthority, authorityMissing, Files.size]
  have hbytes : files.total + authorityMissing files + (m + n) ≤ limit := h.bytes
  show files'.total + authorityMissing files' + n ≤ limit
  omega

theorem Within.put (h : Within limit (m + n) files) (hpath : path ≠ .authority)
    (hdata : data.length ≤ m) : Within limit n (files.put path data) :=
  h.spend (Files.find_put_of_ne hpath.symm)
    (Nat.le_trans Files.total_put_le (Nat.add_le_add_left hdata _))

theorem Within.move (h : Within limit n files) (hsource : source ≠ .authority)
    (htarget : target ≠ .authority) (hne : source ≠ target) :
    Within limit n (files.move source target) := by
  refine Within.spend (m := 0) (by rwa [Nat.zero_add])
    (Files.find_move_of_ne hsource.symm htarget.symm) ?_
  exact Files.total_move_le hne

/-! ## Single files -/

theorem total_partial (before : RunFiles) (path : RunPath) (data : Bytes) (k : Nat) :
    ((before.put path []).put path (data.take k)).total ≤ before.total + data.length := by
  have hopen : (before.put path []).total ≤ before.total := Files.total_put_le
  have hput : ((before.put path []).put path (data.take k)).total ≤
      (before.put path []).total + (data.take k).length := Files.total_put_le
  have htake : (data.take k).length ≤ data.length := List.length_take_le' k data
  omega

/-- What an exclusive write leaves. -/
theorem triple_writeExclusiveVerified (hpath : path ≠ .authority)
    (h : Within limit (data.length + n) before) :
    Triple (Within limit n) (· = before) (writeExclusiveVerified maxBytes path data) fun _ t =>
      Within limit n t ∧ t.find path = some data ∧ t.total ≤ before.total + data.length ∧
        ∀ other, other ≠ path → t.find other = before.find other := by
  have hopen : Within limit (data.length + n) (before.put path []) := by
    refine Within.put (m := 0) ?_ hpath (Nat.le_refl 0)
    rwa [Nat.zero_add]
  have hbefore : Within limit n before := h.mono (Nat.le_add_left _ _)
  rintro s rfl
  rw [writeExclusiveVerified, ensure, meets_lift_bind]
  refine ⟨fun _ _ => hbefore, fun _ _ => ?_⟩
  rw [meets_read_bind, ensure, meets_lift_bind]
  refine ⟨fun _ _ => hbefore, fun _ _ => ?_⟩
  rw [create, meets_bind, meets_atomic]
  refine ⟨hbefore, ?_⟩
  show Meets (writeBytes path data) (s.put path []) _ _
  rw [writeBytes, meets_gradual]
  refine ⟨fun t ht => ?_, hopen.put hpath (Nat.le_refl _), Files.find_put_self, ?_,
    fun other hother => ?_⟩
  · obtain ⟨k, -, rfl⟩ := List.mem_map.1 ht
    exact hopen.put hpath (List.length_take_le' k data)
  · have htotal := total_partial s path data data.length
    rwa [List.take_length] at htotal
  · rw [Files.find_put_of_ne hother, Files.find_put_of_ne hother]

/-- An exclusive write spends its bytes. -/
theorem within_writeExclusiveVerified (hpath : path ≠ .authority) :
    Triple (Within limit 0) (Within limit (data.length + n))
      (writeExclusiveVerified maxBytes path data) fun _ => Within limit n := by
  refine Triple.mono_during (D := Within limit n) (fun s hs => ?_) fun _ h => h.zero
  exact ((triple_writeExclusiveVerified hpath hs).weaken (fun _ h => h) fun _ _ h => h.1) s rfl

theorem within_replace (hsource : source ≠ .authority) (htarget : target ≠ .authority)
    (hne : source ≠ target) :
    Triple (Within limit 0) (Within limit n) (replace source target) fun _ => Within limit n :=
  triple_atomic (fun _ h => h.zero) fun _ h => h.move hsource htarget hne

/-! ## The authority -/

/-- The first write of the authority's file takes what was set aside for it. -/
theorem within_writeAuthority (h : Within limit n files)
    (hempty : files.size .authority = 0) :
    Meets (writeBytes .authority AUTHORITY_BYTE) files (fun _ => Within limit n)
      fun _ t => Within limit n t ∧ t.find .authority = some AUTHORITY_BYTE ∧
        t.total = files.total + authorityMissing files := by
  have hput : (files.put .authority AUTHORITY_BYTE).total + files.size .authority =
      files.total + AUTHORITY_BYTE.length := Files.total_put ..
  have hmissing : authorityMissing files = 1 := by rw [authorityMissing, hempty]; rfl
  have hlength : AUTHORITY_BYTE.length = 1 := rfl
  have hbytes : files.total + authorityMissing files + n ≤ limit := h.bytes
  rw [writeBytes, meets_gradual]
  refine ⟨fun t ht => ?_, ?_⟩
  · obtain ⟨k, hk, rfl⟩ := List.mem_map.1 ht
    have hk : k = 0 := by simpa [hlength] using hk
    subst hk
    have hnothing : (files.put .authority []).total + files.size .authority = files.total + 0 :=
      Files.total_put ..
    refine ⟨fun content hcontent => ?_, ?_⟩
    · rw [List.take_zero, Files.find_put_self, Option.some.injEq] at hcontent
      exact hcontent ▸ List.nil_prefix
    · have hsize : authorityMissing (files.put .authority []) = 1 := by
        rw [authorityMissing, Files.size, Files.find_put_self]
        rfl
      show (files.put .authority []).total + authorityMissing (files.put .authority []) + n ≤ limit
      omega
  · refine ⟨within_written Files.find_put_self ?_, Files.find_put_self, ?_⟩
    · show (files.put .authority AUTHORITY_BYTE).total + n ≤ limit
      omega
    · omega

theorem within_createAuthority (h : Within limit n files)
    (hnone : files.find .authority = none) :
    Within limit n (files.put .authority []) ∧ (files.put .authority []).size .authority = 0 ∧
      (files.put .authority []).total + authorityMissing (files.put .authority []) =
        files.total + authorityMissing files := by
  have hsize : (files.put .authority []).size .authority = 0 := by
    rw [Files.size, Files.find_put_self]
    rfl
  have hnothing : files.size .authority = 0 := by rw [Files.size, hnone]; rfl
  have hput : (files.put .authority []).total + files.size .authority = files.total + 0 :=
    Files.total_put ..
  have hmissing : authorityMissing (files.put .authority []) = authorityMissing files := by
    rw [authorityMissing, hsize, authorityMissing, hnothing]
  have hbytes : files.total + authorityMissing files + n ≤ limit := h.bytes
  refine ⟨⟨fun content hcontent => ?_, ?_⟩, hsize, ?_⟩
  · rw [Files.find_put_self, Option.some.injEq] at hcontent
    exact hcontent ▸ List.nil_prefix
  · show (files.put .authority []).total + authorityMissing (files.put .authority []) + n ≤ limit
    omega
  · omega

/-- Opening the authority stays within the limit, and leaves it written. -/
theorem meets_openAuthority {bootstrap : Bool} (h : Within limit n files) :
    Meets (openAuthority bootstrap) files (fun _ => Within limit n) fun result t =>
      match result with
      | .ok _ => Within limit n t ∧ t.find .authority = some AUTHORITY_BYTE ∧
          t.total = files.total + authorityMissing files
      | .error _ => Within limit n t := by
  rw [openAuthority, meets_read_bind]
  split
  next hnone =>
    obtain ⟨hopen, hsize, htotal⟩ := within_createAuthority h hnone
    rw [ensure, meets_lift_bind]
    refine ⟨fun _ _ => h, fun _ _ => ?_⟩
    rw [create, meets_bind, meets_atomic]
    refine ⟨h, ?_⟩
    refine (within_writeAuthority hopen hsize).mono (fun _ _ ht => ht) fun result t ht => ?_
    cases result with
    | ok _ => exact ⟨ht.1, ht.2.1, ht.2.2.trans htotal⟩
    | error _ => exact ht.1
  next content hcontent =>
    split
    next hempty =>
      have hsize : files.size .authority = 0 := by rw [Files.size, hcontent, hempty]; rfl
      rw [ensure, meets_lift_bind]
      refine ⟨fun _ _ => h, fun _ _ => ?_⟩
      refine (within_writeAuthority h hsize).mono (fun _ _ ht => ht) fun result t ht => ?_
      cases result with
      | ok _ => exact ht
      | error _ => exact ht.1
    next =>
      rw [ensure, meets_lift]
      split
      next hcheck =>
        have hwritten : files.find .authority = some AUTHORITY_BYTE :=
          hcontent.trans (congrArg some (require_eq_ok.1 hcheck))
        exact ⟨h, hwritten, by rw [authorityMissing_written hwritten, Nat.add_zero]⟩
      next => exact h

theorem within_openAuthority {bootstrap : Bool} :
    Triple (Within limit 0) (Within limit 0) (openAuthority bootstrap) fun _ => Within limit 0 := by
  refine fun s hs => (meets_openAuthority hs).mono (fun _ _ h => h) fun result t ht => ?_
  cases result with
  | ok _ => exact ht.1
  | error _ => exact ht

/-- An opened authority is written, and the files with its byte are those it is opened over. -/
theorem openAuthority_returns {bootstrap : Bool}
    (h : (openAuthority bootstrap files).2.1 = .ok ()) :
    (openAuthority bootstrap files).2.2.find .authority = some AUTHORITY_BYTE ∧
      Within (openAuthority bootstrap files).2.2.total 0 files := by
  have hpart : ∀ content, files.find .authority = some content → content <+: AUTHORITY_BYTE := by
    intro content hcontent
    by_cases hempty : content = []
    · exact hempty ▸ List.nil_prefix
    · have heq : content = AUTHORITY_BYTE := by
        simp only [openAuthority, bind_run, read_run, hcontent, hempty, if_false, ensure,
          lift_run, require_eq_ok] at h
        exact h
      exact heq ▸ List.prefix_refl _
  have hwithin : Within (files.total + authorityMissing files) 0 files :=
    ⟨hpart, Nat.le_refl _⟩
  have hfinal := (@meets_openAuthority _ _ _ bootstrap hwithin).final
  rw [h] at hfinal
  exact ⟨hfinal.2.1, hwithin.raise (Nat.le_of_eq hfinal.2.2.symm)⟩

/-! ## What a publication spends -/

section Publish

variable {store : RunRevisionStore} {reads : PublishReads} {request : RevisionPublishRequestV1}
  {prepared : PreparedRevision} {plan : PublishPlan}

/-- The sizes in the inventory are those of the artifacts. -/
def PreparedRevision.Sized (prepared : PreparedRevision) : Prop :=
  ∀ entry ∈ prepared.inventories, entry.sizeBytes = (prepared.exactBytes entry.logicalName).length

theorem validateArtifacts_ok {artifacts : List RevisionArtifactV1} {aliases : List String}
    {inventories : List PayloadInventoryEntryV1}
    (h : validateArtifacts store reads aliases artifacts = .ok inventories) :
    inventories = artifacts.map inventoryEntry ∧
      (artifacts.map fun artifact => artifact.logicalName.toLower).Nodup ∧
      ∀ artifact ∈ artifacts, artifact.logicalName.toLower ∉ aliases := by
  induction artifacts generalizing aliases inventories with
  | nil =>
    cases h
    simp
  | cons artifact artifacts ih =>
    simp only [validateArtifacts, bind_eq_ok, require_eq_ok, pure_eq_ok] at h
    obtain ⟨_, hfresh, _, -, _, -, entries, hrest, rfl⟩ := h
    obtain ⟨rfl, hnodup, hother⟩ := ih hrest
    refine ⟨rfl, ?_, ?_⟩
    · rw [List.map_cons, List.nodup_cons]
      refine ⟨fun hmem => ?_, hnodup⟩
      obtain ⟨other, hmem, heq⟩ := List.mem_map.1 hmem
      exact hother other hmem (heq ▸ List.mem_cons_self)
    · intro other hmem
      rcases List.mem_cons.1 hmem with rfl | hmem
      · exact hfresh
      · exact fun halias => hother other hmem (List.mem_cons_of_mem _ halias)

theorem find_named {artifacts : List RevisionArtifactV1} {artifact : RevisionArtifactV1}
    (hnodup : (artifacts.map fun artifact => artifact.logicalName.toLower).Nodup)
    (hmem : artifact ∈ artifacts) :
    (artifacts.find? fun other => other.logicalName = artifact.logicalName) = some artifact := by
  cases hother : artifacts.find? fun other => other.logicalName = artifact.logicalName with
  | none => exact absurd (List.find?_eq_none.1 hother artifact hmem) (by simp)
  | some other =>
    have hname : other.logicalName = artifact.logicalName := by
      simpa using List.find?_some hother
    exact congrArg some (List.inj_on_of_nodup_map hnodup (List.mem_of_find?_eq_some hother) hmem
      (congrArg String.toLower hname))

/-- What is prepared has the sizes of the bytes it will write. -/
theorem preflight_sized (h : preflight store reads request = .ok prepared) : prepared.Sized := by
  simp only [preflight, buildInventory, bind_eq_ok, require_eq_ok, pure_eq_ok] at h
  obtain ⟨_, -, inventories, ⟨_, -, entries, hentries, _, -, rfl⟩, _, -, rfl⟩ := h
  obtain ⟨rfl, hnodup, -⟩ := validateArtifacts_ok hentries
  intro entry hentry
  obtain ⟨artifact, hmem, rfl⟩ := List.mem_map.1 hentry
  have hperm := List.perm_insertionSort
    (fun a b : RevisionArtifactV1 => reads.payloadBefore a.logicalName b.logicalName = true)
    request.artifacts
  have hfind := find_named ((hperm.map _).nodup_iff.1 hnodup) (hperm.mem_iff.1 hmem)
  show artifact.exactBytes.length = (PreparedRevision.exactBytes _ artifact.logicalName).length
  rw [PreparedRevision.exactBytes, hfind]
  rfl

/-- The metadata is written beside the old, then takes its place. -/
theorem within_writeMetadata
    (hauthority : before.find .authority = some AUTHORITY_BYTE)
    (hwrite : before.total + reads.metadataBytes.length ≤ limit)
    (hreplaced : before.total - before.size .metadata + reads.metadataBytes.length + n ≤ limit) :
    Triple (Within limit 0) (· = before) (writeMetadata store reads) fun _ => Within limit n := by
  have hbefore : Within limit (reads.metadataBytes.length + 0) before :=
    within_written hauthority hwrite
  refine (triple_writeExclusiveVerified (by simp) hbefore).bind fun _ => ?_
  refine Triple.bind (R := fun _ => Within limit n)
    (triple_atomic (fun _ h => h.1) fun t ht => ?_) fun _ => triple_check fun _ h => h.zero
  obtain ⟨-, htemp, htotal, hother⟩ := ht
  refine within_written ?_ ?_
  · rw [Files.find_move_of_ne (by simp) (by simp), hother _ (by simp), hauthority]
  · have hmove : (t.move (.metadataTemp reads.ownerToken) .metadata).total + t.size .metadata =
        t.total := Files.total_move (by simp) htemp
    have hsize : t.size .metadata = before.size .metadata := by
      rw [Files.size, hother _ (by simp), Files.size]
    have hle : before.size .metadata ≤ before.total := Files.size_le_total
    show (t.move _ _).total + n ≤ limit
    omega

theorem within_writePayloads {inventories : List PayloadInventoryEntryV1}
    (hsized : ∀ entry ∈ inventories,
      entry.sizeBytes = (prepared.exactBytes entry.logicalName).length) :
    Triple (Within limit 0)
      (Within limit ((inventories.map PayloadInventoryEntryV1.sizeBytes).sum + n))
      (writePayloads store prepared inventories) fun _ => Within limit n := by
  induction inventories with
  | nil => exact triple_pure fun _ h => h.mono (by simp)
  | cons entry inventories ih =>
    have hentry := hsized entry (by simp)
    refine Triple.bind (R := fun _ =>
      Within limit ((inventories.map PayloadInventoryEntryV1.sizeBytes).sum + n)) ?_ fun _ =>
      ih fun other hother => hsized other (List.mem_cons_of_mem _ hother)
    refine (within_writeExclusiveVerified (by simp)).weaken (fun _ h => h.mono ?_) fun _ _ h => h
    rw [List.map_cons, List.sum_cons, hentry]
    omega

theorem within_stage (hsized : prepared.Sized) :
    Triple (Within limit 0) (Within limit (prepared.revisionBytes + n)) (stage store prepared)
      fun _ => Within limit n := by
  refine Triple.bind (R := fun _ => Within limit (prepared.revisionBytes + n))
    (triple_check fun _ h => h.zero) fun _ => ?_
  refine Triple.bind (R := fun _ => Within limit
    ((prepared.inventories.map PayloadInventoryEntryV1.sizeBytes).sum +
      (prepared.manifestBytes.length + n))) ?_ fun _ => ?_
  · refine (within_writeExclusiveVerified (by simp)).weaken (fun _ h => h.mono ?_) fun _ _ h => h
    rw [PreparedRevision.revisionBytes]
    omega
  · exact (within_writePayloads hsized).bind fun _ => within_writeExclusiveVerified (by simp)

theorem publishedPath_authority {revision : Nat} {transactionId : String} {other : RunPath} :
    publishedPath revision transactionId other = .authority ↔ other = .authority := by
  unfold publishedPath
  split
  · split <;> simp
  · rfl

theorem Within.publishedPath {revision : Nat} {transactionId : String}
    (h : Within limit n files) :
    Within limit n (files.rename (publishedPath revision transactionId)) :=
  Within.spend (m := 0) (by rwa [Nat.zero_add])
    (Files.find_rename fun _ => publishedPath_authority) Files.total_rename_le

theorem within_publishRevision :
    Triple (Within limit 0) (Within limit n) (publishRevision reads prepared)
      fun _ => Within limit n := by
  refine .read_bind fun _ => .lift_bind (fun _ h => h.1.zero) fun _ _ => ?_
  refine .lift_bind (fun _ h => h.1.zero) fun _ _ => ?_
  exact (triple_atomic (fun _ h => h.1.zero) fun _ h => h.1.publishedPath).bind
    fun _ => triple_check fun _ h => h.zero

/-- The new pointer is written beside the old, then takes its place. -/
theorem within_publishPointer :
    Triple (Within limit 0) (Within limit (prepared.pointerBytes.length + n))
      (publishPointer store reads prepared) fun _ => Within limit n := by
  refine (within_writeExclusiveVerified (by simp)).bind fun _ => ?_
  refine .check_bind (fun _ h => h.zero) fun _ => ?_
  refine .lift_bind (fun _ h => h.zero) fun _ _ => .lift_bind (fun _ h => h.zero) fun _ _ => ?_
  exact (within_replace (by simp) (by simp) (by simp)).bind fun _ => triple_check fun _ h => h.zero

/-- What the admission has established. -/
structure PublishPlan.Sound (plan : PublishPlan) (store : RunRevisionStore) (reads : PublishReads)
    (prepared : PreparedRevision) (files : RunFiles) : Prop where
  prepared : plan.prepared = prepared
  metadataBytes : plan.metadataBytes = reads.metadataBytes.length
  currentBytes : plan.currentBytes = runPhysicalBytes files
  previousMetadataBytes : plan.previousMetadataBytes = files.size .metadata
  peakBytes : plan.peakBytes ≤ store.maxRunBytes

theorem admitPublish_ok {admission : PublishOutcome ⊕ PublishPlan}
    (h : admitPublish store reads prepared files = .ok admission) :
    runPhysicalBytes files ≤ store.maxRunBytes ∧
      ∀ plan, admission = .inr plan → plan.Sound store reads prepared files := by
  simp only [admitPublish, bind_eq_ok, require_eq_ok] at h
  obtain ⟨_, -, chain, -, _, hbytes, idempotent, -, h⟩ := h
  refine ⟨hbytes, fun plan hplan => ?_⟩
  subst hplan
  cases idempotent with
  | some outcome => simp at h
  | none =>
    simp only [bind_eq_ok] at h
    obtain ⟨orphan, -, h⟩ := h
    cases orphan with
    | some effect => simp at h
    | none =>
      simp only [require_bind_eq_ok, pure_eq_ok, Sum.inr.injEq] at h
      obtain ⟨-, -, hpeak, rfl⟩ := h
      exact ⟨rfl, rfl, rfl, rfl, hpeak⟩

/-- The peak covers the metadata at the overlap, and the revision and the
pointer's file beside what the metadata leaves. -/
theorem PublishPlan.peakBytes_covers :
    plan.currentBytes + plan.metadataBytes ≤ plan.peakBytes ∧
      plan.projectedAfterMetadata + (plan.prepared.revisionBytes +
        plan.prepared.pointerBytes.length) ≤ plan.peakBytes := by
  unfold PublishPlan.peakBytes
  omega

/-- Once admitted, a publication never holds more than its peak. -/
theorem within_commit (hplan : plan.Sound store reads prepared before) (hsized : prepared.Sized)
    (hauthority : before.find .authority = some AUTHORITY_BYTE) :
    Triple (Within plan.peakBytes 0) (· = before) (commit store reads prepared)
      fun _ => Within plan.peakBytes 0 := by
  obtain ⟨hprepared, hmetadata, hcurrent, hprevious, -⟩ := hplan
  obtain ⟨hoverlap, hrevision⟩ := plan.peakBytes_covers
  rw [PublishPlan.projectedAfterMetadata] at hrevision
  rw [hprepared] at hrevision
  rw [hcurrent, hmetadata] at hoverlap hrevision
  rw [hprevious] at hrevision
  refine (within_writeMetadata (n := prepared.revisionBytes + prepared.pointerBytes.length)
    hauthority hoverlap ?_).bind fun _ => ?_
  · exact hrevision
  · refine .check_bind (fun _ h => h.zero) fun _ => ?_
    refine (within_stage hsized).bind fun _ => ?_
    exact within_publishRevision.bind fun _ =>
      (within_publishPointer (n := 0)).weaken (fun _ h => h) fun _ _ h => h

end Publish

end PokerDeliberation.Revisions
