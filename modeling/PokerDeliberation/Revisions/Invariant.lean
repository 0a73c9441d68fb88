import PokerDeliberation.Revisions.Budget

/-!
# The budget along histories

Calls on one run come one after another, each cut off anywhere. From the first
call that is admitted on, the files of the run stay within the budget, and while
an admitted call goes on they stay within the peak it was admitted with.
-/

namespace PokerDeliberation.Revisions

open Lib Lib.Interruptible
open Budgets (RunStorageFailureCode)

variable {store : RunRevisionStore} {files before s t : RunFiles} {limit n : Nat}
  {cut : Option FsStep}

/-! ## Claims -/

section Claim

variable {reads : ClaimReads} {request : RecoveryClaimRequestV1}

theorem admitClaim_ok {admission : Unit ⊕ Nat}
    (h : admitClaim store reads request files = .ok admission) :
    runPhysicalBytes files ≤ store.maxRunBytes ∧ ∀ additional, admission = .inr additional →
      runPhysicalBytes files + additional ≤ store.maxRunBytes ∧
        (files.find (.claimTemp request.transactionId request.claimId) = none →
          additional = (reads.data request).length) := by
  simp only [admitClaim, bind_eq_ok, require_eq_ok] at h
  obtain ⟨_, -, _, hbytes, h⟩ := h
  refine ⟨hbytes, fun additional hadditional => ?_⟩
  subst hadditional
  split at h
  next bytes _ => cases hmatch : matchClaim store reads request bytes <;> simp [hmatch] at h
  next =>
    simp only [bind_eq_ok, require_eq_ok, pure_eq_ok, Sum.inr.injEq] at h
    obtain ⟨inspection, -, _, -, added, hadded, _, hpeak, rfl⟩ := h
    refine ⟨hpeak, fun hnone => ?_⟩
    rw [peakAdditionalBytes, hnone] at hadded
    exact (pure_eq_ok.1 hadded).symm

theorem within_finalizeClaim :
    Triple (Within limit 0) (Within limit 0) (finalizeClaim store reads request)
      fun _ => Within limit 0 := by
  refine .read_bind fun _ => .lift_bind (fun _ h => h.1) fun _ _ =>
    .lift_bind (fun _ h => h.1) fun _ _ => ?_
  refine Triple.weaken (P := Within limit 0) ?_ (fun _ h => h.1) fun _ _ h => h
  split
  · exact triple_lift fun _ h => h
  · refine (within_replace (n := 0) (by simp) (by simp) (by simp)).bind fun _ => ?_
    refine .read_bind fun _ => Triple.weaken (P := Within limit 0) ?_ (fun _ h => h.1)
      fun _ _ h => h
    split
    · refine (triple_lift fun _ h => h).bind fun _ => ?_
      exact .check_bind (fun _ h => h) fun _ => triple_lift fun _ h => h
    · refine (triple_raise fun _ h => h : Triple _ _ (raise _) fun _ => Within limit 0).bind
        fun _ => ?_
      exact .check_bind (fun _ h => h) fun _ => triple_lift fun _ h => h

/-- Once admitted, a claim adds its file and no more. -/
theorem within_commitClaim (hwithin : Within limit 0 before)
    (htemp : before.find (.claimTemp request.transactionId request.claimId) = none →
      Within limit (reads.data request).length before) :
    Triple (Within limit 0) (· = before) (commitClaim store reads request)
      fun _ => Within limit 0 := by
  rintro s rfl
  rw [commitClaim, meets_read_bind]
  split
  next hnone =>
    have hnone := htemp (Option.isNone_iff_eq_none.1 hnone)
    exact ((within_writeExclusiveVerified (by simp)).bind fun _ => within_finalizeClaim) _ hnone
  next => exact within_finalizeClaim _ hwithin

theorem openClaim_returns {admission : Unit ⊕ Nat}
    (h : (openClaim store reads request s).2.1 = .ok admission) :
    (openAuthority false s).2.1 = .ok () ∧
      (openClaim store reads request s).2.2 = (openAuthority false s).2.2 ∧
      admitClaim store reads request (openAuthority false s).2.2 = .ok admission := by
  obtain ⟨_, -, h, h₁⟩ := lift_bind_returns h
  obtain ⟨_, -, h, h₂⟩ := lift_bind_returns h
  obtain ⟨_, -, h, h₃⟩ := lift_bind_returns h
  obtain ⟨_, -, h, h₄⟩ := lift_bind_returns h
  obtain ⟨_, hopen, h, h₅⟩ := bind_returns h
  obtain ⟨_, -, h, h₆⟩ := lift_bind_returns h
  exact ⟨hopen, h₁.trans (h₂.trans (h₃.trans (h₄.trans (h₅.trans h₆)))), h⟩

theorem within_openClaim :
    Triple (Within limit 0) (Within limit 0) (openClaim store reads request)
      fun _ => Within limit 0 := by
  refine .lift_bind (fun _ h => h) fun _ _ => .lift_bind (fun _ h => h) fun _ _ =>
    .lift_bind (fun _ h => h) fun _ _ => .lift_bind (fun _ h => h) fun _ _ => ?_
  exact within_openAuthority.bind fun _ => .lift_bind (fun _ h => h) fun _ _ =>
    triple_check fun _ h => h

/-- A claim stays within a limit that covers what it was admitted with. -/
theorem meets_claimOrphan (hs : Within limit 0 s)
    (hlimit : ∀ additional, (openClaim store reads request s).2.1 = .ok (.inr additional) →
      runPhysicalBytes (openClaim store reads request s).2.2 + additional ≤ limit) :
    Meets (claimOrphan store reads request) s (fun _ => Within limit 0)
      fun _ => Within limit 0 := by
  have hopen : Meets (openClaim store reads request) s _ _ := within_openClaim s hs
  rw [claimOrphan, meets_bind]
  refine ⟨hopen.during, ?_⟩
  have hfinal := hopen.final
  cases hresult : (openClaim store reads request s).2.1 with
  | error e =>
    rw [hresult] at hfinal
    exact hfinal
  | ok admission =>
    rw [hresult] at hfinal
    cases admission with
    | inl _ => exact meets_pure.2 hfinal
    | inr additional =>
      obtain ⟨hauthority, hstate, hadmit⟩ := openClaim_returns hresult
      have hadditional := ((admitClaim_ok hadmit).2 additional rfl).2
      have hbytes := hlimit additional hresult
      rw [hstate] at hbytes hfinal ⊢
      have hwritten := (openAuthority_returns hauthority).1
      have hcommit : Triple (Within limit 0) (· = (openAuthority false s).2.2)
          (commitClaim store reads request) fun _ => Within limit 0 :=
        within_commitClaim hfinal fun hnone => by
          rw [← hadditional hnone]
          exact within_written hwritten hbytes
      refine Triple.meets (P := (· = (openAuthority false s).2.2)) ?_ rfl
      exact hcommit.bind fun _ => triple_pure fun _ h => h

end Claim

section Publish

variable {reads : PublishReads} {request : RevisionPublishRequestV1}

theorem openPublish_returns {prepared : PreparedRevision} {admission : PublishOutcome ⊕ PublishPlan}
    (h : (openPublish store reads request s).2.1 = .ok (prepared, admission)) :
    preflight store reads request = .ok prepared ∧ (openAuthority true s).2.1 = .ok () ∧
      (openPublish store reads request s).2.2 = (openAuthority true s).2.2 ∧
      admitPublish store reads prepared (openAuthority true s).2.2 = .ok admission := by
  obtain ⟨_, hpreflight, h, h₁⟩ := lift_bind_returns h
  obtain ⟨_, -, h, h₂⟩ := lift_bind_returns h
  obtain ⟨_, -, h, h₃⟩ := lift_bind_returns h
  obtain ⟨_, hopen, h, h₄⟩ := bind_returns h
  obtain ⟨_, -, h, h₅⟩ := lift_bind_returns h
  obtain ⟨_, hadmit, h, h₆⟩ := lift_bind_returns h
  cases h
  exact ⟨hpreflight, hopen, h₁.trans (h₂.trans (h₃.trans (h₄.trans (h₅.trans h₆)))), hadmit⟩

theorem within_openPublish :
    Triple (Within limit 0) (Within limit 0) (openPublish store reads request)
      fun _ => Within limit 0 := by
  refine .lift_bind (fun _ h => h) fun _ _ => .lift_bind (fun _ h => h) fun _ _ =>
    .lift_bind (fun _ h => h) fun _ _ => ?_
  exact within_openAuthority.bind fun _ => .lift_bind (fun _ h => h) fun _ _ =>
    .check_bind (fun _ h => h) fun _ => triple_pure fun _ h => h

/-- A publication stays within a limit that covers its peak. -/
theorem meets_publish (hs : Within limit 0 s)
    (hlimit : ∀ prepared plan,
      (openPublish store reads request s).2.1 = .ok (prepared, .inr plan) →
        plan.peakBytes ≤ limit) :
    Meets (publish store reads request) s (fun _ => Within limit 0)
      fun _ => Within limit 0 := by
  have hopen : Meets (openPublish store reads request) s _ _ := within_openPublish s hs
  rw [publish, meets_bind]
  refine ⟨hopen.during, ?_⟩
  have hfinal := hopen.final
  cases hresult : (openPublish store reads request s).2.1 with
  | error e =>
    rw [hresult] at hfinal
    exact hfinal
  | ok opened =>
    obtain ⟨prepared, admission⟩ := opened
    rw [hresult] at hfinal
    cases admission with
    | inl _ => exact meets_pure.2 hfinal
    | inr plan =>
      obtain ⟨hpreflight, hauthority, hstate, hadmit⟩ := openPublish_returns hresult
      have hplan := (admitPublish_ok hadmit).2 plan rfl
      have hwritten := (openAuthority_returns hauthority).1
      have hcommit := (within_commit hplan (preflight_sized hpreflight) hwritten).mono_during
        fun _ h => h.raise (hlimit prepared plan hresult)
      rw [hstate]
      refine Triple.meets (P := (· = (openAuthority true s).2.2)) ?_ rfl
      exact hcommit.bind fun _ => triple_pure fun _ h => h.raise (hlimit prepared plan hresult)

end Publish

/-! ## Histories -/

inductive Call where
  | publish (reads : PublishReads) (request : RevisionPublishRequestV1)
  | claimOrphan (reads : ClaimReads) (request : RecoveryClaimRequestV1)

def Call.run (store : RunRevisionStore) : Call → Proc Unit
  | .publish reads request => do
    let _ ← Revisions.publish store reads request
  | .claimOrphan reads request => do
    let _ ← Revisions.claimOrphan store reads request

/-- The call gets to the end of its admission. -/
def Call.admitted (store : RunRevisionStore) (s : RunFiles) : Call → Bool
  | .publish reads request => (openPublish store reads request s).2.1.isOk
  | .claimOrphan reads request => (openClaim store reads request s).2.1.isOk

/-- The peak a call that is to write is admitted with. -/
def Call.peak (store : RunRevisionStore) (s : RunFiles) : Call → Option Nat
  | .publish reads request =>
    match (openPublish store reads request s).2.1 with
    | .ok (_, .inr plan) => some plan.peakBytes
    | _ => none
  | .claimOrphan reads request =>
    match (openClaim store reads request s).2.1 with
    | .ok (.inr additional) =>
      some (runPhysicalBytes (openClaim store reads request s).2.2 + additional)
    | _ => none

/-- Calls one after another, each cut off anywhere or run to its end. -/
inductive History (store : RunRevisionStore) : RunFiles → List Call → RunFiles → Prop where
  | nil {s : RunFiles} : History store s [] s
  | cons {s t u : RunFiles} {call : Call} {calls : List Call} {cut : Option FsStep} :
      Leaves (call.run store) s cut t → History store t calls u → History store s (call :: calls) u

variable {call : Call} {calls : List Call}

/-- A call stays within a limit that covers its peak. -/
theorem meets_run (hs : Within limit 0 s)
    (hlimit : ∀ peak, call.peak store s = some peak → peak ≤ limit) :
    Meets (call.run store) s (fun _ => Within limit 0) fun _ => Within limit 0 := by
  cases call with
  | publish reads request =>
    refine meets_bind.2 ((meets_publish hs fun prepared plan h =>
      hlimit _ (by rw [Call.peak, h])).mono (fun _ _ h => h) fun result t ht => ?_)
    cases result with
    | ok _ => exact meets_pure.2 ht
    | error _ => exact ht
  | claimOrphan reads request =>
    refine meets_bind.2 ((meets_claimOrphan hs fun additional h =>
      hlimit _ (by rw [Call.peak, h])).mono (fun _ _ h => h) fun result t ht => ?_)
    cases result with
    | ok _ => exact meets_pure.2 ht
    | error _ => exact ht

/-- The peak is within the budget, and the call starts within the peak. -/
theorem peak_within {peak : Nat} (h : call.peak store s = some peak) :
    peak ≤ store.maxRunBytes ∧ Within peak 0 s := by
  cases call with
  | publish reads request =>
    rw [Call.peak] at h
    split at h
    next prepared plan hresult =>
      cases h
      obtain ⟨-, hauthority, -, hadmit⟩ := openPublish_returns hresult
      have hplan := (admitPublish_ok hadmit).2 plan rfl
      refine ⟨hplan.peakBytes, (openAuthority_returns hauthority).2.raise ?_⟩
      have hcovers := plan.peakBytes_covers.1
      have hcurrent : plan.currentBytes = (openAuthority true s).2.2.total := hplan.currentBytes
      omega
    next => simp at h
  | claimOrphan reads request =>
    rw [Call.peak] at h
    split at h
    next additional hresult =>
      cases h
      obtain ⟨hauthority, hstate, hadmit⟩ := openClaim_returns hresult
      rw [hstate]
      exact ⟨((admitClaim_ok hadmit).2 additional rfl).1,
        (openAuthority_returns hauthority).2.raise (Nat.le_add_right _ _)⟩
    next => simp at h

theorem peak_le (peak : Nat) (h : call.peak store s = some peak) : peak ≤ store.maxRunBytes :=
  (peak_within h).1

/-- An admitted call starts within the budget, the authority's byte included. -/
theorem within_of_admitted (h : call.admitted store s) : Within store.maxRunBytes 0 s := by
  cases call with
  | publish reads request =>
    cases hresult : (openPublish store reads request s).2.1 with
    | error e => simp [Call.admitted, hresult, Except.isOk, Except.toBool] at h
    | ok opened =>
      obtain ⟨-, hauthority, -, hadmit⟩ := openPublish_returns hresult
      exact (openAuthority_returns hauthority).2.raise (admitPublish_ok hadmit).1
  | claimOrphan reads request =>
    cases hresult : (openClaim store reads request s).2.1 with
    | error e => simp [Call.admitted, hresult, Except.isOk, Except.toBool] at h
    | ok admission =>
      obtain ⟨hauthority, -, hadmit⟩ := openClaim_returns hresult
      exact (openAuthority_returns hauthority).2.raise (admitClaim_ok hadmit).1

theorem History.within (hs : Within store.maxRunBytes 0 s) (h : History store s calls t) :
    Within store.maxRunBytes 0 t := by
  induction h with
  | nil => exact hs
  | cons hleaves _ ih => exact ih ((meets_run hs peak_le).leaves hleaves)

/-- From the first admitted call on the files of the run are within the budget
after every step, whatever the calls, wherever they are cut off; and the peak a
call is admitted with bounds them at each of its steps. -/
theorem run_bytes_bounded {first : Call} (hadmitted : first.admitted store s)
    (h : History store s (first :: calls) t) :
    runPhysicalBytes t ≤ store.maxRunBytes ∧
      ∀ (call : Call) (peak : Nat), call.peak store t = some peak →
        peak ≤ store.maxRunBytes ∧
          ∀ cut u, Leaves (call.run store) t cut u → runPhysicalBytes u ≤ peak := by
  refine ⟨(h.within (within_of_admitted hadmitted)).le, fun call peak hpeak => ?_⟩
  obtain ⟨hmax, hwithin⟩ := peak_within hpeak
  refine ⟨hmax, fun cut u hleaves => ?_⟩
  have hmeets : Meets (call.run store) t _ _ := meets_run hwithin fun other hother => by
    rw [hpeak, Option.some.injEq] at hother
    exact Nat.le_of_eq hother.symm
  exact (hmeets.leaves hleaves).le

/-- A first publication; its files and the authority's byte are 29 bytes. -/
def firstPublication : Call :=
  .publish
    { admissible := .ok ()
      validateArtifact := fun _ => .ok ()
      validateInventory := fun _ => .ok ()
      payloadBefore := fun a b => a.length ≤ b.length
      transactionSha256 := fun _ => "t"
      transactionBytes := fun _ => List.replicate 5 1
      manifestBytes := fun _ => List.replicate 6 2
      pointerBytes := fun _ => List.replicate 4 3
      verifyOwnership := .ok ()
      ownerAdmissible := .ok ()
      lock := .ok ()
      validateNamespace := fun _ => .ok ()
      readChain := fun _ => .error .runCorrupt
      replayOrphanEffect := fun _ _ => .ok none
      ownerToken := "owner"
      metadataBytes := List.replicate 3 4
      verifyMetadata := fun _ => .ok ()
      bootstrapNamespace := fun _ => .ok ()
      verifyRevision := fun _ => .ok ()
      reconcile := fun _ => .ok () }
    { transactionId := "txn"
      proposedRevision := 1
      expectedRevision := none
      expectedManifestSha256 := none
      expectedPointerSha256 := none
      artifacts := [⟨"input.json", List.replicate 7 5⟩, ⟨"case", List.replicate 3 6⟩] }

theorem firstPublication_bounded :
    firstPublication.peak ⟨10, 29⟩ Files.empty = some 29 ∧
      runPhysicalBytes (firstPublication.run ⟨10, 29⟩ Files.empty).2.2 = 29 ∧
      runPhysicalBytes (firstPublication.run ⟨10, 29⟩ Files.empty).2.2 ≤ 29 :=
  ⟨by decide +kernel, by decide +kernel,
    (run_bytes_bounded (by decide +kernel) (.cons .done .nil)).1⟩

end PokerDeliberation.Revisions
