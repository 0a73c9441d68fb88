import PokerDeliberation.Contexts.Handoff

/-!
# Chains of retries

An envelope and the retries built from it, each from the one before. What holds
of every member is carried along the chain: it was built for some context, and
its assignment, its source and its classification go back to the first one's.
-/

namespace PokerDeliberation.Contexts

open Lib Lib.Json Lib.Records
open LocalData (ContextClassification)

variable {F : Type}

/-- `e`, for its context and assignment, ends a chain of retries that starts with `first`. -/
inductive Chain (out : Outside F) (first : ContextEnvelope) :
    AgentContext out → AgentAssignment → ContextEnvelope → Prop where
  | initial {context assignment a classification}
      (built : buildContextEnvelope out context assignment a classification = .ok first) :
      Chain out first context assignment first
  | retry {context assignment parent context' assignment' a e}
      (chain : Chain out first context assignment parent)
      (built : buildRetryContextEnvelope out parent context' assignment' a = .ok e) :
      Chain out first context' assignment' e

/-- What goes back to the first envelope of a chain. -/
structure Continues (first e : ContextEnvelope) : Prop where
  runId : e.lineage.runId = first.lineage.runId
  assignmentId : e.lineage.assignmentId = first.lineage.assignmentId
  assignmentSha256 : e.lineage.assignmentSha256 = first.lineage.assignmentSha256
  sourceSha256 : e.lineage.sourceSha256 = first.lineage.sourceSha256
  classification : first.policy.classification.rank ≤ e.policy.classification.rank

/-- The ids of a retry are fresh, and it names its parent. -/
structure Succeeds (parent e : ContextEnvelope) : Prop where
  contextId : e.lineage.contextId ≠ parent.lineage.contextId
  attemptId : e.lineage.attemptId ≠ parent.lineage.attemptId
  parentContextId : e.lineage.parentContextId = some parent.lineage.contextId

variable {out : Outside F} {first parent e : ContextEnvelope} {context : AgentContext out}
  {assignment : AgentAssignment} {a : BuildArguments} {classification : ContextClassification}
  {payload : Value F}

/-- A hash is not empty, so it is never replaced. -/
theorem orElse_sha256 {s : Text} (h : isSha256Text s = true) (fallback : Text) :
    orElse (some s) fallback = s := by
  cases s with
  | nil => cases h
  | cons c t => rfl

theorem le_classifyContextPayload :
    classification.rank ≤ (classifyContextPayload out payload classification).rank := by
  unfold classifyContextPayload
  split
  · cases classification <;> decide
  · exact Nat.le_refl _

/-- One retry: it was built, continues its parent and succeeds it. -/
theorem retry_step (h : buildRetryContextEnvelope out parent context assignment a = .ok e) :
    Built out context assignment a parent.policy.classification (some parent.lineage.contextId)
        (some parent.lineage.sourceSha256) e ∧ Continues parent e ∧ Succeeds parent e := by
  simp only [buildRetryContextEnvelope, requireUtc, bind_eq_ok, require_eq_ok, mapError_eq_ok,
    pure_eq_ok] at h
  obtain ⟨⟨⟩, hcheck, ⟨⟩, hrun, ⟨⟩, hassignment, hash, hhash, ⟨⟩, hparent, ⟨⟩, -, _, -, retry, hretry,
    ⟨⟩, hcontext, ⟨⟩, hattempt, rfl⟩ := h
  have hb := buildEnvelope_built hretry
  have hsource := (ContextEnvelope.check_eq_ok hcheck).2.2.2
  have hsame := hb.assignmentHash
  rw [hhash] at hsame
  refine ⟨hb, ⟨?_, ?_, ?_, ?_, ?_⟩, ⟨hcontext, hattempt, hb.parent⟩⟩
  · rw [hb.runId, hrun]
  · rw [hb.assignmentId, hassignment]
  · rw [hparent, ← Except.ok.inj hsame]
  · rw [hb.source, orElse_sha256 hsource]
  · rw [hb.classification]
    exact le_classifyContextPayload

theorem Continues.trans {e' : ContextEnvelope} (h : Continues first e) (h' : Continues e e') :
    Continues first e' :=
  ⟨h'.runId.trans h.runId, h'.assignmentId.trans h.assignmentId,
    h'.assignmentSha256.trans h.assignmentSha256, h'.sourceSha256.trans h.sourceSha256,
    h.classification.trans h'.classification⟩

/-- Every member of a chain was built, and continues its first envelope. -/
theorem Chain.built (h : Chain out first context assignment e) :
    (∃ a classification parentContextId source,
      Built out context assignment a classification parentContextId source e ∧
        (parentContextId = none → source = none)) ∧ Continues first e := by
  induction h with
  | initial built =>
    exact ⟨⟨_, _, none, none, buildEnvelope_built built, fun _ => rfl⟩, rfl, rfl, rfl, rfl,
      Nat.le_refl _⟩
  | retry chain built ih =>
    obtain ⟨hb, hcontinues, -⟩ := retry_step built
    exact ⟨⟨_, _, _, _, hb, fun hnone => by cases hnone⟩, ih.2.trans hcontinues⟩

/-! ## What a chain promises -/

/-- With its own identifiers and at any time between its creation and its expiry, the envelope is
valid and gives back a context of the same payload. -/
def HandedOver (out : Outside F) (context : AgentContext out) (assignment : AgentAssignment)
    (e : ContextEnvelope) : Prop :=
  ∀ now : Moment, now.IsUtc → ¬ now.Before e.createdAt → now.Before e.policy.expiresAt →
    ∃ w, validateContextEnvelope out e assignment (e.own now) = .ok w ∧
      ((agentContext out.floats).dump w).Same (contextPayload out context)

/-- Whatever the envelope is expected to be, it is not valid once its integrity hash alone, or
anything else, is changed, unless the hash of what it covers collides. -/
def TamperEvident (out : Outside F) (e : ContextEnvelope) : Prop :=
  ∀ e' : ContextEnvelope, e' ≠ e →
    e'.integritySha256 = e.integritySha256 ∨
        e' = { e with integritySha256 := e'.integritySha256 } →
      ¬ Collide out (integrityPayload (e.payload out)) (integrityPayload (e'.payload out)) →
        ∀ assignment x w, validateContextEnvelope out e' assignment x ≠ .ok w

/-- No context with a secret in its payload is ever returned. -/
def KeepsSecrets (out : Outside F) (e : ContextEnvelope) : Prop :=
  ∀ assignment x w, validateContextEnvelope out e assignment x = .ok w →
    containsRestrictedSecret out.isWord ((agentContext out.floats).dump w) = false

/-- What is promised of a member of a chain. -/
structure Promised (out : Outside F) (first : ContextEnvelope) (context : AgentContext out)
    (assignment : AgentAssignment) (e : ContextEnvelope) : Prop where
  handed : e.policy.classification ≠ .restricted → HandedOver out context assignment e
  evident : TamperEvident out e
  continues : Continues first e
  succeeds : ∀ context' assignment' a e',
    buildRetryContextEnvelope out e context' assignment' a = .ok e' → Succeeds e e'
  secrets : KeepsSecrets out e

theorem Chain.tamperEvident (h : Chain out first context assignment e) : TamperEvident out e := by
  obtain ⟨⟨_, _, _, _, hb, -⟩, -⟩ := h.built
  intro e' hne hchange hfree other x w hvalid
  obtain ⟨-, hcheck, -, hverify, -⟩ := validate_eq_ok.1 hvalid
  obtain ⟨hcreated, hexpires, -⟩ := ContextEnvelope.check_eq_ok hb.check
  obtain ⟨hcreated', hexpires', -⟩ := ContextEnvelope.check_eq_ok hcheck
  have hintegrity : integritySha256 out (e'.payload out) = .ok e'.integritySha256 := by
    simp only [ContextEnvelope.verify, bind_eq_ok, require_eq_ok] at hverify
    obtain ⟨_, -, ⟨⟩, -, _, -, ⟨⟩, -, _, hhash, rfl⟩ := hverify
    exact hhash
  refine hne ?_
  rcases hchange with hsame | halone
  · rw [hsame] at hintegrity
    have hsorted := sorted_of_hashed hb.integrity hintegrity hfree
    rw [integrityPayload_injective hcreated hcreated' hexpires hexpires' hsorted, hsame]
  · -- the hash covers what it covered before, so it is what it was
    have hpayload : integritySha256 out (e'.payload out) = integritySha256 out (e.payload out) := by
      rw [halone]
      rfl
    rw [hpayload, hb.integrity] at hintegrity
    rw [halone, ← Except.ok.inj hintegrity]

theorem Chain.handedOver_iff (h : Chain out first context assignment e)
    (hclass : e.policy.classification ≠ .restricted) :
    HandedOver out context assignment e ↔
      ∀ u ∈ (agentContext out.floats).urls context.value, urlFits u = true := by
  obtain ⟨⟨_, _, _, _, hb, hsource⟩, -⟩ := h.built
  obtain ⟨hcreated, -, hbefore, -⟩ := ContextEnvelope.check_eq_ok hb.check
  have hpayload := validate_payload (agentContext_wellFormed out.floats) context.valid
  constructor
  · intro hhanded
    obtain ⟨w, hw, hsame⟩ := hhanded e.createdAt hcreated (lt_irrefl _) hbefore
    exact hpayload.1 ⟨w, (hb.of_validate hw).1, hsame⟩
  · intro hfits now hnow hfrom huntil
    obtain ⟨w, hw, hsame⟩ := hpayload.2 hfits
    exact ⟨w, hb.validate_own hsource hclass hnow hfrom huntil hw, hsame⟩

/-- What is promised of a chain holds of it exactly if its context crosses no boundary anyway, or
no address in its payload is too long to be read back. -/
theorem promised_iff (h : Chain out first context assignment e) :
    Promised out first context assignment e ↔
      e.policy.classification = .restricted ∨
        ∀ u ∈ (agentContext out.floats).urls context.value, urlFits u = true := by
  constructor
  · intro hpromised
    by_cases hclass : e.policy.classification = .restricted
    · exact .inl hclass
    · exact .inr ((h.handedOver_iff hclass).1 (hpromised.handed hclass))
  · intro hfits
    obtain ⟨⟨_, _, _, _, hb, -⟩, hcontinues⟩ := h.built
    exact
      { handed := fun hclass => (h.handedOver_iff hclass).2 (hfits.resolve_left hclass)
        evident := h.tamperEvident
        continues := hcontinues
        succeeds := fun _ _ _ _ hretry => (retry_step hretry).2.2
        secrets := fun _ _ _ hvalid => (hb.payload_of_validate hvalid).2 }

/-! ## A sample

The outside world as far as two small contexts use it: no floating-point numbers, the addresses of
one scheme with their characters percent-encoded, and a stand-in for the hash. -/

def percentEncoded (s : Text) : Text := s.flatMap fun c =>
  if c < 0x80 then [c]
  else ((Utf8.encode [c]).getD []).flatMap fun b =>
    [0x25, upperHex (b.toNat / 16), upperHex (b.toNat % 16)]
where
  upperHex (n : Nat) : Nat := if n < 10 then 0x30 + n else 0x37 + n

def https (s : Text) : Option Text := if text "https://" <+: s then some (percentEncoded s) else none

theorem percentEncoded_ascii {s : Text} (h : ∀ c ∈ s, c < 0x80) : percentEncoded s = s := by
  induction s with
  | nil => rfl
  | cons c s ih =>
    rw [List.forall_mem_cons] at h
    have hs := ih h.2
    simp only [percentEncoded, List.flatMap_cons, if_pos h.1] at hs ⊢
    rw [hs]
    rfl

theorem ascii_percentEncoded (s : Text) : ∀ c ∈ percentEncoded s, c < 0x80 := by
  intro c hc
  obtain ⟨d, -, hd⟩ := List.mem_flatMap.1 hc
  split at hd
  · rwa [List.mem_singleton.1 hd]
  · obtain ⟨b, -, hb⟩ := List.mem_flatMap.1 hd
    have hbyte := b.toNat_lt
    simp only [percentEncoded.upperHex, List.mem_cons, List.not_mem_nil, or_false] at hb
    rcases hb with rfl | rfl | rfl
    · decide
    all_goals split <;> omega

theorem https_normal {s u : Text} (h : https s = some u) : https u = some u := by
  unfold https at h
  split at h
  · rename_i hprefix
    obtain ⟨rest, rfl⟩ := hprefix
    have hu := Option.some.inj h
    have happend : percentEncoded (text "https://" ++ rest) =
        text "https://" ++ percentEncoded rest := by
      rw [percentEncoded, List.flatMap_append]
      rfl
    rw [https, percentEncoded_ascii (hu ▸ ascii_percentEncoded _), if_pos]
    rw [← hu, happend]
    exact List.prefix_append _ _
  · cases h

def sampleOutside : Outside Unit where
  floats :=
    { withoutFloats with
      constant := fun _ => ()
      zero := ()
      isZero := fun _ => true
      lt := fun _ _ => false
      isZero_zero := rfl }
  lib :=
    { lax := fun kind v => if kind.holds v then some v else none
      lax_self := fun h => if_pos h
      normalizeUrl := https
      normalizeUrl_normal := https_normal
      draw := fun kind => kind ++ text "-0123456789ab" }
  isWord := fun c => isAlnumCode c || c == 0x5f
  sha256 := fun data => zeroPadded 64 data.length
  serializeDatetime := Moment.isoText
  serializeDatetime_utc := fun _ => rfl
  recursionLimit := 1000

def sampleMoment (hour : Nat) (h : hour < 24 := by decide) : Moment :=
  { year := 2026, month := 7, day := 1, hour, minute := 0, second := 0, microsecond := 0
    offset := some 0
    inRange := by omega }

def sampleEvidence (url : Text) : Value Unit := .obj
  [(text "evidence_id", .str (text "evidence-1")),
    (text "source_title", .str (text "t")),
    (text "organization_or_author", .str (text "o")),
    (text "source_type", .str (text "paper")),
    (text "url", .str url),
    (text "identifier", .null),
    (text "publication_date", .null),
    (text "accessed_date", .str (text "2026-07-01")),
    (text "supported_claim_ids", .arr []),
    (text "summary", .str (text "s")),
    (text "source_tier", .int 1),
    (text "limitations", .arr [])]

def sampleContext (evidence : List (Value Unit)) : Value Unit := .obj
  [(text "kind", .str (text "claim")),
    (text "objective", .str (text "o")),
    (text "raw_text", .null),
    (text "strategy_text", .null),
    (text "hand", .null),
    (text "claims", .arr []),
    (text "assumptions", .arr []),
    (text "evidence", .arr evidence),
    (text "requested_tools", .arr []),
    (text "tool_inputs", .obj []),
    (text "blind_decision_context", .null)]

/-- An address of 704 bytes, with a normal form of 2088. -/
def longUrl : Text := text "https://e.x/" ++ List.replicate 346 0x440

theorem sampleEvidence_valid :
    evidenceRecord.HasType sampleOutside.lib (sampleEvidence (percentEncoded longUrl)) := by
  have hurl : (Ty.optional .url).HasType sampleOutside.lib (.str (percentEncoded longUrl)) :=
    .inr ⟨longUrl, _, by decide +kernel, by decide +kernel, rfl⟩
  have hempty : strings.HasType sampleOutside.lib (.arr []) := ⟨[], rfl, rfl, by simp⟩
  exact ⟨_, rfl, ⟨_, _, rfl, ⟨rfl, rfl⟩, _, _, rfl, ⟨rfl, rfl⟩, _, _, rfl, ⟨rfl, rfl⟩, _, _, rfl,
    ⟨_, by decide, rfl⟩, _, _, rfl, hurl, _, _, rfl, .inl rfl, _, _, rfl, .inl rfl, _, _, rfl,
    ⟨rfl, rfl⟩, _, _, rfl, hempty, _, _, rfl, ⟨rfl, rfl⟩, _, _, rfl, ⟨rfl, rfl⟩, _, _, rfl, hempty,
    rfl⟩, by decide +kernel⟩

theorem sampleContext_valid {evidence : List (Value Unit)}
    (h : ∀ x ∈ evidence, evidenceRecord.HasType sampleOutside.lib x) :
    (agentContext sampleOutside.floats).HasType sampleOutside.lib (sampleContext evidence) := by
  have hempty : ∀ type : Ty Unit, (listOf type).HasType sampleOutside.lib (.arr []) :=
    fun _ => ⟨[], rfl, rfl, by simp⟩
  have hdict : dict.HasType sampleOutside.lib (.obj []) :=
    ⟨rfl, Value.distinct_obj List.nodup_nil (by simp)⟩
  exact ⟨_, rfl, ⟨_, _, rfl, ⟨_, by decide, rfl⟩, _, _, rfl, ⟨rfl, rfl⟩, _, _, rfl, .inl rfl, _, _,
    rfl, .inl rfl, _, _, rfl, .inl rfl, _, _, rfl, hempty _, _, _, rfl, hempty _, _, _, rfl,
    ⟨evidence, rfl, rfl, h⟩, _, _, rfl, hempty _, _, _, rfl, hdict, _, _, rfl, .inl rfl, rfl⟩, rfl⟩

def shortContext : AgentContext sampleOutside :=
  { value := sampleContext []
    valid := sampleContext_valid (by simp) }

def longContext : AgentContext sampleOutside :=
  { value := sampleContext [sampleEvidence (percentEncoded longUrl)]
    valid := sampleContext_valid (by simp [sampleEvidence_valid]) }

def sampleAssignment (keys : List String) : AgentAssignment :=
  { assignmentId := text "assignment-1"
    agentRole := text "critic"
    task := text "t"
    contextKeys := keys.map text
    readOnly := true }

def sampleArguments (name : String) : BuildArguments :=
  { runId := text "run-1"
    expiresAt := sampleMoment 2
    now := sampleMoment 1
    contextId := none
    attemptId := none
    newContextId := text "context-" ++ text name
    newAttemptId := text "attempt-" ++ text name }

theorem exists_of_any {ε α : Type} {x : Except ε α} {p : α → Bool}
    (h : x.toOption.any p = true) : ∃ a, x = .ok a ∧ p a = true := by
  cases x with
  | error => cases h
  | ok a => exact ⟨a, rfl, h⟩

/-- The promise is kept by a retry without addresses. -/
theorem promised_of_retry : ∃ first e, Chain sampleOutside first shortContext
    (sampleAssignment ["kind", "objective"]) e ∧ first ≠ e ∧
      Promised sampleOutside first shortContext (sampleAssignment ["kind", "objective"]) e := by
  let built (name : String) := buildContextEnvelope sampleOutside shortContext
    (sampleAssignment ["kind", "objective"]) (sampleArguments name) .internal
  obtain ⟨first, hfirst, hretry⟩ := exists_of_any (x := built "1") (p := fun first =>
    (buildRetryContextEnvelope sampleOutside first shortContext
      (sampleAssignment ["kind", "objective"]) (sampleArguments "2")).toOption.any fun e =>
        first ≠ e) (by decide +kernel)
  obtain ⟨e, he, hne⟩ := exists_of_any hretry
  have hchain := Chain.retry (.initial hfirst) he
  exact ⟨first, e, hchain, by simpa using hne, (promised_iff hchain).2 (.inr (by decide +kernel))⟩

/-- An address that is short as it is given and too long in its normal form: what is built of it is
never valid. -/
theorem not_handedOver : ¬ ∀ (F : Type) (out : Outside F) (first : ContextEnvelope)
    (context : AgentContext out) (assignment : AgentAssignment) (e : ContextEnvelope),
    Chain out first context assignment e → e.policy.classification ≠ .restricted →
      HandedOver out context assignment e := by
  intro hall
  obtain ⟨e, he, hclass⟩ := exists_of_any
    (x := buildContextEnvelope sampleOutside longContext
      (sampleAssignment ["evidence", "kind", "objective"]) (sampleArguments "1") .internal)
    (p := fun e => e.policy.classification ≠ .restricted) (by decide +kernel)
  have hchain := Chain.initial he
  have hclass' : e.policy.classification ≠ .restricted := by simpa using hclass
  have hhanded := hall Unit sampleOutside e longContext _ e hchain hclass'
  have hfits := (hchain.handedOver_iff hclass').1 hhanded (percentEncoded longUrl)
    (by decide +kernel)
  exact absurd hfits (by decide +kernel)

end PokerDeliberation.Contexts
