import PokerDeliberation.Contexts.Lifecycle

/-!
# What the integrity hash covers

Two envelopes whose integrity payloads are written alike are equal in every
field but the hash itself. So an envelope is told apart from every other one
that passes verification, as far as the hash does not collide.
-/

namespace PokerDeliberation.Contexts

open Lib Lib.Json Lib.Records

variable {F : Type} {out : Outside F} {v w : Value F} {t h : Text} {e e' : ContextEnvelope}

/-! ## Canonical texts -/

theorem canonicalJson_eq_ok : canonicalJson out v = .ok t ↔
    v.depth ≤ out.recursionLimit ∧ dumps out.floats.toNumbers v = some t := by
  unfold canonicalJson
  rw [require_bind_eq_ok]
  refine and_congr_right fun _ => ?_
  cases dumps out.floats.toNumbers v <;> simp

/-- A canonical text is the one of no other value. -/
theorem sorted_of_canonicalJson (hv : canonicalJson out v = .ok t)
    (hw : canonicalJson out w = .ok t) : v.sorted = w.sorted := by
  obtain ⟨hdepth, hv⟩ := canonicalJson_eq_ok.1 hv
  obtain ⟨hdepth', hw⟩ := canonicalJson_eq_ok.1 hw
  have hread : loads out.floats.toNumbers (fun _ => none) (fun _ => true) out.recursionLimit t =
      .ok v.sorted := loads_dumps hv hdepth fun _ _ => rfl
  rw [loads_dumps hw hdepth' fun _ _ => rfl] at hread
  exact (Except.ok.inj hread).symm

theorem sha256Text_eq_ok :
    sha256Text out t = .ok h ↔ ∃ data, Utf8.encode t = some data ∧ out.sha256 data = h := by
  unfold sha256Text
  cases Utf8.encode t <;> simp

/-- The bytes that are hashed for a value. -/
def Covers (out : Outside F) (v : Value F) (data : List UInt8) : Prop :=
  ∃ t, canonicalJson out v = .ok t ∧ Utf8.encode t = some data

theorem hashed_eq_ok : hashed out v = .ok h ↔ ∃ data, Covers out v data ∧ out.sha256 data = h := by
  simp only [hashed, bind_eq_ok, sha256Text_eq_ok, Covers]
  constructor
  · rintro ⟨t, ht, data, hdata, hsha⟩
    exact ⟨data, ⟨t, ht, hdata⟩, hsha⟩
  · rintro ⟨data, ⟨t, ht, hdata⟩, hsha⟩
    exact ⟨t, ht, data, hdata, hsha⟩

/-- The hash does not tell two values apart whose bytes differ. -/
def Collide (out : Outside F) (v w : Value F) : Prop :=
  ∃ a b, Covers out v a ∧ Covers out w b ∧ a ≠ b ∧ out.sha256 a = out.sha256 b

theorem Covers.sorted {data : List UInt8} (hv : Covers out v data) (hw : Covers out w data) :
    v.sorted = w.sorted := by
  obtain ⟨t, ht, hdata⟩ := hv
  obtain ⟨u, hu, hdata'⟩ := hw
  have htext : some t = some u := by
    rw [← Utf8.decode_eq_some_iff.2 hdata, ← Utf8.decode_eq_some_iff.2 hdata']
  rw [← Option.some.inj htext] at hu
  exact sorted_of_canonicalJson ht hu

/-- Values with one hash are the same, unless it collides. -/
theorem sorted_of_hashed (hv : hashed out v = .ok h) (hw : hashed out w = .ok h)
    (hfree : ¬ Collide out v w) : v.sorted = w.sorted := by
  obtain ⟨a, ha, hsha⟩ := hashed_eq_ok.1 hv
  obtain ⟨b, hb, hsha'⟩ := hashed_eq_ok.1 hw
  by_cases hab : a = b
  · subst hab
    exact ha.sorted hb
  · exact absurd ⟨a, b, ha, hb, hab, hsha.trans hsha'.symm⟩ hfree

/-! ## Payloads by their fields -/

theorem textList_sorted {names names' : List Text}
    (h : (textList names : Value F).sorted = (textList names').sorted) : names = names' := by
  simp only [textList, Value.sorted, Value.sortedAll_eq, List.map_map, Value.arr.injEq] at h
  exact List.map_injective_iff.2 (fun a b hab => Value.str.inj hab) h

theorem optionalStr_sorted {a b : Option Text}
    (h : (optionalStr a : Value F).sorted = (optionalStr b).sorted) : a = b := by
  cases a <;> cases b <;> simp_all [optionalStr, Value.sorted]

theorem classificationText_injective : Function.Injective classificationText := by
  intro a b h
  cases a <;> cases b <;> first | rfl | exact absurd h (by decide)

/-- Datetimes in UTC are told apart in a payload. -/
theorem serializeDatetime_injective {a b : Moment} (ha : a.IsUtc) (hb : b.IsUtc)
    (h : out.serializeDatetime a = out.serializeDatetime b) : a = b := by
  rw [out.serializeDatetime_utc ha, out.serializeDatetime_utc hb] at h
  exact Moment.isoText_injective ha hb h

theorem str_sorted {a b : Text} (h : (Value.str a : Value F).sorted = (Value.str b).sorted) :
    a = b := Value.str.inj h

theorem policy_payload_injective {p q : ContextPolicy} (hp : p.expiresAt.IsUtc)
    (hq : q.expiresAt.IsUtc) (h : (p.payload out).sorted = (q.payload out).sorted) : p = q := by
  rw [ContextPolicy.payload, ContextPolicy.payload] at h
  have hfield := Value.lookup_of_same (by simp only [List.map_cons, List.map_nil]; decide)
    (by simp only [List.map_cons, List.map_nil]; decide) h
  have hschema := str_sorted (Option.some.inj (hfield (text "schema_version")))
  have hclass := classificationText_injective
    (str_sorted (Option.some.inj (hfield (text "classification"))))
  have hretention := str_sorted (Option.some.inj (hfield (text "retention_policy_id")))
  have hexpires := serializeDatetime_injective hp hq
    (str_sorted (Option.some.inj (hfield (text "expires_at"))))
  have hallowed := textList_sorted (Option.some.inj (hfield (text "allowed_fields")))
  cases p
  cases q
  simp_all

theorem lineage_payload_injective {l m : ContextLineage}
    (h : (l.payload : Value F).sorted = m.payload.sorted) : l = m := by
  rw [ContextLineage.payload, ContextLineage.payload] at h
  have hfield := Value.lookup_of_same (by simp only [List.map_cons, List.map_nil]; decide)
    (by simp only [List.map_cons, List.map_nil]; decide) h
  have hcontext := str_sorted (Option.some.inj (hfield (text "context_id")))
  have hrun := str_sorted (Option.some.inj (hfield (text "run_id")))
  have hassignment := str_sorted (Option.some.inj (hfield (text "assignment_id")))
  have hhash := str_sorted (Option.some.inj (hfield (text "assignment_sha256")))
  have hattempt := str_sorted (Option.some.inj (hfield (text "attempt_id")))
  have hparent := optionalStr_sorted (Option.some.inj (hfield (text "parent_context_id")))
  have hsource := str_sorted (Option.some.inj (hfield (text "source_sha256")))
  obtain ⟨_, _, _, _, _, _, _, ⟨⟩, ⟨⟩⟩ := l
  obtain ⟨_, _, _, _, _, _, _, ⟨⟩, ⟨⟩⟩ := m
  simp_all

/-- What the integrity hash covers: every field but itself. -/
theorem integrityPayload_eq (e : ContextEnvelope) :
    integrityPayload (e.payload out) = .obj
      [(text "schema_version", .str e.schemaVersion),
        (text "canonicalization_version", .str e.canonicalizationVersion),
        (text "hash_algorithm", .str e.hashAlgorithm),
        (text "created_at", .str (out.serializeDatetime e.createdAt)),
        (text "policy", e.policy.payload out),
        (text "lineage", e.lineage.payload),
        (text "canonical_payload", .str e.canonicalPayload),
        (text "payload_sha256", .str e.payloadSha256),
        (text "policy_sha256", .str e.policySha256)] := rfl

/-- Envelopes whose integrity payloads are the same differ in their hash at most. -/
theorem integrityPayload_injective (he : e.createdAt.IsUtc) (he' : e'.createdAt.IsUtc)
    (hp : e.policy.expiresAt.IsUtc) (hp' : e'.policy.expiresAt.IsUtc)
    (h : (integrityPayload (e.payload out)).sorted = (integrityPayload (e'.payload out)).sorted) :
    e' = { e with integritySha256 := e'.integritySha256 } := by
  rw [integrityPayload_eq, integrityPayload_eq] at h
  have hfield := Value.lookup_of_same (by simp only [List.map_cons, List.map_nil]; decide)
    (by simp only [List.map_cons, List.map_nil]; decide) h
  have hschema := str_sorted (Option.some.inj (hfield (text "schema_version")))
  have hcanonical := str_sorted (Option.some.inj (hfield (text "canonicalization_version")))
  have halgorithm := str_sorted (Option.some.inj (hfield (text "hash_algorithm")))
  have hcreated := serializeDatetime_injective he he'
    (str_sorted (Option.some.inj (hfield (text "created_at"))))
  have hpolicy := policy_payload_injective hp hp' (Option.some.inj (hfield (text "policy")))
  have hlineage := lineage_payload_injective (F := F) (Option.some.inj (hfield (text "lineage")))
  have hpayload := str_sorted (Option.some.inj (hfield (text "canonical_payload")))
  have hhash := str_sorted (Option.some.inj (hfield (text "payload_sha256")))
  have hpolicyHash := str_sorted (Option.some.inj (hfield (text "policy_sha256")))
  cases e
  cases e'
  simp_all

end PokerDeliberation.Contexts
