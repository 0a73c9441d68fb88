import Mathlib.Data.List.Basic

/-!
# UTF-8

The bytes of an ASCII character are its code point; every byte of another
character is outside ASCII. So a text whose bytes are all of an ASCII class
has only characters of that class. A `Text` is the list of its code points, as
the strings of a scripting language are: surrogates may occur in it, and
`encode` refuses them. `decode` is strict, so the two are inverse to each other.
-/

namespace PokerDeliberation.Lib

/-- A text by its code points. -/
abbrev Text := List Nat

instance : LawfulBEq Text := inferInstance

instance lawfulBEq_bytes : LawfulBEq (List UInt8) := inferInstance

/-- The code points of a literal. -/
def text (s : String) : Text := s.toList.map Char.toNat

theorem text_injective : Function.Injective text := by
  intro s t h
  have hchars : Function.Injective Char.toNat := fun c d heq => by
    rw [← Char.ofNat_toNat c, ← Char.ofNat_toNat d, heq]
  exact String.toList_injective (List.map_injective_iff.2 hchars h)

namespace Utf8

variable {c : Char} {s : String}

theorem utf8EncodeChar_ascii (h : c.toNat < 128) :
    String.utf8EncodeChar c = [UInt8.ofNat c.toNat] := by
  have hsize : c.utf8Size = 1 := by
    rw [Char.utf8Size_eq_one_iff, UInt32.le_iff_toNat_le]
    exact Nat.le_of_lt_succ h
  rw [String.utf8EncodeChar_eq_singleton hsize]
  rfl

theorem high_or (x y : UInt8) (h : 128 ≤ y.toNat) : 128 ≤ (x ||| y).toNat := by
  rw [UInt8.toNat_or]
  exact Nat.le_trans h Nat.right_le_or

/-- The bytes of a character outside ASCII are all outside ASCII. -/
theorem utf8EncodeChar_high (h : 128 ≤ c.toNat) : ∀ b ∈ String.utf8EncodeChar c, 128 ≤ b.toNat := by
  have hone : c.utf8Size ≠ 1 := by
    intro hsize
    rw [Char.utf8Size_eq_one_iff, UInt32.le_iff_toNat_le] at hsize
    exact absurd h (Nat.not_le.2 (Nat.lt_succ_of_le hsize))
  have hcases : c.utf8Size = 2 ∨ c.utf8Size = 3 ∨ c.utf8Size = 4 := by
    have hpos := c.utf8Size_pos
    have hle := c.utf8Size_le_four
    omega
  intro b hb
  rcases hcases with hsize | hsize | hsize
  · rw [String.utf8EncodeChar_eq_cons_cons hsize] at hb
    simp only [List.mem_cons, List.not_mem_nil, or_false] at hb
    rcases hb with rfl | rfl <;> exact high_or _ _ (by decide)
  · rw [String.utf8EncodeChar_eq_cons_cons_cons hsize] at hb
    simp only [List.mem_cons, List.not_mem_nil, or_false] at hb
    rcases hb with rfl | rfl | rfl <;> exact high_or _ _ (by decide)
  · rw [String.utf8EncodeChar_eq_cons_cons_cons_cons hsize] at hb
    simp only [List.mem_cons, List.not_mem_nil, or_false] at hb
    rcases hb with rfl | rfl | rfl | rfl <;> exact high_or _ _ (by decide)

theorem bytes_eq (s : String) :
    s.toByteArray.data.toList = s.toList.flatMap String.utf8EncodeChar := by
  rw [← String.utf8Encode_toList, List.utf8Encode, List.toList_data_toByteArray]

/-- A text of ASCII bytes has one character for each. -/
theorem toNat_mem_of_bytes_ascii (h : ∀ b ∈ s.toByteArray.data.toList, b.toNat < 128) {c : Char}
    (hc : c ∈ s.toList) : c.toNat < 128 ∧ UInt8.ofNat c.toNat ∈ s.toByteArray.data.toList := by
  rw [bytes_eq] at h ⊢
  rcases Nat.lt_or_ge c.toNat 128 with hlow | hhigh
  · refine ⟨hlow, List.mem_flatMap.2 ⟨c, hc, ?_⟩⟩
    rw [utf8EncodeChar_ascii hlow]
    exact List.mem_singleton_self _
  · have hne : String.utf8EncodeChar c ≠ [] := String.utf8EncodeChar_ne_nil
    obtain ⟨b, hb⟩ := List.exists_mem_of_ne_nil _ hne
    have hlow := h b (List.mem_flatMap.2 ⟨c, hc, hb⟩)
    exact absurd hlow (Nat.not_lt.2 (utf8EncodeChar_high hhigh b hb))

theorem length_of_bytes_ascii (h : ∀ b ∈ s.toByteArray.data.toList, b.toNat < 128) :
    s.toList.length = s.utf8ByteSize := by
  have hchars := fun c hc => (@toNat_mem_of_bytes_ascii s h c hc).1
  have hbytes : s.utf8ByteSize = (s.toList.flatMap String.utf8EncodeChar).length := by
    rw [← bytes_eq]
    rfl
  rw [hbytes]
  clear h hbytes
  generalize s.toList = chars at hchars ⊢
  induction chars with
  | nil => rfl
  | cons c cs ih =>
    rw [List.flatMap_cons, utf8EncodeChar_ascii (hchars c List.mem_cons_self), List.length_append,
      List.length_cons, ← ih fun d hd => hchars d (List.mem_cons_of_mem _ hd), List.length_singleton]
    omega

/-! ## Texts -/

/-- The scalar value of a code point. -/
def scalar (n : Nat) : Option Char := if h : n.isValidChar then some (Char.ofNatAux n h) else none

/-- `text.encode("utf-8")`. -/
def encode (t : Text) : Option (List UInt8) :=
  (t.mapM scalar).map fun cs => cs.flatMap String.utf8EncodeChar

/-- `data.decode("utf-8", errors="strict")`. -/
def decode (data : List UInt8) : Option Text :=
  data.toByteArray.utf8Decode?.map fun cs => cs.toList.map Char.toNat

variable {t : Text} {data : List UInt8} {cs : List Char} {n : Nat}

theorem scalar_eq_some : scalar n = some c ↔ n = c.toNat := by
  unfold scalar
  constructor
  · intro h
    by_cases hv : n.isValidChar
    · rw [dif_pos hv] at h
      rw [← Option.some.inj h]
      rfl
    · rw [dif_neg hv] at h
      cases h
  · rintro rfl
    have hv : c.toNat.isValidChar := c.valid
    rw [dif_pos hv]
    rfl

theorem mapM_scalar : t.mapM scalar = some cs ↔ t = cs.map Char.toNat := by
  induction t generalizing cs with
  | nil => cases cs <;> simp
  | cons n t ih =>
    rw [List.mapM_cons]
    cases cs with
    | nil => simp [Option.bind_eq_some_iff]
    | cons c cs => simp [Option.bind_eq_some_iff, scalar_eq_some, ih]

theorem encode_eq_some :
    encode t = some data ↔ ∃ cs : List Char, t = cs.map Char.toNat ∧
      data = cs.flatMap String.utf8EncodeChar := by
  unfold encode
  simp only [Option.map_eq_some_iff, mapM_scalar]
  exact exists_congr fun cs => and_congr_right fun _ => eq_comm

theorem utf8Encode_eq (cs : List Char) :
    (cs.flatMap String.utf8EncodeChar).toByteArray = cs.utf8Encode := rfl

/-- What is encoded is decoded, and nothing else. -/
theorem decode_eq_some_iff : decode data = some t ↔ encode t = some data := by
  rw [encode_eq_some]
  unfold decode
  rw [Option.map_eq_some_iff]
  constructor
  · rintro ⟨cs, hdecode, rfl⟩
    refine ⟨cs.toList, rfl, ?_⟩
    have hsome : data.toByteArray.utf8Decode?.isSome := by rw [hdecode]; rfl
    have hencode := @ByteArray.utf8Encode_get_utf8Decode? data.toByteArray hsome
    have hget : data.toByteArray.utf8Decode?.get hsome = cs := by simp [hdecode]
    rw [hget, ← utf8Encode_eq] at hencode
    have hlist := congrArg (fun b : ByteArray => b.data.toList) hencode
    simpa using hlist.symm
  · rintro ⟨cs, rfl, rfl⟩
    exact ⟨cs.toArray, by rw [utf8Encode_eq, List.utf8Decode?_utf8Encode], by simp⟩

theorem encode_append {u : Text} {front back : List UInt8} (ht : encode t = some front)
    (hu : encode u = some back) : encode (t ++ u) = some (front ++ back) := by
  obtain ⟨cs, rfl, rfl⟩ := encode_eq_some.1 ht
  obtain ⟨ds, rfl, rfl⟩ := encode_eq_some.1 hu
  exact encode_eq_some.2 ⟨cs ++ ds, by simp⟩

theorem encode_isSome : (encode t).isSome = true ↔ ∀ n ∈ t, (scalar n).isSome = true := by
  rw [encode, Option.isSome_map]
  induction t with
  | nil => simp
  | cons n t ih =>
    rw [List.mapM_cons, List.forall_mem_cons, ← ih]
    cases scalar n <;> cases t.mapM scalar <;> simp

theorem scalar_ascii (h : n < 128) : (scalar n).isSome = true := by
  have hvalid : n.isValidChar := .inl (by omega)
  rw [scalar, dif_pos hvalid]
  rfl

/-- An ASCII text is encoded character by character. -/
theorem encode_ascii (h : ∀ n ∈ t, n < 128) : encode t = some (t.map UInt8.ofNat) := by
  obtain ⟨data, hdata⟩ := Option.isSome_iff_exists.1
    (encode_isSome.2 fun n hn => scalar_ascii (h n hn))
  obtain ⟨cs, rfl, rfl⟩ := encode_eq_some.1 hdata
  rw [hdata, Option.some.injEq, List.map_map, List.map_eq_flatMap]
  refine List.flatMap_congr fun c hc => ?_
  exact utf8EncodeChar_ascii (h _ (List.mem_map_of_mem hc))

/-- An ASCII byte stands for an ASCII character of the text. -/
theorem mem_of_mem_encode (h : encode t = some data) {b : UInt8} (hb : b ∈ data)
    (hascii : b.toNat < 128) : b.toNat ∈ t := by
  obtain ⟨cs, rfl, rfl⟩ := encode_eq_some.1 h
  obtain ⟨c, hc, hbc⟩ := List.mem_flatMap.1 hb
  rcases Nat.lt_or_ge c.toNat 128 with hlow | hhigh
  · rw [utf8EncodeChar_ascii hlow, List.mem_singleton] at hbc
    subst hbc
    have hmod : (UInt8.ofNat c.toNat).toNat = c.toNat := by
      rw [UInt8.toNat_ofNat']
      exact Nat.mod_eq_of_lt (by omega)
    rw [hmod]
    exact List.mem_map_of_mem hc
  · exact absurd hascii (Nat.not_lt.2 (utf8EncodeChar_high hhigh b hbc))

/-- A text that starts with an ASCII character starts with its byte. -/
theorem encode_cons_ascii (hn : n < 128) (h : encode (n :: t) = some data) :
    ∃ rest, data = UInt8.ofNat n :: rest ∧ encode t = some rest := by
  obtain ⟨cs, hcs, rfl⟩ := encode_eq_some.1 h
  cases cs with
  | nil => cases hcs
  | cons c cs =>
    rw [List.map_cons, List.cons.injEq] at hcs
    obtain ⟨rfl, rfl⟩ := hcs
    refine ⟨cs.flatMap String.utf8EncodeChar, ?_, encode_eq_some.2 ⟨cs, rfl, rfl⟩⟩
    rw [List.flatMap_cons, utf8EncodeChar_ascii hn]
    rfl

end Utf8

end PokerDeliberation.Lib
