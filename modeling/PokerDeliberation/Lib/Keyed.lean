import Mathlib.Data.List.Nodup
import Mathlib.Data.Finset.Image
import Mathlib.Algebra.BigOperators.Group.List.Basic
import Mathlib.Algebra.GroupWithZero.Nat

/-!
# Records with an identity

A tuple of records, each carrying its identity in one field. `find` is the
first record with an identity, `dict` the one a dictionary comprehension over
the tuple keeps (the last). While identities are distinct the two agree and
name the only record. The three edits a log of such records goes through are
appending a fresh one, `update` of the one with an identity, and `remove`.
-/

namespace PokerDeliberation.Lib.Keyed

variable {α κ : Type} [DecidableEq κ] {key : α → κ} {xs : List α} {k : κ} {x y : α}

def find (key : α → κ) (k : κ) (xs : List α) : Option α := xs.find? fun x => key x = k

def dict (key : α → κ) (xs : List α) (k : κ) : Option α := find key k xs.reverse

/-- The set of identities. -/
def keys (key : α → κ) (xs : List α) : Finset κ := (xs.map key).toFinset

def update (key : α → κ) (k : κ) (f : α → α) (xs : List α) : List α :=
  xs.map fun x => if key x = k then f x else x

def remove (key : α → κ) (k : κ) (xs : List α) : List α := xs.filter fun x => key x ≠ k

/-- No identity occurs twice. -/
def Distinct (key : α → κ) (xs : List α) : Prop := (xs.map key).Nodup

theorem find_mem (h : find key k xs = some x) : x ∈ xs ∧ key x = k :=
  ⟨List.mem_of_find?_eq_some h, by simpa using List.find?_some h⟩

theorem find_eq_none : find key k xs = none ↔ ∀ x ∈ xs, key x ≠ k := by
  simp [find, List.find?_eq_none]

omit [DecidableEq κ] in
theorem Distinct.eq (hd : Distinct key xs) (hx : x ∈ xs) (hy : y ∈ xs) (h : key x = key y) :
    x = y :=
  List.inj_on_of_nodup_map hd hx hy h

theorem find_eq_some_iff (hd : Distinct key xs) : find key k xs = some x ↔ x ∈ xs ∧ key x = k := by
  refine ⟨find_mem, fun ⟨hx, hk⟩ => ?_⟩
  cases h : find key k xs with
  | none => exact absurd hk (find_eq_none.1 h x hx)
  | some y =>
    obtain ⟨hy, hyk⟩ := find_mem h
    rw [hd.eq hy hx (hyk.trans hk.symm)]

theorem dict_eq_some_iff (hd : Distinct key xs) : dict key xs k = some x ↔ x ∈ xs ∧ key x = k := by
  unfold dict
  rw [find_eq_some_iff, List.mem_reverse]
  simpa [Distinct, List.nodup_reverse] using hd

theorem dict_self (hd : Distinct key xs) (hx : x ∈ xs) : dict key xs (key x) = some x :=
  (dict_eq_some_iff hd).2 ⟨hx, rfl⟩

theorem mem_keys : k ∈ keys key xs ↔ ∃ x ∈ xs, key x = k := by
  simp [keys]

theorem keys_sdiff_append {ys : List α} : keys key xs \ keys key (xs ++ ys) = ∅ := by
  refine Finset.sdiff_eq_empty_iff_subset.2 fun j hj => ?_
  obtain ⟨x, hx, hk⟩ := mem_keys.1 hj
  exact mem_keys.2 ⟨x, List.mem_append_left _ hx, hk⟩

theorem keys_append_sdiff (h : key y ∉ keys key xs) :
    keys key (xs ++ [y]) \ keys key xs = {key y} := by
  ext j
  rw [Finset.mem_sdiff, Finset.mem_singleton]
  constructor
  · rintro ⟨hj, hno⟩
    obtain ⟨x, hx, rfl⟩ := mem_keys.1 hj
    rcases List.mem_append.1 hx with hx | hx
    · exact absurd (mem_keys.2 ⟨x, hx, rfl⟩) hno
    · rw [List.mem_singleton.1 hx]
  · rintro rfl
    exact ⟨mem_keys.2 ⟨y, by simp, rfl⟩, h⟩

/-! ## Comparing two tuples by identity -/

section Compare

variable {ys : List α}

theorem dict_congr (hx : Distinct key xs) (hy : Distinct key ys)
    (h : ∀ x, key x = k → (x ∈ ys ↔ x ∈ xs)) : dict key ys k = dict key xs k := by
  refine Option.ext fun x => ?_
  rw [dict_eq_some_iff hx, dict_eq_some_iff hy]
  exact and_congr_left fun hk => h x hk

/-- The tuples differ in the record of one identity and nowhere else. -/
theorem changed_eq_singleton [DecidableEq α] (hdx : Distinct key xs) (hdy : Distinct key ys)
    (hx : x ∈ xs) (hy : y ∈ ys) (hk : key y = key x) (hne : y ≠ x)
    (hrest : ∀ z, key z ≠ key x → (z ∈ ys ↔ z ∈ xs)) :
    ((keys key xs).filter fun j => dict key ys j ≠ dict key xs j) = {key x} := by
  ext j
  rw [Finset.mem_filter, Finset.mem_singleton]
  constructor
  · rintro ⟨_, hj⟩
    by_contra hjx
    exact hj (dict_congr hdx hdy fun z hz => hrest z (by rw [hz]; exact hjx))
  · rintro rfl
    refine ⟨mem_keys.2 ⟨x, hx, rfl⟩, ?_⟩
    rw [dict_self hdx hx, (dict_eq_some_iff hdy).2 ⟨hy, hk⟩]
    exact fun h => hne (Option.some.inj h)

end Compare

/-! ## Updating one record -/

section Update

variable {f : α → α}

theorem map_update {β : Type} {g : α → β} (h : ∀ x ∈ xs, key x = k → g (f x) = g x) :
    (update key k f xs).map g = xs.map g := by
  unfold update
  rw [List.map_map]
  refine List.map_congr_left fun x hx => ?_
  simp only [Function.comp_apply]
  split
  · next hk => exact h x hx hk
  · rfl

theorem mem_update : y ∈ update key k f xs ↔
    ∃ x ∈ xs, (key x = k ∧ y = f x) ∨ (key x ≠ k ∧ y = x) := by
  unfold update
  rw [List.mem_map]
  refine exists_congr fun x => and_congr_right fun _ => ?_
  split
  · next hk => simp [hk, eq_comm]
  · next hk => simp [hk, eq_comm]

theorem update_of_ne (hx : x ∈ xs) (hk : key x ≠ k) : x ∈ update key k f xs :=
  mem_update.2 ⟨x, hx, .inr ⟨hk, rfl⟩⟩

theorem update_self (hx : x ∈ xs) (hk : key x = k) : f x ∈ update key k f xs :=
  mem_update.2 ⟨x, hx, .inl ⟨hk, rfl⟩⟩

@[simp] theorem length_update : (update key k f xs).length = xs.length := by
  simp [update]

theorem zip_update : xs.zip (update key k f xs) =
    xs.map fun y => (y, if key y = k then f y else y) := by
  unfold update
  simpa using List.zip_map' (f := id) (g := fun y => if key y = k then f y else y) (l := xs)

/-- The identities an update changes: the one it names, if it changes that record. -/
theorem changed_update [DecidableEq α] (hx : x ∈ xs)
    (hd : Distinct key xs) :
    (((xs.zip (update key (key x) f xs)).filter fun p => p.1 ≠ p.2).map fun p => key p.1).toFinset =
      if f x = x then ∅ else {key x} := by
  ext j
  rw [zip_update]
  simp only [List.mem_toFinset, List.mem_map, List.mem_filter, decide_eq_true_eq]
  constructor
  · rintro ⟨_, ⟨⟨y, hy, rfl⟩, hne⟩, rfl⟩
    simp only at hne
    split at hne
    · next hk =>
      obtain rfl := hd.eq hy hx hk
      rw [if_neg fun h => hne h.symm]
      exact Finset.mem_singleton_self _
    · exact absurd rfl hne
  · intro hj
    split at hj
    · simp at hj
    · next hne =>
      refine ⟨(x, f x), ⟨⟨x, hx, by simp⟩, fun h => hne h.symm⟩, (Finset.mem_singleton.1 hj).symm⟩

end Update

/-! ## Removing one record -/

theorem mem_remove : x ∈ remove key k xs ↔ x ∈ xs ∧ key x ≠ k := by
  simp [remove]

theorem remove_eq_self (h : ∀ x ∈ xs, key x ≠ k) : remove key k xs = xs :=
  List.filter_eq_self.2 fun x hx => by simpa using h x hx

/-- Replacing a record by one of the same identity keeps the identities. -/
theorem keys_remove_append (hx : x ∈ xs) (hk : key y = key x) :
    keys key (remove key (key x) xs ++ [y]) = keys key xs := by
  ext j
  simp only [mem_keys, List.mem_append, List.mem_singleton, mem_remove]
  constructor
  · rintro ⟨z, ⟨hz, _⟩ | rfl, rfl⟩
    · exact ⟨z, hz, rfl⟩
    · exact ⟨x, hx, hk.symm⟩
  · rintro ⟨z, hz, rfl⟩
    by_cases hzx : key z = key x
    · exact ⟨y, .inr rfl, hk.trans hzx.symm⟩
    · exact ⟨z, .inl ⟨hz, hzx⟩, rfl⟩

theorem Distinct.remove (hd : Distinct key xs) : Distinct key (remove key k xs) :=
  (List.Sublist.map key List.filter_sublist).nodup hd

theorem keys_sdiff_remove (hx : x ∈ xs) :
    keys key xs \ keys key (remove key (key x) xs) = {key x} := by
  ext j
  simp only [Finset.mem_sdiff, mem_keys, mem_remove, Finset.mem_singleton]
  constructor
  · rintro ⟨⟨y, hy, rfl⟩, hno⟩
    by_contra hne
    exact hno ⟨y, ⟨hy, hne⟩, rfl⟩
  · rintro rfl
    exact ⟨⟨x, hx, rfl⟩, fun ⟨y, ⟨_, hne⟩, h⟩ => hne h⟩

theorem remove_keys_subset : keys key (remove key k xs) ⊆ keys key xs := by
  intro j hj
  obtain ⟨y, hy, rfl⟩ := mem_keys.1 hj
  exact mem_keys.2 ⟨y, (mem_remove.1 hy).1, rfl⟩

/-- A sum over the records is the removed record's share and the rest's. -/
theorem sum_remove {M : Type} [AddCommMonoid M] (g : α → M) (hd : Distinct key xs) (hx : x ∈ xs) :
    (xs.map g).sum = g x + ((remove key (key x) xs).map g).sum := by
  have hsplit := List.filter_append_perm (fun y => decide (key y = key x)) xs
  have hone : xs.filter (fun y => decide (key y = key x)) = [x] := by
    refine List.perm_singleton.1 ((List.perm_ext_iff_of_nodup ?_ (List.nodup_singleton x)).2 ?_)
    · exact (hd.of_map key).filter _
    · intro y
      simp only [List.mem_filter, decide_eq_true_eq, List.mem_singleton]
      constructor
      · rintro ⟨hy, hk⟩
        exact hd.eq hy hx hk
      · rintro rfl
        exact ⟨hx, rfl⟩
  have hrest : xs.filter (fun y => !decide (key y = key x)) = remove key (key x) xs := by
    simp [remove]
  rw [hone, hrest] at hsplit
  rw [← (hsplit.map g).sum_eq]
  simp

end PokerDeliberation.Lib.Keyed
