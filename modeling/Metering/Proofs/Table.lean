import Mathlib.Data.Finset.Card
import Mathlib.Data.List.Nodup
import Metering.Table

/-!
# What a table holds under one key

`Table.under` is the part of a table that belongs to one key.  What is read under a key, and what a
change does to it, depends on that part only, also for a table that holds a key twice; so two
tables that agree under a key keep doing so whatever is changed in both under other keys.
`Table.Distinct` says that no key is held twice, and then keeping the entries that pass a test keeps
under each key what passes it (`get?_keep`), and the entries are as many as the keys
(`card_keys`).
-/

namespace Metering.Table

variable {α : Type} {key other : String}

/-- The entries under one key. -/
def under (t : Table α) (key : String) : List (String × α) := t.entries.filter (·.1 = key)

/-- No key is held twice. -/
def Distinct (t : Table α) : Prop := ∀ key, (t.under key).length ≤ 1

theorem get?_eq_head? (t : Table α) (key : String) :
    t.get? key = (t.under key).head?.map Prod.snd := by
  unfold get? under
  induction t.entries with
  | nil => rfl
  | cons e rest ih =>
      obtain ⟨k, v⟩ := e
      by_cases hk : k = key
      · simp [find?, hk]
      · simp [find?, hk, ih]

/-- What is read under a key is one of the entries. -/
theorem mem_toList_of_get? {t : Table α} {value : α} (h : t.get? key = some value) :
    (key, value) ∈ t.toList := by
  rw [get?_eq_head?] at h
  obtain ⟨e, he, rfl⟩ := Option.map_eq_some_iff.1 h
  obtain ⟨hmem, hkey⟩ := List.mem_filter.1 (List.mem_of_mem_head? he)
  rw [← of_decide_eq_true hkey]
  exact hmem

theorem under_insert_self (t : Table α) (key : String) (value : α) :
    (t.insert key value).under key = (key, value) :: (t.under key).tail := by
  unfold insert under
  induction t.entries with
  | nil => simp [put]
  | cons e rest ih =>
      obtain ⟨k, v⟩ := e
      by_cases hk : k = key
      · simp [put, hk]
      · simpa [put, hk] using ih

theorem under_insert_of_ne (t : Table α) (value : α) (h : other ≠ key) :
    (t.insert other value).under key = t.under key := by
  unfold insert under
  induction t.entries with
  | nil => simp [put, h]
  | cons e rest ih =>
      obtain ⟨k, v⟩ := e
      by_cases hk : k = other
      · simp [put, hk, h]
      · simp only [put, if_neg hk, List.filter_cons, ih]

theorem under_erase_self (t : Table α) (key : String) : (t.erase key).under key = [] := by
  unfold erase under
  simp

theorem under_erase_of_ne (t : Table α) (h : other ≠ key) :
    (t.erase other).under key = t.under key := by
  unfold erase under
  rw [List.filter_filter]
  apply List.filter_congr
  intro e _
  by_cases he : e.1 = key
  · simp [he, h.symm]
  · simp [he]

theorem under_keep (t : Table α) (test : α → Bool) (key : String) :
    (t.keep test).under key = (t.under key).filter fun e => test e.2 := by
  unfold keep under
  rw [List.filter_filter, List.filter_filter]
  apply List.filter_congr
  intro e _
  rw [Bool.and_comm]

theorem distinct_empty : (empty : Table α).Distinct := by
  intro key
  exact Nat.zero_le 1

theorem Distinct.insert {t : Table α} (h : t.Distinct) (key : String) (value : α) :
    (t.insert key value).Distinct := by
  intro other
  by_cases hk : key = other
  · subst hk
    rw [under_insert_self, List.length_cons, List.length_tail]
    have hone := h key
    omega
  · rw [under_insert_of_ne t value hk]
    exact h other

theorem Distinct.erase {t : Table α} (h : t.Distinct) (key : String) : (t.erase key).Distinct := by
  intro other
  by_cases hk : key = other
  · subst hk
    rw [under_erase_self]
    exact Nat.zero_le 1
  · rw [under_erase_of_ne t hk]
    exact h other

theorem Distinct.keep {t : Table α} (h : t.Distinct) (test : α → Bool) :
    (t.keep test).Distinct := by
  intro key
  rw [under_keep]
  exact Nat.le_trans (List.length_filter_le _ _) (h key)

/-- What is read under a key after a sweep is what was there, if it passes the test. -/
theorem get?_keep {t : Table α} (h : t.Distinct) (test : α → Bool) (key : String) :
    (t.keep test).get? key = (t.get? key).filter test := by
  rw [get?_eq_head?, get?_eq_head?, under_keep]
  have hone := h key
  cases hlist : t.under key with
  | nil => rfl
  | cons e rest =>
      rw [hlist, List.length_cons] at hone
      have hrest : rest = [] := List.eq_nil_of_length_eq_zero (by omega)
      subst hrest
      cases htest : test e.2 with
      | true => simp [Option.filter_some, htest]
      | false => simp [Option.filter_some, htest]

/-- What is read after a key is removed was there before. -/
theorem get?_of_get?_erase {t : Table α} {value : α} (h : (t.erase key).get? other = some value) :
    t.get? other = some value := by
  rw [get?_erase] at h
  split at h
  · cases h
  · exact h

theorem put_of_find? {value : α} {entries : List (String × α)}
    (h : find? key entries = some value) : put key value entries = entries := by
  induction entries with
  | nil => cases h
  | cons e rest ih =>
      obtain ⟨k, v⟩ := e
      by_cases hk : k = key
      · subst hk
        simp only [find?, if_true, Option.some.injEq] at h
        simp only [put, if_true, h]
      · simp only [find?, if_neg hk] at h
        simp only [put, if_neg hk, ih h]

/-- Writing again what is read under a key changes nothing. -/
theorem insert_of_get? {t : Table α} {value : α} (h : t.get? key = some value) :
    t.insert key value = t :=
  congrArg Table.mk (put_of_find? h)

/-- A sweep keeps what is read under a key if it passes the test, also in a table that holds the key
twice. -/
theorem get?_keep_of_passes {t : Table α} {test : α → Bool} {value : α}
    (h : t.get? key = some value) (htest : test value = true) :
    (t.keep test).get? key = some value := by
  rw [get?_eq_head?] at h ⊢
  rw [under_keep]
  cases hlist : t.under key with
  | nil =>
      rw [hlist] at h
      cases h
  | cons e rest =>
      rw [hlist] at h
      obtain rfl : e.2 = value := Option.some.inj h
      simp [htest]

/-- A sweep adds nothing. -/
theorem get?_keep_of_none {t : Table α} {test : α → Bool} (h : t.get? key = none) :
    (t.keep test).get? key = none := by
  rw [get?_eq_head?, Option.map_eq_none_iff, List.head?_eq_none_iff] at h ⊢
  rw [under_keep, h]
  rfl

/-! ## How many keys a table holds -/

/-- The keys under which something is read. -/
def keys (t : Table α) : Finset String := (t.entries.map Prod.fst).toFinset

theorem mem_keys_iff (t : Table α) (key : String) :
    key ∈ t.keys ↔ ∃ value, t.get? key = some value := by
  unfold keys get?
  rw [List.mem_toFinset]
  induction t.entries with
  | nil => simp [find?]
  | cons e rest ih =>
      obtain ⟨k, v⟩ := e
      by_cases hk : k = key
      · simp [find?, hk]
      · simp only [List.map_cons, List.mem_cons, Ne.symm hk, false_or, ih, find?, if_neg hk]

/-- An entry of a table without repeated keys is what is read under its key. -/
theorem Distinct.get?_of_mem {t : Table α} (h : t.Distinct) {value : α}
    (hmem : (key, value) ∈ t.toList) : t.get? key = some value := by
  have hunder : (key, value) ∈ t.under key := List.mem_filter.2 ⟨hmem, by simp⟩
  have hone := h key
  rw [get?_eq_head?]
  cases hlist : t.under key with
  | nil =>
      rw [hlist] at hunder
      cases hunder
  | cons e rest =>
      rw [hlist, List.length_cons] at hone
      have hrest : rest = [] := List.eq_nil_of_length_eq_zero (by omega)
      rw [hlist, hrest, List.mem_singleton] at hunder
      rw [← hunder]
      rfl

/-- A table without repeated keys holds as many entries as keys. -/
theorem Distinct.card_keys {t : Table α} (h : t.Distinct) : t.keys.card = t.size := by
  have hnodup : (t.entries.map Prod.fst).Nodup := by
    rw [List.nodup_iff_count_le_one]
    intro key
    have hone := h key
    rw [under, ← List.countP_eq_length_filter] at hone
    rw [List.count, List.countP_map]
    refine Nat.le_trans (Nat.le_of_eq (List.countP_congr fun e _ => ?_)) hone
    simp
  rw [keys, List.toFinset_card_of_nodup hnodup, List.length_map, size]

theorem size_erase_le (t : Table α) (key : String) : (t.erase key).size ≤ t.size :=
  List.length_filter_le _ _

theorem keys_erase (t : Table α) (key : String) : (t.erase key).keys = t.keys.erase key := by
  ext other
  simp only [Finset.mem_erase, mem_keys_iff, get?_erase]
  by_cases hk : key = other
  · simp [hk]
  · simp [hk, Ne.symm hk]

/-- Removing a key that is held removes one entry. -/
theorem Distinct.size_erase {t : Table α} (h : t.Distinct) {value : α}
    (hheld : t.get? key = some value) : (t.erase key).size + 1 = t.size := by
  rw [← h.card_keys, ← (h.erase key).card_keys, keys_erase]
  exact Finset.card_erase_add_one ((mem_keys_iff t key).2 ⟨value, hheld⟩)

theorem keys_insert (t : Table α) (key : String) (value : α) :
    (t.insert key value).keys = Insert.insert key t.keys := by
  ext other
  simp only [Finset.mem_insert, mem_keys_iff, get?_insert]
  by_cases hk : key = other
  · simp [hk]
  · simp [hk, Ne.symm hk]

/-- Writing under a key adds an entry just if the key was not held. -/
theorem Distinct.size_insert {t : Table α} (h : t.Distinct) (key : String) (value : α) :
    (t.insert key value).size = if t.contains key then t.size else t.size + 1 := by
  rw [← h.card_keys, ← (h.insert key value).card_keys, keys_insert]
  by_cases hheld : t.contains key = true
  · have hmem : key ∈ t.keys := (mem_keys_iff t key).2 (Option.isSome_iff_exists.1 hheld)
    rw [if_pos hheld, Finset.insert_eq_of_mem hmem]
  · rw [if_neg hheld, Finset.card_insert_of_notMem]
    rw [mem_keys_iff]
    exact fun hsome => hheld (Option.isSome_iff_exists.2 hsome)

end Metering.Table
