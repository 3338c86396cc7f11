import Observatory.Table

/-!
# Entries of tables

What is found in a table is among its values, and where no key has two entries, every entry is
found. Inserting and erasing give no key a second entry. A table has a value under a key just if the
key is among its keys.
-/

namespace Observatory.Table

variable {κ α : Type} [DecidableEq κ]

theorem mem_entries_of_get? {t : Table κ α} {k : κ} {a : α} (h : t.get? k = some a) :
    (k, a) ∈ t.entries := by
  obtain ⟨entries⟩ := t
  unfold get? at h
  induction entries with
  | nil => cases h
  | cons entry rest ih =>
    rw [find] at h
    split at h
    next hk =>
      cases h
      rw [← hk]
      exact List.mem_cons_self
    next => exact List.mem_cons_of_mem _ (ih h)

theorem mem_values_of_get? {t : Table κ α} {k : κ} {a : α} (h : t.get? k = some a) :
    a ∈ t.values :=
  List.mem_map.2 ⟨(k, a), mem_entries_of_get? h, rfl⟩

theorem get?_of_mem_entries {t : Table κ α} {k : κ} {a : α} (hkeys : t.keys.Nodup)
    (h : (k, a) ∈ t.entries) : t.get? k = some a := by
  obtain ⟨entries⟩ := t
  unfold keys at hkeys
  unfold get?
  induction entries with
  | nil => cases h
  | cons entry rest ih =>
    obtain ⟨hentry, hrest⟩ := List.nodup_cons.1 hkeys
    rw [find]
    rcases List.mem_cons.1 h with rfl | h
    · exact if_pos rfl
    · rw [if_neg, ih hrest h]
      rintro rfl
      exact hentry (List.mem_map.2 ⟨_, h, rfl⟩)

@[simp]
theorem contains_insert (t : Table κ α) (k k' : κ) (a : α) :
    (t.insert k a).contains k' = (decide (k' = k) || t.contains k') := by
  unfold contains
  by_cases h : k' = k
  · subst h
    simp
  · simp [h]

@[simp]
theorem contains_modify (t : Table κ α) (k k' : κ) (f : α → α) :
    (t.modify k f).contains k' = t.contains k' := by
  unfold contains
  by_cases h : k' = k
  · subst h
    rw [get?_modify_self, Option.isSome_map]
  · rw [get?_modify_of_ne _ _ h]

theorem modify_of_contains {t : Table κ α} {k : κ} {f : α → α} (h : t.contains k = false) :
    t.modify k f = t := by
  rw [contains, Option.isSome_eq_false_iff, Option.isNone_iff_eq_none] at h
  rw [modify, h]

theorem contains_of_get? {t : Table κ α} {k : κ} {a : α} (h : t.get? k = some a) :
    t.contains k = true := by
  rw [contains, h]
  rfl

theorem contains_iff_mem_keys {t : Table κ α} {k : κ} : t.contains k = true ↔ k ∈ t.keys := by
  obtain ⟨entries⟩ := t
  unfold contains get? keys
  induction entries with
  | nil => simp [find]
  | cons entry rest ih =>
    by_cases h : entry.1 = k
    · simp [find, h]
    · simp [find, h, ih, Ne.symm h]

theorem isEmpty_iff {t : Table κ α} : t.isEmpty = true ↔ ∀ k, t.contains k = false := by
  simp [← Bool.not_eq_true, contains_iff_mem_keys, isEmpty, keys, List.eq_nil_iff_forall_not_mem]

theorem exists_of_mem_values {t : Table κ α} {a : α} (hkeys : t.keys.Nodup) (h : a ∈ t.values) :
    ∃ k, t.get? k = some a := by
  obtain ⟨⟨k, a⟩, hentry, rfl⟩ := List.mem_map.1 h
  exact ⟨k, get?_of_mem_entries hkeys hentry⟩

theorem keys_insert (t : Table κ α) (k : κ) (a : α) :
    (t.insert k a).keys = if k ∈ t.keys then t.keys else t.keys ++ [k] := by
  obtain ⟨entries⟩ := t
  unfold insert keys
  induction entries with
  | nil => rfl
  | cons entry rest ih =>
    by_cases h : entry.1 = k
    · simp [put, h]
    · simp only [put, h, if_false, List.map_cons, ih, List.mem_cons, Ne.symm h, false_or]
      split
      · rfl
      · rfl

theorem nodup_keys_insert {t : Table κ α} (h : t.keys.Nodup) (k : κ) (a : α) :
    (t.insert k a).keys.Nodup := by
  rw [keys_insert]
  split
  next => exact h
  next hk =>
    refine List.nodup_append.2 ⟨h, List.pairwise_singleton _ k, fun k' hk' => ?_⟩
    rintro _ hsingle rfl
    exact hk (List.mem_singleton.1 hsingle ▸ hk')

theorem nodup_keys_erase {t : Table κ α} (h : t.keys.Nodup) (k : κ) : (t.erase k).keys.Nodup :=
  h.sublist (List.filter_sublist.map Prod.fst)

omit [DecidableEq κ] in
@[simp]
theorem keys_map {β : Type} (t : Table κ α) (f : α → β) : (t.map f).keys = t.keys :=
  List.map_map

/-- Where a value depends on its key only, it does not matter which entry is found. -/
theorem get?_of_forall {t : Table κ α} {k : κ} {f : κ → α}
    (h : ∀ entry ∈ t.entries, entry.2 = f entry.1) (hk : k ∈ t.keys) :
    t.get? k = some (f k) := by
  obtain ⟨a, ha⟩ := Option.isSome_iff_exists.1 (contains_iff_mem_keys.2 hk)
  exact ha.trans (congrArg some (h _ (mem_entries_of_get? ha)))

end Observatory.Table
