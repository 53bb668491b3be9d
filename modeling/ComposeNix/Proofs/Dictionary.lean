import ComposeNix.Proofs.Compose.Distinct
import Mathlib.Data.List.Induction

/-!
# Dictionaries that are built from rows

What a row of entries builds is known from the row: every key stands where it first occurs
(`keys_ofEntries`), and the value under it is the one that occurs last (`get?_ofEntries`).  Entries
under different keys are their own dictionary (`ofEntries_eq_self`), and entries under keys of
one kind are filed as if there were no others (`filter_ofEntries`).
-/

namespace ComposeNix.Dictionary

variable {α : Type}

/-! ## What is in a dictionary -/

/-- A dictionary is known from its keys and what is filed under them. -/
theorem eq_map_keys {d : Dictionary α} (h : (keys d).Nodup) (default : α) :
    d = (keys d).map fun key => (key, (get? d key).getD default) := by
  induction d with
  | nil => rfl
  | cons e d ih =>
    obtain ⟨k, v⟩ := e
    obtain ⟨hk, hd⟩ := List.nodup_cons.mp h
    have hself : get? ((k, v) :: d) k = some v := by simp [get?]
    have hothers : (keys d).map (fun key => (key, (get? ((k, v) :: d) key).getD default))
        = (keys d).map fun key => (key, (get? d key).getD default) := by
      refine List.map_congr_left fun key hkey => ?_
      have hne : (key == k) = false := beq_eq_false_iff_ne.mpr fun heq => hk (heq ▸ hkey)
      rw [get?, List.lookup_cons, hne, get?]
    rw [keys_cons, List.map_cons, hself, hothers, ← ih hd]
    rfl

/-- Entries under keys of one kind are filed as if there were no others. -/
theorem filter_insert (p : String → Bool) (key : String) (value : α) (d : Dictionary α) :
    (insert key value d).filter (fun e => p e.1)
      = if p key then insert key value (d.filter fun e => p e.1)
        else d.filter fun e => p e.1 := by
  induction d with
  | nil => cases h : p key <;> simp [insert, h]
  | cons e d ih =>
    obtain ⟨k, v⟩ := e
    by_cases hk : k = key
    · subst hk
      cases h : p k <;> simp [insert, h]
    · cases hp : p k <;> cases hkey : p key <;> simp [insert, hk, hp, hkey, ih]

/-- Among the entries under keys of its kind, a key finds the value that it finds among all. -/
theorem get?_filter {p : String → Bool} {key : String} (h : p key = true) (d : Dictionary α) :
    get? (d.filter fun e => p e.1) key = get? d key := by
  induction d with
  | nil => rfl
  | cons e d ih =>
    obtain ⟨k, v⟩ := e
    rw [get?, get?, List.filter_cons, List.lookup_cons]
    by_cases hk : key = k
    · subst hk
      rw [if_pos h, List.lookup_cons, beq_self_eq_true]
    · rw [beq_eq_false_iff_ne.mpr hk]
      split
      · rw [List.lookup_cons, beq_eq_false_iff_ne.mpr hk]
        exact ih
      · exact ih

/-! ## One entry more -/

theorem ofEntries_concat (entries : List (String × α)) (e : String × α) :
    ofEntries (entries ++ [e]) = insert e.1 e.2 (ofEntries entries) := by
  rw [ofEntries, update, List.foldl_append]
  rfl

theorem filter_ofEntries (p : String → Bool) (entries : List (String × α)) :
    (ofEntries entries).filter (fun e => p e.1)
      = ofEntries (entries.filter fun e => p e.1) := by
  induction entries using List.reverseRecOn with
  | nil => rfl
  | append_singleton entries e ih =>
    rw [ofEntries_concat, filter_insert, ih, List.filter_append]
    cases he : p e.1
    · rw [List.filter_cons_of_neg (by simp [he]), if_neg Bool.false_ne_true, List.filter_nil,
        List.append_nil]
    · rw [List.filter_cons_of_pos (by simp [he]), if_pos rfl, List.filter_nil, ofEntries_concat]

/-- The keys stand in the order in which they first occur. -/
theorem keys_ofEntries (entries : List (String × α)) :
    keys (ofEntries entries) = Manifest.distinct (entries.map Prod.fst) := by
  induction entries using List.reverseRecOn with
  | nil => rfl
  | append_singleton entries e ih =>
    rw [ofEntries_concat, keys_insert, ih, List.map_append, List.map_singleton,
      Manifest.distinct_concat]
    simp only [Manifest.mem_distinct]

/-- Of several values for a key it is the last that counts. -/
theorem get?_ofEntries (entries : List (String × α)) (key : String) :
    (ofEntries entries).get? key = entries.reverse.lookup key := by
  induction entries using List.reverseRecOn with
  | nil => rfl
  | append_singleton entries e ih =>
    rw [ofEntries_concat, get?_insert, ih, List.reverse_append, List.reverse_singleton,
      List.singleton_append, List.lookup_cons]
    by_cases hkey : key = e.1
    · rw [if_pos hkey, beq_iff_eq.mpr hkey]
    · rw [if_neg hkey, beq_eq_false_iff_ne.mpr hkey]

theorem ofEntries_eq_map (entries : List (String × α)) (default : α) :
    ofEntries entries = (Manifest.distinct (entries.map Prod.fst)).map fun key =>
      (key, (entries.reverse.lookup key).getD default) := by
  have hkeys := eq_map_keys (nodup_keys_ofEntries entries) default
  simp only [keys_ofEntries, get?_ofEntries] at hkeys
  exact hkeys

theorem insert_of_notMem {key : String} {d : Dictionary α} (h : key ∉ keys d) (value : α) :
    insert key value d = d ++ [(key, value)] := by
  induction d with
  | nil => rfl
  | cons e d ih =>
    rw [keys_cons, List.mem_cons, not_or] at h
    rw [insert, if_neg fun heq => h.1 heq.symm, ih h.2, List.cons_append]

/-- Entries under different keys are the dictionary that they build. -/
theorem ofEntries_eq_self {entries : List (String × α)} (h : (entries.map Prod.fst).Nodup) :
    ofEntries entries = entries := by
  induction entries using List.reverseRecOn with
  | nil => rfl
  | append_singleton entries e ih =>
    rw [List.map_append, List.map_singleton, List.nodup_append] at h
    have hnew : e.1 ∉ keys entries := fun hmem =>
      h.2.2 _ hmem _ (List.mem_singleton_self _) rfl
    rw [ofEntries_concat, ih h.1, insert_of_notMem hnew]

/-- A value that is filed first keeps its place, and gives way to what is filed under its key. -/
theorem update_singleton {key : String} (value : α) {more : Dictionary α}
    (h : (keys more).Nodup) : update [(key, value)] more
      = (key, (get? more key).getD value) :: more.filter fun e => e.1 != key := by
  induction more using List.reverseRecOn with
  | nil => rfl
  | append_singleton more e ih =>
    obtain ⟨k, v⟩ := e
    rw [keys, List.map_append, List.map_singleton, List.nodup_append] at h
    have hnew : k ∉ keys more := fun hmem => h.2.2 _ hmem _ (List.mem_singleton_self _) rfl
    have hupdate : update [(key, value)] (more ++ [(k, v)])
        = insert k v (update [(key, value)] more) := by
      rw [update, List.foldl_append]
      rfl
    have hget : get? (more ++ [(k, v)]) key = (get? more key).or (get? [(k, v)] key) :=
      List.lookup_append
    rw [hupdate, ih h.1, List.filter_append, insert, hget]
    by_cases hkey : key = k
    · subst hkey
      have hnone : get? more key = none := by
        by_contra hsome
        obtain ⟨old, hold⟩ := Option.ne_none_iff_exists'.mp hsome
        exact hnew (List.mem_map.mpr ⟨_, mem_of_get?_eq_some hold, rfl⟩)
      rw [hnone]
      simp [get?]
    · have hfiltered : k ∉ keys (more.filter fun e => e.1 != key) := fun hmem =>
        hnew ((List.filter_sublist.map Prod.fst).subset hmem)
      have hother : get? [(k, v)] key = none := by
        rw [get?, List.lookup_cons, beq_eq_false_iff_ne.mpr hkey]
        rfl
      rw [if_neg hkey, insert_of_notMem hfiltered, hother, Option.or_none]
      simp [Ne.symm hkey]

end ComposeNix.Dictionary
