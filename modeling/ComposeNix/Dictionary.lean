/-!
# Dictionaries in order of insertion

Environment variables, labels and kernel settings are texts filed under texts, and
services are filed under their names.  The order in which keys were first filed is shown
again wherever they are written out, so a dictionary is the list of its entries, oldest
first; filing under a key that is taken keeps the place and replaces the value.

`keys_insert` says what happens to the keys, and `get?_insert` to the values.  No key is ever in a
dictionary twice (`nodup_keys_ofEntries`).
-/

namespace ComposeNix

/-- Values filed under texts, in order of first insertion. -/
abbrev Dictionary (α : Type) := List (String × α)

namespace Dictionary

variable {α : Type}

/-- The value filed under a key. -/
def get? (d : Dictionary α) (key : String) : Option α := List.lookup key d

/-- Files a value under a key. -/
def insert (key : String) (value : α) : Dictionary α → Dictionary α
  | [] => [(key, value)]
  | (k, v) :: rest => if k = key then (k, value) :: rest else (k, v) :: insert key value rest

/-- Files the entries of `more` one after the other. -/
def update (d more : Dictionary α) : Dictionary α := more.foldl (fun d e => insert e.1 e.2 d) d

/-- The dictionary that a row of entries builds. -/
def ofEntries (entries : List (String × α)) : Dictionary α := update [] entries

/-- The keys, oldest first. -/
def keys (d : Dictionary α) : List String := d.map Prod.fst

@[simp] theorem keys_nil : keys ([] : Dictionary α) = [] := rfl

@[simp] theorem keys_cons (e : String × α) (d : Dictionary α) :
    keys (e :: d) = e.1 :: keys d := rfl

/-- A key that is taken keeps its place; a new one comes last. -/
theorem keys_insert (key : String) (value : α) (d : Dictionary α) :
    keys (insert key value d) = if key ∈ keys d then keys d else keys d ++ [key] := by
  induction d with
  | nil => simp [insert]
  | cons e rest ih =>
    obtain ⟨k, v⟩ := e
    by_cases h : k = key
    · simp [insert, h]
    · by_cases hk : key ∈ keys rest
      · simp [insert, h, ih, hk]
      · simp [insert, h, ih, hk, Ne.symm h]

/-- A value is found where it was filed, and no other value moves. -/
theorem get?_insert (key : String) (value : α) (k : String) (d : Dictionary α) :
    get? (insert key value d) k = if k = key then some value else get? d k := by
  induction d with
  | nil => by_cases h : k = key <;> simp [insert, get?, h]
  | cons e rest ih =>
    obtain ⟨k₀, v₀⟩ := e
    by_cases h : k₀ = key
    · subst h
      by_cases hk : k = k₀
      · simp [insert, get?, hk]
      · have hb : (k == k₀) = false := by simp [hk]
        simp [insert, get?, List.lookup_cons, hk, hb]
    · by_cases hk : k = k₀
      · subst hk
        simp [insert, get?, h]
      · have hb : (k == k₀) = false := by simp [hk]
        simp only [insert, h, if_false, get?, List.lookup_cons, hb] at ih ⊢
        exact ih

/-! ## Changing the values -/

theorem insert_map {β : Type} (f : α → β) (key : String) (value : α) (d : Dictionary α) :
    insert key (f value) (d.map fun e => (e.1, f e.2))
      = (insert key value d).map fun e => (e.1, f e.2) := by
  induction d with
  | nil => rfl
  | cons e rest ih =>
    rw [List.map_cons, insert, insert, ih]
    split <;> rfl

theorem update_map {β : Type} (f : α → β) (d more : Dictionary α) :
    update (d.map fun e => (e.1, f e.2)) (more.map fun e => (e.1, f e.2))
      = (update d more).map fun e => (e.1, f e.2) := by
  induction more generalizing d with
  | nil => rfl
  | cons e more ih =>
    rw [List.map_cons, update, update, List.foldl_cons, List.foldl_cons]
    refine Eq.trans ?_ (ih (insert e.1 e.2 d))
    rw [← insert_map]
    rfl

/-- Values may be changed before they are filed. -/
theorem ofEntries_map {β : Type} (f : α → β) (entries : List (String × α)) :
    ofEntries (entries.map fun e => (e.1, f e.2))
      = (ofEntries entries).map fun e => (e.1, f e.2) := update_map f [] entries

/-! ## Keys are different -/

variable {d : Dictionary α}

theorem mem_of_get?_eq_some {key : String} {value : α} (h : d.get? key = some value) :
    (key, value) ∈ d := by
  induction d with
  | nil => simp [get?] at h
  | cons e rest ih =>
    obtain ⟨k, v⟩ := e
    rw [get?, List.lookup_cons] at h
    split at h
    · rename_i hk
      obtain rfl : key = k := beq_iff_eq.mp hk
      obtain rfl : v = value := Option.some.inj h
      exact List.mem_cons_self
    · exact List.mem_cons_of_mem _ (ih h)

/-- Filing a value brings in nothing but that value. -/
theorem mem_insert {key : String} {value : α} {e : String × α} (h : e ∈ insert key value d) :
    e = (key, value) ∨ e ∈ d := by
  induction d with
  | nil => exact Or.inl (List.mem_singleton.mp h)
  | cons b rest ih =>
    obtain ⟨k, v⟩ := b
    rw [insert] at h
    split at h
    · rename_i hk
      rcases List.mem_cons.mp h with rfl | h
      · exact Or.inl (by rw [hk])
      · exact Or.inr (List.mem_cons_of_mem _ h)
    · rcases List.mem_cons.mp h with rfl | h
      · exact Or.inr List.mem_cons_self
      · exact (ih h).imp_right (List.mem_cons_of_mem _)

theorem nodup_keys_insert (key : String) (value : α) (h : (keys d).Nodup) :
    (keys (insert key value d)).Nodup := by
  rw [keys_insert]
  split
  · exact h
  · rename_i hkey
    have hsingle : [key].Nodup := List.nodup_cons.mpr ⟨List.not_mem_nil, List.nodup_nil⟩
    refine List.nodup_append.mpr ⟨h, hsingle, fun k hk l hl heq => hkey ?_⟩
    rwa [← List.mem_singleton.mp hl, ← heq]

theorem nodup_keys_update {d more : Dictionary α} (h : (keys d).Nodup) :
    (keys (update d more)).Nodup := by
  induction more generalizing d with
  | nil => exact h
  | cons e more ih => exact ih (nodup_keys_insert e.1 e.2 h)

/-- Whatever entries a dictionary is built from, no key is in it twice. -/
theorem nodup_keys_ofEntries (entries : List (String × α)) : (keys (ofEntries entries)).Nodup :=
  nodup_keys_update List.nodup_nil

end Dictionary
end ComposeNix
