import ComposeNix.Value
import Mathlib.Data.List.Perm.Basic

/-!
# Looking up texts in a mapping

What stands under a text is the first value that was filed there.  If no two keys are the same, it
is the only one (`lookup_eq_some_iff_mem`), and the order of the entries makes no difference
(`lookup_of_perm`).  Neither do entries that are added in between, under other keys
(`Padded.lookup`).
-/

namespace ComposeNix.Value

variable {es es' : List (Value × Value)} {key : String} {k v : Value}

theorem lookup_cons_self (key : String) (v : Value) (es : List (Value × Value)) :
    lookup key ((.str key, v) :: es) = some v := if_pos rfl

theorem lookup_cons_of_ne (h : k ≠ .str key) : lookup key ((k, v) :: es) = lookup key es := by
  cases k with
  | str s => exact if_neg fun hs => h (congrArg Value.str hs)
  | _ => rfl

/-! ## Keys without repetition -/

theorem mem_of_lookup (h : lookup key es = some v) : (.str key, v) ∈ es := by
  induction es with
  | nil => exact nomatch h
  | cons e es ih =>
    obtain ⟨k, w⟩ := e
    by_cases hk : k = .str key
    · subst hk
      rw [lookup_cons_self, Option.some.injEq] at h
      rw [h]
      exact List.mem_cons_self
    · rw [lookup_cons_of_ne hk] at h
      exact List.mem_cons_of_mem _ (ih h)

theorem lookup_of_mem (hkeys : (es.map Prod.fst).Nodup) (h : (.str key, v) ∈ es) :
    lookup key es = some v := by
  induction es with
  | nil => exact absurd h List.not_mem_nil
  | cons e es ih =>
    obtain ⟨hfirst, hrest⟩ := List.nodup_cons.mp hkeys
    rcases List.mem_cons.mp h with rfl | h
    · exact lookup_cons_self key v es
    · have hne : e.1 ≠ .str key := fun hk => hfirst (hk ▸ List.mem_map_of_mem h)
      rw [lookup_cons_of_ne hne, ih hrest h]

theorem lookup_eq_some_iff_mem (hkeys : (es.map Prod.fst).Nodup) :
    lookup key es = some v ↔ (.str key, v) ∈ es := ⟨mem_of_lookup, lookup_of_mem hkeys⟩

/-- Entries with different keys may be put in any order. -/
theorem lookup_of_perm (hkeys : (es.map Prod.fst).Nodup) (h : es.Perm es') (key : String) :
    lookup key es' = lookup key es := by
  have hkeys' : (es'.map Prod.fst).Nodup := (h.map Prod.fst).nodup hkeys
  refine Option.ext fun v => ?_
  rw [lookup_eq_some_iff_mem hkeys', lookup_eq_some_iff_mem hkeys, h.mem_iff]

/-! ## More entries -/

/-- A mapping with more entries in any place, all of them under keys that are idle. -/
inductive Padded (idle : Value → Prop) : List (Value × Value) → List (Value × Value) → Prop
  | nil : Padded idle [] []
  | keep {es es' : List (Value × Value)} (e : Value × Value) :
    Padded idle es es' → Padded idle (e :: es) (e :: es')
  | add {es es' : List (Value × Value)} {k : Value} (v : Value) :
    idle k → Padded idle es es' → Padded idle es ((k, v) :: es')

/-- Under a key that is not idle stands what stood there before. -/
theorem Padded.lookup {idle : Value → Prop} (h : Padded idle es es') (hkey : ¬ idle (.str key)) :
    Value.lookup key es' = Value.lookup key es := by
  induction h with
  | nil => rfl
  | keep e _ ih =>
    obtain ⟨k, v⟩ := e
    by_cases hk : k = .str key
    · subst hk
      rw [lookup_cons_self, lookup_cons_self]
    · rw [lookup_cons_of_ne hk, lookup_cons_of_ne hk, ih]
  | add v hidle _ ih =>
    rw [lookup_cons_of_ne fun hk => hkey (hk ▸ hidle), ih]

end ComposeNix.Value
