import ComposeNix.Value.Coercion
import Mathlib.Data.List.TakeWhile

/-!
# The two forms of texts under texts

Texts that are filed under texts are written in one of two forms: as a mapping, or as a list of
`KEY=value` texts.  `Spells` says which entries are written, in their order; either form is read as
the dictionary of the entries (`dictionary?_of_spells`).

Entries of any texts are spelled by the mapping of them, and by the list of them if no key has an
equals sign, because the first one ends the key (`spells_map`, `spells_list`).
-/

namespace ComposeNix.Value

/-- A value that spells entries, in one of the two forms. -/
inductive Spells (entries : List (String × String)) : Value → Prop
  | map {es : List (Value × Value)} (h : entryTexts es = .ok entries) : Spells entries (.map es)
  | list {items : List Value} {texts : List String} (h : itemTexts items = .ok texts)
    (hpairs : texts.map splitPair = entries) : Spells entries (.list items)

theorem splitPair_append {key : String} (h : '=' ∉ key.toList) (value : String) :
    splitPair (key ++ "=" ++ value) = (key, value) := by
  have hkey : ∀ c ∈ key.toList, decide (c ≠ '=') = true := fun c hc =>
    decide_eq_true fun heq => h (heq ▸ hc)
  have hlist : (key ++ "=" ++ value).toList = key.toList ++ '=' :: value.toList := by
    simp [String.toList_append]
  have htake : (key.toList ++ '=' :: value.toList).takeWhile (· ≠ '=') = key.toList := by
    rw [List.takeWhile_append_of_pos hkey, List.takeWhile_cons_of_neg (by simp), List.append_nil]
  have hdrop : (key.toList ++ '=' :: value.toList).dropWhile (· ≠ '=') = '=' :: value.toList := by
    rw [List.dropWhile_append_of_pos hkey, List.dropWhile_cons_of_neg (by simp)]
  rw [splitPair, hlist, htake, hdrop]
  simp

theorem entryTexts_map_str (entries : List (String × String)) :
    entryTexts (entries.map fun e => (.str e.1, .str e.2)) = .ok entries := by
  induction entries with
  | nil => rfl
  | cons e entries ih =>
    rw [List.map_cons, entryTexts, ih]
    rfl

theorem itemTexts_map_str (texts : List String) : itemTexts (texts.map .str) = .ok texts := by
  induction texts with
  | nil => rfl
  | cons s texts ih =>
    rw [List.map_cons, itemTexts, ih]
    rfl

theorem spells_map (entries : List (String × String)) :
    Spells entries (.map (entries.map fun e => (.str e.1, .str e.2))) :=
  .map (entryTexts_map_str entries)

theorem spells_list {entries : List (String × String)} (h : ∀ e ∈ entries, '=' ∉ e.1.toList) :
    Spells entries (.list (entries.map fun e => .str (e.1 ++ "=" ++ e.2))) := by
  have hitems : entries.map (fun e => Value.str (e.1 ++ "=" ++ e.2))
      = (entries.map fun e => e.1 ++ "=" ++ e.2).map .str := by
    rw [List.map_map]
    rfl
  rw [hitems]
  refine .list (itemTexts_map_str _) ?_
  rw [List.map_map]
  exact (List.map_congr_left fun e he => splitPair_append (h e he) e.2).trans (List.map_id entries)

/-- Either form is read as the dictionary of the entries. -/
theorem dictionary?_of_spells {entries : List (String × String)} {v : Value}
    (h : Spells entries v) : v.dictionary? = .ok (some (.ofEntries entries)) := by
  cases h with
  | map h =>
    rw [dictionary?, unfold]
    · simp only [h]
      rfl
    · exact fun _ _ h => nomatch h
  | list h hpairs =>
    rw [dictionary?, unfold]
    · simp only [pairsOfItems, h, ← hpairs]
      rfl
    · exact fun _ _ h => nomatch h

end ComposeNix.Value
