import ComposeNix.Text.Split
import Mathlib.Data.List.Infix

/-!
# Beginnings of texts

A text begins with another one exactly if it is that one with something behind it
(`after?_eq_some_iff`).  Two beginnings are `Apart` if neither begins with the other; no text begins
with both of them (`after?_append_of_apart`).
-/

namespace ComposeNix.Text

theorem after?_eq_some_iff {lead s rest : String} :
    after? lead s = some rest ↔ s = lead ++ rest := by
  rw [after?, Option.map_eq_some_iff]
  constructor
  · rintro ⟨cs, hcs, rfl⟩
    rw [← String.toList_inj, String.toList_append, String.toList_ofList]
    exact (List.isPrefixOf?_eq_some_iff_append_eq.mp hcs).symm
  · rintro rfl
    refine ⟨rest.toList, ?_, String.ofList_toList⟩
    rw [String.toList_append]
    exact List.isPrefixOf?_eq_some_iff_append_eq.mpr rfl

theorem startsWith_iff {lead s : String} : startsWith lead s = true ↔ lead.toList <+: s.toList := by
  rw [startsWith, after?, Option.isSome_map, List.isSome_isPrefixOf?_eq_isPrefixOf,
    List.isPrefixOf_iff_prefix]

theorem after?_append (lead rest : String) : after? lead (lead ++ rest) = some rest :=
  after?_eq_some_iff.mpr rfl

theorem startsWith_append (lead rest : String) : startsWith lead (lead ++ rest) = true := by
  rw [startsWith, after?_append, Option.isSome_some]

/-- Two beginnings of which neither begins with the other. -/
def Apart (lead other : String) : Prop :=
  ¬ lead.toList <+: other.toList ∧ ¬ other.toList <+: lead.toList

instance (lead other : String) : Decidable (Apart lead other) :=
  inferInstanceAs (Decidable (_ ∧ _))

instance : Std.Symm Apart where
  symm _ _ h := And.symm h

theorem not_startsWith_append {lead other : String} (h : Apart lead other) (rest : String) :
    ¬ startsWith lead (other ++ rest) = true := by
  intro hlead
  have hother := startsWith_iff.mp (startsWith_append other rest)
  rcases List.prefix_or_prefix_of_prefix (startsWith_iff.mp hlead) hother with hprefix | hprefix
  · exact h.1 hprefix
  · exact h.2 hprefix

/-- A text with one beginning has nothing behind the other. -/
theorem after?_append_of_apart {lead other : String} (h : Apart lead other) (rest : String) :
    after? lead (other ++ rest) = none :=
  Option.not_isSome_iff_eq_none.mp (not_startsWith_append h rest)

/-- The texts with a beginning are those with something behind it. -/
theorem filter_startsWith (lead : String) (texts : List String) :
    texts.filter (startsWith lead) = (texts.filterMap (after? lead)).map (lead ++ ·) := by
  induction texts with
  | nil => rfl
  | cons s texts ih =>
    cases hs : after? lead s with
    | none =>
      rw [List.filter_cons_of_neg (by simp [startsWith, hs]), List.filterMap_cons_none hs, ih]
    | some rest =>
      rw [List.filter_cons_of_pos (by simp [startsWith, hs]), List.filterMap_cons_some hs,
        List.map_cons, ih, ← after?_eq_some_iff.mp hs]

/-- A text is known by its parts. -/
theorem splitAt_injective (mark : Char) : Function.Injective (splitAt mark) := by
  intro a b h
  have hparts : a.toList.splitOnP (· == mark) = b.toList.splitOnP (· == mark) :=
    List.map_injective_iff.mpr (fun _ _ => String.ofList_injective) h
  have hjoin (s : String) : [mark].intercalate (s.toList.splitOnP (· == mark)) = s.toList :=
    List.intercalate_splitOn mark
  rw [← String.toList_inj, ← hjoin a, ← hjoin b, hparts]

end ComposeNix.Text
