import ComposeNix.Compose.Manifest
import Mathlib.Data.List.Nodup
import Mathlib.Data.List.Perm.Basic

/-!
# Rows without repetition

`Manifest.distinct` keeps of a row the first occurrence of everything in it.  So nothing is lost and
nothing stands twice (`mem_distinct`, `nodup_distinct`), and a row that grows at its end grows
only by what is new (`distinct_concat`, `distinct_append`).  These properties and the order in which
things first occur (`FirstOccurrences`) say all there is to say: `distinct_eq_of_pairwise`.  The
order is kept when the row is read off another one (`idxOf_filterMap_lt`).
-/

namespace ComposeNix.Manifest

theorem mem_distinct {x : String} {xs : List String} : x ∈ distinct xs ↔ x ∈ xs := by
  induction xs with
  | nil => rfl
  | cons y ys ih =>
    rw [distinct, List.mem_cons, List.mem_cons, List.mem_filter, ih, bne_iff_ne]
    constructor
    · rintro (rfl | ⟨h, -⟩)
      · exact Or.inl rfl
      · exact Or.inr h
    · intro h
      by_cases hx : x = y
      · exact Or.inl hx
      · exact Or.inr ⟨h.resolve_left hx, hx⟩

theorem nodup_distinct (xs : List String) : (distinct xs).Nodup := by
  induction xs with
  | nil => exact List.nodup_nil
  | cons x xs ih =>
    rw [distinct, List.nodup_cons, List.mem_filter, bne_self_eq_false]
    exact ⟨fun h => Bool.false_ne_true h.2, ih.filter _⟩

theorem distinct_concat (xs : List String) (x : String) :
    distinct (xs ++ [x]) = if x ∈ xs then distinct xs else distinct xs ++ [x] := by
  induction xs with
  | nil => rfl
  | cons y ys ih =>
    rw [List.cons_append, distinct, ih, distinct]
    by_cases hx : x = y
    · subst hx
      by_cases hmem : x ∈ ys
      · simp [hmem]
      · simp [hmem]
    · by_cases hmem : x ∈ ys
      · simp [hmem]
      · simp [hmem, hx]

theorem distinct_append (xs ys : List String) :
    distinct (xs ++ ys) = distinct xs ++ (distinct ys).filter (!xs.contains ·) := by
  induction xs with
  | nil => simp [distinct]
  | cons x xs ih =>
    have hnew : ((distinct ys).filter (!xs.contains ·)).filter (· != x)
        = (distinct ys).filter (!(x :: xs).contains ·) := by
      rw [List.filter_filter]
      refine List.filter_congr fun y _ => ?_
      rw [List.contains_cons, Bool.not_or]
      rfl
    rw [List.cons_append, distinct, distinct, ih, List.filter_append, hnew, List.cons_append]

theorem distinct_sublist (xs : List String) : (distinct xs).Sublist xs := by
  induction xs with
  | nil => exact List.Sublist.slnil
  | cons x xs ih => exact (List.filter_sublist.trans ih).cons_cons x

/-- Nothing is left out exactly if nothing stands twice. -/
theorem length_distinct_eq_iff {xs : List String} :
    (distinct xs).length = xs.length ↔ xs.Nodup := by
  constructor
  · intro h
    rw [← (distinct_sublist xs).eq_of_length h]
    exact nodup_distinct xs
  · intro h
    have hperm : (distinct xs).Perm xs :=
      (List.perm_ext_iff_of_nodup (nodup_distinct xs) h).mpr fun _ => mem_distinct
    exact hperm.length_eq

/-- What is kept stands in the order in which it first occurs. -/
theorem pairwise_idxOf_distinct (xs : List String) :
    (distinct xs).Pairwise fun a b => xs.idxOf a < xs.idxOf b := by
  induction xs with
  | nil => exact List.Pairwise.nil
  | cons x xs ih =>
    have hlater : ∀ {y}, y ≠ x → (x :: xs).idxOf y = xs.idxOf y + 1 := fun h =>
      List.idxOf_cons_ne xs (Ne.symm h)
    have hne : ∀ y ∈ (distinct xs).filter (· != x), y ≠ x := fun y hy =>
      bne_iff_ne.mp (List.mem_filter.mp hy).2
    rw [distinct, List.pairwise_cons]
    constructor
    · intro y hy
      rw [List.idxOf_cons_self, hlater (hne y hy)]
      exact Nat.succ_pos _
    · refine (ih.filter _).imp_of_mem fun ha hb hlt => ?_
      rw [hlater (hne _ ha), hlater (hne _ hb)]
      exact Nat.succ_lt_succ hlt

/-- What is asked of a row of first occurrences: it has what the other row has, each once, in the
order in which they first occur there. -/
structure FirstOccurrences (row found : List String) : Prop where
  nodup : found.Nodup
  mem : ∀ x, x ∈ found ↔ x ∈ row
  order : found.Pairwise fun a b => row.idxOf a < row.idxOf b

theorem firstOccurrences_distinct (xs : List String) : FirstOccurrences xs (distinct xs) where
  nodup := nodup_distinct xs
  mem _ := mem_distinct
  order := pairwise_idxOf_distinct xs

/-- A row of the same things in the order in which they first occur is what is kept. -/
theorem distinct_eq_of_pairwise {xs ys : List String} (hmem : ∀ y, y ∈ ys ↔ y ∈ xs)
    (horder : ys.Pairwise fun a b => xs.idxOf a < xs.idxOf b) : distinct xs = ys := by
  have hnodup : ys.Nodup := horder.imp fun hlt heq => by
    rw [heq] at hlt
    exact Nat.lt_irrefl _ hlt
  have hperm : (distinct xs).Perm ys :=
    (List.perm_ext_iff_of_nodup (nodup_distinct xs) hnodup).mpr fun y => by
      rw [mem_distinct, hmem]
  exact hperm.eq_of_pairwise (fun a b _ _ hab hba => absurd hba (Nat.lt_asymm hab))
    (pairwise_idxOf_distinct xs) horder

/-- What is read first is first in the row of what is read. -/
theorem idxOf_filterMap_lt {α : Type} {f : α → Option String} {a b : String} {xs : List α}
    (h : xs.findIdx (f · = some a) < xs.findIdx (f · = some b)) :
    (xs.filterMap f).idxOf a < (xs.filterMap f).idxOf b := by
  induction xs with
  | nil => exact absurd h (Nat.lt_irrefl 0)
  | cons x xs ih =>
    rw [List.findIdx_cons, List.findIdx_cons] at h
    cases hx : f x with
    | none =>
      rw [List.filterMap_cons_none hx]
      simp only [hx, reduceCtorEq, decide_false, cond_false] at h
      exact ih (Nat.lt_of_succ_lt_succ h)
    | some c =>
      rw [List.filterMap_cons_some hx]
      simp only [hx, Option.some.injEq] at h
      have hb : c ≠ b := fun hb => by simp [hb] at h
      rw [List.idxOf_cons_ne _ hb]
      by_cases ha : c = a
      · rw [ha, List.idxOf_cons_self]
        exact Nat.succ_pos _
      · simp only [ha, hb, decide_false, cond_false] at h
        rw [List.idxOf_cons_ne _ ha]
        exact Nat.succ_lt_succ (ih (Nat.lt_of_succ_lt_succ h))

end ComposeNix.Manifest
