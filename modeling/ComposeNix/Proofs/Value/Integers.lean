import ComposeNix.Proofs.Compose.Written

/-!
# The integers that a value writes out

A value is written out with everything in it, except that a collection that stands inside itself is
cut short with an ellipsis.  So the integers that are written are those on the way down to the first
such place (`Value.writtenIntegers`), and a value can be written out exactly if all of them are
short enough (`Value.writable_iff`).
-/

namespace ComposeNix.Value

mutual

/-- The integers that a value writes out inside the collections `around`. -/
def integersIn (around : List Nat) : Value → List Int
  | .int n => [n]
  | .list items => integersInAll around items
  | .map entries => integersInEntries around entries
  | .set members => integersInAll around members
  | .pair first second => integersIn around first ++ integersIn around second
  | .cyclic node body => if node ∈ around then [] else integersIn (node :: around) body
  | _ => []
termination_by structural v => v

/-- The integers that a row of values writes out. -/
def integersInAll (around : List Nat) : List Value → List Int
  | [] => []
  | v :: vs => integersIn around v ++ integersInAll around vs
termination_by structural vs => vs

/-- The integers that a row of entries writes out. -/
def integersInEntries (around : List Nat) : List (Value × Value) → List Int
  | [] => []
  | e :: es => integersInEntry around e ++ integersInEntries around es
termination_by structural es => es

/-- The integers that the key and the value of an entry write out. -/
def integersInEntry (around : List Nat) : Value × Value → List Int
  | (k, v) => integersIn around k ++ integersIn around v
termination_by structural e => e

end

/-- The integers that a value writes out. -/
def writtenIntegers (v : Value) : List Int := integersIn [] v

/-- A collection is cut short if it is one of those around. -/
theorem lookup_eq_none_iff_notMem {around : List (Nat × String)} {node : Nat} :
    around.lookup node = none ↔ node ∉ around.map Prod.fst := by
  rw [List.lookup_eq_none_iff, List.mem_map]
  simp only [bne_iff_ne, ne_eq, not_exists, not_and]
  exact ⟨fun h e he heq => h e he heq.symm, fun h e he heq => h e he heq.symm⟩

mutual

/-- An integer that is written is all that stands in the way of a literal. -/
theorem succeeds_literalIn_iff (around : List (Nat × String)) : ∀ v : Value,
    Succeeds (literalIn around v)
      ↔ ∀ n ∈ integersIn (around.map Prod.fst) v, Succeeds (writeInteger n)
  | .null | .bool _ | .float _ | .str _ | .bytes _ | .time _ | .back _ => by
    simp [literalIn, integersIn]
  | .int n => by simp [literalIn, integersIn]
  | .list items => by
    rw [literalIn, integersIn, ← succeeds_literalsIn_iff around items]
    exact succeeds_bind_pure
  | .map entries => by
    rw [literalIn, integersIn, ← succeeds_entriesIn_iff around entries]
    exact succeeds_bind_pure
  | .set members => by
    rw [literalIn, integersIn, ← succeeds_literalsIn_iff around members]
    exact succeeds_bind_pure
  | .pair first second => by
    rw [literalIn, integersIn, List.forall_mem_append, ← succeeds_literalIn_iff around first,
      ← succeeds_literalIn_iff around second]
    exact succeeds_bind fun _ => succeeds_bind_pure
  | .cyclic node body => by
    rw [literalIn, integersIn]
    by_cases hmem : node ∈ around.map Prod.fst
    · obtain ⟨dots, hdots⟩ := Option.ne_none_iff_exists'.mp fun hnone =>
        lookup_eq_none_iff_notMem.mp hnone hmem
      simp [hdots, hmem]
    · rw [lookup_eq_none_iff_notMem.mpr hmem, if_neg hmem]
      exact succeeds_literalIn_iff ((node, ellipsis body) :: around) body
termination_by structural v => v

theorem succeeds_literalsIn_iff (around : List (Nat × String)) : ∀ vs : List Value,
    Succeeds (literalsIn around vs)
      ↔ ∀ n ∈ integersInAll (around.map Prod.fst) vs, Succeeds (writeInteger n)
  | [] => by simp [literalsIn, integersInAll]
  | v :: vs => by
    rw [literalsIn, integersInAll, List.forall_mem_append, ← succeeds_literalIn_iff around v,
      ← succeeds_literalsIn_iff around vs]
    exact succeeds_bind fun _ => succeeds_bind_pure
termination_by structural vs => vs

theorem succeeds_entriesIn_iff (around : List (Nat × String)) : ∀ es : List (Value × Value),
    Succeeds (entriesIn around es)
      ↔ ∀ n ∈ integersInEntries (around.map Prod.fst) es, Succeeds (writeInteger n)
  | [] => by simp [entriesIn, integersInEntries]
  | e :: es => by
    rw [entriesIn, integersInEntries, List.forall_mem_append, ← succeeds_entryIn_iff around e,
      ← succeeds_entriesIn_iff around es]
    exact succeeds_bind fun _ => succeeds_bind_pure
termination_by structural es => es

theorem succeeds_entryIn_iff (around : List (Nat × String)) : ∀ e : Value × Value,
    Succeeds (entryIn around e)
      ↔ ∀ n ∈ integersInEntry (around.map Prod.fst) e, Succeeds (writeInteger n)
  | (k, v) => by
    rw [entryIn, integersInEntry, List.forall_mem_append, ← succeeds_literalIn_iff around k,
      ← succeeds_literalIn_iff around v]
    exact succeeds_bind fun _ => succeeds_bind_pure
termination_by structural e => e

end

/-- A value can be written out exactly if no integer that it writes is too long. -/
theorem writable_iff {v : Value} : v.Writable
    ↔ ∀ n ∈ v.writtenIntegers, (Nat.toDigits 10 n.natAbs).length ≤ digitLimit := by
  have hliteral : Succeeds v.literal
      ↔ ∀ n ∈ v.writtenIntegers, (Nat.toDigits 10 n.natAbs).length ≤ digitLimit :=
    (succeeds_literalIn_iff [] v).trans (forall₂_congr fun _ _ => succeeds_writeInteger)
  cases v with
  | null | bool _ | str _ | time _ => simp [Writable, plainText, text, writtenIntegers, integersIn]
  | _ => exact hliteral

end ComposeNix.Value
