import ComposeNix.Proofs.Compose.Shape
import Mathlib.Data.List.Nodup

/-!
# Records and their fields

A record is described by the table of its fields: for every key that it knows, the shape of the
value there.  `Table.keep` leaves of a mapping what is under these keys and has these shapes.

A reading that puts together what it reads under each key (`Table.Reads`) cannot tell a mapping
from what is kept of it, as long as the keys are different.  It complains of the fields that it
reads and of nothing else.  With the check on the keys themselves it reads a record
(`Table.Describes`), and such a record is again the shape of a field.
-/

namespace ComposeNix

variable {α β : Type}

/-! ## Tables -/

/-- The fields of a record: keys, and the shapes of the values under them. -/
abbrev Table := List (String × Shape)

namespace Table

/-- What a record with these fields makes use of. -/
def keep (T : Table) (es : Entries) : Entries :=
  T.filterMap fun f => ((Value.lookup f.1 es).bind f.2.part).map fun v => (.str f.1, v)

/-- The values that the fields write out. -/
def written (T : Table) (es : Entries) : List Value :=
  T.flatMap fun f => ((Value.lookup f.1 es).map f.2.written).getD []

/-- The mappings that the fields read as records. -/
def records (T : Table) (es : Entries) : List Entries :=
  T.flatMap fun f => ((Value.lookup f.1 es).map f.2.records).getD []

theorem written_append (fs gs : Table) (es : Entries) :
    written (fs ++ gs) es = written fs es ++ written gs es := List.flatMap_append

theorem records_append (fs gs : Table) (es : Entries) :
    records (fs ++ gs) es = records fs es ++ records gs es := List.flatMap_append

theorem textKeys_keep {T : Table} (hT : ∀ f ∈ T, Text.isUnicode f.1) (es : Entries) :
    (T.keep es).TextKeys := by
  intro e he
  obtain ⟨f, hf, he⟩ := List.mem_filterMap.mp he
  obtain ⟨v, -, rfl⟩ := Option.map_eq_some_iff.mp he
  exact ⟨f.1, rfl, hT f hf⟩

theorem keep_cons (f : String × Shape) (T : Table) (es : Entries) :
    keep (f :: T) es = match (Value.lookup f.1 es).bind f.2.part with
      | none => keep T es
      | some v => (.str f.1, v) :: keep T es := by
  rw [keep, List.filterMap_cons]
  cases (Value.lookup f.1 es).bind f.2.part <;> rfl

theorem lookup_keep_of_notMem {T : Table} {key : String} (h : key ∉ T.map Prod.fst)
    (es : Entries) : Value.lookup key (T.keep es) = none := by
  induction T with
  | nil => rfl
  | cons f T ih =>
    rw [List.map_cons, List.mem_cons, not_or] at h
    rw [keep_cons]
    split
    · exact ih h.2
    · rw [Value.lookup, if_neg (Ne.symm h.1)]
      exact ih h.2

/-- Under the key of a field stands what the field takes. -/
theorem lookup_keep {T : Table} (hT : (T.map Prod.fst).Nodup) {f : String × Shape} (hf : f ∈ T)
    (es : Entries) : Value.lookup f.1 (T.keep es) = (Value.lookup f.1 es).bind f.2.part := by
  induction T with
  | nil => exact absurd hf List.not_mem_nil
  | cons g T ih =>
    obtain ⟨hg, hT⟩ := List.nodup_cons.mp hT
    rw [keep_cons]
    rcases List.mem_cons.mp hf with rfl | hf
    · cases hpart : (Value.lookup f.1 es).bind f.2.part with
      | none => exact lookup_keep_of_notMem hg es
      | some v => exact if_pos rfl
    · have hne : g.1 ≠ f.1 := fun heq => hg (List.mem_map.mpr ⟨f, hf, heq.symm⟩)
      split
      · exact ih hT hf
      · rw [Value.lookup, if_neg hne]
        exact ih hT hf

end Table

/-! ## Reading under a key -/

namespace Entries

/-- The reading of the value under a key, which may be missing. -/
def under? (key : String) (absent : α) (read : Value → Checked α) (es : Entries) : Checked α :=
  match Value.lookup key es with
  | none => pure absent
  | some v => (read v).under key

theorem field_eq (key : String) (absent : α) (read : Value → Except NumberFault α)
    (es : Entries) :
    es.field key absent read = es.under? key absent fun v => .ofWriting absent (read v) := by
  rw [field, under?]
  cases Value.lookup key es with
  | none => rfl
  | some v => cases hread : read v <;> simp only [hread] <;> rfl

/-- The reading of a record, which any value but a mapping leaves absent. -/
def recordOf? (read : Entries → Checked α) (v : Value) : Checked (Option α) :=
  match v.entries? with
  | none => pure none
  | some es => some <$> read es

theorem recordOf?_of_eq_none {read : Entries → Checked α} {v : Value} (h : v.entries? = none) :
    recordOf? read v = pure none := by rw [recordOf?, h]

theorem recordOf?_of_eq_some {read : Entries → Checked α} {v : Value} {es : Entries}
    (h : v.entries? = some es) : recordOf? read v = some <$> read es := by rw [recordOf?, h]

theorem record?_eq (key : String) (read : Entries → Checked α) (es : Entries) :
    es.record? key read = es.under? key none (recordOf? read) := by
  rw [record?, under?]
  cases Value.lookup key es with
  | none => rfl
  | some v =>
    simp only [Option.bind_some, recordOf?]
    cases v.entries? <;> rfl

end Entries

namespace Checked

@[simp] theorem issues_under_eq_nil {step : String} {c : Checked α} :
    (c.under step).issues = [] ↔ c.issues = [] := List.map_eq_nil_iff

theorem aboutText_under {step : String} {c : Checked α}
    (h : ∀ i ∈ c.issues, i.cause.AboutText) : ∀ i ∈ (c.under step).issues, i.cause.AboutText := by
  intro i hi
  obtain ⟨i', hi', rfl⟩ := List.mem_map.mp hi
  exact h i' hi'

end Checked

/-! ## Reading some fields -/

namespace Table

/-- What a reading owes to the fields that it reads. -/
structure Reads (fs : Table) (read : Entries → Checked α) : Prop where
  keep : ∀ {T : Table}, (T.map Prod.fst).Nodup → fs ⊆ T → ∀ es, (read (T.keep es)).Within (read es)
  issues : ∀ es, (read es).issues = []
    ↔ (∀ r ∈ fs.records es, r.TextKeys) ∧ ∀ w ∈ fs.written es, w.Writable
  causes : ∀ es, ∀ i ∈ (read es).issues, i.cause.AboutText

namespace Reads

variable {fs gs : Table} {key : String} {σ : Shape} {absent : α}

theorem under? {read : Value → Checked α} (h : σ.Reads absent read) (key : String) :
    Reads [(key, σ)] fun es => es.under? key absent read where
  keep hT hkey es := by
    simp only [Entries.under?]
    rw [lookup_keep hT (hkey List.mem_cons_self)]
    cases Value.lookup key es with
    | none => exact .rfl
    | some v =>
      cases hv : σ.part v with
      | none =>
        simp only [Option.bind_some, hv]
        exact .pure (h.absent hv)
      | some w =>
        simp only [Option.bind_some, hv]
        exact (h.part hv).under key
  issues es := by
    simp only [Entries.under?, records, written, List.flatMap_singleton]
    cases Value.lookup key es with
    | none => simp
    | some v => simpa using h.issues v
  causes es := by
    simp only [Entries.under?]
    cases Value.lookup key es with
    | none => simp
    | some v => exact Checked.aboutText_under (h.causes v)

theorem field {read : Value → Except NumberFault α} (h : σ.Writes absent read) (key : String) :
    Reads [(key, σ)] fun es => es.field key absent read := by
  simp only [Entries.field_eq]
  exact under? h.reads key

theorem map {read : Entries → Checked α} (h : Reads fs read) (f : α → β) :
    Reads fs fun es => f <$> read es where
  keep hT hfs es := (h.keep hT hfs es).map f
  issues := h.issues
  causes := h.causes

theorem seq {f : Entries → Checked (α → β)} {x : Entries → Checked α} (hf : Reads fs f)
    (hx : Reads gs x) : Reads (fs ++ gs) fun es => f es <*> x es where
  keep hT h es := by
    obtain ⟨hfs, hgs⟩ := List.append_subset.mp h
    exact (hf.keep hT hfs es).seq (hx.keep hT hgs es)
  issues es := by
    rw [Checked.issues_seq, List.append_eq_nil_iff, hf.issues, hx.issues,
      records_append, written_append, List.forall_mem_append, List.forall_mem_append]
    exact and_and_and_comm
  causes es i hi := by
    rcases List.mem_append.mp hi with hi | hi
    · exact hf.causes es i hi
    · exact hx.causes es i hi

end Reads

/-! ## Reading a record -/

/-- What the reading of a record owes to the table of its fields. -/
structure Describes (T : Table) (read : Entries → Checked α) : Prop where
  keep : ∀ es, (read (T.keep es)).Within (read es)
  issues : ∀ es, (read es).issues = []
    ↔ (∀ r ∈ es :: T.records es, r.TextKeys) ∧ ∀ w ∈ T.written es, w.Writable
  causes : ∀ es, ∀ i ∈ (read es).issues, i.cause.AboutText

/-- A record is read field by field, and its keys are looked at. -/
theorem Reads.describes {T : Table} {read : Entries → Checked α} (h : T.Reads read)
    (hT : (T.map Prod.fst).Nodup) (hkeys : ∀ f ∈ T, Text.isUnicode f.1) :
    T.Describes fun es => es.withKeys (read es) where
  keep es := by
    obtain ⟨hvalue, hissues⟩ := h.keep hT (List.Subset.refl T) es
    rw [Checked.withKeys_of_textKeys (textKeys_keep hkeys es)]
    exact ⟨hvalue.trans (Entries.value_withKeys es _).symm,
      fun hnil => hissues (Checked.issues_withKeys_eq_nil_iff.mp hnil).1⟩
  issues es := by
    rw [List.forall_mem_cons, and_assoc, ← h.issues, Checked.issues_withKeys_eq_nil_iff, and_comm]
  causes es := Checked.aboutText_withKeys (h.causes es)

end Table

/-- A mapping that is read as a record with these fields. -/
def Shape.record (T : Table) : Shape where
  part v := v.entries?.map fun es => .map (T.keep es)
  written v := (v.entries?.map T.written).getD []
  records v := (v.entries?.map fun es => es :: T.records es).getD []

namespace Table

variable {T : Table} {read : Entries → Checked α}

theorem Describes.reads (h : T.Describes read) :
    (Shape.record T).Reads none (Entries.recordOf? read) where
  part {v w} hw := by
    obtain ⟨es, hes, rfl⟩ := Option.map_eq_some_iff.mp hw
    rw [Entries.recordOf?_of_eq_some hes]
    exact (h.keep es).map some
  absent {v} hv := by
    rw [Entries.recordOf?_of_eq_none (Option.map_eq_none_iff.mp hv)]
    rfl
  issues v := by
    simp only [Entries.recordOf?, Shape.record]
    cases v.entries? with
    | none => simp
    | some es => exact h.issues es
  causes v := by
    simp only [Entries.recordOf?]
    cases v.entries? with
    | none => simp
    | some es => exact h.causes es

theorem Describes.record? (h : T.Describes read) (key : String) :
    Reads [(key, .record T)] fun es => es.record? key read := by
  simp only [Entries.record?_eq]
  exact Reads.under? h.reads key

end Table
end ComposeNix
