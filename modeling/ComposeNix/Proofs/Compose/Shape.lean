import ComposeNix.Compose.Manifest
import ComposeNix.Proofs.Compose.Written

/-!
# Shapes of fields

A field takes values of some shapes, and a value of any other shape is as good as none.  Its
`Shape` says which part of a value the field takes, if it takes any, which values in it are written
out, and which mappings in it are read as records.

`Shape.Reads` is what a reading owes to its shape.  The part that the field takes is read as the
whole value is; a value of which no part is taken is read as an absent field; and nothing is wrong
exactly if the records have texts with an encoding for keys and what is written out can be written
out.  For fields
that hold no records this comes down to `Shape.Writes`, and there is one theorem for each reading.
-/

namespace ComposeNix

/-! ## What can be wrong -/

/-- The cause lies in the text form of a key or of a number. -/
inductive Cause.AboutText : Cause → Prop
  | key : AboutText .keyNotText
  | tornKey : AboutText .notUnicode
  | number (fault : NumberFault) : AboutText (.unwritable fault)

/-- The keys of a record are texts that have an encoding. -/
def Entries.TextKeys (es : Entries) : Prop := ∀ e ∈ es, ∃ s, e.1 = .str s ∧ Text.isUnicode s

theorem Entries.keyIssues_eq_nil_iff {es : Entries} :
    es.keyIssues = [] ↔ ∀ e ∈ es, ∃ s, e.1 = .str s := by
  rw [keyIssues, List.filterMap_eq_nil_iff]
  refine forall₂_congr fun e _ => ?_
  obtain ⟨k, v⟩ := e
  cases k <;> simp [keyIssue?]

theorem Entries.aboutText_of_mem_keyIssues {es : Entries} {i : Issue} (h : i ∈ es.keyIssues) :
    i.cause.AboutText := by
  obtain ⟨⟨k, v⟩, -, hi⟩ := List.mem_filterMap.mp h
  cases k with
  | str s => cases hi
  | _ =>
    obtain rfl := Option.some.inj hi
    exact .key

/-- Whether a key has no encoding can only be asked of a text. -/
theorem Entries.textKeys_iff {es : Entries} :
    es.TextKeys ↔ es.any hasTornKey = false ∧ es.keyIssues = [] := by
  have htorn : ∀ e : Value × Value, (∃ s, e.1 = .str s ∧ Text.isUnicode s)
      ↔ ¬ hasTornKey e ∧ ∃ s, e.1 = .str s := by
    rintro ⟨k, v⟩
    cases k <;> simp [hasTornKey]
  simp only [TextKeys, htorn, keyIssues_eq_nil_iff, List.any_eq_false, forall_and]

namespace Checked

variable {α β : Type}

@[simp] theorem issues_map (f : α → β) (c : Checked α) : (f <$> c).issues = c.issues := rfl

@[simp] theorem value_seq (f : Checked (α → β)) (c : Checked α) :
    (f <*> c).value = f.value c.value := rfl

@[simp] theorem issues_seq (f : Checked (α → β)) (c : Checked α) :
    (f <*> c).issues = f.issues ++ c.issues := rfl

@[simp] theorem issues_also (c : Checked α) (more : List Issue) :
    (c.also more).issues = c.issues ++ more := rfl

@[simp] theorem issues_pure (a : α) : (pure a : Checked α).issues = [] := rfl

/-- A record is in order if its fields and its keys are. -/
theorem issues_withKeys_eq_nil_iff {es : Entries} {c : Checked α} :
    (es.withKeys c).issues = [] ↔ c.issues = [] ∧ es.TextKeys := by
  rw [Entries.textKeys_iff, Entries.withKeys]
  cases es.any Entries.hasTornKey with
  | true => simp [issue]
  | false => simp

/-- Nothing is told about a record with keys in order but what is told about its fields. -/
theorem withKeys_of_textKeys {es : Entries} (h : es.TextKeys) (c : Checked α) :
    es.withKeys c = c := by
  obtain ⟨htorn, hkeys⟩ := Entries.textKeys_iff.mp h
  rw [Entries.withKeys, htorn, hkeys, if_neg Bool.false_ne_true, also, List.append_nil]

theorem aboutText_withKeys {es : Entries} {c : Checked α}
    (h : ∀ i ∈ c.issues, i.cause.AboutText) :
    ∀ i ∈ (es.withKeys c).issues, i.cause.AboutText := by
  intro i hi
  rw [Entries.withKeys] at hi
  split at hi
  · obtain rfl := List.mem_singleton.mp hi
    exact .tornKey
  · rcases List.mem_append.mp hi with hi | hi
    · exact h i hi
    · exact Entries.aboutText_of_mem_keyIssues hi

theorem result_of_issues_eq_nil {c : Checked α} (model : String) (h : c.issues = []) :
    c.result model = .ok c.value := by
  rw [result, h]
  rfl

theorem result_of_issues_ne_nil {c : Checked α} (model : String) (h : c.issues ≠ []) :
    c.result model = .error ⟨model, c.issues⟩ := by
  rw [result, List.isEmpty_eq_false_iff.mpr h]
  rfl

theorem issues_all (cs : List (Checked α)) : (all cs).issues = cs.flatMap (·.issues) := by
  induction cs with
  | nil => rfl
  | cons c cs ih => rw [all, ih, List.flatMap_cons]

/-- The same value, and in order if the other reading is. -/
structure Within (c c' : Checked α) : Prop where
  value : c.value = c'.value
  issues : c'.issues = [] → c.issues = []

namespace Within

variable {c c' : Checked α}

theorem rfl : c.Within c := ⟨Eq.refl _, id⟩

/-- A reading of which nothing is left but its value. -/
theorem pure {a : α} (h : c.value = a) : (Pure.pure a : Checked α).Within c :=
  ⟨h.symm, fun _ => Eq.refl _⟩

theorem map (f : α → β) (h : c.Within c') : (f <$> c).Within (f <$> c') :=
  ⟨congrArg f h.value, h.issues⟩

theorem seq {f f' : Checked (α → β)} (hf : f.Within f') (h : c.Within c') :
    (f <*> c).Within (f' <*> c') where
  value := by rw [value_seq, value_seq, hf.value, h.value]
  issues hnil := by
    obtain ⟨hf', h'⟩ := List.append_eq_nil_iff.mp hnil
    exact List.append_eq_nil_iff.mpr ⟨hf.issues hf', h.issues h'⟩

theorem under (step : String) (h : c.Within c') : (c.under step).Within (c'.under step) :=
  ⟨h.value, fun hnil => List.map_eq_nil_iff.mpr (h.issues (List.map_eq_nil_iff.mp hnil))⟩

theorem all {f g : β → Checked α} {xs : List β} (h : ∀ x ∈ xs, (f x).Within (g x)) :
    (all (xs.map f)).Within (all (xs.map g)) := by
  induction xs with
  | nil => exact .rfl
  | cons x xs ih =>
    obtain ⟨hx, hxs⟩ := List.forall_mem_cons.mp h
    -- The row is its first reading, with the others behind.
    exact (hx.map List.cons).seq (ih hxs)

end Within

/-- A reading in which the text form is all that can go wrong. -/
def ofWriting (absent : α) : Except NumberFault α → Checked α
  | .ok a => Pure.pure a
  | .error fault => .issue absent [] (.unwritable fault)

end Checked

/-! ## Shapes -/

/-- What a field makes of a value. -/
structure Shape where
  /-- The part of the value that it takes, if any. -/
  part : Value → Option Value
  /-- The values that it writes out. -/
  written : Value → List Value
  /-- The mappings that it reads as records. -/
  records : Value → List Entries

namespace Shape

variable {α β : Type} {σ : Shape} {absent : α}

/-- What the reading of a field owes to its shape. -/
structure Reads (σ : Shape) (absent : α) (read : Value → Checked α) : Prop where
  part : ∀ {v w}, σ.part v = some w → (read w).Within (read v)
  absent : ∀ {v}, σ.part v = none → (read v).value = absent
  issues : ∀ v, (read v).issues = []
    ↔ (∀ es ∈ σ.records v, es.TextKeys) ∧ ∀ w ∈ σ.written v, w.Writable
  causes : ∀ v, ∀ i ∈ (read v).issues, i.cause.AboutText

/-- What the reading of a field without records owes to its shape. -/
structure Writes (σ : Shape) (absent : α) (read : Value → Except NumberFault α) : Prop where
  part : ∀ {v w}, σ.part v = some w → read w = read v
  absent : ∀ {v a}, σ.part v = none → read v = .ok a → a = absent
  succeeds : ∀ v, Succeeds (read v) ↔ ∀ w ∈ σ.written v, w.Writable
  records : ∀ v, σ.records v = []

namespace Writes

variable {read : Value → Except NumberFault α}

theorem map (f : α → β) (h : σ.Writes absent read) :
    σ.Writes (f absent) fun v => (read v).map f where
  part hw := by rw [h.part hw]
  absent {v b} hv hb := by
    obtain ⟨a, hread, rfl⟩ := map_eq_ok_iff.mp hb
    rw [h.absent hv hread]
  succeeds v := succeeds_map.trans (h.succeeds v)
  records := h.records

theorem reads (h : σ.Writes absent read) :
    σ.Reads absent fun v => .ofWriting absent (read v) where
  part hw := by
    rw [h.part hw]
    exact .rfl
  absent {v} hv := by
    cases hread : read v with
    | error fault => rfl
    | ok a => exact h.absent hv hread
  issues v := by
    rw [h.records v, ← h.succeeds v]
    cases read v <;> simp [Checked.ofWriting, Checked.issue]
  causes v i hi := by
    cases hread : read v with
    | error fault =>
      rw [hread] at hi
      obtain rfl := List.mem_singleton.mp hi
      exact .number fault
    | ok a =>
      rw [hread] at hi
      exact absurd hi List.not_mem_nil

end Writes

/-- The shape of a field without records. -/
def leaf (part : Value → Option Value) (written : Value → List Value) : Shape :=
  ⟨part, written, fun _ => []⟩

/-- The value itself, if it is a scalar other than null. -/
def text? (v : Value) : Option Value := if v.isText then some v else none

theorem text?_eq_some {v w : Value} (h : text? v = some w) : v.isText = true ∧ v = w := by
  rw [text?] at h
  split at h
  · next hv => exact ⟨hv, Option.some.inj h⟩
  · cases h

theorem scalarText?_of_text?_eq_none {v : Value} (h : text? v = none) :
    v.scalarText? = .ok none := by
  rw [text?] at h
  rw [Value.scalarText?_eq]
  split at h
  · cases h
  · next hv => exact if_neg hv

/-- One scalar. -/
def scalar : Shape := leaf text? fun v => [v].filter Value.isText

theorem writes_scalar : scalar.Writes none Value.scalarText? where
  part {v w} h := by rw [(text?_eq_some h).2]
  absent {v a} h ha := by
    rw [scalarText?_of_text?_eq_none h] at ha
    exact (Except.ok.inj ha).symm
  succeeds v := Value.succeeds_scalarText?
  records _ := rfl

/-- The scalars of a list. -/
def listed (items : List Value) : Value := .list (items.filter Value.isText)

/-- A list, or one scalar. -/
def texts : Shape :=
  leaf
    (fun v => match v.unfold with
      | .list items => some (listed items)
      | u => text? u)
    fun v => match v.unfold with
      | .list items => items.filter Value.isText
      | u => [u].filter Value.isText

theorem texts?_of_ne_list {v : Value} (h : ∀ items, v.unfold ≠ .list items) :
    v.texts? = v.unfold.scalarText?.map (Option.map fun s => [s]) := by
  rw [Value.texts?]
  split
  · next items hv => exact absurd hv (h items)
  · cases v.unfold.scalarText? with
    | error fault => rfl
    | ok s? => cases s? <;> rfl

theorem writes_texts : texts.Writes none Value.texts? where
  part {v w} h := by
    simp only [texts, leaf] at h
    split at h
    · next items hv =>
      obtain rfl := Option.some.inj h
      simp [Value.texts?, hv, listed]
    · next hv =>
      obtain ⟨htext, rfl⟩ := text?_eq_some h
      simp only [Value.texts?, Value.unfold_of_isText htext]
  absent {v a} h ha := by
    simp only [texts, leaf] at h
    split at h
    · cases h
    · next hv =>
      rw [texts?_of_ne_list hv, scalarText?_of_text?_eq_none h] at ha
      exact (Except.ok.inj ha).symm
  succeeds v := by
    simp only [texts, leaf]
    split
    · next items hv =>
      rw [Value.texts?, hv]
      exact succeeds_map.trans Value.succeeds_itemTexts
    · next hv =>
      rw [texts?_of_ne_list hv]
      exact succeeds_map.trans Value.succeeds_scalarText?
  records _ := rfl

/-- A list, or a mapping for its keys. -/
def names : Shape :=
  leaf
    (fun v => match v.unfold with
      | .list items => some (listed items)
      | .map es => some (.map es)
      | _ => none)
    fun v => match v.unfold with
      | .list items => items.filter Value.isText
      | .map es => es.map Prod.fst
      | _ => []

theorem writes_names : names.Writes none Value.names? where
  part {v w} h := by
    simp only [names, leaf] at h
    cases hv : v.unfold with
    | list items =>
      rw [hv] at h
      obtain rfl := Option.some.inj h
      simp [Value.names?, hv, listed]
    | map es =>
      rw [hv] at h
      obtain rfl := Option.some.inj h
      simp [Value.names?, hv]
    | _ =>
      rw [hv] at h
      cases h
  absent {v a} h ha := by
    simp only [names, leaf] at h
    simp only [Value.names?] at ha
    cases hv : v.unfold with
    | list _ | map _ =>
      rw [hv] at h
      cases h
    | _ =>
      rw [hv] at ha
      exact (Except.ok.inj ha).symm
  succeeds v := by
    simp only [names, leaf, Value.names?]
    cases v.unfold with
    | list items => exact succeeds_map.trans Value.succeeds_itemTexts
    | map es => exact succeeds_map.trans Value.succeeds_keyTexts
    | _ => simp
  records _ := rfl

/-- A list of settings, or a mapping for its entries with a scalar for a value. -/
def dictionary : Shape :=
  leaf
    (fun v => match v.unfold with
      | .list items => some (listed items)
      | .map es => some (.map (es.filter fun e => e.2.isScalar))
      | _ => none)
    fun v => match v.unfold with
      | .list items => items.filter Value.isText
      | .map es => (es.filter fun e => e.2.isScalar).flatMap fun e => [e.1, e.2]
      | _ => []

theorem writes_dictionary : dictionary.Writes none Value.dictionary? where
  part {v w} h := by
    simp only [dictionary, leaf] at h
    cases hv : v.unfold with
    | list items =>
      rw [hv] at h
      obtain rfl := Option.some.inj h
      simp [Value.dictionary?, Value.pairsOfItems, hv, listed]
    | map es =>
      rw [hv] at h
      obtain rfl := Option.some.inj h
      simp [Value.dictionary?, hv]
    | _ =>
      rw [hv] at h
      cases h
  absent {v a} h ha := by
    simp only [dictionary, leaf] at h
    simp only [Value.dictionary?] at ha
    cases hv : v.unfold with
    | list _ | map _ =>
      rw [hv] at h
      cases h
    | _ =>
      rw [hv] at ha
      exact (Except.ok.inj ha).symm
  succeeds v := by
    simp only [dictionary, leaf, Value.dictionary?]
    cases v.unfold with
    | list items => exact succeeds_map.trans (succeeds_map.trans Value.succeeds_itemTexts)
    | map es => exact succeeds_map.trans Value.succeeds_entryTexts
    | _ => simp
  records _ := rfl

/-- One text, or a list of words. -/
def command : Shape :=
  leaf
    (fun v => match v.unfold with
      | .str s => some (.str s)
      | .list items => some (listed items)
      | _ => none)
    fun v => match v.unfold with
      | .list items => items.filter Value.isText
      | _ => []

theorem writes_command : command.Writes none Value.command? where
  part {v w} h := by
    simp only [command, leaf] at h
    cases hv : v.unfold with
    | str s =>
      rw [hv] at h
      obtain rfl := Option.some.inj h
      simp [Value.command?, hv]
    | list items =>
      rw [hv] at h
      obtain rfl := Option.some.inj h
      simp [Value.command?, hv, listed]
    | _ =>
      rw [hv] at h
      cases h
  absent {v a} h ha := by
    simp only [command, leaf] at h
    simp only [Value.command?] at ha
    cases hv : v.unfold with
    | str _ | list _ =>
      rw [hv] at h
      cases h
    | _ =>
      rw [hv] at ha
      exact (Except.ok.inj ha).symm
  succeeds v := by
    simp only [command, leaf, Value.command?]
    cases v.unfold with
    | str s => simp
    | list items => exact succeeds_map.trans Value.succeeds_itemTexts
    | _ => simp
  records _ := rfl

/-- A list of ports or mounts, whose long form writes out these values. -/
def rows (written : Entries → List Value) : Shape :=
  leaf (fun v => v.items?.map fun items => .list (items.filter isEntry)) fun v =>
    (v.items?.getD []).flatMap (entryWritten written)

theorem writes_rows {long : Entries → Except NumberFault (Option String)}
    {written : Entries → List Value}
    (hlong : ∀ es, Succeeds (long es) ↔ ∀ w ∈ written es, w.Writable) :
    (rows written).Writes none (longList? long) where
  part {v w} h := by
    obtain ⟨items, hitems, rfl⟩ := Option.map_eq_some_iff.mp h
    rw [longList?, longList?, hitems]
    exact congrArg (Except.map some) (rows_filter long items)
  absent {v a} h ha := by
    rw [longList?, Option.map_eq_none_iff.mp h] at ha
    exact (Except.ok.inj ha).symm
  succeeds v := by
    simp only [rows, leaf, longList?]
    cases v.items? with
    | none => simp
    | some items => exact succeeds_map.trans (succeeds_rows hlong)
  records _ := rfl

/-- A list of words, or one scalar. -/
def words : Shape :=
  leaf
    (fun v => match v.items? with
      | some items => some (listed items)
      | none => text? v)
    fun v => match v.items? with
      | some items => items.filter Value.isText
      | none => [v].filter Value.isText

theorem writes_words : words.Writes none testCommand? where
  part {v w} h := by
    simp only [words, leaf] at h
    cases hitems : v.items? with
    | some items =>
      rw [hitems] at h
      obtain rfl := Option.some.inj h
      have hlisted : (listed items).items? = some (items.filter Value.isText) := rfl
      simp [testCommand?, hitems, hlisted]
    | none =>
      rw [hitems] at h
      rw [(text?_eq_some h).2]
  absent {v a} h ha := by
    simp only [words, leaf] at h
    cases hitems : v.items? with
    | some items =>
      rw [hitems] at h
      cases h
    | none =>
      rw [hitems] at h
      rw [testCommand?, hitems, scalarText?_of_text?_eq_none h] at ha
      exact (Except.ok.inj ha).symm
  succeeds v := by
    simp only [words, leaf, testCommand?]
    cases v.items? with
    | some items => exact succeeds_bind_pure.trans Value.succeeds_itemTexts
    | none => exact Value.succeeds_scalarText?
  records _ := rfl

/-- A value that may say yes, as a collection does not. -/
def flag : Shape := leaf (fun v => if v.unfold.isCollection then none else some v) fun v => [v]

theorem writes_flag : flag.Writes false isYes where
  part {v w} h := by
    simp only [flag, leaf] at h
    split at h
    · cases h
    · obtain rfl := Option.some.inj h
      rfl
  absent {v a} h ha := by
    simp only [flag, leaf] at h
    split at h
    · next hv => exact eq_false_of_isYes hv ha
    · cases h
  succeeds v := by
    rw [succeeds_isYes]
    simp [flag, leaf]
  records _ := rfl

end Shape
end ComposeNix
