import ComposeNix.Conversion
import ComposeNix.Proofs.Compose.Written
import ComposeNix.Proofs.Value.Forms
import ComposeNix.Proofs.Value.Lookup
import Mathlib.Data.List.Forall2

/-!
# The two spellings of a service

The variables, the labels and the kernel settings of a service are texts under texts, and each of
these fields is a mapping or a list of `KEY=value` texts.  `Value.listForm` is the list that says
what a mapping says; unless a key has an equals sign, both are read alike, down to the order of the
keys and to what becomes of two that are written in the same way (`dictionary?_listForm`).

So a service may be spelled in any mixture of the two forms (`Respelled`), and nothing that is made
of it tells which: `read_of_respelled`.
-/

namespace ComposeNix

/-! ## Spelling a field -/

namespace Value

/-- What a mapping says as a list: the entries with a scalar for a value, as `KEY=value` texts. -/
def listForm (es : Entries) : Except NumberFault (List String) :=
  (es.filter fun e => e.2.isScalar).mapM fun e => do
    let key ← e.1.plainText
    let value ← e.2.plainText
    return key ++ "=" ++ value

/-- No key is written with an equals sign. -/
def PlainKeys (es : Entries) : Prop :=
  ∀ e ∈ es, ∀ key, e.1.plainText = .ok key → '=' ∉ key.toList

/-- The list says what the texts of the mapping say. -/
theorem listForm_eq (es : Entries) :
    listForm es = (entryTexts es).map (List.map fun e => e.1 ++ "=" ++ e.2) := by
  rw [listForm]
  induction es with
  | nil => rfl
  | cons e es ih =>
    rw [entryTexts, List.filter_cons]
    cases e.2.isScalar with
    | false => exact ih
    | true =>
      rw [if_pos rfl, if_pos rfl, List.mapM_cons, ih]
      cases e.1.plainText with
      | error fault => rfl
      | ok key =>
        cases e.2.plainText with
        | error fault => rfl
        | ok value => cases entryTexts es <;> rfl

/-- The keys of the texts are those of the mapping. -/
theorem ensures_entryTexts {es : Entries} (h : PlainKeys es) :
    Ensures (fun _ => True) (fun entries => ∀ e ∈ entries, '=' ∉ e.1.toList) (entryTexts es) := by
  rw [entryTexts_eq]
  refine Ensures.mapM fun e he => ?_
  have hmem : e ∈ es := (List.mem_filter.mp he).1
  cases hkey : e.1.plainText with
  | error fault => trivial
  | ok key =>
    cases e.2.plainText with
    | error fault => trivial
    | ok value => exact h e hmem key hkey

theorem dictionary?_of_entries? {v : Value} {es : Entries} (h : v.entries? = some es) :
    v.dictionary? = (entryTexts es).map fun entries => some (.ofEntries entries) := by
  rw [entries?] at h
  rw [dictionary?]
  split at h
  · next entries hv =>
    obtain rfl := Option.some.inj h
    rw [hv]
  · cases h

/-- Unless a key has an equals sign, a mapping and its list form are read alike. -/
theorem dictionary?_listForm {v : Value} {es : Entries} (hes : v.entries? = some es)
    (hkeys : PlainKeys es) :
    ((listForm es).bind fun texts => (Value.list (texts.map .str)).dictionary?)
      = v.dictionary? := by
  have hplain := ensures_entryTexts hkeys
  rw [dictionary?_of_entries? hes, listForm_eq]
  cases hentries : entryTexts es with
  | error fault => rfl
  | ok entries =>
    rw [hentries] at hplain
    have hread := dictionary?_of_spells (spells_list hplain)
    rw [← Function.comp_def Value.str, ← List.map_map] at hread
    exact hread

end Value

open Value (listForm PlainKeys)

/-! ## Spelling a service -/

/-- The fields of texts under texts. -/
def dictionaryFields : List String := ["environment", "labels", "sysctls"]

/-- An entry of a service in another spelling: it stays, or the mapping of a field of texts under
texts becomes a list. -/
inductive Respelled : Value × Value → Value × Value → Prop
  | same (e : Value × Value) : Respelled e e
  | asList {key : String} {v : Value} {es : Entries} {texts : List String}
    (hkey : key ∈ dictionaryFields) (hes : v.entries? = some es) (hkeys : PlainKeys es)
    (htexts : listForm es = .ok texts) :
    Respelled (.str key, v) (.str key, .list (texts.map .str))

variable {es es' : Entries}

/-- What is read under a key is the same if the keys are and if, under this one, the values are
read alike. -/
theorem map_lookup_of_forall₂ {β : Type} {read : Value → β} {key : String}
    (h : List.Forall₂ (fun e e' => e'.1 = e.1 ∧ (e.1 = .str key → read e'.2 = read e.2)) es es') :
    (Value.lookup key es').map read = (Value.lookup key es).map read := by
  induction h with
  | nil => rfl
  | @cons e e' es es' he _ ih =>
    obtain ⟨k, v⟩ := e
    obtain ⟨k', v'⟩ := e'
    obtain ⟨rfl, hread⟩ := he
    by_cases hk : k' = .str key
    · subst hk
      rw [Value.lookup_cons_self, Value.lookup_cons_self]
      exact congrArg some (hread rfl)
    · rw [Value.lookup_cons_of_ne hk, Value.lookup_cons_of_ne hk]
      exact ih

/-- A field of texts under texts is read from either spelling. -/
theorem field_dictionary_of_respelled (h : List.Forall₂ Respelled es es') (key : String) :
    es'.field key none Value.dictionary? = es.field key none Value.dictionary? := by
  have hlookup : (Value.lookup key es').map Value.dictionary?
      = (Value.lookup key es).map Value.dictionary? := by
    refine map_lookup_of_forall₂ (h.imp fun e e' he => ?_)
    cases he with
    | same => exact ⟨rfl, fun _ => rfl⟩
    | asList hkey hes hkeys htexts =>
      have hread := Value.dictionary?_listForm hes hkeys
      rw [htexts] at hread
      exact ⟨rfl, fun _ => hread⟩
  rw [Entries.field, Entries.field]
  cases hv : Value.lookup key es with
  | none =>
    rw [hv, Option.map_none, Option.map_eq_none_iff] at hlookup
    rw [hlookup]
  | some v =>
    rw [hv, Option.map_some, Option.map_eq_some_iff] at hlookup
    obtain ⟨v', hv', hread⟩ := hlookup
    simp only [hv', hread]

/-- The other fields are the same. -/
theorem lookup_of_respelled (h : List.Forall₂ Respelled es es') {key : String}
    (hkey : key ∉ dictionaryFields) : Value.lookup key es' = Value.lookup key es := by
  have hlookup : (Value.lookup key es').map id = (Value.lookup key es).map id := by
    refine map_lookup_of_forall₂ (h.imp fun e e' he => ?_)
    cases he with
    | same => exact ⟨rfl, fun _ => rfl⟩
    | asList hfield => exact ⟨rfl, fun heq => absurd (Value.str.inj heq ▸ hfield) hkey⟩
  rwa [Option.map_id_apply, Option.map_id_apply] at hlookup

/-- The keys are the same. -/
theorem map_of_respelled {α : Type} (h : List.Forall₂ Respelled es es') {f : Value × Value → α}
    (hf : ∀ k v v', f (k, v') = f (k, v)) : es'.map f = es.map f := by
  induction h with
  | nil => rfl
  | cons he _ ih =>
    rw [List.map_cons, List.map_cons, ih]
    cases he with
    | same => rfl
    | asList => rw [hf]

/-- What is wrong with the keys is the same. -/
theorem withKeys_of_respelled {α : Type} (h : List.Forall₂ Respelled es es') (c : Checked α) :
    es'.withKeys c = es.withKeys c := by
  have hissues : es'.keyIssues = es.keyIssues := by
    have hmap := map_of_respelled h (f := Entries.keyIssue?) fun k _ _ => by cases k <;> rfl
    rw [Entries.keyIssues, Entries.keyIssues]
    simpa only [List.filterMap_map, Function.id_comp] using congrArg (List.filterMap id) hmap
  have htorn : es'.any Entries.hasTornKey = es.any Entries.hasTornKey := by
    have hmap := map_of_respelled h (f := Entries.hasTornKey) fun k _ _ => by cases k <;> rfl
    simpa only [List.any_map, Function.id_comp] using congrArg (List.any · id) hmap
  rw [Entries.withKeys, Entries.withKeys, hissues, htorn]

/-- A service is read from any spelling. -/
theorem service_of_respelled (h : List.Forall₂ Respelled es es') :
    Service.read es' = Service.read es := by
  rw [Service.read, Service.read, withKeys_of_respelled h]
  simp only [field_dictionary_of_respelled h]
  simp (disch := decide) only [Entries.field, Entries.record?, lookup_of_respelled h]

/-- A mapping of texts is read as its list form is, if no key has an equals sign.  So whichever of
the two forms the fields of a service have, what is read is the same service, or what is wrong is
the same, and nothing that is made of the service is another. -/
theorem read_of_respelled :
    (∀ v es, Value.entries? v = some es → PlainKeys es →
        ((listForm es).bind fun texts => (Value.list (texts.map .str)).dictionary?)
          = v.dictionary?)
      ∧ ∀ es es', List.Forall₂ Respelled es es' →
        Service.read es' = Service.read es
          ∧ ∀ s s', Service.ofValue (.map es) = .ok s → Service.ofValue (.map es') = .ok s' →
            (∀ project name, s'.containerBlock project name = s.containerBlock project name)
              ∧ (∀ backend name, s'.overrideBlock? backend name = s.overrideBlock? backend name)
              ∧ s'.extraOptions = s.extraOptions
              ∧ (∀ name, s'.routes name = s.routes name)
              ∧ s'.routingNetwork? = s.routingNetwork? ∧ s'.attach = s.attach := by
  refine ⟨fun v es => Value.dictionary?_listForm, fun es es' h => ?_⟩
  have hread := service_of_respelled h
  refine ⟨hread, fun s s' hs hs' => ?_⟩
  have hsame : Service.ofValue (.map es') = Service.ofValue (.map es) :=
    congrArg (Checked.result "ServiceSpec") hread
  obtain rfl : s = s' := Except.ok.inj (hs.symm.trans (hsame.symm.trans hs'))
  exact ⟨fun _ _ => rfl, fun _ _ => rfl, rfl, fun _ => rfl, rfl, rfl⟩

/-- Variables whose keys and values are of several kinds, two of them under keys that are written in
the same way. -/
def mixedVariables : Entries := [
  (.int 1, .str "a=b"), (.str "1", .null), (.bool true, .bool false), (.str "", .int 2),
  (.str "x", .list [.str "y"])]

/-- The two spellings of a service with these variables. -/
theorem read_of_respelled_mixedVariables :
    ∃ s, Service.ofValue (.map [(.str "environment", .map mixedVariables)]) = .ok s
      ∧ Service.ofValue (.map [(.str "environment",
          .list [.str "1=a=b", .str "1=", .str "true=false", .str "=2"])]) = .ok s
      ∧ s.environment = some [("1", ""), ("true", "false"), ("", "2")] := by
  have hplain : ∀ e ∈ mixedVariables, ∀ key ∈ e.1.plainText.toOption, '=' ∉ key.toList := by
    decide +kernel
  have hkeys : PlainKeys mixedVariables := fun e he key hkey =>
    hplain e he key (by rw [hkey]; rfl)
  have hlist : listForm mixedVariables = .ok ["1=a=b", "1=", "true=false", "=2"] := by
    decide +kernel
  have hspelled : List.Forall₂ Respelled [(.str "environment", .map mixedVariables)]
      [(.str "environment", .list [.str "1=a=b", .str "1=", .str "true=false", .str "=2"])] :=
    .cons (.asList (by decide) rfl hkeys hlist) .nil
  obtain ⟨s, hs⟩ :
      Succeeds (Service.ofValue (.map [(.str "environment", .map mixedVariables)])) := by
    decide +kernel
  have hvariables : (Service.ofValue (.map [(.str "environment",
      .map mixedVariables)])).toOption.map Service.environment
        = some (some [("1", ""), ("true", "false"), ("", "2")]) := by decide +kernel
  have hread := (read_of_respelled.2 _ _ hspelled).1
  rw [hs] at hvariables
  exact ⟨s, hs, (congrArg (Checked.result "ServiceSpec") hread).trans hs,
    Option.some.inj hvariables⟩

end ComposeNix
