import ComposeNix.Conversion
import ComposeNix.Proofs.Outcome
import ComposeNix.Proofs.Routing.Labels
import Mathlib.Data.List.TakeWhile

/-!
# What comes of a conversion

For a runtime that exists, a conversion fails with the rules, with the manifest or with the labels
of a service, and succeeds otherwise (`fst_convert`).  The manifest is that of a text with its
variables replaced (`fst_ofText`), and a manifest that was read comes from the entries of a
document.
-/

namespace ComposeNix

/-- A runtime is found by its name. -/
theorem Backend.ofValue_name (backend : Backend) :
    Backend.ofValue (.str backend.name) = .ok backend := by
  cases backend <;> rfl

/-! ## Readings that passed their checks -/

namespace Checked

/-- The values of a row of readings. -/
theorem value_all {α : Type} (cs : List (Checked α)) : (all cs).value = cs.map (·.value) := by
  induction cs with
  | nil => rfl
  | cons c cs ih => rw [all, ih, List.map_cons]

theorem eq_value_of_result {α : Type} {c : Checked α} {model : String} {a : α}
    (h : c.result model = .ok a) : a = c.value := by
  rw [result] at h
  split at h
  · exact (Except.ok.inj h).symm
  · exact nomatch h

theorem issues_of_result {α : Type} {c : Checked α} {model : String} {a : α}
    (h : c.result model = .ok a) : c.issues = [] := by
  rw [result] at h
  split at h
  · next hissues => exact List.isEmpty_iff.mp hissues
  · cases h

end Checked

/-! ## Reading a manifest -/

namespace Manifest

/-- A manifest is read from a text with its variables replaced. -/
theorem fst_ofText (context : Option Template.Context) (text : String) :
    (ofText context text).1 = ofPlainText (replaceVariables context text).1.toList := by
  rw [ofText]
  cases h : ofPlainText (replaceVariables context text).1.toList <;> simp [h]

/-- A document that was loaded is not unreadable. -/
theorem ofDocument_ne_unreadable (v : Value) (text : List Char) (fault : Yaml.Fault) :
    ofDocument v ≠ .error (.unreadable text fault) := by
  rw [ofDocument]
  split
  · exact fun h => nomatch h
  · rename_i es _
    split
    · cases (read es).result "ComposeManifest" <;> exact fun h => nomatch h
    · exact fun h => nomatch h

/-- A text is unreadable if it cannot be loaded. -/
theorem ofPlainText_unreadable_iff {text chars : List Char} {fault : Yaml.Fault} :
    ofPlainText text = .error (.unreadable chars fault)
      ↔ text = chars ∧ Yaml.load text = .error fault := by
  rw [ofPlainText]
  cases hload : Yaml.load text with
  | error cause =>
    simp only [Except.error.injEq, ManifestFault.unreadable.injEq]
  | ok v =>
    simp only [reduceCtorEq, and_false, iff_false]
    exact ofDocument_ne_unreadable v chars fault

/-- A manifest comes from a document that lists services. -/
theorem exists_load_of_ofText {context : Option Template.Context} {text : String} {m : Manifest}
    (h : (ofText context text).1 = .ok m) : ∃ v es,
      Yaml.load (replaceVariables context text).1.toList = .ok v ∧ v.entries? = some es
        ∧ ((Value.lookup "services" es).bind Value.entries?).isSome
        ∧ (read es).result "ComposeManifest" = .ok m := by
  rw [fst_ofText, ofPlainText] at h
  split at h
  · cases h
  · next v hload =>
    rw [ofDocument] at h
    split at h
    · cases h
    · next es hes =>
      split at h
      · next hservices =>
        exact ⟨v, es, hload, hes, hservices, mapError_eq_ok_iff.mp h⟩
      · cases h

theorem exists_read_of_ofText {context : Option Template.Context} {text : String} {m : Manifest}
    (h : (ofText context text).1 = .ok m) : ∃ es, m = (read es).value := by
  obtain ⟨-, es, -, -, -, hread⟩ := exists_load_of_ofText h
  exact ⟨es, Checked.eq_value_of_result hread⟩

end Manifest

/-! ## Converting a text -/

namespace Manifest

variable {m : Manifest}

/-- Up to the service at which it breaks off the reading goes well. -/
theorem forall_mem_readThrough (m : Manifest) : ∀ e ∈ m.readThrough, e.2.break? e.1 = none := by
  intro e he
  have hread : (e.2.break? e.1).isNone = true :=
    List.mem_takeWhile_imp (p := fun e : String × Service => (e.2.break? e.1).isNone) he
  exact Option.isNone_iff_eq_none.mp hread

theorem break?_eq_none_iff_forall :
    m.break? = none ↔ ∀ e ∈ m.services, e.2.break? e.1 = none := by
  simp only [break?, List.findSome?_eq_none_iff, Option.map_eq_none_iff]

theorem break?_eq_none_iff : m.break? = none ↔ m.readThrough = m.services := by
  rw [break?_eq_none_iff_forall, readThrough, List.takeWhile_eq_self_iff]
  simp only [Option.isNone_iff_eq_none]

/-- Where the reading of the labels breaks off, if it does. -/
theorem break?_eq_some_iff {broken : String × Service} {fault : Text.Unencodable} :
    m.break? = some (broken, fault) ↔ broken.2.break? broken.1 = some fault
      ∧ ∃ rest, m.services = m.readThrough ++ broken :: rest := by
  constructor
  · intro h
    obtain ⟨front, e, rest, hservices, he, hfront⟩ := List.findSome?_eq_some_iff.mp h
    obtain ⟨cause, hcause, heq⟩ := Option.map_eq_some_iff.mp he
    obtain ⟨rfl, rfl⟩ := Prod.mk.inj heq
    have hread : m.readThrough = front := by
      rw [readThrough, hservices, List.takeWhile_append_of_pos, List.takeWhile_cons_of_neg,
        List.append_nil]
      · simp [hcause]
      · intro e he
        exact Option.isNone_iff_eq_none.mpr (Option.map_eq_none_iff.mp (hfront e he))
    exact ⟨hcause, rest, hread ▸ hservices⟩
  · rintro ⟨hbroken, rest, hservices⟩
    rw [break?, List.findSome?_eq_some_iff]
    refine ⟨m.readThrough, broken, rest, hservices, by rw [hbroken]; rfl, fun e he => ?_⟩
    rw [forall_mem_readThrough m e he]
    rfl

/-- The reading of the labels breaks off exactly if those of some service give a route a host and an
address without encoding. -/
theorem isSome_break?_iff : m.break?.isSome = true
    ↔ ∃ e ∈ m.services, ∃ d ∈ Routing.drafts e.1 (e.2.labels.getD []), d.2.Breaks := by
  rw [break?, List.findSome?_isSome_iff]
  simp only [Option.isSome_map, Service.break?, Routing.isSome_break?_iff]

/-- A manifest has a module, unless the reading of its labels breaks off. -/
theorem build_eq_ok_iff {backend : Backend} {rules : List RoutingRule} {module : String} :
    (m.build backend rules).1 = .ok module
      ↔ m.break? = none ∧ m.toModule backend rules = module := by
  rw [build]
  cases m.break? <;> simp

theorem build_eq_error_iff {backend : Backend} {rules : List RoutingRule}
    {fault : Text.Unencodable} :
    (m.build backend rules).1 = .error fault ↔ ∃ broken, m.break? = some (broken, fault) := by
  rw [build]
  rcases m.break? with _ | ⟨broken, cause⟩
  · simp
  · constructor
    · intro h
      exact ⟨broken, by rw [Except.error.inj h]⟩
    · rintro ⟨_, h⟩
      rw [(Prod.mk.inj (Option.some.inj h)).2]

end Manifest

/-- The rules are looked at first and the manifest next, and then there is a module, unless the
reading of the labels breaks off. -/
theorem fst_convert (text : String) (backend : Backend) (rules : List Value)
    (context : Option Template.Context) :
    (convert text (.str backend.name) rules context).1 =
      match RoutingRule.ofValues rules with
      | .error bad => .error (.badRule bad)
      | .ok given =>
        match (Manifest.ofText context text).1 with
        | .error cause => .error (.badManifest cause)
        | .ok m => (m.build backend given).1.mapError .badLabels := by
  rw [convert]
  cases RoutingRule.ofValues rules with
  | error bad => rfl
  | ok given =>
    simp only [convertWith, Backend.ofValue_name]
    split
    · rename_i hmanifest
      rw [hmanifest]
    · rename_i hmanifest
      rw [hmanifest]

/-- The rules and the manifest that a module is made of. -/
theorem convert_eq_ok_iff (backend : Backend) {text : String} {rules : List Value}
    {context : Option Template.Context} {module : String} :
    (convert text (.str backend.name) rules context).1 = .ok module
      ↔ ∃ given m, RoutingRule.ofValues rules = .ok given
          ∧ (Manifest.ofText context text).1 = .ok m ∧ m.break? = none
          ∧ m.toModule backend given = module := by
  rw [fst_convert]
  cases RoutingRule.ofValues rules with
  | error bad => simp
  | ok given =>
    cases (Manifest.ofText context text).1 with
    | error cause => simp
    | ok m => simp [mapError_eq_ok_iff, Manifest.build_eq_ok_iff]

/-- What a conversion fails with: a rule, or else the manifest, or else its labels. -/
theorem convert_eq_error_iff (backend : Backend) {text : String} {rules : List Value}
    {context : Option Template.Context} {fault : ConversionFault} :
    (convert text (.str backend.name) rules context).1 = .error fault
      ↔ (∃ bad, RoutingRule.ofValues rules = .error bad ∧ .badRule bad = fault)
        ∨ (∃ given, RoutingRule.ofValues rules = .ok given)
          ∧ ((∃ cause, (Manifest.ofText context text).1 = .error cause ∧ .badManifest cause = fault)
            ∨ ∃ m, (Manifest.ofText context text).1 = .ok m
              ∧ ∃ cause, (∃ broken, m.break? = some (broken, cause))
                ∧ .badLabels cause = fault) := by
  rw [fst_convert]
  cases RoutingRule.ofValues rules with
  | error bad => simp
  | ok given =>
    cases (Manifest.ofText context text).1 with
    | error cause => simp
    | ok m =>
      simp only [mapError_eq_error_iff, Manifest.build_eq_error_iff]
      simp

end ComposeNix
