import ComposeNix.Proofs.Compose.Shape
import ComposeNix.Proofs.Conversion
import ComposeNix.Proofs.Outcome
import ComposeNix.Routing.Reading
import Mathlib.Data.List.Forall2

/-!
# Reading a rule out of its fields

A field is read under the first of its names that is there, and a rule is read if none of its fields
has an issue.  So what the reading of a field ensures of every value, and what is true of the value
of an absent field, holds of the field (`Entries.of_named`).  A rule that was read has a name and an
entrypoint, its host is not empty, and its address is a URL (`RoutingRule.sound_of_ofValue`).  None
of these texts is without an encoding.
-/

namespace ComposeNix

/-! ## Texts -/

/-- Whatever the fault, the value is one that is asked for. -/
abbrev Gives {α : Type} (P : α → Prop) (x : Except Cause α) : Prop := Ensures (fun _ => True) P x

theorem shortestText_str {s : String} (h : s ≠ "") : shortestText (.str s)
    = if Text.isUnicode s then .ok s else .error .notUnicode := by
  have hread : shortestText (.str s) = if !Text.isUnicode s then .error .notUnicode
      else if s.isEmpty then .error .tooShort else .ok s := rfl
  have hempty : s.isEmpty = false := by simpa using h
  rw [hread, hempty]
  cases Text.isUnicode s <;> rfl

/-- A text of a rule is not empty and has an encoding. -/
theorem gives_shortestText (v : Value) :
    Gives (fun s => s ≠ "" ∧ Text.isUnicode s) (shortestText v) := by
  refine (Ensures.any (textOrCause v)).bind fun s _ => ?_
  split
  · trivial
  · rename_i hunicode
    split
    · trivial
    · rename_i hempty
      exact ⟨fun hs => hempty (String.isEmpty_iff.mpr hs), by simpa using hunicode⟩

theorem urlText_str (s : String) : urlText (.str s)
    = if (Url.read? s).isSome then .ok s else .error (.invalidUrl s) := rfl

theorem gives_urlText (v : Value) : Gives (fun s => (Url.read? s).isSome = true) (urlText v) := by
  refine (Ensures.any (textOrCause v)).bind fun s _ => ?_
  split
  · assumption
  · trivial

/-- An empty entrypoint stands for the default one. -/
theorem entrypointText_str (s : String) {text : String}
    (htext : (nonEmpty? (some s)).getD RoutingRule.defaultEntrypoint = text) :
    entrypointText (.str s)
      = if Text.isUnicode text then .ok text else .error .notUnicode := by
  subst htext
  by_cases hempty : s = ""
  · subst hempty
    rfl
  · have htruthy : (Value.str s).isTruthy = true := by simp [Value.isTruthy, hempty]
    have hself : nonEmpty? (some s) = some s := by simp [nonEmpty?, Option.filter, hempty]
    rw [entrypointText, if_pos htruthy, shortestText_str hempty, hself, Option.getD_some]

theorem gives_entrypointText (v : Value) :
    Gives (fun s => s ≠ "" ∧ Text.isUnicode s) (entrypointText v) := by
  refine Ensures.ite (gives_shortestText v) ?_
  exact show RoutingRule.defaultEntrypoint ≠ "" ∧ Text.isUnicode RoutingRule.defaultEntrypoint by
    decide

theorem gives_orNull {α : Type} {P : α → Prop} {read : Value → Except Cause α}
    (hread : ∀ v, Gives P (read v)) (v : Value) :
    Gives (fun a? => ∀ a ∈ a?, P a) (orNull read v) := by
  unfold orNull
  split
  · exact fun a ha => nomatch ha
  · exact (hread v).map fun a ha b hb => Option.some.inj hb ▸ ha

theorem orNull_str {α : Type} (read : Value → Except Cause α) (s : String) :
    orNull read (.str s) = (read (.str s)).map some := rfl

/-! ## Fields -/

section

variable {α β : Type} {names : List String} {missing : Checked α} {absent : α}
  {read : Value → Except Cause α} {es : Entries} {name : String} {v : Value}

theorem Entries.named_of_ok {a : α} (h : es.firstOf names = some (name, v))
    (hread : read v = .ok a) : es.named names missing absent read = pure a := by
  rw [Entries.named, h]
  simp only [hread]

theorem Entries.named_of_error {cause : Cause} (h : es.firstOf names = some (name, v))
    (hread : read v = .error cause) :
    es.named names missing absent read = .issue absent [name] cause := by
  rw [Entries.named, h]
  simp only [hread]

/-- A field that may be absent, where whatever it can have can be read. -/
theorem Entries.named_of_map {x? : Option β} {write : β → Value} {f : β → α} {a : α}
    (h : es.firstOf names = x?.map fun x => (name, write x))
    (hread : ∀ x, read (write x) = .ok (f x)) :
    es.named names (pure a) absent read = pure ((x?.map f).getD a) := by
  cases x? with
  | none => rw [Entries.named, h]; rfl
  | some x => exact named_of_ok h (hread x)

/-- A field without issue is absent, or it is what was read of the value under its name. -/
theorem Entries.named_cases (h : (es.named names missing absent read).issues = []) :
    es.firstOf names = none ∧ es.named names missing absent read = missing
      ∨ ∃ name v, es.firstOf names = some (name, v)
        ∧ read v = .ok (es.named names missing absent read).value := by
  cases hfirst : es.firstOf names with
  | none =>
    left
    rw [named, hfirst]
    exact ⟨rfl, rfl⟩
  | some field =>
    obtain ⟨name, v⟩ := field
    right
    cases hread : read v with
    | ok a =>
      rw [named_of_ok hfirst hread]
      exact ⟨name, v, rfl, hread⟩
    | error cause =>
      rw [named_of_error hfirst hread] at h
      exact nomatch h

/-- What is true of an absent field, if it may be absent, and of every value that is read, is true
of a field without issue. -/
theorem Entries.of_named {P : α → Prop} (hmissing : missing.issues = [] → P missing.value)
    (hread : ∀ v, Gives P (read v))
    (h : (es.named names missing absent read).issues = []) :
    P (es.named names missing absent read).value := by
  rcases named_cases h with ⟨-, hnamed⟩ | ⟨name, v, -, hok⟩
  · rw [hnamed] at h ⊢
    exact hmissing h
  · have hv := hread v
    rwa [hok] at hv

end

namespace RoutingRule

/-- Whether a rule could have been read: it has a name and an entrypoint, its host is not empty, its
address is a URL, and all these texts have an encoding. -/
structure Sound (r : RoutingRule) : Prop where
  name : r.name ≠ "" ∧ Text.isUnicode r.name
  url : ∀ url ∈ r.url, (Url.read? url).isSome = true
  host : ∀ host ∈ r.host, host ≠ "" ∧ Text.isUnicode host
  entrypoint : r.entrypoint ≠ "" ∧ Text.isUnicode r.entrypoint

/-- A rule is read out of a mapping if there is nothing wrong with it, and the report on its address
can be told. -/
theorem ofValue_eq_ok_iff {v : Value} {r : RoutingRule} : ofValue v = .ok r
    ↔ ∃ es, v.entries? = some es ∧ addressBreak? es = none
      ∧ (read es).result "RoutingRule" = .ok r := by
  rw [ofValue]
  cases v.entries? with
  | none => simp
  | some es => cases hbreak : addressBreak? es <;> simp [hbreak, mapError_eq_ok_iff]

theorem sound_of_ofValue {v : Value} {r : RoutingRule} (h : ofValue v = .ok r) : r.Sound := by
  obtain ⟨es, -, -, hread⟩ := ofValue_eq_ok_iff.mp h
  obtain rfl := Checked.eq_value_of_result hread
  have hissues := Checked.issues_of_result hread
  simp only [read, Checked.issues_seq, Checked.issues_map, List.append_eq_nil_iff] at hissues
  obtain ⟨⟨⟨⟨⟨hname, hurl⟩, hhost⟩, hentrypoint⟩, -⟩, -⟩ := hissues
  exact {
    name := Entries.of_named (fun hnil => nomatch hnil) gives_shortestText hname
    url := Entries.of_named (fun _ url hnone => nomatch hnone) (gives_orNull gives_urlText) hurl
    host := Entries.of_named (fun _ host hnone => nomatch hnone)
      (gives_orNull gives_shortestText) hhost
    entrypoint := Entries.of_named (fun _ => by decide) gives_entrypointText hentrypoint }

/-! ## Lists of rules -/

theorem allFrom_eq_ok_iff {place : Nat} {rules : List Value}
    {given : List RoutingRule} :
    allFrom place rules = .ok given ↔ List.Forall₂ (fun v r => ofValue v = .ok r) rules given := by
  induction rules generalizing place given with
  | nil =>
    rw [List.forall₂_nil_left_iff, allFrom, Except.ok.injEq, eq_comm]
  | cons v rules ih =>
    simp only [allFrom, List.forall₂_cons_left_iff, ← @ih (place + 1)]
    cases ofValue v with
    | error fault => simp
    | ok rule =>
      cases allFrom (place + 1) rules with
      | error bad => simp [Except.map]
      | ok rest => simp [Except.map, eq_comm]

/-- The values of a list describe rules exactly if each of them describes one. -/
theorem ofValues_eq_ok_iff {rules : List Value} {given : List RoutingRule} :
    ofValues rules = .ok given ↔ List.Forall₂ (fun v r => ofValue v = .ok r) rules given :=
  allFrom_eq_ok_iff

/-- One value that describes no rule is enough. -/
theorem exists_ofValues_eq_error_iff {rules : List Value} :
    (∃ bad, ofValues rules = .error bad)
      ↔ ∃ v ∈ rules, ∃ fault, ofValue v = .error fault := by
  have hall : (∃ given, ofValues rules = .ok given)
      ↔ ∀ v ∈ rules, ∃ rule, ofValue v = .ok rule := by
    simp only [ofValues_eq_ok_iff]
    induction rules with
    | nil => simp
    | cons v rules ih => simp [List.forall₂_cons_left_iff, ← ih]
  constructor
  · rintro ⟨bad, hbad⟩
    by_contra hnone
    push Not at hnone
    obtain ⟨given, hgiven⟩ := hall.mpr fun v hv => by
      cases hvalue : ofValue v with
      | error fault => exact absurd hvalue (hnone v hv fault)
      | ok rule => exact ⟨rule, rfl⟩
    rw [hbad] at hgiven
    exact nomatch hgiven
  · rintro ⟨v, hv, fault, hfault⟩
    cases hvalues : ofValues rules with
    | error bad => exact ⟨bad, rfl⟩
    | ok given =>
      obtain ⟨rule, hrule⟩ := hall.mp ⟨given, hvalues⟩ v hv
      rw [hfault] at hrule
      exact nomatch hrule

end RoutingRule
end ComposeNix
