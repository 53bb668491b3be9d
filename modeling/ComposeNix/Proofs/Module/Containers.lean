import ComposeNix.Proofs.Compose.Manifest
import ComposeNix.Proofs.Dictionary
import ComposeNix.Proofs.Module.Fields
import ComposeNix.Proofs.Yaml.Keys
import Mathlib.Data.List.Forall2

/-!
# The containers of a module

What a module declares containers for is read off its bindings (`Manifest.containers`): one for
every service of the manifest, in order (`containers_toModule`).

The services of a document are filed under their keys as they are written, and two keys that differ
may be written alike, as the number `1` and the text `"1"` are.  `containers_of_ofText` says which
containers there are then: one for every name, where the name first occurs, and from the body under
the key that is written so last.  There is one for every service of the document exactly if no
two keys are written alike, as is so where all of them are texts.
-/

namespace ComposeNix.Manifest

open Nix (Fields Key Tree readModule said wordKey)

/-! ## Reading off the containers -/

/-- The path below which containers are declared. -/
def containersPath : List Key :=
  [wordKey "virtualisation", wordKey "oci-containers", wordKey "containers"]

/-- The bindings of a module that declare containers. -/
def containers (fields : Fields) : Fields := fields.filter fun b => b.1.take 3 = containersPath

section Module

variable (backend : Backend) (rules : List RoutingRule) (m : Manifest)

theorem containers_append (fields more : Fields) :
    containers (fields ++ more) = containers fields ++ containers more := List.filter_append ..

/-- Bindings that begin with another word declare none. -/
theorem ne_containersPath {word : String} (h : word ≠ "virtualisation") (path : List Nix.Attr)
    (value : Nix.Expr) : (said (.word word :: path, value)).1.take 3 ≠ containersPath := fun heq =>
  h (Nix.wordKey_injective (List.cons.inj heq).1)

theorem containers_map_said_eq_nil {bs : List Nix.Binding}
    (h : ∀ b ∈ bs, (said b).1.take 3 ≠ containersPath) : containers (bs.map said) = [] := by
  rw [containers, List.filter_eq_nil_iff, List.forall_mem_map]
  exact fun b hb => by simpa using h b hb

theorem containers_map_declaration (services : Dictionary Service) :
    containers ((services.map fun e => e.2.declaration m.projectName e.1).map said)
      = services.map fun e => said (e.2.declaration m.projectName e.1) := by
  rw [containers, List.filter_eq_self.mpr, List.map_map]
  · rfl
  · rw [List.map_map, List.forall_mem_map]
    exact fun e _ => decide_eq_true rfl

theorem containers_runtimeBindings : containers ((runtimeBindings backend).map said) = [] :=
  containers_map_said_eq_nil (by cases backend <;> decide)

theorem containers_overrides : containers
    ((m.services.filterMap fun e => e.2.override? backend e.1).map said) = [] := by
  refine containers_map_said_eq_nil fun b hb => ?_
  obtain ⟨e, -, he⟩ := List.mem_filterMap.mp hb
  rw [Service.override?] at he
  split at he
  · cases he
  · obtain rfl := Option.some.inj he
    exact ne_containersPath (by decide) _ _

theorem containers_units : containers ((m.units backend).map said) = [] := by
  refine containers_map_said_eq_nil fun b hb => ?_
  rcases List.mem_append.mp hb with hb | hb
  · obtain ⟨v, -, rfl⟩ := List.mem_map.mp hb
    exact ne_containersPath (by decide) _ _
  · obtain ⟨n, -, rfl⟩ := List.mem_map.mp hb
    exact ne_containersPath (by decide) _ _

theorem containers_configuration : containers ((Routing.configuration rules).map said) = [] := by
  refine containers_map_said_eq_nil fun b hb => ?_
  rw [Routing.configuration] at hb
  split at hb
  · cases hb
  · obtain rfl := List.mem_singleton.mp hb
    exact ne_containersPath (by decide) _ _

/-- A module declares one container for every service of its manifest. -/
theorem containers_toModule {fields : Fields}
    (h : readModule (m.toModule backend rules).toList = some fields) :
    containers fields = m.services.map fun e => said (e.2.declaration m.projectName e.1) := by
  rw [m.readModule_toModule backend rules] at h
  obtain rfl := Option.some.inj h
  simp only [beforeUnits, List.map_append, containers_append, containers_runtimeBindings,
    containers_overrides, containers_units, containers_configuration, List.nil_append,
    List.append_nil]
  exact m.containers_map_declaration m.services

end Module

/-! ## From the services of a document -/

/-- The entries of the services of a document. -/
def servicesOf? (text : List Char) : Option Entries :=
  (Yaml.load text).toOption.bind fun v =>
    v.entries?.bind fun es => (Value.lookup "services" es).bind Value.entries?

theorem servicesOf?_eq_some_iff {text : List Char} {ss : Entries} :
    servicesOf? text = some ss ↔ ∃ v es w, Yaml.load text = .ok v ∧ v.entries? = some es
      ∧ Value.lookup "services" es = some w ∧ w.entries? = some ss := by
  simp only [servicesOf?, Option.bind_eq_some_iff, toOption_eq_some_iff, exists_and_left]

/-- A body for every service, under the name that its key is written as. -/
def Named (ss : Entries) (named : List (String × Entries)) : Prop :=
  List.Forall₂ (fun e n => e.1.plainText = .ok n.1 ∧ n.2 = body e.2) ss named

/-- The body under a name, of several the last. -/
def lastBody (named : List (String × Entries)) (name : String) : Entries :=
  (named.reverse.lookup name).getD []

theorem named_of_bodies {ss : Entries} {named : List (String × Entries)}
    (h : bodies ss = .ok named) : Named ss named := by
  induction ss generalizing named with
  | nil =>
    obtain rfl := Except.ok.inj h
    exact .nil
  | cons e ss ih =>
    obtain ⟨k, v⟩ := e
    rw [bodies] at h
    obtain ⟨name, hk, h⟩ := bind_eq_ok_iff.mp h
    obtain ⟨rest, hss, h⟩ := bind_eq_ok_iff.mp h
    obtain rfl := Except.ok.inj h
    exact .cons ⟨hk, rfl⟩ (ih hss)

theorem bodies_of_named {ss : Entries} {named : List (String × Entries)}
    (h : Named ss named) : bodies ss = .ok named := by
  induction h with
  | nil => rfl
  | @cons e n ss named hen _ ih =>
    obtain ⟨k, v⟩ := e
    obtain ⟨name, es⟩ := n
    obtain ⟨hk, rfl⟩ := hen
    rw [bodies, hk, ih]
    rfl

/-- The services of a manifest that was read are those of its document. -/
theorem exists_services_of_ofText {context : Option Template.Context} {text : String}
    {m : Manifest} (h : (ofText context text).1 = .ok m) : ∃ ss named,
      servicesOf? (replaceVariables context text).1.toList = some ss ∧ Named ss named
        ∧ m.services
          = (Dictionary.ofEntries named).map fun e => (e.1, (Service.read e.2).value) := by
  obtain ⟨v, es, hload, hes, hservices, hread⟩ := exists_load_of_ofText h
  obtain ⟨ss, hss⟩ := Option.isSome_iff_exists.mp hservices
  obtain ⟨w, hw, hss⟩ := Option.bind_eq_some_iff.mp hss
  have hfield : servicesField es = (readServices w).under "services" := by rw [servicesField, hw]
  have hissues : (servicesField es).issues = [] := by
    obtain ⟨hfields, -⟩ := Checked.issues_withKeys_eq_nil_iff.mp (Checked.issues_of_result hread)
    simp only [Checked.issues_seq, Checked.issues_map, List.append_eq_nil_iff] at hfields
    exact hfields.1.1.1
  rw [hfield, Checked.issues_under_eq_nil] at hissues
  obtain ⟨named, hnamed, -⟩ := issues_readServices_eq_nil.mp hissues
  have hvalue : m.services = (readServices w).value := by
    rw [Checked.eq_value_of_result hread, read, Entries.value_withKeys]
    exact congrArg (·.value) hfield
  have hbody : body w = ss := by rw [body, hss, Option.getD_some]
  refine ⟨ss, named, servicesOf?_eq_some_iff.mpr ⟨v, es, w, hload, hes, hw, hss⟩,
    named_of_bodies (hbody ▸ hnamed), ?_⟩
  rw [hvalue, value_readServices hnamed]

/-- The texts among the keys of the services are different. -/
theorem nodup_textKeys_of_servicesOf? {text : List Char} {ss : Entries}
    (h : servicesOf? text = some ss) : (Value.textKeys ss).Nodup := by
  obtain ⟨v, es, w, hload, hes, hw, hss⟩ := servicesOf?_eq_some_iff.mp h
  have hservices : w.KeysApart := ((Yaml.keysApart_load hload).map_of_entries? hes).of_lookup hw
  exact (hservices.map_of_entries? hss).1

/-- Services under texts are named as they are. -/
theorem Named.map_fst_eq_textKeys {ss : Entries} {named : List (String × Entries)}
    (h : Named ss named) (htexts : ∀ e ∈ ss, ∃ s, e.1 = .str s) :
    named.map Prod.fst = Value.textKeys ss := by
  induction h with
  | nil => rfl
  | @cons e n ss named hen _ ih =>
    obtain ⟨⟨s, hs⟩, hrest⟩ := List.forall_mem_cons.mp htexts
    obtain ⟨k, v⟩ := e
    obtain rfl : k = .str s := hs
    have hname : n.1 = s := (Except.ok.inj hen.1).symm
    rw [List.map_cons, ih hrest, hname]
    rfl

/-- The container for a service with this name and body. -/
def container (m : Manifest) (name : String) (body : Entries) : List Key × Tree :=
  said ((Service.read body).value.declaration m.projectName name)

/-- The module of a text has one container for every name, where the name first occurs, and from
the body under the key that is written so last.  There is one for every service of the document
exactly if no two keys are written alike, and then they stand in the order of the services and each
has the body of its own.  Keys that are texts are not written alike. -/
theorem containers_of_ofText {context : Option Template.Context} {text : String} {m : Manifest}
    (h : (ofText context text).1 = .ok m) : ∃ ss named,
      servicesOf? (replaceVariables context text).1.toList = some ss ∧ Named ss named
        ∧ (∀ backend rules, ∃ fields,
            readModule (m.toModule backend rules).toList = some fields
              ∧ containers fields = (distinct (named.map Prod.fst)).map (fun name =>
                  m.container name (lastBody named name))
              ∧ ((containers fields).length = ss.length ↔ (named.map Prod.fst).Nodup)
              ∧ ((named.map Prod.fst).Nodup →
                  containers fields = named.map fun n => m.container n.1 n.2))
        ∧ ((∀ e ∈ ss, ∃ s, e.1 = .str s) → (named.map Prod.fst).Nodup) := by
  obtain ⟨ss, named, hss, hnamed, hservices⟩ := exists_services_of_ofText h
  refine ⟨ss, named, hss, hnamed, fun backend rules => ?_, fun htexts => ?_⟩
  · have hread := m.readModule_toModule backend rules
    have hfiled := m.containers_toModule backend rules hread
    rw [hservices, List.map_map] at hfiled
    refine ⟨_, hread, ?_, ?_, fun hnodup => ?_⟩
    · rw [hfiled, Dictionary.ofEntries_eq_map named [], List.map_map]
      rfl
    · rw [hfiled, Dictionary.ofEntries_eq_map named [], List.length_map, List.length_map,
        hnamed.length_eq, ← named.length_map Prod.fst]
      exact length_distinct_eq_iff
    · rw [hfiled, Dictionary.ofEntries_eq_self hnodup]
      rfl
  · rw [hnamed.map_fst_eq_textKeys htexts]
    exact nodup_textKeys_of_servicesOf? hss

/-- Services under a number, a truth value, null and a text. -/
def mixedKeys : String := "services:\n  80:\n  true:\n  ~:\n    image: x\n  web:\n"

/-- The keys of this manifest are written differently, so each of its services has a container. -/
theorem containers_mixedKeys : ∃ m, ∃ named : List (String × Entries), ∃ fields,
    (ofText none mixedKeys).1 = .ok m
    ∧ named.map Prod.fst = ["80", "true", "", "web"]
    ∧ readModule (m.toModule .docker []).toList = some fields
    ∧ containers fields = named.map fun n => m.container n.1 n.2 := by
  obtain ⟨m, hm⟩ : Succeeds (ofText none mixedKeys).1 := by decide +kernel
  obtain ⟨ss, named, hss, hnamed, hmodule, -⟩ := containers_of_ofText hm
  obtain ⟨fields, hread, -, -, howned⟩ := hmodule .docker []
  have hnames : named.map Prod.fst = ["80", "true", "", "web"] := by
    have hwritten : (servicesOf? mixedKeys.toList).bind (fun ss => (bodies ss).toOption.map
        (List.map Prod.fst)) = some ["80", "true", "", "web"] := by decide +kernel
    change servicesOf? mixedKeys.toList = some ss at hss
    rw [hss, Option.bind_some, bodies_of_named hnamed] at hwritten
    exact Option.some.inj hwritten
  exact ⟨m, named, fields, hm, hnames, hread, howned (by rw [hnames]; decide)⟩

/-- Services under a number and under the text that it is written as. -/
def numberedServices : String := "services:\n  1:\n    image: a\n  \"1\":\n    image: b\n"

/-- Not every service has a container: these two share one. -/
theorem not_containers_numberedServices : ¬ ∀ context text m ss,
    (ofText context text).1 = .ok m →
    servicesOf? (replaceVariables context text).1.toList = some ss →
      ∀ backend rules fields, readModule (m.toModule backend rules).toList = some fields →
        (containers fields).length = ss.length := by
  intro h
  obtain ⟨ss, hss, htwo⟩ := Option.map_eq_some_iff.mp
    (show (servicesOf? numberedServices.toList).map List.length = some 2 by decide +kernel)
  have hone : (ofText none numberedServices).1.toOption.map (·.services.length) = some 1 := by
    decide +kernel
  obtain ⟨m, hm, hone⟩ := Option.map_eq_some_iff.mp hone
  have hread := m.readModule_toModule .docker []
  have hlength := h none numberedServices m ss (toOption_eq_some_iff.mp hm) hss .docker [] _ hread
  rw [m.containers_toModule .docker [] hread, List.length_map, hone, htwo] at hlength
  exact absurd hlength (by decide)

end ComposeNix.Manifest
