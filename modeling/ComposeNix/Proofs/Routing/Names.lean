import ComposeNix.Proofs.Conversion
import ComposeNix.Proofs.Module.Fields
import ComposeNix.Proofs.Routing.Labels

/-!
# The names in the routing configuration

A module whose configuration binds one name twice in a half is refused.  The names of a half are
those of the rules that contribute to it, in order (`names_outline`), and a name is written as an
attribute, so that two names are one as soon as their attributes say the same
(`attributeName_of_notMem`: without line feeds, names are written as they are).

Rules come from three sources: they are given, they stand in the labels of one service, or in
those of another.  `nodup_names_iff` says when no name is bound twice, source by source.  Nothing
keeps the sources apart; only the rules of one service have names that differ.
-/

namespace ComposeNix.Routing

open Nix (Attr Binding Fields Key said wordKey)

/-! ## What a name is written as -/

/-- What the attribute that a name is written as says in the module. -/
def attributeKey (name : String) : Key := (Attr.named name).collapse.key

/-- A name without line feeds is written as it is. -/
theorem attributeKey_of_notMem {name : String} (h : '\n' ∉ name.toList) :
    attributeKey name = name.toList.map .char := by
  have hcollapse : Nix.collapse name.toList = name.toList :=
    (Nix.collapse_eq_self_iff _).mpr fun hrun => h (hrun.subset List.mem_cons_self)
  have hname : Nix.collapseName name = name := by
    rw [Nix.collapseName, hcollapse, String.ofList_toList]
  rw [attributeKey, Attr.collapse, hname, Attr.key]
  split
  · rename_i hplain
    have hend := (Nix.isWord_takeWhile_of_isPlainName hplain).2.resolve_right fun hend =>
      h ((List.dropWhile_sublist _).subset (hend ▸ List.mem_singleton_self _))
    have hsplit := List.takeWhile_append_dropWhile (p := Nix.isWordChar) (l := name.toList)
    rw [hend, List.append_nil] at hsplit
    rw [hsplit]
  · rfl

/-! ## The names of a half -/

/-- The halves of the routing configuration. -/
inductive Half
  | services
  | routers
  deriving DecidableEq, Repr

namespace Half

/-- The word that a half stands under. -/
def key : Half → String
  | services => "services"
  | routers => "routers"

/-- What a rule contributes to a half. -/
def binding? : Half → RoutingRule → Option Binding
  | services => serverOf?
  | routers => routerOf?

/-- Whether a rule contributes to a half. -/
def takes (half : Half) (r : RoutingRule) : Bool := (half.binding? r).isSome

/-- Where the routing configuration stands in a module. -/
def home : List Key := ["services", "traefik", "dynamicConfigOptions", "http"].map wordKey

/-- The names that a module binds in a half, each as often as it is bound. -/
def names (half : Half) (fields : Fields) : List Key :=
  (Fields.under [wordKey half.key] (Fields.under home fields)).filterMap fun b => b.1.head?

/-- Two rules that do not bind the same name in a half. -/
def Apart (half : Half) (r s : RoutingRule) : Prop :=
  half.takes r → half.takes s → attributeKey r.name ≠ attributeKey s.name

variable (half : Half) {rules : List RoutingRule}

/-- Two rules with names of one line bind the same name only if they have the same name. -/
theorem apart_iff_of_notMem {r s : RoutingRule} (hr : '\n' ∉ r.name.toList)
    (hs : '\n' ∉ s.name.toList) :
    half.Apart r s ↔ (half.takes r → half.takes s → r.name ≠ s.name) := by
  have hsame : attributeKey r.name = attributeKey s.name ↔ r.name = s.name := by
    rw [attributeKey_of_notMem hr, attributeKey_of_notMem hs]
    exact ⟨fun h => Nix.wordKey_injective h, fun h => by rw [h]⟩
  rw [Apart, Ne, hsame]

/-- A rule with name, address and host contributes to both halves. -/
theorem takes_of_isComplete {r : RoutingRule} (h : r.isComplete = true) : half.takes r = true := by
  simp only [RoutingRule.isComplete, Bool.and_eq_true, Bool.not_eq_true'] at h
  obtain ⟨⟨hname, haddress⟩, hrouted⟩ := h
  cases half with
  | services => simpa [takes, binding?, serverOf?, hname] using haddress
  | routers => simpa [takes, binding?, routerOf?, hname] using hrouted

/-- What a rule contributes stands under its name. -/
theorem head?_said_entry {r : RoutingRule} {b : Binding} (h : half.binding? r = some b) :
    (said b).1.head? = some (attributeKey r.name) := by
  cases half with
  | services =>
    rw [binding?, serverOf?] at h
    split at h
    · cases h
    · obtain ⟨url, -, rfl⟩ := Option.map_eq_some_iff.mp h
      rfl
  | routers =>
    rw [binding?, routerOf?] at h
    split at h
    · cases h
    · obtain ⟨host, -, rfl⟩ := Option.map_eq_some_iff.mp h
      rfl

/-! ## Reading the configuration -/

/-- No other binding of a module stands where the configuration stands. -/
theorem said_path_ne_home {word : String} (h : word ≠ "services") (path : List Attr)
    (value : Nix.Expr) : (said (.word word :: path, value)).1 ≠ home := fun heq =>
  h (Nix.wordKey_injective (List.cons.inj heq).1)

theorem path_ne_home_of_mem_beforeUnits {backend : Backend} {m : Manifest} {b : Binding}
    (hb : b ∈ m.beforeUnits backend) : (said b).1 ≠ home := by
  rcases List.mem_append.mp hb with hb | hb
  · rcases List.mem_append.mp hb with hb | hb
    · rw [Manifest.runtimeBindings, List.mem_cons, List.mem_singleton] at hb
      rcases hb with rfl | rfl
      · exact said_path_ne_home (by decide) _ _
      · exact said_path_ne_home (by decide) _ _
    · obtain ⟨e, -, rfl⟩ := List.mem_map.mp hb
      exact said_path_ne_home (by decide) _ _
  · obtain ⟨e, -, he⟩ := List.mem_filterMap.mp hb
    rw [Service.override?] at he
    split at he
    · cases he
    · obtain rfl := Option.some.inj he
      exact said_path_ne_home (by decide) _ _

theorem path_ne_home_of_mem_units {backend : Backend} {m : Manifest} {b : Binding}
    (hb : b ∈ m.units backend) : (said b).1 ≠ home := by
  rcases List.mem_append.mp hb with hb | hb
  · obtain ⟨v, -, rfl⟩ := List.mem_map.mp hb
    exact said_path_ne_home (by decide) _ _
  · obtain ⟨n, -, rfl⟩ := List.mem_map.mp hb
    exact said_path_ne_home (by decide) _ _

section

variable {tell : Binding → List Key × Nix.Tree} {step : Attr → Key} {keep : String → String}
  (h : Nix.Telling tell step keep)
include h

theorem under_home_configuration (rules : List RoutingRule) :
    Fields.under home ((configuration rules).map tell) = (halves rules).map tell := by
  rw [configuration]
  split
  · rename_i hempty
    rw [List.isEmpty_iff.mp hempty]
    rfl
  · have hpath : ([.word "services", .word "traefik", .word "dynamicConfigOptions",
        .word "http"] : List Attr).map step = home := by
      simp only [List.map_cons, List.map_nil, h.word, home]
    rw [List.map_singleton, h.set, hpath]
    exact Nix.under_singleton home _

/-- A half is read as its entries, and not as those of the other half. -/
theorem under_half (key word : String) (entries : List Binding) :
    Fields.under [wordKey key] ((Routing.half word entries).map tell)
      = if word = key then entries.map tell else [] := by
  rw [Routing.half]
  split
  · rename_i hempty
    rw [List.isEmpty_iff.mp hempty]
    split <;> rfl
  · rw [List.map_singleton, h.set, List.map_singleton, h.word]
    split
    · rename_i hword
      rw [hword]
      exact Nix.under_singleton [wordKey key] _
    · rename_i hword
      refine Nix.under_eq_nil fun b hb heq => hword ?_
      rw [List.mem_singleton.mp hb] at heq
      exact Nix.wordKey_injective (List.cons.inj heq).1

theorem under_halves (rules : List RoutingRule) :
    Fields.under [wordKey half.key] ((halves rules).map tell)
      = (rules.filterMap half.binding?).map tell := by
  rw [halves, List.map_append, Nix.under_append, under_half h, under_half h]
  cases half with
  | services => exact List.append_nil _
  | routers => exact List.nil_append _

end

theorem heads_entries (rules : List RoutingRule) :
    ((rules.filterMap half.binding?).map said).filterMap (fun b => b.1.head?)
      = (rules.filter half.takes).map fun r => attributeKey r.name := by
  induction rules with
  | nil => rfl
  | cons r rules ih =>
    cases hr : half.binding? r with
    | none =>
      have htakes : ¬ half.takes r = true := by simp [takes, hr]
      rw [List.filterMap_cons_none hr, List.filter_cons_of_neg htakes, ih]
    | some b =>
      have htakes : half.takes r = true := by simp [takes, hr]
      have hhead := List.filterMap_cons_some (f := fun b : List Key × Nix.Tree => b.1.head?)
        (l := (rules.filterMap half.binding?).map said) (half.head?_said_entry hr)
      rw [List.filterMap_cons_some hr, List.filter_cons_of_pos htakes, List.map_cons, List.map_cons,
        hhead, ih]

/-- What a module binds in a half is what the rules contribute to it, in order. -/
theorem under_outline (backend : Backend) (rules : List RoutingRule) (m : Manifest) :
    Fields.under [wordKey half.key] (Fields.under home
        ((m.beforeUnits backend ++ m.units backend ++ configuration rules).map said))
      = (rules.filterMap half.binding?).map said := by
  have hothers : Fields.under home ((m.beforeUnits backend ++ m.units backend).map said) = [] := by
    refine Nix.under_eq_nil fun t ht => ?_
    obtain ⟨b, hb, rfl⟩ := List.mem_map.mp ht
    rcases List.mem_append.mp hb with hb | hb
    · exact path_ne_home_of_mem_beforeUnits hb
    · exact path_ne_home_of_mem_units hb
  rw [List.map_append, Nix.under_append, hothers, List.nil_append,
    under_home_configuration Nix.telling_said, half.under_halves Nix.telling_said]

/-- The names of a half are those of the rules that contribute to it, in order. -/
theorem names_outline (backend : Backend) (rules : List RoutingRule) (m : Manifest) :
    half.names ((m.beforeUnits backend ++ m.units backend ++ configuration rules).map said)
      = (rules.filter half.takes).map fun r => attributeKey r.name := by
  rw [names, under_outline, heads_entries]

/-- No name is bound twice exactly if the rules are apart from each other. -/
theorem nodup_names_outline (backend : Backend) (rules : List RoutingRule) (m : Manifest) :
    (half.names ((m.beforeUnits backend ++ m.units backend ++ configuration rules).map said)).Nodup
      ↔ rules.Pairwise half.Apart := by
  rw [names_outline, List.Nodup, List.pairwise_map, List.pairwise_filter]
  rfl

end Half

end ComposeNix.Routing

namespace ComposeNix.Manifest

open Routing (Half)

variable (backend : Backend) (rules : List RoutingRule) (m : Manifest)

/-- The rules in the labels of services have names, addresses and hosts. -/
theorem isComplete_of_mem_routes : ∀ r ∈ m.routes, r.isComplete = true := by
  intro r hr
  obtain ⟨e, -, hr⟩ := List.mem_flatMap.mp hr
  exact Routing.isComplete_of_mem_rulesOf hr

/-- The rules in the labels of services contribute to both halves. -/
theorem takes_of_mem_routes (half : Half) : ∀ r ∈ m.routes, half.takes r = true := by
  intro r hr
  exact half.takes_of_isComplete (m.isComplete_of_mem_routes r hr)

/-- When a half of the routing configuration binds no name twice.  Rules that are given have to be
apart from each other and from those in labels, and so have the rules in the labels of
different services.  The rules of one service have different names and contribute to
both halves; names without line feeds are the same attribute only if they are the same name. -/
theorem nodup_names_iff (half : Half) :
    ∃ fields, Nix.readModule (m.toModule backend rules).toList = some fields
      ∧ ((half.names fields).Nodup
        ↔ rules.Pairwise half.Apart
          ∧ (∀ e ∈ m.services, (e.2.routes e.1).Pairwise half.Apart)
          ∧ m.services.Pairwise (fun e f =>
              ∀ r ∈ e.2.routes e.1, ∀ s ∈ f.2.routes f.1, half.Apart r s)
          ∧ ∀ r ∈ rules, ∀ s ∈ m.routes, half.Apart r s)
      ∧ (∀ e ∈ m.services, ((e.2.routes e.1).map RoutingRule.name).Nodup)
      ∧ (∀ r ∈ m.routes, half.takes r = true)
      ∧ ∀ r s : RoutingRule, '\n' ∉ r.name.toList → '\n' ∉ s.name.toList →
          (half.Apart r s ↔ (half.takes r → half.takes s → r.name ≠ s.name)) := by
  refine ⟨_, m.readModule_toModule backend rules, ?_, ?_, ?_, ?_⟩
  · rw [half.nodup_names_outline, List.pairwise_append, routes, List.pairwise_flatMap]
    exact ⟨fun ⟨hrules, ⟨hown, hothers⟩, hboth⟩ => ⟨hrules, hown, hothers, hboth⟩,
      fun ⟨hrules, hown, hothers, hboth⟩ => ⟨hrules, ⟨hown, hothers⟩, hboth⟩⟩
  · exact fun e _ => Routing.nodup_names_rulesOf e.1 (e.2.labels.getD [])
  · exact m.takes_of_mem_routes half
  · exact fun r s hr hs => half.apart_iff_of_notMem hr hs

/-- Two services whose labels name the same route. -/
def sharedRoute : String :=
  "services:\n  a: &a\n    labels:\n"
    ++ "      traefik.http.routers.app.rule: Host(`a.io`)\n"
    ++ "      traefik.http.services.app.loadbalancer.server.port: 80\n"
    ++ "  b: *a\n"

/-- In the module for the two services, both halves bind the name of their route twice. -/
theorem not_nodup_names_sharedRoute : ∃ module fields,
    (convert sharedRoute (.str "docker") [] none).1 = .ok module
      ∧ Nix.readModule module.toList = some fields
      ∧ ∀ half : Half, ¬ (half.names fields).Nodup := by
  have hread : ((ofText none sharedRoute).1.toOption.map fun m =>
      (m.routes.map RoutingRule.name, m.break?)) = some (["app", "app"], none) := by decide +kernel
  obtain ⟨m, hm, hroutes⟩ := Option.map_eq_some_iff.mp hread
  obtain ⟨hnames, hbreak⟩ := Prod.mk.inj hroutes
  have hmodule := (convert_eq_ok_iff .docker).mpr
    ⟨[], m, (rfl : RoutingRule.ofValues [] = .ok []), toOption_eq_some_iff.mp hm, hbreak, rfl⟩
  refine ⟨m.toModule .docker [], _, hmodule, m.readModule_toModule .docker [], fun half => ?_⟩
  have htwice : half.names ((m.beforeUnits .docker ++ m.units .docker
      ++ Routing.configuration ([] ++ m.routes)).map Nix.said)
        = ["app", "app"].map Routing.attributeKey := by
    rw [half.names_outline, List.nil_append, List.filter_eq_self.mpr (m.takes_of_mem_routes half),
      ← hnames, List.map_map]
    rfl
  rw [htwice, List.map_cons, List.nodup_cons]
  exact fun h => h.1 List.mem_cons_self

end ComposeNix.Manifest
