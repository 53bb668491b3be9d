import ComposeNix.Proofs.Module.Outline

/-!
# What becomes of the texts of a manifest

A manifest and its rules are full of texts that somebody else wrote.  Two things are said here
about the module that they end up in.

`toModule_closed`: no text can get out of its string.  The module is lexically closed, its
literals are the texts of its outline, one for one, and it has no antiquotations but the two of
every unit.

`block_infix_toModule_iff`: what a text says is not always kept.  The pass over empty lines works on
the whole module and knows nothing of strings, so it cuts runs of line feeds inside of texts
too.  A block stands in the module as it was laid out exactly if none of its texts has three
line feeds in a row.
-/

namespace ComposeNix.Manifest

open Nix (Binding IsPlain Outline TextsKept bindingLiterals bindingNodes bindingsLiterals
  bindingsNodes collapseBinding collapseBindings holesOf literalsOf nest?)

variable (backend : Backend) (rules : List RoutingRule) (m : Manifest)

/-- The units of the volumes and networks that the project owns. -/
def units : List Binding :=
  m.ownVolumes.map (Lifecycle.unit backend "volume")
    ++ m.ownNetworks.map (Lifecycle.unit backend "network")

/-- The bindings in front of the units. -/
def beforeUnits : List Binding :=
  runtimeBindings backend ++ m.services.map (fun e => e.2.declaration m.projectName e.1)
    ++ m.services.filterMap fun e => e.2.override? backend e.1

/-- Blocks of one binding each, one after the other. -/
theorem flatten_map_singleton {α β : Type} (f : α → β) (xs : List α) :
    (xs.map fun x => [f x]).flatten = xs.map f := by
  induction xs with
  | nil => rfl
  | cons x xs ih => rw [List.map_cons, List.flatten_cons, ih, List.map_cons, List.singleton_append]

theorem flatten_filterMap_singleton {α β : Type} (f : α → Option β) (xs : List α) :
    (xs.filterMap fun x => (f x).map ([·])).flatten = xs.filterMap f := by
  induction xs with
  | nil => rfl
  | cons x xs ih =>
    cases hx : f x with
    | none => rw [List.filterMap_cons_none hx, List.filterMap_cons_none (by rw [hx]; rfl), ih]
    | some y =>
      rw [List.filterMap_cons_some hx, List.filterMap_cons_some (b := [y]) (by rw [hx]; rfl),
        List.flatten_cons, ih, List.singleton_append]

/-- The bindings of a module: its units stand between what is plain. -/
theorem bindings_outline : (m.outline backend rules).bindings
    = m.beforeUnits backend ++ m.units backend ++ Routing.configuration (rules ++ m.routes) := by
  simp only [outline, Outline.bindings, List.flatMap_cons, List.flatMap_nil, List.flatten_cons,
    List.flatten_nil, List.append_nil, flatten_map_singleton, flatten_filterMap_singleton,
    beforeUnits, units, List.append_assoc]

/-! ## No text gets out of its string -/

/-- Plain bindings have no antiquotations when their texts are collapsed, and all of them can
be read. -/
theorem holesOf_collapse_of_isPlain {bs : List Binding} (h : ∀ b ∈ bs, IsPlain b) :
    holesOf (literalsOf (bindingsNodes (collapseBindings bs))) = [] := by
  rw [Nix.literalsOf_bindingsNodes, Nix.holesOf_bindingsLiterals, Nix.holes_collapseBindings,
    List.flatMap_eq_nil_iff]
  exact fun b hb => (h b hb).holes

theorem isPlain_of_mem_beforeUnits {b : Binding} (hb : b ∈ m.beforeUnits backend) : IsPlain b := by
  rcases List.mem_append.mp hb with hb | hb
  · rcases List.mem_append.mp hb with hb | hb
    · exact isPlain_of_mem_runtimeBindings backend hb
    · obtain ⟨e, -, rfl⟩ := List.mem_map.mp hb
      exact Service.isPlain_declaration m.projectName e.1 e.2
  · obtain ⟨e, -, he⟩ := List.mem_filterMap.mp hb
    exact Service.isPlain_override? he

theorem holesOf_collapse_of_mem_units {u : Binding} (hu : u ∈ m.units backend) :
    holesOf (literalsOf (bindingNodes (collapseBinding u)))
      = [Lifecycle.shellHole, Lifecycle.shellHole] := by
  rw [Nix.literalsOf_bindingNodes, Nix.holesOf_bindingLiterals, Nix.holes_collapseBinding]
  rcases List.mem_append.mp hu with hu | hu
  · obtain ⟨v, -, rfl⟩ := List.mem_map.mp hu
    exact Lifecycle.holes_unit backend "volume" v
  · obtain ⟨n, -, rfl⟩ := List.mem_map.mp hu
    exact Lifecycle.holes_unit backend "network" n

/-- The module is lexically closed, whatever texts the manifest and the rules hold: its
literals and antiquotations end, its brackets nest, and nothing is open at its end.  Its literals
are the texts of its outline, one for one and in order.  The only antiquotations in it are the
two of every unit of a volume or network. -/
theorem toModule_closed :
    ∃ before after : List Nix.Node,
      nest? (m.toModule backend rules).toList
          = some (Outline.arguments ++ [.group .brace (before
            ++ (m.units backend).flatMap (fun u => bindingNodes (collapseBinding u)) ++ after)])
        ∧ literalsOf (before
              ++ (m.units backend).flatMap (fun u => bindingNodes (collapseBinding u)) ++ after)
            = bindingsLiterals (collapseBindings (m.outline backend rules).bindings)
        ∧ holesOf (literalsOf before) = []
        ∧ (∀ u ∈ m.units backend, holesOf (literalsOf (bindingNodes (collapseBinding u)))
            = ["pkgs.runtimeShell".toList, "pkgs.runtimeShell".toList])
        ∧ holesOf (literalsOf after) = [] := by
  have hbody : bindingsNodes (collapseBindings (m.outline backend rules).bindings)
      = bindingsNodes (collapseBindings (m.beforeUnits backend))
        ++ (m.units backend).flatMap (fun u => bindingNodes (collapseBinding u))
        ++ bindingsNodes (collapseBindings (Routing.configuration (rules ++ m.routes))) := by
    simp only [bindings_outline, Nix.collapseBindings_eq_map, Nix.bindingsNodes_eq_flatMap,
      List.map_append, List.flatMap_append, List.flatMap_map]
  have hread := (m.wellFormed_outline backend rules).nest?_render_document
  rw [document_outline, hbody] at hread
  refine ⟨bindingsNodes (collapseBindings (m.beforeUnits backend)),
    bindingsNodes (collapseBindings (Routing.configuration (rules ++ m.routes))),
    ?_, ?_, ?_, ?_, ?_⟩
  · rw [toModule, String.toList_ofList, hread]
  · rw [← hbody, Nix.literalsOf_bindingsNodes]
  · exact holesOf_collapse_of_isPlain fun b hb => m.isPlain_of_mem_beforeUnits backend hb
  · intro u hu
    exact m.holesOf_collapse_of_mem_units backend hu
  · exact holesOf_collapse_of_isPlain fun b hb => Routing.isPlain_of_mem_configuration hb

/-! ## Which blocks are kept -/

/-- A block of the outline stands in the module exactly if none of its texts has a long run. -/
theorem renderBlock_infix_toModule_iff {c : Nix.Chapter} (hc : c ∈ m.outline backend rules)
    {b : List Binding} (hb : b ∈ c.blocks) :
    Nix.renderBlock b <:+: (m.toModule backend rules).toList ↔ TextsKept (bindingsLiterals b) := by
  rw [toModule, String.toList_ofList, ← document_outline]
  exact (m.wellFormed_outline backend rules).renderBlock_infix_render_iff hc hb

/-- Every text of the outline stands in the module, escaped and with its long runs cut down. -/
theorem escape_textOf_infix_toModule {c : Nix.Chapter} (hc : c ∈ m.outline backend rules)
    {b : List Binding} (hb : b ∈ c.blocks) : ∀ ls ∈ bindingsLiterals (collapseBindings b),
      Nix.escape (Nix.textOf ls) <:+: (m.toModule backend rules).toList := by
  intro ls hls
  have h := m.wellFormed_outline backend rules
  have hblock := Nix.bindingsWellFormed_collapse b ((h.chapters c hc).blocks b hb)
  rw [toModule, String.toList_ofList, ← document_outline]
  exact (Nix.escape_textOf_infix_block hblock ls hls).trans
    (h.renderBlock_collapse_infix_render hc hb)

/-- The texts of a module are those of its outline exactly if none of them has a long run. -/
theorem literalsOf_toModule_eq_iff :
    ∃ nodes, nest? (m.toModule backend rules).toList
        = some (Outline.arguments ++ [.group .brace nodes])
      ∧ (literalsOf nodes = bindingsLiterals (m.outline backend rules).bindings
        ↔ TextsKept (bindingsLiterals (m.outline backend rules).bindings)) := by
  have h := m.wellFormed_outline backend rules
  refine ⟨bindingsNodes (collapseBindings (m.outline backend rules).bindings), ?_, ?_⟩
  · rw [toModule, String.toList_ofList, ← document_outline, h.nest?_render_document]
  · rw [Nix.literalsOf_bindingsNodes]
    exact Nix.bindingsLiterals_collapse_eq_iff h.wellFormed_bindings

/-- A block stands in the module as it was laid out exactly if none of its texts has three
line feeds in a row, and the texts of the module are those that were laid out exactly if none of
them has: so it is for every container, for every override, for every unit of a volume or network
and for the routing configuration. -/
theorem block_infix_toModule_iff :
    (∀ e ∈ m.services,
      e.2.containerBlock m.projectName e.1 <:+: (m.toModule backend rules).toList
        ↔ TextsKept (bindingLiterals (e.2.declaration m.projectName e.1)))
      ∧ (∀ e ∈ m.services, ∀ block ∈ e.2.overrideBlock? backend e.1,
        block <:+: (m.toModule backend rules).toList
          ↔ TextsKept (bindingsLiterals (e.2.override? backend e.1).toList))
      ∧ (∀ v ∈ m.ownVolumes,
        Lifecycle.unitBlock backend "volume" v <:+: (m.toModule backend rules).toList
          ↔ TextsKept (bindingLiterals (Lifecycle.unit backend "volume" v)))
      ∧ (∀ n ∈ m.ownNetworks,
        Lifecycle.unitBlock backend "network" n <:+: (m.toModule backend rules).toList
          ↔ TextsKept (bindingLiterals (Lifecycle.unit backend "network" n)))
      ∧ (Routing.block (rules ++ m.routes) <:+: (m.toModule backend rules).toList
          ↔ TextsKept (bindingsLiterals (Routing.configuration (rules ++ m.routes))))
      ∧ ∃ nodes, nest? (m.toModule backend rules).toList
          = some (Outline.arguments ++ [.group .brace nodes])
        ∧ (literalsOf nodes = bindingsLiterals (m.outline backend rules).bindings
          ↔ TextsKept (bindingsLiterals (m.outline backend rules).bindings)) := by
  have hsingle : ∀ b : Binding, bindingsLiterals [b] = bindingLiterals b := by
    intro b
    rw [Nix.bindingsLiterals_eq_flatMap, List.flatMap_singleton]
  have hblock := fun {c : Nix.Chapter} (hc : c ∈ m.outline backend rules) {b : List Binding}
    (hb : b ∈ c.blocks) => m.renderBlock_infix_toModule_iff backend rules hc hb
  refine ⟨?_, ?_, ?_, ?_, ?_, m.literalsOf_toModule_eq_iff backend rules⟩
  · intro e he
    rw [← hsingle]
    exact hblock (.tail _ (.head _)) (List.mem_map_of_mem he)
  · intro e he block hb
    obtain ⟨b, hoverride, rfl⟩ := Option.map_eq_some_iff.mp hb
    have hmem : [b] ∈ m.services.filterMap fun e => (e.2.override? backend e.1).map ([·]) :=
      List.mem_filterMap.mpr ⟨e, he, by rw [hoverride]; rfl⟩
    rw [hoverride]
    exact hblock (.tail _ (.tail _ (.head _))) hmem
  · intro v hv
    rw [← hsingle]
    exact hblock (.tail _ (.tail _ (.tail _ (.head _)))) (List.mem_map_of_mem hv)
  · intro n hn
    rw [← hsingle]
    exact hblock (.tail _ (.tail _ (.tail _ (.tail _ (.head _))))) (List.mem_map_of_mem hn)
  · rw [← Routing.renderBlock_configuration]
    exact hblock (.tail _ (.tail _ (.tail _ (.tail _ (.tail _ (.head _))))))
      (List.mem_singleton_self _)

/-- A service that runs one word, a text with two empty lines in it. -/
def gapped : Service where
  image := none
  workingDir := none
  user := none
  restart := none
  command := some ["x\n\n\ny"]
  entrypoint := none
  environment := none
  envFile := none
  ports := none
  volumes := none
  networks := none
  dependsOn := none
  healthcheck := none
  privileged := false
  capAdd := none
  capDrop := none
  devices := none
  dns := none
  extraHosts := none
  sysctls := none
  logging := none
  limits := none
  labels := none

/-- The block of such a service is not kept: the word has one empty line in the module. -/
theorem not_containerBlock_gapped_infix : ¬ gapped.containerBlock defaultProject "web"
    <:+: (toModule .docker [] ⟨[("web", gapped)], [], [], none⟩).toList := by
  have hmem : [gapped.declaration defaultProject "web"]
      ∈ [[gapped.declaration defaultProject "web"]] := List.mem_singleton_self _
  rw [Service.containerBlock, renderBlock_infix_toModule_iff .docker []
    ⟨[("web", gapped)], [], [], none⟩ (.tail _ (.head _)) hmem]
  intro hkept
  exact hkept ("x\n\n\ny".toList.map .char) (by decide) ⟨['x'], ['y'], by decide⟩

end ComposeNix.Manifest
