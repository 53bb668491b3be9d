import ComposeNix.Conversion
import ComposeNix.Proofs.Container.Declaration
import ComposeNix.Proofs.Nix.Outline
import ComposeNix.Proofs.Routing.Configuration
import ComposeNix.Proofs.Systemd.Lifecycle
import ComposeNix.Proofs.Systemd.Override

/-!
# The outline of a module

The document of a module is laid out from six chapters of bindings (`Manifest.outline`,
`document_outline`).  All of them can be read, whatever the manifest and the rules say
(`wellFormed_outline`): the texts of a manifest only ever stand in strings and in the names of
attributes, never in a word or in an antiquotation.
-/

namespace ComposeNix.Manifest

open Nix (Attr Binding BindingsWellFormed Chapter IsPlain bindingsWellFormed_iff isPlain_set
  isPlain_text isPlain_word)

/-- The bindings that turn the runtime on. -/
def runtimeBindings (backend : Backend) : List Binding := [
  ([.word "virtualisation", .word backend.name], .set false [
    ([.word "enable"], .word "true"),
    ([.word "autoPrune", .word "enable"], .word "true")]),
  ([.word "virtualisation", .word "oci-containers", .word "backend"], .ofText backend.name)]

/-- The chapters of a module. -/
def outline (backend : Backend) (rules : List RoutingRule) (m : Manifest) : Nix.Outline := [
  ⟨"Runtime".toList, [runtimeBindings backend]⟩,
  ⟨"Containers".toList, m.services.map fun e => [e.2.declaration m.projectName e.1]⟩,
  ⟨"Systemd service customizations".toList,
    m.services.filterMap fun e => (e.2.override? backend e.1).map ([·])⟩,
  ⟨"Volume services".toList, m.ownVolumes.map fun v => [Lifecycle.unit backend "volume" v]⟩,
  ⟨"Network services".toList, m.ownNetworks.map fun n => [Lifecycle.unit backend "network" n]⟩,
  ⟨"Traefik configuration".toList, [Routing.configuration (rules ++ m.routes)]⟩]

variable (backend : Backend) (rules : List RoutingRule) (m : Manifest)

/-- The document of a module is laid out from its outline. -/
theorem document_outline : (m.outline backend rules).document = m.document backend rules := by
  have hoverrides : (m.services.filterMap fun e => (e.2.override? backend e.1).map ([·])).map
      Nix.renderBlock = m.overrideBlocks backend := by
    rw [List.map_filterMap, overrideBlocks]
    congr 1
    funext e
    rw [Option.map_map]
    rfl
  simp only [Nix.Outline.document, outline, List.map_cons, List.map_nil, Chapter.laidOut,
    hoverrides, Routing.renderBlock_configuration, List.map_map]
  rfl

theorem isPlain_of_mem_runtimeBindings {b : Binding} (hb : b ∈ runtimeBindings backend) :
    IsPlain b := by
  have hname : (Attr.word backend.name).WellFormed := by cases backend <;> decide
  rw [runtimeBindings, List.mem_cons, List.mem_singleton] at hb
  rcases hb with rfl | rfl
  · refine isPlain_set ?_ fun b hb => ?_
    · exact ⟨by decide, hname⟩
    · rw [List.mem_cons, List.mem_singleton] at hb
      rcases hb with rfl | rfl
      · exact isPlain_word (by decide) (by decide)
      · exact isPlain_word (by decide) (by decide)
  · exact isPlain_text (by decide) backend.name

/-- A module can be read, whatever its manifest and its rules say. -/
theorem wellFormed_outline : (m.outline backend rules).WellFormed := by
  have hchapter : ∀ (title : List Char) (blocks : List (List Binding)), '\n' ∉ title →
      (∀ b ∈ blocks, BindingsWellFormed b) → Chapter.WellFormed ⟨title, blocks⟩ :=
    fun _ _ ht hb => ⟨ht, hb⟩
  constructor
  · simp only [outline, List.forall_mem_cons, List.not_mem_nil, false_implies, implies_true,
      and_true]
    refine ⟨hchapter _ _ (by decide) ?_, hchapter _ _ (by decide) ?_,
      hchapter _ _ (by decide) ?_, hchapter _ _ (by decide) ?_,
      hchapter _ _ (by decide) ?_, hchapter _ _ (by decide) ?_⟩
    · intro b hb
      obtain rfl := List.mem_singleton.mp hb
      exact bindingsWellFormed_iff.mpr fun b hb =>
        (isPlain_of_mem_runtimeBindings backend hb).wellFormed
    · intro b hb
      obtain ⟨e, -, rfl⟩ := List.mem_map.mp hb
      exact ⟨(Service.isPlain_declaration m.projectName e.1 e.2).wellFormed, trivial⟩
    · intro b hb
      obtain ⟨e, -, he⟩ := List.mem_filterMap.mp hb
      obtain ⟨b', hb', rfl⟩ := Option.map_eq_some_iff.mp he
      exact ⟨(Service.isPlain_override? hb').wellFormed, trivial⟩
    · intro b hb
      obtain ⟨v, -, rfl⟩ := List.mem_map.mp hb
      exact ⟨Lifecycle.wellFormed_unit backend "volume" v, trivial⟩
    · intro b hb
      obtain ⟨n, -, rfl⟩ := List.mem_map.mp hb
      exact ⟨Lifecycle.wellFormed_unit backend "network" n, trivial⟩
    · intro b hb
      obtain rfl := List.mem_singleton.mp hb
      exact bindingsWellFormed_iff.mpr fun b hb =>
        (Routing.isPlain_of_mem_configuration hb).wellFormed
  · exact List.cons_ne_nil _ _

end ComposeNix.Manifest
