import ComposeNix.Proofs.Module.Listing

/-!
# The units of named volumes and networks

A project names volumes in two places: it declares them, and its services mount them.  The names
that stand there, one after the other and as often as they stand there, are `namedVolumes`; what the
project owns are their first occurrences.  Networks are named by declarations alone.

`resources_document` carries this to the units.  Each name has one unit in the section of its kind,
and the units stand there in the order in which the names first occur.  A service that is added
behind the others may bring new names, but moves none.
-/

namespace ComposeNix.Manifest

variable (m : Manifest)

/-! ## The names -/

/-- Whether a mount names a volume: it has no slash, and something stands before its first colon. -/
def NamesVolume (mount : String) : Prop := '/' ∉ mount.toList ∧ mountSource mount ≠ ""

instance (mount : String) : Decidable (NamesVolume mount) := inferInstanceAs (Decidable (_ ∧ _))

/-- The names of volumes, as often as they are given: those that are declared, and those that are
mounted, service by service and mount by mount. -/
def namedVolumes : List String :=
  m.volumes ++ ((m.services.flatMap fun e => e.2.volumes.getD []).filter (NamesVolume ·)).map
    mountSource

theorem mountedVolume?_eq (mount : String) :
    mountedVolume? mount = if NamesVolume mount then some (mountSource mount) else none := by
  split
  · rename_i hnames
    exact mountedVolume?_eq_some_iff.mpr ⟨hnames.1, rfl, hnames.2⟩
  · rename_i hnames
    rw [Option.eq_none_iff_forall_ne_some]
    intro name hname
    obtain ⟨hslash, rfl, hne⟩ := mountedVolume?_eq_some_iff.mp hname
    exact hnames ⟨hslash, hne⟩

theorem filterMap_mountedVolume? (mounts : List String) :
    mounts.filterMap mountedVolume? = (mounts.filter (NamesVolume ·)).map mountSource := by
  induction mounts with
  | nil => rfl
  | cons mount mounts ih =>
    have hmount := mountedVolume?_eq mount
    by_cases hnames : NamesVolume mount
    · rw [if_pos hnames] at hmount
      rw [List.filterMap_cons_some hmount, List.filter_cons_of_pos (by simpa using hnames),
        List.map_cons, ih]
    · rw [if_neg hnames] at hmount
      rw [List.filterMap_cons_none hmount, List.filter_cons_of_neg (by simpa using hnames), ih]

/-- What the project owns are the first occurrences of the names. -/
theorem ownVolumes_eq : m.ownVolumes = distinct m.namedVolumes := by
  rw [ownVolumes, mountedVolumes, namedVolumes, ← filterMap_mountedVolume?,
    List.filterMap_flatMap]

/-- Services that are added behind the others only add names. -/
theorem ownVolumes_prefix (more : Dictionary Service) :
    m.ownVolumes <+: ({ m with services := m.services ++ more } : Manifest).ownVolumes := by
  have hnames : ({ m with services := m.services ++ more } : Manifest).mountedVolumes
      = m.mountedVolumes ++ more.flatMap fun e =>
        (e.2.volumes.getD []).filterMap mountedVolume? := List.flatMap_append
  rw [ownVolumes, ownVolumes, hnames, ← List.append_assoc, distinct_append _ (more.flatMap _)]
  exact List.prefix_append _ _

/-! ## The sections -/

/-- The units in every section with this title: their names, if the blocks are units. -/
def unitsUnder (title : String) (d : Nix.Document) : List (List (Option String)) :=
  (d.filter fun s => s.title = title.toList).map fun s =>
    s.blocks.map fun block => (Lifecycle.readUnit block).map (·.name)

variable (backend : Backend) (rules : List RoutingRule)

theorem map_readUnit (kind : String) (names : List String) :
    (names.map (Lifecycle.unitBlock backend kind)).map
        (fun block => (Lifecycle.readUnit block).map (·.name))
      = names.map fun name => some (Lifecycle.unitName backend kind name) := by
  rw [List.map_map]
  refine List.map_congr_left fun name _ => ?_
  rw [Function.comp_apply, Lifecycle.readUnit_eq, Option.map_some]

theorem unitsUnder_volumes : unitsUnder "Volume services" (m.document backend rules)
    = [m.ownVolumes.map fun v => some (Lifecycle.unitName backend "volume" v)] := by
  rw [← map_readUnit]
  rfl

theorem unitsUnder_networks : unitsUnder "Network services" (m.document backend rules)
    = [m.ownNetworks.map fun n => some (Lifecycle.unitName backend "network" n)] := by
  rw [← map_readUnit]
  rfl

/-- What a project owns, and the units for it.  Its volumes are those that it declares and those
that its services mount by name, its networks are those that it declares, and both stand in the
order in which their names first occur.  The one section of each kind has a unit for every name, in
this order, and no other unit of the module runs a command line of its own.  Services that are added
behind the others move no volume, and whatever networks services are in, they bring no network. -/
theorem resources_document :
    FirstOccurrences m.namedVolumes m.ownVolumes
    ∧ (∀ v, v ∈ m.ownVolumes ↔ v ∈ m.volumes
      ∨ ∃ e ∈ m.services, ∃ mount ∈ e.2.volumes.getD [],
          '/' ∉ mount.toList ∧ mountSource mount = v ∧ v ≠ "")
    ∧ FirstOccurrences m.networks m.ownNetworks
    ∧ (∀ more, m.ownVolumes <+: ({ m with services := m.services ++ more } : Manifest).ownVolumes)
    ∧ ∀ backend rules,
      unitsUnder "Volume services" (m.document backend rules)
          = [m.ownVolumes.map fun v => some (Lifecycle.unitName backend "volume" v)]
        ∧ (∀ services, unitsUnder "Network services"
            (({ m with services } : Manifest).document backend rules)
          = [m.ownNetworks.map fun n => some (Lifecycle.unitName backend "network" n)])
        ∧ ∃ fields, Nix.readModule (m.toModule backend rules).toList = some fields
          ∧ fields.filterMap Lifecycle.unit?
            = (m.ownVolumes.map Nix.collapseName).map (Lifecycle.unitName backend "volume")
              ++ (m.ownNetworks.map Nix.collapseName).map
                (Lifecycle.unitName backend "network") := by
  refine ⟨?_, fun v => mem_ownVolumes_iff, firstOccurrences_distinct m.networks,
    m.ownVolumes_prefix, fun backend rules => ⟨m.unitsUnder_volumes backend rules,
      fun services => unitsUnder_networks { m with services } backend rules, _,
      m.readModule_toModule backend rules,
      units_toModule backend rules m (m.readModule_toModule backend rules)⟩⟩
  rw [ownVolumes_eq]
  exact firstOccurrences_distinct m.namedVolumes

/-- A declared name stands in front of one that is mounted before it; a directory has no name. -/
example : ownVolumes {
    services := [
      ("app", { (Service.read []).value with volumes := some ["data:/d", "logs", "./x:y"] }),
      ("db", { (Service.read []).value with volumes := some [":z", "data", "logs:z"] })]
    volumes := ["logs"]
    networks := []
    name := none } = ["logs", "data"] := by decide

end ComposeNix.Manifest
