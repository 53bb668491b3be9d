import ComposeNix.Proofs.Compose.Distinct
import ComposeNix.Proofs.Conversion
import ComposeNix.Proofs.Module.Texts
import Mathlib.Data.List.Nodup
import Mathlib.Data.List.TakeWhile

/-!
# The units of a module

A module has a unit for the container of every service, for every volume and for every network that
the project owns.

`mountSource_mem_ownVolumes_iff`: which unit keeps what a bare mount is mounted from.  A bare mount
names two volumes: its unit keeps the one of that very name, and the container mounts the one
with the name of the project in front.  So the volume that is mounted has a unit only if it is
declared or mounted by its own name.

`nodup_unitNames_iff`: when all units have different names.  A service is free to be called what a
volume or network is called behind its kind, and nothing else makes two names the same.
-/

namespace ComposeNix

/-! ## Names of units -/

/-- A resource is kept by the unit that the container of a service of this name would have. -/
theorem unitName_eq_containerUnit (backend : Backend) (kind name : String) :
    Lifecycle.unitName backend kind name = containerUnit backend (kind ++ "-" ++ name) := by
  rw [Lifecycle.unitName, containerUnit]
  simp only [String.append_assoc]

theorem append_injective (s : String) : Function.Injective (s ++ ·) := by
  intro a b h
  have hlist := congrArg String.toList h
  simp only [String.toList_append, List.append_cancel_left_eq] at hlist
  exact String.toList_injective hlist

theorem containerUnit_injective (backend : Backend) :
    Function.Injective (containerUnit backend) := append_injective (backend.name ++ "-")

/-- Volumes and networks never have the same unit. -/
theorem volume_ne_network (v n : String) : "volume-" ++ v ≠ "network-" ++ n := by
  intro h
  have hhead := congrArg (fun s => s.toList.head?) h
  simp [String.toList_append] at hhead

namespace Manifest

/-! ## What the project owns -/

/-- The volume that a mount takes its files from, if it is none of the project's own. -/
def mountSource (mount : String) : String := String.ofList (mount.toList.takeWhile (· ≠ ':'))

/-- A mount refers to its source, unless it is a directory. -/
theorem mountedVolume?_eq_some_iff {mount name : String} : mountedVolume? mount = some name
    ↔ '/' ∉ mount.toList ∧ mountSource mount = name ∧ name ≠ "" := by
  have hempty : (mount.toList.takeWhile (· ≠ ':')).isEmpty = true ↔ mountSource mount = "" := by
    rw [List.isEmpty_iff, mountSource, ← String.toList_inj, String.toList_ofList]
    rfl
  rw [mountedVolume?]
  by_cases hslash : mount.toList.contains '/' = true
  · have hmem : '/' ∈ mount.toList := List.contains_iff_mem.mp hslash
    simp [hmem]
  · have hmem : '/' ∉ mount.toList := fun h => hslash (List.contains_iff_mem.mpr h)
    by_cases hname : mountSource mount = ""
    · rw [if_neg hslash, if_pos (hempty.mpr hname)]
      exact ⟨fun h => absurd h (Option.some_ne_none name).symm,
        fun ⟨_, hsource, hne⟩ => absurd (hsource ▸ hname) hne⟩
    · rw [if_neg hslash, if_neg fun h => hname (hempty.mp h), Option.some.injEq]
      exact ⟨fun h => ⟨hmem, h, h ▸ hname⟩, fun h => h.2.1⟩

variable {m : Manifest}

/-- The project owns what it declares and what its services mount by name. -/
theorem mem_ownVolumes_iff {v : String} : v ∈ m.ownVolumes ↔ v ∈ m.volumes
    ∨ ∃ e ∈ m.services, ∃ mount ∈ e.2.volumes.getD [],
        '/' ∉ mount.toList ∧ mountSource mount = v ∧ v ≠ "" := by
  simp only [ownVolumes, mem_distinct, List.mem_append, mountedVolumes, List.mem_flatMap,
    List.mem_filterMap, mountedVolume?_eq_some_iff]

/-- The unit of a volume is in the module exactly if the project owns the volume. -/
theorem unit_mem_units_iff (backend : Backend) (v : String) :
    Lifecycle.unit backend "volume" v ∈ m.units backend ↔ v ∈ m.ownVolumes := by
  have hname : ∀ {kind name : String}, Lifecycle.unit backend kind name
      = Lifecycle.unit backend "volume" v → kind ++ "-" ++ name = "volume-" ++ v := by
    intro kind name h
    have hpath := (Prod.mk.inj h).1
    simp only [List.cons.injEq, Nix.Attr.quoted.injEq, unitName_eq_containerUnit] at hpath
    exact containerUnit_injective backend hpath.2.2.1
  rw [units, List.mem_append, List.mem_map, List.mem_map]
  constructor
  · rintro (⟨w, hw, h⟩ | ⟨n, -, h⟩)
    · rwa [← append_injective "volume-" (hname h)]
    · exact absurd (hname h).symm (volume_ne_network v n)
  · exact fun hv => Or.inl ⟨v, hv, rfl⟩

/-! ## Bare mounts -/

/-- What stands in front of the first colon. -/
theorem takeWhile_append_colon (cs rest : List Char) :
    (cs ++ ':' :: rest).takeWhile (· ≠ ':') = cs.takeWhile (· ≠ ':') := by
  induction cs with
  | nil => rfl
  | cons c cs ih =>
    rw [List.cons_append, List.takeWhile_cons, List.takeWhile_cons, ih]

/-- A text without colons is its own source. -/
theorem mountSource_of_notMem {mount : String} (h : ':' ∉ mount.toList) :
    mountSource mount = mount := by
  have hwhole : mount.toList.takeWhile (· ≠ ':') = mount.toList := by
    rw [List.takeWhile_eq_self_iff]
    intro c hc
    exact decide_eq_true fun hcolon => h (hcolon ▸ hc)
  rw [mountSource, hwhole, String.ofList_toList]

theorem toList_mountSource_subset (mount : String) :
    (mountSource mount).toList ⊆ mount.toList := by
  rw [mountSource, String.toList_ofList]
  exact (List.takeWhile_sublist _).subset

/-- A bare mount takes its files from the volume with the name of the project in front. -/
theorem mountSource_mountFor {project entry : String} (h : ':' ∉ entry.toList) :
    mountSource (mountFor project entry) = mountSource (project ++ "_" ++ entry) := by
  have hcontains : entry.toList.contains ':' = false := by
    rw [Bool.eq_false_iff]
    exact fun hmem => h (List.contains_iff_mem.mp hmem)
  have hmount : (project ++ "_" ++ entry ++ ":" ++ entry ++ ":rw").toList
      = (project ++ "_" ++ entry).toList ++ ':' :: (entry ++ ":rw").toList := by
    simp [String.toList_append]
  rw [mountFor, hcontains, mountSource, if_neg Bool.false_ne_true, hmount, takeWhile_append_colon,
    mountSource]

theorem project_ne_entry (project entry : String) : project ++ "_" ++ entry ≠ entry := by
  intro h
  have hlength := congrArg String.length h
  simp only [String.length_append] at hlength
  have hone : "_".length = 1 := rfl
  omega

/-- What a bare mount is mounted from, and which units keep it.  The container takes its files from
the volume with the name of the project in front, which is another volume than the one of that
very name.  The unit for the mount keeps the latter; the former has a unit exactly if it is declared
or some service mounts it by its name. -/
theorem mountSource_mem_ownVolumes_iff (m : Manifest) {e : String × Service}
    (he : e ∈ m.services) {entry : String} (hentry : entry ∈ e.2.volumes.getD [])
    (hbare : ':' ∉ entry.toList) :
    mountSource (mountFor m.projectName entry) = mountSource (m.projectName ++ "_" ++ entry)
      ∧ (':' ∉ m.projectName.toList →
          mountSource (mountFor m.projectName entry) = m.projectName ++ "_" ++ entry
            ∧ mountSource (mountFor m.projectName entry) ≠ entry)
      ∧ (entry ∈ m.ownVolumes ↔ entry ∈ m.volumes ∨ '/' ∉ entry.toList ∧ entry ≠ "")
      ∧ (mountSource (mountFor m.projectName entry) ∈ m.ownVolumes
        ↔ mountSource (mountFor m.projectName entry) ∈ m.volumes
          ∨ ∃ f ∈ m.services, ∃ mount ∈ f.2.volumes.getD [], '/' ∉ mount.toList
              ∧ mountSource mount = mountSource (mountFor m.projectName entry)
              ∧ mountSource (mountFor m.projectName entry) ≠ "")
      ∧ ∀ backend v, Lifecycle.unit backend "volume" v ∈ m.units backend ↔ v ∈ m.ownVolumes := by
  refine ⟨mountSource_mountFor hbare, fun hproject => ?_, ?_, mem_ownVolumes_iff,
    unit_mem_units_iff⟩
  · have hsource : mountSource (mountFor m.projectName entry) = m.projectName ++ "_" ++ entry := by
      rw [mountSource_mountFor hbare, mountSource_of_notMem]
      simpa [String.toList_append, hbare] using hproject
    exact ⟨hsource, hsource ▸ project_ne_entry m.projectName entry⟩
  · rw [mem_ownVolumes_iff]
    constructor
    · rintro (h | ⟨f, -, mount, -, hslash, hsource, hne⟩)
      · exact Or.inl h
      · refine Or.inr ⟨fun hmem => hslash (toList_mountSource_subset mount ?_), hne⟩
        rwa [hsource]
    · rintro (h | ⟨hslash, hne⟩)
      · exact Or.inl h
      · exact Or.inr ⟨e, he, entry, hentry, hslash, mountSource_of_notMem hbare, hne⟩

/-- A project whose only service mounts one volume by its bare name, and is called what the unit
of that volume is called. -/
def cacheProject : Manifest where
  services := [("volume-cache", { gapped with command := none, volumes := some ["cache"] })]
  volumes := []
  networks := []
  name := none

/-- The volume that the project mounts has no unit. -/
theorem not_mountSource_mem_ownVolumes_cacheProject :
    ¬ ∀ m : Manifest, ∀ e ∈ m.services, ∀ entry ∈ e.2.volumes.getD [], ':' ∉ entry.toList →
      mountSource (mountFor m.projectName entry) ∈ m.ownVolumes := by
  intro h
  have hcache := h cacheProject _ List.mem_cons_self "cache" List.mem_cons_self (by decide)
  exact absurd hcache (by decide)

/-- What is mounted, and which volume has a unit, in the project with one bare mount. -/
theorem mountSource_cacheProject :
    ∃ e ∈ cacheProject.services, "cache" ∈ e.2.volumes.getD [] ∧ ':' ∉ "cache".toList
      ∧ mountSource (mountFor cacheProject.projectName "cache") = "myproject_cache"
      ∧ "cache" ∈ cacheProject.ownVolumes := by
  have hentry : "cache" ∈ ["cache"] := List.mem_singleton_self _
  have hbare : ':' ∉ "cache".toList := by decide
  have h := mountSource_mem_ownVolumes_iff cacheProject List.mem_cons_self hentry hbare
  exact ⟨_, List.mem_cons_self, hentry, hbare, (h.2.1 (by decide)).1.trans (by decide),
    h.2.2.1.mpr (Or.inr (by decide))⟩

/-! ## All units -/

/-- The names of the units for containers, volumes and networks. -/
def unitNames (backend : Backend) (m : Manifest) : List String :=
  m.services.map (fun e => containerUnit backend e.1)
    ++ m.ownVolumes.map (Lifecycle.unitName backend "volume")
    ++ m.ownNetworks.map (Lifecycle.unitName backend "network")

theorem unitNames_eq_map (backend : Backend) (m : Manifest) :
    m.unitNames backend = (Dictionary.keys m.services ++ m.ownVolumes.map ("volume-" ++ ·)
      ++ m.ownNetworks.map ("network-" ++ ·)).map (containerUnit backend) := by
  have hkind : ∀ kind names, List.map (Lifecycle.unitName backend kind) names
      = names.map fun name => containerUnit backend (kind ++ "-" ++ name) := fun kind names =>
    List.map_congr_left fun name _ => unitName_eq_containerUnit backend kind name
  rw [unitNames, hkind, hkind]
  simp only [Dictionary.keys, List.map_append, List.map_map]
  rfl

/-- Whatever a module says about a unit, it says about one of these. -/
theorem exists_unitName_of_mem_bindings {backend : Backend} {rules : List RoutingRule}
    {m : Manifest} {b : Nix.Binding} (hb : b ∈ (m.outline backend rules).bindings)
    (hunit : b.1.take 2 = [.word "systemd", .word "services"]) :
    ∃ name ∈ m.unitNames backend, b.1 = [.word "systemd", .word "services", .quoted name] := by
  rw [bindings_outline, List.mem_append, List.mem_append, beforeUnits, List.mem_append,
    List.mem_append, units, List.mem_append] at hb
  rcases hb with (((hb | hb) | hb) | hb | hb) | hb
  · rw [runtimeBindings, List.mem_cons, List.mem_singleton] at hb
    rcases hb with rfl | rfl <;> simp at hunit
  · obtain ⟨e, -, rfl⟩ := List.mem_map.mp hb
    simp [Service.declaration] at hunit
  · obtain ⟨e, he, hoverride⟩ := List.mem_filterMap.mp hb
    rw [Service.override?] at hoverride
    split at hoverride
    · cases hoverride
    · obtain rfl := Option.some.inj hoverride
      refine ⟨containerUnit backend e.1, ?_, rfl⟩
      exact List.mem_append_left _ (List.mem_append_left _ (List.mem_map.mpr ⟨e, he, rfl⟩))
  · obtain ⟨v, hv, rfl⟩ := List.mem_map.mp hb
    exact ⟨_, List.mem_append_left _ (List.mem_append_right _ (List.mem_map.mpr ⟨v, hv, rfl⟩)), rfl⟩
  · obtain ⟨n, hn, rfl⟩ := List.mem_map.mp hb
    exact ⟨_, List.mem_append_right _ (List.mem_map.mpr ⟨n, hn, rfl⟩), rfl⟩
  · rw [Routing.configuration] at hb
    split at hb
    · simp at hb
    · obtain rfl := List.mem_singleton.mp hb
      simp at hunit

theorem nodup_keys_readServices (v : Value) :
    (Dictionary.keys (readServices v).value).Nodup := by
  rw [readServices]
  split
  · exact List.nodup_nil
  · rename_i named hnamed
    have hkeys : Dictionary.keys (Checked.all ((Dictionary.ofEntries named).map fun e =>
        ((e.1, ·) <$> Service.read e.2).under e.1)).value
          = Dictionary.keys (Dictionary.ofEntries named) := by
      rw [Checked.value_all, Dictionary.keys, List.map_map, List.map_map]
      rfl
    rw [hkeys]
    exact Dictionary.nodup_keys_ofEntries named

/-- The services of a manifest that was read have different names. -/
theorem nodup_keys_of_ofText {context : Option Template.Context} {text : String} {m : Manifest}
    (h : (ofText context text).1 = .ok m) : (Dictionary.keys m.services).Nodup := by
  obtain ⟨es, rfl⟩ := exists_read_of_ofText h
  have hservices : (read es).value.services = (servicesField es).value :=
    congrArg Manifest.services (Entries.value_withKeys es _)
  rw [hservices, servicesField]
  split
  · exact List.nodup_nil
  · exact nodup_keys_readServices _

/-- All units have different names exactly if no service is called what a volume or network of the
project is called behind its kind; the services of a manifest that was read have different
names.  Whatever a module says about a unit, it says about one of these. -/
theorem nodup_unitNames_iff (backend : Backend) (m : Manifest) :
    ((m.unitNames backend).Nodup
        ↔ (Dictionary.keys m.services).Nodup
          ∧ (∀ v ∈ m.ownVolumes, "volume-" ++ v ∉ Dictionary.keys m.services)
          ∧ ∀ n ∈ m.ownNetworks, "network-" ++ n ∉ Dictionary.keys m.services)
      ∧ (∀ context text, (ofText context text).1 = .ok m → (Dictionary.keys m.services).Nodup)
      ∧ ∀ rules, ∀ b ∈ (m.outline backend rules).bindings,
          b.1.take 2 = [.word "systemd", .word "services"] →
            ∃ name ∈ m.unitNames backend,
              b.1 = [.word "systemd", .word "services", .quoted name] := by
  refine ⟨?_, fun _ _ h => nodup_keys_of_ofText h,
    fun _ _ hb hunit => exists_unitName_of_mem_bindings hb hunit⟩
  have hvolumes : (m.ownVolumes.map ("volume-" ++ ·)).Nodup :=
    (nodup_distinct _).map (append_injective "volume-")
  have hnetworks : (m.ownNetworks.map ("network-" ++ ·)).Nodup :=
    (nodup_distinct _).map (append_injective "network-")
  rw [unitNames_eq_map, List.nodup_map_iff (containerUnit_injective backend), List.nodup_append,
    List.nodup_append]
  constructor
  · rintro ⟨⟨hkeys, -, hv⟩, -, hn⟩
    refine ⟨hkeys, fun v hmem hkey => ?_, fun n hmem hkey => ?_⟩
    · exact hv _ hkey _ (List.mem_map_of_mem hmem) rfl
    · exact hn _ (List.mem_append_left _ hkey) _ (List.mem_map_of_mem hmem) rfl
  · rintro ⟨hkeys, hv, hn⟩
    refine ⟨⟨hkeys, hvolumes, ?_⟩, hnetworks, ?_⟩
    · rintro k hk _ hmem rfl
      obtain ⟨v, hown, rfl⟩ := List.mem_map.mp hmem
      exact hv v hown hk
    · rintro k hk _ hmem rfl
      obtain ⟨n, hown, rfl⟩ := List.mem_map.mp hmem
      rcases List.mem_append.mp hk with hk | hk
      · exact hn n hown hk
      · obtain ⟨v, -, heq⟩ := List.mem_map.mp hk
        exact volume_ne_network v n heq

/-- The service of the project is called what the unit of its volume is called. -/
theorem not_nodup_unitNames_cacheProject :
    ¬ ∀ (backend : Backend) (m : Manifest), (Dictionary.keys m.services).Nodup →
      (m.unitNames backend).Nodup := by
  intro h
  exact absurd (h .docker cacheProject (by decide)) (by decide)

end Manifest
end ComposeNix
