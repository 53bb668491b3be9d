import ComposeNix.Proofs.Conversion
import ComposeNix.Session

/-!
# A conversion in place

A conversion changes the manifest that it reads, half way through its own loop, and still it writes
what it would have written had it changed nothing.

* `assemble_eq` --- the text and the notices are those of the manifest as it was (`build`), and in
  the manifest left behind the services are joined whose labels were read;
* `build_withoutNetworks` --- the reason: of what joining changes, the networks of a service, no
  block, no route and no notice says anything.
-/

namespace ComposeNix

/-! ## What joining leaves alone -/

namespace Service

variable (s : Service)

/-- A service that has joined no network. -/
def withoutNetworks : Service := { s with networks := none }

theorem attach_eq : s.attach = { s with networks := s.attach.networks } := by
  rw [attach]
  split <;> rfl

@[simp] theorem withoutNetworks_attach : s.attach.withoutNetworks = s.withoutNetworks := by
  rw [attach_eq]
  rfl

/-- No block of a service says which networks it has joined, and no notice. -/
theorem containerBlock_withoutNetworks (project name : String) :
    s.withoutNetworks.containerBlock project name = s.containerBlock project name := rfl

theorem overrideBlock?_withoutNetworks (backend : Backend) (name : String) :
    s.withoutNetworks.overrideBlock? backend name = s.overrideBlock? backend name := rfl

theorem notices_withoutNetworks (name : String) :
    s.withoutNetworks.notices name = s.notices name := rfl

end Service

/-! ## The loop over the services -/

namespace Assembly

/-- A service adds what it would have added without being joined. -/
theorem takeUp_eq (backend : Backend) (project name : String) (s : Service) (a : Assembly) :
    a.takeUp backend project name s =
      ({ containers := a.containers ++ [s.containerBlock project name]
         overrides := a.overrides ++ (s.overrideBlock? backend name).toList
         routes := a.routes ++ s.routes name
         notices := a.notices
          ++ (s.routeNotices name ++ s.notices name) }, s.attach) := by
  rw [takeUp, ← s.attach.containerBlock_withoutNetworks, ← s.attach.overrideBlock?_withoutNetworks,
    ← s.attach.notices_withoutNetworks, s.withoutNetworks_attach]
  rfl

/-- What is put together when the pieces of services are added in a row. -/
def add (backend : Backend) (project : String) (services : Dictionary Service) (a : Assembly) :
    Assembly where
  containers := a.containers ++ services.map fun e => e.2.containerBlock project e.1
  overrides := a.overrides ++ services.filterMap fun e => e.2.overrideBlock? backend e.1
  routes := a.routes ++ services.flatMap fun e => e.2.routes e.1
  notices := a.notices ++ services.flatMap fun e => e.2.routeNotices e.1 ++ e.2.notices e.1

theorem takeUp_eq_add (backend : Backend) (project name : String) (s : Service) (a : Assembly) :
    a.takeUp backend project name s = (a.add backend project [(name, s)], s.attach) := by
  rw [takeUp_eq, add]
  cases hoverride : s.overrideBlock? backend name <;> simp [hoverride, Service.routeNotices]

theorem add_add (backend : Backend) (project : String) (front rest : Dictionary Service)
    (a : Assembly) :
    (a.add backend project front).add backend project rest
      = a.add backend project (front ++ rest) := by
  simp only [add, List.map_append, List.filterMap_append, List.flatMap_append, List.append_assoc]

/-- The loop puts the pieces of services whose labels are read to the end in a row, and joins them;
then it goes on behind them. -/
theorem takeUpAll_append (backend : Backend) (project : String) {front : Dictionary Service}
    (hfront : ∀ e ∈ front, e.2.break? e.1 = none) (rest : Dictionary Service) (a : Assembly) :
    takeUpAll backend project (front ++ rest) a =
      ((takeUpAll backend project rest (a.add backend project front)).1,
        front.map (fun e => (e.1, e.2.attach))
          ++ (takeUpAll backend project rest (a.add backend project front)).2) := by
  induction front generalizing a with
  | nil => simp [add]
  | cons e front ih =>
    obtain ⟨name, s⟩ := e
    obtain ⟨hs, hfront⟩ := List.forall_mem_cons.mp hfront
    rw [List.cons_append, takeUpAll, hs]
    simp only [takeUp_eq_add, ih hfront, add_add, List.map_cons, List.cons_append,
      List.nil_append]

end Assembly

namespace Manifest

variable (backend : Backend) (m : Manifest)

/-- A manifest whose services have joined no network. -/
def withoutNetworks : Manifest :=
  { m with services := m.services.map fun e => (e.1, e.2.withoutNetworks) }

theorem withoutNetworks_attachAll : m.attachAll.withoutNetworks = m.withoutNetworks := by
  simp only [withoutNetworks, attachAll, List.map_map, Function.comp_def,
    Service.withoutNetworks_attach]

/-- The units of what a project owns do not depend on the networks of its services: only their
volumes and the manifest's own lists count. -/
theorem sections_withoutNetworks (containers overrides : List (List Char))
    (routes : List RoutingRule) :
    m.withoutNetworks.sections backend containers overrides routes
      = m.sections backend containers overrides routes := by
  have hmounted : m.withoutNetworks.mountedVolumes = m.mountedVolumes := by
    rw [mountedVolumes, mountedVolumes, withoutNetworks, List.flatMap_map]
    rfl
  rw [sections, ownVolumes, hmounted]
  rfl

theorem sections_attachAll (containers overrides : List (List Char))
    (routes : List RoutingRule) :
    m.attachAll.sections backend containers overrides routes
      = m.sections backend containers overrides routes := by
  rw [← sections_withoutNetworks, withoutNetworks_attachAll, sections_withoutNetworks]

/-- The manifest with the services joined whose labels are read before the reading breaks off. -/
def attachThrough : Manifest :=
  { m with services := m.readThrough.map (fun e => (e.1, e.2.attach))
      ++ m.services.drop m.readThrough.length }

theorem attachThrough_of_break?_eq_none (h : m.break? = none) : m.attachThrough = m.attachAll := by
  rw [attachThrough, break?_eq_none_iff.mp h, List.drop_length, List.append_nil]
  rfl

/-- A conversion in place writes the module of the manifest as it was, unless the reading of the
labels breaks off, and leaves the services joined whose labels it has read. -/
theorem assemble_eq (rules : List RoutingRule) :
    m.assemble backend rules = (m.build backend rules, m.attachThrough) := by
  cases hbreak : m.break? with
  | none =>
    have hall : ∀ e ∈ m.services, e.2.break? e.1 = none := break?_eq_none_iff_forall.mp hbreak
    have hloop := Assembly.takeUpAll_append backend m.projectName hall [] ⟨[], [], rules, []⟩
    rw [List.append_nil] at hloop
    have hjoined := m.sections_attachAll backend m.containerBlocks (m.overrideBlocks backend)
      (rules ++ m.routes)
    rw [attachAll] at hjoined
    rw [assemble, hloop, attachThrough_of_break?_eq_none m hbreak, build, hbreak]
    simp only [Assembly.takeUpAll, Assembly.add, List.nil_append, List.append_nil]
    rw [toModule, document, ← hjoined, moduleNotices, attachAll]
    simp only [List.length_map]
    rfl
  | some found =>
    obtain ⟨⟨name, s⟩, fault⟩ := found
    obtain ⟨hs, rest, hservices⟩ := break?_eq_some_iff.mp hbreak
    have hloop := Assembly.takeUpAll_append backend m.projectName (forall_mem_readThrough m)
      ((name, s) :: rest) ⟨[], [], rules, []⟩
    rw [← hservices] at hloop
    have hbehind : m.services.drop m.readThrough.length = (name, s) :: rest := by
      rw [hservices, List.drop_append_of_le_length (Nat.le_refl _), List.drop_length]
      rfl
    rw [assemble, hloop, build, hbreak, attachThrough, hbehind, Assembly.takeUpAll, hs]
    rfl

/-- No module says which networks the services have joined. -/
theorem toModule_withoutNetworks (rules : List RoutingRule) :
    m.withoutNetworks.toModule backend rules = m.toModule backend rules := by
  have hcontainers : m.withoutNetworks.containerBlocks = m.containerBlocks := by
    rw [containerBlocks, withoutNetworks, List.map_map]
    rfl
  have hoverrides : m.withoutNetworks.overrideBlocks backend = m.overrideBlocks backend := by
    rw [overrideBlocks, withoutNetworks, List.filterMap_map]
    rfl
  have hroutes : m.withoutNetworks.routes = m.routes := by
    rw [routes, withoutNetworks, List.flatMap_map]
    rfl
  rw [toModule, document, hcontainers, hoverrides, hroutes, sections_withoutNetworks]
  rfl

theorem moduleNotices_withoutNetworks (rules : List RoutingRule) :
    m.withoutNetworks.moduleNotices backend rules = m.moduleNotices backend rules := by
  simp only [moduleNotices, overrideBlocks, routes, withoutNetworks, List.flatMap_map,
    List.filterMap_map, List.length_map]
  rfl

/-- Where the reading of the labels breaks off is not a matter of networks either. -/
theorem break?_withoutNetworks : m.withoutNetworks.break?
    = m.break?.map fun found => ((found.1.1, found.1.2.withoutNetworks), found.2) := by
  rw [break?, break?, withoutNetworks, List.findSome?_map, List.map_findSome?]
  congr 1
  funext e
  rw [Function.comp_apply, Function.comp_apply, Option.map_map]
  rfl

theorem breakNotices_withoutNetworks (name : String) (s : Service) :
    m.withoutNetworks.breakNotices (name, s.withoutNetworks) = m.breakNotices (name, s) := by
  have hread : m.withoutNetworks.readThrough
      = m.readThrough.map fun e => (e.1, e.2.withoutNetworks) := by
    rw [readThrough, withoutNetworks, List.takeWhile_map]
    rfl
  rw [breakNotices, breakNotices, hread, List.flatMap_map]
  rfl

/-- What comes of a manifest does not depend on the networks of its services. -/
theorem build_withoutNetworks (rules : List RoutingRule) :
    m.withoutNetworks.build backend rules = m.build backend rules := by
  rw [build, build, break?_withoutNetworks]
  cases m.break? with
  | none =>
    show (Except.ok _, _) = (Except.ok _, _)
    rw [toModule_withoutNetworks, moduleNotices_withoutNetworks]
  | some found =>
    show (Except.error _, _) = (Except.error _, _)
    rw [breakNotices_withoutNetworks]

end Manifest
end ComposeNix
