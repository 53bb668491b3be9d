import ComposeNix.Proofs.CommandLine.Ending
import ComposeNix.Proofs.CommandLine.Printing
import ComposeNix.Proofs.Module.Listing

/-!
# What inspecting a manifest shows

Inspecting a manifest and converting it read the same manifest in the same way, so they fail alike
where it cannot be read.  Both fail where the reading of the labels breaks off, and apart from that
each goes well exactly if what it prints has an encoding (`Endings`).  When they go well, inspecting
shows what the module sets up.

`inspect_agrees_convert` says how far that holds.  The units and the routes that are shown are those
of the module, in the same order and behind what rules that are given contribute, up to two things.
In the module runs of line feeds are cut down, also inside of names and addresses.  And a row of
names is shown as a hyphen as soon as its text is empty, which it is for no name at all, but for one
empty name as well (`orHyphen_eq_listed_iff`).
-/

namespace ComposeNix.CommandLine

/-! ## Rows of names -/

/-- Names in a row, or a hyphen if there are none. -/
def listed (names : List String) : String :=
  if names.isEmpty then "-" else ", ".intercalate names

/-- The text of a row is empty for one empty name, too. -/
theorem intercalate_isEmpty_iff (names : List String) :
    (", ".intercalate names).isEmpty = true ↔ names = [] ∨ names = [""] := by
  match names with
  | [] => simp
  | [name] => simp [String.intercalate_singleton]
  | x :: y :: names =>
    rw [String.intercalate_cons_cons]
    simp

/-- A row is shown as it is meant, unless there is one name in it and that name is empty. -/
theorem orHyphen_eq_listed_iff (names : List String) : orHyphen names = listed names
    ↔ names ≠ [""] := by
  rw [orHyphen, listed]
  by_cases hnone : names = []
  · simp [hnone]
  · by_cases hempty : names = [""]
    · subst hempty
      decide
    · have htext : (", ".intercalate names).isEmpty = false :=
        Bool.eq_false_iff.mpr fun h =>
          ((intercalate_isEmpty_iff names).mp h).elim hnone hempty
      simp [hnone, hempty, htext]

/-! ## The overview -/

/-- The lines of an overview that show what a project owns and where it is reached. -/
def listing (volumes networks : List String) (routes : List RoutingRule) : List String :=
  ["Volumes: " ++ orHyphen volumes, "Networks: " ++ orHyphen networks,
    if routes.isEmpty then "Routes: -" else "Routes:"] ++ routes.map routeLine

theorem exists_overview_eq (m : Manifest) :
    ∃ head, overview m = head ++ listing m.ownVolumes m.ownNetworks m.routes :=
  ⟨_, List.append_assoc _ _ _⟩

/-- What a module sets up beside its containers: a unit for every volume and network, and servers
and routers for the rules that are given and then for the routes. -/
structure SetsUp (backend : Backend) (rules : List RoutingRule) (fields : Nix.Fields)
    (volumes networks : List String) (routes : List RoutingRule) : Prop where
  units : fields.filterMap Lifecycle.unit?
    = (volumes.map Nix.collapseName).map (Lifecycle.unitName backend "volume")
      ++ (networks.map Nix.collapseName).map (Lifecycle.unitName backend "network")
  servers : Routing.readServers fields = some (rules.filterMap Routing.server?
    ++ routes.map fun r => Routing.serverFor r (r.url.getD "None"))
  routers : Routing.readRouters fields = some (rules.filterMap Routing.router?
    ++ routes.map fun r => Routing.routerFor r (r.host.getD "None"))

namespace SetsUp

variable {backend : Backend} {rules : List RoutingRule} {fields : Nix.Fields}
  {volumes networks : List String} {routes : List RoutingRule}
  (h : SetsUp backend rules fields volumes networks routes)
include h

/-- The units are called after the volumes and networks exactly if no name is cut down. -/
theorem units_eq_iff : fields.filterMap Lifecycle.unit?
      = volumes.map (Lifecycle.unitName backend "volume")
        ++ networks.map (Lifecycle.unitName backend "network")
    ↔ ∀ name ∈ volumes ++ networks, ¬ Nix.longRun <:+: name.toList := by
  have hkept : ∀ kind (names : List String),
      (names.map Nix.collapseName).map (Lifecycle.unitName backend kind)
          = names.map (Lifecycle.unitName backend kind)
        ↔ ∀ name ∈ names, ¬ Nix.longRun <:+: name.toList := by
    intro kind names
    rw [List.map_map, List.map_inj_left]
    refine forall₂_congr fun name _ => ?_
    rw [Function.comp_apply, (Lifecycle.unitName_injective backend kind).eq_iff,
      Nix.collapseName_eq_self_iff]
  rw [h.units, List.forall_mem_append, ← hkept "volume", ← hkept "network"]
  constructor
  · exact fun heq => List.append_inj heq (by simp)
  · rintro ⟨hvolumes, hnetworks⟩
    rw [hvolumes, hnetworks]

/-- What stands in the routing configuration behind the rules that are given are the routes exactly
if all of their texts are kept. -/
theorem routes_eq_iff :
    (Routing.readServers fields = some (rules.filterMap Routing.server?
          ++ routes.map fun r => (r.name, r.url.getD "None"))
        ∧ Routing.readRouters fields = some (rules.filterMap Routing.router?
          ++ routes.map Routing.meantRouter))
      ↔ ∀ r ∈ routes, Routing.Kept r := by
  rw [h.servers, h.routers, Option.some.injEq, Option.some.injEq, List.append_cancel_left_eq,
    List.append_cancel_left_eq, List.map_inj_left, List.map_inj_left, ← forall₂_and]
  exact forall₂_congr fun r _ => Routing.contributes_meant_iff r

end SetsUp

theorem setsUp_toModule (backend : Backend) (rules : List RoutingRule) (m : Manifest)
    {fields : Nix.Fields} (h : Nix.readModule (m.toModule backend rules).toList = some fields) :
    SetsUp backend rules fields m.ownVolumes m.ownNetworks m.routes :=
  ⟨m.units_toModule backend rules h, m.servers_toModule backend rules h,
    m.routers_toModule backend rules h⟩

/-! ## Inspecting and converting -/

/-- A line of an overview, as it is printed. -/
def printedLine (line : String) : String := line ++ "\n"

/-- Inspecting prints the lines in front of the routes, and then, where the labels are read to their
end, all lines. -/
theorem fst_inspect (m : Manifest) : (inspect m).1
    = match (printed ((summary m).map printedLine)).fault, m.break? with
      | some _, _ => printed ((summary m).map printedLine)
      | none, some (_, fault) =>
        { printed ((summary m).map printedLine) with fault := some (.unencodable fault) }
      | none, none => printed ((overview m).map printedLine) := by
  have hinspect : inspect m = match (printed ((summary m).map printedLine)).fault, m.break? with
      | some _, _ => (printed ((summary m).map printedLine), [])
      | none, some (_, fault) =>
        ({ printed ((summary m).map printedLine) with fault := some (.unencodable fault) },
          routeNotices m)
      | none, none => (printed ((overview m).map printedLine), routeNotices m) := rfl
  rw [hinspect]
  cases (printed ((summary m).map printedLine)).fault <;> cases m.break? <;> rfl

theorem fault_printed_map_eq_none_iff {lines : List String} :
    (printed (lines.map printedLine)).fault = none
      ↔ ∀ line ∈ lines, Text.isUnicode (plain (printedLine line)) := by
  rw [fault_printed_eq_none_iff, List.forall_mem_map]

/-- The overview is printed to its end, and the labels are read to theirs. -/
theorem fault_inspect_eq_none_iff {m : Manifest} : (inspect m).1.fault = none
    ↔ m.break? = none ∧ ∀ line ∈ overview m, Text.isUnicode (plain (printedLine line)) := by
  rw [fst_inspect, ← fault_printed_map_eq_none_iff]
  cases hhead : (printed ((summary m).map printedLine)).fault with
  | some fault =>
    refine iff_of_false (fun h => ?_) fun h => ?_
    · exact nomatch hhead.symm.trans h
    · have hsummary := fault_printed_map_eq_none_iff.mpr fun line hline =>
        fault_printed_map_eq_none_iff.mp h.2 line (List.mem_append_left _ hline)
      exact nomatch hhead.symm.trans hsummary
  | none =>
    cases hbreak : m.break? with
    | some found => simp
    | none => simp

/-- Where the reading of the labels breaks off, so does the overview. -/
theorem fault_inspect_of_break? {m : Manifest} {broken : String × Service}
    {fault : Text.Unencodable} (hbreak : m.break? = some (broken, fault))
    (hsummary : ∀ line ∈ summary m, Text.isUnicode (plain (printedLine line))) :
    (inspect m).1.fault = some (.unencodable fault) := by
  rw [fst_inspect, fault_printed_map_eq_none_iff.mpr hsummary, hbreak]

theorem output_inspect {m : Manifest} (h : (inspect m).1.fault = none) :
    (inspect m).1.output = (printed ((overview m).map printedLine)).output := by
  obtain ⟨hbreak, hlines⟩ := fault_inspect_eq_none_iff.mp h
  have hsummary := fault_printed_map_eq_none_iff.mpr fun line hline =>
    hlines line (List.mem_append_left _ hline)
  rw [fst_inspect, hsummary, hbreak]

/-- How inspecting a manifest and converting it to a module end.  Each goes well exactly if the
labels are read to their end and all that it prints has an encoding, and this is what it prints; and
where the reading of the labels breaks off, both end for that reason, unless the overview ends
before. -/
structure Endings (m : Manifest) (module : String) (inspected converted : Outcome) : Prop where
  inspect : inspected.ending = .exit 0
    ↔ m.break? = none ∧ ∀ line ∈ overview m, Text.isUnicode (plain (printedLine line))
  convert : converted.ending = .exit 0 ↔ m.break? = none ∧ Text.isUnicode (plain module)
  labels : ∀ broken fault, m.break? = some (broken, fault) →
    converted.ending = .crash (.conversion (.badLabels fault))
      ∧ ((∀ line ∈ summary m, Text.isUnicode (plain (printedLine line))) →
        inspected.ending = .crash (.unencodable fault))
  overview : inspected.ending = .exit 0 →
    inspected.output = (printed ((CommandLine.overview m).map printedLine)).output
  module : converted.ending = .exit 0 → Text.encode (plain module) = .ok converted.output

section

variable (files : Files) (verbose : Bool) (notices : List Notice) (m : Manifest)
  (backend : Backend) (rules : List RoutingRule)

/-- What inspecting a manifest comes to. -/
def inspected : Outcome :=
  finish verbose (Run.andThen (.ok m, notices) fun m => (.ok (inspect m).1, (inspect m).2))

/-- What converting a manifest comes to, when the module is printed. -/
def converted : Outcome :=
  finish verbose (Run.andThen (.ok m, notices) fun m =>
    Run.andThen ((m.build backend rules).1.mapError (stopFor ∘ .badLabels),
      (m.build backend rules).2) fun module => Run.quiet (deliver files "-" module))

theorem ending_converted_of_break? {broken : String × Service} {fault : Text.Unencodable}
    (h : m.break? = some (broken, fault)) :
    (converted files verbose notices m backend rules).ending
      = .crash (.conversion (.badLabels fault)) := by
  have hbuild : m.build backend rules = (.error fault, m.breakNotices broken) := by
    rw [Manifest.build, h]
  rw [converted, finish, Run.fst_andThen]
  simp only [Except.bind, hbuild]
  rfl

theorem converted_of_break?_eq_none (h : m.break? = none) :
    (converted files verbose notices m backend rules).ending
        = ((printed [m.toModule backend rules]).fault.map Ending.crash).getD (.exit 0)
      ∧ (converted files verbose notices m backend rules).output
        = (printed [m.toModule backend rules]).output := by
  have hbuild : m.build backend rules
      = (.ok (m.toModule backend rules), m.moduleNotices backend rules) := by
    rw [Manifest.build, h]
  rw [converted, finish, Run.fst_andThen]
  simp only [Except.bind, hbuild]
  exact ⟨rfl, rfl⟩

theorem endings : Endings m (m.toModule backend rules) (inspected verbose notices m)
    (converted files verbose notices m backend rules) where
  inspect := ending_eq_exit_iff.trans fault_inspect_eq_none_iff
  convert := by
    cases hbreak : m.break? with
    | some found =>
      rw [ending_converted_of_break? files verbose notices m backend rules hbreak]
      simp
    | none =>
      rw [(converted_of_break?_eq_none files verbose notices m backend rules hbreak).1,
        ending_eq_exit_iff, fault_printed_eq_none_iff]
      simp
  labels broken fault hbreak := by
    refine ⟨ending_converted_of_break? files verbose notices m backend rules hbreak,
      fun hsummary => ?_⟩
    have hfault := fault_inspect_of_break? hbreak hsummary
    show ((inspect m).1.fault.map Ending.crash).getD (.exit 0) = _
    rw [hfault]
    rfl
  overview h := output_inspect (ending_eq_exit_iff.mp h)
  module h := by
    cases hbreak : m.break? with
    | some found =>
      rw [ending_converted_of_break? files verbose notices m backend rules hbreak] at h
      exact nomatch h
    | none =>
      obtain ⟨hending, houtput⟩ :=
        converted_of_break?_eq_none files verbose notices m backend rules hbreak
      rw [hending, ending_eq_exit_iff, fault_printed_eq_none_iff] at h
      obtain ⟨shown, hshown⟩ := Text.succeeds_encode_iff.mpr (h _ (List.mem_singleton_self _))
      rw [houtput, printed_singleton_of_encode hshown, hshown]

end

/-- Inspecting a manifest and converting it fail alike if the manifest cannot be read.  If it is
read, each of them goes well exactly if the labels are read to their end and what it prints has an
encoding (`Endings`).  What inspecting prints are the volumes and networks that have units in the
module, and the routes that have servers and routers there, in the same order and behind what the
rules that are given contribute.  The names of the module are those that are shown exactly if none
of them is cut down, and the same holds for the routes; a row of names is shown as it is meant
unless its only name is empty. -/
theorem inspect_agrees_convert {files : Files} {lead args : List String} {given own : Given}
    {rules : List RoutingRule} (hlead : readArguments .program lead = .ok (given, []))
    (hhelp : given.has .help = false) (hargs : readLevel files .convert args = .ok (own, []))
    (hout : (own.last? .out).getD "-" = "-") (hrules : givenRoutes files own = .ok rules) :
    (run files (lead ++ ["inspect"]) = run files (lead ++ "convert" :: args)
        ∧ (run files (lead ++ ["inspect"])).ending ≠ .exit 0)
      ∨ ∃ m backend fields head volumes networks routes,
          (manifestIn files given).1 = .ok m
          ∧ (own.last? .backend).getD Backend.docker.name = backend.name
          ∧ Endings m (m.toModule backend rules) (run files (lead ++ ["inspect"]))
            (run files (lead ++ "convert" :: args))
          ∧ overview m = head ++ listing volumes networks routes
          ∧ Nix.readModule (m.toModule backend rules).toList = some fields
          ∧ SetsUp backend rules fields volumes networks routes
          ∧ (fields.filterMap Lifecycle.unit?
                = volumes.map (Lifecycle.unitName backend "volume")
                  ++ networks.map (Lifecycle.unitName backend "network")
              ↔ ∀ name ∈ volumes ++ networks, ¬ Nix.longRun <:+: name.toList)
          ∧ ((Routing.readServers fields = some (rules.filterMap Routing.server?
                  ++ routes.map fun r => (r.name, r.url.getD "None"))
                ∧ Routing.readRouters fields = some (rules.filterMap Routing.router?
                  ++ routes.map Routing.meantRouter))
              ↔ ∀ r ∈ routes, Routing.Kept r)
          ∧ (orHyphen volumes = listed volumes ↔ volumes ≠ [""])
          ∧ (orHyphen networks = listed networks ↔ networks ≠ [""]) := by
  obtain ⟨backend, hbackend⟩ := exists_backend_of_readLevel hargs
  have hnever : NeverHelps (manifestIn files given).1 := NeverHelps.manifestIn given
  rw [run_inspect_eq hlead hhelp, run_convert_eq hlead hhelp hargs hrules hbackend, hout]
  cases hmanifest : manifestIn files given with
  | mk result notices =>
    rw [hmanifest] at hnever
    cases result with
    | error stop =>
      refine Or.inl ⟨rfl, fun hending => ?_⟩
      obtain ⟨_, hok, -⟩ := (ending_finish_iff (r := (.error stop, notices)) hnever.of_error
        (given.has .verbose)).mp hending
      exact nomatch hok
    | ok m =>
      have hread := m.readModule_toModule backend rules
      have hsets := setsUp_toModule backend rules m hread
      obtain ⟨head, hoverview⟩ := exists_overview_eq m
      exact Or.inr ⟨m, backend, _, head, m.ownVolumes, m.ownNetworks, m.routes, rfl, hbackend,
        endings files (given.has .verbose) notices m backend rules, hoverview, hread, hsets,
        hsets.units_eq_iff, hsets.routes_eq_iff, orHyphen_eq_listed_iff _,
        orHyphen_eq_listed_iff _⟩

/-! ## A volume without a name -/

/-- A project that declares one volume, the name of which is empty. -/
def namelessVolume : String := "services: \x7ba: \x7d\nvolumes: \x7b\"\": \x7d\n"

/-- The same project without the volume. -/
def noVolume : String := "services: \x7ba: \x7d\n"

/-- The overview of both. -/
def bareOverview : List String := ["Project: myproject",
  "SERVICE              IMAGE                         ",
  "---------------------------------------------------",
  "a                    -                             ",
  "Volumes: -", "Networks: -", "Routes: -"]

/-- What inspecting and converting the project of a text come to. -/
theorem exists_run_projectFiles {text : String} {lines volumes : List String}
    (h : ((manifestIn (projectFiles text) []).1.toOption.map fun m =>
      (overview m, m.ownVolumes, m.ownNetworks,
        m.break?.isNone && Text.opener ∉ (m.document .docker []).render))
      = some (lines, volumes, [], true))
    (hlines : ∀ line ∈ lines, Text.isUnicode (plain (printedLine line))) :
    (run (projectFiles text) ["inspect"]).ending = .exit 0
      ∧ (run (projectFiles text) ["inspect"]).output = (printed (lines.map printedLine)).output
      ∧ ∃ module fields,
        Text.encode (plain module) = .ok (run (projectFiles text) ["convert"]).output
        ∧ Nix.readModule module.toList = some fields
        ∧ fields.filterMap Lifecycle.unit?
          = (volumes.map Nix.collapseName).map (Lifecycle.unitName .docker "volume") := by
  obtain ⟨m, hm, heq⟩ := Option.map_eq_some_iff.mp h
  simp only [Prod.mk.injEq, Bool.and_eq_true, Option.isNone_iff_eq_none, decide_eq_true_eq] at heq
  obtain ⟨rfl, rfl, hnetworks, hbreak, hopener⟩ := heq
  have hmodule : Text.isUnicode (plain (m.toModule .docker [])) :=
    isUnicode_plain_of_notMem (by rwa [Manifest.toModule, String.toList_ofList])
  have hlead : readArguments .program [] = .ok ([], []) := rfl
  have hargs : readLevel (projectFiles text) .convert [] = .ok ([], []) := rfl
  have hrules : givenRoutes (projectFiles text) [] = .ok [] := rfl
  have hbackend : (Given.last? [] .backend).getD Backend.docker.name = Backend.docker.name := rfl
  have hinspect : run (projectFiles text) ([] ++ ["inspect"]) = _ := run_inspect_eq hlead rfl
  have hconvert := run_convert_eq hlead rfl hargs hrules hbackend
  rw [List.nil_append] at hinspect hconvert
  cases hmanifest : manifestIn (projectFiles text) [] with
  | mk result notices =>
    rw [hmanifest] at hm hinspect hconvert
    cases result with
    | error stop => cases hm
    | ok m' =>
      obtain rfl : m' = m := Option.some.inj hm
      have hends := endings (projectFiles text) false notices m' .docker []
      have hread := m'.readModule_toModule .docker []
      have hunits := m'.units_toModule .docker [] hread
      rw [hnetworks, List.map_nil, List.map_nil, List.append_nil] at hunits
      have hinspected := hends.inspect.mpr ⟨hbreak, hlines⟩
      rw [hinspect, hconvert]
      exact ⟨hinspected, hends.overview hinspected, _, _,
        hends.module (hends.convert.mpr ⟨hbreak, hmodule⟩), hread, hunits⟩

theorem manifestIn_namelessVolume :
    ((manifestIn (projectFiles namelessVolume) []).1.toOption.map fun m =>
      (overview m, m.ownVolumes, m.ownNetworks,
        m.break?.isNone && Text.opener ∉ (m.document .docker []).render))
      = some (bareOverview, [""], [], true) := by
  decide +kernel

theorem manifestIn_noVolume :
    ((manifestIn (projectFiles noVolume) []).1.toOption.map fun m =>
      (overview m, m.ownVolumes, m.ownNetworks,
        m.break?.isNone && Text.opener ∉ (m.document .docker []).render))
      = some (bareOverview, [], [], true) := by
  decide +kernel

theorem isUnicode_bareOverview :
    ∀ line ∈ bareOverview, Text.isUnicode (plain (printedLine line)) := by
  decide +kernel

/-- What inspecting shows is what the module sets up, in the project with the nameless volume. -/
theorem setsUp_namelessVolume : readArguments .program [] = .ok ([], [])
    ∧ Given.has [] .help = false
    ∧ readLevel (projectFiles namelessVolume) .convert [] = .ok ([], [])
    ∧ (Given.last? [] .out).getD "-" = "-"
    ∧ givenRoutes (projectFiles namelessVolume) [] = .ok []
    ∧ ∃ m backend fields head volumes networks routes,
        Endings m (m.toModule backend []) (run (projectFiles namelessVolume) ["inspect"])
          (run (projectFiles namelessVolume) ["convert"])
        ∧ overview m = head ++ listing volumes networks routes
        ∧ Nix.readModule (m.toModule backend []).toList = some fields
        ∧ SetsUp backend [] fields volumes networks routes := by
  have hlead : readArguments .program [] = .ok ([], []) := rfl
  have hargs : readLevel (projectFiles namelessVolume) .convert [] = .ok ([], []) := rfl
  have hrules : givenRoutes (projectFiles namelessVolume) [] = .ok [] := rfl
  obtain ⟨hending, -⟩ := exists_run_projectFiles manifestIn_namelessVolume isUnicode_bareOverview
  obtain ⟨m, backend, fields, head, volumes, networks, routes, -, -, hends, hoverview, hread, hsets,
    -⟩ := (inspect_agrees_convert hlead rfl hargs rfl hrules).resolve_left
      fun hfails => hfails.2 hending
  exact ⟨hlead, rfl, hargs, rfl, hrules, m, backend, fields, head, volumes, networks, routes, hends,
    hoverview, hread, hsets⟩

/-- A project with a volume that has a unit is shown like a project without any. -/
theorem inspect_namelessVolume :
    (run (projectFiles namelessVolume) ["inspect"]).output
        = (run (projectFiles noVolume) ["inspect"]).output
      ∧ (∃ module fields,
        Text.encode (plain module) = .ok (run (projectFiles namelessVolume) ["convert"]).output
        ∧ Nix.readModule module.toList = some fields
        ∧ fields.filterMap Lifecycle.unit? = ["docker-volume-"])
      ∧ ∃ module fields,
        Text.encode (plain module) = .ok (run (projectFiles noVolume) ["convert"]).output
        ∧ Nix.readModule module.toList = some fields
        ∧ fields.filterMap Lifecycle.unit? = [] := by
  obtain ⟨-, hshown, module, fields, hmodule, hread, hunits⟩ :=
    exists_run_projectFiles manifestIn_namelessVolume isUnicode_bareOverview
  obtain ⟨-, hshown', hothers⟩ :=
    exists_run_projectFiles manifestIn_noVolume isUnicode_bareOverview
  have hname : ([""].map Nix.collapseName).map (Lifecycle.unitName .docker "volume")
      = ["docker-volume-"] := by decide
  exact ⟨hshown.trans hshown'.symm, ⟨module, fields, hmodule, hread, hunits.trans hname⟩, hothers⟩

end ComposeNix.CommandLine
