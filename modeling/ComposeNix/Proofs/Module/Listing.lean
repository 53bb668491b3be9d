import ComposeNix.Proofs.Module.Units
import ComposeNix.Proofs.Routing.Names

/-!
# What a module sets up

Who reads a module and wants to know what it sets up beside its containers reads three rows: the
units that run a command line of their own (`Lifecycle.unit?`), and the servers and routers of the
routing configuration (`Routing.readServers`, `Routing.readRouters`).

`units_toModule`, `servers_toModule` and `routers_toModule` say what stands in these rows: the units
of what the project owns, and what the rules contribute, those that are given before those in
labels.  Texts stand there as the pass over empty lines leaves them, and a plain name without the
line feed behind it (`Routing.attributeText`).
-/

namespace ComposeNix

/-! ## Names that are cut down -/

namespace Nix

theorem collapseName_eq_self_iff {s : String} : collapseName s = s ↔ ¬ longRun <:+: s.toList := by
  rw [collapseName, ← collapse_eq_self_iff, ← String.toList_inj, String.toList_ofList]

/-- What stands behind a text of one line is cut down on its own. -/
theorem collapseName_append {a : String} (ha : '\n' ∉ a.toList) (hne : a ≠ "") (b : String) :
    collapseName (a ++ b) = a ++ collapseName b := by
  have hlist : a.toList ≠ [] := fun h => hne (String.toList_inj.mp h)
  rw [collapseName, String.toList_append, collapse, collapseAfter_append,
    collapseAfter_of_notMem ha, runAfter_of_notMem ha hlist, String.ofList_append,
    String.ofList_toList]
  rfl

end Nix

open Nix (Attr Binding Fields Key Tree said wordKey)

/-! ## Units -/

namespace Lifecycle

/-- The command line in the service section of a unit. -/
def commandLine? (config : Tree) : Option (List Nix.Letter) :=
  (set? config).bind fun settings => (required? "ExecStart" settings).bind literal?

/-- The name of the unit that a binding declares, if the unit runs a command line of its own.  What
overrides the unit of a container runs none: every setting in it is given a priority. -/
def unit? : List Key × Tree → Option String
  | ([systemd, services, name], value) =>
    if [systemd, services] = [wordKey "systemd", wordKey "services"] then do
      let _ ← (set? value).bind fun fields => (required? "serviceConfig" fields).bind commandLine?
      Nix.string? name
    else none
  | _ => none

theorem unitName_injective (backend : Backend) (kind : String) :
    Function.Injective (unitName backend kind) :=
  append_injective (backend.name ++ "-" ++ kind ++ "-")

/-- The unit of a resource is that of its name as the module has it. -/
theorem collapseName_unitName (backend : Backend) {kind : String}
    (hkind : kind = "volume" ∨ kind = "network") (name : String) :
    Nix.collapseName (unitName backend kind name)
      = unitName backend kind (Nix.collapseName name) := by
  have hlead : '\n' ∉ (backend.name ++ "-" ++ kind ++ "-").toList
      ∧ backend.name ++ "-" ++ kind ++ "-" ≠ "" := by
    rcases hkind with rfl | rfl <;> cases backend <;> decide
  exact Nix.collapseName_append hlead.1 hlead.2 name

theorem unit?_said_unit (backend : Backend) (kind name : String) :
    unit? (said (unit backend kind name))
      = some (Nix.collapseName (unitName backend kind name)) := by
  obtain ⟨path, type, remain, start, stop, wanted, hsaid⟩ : ∃ path type remain start stop wanted,
      said (unit backend kind name)
        = ([wordKey "systemd", wordKey "services",
            wordKey (Nix.collapseName (unitName backend kind name))], .set [
          ([wordKey "path"], path),
          ([wordKey "serviceConfig"], .set [
            ([wordKey "Type"], type),
            ([wordKey "RemainAfterExit"], remain),
            ([wordKey "ExecStart"], .text start),
            ([wordKey "ExecStop"], stop)]),
          ([wordKey "wantedBy"], wanted)]) := ⟨_, _, _, _, _, _, rfl⟩
  rw [hsaid]
  generalize Nix.collapseName (unitName backend kind name) = n
  have hname : Nix.string? (wordKey n) = some n := Nix.string?_map_char n
  rw [unit?, if_pos rfl, hname]
  rfl

theorem required?_bind_eq_none {α : Type} {read : Tree → Option α} {fields : Fields}
    (h : ∀ b ∈ fields, read b.2 = none) (key : String) :
    (required? key fields).bind read = none := by
  induction fields with
  | nil => rfl
  | cons b fields ih =>
    rw [required?, List.lookup_cons]
    split
    · exact h b List.mem_cons_self
    · exact ih fun c hc => h c (List.mem_cons_of_mem b hc)

theorem commandLine?_of_mem_settingsBinding {key : String} {settings : Dictionary String}
    {b : Nix.Binding} (hb : b ∈ settingsBinding key settings) : commandLine? (said b).2 = none := by
  rw [settingsBinding] at hb
  split at hb
  · exact absurd hb List.not_mem_nil
  · rw [List.mem_singleton.mp hb, Nix.said_set]
    refine required?_bind_eq_none (fun b hb => ?_) "ExecStart"
    obtain ⟨c, hc, rfl⟩ := List.mem_map.mp hb
    obtain ⟨e, -, rfl⟩ := List.mem_map.mp hc
    -- the priority makes the setting an application, which is no literal
    rfl

theorem unit?_eq_none {path : List Key} {value : Tree}
    (h : ((set? value).bind fun fields => (required? "serviceConfig" fields).bind commandLine?)
      = none) : unit? (path, value) = none := by
  unfold unit?
  split
  · rename_i heq
    obtain ⟨-, rfl⟩ := Prod.mk.inj heq
    split
    · rw [h]
      rfl
    · rfl
  · rfl

/-- An override declares no unit. -/
theorem unit?_said_override {backend : Backend} {name : String} {s : Service} {b : Nix.Binding}
    (h : s.override? backend name = some b) : unit? (said b) = none := by
  rw [Service.override?] at h
  split at h
  · cases h
  · obtain rfl := Option.some.inj h
    have hnone : (required? "serviceConfig" ((settingsBinding "serviceConfig" s.serviceSettings
        ++ settingsBinding "unitConfig" s.unitSettings).map said)).bind commandLine? = none := by
      refine required?_bind_eq_none (fun b hb => ?_) "serviceConfig"
      obtain ⟨c, hc, rfl⟩ := List.mem_map.mp hb
      rcases List.mem_append.mp hc with hc | hc
      · exact commandLine?_of_mem_settingsBinding hc
      · exact commandLine?_of_mem_settingsBinding hc
    rw [Nix.said_set]
    exact unit?_eq_none hnone

end Lifecycle

/-! ## Servers and routers -/

namespace Routing

/-- What a name is read as where it is an attribute. -/
def attributeText (name : String) : String :=
  let cs := Nix.collapse name.toList
  String.ofList (if Nix.isPlainName cs then cs.takeWhile Nix.isWordChar else cs)

/-- What a name is read as where it is an attribute of a block that stands alone. -/
def blockText (name : String) : String :=
  let cs := name.toList
  String.ofList (if Nix.isPlainName cs then cs.takeWhile Nix.isWordChar else cs)

theorem string?_key_named (name : String) :
    Nix.string? (Attr.named name).key = some (blockText name) := by
  have hchars : ∀ cs : List Char, Nix.string? (cs.map .char) = some (String.ofList cs) := by
    intro cs
    have h := Nix.string?_map_char (String.ofList cs)
    rwa [String.toList_ofList] at h
  rw [Nix.Attr.key, blockText]
  split
  · rw [hchars]
  · rw [hchars]

theorem string?_attributeKey (name : String) :
    Nix.string? (attributeKey name) = some (attributeText name) := by
  have htext : blockText (Nix.collapseName name) = attributeText name := by
    rw [blockText, Nix.collapseName, String.toList_ofList, attributeText]
  rw [← htext]
  exact string?_key_named (Nix.collapseName name)

/-- A server: its name, and the address that is balanced. -/
def readServer? : List Key × Tree → Option (String × String)
  | ([name, balancer, servers], .list [.set [([url], address)]]) =>
    if [balancer, servers, url] = [wordKey "loadBalancer", wordKey "servers", wordKey "url"] then
      do return (← Nix.string? name, ← address.text?)
    else none
  | _ => none

/-- What a router says. -/
structure Router where
  name : String
  rule : String
  certResolver : Option String
  service : String
  entrypoints : String
  deriving DecidableEq, Repr

/-- The certificate resolver that a router asks for. -/
def readResolver? (t : Tree) : Option String :=
  (Lifecycle.set? t).bind fun fields =>
    (Lifecycle.required? "certResolver" fields).bind Tree.text?

/-- A router and what it says. -/
def readRouter? : List Key × Tree → Option Router
  | ([name], .set fields) => do
    return {
      name := ← Nix.string? name
      rule := ← (Lifecycle.required? "rule" fields).bind Tree.text?
      certResolver := ← Fields.optional readResolver? "tls" fields
      service := ← (Lifecycle.required? "service" fields).bind Tree.text?
      entrypoints := ← (Lifecycle.required? "entrypoints" fields).bind Tree.text? }
  | _ => none

/-- The servers of a module, if there is nothing else in their half. -/
def readServers (fields : Fields) : Option (List (String × String)) :=
  (Fields.under [wordKey Half.services.key] (Fields.under Half.home fields)).mapM readServer?

/-- The routers of a module, if there is nothing else in their half. -/
def readRouters (fields : Fields) : Option (List Router) :=
  (Fields.under [wordKey Half.routers.key] (Fields.under Half.home fields)).mapM readRouter?

/-! ## What a rule contributes -/

/-- The server for a rule with an address. -/
def serverFor (r : RoutingRule) (url : String) : String × String :=
  (attributeText r.name, Nix.collapseName url)

/-- The certificate resolver of a rule. -/
def resolver? (r : RoutingRule) : Option String :=
  (nonEmpty? r.certResolver).filter fun _ => r.enableTls

theorem tlsBinding_eq (r : RoutingRule) : tlsBinding r = ((resolver? r).map fun resolver =>
    ([Nix.Attr.word "tls"],
      Nix.Expr.set false [([.word "certResolver"], .ofText resolver)])).toList := by
  rw [tlsBinding]
  split
  · rename_i h
    rw [resolver?, h]
    rfl
  · rename_i h
    rw [resolver?, h]
    rfl
  · rename_i resolver hne h
    have hresolver : nonEmpty? (some resolver) = some resolver := by
      simpa [nonEmpty?] using hne
    rw [resolver?, h, hresolver]
    cases r.enableTls <;> rfl

/-- The router for a rule with a host. -/
def routerFor (r : RoutingRule) (host : String) : Router where
  name := attributeText r.name
  rule := Nix.collapseName (hostMatcher host)
  certResolver := (resolver? r).map Nix.collapseName
  service := Nix.collapseName r.name
  entrypoints := Nix.collapseName r.entrypoint

/-- The server that a rule contributes. -/
def server? (r : RoutingRule) : Option (String × String) :=
  if r.name.isEmpty then none else r.address?.map (serverFor r)

/-- The router that a rule contributes. -/
def router? (r : RoutingRule) : Option Router :=
  if r.name.isEmpty then none else r.routed?.map (routerFor r)

/-! ### Texts that are kept -/

/-- The texts of a route, apart from where its name is an attribute. -/
def textsOf (r : RoutingRule) : List String :=
  [r.name, r.url.getD "None", hostMatcher (r.host.getD "None"), r.entrypoint]
    ++ (resolver? r).toList

/-- A route whose texts are left alone: as an attribute its name is read as it is, and none of its
texts has three line feeds in a row. -/
structure Kept (r : RoutingRule) : Prop where
  name : attributeText r.name = r.name
  texts : ∀ s ∈ textsOf r, ¬ Nix.longRun <:+: s.toList

/-- The router for a route as it was meant. -/
def meantRouter (r : RoutingRule) : Router where
  name := r.name
  rule := hostMatcher (r.host.getD "None")
  certResolver := resolver? r
  service := r.name
  entrypoints := r.entrypoint

/-- What a route contributes is what was meant exactly if its texts are left alone. -/
theorem contributes_meant_iff (r : RoutingRule) :
    serverFor r (r.url.getD "None") = (r.name, r.url.getD "None")
        ∧ routerFor r (r.host.getD "None") = meantRouter r
      ↔ Kept r := by
  have hresolver : (resolver? r).map Nix.collapseName = resolver? r
      ↔ ∀ s ∈ (resolver? r).toList, ¬ Nix.longRun <:+: s.toList := by
    cases resolver? r with
    | none => simp
    | some s => simp [Nix.collapseName_eq_self_iff]
  constructor
  · rintro ⟨hserver, hrouter⟩
    obtain ⟨hname, hurl⟩ := Prod.mk.inj hserver
    obtain ⟨-, hhost, htls, hservice, hentrypoint⟩ := Router.mk.inj hrouter
    refine ⟨hname, fun s hs => ?_⟩
    rcases List.mem_append.mp hs with hs | hs
    · simp only [List.mem_cons, List.not_mem_nil, or_false] at hs
      rcases hs with rfl | rfl | rfl | rfl
      · exact Nix.collapseName_eq_self_iff.mp hservice
      · exact Nix.collapseName_eq_self_iff.mp hurl
      · exact Nix.collapseName_eq_self_iff.mp hhost
      · exact Nix.collapseName_eq_self_iff.mp hentrypoint
    · exact hresolver.mp htls s hs
  · rintro ⟨hname, htexts⟩
    have hkept : ∀ s ∈ textsOf r, Nix.collapseName s = s := fun s hs =>
      Nix.collapseName_eq_self_iff.mpr (htexts s hs)
    have htls := hresolver.mpr fun s hs => htexts s (List.mem_append_right _ hs)
    rw [serverFor, routerFor, meantRouter, hname, htls, hkept r.name (by simp [textsOf]),
      hkept (r.url.getD "None") (by simp [textsOf]),
      hkept (hostMatcher (r.host.getD "None")) (by simp [textsOf]),
      hkept r.entrypoint (by simp [textsOf])]
    exact ⟨rfl, rfl⟩

/-! ### How it is read -/

/-- What a rule contributes to the servers is read as its server. -/
theorem readServer?_said {r : RoutingRule} {b : Nix.Binding} (h : serverOf? r = some b) :
    ∃ server, readServer? (said b) = some server ∧ server? r = some server := by
  rw [serverOf?] at h
  rw [server?]
  split at h
  · cases h
  · rename_i hname
    obtain ⟨url, hurl, rfl⟩ := Option.map_eq_some_iff.mp h
    refine ⟨serverFor r url, ?_, by rw [if_neg hname, hurl, Option.map_some]⟩
    have hsaid : said ([Nix.Attr.named r.name, .word "loadBalancer", .word "servers"],
        .column [.set false [([.word "url"], .ofText url)]])
          = ([attributeKey r.name, wordKey "loadBalancer", wordKey "servers"],
            .list [.set (Nix.bindingsTrees
              (Nix.collapseBindings [([.word "url"], .ofText url)]))]) := rfl
    rw [hsaid, Nix.bindingsTrees_collapseBindings, List.map_singleton,
      Nix.telling_said.text_word, readServer?,
      if_pos rfl, string?_attributeKey]
    simp only [Tree.text?_ofText, serverFor]
    rfl

theorem server?_eq_none {r : RoutingRule} (h : serverOf? r = none) : server? r = none := by
  rw [serverOf?] at h
  rw [server?]
  split
  · rfl
  · rename_i hname
    rw [if_neg hname, Option.map_eq_none_iff] at h
    rw [h, Option.map_none]

/-- The router for a rule with a host, under a name, with texts that may be changed. -/
def routerAs (keep : String → String) (name : String) (r : RoutingRule) (host : String) :
    Router where
  name := name
  rule := keep (hostMatcher host)
  certResolver := (resolver? r).map keep
  service := keep r.name
  entrypoints := keep r.entrypoint

/-- The fields of a router are those that it is read by. -/
theorem told_routerFields {tell : Binding → List Key × Tree} {step : Attr → Key}
    {keep : String → String} (h : Nix.Telling tell step keep) (name : String) (r : RoutingRule)
    (host : String) :
    (([.word "rule"], .ofText (hostMatcher host)) :: tlsBinding r ++ [
        ([.word "service"], .ofText r.name),
        ([.word "entrypoints"], .ofText r.entrypoint)] : List Binding).map tell
      = Nix.fieldsOf [
        ("rule", some (.ofText (routerAs keep name r host).rule)),
        ("tls", (routerAs keep name r host).certResolver.map fun resolver =>
          .set [([wordKey "certResolver"], .ofText resolver)]),
        ("service", some (.ofText (routerAs keep name r host).service)),
        ("entrypoints", some (.ofText (routerAs keep name r host).entrypoints))] := by
  have htls : (tlsBinding r).map tell = Nix.field "tls" (((resolver? r).map keep).map
      fun resolver => .set [([wordKey "certResolver"], .ofText resolver)]) := by
    rw [tlsBinding_eq]
    cases resolver? r with
    | none => rfl
    | some resolver =>
      rw [Option.map_some, Option.toList, List.map_singleton, h.set, List.map_singleton,
        List.map_singleton, h.word, h.text_word]
      rfl
  rw [List.cons_append, List.map_cons, List.map_append, List.map_cons, List.map_singleton, htls,
    h.text_word, h.text_word, h.text_word]
  rfl

/-- A router is read from its fields. -/
theorem readRouter?_fieldsOf {router : Router} {key : Key}
    (hname : Nix.string? key = some router.name) : readRouter? ([key], .set (Nix.fieldsOf [
      ("rule", some (.ofText router.rule)),
      ("tls", router.certResolver.map fun resolver =>
        .set [([wordKey "certResolver"], .ofText resolver)]),
      ("service", some (.ofText router.service)),
      ("entrypoints", some (.ofText router.entrypoints))])) = some router := by
  generalize hpieces : ([
    ("rule", some (.ofText router.rule)),
    ("tls", router.certResolver.map fun resolver =>
      .set [([wordKey "certResolver"], .ofText resolver)]),
    ("service", some (.ofText router.service)),
    ("entrypoints", some (.ofText router.entrypoints))] : List (String × Option Tree)) = pieces
  have hkeys : pieces.map Prod.fst = ["rule", "tls", "service", "entrypoints"] := by
    rw [← hpieces]
    rfl
  have hnodup : (pieces.map Prod.fst).Nodup := by
    rw [hkeys]
    decide
  have htext : ∀ {word s}, (word, some (Tree.ofText s)) ∈ pieces →
      (Lifecycle.required? word (Nix.fieldsOf pieces)).bind Tree.text? = some s := by
    intro word s hmem
    rw [Lifecycle.required?, Nix.lookup_fieldsOf hnodup hmem, Option.bind_some, Tree.text?_ofText]
  have htls : Fields.optional readResolver? "tls" (Nix.fieldsOf pieces)
      = some router.certResolver := by
    have hread : ∀ resolver, readResolver? (.set [([wordKey "certResolver"], .ofText resolver)])
        = some resolver := Tree.text?_ofText
    refine Nix.optional_fieldsOf hread hnodup ?_
    simp [← hpieces]
  have hrule : (Lifecycle.required? "rule" (Nix.fieldsOf pieces)).bind Tree.text?
      = some router.rule := htext (by simp [← hpieces])
  have hservice : (Lifecycle.required? "service" (Nix.fieldsOf pieces)).bind Tree.text?
      = some router.service := htext (by simp [← hpieces])
  have hentrypoints : (Lifecycle.required? "entrypoints" (Nix.fieldsOf pieces)).bind Tree.text?
      = some router.entrypoints := htext (by simp [← hpieces])
  simp only [readRouter?, hname, hrule, htls, hservice, hentrypoints]
  rfl

/-- What a rule contributes to the routers is read as a router. -/
theorem readRouter?_told {tell : Binding → List Key × Tree} {step : Attr → Key}
    {keep : String → String} (h : Nix.Telling tell step keep) {r : RoutingRule} {name : String}
    (hname : Nix.string? (step (.named r.name)) = some name) {b : Binding}
    (hentry : routerOf? r = some b) : ∃ router, readRouter? (tell b) = some router
      ∧ (if r.name.isEmpty then none else r.routed?.map (routerAs keep name r)) = some router := by
  rw [routerOf?] at hentry
  split at hentry
  · cases hentry
  · rename_i hnamed
    obtain ⟨host, hhost, rfl⟩ := Option.map_eq_some_iff.mp hentry
    refine ⟨routerAs keep name r host, ?_, by rw [if_neg hnamed, hhost, Option.map_some]⟩
    rw [h.set, told_routerFields h name, List.map_singleton]
    exact readRouter?_fieldsOf hname

theorem router?_eq_none {r : RoutingRule} (h : routerOf? r = none) : router? r = none := by
  rw [routerOf?] at h
  rw [router?]
  split
  · rfl
  · rename_i hname
    rw [if_neg hname, Option.map_eq_none_iff] at h
    rw [h, Option.map_none]

/-- A rule with name, address and host contributes a server and a router. -/
theorem contributes_of_isComplete {r : RoutingRule} (h : r.isComplete = true) :
    server? r = some (serverFor r (r.url.getD "None"))
      ∧ router? r = some (routerFor r (r.host.getD "None")) := by
  simp only [RoutingRule.isComplete, Bool.and_eq_true, Bool.not_eq_true'] at h
  obtain ⟨⟨hname, haddress⟩, hrouted⟩ := h
  obtain ⟨url, hurl⟩ := Option.isSome_iff_exists.mp haddress
  obtain ⟨host, hhost⟩ := Option.isSome_iff_exists.mp hrouted
  have hgiven : r.url = some url := (Option.filter_eq_some_iff.mp hurl).1
  have hgiven' : r.host = some host := (Option.filter_eq_some_iff.mp hhost).1
  rw [server?, router?, hname, hurl, hhost, hgiven, hgiven']
  exact ⟨rfl, rfl⟩

/-- What a row of bindings is read as. -/
theorem mapM_told {α : Type} {tell : Binding → List Key × Tree} {read : List Key × Tree → Option α}
    {entryOf? : RoutingRule → Option Binding} {of? : RoutingRule → Option α}
    (hsome : ∀ {r b}, entryOf? r = some b → ∃ a, read (tell b) = some a ∧ of? r = some a)
    (hnone : ∀ {r}, entryOf? r = none → of? r = none) (rules : List RoutingRule) :
    ((rules.filterMap entryOf?).map tell).mapM read = some (rules.filterMap of?) := by
  induction rules with
  | nil => rfl
  | cons r rules ih =>
    cases hentry : entryOf? r with
    | none => rw [List.filterMap_cons_none hentry, List.filterMap_cons_none (hnone hentry), ih]
    | some b =>
      obtain ⟨a, hread, ha⟩ := hsome hentry
      rw [List.filterMap_cons_some hentry, List.filterMap_cons_some ha, List.map_cons,
        List.mapM_cons, hread, ih]
      rfl

end Routing

namespace Manifest

variable (backend : Backend) (rules : List RoutingRule) (m : Manifest)

/-- No runtime and no service brings a unit with command lines of its own. -/
theorem filterMap_unit?_beforeUnits :
    (m.beforeUnits backend).filterMap (Lifecycle.unit? ∘ said) = [] := by
  refine List.filterMap_eq_nil_iff.mpr fun b hb => ?_
  rcases List.mem_append.mp hb with hb | hb
  · rcases List.mem_append.mp hb with hb | hb
    · rw [runtimeBindings, List.mem_cons, List.mem_singleton] at hb
      rcases hb with rfl | rfl
      · rfl
      · rfl
    · obtain ⟨e, -, rfl⟩ := List.mem_map.mp hb
      rfl
  · obtain ⟨e, -, he⟩ := List.mem_filterMap.mp hb
    exact Lifecycle.unit?_said_override he

theorem filterMap_unit?_map_unit {kind : String} (hkind : kind = "volume" ∨ kind = "network")
    (names : List String) :
    (names.map (Lifecycle.unit backend kind)).filterMap (Lifecycle.unit? ∘ said)
      = (names.map Nix.collapseName).map (Lifecycle.unitName backend kind) := by
  rw [List.filterMap_map, List.map_map, ← List.filterMap_eq_map]
  refine List.filterMap_congr fun name _ => ?_
  exact (Lifecycle.unit?_said_unit backend kind name).trans
    (congrArg some (Lifecycle.collapseName_unitName backend hkind name))

theorem filterMap_unit?_configuration :
    (Routing.configuration rules).filterMap (Lifecycle.unit? ∘ said) = [] := by
  rw [Routing.configuration]
  split
  · rfl
  · rfl

/-- The units that run command lines of their own are those of what the project owns: its volumes
and then its networks. -/
theorem units_toModule {fields : Fields}
    (h : Nix.readModule (m.toModule backend rules).toList = some fields) :
    fields.filterMap Lifecycle.unit?
      = (m.ownVolumes.map Nix.collapseName).map (Lifecycle.unitName backend "volume")
        ++ (m.ownNetworks.map Nix.collapseName).map (Lifecycle.unitName backend "network") := by
  rw [m.readModule_toModule backend rules] at h
  obtain rfl := Option.some.inj h
  rw [List.filterMap_map, List.filterMap_append, List.filterMap_append,
    filterMap_unit?_beforeUnits, filterMap_unit?_configuration, units, List.filterMap_append,
    filterMap_unit?_map_unit backend (Or.inl rfl), filterMap_unit?_map_unit backend (Or.inr rfl),
    List.nil_append, List.append_nil]

/-- The servers of a module are those of the rules that are given, and then one for every rule in
a label. -/
theorem servers_toModule {fields : Fields}
    (h : Nix.readModule (m.toModule backend rules).toList = some fields) :
    Routing.readServers fields = some (rules.filterMap Routing.server?
      ++ m.routes.map fun r => Routing.serverFor r (r.url.getD "None")) := by
  rw [m.readModule_toModule backend rules] at h
  obtain rfl := Option.some.inj h
  have hroutes : m.routes.filterMap Routing.server?
      = m.routes.map fun r => Routing.serverFor r (r.url.getD "None") := by
    rw [← List.filterMap_eq_map]
    exact List.filterMap_congr fun r hr =>
      (Routing.contributes_of_isComplete (m.isComplete_of_mem_routes r hr)).1
  rw [Routing.readServers, Routing.Half.services.under_outline,
    ← hroutes, ← List.filterMap_append]
  exact Routing.mapM_told Routing.readServer?_said Routing.server?_eq_none _

/-- The routers of a module are those of the rules that are given, and then one for every rule in
a label. -/
theorem routers_toModule {fields : Fields}
    (h : Nix.readModule (m.toModule backend rules).toList = some fields) :
    Routing.readRouters fields = some (rules.filterMap Routing.router?
      ++ m.routes.map fun r => Routing.routerFor r (r.host.getD "None")) := by
  rw [m.readModule_toModule backend rules] at h
  obtain rfl := Option.some.inj h
  have hroutes : m.routes.filterMap Routing.router?
      = m.routes.map fun r => Routing.routerFor r (r.host.getD "None") := by
    rw [← List.filterMap_eq_map]
    exact List.filterMap_congr fun r hr =>
      (Routing.contributes_of_isComplete (m.isComplete_of_mem_routes r hr)).2
  rw [Routing.readRouters, Routing.Half.routers.under_outline, ← hroutes, ← List.filterMap_append]
  exact Routing.mapM_told (Routing.readRouter?_told Nix.telling_said
    (Routing.string?_attributeKey _)) Routing.router?_eq_none _

end Manifest
end ComposeNix
