import ComposeNix.Proofs.Routing.Drafts
import ComposeNix.Proofs.Routing.Labels
import ComposeNix.Proofs.Routing.Matcher
import ComposeNix.Proofs.Value.Forms
import Mathlib.Data.List.Flatten
import Mathlib.Data.List.Infix

/-!
# Labels that were written from routes

A route of a service can be written as labels: its host as a matcher, its entrypoint, the port that
the service listens on, and its certificate resolver if it has one.  The labels of several routes
may be mixed with each other and with labels that say nothing about routes, in any order
(`Mixture`).

`rulesOf_written`: what is read from such labels are the rules of the routes, in the order in which
these are first named.  The names have no dot in them, which would end them in the key, and the
hosts no backquote, which would end them in the matcher.  For the rest it is asked that these texts
and the entrypoints are those of a rule, not empty and with an encoding, and that the port makes an
address.

Two things carry the proof.  A key is read as the route and the subject that it was written for
(`Route.WellFormed.map_readKey`), so of all labels a route is given just its own, and no two of
these are about the same subject.  Labels about different subjects may be put down in any order, so
the draft of a route is the one of its labels as they were written (`Mixture.draftOf_eq`).
-/

namespace ComposeNix.Routing

/-! ## Keys -/

/-- The key of a label about a route, on the side of its router or of its service. -/
def labelKey (side name rest : String) : String :=
  "traefik.http." ++ side ++ "." ++ name ++ "." ++ rest

/-- What a label says nothing about a route with: a key on neither side. -/
def IsForeign (key : String) : Prop :=
  ¬ "traefik.http.routers.".toList <+: key.toList
    ∧ ¬ "traefik.http.services.".toList <+: key.toList

theorem splitAt_labelKey {side name : String} (hside : '.' ∉ side.toList)
    (hname : '.' ∉ name.toList) (rest : String) : Text.splitAt '.' (labelKey side name rest)
      = "traefik" :: "http" :: side :: name :: Text.splitAt '.' rest := by
  have hpart : ∀ {part : String}, '.' ∉ part.toList → ∀ cs : List Char,
      (part.toList ++ '.' :: cs).splitOnP (· == '.') = part.toList :: cs.splitOnP (· == '.') :=
    fun h cs => List.splitOnP_append_cons_of_forall_mem
      (fun c hc => beq_eq_false_iff_ne.mpr fun (heq : c = '.') => h (heq ▸ hc)) '.' rfl cs
  have hassoc : ∀ a b c d : List Char, a ++ b ++ ['.'] ++ c ++ ['.'] ++ d
      = a ++ (b ++ '.' :: (c ++ '.' :: d)) := fun a b c d => by simp
  have hlist : (labelKey side name rest).toList = "traefik".toList ++ '.' :: ("http".toList
      ++ '.' :: (side.toList ++ '.' :: (name.toList ++ '.' :: rest.toList))) := by
    unfold labelKey
    simp only [String.toList_append]
    exact hassoc "traefik.http.".toList side.toList name.toList rest.toList
  rw [Text.splitAt, hlist, hpart (by decide), hpart (by decide), hpart hside, hpart hname]
  simp only [List.map_cons, String.ofList_toList, Text.splitAt]

section Key

variable {name : String} (hne : name ≠ "") (hname : '.' ∉ name.toList)
include hne hname

theorem readKey_router (rest : String) : readKey (labelKey "routers" name rest)
    = some (name, routerSubject (Text.splitAt '.' rest)) := by
  have hempty : name.isEmpty = false := by simpa using hne
  rw [readKey, splitAt_labelKey (by decide) hname]
  simp only [hempty, Bool.false_eq_true, if_false, if_true]

theorem readKey_service (rest : String) : readKey (labelKey "services" name rest)
    = some (name, serviceSubject (Text.splitAt '.' rest)) := by
  have hempty : name.isEmpty = false := by simpa using hne
  have hside : "services" ≠ "routers" := by decide
  rw [readKey, splitAt_labelKey (by decide) hname]
  simp only [hempty, hside, Bool.false_eq_true, if_false, if_true]

end Key

/-- A foreign label is about no route. -/
theorem readKey_of_isForeign {key : String} (h : IsForeign key) : readKey key = none := by
  have hjoin : ['.'].intercalate (key.toList.splitOnP (· == '.')) = key.toList :=
    List.intercalate_splitOn '.'
  have hlead : ∀ {side name : String} {rest : List String},
      Text.splitAt '.' key = "traefik" :: "http" :: side :: name :: rest →
        ("traefik.http." ++ side ++ ".").toList <+: key.toList := by
    intro side name rest hsplit
    have hparts := congrArg (List.map String.toList) hsplit
    simp only [Text.splitAt, List.map_map, List.map_cons] at hparts
    have hself : String.toList ∘ String.ofList = id := funext fun _ => String.toList_ofList
    rw [hself, List.map_id] at hparts
    rw [hparts, List.intercalate_cons_cons, List.intercalate_cons_cons,
      List.intercalate_cons_cons] at hjoin
    have hhttp : "traefik.http.".toList = "traefik".toList ++ ['.'] ++ ("http".toList ++ ['.']) :=
      rfl
    have hdot : ".".toList = ['.'] := rfl
    refine ⟨['.'].intercalate (name.toList :: rest.map String.toList), ?_⟩
    rw [← hjoin]
    simp only [String.toList_append, hhttp, hdot, List.append_assoc]
  rw [readKey]
  split
  · rename_i side name rest hsplit
    have hprefix := hlead hsplit
    split_ifs with hempty hrouters hservices
    · rfl
    · rw [hrouters] at hprefix
      exact absurd hprefix h.1
    · rw [hservices] at hprefix
      exact absurd hprefix h.2
    · rfl
  · rfl

/-! ## Hosts -/

/-- The host of a matcher is found in it. -/
theorem hostIn?_matcher {host : String} (hne : host ≠ "") (hhost : '\x60' ∉ host.toList) :
    hostIn? ("Host(`" ++ host ++ "`)").toList = some host.toList := by
  rw [toList_matcher]
  exact hostIn?_matcherText (fun hnil => hne (String.toList_eq_nil_iff.mp hnil)) hhost

/-! ## Routes -/

/-- A route of a service, as labels can say it. -/
structure Route where
  name : String
  host : String
  entrypoint : String
  port : String
  certResolver : Option String

namespace Route

/-- The labels that say a route. -/
def labels (r : Route) : List (String × String) :=
  [(labelKey "routers" r.name "rule", "Host(`" ++ r.host ++ "`)"),
    (labelKey "routers" r.name "entrypoints", r.entrypoint),
    (labelKey "services" r.name "loadbalancer.server.port", r.port)]
  ++ (r.certResolver.map fun resolver =>
    (labelKey "routers" r.name "tls.certresolver", resolver)).toList

/-- The subjects of these labels. -/
def subjects (r : Route) : List Subject :=
  [.rule, .entrypoint, .port] ++ (r.certResolver.map fun _ => .certResolver).toList

/-- Where a service is reached at the port of a route. -/
def url (service : String) (r : Route) : String := "http://" ++ service ++ ":" ++ r.port

/-- The rule of a route. -/
def rule (service : String) (r : Route) : RoutingRule where
  name := r.name
  url := some (r.url service)
  host := some r.host
  entrypoint := r.entrypoint
  certResolver := r.certResolver
  enableTls := r.certResolver.isSome

/-- What is asked of the texts of a route.  No rule has a name, a host or an entrypoint without an
encoding. -/
structure WellFormed (service : String) (r : Route) : Prop where
  name_ne : r.name ≠ ""
  dot_notMem : '.' ∉ r.name.toList
  host_ne : r.host ≠ ""
  backquote_notMem : '\x60' ∉ r.host.toList
  entrypoint_ne : r.entrypoint ≠ ""
  isUnicode : ∀ text ∈ [r.name, r.host, r.entrypoint], Text.isUnicode text
  isUrl : (Url.read? (r.url service)).isSome = true

variable {service : String} {r : Route}

section Keys

variable (h : r.WellFormed service)
include h

theorem WellFormed.readKey_rule :
    readKey (labelKey "routers" r.name "rule") = some (r.name, .rule) :=
  readKey_router h.name_ne h.dot_notMem "rule"

theorem WellFormed.readKey_entrypoints :
    readKey (labelKey "routers" r.name "entrypoints") = some (r.name, .entrypoint) :=
  readKey_router h.name_ne h.dot_notMem "entrypoints"

theorem WellFormed.readKey_certResolver :
    readKey (labelKey "routers" r.name "tls.certresolver") = some (r.name, .certResolver) :=
  readKey_router h.name_ne h.dot_notMem "tls.certresolver"

theorem WellFormed.readKey_port :
    readKey (labelKey "services" r.name "loadbalancer.server.port") = some (r.name, .port) :=
  readKey_service h.name_ne h.dot_notMem "loadbalancer.server.port"

end Keys

/-- Every label is about its route, each about a subject of its own. -/
theorem WellFormed.map_readKey (h : r.WellFormed service) :
    r.labels.map (fun label => readKey label.1) = r.subjects.map fun s => some (r.name, s) := by
  rw [labels, subjects]
  cases r.certResolver <;>
    simp only [List.map_append, List.map_cons, List.map_nil, h.readKey_rule, h.readKey_entrypoints,
      h.readKey_port, h.readKey_certResolver, Option.map_none, Option.map_some, Option.toList]

theorem nodup_subjects (r : Route) : r.subjects.Nodup := by
  rw [subjects]
  cases r.certResolver with
  | none => decide
  | some resolver =>
    show [Subject.rule, .entrypoint, .port, .certResolver].Nodup
    decide

/-- No two labels of a route are about the same subject. -/
theorem WellFormed.nodup_readKey (h : r.WellFormed service) :
    (r.labels.map fun label => readKey label.1).Nodup := by
  rw [h.map_readKey]
  exact r.nodup_subjects.map fun s t heq => (Prod.mk.inj (Option.some.inj heq)).2

theorem WellFormed.readKey_of_mem (h : r.WellFormed service) {label : String × String}
    (hlabel : label ∈ r.labels) : ∃ subject, readKey label.1 = some (r.name, subject) := by
  have hmem : readKey label.1 ∈ r.subjects.map fun s => some (r.name, s) := by
    rw [← h.map_readKey]
    exact List.mem_map_of_mem hlabel
  obtain ⟨subject, -, heq⟩ := List.mem_map.mp hmem
  exact ⟨subject, heq.symm⟩

theorem WellFormed.routeOf?_of_mem (h : r.WellFormed service) {label : String × String}
    (hlabel : label ∈ r.labels) : routeOf? label = some r.name := by
  obtain ⟨subject, hkey⟩ := h.readKey_of_mem hlabel
  exact routeOf?_of_readKey hkey

/-- What a route is drafted as. -/
def draft (service : String) (r : Route) : Draft :=
  ⟨some (r.url service), some r.host, some r.entrypoint, r.certResolver⟩

/-- The labels of a route say its draft. -/
theorem WellFormed.foldl_labels (h : r.WellFormed service) :
    r.labels.foldl (noteLabel service) .empty = r.draft service := by
  have hhost := hostIn?_matcher h.host_ne h.backquote_notMem
  rw [labels, draft]
  cases r.certResolver <;>
    simp only [List.foldl_append, List.foldl_cons, List.foldl_nil, noteLabel, subjectOf,
      h.readKey_rule, h.readKey_entrypoints, h.readKey_port, h.readKey_certResolver,
      Option.map_none, Option.map_some, Option.getD_some, Option.toList, Draft.note, hhost,
      String.ofList_toList, Draft.empty] <;>
    rfl

/-- This draft makes the rule of the route. -/
theorem WellFormed.settle_draft (h : r.WellFormed service) :
    settle service (r.name, r.draft service) = .ok (r.rule service) := by
  have hentrypoint : (r.draft service).entrypointText = r.entrypoint := by
    have hnonEmpty : nonEmpty? (some r.entrypoint) = some r.entrypoint := by
      simpa [nonEmpty?] using h.entrypoint_ne
    rw [Draft.entrypointText, draft, hnonEmpty, Option.getD_some]
  obtain ⟨hname, hhost, hentrypointText⟩ : Text.isUnicode r.name ∧ Text.isUnicode r.host
      ∧ Text.isUnicode r.entrypoint := by simpa using h.isUnicode
  have hrule : (r.draft service).asRule r.name (r.url service) r.host = r.rule service := by
    rw [Draft.asRule, hentrypoint]
    rfl
  exact settle_eq_ok_iff_admitted.mpr ⟨r.url service, rfl, r.host, rfl,
    ⟨h.isUrl, hname, hhost, hentrypoint ▸ hentrypointText⟩, hrule⟩

end Route

/-! ## Labels that are mixed -/

/-- Labels that say routes, in the order in which these are first named, mixed with others. -/
structure Mixture (routes : List Route) (labels : List (String × String)) : Prop where
  perm : ∃ others : List (String × String), (∀ label ∈ others, IsForeign label.1)
    ∧ labels.Perm (routes.flatMap Route.labels ++ others)
  order : routes.Pairwise fun r s =>
    labels.findIdx (· ∈ r.labels) < labels.findIdx (· ∈ s.labels)

/-- No two labels of different routes are about the same thing. -/
theorem Route.nodup_readKey_flatMap {service : String} {routes : List Route}
    (hroutes : ∀ r ∈ routes, r.WellFormed service) (hnames : (routes.map Route.name).Nodup) :
    ((routes.flatMap Route.labels).map fun label => readKey label.1).Nodup := by
  rw [List.map_flatMap, List.nodup_flatMap]
  refine ⟨fun r hr => (hroutes r hr).nodup_readKey, ?_⟩
  refine (List.pairwise_map.mp hnames).imp_of_mem fun {r s} hr hs hne key hkeyr hkeys => ?_
  obtain ⟨a, ha, rfl⟩ := List.mem_map.mp hkeyr
  obtain ⟨b, hb, heq⟩ := List.mem_map.mp hkeys
  obtain ⟨_, hreada⟩ := (hroutes r hr).readKey_of_mem ha
  obtain ⟨_, hreadb⟩ := (hroutes s hs).readKey_of_mem hb
  rw [hreada, hreadb] at heq
  exact hne (Prod.mk.inj (Option.some.inj heq)).1.symm

/-- What labels about different things say is the same in any order. -/
theorem foldl_noteLabel_of_perm {name : String} {labels own : List (String × String)}
    (hperm : labels.Perm own) (hroute : ∀ label ∈ own, routeOf? label = some name)
    (hnodup : (own.map fun label => readKey label.1).Nodup) (service : String) (d : Draft) :
    labels.foldl (noteLabel service) d = own.foldl (noteLabel service) d := by
  refine hperm.foldl_eq' (fun a ha b hb d => ?_) d
  by_cases heq : a = b
  · rw [heq]
  · have hkeys : readKey a.1 ≠ readKey b.1 := fun hkeys =>
      heq (List.inj_on_of_nodup_map hnodup (hperm.subset ha) (hperm.subset hb) hkeys)
    have hsubjects : subjectOf a ≠ subjectOf b := by
      obtain ⟨⟨m, s⟩, hs, hm⟩ := Option.map_eq_some_iff.mp (hroute a (hperm.subset ha))
      obtain ⟨⟨n, t⟩, ht, hn⟩ := Option.map_eq_some_iff.mp (hroute b (hperm.subset hb))
      obtain rfl : m = n := hm.trans hn.symm
      rw [subjectOf, subjectOf, hs, ht]
      rintro (rfl : s = t)
      exact hkeys (hs.trans ht.symm)
    exact Draft.note_comm service hsubjects a.2 b.2 d

namespace Mixture

variable {service : String} {routes : List Route} {labels : List (String × String)}
  (hroutes : ∀ r ∈ routes, r.WellFormed service) (hnames : (routes.map Route.name).Nodup)
  (h : Mixture routes labels)

section

include hroutes h

/-- The labels about routes are those of the routes. -/
theorem perm_filter : (labels.filter fun label => isAboutRoute label.1).Perm
    (routes.flatMap Route.labels) := by
  obtain ⟨others, hothers, hperm⟩ := h.perm
  have hforeign : others.filter (fun label => isAboutRoute label.1) = [] :=
    List.filter_eq_nil_iff.mpr fun label hlabel => by
      simp [isAboutRoute, readKey_of_isForeign (hothers label hlabel)]
  have hown : (routes.flatMap Route.labels).filter (fun label => isAboutRoute label.1)
      = routes.flatMap Route.labels := by
    refine List.filter_eq_self.mpr fun label hlabel => ?_
    obtain ⟨r, hr, hlabel⟩ := List.mem_flatMap.mp hlabel
    exact isAboutRoute_of_routeOf? ((hroutes r hr).routeOf?_of_mem hlabel)
  have hfilter := hperm.filter fun label => isAboutRoute label.1
  rwa [List.filter_append, hown, hforeign, List.append_nil] at hfilter

theorem mem_of_mem_labels {r : Route} (hr : r ∈ routes) {label : String × String}
    (hlabel : label ∈ r.labels) : label ∈ labels :=
  (List.mem_filter.mp
    ((h.perm_filter hroutes).symm.subset (List.mem_flatMap.mpr ⟨r, hr, hlabel⟩))).1

theorem exists_of_routeOf? {label : String × String} (hlabel : label ∈ labels) {name : String}
    (hroute : routeOf? label = some name) : ∃ r ∈ routes, label ∈ r.labels :=
  List.mem_flatMap.mp ((h.perm_filter hroutes).subset
    (List.mem_filter.mpr ⟨hlabel, isAboutRoute_of_routeOf? hroute⟩))

end

include hroutes hnames h

/-- The labels of a route are the labels about it. -/
theorem mem_labels_iff {r : Route} (hr : r ∈ routes) {label : String × String}
    (hlabel : label ∈ labels) : label ∈ r.labels ↔ routeOf? label = some r.name := by
  refine ⟨(hroutes r hr).routeOf?_of_mem, fun hroute => ?_⟩
  obtain ⟨s, hs, hmem⟩ := h.exists_of_routeOf? hroutes hlabel hroute
  have hname : s.name = r.name :=
    Option.some.inj (((hroutes s hs).routeOf?_of_mem hmem).symm.trans hroute)
  rwa [← List.inj_on_of_nodup_map hnames hs hr hname]

theorem nodup_filter :
    ((labels.filter fun label => isAboutRoute label.1).map fun label => readKey label.1).Nodup :=
  ((h.perm_filter hroutes).map _).nodup_iff.mpr (Route.nodup_readKey_flatMap hroutes hnames)

/-- The draft of a route is what its labels say. -/
theorem draftOf_eq {r : Route} (hr : r ∈ routes) :
    draftOf service r.name labels = r.draft service := by
  have hsublist : (labels.filter fun label => routeOf? label = some r.name).Sublist
      (labels.filter fun label => isAboutRoute label.1) :=
    List.monotone_filter_right labels fun label hroute =>
      isAboutRoute_of_routeOf? (of_decide_eq_true hroute)
  have hperm : (labels.filter fun label => routeOf? label = some r.name).Perm r.labels := by
    refine (List.perm_ext_iff_of_nodup
      (((h.nodup_filter hroutes hnames).of_map).sublist hsublist)
      ((hroutes r hr).nodup_readKey.of_map)).mpr fun label => ?_
    rw [List.mem_filter, decide_eq_true_iff]
    exact ⟨fun ⟨hlabel, hroute⟩ => (h.mem_labels_iff hroutes hnames hr hlabel).mpr hroute,
      fun hlabel => ⟨h.mem_of_mem_labels hroutes hr hlabel, (hroutes r hr).routeOf?_of_mem hlabel⟩⟩
  rw [draftOf, ← (hroutes r hr).foldl_labels]
  exact foldl_noteLabel_of_perm hperm (fun label => (hroutes r hr).routeOf?_of_mem)
    (hroutes r hr).nodup_readKey service .empty

/-- The routes are named in their order. -/
theorem routesNamed_eq : routesNamed labels = routes.map Route.name := by
  have hfirst : ∀ r ∈ routes, labels.findIdx (· ∈ r.labels)
      = labels.findIdx (routeOf? · = some r.name) := fun r hr =>
    Nat.le_antisymm
      (List.findIdx_le_findIdx fun label hlabel hroute => decide_eq_true
        ((h.mem_labels_iff hroutes hnames hr hlabel).mpr (of_decide_eq_true hroute)))
      (List.findIdx_le_findIdx fun label hlabel hmem => decide_eq_true
        ((h.mem_labels_iff hroutes hnames hr hlabel).mp (of_decide_eq_true hmem)))
  refine Manifest.distinct_eq_of_pairwise (fun name => ?_) ?_
  · rw [List.mem_map, List.mem_filterMap]
    constructor
    · rintro ⟨r, hr, rfl⟩
      obtain ⟨label, hlabel⟩ : ∃ label, label ∈ r.labels := ⟨_, List.mem_cons_self⟩
      exact ⟨label, h.mem_of_mem_labels hroutes hr hlabel, (hroutes r hr).routeOf?_of_mem hlabel⟩
    · rintro ⟨label, hlabel, hroute⟩
      obtain ⟨r, hr, hmem⟩ := h.exists_of_routeOf? hroutes hlabel hroute
      exact ⟨r, hr, Option.some.inj (((hroutes r hr).routeOf?_of_mem hmem).symm.trans hroute)⟩
  · refine List.pairwise_map.mpr (h.order.imp_of_mem fun {r s} hr hs hlt => ?_)
    rw [hfirst r hr, hfirst s hs] at hlt
    exact Manifest.idxOf_filterMap_lt hlt

/-- A dictionary of the labels says of routes what the labels say. -/
theorem drafts_ofEntries : drafts service (.ofEntries labels) = drafts service labels := by
  have hkeys : ((labels.filter fun label => isAboutRoute label.1).map Prod.fst).Nodup := by
    refine List.Nodup.of_map readKey ?_
    rw [List.map_map]
    exact h.nodup_filter hroutes hnames
  rw [← drafts_filter, Dictionary.filter_ofEntries, Dictionary.ofEntries_eq_self hkeys,
    drafts_filter]

theorem rulesOf_ofEntries :
    rulesOf service (.ofEntries labels) = routes.map (Route.rule service) := by
  have houtcomes : outcomes service (.ofEntries labels)
      = routes.map fun r => .ok (r.rule service) := by
    rw [outcomes, h.drafts_ofEntries hroutes hnames, drafts_eq,
      h.routesNamed_eq hroutes hnames, List.map_map, List.map_map]
    refine List.map_congr_left fun r hr => ?_
    rw [Function.comp_apply, Function.comp_apply, h.draftOf_eq hroutes hnames hr,
      (hroutes r hr).settle_draft]
  rw [rulesOf, houtcomes, List.filterMap_map]
  exact congrFun (List.filterMap_eq_map (f := Route.rule service)) routes

end Mixture

/-- What is read from labels that say routes, mixed with each other and with labels about no
route, are the rules of the routes, in the order in which these are first named.  So it is for
every value that spells the labels: a mapping, or a list if no key has an equals sign. -/
theorem rulesOf_written {service : String} {routes : List Route}
    (hroutes : ∀ r ∈ routes, r.WellFormed service) (hnames : (routes.map Route.name).Nodup)
    {labels : List (String × String)} (hlabels : Mixture routes labels) :
    (∀ v, Value.Spells labels v → ∃ d, v.dictionary? = .ok (some d)
        ∧ rulesOf service d = routes.map (Route.rule service))
      ∧ Value.Spells labels (.map (labels.map fun label => (.str label.1, .str label.2)))
      ∧ ((∀ label ∈ labels, '=' ∉ label.1.toList) →
        Value.Spells labels (.list (labels.map fun label => .str (label.1 ++ "=" ++ label.2)))) :=
  ⟨fun _ hv => ⟨_, Value.dictionary?_of_spells hv, hlabels.rulesOf_ofEntries hroutes hnames⟩,
    Value.spells_map labels, Value.spells_list⟩

/-- A route with a certificate resolver and one without. -/
def twoRoutes : List Route :=
  [⟨"app", "a.io", "web", "80", some "le"⟩, ⟨"api", "b.io", "websecure", "8080", none⟩]

/-- Their labels, mixed with each other and with one about no route. -/
def mixedLabels : List (String × String) :=
  [("traefik.http.services.app.loadbalancer.server.port", "80"),
    ("traefik.enable", "true"),
    ("traefik.http.routers.api.rule", "Host(`b.io`)"),
    ("traefik.http.routers.app.tls.certresolver", "le"),
    ("traefik.http.services.api.loadbalancer.server.port", "8080"),
    ("traefik.http.routers.app.entrypoints", "web"),
    ("traefik.http.routers.app.rule", "Host(`a.io`)"),
    ("traefik.http.routers.api.entrypoints", "websecure")]

/-- The rules of both are read from the labels. -/
theorem rulesOf_mixedLabels : (∀ r ∈ twoRoutes, r.WellFormed "shop")
    ∧ (twoRoutes.map Route.name).Nodup ∧ Mixture twoRoutes mixedLabels
    ∧ ∃ d, (Value.map (mixedLabels.map fun label => (.str label.1, .str label.2))).dictionary?
        = .ok (some d) ∧ rulesOf "shop" d = twoRoutes.map (Route.rule "shop") := by
  have hroutes : ∀ r ∈ twoRoutes, r.WellFormed "shop" := by
    have hurl : ∀ r ∈ twoRoutes, (Url.read? (r.url "shop")).isSome = true := by decide +kernel
    intro r hr
    have hisUrl := hurl r hr
    rcases List.mem_pair.mp hr with rfl | rfl <;>
      exact ⟨by decide, by decide, by decide, by decide, by decide, by decide, hisUrl⟩
  have hnames : (twoRoutes.map Route.name).Nodup := by decide
  have hlabels : Mixture twoRoutes mixedLabels :=
    ⟨⟨[("traefik.enable", "true")], fun label hlabel => by
        rw [List.mem_singleton.mp hlabel, IsForeign]
        decide, by decide +kernel⟩, by decide +kernel⟩
  obtain ⟨hread, hmap, -⟩ := rulesOf_written hroutes hnames hlabels
  exact ⟨hroutes, hnames, hlabels, hread _ hmap⟩
end ComposeNix.Routing
