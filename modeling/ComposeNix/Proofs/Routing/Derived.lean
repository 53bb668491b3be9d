import ComposeNix.Proofs.Routing.Order
import ComposeNix.Proofs.Routing.Reading
import ComposeNix.Value.Coercion

/-!
# The rules that labels derive

What labels say about a route becomes a rule if they say a port and a host.  Two things could go
wrong on the way: a rule might lack something that it needs, or it might be dropped for a reason
that nobody thought of, since a route whose rule cannot be validated is passed over in silence.

No rule lacks anything.  The fields of a route are validated as those of any other rule
(`Draft.fields`), and of all that validation looks at only the address and a text without an
encoding can be at fault (`Draft.ofValue_fields`), because a label never says an empty name or host
and an empty entrypoint counts as none.  So `derived_of_deriveFrom` says what every rule has
(`Derived`), in which order the rules stand, and which routes have none.
-/

namespace ComposeNix.Routing

/-! ## Validating the fields of a route -/

/-- The entries of a mapping that has values under some of the keys. -/
def present (fs : List (String × Option Value)) : Entries :=
  fs.filterMap fun f => f.2.map fun v => (.str f.1, v)

theorem lookup_present_cons (key k : String) (v? : Option Value)
    (fs : List (String × Option Value)) :
    Value.lookup key (present ((k, v?) :: fs))
      = (if k = key then v? else none).or (Value.lookup key (present fs)) := by
  cases v? with
  | none =>
    rw [ite_self, Option.none_or]
    rfl
  | some v =>
    have hcons : present ((k, some v) :: fs) = (.str k, v) :: present fs := rfl
    rw [hcons, Value.lookup]
    split <;> rfl

namespace Draft

/-- The fields that labels give a route.  With a certificate comes that it is to be used. -/
def fields (name : String) (d : Draft) : Entries :=
  present [("name", some (.str name)), ("url", d.url.map .str), ("host", d.host.map .str),
    ("entrypoint", d.entrypoint.map .str), ("cert_resolver", d.certResolver.map .str),
    ("enable_tls", d.certResolver.map fun _ => .bool true)]

variable {name url host : String} {d : Draft}

theorem firstOf_fields (name : String) (d : Draft) :
    (d.fields name).firstOf ["name"] = some ("name", .str name)
      ∧ (d.fields name).firstOf ["url"] = d.url.map (("url", .str ·))
      ∧ (d.fields name).firstOf ["host"] = d.host.map (("host", .str ·))
      ∧ (d.fields name).firstOf ["entrypoint"] = d.entrypoint.map (("entrypoint", .str ·))
      ∧ (d.fields name).firstOf ["certResolver", "cert_resolver"]
        = d.certResolver.map (("cert_resolver", .str ·))
      ∧ (d.fields name).firstOf ["enableTLS", "enable_tls"]
        = d.certResolver.map fun _ => ("enable_tls", .bool true) := by
  have hnil (key : String) : Value.lookup key (present []) = none := rfl
  simp [Entries.firstOf, fields, lookup_present_cons, hnil, Option.map_map, Function.comp_def]

/-- A field whose text is taken as it is, unless it has no encoding. -/
theorem named_of_text {α : Type} {names : List String} {missing : Checked α} {absent a : α}
    {read : Value → Except Cause α} {es : Entries} {field text : String} {v : Value}
    (h : es.firstOf names = some (field, v))
    (hread : read v = if Text.isUnicode text then .ok a else .error .notUnicode) :
    es.named names missing absent read
      = ⟨if Text.isUnicode text then a else absent, textIssues field text⟩ := by
  rw [textIssues]
  by_cases htext : Text.isUnicode text = true
  · rw [if_pos htext] at hread
    rw [Entries.named_of_ok h hread, if_pos htext, if_pos htext]
    rfl
  · rw [if_neg htext] at hread
    rw [Entries.named_of_error h hread, if_neg htext, if_neg htext]
    rfl

/-- What is read of a route's fields: what is wrong with the draft, and its rule if nothing is. -/
theorem read_fields (hurl : d.url = some url) (hhost : d.host = some host) (hname : name ≠ "")
    (hne : host ≠ "") {es : Entries}
    (hes : ∀ key, Value.lookup key es = Value.lookup key (d.fields name)) :
    (RoutingRule.read es).issues = d.issues name url host
      ∧ (d.issues name url host = [] → (RoutingRule.read es).value = d.asRule name url host) := by
  have hfirst : ∀ names, es.firstOf names = (d.fields name).firstOf names := fun names => by
    simp only [Entries.firstOf, hes]
  obtain ⟨hnamed, hurled, hhosted, hentrypoint, hresolver, htls⟩ := firstOf_fields name d
  rw [hurl, Option.map_some] at hurled
  rw [hhost, Option.map_some] at hhosted
  simp only [← hfirst] at hnamed hurled hhosted hentrypoint hresolver htls
  have hhostText : orNull shortestText (.str host)
      = if Text.isUnicode host then .ok (some host) else .error .notUnicode := by
    rw [orNull_str, shortestText_str hne]
    split <;> rfl
  have hurlRead : es.named ["url"] (pure none) none (orNull urlText)
      = ⟨if (Url.read? url).isSome then some url else none,
        if (Url.read? url).isSome then [] else [⟨["url"], .invalidUrl url⟩]⟩ := by
    by_cases haccepted : (Url.read? url).isSome = true
    · have hread : orNull urlText (.str url) = .ok (some url) := by
        rw [orNull_str, urlText_str, if_pos haccepted]
        rfl
      rw [Entries.named_of_ok hurled hread, if_pos haccepted, if_pos haccepted]
      rfl
    · have hread : orNull urlText (.str url) = .error (.invalidUrl url) := by
        rw [orNull_str, urlText_str, if_neg haccepted]
        rfl
      rw [Entries.named_of_error hurled hread, if_neg haccepted, if_neg haccepted]
      rfl
  have hentrypointRead : es.named ["entrypoint"] (pure RoutingRule.defaultEntrypoint) ""
      ComposeNix.entrypointText
      = ⟨if Text.isUnicode d.entrypointText then d.entrypointText else "",
        textIssues "entrypoint" d.entrypointText⟩ := by
    cases hsaid : d.entrypoint with
    | none =>
      rw [hsaid] at hentrypoint
      have hdefault : d.entrypointText = RoutingRule.defaultEntrypoint := by
        rw [Draft.entrypointText, hsaid]
        rfl
      rw [Entries.named, hentrypoint, hdefault]
      rfl
    | some s =>
      rw [hsaid] at hentrypoint
      refine named_of_text hentrypoint (entrypointText_str s ?_)
      rw [Draft.entrypointText, hsaid]
  rw [RoutingRule.read, named_of_text hnamed (shortestText_str hname), hurlRead,
    named_of_text hhosted hhostText, hentrypointRead,
    Entries.named_of_map (f := some) hresolver fun _ => rfl,
    Entries.named_of_map (f := fun _ => true) htls fun _ => rfl]
  refine ⟨?_, fun hnil => ?_⟩
  · simp [issues]
  · obtain ⟨haccepted, hname, hhost, hentrypoint⟩ := issues_eq_nil_iff.mp hnil
    simp only [haccepted, hname, hhost, hentrypoint, if_true, asRule]
    cases d.certResolver <;> rfl

/-- The fields of a route are validated as its draft is settled. -/
theorem ofValue_fields (hurl : d.url = some url) (hhost : d.host = some host) (hname : name ≠ "")
    (hne : host ≠ "") {es : Entries}
    (hes : ∀ key, Value.lookup key es = Value.lookup key (d.fields name)) :
    RoutingRule.ofValue (.map es) = d.toRule name url host := by
  have haddress : RoutingRule.addressBreak? es = RoutingRule.unreportable? url := by
    have hlookup : Value.lookup "url" es = some (.str url) := by
      rw [hes]
      simp [fields, lookup_present_cons, hurl]
    rw [RoutingRule.addressBreak?, hlookup]
  obtain ⟨hissues, hvalue⟩ := read_fields hurl hhost hname hne hes
  have hentries : (Value.map es).entries? = some es := rfl
  rw [RoutingRule.ofValue, hentries, toRule]
  simp only [haddress]
  cases RoutingRule.unreportable? url with
  | some fault => rfl
  | none =>
    simp only [Checked.result, hissues]
    cases hnil : d.issues name url host with
    | nil =>
      rw [hvalue hnil]
      rfl
    | cons issue rest => rfl

end Draft

/-! ## Labels about a port or a host -/

variable {service name : String} {labels : List (String × String)}

/-- The last label that says the port of a route. -/
def lastPort? (name : String) (labels : List (String × String)) : Option (String × String) :=
  (labels.filter fun label => readKey label.1 = some (name, .port)).getLast?

theorem sayings_port (service name : String) (labels : List (String × String)) :
    sayings service name .port labels
      = (labels.filter fun label => readKey label.1 = some (name, .port)).map fun label =>
        Draft.address service label.2 := by
  induction labels with
  | nil => rfl
  | cons label labels ih =>
    rw [sayings, List.filterMap_cons, ← sayings, ih]
    by_cases hkey : readKey label.1 = some (name, .port)
    · rw [if_pos hkey, List.filter_cons_of_pos (by simpa using hkey)]
      rfl
    · rw [if_neg hkey, List.filter_cons_of_neg (by simpa using hkey)]

/-- The address of a route is made of the last port that is said. -/
theorem url_draftOf (service name : String) (labels : List (String × String)) :
    (draftOf service name labels).url
      = (lastPort? name labels).map fun label => Draft.address service label.2 := by
  have hheld := held?_draftOf service name .port labels
  rwa [sayings_port, List.getLast?_map] at hheld

/-- A route has no host if no label says one. -/
theorem host_draftOf_eq_none_iff (service name : String) (labels : List (String × String)) :
    (draftOf service name labels).host = none ↔ ∀ label ∈ labels,
      readKey label.1 = some (name, .rule) → hostIn? label.2.toList = none := by
  have hheld : (draftOf service name labels).host = (sayings service name .rule labels).getLast? :=
    held?_draftOf service name .rule labels
  rw [hheld, List.getLast?_eq_none_iff, sayings, List.filterMap_eq_nil_iff]
  refine forall₂_congr fun label _ => ?_
  split
  · rename_i hkey
    rw [saying?, Option.map_eq_none_iff]
    exact (imp_iff_right hkey).symm
  · rename_i hkey
    exact iff_of_true rfl fun h => absurd h hkey

/-- A host that is known stood in a matcher. -/
theorem host_draftOf {host : String} (h : (draftOf service name labels).host = some host) :
    host ≠ "" ∧ '\x60' ∉ host.toList := by
  have hheld := held?_draftOf service name .rule labels
  obtain ⟨label, -, -, hsays⟩ := mem_sayings_iff.mp (List.mem_of_getLast? (hheld.symm.trans h))
  obtain ⟨cs, hcs, rfl⟩ := Option.map_eq_some_iff.mp hsays
  obtain ⟨hne, hquote, -⟩ := hostIn?_eq_some hcs
  rw [String.toList_ofList]
  exact ⟨fun hempty => hne (by rw [← String.toList_ofList (l := cs), hempty]; rfl), hquote⟩

/-! ## What is derived -/

/-- What every rule has that labels derive for a service. -/
structure Derived (service : String) (r : RoutingRule) : Prop where
  name : r.name ≠ ""
  url : ∃ port, r.url = some ("http://" ++ service ++ ":" ++ port)
  host : ∃ host, r.host = some host ∧ host ≠ "" ∧ '\x60' ∉ host.toList
  entrypoint : r.entrypoint ≠ ""

theorem ne_of_mem_routesNamed (h : name ∈ routesNamed labels) : name ≠ "" := by
  obtain ⟨label, -, hroute⟩ := List.mem_filterMap.mp (Manifest.mem_distinct.mp h)
  obtain ⟨⟨_, subject⟩, hkey, rfl⟩ := Option.map_eq_some_iff.mp hroute
  exact name_ne_of_readKey hkey

theorem Draft.entrypointText_ne (d : Draft) : d.entrypointText ≠ "" := by
  rw [entrypointText]
  cases hsaid : nonEmpty? d.entrypoint with
  | none => exact show RoutingRule.defaultEntrypoint ≠ "" by decide
  | some entrypoint =>
    obtain ⟨-, hne⟩ := Option.filter_eq_some_iff.mp hsaid
    simpa using hne

theorem derived_of_mem_rulesOf {r : RoutingRule} (hr : r ∈ rulesOf service labels) :
    Derived service r := by
  have hnamed : r.name ∈ routesNamed labels := by
    rw [← keys_drafts service]
    exact (names_rulesOf_sublist service labels).subset (List.mem_map_of_mem hr)
  obtain ⟨hmakes, hrule⟩ := mem_rulesOf_iff.mp hr
  obtain ⟨url, hurl, host, hhost, -⟩ := Draft.makesRule_iff.mp hmakes
  have hsaid := hurl
  rw [url_draftOf] at hsaid
  obtain ⟨label, -, haddress⟩ := Option.map_eq_some_iff.mp hsaid
  rw [← Draft.asRule_eq hurl hhost] at hrule
  rw [← hrule]
  exact ⟨ne_of_mem_routesNamed hnamed, ⟨label.2, congrArg some haddress.symm⟩,
    ⟨host, rfl, host_draftOf hhost⟩, Draft.entrypointText_ne _⟩

/-- The texts of a draft that have to have an encoding, the address apart. -/
def Draft.texts (name : String) (d : Draft) : List String :=
  name :: d.entrypointText :: d.host.toList

/-- A route has no rule if no label says its port, no label says its host, its last port does not
make a URL, or one of its texts has no encoding. -/
theorem notMem_names_rulesOf_iff : name ∉ (rulesOf service labels).map RoutingRule.name
    ↔ (∀ label ∈ labels, readKey label.1 ≠ some (name, .port))
      ∨ (∀ label ∈ labels, readKey label.1 = some (name, .rule) → hostIn? label.2.toList = none)
      ∨ (∃ label ∈ lastPort? name labels,
        Url.read? (Draft.address service label.2) = none)
      ∨ ∃ text ∈ (draftOf service name labels).texts name, ¬ Text.isUnicode text := by
  have hport : lastPort? name labels = none
      ↔ ∀ label ∈ labels, readKey label.1 ≠ some (name, .port) := by
    rw [lastPort?, List.getLast?_eq_none_iff, List.filter_eq_nil_iff]
    simp only [decide_eq_true_eq]
  have hmakes : name ∈ (rulesOf service labels).map RoutingRule.name
      ↔ (draftOf service name labels).MakesRule name := by
    constructor
    · intro h
      obtain ⟨r, hr, rfl⟩ := List.mem_map.mp h
      exact (mem_rulesOf_iff.mp hr).1
    · intro h
      exact List.mem_map.mpr ⟨(draftOf service name labels).rule name,
        mem_rulesOf_iff.mpr ⟨h, rfl⟩, rfl⟩
  rw [hmakes, Draft.makesRule_iff, ← hport, ← host_draftOf_eq_none_iff service, url_draftOf]
  cases lastPort? name labels with
  | none => simp
  | some label =>
    cases hhost : (draftOf service name labels).host with
    | none => simp
    | some host =>
      have hadmitted : (draftOf service name labels).Admitted name
            (Draft.address service label.2) host
          ↔ (Url.read? (Draft.address service label.2)).isSome = true
            ∧ ∀ text ∈ (draftOf service name labels).texts name, Text.isUnicode text := by
        rw [Draft.texts, hhost]
        simp only [Option.toList_some, List.forall_mem_cons, List.not_mem_nil, false_imp_iff,
          implies_true, and_true]
        exact ⟨fun h => ⟨h.isUrl, h.name, h.entrypoint, h.host⟩,
          fun ⟨hurl, hname, hentrypoint, hhost⟩ => ⟨hurl, hname, hhost, hentrypoint⟩⟩
      simp only [Option.map_some, Option.mem_some_iff, exists_eq_left', hadmitted, not_and_or,
        not_forall, exists_prop, reduceCtorEq, false_or, Bool.not_eq_true,
        Option.isSome_eq_false_iff, Option.isNone_iff_eq_none]

theorem Draft.eq_of_mem_textIssues {field text : String} {i : Issue}
    (h : i ∈ textIssues field text) : i = ⟨[field], .notUnicode⟩ := by
  rw [textIssues] at h
  split at h
  · exact absurd h List.not_mem_nil
  · exact List.mem_singleton.mp h

/-- What can be wrong with a draft. -/
theorem Draft.eq_of_mem_issues {url host : String} {d : Draft} {i : Issue}
    (h : i ∈ d.issues name url host) : i = ⟨["url"], .invalidUrl url⟩
      ∨ ∃ field ∈ ["name", "host", "entrypoint"], i = ⟨[field], .notUnicode⟩ := by
  simp only [issues, List.mem_append] at h
  rcases h with ((hname | hurl) | hhost) | hentrypoint
  · exact Or.inr ⟨"name", by decide, eq_of_mem_textIssues hname⟩
  · split at hurl
    · exact absurd hurl List.not_mem_nil
    · exact Or.inl (List.mem_singleton.mp hurl)
  · exact Or.inr ⟨"host", by decide, eq_of_mem_textIssues hhost⟩
  · exact Or.inr ⟨"entrypoint", by decide, eq_of_mem_textIssues hentrypoint⟩

/-- Reads the rules that a value of any shape derives, as the labels of a service. -/
def deriveFrom (service : String) (v : Value) :
    Except NumberFault (Except Text.Unencodable (List RoutingRule)) :=
  v.dictionary?.map fun labels? => derive service (labels?.getD [])

theorem derive_eq_ok_iff {rules : List RoutingRule} : derive service labels = .ok rules
    ↔ break? service labels = none ∧ rulesOf service labels = rules := by
  rw [derive]
  cases break? service labels <;> simp

/-- What the labels of a service derive, in whatever shape they are given, if they are read to the
end.  Every rule has a name, the address of the service at some port, a host without backquotes, and
an entrypoint.  Their names differ and stand in the order in which the labels first name them.  A
route has no rule only if its port or its host is missing, its address is not a URL, or its name,
host or entrypoint has no encoding: of the fields of a route nothing else can be at fault. -/
theorem derived_of_deriveFrom {service : String} {v : Value} {rules : List RoutingRule}
    (h : deriveFrom service v = .ok (.ok rules)) :
    (∀ r ∈ rules, Derived service r) ∧ (rules.map RoutingRule.name).Nodup
    ∧ ∃ labels, v.dictionary?.map (·.getD []) = .ok labels
    ∧ (rules.map RoutingRule.name).Sublist (routesNamed labels)
    ∧ ∀ name ∈ routesNamed labels,
      (name ∉ rules.map RoutingRule.name
        ↔ (∀ label ∈ labels, readKey label.1 ≠ some (name, .port))
          ∨ (∀ label ∈ labels, readKey label.1 = some (name, .rule) →
            hostIn? label.2.toList = none)
          ∨ (∃ label ∈ lastPort? name labels,
            Url.read? (Draft.address service label.2) = none)
          ∨ ∃ text ∈ (draftOf service name labels).texts name, ¬ Text.isUnicode text)
      ∧ ∀ url ∈ (draftOf service name labels).url, ∀ host ∈ (draftOf service name labels).host,
        ∀ es : Entries, (∀ key, Value.lookup key es
            = Value.lookup key ((draftOf service name labels).fields name)) →
          (∃ r ∈ rules, r.name = name ∧ RoutingRule.ofValue (.map es) = .ok r)
          ∨ ∃ issues, RoutingRule.ofValue (.map es) = .error (.refused ⟨"RoutingRule", issues⟩)
            ∧ issues ≠ [] ∧ ∀ i ∈ issues, i = ⟨["url"], .invalidUrl url⟩
              ∨ ∃ field ∈ ["name", "host", "entrypoint"], i = ⟨[field], .notUnicode⟩ := by
  obtain ⟨labels?, hread, hderive⟩ := map_eq_ok_iff.mp h
  obtain ⟨hbreak, rfl⟩ := derive_eq_ok_iff.mp hderive
  refine ⟨fun r hr => derived_of_mem_rulesOf hr, nodup_names_rulesOf service _, labels?.getD [],
    by rw [hread]; rfl, ?_,
    fun name hname => ⟨notMem_names_rulesOf_iff, fun url hurl host hhost es hes => ?_⟩⟩
  all_goals generalize labels?.getD [] = labels at *
  · rw [← keys_drafts service]
    exact names_rulesOf_sublist service labels
  · have hvalidated := Draft.ofValue_fields hurl hhost (ne_of_mem_routesNamed hname)
      (host_draftOf hhost).1 hes
    have hunicode : Text.isUnicode url := by
      have hdraft : (name, draftOf service name labels) ∈ drafts service labels := by
        rw [drafts_eq]
        exact List.mem_map.mpr ⟨name, hname, rfl⟩
      by_contra hbroken
      have hsome : (break? service labels).isSome = true := isSome_break?_iff.mpr
        ⟨_, hdraft, Option.isSome_iff_exists.mpr ⟨host, hhost⟩, url, hurl, hbroken⟩
      rw [hbreak] at hsome
      exact nomatch hsome
    rw [hvalidated, Draft.toRule, Draft.unreportable?_eq_none_iff.mpr hunicode]
    by_cases hnil : (draftOf service name labels).issues name url host = []
    · refine Or.inl ⟨(draftOf service name labels).asRule name url host,
        mem_rulesOf_iff.mpr ⟨?_, ?_⟩, rfl, by rw [hnil]; rfl⟩
      · exact Draft.makesRule_iff.mpr ⟨url, hurl, host, hhost, Draft.issues_eq_nil_iff.mp hnil⟩
      · exact (Draft.asRule_eq hurl hhost).symm
    · exact Or.inr ⟨_, if_neg (by simpa using hnil), hnil, fun i => Draft.eq_of_mem_issues⟩

/-- Labels that name two routes, of which only the first has a port. -/
def onePort : Value :=
  .map ([("traefik.http.routers.web.rule", "Host(`a.io`)"),
    ("traefik.http.services.web.loadbalancer.server.port", "80"),
    ("traefik.http.routers.lone.rule", "Host(`b.io`)")].map fun e => (.str e.1, .str e.2))

/-- Only the first of the two routes has a rule. -/
theorem derived_onePort : ∃ rules, deriveFrom "app" onePort = .ok (.ok rules)
    ∧ rules.map RoutingRule.name = ["web"] ∧ (∀ r ∈ rules, Derived "app" r)
    ∧ (rules.map RoutingRule.name).Nodup := by
  obtain ⟨rules, hrules, hnames⟩ : ∃ rules, deriveFrom "app" onePort = .ok (.ok rules)
      ∧ rules.map RoutingRule.name = ["web"] :=
    ⟨[⟨"web", some "http://app:80", some "a.io", "web", none, false⟩], by decide +kernel, rfl⟩
  obtain ⟨hderived, hnodup, -⟩ := derived_of_deriveFrom hrules
  exact ⟨rules, hrules, hnames, hderived, hnodup⟩

/-- Labels that say the port and the host of a route, and an entrypoint without an encoding. -/
def tornEntrypoint : Value :=
  .map ([("traefik.http.routers.web.rule", "Host(`a.io`)"),
    ("traefik.http.services.web.loadbalancer.server.port", "80"),
    ("traefik.http.routers.web.entrypoints", Text.ofPoints [.ofCode 0xD800])].map
      fun e => (.str e.1, .str e.2))

/-- This route has no rule, though its port and its host are known and its address is a URL. -/
theorem notMem_deriveFrom_tornEntrypoint : ∃ labels rules,
    tornEntrypoint.dictionary?.map (·.getD []) = .ok labels
    ∧ deriveFrom "app" tornEntrypoint = .ok (.ok rules) ∧ "web" ∈ routesNamed labels
    ∧ "web" ∉ rules.map RoutingRule.name
    ∧ ¬ ((∀ label ∈ labels, readKey label.1 ≠ some ("web", .port))
      ∨ (∀ label ∈ labels, readKey label.1 = some ("web", .rule) → hostIn? label.2.toList = none)
      ∨ ∃ label ∈ lastPort? "web" labels,
        Url.read? (Draft.address "app" label.2) = none) :=
  ⟨_, [], rfl, by decide +kernel⟩

end ComposeNix.Routing
