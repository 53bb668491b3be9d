import ComposeNix.Proofs.Routing.Labels
import ComposeNix.Proofs.Routing.Written
import ComposeNix.Proofs.Text.Split

/-!
# Labels in another order

Labels are read one after the other, and of several that say something about the same subject of a
route, the last one counts (`held?_draftOf`).  So their order decides what is routed if they say
different things, and only then.  `rulesOf_perm_iff` says for which labels the rules are the same in
every order: a route that can have a rule at all has no two labels that say different things about
one subject.

Keys that differ can be about one subject: what stands behind `rule`, `entrypoints` or
`tls.certresolver` in a key is passed over, while a port is looked for under its whole key.  Under
keys that end where they should (`IsWhole`) a subject is mentioned once, and the order is free.
-/

namespace ComposeNix.Routing

/-! ## What labels say about a subject -/

/-- What the value of a label says about a subject.  An empty entrypoint says the default one. -/
def saying? (service : String) (subject : Subject) (value : String) : Option String :=
  match subject with
  | .rule => (hostIn? value.toList).map String.ofList
  | .entrypoint => some ((nonEmpty? (some value)).getD RoutingRule.defaultEntrypoint)
  | .certResolver => some value
  | .port => some (Draft.address service value)
  | .other => none

/-- What the labels say about a subject of a route, in their order. -/
def sayings (service name : String) (subject : Subject) (labels : List (String × String)) :
    List String :=
  labels.filterMap fun label =>
    if readKey label.1 = some (name, subject) then saying? service subject label.2 else none

/-- What is known about a subject. -/
def Draft.held? (subject : Subject) (d : Draft) : Option String :=
  match subject with
  | .rule => d.host
  | .entrypoint =>
    d.entrypoint.map fun value => (nonEmpty? (some value)).getD RoutingRule.defaultEntrypoint
  | .certResolver => d.certResolver
  | .port => d.url
  | .other => none

variable {service name : String} {subject : Subject} {labels other : List (String × String)}

theorem mem_sayings_iff {x : String} : x ∈ sayings service name subject labels
    ↔ ∃ label ∈ labels, readKey label.1 = some (name, subject)
      ∧ saying? service subject label.2 = some x := by
  simp only [sayings, List.mem_filterMap, Option.ite_none_right_eq_some]

theorem sayings_concat (label : String × String) :
    sayings service name subject (labels ++ [label]) = sayings service name subject labels
      ++ (if readKey label.1 = some (name, subject) then saying? service subject label.2
          else none).toList := by
  rw [sayings, List.filterMap_append, ← sayings, List.filterMap_cons]
  cases (if readKey label.1 = some (name, subject) then saying? service subject label.2
    else none) <;> rfl

theorem sayings_perm (h : other.Perm labels) :
    (sayings service name subject other).Perm (sayings service name subject labels) :=
  h.filterMap _

/-- One more label takes the place of what was known about its subject, if it says anything. -/
theorem Draft.held?_note (service : String) (s t : Subject) (value : String) (d : Draft) :
    (d.note service s value).held? t
      = if s = t then (saying? service t value).or (d.held? t) else d.held? t := by
  cases s with
  | rule =>
    rw [Draft.note]
    cases hhost : hostIn? value.toList <;> cases t <;> simp [held?, saying?, hhost]
  | entrypoint | certResolver | port | other => cases t <;> rfl

theorem held?_noteLabel (d : Draft) {label : String × String}
    (h : routeOf? label = some name) (subject : Subject) :
    (noteLabel service d label).held? subject
      = (if readKey label.1 = some (name, subject) then saying? service subject label.2
          else none).or (d.held? subject) := by
  obtain ⟨⟨n, s⟩, hkey, rfl : n = name⟩ := Option.map_eq_some_iff.mp h
  have hsubject : subjectOf label = s := by rw [subjectOf, hkey]; rfl
  rw [noteLabel, Draft.held?_note, hsubject, hkey]
  by_cases hs : s = subject
  · rw [if_pos hs, if_pos (by rw [hs])]
  · rw [if_neg hs, if_neg fun heq => hs (Prod.mk.inj (Option.some.inj heq)).2, Option.none_or]

/-- Of all that labels say about a subject of a route, the last counts. -/
theorem held?_draftOf (service name : String) (subject : Subject)
    (labels : List (String × String)) :
    (draftOf service name labels).held? subject
      = (sayings service name subject labels).getLast? := by
  induction labels using List.reverseRecOn with
  | nil => cases subject <;> rfl
  | append_singleton labels label ih =>
    rw [draftOf_concat, sayings_concat, List.getLast?_append, ← ih]
    by_cases hroute : routeOf? label = some name
    · rw [if_pos hroute, held?_noteLabel _ hroute]
      cases (if readKey label.1 = some (name, subject) then saying? service subject label.2
        else none) <;> rfl
    · have hkey : readKey label.1 ≠ some (name, subject) := by
        intro hkey
        exact hroute (routeOf?_of_readKey hkey)
      rw [if_neg hroute, if_neg hkey]
      rfl

/-! ## The rule of a route -/

/-- The rule that is made from what is known, if a rule is made. -/
def Draft.rule (name : String) (d : Draft) : RoutingRule where
  name := name
  url := d.held? .port
  host := d.held? .rule
  entrypoint := (d.held? .entrypoint).getD RoutingRule.defaultEntrypoint
  certResolver := d.held? .certResolver
  enableTls := (d.held? .certResolver).isSome

/-- The entrypoint of the rule that is made from what is known. -/
theorem Draft.getD_held?_entrypoint (d : Draft) :
    (d.held? .entrypoint).getD RoutingRule.defaultEntrypoint = d.entrypointText := by
  rw [held?, entrypointText]
  cases d.entrypoint <;> rfl

/-- Whether a rule is made: a host and an address are known, the address is a URL, and the texts
have an encoding. -/
def Draft.MakesRule (name : String) (d : Draft) : Prop :=
  ∃ url ∈ d.held? .port, (Url.read? url).isSome = true
    ∧ ∃ host ∈ d.held? .rule, Text.isUnicode name ∧ Text.isUnicode host
      ∧ Text.isUnicode ((d.held? .entrypoint).getD RoutingRule.defaultEntrypoint)

theorem Draft.makesRule_iff {d : Draft} :
    d.MakesRule name ↔ ∃ url ∈ d.url, ∃ host ∈ d.host, d.Admitted name url host := by
  rw [MakesRule, getD_held?_entrypoint]
  constructor
  · rintro ⟨url, hurl, hread, host, hhost, hname, hunicode, hentrypoint⟩
    exact ⟨url, hurl, host, hhost, hread, hname, hunicode, hentrypoint⟩
  · rintro ⟨url, hurl, host, hhost, h⟩
    exact ⟨url, hurl, h.isUrl, host, hhost, h.name, h.host, h.entrypoint⟩

/-- A rule that is made of a draft has what is known. -/
theorem Draft.asRule_eq {d : Draft} {url host : String} (hurl : d.url = some url)
    (hhost : d.host = some host) : d.asRule name url host = d.rule name := by
  rw [asRule, rule, getD_held?_entrypoint, held?, held?, held?, hurl, hhost]

theorem settle_eq_ok_iff {d : Draft} {r : RoutingRule} :
    settle service (name, d) = .ok r ↔ d.MakesRule name ∧ d.rule name = r := by
  rw [settle_eq_ok_iff_admitted, Draft.makesRule_iff]
  constructor
  · rintro ⟨url, hurl, host, hhost, hadmitted, hrule⟩
    exact ⟨⟨url, hurl, host, hhost, hadmitted⟩, Draft.asRule_eq hurl hhost ▸ hrule⟩
  · rintro ⟨⟨url, hurl, host, hhost, hadmitted⟩, hrule⟩
    exact ⟨url, hurl, host, hhost, hadmitted, Draft.asRule_eq hurl hhost ▸ hrule⟩

/-- A rule has the values that are known. -/
theorem Draft.rule_inj {d e : Draft} (h : d.rule name = e.rule name) {x y : String}
    (hd : d.held? subject = some x) (he : e.held? subject = some y) : x = y := by
  obtain ⟨-, hurl, hhost, hentrypoint, hresolver, -⟩ := RoutingRule.mk.inj h
  cases subject with
  | rule => rw [hd, he] at hhost; exact Option.some.inj hhost
  | entrypoint => rw [hd, he] at hentrypoint; exact hentrypoint
  | certResolver => rw [hd, he] at hresolver; exact Option.some.inj hresolver
  | port => rw [hd, he] at hurl; exact Option.some.inj hurl
  | other => exact nomatch hd

/-- A service has a rule exactly if the draft of the route makes it. -/
theorem mem_rulesOf_iff {r : RoutingRule} : r ∈ rulesOf service labels
    ↔ (draftOf service r.name labels).MakesRule r.name
      ∧ (draftOf service r.name labels).rule r.name = r := by
  rw [← settle_eq_ok_iff]
  constructor
  · intro hr
    obtain ⟨e, he, hsettle⟩ := exists_draft_of_mem_rulesOf hr
    rw [drafts_eq] at he
    obtain ⟨n, -, rfl⟩ := List.mem_map.mp he
    have hname : r.name = n := (settle_eq_ok hsettle).1
    rwa [hname]
  · intro hsettle
    -- a route that no label names has no draft, so there has to be a label with its host
    have hnamed : r.name ∈ routesNamed labels := by
      obtain ⟨-, -, -, host, hhost, -⟩ := (settle_eq_ok_iff.mp hsettle).1
      rw [held?_draftOf] at hhost
      obtain ⟨label, hlabel, hkey, -⟩ := mem_sayings_iff.mp (List.mem_of_getLast? hhost)
      have hroute := routeOf?_of_readKey hkey
      exact Manifest.mem_distinct.mpr (List.mem_filterMap.mpr ⟨label, hlabel, hroute⟩)
    have hdraft : (r.name, draftOf service r.name labels) ∈ drafts service labels := by
      rw [drafts_eq]
      exact List.mem_map.mpr ⟨r.name, hnamed, rfl⟩
    exact List.mem_filterMap.mpr ⟨.ok r, List.mem_map.mpr ⟨_, hdraft, hsettle⟩, rfl⟩

/-! ## Labels in any order -/

/-- Whether a route can have a rule: some label says an address that is a URL, some label says a
host, and these texts and the entrypoint, if one is said, can be such as have an encoding. -/
def Routable (service name : String) (labels : List (String × String)) : Prop :=
  (∃ url ∈ sayings service name .port labels, (Url.read? url).isSome = true)
    ∧ (∃ host ∈ sayings service name .rule labels, Text.isUnicode host)
    ∧ (sayings service name .entrypoint labels = []
      ∨ ∃ entrypoint ∈ sayings service name .entrypoint labels, Text.isUnicode entrypoint)
    ∧ Text.isUnicode name

/-- Whether the labels about a route say one thing about each subject. -/
def Undisputed (service name : String) (labels : List (String × String)) : Prop :=
  ∀ subject, ∀ x ∈ sayings service name subject labels,
    ∀ y ∈ sayings service name subject labels, x = y

theorem Routable.of_makesRule (h : (draftOf service name labels).MakesRule name) :
    Routable service name labels := by
  obtain ⟨url, hurl, hread, host, hhost, hname, hunicode, hentrypoint⟩ := h
  rw [held?_draftOf] at hurl hhost hentrypoint
  refine ⟨⟨url, List.mem_of_getLast? hurl, hread⟩, ⟨host, List.mem_of_getLast? hhost, hunicode⟩,
    ?_, hname⟩
  cases hlast : (sayings service name .entrypoint labels).getLast? with
  | none => exact Or.inl (List.getLast?_eq_none_iff.mp hlast)
  | some entrypoint =>
    rw [hlast] at hentrypoint
    exact Or.inr ⟨entrypoint, List.mem_of_getLast? hlast, hentrypoint⟩

theorem Routable.of_perm (h : other.Perm labels) (hother : Routable service name other) :
    Routable service name labels := by
  obtain ⟨⟨url, hurl, hread⟩, ⟨host, hhost, hunicode⟩, hentrypoint, hname⟩ := hother
  refine ⟨⟨url, (sayings_perm h).subset hurl, hread⟩,
    ⟨host, (sayings_perm h).subset hhost, hunicode⟩, ?_, hname⟩
  rcases hentrypoint with hnil | ⟨entrypoint, hmem, hunicode⟩
  · exact Or.inl ((sayings_perm h).symm.trans (List.Perm.of_eq hnil)).eq_nil
  · exact Or.inr ⟨entrypoint, (sayings_perm h).subset hmem, hunicode⟩

theorem Undisputed.of_perm (h : other.Perm labels) (hother : Undisputed service name other) :
    Undisputed service name labels := fun s x hx y hy =>
  hother s x ((sayings_perm h).symm.subset hx) y ((sayings_perm h).symm.subset hy)

/-- What labels without dispute say does not depend on their order. -/
theorem Undisputed.held?_eq (hlabels : Undisputed service name labels) (h : other.Perm labels)
    (subject : Subject) : (draftOf service name other).held? subject
      = (draftOf service name labels).held? subject := by
  have hperm : (sayings service name subject other).Perm (sayings service name subject labels) :=
    sayings_perm h
  rw [held?_draftOf, held?_draftOf]
  cases hother : (sayings service name subject other).getLast? with
  | none =>
    have hnil := List.getLast?_eq_none_iff.mp hother
    rw [hnil] at hperm
    rw [hperm.symm.eq_nil, List.getLast?_nil]
  | some x =>
    have hx : x ∈ sayings service name subject labels :=
      hperm.subset (List.mem_of_getLast? hother)
    have hsome := List.getLast?_isSome.mpr (List.ne_nil_of_mem hx)
    obtain ⟨y, hy⟩ := Option.isSome_iff_exists.mp hsome
    rw [hy, hlabels subject x hx y (List.mem_of_getLast? hy)]

/-- A rule of labels in one order is a rule of them in any other, if its route is undisputed. -/
theorem mem_rulesOf_of_perm {r : RoutingRule} (h : other.Perm labels)
    (hlabels : Undisputed service r.name labels) (hr : r ∈ rulesOf service other) :
    r ∈ rulesOf service labels := by
  have hheld := hlabels.held?_eq h
  rw [mem_rulesOf_iff] at hr ⊢
  simpa only [Draft.MakesRule, Draft.rule, hheld] using hr

/-- Any label may be the last, and then it counts; nothing else is said in another order. -/
theorem exists_perm_held? {x : String} (hx : x ∈ sayings service name subject labels) :
    ∃ other : List (String × String), other.Perm labels
      ∧ (draftOf service name other).held? subject = some x
      ∧ ∀ s ≠ subject, sayings service name s other = sayings service name s labels := by
  obtain ⟨label, hlabel, hkey, hsays⟩ := mem_sayings_iff.mp hx
  obtain ⟨front, rest, rfl⟩ := List.append_of_mem hlabel
  refine ⟨front ++ rest ++ [label], ?_, ?_, fun s hs => ?_⟩
  · rw [List.append_assoc]
    exact List.perm_append_comm.append_left front
  · rw [held?_draftOf, sayings_concat, if_pos hkey, hsays, Option.toList_some,
      List.getLast?_concat]
  · have hother : readKey label.1 ≠ some (name, s) := fun heq =>
      hs (Prod.mk.inj (Option.some.inj (heq.symm.trans hkey))).2
    rw [sayings_concat, if_neg hother, Option.toList_none, List.append_nil]
    simp only [sayings, List.filterMap_append, List.filterMap_cons, if_neg hother]

/-- The labels of a route that can have a rule can be put in an order in which it has one. -/
theorem Routable.exists_perm_makesRule (h : Routable service name labels) :
    ∃ other : List (String × String), other.Perm labels
      ∧ (draftOf service name other).MakesRule name := by
  obtain ⟨⟨url, hurl, hread⟩, ⟨host, hhost, hunicode⟩, hentrypoint, hname⟩ := h
  -- the last entrypoint first, then the last host and the last address, each behind the others
  obtain ⟨first, hfirst, hsaid, hkept⟩ : ∃ first : List (String × String), first.Perm labels
      ∧ Text.isUnicode (((sayings service name .entrypoint first).getLast?).getD
        RoutingRule.defaultEntrypoint)
      ∧ ∀ s ≠ .entrypoint, sayings service name s first = sayings service name s labels := by
    rcases hentrypoint with hnil | ⟨entrypoint, hmem, hencoded⟩
    · refine ⟨labels, .refl _, ?_, fun _ _ => rfl⟩
      rw [hnil]
      decide
    · obtain ⟨first, hfirst, hheld, hkept⟩ := exists_perm_held? hmem
      rw [held?_draftOf] at hheld
      exact ⟨first, hfirst, by rwa [hheld], hkept⟩
  rw [← hkept .rule (by decide)] at hhost
  obtain ⟨second, hsecond, hheld, hkept'⟩ := exists_perm_held? hhost
  rw [← hkept .port (by decide), ← hkept' .port (by decide)] at hurl
  obtain ⟨third, hthird, hheld', hkept''⟩ := exists_perm_held? hurl
  refine ⟨third, (hthird.trans hsecond).trans hfirst, url, hheld', hread, host, ?_, hname, hunicode,
    ?_⟩
  · rw [held?_draftOf, hkept'' .rule (by decide), ← held?_draftOf]
    exact hheld
  · rwa [held?_draftOf, hkept'' .entrypoint (by decide), hkept' .entrypoint (by decide)]

/-- If the rules are the same in every order, no route that can have a rule is disputed. -/
theorem undisputed_of_rulesOf_perm (h : ∀ other : List (String × String), other.Perm labels →
    (rulesOf service other).Perm (rulesOf service labels)) (hname : Routable service name labels) :
    Undisputed service name labels := by
  -- an order in which the route has a rule shows the rule that there is in every order
  obtain ⟨r, hr, rfl⟩ : ∃ r ∈ rulesOf service labels, r.name = name := by
    obtain ⟨other, hperm, hmakes⟩ := hname.exists_perm_makesRule
    have hmem : (draftOf service name other).rule name ∈ rulesOf service other :=
      mem_rulesOf_iff.mpr ⟨hmakes, rfl⟩
    exact ⟨_, (h other hperm).subset hmem, rfl⟩
  have hrule : ∀ other : List (String × String), other.Perm labels →
      (draftOf service r.name other).rule r.name = r := fun other hperm =>
    (mem_rulesOf_iff.mp ((h other hperm).symm.subset hr)).2
  intro subject x hx y hy
  obtain ⟨a, ha, hax, -⟩ := exists_perm_held? hx
  obtain ⟨b, hb, hby, -⟩ := exists_perm_held? hy
  exact Draft.rule_inj ((hrule a ha).trans (hrule b hb).symm) hax hby

/-! ## Keys that end where they should -/

/-- The key under which a label says something about a subject of a route. -/
def Subject.key? (name : String) : Subject → Option String
  | .rule => some (labelKey "routers" name "rule")
  | .entrypoint => some (labelKey "routers" name "entrypoints")
  | .certResolver => some (labelKey "routers" name "tls.certresolver")
  | .port => some (labelKey "services" name "loadbalancer.server.port")
  | .other => none

/-- Whether a key is the one for what it is read as. -/
def IsWhole (key : String) : Prop :=
  ∀ name subject, readKey key = some (name, subject) → ∀ whole ∈ subject.key? name, key = whole

/-- The key for a subject is read as just that, if the route's name has no dot in it. -/
theorem isWhole_of_key? (hne : name ≠ "") (hname : '.' ∉ name.toList) {key : String}
    (hkey : subject.key? name = some key) : IsWhole key := by
  have hread : readKey key = some (name, subject) := by
    cases subject with
    | rule | entrypoint | certResolver =>
      rw [← Option.some.inj hkey, readKey_router hne hname]
      rfl
    | port =>
      rw [← Option.some.inj hkey, readKey_service hne hname]
      rfl
    | other => exact nomatch hkey
  intro n s hread' whole hwhole
  rw [hread] at hread'
  obtain ⟨rfl, rfl⟩ := Prod.mk.inj (Option.some.inj hread')
  exact Option.some.inj (hkey.symm.trans hwhole)

/-- Under different keys that end where they should nothing is said twice. -/
theorem undisputed_of_isWhole (hkeys : (labels.map Prod.fst).Nodup)
    (hwhole : ∀ label ∈ labels, IsWhole label.1) : Undisputed service name labels := by
  intro subject x hx y hy
  obtain ⟨a, ha, hreada, hsaysa⟩ := mem_sayings_iff.mp hx
  obtain ⟨b, hb, hreadb, hsaysb⟩ := mem_sayings_iff.mp hy
  obtain ⟨whole, hkey⟩ : ∃ whole, subject.key? name = some whole := by
    cases subject with
    | other => simp [saying?] at hsaysa
    | rule | entrypoint | certResolver | port => exact ⟨_, rfl⟩
  have hsame : a = b := by
    refine List.inj_on_of_nodup_map hkeys ha hb ?_
    rw [hwhole a ha name subject hreada whole hkey, hwhole b hb name subject hreadb whole hkey]
  rw [hsame, hsaysb] at hsaysa
  exact (Option.some.inj hsaysa).symm

/-! ## Where the reading breaks off -/

/-- The reading breaks off if some label says a host of a route and the last that says its address
says one without an encoding. -/
theorem isSome_break?_iff_sayings : (break? service labels).isSome = true
    ↔ ∃ name, sayings service name .rule labels ≠ []
      ∧ ∃ url ∈ (sayings service name .port labels).getLast?, ¬ Text.isUnicode url := by
  rw [isSome_break?_iff, drafts_eq]
  simp only [List.mem_map, exists_exists_and_eq_and, Draft.Breaks]
  have hbreaks (name : String) : ((draftOf service name labels).host.isSome = true
      ∧ ∃ url ∈ (draftOf service name labels).url, ¬ Text.isUnicode url)
      ↔ sayings service name .rule labels ≠ []
        ∧ ∃ url ∈ (sayings service name .port labels).getLast?, ¬ Text.isUnicode url := by
    rw [← held?_draftOf, ← List.getLast?_isSome, ← held?_draftOf]
    rfl
  simp only [hbreaks]
  constructor
  · rintro ⟨name, -, h⟩
    exact ⟨name, h⟩
  · rintro ⟨name, hhost, h⟩
    obtain ⟨host, hhost'⟩ := List.exists_mem_of_ne_nil _ hhost
    obtain ⟨label, hlabel, hkey, -⟩ := mem_sayings_iff.mp hhost'
    exact ⟨name, Manifest.mem_distinct.mpr (List.mem_filterMap.mpr
      ⟨label, hlabel, routeOf?_of_readKey hkey⟩), hhost, h⟩

/-- There is one key for the port of a route. -/
theorem key_eq_of_readKey_port {a b : String} (ha : readKey a = some (name, .port))
    (hb : readKey b = some (name, .port)) : a = b := by
  have hparts : ∀ {key : String}, readKey key = some (name, .port) → Text.splitAt '.' key
      = ["traefik", "http", "services", name, "loadbalancer", "server", "port"] := by
    intro key h
    rw [readKey] at h
    split at h
    · rename_i side n rest hsplit
      split_ifs at h with hempty hrouters hservices
      · obtain ⟨-, hsubject⟩ := Prod.mk.inj (Option.some.inj h)
        unfold routerSubject at hsubject
        split at hsubject <;> cases hsubject
      · obtain ⟨rfl, hsubject⟩ := Prod.mk.inj (Option.some.inj h)
        rw [serviceSubject] at hsubject
        split at hsubject
        · rename_i hrest
          rw [hsplit, hservices, hrest]
        · cases hsubject
    · cases h
  exact Text.splitAt_injective '.' ((hparts ha).trans (hparts hb).symm)

/-- Under different keys the address of a route is said once at most. -/
theorem sayings_port_of_perm (hkeys : (labels.map Prod.fst).Nodup) (h : other.Perm labels) :
    sayings service name .port other = sayings service name .port labels := by
  have hperm : (sayings service name .port other).Perm (sayings service name .port labels) :=
    sayings_perm h
  cases hsaid : sayings service name .port labels with
  | nil => exact (hsaid ▸ hperm).eq_nil
  | cons x said =>
    obtain ⟨front, a, rest, rfl, -, ha, hrest⟩ := List.filterMap_eq_cons_iff.mp hsaid
    obtain ⟨hkey, -⟩ := Option.ite_none_right_eq_some.mp ha
    have hlast : said = [] := by
      refine List.eq_nil_iff_forall_not_mem.mpr fun y hy => ?_
      rw [← hrest] at hy
      obtain ⟨b, hb, hkey', -⟩ := mem_sayings_iff.mp hy
      rw [List.map_append, List.map_cons, List.nodup_append] at hkeys
      exact (List.nodup_cons.mp hkeys.2.1).1
        (key_eq_of_readKey_port hkey hkey' ▸ List.mem_map_of_mem hb)
    rw [hsaid, hlast] at hperm
    rw [List.perm_singleton.mp hperm, hlast]

/-- Under different keys, whether the reading breaks off does not depend on the order. -/
theorem isSome_break?_of_perm (hkeys : (labels.map Prod.fst).Nodup) (h : other.Perm labels) :
    (break? service other).isSome = (break? service labels).isSome := by
  rw [Bool.eq_iff_iff, isSome_break?_iff_sayings, isSome_break?_iff_sayings]
  refine exists_congr fun name => ?_
  have hhosts : sayings service name .rule other = [] ↔ sayings service name .rule labels = [] :=
    ⟨fun hnil => ((sayings_perm h).symm.trans (.of_eq hnil)).eq_nil,
      fun hnil => ((sayings_perm h).trans (.of_eq hnil)).eq_nil⟩
  rw [sayings_port_of_perm hkeys h, ne_eq, hhosts]

/-! ## Which labels may be put in another order -/

/-- The rules are the same in every order of the labels exactly if no route that can have a rule has
labels that say different things about one subject.  So it is for labels under different keys if
each key that is about a subject is the one for it.  Whether the reading of labels under different
keys breaks off does not depend on their order. -/
theorem rulesOf_perm_iff (service : String) (labels : List (String × String)) :
    ((∀ other : List (String × String), other.Perm labels →
        (rulesOf service other).Perm (rulesOf service labels))
      ↔ ∀ name, Routable service name labels → Undisputed service name labels)
    ∧ ((labels.map Prod.fst).Nodup → (∀ label ∈ labels, IsWhole label.1) →
        ∀ other : List (String × String), other.Perm labels →
          (rulesOf service other).Perm (rulesOf service labels))
    ∧ ((labels.map Prod.fst).Nodup → ∀ other : List (String × String), other.Perm labels →
        (break? service other).isSome = (break? service labels).isSome) := by
  have hback : (∀ name, Routable service name labels → Undisputed service name labels) →
      ∀ other : List (String × String), other.Perm labels →
        (rulesOf service other).Perm (rulesOf service labels) := by
    intro hundisputed other hperm
    refine (List.perm_ext_iff_of_nodup (nodup_names_rulesOf service other).of_map
      (nodup_names_rulesOf service labels).of_map).mpr fun r => ⟨fun hr => ?_, fun hr => ?_⟩
    · have hroutable := (Routable.of_makesRule (mem_rulesOf_iff.mp hr).1).of_perm hperm
      exact mem_rulesOf_of_perm hperm (hundisputed r.name hroutable) hr
    · have hroutable := Routable.of_makesRule (mem_rulesOf_iff.mp hr).1
      exact mem_rulesOf_of_perm hperm.symm ((hundisputed r.name hroutable).of_perm hperm.symm) hr
  exact ⟨⟨fun h name hname => undisputed_of_rulesOf_perm h hname, hback⟩,
    fun hkeys hwhole => hback fun name _ => undisputed_of_isWhole hkeys hwhole,
    fun hkeys _ => isSome_break?_of_perm hkeys⟩

/-- Two labels that say different hosts of one route, under different keys. -/
def twoHosts : Dictionary String :=
  [("traefik.http.routers.app.rule", "Host(`a.io`)"),
    ("traefik.http.routers.app.rule.extra", "Host(`b.io`)"),
    ("traefik.http.services.app.loadbalancer.server.port", "80")]

/-- Their order decides which host is routed. -/
theorem not_rulesOf_perm_twoHosts :
    (Dictionary.keys twoHosts).Nodup ∧ twoHosts.reverse.Perm twoHosts
      ∧ (rulesOf "web" twoHosts).map RoutingRule.host = [some "b.io"]
      ∧ (rulesOf "web" twoHosts.reverse).map RoutingRule.host = [some "a.io"]
      ∧ ¬ (rulesOf "web" twoHosts.reverse).Perm (rulesOf "web" twoHosts) := by
  decide +kernel

end ComposeNix.Routing
