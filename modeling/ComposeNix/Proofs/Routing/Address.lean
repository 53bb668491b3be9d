import ComposeNix.Proofs.Routing.Order
import ComposeNix.Proofs.Url

/-!
# Where the address of a derived rule leads

The address of a rule in the labels of a service is the text `http://SERVICE:PORT`, with the text of
the port as it stands in the label.  It is looked at as a URL, and any URL will do.

`leadsTo_iff` says where it leads: to the service, unless the port has an at sign before its first
slash, question mark or number sign.  Then the service is the name of a user, and the host is one
that the port says (`not_leadsTo_userPort`).
-/

namespace ComposeNix.Routing

/-- Whether a URL leads to a service: this is its host, in letters of any case, and it names no
user. -/
def LeadsTo (service : String) (u : Url) : Prop :=
  u.host = some (.domain (Url.lowerName service.toList)) ∧ u.userinfo = []

instance (service : String) (u : Url) : Decidable (LeadsTo service u) :=
  inferInstanceAs (Decidable (_ ∧ _))

variable {service : String}

theorem readChars?_address (hservice : Url.IsHostName service.toList) (port : String) :
    Url.readChars? (Draft.address service port).toList
      = Url.authority? .web "http".toList (service.toList ++ ':' :: Url.stripEnd port.toList) := by
  have hlist : (Draft.address service port).toList
      = "http://".toList ++ service.toList ++ ':' :: port.toList := by
    rw [Draft.address]
    simp only [String.toList_append, List.append_assoc]
    rfl
  rw [hlist, Url.readChars?_http hservice]

/-- The address of a rule comes from a label with a port. -/
theorem exists_port_of_mem_rulesOf {labels : Dictionary String} {r : RoutingRule}
    (hr : r ∈ rulesOf service labels) : ∃ label ∈ labels, readKey label.1 = some (r.name, .port)
      ∧ r.url = some (Draft.address service label.2)
      ∧ (Url.read? (Draft.address service label.2)).isSome = true := by
  obtain ⟨⟨url, hurl, hread, -⟩, hrule⟩ := mem_rulesOf_iff.mp hr
  have hknown := hurl
  rw [held?_draftOf] at hurl
  obtain ⟨label, hlabel, hkey, hsays⟩ := mem_sayings_iff.mp (List.mem_of_getLast? hurl)
  obtain rfl := Option.some.inj hsays
  refine ⟨label, hlabel, hkey, ?_, hread⟩
  rw [← hrule]
  exact hknown

/-- Where the addresses of the rules in the labels of a service lead, if its name is a letter and
then letters, digits, hyphens and underscores.  Every rule has an address, made of the port in one
of the labels about it, and every address is a URL.  It leads to the service exactly if there is no
at sign in the part of the port that belongs to the host; if there is one, the service is the name
of the user. -/
theorem leadsTo_iff (hservice : Url.IsHostName service.toList) (labels : Dictionary String) :
    ∀ r ∈ rulesOf service labels, ∃ label ∈ labels, readKey label.1 = some (r.name, .port)
      ∧ r.url = some (Draft.address service label.2)
      ∧ ∃ u, Url.read? (Draft.address service label.2) = some u
        ∧ (LeadsTo service u ↔ '@' ∉ Url.authorityPart label.2.toList)
        ∧ ('@' ∈ Url.authorityPart label.2.toList → service.toList ++ [':'] <+: u.userinfo) := by
  intro r hr
  obtain ⟨label, hlabel, hkey, hurl, hread⟩ := exists_port_of_mem_rulesOf hr
  obtain ⟨u, hu⟩ := Option.isSome_iff_exists.mp hread
  refine ⟨label, hlabel, hkey, hurl, u, hu, ?_⟩
  obtain ⟨-, hu⟩ := Url.read?_eq_some_iff.mp hu
  rw [readChars?_address hservice] at hu
  rw [← Url.at_mem_authorityPart_stripEnd]
  have hmem : '@' ∈ Url.authorityPart (Url.stripEnd label.2.toList) →
      service.toList ++ [':'] <+: u.userinfo := fun hat => Url.authority?_of_mem hservice hat hu
  refine ⟨⟨fun hleads hat => ?_, fun hat => Url.authority?_of_notMem hservice hat hu⟩, hmem⟩
  have hprefix := hmem hat
  rw [hleads.2, List.prefix_nil] at hprefix
  exact List.append_ne_nil_of_right_ne_nil _ (List.cons_ne_nil _ _) hprefix

/-- Labels of two routes, one with the port of a service and one with a port that says a host. -/
def userPort : Dictionary String :=
  [("traefik.http.routers.app.rule", "Host(`a.io`)"),
    ("traefik.http.services.app.loadbalancer.server.port", "80"),
    ("traefik.http.routers.out.rule", "Host(`b.io`)"),
    ("traefik.http.services.out.loadbalancer.server.port", "80@b.io")]

/-- The service is called in letters of both cases, and its first route has a rule. -/
theorem leadsTo_userPort : Url.IsHostName "Web".toList
    ∧ ∃ r ∈ rulesOf "Web" userPort, r.name = "app"
      ∧ ∃ label ∈ userPort, readKey label.1 = some (r.name, .port)
        ∧ r.url = some (Draft.address "Web" label.2)
        ∧ ∃ u, Url.read? (Draft.address "Web" label.2) = some u
          ∧ (LeadsTo "Web" u ↔ '@' ∉ Url.authorityPart label.2.toList)
          ∧ ('@' ∈ Url.authorityPart label.2.toList → "Web".toList ++ [':'] <+: u.userinfo) := by
  have hservice : Url.IsHostName "Web".toList := by decide
  obtain ⟨r, hr, hname⟩ : ∃ r ∈ rulesOf "Web" userPort, r.name = "app" := by decide +kernel
  exact ⟨hservice, r, hr, hname, leadsTo_iff hservice userPort r hr⟩

/-- The address of the second route leads elsewhere. -/
theorem not_leadsTo_userPort : Url.IsHostName "Web".toList
    ∧ ∃ r ∈ rulesOf "Web" userPort, ∃ url u, r.url = some url ∧ Url.read? url = some u
      ∧ u.host = some (.domain "b.io".toList) ∧ u.userinfo = "Web:80".toList
      ∧ ¬ LeadsTo "Web" u := by
  refine ⟨by decide, ⟨"out", some "http://Web:80@b.io", some "b.io", "web", none, false⟩, ?_,
    "http://Web:80@b.io", ⟨"http".toList, "Web:80".toList, some (.domain "b.io".toList), none⟩,
    rfl, ?_, rfl, rfl, by decide⟩
  · decide +kernel
  · decide +kernel

end ComposeNix.Routing
