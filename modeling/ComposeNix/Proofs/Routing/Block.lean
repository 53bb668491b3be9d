import ComposeNix.Proofs.Module.Listing
import ComposeNix.Proofs.Routing.Derived

/-!
# Which requests a router takes

The block of the rules stands on its own, and its routers are read from it (`readRouters_block`):
one for every rule with a host, in order, with the matcher of that host.

A matcher has a syntax of its own inside the string that holds it.  `routers_block` says of every
rule that can be given or derived whether its router matches the host of the rule and nothing else:
it does, unless there is a backquote in the host.  The host of a derived rule never has one; that of
a rule that is given may have one, and then the matcher says something else
(`not_takes_quotedRule`).
-/

namespace ComposeNix.Routing

variable {r : RoutingRule} {rules : List RoutingRule}

/-! ## Routers of a block -/

/-- The router that a rule contributes to a block that stands on its own. -/
def blockRouter? (r : RoutingRule) : Option Router :=
  if r.name.isEmpty then none else r.routed?.map (routerAs id (blockText r.name) r)

theorem blockRouter?_eq_none (h : routerOf? r = none) : blockRouter? r = none := by
  rw [routerOf?] at h
  rw [blockRouter?]
  split
  · rfl
  · rename_i hname
    rw [if_neg hname, Option.map_eq_none_iff] at h
    rw [h, Option.map_none]

/-- The block of the rules is read as its bindings. -/
theorem readBlock_block (rules : List RoutingRule) :
    Nix.readBlock (block rules) = some ((configuration rules).map Nix.bindingTree) := by
  rw [← renderBlock_configuration, Nix.readBlock_renderBlock, Nix.bindingsTrees_eq_map]
  exact Nix.bindingsWellFormed_iff.mpr fun b hb => (isPlain_of_mem_configuration hb).wellFormed

/-- What is read from the block of the rules, half by half. -/
theorem readRouters_block (rules : List RoutingRule) :
    (Nix.readBlock (block rules)).bind readRouters = some (rules.filterMap blockRouter?) := by
  rw [readBlock_block, Option.bind_some, readRouters,
    Half.under_home_configuration Nix.telling_bindingTree,
    Half.under_halves Half.routers Nix.telling_bindingTree]
  exact mapM_told (readRouter?_told Nix.telling_bindingTree (string?_key_named _))
    blockRouter?_eq_none rules

/-! ## Rules that can be given or derived -/

/-- A rule that was read out of a mapping, or that the labels of some service derive. -/
inductive Admitted (r : RoutingRule) : Prop
  | given (v : Value) (h : RoutingRule.ofValue v = .ok r)
  | derived (service : String) (labels : Dictionary String) (h : r ∈ rulesOf service labels)

theorem Admitted.name_ne (h : Admitted r) : r.name ≠ "" := by
  cases h with
  | given v h => exact (RoutingRule.sound_of_ofValue h).name.1
  | derived service labels h => exact (derived_of_mem_rulesOf h).name

theorem Admitted.host_ne (h : Admitted r) {host : String} (hhost : r.host = some host) :
    host ≠ "" := by
  cases h with
  | given v h => exact ((RoutingRule.sound_of_ofValue h).host host hhost).1
  | derived service labels h =>
    obtain ⟨host', hhost', hne, -⟩ := (derived_of_mem_rulesOf h).host
    obtain rfl := Option.some.inj (hhost.symm.trans hhost')
    exact hne

theorem filter_isEmpty_eq_self {s? : Option String} (h : s? ≠ some "") :
    s?.filter (!·.isEmpty) = s? := by
  cases s? with
  | none => rfl
  | some s =>
    have hs : s ≠ "" := fun hs => h (congrArg some hs)
    simp [Option.filter, hs]

/-- The router of an admitted rule with a host. -/
theorem Admitted.blockRouter?_eq (h : Admitted r) : blockRouter? r
    = r.host.map (routerAs id (blockText r.name) r) := by
  have hname : ¬ r.name.isEmpty = true := fun hempty => h.name_ne (String.isEmpty_iff.mp hempty)
  have hhost : r.routed? = r.host :=
    filter_isEmpty_eq_self fun hempty => h.host_ne hempty rfl
  rw [blockRouter?, if_neg hname, hhost]

/-! ## Matchers of routers -/

/-- What is asked of a router, if it is that of a rule with a host: it takes the requests to the
host and no others. -/
def Takes (router : Router) (host : String) : Prop :=
  wholeMatch? router.rule.toList = some host.toList

instance (router : Router) (host : String) : Decidable (Takes router host) :=
  inferInstanceAs (Decidable (_ = _))

/-- A router whose matcher was made of a host takes the requests to it exactly if there is no
backquote in the host.  If there is one, the matcher is not that of any host. -/
theorem takes_of_hostMatcher {router : Router} {host : String}
    (hrule : router.rule = hostMatcher host) (hne : host ≠ "") :
    (Takes router host ↔ '\x60' ∉ host.toList)
      ∧ ('\x60' ∈ host.toList → ∀ other, ¬ Takes router other) := by
  have hlist : host.toList ≠ [] := fun hnil => hne (String.toList_eq_nil_iff.mp hnil)
  have hread : wholeMatch? router.rule.toList
      = if '\x60' ∈ host.toList then none else some host.toList := by
    rw [hrule, hostMatcher, toList_matcher, wholeMatch?_matcherText hlist]
  constructor
  · rw [Takes, hread]
    split <;> simp_all
  · intro hquote other
    rw [Takes, hread, if_pos hquote]
    exact fun h => nomatch h

/-- The routers that are read from the block of rules that were given or derived: one for every rule
with a host, in the order of the rules.  Each has the matcher of its host, and takes the requests to
it exactly if there is no backquote in it.  So it is for every rule that labels derive; if the host
of a rule that was given has a backquote, its router is that of no host. -/
theorem routers_block (h : ∀ r ∈ rules, Admitted r) :
    ∃ routers, (Nix.readBlock (block rules)).bind readRouters = some routers
      ∧ List.Forall₂ (fun r router => ∃ host, r.host = some host
          ∧ router.rule = hostMatcher host
          ∧ (Takes router host ↔ '\x60' ∉ host.toList)
          ∧ (∀ service labels, r ∈ rulesOf service labels → Takes router host)
          ∧ ('\x60' ∈ host.toList → ∀ other, ¬ Takes router other))
        (rules.filter fun r => r.host.isSome) routers := by
  refine ⟨_, readRouters_block rules, ?_⟩
  induction rules with
  | nil => exact .nil
  | cons r rules ih =>
    obtain ⟨hr, hrules⟩ := List.forall_mem_cons.mp h
    cases hhost : r.host with
    | none =>
      have hrouter : blockRouter? r = none := by rw [hr.blockRouter?_eq, hhost, Option.map_none]
      rw [List.filter_cons_of_neg (by simp [hhost]), List.filterMap_cons_none hrouter]
      exact ih hrules
    | some host =>
      have hrouter : blockRouter? r = some (routerAs id (blockText r.name) r host) := by
        rw [hr.blockRouter?_eq, hhost, Option.map_some]
      rw [List.filter_cons_of_pos (by simp [hhost]), List.filterMap_cons_some hrouter]
      refine .cons ⟨host, hhost, rfl, ?_⟩ (ih hrules)
      have hrule : (routerAs id (blockText r.name) r host).rule = hostMatcher host := rfl
      obtain ⟨hiff, hother⟩ := takes_of_hostMatcher hrule (hr.host_ne hhost)
      refine ⟨hiff, fun service labels hderived => hiff.mpr ?_, hother⟩
      obtain ⟨host', hhost', -, hquote⟩ := (derived_of_mem_rulesOf hderived).host
      obtain rfl := Option.some.inj (hhost.symm.trans hhost')
      exact hquote

/-- A rule that is given as a mapping.  Its host is not empty, and that is all that is asked. -/
def quotedHost : Value :=
  .map [(.str "name", .str "app"), (.str "host", .str "a.io`) || Host(`b.io")]

/-- The rule that it describes. -/
def quotedRule : RoutingRule :=
  ⟨"app", none, some "a.io`) || Host(`b.io", RoutingRule.defaultEntrypoint, none, false⟩

/-- A rule that labels derive. -/
def derivedRule : RoutingRule :=
  ⟨"web", some "http://app:80", some "a.io", RoutingRule.defaultEntrypoint, none, false⟩

theorem ofValue_quotedHost : RoutingRule.ofValue quotedHost = .ok quotedRule := rfl

theorem admitted_derivedRule : Admitted derivedRule :=
  .derived "app" [("traefik.http.routers.web.rule", "Host(`a.io`)"),
    ("traefik.http.services.web.loadbalancer.server.port", "80")] (by decide +kernel)

/-- The one router takes the requests to its host, and the other does not. -/
theorem takes_derivedRule : (∀ r ∈ [derivedRule, quotedRule], Admitted r)
    ∧ ∃ first second, (Nix.readBlock (block [derivedRule, quotedRule])).bind readRouters
        = some [first, second]
      ∧ Takes first "a.io" ∧ ¬ Takes second "a.io`) || Host(`b.io" := by
  have hadmitted : ∀ r ∈ [derivedRule, quotedRule], Admitted r := by
    intro r hr
    rcases List.mem_cons.mp hr with rfl | hr
    · exact admitted_derivedRule
    · obtain rfl := List.mem_singleton.mp hr
      exact .given quotedHost ofValue_quotedHost
  obtain ⟨routers, hread, hall⟩ := routers_block hadmitted
  have hfilter : [derivedRule, quotedRule].filter (fun r => r.host.isSome)
      = [derivedRule, quotedRule] := rfl
  rw [hfilter] at hall
  obtain _ | ⟨⟨host, hhost, -, hfirst, -⟩, _ | ⟨⟨host', hhost', -, hsecond, -⟩, _ | _⟩⟩ := hall
  obtain rfl : "a.io" = host := Option.some.inj hhost
  obtain rfl : "a.io`) || Host(`b.io" = host' := Option.some.inj hhost'
  refine ⟨hadmitted, _, _, hread, hfirst.mpr (by decide), fun htakes => ?_⟩
  exact hsecond.mp htakes (by decide)

/-- The router of the rule that was given says two matchers, and of the hosts in them neither is
that of the rule. -/
theorem not_takes_quotedRule : RoutingRule.ofValue quotedHost = .ok quotedRule
    ∧ ∃ router, (Nix.readBlock (block [quotedRule])).bind readRouters = some [router]
      ∧ router.rule = "Host(`a.io`) || Host(`b.io`)"
      ∧ hostIn? router.rule.toList = some "a.io".toList
      ∧ ¬ Takes router "a.io`) || Host(`b.io" := by
  refine ⟨ofValue_quotedHost, _, readRouters_block [quotedRule], rfl, by decide +kernel,
    by decide +kernel⟩

end ComposeNix.Routing
