import ComposeNix.Proofs.Container.Parts
import ComposeNix.Proofs.Nix.Lines
import ComposeNix.Proofs.Routing.Block

/-!
# The block of the routes

A rule with an address has an entry under `services`, and one with a host an entry under `routers`.
A rule may have only one of them, so the two halves of the block come from two rows of rules
(`rulesWith`), which need not have anything in common.

`block_halves` says what the block is.  It is empty if no rule contributes anything.  Otherwise it
is, character by character, the entries of each half in the order of the rules, with one empty line
between two of them and one between the halves (`routesText`), and what is read from it are the
texts of the rules (`readRoutes`).
-/

namespace ComposeNix

/-- A rule none of whose name, address and host is an empty text. -/
structure RoutingRule.Filled (r : RoutingRule) : Prop where
  name : r.name ≠ ""
  url : r.url ≠ some ""
  host : r.host ≠ some ""

namespace Routing

open Nix (Attr Binding Expr Fields Key Tree bindingLines wordKey)

variable {r : RoutingRule} {rules : List RoutingRule}

/-- Rules that are given or derived have no empty texts. -/
theorem Admitted.filled (h : Admitted r) : r.Filled where
  name := h.name_ne
  url hurl := by
    cases h with
    | given v h => exact absurd ((RoutingRule.sound_of_ofValue h).url "" hurl) (by decide)
    | derived service labels h =>
      obtain ⟨port, hport⟩ := (derived_of_mem_rulesOf h).url
      have hempty := congrArg String.toList (Option.some.inj (hport.symm.trans hurl))
      simp [String.toList_append] at hempty
  host hhost := h.host_ne hhost rfl

/-! ## Rules with an address, and rules with a host -/

/-- The rules that say something, each with what it says. -/
def rulesWith (part : RoutingRule → Option String) (rules : List RoutingRule) :
    List (RoutingRule × String) :=
  rules.filterMap fun r => (part r).map (r, ·)

theorem rulesWith_eq_nil_iff {part : RoutingRule → Option String} :
    rulesWith part rules = [] ↔ ∀ r ∈ rules, part r = none := by
  simp [rulesWith]

/-- The entry under `services` for an address. -/
def serverBinding (e : RoutingRule × String) : Binding :=
  ([.named e.1.name, .word "loadBalancer", .word "servers"],
    .column [.set false [([.word "url"], .ofText e.2)]])

/-- The entry under `routers` for a host. -/
def routerBinding (e : RoutingRule × String) : Binding :=
  ([.named e.1.name],
    .set false (([.word "rule"], .ofText (hostMatcher e.2)) :: tlsBinding e.1 ++ [
      ([.word "service"], .ofText e.1.name),
      ([.word "entrypoints"], .ofText e.1.entrypoint)]))

theorem serverOf?_eq (h : r.Filled) :
    serverOf? r = (r.url.map (r, ·)).map serverBinding := by
  rw [serverOf?, if_neg (by simpa [String.isEmpty_iff] using h.name), RoutingRule.address?,
    filter_isEmpty_eq_self h.url, Option.map_map]
  rfl

theorem routerOf?_eq (h : r.Filled) :
    routerOf? r = (r.host.map (r, ·)).map routerBinding := by
  rw [routerOf?, if_neg (by simpa [String.isEmpty_iff] using h.name), RoutingRule.routed?,
    filter_isEmpty_eq_self h.host, Option.map_map]
  rfl

theorem filterMap_entry {part : RoutingRule → Option String}
    {binding : RoutingRule × String → Binding} {entryOf? : RoutingRule → Option Binding}
    (h : ∀ r ∈ rules, entryOf? r = ((part r).map (r, ·)).map binding) :
    rules.filterMap entryOf? = (rulesWith part rules).map binding := by
  rw [rulesWith, List.map_filterMap]
  exact List.filterMap_congr h

/-- The two halves hold the entries of the rules with an address and of those with a host. -/
theorem halves_eq (h : ∀ r ∈ rules, r.Filled) : halves rules
    = half "services" ((rulesWith RoutingRule.url rules).map serverBinding)
      ++ half "routers" ((rulesWith RoutingRule.host rules).map routerBinding) := by
  rw [halves, filterMap_entry fun r hr => serverOf?_eq (h r hr),
    filterMap_entry fun r hr => routerOf?_eq (h r hr)]

theorem half_eq_nil_iff (key : String) (entries : List Binding) :
    half key entries = [] ↔ entries = [] := by
  rw [half]
  split
  · rename_i hempty
    simp [List.isEmpty_iff.mp hempty]
  · rename_i hempty
    simp [List.isEmpty_iff] at hempty ⊢
    exact hempty

theorem block_eq_nil_iff : block rules = [] ↔ halves rules = [] := by
  rw [block]
  split
  · rename_i hempty
    exact iff_of_true rfl (List.isEmpty_iff.mp hempty)
  · rename_i hempty
    refine iff_of_false (fun hnil => ?_) fun hnil => hempty (List.isEmpty_iff.mpr hnil)
    rw [Nix.renderBlock_singleton] at hnil
    exact List.cons_ne_nil _ _ hnil

/-! ## The text of the block -/

/-- The lines of the server of a rule with this address. -/
def serverText (e : RoutingRule × String) : List Char :=
  "      ".toList ++ Nix.attributeName e.1.name.toList ++ ".loadBalancer.servers = [\n".toList
    ++ "        \x7b\n".toList
    ++ "          url = ".toList ++ Nix.quote e.2.toList ++ ";\n".toList
    ++ "        \x7d\n".toList
    ++ "      ];\n".toList

/-- The lines that say with which certificate a router works, if it has one. -/
def tlsText (r : RoutingRule) : List Char :=
  match resolver? r with
  | none => []
  | some resolver =>
    "        tls = \x7b\n".toList
      ++ "          certResolver = ".toList ++ Nix.quote resolver.toList ++ ";\n".toList
      ++ "        \x7d;\n".toList

/-- The lines of the router of a rule with this host. -/
def routerText (e : RoutingRule × String) : List Char :=
  "      ".toList ++ Nix.attributeName e.1.name.toList ++ " = \x7b\n".toList
    ++ "        rule = ".toList ++ Nix.quote (hostMatcher e.2).toList ++ ";\n".toList
    ++ tlsText e.1
    ++ "        service = ".toList ++ Nix.quote e.1.name.toList ++ ";\n".toList
    ++ "        entrypoints = ".toList ++ Nix.quote e.1.entrypoint.toList ++ ";\n".toList
    ++ "      \x7d;\n".toList

/-- The lines of a half, if it has entries. -/
def halfText (key : String) (entries : List (List Char)) : List (List Char) :=
  if entries.isEmpty then []
  else ["    ".toList ++ key.toList ++ " = \x7b\n".toList ++ ['\n'].intercalate entries
    ++ "    \x7d;\n".toList]

/-- The lines of a block with these entries. -/
def routesText (servers routers : List (List Char)) : List Char :=
  "  services.traefik.dynamicConfigOptions.http = \x7b\n".toList
    ++ ['\n'].intercalate (halfText "services" servers ++ halfText "routers" routers)
    ++ "  \x7d;".toList

theorem bindingLines_server (e : RoutingRule × String) :
    bindingLines 3 (serverBinding e) = serverText e := by
  have hpath : Nix.renderPath [.named e.1.name, .word "loadBalancer", .word "servers"]
      = Nix.attributeName e.1.name.toList ++ ".loadBalancer.servers".toList := by
    rw [Nix.renderPath_cons_cons, Nix.renderPath_cons_cons, Nix.renderPath_singleton]
    rfl
  have hcolumn (depth : Nat) (item : Expr) : (Expr.column [item]).render depth
      = "[\n".toList ++ (Nix.indent (depth + 1) ++ item.render (depth + 1) ++ ['\n'])
        ++ Nix.indent depth ++ [']'] := rfl
  have hset (depth : Nat) (b : Binding) : (Expr.set false [b]).render depth
      = "\x7b\n".toList ++ bindingLines (depth + 1) b ++ Nix.indent depth ++ ['}'] := by
    rw [Expr.render_set, Nix.renderBindings_lines, List.flatMap_singleton]
  unfold serverBinding serverText
  rw [bindingLines, Nix.renderBinding_mk, hpath, hcolumn, hset, Nix.bindingLines_text,
    Nix.renderPath_singleton]
  simp [Nix.indent, Nix.Attr.render]

theorem flatMap_bindingLines_tlsBinding (r : RoutingRule) :
    (tlsBinding r).flatMap (bindingLines 4) = tlsText r := by
  rw [tlsBinding_eq, tlsText]
  cases resolver? r with
  | none => rfl
  | some resolver =>
    rw [Option.map_some, Option.toList_some, List.flatMap_singleton, Nix.bindingLines_set,
      Nix.renderBindings_lines, List.flatMap_singleton, Nix.bindingLines_text,
      Nix.renderPath_singleton, Nix.renderPath_singleton]
    simp [Nix.indent, Nix.Attr.render]

theorem bindingLines_router (e : RoutingRule × String) :
    bindingLines 3 (routerBinding e) = routerText e := by
  have hword (word s : String) : bindingLines 4 ([.word word], .ofText s)
      = "        ".toList ++ word.toList ++ " = ".toList ++ Nix.quote s.toList ++ ";\n".toList := by
    rw [Nix.bindingLines_text, Nix.renderPath_singleton]
    simp [Nix.indent, Nix.Attr.render]
  rw [routerBinding, Nix.bindingLines_set, Nix.renderBindings_lines, Nix.renderPath_singleton,
    List.cons_append, List.flatMap_cons, List.flatMap_append, List.flatMap_cons,
    List.flatMap_singleton, flatMap_bindingLines_tlsBinding, hword, hword, hword]
  unfold routerText
  simp [Nix.indent, Nix.Attr.render]

theorem map_bindingLines_half (key : String) (entries : List Binding) :
    (half key entries).map (bindingLines 2)
      = halfText key (entries.map (bindingLines 3)) := by
  rw [half, halfText, List.isEmpty_map]
  split
  · rfl
  · rw [List.map_singleton, Nix.bindingLines_set, Nix.renderBindings_gaps,
      Nix.renderPath_singleton]
    simp [Nix.indent, Nix.Attr.render]

/-- A block that is not empty is made of the lines of its entries. -/
theorem block_eq_routesText (h : ∀ r ∈ rules, r.Filled) (hne : block rules ≠ []) :
    block rules = routesText ((rulesWith RoutingRule.url rules).map serverText)
      ((rulesWith RoutingRule.host rules).map routerText) := by
  rw [block] at hne ⊢
  split at hne
  · exact absurd rfl hne
  · rename_i hhalves
    have hpath : Nix.renderPath [.word "services", .word "traefik", .word "dynamicConfigOptions",
        .word "http"] = "services.traefik.dynamicConfigOptions.http".toList := by decide
    have hlines : (halves rules).map (bindingLines 2)
        = halfText "services" ((rulesWith RoutingRule.url rules).map serverText)
          ++ halfText "routers" ((rulesWith RoutingRule.host rules).map routerText) := by
      rw [halves_eq h, List.map_append, map_bindingLines_half, map_bindingLines_half,
        List.map_map, List.map_map]
      exact congrArg₂ (halfText "services" · ++ halfText "routers" ·)
        (List.map_congr_left fun e _ => bindingLines_server e)
        (List.map_congr_left fun e _ => bindingLines_router e)
    rw [if_neg hhalves, Nix.renderBlock_singleton, Nix.renderBinding_mk, hpath, Expr.render_set,
      Nix.renderBindings_gaps, hlines]
    unfold routesText
    simp [Nix.indent]

/-! ## What is read from the block -/

/-- What the routes of a block say, half by half. -/
structure Routes where
  services : Option (List (String × String))
  routers : Option (List Router)
  deriving DecidableEq, Repr

/-- The entries of a half. -/
def rows? {α : Type} (read : List Key × Tree → Option α) (t : Tree) : Option (List α) :=
  (Lifecycle.set? t).bind fun fields => fields.mapM read

/-- The routes of a block, if it has the two halves in this order, or one of them, and nothing
else. -/
def readRoutes (text : List Char) : Option Routes :=
  (Nix.readBlock text).bind fun
    | [(path, .set fields)] =>
      if path = Half.home
          ∧ (fields.map Prod.fst).Sublist [[wordKey "services"], [wordKey "routers"]] then do
        return {
          services := ← Fields.optional (rows? readServer?) "services" fields
          routers := ← Fields.optional (rows? readRouter?) "routers" fields }
      else none
    | _ => none

/-- What is read of a rule with an address. -/
def blockServer (e : RoutingRule × String) : String × String := (blockText e.1.name, e.2)

/-- What is read of a rule with a host. -/
def blockRouter (e : RoutingRule × String) : Router where
  name := blockText e.1.name
  rule := hostMatcher e.2
  certResolver := resolver? e.1
  service := e.1.name
  entrypoints := e.1.entrypoint

/-- A name in quotes is read as it is. -/
theorem blockText_of_not_isPlainName {name : String}
    (h : ¬ Nix.isPlainName name.toList = true) : blockText name = name := by
  rw [blockText, if_neg h, String.ofList_toList]

/-- A name is read as it is, or without the line feed that stands behind it. -/
theorem blockText_eq_or (name : String) :
    blockText name = name ∨ name = blockText name ++ "\n" := by
  by_cases hplain : Nix.isPlainName name.toList = true
  · have hsplit := List.takeWhile_append_dropWhile (p := Nix.isWordChar) (l := name.toList)
    rw [blockText, if_pos hplain]
    rcases (Nix.isWord_takeWhile_of_isPlainName hplain).2 with hend | hend
    · refine .inl (String.toList_inj.mp ?_)
      rw [String.toList_ofList]
      rwa [hend, List.append_nil] at hsplit
    · refine .inr (String.toList_inj.mp ?_)
      rw [String.toList_append, String.toList_ofList]
      exact (hend ▸ hsplit).symm
  · exact .inl (blockText_of_not_isPlainName hplain)

theorem resolver?_eq_some_iff {r : RoutingRule} {resolver : String} : resolver? r = some resolver
    ↔ r.enableTls = true ∧ r.certResolver = some resolver ∧ resolver ≠ "" := by
  simp only [resolver?, nonEmpty?, Option.filter_eq_some_iff, Bool.not_eq_true',
    String.isEmpty_eq_false_iff]
  tauto

theorem readServer?_serverBinding (e : RoutingRule × String) :
    readServer? (Nix.bindingTree (serverBinding e)) = some (blockServer e) := by
  have htree : Nix.bindingTree (serverBinding e)
      = ([(Attr.named e.1.name).key, wordKey "loadBalancer", wordKey "servers"],
        .list [.set [Nix.bindingTree ([.word "url"], .ofText e.2)]]) := rfl
  rw [htree, Nix.telling_bindingTree.text_word, readServer?, if_pos rfl, string?_key_named]
  simp only [Tree.text?_ofText]
  rfl

theorem readRouter?_routerBinding (e : RoutingRule × String) :
    readRouter? (Nix.bindingTree (routerBinding e)) = some (blockRouter e) := by
  have hrouter : routerAs id (blockText e.1.name) e.1 e.2 = blockRouter e := by
    rw [routerAs, blockRouter, Option.map_id]
    rfl
  rw [routerBinding, Nix.telling_bindingTree.set,
    told_routerFields Nix.telling_bindingTree (blockText e.1.name), hrouter, List.map_singleton]
  exact readRouter?_fieldsOf (string?_key_named e.1.name)

section

variable {α : Type} {binding : RoutingRule × String → Binding} {read : List Key × Tree → Option α}
  {found : RoutingRule × String → α}

/-- The value of a half that has the entries of these rules. -/
def entriesTree (binding : RoutingRule × String → Binding) (es : List (RoutingRule × String)) :
    Tree :=
  .set ((es.map binding).map Nix.bindingTree)

/-- A half is a field that is there if it has entries. -/
theorem map_bindingTree_half (key : String) (es : List (RoutingRule × String)) :
    (half key (es.map binding)).map Nix.bindingTree
      = Nix.field key ((ComposeNix.present es).map (entriesTree binding)) := by
  rw [half, ComposeNix.present, List.isEmpty_map]
  split
  · rfl
  · rw [List.map_singleton, Nix.telling_bindingTree.set]
    rfl

/-- Entries that are read one by one are read as a row. -/
theorem rows?_entriesTree (h : ∀ e, read (Nix.bindingTree (binding e)) = some (found e))
    (es : List (RoutingRule × String)) : rows? read (entriesTree binding es) = some (es.map found)
    := by
  show ((es.map binding).map Nix.bindingTree).mapM read = some (es.map found)
  induction es with
  | nil => rfl
  | cons e es ih =>
    rw [List.map_cons, List.map_cons, List.mapM_cons, h e, ih]
    rfl

end

/-- The routes that are read from a block that is not empty. -/
theorem readRoutes_block (h : ∀ r ∈ rules, r.Filled) (hne : block rules ≠ []) :
    readRoutes (block rules) = some {
      services := (ComposeNix.present (rulesWith RoutingRule.url rules)).map (List.map blockServer)
      routers := (ComposeNix.present (rulesWith RoutingRule.host rules)).map
        (List.map blockRouter) } := by
  have hhalves : ¬ (halves rules).isEmpty = true := fun hempty => hne (if_pos hempty)
  generalize hpieces : ([
    ("services", (ComposeNix.present (rulesWith RoutingRule.url rules)).map
      (entriesTree serverBinding)),
    ("routers", (ComposeNix.present (rulesWith RoutingRule.host rules)).map
      (entriesTree routerBinding))] : List (String × Option Tree)) = pieces
  have hfields : (halves rules).map Nix.bindingTree = Nix.fieldsOf pieces := by
    rw [halves_eq h, List.map_append, map_bindingTree_half, map_bindingTree_half, ← hpieces,
      Nix.fieldsOf_cons, Nix.fieldsOf_cons, Nix.fieldsOf_nil, List.append_nil]
  have hwords : pieces.map Prod.fst = ["services", "routers"] := by
    rw [← hpieces]
    rfl
  have hnodup : (pieces.map Prod.fst).Nodup := by
    rw [hwords]
    decide
  have hsublist : ((Nix.fieldsOf pieces).map Prod.fst).Sublist
      [[wordKey "services"], [wordKey "routers"]] := by
    have hkeys : pieces.map (fun e => [wordKey e.1])
        = [[wordKey "services"], [wordKey "routers"]] := by
      rw [← hpieces]
      rfl
    exact hkeys ▸ Nix.keys_fieldsOf_sublist pieces
  have hservices : Fields.optional (rows? readServer?) "services" (Nix.fieldsOf pieces)
      = some ((ComposeNix.present (rulesWith RoutingRule.url rules)).map (List.map blockServer)) :=
    Nix.optional_fieldsOf_map (rows?_entriesTree readServer?_serverBinding) hnodup
      (by simp [← hpieces])
  have hrouters : Fields.optional (rows? readRouter?) "routers" (Nix.fieldsOf pieces)
      = some ((ComposeNix.present (rulesWith RoutingRule.host rules)).map (List.map blockRouter)) :=
    Nix.optional_fieldsOf_map (rows?_entriesTree readRouter?_routerBinding) hnodup
      (by simp [← hpieces])
  have hblock : Nix.readBlock (block rules) = some [(Half.home, .set (Nix.fieldsOf pieces))] := by
    rw [readBlock_block, configuration, if_neg hhalves, List.map_singleton,
      Nix.telling_bindingTree.set, hfields]
    rfl
  rw [readRoutes, hblock]
  simp only [Option.bind_some, hsublist, hservices, hrouters, and_self, if_true]
  rfl

/-! ## The whole block -/

/-- What the block of rules without empty texts is.  It is empty exactly if no rule has an address
or a host.  Otherwise it is made of the lines of a server for every rule with an address, and of
those of a router for every rule with a host, in order and with one empty line between two entries
and between the halves; a half is there exactly if it has entries; and what is read from it are the
texts of the rules.  Only a name without quotes may lose a line feed at its end.  A router says a
resolver exactly if its rule has one that is not empty and asks for encryption. -/
theorem block_halves (h : ∀ r ∈ rules, r.Filled) :
    (block rules = [] ↔ ∀ r ∈ rules, r.url = none ∧ r.host = none)
      ∧ (block rules ≠ [] →
        block rules = routesText ((rulesWith RoutingRule.url rules).map serverText)
          ((rulesWith RoutingRule.host rules).map routerText)
        ∧ ∃ routes, readRoutes (block rules) = some routes
          ∧ (routes.services.isSome = true ↔ ∃ r ∈ rules, r.url.isSome = true)
          ∧ (routes.routers.isSome = true ↔ ∃ r ∈ rules, r.host.isSome = true)
          ∧ routes.services.getD [] = (rulesWith RoutingRule.url rules).map blockServer
          ∧ routes.routers.getD [] = (rulesWith RoutingRule.host rules).map blockRouter)
      ∧ (∀ r ∈ rules, ∀ resolver, resolver? r = some resolver
        ↔ r.enableTls = true ∧ r.certResolver = some resolver ∧ resolver ≠ "")
      ∧ ∀ r ∈ rules, (¬ Nix.isPlainName r.name.toList = true → blockText r.name = r.name)
        ∧ (blockText r.name = r.name ∨ r.name = blockText r.name ++ "\n") := by
  refine ⟨?_, fun hne => ⟨block_eq_routesText h hne, _, readRoutes_block h hne, ?_, ?_, ?_, ?_⟩,
    fun r _ resolver => resolver?_eq_some_iff,
    fun r _ => ⟨blockText_of_not_isPlainName, blockText_eq_or r.name⟩⟩
  · rw [block_eq_nil_iff, halves_eq h, List.append_eq_nil_iff, half_eq_nil_iff, half_eq_nil_iff,
      List.map_eq_nil_iff, List.map_eq_nil_iff, rulesWith_eq_nil_iff, rulesWith_eq_nil_iff]
    exact ⟨fun hnone r hr => ⟨hnone.1 r hr, hnone.2 r hr⟩,
      fun hnone => ⟨fun r hr => (hnone r hr).1, fun r hr => (hnone r hr).2⟩⟩
  · rw [Option.isSome_map, isSome_present, Ne, rulesWith_eq_nil_iff]
    simp [Option.isSome_iff_ne_none]
  · rw [Option.isSome_map, isSome_present, Ne, rulesWith_eq_nil_iff]
    simp [Option.isSome_iff_ne_none]
  · exact (Option.getD_map (List.map blockServer) [] _).trans (congrArg _ (getD_present _))
  · exact (Option.getD_map (List.map blockRouter) [] _).trans (congrArg _ (getD_present _))

/-- A rule that contributes a server only. -/
def balancedRule : RoutingRule :=
  ⟨"api", some "http://api:80", none, RoutingRule.defaultEntrypoint, none, false⟩

/-- A rule that contributes a router only. -/
def routedRule : RoutingRule := ⟨"my app", none, some "b.io", "websecure", some "le", true⟩

/-- The halves of their block have two entries each, but not of the same rules. -/
theorem block_halves_mixed : (∀ r ∈ [balancedRule, routedRule, derivedRule], r.Filled)
    ∧ block [balancedRule, routedRule, derivedRule]
      = routesText
        [serverText (balancedRule, "http://api:80"), serverText (derivedRule, "http://app:80")]
        [routerText (routedRule, "b.io"), routerText (derivedRule, "a.io")]
    ∧ ∃ routes, readRoutes (block [balancedRule, routedRule, derivedRule]) = some routes
      ∧ routes.services.getD [] = [("api", "http://api:80"), ("web", "http://app:80")]
      ∧ routes.routers.getD []
        = [⟨"my app", "Host(\x60b.io\x60)", some "le", "my app", "websecure"⟩,
          ⟨"web", "Host(\x60a.io\x60)", none, "web", "web"⟩] := by
  have hfilled : ∀ r ∈ [balancedRule, routedRule, derivedRule], r.Filled := by
    intro r hr
    simp only [List.mem_cons, List.not_mem_nil, or_false] at hr
    rcases hr with rfl | rfl | rfl
    · exact ⟨by decide, by decide, by decide⟩
    · exact ⟨by decide, by decide, by decide⟩
    · exact admitted_derivedRule.filled
  obtain ⟨hempty, hblock, -⟩ := block_halves hfilled
  have hne : block [balancedRule, routedRule, derivedRule] ≠ [] := fun hnil =>
    absurd (hempty.mp hnil balancedRule List.mem_cons_self).1 (by decide)
  obtain ⟨htext, routes, hread, -, -, hservices, hrouters⟩ := hblock hne
  exact ⟨hfilled, htext, routes, hread, hservices, hrouters⟩

end Routing
end ComposeNix
