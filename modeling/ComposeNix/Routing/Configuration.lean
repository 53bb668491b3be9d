import ComposeNix.Nix.Expr
import ComposeNix.Routing.Rule

/-!
# The routing configuration

Rules become two halves of one block: a rule with an address has an entry under
`services`, one with a host an entry under `routers`.  The entries of a half stand in
the order of the rules, with an empty line between them, and so do the two halves.
-/

namespace ComposeNix.Routing

open Nix (Attr Binding Expr)

/-- The entry of a rule under `services`. -/
def serverOf? (r : RoutingRule) : Option Binding :=
  if r.name.isEmpty then none
  else r.address?.map fun url =>
    ([Attr.named r.name, .word "loadBalancer", .word "servers"],
      .column [.set false [([.word "url"], .ofText url)]])

/-- The matcher for requests to a host. -/
def hostMatcher (host : String) : String := "Host(`" ++ host ++ "`)"

/-- The certificate that a router asks for. -/
def tlsBinding (r : RoutingRule) : List Binding :=
  match r.certResolver with
  | none | some "" => []
  | some resolver =>
    if r.enableTls then
      [([.word "tls"], .set false [([.word "certResolver"], .ofText resolver)])]
    else []

/-- The entry of a rule under `routers`. -/
def routerOf? (r : RoutingRule) : Option Binding :=
  if r.name.isEmpty then none
  else r.routed?.map fun host =>
    ([Attr.named r.name],
      .set false (([.word "rule"], .ofText (hostMatcher host)) :: tlsBinding r ++ [
        ([.word "service"], .ofText r.name),
        ([.word "entrypoints"], .ofText r.entrypoint)]))

/-- A half of the block, if it has entries. -/
def half (key : String) (entries : List Binding) : List Binding :=
  if entries.isEmpty then [] else [([.word key], .set true entries)]

/-- The two halves of the block. -/
def halves (rules : List RoutingRule) : List Binding :=
  half "services" (rules.filterMap serverOf?) ++ half "routers" (rules.filterMap routerOf?)

/-- The block of all rules, which is empty if no rule contributes anything. -/
def block (rules : List RoutingRule) : List Char :=
  if (halves rules).isEmpty then []
  else Nix.renderBlock
    [([.word "services", .word "traefik", .word "dynamicConfigOptions", .word "http"],
      .set true (halves rules))]

end ComposeNix.Routing
