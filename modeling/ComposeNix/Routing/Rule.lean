/-!
# Routing rules

A rule says under which host a service is reached, and where it stands.  A rule without
an address or without a host is only half a rule: it contributes the half of the routing
configuration that it has something for.
-/

namespace ComposeNix

/-- A named route from a host to an address. -/
structure RoutingRule where
  name : String
  url : Option String
  host : Option String
  entrypoint : String
  certResolver : Option String
  enableTls : Bool
  deriving DecidableEq, Repr

namespace RoutingRule

/-- The entrypoint of a rule that names none. -/
def defaultEntrypoint : String := "web"

/-- The address, if there is one to balance. -/
def address? (r : RoutingRule) : Option String := r.url.filter (!·.isEmpty)

/-- The host, if there is one to route. -/
def routed? (r : RoutingRule) : Option String := r.host.filter (!·.isEmpty)

/-- Whether a rule has name, address and host. -/
def isComplete (r : RoutingRule) : Bool :=
  !r.name.isEmpty && r.address?.isSome && r.routed?.isSome

end RoutingRule
end ComposeNix
