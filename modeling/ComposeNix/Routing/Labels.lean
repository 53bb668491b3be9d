import ComposeNix.Compose.Service
import ComposeNix.Container.Declaration
import ComposeNix.Notice
import ComposeNix.Routing.Reading

/-!
# Routes in the labels of a service

A label whose key reads `traefik.http.routers.NAME.…` or `traefik.http.services.NAME.…`
says something about the route `NAME`: the host that its rule matches, its entrypoint,
its certificate, or the port that the service listens on.  What the labels say about one
name is gathered in a `Draft`, in the order in which the names first occur, and a draft
with an address and a host becomes a rule.  The address is always that of the service.

A draft that makes no rule is passed over, unless what is wrong with it cannot even be told: then
the reading breaks off, and with it the reading of all labels (`derive`).

One more label names a network that the router shares with the service.
-/

namespace ComposeNix.Routing

/-! ## Keys -/

/-- What a label can say about a route. -/
inductive Subject
  | rule
  | entrypoint
  | certResolver
  | port
  /-- Nothing that counts; the route is named all the same. -/
  | other
  deriving DecidableEq, Repr

/-- What the label of a router is about, by the part of the key behind the name. -/
def routerSubject : List String → Subject
  | "rule" :: _ => .rule
  | "entrypoints" :: _ => .entrypoint
  | "tls" :: "certresolver" :: _ => .certResolver
  | _ => .other

/-- What the label of a service is about, by the part of the key behind the name. -/
def serviceSubject (rest : List String) : Subject :=
  if rest = ["loadbalancer", "server", "port"] then .port else .other

/-- The route that a label is about, and what it says about it. -/
def readKey (key : String) : Option (String × Subject) :=
  match Text.splitAt '.' key with
  | "traefik" :: "http" :: section? :: name :: rest =>
    if name.isEmpty then none
    else if section? = "routers" then some (name, routerSubject rest)
    else if section? = "services" then some (name, serviceSubject rest)
    else none
  | _ => none

/-! ## Hosts -/

/-- The host of the matcher that a text begins with. -/
def matcherAt? (cs : List Char) : Option (List Char) := do
  let rest ← "Host(`".toList.isPrefixOf? cs
  let host := rest.takeWhile (· ≠ '\x60')
  if host.isEmpty then none
  else match rest.dropWhile (· ≠ '\x60') with
    | '\x60' :: ')' :: _ => some host
    | _ => none

/-- The host of the first matcher in a text. -/
def hostIn? : List Char → Option (List Char)
  | [] => none
  | c :: cs => (matcherAt? (c :: cs)).or (hostIn? cs)

/-! ## Drafts -/

/-- What labels say about one route. -/
structure Draft where
  url : Option String
  host : Option String
  entrypoint : Option String
  certResolver : Option String
  deriving DecidableEq, Repr

namespace Draft

/-- A route of which only the name is known. -/
def empty : Draft := ⟨none, none, none, none⟩

/-- The address of a service at a port. -/
def address (service port : String) : String := "http://" ++ service ++ ":" ++ port

/-- Puts down what one label says.  A rule that matches no host says nothing. -/
def note (service : String) (subject : Subject) (value : String) (d : Draft) : Draft :=
  match subject with
  | .rule =>
    match hostIn? value.toList with
    | some host => { d with host := some (String.ofList host) }
    | none => d
  | .entrypoint => { d with entrypoint := some value }
  | .certResolver => { d with certResolver := some value }
  | .port => { d with url := some (address service value) }
  | .other => d

/-- The entrypoint of a draft, or the default one. -/
def entrypointText (d : Draft) : String :=
  (nonEmpty? d.entrypoint).getD RoutingRule.defaultEntrypoint

/-- The rule that a draft with an address and a host says. -/
def asRule (name url host : String) (d : Draft) : RoutingRule where
  name := name
  url := some url
  host := some host
  entrypoint := d.entrypointText
  certResolver := d.certResolver
  enableTls := d.certResolver.isSome

/-- What is wrong with a text of a field that has to be Unicode. -/
def textIssues (field text : String) : List Issue :=
  if Text.isUnicode text then [] else [⟨[field], .notUnicode⟩]

/-- What is wrong with a draft with an address and a host. -/
def issues (name url host : String) (d : Draft) : List Issue :=
  textIssues "name" name
    ++ (if (Url.read? url).isSome then [] else [⟨["url"], .invalidUrl url⟩])
    ++ textIssues "host" host ++ textIssues "entrypoint" d.entrypointText

/-- The rule that a draft with an address and a host makes, if nothing is wrong with it. -/
def toRule (name url host : String) (d : Draft) : Except RoutingRule.Fault RoutingRule :=
  match RoutingRule.unreportable? url with
  | some fault => .error (.unencodable fault)
  | none =>
    if (d.issues name url host).isEmpty then .ok (d.asRule name url host)
    else .error (.refused ⟨"RoutingRule", d.issues name url host⟩)

end Draft

/-! ## Routes of a service -/

/-- Puts down a label under the name of its route. -/
def gather (service : String) (drafts : Dictionary Draft) (label : String × String) :
    Dictionary Draft :=
  match readKey label.1 with
  | none => drafts
  | some (name, subject) =>
    drafts.insert name (((drafts.get? name).getD .empty).note service subject label.2)

/-- What the labels of a service say about each route. -/
def drafts (service : String) (labels : Dictionary String) : Dictionary Draft :=
  labels.foldl (gather service) []

/-- What becomes of a draft that makes no rule. -/
inductive Passing
  /-- It is passed over, with a notice. -/
  | over (notice : Notice)
  /-- The reading breaks off. -/
  | broken (fault : Text.Unencodable)

/-- Why the reading breaks off, if it does. -/
def Passing.broken? : Passing → Option Text.Unencodable
  | .over _ => none
  | .broken fault => some fault

/-- The notice on a draft that is passed over. -/
def Passing.notice? : Passing → Option Notice
  | .over notice => some notice
  | .broken _ => none

/-- What becomes of a draft: a rule, or why there is none. -/
def settle (service : String) (entry : String × Draft) : Except Passing RoutingRule :=
  let (name, draft) := entry
  match draft.url, draft.host with
  | some url, some host =>
    match draft.toRule name url host with
    | .ok rule => .ok rule
    | .error (.refused refusal) => .error (.over (.invalidRoute name service refusal.message))
    | .error (.unencodable fault) => .error (.broken fault)
  | _, _ => .error (.over (.incompleteRoute name service))

/-- The outcome for every route that the labels of a service name. -/
def outcomes (service : String) (labels : Dictionary String) :
    List (Except Passing RoutingRule) :=
  (drafts service labels).map (settle service)

/-- The rules in the labels of a service, in the order in which their names first occur. -/
def rulesOf (service : String) (labels : Dictionary String) : List RoutingRule :=
  (outcomes service labels).filterMap Except.toOption

/-- Why an outcome breaks the reading off, if it does. -/
def brokenOutcome? : Except Passing RoutingRule → Option Text.Unencodable
  | .ok _ => none
  | .error passing => passing.broken?

/-- Why the reading of the labels of a service breaks off, if it does: at the first draft whose
fault cannot be told. -/
def break? (service : String) (labels : Dictionary String) : Option Text.Unencodable :=
  (outcomes service labels).findSome? brokenOutcome?

/-- Reads the rules in the labels of a service. -/
def derive (service : String) (labels : Dictionary String) :
    Except Text.Unencodable (List RoutingRule) :=
  match break? service labels with
  | some fault => .error fault
  | none => .ok (rulesOf service labels)

/-- What is worth telling about the labels of a service: the drafts that are passed over, as far as
the reading gets. -/
def noticesOf (service : String) (labels : Dictionary String) : List Notice :=
  ((outcomes service labels).takeWhile fun outcome => (brokenOutcome? outcome).isNone).filterMap
    fun outcome =>
      match outcome with
      | .error passing => passing.notice?
      | .ok _ => none

end ComposeNix.Routing

namespace ComposeNix

/-! ## The network of the router -/

/-- The label that names the network which the router shares with a service. -/
def networkLabel : String := "traefik.docker.network"

namespace Service

/-- The routing rules in the labels of a service. -/
def routes (name : String) (s : Service) : List RoutingRule :=
  Routing.rulesOf name (s.labels.getD [])

/-- Why the reading of a service's labels breaks off, if it does. -/
def break? (name : String) (s : Service) : Option Text.Unencodable :=
  Routing.break? name (s.labels.getD [])

/-- What is worth telling about the labels of a service. -/
def routeNotices (name : String) (s : Service) : List Notice :=
  Routing.noticesOf name (s.labels.getD [])

/-- The network that the router shares with a service. -/
def routingNetwork? (s : Service) : Option String :=
  nonEmpty? ((s.labels.getD []).get? networkLabel)

/-- Joins a service to the network that the router shares with it. -/
def attach (s : Service) : Service :=
  match s.routingNetwork? with
  | none => s
  | some network =>
    let networks := s.networks.getD []
    { s with networks := some (if network ∈ networks then networks else networks ++ [network]) }

end Service
end ComposeNix
