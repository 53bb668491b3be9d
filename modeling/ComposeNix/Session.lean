import ComposeNix.Conversion

/-!
# Working on one manifest

A manifest that has been read can be worked on: a service is joined to the network of its
router, its labels are replaced, what the project owns is listed, the blocks of one service
are written, and the whole is converted, any number of times and in any order.

A conversion works on the manifest that it reads.  It takes up the services one after the
other, and of each the routes are read first, then the service is joined to the network of
its router, and then its blocks are written.  So half way through, the services in front are
joined and those behind are as they were, and the units of what the project owns are written
when all are joined.  That nothing written depends on the order of these steps, so that the
module is the one of the manifest as it was (`Manifest.toModule`), is proved with the theory of
sessions.

A conversion that is refused never begins.  But the reading of a service's routes may break off,
and then the conversion ends where it stands.
-/

namespace ComposeNix

/-! ## Converting in place -/

/-- What a conversion has put together of the services that it has taken up. -/
structure Assembly where
  containers : List (List Char)
  overrides : List (List Char)
  routes : List RoutingRule
  notices : List Notice

namespace Assembly

/-- Takes up a service, and leaves it joined to the network of its router. -/
def takeUp (backend : Backend) (project name : String) (s : Service) (a : Assembly) :
    Assembly × Service :=
  let joined := s.attach
  ({ containers := a.containers ++ [joined.containerBlock project name]
     overrides := a.overrides ++ (joined.overrideBlock? backend name).toList
     routes := a.routes ++ s.routes name
     notices := a.notices ++ (s.routeNotices name ++ joined.notices name) }, joined)

/-- Takes up services one after the other, and leaves them joined; where the labels of one cannot
be read to the end, it and those behind it stay as they are. -/
def takeUpAll (backend : Backend) (project : String) :
    Dictionary Service → Assembly → (Option Text.Unencodable × Assembly) × Dictionary Service
  | [], a => ((none, a), [])
  | (name, s) :: rest, a =>
    match s.break? name with
    | some fault =>
      ((some fault, { a with notices := a.notices ++ s.routeNotices name }), (name, s) :: rest)
    | none =>
      let (a, s) := a.takeUp backend project name s
      let (outcome, rest) := takeUpAll backend project rest a
      (outcome, (name, s) :: rest)

end Assembly

namespace Manifest

/-- Converts a manifest in place: the text of its module or why it breaks off, and what is worth
telling, and the manifest that the conversion leaves. -/
def assemble (backend : Backend) (rules : List RoutingRule) (m : Manifest) :
    (Except Text.Unencodable String × List Notice) × Manifest :=
  let ((break?, a), services) :=
    Assembly.takeUpAll backend m.projectName m.services ⟨[], [], rules, []⟩
  let joined := { m with services }
  match break? with
  | some fault => ((.error fault, a.notices), joined)
  | none =>
    let written := Notice.moduleWritten a.containers.length a.overrides.length a.routes.length
      backend.name
    ((.ok (String.ofList (joined.sections backend a.containers a.overrides a.routes).render),
      a.notices ++ [written]), joined)

/-- What a conversion needs besides a manifest: rules that can be read, and a runtime. -/
def prepare (backend : Value) (rules : List Value) :
    Except ConversionFault (Backend × List RoutingRule) :=
  match RoutingRule.ofValues rules with
  | .error bad => .error (.badRule bad)
  | .ok rules =>
    match Backend.ofValue backend with
    | .error unknown => .error (.badBackend unknown)
    | .ok backend => .ok (backend, rules)

/-- Converts a manifest in place, if rules and runtime are in order. -/
def convert (backend : Value) (rules : List Value) (m : Manifest) :
    (Except ConversionFault String × List Notice) × Manifest :=
  match prepare backend rules with
  | .error fault => ((.error fault, []), m)
  | .ok (backend, rules) =>
    let ((result, notices), joined) := m.assemble backend rules
    ((result.mapError .badLabels, notices), joined)

/-! ## Operations -/

/-- The service of this name. -/
def service? (name : String) (m : Manifest) : Option Service := m.services.get? name

/-- The manifest with one service changed. -/
def modify (name : String) (change : Service → Service) (m : Manifest) : Manifest :=
  { m with services := m.services.map fun e => if e.1 = name then (e.1, change e.2) else e }

end Manifest

/-- An operation on a manifest. -/
inductive Operation
  /-- Joins a service to the network of its router. -/
  | attach (service : String)
  /-- Puts other labels on a service. -/
  | relabel (service : String) (labels : Option (Dictionary String))
  /-- Lists the volumes that the project owns. -/
  | volumes
  /-- Lists the networks that the project owns. -/
  | networks
  /-- Lists the options of a service's container. -/
  | options (service : String)
  /-- Writes the blocks of one service. -/
  | container (service : String) (backend : Value)
  | convert (backend : Value) (rules : List Value)

/-- Why an operation has no answer. -/
inductive OperationFault
  | noService (name : String)
  | badBackend (unknown : Backend.Unknown)
  | refused (fault : ConversionFault)

/-- What an operation answers. -/
inductive Answer
  /-- The networks that a service has joined. -/
  | joined (networks : Option (List String))
  | labels (labels : Option (Dictionary String))
  | names (names : List String)
  | blocks (container : List Char) (override? : Option (List Char))
  | module (text : String)

/-- The answer of an operation or why there is none, and what is worth telling. -/
abbrev Outcome := Except OperationFault Answer × List Notice

namespace Operation

/-- An operation on the service of this name, which has to be there. -/
def onService (name : String) (m : Manifest) (use : Service → Outcome × Manifest) :
    Outcome × Manifest :=
  match m.service? name with
  | none => ((.error (.noService name), []), m)
  | some s => use s

/-- Carries out an operation: its outcome, and the manifest behind it. -/
def run (m : Manifest) : Operation → Outcome × Manifest
  | .attach name => onService name m fun s =>
    ((.ok (.joined s.attach.networks), []), m.modify name Service.attach)
  | .relabel name labels => onService name m fun _ =>
    ((.ok (.labels labels), []), m.modify name fun s => { s with labels })
  | .volumes => ((.ok (.names m.ownVolumes), []), m)
  | .networks => ((.ok (.names m.ownNetworks), []), m)
  | .options name => onService name m fun s => ((.ok (.names s.extraOptions), []), m)
  | .container name backend => onService name m fun s =>
    match Backend.ofValue backend with
    | .error unknown => ((.error (.badBackend unknown), []), m)
    | .ok backend =>
      ((.ok (.blocks (s.containerBlock m.projectName name) (s.overrideBlock? backend name)),
        s.notices name), m)
  | .convert backend rules =>
    let ((result, notices), joined) := m.convert backend rules
    (((result.map Answer.module).mapError .refused, notices), joined)

/-- The manifest behind an operation. -/
def apply (m : Manifest) (op : Operation) : Manifest := (op.run m).2

/-- The manifest behind a run of operations. -/
def applyAll (m : Manifest) (ops : List Operation) : Manifest := ops.foldl apply m

end Operation
end ComposeNix
