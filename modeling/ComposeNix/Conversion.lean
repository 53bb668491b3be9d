import ComposeNix.Compose.Manifest
import ComposeNix.Container.Declaration
import ComposeNix.Nix.Document
import ComposeNix.Routing.Configuration
import ComposeNix.Routing.Labels
import ComposeNix.Routing.Reading
import ComposeNix.Systemd.Lifecycle
import ComposeNix.Systemd.Override
import ComposeNix.Template
import ComposeNix.Yaml.Grade
import ComposeNix.Yaml.Load

/-!
# From a manifest to a module

A conversion takes the text of a manifest, a runtime and routing rules to the text of a
module.  Three things can be wrong, and they are looked at in this order: one of the
rules, the manifest, and the runtime.  Past them one thing is left: the reading of a service's
labels may break off, and then there is no module.

A module is a document of six sections.  Converting a manifest joins its services to
the networks of their routers, and apart from that leaves it as it was.
-/

namespace ComposeNix

/-! ## Reading a manifest -/

/-- Why a text is no manifest. -/
inductive ManifestFault
  /-- The text cannot be loaded. -/
  | unreadable (text : List Char) (fault : Yaml.Fault)
  | noServices
  | invalid (refusal : Refusal)

/-- What every report on a failed conversion begins with. -/
def failureLead : String := "Failed to convert Docker Compose: "

namespace ManifestFault

/-- Why a text is no manifest, in words.  A fault that nobody foresees is passed on as
it is. -/
def message : ManifestFault → String
  | .unreadable text fault =>
    (if fault.grade = .unforeseen then "" else failureLead) ++ fault.message (.text text)
  | .noServices => failureLead ++ "No services found in Docker Compose file"
  | .invalid refusal => failureLead ++ refusal.message

end ManifestFault

namespace Manifest

/-- The manifest that a loaded document describes, which has to list services. -/
def ofDocument (v : Value) : Except ManifestFault Manifest :=
  match v.entries? with
  | none => .error .noServices
  | some es =>
    if ((Value.lookup "services" es).bind Value.entries?).isSome then
      ((read es).result "ComposeManifest").mapError .invalid
    else .error .noServices

/-- The manifest that a text without variables describes. -/
def ofPlainText (text : List Char) : Except ManifestFault Manifest :=
  match Yaml.load text with
  | .error fault => .error (.unreadable text fault)
  | .ok v => ofDocument v

/-- A text with its variables replaced, if there are variables to replace. -/
def replaceVariables (context : Option Template.Context) (text : String) :
    String × List Notice :=
  match context with
  | none => (text, [])
  | some context => Template.interpolate context text

/-- The manifest that a text describes, and what is worth telling about it. -/
def ofText (context : Option Template.Context) (text : String) :
    Except ManifestFault Manifest × List Notice :=
  let (text, notices) := replaceVariables context text
  match ofPlainText text.toList with
  | .error fault => (.error fault, notices)
  | .ok m => (.ok m, notices ++ [.manifestRead m.services.length])

/-! ## The sections of a module -/

/-- The block that turns the runtime on. -/
def runtimeBlock (backend : Backend) : List Char :=
  Nix.renderBlock [
    ([.word "virtualisation", .word backend.name], .set false [
      ([.word "enable"], .word "true"),
      ([.word "autoPrune", .word "enable"], .word "true")]),
    ([.word "virtualisation", .word "oci-containers", .word "backend"], .ofText backend.name)]

/-- The rules in the labels of the services. -/
def routes (m : Manifest) : List RoutingRule := m.services.flatMap fun e => e.2.routes e.1

/-- The blocks of the containers. -/
def containerBlocks (m : Manifest) : List (List Char) :=
  m.services.map fun e => e.2.containerBlock m.projectName e.1

/-- The blocks of the overrides. -/
def overrideBlocks (backend : Backend) (m : Manifest) : List (List Char) :=
  m.services.filterMap fun e => e.2.overrideBlock? backend e.1

/-- The sections of a module: the blocks of its services, the units of what the project owns,
and the routing. -/
def sections (backend : Backend) (containers overrides : List (List Char))
    (routes : List RoutingRule) (m : Manifest) : Nix.Document := [
  ⟨"Runtime".toList, [runtimeBlock backend]⟩,
  ⟨"Containers".toList, containers⟩,
  ⟨"Systemd service customizations".toList, overrides⟩,
  ⟨"Volume services".toList, m.ownVolumes.map (Lifecycle.unitBlock backend "volume")⟩,
  ⟨"Network services".toList, m.ownNetworks.map (Lifecycle.unitBlock backend "network")⟩,
  ⟨"Traefik configuration".toList, [Routing.block routes]⟩]

/-- The document of a module. -/
def document (backend : Backend) (rules : List RoutingRule) (m : Manifest) : Nix.Document :=
  m.sections backend m.containerBlocks (m.overrideBlocks backend) (rules ++ m.routes)

/-- The text of the module for a manifest.  Rules that are given stand before those in
the labels. -/
def toModule (backend : Backend) (rules : List RoutingRule) (m : Manifest) : String :=
  String.ofList (m.document backend rules).render

/-- The services whose labels are read to the end before the reading breaks off. -/
def readThrough (m : Manifest) : Dictionary Service :=
  m.services.takeWhile fun e => (e.2.break? e.1).isNone

/-- The service at whose labels the reading breaks off, and why. -/
def break? (m : Manifest) : Option ((String × Service) × Text.Unencodable) :=
  m.services.findSome? fun e => (e.2.break? e.1).map (e, ·)

/-- What is worth telling about a conversion that breaks off at the labels of a service. -/
def breakNotices (m : Manifest) (broken : String × Service) : List Notice :=
  (m.readThrough.flatMap fun e => e.2.routeNotices e.1 ++ e.2.notices e.1)
    ++ broken.2.routeNotices broken.1

/-- What is worth telling about a conversion. -/
def moduleNotices (backend : Backend) (rules : List RoutingRule) (m : Manifest) : List Notice :=
  (m.services.flatMap fun e => e.2.routeNotices e.1 ++ e.2.notices e.1)
  ++ [.moduleWritten m.services.length (m.overrideBlocks backend).length
      (rules ++ m.routes).length backend.name]

/-- The text of the module, unless the reading of the labels breaks off, and what is worth
telling. -/
def build (backend : Backend) (rules : List RoutingRule) (m : Manifest) :
    Except Text.Unencodable String × List Notice :=
  match m.break? with
  | some (broken, fault) => (.error fault, m.breakNotices broken)
  | none => (.ok (m.toModule backend rules), m.moduleNotices backend rules)

/-- The manifest after a conversion: every service is joined to the network of its
router. -/
def attachAll (m : Manifest) : Manifest :=
  { m with services := m.services.map fun e => (e.1, e.2.attach) }

end Manifest

/-! ## Converting a text -/

/-- Why there is no module. -/
inductive ConversionFault
  | badRule (bad : RoutingRule.Bad)
  | badManifest (fault : ManifestFault)
  | badBackend (unknown : Backend.Unknown)
  /-- The reading of a service's labels breaks off. -/
  | badLabels (fault : Text.Unencodable)

/-- Why a rule could not be read, in words. -/
def RoutingRule.Bad.message (bad : RoutingRule.Bad) : String :=
  match bad.fault with
  | .refused refusal =>
    failureLead ++ "Invalid routing rule #" ++ toString bad.place ++ ": " ++ refusal.message
  | .unencodable fault => fault.message

/-- Why there is no module, in words. -/
def ConversionFault.message : ConversionFault → String
  | .badRule bad => bad.message
  | .badManifest fault => fault.message
  | .badBackend unknown => unknown.message
  | .badLabels fault => fault.message

/-- Converts the text of a manifest, with rules that have been read. -/
def convertWith (text : String) (backend : Value) (rules : List RoutingRule)
    (context : Option Template.Context) : Except ConversionFault String × List Notice :=
  match Manifest.ofText context text with
  | (.error fault, notices) => (.error (.badManifest fault), notices)
  | (.ok m, notices) =>
    match Backend.ofValue backend with
    | .error unknown => (.error (.badBackend unknown), notices)
    | .ok backend =>
      let (result, more) := m.build backend rules
      (result.mapError .badLabels, notices ++ more)

/-- Converts the text of a manifest. -/
def convert (text : String) (backend : Value) (rules : List Value)
    (context : Option Template.Context) : Except ConversionFault String × List Notice :=
  match RoutingRule.ofValues rules with
  | .error bad => (.error (.badRule bad), [])
  | .ok rules => convertWith text backend rules context

end ComposeNix
