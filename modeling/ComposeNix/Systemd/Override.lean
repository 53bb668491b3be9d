import ComposeNix.Compose.Backend
import ComposeNix.Compose.Service
import ComposeNix.Nix.Expr
import ComposeNix.Text.Split

/-!
# Overrides of container units

Every container runs in a unit of systemd that the system module defines.  A service
changes settings of that unit by its restart policy and by labels: what follows
`pod2nix.systemd.service.` in the key of a label names a setting of the service section,
and what follows `pod2nix.systemd.unit.` one of the unit section.  A label wins over the
policy.  A service that changes nothing has no override.
-/

namespace ComposeNix

open Nix (Attr Binding Expr)

/-- What the labels for the service section begin with. -/
def serviceSettingLabel : String := "pod2nix.systemd.service."

/-- What the labels for the unit section begin with. -/
def unitSettingLabel : String := "pod2nix.systemd.unit."

/-- The restart setting for a restart policy: none for `no`, and `on-failure` for a policy
that is not known. -/
def restartSetting (policy : String) : Option String :=
  if policy = "no" then none
  else if policy = "always" ∨ policy = "unless-stopped" then some "always"
  else some "on-failure"

/-- The settings that labels name, which is more than the bare beginning. -/
def labelledSettings (lead : String) (labels : Dictionary String) : Dictionary String :=
  labels.filterMap fun e =>
    match Text.after? lead e.1 with
    | none | some "" => none
    | some key => some (key, e.2)

namespace Service

/-- The restart setting that a service's policy asks for. -/
def policySettings (s : Service) : Dictionary String :=
  match s.restart with
  | none | some "" => []
  | some policy => ((restartSetting policy).map fun r => ("Restart", r)).toList

/-- The settings of the service section. -/
def serviceSettings (s : Service) : Dictionary String :=
  Dictionary.update s.policySettings (labelledSettings serviceSettingLabel (s.labels.getD []))

/-- The settings of the unit section. -/
def unitSettings (s : Service) : Dictionary String :=
  labelledSettings unitSettingLabel (s.labels.getD [])

end Service

/-- A section of a unit, if there are settings for it. -/
def settingsBinding (key : String) (settings : Dictionary String) : List Binding :=
  if settings.isEmpty then []
  else [([.word key],
    .set false (settings.map fun e => ([Attr.named e.1], Expr.override (Expr.ofText e.2))))]

/-- The name of the unit that a service's container runs in. -/
def containerUnit (backend : Backend) (name : String) : String := backend.name ++ "-" ++ name

/-- The override for the unit of a service's container. -/
def Service.override? (backend : Backend) (name : String) (s : Service) : Option Binding :=
  if s.serviceSettings.isEmpty && s.unitSettings.isEmpty then none
  else some ([.word "systemd", .word "services", .quoted (containerUnit backend name)],
    .set false (settingsBinding "serviceConfig" s.serviceSettings
      ++ settingsBinding "unitConfig" s.unitSettings))

/-- The block of the override for a service. -/
def Service.overrideBlock? (backend : Backend) (name : String) (s : Service) :
    Option (List Char) :=
  (s.override? backend name).map fun b => Nix.renderBlock [b]

end ComposeNix
