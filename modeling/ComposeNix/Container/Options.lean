import ComposeNix.Compose.Service

/-!
# Options of a container runtime

What a declaration has no field for is handed to the runtime on its command line.  An
option is one word, and its group shows in how the word begins, so the words can be told
apart again whatever texts the options hold.  The groups come in a fixed order.
-/

namespace ComposeNix

/-- An option of the runtime's command for running a container. -/
inductive RunOption
  | privileged
  | capAdd (capability : String)
  | capDrop (capability : String)
  | device (path : String)
  | dns (server : String)
  | sysctl (key value : String)
  | addHost (host : String)
  | cpus (limit : String)
  | memory (limit : String)
  | healthCommand (test : String)
  deriving DecidableEq, Repr

namespace RunOption

/-- An option as one word. -/
def word : RunOption → String
  | .privileged => "--privileged"
  | .capAdd c => "--cap-add=" ++ c
  | .capDrop c => "--cap-drop=" ++ c
  | .device d => "--device=" ++ d
  | .dns s => "--dns=" ++ s
  | .sysctl k v => "--sysctl=" ++ k ++ "=" ++ v
  | .addHost h => "--add-host=" ++ h
  | .cpus n => "--cpus=" ++ n
  | .memory n => "--memory=" ++ n
  | .healthCommand t => "--health-cmd=" ++ t

end RunOption

/-- The text that is there and not empty. -/
def nonEmpty? (s? : Option String) : Option String := s?.filter (!·.isEmpty)

namespace Service

/-- The limits on what a container uses, as options. -/
def limitOptions (s : Service) : List RunOption :=
  match s.limits with
  | none => []
  | some limits =>
    ((nonEmpty? limits.cpus).map RunOption.cpus).toList
      ++ ((nonEmpty? limits.memory).map RunOption.memory).toList

/-- The options that a service asks for, group by group. -/
def runOptions (s : Service) : List RunOption :=
  (if s.privileged then [.privileged] else [])
    ++ (s.capAdd.getD []).map .capAdd
    ++ (s.capDrop.getD []).map .capDrop
    ++ (s.devices.getD []).map .device
    ++ (s.dns.getD []).map .dns
    ++ (s.sysctls.getD []).map (fun e => .sysctl e.1 e.2)
    ++ (s.extraHosts.getD []).map .addHost
    ++ s.limitOptions
    ++ ((nonEmpty? (s.healthcheck.bind HealthCheck.test)).map RunOption.healthCommand).toList

/-- The options that a service asks for, as words. -/
def extraOptions (s : Service) : List String := s.runOptions.map RunOption.word

end Service
end ComposeNix
