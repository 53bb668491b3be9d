import ComposeNix.Proofs.Compose.Fields

/-!
# The fields of a service

The tables of a service and of the records in it.  Each reading is put together from the readings
of its fields in the order of the table, and so it owes to the table what the readings owe to the
shapes (`Service.describes`).
-/

namespace ComposeNix

open Table Shape

/-! ## The records of a service -/

/-- What a health check makes use of. -/
def HealthCheck.fields : Table := [("test", .words)]

/-- What a section on logging makes use of. -/
def Logging.fields : Table := [("driver", .scalar)]

/-- What resource limits make use of. -/
def Limits.fields : Table := [("cpus", .scalar), ("memory", .scalar)]

/-- What a section on resources makes use of. -/
def Limits.resourcesFields : Table := [("limits", .record Limits.fields)]

/-- What a section on deployment makes use of. -/
def Limits.deployFields : Table := [("resources", .record Limits.resourcesFields)]

/-- What a service makes use of. -/
def Service.fields : Table := [
  ("image", .scalar), ("working_dir", .scalar), ("user", .scalar), ("restart", .scalar),
  ("command", .command), ("entrypoint", .command), ("environment", .dictionary),
  ("env_file", .texts), ("ports", .rows portWritten), ("volumes", .rows mountWritten),
  ("networks", .names), ("depends_on", .names), ("healthcheck", .record HealthCheck.fields),
  ("privileged", .flag), ("cap_add", .texts), ("cap_drop", .texts), ("devices", .texts),
  ("dns", .texts), ("extra_hosts", .texts), ("sysctls", .dictionary),
  ("logging", .record Logging.fields), ("deploy", .record Limits.deployFields),
  ("labels", .dictionary)]

theorem HealthCheck.describes : HealthCheck.fields.Describes HealthCheck.read :=
  ((Reads.field writes_words "test").map HealthCheck.mk).describes (by decide) (by decide)

theorem Logging.describes : Logging.fields.Describes Logging.read :=
  ((Reads.field writes_scalar "driver").map Logging.mk).describes (by decide) (by decide)

theorem Limits.describes : Limits.fields.Describes Limits.read :=
  (((Reads.field writes_scalar "cpus").map Limits.mk).seq
    (.field writes_scalar "memory")).describes (by decide) (by decide)

theorem Limits.describes_readResources :
    Limits.resourcesFields.Describes Limits.readResources :=
  (Limits.describes.record? "limits").describes (by decide) (by decide)

theorem Limits.describes_readDeploy : Limits.deployFields.Describes Limits.readDeploy :=
  ((Limits.describes_readResources.record? "resources").map Option.join).describes
    (by decide) (by decide)

theorem Service.describes : Service.fields.Describes Service.read := by
  have h := ((Reads.field writes_scalar "image").map Service.mk
      |>.seq (.field writes_scalar "working_dir")
      |>.seq (.field writes_scalar "user")
      |>.seq (.field writes_scalar "restart")
      |>.seq (.field writes_command "command")
      |>.seq (.field writes_command "entrypoint")
      |>.seq (.field writes_dictionary "environment")
      |>.seq (.field writes_texts "env_file")
      |>.seq (.field (writes_rows succeeds_portOfEntries) "ports")
      |>.seq (.field (writes_rows succeeds_mountOfEntries) "volumes")
      |>.seq (.field writes_names "networks")
      |>.seq (.field writes_names "depends_on")
      |>.seq (HealthCheck.describes.record? "healthcheck")
      |>.seq (.field writes_flag "privileged")
      |>.seq (.field writes_texts "cap_add")
      |>.seq (.field writes_texts "cap_drop")
      |>.seq (.field writes_texts "devices")
      |>.seq (.field writes_texts "dns")
      |>.seq (.field writes_texts "extra_hosts")
      |>.seq (.field writes_dictionary "sysctls")
      |>.seq (Logging.describes.record? "logging")
      |>.seq ((Limits.describes_readDeploy.record? "deploy").map Option.join)
      |>.seq (.field writes_dictionary "labels"))
  -- The table is put together first: comparing it with a row of appended ones is slow.
  simp only [List.cons_append, List.nil_append] at h
  exact h.describes (by decide) (by decide)

end ComposeNix
