import ComposeNix.Proofs.Compose.Service
import ComposeNix.Proofs.Conversion
import ComposeNix.Proofs.Value.Integers

/-!
# Fields that do not disturb each other

A service is read field by field.  `Service.Field` is a field on its own: the key that it stands
under, the reading of the value there, and the place of the result in a service.
`Service.allFields` lists them, and a service is nothing but what they hold
(`Service.ext_allFields`).

Whatever else a mapping holds, a field comes out as it is read from under its own key
(`Service.Field.get_of_ofValue`).  So the others can spoil it in one way only, by keeping the whole
service from being read, and `Service.ofValue_isolated` says when that happens: one of six mappings
has a key that is no text or a text without encoding, or something that is written out has an
integer in it that is too long.
-/

namespace ComposeNix

variable {α β : Type}

/-! ## The mappings in a service -/

namespace Entries

/-- The mapping at the end of a path of keys. -/
def at? : Entries → List String → Option Entries
  | es, [] => some es
  | es, key :: path => ((Value.lookup key es).bind Value.entries?).bind (at? · path)

theorem at?_cons (es : Entries) (key : String) (path : List String) :
    es.at? (key :: path) = (es.at? [key]).bind (at? · path) := by
  rw [at?, at?]
  cases (Value.lookup key es).bind Value.entries? <;> rfl

/-- Not all keys of a mapping are texts that have an encoding. -/
theorem not_textKeys_iff {es : Entries} :
    ¬ es.TextKeys ↔ ∃ e ∈ es, ∀ s, e.1 = .str s → ¬ Text.isUnicode s := by
  simp [TextKeys]

end Entries

/-- Where the mappings of a service stand that are read as records. -/
def Service.recordPaths : List (List String) :=
  [[], ["healthcheck"], ["logging"], ["deploy"], ["deploy", "resources"],
    ["deploy", "resources", "limits"]]

namespace Table

/-- A field without records adds none. -/
theorem records_cons_of_leaf {key : String} {σ : Shape} (h : ∀ v, σ.records v = [])
    (T : Table) (es : Entries) : records ((key, σ) :: T) es = records T es := by
  rw [records, List.flatMap_cons, records]
  cases Value.lookup key es with
  | none => rfl
  | some v => simp [h]

/-- A record adds itself and the records in it. -/
theorem mem_records_cons_record {key : String} {inner T : Table} {es r : Entries} :
    r ∈ records ((key, .record inner) :: T) es
      ↔ (∃ r', es.at? [key] = some r' ∧ (r = r' ∨ r ∈ inner.records r')) ∨ r ∈ records T es := by
  rw [records, List.flatMap_cons, List.mem_append, records, Entries.at?]
  refine or_congr ?_ Iff.rfl
  cases Value.lookup key es with
  | none => simp
  | some v => cases hes : v.entries? <;> simp [Shape.record, Entries.at?, hes]

end Table

/-- The mappings that are read as records stand at the ends of the six paths. -/
theorem Service.mem_cons_records_iff {es r : Entries} :
    r ∈ es :: Service.fields.records es ↔ ∃ path ∈ Service.recordPaths, es.at? path = some r := by
  have hlimits (r : Entries) := r.at?_cons "resources" ["limits"]
  have hnil (es : Entries) : Table.records [] es = [] := rfl
  simp only [Service.fields, HealthCheck.fields, Logging.fields, Limits.deployFields,
    Limits.resourcesFields, Limits.fields, List.mem_cons, Table.mem_records_cons_record,
    Table.records_cons_of_leaf Shape.writes_scalar.records,
    Table.records_cons_of_leaf Shape.writes_words.records,
    Table.records_cons_of_leaf Shape.writes_command.records,
    Table.records_cons_of_leaf Shape.writes_dictionary.records,
    Table.records_cons_of_leaf Shape.writes_texts.records,
    Table.records_cons_of_leaf Shape.writes_names.records,
    Table.records_cons_of_leaf Shape.writes_flag.records,
    Table.records_cons_of_leaf (Shape.writes_rows succeeds_portOfEntries).records,
    Table.records_cons_of_leaf (Shape.writes_rows succeeds_mountOfEntries).records, hnil,
    List.not_mem_nil, or_false]
  simp only [recordPaths, List.mem_cons, List.not_mem_nil, or_false, exists_eq_or_imp,
    exists_eq_left, Entries.at?.eq_1, es.at?_cons "deploy" ["resources"],
    es.at?_cons "deploy" ["resources", "limits"], hlimits, Option.bind_eq_some_iff]
  simp only [Option.some.injEq, and_or_left, exists_or, exists_eq_right']
  exact or_congr_left eq_comm

/-! ## Fields -/

/-- What is done with the value of a reading makes no difference to its shape. -/
theorem Shape.Reads.map {σ : Shape} {absent : α} {read : Value → Checked α}
    (h : σ.Reads absent read) (f : α → β) : σ.Reads (f absent) fun v => f <$> read v where
  part hw := (h.part hw).map f
  absent hv := congrArg f (h.absent hv)
  issues := h.issues
  causes := h.causes

/-- A field of a record: the value under a key is read, and what comes of it is held. -/
structure RecordField {ρ : Type} (readRecord : Entries → Checked ρ) where
  Content : Type
  key : String
  shape : Shape
  absent : Content
  read : Value → Checked Content
  get : ρ → Content
  reads : shape.Reads absent read
  get_read : ∀ es, get (readRecord es).value = (es.under? key absent read).value

namespace RecordField

variable {ρ : Type} {readRecord readFields : Entries → Checked ρ}

/-- A field without records. -/
def leaf (key : String) {shape : Shape} {absent : α} {read : Value → Except NumberFault α}
    (get : ρ → α) (writes : shape.Writes absent read)
    (readRecord_eq : readRecord = fun es => es.withKeys (readFields es))
    (get_read : ∀ es, get (readFields es).value = (es.field key absent read).value) :
    RecordField readRecord where
  Content := α
  key := key
  shape := shape
  absent := absent
  read v := .ofWriting absent (read v)
  get := get
  reads := writes.reads
  get_read es := by rw [readRecord_eq, Entries.value_withKeys, get_read, Entries.field_eq]

/-- A field that holds something of what is read from a record. -/
def record (key : String) {T : Table} {read : Entries → Checked α} (f : Option α → β)
    (get : ρ → β) (describes : T.Describes read)
    (readRecord_eq : readRecord = fun es => es.withKeys (readFields es))
    (get_read : ∀ es, get (readFields es).value = f (es.record? key read).value) :
    RecordField readRecord where
  Content := β
  key := key
  shape := .record T
  absent := f none
  read v := f <$> Entries.recordOf? read v
  get := get
  reads := describes.reads.map f
  get_read es := by
    rw [readRecord_eq, Entries.value_withKeys, get_read, Entries.record?_eq, Entries.under?,
      Entries.under?]
    cases Value.lookup key es <;> rfl

/-- What a field holds is known from what stands under its key, and it is absent if nothing stands
there or nothing that it takes. -/
structure Isolated (f : RecordField readRecord) : Prop where
  agree : ∀ {es es'}, Value.lookup f.key es = Value.lookup f.key es' →
    f.get (readRecord es).value = f.get (readRecord es').value
  absent : ∀ {es}, (Value.lookup f.key es).bind f.shape.part = none →
    f.get (readRecord es).value = f.absent

/-- Whatever else a mapping holds, a field is what is read from under its key. -/
theorem isolated (f : RecordField readRecord) : f.Isolated where
  agree h := by rw [f.get_read, f.get_read, Entries.under?, Entries.under?, h]
  absent {es} h := by
    rw [f.get_read, Entries.under?]
    cases hv : Value.lookup f.key es with
    | none => rfl
    | some v =>
      rw [hv] at h
      exact f.reads.absent h

end RecordField

/-- The field of a health check. -/
def HealthCheck.allFields : List (RecordField HealthCheck.read) :=
  [.leaf "test" HealthCheck.test Shape.writes_words rfl fun _ => rfl]

/-- The field of a section on logging. -/
def Logging.allFields : List (RecordField Logging.read) :=
  [.leaf "driver" Logging.driver Shape.writes_scalar rfl fun _ => rfl]

/-- The fields of resource limits. -/
def Limits.allFields : List (RecordField Limits.read) := [
  .leaf "cpus" Limits.cpus Shape.writes_scalar rfl fun _ => rfl,
  .leaf "memory" Limits.memory Shape.writes_scalar rfl fun _ => rfl]

/-- The fields of a service. -/
def Service.allFields : List (RecordField Service.read) := [
  .leaf "image" Service.image Shape.writes_scalar rfl fun _ => rfl,
  .leaf "working_dir" Service.workingDir Shape.writes_scalar rfl fun _ => rfl,
  .leaf "user" Service.user Shape.writes_scalar rfl fun _ => rfl,
  .leaf "restart" Service.restart Shape.writes_scalar rfl fun _ => rfl,
  .leaf "command" Service.command Shape.writes_command rfl fun _ => rfl,
  .leaf "entrypoint" Service.entrypoint Shape.writes_command rfl fun _ => rfl,
  .leaf "environment" Service.environment Shape.writes_dictionary rfl fun _ => rfl,
  .leaf "env_file" Service.envFile Shape.writes_texts rfl fun _ => rfl,
  .leaf "ports" Service.ports (Shape.writes_rows succeeds_portOfEntries) rfl fun _ => rfl,
  .leaf "volumes" Service.volumes (Shape.writes_rows succeeds_mountOfEntries) rfl fun _ => rfl,
  .leaf "networks" Service.networks Shape.writes_names rfl fun _ => rfl,
  .leaf "depends_on" Service.dependsOn Shape.writes_names rfl fun _ => rfl,
  .record "healthcheck" id Service.healthcheck HealthCheck.describes rfl fun _ => rfl,
  .leaf "privileged" Service.privileged Shape.writes_flag rfl fun _ => rfl,
  .leaf "cap_add" Service.capAdd Shape.writes_texts rfl fun _ => rfl,
  .leaf "cap_drop" Service.capDrop Shape.writes_texts rfl fun _ => rfl,
  .leaf "devices" Service.devices Shape.writes_texts rfl fun _ => rfl,
  .leaf "dns" Service.dns Shape.writes_texts rfl fun _ => rfl,
  .leaf "extra_hosts" Service.extraHosts Shape.writes_texts rfl fun _ => rfl,
  .leaf "sysctls" Service.sysctls Shape.writes_dictionary rfl fun _ => rfl,
  .record "logging" id Service.logging Logging.describes rfl fun _ => rfl,
  .record "deploy" Option.join Service.limits Limits.describes_readDeploy rfl fun _ => rfl,
  .leaf "labels" Service.labels Shape.writes_dictionary rfl fun _ => rfl]

theorem Service.map_allFields :
    Service.allFields.map (fun f => (f.key, f.shape)) = Service.fields := rfl

/-- A service is what its fields hold. -/
theorem Service.ext_allFields {s s' : Service} (h : ∀ f ∈ Service.allFields, f.get s = f.get s') :
    s = s' := by
  cases s
  cases s'
  simpa [Service.allFields, RecordField.leaf, RecordField.record] using h

/-- The records in a service are read from the mappings at the ends of their paths. -/
theorem Service.records_read (es : Entries) :
    (Service.read es).value.healthcheck
        = (es.at? ["healthcheck"]).map (fun r => (HealthCheck.read r).value)
      ∧ (Service.read es).value.logging
        = (es.at? ["logging"]).map (fun r => (Logging.read r).value)
      ∧ (Service.read es).value.limits
        = (es.at? ["deploy", "resources", "limits"]).map fun r => (Limits.read r).value := by
  have hrecord {ρ : Type} (key : String) (read : Entries → Checked ρ) (r : Entries) :
      (r.record? key read).value = (r.at? [key]).map fun r => (read r).value := by
    rw [Entries.record?, Entries.at?]
    cases (Value.lookup key r).bind Value.entries? <;> rfl
  rw [Service.read, Entries.value_withKeys]
  refine ⟨hrecord "healthcheck" HealthCheck.read es, hrecord "logging" Logging.read es, ?_⟩
  -- The limits are handed up through the two records around them.
  show Option.join (es.record? "deploy" Limits.readDeploy).value = _
  rw [hrecord, es.at?_cons "deploy" ["resources", "limits"]]
  cases es.at? ["deploy"] with
  | none => rfl
  | some deploy =>
    show (Limits.readDeploy deploy).value = _
    rw [Limits.readDeploy, Entries.value_withKeys]
    show Option.join (deploy.record? "resources" Limits.readResources).value = _
    rw [hrecord, Option.bind_some, deploy.at?_cons "resources" ["limits"]]
    cases deploy.at? ["resources"] with
    | none => rfl
    | some resources =>
      exact (Entries.value_withKeys resources _).trans (hrecord "limits" Limits.read resources)

/-! ## What keeps a service from being read -/

theorem Service.succeeds_ofValue_iff {v : Value} {es : Entries} (hes : v.entries? = some es) :
    Succeeds (Service.ofValue v) ↔ (∀ r ∈ es :: Service.fields.records es, r.TextKeys)
      ∧ ∀ w ∈ Service.fields.written es, w.Writable := by
  rw [ofValue, hes, ← Service.describes.issues es]
  constructor
  · rintro ⟨s, hs⟩
    exact Checked.issues_of_result hs
  · intro hissues
    exact ⟨_, Checked.result_of_issues_eq_nil "ServiceSpec" hissues⟩

/-- A service that is read is what the fields of the mapping are read to. -/
theorem Service.eq_value_of_ofValue {v : Value} {es : Entries} {s : Service}
    (hes : v.entries? = some es) (hs : Service.ofValue v = .ok s) : s = (Service.read es).value := by
  rw [ofValue, hes] at hs
  exact Checked.eq_value_of_result hs

/-- A service is read field by field.  A mapping fails to be read exactly if it or one of the
mappings in it that are read as records has a key that is no text or a text that has no encoding, or
if a value that a field writes out has an integer in it with more digits than are ever written.
Where it does not fail, each field is what stands under its own key makes it, so mappings that agree
there agree on the field; and it is absent if nothing stands there or nothing that the field takes.
The records in a service are read in the same way, from the mappings at the ends of their paths.
The fields are those of the table, and together they are the service. -/
theorem Service.ofValue_isolated {v : Value} {es : Entries} (hes : v.entries? = some es) :
    (¬ Succeeds (Service.ofValue v) ↔
        (∃ path ∈ Service.recordPaths, ∃ r, es.at? path = some r
            ∧ ∃ e ∈ r, ∀ s, e.1 = .str s → ¬ Text.isUnicode s)
        ∨ ∃ w ∈ Service.fields.written es, ∃ n ∈ w.writtenIntegers,
            digitLimit < (Nat.toDigits 10 n.natAbs).length)
      ∧ (∀ s, Service.ofValue v = .ok s →
          (∀ f ∈ Service.allFields,
            (∀ v' es' s', v'.entries? = some es' → Service.ofValue v' = .ok s' →
              Value.lookup f.key es = Value.lookup f.key es' → f.get s = f.get s')
            ∧ ((Value.lookup f.key es).bind f.shape.part = none → f.get s = f.absent))
          ∧ s.healthcheck = (es.at? ["healthcheck"]).map (fun r => (HealthCheck.read r).value)
          ∧ s.logging = (es.at? ["logging"]).map (fun r => (Logging.read r).value)
          ∧ s.limits
            = (es.at? ["deploy", "resources", "limits"]).map fun r => (Limits.read r).value)
      ∧ ((∀ f ∈ HealthCheck.allFields, f.Isolated) ∧ (∀ f ∈ Logging.allFields, f.Isolated)
        ∧ ∀ f ∈ Limits.allFields, f.Isolated)
      ∧ Service.allFields.map (fun f => (f.key, f.shape)) = Service.fields
      ∧ ∀ s s' : Service, (∀ f ∈ Service.allFields, f.get s = f.get s') → s = s' := by
  refine ⟨?_, fun s hs => ?_, ⟨fun f _ => f.isolated, fun f _ => f.isolated, fun f _ => f.isolated⟩,
    Service.map_allFields, fun s s' => Service.ext_allFields⟩
  · rw [Service.succeeds_ofValue_iff hes, not_and_or]
    refine or_congr ?_ ?_
    · simp only [not_forall, exists_prop, Service.mem_cons_records_iff, Entries.not_textKeys_iff]
      constructor
      · rintro ⟨r, ⟨path, hpath, hr⟩, hkey⟩
        exact ⟨path, hpath, r, hr, hkey⟩
      · rintro ⟨path, hpath, r, hr, hkey⟩
        exact ⟨r, ⟨path, hpath, hr⟩, hkey⟩
    · simp only [Value.writable_iff, not_forall, exists_prop, Nat.not_le]
  · obtain rfl := Service.eq_value_of_ofValue hes hs
    refine ⟨fun f _ => ⟨fun v' es' s' hes' hs' hkey => ?_, f.isolated.absent⟩,
      Service.records_read es⟩
    obtain rfl := Service.eq_value_of_ofValue hes' hs'
    exact f.isolated.agree hkey

/-- A service with a user. -/
def imageOfUser : Entries := [(.str "image", .str "app"), (.str "user", .int 1000)]

/-- The same image for nobody, with labels that are none and a test that is none. -/
def imageOfNobody : Entries :=
  [(.str "labels", .int 42), (.str "image", .str "app"),
    (.str "healthcheck", .map [(.str "test", .map [])])]

/-- Both services are read, and have the same image. -/
theorem Service.ofValue_isolated_image : ∃ s s',
    Service.ofValue (.map imageOfUser) = .ok s ∧ Service.ofValue (.map imageOfNobody) = .ok s'
      ∧ s.image = s'.image ∧ s'.healthcheck = some ⟨none⟩ := by
  obtain ⟨s, hs⟩ : Succeeds (Service.ofValue (.map imageOfUser)) := by decide
  obtain ⟨s', hs'⟩ : Succeeds (Service.ofValue (.map imageOfNobody)) := by decide
  obtain ⟨-, hisolated, -⟩ := Service.ofValue_isolated (rfl : (Value.map imageOfUser).entries? = _)
  obtain ⟨-, hisolated', -⟩ :=
    Service.ofValue_isolated (rfl : (Value.map imageOfNobody).entries? = _)
  obtain ⟨hagree, -⟩ := (hisolated s hs).1 _ List.mem_cons_self
  obtain ⟨-, hhealthcheck, -⟩ := hisolated' s' hs'
  exact ⟨s, s', hs, hs', hagree _ imageOfNobody s' rfl hs' rfl, hhealthcheck⟩

/-- A mapping with one key, a surrogate. -/
def tornEntries : Entries := [(.str (Text.ofPoints [.ofCode 0xD800]), .int 1)]

/-- No service is read from it, though it is the only record, its key is a text, and nothing is
written out. -/
theorem Service.not_ofValue_tornEntries : ¬ Succeeds (Service.ofValue (.map tornEntries))
    ∧ Service.recordPaths.filterMap tornEntries.at? = [tornEntries]
    ∧ (∀ e ∈ tornEntries, ∃ s, e.1 = .str s) ∧ Service.fields.written tornEntries = [] :=
  ⟨by decide, rfl, by simp [tornEntries], rfl⟩

end ComposeNix
