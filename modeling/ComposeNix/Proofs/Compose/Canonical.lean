import ComposeNix.Proofs.Compose.Fields
import ComposeNix.Proofs.Compose.Manifest
import ComposeNix.Proofs.Dictionary
import ComposeNix.Proofs.Value.Forms

/-!
# Reading a canonical form

What was read can be written out as a document, with every field in the one form that it was
brought to and null for what is absent: `Service.entries`, `Manifest.toValue`.  Such a document is
read as what it was written from, because every reading leaves alone what it has itself brought to
its form (`Settles`).

For a field this is seen from its shapes.  It is handed on to a record, which is read as the one
before if all its fields are (`Again`), to the records inside a service, to the services under
their names, and to the whole manifest (`ofValue_toValue`).
-/

namespace ComposeNix

variable {α β : Type}

/-! ## Writing what was read -/

namespace Value

/-- What may be absent, with null for what is. -/
def ofOption (write : α → Value) (a? : Option α) : Value := (a?.map write).getD .null

/-- A list of texts. -/
def ofTexts (texts : List String) : Value := .list (texts.map .str)

/-- Texts under texts, as a mapping. -/
def ofDictionary (d : Dictionary String) : Value := .map (d.map fun e => (.str e.1, .str e.2))

end Value

open Value (ofOption ofTexts ofDictionary)

def HealthCheck.entries (h : HealthCheck) : Entries := [(.str "test", ofOption .str h.test)]

def Logging.entries (l : Logging) : Entries := [(.str "driver", ofOption .str l.driver)]

def Limits.entries (l : Limits) : Entries :=
  [(.str "cpus", ofOption .str l.cpus), (.str "memory", ofOption .str l.memory)]

/-- A section on resources with these limits. -/
def Limits.resourcesEntries (limits : Option Limits) : Entries :=
  [(.str "limits", ofOption (fun l => .map l.entries) limits)]

/-- A section on deployment with these limits. -/
def Limits.deployEntries (limits : Option Limits) : Entries :=
  [(.str "resources", .map (resourcesEntries limits))]

/-- A service with every field in its canonical form. -/
def Service.entries (s : Service) : Entries := [
  (.str "image", ofOption .str s.image),
  (.str "working_dir", ofOption .str s.workingDir),
  (.str "user", ofOption .str s.user),
  (.str "restart", ofOption .str s.restart),
  (.str "command", ofOption ofTexts s.command),
  (.str "entrypoint", ofOption ofTexts s.entrypoint),
  (.str "environment", ofOption ofDictionary s.environment),
  (.str "env_file", ofOption ofTexts s.envFile),
  (.str "ports", ofOption ofTexts s.ports),
  (.str "volumes", ofOption ofTexts s.volumes),
  (.str "networks", ofOption ofTexts s.networks),
  (.str "depends_on", ofOption ofTexts s.dependsOn),
  (.str "healthcheck", ofOption (fun h => .map h.entries) s.healthcheck),
  (.str "privileged", .bool s.privileged),
  (.str "cap_add", ofOption ofTexts s.capAdd),
  (.str "cap_drop", ofOption ofTexts s.capDrop),
  (.str "devices", ofOption ofTexts s.devices),
  (.str "dns", ofOption ofTexts s.dns),
  (.str "extra_hosts", ofOption ofTexts s.extraHosts),
  (.str "sysctls", ofOption ofDictionary s.sysctls),
  (.str "logging", ofOption (fun l => .map l.entries) s.logging),
  (.str "deploy", .map (Limits.deployEntries s.limits)),
  (.str "labels", ofOption ofDictionary s.labels)]

/-- The services of a manifest under their names. -/
def Manifest.ofServices (services : Dictionary Service) : Value :=
  .map (services.map fun e => (.str e.1, .map e.2.entries))

def Manifest.entries (m : Manifest) : Entries := [
  (.str "name", ofOption .str m.name),
  (.str "volumes", ofTexts m.volumes),
  (.str "networks", ofTexts m.networks),
  (.str "services", ofServices m.services)]

/-- A manifest with every field in its canonical form. -/
def Manifest.toValue (m : Manifest) : Value := .map m.entries

/-! ## Readings that leave their results alone -/

/-- What is read without complaint, or counts as absent, is read from what is written for it. -/
structure Settles (absent : α) (write : α → Value) (read : Value → Checked α) : Prop where
  absent : read (write absent) = pure absent
  again : ∀ {v}, (read v).issues = [] → read (write (read v).value) = pure (read v).value

namespace Checked

theorem all_map_pure (as : List α) : all (as.map pure) = pure as := by
  induction as with
  | nil => rfl
  | cons a as ih =>
    rw [List.map_cons, all, ih]
    rfl

end Checked

namespace Settles

variable {write : α → Value}

/-- Where the text form is all that can go wrong, it is enough that every result is read again. -/
theorem ofWriting {absent : α} {read : Value → Except NumberFault α}
    (habsent : read (write absent) = .ok absent)
    (hagain : ∀ {v a}, read v = .ok a → read (write a) = .ok a) :
    Settles absent write fun v => .ofWriting absent (read v) where
  absent := by rw [habsent, Checked.ofWriting]
  again {v} hv := by
    cases hread : read v with
    | error fault =>
      rw [hread] at hv
      cases hv
    | ok a =>
      change Checked.ofWriting absent (read (write a)) = pure a
      rw [hagain hread, Checked.ofWriting]

/-- A field that is absent unless it has the right shape. -/
theorem optional {read : Value → Except NumberFault (Option α)} (hnull : read .null = .ok none)
    (hagain : ∀ {v a}, read v = .ok (some a) → read (write a) = .ok (some a)) :
    Settles none (ofOption write) fun v => .ofWriting none (read v) :=
  ofWriting hnull fun {_ a?} ha => by
    cases a? with
    | none => exact hnull
    | some a => exact hagain ha

end Settles

/-! ## The shapes of a field -/

section Shapes

open Value

theorem settles_scalar : Settles none (ofOption .str) fun v => .ofWriting none v.scalarText? :=
  .optional rfl fun _ => rfl

theorem settles_command : Settles none (ofOption ofTexts) fun v => .ofWriting none v.command? :=
  .optional rfl fun {_ texts} _ => congrArg (Except.map some) (itemTexts_map_str texts)

theorem settles_texts : Settles none (ofOption ofTexts) fun v => .ofWriting none v.texts? :=
  .optional rfl fun {_ texts} _ => congrArg (Except.map some) (itemTexts_map_str texts)

theorem settles_names : Settles none (ofOption ofTexts) fun v => .ofWriting none v.names? :=
  .optional rfl fun {_ texts} _ => congrArg (Except.map some) (itemTexts_map_str texts)

theorem exists_eq_ofEntries {v : Value} {d : Dictionary String} (h : v.dictionary? = .ok (some d)) :
    ∃ entries, d = .ofEntries entries := by
  rw [dictionary?] at h
  split at h
  · next items _ =>
    obtain ⟨_, hpairs, h⟩ := map_eq_ok_iff.mp h
    obtain ⟨texts, -, rfl⟩ := map_eq_ok_iff.mp hpairs
    exact ⟨_, (Option.some.inj h).symm⟩
  · next es _ =>
    obtain ⟨texts, -, h⟩ := map_eq_ok_iff.mp h
    exact ⟨texts, (Option.some.inj h).symm⟩
  · cases h

/-- No key is twice in a dictionary, so it is read in its own order. -/
theorem settles_dictionary :
    Settles none (ofOption ofDictionary) fun v => .ofWriting none v.dictionary? :=
  .optional rfl fun {v d} h => by
    obtain ⟨entries, rfl⟩ := exists_eq_ofEntries h
    have hself := Dictionary.ofEntries_eq_self (Dictionary.nodup_keys_ofEntries entries)
    rw [ofDictionary, dictionary?_of_spells (spells_map _), hself]

theorem settles_words : Settles none (ofOption .str) fun v => .ofWriting none (testCommand? v) :=
  .optional rfl fun _ => rfl

theorem settles_flag : Settles false .bool fun v => .ofWriting false (isYes v) :=
  have hagain : ∀ b, isYes (.bool b) = .ok b := by decide
  .ofWriting (hagain false) fun _ => hagain _

/-- Ports and mounts that are written out are in their short form. -/
theorem entryTexts_map_str (long : Entries → Except NumberFault (Option String))
    (texts : List String) : ComposeNix.entryTexts long (texts.map .str) = .ok texts := by
  induction texts with
  | nil => rfl
  | cons s texts ih =>
    rw [List.map_cons, ComposeNix.entryTexts, ih]
    rfl

theorem settles_rows (long : Entries → Except NumberFault (Option String)) :
    Settles none (ofOption ofTexts) fun v => .ofWriting none (longList? long v) :=
  .optional rfl fun {_ texts} _ =>
    congrArg (Except.map some) (ComposeNix.entryTexts_map_str long texts)

end Shapes

/-! ## Records -/

/-- A mapping that is read as another one is, if nothing is wrong with that. -/
def Again (read : Entries → Checked α) (es es' : Entries) : Prop :=
  (read es).issues = [] → read es' = pure (read es).value

namespace Again

variable {es es' : Entries} {absent : α} {write : α → Value} {key : String}

theorem map {read : Entries → Checked α} (h : Again read es es') (f : α → β) :
    Again (fun es => f <$> read es) es es' := fun hes => congrArg (f <$> ·) (h hes)

theorem seq {f : Entries → Checked (α → β)} {x : Entries → Checked α} (hf : Again f es es')
    (hx : Again x es es') : Again (fun es => f es <*> x es) es es' := fun hes => by
  obtain ⟨hfes, hxes⟩ := List.append_eq_nil_iff.mp hes
  change f es' <*> x es' = _
  rw [hf hfes, hx hxes]
  rfl

/-- The keys of what is written are texts that have an encoding. -/
theorem withKeys {read : Entries → Checked α} (entries : α → Entries)
    (hkeys : ∀ a, (entries a).TextKeys) (h : Again read es (entries (read es).value)) :
    Again (fun es => es.withKeys (read es)) es (entries (es.withKeys (read es)).value) :=
  fun hes => by
    obtain ⟨hread, -⟩ := Checked.issues_withKeys_eq_nil_iff.mp hes
    have hself :=
      Checked.withKeys_of_textKeys (hkeys (read es).value) (read (entries (read es).value))
    simp only [Entries.value_withKeys]
    rw [hself, h hread]

variable (es es')

/-- A field that settles is read again where its canonical form stands under its key. -/
theorem under? {read : Value → Checked α} (h : Settles absent write read)
    (hwritten : Value.lookup key es' = some (write (es.under? key absent read).value)) :
    Again (fun es => es.under? key absent read) es es' := fun hes => by
  have hagain : read (write (es.under? key absent read).value)
      = pure (es.under? key absent read).value := by
    cases hlookup : Value.lookup key es with
    | none =>
      have habsent : es.under? key absent read = pure absent := by rw [Entries.under?, hlookup]
      rw [habsent]
      exact h.absent
    | some v =>
      have hfound : es.under? key absent read = (read v).under key := by
        rw [Entries.under?, hlookup]
      have hread : ((read v).under key).issues = [] := hfound ▸ hes
      rw [hfound]
      exact h.again (Checked.issues_under_eq_nil.mp hread)
  change es'.under? key absent read = _
  rw [Entries.under?, hwritten]
  change (read (write _)).under key = _
  rw [hagain]
  rfl

theorem field {read : Value → Except NumberFault α} (key : String)
    (h : Settles absent write fun v => .ofWriting absent (read v))
    (hwritten : Value.lookup key es' = some (write (es.field key absent read).value)) :
    Again (fun es => es.field key absent read) es es' := by
  rw [Entries.field_eq] at hwritten
  simp only [Entries.field_eq]
  exact under? es es' h hwritten

theorem record? {read : Entries → Checked α} {write : Option α → Value} (key : String)
    (h : Settles none write (Entries.recordOf? read))
    (hwritten : Value.lookup key es' = some (write (es.record? key read).value)) :
    Again (fun es => es.record? key read) es es' := by
  rw [Entries.record?_eq] at hwritten
  simp only [Entries.record?_eq]
  exact under? es es' h hwritten

/-- A section that is there only for what is in it. -/
theorem within? {read : Entries → Checked (Option α)} {write : Option α → Value} (key : String)
    (h : Settles none write fun v => Option.join <$> Entries.recordOf? read v)
    (hwritten : Value.lookup key es' = some (write (es.record? key read).value.join)) :
    Again (fun es => Option.join <$> es.record? key read) es es' := by
  have hjoin : ∀ es : Entries, Option.join <$> es.record? key read
      = es.under? key none fun v => Option.join <$> Entries.recordOf? read v := by
    intro es
    rw [Entries.record?_eq, Entries.under?, Entries.under?]
    cases Value.lookup key es <;> rfl
  simp only [hjoin]
  refine under? es es' h ?_
  rw [← hjoin]
  exact hwritten

end Again

namespace Settles

/-- A record that is absent where there is no mapping. -/
theorem record {read : Entries → Checked α} {entries : α → Entries}
    (h : ∀ es, Again read es (entries (read es).value)) :
    Settles none (ofOption fun a => .map (entries a)) (Entries.recordOf? read) where
  absent := rfl
  again {v} hv := by
    cases hes : v.entries? with
    | none =>
      rw [Entries.recordOf?_of_eq_none hes]
      rfl
    | some es =>
      rw [Entries.recordOf?_of_eq_some hes] at hv ⊢
      exact congrArg (some <$> ·) (h es hv)

/-- A section that is always there and may be without content. -/
theorem within {read : Entries → Checked (Option α)} {entries : Option α → Entries}
    (habsent : read (entries none) = pure none)
    (h : ∀ es, Again read es (entries (read es).value)) :
    Settles none (fun a? => .map (entries a?))
      fun v => Option.join <$> Entries.recordOf? read v where
  absent := congrArg (fun c => Option.join <$> some <$> c) habsent
  again {v} hv := by
    cases hes : v.entries? with
    | none =>
      rw [Entries.recordOf?_of_eq_none hes]
      exact congrArg (fun c => Option.join <$> some <$> c) habsent
    | some es =>
      rw [Entries.recordOf?_of_eq_some hes] at hv ⊢
      exact congrArg (fun c => Option.join <$> some <$> c) (h es hv)

end Settles

theorem HealthCheck.again_read (es : Entries) :
    Again HealthCheck.read es (HealthCheck.read es).value.entries :=
  .withKeys HealthCheck.entries (fun _ => Entries.textKeys_iff.mpr ⟨rfl, rfl⟩)
    ((Again.field es _ "test" settles_words rfl).map HealthCheck.mk)

theorem Logging.again_read (es : Entries) : Again Logging.read es (Logging.read es).value.entries :=
  .withKeys Logging.entries (fun _ => Entries.textKeys_iff.mpr ⟨rfl, rfl⟩)
    ((Again.field es _ "driver" settles_scalar rfl).map Logging.mk)

theorem Limits.again_read (es : Entries) : Again Limits.read es (Limits.read es).value.entries :=
  .withKeys Limits.entries (fun _ => Entries.textKeys_iff.mpr ⟨rfl, rfl⟩)
    (((Again.field es _ "cpus" settles_scalar rfl).map Limits.mk).seq
      (.field es _ "memory" settles_scalar rfl))

theorem Limits.again_readResources (es : Entries) :
    Again Limits.readResources es (resourcesEntries (Limits.readResources es).value) :=
  .withKeys resourcesEntries (fun _ => Entries.textKeys_iff.mpr ⟨rfl, rfl⟩)
    (Again.record? es _ "limits" (.record Limits.again_read) rfl)

theorem Limits.again_readDeploy (es : Entries) :
    Again Limits.readDeploy es (deployEntries (Limits.readDeploy es).value) :=
  .withKeys deployEntries (fun _ => Entries.textKeys_iff.mpr ⟨rfl, rfl⟩)
    (Again.within? es _ "resources" (.within rfl Limits.again_readResources) rfl)

theorem Service.again_read (es : Entries) :
    Again Service.read es (Service.read es).value.entries :=
  .withKeys Service.entries (fun _ => Entries.textKeys_iff.mpr ⟨rfl, rfl⟩)
    ((Again.field es _ "image" settles_scalar rfl).map Service.mk
      |>.seq (.field es _ "working_dir" settles_scalar rfl)
      |>.seq (.field es _ "user" settles_scalar rfl)
      |>.seq (.field es _ "restart" settles_scalar rfl)
      |>.seq (.field es _ "command" settles_command rfl)
      |>.seq (.field es _ "entrypoint" settles_command rfl)
      |>.seq (.field es _ "environment" settles_dictionary rfl)
      |>.seq (.field es _ "env_file" settles_texts rfl)
      |>.seq (.field es _ "ports" (settles_rows _) rfl)
      |>.seq (.field es _ "volumes" (settles_rows _) rfl)
      |>.seq (.field es _ "networks" settles_names rfl)
      |>.seq (.field es _ "depends_on" settles_names rfl)
      |>.seq (.record? es _ "healthcheck" (.record HealthCheck.again_read) rfl)
      |>.seq (.field es _ "privileged" settles_flag rfl)
      |>.seq (.field es _ "cap_add" settles_texts rfl)
      |>.seq (.field es _ "cap_drop" settles_texts rfl)
      |>.seq (.field es _ "devices" settles_texts rfl)
      |>.seq (.field es _ "dns" settles_texts rfl)
      |>.seq (.field es _ "extra_hosts" settles_texts rfl)
      |>.seq (.field es _ "sysctls" settles_dictionary rfl)
      |>.seq (.record? es _ "logging" (.record Logging.again_read) rfl)
      |>.seq (.within? es _ "deploy" (.within rfl Limits.again_readDeploy) rfl)
      |>.seq (.field es _ "labels" settles_dictionary rfl))

/-! ## Services and manifests -/

namespace Manifest

theorem bodies_map (services : Dictionary Service) :
    bodies (services.map fun e => (.str e.1, .map e.2.entries))
      = .ok (services.map fun e => (e.1, e.2.entries)) := by
  induction services with
  | nil => rfl
  | cons e services ih =>
    rw [List.map_cons, bodies, ih]
    rfl

/-- Services under different names are read again if each of them is. -/
theorem readServices_ofServices {services : Dictionary Service}
    (hnodup : (Dictionary.keys services).Nodup)
    (hagain : ∀ e ∈ services, Service.read e.2.entries = pure e.2) :
    readServices (ofServices services) = pure services := by
  have hself : Dictionary.ofEntries (services.map fun e => (e.1, e.2.entries))
      = services.map fun e => (e.1, e.2.entries) :=
    Dictionary.ofEntries_eq_self (by rwa [List.map_map])
  have hrows : services.map ((fun e => ((e.1, ·) <$> Service.read e.2).under e.1)
      ∘ fun e => (e.1, e.2.entries)) = services.map pure :=
    List.map_congr_left fun e he => by
      rw [Function.comp_apply, hagain e he]
      rfl
  have hbodies : bodies (body (ofServices services))
      = .ok (services.map fun e => (e.1, e.2.entries)) := bodies_map services
  rw [readServices_eq, hbodies]
  simp only
  rw [hself, List.map_map, hrows, Checked.all_map_pure]

theorem settles_services : Settles [] ofServices readServices where
  absent := rfl
  again {v} hv := by
    obtain ⟨named, hnamed, hread⟩ := issues_readServices_eq_nil.mp hv
    rw [value_readServices hnamed]
    refine readServices_ofServices ?_ ?_
    · rw [Dictionary.keys, List.map_map]
      exact Dictionary.nodup_keys_ofEntries named
    · rw [List.forall_mem_map]
      exact fun e he => Service.again_read e.2 (hread e he)

theorem settles_declaredNames :
    Settles [] ofTexts fun v => .ofWriting [] (declaredNames v) :=
  have hagain : ∀ texts, declaredNames (ofTexts texts) = .ok texts := fun texts =>
    congrArg (fun names => (names.map some).map (·.getD [])) (Value.itemTexts_map_str texts)
  .ofWriting (hagain []) fun _ => hagain _

/-- The services have to be there, and then they are read as any other field. -/
theorem again_servicesField (es es' : Entries)
    (hwritten : Value.lookup "services" es' = some (ofServices (servicesField es).value)) :
    Again servicesField es es' := fun hes => by
  have hthere : (Value.lookup "services" es).isSome := by
    cases hlookup : Value.lookup "services" es with
    | none =>
      rw [servicesField, hlookup] at hes
      cases hes
    | some v => rfl
  rw [servicesField_eq (hwritten ▸ rfl)]
  rw [servicesField_eq hthere] at hes hwritten ⊢
  exact Again.under? es es' settles_services hwritten hes

theorem again_read (es : Entries) : Again read es (read es).value.entries :=
  .withKeys entries (fun _ => Entries.textKeys_iff.mpr ⟨rfl, rfl⟩)
    ((again_servicesField es _ rfl).map Manifest.mk
      |>.seq (.field es _ "volumes" settles_declaredNames rfl)
      |>.seq (.field es _ "networks" settles_declaredNames rfl)
      |>.seq (.field es _ "name" settles_scalar rfl))

/-- A manifest that was read is read as itself from what is written for it. -/
theorem ofValue_toValue {v : Value} {m : Manifest} (h : ofValue v = .ok m) :
    ofValue m.toValue = .ok m := by
  rw [ofValue] at h
  cases hes : v.entries? with
  | none =>
    rw [hes] at h
    cases h
  | some es =>
    rw [hes] at h
    obtain rfl := Checked.eq_value_of_result h
    have hread := again_read es (Checked.issues_of_result h)
    change (read (read es).value.entries).result "ComposeManifest" = _
    rw [hread]
    rfl

/-- A manifest with most fields in a form that is not the canonical one. -/
def mixedShapes : Value := .map [
  (.str "name", .int 7),
  (.str "volumes", .map [(.str "data", .null)]),
  (.str "services", .map [
    (.int 1, .map [
      (.str "command", .str " run  it "),
      (.str "environment", .list [.str "A=1", .str "B", .str "A=x=y", .null]),
      (.str "env_file", .str ".env"),
      (.str "ports", .list [.map [(.str "published", .int 8080), (.str "target", .int 80)]]),
      (.str "healthcheck", .map [(.str "test", .list [.str "CMD", .bool true])]),
      (.str "privileged", .str "TRUE"),
      (.str "dns", .list []),
      (.str "deploy", .map [(.str "resources", .map [(.str "limits", .map [
        (.str "cpus", .int 2)])])])]),
    (.null, .null)])]

/-- This manifest is read, and read again from what is written for it. -/
theorem ofValue_toValue_mixedShapes : ∃ m, ofValue mixedShapes = .ok m
    ∧ ofValue m.toValue = .ok m := by
  obtain ⟨m, hm⟩ : Succeeds (ofValue mixedShapes) := by decide +kernel
  exact ⟨m, hm, ofValue_toValue hm⟩

end Manifest
end ComposeNix
