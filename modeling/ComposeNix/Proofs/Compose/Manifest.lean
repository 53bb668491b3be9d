import ComposeNix.Proofs.Compose.Service
import ComposeNix.Proofs.Conversion

/-!
# How much a manifest is read from

Reading a manifest is forgiving.  A key that nobody knows and a value of a shape that nobody wants
leave no trace: a manifest that is read is the manifest of what its fields make use of
(`ofText_eq_ok_iff`).  Two things are not forgiven.  The keys of a record have to be texts with an
encoding, even those that nobody knows, whereas a service may be called by anything that can be
written out; and what is written out must not have an integer in it that is too long.
-/

namespace ComposeNix

open Table Shape

/-! ## Services -/

namespace Manifest

/-- The body of a service, where anything but a mapping is as good as an empty one. -/
def body (v : Value) : Entries := v.entries?.getD []

theorem bodies_eq (es : Entries) :
    bodies es = es.mapM fun e => do
      let name ← e.1.plainText
      return (name, body e.2) := by
  induction es with
  | nil => rfl
  | cons e es ih =>
    rw [bodies, ih, List.mapM_cons]
    cases e.1.plainText <;> rfl

theorem succeeds_bodies {es : Entries} :
    Succeeds (bodies es) ↔ ∀ w ∈ es.map Prod.fst, w.Writable := by
  rw [bodies_eq, succeeds_mapM, List.forall_mem_map]
  exact forall₂_congr fun e _ => succeeds_bind_pure

/-- The bodies of services under their names, of two with the same name the later one. -/
def named (v : Value) : Dictionary Entries :=
  match bodies (body v) with
  | .ok named => .ofEntries named
  | .error _ => []

/-- A service with what is made use of in its body. -/
def keepBody (e : Value × Value) : Value × Value :=
  (e.1, .map (Service.fields.keep (body e.2)))

theorem bodies_keepBody (es : Entries) :
    bodies (es.map keepBody)
      = (bodies es).map (List.map fun e => (e.1, Service.fields.keep e.2)) := by
  induction es with
  | nil => rfl
  | cons e es ih =>
    rw [List.map_cons, bodies, bodies, keepBody, ih]
    cases e.1.plainText with
    | error fault => rfl
    | ok name => cases bodies es <;> rfl

/-- A mapping of services. -/
def servicesShape : Shape where
  part v := v.entries?.map fun es => .map (es.map keepBody)
  written v :=
    (body v).map Prod.fst ++ (named v).flatMap fun e => Service.fields.written e.2
  records v := (named v).flatMap fun e => e.2 :: Service.fields.records e.2

theorem readServices_eq (v : Value) :
    readServices v = match bodies (body v) with
      | .error fault => .issue [] [] (.unwritable fault)
      | .ok named => .all ((Dictionary.ofEntries named).map fun e =>
          ((e.1, ·) <$> Service.read e.2).under e.1) := rfl

/-- The services are read from the bodies under their names. -/
theorem value_readServices {v : Value} {named : List (String × Entries)}
    (h : bodies (body v) = .ok named) : (readServices v).value
      = (Dictionary.ofEntries named).map fun e => (e.1, (Service.read e.2).value) := by
  rw [readServices_eq, h]
  exact (Checked.value_all _).trans List.map_map

theorem issues_readServices_eq_nil {v : Value} : (readServices v).issues = []
    ↔ ∃ named, bodies (body v) = .ok named
        ∧ ∀ e ∈ Dictionary.ofEntries named, (Service.read e.2).issues = [] := by
  rw [readServices_eq]
  cases bodies (body v) with
  | error fault => exact iff_of_false (List.cons_ne_nil _ _) fun ⟨_, h, _⟩ => nomatch h
  | ok named =>
    simp only [Checked.issues_all, List.flatMap_eq_nil_iff, List.forall_mem_map,
      Checked.issues_under_eq_nil, Checked.issues_map, Except.ok.injEq, exists_eq_left']

theorem reads_services : servicesShape.Reads [] readServices where
  part {v w} hw := by
    obtain ⟨es, hes, rfl⟩ := Option.map_eq_some_iff.mp hw
    have hkept : (Value.map (es.map keepBody)).entries? = some (es.map keepBody) := rfl
    rw [readServices_eq, readServices_eq, body, body, hes, hkept, Option.getD_some,
      Option.getD_some, bodies_keepBody]
    cases bodies es with
    | error fault => exact .rfl
    | ok named =>
      simp only [Except.map, Dictionary.ofEntries_map, List.map_map]
      exact .all fun e _ => ((Service.describes.keep e.2).map _).under _
  absent {v} hv := by
    rw [readServices_eq, body, Option.map_eq_none_iff.mp hv]
    rfl
  issues v := by
    simp only [servicesShape, List.forall_mem_append, ← succeeds_bodies, List.forall_mem_flatMap]
    rw [readServices_eq, named]
    cases bodies (body v) with
    | error fault =>
      exact iff_of_false (List.cons_ne_nil _ _) fun h => not_succeeds_error fault h.2.1
    | ok named =>
      simp only [Checked.issues_all, List.flatMap_eq_nil_iff, List.forall_mem_map,
        Checked.issues_under_eq_nil, Checked.issues_map, Service.describes.issues, succeeds_ok,
        true_and, forall_and]
  causes v := by
    rw [readServices_eq]
    cases bodies (body v) with
    | error fault =>
      intro i hi
      obtain rfl := List.mem_singleton.mp hi
      exact .number fault
    | ok named =>
      simp only [Checked.issues_all, List.forall_mem_flatMap, List.forall_mem_map]
      intro e _
      refine Checked.aboutText_under ?_
      rw [Checked.issues_map]
      exact Service.describes.causes e.2

/-! ## Manifests -/

/-- What a manifest makes use of. -/
def fields : Table := [
  ("services", servicesShape), ("volumes", .names), ("networks", .names), ("name", .scalar)]

/-- The reading of a manifest that lists services. -/
def readListed (es : Entries) : Checked Manifest :=
  es.withKeys (Manifest.mk
    <$> es.under? "services" [] readServices
    <*> es.field "volumes" [] declaredNames
    <*> es.field "networks" [] declaredNames
    <*> es.field "name" none Value.scalarText?)

theorem servicesField_eq {es : Entries} (h : (Value.lookup "services" es).isSome) :
    servicesField es = es.under? "services" [] readServices := by
  obtain ⟨v, hv⟩ := Option.isSome_iff_exists.mp h
  simp only [servicesField, Entries.under?, hv]

theorem read_eq {es : Entries} (h : (Value.lookup "services" es).isSome) :
    read es = readListed es := by
  rw [read, readListed, servicesField_eq h]

theorem writes_declaredNames : names.Writes [] declaredNames := writes_names.map (·.getD [])

theorem nodup_keys_fields : (fields.map Prod.fst).Nodup := by decide

theorem describes : fields.Describes readListed :=
  Reads.describes
    ((Reads.under? reads_services "services").map Manifest.mk
      |>.seq (.field writes_declaredNames "volumes")
      |>.seq (.field writes_declaredNames "networks")
      |>.seq (.field writes_scalar "name"))
    nodup_keys_fields (by decide)

theorem ofDocument_eq {v : Value} {es : Entries} (hes : v.entries? = some es)
    (hservices : ((Value.lookup "services" es).bind Value.entries?).isSome) :
    ofDocument v = ((readListed es).result "ComposeManifest").mapError .invalid := by
  have hlookup : (Value.lookup "services" es).isSome := Option.isSome_of_isSome_bind hservices
  rw [ofDocument, hes]
  simp only [hservices, if_true, read_eq hlookup]

/-- What is kept of a manifest that lists services lists services. -/
theorem services_keep {es : Entries}
    (hservices : ((Value.lookup "services" es).bind Value.entries?).isSome) :
    ((Value.lookup "services" (fields.keep es)).bind Value.entries?).isSome := by
  have hkeep : Value.lookup "services" (fields.keep es)
      = (Value.lookup "services" es).bind servicesShape.part :=
    lookup_keep nodup_keys_fields List.mem_cons_self es
  obtain ⟨bodies, hbodies⟩ := Option.isSome_iff_exists.mp hservices
  obtain ⟨v, hv, hbodies⟩ := Option.bind_eq_some_iff.mp hbodies
  have hpart : servicesShape.part v = some (.map (bodies.map keepBody)) :=
    congrArg (Option.map _) hbodies
  rw [hkeep, hv, Option.bind_some, hpart]
  rfl

/-- A manifest that lists services is read, unless the key of a record is no text or has no encoding
or one of the numbers that it writes out is too long, and of nothing else does the report complain.
What no field makes use of leaves no trace: unknown keys and values of no shape that is wanted may
as well not be there.  A value can be written out if none of the integers in it is too long. -/
theorem ofText_eq_ok_iff (context : Option Template.Context) (text : String) {v : Value}
    {es : Entries} (hload : Yaml.load (replaceVariables context text).1.toList = .ok v)
    (hes : v.entries? = some es)
    (hservices : ((Value.lookup "services" es).bind Value.entries?).isSome) :
    ((∃ m, (ofText context text).1 = .ok m)
        ↔ (∀ r ∈ es :: fields.records es, r.TextKeys) ∧ ∀ w ∈ fields.written es, w.Writable)
      ∧ (∀ m, (ofText context text).1 = .ok m → ofDocument (.map (fields.keep es)) = .ok m)
      ∧ (∀ fault, (ofText context text).1 = .error fault →
          ∃ issues, fault = .invalid ⟨"ComposeManifest", issues⟩
            ∧ ∀ i ∈ issues, i.cause.AboutText)
      ∧ ∀ w : Value, (∀ n ∈ w.integers, (Nat.toDigits 10 n.natAbs).length ≤ digitLimit) →
          w.Writable := by
  have hresult : (ofText context text).1
      = ((readListed es).result "ComposeManifest").mapError .invalid := by
    rw [fst_ofText, ofPlainText, hload]
    exact ofDocument_eq hes hservices
  have hkept : ofDocument (.map (fields.keep es))
      = ((readListed (fields.keep es)).result "ComposeManifest").mapError .invalid :=
    ofDocument_eq rfl (services_keep hservices)
  obtain ⟨hvalue, hissues⟩ := describes.keep es
  rw [hresult, hkept, ← describes.issues]
  by_cases hes : (readListed es).issues = []
  · have hread := Checked.result_of_issues_eq_nil "ComposeManifest" hes
    rw [hread, Checked.result_of_issues_eq_nil _ (hissues hes), hvalue]
    refine ⟨iff_of_true ⟨_, rfl⟩ hes, fun m hm => hm, ?_, fun w => Value.writable_of_integers⟩
    intro fault hfault
    cases hfault
  · rw [Checked.result_of_issues_ne_nil _ hes]
    refine ⟨iff_of_false ?_ hes, ?_, ?_, fun w => Value.writable_of_integers⟩
    · rintro ⟨m, hm⟩
      cases hm
    · intro m hm
      cases hm
    · intro fault hfault
      exact ⟨_, (Except.error.inj hfault).symm, describes.causes es⟩

/-- Whether a text is a manifest that lists services. -/
def listsServices (text : List Char) : Bool :=
  match Yaml.load text with
  | .error _ => false
  | .ok v => ((v.entries?.bind (Value.lookup "services")).bind Value.entries?).isSome

theorem exists_entries_of_listsServices {text : List Char} (h : listsServices text = true) :
    ∃ v es, Yaml.load text = .ok v ∧ v.entries? = some es
      ∧ ((Value.lookup "services" es).bind Value.entries?).isSome := by
  rw [listsServices] at h
  split at h
  · cases h
  · next v hload =>
    cases hes : v.entries? with
    | none =>
      rw [hes] at h
      cases h
    | some es =>
      rw [hes] at h
      exact ⟨v, es, hload, hes, h⟩

/-- A manifest with an unknown key, a list for an image and a number for ports. -/
def oddShapes : String := "services:\n  web:\n    image: [x]\n    hue: 1\n    ports: 80\n"

/-- This manifest is read, as what is kept of it is. -/
theorem exists_ofText_oddShapes : ∃ v es m, Yaml.load oddShapes.toList = .ok v
    ∧ v.entries? = some es ∧ ((Value.lookup "services" es).bind Value.entries?).isSome
    ∧ (ofText none oddShapes).1 = .ok m ∧ ofDocument (.map (fields.keep es)) = .ok m := by
  obtain ⟨v, es, hload, hes, hservices⟩ :=
    exists_entries_of_listsServices (show listsServices oddShapes.toList = true by decide +kernel)
  obtain ⟨m, hm⟩ : Succeeds (ofText none oddShapes).1 := by decide +kernel
  have hkept := (ofText_eq_ok_iff none oddShapes hload hes hservices).2.1 m hm
  exact ⟨v, es, m, hload, hes, hservices, hm, hkept⟩

/-- A service with a number for a key. -/
def numberedKey : String := "services:\n  web:\n    1: x\n"

/-- This manifest lists services and is not read. -/
theorem not_ofText_numberedKey : ¬ ∀ context text v es,
    Yaml.load (replaceVariables context text).1.toList = .ok v → v.entries? = some es →
    ((Value.lookup "services" es).bind Value.entries?).isSome →
      ∃ m, (ofText context text).1 = .ok m := by
  intro h
  obtain ⟨v, es, hload, hes, hservices⟩ :=
    exists_entries_of_listsServices (show listsServices numberedKey.toList = true by decide +kernel)
  have hfails : ¬ Succeeds (ofText none numberedKey).1 := by decide +kernel
  exact hfails (h none numberedKey v es hload hes hservices)

end Manifest
end ComposeNix
