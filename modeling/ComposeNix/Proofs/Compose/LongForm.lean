import ComposeNix.Proofs.Compose.Service
import ComposeNix.Proofs.Conversion

/-!
# Ports and mounts in long form

A list of ports or of mounts has entries of two kinds.  A short one is written out as it is, and a
long one is a mapping whose parts are written out and put together.  The list of a service has one
text for each entry that gives one, in the order of the entries (`Service.forall₂_isText`).

Everywhere else a collection in the place of a scalar counts as absent.  Here it does not: of the
entries only lists are left out, and a part is written out whatever it is.  So the texts are those
of the entries made of scalars (`LongForm.isPlain`) exactly if there is no other entry that gives
one.
-/

namespace ComposeNix

/-- The text is the written form of the value. -/
def Value.IsWritten (v : Value) (s : String) : Prop := v.plainText = .ok s

/-- The fields whose entries have a long form. -/
inductive LongForm
  | port
  | mount
  deriving DecidableEq, Repr

namespace LongForm

/-! ## The texts of entries -/

/-- The key of the field. -/
def key : LongForm → String
  | port => "ports"
  | mount => "volumes"

/-- The texts in the field of a service. -/
def get : LongForm → Service → Option (List String)
  | port => Service.ports
  | mount => Service.volumes

/-- The reading of a long entry. -/
def read : LongForm → Entries → Except NumberFault (Option String)
  | port => portOfEntries
  | mount => mountOfEntries

/-- The keys of the parts that a text is put together from. -/
def parts : LongForm → List String
  | port => ["target", "published", "host_ip", "protocol"]
  | mount => ["source", "target"]

/-- Whether a long entry gives a text: a port needs a target, and a mount both of its ends. -/
def isComplete : LongForm → Entries → Bool
  | port, es => (es.given? "target").isSome
  | mount, es => (es.truthy? "source").isSome && (es.truthy? "target").isSome

/-- A port in the form `[host_ip:]published:target[/protocol]`. -/
def portText (address published : Option String) (target : String) (protocol : Option String) :
    String :=
  (address.map (· ++ ":")).getD "" ++ ((published.map (· ++ ":")).getD "" ++ target)
    ++ (protocol.map ("/" ++ ·)).getD ""

/-- A mount in the form `source:target[:ro]`. -/
def mountText (source target : String) (readOnly : Bool) : String :=
  source ++ ":" ++ target ++ if readOnly then ":ro" else ""

/-- The text of a long entry is put together from its parts.  The address of a port counts only if a
port is published there. -/
inductive Renders : LongForm → Entries → String → Prop
  | port {es : Entries} {target : String} {published address protocol : Option String} :
    Option.Rel Value.IsWritten (es.given? "target") (some target) →
    Option.Rel Value.IsWritten (es.given? "published") published →
    Option.Rel Value.IsWritten ((es.given? "published").bind fun _ => es.truthy? "host_ip")
      address →
    Option.Rel Value.IsWritten (es.truthy? "protocol") protocol →
    Renders port es (portText address published target protocol)
  | mount {es : Entries} {source target : String} :
    Option.Rel Value.IsWritten (es.truthy? "source") (some source) →
    Option.Rel Value.IsWritten (es.truthy? "target") (some target) →
    Renders mount es (mountText source target (es.truthy? "read_only").isSome)

/-- The text of an entry. -/
inductive IsText (form : LongForm) (v : Value) (s : String) : Prop
  | short (short : v.entries? = none) (written : v.IsWritten s)
  | long {es : Entries} (long : v.entries? = some es) (renders : form.Renders es s)

/-- Whether an entry gives a text. -/
def contributes (form : LongForm) (v : Value) : Bool :=
  match v.entries? with
  | some es => form.isComplete es
  | none => isEntry v

/-- Whether an entry is made of scalars: it is one, or a mapping all of whose parts are. -/
def isPlain (form : LongForm) (v : Value) : Bool :=
  match v.entries? with
  | some es => form.parts.all fun key => (Value.lookup key es).all Value.isScalar
  | none => v.isScalar

/-! ## Reading an entry -/

theorem ensures_isWritten (v : Value) : Ensures (fun _ => True) v.IsWritten v.plainText :=
  .self v.plainText

/-- A part that is there has a text. -/
theorem rel_isWritten {part? : Option Value} {v : Value} {s : String} (hpart : part? = some v)
    (hs : v.IsWritten s) : Option.Rel Value.IsWritten part? (some s) := by
  rw [hpart]
  exact .some hs

/-- The published side of a port stands in front of its target. -/
theorem ensures_publishedPort (es : Entries) (target : String) :
    Ensures (fun _ => True) (fun s => ∃ published address,
      Option.Rel Value.IsWritten (es.given? "published") published
        ∧ Option.Rel Value.IsWritten
            ((es.given? "published").bind fun _ => es.truthy? "host_ip") address
        ∧ s = portText address published target none) (publishedPort es target) := by
  cases hpublished : es.given? "published" with
  | none =>
    simp only [publishedPort, hpublished]
    exact ⟨none, none, .none, .none, by simp [portText]⟩
  | some published =>
    simp only [publishedPort, hpublished, Option.bind_some]
    refine (ensures_isWritten published).bind fun port hport => ?_
    cases es.truthy? "host_ip" with
    | none => exact ⟨some port, none, .some hport, .none, by simp [portText]⟩
    | some address =>
      refine (ensures_isWritten address).bind fun host hhost => ?_
      exact ⟨some port, some host, .some hport, .some hhost,
        by simp [portText, String.append_assoc]⟩

theorem ensures_portOfEntries {es : Entries} (h : isComplete port es = true) :
    Ensures (fun _ => True) (fun t => ∃ s, t = some s ∧ Renders port es s) (portOfEntries es) := by
  obtain ⟨target, htarget⟩ := Option.isSome_iff_exists.mp h
  simp only [portOfEntries, htarget]
  refine (ensures_isWritten target).bind fun text htext => ?_
  refine (ensures_publishedPort es text).bind fun side hside => ?_
  obtain ⟨published, address, hpublished, haddress, rfl⟩ := hside
  have htarget := rel_isWritten htarget htext
  cases hprotocol : es.truthy? "protocol" with
  | none =>
    refine ⟨_, rfl, .port htarget hpublished haddress ?_⟩
    rw [hprotocol]
    exact .none
  | some protocol =>
    refine (ensures_isWritten protocol).bind fun name hname => ?_
    have hprotocol := rel_isWritten hprotocol hname
    exact ⟨_, by simp [portText, String.append_assoc],
      .port htarget hpublished haddress hprotocol⟩

theorem ensures_mountOfEntries {es : Entries} (h : isComplete mount es = true) :
    Ensures (fun _ => True) (fun t => ∃ s, t = some s ∧ Renders mount es s)
      (mountOfEntries es) := by
  obtain ⟨hsource, htarget⟩ := Bool.and_eq_true_iff.mp h
  obtain ⟨source, hsource⟩ := Option.isSome_iff_exists.mp hsource
  obtain ⟨target, htarget⟩ := Option.isSome_iff_exists.mp htarget
  simp only [mountOfEntries, hsource, htarget]
  refine (ensures_isWritten source).bind fun front hfront => ?_
  refine (ensures_isWritten target).bind fun back hback => ?_
  refine ⟨_, ?_, .mount (rel_isWritten hsource hfront) (rel_isWritten htarget hback)⟩
  rw [mountText]
  split <;> simp

/-- A complete entry gives a text, and any other gives none. -/
theorem ensures_read (form : LongForm) (es : Entries) :
    Ensures (fun _ => True) (fun t => if form.isComplete es = true
      then ∃ s, t = some s ∧ form.Renders es s else t = none) (form.read es) := by
  by_cases h : form.isComplete es = true
  · simp only [if_pos h]
    cases form with
    | port => exact ensures_portOfEntries h
    | mount => exact ensures_mountOfEntries h
  · simp only [if_neg h]
    cases form with
    | port =>
      have htarget : es.given? "target" = none := Option.not_isSome_iff_eq_none.mp h
      simp only [read, portOfEntries, htarget]
      rfl
    | mount =>
      simp only [read, mountOfEntries]
      split
      · next hsource htarget => simp [isComplete, hsource, htarget] at h
      · rfl

theorem entryText_of_entries? {long : Entries → Except NumberFault (Option String)} {v : Value}
    {es : Entries} (h : v.entries? = some es) : entryText long v = long es := by
  rw [Value.entries?] at h
  rw [entryText]
  split at h
  · next hv => rw [hv, Option.some.inj h]
  · cases h

theorem entryText_of_isEntry {long : Entries → Except NumberFault (Option String)} {v : Value}
    (h : v.entries? = none) (hv : isEntry v = true) : entryText long v = v.plainText.map some := by
  rw [Value.entries?] at h
  rw [isEntry] at hv
  rw [entryText]
  cases hu : v.unfold with
  | map es => rw [hu] at h; cases h
  | list _ | null => rw [hu] at hv; cases hv
  | _ => rfl

/-- An entry gives its text if it contributes one at all. -/
theorem ensures_entryText (form : LongForm) (v : Value) :
    Ensures (fun _ => True) (fun t => if form.contributes v = true
      then ∃ s, t = some s ∧ form.IsText v s else t = none) (entryText form.read v) := by
  rw [contributes]
  cases hes : v.entries? with
  | some es =>
    rw [entryText_of_entries? hes]
    refine (ensures_read form es).imp fun t ht => ?_
    split at ht
    · next h =>
      obtain ⟨s, rfl, hs⟩ := ht
      simp only [if_pos h]
      exact ⟨s, rfl, .long hes hs⟩
    · next h => simpa only [if_neg h] using ht
  | none =>
    cases hentry : isEntry v with
    | true =>
      rw [entryText_of_isEntry hes hentry]
      refine (ensures_isWritten v).map fun s hs => ?_
      simp only [if_pos]
      exact ⟨s, rfl, .short hes hs⟩
    | false =>
      rw [entryText_of_not_isEntry hentry]
      simp only [Bool.false_eq_true, if_false]
      rfl

/-- The texts of a list are those of the entries that contribute one, in order. -/
theorem ensures_entryTexts (form : LongForm) (items : List Value) :
    Ensures (fun _ => True)
      (fun texts => List.Forall₂ form.IsText (items.filter form.contributes) texts)
      (entryTexts form.read items) := by
  induction items with
  | nil => exact .nil
  | cons v vs ih =>
    rw [entryTexts, List.filter_cons]
    refine (ensures_entryText form v).bind fun t ht => ?_
    split at ht
    · next h =>
      obtain ⟨s, rfl, hs⟩ := ht
      rw [if_pos h]
      exact ih.bind fun texts htexts => .cons hs htexts
    · next h =>
      rw [if_neg h, ht]
      exact ih

/-- The entries that a text comes from are as many as the texts.  So none is missing among those
made of scalars only if there is no other. -/
theorem forall₂_filter_isPlain_iff (form : LongForm) {items : List Value} {texts : List String}
    (h : List.Forall₂ form.IsText (items.filter form.contributes) texts) :
    List.Forall₂ form.IsText ((items.filter form.isPlain).filter form.contributes) texts
      ↔ ∀ v ∈ items, form.contributes v = true → form.isPlain v = true := by
  rw [List.filter_comm]
  constructor
  · intro hplain
    have hlength : ((items.filter form.contributes).filter form.isPlain).length
        = (items.filter form.contributes).length := by
      rw [hplain.length_eq, h.length_eq]
    intro v hv hcontributes
    exact List.length_filter_eq_length_iff.mp hlength v (List.mem_filter.mpr ⟨hv, hcontributes⟩)
  · intro hplain
    rw [List.filter_eq_self.mpr]
    · exact h
    · intro v hv
      obtain ⟨hv, hcontributes⟩ := List.mem_filter.mp hv
      exact hplain v hv hcontributes

end LongForm

/-! ## The fields of a service -/

/-- What a long entry writes out. -/
def LongForm.written : LongForm → Entries → List Value
  | .port => portWritten
  | .mount => mountWritten

theorem LongForm.succeeds_longList? (form : LongForm) {w : Value}
    (h : ∀ u ∈ (Shape.rows form.written).written w, u.Writable) :
    Succeeds (longList? form.read w) := by
  cases form with
  | port => exact ((Shape.writes_rows succeeds_portOfEntries).succeeds w).mpr h
  | mount => exact ((Shape.writes_rows succeeds_mountOfEntries).succeeds w).mpr h

/-- The field of a service that was read is what is read from under its key. -/
theorem Service.longList?_of_ofValue {v : Value} {es : Entries} {s : Service}
    (hes : v.entries? = some es) (h : Service.ofValue v = .ok s) (form : LongForm) :
    match Value.lookup form.key es with
    | none => form.get s = none
    | some w => longList? form.read w = .ok (form.get s) := by
  rw [ofValue, hes] at h
  obtain rfl := Checked.eq_value_of_result h
  have hget : form.get (Service.read es).value
      = (es.field form.key none (longList? form.read)).value := by
    rw [Service.read, Entries.value_withKeys]
    cases form <;> rfl
  rw [hget, Entries.field]
  cases hw : Value.lookup form.key es with
  | none => rfl
  | some w =>
    have hmem : (form.key, Shape.rows form.written) ∈ Service.fields := by
      cases form <;> simp [Service.fields, LongForm.key, LongForm.written]
    obtain ⟨texts?, htexts⟩ := form.succeeds_longList? (w := w) fun u hu =>
      ((Service.describes.issues es).mp (Checked.issues_of_result h)).2 u
        (List.mem_flatMap.mpr ⟨_, hmem, by simpa [hw] using hu⟩)
    simp only [htexts]
    rfl

/-- The ports and the mounts of a service are a list exactly if a list stands under their key.  It
has a text for each entry that is a complete mapping or neither a list nor a mapping nor null, in
the order of the entries: the entry as it is written, or the parts of the mapping as they are
written, put together.  These are the texts of the entries made of scalars exactly if every entry
that gives a text is made of scalars. -/
theorem Service.forall₂_isText {v : Value} {es : Entries} {s : Service}
    (hes : v.entries? = some es) (h : Service.ofValue v = .ok s) (form : LongForm) :
    ((Value.lookup form.key es).bind Value.items? = none → form.get s = none)
      ∧ ∀ items, (Value.lookup form.key es).bind Value.items? = some items →
        ∃ texts, form.get s = some texts
          ∧ List.Forall₂ form.IsText (items.filter form.contributes) texts
          ∧ (List.Forall₂ form.IsText ((items.filter form.isPlain).filter form.contributes) texts
            ↔ ∀ w ∈ items, form.contributes w = true → form.isPlain w = true) := by
  have hread := Service.longList?_of_ofValue hes h form
  cases hw : Value.lookup form.key es with
  | none =>
    rw [hw] at hread
    exact ⟨fun _ => hread, fun items hitems => by cases hitems⟩
  | some w =>
    simp only [hw, longList?] at hread
    rw [Option.bind_some]
    cases hitems : w.items? with
    | none =>
      rw [hitems] at hread
      exact ⟨fun _ => (Except.ok.inj hread).symm, fun items hitems => by cases hitems⟩
    | some items =>
      refine ⟨fun hnone => absurd hnone (Option.some_ne_none items), fun items' hitems' => ?_⟩
      obtain rfl := Option.some.inj hitems'
      have htexts := form.ensures_entryTexts items
      simp only [hitems] at hread
      obtain ⟨texts, hall, hget⟩ := map_eq_ok_iff.mp hread
      rw [hall] at htexts
      exact ⟨texts, hget.symm, htexts, form.forall₂_filter_isPlain_iff htexts⟩

/-- Ports in both forms, and two entries that are none. -/
def mixedPorts : List Value := [
  .map [(.str "target", .int 80), (.str "published", .int 8080), (.str "protocol", .str "udp")],
  .null, .int 53, .map [(.str "published", .int 443)]]

/-- Two of the entries give a text, and these are made of scalars. -/
theorem Service.forall₂_isText_mixedPorts : ∃ s texts,
    Service.ofValue (.map [(.str "ports", .list mixedPorts)]) = .ok s ∧ s.ports = some texts
      ∧ texts.length = 2
      ∧ List.Forall₂ (LongForm.IsText .port)
          ((mixedPorts.filter (LongForm.isPlain .port)).filter (LongForm.contributes .port))
          texts := by
  obtain ⟨s, hs⟩ : Succeeds (Service.ofValue (.map [(.str "ports", .list mixedPorts)])) := by
    decide
  have hes : (Value.map [(.str "ports", .list mixedPorts)]).entries?
      = some [(.str "ports", .list mixedPorts)] := rfl
  obtain ⟨texts, htexts, hforall, hiff⟩ :=
    (Service.forall₂_isText hes hs .port).2 mixedPorts rfl
  exact ⟨s, texts, hs, htexts, hforall.length_eq.symm, hiff.mpr (by decide)⟩

/-- Ports with a list for a target, and with a set in the place of an entry. -/
def collectionPorts : List Value := [.map [(.str "target", .list [.int 80])], .set [.int 80]]

/-- No entry of these ports is made of scalars, and both give a text. -/
theorem Service.not_forall₂_isText_collectionPorts : ∃ s texts,
    Service.ofValue (.map [(.str "ports", .list collectionPorts)]) = .ok s
      ∧ s.ports = some texts ∧ texts = ["[80]", "\x7b80\x7d"]
      ∧ ¬ List.Forall₂ (LongForm.IsText .port)
          ((collectionPorts.filter (LongForm.isPlain .port)).filter (LongForm.contributes .port))
          texts := by
  have hports : (Service.ofValue (.map [(.str "ports", .list collectionPorts)])).toOption.bind
      Service.ports = some ["[80]", "\x7b80\x7d"] := by decide
  obtain ⟨s, hs, hports⟩ := Option.bind_eq_some_iff.mp hports
  refine ⟨s, _, toOption_eq_some_iff.mp hs, hports, rfl, fun hforall => ?_⟩
  -- The rule leaves nothing of the list.
  have hlength : 0 = 2 := hforall.length_eq
  cases hlength

end ComposeNix
