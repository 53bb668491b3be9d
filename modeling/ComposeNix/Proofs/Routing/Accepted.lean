import ComposeNix.Proofs.Compose.Canonical
import ComposeNix.Proofs.Routing.Labels
import ComposeNix.Proofs.Routing.Reading
import ComposeNix.Proofs.Value.Lookup

/-!
# Accepted rules

All that reading looks at in a mapping is the first value under the names of each field
(`RoutingRule.read_congr`), and a rule that was read has six fields that can be read again.  So it
can be written out as a mapping, under either name of a field that has two and with null for what is
absent, and is read as itself (`RoutingRule.ofValue_of_sound`).  A conversion that is given such
mappings writes the same module (`RoutingRule.convert_map_entries`).

Keys that name no field are not looked at, and neither is the second name of a field that is there
under its first one (`RoutingRule.Idle`).  Entries under such keys may be added without a difference
(`RoutingRule.firstOf_of_padded`).  `RoutingRule.ofValue_accepted` puts this together.
-/

namespace ComposeNix

open Value (ofOption)

/-! ## Texts in a mapping -/

/-- The value is this text, as it is or as its bytes. -/
def Value.Says (v : Value) (s : String) : Prop :=
  v = .str s ∨ ∃ octets t, v = .bytes octets ∧ Text.decodeUtf8 octets = .ok t
    ∧ Text.ofChars t.toList = s

theorem textOrCause_eq_ok_iff {v : Value} {s : String} : textOrCause v = .ok s ↔ v.Says s := by
  cases v with
  | bytes octets =>
    cases hread : Text.decodeUtf8 octets <;> simp [textOrCause, Value.Says, hread]
  | _ => simp [textOrCause, Value.Says]

/-- A URL is kept as it was written. -/
theorem textOrCause_of_urlText {v : Value} {url : String} (h : urlText v = .ok url) :
    textOrCause v = .ok url := by
  obtain ⟨s, hs, h⟩ := bind_eq_ok_iff.mp h
  split at h
  · rw [hs, h]
  · exact nomatch h

theorem eq_some_iff_of_orNull_urlText {v : Value} {url? : Option String}
    (h : orNull urlText v = .ok url?) (url : String) : url? = some url ↔ v.Says url := by
  rw [← textOrCause_eq_ok_iff]
  unfold orNull at h
  split at h
  · obtain rfl := Except.ok.inj h
    exact iff_of_false (fun hsome => nomatch hsome) fun hnull => nomatch hnull
  · obtain ⟨s, hread, rfl⟩ := map_eq_ok_iff.mp h
    rw [textOrCause_of_urlText hread, Option.some.injEq, Except.ok.injEq]

theorem orNull_ofOption {read : Value → Except Cause String} {s? : Option String}
    (h : ∀ s ∈ s?, read (.str s) = .ok s) : orNull read (ofOption .str s?) = .ok s? := by
  cases s? with
  | none => rfl
  | some s =>
    have hread : orNull read (ofOption .str (some s)) = (read (.str s)).map some := rfl
    rw [hread, h s rfl]
    rfl

theorem Entries.firstOf_congr {names : List String} {es es' : Entries}
    (h : ∀ name ∈ names, Value.lookup name es' = Value.lookup name es) :
    es'.firstOf names = es.firstOf names := by
  induction names with
  | nil => rfl
  | cons name names ih =>
    obtain ⟨hname, hnames⟩ := List.forall_mem_cons.mp h
    have hrest := ih hnames
    simp only [firstOf, List.findSome?_cons, hname] at hrest ⊢
    rw [hrest]

theorem Entries.firstOf_singleton (name : String) (es : Entries) :
    es.firstOf [name] = (Value.lookup name es).map (name, ·) := by
  rw [firstOf, List.findSome?_cons]
  cases (Value.lookup name es).map (name, ·) <;> rfl

namespace RoutingRule

/-! ## What is looked at -/

/-- The names of the resolver; the one in front is looked at first. -/
abbrev resolverNames : List String := ["certResolver", "cert_resolver"]

/-- The names of what turns TLS on; the one in front is looked at first. -/
abbrev tlsNames : List String := ["enableTLS", "enable_tls"]

/-- The names of each field. -/
def fieldNames : List (List String) :=
  [["name"], ["url"], ["host"], ["entrypoint"], resolverNames, tlsNames]

theorem read_congr {es es' : Entries}
    (h : ∀ names ∈ fieldNames, es'.firstOf names = es.firstOf names) : read es' = read es := by
  simp only [fieldNames, List.forall_mem_cons] at h
  obtain ⟨hname, hurl, hhost, hentrypoint, hresolver, htls, -⟩ := h
  simp only [read, Entries.named, hname, hurl, hhost, hentrypoint, hresolver, htls]

/-- A name stands for one field only. -/
theorem eq_of_mem_fieldNames : ∀ names ∈ fieldNames, ∀ names' ∈ fieldNames, ∀ name ∈ names,
    name ∈ names' → names = names' := by decide

theorem nodup_of_mem_fieldNames : ∀ names ∈ fieldNames, names.Nodup := by decide

/-- A key without effect beside these entries: it names no field, or it is the second name of a
field that is there under its first. -/
inductive Idle (es : Entries) : Value → Prop
  | unknown {k : Value} : (∀ names ∈ fieldNames, ∀ name ∈ names, k ≠ .str name) → Idle es k
  | second {first second : String} : [first, second] ∈ fieldNames →
    (Value.lookup first es).isSome → Idle es (.str second)

/-- Of the names of a field only the second can be without effect. -/
theorem exists_of_idle {es : Entries} {names : List String} {name : String}
    (hnames : names ∈ fieldNames) (hname : name ∈ names) (h : Idle es (.str name)) :
    ∃ first, names = [first, name] ∧ (Value.lookup first es).isSome := by
  cases h with
  | unknown hunknown => exact absurd rfl (hunknown names hnames name hname)
  | @second first _ hrow hfound =>
    have hmem : name ∈ [first, name] := List.mem_cons_of_mem _ List.mem_cons_self
    exact ⟨first, eq_of_mem_fieldNames names hnames _ hrow name hname hmem, hfound⟩

/-- Whatever is added under keys without effect, the value that is looked at stays the same. -/
theorem firstOf_of_padded {es es' : Entries} (h : Value.Padded (Idle es) es es')
    {names : List String} (hnames : names ∈ fieldNames) :
    es'.firstOf names = es.firstOf names := by
  cases names with
  | nil => rfl
  | cons first others =>
    have hfirst : Value.lookup first es' = Value.lookup first es := h.lookup fun hidle => by
      obtain ⟨_, hnames', -⟩ := exists_of_idle hnames List.mem_cons_self hidle
      obtain ⟨rfl, rfl⟩ := List.cons.inj hnames'
      exact (List.nodup_cons.mp (nodup_of_mem_fieldNames _ hnames)).1 List.mem_cons_self
    rw [Entries.firstOf, Entries.firstOf, List.findSome?_cons, List.findSome?_cons, hfirst]
    cases hfound : Value.lookup first es with
    | some v => rfl
    | none =>
      -- nothing stands under the first name, so that the others are looked at
      refine Entries.firstOf_congr fun name hname => h.lookup fun hidle => ?_
      obtain ⟨_, hnames', hsome⟩ := exists_of_idle hnames (List.mem_cons_of_mem _ hname) hidle
      rw [← (List.cons.inj hnames').1, hfound] at hsome
      exact nomatch hsome

/-- The report on the address is that on the text under its name. -/
theorem ofValue_congr {es es' : Entries}
    (h : ∀ names ∈ fieldNames, es'.firstOf names = es.firstOf names) :
    ofValue (.map es') = ofValue (.map es) := by
  have hurl : Value.lookup "url" es' = Value.lookup "url" es := by
    have hfirst := h ["url"] (by decide)
    rw [Entries.firstOf_singleton, Entries.firstOf_singleton] at hfirst
    exact Option.map_injective (fun _ _ hpair => (Prod.mk.inj hpair).2) hfirst
  have hbreak : addressBreak? es' = addressBreak? es := by rw [addressBreak?, addressBreak?, hurl]
  have hentries (es : Entries) : (Value.map es).entries? = some es := rfl
  rw [ofValue, ofValue, hentries, hentries]
  simp only [hbreak, read_congr h]

/-- Whatever is added under keys without effect, the mapping is read alike. -/
theorem ofValue_of_padded {es es' : Entries} (h : Value.Padded (Idle es) es es') :
    ofValue (.map es') = ofValue (.map es) :=
  ofValue_congr fun _ => firstOf_of_padded h

/-! ## A rule as a mapping -/

/-- The fields of a rule, with null for what is absent.  Two of them have two names. -/
def entries (resolverName tlsName : String) (r : RoutingRule) : Entries := [
  (.str "name", .str r.name),
  (.str "url", ofOption .str r.url),
  (.str "host", ofOption .str r.host),
  (.str "entrypoint", .str r.entrypoint),
  (.str resolverName, ofOption .str r.certResolver),
  (.str tlsName, .bool r.enableTls)]

section

variable {r : RoutingRule} {resolverName tlsName : String} (hresolver : resolverName ∈ resolverNames)
  (htls : tlsName ∈ tlsNames)
include hresolver htls

theorem nodup_keys_entries (r : RoutingRule) :
    ((r.entries resolverName tlsName).map Prod.fst).Nodup := by
  simp only [resolverNames, tlsNames, List.mem_cons, List.not_mem_nil, or_false] at hresolver htls
  rcases hresolver with rfl | rfl <;> rcases htls with rfl | rfl <;> simp [entries]

theorem firstOf_entries (r : RoutingRule) :
    (r.entries resolverName tlsName).firstOf resolverNames
        = some (resolverName, ofOption .str r.certResolver)
      ∧ (r.entries resolverName tlsName).firstOf tlsNames = some (tlsName, .bool r.enableTls) := by
  simp only [resolverNames, tlsNames, List.mem_cons, List.not_mem_nil, or_false] at hresolver htls
  rcases hresolver with rfl | rfl <;> rcases htls with rfl | rfl <;> exact ⟨rfl, rfl⟩

theorem read_entries (hr : r.Sound) : read (r.entries resolverName tlsName) = pure r := by
  obtain ⟨hfirst, hsecond⟩ := firstOf_entries hresolver htls r
  have hurl : orNull urlText (ofOption .str r.url) = .ok r.url :=
    orNull_ofOption fun url hmem => by rw [urlText_str, if_pos (hr.url url hmem)]
  have hhost : orNull shortestText (ofOption .str r.host) = .ok r.host :=
    orNull_ofOption fun host hmem => by
      rw [shortestText_str (hr.host host hmem).1, if_pos (hr.host host hmem).2]
  have hname : shortestText (.str r.name) = .ok r.name := by
    rw [shortestText_str hr.name.1, if_pos hr.name.2]
  have hentrypoint : entrypointText (.str r.entrypoint) = .ok r.entrypoint := by
    have htext : (nonEmpty? (some r.entrypoint)).getD defaultEntrypoint = r.entrypoint := by
      simp [nonEmpty?, Option.filter, hr.entrypoint.1]
    rw [entrypointText_str r.entrypoint htext, if_pos hr.entrypoint.2]
  have hcert : orNull textOrCause (ofOption .str r.certResolver) = .ok r.certResolver :=
    orNull_ofOption fun _ _ => rfl
  have hflag : truthOrCause (.bool r.enableTls) = .ok r.enableTls := rfl
  rw [read, Entries.named_of_ok rfl hname, Entries.named_of_ok rfl hurl,
    Entries.named_of_ok rfl hhost, Entries.named_of_ok rfl hentrypoint,
    Entries.named_of_ok hfirst hcert, Entries.named_of_ok hsecond hflag]
  rfl

omit hresolver htls in
/-- Nothing breaks at the address of a rule, which is a URL. -/
theorem addressBreak?_entries (hr : r.Sound) :
    addressBreak? (r.entries resolverName tlsName) = none := by
  have hlookup : Value.lookup "url" (r.entries resolverName tlsName) = some (ofOption .str r.url) :=
    rfl
  rw [addressBreak?, hlookup]
  cases hurl : r.url with
  | none => rfl
  | some url =>
    exact Routing.Draft.unreportable?_eq_none_iff.mpr (Url.isUnicode_of_read? (hr.url url hurl))

/-- A rule with sound fields is read as itself from any mapping of its fields. -/
theorem ofValue_of_sound (hr : r.Sound) {es : Entries}
    (h : (r.entries resolverName tlsName).Perm es) : ofValue (.map es) = .ok r := by
  have hkeys := nodup_keys_entries hresolver htls r
  have hread : ofValue (.map es) = ofValue (.map (r.entries resolverName tlsName)) :=
    ofValue_congr fun names _ => Entries.firstOf_congr fun key _ => Value.lookup_of_perm hkeys h key
  rw [hread, ofValue_eq_ok_iff]
  refine ⟨_, rfl, addressBreak?_entries hr, ?_⟩
  rw [read_entries hresolver htls hr]
  rfl

/-- Rules that were read may be written out, and are read again. -/
theorem ofValues_map_entries {vs : List Value} {rules : List RoutingRule}
    (h : ofValues vs = .ok rules) :
    ofValues (rules.map fun r => .map (r.entries resolverName tlsName)) = .ok rules := by
  rw [ofValues_eq_ok_iff] at h ⊢
  induction h with
  | nil => exact .nil
  | cons hr _ ih => exact .cons (ofValue_of_sound hresolver htls (sound_of_ofValue hr) (.refl _)) ih

/-- A conversion that is given the rules as they were read comes to the same end. -/
theorem convert_map_entries {vs : List Value} {rules : List RoutingRule}
    (h : ofValues vs = .ok rules) (text : String) (backend : Value)
    (context : Option Template.Context) :
    convert text backend (rules.map fun r => .map (r.entries resolverName tlsName)) context
      = convert text backend vs context := by
  rw [convert, convert, h, ofValues_map_entries hresolver htls h]

end

/-! ## Accepted mappings -/

/-- The address of a rule is the text that stands under its name. -/
theorem url_eq_some_iff {es : Entries} (h : (read es).issues = []) (url : String) :
    (read es).value.url = some url ↔ ∃ v, Value.lookup "url" es = some v ∧ v.Says url := by
  simp only [read, Checked.issues_seq, Checked.issues_map, List.append_eq_nil_iff] at h
  obtain ⟨⟨⟨⟨⟨-, hurl⟩, -⟩, -⟩, -⟩, -⟩ := h
  have hvalue : (read es).value.url = (es.named ["url"] (pure none) none (orNull urlText)).value :=
    rfl
  rw [hvalue]
  rcases Entries.named_cases hurl with ⟨hfirst, hnamed⟩ | ⟨name, v, hfirst, hread⟩
  · rw [Entries.firstOf_singleton, Option.map_eq_none_iff] at hfirst
    rw [hnamed, hfirst]
    constructor
    · intro hsome
      cases hsome
    · rintro ⟨v, hsome, -⟩
      cases hsome
  · rw [Entries.firstOf_singleton, Option.map_eq_some_iff] at hfirst
    obtain ⟨v', hfound, hv⟩ := hfirst
    obtain ⟨rfl, rfl⟩ := Prod.mk.inj hv
    rw [eq_some_iff_of_orNull_urlText hread, hfound]
    simp

/-- What is true of every mapping that a rule was read from.  The six fields of the rule are read as
the rule again, in any order, under either name of a field that has two, and with null for what is
absent.  Its address is the text that stands under `url`, unchanged, and there is none if none
stands there.  It has an entrypoint.  Whatever is added to the mapping under keys without effect,
the same rule is read. -/
theorem ofValue_accepted {v : Value} {es : Entries} {r : RoutingRule} (hes : v.entries? = some es)
    (h : ofValue v = .ok r) :
    (∀ resolverName ∈ resolverNames, ∀ tlsName ∈ tlsNames, ∀ written : Entries,
      (r.entries resolverName tlsName).Perm written → ofValue (.map written) = .ok r)
    ∧ (∀ url, r.url = some url ↔ ∃ v, Value.lookup "url" es = some v ∧ v.Says url)
    ∧ r.entrypoint ≠ ""
    ∧ ∀ padded, Value.Padded (Idle es) es padded → ofValue (.map padded) = .ok r := by
  have hsound := sound_of_ofValue h
  obtain ⟨es', hes', -, hread⟩ := ofValue_eq_ok_iff.mp h
  obtain rfl := Option.some.inj (hes.symm.trans hes')
  refine ⟨fun resolverName hresolver tlsName htls written hwritten => ?_, ?_, hsound.entrypoint.1,
    fun padded hpadded => ?_⟩
  · exact ofValue_of_sound hresolver htls hsound hwritten
  · obtain rfl := Checked.eq_value_of_result hread
    exact url_eq_some_iff (Checked.issues_of_result hread)
  · have hmap : ofValue (.map es) = ofValue v := by rw [ofValue, ofValue, hes]; rfl
    rw [ofValue_of_padded hpadded, hmap, h]

/-- A mapping with a name in bytes, an address that is more than its host, a number for the
entrypoint, and two names from either row. -/
def mixedFields : Entries := [
  (.str "name", .bytes [0x61, 0x70, 0x70]),
  (.str "url", .str " http://app:80/\n"),
  (.str "entrypoint", .int 0),
  (.str "certResolver", .str "le"),
  (.str "enable_tls", .str "Yes")]

/-- The same with keys that are not looked at. -/
def paddedFields : Entries := [
  (.int 1, .null),
  (.str "name", .bytes [0x61, 0x70, 0x70]),
  (.str "url", .str " http://app:80/\n"),
  (.str "cert_resolver", .list []),
  (.str "entrypoint", .int 0),
  (.str "certResolver", .str "le"),
  (.str "enable_tls", .str "Yes"),
  (.str "weight", .int 2)]

/-- The rule that is read from both. -/
def mixedRule : RoutingRule :=
  ⟨"app", some " http://app:80/\n", none, defaultEntrypoint, some "le", true⟩

theorem ofValue_mixedFields : ofValue (.map mixedFields) = .ok mixedRule := by
  with_unfolding_all rfl

/-- None of the keys that are added has an effect. -/
theorem padded_mixedFields : Value.Padded (Idle mixedFields) mixedFields paddedFields := by
  have hone : Idle mixedFields (.int 1) := .unknown fun _ _ _ _ h => nomatch h
  have hresolver : Idle mixedFields (.str "cert_resolver") :=
    .second (by decide : resolverNames ∈ fieldNames) rfl
  have hweight : Idle mixedFields (.str "weight") := .unknown (by simp [fieldNames])
  exact .add _ hone (.keep _ (.keep _ (.add _ hresolver (.keep _ (.keep _ (.keep _
    (.add _ hweight .nil)))))))

/-- Both mappings are read as the rule, and so is what is written for it. -/
theorem ofValue_accepted_mixedFields : ofValue (.map mixedFields) = .ok mixedRule
    ∧ ofValue (.map paddedFields) = .ok mixedRule
    ∧ ofValue (.map (mixedRule.entries "cert_resolver" "enableTLS").reverse) = .ok mixedRule := by
  obtain ⟨hwritten, -, -, hpadded⟩ := ofValue_accepted rfl ofValue_mixedFields
  refine ⟨ofValue_mixedFields, hpadded _ padded_mixedFields, ?_⟩
  exact hwritten _ (by decide) _ (by decide) _ (List.reverse_perm _).symm

end RoutingRule
end ComposeNix
