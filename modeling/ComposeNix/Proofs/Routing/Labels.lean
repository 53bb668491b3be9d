import ComposeNix.Proofs.Outcome
import ComposeNix.Proofs.Routing.Matcher
import ComposeNix.Proofs.Text.CodePoint
import ComposeNix.Proofs.Url
import Mathlib.Data.List.Nodup

/-!
# The rules in the labels of a service

Labels are put down one after the other, and `WellMade` is what putting down a label preserves: no
route is named twice, every route has a name, and what is known of it is of use (`Draft.Sound`).
Two things follow for the rules of a service.

* `nodup_names_rulesOf` --- no two of them have the same name;
* `isComplete_of_mem_rulesOf` --- every one of them has a name, an address and a host.
-/

namespace ComposeNix

namespace Routing

/-! ## What one label says -/

/-- A label that is about a route names it. -/
theorem name_ne_of_readKey {key name : String} {subject : Subject}
    (h : readKey key = some (name, subject)) : name ≠ "" := by
  rw [readKey] at h
  split at h
  · split_ifs at h with hempty
    · obtain ⟨rfl, -⟩ := Prod.mk.inj (Option.some.inj h)
      exact fun hname => hempty (by rw [hname]; rfl)
    · obtain ⟨rfl, -⟩ := Prod.mk.inj (Option.some.inj h)
      exact fun hname => hempty (by rw [hname]; rfl)
  · simp at h

/-- What is known of a route is of use: its address is one of the service, and its host is
not empty. -/
structure Draft.Sound (service : String) (d : Draft) : Prop where
  url : ∀ url ∈ d.url, ∃ port, url = Draft.address service port
  host : ∀ host ∈ d.host, host ≠ ""

theorem Draft.sound_empty (service : String) : Draft.empty.Sound service where
  url _ h := by simp [Draft.empty] at h
  host _ h := by simp [Draft.empty] at h

theorem Draft.Sound.note {service : String} {d : Draft} (h : d.Sound service) (subject : Subject)
    (value : String) : (d.note service subject value).Sound service := by
  cases subject with
  | rule =>
    rw [Draft.note]
    split
    · rename_i host hhost
      refine ⟨h.url, fun s hs hempty => (hostIn?_eq_some hhost).1 ?_⟩
      obtain rfl : String.ofList host = s := Option.some.inj hs
      rw [← String.toList_ofList (l := host), hempty]
      rfl
    · exact h
  | entrypoint => exact ⟨h.url, h.host⟩
  | certResolver => exact ⟨h.url, h.host⟩
  | port => exact ⟨fun url hurl => ⟨value, (Option.some.inj hurl).symm⟩, h.host⟩
  | other => exact h

/-! ## What the labels of a service say -/

/-- No route is named twice, every route has a name, and what is known of it is of use. -/
structure WellMade (service : String) (ds : Dictionary Draft) : Prop where
  nodup : (Dictionary.keys ds).Nodup
  named : ∀ e ∈ ds, e.1 ≠ ""
  sound : ∀ e ∈ ds, e.2.Sound service

/-- Putting down one label keeps the drafts well made. -/
theorem WellMade.gather {service : String} {ds : Dictionary Draft} (h : WellMade service ds)
    (label : String × String) : WellMade service (gather service ds label) := by
  rw [Routing.gather]
  split
  · exact h
  · rename_i name subject hkey
    have hdraft : ((ds.get? name).getD .empty).Sound service := by
      cases hget : ds.get? name with
      | none => exact Draft.sound_empty service
      | some d => exact h.sound _ (Dictionary.mem_of_get?_eq_some hget)
    refine ⟨Dictionary.nodup_keys_insert _ _ h.nodup, fun e he => ?_, fun e he => ?_⟩
    · rcases Dictionary.mem_insert he with rfl | he
      · exact name_ne_of_readKey hkey
      · exact h.named e he
    · rcases Dictionary.mem_insert he with rfl | he
      · exact hdraft.note subject label.2
      · exact h.sound e he

/-- So the drafts of a service are well made. -/
theorem wellMade_drafts (service : String) (labels : Dictionary String) :
    WellMade service (drafts service labels) := by
  have hfold : ∀ ds, WellMade service ds → WellMade service (labels.foldl (gather service) ds) := by
    induction labels with
    | nil => exact fun _ h => h
    | cons label labels ih => exact fun ds h => ih _ (h.gather label)
  exact hfold [] ⟨List.nodup_nil, by simp, by simp⟩

/-! ## The rule of a draft -/

namespace Draft

variable {name url host : String} {d : Draft}

/-- Whether nothing is wrong with a draft with an address and a host: the address is a URL, and the
other texts have an encoding. -/
structure Admitted (name url host : String) (d : Draft) : Prop where
  isUrl : (Url.read? url).isSome = true
  name : Text.isUnicode name
  host : Text.isUnicode host
  entrypoint : Text.isUnicode d.entrypointText

theorem textIssues_eq_nil_iff {field text : String} :
    textIssues field text = [] ↔ Text.isUnicode text := by
  rw [textIssues]
  split <;> simp_all

theorem issues_eq_nil_iff : d.issues name url host = [] ↔ d.Admitted name url host := by
  have hurl : (if (Url.read? url).isSome then ([] : List Issue)
      else [⟨["url"], .invalidUrl url⟩]) = [] ↔ (Url.read? url).isSome = true := by
    split <;> simp_all
  simp only [issues, List.append_eq_nil_iff, textIssues_eq_nil_iff, hurl]
  exact ⟨fun ⟨⟨⟨hname, hurl⟩, hhost⟩, hentrypoint⟩ => ⟨hurl, hname, hhost, hentrypoint⟩,
    fun h => ⟨⟨⟨h.name, h.isUrl⟩, h.host⟩, h.entrypoint⟩⟩

/-- The report on an address can be told if the address has an encoding. -/
theorem unreportable?_eq_none_iff :
    RoutingRule.unreportable? url = none ↔ Text.isUnicode url := by
  rw [RoutingRule.unreportable?, Text.unencodable?_eq_none_iff, Cause.invalidUrlReport,
    Text.isUnicode_append_of_plain (by decide)]

/-- What a draft with an address and a host comes to. -/
theorem toRule_eq_ok_iff {r : RoutingRule} : d.toRule name url host = .ok r
    ↔ d.Admitted name url host ∧ d.asRule name url host = r := by
  rw [toRule]
  cases hurl : RoutingRule.unreportable? url with
  | some fault =>
    refine iff_of_false (fun h => nomatch h) fun h => ?_
    rw [unreportable?_eq_none_iff.mpr (Url.isUnicode_of_read? h.1.isUrl)] at hurl
    exact nomatch hurl
  | none =>
    rw [← issues_eq_nil_iff]
    cases d.issues name url host <;> simp

/-- Whether the reading of labels breaks off at a draft: it has a host, and an address that has no
encoding. -/
def Breaks (d : Draft) : Prop := d.host.isSome = true ∧ ∃ url ∈ d.url, ¬ Text.isUnicode url

end Draft

theorem settle_eq_ok_iff_admitted {service name : String} {d : Draft} {r : RoutingRule} :
    settle service (name, d) = .ok r ↔ ∃ url ∈ d.url, ∃ host ∈ d.host,
      d.Admitted name url host ∧ d.asRule name url host = r := by
  rw [settle]
  split
  · rename_i url host hurl hhost
    simp only [hurl, hhost, Option.mem_some_iff, exists_eq_left', ← Draft.toRule_eq_ok_iff]
    split <;> simp_all
  · rename_i hnone
    refine iff_of_false (fun h => nomatch h) ?_
    rintro ⟨url, hurl, host, hhost, -⟩
    exact hnone url host hurl hhost

theorem isSome_brokenOutcome?_settle {service : String} {e : String × Draft} :
    (brokenOutcome? (settle service e)).isSome = true ↔ e.2.Breaks := by
  obtain ⟨name, d⟩ := e
  rw [settle]
  split
  · rename_i url host hurl hhost
    rw [Draft.Breaks, hurl, hhost]
    simp only [Option.isSome_some, Option.mem_some_iff, exists_eq_left', true_and,
      ← Draft.unreportable?_eq_none_iff]
    rw [Draft.toRule]
    cases RoutingRule.unreportable? url with
    | some fault => simp [brokenOutcome?, Passing.broken?]
    | none =>
      refine iff_of_false ?_ (not_not_intro rfl)
      cases d.issues name url host <;> exact Bool.false_ne_true
  · rename_i hnone
    refine iff_of_false Bool.false_ne_true ?_
    rintro ⟨hhost, url, hurl, -⟩
    obtain ⟨host, hhost⟩ := Option.isSome_iff_exists.mp hhost
    exact hnone url host hurl hhost

/-- Where the reading of the labels of a service breaks off. -/
theorem isSome_break?_iff {service : String} {labels : Dictionary String} :
    (break? service labels).isSome = true ↔ ∃ e ∈ drafts service labels, e.2.Breaks := by
  rw [break?, List.findSome?_isSome_iff, outcomes]
  simp only [List.mem_map, exists_exists_and_eq_and, isSome_brokenOutcome?_settle]

/-! ## The rules -/

/-- A rule has the name of its draft, and its address and host. -/
theorem settle_eq_ok {service : String} {e : String × Draft} {r : RoutingRule}
    (h : settle service e = .ok r) :
    r.name = e.1 ∧ (∃ url ∈ e.2.url, r.url = some url) ∧ ∃ host ∈ e.2.host, r.host = some host := by
  obtain ⟨name, d⟩ := e
  obtain ⟨url, hurl, host, hhost, -, rfl⟩ := settle_eq_ok_iff_admitted.mp h
  exact ⟨rfl, ⟨url, hurl, rfl⟩, host, hhost, rfl⟩

/-- Every rule comes from a draft. -/
theorem exists_draft_of_mem_rulesOf {service : String} {labels : Dictionary String}
    {r : RoutingRule} (h : r ∈ rulesOf service labels) :
    ∃ e ∈ drafts service labels, settle service e = .ok r := by
  obtain ⟨outcome, houtcome, hr⟩ := List.mem_filterMap.mp h
  obtain ⟨e, he, rfl⟩ := List.mem_map.mp houtcome
  exact ⟨e, he, toOption_eq_some_iff.mp hr⟩

/-- The rules of a service stand under some of the names that its labels gave. -/
theorem names_rulesOf_sublist (service : String) (labels : Dictionary String) :
    ((rulesOf service labels).map RoutingRule.name).Sublist
      (Dictionary.keys (drafts service labels)) := by
  have hrow : ∀ ds : Dictionary Draft, (((ds.map (settle service)).filterMap Except.toOption).map
      RoutingRule.name).Sublist (Dictionary.keys ds) := by
    intro ds
    induction ds with
    | nil => exact List.Sublist.slnil
    | cons e ds ih =>
      rw [List.map_cons, Dictionary.keys_cons]
      cases hsettle : settle service e with
      | error notice => exact ih.cons e.1
      | ok r =>
        have hname : r.name = e.1 := (settle_eq_ok hsettle).1
        rw [List.filterMap_cons_some (f := Except.toOption) rfl, List.map_cons, hname]
        exact ih.cons_cons e.1
  exact hrow (drafts service labels)

/-- No two rules of a service have the same name. -/
theorem nodup_names_rulesOf (service : String) (labels : Dictionary String) :
    ((rulesOf service labels).map RoutingRule.name).Nodup :=
  (wellMade_drafts service labels).nodup.sublist (names_rulesOf_sublist service labels)

/-- Every rule of a service has a name, an address and a host. -/
theorem isComplete_of_mem_rulesOf {service : String} {labels : Dictionary String} {r : RoutingRule}
    (h : r ∈ rulesOf service labels) : r.isComplete = true := by
  obtain ⟨e, he, hsettle⟩ := exists_draft_of_mem_rulesOf h
  have hmade := wellMade_drafts service labels
  obtain ⟨hname, ⟨url, hurl, hrurl⟩, host, hhost, hrhost⟩ := settle_eq_ok hsettle
  have hnamed : r.name ≠ "" := hname ▸ hmade.named e he
  have hrouted : host ≠ "" := (hmade.sound e he).host host hhost
  have haddress : url ≠ "" := by
    obtain ⟨port, rfl⟩ := (hmade.sound e he).url url hurl
    intro hempty
    have hlength := congrArg String.length hempty
    simp [Draft.address] at hlength
  simp [RoutingRule.isComplete, RoutingRule.address?, RoutingRule.routed?, hrurl, hrhost, hnamed,
    hrouted, haddress]

end Routing
end ComposeNix
