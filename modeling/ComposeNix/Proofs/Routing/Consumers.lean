import ComposeNix.Proofs.Routing.Written
import ComposeNix.Proofs.Text.Split
import ComposeNix.Systemd.Override
import Mathlib.Logic.Relation

/-!
# Who reads which labels

Labels that begin with `traefik.` are for the router: they say routes, and one names the network
that the router shares with the service.  All others are for the container and its unit.  Nobody
reads the labels of the other.

`Edit` is one change of labels: a value is replaced, or a label is put in or taken out, wherever
it stands.  Rows of labels can be turned into each other by such changes to labels of one kind
exactly if the other labels are the same and in the same order (`edited_iff`).  So it is enough to
know of a reader that it looks at no other labels than its own, and this is shown reader by reader.
`unchanged_of_edited` puts them together.
-/

namespace ComposeNix

namespace Text

theorem head?_of_startsWith {lead s : String} {c : Char} (hlead : lead.toList.head? = some c)
    (h : startsWith lead s = true) : s.toList.head? = some c := by
  obtain ⟨rest, hrest⟩ := startsWith_iff.mp h
  rw [← hrest, List.head?_append, hlead, Option.some_or]

/-- A text does not begin in two ways. -/
theorem after?_eq_none {lead other s : String} {c d : Char} (hne : c ≠ d)
    (hlead : lead.toList.head? = some c) (hother : other.toList.head? = some d)
    (h : startsWith other s = true) : after? lead s = none := by
  rw [← Option.not_isSome_iff_eq_none]
  intro hsome
  have hfirst := head?_of_startsWith hlead hsome
  rw [head?_of_startsWith hother h] at hfirst
  exact hne (Option.some.inj hfirst).symm

end Text

/-! ## Changes of labels -/

/-- One change of labels under keys of a kind. -/
inductive Edit (kind : String → Bool) :
    List (String × String) → List (String × String) → Prop
  | replace {key : String} (h : kind key = true) (front : List (String × String))
      (old new : String) (back : List (String × String)) :
      Edit kind (front ++ (key, old) :: back) (front ++ (key, new) :: back)
  | add {key : String} (h : kind key = true) (front : List (String × String)) (value : String)
      (back : List (String × String)) : Edit kind (front ++ back) (front ++ (key, value) :: back)
  | remove {key : String} (h : kind key = true) (front : List (String × String)) (value : String)
      (back : List (String × String)) : Edit kind (front ++ (key, value) :: back) (front ++ back)

/-- Labels that come out of others by any number of changes. -/
abbrev Edited (kind : String → Bool) := Relation.ReflTransGen (Edit kind)

section Edited

variable {kind : String → Bool} {a b : List (String × String)}

/-- The labels of the other kind. -/
def labelsBut (kind : String → Bool) (labels : List (String × String)) : List (String × String) :=
  labels.filter fun label => !kind label.1

/-- A change leaves the labels of the other kind alone. -/
theorem Edit.labelsBut_eq (h : Edit kind a b) : labelsBut kind a = labelsBut kind b := by
  cases h with
  | replace hkind => simp [labelsBut, hkind]
  | add hkind => simp [labelsBut, hkind]
  | remove hkind => simp [labelsBut, hkind]

theorem Edited.labelsBut_eq (h : Edited kind a b) : labelsBut kind a = labelsBut kind b := by
  induction h with
  | refl => rfl
  | tail _ hstep ih => exact ih.trans hstep.labelsBut_eq

theorem Edit.symm (h : Edit kind a b) : Edit kind b a := by
  cases h with
  | replace hkind front old new back => exact .replace hkind front new old back
  | add hkind front value back => exact .remove hkind front value back
  | remove hkind front value back => exact .add hkind front value back

theorem Edited.symm (h : Edited kind a b) : Edited kind b a := by
  induction h with
  | refl => exact .refl
  | tail _ hstep ih => exact .head hstep.symm ih

/-- A change can be made behind a label as well. -/
theorem Edit.cons (label : String × String) (h : Edit kind a b) :
    Edit kind (label :: a) (label :: b) := by
  cases h with
  | replace hkind front old new back => exact .replace hkind (label :: front) old new back
  | add hkind front value back => exact .add hkind (label :: front) value back
  | remove hkind front value back => exact .remove hkind (label :: front) value back

theorem Edited.cons (label : String × String) (h : Edited kind a b) :
    Edited kind (label :: a) (label :: b) := by
  induction h with
  | refl => exact .refl
  | tail _ hstep ih => exact ih.tail (hstep.cons label)

/-- All labels of a kind can be taken out. -/
theorem edited_labelsBut (kind : String → Bool) (a : List (String × String)) :
    Edited kind a (labelsBut kind a) := by
  induction a with
  | nil => exact .refl
  | cons label a ih =>
    by_cases hkind : kind label.1 = true
    · have hremove : Edit kind (label :: a) a := .remove hkind [] label.2 a
      rw [labelsBut, List.filter_cons_of_neg (by simp [hkind])]
      exact .head hremove ih
    · rw [labelsBut, List.filter_cons_of_pos (by simp [hkind])]
      exact ih.cons label

/-- Labels can be turned into others by changes to those of one kind exactly if the labels of the
other kind are the same, in the same order. -/
theorem edited_iff : Edited kind a b ↔ labelsBut kind a = labelsBut kind b := by
  constructor
  · exact Edited.labelsBut_eq
  · intro h
    have hb := (edited_labelsBut kind b).symm
    rw [← h] at hb
    exact (edited_labelsBut kind a).trans hb

end Edited

/-! ## The router's labels -/

/-- Whether a key is one of the router's. -/
def isRouterKey (key : String) : Bool := Text.startsWith routerLabel key

namespace Routing

/-- A label about a route is one of the router's. -/
theorem isRouterKey_of_isAboutRoute {key : String} (h : isAboutRoute key = true) :
    isRouterKey key = true := by
  by_contra hkey
  rw [isRouterKey, Text.startsWith_iff] at hkey
  have hforeign : IsForeign key := by
    constructor
    · intro hlead
      exact hkey (List.IsPrefix.trans ⟨"http.routers.".toList, rfl⟩ hlead)
    · intro hlead
      exact hkey (List.IsPrefix.trans ⟨"http.services.".toList, rfl⟩ hlead)
  rw [isAboutRoute, readKey_of_isForeign hforeign, Option.isSome_none] at h
  exact Bool.false_ne_true h

/-- Routes are read from the router's labels. -/
theorem rulesOf_filter (service : String) (labels : List (String × String)) :
    rulesOf service (labels.filter fun label => isRouterKey label.1) = rulesOf service labels := by
  have hdrafts : drafts service (labels.filter fun label => isRouterKey label.1)
      = drafts service labels := by
    have hboth : (labels.filter fun label => isRouterKey label.1).filter
          (fun label => isAboutRoute label.1)
        = labels.filter fun label => isAboutRoute label.1 := by
      rw [List.filter_filter]
      refine List.filter_congr fun label _ => ?_
      cases hroute : isAboutRoute label.1 with
      | false => rfl
      | true => simp [isRouterKey_of_isAboutRoute hroute]
    rw [← drafts_filter, hboth, drafts_filter]
  rw [rulesOf, outcomes, hdrafts, rulesOf, outcomes]

end Routing

/-- A setting of a unit is said by no label of the router. -/
theorem labelledSettings_labelsBut {lead : String} (hlead : lead.toList.head? = some 'p')
    (labels : List (String × String)) :
    labelledSettings lead (labelsBut isRouterKey labels) = labelledSettings lead labels := by
  rw [labelledSettings, labelsBut, List.filterMap_filter, labelledSettings]
  refine congrArg (List.filterMap · labels) (funext fun label => ?_)
  cases hkey : isRouterKey label.1 with
  | false => rfl
  | true =>
    have hnone : Text.after? lead label.1 = none :=
      Text.after?_eq_none (by decide : 'p' ≠ 't') hlead rfl hkey
    rw [hnone]
    rfl

/-! ## A service with other labels -/

namespace Service

/-- A service with these labels and networks in the place of its own. -/
def changed (labels : Option (Dictionary String)) (networks : Option (List String))
    (s : Service) : Service := { s with labels, networks }

section Changed

variable (s : Service) {labels : Option (Dictionary String)}

section Container

variable (h : labelsBut isRouterKey (s.labels.getD []) = labelsBut isRouterKey (labels.getD []))
  (networks : Option (List String))
include h

theorem containerBlock_changed (project name : String) :
    (s.changed labels networks).containerBlock project name = s.containerBlock project name := by
  have hbinding : (s.changed labels networks).labelsBinding = s.labelsBinding := by
    have hlabels : (s.changed labels networks).containerLabels = s.containerLabels := h.symm
    rw [labelsBinding, hlabels, labelsBinding]
  rw [containerBlock, declaration, declarationFields, hbinding]
  rfl

theorem overrideBlock?_changed (backend : Backend) (name : String) :
    (s.changed labels networks).overrideBlock? backend name = s.overrideBlock? backend name := by
  have hsettings : ∀ {lead : String}, lead.toList.head? = some 'p' →
      labelledSettings lead (labels.getD []) = labelledSettings lead (s.labels.getD []) := by
    intro lead hlead
    rw [← labelledSettings_labelsBut hlead, ← h, labelledSettings_labelsBut hlead]
  have hservice : (s.changed labels networks).serviceSettings = s.serviceSettings :=
    congrArg (Dictionary.update s.policySettings) (hsettings rfl)
  have hunit : (s.changed labels networks).unitSettings = s.unitSettings := hsettings rfl
  rw [overrideBlock?, override?, hservice, hunit, overrideBlock?, override?]

end Container

section Router

variable (h : labelsBut (fun key => !isRouterKey key) (s.labels.getD [])
  = labelsBut (fun key => !isRouterKey key) (labels.getD []))
include h

theorem filter_isRouterKey_eq : (labels.getD []).filter (fun label => isRouterKey label.1)
    = (s.labels.getD []).filter fun label => isRouterKey label.1 := by
  simpa only [labelsBut, Bool.not_not] using h.symm

theorem routes_changed (networks : Option (List String)) (name : String) :
    (s.changed labels networks).routes name = s.routes name := by
  rw [routes, ← Routing.rulesOf_filter, changed, s.filter_isRouterKey_eq h,
    Routing.rulesOf_filter, routes]

theorem routingNetwork?_changed (networks : Option (List String)) :
    (s.changed labels networks).routingNetwork? = s.routingNetwork? := by
  have hkey : isRouterKey networkLabel = true := by decide
  rw [routingNetwork?, ← Dictionary.get?_filter hkey, changed, s.filter_isRouterKey_eq h,
    Dictionary.get?_filter hkey, routingNetwork?]

theorem attach_changed : (s.changed labels s.networks).attach.networks = s.attach.networks := by
  rw [attach, s.routingNetwork?_changed h, attach]
  split <;> rfl

end Router

/-- Changing labels of the router, and the networks of a service, changes neither the block of its
container nor the override of its unit nor an option.  Changing other labels changes no route and
not the network that the service is joined to. -/
theorem unchanged_of_edited (s : Service) (labels : Option (Dictionary String)) :
    (Edited isRouterKey (s.labels.getD []) (labels.getD []) → ∀ networks,
        (∀ project name,
          (s.changed labels networks).containerBlock project name = s.containerBlock project name)
        ∧ (∀ backend name,
          (s.changed labels networks).overrideBlock? backend name = s.overrideBlock? backend name)
        ∧ (s.changed labels networks).extraOptions = s.extraOptions)
      ∧ (Edited (fun key => !isRouterKey key) (s.labels.getD []) (labels.getD []) →
        (∀ name, (s.changed labels s.networks).routes name = s.routes name)
        ∧ (s.changed labels s.networks).routingNetwork? = s.routingNetwork?
        ∧ (s.changed labels s.networks).attach.networks = s.attach.networks) := by
  constructor
  · intro hedited networks
    have hlabels := hedited.labelsBut_eq
    exact ⟨s.containerBlock_changed hlabels networks, s.overrideBlock?_changed hlabels networks,
      rfl⟩
  · intro hedited
    have hlabels := hedited.labelsBut_eq
    exact ⟨s.routes_changed hlabels s.networks, s.routingNetwork?_changed hlabels s.networks,
      s.attach_changed hlabels⟩

end Changed

/-- A service with labels for the router and others. -/
def labelled : Service :=
  { (Service.read []).value with
    labels := some [
      ("traefik.http.routers.app.rule", "Host(\x60a.io\x60)"),
      ("app", "x"),
      ("traefik.docker.network", "proxy"),
      ("pod2nix.systemd.unit.After", "db.service")] }

/-- It may be routed otherwise and join other networks, and it may be labelled otherwise. -/
theorem unchanged_of_edited_labelled :
    let rerouted := [("app", "x"), ("traefik.enable", "false"),
      ("pod2nix.systemd.unit.After", "db.service")]
    let renamed := [("traefik.http.routers.app.rule", "Host(\x60a.io\x60)"), ("app", "y"),
      ("note", ""), ("traefik.docker.network", "proxy")]
    Edited isRouterKey (labelled.labels.getD []) rerouted
      ∧ (labelled.changed (some rerouted) (some ["web"])).containerBlock "shop" "app"
        = labelled.containerBlock "shop" "app"
      ∧ Edited (fun key => !isRouterKey key) (labelled.labels.getD []) renamed
      ∧ (labelled.changed (some renamed) labelled.networks).attach.networks
        = labelled.attach.networks := by
  intro rerouted renamed
  have hrouter : Edited isRouterKey (labelled.labels.getD []) rerouted :=
    edited_iff.mpr (by decide)
  have hothers : Edited (fun key => !isRouterKey key) (labelled.labels.getD []) renamed :=
    edited_iff.mpr (by decide)
  exact ⟨hrouter,
    ((unchanged_of_edited labelled (some rerouted)).1 hrouter (some ["web"])).1 "shop" "app",
    hothers, ((unchanged_of_edited labelled (some renamed)).2 hothers).2.2⟩

end Service
end ComposeNix
