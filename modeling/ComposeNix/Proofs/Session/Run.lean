import ComposeNix.Proofs.Session.Refusal
import Mathlib.Data.List.Induction

/-!
# Runs of operations

The most that an operation does to a service is to join it to the network of its router or to put
other labels on it (`effect`).  Which services it joins depends on the manifest that it finds: a
conversion gets as far as the labels are read.  Whatever joining and relabelling leave alone, an
operation leaves alone of all services (`map_services_apply`), and so does a run
(`map_services_applyAll`, `exists_service?_applyAll`).

`convert_applyAll_eq`: two runs behind which the services have the same labels lead to the same
module and the same notices, since of what else they may have changed, the networks, nothing that a
conversion answers depends (`build_withoutNetworks`).
-/

namespace ComposeNix

/-! ## Dictionaries with other values -/

theorem Dictionary.get?_map {α β : Type} (f : String → α → β) (d : Dictionary α) (key : String) :
    get? (d.map fun e => (e.1, f e.1 e.2)) key = (d.get? key).map (f key) := by
  induction d with
  | nil => rfl
  | cons e d ih =>
    rw [get?] at ih ⊢
    rw [get?, List.map_cons, List.lookup_cons, List.lookup_cons, ih]
    split
    · rename_i hkey
      rw [beq_iff_eq.mp hkey]
      rfl
    · rfl

theorem Dictionary.get?_append {α : Type} (d d' : Dictionary α) (key : String) :
    get? (d ++ d') key = (d.get? key).or (d'.get? key) := List.lookup_append

theorem Dictionary.ne_of_get?_eq_none {α : Type} {d : Dictionary α} {key : String}
    (h : d.get? key = none) : ∀ e ∈ d, e.1 ≠ key := by
  rintro e he rfl
  have hnone := List.lookup_eq_none_iff.mp h e he
  exact (bne_iff_ne.mp hnone) rfl

namespace Operation

/-! ## What one operation does -/

/-- Whether an operation joins the service of this name to the network of its router.  A conversion
that is not refused joins the services whose labels it reads. -/
def joins (m : Manifest) (name : String) : Operation → Bool
  | .attach service => name = service
  | .convert backend rules =>
    (Manifest.prepare backend rules).toOption.isSome && (m.readThrough.get? name).isSome
  | _ => false

/-- The labels that an operation puts on a service of this name. -/
def relabels? (name : String) : Operation → Option (Option (Dictionary String))
  | .relabel service labels => if name = service then some labels else none
  | _ => none

/-- What an operation makes of the service of this name. -/
def effect (m : Manifest) (name : String) (s : Service) (op : Operation) : Service :=
  match op.relabels? name with
  | some labels => { s with labels }
  | none => if op.joins m name then s.attach else s

end Operation

/-- A service without what an operation may change. -/
def Service.bare (s : Service) : Service := { s with networks := none, labels := none }

theorem Service.bare_attach (s : Service) : s.attach.bare = s.bare := by
  rw [attach_eq]
  rfl

namespace Manifest

variable {m : Manifest} {name : String} {change : Service → Service}

/-- Without a service of this name there is nothing to change. -/
theorem modify_of_service?_eq_none (h : m.service? name = none) (change : Service → Service) :
    m.modify name change = m := by
  have hsame : m.services.map (fun e => if e.1 = name then (e.1, change e.2) else e)
      = m.services := by
    conv_rhs => rw [← m.services.map_id]
    refine List.map_congr_left fun e he => ?_
    rw [if_neg (Dictionary.ne_of_get?_eq_none h e he)]
    rfl
  rw [modify, hsame]

theorem service?_modify (m : Manifest) (name service : String) (change : Service → Service) :
    (m.modify service change).service? name
      = (m.service? name).map fun s => if name = service then change s else s := by
  have hmodify : (m.modify service change).services
      = m.services.map fun e => (e.1, if e.1 = service then change e.2 else e.2) := by
    rw [modify]
    refine List.map_congr_left fun e _ => ?_
    split <;> rfl
  rw [service?, hmodify]
  exact Dictionary.get?_map (fun name s => if name = service then change s else s) m.services name

/-- What a change leaves alone of a service is left alone of all. -/
theorem map_modify {α : Type} {f : Service → α} (h : ∀ s, f (change s) = f s) :
    (m.modify name change).services.map (fun e => (e.1, f e.2))
      = m.services.map fun e => (e.1, f e.2) := by
  rw [modify, List.map_map]
  refine List.map_congr_left fun e _ => ?_
  rw [Function.comp_apply]
  split
  · rw [h]
  · rfl

/-- The services are those whose labels are read, and others behind them. -/
theorem exists_services_eq (m : Manifest) : ∃ rest, m.services = m.readThrough ++ rest
    ∧ m.attachThrough.services = m.readThrough.map (fun e => (e.1, e.2.attach)) ++ rest := by
  obtain ⟨rest, hservices⟩ : m.readThrough <+: m.services := List.takeWhile_prefix _
  refine ⟨rest, hservices.symm, ?_⟩
  rw [attachThrough]
  simp only
  rw [← hservices, List.drop_left]

theorem service?_attachThrough (m : Manifest) (name : String) :
    m.attachThrough.service? name = (m.service? name).map fun s =>
      if (m.readThrough.get? name).isSome then s.attach else s := by
  obtain ⟨rest, hservices, hattached⟩ := m.exists_services_eq
  have hjoined : Dictionary.get? (m.readThrough.map fun e => (e.1, e.2.attach)) name
      = (m.readThrough.get? name).map Service.attach :=
    Dictionary.get?_map (fun _ => Service.attach) m.readThrough name
  rw [service?, service?, hattached, hservices, Dictionary.get?_append, Dictionary.get?_append,
    hjoined]
  cases m.readThrough.get? name <;> simp

/-- What joining leaves alone of a service is left alone of all. -/
theorem map_attachThrough {α : Type} {f : Service → α} (h : ∀ s, f s.attach = f s) (m : Manifest) :
    m.attachThrough.services.map (fun e => (e.1, f e.2))
      = m.services.map fun e => (e.1, f e.2) := by
  obtain ⟨rest, hservices, hattached⟩ := m.exists_services_eq
  rw [hattached, hservices]
  simp only [List.map_append, List.map_map, Function.comp_def, h]

end Manifest

namespace Operation

variable {m : Manifest}

theorem onService_modify (m : Manifest) (name : String) (change : Service → Service)
    (outcome : Service → Outcome) :
    (onService name m fun s => (outcome s, m.modify name change)).2 = m.modify name change := by
  rw [onService]
  split
  · rename_i hnone
    exact (Manifest.modify_of_service?_eq_none hnone change).symm
  · rfl

theorem onService_read (m : Manifest) (name : String) (use : Service → Outcome × Manifest)
    (h : ∀ s, (use s).2 = m) : (onService name m use).2 = m := by
  rw [onService]
  split
  · rfl
  · exact h _

theorem apply_options (m : Manifest) (service : String) : apply m (.options service) = m :=
  onService_read m service _ fun _ => rfl

theorem apply_container (m : Manifest) (service : String) (backend : Value) :
    apply m (.container service backend) = m :=
  onService_read m service _ fun s => by cases Backend.ofValue backend <;> rfl

theorem apply_convert (m : Manifest) (backend : Value) (rules : List Value) :
    apply m (.convert backend rules)
      = if (Manifest.prepare backend rules).toOption.isSome then m.attachThrough else m :=
  Manifest.snd_convert backend rules m

/-- What an operation leaves under a name is its effect on the service there. -/
theorem service?_apply (m : Manifest) (op : Operation) (name : String) :
    (apply m op).service? name = (m.service? name).map fun s => op.effect m name s := by
  cases op with
  | attach service =>
    rw [apply, run, onService_modify, Manifest.service?_modify]
    simp only [effect, relabels?, joins, decide_eq_true_eq]
  | relabel service labels =>
    rw [apply, run, onService_modify, Manifest.service?_modify]
    congr 1
    funext s
    simp only [effect, relabels?, joins, Bool.false_eq_true, if_false]
    split <;> rfl
  | volumes => exact Option.map_id'.symm
  | networks => exact Option.map_id'.symm
  | options service =>
    rw [apply_options]
    exact Option.map_id'.symm
  | container service backend =>
    rw [apply_container]
    exact Option.map_id'.symm
  | convert backend rules =>
    rw [apply_convert]
    simp only [effect, relabels?, joins]
    split
    · simp [*, Manifest.service?_attachThrough]
    · simp [*]

/-- What is left alone of a service, by joining it to a network and by putting on it what labels an
operation may put on it, is left alone of all services. -/
theorem map_services_apply {α : Type} {f : Service → α} {op : Operation}
    (hattach : ∀ s, f s.attach = f s)
    (hrelabel : ∀ name labels s, op.relabels? name = some labels → f { s with labels } = f s) :
    (apply m op).services.map (fun e => (e.1, f e.2)) = m.services.map fun e => (e.1, f e.2) := by
  cases op with
  | attach service =>
    rw [apply, run, onService_modify]
    exact Manifest.map_modify hattach
  | relabel service labels =>
    rw [apply, run, onService_modify]
    exact Manifest.map_modify fun s => hrelabel service labels s (if_pos rfl)
  | volumes => rfl
  | networks => rfl
  | options service => rw [apply_options]
  | container service backend => rw [apply_container]
  | convert backend rules =>
    rw [apply_convert]
    split
    · exact Manifest.map_attachThrough hattach m
    · rfl

/-- An operation changes the services and nothing else. -/
theorem apply_eq (m : Manifest) (op : Operation) :
    apply m op = { m with services := (apply m op).services } := by
  cases op with
  | attach service => rw [apply, run, onService_modify]; rfl
  | relabel service labels => rw [apply, run, onService_modify]; rfl
  | volumes => rfl
  | networks => rfl
  | options service => rw [apply_options]
  | container service backend => rw [apply_container]
  | convert backend rules =>
    rw [apply_convert]
    split <;> rfl

theorem relabels?_of_joins {name : String} {op : Operation} (h : op.joins m name = true) :
    op.relabels? name = none := by
  cases op with
  | relabel service labels => exact nomatch h
  | _ => rfl

theorem networks_effect_of_not_joins {name : String} {s : Service} {op : Operation}
    (h : op.joins m name = false) : (op.effect m name s).networks = s.networks := by
  rw [effect, h]
  split <;> rfl

/-! ## What a run does -/

theorem applyAll_concat (m : Manifest) (ops : List Operation) (op : Operation) :
    applyAll m (ops ++ [op]) = apply (applyAll m ops) op := by
  rw [applyAll, List.foldl_append, List.foldl_cons, List.foldl_nil]
  rfl

theorem applyAll_eq (m : Manifest) (ops : List Operation) :
    applyAll m ops = { m with services := (applyAll m ops).services } := by
  induction ops using List.reverseRecOn with
  | nil => rfl
  | append_singleton ops op ih =>
    rw [applyAll_concat, apply_eq, ih]

theorem map_services_applyAll {α : Type} {f : Service → α} {ops : List Operation}
    (hattach : ∀ s, f s.attach = f s)
    (hrelabel : ∀ op ∈ ops, ∀ name labels s, op.relabels? name = some labels →
      f { s with labels } = f s) :
    (applyAll m ops).services.map (fun e => (e.1, f e.2))
      = m.services.map fun e => (e.1, f e.2) := by
  induction ops using List.reverseRecOn with
  | nil => rfl
  | append_singleton ops op ih =>
    rw [applyAll_concat, map_services_apply hattach (hrelabel op (by simp)),
      ih fun o ho => hrelabel o (List.mem_append_left _ ho)]

/-- Under every name a run leaves a service of which it has changed nothing but the networks and the
labels, and these are the ones that were put on it last. -/
theorem exists_service?_applyAll {name : String} {s : Service} (hs : m.service? name = some s)
    (ops : List Operation) : ∃ networks, (applyAll m ops).service? name = some { s with
      networks, labels := ((ops.filterMap (relabels? name)).getLast?).getD s.labels } := by
  induction ops using List.reverseRecOn with
  | nil => exact ⟨s.networks, hs⟩
  | append_singleton ops op ih =>
    obtain ⟨networks, hbefore⟩ := ih
    rw [applyAll_concat, service?_apply, hbefore, Option.map_some, effect]
    rw [List.filterMap_append, List.filterMap_cons, List.filterMap_nil]
    cases hrelabels : op.relabels? name with
    | some labels =>
      refine ⟨networks, ?_⟩
      simp
    | none =>
      simp only [List.append_nil]
      split
      · rw [Service.attach_eq]
        exact ⟨_, rfl⟩
      · exact ⟨networks, rfl⟩

end Operation

/-! ## Modules after a run -/

namespace Manifest

open Operation (applyAll)

/-- The labels of the services, one after the other. -/
def labelling (m : Manifest) : List (Option (Dictionary String)) :=
  m.services.map fun e => e.2.labels

variable {m m₁ m₂ : Manifest}

/-- A manifest without the networks of its services is made of what no operation changes and of the
labels. -/
theorem withoutNetworks_eq (m : Manifest) : m.withoutNetworks = { m with
    services := List.zipWith (fun e labels => (e.1, { e.2 with labels }))
      (m.services.map fun e => (e.1, e.2.bare)) m.labelling } := by
  rw [withoutNetworks, labelling, List.zipWith_map, List.zipWith_self]
  rfl

/-- Behind two runs with the same labels, the networks make all the difference. -/
theorem withoutNetworks_applyAll_eq {ops₁ ops₂ : List Operation}
    (h : (applyAll m ops₁).labelling = (applyAll m ops₂).labelling) :
    (applyAll m ops₁).withoutNetworks = (applyAll m ops₂).withoutNetworks := by
  have hbare (ops : List Operation) :
      (applyAll m ops).services.map (fun e => (e.1, e.2.bare))
        = m.services.map fun e => (e.1, e.2.bare) :=
    Operation.map_services_applyAll Service.bare_attach fun _ _ _ _ _ _ => rfl
  rw [withoutNetworks_eq, withoutNetworks_eq, hbare, hbare, h, Operation.applyAll_eq m ops₁,
    Operation.applyAll_eq m ops₂]

/-- What a conversion answers depends on no network. -/
theorem fst_convert_eq_of_withoutNetworks (h : m₁.withoutNetworks = m₂.withoutNetworks)
    (backend : Value) (rules : List Value) :
    (m₁.convert backend rules).1 = (m₂.convert backend rules).1 := by
  rw [convert_eq, convert_eq]
  cases prepare backend rules with
  | error fault => rfl
  | ok ready =>
    simp only
    rw [← m₁.build_withoutNetworks, h, build_withoutNetworks]

theorem labelling_applyAll_of_forall {ops : List Operation}
    (h : ∀ op ∈ ops, ∀ name, op.relabels? name = none) :
    (applyAll m ops).labelling = m.labelling := by
  have hlabels : (applyAll m ops).services.map (fun e => (e.1, e.2.labels))
      = m.services.map fun e => (e.1, e.2.labels) :=
    Operation.map_services_applyAll (f := Service.labels) (fun s => by rw [s.attach_eq])
      fun op hop name labels s hrelabels => by
        rw [h op hop name] at hrelabels
        exact nomatch hrelabels
  have hsnd := congrArg (List.map Prod.snd) hlabels
  rwa [List.map_map, List.map_map] at hsnd

/-- A module does not depend on what was done before.  Behind any two runs that leave the same
labels, a conversion comes to the same end: the same text or the same fault, and the same
notices.  In particular it does behind a run that leaves all labels as they were, however
often services were joined and the manifest was converted. -/
theorem convert_applyAll_eq (m : Manifest) :
    (∀ ops₁ ops₂, (applyAll m ops₁).labelling = (applyAll m ops₂).labelling →
        ∀ backend rules, ((applyAll m ops₁).convert backend rules).1
          = ((applyAll m ops₂).convert backend rules).1)
      ∧ ∀ ops, (∀ op ∈ ops, ∀ name, op.relabels? name = none) →
          ∀ backend rules, ((applyAll m ops).convert backend rules).1
            = (m.convert backend rules).1 := by
  have hruns : ∀ ops₁ ops₂, (applyAll m ops₁).labelling = (applyAll m ops₂).labelling →
      ∀ backend rules, ((applyAll m ops₁).convert backend rules).1
        = ((applyAll m ops₂).convert backend rules).1 := fun ops₁ ops₂ h =>
    fst_convert_eq_of_withoutNetworks (withoutNetworks_applyAll_eq h)
  exact ⟨hruns, fun ops h => hruns ops [] (labelling_applyAll_of_forall h)⟩

end Manifest
end ComposeNix
