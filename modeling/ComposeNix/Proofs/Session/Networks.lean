import ComposeNix.Proofs.Session.Run

/-!
# The networks of a service

The networks of a service only grow (`networks_applyAll`).  Behind the networks that it began with
stand those that its label named at some moment of the run at which it was joined (`Met`), each
once.  What one joining adds is `Grown.attach`, and the run is followed from its beginning, so that
what is said of its end is said of every moment.
-/

namespace ComposeNix

open Operation (applyAll)

/-! ## Joining once -/

namespace Service

theorem routingNetwork?_eq_some_iff {s : Service} {network : String} :
    s.routingNetwork? = some network
      ↔ (s.labels.getD []).get? networkLabel = some network ∧ network ≠ "" := by
  rw [routingNetwork?, nonEmpty?, Option.filter_eq_some_iff]
  refine and_congr_right fun _ => ?_
  rw [Bool.not_eq_true', ← Bool.not_eq_true, String.isEmpty_iff]

end Service

/-- Networks that have grown from those of the beginning by the networks that were met: each that
was not there stands behind, once, and there is still no list if there was none and no network
was met. -/
structure Grown (initial networks : Option (List String)) (met : String → Prop) : Prop where
  exists_added : ∃ added, networks.getD [] = initial.getD [] ++ added ∧ added.Nodup
    ∧ ∀ network, network ∈ added ↔ network ∉ initial.getD [] ∧ met network
  absent_iff : networks = none ↔ initial = none ∧ ∀ network, ¬ met network

namespace Grown

variable {initial networks : Option (List String)} {met met' : String → Prop}

theorem refl (initial : Option (List String)) : Grown initial initial fun _ => False where
  exists_added := ⟨[], by simp⟩
  absent_iff := by simp

theorem congr (h : Grown initial networks met) (hmet : ∀ network, met network ↔ met' network) :
    Grown initial networks met' := by
  obtain rfl : met = met' := funext fun network => propext (hmet network)
  exact h

/-- Joining a service keeps its networks grown, by the network that its label names. -/
theorem attach {s : Service} (h : Grown initial s.networks met) :
    Grown initial s.attach.networks fun network =>
      met network ∨ s.routingNetwork? = some network := by
  cases hnetwork : s.routingNetwork? with
  | none =>
    rw [Service.attach, hnetwork]
    exact h.congr fun network => by simp
  | some network =>
    obtain ⟨added, hadded, hnodup, hmem⟩ := h.exists_added
    have habsent : s.attach.networks ≠ none := by
      rw [Service.attach, hnetwork]
      exact Option.some_ne_none _
    refine ⟨?_, iff_of_false habsent fun hnone => hnone.2 network (Or.inr rfl)⟩
    by_cases hthere : network ∈ s.networks.getD []
    · have hsame : s.attach.networks.getD [] = s.networks.getD [] := by
        rw [Service.attach, hnetwork]
        exact if_pos hthere
      refine ⟨added, hsame.trans hadded, hnodup, fun other => ?_⟩
      rw [hmem]
      refine and_congr_right fun hother => ⟨Or.inl, ?_⟩
      rintro (hmet | hsome)
      · exact hmet
      · obtain rfl := Option.some.inj hsome
        rw [hadded, List.mem_append] at hthere
        exact ((hmem network).mp (hthere.resolve_left hother)).2
    · have hgrown : s.attach.networks.getD [] = s.networks.getD [] ++ [network] := by
        rw [Service.attach, hnetwork]
        exact if_neg hthere
      rw [hadded, List.mem_append, not_or] at hthere
      refine ⟨added ++ [network], ?_, ?_, fun other => ?_⟩
      · rw [hgrown, hadded, List.append_assoc]
      · exact List.nodup_append.mpr ⟨hnodup, List.pairwise_singleton _ network,
          fun a ha b hb hab => hthere.2 (List.mem_singleton.mp hb ▸ hab ▸ ha)⟩
      · rw [List.mem_append, List.mem_singleton, hmem, Option.some.injEq]
        constructor
        · rintro (⟨hother, hmet⟩ | rfl)
          · exact ⟨hother, Or.inl hmet⟩
          · exact ⟨hthere.1, Or.inr rfl⟩
        · rintro ⟨hother, hmet | rfl⟩
          · exact Or.inl ⟨hother, hmet⟩
          · exact Or.inr rfl

end Grown

/-! ## Networks that a run meets -/

namespace Manifest

variable {m : Manifest}

/-- At some moment of a run the service of this name was joined while its label named this
network. -/
def Met (m : Manifest) (ops : List Operation) (name network : String) : Prop :=
  ∃ before op after s, ops = before ++ op :: after
    ∧ op.joins (applyAll m before) name = true
    ∧ (applyAll m before).service? name = some s
    ∧ (s.labels.getD []).get? networkLabel = some network ∧ network ≠ ""

theorem not_met_nil (m : Manifest) (name network : String) : ¬ m.Met [] name network := by
  rintro ⟨before, op, after, s, hops, -⟩
  exact List.cons_ne_nil op after (List.append_eq_nil_iff.mp hops.symm).2

/-- One more operation meets a network if it joins the service while its label names it. -/
theorem met_concat_iff {ops : List Operation} {op : Operation} {name network : String} :
    m.Met (ops ++ [op]) name network ↔ m.Met ops name network
      ∨ op.joins (applyAll m ops) name = true
        ∧ ∃ s, (applyAll m ops).service? name = some s ∧ s.routingNetwork? = some network := by
  simp only [Service.routingNetwork?_eq_some_iff]
  constructor
  · rintro ⟨before, o, after, s, hops, hjoins, hmoment⟩
    rcases List.eq_nil_or_concat after with rfl | ⟨after, o', rfl⟩
    · obtain ⟨rfl, hlast⟩ := List.append_inj' hops rfl
      obtain rfl := List.head_eq_of_cons_eq hlast
      exact Or.inr ⟨hjoins, s, hmoment⟩
    · rw [List.concat_eq_append, ← List.cons_append, ← List.append_assoc] at hops
      obtain ⟨rfl, -⟩ := List.append_inj' hops rfl
      exact Or.inl ⟨before, o, after, s, rfl, hjoins, hmoment⟩
  · rintro (⟨before, o, after, s, rfl, hjoins, hmoment⟩ | ⟨hjoins, s, hmoment⟩)
    · exact ⟨before, o, after ++ [op], s, by simp, hjoins, hmoment⟩
    · exact ⟨ops, op, [], s, rfl, hjoins, hmoment⟩

/-- At every moment of a run the networks of a service have grown by those that were met. -/
theorem grown_applyAll {name : String} {s : Service} (hs : m.service? name = some s)
    (ops : List Operation) : ∃ s', (applyAll m ops).service? name = some s'
      ∧ Grown s.networks s'.networks (m.Met ops name) := by
  induction ops using List.reverseRecOn with
  | nil =>
    exact ⟨s, hs, (Grown.refl s.networks).congr fun n => iff_of_false id (m.not_met_nil name n)⟩
  | append_singleton ops op ih =>
    obtain ⟨s', hmoment, hgrown⟩ := ih
    refine ⟨op.effect (applyAll m ops) name s', ?_, ?_⟩
    · rw [Operation.applyAll_concat, Operation.service?_apply, hmoment, Option.map_some]
    · cases hjoins : op.joins (applyAll m ops) name with
      | true =>
        have hattach : op.effect (applyAll m ops) name s' = s'.attach := by
          rw [Operation.effect, Operation.relabels?_of_joins hjoins, hjoins]
          rfl
        rw [hattach]
        refine hgrown.attach.congr fun network => ?_
        rw [met_concat_iff, hmoment]
        simp [hjoins]
      | false =>
        rw [Operation.networks_effect_of_not_joins hjoins]
        refine hgrown.congr fun network => ?_
        rw [met_concat_iff]
        simp [hjoins]

/-- A conversion that is not refused joins the services of which the labels are read, and those of
all in front of them: all services if it writes a module. -/
theorem joins_convert_iff {backend : Value} {rules : List Value} {name : String} :
    (Operation.convert backend rules).joins m name = true ↔ Succeeds (prepare backend rules)
      ∧ ∃ front s rest, m.services = front ++ (name, s) :: rest
        ∧ ∀ e ∈ front ++ [(name, s)], e.2.break? e.1 = none := by
  have hprepared : (prepare backend rules).toOption.isSome = true
      ↔ Succeeds (prepare backend rules) := by
    cases prepare backend rules <;> simp [Except.toOption]
  rw [Operation.joins, Bool.and_eq_true, hprepared]
  refine and_congr_right fun _ => ⟨fun hread => ?_, ?_⟩
  · obtain ⟨s, hs⟩ := Option.isSome_iff_exists.mp hread
    obtain ⟨front, back, hsplit⟩ := List.append_of_mem (Dictionary.mem_of_get?_eq_some hs)
    obtain ⟨rest, hservices, -⟩ := m.exists_services_eq
    refine ⟨front, s, back ++ rest, ?_, fun e he => forall_mem_readThrough m e ?_⟩
    · rw [hservices, hsplit, List.append_assoc, List.cons_append]
    · rw [hsplit, ← List.singleton_append, ← List.append_assoc]
      exact List.mem_append_left _ he
  · rintro ⟨front, s, rest, hservices, hread⟩
    have hthrough : m.readThrough = front ++ [(name, s)]
        ++ rest.takeWhile fun e => (e.2.break? e.1).isNone := by
      rw [readThrough, hservices, ← List.singleton_append, ← List.append_assoc,
        List.takeWhile_append_of_pos fun e he => Option.isNone_iff_eq_none.mpr (hread e he)]
    by_contra hnone
    rw [Option.not_isSome_iff_eq_none] at hnone
    refine Dictionary.ne_of_get?_eq_none hnone (name, s) ?_ rfl
    rw [hthrough]
    exact List.mem_append_left _ (List.mem_append_right _ (List.mem_singleton_self _))

/-- What a run of operations leaves of a manifest.  Its services keep their names and their order,
and all but the services is as it was.  The networks of a service are those that it began with
and behind them, each once, the others that its label named at a moment at which it was joined;
without such a moment a list that was absent stays absent.  Its labels are those that were put
on it last, and nothing else of it has changed.  A conversion joins a service exactly if it is not
refused and the labels of the service and of all in front of it are read to the end. -/
theorem networks_applyAll (m : Manifest) (ops : List Operation) :
    (∃ services, applyAll m ops = { m with services }
        ∧ Dictionary.keys services = Dictionary.keys m.services)
      ∧ (∀ name s, m.service? name = some s → ∃ networks labels,
          (applyAll m ops).service? name = some { s with networks, labels }
          ∧ Grown s.networks networks (m.Met ops name)
          ∧ labels = ((ops.filterMap (Operation.relabels? name)).getLast?).getD s.labels)
      ∧ ∀ backend rules name, (Operation.convert backend rules).joins (applyAll m ops) name = true
          ↔ Succeeds (prepare backend rules) ∧ ∃ front s rest,
            (applyAll m ops).services = front ++ (name, s) :: rest
              ∧ ∀ e ∈ front ++ [(name, s)], e.2.break? e.1 = none := by
  refine ⟨⟨_, Operation.applyAll_eq m ops, ?_⟩, fun name s hs => ?_,
    fun backend rules name => joins_convert_iff⟩
  · have hrow : (applyAll m ops).services.map (fun e => (e.1, ()))
        = m.services.map fun e => (e.1, ()) :=
      Operation.map_services_applyAll (f := fun _ => ()) (fun _ => rfl) fun _ _ _ _ _ _ => rfl
    have hnames := congrArg (List.map Prod.fst) hrow
    rwa [List.map_map, List.map_map] at hnames
  · obtain ⟨s', hs', hgrown⟩ := grown_applyAll hs ops
    obtain ⟨networks, hend⟩ := Operation.exists_service?_applyAll hs ops
    obtain rfl := Option.some.inj (hs'.symm.trans hend)
    exact ⟨networks, _, hend, hgrown, rfl⟩

/-- Behind a conversion that has no module, and that alone, a service has joined a network. -/
theorem networks_convert_tornPort :
    ¬ Succeeds (tornPort.convert (.str "docker") []).1.1
      ∧ (tornPort.service? "a").map Service.networks = some none
      ∧ ((applyAll tornPort [.convert (.str "docker") []]).service? "a").map Service.networks
        = some (some ["web"]) := by
  decide +kernel

end Manifest
end ComposeNix
