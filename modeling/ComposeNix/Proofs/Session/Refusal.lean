import ComposeNix.Proofs.Routing.Reading
import ComposeNix.Proofs.Session.Assembly

/-!
# Refused conversions

A conversion is refused for its rules or for its runtime, before it looks at the manifest, and then
it has changed nothing.  If it is not refused it writes a module and joins every service, but for
one thing: it breaks off where the labels of a service give a route a host and an address that has
no encoding, and then the services in front of it are joined and the others are not.  `convert_ends`
says so of whatever state the manifest is in.
-/

namespace ComposeNix

/-! ## Runtimes -/

/-- A runtime is named by its name and by nothing else. -/
theorem Backend.ofValue_eq_ok_iff {v : Value} {backend : Backend} :
    ofValue v = .ok backend ↔ v = .str backend.name := by
  constructor
  · intro h
    cases v with
    | str s =>
      rw [ofValue] at h
      split at h
      · rename_i b hb
        obtain rfl := Except.ok.inj h
        rw [ofName?, List.find?_eq_some_iff_append] at hb
        rw [beq_iff_eq.mp hb.1]
      · exact nomatch h
    | _ => exact nomatch h
  · rintro rfl
    exact ofValue_name backend

/-! ## Converting -/

namespace Manifest

/-- What a conversion needs is there exactly if every rule can be read and the runtime exists. -/
theorem prepare_eq_ok_iff {backend : Value} {rules : List Value} {b : Backend}
    {given : List RoutingRule} :
    prepare backend rules = .ok (b, given)
      ↔ RoutingRule.ofValues rules = .ok given ∧ backend = .str b.name := by
  rw [prepare, ← Backend.ofValue_eq_ok_iff]
  cases RoutingRule.ofValues rules with
  | error bad => simp
  | ok read => cases Backend.ofValue backend <;> simp [and_comm]

theorem exists_prepare_eq_error_iff {backend : Value} {rules : List Value} :
    (∃ fault, prepare backend rules = .error fault)
      ↔ (∃ v ∈ rules, ∃ refusal, RoutingRule.ofValue v = .error refusal)
        ∨ ∀ b : Backend, backend ≠ .str b.name := by
  simp only [← RoutingRule.exists_ofValues_eq_error_iff, prepare, ne_eq,
    ← Backend.ofValue_eq_ok_iff]
  cases RoutingRule.ofValues rules with
  | error bad => simp
  | ok given => cases Backend.ofValue backend <;> simp

/-- A conversion in place is refused, or it comes to what the manifest as it was comes to, and joins
the services whose labels it reads. -/
theorem convert_eq (backend : Value) (rules : List Value) (m : Manifest) :
    m.convert backend rules =
      match prepare backend rules with
      | .error fault => ((.error fault, []), m)
      | .ok (b, given) =>
        (((m.build b given).1.mapError .badLabels, (m.build b given).2), m.attachThrough) := by
  rw [convert]
  cases prepare backend rules with
  | error fault => rfl
  | ok ready => simp only [assemble_eq]

theorem snd_convert (backend : Value) (rules : List Value) (m : Manifest) :
    (m.convert backend rules).2
      = if (prepare backend rules).toOption.isSome then m.attachThrough else m := by
  rw [convert_eq]
  cases prepare backend rules <;> rfl

/-- The services whose labels are read are joined, and nothing else is changed.  Either these are
all services, and there is a module, or the reading breaks off at the one behind them. -/
theorem assemble_ends (b : Backend) (given : List RoutingRule) (m : Manifest) :
    (m.break? = none
        ∧ m.assemble b given = ((.ok (m.toModule b given), m.moduleNotices b given), m.attachAll))
      ∨ ∃ front broken rest fault, m.services = front ++ broken :: rest
        ∧ m.break? = some (broken, fault) ∧ (∀ e ∈ front, e.2.break? e.1 = none)
        ∧ m.assemble b given = ((.error fault, m.breakNotices broken),
            { m with services := front.map (fun e => (e.1, e.2.attach)) ++ broken :: rest }) := by
  rw [assemble_eq, build]
  cases hbreak : m.break? with
  | none => exact Or.inl ⟨rfl, by rw [m.attachThrough_of_break?_eq_none hbreak]⟩
  | some found =>
    obtain ⟨broken, fault⟩ := found
    obtain ⟨-, rest, hservices⟩ := break?_eq_some_iff.mp hbreak
    have hbehind : m.services.drop m.readThrough.length = broken :: rest := by
      rw [hservices, List.drop_left]
    refine Or.inr ⟨m.readThrough, broken, rest, fault, hservices, rfl, forall_mem_readThrough m, ?_⟩
    rw [attachThrough, hbehind]

/-- The three ends of a conversion, in every state that a run of operations leads to.  It is refused
exactly if a rule cannot be read or there is no such runtime, and then it changes nothing.
Otherwise, and whatever rules are handed to it, it writes a module and leaves every service joined
to the network of its router, or it breaks off at a service, and leaves those in front of it joined
and the others as they were.  It breaks off exactly if the labels of some service give a route a
host and an address that has no encoding. -/
theorem convert_ends (m : Manifest) (ops : List Operation) (backend : Value) (rules : List Value) :
    let state := Operation.applyAll m ops
    ((∃ fault, prepare backend rules = .error fault)
        ↔ (∃ v ∈ rules, ∃ refusal, RoutingRule.ofValue v = .error refusal)
          ∨ ∀ b : Backend, backend ≠ .str b.name)
      ∧ (∀ fault, prepare backend rules = .error fault →
          state.convert backend rules = ((.error fault, []), state))
      ∧ (∀ (b : Backend) (given : List RoutingRule), backend = .str b.name →
          List.Forall₂ (fun v r => RoutingRule.ofValue v = .ok r) rules given →
            state.convert backend rules
              = (((state.assemble b given).1.1.mapError .badLabels, (state.assemble b given).1.2),
                (state.assemble b given).2))
      ∧ (∀ (b : Backend) (given : List RoutingRule),
          (state.break? = none
            ∧ state.assemble b given
              = ((.ok (state.toModule b given), state.moduleNotices b given), state.attachAll))
          ∨ ∃ front broken rest fault, state.services = front ++ broken :: rest
            ∧ state.break? = some (broken, fault) ∧ (∀ e ∈ front, e.2.break? e.1 = none)
            ∧ state.assemble b given = ((.error fault, state.breakNotices broken),
                { state with
                  services := front.map (fun e => (e.1, e.2.attach)) ++ broken :: rest }))
      ∧ (state.break?.isSome = true ↔ ∃ e ∈ state.services,
          ∃ d ∈ Routing.drafts e.1 (e.2.labels.getD []), d.2.Breaks) := by
  intro state
  refine ⟨exists_prepare_eq_error_iff, fun fault hfault => ?_, fun b given hbackend hgiven => ?_,
    fun b given => assemble_ends b given state, isSome_break?_iff⟩
  · rw [convert_eq, hfault]
  · have hready := prepare_eq_ok_iff.mpr ⟨RoutingRule.ofValues_eq_ok_iff.mpr hgiven, hbackend⟩
    rw [convert, hready]

/-- A service of which only the labels are known. -/
def ofLabels (labels : Dictionary String) : Service :=
  { (Service.read []).value with labels := some labels }

/-- A manifest with two services.  The first is to join a network, and the second has a route with a
host and with a surrogate behind the number of its port. -/
def tornPort : Manifest where
  services := [
    ("a", ofLabels [(networkLabel, "web")]),
    ("b", ofLabels [("traefik.http.routers.web.rule", "Host(`a.io`)"),
      ("traefik.http.services.web.loadbalancer.server.port",
        "80" ++ Text.ofPoints [.ofCode 0xD800])])]
  volumes := []
  networks := []
  name := none

/-- Its conversion is not refused and yet has no module, and the first service is joined. -/
theorem not_succeeds_convert_tornPort :
    Succeeds (prepare (.str "docker") []) ∧ ¬ Succeeds (tornPort.convert (.str "docker") []).1.1
      ∧ (tornPort.service? "a").bind Service.networks = none
      ∧ ((tornPort.convert (.str "docker") []).2.service? "a").bind Service.networks
        = some ["web"] := by
  decide +kernel

end Manifest
end ComposeNix
