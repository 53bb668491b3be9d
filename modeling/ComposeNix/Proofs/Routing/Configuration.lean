import ComposeNix.Routing.Configuration
import ComposeNix.Proofs.Nix.Plain

/-!
# The routing configuration can be read

The block of the rules is laid out from one binding, or from none if no rule contributes anything
(`configuration`).  It is plain, whatever names, addresses and hosts the rules hold.
-/

namespace ComposeNix.Routing

open Nix (Binding Expr IsPlain isPlain_set isPlain_text isWord pathWellFormed_named
  pathWellFormed_word)

variable {r : RoutingRule} {b : Binding}

theorem isPlain_server (h : serverOf? r = some b) : IsPlain b := by
  rw [serverOf?] at h
  split at h
  · simp at h
  · obtain ⟨url, -, rfl⟩ := Option.map_eq_some_iff.mp h
    have hurl : IsPlain ([.word "url"], .ofText url) :=
      isPlain_text (pathWellFormed_word (by decide)) url
    have hset : (Expr.set false [([.word "url"], .ofText url)]).WellFormed :=
      ⟨hurl.wellFormed, trivial⟩
    refine ⟨⟨?_, hset, trivial⟩, ?_⟩
    · exact ⟨trivial, by decide, by decide⟩
    · rw [Expr.holes_column, List.flatMap_singleton, Expr.holes_set, List.flatMap_singleton,
        hurl.holes]

theorem isPlain_of_mem_tlsBinding (hb : b ∈ tlsBinding r) : IsPlain b := by
  rw [tlsBinding] at hb
  split at hb
  · simp at hb
  · simp at hb
  · split at hb
    · obtain rfl := List.mem_singleton.mp hb
      refine isPlain_set (pathWellFormed_word (by decide)) fun b hb => ?_
      obtain rfl := List.mem_singleton.mp hb
      exact isPlain_text (pathWellFormed_word (by decide)) _
    · simp at hb

theorem isPlain_router (h : routerOf? r = some b) : IsPlain b := by
  rw [routerOf?] at h
  split at h
  · simp at h
  · obtain ⟨host, -, rfl⟩ := Option.map_eq_some_iff.mp h
    refine isPlain_set (pathWellFormed_named r.name) fun b hb => ?_
    rw [List.cons_append, List.mem_cons, List.mem_append, List.mem_cons, List.mem_singleton] at hb
    rcases hb with rfl | hb | rfl | rfl
    · exact isPlain_text (pathWellFormed_word (by decide)) _
    · exact isPlain_of_mem_tlsBinding hb
    · exact isPlain_text (pathWellFormed_word (by decide)) _
    · exact isPlain_text (pathWellFormed_word (by decide)) _

theorem isPlain_of_mem_half {key : String} (hkey : isWord key.toList = true)
    {entries : List Binding} (h : ∀ b ∈ entries, IsPlain b) (hb : b ∈ half key entries) :
    IsPlain b := by
  rw [half] at hb
  split at hb
  · simp at hb
  · obtain rfl := List.mem_singleton.mp hb
    exact isPlain_set (pathWellFormed_word hkey) h

theorem isPlain_of_mem_halves {rules : List RoutingRule} (hb : b ∈ halves rules) : IsPlain b := by
  rcases List.mem_append.mp hb with hb | hb
  · refine isPlain_of_mem_half (by decide) (fun b hb => ?_) hb
    obtain ⟨r, -, hr⟩ := List.mem_filterMap.mp hb
    exact isPlain_server hr
  · refine isPlain_of_mem_half (by decide) (fun b hb => ?_) hb
    obtain ⟨r, -, hr⟩ := List.mem_filterMap.mp hb
    exact isPlain_router hr

/-- The bindings of the routing configuration: one, or none if no rule contributes anything. -/
def configuration (rules : List RoutingRule) : List Binding :=
  if (halves rules).isEmpty then []
  else [([.word "services", .word "traefik", .word "dynamicConfigOptions", .word "http"],
    .set true (halves rules))]

theorem renderBlock_configuration (rules : List RoutingRule) :
    Nix.renderBlock (configuration rules) = block rules := by
  rw [configuration, block]
  split
  · rfl
  · rfl

/-- The routing configuration is plain, whatever the rules say. -/
theorem isPlain_of_mem_configuration {rules : List RoutingRule} (hb : b ∈ configuration rules) :
    IsPlain b := by
  rw [configuration] at hb
  split at hb
  · simp at hb
  · obtain rfl := List.mem_singleton.mp hb
    refine isPlain_set ?_ fun b hb => isPlain_of_mem_halves hb
    exact ⟨by decide, by decide, by decide, by decide⟩

end ComposeNix.Routing
