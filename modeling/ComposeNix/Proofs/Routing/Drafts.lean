import ComposeNix.Proofs.Dictionary
import ComposeNix.Routing.Labels

/-!
# What labels say about a route

The labels of a service are gathered in one pass that serves all routes at once.  What the pass
comes to can be said for each route alone: its draft is what its own labels say, put down in their
order (`draftOf`), and the drafts stand in the order in which the routes are first named.
`drafts_eq` is both.

So a label that is about no route does not count, and of a row in which keys are repeated only the
dictionary of the labels that are about a route counts (`drafts_filter`).
-/

namespace ComposeNix

namespace Routing

/-! ## One label -/

/-- The route that a label is about. -/
def routeOf? (label : String × String) : Option String := (readKey label.1).map Prod.fst

theorem routeOf?_of_readKey {label : String × String} {name : String} {subject : Subject}
    (h : readKey label.1 = some (name, subject)) : routeOf? label = some name := by
  rw [routeOf?, h, Option.map_some]

/-- What a label is about, as far as its route is concerned. -/
def subjectOf (label : String × String) : Subject := ((readKey label.1).map Prod.snd).getD .other

/-- Puts down a label about a route. -/
def noteLabel (service : String) (d : Draft) (label : String × String) : Draft :=
  d.note service (subjectOf label) label.2

/-- A draft can take labels about different things in any order. -/
theorem Draft.note_comm (service : String) {s t : Subject} (h : s ≠ t) (a b : String) (d : Draft) :
    (d.note service s a).note service t b = (d.note service t b).note service s a := by
  cases s <;> cases t
  case rule.rule | entrypoint.entrypoint | certResolver.certResolver | port.port | other.other =>
    exact absurd rfl h
  -- a rule without a matcher says nothing, so whether it does has to be looked at
  case rule.entrypoint | rule.certResolver | rule.port
      | entrypoint.rule | certResolver.rule | port.rule =>
    simp only [note]
    split <;> rfl
  all_goals rfl

/-! ## All labels -/

/-- What labels say about one route, in their order. -/
def draftOf (service name : String) (labels : List (String × String)) : Draft :=
  (labels.filter fun label => routeOf? label = some name).foldl (noteLabel service) .empty

/-- The routes that labels name, in the order in which they are first named. -/
def routesNamed (labels : List (String × String)) : List String :=
  Manifest.distinct (labels.filterMap routeOf?)

variable (service : String)

theorem gather_eq (ds : Dictionary Draft) (label : String × String) :
    gather service ds label =
      match routeOf? label with
      | none => ds
      | some name => ds.insert name (noteLabel service ((ds.get? name).getD .empty) label) := by
  rw [gather, routeOf?]
  unfold noteLabel subjectOf
  cases readKey label.1 <;> rfl

theorem drafts_concat (labels : List (String × String)) (label : String × String) :
    drafts service (labels ++ [label]) = gather service (drafts service labels) label :=
  List.foldl_append

theorem keys_drafts (labels : List (String × String)) :
    Dictionary.keys (drafts service labels) = routesNamed labels := by
  induction labels using List.reverseRecOn with
  | nil => rfl
  | append_singleton labels label ih =>
    rw [routesNamed] at ih
    rw [drafts_concat, gather_eq, routesNamed, List.filterMap_append]
    cases hroute : routeOf? label with
    | none => simpa [hroute] using ih
    | some name =>
      rw [List.filterMap_cons_some hroute, List.filterMap_nil, Manifest.distinct_concat]
      simp only [Dictionary.keys_insert, ih, Manifest.mem_distinct]

theorem draftOf_concat (name : String) (labels : List (String × String))
    (label : String × String) :
    draftOf service name (labels ++ [label])
      = if routeOf? label = some name then noteLabel service (draftOf service name labels) label
        else draftOf service name labels := by
  rw [draftOf, List.filter_append, List.foldl_append, ← draftOf]
  split
  · rename_i h
    rw [List.filter_cons_of_pos (by simp [h])]
    rfl
  · rename_i h
    rw [List.filter_cons_of_neg (by simp [h])]
    rfl

theorem get?_drafts (name : String) (labels : List (String × String)) :
    ((drafts service labels).get? name).getD .empty = draftOf service name labels := by
  induction labels using List.reverseRecOn with
  | nil => rfl
  | append_singleton labels label ih =>
    rw [drafts_concat, gather_eq, draftOf_concat]
    cases hroute : routeOf? label with
    | none => simpa using ih
    | some other =>
      simp only [Dictionary.get?_insert, Option.some.injEq]
      by_cases hname : name = other
      · rw [if_pos hname, if_pos hname.symm, ← hname, ih]
        rfl
      · rw [if_neg hname, if_neg (Ne.symm hname), ih]

/-- The draft of a route is what its own labels say, and the drafts stand in the order in which
the routes are first named. -/
theorem drafts_eq (labels : List (String × String)) : drafts service labels
    = (routesNamed labels).map fun name => (name, draftOf service name labels) := by
  have hnodup : (Dictionary.keys (drafts service labels)).Nodup := by
    rw [keys_drafts]
    exact Manifest.nodup_distinct _
  rw [Dictionary.eq_map_keys hnodup .empty, keys_drafts]
  exact List.map_congr_left fun name _ => by rw [get?_drafts]

/-! ## Labels about no route -/

/-- Whether the label under a key is about a route. -/
def isAboutRoute (key : String) : Bool := (readKey key).isSome

theorem isAboutRoute_of_routeOf? {label : String × String} {name : String}
    (h : routeOf? label = some name) : isAboutRoute label.1 = true := by
  obtain ⟨_, hkey, -⟩ := Option.map_eq_some_iff.mp h
  rw [isAboutRoute, hkey, Option.isSome_some]

/-- Labels that are about no route do not count. -/
theorem drafts_filter (labels : List (String × String)) :
    drafts service (labels.filter fun label => isAboutRoute label.1) = drafts service labels := by
  rw [drafts, List.foldl_filter]
  have hskip : (fun ds label => if isAboutRoute label.1 = true then gather service ds label else ds)
      = gather service := by
    funext ds label
    split
    · rfl
    · rename_i h
      rw [isAboutRoute, Option.not_isSome_iff_eq_none] at h
      rw [gather, h]
  rw [hskip, drafts]

end Routing
end ComposeNix
