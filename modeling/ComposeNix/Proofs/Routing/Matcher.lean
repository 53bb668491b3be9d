import ComposeNix.Routing.Labels
import Mathlib.Data.List.Infix
import Mathlib.Data.List.TakeWhile

/-!
# Matchers of hosts

A matcher is the text ``Host(`HOST`)``, where the host is not empty and has no backquote in it.
`matcherAt?` looks for one at the beginning of a text (`matcherAt?_eq_some_iff`), and `hostIn?` for
the first one anywhere (`hostIn?_eq_some`).  A text that is one matcher from its beginning to its
end is read by `wholeMatch?`: so a host comes back from its matcher exactly if it can stand in one
(`wholeMatch?_matcherText`).
-/

namespace ComposeNix.Routing

/-- The matcher of a host. -/
def matcherText (host : List Char) : List Char := "Host(`".toList ++ (host ++ ['\x60', ')'])

/-- The host of a text that is a matcher from its beginning to its end. -/
def wholeMatch? (cs : List Char) : Option (List Char) :=
  (matcherAt? cs).filter fun host => cs == matcherText host

variable {cs host : List Char}

theorem matcherText_append (host rest : List Char) :
    matcherText host ++ rest = "Host(`".toList ++ (host ++ '\x60' :: ')' :: rest) := by
  have hmatcher : matcherText host = "Host(`".toList ++ (host ++ ['\x60', ')']) := rfl
  rw [hmatcher, List.append_assoc, List.append_assoc]
  rfl

theorem toList_matcher (host : String) :
    ("Host(`" ++ host ++ "`)").toList = matcherText host.toList := by
  rw [String.toList_append, String.toList_append, List.append_assoc]
  rfl

/-- A text up to its first backquote, and what stands from there on. -/
theorem takeWhile_dropWhile_backquote (h : '\x60' ∉ host) (rest : List Char) :
    (host ++ '\x60' :: rest).takeWhile (· ≠ '\x60') = host
      ∧ (host ++ '\x60' :: rest).dropWhile (· ≠ '\x60') = '\x60' :: rest := by
  have hall : ∀ c ∈ host, (decide (c ≠ '\x60')) = true := fun c hc =>
    decide_eq_true (ne_of_mem_of_not_mem hc h)
  constructor
  · rw [List.takeWhile_append_of_pos hall, List.takeWhile_cons_of_neg (by decide),
      List.append_nil]
  · rw [List.dropWhile_append_of_pos hall, List.dropWhile_cons_of_neg (by decide)]

/-- Where a matcher begins, and with which host. -/
theorem matcherAt?_eq_some_iff :
    matcherAt? cs = some host ↔ host ≠ [] ∧ '\x60' ∉ host ∧ matcherText host <+: cs := by
  constructor
  · intro h
    obtain ⟨rest, hrest, hread⟩ := Option.bind_eq_some_iff.mp h
    obtain rfl := List.append_eq_of_isPrefixOf?_eq_some hrest
    by_cases hempty : (rest.takeWhile (· ≠ '\x60')).isEmpty = true
    · rw [if_pos hempty] at hread
      exact nomatch hread
    rw [if_neg hempty] at hread
    split at hread
    · rename_i tail hdrop
      obtain rfl := Option.some.inj hread
      have hsplit := List.takeWhile_append_dropWhile (p := (· ≠ '\x60')) (l := rest)
      rw [hdrop] at hsplit
      refine ⟨fun hnil => hempty (by rw [hnil]; rfl), fun hmem => ?_, tail, ?_⟩
      · exact absurd (List.mem_takeWhile_imp hmem) (by decide)
      · rw [matcherText_append]
        exact congrArg _ hsplit
    · exact nomatch hread
  · rintro ⟨hne, hquote, tail, rfl⟩
    obtain ⟨htake, hdrop⟩ := takeWhile_dropWhile_backquote hquote (')' :: tail)
    have hrest : "Host(`".toList.isPrefixOf? (matcherText host ++ tail)
        = some (host ++ '\x60' :: ')' :: tail) := by
      rw [List.isPrefixOf?_eq_some_iff_append_eq, matcherText_append]
    have hempty : ¬ host.isEmpty = true := by rwa [List.isEmpty_iff]
    rw [matcherAt?, hrest]
    simp only [Option.bind_eq_bind, Option.bind_some, htake, hdrop]
    rw [if_neg hempty]

/-- The host of a matcher is found in it. -/
theorem hostIn?_matcherText (hne : host ≠ []) (hquote : '\x60' ∉ host) :
    hostIn? (matcherText host) = some host := by
  have hmatcher := matcherAt?_eq_some_iff.mpr ⟨hne, hquote, List.prefix_rfl⟩
  cases htext : matcherText host with
  | nil => rw [htext] at hmatcher; exact nomatch hmatcher
  | cons c cs => rw [hostIn?, ← htext, hmatcher, Option.some_or]

/-- A host that stands in a text stands there in its matcher. -/
theorem hostIn?_eq_some (h : hostIn? cs = some host) :
    host ≠ [] ∧ '\x60' ∉ host ∧ matcherText host <:+: cs := by
  induction cs with
  | nil => simp [hostIn?] at h
  | cons c cs ih =>
    rw [hostIn?, Option.or_eq_some_iff] at h
    rcases h with h | ⟨-, h⟩
    · obtain ⟨hne, hquote, hprefix⟩ := matcherAt?_eq_some_iff.mp h
      exact ⟨hne, hquote, hprefix.isInfix⟩
    · obtain ⟨hne, hquote, hinfix⟩ := ih h
      exact ⟨hne, hquote, hinfix.trans (List.suffix_cons c cs).isInfix⟩

theorem matcherText_injective : Function.Injective matcherText := fun _ _ h =>
  List.append_cancel_right (List.append_cancel_left h)

/-- What is read from a whole text is a host that can stand in a matcher, and the text is that
matcher. -/
theorem wholeMatch?_eq_some_iff :
    wholeMatch? cs = some host ↔ host ≠ [] ∧ '\x60' ∉ host ∧ cs = matcherText host := by
  rw [wholeMatch?, Option.filter_eq_some_iff, matcherAt?_eq_some_iff, beq_iff_eq]
  constructor
  · rintro ⟨⟨hne, hquote, -⟩, heq⟩
    exact ⟨hne, hquote, heq⟩
  · rintro ⟨hne, hquote, rfl⟩
    exact ⟨⟨hne, hquote, List.prefix_rfl⟩, rfl⟩

/-- A host that is not empty is read back from its matcher exactly if it has no backquote in it;
with one, no host is read at all. -/
theorem wholeMatch?_matcherText (hne : host ≠ []) : wholeMatch? (matcherText host)
    = if '\x60' ∈ host then none else some host := by
  split_ifs with hquote
  · refine Option.eq_none_iff_forall_ne_some.mpr fun other hother => ?_
    obtain ⟨-, hnot, heq⟩ := wholeMatch?_eq_some_iff.mp hother
    exact hnot (matcherText_injective heq ▸ hquote)
  · exact wholeMatch?_eq_some_iff.mpr ⟨hne, hquote, rfl⟩

end ComposeNix.Routing
