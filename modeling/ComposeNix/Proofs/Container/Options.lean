import ComposeNix.Container.Options
import ComposeNix.Proofs.Text.Split
import Mathlib.Data.List.Pairwise

/-!
# Reading options back

The options of a container are one row of words, and which of them say the same kind of thing only
shows in how they begin.  The texts behind the beginnings may be any at all, and may themselves look
like options.

`Service.optionGroups` lists the kinds in the order in which they are documented, with their
beginnings and what a service has to say.  No beginning of a kind begins another one, and so
`Service.extraOptions_groups` reads every kind back from the row alone: what stands behind its
beginning is what the service has to say, whatever the other kinds say.
-/

namespace ComposeNix

open Text (Apart after? startsWith)

/-! ## Words in groups -/

/-- What stands behind a beginning, in the words that have it. -/
def behind (lead : String) (words : List String) : List String := words.filterMap (after? lead)

/-- The words of groups, each given by a beginning and what stands behind it. -/
def groupedWords (groups : List (String × List String)) : List String :=
  groups.flatMap fun g => g.2.map (g.1 ++ ·)

section Groups

variable {lead : String} {groups : List (String × List String)}

theorem behind_append (words more : List String) :
    behind lead (words ++ more) = behind lead words ++ behind lead more := List.filterMap_append

theorem behind_map_append (lead : String) (texts : List String) :
    behind lead (texts.map (lead ++ ·)) = texts := by
  rw [behind, List.filterMap_map]
  refine Eq.trans (List.filterMap_congr fun text _ => ?_) List.filterMap_some
  exact Text.after?_append lead text

theorem behind_groupedWords_eq_nil (h : ∀ g ∈ groups, Apart lead g.1) :
    behind lead (groupedWords groups) = [] := by
  refine List.filterMap_eq_nil_iff.mpr fun word hword => ?_
  obtain ⟨g, hg, hword⟩ := List.mem_flatMap.mp hword
  obtain ⟨text, -, rfl⟩ := List.mem_map.mp hword
  exact Text.after?_append_of_apart (h g hg) text

/-- If no beginning begins another one, a group is read back from the words of all. -/
theorem behind_groupedWords (h : (groups.map Prod.fst).Pairwise Apart)
    {g : String × List String} (hg : g ∈ groups) : behind g.1 (groupedWords groups) = g.2 := by
  induction groups with
  | nil => exact absurd hg List.not_mem_nil
  | cons first groups ih =>
    rw [List.map_cons, List.pairwise_cons] at h
    obtain ⟨hfirst, hgroups⟩ := h
    have hcons : groupedWords (first :: groups)
        = first.2.map (first.1 ++ ·) ++ groupedWords groups := rfl
    rw [hcons, behind_append]
    rcases List.mem_cons.mp hg with rfl | hg
    · rw [behind_map_append, behind_groupedWords_eq_nil, List.append_nil]
      exact fun other hother => hfirst other.1 (List.mem_map_of_mem hother)
    · have hnone : behind g.1 (first.2.map (first.1 ++ ·)) = [] := by
        have hsingle : behind g.1 (groupedWords [first]) = [] := by
          refine behind_groupedWords_eq_nil fun other hother => ?_
          rw [List.mem_singleton.mp hother]
          exact symm (hfirst g.1 (List.mem_map_of_mem hg))
        rwa [groupedWords, List.flatMap_singleton] at hsingle
      rw [hnone, List.nil_append, ih hgroups hg]

/-- A word with a beginning occurs as often as what stands behind it. -/
theorem count_append_eq (lead text : String) (words : List String) :
    words.count (lead ++ text) = (behind lead words).count text := by
  induction words with
  | nil => rfl
  | cons word words ih =>
    have hword : after? lead word = some text ↔ word = lead ++ text := Text.after?_eq_some_iff
    rw [List.count_cons, ih, behind, behind]
    cases hbehind : after? lead word with
    | none =>
      have hne : ¬ word = lead ++ text := by rw [← hword, hbehind]; exact fun h => nomatch h
      rw [List.filterMap_cons_none hbehind]
      simp [hne]
    | some rest =>
      rw [hbehind, Option.some.injEq] at hword
      rw [List.filterMap_cons_some hbehind, List.count_cons]
      simp [hword]

end Groups

/-! ## The options of a service -/

namespace Service

/-- The groups of options in the order in which they are documented: how the words of a group
begin, and what the service has to say behind that. -/
def optionGroups (s : Service) : List (String × List String) := [
  ("--privileged", if s.privileged then [""] else []),
  ("--cap-add=", s.capAdd.getD []),
  ("--cap-drop=", s.capDrop.getD []),
  ("--device=", s.devices.getD []),
  ("--dns=", s.dns.getD []),
  ("--sysctl=", (s.sysctls.getD []).map fun e => e.1 ++ "=" ++ e.2),
  ("--add-host=", s.extraHosts.getD []),
  ("--cpus=", (nonEmpty? (s.limits.bind Limits.cpus)).toList),
  ("--memory=", (nonEmpty? (s.limits.bind Limits.memory)).toList),
  ("--health-cmd=", (nonEmpty? (s.healthcheck.bind HealthCheck.test)).toList)]

/-- How the words of the groups begin. -/
def optionLeads : List String :=
  ["--privileged", "--cap-add=", "--cap-drop=", "--device=", "--dns=", "--sysctl=", "--add-host=",
    "--cpus=", "--memory=", "--health-cmd="]

theorem map_fst_optionGroups (s : Service) : s.optionGroups.map Prod.fst = optionLeads := rfl

theorem pairwise_apart_optionLeads : optionLeads.Pairwise Apart := by decide

theorem map_word_limitOptions (s : Service) : s.limitOptions.map RunOption.word
    = ((nonEmpty? (s.limits.bind Limits.cpus)).toList).map ("--cpus=" ++ ·)
      ++ ((nonEmpty? (s.limits.bind Limits.memory)).toList).map ("--memory=" ++ ·) := by
  rw [limitOptions]
  cases s.limits with
  | none => rfl
  | some limits =>
    rw [List.map_append, Option.bind_some, Option.bind_some]
    cases nonEmpty? limits.cpus <;> cases nonEmpty? limits.memory <;> rfl

/-- The options are the words of the groups, one group after the other. -/
theorem extraOptions_eq_groupedWords (s : Service) :
    s.extraOptions = groupedWords s.optionGroups := by
  have hprivileged : (if s.privileged then [RunOption.privileged] else []).map RunOption.word
      = (if s.privileged then [""] else []).map ("--privileged" ++ ·) := by
    cases s.privileged <;> rfl
  have hsysctls (d : Dictionary String) :
      (d.map fun e => RunOption.sysctl e.1 e.2).map RunOption.word
        = (d.map fun e => e.1 ++ "=" ++ e.2).map ("--sysctl=" ++ ·) := by
    simp [RunOption.word, String.append_assoc]
  have htest (test? : Option String) :
      (test?.map RunOption.healthCommand).toList.map RunOption.word
        = test?.toList.map ("--health-cmd=" ++ ·) := by
    cases test? <;> rfl
  have hword (make : String → RunOption) (lead : String)
      (h : ∀ text, (make text).word = lead ++ text) (texts : List String) :
      (texts.map make).map RunOption.word = texts.map (lead ++ ·) := by
    rw [List.map_map]
    exact List.map_congr_left fun text _ => h text
  rw [extraOptions, runOptions]
  simp only [List.map_append, hprivileged, hsysctls, htest, map_word_limitOptions,
    hword .capAdd "--cap-add=" fun _ => rfl, hword .capDrop "--cap-drop=" fun _ => rfl,
    hword .device "--device=" fun _ => rfl, hword .dns "--dns=" fun _ => rfl,
    hword .addHost "--add-host=" fun _ => rfl]
  simp only [groupedWords, optionGroups, List.flatMap_cons, List.flatMap_nil, List.append_nil,
    List.append_assoc]

theorem behind_extraOptions (s : Service) {g : String × List String} (hg : g ∈ s.optionGroups) :
    behind g.1 s.extraOptions = g.2 := by
  rw [extraOptions_eq_groupedWords]
  exact behind_groupedWords (s.map_fst_optionGroups ▸ pairwise_apart_optionLeads) hg

/-- Every option is of exactly one group. -/
theorem existsUnique_lead (s : Service) {word : String} (hword : word ∈ s.extraOptions) :
    ∃! lead, lead ∈ optionLeads ∧ startsWith lead word = true := by
  rw [extraOptions_eq_groupedWords] at hword
  obtain ⟨g, hg, hword⟩ := List.mem_flatMap.mp hword
  obtain ⟨text, -, rfl⟩ := List.mem_map.mp hword
  have hlead : g.1 ∈ optionLeads := s.map_fst_optionGroups ▸ List.mem_map_of_mem hg
  refine ⟨g.1, ⟨hlead, Text.startsWith_append g.1 text⟩, fun other ⟨hother, hstarts⟩ => ?_⟩
  by_contra hne
  have hapart : Apart other g.1 := pairwise_apart_optionLeads.forall hother hlead hne
  exact Text.not_startsWith_append hapart text hstarts

theorem mem_toList_nonEmpty?_iff {text : String} {s? : Option String} :
    text ∈ (nonEmpty? s?).toList ↔ s? = some text ∧ text ≠ "" := by
  rw [Option.mem_toList, nonEmpty?, Option.filter_eq_some_iff]
  simp

/-- The options of a container can be told apart by how they begin.  They are the words of the
groups in their order, and nothing else.  What stands behind the beginning of a group is what the
service has to say there, in order; the container is privileged by one word or none, and a limit or
a test is there once if it is a text that is not empty.  Every option is of one group only, so what
another group says, whatever it is, makes no difference to the options of a group. -/
theorem extraOptions_groups (s : Service) :
    s.extraOptions = groupedWords s.optionGroups
      ∧ (∀ g ∈ s.optionGroups, behind g.1 s.extraOptions = g.2)
      ∧ s.extraOptions.count "--privileged" = (if s.privileged then 1 else 0)
      ∧ (∀ g ∈ [("--cpus=", s.limits.bind Limits.cpus), ("--memory=", s.limits.bind Limits.memory),
            ("--health-cmd=", s.healthcheck.bind HealthCheck.test)],
          (behind g.1 s.extraOptions).length ≤ 1
            ∧ ∀ text, text ∈ behind g.1 s.extraOptions ↔ g.2 = some text ∧ text ≠ "")
      ∧ (∀ word ∈ s.extraOptions, ∃! lead, lead ∈ optionLeads ∧ startsWith lead word = true)
      ∧ ∀ t : Service, ∀ g ∈ s.optionGroups, g ∈ t.optionGroups →
          t.extraOptions.filter (startsWith g.1) = s.extraOptions.filter (startsWith g.1) := by
  refine ⟨s.extraOptions_eq_groupedWords, fun g hg => s.behind_extraOptions hg, ?_,
    fun g hg => ?_, fun word hword => s.existsUnique_lead hword, fun t g hs ht => ?_⟩
  · have hcount := count_append_eq "--privileged" "" s.extraOptions
    rw [String.append_empty, s.behind_extraOptions List.mem_cons_self] at hcount
    rw [hcount]
    cases s.privileged <;> rfl
  · have hgroup : (g.1, (nonEmpty? g.2).toList) ∈ s.optionGroups := by
      simp only [List.mem_cons, List.not_mem_nil, or_false] at hg
      rcases hg with rfl | rfl | rfl <;> simp [optionGroups]
    rw [s.behind_extraOptions hgroup]
    exact ⟨Option.length_toList_le, fun text => mem_toList_nonEmpty?_iff⟩
  · rw [Text.filter_startsWith, Text.filter_startsWith]
    exact congrArg (List.map (g.1 ++ ·))
      ((t.behind_extraOptions ht).trans (s.behind_extraOptions hs).symm)

end Service
end ComposeNix
