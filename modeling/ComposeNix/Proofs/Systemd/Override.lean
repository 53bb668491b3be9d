import ComposeNix.Systemd.Override
import ComposeNix.Proofs.Nix.Plain

/-!
# The override of a unit can be read

An override is plain, whatever the labels of the service say: the name of a setting is quoted
where it is no word, and its value is a string.
-/

namespace ComposeNix

open Nix (Binding IsPlain isPlain_override isPlain_set isWord pathWellFormed_named
  pathWellFormed_word)

theorem isPlain_of_mem_settingsBinding {key : String} (hkey : isWord key.toList = true)
    {settings : Dictionary String} {b : Binding}
    (hb : b ∈ settingsBinding key settings) : IsPlain b := by
  rw [settingsBinding] at hb
  split at hb
  · simp at hb
  · obtain rfl := List.mem_singleton.mp hb
    refine isPlain_set (pathWellFormed_word hkey) fun b hb => ?_
    obtain ⟨e, -, rfl⟩ := List.mem_map.mp hb
    exact isPlain_override (pathWellFormed_named e.1) e.2

namespace Service

/-- The override for a container's unit is plain. -/
theorem isPlain_override? {backend : Backend} {name : String}
    {s : Service} {b : Binding} (h : s.override? backend name = some b) : IsPlain b := by
  rw [override?] at h
  split at h
  · simp at h
  · obtain rfl := Option.some.inj h
    refine isPlain_set ?_ fun b hb => ?_
    · exact ⟨by decide, by decide, trivial⟩
    · rcases List.mem_append.mp hb with hb | hb
      · exact isPlain_of_mem_settingsBinding (by decide) hb
      · exact isPlain_of_mem_settingsBinding (by decide) hb

end Service
end ComposeNix
