import ComposeNix.Container.Declaration
import ComposeNix.Proofs.Nix.Plain

/-!
# The declaration of a container can be read

Whatever a service says, the declaration of its container is plain: the texts of the service stand
in strings and in quoted names, and every other key is a word.
-/

namespace ComposeNix

open Nix (Binding IsPlain Expr isPlain_row isPlain_set isPlain_text isPlain_texts isWord
  pathWellFormed_quoted pathWellFormed_word)

section Fields

variable {key : String} (hkey : isWord key.toList = true)
include hkey

theorem isPlain_of_mem_textBinding {s? : Option String} {b : Binding}
    (hb : b ∈ textBinding key s?) : IsPlain b := by
  rw [textBinding, Option.mem_toList, Option.map_eq_some_iff] at hb
  obtain ⟨s, -, rfl⟩ := hb
  exact isPlain_text (pathWellFormed_word hkey) s

theorem isPlain_of_mem_columnBinding {items : List String} {b : Binding}
    (hb : b ∈ columnBinding key items) : IsPlain b := by
  rw [columnBinding] at hb
  split at hb
  · simp at hb
  · obtain rfl := List.mem_singleton.mp hb
    exact isPlain_texts (pathWellFormed_word hkey) items

theorem isPlain_entries (d : Dictionary String) :
    IsPlain ([.word key], .set false (entryBindings d)) := by
  refine isPlain_set (pathWellFormed_word hkey) fun b hb => ?_
  obtain ⟨e, -, rfl⟩ := List.mem_map.mp hb
  exact isPlain_text (pathWellFormed_quoted e.1) e.2

end Fields

namespace Service

variable {s : Service} {b : Binding}

theorem isPlain_of_mem_environmentBinding (hb : b ∈ s.environmentBinding) : IsPlain b := by
  rw [environmentBinding] at hb
  split at hb
  · simp at hb
  · obtain rfl := List.mem_singleton.mp hb
    exact isPlain_entries (by decide) _

theorem isPlain_of_mem_commandBinding (hb : b ∈ s.commandBinding) : IsPlain b := by
  rw [commandBinding] at hb
  split at hb
  · simp at hb
  · simp at hb
  · obtain rfl := List.mem_singleton.mp hb
    exact isPlain_row (pathWellFormed_word (by decide)) _

theorem isPlain_of_mem_labelsBinding (hb : b ∈ s.labelsBinding) : IsPlain b := by
  rw [labelsBinding] at hb
  split at hb
  · simp at hb
  · obtain rfl := List.mem_singleton.mp hb
    exact isPlain_entries (by decide) _

theorem isPlain_of_mem_declarationFields {project : String}
    (hb : b ∈ s.declarationFields project) : IsPlain b := by
  simp only [declarationFields, List.append_assoc, List.mem_append] at hb
  rcases hb with hb | hb | hb | hb | hb | hb | hb | hb | hb | hb | hb | hb | hb
  · exact isPlain_of_mem_textBinding (by decide) hb
  · exact isPlain_of_mem_environmentBinding hb
  · exact isPlain_of_mem_columnBinding (by decide) hb
  · exact isPlain_of_mem_columnBinding (by decide) hb
  · exact isPlain_of_mem_columnBinding (by decide) hb
  · exact isPlain_of_mem_textBinding (by decide) hb
  · exact isPlain_of_mem_commandBinding hb
  · exact isPlain_of_mem_textBinding (by decide) hb
  · exact isPlain_of_mem_textBinding (by decide) hb
  · exact isPlain_of_mem_labelsBinding hb
  · exact isPlain_of_mem_columnBinding (by decide) hb
  · exact isPlain_of_mem_textBinding (by decide) hb
  · exact isPlain_of_mem_columnBinding (by decide) hb

/-- The declaration of a container is plain, whatever its service says. -/
theorem isPlain_declaration (project name : String) (s : Service) :
    IsPlain (s.declaration project name) := by
  refine isPlain_set ?_ fun b hb => isPlain_of_mem_declarationFields hb
  exact ⟨by decide, by decide, by decide, trivial⟩

end Service

end ComposeNix
