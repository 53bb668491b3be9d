import ComposeNix.Proofs.Container.Declaration
import ComposeNix.Proofs.Nix.Fields

/-!
# What the block of a container says

The block of a container is a text.  `readContainer` takes it apart again: it has to be one
declaration of a container, each of its fields has to be of the kind that a container has there, no
field may stand in it twice, and no other field may stand in it at all.  What is left are the
parts of a container under its name.

`readContainer_containerBlock`: the parts that are read from a block are exactly those of the
service that the block was made for (`Service.parts`), in order and with every text as it was
given, whatever characters the texts hold.  So services with different parts have different
blocks.
-/

namespace ComposeNix

open Nix (Expr Fields Tree bindingsTrees field fieldsOf wordKey)

/-- The parts of a container, each of them absent or there. -/
structure Parts where
  image : Option String
  environment : Option (List (String × String))
  environmentFiles : Option (List String)
  volumes : Option (List String)
  ports : Option (List String)
  entrypoint : Option String
  cmd : Option (List String)
  workdir : Option String
  user : Option String
  labels : Option (List (String × String))
  dependsOn : Option (List String)
  logDriver : Option String
  extraOptions : Option (List String)
  deriving DecidableEq, Repr

/-! ## Reading a block -/

/-- The fields that a container has. -/
def partKeys : List String :=
  ["image", "environment", "environmentFiles", "volumes", "ports", "entrypoint", "cmd", "workdir",
    "user", "labels", "dependsOn", "log-driver", "extraOptions"]

/-- The parts that the fields of a container say, if they are fields of a container and none is
there twice. -/
def readParts (fields : Fields) : Option Parts :=
  if (fields.map Prod.fst).Nodup ∧ ∀ path ∈ fields.map Prod.fst, path ∈ partKeys.map ([wordKey ·])
  then do
    let image ← fields.optional Tree.text? "image"
    let environment ← fields.optional Tree.entries? "environment"
    let environmentFiles ← fields.optional Tree.texts? "environmentFiles"
    let volumes ← fields.optional Tree.texts? "volumes"
    let ports ← fields.optional Tree.texts? "ports"
    let entrypoint ← fields.optional Tree.text? "entrypoint"
    let cmd ← fields.optional Tree.texts? "cmd"
    let workdir ← fields.optional Tree.text? "workdir"
    let user ← fields.optional Tree.text? "user"
    let labels ← fields.optional Tree.entries? "labels"
    let dependsOn ← fields.optional Tree.texts? "dependsOn"
    let logDriver ← fields.optional Tree.text? "log-driver"
    let extraOptions ← fields.optional Tree.texts? "extraOptions"
    return { image, environment, environmentFiles, volumes, ports, entrypoint, cmd, workdir, user,
             labels, dependsOn, logDriver, extraOptions }
  else none

/-- The container that a text declares: its name and its parts. -/
def readContainer (text : List Char) : Option (String × Parts) :=
  (Nix.readBlock text).bind fun fields =>
    match fields with
    | [([virtualisation, runtime, containers, name], .set fields)] =>
      if [virtualisation, runtime, containers]
          = [wordKey "virtualisation", wordKey "oci-containers", wordKey "containers"] then
        do return (← Nix.string? name, ← readParts fields)
      else none
    | _ => none

/-! ## The parts of a service -/

/-- A list that has entries. -/
def present {α : Type} (xs : List α) : Option (List α) := if xs.isEmpty then none else some xs

theorem isSome_present {α : Type} (xs : List α) : (present xs).isSome = true ↔ xs ≠ [] := by
  cases xs <;> simp [present]

theorem getD_present {α : Type} (xs : List α) : (present xs).getD [] = xs := by
  cases xs <;> rfl

namespace Service

/-- What the container of a service is made of: texts and lists that are not empty, and the
environment, empty or not. -/
def parts (project : String) (s : Service) : Parts where
  image := nonEmpty? s.image
  environment := s.environment
  environmentFiles := present (s.envFile.getD [])
  volumes := present ((s.volumes.getD []).map (mountFor project))
  ports := present (s.ports.getD [])
  entrypoint := nonEmpty? s.executable
  cmd := present (s.command.getD [])
  workdir := nonEmpty? s.workingDir
  user := nonEmpty? s.user
  labels := present s.containerLabels
  dependsOn := present (s.dependsOn.getD [])
  logDriver := nonEmpty? s.logDriver
  extraOptions := present s.extraOptions

end Service

/-- The fields that say these parts. -/
def Parts.pieces (p : Parts) : List (String × Option Tree) := [
  ("image", p.image.map .ofText),
  ("environment", p.environment.map .ofEntries),
  ("environmentFiles", p.environmentFiles.map .ofTexts),
  ("volumes", p.volumes.map .ofTexts),
  ("ports", p.ports.map .ofTexts),
  ("entrypoint", p.entrypoint.map .ofText),
  ("cmd", p.cmd.map .ofTexts),
  ("workdir", p.workdir.map .ofText),
  ("user", p.user.map .ofText),
  ("labels", p.labels.map .ofEntries),
  ("dependsOn", p.dependsOn.map .ofTexts),
  ("log-driver", p.logDriver.map .ofText),
  ("extraOptions", p.extraOptions.map .ofTexts)]

/-! ## Fields are read as parts -/

theorem nodup_keys_pieces (p : Parts) : (p.pieces.map Prod.fst).Nodup := by
  show partKeys.Nodup
  decide

/-- Whatever the parts are, they are read from the fields that say them. -/
theorem readParts_fieldsOf (p : Parts) : readParts (fieldsOf p.pieces) = some p := by
  have hsublist := Nix.keys_fieldsOf_sublist p.pieces
  have hkeys : p.pieces.map (fun e => [wordKey e.1]) = partKeys.map ([wordKey ·]) := rfl
  rw [hkeys] at hsublist
  have hnodup : (partKeys.map ([wordKey ·])).Nodup := by decide
  have htext : ∀ (key : String) (s? : Option String), (key, s?.map Tree.ofText) ∈ p.pieces →
      (fieldsOf p.pieces).optional Tree.text? key = some s? := fun _ _ hmem =>
    Nix.optional_fieldsOf Tree.text?_ofText (nodup_keys_pieces p) hmem
  have htexts : ∀ (key : String) (xs? : Option (List String)),
      (key, xs?.map Tree.ofTexts) ∈ p.pieces →
        (fieldsOf p.pieces).optional Tree.texts? key = some xs? := fun _ _ hmem =>
    Nix.optional_fieldsOf Tree.texts?_ofTexts (nodup_keys_pieces p) hmem
  have hentries : ∀ (key : String) (d? : Option (List (String × String))),
      (key, d?.map Tree.ofEntries) ∈ p.pieces →
        (fieldsOf p.pieces).optional Tree.entries? key = some d? := fun _ _ hmem =>
    Nix.optional_fieldsOf Tree.entries?_ofEntries (nodup_keys_pieces p) hmem
  rw [readParts, if_pos ⟨hsublist.nodup hnodup, fun path hpath => hsublist.subset hpath⟩,
    htext "image" p.image (by simp [Parts.pieces]),
    hentries "environment" p.environment (by simp [Parts.pieces]),
    htexts "environmentFiles" p.environmentFiles (by simp [Parts.pieces]),
    htexts "volumes" p.volumes (by simp [Parts.pieces]),
    htexts "ports" p.ports (by simp [Parts.pieces]),
    htext "entrypoint" p.entrypoint (by simp [Parts.pieces]),
    htexts "cmd" p.cmd (by simp [Parts.pieces]),
    htext "workdir" p.workdir (by simp [Parts.pieces]),
    htext "user" p.user (by simp [Parts.pieces]),
    hentries "labels" p.labels (by simp [Parts.pieces]),
    htexts "dependsOn" p.dependsOn (by simp [Parts.pieces]),
    htext "log-driver" p.logDriver (by simp [Parts.pieces]),
    htexts "extraOptions" p.extraOptions (by simp [Parts.pieces])]
  rfl

/-! ## The declaration of a service says its parts -/

theorem bindingsTrees_textBinding (key : String) (s? : Option String) :
    bindingsTrees (textBinding key s?) = field key ((nonEmpty? s?).map .ofText) := by
  rw [textBinding]
  cases nonEmpty? s? with
  | none => rfl
  | some s =>
    show [Nix.bindingTree ([.word key], .ofText s)] = [([wordKey key], .ofText s)]
    rw [Nix.bindingTree, Nix.terms_ofText]
    rfl

theorem bindingsTrees_columnBinding (key : String) (items : List String) :
    bindingsTrees (columnBinding key items) = field key ((present items).map .ofTexts) := by
  rw [columnBinding, present]
  split
  · rfl
  · show [Nix.bindingTree ([.word key], .texts items)] = [([wordKey key], .ofTexts items)]
    rw [Nix.bindingTree, Expr.texts, Nix.terms_column_ofText]
    rfl

/-- Entries under quoted names say a set of texts. -/
theorem terms_entryBindings (d : Dictionary String) :
    (Expr.set false (entryBindings d)).terms = [.ofEntries d] := by
  have hentries : bindingsTrees (entryBindings d)
      = d.map fun e => ([e.1.toList.map .char], Tree.ofText e.2) := by
    rw [entryBindings]
    induction d with
    | nil => rfl
    | cons e d ih =>
      rw [List.map_cons, bindingsTrees, ih, Nix.bindingTree, Nix.terms_ofText]
      rfl
  rw [Expr.terms, hentries]
  rfl

namespace Service

variable (s : Service)

theorem bindingsTrees_environmentBinding :
    bindingsTrees s.environmentBinding = field "environment" (s.environment.map .ofEntries) := by
  rw [environmentBinding]
  cases s.environment with
  | none => rfl
  | some d =>
    show [Nix.bindingTree ([.word "environment"], .set false (entryBindings d))] = _
    rw [Nix.bindingTree, terms_entryBindings]
    rfl

theorem bindingsTrees_commandBinding :
    bindingsTrees s.commandBinding = field "cmd" ((present (s.command.getD [])).map .ofTexts) := by
  rw [commandBinding]
  rcases s.command with _ | words
  · rfl
  · cases words with
    | nil => rfl
    | cons w words =>
      show [Nix.bindingTree ([.word "cmd"], .row ((w :: words).map Expr.ofText))] = _
      rw [Nix.bindingTree, Nix.terms_row_ofText]
      rfl

theorem bindingsTrees_labelsBinding :
    bindingsTrees s.labelsBinding
      = field "labels" ((present s.containerLabels).map .ofEntries) := by
  rw [labelsBinding, present]
  split
  · rfl
  · show [Nix.bindingTree ([.word "labels"], .set false (entryBindings s.containerLabels))] = _
    rw [Nix.bindingTree, terms_entryBindings]
    rfl

/-- The fields of a declaration say the parts of the service, in their order. -/
theorem bindingsTrees_declarationFields (project : String) :
    bindingsTrees (s.declarationFields project) = fieldsOf (s.parts project).pieces := by
  simp only [declarationFields, Nix.bindingsTrees_append, bindingsTrees_textBinding,
    bindingsTrees_columnBinding, bindingsTrees_environmentBinding, bindingsTrees_commandBinding,
    bindingsTrees_labelsBinding, Parts.pieces, Nix.fieldsOf_cons, Nix.fieldsOf_nil,
    List.append_assoc, List.append_nil]
  rfl

/-- What is read from the block of a container is its name and the parts of its service: each
text, list and set in order and as it was given, and nothing else.  So the blocks of two services
are the same only if their names and all their parts are. -/
theorem readContainer_containerBlock (project name : String) :
    readContainer (s.containerBlock project name) = some (name, s.parts project)
      ∧ ∀ (project' name' : String) (s' : Service),
        s.containerBlock project name = s'.containerBlock project' name' →
          name = name' ∧ s.parts project = s'.parts project' := by
  have hread : ∀ (project name : String) (s : Service),
      readContainer (s.containerBlock project name) = some (name, s.parts project) := by
    intro project name s
    have hdeclaration : Nix.BindingsWellFormed [s.declaration project name] :=
      ⟨(isPlain_declaration project name s).wellFormed, trivial⟩
    have hblock := Nix.readBlock_renderBlock hdeclaration
    have htree : bindingsTrees [s.declaration project name]
        = [([wordKey "virtualisation", wordKey "oci-containers", wordKey "containers",
          name.toList.map .char], .set (fieldsOf (s.parts project).pieces))] := by
      rw [← bindingsTrees_declarationFields]
      rfl
    rw [readContainer, containerBlock, hblock, htree, Option.bind_some]
    simp only [if_true, Nix.string?_map_char, readParts_fieldsOf]
    rfl
  refine ⟨hread project name s, fun project' name' s' hsame => ?_⟩
  have hparts := hread project name s
  rw [hsame, hread project' name' s', Option.some.injEq, Prod.mk.injEq] at hparts
  exact ⟨hparts.1.symm, hparts.2.symm⟩

end Service
end ComposeNix
