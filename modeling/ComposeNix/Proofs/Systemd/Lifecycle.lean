import ComposeNix.Proofs.Nix.Fields
import ComposeNix.Proofs.Shell.Word
import ComposeNix.Systemd.Lifecycle

/-!
# What the unit of a resource runs

The name of a volume or network goes through three layers of quoting before it stands in its
unit: it is one word of a script, the script is one word of a command line, and the command line is
a string of Nix.  The layers are taken off here one by one, by readers that know nothing of
how they were put on.

`readUnit` reads the block of a unit as Nix does; `Shell.tokens` reads first what the shell is
given, then the script in it.  `readUnit_unitBlock`: what comes out are the words of the script
that was meant, with the name of the resource as one of them.
-/

namespace ComposeNix.Lifecycle

open Nix (BindingWellFormed Expr Fields Letter Tree bindingWellFormed_word bindingsTrees
  wellFormed_ofText wellFormed_word wordKey)
open Shell (tokens)

/-! ## The unit can be read -/

theorem wellFormed_shellCommand (script : List Char) : (shellCommand script).WellFormed :=
  ⟨List.all_eq_true.mp (by decide), trivial⟩

/-- The unit of a resource can be read, whatever the resource is called. -/
theorem wellFormed_unit (backend : Backend) (kind name : String) :
    BindingWellFormed (unit backend kind name) := by
  have hpackage : (Expr.word ("pkgs." ++ backend.name)).WellFormed := by
    cases backend <;> exact wellFormed_word (by decide)
  have htrue : (Expr.word "true").WellFormed := wellFormed_word (by decide)
  constructor
  · exact ⟨by decide, by decide, trivial⟩
  · refine ⟨bindingWellFormed_word (by decide) ⟨hpackage, trivial⟩,
      bindingWellFormed_word (by decide) ⟨?_, ?_, ?_, ?_, trivial⟩,
      bindingWellFormed_word (by decide) ⟨wellFormed_ofText _, trivial⟩, trivial⟩
    · exact bindingWellFormed_word (by decide) (wellFormed_ofText _)
    · exact bindingWellFormed_word (by decide) htrue
    · exact bindingWellFormed_word (by decide) (wellFormed_shellCommand _)
    · exact bindingWellFormed_word (by decide) (wellFormed_shellCommand _)

/-- The antiquotation of a command line: the shell that runs the script. -/
def shellHole : List Char := "pkgs.runtimeShell".toList

theorem literals_shellCommand (script : List Char) : (shellCommand script).literals
    = [[.hole shellHole] ++ (" -c ".toList ++ Shell.quote script).map .char] := by
  rw [shellCommand, Expr.literals, List.flatMap_cons, List.flatMap_singleton]
  rfl

theorem holes_shellCommand (script : List Char) : (shellCommand script).holes = [shellHole] := by
  rw [Expr.holes, literals_shellCommand, Nix.holesOf_singleton_append, Nix.holesOf_chars]
  rfl

/-- A unit has two antiquotations, one for each of its scripts. -/
theorem holes_unit (backend : Backend) (kind name : String) :
    (unit backend kind name).2.holes = [shellHole, shellHole] := by
  simp [unit, Expr.holes_set, Expr.holes_row, Expr.holes_word, Expr.holes_ofText,
    holes_shellCommand]

/-! ## Reading a unit -/

/-- The value of a field that has to be there. -/
def required? (key : String) (fields : Fields) : Option Tree := List.lookup [wordKey key] fields

/-- The fields of a set. -/
def set? : Tree → Option Fields
  | .set fields => some fields
  | _ => none

/-- The letters of a literal. -/
def literal? : Tree → Option (List Letter)
  | .text letters => some letters
  | _ => none

/-- A unit: its name, and the command lines that start and stop it. -/
structure UnitLines where
  name : String
  start : List Letter
  stop : List Letter
  deriving DecidableEq, Repr

/-- The unit that a text declares. -/
def readUnit (text : List Char) : Option UnitLines :=
  (Nix.readBlock text).bind fun fields =>
    match fields with
    | [([systemd, services, name], .set fields)] =>
      if [systemd, services] = [wordKey "systemd", wordKey "services"] then do
        let config ← (required? "serviceConfig" fields).bind set?
        let start ← (required? "ExecStart" config).bind literal?
        let stop ← (required? "ExecStop" config).bind literal?
        return { name := ← Nix.string? name, start, stop }
      else none
    | _ => none

/-! ## The scripts -/

variable (backend : Backend)

/-- The words of the script that makes a resource: look for it, and make it if it is not there. -/
def startTokens (kind name : String) : List Shell.Token := [
  .word backend.name.toList, .word kind.toList, .word "inspect".toList, .word name.toList,
  .operator ">".toList, .word "/dev/null".toList,
  .number "2".toList, .operator ">&".toList, .word "1".toList,
  .operator "||".toList,
  .word backend.name.toList, .word kind.toList, .word "create".toList, .word name.toList]

/-- The words of the script that removes a resource. -/
def stopTokens (kind name : String) : List Shell.Token := [
  .word backend.name.toList, .word kind.toList, .word "rm".toList, .word "-f".toList,
  .word name.toList]

/-- The words that both scripts begin a command with. -/
theorem tokens_command {kind : String} (hkind : kind = "volume" ∨ kind = "network")
    {rest : List Char} (h : Shell.Ends rest) :
    Shell.lex .between (command backend kind ++ rest)
      = .word backend.name.toList :: .word kind.toList :: Shell.lex .between rest := by
  have hname : backend.name.toList ≠ [] ∧ backend.name.toList.all Shell.isHarmless := by
    cases backend <;> decide
  have hword : kind.toList ≠ [] ∧ kind.toList.all Shell.isHarmless := by
    rcases hkind with rfl | rfl <;> decide
  rw [command, List.append_assoc, List.cons_append, Shell.lex_harmless hname (Shell.ends_space _),
    Shell.lex_space, Shell.lex_harmless hword h]

theorem tokens_startScript {kind : String} (hkind : kind = "volume" ∨ kind = "network")
    (name : String) : tokens (startScript backend kind name) = startTokens backend kind name := by
  have hinspect : ∀ rest, Shell.lex .between (" inspect ".toList ++ rest)
      = .word "inspect".toList :: Shell.lex .between rest := fun _ => rfl
  have hguard : ∀ rest, Shell.lex .between (" >/dev/null 2>&1 || ".toList ++ rest)
      = .operator ">".toList :: .word "/dev/null".toList :: .number "2".toList
        :: .operator ">&".toList :: .word "1".toList :: .operator "||".toList
        :: Shell.lex .between rest := fun _ => rfl
  have hcreate : ∀ rest, Shell.lex .between (" create ".toList ++ rest)
      = .word "create".toList :: Shell.lex .between rest := fun _ => rfl
  have hname : Shell.lex .between (Shell.quote name.toList) = [.word name.toList] :=
    Shell.tokens_quote name.toList
  -- every word is followed by the space that the next piece of the script begins with
  have hends : ∀ rest, Shell.Ends (" inspect ".toList ++ rest)
      ∧ Shell.Ends (" >/dev/null 2>&1 || ".toList ++ rest)
      ∧ Shell.Ends (" create ".toList ++ rest) := fun _ =>
    ⟨Shell.ends_space _, Shell.ends_space _, Shell.ends_space _⟩
  simp only [tokens, startScript, List.append_assoc]
  rw [tokens_command backend hkind (hends _).1, hinspect,
    Shell.lex_quote name.toList (hends _).2.1, hguard,
    tokens_command backend hkind (hends _).2.2, hcreate, hname, startTokens]

theorem tokens_stopScript {kind : String} (hkind : kind = "volume" ∨ kind = "network")
    (name : String) : tokens (stopScript backend kind name) = stopTokens backend kind name := by
  have hoptions : ∀ rest, Shell.lex .between (" rm -f ".toList ++ rest)
      = .word "rm".toList :: .word "-f".toList :: Shell.lex .between rest := fun _ => rfl
  have hname : Shell.lex .between (Shell.quote name.toList) = [.word name.toList] :=
    Shell.tokens_quote name.toList
  have hends : Shell.Ends (" rm -f ".toList ++ Shell.quote name.toList) := Shell.ends_space _
  rw [tokens, stopScript, List.append_assoc, tokens_command backend hkind hends, hoptions, hname,
    stopTokens]

/-! ## The unit -/

/-- The command line that runs a script is the antiquotation of the shell and the script as one
word. -/
theorem terms_shellCommand (script : List Char) : (shellCommand script).terms
    = [.text (.hole "pkgs.runtimeShell".toList
      :: (" -c ".toList ++ Shell.quote script).map .char)] := by
  rw [shellCommand, Expr.terms, List.flatMap_cons, List.flatMap_singleton]
  rfl

/-- What the unit of a resource says.  Only its name and its command lines depend on the name of
the resource. -/
theorem bindingsTrees_unit (kind name : String) : ∃ path type remain wanted : Tree,
    bindingsTrees [unit backend kind name]
      = [([wordKey "systemd", wordKey "services", wordKey (unitName backend kind name)], .set [
          ([wordKey "path"], path),
          ([wordKey "serviceConfig"], .set [
            ([wordKey "Type"], type),
            ([wordKey "RemainAfterExit"], remain),
            ([wordKey "ExecStart"], .ofTerms (shellCommand (startScript backend kind name)).terms),
            ([wordKey "ExecStop"], .ofTerms (shellCommand (stopScript backend kind name)).terms)]),
          ([wordKey "wantedBy"], wanted)])] :=
  ⟨_, _, _, _, rfl⟩

/-- What is read from the unit of a resource: its name, and the scripts as the one word that the
shell is given. -/
theorem readUnit_eq (kind name : String) : readUnit (unitBlock backend kind name) = some {
    name := unitName backend kind name
    start := .hole "pkgs.runtimeShell".toList
      :: (" -c ".toList ++ Shell.quote (startScript backend kind name)).map .char
    stop := .hole "pkgs.runtimeShell".toList
      :: (" -c ".toList ++ Shell.quote (stopScript backend kind name)).map .char } := by
  have hunit : Nix.BindingsWellFormed [unit backend kind name] :=
    ⟨wellFormed_unit backend kind name, trivial⟩
  have hname : Nix.string? (wordKey (unitName backend kind name))
      = some (unitName backend kind name) := Nix.string?_map_char _
  obtain ⟨path, type, remain, wanted, htree⟩ := bindingsTrees_unit backend kind name
  rw [readUnit, unitBlock, Nix.readBlock_renderBlock hunit, htree, Option.bind_some,
    terms_shellCommand, terms_shellCommand]
  simp only [if_true, hname]
  rfl

/-- The unit of a resource is read as it was meant.  Its name is made of the runtime, the kind and
the name of the resource.  Each of its command lines is the shell, the option `-c` and one word; the
word is a script, and the words of the script are those of the commands that make or remove
the resource, with its name as one word among them. -/
theorem readUnit_unitBlock {kind : String} (hkind : kind = "volume" ∨ kind = "network")
    (name : String) :
    ∃ start stop startWord stopWord : List Char,
      readUnit (unitBlock backend kind name) = some {
        name := backend.name ++ "-" ++ kind ++ "-" ++ name
        start := .hole "pkgs.runtimeShell".toList :: (" -c ".toList ++ startWord).map .char
        stop := .hole "pkgs.runtimeShell".toList :: (" -c ".toList ++ stopWord).map .char }
      ∧ tokens startWord = [.word start]
      ∧ tokens start = startTokens backend kind name
      ∧ tokens stopWord = [.word stop]
      ∧ tokens stop = stopTokens backend kind name :=
  ⟨startScript backend kind name, stopScript backend kind name,
    Shell.quote (startScript backend kind name), Shell.quote (stopScript backend kind name),
    readUnit_eq backend kind name, Shell.tokens_quote _, tokens_startScript backend hkind name,
    Shell.tokens_quote _, tokens_stopScript backend hkind name⟩

/-- The three layers at once, for a name with a quote and what looks like an antiquotation. -/
theorem readUnit_unitBlock_quote : ("volume" = "volume" ∨ "volume" = "network") ∧
    ∃ start stop startWord stopWord : List Char,
      readUnit (unitBlock .docker "volume" "it's $\x7bx\x7d") = some {
        name := Backend.docker.name ++ "-" ++ "volume" ++ "-" ++ "it's $\x7bx\x7d"
        start := .hole "pkgs.runtimeShell".toList :: (" -c ".toList ++ startWord).map .char
        stop := .hole "pkgs.runtimeShell".toList :: (" -c ".toList ++ stopWord).map .char }
      ∧ tokens startWord = [.word start]
      ∧ tokens start = startTokens .docker "volume" "it's $\x7bx\x7d"
      ∧ tokens stopWord = [.word stop]
      ∧ tokens stop = stopTokens .docker "volume" "it's $\x7bx\x7d" :=
  ⟨Or.inl rfl, readUnit_unitBlock .docker (Or.inl rfl) "it's $\x7bx\x7d"⟩

end ComposeNix.Lifecycle
