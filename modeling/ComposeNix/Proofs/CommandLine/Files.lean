import ComposeNix.Proofs.CommandLine.Delivery

/-!
# What a run does to the files

A run can fail over its arguments, over a file that is missing or cannot be read, over the rules,
the manifest and the conversion, and over the file that it is to write.  All of this comes before
anything is written, also when the file to write is one of those to read.  One failure is left: the
file has been opened, and so emptied, when it turns out that the module has no encoding.

`written_run` says so for every command line: a run that fails writes nothing, unless it converts to
a module without encoding and names a file (`target?`), and then it leaves this file empty.  One
that goes well writes nothing either unless it converts and names a file.  Then it writes this file
and no other, and what it writes is the whole module.
-/

namespace ComposeNix.CommandLine

variable {files : Files} {args : List String} {given own : Given}

/-! ## Asking for a module -/

/-- The arguments lead to the command that converts, with these options in front of it and behind
it, and no page of help is asked for. -/
structure AsksToConvert (args : List String) (given own : Given) : Prop where
  arguments : ∃ rest, readArguments .program args = .ok (given, "convert" :: rest)
    ∧ readArguments .convert rest = .ok (own, [])
  program_help : given.has .help = false
  command_help : own.has .help = false

/-- The file that the options of the command name, which a hyphen does not. -/
def target? (own : Given) : Option String := (own.last? .out).filter (· ≠ "-")

/-- What is written when a module is delivered: the file that was asked for, with the module in it
or, where it has no encoding, without content. -/
theorem written_of_deliver {module : String} {d : Delivery}
    (h : deliver files ((own.last? .out).getD "-") module = .ok d) :
    (d.fault = none → (target? own = none ∧ d.written = [])
        ∨ ∃ out text, target? own = some out ∧ Text.encode module = .ok text
          ∧ d.written = [(out, text)])
      ∧ (d.fault ≠ none → d.written = []
        ∨ ∃ out, target? own = some out ∧ ¬ Text.isUnicode module ∧ d.written = [(out, "")]) := by
  by_cases hdash : (own.last? .out).getD "-" = "-"
  · rw [hdash, deliver_dash] at h
    obtain rfl := Except.ok.inj h
    have htarget : target? own = none := by
      rw [target?]
      cases hout : own.last? .out with
      | none => rfl
      | some out =>
        rw [hout, Option.getD_some] at hdash
        simp [Option.filter, hdash]
    exact ⟨fun _ => Or.inl ⟨htarget, written_printed _⟩, fun _ => Or.inl (written_printed _)⟩
  · obtain ⟨out, hout⟩ : ∃ out, own.last? .out = some out := by
      cases hout : own.last? .out with
      | none => rw [hout] at hdash; exact absurd rfl hdash
      | some out => exact ⟨out, rfl⟩
    rw [hout, Option.getD_some] at h hdash
    have htarget : target? own = some out := by simp [target?, hout, Option.filter, hdash]
    rw [deliver_of_isWritable hdash (isWritable_of_deliver hdash h)] at h
    cases hencode : Text.encode module with
    | ok text =>
      rw [hencode] at h
      obtain rfl := Except.ok.inj h
      exact ⟨fun _ => Or.inr ⟨out, text, htarget, rfl, rfl⟩, fun hfault => absurd rfl hfault⟩
    | error fault =>
      rw [hencode] at h
      obtain rfl := Except.ok.inj h
      refine ⟨fun hfault => (nomatch hfault),
        fun _ => Or.inr ⟨out, htarget, fun hunicode => ?_, rfl⟩⟩
      obtain ⟨text, htext⟩ := Text.succeeds_encode_iff.mpr hunicode
      exact nomatch hencode.symm.trans htext

/-! ## Stopping short -/

theorem written_stopped (log : String) (stop : Stop) : (stopped log stop).written = [] := by
  cases stop <;> rfl

/-- A run has come to its last step, or it has not written anything. -/
theorem written_finish {r : Run Delivery} (verbose : Bool) : (finish verbose r).written = []
    ∨ ∃ d, r.1 = .ok d ∧ (finish verbose r).written = d.written
      ∧ ((finish verbose r).ending = .exit 0 ↔ d.fault = none) := by
  rw [finish]
  cases hr : r.1 with
  | error stop => exact Or.inl (written_stopped _ stop)
  | ok d =>
    exact Or.inr ⟨d, rfl, rfl, ending_eq_exit_iff⟩

/-- A run stops short before it comes to a command, or it is the run of a command. -/
theorem run_eq (files : Files) (args : List String) :
    (∃ stop, run files args = stopped "" stop)
      ∨ ∃ given level rest, readProgram files args = .ok (given, level, rest)
        ∧ run files args = finish (given.has .verbose) (runCommand files given level rest) := by
  rw [run]
  cases hprogram : readProgram files args with
  | error stop => exact Or.inl ⟨stop, rfl⟩
  | ok found => exact Or.inr ⟨found.1, found.2.1, found.2.2, rfl, rfl⟩

/-! ## Coming to a command -/

/-- The command that was found is the first of the words. -/
theorem findCommand_eq_ok {words : List String} {level : Level} {rest : List String}
    (h : findCommand files words = .ok (level, rest)) :
    ∃ word, words = word :: rest ∧ Level.commands.lookup word = some level := by
  cases words with
  | nil => cases h
  | cons word args =>
    rw [findCommand] at h
    cases hlookup : Level.commands.lookup word with
    | some found =>
      rw [hlookup] at h
      obtain ⟨rfl, rfl⟩ := Prod.mk.inj (Except.ok.inj h)
      exact ⟨word, rfl, hlookup⟩
    | none =>
      rw [hlookup] at h
      -- Whatever else is looked at, a word that is no command is a misuse.
      dsimp only at h
      split at h
      · obtain ⟨-, -, h⟩ := bind_eq_ok_iff.mp h
        cases h
      · cases h

theorem readProgram_eq_ok {level : Level} {rest : List String}
    (h : readProgram files args = .ok (given, level, rest)) :
    ∃ word, readArguments .program args = .ok (given, word :: rest)
      ∧ Level.commands.lookup word = some level ∧ given.has .help = false := by
  rw [readProgram] at h
  split at h
  · cases h
  · obtain ⟨⟨options, words⟩, hlevel, h⟩ := bind_eq_ok_iff.mp h
    obtain ⟨command, hfind, h⟩ := bind_eq_ok_iff.mp h
    obtain ⟨rfl, rfl⟩ := Prod.mk.inj (Except.ok.inj h)
    obtain ⟨hread, hhelp, -⟩ := checkGiven_of_readLevel hlevel
    obtain ⟨word, rfl, hlookup⟩ := findCommand_eq_ok hfind
    exact ⟨word, hread, hlookup, hhelp⟩

theorem eq_convert_of_lookup {word : String} (h : Level.commands.lookup word = some .convert) :
    word = "convert" := by
  rw [Level.commands, List.lookup_cons] at h
  split at h
  · next hword => exact beq_iff_eq.mp hword
  · rw [List.lookup_cons] at h
    split at h <;> cases h

theorem written_inspect (m : Manifest) : (inspect m).1.written = [] := by
  rw [inspect]
  split
  · exact written_printed _
  · exact written_printed _
  · exact written_printed _

/-- Nothing is written but by the command that converts, and it has read its options. -/
theorem written_of_runCommand {level : Level} {rest : List String} {d : Delivery}
    (h : (runCommand files given level rest).1 = .ok d) :
    d.written = [] ∨ level = .convert ∧ ∃ own, readLevel files .convert rest = .ok (own, []) := by
  rw [runCommand] at h
  obtain ⟨context, -, h⟩ := Run.fst_andThen_eq_ok_iff.mp h
  obtain ⟨own, hown, h⟩ := Run.fst_andThen_eq_ok_iff.mp h
  cases level with
  | convert =>
    refine Or.inr ⟨rfl, own, ?_⟩
    rw [Run.quiet] at hown
    obtain ⟨⟨options, words⟩, hlevel, hown⟩ := bind_eq_ok_iff.mp hown
    change (if words.isEmpty then _ else _) = _ at hown
    split at hown
    · next hempty =>
      obtain rfl := Except.ok.inj hown
      rw [hlevel, List.isEmpty_iff.mp hempty]
    · cases hown
  | program | inspect =>
    obtain ⟨text, -, h⟩ := Run.fst_andThen_eq_ok_iff.mp h
    obtain ⟨m, -, h⟩ := Run.fst_andThen_eq_ok_iff.mp h
    obtain rfl := Except.ok.inj h
    exact Or.inl (written_inspect m)

/-- A run that writes anything was asked to convert. -/
theorem exists_asksToConvert (h : (run files args).written ≠ []) :
    ∃ given own, AsksToConvert args given own := by
  obtain ⟨stop, hrun⟩ | ⟨given, level, rest, hprogram, hrun⟩ := run_eq files args
  · rw [hrun, written_stopped] at h
    exact absurd rfl h
  · rw [hrun] at h
    obtain ⟨d, hcommand, hwritten, -⟩ := (written_finish (given.has .verbose)).resolve_left h
    rw [hwritten] at h
    obtain ⟨rfl, own, hlevel⟩ := (written_of_runCommand hcommand).resolve_left h
    obtain ⟨word, hread, hlookup, hhelp⟩ := readProgram_eq_ok hprogram
    obtain rfl := eq_convert_of_lookup hlookup
    obtain ⟨hown, hownHelp, -⟩ := checkGiven_of_readLevel hlevel
    exact ⟨given, own, ⟨rest, hread, hown⟩, hhelp, hownHelp⟩

/-! ## Converting -/

/-- A command comes to nothing if its options fail their check. -/
theorem runCommand_of_readLevel_eq_error {level : Level} {rest : List String} {stop : Stop}
    (h : readLevel files level rest = .error stop)
    (hstop : NeverHelps (.error stop : Except Stop Unit)) (given : Given) :
    NeverHelps (runCommand files given level rest).1
      ∧ ∀ d, (runCommand files given level rest).1 ≠ .ok d := by
  rw [runCommand, h]
  refine ⟨NeverHelps.andThen (NeverHelps.givenContext given) fun _ => hstop.of_error,
    fun d hd => ?_⟩
  obtain ⟨_, -, hd⟩ := Run.fst_andThen_eq_ok_iff.mp hd
  cases hd

/-- A run that was asked to convert makes a module and hands it over, unless an option of the
command fails its check; then the run fails and has not written anything. -/
theorem AsksToConvert.run_cases (h : AsksToConvert args given own) :
    run files args = finish (given.has .verbose) ((moduleIn files given own).andThen fun module =>
        Run.quiet (deliver files ((own.last? .out).getD "-") module))
      ∨ (run files args).ending ≠ .exit 0 ∧ (run files args).written = [] := by
  obtain ⟨rest, hprogram, hcommand⟩ := h.arguments
  have hrun : run files args = finish (given.has .verbose)
      ((Run.quiet (checkGiven files .program given given)).andThen fun _ =>
        runCommand files given .convert rest) :=
    run_of_readArguments hprogram h.program_help List.mem_cons_self
  have hlevel : readLevel files .convert rest
      = (checkGiven files .convert own own).map fun _ => (own, []) :=
    readLevel_eq hcommand h.command_help
  cases hcheck : checkGiven files .convert own own with
  | ok _ =>
    rw [hcheck] at hlevel
    exact Or.inl (by rw [hrun, runCommand_convert hlevel, prepare_andThen_runConvert])
  | error stop =>
    rw [hcheck] at hlevel
    obtain ⟨hhelps, hfails⟩ := runCommand_of_readLevel_eq_error hlevel
      (hcheck ▸ NeverHelps.checkGiven .convert own own) given
    have hnever : NeverHelps ((Run.quiet (checkGiven files .program given given)).andThen fun _ =>
        runCommand files given .convert rest).1 :=
      NeverHelps.andThen (NeverHelps.checkGiven .program given given) fun _ => hhelps
    have hnone : ∀ d, ((Run.quiet (checkGiven files .program given given)).andThen fun _ =>
        runCommand files given .convert rest).1 ≠ .ok d := by
      intro d hd
      obtain ⟨_, -, hd⟩ := Run.fst_andThen_eq_ok_iff.mp hd
      exact hfails d hd
    rw [hrun]
    refine Or.inr ⟨fun hending => ?_, (written_finish _).resolve_right ?_⟩
    · obtain ⟨d, hd, -⟩ := (ending_finish_iff hnever _).mp hending
      exact hnone d hd
    · rintro ⟨d, hd, -⟩
      exact hnone d hd

/-- A run that fails writes nothing, but for one case: it was asked to write a module to a file, and
the module has no encoding.  Then it leaves the file empty.  A run that goes well and was asked to
convert writes the file that it was asked for, if any, with the whole module in it, and no other;
the module is that of the text of the manifest and of the rules and variables that were loaded.  Any
other run, be it an overview, a page of help or a report, writes nothing. -/
theorem written_run (files : Files) (args : List String) :
    ((run files args).ending ≠ .exit 0 → (run files args).written = []
        ∨ ∃ given own module out, AsksToConvert args given own ∧ Converts files given own module
          ∧ target? own = some out ∧ ¬ Text.isUnicode module
          ∧ (run files args).written = [(out, "")])
      ∧ (∀ given own, AsksToConvert args given own → (run files args).ending = .exit 0 →
          ∃ module, Converts files given own module
            ∧ (target? own = none ∧ (run files args).written = []
              ∨ ∃ out text, target? own = some out ∧ Text.encode module = .ok text
                ∧ (run files args).written = [(out, text)]))
      ∧ ((¬ ∃ given own, AsksToConvert args given own) → (run files args).written = []) := by
  refine ⟨fun hending => ?_, fun given own hasks hending => ?_, fun hasks => ?_⟩
  · rw [or_iff_not_imp_left]
    intro hwritten
    obtain ⟨given, own, hasks⟩ := exists_asksToConvert hwritten
    have hrun := hasks.run_cases.resolve_right fun hfails => hwritten hfails.2
    rw [hrun] at hending hwritten ⊢
    obtain ⟨d, hd, hdelivered, hexit⟩ := (written_finish _).resolve_left hwritten
    obtain ⟨module, hmodule, hdeliver⟩ := Run.fst_andThen_eq_ok_iff.mp hd
    have hfault : d.fault ≠ none := fun hnone => hending (hexit.mpr hnone)
    rw [hdelivered] at hwritten ⊢
    obtain ⟨out, htarget, hunicode, hemptied⟩ :=
      ((written_of_deliver hdeliver).2 hfault).resolve_left hwritten
    exact ⟨given, own, module, out, hasks, moduleIn_eq_ok_iff.mp hmodule, htarget, hunicode,
      hemptied⟩
  · have hrun := hasks.run_cases.resolve_right fun hfails => hfails.1 hending
    have hnever : NeverHelps ((moduleIn files given own).andThen fun module =>
        Run.quiet (deliver files ((own.last? .out).getD "-") module)).1 :=
      NeverHelps.andThen (NeverHelps.moduleIn given own) fun module => NeverHelps.deliver _ module
    rw [hrun, ending_finish_iff hnever] at hending
    obtain ⟨d, hd, hfault⟩ := hending
    obtain ⟨module, hmodule, hdeliver⟩ := Run.fst_andThen_eq_ok_iff.mp hd
    refine ⟨module, moduleIn_eq_ok_iff.mp hmodule, ?_⟩
    rw [hrun, (finish_of_eq_ok hd (given.has .verbose)).2.1]
    exact (written_of_deliver hdeliver).1 hfault
  · by_contra hwritten
    exact hasks (exists_asksToConvert hwritten)

/-- A run may write over the manifest that it reads, and then the module stands in its place; where
there is no manifest to read, it writes nothing. -/
theorem written_run_overManifest :
    (∃ text, (run (projectFiles escapedImage) ["convert", "-o", "docker-compose.yml"]).ending
          = .exit 0
        ∧ (run (projectFiles escapedImage) ["convert", "-o", "docker-compose.yml"]).written
          = [("docker-compose.yml", text)])
      ∧ (run (fun _ => .absent) ["convert", "-o", "docker-compose.yml"]).ending ≠ .exit 0
      ∧ (run (fun _ => .absent) ["convert", "-o", "docker-compose.yml"]).written = [] := by
  have hlead : readArguments .program [] = .ok ([], []) := rfl
  have hargs : readLevel (projectFiles escapedImage) .convert [] = .ok ([], []) := rfl
  obtain ⟨hcommand, hhelp, -⟩ :=
    checkGiven_of_readLevel (readLevel_out hargs "docker-compose.yml")
  have hasks : AsksToConvert ["convert", "-o", "docker-compose.yml"] []
      [(.out, "docker-compose.yml")] :=
    ⟨⟨_, readArguments_word (by decide) (by decide) _, hcommand⟩, rfl, hhelp⟩
  constructor
  · obtain ⟨module, hmodule, -, hopener⟩ := exists_converts_escapedImage
    obtain ⟨text, htext⟩ := Text.succeeds_encode_iff.mpr (Text.isUnicode_of_notMem hopener)
    obtain ⟨-, hending⟩ := (writesTo_of_converts hlead rfl hargs rfl hmodule
      (by decide : "docker-compose.yml" ≠ "-") rfl).whole text htext
    obtain ⟨-, -, ⟨hnone, -⟩ | ⟨out, text, hout, -, hwritten⟩⟩ :=
      (written_run _ _).2.1 _ _ hasks hending
    · exact nomatch hnone
    · obtain rfl := Option.some.inj hout
      exact ⟨text, hending, hwritten⟩
  · have hfails :
        (run (fun _ => .absent) ["convert", "-o", "docker-compose.yml"]).ending ≠ .exit 0 := by
      have hrun := run_convert_out hlead rfl
        (rfl : readLevel (fun _ => .absent) .convert [] = .ok ([], [])) rfl "docker-compose.yml"
      rw [List.nil_append] at hrun
      rw [hrun]
      rintro ⟨⟩
    refine ⟨hfails, ((written_run _ _).1 hfails).resolve_right ?_⟩
    rintro ⟨given, own, module, out, -, ⟨-, raw, -, -, hraw, -⟩, -⟩
    exact nomatch hraw

/-! ## A text without encoding -/

/-- A project whose image is named by half a pair of surrogates. -/
def tornImage : String := "services:\n  web:\n    image: \"\\ud800\"\n"

/-- The file that is to hold the module of the project is left empty. -/
theorem written_run_tornImage :
    (run (projectFiles tornImage) ["convert", "-o", "module.nix"]).ending ≠ .exit 0
      ∧ (run (projectFiles tornImage) ["convert", "-o", "module.nix"]).written
        = [("module.nix", "")] := by
  have hlead : readArguments .program [] = .ok ([], []) := rfl
  have hargs : readLevel (projectFiles tornImage) .convert [] = .ok ([], []) := rfl
  have hread : ((Manifest.ofText none
      (String.ofList (Text.unifyLineEnds tornImage.toList))).1.toOption.map fun m =>
        (m.break?.isNone, (Text.firstSurrogates? 0
          (Text.pointsFrom false (m.document .docker []).render)).isSome)) = some (true, true) := by
    decide +kernel
  obtain ⟨m, hm, heq⟩ := Option.map_eq_some_iff.mp hread
  simp only [Prod.mk.injEq, Option.isNone_iff_eq_none] at heq
  obtain ⟨hbreak, hsome⟩ := heq
  obtain ⟨fault, hfault⟩ := Option.isSome_iff_exists.mp hsome
  have hmodule := converts_projectFiles (toOption_eq_some_iff.mp hm) hbreak
  have hnone : Text.unencodable? (m.toModule .docker []) = some fault := by
    rwa [Text.unencodable?, Text.points, Manifest.toModule, String.toList_ofList]
  obtain ⟨hwritten, hending⟩ := (writesTo_of_converts hlead rfl hargs rfl hmodule
    (by decide : "module.nix" ≠ "-") rfl).emptied fault hnone
  refine ⟨fun hexit => ?_, hwritten⟩
  cases hexit.symm.trans hending

end ComposeNix.CommandLine
