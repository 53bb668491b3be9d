import ComposeNix.Proofs.CommandLine.Ending
import ComposeNix.Proofs.CommandLine.Printing
import ComposeNix.Proofs.Module.Texts

/-!
# Where a module goes

A run that converts makes its module first and hands it over last: it is printed, or written to a
file.  Which of the two is asked for has no part in the making (`moduleIn`), so both hand over the
same module.  Either can fail at that, because a text that has no encoding can be handed over in
neither way, and the file has been emptied by then.

`convert_delivers`: the file holds the encoding of the module as it is, while what is printed is
that of the module without its control sequences, because no terminal shows it.  So the two agree
exactly for the modules that have no control sequence in them, and these can come from any text of a
manifest.
-/

namespace ComposeNix.CommandLine

variable {files : Files} {lead args : List String} {given own : Given}

/-! ## Asking for a file -/

theorem last?_cons (g : Setting × String) (own : Given) (s : Setting) :
    Given.last? (g :: own) s = (own.last? s).or (if g.1 = s then some g.2 else none) := by
  rw [Given.last?, Given.last?, List.reverse_cons, List.find?_append, Option.map_or]
  by_cases h : g.1 = s
  · simp [h]
  · simp [h]

/-- Only the last value of an option is checked. -/
theorem checkGiven_congr {l : Level} {own other gs : Given}
    (h : ∀ g ∈ gs, checkSetting files l g.1 ((own.last? g.1).getD g.2)
      = checkSetting files l g.1 ((other.last? g.1).getD g.2)) :
    checkGiven files l own gs = checkGiven files l other gs := by
  induction gs with
  | nil => rfl
  | cons g gs ih =>
    rw [checkGiven, checkGiven, h g List.mem_cons_self,
      ih fun g hg => h g (List.mem_cons_of_mem _ hg)]

/-- Options are read and checked as before when a file is asked for in front of them. -/
theorem readLevel_out (hargs : readLevel files .convert args = .ok (own, [])) (out : String) :
    readLevel files .convert ("-o" :: out :: args) = .ok ((.out, out) :: own, []) := by
  obtain ⟨hread, hhelp, hchecks⟩ := checkGiven_of_readLevel hargs
  have hcluster : readOption .convert "-o" = .ok ⟨[], some ("-o", .out)⟩ := rfl
  have hread' : readArguments .convert ("-o" :: out :: args) = .ok ((.out, out) :: own, []) := by
    rw [readArguments_cons, if_neg (by decide), if_pos (by decide), hcluster]
    simp only [Except.bind, hread, List.nil_append]
  have hhelp' : Given.has ((.out, out) :: own) .help = false := hhelp
  have hchecks' : checkGiven files .convert ((.out, out) :: own) ((.out, out) :: own)
      = .ok () := by
    have hsame : checkGiven files .convert ((.out, out) :: own) own
        = checkGiven files .convert own own := by
      refine checkGiven_congr fun g _ => ?_
      by_cases hg : g.1 = .out
      · rw [hg]
        rfl
      · rw [last?_cons, if_neg (Ne.symm hg), Option.or_none]
    rw [checkGiven]
    exact hsame.trans hchecks
  rw [readLevel_eq hread' hhelp', hchecks']
  rfl

/-! ## Making the module -/

/-- The module of a request, with all that had to be read for it. -/
def moduleIn (files : Files) (given own : Given) : Run String :=
  (prepare files given).andThen fun setup =>
    (Run.quiet (do
      let text ← readManifest files setup.path
      return (text, ← givenRoutes files own))).andThen fun (text, rules) =>
        ((convertWith text (.str ((own.last? .backend).getD Backend.docker.name)) rules
            setup.context).1.mapError stopFor,
          (convertWith text (.str ((own.last? .backend).getD Backend.docker.name)) rules
            setup.context).2)

/-- Converting is making the module and handing it over. -/
theorem prepare_andThen_runConvert (files : Files) (given own : Given) :
    ((prepare files given).andThen fun setup => runConvert files setup own)
      = (moduleIn files given own).andThen fun module =>
        Run.quiet (deliver files ((own.last? .out).getD "-") module) := by
  rw [moduleIn, Run.andThen_assoc]
  congr 1
  funext setup
  rw [Run.andThen_assoc]
  rfl

/-- A run that converts makes the module and hands it over. -/
theorem run_convert_deliver (hlead : readArguments .program lead = .ok (given, []))
    (hhelp : given.has .help = false) (hargs : readLevel files .convert args = .ok (own, [])) :
    run files (lead ++ "convert" :: args) = finish (given.has .verbose)
      ((moduleIn files given own).andThen fun module =>
        Run.quiet (deliver files ((own.last? .out).getD "-") module)) := by
  rw [run_convert hlead hhelp hargs, prepare_andThen_runConvert]

/-- What a request converts to: the options pass their checks, and the module is that of the text of
the manifest, with its line ends unified, and of the rules and variables that were loaded. -/
structure Converts (files : Files) (given own : Given) (module : String) : Prop where
  checked : checkGiven files .program given given = .ok ()
  converted : ∃ raw context rules,
    files ((given.last? .file).getD "docker-compose.yml") = .file raw
      ∧ (givenContext files given).1 = .ok context
      ∧ givenRoutes files own = .ok rules
      ∧ (convertWith (String.ofList (Text.unifyLineEnds raw.toList))
          (.str ((own.last? .backend).getD Backend.docker.name)) rules context).1 = .ok module

/-- The text of a manifest is that of its file. -/
theorem readManifest_eq_ok_iff {path text : String} : readManifest files path = .ok text
    ↔ ∃ raw, files path = .file raw ∧ String.ofList (Text.unifyLineEnds raw.toList) = text := by
  rw [readManifest, openFile]
  cases files path <;> simp [Entry.isThere]

/-- The manifest and the rules of a request are read one after the other. -/
theorem read_inputs_eq_ok_iff {path : String} {inputs : String × List RoutingRule} :
    (do
        let text ← readManifest files path
        return (text, ← givenRoutes files own) : Except Stop (String × List RoutingRule))
      = .ok inputs
    ↔ readManifest files path = .ok inputs.1 ∧ givenRoutes files own = .ok inputs.2 := by
  obtain ⟨text, rules⟩ := inputs
  cases readManifest files path with
  | error stop => simp [bind, Except.bind]
  | ok read =>
    cases givenRoutes files own with
    | error stop => simp [bind, Except.bind]
    | ok given => simp [bind, Except.bind, pure, Except.pure]

theorem moduleIn_eq_ok_iff {module : String} :
    (moduleIn files given own).1 = .ok module ↔ Converts files given own module := by
  rw [moduleIn, Run.fst_andThen_eq_ok_iff]
  constructor
  · rintro ⟨setup, hsetup, hmodule⟩
    obtain ⟨hchecked, context, hcontext, rfl⟩ := prepare_eq_ok_iff.mp hsetup
    obtain ⟨inputs, hinputs, hmodule⟩ := Run.fst_andThen_eq_ok_iff.mp hmodule
    obtain ⟨htext, hrules⟩ := read_inputs_eq_ok_iff.mp hinputs
    obtain ⟨raw, hraw, htext⟩ := readManifest_eq_ok_iff.mp htext
    refine ⟨hchecked, raw, context, inputs.2, hraw, hcontext, hrules, ?_⟩
    rw [htext]
    exact mapError_eq_ok_iff.mp hmodule
  · rintro ⟨hchecked, raw, context, rules, hraw, hcontext, hrules, hmodule⟩
    have htext := readManifest_eq_ok_iff.mpr ⟨raw, hraw, rfl⟩
    refine ⟨_, prepare_eq_ok_iff.mpr ⟨hchecked, context, hcontext, rfl⟩, ?_⟩
    refine Run.fst_andThen_eq_ok_iff.mpr
      ⟨(_, rules), read_inputs_eq_ok_iff.mpr ⟨htext, hrules⟩, ?_⟩
    exact mapError_eq_ok_iff.mpr hmodule

theorem NeverHelps.moduleIn (given own : Given) :
    NeverHelps (CommandLine.moduleIn files given own).1 := by
  refine andThen (prepare given) fun setup => andThen ?_ fun _ => mapError_stopFor _
  cases hmanifest : CommandLine.readManifest files setup.path with
  | error stop => exact of_error (hmanifest ▸ readManifest setup.path)
  | ok text =>
    cases hroutes : CommandLine.givenRoutes files own with
    | error stop => exact of_error (hroutes ▸ givenRoutes own)
    | ok rules => exact ok _

/-- Where the module goes has no part in its making. -/
theorem moduleIn_out (given own : Given) (out : String) :
    moduleIn files given ((.out, out) :: own) = moduleIn files given own := by
  have hlast : ∀ s, s ≠ .out → Given.last? ((.out, out) :: own) s = own.last? s := by
    intro s hs
    rw [last?_cons, if_neg (Ne.symm hs), Option.or_none]
  have hroutes : givenRoutes files ((.out, out) :: own) = givenRoutes files own := by
    rw [givenRoutes, givenRoutes, hlast .routes (by decide)]
  rw [moduleIn, moduleIn, hroutes, hlast .backend (by decide)]

/-! ## Handing the module over -/

/-- A file can be made under a path. -/
def Entry.isWritable : Entry → Bool
  | .file _ | .absent => true
  | _ => false

theorem deliver_dash (module : String) : deliver files "-" module = .ok (printed [module]) :=
  if_pos rfl

theorem deliver_of_isWritable {out : String} (hne : out ≠ "-")
    (h : (files out).isWritable = true) (module : String) : deliver files out module
      = match Text.encode module with
        | .error fault => .ok ⟨"", [(out, "")], some (.unencodable fault)⟩
        | .ok text =>
          .ok ⟨plain ("NixOS module written to " ++ out) ++ "\n", [(out, text)], none⟩ := by
  rw [deliver, if_neg hne]
  cases hentry : files out with
  | file text => rfl
  | absent => rfl
  | directory => rw [hentry] at h; cases h
  | nowhere => rw [hentry] at h; cases h

theorem isWritable_of_deliver {out module : String} {d : Delivery} (hne : out ≠ "-")
    (h : deliver files out module = .ok d) : (files out).isWritable = true := by
  rw [deliver, if_neg hne] at h
  cases hentry : files out with
  | file text => rfl
  | absent => rfl
  | directory => rw [hentry] at h; cases h
  | nowhere => rw [hentry] at h; cases h

/-- A module is printed if it has an encoding without its control sequences, and written to a file
if one can be made and the module has an encoding as it is. -/
theorem exists_deliver_iff {out module : String} :
    (∃ d, deliver files out module = .ok d ∧ d.fault = none)
      ↔ out = "-" ∧ Text.isUnicode (plain module)
        ∨ out ≠ "-" ∧ (files out).isWritable = true ∧ Text.isUnicode module := by
  by_cases hne : out = "-"
  · subst hne
    simp [deliver_dash, fault_printed_eq_none_iff]
  · have hdeliver : (∃ d, deliver files out module = .ok d ∧ d.fault = none)
        ↔ (files out).isWritable = true ∧ Text.isUnicode module := by
      constructor
      · rintro ⟨d, hd, hfault⟩
        have hwritable := isWritable_of_deliver hne hd
        rw [deliver_of_isWritable hne hwritable] at hd
        refine ⟨hwritable, Text.succeeds_encode_iff.mp ?_⟩
        cases hencode : Text.encode module with
        | ok text => exact succeeds_ok text
        | error fault =>
          rw [hencode] at hd
          obtain rfl := Except.ok.inj hd
          exact nomatch hfault
      · rintro ⟨hwritable, hunicode⟩
        obtain ⟨text, htext⟩ := Text.succeeds_encode_iff.mpr hunicode
        rw [deliver_of_isWritable hne hwritable, htext]
        exact ⟨_, rfl, rfl⟩
    simp [hdeliver, hne]

/-- What the last step of a run comes to is the outcome. -/
theorem finish_of_eq_ok {r : Run Delivery} {d : Delivery} (h : r.1 = .ok d) (verbose : Bool) :
    (finish verbose r).output = d.output ∧ (finish verbose r).written = d.written
      ∧ (finish verbose r).ending = (d.fault.map Ending.crash).getD (.exit 0) := by
  rw [finish, h]
  exact ⟨rfl, rfl, rfl⟩

theorem run_convert_out (hlead : readArguments .program lead = .ok (given, []))
    (hhelp : given.has .help = false) (hargs : readLevel files .convert args = .ok (own, []))
    (hout : own.last? .out = none) (out : String) :
    run files (lead ++ "convert" :: "-o" :: out :: args) = finish (given.has .verbose)
      ((moduleIn files given own).andThen fun module =>
        Run.quiet (deliver files out module)) := by
  rw [run_convert_deliver hlead hhelp (readLevel_out hargs out), moduleIn_out, last?_cons, hout]
  rfl

/-- What a run comes to that converts to a module. -/
theorem run_convert_of_converts (hlead : readArguments .program lead = .ok (given, []))
    (hhelp : given.has .help = false) (hargs : readLevel files .convert args = .ok (own, []))
    (hout : own.last? .out = none) {module : String} (hmodule : Converts files given own module)
    {out : String} {d : Delivery} (hdeliver : deliver files out module = .ok d) :
    (run files (lead ++ "convert" :: "-o" :: out :: args)).output = d.output
      ∧ (run files (lead ++ "convert" :: "-o" :: out :: args)).written = d.written
      ∧ (run files (lead ++ "convert" :: "-o" :: out :: args)).ending
        = (d.fault.map Ending.crash).getD (.exit 0) := by
  have hrun : ((moduleIn files given own).andThen fun module =>
      Run.quiet (deliver files out module)).1 = .ok d :=
    Run.fst_andThen_eq_ok_iff.mpr ⟨module, moduleIn_eq_ok_iff.mpr hmodule, hdeliver⟩
  rw [run_convert_out hlead hhelp hargs hout]
  exact finish_of_eq_ok hrun (given.has .verbose)

/-- What becomes of a module that a run hands over to a file. -/
structure WritesTo (out module : String) (outcome : Outcome) : Prop where
  whole : ∀ text, Text.encode module = .ok text →
    outcome.written = [(out, text)] ∧ outcome.ending = .exit 0
  emptied : ∀ fault, Text.unencodable? module = some fault →
    outcome.written = [(out, "")] ∧ outcome.ending = .crash (.unencodable fault)

/-- What becomes of a module that a run prints. -/
structure Prints (module : String) (outcome : Outcome) : Prop where
  written : outcome.written = []
  whole : ∀ shown, Text.encode (plain module) = .ok shown →
    outcome.output = shown ∧ outcome.ending = .exit 0
  nothing : ∀ fault, Text.unencodable? (plain module) = some fault →
    outcome.output = "" ∧ outcome.ending = .crash (.unencodable fault)

section

variable (hlead : readArguments .program lead = .ok (given, [])) (hhelp : given.has .help = false)
  (hargs : readLevel files .convert args = .ok (own, [])) (hout : own.last? .out = none)
include hlead hhelp hargs hout

theorem prints_of_converts {module : String} (hmodule : Converts files given own module) :
    Prints module (run files (lead ++ "convert" :: "-o" :: "-" :: args)) := by
  obtain ⟨houtput, hwritten, hending⟩ :=
    run_convert_of_converts hlead hhelp hargs hout hmodule (deliver_dash module)
  refine ⟨hwritten.trans (written_printed _), fun shown hshown => ?_, fun fault hfault => ?_⟩
  · rw [houtput, hending, printed_singleton_of_encode hshown]
    exact ⟨rfl, rfl⟩
  · rw [houtput, hending, printed_singleton_of_unencodable? hfault]
    exact ⟨rfl, rfl⟩

theorem writesTo_of_converts {module : String} (hmodule : Converts files given own module)
    {out : String} (hne : out ≠ "-") (hwritable : (files out).isWritable = true) :
    WritesTo out module (run files (lead ++ "convert" :: "-o" :: out :: args)) := by
  have hdeliver := deliver_of_isWritable hne hwritable module
  constructor
  · intro text htext
    rw [htext] at hdeliver
    exact (run_convert_of_converts hlead hhelp hargs hout hmodule hdeliver).2
  · intro fault hfault
    rw [Text.encode_eq_error_iff.mpr hfault] at hdeliver
    exact (run_convert_of_converts hlead hhelp hargs hout hmodule hdeliver).2

/-- A module is printed without its control sequences, and written to a file as it is.  A run goes
well exactly if there is a module, what is handed over has an encoding and, if the run asks for a
file, one can be made there; the module is that of the text of the manifest and of the rules and
variables that were loaded, wherever it goes.  A file is left empty if the module has no encoding.
What is printed is what is written exactly if the module has no control sequence in it. -/
theorem convert_delivers :
    (∀ out, (run files (lead ++ "convert" :: "-o" :: out :: args)).ending = .exit 0
        ↔ ∃ module, Converts files given own module
          ∧ (out = "-" ∧ Text.isUnicode (plain module)
            ∨ out ≠ "-" ∧ (files out).isWritable = true ∧ Text.isUnicode module))
      ∧ ∀ module, Converts files given own module →
        Prints module (run files (lead ++ "convert" :: "-o" :: "-" :: args))
          ∧ (∀ out, out ≠ "-" → (files out).isWritable = true →
              WritesTo out module (run files (lead ++ "convert" :: "-o" :: out :: args)))
          ∧ ∀ shown text, Text.encode (plain module) = .ok shown → Text.encode module = .ok text →
            (shown = text ↔ ∀ control, Text.IsControl control → ¬ control <:+: module.toList) := by
  refine ⟨fun out => ?_, fun module hmodule => ?_⟩
  · have hnever : NeverHelps ((moduleIn files given own).andThen fun module =>
        Run.quiet (deliver files out module)).1 :=
      NeverHelps.andThen (NeverHelps.moduleIn given own) fun module =>
        NeverHelps.deliver out module
    simp only [run_convert_out hlead hhelp hargs hout, ending_finish_iff hnever,
      Run.fst_andThen_eq_ok_iff, moduleIn_eq_ok_iff, ← exists_deliver_iff]
    constructor
    · rintro ⟨d, ⟨module, hmodule, hdeliver⟩, hfault⟩
      exact ⟨module, hmodule, d, hdeliver, hfault⟩
    · rintro ⟨module, hmodule, d, hdeliver, hfault⟩
      exact ⟨d, ⟨module, hmodule, hdeliver⟩, hfault⟩
  · exact ⟨prints_of_converts hlead hhelp hargs hout hmodule,
      fun out => writesTo_of_converts hlead hhelp hargs hout hmodule,
      fun shown text => encode_plain_eq_iff⟩

end

/-- A project of one manifest converts to the module of what is read of it, if its labels are read
to their end. -/
theorem converts_projectFiles {text : String} {m : Manifest}
    (hm : (Manifest.ofText none (String.ofList (Text.unifyLineEnds text.toList))).1 = .ok m)
    (hbreak : m.break? = none) :
    Converts (projectFiles text) [] [] (m.toModule .docker []) :=
  ⟨rfl, text, none, [], rfl, rfl, rfl, (convert_eq_ok_iff .docker).mpr
    ⟨[], m, (rfl : RoutingRule.ofValues [] = .ok []), hm, hbreak, rfl⟩⟩

/-! ## A text with a control sequence -/

/-- A project whose image has a control sequence in its name. -/
def escapedImage : String := "services:\n  a:\n    image: \"\\e[31mx\"\n"

/-- The sequence, which makes what follows it red. -/
def redSequence : List Char := ['\x1b', '[', '3', '1', 'm']

theorem isControl_redSequence : Text.IsControl redSequence :=
  ⟨['3', '1'], 'm', rfl, List.all_eq_true.mp rfl, rfl⟩

/-- The sequence stands in the module of the project, and the module can be handed over. -/
theorem exists_converts_escapedImage : ∃ module,
    Converts (projectFiles escapedImage) [] [] module ∧ redSequence <:+: module.toList
      ∧ Text.opener ∉ module.toList := by
  have hread : ((Manifest.ofText none
      (String.ofList (Text.unifyLineEnds escapedImage.toList))).1.toOption.map fun m =>
        (m.break?.isNone, decide (Text.opener ∉ (m.document .docker []).render),
          decide (∃ e ∈ m.services, (redSequence ++ ['x']).map Nix.Letter.char
            ∈ Nix.bindingsLiterals (Nix.collapseBindings [e.2.declaration m.projectName e.1]))))
      = some (true, true, true) := by decide +kernel
  obtain ⟨m, hm, heq⟩ := Option.map_eq_some_iff.mp hread
  simp only [Prod.mk.injEq, Option.isNone_iff_eq_none, decide_eq_true_eq] at heq
  obtain ⟨hbreak, hopener, e, he, hliteral⟩ := heq
  have hinfix := m.escape_textOf_infix_toModule .docker [] (.tail _ (.head _))
    (List.mem_map_of_mem he) _ hliteral
  rw [Nix.textOf_map_char] at hinfix
  refine ⟨m.toModule .docker [], converts_projectFiles (toOption_eq_some_iff.mp hm) hbreak,
    (List.prefix_append redSequence ['x']).isInfix.trans hinfix, ?_⟩
  rwa [Manifest.toModule, String.toList_ofList]

/-- What the runs on the project come to: they go well, and what is written holds the sequence. -/
theorem convert_delivers_escapedImage : readArguments .program [] = .ok ([], [])
    ∧ Given.has [] .help = false
    ∧ readLevel (projectFiles escapedImage) .convert [] = .ok ([], [])
    ∧ Given.last? [] .out = none
    ∧ (run (projectFiles escapedImage) ["convert", "-o", "-"]).ending = .exit 0
    ∧ ∃ module, redSequence <:+: module.toList
      ∧ Prints module (run (projectFiles escapedImage) ["convert", "-o", "-"])
      ∧ WritesTo "module.nix" module
        (run (projectFiles escapedImage) ["convert", "-o", "module.nix"]) := by
  have hlead : readArguments .program [] = .ok ([], []) := rfl
  have hargs : readLevel (projectFiles escapedImage) .convert [] = .ok ([], []) := rfl
  obtain ⟨module, hmodule, hinfix, hopener⟩ := exists_converts_escapedImage
  obtain ⟨hending, hdelivers⟩ := convert_delivers hlead rfl hargs rfl
  obtain ⟨hprints, hwrites, -⟩ := hdelivers module hmodule
  exact ⟨hlead, rfl, hargs, rfl, (hending "-").mpr
      ⟨module, hmodule, Or.inl ⟨rfl, isUnicode_plain_of_notMem hopener⟩⟩,
    module, hinfix, hprints, hwrites "module.nix" (by decide) rfl⟩

/-- Printed, the module of the project is another than in a file. -/
theorem output_ne_written_escapedImage : ∃ text,
    (run (projectFiles escapedImage) ["convert", "-o", "module.nix"]).written
        = [("module.nix", text)]
      ∧ (run (projectFiles escapedImage) ["convert", "-o", "module.nix"]).ending = .exit 0
      ∧ (run (projectFiles escapedImage) ["convert", "-o", "-"]).ending = .exit 0
      ∧ (run (projectFiles escapedImage) ["convert", "-o", "-"]).output ≠ text := by
  have hlead : readArguments .program [] = .ok ([], []) := rfl
  have hargs : readLevel (projectFiles escapedImage) .convert [] = .ok ([], []) := rfl
  obtain ⟨module, hmodule, hinfix, hopener⟩ := exists_converts_escapedImage
  obtain ⟨text, htext⟩ := Text.succeeds_encode_iff.mpr (Text.isUnicode_of_notMem hopener)
  obtain ⟨shown, hshown⟩ := Text.succeeds_encode_iff.mpr (isUnicode_plain_of_notMem hopener)
  obtain ⟨hwritten, hending⟩ := (writesTo_of_converts hlead rfl hargs rfl hmodule
    (by decide : "module.nix" ≠ "-") rfl).whole text htext
  obtain ⟨houtput, hprinted⟩ :=
    (prints_of_converts hlead rfl hargs rfl hmodule).whole shown hshown
  refine ⟨text, hwritten, hending, hprinted, fun heq => ?_⟩
  exact (encode_plain_eq_iff hshown htext).mp (houtput.symm.trans heq) redSequence
    isControl_redSequence hinfix

end ComposeNix.CommandLine
