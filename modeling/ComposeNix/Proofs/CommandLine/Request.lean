import ComposeNix.CommandLine.Run
import ComposeNix.Proofs.Conversion

/-!
# What a command line asks for

Options of the program, a command and options of the command: a run of such a command line is the
preparation that both commands share (`prepare`), and then the command.  `run_inspect` and
`run_convert` say so for options in any spelling, because only what they are read as counts.

Past the preparation nothing of the command line is looked at twice, so two command lines with the
same options of the program differ in the command alone.
-/

namespace ComposeNix.CommandLine

/-! ## Steps one after the other -/

namespace Run

variable {α β γ : Type}

theorem andThen_assoc (r : Run α) (f : α → Run β) (g : β → Run γ) :
    (r.andThen f).andThen g = r.andThen fun a => (f a).andThen g := by
  obtain ⟨result, notices⟩ := r
  cases result with
  | error stop => rfl
  | ok a =>
    simp only [andThen]
    cases h : f a with
    | mk result more =>
      cases result with
      | error stop => rfl
      | ok b => simp only [List.append_assoc]

/-- What is told in front of a step is told in front of the next. -/
theorem append_andThen (notices : List Notice) (r : Run α) (f : α → Run β) :
    andThen (r.1, notices ++ r.2) f = ((r.andThen f).1, notices ++ (r.andThen f).2) := by
  obtain ⟨result, more⟩ := r
  cases result with
  | error stop => rfl
  | ok a => exact congrArg _ (List.append_assoc notices more (f a).2)

theorem quiet_ok_andThen (a : α) (f : α → Run β) :
    (Run.quiet (.ok a)).andThen f = f a := by
  simp only [quiet, andThen, List.nil_append]

/-- What comes of one step after another is known from what comes of them. -/
theorem fst_andThen (r : Run α) (f : α → Run β) :
    (r.andThen f).1 = r.1.bind fun a => (f a).1 := by
  obtain ⟨result, notices⟩ := r
  cases result <;> rfl

theorem fst_andThen_eq_ok_iff {r : Run α} {f : α → Run β} {b : β} :
    (r.andThen f).1 = .ok b ↔ ∃ a, r.1 = .ok a ∧ (f a).1 = .ok b := by
  rw [fst_andThen]
  cases r.1 with
  | error stop => simp [Except.bind]
  | ok a => simp [Except.bind]

end Run

/-! ## Reading the arguments -/

/-- One step of the reading. -/
theorem readArguments_cons (l : Level) (arg : String) (args : List String) :
    readArguments l (arg :: args) = if arg = "--" then .ok ([], args)
    else if isOption arg then (readOption l arg).bind fun cluster =>
      match cluster.wanting, args with
      | none, args => (readArguments l args).bind fun r => .ok (cluster.complete ++ r.1, r.2)
      | some (name, _), [] => .error (.missingValue name)
      | some (_, s), value :: args =>
        (readArguments l args).bind fun r => .ok (cluster.complete ++ (s, value) :: r.1, r.2)
    else if l = .program then .ok ([], arg :: args)
    else (readArguments l args).bind fun r => .ok (r.1, arg :: r.2) := by
  delta readArguments
  show (ite (arg = "--") _ (ite (isOption arg = true) (Except.bind (readOption l arg) _) _)) = _
  congr 3
  funext cluster
  rcases cluster with ⟨c, _ | ⟨name, s⟩⟩
  · rfl
  · cases args <;> rfl

/-- A word in front of which the program has no other. -/
theorem readArguments_word {word : String} (hdashes : word ≠ "--")
    (hoption : isOption word = false) (rest : List String) :
    readArguments .program (word :: rest) = .ok ([], word :: rest) := by
  rw [readArguments_cons, if_neg hdashes, hoption]
  rfl

/-- Options that are put in front leave the words alone. -/
theorem exists_of_bind_eq_ok {r : Except Misuse (Given × List String)} {f : Given → Given}
    {given : Given} {words : List String}
    (h : (r.bind fun r => .ok (f r.1, r.2)) = .ok (given, words)) :
    ∃ rest, r = .ok (rest, words) ∧ f rest = given := by
  obtain ⟨r, hr, h⟩ := bind_eq_ok_iff.mp h
  obtain ⟨rfl, rfl⟩ := Prod.mk.inj (Except.ok.inj h)
  exact ⟨r.1, hr, rfl⟩

/-- The options of the program end where the command begins. -/
theorem readArguments_append {lead : List String} {given : Given}
    (h : readArguments .program lead = .ok (given, [])) {word : String} (hdashes : word ≠ "--")
    (hoption : isOption word = false) (rest : List String) :
    readArguments .program (lead ++ word :: rest) = .ok (given, word :: rest) := by
  induction lead using readArguments.induct (l := .program) generalizing given with
  | case1 =>
    obtain ⟨rfl, -⟩ := Prod.mk.inj (Except.ok.inj h)
    exact readArguments_word hdashes hoption rest
  | case2 args =>
    rw [readArguments_cons, if_pos rfl] at h
    obtain ⟨rfl, rfl⟩ := Prod.mk.inj (Except.ok.inj h)
    rw [List.cons_append, readArguments_cons, if_pos rfl, List.nil_append]
  | case3 arg args hne hopt ih =>
    rw [readArguments_cons, if_neg hne, if_pos hopt] at h
    rw [List.cons_append, readArguments_cons, if_neg hne, if_pos hopt]
    obtain ⟨cluster, hread, h⟩ := bind_eq_ok_iff.mp h
    refine bind_eq_ok_iff.mpr ⟨cluster, hread, ?_⟩
    have ih := ih cluster
    rcases cluster with ⟨complete, _ | ⟨name, s⟩⟩
    · obtain ⟨more, hmore, rfl⟩ := exists_of_bind_eq_ok (f := (complete ++ ·)) h
      exact bind_eq_ok_iff.mpr ⟨_, ih hmore, rfl⟩
    · cases args with
      | nil => cases h
      | cons value args =>
        obtain ⟨more, hmore, rfl⟩ := exists_of_bind_eq_ok (f := (complete ++ (s, value) :: ·)) h
        exact bind_eq_ok_iff.mpr ⟨_, ih hmore, rfl⟩
  | case4 arg args hne hopt hl =>
    rw [readArguments_cons, if_neg hne, if_neg hopt, if_pos rfl] at h
    cases (Prod.mk.inj (Except.ok.inj h)).2
  | case5 arg args hne hopt hl => exact absurd rfl hl

/-! ## Preparation -/

/-- What both commands need, past the options of the program. -/
def prepare (files : Files) (given : Given) : Run Setup :=
  (Run.quiet (checkGiven files .program given given)).andThen fun _ =>
    (givenContext files given).andThen fun context =>
      Run.quiet (.ok ⟨(given.last? .file).getD "docker-compose.yml", context⟩)

/-- The preparation goes well if the options pass their checks and there are variables. -/
theorem prepare_eq_ok_iff {files : Files} {given : Given} {setup : Setup} :
    (prepare files given).1 = .ok setup
      ↔ checkGiven files .program given given = .ok () ∧ ∃ context,
        (givenContext files given).1 = .ok context
          ∧ ⟨(given.last? .file).getD "docker-compose.yml", context⟩ = setup := by
  simp only [prepare, Run.fst_andThen_eq_ok_iff, Run.quiet, Except.ok.injEq]
  constructor
  · rintro ⟨⟨⟩, hchecked, hcontext⟩
    exact ⟨hchecked, hcontext⟩
  · rintro ⟨hchecked, hcontext⟩
    exact ⟨(), hchecked, hcontext⟩

/-- The outcome of a run that came to its last step or stopped short. -/
def finish (verbose : Bool) (r : Run Delivery) : Outcome :=
  match r.1 with
  | .error stop => stopped (reported verbose r.2) stop
  | .ok d => ⟨d.output, reported verbose r.2, d.written, (d.fault.map Ending.crash).getD (.exit 0)⟩

/-- A run stops short where a check of an option fails. -/
theorem readLevel_eq {files : Files} {l : Level} {args : List String} {given : Given}
    {words : List String} (h : readArguments l args = .ok (given, words))
    (hhelp : given.has .help = false) :
    readLevel files l args = (checkGiven files l given given).map fun _ => (given, words) := by
  have hno : ¬ given.has .help = true := Bool.eq_false_iff.mp hhelp
  rw [readLevel, h]
  show (if given.has .help = true then _ else _) = _
  rw [if_neg hno]
  cases checkGiven files l given given <;> rfl

/-- A run whose arguments lead to a command checks the options of the program, and then it is the
command that is run. -/
theorem run_of_readArguments {files : Files} {args rest : List String} {given : Given}
    {word : String} (h : readArguments .program args = .ok (given, word :: rest))
    (hhelp : given.has .help = false) {level : Level} (hword : (word, level) ∈ Level.commands) :
    run files args = finish (given.has .verbose)
      ((Run.quiet (checkGiven files .program given given)).andThen fun _ =>
        runCommand files given level rest) := by
  have hlookup : ∀ c ∈ Level.commands, Level.commands.lookup c.1 = some c.2 := by decide
  have hprogram : readProgram files args
      = (checkGiven files .program given given).map fun _ => (given, level, rest) := by
    have hfind : findCommand files (word :: rest) = .ok (level, rest) := by
      rw [findCommand, hlookup _ hword]
    have hempty : ¬ args.isEmpty = true := fun hempty => by
      rw [List.isEmpty_iff.mp hempty] at h
      exact nomatch h
    rw [readProgram, if_neg hempty, readLevel_eq h hhelp]
    cases checkGiven files .program given given with
    | error stop => rfl
    | ok _ =>
      simp only [Except.map, bind, Except.bind, hfind]
      rfl
  rw [run, hprogram]
  cases checkGiven files .program given given with
  | error stop => rfl
  | ok _ =>
    rw [Run.quiet_ok_andThen, finish]
    rfl

/-- The command `convert` prepares and converts. -/
theorem runCommand_convert {files : Files} {given own : Given} {args : List String}
    (h : readLevel files .convert args = .ok (own, [])) :
    ((Run.quiet (checkGiven files .program given given)).andThen fun _ =>
        runCommand files given .convert args)
      = (prepare files given).andThen fun setup => runConvert files setup own := by
  rw [prepare, Run.andThen_assoc]
  simp only [Run.andThen_assoc, Run.quiet_ok_andThen, runCommand, h]
  rfl

variable {files : Files} {lead : List String} {given : Given}
  (hlead : readArguments .program lead = .ok (given, [])) (hhelp : given.has .help = false)

include hlead hhelp

/-- A run checks the options of the program, and then it is the command that is run. -/
theorem run_append {word : String} {level : Level} (hword : (word, level) ∈ Level.commands)
    (args : List String) : run files (lead ++ word :: args) = finish (given.has .verbose)
      ((Run.quiet (checkGiven files .program given given)).andThen fun _ =>
        runCommand files given level args) := by
  have hwords : ∀ c ∈ Level.commands, c.1 ≠ "--" ∧ isOption c.1 = false := by decide
  obtain ⟨hdashes, hoption⟩ := hwords _ hword
  exact run_of_readArguments (readArguments_append hlead hdashes hoption args) hhelp hword

/-- A run that inspects. -/
theorem run_inspect : run files (lead ++ ["inspect"])
    = finish (given.has .verbose) ((prepare files given).andThen (runInspect files)) := by
  have hargs : readLevel files .inspect [] = .ok ([], []) := rfl
  rw [run_append hlead hhelp (List.mem_cons_of_mem _ List.mem_cons_self), prepare,
    Run.andThen_assoc]
  simp only [Run.andThen_assoc, Run.quiet_ok_andThen, runCommand, hargs]
  rfl

/-- A run that converts. -/
theorem run_convert {args : List String} {own : Given}
    (hargs : readLevel files .convert args = .ok (own, [])) :
    run files (lead ++ "convert" :: args) = finish (given.has .verbose)
      ((prepare files given).andThen fun setup => runConvert files setup own) := by
  rw [run_append hlead hhelp List.mem_cons_self, runCommand_convert hargs]

omit hlead hhelp

/-! ## Options that were checked -/

/-- Every option that was given has passed its check, with its last value. -/
theorem checkSetting_of_checkGiven {l : Level} {own gs : Given}
    (h : checkGiven files l own gs = .ok ()) {g : Setting × String} (hg : g ∈ gs) :
    checkSetting files l g.1 ((own.last? g.1).getD g.2) = .ok () := by
  induction gs with
  | nil => exact absurd hg List.not_mem_nil
  | cons e gs ih =>
    rw [checkGiven] at h
    obtain ⟨_, hcheck, h⟩ := bind_eq_ok_iff.mp h
    rcases List.mem_cons.mp hg with rfl | hg
    · exact hcheck
    · exact ih h hg

/-- The options of a level were checked. -/
theorem checkGiven_of_readLevel {l : Level} {args words : List String} {own : Given}
    (h : readLevel files l args = .ok (own, words)) :
    readArguments l args = .ok (own, words) ∧ own.has .help = false
      ∧ checkGiven files l own own = .ok () := by
  rw [readLevel] at h
  obtain ⟨⟨given, rest⟩, hread, h⟩ := bind_eq_ok_iff.mp h
  change (if given.has .help = true then _ else _) = _ at h
  split at h
  · exact nomatch h
  · rename_i hhelp
    obtain ⟨_, hcheck, h⟩ := bind_eq_ok_iff.mp h
    obtain ⟨rfl, rfl⟩ := Prod.mk.inj (Except.ok.inj h)
    exact ⟨mapError_eq_ok_iff.mp hread, Bool.eq_false_iff.mpr hhelp, hcheck⟩

/-- An option with a value was given. -/
theorem exists_mem_of_last? {own : Given} {s : Setting} {value : String}
    (h : own.last? s = some value) : (s, value) ∈ own := by
  obtain ⟨g, hg, rfl⟩ := Option.map_eq_some_iff.mp h
  have hs : g.1 = s :=
    of_decide_eq_true (List.find?_some (p := fun g : Setting × String => g.1 = s) hg)
  rw [← hs]
  exact List.mem_reverse.mp (List.mem_of_find?_eq_some hg)

/-- The runtime that is asked for exists. -/
theorem exists_backend_of_readLevel {l : Level} {args words : List String} {own : Given}
    (h : readLevel files l args = .ok (own, words)) :
    ∃ backend : Backend, (own.last? .backend).getD Backend.docker.name = backend.name := by
  obtain ⟨-, -, hchecks⟩ := checkGiven_of_readLevel h
  cases hlast : own.last? .backend with
  | none => exact ⟨.docker, rfl⟩
  | some name =>
    have hcheck := checkSetting_of_checkGiven hchecks (exists_mem_of_last? hlast)
    rw [hlast] at hcheck
    change (if (Backend.ofName? name).isSome = true then _ else _) = _ at hcheck
    split at hcheck
    · rename_i hname
      obtain ⟨backend, hbackend⟩ := Option.isSome_iff_exists.mp hname
      have hfound := List.find?_some (p := fun b : Backend => b.name == name) hbackend
      exact ⟨backend, (beq_iff_eq.mp hfound).symm⟩
    · exact nomatch hcheck

/-! ## The manifest -/

/-- The manifest that a command is run on, with all that had to be read for it. -/
def manifestIn (files : Files) (given : Given) : Run Manifest :=
  (prepare files given).andThen fun setup =>
    (Run.quiet (readManifest files setup.path)).andThen fun text =>
      ((Manifest.ofText setup.context text).1.mapError (stopFor ∘ .badManifest),
        (Manifest.ofText setup.context text).2)

section

include hlead hhelp

theorem run_inspect_eq : run files (lead ++ ["inspect"]) = finish (given.has .verbose)
    ((manifestIn files given).andThen fun m => (.ok (inspect m).1, (inspect m).2)) := by
  rw [run_inspect hlead hhelp, manifestIn]
  simp only [Run.andThen_assoc]
  rfl

theorem run_convert_eq {args : List String} {own : Given}
    (hargs : readLevel files .convert args = .ok (own, [])) {rules : List RoutingRule}
    (hrules : givenRoutes files own = .ok rules) {backend : Backend}
    (hbackend : (own.last? .backend).getD Backend.docker.name = backend.name) :
    run files (lead ++ "convert" :: args) = finish (given.has .verbose)
      ((manifestIn files given).andThen fun m =>
        Run.andThen ((m.build backend rules).1.mapError (stopFor ∘ .badLabels),
            (m.build backend rules).2) fun module =>
          Run.quiet (deliver files ((own.last? .out).getD "-") module)) := by
  rw [run_convert hlead hhelp hargs, manifestIn]
  simp only [Run.andThen_assoc]
  congr 2
  funext setup
  rw [runConvert, hrules, hbackend]
  cases readManifest files setup.path with
  | error stop => rfl
  | ok text =>
    rw [Run.quiet_ok_andThen]
    show (Run.quiet (.ok (text, rules))).andThen _ = _
    rw [Run.quiet_ok_andThen]
    simp only [convertWith, Backend.ofValue_name]
    cases Manifest.ofText setup.context text with
    | mk result notices =>
      cases result with
      | error fault => rfl
      | ok m =>
        have hstep := Run.append_andThen notices ((m.build backend rules).1.mapError
            (stopFor ∘ .badLabels), (m.build backend rules).2) fun module =>
          Run.quiet (deliver files ((own.last? .out).getD "-") module)
        refine Eq.trans ?_ hstep
        show Run.andThen (((m.build backend rules).1.mapError .badLabels).mapError stopFor, _) _ = _
        rw [mapError_mapError]

end

/-- The files of a project that one text describes. -/
def projectFiles (text : String) : Files := fun path =>
  if path = "docker-compose.yml" then .file text else .absent

end ComposeNix.CommandLine
