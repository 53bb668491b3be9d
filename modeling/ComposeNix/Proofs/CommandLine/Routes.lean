import ComposeNix.Proofs.CommandLine.Delivery
import ComposeNix.Proofs.Faults

/-!
# A file of routes that cannot be loaded

A manifest and a file of routes are loaded by the same reader, so a text that is no document is none
in either place, and for the same reason.  What becomes of the reason differs.  A manifest passes on
only what nobody foresees, while the file of routes reports what is wrong with the document and
passes on all the rest (`routesStop`).

Between the two lie the faults that are foreseen without being faults of the document: a scalar or a
directive that should denote a number and does not.  `convert_reports_routes_iff` says that these
are the whole difference: the run ends with a report for every text that would be reported as a
manifest, apart from the texts that are at fault in this way, and these crash it.

A manifest is looked through for forbidden characters before anything else is done with it.  A file
may be looked through in pieces, when the reading comes to them, and then something else may be
found at fault in front of such a character.  `LookedThrough` says of a text that this makes no
difference.
-/

namespace ComposeNix.CommandLine

variable {files : Files} {lead args : List String} {given own : Given}

/-! ## Looking through the file -/

/-- How many characters of a file are looked through before the first of them is read. -/
def firstPiece : Nat := 8192

/-- A text is at fault in the same way whether it is looked through for forbidden characters as a
whole or in pieces: the first such character stands in the first piece, or the characters in front
of it are a document. -/
def LookedThrough (text : List Char) : Prop :=
  ∀ c position, Yaml.forbidden? 0 text = some (c, position) →
    position < firstPiece
      ∨ Succeeds (Yaml.Document.ofTokens (.ofText (text.take position)))

/-- A file of routes that cannot be loaded, and its text. -/
structure Unloadable (files : Files) (path text : String) (fault : Yaml.Fault) : Prop where
  opened : openFile files path = .ok text
  looked : LookedThrough text.toList
  loaded : Yaml.load text.toList = .error fault

/-! ## Reading the file -/

/-- What the report on a file of routes says. -/
def routesReport (path : String) (fault : Yaml.Fault) : String :=
  "Invalid routing file " ++ path ++ ": " ++ fault.message (.file path)

/-- How a run ends on a file of routes that cannot be loaded. -/
def routesStop (path : String) (fault : Yaml.Fault) : Stop :=
  if fault.grade = .document then .failure (routesReport path fault)
  else .crash (.routes path fault)

theorem readRoutes_of_load_eq_error {path text : String} {fault : Yaml.Fault}
    (htext : openFile files path = .ok text) (hload : Yaml.load text.toList = .error fault) :
    readRoutes files path = .error (routesStop path fault) := by
  simp only [readRoutes, htext, bind, Except.bind, hload]
  by_cases hgrade : fault.grade = .document
  · rw [if_pos hgrade, routesStop, if_pos hgrade]
    rfl
  · rw [if_neg hgrade, routesStop, if_neg hgrade]

/-- The file of routes is read if an option names it. -/
theorem givenRoutes_of_last? {path : String} (hpath : own.last? .routes = some path)
    (hne : path ≠ "") : givenRoutes files own = readRoutes files path := by
  rw [givenRoutes, hpath]
  split
  · next h => cases h
  · next h => exact absurd (Option.some.inj h) hne
  · next h => rw [Option.some.inj h]

/-! ## The run -/

/-- With a manifest to read, a run that converts stops at the routes.  Before that only the
variables have been told about, and nothing is printed or written. -/
theorem run_convert_of_givenRoutes_eq_error (hlead : readArguments .program lead = .ok (given, []))
    (hhelp : given.has .help = false) (hargs : readLevel files .convert args = .ok (own, []))
    {setup : Setup} (hsetup : (prepare files given).1 = .ok setup) {manifest : String}
    (hmanifest : readManifest files setup.path = .ok manifest) {stop : Stop}
    (hroutes : givenRoutes files own = .error stop) :
    run files (lead ++ "convert" :: args)
      = stopped (reported (given.has .verbose) (prepare files given).2) stop := by
  have hconvert : runConvert files setup own = (.error stop, []) := by
    rw [runConvert, hmanifest, hroutes]
    rfl
  rw [run_convert hlead hhelp hargs]
  cases hprepare : prepare files given with
  | mk result notices =>
    obtain rfl : result = .ok setup := by rw [← hsetup, hprepare]
    rw [Run.andThen, hconvert, finish, List.append_nil]

/-- A run ends with a report on its file of routes, and writes nothing. -/
structure ReportsRoutes (path : String) (outcome : Outcome) : Prop where
  ending : outcome.ending = .exit 1
  report : ∃ log problem, outcome.errors
    = log ++ plain ("Error: " ++ ("Invalid routing file " ++ path ++ ": " ++ problem)) ++ "\n"
  written : outcome.written = []

theorem stopped_routesStop_of_document {fault : Yaml.Fault} (h : fault.grade = .document)
    (path log : String) : stopped log (routesStop path fault)
      = ⟨"", log ++ plain ("Error: " ++ routesReport path fault) ++ "\n", [], .exit 1⟩ := by
  rw [routesStop, if_pos h]
  rfl

theorem stopped_routesStop_of_ne_document {fault : Yaml.Fault} (h : fault.grade ≠ .document)
    (path log : String) : stopped log (routesStop path fault)
      = ⟨"", log, [], .crash (.routes path fault)⟩ := by
  rw [routesStop, if_neg h]
  rfl

theorem reportsRoutes_routesStop_iff {path log : String} {fault : Yaml.Fault} :
    ReportsRoutes path (stopped log (routesStop path fault)) ↔ fault.grade = .document := by
  constructor
  · intro hreports
    by_contra hgrade
    rw [stopped_routesStop_of_ne_document hgrade] at hreports
    cases hreports.ending
  · intro hgrade
    rw [stopped_routesStop_of_document hgrade]
    exact ⟨rfl, ⟨log, fault.message (.file path), rfl⟩, rfl⟩

/-- A text that cannot be loaded, as a manifest and as a file of routes.  As a manifest it is
refused, and that is reported unless nobody foresees the fault.  As a file of routes it ends the run
before anything is printed or written: with a report that names the file if the document is at
fault, and else with a crash.  So a text that is reported as a manifest is reported as a file of
routes exactly if its fault does not lie in what a directive or a scalar denotes. -/
theorem convert_reports_routes_iff (hlead : readArguments .program lead = .ok (given, []))
    (hhelp : given.has .help = false) (hargs : readLevel files .convert args = .ok (own, []))
    {setup : Setup} (hsetup : (prepare files given).1 = .ok setup) {manifest : String}
    (hmanifest : readManifest files setup.path = .ok manifest)
    {path : String} (hpath : own.last? .routes = some path) (hne : path ≠ "")
    {text : String} {fault : Yaml.Fault} (hroutes : Unloadable files path text fault) :
    (∃ cause, (Manifest.ofText none text).1 = .error cause
        ∧ (isReported (.badManifest cause) = true ↔ fault.grade ≠ .unforeseen))
      ∧ (fault.grade = .document → run files (lead ++ "convert" :: args)
          = ⟨"", reported (given.has .verbose) (prepare files given).2
              ++ plain ("Error: " ++ routesReport path fault) ++ "\n", [], .exit 1⟩)
      ∧ (fault.grade ≠ .document → run files (lead ++ "convert" :: args)
          = ⟨"", reported (given.has .verbose) (prepare files given).2, [],
              .crash (.routes path fault)⟩)
      ∧ ((∀ cause, (Manifest.ofText none text).1 = .error cause →
            isReported (.badManifest cause) = true →
            ReportsRoutes path (run files (lead ++ "convert" :: args)))
          ↔ fault.grade ≠ .value) := by
  have hcause : (Manifest.ofText none text).1 = .error (.unreadable text.toList fault) := by
    rw [Manifest.fst_ofText]
    exact Manifest.ofPlainText_unreadable_iff.mpr ⟨rfl, hroutes.loaded⟩
  have hreported : isReported (.badManifest (.unreadable text.toList fault)) = true
      ↔ fault.grade ≠ .unforeseen := by simp [isReported]
  have hstop : givenRoutes files own = .error (routesStop path fault) := by
    rw [givenRoutes_of_last? hpath hne,
      readRoutes_of_load_eq_error hroutes.opened hroutes.loaded]
  rw [run_convert_of_givenRoutes_eq_error hlead hhelp hargs hsetup hmanifest hstop]
  refine ⟨⟨_, hcause, hreported⟩, fun hgrade => stopped_routesStop_of_document hgrade path _,
    fun hgrade => stopped_routesStop_of_ne_document hgrade path _, ?_⟩
  · simp only [hcause, Except.error.injEq, forall_eq', hreported, reportsRoutes_routesStop_iff]
    cases fault.grade <;> simp

/-! ## Two files that cannot be loaded -/

/-- How far the fault of a text is foreseen, if the text cannot be loaded. -/
def loadGrade? (text : List Char) : Option Yaml.Grade :=
  match Yaml.load text with
  | .error fault => some fault.grade
  | .ok _ => none

theorem exists_load_of_loadGrade? {text : List Char} {grade : Yaml.Grade}
    (h : loadGrade? text = some grade) :
    ∃ fault, Yaml.load text = .error fault ∧ fault.grade = grade := by
  rw [loadGrade?] at h
  split at h
  · next fault hload => exact ⟨fault, hload, Option.some.inj h⟩
  · cases h

/-- A project of one service, with a file of routes. -/
def routedFiles (routes : String) : Files := fun path =>
  if path = "docker-compose.yml" then .file "services:\n  a: \x7b\x7d\n"
  else if path = "routes.yml" then .file routes else .absent

theorem readLevel_routedFiles (routes : String) :
    readLevel (routedFiles routes) .convert ["--routes", "routes.yml"]
      = .ok ([(.routes, "routes.yml")], []) := by
  have hcluster : readOption .convert "--routes" = .ok ⟨[], some ("--routes", .routes)⟩ := rfl
  have hread : readArguments .convert ["--routes", "routes.yml"]
      = .ok ([(.routes, "routes.yml")], []) := by
    rw [readArguments_cons, if_neg (by decide), if_pos (by decide), hcluster]
    rfl
  rw [readLevel_eq hread rfl]
  rfl

/-- A text without forbidden characters has nothing to be found by looking through it. -/
theorem lookedThrough_of_forbidden?_eq_none {text : List Char} (h : Yaml.forbidden? 0 text = none) :
    LookedThrough text := fun _ _ hfound => (nomatch h.symm.trans hfound)

/-- A file of routes that ends too early is reported. -/
theorem convert_reports_routes_unclosed : ∃ fault,
    Unloadable (routedFiles "[") "routes.yml" (String.ofList (Text.unifyLineEnds ['['])) fault
      ∧ fault.grade = .document
      ∧ ReportsRoutes "routes.yml"
          (run (routedFiles "[") ["convert", "--routes", "routes.yml"]) := by
  obtain ⟨fault, hload, hgrade⟩ := exists_load_of_loadGrade?
    (by decide +kernel : loadGrade? (String.ofList (Text.unifyLineEnds ['['])).toList
      = some .document)
  have hlead : readArguments .program [] = .ok ([], []) := rfl
  have hsetup : (prepare (routedFiles "[") []).1 = .ok ⟨"docker-compose.yml", none⟩ := rfl
  have hroutes : Unloadable (routedFiles "[") "routes.yml"
      (String.ofList (Text.unifyLineEnds ['['])) fault :=
    ⟨rfl, lookedThrough_of_forbidden?_eq_none rfl, hload⟩
  obtain ⟨⟨cause, hcause, hreported⟩, -, -, hiff⟩ := convert_reports_routes_iff
    hlead rfl (readLevel_routedFiles "[") hsetup rfl rfl (by decide) hroutes
  refine ⟨fault, hroutes, hgrade, hiff.mpr (by rw [hgrade]; decide) cause hcause ?_⟩
  exact hreported.mpr (by rw [hgrade]; decide)

/-- Routes with a word under the tag of integers. -/
def notInteger : String := "- name: !!int x\n"

/-- As a manifest this text is refused with a report, and as a file of routes, next to a manifest
that can be read, it crashes the run. -/
theorem not_reportsRoutes_notInteger :
    (∃ cause, (Manifest.ofText none notInteger).1 = .error cause
        ∧ isReported (.badManifest cause) = true)
      ∧ (∃ m, (manifestIn (routedFiles notInteger) []).1 = .ok m)
      ∧ (∃ fault, (run (routedFiles notInteger) ["convert", "--routes", "routes.yml"]).ending
          = .crash fault)
      ∧ ¬ ReportsRoutes "routes.yml"
          (run (routedFiles notInteger) ["convert", "--routes", "routes.yml"]) := by
  obtain ⟨fault, hload, hgrade⟩ := exists_load_of_loadGrade?
    (by decide +kernel : loadGrade? notInteger.toList = some .value)
  have hdocument : fault.grade ≠ .document := by rw [hgrade]; decide
  have hlead : readArguments .program [] = .ok ([], []) := rfl
  have htext : openFile (routedFiles notInteger) "routes.yml" = .ok notInteger := rfl
  have hsetup : (prepare (routedFiles notInteger) []).1 = .ok ⟨"docker-compose.yml", none⟩ := rfl
  have hmanifest : Succeeds (manifestIn (routedFiles notInteger) []).1 := by decide +kernel
  have hrun : run (routedFiles notInteger) ["convert", "--routes", "routes.yml"]
      = stopped "" (routesStop "routes.yml" fault) :=
    run_convert_of_givenRoutes_eq_error hlead rfl (readLevel_routedFiles notInteger) hsetup rfl
      (readRoutes_of_load_eq_error htext hload)
  refine ⟨⟨.unreadable notInteger.toList fault, ?_, ?_⟩, ?_, ?_, ?_⟩
  · rw [Manifest.fst_ofText]
    exact Manifest.ofPlainText_unreadable_iff.mpr ⟨rfl, hload⟩
  · simp [isReported, hgrade]
  · exact hmanifest
  · rw [hrun, stopped_routesStop_of_ne_document hdocument]
    exact ⟨_, rfl⟩
  · rw [hrun, reportsRoutes_routesStop_iff]
    exact hdocument

end ComposeNix.CommandLine
