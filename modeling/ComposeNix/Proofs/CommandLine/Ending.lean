import ComposeNix.Proofs.CommandLine.Request

/-!
# How a run ends

A run stops short with a page of help, which is no failure, with a report or with a crash.  The
first comes of the arguments alone: past them no step of a run ever asks for help (`NeverHelps`), so
such a run ends well exactly if all of its steps do and what it comes to can be delivered
(`ending_finish_iff`).
-/

namespace ComposeNix.CommandLine

variable {files : Files}

/-- An outcome that is no page of help. -/
def NeverHelps {α : Type} (result : Except Stop α) : Prop :=
  ∀ level, result ≠ .error (.help level)

namespace NeverHelps

variable {α β : Type}

theorem ok (a : α) : NeverHelps (.ok a) := fun _ h => nomatch h

theorem failure (message : String) : NeverHelps (.error (.failure message) : Except Stop α) :=
  fun _ h => nomatch h

theorem crash (fault : Crash) : NeverHelps (.error (.crash fault) : Except Stop α) :=
  fun _ h => nomatch h

theorem misuse (l : Level) (cause : Misuse) :
    NeverHelps (.error (.misuse l cause) : Except Stop α) := fun _ h => nomatch h

/-- Why a run stops has nothing to do with what it would have come to. -/
theorem of_error {stop : Stop} (h : NeverHelps (.error stop : Except Stop α)) :
    NeverHelps (.error stop : Except Stop β) := fun level heq =>
  h level (congrArg _ (Except.error.inj heq))

theorem andThen {r : Run α} {f : α → Run β} (hr : NeverHelps r.1)
    (hf : ∀ a, NeverHelps (f a).1) : NeverHelps (r.andThen f).1 := by
  rw [Run.fst_andThen]
  cases h : r.1 with
  | error stop => exact of_error (h ▸ hr)
  | ok a => exact hf a

theorem bind {x : Except Stop α} {f : α → Except Stop β} (hx : NeverHelps x)
    (hf : ∀ a, NeverHelps (f a)) : NeverHelps (x >>= f) := by
  cases x with
  | error stop => exact of_error hx
  | ok a => exact hf a

theorem openFile (path : String) : NeverHelps (CommandLine.openFile files path) := by
  rw [CommandLine.openFile]
  split
  · exact ok _
  · exact crash _
  · exact crash _

theorem readManifest (path : String) : NeverHelps (CommandLine.readManifest files path) := by
  rw [CommandLine.readManifest]
  split
  · exact openFile path
  · exact failure _

theorem stopFor (fault : ConversionFault) :
    NeverHelps (.error (CommandLine.stopFor fault) : Except Stop α) := by
  rw [CommandLine.stopFor]
  split
  · exact failure _
  · exact crash _

theorem checkSetting (l : Level) (s : Setting) (value : String) :
    NeverHelps (CommandLine.checkSetting files l s value) := by
  have hfile : NeverHelps (checkFile files l s value) := by
    rw [checkFile]
    split
    · exact ok _
    · exact misuse l _
    · exact misuse l _
  have hbackend : NeverHelps (checkBackend l s value) := by
    rw [checkBackend]
    split
    · exact ok _
    · exact misuse l _
  cases s
  case envFile | routes => exact hfile
  case backend => exact hbackend
  all_goals exact ok _

theorem checkGiven (l : Level) (own gs : Given) :
    NeverHelps (CommandLine.checkGiven files l own gs) := by
  induction gs with
  | nil => exact ok _
  | cons g gs ih =>
    rw [CommandLine.checkGiven]
    cases h : CommandLine.checkSetting files l g.1 ((own.last? g.1).getD g.2) with
    | error stop => exact of_error (h ▸ checkSetting l g.1 _)
    | ok _ => exact ih

theorem givenContext (given : Given) : NeverHelps (CommandLine.givenContext files given).1 := by
  rw [CommandLine.givenContext]
  split
  · exact ok _
  · exact ok _
  · rename_i path _ _
    cases h : CommandLine.openFile files path with
    | error stop => exact of_error (h ▸ openFile path)
    | ok text => exact ok _

theorem prepare (given : Given) : NeverHelps (CommandLine.prepare files given).1 :=
  andThen (checkGiven _ _ _) fun _ => andThen (givenContext given) fun _ => ok _

/-- What a conversion fails with is never a page of help. -/
theorem mapError_stopFor (result : Except ConversionFault α) :
    NeverHelps (result.mapError CommandLine.stopFor) := by
  cases result with
  | error fault => exact stopFor fault
  | ok a => exact ok a

theorem manifestIn (given : Given) : NeverHelps (CommandLine.manifestIn files given).1 := by
  refine andThen (prepare given) fun setup => andThen (readManifest setup.path) fun text => ?_
  cases h : (Manifest.ofText setup.context text).1 with
  | error fault => exact stopFor _
  | ok m => exact ok _

theorem deliver (out module : String) : NeverHelps (CommandLine.deliver files out module) := by
  rw [CommandLine.deliver]
  split
  · exact ok _
  · split
    · exact crash _
    · exact crash _
    · split
      · exact ok _
      · exact ok _

theorem routesFrom (path : String) (place : Nat) (vs : List Value) :
    NeverHelps (CommandLine.routesFrom path place vs) := by
  induction vs generalizing place with
  | nil => exact ok _
  | cons v vs ih =>
    rw [CommandLine.routesFrom]
    split
    · exact failure _
    · exact crash _
    · cases h : CommandLine.routesFrom path (place + 1) vs with
      | error stop => exact of_error (h ▸ ih (place + 1))
      | ok rules => exact ok _

theorem readRoutes (path : String) : NeverHelps (CommandLine.readRoutes files path) := by
  rw [CommandLine.readRoutes]
  refine bind (openFile path) fun text => ?_
  split
  · split
    · exact failure _
    · exact crash _
  · exact ok _
  · split
    · exact routesFrom path 1 _
    · exact failure _

theorem givenRoutes (own : Given) : NeverHelps (CommandLine.givenRoutes files own) := by
  rw [CommandLine.givenRoutes]
  split
  · exact ok _
  · exact ok _
  · exact readRoutes _

end NeverHelps

theorem ending_eq_exit_iff {fault? : Option Crash} :
    (fault?.map Ending.crash).getD (.exit 0) = .exit 0 ↔ fault? = none := by
  cases fault? <;> simp

/-- A run that never helps goes well exactly if all of its steps do and nothing breaks the last one
off. -/
theorem ending_finish_iff {r : Run Delivery} (h : NeverHelps r.1) (verbose : Bool) :
    (finish verbose r).ending = .exit 0 ↔ ∃ d, r.1 = .ok d ∧ d.fault = none := by
  rw [finish]
  cases hr : r.1 with
  | error stop =>
    cases stop with
    | help level => exact absurd hr (h level)
    | _ => simp [stopped]
  | ok d => simp [ending_eq_exit_iff]

end ComposeNix.CommandLine
