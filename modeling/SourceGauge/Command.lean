/-
# SourceGauge.Command -- the command line program

A command line is carried out on a disk (`Command.execute`): the settings
come from a settings file, if one is named, and from the arguments; everything
below the sources is measured, and the report is saved.

What can fail is a `Failure`.  Its text names every cause after what it caused,
and the exit code is read off that text (`exitCode`).  Some causes lie outside the
disk: the system may refuse to start workers or to write, in words of its own
(`System`).
-/
import SourceGauge.Command.Arguments
import SourceGauge.Registry.Builtin
import SourceGauge.Report.Output
import SourceGauge.Run
import SourceGauge.Text.Letters

namespace SourceGauge.Command

set_option autoImplicit false

variable [Grammars]

/-! ## The system -/

/-- What a command is told from outside the disk. -/
structure System where
  /-- What is said of a settings file that cannot be read from a line on. -/
  syntaxText : String → String := id
  /-- Why so many workers cannot be started, when they cannot. -/
  workerFault? : Nat → Option String := fun _ => none
  /-- Why nothing may be written at a path, when the system refuses. -/
  writeFault? : Path → Option String := fun _ => none

/-! ## Failures -/

/-- Why a command fails. -/
inductive Failure where
  /-- The settings file could not be used. -/
  | loading (file : Path) (error : SettingsError)
  /-- The run could not begin. -/
  | settings (error : SettingsError)
  /-- The workers could not be started. -/
  | workers (reason : String)
  | output (error : WriteError)
  deriving DecidableEq, Repr

/-- The text of a run that could not begin. -/
def settingsMessage (error : SettingsError) : String := "Configuration error: " ++ error.message

/-- The text of a failure, each cause after a colon. -/
def Failure.message : Failure → String
  | loading file error => "Cannot load config: " ++ file.text ++ ": " ++ error.message
  | settings error => settingsMessage error ++ ": " ++ error.message
  | workers reason => "Worker pool error: " ++ reason
  | output error => error.message ++ ": " ++ error.error.message

/-- The exit code of a failure with a text: 3 when it tells of missing sources, 2
when it tells of settings, 4 when it tells of a report that was not written, and
else 1. -/
def exitCode (message : String) : Nat :=
  let text := Text.lower message
  if Text.contains "sources path not found" text then 3
  else if Text.contains "config" text then 2
  else if Text.contains "cannot write output" text then 4
  else 1

/-! ## Outcomes -/

/-- What a command leaves. -/
structure Outcome where
  code : Nat
  /-- The text on standard output. -/
  printed : String := ""
  /-- The text on standard error. -/
  complaint : String := ""
  /-- Where the report was written. -/
  saved : Option Path := none
  /-- The disk after the command. -/
  disk : Disk

def versionText : String := "tally 0.2.0\n"

def helpText : String :=
  "Calculate source code metrics and type coupling across many languages\n\n" ++
    "Usage: tally [OPTIONS] parse [OPTIONS] [SOURCES_PATH]\n"

/-- What is said of a run whose report was saved. -/
def summary (found : Findings) (target : Path) : String :=
  let relationships := match found.coupling with
    | some coupling => coupling.relationships.length
    | none => 0
  "Measured " ++ toString found.measures.length ++ " files (" ++
    toString found.unsupported.length ++ " unsupported, " ++
    toString found.unreadable.length ++ " errors, " ++
    toString relationships ++ " relationships). Results saved to " ++ target.text ++ "\n"

/-! ## Carrying out -/

/-- An error about a settings file, in the words that are used of it. -/
def System.explain (system : System) : SettingsError → SettingsError
  | .unreadable line => .unreadable (system.syntaxText line)
  | error => error

def settingsFor (disk : Disk) (arguments : Arguments) (system : System) :
    Except Failure Settings :=
  match arguments.get? .settingsFile with
  | none => .ok (arguments.applyTo {})
  | some file =>
      match Settings.load disk ⟨file⟩ with
      | .ok settings => .ok (arguments.applyTo settings)
      | .error error => .error (.loading ⟨file⟩ (system.explain error))

def save (disk : Disk) (settings : Settings) (found : Findings) (system : System) :
    Except WriteError (Path × Disk) :=
  let target := Report.target settings.output settings.compress
  match system.writeFault? target with
  | some reason => .error ⟨target, .refused reason⟩
  | none => (Report.ofFindings found).save disk settings.output settings.compress

/-- Measure and save the report; the result is what was found, where the report
went, and the disk after. -/
def measure (disk : Disk) (arguments : Arguments) (system : System) :
    Except Failure (Findings × Path × Disk) :=
  match settingsFor disk arguments system with
  | .error failure => .error failure
  | .ok settings =>
      match run Registry.builtin disk settings with
      | .error error => .error (.settings error)
      | .ok found =>
          match system.workerFault? settings.workers with
          | some reason => .error (.workers reason)
          | none =>
              match save disk settings found system with
              | .error error => .error (.output error)
              | .ok (target, disk) => .ok (found, target, disk)

def execute (disk : Disk) (words : List String) (system : System := {}) : Outcome :=
  match readLine {} words with
  | .error .wrong => { code := 2, complaint := "error: unexpected arguments\n" ++ helpText, disk }
  | .error .help => { code := 0, printed := helpText, disk }
  | .error .version => { code := 0, printed := versionText, disk }
  | .ok request =>
      match measure disk request.arguments system with
      | .error failure =>
          { code := exitCode failure.message
            complaint := "Error: " ++ failure.message ++ "\n"
            disk }
      | .ok (found, target, disk) =>
          { code := 0
            printed := if request.quiet then "" else summary found target
            saved := some target
            disk }

end SourceGauge.Command
