/-
# SourceGauge.Proofs.Command.ExitCode -- the exit code and the kind of a failure

The exit code of a failure is read off its text, where phrases are looked for in a fixed
order.  The text also holds words from outside: paths, the line of a settings file, what
the system says (`Failure.quoted`).  The fixed words of a failure hold its own phrase and
none that is looked for before it (`Failure.decoys`), so the code is that of the kind of
the failure unless the words from outside hold such a phrase (`exitCode_message_iff`).

* `execute_code_iff`: exactly then does a command that fails end with the code of the
  kind of its failure.  Missing sources always do.
* `execute_code_of_output_in_config`: a report that cannot be written to a folder named
  `config` is taken for a fault of the settings.
-/
import SourceGauge.Command
import SourceGauge.Proofs.Language.OwnGrammars
import SourceGauge.Proofs.Text.Within

namespace SourceGauge

set_option autoImplicit false

open Text (mentions)

/-- The words of an error about settings that come from outside. -/
def SettingsError.quoted : SettingsError → String
  | sourcesNotFound sources => sources.text
  | fileNotFound file => file.text
  | invalid reason => reason
  | unreadable line => line

/-- The exit code for an error about settings: 3 for missing sources, 2 for any other. -/
def SettingsError.kindCode : SettingsError → Nat
  | sourcesNotFound _ => 3
  | _ => 2

namespace Command

/-! ## Phrases -/

def missingPhrase : String := "sources path not found"

def settingsPhrase : String := "config"

def outputPhrase : String := "cannot write output"

theorem exitCode_eq (message : String) :
    exitCode message =
      if mentions message missingPhrase then 3
      else if mentions message settingsPhrase then 2
      else if mentions message outputPhrase then 4
      else 1 := rfl

/-- The exit code for the kind of a failure: 3 when there are no sources, 2 for any other fault
of the settings, 4 when the report could not be written, and else 1. -/
def Failure.kindCode : Failure → Nat
  | loading _ error => error.kindCode
  | settings error => error.kindCode
  | workers _ => 1
  | output _ => 4

/-- The words in the text of a failure that come from outside. -/
def Failure.quoted : Failure → List String
  | loading file error => [file.text, error.quoted]
  | settings error => [error.quoted]
  | workers reason => [reason]
  | output error => [error.target.text, error.error.message]

/-- The phrases that are looked for before the one that a failure of its kind has. -/
def Failure.decoys (failure : Failure) : List String :=
  match failure.kindCode with
  | 3 => []
  | 2 => [missingPhrase]
  | 4 => [missingPhrase, settingsPhrase]
  | _ => [missingPhrase, settingsPhrase, outputPhrase]

/-! ## The text of a failure -/

theorem isPlain_missingPhrase : Text.IsPlain missingPhrase := by decide

theorem isPlain_settingsPhrase : Text.IsPlain settingsPhrase := by decide

/-- An error about settings tells of missing sources when it is one, or quotes words that do. -/
theorem mentions_settingsError (error : SettingsError) :
    mentions error.message missingPhrase =
      (decide (error.kindCode = 3) || mentions error.quoted missingPhrase) := by
  cases error with
  | sourcesNotFound sources =>
      have own : mentions "Sources path not found: " missingPhrase = true := by decide
      exact Text.mentions_append_left own _
  | fileNotFound file =>
      have clear : Text.IsClearOf "Config file not found: " missingPhrase := by decide
      show _ = (false || mentions _ missingPhrase)
      rw [Bool.false_or]
      exact Text.mentions_append_of_clear clear _
  | invalid reason =>
      have clear : Text.IsClearOf "Invalid config: " missingPhrase := by decide
      show _ = (false || mentions _ missingPhrase)
      rw [Bool.false_or]
      exact Text.mentions_append_of_clear clear _
  | unreadable line =>
      have clear : Text.IsClearOf "Parse error: " missingPhrase := by decide
      show _ = (false || mentions _ missingPhrase)
      rw [Bool.false_or]
      exact Text.mentions_append_of_clear clear _

theorem mentions_loading (file : Path) (error : SettingsError) :
    mentions (Failure.loading file error).message missingPhrase =
      (mentions file.text missingPhrase || mentions error.message missingPhrase) := by
  have clear : Text.IsClearOf "Cannot load config: " missingPhrase := by decide
  show mentions ("Cannot load config: " ++ file.text ++ ": " ++ error.message) missingPhrase = _
  rw [Text.mentions_cause isPlain_missingPhrase, Text.mentions_append_of_clear clear]

theorem mentions_settings (error : SettingsError) :
    mentions (Failure.settings error).message missingPhrase =
      mentions error.message missingPhrase := by
  have clear : Text.IsClearOf "Configuration error: " missingPhrase := by decide
  show mentions ("Configuration error: " ++ error.message ++ ": " ++ error.message)
    missingPhrase = _
  rw [Text.mentions_cause isPlain_missingPhrase, Text.mentions_append_of_clear clear, Bool.or_self]

/-- A phrase that the fixed words about a report are clear of is in the path or in the cause, or
nowhere. -/
theorem mentions_output {phrase : String} (plain : Text.IsPlain phrase)
    (clear : Text.IsClearOf "Cannot write output file " phrase) (error : WriteError) :
    mentions (Failure.output error).message phrase =
      (mentions error.target.text phrase || mentions error.error.message phrase) := by
  show mentions ("Cannot write output file " ++ error.target.text ++ ": " ++ error.error.message ++
    ": " ++ error.error.message) phrase = _
  rw [Text.mentions_cause plain, Text.mentions_cause plain, Text.mentions_append_of_clear clear,
    Bool.or_assoc, Bool.or_self]

theorem mentions_workers {phrase : String} (clear : Text.IsClearOf "Worker pool error: " phrase)
    (reason : String) :
    mentions (Failure.workers reason).message phrase = mentions reason phrase :=
  Text.mentions_append_of_clear clear reason

/-! ## Its own phrase -/

theorem loading_mentions (file : Path) (error : SettingsError) :
    mentions (Failure.loading file error).message settingsPhrase = true := by
  have own : mentions "Cannot load config: " settingsPhrase = true := by decide
  show mentions ("Cannot load config: " ++ file.text ++ ": " ++ error.message) settingsPhrase = _
  rw [String.append_assoc, String.append_assoc]
  exact Text.mentions_append_left own _

theorem settings_mentions (error : SettingsError) :
    mentions (Failure.settings error).message settingsPhrase = true := by
  have own : mentions "Configuration error: " settingsPhrase = true := by decide
  show mentions ("Configuration error: " ++ error.message ++ ": " ++ error.message)
    settingsPhrase = _
  rw [String.append_assoc, String.append_assoc]
  exact Text.mentions_append_left own _

theorem output_mentions (error : WriteError) :
    mentions (Failure.output error).message outputPhrase = true := by
  have own : mentions "Cannot write output file " outputPhrase = true := by decide
  show mentions ("Cannot write output file " ++ error.target.text ++ ": " ++ error.error.message ++
    ": " ++ error.error.message) outputPhrase = _
  rw [String.append_assoc, String.append_assoc, String.append_assoc, String.append_assoc]
  exact Text.mentions_append_left own _

/-- The exit code is that of the kind of a failure, unless words from outside hold a phrase that
is looked for before. -/
theorem exitCode_message_iff (failure : Failure) :
    exitCode failure.message = failure.kindCode ↔
      ∀ text ∈ failure.quoted, ∀ phrase ∈ failure.decoys, mentions text phrase = false := by
  rw [exitCode_eq]
  cases failure with
  | loading file error =>
      rw [loading_mentions, mentions_loading, mentions_settingsError]
      cases error <;>
        simp [Failure.kindCode, Failure.decoys, Failure.quoted, SettingsError.kindCode,
          SettingsError.quoted]
  | settings error =>
      rw [settings_mentions, mentions_settings, mentions_settingsError]
      cases error <;>
        simp [Failure.kindCode, Failure.decoys, Failure.quoted, SettingsError.kindCode,
          SettingsError.quoted]
  | workers reason =>
      have missing : Text.IsClearOf "Worker pool error: " missingPhrase := by decide
      have settings : Text.IsClearOf "Worker pool error: " settingsPhrase := by decide
      have output : Text.IsClearOf "Worker pool error: " outputPhrase := by decide
      rw [mentions_workers missing, mentions_workers settings, mentions_workers output]
      simp only [Failure.kindCode, Failure.decoys, Failure.quoted, List.mem_cons, List.not_mem_nil,
        or_false, forall_eq_or_imp, forall_eq]
      cases mentions reason missingPhrase <;> cases mentions reason settingsPhrase <;>
        cases mentions reason outputPhrase <;> simp
  | output error =>
      have missing : Text.IsClearOf "Cannot write output file " missingPhrase := by decide
      have settings : Text.IsClearOf "Cannot write output file " settingsPhrase := by decide
      rw [output_mentions, mentions_output isPlain_missingPhrase missing,
        mentions_output isPlain_settingsPhrase settings]
      simp only [Failure.kindCode, Failure.decoys, Failure.quoted, List.mem_cons, List.not_mem_nil,
        or_false, forall_eq_or_imp, forall_eq]
      cases mentions error.target.text missingPhrase <;>
        cases mentions error.error.message missingPhrase <;>
        cases mentions error.target.text settingsPhrase <;>
        cases mentions error.error.message settingsPhrase <;> simp

/-! ## A command that fails -/

/-- **The exit code tells the kind of a failure**, 3 for missing sources, 2 for any other fault of
the settings, 4 for a report that could not be written and 1 for anything else, exactly when
no word from outside holds a phrase that is looked for before: neither a path, nor the text of
a settings file, nor what the system says. -/
theorem execute_code_iff [Grammars] {disk : Disk} {words : List String} {system : System}
    {request : Request} (read : readLine {} words = .ok request) {failure : Failure}
    (failed : measure disk request.arguments system = .error failure) :
    (execute disk words system).code = failure.kindCode ↔
      ∀ text ∈ failure.quoted, ∀ phrase ∈ failure.decoys, mentions text phrase = false := by
  rw [← exitCode_message_iff]
  simp only [execute, read, failed]

/-! ## Reports for folders that do not exist -/

namespace EmptyFolder

def disk : Disk := { root := .folder [] }

def request (output : String) : Request where
  arguments := { sources := some ⟨"."⟩, fields := [(.output, output)] }
  quiet := false

def settings (output : String) : Settings := { output := ⟨output⟩ }

theorem run_eq [Grammars] (output : String) :
    run Registry.builtin disk (settings output) = .ok {} := by
  have found : disk.find ⟨"."⟩ = .ok (.folder []) := rfl
  have there : disk.hasItem ⟨"."⟩ = true := rfl
  have files (excluded : List String) : disk.discover ⟨"."⟩ excluded = [] := by
    simp only [Disk.discover, found, FileTree.walk, FileTree.walkItems, List.mergeSort_nil]
  simp only [run, Settings.check, survey, Settings.sourceFiles, settings, files, there]
  rfl

/-- A report that cannot be written is the failure of the command. -/
theorem measure_eq [Grammars] {output : String} {error : WriteError}
    (notSaved : save disk (settings output) {} {} = .error error) :
    measure disk (request output).arguments {} = .error (.output error) := by
  have read : settingsFor disk (request output).arguments {} = .ok (settings output) := rfl
  simp only [measure, read, run_eq, notSaved]

end EmptyFolder

attribute [local instance] sampleGrammars

open EmptyFolder in
theorem execute_code_iff_output_in_new :
    readLine {} ["parse", "-o", "new/out.json", "."] = .ok (request "new/out.json") ∧
      measure disk (request "new/out.json").arguments {} =
        .error (.output ⟨⟨"new/out.json"⟩, .notFound⟩) ∧
      (execute disk ["parse", "-o", "new/out.json", "."] {}).code = 4 := by
  have read : readLine {} ["parse", "-o", "new/out.json", "."] = .ok (request "new/out.json") := rfl
  have failed := measure_eq (show save disk (settings "new/out.json") {} {} =
    .error ⟨⟨"new/out.json"⟩, .notFound⟩ from rfl)
  exact ⟨read, failed, (execute_code_iff read failed).mpr (by decide)⟩

open EmptyFolder in
/-- A report that cannot be written to a folder of this name is taken for a fault of the
settings. -/
theorem execute_code_of_output_in_config :
    readLine {} ["parse", "-o", "config/out.json", "."] = .ok (request "config/out.json") ∧
      measure disk (request "config/out.json").arguments {} =
        .error (.output ⟨⟨"config/out.json"⟩, .notFound⟩) ∧
      (Failure.output ⟨⟨"config/out.json"⟩, .notFound⟩).kindCode = 4 ∧
      (execute disk ["parse", "-o", "config/out.json", "."] {}).code = 2 := by
  have read : readLine {} ["parse", "-o", "config/out.json", "."] =
    .ok (request "config/out.json") := rfl
  have failed := measure_eq (show save disk (settings "config/out.json") {} {} =
    .error ⟨⟨"config/out.json"⟩, .notFound⟩ from rfl)
  refine ⟨read, failed, rfl, ?_⟩
  simp only [execute, read, failed]
  decide +kernel

end Command

end SourceGauge
