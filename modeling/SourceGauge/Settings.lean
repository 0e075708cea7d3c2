/-
# SourceGauge.Settings -- what a run is told

Settings say where the sources are, where the report goes, and how to measure.
A settings file names some of them and leaves the others as they are; names that
it does not know are ignored (`Settings.setField?`).  Settings are checked when a
run begins: it needs a worker, and the sources must exist (`Settings.check`).
-/
import SourceGauge.Disk
import SourceGauge.Json
import SourceGauge.Toml.Reader

namespace SourceGauge

set_option autoImplicit false

/-- What a run is told. -/
structure Settings where
  /-- The file or folder to measure. -/
  sources : Path := ⟨"."⟩
  /-- Where the report is written. -/
  output : Path := ⟨"metrics.json"⟩
  withCoupling : Bool := false
  /-- The names of folders that are left out. -/
  exclusions : List String := ["node_modules", ".idea", "dist", "build", "out", "vendor"]
  allHeadersAsC : Bool := false
  /-- The names of files and folders whose headers are C. -/
  headersAsC : List String := []
  /-- The report is written compressed. -/
  compress : Bool := false
  /-- Paths are reported relative to the sources. -/
  relativePaths : Bool := false
  /-- How many files may be measured at the same time. -/
  workers : Nat := 10
  deriving DecidableEq, Repr

/-- Why there are no usable settings. -/
inductive SettingsError where
  | sourcesNotFound (sources : Path)
  | fileNotFound (file : Path)
  | invalid (reason : String)
  /-- The settings file cannot be read from this line on. -/
  | unreadable (line : String)
  deriving DecidableEq, Repr

def SettingsError.message : SettingsError → String
  | sourcesNotFound sources => "Sources path not found: " ++ sources.text
  | fileNotFound file => "Config file not found: " ++ file.text
  | invalid reason => "Invalid config: " ++ reason
  | unreadable line => "Parse error: " ++ line

namespace Settings

/-! ## Settings files -/

def textOf? : Toml → Option String
  | .string text => some text
  | _ => none

def flagOf? : Toml → Option Bool
  | .boolean value => some value
  | _ => none

def countOf? : Toml → Option Nat
  | .integer value => if 0 ≤ value then some value.toNat else none
  | _ => none

def textsOf? : Toml → Option (List String)
  | .array items => items.mapM textOf?
  | _ => none

/-- Set what a field of a settings file names; none when its value is of another
type. -/
def setField? (settings : Settings) (name : String) (value : Toml) : Option Settings :=
  match name with
  | "sources_path" => (textOf? value).map fun text => { settings with sources := ⟨text⟩ }
  | "output_path" => (textOf? value).map fun text => { settings with output := ⟨text⟩ }
  | "parse_dependencies" => (flagOf? value).map fun flag => { settings with withCoupling := flag }
  | "exclusions" => (textsOf? value).map fun texts => { settings with exclusions := texts }
  | "parse_all_h_as_c" => (flagOf? value).map fun flag => { settings with allHeadersAsC := flag }
  | "parse_some_h_as_c" => (textsOf? value).map fun texts => { settings with headersAsC := texts }
  | "compress" => (flagOf? value).map fun flag => { settings with compress := flag }
  | "relative_paths" => (flagOf? value).map fun flag => { settings with relativePaths := flag }
  | "concurrency" => (countOf? value).map fun count => { settings with workers := count }
  | _ => some settings

def setFields (document : Toml.Document) (settings : Settings) :
    List (String × Toml) → Except SettingsError Settings
  | [] => .ok settings
  | (name, value) :: rest =>
      match settings.setField? name value with
      | some settings => setFields document settings rest
      | none => .error (.unreadable (document.lineOf name))

def ofToml (text : String) : Except SettingsError Settings :=
  match Toml.Document.read text with
  | .ok document => setFields document {} document.fields
  | .error line => .error (.unreadable line)

def load (disk : Disk) (file : Path) : Except SettingsError Settings :=
  match disk.readText file with
  | .ok text => ofToml text
  | .error _ => .error (.fileNotFound file)

def toJson (settings : Settings) : Json :=
  .record
    [("sources_path", .string settings.sources.text),
      ("output_path", .string settings.output.text),
      ("parse_dependencies", .bool settings.withCoupling),
      ("exclusions", .strings settings.exclusions),
      ("parse_all_h_as_c", .bool settings.allHeadersAsC),
      ("parse_some_h_as_c", .strings settings.headersAsC),
      ("compress", .bool settings.compress),
      ("relative_paths", .bool settings.relativePaths),
      ("concurrency", .nat settings.workers)]

/-! ## Checking -/

/-- Whether a run can begin with the settings, where `sourcesExist` says whether
there is anything at the path of the sources. -/
def check (settings : Settings) (sourcesExist : Bool) : Except SettingsError Unit :=
  if settings.workers = 0 then .error (.invalid "concurrency must be at least 1")
  else if sourcesExist then .ok ()
  else .error (.sourcesNotFound settings.sources)

end Settings

end SourceGauge
